import Cosmwasgo.Lib.Bytes

namespace Cosmwasgo.Types

open Cosmwasgo.Lib

/-- The errors wasmvm passes back to a contract. -/
inductive SystemError
  | invalidRequest (err : String) (request : Bytes)
  | invalidResponse (err : String) (response : Bytes)
  | noSuchContract (addr : String)
  | noSuchCode (codeID : Nat)
  | unknown
  | unsupportedRequest (kind : String)
  deriving DecidableEq, Repr

/-- A Go error value. `sdk` is an error registered with the SDK, `text` one without a code. -/
inductive Err
  | sdk (codespace : String) (code : Nat) (desc : String)
  | text (s : String)
  | wrap (cause : Err) (desc : String)
  | deterministic (cause : Err)
  | flavoured (sdkErr : Err) (wasmVMErr : SystemError)
  | system (e : SystemError)
  deriving DecidableEq, Repr

/-- A Go panic value. -/
inductive Panic
  | outOfGas (descriptor : String)
  | gasOverflow (descriptor : String)
  | other (msg : String)
  deriving DecidableEq, Repr

def Panic.isOutOfGas : Panic → Bool
  | .outOfGas _ => true
  | _ => false

/-- `string(bz)`, byte for byte. -/
def bytesToString (b : Bytes) : String := String.ofList (b.map fun x ↦ Char.ofNat x.val)

def SystemError.error : SystemError → String
  | .invalidRequest err request => "invalid request: " ++ err ++ " - original request: " ++ bytesToString request
  | .invalidResponse err response => "invalid response: " ++ err ++ " - original response: " ++ bytesToString response
  | .noSuchContract addr => "no such contract: " ++ addr
  | .noSuchCode codeID => "no such code: " ++ toString codeID
  | .unknown => "unknown system error"
  | .unsupportedRequest kind => "unsupported request: " ++ kind

namespace Err

def error : Err → String
  | .sdk _ _ desc => desc
  | .text s => s
  | .wrap cause desc => desc ++ ": " ++ cause.error
  | .deterministic cause => cause.error
  | .flavoured sdkErr _ => sdkErr.error
  | .system e => e.error

/-- `errors.Is`: the error or one of its causes is the target. -/
def is : Err → Err → Bool
  | .sdk cs code desc, target => Err.sdk cs code desc == target
  | .text s, target => Err.text s == target
  | .wrap cause desc, target => Err.wrap cause desc == target || cause.is target
  | .deterministic cause, target => Err.deterministic cause == target || cause.is target
  | .flavoured sdkErr vmErr, target => Err.flavoured sdkErr vmErr == target || sdkErr.is target
  | .system e, target => Err.system e == target

/-- Codespace and code of the root cause; an unregistered error is internal. -/
def abciInfo : Err → String × Nat
  | .sdk cs code _ => (cs, code)
  | .text _ => ("undefined", 1)
  | .wrap cause _ => cause.abciInfo
  | .deterministic cause => cause.abciInfo
  | .flavoured sdkErr _ => sdkErr.abciInfo
  | .system _ => ("undefined", 1)

end Err

def errCreateFailed : Err := .sdk "wasm" 2 "create wasm contract failed"
def errAccountExists : Err := .sdk "wasm" 3 "contract account already exists"
def errInstantiateFailed : Err := .sdk "wasm" 4 "instantiate wasm contract failed"
def errExecuteFailed : Err := .sdk "wasm" 5 "execute wasm contract failed"
def errNotFound : Err := .sdk "wasm" 8 "not found"
def errQueryFailed : Err := .sdk "wasm" 9 "query wasm contract failed"
def errInvalidMsg : Err := .sdk "wasm" 10 "invalid CosmosMsg from the contract"
def errMigrationFailed : Err := .sdk "wasm" 11 "migrate wasm contract failed"
def errEmpty : Err := .sdk "wasm" 12 "empty"
def errLimit : Err := .sdk "wasm" 13 "exceeds limit"
def errInvalid : Err := .sdk "wasm" 14 "invalid"
def errDuplicate : Err := .sdk "wasm" 15 "duplicate"
def errMaxIBCChannels : Err := .sdk "wasm" 16 "max transfer channels"
def errUnsupportedForContract : Err := .sdk "wasm" 17 "unsupported for this contract"
def errPinContractFailed : Err := .sdk "wasm" 18 "pinning contract failed"
def errUnpinContractFailed : Err := .sdk "wasm" 19 "unpinning contract failed"
def errUnknownMsg : Err := .sdk "wasm" 20 "unknown message from the contract"
def errInvalidEvent : Err := .sdk "wasm" 21 "invalid event"
def errNoSuchContractFn (addr : String) : Err :=
  .flavoured (.sdk "wasm" 22 "no such contract") (.noSuchContract addr)
def errExceedMaxQueryStackSize : Err := .sdk "wasm" 27 "max query stack size exceeded"
def errNoSuchCodeFn (id : Nat) : Err := .flavoured (.sdk "wasm" 28 "no such code") (.noSuchCode id)
def errVMError : Err := .sdk "wasm" 29 "wasmvm error"
def errExceedMaxCallDepth : Err := .sdk "wasm" 30 "max call depth exceeded"
def errUnauthorized : Err := .sdk "sdk" 4 "unauthorized"
def errUnknownRequest : Err := .sdk "sdk" 6 "unknown request"
def errInvalidAddress : Err := .sdk "sdk" 7 "invalid address"
def errInvalidCoins : Err := .sdk "sdk" 10 "invalid coins"
def errOutOfGas : Err := .sdk "sdk" 11 "out of gas"
def errInvalidRequest : Err := .sdk "sdk" 18 "invalid request"
def errChannelCapabilityNotFound : Err := .sdk "channel" 9 "channel capability not found"

end Cosmwasgo.Types
