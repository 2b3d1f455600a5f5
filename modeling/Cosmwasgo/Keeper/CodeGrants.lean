import Cosmwasgo.Keeper.Authz
import Cosmwasgo.Keeper.Query
import Cosmwasgo.Lib.Sha256
import Cosmwasgo.Lib.Utf8

namespace Cosmwasgo.Types

open Cosmwasgo.Lib

structure CodeGrant where
  codeHash : Bytes
  instantiatePermission : Option AccessConfig
  deriving DecidableEq, Repr

structure StoreCodeAuthorization where
  grants : List CodeGrant
  deriving DecidableEq, Repr

/-- What is used of Go's Unicode tables. The asterisk has no case. -/
structure UnicodeTables where
  simpleFold : Nat → Nat
  toLower : Bytes → Bytes
  simpleFold_asterisk : simpleFold 0x2A = 0x2A

end Cosmwasgo.Types

namespace Cosmwasgo.Keeper

open Cosmwasgo.Lib Cosmwasgo.Types Cosmwasgo.State

variable {X : Type}

/-- `wasmvm.CreateChecksum`. -/
def createChecksum (wasm : Bytes) : Except Err Bytes :=
  if wasm.length = 0 then .error (.text "Wasm bytes nil or empty")
  else if wasm.length < 4 then .error (.text "Wasm bytes shorter than 4 bytes")
  else if wasm.take 4 ≠ [0x00, 0x61, 0x73, 0x6D] then
    .error (.text "Wasm bytes do not start with Wasm magic number")
  else .ok (sha256 wasm)

def codehashWildcard : Bytes := stringToBytes "*"

section Grants

variable (k : Keeper X) (u : UnicodeTables)

def isWildcard (g : CodeGrant) : Bool := Utf8.equalFold u.simpleFold g.codeHash codehashWildcard

def CodeGrant.validateBasic (g : CodeGrant) : Except Err Unit := do
  check (g.codeHash ≠ []) (.wrap errEmpty "code hash")
  match g.instantiatePermission with
  | some permission => AccessConfig.validateBasic k permission
  | none => .ok ()

/-- The checks of several grants, from the given position on. -/
def validateCodeGrants : Nat → List CodeGrant → Except Err Unit
  | _, [] => .ok ()
  | i, g :: rest => do
    check (!isWildcard u g)
      (.wrap errInvalidRequest "cannot have multiple grants when wildcard grant is one of them")
    wrap (CodeGrant.validateBasic k g) ("position " ++ toString i)
    validateCodeGrants (i + 1) rest

def StoreCodeAuthorization.validateBasic (a : StoreCodeAuthorization) : Except Err Unit :=
  match a.grants with
  | [] => .error (.wrap errEmpty "grants")
  | [g] => wrap (CodeGrant.validateBasic k g) "position 0"
  | grants => do
    validateCodeGrants k u 0 grants
    check ((grants.map fun g ↦ u.toLower g.codeHash).dedup.length = grants.length)
      (.wrap errInvalidRequest "cannot have multiple grants with same code hash")

/-- Whether the grant is one for the code. -/
def CodeGrant.matches (g : CodeGrant) (checksum : Bytes) : Bool :=
  isWildcard u g || Utf8.equalFold u.simpleFold g.codeHash checksum

/-- `IsSubset` is called on the permission of the message, which may be a nil pointer. -/
def CodeGrant.accept (g : CodeGrant) (checksum : Bytes) (permission : Option AccessConfig) : Except Panic Bool :=
  if !CodeGrant.matches u g checksum then .ok false
  else
    match g.instantiatePermission with
    | none => .ok true
    | some superSet =>
      match permission with
      | none => .error nilPointer
      | some permission => .ok (permission.isSubset superSet)

def acceptCode (checksum : Bytes) (permission : Option AccessConfig) : List CodeGrant → Except Panic Bool
  | [] => .ok false
  | grant :: rest => do
    if ← CodeGrant.accept u grant checksum permission then return true
    acceptCode checksum permission rest

/-- The code of the message, unpacked at a price if the context has a gas register. -/
def grantedCode (gasRegister : Option GasRegister) (code : Bytes) : M X Bytes :=
  if isGzip code then
    match gasRegister with
    | none => Program.fail (.wrap sdkErrNotFound "gas register")
    | some gasRegister => do
      let cost ← liftPanic (gasRegister.uncompressCosts code.length)
      consumeGas cost "Uncompress gzip bytecode"
      Program.lift ((k.lib.uncompress code maxWasmSize).mapError fun _ ↦
        .wrap errInvalidRequest "uncompress wasm archive")
  else pure code

def StoreCodeAuthorization.accept (gasRegister : Option GasRegister) (a : StoreCodeAuthorization) (msg : Msg) :
    M X AcceptResponse :=
  match msg with
  | .storeCode storeMsg => do
    let code ← grantedCode k gasRegister storeMsg.wasmByteCode
    let checksum ← Program.lift ((createChecksum code).mapError fun _ ↦ .wrap errInvalidRequest "checksum")
    let accept ← liftPanic (acceptCode u checksum storeMsg.instantiatePermission a.grants)
    return { accept }
  | _ => Program.fail (.wrap errInvalidRequest "unknown msg type")

end Grants

end Cosmwasgo.Keeper
