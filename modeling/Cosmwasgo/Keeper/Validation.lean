import Cosmwasgo.State.Oracle

namespace Cosmwasgo.Keeper

open Cosmwasgo.Lib Cosmwasgo.Types Cosmwasgo.State

variable {X α : Type}

def maxLabelSize : Nat := 128
def maxSaltSize : Nat := 64
def maxWasmSize : Nat := 800 * 1024
def maxProposalWasmSize : Nat := 3 * 1024 * 1024
def maxAddressCount : Nat := 50
def maxCodeIDCount : Nat := 50

/-- `errorsmod.Wrap`; wrapping no error gives none. -/
def wrap (x : Except Err α) (desc : String) : Except Err α := x.mapError fun e ↦ .wrap e desc

theorem wrap_eq_ok {x : Except Err α} {desc : String} {a : α} : wrap x desc = .ok a ↔ x = .ok a := mapError_eq_ok

def check (b : Bool) (e : Err) : Except Err Unit := if b then .ok () else .error e

theorem check_bind_eq_ok {b : Bool} {e : Err} {x : Except Err α} {a : α} :
    (check b e >>= fun _ ↦ x) = .ok a ↔ b = true ∧ x = .ok a := by
  cases b with
  | true => exact ⟨fun h ↦ ⟨rfl, h⟩, fun h ↦ h.2⟩
  | false => exact ⟨nofun, nofun⟩

def isGzip (input : Bytes) : Bool := [0x1F, 0x8B, 0x08].isPrefixOf input

def validateWasmCode (s : Bytes) (maxSize : Nat) : Except Err Unit := do
  check (s ≠ []) (.wrap errEmpty "is required")
  check (s.length ≤ maxSize) (.wrap errLimit ("cannot be longer than " ++ toString maxSize ++ " bytes"))

def validateLabel (k : Keeper X) (label : String) : Except Err Unit := do
  check (label ≠ "") (.wrap errEmpty "is required")
  check (label.utf8ByteSize ≤ maxLabelSize)
    (.wrap errLimit ("cannot be longer than " ++ toString maxLabelSize ++ " characters"))
  check (label = k.lib.trimSpace label) (.wrap errInvalid "label must not start/end with whitespaces")
  check (label.toList.all k.lib.isPrint) (.wrap errInvalid "label must have printable characters only")

def validateSalt (salt : Bytes) : Except Err Unit := do
  check (salt ≠ []) (.wrap errEmpty "is required")
  check (salt.length ≤ maxSaltSize)
    (.wrap errLimit ("cannot be longer than " ++ toString maxSaltSize ++ " characters"))

/-- `RawContractMessage.ValidateBasic`. -/
def validateRawContractMessage (k : Keeper X) (msg : Bytes) : Except Err Unit := check (k.lib.jsonValid msg) errInvalid

def validateVerificationInfo (k : Keeper X) (source builder : String) (codeHash : Option Bytes) : Except Err Unit :=
  if source ≠ "" ∨ builder ≠ "" ∨ codeHash.getD [] ≠ [] then do
    check (source ≠ "") (.text "source is required")
    (k.lib.parseRequestURI source).mapError fun e ↦ .text ("source: " ++ e)
    check (builder ≠ "") (.text "builder is required")
    (k.lib.parseDockerRef builder).mapError fun e ↦ .text ("builder: " ++ e)
    check codeHash.isSome (.text "code hash is required")
  else .ok ()

/-- `seen` holds the addresses before, in upper case. -/
def validateAddressList (k : Keeper X) (seen : List String) : List String → Except Err Unit
  | [] => .ok ()
  | addr :: rest => do
    let _ ← wrap (k.bech32.fromBech32 addr) ("address: " ++ addr)
    check (!seen.contains (k.lib.toUpper addr)) (.wrap errDuplicate "duplicate addresses")
    validateAddressList k (k.lib.toUpper addr :: seen) rest

def validateBech32Addresses (k : Keeper X) (addresses : List String) : Except Err Unit := do
  check (addresses ≠ []) (.wrap errEmpty "addresses")
  check (addresses.length ≤ maxAddressCount)
    (.wrap errInvalidRequest ("total number of addresses is greater than " ++ toString maxAddressCount))
  validateAddressList k [] addresses

def unknownType (a : AccessType) : Err := .wrap errInvalid ("unknown type: \"" ++ a.string ++ "\"")

def validateAccessType : AccessType → Except Err Unit
  | .unspecified => .error (.wrap errEmpty "type")
  | .other n => .error (unknownType (.other n))
  | _ => .ok ()

def AccessConfig.validateBasic (k : Keeper X) (a : AccessConfig) : Except Err Unit :=
  match a.permission with
  | .unspecified => .error (.wrap errEmpty "type")
  | .nobody | .everybody => .ok ()
  | .anyOfAddresses => wrap (validateBech32Addresses k a.addresses) "addresses"
  | .other n => .error (unknownType (.other n))

def Params.validateBasic (k : Keeper X) (p : Params) : Except Err Unit := do
  wrap (validateAccessType p.instantiateDefaultPermission) "instantiate default permission"
  wrap (AccessConfig.validateBasic k p.codeUploadAccess) "upload access"

/-- `AccessType.With`. -/
def AccessType.with (k : Keeper X) (a : AccessType) (addr : AccAddress) : Except Panic AccessConfig :=
  match a with
  | .nobody => .ok allowNobody
  | .everybody => .ok allowEverybody
  | .anyOfAddresses =>
    match validateBech32Addresses k [k.bech32.string addr] with
    | .ok _ => .ok ⟨.anyOfAddresses, [k.bech32.string addr]⟩
    | .error e => .error (.other (Err.wrap e "addresses").error)
  | _ => .error (.other "unsupported access type")

theorem with_anyOfAddresses {k : Keeper X} {addr : AccAddress} (h : k.bech32.valid addr = true) :
    AccessType.with k .anyOfAddresses addr = .ok ⟨.anyOfAddresses, [k.bech32.string addr]⟩ := by
  have hvalid : validateBech32Addresses k [k.bech32.string addr] = .ok () := by
    simp only [validateBech32Addresses, validateAddressList, k.bech32.fromBech32_string h]
    rfl
  simp only [AccessType.with, hvalid]

def hasDuplicates : List UInt64 → Bool
  | [] => false
  | v :: rest => rest.contains v || hasDuplicates rest

def validateCodeIDs (codeIDs : List UInt64) : Except Err Unit := do
  check (codeIDs ≠ []) (.wrap errInvalidRequest "empty code ids")
  check (codeIDs.length ≤ maxCodeIDCount)
    (.wrap errInvalidRequest ("total number of code ids is greater than " ++ toString maxCodeIDCount))
  check (!hasDuplicates codeIDs) (.wrap errInvalidRequest "duplicate code ids")

section Fields

variable (k : Keeper X)

def validateAddress (field addr : String) : Except Err Unit := do
  let _ ← wrap (k.bech32.fromBech32 addr) field

def validateCodeID (codeID : UInt64) : Except Err Unit :=
  check (codeID ≠ 0) (.wrap errInvalidRequest "code id is required")

def validateFunds (funds : Coins) : Except Err Unit := wrap (k.lib.coinsValidate funds) "funds"

def validateAdmin (admin : String) : Except Err Unit :=
  if admin ≠ "" then validateAddress k "admin" admin else .ok ()

def validatePayload (msg : Bytes) : Except Err Unit := wrap (validateRawContractMessage k msg) "payload msg"

def validateCodeBytes (code : Bytes) : Except Err Unit :=
  (validateWasmCode code maxWasmSize).mapError fun e ↦ .wrap errInvalidRequest ("code bytes " ++ e.error)

def validatePermission (permission : Option AccessConfig) : Except Err Unit :=
  match permission with
  | some a => wrap (AccessConfig.validateBasic k a) "instantiate permission"
  | none => .ok ()

/-- `ValidateBasic` of an extension that has it. -/
def validateExtension (ext : Option Bytes) : Except Err Unit :=
  match ext with
  | some e => k.lib.extensionValidate e
  | none => .ok ()

end Fields

/-- `ValidateBasic` of each message, its checks in the order of the source. -/
def Msg.validateBasic (k : Keeper X) : Msg → Except Err Unit
  | .storeCode m => do
    let _ ← k.bech32.fromBech32 m.sender
    validateCodeBytes m.wasmByteCode
    validatePermission k m.instantiatePermission
  | .instantiateContract m => do
    validateAddress k "sender" m.sender
    validateCodeID m.codeID
    wrap (validateLabel k m.label) "label"
    validateFunds k m.funds
    validateAdmin k m.admin
    validatePayload k m.msg
  | .instantiateContract2 m => do
    validateAddress k "sender" m.sender
    validateCodeID m.codeID
    wrap (validateLabel k m.label) "label"
    validateFunds k m.funds
    validateAdmin k m.admin
    validatePayload k m.msg
    wrap (validateSalt m.salt) "salt"
  | .executeContract m => do
    validateAddress k "sender" m.sender
    validateAddress k "contract" m.contract
    validateFunds k m.funds
    validatePayload k m.msg
  | .migrateContract m => do
    validateCodeID m.codeID
    validateAddress k "sender" m.sender
    validateAddress k "contract" m.contract
    validatePayload k m.msg
  | .updateAdmin m => do
    validateAddress k "sender" m.sender
    validateAddress k "contract" m.contract
    validateAddress k "new admin" m.newAdmin
    check (!k.lib.equalFold m.sender m.newAdmin) (.wrap errInvalid "new admin is the same as the old")
  | .clearAdmin m => do
    validateAddress k "sender" m.sender
    validateAddress k "contract" m.contract
  | .updateInstantiateConfig m => do
    validateAddress k "sender" m.sender
    validateCodeID m.codeID
    check m.newInstantiatePermission.isSome (.wrap errInvalidRequest "instantiate permission is required")
    validatePermission k m.newInstantiatePermission
  | .updateParams m => do
    validateAddress k "authority" m.authority
    Params.validateBasic k m.params
  | .sudoContract m => do
    validateAddress k "authority" m.authority
    validateAddress k "contract" m.contract
    validatePayload k m.msg
  | .pinCodes m | .unpinCodes m => do
    validateAddress k "authority" m.authority
    validateCodeIDs m.codeIDs
  | .storeAndInstantiateContract m => do
    validateAddress k "authority" m.authority
    wrap (validateLabel k m.label) "label"
    validateFunds k m.funds
    validateAdmin k m.admin
    wrap (validateVerificationInfo k m.source m.builder m.codeHash) "code verification info"
    validatePayload k m.msg
    validateCodeBytes m.wasmByteCode
    validatePermission k m.instantiatePermission
  | .addCodeUploadParamsAddresses m | .removeCodeUploadParamsAddresses m => do
    validateAddress k "authority" m.authority
    validateBech32Addresses k m.addresses
  | .storeAndMigrateContract m => do
    validateAddress k "authority" m.authority
    validateAddress k "contract" m.contract
    validatePayload k m.msg
    validateCodeBytes m.wasmByteCode
    validatePermission k m.instantiatePermission
  | .updateContractLabel m => do
    validateAddress k "sender" m.sender
    wrap (validateLabel k m.newLabel) "label"
    validateAddress k "contract" m.contract

end Cosmwasgo.Keeper
