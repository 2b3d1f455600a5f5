import Cosmwasgo.Keeper.MsgServer
import Cosmwasgo.Lib.Hex

namespace Cosmwasgo.Keeper

open Cosmwasgo.Lib Cosmwasgo.Types Cosmwasgo.State

variable {X : Type}

def errInvalidProposalContent : Err := .sdk "gov" 5 "invalid proposal content"

/-- `v1beta1.MaxTitleLength` and `v1beta1.MaxDescriptionLength` of the SDK. -/
def maxTitleLength : Nat := 140
def maxDescriptionLength : Nat := 10000

/-- The checks of a title or a description. -/
def validateProposalText (k : Keeper X) (field : String) (maxLength : Nat) (s : String) : Except Err Unit := do
  check (k.lib.trimSpace s = s)
    (.wrap errInvalidProposalContent ("proposal " ++ field ++ " must not start/end with white spaces"))
  check (s ≠ "") (.wrap errInvalidProposalContent ("proposal " ++ field ++ " cannot be blank"))
  check (s.utf8ByteSize ≤ maxLength)
    (.wrap errInvalidProposalContent ("proposal " ++ field ++ " is longer than max length of " ++ toString maxLength))

def validateProposalCommons (k : Keeper X) (title description : String) : Except Err Unit := do
  validateProposalText k "title" maxTitleLength title
  validateProposalText k "description" maxDescriptionLength description

structure StoreAndInstantiateContractProposal where
  title : String
  description : String
  runAs : String
  wasmByteCode : Bytes
  instantiatePermission : Option AccessConfig
  unpinCode : Bool
  admin : String
  label : String
  msg : Bytes
  funds : Coins
  source : String
  builder : String
  codeHash : Option Bytes

def StoreAndInstantiateContractProposal.validateBasic (k : Keeper X) (p : StoreAndInstantiateContractProposal) :
    Except Err Unit := do
  validateProposalCommons k p.title p.description
  validateAddress k "run as" p.runAs
  (validateWasmCode p.wasmByteCode maxProposalWasmSize).mapError fun e ↦
    .wrap errInvalidRequest ("code bytes " ++ e.error)
  wrap (validateVerificationInfo k p.source p.builder p.codeHash) "code info"
  validatePermission k p.instantiatePermission
  validateLabel k p.label
  (k.lib.coinsValidate p.funds).mapError fun _ ↦ errInvalidCoins
  if p.admin ≠ "" then do
    let _ ← k.bech32.fromBech32 p.admin
  validatePayload k p.msg

/-- `PermissionedKeeper`: the keeper, with one policy for all that is done through it. -/
structure PermissionedKeeper (X : Type) where
  nested : Keeper X
  authZPolicy : AuthorizationPolicy

def newGovPermissionKeeper (k : Keeper X) : PermissionedKeeper X := ⟨k, .gov []⟩

/-- `%X` of a byte string. -/
def upperHex (b : Bytes) : String := String.ofList ((Hex.encode b).map fun d ↦ (Char.ofNat d.val).toUpper)

def codeHashMismatch (codeHash checksum : Bytes) : Err :=
  .wrap (.text ("code-hash mismatch: " ++ upperHex codeHash ++ ", checksum: " ++ upperHex checksum)) "code-hash mismatch"

def handleStoreAndInstantiateContractProposal (k : PermissionedKeeper X) (h : ResponseHandler X) (c : Ctx)
    (p : StoreAndInstantiateContractProposal) : M X Unit := do
  Program.lift (p.validateBasic k.nested)
  let runAsAddr ← MsgServer.decode k.nested p.runAs "run as address"
  let adminAddr ← MsgServer.decodeAdmin k.nested p.admin
  let (codeID, checksum) ← create k.nested c runAsAddr p.wasmByteCode p.instantiatePermission k.authZPolicy
  Program.require (p.codeHash = none ∨ p.codeHash = some checksum) (codeHashMismatch (p.codeHash.getD []) checksum)
  if p.unpinCode then pure () else pinCode k.nested codeID
  let (_, data) ← instantiate k.nested h c codeID runAsAddr adminAddr p.msg p.label p.funds
    (classicAddressGenerator k.nested) k.authZPolicy
  emitEvents [⟨"gov_contract_result", [⟨"result", k.nested.lib.hexEncode (data.getD [])⟩]⟩]

end Cosmwasgo.Keeper
