import Cosmwasgo.Keeper.Proposals

namespace Cosmwasgo.Keeper

open Cosmwasgo.Lib Cosmwasgo.Types Cosmwasgo.State

variable {X : Type}

namespace PermissionedKeeper

variable (k : PermissionedKeeper X) (h : ResponseHandler X) (c : Ctx)

def create (creator : AccAddress) (wasmCode : Bytes) (instantiateAccess : Option AccessConfig) : M X (UInt64 × Bytes) :=
  Cosmwasgo.Keeper.create k.nested c creator wasmCode instantiateAccess k.authZPolicy

def instantiate (codeID : UInt64) (creator admin : AccAddress) (initMsg : Bytes) (label : String) (deposit : Coins) :
    M X (AccAddress × Option Bytes) :=
  Cosmwasgo.Keeper.instantiate k.nested h c codeID creator admin initMsg label deposit
    (classicAddressGenerator k.nested) k.authZPolicy

def instantiate2 (codeID : UInt64) (creator admin : AccAddress) (initMsg : Bytes) (label : String) (deposit : Coins)
    (salt : Bytes) (fixMsg : Bool) : M X (AccAddress × Option Bytes) :=
  Cosmwasgo.Keeper.instantiate k.nested h c codeID creator admin initMsg label deposit
    (predictableAddressGenerator k.nested creator salt initMsg fixMsg) k.authZPolicy

def execute (contractAddress caller : AccAddress) (msg : Bytes) (coins : Coins) : M X (Option Bytes) :=
  Cosmwasgo.Keeper.execute k.nested h c contractAddress caller msg coins

def migrate (contractAddress caller : AccAddress) (newCodeID : UInt64) (msg : Bytes) : M X (Option Bytes) :=
  Cosmwasgo.Keeper.migrate k.nested h c contractAddress caller newCodeID msg k.authZPolicy

def sudoContract (contractAddress : AccAddress) (msg : Bytes) : M X (Option Bytes) :=
  Cosmwasgo.Keeper.sudoContract k.nested h c contractAddress msg

def updateContractAdmin (contractAddress caller newAdmin : AccAddress) : M X Unit :=
  setContractAdmin k.nested c contractAddress caller newAdmin k.authZPolicy

def clearContractAdmin (contractAddress caller : AccAddress) : M X Unit :=
  setContractAdmin k.nested c contractAddress caller [] k.authZPolicy

def pinCode (codeID : UInt64) : M X Unit := Cosmwasgo.Keeper.pinCode k.nested codeID

def unpinCode (codeID : UInt64) : M X Unit := Cosmwasgo.Keeper.unpinCode k.nested codeID

def setAccessConfig (codeID : UInt64) (caller : AccAddress) (newConfig : AccessConfig) : M X Unit :=
  Cosmwasgo.Keeper.setAccessConfig k.nested c codeID caller newConfig k.authZPolicy

end PermissionedKeeper

structure StoreCodeProposal where
  title : String
  description : String
  runAs : String
  wasmByteCode : Bytes
  instantiatePermission : Option AccessConfig
  unpinCode : Bool
  source : String
  builder : String
  codeHash : Option Bytes

structure InstantiateContractProposal where
  title : String
  description : String
  runAs : String
  admin : String
  codeID : UInt64
  label : String
  msg : Bytes
  funds : Coins

structure InstantiateContract2Proposal extends InstantiateContractProposal where
  salt : Bytes
  fixMsg : Bool

structure MigrateContractProposal where
  title : String
  description : String
  contract : String
  codeID : UInt64
  msg : Bytes

structure SudoContractProposal where
  title : String
  description : String
  contract : String
  msg : Bytes

structure ExecuteContractProposal where
  title : String
  description : String
  runAs : String
  contract : String
  msg : Bytes
  funds : Coins

structure UpdateAdminProposal where
  title : String
  description : String
  newAdmin : String
  contract : String

structure ClearAdminProposal where
  title : String
  description : String
  contract : String

/-- `PinCodesProposal` and `UnpinCodesProposal` have the same fields. -/
structure CodesProposal where
  title : String
  description : String
  codeIDs : List UInt64

structure AccessConfigUpdate where
  codeID : UInt64
  instantiatePermission : AccessConfig

structure UpdateInstantiateConfigProposal where
  title : String
  description : String
  accessConfigUpdates : List AccessConfigUpdate

section Validate

variable (k : Keeper X)

/-- `Coins.IsValid`, which does not say what is wrong. -/
def requireValidCoins (funds : Coins) : Except Err Unit := (k.lib.coinsValidate funds).mapError fun _ ↦ errInvalidCoins

/-- An optional address, with the error of the codec as it is. -/
def requireOptionalAddress (addr : String) : Except Err Unit :=
  if addr ≠ "" then do
    let _ ← k.bech32.fromBech32 addr
  else .ok ()

/-- The address of an instantiation, whose own error is dropped. -/
def requireRunAs (runAs : String) : Except Err Unit := do
  let _ ← (k.bech32.fromBech32 runAs).mapError fun _ ↦ .wrap errInvalidRequest "run as"

def StoreCodeProposal.validateBasic (p : StoreCodeProposal) : Except Err Unit := do
  validateProposalCommons k p.title p.description
  validateAddress k "run as" p.runAs
  (validateWasmCode p.wasmByteCode maxProposalWasmSize).mapError fun e ↦
    .wrap errInvalidRequest ("code bytes " ++ e.error)
  validatePermission k p.instantiatePermission
  wrap (validateVerificationInfo k p.source p.builder p.codeHash) "code verification info"

def InstantiateContractProposal.validateBasic (p : InstantiateContractProposal) : Except Err Unit := do
  validateProposalCommons k p.title p.description
  requireRunAs k p.runAs
  validateCodeID p.codeID
  validateLabel k p.label
  requireValidCoins k p.funds
  requireOptionalAddress k p.admin
  validatePayload k p.msg

def InstantiateContract2Proposal.validateBasic (p : InstantiateContract2Proposal) : Except Err Unit := do
  validateProposalCommons k p.title p.description
  requireRunAs k p.runAs
  requireOptionalAddress k p.admin
  validateCodeID p.codeID
  validateLabel k p.label
  validatePayload k p.msg
  requireValidCoins k p.funds
  check (p.salt ≠ []) (.wrap errInvalidRequest "salt is required")

def MigrateContractProposal.validateBasic (p : MigrateContractProposal) : Except Err Unit := do
  validateProposalCommons k p.title p.description
  check (p.codeID ≠ 0) (.wrap errInvalidRequest "code_id is required")
  validateAddress k "contract" p.contract
  validatePayload k p.msg

def SudoContractProposal.validateBasic (p : SudoContractProposal) : Except Err Unit := do
  validateProposalCommons k p.title p.description
  validateAddress k "contract" p.contract
  validatePayload k p.msg

def ExecuteContractProposal.validateBasic (p : ExecuteContractProposal) : Except Err Unit := do
  validateProposalCommons k p.title p.description
  validateAddress k "contract" p.contract
  validateAddress k "run as" p.runAs
  requireValidCoins k p.funds
  validatePayload k p.msg

def UpdateAdminProposal.validateBasic (p : UpdateAdminProposal) : Except Err Unit := do
  validateProposalCommons k p.title p.description
  validateAddress k "contract" p.contract
  validateAddress k "new admin" p.newAdmin

def ClearAdminProposal.validateBasic (p : ClearAdminProposal) : Except Err Unit := do
  validateProposalCommons k p.title p.description
  validateAddress k "contract" p.contract

def CodesProposal.validateBasic (p : CodesProposal) : Except Err Unit := do
  validateProposalCommons k p.title p.description
  check (p.codeIDs ≠ []) (.wrap errEmpty "code ids")

/-- `seen` holds the ids before. -/
def validateUpdates (seen : List UInt64) : List AccessConfigUpdate → Except Err Unit
  | [] => .ok ()
  | u :: rest => do
    check (!seen.contains u.codeID) (.wrap errDuplicate ("duplicate code: " ++ toString u.codeID.toNat))
    wrap (AccessConfig.validateBasic k u.instantiatePermission) "instantiate permission"
    validateUpdates (u.codeID :: seen) rest

def UpdateInstantiateConfigProposal.validateBasic (p : UpdateInstantiateConfigProposal) : Except Err Unit := do
  validateProposalCommons k p.title p.description
  check (p.accessConfigUpdates ≠ []) (.wrap errEmpty "code updates")
  validateUpdates k [] p.accessConfigUpdates

end Validate

/-- A proposal as the handler gets it. Those of other modules come with their type and the name of their Go type. -/
inductive Content
  | storeCode (p : StoreCodeProposal)
  | instantiateContract (p : InstantiateContractProposal)
  | instantiateContract2 (p : InstantiateContract2Proposal)
  | migrateContract (p : MigrateContractProposal)
  | sudoContract (p : SudoContractProposal)
  | executeContract (p : ExecuteContractProposal)
  | updateAdmin (p : UpdateAdminProposal)
  | clearAdmin (p : ClearAdminProposal)
  | pinCodes (p : CodesProposal)
  | unpinCodes (p : CodesProposal)
  | updateInstantiateConfig (p : UpdateInstantiateConfigProposal)
  | storeAndInstantiateContract (p : StoreAndInstantiateContractProposal)
  | other (proposalType goType : String)

def Content.proposalType : Content → String
  | .storeCode _ => "StoreCode"
  | .instantiateContract _ => "InstantiateContract"
  | .instantiateContract2 _ => "InstantiateContract2"
  | .migrateContract _ => "MigrateContract"
  | .sudoContract _ => "SudoContract"
  | .executeContract _ => "ExecuteContract"
  | .updateAdmin _ => "UpdateAdmin"
  | .clearAdmin _ => "ClearAdmin"
  | .pinCodes _ => "PinCodes"
  | .unpinCodes _ => "UnpinCodes"
  | .updateInstantiateConfig _ => "UpdateInstantiateConfig"
  | .storeAndInstantiateContract _ => "StoreAndInstantiateContract"
  | .other proposalType _ => proposalType

section Handlers

variable (k : PermissionedKeeper X) (h : ResponseHandler X) (c : Ctx)

def emitGovContractResult (data : Option Bytes) : M X Unit :=
  emitEvents [⟨"gov_contract_result", [⟨"result", k.nested.lib.hexEncode (data.getD [])⟩]⟩]

def handleStoreCodeProposal (p : StoreCodeProposal) : M X Unit := do
  Program.lift (p.validateBasic k.nested)
  let runAsAddr ← MsgServer.decode k.nested p.runAs "run as address"
  let (codeID, checksum) ← k.create c runAsAddr p.wasmByteCode p.instantiatePermission
  let codeHash := p.codeHash.getD []
  Program.require (codeHash = [] ∨ checksum = codeHash)
    (.text ("code-hash mismatch: " ++ upperHex codeHash ++ ", checksum: " ++ upperHex checksum))
  if p.unpinCode then pure () else k.pinCode codeID

def handleInstantiateProposal (p : InstantiateContractProposal) : M X Unit := do
  Program.lift (p.validateBasic k.nested)
  let runAsAddr ← MsgServer.decode k.nested p.runAs "run as address"
  let adminAddr ← MsgServer.decodeAdmin k.nested p.admin
  let (_, data) ← k.instantiate h c p.codeID runAsAddr adminAddr p.msg p.label p.funds
  emitGovContractResult k data

def handleInstantiate2Proposal (p : InstantiateContract2Proposal) : M X Unit := do
  Program.lift (p.validateBasic k.nested)
  let runAsAddr ← MsgServer.decode k.nested p.runAs "run as address"
  let adminAddr ← MsgServer.decodeAdmin k.nested p.admin
  let (_, data) ← k.instantiate2 h c p.codeID runAsAddr adminAddr p.msg p.label p.funds p.salt p.fixMsg
  emitGovContractResult k data

/-- The contract stands in for the caller, who is not asked for anything. -/
def handleMigrateProposal (p : MigrateContractProposal) : M X Unit := do
  Program.lift (p.validateBasic k.nested)
  let contractAddr ← MsgServer.decode k.nested p.contract "contract"
  let data ← k.migrate h c contractAddr contractAddr p.codeID p.msg
  emitGovContractResult k data

def handleSudoProposal (p : SudoContractProposal) : M X Unit := do
  Program.lift (p.validateBasic k.nested)
  let contractAddr ← MsgServer.decode k.nested p.contract "contract"
  let data ← k.sudoContract h c contractAddr p.msg
  emitGovContractResult k data

def handleExecuteProposal (p : ExecuteContractProposal) : M X Unit := do
  Program.lift (p.validateBasic k.nested)
  let contractAddr ← MsgServer.decode k.nested p.contract "contract"
  let runAsAddr ← MsgServer.decode k.nested p.runAs "run as address"
  let data ← k.execute h c contractAddr runAsAddr p.msg p.funds
  emitGovContractResult k data

def handleUpdateAdminProposal (p : UpdateAdminProposal) : M X Unit := do
  Program.lift (p.validateBasic k.nested)
  let contractAddr ← MsgServer.decode k.nested p.contract "contract"
  let newAdminAddr ← MsgServer.decode k.nested p.newAdmin "run as address"
  k.updateContractAdmin c contractAddr [] newAdminAddr

def handleClearAdminProposal (p : ClearAdminProposal) : M X Unit := do
  Program.lift (p.validateBasic k.nested)
  let contractAddr ← MsgServer.decode k.nested p.contract "contract"
  k.clearContractAdmin c contractAddr []

/-- An operation on a code, whose errors name the code. -/
def onCode (f : UInt64 → M X Unit) (codeID : UInt64) : M X Unit :=
  wrapErr (f codeID) ("code id: " ++ toString codeID.toNat)

def handlePinCodesProposal (p : CodesProposal) : M X Unit := do
  Program.lift (p.validateBasic k.nested)
  MsgServer.eachCode (onCode k.pinCode) p.codeIDs

def handleUnpinCodesProposal (p : CodesProposal) : M X Unit := do
  Program.lift (p.validateBasic k.nested)
  MsgServer.eachCode (onCode k.unpinCode) p.codeIDs

def setAccessConfigs : List AccessConfigUpdate → M X Unit
  | [] => pure ()
  | u :: rest => do
    onCode (fun codeID ↦ k.setAccessConfig c codeID [] u.instantiatePermission) u.codeID
    setAccessConfigs rest

def handleUpdateInstantiateConfigProposal (p : UpdateInstantiateConfigProposal) : M X Unit := do
  Program.lift (p.validateBasic k.nested)
  setAccessConfigs k c p.accessConfigUpdates

/-- A digit of a `\u` escape. -/
def escapeHex (width n : Nat) : String :=
  String.ofList ((List.range width).reverse.map fun i ↦ Nat.digitChar (n / 16 ^ i % 16))

/-- A character as `strconv.Quote` writes it. -/
def quoteChar (isPrint : Char → Bool) (ch : Char) : String :=
  if ch.toNat = 34 then "\\\""
  else if ch.toNat = 92 then "\\\\"
  else if isPrint ch then ch.toString
  else
    match ch.toNat with
    | 7 => "\\a"
    | 8 => "\\b"
    | 12 => "\\f"
    | 10 => "\\n"
    | 13 => "\\r"
    | 9 => "\\t"
    | 11 => "\\v"
    | n =>
      if n < 0x20 ∨ n = 0x7f then "\\x" ++ escapeHex 2 n
      else if n < 0x10000 then "\\u" ++ escapeHex 4 n
      else "\\U" ++ escapeHex 8 n

/-- `%q` of a string. -/
def quote (isPrint : Char → Bool) (s : String) : String :=
  "\"" ++ String.join (s.toList.map (quoteChar isPrint)) ++ "\""

def newLegacyWasmProposalHandlerX (enabledProposalTypes : List String) : Option Content → M X Unit
  | none => Program.fail (.wrap errUnknownRequest "content must not be empty")
  | some content => do
    Program.require (enabledProposalTypes.contains content.proposalType)
      (.wrap errUnknownRequest
        ("unsupported wasm proposal content type: " ++ quote k.nested.lib.isPrint content.proposalType))
    match content with
    | .storeCode p => handleStoreCodeProposal k c p
    | .instantiateContract p => handleInstantiateProposal k h c p
    | .instantiateContract2 p => handleInstantiate2Proposal k h c p
    | .migrateContract p => handleMigrateProposal k h c p
    | .sudoContract p => handleSudoProposal k h c p
    | .executeContract p => handleExecuteProposal k h c p
    | .updateAdmin p => handleUpdateAdminProposal k c p
    | .clearAdmin p => handleClearAdminProposal k c p
    | .pinCodes p => handlePinCodesProposal k p
    | .unpinCodes p => handleUnpinCodesProposal k p
    | .updateInstantiateConfig p => handleUpdateInstantiateConfigProposal k c p
    | .storeAndInstantiateContract p => handleStoreAndInstantiateContractProposal k h c p
    | .other _ goType =>
      Program.fail (.wrap errUnknownRequest ("unrecognized wasm proposal content type: " ++ goType))

end Handlers

def newLegacyWasmProposalHandler (k : Keeper X) (h : ResponseHandler X) (enabledProposalTypes : List String) (c : Ctx) :
    Option Content → M X Unit :=
  newLegacyWasmProposalHandlerX (newGovPermissionKeeper k) h c enabledProposalTypes

end Cosmwasgo.Keeper
