import Cosmwasgo.Keeper.Contracts

namespace Cosmwasgo.Keeper

open Cosmwasgo.Lib Cosmwasgo.Types Cosmwasgo.State

variable {X : Type}

def unknownContract : Err := .wrap errInvalidRequest "unknown contract"

/-- The port of the contract after a migration: a contract never loses its IBC entry points. -/
def migratedPort (k : Keeper X) (contractAddress : AccAddress) (contractInfo : ContractInfo)
    (report : AnalysisReport) : M X String :=
  match report.hasIBCEntryPoints, decide (contractInfo.ibcPortID = "") with
  | false, false => Program.fail (.wrap errMigrationFailed "requires ibc callbacks")
  | true, true => ensureIbcPort k contractAddress
  | _, _ => pure contractInfo.ibcPortID

def callMigrateEntrypoint (k : Keeper X) (c : Ctx) (contractAddress : AccAddress) (newChecksum msg : Bytes)
    (newCodeID : UInt64) (senderAddress : AccAddress) (oldMigrateVersion : Option UInt64) :
    M X (Option Response) := do
  chargeSetup k newChecksum newCodeID msg.length "migrate"
  let env ← liftPanic (newEnv k c contractAddress)
  let res ← callContract k .migrate c contractAddress newChecksum fun code gas ↦
    k.wasmVM.call code env (.migrate msg ⟨k.bech32.string senderAddress, oldMigrateVersion⟩) gas
  Program.lift (contractResult errVMError errMigrationFailed res)

/-- Both versions are set and equal: the entry point is skipped. -/
def sameMigrateVersion (new old : AnalysisReport) : Bool :=
  match new.contractMigrateVersion, old.contractMigrateVersion with
  | some a, some b => a = b
  | _, _ => false

/-- A nil response stands for a skipped entry point. -/
def callMigrateIfNeeded (k : Keeper X) (c : Ctx) (contractAddress : AccAddress) (newChecksum msg : Bytes)
    (newCodeID : UInt64) (senderAddress : AccAddress) (report oldReport : AnalysisReport) : M X (Option Response) :=
  if sameMigrateVersion report oldReport then pure none
  else callMigrateEntrypoint k c contractAddress newChecksum msg newCodeID senderAddress
    oldReport.contractMigrateVersion

/-- The writes of a migration. `contractInfo` was read before the contract ran. -/
def persistMigration (k : Keeper X) (c : Ctx) (contractAddress caller : AccAddress) (newCodeID : UInt64)
    (msg : Bytes) (contractInfo : ContractInfo) (authZ : AuthorizationPolicy) : M X Unit := do
  recordChange c .migrate contractAddress caller authZ { contractInfo with codeID := newCodeID }
  let last ← mustGetLastContractHistoryEntry k contractAddress
  removeFromContractCodeSecondaryIndex k contractAddress last
  let updated ← liftPanic (newAbsoluteTxPosition c)
  let historyEntry : ContractCodeHistoryEntry := ⟨.migrate, newCodeID, some updated, msg⟩
  let contractInfo := { contractInfo with codeID := newCodeID }
  appendToContractHistory k contractAddress [historyEntry]
  addToContractCodeSecondaryIndex k contractAddress historyEntry
  mustStoreContractInfo k contractAddress contractInfo

def migrate (k : Keeper X) (h : ResponseHandler X) (c : Ctx) (contractAddress caller : AccAddress)
    (newCodeID : UInt64) (msg : Bytes) (authZ : AuthorizationPolicy) : M X (Option Bytes) := do
  match ← getContractInfo k contractAddress with
  | none => Program.fail unknownContract
  | some contractInfo =>
    let admin ← liftPanic (adminAddr k contractInfo)
    authorize c authZ (.ok (authZ.canModifyContract admin caller)) (.wrap errUnauthorized "can not migrate")
    match ← getCodeInfo k newCodeID with
    | none => Program.fail (.wrap errInvalidRequest "unknown code")
    | some newCodeInfo =>
      authorize c authZ (authZ.canInstantiateContract k.bech32 newCodeInfo.instantiateConfig caller)
        (.wrap errUnauthorized "to use new code")
      let report ← analyzeCode k newCodeInfo.codeHash errVMError
      let ibcPortID ← migratedPort k contractAddress contractInfo report
      let contractInfo := { contractInfo with ibcPortID }
      let oldCodeInfo ← getCodeInfo k contractInfo.codeID
      let oldCodeInfo ← deref oldCodeInfo
      let oldReport ← analyzeCode k oldCodeInfo.codeHash errVMError
      let c' := c.push (.call .migrate contractAddress (some authZ))
      let response ← callMigrateIfNeeded k c' contractAddress newCodeInfo.codeHash msg newCodeID caller report
        oldReport
      persistMigration k c contractAddress caller newCodeID msg contractInfo authZ
      emitEvents [⟨"migrate",
        [codeIDAttribute newCodeID, ⟨"_contract_address", k.bech32.string contractAddress⟩]⟩]
      match response with
      | none => return none
      | some response =>
        let c' := c'.withSubMsgAuthzPolicy (authZ.subMessageAuthorizationPolicy .migrateContract)
        wrapErr (handleContractResponse k h c' contractAddress contractInfo.ibcPortID response) "dispatch"

/-- Reads the info, asks the policy, writes the changed info back. -/
def modifyContract (k : Keeper X) (c : Ctx) (kind : ChangeKind) (contractAddress caller : AccAddress)
    (authZ : AuthorizationPolicy) (change : ContractInfo → ContractInfo) : M X Unit := do
  match ← getContractInfo k contractAddress with
  | none => Program.fail unknownContract
  | some contractInfo =>
    let admin ← liftPanic (adminAddr k contractInfo)
    authorize c authZ (.ok (authZ.canModifyContract admin caller)) (.wrap errUnauthorized "can not modify contract")
    recordChange c kind contractAddress caller authZ (change contractInfo)
    mustStoreContractInfo k contractAddress (change contractInfo)

def setContractAdmin (k : Keeper X) (c : Ctx) (contractAddress caller newAdmin : AccAddress)
    (authZ : AuthorizationPolicy) : M X Unit := do
  let newAdminStr := k.bech32.string newAdmin
  modifyContract k c .admin contractAddress caller authZ fun contractInfo ↦ { contractInfo with admin := newAdminStr }
  emitContractEvent k "update_contract_admin" contractAddress [⟨"new_admin_address", newAdminStr⟩]

def setContractLabel (k : Keeper X) (c : Ctx) (contractAddress caller : AccAddress) (newLabel : String)
    (authZ : AuthorizationPolicy) : M X Unit := do
  modifyContract k c .label contractAddress caller authZ fun contractInfo ↦ { contractInfo with label := newLabel }
  emitContractEvent k "update_contract_label" contractAddress [⟨"new_label", newLabel⟩]

/-- Open to other modules only; nobody is asked. -/
def setContractInfoExtension (k : Keeper X) (c : Ctx) (contractAddress : AccAddress) (ext : Option Bytes) :
    M X Unit := do
  match ← getContractInfo k contractAddress with
  | none => Program.fail (noSuchContract k contractAddress)
  | some info =>
    Program.lift (validateExtension k ext)
    let info := { info with extension := ext }
    recordChange c .extension contractAddress [] .default info
    mustStoreContractInfo k contractAddress info

def setAccessConfig (k : Keeper X) (c : Ctx) (codeID : UInt64) (caller : AccAddress) (newConfig : AccessConfig)
    (authz : AuthorizationPolicy) : M X Unit := do
  match ← getCodeInfo k codeID with
  | none => Program.fail (noSuchCode codeID)
  | some info =>
    let params ← getParams k
    let isSubset := newConfig.permission.isSubset params.instantiateDefaultPermission
    let creator ← liftPanic ((k.bech32.fromBech32 info.creator).mapError fun e ↦ .other e.error)
    authorize c authz (.ok (authz.canModifyCodeAccessConfig creator caller isSubset))
      (.wrap errUnauthorized "can not modify code access config")
    mustStoreCodeInfo k codeID { info with instantiateConfig := newConfig }
    let addrs := newConfig.allAuthorizedAddresses
    emitEvents [⟨"update_code_access_config",
      [⟨"code_permission", newConfig.permission.string⟩, codeIDAttribute codeID] ++
        if addrs = [] then [] else [⟨"authorized_addresses", ",".intercalate addrs⟩]⟩]

end Cosmwasgo.Keeper
