import Cosmwasgo.Keeper.Registry
import Cosmwasgo.Keeper.Validation

namespace Cosmwasgo.Keeper

open Cosmwasgo.Lib Cosmwasgo.Types Cosmwasgo.State

variable {X ρ : Type}

/-- `WasmVMResponseHandler.Handle`: context, contract, IBC port, messages, the contract's own data. -/
abbrev ResponseHandler (X : Type) := Ctx → AccAddress → String → List SubMsg → Option Bytes → M X (Option Bytes)

abbrev AddressGenerator (X : Type) := UInt64 → Bytes → M X AccAddress

def contractAddrLen : Nat := 32

def buildContractAddressClassic (k : Keeper X) (codeID instanceID : UInt64) : AccAddress :=
  (k.addressModule (uint64ToBigEndian codeID ++ uint64ToBigEndian instanceID)).take contractAddrLen

def uint64LengthPrefix (bz : Bytes) : Bytes := uint64ToBigEndian (UInt64.ofNat bz.length) ++ bz

def predictableKey (checksum creator salt initMsg : Bytes) : Bytes :=
  uint64LengthPrefix checksum ++ uint64LengthPrefix creator ++ uint64LengthPrefix salt ++ uint64LengthPrefix initMsg

def buildContractAddressPredictable (k : Keeper X) (checksum : Bytes) (creator : AccAddress) (salt initMsg : Bytes) :
    Except Panic AccAddress := do
  if checksum.length ≠ 32 then throw (.other "invalid checksum")
  if !k.bech32.valid creator then throw (.other "creator: invalid address")
  (validateSalt salt).mapError fun e ↦ .other ("salt: " ++ e.error)
  if initMsg ≠ [] then (validateRawContractMessage k initMsg).mapError fun e ↦ .other ("initMsg: " ++ e.error)
  return (k.addressModule (predictableKey checksum creator salt initMsg)).take contractAddrLen

def classicAddressGenerator (k : Keeper X) : AddressGenerator X := fun codeID _ ↦ do
  let instanceID ← mustAutoIncrementID k keySequenceInstanceID
  return buildContractAddressClassic k codeID instanceID

def predictableAddressGenerator (k : Keeper X) (creator : AccAddress) (salt msg : Bytes) (fixMsg : Bool) :
    AddressGenerator X := fun _ checksum ↦
  liftPanic (buildContractAddressPredictable k checksum creator salt (if fixMsg then msg else []))

def newContractInfo (k : Keeper X) (codeID : UInt64) (creator admin : AccAddress) (label : String)
    (createdAt : AbsoluteTxPosition) : ContractInfo :=
  { codeID, creator := k.bech32.string creator, admin := if admin = [] then "" else k.bech32.string admin,
    label, created := some createdAt }

/-- A call of a contract, which goes on record. -/
def callContract (k : Keeper X) (entry : EntryPoint) (c : Ctx) (contractAddr : AccAddress) (checksum : Bytes)
    (script : Bytes → Gas → VMScript ρ) : M X (Except String (Option (ContractResult ρ))) := do
  observe (.call c.stack)
  callVM k entry (newQueryHandler k c contractAddr) contractAddr checksum script

/-- The VM's answer: an error of the VM, an error of the contract, or the `Ok` pointer. -/
def contractResult (vmFailed failed : Err) (res : Except String (Option (ContractResult ρ))) : Except Err (Option ρ) :=
  match res with
  | .error e => .error (.wrap vmFailed e)
  | .ok none => .error (.wrap errVMError "internal wasmvm error")
  | .ok (some r) => if r.err ≠ "" then .error (.deterministic (.wrap failed r.err)) else .ok r.ok

def deref (p : Option ρ) : M X ρ :=
  match p with
  | some r => pure r
  | none => Program.raise nilPointer

def contractSDKEventAttributes (k : Keeper X) (contractAddr : AccAddress) (attrs : List Attribute) :
    Except Err (List Attribute) := do
  let custom ← attrs.mapM fun a ↦ do
    let key := k.lib.trimSpace a.key
    check (key ≠ "") (.wrap errInvalidEvent ("Empty attribute key. Value: " ++ a.value))
    check (key.toList.head? ≠ some '_')
      (.wrap errInvalidEvent ("Attribute key starts with reserved prefix _: '" ++ key ++ "'"))
    return ⟨key, k.lib.trimSpace a.value⟩
  return ⟨"_contract_address", k.bech32.string contractAddr⟩ :: custom

def newWasmModuleEvent (k : Keeper X) (attrs : List Attribute) (contractAddr : AccAddress) :
    Except Err (List Event) := do
  let attributes ← contractSDKEventAttributes k contractAddr attrs
  return [⟨"wasm", attributes⟩]

def newCustomEvents (k : Keeper X) (evts : List Event) (contractAddr : AccAddress) : Except Err (List Event) :=
  evts.mapM fun e ↦ do
    let typ := k.lib.trimSpace e.type
    check (2 < typ.utf8ByteSize) (.wrap errInvalidEvent ("Event type too short: '" ++ typ ++ "'"))
    let attributes ← contractSDKEventAttributes k contractAddr e.attributes
    return ⟨"wasm-" ++ typ, attributes⟩

def emitWasmModuleEvent (k : Keeper X) (attrs : List Attribute) (contractAddr : AccAddress) : M X Unit :=
  if attrs = [] then pure ()
  else do
    let wasmEvents ← Program.lift (newWasmModuleEvent k attrs contractAddr)
    emitEvents wasmEvents

def emitCustomEvents (k : Keeper X) (evts : List Event) (contractAddr : AccAddress) : M X Unit :=
  if evts = [] then pure ()
  else do
    let customEvents ← Program.lift (newCustomEvents k evts contractAddr)
    emitEvents customEvents

def handleContractResponse (k : Keeper X) (h : ResponseHandler X) (c : Ctx) (contractAddr : AccAddress)
    (ibcPort : String) (res : Response) : M X (Option Bytes) := do
  let attributeGasCost ← liftPanic (k.gasRegister.eventCosts res.attributes res.events)
  consumeGas attributeGasCost "Custom contract event attributes"
  emitWasmModuleEvent k res.attributes contractAddr
  emitCustomEvents k res.events contractAddr
  h c contractAddr ibcPort res.messages res.data

/-- Errors of the callee with a description. -/
def wrapErr {α : Type} (m : M X α) (desc : String) : M X α :=
  m.attempt fun
    | .error e => Program.fail (.wrap e desc)
    | r => Program.finish r

theorem wrapErr_eq_ok {α : Type} {m : M X α} {desc : String} {w w' : World X} {a : α} :
    wrapErr m desc w = (.ok a, w') ↔ m w = (.ok a, w') := by
  unfold wrapErr Program.attempt
  rcases m w with ⟨b | e | p | _, v⟩ <;> simp

def analyzeCode (k : Keeper X) (checksum : Bytes) (failed : Err) : M X AnalysisReport := do
  match ← Program.read fun w ↦ w.vm.codes.get checksum with
  | some code => return k.wasmVM.analyze code
  | none => Program.fail (.wrap failed "Error opening Wasm file for reading")

/-- `wasmVM.StoreCode`: the checksum or an error, and the gas it costs either way. -/
def vmStoreCode (k : Keeper X) (code : Bytes) (gasLimit : Gas) : M X (Except String Bytes × Gas) := do
  let cost := k.wasmVM.storeCodeCost code
  if gasLimit < cost then return (.error "Out of gas", cost)
  else
    match k.wasmVM.check code with
    | .error e => return (.error e, cost)
    | .ok _ =>
      let checksum := k.wasmVM.checksum code
      Program.update fun w ↦ { w with vm := { w.vm with codes := w.vm.codes.set checksum code } }
      return (.ok checksum, cost)

def uncompressCode (k : Keeper X) (wasmCode : Bytes) (limit : Nat) : Except Err Bytes :=
  match k.lib.uncompress wasmCode limit with
  | .ok code => .ok code
  | .error e => .error (.wrap errCreateFailed (Err.wrap e "uncompress wasm archive").error)

/-- Compressed code is unpacked, at a price. -/
def unpackCode (k : Keeper X) (wasmCode : Bytes) : M X Bytes :=
  if isGzip wasmCode then do
    let cost ← liftPanic (k.gasRegister.uncompressCosts wasmCode.length)
    consumeGas cost "Uncompress gzip bytecode"
    Program.lift (uncompressCode k wasmCode maxWasmSize)
  else pure wasmCode

def storeCodeEvent (k : Keeper X) (checksum : Bytes) (codeID : UInt64) (capabilities : String) : Event :=
  ⟨"store_code", [⟨"code_checksum", k.lib.hexEncode checksum⟩, codeIDAttribute codeID] ++
    (k.lib.splitCapabilities capabilities).map fun f ↦ ⟨"required_capability", k.lib.trimSpace f⟩⟩

/-- The writes of a new code. -/
def persistCode (k : Keeper X) (codeInfo : CodeInfo) : M X UInt64 := do
  let codeID ← mustAutoIncrementID k keySequenceCodeID
  mustStoreCodeInfo k codeID codeInfo
  return codeID

def create (k : Keeper X) (c : Ctx) (creator : AccAddress) (wasmCode : Bytes) (instantiateAccess : Option AccessConfig)
    (authZ : AuthorizationPolicy) : M X (UInt64 × Bytes) := do
  Program.require (creator ≠ []) (.wrap errInvalidAddress "cannot be nil")
  let params ← getParams k
  let defaultAccessConfig ← liftPanic (AccessType.with k params.instantiateDefaultPermission creator)
  let instantiateAccess := instantiateAccess.getD defaultAccessConfig
  let params ← getParams k
  authorize c authZ
    (authZ.canCreateCode k.bech32 ⟨params.codeUploadAccess, defaultAccessConfig⟩ creator instantiateAccess)
    (.wrap errUnauthorized "can not create code")
  let wasmCode ← unpackCode k wasmCode
  let gasLeft ← runtimeGasForContract k
  let (stored, gasUsed) ← vmStoreCode k wasmCode gasLeft
  consumeRuntimeGas k gasUsed
  let checksum ← Program.lift (stored.mapError fun e ↦ .wrap errCreateFailed e)
  let report ← analyzeCode k checksum errCreateFailed
  let codeID ← persistCode k ⟨checksum, k.bech32.string creator, instantiateAccess⟩
  emitEvents [storeCodeEvent k checksum codeID report.requiredCapabilities]
  return (codeID, checksum)

def addressClaimed : Err := .wrap errAccountExists "address is claimed by external account"

/-- An existing account is reused, pruned or refused; without one a new account is made. -/
def prepareAccount (k : Keeper X) (contractAddress : AccAddress) : M X Unit := do
  match ← Program.read fun w ↦ k.host.getAccount w.store.ext contractAddress with
  | none => external (k.host.newAccount contractAddress)
  | some existingAcct =>
    Program.require (existingAcct.sequence = 0 && !existingAcct.hasPubKey) addressClaimed
    if existingAcct.type ∈ k.acceptedAccountTypes then pure ()
    else do
      external (k.host.newAccount contractAddress)
      let handled ← wrapErr (external (k.host.cleanupExistingAccount contractAddress existingAcct)) "prune balance"
      Program.require handled addressClaimed

/-- `BankCoinTransferrer.TransferCoins`: the bank's own `message` events are dropped. -/
def transferCoins (k : Keeper X) (fromAddr toAddr : AccAddress) (amount : Coins) : M X Unit := do
  let enabled ← Program.read fun w ↦ k.host.isSendEnabledCoins w.store.ext amount
  Program.lift enabled
  let blocked ← Program.read fun w ↦ k.host.blockedAddr w.store.ext toAddr
  Program.require (!blocked) (.wrap errUnauthorized (k.bech32.string toAddr ++ " is not allowed to receive funds"))
  let (_, events) ← withEventManager (external (k.host.sendCoins fromAddr toAddr amount))
  emitEvents (events.filter fun e ↦ e.type ≠ "message")

def deposit (k : Keeper X) (fromAddr toAddr : AccAddress) (amount : Coins) : M X Unit :=
  if amount.isZero then pure () else transferCoins k fromAddr toAddr amount

def portIDForContract (k : Keeper X) (addr : AccAddress) : String := "wasm." ++ k.bech32.string addr

def ensureIbcPort (k : Keeper X) (contractAddr : AccAddress) : M X String := do
  let portID := portIDForContract k contractAddr
  if ← Program.read fun w ↦ k.host.getCapability w.store.ext ("ports/" ++ portID) then return portID
  else
    external (k.host.bindIbcPort portID)
    return portID

/-- Only contracts with IBC entry points get a port. -/
def instancePort (k : Keeper X) (contractAddr : AccAddress) (report : AnalysisReport) : M X String :=
  if report.hasIBCEntryPoints then ensureIbcPort k contractAddr else pure ""

/-- The writes that register a new contract. -/
def persistInstance (k : Keeper X) (c : Ctx) (creator contractAddress : AccAddress) (initMsg : Bytes)
    (contractInfo : ContractInfo) (authPolicy : AuthorizationPolicy) : M X Unit := do
  recordChange c .instantiate contractAddress creator authPolicy contractInfo
  let historyEntry := contractInfo.initialHistory initMsg
  addToContractCodeSecondaryIndex k contractAddress historyEntry
  addToContractCreatorSecondaryIndex k creator historyEntry.updated contractAddress
  appendToContractHistory k contractAddress [historyEntry]
  mustStoreContractInfo k contractAddress contractInfo

/-- The address for a new contract and whether it is taken, which goes on record. -/
def newAddress (k : Keeper X) (addressGenerator : AddressGenerator X) (codeID : UInt64) (checksum : Bytes) :
    M X (AccAddress × Bool) := do
  let contractAddress ← addressGenerator codeID checksum
  let exists_ ← hasContractInfo k contractAddress
  observe (.address contractAddress exists_)
  return (contractAddress, exists_)

section EntryPoints

variable (k : Keeper X) (h : ResponseHandler X) (c : Ctx)

def instantiate (codeID : UInt64) (creator admin : AccAddress) (initMsg : Bytes) (label : String) (funds : Coins)
    (addressGenerator : AddressGenerator X) (authPolicy : AuthorizationPolicy) :
    M X (AccAddress × Option Bytes) := do
  Program.require (creator ≠ []) (.wrap errEmpty "creator")
  match ← getCodeInfo k codeID with
  | none => Program.fail (noSuchCode codeID)
  | some codeInfo =>
    chargeSetup k codeInfo.codeHash codeID initMsg.length "instantiate"
    authorize c authPolicy (authPolicy.canInstantiateContract k.bech32 codeInfo.instantiateConfig creator)
      (.wrap errUnauthorized "can not instantiate")
    let (contractAddress, exists_) ← newAddress k addressGenerator codeID codeInfo.codeHash
    Program.require (!exists_) (.wrap errDuplicate
      "contract address already exists, try a different combination of creator, checksum and salt")
    prepareAccount k contractAddress
    deposit k creator contractAddress funds
    let env ← liftPanic (newEnv k c contractAddress)
    let c' := c.push (.call .instantiate contractAddress (some authPolicy))
    let res ← callContract k .instantiate c' contractAddress codeInfo.codeHash fun code gas ↦
      k.wasmVM.call code env (.instantiate (newInfo k creator funds) initMsg) gas
    let ok ← Program.lift (contractResult errVMError errInstantiateFailed res)
    let createdAt ← liftPanic (newAbsoluteTxPosition c)
    let report ← analyzeCode k codeInfo.codeHash errVMError
    let ibcPortID ← instancePort k contractAddress report
    let contractInfo := { newContractInfo k codeID creator admin label createdAt with ibcPortID }
    persistInstance k c creator contractAddress initMsg contractInfo authPolicy
    emitContractEvent k "instantiate" contractAddress [codeIDAttribute codeID]
    let response ← deref ok
    let c' := c'.withSubMsgAuthzPolicy (authPolicy.subMessageAuthorizationPolicy .instantiate)
    let data ← wrapErr (handleContractResponse k h c' contractAddress ibcPortID response) "dispatch"
    return (contractAddress, data)

def execute (contractAddress caller : AccAddress) (msg : Bytes) (coins : Coins) : M X (Option Bytes) := do
  let (contractInfo, codeInfo) ← contractInstance k contractAddress
  chargeSetup k codeInfo.codeHash contractInfo.codeID msg.length "execute"
  deposit k caller contractAddress coins
  let env ← liftPanic (newEnv k c contractAddress)
  let c' := c.push (.call .execute contractAddress none)
  let res ← callContract k .execute c' contractAddress codeInfo.codeHash fun code gas ↦
    k.wasmVM.call code env (.execute (newInfo k caller coins) msg) gas
  let ok ← Program.lift (contractResult errVMError errExecuteFailed res)
  emitContractEvent k "execute" contractAddress []
  let response ← deref ok
  handleContractResponse k h c' contractAddress contractInfo.ibcPortID response

def sudoContract (contractAddress : AccAddress) (msg : Bytes) : M X (Option Bytes) := do
  let (contractInfo, codeInfo) ← contractInstance k contractAddress
  chargeSetup k codeInfo.codeHash contractInfo.codeID msg.length "sudo"
  let env ← liftPanic (newEnv k c contractAddress)
  let c' := c.push (.call .sudo contractAddress none)
  let res ← callContract k .sudo c' contractAddress codeInfo.codeHash fun code gas ↦
    k.wasmVM.call code env (.sudo msg) gas
  let ok ← Program.lift (contractResult errVMError errExecuteFailed res)
  emitContractEvent k "sudo" contractAddress []
  let response ← deref ok
  wrapErr (handleContractResponse k h c' contractAddress contractInfo.ibcPortID response) "dispatch"

def reply (contractAddress : AccAddress) (reply : Reply) : M X (Option Bytes) := do
  let (contractInfo, codeInfo) ← contractInstance k contractAddress
  let replyCosts ← liftPanic (k.gasRegister.replyCosts true reply)
  consumeGas replyCosts "Loading CosmWasm module: reply"
  let env ← liftPanic (newEnv k c contractAddress)
  let c' := c.push (.call .reply contractAddress none)
  let res ← callContract k .reply c' contractAddress codeInfo.codeHash fun code gas ↦
    k.wasmVM.call code env (.reply reply) gas
  let ok ← Program.lift (contractResult errVMError errExecuteFailed res)
  emitContractEvent k "reply" contractAddress []
  let response ← deref ok
  wrapErr (handleContractResponse k h c' contractAddress contractInfo.ibcPortID response) "dispatch"

end EntryPoints

end Cosmwasgo.Keeper
