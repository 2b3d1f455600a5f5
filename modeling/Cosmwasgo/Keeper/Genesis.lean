import Cosmwasgo.Keeper.Snapshotter

namespace Cosmwasgo.Types

open Cosmwasgo.Lib

structure Code where
  codeID : UInt64
  codeInfo : CodeInfo
  codeBytes : Bytes
  pinned : Bool
  deriving DecidableEq, Repr

structure Model where
  key : Bytes
  value : Bytes
  deriving DecidableEq, Repr

structure Contract where
  contractAddress : String
  contractInfo : ContractInfo
  contractState : List Model
  contractCodeHistory : List ContractCodeHistoryEntry
  deriving DecidableEq, Repr

structure Sequence where
  idKey : Bytes
  value : UInt64
  deriving DecidableEq, Repr

structure GenesisState where
  params : Params
  codes : List Code
  contracts : List Contract
  sequences : List Sequence
  deriving DecidableEq, Repr

end Cosmwasgo.Types

namespace Cosmwasgo.Keeper

open Cosmwasgo.Lib Cosmwasgo.Types Cosmwasgo.State

variable {X α : Type} (k : Keeper X)

section Validation

/-- A check of each element. An error tells which one it is about. -/
def validateEach (validate : α → Except Err Unit) (what : String) : Nat → List α → Except Err Unit
  | _, [] => .ok ()
  | i, a :: rest => do
    wrap (validate a) (what ++ toString i)
    validateEach validate what (i + 1) rest

theorem validateEach_eq_ok {validate : α → Except Err Unit} {what : String} {i : Nat} {l : List α}
    (h : validateEach validate what i l = .ok ()) : ∀ a ∈ l, validate a = .ok () := by
  induction l generalizing i with
  | nil => exact nofun
  | cons a l ih =>
    obtain ⟨⟨⟩, ha, hl⟩ := except_bind_eq_ok.1 h
    rw [List.forall_mem_cons]
    exact ⟨wrap_eq_ok.1 ha, ih hl⟩

def CodeInfo.validateBasic (c : CodeInfo) : Except Err Unit := do
  check (c.codeHash ≠ []) (.wrap errEmpty "code hash")
  validateAddress k "creator" c.creator
  wrap (AccessConfig.validateBasic k c.instantiateConfig) "instantiate config"

def ContractInfo.validateBasic (c : ContractInfo) : Except Err Unit := do
  check (c.codeID ≠ 0) (.wrap errEmpty "code id")
  validateAddress k "creator" c.creator
  validateAdmin k c.admin
  wrap (validateLabel k c.label) "label"
  wrap (validateExtension k c.extension) "extension"

def ContractCodeHistoryEntry.validateBasic (c : ContractCodeHistoryEntry) : Except Err Unit := do
  check (c.operation ∈ [HistoryOperation.genesis, .init, .migrate]) (.wrap errInvalid "operation")
  check (c.codeID ≠ 0) (.wrap errEmpty "code id")
  check c.updated.isSome (.wrap errEmpty "updated")
  wrap (validateRawContractMessage k c.msg) "msg"

def Model.validateBasic (m : Model) : Except Err Unit := check (m.key ≠ []) (.wrap errEmpty "key")

def Sequence.validateBasic (s : Sequence) : Except Err Unit := check (s.idKey ≠ []) (.wrap errEmpty "id key")

def Code.validateBasic (c : Code) : Except Err Unit := do
  check (c.codeID ≠ 0) (.wrap errEmpty "code id")
  wrap (CodeInfo.validateBasic k c.codeInfo) "code info"
  wrap (validateWasmCode c.codeBytes maxProposalWasmSize) "code bytes"

def Contract.validateBasic (c : Contract) : Except Err Unit := do
  validateAddress k "contract address" c.contractAddress
  wrap (ContractInfo.validateBasic k c.contractInfo) "contract info"
  check c.contractInfo.created.isSome (.wrap errInvalid "created must not be empty")
  validateEach Model.validateBasic "contract state " 0 c.contractState
  check (c.contractCodeHistory ≠ []) (.wrap errEmpty "code history")
  validateEach (ContractCodeHistoryEntry.validateBasic k) "code history element " 0 c.contractCodeHistory

/-- `ValidateGenesis`. -/
def GenesisState.validateBasic (s : GenesisState) : Except Err Unit := do
  wrap (Params.validateBasic k s.params) "params"
  validateEach (Code.validateBasic k) "code: " 0 s.codes
  validateEach (Contract.validateBasic k) "contract: " 0 s.contracts
  validateEach Sequence.validateBasic "sequence: " 0 s.sequences

end Validation

section Import

def importCode (codeID : UInt64) (codeInfo : CodeInfo) (wasmCode : Bytes) : M X Unit := do
  let wasmCode ← Program.lift (if isGzip wasmCode then uncompressCode k wasmCode maxInt64 else .ok wasmCode)
  let newCodeHash ← vmStoreCodeUnchecked k wasmCode
  Program.require (codeInfo.codeHash = newCodeHash) (.wrap errInvalid "code hashes not same")
  let ok ← hasKV k (getCodeKey codeID)
  Program.require (!ok) (.wrap errDuplicate ("duplicate code: " ++ toString codeID))
  setKV k (getCodeKey codeID) (.codeInfo codeInfo)

def importContractState (contractAddress : AccAddress) : List Model → M X Unit
  | [] => pure ()
  | model :: rest => do
    let has ← hasKV k (getContractStorePrefix contractAddress ++ model.key)
    Program.require (!has) (.wrap errDuplicate ("duplicate key: " ++ k.lib.hexEncode model.key))
    contractSet k contractAddress model.key model.value
    importContractState contractAddress rest

def importContract (contractAddr : AccAddress) (c : ContractInfo) (state : List Model)
    (historyEntries : List ContractCodeHistoryEntry) : M X Unit := do
  let contained ← containsCodeInfo k c.codeID
  Program.require contained (noSuchCode c.codeID)
  let has ← hasContractInfo k contractAddr
  Program.require (!has) (.wrap errDuplicate ("contract: " ++ k.bech32.string contractAddr))
  match historyEntries.head?, historyEntries.getLast? with
  | some first, some last => do
    let creatorAddress ← Program.lift (k.bech32.fromBech32 c.creator)
    appendToContractHistory k contractAddr historyEntries
    mustStoreContractInfo k contractAddr c
    addToContractCodeSecondaryIndex k contractAddr last
    addToContractCreatorSecondaryIndex k creatorAddress first.updated contractAddr
    importContractState k contractAddr state
  | _, _ => Program.fail (.wrap errEmpty "contract history")

def importPin (i : Nat) (code : Code) : M X Unit :=
  if code.pinned then wrapErr (pinCode k code.codeID) ("contract number " ++ toString i) else pure ()

/-- Returns the highest code id. -/
def importCodes : Nat → UInt64 → List Code → M X UInt64
  | _, maxCodeID, [] => return maxCodeID
  | i, maxCodeID, code :: rest => do
    wrapErr (importCode k code.codeID code.codeInfo code.codeBytes)
      ("code " ++ toString i ++ " with id: " ++ toString code.codeID)
    importPin k i code
    importCodes (i + 1) (if code.codeID > maxCodeID then code.codeID else maxCodeID) rest

def importContracts : Nat → List Contract → M X Unit
  | _, [] => pure ()
  | i, contract :: rest => do
    let contractAddr ← Program.lift
      (wrap (k.bech32.fromBech32 contract.contractAddress) ("address in contract number " ++ toString i))
    wrapErr (importContract k contractAddr contract.contractInfo contract.contractState contract.contractCodeHistory)
      ("contract number " ++ toString i)
    importContracts (i + 1) rest

def importSequences : Nat → List Sequence → M X Unit
  | _, [] => pure ()
  | i, seq :: rest => do
    wrapErr (importAutoIncrementID k seq.idKey seq.value) ("sequence number " ++ toString i)
    importSequences (i + 1) rest

def sequenceTooLow (seqVal maxCodeID : UInt64) : Err :=
  .wrap errInvalid ("seq " ++ bytesToString keySequenceCodeID ++ " with value: " ++ toString seqVal ++
    " must be greater than: " ++ toString maxCodeID ++ " ")

def sequenceUsed (seqVal : UInt64) : Err :=
  .wrap errInvalid ("value: " ++ toString seqVal ++ " for seq " ++ bytesToString keySequenceInstanceID ++
    " was used already")

/-- The classic address generator in a cached context: the number it draws stays the next one, and its `id + 1` may
wrap around unseen. -/
def peekClassicAddress (codeID : UInt64) : M X AccAddress := discarding do
  let instanceID ← peekAutoIncrementID k keySequenceInstanceID
  setKV k keySequenceInstanceID (.bytes (uint64ToBigEndian (instanceID + 1)))
  return buildContractAddressClassic k codeID instanceID

/-- The address that the last check looks at is made from the value of the sequence twice: as the instance id, which
the generator draws, and as the code id. -/
def checkSequences (maxCodeID : UInt64) : M X Unit := do
  let seqVal ← peekAutoIncrementID k keySequenceCodeID
  Program.require (maxCodeID < seqVal) (sequenceTooLow seqVal maxCodeID)
  let seqVal ← peekAutoIncrementID k keySequenceInstanceID
  let addr ← peekClassicAddress k seqVal
  let used ← hasContractInfo k addr
  Program.require (!used) (sequenceUsed seqVal)

def initGenesis (data : GenesisState) : M X Unit := do
  setParams k data.params
  let maxCodeID ← importCodes k 0 0 data.codes
  importContracts k 0 data.contracts
  importSequences k 0 data.sequences
  checkSequences k maxCodeID

end Import

section Export

/-- `panic(err)`. -/
def mustSucceed (m : M X α) : M X α :=
  m.attempt fun
    | .error e => Program.raise (.other e.error)
    | r => Program.finish r

def exportCode (codes : List Code) (e : UInt64 × CodeInfo) : M X (List Code × Bool) := do
  let bytecode ← mustSucceed (getByteCode k e.1)
  let pinned ← isPinnedCode k e.1
  return (codes ++ [⟨e.1, e.2, bytecode, pinned⟩], false)

def exportContract (contracts : List Contract) (e : AccAddress × ContractInfo) : M X (List Contract × Bool) := do
  let state ← iterateContractState k e.1 (fun state m ↦ pure (state ++ [⟨m.1, m.2⟩], false)) []
  let contractCodeHistory ← getContractHistory k e.1
  return (contracts ++ [⟨k.bech32.string e.1, e.2, state, contractCodeHistory⟩], false)

def exportSequence (key : Bytes) : M X Sequence := do
  let id ← mustSucceed (peekAutoIncrementID k key)
  return ⟨key, id⟩

def exportGenesis : M X GenesisState := do
  let params ← getParams k
  let codes ← iterateCodeInfos k (exportCode k) []
  let contracts ← iterateContractInfo k (exportContract k) []
  let codeSequence ← exportSequence k keySequenceCodeID
  let instanceSequence ← exportSequence k keySequenceInstanceID
  return { params, codes, contracts, sequences := [codeSequence, instanceSequence] }

end Export

end Cosmwasgo.Keeper
