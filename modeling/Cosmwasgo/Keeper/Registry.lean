import Cosmwasgo.Keeper.Query

namespace Cosmwasgo.Keeper

open Cosmwasgo.Lib Cosmwasgo.Types Cosmwasgo.State

variable {X : Type}

def setParams (k : Keeper X) (ps : Params) : M X Unit := setKV k paramsKey (.params ps)

def mustStoreCodeInfo (k : Keeper X) (codeID : UInt64) (codeInfo : CodeInfo) : M X Unit :=
  setKV k (getCodeKey codeID) (.codeInfo codeInfo)

def mustStoreContractInfo (k : Keeper X) (contractAddress : AccAddress) (contract : ContractInfo) : M X Unit :=
  setKV k (getContractAddressKey contractAddress) (.contractInfo contract)

/-- Puts the write of a contract info on record, before it is made. -/
def recordChange (c : Ctx) (kind : ChangeKind) (contract caller : AccAddress) (policy : AuthorizationPolicy)
    (after : ContractInfo) : M X Unit :=
  Program.update fun w ↦
    let change : ContractChange :=
      { kind, contract, caller, policy, stack := c.stack, after,
        before := w.store.kv.get (getContractAddressKey contract),
        code := w.store.kv.get (getCodeKey after.codeID) }
    { w with store := { w.store with changes := w.store.changes ++ [change] } }

def positionNil : Panic := .other "object must not be nil"

/-- `c.Updated`, read through the pointer. -/
def mustPosition (p : Option AbsoluteTxPosition) : M X AbsoluteTxPosition :=
  match p with
  | some p => pure p
  | none => Program.raise positionNil

def addToContractCodeSecondaryIndex (k : Keeper X) (contractAddress : AccAddress)
    (entry : ContractCodeHistoryEntry) : M X Unit := do
  let updated ← mustPosition entry.updated
  setKV k (getContractByCreatedSecondaryIndexKey contractAddress entry.codeID updated) (.bytes [])

def removeFromContractCodeSecondaryIndex (k : Keeper X) (contractAddress : AccAddress)
    (entry : ContractCodeHistoryEntry) : M X Unit := do
  let updated ← mustPosition entry.updated
  deleteKV k (getContractByCreatedSecondaryIndexKey contractAddress entry.codeID updated)

/-- `MustLengthPrefix` panics on an address over 255 bytes. -/
def mustCreatorPrefix (creator : AccAddress) : M X Bytes :=
  match getContractsByCreatorPrefix creator with
  | some p => pure p
  | none => Program.raise (.other "address length should be max 255 bytes")

def addToContractCreatorSecondaryIndex (k : Keeper X) (creatorAddress : AccAddress)
    (position : Option AbsoluteTxPosition) (contractAddress : AccAddress) : M X Unit := do
  let position ← mustPosition position
  let head ← mustCreatorPrefix creatorAddress
  setKV k (getContractByCreatorSecondaryIndexKey head position contractAddress) (.bytes [])

def sliceOutOfRange : Panic := .other "slice bounds out of range"

/-- The addresses behind the position in index keys. -/
def indexAddresses (es : List (Bytes × Value)) : Except Panic (List AccAddress) :=
  es.mapM fun e ↦
    if e.1.length < absoluteTxPositionLen then .error sliceOutOfRange else .ok (e.1.drop absoluteTxPositionLen)

/-- The contracts the callback is called with, in order, when it never stops. -/
def iterateContractsByCreator (k : Keeper X) (creator : AccAddress) : M X (List AccAddress) := do
  let head ← mustCreatorPrefix creator
  let es ← iterateKV k head
  liftPanic (indexAddresses es)

def iterateContractsByCode (k : Keeper X) (codeID : UInt64) : M X (List AccAddress) := do
  let es ← iterateKV k (getContractByCodeIDSecondaryIndexPrefix codeID)
  liftPanic (indexAddresses es)

/-- Entries of one contract have eight bytes after its address; longer keys belong to longer addresses. -/
def historyEntries (es : List (Bytes × Value)) : List (Bytes × Value) := es.filter fun e ↦ e.1.length == 8

def storeHistory (k : Keeper X) (contractAddr : AccAddress) : UInt64 → List ContractCodeHistoryEntry → M X Unit
  | _, [] => pure ()
  | pos, e :: es => do
    let pos ← incUint64 pos
    setKV k (getContractCodeHistoryElementKey contractAddr pos) (.history e)
    storeHistory k contractAddr pos es

def lastPosition (es : List (Bytes × Value)) : UInt64 :=
  match (historyEntries es).getLast? with
  | some e => bigEndianToUint64 e.1
  | none => 0

def appendToContractHistory (k : Keeper X) (contractAddr : AccAddress)
    (newEntries : List ContractCodeHistoryEntry) : M X Unit := do
  let es ← iterateKV k (getContractCodeHistoryElementPrefix contractAddr)
  storeHistory k contractAddr (lastPosition es) newEntries

def unmarshalHistory : Value → Except Panic ContractCodeHistoryEntry
  | .history e => .ok e
  | _ => .error unmarshalPanic

def getContractHistory (k : Keeper X) (contractAddr : AccAddress) : M X (List ContractCodeHistoryEntry) := do
  let es ← iterateKV k (getContractCodeHistoryElementPrefix contractAddr)
  liftPanic ((historyEntries es).mapM fun e ↦ unmarshalHistory e.2)

def mustGetLastContractHistoryEntry (k : Keeper X) (contractAddr : AccAddress) :
    M X ContractCodeHistoryEntry := do
  let es ← iterateKV k (getContractCodeHistoryElementPrefix contractAddr)
  match (historyEntries es).getLast? with
  | some e => liftPanic (unmarshalHistory e.2)
  | none => Program.raise (.other ("no history for " ++ k.bech32.string contractAddr))

/-- The value of a sequence key; an absent sequence starts at one. -/
def parseSequence : Option Value → Except Panic UInt64
  | none => .ok 1
  | some (.bytes b) => if b.length < 8 then .error (.other "index out of range") else .ok (bigEndianToUint64 b)
  | some _ => .error unmarshalPanic

theorem parseSequence_uint64ToBigEndian (n : UInt64) : parseSequence (some (.bytes (uint64ToBigEndian n))) = .ok n := by
  simp [parseSequence]

def mustAutoIncrementID (k : Keeper X) (sequenceKey : Bytes) : M X UInt64 := do
  let v ← getKV k sequenceKey
  let id ← liftPanic (parseSequence v)
  let next ← incUint64 id
  setKV k sequenceKey (.bytes (uint64ToBigEndian next))
  return id

def peekAutoIncrementID (k : Keeper X) (sequenceKey : Bytes) : M X UInt64 := do
  let v ← getKV k sequenceKey
  liftPanic (parseSequence v)

def importAutoIncrementID (k : Keeper X) (sequenceKey : Bytes) (val : UInt64) : M X Unit := do
  let ok ← hasKV k sequenceKey
  Program.require (!ok) (.wrap errDuplicate ("autoincrement id: " ++ bytesToString sequenceKey))
  setKV k sequenceKey (.bytes (uint64ToBigEndian val))

def asyncAckKey (portID channelID : String) (sequence : UInt64) : Bytes :=
  getAsyncAckStorePrefix portID ++ getAsyncPacketKey channelID sequence

@[simp] theorem head?_asyncAckKey (portID channelID : String) (sequence : UInt64) :
    (asyncAckKey portID channelID sequence).head? = some 17 := rfl

def loadAsyncAckPacket (k : Keeper X) (portID channelID : String) (sequence : UInt64) : M X Packet := do
  match ← getKV k (asyncAckKey portID channelID sequence) with
  | some (.packet p) => return p
  | some _ => Program.fail (.text "unmarshal")
  | none => Program.fail (.wrap errNotFound "packet")

def storeAsyncAckPacket (k : Keeper X) (packet : Packet) : M X Unit :=
  setKV k (asyncAckKey packet.destinationPort packet.destinationChannel packet.sequence) (.packet packet)

def deleteAsyncAckPacket (k : Keeper X) (portID channelID : String) (sequence : UInt64) : M X Unit :=
  deleteKV k (asyncAckKey portID channelID sequence)

/-- Puts a late acknowledgement on record, once IBC has taken it. -/
def recordAck (packet : Packet) : M X Unit :=
  Program.update fun w ↦ { w with store := { w.store with acks := w.store.acks ++ [packet] } }

/-- `AdminAddr`: nil when no admin is set. -/
def adminAddr (k : Keeper X) (c : ContractInfo) : Except Panic AccAddress :=
  if c.admin = "" then .ok []
  else
    match k.bech32.fromBech32 c.admin with
    | .ok a => .ok a
    | .error e => .error (.other e.error)

def emitContractEvent (k : Keeper X) (type : String) (contract : AccAddress) (rest : List Attribute) : M X Unit :=
  emitEvents [⟨type, ⟨"_contract_address", k.bech32.string contract⟩ :: rest⟩]

def codeIDAttribute (codeID : UInt64) : Attribute := ⟨"code_id", toString codeID⟩

def pinCode (k : Keeper X) (codeID : UInt64) : M X Unit := do
  match ← getCodeInfo k codeID with
  | none => Program.fail (noSuchCode codeID)
  | some codeInfo =>
    let stored ← Program.read fun w ↦ (w.vm.codes.get codeInfo.codeHash).isSome
    Program.require stored (.wrap errPinContractFailed "Error opening Wasm file for reading")
    Program.update fun w ↦ { w with vm := { w.vm with pinned := codeInfo.codeHash :: w.vm.pinned } }
    setKV k (getPinnedCodeIndexPrefix codeID) (.bytes [1])
    emitEvents [⟨"pin_code", [codeIDAttribute codeID]⟩]

def unpinCode (k : Keeper X) (codeID : UInt64) : M X Unit := do
  match ← getCodeInfo k codeID with
  | none => Program.fail (noSuchCode codeID)
  | some codeInfo =>
    Program.update fun w ↦ { w with vm := { w.vm with pinned := w.vm.pinned.filter (· ≠ codeInfo.codeHash) } }
    deleteKV k (getPinnedCodeIndexPrefix codeID)
    emitEvents [⟨"unpin_code", [codeIDAttribute codeID]⟩]

end Cosmwasgo.Keeper
