import Cosmwasgo.Keeper.Contracts

namespace Cosmwasgo.Keeper

open Cosmwasgo.Lib Cosmwasgo.Types Cosmwasgo.State

variable {X : Type}

def portIDPrefix : String := "wasm."

def contractFromPortID (k : Keeper X) (portID : String) : Except Err AccAddress :=
  if portIDPrefix.toList.isPrefixOf portID.toList then
    k.bech32.fromBech32 (String.ofList (portID.toList.drop portIDPrefix.length))
  else .error (.wrap errInvalid "without prefix")

/-- An acknowledgement of a received packet: the contract's own, or the error one. -/
inductive Acknowledgement
  | contractConfirmStateAck (data : Bytes)
  | error (text : String)
  deriving DecidableEq, Repr

def Acknowledgement.success : Acknowledgement → Bool
  | .contractConfirmStateAck _ => true
  | .error _ => false

def convertPacket (packet : IBCPacket) : Packet where
  sequence := packet.sequence
  sourcePort := packet.src.portID
  sourceChannel := packet.src.channelID
  destinationPort := packet.dest.portID
  destinationChannel := packet.dest.channelID
  data := packet.data
  timeoutHeight :=
    match packet.timeout.block with
    | some b => ⟨b.revision, b.height⟩
    | none => {}
  timeoutTimestamp := packet.timeout.timestamp

section

variable (k : Keeper X) (h : ResponseHandler X) (c : Ctx)

/-- The contract's own error is dropped: a channel opens with an empty version then. -/
def onOpenChannel (contractAddr : AccAddress) (msg : IBCChannelOpenMsg) : M X String := do
  let (_, codeInfo) ← contractInstance k contractAddr
  let env ← liftPanic (newEnv k c contractAddr)
  let c' := c.push (.call .ibc contractAddr none)
  let res ← callContract k .ibc c' contractAddr codeInfo.codeHash fun code gas ↦
    k.wasmVM.ibcChannelOpen code env msg gas
  match res with
  | .error e => Program.fail (.wrap errExecuteFailed e)
  | .ok none => return ""
  | .ok (some r) => return r.ok.getD ""

/-- The six entry points that answer with an `IBCBasicResponse`, which has no data. -/
def ibcBasicCall (entry : IBCEntryPoint) (contractAddr : AccAddress) (msg : Bytes) : M X Unit := do
  let (contractInfo, codeInfo) ← contractInstance k contractAddr
  let env ← liftPanic (newEnv k c contractAddr)
  let c' := c.push (.call .ibc contractAddr none)
  let res ← callContract k .ibc c' contractAddr codeInfo.codeHash fun code gas ↦
    k.wasmVM.call code env (.ibc entry msg) gas
  let ok ← Program.lift (contractResult errExecuteFailed errExecuteFailed res)
  let response ← deref ok
  let _ ← handleContractResponse k h c' contractAddr contractInfo.ibcPortID { response with data := none }
  return ()

def onConnectChannel : AccAddress → Bytes → M X Unit := ibcBasicCall k h c .channelConnect
def onCloseChannel : AccAddress → Bytes → M X Unit := ibcBasicCall k h c .channelClose
def onAckPacket : AccAddress → Bytes → M X Unit := ibcBasicCall k h c .packetAck
def onTimeoutPacket : AccAddress → Bytes → M X Unit := ibcBasicCall k h c .packetTimeout
def ibcSourceCallback : AccAddress → Bytes → M X Unit := ibcBasicCall k h c .sourceCallback
def ibcDestinationCallback : AccAddress → Bytes → M X Unit := ibcBasicCall k h c .destinationCallback

/-- What a contract makes of a packet: an error of its own, or the data its messages leave. -/
def receivePacket (contractAddr : AccAddress) (packet : IBCPacket) (relayer : String) :
    M X (Except String (Option Bytes)) := do
  let (contractInfo, codeInfo) ← contractInstance k contractAddr
  let env ← liftPanic (newEnv k c contractAddr)
  let c' := c.push (.call .ibc contractAddr none)
  let res ← callContract k .ibc c' contractAddr codeInfo.codeHash fun code gas ↦
    k.wasmVM.call code env (.ibcPacketReceive packet relayer) gas
  match res with
  | .error e => Program.raise (.other e)
  | .ok none => Program.fail (.wrap errVMError "internal wasmvm error")
  | .ok (some r) =>
    if r.err ≠ "" then return .error r.err
    else do
      let response ← deref r.ok
      let data ← handleContractResponse k h c' contractAddr contractInfo.ibcPortID response
      return .ok data

/-- Without data there is no acknowledgement yet, and the packet is kept for a later one. -/
def acknowledge (packet : Packet) (data : Option Bytes) : M X (Option Acknowledgement) :=
  match data with
  | some d => return some (.contractConfirmStateAck d)
  | none => do
    storeAsyncAckPacket k packet
    return none

def onRecvPacket (contractAddr : AccAddress) (packet : IBCPacket) (relayer : String) :
    M X (Option Acknowledgement) := do
  match ← receivePacket k h c contractAddr packet relayer with
  | .error e => return some (.error e)
  | .ok data => acknowledge k (convertPacket packet) data

end

/-- A channel callback, routed to the contract behind the port. -/
def channelCallback (k : Keeper X) (h : ResponseHandler X) (c : Ctx) (cb : ChannelCallback) : M X (Option Bytes) := do
  let contractAddr ← Program.lift (wrap (contractFromPortID k cb.portID) "contract port id")
  onCloseChannel k h c contractAddr cb.msg
  return none

end Cosmwasgo.Keeper
