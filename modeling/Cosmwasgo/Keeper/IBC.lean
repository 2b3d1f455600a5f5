import Cosmwasgo.Keeper.Handlers

namespace Cosmwasgo.Keeper.IBCHandler

open Cosmwasgo.Lib Cosmwasgo.Types Cosmwasgo.State

variable {X : Type}

def validateChannelParams (k : Keeper X) (channelID : String) : Except Err Unit := do
  let channelSequence ← k.lib.parseChannelSequence channelID
  check (channelSequence.toNat ≤ 2 ^ 32 - 1) (.wrap errMaxIBCChannels
    ("channel sequence " ++ toString channelSequence ++ " is greater than max allowed transfer channels 4294967295"))

/-- The parameters of an opening handshake, the same in both of its steps. -/
structure ChannelParams where
  order : Order
  connectionHops : List String
  portID : String
  channelID : String
  chanCap : Nat
  counterparty : IBCEndpoint
  version : String
  deriving DecidableEq, Repr

def ChannelParams.channel (p : ChannelParams) (connectionID : String) : IBCChannel :=
  ⟨⟨p.portID, p.channelID⟩, p.counterparty, p.order.string, p.version, connectionID⟩

/-- The checks and the call of the contract that both steps start with. -/
def openChannel (k : Keeper X) (c : Ctx) (p : ChannelParams) (msg : IBCChannel → IBCChannelOpenMsg) : M X String := do
  Program.lift (validateChannelParams k p.channelID)
  let contractAddr ← Program.lift (wrap (contractFromPortID k p.portID) "contract port id")
  let connectionID ←
    match p.connectionHops with
    | hop :: _ => pure hop
    | [] => Program.raise indexOutOfRange
  onOpenChannel k c contractAddr (msg (p.channel connectionID))

def claimCapability (k : Keeper X) (p : ChannelParams) : M X Unit := do
  let name := channelCapabilityPath p.portID p.channelID
  wrapErr (external (k.host.claimCapability p.chanCap name)) "claim capability"
  observe (.claim name)

def onChanOpenInit (k : Keeper X) (c : Ctx) (p : ChannelParams) : M X String := do
  let acceptedVersion ← openChannel k c p .openInit
  Program.require (acceptedVersion ≠ "" || p.version ≠ "") (.wrap errEmpty "version")
  claimCapability k p
  return if acceptedVersion = "" then p.version else acceptedVersion

/-- The version is the counterparty's. A capability claimed in the other step is not claimed again. -/
def onChanOpenTry (k : Keeper X) (c : Ctx) (p : ChannelParams) : M X String := do
  let version ← openChannel k c p fun channel ↦ .openTry channel p.version
  let owned ← Program.read fun w ↦
    k.host.authenticateCapability w.store.ext p.chanCap (channelCapabilityPath p.portID p.channelID)
  if owned then pure () else claimCapability k p
  return if version = "" then p.version else version

def newIBCPacket (packet : Packet) : IBCPacket where
  data := packet.data
  src := ⟨packet.sourcePort, packet.sourceChannel⟩
  dest := ⟨packet.destinationPort, packet.destinationChannel⟩
  sequence := packet.sequence
  timeout := {
    block :=
      if packet.timeoutHeight = {} then none
      else some ⟨packet.timeoutHeight.revisionNumber, packet.timeoutHeight.revisionHeight⟩
    timestamp := packet.timeoutTimestamp }

/-- `NewErrorAcknowledgementWithCodespace`. -/
def createErrorAcknowledgement (e : Err) : Acknowledgement :=
  .error ("ABCI error: " ++ e.abciInfo.1 ++ "/" ++ toString e.abciInfo.2 ++
    ": error handling packet: see events for details")

def emitAcknowledgementEvent (k : Keeper X) (contractAddr : AccAddress) (ack : Option Acknowledgement)
    (err : Option Err) : M X Unit :=
  let success := err.isNone && ack.all (·.success)
  emitEvents [⟨"ibc_packet_received",
    [⟨"module", "wasm"⟩, ⟨"_contract_address", k.bech32.string contractAddr⟩, ⟨"success", toString success⟩] ++
      (err.toList.map fun e ↦ ⟨"error", e.error⟩)⟩]

/-- Errors become error acknowledgements, for which IBC drops what was written. -/
def onRecvPacket (k : Keeper X) (h : ResponseHandler X) (c : Ctx) (packet : Packet) (relayer : String) :
    M X (Option Acknowledgement) := do
  let contractAddr ← liftPanic ((contractFromPortID k packet.destinationPort).mapError fun e ↦
    .other ("contract port id: " ++ e.error))
  (withEventManager (Keeper.onRecvPacket k h c contractAddr (newIBCPacket packet) relayer)).attempt fun
    | .ok (ack, events) => do
      if ack.all (·.success) then emitEvents events else pure ()
      emitAcknowledgementEvent k contractAddr ack none
      return ack
    | .error e => do
      let ack := createErrorAcknowledgement e
      emitAcknowledgementEvent k contractAddr (some ack) (some e)
      return some ack
    | .panic p => Program.raise p
    | .timeout => Program.expire

end Cosmwasgo.Keeper.IBCHandler
