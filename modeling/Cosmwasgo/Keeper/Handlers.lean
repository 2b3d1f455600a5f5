import Cosmwasgo.Keeper.Dispatcher
import Cosmwasgo.Keeper.MsgServer
import Cosmwasgo.Keeper.Relay

namespace Cosmwasgo.Keeper

open Cosmwasgo.Lib Cosmwasgo.Types Cosmwasgo.State

variable {X C R : Type}

section Encoders

variable (k : Keeper X)

def encodeBankMsg (sender : AccAddress) (msg : BankMsg) : Except Err (List SdkMsg) :=
  match msg.send with
  | none => .error (.wrap errUnknownMsg "unknown variant of Bank")
  | some send =>
    if send.amount = [] then .ok []
    else do
      let toSend ← k.lib.convertWasmCoins send.amount
      return [.plain (k.host.msgSend (k.bech32.string sender) send.toAddress toSend)]

def noCustomMsg : Except Err (List SdkMsg) := .error (.wrap errUnknownMsg "custom variant not supported")

/-- The encoders of other modules' messages, each to one message that calls nothing back. -/
def encodePlain (x : Except Err ExtMsg) : Except Err (List SdkMsg) := do
  let m ← x
  return [.plain m]

def encodeAnyMsg (msg : ExtMsg) : Except Err (List SdkMsg) := do
  let m ← k.host.unpackAny msg
  return [m]

def encodeWasmMsg (sender : AccAddress) (msg : WasmMsg) : Except Err (List SdkMsg) :=
  let sender := k.bech32.string sender
  match msg with
  | .execute contract msg funds => do
    let funds ← k.lib.convertWasmCoins funds
    return [.wasm (.executeContract { sender, contract, msg, funds })]
  | .instantiate codeID msg funds label admin => do
    let funds ← k.lib.convertWasmCoins funds
    return [.wasm (.instantiateContract { sender, codeID, label, msg, admin, funds })]
  | .instantiate2 codeID msg funds label admin salt => do
    let funds ← k.lib.convertWasmCoins funds
    return [.wasm (.instantiateContract2 { sender, admin, codeID, label, msg, funds, salt, fixMsg := false })]
  | .migrate contract codeID msg => .ok [.wasm (.migrateContract { sender, contract, codeID, msg })]
  | .clearAdmin contract => .ok [.wasm (.clearAdmin { sender, contract })]
  | .updateAdmin contract newAdmin => .ok [.wasm (.updateAdmin { sender, contract, newAdmin })]
  | .unset => .error (.wrap errUnknownMsg "unknown variant of Wasm")

def encodeIBCMsg (sender : AccAddress) (contractIBCPortID : String) (msg : IBCMsg) : Except Err (List SdkMsg) :=
  match msg.closeChannel, msg.other with
  | some channelID, _ =>
    .ok [.channel (k.host.msgChannelCloseInit (portIDForContract k sender) channelID (k.bech32.string sender))]
  | none, some payload => encodePlain (k.host.encodeIBCOther sender contractIBCPortID payload)
  | none, none => .error (.wrap errUnknownMsg "unknown variant of IBC")

/-- `MessageEncoders.Encode`: the first variant that is set decides. -/
def encode (contractAddr : AccAddress) (contractIBCPortID : String) (msg : CosmosMsg) : Except Err (List SdkMsg) :=
  match msg with
  | { bank := some m, .. } => encodeBankMsg k contractAddr m
  | { custom := some _, .. } => noCustomMsg
  | { distribution := some m, .. } => encodePlain (k.host.encodeDistributionMsg contractAddr m)
  | { ibc := some m, .. } => encodeIBCMsg k contractAddr contractIBCPortID m
  | { staking := some m, .. } => encodePlain (k.host.encodeStakingMsg contractAddr m)
  | { any := some m, .. } => encodeAnyMsg k m
  | { wasm := some m, .. } => encodeWasmMsg k contractAddr m
  | { gov := some m, .. } => encodePlain (k.host.encodeGovMsg contractAddr m)
  | _ => .error (.wrap errUnknownMsg "unknown variant of Wasm")

end Encoders

/-- Runs a handler of another module, answering its calls with `callee`. -/
def runScript (callee : C → M X (Option Bytes)) : Script X C R → M X R
  | .done run => external run
  | .call run next => do
    let call ← external run
    let r ← callee call
    runScript callee (next r)

/-- The message router gives every handler an event manager of its own. -/
def routed (m : M X MsgData) : M X MsgResult := do
  let (d, events) ← withEventManager m
  return { d with events }

section Router

variable (k : Keeper X) (h : ResponseHandler X) (c : Ctx)

def msgService (m : Msg) : M X MsgData := do
  let res ← MsgServer.handleMsg k h c m
  let any := k.host.marshalResponse res
  return { data := some any.value, msgResponses := [any] }

/-- A message another module executes on behalf of its signer; the events are passed on. -/
def nestedMsg (m : Msg) : M X (Option Bytes) := do
  let r ← routed (msgService k h c m)
  emitEvents r.events
  return r.data

def cannotRoute (m : ExtMsg) : M X MsgData :=
  Program.fail (.wrap errUnknownRequest ("can't route message " ++ m.typeURL))

/-- The handler registered for a message. -/
def routerHandler (m : SdkMsg) : M X MsgData :=
  match m with
  | .wasm m => msgService k h c m
  | .plain m =>
    match k.host.plainHandler c m with
    | some run => external run
    | none => cannotRoute m
  | .channel m =>
    match k.host.channelHandler c m with
    | some script => runScript (channelCallback k h c) script
    | none => cannotRoute m
  | .nested m =>
    match k.host.nestedHandler c m with
    | some script => runScript (nestedMsg k h c) script
    | none => cannotRoute m

end Router

def SdkMsg.validateBasic (k : Keeper X) : SdkMsg → Except Err Unit
  | .wasm m => Msg.validateBasic k m
  | .plain m | .channel m | .nested m => k.host.validateBasic m

/-- `GetMsgV1Signers`. -/
def SdkMsg.signers (k : Keeper X) : SdkMsg → Except Err (List AccAddress)
  | .wasm m => (k.bech32.fromBech32 m.sender).map fun a ↦ [a]
  | .plain m | .channel m | .nested m => k.host.signers m

def handleSdkMessage (k : Keeper X) (h : ResponseHandler X) (c : Ctx) (contractAddr : AccAddress) (msg : SdkMsg) :
    M X MsgResult := do
  Program.lift (SdkMsg.validateBasic k msg)
  let signers ← Program.lift (SdkMsg.signers k msg)
  Program.require (signers.all (contractAddr = ·)) (.wrap errUnauthorized "contract doesn't have permission")
  routed (routerHandler k h c msg)

def handleSdkMessages (k : Keeper X) (h : ResponseHandler X) (c : Ctx) (contractAddr : AccAddress) :
    DispatchResult → List SdkMsg → M X DispatchResult
  | acc, [] => return acc
  | acc, msg :: msgs => do
    let res ← handleSdkMessage k h c contractAddr msg
    handleSdkMessages k h c contractAddr
      ⟨acc.events ++ res.events, acc.data ++ [res.data], acc.msgResponses ++ [res.msgResponses]⟩ msgs

def sdkMessageHandler (k : Keeper X) (h : ResponseHandler X) : Messenger X :=
  fun c contractAddr contractIBCPortID msg ↦ do
    let sdkMsgs ← Program.lift (encode k contractAddr contractIBCPortID msg)
    handleSdkMessages k h c contractAddr ⟨[], [], []⟩ sdkMsgs

def channelCapabilityPath (portID channelID : String) : String :=
  "capabilities/ports/" ++ portID ++ "/channels/" ++ channelID

/-- The checks both raw packet messages start with. -/
def requireChannel (k : Keeper X) (contractIBCPortID channelID : String) : M X Unit := do
  Program.require (contractIBCPortID ≠ "") (.wrap errUnsupportedForContract "ibc not supported")
  Program.require (channelID ≠ "") (.wrap errEmpty "ibc channel")
  let owned ← Program.read fun w ↦
    k.host.getCapability w.store.ext (channelCapabilityPath contractIBCPortID channelID)
  Program.require owned (.wrap errChannelCapabilityNotFound "module does not own channel capability")

def rawResponse (k : Keeper X) (res : MsgServiceResponse) : DispatchResult :=
  ⟨[], [some (k.host.marshalResponse res).value], [[k.host.marshalResponse res]]⟩

/-- Every way of not finding the packet is one error for the contract. -/
def loadPacketForAck (k : Keeper X) (portID channelID : String) (sequence : UInt64) : M X Packet :=
  (loadAsyncAckPacket k portID channelID sequence).attempt fun
    | .error _ => Program.fail (.wrap errInvalid "packet")
    | r => Program.finish r

def sendPacket (k : Keeper X) (c : Ctx) (contractIBCPortID : String) (m : SendPacketMsg) : M X DispatchResult := do
  requireChannel k contractIBCPortID m.channelID
  let seq ← wrapErr (external (k.host.sendPacket c contractIBCPortID m)) "channel"
  return rawResponse k (.ibcSend seq)

def writeAcknowledgement (k : Keeper X) (c : Ctx) (contractAddr : AccAddress) (contractIBCPortID : String)
    (m : WriteAcknowledgementMsg) : M X DispatchResult := do
  requireChannel k contractIBCPortID m.channelID
  let packet ← loadPacketForAck k contractIBCPortID m.channelID m.packetSequence
  observeStore (.acknowledge contractAddr packet)
  wrapErr (external (k.host.writeAcknowledgement c packet m.ack)) "acknowledgement"
  recordAck packet
  deleteAsyncAckPacket k contractIBCPortID m.channelID m.packetSequence
  return rawResponse k .ibcWriteAcknowledgement

def ibcRawPacketHandler (k : Keeper X) : Messenger X := fun c contractAddr contractIBCPortID msg ↦
  match msg.ibc with
  | none => Program.fail errUnknownMsg
  | some { sendPacket := some m, .. } => sendPacket k c contractIBCPortID m
  | some { writeAcknowledgement := some m, .. } => writeAcknowledgement k c contractAddr contractIBCPortID m
  | some _ => Program.fail errUnknownMsg

def burnCoinMessageHandler (k : Keeper X) : Messenger X := fun _ contractAddr _ msg ↦
  match msg.bank.bind (·.burn) with
  | none => Program.fail errUnknownMsg
  | some amount => do
    let coins ← Program.lift (k.lib.convertWasmCoins amount)
    Program.require (!coins.isZero) (.wrap errEmpty "amount")
    wrapErr (external (k.host.sendCoinsFromAccountToModule contractAddr coins)) "transfer to module"
    wrapErr (external (k.host.burnCoins coins)) "burn coins"
    return ⟨[], [], []⟩

/-- The next handler runs on whatever state the one that did not know the message left. -/
def messageHandlerChain : List (Messenger X) → Messenger X
  | [], _, _, _, _ => Program.fail (.wrap errUnknownMsg "no handler found")
  | handler :: handlers, c, contractAddr, contractIBCPortID, msg =>
    (handler c contractAddr contractIBCPortID msg).attempt fun
      | .error e =>
        if e.is errUnknownMsg then messageHandlerChain handlers c contractAddr contractIBCPortID msg
        else Program.fail e
      | r => Program.finish r

def defaultMessageHandler (k : Keeper X) (h : ResponseHandler X) : Messenger X :=
  messageHandlerChain [sdkMessageHandler k h, ibcRawPacketHandler k, burnCoinMessageHandler k]

/-- The messenger of the keeper: the default chain behind `callDepthMessageHandler`. -/
def messenger (k : Keeper X) (h : ResponseHandler X) : Messenger X := fun c contractAddr contractIBCPortID msg ↦ do
  let c ← Program.lift (wrap (checkAndIncreaseCallDepth c k.maxCallDepth) "dispatch")
  defaultMessageHandler k h c contractAddr contractIBCPortID msg

def messageDispatcher (k : Keeper X) (h : ResponseHandler X) : MessageDispatcher X :=
  { messenger := messenger k h, replyer := reply k h }

/-- The keeper's response handler, to a bounded depth of the call tree. -/
def responseHandler (k : Keeper X) : Nat → ResponseHandler X
  | 0 => fun _ _ _ _ _ ↦ Program.expire
  | n + 1 => handle (messageDispatcher k (responseHandler k n))

end Cosmwasgo.Keeper
