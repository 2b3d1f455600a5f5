import Cosmwasgo.Keeper.Contracts
import Mathlib.Data.List.Sort

namespace Cosmwasgo.Keeper

open Cosmwasgo.Lib Cosmwasgo.Types Cosmwasgo.State

variable {X α : Type}

abbrev Messenger (X : Type) := Ctx → AccAddress → String → CosmosMsg → M X DispatchResult

structure MessageDispatcher (X : Type) where
  messenger : Messenger X
  replyer : Ctx → AccAddress → Reply → M X (Option Bytes)

def filterEvents (events : List Event) : List Event := events.filter fun e ↦ e.type ≠ "message"

/-- The stable sort of an event's attributes by key. -/
def sortAttributes (e : Event) : Event :=
  { e with attributes := e.attributes.insertionSort fun a b ↦ a.key ≤ b.key }

/-- The deferred function of `dispatchMsgWithGasLimit`: only running out of gas is turned into an error,
and the whole limit is charged for it. -/
def recoverOutOfGas (gasLimit : Gas) (m : M X α) : M X α :=
  m.attempt fun
    | .panic p =>
      if p.isOutOfGas then do
        consumeGas gasLimit "Sub-Message OutOfGas panic"
        Program.fail (.wrap errOutOfGas "SubMsg hit gas limit")
      else Program.raise p
    | r => Program.finish r

/-- What a limited message spent is charged to the parent unless it panicked. -/
def chargeParent (r : Outcome Err Panic α) (spent : Gas) : M X α :=
  match r with
  | .panic p => Program.raise p
  | .timeout => Program.expire
  | r => do
    consumeGas spent "From limited Sub-Message"
    Program.finish r

def dispatchMsgWithGasLimit (d : MessageDispatcher X) (c : Ctx) (contractAddr : AccAddress) (ibcPort : String)
    (msg : CosmosMsg) (gasLimit : Gas) : M X DispatchResult :=
  recoverOutOfGas gasLimit (withGasMeter gasLimit (d.messenger c contractAddr ibcPort msg) chargeParent)

/-- `Limit() - GasConsumed()` in unsigned arithmetic. -/
def gasRemaining (m : GasMeter) : Gas := (if m.infinite then maxUint64 else m.limit) - m.consumed

def limitGas (m : GasMeter) (msg : SubMsg) : Option Gas := msg.gasLimit.filter fun g ↦ g < gasRemaining m

def dispatchSubmsg (d : MessageDispatcher X) (c : Ctx) (contractAddr : AccAddress) (ibcPort : String)
    (msg : SubMsg) : M X DispatchResult := fun w ↦
  match limitGas w.meter msg with
  | some g => dispatchMsgWithGasLimit d c contractAddr ibcPort msg.msg g w
  | none => d.messenger c contractAddr ibcPort msg.msg w

/-- The events of a submessage that are kept. The attributes of a wasm message's events are sorted in place,
so the sorted ones are what the parent's event manager holds. -/
def keptEvents (msg : CosmosMsg) (events : List Event) : List Event :=
  if msg.wasm.isNone then filterEvents events else (filterEvents events).map sortAttributes

/-- Dispatches in a cached context. Its store and events are kept on success and dropped otherwise; the
result carries the events the reply is to see. -/
def dispatchCached (d : MessageDispatcher X) (c : Ctx) (contractAddr : AccAddress) (ibcPort : String)
    (loop : Nat) (msg : SubMsg) : M X (Except Err DispatchResult) := fun w ↦
  match dispatchSubmsg d c contractAddr ibcPort msg { w with events := [] } with
  | (.ok res, w') =>
    let events := keptEvents msg.msg (w'.events ++ res.events)
    let res := { res with events := if msg.msg.wasm.isNone then [] else events }
    (.ok (.ok res), { w' with
      events := w.events ++ events, trace := w'.trace ++ [.submsg loop msg w.store w'.store (.ok res)] })
  | (.error e, w') =>
    (.ok (.error e), { w' with
      store := w.store, events := w.events, trace := w'.trace ++ [.submsg loop msg w.store w'.store (.error e)] })
  | (.panic p, w') => (.panic p, { w' with store := w.store, events := w.events })
  | (.timeout, w') => (.timeout, { w' with store := w.store, events := w.events })

def ReplyOn.isValid : ReplyOn → Bool
  | .other _ => false
  | _ => true

def subMsgResult : Except Err DispatchResult → SubMsgResult
  | .ok res => { ok := some ⟨res.events, res.data.head?.join, res.msgResponses.flatten⟩ }
  | .error e => { err := (redactError e).error }

def makeReply (msg : SubMsg) (result : Except Err DispatchResult) : Reply :=
  { id := msg.id, result := subMsgResult result, payload := msg.payload }

def sendReply (d : MessageDispatcher X) (c : Ctx) (contractAddr : AccAddress) (loop : Nat) (reply : Reply) :
    M X (Option Bytes) := do
  let store ← Program.read fun w ↦ w.store
  observe (.reply loop reply store)
  let rspData ← wrapErr (d.replyer c contractAddr reply) "reply"
  observe (.replied loop rspData)
  return rspData

/-- The loop of `DispatchSubmessages`; `rsp` is the data of the last reply that returned any. -/
def dispatchLoop (d : MessageDispatcher X) (c : Ctx) (contractAddr : AccAddress) (ibcPort : String) (loop : Nat) :
    Option Bytes → List SubMsg → M X (Option Bytes)
  | rsp, [] => return rsp
  | rsp, msg :: msgs => do
    Program.require (ReplyOn.isValid msg.replyOn) (.wrap errInvalid "replyOn value")
    let result ← dispatchCached d c contractAddr ibcPort loop msg
    match msg.replyOn, result with
    | .success, .error e | .never, .error e => Program.fail e
    | .never, .ok _ | .error, .ok _ => dispatchLoop d c contractAddr ibcPort loop rsp msgs
    | _, _ => do
      let rspData ← sendReply d c contractAddr loop (makeReply msg result)
      dispatchLoop d c contractAddr ibcPort loop (rspData <|> rsp) msgs

def dispatchSubmessages (d : MessageDispatcher X) (c : Ctx) (contractAddr : AccAddress) (ibcPort : String)
    (msgs : List SubMsg) : M X (Option Bytes) := do
  let loop ← Program.read fun w ↦ w.trace.length
  observe (.dispatch loop)
  dispatchLoop d c contractAddr ibcPort loop none msgs

/-- `DefaultWasmVMContractResponseHandler.Handle`. -/
def handle (d : MessageDispatcher X) : ResponseHandler X := fun c contractAddr ibcPort messages origRspData ↦ do
  let rsp ← dispatchSubmessages d c contractAddr ibcPort messages
  return rsp <|> origRspData

end Cosmwasgo.Keeper
