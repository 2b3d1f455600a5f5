import Cosmwasgo.Properties.Replies
import Cosmwasgo.Runs.Roots
import Cosmwasgo.Runs.SimulationTree

namespace Cosmwasgo.Properties

open Cosmwasgo.Lib Cosmwasgo.Types Cosmwasgo.State Cosmwasgo.Keeper Cosmwasgo.Runs

variable {X α : Type} {k : Keeper X}

/-- Worlds that are the same but for what was emitted and what is on record. -/
abbrev SameState : World X → World X → Prop := Alike fun _ _ ↦ True

theorem isEventRel_true : IsEventRel fun _ _ ↦ True := ⟨fun _ ↦ trivial, fun _ _ ↦ trivial, fun _ _ ↦ trivial⟩

theorem sameState_of_alike {E : List Event → List Event → Prop} {w v : World X} (h : Alike E w v) : SameState w v :=
  ⟨h.store, h.meter, h.txContracts, h.vm, trivial⟩

/-- Errors that `redactError` hands on as they are. -/
def isExempt : Err → Bool
  | .system _ | .deterministic _ => true
  | _ => false

/-- Failures that differ in their texts at most. -/
structure SameFailure (e e' : Err) : Prop where
  abciInfo : e.abciInfo = e'.abciInfo
  left : isExempt e = false
  right : isExempt e' = false

def AnyFailure (_ _ : Err) : Prop := True

def SameKind (p p' : Panic) : Prop := p.isOutOfGas = p'.isOutOfGas

/-- What two messengers have in common about the events of a message: everything if it is a wasm message, otherwise
nothing. -/
def EventsOf (msg : CosmosMsg) (es es' : List Event) : Prop := msg.wasm.isSome = true → es = es'

theorem isEventRel_eventsOf (msg : CosmosMsg) : IsEventRel (EventsOf msg) := by
  refine ⟨fun _ _ ↦ rfl, fun h h' hmsg ↦ ?_, fun h p hmsg ↦ ?_⟩
  · rw [h hmsg, h' hmsg]
  · rw [h hmsg]

/-- Two messengers that agree on every message in all but the texts of failures and the events of messages to other
modules. -/
def MessengersAgree (m m' : Messenger X) : Prop :=
  ∀ c addr port msg, Couples (Alike (EventsOf msg)) (ResultsAlike (EventsOf msg)) SameFailure SameKind
    (m c addr port msg) (m' c addr port msg)

theorem redactError_of_not_exempt {e : Err} (h : isExempt e = false) :
    redactError e = .text ("codespace: " ++ e.abciInfo.1 ++ ", code: " ++ toString e.abciInfo.2) := by
  cases e with
  | system e => cases h
  | deterministic e => cases h
  | _ => rfl

/-- Of such failures a contract gets to know the same. -/
theorem SameFailure.redactError_eq {e e' : Err} (h : SameFailure e e') : redactError e = redactError e' := by
  rw [redactError_of_not_exempt h.left, redactError_of_not_exempt h.right, h.abciInfo]

section Limit

variable {E : List Event → List Event → Prop} {V : α → α → Prop} {m m' : M X α}

/-- Charging gas does not fail otherwise than by a panic. -/
theorem couples_consumeGas {F : Err → Err → Prop} (amount : Gas) (descriptor : String) :
    Couples (Alike E) Eq F SameKind (consumeGas amount descriptor : M X Unit) (consumeGas amount descriptor) := by
  intro w v hw
  right
  unfold consumeGas
  rw [hw.meter]
  rcases v.meter.consume amount descriptor with ⟨_ | p, meter⟩
  · exact ⟨.ok rfl, hw.store, rfl, hw.txContracts, hw.vm, hw.events⟩
  · exact ⟨.panic rfl, hw.store, rfl, hw.txContracts, hw.vm, hw.events⟩

theorem couples_chargeParent {F : Err → Err → Prop} {o o' : Outcome Err Panic α} (h : o.Coupled V F SameKind o')
    (spent : Gas) : Couples (Alike E) V F SameKind (chargeParent o spent : M X α) (chargeParent o' spent) := by
  cases h with
  | ok hv => exact (couples_consumeGas _ _).bind fun _ _ _ ↦ .finish (.ok hv)
  | error he => exact (couples_consumeGas _ _).bind fun _ _ _ ↦ .finish (.error he)
  | panic hp => exact .finish (.panic hp)

theorem couples_limited {F : Err → Err → Prop} (hm : Couples (Alike E) V F SameKind m m') (gasLimit : Gas) :
    Couples (Alike E) V F SameKind (withGasMeter gasLimit m chargeParent) (withGasMeter gasLimit m' chargeParent) := by
  intro w v hw
  have h := hm { w with meter := .new gasLimit } { v with meter := .new gasLimit }
    ⟨hw.store, rfl, hw.txContracts, hw.vm, hw.events⟩
  rcases hr : m { w with meter := .new gasLimit } with ⟨o, w'⟩
  rcases hr' : m' { v with meter := .new gasLimit } with ⟨o', v'⟩
  rw [withGasMeter_apply hr, withGasMeter_apply hr']
  rw [hr, hr'] at h
  rcases h with ⟨ho, ho'⟩ | ⟨ho, hs⟩
  · obtain rfl : o = .timeout := ho
    obtain rfl : o' = .timeout := ho'
    exact .inl ⟨rfl, rfl⟩
  · have hg : w'.meter = v'.meter := hs.meter
    rw [hg]
    exact couples_chargeParent ho _ _ _ ⟨hs.store, hw.meter, hs.txContracts, hs.vm, hs.events⟩

/-- The error for a message that ran out of gas is the dispatcher's own. -/
theorem couples_recoverOutOfGas (hm : Couples (Alike E) V SameFailure SameKind m m') (gasLimit : Gas) :
    Couples (Alike E) V SameFailure SameKind (recoverOutOfGas gasLimit m) (recoverOutOfGas gasLimit m') := by
  refine hm.attempt (fun _ ↦ rfl) (fun _ ↦ rfl) fun o o' h ↦ ?_
  cases h with
  | ok hv => exact .finish (.ok hv)
  | error he => exact .finish (.error he)
  | @panic p p' hp =>
    dsimp only
    rw [show p.isOutOfGas = p'.isOutOfGas from hp]
    split
    · exact (couples_consumeGas _ _).bind fun _ _ _ ↦ .fail ⟨rfl, rfl, rfl⟩
    · exact .finish (.panic hp)

end Limit

/-- Dispatchers that differ in what they do not let through. -/
structure DispatchersCouple (d d' : MessageDispatcher X) : Prop where
  messenger : MessengersAgree d.messenger d'.messenger
  replyer : ∀ c addr r, Couples SameState Eq AnyFailure SameKind (d.replyer c addr r) (d'.replyer c addr r)

/-- Results of a submessage that a reply about it does not tell apart. -/
inductive SameResult : Except Err DispatchResult → Except Err DispatchResult → Prop
  | ok (res : DispatchResult) : SameResult (.ok res) (.ok res)
  | error {e e' : Err} (h : redactError e = redactError e') : SameResult (.error e) (.error e')

theorem SameResult.makeReply_eq {r r' : Except Err DispatchResult} (h : SameResult r r') (msg : SubMsg) :
    makeReply msg r = makeReply msg r' := by
  cases h with
  | ok res => rfl
  | error h => rw [makeReply, makeReply, subMsgResult, subMsgResult, h]

/-- The worlds in two dispatch loops that have made the same reply calls so far. -/
structure InLoop (i j : Nat) (w v : World X) : Prop where
  state : SameState w v
  left : i < w.trace.length
  right : j < v.trace.length
  replies : replies i (w.trace.drop i) = replies j (v.trace.drop j)

section Loop

variable {d d' : MessageDispatcher X} (c : Ctx) (addr : AccAddress) (port : String) {i j : Nat}

theorem replies_drop_append {w w' : World X} {l : List (Observation X)} (ht : w'.trace = w.trace ++ l)
    (hi : i < w.trace.length) : replies i (w'.trace.drop i) = replies i (w.trace.drop i) ++ replies i l := by
  rw [ht, List.drop_append_of_le_length hi.le, replies_append]

/-- A submessage makes no reply call of the loop it is in. -/
theorem replies_dispatchCached (hd : DispatcherObeys (replyRegime k) d) (msg : SubMsg) {w : World X}
    (hi : i < w.trace.length) :
    let w' := (dispatchCached d c addr port i msg w).2
    i < w'.trace.length ∧ replies i (w'.trace.drop i) = replies i (w.trace.drop i) := by
  intro w'
  obtain ⟨l, hl, hrun⟩ := dispatchCached_record hd c addr port i msg w
  obtain ⟨l', ht, hno⟩ : ∃ l', w'.trace = w.trace ++ l' ∧ replies i l' = [] := by
    rcases hrun with ⟨t, -, -, -, ht⟩ | ⟨-, ht⟩
    · refine ⟨l ++ [.submsg i t.msg t.before t.after t.result], ht.trans (List.append_assoc _ _ _), ?_⟩
      rw [replies_append, (hl.of_lt hi).2.1]
      rfl
    · exact ⟨l, ht, (hl.of_lt hi).2.1⟩
  refine ⟨by rw [ht, List.length_append]; omega, ?_⟩
  rw [replies_drop_append ht hi, hno, List.append_nil]

/-- A reply call goes on record as the one it is. -/
theorem replies_sendReply (hd : DispatcherObeys (replyRegime k) d) (r : Reply) {w : World X} (hi : i < w.trace.length) :
    let w' := (sendReply d c addr i r w).2
    i < w'.trace.length ∧ replies i (w'.trace.drop i) = replies i (w.trace.drop i) ++ [(r, w.store)] := by
  intro w'
  obtain ⟨l, hl, hrun⟩ := sendReply_record hd c addr i r w
  obtain ⟨l', ht, hno⟩ : ∃ l', w'.trace = w.trace ++ (.reply i r w.store :: l') ∧ replies i l' = [] := by
    rcases hrun with ⟨data, -, ht⟩ | ⟨-, ht⟩
    · refine ⟨l ++ [.replied i data], by rw [ht]; simp, ?_⟩
      rw [replies_append, (hl.of_lt hi).2.1]
      rfl
    · exact ⟨l, by rw [ht]; simp, (hl.of_lt hi).2.1⟩
  refine ⟨by rw [ht, List.length_append]; omega, ?_⟩
  have hcall : replies i (.reply i r w.store :: l') = [(r, w.store)] := by
    change replies i ([.reply i r w.store] ++ l') = _
    rw [replies_append, hno]
    simp [replies]
  rw [replies_drop_append ht hi, hcall]

variable (hd : DispatchersCouple d d')

include hd

theorem couples_dispatchSubmsg (msg : SubMsg) :
    Couples (Alike (EventsOf msg.msg)) (ResultsAlike (EventsOf msg.msg)) SameFailure SameKind
      (dispatchSubmsg d c addr port msg) (dispatchSubmsg d' c addr port msg) := by
  intro w v hw
  unfold dispatchSubmsg
  rw [hw.meter]
  rcases limitGas v.meter msg with _ | g
  · exact hd.messenger c addr port msg.msg w v hw
  · exact couples_recoverOutOfGas (couples_limited (hd.messenger c addr port msg.msg) g) g w v hw

omit hd in
/-- The events of a submessage that a reply about it has. -/
theorem shown_eq {msg : CosmosMsg} {es es' : List Event} (h : EventsOf msg es es') :
    (if msg.wasm.isNone then [] else keptEvents msg es) = if msg.wasm.isNone then [] else keptEvents msg es' := by
  split
  · rfl
  · next hmsg => rw [h (by simpa [Option.isSome_iff_ne_none] using hmsg)]

theorem couples_dispatchCached (ho : DispatcherObeys (replyRegime k) d) (ho' : DispatcherObeys (replyRegime k) d')
    (msg : SubMsg) :
    Couples (InLoop i j) SameResult AnyFailure SameKind (dispatchCached d c addr port i msg)
      (dispatchCached d' c addr port j msg) := by
  intro w v hw
  have h := couples_dispatchSubmsg c addr port hd msg { w with events := [] }
    { v with events := [] }
    ⟨hw.state.store, hw.state.meter, hw.state.txContracts, hw.state.vm, (isEventRel_eventsOf _).refl []⟩
  obtain ⟨hlen, hrep⟩ := replies_dispatchCached c addr port ho msg hw.left
  obtain ⟨hlen', hrep'⟩ := replies_dispatchCached c addr port ho' msg hw.right
  have hreplies := hrep.trans (hw.replies.trans hrep'.symm)
  unfold dispatchCached at hlen hlen' hreplies ⊢
  rcases hr : dispatchSubmsg d c addr port msg { w with events := [] } with ⟨o, w'⟩
  rcases hr' : dispatchSubmsg d' c addr port msg { v with events := [] } with ⟨o', v'⟩
  rw [hr] at h hlen hreplies
  rw [hr'] at h hlen' hreplies
  rcases h with ⟨ho, ho'⟩ | ⟨ho, hs⟩
  · obtain rfl : o = .timeout := ho
    obtain rfl : o' = .timeout := ho'
    exact .inl ⟨rfl, rfl⟩
  · right
    cases ho with
    | @ok res res' hv =>
      have hes := (isEventRel_eventsOf msg.msg).append hs.events hv.events
      refine ⟨.ok ?_, ⟨hs.store, hs.meter, hs.txContracts, hs.vm, trivial⟩, hlen, hlen', hreplies⟩
      have hshown := shown_eq hes
      change SameResult (.ok { res with events := _ }) (.ok { res' with events := _ })
      rw [hshown, hv.data, hv.msgResponses]
      exact .ok _
    | error he =>
      exact ⟨.ok (.error he.redactError_eq), ⟨hw.state.store, hs.meter, hs.txContracts, hs.vm, trivial⟩, hlen, hlen',
        hreplies⟩
    | panic hp => exact ⟨.panic hp, ⟨hw.state.store, hs.meter, hs.txContracts, hs.vm, trivial⟩, hlen, hlen', hreplies⟩

theorem couples_sendReply (ho : DispatcherObeys (replyRegime k) d) (ho' : DispatcherObeys (replyRegime k) d')
    (r : Reply) :
    Couples (InLoop i j) Eq AnyFailure SameKind (sendReply d c addr i r) (sendReply d' c addr j r) := by
  intro w v hw
  obtain ⟨hlen, hrep⟩ := replies_sendReply c addr ho r hw.left
  obtain ⟨hlen', hrep'⟩ := replies_sendReply c addr ho' r hw.right
  have hreplies := hrep.trans ((congrArg₂ _ hw.replies (by rw [hw.state.store])).trans hrep'.symm)
  have hcouple : Couples SameState Eq AnyFailure SameKind
      (wrapErr (d.replyer c addr r) "reply" >>= fun data ↦ observe (.replied i data) >>= fun _ ↦ pure data)
      (wrapErr (d'.replyer c addr r) "reply" >>= fun data ↦ observe (.replied j data) >>= fun _ ↦ pure data) := by
    refine Couples.bind (V := Eq) ?_ fun data data' hdata ↦ ?_
    · refine (hd.replyer c addr r).attempt (fun _ ↦ rfl) (fun _ ↦ rfl) fun o o' h ↦ ?_
      cases h with
      | ok hv => exact .finish (.ok hv)
      | error _ => exact .fail trivial
      | panic hp => exact .finish (.panic hp)
    · subst hdata
      intro w v hw
      exact .inr ⟨.ok rfl, hw.store, hw.meter, hw.txContracts, hw.vm, trivial⟩
  have h := hcouple { w with trace := w.trace ++ [.reply i r w.store] } { v with trace := v.trace ++ [.reply j r v.store] }
    ⟨hw.state.store, hw.state.meter, hw.state.txContracts, hw.state.vm, trivial⟩
  rcases h with h | ⟨h, hs⟩
  · exact .inl h
  · exact .inr ⟨h, hs, hlen, hlen', hreplies⟩

theorem couples_dispatchLoop (ho : DispatcherObeys (replyRegime k) d) (ho' : DispatcherObeys (replyRegime k) d')
    (rsp : Option Bytes) (msgs : List SubMsg) :
    Couples (InLoop i j) Eq AnyFailure SameKind (dispatchLoop d c addr port i rsp msgs)
      (dispatchLoop d' c addr port j rsp msgs) := by
  induction msgs generalizing rsp with
  | nil => exact .pure rfl
  | cons msg msgs ih =>
    rw [dispatchLoop, dispatchLoop]
    rcases hv : ReplyOn.isValid msg.replyOn with _ | _
    · exact .fail trivial
    refine (couples_dispatchCached c addr port hd ho ho' msg).bind fun result result' hr ↦ ?_
    -- the reply about the result, if there is one, is the same
    have answers : Couples (InLoop i j) Eq AnyFailure SameKind
        (sendReply d c addr i (makeReply msg result) >>= fun data ↦ dispatchLoop d c addr port i (data <|> rsp) msgs)
        (sendReply d' c addr j (makeReply msg result') >>= fun data ↦
          dispatchLoop d' c addr port j (data <|> rsp) msgs) := by
      rw [← hr.makeReply_eq msg]
      refine (couples_sendReply c addr hd ho ho' (makeReply msg result)).bind fun data data' hdata ↦ ?_
      subst hdata
      exact ih _
    cases hr with
    | ok res =>
      cases hon : msg.replyOn
      case always | success => exact answers
      case error | never => exact ih rsp
      case other =>
        rw [hon] at hv
        cases hv
    | error _ =>
      cases hon : msg.replyOn
      case always | error => exact answers
      case success | never => exact .fail trivial
      case other =>
        rw [hon] at hv
        cases hv

end Loop

/-- Two runs in which the same reply calls were made, and which end alike, with the same data. -/
structure SameRun (w v : World X) (run run' : Outcome Err Panic (Option Bytes) × World X) : Prop where
  replies : replies w.trace.length (run.2.trace.drop w.trace.length) =
    replies v.trace.length (run'.2.trace.drop v.trace.length)
  outcome : run.1.Coupled Eq AnyFailure SameKind run'.1
  state : SameState run.2 run'.2

theorem sameRun_dispatchSubmessages {d d' : MessageDispatcher X} (hd : DispatchersCouple d d')
    (ho : DispatcherObeys (replyRegime k) d) (ho' : DispatcherObeys (replyRegime k) d') (c : Ctx) (addr : AccAddress)
    (port : String) (msgs : List SubMsg) {w v : World X} (hw : SameState w v) :
    let run := dispatchSubmessages d c addr port msgs w
    let run' := dispatchSubmessages d' c addr port msgs v
    (run.1 = .timeout ∧ run'.1 = .timeout) ∨ SameRun w v run run' := by
  have hstart : ∀ w : World X, replies w.trace.length
      ((w.trace ++ [Observation.dispatch w.trace.length]).drop w.trace.length) = [] := by
    intro w
    rw [List.drop_left]
    rfl
  have h := couples_dispatchLoop c addr port (i := w.trace.length) (j := v.trace.length) hd ho ho' none msgs
    { w with trace := w.trace ++ [.dispatch w.trace.length] } { v with trace := v.trace ++ [.dispatch v.trace.length] }
    ⟨⟨hw.store, hw.meter, hw.txContracts, hw.vm, trivial⟩, by simp, by simp, (hstart w).trans (hstart v).symm⟩
  exact h.imp_right fun ⟨houtcome, hloop⟩ ↦ ⟨hloop.replies, houtcome, hloop.state⟩

section Keeper

variable {h h' : ResponseHandler X}

def HandlersCouple (h h' : ResponseHandler X) : Prop := ∀ c addr port msgs data,
  Couples SameState Eq AnyFailure SameKind (h c addr port msgs data) (h' c addr port msgs data)

theorem couples_bind {β : Type} {m : M X α} (hm : Oblivious m) {f f' : α → M X β}
    (hf : ∀ a, Couples SameState Eq AnyFailure SameKind (f a) (f' a)) :
    Couples SameState Eq AnyFailure SameKind (m >>= f) (m >>= f') := by
  have hcouples : Couples SameState Eq AnyFailure SameKind m m :=
    hm.couples isEventRel_true (fun _ ↦ trivial) fun _ ↦ rfl
  refine hcouples.bind fun a b hab ↦ ?_
  subst hab
  exact hf a

/-- The keeper's replies are coupled if what handles the answers to them is. -/
theorem couples_reply (hh : HandlersCouple h h') (c : Ctx) (addr : AccAddress) (r : Reply) :
    Couples SameState Eq AnyFailure SameKind (reply k h c addr r) (reply k h' c addr r) := by
  refine couples_bind (Local.contractInstance (o := none) addr).oblivious fun (info, code) ↦ ?_
  refine couples_bind (Local.liftPanic (o := none) _).oblivious fun _ ↦ ?_
  refine couples_bind (Local.consumeGas (o := none) _ _).oblivious fun _ ↦ ?_
  refine couples_bind (Local.liftPanic (o := none) _).oblivious fun env ↦ ?_
  refine couples_bind (Oblivious.callContract _ _ _ _ _) fun res ↦ ?_
  refine couples_bind (Local.lift (o := none) _).oblivious fun ok ↦ ?_
  refine couples_bind (Local.emitContractEvent (o := none) _ _ _).oblivious fun _ ↦ ?_
  refine couples_bind (Local.deref (o := none) ok).oblivious fun response ↦ ?_
  have hhandle : Couples SameState Eq AnyFailure SameKind
      (handleContractResponse k h (c.push (.call .reply addr none)) addr info.ibcPortID response)
      (handleContractResponse k h' (c.push (.call .reply addr none)) addr info.ibcPortID response) := by
    refine couples_bind (Local.liftPanic (o := none) _).oblivious fun _ ↦ ?_
    refine couples_bind (Local.consumeGas (o := none) _ _).oblivious fun _ ↦ ?_
    refine couples_bind (Local.emitWasmModuleEvent (o := none) _ _).oblivious fun _ ↦ ?_
    exact couples_bind (Local.emitCustomEvents (o := none) _ _).oblivious fun _ ↦ hh _ _ _ _ _
  refine hhandle.attempt (fun _ ↦ rfl) (fun _ ↦ rfl) fun o o' ho ↦ ?_
  cases ho with
  | ok hv => exact .finish (.ok hv)
  | error _ => exact .fail trivial
  | panic hp => exact .finish (.panic hp)

/-- The keeper's response handler with other messengers, one for each depth. -/
def dispatchWith (k : Keeper X) (m : Nat → Messenger X) : Nat → ResponseHandler X
  | 0 => fun _ _ _ _ _ ↦ Program.expire
  | n + 1 => handle ⟨m n, reply k (dispatchWith k m n)⟩

theorem responseHandler_eq_dispatchWith (k : Keeper X) (n : Nat) :
    responseHandler k n = dispatchWith k (fun i ↦ messenger k (responseHandler k i)) n := by
  induction n with
  | zero => rfl
  | succ n ih => rw [responseHandler, dispatchWith, ← ih, messageDispatcher]

/-- What a messenger puts on record is about what it does itself. -/
def MessengerTraces (m : Messenger X) : Prop := ∀ c addr port msg w, Traces w (m c addr port msg w).2

theorem messengerTraces_messenger (k : Keeper X) (n : Nat) : MessengerTraces (messenger k (responseHandler k n)) :=
  fun c _ _ msg w ↦ Regime.obeys_messenger (c := c) (handlerObeys_replyRegime (k := k) n) trivial msg w

variable {m m' : Nat → Messenger X}

theorem dispatcherObeys_with (hm : ∀ n, MessengerTraces (m n)) (n : Nat) :
    DispatcherObeys (replyRegime k) ⟨m n, reply k (dispatchWith k m n)⟩ := by
  have hh : HandlerObeys (replyRegime k) (dispatchWith k m n) := by
    induction n with
    | zero => exact fun _ _ _ _ _ _ w ↦ .of_eq rfl
    | succ n ih =>
      intro c addr port msgs data _ w
      obtain ⟨l, done, ds, ht, hl, -⟩ := handle_run (d := ⟨m n, reply k (dispatchWith k m n)⟩)
        ⟨fun c addr port msg _ w ↦ hm n c addr port msg w, fun _ addr r ↦ Regime.clean_reply ih addr r⟩ c addr port msgs
        data w
      exact ⟨l, ht, hl.stretch⟩
  exact ⟨fun c addr port msg _ w ↦ hm n c addr port msg w, fun _ addr r ↦ Regime.clean_reply hh addr r⟩

theorem dispatchersCouple_with (hm : ∀ n, MessengersAgree (m n) (m' n)) (ht : ∀ n, MessengerTraces (m n))
    (ht' : ∀ n, MessengerTraces (m' n)) (n : Nat) :
    DispatchersCouple ⟨m n, reply k (dispatchWith k m n)⟩ ⟨m' n, reply k (dispatchWith k m' n)⟩ := by
  induction n with
  | zero => exact ⟨hm 0, fun c addr r ↦ couples_reply (fun _ _ _ _ _ ↦ .expire) c addr r⟩
  | succ n ih =>
    refine ⟨hm (n + 1), fun c addr r ↦ couples_reply (fun c addr port msgs data ↦ ?_) c addr r⟩
    refine Couples.bind (V := Eq) (fun w v hw ↦ ?_) fun rsp rsp' hrsp ↦ .pure (by rw [hrsp])
    have hrun := sameRun_dispatchSubmessages ih (dispatcherObeys_with ht n) (dispatcherObeys_with ht' n) c addr port msgs hw
    exact hrun.imp_right fun h ↦ ⟨h.outcome, h.state⟩

end Keeper

/-- What contracts get to see does not depend on the texts of errors nor on the events of other modules. -/
theorem replies_sameRun {m m' : Nat → Messenger X} (hm : ∀ n, MessengersAgree (m n) (m' n))
    (ht : ∀ n, MessengerTraces (m n)) (ht' : ∀ n, MessengerTraces (m' n)) (n : Nat) (c : Ctx) (addr : AccAddress)
    (port : String) (msgs : List SubMsg) {w v : World X} (hw : SameState w v) :
    let run := dispatchSubmessages ⟨m n, reply k (dispatchWith k m n)⟩ c addr port msgs w
    let run' := dispatchSubmessages ⟨m' n, reply k (dispatchWith k m' n)⟩ c addr port msgs v
    (run.1 = .timeout ∧ run'.1 = .timeout) ∨ SameRun w v run run' :=
  sameRun_dispatchSubmessages (dispatchersCouple_with hm ht ht' n) (dispatcherObeys_with ht n) (dispatcherObeys_with ht' n)
    c addr port msgs hw

section Devnet

/-- A messenger that fails, with a text that may be different on every node. -/
def failingMessenger (text : String) : Messenger Unit := fun _ _ _ _ ↦ Program.fail (.text text)

/-- After carol has set up a contract. -/
def repliedWorld : World Unit :=
  worldOf (delivered (plainnet idleContract) (durable openWorld) [storeCodeMsg carol, instantiateMsg carol])

/-- The contract asks for a reply about a message that fails. -/
def failingRun (text : String) : Outcome Err Panic (Option Bytes) × World Unit :=
  dispatchSubmessages
    ⟨failingMessenger text, reply (plainnet idleContract)
      (dispatchWith (plainnet idleContract) (fun _ ↦ failingMessenger text) 1)⟩
    genesisCtx contractOne "" [{ id := 7, msg := { custom := some [] }, replyOn := .error }] repliedWorld

theorem replies_sameRun_failing :
    ((replies repliedWorld.trace.length ((failingRun "disk full").2.trace.drop repliedWorld.trace.length)).map
      fun r ↦ r.1.result.err) = ["codespace: undefined, code: 1"] ∧
    SameRun repliedWorld repliedWorld (failingRun "disk full") (failingRun "no space left") := by
  have hm : ∀ _ : Nat, MessengersAgree (failingMessenger "disk full") (failingMessenger "no space left") :=
    fun _ _ _ _ _ ↦ .fail ⟨rfl, rfl, rfl⟩
  have ht : ∀ text, ∀ _ : Nat, MessengerTraces (failingMessenger text) := fun _ _ _ _ _ _ _ ↦ .of_eq rfl
  have h := replies_sameRun (k := plainnet idleContract) hm (ht _) (ht _) 1 genesisCtx contractOne ""
    [{ id := 7, msg := { custom := some [] }, replyOn := .error }] (w := repliedWorld) ⟨rfl, rfl, rfl, rfl, trivial⟩
  have hok : (failingRun "disk full").1 = .ok none := by decide +kernel
  refine ⟨by decide +kernel, h.resolve_left fun h ↦ ?_⟩
  cases hok.symm.trans h.1

end Devnet

end Cosmwasgo.Properties
