import Cosmwasgo.Properties.Replies
import Cosmwasgo.Runs.SimulationTree

namespace Cosmwasgo.Properties

open Cosmwasgo.Lib Cosmwasgo.Types Cosmwasgo.State Cosmwasgo.Keeper Cosmwasgo.Runs

variable {X : Type}

/-- The events of a submessage as a reply sees them: only those of wasm messages, attributes in key order. -/
def shownEvents (msg : CosmosMsg) (es : List Event) : List Event :=
  if msg.wasm.isNone then [] else es.map sortAttributes

/-- The error of a submessage that nobody is told about. -/
def abortsWith : ReplyOn → Except Err DispatchResult → Option Err
  | .success, .error e => some e
  | .never, .error e => some e
  | _, _ => none

section Reference

variable (d : MessageDispatcher X) (c : Ctx) (addr : AccAddress) (port : String)

/-- The effect of one submessage. If it succeeds these are its writes, the events of its context and then the
events it returned, without those of type `message`; if it fails there is none. -/
inductive MsgEffect (msg : SubMsg) (w : World X) : Except Err DispatchResult → World X → Prop
  | succeeds {res : DispatchResult} {w' : World X} {es : List Event}
      (h : dispatchSubmsg d c addr port msg { w with events := [] } = (.ok res, w'))
      (hes : es = filterEvents (w'.events ++ res.events)) :
      MsgEffect msg w (.ok { res with events := shownEvents msg.msg es }) { w' with events := w.events ++ es }
  | fails {e : Err} {w' : World X} (h : dispatchSubmsg d c addr port msg { w with events := [] } = (.error e, w')) :
      MsgEffect msg w (.error e) { w' with store := w.store, events := w.events }

/-- The submessages of a list take effect one after the other, each followed by its reply. -/
inductive Evaluates : Option Bytes → List SubMsg → World X → Option Bytes → World X → Prop
  | nil (rsp : Option Bytes) (w : World X) : Evaluates rsp [] w rsp w
  | unanswered {rsp rsp' : Option Bytes} {msg : SubMsg} {msgs : List SubMsg} {w w₁ w' : World X}
      {result : Except Err DispatchResult} (hv : ReplyOn.isValid msg.replyOn = true)
      (hm : MsgEffect d c addr port msg w result w₁) (ha : abortsWith msg.replyOn result = none)
      (hr : wantsReply msg.replyOn result = false) (hrest : Evaluates rsp msgs w₁ rsp' w') :
      Evaluates rsp (msg :: msgs) w rsp' w'
  | answered {rsp rsp' data : Option Bytes} {msg : SubMsg} {msgs : List SubMsg} {w w₁ w₂ w' : World X}
      {result : Except Err DispatchResult} (hv : ReplyOn.isValid msg.replyOn = true)
      (hm : MsgEffect d c addr port msg w result w₁) (hr : wantsReply msg.replyOn result = true)
      (hreply : d.replyer c addr (makeReply msg result) w₁ = (.ok data, w₂))
      (hrest : Evaluates (data <|> rsp) msgs w₂ rsp' w') : Evaluates rsp (msg :: msgs) w rsp' w'

/-- The submessage ends the whole call with an error. -/
inductive Rejected (msg : SubMsg) (w : World X) : Prop
  | invalid (hv : ReplyOn.isValid msg.replyOn = false)
  | failed {e : Err} {w' : World X} (hm : MsgEffect d c addr port msg w (.error e) w')
      (hr : msg.replyOn = .success ∨ msg.replyOn = .never)
  | replyFailed {result : Except Err DispatchResult} {e : Err} {w₁ w₂ : World X}
      (hv : ReplyOn.isValid msg.replyOn = true) (hm : MsgEffect d c addr port msg w result w₁)
      (hr : wantsReply msg.replyOn result = true)
      (hreply : d.replyer c addr (makeReply msg result) w₁ = (.error e, w₂))

def evaluateMsg (msg : SubMsg) : M X (Except Err DispatchResult) := fun w ↦
  match dispatchSubmsg d c addr port msg { w with events := [] } with
  | (.ok res, w') =>
    let es := filterEvents (w'.events ++ res.events)
    (.ok (.ok { res with events := shownEvents msg.msg es }), { w' with events := w.events ++ es })
  | (.error e, w') => (.ok (.error e), { w' with store := w.store, events := w.events })
  | (.panic p, w') => (.panic p, { w' with store := w.store, events := w.events })
  | (.timeout, w') => (.timeout, w')

/-- The evaluator of the semantics. -/
def evaluate : Option Bytes → List SubMsg → M X (Option Bytes)
  | rsp, [] => pure rsp
  | rsp, msg :: msgs => do
    Program.require (ReplyOn.isValid msg.replyOn) (.wrap errInvalid "replyOn value")
    let result ← evaluateMsg d c addr port msg
    match abortsWith msg.replyOn result with
    | some e => Program.fail e
    | none =>
      if wantsReply msg.replyOn result then do
        let data ← wrapErr (d.replyer c addr (makeReply msg result)) "reply"
        evaluate (data <|> rsp) msgs
      else evaluate rsp msgs

end Reference

/-- The response handler that follows the semantics at every level of the call tree. -/
def reference (k : Keeper X) : Nat → ResponseHandler X
  | 0 => fun _ _ _ _ _ ↦ Program.expire
  | n + 1 => fun c addr port msgs data ↦ do
    let rsp ← evaluate (messageDispatcher k (reference k n)) c addr port none msgs
    return rsp <|> data

section Evaluator

variable {d : MessageDispatcher X} {c : Ctx} {addr : AccAddress} {port : String}

theorem evaluateMsg_eq_ok {msg : SubMsg} {w w' : World X} {result : Except Err DispatchResult} :
    evaluateMsg d c addr port msg w = (.ok result, w') ↔ MsgEffect d c addr port msg w result w' := by
  unfold evaluateMsg
  constructor
  · intro h
    rcases hr : dispatchSubmsg d c addr port msg { w with events := [] } with ⟨a | e | p | _, v⟩ <;> rw [hr] at h <;>
      cases h
    · exact .succeeds hr rfl
    · exact .fails hr
  · rintro (⟨hr, rfl⟩ | hr)
    · rw [hr]
    · rw [hr]

theorem evaluateMsg_ne_error {msg : SubMsg} {w w' : World X} {e : Err} :
    evaluateMsg d c addr port msg w ≠ (.error e, w') := by
  unfold evaluateMsg
  rcases dispatchSubmsg d c addr port msg { w with events := [] } with ⟨a | e | p | _, v⟩ <;> nofun

theorem abortsWith_eq_none_of_wants {on : ReplyOn} {result : Except Err DispatchResult}
    (h : wantsReply on result = true) : abortsWith on result = none := by
  cases on <;> cases result <;> first | rfl | cases h

theorem abortsWith_eq_some {on : ReplyOn} {result : Except Err DispatchResult} {e : Err}
    (h : abortsWith on result = some e) : result = .error e ∧ (on = .success ∨ on = .never) := by
  cases on <;> cases result <;> cases h
  · exact ⟨rfl, .inl rfl⟩
  · exact ⟨rfl, .inr rfl⟩

theorem of_wrapErr_eq_error {m : M X (Option Bytes)} {desc : String} {w w' : World X} {e : Err}
    (h : wrapErr m desc w = (.error e, w')) : ∃ e₀, m w = (.error e₀, w') := by
  unfold wrapErr Program.attempt at h
  rcases hm : m w with ⟨b | e₀ | p | _, v⟩ <;> rw [hm] at h <;> cases h
  exact ⟨e₀, rfl⟩

section Steps

variable {rsp data : Option Bytes} {msg : SubMsg} {msgs : List SubMsg} {w w₁ w₂ : World X}
  {result : Except Err DispatchResult} (hv : ReplyOn.isValid msg.replyOn = true)
  (hm : MsgEffect d c addr port msg w result w₁)

include hv hm

theorem evaluate_unanswered (ha : abortsWith msg.replyOn result = none) (hr : wantsReply msg.replyOn result = false) :
    evaluate d c addr port rsp (msg :: msgs) w = evaluate d c addr port rsp msgs w₁ := by
  rw [evaluate, hv, Program.require_true, Program.pure_bind, Program.bind_of_ok _ (evaluateMsg_eq_ok.2 hm)]
  simp only [ha, hr]
  rfl

theorem evaluate_answered (hr : wantsReply msg.replyOn result = true)
    (hreply : d.replyer c addr (makeReply msg result) w₁ = (.ok data, w₂)) :
    evaluate d c addr port rsp (msg :: msgs) w = evaluate d c addr port (data <|> rsp) msgs w₂ := by
  rw [evaluate, hv, Program.require_true, Program.pure_bind, Program.bind_of_ok _ (evaluateMsg_eq_ok.2 hm)]
  simp only [abortsWith_eq_none_of_wants hr, hr, if_true]
  rw [Program.bind_of_ok _ (wrapErr_eq_ok.2 hreply)]

end Steps

theorem evaluate_eq_ok {rsp rsp' : Option Bytes} {msgs : List SubMsg} {w w' : World X} :
    evaluate d c addr port rsp msgs w = (.ok rsp', w') ↔ Evaluates d c addr port rsp msgs w rsp' w' := by
  constructor
  · intro h
    induction msgs generalizing rsp w with
    | nil =>
      cases h
      exact .nil _ _
    | cons msg msgs ih =>
      obtain ⟨_, _, hreq, h⟩ := Program.bind_eq_ok.1 h
      obtain ⟨hv, rfl⟩ := Program.require_eq_ok.1 hreq
      obtain ⟨result, w₁, hm, h⟩ := Program.bind_eq_ok.1 h
      have hm := evaluateMsg_eq_ok.1 hm
      rcases ha : abortsWith msg.replyOn result with _ | e <;> simp only [ha] at h
      · rcases hr : wantsReply msg.replyOn result with _ | _ <;> simp only [hr] at h
        · exact .unanswered hv hm ha hr (ih h)
        · obtain ⟨data, w₂, hreply, h⟩ := Program.bind_eq_ok.1 h
          exact .answered hv hm hr (wrapErr_eq_ok.1 hreply) (ih h)
      · cases h
  · intro h
    induction h with
    | nil rsp w => rfl
    | unanswered hv hm ha hr hrest ih => exact (evaluate_unanswered hv hm ha hr).trans ih
    | answered hv hm hr hreply hrest ih => exact (evaluate_answered hv hm hr hreply).trans ih

theorem wrapErr_eq_error {m : M X (Option Bytes)} {desc : String} {w w' : World X} {e : Err}
    (h : m w = (.error e, w')) : wrapErr m desc w = (.error (.wrap e desc), w') := by
  unfold wrapErr Program.attempt
  rw [h]
  rfl

/-- A submessage that is rejected ends the call. -/
theorem evaluate_rejected {rsp : Option Bytes} {msg : SubMsg} {msgs : List SubMsg} {w : World X}
    (h : Rejected d c addr port msg w) : ∃ e w', evaluate d c addr port rsp (msg :: msgs) w = (.error e, w') := by
  rw [evaluate]
  cases h with
  | invalid hv =>
    rw [hv]
    exact ⟨_, _, rfl⟩
  | failed hm hr =>
    have hv : ReplyOn.isValid msg.replyOn = true := by rcases hr with hr | hr <;> rw [hr] <;> rfl
    rw [hv, Program.require_true, Program.pure_bind, Program.bind_of_ok _ (evaluateMsg_eq_ok.2 hm)]
    rcases hr with hr | hr <;> rw [hr] <;> exact ⟨_, _, rfl⟩
  | replyFailed hv hm hr hreply =>
    rw [hv, Program.require_true, Program.pure_bind, Program.bind_of_ok _ (evaluateMsg_eq_ok.2 hm)]
    simp only [abortsWith_eq_none_of_wants hr, hr, if_true]
    rw [Program.bind_of_error _ (wrapErr_eq_error hreply)]
    exact ⟨_, _, rfl⟩

/-- The call fails exactly when a submessage is rejected after all before it have taken effect. -/
theorem evaluate_eq_error {rsp : Option Bytes} {msgs : List SubMsg} {w : World X} :
    (∃ e w', evaluate d c addr port rsp msgs w = (.error e, w')) ↔
      ∃ before msg after rsp₁ w₁, msgs = before ++ msg :: after ∧ Evaluates d c addr port rsp before w rsp₁ w₁ ∧
        Rejected d c addr port msg w₁ := by
  constructor
  · rintro ⟨e, w', h⟩
    induction msgs generalizing rsp w with
    | nil => cases h
    | cons msg msgs ih =>
      have now : Rejected d c addr port msg w → ∃ before m after rsp₁ w₁, msg :: msgs = before ++ m :: after ∧
          Evaluates d c addr port rsp before w rsp₁ w₁ ∧ Rejected d c addr port m w₁ :=
        fun h ↦ ⟨[], msg, msgs, rsp, w, rfl, .nil _ _, h⟩
      rcases hv : ReplyOn.isValid msg.replyOn with _ | _
      · exact now (.invalid hv)
      rw [evaluate, hv, Program.require_true, Program.pure_bind] at h
      rcases Program.bind_eq_error.1 h with hm | ⟨result, w₁, hm, h⟩
      · exact absurd hm evaluateMsg_ne_error
      have hm := evaluateMsg_eq_ok.1 hm
      rcases ha : abortsWith msg.replyOn result with _ | e' <;> simp only [ha] at h
      · rcases hr : wantsReply msg.replyOn result with _ | _ <;> simp only [hr] at h
        · obtain ⟨before, m, after, rsp₁, w₂, rfl, hb, hrej⟩ := ih h
          exact ⟨msg :: before, m, after, rsp₁, w₂, rfl, .unanswered hv hm ha hr hb, hrej⟩
        · rcases Program.bind_eq_error.1 h with hreply | ⟨data, w₂, hreply, h⟩
          · obtain ⟨e₀, he₀⟩ := of_wrapErr_eq_error hreply
            exact now (.replyFailed hv hm hr he₀)
          · obtain ⟨before, m, after, rsp₁, w₃, rfl, hb, hrej⟩ := ih h
            exact ⟨msg :: before, m, after, rsp₁, w₃, rfl,
              .answered hv hm hr (wrapErr_eq_ok.1 hreply) hb, hrej⟩
      · obtain ⟨rfl, hr⟩ := abortsWith_eq_some ha
        exact now (.failed hm hr)
  · rintro ⟨before, msg, after, rsp₁, w₁, rfl, hb, hrej⟩
    induction before generalizing rsp w with
    | nil =>
      cases hb
      exact evaluate_rejected hrej
    | cons m before ih =>
      rw [List.cons_append]
      cases hb with
      | unanswered hv hm ha hr hrest =>
        rw [evaluate_unanswered hv hm ha hr]
        exact ih hrest
      | answered hv hm hr hreply hrest =>
        rw [evaluate_answered hv hm hr hreply]
        exact ih hrest

end Evaluator

/-- The same event, with its attributes in any order that keeps those of one key in order. -/
def SortsAlike (e e' : Event) : Prop := sortAttributes e = sortAttributes e'

instance : Std.Total fun a b : Attribute ↦ a.key ≤ b.key := ⟨fun a b ↦ String.le_total a.key b.key⟩

instance : IsTrans Attribute fun a b ↦ a.key ≤ b.key := ⟨fun _ _ _ h h' ↦ String.le_trans h h'⟩

theorem sortAttributes_sortAttributes (e : Event) : sortAttributes (sortAttributes e) = sortAttributes e := by
  unfold sortAttributes
  rw [(List.pairwise_insertionSort _ e.attributes).insertionSort_eq]

theorem SortsAlike.type_eq {e e' : Event} (h : SortsAlike e e') : e.type = e'.type := by
  have hs : (sortAttributes e).type = (sortAttributes e').type := congrArg Event.type h
  exact hs

abbrev EventsAlike : List Event → List Event → Prop := List.Forall₂ SortsAlike

theorem isEventRel_eventsAlike : IsEventRel EventsAlike := isEventRel_forall₂ (fun _ ↦ rfl) SortsAlike.type_eq

theorem SortsAlike.perm {e e' : Event} (h : SortsAlike e e') : e.type = e'.type ∧ e.attributes.Perm e'.attributes := by
  refine ⟨h.type_eq, ?_⟩
  have hs : (sortAttributes e).attributes = (sortAttributes e').attributes := congrArg Event.attributes h
  exact ((List.perm_insertionSort _ _).symm.trans (.of_eq hs)).trans (List.perm_insertionSort _ _)

section Agreement

variable {α β : Type} {k : Keeper X}

abbrev Agree (V : α → β → Prop) (m : M X α) (m' : M X β) : Prop := Agrees (Alike EventsAlike) V m m'

theorem alike_swap : (Alike fun es es' ↦ EventsAlike es' es) = fun v w : World X ↦ Alike EventsAlike w v := by
  funext v w
  exact propext ⟨Alike.swap, Alike.swap⟩

theorem resultsAlike_swap : (ResultsAlike fun es es' ↦ EventsAlike es' es) = fun r r' ↦ ResultsAlike EventsAlike r' r := by
  funext r r'
  refine propext ⟨fun h ↦ ?_, fun h ↦ ?_⟩ <;> exact ⟨h.events, h.data.symm, h.msgResponses.symm⟩

/-- A dispatcher and one that follows it, up to the order of attributes. -/
structure DispatchersAgree (d d' : MessageDispatcher X) : Prop where
  messenger : ∀ c addr port msg,
    Agree (ResultsAlike EventsAlike) (d.messenger c addr port msg) (d'.messenger c addr port msg)
  replyer : ∀ c addr r, Agree Eq (d.replyer c addr r) (d'.replyer c addr r)

def HandlersAgree (h h' : ResponseHandler X) : Prop :=
  ∀ c addr port msgs data, Agree Eq (h c addr port msgs data) (h' c addr port msgs data)

theorem eq_swap : (fun b a : α ↦ a = b) = Eq := by
  funext a b
  exact propext eq_comm

theorem HandlersAgree.alike {h h' : ResponseHandler X} (hh : HandlersAgree h h') : HandlersAlike EventsAlike h h' :=
  fun c addr port msgs data ↦ (hh c addr port msgs data).simulates

theorem HandlersAgree.alike_swap {h h' : ResponseHandler X} (hh : HandlersAgree h h') :
    HandlersAlike (fun es es' ↦ EventsAlike es' es) h' h := fun c addr port msgs data ↦ by
  have := (hh c addr port msgs data).simulates_flip
  rwa [← Properties.alike_swap, eq_swap] at this

theorem dispatchersAgree_of_handlers {h h' : ResponseHandler X} (hh : HandlersAgree h h') :
    DispatchersAgree (messageDispatcher k h) (messageDispatcher k h') where
  messenger c addr port msg := by
    refine .of_simulates (sim_messenger isEventRel_eventsAlike hh.alike c addr port msg) ?_
    have := sim_messenger (k := k) isEventRel_eventsAlike.swap hh.alike_swap c addr port msg
    rwa [alike_swap, resultsAlike_swap] at this
  replyer c addr r := by
    refine .of_simulates (sim_reply isEventRel_eventsAlike hh.alike c addr r) ?_
    have := sim_reply (k := k) isEventRel_eventsAlike.swap hh.alike_swap c addr r
    rwa [alike_swap, ← eq_swap] at this

theorem agree_oblivious {m : M X α} (hm : Oblivious m) : Agree Eq m m := by
  refine .of_simulates (hm _ isEventRel_eventsAlike) ?_
  have := hm _ isEventRel_eventsAlike.swap
  rwa [alike_swap, ← eq_swap] at this

theorem agree_consumeGas (amount : Gas) (desc : String) :
    Agree Eq (consumeGas amount desc : M X Unit) (consumeGas amount desc) :=
  agree_oblivious (Local.consumeGas (o := none) amount desc).oblivious

theorem agree_finish {V : α → β → Prop} {o : Outcome Err Panic α} {o' : Outcome Err Panic β} (h : o.Matches V o') :
    Agree V (Program.finish o : M X α) (Program.finish o') := fun _ _ hw ↦ .inr ⟨h, hw⟩

theorem agree_chargeParent {V : α → α → Prop} {o o' : Outcome Err Panic α} (h : o.Matches V o') (spent : Gas) :
    Agree V (chargeParent o spent : M X α) (chargeParent o' spent) := by
  cases h with
  | ok hv => exact (agree_consumeGas _ _).bind fun _ _ _ ↦ agree_finish (.ok hv)
  | error e => exact (agree_consumeGas _ _).bind fun _ _ _ ↦ agree_finish (.error e)
  | panic p => exact agree_finish (.panic p)

theorem agree_recoverOutOfGas {V : α → α → Prop} {m m' : M X α} (hm : Agree V m m') (gasLimit : Gas) :
    Agree V (recoverOutOfGas gasLimit m) (recoverOutOfGas gasLimit m') := by
  refine hm.attempt (fun _ ↦ rfl) (fun _ ↦ rfl) fun o o' h ↦ ?_
  cases h with
  | ok hv => exact agree_finish (.ok hv)
  | error e => exact agree_finish (.error e)
  | panic p =>
    dsimp only
    split
    · exact (agree_consumeGas _ _).bind fun _ _ _ ↦ .fail _
    · exact agree_finish (.panic p)

theorem agree_limited {V : α → α → Prop} {m m' : M X α} (hm : Agree V m m') (gasLimit : Gas) :
    Agree V (withGasMeter gasLimit m chargeParent) (withGasMeter gasLimit m' chargeParent) := by
  intro w v hw
  have h := hm { w with meter := .new gasLimit } { v with meter := .new gasLimit }
    ⟨hw.store, rfl, hw.txContracts, hw.vm, hw.events⟩
  rcases hr : m { w with meter := .new gasLimit } with ⟨o, w'⟩
  rcases hr' : m' { v with meter := .new gasLimit } with ⟨o', v'⟩
  rw [withGasMeter_apply hr, withGasMeter_apply hr']
  rw [hr, hr'] at h
  rcases h with ⟨ho, ho'⟩ | ⟨ho, hs⟩
  · obtain rfl : o = .timeout := ho
    obtain rfl : o' = .timeout := ho'
    exact .inl ⟨rfl, rfl⟩
  · have hg : w'.meter = v'.meter := hs.meter
    rw [hg]
    exact agree_chargeParent ho _ _ _ ⟨hs.store, hw.meter, hs.txContracts, hs.vm, hs.events⟩

variable {d d' : MessageDispatcher X} (hd : DispatchersAgree d d') (c : Ctx) (addr : AccAddress) (port : String)

include hd

theorem agree_dispatchSubmsg (msg : SubMsg) :
    Agree (ResultsAlike EventsAlike) (dispatchSubmsg d c addr port msg) (dispatchSubmsg d' c addr port msg) := by
  intro w v hw
  unfold dispatchSubmsg
  rw [hw.meter]
  rcases limitGas v.meter msg with _ | g
  · exact hd.messenger c addr port msg.msg w v hw
  · exact agree_recoverOutOfGas (agree_limited (hd.messenger c addr port msg.msg) g) g w v hw

omit hd in
theorem eventsAlike_kept {es es' : List Event} (h : EventsAlike es es') (msg : CosmosMsg) :
    EventsAlike (keptEvents msg es) (filterEvents es') := by
  have hf : EventsAlike (filterEvents es) (filterEvents es') :=
    isEventRel_eventsAlike.filter h (· ≠ "message")
  unfold keptEvents
  split
  · exact hf
  · refine List.forall₂_map_left_iff.2 ?_
    exact hf.imp fun e e' he ↦ (sortAttributes_sortAttributes e).trans he

omit hd in
theorem kept_eq_shown {es es' : List Event} (h : EventsAlike es es') (msg : CosmosMsg) :
    (if msg.wasm.isNone then [] else keptEvents msg es) = shownEvents msg (filterEvents es') := by
  have hf : EventsAlike (filterEvents es) (filterEvents es') :=
    isEventRel_eventsAlike.filter h (· ≠ "message")
  unfold shownEvents keptEvents
  split
  · rfl
  · rw [← List.forall₂_eq_eq_eq, List.forall₂_map_left_iff, List.forall₂_map_right_iff]
    exact hf

/-- A submessage in a cached context has the effect the semantics gives it. -/
theorem agree_dispatchCached (loop : Nat) (msg : SubMsg) :
    Agree Eq (dispatchCached d c addr port loop msg) (evaluateMsg d' c addr port msg) := by
  intro w v hw
  have h := agree_dispatchSubmsg hd c addr port msg { w with events := [] } { v with events := [] }
    ⟨hw.store, hw.meter, hw.txContracts, hw.vm, .nil⟩
  unfold dispatchCached evaluateMsg
  rcases hr : dispatchSubmsg d c addr port msg { w with events := [] } with ⟨o, w'⟩
  rcases hr' : dispatchSubmsg d' c addr port msg { v with events := [] } with ⟨o', v'⟩
  rw [hr, hr'] at h
  rcases h with ⟨ho, ho'⟩ | ⟨ho, hs⟩
  · obtain rfl : o = .timeout := ho
    obtain rfl : o' = .timeout := ho'
    exact .inl ⟨rfl, rfl⟩
  · right
    cases ho with
    | ok hv =>
      have hes := List.rel_append hs.events hv.events
      refine ⟨.ok ?_, hs.store, hs.meter, hs.txContracts, hs.vm,
        List.rel_append hw.events (eventsAlike_kept hes msg.msg)⟩
      rw [kept_eq_shown hes msg.msg, hv.data, hv.msgResponses]
    | error e => exact ⟨.ok rfl, hw.store, hs.meter, hs.txContracts, hs.vm, hw.events⟩
    | panic p => exact ⟨.panic p, hw.store, hs.meter, hs.txContracts, hs.vm, hw.events⟩

omit hd in
theorem agree_observe {m m' : M X α} (h : Agree Eq m m') (o : α → Observation X) :
    Agree Eq (m >>= fun a ↦ observe (o a) >>= fun _ ↦ pure a) m' := by
  intro w v hw
  have h := h w v hw
  rcases hr : m w with ⟨a | e | p | _, w'⟩ <;> rw [hr] at h
  · obtain ⟨hm, hs⟩ := h.resolve_left (by simp)
    rw [Program.bind_of_ok _ hr]
    exact .inr ⟨hm, hs.store, hs.meter, hs.txContracts, hs.vm, hs.events⟩
  · rw [Program.bind_of_error _ hr]; exact h
  · rw [Program.bind_of_panic _ hr]; exact h
  · rw [Program.bind_of_timeout _ hr]; exact h

theorem agree_wrapErr_replyer (r : Reply) :
    Agree Eq (wrapErr (d.replyer c addr r) "reply") (wrapErr (d'.replyer c addr r) "reply") := by
  refine (hd.replyer c addr r).attempt (fun _ ↦ rfl) (fun _ ↦ rfl) fun o o' h ↦ ?_
  cases h with
  | ok hv => exact agree_finish (.ok hv)
  | error e => exact .fail _
  | panic p => exact agree_finish (.panic p)

theorem agree_sendReply (loop : Nat) (r : Reply) :
    Agree Eq (sendReply d c addr loop r) (wrapErr (d'.replyer c addr r) "reply") :=
  fun w _ hw ↦ agree_observe (agree_wrapErr_replyer hd c addr r) (.replied loop ·)
    { w with trace := w.trace ++ [.reply loop r w.store] } _
    ⟨hw.store, hw.meter, hw.txContracts, hw.vm, hw.events⟩

theorem agree_dispatchLoop (loop : Nat) (rsp : Option Bytes) (msgs : List SubMsg) :
    Agree Eq (dispatchLoop d c addr port loop rsp msgs) (evaluate d' c addr port rsp msgs) := by
  induction msgs generalizing rsp with
  | nil => exact .pure rfl
  | cons msg msgs ih =>
    rw [dispatchLoop, evaluate]
    rcases hv : ReplyOn.isValid msg.replyOn with _ | _
    · exact .fail _
    refine (agree_dispatchCached hd c addr port loop msg).bind fun result _ hr ↦ ?_
    subst hr
    have answers := (agree_sendReply hd c addr loop (makeReply msg result)).bind fun data _ hdata ↦
      (by subst hdata; exact ih (data <|> rsp) :
        Agree Eq (dispatchLoop d c addr port loop (data <|> rsp) msgs) _)
    rcases result with e | a <;> cases hon : msg.replyOn
    case error.always | error.error | ok.always | ok.success => exact answers
    case error.success | error.never => exact .fail e
    case ok.error | ok.never => exact ih rsp
    case error.other | ok.other =>
      rw [hon] at hv
      cases hv

theorem agree_dispatchSubmessages (msgs : List SubMsg) :
    Agree Eq (dispatchSubmessages d c addr port msgs) (evaluate d' c addr port none msgs) :=
  fun w _ hw ↦ agree_dispatchLoop hd c addr port w.trace.length none msgs
    { w with trace := w.trace ++ [.dispatch w.trace.length] } _
    ⟨hw.store, hw.meter, hw.txContracts, hw.vm, hw.events⟩

end Agreement

/-- The keeper's response handler follows the semantics at every depth. -/
theorem handlersAgree_reference (k : Keeper X) (n : Nat) : HandlersAgree (responseHandler k n) (reference k n) := by
  induction n with
  | zero => exact fun _ _ _ _ _ ↦ .expire
  | succ n ih =>
    intro c addr port msgs data
    refine (agree_dispatchSubmessages (dispatchersAgree_of_handlers ih) c addr port msgs).bind fun rsp _ hrsp ↦ ?_
    exact .pure (by rw [hrsp])

/-- The same event up to the order of its attributes. -/
def SameEvent (e e' : Event) : Prop := e.type = e'.type ∧ e.attributes.Perm e'.attributes

theorem alike_refl (w : World X) : Alike EventsAlike w w := ⟨rfl, rfl, rfl, rfl, isEventRel_eventsAlike.refl _⟩

/-- Dispatching a response's submessages has the effect of the reference semantics, for every behaviour of
contracts and other modules and at every depth, and it fails exactly when the semantics rejects a submessage. -/
theorem dispatchSubmessages_refines_reference (k : Keeper X) (n : Nat) (c : Ctx) (addr : AccAddress) (port : String)
    (msgs : List SubMsg) (w : World X) :
    let run := dispatchSubmessages (messageDispatcher k (responseHandler k n)) c addr port msgs w
    let ref := messageDispatcher k (reference k n)
    (∀ rsp w', run = (.ok rsp, w') → ∃ v, Evaluates ref c addr port none msgs w rsp v ∧ w'.store = v.store ∧
      List.Forall₂ SameEvent w'.events v.events) ∧
    (∀ rsp v, Evaluates ref c addr port none msgs w rsp v → ∃ w', run = (.ok rsp, w')) ∧
    ((∃ e w', run = (.error e, w')) ↔ ∃ before msg after rsp v, msgs = before ++ msg :: after ∧
      Evaluates ref c addr port none before w rsp v ∧ Rejected ref c addr port msg v) := by
  intro run ref
  have h := agree_dispatchSubmessages (dispatchersAgree_of_handlers (k := k) (handlersAgree_reference k n)) c addr port
    msgs w w (alike_refl w)
  change (run.1 = _ ∧ _) ∨ (run.1.Matches _ _ ∧ Alike _ run.2 _) at h
  rcases hrun : run with ⟨o, w'⟩
  rcases href : evaluate ref c addr port none msgs w with ⟨o', v⟩
  rw [hrun, href] at h
  refine ⟨fun rsp w₁ he ↦ ?_, fun rsp v₁ he ↦ ?_, ?_⟩
  · cases he
    obtain ⟨hm, hs⟩ := h.resolve_left (by simp)
    obtain rfl := hm.eq
    exact ⟨v, evaluate_eq_ok.1 href, hs.store, hs.events.imp fun _ _ he ↦ he.perm⟩
  · rw [evaluate_eq_ok.2 he] at href
    cases href
    obtain ⟨hm, -⟩ := h.resolve_left (by simp)
    exact ⟨w', by rw [show o = .ok rsp from hm.eq]⟩
  · rw [← evaluate_eq_error, href]
    constructor
    · rintro ⟨e, w₁, he⟩
      cases he
      obtain ⟨hm, -⟩ := h.resolve_left (by simp)
      exact ⟨e, v, by rw [← show Outcome.error e = o' from hm.eq]⟩
    · rintro ⟨e, v₁, he⟩
      cases he
      obtain ⟨hm, -⟩ := h.resolve_left (by simp)
      exact ⟨e, w', by rw [show o = .error e from hm.eq]⟩

/-- Below the top the semantics is followed as well. -/
theorem reference_succ_eq_ok {k : Keeper X} {n : Nat} {c : Ctx} {addr : AccAddress} {port : String}
    {msgs : List SubMsg} {data rsp : Option Bytes} {w w' : World X} :
    reference k (n + 1) c addr port msgs data w = (.ok rsp, w') ↔ ∃ rsp₀, rsp = (rsp₀ <|> data) ∧
      Evaluates (messageDispatcher k (reference k n)) c addr port none msgs w rsp₀ w' := by
  simp only [← evaluate_eq_ok]
  constructor
  · intro h
    obtain ⟨rsp₀, w₁, he, hp⟩ := Program.bind_eq_ok.1 h
    cases hp
    exact ⟨rsp₀, rfl, he⟩
  · rintro ⟨rsp₀, rfl, he⟩
    exact Program.bind_eq_ok.2 ⟨rsp₀, w', he, rfl⟩

end Cosmwasgo.Properties
