import Cosmwasgo.Runs.Dispatch
import Cosmwasgo.State.Devnet
import Mathlib.Data.List.ReduceOption

namespace Cosmwasgo.Properties

open Cosmwasgo.Lib Cosmwasgo.Types Cosmwasgo.State Cosmwasgo.Keeper Cosmwasgo.Runs

variable {X : Type} {k : Keeper X}

/-- A submessage that was dispatched, with the store before it, the store it left and its outcome. -/
structure Turn (X : Type) where
  msg : SubMsg
  before : Store X
  after : Store X
  result : Except Err DispatchResult

section Projections

variable (loop : Nat)

def turns (l : List (Observation X)) : List (Turn X) :=
  l.filterMap fun
    | .submsg i msg before after result => if i = loop then some ⟨msg, before, after, result⟩ else none
    | _ => none

/-- The reply calls of a dispatch loop, with the store each of them starts from. -/
def replies (l : List (Observation X)) : List (Reply × Store X) :=
  l.filterMap fun
    | .reply i r store => if i = loop then some (r, store) else none
    | _ => none

/-- What the reply calls that returned have returned. -/
def replyData (l : List (Observation X)) : List (Option Bytes) :=
  l.filterMap fun
    | .replied i data => if i = loop then some data else none
    | _ => none

@[simp] theorem turns_append (l l' : List (Observation X)) : turns loop (l ++ l') = turns loop l ++ turns loop l' :=
  List.filterMap_append

@[simp] theorem replies_append (l l' : List (Observation X)) :
    replies loop (l ++ l') = replies loop l ++ replies loop l' := List.filterMap_append

@[simp] theorem replyData_append (l l' : List (Observation X)) :
    replyData loop (l ++ l') = replyData loop l ++ replyData loop l' := List.filterMap_append

end Projections

/-- The outcomes a submessage wants a reply about. -/
def wantsReply : ReplyOn → Except Err DispatchResult → Bool
  | .always, _ => true
  | .success, .ok _ => true
  | .error, .error _ => true
  | _, _ => false

def Turn.wantsReply (t : Turn X) : Bool := Properties.wantsReply t.msg.replyOn t.result

/-- The store a submessage leaves: its writes on success, none of them otherwise. -/
def Turn.store (t : Turn X) : Store X :=
  match t.result with
  | .ok _ => t.after
  | .error _ => t.before

/-- The reply and the store it runs on are the ones for this submessage. -/
structure Answers (t : Turn X) (r : Reply × Store X) : Prop where
  id : r.1.id = t.msg.id
  payload : r.1.payload = t.msg.payload
  store : r.2 = t.store
  ok : ∀ res, t.result = .ok res → r.1.result.err = "" ∧ ∃ events, r.1.result.ok =
    some { events, data := res.data.head?.join, msgResponses := res.msgResponses.flatten }
  error : ∀ e, t.result = .error e → r.1.result.ok = none ∧ r.1.result.err = (redactError e).error

/-- The replies of a loop are those its submessages asked for, in their order and once each. -/
def Answered (loop : Nat) (l : List (Observation X)) : Prop :=
  List.Forall₂ Answers ((turns loop l).filter Turn.wantsReply) (replies loop l)

theorem Answered.append {loop : Nat} {l l' : List (Observation X)} (h : Answered loop l) (h' : Answered loop l') :
    Answered loop (l ++ l') := by
  unfold Answered
  rw [turns_append, List.filter_append, replies_append]
  exact List.rel_append h h'

/-- The number of the dispatch loop an observation belongs to. -/
def loopOf : Observation X → Option Nat
  | .dispatch loop => some loop
  | .submsg loop _ _ _ _ => some loop
  | .reply loop _ _ => some loop
  | .replied loop _ => some loop
  | _ => none

/-- A stretch of the record in which every loop is answered and no loop is older than `base`. -/
structure Stretch (base : Nat) (l : List (Observation X)) : Prop where
  answered : ∀ loop, Answered loop l
  fresh : ∀ o ∈ l, ∀ loop, loopOf o = some loop → base ≤ loop

theorem Stretch.nil (base : Nat) : Stretch (X := X) base [] := ⟨fun _ ↦ .nil, by simp⟩

theorem Stretch.append {base : Nat} {l l' : List (Observation X)} (h : Stretch base l) (h' : Stretch base l') :
    Stretch base (l ++ l') where
  answered loop := (h.answered loop).append (h'.answered loop)
  fresh o ho := by
    rcases List.mem_append.1 ho with ho | ho
    · exact h.fresh o ho
    · exact h'.fresh o ho

theorem Stretch.mono {base base' : Nat} (hb : base' ≤ base) {l : List (Observation X)} (h : Stretch base l) :
    Stretch base' l := ⟨h.answered, fun o ho loop hl ↦ hb.trans (h.fresh o ho loop hl)⟩

/-- A stretch says nothing about older loops. -/
theorem Stretch.of_lt {base loop : Nat} {l : List (Observation X)} (h : Stretch base l) (hlt : loop < base) :
    turns loop l = [] ∧ replies loop l = [] ∧ replyData loop l = [] := by
  have hne : ∀ o ∈ l, loopOf o ≠ some loop := fun o ho hl ↦ absurd (h.fresh o ho loop hl) (by omega)
  refine ⟨List.filterMap_eq_nil_iff.2 fun o ho ↦ ?_, List.filterMap_eq_nil_iff.2 fun o ho ↦ ?_,
    List.filterMap_eq_nil_iff.2 fun o ho ↦ ?_⟩ <;>
  · have := hne o ho
    cases o <;> simp_all [loopOf]

/-- The run has put a stretch on record. -/
def Traces (w w' : World X) : Prop := ∃ l, w'.trace = w.trace ++ l ∧ Stretch w.trace.length l

theorem Traces.of_eq {w w' : World X} (h : w'.trace = w.trace) : Traces w w' := ⟨[], by simp [h], .nil _⟩

theorem Traces.trans {w w₁ w₂ : World X} (h : Traces w w₁) (h' : Traces w₁ w₂) : Traces w w₂ := by
  obtain ⟨l, ht, hl⟩ := h
  obtain ⟨l', ht', hl'⟩ := h'
  refine ⟨l ++ l', by rw [ht', ht, List.append_assoc], hl.append (hl'.mono ?_)⟩
  rw [ht, List.length_append]
  omega

/-- What belongs to no loop. -/
theorem Traces.other {w : World X} {o : Observation X} (ha : ∀ loop, Answered loop [o]) (ho : loopOf o = none) :
    Traces w { w with trace := w.trace ++ [o] } := by
  refine ⟨[o], rfl, ha, fun o' ho' loop hl ↦ ?_⟩
  cases List.mem_singleton.1 ho'
  rw [ho] at hl
  cases hl

/-- Every loop is answered: the regime of the record. -/
def replyRegime (k : Keeper X) : Regime k where
  rel _ w _ w' := Traces w w'
  permits _ _ _ _ := True
  permits_select _ _ _ _ _ _ := trivial
  ports _ _ := True
  ports_own _ := trivial
  recorded _ h := h trivial
  keeps _ h := .of_eq h.trace
  trans h h' := h.trans h'
  weaken h := h
  act _ := .of_eq rfl
  torn h := .of_eq h.trace
  decision _ := .other (fun _ ↦ .nil) rfl
  called := .other (fun _ ↦ .nil) rfl
  addressed _ := .other (fun _ ↦ .nil) rfl
  acknowledged _ _ _ := .other (fun _ ↦ .nil) rfl
  enter _ h := h
  settle h := h
  events h := h
  remeter h _ := h
  revert h := h
  revertMeter h _ := h

section Loop

variable {d : MessageDispatcher X} {c : Ctx} {addr : AccAddress} {port : String} {loop : Nat}

/-- A submessage goes on record with its outcome right after its own run. -/
theorem dispatchCached_record (hd : DispatcherObeys (replyRegime k) d) (c : Ctx) (addr : AccAddress) (port : String)
    (loop : Nat) (msg : SubMsg) (w : World X) :
    let res := dispatchCached d c addr port loop msg w
    ∃ l, Stretch w.trace.length l ∧
      ((∃ t : Turn X, res.1 = .ok t.result ∧ t.msg = msg ∧ res.2.store = t.store ∧
          res.2.trace = w.trace ++ l ++ [.submsg loop t.msg t.before t.after t.result]) ∨
        (∀ a, res.1 ≠ .ok a) ∧ res.2.trace = w.trace ++ l) := by
  unfold dispatchCached
  rcases hr : dispatchSubmsg d c addr port msg { w with events := [] } with ⟨a | e | p | _, w'⟩ <;>
    obtain ⟨l, ht, hl⟩ : Traces w _ := (Regime.rel_dispatchSubmsg hd trivial msg hr).2 <;>
    refine ⟨l, hl, ?_⟩ <;> change w'.trace = w.trace ++ l at ht
  · exact .inl ⟨⟨msg, w.store, w'.store, .ok _⟩, rfl, rfl, rfl, by simp only [ht]⟩
  · exact .inl ⟨⟨msg, w.store, w'.store, .error e⟩, rfl, rfl, rfl, by simp only [ht]⟩
  · exact .inr ⟨nofun, ht⟩
  · exact .inr ⟨nofun, ht⟩

/-- A reply goes on record before it is made, and its data after it has returned. -/
theorem sendReply_record (hd : DispatcherObeys (replyRegime k) d) (c : Ctx) (addr : AccAddress) (loop : Nat) (r : Reply)
    (w : World X) :
    let res := sendReply d c addr loop r w
    ∃ l, Stretch w.trace.length l ∧
      ((∃ data, res.1 = .ok data ∧ res.2.trace = w.trace ++ [.reply loop r w.store] ++ l ++ [.replied loop data]) ∨
        (∀ a, res.1 ≠ .ok a) ∧ res.2.trace = w.trace ++ [.reply loop r w.store] ++ l) := by
  intro res
  have hres : res = (wrapErr (d.replyer c addr r) "reply" >>= fun data ↦ do
      observe (.replied loop data)
      pure data : M X (Option Bytes)) { w with trace := w.trace ++ [.reply loop r w.store] } := rfl
  rw [hres]
  generalize hw₁ : ({ w with trace := w.trace ++ [.reply loop r w.store] } : World X) = w₁
  have ht₁ : w₁.trace = w.trace ++ [.reply loop r w.store] := by rw [← hw₁]
  have hlen : w.trace.length ≤ w₁.trace.length := by rw [ht₁, List.length_append]; omega
  obtain ⟨l, ht, hl⟩ : Traces w₁ _ := Regime.clean_wrapErr (hd.replyer c addr r) "reply" w₁
  refine ⟨l, hl.mono hlen, ?_⟩
  rw [← ht₁]
  rcases hr : wrapErr (d.replyer c addr r) "reply" w₁ with ⟨data | e | p | _, w₂⟩ <;> rw [hr] at ht
  · rw [Program.bind_of_ok _ hr]
    exact .inl ⟨data, rfl, by simp only [← ht]; rfl⟩
  · rw [Program.bind_of_error _ hr]
    exact .inr ⟨nofun, ht⟩
  · rw [Program.bind_of_panic _ hr]
    exact .inr ⟨nofun, ht⟩
  · rw [Program.bind_of_timeout _ hr]
    exact .inr ⟨nofun, ht⟩

/-- What a part of a dispatch loop has put on record about its own submessages. -/
structure Logs (loop : Nat) (l : List (Observation X)) (msgs : List SubMsg) (data : List (Option Bytes)) : Prop where
  stretch : Stretch loop l
  msgs : (turns loop l).map Turn.msg = msgs
  data : replyData loop l = data

theorem Logs.append {l l' : List (Observation X)} {msgs msgs' : List SubMsg} {data data' : List (Option Bytes)}
    (h : Logs loop l msgs data) (h' : Logs loop l' msgs' data') : Logs loop (l ++ l') (msgs ++ msgs') (data ++ data') where
  stretch := h.stretch.append h'.stretch
  msgs := by rw [turns_append, List.map_append, h.msgs, h'.msgs]
  data := by rw [replyData_append, h.data, h'.data]

/-- What happens inside a submessage or a reply says nothing about the loop itself. -/
theorem Logs.inner {base : Nat} {l : List (Observation X)} (h : Stretch base l) (hlt : loop < base) :
    Logs loop l [] [] := by
  obtain ⟨ht, -, hd⟩ := h.of_lt hlt
  exact ⟨h.mono hlt.le, by rw [ht]; rfl, hd⟩

theorem Logs.no_replies {l : List (Observation X)} {data : List (Option Bytes)} (h : Logs loop l [] data) :
    replies loop l = [] := by
  have ha := h.stretch.answered loop
  unfold Answered at ha
  rw [List.map_eq_nil_iff.1 h.msgs] at ha
  exact List.forall₂_nil_left_iff.1 ha

theorem Stretch.single {o : Observation X} (hl : loopOf o = some loop) (ha : ∀ i, Answered i [o]) : Stretch loop [o] :=
  ⟨ha, fun o' ho i hi ↦ by
    cases List.mem_singleton.1 ho
    exact (Option.some.inj (hl.symm.trans hi)).le⟩

theorem Logs.replied (loop : Nat) (data : Option Bytes) : Logs (X := X) loop [.replied loop data] [] [data] :=
  ⟨.single rfl fun _ ↦ .nil, rfl, by simp [replyData]⟩

theorem Logs.dispatch (loop : Nat) : Logs (X := X) loop [.dispatch loop] [] [] :=
  ⟨.single rfl fun _ ↦ .nil, rfl, rfl⟩

theorem Logs.silent {t : Turn X} (ht : t.wantsReply = false) :
    Logs loop [.submsg loop t.msg t.before t.after t.result] [t.msg] [] := by
  refine ⟨.single rfl fun i ↦ ?_, by simp [turns], rfl⟩
  by_cases hi : loop = i
  · simp [Answered, turns, replies, hi, ht]
  · simp [Answered, turns, replies, hi]

theorem answers_makeReply (t : Turn X) : Answers t (makeReply t.msg t.result, t.store) where
  id := rfl
  payload := rfl
  store := rfl
  ok res hr := by
    rw [hr]
    exact ⟨rfl, _, rfl⟩
  error e he := by
    rw [he]
    exact ⟨rfl, rfl⟩

theorem Logs.asks {t : Turn X} (ht : t.wantsReply = true) :
    Logs loop [.submsg loop t.msg t.before t.after t.result, .reply loop (makeReply t.msg t.result) t.store]
      [t.msg] [] := by
  refine ⟨⟨fun i ↦ ?_, ?_⟩, by simp [turns], rfl⟩
  · by_cases hi : loop = i
    · simpa [Answered, turns, replies, hi, ht] using answers_makeReply t
    · simp [Answered, turns, replies, hi]
  · simp [loopOf]

/-- A run of a dispatch loop: how far it got, and its data if it got to the end. -/
def LoopRun (loop : Nat) (rsp : Option Bytes) (msgs : List SubMsg) (w : World X)
    (res : Outcome Err Panic (Option Bytes) × World X) : Prop :=
  ∃ l done data, res.2.trace = w.trace ++ l ∧ Logs loop l done data ∧ done <+: msgs ∧
    ∀ rspData, res.1 = .ok rspData → done = msgs ∧ (replies loop l).length = data.length ∧
      rspData = (data.reduceOption.getLast? <|> rsp)

theorem LoopRun.abort {rsp : Option Bytes} {msgs done : List SubMsg} {w : World X} {l : List (Observation X)}
    {data : List (Option Bytes)} {res : Outcome Err Panic (Option Bytes) × World X}
    (ht : res.2.trace = w.trace ++ l) (hl : Logs loop l done data) (hm : done <+: msgs)
    (hres : ∀ a, res.1 ≠ .ok a) : LoopRun loop rsp msgs w res :=
  ⟨l, done, data, ht, hl, hm, fun _ h ↦ absurd h (hres _)⟩

theorem LoopRun.turn {rsp : Option Bytes} {msg : SubMsg} {msgs : List SubMsg} {w w₁ : World X}
    {l : List (Observation X)} {data : List (Option Bytes)} {res : Outcome Err Panic (Option Bytes) × World X}
    (ht : w₁.trace = w.trace ++ l) (hl : Logs loop l [msg] data) (hc : (replies loop l).length = data.length)
    (hrest : LoopRun loop (data.reduceOption.getLast? <|> rsp) msgs w₁ res) : LoopRun loop rsp (msg :: msgs) w res := by
  obtain ⟨l', done, data', ht', hl', hdone, hok⟩ := hrest
  refine ⟨l ++ l', msg :: done, data ++ data', by rw [ht', ht, List.append_assoc], hl.append hl',
    List.cons_prefix_cons.2 ⟨rfl, hdone⟩, fun rspData hr ↦ ?_⟩
  obtain ⟨hdone, hlen, hdata⟩ := hok rspData hr
  refine ⟨by rw [hdone], by rw [replies_append, List.length_append, List.length_append, hc, hlen], ?_⟩
  rw [hdata, List.reduceOption_append, List.getLast?_append]
  simp only [Option.orElse_eq_orElse, Option.orElse_eq_or, Option.or_assoc]

theorem LoopRun.of_eq_nil {rsp : Option Bytes} {msgs : List SubMsg} {w : World X}
    {res : Outcome Err Panic (Option Bytes) × World X} (ht : res.2.trace = w.trace) (hres : ∀ a, res.1 ≠ .ok a) :
    LoopRun loop rsp msgs w res :=
  .abort (l := []) (by simpa using ht) ⟨.nil _, rfl, rfl⟩ List.nil_prefix hres

/-- The reply of a turn, and the rest of the loop after it. -/
theorem LoopRun.reply (hd : DispatcherObeys (replyRegime k) d) (rsp : Option Bytes) {msgs : List SubMsg}
    {w w₁ : World X} {l : List (Observation X)} {t : Turn X} (hl : Logs loop l [] [])
    (ht : w₁.trace = w.trace ++ l ++ [.submsg loop t.msg t.before t.after t.result]) (hstore : w₁.store = t.store)
    (hw : t.wantsReply = true) (hlt : loop < w.trace.length)
    (ih : ∀ rsp (v : World X), loop < v.trace.length →
      LoopRun loop rsp msgs v (dispatchLoop d c addr port loop rsp msgs v)) :
    LoopRun loop rsp (t.msg :: msgs) w ((sendReply d c addr loop (makeReply t.msg t.result) >>= fun data ↦
      dispatchLoop d c addr port loop (data <|> rsp) msgs : M X (Option Bytes)) w₁) := by
  obtain ⟨l', hl', hrun⟩ := sendReply_record hd c addr loop (makeReply t.msg t.result) w₁
  have hlt₁ : loop < w₁.trace.length := by
    rw [ht, List.length_append, List.length_append]
    omega
  have hlog := (hl.append (.asks hw)).append (Logs.inner hl' hlt₁)
  rcases hr : sendReply d c addr loop (makeReply t.msg t.result) w₁ with ⟨o, w₂⟩
  rw [hr, hstore] at hrun
  rcases hrun with ⟨data, rfl, ht₂⟩ | ⟨hno, ht₂⟩
  · have ht₂ : w₂.trace = w.trace ++ (l ++ [.submsg loop t.msg t.before t.after t.result,
        .reply loop (makeReply t.msg t.result) t.store] ++ l' ++ [.replied loop data]) := by
      rw [ht₂, ht]
      simp
    rw [Program.bind_of_ok _ hr]
    refine .turn ht₂ (hlog.append (.replied loop data)) ?_ ?_
    · rw [replies_append, replies_append, replies_append, hl.no_replies, (Logs.inner hl' hlt₁).no_replies]
      simp [replies]
    · have hlt₂ : loop < w₂.trace.length := by
        rw [ht₂, List.length_append]
        omega
      have := ih (data <|> rsp) w₂ hlt₂
      cases data <;> simpa using this
  · have ht₂ : w₂.trace = w.trace ++ (l ++ [.submsg loop t.msg t.before t.after t.result,
        .reply loop (makeReply t.msg t.result) t.store] ++ l') := by
      rw [ht₂, ht]
      simp
    refine .abort ?_ hlog (by simp) (Program.bind_of_not_ok _ hr hno).1
    rw [(Program.bind_of_not_ok _ hr hno).2]
    exact ht₂

/-- Every run of the loop dispatches the submessages in order and sends the replies they ask for. -/
theorem dispatchLoop_run (hd : DispatcherObeys (replyRegime k) d) (c : Ctx) (addr : AccAddress) (port : String)
    (rsp : Option Bytes) (msgs : List SubMsg) (w : World X) (hlt : loop < w.trace.length) :
    LoopRun loop rsp msgs w (dispatchLoop d c addr port loop rsp msgs w) := by
  induction msgs generalizing rsp w with
  | nil =>
    refine ⟨[], [], [], by simp [dispatchLoop], ⟨.nil _, rfl, rfl⟩, List.prefix_refl _, fun rspData h ↦ ?_⟩
    cases h
    exact ⟨rfl, rfl, rfl⟩
  | cons msg msgs ih =>
    rw [dispatchLoop]
    rcases hv : ReplyOn.isValid msg.replyOn with _ | _
    · exact .of_eq_nil rfl nofun
    rw [Program.require_true, Program.pure_bind]
    obtain ⟨l, hl, hrun⟩ := dispatchCached_record hd c addr port loop msg w
    have hinner := Logs.inner hl hlt
    rcases hr : dispatchCached d c addr port loop msg w with ⟨o, w₁⟩
    rw [hr] at hrun
    rcases hrun with ⟨t, rfl, rfl, hstore, ht⟩ | ⟨hno, ht⟩
    · rw [Program.bind_of_ok _ hr]
      -- a failure that aborts, and a turn without a reply
      have aborts : ∀ e, t.wantsReply = false →
          LoopRun loop rsp (t.msg :: msgs) w ((Program.fail e : M X (Option Bytes)) w₁) := fun e hw ↦
        .abort (ht.trans (List.append_assoc _ _ _)) (hinner.append (.silent hw)) (by simp) nofun
      have goesOn : t.wantsReply = false →
          LoopRun loop rsp (t.msg :: msgs) w (dispatchLoop d c addr port loop rsp msgs w₁) := fun hw ↦ by
        refine .turn (ht.trans (List.append_assoc _ _ _)) (hinner.append (.silent hw)) ?_ (ih _ _ ?_)
        · rw [replies_append, hinner.no_replies]
          rfl
        · rw [ht, List.length_append, List.length_append]
          omega
      have answers := fun hw ↦ LoopRun.reply hd rsp hinner ht hstore hw hlt ih
      rcases hres : t.result with e | a <;> cases hon : t.msg.replyOn <;>
        simp only [Turn.wantsReply, wantsReply, hres, hon] at aborts goesOn answers ⊢
      case error.always | error.error | ok.always | ok.success => exact answers trivial
      case error.success | error.never => exact aborts e trivial
      case ok.error | ok.never => exact goesOn trivial
      case error.other | ok.other =>
        rw [hon] at hv
        cases hv
    · refine .abort ?_ hinner List.nil_prefix (Program.bind_of_not_ok _ hr hno).1
      rw [(Program.bind_of_not_ok _ hr hno).2]
      exact ht

end Loop

theorem dispatcherObeys_messageDispatcher {h : ResponseHandler X} (hh : HandlerObeys (replyRegime k) h) :
    DispatcherObeys (replyRegime k) (messageDispatcher k h) :=
  ⟨fun _ _ _ msg hp ↦ Regime.obeys_messenger hh hp msg, fun _ addr r ↦ Regime.clean_reply hh addr r⟩

/-- A response handler dispatches in a loop of its own, and falls back on the contract's own data. -/
theorem handle_run {d : MessageDispatcher X} (hd : DispatcherObeys (replyRegime k) d) (c : Ctx) (addr : AccAddress)
    (port : String) (msgs : List SubMsg) (data : Option Bytes) (w : World X) :
    LoopRun w.trace.length data msgs w (handle d c addr port msgs data w) := by
  have hhandle : handle d c addr port msgs data w =
      (dispatchLoop d c addr port w.trace.length none msgs >>= fun rsp ↦ pure (rsp <|> data) : M X (Option Bytes))
        { w with trace := w.trace ++ [.dispatch w.trace.length] } := rfl
  rw [hhandle]
  generalize hw₁ : ({ w with trace := w.trace ++ [.dispatch w.trace.length] } : World X) = w₁
  have ht₁ : w₁.trace = w.trace ++ [.dispatch w.trace.length] := by rw [← hw₁]
  obtain ⟨l, done, ds, ht, hl, hdone, hok⟩ := dispatchLoop_run hd c addr port none msgs w₁
    (show w.trace.length < w₁.trace.length by rw [ht₁, List.length_append]; simp)
  refine ⟨[.dispatch w.trace.length] ++ l, done, ds, ?_, (Logs.dispatch _).append hl, hdone, fun rspData hr ↦ ?_⟩
  · rw [Program.snd_bind_pure, ht, ht₁, List.append_assoc]
  · rcases hrun : dispatchLoop d c addr port w.trace.length none msgs w₁ with ⟨o, w₂⟩
    obtain ⟨rsp, w₃, hrun', hrsp⟩ := Program.bind_eq_ok.1 (Prod.ext hr rfl)
    obtain ⟨hmsgs, hlen, hdata⟩ := hok rsp (by rw [hrun'])
    refine ⟨hmsgs, hlen, ?_⟩
    cases hrsp
    rw [hdata]
    simp

/-- The response handler keeps every loop answered, at every depth. -/
theorem handlerObeys_replyRegime (n : Nat) : HandlerObeys (replyRegime k) (responseHandler k n) := by
  induction n with
  | zero => exact fun _ _ _ _ _ _ w ↦ .of_eq rfl
  | succ n ih =>
    intro c addr port msgs data _ w
    obtain ⟨l, done, ds, ht, hl, -⟩ := handle_run (dispatcherObeys_messageDispatcher ih) c addr port msgs data w
    exact ⟨l, ht, hl.stretch⟩

/-- The contract has answered a call with the response. -/
def Responds (k : Keeper X) (addr : AccAddress) (call : ContractCall) (response : Response) : Prop :=
  ∃ entry c checksum env w r w', callContract k entry c addr checksum
      (fun code gas ↦ k.wasmVM.call code env call gas) w = (.ok (.ok (some r)), w') ∧ r.ok = some response

theorem contractResult_eq_ok {ρ : Type} {e e' : Err} {res : Except String (Option (ContractResult ρ))} {ok : Option ρ}
    (h : contractResult e e' res = .ok ok) : ∃ r, res = .ok (some r) ∧ r.ok = ok := by
  unfold contractResult at h
  split at h
  · cases h
  · cases h
  · next r =>
    split at h
    · cases h
    · cases h
      exact ⟨r, rfl, rfl⟩

theorem deref_eq_ok {ρ : Type} {p : Option ρ} {a : ρ} {w w' : World X} (h : deref p w = (.ok a, w')) : p = some a := by
  cases p with
  | none => cases h
  | some b =>
    cases h
    rfl

/-- A reply that returns has handled the contract's answer, and its data is what came of that. -/
theorem reply_eq_ok {h : ResponseHandler X} {c : Ctx} {addr : AccAddress} {r : Reply} {w w' : World X}
    {data : Option Bytes} (hr : reply k h c addr r w = (.ok data, w')) :
    ∃ response c' port w₁, Responds k addr (.reply r) response ∧
      h c' addr port response.messages response.data w₁ = (.ok data, w') := by
  obtain ⟨⟨info, code⟩, _, -, hr⟩ := Program.bind_eq_ok.1 hr
  obtain ⟨_, _, -, hr⟩ := Program.bind_eq_ok.1 hr
  obtain ⟨_, _, -, hr⟩ := Program.bind_eq_ok.1 hr
  obtain ⟨env, _, -, hr⟩ := Program.bind_eq_ok.1 hr
  obtain ⟨res, _, hcall, hr⟩ := Program.bind_eq_ok.1 hr
  obtain ⟨ok, _, hok, hr⟩ := Program.bind_eq_ok.1 hr
  obtain ⟨_, _, -, hr⟩ := Program.bind_eq_ok.1 hr
  obtain ⟨response, _, hderef, hhandle⟩ := Program.bind_eq_ok.1 hr
  obtain ⟨cres, rfl, hcres⟩ := contractResult_eq_ok (Program.lift_eq_ok.1 hok).1
  have hresponds : Responds k addr (.reply r) response :=
    ⟨_, _, _, _, _, _, _, hcall, hcres.trans (deref_eq_ok hderef)⟩
  -- what is left is the handling of the response
  obtain ⟨_, _, -, hr⟩ := Program.bind_eq_ok.1 (wrapErr_eq_ok.1 hhandle)
  obtain ⟨_, _, -, hr⟩ := Program.bind_eq_ok.1 hr
  obtain ⟨_, _, -, hr⟩ := Program.bind_eq_ok.1 hr
  obtain ⟨_, w₁, -, hr⟩ := Program.bind_eq_ok.1 hr
  exact ⟨response, _, _, w₁, hresponds, hr⟩

/-- The replies of a response's submessages, and the data that comes of them. In every loop of the run, at
every depth, the replies are those the submessages ask for; the submessages of the response itself are taken in
order, and when all are through, the data is that of the last reply that had any, or the contract's own. -/
theorem responseHandler_replies (n : Nat) (c : Ctx) (addr : AccAddress) (port : String) (msgs : List SubMsg)
    (data : Option Bytes) (w : World X) :
    let res := responseHandler k (n + 1) c addr port msgs data w
    let loop := w.trace.length
    ∃ l, res.2.trace = w.trace ++ l ∧ (∀ i, Answered i l) ∧ (turns loop l).map Turn.msg <+: msgs ∧
      (∀ rsp, res.1 = .ok rsp → (turns loop l).map Turn.msg = msgs ∧
        (replyData loop l).length = (replies loop l).length ∧
          rsp = ((replyData loop l).reduceOption.getLast? <|> data)) ∧
      ∀ r v rsp v', reply k (responseHandler k n) c addr r v = (.ok rsp, v') → ∃ response c' port' v₁,
        Responds k addr (.reply r) response ∧
          responseHandler k n c' addr port' response.messages response.data v₁ = (.ok rsp, v') := by
  intro res loop
  obtain ⟨l, done, ds, ht, hl, hdone, hok⟩ := handle_run
    (dispatcherObeys_messageDispatcher (handlerObeys_replyRegime (k := k) n)) c addr port msgs data w
  refine ⟨l, ht, hl.stretch.answered, by rwa [hl.msgs], fun rsp hr ↦ ?_, fun r v rsp v' hr ↦ reply_eq_ok hr⟩
  obtain ⟨hmsgs, hlen, hdata⟩ := hok rsp hr
  exact ⟨by rw [hl.msgs, hmsgs], by rw [hl.data, hlen], by rw [hl.data, hdata]⟩

end Cosmwasgo.Properties
