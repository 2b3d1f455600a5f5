import Cosmwasgo.Properties.Charges
import Cosmwasgo.Properties.Gas
import Cosmwasgo.Properties.Replies

namespace Cosmwasgo.Properties

open Cosmwasgo.Lib Cosmwasgo.Types Cosmwasgo.State Cosmwasgo.Keeper Cosmwasgo.Runs

variable {X : Type} {k : Keeper X}

/-- A reply that is made, and the parent's meter before and after the dispatch it is about. -/
structure Report where
  reply : Reply
  before : GasMeter
  after : GasMeter

/-- The reply says by how much the dispatch increased the parent's meter. -/
def Report.Exact (r : Report) : Prop := r.before.consumed.toNat + r.reply.gasUsed.toNat = r.after.consumed.toNat

instance (r : Report) : Decidable r.Exact := inferInstanceAs (Decidable (_ = _))

section Loop

variable (d : MessageDispatcher X) (c : Ctx) (addr : AccAddress) (port : String) (loop : Nat)

/-- The replies of a dispatch loop with the meter's readings, in the order of the run. -/
def reports : List SubMsg → World X → List Report
  | [], _ => []
  | msg :: msgs, w =>
    if ReplyOn.isValid msg.replyOn then
      match dispatchCached d c addr port loop msg w with
      | (.ok result, w₁) =>
        if wantsReply msg.replyOn result then
          ⟨makeReply msg result, w.meter, w₁.meter⟩ ::
            match sendReply d c addr loop (makeReply msg result) w₁ with
            | (.ok _, w₂) => reports msgs w₂
            | _ => []
        else
          match result with
          | .ok _ => reports msgs w₁
          | .error _ => []
      | _ => []
    else []

variable {d c addr port loop}

/-- One turn of the loop, once its submessage has run. -/
theorem dispatchLoop_turn {rsp : Option Bytes} {msg : SubMsg} {msgs : List SubMsg} {w w₁ : World X}
    {result : Except Err DispatchResult} (hv : ReplyOn.isValid msg.replyOn = true) :
    dispatchCached d c addr port loop msg w = (.ok result, w₁) → dispatchLoop d c addr port loop rsp (msg :: msgs) w =
      if wantsReply msg.replyOn result then
        (sendReply d c addr loop (makeReply msg result) >>= fun data ↦
          dispatchLoop d c addr port loop (data <|> rsp) msgs : M X (Option Bytes)) w₁
      else
        match result with
        | .ok _ => dispatchLoop d c addr port loop rsp msgs w₁
        | .error e => (.error e, w₁) := by
  intro hr
  rw [dispatchLoop, hv, Program.require_true, Program.pure_bind, Program.bind_of_ok _ hr]
  cases hon : msg.replyOn <;> rcases result with e | a
  case other.error | other.ok =>
    rw [hon] at hv
    cases hv
  all_goals rfl

variable (c addr port) in
/-- The replies on record are the reported ones. -/
theorem replies_dispatchLoop (hd : DispatcherObeys (replyRegime k) d) (rsp : Option Bytes) (msgs : List SubMsg)
    (w : World X) (hlt : loop < w.trace.length) :
    ∃ l, (dispatchLoop d c addr port loop rsp msgs w).2.trace = w.trace ++ l ∧
      (replies loop l).map Prod.fst = (reports d c addr port loop msgs w).map Report.reply := by
  induction msgs generalizing rsp w with
  | nil => exact ⟨[], by simp [dispatchLoop], rfl⟩
  | cons msg msgs ih =>
    rcases hv : ReplyOn.isValid msg.replyOn with _ | _
    · refine ⟨[], ?_, by simp [reports, hv, replies]⟩
      rw [dispatchLoop, hv, List.append_nil]
      rfl
    obtain ⟨l, hl, hrun⟩ := dispatchCached_record hd c addr port loop msg w
    have hinner := (Logs.inner hl hlt).no_replies
    rcases hr : dispatchCached d c addr port loop msg w with ⟨o, w₁⟩
    rw [hr] at hrun
    rcases hrun with ⟨t, rfl, rfl, hstore, ht⟩ | ⟨hno, ht⟩
    · change w₁.trace = _ at ht
      rw [dispatchLoop_turn hv hr, reports, if_pos hv, hr]
      have hlt₁ : loop < w₁.trace.length := by
        rw [ht, List.length_append, List.length_append]
        omega
      by_cases hwants : wantsReply t.msg.replyOn t.result = true
      · simp only [if_pos hwants]
        obtain ⟨l', hl', hsent⟩ := sendReply_record hd c addr loop (makeReply t.msg t.result) w₁
        have hinner' := (Logs.inner hl' hlt₁).no_replies
        rcases hr₂ : sendReply d c addr loop (makeReply t.msg t.result) w₁ with ⟨o, w₂⟩
        rw [hr₂] at hsent
        rcases hsent with ⟨data, rfl, ht₂⟩ | ⟨hno, ht₂⟩
        · change w₂.trace = _ at ht₂
          have hlt₂ : loop < w₂.trace.length := by
            simp only [ht₂, List.length_append]
            omega
          obtain ⟨l'', ht'', hl''⟩ := ih (data <|> rsp) w₂ hlt₂
          rw [Program.bind_of_ok _ hr₂]
          refine ⟨_, by rw [ht'', ht₂, ht]; simp only [List.append_assoc]; rfl, ?_⟩
          simp only [replies_append, List.map_append, hinner, hinner', hl'']
          simp [replies]
        · rw [(Program.bind_of_not_ok _ hr₂ hno).2]
          refine ⟨_, by rw [ht₂, ht]; simp only [List.append_assoc]; rfl, ?_⟩
          simp only [replies_append, List.map_append, hinner, hinner']
          cases o with
          | ok a => exact absurd rfl (hno a)
          | _ => simp [replies]
      · simp only [if_neg hwants]
        rcases hres : t.result with e | a
        · refine ⟨_, by simp only [ht, List.append_assoc]; rfl, ?_⟩
          rw [replies_append, hinner]
          rfl
        · obtain ⟨l', ht', hl'⟩ := ih rsp w₁ hlt₁
          refine ⟨_, by rw [ht', ht]; simp only [List.append_assoc]; rfl, ?_⟩
          simp only [replies_append, List.map_append, hinner, hl']
          rfl
    · refine ⟨l, ?_, ?_⟩
      · rw [dispatchLoop, hv, Program.require_true, Program.pure_bind, (Program.bind_of_not_ok _ hr hno).2]
        exact ht
      · rw [hinner, reports, if_pos hv, hr]
        cases o with
        | ok a => exact absurd rfl (hno a)
        | _ => rfl

/-- No reply has its gas filled in. -/
theorem gasUsed_of_mem_reports {msgs : List SubMsg} {w : World X} {r : Report}
    (hr : r ∈ reports d c addr port loop msgs w) : r.reply.gasUsed = 0 := by
  induction msgs generalizing w with
  | nil => cases hr
  | cons msg msgs ih =>
    rw [reports] at hr
    split at hr
    · split at hr
      · split at hr
        · rcases List.mem_cons.1 hr with rfl | hr
          · rfl
          · split at hr
            · exact ih hr
            · cases hr
        · split at hr
          · exact ih hr
          · cases hr
      · cases hr
    · cases hr

end Loop

/-- The world in which the loop of `DispatchSubmessages` starts. -/
def loopStart (w : World X) : World X := { w with trace := w.trace ++ [.dispatch w.trace.length] }

/-- The replies of a call of `DispatchSubmessages`. -/
def callReports (k : Keeper X) (n : Nat) (c : Ctx) (addr : AccAddress) (port : String) (msgs : List SubMsg)
    (w : World X) : List Report :=
  reports (messageDispatcher k (responseHandler k n)) c addr port w.trace.length msgs (loopStart w)

theorem dispatchSubmessages_apply (d : MessageDispatcher X) (c : Ctx) (addr : AccAddress) (port : String)
    (msgs : List SubMsg) (w : World X) : dispatchSubmessages d c addr port msgs w =
      dispatchLoop d c addr port w.trace.length none msgs (loopStart w) := rfl

/-- At every depth and with every outcome, the replies say what their submessages cost exactly when these cost nothing;
what they say in total is never more than the meter advanced. -/
theorem replies_report_gas_iff (n : Nat) (c : Ctx) (addr : AccAddress) (port : String) (msgs : List SubMsg)
    (w : World X) :
    let res := dispatchSubmessages (messageDispatcher k (responseHandler k n)) c addr port msgs w
    let made := callReports k n c addr port msgs w
    (∃ l, res.2.trace = w.trace ++ l ∧ (replies w.trace.length l).map Prod.fst = made.map Report.reply) ∧
    ((∀ r ∈ made, r.Exact) ↔ ∀ r ∈ made, r.after.consumed = r.before.consumed) ∧
    (w.meter.infinite = false →
      w.meter.consumed.toNat + (made.map fun r ↦ r.reply.gasUsed.toNat).sum ≤ res.2.meter.consumed.toNat) := by
  intro res made
  have hres : res = dispatchLoop (messageDispatcher k (responseHandler k n)) c addr port w.trace.length none msgs
    (loopStart w) := dispatchSubmessages_apply _ _ _ _ _ _
  have hzero : ∀ r ∈ made, r.reply.gasUsed = 0 := fun r hr ↦ gasUsed_of_mem_reports hr
  refine ⟨?_, forall₂_congr fun r hr ↦ ?_, fun hfin ↦ ?_⟩
  · have hd := dispatcherObeys_messageDispatcher (handlerObeys_replyRegime (k := k) n)
    obtain ⟨l, ht, hl⟩ := replies_dispatchLoop c addr port hd none msgs (loopStart w)
      (show w.trace.length < (loopStart w).trace.length by simp [loopStart])
    refine ⟨.dispatch w.trace.length :: l, ?_, ?_⟩
    · rw [hres, ht]
      simp [loopStart]
    · exact hl
  · rw [Report.Exact, hzero r hr, UInt64.toNat_zero, Nat.add_zero, eq_comm, UInt64.toNat_inj]
  · have hsum : (made.map fun r ↦ r.reply.gasUsed.toNat).sum = 0 := by
      refine List.sum_eq_zero fun g hg ↦ ?_
      obtain ⟨r, hr, rfl⟩ := List.mem_map.1 hg
      rw [hzero r hr]
      rfl
    have hh := Regime.handlerObeys_responseHandler (gasRegime_observes (k := k)) n
    have hd : DispatcherObeys (gasRegime k) (messageDispatcher k (responseHandler k n)) :=
      ⟨fun _ _ _ msg hp ↦ Regime.obeys_messenger hh hp msg, fun _ addr r ↦ Regime.clean_reply hh addr r⟩
    have hspent : ((gasRegime k).clean (within c)).Obeys
        (dispatchLoop (messageDispatcher k (responseHandler k n)) c addr port w.trace.length none msgs) :=
      Regime.clean_dispatchLoop gasRegime_observes hd trivial _ _ _
    rw [hsum, hres]
    exact (hspent (loopStart w)).grows hfin

section Devnet

/-- The contract calls itself and wants to hear of it. -/
def selfCall : SubMsg :=
  { id := 1, msg := { wasm := some (.execute (plainBech32.string contractOne) (stringToBytes "\x7b\x7d") []) }
    replyOn := .always }

theorem replies_report_gas_selfCall :
    let w := chargeWorld defaultGasRegisterConfig
    w.meter.consumed.toNat + ((callReports (chargenet defaultGasRegisterConfig) 5 genesisCtx contractOne "" [selfCall]
        w).map fun r ↦ r.reply.gasUsed.toNat).sum ≤
      (dispatchSubmessages (messageDispatcher (chargenet defaultGasRegisterConfig)
        (responseHandler (chargenet defaultGasRegisterConfig) 5)) genesisCtx contractOne "" [selfCall] w).2.meter.consumed.toNat :=
  (replies_report_gas_iff 5 genesisCtx contractOne "" [selfCall] (chargeWorld defaultGasRegisterConfig)).2.2 rfl

/-- The contract is told that a call for which more than sixty thousand units were charged cost nothing. -/
theorem selfCall_reported_free :
    let made := callReports (chargenet defaultGasRegisterConfig) 5 genesisCtx contractOne "" [selfCall]
      (chargeWorld defaultGasRegisterConfig)
    made.map (fun r ↦ (r.reply.id, r.reply.gasUsed, r.before.consumed, r.after.consumed)) = [(1, 0, 0, 63002)] ∧
      ¬ ∀ r ∈ made, r.Exact := by
  refine ⟨by decide +kernel, by decide +kernel⟩

end Devnet

end Cosmwasgo.Properties
