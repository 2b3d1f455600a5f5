import Cosmwasgo.Runs.Tree

namespace Cosmwasgo.Runs

open Cosmwasgo.Lib Cosmwasgo.Types Cosmwasgo.State Cosmwasgo.Keeper

variable {X α : Type}

theorem consumeGas_none {w : World X} {amount : Gas} {desc : String} {m : GasMeter}
    (h : w.meter.consume amount desc = (none, m)) :
    (consumeGas amount desc : M X Unit) w = (.ok (), { w with meter := m }) := by
  simp only [consumeGas, h]

theorem consumeGas_some {w : World X} {amount : Gas} {desc : String} {m : GasMeter} {p : Panic}
    (h : w.meter.consume amount desc = (some p, m)) :
    (consumeGas amount desc : M X Unit) w = (.panic p, { w with meter := m }) := by
  simp only [consumeGas, h]

/-- Only the meter changes, and an outcome that is `ok` was so before. -/
def Recharges (base : GasMeter) (r : Outcome Err Panic α) (w : World X) (res : Outcome Err Panic α × World X) :
    Prop :=
  ∃ m, res.2 = { w with meter := m } ∧ base.Spends res.1.exit m ∧ ∀ a, res.1 = .ok a → r = .ok a

theorem chargeParent_recharges (r : Outcome Err Panic α) (spent : Gas) (w : World X) :
    Recharges w.meter r w (chargeParent r spent w) := by
  have hs := w.meter.consume_spends spent "From limited Sub-Message"
  have charge : ∀ r : Outcome Err Panic α, r.exit = .ok ∨ r.exit = .error → Recharges w.meter r w
      ((consumeGas spent "From limited Sub-Message" >>= fun _ ↦ Program.finish r : M X α) w) := by
    intro r hr
    rcases hc : w.meter.consume spent "From limited Sub-Message" with ⟨_ | p, m⟩ <;> rw [hc] at hs
    · rw [Program.bind_of_ok _ (consumeGas_none hc)]
      refine ⟨m, rfl, ?_, fun a ha ↦ ha⟩
      rcases hr with hr | hr
      · rw [Program.finish_apply, hr]; exact hs
      · rw [Program.finish_apply, hr]; exact hs.error
    · rw [Program.bind_of_panic _ (consumeGas_some hc)]
      exact ⟨m, rfl, hs, fun a ha ↦ by cases ha⟩
  cases r with
  | ok a => exact charge _ (.inl rfl)
  | error e => exact charge _ (.inr rfl)
  | panic p => exact ⟨w.meter, rfl, .refl _ _, fun a ha ↦ ha⟩
  | timeout => exact ⟨w.meter, rfl, .refl _ _, fun a ha ↦ ha⟩

theorem recoverOutOfGas_recharges {base : GasMeter} {r : Outcome Err Panic α} {w w₁ : World X} {m : M X α}
    (hm : Recharges base r w₁ (m w)) (gasLimit : Gas) : Recharges base r w₁ (recoverOutOfGas gasLimit m w) := by
  obtain ⟨g, hw, hs, hok⟩ := hm
  unfold recoverOutOfGas Program.attempt
  rcases hr : m w with ⟨a | e | p | _, w'⟩ <;> rw [hr] at hw hs hok
  · exact ⟨g, hw, hs, hok⟩
  · exact ⟨g, hw, hs, hok⟩
  · obtain rfl : w' = { w₁ with meter := g } := hw
    dsimp only
    split
    · have hs' := g.consume_spends gasLimit "Sub-Message OutOfGas panic"
      rcases hc : g.consume gasLimit "Sub-Message OutOfGas panic" with ⟨_ | p', g'⟩ <;> rw [hc] at hs'
      · rw [Program.bind_of_ok _ (consumeGas_none hc)]
        refine ⟨g', rfl, ⟨hs'.limit.trans hs.limit, hs'.infinite.trans hs.infinite, (hs.panic_trans hs').grows, ?_⟩,
          fun a ha ↦ by cases ha⟩
        intro _ hi _
        rw [← hs.limit]
        exact GasMeter.consumed_le_of_consume hc (hs.infinite.trans hi)
      · rw [Program.bind_of_panic _ (consumeGas_some hc)]
        exact ⟨g', rfl, hs.panic_trans hs', fun a ha ↦ by cases ha⟩
    · exact ⟨g, rfl, hs, hok⟩
  · exact ⟨g, hw, hs, hok⟩

/-- A limited message leaves what it did to everything but the meter, and charges the parent's. -/
theorem dispatchMsgWithGasLimit_recharges {d : MessageDispatcher X} {c : Ctx} {addr : AccAddress} {port : String}
    {msg : CosmosMsg} {gasLimit : Gas} {w w₁ : World X} {r : Outcome Err Panic DispatchResult}
    (h : d.messenger c addr port msg { w with meter := .new gasLimit } = (r, w₁)) :
    Recharges w.meter r w₁ (dispatchMsgWithGasLimit d c addr port msg gasLimit w) := by
  refine recoverOutOfGas_recharges ?_ gasLimit
  rw [withGasMeter_apply h]
  exact chargeParent_recharges r _ _

variable {k : Keeper X} {R : Regime k} {d : MessageDispatcher X} {c : Ctx} {addr : AccAddress} {port : String}

/-- What the dispatcher puts on record. -/
def IsDispatch : Observation X → Prop
  | .dispatch _ | .submsg _ _ _ _ _ | .reply _ _ _ | .replied _ _ => True
  | _ => False

/-- The regime says nothing about what the dispatcher puts on record. -/
def Regime.Observes (R : Regime k) : Prop :=
  ∀ {s w o}, IsDispatch o → R.rel s w .ok { w with trace := w.trace ++ [o] }

/-- Both parts of a dispatcher obey the regime. -/
structure DispatcherObeys (R : Regime k) (d : MessageDispatcher X) : Prop where
  messenger : ∀ c addr port msg, R.ports addr port → (R.discipline (within c)).Obeys (d.messenger c addr port msg)
  replyer : ∀ c addr r, (R.clean (within c)).Obeys (d.replyer c addr r)

namespace Regime

/-- What a submessage did is kept or undone as a whole. -/
theorem rel_dispatchSubmsg (hd : DispatcherObeys R d) (hp : R.ports addr port) (msg : SubMsg)
    {w w' : World X} {r : Outcome Err Panic DispatchResult}
    (h : dispatchSubmsg d c addr port msg { w with events := [] } = (r, w')) :
    (r.exit = .ok → R.rel (within c) w .ok { w' with events := w.events }) ∧
      R.rel (within c) w (if r.exit = .error then .ok else r.exit) { w' with store := w.store, events := w.events } := by
  unfold dispatchSubmsg at h
  rcases hg : limitGas w.meter msg with _ | g
  · simp only [hg] at h
    have hm := hd.messenger c addr port msg.msg hp { w with events := [] }
    rw [h] at hm
    refine ⟨fun hx ↦ ?_, R.events (R.revert hm)⟩
    rw [show (r, w').1.exit = .ok from hx] at hm
    exact R.events hm
  · simp only [hg] at h
    rcases hr : d.messenger c addr port msg.msg { w with events := [], meter := .new g } with ⟨r₁, w₁⟩
    obtain ⟨m, hw, hs, hok⟩ := dispatchMsgWithGasLimit_recharges (w := { w with events := [] }) hr
    have hm := hd.messenger c addr port msg.msg hp { w with events := [], meter := .new g }
    rw [hr] at hm
    rw [h] at hw hs hok
    obtain rfl : w' = { w₁ with meter := m } := hw
    refine ⟨fun hx ↦ ?_, ?_⟩
    · obtain ⟨a, rfl⟩ : ∃ a, r = .ok a := by
        cases r <;> simp at hx
        exact ⟨_, rfl⟩
      rw [hok a rfl] at hm
      exact R.events (R.remeter (w := { w with events := [] }) hm hs)
    · refine R.events (R.revertMeter (w := { w with events := [] }) hm ?_)
      split
      · next hx =>
        rw [show (r, ({ w₁ with meter := m } : World X)).1.exit = .error from hx] at hs
        exact hs.ok
      · exact hs

variable (ho : R.Observes)

include ho

theorem clean_dispatchCached (hd : DispatcherObeys R d) (hp : R.ports addr port) (loop : Nat)
    (msg : SubMsg) : (R.clean (within c)).Obeys (dispatchCached d c addr port loop msg) := by
  intro w
  unfold dispatchCached
  rcases hr : dispatchSubmsg d c addr port msg { w with events := [] } with ⟨a | e | p | _, w'⟩
  · have h := (rel_dispatchSubmsg hd hp msg hr).1 rfl
    exact R.events (R.trans h (ho (o := .submsg loop msg w.store w'.store (.ok _)) trivial))
  · have h := (rel_dispatchSubmsg hd hp msg hr).2
    exact R.trans h (ho trivial)
  · exact (rel_dispatchSubmsg hd hp msg hr).2
  · exact (rel_dispatchSubmsg hd hp msg hr).2

theorem clean_sendReply (hd : DispatcherObeys R d) (addr : AccAddress) (loop : Nat) (r : Reply) :
    (R.clean (within c)).Obeys (sendReply d c addr loop r) := by
  refine Discipline.Obeys.bind (.read _) fun store ↦ ?_
  refine Discipline.Obeys.bind (fun w ↦ ho trivial) fun _ ↦ ?_
  refine (clean_wrapErr (hd.replyer c addr r) _).bind fun data ↦ ?_
  exact Discipline.Obeys.bind (fun w ↦ ho trivial) fun _ ↦ .pure _

theorem clean_dispatchLoop (hd : DispatcherObeys R d) (hp : R.ports addr port) (loop : Nat)
    (rsp : Option Bytes) (msgs : List SubMsg) : (R.clean (within c)).Obeys (dispatchLoop d c addr port loop rsp msgs) := by
  induction msgs generalizing rsp with
  | nil => exact .pure _
  | cons msg msgs ih =>
    refine (Local.require _ _).clean.bind fun _ ↦ (clean_dispatchCached ho hd hp loop msg).bind fun result ↦ ?_
    split
    · exact .fail _
    · exact .fail _
    · exact ih rsp
    · exact ih rsp
    · exact (clean_sendReply ho hd addr loop _).bind fun data ↦ ih _

theorem handlerObeys_handle (hd : DispatcherObeys R d) : HandlerObeys R (handle d) := by
  intro c addr port msgs data hp
  refine Discipline.Obeys.bind ?_ fun rsp ↦ .pure _
  refine Discipline.Obeys.bind (.read _) fun loop ↦ ?_
  exact Discipline.Obeys.bind (fun w ↦ ho trivial) fun _ ↦ clean_dispatchLoop ho hd hp loop none msgs

/-- The keeper's response handler obeys the regime at every depth. -/
theorem handlerObeys_responseHandler (n : Nat) : HandlerObeys R (responseHandler k n) := by
  induction n with
  | zero => exact fun c addr port msgs data hp ↦ .expire
  | succ n ih =>
    exact handlerObeys_handle ho ⟨fun c addr port msg hp ↦ obeys_messenger ih hp msg,
      fun c addr r ↦ clean_reply ih addr r⟩

end Regime

end Cosmwasgo.Runs
