import Cosmwasgo.Runs.Dispatch
import Cosmwasgo.State.Devnet

namespace Cosmwasgo.Properties

open Cosmwasgo.Lib Cosmwasgo.Types Cosmwasgo.State Cosmwasgo.Keeper Cosmwasgo.Runs

variable {X : Type} {k : Keeper X}

/-- Gas is paid for: the regime of the meters. -/
def gasRegime (k : Keeper X) : Regime k where
  rel _ w x w' := w.meter.Spends x w'.meter
  permits _ _ _ _ := True
  permits_select _ _ _ _ _ _ := trivial
  ports _ _ := True
  ports_own _ := trivial
  recorded _ h := h trivial
  keeps _ h := h.meter
  trans h h' := h.trans h'
  weaken h := h.error
  act _ := .refl _ _
  torn h := h.meter
  decision _ := .refl _ _
  called := .refl _ _
  addressed _ := .refl _ _
  acknowledged _ _ _ := .refl _ _
  enter _ h := h
  settle h := h
  events h := h
  remeter _ h := h
  revert {s w x w'} h := by
    split
    · next hx =>
      subst hx
      exact h.ok
    · exact h
  revertMeter _ h := h

theorem gasRegime_observes : (gasRegime k).Observes := fun _ ↦ .refl _ _

/-- At every depth a message spends at most what its meter allows, unless it panics. -/
theorem messenger_spends (n : Nat) (c : Ctx) (addr : AccAddress) (port : String) (msg : CosmosMsg) (w : World X) :
    w.meter.Spends (messenger k (responseHandler k n) c addr port msg w).1.exit
      (messenger k (responseHandler k n) c addr port msg w).2.meter :=
  Regime.obeys_messenger (Regime.handlerObeys_responseHandler gasRegime_observes n) trivial msg w

/-- A meter that a charge does not exhaust. -/
theorem consume_of_lt_gasRemaining {m : GasMeter} {g amount : Gas} (desc : String)
    (hm : m.infinite = false → m.consumed.toNat ≤ m.limit.toNat) (hg : g < gasRemaining m)
    (ha : amount.toNat ≤ g.toNat) : ∃ m', m.consume amount desc = (none, m') ∧
      m'.consumed.toNat = m.consumed.toNat + amount.toNat := by
  have hc := m.consumed.toNat_lt
  have hadd : m.consumed.toNat + amount.toNat < 2 ^ 64 →
      (m.consumed + amount).toNat = m.consumed.toNat + amount.toNat := by
    intro h
    rw [UInt64.toNat_add]
    omega
  rw [UInt64.lt_iff_toNat_lt, gasRemaining, UInt64.toNat_sub] at hg
  rcases hi : m.infinite with _ | _
  · rw [hi] at hg
    have hl := m.limit.toNat_lt
    have hle := hm hi
    simp only [Bool.false_eq_true, if_false] at hg
    have hfit : m.consumed.toNat + amount.toNat ≤ m.limit.toNat := by omega
    exact ⟨_, GasMeter.consume_fits hi desc hfit, hadd (by omega)⟩
  · rw [hi] at hg
    have hmax : maxUint64.toNat = 2 ^ 64 - 1 := by decide
    simp only [if_true, hmax] at hg
    exact ⟨_, GasMeter.consume_infinite hi amount desc, hadd (by omega)⟩

/-- What dispatching under a limit of its own does to the parent's meter and to the outcome. -/
structure LimitedTo (g : Gas) (w : World X) (inner res : Outcome Err Panic DispatchResult × World X) : Prop where
  grows : w.meter.consumed.toNat ≤ res.2.meter.consumed.toNat
  bounded : res.2.meter.consumed.toNat ≤ w.meter.consumed.toNat + g.toNat
  panics : ∀ p, res.1 = .panic p → inner.1 = .panic p ∧ p.isOutOfGas = false
  recovered : ∀ p, inner.1 = .panic p → p.isOutOfGas = true →
    res.1 = .error (.wrap errOutOfGas "SubMsg hit gas limit") ∧
      res.2.meter.consumed.toNat = w.meter.consumed.toNat + g.toNat
  reraised : ∀ p, inner.1 = .panic p → p.isOutOfGas = false → res.1 = .panic p

theorem limitGas_of_lt {m : GasMeter} {msg : SubMsg} {g : Gas} (hmsg : msg.gasLimit = some g)
    (hg : g < gasRemaining m) : limitGas m msg = some g := by
  rw [limitGas, hmsg, Option.filter_some, if_pos (by simpa using hg)]

/-- When the charge for what the message spent goes through, the outcome stays. -/
theorem chargeParent_of_fits {r : Outcome Err Panic DispatchResult} (hr : r.exit = .ok ∨ r.exit = .error)
    {w : World X} {spent : Gas} {m : GasMeter}
    (hc : w.meter.consume spent "From limited Sub-Message" = (none, m)) :
    chargeParent r spent w = (r, { w with meter := m }) := by
  cases r with
  | ok a => exact Program.bind_of_ok _ (consumeGas_none hc)
  | error e => exact Program.bind_of_ok _ (consumeGas_none hc)
  | panic p => simp at hr
  | timeout => simp at hr

section Limit

variable {g : Gas} {w w₁ : World X} (hw : w.meter.infinite = false → w.meter.consumed.toNat ≤ w.meter.limit.toNat)
  (hg : g < gasRemaining w.meter)

include hw hg

theorem limitedTo_of_charged {r : Outcome Err Panic DispatchResult} (hr : r.exit = .ok ∨ r.exit = .error)
    (hspent : (GasMeter.new g).Spends r.exit w₁.meter) :
    LimitedTo g w (r, w₁)
      (recoverOutOfGas g (fun _ ↦ chargeParent r w₁.meter.consumed { w₁ with meter := w.meter }) w) := by
  have hle : w₁.meter.consumed.toNat ≤ g.toNat := by
    have := hspent.bounded (by rcases hr with hr | hr <;> simp [hr]) rfl (Nat.zero_le _)
    simpa [GasMeter.new] using this
  obtain ⟨m, hc, hm⟩ := consume_of_lt_gasRemaining "From limited Sub-Message" hw hg hle
  have hrun : recoverOutOfGas g (fun _ ↦ chargeParent r w₁.meter.consumed { w₁ with meter := w.meter }) w =
      (r, { w₁ with meter := m }) := by
    unfold recoverOutOfGas Program.attempt
    rw [chargeParent_of_fits (w := { w₁ with meter := w.meter }) hr hc]
    cases r with
    | panic p => simp at hr
    | _ => rfl
  have hne : ∀ p, r ≠ .panic p := by
    rintro p rfl
    simp at hr
  rw [hrun]
  exact {
    grows := by simp only; omega
    bounded := by simp only; omega
    panics := fun p hp ↦ absurd hp (hne p)
    recovered := fun p hp ↦ absurd hp (hne p)
    reraised := fun p hp ↦ absurd hp (hne p) }

theorem limitedTo_of_panic (p : Panic) :
    LimitedTo g w (.panic p, w₁)
      (recoverOutOfGas g (fun _ ↦ chargeParent (.panic p) w₁.meter.consumed { w₁ with meter := w.meter }) w) := by
  unfold recoverOutOfGas Program.attempt
  change LimitedTo g w (.panic p, w₁) ((if p.isOutOfGas then _ else _ : M X DispatchResult) { w₁ with meter := w.meter })
  rcases hp : p.isOutOfGas with _ | _
  · exact {
      grows := Nat.le_refl _
      bounded := Nat.le_add_right _ _
      panics := fun q hq ↦ by cases hq; exact ⟨rfl, hp⟩
      recovered := fun q hq hq' ↦ by cases hq; rw [hp] at hq'; cases hq'
      reraised := fun q hq _ ↦ hq }
  · obtain ⟨m, hc, hm⟩ := consume_of_lt_gasRemaining "Sub-Message OutOfGas panic" hw hg (Nat.le_refl _)
    rw [if_pos rfl, Program.bind_of_ok _ (consumeGas_none (w := { w₁ with meter := w.meter }) hc)]
    exact {
      grows := by simp only [Program.fail]; omega
      bounded := by simp only [Program.fail]; omega
      panics := fun q hq ↦ by cases hq
      recovered := fun q hq _ ↦ ⟨rfl, hm⟩
      reraised := fun q hq hq' ↦ by cases hq; rw [hp] at hq'; cases hq' }

end Limit

/-- However deep the message nests others, a submessage whose gas limit is below what the parent has left
costs the parent at most that limit. Running out of the limit is an error for which exactly the limit is
charged; the parent's meter never panics, and every other panic passes through. -/
theorem dispatchSubmsg_limitedTo (n : Nat) (c : Ctx) (addr : AccAddress) (port : String) (msg : SubMsg) (g : Gas)
    (w : World X) (hw : w.meter.infinite = false → w.meter.consumed ≤ w.meter.limit)
    (hmsg : msg.gasLimit = some g) (hg : g < gasRemaining w.meter) :
    LimitedTo g w
      (messenger k (responseHandler k n) c addr port msg.msg { w with meter := .new g })
      (dispatchSubmsg (messageDispatcher k (responseHandler k n)) c addr port msg w) := by
  have hw' : w.meter.infinite = false → w.meter.consumed.toNat ≤ w.meter.limit.toNat :=
    fun hi ↦ UInt64.le_iff_toNat_le.1 (hw hi)
  have hspent := messenger_spends (k := k) n c addr port msg.msg { w with meter := .new g }
  have hdisp : dispatchSubmsg (messageDispatcher k (responseHandler k n)) c addr port msg w =
      recoverOutOfGas g (withGasMeter g (messenger k (responseHandler k n) c addr port msg.msg) chargeParent) w := by
    simp only [dispatchSubmsg, limitGas_of_lt hmsg hg]
    rfl
  rcases hr : messenger k (responseHandler k n) c addr port msg.msg { w with meter := .new g } with ⟨r, w₁⟩
  rw [hr] at hspent
  have hrun : dispatchSubmsg (messageDispatcher k (responseHandler k n)) c addr port msg w =
      recoverOutOfGas g (fun _ ↦ chargeParent r w₁.meter.consumed { w₁ with meter := w.meter }) w := by
    rw [hdisp]
    unfold recoverOutOfGas Program.attempt
    rw [withGasMeter_apply hr]
  rw [hrun]
  cases r with
  | ok a => exact limitedTo_of_charged hw' hg (.inl rfl) hspent
  | error e => exact limitedTo_of_charged hw' hg (.inr rfl) hspent
  | panic p => exact limitedTo_of_panic hw' hg p
  | timeout =>
    exact {
      grows := Nat.le_refl _
      bounded := Nat.le_add_right _ _
      panics := fun p hp ↦ by cases hp
      recovered := fun p hp ↦ by cases hp
      reraised := fun p hp ↦ by cases hp }

/-- A parent with 100 gas left runs a message that may use 10 of it. -/
theorem dispatchSubmsg_limitedTo_devnet :
    let k := devnet idleContract
    let w := { emptyWorld with meter := .new 100 }
    let msg : SubMsg := { id := 1, msg := { wasm := some .unset }, gasLimit := some 10, replyOn := .always }
    (10 : Gas) < gasRemaining w.meter ∧
      LimitedTo 10 w
        (messenger k (responseHandler k 3) genesisCtx [1] "" msg.msg { w with meter := .new 10 })
        (dispatchSubmsg (messageDispatcher k (responseHandler k 3)) genesisCtx [1] "" msg w) :=
  ⟨by decide, dispatchSubmsg_limitedTo 3 genesisCtx [1] "" _ 10 _ (fun _ ↦ by decide) rfl (by decide)⟩

end Cosmwasgo.Properties
