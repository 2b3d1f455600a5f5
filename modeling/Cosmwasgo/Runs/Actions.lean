import Cosmwasgo.Runs.Local

namespace Cosmwasgo.Runs

open Cosmwasgo.Lib Cosmwasgo.Types Cosmwasgo.State Cosmwasgo.Keeper

variable {X α β ρ : Type} {o : Option AccAddress} (k : Keeper X)

namespace Local

theorem liftPanic (e : Except Panic α) : Local (X := X) o (Keeper.liftPanic e) := by
  cases e with
  | ok a => exact .pure a
  | error p => exact .raise p

theorem consumeGas (amount : Gas) (d : String) : Local (X := X) o (Keeper.consumeGas amount d) := by
  constructor
  · intro w
    have h := w.meter.consume_spends amount d
    unfold Keeper.consumeGas
    rcases hc : w.meter.consume amount d with ⟨_ | p, m⟩ <;> rw [hc] at h
    · exact .of_eq rfl rfl rfl rfl rfl h (.of_eq rfl rfl)
    · exact .of_eq rfl rfl rfl rfl rfl h (.of_eq rfl rfl)
  · intro E hE w v hw
    right
    unfold Keeper.consumeGas
    rw [hw.meter]
    rcases v.meter.consume amount d with ⟨_ | p, m⟩
    · exact ⟨.ok rfl, hw.store, rfl, hw.txContracts, hw.vm, hw.events⟩
    · exact ⟨.panic p, hw.store, rfl, hw.txContracts, hw.vm, hw.events⟩

theorem emitEvents (es : List Event) : Local (X := X) o (Keeper.emitEvents es) := by
  refine ⟨fun w ↦ .of_eq rfl rfl rfl rfl rfl (.refl _ _) (.of_eq rfl rfl), .update fun E hE w v hw ↦ ?_⟩
  exact ⟨hw.store, hw.meter, hw.txContracts, hw.vm, hE.append hw.events (hE.refl es)⟩

theorem assertValidKey (key : Bytes) : Local (X := X) o (Keeper.assertValidKey key) := by
  unfold Keeper.assertValidKey
  split
  · exact .raise _
  · exact .pure ()

theorem getKV (key : Bytes) : Local o (Keeper.getKV k key) :=
  (assertValidKey key).bind fun _ ↦ (read fun _ _ hs _ _ _ ↦ by rw [hs]).bind fun _ ↦
    (consumeGas _ _).bind fun _ ↦ .pure _

theorem hasKV (key : Bytes) : Local o (Keeper.hasKV k key) :=
  (assertValidKey key).bind fun _ ↦ (consumeGas _ _).bind fun _ ↦ read fun _ _ hs _ _ _ ↦ by rw [hs]

theorem iterateKV (head : Bytes) : Local o (Keeper.iterateKV k head) :=
  (read fun _ _ hs _ _ _ ↦ by rw [hs]).bind fun _ ↦ (consumeGas _ _).bind fun _ ↦ .pure _

theorem external (f : X → ExtStep X α) : Local o (Keeper.external f) := by
  refine (read fun _ _ hs _ _ _ ↦ by rw [hs]).bind fun s ↦ ?_
  refine bind ⟨fun w ↦ .of_eq rfl rfl rfl rfl rfl (.refl _ _) (.of_eq rfl rfl), .update fun E hE w v hw ↦ ?_⟩ fun _ ↦ ?_
  · exact ⟨by rw [hw.store], hw.meter, hw.txContracts, hw.vm,
      hE.append hw.events (hE.refl s.events)⟩
  · exact (consumeGas _ _).bind fun _ ↦ .finish _

theorem runtimeGasForContract : Local o (Keeper.runtimeGasForContract k) := by
  refine (read fun _ _ _ hm _ _ ↦ hm).bind fun meter ↦ ?_
  split
  · exact .pure _
  · split
    · exact .pure _
    · exact .liftPanic _

theorem consumeRuntimeGas (gas : Gas) : Local o (Keeper.consumeRuntimeGas k gas) := by
  refine (liftPanic _).bind fun _ ↦ (consumeGas _ _).bind fun _ ↦ ?_
  refine (read fun _ _ _ hm _ _ ↦ hm).bind fun meter ↦ ?_
  split
  · exact .raise _
  · exact .pure ()

theorem recordedDiscount_apply (checksum : Bytes) (isPinned : Bool) (w : World X) : ∃ discount cs,
    Keeper.recordedDiscount checksum isPinned w = (.ok discount, { w with
      txContracts := cs, setups := w.setups ++ [⟨checksum, isPinned, discount⟩] }) ∧
    Loading w.txContracts [⟨checksum, isPinned, discount⟩] cs := by
  cases isPinned with
  | true => exact ⟨true, w.txContracts, rfl, .discounted rfl (.inl rfl) (.nil _)⟩
  | false =>
    rcases hc : w.txContracts with _ | loaded
    · have hread : (Keeper.checkDiscountEligibility checksum false : M X Bool) w = (.ok false, w) := by
        rw [Keeper.checkDiscountEligibility, if_neg Bool.false_ne_true, Program.read_bind_apply, hc]
        rfl
      refine ⟨false, none, ?_, .full rfl ?_ (.nil _)⟩
      · rw [Keeper.recordedDiscount, Program.bind_of_ok _ hread, ← hc]
        rfl
      · rintro (h | ⟨_, h, -⟩) <;> cases h
    · by_cases hmem : checksum ∈ loaded
      · have hread : (Keeper.checkDiscountEligibility checksum false : M X Bool) w = (.ok true, w) := by
          rw [Keeper.checkDiscountEligibility, if_neg Bool.false_ne_true, Program.read_bind_apply, hc]
          exact congrFun (if_pos hmem) w
        refine ⟨true, some loaded, ?_, .discounted rfl (.inr ⟨loaded, rfl, hmem⟩) (.nil _)⟩
        rw [Keeper.recordedDiscount, Program.bind_of_ok _ hread, ← hc]
        rfl
      · have hread : (Keeper.checkDiscountEligibility checksum false : M X Bool) w = (.ok false,
            { w with txContracts := some (if checksum = [] then loaded else checksum :: loaded) }) := by
          rw [Keeper.checkDiscountEligibility, if_neg Bool.false_ne_true, Program.read_bind_apply, hc]
          exact congrFun (if_neg hmem) w
        refine ⟨false, some (if checksum = [] then loaded else checksum :: loaded), ?_, .full rfl ?_ (.nil _)⟩
        · rw [Keeper.recordedDiscount, Program.bind_of_ok _ hread]
          rfl
        · rintro (h | ⟨_, h, hin⟩)
          · cases h
          · cases h
            exact hmem hin

theorem recordedDiscount (checksum : Bytes) (isPinned : Bool) :
    Local (X := X) o (Keeper.recordedDiscount checksum isPinned) := by
  constructor
  · intro w
    obtain ⟨discount, cs, hrun, hloading⟩ := recordedDiscount_apply checksum isPinned w
    rw [hrun]
    exact .of_eq rfl rfl rfl rfl rfl (.refl _ _) ⟨_, rfl, hloading⟩
  · refine Oblivious.bind ?_ fun discount ↦ .bind (.update fun E hE w v hw ↦ ?_) fun _ ↦ .pure _
    · unfold Keeper.checkDiscountEligibility
      split
      · exact .pure _
      · refine (Oblivious.read fun _ _ _ _ ht _ ↦ ht).bind fun cs ↦ ?_
        split
        · exact .pure _
        · split
          · exact .pure _
          · refine .bind (.update fun E hE w v hw ↦ ?_) fun _ ↦ .pure _
            exact ⟨hw.store, hw.meter, rfl, hw.vm, hw.events⟩
    · exact ⟨hw.store, hw.meter, hw.txContracts, hw.vm, hw.events⟩

theorem attempt {m : M X α} {f : Outcome Err Panic α → M X β} (hm : Local o m) (ht : f .timeout = Program.expire)
    (hk : ∀ w r w', m w = (r, w') → Keeps o w r.exit w' → Keeps o w (f r w').1.exit (f r w').2)
    (hf : ∀ r, Oblivious (f r)) : Local o (m.attempt f) := by
  constructor
  · refine Discipline.Obeys.attempt (D := Keeps.discipline X o) fun w r w' hr ↦ hk w r w' hr ?_
    have h := hm.keeps w
    rwa [hr] at h
  · intro E hE
    refine (hm.oblivious E hE).attempt (fun s ↦ by rw [ht]; rfl) fun r r' hr ↦ ?_
    obtain rfl := hr.eq
    exact hf r E hE

theorem wrapErr {m : M X α} (hm : Local o m) (desc : String) : Local o (Keeper.wrapErr m desc) := by
  refine hm.attempt rfl (fun w r w' _ h ↦ ?_) fun r ↦ ?_
  · cases r <;> exact h
  · cases r with
    | ok a => exact .pure a
    | error e => exact .fail _
    | panic p => exact .raise p
    | timeout => exact .expire

theorem withGasMeter {m : M X α} (hm : Local o m) (limit : Gas) {next : Outcome Err Panic α → Gas → M X β}
    (hn : ∀ r g, Local o (next r g)) (ht : ∀ g w, (next .timeout g w).1 = .timeout) :
    Local o (Keeper.withGasMeter limit m next) := by
  constructor
  · intro w
    have h := hm.keeps { w with meter := .new limit }
    have h' : Keeps o w .ok { (m { w with meter := .new limit }).2 with meter := w.meter } :=
      ⟨h.trace, h.quiet, .refl _ _, h.loads⟩
    exact h'.trans ((hn _ _).keeps _)
  · intro E hE w v hw
    have hw' : Alike E { w with meter := .new limit } { v with meter := .new limit } :=
      ⟨hw.store, rfl, hw.txContracts, hw.vm, hw.events⟩
    have h := hm.oblivious E hE _ _ hw'
    rcases hr : m { w with meter := .new limit } with ⟨r, w'⟩
    rcases hr' : m { v with meter := .new limit } with ⟨r', v'⟩
    rw [withGasMeter_apply hr, withGasMeter_apply hr']
    rw [hr, hr'] at h
    rcases h with h | ⟨h, hs⟩
    · left
      rw [show r = .timeout from h]
      exact ht _ _
    · obtain rfl : r = r' := h.eq
      have hg : w'.meter = v'.meter := hs.meter
      rw [hg]
      exact (hn _ _).oblivious E hE _ _ ⟨hs.store, hw.meter, hs.txContracts, hs.vm, hs.events⟩

theorem discarding {m : M X α} (hm : Local o m) : Local none (Keeper.discarding m) := by
  constructor
  · intro w
    have h := hm.keeps { w with events := [] }
    exact .of_eq h.trace h.quiet.vm rfl rfl rfl h.meter h.loads
  · intro E hE w v hw
    rcases hm.oblivious E hE { w with events := [] } { v with events := [] }
      ⟨hw.store, hw.meter, hw.txContracts, hw.vm, hE.refl []⟩ with h | ⟨h, hs⟩
    · exact .inl h
    · exact .inr ⟨h, hw.store, hs.meter, hs.txContracts, hs.vm, hw.events⟩

end Local

end Cosmwasgo.Runs
