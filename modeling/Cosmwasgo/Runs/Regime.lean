import Cosmwasgo.Runs.Writes

namespace Cosmwasgo.Runs

open Cosmwasgo.Lib Cosmwasgo.Types Cosmwasgo.State Cosmwasgo.Keeper

variable {X α β ρ : Type} {k : Keeper X} {R : Regime k} {s : Site} {P Q : Durable X → Prop}

/-- A condition on the durable part of a world. -/
abbrev On (P : Durable X → Prop) (w : World X) : Prop := P (durable w)

/-- A condition that code which leaves the records alone does not disturb. -/
def Stable (P : Durable X → Prop) : Prop := ∀ ⦃o d d'⦄, Quiet o d d' → P d → P d'

theorem Stable.and (hP : Stable P) (hQ : Stable Q) : Stable fun d ↦ P d ∧ Q d :=
  fun _ _ _ h hd ↦ ⟨hP h hd.1, hQ h hd.2⟩

theorem Stable.true : Stable fun _ : Durable X ↦ True := fun _ _ _ _ _ ↦ trivial

theorem Stable.record {key : Bytes} (hk : ¬ IsStateKey key) (v : Option Value) :
    Stable fun d : Durable X ↦ d.kv.get key = v :=
  fun _ _ _ h hd ↦ (h.records key hk).trans hd

theorem not_isStateKey {key : Bytes} (h : key.head? ≠ some 3) : ¬ IsStateKey key := by
  rintro ⟨rest, rfl⟩
  exact h rfl

theorem Live.of_isSome {d : Durable X} {a : AccAddress} (h : (d.kv.get (getContractAddressKey a)).isSome) :
    Live d a := .inr h

namespace Regime

theorem rel_of_clean {w : World X} {x : Exit} {w' : World X} (h : (R.clean s).rel w x w') :
    (R.discipline s).rel w x w' := by
  cases x with
  | error => exact R.weaken h
  | ok => exact h
  | panic => exact h
  | timeout => exact h

theorem keeps_clean {w w' : World X} {x : Exit} {o : Option AccAddress}
    (hl : ∀ a, o = some a → Live (durable w) a) (h : Keeps o w x w') : (R.clean s).rel w x w' := by
  cases x with
  | error => exact R.keeps hl (h.withExit h.meter.ok)
  | ok => exact R.keeps hl h
  | panic => exact R.keeps hl h
  | timeout => exact R.keeps hl h

theorem enter_triple {s' : Site} {S : World X → Prop} {T : α → World X → Prop} {m : M X α}
    (he : Site.Enters k R.permits s s') (h : (R.clean s').Triple S m T) : (R.clean s).Triple S m T :=
  h.mono fun hr ↦ R.enter he hr

/-- The call of a contract goes on record as the site is entered. -/
theorem clean_called {c : Ctx} (he : Site.Enters k R.permits s (within c)) :
    (R.clean s).Triple (On P) (observe (.call c.stack)) fun _ ↦ On P := by
  intro w hw
  refine ⟨R.enter he R.called, fun a t ht ↦ ?_⟩
  obtain ⟨-, rfl⟩ := Prod.mk.inj ht
  exact hw

end Regime

namespace Local

variable {m : M X α} {o : Option AccAddress}

theorem clean_triple (hm : Local o m) (hP : Stable P) (hl : ∀ d, P d → ∀ a, o = some a → Live d a) :
    (R.clean s).Triple (On P) m fun _ ↦ On P := by
  intro w hw
  refine ⟨Regime.keeps_clean (hl _ hw) (hm.keeps w), fun a t ht ↦ ?_⟩
  have h := (hm.keeps w).quiet
  rw [ht] at h
  exact hP h hw

theorem triple (hm : Local o m) (hP : Stable P) (hl : ∀ d, P d → ∀ a, o = some a → Live d a) :
    (R.discipline s).Triple (On P) m fun _ ↦ On P :=
  (hm.clean_triple hP hl).mono Regime.rel_of_clean

theorem clean_bind {f : α → M X β} {S : β → World X → Prop} (hm : Local none m) (hP : Stable P)
    (hf : ∀ a, (R.clean s).Triple (On P) (f a) S) : (R.clean s).Triple (On P) (m >>= f) S :=
  (hm.clean_triple hP (by simp)).bind hf

theorem bind_triple {f : α → M X β} {S : β → World X → Prop} (hm : Local none m) (hP : Stable P)
    (hf : ∀ a, (R.discipline s).Triple (On P) (f a) S) : (R.discipline s).Triple (On P) (m >>= f) S :=
  (hm.triple hP (by simp)).bind hf

/-- What is known of every value the code can return is known of the one it returns. -/
theorem clean_value (hm : Local none m) (hP : Stable P) {V : α → Prop}
    (hV : ∀ {w a w'}, m w = (.ok a, w') → V a) :
    (R.clean s).Triple (On P) m fun a w ↦ P (durable w) ∧ V a := by
  intro w hw
  obtain ⟨hrel, hpost⟩ := hm.clean_triple (R := R) (s := s) hP (by simp) w hw
  exact ⟨hrel, fun a t ht ↦ ⟨hpost a t ht, hV ht⟩⟩

theorem clean (hm : Local none m) : (R.clean s).Obeys m :=
  fun w ↦ Regime.keeps_clean (by simp) (hm.keeps w)

theorem obeys (hm : Local none m) : (R.discipline s).Obeys m := Regime.clean_obeys hm.clean

end Local

namespace Writes

variable {m : M X α} {post : Durable X → α → Durable X → Prop}

/-- Writes that amount to one act of the keeper. -/
theorem rel (hm : Writes m post) {w : World X}
    (h : ∀ a d, post (durable w) a d → Act k R.permits s.ctx (durable w) d) :
    (R.clean s).rel w (m w).1.exit (m w).2 := by
  have hx := hm.exits w
  have ht := hm.trace w
  have hv := hm.vm w
  have hg := hm.meter w
  have hl := hm.loads w
  rcases hr : m w with ⟨a | e | p | _, w'⟩ <;> rw [hr] at hx ht hv hg hl
  · refine R.trans (R.act (h a _ (hm.post w a w' hr))) (R.keeps (o := none) (by simp) ?_)
    exact .of_eq ht rfl rfl rfl rfl hg hl
  · simp at hx
  · exact R.torn ⟨ht, hv, hg, hl⟩
  · simp at hx

theorem clean_triple (hm : Writes m post) {Q : α → Durable X → Prop}
    (h : ∀ d a d', P d → post d a d' → Act k R.permits s.ctx d d') (hq : ∀ d a d', P d → post d a d' → Q a d') :
    (R.clean s).Triple (On P) m fun a ↦ On (Q a) :=
  fun w hw ↦ ⟨hm.rel fun a d ↦ h _ a d hw, fun a t ht ↦ hq _ a _ hw (hm.post w a t ht)⟩

/-- Writes that turn out to be reads. -/
theorem clean_reads (hm : Writes m post) (h : ∀ d a d', post d a d' → d' = d) :
    (R.clean s).Triple (On P) m fun a w ↦ P (durable w) ∧ post (durable w) a (durable w) := by
  intro w hw
  have hx := hm.exits w
  have ht := hm.trace w
  have hv := hm.vm w
  have hg := hm.meter w
  have hl := hm.loads w
  rcases hr : m w with ⟨a | e | p | _, w'⟩ <;> rw [hr] at hx ht hv hg hl
  · have hpost := hm.post w a w' hr
    have hd : durable w' = durable w := h _ a _ hpost
    have hs : w'.store = w.store := congrArg Durable.store hd
    refine ⟨R.keeps (o := none) (by simp) (.of_eq ht hv (by rw [hs]) (by rw [hs]) (by rw [hs]) hg hl), fun b t hb ↦ ?_⟩
    obtain ⟨hab, rfl⟩ := Prod.mk.inj hb
    cases hab
    rw [hd] at hpost ⊢
    exact ⟨hw, hpost⟩
  · simp at hx
  · exact ⟨R.torn ⟨ht, hv, hg, hl⟩, fun b t hb ↦ by cases hb⟩
  · simp at hx

theorem getContractInfo (k : Keeper X) (addr : AccAddress) : Writes (Keeper.getContractInfo k addr) fun d r d' ↦
    d' = d ∧ d.kv.get (getContractAddressKey addr) = r.map .contractInfo := by
  refine ((getKV k _).bind fun v ↦ (?_ : Writes _ fun d r d' ↦ d' = d ∧ v = r.map .contractInfo)).mono ?_
  · split
    · exact (pure none).mono fun _ _ _ h ↦ ⟨h.2, by rw [h.1]; rfl⟩
    · exact (pure _).mono fun _ _ _ h ↦ ⟨h.2, by rw [h.1]; rfl⟩
    · exact (raise _).mono fun _ _ _ h ↦ h.elim
  · rintro d r d' ⟨_, _, ⟨rfl, rfl⟩, rfl, hr⟩
    exact ⟨rfl, hr⟩

theorem getCodeInfo (k : Keeper X) (codeID : UInt64) : Writes (Keeper.getCodeInfo k codeID) fun d r d' ↦
    d' = d ∧ d.kv.get (getCodeKey codeID) = r.map .codeInfo := by
  refine ((getKV k _).bind fun v ↦ (?_ : Writes _ fun d r d' ↦ d' = d ∧ v = r.map .codeInfo)).mono ?_
  · split
    · exact (pure none).mono fun _ _ _ h ↦ ⟨h.2, by rw [h.1]; rfl⟩
    · exact (pure _).mono fun _ _ _ h ↦ ⟨h.2, by rw [h.1]; rfl⟩
    · exact (raise _).mono fun _ _ _ h ↦ h.elim
  · rintro d r d' ⟨_, _, ⟨rfl, rfl⟩, rfl, hr⟩
    exact ⟨rfl, hr⟩

end Writes

end Cosmwasgo.Runs
