import Cosmwasgo.Lib.OrderedStore
import Mathlib.Logic.Function.Basic

namespace Cosmwasgo.Lib

variable {ι ρ ν : Type}

/-- The entries that the records of a collection have in one section of a store. `Q i r` says which entries
the record `r` of `i` has. -/
def Rows (Q : ι → ρ → Bytes → ν → Prop) (R : ι → Option ρ) (x : Bytes) (v : ν) : Prop :=
  ∃ i r, R i = some r ∧ Q i r x v

/-- The section of the store under the head `p` consists of the entries of the records. -/
def Lists (s : OrderedStore Bytes ν) (p : Bytes) (Q : ι → ρ → Bytes → ν → Prop) (R : ι → Option ρ) : Prop :=
  ∀ x v, s.get (p ++ x) = some v ↔ Rows Q R x v

/-- An entry tells whose it is. -/
def Owns (Q : ι → ρ → Bytes → ν → Prop) : Prop :=
  ∀ ⦃i r x v j t v'⦄, Q i r x v → Q j t x v' → i = j

namespace Lists

variable {s s' : OrderedStore Bytes ν} {p : Bytes} {Q : ι → ρ → Bytes → ν → Prop} {R : ι → Option ρ}

theorem empty (p : Bytes) (Q : ι → ρ → Bytes → ν → Prop) : Lists .empty p Q fun _ ↦ none := by
  intro x v
  constructor
  · intro h
    cases h
  · rintro ⟨i, r, hr, -⟩
    cases hr

theorem congr (h : Lists s p Q R) (hs : ∀ x, s'.get (p ++ x) = s.get (p ++ x)) : Lists s' p Q R :=
  fun x v ↦ by rw [hs, h x v]

theorem get_eq (h : Lists s p Q R) (h' : Lists s' p Q R) (x : Bytes) : s'.get (p ++ x) = s.get (p ++ x) :=
  Option.ext fun v ↦ (h' x v).trans (h x v).symm

theorem set_other (h : Lists s p Q R) {key : Bytes} (hk : ∀ x, p ++ x ≠ key) (w : ν) : Lists (s.set key w) p Q R :=
  h.congr fun x ↦ OrderedStore.get_set_of_ne _ _ (hk x)

theorem delete_other (h : Lists s p Q R) {key : Bytes} (hk : ∀ x, p ++ x ≠ key) : Lists (s.delete key) p Q R :=
  h.congr fun x ↦ OrderedStore.get_delete_of_ne _ (hk x)

theorem mem_scan (h : Lists s p Q R) {x : Bytes} {v : ν} : (x, v) ∈ s.scan p ↔ Rows Q R x v :=
  OrderedStore.mem_scan.trans (h x v)

variable [DecidableEq ι]

theorem rows_update {i : ι} {t : ρ} {x : Bytes} {v : ν} :
    Rows Q (Function.update R i (some t)) x v ↔ Q i t x v ∨ ∃ j r, j ≠ i ∧ R j = some r ∧ Q j r x v := by
  constructor
  · rintro ⟨j, r, hr, hq⟩
    by_cases hj : j = i
    · subst hj
      rw [Function.update_self] at hr
      cases hr
      exact .inl hq
    · rw [Function.update_of_ne hj] at hr
      exact .inr ⟨j, r, hj, hr, hq⟩
  · rintro (hq | ⟨j, r, hj, hr, hq⟩)
    · exact ⟨i, t, Function.update_self _ _ _, hq⟩
    · exact ⟨j, r, by rw [Function.update_of_ne hj, hr], hq⟩

/-- The record of `i` is put in or replaced: the old entries of `i` go, its new ones come. -/
theorem update (h : Lists s p Q R) (hown : Owns Q) {i : ι} {t : ρ}
    (hs : ∀ x v, s'.get (p ++ x) = some v ↔
      Q i t x v ∨ (s.get (p ++ x) = some v ∧ ∀ r, R i = some r → ¬ Q i r x v)) :
    Lists s' p Q (Function.update R i (some t)) := by
  intro x v
  rw [hs, rows_update, h x v]
  refine or_congr_right ?_
  constructor
  · rintro ⟨⟨j, r, hr, hq⟩, hno⟩
    refine ⟨j, r, ?_, hr, hq⟩
    rintro rfl
    exact hno r hr hq
  · rintro ⟨j, r, hj, hr, hq⟩
    exact ⟨⟨j, r, hr, hq⟩, fun r₀ _ hq₀ ↦ hj (hown hq hq₀)⟩

/-- A record whose entries are the same as before. -/
theorem update_same (h : Lists s p Q R) {i : ι} {r t : ρ} (hr : R i = some r)
    (hq : ∀ x v, Q i t x v ↔ Q i r x v) : Lists s p Q (Function.update R i (some t)) := by
  intro x v
  rw [h x v, rows_update, hq]
  constructor
  · rintro ⟨j, r₁, hj, hq₁⟩
    by_cases hji : j = i
    · subst hji
      rw [hr] at hj
      cases hj
      exact .inl hq₁
    · exact .inr ⟨j, r₁, hji, hj, hq₁⟩
  · rintro (hq₁ | ⟨j, r₁, -, hj, hq₁⟩)
    · exact ⟨i, r, hr, hq₁⟩
    · exact ⟨j, r₁, hj, hq₁⟩

/-- One entry comes, at a key that was free. -/
theorem extend (h : Lists s p Q R) (hown : Owns Q) {i : ι} {t : ρ} {x₀ : Bytes} {v₀ : ν}
    (hfree : s.get (p ++ x₀) = none)
    (hq : ∀ x v, Q i t x v ↔ (x = x₀ ∧ v = v₀) ∨ ∃ r, R i = some r ∧ Q i r x v) :
    Lists (s.set (p ++ x₀) v₀) p Q (Function.update R i (some t)) := by
  refine h.update hown fun x v ↦ ?_
  rw [hq, OrderedStore.get_set]
  by_cases hx : x = x₀
  · subst hx
    have hold : ¬ ∃ r, R i = some r ∧ Q i r x v := by
      rintro ⟨r, hr, hq⟩
      rw [(h x v).2 ⟨i, r, hr, hq⟩] at hfree
      cases hfree
    simp [hold, hfree, eq_comm]
  · have hne : p ++ x ≠ p ++ x₀ := fun he ↦ hx (List.append_cancel_left he)
    rw [if_neg hne]
    constructor
    · intro hv
      by_cases hmine : ∃ r, R i = some r ∧ Q i r x v
      · exact .inl (.inr hmine)
      · exact .inr ⟨hv, fun r hr hq ↦ hmine ⟨r, hr, hq⟩⟩
    · rintro ((⟨hx', -⟩ | ⟨r, hr, hq⟩) | ⟨hv, -⟩)
      · exact absurd hx' hx
      · exact (h x v).2 ⟨i, r, hr, hq⟩
      · exact hv

/-- A new record with a single entry. -/
theorem insert (h : Lists s p Q R) (hown : Owns Q) {i : ι} {t : ρ} {x₀ : Bytes} {v₀ : ν} (hi : R i = none)
    (hq : ∀ x v, Q i t x v ↔ x = x₀ ∧ v = v₀) :
    Lists (s.set (p ++ x₀) v₀) p Q (Function.update R i (some t)) := by
  refine h.extend hown ?_ fun x v ↦ by simp [hq, hi]
  rw [Option.eq_none_iff_forall_ne_some]
  intro v hv
  obtain ⟨j, r, hj, hqj⟩ := (h x₀ v).1 hv
  obtain rfl := hown hqj ((hq x₀ v₀).2 ⟨rfl, rfl⟩)
  rw [hi] at hj
  cases hj

/-- The single entry of a record is replaced by another. -/
theorem replace (h : Lists s p Q R) (hown : Owns Q) {i : ι} {r t : ρ} {x₀ x₁ : Bytes} {v₀ v₁ : ν}
    (hi : R i = some r) (hq : ∀ x v, Q i r x v ↔ x = x₀ ∧ v = v₀) (hq' : ∀ x v, Q i t x v ↔ x = x₁ ∧ v = v₁) :
    Lists ((s.delete (p ++ x₀)).set (p ++ x₁) v₁) p Q (Function.update R i (some t)) := by
  refine h.update hown fun x v ↦ ?_
  rw [hq', OrderedStore.get_set, OrderedStore.get_delete]
  -- the new key may be the old one, or one that no record has
  have hmine : ∀ v, s.get (p ++ x₁) = some v → x₁ = x₀ ∧ v = v₀ := by
    intro v hv
    obtain ⟨j, r₁, hj, hqj⟩ := (h x₁ v).1 hv
    obtain rfl := hown hqj ((hq' x₁ v₁).2 ⟨rfl, rfl⟩)
    rw [hi] at hj
    cases hj
    exact (hq x₁ v).1 hqj
  by_cases hx₁ : x = x₁
  · subst hx₁
    rw [if_pos rfl]
    constructor
    · intro hv
      cases hv
      exact .inl ⟨rfl, rfl⟩
    · rintro (⟨-, rfl⟩ | ⟨hv, hno⟩)
      · rfl
      · exact absurd ((hq x v).2 (hmine v hv)) (hno r hi)
  · have hne₁ : p ++ x ≠ p ++ x₁ := fun he ↦ hx₁ (List.append_cancel_left he)
    rw [if_neg hne₁]
    by_cases hx₀ : x = x₀
    · subst hx₀
      rw [if_pos rfl]
      constructor
      · intro hv
        cases hv
      · rintro (⟨hx, -⟩ | ⟨hv, hno⟩)
        · exact absurd hx hx₁
        · obtain ⟨j, r₁, hj, hqj⟩ := (h x v).1 hv
          obtain rfl := hown hqj ((hq x v₀).2 ⟨rfl, rfl⟩)
          rw [hi] at hj
          cases hj
          exact absurd hqj (hno _ hi)
    · have hne₀ : p ++ x ≠ p ++ x₀ := fun he ↦ hx₀ (List.append_cancel_left he)
      rw [if_neg hne₀]
      simp [hx₁, hi, hq, hx₀]

/-- The single entry of a record gets another value. -/
theorem overwrite (h : Lists s p Q R) (hown : Owns Q) {i : ι} {r t : ρ} {x₀ : Bytes} {v₀ v₁ : ν}
    (hi : R i = some r) (hq : ∀ x v, Q i r x v ↔ x = x₀ ∧ v = v₀) (hq' : ∀ x v, Q i t x v ↔ x = x₀ ∧ v = v₁) :
    Lists (s.set (p ++ x₀) v₁) p Q (Function.update R i (some t)) := by
  refine (h.replace hown hi hq hq').congr fun x ↦ ?_
  rw [OrderedStore.get_set, OrderedStore.get_set]
  split
  · rfl
  · next hne => rw [OrderedStore.get_delete_of_ne _ hne]

end Lists

end Cosmwasgo.Lib
