import Cosmwasgo.State.World
import Mathlib.Order.Basic

namespace Cosmwasgo.State

open Cosmwasgo.Lib Cosmwasgo.Types

namespace GasMeter

/-- What running code may do to a meter: gas is never given back, and a run that returns has not gone
over the limit. -/
structure Spends (m : GasMeter) (x : Exit) (m' : GasMeter) : Prop where
  limit : m'.limit = m.limit
  infinite : m'.infinite = m.infinite
  grows : m.infinite = false → m.consumed.toNat ≤ m'.consumed.toNat
  bounded : x = .ok ∨ x = .error → m.infinite = false → m.consumed.toNat ≤ m.limit.toNat →
    m'.consumed.toNat ≤ m.limit.toNat

theorem Spends.refl (m : GasMeter) (x : Exit) : m.Spends x m :=
  ⟨rfl, rfl, fun _ ↦ le_refl _, fun _ _ h ↦ h⟩

theorem Spends.trans {m m' m'' : GasMeter} {x : Exit} (h : m.Spends .ok m') (h' : m'.Spends x m'') :
    m.Spends x m'' where
  limit := h'.limit.trans h.limit
  infinite := h'.infinite.trans h.infinite
  grows hi := (h.grows hi).trans (h'.grows (h.infinite.trans hi))
  bounded hx hi hc := by
    have hm := h.bounded (.inl rfl) hi hc
    rw [← h.limit] at hm ⊢
    exact h'.bounded hx (h.infinite.trans hi) hm

theorem Spends.panic {m m' : GasMeter} {x : Exit} (h : m.Spends x m') : m.Spends .panic m' :=
  ⟨h.limit, h.infinite, h.grows, fun hx ↦ by simp at hx⟩

theorem Spends.timeout {m m' : GasMeter} {x : Exit} (h : m.Spends x m') : m.Spends .timeout m' :=
  ⟨h.limit, h.infinite, h.grows, fun hx ↦ by simp at hx⟩

theorem Spends.error {m m' : GasMeter} (h : m.Spends .ok m') : m.Spends .error m' :=
  ⟨h.limit, h.infinite, h.grows, fun _ ↦ h.bounded (.inl rfl)⟩

theorem Spends.ok {m m' : GasMeter} (h : m.Spends .error m') : m.Spends .ok m' :=
  ⟨h.limit, h.infinite, h.grows, fun _ ↦ h.bounded (.inr rfl)⟩

theorem Spends.panic_trans {m m' m'' : GasMeter} {x y : Exit} (h : m.Spends x m') (h' : m'.Spends y m'') :
    m.Spends .panic m'' where
  limit := h'.limit.trans h.limit
  infinite := h'.infinite.trans h.infinite
  grows hi := (h.grows hi).trans (h'.grows (h.infinite.trans hi))
  bounded hx := by simp at hx

/-- The exit a charge leads to. -/
def chargeExit : Option Panic → Exit
  | none => .ok
  | some _ => .panic

theorem consume_infinite {m : GasMeter} (hi : m.infinite = true) (amount : Gas) (d : String) :
    m.consume amount d = (none, { m with consumed := m.consumed + amount }) := if_pos hi

theorem consume_overflow {m : GasMeter} (hi : m.infinite = false) {amount : Gas} (d : String)
    (h : 2 ^ 64 ≤ m.consumed.toNat + amount.toNat) :
    m.consume amount d = (some (.gasOverflow d), { m with consumed := UInt64.ofNat (2 ^ 64 - 1) }) := by
  rw [consume, if_neg (by simp [hi]), if_pos h]

theorem consume_fits {m : GasMeter} (hi : m.infinite = false) {amount : Gas} (d : String)
    (h : m.consumed.toNat + amount.toNat ≤ m.limit.toNat) :
    m.consume amount d = (none, { m with consumed := m.consumed + amount }) := by
  have hl := m.limit.toNat_lt
  have hlt : ¬ m.limit < m.consumed + amount := by
    rw [UInt64.lt_iff_toNat_lt, UInt64.toNat_add]
    omega
  rw [consume, if_neg (by simp [hi]), if_neg (by omega)]
  simp only [if_neg hlt]

theorem consume_exceeds {m : GasMeter} (hi : m.infinite = false) {amount : Gas} (d : String)
    (h : m.consumed.toNat + amount.toNat < 2 ^ 64) (hlt : m.limit.toNat < m.consumed.toNat + amount.toNat) :
    m.consume amount d = (some (.outOfGas d), { m with consumed := m.consumed + amount }) := by
  have hlt' : m.limit < m.consumed + amount := by
    rw [UInt64.lt_iff_toNat_lt, UInt64.toNat_add]
    omega
  rw [consume, if_neg (by simp [hi]), if_neg (by omega)]
  simp only [if_pos hlt']

theorem consume_spends (m : GasMeter) (amount : Gas) (d : String) :
    m.Spends (chargeExit (m.consume amount d).1) (m.consume amount d).2 := by
  have hc := m.consumed.toNat_lt
  rcases hi : m.infinite with _ | _
  · by_cases h : 2 ^ 64 ≤ m.consumed.toNat + amount.toNat
    · rw [consume_overflow hi d h]
      refine ⟨rfl, rfl, fun _ ↦ ?_, fun hx ↦ by simp [chargeExit] at hx⟩
      simp only [UInt64.toNat_ofNat']
      omega
    · have hadd : (m.consumed + amount).toNat = m.consumed.toNat + amount.toNat := by
        rw [UInt64.toNat_add]
        omega
      by_cases hl : m.consumed.toNat + amount.toNat ≤ m.limit.toNat
      · rw [consume_fits hi d hl]
        exact ⟨rfl, rfl, fun _ ↦ by simp [hadd], fun _ _ _ ↦ by simpa [hadd] using hl⟩
      · rw [consume_exceeds hi d (by omega) (by omega)]
        exact ⟨rfl, rfl, fun _ ↦ by simp [hadd], fun hx ↦ by simp [chargeExit] at hx⟩
  · rw [consume_infinite hi]
    exact ⟨rfl, rfl, fun h ↦ by simp [hi] at h, fun _ h ↦ by simp [hi] at h⟩

/-- A charge that does not panic leaves the meter within its limit, wherever it started. -/
theorem consumed_le_of_consume {m m' : GasMeter} {amount : Gas} {d : String}
    (h : m.consume amount d = (none, m')) (hi : m.infinite = false) :
    m'.consumed.toNat ≤ m.limit.toNat := by
  by_cases ho : 2 ^ 64 ≤ m.consumed.toNat + amount.toNat
  · rw [consume_overflow hi d ho] at h
    cases h
  · by_cases hl : m.consumed.toNat + amount.toNat ≤ m.limit.toNat
    · rw [consume_fits hi d hl] at h
      obtain ⟨-, rfl⟩ := Prod.mk.inj h
      change (m.consumed + amount).toNat ≤ _
      rw [UInt64.toNat_add]
      omega
    · rw [consume_exceeds hi d (by omega) (by omega)] at h
      cases h

end GasMeter

end Cosmwasgo.State
