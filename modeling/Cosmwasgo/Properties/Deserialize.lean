import Cosmwasgo.WasmVM.Deserialize
import Mathlib.Logic.Basic

namespace Cosmwasgo.Properties

open Cosmwasgo.Lib Cosmwasgo.Types Cosmwasgo.State Cosmwasgo.Keeper Cosmwasgo.WasmVM

variable {ρ : Type} {t : ResponseType ρ} {gasLimit : UInt64} {deserCost : UFraction} {report : GasReport} {data : Bytes}

/-- All gas of the limit is accounted for. -/
def Balanced (r : GasReport) : Prop := r.limit.toNat = r.remaining.toNat + r.usedInternally.toNat + r.usedExternally.toNat

instance (r : GasReport) : Decidable (Balanced r) := inferInstanceAs (Decidable (_ = _))

/-- What it costs to read the data. -/
def readCost (deserCost : UFraction) (data : Bytes) : Nat :=
  data.length * deserCost.numerator.toNat / deserCost.denominator.toNat

/-- The same with a product that has wrapped around. -/
def wrappedCost (deserCost : UFraction) (data : Bytes) : Nat :=
  data.length * deserCost.numerator.toNat % 2 ^ 64 / deserCost.denominator.toNat

/-- Gas is neither lost nor made: a response that is read was paid for, and one that cannot be paid for is refused. -/
structure ConservesGas (t : ResponseType ρ) (gasLimit : UInt64) (deserCost : UFraction) (report : GasReport)
    (data : Bytes) : Prop where
  success : ∀ {response report'}, deserializeResponse t gasLimit deserCost report data = .ok (.ok response, report') →
    Balanced report' ∧ report'.usedInternally.toNat = report.usedInternally.toNat + readCost deserCost data
  refusal : report.remaining.toNat < readCost deserCost data →
    ∃ e, deserializeResponse t gasLimit deserCost report data = .ok (.error e, report)

theorem deserializeResponse_panics (h : deserCost.denominator = 0) :
    ∃ p, deserializeResponse t gasLimit deserCost report data = .error p := by
  refine ⟨.other "integer divide by zero", ?_⟩
  have hfloor : (deserCost.mul (UInt64.ofNat data.length)).floor = .error (.other "integer divide by zero") := if_pos h
  rw [deserializeResponse, hfloor]
  rfl

/-- The wrapped cost decides, and is what is charged. -/
theorem deserializeResponse_cases (h : deserCost.denominator ≠ 0) :
    ∃ cost : UInt64, cost.toNat = wrappedCost deserCost data ∧
      ((gasLimit.toNat < (cost.toNat + report.usedInternally.toNat) % 2 ^ 64 ∧
        ∃ e, deserializeResponse t gasLimit deserCost report data = .ok (.error e, report)) ∨
      ((cost.toNat + report.usedInternally.toNat) % 2 ^ 64 ≤ gasLimit.toNat ∧
        deserializeResponse t gasLimit deserCost report data = .ok (t.decode data, report.charge cost))) := by
  let cost := deserCost.numerator * UInt64.ofNat data.length / deserCost.denominator
  have hfloor : (deserCost.mul (UInt64.ofNat data.length)).floor = .ok cost := if_neg h
  have hcost : cost.toNat = wrappedCost deserCost data := by
    rw [UInt64.toNat_div, UInt64.toNat_mul, UInt64.toNat_ofNat', Nat.mul_mod_mod, Nat.mul_comm]
    rfl
  refine ⟨cost, hcost, ?_⟩
  rw [deserializeResponse, hfloor]
  change _ ∧ (∃ e, (if gasLimit < cost + report.usedInternally then _ else _) = _) ∨
    _ ∧ (if gasLimit < cost + report.usedInternally then _ else _) = _
  by_cases hlt : gasLimit < cost + report.usedInternally
  · rw [if_pos hlt]
    rw [UInt64.lt_iff_toNat_lt, UInt64.toNat_add] at hlt
    exact .inl ⟨hlt, _, rfl⟩
  · rw [if_neg hlt]
    rw [UInt64.lt_iff_toNat_lt, UInt64.toNat_add, not_lt] at hlt
    exact .inr ⟨hlt, rfl⟩

theorem charge_eq_self {cost : UInt64} (h : report.charge cost = report) : cost = 0 := by
  have hused := congrArg GasReport.usedInternally h
  exact UInt64.add_eq_left.1 hused

theorem wrappedCost_of_lt (h : data.length * deserCost.numerator.toNat < 2 ^ 64) :
    wrappedCost deserCost data = readCost deserCost data := by
  rw [wrappedCost, Nat.mod_eq_of_lt h, readCost]

/-- A product that wraps around makes the cost too low. -/
theorem wrappedCost_lt (hden : deserCost.denominator ≠ 0) (h : 2 ^ 64 ≤ data.length * deserCost.numerator.toNat) :
    wrappedCost deserCost data < readCost deserCost data := by
  have hpos : 0 < deserCost.denominator.toNat := by
    rw [Nat.pos_iff_ne_zero]
    intro h0
    exact hden (UInt64.toNat_inj.1 h0)
  have hlt := deserCost.denominator.toNat_lt
  have hle : data.length * deserCost.numerator.toNat % 2 ^ 64 + deserCost.denominator.toNat ≤
      data.length * deserCost.numerator.toNat := by omega
  have hdiv := Nat.div_le_div_right (c := deserCost.denominator.toNat) hle
  rw [Nat.add_div_right _ hpos] at hdiv
  exact hdiv

/-- The remaining gas pays for the response, or the guard notices that it does not: then not even the gas used outside
would help. Where the product wraps around, only a response that cannot be read does no harm. -/
def Covered (t : ResponseType ρ) (deserCost : UFraction) (report : GasReport) (data : Bytes) : Prop :=
  deserCost.denominator = 0 ∨
  (data.length * deserCost.numerator.toNat < 2 ^ 64 ∧ readCost deserCost data ≤ report.remaining.toNat) ∨
  (report.remaining.toNat + report.usedExternally.toNat < wrappedCost deserCost data ∧
    wrappedCost deserCost data + report.usedInternally.toNat < 2 ^ 64) ∨
  (2 ^ 64 ≤ data.length * deserCost.numerator.toNat ∧ (∀ response, t.decode data ≠ .ok response) ∧
    (readCost deserCost data ≤ report.remaining.toNat ∨ wrappedCost deserCost data = 0))

/-- A charge that the remaining gas covers. -/
theorem Balanced.charge (hbal : Balanced report) {cost : UInt64} (hle : cost.toNat ≤ report.remaining.toNat) :
    Balanced (report.charge cost) ∧
      (report.charge cost).usedInternally.toNat = report.usedInternally.toNat + cost.toNat := by
  unfold Balanced at hbal
  have hlimit := report.limit.toNat_lt
  have hadd : (report.charge cost).usedInternally.toNat = report.usedInternally.toNat + cost.toNat := by
    change (report.usedInternally + cost).toNat = _
    rw [UInt64.toNat_add, Nat.mod_eq_of_lt (by omega)]
  have hsub : (report.charge cost).remaining.toNat = report.remaining.toNat - cost.toNat :=
    UInt64.toNat_sub_of_le _ _ (UInt64.le_iff_toNat_le.2 hle)
  refine ⟨?_, hadd⟩
  rw [Balanced, hadd, hsub]
  change report.limit.toNat = _ + _ + report.usedExternally.toNat
  omega

/-- Where the guard lets the response pass and nothing wraps around. -/
theorem conservesGas_iff_of_lt (hbal : Balanced report) {cost : UInt64} (hcost : cost.toNat = readCost deserCost data)
    (hrun : deserializeResponse t gasLimit deserCost report data = .ok (t.decode data, report.charge cost)) :
    ConservesGas t gasLimit deserCost report data ↔ readCost deserCost data ≤ report.remaining.toNat := by
  constructor
  · intro h
    by_contra hlt
    obtain ⟨e, herr⟩ := h.refusal (not_le.1 hlt)
    obtain ⟨-, hsame⟩ := Prod.mk.inj (Except.ok.inj (hrun.symm.trans herr))
    rw [charge_eq_self hsame] at hcost
    rw [← hcost] at hlt
    exact hlt (Nat.zero_le _)
  · intro hle
    refine ⟨fun hok ↦ ?_, fun hlt ↦ absurd hle (not_le.2 hlt)⟩
    obtain ⟨-, rfl⟩ := Prod.mk.inj (Except.ok.inj (hrun.symm.trans hok))
    rw [← hcost] at hle ⊢
    exact hbal.charge hle

/-- Where the guard lets the response pass at a cost that is too low. -/
theorem conservesGas_iff_of_wrap {cost : UInt64} (hcost : cost.toNat < readCost deserCost data)
    (hrun : deserializeResponse t gasLimit deserCost report data = .ok (t.decode data, report.charge cost)) :
    ConservesGas t gasLimit deserCost report data ↔ (∀ response, t.decode data ≠ .ok response) ∧
      (readCost deserCost data ≤ report.remaining.toNat ∨ cost.toNat = 0) := by
  constructor
  · intro h
    refine ⟨fun response hok ↦ ?_, ?_⟩
    · rw [hok] at hrun
      have hused := (h.success hrun).2
      have hle : (report.charge cost).usedInternally.toNat ≤ report.usedInternally.toNat + cost.toNat := by
        change (report.usedInternally + cost).toNat ≤ _
        rw [UInt64.toNat_add]
        exact Nat.mod_le _ _
      omega
    · by_cases hle : readCost deserCost data ≤ report.remaining.toNat
      · exact .inl hle
      · obtain ⟨e, herr⟩ := h.refusal (not_le.1 hle)
        obtain ⟨-, hsame⟩ := Prod.mk.inj (Except.ok.inj (hrun.symm.trans herr))
        rw [charge_eq_self hsame]
        exact .inr rfl
  · rintro ⟨hunread, hcovered⟩
    refine ⟨fun {response _} hok ↦ ?_, fun hlt ↦ ?_⟩
    · obtain ⟨hdec, -⟩ := Prod.mk.inj (Except.ok.inj (hrun.symm.trans hok))
      exact absurd hdec (hunread response)
    · have hzero : cost = 0 := UInt64.toNat_inj.1 (hcovered.resolve_left (not_le.2 hlt))
      have hsame : report.charge 0 = report := by simp [GasReport.charge]
      rcases hdec : t.decode data with e | response
      · exact ⟨e, by rw [hrun, hdec, hzero, hsame]⟩
      · exact absurd hdec (hunread response)

/-- A response is accounted for exactly when the remaining gas pays for it or the guard notices that it does not. -/
theorem conservesGas_iff (hlimit : report.limit = gasLimit) (hbal : Balanced report) :
    ConservesGas t gasLimit deserCost report data ↔ Covered t deserCost report data := by
  by_cases hden : deserCost.denominator = 0
  · obtain ⟨p, hp⟩ : ∃ p, deserializeResponse t gasLimit deserCost report data = .error p :=
      deserializeResponse_panics hden
    refine iff_of_true ⟨fun hok ↦ ?_, fun hlt ↦ ?_⟩ (.inl hden)
    · cases hp.symm.trans hok
    · rw [readCost, hden] at hlt
      exact absurd hlt (by simp)
  have hsum : gasLimit.toNat = report.remaining.toNat + report.usedInternally.toNat + report.usedExternally.toNat := by
    rw [← hlimit]
    exact hbal
  have hlt := gasLimit.toNat_lt
  obtain ⟨cost, hcost, ⟨hguard, e, hrefused⟩ | ⟨hguard, hrun⟩⟩ : ∃ cost : UInt64, _ ∧ (_ ∨ _) :=
    deserializeResponse_cases hden
  · have hc := cost.toNat_lt
    refine iff_of_true ⟨fun hok ↦ ?_, fun _ ↦ ⟨e, hrefused⟩⟩ (.inr (.inr (.inl (by omega))))
    cases hrefused.symm.trans hok
  · have hunnoticed : ¬ (report.remaining.toNat + report.usedExternally.toNat < wrappedCost deserCost data ∧
        wrappedCost deserCost data + report.usedInternally.toNat < 2 ^ 64) := by omega
    rw [Covered, or_iff_right hden, or_iff_right hunnoticed]
    rcases Nat.lt_or_ge (data.length * deserCost.numerator.toNat) (2 ^ 64) with hfits | hwraps
    · rw [wrappedCost_of_lt hfits] at hcost
      rw [conservesGas_iff_of_lt hbal hcost hrun, and_iff_right hfits, or_iff_left fun h ↦ absurd hfits (not_lt.2 h.1)]
    · have hlow := wrappedCost_lt hden hwraps
      have hunfit : ¬ (data.length * deserCost.numerator.toNat < 2 ^ 64 ∧
          readCost deserCost data ≤ report.remaining.toNat) := fun h ↦ absurd h.1 (not_lt.2 hwraps)
      rw [conservesGas_iff_of_wrap (hcost ▸ hlow) hrun, or_iff_right hunfit, and_iff_right hwraps, ← hcost]

/-- Responses that are their own bytes. -/
def rawResponse : ResponseType Bytes := ⟨.ok, fun _ ↦ none⟩

/-- Most of the gas went to the host. -/
def hostReport : GasReport := ⟨1000, 100, 800, 100⟩

theorem conservesGas_covered : ConservesGas rawResponse 1000 ⟨10, 1⟩ hostReport [1, 2, 3] := by
  have hbal : Balanced hostReport := by decide
  exact (conservesGas_iff rfl hbal).2 (.inr (.inl (by decide)))

/-- The response costs twice what remains, but the guard compares it with what the contract itself has not used, and
the remaining gas wraps around. -/
theorem remaining_wraps_around :
    Balanced hostReport ∧ hostReport.remaining.toNat < readCost ⟨10, 1⟩ (List.replicate 20 0) ∧
      deserializeResponse rawResponse 1000 ⟨10, 1⟩ hostReport (List.replicate 20 0) =
        .ok (.ok (List.replicate 20 0), ⟨1000, 18446744073709551516, 800, 300⟩) ∧
      ¬ ConservesGas rawResponse 1000 ⟨10, 1⟩ hostReport (List.replicate 20 0) := by
  have hrun : deserializeResponse rawResponse 1000 ⟨10, 1⟩ hostReport (List.replicate 20 0) =
      .ok (.ok (List.replicate 20 0), ⟨1000, 18446744073709551516, 800, 300⟩) := rfl
  refine ⟨by decide, by decide, hrun, fun h ↦ ?_⟩
  obtain ⟨hbal, -⟩ := h.success hrun
  exact absurd hbal (by decide)

end Cosmwasgo.Properties
