import Cosmwasgo.Properties.Charges
import Cosmwasgo.Runs.Dispatch

namespace Cosmwasgo.Properties

open Cosmwasgo.Lib Cosmwasgo.Types Cosmwasgo.State Cosmwasgo.Keeper Cosmwasgo.Runs

variable {X : Type} {k : Keeper X} {g : WasmGasRegisterConfig}

section Product

/-- The conversion gives the exact product, or refuses when it does not fit. -/
def ExactOrRefuses (g : WasmGasRegisterConfig) (source : Gas) : Prop :=
  (source.toNat * g.gasMultiplier.toNat < 2 ^ 64 →
    WasmGasRegister.toWasmVMGas g source = .ok (UInt64.ofNat (source.toNat * g.gasMultiplier.toNat))) ∧
  (2 ^ 64 ≤ source.toNat * g.gasMultiplier.toNat →
    ∃ desc, WasmGasRegister.toWasmVMGas g source = .error (.outOfGas desc))

/-- The product fits, or it is over a multiple of the word size by less than the source. -/
def Detectable (source multiplier : Nat) : Prop :=
  source * multiplier < 2 ^ 64 ∨
    ∃ q, 0 < q ∧ q * 2 ^ 64 ≤ source * multiplier ∧ source * multiplier < q * 2 ^ 64 + source

theorem le_mul_multiplier (hm : g.gasMultiplier ≠ 0) (source : Nat) : source ≤ source * g.gasMultiplier.toNat := by
  have hpos : 0 < g.gasMultiplier.toNat := by
    rw [Nat.pos_iff_ne_zero]
    intro h0
    exact hm (UInt64.toNat_inj.1 h0)
  exact Nat.le_mul_of_pos_right _ hpos

/-- What the comparison of the wrapped product with the source finds. -/
theorem toWasmVMGas_cases (g : WasmGasRegisterConfig) (source : Gas) :
    (source.toNat * g.gasMultiplier.toNat % 2 ^ 64 < source.toNat ∧
      WasmGasRegister.toWasmVMGas g source = .error (.outOfGas "overflow")) ∨
    (source.toNat ≤ source.toNat * g.gasMultiplier.toNat % 2 ^ 64 ∧
      WasmGasRegister.toWasmVMGas g source = .ok (source * g.gasMultiplier)) := by
  unfold WasmGasRegister.toWasmVMGas
  by_cases hlt : source * g.gasMultiplier < source
  · rw [if_pos hlt]
    rw [UInt64.lt_iff_toNat_lt, UInt64.toNat_mul] at hlt
    exact .inl ⟨hlt, rfl⟩
  · rw [if_neg hlt]
    rw [UInt64.lt_iff_toNat_lt, UInt64.toNat_mul, not_lt] at hlt
    exact .inr ⟨hlt, rfl⟩

/-- A product that does not fit is noticed exactly when its remainder is below the source. -/
theorem detectable_of_overflow {source p : Nat} (hs : source < 2 ^ 64) (hp : 2 ^ 64 ≤ p) :
    (∃ q, 0 < q ∧ q * 2 ^ 64 ≤ p ∧ p < q * 2 ^ 64 + source) ↔ p % 2 ^ 64 < source := by
  constructor
  · rintro ⟨q, -, hle, hlt⟩
    omega
  · intro hlt
    exact ⟨p / 2 ^ 64, by omega, by omega, by omega⟩

theorem ofNat_mul_multiplier (source : Gas) :
    UInt64.ofNat (source.toNat * g.gasMultiplier.toNat) = source * g.gasMultiplier := by
  rw [← UInt64.toNat_inj, UInt64.toNat_ofNat', UInt64.toNat_mul]

theorem exactOrRefuses_iff (hm : g.gasMultiplier ≠ 0) (source : Gas) :
    ExactOrRefuses g source ↔ Detectable source.toNat g.gasMultiplier.toNat := by
  have hle := le_mul_multiplier hm source.toNat
  have hs := source.toNat_lt
  rcases Nat.lt_or_ge (source.toNat * g.gasMultiplier.toNat) (2 ^ 64) with hfits | hover
  · refine iff_of_true ⟨fun _ ↦ ?_, fun hover ↦ absurd hfits (not_lt.2 hover)⟩ (.inl hfits)
    rcases toWasmVMGas_cases g source with ⟨hlt, -⟩ | ⟨-, hok⟩
    · rw [Nat.mod_eq_of_lt hfits] at hlt
      exact absurd hle (not_le.2 hlt)
    · rw [hok, ofNat_mul_multiplier]
  · rw [Detectable, or_iff_right (not_lt.2 hover), detectable_of_overflow hs hover]
    rcases toWasmVMGas_cases g source with ⟨hlt, herr⟩ | ⟨hge, hok⟩
    · exact iff_of_true ⟨fun hfits ↦ absurd hfits (not_lt.2 hover), fun _ ↦ ⟨_, herr⟩⟩ hlt
    · refine iff_of_false (fun ⟨_, hrefuses⟩ ↦ ?_) (not_lt.2 hge)
      obtain ⟨desc, herr⟩ := hrefuses hover
      cases hok.symm.trans herr

/-- Where the conversion returns, it returns the product, if the overflow is noticed. -/
theorem exact_of_ok_iff (hm : g.gasMultiplier ≠ 0) (source : Gas) :
    (∀ gas, WasmGasRegister.toWasmVMGas g source = .ok gas → gas.toNat = source.toNat * g.gasMultiplier.toNat) ↔
      Detectable source.toNat g.gasMultiplier.toNat := by
  have hs := source.toNat_lt
  rcases Nat.lt_or_ge (source.toNat * g.gasMultiplier.toNat) (2 ^ 64) with hfits | hover
  · refine iff_of_true (fun gas hok ↦ ?_) (.inl hfits)
    obtain ⟨hexact, -⟩ := (exactOrRefuses_iff hm source).2 (.inl hfits)
    obtain rfl := Except.ok.inj (hok.symm.trans (hexact hfits))
    rw [UInt64.toNat_ofNat', Nat.mod_eq_of_lt hfits]
  · rw [Detectable, or_iff_right (not_lt.2 hover), detectable_of_overflow hs hover]
    rcases toWasmVMGas_cases g source with ⟨hlt, herr⟩ | ⟨hge, hok⟩
    · exact iff_of_true (fun gas hok ↦ by cases herr.symm.trans hok) hlt
    · refine iff_of_false (fun hexact ↦ ?_) (not_lt.2 hge)
      have hlt := (source * g.gasMultiplier).toNat_lt
      rw [hexact _ hok] at hlt
      exact absurd hlt (not_lt.2 hover)

end Product

section Meter

variable {w : World X}

/-- The gas a meter has left. -/
def gasLeftOn (m : GasMeter) : Nat := m.limit.toNat - m.consumed.toNat

/-- The VM is not given more or less gas than what is left on the meter. -/
def ExactLimit (k : Keeper X) (g : WasmGasRegisterConfig) (w : World X) : Prop :=
  ∀ gas w', runtimeGasForContract k w = (.ok gas, w') → gas.toNat = gasLeftOn w.meter * g.gasMultiplier.toNat

/-- The VM does not read a wrong consumption from the meter. -/
def ExactReading (k : Keeper X) (g : WasmGasRegisterConfig) (w : World X) : Prop :=
  ∀ gas, VMGasMeter.multiplied.gasConsumed k w.meter.consumed = .ok gas →
    gas.toNat = w.meter.consumed.toNat * g.gasMultiplier.toNat

/-- Nothing is left, the limit is taken for no limit and its product happens to be right, or an overflow of the product
is noticed. -/
def LimitDetectable (g : WasmGasRegisterConfig) (m : GasMeter) : Prop :=
  m.limit ≤ m.consumed ∨
    if m.limit = maxUint64 then gasLeftOn m * g.gasMultiplier.toNat = 2 ^ 64 - 1
    else Detectable (gasLeftOn m) g.gasMultiplier.toNat

theorem toNat_sub_min {m : GasMeter} (h : m.consumed < m.limit) :
    (m.limit - min m.consumed m.limit).toNat = gasLeftOn m := by
  have hle : m.consumed ≤ m.limit := UInt64.le_of_lt h
  have hmin : min m.consumed m.limit = m.consumed := if_pos hle
  rw [hmin, UInt64.toNat_sub_of_le _ _ hle, gasLeftOn]

/-- The VM gas limit under a meter that has gas left. -/
theorem runtimeGasForContract_of_lt (hfin : w.meter.infinite = false) (hlt : w.meter.consumed < w.meter.limit) :
    runtimeGasForContract k w = if w.meter.limit = maxUint64 then (.ok maxUint64, w)
      else liftPanic (k.gasRegister.toWasmVMGas (w.meter.limit - min w.meter.consumed w.meter.limit)) w := by
  have hout : w.meter.isOutOfGas = false := by
    rw [GasMeter.isOutOfGas, hfin]
    simpa using hlt
  unfold runtimeGasForContract
  rw [Program.read_bind_apply]
  simp only [hout, hfin, Bool.false_or, Bool.false_eq_true, if_false, decide_eq_true_eq]
  split <;> rfl

theorem runtimeGasForContract_of_le (hfin : w.meter.infinite = false) (hle : w.meter.limit ≤ w.meter.consumed) :
    runtimeGasForContract k w = (.ok 0, w) := by
  have hout : w.meter.isOutOfGas = true := by
    rw [GasMeter.isOutOfGas, hfin]
    simpa using hle
  unfold runtimeGasForContract
  rw [Program.read_bind_apply, if_pos hout]
  rfl

theorem exactLimit_iff (hk : k.gasRegister = wasmGasRegister g) (hm : g.gasMultiplier ≠ 0)
    (hfin : w.meter.infinite = false) : ExactLimit k g w ↔ LimitDetectable g w.meter := by
  unfold ExactLimit LimitDetectable
  rcases UInt64.lt_or_le w.meter.consumed w.meter.limit with hlt | hle
  · rw [or_iff_right (UInt64.not_le.2 hlt), runtimeGasForContract_of_lt hfin hlt]
    split
    · constructor
      · intro hexact
        exact (hexact maxUint64 w rfl).symm
      · rintro heq gas w' hr
        cases hr
        exact heq.symm
    · rw [← toNat_sub_min hlt, ← exact_of_ok_iff hm, hk]
      simp only [liftPanic_eq_ok]
      exact ⟨fun h gas hok ↦ h gas w ⟨hok, rfl⟩, fun h gas w' hr ↦ h gas hr.1⟩
  · refine iff_of_true (fun gas w' hr ↦ ?_) (.inl hle)
    rw [runtimeGasForContract_of_le hfin hle] at hr
    cases hr
    rw [gasLeftOn, Nat.sub_eq_zero_of_le (UInt64.le_iff_toNat_le.1 hle), Nat.zero_mul]
    rfl

theorem exactReading_iff (hk : k.gasRegister = wasmGasRegister g) (hm : g.gasMultiplier ≠ 0) :
    ExactReading k g w ↔ Detectable w.meter.consumed.toNat g.gasMultiplier.toNat := by
  rw [ExactReading, ← exact_of_ok_iff hm, VMGasMeter.gasConsumed, hk]
  rfl

theorem multiplier_ne_zero {r : GasRegister} (hr : newWasmGasRegister g = .ok r) : g.gasMultiplier ≠ 0 := by
  intro h0
  rw [newWasmGasRegister, if_pos h0] at hr
  cases hr

/-- Conversions are exact where an overflow of the product can be told from the wrapped result, and only there. -/
theorem conversions_exact_iff (hk : newWasmGasRegister g = .ok k.gasRegister) :
    (∀ source, ExactOrRefuses g source ↔ Detectable source.toNat g.gasMultiplier.toNat) ∧
    ∀ w : World X, w.meter.infinite = false →
      (ExactLimit k g w ↔ LimitDetectable g w.meter) ∧
      (ExactReading k g w ↔ Detectable w.meter.consumed.toNat g.gasMultiplier.toNat) := by
  have hm := multiplier_ne_zero hk
  have hreg := newWasmGasRegister_eq hk
  exact ⟨exactOrRefuses_iff hm, fun w hfin ↦ ⟨exactLimit_iff hreg hm hfin, exactReading_iff hreg hm⟩⟩

theorem conversions_exact_million :
    ExactOrRefuses defaultGasRegisterConfig 1000000 ∧
      ExactLimit (chargenet defaultGasRegisterConfig) defaultGasRegisterConfig { emptyWorld with meter := .new 1000000 } := by
  have hk : newWasmGasRegister defaultGasRegisterConfig = .ok (chargenet defaultGasRegisterConfig).gasRegister := rfl
  obtain ⟨hproduct, hmeter⟩ := conversions_exact_iff hk
  refine ⟨(hproduct 1000000).2 (.inl (by decide)), ?_⟩
  obtain ⟨hlimit, -⟩ := hmeter { emptyWorld with meter := .new 1000000 } rfl
  exact hlimit.2 (.inr (.inl (by decide)))

/-- With the default multiplier the product is over the word size by more than the source here, and is taken for
exact. -/
theorem overflow_unnoticed :
    2 ^ 64 ≤ (140000000000000 : Gas).toNat * defaultGasRegisterConfig.gasMultiplier.toNat ∧
      WasmGasRegister.toWasmVMGas defaultGasRegisterConfig 140000000000000 = .ok 1153255926290448384 ∧
      ¬ ExactOrRefuses defaultGasRegisterConfig 140000000000000 := by
  have hover : 2 ^ 64 ≤ (140000000000000 : Gas).toNat * defaultGasRegisterConfig.gasMultiplier.toNat := by decide
  have hok : WasmGasRegister.toWasmVMGas defaultGasRegisterConfig 140000000000000 = .ok 1153255926290448384 := rfl
  refine ⟨hover, hok, fun ⟨_, hrefuses⟩ ↦ ?_⟩
  obtain ⟨desc, herr⟩ := hrefuses hover
  cases hok.symm.trans herr

end Meter

section Charge

variable {w w₁ : World X}

/-- The meter once the work of the VM is charged. -/
theorem consumeRuntimeGas_of_le (used : Gas) (hk : k.gasRegister = wasmGasRegister g) (hfin : w.meter.infinite = false)
    (hle : w.meter.consumed.toNat + used.toNat / g.gasMultiplier.toNat ≤ w.meter.limit.toNat) :
    (consumeRuntimeGas k used w).2.meter.consumed.toNat =
        w.meter.consumed.toNat + used.toNat / g.gasMultiplier.toNat ∧
      (consumeRuntimeGas k used w).1 =
        if w.meter.consumed.toNat + used.toNat / g.gasMultiplier.toNat = w.meter.limit.toNat
        then .panic (.outOfGas "Wasm engine function execution") else .ok () := by
  have hcharge : (WasmGasRegister.fromWasmVMGas g used).toNat = used.toNat / g.gasMultiplier.toNat :=
    UInt64.toNat_div _ _
  rw [← hcharge] at hle ⊢
  have hl := w.meter.limit.toNat_lt
  let m' := { w.meter with consumed := w.meter.consumed + WasmGasRegister.fromWasmVMGas g used }
  have hadd : m'.consumed.toNat = w.meter.consumed.toNat + (WasmGasRegister.fromWasmVMGas g used).toNat := by
    rw [UInt64.toNat_add, Nat.mod_eq_of_lt (by omega)]
  have hconsume : consumeGas (WasmGasRegister.fromWasmVMGas g used) "wasm contract" w = (.ok (), { w with meter := m' }) :=
    consumeGas_none (GasMeter.consume_fits hfin _ hle)
  have hout : m'.isOutOfGas = true ↔ m'.consumed.toNat = w.meter.limit.toNat := by
    change (!w.meter.infinite && decide (w.meter.limit ≤ m'.consumed)) = true ↔ _
    rw [hfin, Bool.not_false, Bool.true_and, decide_eq_true_eq, UInt64.le_iff_toNat_le]
    omega
  have hrun : consumeRuntimeGas k used w =
      (if m'.isOutOfGas then Program.raise (.outOfGas "Wasm engine function execution") else pure () : M X Unit)
        { w with meter := m' } := by
    unfold consumeRuntimeGas
    rw [hk]
    exact Program.bind_of_ok _ hconsume
  rw [hrun, ← hadd]
  by_cases heq : m'.consumed.toNat = w.meter.limit.toNat
  · rw [if_pos (hout.2 heq), if_pos heq]
    exact ⟨rfl, rfl⟩
  · rw [if_neg (mt hout.1 heq), if_neg heq]
    exact ⟨rfl, rfl⟩

/-- What the VM has left in its own unit, divided by the multiplier, fits on the meter. -/
theorem charge_le {left m u e : Nat} (hm : 0 < m) (hu : u + e * m ≤ left * m) : e + u / m ≤ left := by
  have hdiv : (u + e * m) / m ≤ left := Nat.div_le_of_le_mul (by rwa [Nat.mul_comm m left])
  rw [Nat.add_mul_div_right _ _ hm] at hdiv
  omega

/-- Work that the VM did within its limit is charged to the meter exactly, but for less than one unit, and the meter
is exhausted exactly when its limit is reached. -/
theorem runtime_gas_charged {gasLeft used : Gas} {e : Nat} (hk : newWasmGasRegister g = .ok k.gasRegister) (hfin : w.meter.infinite = false)
    (hlimit : w.meter.limit ≠ maxUint64) (hlt : w.meter.consumed < w.meter.limit)
    (hfits : gasLeftOn w.meter * g.gasMultiplier.toNat < 2 ^ 64)
    (hstart : (runtimeGasForContract k w).1 = .ok gasLeft)
    (hfin₁ : w₁.meter.infinite = false) (hlimit₁ : w₁.meter.limit = w.meter.limit)
    (hcalls : w₁.meter.consumed.toNat = w.meter.consumed.toNat + e)
    (hused : used.toNat + e * g.gasMultiplier.toNat ≤ gasLeft.toNat) :
    let charged := e + used.toNat / g.gasMultiplier.toNat
    (consumeRuntimeGas k used w₁).2.meter.consumed.toNat = w.meter.consumed.toNat + charged ∧
      w.meter.consumed.toNat + charged ≤ w.meter.limit.toNat ∧
      ((∃ desc, (consumeRuntimeGas k used w₁).1 = .panic (.outOfGas desc)) ↔
        w.meter.consumed.toNat + charged = w.meter.limit.toNat) ∧
      (w.meter.consumed.toNat + charged ≠ w.meter.limit.toNat → (consumeRuntimeGas k used w₁).1 = .ok () ∧
        charged * g.gasMultiplier.toNat ≤ used.toNat + e * g.gasMultiplier.toNat ∧
        used.toNat + e * g.gasMultiplier.toNat < (charged + 1) * g.gasMultiplier.toNat) := by
  have hm := multiplier_ne_zero hk
  have hreg := newWasmGasRegister_eq hk
  have hpos : 0 < g.gasMultiplier.toNat := Nat.lt_of_lt_of_le Nat.one_pos (by simpa using le_mul_multiplier hm 1)
  -- the VM was started with the exact product
  have hgas : gasLeft.toNat = gasLeftOn w.meter * g.gasMultiplier.toNat := by
    have hexact := (exactLimit_iff hreg hm hfin).2 (.inr (by rw [if_neg hlimit]; exact .inl hfits))
    rcases hr : runtimeGasForContract k w with ⟨r, w'⟩
    rw [hr] at hstart
    obtain rfl : r = .ok gasLeft := hstart
    exact hexact _ _ hr
  rw [hgas] at hused
  have hcharge := charge_le hpos hused
  have hleft : gasLeftOn w.meter = w.meter.limit.toNat - w.meter.consumed.toNat := rfl
  have hsum : w.meter.consumed.toNat + (e + used.toNat / g.gasMultiplier.toNat) ≤ w.meter.limit.toNat := by
    rw [UInt64.lt_iff_toNat_lt] at hlt
    omega
  obtain ⟨hmeter, hexit⟩ := consumeRuntimeGas_of_le used hreg hfin₁ (by rw [hcalls, hlimit₁]; omega)
  rw [hcalls, Nat.add_assoc] at hmeter hexit
  rw [hlimit₁] at hexit
  refine ⟨hmeter, hsum, ?_, fun hne ↦ ?_⟩
  · rw [hexit]
    split
    · next heq => exact iff_of_true ⟨_, rfl⟩ heq
    · next hne => exact iff_of_false (fun ⟨_, hp⟩ ↦ by cases hp) hne
  · rw [hexit, if_neg hne]
    have hdiv := Nat.div_add_mod' used.toNat g.gasMultiplier.toNat
    have hmod := Nat.mod_lt used.toNat hpos
    refine ⟨rfl, ?_, ?_⟩
    · rw [Nat.add_mul]
      omega
    · rw [Nat.add_mul, Nat.add_mul, Nat.one_mul]
      omega

/-- An empty world whose meter stands at the given consumption. -/
def metered (limit consumed : Gas) : World Unit := { emptyWorld with meter := ⟨limit, consumed, false⟩ }

theorem runtime_gas_charged_once :
    (runtimeGasForContract (chargenet defaultGasRegisterConfig) (metered 1000 100)).1 = .ok 126000000 ∧
      (consumeRuntimeGas (chargenet defaultGasRegisterConfig) 7000001 (metered 1000 150)).2.meter.consumed.toNat = 200 := by
  have hstart : (runtimeGasForContract (chargenet defaultGasRegisterConfig) (metered 1000 100)).1 = .ok 126000000 := by
    decide
  have hk : newWasmGasRegister defaultGasRegisterConfig = .ok (chargenet defaultGasRegisterConfig).gasRegister := rfl
  have hfin₁ : (metered 1000 150).meter.infinite = false := rfl
  have hused : (7000001 : Gas).toNat + 50 * defaultGasRegisterConfig.gasMultiplier.toNat ≤ (126000000 : Gas).toNat := by
    decide
  obtain ⟨hmeter, -⟩ := runtime_gas_charged hk rfl (by decide) (by decide) (by decide) hstart hfin₁ rfl (by decide) hused
  exact ⟨hstart, hmeter⟩

/-- A meter whose limit is the greatest number is taken for an infinite one: the VM may do work that does not fit on
it. -/
theorem greatest_limit_overshot :
    gasLeftOn (metered maxUint64 (maxUint64 - 1)).meter * defaultGasRegisterConfig.gasMultiplier.toNat < 2 ^ 64 ∧
      (runtimeGasForContract (chargenet defaultGasRegisterConfig) (metered maxUint64 (maxUint64 - 1))).1 = .ok maxUint64 ∧
      maxUint64.toNat < (maxUint64 - 1).toNat + maxUint64.toNat / defaultGasRegisterConfig.gasMultiplier.toNat ∧
      (consumeRuntimeGas (chargenet defaultGasRegisterConfig) maxUint64 (metered maxUint64 (maxUint64 - 1))).1 =
        .panic (.gasOverflow "wasm contract") := by
  refine ⟨by decide, by decide, by decide, by decide⟩

end Charge

end Cosmwasgo.Properties
