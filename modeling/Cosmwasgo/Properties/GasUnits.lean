import Cosmwasgo.Properties.Charges

namespace Cosmwasgo.Properties

open Cosmwasgo.Lib Cosmwasgo.Types Cosmwasgo.State Cosmwasgo.Keeper Cosmwasgo.Runs

variable {X ρ α β : Type} {k : Keeper X} {h : ResponseHandler X} {c : Ctx} {w w' : World X}

/-- Where a callback of the VM takes its readings: from the meter it was handed, around an access of the contract's
store, or from the querier, around a query. -/
inductive Reading
  | store
  | querier
  deriving DecidableEq

def Reading.meter (entry : EntryPoint) : Reading → VMGasMeter
  | .store => handedMeter entry
  | .querier => .multiplied

/-- All a contract does is measured callbacks. -/
theorem runVM_measured {querier : QueryRequest → Gas → M X (Except Err Bytes)} {addr : AccAddress} (entry : EntryPoint)
    (script : VMScript ρ) : (∃ gasUsed result, script = .done gasUsed result) ∨
      ∃ (β : Type) (s : Reading) (op : M X β) (spent : Gas) (next : β → Gas → VMScript ρ),
        runVM k (handedMeter entry) querier addr script = hostCall spent (measured k (s.meter entry) op) fun b g ↦
          runVM k (handedMeter entry) querier addr (next b g) := by
  cases script with
  | done gasUsed result => exact .inl ⟨gasUsed, result, rfl⟩
  | get spent key next => exact .inr ⟨_, .store, _, spent, next, rfl⟩
  | set spent key value next => exact .inr ⟨_, .store, _, spent, fun _ ↦ next, rfl⟩
  | remove spent key next => exact .inr ⟨_, .store, _, spent, fun _ ↦ next, rfl⟩
  | scan spent start stop descending next => exact .inr ⟨_, .store, _, spent, next, rfl⟩
  | query spent gasLimit request next => exact .inr ⟨_, .querier, _, spent, next, rfl⟩

section Units

variable {g : WasmGasRegisterConfig} {d : Nat} {b : β} {used : Gas}

/-- What a callback reports is the difference of two readings. -/
theorem measured_eq_ok {m : VMGasMeter} {op : M X β} (hr : measured k m op w = (.ok (b, used), w')) :
    ∃ before after, m.gasConsumed k w.meter.consumed = .ok before ∧ m.gasConsumed k w'.meter.consumed = .ok after ∧
      used = after - before := by
  have reads : ∀ {w : World X} {r w'}, readMeter k m w = (.ok r, w') → m.gasConsumed k w.meter.consumed = .ok r ∧ w' = w := by
    intro w r w' hread
    rw [readMeter, Program.read_bind_apply] at hread
    cases hg : m.gasConsumed k w.meter.consumed with
    | error p => rw [hg] at hread; cases hread
    | ok r' => rw [hg] at hread; cases hread; exact ⟨rfl, rfl⟩
  obtain ⟨before, w₁, h₁, hr⟩ := Program.bind_eq_ok.1 hr
  obtain ⟨b', w₂, hop, hr⟩ := Program.bind_eq_ok.1 hr
  obtain ⟨after, w₃, h₃, hr⟩ := Program.bind_eq_ok.1 hr
  cases hr
  obtain ⟨hbefore, rfl⟩ := reads h₁
  obtain ⟨hafter, rfl⟩ := reads h₃
  exact ⟨before, after, hbefore, hafter, rfl⟩

theorem toWasmVMGas_eq_ok {source x : Gas} (hx : WasmGasRegister.toWasmVMGas g source = .ok x) : x = source * g.gasMultiplier := by
  unfold WasmGasRegister.toWasmVMGas at hx
  dsimp only at hx
  split at hx
  · cases hx
  · exact (Except.ok.inj hx).symm

/-- Even after a wrap-around the difference of two products is right modulo the word size. -/
theorem toNat_mul_sub_mul {a a' m : Gas} (ha : a'.toNat = a.toNat + d) :
    (a' * m - a * m).toNat = d * m.toNat % 2 ^ 64 := by
  rw [UInt64.toNat_sub, UInt64.toNat_mul, UInt64.toNat_mul, ha, Nat.add_mul]
  omega

theorem toNat_used_multiplied (hk : k.gasRegister = wasmGasRegister g) {op : M X β}
    (hr : measured k .multiplied op w = (.ok (b, used), w')) (hd : w'.meter.consumed.toNat = w.meter.consumed.toNat + d) :
    used.toNat = d * g.gasMultiplier.toNat % 2 ^ 64 := by
  obtain ⟨before, after, hbefore, hafter, rfl⟩ := measured_eq_ok hr
  unfold VMGasMeter.gasConsumed at hbefore hafter
  rw [hk] at hbefore hafter
  rw [toWasmVMGas_eq_ok hbefore, toWasmVMGas_eq_ok hafter, toNat_mul_sub_mul hd]

theorem toNat_used_original {op : M X β} (hr : measured k .original op w = (.ok (b, used), w'))
    (hd : w'.meter.consumed.toNat = w.meter.consumed.toNat + d) : used.toNat = d := by
  obtain ⟨before, after, hbefore, hafter, rfl⟩ := measured_eq_ok hr
  cases hbefore
  cases hafter
  have := w'.meter.consumed.toNat_lt
  rw [UInt64.toNat_sub, hd]
  omega

/-- A callback reports its gas in the unit of the VM's limit, unless it accesses the store for an IBC entry point:
there the two units agree only by chance. -/
theorem units_agree_iff {w₀ w₁ : World X} (hk : newWasmGasRegister g = .ok k.gasRegister) {e : ContractEntry}
    {v : Invocation X e.Answer e.Result} (hp : e.prepare k h c w₀ = (.ok (some v), w₁)) {s : Reading} {op : M X β}
    (hr : measured k (s.meter v.entry) op w = (.ok (b, used), w'))
    (hd : w'.meter.consumed.toNat = w.meter.consumed.toNat + d) :
    (d * g.gasMultiplier.toNat < 2 ^ 64 → used.toNat = d * g.gasMultiplier.toNat) ↔
      e.entryPoint ≠ .ibc ∨ s = .querier ∨ g.gasMultiplier = 1 ∨ d = 0 ∨ 2 ^ 64 ≤ d * g.gasMultiplier.toNat := by
  have hreg := newWasmGasRegister_eq hk
  have hentry : v.entry = e.entryPoint := (ContractEntry.yields_prepare e hp).entry
  by_cases hmul : e.entryPoint ≠ .ibc ∨ s = .querier
  · have hmeter : s.meter v.entry = .multiplied := by
      rw [hentry]
      rcases hmul with hne | rfl
      · cases s with
        | querier => rfl
        | store =>
          cases hep : e.entryPoint <;> first | rfl | exact absurd hep hne
      · rfl
    rw [hmeter] at hr
    refine iff_of_true (fun hfits ↦ ?_) (by tauto)
    rw [toNat_used_multiplied hreg hr hd, Nat.mod_eq_of_lt hfits]
  · obtain ⟨hibc, hstore⟩ := not_or.1 hmul
    obtain rfl : s = .store := by
      cases s with
      | store => rfl
      | querier => exact absurd rfl hstore
    rw [hentry, not_not.1 hibc] at hr
    rw [toNat_used_original hr hd]
    have hone : d = d * g.gasMultiplier.toNat ↔ g.gasMultiplier = 1 ∨ d = 0 := by
      rcases Nat.eq_zero_or_pos d with rfl | hpos
      · simp
      · rw [eq_comm, Nat.mul_eq_left hpos.ne', or_iff_left hpos.ne', ← UInt64.toNat_inj]
        rfl
    rw [hone]
    constructor
    · intro himp
      by_cases hfits : d * g.gasMultiplier.toNat < 2 ^ 64
      · exact .inr (.inr ((himp hfits).imp_right .inl))
      · exact .inr (.inr (.inr (.inr (not_lt.1 hfits))))
    · rintro (hne | hq | h | h | hbig) hfits
      · exact absurd hne hibc
      · cases hq
      · exact .inl h
      · exact .inr h
      · exact absurd hfits (not_lt.2 hbig)

end Units

section Devnet

/-- A read of the contract's store from the VM. -/
def readStore (v : Invocation Unit ρ α) : M Unit (Option Bytes × Gas) :=
  let k := chargenet defaultGasRegisterConfig
  measured k (Reading.store.meter v.entry) (contractGet k v.addr [1])

/-- What the contract is told the read took, and what the meter of the context rose by. -/
def readTook (v : Invocation Unit ρ α) (w : World Unit) : Option (Gas × Nat) :=
  match readStore v w with
  | (.ok (_, used), w') => some (used, w'.meter.consumed.toNat - w.meter.consumed.toNat)
  | _ => none

theorem readTook_eq_some {v : Invocation Unit ρ α} {w : World Unit} {used : Gas} {d : Nat}
    (hx : readTook v w = some (used, d)) (hd : 0 < d) :
    ∃ b w', readStore v w = (.ok (b, used), w') ∧ w'.meter.consumed.toNat = w.meter.consumed.toNat + d := by
  unfold readTook at hx
  rcases hr : readStore v w with ⟨_ | _ | _ | _, w'⟩ <;> rw [hr] at hx <;> cases hx
  exact ⟨_, w', rfl, by omega⟩

def chargeRead (e : ContractEntry) : Option (Option (Gas × Nat)) :=
  let r := chargePrepared defaultGasRegisterConfig e
  (Invocation.ofOutcome r.1).map (readTook · r.2)

theorem exists_of_chargeRead {e : ContractEntry} {x : Gas × Nat} (hx : chargeRead e = some (some x)) :
    ∃ v w₁, chargePrepared defaultGasRegisterConfig e = (.ok (some v), w₁) ∧ readTook v w₁ = some x :=
  Invocation.exists_of_ofOutcome hx

theorem units_agree_execute : ∃ v w₁ b used w',
    chargePrepared defaultGasRegisterConfig (.execute contractOne [1] [] []) = (.ok (some v), w₁) ∧
      readStore v w₁ = (.ok (b, used), w') ∧ used.toNat = 1000 * defaultGasRegisterConfig.gasMultiplier.toNat := by
  have hx : chargeRead (.execute contractOne [1] [] []) = some (some (140000000, 1000)) := by decide +kernel
  obtain ⟨v, w₁, hp, hx⟩ := exists_of_chargeRead hx
  obtain ⟨b, w', hr, hd⟩ := readTook_eq_some hx (by decide)
  have hk : newWasmGasRegister defaultGasRegisterConfig = .ok (chargenet defaultGasRegisterConfig).gasRegister := rfl
  have hunits := (units_agree_iff hk hp (s := .store) hr hd).2 (.inl (by decide)) (by decide)
  exact ⟨v, w₁, b, _, w', hp, hr, hunits⟩

/-- A contract called back by IBC sees a read cost a hundred and forty thousandth of its price. -/
theorem ibc_gas_unmultiplied : ∃ v w₁ b w',
    chargePrepared defaultGasRegisterConfig (.ibc .channelConnect contractOne []) = (.ok (some v), w₁) ∧
      readStore v w₁ = (.ok (b, 1000), w') ∧ w'.meter.consumed.toNat = w₁.meter.consumed.toNat + 1000 ∧
      (1000 : Gas).toNat ≠ 1000 * defaultGasRegisterConfig.gasMultiplier.toNat ∧
      1000 * defaultGasRegisterConfig.gasMultiplier.toNat < 2 ^ 64 := by
  have hx : chargeRead (.ibc .channelConnect contractOne []) = some (some (1000, 1000)) := by decide +kernel
  obtain ⟨v, w₁, hp, hx⟩ := exists_of_chargeRead hx
  obtain ⟨b, w', hr, hd⟩ := readTook_eq_some hx (by decide)
  exact ⟨v, w₁, b, w', hp, hr, hd, by decide, by decide⟩

end Devnet

end Cosmwasgo.Properties
