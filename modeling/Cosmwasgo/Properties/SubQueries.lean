import Cosmwasgo.Properties.GasConversion

namespace Cosmwasgo.Properties

open Cosmwasgo.Lib Cosmwasgo.Types Cosmwasgo.State Cosmwasgo.Keeper Cosmwasgo.Runs

variable {X : Type} {k : Keeper X}

/-- `QueryHandler.Query` on top of any query plugins. -/
def queryWith (k : Keeper X) (handleQuery : M X Bytes) (gasLimit : Gas) : M X (Except Err Bytes) := do
  let sdkGas ← liftPanic (k.gasRegister.fromWasmVMGas gasLimit)
  subQuery sdkGas handleQuery

theorem query_succ (fuel : Nat) (c : Ctx) (caller : AccAddress) (request : QueryRequest) (gasLimit : Gas) :
    query k (fuel + 1) c caller request gasLimit =
      queryWith k (handleQuery k (query k fuel) c caller request) gasLimit := rfl

/-- The plugins at work in the cached context of the sub-query, under a meter of their own. -/
def subRun (m : M X Bytes) (sdkGas : Gas) (w : World X) : Outcome Err Panic Bytes × World X :=
  m { w with events := [], meter := .new sdkGas }

/-- The gas consumed on the sub-query's meter. -/
def subSpent (m : M X Bytes) (sdkGas : Gas) (w : World X) : Gas := (subRun m sdkGas w).2.meter.consumed

/-- How the caller sees the sub-query end: by a panic of its own meter, or as the plugins did. -/
def subQueryEnd (charge : Option Panic × GasMeter) (r : Outcome Err Panic Bytes) : Outcome Err Panic (Except Err Bytes) :=
  match charge.1 with
  | some p => .panic p
  | none => subQueryResult r

section Isolation

variable {m : M X Bytes} {sdkGas : Gas} {w : World X}

theorem chargeCaller_apply {r : Outcome Err Panic Bytes} (hr : r ≠ .timeout) (spent : Gas) (w : World X) :
    chargeCaller r spent w = (subQueryEnd (w.meter.consume spent "contract sub-query") r,
      { w with meter := (w.meter.consume spent "contract sub-query").2 }) := by
  have hcharge : chargeCaller r spent w =
      (consumeGas spent "contract sub-query" >>= fun _ ↦ Program.finish (subQueryResult r)) w := by
    cases r with
    | timeout => exact absurd rfl hr
    | ok b => rfl
    | error e => rfl
    | panic p => rfl
  rw [hcharge]
  rcases hc : w.meter.consume spent "contract sub-query" with ⟨_ | p, meter⟩
  · rw [Program.bind_of_ok _ (consumeGas_none hc)]
    rfl
  · rw [Program.bind_of_panic _ (consumeGas_some hc)]
    rfl

/-- Nothing of a sub-query stays but the charge. -/
theorem subQuery_apply (hm : (subRun m sdkGas w).1 ≠ .timeout) :
    subQuery sdkGas m w = (subQueryEnd (w.meter.consume (subSpent m sdkGas w) "contract sub-query") (subRun m sdkGas w).1,
      { (subRun m sdkGas w).2 with
        store := w.store, events := w.events
        meter := (w.meter.consume (subSpent m sdkGas w) "contract sub-query").2 }) := by
  have hrun : subQuery sdkGas m w =
      let r := chargeCaller (subRun m sdkGas w).1 (subSpent m sdkGas w) { (subRun m sdkGas w).2 with meter := w.meter }
      (r.1, { r.2 with store := w.store, events := w.events }) := rfl
  rw [hrun, chargeCaller_apply hm]

theorem queryWith_apply {gasLimit : Gas} (hgas : k.gasRegister.fromWasmVMGas gasLimit = .ok sdkGas) :
    queryWith k m gasLimit w = subQuery sdkGas m w := by
  rw [queryWith, hgas]
  rfl

/-- The meter can take the amount. -/
def HasRoom (meter : GasMeter) (amount : Gas) : Prop :=
  meter.consumed.toNat + amount.toNat < 2 ^ 64 ∧
    (meter.infinite = false → meter.consumed.toNat + amount.toNat ≤ meter.limit.toNat)

theorem HasRoom.consume {meter : GasMeter} {amount : Gas} (h : HasRoom meter amount) (desc : String) :
    meter.consume amount desc = (none, { meter with consumed := meter.consumed + amount }) := by
  by_cases hi : meter.infinite = true
  · exact GasMeter.consume_infinite hi amount desc
  · have hfin := Bool.eq_false_iff.2 hi
    exact GasMeter.consume_fits hfin desc (h.2 hfin)

/-- Whatever the plugins do, nothing of it is left for the caller but the gas it took: the store and the events are as
they were, and the meter rose by what was consumed on the meter of the sub-query. -/
theorem query_isolated :
    (∀ (m : M X Bytes) (gasLimit sdkGas : Gas) (w : World X), k.gasRegister.fromWasmVMGas gasLimit = .ok sdkGas →
      (subRun m sdkGas w).1 ≠ .timeout → HasRoom w.meter (subSpent m sdkGas w) →
      (queryWith k m gasLimit w).1 = subQueryResult (subRun m sdkGas w).1 ∧
      (queryWith k m gasLimit w).2.store = w.store ∧ (queryWith k m gasLimit w).2.events = w.events ∧
      (queryWith k m gasLimit w).2.meter = { w.meter with consumed := w.meter.consumed + subSpent m sdkGas w } ∧
      (queryWith k m gasLimit w).2.meter.consumed.toNat = w.meter.consumed.toNat + (subSpent m sdkGas w).toNat) ∧
    ∀ fuel c caller request gasLimit, query k (fuel + 1) c caller request gasLimit =
      queryWith k (handleQuery k (query k fuel) c caller request) gasLimit := by
  refine ⟨fun m gasLimit sdkGas w hgas hm hroom ↦ ?_, query_succ⟩
  rw [queryWith_apply hgas, subQuery_apply hm, hroom.consume]
  refine ⟨rfl, rfl, rfl, rfl, ?_⟩
  change (w.meter.consumed + subSpent m sdkGas w).toNat = _
  rw [UInt64.toNat_add, Nat.mod_eq_of_lt hroom.1]

end Isolation

theorem query_isolated_codeInfo :
    (query (chargenet defaultGasRegisterConfig) 1 genesisCtx [] (.codeInfo 1) 280000000 (metered 100000 0)).2.meter.consumed =
      1000 := by
  obtain ⟨hisolated, hquery⟩ := query_isolated (k := chargenet defaultGasRegisterConfig)
  let m := handleQuery (chargenet defaultGasRegisterConfig) (query (chargenet defaultGasRegisterConfig) 0) genesisCtx []
    (.codeInfo 1)
  have hspent : subSpent m 2000 (metered 100000 0) = 1000 := by decide +kernel
  have hroom : HasRoom (metered 100000 0).meter (subSpent m 2000 (metered 100000 0)) := by
    rw [hspent]
    exact ⟨by decide, fun _ ↦ by decide⟩
  obtain ⟨-, -, -, hmeter, -⟩ := hisolated m 280000000 2000 (metered 100000 0) rfl (by decide +kernel) hroom
  rw [hquery 0, hmeter, hspent]
  rfl

section Bound

/-- The counter of the caller's meter cannot show the excess: a finite meter stops at the greatest number, and an
infinite one starts again. -/
def CounterFull (meter : GasMeter) (allowed spent : Nat) : Prop :=
  if meter.infinite then 2 ^ 64 ≤ meter.consumed.toNat + spent else 2 ^ 64 ≤ meter.consumed.toNat + allowed + 1

theorem consume_le_iff (meter : GasMeter) (spent allowed : Gas) (desc : String) :
    (meter.consume spent desc).2.consumed.toNat ≤ meter.consumed.toNat + allowed.toNat ↔
      spent.toNat ≤ allowed.toNat ∨ CounterFull meter allowed.toNat spent.toNat := by
  have hc := meter.consumed.toNat_lt
  have hs := spent.toNat_lt
  unfold CounterFull
  by_cases hi : meter.infinite = true
  · rw [GasMeter.consume_infinite hi, if_pos hi]
    change (meter.consumed + spent).toNat ≤ _ ↔ _
    rw [UInt64.toNat_add]
    omega
  · have hfin := Bool.eq_false_iff.2 hi
    rw [if_neg hi]
    rcases Nat.lt_or_ge (meter.consumed.toNat + spent.toNat) (2 ^ 64) with hlt | hge
    · have hmeter : (meter.consume spent desc).2.consumed.toNat = meter.consumed.toNat + spent.toNat := by
        rcases Nat.lt_or_ge meter.limit.toNat (meter.consumed.toNat + spent.toNat) with hover | hfits
        · rw [GasMeter.consume_exceeds hfin desc hlt hover]
          exact toNat_add_of_lt hlt
        · rw [GasMeter.consume_fits hfin desc hfits]
          exact toNat_add_of_lt hlt
      omega
    · rw [GasMeter.consume_overflow hfin desc hge]
      change (UInt64.ofNat (2 ^ 64 - 1)).toNat ≤ _ ↔ _
      have hmax : (UInt64.ofNat (2 ^ 64 - 1)).toNat = 2 ^ 64 - 1 := rfl
      omega

/-- A query of the keeper that returns has not consumed more than its meter allows. -/
theorem subSpent_le_of_returned (fuel : Nat) (c : Ctx) (caller : AccAddress) (request : QueryRequest) (sdkGas : Gas)
    (w : World X) (hr : (subRun (handleQuery k (query k fuel) c caller request) sdkGas w).1.exit ∈ [Exit.ok, .error]) :
    (subSpent (handleQuery k (query k fuel) c caller request) sdkGas w).toNat ≤ sdkGas.toNat := by
  obtain ⟨o, hlocal⟩ := Local.handleQuery (k := k) (Local.query fuel) c caller request
  have hmeter := (hlocal.keeps { w with events := [], meter := .new sdkGas }).meter
  have hexit : (subRun (handleQuery k (query k fuel) c caller request) sdkGas w).1.exit = .ok ∨
      (subRun (handleQuery k (query k fuel) c caller request) sdkGas w).1.exit = .error := by simpa using hr
  exact hmeter.bounded hexit rfl (Nat.zero_le _)

/-- A query costs the caller at most the gas given to it exactly when the plugins stay within that gas; the keeper's own
do unless they panic. -/
theorem query_bounded_iff :
    (∀ (m : M X Bytes) (gasLimit sdkGas : Gas) (w : World X), k.gasRegister.fromWasmVMGas gasLimit = .ok sdkGas →
      (subRun m sdkGas w).1 ≠ .timeout →
      ((queryWith k m gasLimit w).2.meter.consumed.toNat ≤ w.meter.consumed.toNat + sdkGas.toNat ↔
        (subSpent m sdkGas w).toNat ≤ sdkGas.toNat ∨
          CounterFull w.meter sdkGas.toNat (subSpent m sdkGas w).toNat)) ∧
    ∀ fuel c caller request sdkGas (w : World X),
      (subRun (handleQuery k (query k fuel) c caller request) sdkGas w).1.exit ∈ [Exit.ok, .error] →
        (subSpent (handleQuery k (query k fuel) c caller request) sdkGas w).toNat ≤ sdkGas.toNat := by
  refine ⟨fun m gasLimit sdkGas w hgas hm ↦ ?_, subSpent_le_of_returned⟩
  rw [queryWith_apply hgas, subQuery_apply hm]
  exact consume_le_iff _ _ _ _

theorem query_bounded_codeInfo :
    (queryWith (chargenet defaultGasRegisterConfig)
      (handleQuery (chargenet defaultGasRegisterConfig) (query (chargenet defaultGasRegisterConfig) 0) genesisCtx []
        (.codeInfo 1)) 280000000 (metered 100000 0)).2.meter.consumed.toNat ≤ 0 + 2000 := by
  obtain ⟨hbounded, hreturned⟩ := query_bounded_iff (k := chargenet defaultGasRegisterConfig)
  have hspent := hreturned 0 genesisCtx [] (.codeInfo 1) 2000 (metered 100000 0) (by decide +kernel)
  exact (hbounded _ 280000000 2000 (metered 100000 0) rfl (by decide +kernel)).2 (.inl hspent)

/-- One read of the store costs a hundred times the gas that this query is given, and the caller pays for it. -/
theorem query_overcharged :
    (chargenet defaultGasRegisterConfig).gasRegister.fromWasmVMGas 1400000 = .ok 10 ∧
      (query (chargenet defaultGasRegisterConfig) 1 genesisCtx [] (.codeInfo 1) 1400000 (metered 100000 0)).1 =
        .panic (.outOfGas "Read") ∧
      (query (chargenet defaultGasRegisterConfig) 1 genesisCtx [] (.codeInfo 1) 1400000
        (metered 100000 0)).2.meter.consumed = 1000 := by
  refine ⟨rfl, by decide +kernel, by decide +kernel⟩

end Bound

end Cosmwasgo.Properties
