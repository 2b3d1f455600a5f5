import Cosmwasgo.Runs.Roots

namespace Cosmwasgo.Properties

open Cosmwasgo.Lib Cosmwasgo.Types Cosmwasgo.State Cosmwasgo.Keeper Cosmwasgo.Runs

variable {X : Type} {k : Keeper X}

def isQuery : Frame → Bool
  | .call entry _ _ => entry = .query
  | .message _ => false

/-- The number of smart queries on a path that have started and not returned. -/
def activeQueries (s : List Frame) : Nat := s.countP isQuery

/-- The contexts of the smart queries below a context. What a contract or a plugin asks is asked in the context it was
called with. -/
inductive QueryPath (k : Keeper X) (c₀ : Ctx) : Ctx → Prop
  | entry : QueryPath k c₀ c₀
  | nested {c c' : Ctx} (h : QueryPath k c₀ c) (a : AccAddress)
      (hcheck : checkAndIncreaseQueryStackSize c k.maxQueryStackSize = .ok c') :
      QueryPath k c₀ (c'.push (.call .query a none))

/-- No smart query is under way yet. -/
def Entry (c : Ctx) : Prop := c.queryStackSize = 0 ∧ activeQueries c.stack = 0

/-- `Keeper.query` with something else in the place where it has run out of fuel. -/
def queryOr (k : Keeper X) (stray : M X (Except Err Bytes)) :
    Nat → Ctx → AccAddress → QueryRequest → Gas → M X (Except Err Bytes)
  | 0, _, _, _, _ => stray
  | fuel + 1, c, caller, request, gasLimit => do
    let sdkGas ← liftPanic (k.gasRegister.fromWasmVMGas gasLimit)
    subQuery sdkGas (handleQuery k (queryOr k stray fuel) c caller request)

theorem query_eq_queryOr (k : Keeper X) (fuel : Nat) : query k fuel = queryOr k Program.expire fuel := by
  induction fuel with
  | zero => rfl
  | succ fuel ih =>
    funext c caller request gasLimit
    rw [query, queryOr, ih]

/-- The limit on nested queries. A path never has more than `maxQueryStackSize` smart queries on it. One more is refused
and leaves everything as it is, and whether a query is refused depends on its path alone, not on the world that other
queries leave behind. So the fuel of a query is enough: what would happen after it makes no difference. -/
structure QueryStackBounded (k : Keeper X) : Prop where
  active_le : ∀ {c₀ c}, Entry c₀ → QueryPath k c₀ c → activeQueries c.stack ≤ k.maxQueryStackSize
  smart : ∀ {c₀ c}, Entry c₀ → QueryPath k c₀ c → ∀ querier contractAddr req w,
    querySmart k querier c contractAddr req w =
      if activeQueries c.stack < k.maxQueryStackSize then
        runSmartQuery k querier { c with queryStackSize := activeQueries c.stack + 1 } contractAddr req w
      else (.error errExceedMaxQueryStackSize, w)
  depth : ∀ {c₀ c}, Entry c₀ → QueryPath k c₀ c → ∀ stray {fuel},
    k.maxQueryStackSize - activeQueries c.stack < fuel → ∀ caller,
      newQueryHandler k c caller = queryOr k stray fuel c caller

section Bounded

variable {c₀ c c' : Ctx}

theorem activeQueries_push (c : Ctx) (a : AccAddress) :
    activeQueries (c.push (.call .query a none)).stack = activeQueries c.stack + 1 :=
  List.countP_cons_of_pos rfl

/-- Below the largest `uint32` the check counts. -/
theorem check_eq (hq : k.maxQueryStackSize + 1 < 2 ^ 32) (hc : c.queryStackSize ≤ k.maxQueryStackSize) :
    checkAndIncreaseQueryStackSize c k.maxQueryStackSize =
      if c.queryStackSize < k.maxQueryStackSize then .ok { c with queryStackSize := c.queryStackSize + 1 }
      else .error errExceedMaxQueryStackSize := by
  have hmod : (c.queryStackSize + 1) % 2 ^ 32 = c.queryStackSize + 1 := Nat.mod_eq_of_lt (by omega)
  unfold checkAndIncreaseQueryStackSize
  simp only [hmod]
  by_cases h : c.queryStackSize < k.maxQueryStackSize
  · rw [if_pos h, if_neg (by omega)]
  · rw [if_neg h, if_pos (by omega)]

/-- The counter of a context agrees with its path. -/
theorem QueryPath.counts (hq : k.maxQueryStackSize + 1 < 2 ^ 32) (h₀ : Entry c₀) (h : QueryPath k c₀ c) :
    c.queryStackSize = activeQueries c.stack ∧ activeQueries c.stack ≤ k.maxQueryStackSize := by
  induction h with
  | entry => exact ⟨h₀.1.trans h₀.2.symm, h₀.2 ▸ Nat.zero_le _⟩
  | @nested c c' h a hcheck ih =>
    obtain ⟨hsize, hle⟩ := ih
    rw [check_eq hq (hsize ▸ hle)] at hcheck
    split at hcheck
    · next hlt =>
      cases hcheck
      rw [activeQueries_push]
      refine ⟨congrArg (· + 1) hsize, ?_⟩
      change activeQueries c.stack + 1 ≤ _
      omega
    · cases hcheck

theorem querySmart_path (hq : k.maxQueryStackSize + 1 < 2 ^ 32) (h₀ : Entry c₀) (h : QueryPath k c₀ c)
    (querier : Ctx → AccAddress → QueryRequest → Gas → M X (Except Err Bytes)) (contractAddr : AccAddress)
    (req : Bytes) (w : World X) :
    querySmart k querier c contractAddr req w =
      if activeQueries c.stack < k.maxQueryStackSize then
        runSmartQuery k querier { c with queryStackSize := activeQueries c.stack + 1 } contractAddr req w
      else (.error errExceedMaxQueryStackSize, w) := by
  obtain ⟨hsize, hle⟩ := h.counts hq h₀
  rw [querySmart, check_eq hq (hsize ▸ hle), hsize]
  split <;> rfl

/-- A query uses the querier it hands to the contract, and no other. -/
theorem runSmartQuery_congr {querier querier' : Ctx → AccAddress → QueryRequest → Gas → M X (Except Err Bytes)}
    {contractAddr : AccAddress}
    (h : querier (c.push (.call .query contractAddr none)) contractAddr =
      querier' (c.push (.call .query contractAddr none)) contractAddr) (req : Bytes) :
    runSmartQuery k querier c contractAddr req = runSmartQuery k querier' c contractAddr req := by
  unfold runSmartQuery
  simp only [h]

/-- The plugins ask in the context they were called with. -/
theorem handleRequest_congr {smart smart' : Ctx → AccAddress → Bytes → M X Bytes} (h : smart c = smart' c)
    (caller : AccAddress) (req : QueryRequest) :
    handleRequest k smart c caller req = handleRequest k smart' c caller req := by
  cases req <;> simp only [handleRequest, h]

/-- With fuel for what is left of the limit, the place where it has run out is not reached. -/
theorem queryOr_eq (hq : k.maxQueryStackSize + 1 < 2 ^ 32) (h₀ : Entry c₀) (h : QueryPath k c₀ c)
    (stray stray' : M X (Except Err Bytes)) {fuel fuel' : Nat}
    (hfuel : k.maxQueryStackSize - activeQueries c.stack < fuel)
    (hfuel' : k.maxQueryStackSize - activeQueries c.stack < fuel') (caller : AccAddress) :
    queryOr k stray fuel c caller = queryOr k stray' fuel' c caller := by
  induction fuel generalizing c fuel' caller with
  | zero => omega
  | succ fuel ih =>
    obtain ⟨fuel', rfl⟩ : ∃ n, fuel' = n + 1 := ⟨fuel' - 1, by omega⟩
    have hsmart : querySmart k (queryOr k stray fuel) c = querySmart k (queryOr k stray' fuel') c := by
      funext contractAddr req w
      rw [querySmart_path hq h₀ h, querySmart_path hq h₀ h]
      split
      · next hlt =>
        obtain ⟨hsize, hle⟩ := h.counts hq h₀
        have hcheck : checkAndIncreaseQueryStackSize c k.maxQueryStackSize =
            .ok { c with queryStackSize := activeQueries c.stack + 1 } := by
          rw [check_eq hq (hsize ▸ hle), hsize, if_pos hlt]
        have hnested := h.nested contractAddr hcheck
        have hactive := activeQueries_push { c with queryStackSize := activeQueries c.stack + 1 } contractAddr
        change _ = activeQueries c.stack + 1 at hactive
        refine congrFun (runSmartQuery_congr (ih hnested ?_ ?_ contractAddr) req) w
        · rw [hactive]
          omega
        · rw [hactive]
          omega
      · rfl
    funext request gasLimit
    simp only [queryOr, handleQuery, handleRequest_congr hsmart]

theorem queryStackBounded (hq : k.maxQueryStackSize + 1 < 2 ^ 32) : QueryStackBounded k where
  active_le h₀ h := (h.counts hq h₀).2
  smart h₀ h := querySmart_path hq h₀ h
  depth {c₀ c} h₀ h stray fuel hfuel caller := by
    unfold newQueryHandler
    rw [query_eq_queryOr]
    exact queryOr_eq hq h₀ h _ stray (by omega) hfuel caller

end Bounded

section Wraps

/-- A path of nested queries of one contract. -/
def deepCtx (c : Ctx) (a : AccAddress) (n : Nat) : Ctx :=
  { c with queryStackSize := n % 2 ^ 32, stack := List.replicate n (.call .query a none) ++ c.stack }

theorem activeQueries_deepCtx (c : Ctx) (a : AccAddress) (n : Nat) :
    activeQueries (deepCtx c a n).stack = n + activeQueries c.stack := by
  have hn : (List.replicate n (Frame.call .query a none)).countP isQuery = n := by
    rw [List.countP_replicate]
    rfl
  rw [activeQueries, deepCtx, List.countP_append, hn, activeQueries]

/-- With the largest `uint32` for a limit every check passes: after it the counter is at zero again. -/
theorem queryPath_deepCtx (hq : k.maxQueryStackSize + 1 = 2 ^ 32) {c : Ctx} (hc : c.queryStackSize = 0) (a : AccAddress)
    (n : Nat) : QueryPath k c (deepCtx c a n) := by
  induction n with
  | zero =>
    have hzero : deepCtx c a 0 = c := by
      obtain ⟨_, _, _, _, _, _, _, _, _⟩ := c
      cases hc
      rfl
    rw [hzero]
    exact .entry
  | succ n ih =>
    have hcheck : checkAndIncreaseQueryStackSize (deepCtx c a n) k.maxQueryStackSize =
        .ok { deepCtx c a n with queryStackSize := (n + 1) % 2 ^ 32 } := by
      unfold checkAndIncreaseQueryStackSize
      have hmod : ((deepCtx c a n).queryStackSize + 1) % 2 ^ 32 = (n + 1) % 2 ^ 32 := Nat.mod_add_mod n _ 1
      simp only [hmod]
      rw [if_neg (by omega)]
    exact ih.nested a hcheck

end Wraps

/-- The nesting of queries is bounded by the limit unless the limit is the largest `uint32`. -/
theorem queryStackBounded_iff (hq : k.maxQueryStackSize < 2 ^ 32) :
    QueryStackBounded k ↔ k.maxQueryStackSize < 2 ^ 32 - 1 := by
  refine ⟨fun h ↦ ?_, fun h ↦ queryStackBounded (by omega)⟩
  by_contra hge
  have hmax : k.maxQueryStackSize + 1 = 2 ^ 32 := by omega
  have hpath : QueryPath k genesisCtx (deepCtx genesisCtx [] (2 ^ 32)) := queryPath_deepCtx hmax rfl [] _
  have hle := h.active_le ⟨rfl, rfl⟩ hpath
  rw [activeQueries_deepCtx] at hle
  change 2 ^ 32 + 0 ≤ _ at hle
  omega

theorem queryStackBounded_plainnet : QueryStackBounded (plainnet idleContract) :=
  (queryStackBounded_iff (by decide)).2 (by decide)

/-- A devnet with the largest limit there is. -/
def unboundednet : Keeper Unit := { plainnet idleContract with maxQueryStackSize := 2 ^ 32 - 1 }

/-- After carol has set up the contract. -/
def unboundedWorld : World Unit :=
  worldOf (delivered unboundednet (durable openWorld) [storeCodeMsg carol, instantiateMsg carol])

/-- As many queries are under way as the limit allows, and the contract is run for one more. -/
theorem querySmart_unboundednet :
    let c := deepCtx genesisCtx contractOne (2 ^ 32 - 1)
    Entry genesisCtx ∧ QueryPath unboundednet genesisCtx c ∧
      activeQueries c.stack = unboundednet.maxQueryStackSize ∧
      (querySmart unboundednet (query unboundednet 1) c contractOne [] unboundedWorld).1 = .ok [] := by
  refine ⟨⟨rfl, rfl⟩, queryPath_deepCtx (by decide) rfl contractOne _, ?_, by decide +kernel⟩
  exact activeQueries_deepCtx genesisCtx contractOne (2 ^ 32 - 1)

end Cosmwasgo.Properties
