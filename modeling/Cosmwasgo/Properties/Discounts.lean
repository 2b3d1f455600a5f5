import Cosmwasgo.Keeper.Ante
import Cosmwasgo.Properties.Charges

namespace Cosmwasgo.Properties

open Cosmwasgo.Lib Cosmwasgo.Types Cosmwasgo.State Cosmwasgo.Keeper Cosmwasgo.Runs

variable {X : Type} {k : Keeper X}

/-- The setups go with the set of loaded contracts: the regime of the discount. -/
def discountRegime (k : Keeper X) : Regime k where
  rel _ w _ w' := Loads w w'
  permits _ _ _ _ := True
  permits_select _ _ _ _ _ _ := trivial
  ports _ _ := True
  ports_own _ := trivial
  recorded _ h := h trivial
  keeps _ h := h.loads
  trans h h' := h.trans h'
  weaken h := h
  act _ := .of_eq rfl rfl
  torn h := h.loads
  decision _ := .of_eq rfl rfl
  called := .of_eq rfl rfl
  addressed _ := .of_eq rfl rfl
  acknowledged _ _ _ := .of_eq rfl rfl
  enter _ h := h
  settle h := h
  events h := h
  remeter h _ := h
  revert h := h
  revertMeter h _ := h

theorem discountRegime_observes : (discountRegime k).Observes := fun _ ↦ .of_eq rfl rfl

/-- A transaction: operations of the keeper at any depth and smart queries, one after the other. In between the other
modules do as they please, and what was done may be undone. -/
inductive CallTree (k : Keeper X) (w₀ : World X) : World X → Prop
  | start : CallTree k w₀ w₀
  | op {n : Nat} {c : Ctx} {α : Type} {m : M X α} {w : World X} (h : CallTree k w₀ w) (hop : RootOp k n c α m) :
      CallTree k w₀ (m w).2
  | query {n : Nat} {c : Ctx} {contract : AccAddress} {req : Bytes} {w : World X} (h : CallTree k w₀ w) :
      CallTree k w₀ (querySmart k (Keeper.query k n) c contract req w).2
  | other {w w' : World X} (h : CallTree k w₀ w) (hc : w'.txContracts = w.txContracts) (hs : w'.setups = w.setups) :
      CallTree k w₀ w'

theorem CallTree.loads {w₀ w : World X} (h : CallTree k w₀ w) : Loads w₀ w := by
  induction h with
  | start => exact .of_eq rfl rfl
  | op _ hop ih =>
    exact ih.trans (hop.obeys (R := discountRegime k) discountRegime_observes (fun _ _ _ _ ↦ trivial) _)
  | query _ ih => exact ih.trans ((Local.querySmart (Local.query _) _ _ _).keeps _).loads
  | other _ hc hs ih => exact ih.trans (.of_eq hc hs)

/-- A call of code with the checksum that is not pinned at that moment. -/
def isUnpinnedCall (checksum : Bytes) (s : Setup) : Bool := !s.pinned && s.checksum == checksum

theorem isUnpinnedCall_iff {checksum : Bytes} {s : Setup} :
    isUnpinnedCall checksum s = true ↔ s.pinned = false ∧ s.checksum = checksum := by
  simp [isUnpinnedCall]

def unpinnedCalls (checksum : Bytes) (l : List Setup) : List Setup := l.filter (isUnpinnedCall checksum)

/-- Pinned code is loaded at the discount, and code that is not pinned from the second call on. -/
structure DiscountedOnceLoaded (l : List Setup) : Prop where
  pinned : ∀ s ∈ l, s.pinned = true → s.discount = true
  loaded : ∀ checksum ≠ [], ∀ i s, (unpinnedCalls checksum l)[i]? = some s → (s.discount = true ↔ 0 < i)

section Setups

variable {cs cs' : Option (List Bytes)} {l : List Setup} {checksum : Bytes}

theorem discount_of_pinned (h : Loading cs l cs') : ∀ s ∈ l, s.pinned = true → s.discount = true := by
  induction h with
  | nil => exact nofun
  | discounted hs _ _ ih =>
    intro s hmem hp
    rcases List.mem_cons.1 hmem with rfl | hmem
    · exact hs
    · exact ih s hmem hp
  | full _ hd _ ih =>
    intro s hmem hp
    rcases List.mem_cons.1 hmem with rfl | hmem
    · exact absurd (.inl hp) hd
    · exact ih s hmem hp

/-- Code that is loaded comes at the discount from then on. -/
theorem discount_of_loaded (h : Loading cs l cs') {loaded : List Bytes} (hcs : cs = some loaded) (hmem : checksum ∈ loaded) :
    ∀ s ∈ unpinnedCalls checksum l, s.discount = true := by
  induction h generalizing loaded with
  | nil => exact nofun
  | discounted hs _ _ ih =>
    intro s hin
    obtain ⟨hin, hcall⟩ := List.mem_filter.1 hin
    rcases List.mem_cons.1 hin with rfl | hin
    · exact hs
    · exact ih hcs hmem s (List.mem_filter.2 ⟨hin, hcall⟩)
  | @full cs cs' s' l _ hd _ ih =>
    intro s hin
    obtain ⟨hin, hcall⟩ := List.mem_filter.1 hin
    rcases List.mem_cons.1 hin with rfl | hin
    · obtain ⟨-, hsame⟩ := isUnpinnedCall_iff.1 hcall
      exact absurd (.inr ⟨loaded, hcs, hsame ▸ hmem⟩) hd
    · refine ih (congrArg _ hcs) ?_ s (List.mem_filter.2 ⟨hin, hcall⟩)
      split
      · exact hmem
      · exact List.mem_cons_of_mem _ hmem

/-- The first call of code that is not loaded yet pays in full, and no call after it does. -/
theorem discount_iff_of_not_loaded (h : Loading cs l cs') {loaded : List Bytes} (hcs : cs = some loaded)
    (hne : checksum ≠ []) (hmem : checksum ∉ loaded) (i : Nat) (s : Setup)
    (hs : (unpinnedCalls checksum l)[i]? = some s) : s.discount = true ↔ 0 < i := by
  induction h generalizing loaded with
  | nil => cases hs
  | @discounted cs cs' s' l hd hdis _ ih =>
    -- a discounted call is of pinned code, or of code that is loaded
    have hskip : unpinnedCalls checksum (s' :: l) = unpinnedCalls checksum l := by
      refine List.filter_cons_of_neg fun hcall ↦ ?_
      obtain ⟨hp, hsame⟩ := isUnpinnedCall_iff.1 hcall
      rcases hdis with hp' | ⟨loaded', hloaded', hin⟩
      · rw [hp] at hp'
        cases hp'
      · obtain rfl : loaded = loaded' := Option.some.inj (hcs.symm.trans hloaded')
        exact hmem (hsame ▸ hin)
    rw [hskip] at hs
    exact ih hcs hmem hs
  | @full cs cs' s' l hd hdis hrest ih =>
    have hcs' : (cs.map fun loaded ↦ if s'.checksum = [] then loaded else s'.checksum :: loaded) =
        some (if s'.checksum = [] then loaded else s'.checksum :: loaded) := congrArg _ hcs
    by_cases hcall : isUnpinnedCall checksum s' = true
    · obtain ⟨-, hsame⟩ := isUnpinnedCall_iff.1 hcall
      rw [unpinnedCalls, List.filter_cons_of_pos hcall] at hs
      cases i with
      | zero =>
        cases hs
        simp [hd]
      | succ i =>
        have hin : checksum ∈ (if s'.checksum = [] then loaded else s'.checksum :: loaded) := by
          rw [hsame, if_neg hne]
          exact List.mem_cons_self
        have hlater := discount_of_loaded hrest hcs' hin s (List.mem_of_getElem? hs)
        simp [hlater]
    · rw [unpinnedCalls, List.filter_cons_of_neg hcall] at hs
      have hother : s'.checksum ≠ checksum := by
        rintro hsame
        have hp : s'.pinned = true := by simpa [isUnpinnedCall, hsame] using hcall
        exact hdis (.inl hp)
      refine ih hcs' ?_ hs
      split
      · exact hmem
      · rintro (_ | ⟨_, hin⟩)
        · exact hother rfl
        · exact hmem hin

end Setups

section Price

variable {g : WasmGasRegisterConfig} (hk : k.gasRegister = wasmGasRegister g)

include hk

/-- What goes on record is what is paid for. -/
theorem chargeSetup_apply {codeID : UInt64} {pinned : Bool} {w w₁ : World X}
    (hpinned : isPinnedCode k codeID w = (.ok pinned, w₁)) (checksum : Bytes) (msgLen : Nat) (entry : String) :
    ∃ discount cs, chargeSetup k checksum codeID msgLen entry w =
      consumeGas (WasmGasRegister.setupContractCost g discount msgLen) ("Loading CosmWasm module: " ++ entry)
        { w₁ with txContracts := cs, setups := w₁.setups ++ [⟨checksum, pinned, discount⟩] } := by
  obtain ⟨discount, cs, hrun, -⟩ := Local.recordedDiscount_apply checksum pinned w₁
  refine ⟨discount, cs, ?_⟩
  rw [chargeSetup, Program.bind_of_ok _ hpinned, Program.bind_of_ok _ hrun, hk]
  rfl

end Price

/-- In a transaction exactly the first call of code that is not pinned pays the full price for its checksum, wherever in
the tree of calls and queries it was and whatever became of it; pinned code never does. -/
theorem setup_discounts {g : WasmGasRegisterConfig} (hk : k.gasRegister = wasmGasRegister g) {w₀ w : World X}
    (h : CallTree k (txContractsAnteHandle (pure ()) w₀).2 w) :
    (∃ l, w.setups = w₀.setups ++ l ∧ DiscountedOnceLoaded l) ∧
    ∀ codeID pinned (v v₁ : World X), isPinnedCode k codeID v = (.ok pinned, v₁) → ∀ checksum msgLen entry,
      ∃ discount cs, chargeSetup k checksum codeID msgLen entry v =
        consumeGas ((if discount then g.instanceCostDiscount else g.instanceCost) +
            UInt64.ofNat msgLen * g.contractMessageDataCost) ("Loading CosmWasm module: " ++ entry)
          { v₁ with txContracts := cs, setups := v₁.setups ++ [⟨checksum, pinned, discount⟩] } := by
  constructor
  · obtain ⟨l, hl, hloading⟩ := h.loads
    refine ⟨l, hl, discount_of_pinned hloading, fun checksum hne i s hs ↦ ?_⟩
    have hempty : (txContractsAnteHandle (pure ()) w₀).2.txContracts = some [] := rfl
    exact discount_iff_of_not_loaded hloading hempty hne List.not_mem_nil i s hs
  · intro codeID pinned v v₁ hpinned checksum msgLen entry
    obtain ⟨discount, cs, hrun⟩ := chargeSetup_apply hk hpinned checksum msgLen entry
    refine ⟨discount, cs, ?_⟩
    rw [hrun]
    cases discount <;> rfl

section Devnet

/-- A transaction in which carol calls the contract twice. -/
def calledTwice : World Unit :=
  let k := chargenet defaultGasRegisterConfig
  let call := MsgServer.handleMsg k (responseHandler k 5) genesisCtx (executeMsg carol (plainBech32.string contractOne))
  (call (call (txContractsAnteHandle (pure ()) (chargeWorld defaultGasRegisterConfig)).2).2).2

/-- The second call comes at the discount. -/
theorem setup_discounts_calledTwice : ∃ l, calledTwice.setups = l ∧ DiscountedOnceLoaded l ∧
    l.map (fun s ↦ (s.pinned, s.discount)) = [(false, false), (false, true)] := by
  have hrun : CallTree (chargenet defaultGasRegisterConfig)
      (txContractsAnteHandle (pure ()) (chargeWorld defaultGasRegisterConfig)).2 calledTwice :=
    .op (.op .start (.message _)) (.message _)
  obtain ⟨l, hl, hdiscounted⟩ := (setup_discounts rfl hrun).1
  have hstart : (chargeWorld defaultGasRegisterConfig).setups = [] := by decide +kernel
  rw [hstart, List.nil_append] at hl
  refine ⟨l, hl, hdiscounted, ?_⟩
  rw [← hl]
  decide +kernel

end Devnet

end Cosmwasgo.Properties
