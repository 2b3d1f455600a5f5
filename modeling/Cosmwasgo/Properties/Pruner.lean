import Cosmwasgo.Keeper.Pruner
import Cosmwasgo.Runs.Roots
import Cosmwasgo.Runs.Unmetered
import Cosmwasgo.State.Devnet
import Cosmwasgo.Types.Coins

namespace Cosmwasgo.Properties

open Cosmwasgo.Lib Cosmwasgo.Types Cosmwasgo.State Cosmwasgo.Keeper Cosmwasgo.Runs

variable {X : Type} {k : Keeper X}

/-- What the state of the other modules says about coins. -/
structure Ledger (X : Type) where
  balance : X → AccAddress → String → Int
  supply : X → String → Int
  moduleAddr : AccAddress

/-- Coins went to the module. -/
structure Sent (l : Ledger X) (a : AccAddress) (coins : Coins) (x x' : X) : Prop where
  balance : ∀ a' d, l.balance x' a' d =
    l.balance x a' d - (if a' = a then coins.amountOf d else 0) + if a' = l.moduleAddr then coins.amountOf d else 0
  supply : ∀ d, l.supply x' d = l.supply x d

/-- Coins of the module are no more. -/
structure Burnt (l : Ledger X) (coins : Coins) (x x' : X) : Prop where
  balance : ∀ a' d, l.balance x' a' d = l.balance x a' d - if a' = l.moduleAddr then coins.amountOf d else 0
  supply : ∀ d, l.supply x' d = l.supply x d - coins.amountOf d

/-- A bank that takes valid coins and moves them, and refuses coins of which there are none. -/
structure LawfulBank (h : Host X) (l : Ledger X) : Prop where
  nonneg : ∀ x a d, 0 ≤ l.balance x a d
  getBalance : ∀ a d x, (h.getBalance a d x).state = x ∧ (h.getBalance a d x).result = .ok ⟨d, l.balance x a d⟩
  refuses : ∀ a coins x, (∃ c ∈ coins, c.amount ≤ 0) → ∃ e, (h.sendCoinsFromAccountToModule a coins x).result = .error e
  sends : ∀ a coins x, Coins.Canonical coins → (∀ c ∈ coins, c.amount ≤ l.balance x a c.denom) →
    (h.sendCoinsFromAccountToModule a coins x).result = .ok () ∧
      Sent l a coins x (h.sendCoinsFromAccountToModule a coins x).state
  burns : ∀ coins x, Coins.Canonical coins → (∀ c ∈ coins, c.amount ≤ l.balance x l.moduleAddr c.denom) →
    (h.burnCoins coins x).result = .ok () ∧ Burnt l coins x (h.burnCoins coins x).state

/-- The account has nothing left of these denominations, what it had is gone for good, and nobody else noticed. -/
structure Emptied (l : Ledger X) (addr : AccAddress) (orig : Coins) (x x' : X) : Prop where
  balances : ∀ c ∈ orig, l.balance x' addr c.denom = 0
  supply : ∀ d, l.supply x' d = l.supply x d - (l.balance x addr d - l.balance x' addr d)
  frame : ∀ a d, a ≠ addr ∨ (∀ c ∈ orig, c.denom ≠ d) → l.balance x' a d = l.balance x a d

/-- An account that instantiation replaces and prunes: nobody has used it, and its type is not one of those that are kept. -/
structure Prunable (k : Keeper X) (l : Ledger X) (x : X) (addr : AccAddress) (acc : State.Account) : Prop where
  found : k.host.getAccount x addr = some acc
  unclaimed : acc.sequence = 0 ∧ acc.hasPubKey = false
  unaccepted : acc.type ∉ k.acceptedAccountTypes
  replaced : (k.host.newAccount addr x).result = .ok () ∧
    ∀ a d, l.balance (k.host.newAccount addr x).state a d = l.balance x a d

section Burner

variable {l : Ledger X} {addr : AccAddress} {orig : Coins} {d : Durable X}

/-- What the account has of the denominations. -/
def heldOf (l : Ledger X) (x : X) (addr : AccAddress) (orig : Coins) : Coins :=
  orig.map fun c ↦ ⟨c.denom, l.balance x addr c.denom⟩

theorem unmetered_appendBalances (hbank : LawfulBank k.host l) (coins orig : Coins) :
    Unmetered (appendBalances k addr coins orig) d (coins ++ heldOf l d.store.ext addr orig) d := by
  induction orig generalizing coins with
  | nil =>
    rw [heldOf, List.map_nil, List.append_nil]
    exact .pure coins d
  | cons c orig ih =>
    obtain ⟨hstate, hresult⟩ := hbank.getBalance addr c.denom d.store.ext
    have hget := Unmetered.external hresult
    rw [hstate] at hget
    have hrest := ih (coins ++ [⟨c.denom, l.balance d.store.ext addr c.denom⟩])
    rw [List.append_assoc] at hrest
    exact hget.bind hrest

theorem amountOf_heldOf (horig : orig.Pairwise fun c c' ↦ c.denom < c'.denom) (x : X) (denom : String) :
    (heldOf l x addr orig).amountOf denom = if ∃ c ∈ orig, c.denom = denom then l.balance x addr denom else 0 := by
  have hnodup : ((heldOf l x addr orig).map (·.denom)).Nodup := by
    rw [heldOf, List.map_map]
    exact List.pairwise_map.2 (horig.imp ne_of_lt)
  split
  · next h =>
    obtain ⟨c, hc, rfl⟩ := h
    exact Coins.amountOf_of_mem hnodup (List.mem_map.2 ⟨c, hc, rfl⟩)
  · next h =>
    refine Coins.amountOf_of_not_mem fun c' hc' hdenom ↦ h ?_
    obtain ⟨c, hc, rfl⟩ := List.mem_map.1 hc'
    exact ⟨c, hc, hdenom⟩

theorem canonical_heldOf (horig : orig.Pairwise fun c c' ↦ c.denom < c'.denom) {x : X}
    (hpos : ∀ c ∈ orig, 0 < l.balance x addr c.denom) : Coins.Canonical (heldOf l x addr orig) where
  positive c hc := by
    obtain ⟨c₀, hc₀, rfl⟩ := List.mem_map.1 hc
    exact hpos c₀ hc₀
  ascending := List.pairwise_map.2 horig

theorem emptied_of_burnt (horig : orig.Pairwise fun c c' ↦ c.denom < c'.denom) {x x₁ x₂ : X}
    (hsent : Sent l addr (heldOf l x addr orig) x x₁) (hburnt : Burnt l (heldOf l x addr orig) x₁ x₂) :
    Emptied l addr orig x x₂ := by
  have hbalance : ∀ a denom, l.balance x₂ a denom =
      l.balance x a denom - if a = addr then (heldOf l x addr orig).amountOf denom else 0 := by
    intro a denom
    rw [hburnt.balance, hsent.balance]
    omega
  refine ⟨fun c hc ↦ ?_, fun denom ↦ ?_, fun a denom h ↦ ?_⟩
  · rw [hbalance, if_pos rfl, amountOf_heldOf horig, if_pos ⟨c, hc, rfl⟩, sub_self]
  · rw [hbalance, if_pos rfl, hburnt.supply, hsent.supply]
    omega
  · rw [hbalance, amountOf_heldOf horig]
    rcases h with h | h
    · rw [if_neg h, sub_zero]
    · have hnone : ¬∃ c ∈ orig, c.denom = denom := fun ⟨c, hc, he⟩ ↦ h c hc he
      rw [if_neg hnone, ite_self, sub_zero]

variable (hbank : LawfulBank k.host l)
include hbank

/-- What was sent can be burned. -/
theorem arrived {coins : Coins} (hcoins : coins.Canonical) {x x₁ : X}
    (henough : ∀ c ∈ coins, c.amount ≤ l.balance x addr c.denom) (hsent : Sent l addr coins x x₁) :
    ∀ c ∈ coins, c.amount ≤ l.balance x₁ l.moduleAddr c.denom := by
  intro c hc
  have hheld := henough c hc
  have hmodule := hbank.nonneg x l.moduleAddr c.denom
  rw [hsent.balance, if_pos rfl, Coins.amountOf_of_mem hcoins.nodup hc]
  split_ifs with hself
  · rw [hself]
    omega
  · omega

/-- The balances are sent and burned when there is some of each. -/
theorem unmetered_burn (horig : orig.Pairwise fun c c' ↦ c.denom < c'.denom)
    (hpos : ∀ c ∈ orig, 0 < l.balance d.store.ext addr c.denom) :
    ∃ x', Emptied l addr orig d.store.ext x' ∧ Unmetered (burnBalances k addr orig) d true (d.withExt x') := by
  have hcanonical := canonical_heldOf horig hpos
  have henough : ∀ c ∈ heldOf l d.store.ext addr orig, c.amount ≤ l.balance d.store.ext addr c.denom := by
    intro c hc
    obtain ⟨c₀, -, rfl⟩ := List.mem_map.1 hc
    exact le_rfl
  obtain ⟨hsend, hsent⟩ := hbank.sends addr _ d.store.ext hcanonical henough
  obtain ⟨hburn, hburnt⟩ := hbank.burns _ _ hcanonical (arrived hbank hcanonical henough hsent)
  refine ⟨_, emptied_of_burnt horig hsent hburnt, (unmetered_appendBalances hbank [] orig).bind ?_⟩
  exact ((Unmetered.external hsend).wrapErr _).bind (((Unmetered.external hburn).wrapErr _).bind (.pure true _))

/-- A balance of zero is among the coins the bank is asked to send. -/
theorem burnBalances_refused {c : Coin} (hc : c ∈ orig) {w : World X} (hzero : l.balance w.store.ext addr c.denom ≤ 0)
    (hi : w.meter.infinite = true) :
    ∃ e w', burnBalances k addr orig w = (.error (.wrap e "prune account balance"), w') := by
  have happend : Unmetered (appendBalances k addr [] orig) (durable w) (heldOf l w.store.ext addr orig) (durable w) :=
    unmetered_appendBalances hbank [] orig
  obtain ⟨w₁, hcoins, hd, hi₁⟩ := happend w rfl hi
  have hext : w₁.store.ext = w.store.ext := congrArg (·.store.ext) hd
  have hbad : ∃ c ∈ heldOf l w.store.ext addr orig, c.amount ≤ 0 := ⟨_, List.mem_map.2 ⟨c, hc, rfl⟩, hzero⟩
  obtain ⟨e, he⟩ := hbank.refuses addr _ w₁.store.ext hbad
  obtain ⟨w₂, hsend, -, -⟩ := external_of_infinite (k.host.sendCoinsFromAccountToModule addr _) hi₁
  rw [he] at hsend
  refine ⟨e, w₂, (Program.bind_of_ok _ hcoins).trans (Program.bind_of_error _ ?_)⟩
  unfold wrapErr Program.attempt
  rw [hsend]
  rfl

end Burner

section Cleanup

variable {l : Ledger X} {addr : AccAddress} {acc : State.Account} {orig : Coins}

theorem cleanupExistingAccount_vesting (hvesting : acc.originalVesting = some orig) (w : World X) :
    cleanupExistingAccount k addr acc w =
      ((burnBalances k addr orig { w with meter := ⟨0, 0, true⟩ }).1,
        { (burnBalances k addr orig { w with meter := ⟨0, 0, true⟩ }).2 with meter := w.meter }) := by
  unfold cleanupExistingAccount
  rw [hvesting]
  rfl

variable (hbank : LawfulBank k.host l) (hvesting : acc.originalVesting = some orig)
include hbank hvesting

theorem cleanup_succeeds (horig : orig.Pairwise fun c c' ↦ c.denom < c'.denom) {w : World X}
    (hpos : ∀ c ∈ orig, 0 < l.balance w.store.ext addr c.denom) :
    ∃ w', cleanupExistingAccount k addr acc w = (.ok true, w') ∧ Emptied l addr orig w.store.ext w'.store.ext ∧
      w'.meter = w.meter := by
  obtain ⟨x', hemptied, hburn⟩ := unmetered_burn (d := durable w) hbank horig hpos
  obtain ⟨w', hrun, hd, -⟩ := hburn { w with meter := ⟨0, 0, true⟩ } rfl rfl
  have hext : w'.store.ext = x' := congrArg (·.store.ext) hd
  refine ⟨{ w' with meter := w.meter }, ?_, hext ▸ hemptied, rfl⟩
  rw [cleanupExistingAccount_vesting hvesting, hrun]

theorem cleanup_refused {w : World X} (h : ¬∀ c ∈ orig, 0 < l.balance w.store.ext addr c.denom) :
    ∃ e w', cleanupExistingAccount k addr acc w = (.error e, w') := by
  push Not at h
  obtain ⟨c, hc, hzero⟩ := h
  obtain ⟨e, w', hrun⟩ := burnBalances_refused (w := { w with meter := ⟨0, 0, true⟩ }) hbank hc hzero rfl
  refine ⟨.wrap e "prune account balance", { w' with meter := w.meter }, ?_⟩
  rw [cleanupExistingAccount_vesting hvesting, hrun]

/-- The keeper's own call of the pruner ends the same way. -/
theorem prepareAccount_iff (hprune : PrunesVesting k) (horig : orig.Pairwise fun c c' ↦ c.denom < c'.denom) {w : World X}
    (hacc : Prunable k l w.store.ext addr acc) (hi : w.meter.infinite = true) :
    (∃ w', prepareAccount k addr w = (.ok (), w')) ↔ ∀ c ∈ orig, 0 < l.balance w.store.ext addr c.denom := by
  obtain ⟨w₁, hnew, hd₁, hi₁⟩ := external_of_infinite (k.host.newAccount addr) hi
  rw [hacc.replaced.1] at hnew
  have hext : w₁.store.ext = (k.host.newAccount addr w.store.ext).state := congrArg (·.store.ext) hd₁
  have hbalance : ∀ a d, l.balance w₁.store.ext a d = l.balance w.store.ext a d := fun a d ↦ by
    rw [hext, hacc.replaced.2]
  have hrun : prepareAccount k addr w = (do
      let handled ← wrapErr (external (k.host.cleanupExistingAccount addr acc)) "prune balance"
      Program.require handled addressClaimed : M X Unit) w₁ := by
    have hunclaimed : (decide (acc.sequence = 0) && !acc.hasPubKey) = true := by simp [hacc.unclaimed]
    unfold prepareAccount
    rw [Program.read_bind_apply, hacc.found]
    dsimp only
    rw [hunclaimed, Program.require_true, Program.pure_bind, if_neg hacc.unaccepted]
    exact Program.bind_of_ok _ hnew
  -- the pruner is a step of the host, on a world that has nothing but the host's state
  let v : World X := { store := { kv := .empty, ext := w₁.store.ext }, meter := ⟨0, 0, true⟩ }
  have hv : ∀ c : Coin, l.balance v.store.ext addr c.denom = l.balance w.store.ext addr c.denom := fun c ↦ hbalance addr _
  obtain ⟨w₂, hcleanup, -, -⟩ := external_of_infinite (k.host.cleanupExistingAccount addr acc) hi₁
  have hresult : (k.host.cleanupExistingAccount addr acc w₁.store.ext).result = (cleanupExistingAccount k addr acc v).1 := by
    rw [hprune]
    rfl
  rw [hresult] at hcleanup
  rw [hrun]
  by_cases hpos : ∀ c ∈ orig, 0 < l.balance w.store.ext addr c.denom
  · obtain ⟨w₃, hok, -⟩ := cleanup_succeeds (w := v) hbank hvesting horig fun c hc ↦ (hv c).symm ▸ hpos c hc
    rw [hok] at hcleanup
    refine iff_of_true ⟨w₂, Program.bind_eq_ok.2 ⟨true, w₂, wrapErr_eq_ok.2 hcleanup, rfl⟩⟩ hpos
  · have hrefused : ∃ e w', cleanupExistingAccount k addr acc v = (.error e, w') :=
      cleanup_refused hbank hvesting fun h ↦ hpos fun c hc ↦ hv c ▸ h c hc
    obtain ⟨e, w₃, herror⟩ := hrefused
    rw [herror] at hcleanup
    refine iff_of_false ?_ hpos
    rintro ⟨w₄, hok⟩
    obtain ⟨_, _, hhandled, -⟩ := Program.bind_eq_ok.1 hok
    cases hcleanup.symm.trans (wrapErr_eq_ok.1 hhandled)

/-- A vesting account is emptied just when it has some of every denomination that was set up originally, and otherwise
instantiation on its address fails. -/
theorem vesting_pruned_iff (hprune : PrunesVesting k) (horig : orig.Pairwise fun c c' ↦ c.denom < c'.denom)
    (addr : AccAddress) (w : World X) :
    ((∃ w', cleanupExistingAccount k addr acc w = (.ok true, w') ∧ Emptied l addr orig w.store.ext w'.store.ext ∧
      w'.meter = w.meter) ↔ ∀ c ∈ orig, 0 < l.balance w.store.ext addr c.denom) ∧
    (Prunable k l w.store.ext addr acc → w.meter.infinite = true →
      ((∃ w', prepareAccount k addr w = (.ok (), w')) ↔ ∀ c ∈ orig, 0 < l.balance w.store.ext addr c.denom)) := by
  refine ⟨⟨?_, cleanup_succeeds hbank hvesting horig⟩, prepareAccount_iff hbank hvesting hprune horig⟩
  rintro ⟨w', hok, -⟩
  by_contra h
  obtain ⟨e, w₁, herror⟩ := cleanup_refused hbank hvesting h
  cases herror.symm.trans hok

end Cleanup

section Bank

/-- The accounts of a small bank. -/
structure BankState where
  balance : AccAddress → String → Nat
  supply : String → Int

def bankModule : AccAddress := [3]

def bankLedger : Ledger BankState := ⟨fun x a d ↦ x.balance a d, BankState.supply, bankModule⟩

/-- The bank looks at the amounts only. -/
def Payable (x : BankState) (a : AccAddress) (coins : Coins) : Prop :=
  ∀ c ∈ coins, 0 < c.amount ∧ c.amount ≤ x.balance a c.denom

instance (x : BankState) (a : AccAddress) (coins : Coins) : Decidable (Payable x a coins) :=
  inferInstanceAs (Decidable (∀ c ∈ coins, _))

def invalidCoins : Outcome Err Panic Unit := .error errInvalidCoins

def BankState.send (x : BankState) (a : AccAddress) (coins : Coins) : BankState :=
  { x with balance := fun a' d ↦ ((x.balance a' d : Int) - (if a' = a then coins.amountOf d else 0) +
      if a' = bankModule then coins.amountOf d else 0).toNat }

def BankState.burn (x : BankState) (coins : Coins) : BankState where
  balance a' d := ((x.balance a' d : Int) - if a' = bankModule then coins.amountOf d else 0).toNat
  supply d := x.supply d - coins.amountOf d

def vestingAddr : AccAddress := [7]

def vestingAccount : State.Account :=
  { type := 7, sequence := 0, hasPubKey := false, originalVesting := some [⟨"stake", 5⟩] }

def bankHost : Host BankState :=
  { emptyHost with
    getAccount := fun _ a ↦ if a = vestingAddr then some vestingAccount else none
    getBalance := fun a d x ↦ { state := x, result := .ok ⟨d, x.balance a d⟩ }
    sendCoinsFromAccountToModule := fun a coins x ↦
      if Payable x a coins then { state := x.send a coins, result := .ok () } else { state := x, result := invalidCoins }
    burnCoins := fun coins x ↦
      if Payable x bankModule coins then { state := x.burn coins, result := .ok () } else { state := x, result := invalidCoins } }

/-- A keeper on this bank, with the pruner it has by default. -/
def bankKeeper : Keeper BankState :=
  let k : Keeper BankState := { devnet idleContract with host := bankHost }
  { k with host := { bankHost with cleanupExistingAccount := fun addr acc ↦ stepOf (cleanupExistingAccount k addr acc) } }

/-- A vesting account with this much of its only denomination. -/
def vestedWorld (amount : Nat) : World BankState :=
  { store := { kv := .empty, ext := ⟨fun a d ↦ if a = vestingAddr ∧ d = "stake" then amount else 0, fun _ ↦ 100⟩ }
    meter := ⟨0, 0, true⟩ }

/-- The pruner does not look at itself. -/
theorem prunesVesting_bankKeeper : PrunesVesting bankKeeper := by
  intro addr acc
  have hbalances : ∀ coins vesting, appendBalances { devnet idleContract with host := bankHost } addr coins vesting =
      appendBalances bankKeeper addr coins vesting := by
    intro coins vesting
    induction vesting generalizing coins with
    | nil => rfl
    | cons c vesting ih => exact congrArg (external _ >>= ·) (funext fun balance ↦ ih _)
  change stepOf (cleanupExistingAccount { devnet idleContract with host := bankHost } addr acc) = _
  unfold cleanupExistingAccount burnBalances
  simp only [hbalances]
  rfl

theorem payable_of_canonical {x : BankState} {a : AccAddress} {coins : Coins} (h : coins.Canonical)
    (henough : ∀ c ∈ coins, c.amount ≤ bankLedger.balance x a c.denom) : Payable x a coins :=
  fun c hc ↦ ⟨h.positive c hc, henough c hc⟩

theorem amountOf_le_of_enough {x : BankState} {a : AccAddress} {coins : Coins} (h : coins.Canonical)
    (henough : ∀ c ∈ coins, c.amount ≤ bankLedger.balance x a c.denom) (d : String) :
    0 ≤ coins.amountOf d ∧ coins.amountOf d ≤ x.balance a d := by
  rcases Coins.amountOf_cases h.nodup d with ⟨c, hc, rfl, hamount⟩ | ⟨-, hamount⟩
  · rw [hamount]
    exact ⟨(h.positive c hc).le, henough c hc⟩
  · rw [hamount]
    exact ⟨le_rfl, Int.natCast_nonneg _⟩

theorem lawfulBank_bankKeeper : LawfulBank bankKeeper.host bankLedger where
  nonneg x a d := Int.natCast_nonneg _
  getBalance a d x := ⟨rfl, rfl⟩
  refuses a coins x h := by
    obtain ⟨c, hc, hle⟩ := h
    have hnot : ¬Payable x a coins := fun hp ↦ by
      have := (hp c hc).1
      omega
    exact ⟨errInvalidCoins, congrArg ExtStep.result (if_neg hnot)⟩
  sends a coins x h henough := by
    have hstep : bankKeeper.host.sendCoinsFromAccountToModule a coins x = { state := x.send a coins, result := .ok () } :=
      if_pos (payable_of_canonical h henough)
    rw [hstep]
    refine ⟨rfl, fun a' d ↦ ?_, fun d ↦ rfl⟩
    obtain ⟨hnonneg, hle⟩ := amountOf_le_of_enough h henough d
    refine Int.toNat_of_nonneg ?_
    split_ifs with h₁ h₂
    · subst h₁
      omega
    · subst h₁
      omega
    · omega
    · omega
  burns coins x h henough := by
    have hstep : bankKeeper.host.burnCoins coins x = { state := x.burn coins, result := .ok () } :=
      if_pos (payable_of_canonical h henough)
    rw [hstep]
    refine ⟨rfl, fun a' d ↦ ?_, fun d ↦ rfl⟩
    obtain ⟨hnonneg, hle⟩ := amountOf_le_of_enough h henough d
    refine Int.toNat_of_nonneg ?_
    split_ifs with h₁
    · rw [show bankLedger.moduleAddr = bankModule from rfl] at hle
      subst h₁
      omega
    · omega

theorem prunable_vestingAccount (amount : Nat) :
    Prunable bankKeeper bankLedger (vestedWorld amount).store.ext vestingAddr vestingAccount where
  found := rfl
  unclaimed := ⟨rfl, rfl⟩
  unaccepted := by decide
  replaced := ⟨rfl, fun _ _ ↦ rfl⟩

theorem vesting_pruned_iff_bankKeeper :
    (∃ w', cleanupExistingAccount bankKeeper vestingAddr vestingAccount (vestedWorld 5) = (.ok true, w') ∧
      Emptied bankLedger vestingAddr [⟨"stake", 5⟩] (vestedWorld 5).store.ext w'.store.ext ∧
      w'.meter = (vestedWorld 5).meter) ∧ ∃ w', prepareAccount bankKeeper vestingAddr (vestedWorld 5) = (.ok (), w') := by
  have hvesting : vestingAccount.originalVesting = some [⟨"stake", 5⟩] := rfl
  have hpruned := vesting_pruned_iff lawfulBank_bankKeeper hvesting
    prunesVesting_bankKeeper (List.pairwise_singleton _ _) vestingAddr (vestedWorld 5)
  have hpos : ∀ c ∈ [(⟨"stake", 5⟩ : Coin)], 0 < bankLedger.balance (vestedWorld 5).store.ext vestingAddr c.denom := by
    intro c hc
    rw [List.mem_singleton.1 hc]
    decide
  exact ⟨hpruned.1.2 hpos, (hpruned.2 (prunable_vestingAccount 5) rfl).2 hpos⟩

/-- Of a denomination that was set up originally the account has nothing: the pruner fails, and instantiation with it. -/
theorem spent_vesting_not_pruned :
    (cleanupExistingAccount bankKeeper vestingAddr vestingAccount (vestedWorld 0)).1 =
      .error (.wrap errInvalidCoins "prune account balance") ∧
    (prepareAccount bankKeeper vestingAddr (vestedWorld 0)).1 =
      .error (.wrap (.wrap errInvalidCoins "prune account balance") "prune balance") := by
  decide +kernel

end Bank

end Cosmwasgo.Properties
