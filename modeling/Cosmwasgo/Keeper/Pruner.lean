import Cosmwasgo.Keeper.Contracts

namespace Cosmwasgo.Keeper

open Cosmwasgo.Lib Cosmwasgo.Types Cosmwasgo.State

variable {X α : Type}

/-- `ctx.WithGasMeter(NewInfiniteGasMeter())`: the meter of the caller is as it was afterwards. -/
def withInfiniteGasMeter (m : M X α) : M X α := fun w ↦
  let r := m { w with meter := ⟨0, 0, true⟩ }
  (r.1, { r.2 with meter := w.meter })

/-- The balances of the denominations that were set up originally. -/
def appendBalances (k : Keeper X) (addr : AccAddress) (coinsToBurn : Coins) : Coins → M X Coins
  | [] => pure coinsToBurn
  | orig :: vesting => do
    let balance ← external (k.host.getBalance addr orig.denom)
    appendBalances k addr (coinsToBurn ++ [balance]) vesting

/-- The part of `CleanupExistingAccount` that runs on a meter of its own. -/
def burnBalances (k : Keeper X) (addr : AccAddress) (vesting : Coins) : M X Bool := do
  let coinsToBurn ← appendBalances k addr [] vesting
  wrapErr (external (k.host.sendCoinsFromAccountToModule addr coinsToBurn)) "prune account balance"
  wrapErr (external (k.host.burnCoins coinsToBurn)) "burn account balance"
  return true

/-- `VestingCoinBurner.CleanupExistingAccount`. -/
def cleanupExistingAccount (k : Keeper X) (addr : AccAddress) (existingAcc : Account) : M X Bool :=
  match existingAcc.originalVesting with
  | none => pure false
  | some vesting => withInfiniteGasMeter (burnBalances k addr vesting)

/-- A program that only concerns the other modules, as one step of theirs. -/
def stepOf (m : M X α) (x : X) : ExtStep X α :=
  let r := m { store := { kv := .empty, ext := x }, meter := ⟨0, 0, true⟩ }
  { state := r.2.store.ext, events := r.2.events, gas := r.2.meter.consumed, result := r.1 }

/-- The keeper was built with the `VestingCoinBurner`, as it is by default. -/
def PrunesVesting (k : Keeper X) : Prop := ∀ addr existingAcc,
  k.host.cleanupExistingAccount addr existingAcc = stepOf (cleanupExistingAccount k addr existingAcc)

end Cosmwasgo.Keeper
