import Cosmwasgo.Keeper.Actions
import Cosmwasgo.Keeper.Validation
import Cosmwasgo.Types.Coins

namespace Cosmwasgo.Keeper

open Cosmwasgo.Lib Cosmwasgo.Types Cosmwasgo.State

variable {X : Type} (k : Keeper X)

def newIntFromString (s : String) : Option Int := (k.lib.setString s).filter fun i ↦ FitsInt i

/-- `Coin.Validate` of the SDK. -/
def validateCoin (coin : Coin) : Except Err Unit := do
  k.lib.validateDenom coin.denom
  check (0 ≤ coin.amount) (.text ("negative coin amount: " ++ toString coin.amount))

def convertWasmCoinToSdkCoin (coin : WasmCoin) : Except Err Coin :=
  match newIntFromString k coin.amount with
  | none => .error (.wrap errInvalidCoins (coin.amount ++ coin.denom))
  | some amount => do
    let r : Coin := ⟨coin.denom, amount⟩
    validateCoin k r
    return r

/-- The loop of `ConvertWasmCoinsToSdkCoins`. -/
def addWasmCoins (toSend : Coins) : List WasmCoin → M X Coins
  | [] => pure toSend
  | coin :: coins => do
    let c ← Program.lift (convertWasmCoinToSdkCoin k coin)
    let toSend ← liftPanic (toSend.add [c])
    addWasmCoins toSend coins

def convertWasmCoinsToSdkCoins (coins : List WasmCoin) : M X Coins := do
  let toSend ← addWasmCoins k [] coins
  return toSend.sort

end Cosmwasgo.Keeper
