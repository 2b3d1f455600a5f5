import Cosmwasgo.Keeper.Iteration

namespace Cosmwasgo.Migrations.V1

open Cosmwasgo.Lib Cosmwasgo.Types Cosmwasgo.State Cosmwasgo.Keeper

variable {X : Type}

def mustAccAddressFromBech32 (k : Keeper X) (address : String) : Except Panic AccAddress :=
  (k.bech32.fromBech32 address).mapError fun e ↦ .other e.error

/-- The callback of `Migrate1to2`, with the index function the keeper's own migrator hands over. -/
def indexCreator (k : Keeper X) (_ : Unit) (c : AccAddress × ContractInfo) : M X (Unit × Bool) := do
  let creator ← liftPanic (mustAccAddressFromBech32 k c.2.creator)
  addToContractCreatorSecondaryIndex k creator c.2.created c.1
  return ((), false)

def migrate1to2 (k : Keeper X) : M X Unit := iterateContractInfo k (indexCreator k) ()

end Cosmwasgo.Migrations.V1
