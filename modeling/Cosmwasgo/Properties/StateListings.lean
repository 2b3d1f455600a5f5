import Cosmwasgo.Properties.ContractListings
import Cosmwasgo.Properties.RoundTrip

namespace Cosmwasgo.Properties

open Cosmwasgo.Lib Cosmwasgo.Types Cosmwasgo.State Cosmwasgo.Keeper Cosmwasgo.Runs Cosmwasgo.Registry

variable {X : Type} {k : Keeper X} {address : String} {a : AccAddress} {d d' : Durable X}

def modelEntry (m : Bytes × Bytes) : Bytes × Value := (m.1, .bytes m.2)

section Devnet

end Devnet

end Cosmwasgo.Properties
