import Cosmwasgo.Keeper.GasRegister
import Cosmwasgo.Properties.Gas
import Cosmwasgo.Runs.Entries
import Cosmwasgo.Runs.Roots

namespace Cosmwasgo.Properties

open Cosmwasgo.Lib Cosmwasgo.Types Cosmwasgo.State Cosmwasgo.Keeper Cosmwasgo.Runs

variable {X ρ α β : Type} {k : Keeper X} {h : ResponseHandler X} {c : Ctx} {w w₁ w₂ : World X}

/-- A meter with a limit that only grows, by at least `n`. -/
structure Rises (n : Nat) (m m' : GasMeter) : Prop where
  finite : m'.infinite = false
  consumed : m.consumed.toNat + n ≤ m'.consumed.toNat

theorem Rises.trans {n n' : Nat} {m m' m'' : GasMeter} (h₁ : Rises n m m') (h₂ : Rises n' m' m'') :
    Rises (n + n') m m'' := ⟨h₂.finite, by have := h₁.consumed; have := h₂.consumed; omega⟩

theorem Rises.of_spends {m m' : GasMeter} {x : Exit} (hm : m.infinite = false) (hs : m.Spends x m') : Rises 0 m m' :=
  ⟨hs.infinite.trans hm, hs.grows hm⟩

/-- A run that ends well has cost at least `n`. -/
def Costs (n : Nat) (m : M X α) : Prop :=
  ∀ ⦃w a w'⦄, m w = (.ok a, w') → w.meter.infinite = false → Rises n w.meter w'.meter

namespace Costs

variable {n : Nat} {m : M X α} {f : α → M X β}

theorem of_spends (hm : ∀ w : World X, w.meter.Spends (m w).1.exit (m w).2.meter) : Costs 0 m := by
  intro w a w' hr hfin
  have hs := hm w
  rw [hr] at hs
  exact .of_spends hfin hs

theorem of_local {o : Option AccAddress} (hm : Local o m) : Costs 0 m := of_spends fun w ↦ (hm.keeps w).meter

theorem of_writes {post : Durable X → α → Durable X → Prop} (hm : Writes m post) : Costs 0 m := of_spends hm.meter

theorem pure (a : α) : Costs (X := X) 0 (pure a) := of_local (o := none) (.pure a)

theorem fail (e : Err) : Costs n (Program.fail e : M X α) := nofun

theorem observe (o : Observation X) : Costs 0 (Keeper.observe o) := of_spends fun _ ↦ .refl _ _

theorem bind {n' : Nat} (hm : Costs n m) (hf : ∀ a, Costs n' (f a)) : Costs (n + n') (m >>= f) := by
  intro w b w' hr hfin
  obtain ⟨a, w₁, h₁, h₂⟩ := Program.bind_eq_ok.1 hr
  have hrise := hm h₁ hfin
  exact hrise.trans (hf a h₂ hrise.finite)

/-- The charge may be in the second part … -/
theorem after (hm : Costs 0 m) (hf : ∀ a, Costs n (f a)) : Costs n (m >>= f) := by
  have := hm.bind hf
  rwa [Nat.zero_add] at this

/-- … or in the first one. -/
theorem before (hm : Costs n m) (hf : ∀ a, Costs 0 (f a)) : Costs n (m >>= f) := hm.bind hf

theorem liftPanic {x : Except Panic α} (hf : ∀ a, x = .ok a → Costs n (f a)) : Costs n (Keeper.liftPanic x >>= f) := by
  cases x with
  | error p => exact nofun
  | ok a => exact hf a rfl

theorem authorize (c : Ctx) (policy : AuthorizationPolicy) (decision : Except Panic Bool) (e : Err) :
    Costs (X := X) 0 (Keeper.authorize c policy decision e) :=
  (observe _).after fun _ ↦ (of_local (o := none) (.liftPanic _)).after fun _ ↦ of_local (o := none) (.require _ _)

end Costs

/-- A preparation that arrives at a call of the VM has cost at least `n`. -/
def CallCosts (n : Nat) (p : M X (Option (Invocation X ρ α))) : Prop :=
  ∀ ⦃w v w₁⦄, p w = (.ok (some v), w₁) → w.meter.infinite = false → Rises n w.meter w₁.meter

namespace CallCosts

variable {n : Nat} {m : M X β} {f : β → M X (Option (Invocation X ρ α))}

theorem after (hm : Costs 0 m) (hf : ∀ b, CallCosts n (f b)) : CallCosts n (m >>= f) := by
  intro w v w₁ hr hfin
  obtain ⟨b, w', h₁, h₂⟩ := Program.bind_eq_ok.1 hr
  have hrise := hm h₁ hfin
  have htotal := hrise.trans (hf b h₂ hrise.finite)
  rwa [Nat.zero_add] at htotal

theorem fail (e : Err) : CallCosts n (Program.fail e : M X (Option (Invocation X ρ α))) := nofun

theorem skip : CallCosts n (pure none : M X (Option (Invocation X ρ α))) := nofun

end CallCosts

section Setup

/-- The length of the message a contract is loaded for. -/
def msgLen : ContractEntry → Nat
  | .instantiate _ _ _ initMsg .. => initMsg.length
  | .execute _ _ msg _ => msg.length
  | .migrate _ _ _ msg _ => msg.length
  | .sudoContract _ msg => msg.length
  | .reply _ r => WasmGasRegister.replyMsgLen r
  | .query _ _ req => req.length
  | _ => 0

variable {g : WasmGasRegisterConfig}

variable (hk : k.gasRegister = wasmGasRegister g)

include hk

end Setup

section Conclusion

variable {n : Nat}

end Conclusion

section Charge

variable {g : WasmGasRegisterConfig}

theorem newWasmGasRegister_eq {r : GasRegister} (hr : newWasmGasRegister g = .ok r) : r = wasmGasRegister g := by
  unfold newWasmGasRegister at hr
  split at hr
  · cases hr
  · exact (Except.ok.inj hr).symm

end Charge

section Devnet

/-- A contract that takes two units of SDK gas to do nothing. -/
def busyContract (_ : Bytes) (_ : ContractCall) : VMScript Response := .done 280000 (.ok (some { ok := some {} }))

/-- A devnet that charges the SDK's flat fees for the store. -/
def chargenet (g : WasmGasRegisterConfig) : Keeper Unit :=
  let k := plainnet busyContract
  { k with
    gasRegister := wasmGasRegister g
    kvGas := fun
      | .get _ _ => 1000
      | .has _ => 1000
      | .set _ _ => 2000
      | .delete _ => 1000
      | .iterate _ count => 30 * UInt64.ofNat count }

/-- After carol has set up the contract, with gas for a call. -/
def chargeWorld (g : WasmGasRegisterConfig) : World Unit :=
  { worldOf (delivered (chargenet g) (durable openWorld) [storeCodeMsg carol, instantiateMsg carol]) with
    meter := .new 1000000 }

def chargePrepared (g : WasmGasRegisterConfig) (e : ContractEntry) :
    Outcome Err Panic (Option (Invocation Unit e.Answer e.Result)) × World Unit :=
  e.prepare (chargenet g) (responseHandler (chargenet g) 5) genesisCtx (chargeWorld g)

end Devnet

end Cosmwasgo.Properties
