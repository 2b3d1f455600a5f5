import Cosmwasgo.Keeper.Handlers
import Cosmwasgo.Runs.Roots

namespace Cosmwasgo.Properties

open Cosmwasgo.Lib Cosmwasgo.Types Cosmwasgo.State Cosmwasgo.Keeper Cosmwasgo.Runs

variable {X α β : Type} {k : Keeper X} {h : ResponseHandler X} {c : Ctx} {contractAddr : AccAddress} {port : String}
  {msg : CosmosMsg} {w w' : World X} {res : DispatchResult}

section Known

/-- No error of the program is or wraps `ErrUnknownMsg`. -/
def Known (m : M X α) : Prop := ∀ ⦃w e w'⦄, m w = (.error e, w') → e.is errUnknownMsg = false

namespace Known

theorem of_exit {m : M X α} (hm : ∀ w, (m w).1.exit ≠ .error) : Known m := by
  intro w e w' hr
  refine absurd ?_ (hm w)
  rw [hr]
  rfl

theorem pure (a : α) : Known (pure a : M X α) := of_exit fun _ ↦ nofun

theorem fail {e : Err} (he : e.is errUnknownMsg = false) : Known (Program.fail e : M X α) := by
  intro w e' w' hr
  cases hr
  exact he

theorem bind {m : M X α} {f : α → M X β} (hm : Known m) (hf : ∀ a, Known (f a)) : Known (m >>= f) := by
  intro w e w' hr
  rcases Program.bind_eq_error.1 hr with hr | ⟨a, w₁, -, hr⟩
  · exact hm hr
  · exact hf a hr

theorem read (f : World X → α) : Known (Program.read f) := of_exit fun _ ↦ nofun

theorem update (f : World X → World X) : Known (Program.update f) := of_exit fun _ ↦ nofun

theorem require {b : Bool} {e : Err} (he : e.is errUnknownMsg = false) : Known (Program.require b e : M X Unit) := by
  cases b with
  | true => exact pure ()
  | false => exact fail he

theorem consumeGas (amount : Gas) (descriptor : String) : Known (X := X) (Keeper.consumeGas amount descriptor) := by
  refine of_exit fun w ↦ ?_
  unfold Keeper.consumeGas
  split <;> nofun

theorem deleteKV (key : Bytes) : Known (Keeper.deleteKV k key) := by
  refine bind ?_ fun _ ↦ (consumeGas _ _).bind fun _ ↦ update _
  unfold assertValidKey
  split
  · exact of_exit fun _ ↦ nofun
  · exact pure ()

theorem external {f : X → ExtStep X α} (hf : ∀ x e, (f x).result = .error e → e.is errUnknownMsg = false) :
    Known (Keeper.external f) := by
  intro w e w' hr
  obtain hr | ⟨s, w₁, hs, hr⟩ := Program.bind_eq_error.1 hr
  · cases hr
  · cases hs
    refine ((update _).bind fun _ ↦ (consumeGas _ _).bind fun _ ↦ ?_) hr
    intro w₂ e' w₃ hfinish
    rw [Program.finish_apply] at hfinish
    exact hf _ e' (Prod.mk.inj hfinish).1

theorem wrapErr {m : M X α} (hm : Known m) (desc : String) : Known (Keeper.wrapErr m desc) := by
  intro w e w' hr
  unfold Keeper.wrapErr Program.attempt at hr
  rcases hrun : m w with ⟨a | e₁ | p | _, w₁⟩ <;> rw [hrun] at hr <;> cases hr
  have hwrap : (Err.wrap e₁ desc).is errUnknownMsg = e₁.is errUnknownMsg := rfl
  rw [hwrap]
  exact hm hrun

theorem withEventManager {m : M X α} (hm : Known m) : Known (Keeper.withEventManager m) := by
  intro w e w' hr
  rcases hrun : m { w with events := [] } with ⟨a | e₁ | p | _, w₁⟩ <;>
    rw [withEventManager_apply hrun] at hr <;> cases hr
  exact hm hrun

end Known

end Known

section Handlers

end Handlers

section Chain

end Chain

section Signers

end Signers

section Devnet

end Devnet

end Cosmwasgo.Properties
