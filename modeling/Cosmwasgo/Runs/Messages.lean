import Cosmwasgo.Runs.Operations

namespace Cosmwasgo.Runs

open Cosmwasgo.Lib Cosmwasgo.Types Cosmwasgo.State Cosmwasgo.Keeper MsgServer

variable {X α β : Type} {k : Keeper X} {R : Regime k} {h : ResponseHandler X} {c : Ctx}

/-- The sender of a message is permitted what the message asks for, under the policy it gets. -/
def Warrants (R : Regime k) (c : Ctx) (m : Msg) : Prop :=
  ∀ {op actor}, Performs k m op → k.bech32.fromBech32 m.sender = .ok actor →
    R.permits c op actor (selectAuthorizationPolicy k c m.sender)

namespace Regime

theorem clean_decode {addr field : String} {f : AccAddress → M X β}
    (hf : ∀ a, k.bech32.fromBech32 addr = .ok a → (R.clean (before c)).Obeys (f a)) :
    (R.clean (before c)).Obeys (decode k addr field >>= f) := by
  refine (Local.decode addr field).clean.bind_of fun w a w' hd ↦ ?_
  exact hf a (wrap_eq_ok.1 (Program.lift_eq_ok.1 hd).1) w'

section Handlers

variable (hh : HandlerObeys R h)

include hh

theorem clean_instantiateContract {msg : MsgInstantiateContract} (hp : Warrants R c (.instantiateContract msg)) :
    (R.clean (before c)).Obeys (instantiateContract k h c msg) := by
  refine (Local.lift _).clean.bind fun _ ↦ clean_decode fun sender hs ↦ ?_
  refine (Local.decodeAdmin _).clean.bind fun admin ↦ ?_
  exact (clean_instantiate hh (hp (.instantiateContract msg) hs) generates_classic (k.bech32.fromBech32_valid hs) _ admin
    _ _ _).bind fun _ ↦ .pure _

theorem clean_instantiateContract2 {msg : MsgInstantiateContract2} (hp : Warrants R c (.instantiateContract2 msg)) :
    (R.clean (before c)).Obeys (instantiateContract2 k h c msg) := by
  refine (Local.lift _).clean.bind fun _ ↦ clean_decode fun sender hs ↦ ?_
  refine (Local.decodeAdmin _).clean.bind fun admin ↦ ?_
  exact (clean_instantiate hh (hp (.instantiateContract2 msg) hs) (generates_predictable _ _ _ _)
    (k.bech32.fromBech32_valid hs) _ admin _ _ _).bind fun _ ↦ .pure _

theorem clean_executeContract (msg : MsgExecuteContract) : (R.clean (before c)).Obeys (executeContract k h c msg) := by
  refine (Local.lift _).clean.bind fun _ ↦ (Local.decode _ _).clean.bind fun sender ↦ ?_
  exact (Local.decode _ _).clean.bind fun addr ↦ (clean_execute hh addr sender _ _).bind fun _ ↦ .pure _

theorem clean_migrateContract {msg : MsgMigrateContract} (hp : Warrants R c (.migrateContract msg)) :
    (R.clean (before c)).Obeys (migrateContract k h c msg) := by
  refine (Local.lift _).clean.bind fun _ ↦ clean_decode fun sender hs ↦ clean_decode fun addr ha ↦ ?_
  exact (clean_migrate hh (hp (.migrateContract ha) hs) _ _).bind fun _ ↦ .pure _

theorem clean_sudoMsg (req : MsgSudoContract) : (R.clean (before c)).Obeys (MsgServer.sudoContract k h c req) := by
  refine (Local.lift _).clean.bind fun _ ↦ (Local.requireAuthority _).clean.bind fun _ ↦ ?_
  exact (Local.decode _ _).clean.bind fun addr ↦ (clean_sudoContract hh addr _).bind fun _ ↦ .pure _

theorem clean_storeAndInstantiateContract {req : MsgStoreAndInstantiateContract} (hp : Warrants R c (.storeAndInstantiateContract req)) :
    (R.clean (before c)).Obeys (storeAndInstantiateContract k h c req) := by
  refine (Local.lift _).clean.bind fun _ ↦ clean_decode fun authority ha ↦ ?_
  refine (Local.decodeAdmin _).clean.bind fun admin ↦ ?_
  refine (clean_create (hp (.storeAndInstantiate_create req) ha) _ _).bind fun (codeID, _) ↦ ?_
  exact (clean_instantiate hh (hp (.storeAndInstantiateContract req) ha) generates_classic
    (k.bech32.fromBech32_valid ha) codeID admin _ _ _).bind fun _ ↦ .pure _

theorem clean_storeAndMigrateContract {req : MsgStoreAndMigrateContract} (hp : Warrants R c (.storeAndMigrateContract req)) :
    (R.clean (before c)).Obeys (storeAndMigrateContract k h c req) := by
  refine clean_decode fun authority hs ↦ (Local.lift _).clean.bind fun _ ↦ ?_
  refine (clean_create (hp (.storeAndMigrate_create req) hs) _ _).bind fun (codeID, checksum) ↦ ?_
  refine clean_decode fun addr ha ↦ ?_
  exact (clean_migrate hh (hp (.storeAndMigrateContract ha) hs) codeID _).bind fun _ ↦ .pure _

end Handlers

theorem clean_storeCode {msg : MsgStoreCode} (hp : Warrants R c (.storeCode msg)) :
    (R.clean (before c)).Obeys (storeCode k c msg) := by
  refine (Local.lift _).clean.bind fun _ ↦ clean_decode fun sender hs ↦ ?_
  exact (clean_create (hp (.storeCode msg) hs) _ _).bind fun (codeID, checksum) ↦ .pure _

theorem clean_updateAdmin {msg : MsgUpdateAdmin} (hp : Warrants R c (.updateAdmin msg)) :
    (R.clean (before c)).Obeys (updateAdmin k c msg) := by
  refine (Local.lift _).clean.bind fun _ ↦ clean_decode fun sender hs ↦ clean_decode fun addr ha ↦ ?_
  refine (Local.decode _ _).clean.bind fun newAdmin ↦ ?_
  exact (clean_setContractAdmin (hp (.updateAdmin ha) hs) newAdmin).bind fun _ ↦ .pure _

theorem clean_clearAdmin {msg : MsgClearAdmin} (hp : Warrants R c (.clearAdmin msg)) :
    (R.clean (before c)).Obeys (clearAdmin k c msg) := by
  refine (Local.lift _).clean.bind fun _ ↦ clean_decode fun sender hs ↦ clean_decode fun addr ha ↦ ?_
  exact (clean_setContractAdmin (hp (.clearAdmin ha) hs) []).bind fun _ ↦ .pure _

theorem clean_updateContractLabel {msg : MsgUpdateContractLabel} (hp : Warrants R c (.updateContractLabel msg)) :
    (R.clean (before c)).Obeys (updateContractLabel k c msg) := by
  refine (Local.lift _).clean.bind fun _ ↦ clean_decode fun sender hs ↦ clean_decode fun addr ha ↦ ?_
  exact (clean_setContractLabel (hp (.updateContractLabel ha) hs) _).bind fun _ ↦ .pure _

theorem clean_updateInstantiateConfig {msg : MsgUpdateInstantiateConfig} (hp : Warrants R c (.updateInstantiateConfig msg)) :
    (R.clean (before c)).Obeys (updateInstantiateConfig k c msg) := by
  refine (Local.lift _).clean.bind fun _ ↦ clean_decode fun sender hs ↦ (Local.deref _).clean.bind fun config ↦ ?_
  exact (clean_setAccessConfig (hp (.updateInstantiateConfig msg) hs) _ config).bind fun _ ↦ .pure _

/-- The handlers only the authority may call start alike. -/
theorem clean_authorityOnly {x : Except Err Unit} {authority : String} {m : M X β} (hm : (R.clean (before c)).Obeys m) :
    (R.clean (before c)).Obeys (do Program.lift x; requireAuthority k authority; m) :=
  (Local.lift x).clean.bind fun _ ↦ (Local.requireAuthority authority).clean.bind fun _ ↦ hm

theorem clean_eachCode {f : UInt64 → M X Unit} (hf : ∀ id, (R.clean (before c)).Obeys (f id)) (ids : List UInt64) :
    (R.clean (before c)).Obeys (eachCode f ids) := by
  induction ids with
  | nil => exact .pure ()
  | cons id ids ih => exact (hf id).bind fun _ ↦ ih

theorem clean_updateUploadAddresses (update : List String → List String) :
    (R.clean (before c)).Obeys (updateUploadAddresses k update) :=
  Local.getParams.clean.bind fun _ ↦ (Local.require _ _).clean.bind fun _ ↦
    (clean_setParams _).bind fun _ ↦ .pure _

/-- Every handler obeys the regime, with the policy its sender gets. -/
theorem clean_serve (hh : HandlerObeys R h) (c : Ctx) (m : Msg) :
    (R.clean (before (c.push (.message m)))).Obeys (serve k h (c.push (.message m)) m) := by
  have hp : Warrants R (c.push (.message m)) m := R.permits_select c
  cases m with
  | storeCode m => exact clean_storeCode hp
  | instantiateContract m => exact clean_instantiateContract hh hp
  | instantiateContract2 m => exact clean_instantiateContract2 hh hp
  | executeContract m => exact clean_executeContract hh m
  | migrateContract m => exact clean_migrateContract hh hp
  | updateAdmin m => exact clean_updateAdmin hp
  | clearAdmin m => exact clean_clearAdmin hp
  | updateInstantiateConfig m => exact clean_updateInstantiateConfig hp
  | updateParams m => exact clean_authorityOnly ((clean_setParams _).bind fun _ ↦ .pure _)
  | sudoContract m => exact clean_sudoMsg hh m
  | pinCodes m => exact clean_authorityOnly ((clean_eachCode clean_pinCode _).bind fun _ ↦ .pure _)
  | unpinCodes m => exact clean_authorityOnly ((clean_eachCode clean_unpinCode _).bind fun _ ↦ .pure _)
  | storeAndInstantiateContract m => exact clean_storeAndInstantiateContract hh hp
  | addCodeUploadParamsAddresses m => exact clean_authorityOnly (clean_updateUploadAddresses _)
  | removeCodeUploadParamsAddresses m => exact clean_authorityOnly (clean_updateUploadAddresses _)
  | storeAndMigrateContract m => exact clean_storeAndMigrateContract hh hp
  | updateContractLabel m => exact clean_updateContractLabel hp

/-- The changes of a message that fails are marked, so its errors are not clean. -/
theorem obeys_handleMsg (hh : HandlerObeys R h) (c : Ctx) (m : Msg) :
    (R.discipline (before c)).Obeys (handleMsg k h c m) := by
  intro w
  have hs := clean_obeys (clean_serve hh c m) w
  unfold handleMsg MsgServer.settle
  rcases hr : serve k h (c.push (.message m)) m w with ⟨a | e | p | _, w'⟩ <;> rw [hr] at hs
  · exact R.enter (.message c m) hs
  · exact R.settle hs
  · exact R.enter (.message c m) hs
  · exact R.enter (.message c m) hs

end Regime

end Cosmwasgo.Runs
