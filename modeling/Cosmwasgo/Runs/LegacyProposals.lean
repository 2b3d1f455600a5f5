import Cosmwasgo.Keeper.LegacyProposals
import Cosmwasgo.Runs.Roots

namespace Cosmwasgo.Runs

open Cosmwasgo.Lib Cosmwasgo.Types Cosmwasgo.State Cosmwasgo.Keeper MsgServer

variable {X α : Type} {k : Keeper X} {h : ResponseHandler X} {c : Ctx}

/-- What a proposal asks the keeper for, and in whose name. Changes of an admin and of permissions are in nobody's. -/
inductive Asks (k : Keeper X) : Content → Operation → AccAddress → Prop
  | storeCode {p : StoreCodeProposal} {a : AccAddress} (ha : k.bech32.fromBech32 p.runAs = .ok a) :
      Asks k (.storeCode p) .create a
  | instantiateContract {p : InstantiateContractProposal} {a : AccAddress} (ha : k.bech32.fromBech32 p.runAs = .ok a) :
      Asks k (.instantiateContract p) .instantiate a
  | instantiateContract2 {p : InstantiateContract2Proposal} {a : AccAddress}
      (ha : k.bech32.fromBech32 p.runAs = .ok a) : Asks k (.instantiateContract2 p) .instantiate a
  | migrateContract {p : MigrateContractProposal} {a : AccAddress} (ha : k.bech32.fromBech32 p.contract = .ok a) :
      Asks k (.migrateContract p) (.migrate a) a
  | updateAdmin {p : UpdateAdminProposal} {a : AccAddress} (ha : k.bech32.fromBech32 p.contract = .ok a) :
      Asks k (.updateAdmin p) (.modify .admin a) []
  | clearAdmin {p : ClearAdminProposal} {a : AccAddress} (ha : k.bech32.fromBech32 p.contract = .ok a) :
      Asks k (.clearAdmin p) (.modify .admin a) []
  | updateInstantiateConfig (p : UpdateInstantiateConfigProposal) : Asks k (.updateInstantiateConfig p) .setAccess []
  | storeAndInstantiate_create {p : StoreAndInstantiateContractProposal} {a : AccAddress}
      (ha : k.bech32.fromBech32 p.runAs = .ok a) : Asks k (.storeAndInstantiateContract p) .create a
  | storeAndInstantiateContract {p : StoreAndInstantiateContractProposal} {a : AccAddress}
      (ha : k.bech32.fromBech32 p.runAs = .ok a) : Asks k (.storeAndInstantiateContract p) .instantiate a

namespace Regime

variable {R : Regime k}

theorem clean_emitGovContractResult (data : Option Bytes) :
    (R.clean (before c)).Obeys (emitGovContractResult (newGovPermissionKeeper k) data) :=
  (Local.emitEvents _).clean

theorem clean_onCode {f : UInt64 → M X Unit} (hf : ∀ id, (R.clean (before c)).Obeys (f id)) (id : UInt64) :
    (R.clean (before c)).Obeys (onCode f id) := clean_wrapErr (hf id) _

theorem clean_setAccessConfigs (hp : R.permits c .setAccess [] (.gov [])) (updates : List AccessConfigUpdate) :
    (R.clean (before c)).Obeys (setAccessConfigs (newGovPermissionKeeper k) c updates) := by
  induction updates with
  | nil => exact .pure ()
  | cons u rest ih =>
    refine Discipline.Obeys.bind ?_ fun _ ↦ ih
    exact clean_onCode (fun id ↦ clean_setAccessConfig hp id u.instantiatePermission) u.codeID

/-- The handler obeys a regime that permits what the proposal asks for under the policy of the governance. -/
theorem clean_newLegacyWasmProposalHandler (hh : HandlerObeys R h) (content : Content)
    (hp : ∀ {op actor}, Asks k content op actor → R.permits c op actor (.gov [])) (enabled : List String) :
    (R.clean (before c)).Obeys (newLegacyWasmProposalHandler k h enabled c (some content)) := by
  refine (Local.require _ _).clean.bind fun _ ↦ ?_
  cases content with
  | storeCode p =>
    refine (Local.lift _).clean.bind fun _ ↦ clean_decode fun runAs ha ↦ ?_
    refine (clean_create (hp (.storeCode ha)) _ _).bind fun created ↦ ?_
    refine (Local.require _ _).clean.bind fun _ ↦ ?_
    split
    · exact .pure ()
    · exact clean_pinCode _
  | instantiateContract p =>
    refine (Local.lift _).clean.bind fun _ ↦ clean_decode fun runAs ha ↦ ?_
    refine (Local.decodeAdmin _).clean.bind fun admin ↦ ?_
    exact (clean_instantiate hh (hp (.instantiateContract ha)) generates_classic (k.bech32.fromBech32_valid ha) _ admin
      _ _ _).bind fun result ↦ clean_emitGovContractResult _
  | instantiateContract2 p =>
    refine (Local.lift _).clean.bind fun _ ↦ clean_decode fun runAs ha ↦ ?_
    refine (Local.decodeAdmin _).clean.bind fun admin ↦ ?_
    exact (clean_instantiate hh (hp (.instantiateContract2 ha)) (generates_predictable _ _ _ _)
      (k.bech32.fromBech32_valid ha) _ admin _ _ _).bind fun result ↦ clean_emitGovContractResult _
  | migrateContract p =>
    refine (Local.lift _).clean.bind fun _ ↦ clean_decode fun contract ha ↦ ?_
    exact (clean_migrate hh (hp (.migrateContract ha)) _ _).bind fun data ↦ clean_emitGovContractResult _
  | sudoContract p =>
    refine (Local.lift _).clean.bind fun _ ↦ clean_decode fun contract _ ↦ ?_
    exact (clean_sudoContract hh contract _).bind fun data ↦ clean_emitGovContractResult _
  | executeContract p =>
    refine (Local.lift _).clean.bind fun _ ↦ clean_decode fun contract _ ↦ clean_decode fun runAs _ ↦ ?_
    exact (clean_execute hh contract runAs _ _).bind fun data ↦ clean_emitGovContractResult _
  | updateAdmin p =>
    refine (Local.lift _).clean.bind fun _ ↦ clean_decode fun contract ha ↦ clean_decode fun newAdmin _ ↦ ?_
    exact clean_setContractAdmin (hp (.updateAdmin ha)) newAdmin
  | clearAdmin p =>
    refine (Local.lift _).clean.bind fun _ ↦ clean_decode fun contract ha ↦ ?_
    exact clean_setContractAdmin (hp (.clearAdmin ha)) []
  | pinCodes p => exact (Local.lift _).clean.bind fun _ ↦ clean_eachCode (clean_onCode clean_pinCode) _
  | unpinCodes p => exact (Local.lift _).clean.bind fun _ ↦ clean_eachCode (clean_onCode clean_unpinCode) _
  | updateInstantiateConfig p =>
    exact (Local.lift _).clean.bind fun _ ↦ clean_setAccessConfigs (hp (.updateInstantiateConfig p)) _
  | storeAndInstantiateContract p =>
    refine (Local.lift _).clean.bind fun _ ↦ clean_decode fun runAs ha ↦ ?_
    refine (Local.decodeAdmin _).clean.bind fun admin ↦ ?_
    refine (clean_create (hp (.storeAndInstantiate_create ha)) _ _).bind fun created ↦ ?_
    refine (Local.require _ _).clean.bind fun _ ↦ ?_
    have hrest := (clean_instantiate hh (hp (.storeAndInstantiateContract ha)) generates_classic
      (k.bech32.fromBech32_valid ha) created.1 admin p.msg p.label p.funds).bind fun result ↦
        clean_emitGovContractResult (R := R) (c := c) result.2
    split
    · exact hrest
    · exact (clean_pinCode _).bind fun _ ↦ hrest
  | other proposalType goType => exact (Local.fail _).clean

end Regime

/-- The handler as an application installs it, for contracts whose messages nest at most `n` deep. -/
def legacyHandler (k : Keeper X) (n : Nat) (enabled : List String) (c : Ctx) (content : Option Content) : M X Unit :=
  newLegacyWasmProposalHandler k (responseHandler k n) enabled c content

theorem steps_legacyHandler (n : Nat) (enabled : List String) (c : Ctx) (content : Option Content) (w : World X) :
    Steps k Anybody c (durable w) (committed (legacyHandler k n enabled c content) w) := by
  cases content with
  | none => exact .refl
  | some content =>
    have hh := Regime.handlerObeys_responseHandler (R := freeRegime k) (stepsRegime_observes _) n
    have hclean := Regime.clean_newLegacyWasmProposalHandler (c := c) hh content (fun _ ↦ trivial) enabled
    exact steps_committed (Regime.clean_obeys hclean) w

/-- What happens on a chain from a state on: operations of the keeper and proposals of the governance, each kept or
reverted as a whole, and whatever the other modules do. -/
inductive ChainRun (k : Keeper X) (d : Durable X) : Durable X → Prop
  | start : ChainRun k d d
  | op {n : Nat} {c : Ctx} {α : Type} {m : M X α} {w : World X} (h : ChainRun k d (durable w))
      (hop : RootOp k n c α m) : ChainRun k d (committed m w)
  | proposal {n : Nat} {c : Ctx} {enabled : List String} {w : World X} (h : ChainRun k d (durable w))
      (content : Option Content) : ChainRun k d (committed (legacyHandler k n enabled c content) w)
  | outside {d' : Durable X} (h : ChainRun k d d') (x : X) : ChainRun k d (d'.withExt x)

namespace ChainRun

variable {d d' d₁ : Durable X}

theorem invariant {P : Durable X → Prop} (h₀ : P d) (hstep : ∀ {c d₁ d₂}, Step k Anybody c d₁ d₂ → P d₁ → P d₂)
    (h : ChainRun k d d') : P d' := by
  have hsteps : ∀ {c d₁ d₂}, Steps k Anybody c d₁ d₂ → P d₁ → P d₂ := by
    intro c d₁ d₂ h hd
    induction h with
    | refl => exact hd
    | tail _ h ih => exact hstep h ih
  induction h with
  | start => exact h₀
  | op _ hop ih => exact hsteps (hop.steps _) ih
  | @proposal n c enabled w _ content ih => exact hsteps (steps_legacyHandler n enabled c content w) ih
  | outside _ x ih => exact hstep (c := genesisCtx) (.quiet (by simp) (.withExt _ x)) ih

theorem trans (h : ChainRun k d d₁) (h' : ChainRun k d₁ d') : ChainRun k d d' := by
  induction h' with
  | start => exact h
  | op _ hop ih => exact ih.op hop
  | proposal _ content ih => exact ih.proposal content
  | outside _ x ih => exact ih.outside x

end ChainRun

end Cosmwasgo.Runs
