import Cosmwasgo.Runs.Tree

namespace Cosmwasgo.Runs

open Cosmwasgo.Lib Cosmwasgo.Types Cosmwasgo.State Cosmwasgo.Keeper MsgServer

variable {X α β γ δ C : Type} {k : Keeper X}

namespace Oblivious

theorem observe (o : Observation X) : Oblivious (Keeper.observe o) :=
  .update fun _ _ _ _ h ↦ ⟨h.store, h.meter, h.txContracts, h.vm, h.events⟩

theorem observeStore (o : Store X → Observation X) : Oblivious (Keeper.observeStore o) :=
  .update fun _ _ _ _ h ↦ ⟨h.store, h.meter, h.txContracts, h.vm, h.events⟩

theorem authorize (c : Ctx) (p : AuthorizationPolicy) (decision : Except Panic Bool) (e : Err) :
    Oblivious (X := X) (Keeper.authorize c p decision e) :=
  (observe _).bind fun _ ↦ (Local.liftPanic (o := none) _).oblivious.bind fun _ ↦
    (Local.require (o := none) _ _).oblivious

theorem ite {c : Prop} [Decidable c] {m m' : M X α} (h : Oblivious m) (h' : Oblivious m') :
    Oblivious (if c then m else m') := by
  split
  · exact h
  · exact h'

theorem updateVM (f : VMCache → VMCache) :
    Oblivious (Program.update fun w : World X ↦ { w with vm := f w.vm } : M X Unit) :=
  .update fun _ _ _ _ h ↦ ⟨h.store, h.meter, h.txContracts, by simp only [h.vm], h.events⟩

theorem vmStoreCode (code : Bytes) (gasLimit : Gas) : Oblivious (Keeper.vmStoreCode k code gasLimit) := by
  refine ite (.pure _) ?_
  split
  · exact .pure _
  · exact (updateVM fun vm ↦ { vm with codes := vm.codes.set _ code }).bind fun _ ↦ .pure _

theorem create (c : Ctx) (creator : AccAddress) (code : Bytes) (access : Option AccessConfig)
    (authZ : AuthorizationPolicy) : Oblivious (Keeper.create k c creator code access authZ) := by
  refine (Local.require (o := none) _ _).oblivious.bind fun _ ↦ (Local.getParams (o := none)).oblivious.bind fun _ ↦ ?_
  refine (Local.liftPanic (o := none) _).oblivious.bind fun _ ↦ (Local.getParams (o := none)).oblivious.bind fun _ ↦ ?_
  refine (authorize _ _ _ _).bind fun _ ↦ (Local.unpackCode (o := none) code).oblivious.bind fun code ↦ ?_
  refine (Local.runtimeGasForContract (o := none) k).oblivious.bind fun gasLeft ↦ ?_
  refine (vmStoreCode code gasLeft).bind fun (stored, gasUsed) ↦ ?_
  refine (Local.consumeRuntimeGas (o := none) k gasUsed).oblivious.bind fun _ ↦ ?_
  refine (Local.lift (o := none) _).oblivious.bind fun _ ↦ (Local.analyzeCode (o := none) _ _).oblivious.bind fun _ ↦ ?_
  refine (Writes.persistCode k _).oblivious.bind fun _ ↦ (Local.emitEvents (o := none) _).oblivious.bind fun _ ↦ ?_
  exact .pure _

theorem modifyContract (c : Ctx) (kind : ChangeKind) (addr caller : AccAddress) (authZ : AuthorizationPolicy)
    (change : ContractInfo → ContractInfo) : Oblivious (Keeper.modifyContract k c kind addr caller authZ change) := by
  refine (Local.getContractInfo (o := none) addr).oblivious.bind fun r ↦ ?_
  cases r with
  | none => exact .fail _
  | some info =>
    refine (Local.liftPanic (o := none) _).oblivious.bind fun _ ↦ (authorize _ _ _ _).bind fun _ ↦ ?_
    exact (Writes.recordChange _ _ _ _ _ _).oblivious.bind fun _ ↦ (Writes.setKV k _ _).oblivious

theorem setContractAdmin (c : Ctx) (addr caller newAdmin : AccAddress) (authZ : AuthorizationPolicy) :
    Oblivious (Keeper.setContractAdmin k c addr caller newAdmin authZ) :=
  (modifyContract _ _ _ _ _ _).bind fun _ ↦ (Local.emitContractEvent (o := none) _ _ _).oblivious

theorem setContractLabel (c : Ctx) (addr caller : AccAddress) (label : String) (authZ : AuthorizationPolicy) :
    Oblivious (Keeper.setContractLabel k c addr caller label authZ) :=
  (modifyContract _ _ _ _ _ _).bind fun _ ↦ (Local.emitContractEvent (o := none) _ _ _).oblivious

theorem setAccessConfig (c : Ctx) (codeID : UInt64) (caller : AccAddress) (config : AccessConfig)
    (authz : AuthorizationPolicy) : Oblivious (Keeper.setAccessConfig k c codeID caller config authz) := by
  refine (Local.getCodeInfo (o := none) codeID).oblivious.bind fun r ↦ ?_
  cases r with
  | none => exact .fail _
  | some info =>
    refine (Local.getParams (o := none)).oblivious.bind fun _ ↦ (Local.liftPanic (o := none) _).oblivious.bind fun _ ↦ ?_
    refine (authorize _ _ _ _).bind fun _ ↦ (Writes.setKV k _ _).oblivious.bind fun _ ↦ ?_
    exact (Local.emitEvents (o := none) _).oblivious

theorem pinCode (codeID : UInt64) : Oblivious (Keeper.pinCode k codeID) := by
  refine (Local.getCodeInfo (o := none) codeID).oblivious.bind fun r ↦ ?_
  cases r with
  | none => exact .fail _
  | some info =>
    refine Oblivious.bind (.read fun _ _ _ _ _ hv ↦ by rw [hv]) fun _ ↦ ?_
    refine (Local.require (o := none) _ _).oblivious.bind fun _ ↦ ?_
    refine (updateVM fun vm ↦ { vm with pinned := info.codeHash :: vm.pinned }).bind fun _ ↦ ?_
    exact (Writes.setKV k _ _).oblivious.bind fun _ ↦ (Local.emitEvents (o := none) _).oblivious

theorem unpinCode (codeID : UInt64) : Oblivious (Keeper.unpinCode k codeID) := by
  refine (Local.getCodeInfo (o := none) codeID).oblivious.bind fun r ↦ ?_
  cases r with
  | none => exact .fail _
  | some info =>
    refine (updateVM fun vm ↦ { vm with pinned := vm.pinned.filter (· ≠ info.codeHash) }).bind fun _ ↦ ?_
    exact (Writes.deleteKV k _).oblivious.bind fun _ ↦ (Local.emitEvents (o := none) _).oblivious

theorem newAddress {gen : AddressGenerator X} {codeID : UInt64} {checksum : Bytes} (hgen : Oblivious (gen codeID checksum)) :
    Oblivious (Keeper.newAddress k gen codeID checksum) :=
  hgen.bind fun addr ↦ (Local.hasContractInfo (o := none) addr).oblivious.bind fun _ ↦
    (observe _).bind fun _ ↦ .pure _

theorem callContract {ρ : Type} (entry : EntryPoint) (c : Ctx) (addr : AccAddress) (checksum : Bytes)
    (script : Bytes → Gas → VMScript ρ) : Oblivious (Keeper.callContract k entry c addr checksum script) :=
  (observe _).bind fun _ ↦ (Local.contractVM entry c addr checksum script).oblivious

theorem callMigrateIfNeeded (c : Ctx) (addr : AccAddress) (newChecksum msg : Bytes) (newCodeID : UInt64)
    (sender : AccAddress) (report oldReport : AnalysisReport) :
    Oblivious (Keeper.callMigrateIfNeeded k c addr newChecksum msg newCodeID sender report oldReport) := by
  refine ite (.pure _) ((Local.chargeSetup (o := none) _ _ _ _).oblivious.bind fun _ ↦ ?_)
  refine (Local.liftPanic (o := none) _).oblivious.bind fun env ↦ (callContract _ c addr _ _).bind fun res ↦ ?_
  exact (Local.lift (o := none) _).oblivious

theorem eachCode {f : UInt64 → M X Unit} (hf : ∀ id, Oblivious (f id)) (ids : List UInt64) :
    Oblivious (MsgServer.eachCode f ids) := by
  induction ids with
  | nil => exact .pure ()
  | cons id ids ih => exact (hf id).bind fun _ ↦ ih

theorem updateUploadAddresses (update : List String → List String) :
    Oblivious (MsgServer.updateUploadAddresses k update) :=
  (Local.getParams (o := none)).oblivious.bind fun _ ↦ (Local.require (o := none) _ _).oblivious.bind fun _ ↦
    (Writes.setKV k _ _).oblivious.bind fun _ ↦ .pure _

end Oblivious

/-- Two response handlers that do the same, up to `E` in what they emit. -/
def HandlersAlike (E : List Event → List Event → Prop) (h h' : ResponseHandler X) : Prop :=
  ∀ c addr port msgs data, Simulates (Alike E) Eq (h c addr port msgs data) (h' c addr port msgs data)

section Traversal

variable {E : List Event → List Event → Prop} (hE : IsEventRel E)

include hE

theorem Oblivious.sim {m : M X α} (hm : Oblivious m) : Simulates (Alike E) Eq m m := hm E hE

theorem Oblivious.sim_bind {m : M X α} {f f' : α → M X β} {V : β → β → Prop} (hm : Oblivious m)
    (hf : ∀ a, Simulates (Alike E) V (f a) (f' a)) : Simulates (Alike E) V (m >>= f) (m >>= f') :=
  (hm E hE).bind_eq hf

theorem Local.sim_bind {o : Option AccAddress} {m : M X α} {f f' : α → M X β} {V : β → β → Prop} (hm : Local o m)
    (hf : ∀ a, Simulates (Alike E) V (f a) (f' a)) : Simulates (Alike E) V (m >>= f) (m >>= f') :=
  hm.oblivious.sim_bind hE hf

theorem Oblivious.couples {m : M X α} (hm : Oblivious m) {F : Err → Err → Prop} {G : Panic → Panic → Prop}
    (hF : ∀ e, F e e) (hG : ∀ p, G p p) : Couples (Alike E) Eq F G m m := by
  have hswap : Simulates (fun v w : World X ↦ Alike E w v) (fun b a : α ↦ a = b) m m := by
    intro v w hw
    rcases hm _ hE.swap v w hw.swap with h | ⟨h, hs⟩
    · exact .inl h
    · exact .inr ⟨h.mono fun _ _ heq ↦ heq.symm, hs.swap⟩
  exact (Agrees.of_simulates (hm E hE) hswap).couples hF hG

omit hE in
theorem sim_wrapErr {m m' : M X α} {V : α → α → Prop} (hm : Simulates (Alike E) V m m') (desc : String) :
    Simulates (Alike E) V (wrapErr m desc) (wrapErr m' desc) := by
  refine hm.attempt (fun _ ↦ rfl) fun o o' ho ↦ ?_
  cases ho with
  | ok hv => exact .pure hv
  | error e => exact .fail _
  | panic p => exact .raise p

variable {h h' : ResponseHandler X} (hh : HandlersAlike E h h') (c : Ctx)

include hh

theorem sim_handleContractResponse (addr : AccAddress) (port : String) (res : Response) :
    Simulates (Alike E) Eq (handleContractResponse k h c addr port res)
      (handleContractResponse k h' c addr port res) := by
  refine (Local.liftPanic (o := none) _).sim_bind hE fun _ ↦ (Local.consumeGas (o := none) _ _).sim_bind hE fun _ ↦ ?_
  refine (Local.emitWasmModuleEvent (o := none) _ _).sim_bind hE fun _ ↦ ?_
  exact (Local.emitCustomEvents (o := none) _ _).sim_bind hE fun _ ↦ hh c addr port _ _

theorem sim_instantiate {gen : AddressGenerator X} (hgen : ∀ id checksum, Oblivious (gen id checksum))
    (codeID : UInt64) (creator admin : AccAddress) (initMsg : Bytes) (label : String) (funds : Coins)
    (policy : AuthorizationPolicy) :
    Simulates (Alike E) Eq (instantiate k h c codeID creator admin initMsg label funds gen policy)
      (instantiate k h' c codeID creator admin initMsg label funds gen policy) := by
  refine (Local.require (o := none) _ _).sim_bind hE fun _ ↦ ?_
  refine (Local.getCodeInfo (o := none) codeID).sim_bind hE fun r ↦ ?_
  cases r with
  | none => exact .fail _
  | some code =>
    refine (Local.chargeSetup (o := none) _ _ _ _).sim_bind hE fun _ ↦ (Oblivious.authorize _ _ _ _).sim_bind hE fun _ ↦ ?_
    refine (Oblivious.newAddress (hgen _ _)).sim_bind hE fun (addr, taken) ↦ ?_
    refine (Local.require (o := none) _ _).sim_bind hE fun _ ↦ (Local.prepareAccount (o := none) _).sim_bind hE fun _ ↦ ?_
    refine (Local.deposit (o := none) _ _ _).sim_bind hE fun _ ↦ (Local.liftPanic (o := none) _).sim_bind hE fun env ↦ ?_
    refine (Oblivious.callContract _ _ _ _ _).sim_bind hE fun res ↦ (Local.lift (o := none) _).sim_bind hE fun ok ↦ ?_
    refine (Local.liftPanic (o := none) _).sim_bind hE fun _ ↦ (Local.analyzeCode (o := none) _ _).sim_bind hE fun _ ↦ ?_
    refine (Local.instancePort (o := none) _ _).sim_bind hE fun port ↦ ?_
    refine (Writes.persistInstance k c creator addr initMsg _ policy).oblivious.sim_bind hE fun _ ↦ ?_
    refine (Local.emitContractEvent (o := none) _ _ _).sim_bind hE fun _ ↦ ?_
    refine (Local.deref (o := none) ok).sim_bind hE fun response ↦ ?_
    exact (sim_wrapErr (sim_handleContractResponse hE hh _ addr port response) _).bind_eq fun _ ↦ .pure rfl

theorem sim_execute (addr caller : AccAddress) (msg : Bytes) (coins : Coins) :
    Simulates (Alike E) Eq (execute k h c addr caller msg coins) (execute k h' c addr caller msg coins) := by
  refine (Local.contractInstance (o := none) addr).sim_bind hE fun (info, code) ↦ ?_
  refine (Local.chargeSetup (o := none) _ _ _ _).sim_bind hE fun _ ↦ (Local.deposit (o := none) _ _ _).sim_bind hE fun _ ↦ ?_
  refine (Local.liftPanic (o := none) _).sim_bind hE fun env ↦ (Oblivious.callContract _ _ _ _ _).sim_bind hE fun res ↦ ?_
  refine (Local.lift (o := none) _).sim_bind hE fun ok ↦ (Local.emitContractEvent (o := none) _ _ _).sim_bind hE fun _ ↦ ?_
  exact (Local.deref (o := none) ok).sim_bind hE fun response ↦ sim_handleContractResponse hE hh _ addr _ response

theorem sim_sudoContract (addr : AccAddress) (msg : Bytes) :
    Simulates (Alike E) Eq (Keeper.sudoContract k h c addr msg) (Keeper.sudoContract k h' c addr msg) := by
  refine (Local.contractInstance (o := none) addr).sim_bind hE fun (info, code) ↦ ?_
  refine (Local.chargeSetup (o := none) _ _ _ _).sim_bind hE fun _ ↦ (Local.liftPanic (o := none) _).sim_bind hE fun env ↦ ?_
  refine (Oblivious.callContract _ _ _ _ _).sim_bind hE fun res ↦ (Local.lift (o := none) _).sim_bind hE fun ok ↦ ?_
  refine (Local.emitContractEvent (o := none) _ _ _).sim_bind hE fun _ ↦ ?_
  refine (Local.deref (o := none) ok).sim_bind hE fun response ↦ ?_
  exact sim_wrapErr (sim_handleContractResponse hE hh _ addr _ response) _

theorem sim_reply (addr : AccAddress) (r : Reply) :
    Simulates (Alike E) Eq (reply k h c addr r) (reply k h' c addr r) := by
  refine (Local.contractInstance (o := none) addr).sim_bind hE fun (info, code) ↦ ?_
  refine (Local.liftPanic (o := none) _).sim_bind hE fun _ ↦ (Local.consumeGas (o := none) _ _).sim_bind hE fun _ ↦ ?_
  refine (Local.liftPanic (o := none) _).sim_bind hE fun env ↦ ?_
  refine (Oblivious.callContract _ _ _ _ _).sim_bind hE fun res ↦ (Local.lift (o := none) _).sim_bind hE fun ok ↦ ?_
  refine (Local.emitContractEvent (o := none) _ _ _).sim_bind hE fun _ ↦ ?_
  refine (Local.deref (o := none) ok).sim_bind hE fun response ↦ ?_
  exact sim_wrapErr (sim_handleContractResponse hE hh _ addr _ response) _

theorem sim_migrate (addr caller : AccAddress) (newCodeID : UInt64) (msg : Bytes) (policy : AuthorizationPolicy) :
    Simulates (Alike E) Eq (migrate k h c addr caller newCodeID msg policy)
      (migrate k h' c addr caller newCodeID msg policy) := by
  refine (Local.getContractInfo (o := none) addr).sim_bind hE fun r ↦ ?_
  cases r with
  | none => exact .fail _
  | some info =>
    refine (Local.liftPanic (o := none) _).sim_bind hE fun _ ↦ (Oblivious.authorize _ _ _ _).sim_bind hE fun _ ↦ ?_
    refine (Local.getCodeInfo (o := none) newCodeID).sim_bind hE fun r ↦ ?_
    cases r with
    | none => exact .fail _
    | some code =>
      refine (Oblivious.authorize _ _ _ _).sim_bind hE fun _ ↦ (Local.analyzeCode (o := none) _ _).sim_bind hE fun _ ↦ ?_
      refine (Local.migratedPort (o := none) addr info _).sim_bind hE fun port ↦ ?_
      refine (Local.getCodeInfo (o := none) _).sim_bind hE fun old ↦ (Local.deref (o := none) old).sim_bind hE fun _ ↦ ?_
      refine (Local.analyzeCode (o := none) _ _).sim_bind hE fun _ ↦ ?_
      refine (Oblivious.callMigrateIfNeeded _ addr _ msg newCodeID caller _ _).sim_bind hE fun response ↦ ?_
      refine (Writes.persistMigration k c addr caller newCodeID msg _ policy).oblivious.sim_bind hE fun _ ↦ ?_
      refine (Local.emitEvents (o := none) _).sim_bind hE fun _ ↦ ?_
      cases response with
      | none => exact .pure rfl
      | some response => exact sim_wrapErr (sim_handleContractResponse hE hh _ addr port response) _

end Traversal

end Cosmwasgo.Runs
