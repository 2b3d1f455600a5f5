import Cosmwasgo.Runs.Simulation
import Cosmwasgo.Runs.Dispatch

namespace Cosmwasgo.Runs

open Cosmwasgo.Lib Cosmwasgo.Types Cosmwasgo.State Cosmwasgo.Keeper MsgServer

variable {X α β C : Type} {k : Keeper X}

theorem Oblivious.classicAddressGenerator (codeID : UInt64) (checksum : Bytes) :
    Oblivious (Keeper.classicAddressGenerator k codeID checksum) :=
  (Writes.mustAutoIncrementID k _).oblivious.bind fun _ ↦ .pure _

theorem Oblivious.predictableAddressGenerator (creator : AccAddress) (salt msg : Bytes) (fixMsg : Bool)
    (codeID : UInt64) (checksum : Bytes) :
    Oblivious (Keeper.predictableAddressGenerator k creator salt msg fixMsg codeID checksum) :=
  (Local.liftPanic (o := none) _).oblivious

theorem Oblivious.ibcRawPacketHandler (c : Ctx) (addr : AccAddress) (port : String) (msg : CosmosMsg) :
    Oblivious (Keeper.ibcRawPacketHandler k c addr port msg) := by
  unfold Keeper.ibcRawPacketHandler
  split
  · exact .fail _
  · exact (Local.sendPacket (o := none) c port _).oblivious
  · refine (Local.requireChannel (o := none) _ _).oblivious.bind fun _ ↦ ?_
    refine (Local.loadPacketForAck (o := none) _ _ _).oblivious.bind fun packet ↦ ?_
    refine (observeStore _).bind fun _ ↦ ((Local.external (o := none) _).wrapErr _).oblivious.bind fun _ ↦ ?_
    exact (Writes.recordAck packet).oblivious.bind fun _ ↦ (Writes.deleteKV k _).oblivious.bind fun _ ↦ .pure _
  · exact .fail _

/-- Message results that differ at most in their events, up to `E`. -/
structure ResultsAlike (E : List Event → List Event → Prop) (r r' : DispatchResult) : Prop where
  events : E r.events r'.events
  data : r.data = r'.data
  msgResponses : r.msgResponses = r'.msgResponses

/-- The answers of the message router, likewise. -/
structure AnswersAlike (E : List Event → List Event → Prop) (r r' : MsgResult) : Prop where
  toMsgData : r.toMsgData = r'.toMsgData
  events : E r.events r'.events

section Traversal

variable {E : List Event → List Event → Prop}

theorem sim_settle {m m' : M X α} (hm : Simulates (Alike E) Eq m m') :
    Simulates (Alike E) Eq (MsgServer.settle m) (MsgServer.settle m') := by
  intro w v hw
  have h := hm w v hw
  unfold MsgServer.settle
  rcases hr : m w with ⟨r, w'⟩
  rcases hr' : m' v with ⟨r', v'⟩
  rw [hr, hr'] at h
  rcases h with h | ⟨h, hs⟩
  · obtain rfl : r = .timeout := h
    exact .inl rfl
  · obtain rfl : r = r' := h.eq
    cases r with
    | ok a => exact .inr ⟨.ok rfl, hs⟩
    | panic p => exact .inr ⟨.panic p, hs⟩
    | timeout => exact .inl rfl
    | error e =>
      refine .inr ⟨.error e, ?_, hs.meter, hs.txContracts, hs.vm, hs.events⟩
      have hst : w'.store = v'.store := hs.store
      simp only [hw.store, hst]

variable (hE : IsEventRel E)

include hE

theorem sim_routed {m m' : M X MsgData} (hm : Simulates (Alike E) Eq m m') :
    Simulates (Alike E) (AnswersAlike E) (routed m) (routed m') :=
  (simulates_withEventManager hE hm).bind fun _ _ hd ↦ .pure ⟨hd.1, hd.2⟩

theorem sim_emitEvents {es es' : List Event} (h : E es es') :
    Simulates (Alike E) Eq (emitEvents es : M X Unit) (emitEvents es') :=
  .update rfl fun _ _ hw ↦ ⟨hw.store, hw.meter, hw.txContracts, hw.vm, hE.append hw.events h⟩

theorem Oblivious.sim_result {m : M X DispatchResult} (hm : Oblivious m) : Simulates (Alike E) (ResultsAlike E) m m :=
  (hm.sim hE).mono fun _ _ h ↦ h ▸ ⟨hE.refl _, rfl, rfl⟩

theorem sim_runScript {callee callee' : C → M X (Option Bytes)}
    (hc : ∀ x, Simulates (Alike E) Eq (callee x) (callee' x)) (script : Script X C α) :
    Simulates (Alike E) Eq (runScript callee script) (runScript callee' script) := by
  induction script with
  | done run => exact (Local.external (o := none) run).oblivious.sim hE
  | call run next ih =>
    exact (Local.external (o := none) run).sim_bind hE fun x ↦ (hc x).bind_eq fun r ↦ ih r

variable {h h' : ResponseHandler X} (hh : HandlersAlike E h h') (c : Ctx)

include hh

theorem sim_serve (m : Msg) : Simulates (Alike E) Eq (serve k h c m) (serve k h' c m) := by
  have lift {α : Type} (x : Except Err α) : Local (X := X) none (Program.lift x) := .lift x
  have dec (s f : String) : Local none (decode k s f) := .decode s f
  have auth (s : String) : Local none (requireAuthority k s) := .requireAuthority s
  cases m with
  | storeCode m =>
    refine (lift _).sim_bind hE fun _ ↦ (dec _ _).sim_bind hE fun _ ↦ ?_
    exact (Oblivious.create _ _ _ _ _).sim_bind hE fun _ ↦ .pure rfl
  | instantiateContract m =>
    refine (lift _).sim_bind hE fun _ ↦ (dec _ _).sim_bind hE fun _ ↦ ?_
    refine (Local.decodeAdmin (o := none) _).sim_bind hE fun _ ↦ ?_
    exact (sim_instantiate hE hh c Oblivious.classicAddressGenerator _ _ _ _ _ _ _).bind_eq fun _ ↦ .pure rfl
  | instantiateContract2 m =>
    refine (lift _).sim_bind hE fun _ ↦ (dec _ _).sim_bind hE fun _ ↦ ?_
    refine (Local.decodeAdmin (o := none) _).sim_bind hE fun _ ↦ ?_
    exact (sim_instantiate hE hh c (Oblivious.predictableAddressGenerator _ _ _ _) _ _ _ _ _ _ _).bind_eq
      fun _ ↦ .pure rfl
  | executeContract m =>
    refine (lift _).sim_bind hE fun _ ↦ (dec _ _).sim_bind hE fun _ ↦ (dec _ _).sim_bind hE fun _ ↦ ?_
    exact (sim_execute hE hh c _ _ _ _).bind_eq fun _ ↦ .pure rfl
  | migrateContract m =>
    refine (lift _).sim_bind hE fun _ ↦ (dec _ _).sim_bind hE fun _ ↦ (dec _ _).sim_bind hE fun _ ↦ ?_
    exact (sim_migrate hE hh c _ _ _ _ _).bind_eq fun _ ↦ .pure rfl
  | updateAdmin m =>
    refine (lift _).sim_bind hE fun _ ↦ (dec _ _).sim_bind hE fun _ ↦ (dec _ _).sim_bind hE fun _ ↦ ?_
    exact (dec _ _).sim_bind hE fun _ ↦ (Oblivious.setContractAdmin _ _ _ _ _).sim_bind hE fun _ ↦ .pure rfl
  | clearAdmin m =>
    refine (lift _).sim_bind hE fun _ ↦ (dec _ _).sim_bind hE fun _ ↦ (dec _ _).sim_bind hE fun _ ↦ ?_
    exact (Oblivious.setContractAdmin _ _ _ _ _).sim_bind hE fun _ ↦ .pure rfl
  | updateInstantiateConfig m =>
    refine (lift _).sim_bind hE fun _ ↦ (dec _ _).sim_bind hE fun _ ↦ ?_
    refine (Local.deref (o := none) _).sim_bind hE fun _ ↦ ?_
    exact (Oblivious.setAccessConfig _ _ _ _ _).sim_bind hE fun _ ↦ .pure rfl
  | updateParams m =>
    refine (lift _).sim_bind hE fun _ ↦ (auth _).sim_bind hE fun _ ↦ ?_
    exact (Writes.setKV k _ _).oblivious.sim_bind hE fun _ ↦ .pure rfl
  | sudoContract m =>
    refine (lift _).sim_bind hE fun _ ↦ (auth _).sim_bind hE fun _ ↦ (dec _ _).sim_bind hE fun _ ↦ ?_
    exact (sim_sudoContract hE hh c _ _).bind_eq fun _ ↦ .pure rfl
  | pinCodes m =>
    refine (lift _).sim_bind hE fun _ ↦ (auth _).sim_bind hE fun _ ↦ ?_
    exact (Oblivious.eachCode Oblivious.pinCode _).sim_bind hE fun _ ↦ .pure rfl
  | unpinCodes m =>
    refine (lift _).sim_bind hE fun _ ↦ (auth _).sim_bind hE fun _ ↦ ?_
    exact (Oblivious.eachCode Oblivious.unpinCode _).sim_bind hE fun _ ↦ .pure rfl
  | storeAndInstantiateContract m =>
    refine (lift _).sim_bind hE fun _ ↦ (dec _ _).sim_bind hE fun _ ↦ ?_
    refine (Local.decodeAdmin (o := none) _).sim_bind hE fun _ ↦ ?_
    refine (Oblivious.create _ _ _ _ _).sim_bind hE fun (codeID, _) ↦ ?_
    exact (sim_instantiate hE hh c Oblivious.classicAddressGenerator _ _ _ _ _ _ _).bind_eq fun _ ↦ .pure rfl
  | addCodeUploadParamsAddresses m =>
    refine (lift _).sim_bind hE fun _ ↦ (auth _).sim_bind hE fun _ ↦ ?_
    exact (Oblivious.updateUploadAddresses _).sim hE
  | removeCodeUploadParamsAddresses m =>
    refine (lift _).sim_bind hE fun _ ↦ (auth _).sim_bind hE fun _ ↦ ?_
    exact (Oblivious.updateUploadAddresses _).sim hE
  | storeAndMigrateContract m =>
    refine (dec _ _).sim_bind hE fun _ ↦ (lift _).sim_bind hE fun _ ↦ ?_
    refine (Oblivious.create _ _ _ _ _).sim_bind hE fun (codeID, _) ↦ (dec _ _).sim_bind hE fun _ ↦ ?_
    exact (sim_migrate hE hh c _ _ _ _ _).bind_eq fun _ ↦ .pure rfl
  | updateContractLabel m =>
    refine (lift _).sim_bind hE fun _ ↦ (dec _ _).sim_bind hE fun _ ↦ (dec _ _).sim_bind hE fun _ ↦ ?_
    exact (Oblivious.setContractLabel _ _ _ _ _).sim_bind hE fun _ ↦ .pure rfl

theorem sim_msgService (m : Msg) : Simulates (Alike E) Eq (msgService k h c m) (msgService k h' c m) :=
  (sim_settle (sim_serve hE hh _ m)).bind_eq fun _ ↦ .pure rfl

theorem sim_nestedMsg (m : Msg) : Simulates (Alike E) Eq (nestedMsg k h c m) (nestedMsg k h' c m) := by
  refine (sim_routed hE (sim_msgService hE hh c m)).bind fun r r' hr ↦ ?_
  refine (sim_emitEvents hE hr.events).bind_eq fun _ ↦ .pure ?_
  rw [hr.toMsgData]

theorem sim_channelCallback (cb : ChannelCallback) :
    Simulates (Alike E) Eq (channelCallback k h c cb) (channelCallback k h' c cb) := by
  refine (Local.lift (o := none) _).sim_bind hE fun addr ↦ Simulates.bind_eq ?_ fun _ ↦ .pure rfl
  refine (Local.contractInstance (o := none) addr).sim_bind hE fun (info, code) ↦ ?_
  refine (Local.liftPanic (o := none) _).sim_bind hE fun env ↦ (Oblivious.callContract _ _ _ _ _).sim_bind hE fun res ↦ ?_
  refine (Local.lift (o := none) _).sim_bind hE fun ok ↦ (Local.deref (o := none) ok).sim_bind hE fun response ↦ ?_
  exact (sim_handleContractResponse hE hh _ addr _ _).bind_eq fun _ ↦ .pure rfl

theorem sim_routerHandler (m : SdkMsg) : Simulates (Alike E) Eq (routerHandler k h c m) (routerHandler k h' c m) := by
  cases m with
  | wasm m => exact sim_msgService hE hh c m
  | plain m =>
    simp only [routerHandler]
    split
    · exact (Local.external (o := none) _).oblivious.sim hE
    · exact .fail _
  | channel m =>
    simp only [routerHandler]
    split
    · exact sim_runScript hE (sim_channelCallback hE hh c) _
    · exact .fail _
  | nested m =>
    simp only [routerHandler]
    split
    · exact sim_runScript hE (sim_nestedMsg hE hh c) _
    · exact .fail _

theorem sim_handleSdkMessages (addr : AccAddress) (msgs : List SdkMsg) {acc acc' : DispatchResult}
    (hacc : ResultsAlike E acc acc') :
    Simulates (Alike E) (ResultsAlike E) (handleSdkMessages k h c addr acc msgs)
      (handleSdkMessages k h' c addr acc' msgs) := by
  induction msgs generalizing acc acc' with
  | nil => exact .pure hacc
  | cons m msgs ih =>
    have hmsg : Simulates (Alike E) (AnswersAlike E) (handleSdkMessage k h c addr m) (handleSdkMessage k h' c addr m) := by
      refine (Local.lift (o := none) _).sim_bind hE fun _ ↦ (Local.lift (o := none) _).sim_bind hE fun _ ↦ ?_
      exact (Local.require (o := none) _ _).sim_bind hE fun _ ↦ sim_routed hE (sim_routerHandler hE hh c m)
    refine hmsg.bind fun r r' hr ↦ ih ⟨hE.append hacc.events hr.events, ?_, ?_⟩
    · rw [hacc.data, hr.toMsgData]
    · rw [hacc.msgResponses, hr.toMsgData]

omit hE hh in
theorem sim_chain {l l' : List (Messenger X)} {addr : AccAddress} {port : String} {msg : CosmosMsg}
    (hl : List.Forall₂ (fun m m' ↦ Simulates (Alike E) (ResultsAlike E) (m c addr port msg) (m' c addr port msg)) l l') :
    Simulates (Alike E) (ResultsAlike E) (messageHandlerChain l c addr port msg)
      (messageHandlerChain l' c addr port msg) := by
  induction hl with
  | nil => exact .fail _
  | cons hm _ ih =>
    refine hm.attempt (fun _ ↦ rfl) fun o o' ho ↦ ?_
    cases ho with
    | ok hv => exact .pure hv
    | panic p => exact .raise p
    | error e =>
      dsimp only
      split
      · exact ih
      · exact .fail e

theorem sim_messenger (addr : AccAddress) (port : String) (msg : CosmosMsg) :
    Simulates (Alike E) (ResultsAlike E) (messenger k h c addr port msg) (messenger k h' c addr port msg) := by
  refine (Local.lift (o := none) _).sim_bind hE fun c' ↦ sim_chain c' (.cons ?_ (.cons ?_ (.cons ?_ .nil)))
  · refine (Local.lift (o := none) _).sim_bind hE fun msgs ↦ ?_
    exact sim_handleSdkMessages hE hh c' addr msgs ⟨hE.refl [], rfl, rfl⟩
  · exact (Oblivious.ibcRawPacketHandler c' addr port msg).sim_result hE
  · exact (Local.burnCoinMessageHandler (o := none) c' addr port msg).oblivious.sim_result hE

end Traversal

end Cosmwasgo.Runs
