import Cosmwasgo.Runs.Messages

namespace Cosmwasgo.Runs

open Cosmwasgo.Lib Cosmwasgo.Types Cosmwasgo.State Cosmwasgo.Keeper

variable {X α β C : Type} {k : Keeper X} {R : Regime k} {h : ResponseHandler X} {s : Site} {c : Ctx}

namespace Regime

theorem clean_ibcBasicCall (hh : HandlerObeys R h) (entry : IBCEntryPoint) (addr : AccAddress) (msg : Bytes) :
    (R.clean (before c)).Obeys (ibcBasicCall k h c entry addr msg) := by
  refine clean_contractInstance fun info code hp ↦ ?_
  have he : Site.Enters k R.permits (before c) _ := .call c .ibc (by decide) addr
  refine (Local.liftPanic _).clean_bind (InfoStored.stable addr info) fun env ↦ clean_callRecorded he fun res ↦ ?_
  refine (Local.lift _).clean.bind fun ok ↦ (Local.deref ok).clean.bind fun response ↦ ?_
  exact (enter_clean he (clean_handleContractResponse hh hp _)).bind fun _ ↦ .pure ()

theorem clean_acknowledge {packet : Packet} (hp : R.permits c (.receive packet) [] .default) (data : Option Bytes) :
    (R.clean (before c)).Obeys (acknowledge k packet data) := by
  cases data with
  | some d => exact .pure _
  | none =>
    refine Discipline.Obeys.bind (fun w ↦ (Writes.setKV k _ _).rel fun _ _ hd ↦ ?_) fun _ ↦ .pure _
    subst hd
    exact .storePacket hp

theorem clean_receivePacket (hh : HandlerObeys R h) (addr : AccAddress) (packet : IBCPacket) (relayer : String) :
    (R.clean (before c)).Obeys (receivePacket k h c addr packet relayer) := by
  refine clean_contractInstance fun info code hport ↦ ?_
  have he : Site.Enters k R.permits (before c) _ := .call c .ibc (by decide) addr
  refine (Local.liftPanic _).clean_bind (InfoStored.stable addr info) fun env ↦ clean_callRecorded he fun res ↦ ?_
  split
  · exact (Local.raise _).clean
  · exact .fail _
  · refine .ite (fun _ ↦ .pure _) fun _ ↦ (Local.deref _).clean.bind fun response ↦ ?_
    exact (enter_clean he (clean_handleContractResponse hh hport response)).bind fun data ↦ .pure _

theorem clean_onRecvPacket (hh : HandlerObeys R h) {packet : IBCPacket}
    (hp : R.permits c (.receive (convertPacket packet)) [] .default) (addr : AccAddress) (relayer : String) :
    (R.clean (before c)).Obeys (onRecvPacket k h c addr packet relayer) := by
  refine (clean_receivePacket hh addr packet relayer).bind fun r ↦ ?_
  cases r with
  | error e => exact .pure _
  | ok data => exact clean_acknowledge hp data

theorem clean_onOpenChannel (addr : AccAddress) (msg : IBCChannelOpenMsg) :
    (R.clean (before c)).Obeys (onOpenChannel k c addr msg) := by
  refine clean_contractInstance fun info code _ ↦ ?_
  have he : Site.Enters k R.permits (before c) _ := .call c .ibc (by decide) addr
  refine (Local.liftPanic _).clean_bind (InfoStored.stable addr info) fun env ↦ clean_callRecorded he fun res ↦ ?_
  split
  · exact .fail _
  · exact .pure _
  · exact .pure _

theorem clean_channelCallback (hh : HandlerObeys R h) (cb : ChannelCallback) :
    (R.clean (before c)).Obeys (channelCallback k h c cb) :=
  (Local.lift _).clean.bind fun _ ↦ (clean_ibcBasicCall hh _ _ _).bind fun _ ↦ .pure _

theorem clean_runScript {callee : C → M X (Option Bytes)} (hc : ∀ x, (R.clean (before c)).Obeys (callee x))
    (script : Script X C α) : (R.clean (before c)).Obeys (runScript callee script) := by
  induction script with
  | done run => exact (Local.external run).clean
  | call run next ih => exact (Local.external run).clean.bind fun x ↦ (hc x).bind fun r ↦ ih r

theorem obeys_runScript {callee : C → M X (Option Bytes)} (hc : ∀ x, (R.discipline (before c)).Obeys (callee x))
    (script : Script X C α) : (R.discipline (before c)).Obeys (runScript callee script) := by
  induction script with
  | done run => exact (Local.external run).obeys
  | call run next ih => exact (Local.external run).obeys.bind fun x ↦ (hc x).bind fun r ↦ ih r

theorem clean_routed {m : M X MsgData} (hm : (R.clean (before c)).Obeys m) : (R.clean (before c)).Obeys (routed m) := by
  refine Discipline.Obeys.bind (fun w ↦ ?_) fun _ ↦ .pure _
  unfold withEventManager
  rw [Outcome.exit_map]
  exact R.events (hm { w with events := [] })

theorem obeys_routed {m : M X MsgData} (hm : (R.discipline (before c)).Obeys m) : (R.discipline (before c)).Obeys (routed m) := by
  refine Discipline.Obeys.bind (fun w ↦ ?_) fun _ ↦ .pure _
  unfold withEventManager
  rw [Outcome.exit_map]
  exact R.events (hm { w with events := [] })

theorem obeys_msgService (hh : HandlerObeys R h) (m : Msg) : (R.discipline (before c)).Obeys (msgService k h c m) :=
  (obeys_handleMsg hh c m).bind fun _ ↦ .pure _

theorem obeys_nestedMsg (hh : HandlerObeys R h) (m : Msg) : (R.discipline (before c)).Obeys (nestedMsg k h c m) :=
  (obeys_routed (obeys_msgService hh m)).bind fun _ ↦ (Local.emitEvents _).obeys.bind fun _ ↦ .pure _

end Regime

/-- A message whose handler does not call the message server back. -/
def Calm : SdkMsg → Prop
  | .plain _ | .channel _ => True
  | .wasm _ | .nested _ => False

namespace Regime

theorem clean_routerHandler (hh : HandlerObeys R h) {m : SdkMsg} (hm : Calm m) :
    (R.clean (before c)).Obeys (routerHandler k h c m) := by
  cases m with
  | wasm m => exact hm.elim
  | nested m => exact hm.elim
  | plain m =>
    simp only [routerHandler]
    split
    · exact (Local.external _).clean
    · exact .fail _
  | channel m =>
    simp only [routerHandler]
    split
    · exact clean_runScript (clean_channelCallback hh) _
    · exact .fail _

theorem obeys_routerHandler (hh : HandlerObeys R h) (m : SdkMsg) :
    (R.discipline (before c)).Obeys (routerHandler k h c m) := by
  cases m with
  | wasm m => exact obeys_msgService hh m
  | plain m => exact clean_obeys (clean_routerHandler hh trivial)
  | channel m => exact clean_obeys (clean_routerHandler hh trivial)
  | nested m =>
    simp only [routerHandler]
    split
    · exact obeys_runScript (obeys_nestedMsg hh) _
    · exact .fail _

theorem clean_handleSdkMessages (hh : HandlerObeys R h) (addr : AccAddress) {msgs : List SdkMsg}
    (hm : ∀ m ∈ msgs, Calm m) (acc : DispatchResult) : (R.clean (before c)).Obeys (handleSdkMessages k h c addr acc msgs) := by
  induction msgs generalizing acc with
  | nil => exact .pure _
  | cons m msgs ih =>
    refine Discipline.Obeys.bind ?_ fun res ↦ ih (fun m' hm' ↦ hm m' (List.mem_cons_of_mem _ hm')) _
    refine (Local.lift _).clean.bind fun _ ↦ (Local.lift _).clean.bind fun _ ↦ (Local.require _ _).clean.bind fun _ ↦ ?_
    exact clean_routed (clean_routerHandler hh (hm m List.mem_cons_self))

theorem obeys_handleSdkMessages (hh : HandlerObeys R h) (addr : AccAddress) (msgs : List SdkMsg)
    (acc : DispatchResult) : (R.discipline (before c)).Obeys (handleSdkMessages k h c addr acc msgs) := by
  induction msgs generalizing acc with
  | nil => exact .pure _
  | cons m msgs ih =>
    refine Discipline.Obeys.bind ?_ fun res ↦ ih _
    refine (Local.lift _).obeys.bind fun _ ↦ (Local.lift _).obeys.bind fun _ ↦ (Local.require _ _).obeys.bind fun _ ↦ ?_
    exact obeys_routed (obeys_routerHandler hh m)

theorem obeys_sdkMessageHandler (hh : HandlerObeys R h) (addr : AccAddress) (port : String) (msg : CosmosMsg) :
    (R.discipline (before c)).Obeys (sdkMessageHandler k h c addr port msg) :=
  (Local.lift _).obeys.bind fun msgs ↦ obeys_handleSdkMessages hh addr msgs _

end Regime

theorem calm_encodePlain {x : Except Err ExtMsg} {msgs : List SdkMsg} (he : encodePlain x = .ok msgs) :
    ∀ m ∈ msgs, Calm m := by
  cases x with
  | error e => cases he
  | ok m => cases he; simp [Calm]

theorem calm_encodeBankMsg {sender : AccAddress} {msg : BankMsg} {msgs : List SdkMsg}
    (he : encodeBankMsg k sender msg = .ok msgs) : ∀ m ∈ msgs, Calm m := by
  unfold encodeBankMsg at he
  split at he
  · cases he
  · split at he
    · cases he
      simp
    · simp only [bind, Except.bind] at he
      split at he
      · cases he
      · cases he
        simp [Calm]

theorem calm_encodeIBCMsg {sender : AccAddress} {port : String} {msg : IBCMsg} {msgs : List SdkMsg}
    (he : encodeIBCMsg k sender port msg = .ok msgs) : ∀ m ∈ msgs, Calm m := by
  unfold encodeIBCMsg at he
  split at he
  · cases he
    simp [Calm]
  · exact calm_encodePlain he
  · cases he

/-- What the handlers after the first can take up is encoded to messages that call nothing back. -/
theorem calm_encode {addr : AccAddress} {port : String} {msg : CosmosMsg} {msgs : List SdkMsg}
    (hm : msg.bank.isSome ∨ msg.ibc.isSome) (he : encode k addr port msg = .ok msgs) : ∀ m ∈ msgs, Calm m := by
  unfold encode at he
  split at he
  · exact calm_encodeBankMsg he
  · cases he
  · exact calm_encodePlain he
  · exact calm_encodeIBCMsg he
  · exact calm_encodePlain he
  all_goals simp_all [Option.isSome_iff_exists]

/-- The store holds a packet that is not acknowledged yet. -/
def PacketStored (portID channelID : String) (sequence : UInt64) (packet : Packet) (d : Durable X) : Prop :=
  d.kv.get (asyncAckKey portID channelID sequence) = some (.packet packet)

theorem PacketStored.stable (portID channelID : String) (sequence : UInt64) (packet : Packet) :
    Stable (X := X) (PacketStored portID channelID sequence packet) := .record (not_isStateKey (by simp)) _

namespace Regime

/-- The packet a contract acknowledges is one that is stored under its port. -/
theorem clean_loadPacketForAck (portID channelID : String) (sequence : UInt64) :
    (R.clean s).Triple (fun _ ↦ True) (loadPacketForAck k portID channelID sequence)
      fun packet ↦ On (PacketStored portID channelID sequence packet) := by
  intro w _
  refine ⟨(Local.loadPacketForAck portID channelID sequence).clean w, fun packet t ht ↦ ?_⟩
  unfold loadPacketForAck Program.attempt at ht
  rcases hr : loadAsyncAckPacket k portID channelID sequence w with ⟨a | e | p | _, w'⟩ <;> rw [hr] at ht
  · obtain ⟨ha, rfl⟩ := Prod.mk.inj ht
    cases ha
    obtain ⟨v, w₁, hv, hp⟩ := Program.bind_eq_ok.1 hr
    obtain ⟨rfl, hd⟩ := (Writes.getKV k _).post w v w₁ hv
    rcases hget : (durable w).kv.get (asyncAckKey portID channelID sequence) with _ | v <;> rw [hget] at hp
    · cases (Prod.mk.inj hp).1
    · cases v with
      | packet p =>
        obtain ⟨hpk, rfl⟩ := Prod.mk.inj hp
        cases hpk
        rw [On, PacketStored, hd]
        exact hget
      | _ => cases (Prod.mk.inj hp).1
  · cases (Prod.mk.inj ht).1
  · cases (Prod.mk.inj ht).1
  · cases (Prod.mk.inj ht).1

/-- The checks of a packet message pass only for a channel of the port. -/
theorem clean_requireChannel (portID channelID : String) :
    (R.clean s).Triple (fun _ ↦ True) (requireChannel k portID channelID)
      fun _ _ ↦ True ∧ OpenChannel k portID channelID := by
  refine Local.clean_value (P := fun _ ↦ True) (Local.requireChannel portID channelID) Stable.true fun {w a w'} h ↦ ?_
  obtain ⟨_, w₁, hport, h⟩ := Program.bind_eq_ok.1 h
  obtain ⟨_, w₂, _, h⟩ := Program.bind_eq_ok.1 h
  rw [Program.read_bind_apply] at h
  exact ⟨of_decide_eq_true (Program.require_eq_ok.1 hport).1, w₂.store.ext, (Program.require_eq_ok.1 h).1⟩

theorem clean_writeAcknowledgement {addr : AccAddress} {port : String} (hp : R.ports addr port)
    (m : WriteAcknowledgementMsg) : (R.clean (before c)).Obeys (writeAcknowledgement k c addr port m) := by
  refine Discipline.Triple.obeys ((clean_requireChannel _ _).bind fun _ ↦ .of_pure fun hopen ↦
    (clean_loadPacketForAck _ _ _).bind fun packet ↦ ?_)
  have hst := PacketStored.stable (X := X) port m.channelID m.packetSequence packet
  refine Discipline.Triple.bind (Q := fun _ ↦ On (PacketStored port m.channelID m.packetSequence packet))
    (fun w hw ↦ ⟨R.acknowledged hp hopen hw, fun a t ht ↦ ?_⟩) fun _ ↦ ?_
  · obtain ⟨-, rfl⟩ := Prod.mk.inj ht
    exact hw
  refine ((Local.external _).wrapErr _).clean_bind hst fun _ ↦ ?_
  have hwrites := (Writes.recordAck (X := X) packet).bind fun _ ↦
    Writes.deleteKV k (asyncAckKey port m.channelID m.packetSequence)
  have hboth := hwrites.clean_triple (R := R) (s := before c)
    (P := PacketStored port m.channelID m.packetSequence packet) (Q := fun _ _ ↦ True) (by
      rintro d _ d' hd ⟨_, _, rfl, rfl⟩
      exact .acknowledge hd) fun _ _ _ _ _ ↦ trivial
  exact hboth.bind fun _ ↦ Discipline.Obeys.triple (.pure _)

theorem clean_ibcRawPacketHandler {addr : AccAddress} {port : String} (hp : R.ports addr port) (msg : CosmosMsg) :
    (R.clean (before c)).Obeys (ibcRawPacketHandler k c addr port msg) := by
  unfold ibcRawPacketHandler
  split
  · exact .fail _
  · exact (Local.sendPacket c port _).clean
  · exact clean_writeAcknowledgement hp _
  · exact .fail _

/-- A handler that may be followed by another has to leave a state to go on from. -/
theorem obeys_chain_cons {first : Messenger X} {rest : List (Messenger X)} {addr : AccAddress} {port : String}
    {msg : CosmosMsg} (hf : (R.clean (before c)).Obeys (first c addr port msg))
    (hr : (R.discipline (before c)).Obeys (messageHandlerChain rest c addr port msg)) :
    (R.discipline (before c)).Obeys (messageHandlerChain (first :: rest) c addr port msg) := by
  refine Discipline.Obeys.attempt fun w r w' hw ↦ ?_
  have h := hf w
  rw [hw] at h
  cases r with
  | ok a => exact h
  | panic p => exact h
  | timeout => exact h
  | error e =>
    dsimp only
    split
    · exact R.trans h (hr w')
    · exact R.weaken h

/-- A message that only the first handler can know. -/
theorem obeys_chain_first {first : Messenger X} {addr : AccAddress} {port : String} {msg : CosmosMsg}
    (hf : (R.discipline (before c)).Obeys (first c addr port msg)) (hb : msg.bank = none) (hi : msg.ibc = none) :
    (R.discipline (before c)).Obeys
      (messageHandlerChain [first, ibcRawPacketHandler k, burnCoinMessageHandler k] c addr port msg) := by
  refine Discipline.Obeys.attempt fun w r w' hw ↦ ?_
  have h := hf w
  rw [hw] at h
  cases r with
  | ok a => exact h
  | panic p => exact h
  | timeout => exact h
  | error e =>
    have hraw : ibcRawPacketHandler k c addr port msg = Program.fail errUnknownMsg := by
      simp only [ibcRawPacketHandler, hi]
    have hburn : burnCoinMessageHandler k c addr port msg = Program.fail errUnknownMsg := by
      simp only [burnCoinMessageHandler, hb, Option.bind_none]
    have hrest : messageHandlerChain [ibcRawPacketHandler k, burnCoinMessageHandler k] c addr port msg w' =
        (.error (.wrap errUnknownMsg "no handler found"), w') := by
      simp only [messageHandlerChain, hraw, hburn, Program.attempt, Program.fail_apply]
      rfl
    dsimp only
    split
    · rw [hrest]
      exact h
    · exact h

theorem obeys_defaultMessageHandler (hh : HandlerObeys R h) {addr : AccAddress} {port : String} (hp : R.ports addr port)
    (msg : CosmosMsg) : (R.discipline (before c)).Obeys (defaultMessageHandler k h c addr port msg) := by
  by_cases hm : msg.bank.isSome ∨ msg.ibc.isSome
  · refine obeys_chain_cons ?_ (obeys_chain_cons (clean_ibcRawPacketHandler hp msg)
      (obeys_chain_cons (Local.burnCoinMessageHandler _ addr port msg).clean (.fail _)))
    refine (Local.lift _).clean.bind_of fun w msgs w' hmsgs ↦ ?_
    exact clean_handleSdkMessages hh addr (calm_encode hm (Program.lift_eq_ok.1 hmsgs).1) _ w'
  · rw [not_or, Option.not_isSome_iff_eq_none, Option.not_isSome_iff_eq_none] at hm
    exact obeys_chain_first (obeys_sdkMessageHandler hh addr port msg) hm.1 hm.2

theorem obeys_messenger (hh : HandlerObeys R h) {addr : AccAddress} {port : String} (hp : R.ports addr port)
    (msg : CosmosMsg) : (R.discipline (within c)).Obeys (messenger k h c addr port msg) := by
  refine (Local.lift _).obeys.bind_of fun w c' w' hc ↦ ?_
  have hd := wrap_eq_ok.1 (Program.lift_eq_ok.1 hc).1
  unfold checkAndIncreaseCallDepth at hd
  split at hd
  · cases hd
  · next hdepth =>
    cases hd
    exact R.enter (.deeper c (by omega)) (obeys_defaultMessageHandler hh hp msg w')

end Regime

end Cosmwasgo.Runs
