import Cosmwasgo.Runs.Queries
import Cosmwasgo.Keeper.Handlers

namespace Cosmwasgo.Runs

open Cosmwasgo.Lib Cosmwasgo.Types Cosmwasgo.State Cosmwasgo.Keeper

variable {X α β ρ : Type} {o : Option AccAddress} {k : Keeper X}

/-- Values paired with the events emitted on the way to them. -/
def WithEvents (E : List Event → List Event → Prop) (V : α → β → Prop) (a : α × List Event) (b : β × List Event) : Prop :=
  V a.1 b.1 ∧ E a.2 b.2

theorem simulates_withEventManager {E : List Event → List Event → Prop} (hE : IsEventRel E) {V : α → β → Prop}
    {m : M X α} {m' : M X β} (h : Simulates (Alike E) V m m') :
    Simulates (Alike E) (WithEvents E V) (withEventManager m) (withEventManager m') := by
  intro w v hw
  have hr := h { w with events := [] } { v with events := [] } ⟨hw.store, hw.meter, hw.txContracts, hw.vm, hE.refl []⟩
  rcases hm : m { w with events := [] } with ⟨r, w'⟩
  rcases hm' : m' { v with events := [] } with ⟨r', v'⟩
  rw [withEventManager_apply hm, withEventManager_apply hm']
  rw [hm, hm'] at hr
  rcases hr with hr | ⟨hr, hs⟩
  · left
    obtain rfl : r = .timeout := hr
    rfl
  · refine .inr ⟨?_, hs.store, hs.meter, hs.txContracts, hs.vm, hw.events⟩
    cases hr with
    | ok hv => exact .ok ⟨hv, hs.events⟩
    | error e => exact .error e
    | panic p => exact .panic p

namespace Local

theorem keeps_withEventManager {m : M X α} (hm : Local o m) (w : World X) :
    Keeps o w (withEventManager m w).1.exit (withEventManager m w).2 := by
  have h := hm.keeps { w with events := [] }
  unfold withEventManager
  rw [Outcome.exit_map]
  exact ⟨h.trace, h.quiet, h.meter, h.loads⟩

theorem deref (p : Option ρ) : Local (X := X) o (Keeper.deref p) := by
  cases p with
  | none => exact .raise _
  | some r => exact .pure r

theorem emitContractEvent (type : String) (contract : AccAddress) (rest : List Attribute) :
    Local o (Keeper.emitContractEvent k type contract rest) := emitEvents _

theorem emitWasmModuleEvent (attrs : List Attribute) (addr : AccAddress) :
    Local o (Keeper.emitWasmModuleEvent k attrs addr) := by
  unfold Keeper.emitWasmModuleEvent
  split
  · exact .pure ()
  · exact (lift _).bind fun _ ↦ emitEvents _

theorem emitCustomEvents (evts : List Event) (addr : AccAddress) :
    Local o (Keeper.emitCustomEvents k evts addr) := by
  unfold Keeper.emitCustomEvents
  split
  · exact .pure ()
  · exact (lift _).bind fun _ ↦ emitEvents _

theorem analyzeCode (checksum : Bytes) (failed : Err) : Local o (Keeper.analyzeCode k checksum failed) := by
  refine (read fun _ _ _ _ _ hv ↦ by rw [hv]).bind fun code ↦ ?_
  cases code with
  | none => exact .fail _
  | some code => exact .pure _

theorem prepareAccount (addr : AccAddress) : Local o (Keeper.prepareAccount k addr) := by
  refine (read fun _ _ hs _ _ _ ↦ by rw [hs]).bind fun account ↦ ?_
  cases account with
  | none => exact .external _
  | some account =>
    refine (require _ _).bind fun _ ↦ ?_
    split
    · exact .pure ()
    · exact (external _).bind fun _ ↦ ((external _).wrapErr _).bind fun _ ↦ require _ _

theorem transferCoins (fromAddr toAddr : AccAddress) (amount : Coins) :
    Local o (Keeper.transferCoins k fromAddr toAddr amount) := by
  refine (read fun _ _ hs _ _ _ ↦ by rw [hs]).bind fun enabled ↦ (lift enabled).bind fun _ ↦ ?_
  refine (read fun _ _ hs _ _ _ ↦ by rw [hs]).bind fun blocked ↦ (require _ _).bind fun _ ↦ ?_
  have hsend := external (o := o) (k.host.sendCoins fromAddr toAddr amount)
  constructor
  · exact Discipline.Obeys.bind (D := Keeps.discipline X o) hsend.keeps_withEventManager fun _ ↦ (emitEvents _).keeps
  · intro E hE
    refine (simulates_withEventManager hE (hsend.oblivious E hE)).bind fun a b hab ↦ ?_
    exact .update rfl fun w v hw ↦ ⟨hw.store, hw.meter, hw.txContracts, hw.vm,
      hE.append hw.events (hE.filter hab.2 (· ≠ "message"))⟩

theorem deposit (fromAddr toAddr : AccAddress) (amount : Coins) :
    Local o (Keeper.deposit k fromAddr toAddr amount) := by
  unfold Keeper.deposit
  split
  · exact .pure ()
  · exact .transferCoins fromAddr toAddr amount

theorem ensureIbcPort (addr : AccAddress) : Local o (Keeper.ensureIbcPort k addr) := by
  refine (read fun _ _ hs _ _ _ ↦ by rw [hs]).bind fun owned ↦ ?_
  split
  · exact .pure _
  · exact (external _).bind fun _ ↦ .pure _

theorem migratedPort (addr : AccAddress) (info : ContractInfo) (report : AnalysisReport) :
    Local o (Keeper.migratedPort k addr info report) := by
  unfold Keeper.migratedPort
  split
  · exact .fail _
  · exact .ensureIbcPort addr
  · exact .pure _

theorem unpackCode (wasmCode : Bytes) : Local o (Keeper.unpackCode k wasmCode) := by
  unfold Keeper.unpackCode
  split
  · exact (liftPanic _).bind fun _ ↦ (consumeGas _ _).bind fun _ ↦ lift _
  · exact .pure _

theorem instancePort (addr : AccAddress) (report : AnalysisReport) :
    Local o (Keeper.instancePort k addr report) := by
  unfold Keeper.instancePort
  split
  · exact .ensureIbcPort addr
  · exact .pure _

theorem decode (addr field : String) : Local o (MsgServer.decode k addr field) := lift _

theorem decodeAdmin (admin : String) : Local o (MsgServer.decodeAdmin k admin) := by
  unfold MsgServer.decodeAdmin
  split
  · exact .pure _
  · exact .decode _ _

theorem requireAuthority (authority : String) : Local o (MsgServer.requireAuthority k authority) := require _ _

theorem requireChannel (portID channelID : String) : Local o (Keeper.requireChannel k portID channelID) :=
  (require _ _).bind fun _ ↦ (require _ _).bind fun _ ↦
    (read fun _ _ hs _ _ _ ↦ by rw [hs]).bind fun _ ↦ require _ _

theorem sendPacket (c : Ctx) (portID : String) (m : SendPacketMsg) : Local o (Keeper.sendPacket k c portID m) :=
  (requireChannel portID m.channelID).bind fun _ ↦ ((external _).wrapErr _).bind fun _ ↦ .pure _

theorem loadAsyncAckPacket (portID channelID : String) (sequence : UInt64) :
    Local o (Keeper.loadAsyncAckPacket k portID channelID sequence) := by
  refine (getKV k _).bind fun v ↦ ?_
  split
  · exact .pure _
  · exact .fail _
  · exact .fail _

theorem loadPacketForAck (portID channelID : String) (sequence : UInt64) :
    Local o (Keeper.loadPacketForAck k portID channelID sequence) := by
  refine (loadAsyncAckPacket portID channelID sequence).attempt rfl (fun w r w' _ h ↦ ?_) fun r ↦ ?_
  · cases r <;> exact h
  · cases r with
    | ok a => exact .pure a
    | error e => exact .fail _
    | panic p => exact .raise p
    | timeout => exact .expire

theorem burnCoinMessageHandler (c : Ctx) (addr : AccAddress) (portID : String) (msg : CosmosMsg) :
    Local o (Keeper.burnCoinMessageHandler k c addr portID msg) := by
  unfold Keeper.burnCoinMessageHandler
  split
  · exact .fail _
  · refine (lift _).bind fun coins ↦ (require _ _).bind fun _ ↦ ?_
    exact ((external _).wrapErr _).bind fun _ ↦ ((external _).wrapErr _).bind fun _ ↦ .pure _

end Local

end Cosmwasgo.Runs
