import Cosmwasgo.Keeper.IBC
import Cosmwasgo.Runs.Watch

namespace Cosmwasgo.Properties

open Cosmwasgo.Lib Cosmwasgo.Types Cosmwasgo.State Cosmwasgo.Keeper Cosmwasgo.Runs

variable {X α : Type} {k : Keeper X}

/-- `ChannelIdentifierValidator` of IBC. -/
def validChannelID (id : String) : Bool :=
  8 ≤ id.utf8ByteSize && id.utf8ByteSize ≤ 64 && id.toList.all fun c ↦ c.isAlphanum || "._+-#[]<>".toList.contains c

/-- Where a packet is kept until it is acknowledged. -/
def packetKey (p : Packet) : Bytes := asyncAckKey p.destinationPort p.destinationChannel p.sequence

/-- What IBC tells the packets it delivers apart by. -/
def packetID (p : Packet) : String × String × UInt64 := (p.destinationPort, p.destinationChannel, p.sequence)

/-- A packet for a contract, as IBC delivers it. -/
structure Deliverable (k : Keeper X) (p : Packet) : Prop where
  port : ∃ a, p.destinationPort = portIDForContract k a
  channel : validChannelID p.destinationChannel = true

/-- What is asked of the modules around this one: the text of an address has no zero byte, and there are
capabilities for channels with valid identifiers only. -/
structure PacketHost (k : Keeper X) : Prop where
  text : ∀ a, 0 ∉ stringToBytes (k.bech32.string a)
  channel : ∀ {x a channelID}, k.host.getCapability x (channelCapabilityPath (portIDForContract k a) channelID) = true →
    validChannelID channelID = true

section Keys

theorem length_channel {id : String} (h : validChannelID id = true) : (stringToBytes id).length < 256 ^ 3 := by
  simp only [validChannelID, Bool.and_eq_true, decide_eq_true_eq] at h
  rw [length_stringToBytes]
  omega

theorem zero_notMem_port (hk : PacketHost k) (a : AccAddress) : 0 ∉ stringToBytes (portIDForContract k a) := by
  rw [portIDForContract, stringToBytes, String.toList_append, List.flatMap_append, List.mem_append, not_or]
  exact ⟨by decide, hk.text a⟩

/-- The key of a packet spells its port, its channel and its sequence: no port has a zero byte, and the length
of a channel identifier begins with one. -/
theorem asyncAckKey_inj {port port' channel channel' : String} {seq seq' : UInt64} (hp : 0 ∉ stringToBytes port)
    (hp' : 0 ∉ stringToBytes port') (hc : validChannelID channel = true) (hc' : validChannelID channel' = true)
    (h : asyncAckKey port channel seq = asyncAckKey port' channel' seq') :
    port = port' ∧ channel = channel' ∧ seq = seq' := by
  have hl := length_channel hc
  have hl' := length_channel hc'
  simp only [asyncAckKey, getAsyncAckStorePrefix, getAsyncPacketKey, List.append_assoc] at h
  have h := List.append_cancel_left h
  rw [bigEndian_succ_of_lt hl, bigEndian_succ_of_lt hl', List.cons_append, List.cons_append] at h
  obtain ⟨hport, hrest⟩ := append_cons_inj hp hp' h
  obtain ⟨hchannel, hseq⟩ := length_append_inj hl hl' hrest
  exact ⟨stringToBytes_injective hport, stringToBytes_injective hchannel, uint64ToBigEndian_injective hseq⟩

theorem packetID_eq (hk : PacketHost k) {p q : Packet} (hp : Deliverable k p) (hq : Deliverable k q)
    (h : packetKey p = packetKey q) : packetID p = packetID q := by
  obtain ⟨a, ha⟩ := hp.port
  obtain ⟨b, hb⟩ := hq.port
  obtain ⟨h₁, h₂, h₃⟩ := asyncAckKey_inj (ha ▸ zero_notMem_port hk a) (hb ▸ zero_notMem_port hk b) hp.channel hq.channel h
  simp only [packetID, h₁, h₂, h₃]

end Keys

/-- The packet contracts are shown stands for the packet IBC delivered, in every field. -/
@[simp] theorem convertPacket_newIBCPacket (p : Packet) : convertPacket (IBCHandler.newIBCPacket p) = p := by
  obtain ⟨seq, sp, sc, dp, dc, data, ⟨rev, height⟩, ts⟩ := p
  simp only [convertPacket, IBCHandler.newIBCPacket]
  congr 1
  by_cases h : (⟨rev, height⟩ : Height) = {}
  · rw [if_pos h, h]
  · rw [if_neg h]

/-- A packet that was delivered, and the acknowledgement it was answered with at once. -/
structure Delivery where
  packet : Packet
  ack : Option Acknowledgement
  deriving DecidableEq

/-- A store that no packet was received on, in which contracts have no ports but their own. -/
structure NoPackets (k : Keeper X) (st : Store X) : Prop where
  kv : ∀ {key : Bytes}, key.head? = some 17 → st.kv.get key = none
  acks : st.acks = []
  ports : ∀ {a info}, st.kv.get (getContractAddressKey a) = some (.contractInfo info) → OwnPort k a info.ibcPortID

/-- What IBC keeps of the receipt of a packet: all of it, or nothing after an error acknowledgement. -/
def settled (ack : Option Acknowledgement) (w w' : World X) : Durable X :=
  if ack.all (·.success) then durable w' else ⟨w.store, w'.vm⟩

/-- Deliveries of packets and other operations of the keeper, one after the other. No packet is delivered twice;
a delivery that is aborted or reverted counts for nothing. -/
inductive PacketRun (k : Keeper X) : List Delivery → Durable X → Prop
  | start {d : Durable X} (h : NoPackets k d.store) : PacketRun k [] d
  | op {ds : List Delivery} {n : Nat} {c : Ctx} {α : Type} {m : M X α} {w : World X} (h : PacketRun k ds (durable w))
      (hop : KeeperOp k n c α m) : PacketRun k ds (committed m w)
  | receive {ds : List Delivery} {n : Nat} {c : Ctx} {p : Packet} {relayer : String} {w w' : World X}
      {ack : Option Acknowledgement} (h : PacketRun k ds (durable w)) (hp : Deliverable k p)
      (hnew : ∀ x ∈ ds, packetID x.packet ≠ packetID p)
      (hrun : IBCHandler.onRecvPacket k (responseHandler k n) c p relayer w = (.ok ack, w')) :
      PacketRun k (ds ++ [⟨p, ack⟩]) (settled ack w w')
  | abort {ds : List Delivery} {w : World X} (h : PacketRun k ds (durable w)) (vm : VMCache) :
      PacketRun k ds ⟨w.store, vm⟩
  | outside {ds : List Delivery} {d : Durable X} (h : PacketRun k ds d) (x : X) : PacketRun k ds (d.withExt x)

/-- The deliveries of a run. -/
structure Deliveries (k : Keeper X) (ds : List Delivery) : Prop where
  ids : (ds.map fun x ↦ packetID x.packet).Nodup
  valid : ∀ x ∈ ds, Deliverable k x.packet

/-- The store holds the packets that were delivered without an acknowledgement and have none since. -/
structure Pending (k : Keeper X) (ds : List Delivery) (st : Store X) : Prop where
  held : ∀ {key v}, key.head? = some 17 → st.kv.get key = some v →
    ∃ p, ⟨p, none⟩ ∈ ds ∧ p ∉ st.acks ∧ key = packetKey p ∧ v = .packet p
  kept : ∀ {p}, ⟨p, none⟩ ∈ ds → p ∉ st.acks → st.kv.get (packetKey p) = some (.packet p)
  once : st.acks.Nodup
  late : ∀ {p}, p ∈ st.acks → ⟨p, none⟩ ∈ ds
  ports : ∀ {a info}, st.kv.get (getContractAddressKey a) = some (.contractInfo info) → OwnPort k a info.ibcPortID

section Deliveries

variable {ds : List Delivery} {x y : Delivery}

theorem Deliveries.eq_of_id (h : Deliveries k ds) (hx : x ∈ ds) (hy : y ∈ ds)
    (hid : packetID x.packet = packetID y.packet) : x = y := List.inj_on_of_nodup_map h.ids hx hy hid

theorem Deliveries.eq_of_key (h : Deliveries k ds) (hk : PacketHost k) (hx : x ∈ ds) (hy : y ∈ ds)
    (hkey : packetKey x.packet = packetKey y.packet) : x = y :=
  h.eq_of_id hx hy (packetID_eq hk (h.valid x hx) (h.valid y hy) hkey)

theorem Deliveries.concat (h : Deliveries k ds) (hx : Deliverable k x.packet)
    (hnew : ∀ y ∈ ds, packetID y.packet ≠ packetID x.packet) : Deliveries k (ds ++ [x]) := by
  refine ⟨?_, fun y hy ↦ ?_⟩
  · rw [List.map_append, List.nodup_append]
    refine ⟨h.ids, by simp, fun i hi j hj ↦ ?_⟩
    obtain ⟨y, hy, rfl⟩ := List.mem_map.1 hi
    rw [List.map_singleton, List.mem_singleton] at hj
    exact hj ▸ hnew y hy
  · rcases List.mem_append.1 hy with hy | hy
    · exact h.valid y hy
    · rw [List.mem_singleton.1 hy]
      exact hx

end Deliveries

section Pending

variable {ds : List Delivery} {st st' : Store X} {d d' : Durable X}

/-- Nothing of this changes with the other records. -/
theorem Pending.congr (h : Pending k ds st) (hkv : ∀ key : Bytes, key.head? = some 17 → st'.kv.get key = st.kv.get key)
    (hacks : st'.acks = st.acks)
    (hports : ∀ {a info}, st'.kv.get (getContractAddressKey a) = some (.contractInfo info) →
      OwnPort k a info.ibcPortID) : Pending k ds st' := by
  refine ⟨fun {key v} hhead hget ↦ ?_, fun {p} hp hacked ↦ ?_, ?_, fun {p} hp ↦ ?_, hports⟩
  · rw [hkv key hhead] at hget
    rw [hacks]
    exact h.held hhead hget
  · rw [hacks] at hacked
    rw [hkv _ rfl]
    exact h.kept hp hacked
  · rw [hacks]
    exact h.once
  · rw [hacks] at hp
    exact h.late hp

/-- The last delivery was answered at once. -/
theorem Pending.answered (h : Pending k ds st) (p : Packet) (ack : Acknowledgement) :
    Pending k (ds ++ [⟨p, some ack⟩]) st := by
  refine ⟨fun hhead hget ↦ ?_, fun {q} hq hacked ↦ ?_, h.once, fun hq ↦ List.mem_append_left _ (h.late hq), h.ports⟩
  · obtain ⟨q, hq, hrest⟩ := h.held hhead hget
    exact ⟨q, List.mem_append_left _ hq, hrest⟩
  · rcases List.mem_append.1 hq with hq | hq
    · exact h.kept hq hacked
    · simp at hq

/-- The last delivery was not answered, and its packet is stored. -/
theorem Pending.stored (hk : PacketHost k) (hds : Deliveries k ds) (h : Pending k ds st) {p : Packet}
    (hp : Deliverable k p) (hnew : ∀ x ∈ ds, packetID x.packet ≠ packetID p) :
    Pending k (ds ++ [⟨p, none⟩]) { st with kv := st.kv.set (packetKey p) (.packet p) } := by
  have hfresh : p ∉ st.acks := fun hacked ↦ hnew _ (h.late hacked) rfl
  have hne : ∀ q, ⟨q, none⟩ ∈ ds → packetKey q ≠ packetKey p := fun q hq hkey ↦
    hnew _ hq (packetID_eq hk (hds.valid _ hq) hp hkey)
  refine ⟨fun {key v} hhead hget ↦ ?_, fun {q} hq hacked ↦ ?_, h.once, fun hq ↦ List.mem_append_left _ (h.late hq),
    fun {a info} hget ↦ ?_⟩
  · rw [OrderedStore.get_set] at hget
    split at hget
    · next hkey => exact ⟨p, by simp, hfresh, hkey, (Option.some.inj hget).symm⟩
    · obtain ⟨q, hq, hrest⟩ := h.held hhead hget
      exact ⟨q, List.mem_append_left _ hq, hrest⟩
  · rcases List.mem_append.1 hq with hq | hq
    · exact (OrderedStore.get_set_of_ne _ _ (hne q hq)).trans (h.kept hq hacked)
    · obtain rfl : q = p := by simpa using hq
      exact OrderedStore.get_set_self _ _ _
  · exact h.ports ((get_set_of_head _ (by simp [packetKey])).symm.trans hget)

/-- A pending packet is acknowledged. -/
theorem Pending.acknowledge (hk : PacketHost k) (hds : Deliveries k ds) (h : Pending k ds st) {key : Bytes} {p : Packet}
    (hhead : key.head? = some 17) (hget : st.kv.get key = some (.packet p)) :
    Pending k ds { st with acks := st.acks ++ [p], kv := st.kv.delete key } := by
  obtain ⟨_, hp, hunacked, rfl, heq⟩ := h.held hhead hget
  cases heq
  refine ⟨fun {key v} hhead hget ↦ ?_, fun {q} hq hacked ↦ ?_, ?_, fun {q} hq ↦ ?_, fun {a info} hget ↦ ?_⟩
  · dsimp only at hget
    rw [OrderedStore.get_delete] at hget
    split at hget
    · cases hget
    · next hne =>
      obtain ⟨q, hq, hacked, rfl, hv⟩ := h.held hhead hget
      refine ⟨q, hq, ?_, rfl, hv⟩
      rw [List.mem_append, List.mem_singleton, not_or]
      refine ⟨hacked, ?_⟩
      rintro rfl
      exact hne rfl
  · rw [List.mem_append, List.mem_singleton, not_or] at hacked
    have hne : packetKey q ≠ packetKey p := by
      intro hkey
      cases hds.eq_of_key hk hq hp hkey
      exact hacked.2 rfl
    exact (OrderedStore.get_delete_of_ne _ hne).trans (h.kept hq hacked.1)
  · exact List.nodup_append.2 ⟨h.once, by simp, fun q hq r hr ↦ by
      rw [List.mem_singleton.1 hr]
      rintro rfl
      exact hunacked hq⟩
  · rcases List.mem_append.1 hq with hq | hq
    · exact h.late hq
    · rw [List.mem_singleton.1 hq]
      exact hp
  · exact h.ports ((get_delete_of_head (by simp [packetKey])).symm.trans hget)

/-- Records of other families are written. -/
theorem Pending.write_other (h : Pending k ds st) {kv : KVStore}
    (hkv : ∀ key : Bytes, key.head? ∈ [some 17, some 2] → kv.get key = st.kv.get key) : Pending k ds { st with kv } := by
  refine h.congr (fun key hhead ↦ hkv key (by simp [hhead])) rfl fun {a info} hget ↦ ?_
  exact h.ports ((hkv _ (by simp)).symm.trans hget)

theorem Pending.set_other (h : Pending k ds st) {key : Bytes} (v : Value) (hk : key.head? ∉ [some 17, some 2]) :
    Pending k ds { st with kv := st.kv.set key v } :=
  h.write_other fun _ hkey ↦ get_set_of_head v fun heq ↦ hk (heq ▸ hkey)

/-- The info of a contract is written, with a port of its own. -/
theorem Pending.write_info (h : Pending k ds st) {st' : Store X} {a : AccAddress} {info : ContractInfo}
    (hkv : ∀ key : Bytes, key.head? = some 17 → st'.kv.get key = st.kv.get key) (hacks : st'.acks = st.acks)
    (hself : st'.kv.get (getContractAddressKey a) = some (.contractInfo info)) (hport : OwnPort k a info.ibcPortID)
    (hother : ∀ a', a' ≠ a → st'.kv.get (getContractAddressKey a') = st.kv.get (getContractAddressKey a')) :
    Pending k ds st' := by
  refine h.congr hkv hacks fun {a' info'} hget ↦ ?_
  by_cases ha : a' = a
  · subst ha
    cases hself.symm.trans hget
    exact hport
  · exact h.ports ((hother a' ha).symm.trans hget)

/-- Whatever the keeper does but for the receipt of packets. -/
theorem Pending.act (hk : PacketHost k) (hds : Deliveries k ds) {c : Ctx}
    (hact : Act k (fun _ op _ _ ↦ NoReceipt op) c d d') (h : Pending k ds d.store) : Pending k ds d'.store := by
  cases hact with
  | cacheCode _ => exact h
  | cachePins _ => exact h
  | createCode _ _ _ => exact (h.set_other _ (by simp)).set_other _ (by simp)
  | nextInstance _ _ => exact h.set_other _ (by simp)
  | register hp hnew hcode hauth horigin hvalid hcreator hhead hpos hport hnext =>
    refine h.write_info (fun key h17 ↦ get_registered_of_head hhead (by simp [h17])) rfl ?_ hport
      fun a' ha' ↦ get_registered_info hhead ha'
    exact OrderedStore.get_set_self _ _ _
  | migrate info port hp hinfo _ _ _ _ _ _ hport _ =>
    have hown := h.ports hinfo
    refine h.write_info (fun key h17 ↦ get_migrated_of_head (by simp [h17])) rfl (OrderedStore.get_set_self _ _ _) ?_
      fun a' ha' ↦ get_migrated_info ha'
    rcases hport with rfl | rfl
    · exact hown
    · exact .inr rfl
  | modify hp hinfo _ _ hkind =>
    have hown := h.ports hinfo
    refine h.write_info (fun key h17 ↦ get_set_of_head _ (by simp [h17])) rfl (OrderedStore.get_set_self _ _ _) ?_
      fun a' ha' ↦ OrderedStore.get_set_of_ne _ _ fun heq ↦ ha' (getContractAddressKey_inj heq)
    cases hkind <;> exact hown
  | extend ext hp hinfo =>
    have hown := h.ports hinfo
    refine h.write_info (fun key h17 ↦ get_set_of_head _ (by simp [h17])) rfl (OrderedStore.get_set_self _ _ _) ?_
      fun a' ha' ↦ OrderedStore.get_set_of_ne _ _ fun heq ↦ ha' (getContractAddressKey_inj heq)
    exact hown
  | setAccess _ => exact h.set_other _ (by simp)
  | setParams _ => exact h.set_other _ (by simp)
  | pin _ => exact h.set_other _ (by simp)
  | unpin codeID =>
    refine h.write_other fun key hkey ↦ get_delete_of_head fun heq ↦ ?_
    rw [heq] at hkey
    simp at hkey
  | storePacket hp => exact absurd rfl (hp _)
  | acknowledge hpacket => exact h.acknowledge hk hds rfl hpacket

theorem Pending.quiet {o : Option AccAddress} (hq : Quiet o d d') (h : Pending k ds d.store) :
    Pending k ds d'.store := by
  refine h.congr (fun key hhead ↦ hq.records _ (not_isStateKey (by simp [hhead]))) hq.acks fun {a info} hget ↦ ?_
  exact h.ports ((hq.records _ (not_isStateKey (by simp))).symm.trans hget)

end Pending

/-- An acknowledgement that may be written: by the owner of the port, of a packet as it was received, which is
pending in the store at that time. -/
structure Rightful (k : Keeper X) (ds : List Delivery) (a : AccAddress) (p : Packet) (st : Store X) : Prop where
  owner : p.destinationPort = portIDForContract k a
  received : ⟨p, none⟩ ∈ ds
  pending : st.kv.get (packetKey p) = some (.packet p)
  unanswered : p ∉ st.acks

theorem Pending.rightful (hk : PacketHost k) {ds : List Delivery} (hds : Deliveries k ds) {st : Store X} (h : Pending k ds st)
    {a : AccAddress} {portID channelID : String} {seq : UInt64} {p : Packet} (hport : OwnPort k a portID)
    (hopen : OpenChannel k portID channelID) (hget : st.kv.get (asyncAckKey portID channelID seq) = some (.packet p)) :
    Rightful k ds a p st := by
  obtain ⟨hne, x, hcap⟩ := hopen
  obtain rfl : portID = portIDForContract k a := hport.resolve_left hne
  obtain ⟨_, hp, hunacked, hkey, heq⟩ := h.held rfl hget
  cases heq
  have hvalid := hds.valid _ hp
  obtain ⟨b, hb⟩ := hvalid.port
  obtain ⟨howner, -, -⟩ := asyncAckKey_inj (zero_notMem_port hk a) (hb ▸ zero_notMem_port hk b) (hk.channel hcap)
    hvalid.channel hkey
  exact ⟨howner.symm, hp, hkey ▸ hget, hunacked⟩

/-- The pending packets are watched, and that only rightful acknowledgements are written. -/
def packetWatch (hk : PacketHost k) {ds : List Delivery} (hds : Deliveries k ds) : Watch k where
  permits _ op _ _ := NoReceipt op
  permits_select c m op actor hm _ := by
    intro p hp
    cases hm <;> cases hp
  ports := OwnPort k
  ports_own h := h
  Inv := Pending k ds
  Good _ o := ∀ {a p st}, o = .acknowledge a p st → Rightful k ds a p st
  recorded h hinfo := h.ports hinfo
  act hact h := h.act hk hds hact
  quiet hq h := h.quiet hq
  claims hclaim h := h.write_other fun key hkey ↦ hclaim.get (head_ne (by
    rintro heq
    rw [heq] at hkey
    simp at hkey))
  authorize := nofun
  called := nofun
  addressed _ _ := nofun
  acknowledged h hport hopen hget := by
    intro a p st heq
    cases heq
    exact h.rightful hk hds hport hopen hget
  dispatched {s o} ho := by
    rintro a p st rfl
    exact ho.elim
  enter _ h := h

section Receipt

variable {h : ResponseHandler X} {c : Ctx} {addr : AccAddress} {p : Packet} {packet : IBCPacket} {relayer : String}
  {w w' : World X} {ack : Option Acknowledgement}

/-- Storing the packet puts nothing on record. -/
theorem trace_onRecvPacket : (onRecvPacket k h c addr packet relayer w).2.trace =
    (receivePacket k h c addr packet relayer w).2.trace := by
  unfold onRecvPacket
  rcases hr : receivePacket k h c addr packet relayer w with ⟨(e | data) | e | q | _, w₁⟩
  · rw [Program.bind_of_ok _ hr]
    rfl
  · rw [Program.bind_of_ok _ hr]
    cases data with
    | some d => rfl
    | none => exact ((Writes.setKV k _ _).bind fun _ ↦ Writes.pure none).trace w₁
  · rw [Program.bind_of_error _ hr]
  · rw [Program.bind_of_panic _ hr]
  · rw [Program.bind_of_timeout _ hr]

/-- A receipt that returns has an acknowledgement, or has stored the packet. -/
theorem onRecvPacket_eq_ok (hrun : onRecvPacket k h c addr packet relayer w = (.ok ack, w')) :
    ∃ r w₁, receivePacket k h c addr packet relayer w = (.ok r, w₁) ∧
      ((∃ a, ack = some a ∧ w' = w₁) ∨
        ack = none ∧ storeAsyncAckPacket k (convertPacket packet) w₁ = (.ok (), w')) := by
  obtain ⟨r, w₁, hr, hrun⟩ := Program.bind_eq_ok.1 hrun
  refine ⟨r, w₁, hr, ?_⟩
  cases r with
  | error e =>
    cases hrun
    exact .inl ⟨_, rfl, rfl⟩
  | ok data =>
    cases data with
    | some d =>
      cases hrun
      exact .inl ⟨_, rfl, rfl⟩
    | none =>
      obtain ⟨_, w₂, hstore, hrun⟩ := Program.bind_eq_ok.1 hrun
      cases hrun
      exact .inr ⟨rfl, hstore⟩

/-- The handler adds events to what the keeper does with the packet, and turns errors into acknowledgements. -/
theorem handler_onRecvPacket (hport : contractFromPortID k p.destinationPort = .ok addr) {v : World X}
    {r : Outcome Err Panic (Option Acknowledgement)}
    (hr : onRecvPacket k h c addr (IBCHandler.newIBCPacket p) relayer { w with events := [] } = (r, v)) :
    ∃ es, IBCHandler.onRecvPacket k h c p relayer w =
      (match r with
        | .error e => .ok (some (IBCHandler.createErrorAcknowledgement e))
        | r => r, { v with events := es }) := by
  have hem := withEventManager_apply hr
  unfold IBCHandler.onRecvPacket
  rw [hport, show liftPanic (Except.mapError _ (.ok addr)) = (pure addr : M X AccAddress) from rfl, Program.pure_bind]
  unfold Program.attempt
  rw [hem]
  cases r with
  | ok ack =>
    by_cases hs : ack.all (·.success)
    · exact ⟨_, by simp only [Outcome.map, hs, if_true]; rfl⟩
    · exact ⟨_, by simp only [Outcome.map, hs, Bool.false_eq_true, if_false]; rfl⟩
  | error e => exact ⟨_, rfl⟩
  | panic q => exact ⟨_, rfl⟩
  | timeout => exact ⟨_, rfl⟩

theorem handler_onRecvPacket_unrouted {e : Err} (hport : contractFromPortID k p.destinationPort = .error e) :
    IBCHandler.onRecvPacket k h c p relayer w = (.panic (.other ("contract port id: " ++ e.error)), w) := by
  unfold IBCHandler.onRecvPacket
  rw [hport]
  rfl

end Receipt

section Runs

variable {ds : List Delivery} {n : Nat} {c : Ctx} {p : Packet} {relayer : String} {w w' : World X}

/-- What a contract does on a packet keeps the other packets pending, and writes rightful acknowledgements only. -/
theorem receivePacket_rel (hk : PacketHost k) (hds : Deliveries k ds) (addr : AccAddress) (relayer : String)
    (packet : IBCPacket) :
    ((packetWatch hk hds).regime.clean (before c)).Obeys (receivePacket k (responseHandler k n) c addr packet relayer) :=
  Regime.clean_receivePacket (Regime.handlerObeys_responseHandler (packetWatch hk hds).observes n) addr packet relayer

/-- The acknowledgements that go on record in a run from `w` to `w'` are rightful. -/
def WritesRightful (k : Keeper X) (ds : List Delivery) (w w' : World X) : Prop :=
  ∃ added, w'.trace = w.trace ++ added ∧ ∀ {a p st}, .acknowledge a p st ∈ added → Rightful k ds a p st

theorem writesRightful_op (hk : PacketHost k) (hds : Deliveries k ds) (hw : Pending k ds w.store) {m : M X α}
    (hop : KeeperOp k n c α m) : WritesRightful k ds w (m w).2 := by
  have hobeys := hop.obeys (R := (packetWatch hk hds).regime) (packetWatch hk hds).observes fun _ _ hno ↦ hno
  obtain ⟨-, added, ht, hgood⟩ := hobeys w hw
  exact ⟨added, ht, fun hmem ↦ hgood _ hmem rfl⟩

theorem writesRightful_receive (hk : PacketHost k) (hds : Deliveries k ds) (hw : Pending k ds w.store) :
    WritesRightful k ds w (IBCHandler.onRecvPacket k (responseHandler k n) c p relayer w).2 := by
  rcases hport : contractFromPortID k p.destinationPort with e | addr
  · rw [handler_onRecvPacket_unrouted hport]
    exact ⟨[], by simp, by simp⟩
  · rcases hr : onRecvPacket k (responseHandler k n) c addr (IBCHandler.newIBCPacket p) relayer
      { w with events := [] } with ⟨r, v⟩
    obtain ⟨es, heq⟩ := handler_onRecvPacket hport hr
    obtain ⟨-, added, ht, hgood⟩ := receivePacket_rel (c := c) (n := n) hk hds addr relayer
      (IBCHandler.newIBCPacket p) { w with events := [] } hw
    rw [heq]
    refine ⟨added, ?_, fun hmem ↦ hgood _ hmem rfl⟩
    have hv := congrArg (fun x ↦ x.2.trace) hr
    exact hv.symm.trans (trace_onRecvPacket.trans ht)

theorem pending_committed (hk : PacketHost k) (hds : Deliveries k ds) (hw : Pending k ds w.store) {m : M X α}
    (hop : KeeperOp k n c α m) : Pending k ds (committed m w).store := by
  have hobeys := hop.obeys (R := (packetWatch hk hds).regime) (packetWatch hk hds).observes fun _ _ hno ↦ hno
  have hinv := (hobeys w hw).1
  unfold committed
  rcases hr : m w with ⟨a | e | q | _, w'⟩ <;> rw [hr] at hinv
  · exact hinv rfl
  · exact hw
  · exact hw
  · exact hw

theorem pending_settled (hk : PacketHost k) (hds : Deliveries k ds) (hw : Pending k ds w.store) (hp : Deliverable k p)
    (hnew : ∀ x ∈ ds, packetID x.packet ≠ packetID p) {ack : Option Acknowledgement}
    (hrun : IBCHandler.onRecvPacket k (responseHandler k n) c p relayer w = (.ok ack, w')) :
    Pending k (ds ++ [⟨p, ack⟩]) (settled ack w w').store := by
  rcases hport : contractFromPortID k p.destinationPort with e | addr
  · rw [handler_onRecvPacket_unrouted hport] at hrun
    cases hrun
  rcases hr : onRecvPacket k (responseHandler k n) c addr (IBCHandler.newIBCPacket p) relayer
    { w with events := [] } with ⟨r, v⟩
  obtain ⟨es, heq⟩ := handler_onRecvPacket hport hr
  rw [heq] at hrun
  cases r with
  | error e =>
    cases hrun
    exact hw.answered p _
  | panic q => cases hrun
  | timeout => cases hrun
  | ok ack' =>
    cases hrun
    obtain ⟨r, w₁, hreceive, hack⟩ := onRecvPacket_eq_ok hr
    have hrel := (receivePacket_rel (c := c) (n := n) hk hds addr relayer (IBCHandler.newIBCPacket p)
      { w with events := [] } hw).1
    rw [hreceive] at hrel
    have hw₁ : Pending k ds w₁.store := hrel rfl
    rcases hack with ⟨a, rfl, rfl⟩ | ⟨rfl, hstore⟩
    · unfold settled
      split
      · exact hw₁.answered p a
      · exact hw.answered p a
    · rw [convertPacket_newIBCPacket] at hstore
      have hv : durable v = (durable w₁).withKV _ := (Writes.setKV k _ _).post w₁ () v hstore
      change Pending k _ (durable v).store
      rw [hv]
      exact hw₁.stored hk hds hp hnew

/-- The invariant of a run. -/
theorem PacketRun.pending (hk : PacketHost k) {d : Durable X} (h : PacketRun k ds d) :
    Deliveries k ds ∧ Pending k ds d.store := by
  induction h with
  | start h =>
    refine ⟨⟨by simp, by simp⟩, fun hhead hget ↦ ?_, by simp, by simp [h.acks], by simp [h.acks], h.ports⟩
    rw [h.kv hhead] at hget
    cases hget
  | op h hop ih => exact ⟨ih.1, pending_committed hk ih.1 ih.2 hop⟩
  | receive h hp hnew hrun ih => exact ⟨ih.1.concat hp hnew, pending_settled hk ih.1 ih.2 hp hnew hrun⟩
  | abort h vm ih => exact ih
  | outside h x ih => exact ⟨ih.1, ih.2.congr (fun _ _ ↦ rfl) rfl ih.2.ports⟩

end Runs

/-- How often a packet that was delivered is acknowledged: at once, and by what is on record since. -/
def acknowledgements (x : Delivery) (st : Store X) : Nat := (if x.ack.isSome then 1 else 0) + st.acks.count x.packet

theorem acknowledgements_le {ds : List Delivery} {st : Store X} (hds : Deliveries k ds) (h : Pending k ds st)
    {x : Delivery} (hx : x ∈ ds) : acknowledgements x st ≤ 1 := by
  unfold acknowledgements
  split
  · next hack =>
    have hnot : x.packet ∉ st.acks := by
      intro hmem
      have heq := hds.eq_of_id hx (h.late hmem) rfl
      rw [heq] at hack
      cases hack
    rw [List.count_eq_zero_of_not_mem hnot]
  · have hcount := List.nodup_iff_count_le_one.1 h.once x.packet
    omega

/-- What code does with one packet of the store. -/
inductive PacketOp (k : Keeper X) (p : Packet) : (α : Type) → M X α → Prop
  | store : PacketOp k p _ (storeAsyncAckPacket k p)
  | load : PacketOp k p _ (loadAsyncAckPacket k p.destinationPort p.destinationChannel p.sequence)
  | delete : PacketOp k p _ (deleteAsyncAckPacket k p.destinationPort p.destinationChannel p.sequence)

theorem PacketOp.other (hk : PacketHost k) {p q : Packet} (hp : Deliverable k p) (hq : Deliverable k q)
    (hne : packetID p ≠ packetID q) {m : M X α} (hm : PacketOp k p α m) {w : World X} (hx : (m w).1.exit ≠ .panic) :
    (m w).2.store.kv.get (packetKey q) = w.store.kv.get (packetKey q) := by
  have hkey : packetKey q ≠ packetKey p := fun h ↦ hne (packetID_eq hk hp hq h.symm)
  have hwrites : ∀ {m : M X Unit} {f : KVStore → KVStore}, Writes m (fun d _ d' ↦ d' = d.withKV (f d.kv)) →
      (m w).1.exit ≠ .panic → (m w).2.store.kv = f w.store.kv := by
    intro m f hm hx
    have hexits := hm.exits w
    rcases hr : m w with ⟨a | e | q | _, w'⟩ <;> rw [hr] at hx hexits
    · exact congrArg Durable.kv (hm.post w a w' hr)
    · simp at hexits
    · simp at hx
    · simp at hexits
  cases hm with
  | store =>
    have hkv := hwrites (m := storeAsyncAckPacket k p) (f := fun kv ↦ kv.set (packetKey p) (.packet p))
      (Writes.setKV k _ _) hx
    exact (congrArg (·.get (packetKey q)) hkv).trans (OrderedStore.get_set_of_ne _ _ hkey)
  | load =>
    exact ((Local.loadAsyncAckPacket (o := none) _ _ _).keeps w).quiet.records _ (not_isStateKey (by simp [packetKey]))
  | delete =>
    have hkv := hwrites (m := deleteKV k (packetKey p)) (f := fun kv ↦ kv.delete (packetKey p)) (Writes.deleteKV k _) hx
    exact (congrArg (·.get (packetKey q)) hkv).trans (OrderedStore.get_delete_of_ne _ hkey)

/-- What holds of the packets in a state of a run. -/
structure PacketsSafe (k : Keeper X) (ds : List Delivery) (d : Durable X) : Prop where
  once : ∀ x ∈ ds, acknowledgements x d.store ≤ 1
  late : ∀ p ∈ d.store.acks, ⟨p, none⟩ ∈ ds
  op : ∀ {n c α} {m : M X α} {w}, durable w = d → KeeperOp k n c α m → WritesRightful k ds w (m w).2
  receive : ∀ {n c p relayer w}, durable w = d →
    WritesRightful k ds w (IBCHandler.onRecvPacket k (responseHandler k n) c p relayer w).2
  apart : ∀ {p q α} {m : M X α} {w}, Deliverable k p → Deliverable k q → packetID p ≠ packetID q → PacketOp k p α m →
    (m w).1.exit ≠ .panic → (m w).2.store.kv.get (packetKey q) = w.store.kv.get (packetKey q)

/-- A packet is acknowledged once at most, at its receipt or later. A later acknowledgement reaches IBC only from the
owner of the port, of the packet as it was received and while it is pending, and no packet gets in another's way. -/
theorem packets_safe (hk : PacketHost k) {ds : List Delivery} {d : Durable X} (h : PacketRun k ds d) :
    PacketsSafe k ds d := by
  obtain ⟨hds, hd⟩ := h.pending hk
  refine ⟨fun x hx ↦ acknowledgements_le hds hd hx, fun p hp ↦ hd.late hp, fun hw hop ↦ ?_, fun hw ↦ ?_,
    fun hp hq hne hm hx ↦ hm.other hk hp hq hne hx⟩
  · subst hw
    exact writesRightful_op hk hds hd hop
  · subst hw
    exact writesRightful_receive hk hds hd

section Devnet

/-- A contract that acknowledges the first packet of its channel when it is executed, and no sooner. -/
def lateContract (_ : Bytes) (c : ContractCall) : VMScript Response :=
  match c with
  | .execute _ _ =>
    .done 0 (.ok (some { ok := some { messages := [{ id := 0, replyOn := .never, msg := { ibc := some {
      writeAcknowledgement := some { channelID := "channel-0", packetSequence := 1, ack := [1] } } } }] } }))
  | _ => idleContract [] c

def asyncPort : String := portIDForContract (plainnet lateContract) contractOne

/-- A devnet with a channel to its first contract. -/
def asyncnet : Keeper Unit :=
  let k := plainnet lateContract
  { k with
    wasmVM := { k.wasmVM with analyze := fun _ ↦ { hasIBCEntryPoints := true } }
    host := { k.host with getCapability := fun _ name ↦ name = channelCapabilityPath asyncPort "channel-0" } }

def asyncPacket : Packet where
  sequence := 1
  sourcePort := "transfer"
  sourceChannel := "channel-7"
  destinationPort := asyncPort
  destinationChannel := "channel-0"
  data := [1, 2, 3]
  timeoutHeight := ⟨0, 100⟩
  timeoutTimestamp := 0

/-- A text ends where the next part has a character that it has not. -/
theorem append_text_inj {a b b' c d d' : String} {s : Char} {r : List Char} (hc : c.toList = s :: r)
    (hb : s ∉ b.toList) (hb' : s ∉ b'.toList) (h : a ++ b ++ c ++ d = a ++ b' ++ c ++ d') : b = b' ∧ d = d' := by
  have h := congrArg String.toList h
  simp only [String.toList_append, List.append_assoc] at h
  rw [hc] at h
  obtain ⟨hport, hrest⟩ := append_cons_inj hb hb' (List.append_cancel_left h)
  exact ⟨String.toList_inj.1 hport, String.toList_inj.1 (List.append_cancel_left hrest)⟩

theorem packetHost_asyncnet : PacketHost asyncnet := by
  have hbyte : ∀ b : Byte, '/' ≠ Char.ofNat (b.val + 48) ∧
      0 ∉ (String.utf8EncodeChar (Char.ofNat (b.val + 48))).map fun b ↦ Fin.ofNat 256 b.toNat := by decide +kernel
  have hslash : ∀ a, '/' ∉ (portIDForContract asyncnet a).toList := by
    intro a h
    rw [portIDForContract, String.toList_append, List.mem_append] at h
    rcases h with h | h
    · exact absurd h (by decide)
    · rw [show asyncnet.bech32.string a = String.ofList _ from rfl, String.toList_ofList, List.mem_map] at h
      obtain ⟨b, -, hb⟩ := h
      exact (hbyte b).1 hb.symm
  refine ⟨fun a h ↦ ?_, fun {x a channelID} h ↦ ?_⟩
  · rw [show asyncnet.bech32.string a = String.ofList _ from rfl, stringToBytes, String.toList_ofList,
      List.flatMap_map] at h
    obtain ⟨b, -, h0⟩ := List.mem_flatMap.1 h
    exact (hbyte b).2 h0
  · have hname : channelCapabilityPath (portIDForContract asyncnet a) channelID =
        channelCapabilityPath asyncPort "channel-0" := of_decide_eq_true h
    rw [(append_text_inj (r := "channels/".toList) (by decide) (hslash a) (hslash contractOne) hname).2]
    decide

theorem PacketRun.delivered {ds : List Delivery} {d : Durable X} (h : PacketRun k ds d) (ms : List Msg) :
    PacketRun k ds (delivered k d ms) := by
  induction ms generalizing d with
  | nil => exact h
  | cons m ms ih => exact ih (.op (w := worldOf d) h (.message m))

/-- After carol has set up the contract. -/
def asyncWorld : World Unit := worldOf (delivered asyncnet (durable openWorld) [storeCodeMsg carol, instantiateMsg carol])

/-- The receipt of the packet. -/
def asyncReceipt : Outcome Err Panic (Option Acknowledgement) × World Unit :=
  IBCHandler.onRecvPacket asyncnet (responseHandler asyncnet 5) genesisCtx asyncPacket "relayer" asyncWorld

def carolAcknowledges : Msg := executeMsg carol (plainBech32.string contractOne)

/-- The packet is received without an acknowledgement, which carol has the contract write later. They try twice. -/
theorem packets_safe_asyncnet :
    let d := delivered asyncnet (durable asyncReceipt.2) [carolAcknowledges, carolAcknowledges]
    PacketRun asyncnet [⟨asyncPacket, none⟩] d ∧ d.store.acks = [asyncPacket] ∧
      PacketsSafe asyncnet [⟨asyncPacket, none⟩] d := by
  have hstart : PacketRun asyncnet [] (durable asyncWorld) := by
    rw [asyncWorld, durable_worldOf]
    refine PacketRun.delivered (.start ⟨fun {key} hkey ↦ ?_, rfl, fun {a info} hget ↦ ?_⟩) _
    · exact (get_set_of_head _ (by simp [hkey])).trans rfl
    · cases (get_set_of_head _ (by simp)).symm.trans hget
  have hnone : asyncReceipt.1 = .ok none := by decide +kernel
  have hreceipt : IBCHandler.onRecvPacket asyncnet (responseHandler asyncnet 5) genesisCtx asyncPacket "relayer"
      asyncWorld = (.ok none, asyncReceipt.2) := by
    change asyncReceipt = _
    rw [← hnone]
  have hrun := PacketRun.receive hstart ⟨⟨contractOne, rfl⟩, by decide⟩ (by simp) hreceipt
  rw [settled, if_pos (by rfl), List.nil_append] at hrun
  have hlater := hrun.delivered [carolAcknowledges, carolAcknowledges]
  exact ⟨hlater, by decide +kernel, packets_safe packetHost_asyncnet hlater⟩

end Devnet

end Cosmwasgo.Properties
