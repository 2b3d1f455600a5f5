import Cosmwasgo.Runs.Externals
import Mathlib.Logic.Relation

namespace Cosmwasgo.Runs

open Cosmwasgo.Lib Cosmwasgo.Types Cosmwasgo.State Cosmwasgo.Keeper

variable {X : Type}

namespace Durable

def kv (d : Durable X) : KVStore := d.store.kv

def withKV (d : Durable X) (kv : KVStore) : Durable X := { d with store := { d.store with kv } }

def recording (d : Durable X) (ch : ContractChange) : Durable X :=
  { d with store := { d.store with changes := d.store.changes ++ [ch] } }

def acking (d : Durable X) (packet : Packet) : Durable X :=
  { d with store := { d.store with acks := d.store.acks ++ [packet] } }

@[simp] theorem kv_withKV (d : Durable X) (kv : KVStore) : (d.withKV kv).kv = kv := rfl
@[simp] theorem vm_withKV (d : Durable X) (kv : KVStore) : (d.withKV kv).vm = d.vm := rfl
@[simp] theorem changes_withKV (d : Durable X) (kv : KVStore) :
    (d.withKV kv).store.changes = d.store.changes := rfl
@[simp] theorem kv_recording (d : Durable X) (ch : ContractChange) : (d.recording ch).kv = d.kv := rfl
@[simp] theorem vm_recording (d : Durable X) (ch : ContractChange) : (d.recording ch).vm = d.vm := rfl
@[simp] theorem changes_recording (d : Durable X) (ch : ContractChange) :
    (d.recording ch).store.changes = d.store.changes ++ [ch] := rfl
@[simp] theorem acks_withKV (d : Durable X) (kv : KVStore) : (d.withKV kv).store.acks = d.store.acks := rfl
@[simp] theorem acks_recording (d : Durable X) (ch : ContractChange) :
    (d.recording ch).store.acks = d.store.acks := rfl
@[simp] theorem kv_acking (d : Durable X) (packet : Packet) : (d.acking packet).kv = d.kv := rfl
@[simp] theorem changes_acking (d : Durable X) (packet : Packet) :
    (d.acking packet).store.changes = d.store.changes := rfl
@[simp] theorem acks_acking (d : Durable X) (packet : Packet) :
    (d.acking packet).store.acks = d.store.acks ++ [packet] := rfl

end Durable

/-- The contract is registered, or its address is one the keeper generates. -/
def Live (d : Durable X) (a : AccAddress) : Prop :=
  a.length = contractAddrLen ∨ (d.kv.get (getContractAddressKey a)).isSome

/-- Where the address of a new contract comes from. A classic one has used up its instance number. -/
inductive Origin (k : Keeper X) (kv : KVStore) (codeID : UInt64) : AccAddress → Prop
  | classic (i : UInt64) (hi : i.toNat + 1 < 2 ^ 64)
      (hseq : kv.get keySequenceInstanceID = some (.bytes (uint64ToBigEndian (i + 1)))) :
      Origin k kv codeID (buildContractAddressClassic k codeID i)
  | predictable (checksum creator salt msg : Bytes) (h : checksum.length = 32) :
      Origin k kv codeID ((k.addressModule (predictableKey checksum creator salt msg)).take contractAddrLen)

/-- How an address for a new contract is made, and the store after that. -/
inductive Claims (k : Keeper X) (kv : KVStore) (codeID : UInt64) : AccAddress → KVStore → Prop
  | classic {i : UInt64} (hid : parseSequence (kv.get keySequenceInstanceID) = .ok i) (hlt : i.toNat + 1 < 2 ^ 64) :
      Claims k kv codeID (buildContractAddressClassic k codeID i)
        (kv.set keySequenceInstanceID (.bytes (uint64ToBigEndian (i + 1))))
  | predictable (checksum creator salt msg : Bytes) (h : checksum.length = 32) :
      Claims k kv codeID ((k.addressModule (predictableKey checksum creator salt msg)).take contractAddrLen) kv

theorem Claims.origin {k : Keeper X} {kv kv' : KVStore} {codeID : UInt64} {a : AccAddress}
    (h : Claims k kv codeID a kv') : Origin k kv' codeID a := by
  cases h with
  | classic hid hlt => exact .classic _ hlt (OrderedStore.get_set_self _ _ _)
  | predictable checksum creator salt msg h => exact .predictable checksum creator salt msg h

theorem Claims.get {k : Keeper X} {kv kv' : KVStore} {codeID : UInt64} {a : AccAddress} (h : Claims k kv codeID a kv')
    {key : Bytes} (hk : key ≠ keySequenceInstanceID) : kv'.get key = kv.get key := by
  cases h with
  | classic hid hlt => exact OrderedStore.get_set_of_ne _ _ hk
  | predictable checksum creator salt msg h => rfl

/-- The position a new history entry is stored at. -/
def nextPosition (kv : KVStore) (addr : AccAddress) : UInt64 :=
  lastPosition (kv.scan (getContractCodeHistoryElementPrefix addr)) + 1

def registered (kv : KVStore) (addr : AccAddress) (head : Bytes) (pos : AbsoluteTxPosition) (info : ContractInfo)
    (initMsg : Bytes) : KVStore :=
  let kv := kv.set (getContractByCreatedSecondaryIndexKey addr info.codeID pos) (.bytes [])
  let kv := kv.set (getContractByCreatorSecondaryIndexKey head pos addr) (.bytes [])
  let kv := kv.set (getContractCodeHistoryElementKey addr (nextPosition kv addr))
    (.history (info.initialHistory initMsg))
  kv.set (getContractAddressKey addr) (.contractInfo info)

def migrated (kv : KVStore) (addr : AccAddress) (lastID : UInt64) (lastPos : AbsoluteTxPosition) (info : ContractInfo)
    (pos : AbsoluteTxPosition) (msg : Bytes) : KVStore :=
  let kv := kv.delete (getContractByCreatedSecondaryIndexKey addr lastID lastPos)
  let kv := kv.set (getContractCodeHistoryElementKey addr (nextPosition kv addr))
    (.history ⟨.migrate, info.codeID, some pos, msg⟩)
  let kv := kv.set (getContractByCreatedSecondaryIndexKey addr info.codeID pos) (.bytes [])
  kv.set (getContractAddressKey addr) (.contractInfo info)

section Frame

variable {kv : KVStore} {addr creator a : AccAddress} {head initMsg key : Bytes} {pos lastPos : AbsoluteTxPosition}
  {info : ContractInfo} {lastID : UInt64} {msg : Bytes}

/-- Registering a contract writes to four families of keys. -/
theorem get_registered_of_head (hhead : getContractsByCreatorPrefix creator = some head)
    (hk : key.head? ∉ [some 2, some 5, some 6, some 9]) :
    (registered kv addr head pos info initMsg).get key = kv.get key := by
  have h9 := head?_getContractByCreatorSecondaryIndexKey hhead pos addr
  simp only [List.mem_cons, List.not_mem_nil, or_false, not_or] at hk
  obtain ⟨h2, h5, h6, h9'⟩ := hk
  rw [registered, get_set_of_head _ (by simpa using h2), get_set_of_head _ (by simpa using h5),
    get_set_of_head _ (by simpa [h9] using h9'), get_set_of_head _ (by simpa using h6)]

theorem get_migrated_of_head (hk : key.head? ∉ [some 2, some 5, some 6]) :
    (migrated kv addr lastID lastPos info pos msg).get key = kv.get key := by
  simp only [List.mem_cons, List.not_mem_nil, or_false, not_or] at hk
  obtain ⟨h2, h5, h6⟩ := hk
  rw [migrated, get_set_of_head _ (by simpa using h2), get_set_of_head _ (by simpa using h6),
    get_set_of_head _ (by simpa using h5), get_delete_of_head (by simpa using h6)]

theorem getContractAddressKey_inj (h : getContractAddressKey a = getContractAddressKey addr) : a = addr :=
  List.append_cancel_left h

theorem get_registered_info (hhead : getContractsByCreatorPrefix creator = some head) (ha : a ≠ addr) :
    (registered kv addr head pos info initMsg).get (getContractAddressKey a) = kv.get (getContractAddressKey a) := by
  have hne : getContractAddressKey a ≠ getContractAddressKey addr := fun h ↦ ha (getContractAddressKey_inj h)
  have h9 := head?_getContractByCreatorSecondaryIndexKey hhead pos addr
  rw [registered, OrderedStore.get_set_of_ne _ _ hne, get_set_of_head _ (by simp), get_set_of_head _ (by simp [h9]),
    get_set_of_head _ (by simp)]

theorem get_migrated_info (ha : a ≠ addr) :
    (migrated kv addr lastID lastPos info pos msg).get (getContractAddressKey a) = kv.get (getContractAddressKey a) := by
  have hne : getContractAddressKey a ≠ getContractAddressKey addr := fun h ↦ ha (getContractAddressKey_inj h)
  rw [migrated, OrderedStore.get_set_of_ne _ _ hne, get_set_of_head _ (by simp), get_set_of_head _ (by simp),
    get_delete_of_head (by simp)]

end Frame

/-- The last entry of a contract's history, as the reverse iterator finds it. -/
def lastHistory (kv : KVStore) (addr : AccAddress) : Option Value :=
  ((historyEntries (kv.scan (getContractCodeHistoryElementPrefix addr))).getLast?).map (·.2)

/-- The record of a contract info write, with what the store holds when it is made. -/
def changeOf (kv : KVStore) (kind : ChangeKind) (addr caller : AccAddress) (policy : AuthorizationPolicy)
    (stack : List Frame) (after : ContractInfo) : ContractChange :=
  { kind, contract := addr, caller, policy, stack, after,
    before := kv.get (getContractAddressKey addr), code := kv.get (getCodeKey after.codeID) }

/-- What `setContractAdmin` and `setContractLabel` do to an info. -/
inductive Modifies : ChangeKind → ContractInfo → ContractInfo → Prop
  | admin (info : ContractInfo) (admin : String) : Modifies .admin info { info with admin }
  | label (info : ContractInfo) (label : String) : Modifies .label info { info with label }

/-- What a policy is asked about, and what a caller from outside may do without one. -/
inductive Operation
  | create
  | instantiate
  | migrate (contract : AccAddress)
  | modify (kind : ChangeKind) (contract : AccAddress)
  | setAccess
  | receive (packet : Packet)
  deriving DecidableEq, Repr

variable (k : Keeper X)

/-- The operations a message asks for. -/
inductive Performs : Msg → Operation → Prop
  | storeCode (m : MsgStoreCode) : Performs (.storeCode m) .create
  | instantiateContract (m : MsgInstantiateContract) : Performs (.instantiateContract m) .instantiate
  | instantiateContract2 (m : MsgInstantiateContract2) : Performs (.instantiateContract2 m) .instantiate
  | storeAndInstantiate_create (m : MsgStoreAndInstantiateContract) :
      Performs (.storeAndInstantiateContract m) .create
  | storeAndInstantiateContract (m : MsgStoreAndInstantiateContract) :
      Performs (.storeAndInstantiateContract m) .instantiate
  | storeAndMigrate_create (m : MsgStoreAndMigrateContract) : Performs (.storeAndMigrateContract m) .create
  | storeAndMigrateContract {m : MsgStoreAndMigrateContract} {a : AccAddress}
      (h : k.bech32.fromBech32 m.contract = .ok a) : Performs (.storeAndMigrateContract m) (.migrate a)
  | migrateContract {m : MsgMigrateContract} {a : AccAddress} (h : k.bech32.fromBech32 m.contract = .ok a) :
      Performs (.migrateContract m) (.migrate a)
  | updateAdmin {m : MsgUpdateAdmin} {a : AccAddress} (h : k.bech32.fromBech32 m.contract = .ok a) :
      Performs (.updateAdmin m) (.modify .admin a)
  | clearAdmin {m : MsgClearAdmin} {a : AccAddress} (h : k.bech32.fromBech32 m.contract = .ok a) :
      Performs (.clearAdmin m) (.modify .admin a)
  | updateContractLabel {m : MsgUpdateContractLabel} {a : AccAddress}
      (h : k.bech32.fromBech32 m.contract = .ok a) : Performs (.updateContractLabel m) (.modify .label a)
  | updateInstantiateConfig (m : MsgUpdateInstantiateConfig) : Performs (.updateInstantiateConfig m) .setAccess

/-- The port of a contract: none, or the one made from its address. -/
def OwnPort (addr : AccAddress) (portID : String) : Prop := portID = "" ∨ portID = portIDForContract k addr

/-- What the VM finds in a code it holds. -/
def Analyzed (vm : VMCache) (checksum : Bytes) (report : AnalysisReport) : Prop :=
  ∃ code, vm.codes.get checksum = some code ∧ k.wasmVM.analyze code = report

variable (permits : Ctx → Operation → AccAddress → AuthorizationPolicy → Prop)

/-- What one operation of the keeper does to the module's records, and what it made sure of before. -/
inductive Act (c : Ctx) (d : Durable X) : Durable X → Prop
  | cacheCode {code : Bytes} (h : k.wasmVM.check code = .ok ()) :
      Act c d { d with vm := { d.vm with codes := d.vm.codes.set (k.wasmVM.checksum code) code } }
  | cachePins (pinned : List Bytes) : Act c d { d with vm := { d.vm with pinned } }
  | createCode {id : UInt64} {info : CodeInfo} (hid : parseSequence (d.kv.get keySequenceCodeID) = .ok id)
      (hlt : id.toNat + 1 < 2 ^ 64) (hcode : (d.vm.codes.get info.codeHash).isSome) :
      Act c d (d.withKV ((d.kv.set keySequenceCodeID (.bytes (uint64ToBigEndian (id + 1)))).set (getCodeKey id)
        (.codeInfo info)))
  | nextInstance {id : UInt64} (hid : parseSequence (d.kv.get keySequenceInstanceID) = .ok id)
      (hlt : id.toNat + 1 < 2 ^ 64) :
      Act c d (d.withKV (d.kv.set keySequenceInstanceID (.bytes (uint64ToBigEndian (id + 1)))))
  | register {creator addr : AccAddress} {head initMsg : Bytes} {info : ContractInfo} {pos : AbsoluteTxPosition}
      {policy : AuthorizationPolicy} {code : CodeInfo} (hp : permits c .instantiate creator policy)
      (hnew : d.kv.get (getContractAddressKey addr) = none)
      (hcode : d.kv.get (getCodeKey info.codeID) = some (.codeInfo code))
      (hauth : policy.canInstantiateContract k.bech32 code.instantiateConfig creator = .ok true)
      (horigin : Origin k d.kv info.codeID addr) (hvalid : k.bech32.valid creator = true)
      (hcreator : info.creator = k.bech32.string creator) (hhead : getContractsByCreatorPrefix creator = some head)
      (hpos : info.created = some pos) (hport : OwnPort k addr info.ibcPortID)
      (hnext : (lastPosition (d.kv.scan (getContractCodeHistoryElementPrefix addr))).toNat + 1 < 2 ^ 64)
      (hibc : ∃ report, Analyzed k d.vm code.codeHash report ∧
        (info.ibcPortID ≠ "" ↔ report.hasIBCEntryPoints = true)) :
      Act c d ((d.recording (changeOf d.kv .instantiate addr creator policy c.stack info)).withKV
        (registered d.kv addr head pos info initMsg))
  | migrate (info : ContractInfo) (port : String) {caller addr : AccAddress} {pos lastPos : AbsoluteTxPosition}
      {msg : Bytes} {policy : AuthorizationPolicy} {code : CodeInfo} {last : ContractCodeHistoryEntry}
      {admin : AccAddress} {codeID : UInt64} (hp : permits c (.migrate addr) caller policy)
      (hinfo : d.kv.get (getContractAddressKey addr) = some (.contractInfo info))
      (hadmin : adminAddr k info = .ok admin) (hmodify : policy.canModifyContract admin caller = true)
      (hcode : d.kv.get (getCodeKey codeID) = some (.codeInfo code))
      (hauth : policy.canInstantiateContract k.bech32 code.instantiateConfig caller = .ok true)
      (hlast : lastHistory d.kv addr = some (.history last)) (hpos : last.updated = some lastPos)
      (hport : port = info.ibcPortID ∨ port = portIDForContract k addr)
      (hnext : (lastPosition (d.kv.scan (getContractCodeHistoryElementPrefix addr))).toNat + 1 < 2 ^ 64)
      (hibc : ∃ report, Analyzed k d.vm code.codeHash report ∧
        (port ≠ "" ↔ report.hasIBCEntryPoints = true) ∧ (info.ibcPortID ≠ "" → port = info.ibcPortID)) :
      Act c d ((d.recording
          (changeOf d.kv .migrate addr caller policy c.stack { info with codeID, ibcPortID := port })).withKV
        (migrated d.kv addr last.codeID lastPos { info with codeID, ibcPortID := port } pos msg))
  | modify {kind : ChangeKind} {caller addr : AccAddress} {info info' : ContractInfo}
      {policy : AuthorizationPolicy} {admin : AccAddress} (hp : permits c (.modify kind addr) caller policy)
      (hinfo : d.kv.get (getContractAddressKey addr) = some (.contractInfo info))
      (hadmin : adminAddr k info = .ok admin) (hmodify : policy.canModifyContract admin caller = true)
      (hkind : Modifies kind info info') :
      Act c d ((d.recording (changeOf d.kv kind addr caller policy c.stack info')).withKV
        (d.kv.set (getContractAddressKey addr) (.contractInfo info')))
  | extend {addr : AccAddress} {info : ContractInfo} (ext : Option Bytes)
      (hp : permits c (.modify .extension addr) [] .default)
      (hinfo : d.kv.get (getContractAddressKey addr) = some (.contractInfo info)) :
      Act c d ((d.recording
          (changeOf d.kv .extension addr [] .default c.stack { info with extension := ext })).withKV
        (d.kv.set (getContractAddressKey addr) (.contractInfo { info with extension := ext })))
  | setAccess {codeID : UInt64} {info : CodeInfo} {config : AccessConfig}
      (hinfo : d.kv.get (getCodeKey codeID) = some (.codeInfo info)) :
      Act c d (d.withKV (d.kv.set (getCodeKey codeID) (.codeInfo { info with instantiateConfig := config })))
  | setParams (params : Params) : Act c d (d.withKV (d.kv.set paramsKey (.params params)))
  | pin {codeID : UInt64} {info : CodeInfo} (hinfo : d.kv.get (getCodeKey codeID) = some (.codeInfo info)) :
      Act c d (d.withKV (d.kv.set (getPinnedCodeIndexPrefix codeID) (.bytes [1])))
  | unpin (codeID : UInt64) : Act c d (d.withKV (d.kv.delete (getPinnedCodeIndexPrefix codeID)))
  | storePacket {packet : Packet} (hp : permits c (.receive packet) [] .default) :
      Act c d (d.withKV (d.kv.set (asyncAckKey packet.destinationPort packet.destinationChannel packet.sequence)
        (.packet packet)))
  | acknowledge {portID channelID : String} {sequence : UInt64} {packet : Packet}
      (hpacket : d.kv.get (asyncAckKey portID channelID sequence) = some (.packet packet)) :
      Act c d ((d.acking packet).withKV (d.kv.delete (asyncAckKey portID channelID sequence)))

/-- The contexts code moves to below a context. -/
inductive Enters : Ctx → Ctx → Prop
  | message (c : Ctx) (m : Msg) : Enters c (c.push (.message m))
  | call (c : Ctx) (entry : EntryPoint) (a : AccAddress) : Enters c (c.push (.call entry a none))
  | instantiate {c : Ctx} {actor : AccAddress} {p : AuthorizationPolicy} (h : permits c .instantiate actor p)
      (a : AccAddress) :
      Enters c ((c.push (.call .instantiate a (some p))).withSubMsgAuthzPolicy
        (p.subMessageAuthorizationPolicy .instantiate))
  | migrate {c : Ctx} {actor : AccAddress} {p : AuthorizationPolicy} {a : AccAddress}
      (h : permits c (.migrate a) actor p) :
      Enters c ((c.push (.call .migrate a (some p))).withSubMsgAuthzPolicy
        (p.subMessageAuthorizationPolicy .migrateContract))
  | deeper (c : Ctx) (n : Nat) : Enters c { c with callDepth := n }

/-- Where in the call tree code runs: in a context, and there either on the way to a contract or, with the
contract's call on top of the path, handling what it answered. -/
structure Site where
  ctx : Ctx
  inside : Bool

/-- On the way to a contract. -/
abbrev before (c : Ctx) : Site := ⟨c, false⟩

/-- In the call of a contract. -/
abbrev within (c : Ctx) : Site := ⟨c, true⟩

/-- The steps from site to site. A contract's messages go one level deeper, its replies do not. -/
inductive Site.Enters : Site → Site → Prop
  | message (c : Ctx) (m : Msg) : Site.Enters (before c) (before (c.push (.message m)))
  | call (c : Ctx) (entry : EntryPoint) (he : entry ≠ .reply) (a : AccAddress) :
      Site.Enters (before c) (within (c.push (.call entry a none)))
  | instantiate {c : Ctx} {actor : AccAddress} {p : AuthorizationPolicy} (h : permits c .instantiate actor p)
      (a : AccAddress) :
      Site.Enters (before c) (within ((c.push (.call .instantiate a (some p))).withSubMsgAuthzPolicy
        (p.subMessageAuthorizationPolicy .instantiate)))
  | migrate {c : Ctx} {actor : AccAddress} {p : AuthorizationPolicy} {a : AccAddress}
      (h : permits c (.migrate a) actor p) :
      Site.Enters (before c) (within ((c.push (.call .migrate a (some p))).withSubMsgAuthzPolicy
        (p.subMessageAuthorizationPolicy .migrateContract)))
  | reply (c : Ctx) (a : AccAddress) : Site.Enters (within c) (within (c.push (.call .reply a none)))
  | deeper (c : Ctx) (h : c.callDepth + 1 ≤ k.maxCallDepth) :
      Site.Enters (within c) (before { c with callDepth := c.callDepth + 1 })

variable {k permits} in
theorem enters_of_site {s s' : Site} (h : Site.Enters k permits s s') : Enters permits s.ctx s'.ctx := by
  cases h with
  | message c m => exact .message c m
  | call c entry he a => exact .call c entry a
  | instantiate h a => exact .instantiate h a
  | migrate h => exact .migrate h
  | reply c a => exact .call c .reply a
  | deeper c h => exact .deeper c _

/-- A channel of a port, which some state of the host has a capability for. -/
def OpenChannel (portID channelID : String) : Prop :=
  portID ≠ "" ∧ ∃ x, k.host.getCapability x (channelCapabilityPath portID channelID) = true

/-- Writes that a panic cut short. -/
structure Torn (w w' : World X) : Prop where
  trace : w'.trace = w.trace
  vm : w'.vm = w.vm
  meter : w.meter.Spends .panic w'.meter
  loads : Loads w w'

/-- A property of the runs of all code of the module, whatever the contracts and the other modules do. `ports`
are the ports contracts act under; a contract on record may be taken to act under the right one. -/
structure Regime where
  rel : Site → World X → Exit → World X → Prop
  permits : Ctx → Operation → AccAddress → AuthorizationPolicy → Prop
  permits_select : ∀ (c : Ctx) {m : Msg} {op actor}, Performs k m op → k.bech32.fromBech32 m.sender = .ok actor →
    permits (c.push (.message m)) op actor (MsgServer.selectAuthorizationPolicy k (c.push (.message m)) m.sender)
  ports : AccAddress → String → Prop
  ports_own : ∀ {a portID}, OwnPort k a portID → ports a portID
  recorded : ∀ {s w x w' a info}, w.store.kv.get (getContractAddressKey a) = some (.contractInfo info) →
    (ports a info.ibcPortID → rel s w x w') → rel s w x w'
  keeps : ∀ {s w x w' o}, (∀ a, o = some a → Live (durable w) a) → Keeps o w x w' → rel s w x w'
  trans : ∀ {s w w₁ w₂ x}, rel s w .ok w₁ → rel s w₁ x w₂ → rel s w x w₂
  weaken : ∀ {s w w'}, rel s w .ok w' → rel s w .error w'
  act : ∀ {s : Site} {w d}, Act k permits s.ctx (durable w) d → rel s w .ok { w with store := d.store, vm := d.vm }
  torn : ∀ {s w w'}, Torn w w' → rel s w .panic w'
  decision : ∀ {s : Site} {w op actor p}, permits s.ctx op actor p →
    rel s w .ok { w with trace := w.trace ++ [.authorize s.ctx.stack p] }
  called : ∀ {c : Ctx} {w}, rel (within c) w .ok { w with trace := w.trace ++ [.call c.stack] }
  addressed : ∀ {s w codeID a kv}, Claims k w.store.kv codeID a kv →
    rel s w .ok { w with
      store := { w.store with kv }
      trace := w.trace ++ [.address a (w.store.kv.get (getContractAddressKey a)).isSome] }
  acknowledged : ∀ {s w a portID channelID sequence packet}, ports a portID → OpenChannel k portID channelID →
    w.store.kv.get (asyncAckKey portID channelID sequence) = some (.packet packet) →
      rel s w .ok { w with trace := w.trace ++ [.acknowledge a packet w.store] }
  enter : ∀ {s s' w x w'}, Site.Enters k permits s s' → rel s' w x w' → rel s w x w'
  settle : ∀ {c : Ctx} {m w w' changes}, rel (before (c.push (.message m))) w .error w' →
    rel (before c) w .error { w' with store := { w'.store with changes } }
  events : ∀ {s w x w' es es'}, rel s { w with events := es } x w' → rel s w x { w' with events := es' }
  remeter : ∀ {s w w' m₀ m}, rel s { w with meter := m₀ } .ok w' → w.meter.Spends .ok m →
    rel s w .ok { w' with meter := m }
  revert : ∀ {s w x w'}, rel s w x w' → rel s w (if x = .error then .ok else x) { w' with store := w.store }
  revertMeter : ∀ {s w x y w' m₀ m}, rel s { w with meter := m₀ } x w' → w.meter.Spends y m →
    rel s w y { w' with store := w.store, meter := m }

namespace Regime

variable {k} (R : Regime k) (s : Site)

/-- The runs of the regime at one site. -/
def discipline : Discipline (World X) where
  rel := R.rel s
  refl w := R.keeps (by simp) (.refl none w _)
  trans := R.trans
  abort w := R.keeps (by simp) (.refl none w _)
  expire w := R.keeps (by simp) (.refl none w _)

/-- Runs whose errors leave a state to go on from. -/
def clean : Discipline (World X) where
  rel w x w' := R.rel s w (if x = .error then .ok else x) w'
  refl w := R.keeps (by simp) (.refl none w _)
  trans := R.trans
  abort w := R.keeps (by simp) (.refl none w _)
  expire w := R.keeps (by simp) (.refl none w _)

variable {R s}

theorem clean_obeys {α : Type} {m : M X α} (h : (R.clean s).Obeys m) : (R.discipline s).Obeys m := by
  refine h.mono fun {w x w'} hr ↦ ?_
  cases x with
  | error => exact R.weaken hr
  | ok => exact hr
  | panic => exact hr
  | timeout => exact hr

theorem enter_clean {s' : Site} (he : Site.Enters k R.permits s s') {α : Type} {m : M X α}
    (h : (R.clean s').Obeys m) : (R.clean s).Obeys m := h.mono fun hr ↦ R.enter he hr

end Regime

end Cosmwasgo.Runs
