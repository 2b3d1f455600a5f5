import Cosmwasgo.Keeper.IBC
import Cosmwasgo.Properties.Codes
import Cosmwasgo.Registry.Preservation

namespace Cosmwasgo.Properties

open Cosmwasgo.Lib Cosmwasgo.Types Cosmwasgo.State Cosmwasgo.Keeper Cosmwasgo.Runs Cosmwasgo.Registry

variable {X : Type} {k : Keeper X}

/-- What the VM finds in a code is a function of its checksum. -/
def FixedAnalysis (k : Keeper X) : Prop := ∀ {a b}, k.wasmVM.check a = .ok () → k.wasmVM.check b = .ok () →
  k.wasmVM.checksum a = k.wasmVM.checksum b → k.wasmVM.analyze a = k.wasmVM.analyze b

/-- A contract has its own port exactly when its current code has IBC entry points, and otherwise none. -/
structure HasPort (k : Keeper X) (d : Durable X) (a : AccAddress) (info : ContractInfo) : Prop where
  length : a.length = contractAddrLen
  own : OwnPort k a info.ibcPortID
  ibc : ∃ code report, d.kv.get (getCodeKey info.codeID) = some (.codeInfo code) ∧
    Analyzed k d.vm code.codeHash report ∧ (info.ibcPortID ≠ "" ↔ report.hasIBCEntryPoints = true)

/-- What becomes of the record of one contract in a step, as far as its port goes. -/
inductive PortStep (k : Keeper X) (d : Durable X) (a : AccAddress) : Option Value → Option Value → Prop
  | same (v : Option Value) : PortStep k d a v v
  | new {info : ContractInfo} (h : HasPort k d a info) : PortStep k d a none (some (.contractInfo info))
  | update {info info' : ContractInfo} (h : HasPort k d a info → HasPort k d a info')
      (hkept : info.ibcPortID ≠ "" → info'.ibcPortID = info.ibcPortID) :
      PortStep k d a (some (.contractInfo info)) (some (.contractInfo info'))

section Step

variable {c : Ctx} {d d' : Durable X} {n : Nat}

theorem PortStep.of_eq {a : AccAddress} {v v' : Option Value} (h : v' = v) : PortStep k d a v v' := by
  subst h
  exact .same _

/-- A record that keeps its code and its port. -/
theorem PortStep.of_set {a addr : AccAddress} {kv : KVStore} {info info' : ContractInfo}
    (hinfo : kv.get (getContractAddressKey addr) = some (.contractInfo info)) (hcode : info'.codeID = info.codeID)
    (hport : info'.ibcPortID = info.ibcPortID) :
    PortStep k d a (kv.get (getContractAddressKey a))
      ((kv.set (getContractAddressKey addr) (.contractInfo info')).get (getContractAddressKey a)) := by
  by_cases ha : a = addr
  · subst ha
    rw [hinfo, OrderedStore.get_set_self]
    refine .update (fun h ↦ ⟨h.length, hport ▸ h.own, ?_⟩) fun _ ↦ hport
    rw [hcode, hport]
    exact h.ibc
  · exact .of_eq (OrderedStore.get_set_of_ne _ _ fun h ↦ ha (getContractAddressKey_inj h))

theorem portStep_act (hact : Act k Anybody c d d') (a : AccAddress) :
    PortStep k d a (d.kv.get (getContractAddressKey a)) (d'.kv.get (getContractAddressKey a)) := by
  cases hact with
  | cacheCode _ => exact .same _
  | cachePins _ => exact .same _
  | createCode _ _ _ => exact .of_eq ((get_set_of_head _ (by simp)).trans (get_set_of_head _ (by simp)))
  | nextInstance _ _ => exact .of_eq (get_set_of_head _ (by simp))
  | @register _ addr _ _ info _ _ code _ hnew hcode _ horigin _ _ hhead _ hport _ hibc =>
    by_cases ha : a = addr
    · subst ha
      rw [hnew, Durable.kv_withKV, registered, OrderedStore.get_set_self]
      obtain ⟨report, hreport, hiff⟩ := hibc
      exact .new ⟨length_of_origin horigin, hport, code, report, hcode, hreport, hiff⟩
    · exact .of_eq (get_registered_info hhead ha)
  | @migrate info port _ addr _ _ _ _ code _ _ codeID _ hinfo _ _ hcode _ _ _ hport _ hibc =>
    by_cases ha : a = addr
    · subst ha
      rw [hinfo, Durable.kv_withKV, migrated, OrderedStore.get_set_self]
      obtain ⟨report, hreport, hiff, hkept⟩ := hibc
      refine .update (fun h ↦ ⟨h.length, ?_, code, report, hcode, hreport, hiff⟩) hkept
      rcases hport with rfl | rfl
      · exact h.own
      · exact .inr rfl
    · exact .of_eq (get_migrated_info ha)
  | modify _ hinfo _ _ hkind => cases hkind <;> exact .of_set hinfo rfl rfl
  | extend _ _ hinfo => exact .of_set hinfo rfl rfl
  | setAccess _ => exact .of_eq (get_set_of_head _ (by simp))
  | setParams _ => exact .of_eq (get_set_of_head _ (by simp))
  | pin _ => exact .of_eq (get_set_of_head _ (by simp))
  | unpin _ => exact .of_eq (get_delete_of_head (by simp))
  | storePacket _ => exact .of_eq (get_set_of_head _ (by simp))
  | acknowledge _ => exact .of_eq (get_delete_of_head (by simp))

theorem portStep (hstep : Step k Anybody c d d') (a : AccAddress) :
    PortStep k d a (d.kv.get (getContractAddressKey a)) (d'.kv.get (getContractAddressKey a)) := by
  cases hstep with
  | act _ hact => exact portStep_act hact a
  | quiet _ hq => exact .of_eq (hq.records _ (not_isStateKey (by simp)))

/-- A code with the checksum of one that is held may take its place, but it is found to be the same. -/
theorem CodeRegistry.analyzed_step (hk : FixedAnalysis k) (hstep : Step k Anybody c d d') (h : CodeRegistry k n d)
    {checksum : Bytes} {report : AnalysisReport} (hreport : Analyzed k d.vm checksum report) :
    Analyzed k d'.vm checksum report := by
  cases hstep with
  | quiet _ hq => rwa [hq.vm]
  | act _ hact =>
    cases hact with
    | @cacheCode new hcheck =>
      obtain ⟨code, hget, rfl⟩ := hreport
      by_cases heq : checksum = k.wasmVM.checksum new
      · obtain ⟨hsum, hok⟩ := h.held hget
        refine ⟨new, ?_, hk hcheck hok (heq.symm.trans hsum.symm)⟩
        rw [heq]
        exact OrderedStore.get_set_self _ _ _
      · exact ⟨code, (OrderedStore.get_set_of_ne _ _ heq).trans hget, rfl⟩
    | _ => exact hreport

theorem HasPort.step (hk : FixedAnalysis k) (hstep : Step k Anybody c d d') (hreg : CodeRegistry k n d) {a : AccAddress}
    {info : ContractInfo} (h : HasPort k d a info) : HasPort k d' a info := by
  obtain ⟨code, report, hcode, hreport, hiff⟩ := h.ibc
  obtain ⟨code', hcode', hhash, -⟩ := (hreg.step hstep).2.infos hcode
  refine ⟨h.length, h.own, code', report, hcode', ?_, hiff⟩
  rw [hhash]
  exact hreg.analyzed_step hk hstep hreport

end Step

/-- All contracts of a state have the port they should have. -/
def PortsExact (k : Keeper X) (d : Durable X) : Prop :=
  ∀ a info, d.kv.get (getContractAddressKey a) = some (.contractInfo info) → HasPort k d a info

theorem PortsExact.step (hk : FixedAnalysis k) {c : Ctx} {d d' : Durable X} {n : Nat} (hstep : Step k Anybody c d d')
    (hreg : CodeRegistry k n d) (h : PortsExact k d) : PortsExact k d' := by
  intro a info' hget
  have hmove := portStep hstep a
  rw [hget] at hmove
  suffices HasPort k d a info' from this.step hk hstep hreg
  generalize hv : d.kv.get (getContractAddressKey a) = v at hmove
  cases hmove with
  | same => exact h a info' hv
  | new hnew => exact hnew
  | update hupdate _ => exact hupdate (h a _ hv)

theorem portsExact_reachable (hk : FixedAnalysis k) {d : Durable X} (h : Reachable k d) : PortsExact k d := by
  refine (h.invariant (P := fun d ↦ (∃ n, CodeRegistry k n d) ∧ PortsExact k d)
    (fun x ↦ ⟨⟨0, codeRegistry_empty x⟩, nofun⟩) ?_).2
  rintro c d d' hstep ⟨⟨n, hreg⟩, hports⟩
  exact ⟨(hreg.step hstep).1, hports.step hk hstep hreg⟩

/-- A port that a contract has is never taken from it. -/
def PortsKept (d d' : Durable X) : Prop :=
  ∀ a info, d.kv.get (getContractAddressKey a) = some (.contractInfo info) → info.ibcPortID ≠ "" →
    ∃ info', d'.kv.get (getContractAddressKey a) = some (.contractInfo info') ∧ info'.ibcPortID = info.ibcPortID

theorem PortsKept.step {c : Ctx} {d d₁ d₂ : Durable X} (hstep : Step k Anybody c d₁ d₂) (h : PortsKept d d₁) :
    PortsKept d d₂ := by
  intro a info hget hne
  obtain ⟨info₁, hget₁, hport₁⟩ := h a info hget hne
  have hmove := portStep hstep a
  rw [hget₁] at hmove
  generalize hv : d₂.kv.get (getContractAddressKey a) = v at hmove
  cases hmove with
  | same => exact ⟨info₁, rfl, hport₁⟩
  | update _ hkept => exact ⟨_, rfl, (hkept (hport₁ ▸ hne)).trans hport₁⟩

theorem portsKept_run {d d' : Durable X} (hrun : KeeperRun k d d') : PortsKept d d' :=
  hrun.invariant (P := PortsKept d) (fun _ _ hget _ ↦ ⟨_, hget, rfl⟩) fun hstep h ↦ h.step hstep

theorem contractFromPortID_portIDForContract {a : AccAddress}
    (h : k.bech32.fromBech32 (k.bech32.string a) = .ok a) : contractFromPortID k (portIDForContract k a) = .ok a := by
  have hlist : (portIDForContract k a).toList = portIDPrefix.toList ++ (k.bech32.string a).toList :=
    String.toList_append ..
  have hlen : portIDPrefix.length = portIDPrefix.toList.length := rfl
  rw [contractFromPortID, hlist, if_pos (by simp), hlen, List.drop_left, String.ofList_toList, h]

/-- What comes in for a port goes to one contract. -/
structure Routed (k : Keeper X) (portID : String) (a : AccAddress) : Prop where
  decoded : contractFromPortID k portID = .ok a
  opening : ∀ {c : Ctx} {p : IBCHandler.ChannelParams} {msg : IBCChannel → IBCChannelOpenMsg} {hop : String}
    {hops : List String}, p.portID = portID → p.connectionHops = hop :: hops →
      IBCHandler.validateChannelParams k p.channelID = .ok () →
      IBCHandler.openChannel k c p msg = onOpenChannel k c a (msg (p.channel hop))
  callback : ∀ {h : ResponseHandler X} {c : Ctx} {cb : ChannelCallback}, cb.portID = portID →
    channelCallback k h c cb = (do onCloseChannel k h c a cb.msg; return none)
  packet : ∀ {h : ResponseHandler X} {c : Ctx} {packet : Packet} {relayer : String}, packet.destinationPort = portID →
    ∃ answer, IBCHandler.onRecvPacket k h c packet relayer =
      (withEventManager (Keeper.onRecvPacket k h c a (IBCHandler.newIBCPacket packet) relayer)).attempt answer

theorem routed_of_decoded {portID : String} {a : AccAddress} (h : contractFromPortID k portID = .ok a) :
    Routed k portID a := by
  refine ⟨h, ?_, ?_, ?_⟩
  · rintro c p msg hop hops rfl hhops hparams
    unfold IBCHandler.openChannel
    rw [hparams, h, hhops]
    rfl
  · rintro h' c cb rfl
    unfold channelCallback
    rw [h]
    rfl
  · rintro h' c packet relayer rfl
    unfold IBCHandler.onRecvPacket
    have hcontract : (liftPanic ((contractFromPortID k packet.destinationPort).mapError fun e ↦
        .other ("contract port id: " ++ e.error)) : M X AccAddress) = pure a := by
      rw [h]
      rfl
    rw [hcontract, Program.pure_bind]
    exact ⟨_, rfl⟩

/-- Ports over every run. -/
theorem ports_exact (hk : FixedAnalysis k) {d d' : Durable X} (h : Reachable k d) (hrun : KeeperRun k d d') :
    PortsExact k d ∧ PortsKept d d' ∧
    (∀ {a}, k.bech32.fromBech32 (k.bech32.string a) = .ok a →
      contractFromPortID k (portIDForContract k a) = .ok a) ∧
    ∀ {a info}, d.kv.get (getContractAddressKey a) = some (.contractInfo info) → info.ibcPortID ≠ "" →
      Routed k info.ibcPortID a ∧
      ∀ {a' info'}, d.kv.get (getContractAddressKey a') = some (.contractInfo info') →
        info'.ibcPortID = info.ibcPortID → a' = a := by
  have hexact := portsExact_reachable hk h
  have hdecoded : ∀ {a info}, d.kv.get (getContractAddressKey a) = some (.contractInfo info) → info.ibcPortID ≠ "" →
      contractFromPortID k info.ibcPortID = .ok a := by
    intro a info hget hne
    have hport := hexact a info hget
    rw [hport.own.resolve_left hne]
    exact contractFromPortID_portIDForContract (k.bech32.fromBech32_string (k.bech32.valid_contract hport.length))
  refine ⟨hexact, portsKept_run hrun, contractFromPortID_portIDForContract, fun {a info} hget hne ↦
    ⟨routed_of_decoded (hdecoded hget hne), fun {a' info'} hget' heq ↦ ?_⟩⟩
  have h₁ := hdecoded hget' (heq ▸ hne)
  rw [heq, hdecoded hget hne] at h₁
  exact (Except.ok.inj h₁).symm

/-- A devnet whose contracts all have IBC entry points. -/
def ibcnet : Keeper Unit :=
  let k := plainnet idleContract
  { k with wasmVM := { k.wasmVM with analyze := fun _ ↦ { hasIBCEntryPoints := true } } }

def carolInstantiates : Durable Unit :=
  delivered ibcnet (durable openWorld) [storeCodeMsg carol, instantiateMsg carol]

def portOf : Option Value → Option String
  | some (.contractInfo info) => some info.ibcPortID
  | _ => none

theorem ports_exact_ibcnet :
    portOf (carolInstantiates.kv.get (getContractAddressKey contractOne)) =
      some (portIDForContract ibcnet contractOne) ∧
    PortsExact ibcnet carolInstantiates ∧
    PortsKept carolInstantiates (committed (unpinCode ibcnet 1) (worldOf carolInstantiates)) := by
  have hopen : Reachable ibcnet (durable openWorld) :=
    .op (w := emptyWorld) (.empty ()) (.setParams (n := 0) (c := genesisCtx) ⟨allowEverybody, .everybody⟩)
  have hrun : KeeperRun ibcnet carolInstantiates (committed (unpinCode ibcnet 1) (worldOf carolInstantiates)) :=
    .once (n := 0) (c := genesisCtx) (.keeper (.unpinCode 1)) _
  obtain ⟨hexact, hkept, -⟩ := ports_exact (fun _ _ _ ↦ rfl) (hopen.delivered _) hrun
  exact ⟨by decide +kernel, hexact, hkept⟩

end Cosmwasgo.Properties
