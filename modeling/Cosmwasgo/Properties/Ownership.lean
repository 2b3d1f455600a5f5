import Cosmwasgo.Runs.Paths
import Cosmwasgo.Runs.Roots
import Cosmwasgo.State.Devnet

namespace Cosmwasgo.Properties

open Cosmwasgo.Lib Cosmwasgo.Types Cosmwasgo.State Cosmwasgo.Keeper Cosmwasgo.Runs MsgServer Relation

variable {X : Type} {k : Keeper X}

/-- The operation a message must ask for to make a change of a registered contract. -/
def operationOf (kind : ChangeKind) (contract : AccAddress) : Operation :=
  match kind with
  | .migrate => .migrate contract
  | kind => .modify kind contract

/-- What a change of each kind may do to the info. A new code has to exist and to admit the caller. -/
inductive Alters (k : Keeper X) (caller : AccAddress) (code : Option Value) :
    ChangeKind → ContractInfo → ContractInfo → Prop
  | migrate (info : ContractInfo) (codeID : UInt64) (ibcPortID : String) {codeInfo : CodeInfo}
      (hcode : code = some (.codeInfo codeInfo))
      (hallowed : codeInfo.instantiateConfig.allowed k.bech32 caller = .ok true) :
      Alters k caller code .migrate info { info with codeID, ibcPortID }
  | admin (info : ContractInfo) (admin : String) : Alters k caller code .admin info { info with admin }
  | label (info : ContractInfo) (label : String) : Alters k caller code .label info { info with label }

/-- A change made by a message that succeeded and whose sender is the admin stored at that moment. -/
structure ByAdmin (k : Keeper X) (info : ContractInfo) (ch : ContractChange) : Prop where
  before : ch.before = some (.contractInfo info)
  succeeded : ch.failed = false
  message : ∃ m s, ch.stack = .message m :: s ∧ Performs k m (operationOf ch.kind ch.contract) ∧
    k.bech32.fromBech32 m.sender = .ok ch.caller
  admin : k.bech32.fromBech32 info.admin = .ok ch.caller
  alters : Alters k ch.caller ch.code ch.kind info ch.after

/-- The changes lead from one info of the contract to the other, each of them made by the admin. -/
inductive Owned (k : Keeper X) (a : AccAddress) : ContractInfo → List ContractChange → ContractInfo → Prop
  | nil (info : ContractInfo) : Owned k a info [] info
  | other {info info' : ContractInfo} {ch : ContractChange} {chs : List ContractChange} (ha : ch.contract ≠ a)
      (h : Owned k a info chs info') : Owned k a info (ch :: chs) info'
  | change {info info' : ContractInfo} {ch : ContractChange} {chs : List ContractChange} (ha : ch.contract = a)
      (hch : ByAdmin k info ch) (h : Owned k a ch.after chs info') : Owned k a info (ch :: chs) info'

namespace Owned

variable {a : AccAddress} {info info₁ info' : ContractInfo} {chs chs' : List ContractChange}

theorem append (h : Owned k a info chs info₁) (h' : Owned k a info₁ chs' info') : Owned k a info (chs ++ chs') info' := by
  induction h with
  | nil info => exact h'
  | other ha _ ih => exact .other ha (ih h')
  | change ha hch _ ih => exact .change ha hch (ih h')

theorem creator_eq (h : Owned k a info chs info') : info'.creator = info.creator ∧ info'.created = info.created := by
  induction h with
  | nil info => exact ⟨rfl, rfl⟩
  | other _ _ ih => exact ih
  | @change info info' ch chs _ hch _ ih =>
    have halt := hch.alters
    generalize ch.kind = kind, ch.after = after at halt ih
    cases halt <;> exact ih

theorem eq_of_no_admin (h : Owned k a info chs info') (hadmin : info.admin = "") : info' = info := by
  induction h with
  | nil info => rfl
  | other _ _ ih => exact ih hadmin
  | change _ hch _ _ =>
    have hsome := hch.admin
    obtain ⟨e, he⟩ := k.bech32.fromBech32_empty
    rw [hadmin, he] at hsome
    cases hsome

end Owned

/-- The changes on record in between, and what they did to the contracts registered before. -/
def Tracks (k : Keeper X) (d d' : Durable X) : Prop :=
  ∃ added, d'.store.changes = d.store.changes ++ added ∧
    ((∀ ch ∈ added, Unprivileged k ch.stack) → ∀ {a info}, InfoStored a info d →
      ∃ info', InfoStored a info' d' ∧ Owned k a info added info')

namespace Tracks

variable {d d₁ d₂ : Durable X}

theorem trans (h : Tracks k d d₁) (h' : Tracks k d₁ d₂) : Tracks k d d₂ := by
  obtain ⟨l, hl, howned⟩ := h
  obtain ⟨l', hl', howned'⟩ := h'
  refine ⟨l ++ l', by rw [hl', hl, List.append_assoc], fun hun a info hinfo ↦ ?_⟩
  obtain ⟨info₁, hinfo₁, ho⟩ := howned (fun ch hch ↦ hun ch (List.mem_append_left _ hch)) hinfo
  obtain ⟨info₂, hinfo₂, ho'⟩ := howned' (fun ch hch ↦ hun ch (List.mem_append_right _ hch)) hinfo₁
  exact ⟨info₂, hinfo₂, ho.append ho'⟩

/-- Nothing is put on record and no info changes. -/
theorem of_eq (hc : d₁.store.changes = d.store.changes)
    (hk : ∀ a, d₁.kv.get (getContractAddressKey a) = d.kv.get (getContractAddressKey a)) : Tracks k d d₁ := by
  refine ⟨[], by simp [hc], fun _ a info hinfo ↦ ⟨info, ?_, .nil info⟩⟩
  unfold InfoStored at *
  rw [hk, hinfo]

/-- One change on record. -/
theorem of_change {ch : ContractChange} {after : KVStore}
    (hother : ∀ a, a ≠ ch.contract → after.get (getContractAddressKey a) = d.kv.get (getContractAddressKey a))
    (hself : Unprivileged k ch.stack → ∀ {info}, InfoStored ch.contract info d →
      after.get (getContractAddressKey ch.contract) = some (.contractInfo ch.after) ∧ ByAdmin k info ch) :
    Tracks k d ((d.recording ch).withKV after) := by
  refine ⟨[ch], rfl, fun hun a info hinfo ↦ ?_⟩
  by_cases ha : ch.contract = a
  · subst ha
    obtain ⟨hafter, hby⟩ := hself (hun ch List.mem_cons_self) hinfo
    exact ⟨ch.after, hafter, .change rfl hby (.nil _)⟩
  · refine ⟨info, ?_, .other ha (.nil info)⟩
    exact (hother a (Ne.symm ha)).trans hinfo

end Tracks

/-- The default policy lets only the stored admin through. -/
theorem admin_of_canModify {info : ContractInfo} {admin caller : AccAddress} (hadmin : adminAddr k info = .ok admin)
    (h : AuthorizationPolicy.default.canModifyContract admin caller = true) :
    k.bech32.fromBech32 info.admin = .ok caller := by
  obtain ⟨hne, heq⟩ : admin ≠ [] ∧ admin = caller := by
    simpa [AuthorizationPolicy.canModifyContract] using h
  subst heq
  unfold adminAddr at hadmin
  split at hadmin
  · cases hadmin
    exact absurd rfl hne
  · split at hadmin
    · next hdec =>
      cases hadmin
      exact hdec
    · cases hadmin

/-- An act below a root that carries no policy changes infos only for their admins. -/
theorem Tracks.of_act {c : Ctx} {d d' : Durable X} (hc : OnPath k c) (h : Act k (Decides k) c d d') : Tracks k d d' := by
  cases h with
  | cacheCode _ => exact .of_eq rfl fun _ ↦ rfl
  | cachePins _ => exact .of_eq rfl fun _ ↦ rfl
  | createCode _ _ _ =>
    refine .of_eq rfl fun a ↦ ?_
    rw [Durable.kv_withKV, get_set_of_head _ (by simp), get_set_of_head _ (by simp)]
  | register hp hnew hcode hauth horigin hvalid hcreator hhead hpos hport hnext =>
    refine .of_change (fun a ha ↦ get_registered_info hhead ha) fun _ info hinfo ↦ ?_
    cases hnew.symm.trans hinfo
  | migrate info port hp hinfo hadmin hmodify hcode hauth hlast hpos hport hnext =>
    refine .of_change (fun a ha ↦ get_migrated_info ha) fun hun info' hinfo' ↦ ?_
    cases hinfo.symm.trans hinfo'
    obtain rfl := hc.default_of_unprivileged hp hun
    obtain ⟨m, s, hs, hm, ha, -⟩ := hp
    refine ⟨OrderedStore.get_set_self _ _ _, hinfo, rfl, ⟨m, s, hs, hm, ha⟩, admin_of_canModify hadmin hmodify, ?_⟩
    exact .migrate info _ port hcode hauth
  | modify hp hinfo hadmin hmodify hkind =>
    refine .of_change (fun a ha ↦ ?_) fun hun info' hinfo' ↦ ?_
    · exact OrderedStore.get_set_of_ne _ _ fun h ↦ ha (List.append_cancel_left h)
    · cases hinfo.symm.trans hinfo'
      obtain rfl := hc.default_of_unprivileged hp hun
      obtain ⟨m, s, hs, hm, ha, -⟩ := hp
      refine ⟨OrderedStore.get_set_self _ _ _, hinfo, rfl, ⟨m, s, hs, ?_, ha⟩, admin_of_canModify hadmin hmodify, ?_⟩
      · cases hkind <;> exact hm
      · cases hkind with
        | admin _ admin => exact .admin _ admin
        | label _ label => exact .label _ label
  | extend ext hp hinfo =>
    obtain ⟨m, s, -, hm, -⟩ := hp
    cases hm
  | _ =>
    refine .of_eq rfl fun a ↦ ?_
    first
    | exact get_set_of_head _ (by simp)
    | exact get_delete_of_head (by simp)

theorem Tracks.of_steps {c : Ctx} {d d' : Durable X} (hc : OnPath k c) (h : Steps k (Decides k) c d d') :
    Tracks k d d' := by
  induction h with
  | refl => exact .of_eq rfl fun _ ↦ rfl
  | tail _ hstep ih =>
    refine ih.trans ?_
    cases hstep with
    | act hreach h => exact .of_act (hc.reaches hreach) h
    | quiet _ h => exact .of_eq h.changes fun a ↦ h.records _ (not_isStateKey (by simp))

theorem Tracks.of_run {d d' : Durable X} (run : MessageRun k d d') : Tracks k d d' := by
  induction run with
  | start => exact .of_eq rfl fun _ ↦ rfl
  | @deliver n c m w _ hs hp ih =>
    refine ih.trans (.of_steps (c := c) ⟨by rw [hs]; exact .root, by rw [hs, hp]; rfl⟩ ?_)
    have hh := Regime.handlerObeys_responseHandler
      (stepsRegime_observes fun c _ _ _ hm ha ↦ decides_select (k := k) c hm ha) n
    exact steps_committed (Regime.obeys_handleMsg hh c m) w
  | outside _ x ih => exact ih.trans (.of_eq rfl fun _ ↦ rfl)

/-- The changes a run puts on record. -/
def newChanges (d d' : Durable X) : List ContractChange := d'.store.changes.drop d.store.changes.length

/-- In every run of messages without the authority a registered contract stays registered, and its info changes
only at the hands of the admin stored at that moment, never in its creator or its creation. Without an admin it
does not change at all. -/
theorem ownership_safe {d d' : Durable X} (run : MessageRun k d d')
    (hun : ∀ ch ∈ newChanges d d', Unprivileged k ch.stack) {a : AccAddress} {info : ContractInfo}
    (hinfo : d.kv.get (getContractAddressKey a) = some (.contractInfo info)) :
    ∃ info', d'.kv.get (getContractAddressKey a) = some (.contractInfo info') ∧
      Owned k a info (newChanges d d') info' ∧ info'.creator = info.creator ∧ info'.created = info.created ∧
        (info.admin = "" →
          info'.codeID = info.codeID ∧ info'.admin = info.admin ∧ info'.label = info.label) := by
  obtain ⟨added, hadded, howned⟩ := Tracks.of_run run
  have hnew : newChanges d d' = added := by rw [newChanges, hadded, List.drop_left]
  rw [hnew] at hun ⊢
  obtain ⟨info', hinfo', ho⟩ := howned hun hinfo
  refine ⟨info', hinfo', ho, ho.creator_eq.1, ho.creator_eq.2, fun hadmin ↦ ?_⟩
  rw [ho.eq_of_no_admin hadmin]
  exact ⟨rfl, rfl, rfl⟩

section Devnet

/-- The world after a message. -/
def after (m : Msg) (w : World Unit) : World Unit :=
  (handleMsg (devnet idleContract) (responseHandler (devnet idleContract) 2) genesisCtx m w).2

def firstContract : AccAddress := buildContractAddressClassic (devnet idleContract) 1 1

def aliceHandsOver : Msg :=
  .updateAdmin { sender := alice, newAdmin := bob, contract := cosmosBech32.string firstContract }

/-- A contract of Alice's that is handed over to Bob. -/
theorem ownership_safe_devnet :
    let k := devnet idleContract
    let w := after aliceInstantiates (after aliceStores openWorld)
    let d' := committed (handleMsg k (responseHandler k 2) genesisCtx aliceHandsOver) w
    let info : ContractInfo := ⟨1, alice, alice, "contract", some ⟨1, 0⟩, "", none⟩
    (newChanges (durable w) d').map (·.after.admin) = [bob] ∧
      ∃ info', d'.kv.get (getContractAddressKey firstContract) = some (.contractInfo info') ∧
        Owned k firstContract info (newChanges (durable w) d') info' ∧ info'.creator = info.creator ∧
          info'.created = info.created ∧ (info.admin = "" →
            info'.codeID = info.codeID ∧ info'.admin = info.admin ∧ info'.label = info.label) := by
  intro k w d' info
  have hrun : (newChanges (durable w) d').map (·.after.admin) = [bob] ∧
      (∀ ch ∈ newChanges (durable w) d', Unprivileged k ch.stack) ∧
        (durable w).kv.get (getContractAddressKey firstContract) = some (.contractInfo info) := by
    decide +kernel
  exact ⟨hrun.1, ownership_safe (.deliver .start rfl rfl) hrun.2.1 hrun.2.2⟩

end Devnet

end Cosmwasgo.Properties
