import Cosmwasgo.Runs.Contracts

namespace Cosmwasgo.Runs

open Cosmwasgo.Lib Cosmwasgo.Types Cosmwasgo.State Cosmwasgo.Keeper

variable {X α β : Type} {k : Keeper X} {R : Regime k} {h : ResponseHandler X} {s : Site} {c : Ctx} {P : Durable X → Prop}

theorem Origin.of_get {kv kv' : KVStore} {codeID : UInt64} {a : AccAddress} (ho : Origin k kv codeID a)
    (hs : kv'.get keySequenceInstanceID = kv.get keySequenceInstanceID) : Origin k kv' codeID a := by
  cases ho with
  | classic i hi hseq => exact .classic i hi (hs.trans hseq)
  | predictable checksum creator salt msg hc => exact .predictable checksum creator salt msg hc

namespace Regime

theorem clean_authorize {op : Operation} {actor : AccAddress} {p : AuthorizationPolicy} (hp : R.permits c op actor p)
    (decision : Except Panic Bool) (e : Err) :
    (R.clean (before c)).Triple (On P) (authorize c p decision e) fun _ w ↦ P (durable w) ∧ decision = .ok true := by
  refine Discipline.Triple.bind (Q := fun _ ↦ On P) (fun w hw ↦ ⟨R.decision hp, fun a t ht ↦ ?_⟩) fun _ ↦ ?_
  · obtain ⟨-, rfl⟩ := Prod.mk.inj ht
    exact hw
  · cases decision with
    | error p =>
      exact (Writes.raise p).clean_triple (Q := fun _ d ↦ P d ∧ Except.error p = .ok true)
        (fun _ _ _ _ hf ↦ hf.elim) fun _ _ _ _ hf ↦ hf.elim
    | ok granted => exact Discipline.Triple.require fun w hw hg ↦ ⟨hw, by rw [hg]⟩

theorem clean_vmStoreCode (code : Bytes) (gasLimit : Gas) : (R.clean (before c)).Obeys (vmStoreCode k code gasLimit) := by
  refine Discipline.Obeys.ite (fun _ ↦ .pure _) fun _ ↦ ?_
  split
  · exact .pure _
  · next hcheck => exact Discipline.Obeys.bind (fun w ↦ R.act (.cacheCode hcheck)) fun _ ↦ .pure _

theorem Analyzed.stable {P : Durable X → Prop} (hP : Stable P) (checksum : Bytes) (report : AnalysisReport) :
    Stable fun d ↦ P d ∧ Analyzed k d.vm checksum report :=
  fun _ _ _ hq hd ↦ ⟨hP hq hd.1, by rw [hq.vm]; exact hd.2⟩

/-- A report is about a code that the VM holds. -/
theorem clean_analyzeCode {P : Durable X → Prop} (checksum : Bytes) (failed : Err) :
    (R.clean (before c)).Triple (On P) (analyzeCode k checksum failed)
      fun report ↦ On fun d ↦ P d ∧ Analyzed k d.vm checksum report := by
  intro w hw
  refine ⟨(Local.analyzeCode checksum failed).clean w, fun a t ht ↦ ?_⟩
  rw [analyzeCode, Program.read_bind_apply] at ht
  rcases hc : w.vm.codes.get checksum with _ | code <;> rw [hc] at ht
  · cases ht
  · obtain ⟨ha, rfl⟩ := Prod.mk.inj ht
    cases ha
    exact ⟨hw, code, hc, rfl⟩

theorem clean_create {authZ : AuthorizationPolicy} {creator : AccAddress} (hp : R.permits c .create creator authZ)
    (wasmCode : Bytes) (access : Option AccessConfig) : (R.clean (before c)).Obeys (create k c creator wasmCode access authZ) := by
  refine (Local.require _ _).clean.bind fun _ ↦ Local.getParams.clean.bind fun params ↦ ?_
  refine (Local.liftPanic _).clean.bind fun defaultAccess ↦ Local.getParams.clean.bind fun params ↦ ?_
  refine Discipline.Obeys.bind (Discipline.Triple.obeys ((clean_authorize (P := fun _ ↦ True) hp _ _).conseq
    (fun _ _ ↦ trivial) fun _ _ _ ↦ trivial)) fun _ ↦ ?_
  refine (Local.unpackCode wasmCode).clean.bind fun code ↦ (Local.runtimeGasForContract k).clean.bind fun gasLeft ↦ ?_
  refine (clean_vmStoreCode code gasLeft).bind fun (stored, gasUsed) ↦ ?_
  refine (Local.consumeRuntimeGas k gasUsed).clean.bind fun _ ↦ (Local.lift _).clean.bind fun checksum ↦ ?_
  refine Discipline.Triple.obeys ((clean_analyzeCode (P := fun _ ↦ True) checksum errCreateFailed).bind fun report ↦ ?_)
  refine Discipline.Triple.bind (Q := fun _ _ ↦ True) ((Writes.persistCode k _).clean_triple ?_ fun _ _ _ _ _ ↦ trivial)
    fun codeID ↦ ((Local.emitEvents _).clean.bind fun _ ↦ .pure _).triple
  rintro d id d' ⟨-, code, hcode, -⟩ ⟨hid, hlt, rfl⟩
  exact .createCode hid hlt (by rw [hcode]; rfl)

/-- An address generator makes addresses in one of the known ways. -/
def Generates (k : Keeper X) (gen : AddressGenerator X) : Prop :=
  ∀ codeID checksum, Writes (gen codeID checksum) fun d a d' ↦ ∃ kv, Claims k d.kv codeID a kv ∧ d' = d.withKV kv

theorem length_address (k : Keeper X) (key : Bytes) : ((k.addressModule key).take contractAddrLen).length = contractAddrLen := by
  rw [List.length_take, k.addressModule_length]
  rfl

theorem generates_classic : Generates k (classicAddressGenerator k) := by
  intro codeID checksum
  refine ((Writes.mustAutoIncrementID k keySequenceInstanceID).bind fun id ↦ Writes.pure _).mono ?_
  rintro d a d' ⟨id, _, ⟨hid, hlt, rfl⟩, rfl, rfl⟩
  exact ⟨_, .classic hid hlt, rfl⟩

theorem predictable_eq_ok {checksum creator salt initMsg a : Bytes}
    (h : buildContractAddressPredictable k checksum creator salt initMsg = .ok a) : checksum.length = 32 ∧
      a = (k.addressModule (predictableKey checksum creator salt initMsg)).take contractAddrLen := by
  unfold buildContractAddressPredictable at h
  by_cases hc : checksum.length = 32
  · refine ⟨hc, ?_⟩
    rw [if_neg (by simpa using hc)] at h
    simp only [bind, Except.bind, pure, Except.pure] at h
    repeat' split at h
    all_goals first | (cases h; rfl) | cases h
  · rw [if_pos (by simpa using hc)] at h
    cases h

theorem generates_predictable (creator : AccAddress) (salt msg : Bytes) (fixMsg : Bool) :
    Generates k (predictableAddressGenerator k creator salt msg fixMsg) := by
  intro codeID checksum
  refine (Writes.liftPanic _).mono ?_
  rintro d a d' ⟨ha, rfl⟩
  obtain ⟨hc, rfl⟩ := predictable_eq_ok ha
  exact ⟨_, .predictable checksum creator salt _ hc, rfl⟩

theorem length_claimed {kv kv' : KVStore} {codeID : UInt64} {a : AccAddress} (h : Claims k kv codeID a kv') :
    a.length = contractAddrLen := by
  cases h with
  | classic _ _ => exact length_address k _
  | predictable _ _ _ _ _ => exact length_address k _

/-- What is known about the store from the address of a new contract to its registration. -/
structure Instantiable (k : Keeper X) (codeID : UInt64) (code : CodeInfo) (addr : AccAddress) (d : Durable X) :
    Prop where
  code : d.kv.get (getCodeKey codeID) = some (.codeInfo code)
  new : d.kv.get (getContractAddressKey addr) = none
  length : addr.length = contractAddrLen
  origin : Origin k d.kv codeID addr

theorem Instantiable.stable (codeID : UInt64) (code : CodeInfo) (addr : AccAddress) :
    Stable (Instantiable k codeID code addr) := by
  intro o d d' hq hd
  refine ⟨?_, ?_, hd.length, hd.origin.of_get (hq.records _ (not_isStateKey (by simp)))⟩
  · exact (hq.records _ (not_isStateKey (by simp))).trans hd.code
  · exact (hq.records _ (not_isStateKey (by simp))).trans hd.new

theorem Instantiable.live {codeID : UInt64} {code : CodeInfo} {addr : AccAddress} (d : Durable X)
    (hd : Instantiable k codeID code addr d) (a : AccAddress) (ha : some addr = some a) : Live d a := by
  cases ha
  exact .inl hd.length

/-- The store after a new address was made, with what was found under it. -/
structure Addressed (k : Keeper X) (codeID : UInt64) (code : CodeInfo) (addr : AccAddress) (taken : Bool)
    (d : Durable X) : Prop where
  code : d.kv.get (getCodeKey codeID) = some (.codeInfo code)
  length : addr.length = contractAddrLen
  origin : Origin k d.kv codeID addr
  taken : taken = (d.kv.get (getContractAddressKey addr)).isSome

theorem clean_newAddress {gen : AddressGenerator X} (hgen : Generates k gen) {codeID : UInt64} {code : CodeInfo} :
    (R.clean s).Triple (On (CodeStored codeID code)) (newAddress k gen codeID code.codeHash)
      fun r ↦ On (Addressed k codeID code r.1 r.2) := by
  have hw : Writes (do
      let a ← gen codeID code.codeHash
      let b ← hasContractInfo k a
      pure (a, b)) fun d r d' ↦ ∃ kv, Claims k d.kv codeID r.1 kv ∧
        r.2 = (d.kv.get (getContractAddressKey r.1)).isSome ∧ d' = d.withKV kv := by
    refine ((hgen codeID code.codeHash).bind fun a ↦ (Writes.hasKV k (getContractAddressKey a)).bind fun b ↦
      Writes.pure (a, b)).mono ?_
    rintro d r d' ⟨a, _, ⟨kv, hclaim, rfl⟩, b, _, ⟨hb, rfl⟩, rfl, rfl⟩
    refine ⟨kv, hclaim, hb.trans ?_, rfl⟩
    rw [Durable.kv_withKV, hclaim.get (head_ne (by simp))]
  have hseq : newAddress k gen codeID code.codeHash =
      (gen codeID code.codeHash >>= fun a ↦ hasContractInfo k a >>= fun b ↦ pure (a, b)) >>= fun r ↦
        observe (.address r.1 r.2) >>= fun _ ↦ pure r := by
    simp only [Program.bind_assoc]
    rfl
  rw [hseq]
  intro w hcode
  rcases hr : (gen codeID code.codeHash >>= fun a ↦ hasContractInfo k a >>= fun b ↦ pure (a, b)) w
    with ⟨r | e | p | _, w'⟩
  · obtain ⟨kv, hclaim, htaken, hd⟩ := hw.post w r w' hr
    have ht := hw.trace w
    have hm := hw.meter w
    have hl := hw.loads w
    have hs : w'.store = { w.store with kv } := congrArg Durable.store hd
    have hv : w'.vm = w.vm := congrArg Durable.vm hd
    rw [hr] at ht hm hl
    rw [Program.bind_of_ok _ hr]
    refine ⟨R.trans (R.addressed hclaim) (R.keeps (o := none) (by simp) ?_), fun a t hat ↦ ?_⟩
    · refine .of_eq ?_ hv (congrArg Store.changes hs) (congrArg Store.acks hs) (congrArg Store.kv hs) hm hl
      change w'.trace ++ [.address r.1 r.2] = w.trace ++ _
      rw [htaken]
      exact congrArg (· ++ _) ht
    · obtain ⟨ha, rfl⟩ := Prod.mk.inj hat
      cases ha
      have hkv : ∀ {key}, key ≠ keySequenceInstanceID → w'.store.kv.get key = w.store.kv.get key := by
        intro key hne
        rw [hs]
        exact hclaim.get hne
      refine ⟨(hkv (head_ne (by simp))).trans hcode, length_claimed hclaim, ?_, ?_⟩
      · change Origin k w'.store.kv codeID r.1
        rw [hs]
        exact hclaim.origin
      · exact htaken.trans (congrArg Option.isSome (hkv (head_ne (by simp))).symm)
  · have hx := hw.exits w
    rw [hr] at hx
    simp at hx
  · have ht := hw.trace w
    have hv := hw.vm w
    have hm := hw.meter w
    have hl := hw.loads w
    rw [hr] at ht hv hm hl
    rw [Program.bind_of_panic _ hr]
    exact ⟨R.torn ⟨ht, hv, hm, hl⟩, nofun⟩
  · have hx := hw.exits w
    rw [hr] at hx
    simp at hx

theorem ownPort_ensureIbcPort {addr : AccAddress} {w w' : World X} {port : String}
    (h : ensureIbcPort k addr w = (.ok port, w')) : port = portIDForContract k addr := by
  rw [ensureIbcPort, Program.read_bind_apply] at h
  split at h
  · obtain ⟨hp, -⟩ := Prod.mk.inj h
    cases hp
    rfl
  · obtain ⟨_, _, -, h⟩ := Program.bind_eq_ok.1 h
    obtain ⟨hp, -⟩ := Prod.mk.inj h
    cases hp
    rfl

theorem portIDForContract_ne (k : Keeper X) (addr : AccAddress) : portIDForContract k addr ≠ "" := by
  intro h
  have hlen := congrArg String.toList h
  rw [portIDForContract, String.toList_append] at hlen
  cases hlen

/-- A new contract has a port, its own, exactly when its code has IBC entry points. -/
theorem port_instancePort (addr : AccAddress) (report : AnalysisReport) {w w' : World X} {port : String}
    (h : instancePort k addr report w = (.ok port, w')) :
    OwnPort k addr port ∧ (port ≠ "" ↔ report.hasIBCEntryPoints = true) := by
  unfold instancePort at h
  split at h
  · next hibc =>
    rw [ownPort_ensureIbcPort h]
    exact ⟨.inr rfl, fun _ ↦ hibc, fun _ ↦ portIDForContract_ne k addr⟩
  · next hibc =>
    cases (Prod.mk.inj h).1
    exact ⟨.inl rfl, fun h ↦ absurd rfl h, fun h ↦ absurd h hibc⟩

/-- What a migration does to the port of a contract. -/
structure MigratedPort (k : Keeper X) (addr : AccAddress) (info : ContractInfo) (report : AnalysisReport)
    (port : String) : Prop where
  own : port = info.ibcPortID ∨ port = portIDForContract k addr
  ibc : port ≠ "" ↔ report.hasIBCEntryPoints = true
  kept : info.ibcPortID ≠ "" → port = info.ibcPortID

theorem port_migratedPort (addr : AccAddress) (info : ContractInfo) (report : AnalysisReport) {w w' : World X}
    {port : String} (h : migratedPort k addr info report w = (.ok port, w')) :
    MigratedPort k addr info report port := by
  have keep : (pure info.ibcPortID : M X String) w = (.ok port, w') → port = info.ibcPortID := by
    intro h
    cases (Prod.mk.inj h).1
    rfl
  unfold migratedPort at h
  rcases hi : report.hasIBCEntryPoints with _ | _ <;> rcases he : decide (info.ibcPortID = "") with _ | _ <;>
    simp only [hi, he] at h
  · cases (Prod.mk.inj h).1
  · have hnone : info.ibcPortID = "" := of_decide_eq_true he
    rw [keep h]
    exact ⟨.inl rfl, by simp [hnone, hi], fun _ ↦ rfl⟩
  · have hsome : info.ibcPortID ≠ "" := of_decide_eq_false he
    rw [keep h]
    exact ⟨.inl rfl, by simp [hsome, hi], fun _ ↦ rfl⟩
  · have hnone : info.ibcPortID = "" := of_decide_eq_true he
    rw [ownPort_ensureIbcPort h]
    exact ⟨.inr rfl, by simp [portIDForContract_ne, hi], fun h ↦ absurd hnone h⟩

theorem clean_instantiate (hh : HandlerObeys R h) {policy : AuthorizationPolicy} {creator : AccAddress}
    (hp : R.permits c .instantiate creator policy) {gen : AddressGenerator X} (hgen : Generates k gen)
    (hvalid : k.bech32.valid creator = true) (codeID : UInt64) (admin : AccAddress) (initMsg : Bytes) (label : String)
    (funds : Coins) : (R.clean (before c)).Obeys (instantiate k h c codeID creator admin initMsg label funds gen policy) := by
  refine (Local.require _ _).clean.bind fun _ ↦ ?_
  refine Discipline.Triple.obeys (((Writes.getCodeInfo k codeID).clean_reads (P := fun _ ↦ True)
    fun _ _ _ hr ↦ hr.1).bind fun r ↦ ?_)
  cases r with
  | none => exact .fail _
  | some code =>
    have hcode := CodeStored.stable (X := X) codeID code
    refine Discipline.Triple.conseq (P := On (CodeStored codeID code))
      (Q := fun _ _ ↦ True) ?_ (fun w hw ↦ hw.2.2) fun _ _ _ ↦ trivial
    refine (Local.chargeSetup _ _ _ _).clean_bind hcode fun _ ↦ ?_
    refine (clean_authorize hp _ _).bind fun _ ↦ .of_pure fun hauth ↦ ?_
    refine (clean_newAddress hgen).bind fun (addr, taken) ↦ ?_
    have hst := Instantiable.stable (k := k) codeID code addr
    refine Discipline.Triple.bind (Q := fun _ ↦ On (Instantiable k codeID code addr)) (.require ?_) fun _ ↦ ?_
    · rintro w ⟨hcode, hlen, horigin, htaken⟩ hnot
      change taken = _ at htaken
      rw [htaken, Bool.not_eq_true', Option.isSome_eq_false_iff, Option.isNone_iff_eq_none] at hnot
      exact ⟨hcode, hnot, hlen, horigin⟩
    refine (Local.prepareAccount addr).clean_bind hst fun _ ↦ (Local.deposit _ _ _).clean_bind hst fun _ ↦ ?_
    have he : Site.Enters k R.permits (before c) _ := .instantiate hp addr
    refine (Local.liftPanic _).clean_bind hst fun env ↦ ?_
    refine (clean_callContract .instantiate he (c.push (.call .instantiate addr (some policy))) rfl hst
      Instantiable.live _ _).bind fun res ↦ ?_
    refine (Local.lift _).clean_bind hst fun ok ↦ (Local.liftPanic _).clean_bind hst fun createdAt ↦ ?_
    refine (clean_analyzeCode _ _).bind fun report ↦ ?_
    refine ((Local.instancePort addr report).clean_value (Analyzed.stable hst _ report)
      (port_instancePort addr report)).bind fun port ↦ .of_pure fun ⟨hport, hibc⟩ ↦ ?_
    refine Discipline.Triple.bind (Q := fun _ _ ↦ True)
      ((Writes.persistInstance k c creator addr initMsg _ policy).clean_triple
        (P := fun d ↦ Instantiable k codeID code addr d ∧ Analyzed k d.vm code.codeHash report) ?_
        fun _ _ _ _ _ ↦ trivial)
        fun _ ↦ Discipline.Obeys.triple ?_
    · rintro d _ d' ⟨hd, hreport⟩ ⟨pos, head, hpos, hhead, hnext, rfl⟩
      exact .register hp hd.new hd.code hauth hd.origin hvalid rfl hhead hpos hport hnext ⟨report, hreport, hibc⟩
    refine (Local.emitContractEvent _ _ _).clean.bind fun _ ↦ (Local.deref ok).clean.bind fun response ↦ ?_
    refine (clean_wrapErr ?_ _).bind fun data ↦ .pure _
    exact enter_clean he (clean_handleContractResponse hh (R.ports_own hport) response)

/-- What is known about the store from the authorisation of a migration to its writes. -/
structure Migratable (addr : AccAddress) (info : ContractInfo) (codeID : UInt64) (code : CodeInfo) (d : Durable X) :
    Prop where
  info : d.kv.get (getContractAddressKey addr) = some (.contractInfo info)
  code : d.kv.get (getCodeKey codeID) = some (.codeInfo code)

theorem Migratable.stable (addr : AccAddress) (info : ContractInfo) (codeID : UInt64) (code : CodeInfo) :
    Stable (X := X) (Migratable addr info codeID code) := by
  intro o d d' hq hd
  refine ⟨?_, ?_⟩
  · exact (hq.records _ (not_isStateKey (by simp))).trans hd.info
  · exact (hq.records _ (not_isStateKey (by simp))).trans hd.code

theorem Migratable.live {addr : AccAddress} {info : ContractInfo} {codeID : UInt64} {code : CodeInfo} (d : Durable X)
    (hd : Migratable addr info codeID code d) (a : AccAddress) (ha : some addr = some a) : Live d a := by
  cases ha
  exact .inr (by rw [hd.info]; rfl)

/-- The migrate entry point is called, or skipped. -/
theorem clean_callMigrateIfNeeded {c' : Ctx} (he : Site.Enters k R.permits (before c) (within c')) (c₁ : Ctx)
    (hc : c₁.stack = c'.stack) {addr : AccAddress} (hP : Stable P) (hl : ∀ d, P d → ∀ a, some addr = some a → Live d a) (newChecksum msg : Bytes)
    (newCodeID : UInt64) (sender : AccAddress) (report oldReport : AnalysisReport) :
    (R.clean (before c)).Triple (On P)
      (callMigrateIfNeeded k c₁ addr newChecksum msg newCodeID sender report oldReport) fun _ ↦ On P := by
  unfold callMigrateIfNeeded
  split
  · exact .pure fun _ hw ↦ hw
  · refine (Local.chargeSetup _ _ _ _).clean_bind hP fun _ ↦ (Local.liftPanic _).clean_bind hP fun env ↦ ?_
    refine (clean_callContract .migrate he c₁ hc hP hl _ _).bind fun res ↦ ?_
    exact (Local.lift (o := none) _).clean_triple hP (by simp)

theorem clean_liftPanic (x : Except Panic α) :
    (R.clean (before c)).Triple (On P) (liftPanic x) fun a w ↦ P (durable w) ∧ x = .ok a :=
  ((Writes.liftPanic x).clean_reads fun _ _ _ h ↦ h.2).conseq (fun _ h ↦ h) fun _ _ h ↦ ⟨h.1, h.2.1⟩

/-- The start of all operations on an existing contract: its info and its admin. -/
theorem clean_getInfo (addr : AccAddress) {missing : Err} {f : ContractInfo → AccAddress → M X β}
    (hf : ∀ info admin, adminAddr k info = .ok admin → R.ports addr info.ibcPortID → (R.clean (before c)).Triple
      (On (InfoStored addr info)) (f info admin) fun _ _ ↦ True) :
    (R.clean (before c)).Obeys (do
      match ← getContractInfo k addr with
      | none => Program.fail missing
      | some info => do
        let admin ← liftPanic (adminAddr k info)
        f info admin) := by
  refine Discipline.Triple.obeys (((Writes.getContractInfo k addr).clean_reads (P := fun _ ↦ True)
    fun _ _ _ hr ↦ hr.1).bind fun r ↦ ?_)
  cases r with
  | none => exact .fail _
  | some info =>
    refine Discipline.Triple.conseq (P := On (InfoStored addr info)) (Q := fun _ _ ↦ True) ?_ (fun w hw ↦ hw.2.2)
      fun _ _ _ ↦ trivial
    exact (clean_liftPanic _).bind fun admin ↦ .of_pure fun hadmin ↦ recorded_triple (hf info admin hadmin)

theorem clean_migrate (hh : HandlerObeys R h) {policy : AuthorizationPolicy} {addr caller : AccAddress}
    (hp : R.permits c (.migrate addr) caller policy) (newCodeID : UInt64) (msg : Bytes) :
    (R.clean (before c)).Obeys (migrate k h c addr caller newCodeID msg policy) := by
  refine clean_getInfo addr fun info admin hadmin hrec ↦ ?_
  refine (clean_authorize hp _ _).bind fun _ ↦ .of_pure fun hmodify ↦ ?_
  refine ((Writes.getCodeInfo k newCodeID).clean_reads fun _ _ _ hr ↦ hr.1).bind fun r ↦ ?_
  cases r with
  | none => exact .fail _
  | some code =>
    have hst := Migratable.stable (X := X) addr info newCodeID code
    refine Discipline.Triple.conseq (P := On (Migratable addr info newCodeID code)) (Q := fun _ _ ↦ True) ?_
      (fun w hw ↦ ⟨hw.1, hw.2.2⟩) fun _ _ _ ↦ trivial
    refine (clean_authorize hp _ _).bind fun _ ↦ .of_pure fun hauth ↦ ?_
    refine (clean_analyzeCode _ _).bind fun report ↦ ?_
    have hst := Analyzed.stable (k := k) hst code.codeHash report
    refine ((Local.migratedPort addr info report).clean_value hst (port_migratedPort addr info report)).bind fun port ↦
      .of_pure fun hport ↦ ?_
    refine (Local.getCodeInfo _).clean_bind hst fun oldCode ↦ (Local.deref oldCode).clean_bind hst fun oldCode ↦ ?_
    refine (Local.analyzeCode _ _).clean_bind hst fun oldReport ↦ ?_
    have he : Site.Enters k R.permits (before c) _ := .migrate hp
    refine (clean_callMigrateIfNeeded he (c.push (.call .migrate addr (some policy))) rfl hst
      (fun d hd ↦ Migratable.live d hd.1) _ msg newCodeID caller report oldReport).bind fun response ↦ ?_
    refine Discipline.Triple.bind (Q := fun _ _ ↦ True)
      ((Writes.persistMigration k c addr caller newCodeID msg _ policy).clean_triple
        (P := fun d ↦ Migratable addr info newCodeID code d ∧ Analyzed k d.vm code.codeHash report) ?_
        fun _ _ _ _ _ ↦ trivial)
        fun _ ↦ Discipline.Obeys.triple ?_
    · rintro d _ d' ⟨hd, hreport⟩ ⟨last, lastPos, pos, hlast, hpos, hnext, rfl⟩
      exact .migrate info port hp hd.info hadmin (Except.ok.inj hmodify) hd.code hauth hlast hpos hport.own hnext
        ⟨report, hreport, hport.ibc, hport.kept⟩
    refine (Local.emitEvents _).clean.bind fun _ ↦ ?_
    cases response with
    | none => exact .pure _
    | some response =>
      refine clean_wrapErr ?_ _
      have hport' : R.ports addr port := by
        rcases hport.own with rfl | rfl
        · exact hrec
        · exact R.ports_own (.inr rfl)
      exact enter_clean he (clean_handleContractResponse hh hport' response)

theorem clean_modifyContract {policy : AuthorizationPolicy} {kind : ChangeKind} {addr caller : AccAddress}
    (hp : R.permits c (.modify kind addr) caller policy) {change : ContractInfo → ContractInfo}
    (hc : ∀ info, Modifies kind info (change info)) : (R.clean (before c)).Obeys (modifyContract k c kind addr caller policy change) := by
  refine clean_getInfo addr fun info admin hadmin hrec ↦ ?_
  refine (clean_authorize hp _ _).bind fun _ ↦ .of_pure fun hmodify ↦ ?_
  refine (((Writes.recordChange c kind addr caller policy _).bind fun _ ↦ Writes.setKV k _ _).clean_triple ?_
    fun _ _ _ _ _ ↦ trivial)
  rintro d _ d' hd ⟨_, _, rfl, rfl⟩
  exact .modify hp hd hadmin (Except.ok.inj hmodify) (hc info)

theorem clean_setContractAdmin {policy : AuthorizationPolicy} {addr caller : AccAddress}
    (hp : R.permits c (.modify .admin addr) caller policy) (newAdmin : AccAddress) : (R.clean (before c)).Obeys (setContractAdmin k c addr caller newAdmin policy) :=
  (clean_modifyContract hp fun info ↦ .admin info _).bind fun _ ↦
    (Local.emitContractEvent _ _ _).clean

theorem clean_setContractLabel {policy : AuthorizationPolicy} {addr caller : AccAddress}
    (hp : R.permits c (.modify .label addr) caller policy) (label : String) : (R.clean (before c)).Obeys (setContractLabel k c addr caller label policy) :=
  (clean_modifyContract hp fun info ↦ .label info _).bind fun _ ↦
    (Local.emitContractEvent _ _ _).clean

theorem clean_setContractInfoExtension {addr : AccAddress} (hp : R.permits c (.modify .extension addr) [] .default)
    (ext : Option Bytes) : (R.clean (before c)).Obeys (setContractInfoExtension k c addr ext) := by
  refine Discipline.Triple.obeys (((Writes.getContractInfo k addr).clean_reads (P := fun _ ↦ True)
    fun _ _ _ hr ↦ hr.1).bind fun r ↦ ?_)
  cases r with
  | none => exact .fail _
  | some info =>
    refine Discipline.Triple.conseq (P := On (InfoStored addr info)) (Q := fun _ _ ↦ True) ?_ (fun w hw ↦ hw.2.2)
      fun _ _ _ ↦ trivial
    refine (Local.lift _).clean_bind (InfoStored.stable addr info) fun _ ↦ ?_
    refine (((Writes.recordChange c .extension addr [] .default _).bind fun _ ↦ Writes.setKV k _ _).clean_triple ?_
      fun _ _ _ _ _ ↦ trivial)
    rintro d _ d' hd ⟨_, _, rfl, rfl⟩
    exact .extend ext hp hd

theorem clean_setAccessConfig {policy : AuthorizationPolicy} {caller : AccAddress}
    (hp : R.permits c .setAccess caller policy) (codeID : UInt64) (config : AccessConfig) :
    (R.clean (before c)).Obeys (setAccessConfig k c codeID caller config policy) := by
  refine Discipline.Triple.obeys (((Writes.getCodeInfo k codeID).clean_reads (P := fun _ ↦ True)
    fun _ _ _ hr ↦ hr.1).bind fun r ↦ ?_)
  cases r with
  | none => exact .fail _
  | some info =>
    have hst := CodeStored.stable (X := X) codeID info
    refine Discipline.Triple.conseq (P := On (CodeStored codeID info))
      (Q := fun _ _ ↦ True) ?_ (fun w hw ↦ hw.2.2) fun _ _ _ ↦ trivial
    refine Local.getParams.clean_bind hst fun params ↦ (Local.liftPanic _).clean_bind hst fun creator ↦ ?_
    refine (clean_authorize hp _ _).bind fun _ ↦ .of_pure fun _ ↦ ?_
    refine Discipline.Triple.bind (Q := fun _ _ ↦ True)
      ((Writes.setKV k (getCodeKey codeID) _).clean_triple ?_ fun _ _ _ _ _ ↦ trivial)
        fun _ ↦ (Local.emitEvents _).clean.triple
    rintro d _ d' hd rfl
    exact .setAccess hd

theorem clean_setParams (params : Params) : (R.clean (before c)).Obeys (setParams k params) :=
  fun w ↦ (Writes.setKV k paramsKey _).rel fun _ _ hd ↦ by
    subst hd
    exact .setParams params

theorem clean_pinCode (codeID : UInt64) : (R.clean (before c)).Obeys (pinCode k codeID) := by
  refine Discipline.Triple.obeys (((Writes.getCodeInfo k codeID).clean_reads (P := fun _ ↦ True)
    fun _ _ _ hr ↦ hr.1).bind fun r ↦ ?_)
  cases r with
  | none => exact .fail _
  | some info =>
    have hst := CodeStored.stable (X := X) codeID info
    refine Discipline.Triple.conseq (P := On (CodeStored codeID info))
      (Q := fun _ _ ↦ True) ?_ (fun w hw ↦ hw.2.2) fun _ _ _ ↦ trivial
    refine (Local.read fun _ _ _ _ _ hv ↦ by rw [hv]).clean_bind hst fun stored ↦ ?_
    refine (Local.require _ _).clean_bind hst fun _ ↦ ?_
    refine Discipline.Triple.bind (Q := fun _ ↦ On (CodeStored codeID info))
      (fun w hw ↦ ⟨R.act (.cachePins _), fun a t ht ↦ ?_⟩) fun _ ↦ ?_
    · obtain ⟨-, rfl⟩ := Prod.mk.inj ht
      exact hw
    refine Discipline.Triple.bind (Q := fun _ _ ↦ True)
      ((Writes.setKV k (getPinnedCodeIndexPrefix codeID) _).clean_triple ?_ fun _ _ _ _ _ ↦ trivial)
        fun _ ↦ (Local.emitEvents _).clean.triple
    rintro d _ d' hd rfl
    exact .pin hd

theorem clean_unpinCode (codeID : UInt64) : (R.clean (before c)).Obeys (unpinCode k codeID) := by
  refine (Local.getCodeInfo codeID).clean.bind fun r ↦ ?_
  cases r with
  | none => exact .fail _
  | some info =>
    refine Discipline.Obeys.bind (fun w ↦ R.act (.cachePins _)) fun _ ↦ ?_
    refine Discipline.Obeys.bind (fun w ↦ (Writes.deleteKV k _).rel fun _ _ hd ↦ ?_) fun _ ↦
      (Local.emitEvents _).clean
    subst hd
    exact .unpin codeID

end Regime

end Cosmwasgo.Runs
