import Cosmwasgo.Registry.Export
import Cosmwasgo.Registry.Ledger
import Cosmwasgo.Properties.Codes
import Cosmwasgo.Properties.ContractListings
import Cosmwasgo.Runs.LegacyProposals

namespace Cosmwasgo.Properties

open Cosmwasgo.Lib Cosmwasgo.Types Cosmwasgo.State Cosmwasgo.Keeper Cosmwasgo.Runs Cosmwasgo.Registry

variable {X : Type} {k : Keeper X} {d d' : Durable X} {L : ChainLedger}

def ledgerCode (k : Keeper X) (info : CodeInfo) : ChainLedger.Code :=
  ⟨info.codeHash, info.creator, {a | info.instantiateConfig.allowed k.bech32 a = .ok true}⟩

/-- The empty address is no admin: it is what stands for none. -/
def ledgerContract (k : Keeper X) (r : ContractRecord k.bech32) : ChainLedger.Contract :=
  ⟨r.creator, {a | adminAddr k r.info = .ok a ∧ a ≠ []}, r.history⟩

def ledgerEntry (ch : ContractChange) : ChainLedger.Entry := ⟨ch.kind, ch.contract, ch.caller, ch.policy⟩

/-- The ledger that a state of the module stands for. -/
structure Abstracts (k : Keeper X) (d : Durable X) (L : ChainLedger) : Prop where
  registry : CodeRegistry k L.codes.length d
  codes : ∀ {id info}, d.kv.get (getCodeKey id) = some (.codeInfo info) →
    ∃ i, id.toNat = i + 1 ∧ L.codes[i]? = some (ledgerCode k info)
  contracts : ∃ R : AccAddress → Option (ContractRecord k.bech32), Represents k.bech32 d.kv R ∧
    ∀ a, L.contracts a = (R a).map (ledgerContract k)
  log : L.log = d.store.changes.map ledgerEntry

namespace Abstracts

theorem empty (x : X) : Abstracts k (emptyDurable x) .empty := by
  refine ⟨codeRegistry_empty x, ?_, ⟨fun _ ↦ none, .empty, fun _ ↦ rfl⟩, rfl⟩
  intro id info h
  cases h

section Unique

variable {R R' : AccAddress → Option (ContractRecord k.bech32)}

/-- What a ledger keeps of a contract can be read off the store. -/
theorem map_ledgerContract_eq (hR : Represents k.bech32 d.kv R) (hR' : Represents k.bech32 d.kv R') (a : AccAddress) :
    (R a).map (ledgerContract k) = (R' a).map (ledgerContract k) := by
  have hinfo := (hR.get_info a).symm.trans (hR'.get_info a)
  have hhist : Represents.historyOf R a = Represents.historyOf R' a := by
    have h := congrArg (List.mapM (m := Except Panic) fun e : Bytes × Value ↦ unmarshalHistory e.2)
      ((Represents.historyEntries_scan hR.histories a).symm.trans (Represents.historyEntries_scan hR'.histories a))
    rw [mapM_unmarshalHistory, mapM_unmarshalHistory] at h
    exact Except.ok.inj h
  rcases hr : R a with _ | r
  · rw [hr] at hinfo
    rw [Option.map_eq_none_iff.1 hinfo.symm]
  · rw [hr] at hinfo
    obtain ⟨r', hr', heq⟩ := Option.map_eq_some_iff.1 hinfo.symm
    rw [Represents.historyOf_some hr, Represents.historyOf_some hr'] at hhist
    have hsame : r'.info = r.info := Value.contractInfo.inj heq
    have hcreator : r.creator = r'.creator := by
      have h := r'.creator_eq
      rw [hsame, r.creator_eq] at h
      exact Except.ok.inj h
    rw [hr', Option.map_some, Option.map_some, ledgerContract, ledgerContract, hsame, hhist, hcreator]

theorem length_eq {n n' : Nat} (h : CodeRegistry k n d) (h' : CodeRegistry k n' d) : n = n' := by
  have hseq := congrArg UInt64.toNat (Except.ok.inj (h.sequence.symm.trans h'.sequence))
  rw [UInt64.toNat_ofNat_of_lt' (by simpa [UInt64.size] using h.fits),
    UInt64.toNat_ofNat_of_lt' (by simpa [UInt64.size] using h'.fits)] at hseq
  omega

/-- Every code of the ledger is one of the store. -/
theorem exists_info (h : Abstracts k d L) {i : Nat} (hi : i < L.codes.length) :
    ∃ info, d.kv.get (getCodeKey (UInt64.ofNat (i + 1))) = some (.codeInfo info) ∧
      L.codes[i]? = some (ledgerCode k info) := by
  have hfits := h.registry.fits
  have hsome := (h.registry.ids (getCodeKey (UInt64.ofNat (i + 1))) rfl).2 ⟨i + 1, by omega, by omega, rfl⟩
  obtain ⟨v, hv⟩ := Option.isSome_iff_exists.1 hsome
  obtain ⟨info, rfl, -⟩ := h.registry.infos hv
  obtain ⟨j, hj, hcode⟩ := h.codes hv
  rw [UInt64.toNat_ofNat_of_lt' (by simpa [UInt64.size] using (by omega : i + 1 < 2 ^ 64))] at hj
  obtain rfl : i = j := by omega
  exact ⟨info, hv, hcode⟩

theorem unique {L' : ChainLedger} (h : Abstracts k d L) (h' : Abstracts k d L') : L' = L := by
  obtain ⟨R, hR, hc⟩ := h.contracts
  obtain ⟨R', hR', hc'⟩ := h'.contracts
  have hlen := length_eq h'.registry h.registry
  have hcodes : L'.codes = L.codes := by
    apply List.ext_getElem?
    intro i
    by_cases hi : i < L.codes.length
    · obtain ⟨info, hinfo, hcode⟩ := h.exists_info hi
      obtain ⟨info', hinfo', hcode'⟩ := h'.exists_info (by omega : i < L'.codes.length)
      cases hinfo.symm.trans hinfo'
      rw [hcode, hcode']
    · rw [List.getElem?_eq_none (by omega), List.getElem?_eq_none (by omega)]
  have hcontracts : L'.contracts = L.contracts := by
    funext a
    rw [hc, hc', map_ledgerContract_eq hR' hR]
  have hlog : L'.log = L.log := h'.log.trans h.log.symm
  cases L
  cases L'
  rw [ChainLedger.mk.injEq]
  exact ⟨hcodes, hcontracts, hlog⟩

end Unique

section Steps

/-- Nothing happens to what the ledger is about. -/
theorem congr (h : Abstracts k d L) (hcodes : ∀ key, IsCodeKey key → d'.kv.get key = d.kv.get key)
    (hrecords : ∀ key, IsRegistryKey key → d'.kv.get key = d.kv.get key) (hvm : d'.vm.codes = d.vm.codes)
    (hlog : d'.store.changes = d.store.changes) : Abstracts k d' L := by
  obtain ⟨R, hR, hc⟩ := h.contracts
  refine ⟨(h.registry.congr hcodes hvm).1, ?_, ⟨R, hR.congr hrecords, hc⟩, ?_⟩
  · intro id info hget
    rw [hcodes _ (.inl rfl)] at hget
    exact h.codes hget
  · rw [hlog]
    exact h.log

theorem set_other (h : Abstracts k d L) {j : Bytes} {v : Value} (hj : ∀ key, IsCodeKey key → key ≠ j)
    (hj' : ¬ IsRegistryKey j) : Abstracts k (d.withKV (d.kv.set j v)) L :=
  h.congr (fun key hkey ↦ OrderedStore.get_set_of_ne _ _ (hj key hkey))
    (fun _ hkey ↦ OrderedStore.get_set_of_ne _ _ (hkey.ne hj')) rfl rfl

theorem delete_other (h : Abstracts k d L) {j : Bytes} (hkv : d'.kv = d.kv.delete j) (hvm : d'.vm = d.vm)
    (hlog : d'.store.changes = d.store.changes) (hj : j.head? ∉ [some 1, some 4]) (hj' : ¬ IsRegistryKey j) :
    Abstracts k d' L := by
  refine h.congr (fun key hkey ↦ ?_) (fun key hkey ↦ ?_) (by rw [hvm]) hlog
  · rw [hkv]
    exact OrderedStore.get_delete_of_ne _ (hkey.ne_of_head hj)
  · rw [hkv]
    exact OrderedStore.get_delete_of_ne _ (hkey.ne hj')

/-- The record of one contract is written, and the change is recorded. -/
theorem put (h : Abstracts k d L) {R : AccAddress → Option (ContractRecord k.bech32)} {ch : ContractChange}
    {kv' : KVStore} {r : ContractRecord k.bech32} (hc : ∀ a, L.contracts a = (R a).map (ledgerContract k))
    (hR : Represents k.bech32 kv' (Function.update R ch.contract (some r)))
    (hcodes : ∀ key, IsCodeKey key → kv'.get key = d.kv.get key) :
    Abstracts k ((d.recording ch).withKV kv') (L.put (ledgerEntry ch) (ledgerContract k r)) := by
  have hkv : ∀ key, IsCodeKey key → ((d.recording ch).withKV kv').kv.get key = d.kv.get key := hcodes
  refine ⟨(h.registry.congr hkv rfl).1, ?_, ⟨_, hR, ?_⟩, ?_⟩
  · intro id info hget
    exact h.codes ((hcodes _ (.inl rfl)).symm.trans hget)
  · intro a
    by_cases ha : a = ch.contract
    · rw [ha, Function.update_self]
      exact L.contracts_put_self (ledgerEntry ch) _
    · rw [Function.update_of_ne ha, ← hc]
      exact L.contracts_put_of_ne _ ha
  · change L.log ++ _ = List.map _ (d.store.changes ++ [ch])
    rw [List.map_append, h.log]
    rfl

theorem exempt_of_canInstantiate {b : Bech32} {p : AuthorizationPolicy} {config : AccessConfig} {actor : AccAddress}
    (h : p.canInstantiateContract b config actor = .ok true) :
    ChainLedger.Exempt .instantiate p ∨ config.allowed b actor = .ok true := by
  cases p with
  | default => exact .inr h
  | gov propagate => exact .inl trivial
  | partialGov action =>
    cases action with
    | instantiate => exact .inl rfl
    | migrateContract => exact .inr h

theorem exempt_of_canModify {p : AuthorizationPolicy} {admin actor : AccAddress}
    (h : p.canModifyContract admin actor = true) :
    ChainLedger.Exempt .migrateContract p ∨ admin = actor ∧ actor ≠ [] := by
  have hown : (admin != [] && admin == actor) = true → admin = actor ∧ actor ≠ [] := by
    intro hadmin
    rw [Bool.and_eq_true, bne_iff_ne, beq_iff_eq] at hadmin
    obtain ⟨hne, rfl⟩ := hadmin
    exact ⟨rfl, hne⟩
  cases p with
  | default => exact .inr (hown h)
  | gov propagate => exact .inl trivial
  | partialGov action =>
    cases action with
    | instantiate => exact .inr (hown h)
    | migrateContract => exact .inl rfl

theorem controls {r : ContractRecord k.bech32} {p : AuthorizationPolicy} {admin actor : AccAddress}
    (hadmin : adminAddr k r.info = .ok admin) (h : p.canModifyContract admin actor = true) :
    ChainLedger.Exempt .migrateContract p ∨ actor ∈ (ledgerContract k r).controllers := by
  rcases exempt_of_canModify h with hexempt | ⟨rfl, hne⟩
  · exact .inl hexempt
  · exact .inr ⟨hadmin, hne⟩

/-- An upload takes the next number. -/
theorem create (h : Abstracts k d L) {id : UInt64} {info : CodeInfo}
    (hid : parseSequence (d.kv.get keySequenceCodeID) = .ok id) (hlt : id.toNat + 1 < 2 ^ 64)
    (hcode : (d.vm.codes.get info.codeHash).isSome) :
    Abstracts k (d.withKV ((d.kv.set keySequenceCodeID (.bytes (uint64ToBigEndian (id + 1)))).set (getCodeKey id)
      (.codeInfo info))) { L with codes := L.codes ++ [ledgerCode k info] } := by
  have hn : id.toNat = L.codes.length + 1 := by
    have heq := congrArg UInt64.toNat (Except.ok.inj (h.registry.sequence.symm.trans hid))
    rw [UInt64.toNat_ofNat_of_lt' (by simpa [UInt64.size] using h.registry.fits)] at heq
    exact heq.symm
  obtain ⟨R, hR, hc⟩ := h.contracts
  refine ⟨?_, ?_, ⟨R, hR.congr ?_, hc⟩, h.log⟩
  · rw [List.length_append]
    exact (h.registry.create hid hlt hcode).1
  · intro id' info' hget
    rw [Durable.kv_withKV, OrderedStore.get_set] at hget
    split at hget
    · rename_i heq
      cases hget
      obtain rfl := getCodeKey_inj heq
      exact ⟨L.codes.length, hn, List.getElem?_concat_length⟩
    · rw [get_set_of_head _ (by simp)] at hget
      obtain ⟨i, hi, hmem⟩ := h.codes hget
      exact ⟨i, hi, by rw [List.getElem?_append_left (ChainLedger.lt_of_getElem? hmem), hmem]⟩
  · intro key hkey
    rw [Durable.kv_withKV, OrderedStore.get_set_of_ne _ _ (hkey.ne (by simp [IsRegistryKey])),
      OrderedStore.get_set_of_ne _ _ (hkey.ne (by simp [IsRegistryKey]))]

theorem setAccess (h : Abstracts k d L) {id : UInt64} {info : CodeInfo} {i : Nat}
    (hinfo : d.kv.get (getCodeKey id) = some (.codeInfo info)) (config : AccessConfig) (hi : id.toNat = i + 1)
    (hcode : L.codes[i]? = some (ledgerCode k info)) :
    Abstracts k (d.withKV (d.kv.set (getCodeKey id) (.codeInfo { info with instantiateConfig := config })))
      { L with codes := L.codes.set i (ledgerCode k { info with instantiateConfig := config }) } := by
  obtain ⟨R, hR, hc⟩ := h.contracts
  refine ⟨?_, ?_, ⟨R, hR.congr ?_, hc⟩, h.log⟩
  · rw [List.length_set]
    exact (h.registry.setAccess hinfo config).1
  · intro id' info' hget
    rw [Durable.kv_withKV, OrderedStore.get_set] at hget
    split at hget
    · rename_i heq
      cases hget
      obtain rfl := getCodeKey_inj heq
      exact ⟨i, hi, List.getElem?_set_self (ChainLedger.lt_of_getElem? hcode)⟩
    · rename_i hne
      obtain ⟨j, hj, hmem⟩ := h.codes hget
      have hij : i ≠ j := by
        rintro rfl
        exact hne (congrArg getCodeKey (UInt64.toNat_inj.1 (hj.trans hi.symm)))
      exact ⟨j, hj, by rw [List.getElem?_set_ne hij, hmem]⟩
  · intro key hkey
    exact OrderedStore.get_set_of_ne _ _ (hkey.ne (by simp [IsRegistryKey]))

theorem registered_codeKey {kv : KVStore} {addr creator : AccAddress} {head initMsg key : Bytes}
    {pos : AbsoluteTxPosition} {info : ContractInfo} (hhead : getContractsByCreatorPrefix creator = some head)
    (hkey : IsCodeKey key) : (registered kv addr head pos info initMsg).get key = kv.get key := by
  apply get_registered_of_head hhead
  rcases hkey with hkey | rfl <;> simp [*]

theorem migrated_codeKey {kv : KVStore} {addr : AccAddress} {msg key : Bytes} {lastID : UInt64}
    {pos lastPos : AbsoluteTxPosition} {info : ContractInfo} (hkey : IsCodeKey key) :
    (migrated kv addr lastID lastPos info pos msg).get key = kv.get key := by
  apply get_migrated_of_head
  rcases hkey with hkey | rfl <;> simp [*]

theorem info_codeKey {kv : KVStore} {addr : AccAddress} {info : ContractInfo} {key : Bytes} (hkey : IsCodeKey key) :
    (kv.set (getContractAddressKey addr) (.contractInfo info)).get key = kv.get key :=
  OrderedStore.get_set_of_ne _ _ (hkey.ne_of_head (by simp))

theorem contracts_eq {R : AccAddress → Option (ContractRecord k.bech32)} {a : AccAddress}
    {r : ContractRecord k.bech32} (hc : ∀ a, L.contracts a = (R a).map (ledgerContract k)) (hr : R a = some r) :
    L.contracts a = some (ledgerContract k r) := by
  rw [hc, hr]
  rfl

/-- Each thing the keeper does to its records is a step of the ledger, or none of its business. -/
theorem act {permits : Ctx → Operation → AccAddress → AuthorizationPolicy → Prop} {c : Ctx} (h : Abstracts k d L)
    (hact : Act k permits c d d') : ∃ L', ChainLedger.Run L L' ∧ Abstracts k d' L' := by
  have stutter : ∀ {e}, Abstracts k e L → ∃ L', ChainLedger.Run L L' ∧ Abstracts k e L' := fun he ↦ ⟨L, .refl, he⟩
  obtain ⟨R, hR, hc⟩ := h.contracts
  cases hact with
  | cacheCode hcheck =>
    exact stutter ⟨(h.registry.cache hcheck).1, h.codes, h.contracts, h.log⟩
  | cachePins _ => exact stutter (h.congr (fun _ _ ↦ rfl) (fun _ _ ↦ rfl) rfl rfl)
  | createCode hid hlt hcode => exact ⟨_, .single (.publish _), h.create hid hlt hcode⟩
  | nextInstance _ _ =>
    refine stutter (h.set_other ?_ (by simp [IsRegistryKey]))
    rintro key (hkey | hkey) rfl
    · simp at hkey
    · exact absurd hkey (by decide)
  | register hp hnew hcode hauth horigin hvalid hcreator hhead hpos hport hnext =>
    have hr := hR.get_info_eq_none.1 hnew
    have hdec := k.bech32.fromBech32_string hvalid
    rw [← hcreator] at hdec
    obtain ⟨i, hi, hmem⟩ := h.codes hcode
    refine ⟨_, .single ?_, h.put hc (hR.register hr hpos hdec hhead) fun key hkey ↦ registered_codeKey hhead hkey⟩
    refine .deploy _ ?_ hmem rfl hi (exempt_of_canInstantiate hauth)
    rw [hc]
    exact Option.map_eq_none_iff.2 hr
  | @migrate info port caller addr pos lastPos msg policy code last admin codeID hp hinfo hadmin hmodify hcode hauth
      hlast hpos hport hnext =>
    obtain ⟨r, hr, rfl⟩ := hR.get_info_eq_some.1 hinfo
    obtain rfl : r.last = last := by
      have h := Represents.lastHistory_some hR.histories hr
      rw [lastHistory, h] at hlast
      cases hlast
      rfl
    obtain rfl : r.updated = lastPos := Option.some.inj (r.updated_eq.symm.trans hpos)
    have hfit : r.history.length + 1 < 2 ^ 64 := by
      have hlen := r.fits
      rw [Represents.lastPosition_scan hR.histories, Represents.historyOf_some hr,
        UInt64.toNat_ofNat_of_lt' (by simpa [UInt64.size] using hlen)] at hnext
      exact hnext
    obtain ⟨i, hi, hmem⟩ := h.codes hcode
    refine ⟨_, .single ?_, h.put hc (hR.migrate hr codeID port pos msg hfit) fun key hkey ↦ migrated_codeKey hkey⟩
    exact .upgrade (contracts_eq hc hr) hmem rfl hi (controls hadmin hmodify) (exempt_of_canInstantiate hauth)
  | modify hp hinfo hadmin hmodify hkind =>
    obtain ⟨r, hr, rfl⟩ := hR.get_info_eq_some.1 hinfo
    have hcontrol := controls hadmin hmodify
    have ht := contracts_eq hc hr
    cases hkind with
    | admin info admin =>
      refine ⟨_, .single ?_, h.put hc (hR.setInfo hr { r.info with admin } rfl) fun key hkey ↦ info_codeKey hkey⟩
      exact .handOver ht _ hcontrol
    | label info label =>
      refine ⟨_, .single ?_, h.put hc (hR.setInfo hr { r.info with label } rfl) fun key hkey ↦ info_codeKey hkey⟩
      exact .label ht hcontrol
  | extend ext hp hinfo =>
    obtain ⟨r, hr, rfl⟩ := hR.get_info_eq_some.1 hinfo
    have ht := contracts_eq hc hr
    refine ⟨_, .single ?_, h.put hc (hR.setInfo hr { r.info with extension := ext } rfl) fun key hkey ↦
      info_codeKey hkey⟩
    exact .extend ht
  | setAccess hinfo =>
    obtain ⟨i, hi, hmem⟩ := h.codes hinfo
    exact ⟨_, .single (.restrict hmem _), h.setAccess hinfo _ hi hmem⟩
  | unpin _ => exact stutter (h.delete_other rfl rfl rfl (by simp) (by simp [IsRegistryKey]))
  | acknowledge _ => exact stutter (h.delete_other rfl rfl rfl (by simp) (by simp [IsRegistryKey]))
  | _ => exact stutter (h.set_other (fun _ hkey ↦ hkey.ne_of_head (by simp)) (by simp [IsRegistryKey]))

theorem step {c : Ctx} (h : Abstracts k d L) (hstep : Step k Anybody c d d') :
    ∃ L', ChainLedger.Run L L' ∧ Abstracts k d' L' := by
  cases hstep with
  | act _ hact => exact h.act hact
  | quiet _ hq =>
    refine ⟨L, .refl, h.congr (fun key hkey ↦ hq.records key hkey.not_state)
      (fun key hkey ↦ hq.records key hkey.not_state) (by rw [hq.vm]) hq.changes⟩

theorem run (h : Abstracts k d L) (hrun : ChainRun k d d') : ∃ L', ChainLedger.Run L L' ∧ Abstracts k d' L' := by
  refine hrun.invariant (P := fun d₁ ↦ ∃ L', ChainLedger.Run L L' ∧ Abstracts k d₁ L') ⟨L, .refl, h⟩ ?_
  intro c d₁ d₂ hstep ⟨L₁, hL₁, h₁⟩
  obtain ⟨L₂, hL₂, h₂⟩ := h₁.step hstep
  exact ⟨L₂, hL₁.trans hL₂, h₂⟩

end Steps

theorem historyAt_eq {R : AccAddress → Option (ContractRecord k.bech32)}
    (hc : ∀ a, L.contracts a = (R a).map (ledgerContract k)) (a : AccAddress) :
    L.historyAt a = Represents.historyOf R a := by
  rw [ChainLedger.historyAt, hc, Option.map_map, Represents.historyOf]
  rfl

end Abstracts

/-- Carol's first contract is migrated to the code it runs already. -/
def carolMigrated : Durable Unit :=
  delivered listnet (carolCreates 1)
    [.migrateContract {
      sender := carol, contract := plainBech32.string (carolsContract 1), codeID := 1, msg := stringToBytes "\x7b\x7d" }]

theorem KeeperRun.chainRun {d d' : Durable X} (h : KeeperRun k d d') : ChainRun k d d' := by
  induction h with
  | start => exact .start
  | op _ hop ih => exact ih.op hop
  | outside _ x ih => exact ih.outside x

theorem chainRun_carolCreates (n : Nat) : ChainRun listnet (emptyDurable ()) (carolCreates n) := by
  induction n with
  | zero =>
    have hopen : KeeperRun listnet (emptyDurable ()) (durable openWorld) :=
      .op (w := emptyWorld) .start (.setParams (n := 0) (c := genesisCtx) ⟨allowEverybody, .everybody⟩)
    exact (hopen.delivered _).chainRun
  | succ n ih => exact ih.trans (run_carolCreates n).chainRun

theorem run_carolMigrates : ChainRun listnet (carolCreates 1) carolMigrated := (KeeperRun.start.delivered _).chainRun

/-- The record of the changes only grows. -/
theorem changes_extend {c : Ctx} (h : Step k Anybody c d d') : d.store.changes <+: d'.store.changes := by
  cases h with
  | quiet _ hq =>
    rw [hq.changes]
  | act _ hact =>
    cases hact with
    | register => exact List.prefix_append _ _
    | migrate => exact List.prefix_append _ _
    | modify => exact List.prefix_append _ _
    | extend => exact List.prefix_append _ _
    | _ => exact List.prefix_refl _

theorem changes_extend_run (h : ChainRun k d d') : d.store.changes <+: d'.store.changes := by
  refine h.invariant (P := fun d₁ ↦ d.store.changes <+: d₁.store.changes) (List.prefix_refl _) ?_
  intro c d₁ d₂ hstep hpre
  exact hpre.trans (changes_extend hstep)

/-- Histories are never rewritten: what `getContractHistory` has returned for an address stays the beginning of what
it returns, it goes on with one entry for each instantiation and migration of the contract in between and no other, and
the codes of all its entries can be looked up. -/
theorem contractHistory_explained {x : X} (hd : ChainRun k (emptyDurable x) d) (run : ChainRun k d d')
    (a : AccAddress) :
    ∃ new es es', d'.store.changes = d.store.changes ++ new ∧ Unmetered (getContractHistory k a) d es d ∧
      Unmetered (getContractHistory k a) d' (es ++ es') d' ∧
      es'.map (·.operation) = ChainLedger.deployments (new.map ledgerEntry) a ∧
      ∀ e ∈ es ++ es', ∃ info, Unmetered (getCodeInfo k e.codeID) d' (some info) d' := by
  obtain ⟨L, hL, h⟩ := (Abstracts.empty x).run hd
  obtain ⟨L', hL', h'⟩ := h.run run
  obtain ⟨R, hR, hc⟩ := h.contracts
  obtain ⟨R', hR', hc'⟩ := h'.contracts
  have hwell := ChainLedger.wellFormed_empty.run hL
  obtain ⟨added, es', hlog, hhist, hops⟩ := ChainLedger.history_of_run hwell hL' a
  obtain ⟨new, hnew⟩ := changes_extend_run run
  obtain rfl : added = new.map ledgerEntry := by
    rw [h'.log, h.log, ← hnew, List.map_append] at hlog
    exact (List.append_cancel_left hlog).symm
  refine ⟨new, L.historyAt a, es', hnew.symm, ?_, ?_, hops, ?_⟩
  · rw [Abstracts.historyAt_eq hc]
    exact unmetered_getContractHistory hR a
  · rw [← hhist, Abstracts.historyAt_eq hc']
    exact unmetered_getContractHistory hR' a
  · intro e he
    rw [← hhist] at he
    obtain ⟨hpos, hle⟩ := (hwell.run hL').known he
    obtain ⟨info, hinfo, -⟩ := h'.exists_info (by omega : e.codeID.toNat - 1 < L'.codes.length)
    rw [Nat.sub_add_cancel hpos, UInt64.ofNat_toNat] at hinfo
    exact ⟨info, .getCodeInfo hinfo⟩

theorem contractHistory_explained_carol :
    carolMigrated.store.changes.map (·.kind) = [.instantiate, .migrate] ∧
    ∃ new es es', carolMigrated.store.changes = (carolCreates 1).store.changes ++ new ∧
      Unmetered (getContractHistory listnet (carolsContract 1)) (carolCreates 1) es (carolCreates 1) ∧
      Unmetered (getContractHistory listnet (carolsContract 1)) carolMigrated (es ++ es') carolMigrated ∧
      es'.map (·.operation) = ChainLedger.deployments (new.map ledgerEntry) (carolsContract 1) ∧
      ∀ e ∈ es ++ es', ∃ info, Unmetered (getCodeInfo listnet e.codeID) carolMigrated (some info) carolMigrated :=
  ⟨by decide +kernel, contractHistory_explained (chainRun_carolCreates 1) run_carolMigrates _⟩

end Cosmwasgo.Properties
