import Cosmwasgo.Registry.Import
import Cosmwasgo.Runs.Unmetered

namespace Cosmwasgo.Registry

open Cosmwasgo.Lib Cosmwasgo.Types Cosmwasgo.State Cosmwasgo.Keeper Cosmwasgo.Runs

variable {X β γ : Type} {k : Keeper X} {d : Durable X}

/-- The address of an exported contract. -/
def contractOf (k : Keeper X) (c : Contract) : AccAddress :=
  match k.bech32.fromBech32 c.contractAddress with
  | .ok a => a
  | .error _ => []

theorem contractOf_eq {c : Contract} {a : AccAddress} (h : k.bech32.fromBech32 c.contractAddress = .ok a) :
    contractOf k c = a := by
  rw [contractOf, h]

/-! The entries of the store that the parts of a genesis file come from. -/

def codeEntry (c : Code) : Bytes × Value := (uint64ToBigEndian c.codeID, .codeInfo c.codeInfo)

def modelEntry (m : Model) : Bytes × Value := (m.key, .bytes m.value)

def contractEntry (k : Keeper X) (c : Contract) : Bytes × Value := (contractOf k c, .contractInfo c.contractInfo)

/-- What an export lists: the entries of each family, one by one and in their order. -/
structure Exported (k : Keeper X) (d : Durable X) (R : AccAddress → Option (ContractRecord k.bech32))
    (g : GenesisState) : Prop where
  params : d.kv.get paramsKey = some (.params g.params)
  codes : g.codes.map codeEntry = d.kv.scan codeKeyPrefix
  bytes : ∀ c ∈ g.codes, d.vm.codes.get c.codeInfo.codeHash = some c.codeBytes
  pins : ∀ c ∈ g.codes, c.pinned = (d.kv.get (getPinnedCodeIndexPrefix c.codeID)).isSome
  contracts : g.contracts.map (contractEntry k) = d.kv.scan contractKeyPrefix
  addresses : ∀ c ∈ g.contracts, k.bech32.fromBech32 c.contractAddress = .ok (contractOf k c)
  state : ∀ c ∈ g.contracts, c.contractState.map modelEntry = d.kv.scan (getContractStorePrefix (contractOf k c))
  histories : ∀ c ∈ g.contracts, c.contractCodeHistory = Represents.historyOf R (contractOf k c)
  sequences : ∃ n m, parseSequence (d.kv.get keySequenceCodeID) = .ok n ∧
    parseSequence (d.kv.get keySequenceInstanceID) = .ok m ∧
    g.sequences = [⟨keySequenceCodeID, n⟩, ⟨keySequenceInstanceID, m⟩]

/-- An iterator whose callback adds one element for each entry. -/
theorem unmetered_collect {decode : Bytes × Value → Except Panic β} {cb : List γ → β → M X (List γ × Bool)}
    {entry : γ → Bytes × Value} {P : γ → Prop} {es : List (Bytes × Value)}
    (hes : ∀ e ∈ es, ∃ b c, decode e = .ok b ∧ entry c = e ∧ P c ∧ ∀ s, Unmetered (cb s b) d (s ++ [c], false) d)
    (s : List γ) :
    ∃ l, l.map entry = es ∧ (∀ c ∈ l, P c) ∧ Unmetered (visitEntries decode cb s es) d (s ++ l) d := by
  induction es generalizing s with
  | nil => exact ⟨[], rfl, nofun, by rw [List.append_nil]; exact .pure s d⟩
  | cons e es ih =>
    obtain ⟨b, c, hdecode, he, hc, hcb⟩ := hes e List.mem_cons_self
    obtain ⟨l, hl, hall, hrest⟩ := ih (fun e he ↦ hes e (List.mem_cons_of_mem _ he)) (s ++ [c])
    refine ⟨c :: l, by rw [List.map_cons, he, hl], List.forall_mem_cons.2 ⟨hc, hall⟩, ?_⟩
    rw [List.append_cons]
    exact .visitEntries_cons hdecode (hcb s) hrest

theorem decodeCodeInfo_codeEntry (c : Code) : decodeCodeInfo (codeEntry c) = .ok (c.codeID, c.codeInfo) := by
  simp only [decodeCodeInfo, codeEntry, length_uint64ToBigEndian]
  rw [if_neg (by decide), bigEndianToUint64_uint64ToBigEndian]

theorem unmetered_mustSucceed {α : Type} {m : M X α} {a : α} {d' : Durable X} (h : Unmetered m d a d') :
    Unmetered (mustSucceed m) d a d' := h.attempt (.pure a d')

theorem unmetered_exportCode {c : Code} (hinfo : d.kv.get (getCodeKey c.codeID) = some (.codeInfo c.codeInfo))
    (hcode : d.vm.codes.get c.codeInfo.codeHash = some c.codeBytes)
    (hpin : c.pinned = (d.kv.get (getPinnedCodeIndexPrefix c.codeID)).isSome) (s : List Code) :
    Unmetered (exportCode k s (c.codeID, c.codeInfo)) d (s ++ [c], false) d := by
  have hmark : Unmetered (isPinnedCode k c.codeID) d c.pinned d := by
    rw [hpin]
    exact .hasKV (by simp [getPinnedCodeIndexPrefix, pinnedCodeIndexPrefix]) d
  exact (unmetered_mustSucceed (.getByteCode hinfo hcode)).bind (hmark.bind (.pure _ d))

/-- The codes of a store that the VM has the bytes of. -/
theorem unmetered_exportCodes (hcodes : ∀ x v, d.kv.get (codeKeyPrefix ++ x) = some v → ∃ id info code,
      x = uint64ToBigEndian id ∧ v = .codeInfo info ∧ d.vm.codes.get info.codeHash = some code) :
    ∃ codes, Unmetered (iterateCodeInfos k (exportCode k) []) d codes d ∧
      codes.map codeEntry = d.kv.scan codeKeyPrefix ∧ ∀ c ∈ codes, d.vm.codes.get c.codeInfo.codeHash = some c.codeBytes ∧
        c.pinned = (d.kv.get (getPinnedCodeIndexPrefix c.codeID)).isSome := by
  have hlist : ∃ codes : List Code, codes.map codeEntry = d.kv.scan codeKeyPrefix ∧
      (∀ c ∈ codes, d.vm.codes.get c.codeInfo.codeHash = some c.codeBytes ∧
        c.pinned = (d.kv.get (getPinnedCodeIndexPrefix c.codeID)).isSome) ∧
      Unmetered (visitEntries decodeCodeInfo (exportCode k) [] (d.kv.scan codeKeyPrefix)) d ([] ++ codes) d := by
    refine unmetered_collect ?_ []
    rintro ⟨x, v⟩ he
    have hget := OrderedStore.mem_scan.1 he
    obtain ⟨id, info, code, rfl, rfl, hcode⟩ := hcodes x v hget
    let c : Code := ⟨id, info, code, (d.kv.get (getPinnedCodeIndexPrefix id)).isSome⟩
    exact ⟨_, c, decodeCodeInfo_codeEntry c, rfl, ⟨hcode, rfl⟩, unmetered_exportCode hget hcode rfl⟩
  obtain ⟨codes, hentries, hall, hrun⟩ := hlist
  exact ⟨codes, (Unmetered.iterateKV codeKeyPrefix d).bind hrun, hentries, hall⟩

/-- The callback that collects the state of a contract. -/
def addModel (s : List Model) (m : Bytes × Bytes) : M X (List Model × Bool) := pure (s ++ [⟨m.1, m.2⟩], false)

theorem unmetered_iterateContractState {a : AccAddress}
    (hstate : ∀ x v, d.kv.get (getContractStorePrefix a ++ x) = some v → ∃ b, v = .bytes b) :
    ∃ models : List Model, Unmetered (iterateContractState k a addModel []) d models d ∧
      models.map modelEntry = d.kv.scan (getContractStorePrefix a) := by
  have hlist : ∃ models : List Model, models.map modelEntry = d.kv.scan (getContractStorePrefix a) ∧
      (∀ m ∈ models, True) ∧ Unmetered (visitEntries decodeModel (addModel (X := X)) []
        (d.kv.scan (getContractStorePrefix a))) d ([] ++ models) d := by
    refine unmetered_collect ?_ []
    rintro ⟨x, v⟩ he
    obtain ⟨b, rfl⟩ := hstate x v (OrderedStore.mem_scan.1 he)
    exact ⟨(x, b), ⟨x, b⟩, rfl, rfl, trivial, fun s ↦ .pure _ d⟩
  obtain ⟨models, hentries, -, hrun⟩ := hlist
  exact ⟨models, (Unmetered.iterateKV _ d).bind hrun, hentries⟩

variable {R : AccAddress → Option (ContractRecord k.bech32)}

theorem unmetered_getContractHistory (hR : Represents k.bech32 d.kv R) (a : AccAddress) :
    Unmetered (getContractHistory k a) d (Represents.historyOf R a) d := by
  refine (Unmetered.iterateKV _ d).bind (.liftPanic ?_ d)
  rw [Represents.historyEntries_scan hR.histories, mapM_unmarshalHistory]

/-- The contracts of a registry whose addresses can be read back. -/
theorem unmetered_exportContracts (hR : Represents k.bech32 d.kv R) (hvalid : ∀ a r, R a = some r → k.bech32.valid a = true)
    (hstate : ∀ a x v, d.kv.get (getContractStorePrefix a ++ x) = some v → ∃ b, v = .bytes b) :
    ∃ contracts, Unmetered (iterateContractInfo k (exportContract k) []) d contracts d ∧
      contracts.map (contractEntry k) = d.kv.scan contractKeyPrefix ∧
      ∀ c ∈ contracts, k.bech32.fromBech32 c.contractAddress = .ok (contractOf k c) ∧
        c.contractState.map modelEntry = d.kv.scan (getContractStorePrefix (contractOf k c)) ∧
        c.contractCodeHistory = Represents.historyOf R (contractOf k c) := by
  have hlist : ∃ contracts : List Contract, contracts.map (contractEntry k) = d.kv.scan contractKeyPrefix ∧
      (∀ c ∈ contracts, k.bech32.fromBech32 c.contractAddress = .ok (contractOf k c) ∧
        c.contractState.map modelEntry = d.kv.scan (getContractStorePrefix (contractOf k c)) ∧
        c.contractCodeHistory = Represents.historyOf R (contractOf k c)) ∧
      Unmetered (visitEntries decodeContractInfo (exportContract k) [] (d.kv.scan contractKeyPrefix)) d ([] ++ contracts)
        d := by
    refine unmetered_collect ?_ []
    rintro ⟨a, v⟩ he
    obtain ⟨_, r, hr, rfl, rfl⟩ := hR.infos.mem_scan.1 he
    obtain ⟨models, hmodels, hentries⟩ := unmetered_iterateContractState (k := k) (hstate a)
    let c : Contract := ⟨k.bech32.string a, r.info, models, Represents.historyOf R a⟩
    have haddr : k.bech32.fromBech32 c.contractAddress = .ok a := k.bech32.fromBech32_string (hvalid a r hr)
    have hof : contractOf k c = a := contractOf_eq haddr
    refine ⟨(a, r.info), c, rfl, by rw [contractEntry, hof], by rw [hof]; exact ⟨haddr, hentries, rfl⟩, fun s ↦ ?_⟩
    exact hmodels.bind ((unmetered_getContractHistory hR a).bind (.pure _ d))
  obtain ⟨contracts, hentries, hall, hrun⟩ := hlist
  exact ⟨contracts, (Unmetered.iterateKV contractKeyPrefix d).bind hrun, hentries, hall⟩

theorem unmetered_exportSequence {key : Bytes} (hkey : key ≠ []) {n : UInt64} (h : parseSequence (d.kv.get key) = .ok n) :
    Unmetered (exportSequence k key) d ⟨key, n⟩ d :=
  (unmetered_mustSucceed (.peekAutoIncrementID hkey h)).bind (.pure _ d)

/-- The state that an export is made from. -/
structure Exportable (k : Keeper X) (d : Durable X) (R : AccAddress → Option (ContractRecord k.bech32)) : Prop where
  represents : Represents k.bech32 d.kv R
  valid : ∀ a r, R a = some r → k.bech32.valid a = true
  codes : ∀ x v, d.kv.get (codeKeyPrefix ++ x) = some v → ∃ id info code, x = uint64ToBigEndian id ∧
    v = .codeInfo info ∧ d.vm.codes.get info.codeHash = some code
  state : ∀ a x v, d.kv.get (getContractStorePrefix a ++ x) = some v → ∃ b, v = .bytes b
  codeSequence : ∃ n, parseSequence (d.kv.get keySequenceCodeID) = .ok n
  instanceSequence : ∃ n, parseSequence (d.kv.get keySequenceInstanceID) = .ok n

theorem unmetered_exportGenesis (hd : Exportable k d R) {p : Params} (hp : d.kv.get paramsKey = some (.params p)) :
    ∃ g, Unmetered (exportGenesis k) d g d ∧ Exported k d R g := by
  obtain ⟨codes, hcodes, hcodeEntries, hcodeFields⟩ := unmetered_exportCodes (k := k) hd.codes
  obtain ⟨contracts, hcontracts, hentries, hfields⟩ := unmetered_exportContracts hd.represents hd.valid hd.state
  obtain ⟨n, hn⟩ := hd.codeSequence
  obtain ⟨m, hm⟩ := hd.instanceSequence
  refine ⟨⟨p, codes, contracts, [⟨keySequenceCodeID, n⟩, ⟨keySequenceInstanceID, m⟩]⟩,
    (Unmetered.getParams hp).bind (hcodes.bind (hcontracts.bind ?_)), ?_⟩
  · exact (unmetered_exportSequence (by decide) hn).bind ((unmetered_exportSequence (by decide) hm).bind (.pure _ d))
  · exact ⟨hp, hcodeEntries, fun c hc ↦ (hcodeFields c hc).1, fun c hc ↦ (hcodeFields c hc).2, hentries,
      fun c hc ↦ (hfields c hc).1, fun c hc ↦ (hfields c hc).2.1, fun c hc ↦ (hfields c hc).2.2, n, m, hn, hm, rfl⟩

section Listed

variable {g : GenesisState} (hg : Exported k d R g)
include hg

theorem Exported.get_code {x : Bytes} {v : Value} : d.kv.get (codeKeyPrefix ++ x) = some v ↔
    ∃ c ∈ g.codes, x = uint64ToBigEndian c.codeID ∧ v = .codeInfo c.codeInfo := by
  rw [← OrderedStore.mem_scan, ← hg.codes, List.mem_map]
  refine exists_congr fun c ↦ and_congr_right fun _ ↦ ?_
  rw [codeEntry, Prod.mk.injEq]
  exact and_congr eq_comm eq_comm

theorem Exported.nodup_codes : (g.codes.map (·.codeID)).Nodup := by
  have hkeys := OrderedStore.nodup_keys_of_sorted (OrderedStore.scan_sorted d.kv codeKeyPrefix)
  rw [← hg.codes, List.map_map] at hkeys
  refine List.Nodup.of_map uint64ToBigEndian ?_
  rw [List.map_map]
  exact hkeys

theorem Exported.nodup_contracts : (g.contracts.map (contractOf k)).Nodup := by
  have hkeys := OrderedStore.nodup_keys_of_sorted (OrderedStore.scan_sorted d.kv contractKeyPrefix)
  rw [← hg.contracts, List.map_map] at hkeys
  exact hkeys

theorem Exported.get_model {c : Contract} (hc : c ∈ g.contracts) {x : Bytes} {v : Value} :
    d.kv.get (getContractStorePrefix (contractOf k c) ++ x) = some v ↔
      ∃ m ∈ c.contractState, x = m.key ∧ v = .bytes m.value := by
  rw [← OrderedStore.mem_scan, ← hg.state c hc, List.mem_map]
  refine exists_congr fun m ↦ and_congr_right fun _ ↦ ?_
  rw [modelEntry, Prod.mk.injEq]
  exact and_congr eq_comm eq_comm

/-- The listed contracts are those on record. -/
theorem Exported.record (hR : Represents k.bech32 d.kv R) {c : Contract} (hc : c ∈ g.contracts) :
    ∃ r, R (contractOf k c) = some r ∧ r.info = c.contractInfo ∧ r.history = c.contractCodeHistory := by
  have hmem : contractEntry k c ∈ d.kv.scan contractKeyPrefix := by
    rw [← hg.contracts]
    exact List.mem_map_of_mem hc
  obtain ⟨a, r, hr, ha, hinfo⟩ := hR.infos.mem_scan.1 hmem
  rw [← ha] at hr
  refine ⟨r, hr, (Value.contractInfo.inj hinfo).symm, ?_⟩
  rw [hg.histories c hc, Represents.historyOf_some hr]

theorem Exported.listed (hR : Represents k.bech32 d.kv R) {a : AccAddress} {r : ContractRecord k.bech32}
    (hr : R a = some r) : ∃ c ∈ g.contracts, contractOf k c = a := by
  have hmem : (a, Value.contractInfo r.info) ∈ d.kv.scan contractKeyPrefix := hR.infos.mem_scan.2 ⟨a, r, hr, rfl, rfl⟩
  rw [← hg.contracts] at hmem
  obtain ⟨c, hc, hentry⟩ := List.mem_map.1 hmem
  exact ⟨c, hc, (Prod.mk.inj hentry).1⟩

/-- The import of the listed contracts puts the same on record. -/
theorem Exported.recorded_eq (hR : Represents k.bech32 d.kv R) {R' : AccAddress → Option (ContractRecord k.bech32)}
    (hrec : Recorded k g.contracts (fun _ ↦ none) R') : R' = R := by
  funext a
  refine Option.ext fun r ↦ ⟨fun hr ↦ ?_, fun hr ↦ ?_⟩
  · rcases hrec.only hr with hnone | ⟨c, hc, ha, hinfo, hhist⟩
    · cases hnone
    · obtain ⟨r', hr', hinfo', hhist'⟩ := hg.record hR hc
      rw [contractOf_eq ha] at hr'
      rw [hr', ContractRecord.eq_of_info_of_history (hinfo'.trans hinfo.symm) (hhist'.trans hhist.symm)]
  · obtain ⟨c, hc, rfl⟩ := hg.listed hR hr
    obtain ⟨r₁, hr₁, hinfo₁, hhist₁⟩ := hg.record hR hc
    obtain ⟨a, r', ha, -, hr', hinfo', hhist'⟩ := hrec.listed c hc
    cases (hg.addresses c hc).symm.trans ha
    obtain rfl : r₁ = r := Option.some.inj (hr₁.symm.trans hr)
    rw [hr', ContractRecord.eq_of_info_of_history (hinfo'.trans hinfo₁.symm) (hhist'.trans hhist₁.symm)]

end Listed

end Cosmwasgo.Registry
