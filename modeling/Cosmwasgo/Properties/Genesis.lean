import Cosmwasgo.Properties.Registry
import Cosmwasgo.Registry.Import

namespace Cosmwasgo.Properties

open Cosmwasgo.Lib Cosmwasgo.Types Cosmwasgo.State Cosmwasgo.Keeper Cosmwasgo.Runs Cosmwasgo.Registry

variable {X : Type} {k : Keeper X} {g : GenesisState} {kv kv' : KVStore} {R : AccAddress → Option (ContractRecord k.bech32)}

/-- The entries that the sequences of a genesis file are stored as. -/
def sequenceRow (g : GenesisState) (key : Bytes) (v : Value) : Prop :=
  ∃ s ∈ g.sequences, key = s.idKey ∧ v = .bytes (uint64ToBigEndian s.value)

/-- What an import leaves on an empty store: `kv` before the sequences are stored, `kv'` after that. -/
structure FromGenesis (k : Keeper X) (g : GenesisState) (kv : KVStore)
    (R : AccAddress → Option (ContractRecord k.bech32)) (kv' : KVStore) : Prop where
  represents : Represents k.bech32 kv R
  recorded : Recorded k g.contracts (fun _ ↦ none) R
  codes : ∀ x v, kv.get (codeKeyPrefix ++ x) = some v ↔
    ∃ c ∈ g.codes, x = uint64ToBigEndian c.codeID ∧ v = .codeInfo c.codeInfo
  sequences : ∀ key : Bytes, key.head? = some 4 → kv.get key = none
  fresh : ∀ s ∈ g.sequences, kv.get s.idKey = none
  rows : OrderedStore.Adds (sequenceRow g) kv kv'

theorem exists_fromGenesis {w w' : World X} (hempty : ∀ key, w.store.kv.get key = none)
    (hrun : initGenesis k g w = (.ok (), w')) :
    ∃ m kv R, FromGenesis k g kv R w'.store.kv ∧ SequencesChecked k m (durable w') := by
  obtain ⟨m, d₁, d₂, hcodes, -, hcontracts, hseqs, hchecked⟩ := ensures_initGenesis g hrun
  have hstart : ∀ key : Bytes, key.head? ≠ some 16 →
      ((durable w).withKV ((durable w).kv.set paramsKey (.params g.params))).kv.get key = none := by
    intro key hkey
    rw [Durable.kv_withKV, get_set_of_head _ (by simpa using hkey)]
    exact hempty key
  have hregistry : Represents k.bech32 d₁.kv fun _ ↦ none := by
    refine Represents.empty.congr fun key hkey ↦ ?_
    rw [OrderedStore.get_empty, hcodes.apart key, hstart key]
    · rintro h
      simp [IsRegistryKey, h] at hkey
    · rintro h
      simp [IsRegistryKey, h] at hkey
    · rintro h
      simp [IsRegistryKey, h] at hkey
  obtain ⟨R, hR, hrec⟩ := hcontracts.records _ hregistry
  refine ⟨m, d₂.kv, R, ⟨hR, hrec, fun x v ↦ ?_, fun key hkey ↦ ?_, hseqs.fresh, hseqs.rows⟩, hchecked⟩
  · rw [hcontracts.apart _ (by simp [codeKeyPrefix]), hcodes.infos, hstart _ (by simp [codeKeyPrefix])]
    simp
  · rw [hcontracts.apart _ (by simp [hkey]), hcodes.apart _ (by simp [hkey]) (by simp [hkey]), hstart _ (by simp [hkey])]

namespace FromGenesis

variable (h : FromGenesis k g kv R kv')
include h

theorem get_info {a : AccAddress} {info : ContractInfo} :
    kv'.get (getContractAddressKey a) = some (.contractInfo info) ↔ ∃ r, R a = some r ∧ r.info = info := by
  rw [h.rows, h.represents.get_info_eq_some, or_iff_left]
  rintro ⟨s, -, -, hv⟩
  cases hv

/-- The contracts on record are those that are listed. -/
theorem exists_contract {a : AccAddress} {r : ContractRecord k.bech32} (hr : R a = some r) :
    ∃ c ∈ g.contracts, k.bech32.fromBech32 c.contractAddress = .ok a ∧ r.info = c.contractInfo ∧
      r.history = c.contractCodeHistory := by
  rcases h.recorded.only hr with hnone | hlisted
  · cases hnone
  · exact hlisted

theorem exists_record {c : Contract} (hc : c ∈ g.contracts) {a : AccAddress}
    (ha : k.bech32.fromBech32 c.contractAddress = .ok a) :
    ∃ r, R a = some r ∧ r.info = c.contractInfo ∧ r.history = c.contractCodeHistory := by
  obtain ⟨a', r, ha', -, hr, hfields⟩ := h.recorded.listed c hc
  cases ha.symm.trans ha'
  exact ⟨r, hr, hfields⟩

end FromGenesis

theorem ensures_iterateContractsByCode (codeID : UInt64) : Ensures (iterateContractsByCode k codeID) fun d l d' ↦
    indexAddresses (d.kv.scan (getContractByCodeIDSecondaryIndexPrefix codeID)) = .ok l ∧ d' = d := by
  refine ((Writes.iterateKV k _).ensures.bind fun es ↦ (Writes.liftPanic (indexAddresses es)).ensures).mono ?_
  rintro d l d' ⟨_, _, ⟨rfl, rfl⟩, hl, rfl⟩
  exact ⟨hl, rfl⟩

section Histories

/-- Eight bytes below a contract that are not the position of one of its entries come before the first or after the
last one. -/
theorem beyond_history (h : FromGenesis k g kv R kv') {a : AccAddress} {r : ContractRecord k.bech32} (hr : R a = some r)
    {s : Sequence} (hs : s ∈ g.sequences) {x : Bytes} (hx : s.idKey = getContractCodeHistoryElementPrefix a ++ x)
    (hlen : x.length = 8) : x = uint64ToBigEndian 0 ∨ bigEndian 8 r.history.length < x := by
  have hfree := h.fresh s hs
  rw [hx, getContractCodeHistoryElementPrefix, List.append_assoc] at hfree
  have hpos : bigEndian 8 (ofBigEndian x) = x := by
    rw [← hlen]
    exact bigEndian_ofBigEndian x
  have hlt : ofBigEndian x < 256 ^ 8 := by
    rw [← hlen]
    exact ofBigEndian_lt x
  rcases Nat.lt_or_ge r.history.length (ofBigEndian x) with hgt | hle
  · right
    rw [← hpos]
    exact bigEndian_lt hgt hlt
  · left
    rcases hn : ofBigEndian x with _ | n
    · rw [← hpos, hn]
      rfl
    · obtain ⟨e, he⟩ : ∃ e, r.history[n]? = some e := ⟨_, List.getElem?_eq_getElem (by omega)⟩
      have hrow := (h.represents.histories (a ++ x) (.history e)).2
        ⟨a, r, hr, n, e, he, by rw [← hn, hpos], rfl⟩
      cases hfree.symm.trans hrow

variable {a : AccAddress} {r : ContractRecord k.bech32} {x : Bytes} {v : Value}

/-- What stands below a contract in the history section: its entries and the sequences that are stored there. -/
theorem FromGenesis.mem_history (h : FromGenesis k g kv R kv') (hr : R a = some r) :
    (x, v) ∈ historyEntries (kv'.scan (getContractCodeHistoryElementPrefix a)) ↔
      (∃ i e, r.history[i]? = some e ∧ x = bigEndian 8 (i + 1) ∧ v = .history e) ∨
      x.length = 8 ∧ sequenceRow g (getContractCodeHistoryElementPrefix a ++ x) v := by
  have hown := congrArg ((x, v) ∈ ·) (Represents.historyEntries_scan h.represents.histories a)
  simp only [historyEntries, List.mem_filter, OrderedStore.mem_scan, mem_numbered, Represents.historyOf_some hr] at hown
  rw [historyEntries, List.mem_filter, OrderedStore.mem_scan, h.rows, or_and_right, hown, beq_iff_eq]
  exact or_congr_right and_comm

theorem FromGenesis.last_mem (h : FromGenesis k g kv R kv') (hr : R a = some r) :
    (bigEndian 8 r.history.length, Value.history r.last) ∈
      historyEntries (kv'.scan (getContractCodeHistoryElementPrefix a)) := by
  have hpos := List.length_pos_iff.2 r.history_ne_nil
  have hlast := r.last_eq
  rw [List.getLast?_eq_getElem?] at hlast
  exact (h.mem_history hr).2 (.inl ⟨_, r.last, hlast, by rw [Nat.sub_add_cancel hpos], rfl⟩)

theorem historyEntries_sorted (kv : KVStore) (a : AccAddress) :
    (historyEntries (kv.scan (getContractCodeHistoryElementPrefix a))).Pairwise KeyLT :=
  (OrderedStore.scan_sorted _ _).filter _

/-- Where the sequences leave a contract's history alone, its last entry is the last one that is listed. -/
theorem FromGenesis.lastHistory_of_apart (h : FromGenesis k g kv R kv') (hr : R a = some r)
    (hapart : ∀ s ∈ g.sequences, ∀ x, x.length = 8 → s.idKey = getContractCodeHistoryElementPrefix a ++ x →
      x = uint64ToBigEndian 0) : lastHistory kv' a = some (.history r.last) := by
  have hmax : ∀ e ∈ historyEntries (kv'.scan (getContractCodeHistoryElementPrefix a)),
      ¬ KeyLT (bigEndian 8 r.history.length, Value.history r.last) e := by
    rintro ⟨x, v⟩ he (hlt : bigEndian 8 r.history.length < x)
    rcases (h.mem_history hr).1 he with ⟨i, e, hi, rfl, -⟩ | ⟨hlen, s, hs, hkey, -⟩
    · have hle := (List.getElem?_eq_some_iff.1 hi).1
      exact absurd hlt (bigEndian_le (by omega) (by have := r.fits; omega)).not_gt
    · rw [hapart s hs x hlen hkey.symm] at hlt
      exact absurd hlt (bigEndian_le (Nat.zero_le _) (by have := r.fits; omega)).not_gt
  rw [lastHistory, OrderedStore.getLast?_of_max (historyEntries_sorted kv' a) (h.last_mem hr) hmax]
  rfl

/-- A last entry that can be read is the last one that is listed, and no sequence stands behind it. -/
theorem FromGenesis.eq_last (h : FromGenesis k g kv R kv') (hr : R a = some r) {last : ContractCodeHistoryEntry}
    (hlast : lastHistory kv' a = some (.history last)) : last = r.last ∧
    ∀ s ∈ g.sequences, ∀ x, x.length = 8 → s.idKey = getContractCodeHistoryElementPrefix a ++ x →
      x = uint64ToBigEndian 0 := by
  obtain ⟨⟨y, _⟩, hend, rfl⟩ := Option.map_eq_some_iff.1 hlast
  have hsorted := historyEntries_sorted kv' a
  -- the value tells that the entry is the contract's own, so its position is at most the number of entries
  obtain ⟨i, e, hi, rfl, he⟩ : ∃ i e, r.history[i]? = some e ∧ y = bigEndian 8 (i + 1) ∧ Value.history last = .history e := by
    rcases (h.mem_history hr).1 (List.mem_of_getLast? hend) with hown | ⟨-, s, -, -, hv⟩
    · exact hown
    · cases hv
  cases he
  have hi' := (List.getElem?_eq_some_iff.1 hi).1
  have hfits := r.fits
  have hle : bigEndian 8 (i + 1) ≤ bigEndian 8 r.history.length := bigEndian_le (by omega) (by omega)
  constructor
  · rcases OrderedStore.getLast?_max hsorted hend (h.last_mem hr) with heq | hlt
    · exact (Value.history.inj (Prod.mk.inj heq).2).symm
    · exact absurd (show bigEndian 8 r.history.length < bigEndian 8 (i + 1) from hlt) hle.not_gt
  · intro s hs x hlen hkey
    rcases beyond_history h hr hs hkey hlen with hzero | hbeyond
    · exact hzero
    · have hmem := (h.mem_history hr).2 (.inr ⟨hlen, s, hs, hkey.symm, rfl⟩)
      rcases OrderedStore.getLast?_max hsorted hend hmem with heq | hlt
      · cases heq
      · exact absurd (show x < bigEndian 8 (i + 1) from hlt) (hle.trans hbeyond.le).not_gt

end Histories

/-- The by-code index and the histories say about the contracts what their infos say. -/
structure RegistryRestored (k : Keeper X) (d : Durable X) : Prop where
  iterateByCode : ∀ codeID (w : World X), durable w = d → ∃ l, Returns (iterateContractsByCode k codeID) w l ∧ l.Nodup ∧
    ∀ a, a ∈ l ↔ StoredWith d.kv (·.codeID = codeID) a
  current : ∀ a v, d.kv.get (getContractAddressKey a) = some v → ∃ info last, v = .contractInfo info ∧
    lastHistory d.kv a = some (.history last) ∧ last.codeID = info.codeID

/-- The listed contracts run the code of their last history entry, and the keys of the sequences stay out of the
sections for the contracts, for their histories and for the by-code index. -/
structure GenesisFits (k : Keeper X) (g : GenesisState) : Prop where
  current : ∀ c ∈ g.contracts, ∀ last, c.contractCodeHistory.getLast? = some last → last.codeID = c.contractInfo.codeID
  contracts : ∀ s ∈ g.sequences, ∀ a, s.idKey ≠ getContractAddressKey a
  histories : ∀ c ∈ g.contracts, ∀ a, k.bech32.fromBech32 c.contractAddress = .ok a → ∀ s ∈ g.sequences, ∀ x,
    x.length = 8 → s.idKey = getContractCodeHistoryElementPrefix a ++ x → x = uint64ToBigEndian 0
  byCode : ∀ s ∈ g.sequences, ∀ codeID x, s.idKey ≠ getContractByCodeIDSecondaryIndexPrefix codeID ++ x

section Restored

variable {d : Durable X} (h : FromGenesis k g kv R d.kv)
include h

theorem GenesisFits.last_codeID (hg : GenesisFits k g) {a : AccAddress} {r : ContractRecord k.bech32}
    (hr : R a = some r) : r.last.codeID = r.info.codeID := by
  obtain ⟨c, hc, -, hinfo, hhist⟩ := h.exists_contract hr
  rw [hinfo]
  refine hg.current c hc r.last ?_
  rw [← hhist]
  exact r.last_eq

theorem FromGenesis.restored (hg : GenesisFits k g) : RegistryRestored k d where
  iterateByCode codeID w hw := by
    have hes : ∀ x v, (x, v) ∈ d.kv.scan (getContractByCodeIDSecondaryIndexPrefix codeID) ↔
        ∃ a pos, (∃ r, R a = some r ∧ r.last.codeID = codeID ∧ r.updated = pos) ∧ x = pos.bytes ++ a ∧ v = .bytes [] := by
      intro x v
      rw [← Represents.mem_scan_byCode h.represents.byCode, OrderedStore.mem_scan, OrderedStore.mem_scan,
        h.rows, or_iff_left]
      rintro ⟨s, hs, hkey, -⟩
      exact hg.byCode s hs codeID x hkey.symm
    obtain ⟨l, hl, hnodup, hmem, -⟩ := visits_of_rows (OrderedStore.scan_sorted _ _) hes (by
      rintro a p q ⟨r, hr, -, rfl⟩ ⟨r', hr', -, rfl⟩
      rw [Option.some.inj (hr.symm.trans hr')])
    refine ⟨l, ?_, hnodup, fun a ↦ (hmem a).trans ?_⟩
    · have hread := returns_iterateKV k (getContractByCodeIDSecondaryIndexPrefix codeID) w
      rw [show w.store.kv = d.kv from congrArg Durable.kv hw] at hread
      exact hread.bind_pure (f := fun es ↦ liftPanic (indexAddresses es)) (by rw [hl]; rfl)
    · constructor
      · rintro ⟨pos, r, hr, hid, -⟩
        exact ⟨r.info, h.get_info.2 ⟨r, hr, rfl⟩, (hg.last_codeID h hr).symm.trans hid⟩
      · rintro ⟨info, hinfo, hid⟩
        obtain ⟨r, hr, rfl⟩ := h.get_info.1 hinfo
        exact ⟨r.updated, r, hr, (hg.last_codeID h hr).trans hid, rfl⟩
  current a v hv := by
    rcases (h.rows _ _).1 hv with hinfo | ⟨s, hs, hkey, -⟩
    · rw [h.represents.get_info, Option.map_eq_some_iff] at hinfo
      obtain ⟨r, hr, rfl⟩ := hinfo
      obtain ⟨c, hc, ha, -, -⟩ := h.exists_contract hr
      exact ⟨r.info, r.last, rfl, h.lastHistory_of_apart hr (hg.histories c hc a ha), hg.last_codeID h hr⟩
    · exact absurd hkey.symm (hg.contracts s hs a)

/-- A contract on record whose registry is restored. -/
theorem RegistryRestored.last_codeID (hd : RegistryRestored k d) {a : AccAddress} {r : ContractRecord k.bech32}
    (hr : R a = some r) : r.last.codeID = r.info.codeID ∧ ∀ s ∈ g.sequences, ∀ x, x.length = 8 →
      s.idKey = getContractCodeHistoryElementPrefix a ++ x → x = uint64ToBigEndian 0 := by
  obtain ⟨info, last, hinfo, hlast, hid⟩ := hd.current a _ (h.get_info.2 ⟨r, hr, rfl⟩)
  cases hinfo
  obtain ⟨rfl, hapart⟩ := h.eq_last hr hlast
  exact ⟨hid, hapart⟩

theorem RegistryRestored.idKey_ne_byCode (hd : RegistryRestored k d) {s : Sequence} (hs : s ∈ g.sequences)
    (codeID : UInt64) (x : Bytes) : s.idKey ≠ getContractByCodeIDSecondaryIndexPrefix codeID ++ x := by
  intro hkey
  obtain ⟨l, hl, hnodup, hmem⟩ := hd.iterateByCode codeID (worldOf d) rfl
  -- with an infinite meter the iterator comes to the end, so every row has an address
  have hall : indexAddresses (d.kv.scan (getContractByCodeIDSecondaryIndexPrefix codeID)) = .ok l := by
    rcases hl with hl | ⟨hfinite, -⟩
    · exact (ensures_iterateContractsByCode codeID (Prod.ext hl rfl)).1
    · cases hfinite
  obtain ⟨-, rfl⟩ := indexAddresses_eq_ok.1 hall
  have hrow : (x, Value.bytes (uint64ToBigEndian s.value)) ∈ d.kv.scan (getContractByCodeIDSecondaryIndexPrefix codeID) := by
    rw [OrderedStore.mem_scan, h.rows]
    exact .inr ⟨s, hs, hkey.symm, rfl⟩
  -- the address at its end is that of a contract, which has a row of its own
  obtain ⟨info, hinfo, hid⟩ := (hmem _).1 (List.mem_map_of_mem hrow)
  obtain ⟨r, hr, rfl⟩ := h.get_info.1 hinfo
  have hown : (r.updated.bytes ++ x.drop absoluteTxPositionLen, Value.bytes []) ∈
      d.kv.scan (getContractByCodeIDSecondaryIndexPrefix codeID) := by
    have hmem' := (Represents.mem_scan_byCode h.represents.byCode codeID _ _).2
      ⟨_, _, ⟨r, hr, (hd.last_codeID h hr).1.trans hid, rfl⟩, rfl, rfl⟩
    rw [OrderedStore.mem_scan] at hmem' ⊢
    exact h.rows.get_of_some hmem'
  have hsame := List.inj_on_of_nodup_map hnodup hrow hown
    (by rw [List.drop_left' (by simp [absoluteTxPositionLen])])
  have hvalue := congrArg List.length (Value.bytes.inj (Prod.mk.inj hsame).2)
  simp at hvalue

theorem FromGenesis.fits (hd : RegistryRestored k d) : GenesisFits k g where
  current c hc last hlast := by
    obtain ⟨a, r, -, -, hr, hinfo, hhist⟩ := h.recorded.listed c hc
    rw [← hhist, r.last_eq] at hlast
    cases hlast
    rw [← hinfo]
    exact (hd.last_codeID h hr).1
  contracts s hs a hkey := by
    obtain ⟨info, last, hinfo, -⟩ := hd.current a _ ((h.rows _ _).2 (.inr ⟨s, hs, hkey.symm, rfl⟩))
    cases hinfo
  histories c hc a ha := by
    obtain ⟨r, hr, -⟩ := h.exists_record hc ha
    exact (hd.last_codeID h hr).2
  byCode s hs := hd.idKey_ne_byCode h hs

end Restored

theorem initGenesis_restores_iff (k : Keeper X) (g : GenesisState) (w w' : World X)
    (hempty : ∀ key, w.store.kv.get key = none) (hrun : initGenesis k g w = (.ok (), w')) :
    RegistryRestored k (durable w') ↔ GenesisFits k g := by
  obtain ⟨m, kv, R, h, -⟩ := exists_fromGenesis hempty hrun
  exact ⟨h.fits (d := durable w'), h.restored (d := durable w')⟩

section Devnet

def carolCode (codeID : UInt64) : Code := ⟨codeID, ⟨padHash wasmIdent, carol, allowEverybody⟩, wasmIdent, false⟩

/-- A contract that runs the first code, with a history that ends with the given one. -/
def carolContract (a : AccAddress) (lastCodeID : UInt64) : Contract where
  contractAddress := plainBech32.string a
  contractInfo := { codeID := 1, creator := carol, admin := "", label := "contract", created := some ⟨1, 0⟩ }
  contractState := []
  contractCodeHistory := [⟨.genesis, lastCodeID, some ⟨1, 0⟩, stringToBytes "\x7b\x7d"⟩]

/-- Two codes and one contract. -/
def carolGenesis (a : AccAddress) (lastCodeID : UInt64) : GenesisState where
  params := ⟨allowEverybody, .everybody⟩
  codes := [carolCode 1, carolCode 2]
  contracts := [carolContract a lastCodeID]
  sequences := [⟨keySequenceCodeID, 3⟩, ⟨keySequenceInstanceID, 2⟩]

/-- The world of the import, which no proof looks into. -/
theorem exists_imported {g : GenesisState} (hg : (initGenesis (plainnet idleContract) g emptyWorld).1 = .ok ()) :
    ∃ w', initGenesis (plainnet idleContract) g emptyWorld = (.ok (), w') := ⟨_, Program.apply_eq hg⟩

theorem head?_sequences (a : AccAddress) (lastCodeID : UInt64) :
    ∀ s ∈ (carolGenesis a lastCodeID).sequences, s.idKey.head? = some 4 := by
  simp [carolGenesis, keySequenceCodeID, keySequenceInstanceID, sequenceKeyPrefix]

theorem carolGenesis_fits : GenesisFits (plainnet idleContract) (carolGenesis contractOne 1) where
  current c hc last hlast := by
    obtain rfl := List.mem_singleton.1 hc
    cases hlast
    rfl
  contracts s hs a hkey := by
    have hhead := head?_sequences _ _ s hs
    rw [hkey] at hhead
    cases hhead
  histories _ _ a _ s hs x _ hkey := by
    have hhead := head?_sequences _ _ s hs
    rw [hkey] at hhead
    cases hhead
  byCode s hs codeID x hkey := by
    have hhead := head?_sequences _ _ s hs
    rw [hkey] at hhead
    cases hhead

end Devnet

theorem initGenesis_restores_carolGenesis :
    GenesisState.validateBasic (plainnet idleContract) (carolGenesis contractOne 1) = .ok () ∧
    ∃ w', initGenesis (plainnet idleContract) (carolGenesis contractOne 1) emptyWorld = (.ok (), w') ∧
      RegistryRestored (plainnet idleContract) (durable w') := by
  obtain ⟨w', hrun⟩ := exists_imported (g := carolGenesis contractOne 1) (by decide +kernel)
  refine ⟨by decide +kernel, w', hrun, ?_⟩
  exact (initGenesis_restores_iff _ _ emptyWorld w' OrderedStore.get_empty hrun).2 carolGenesis_fits

/-- The history ends with the second code, so the contract is listed under that one. -/
theorem initGenesis_history_of_other_code :
    GenesisState.validateBasic (plainnet idleContract) (carolGenesis contractOne 2) = .ok () ∧
    ∃ w', initGenesis (plainnet idleContract) (carolGenesis contractOne 2) emptyWorld = (.ok (), w') ∧
      ¬ RegistryRestored (plainnet idleContract) (durable w') := by
  obtain ⟨w', hrun⟩ := exists_imported (g := carolGenesis contractOne 2) (by decide +kernel)
  refine ⟨by decide +kernel, w', hrun, fun hd ↦ ?_⟩
  obtain ⟨m, kv, R, h, -⟩ := exists_fromGenesis OrderedStore.get_empty hrun
  have hid := (h.fits (d := durable w') hd).current (carolContract contractOne 2) List.mem_cons_self _ rfl
  exact absurd hid (by decide)

section Addresses

/-- The address that the next classic instantiation of the code gets. -/
def NextAddress (k : Keeper X) (d : Durable X) (codeID : UInt64) (a : AccAddress) : Prop :=
  ∃ n, parseSequence (d.kv.get keySequenceInstanceID) = .ok n ∧ a = buildContractAddressClassic k codeID n

theorem nextAddress_of_generated {w w' : World X} {codeID : UInt64} {checksum : Bytes} {a : AccAddress}
    (hrun : classicAddressGenerator k codeID checksum w = (.ok a, w')) : NextAddress k (durable w) codeID a := by
  have hdraw := (Writes.mustAutoIncrementID k keySequenceInstanceID).ensures.bind fun n ↦
    Ensures.pure (buildContractAddressClassic k codeID n)
  obtain ⟨n, _, ⟨hn, -⟩, rfl, -⟩ := hdraw hrun
  exact ⟨n, hn, rfl⟩

/-- The instance sequence that a genesis file leaves. -/
def instanceSequence (g : GenesisState) : UInt64 :=
  ((g.sequences.find? (·.idKey = keySequenceInstanceID)).map (·.value)).getD 1

namespace FromGenesis

variable (h : FromGenesis k g kv R kv')
include h

theorem get_code {codeID : UInt64} {info : CodeInfo} : kv'.get (getCodeKey codeID) = some (.codeInfo info) ↔
    ∃ c ∈ g.codes, c.codeID = codeID ∧ c.codeInfo = info := by
  rw [h.rows, getCodeKey, h.codes, or_iff_left]
  · constructor
    · rintro ⟨c, hc, hid, hinfo⟩
      exact ⟨c, hc, (uint64ToBigEndian_injective hid).symm, (Value.codeInfo.inj hinfo).symm⟩
    · rintro ⟨c, hc, rfl, rfl⟩
      exact ⟨c, hc, rfl, rfl⟩
  · rintro ⟨s, -, -, hv⟩
    cases hv

end FromGenesis

/-- The address that the second instance of a chain gets, when it is one of the first code. -/
def contractTwo : AccAddress := padHash (uint64ToBigEndian 1 ++ uint64ToBigEndian 2)

end Addresses

end Cosmwasgo.Properties
