import Cosmwasgo.Registry.Histories
import Cosmwasgo.Runs.Ensures

namespace Cosmwasgo.Registry

open Cosmwasgo.Lib Cosmwasgo.Types Cosmwasgo.State Cosmwasgo.Keeper Cosmwasgo.Runs

variable {X : Type} {k : Keeper X} {d d₁ d₂ : Durable X}

section Codes

/-- What the import of codes leaves: infos and marks for them, the codes in the VM, and nothing else. -/
structure CodesImported (k : Keeper X) (codes : List Code) (d d' : Durable X) : Prop where
  apart : ∀ key : Bytes, key.head? ≠ some 1 → key.head? ≠ some 7 → d'.kv.get key = d.kv.get key
  infos : ∀ x v, d'.kv.get (codeKeyPrefix ++ x) = some v ↔
    d.kv.get (codeKeyPrefix ++ x) = some v ∨ ∃ c ∈ codes, x = uint64ToBigEndian c.codeID ∧ v = .codeInfo c.codeInfo
  fresh : ∀ c ∈ codes, d.kv.get (getCodeKey c.codeID) = none
  pins : ∀ x, (d'.kv.get (pinnedCodeIndexPrefix ++ x)).isSome ↔ (d.kv.get (pinnedCodeIndexPrefix ++ x)).isSome ∨
    ∃ c ∈ codes, c.pinned = true ∧ x = uint64ToBigEndian c.codeID
  pinned : ∀ h, h ∈ d'.vm.pinned ↔ h ∈ d.vm.pinned ∨ ∃ c ∈ codes, c.pinned = true ∧ c.codeInfo.codeHash = h

theorem exists_mem_append {α : Type} {p : α → Prop} {l l' : List α} :
    ((∃ a ∈ l, p a) ∨ ∃ a ∈ l', p a) ↔ ∃ a ∈ l ++ l', p a := by
  simp only [List.mem_append, or_and_right, exists_or]

namespace CodesImported

theorem nil (d : Durable X) : CodesImported k [] d d := by
  refine ⟨fun _ _ _ ↦ rfl, fun _ _ ↦ ?_, fun _ h ↦ ?_, fun _ ↦ ?_, fun _ ↦ ?_⟩
  · simp
  · cases h
  · simp
  · simp

theorem trans {cs cs' : List Code} (h : CodesImported k cs d d₁) (h' : CodesImported k cs' d₁ d₂) :
    CodesImported k (cs ++ cs') d d₂ where
  apart key h1 h7 := (h'.apart key h1 h7).trans (h.apart key h1 h7)
  infos x v := by
    rw [h'.infos, h.infos, or_assoc, exists_mem_append]
  fresh c hc := by
    rcases List.mem_append.1 hc with hc | hc
    · exact h.fresh c hc
    · rw [Option.eq_none_iff_forall_ne_some]
      intro v hv
      cases (h'.fresh c hc).symm.trans ((h.infos _ v).2 (.inl hv))
  pins x := by
    rw [h'.pins, h.pins, or_assoc, exists_mem_append]
  pinned x := by
    rw [h'.pinned, h.pinned, or_assoc, exists_mem_append]

/-- One code, without its pin. -/
theorem one {c : Code} {code : Bytes} (hfree : d.kv.get (getCodeKey c.codeID) = none) (hpin : c.pinned = false) :
    CodesImported k [c] d ((d.withVM { d.vm with codes := d.vm.codes.set c.codeInfo.codeHash code }).withKV
      (d.kv.set (getCodeKey c.codeID) (.codeInfo c.codeInfo))) where
  apart key h1 _ := get_set_of_head _ (by simpa using h1)
  infos x v := by
    refine (OrderedStore.Adds.set d.kv hfree (.codeInfo c.codeInfo) _ v).trans (or_congr_right ?_)
    simp [getCodeKey]
  fresh c' hc' := by rwa [List.mem_singleton.1 hc']
  pins x := by
    rw [Durable.kv_withKV, get_set_of_head _ (by simp [pinnedCodeIndexPrefix])]
    simp [hpin]
  pinned h := by
    change h ∈ d.vm.pinned ↔ _
    simp [hpin]

/-- The pin of a code that was imported without one. -/
theorem pin {c : Code} {info : CodeInfo} (h : CodesImported k [{ c with pinned := false }] d d₁) (hpin : c.pinned = true)
    (hinfo : d₁.kv.get (getCodeKey c.codeID) = some (.codeInfo info)) :
    CodesImported k [c] d ((d₁.withVM { d₁.vm with pinned := info.codeHash :: d₁.vm.pinned }).withKV
      (d₁.kv.set (getPinnedCodeIndexPrefix c.codeID) (.bytes [1]))) := by
  have hown : d₁.kv.get (getCodeKey c.codeID) = some (.codeInfo c.codeInfo) :=
    (h.infos _ _).2 (.inr ⟨_, List.mem_singleton_self _, rfl, rfl⟩)
  obtain rfl : c.codeInfo = info := by
    cases hown.symm.trans hinfo
    rfl
  refine ⟨fun key h1 h7 ↦ ?_, fun x v ↦ ?_, fun c' hc' ↦ ?_, fun x ↦ ?_, fun x ↦ ?_⟩
  · rw [Durable.kv_withKV, get_set_of_head _ (by simpa using h7)]
    exact h.apart key h1 h7
  · rw [Durable.kv_withKV, get_set_of_head _ (by simp [codeKeyPrefix]), h.infos]
    simp
  · rw [List.mem_singleton.1 hc']
    exact h.fresh { c with pinned := false } (List.mem_singleton_self _)
  · by_cases hx : x = uint64ToBigEndian c.codeID
    · subst hx
      have hself : (d₁.kv.set (getPinnedCodeIndexPrefix c.codeID) (.bytes [1])).get
          (pinnedCodeIndexPrefix ++ uint64ToBigEndian c.codeID) = some (.bytes [1]) := OrderedStore.get_set_self _ _ _
      rw [Durable.kv_withKV, hself]
      exact ⟨fun _ ↦ .inr ⟨c, List.mem_singleton_self _, hpin, rfl⟩, fun _ ↦ rfl⟩
    · have hne : pinnedCodeIndexPrefix ++ x ≠ getPinnedCodeIndexPrefix c.codeID :=
        fun heq ↦ hx (List.append_cancel_left heq)
      rw [Durable.kv_withKV, OrderedStore.get_set_of_ne _ _ hne, h.pins]
      simp [hx]
  · change x ∈ c.codeInfo.codeHash :: d₁.vm.pinned ↔ _
    rw [List.mem_cons, h.pinned, or_comm, eq_comm]
    simp [hpin]

end CodesImported

theorem ensures_importPin (i : Nat) (c : Code) : Ensures (importPin k i c) fun d₁ _ d₂ ↦
    ∀ d, CodesImported k [{ c with pinned := false }] d d₁ → CodesImported k [c] d d₂ := by
  unfold importPin
  split
  · next hp =>
    refine ((Ensures.pinCode c.codeID).wrapErr _).mono ?_
    rintro d₁ _ _ ⟨info, hinfo, rfl⟩ d hd
    exact hd.pin hp hinfo
  · next hp =>
    refine (Ensures.pure ()).mono ?_
    rintro d₁ _ _ ⟨-, rfl⟩ d hd
    have hc : { c with pinned := false } = c := by rw [← Bool.eq_false_iff.2 hp]
    rwa [hc] at hd

/-- The codes are imported, and the highest of their ids is returned. -/
theorem ensures_importCodes (i : Nat) (m : UInt64) (codes : List Code) :
    Ensures (importCodes k i m codes) fun d m' d' ↦ CodesImported k codes d d' ∧ m ≤ m' ∧
      (∀ c ∈ codes, c.codeID ≤ m') ∧ (m' = m ∨ ∃ c ∈ codes, m' = c.codeID) := by
  induction codes generalizing i m with
  | nil =>
    refine (Ensures.pure m).mono ?_
    rintro d _ _ ⟨rfl, rfl⟩
    exact ⟨.nil _, UInt64.le_refl _, nofun, .inl rfl⟩
  | cons c codes ih =>
    refine (((Ensures.importCode c.codeID c.codeInfo c.codeBytes).wrapErr _).bind fun _ ↦ (ensures_importPin i c).bind
      fun _ ↦ ih (i + 1) (if c.codeID > m then c.codeID else m)).mono ?_
    rintro d m' d' ⟨_, _, ⟨code, -, hfree, rfl⟩, _, d₂, hpins, hrest, hle, hall, hmax⟩
    have hone := hpins d (.one (c := { c with pinned := false }) hfree rfl)
    have hm : m ≤ (if c.codeID > m then c.codeID else m) ∧ c.codeID ≤ (if c.codeID > m then c.codeID else m) := by
      split
      · next hgt => exact ⟨UInt64.le_of_lt hgt, UInt64.le_refl _⟩
      · next hgt => exact ⟨UInt64.le_refl _, UInt64.not_lt.1 hgt⟩
    refine ⟨hone.trans hrest, UInt64.le_trans hm.1 hle, ?_, ?_⟩
    · intro c' hc'
      rcases List.mem_cons.1 hc' with rfl | hc'
      · exact UInt64.le_trans hm.2 hle
      · exact hall c' hc'
    · rcases hmax with hmax | ⟨c', hc', hmax⟩
      · split at hmax
        · exact .inr ⟨c, List.mem_cons_self, hmax⟩
        · exact .inl hmax
      · exact .inr ⟨c', List.mem_cons_of_mem _ hc', hmax⟩

end Codes

section Contracts

/-- The state of a contract goes below its prefix, every key once. -/
theorem ensures_importContractState (a : AccAddress) (models : List Model) :
    Ensures (importContractState k a models) fun d _ d' ↦ d'.vm = d.vm ∧ OrderedStore.Adds
      (fun key v ↦ ∃ m ∈ models, key = getContractStorePrefix a ++ m.key ∧ v = .bytes m.value) d.kv d'.kv := by
  induction models with
  | nil =>
    refine (Ensures.pure ()).mono ?_
    rintro d _ _ ⟨-, rfl⟩
    exact ⟨rfl, (OrderedStore.Adds.refl _).congr fun _ _ ↦ by simp⟩
  | cons m models ih =>
    refine ((Writes.hasKV k _).ensures.bind fun _ ↦ (Ensures.require _ _).bind fun _ ↦
      ((Writes.assertValidKey m.key).ensures.bind fun _ ↦ (Writes.setKV k _ _).ensures).bind fun _ ↦ ih).mono ?_
    rintro d _ d' ⟨_, _, ⟨rfl, rfl⟩, _, _, ⟨hfree, rfl⟩, _, _, ⟨_, _, rfl, rfl⟩, hvm, hadds⟩
    refine ⟨hvm, ((OrderedStore.Adds.set _ (by simpa using hfree) _).trans hadds).congr fun key v ↦ ?_⟩
    simp only [List.exists_mem_cons_iff]

/-- Entries are appended to one history, and nothing else changes. -/
theorem ensures_appendToContractHistory (a : AccAddress) (es : List ContractCodeHistoryEntry) :
    Ensures (appendToContractHistory k a es) fun d _ d' ↦ d'.vm = d.vm ∧
      (∀ key : Bytes, key.head? ≠ some 5 → d'.kv.get key = d.kv.get key) ∧
      ∀ H, Histories d.kv H → Histories d'.kv (Function.update H a (H a ++ es)) := by
  have hstore : ∀ pos, Ensures (storeHistory k a pos es) fun d _ d' ↦ d'.vm = d.vm ∧
      ∀ key : Bytes, key.head? ≠ some 5 → d'.kv.get key = d.kv.get key := by
    induction es with
    | nil =>
      intro pos
      refine (Ensures.pure ()).mono ?_
      rintro d _ _ ⟨-, rfl⟩
      exact ⟨rfl, fun _ _ ↦ rfl⟩
    | cons e es ih =>
      intro pos
      refine ((Writes.incUint64 pos).ensures.bind fun next ↦ (Writes.setKV k _ _).ensures.bind fun _ ↦ ih next).mono ?_
      rintro d _ d' ⟨next, _, ⟨-, -, rfl⟩, _, _, rfl, hvm, hkv⟩
      exact ⟨hvm, fun key hkey ↦ (hkv key hkey).trans (get_set_of_head _ (by simpa using hkey))⟩
  intro w r w' hr
  have hframe := ((Writes.iterateKV k _).ensures.bind fun es' ↦ hstore (lastPosition es')) hr
  obtain ⟨_, _, ⟨-, hd⟩, hvm, hkv⟩ := hframe
  rw [hd] at hvm hkv
  exact ⟨hvm, hkv, fun H hH ↦ appendToContractHistory_histories hH hr⟩

/-- What the import of a contract leaves: its record, its state, and nothing else. -/
structure ContractImported (k : Keeper X) (a : AccAddress) (c : Contract) (d d' : Durable X) : Prop where
  vm : d'.vm = d.vm
  apart : ∀ key : Bytes, key.head? ∉ [some 2, some 3, some 5, some 6, some 9] → d'.kv.get key = d.kv.get key
  code : (d.kv.get (getCodeKey c.contractInfo.codeID)).isSome
  state : ∀ x v, d'.kv.get (contractStorePrefix ++ x) = some v ↔ d.kv.get (contractStorePrefix ++ x) = some v ∨
    ∃ m ∈ c.contractState, x = a ++ m.key ∧ v = .bytes m.value
  records : ∀ R, Represents k.bech32 d.kv R → R a = none ∧ ∃ r, r.info = c.contractInfo ∧
    r.history = c.contractCodeHistory ∧ Represents k.bech32 d'.kv (Function.update R a (some r))

/-- A history section as the records have it. -/
theorem lists_of_histories {b : Bech32} {kv : KVStore} {R : AccAddress → Option (ContractRecord b)}
    {H : AccAddress → List ContractCodeHistoryEntry} (h : Histories kv H) (hR : ∀ a, H a = Represents.historyOf R a) :
    Lists kv contractCodeHistoryElementPrefix historyRow R := by
  intro x v
  rw [h.get]
  constructor
  · rintro ⟨a, i, e, he, rfl, rfl⟩
    rw [hR] at he
    rcases hr : R a with _ | r
    · rw [Represents.historyOf_none hr] at he
      cases he
    · rw [Represents.historyOf_some hr] at he
      exact ⟨a, r, hr, i, e, he, rfl, rfl⟩
  · rintro ⟨a, r, hr, i, e, he, rfl, rfl⟩
    exact ⟨a, i, e, by rwa [hR, Represents.historyOf_some hr], rfl, rfl⟩

/-- The four families after the import of a record for an address that had none. -/
theorem Represents.imported {b : Bech32} {kv kv₁ kv' : KVStore} {R : AccAddress → Option (ContractRecord b)}
    {a : AccAddress} (h : Represents b kv R) (hr : R a = none) (r : ContractRecord b) {head : Bytes}
    (hhead : getContractsByCreatorPrefix r.creator = some head)
    (hhist : Histories kv₁ (Function.update (historyOf R) a (historyOf R a ++ r.history)))
    (hkv₁ : ∀ key : Bytes, key.head? ≠ some 5 → kv₁.get key = kv.get key)
    (hkv' : ∀ key : Bytes, key.head? ≠ some 3 → kv'.get key =
      (((kv₁.set (getContractAddressKey a) (.contractInfo r.info)).set
        (getContractByCreatedSecondaryIndexKey a r.last.codeID r.updated) (.bytes [])).set
        (getContractByCreatorSecondaryIndexKey head r.entered a) (.bytes [])).get key) :
    Represents b kv' (Function.update R a (some r)) := by
  have h9 := head?_getContractByCreatorSecondaryIndexKey hhead r.entered a
  refine ⟨?_, ?_, ?_, ?_⟩
  · refine (h.infos.insert owns_info hr fun x v ↦ Iff.rfl).congr fun x ↦ ?_
    rw [hkv' _ (by simp [contractKeyPrefix]), get_set_of_head _ (by simp [contractKeyPrefix, h9]),
      get_set_of_head _ (by simp [contractKeyPrefix])]
    exact OrderedStore.get_set_congr (hkv₁ _ (by simp [contractKeyPrefix])) _ _
  · refine (lists_of_histories hhist fun a' ↦ ?_).congr fun x ↦ ?_
    · by_cases ha : a' = a
      · subst ha
        rw [Function.update_self, historyOf_none hr, historyOf_some (Function.update_self _ _ _)]
        rfl
      · rw [Function.update_of_ne ha, historyOf, historyOf, Function.update_of_ne ha]
    · rw [hkv' _ (by simp [contractCodeHistoryElementPrefix]), get_set_of_head _ (by simp [contractCodeHistoryElementPrefix, h9]),
        get_set_of_head _ (by simp [contractCodeHistoryElementPrefix]),
        get_set_of_head _ (by simp [contractCodeHistoryElementPrefix])]
  · refine (h.byCode.insert owns_byCode hr fun x v ↦ Iff.rfl).congr fun x ↦ ?_
    rw [hkv' _ (by simp [contractByCodeIDAndCreatedSecondaryIndexPrefix]),
      get_set_of_head _ (by simp [contractByCodeIDAndCreatedSecondaryIndexPrefix, h9]), byCodeKey_eq]
    refine OrderedStore.get_set_congr ?_ _ _
    rw [get_set_of_head _ (by simp [contractByCodeIDAndCreatedSecondaryIndexPrefix])]
    exact hkv₁ _ (by simp [contractByCodeIDAndCreatedSecondaryIndexPrefix])
  · refine (h.byCreator.insert owns_byCreator hr fun x v ↦ Iff.rfl).congr fun x ↦ ?_
    rw [hkv' _ (by simp [contractsByCreatorPrefix]), byCreatorKey_eq r _ _ hhead]
    refine OrderedStore.get_set_congr ?_ _ _
    rw [get_set_of_head _ (by simp [contractsByCreatorPrefix]), get_set_of_head _ (by simp [contractsByCreatorPrefix])]
    exact hkv₁ _ (by simp [contractsByCreatorPrefix])

theorem ensures_importContract (a : AccAddress) (c : Contract) :
    Ensures (importContract k a c.contractInfo c.contractState c.contractCodeHistory) fun d _ d' ↦
      ContractImported k a c d d' := by
  unfold importContract
  rcases hfirst : c.contractCodeHistory.head? with _ | first
  · have hfail : ∀ e, Ensures (Program.fail e : M X Unit) fun _ _ _ ↦ False := fun e ↦ .fail e
    refine ((Writes.hasKV k _).ensures.bind fun _ ↦ (Ensures.require _ _).bind fun _ ↦ (Writes.hasKV k _).ensures.bind
      fun _ ↦ (Ensures.require _ _).bind fun _ ↦ hfail _).mono ?_
    rintro d _ d' ⟨_, _, _, _, _, _, _, _, _, _, _, _, hfalse⟩
    exact hfalse.elim
  rcases hlast : c.contractCodeHistory.getLast? with _ | last
  · rw [List.getLast?_eq_none_iff.1 hlast] at hfirst
    cases hfirst
  refine ((Writes.hasKV k _).ensures.bind fun _ ↦ (Ensures.require _ _).bind fun _ ↦ (Writes.hasKV k _).ensures.bind
    fun _ ↦ (Ensures.require _ _).bind fun _ ↦ (Ensures.lift _).bind fun creator ↦
    (ensures_appendToContractHistory a c.contractCodeHistory).bind fun _ ↦ (Writes.setKV k _ _).ensures.bind fun _ ↦
    (Writes.addToContractCodeSecondaryIndex k a last).ensures.bind fun _ ↦
    (Writes.addToContractCreatorSecondaryIndex k creator first.updated a).ensures.bind fun _ ↦
    ensures_importContractState a c.contractState).mono ?_
  rintro d _ d' ⟨_, _, ⟨rfl, rfl⟩, _, _, ⟨hcode, rfl⟩, _, _, ⟨rfl, rfl⟩, _, _, ⟨hnew, rfl⟩, creator, _, ⟨hcreator, rfl⟩, _,
    d₁, ⟨hvm₁, hkv₁, hhist⟩, _, _, rfl, _, _, ⟨updated, hupdated, rfl⟩, _, _, ⟨entered, head, hentered, hhead, rfl⟩,
    hvm, hadds⟩
  have h9 := head?_getContractByCreatorSecondaryIndexKey hhead entered a
  have hrest : ∀ key : Bytes, key.head? ≠ some 3 → d'.kv.get key =
      (((d₁.kv.set (getContractAddressKey a) (.contractInfo c.contractInfo)).set
        (getContractByCreatedSecondaryIndexKey a last.codeID updated) (.bytes [])).set
        (getContractByCreatorSecondaryIndexKey head entered a) (.bytes [])).get key := by
    intro key hkey
    refine hadds.get_of_no_row ?_
    rintro v ⟨m, -, rfl, -⟩
    exact hkey rfl
  refine ⟨hvm.trans hvm₁, fun key hkey ↦ ?_, hcode, fun x v ↦ ?_, fun R hR ↦ ?_⟩
  · simp only [List.mem_cons, List.not_mem_nil, or_false, not_or] at hkey
    obtain ⟨h2, h3, h5, h6, h9'⟩ := hkey
    rw [hrest key h3, get_set_of_head _ (by simpa [h9] using h9'), get_set_of_head _ (by simpa using h6),
      get_set_of_head _ (by simpa using h2), hkv₁ key h5]
  · rw [hadds, Durable.kv_withKV, get_set_of_head _ (by simp [contractStorePrefix, h9]), Durable.kv_withKV,
      get_set_of_head _ (by simp [contractStorePrefix]), Durable.kv_withKV, get_set_of_head _ (by simp [contractStorePrefix]),
      hkv₁ _ (by simp [contractStorePrefix])]
    simp only [getContractStorePrefix, List.append_assoc, List.append_cancel_left_eq]
  · have hr : R a = none := by
      refine hR.get_info_eq_none.1 ?_
      simpa using hnew
    have hhist := hhist _ (Represents.histories_historyOf hR.histories)
    have hfits : c.contractCodeHistory.length < 2 ^ 64 := by
      have hfits := hhist.fits a
      rwa [Function.update_self, Represents.historyOf_none hr, List.nil_append] at hfits
    let r : ContractRecord k.bech32 :=
      { info := c.contractInfo, history := c.contractCodeHistory, last, updated, entered, creator, last_eq := hlast
        updated_eq := hupdated, entered_eq := by rw [hfirst]; exact hentered, creator_eq := hcreator, fits := hfits }
    exact ⟨hr, r, rfl, rfl, hR.imported hr r hhead hhist hkv₁ hrest⟩

/-- The records after an import: the old ones and one for each contract that is listed. -/
structure Recorded (k : Keeper X) (contracts : List Contract) (R R' : AccAddress → Option (ContractRecord k.bech32)) :
    Prop where
  old : ∀ {a r}, R a = some r → R' a = some r
  listed : ∀ c ∈ contracts, ∃ a r, k.bech32.fromBech32 c.contractAddress = .ok a ∧ R a = none ∧ R' a = some r ∧
    r.info = c.contractInfo ∧ r.history = c.contractCodeHistory
  only : ∀ {a r}, R' a = some r → R a = some r ∨ ∃ c ∈ contracts, k.bech32.fromBech32 c.contractAddress = .ok a ∧
    r.info = c.contractInfo ∧ r.history = c.contractCodeHistory

theorem Recorded.cons {c : Contract} {contracts : List Contract} {R R' : AccAddress → Option (ContractRecord k.bech32)}
    {a : AccAddress} {r : ContractRecord k.bech32} (ha : k.bech32.fromBech32 c.contractAddress = .ok a) (hr : R a = none)
    (hinfo : r.info = c.contractInfo) (hhist : r.history = c.contractCodeHistory)
    (h : Recorded k contracts (Function.update R a (some r)) R') : Recorded k (c :: contracts) R R' where
  old {a' r'} hr' := by
    refine h.old ?_
    rw [Function.update_of_ne, hr']
    rintro rfl
    cases hr.symm.trans hr'
  listed c' hc' := by
    rcases List.mem_cons.1 hc' with rfl | hc'
    · exact ⟨a, r, ha, hr, h.old (Function.update_self _ _ _), hinfo, hhist⟩
    · obtain ⟨a', r', ha', hnone, hr', hinfo', hhist'⟩ := h.listed c' hc'
      have hne : a' ≠ a := by
        rintro rfl
        rw [Function.update_self] at hnone
        cases hnone
      rw [Function.update_of_ne hne] at hnone
      exact ⟨a', r', ha', hnone, hr', hinfo', hhist'⟩
  only {a' r'} hr' := by
    rcases h.only hr' with hold | ⟨c', hc', hfields⟩
    · by_cases hne : a' = a
      · subst hne
        rw [Function.update_self] at hold
        cases hold
        exact .inr ⟨c, List.mem_cons_self, ha, hinfo, hhist⟩
      · rw [Function.update_of_ne hne] at hold
        exact .inl hold
    · exact .inr ⟨c', List.mem_cons_of_mem _ hc', hfields⟩

/-- What the import of all contracts leaves. -/
structure ContractsImported (k : Keeper X) (contracts : List Contract) (d d' : Durable X) : Prop where
  vm : d'.vm = d.vm
  apart : ∀ key : Bytes, key.head? ∉ [some 2, some 3, some 5, some 6, some 9] → d'.kv.get key = d.kv.get key
  codes : ∀ c ∈ contracts, (d.kv.get (getCodeKey c.contractInfo.codeID)).isSome
  state : ∀ x v, d'.kv.get (contractStorePrefix ++ x) = some v ↔ d.kv.get (contractStorePrefix ++ x) = some v ∨
    ∃ c ∈ contracts, ∃ a, k.bech32.fromBech32 c.contractAddress = .ok a ∧
      ∃ m ∈ c.contractState, x = a ++ m.key ∧ v = .bytes m.value
  records : ∀ R, Represents k.bech32 d.kv R → ∃ R', Represents k.bech32 d'.kv R' ∧ Recorded k contracts R R'

theorem ensures_importContracts (i : Nat) (contracts : List Contract) :
    Ensures (importContracts k i contracts) fun d _ d' ↦ ContractsImported k contracts d d' := by
  induction contracts generalizing i with
  | nil =>
    refine (Ensures.pure ()).mono ?_
    rintro d _ _ ⟨-, rfl⟩
    refine ⟨rfl, fun _ _ ↦ rfl, nofun, fun x v ↦ by simp, fun R hR ↦ ⟨R, hR, fun h ↦ h, nofun, .inl⟩⟩
  | cons c contracts ih =>
    refine ((Ensures.lift _).bind fun a ↦ ((ensures_importContract a c).wrapErr _).bind fun _ ↦ ih (i + 1)).mono ?_
    rintro d _ d' ⟨a, _, ⟨ha, rfl⟩, _, d₁, h₁, h₂⟩
    have ha := wrap_eq_ok.1 ha
    refine ⟨h₂.vm.trans h₁.vm, fun key hkey ↦ (h₂.apart key hkey).trans (h₁.apart key hkey), fun c' hc' ↦ ?_, fun x v ↦ ?_,
      fun R hR ↦ ?_⟩
    · rcases List.mem_cons.1 hc' with rfl | hc'
      · exact h₁.code
      · have hcode := h₂.codes c' hc'
        rwa [h₁.apart _ (by simp)] at hcode
    · rw [h₂.state, h₁.state, or_assoc, List.exists_mem_cons_iff]
      simp [ha]
    · obtain ⟨hr, r, hinfo, hhist, hR₁⟩ := h₁.records R hR
      obtain ⟨R', hR', hrec⟩ := h₂.records _ hR₁
      exact ⟨R', hR', hrec.cons ha hr hinfo hhist⟩

end Contracts

section Sequences

/-- What the import of sequences leaves: an entry under each of their keys, whatever family the key belongs to. -/
structure SequencesImported (seqs : List Sequence) (d d' : Durable X) : Prop where
  vm : d'.vm = d.vm
  fresh : ∀ s ∈ seqs, d.kv.get s.idKey = none
  rows : OrderedStore.Adds (fun key v ↦ ∃ s ∈ seqs, key = s.idKey ∧ v = .bytes (uint64ToBigEndian s.value)) d.kv d'.kv

theorem ensures_importSequences (i : Nat) (seqs : List Sequence) :
    Ensures (importSequences k i seqs) fun d _ d' ↦ SequencesImported seqs d d' := by
  induction seqs generalizing i with
  | nil =>
    refine (Ensures.pure ()).mono ?_
    rintro d _ _ ⟨-, rfl⟩
    exact ⟨rfl, nofun, (OrderedStore.Adds.refl _).congr fun _ _ ↦ by simp⟩
  | cons s seqs ih =>
    refine ((((Writes.hasKV k s.idKey).ensures.bind fun _ ↦ (Ensures.require _ _).bind fun _ ↦
      (Writes.setKV k _ _).ensures).wrapErr _).bind fun _ ↦ ih (i + 1)).mono ?_
    rintro _ _ d' ⟨_, _, ⟨_, _, ⟨rfl, rfl⟩, _, d, ⟨hfree, rfl⟩, rfl⟩, hvm, hnone, hadds⟩
    have hset := OrderedStore.Adds.set d.kv (by simpa using hfree) (.bytes (uint64ToBigEndian s.value))
    refine ⟨hvm, fun s' hs' ↦ ?_, (hset.trans hadds).congr fun key v ↦ ?_⟩
    · rcases List.mem_cons.1 hs' with rfl | hs'
      · simpa using hfree
      · rw [Option.eq_none_iff_forall_ne_some]
        intro v hv
        cases (hnone s' hs').symm.trans (hset.get_of_some hv)
    · simp only [List.exists_mem_cons_iff]

theorem ensures_peekAutoIncrementID (key : Bytes) : Ensures (peekAutoIncrementID k key) fun d n d' ↦
    parseSequence (d.kv.get key) = .ok n ∧ d' = d := by
  refine ((Writes.getKV k key).ensures.bind fun v ↦ (Writes.liftPanic (parseSequence v)).ensures).mono ?_
  rintro d n d' ⟨_, _, ⟨rfl, rfl⟩, hn, rfl⟩
  exact ⟨hn, rfl⟩

theorem ensures_peekClassicAddress (codeID : UInt64) : Ensures (peekClassicAddress k codeID) fun d a d' ↦
    (∃ n, parseSequence (d.kv.get keySequenceInstanceID) = .ok n ∧ a = buildContractAddressClassic k codeID n) ∧
      d' = d := by
  have hdraw := (ensures_peekAutoIncrementID (k := k) keySequenceInstanceID).bind fun n ↦
    (Writes.setKV k keySequenceInstanceID (.bytes (uint64ToBigEndian (n + 1)))).ensures.bind fun _ ↦
    Ensures.pure (buildContractAddressClassic k codeID n)
  refine (hdraw.discarding ?_).mono ?_
  · rintro d _ d' ⟨n, _, ⟨-, rfl⟩, _, _, rfl, -, rfl⟩
    rfl
  · rintro d _ _ ⟨⟨_, n, _, ⟨hn, rfl⟩, _, _, rfl, rfl, -⟩, rfl⟩
    exact ⟨⟨n, hn, rfl⟩, rfl⟩

/-- What the last checks have seen: a code sequence above the ids, and one free address. -/
structure SequencesChecked (k : Keeper X) (maxCodeID : UInt64) (d : Durable X) : Prop where
  codes : ∃ n, parseSequence (d.kv.get keySequenceCodeID) = .ok n ∧ maxCodeID < n
  instances : ∃ n, parseSequence (d.kv.get keySequenceInstanceID) = .ok n ∧
    d.kv.get (getContractAddressKey (buildContractAddressClassic k n n)) = none

theorem ensures_checkSequences (maxCodeID : UInt64) : Ensures (checkSequences k maxCodeID) fun d _ d' ↦ d' = d ∧
    SequencesChecked k maxCodeID d := by
  refine ((ensures_peekAutoIncrementID _).bind fun n ↦ (Ensures.require _ _).bind fun _ ↦
    (ensures_peekAutoIncrementID _).bind fun n ↦ (ensures_peekClassicAddress n).bind fun a ↦
    (Writes.hasKV k _).ensures.bind fun _ ↦ Ensures.require _ _).mono ?_
  rintro d _ _ ⟨n, _, ⟨hn, rfl⟩, _, _, ⟨hlt, rfl⟩, m, _, ⟨hm, rfl⟩, _, _, ⟨⟨m', hm', rfl⟩, rfl⟩, _, _, ⟨rfl, rfl⟩, hfree, rfl⟩
  cases hm.symm.trans hm'
  exact ⟨rfl, ⟨n, hn, of_decide_eq_true hlt⟩, m, hm, by simpa using hfree⟩

end Sequences

/-- The four parts of an import, one after the other. -/
theorem ensures_initGenesis (g : GenesisState) : Ensures (initGenesis k g) fun d _ d' ↦ ∃ m d₁ d₂,
    CodesImported k g.codes (d.withKV (d.kv.set paramsKey (.params g.params))) d₁ ∧ (∀ c ∈ g.codes, c.codeID ≤ m) ∧
    ContractsImported k g.contracts d₁ d₂ ∧ SequencesImported g.sequences d₂ d' ∧ SequencesChecked k m d' := by
  refine ((Writes.setKV k _ _).ensures.bind fun _ ↦ (ensures_importCodes 0 0 g.codes).bind fun m ↦
    (ensures_importContracts 0 g.contracts).bind fun _ ↦ (ensures_importSequences 0 g.sequences).bind fun _ ↦
    ensures_checkSequences m).mono ?_
  rintro d _ _ ⟨_, _, rfl, m, d₁, ⟨hcodes, -, hle, -⟩, _, d₂, hcontracts, _, d₃, hseqs, rfl, hchecked⟩
  exact ⟨m, d₁, d₂, hcodes, hle, hcontracts, hseqs, hchecked⟩

end Cosmwasgo.Registry
