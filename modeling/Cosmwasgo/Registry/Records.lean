import Cosmwasgo.Lib.Catalog
import Cosmwasgo.Keeper.Registry

namespace Cosmwasgo.Registry

open Cosmwasgo.Lib Cosmwasgo.Types Cosmwasgo.State Cosmwasgo.Keeper

/-- What the module knows about a contract, and what its index entries are made of: the last entry of the
history with its position, the position of the first one, and the address of the creator. -/
structure ContractRecord (b : Bech32) where
  info : ContractInfo
  history : List ContractCodeHistoryEntry
  last : ContractCodeHistoryEntry
  updated : AbsoluteTxPosition
  entered : AbsoluteTxPosition
  creator : AccAddress
  last_eq : history.getLast? = some last
  updated_eq : last.updated = some updated
  entered_eq : history.head?.bind (·.updated) = some entered
  creator_eq : b.fromBech32 info.creator = .ok creator
  fits : history.length < 2 ^ 64

variable {b : Bech32}

def infoRow (a : AccAddress) (r : ContractRecord b) (x : Bytes) (v : Value) : Prop := x = a ∧ v = .contractInfo r.info

/-- Histories are numbered from one. -/
def historyRow (a : AccAddress) (r : ContractRecord b) (x : Bytes) (v : Value) : Prop :=
  ∃ i e, r.history[i]? = some e ∧ x = a ++ bigEndian 8 (i + 1) ∧ v = .history e

def byCodeRow (a : AccAddress) (r : ContractRecord b) (x : Bytes) (v : Value) : Prop :=
  x = uint64ToBigEndian r.last.codeID ++ r.updated.bytes ++ a ∧ v = .bytes []

def byCreatorRow (a : AccAddress) (r : ContractRecord b) (x : Bytes) (v : Value) : Prop :=
  x = Fin.ofNat 256 r.creator.length :: (r.creator ++ r.entered.bytes ++ a) ∧ v = .bytes []

@[simp] theorem length_bytes (p : AbsoluteTxPosition) : p.bytes.length = 16 := by
  simp [AbsoluteTxPosition.bytes]

theorem bytes_injective {p q : AbsoluteTxPosition} (h : p.bytes = q.bytes) : p = q := by
  obtain ⟨hb, ht⟩ := List.append_inj h (by simp)
  have hb := UInt64.toNat_inj.1 (bigEndian_injective p.blockHeight.toNat_lt q.blockHeight.toNat_lt hb)
  have ht := UInt64.toNat_inj.1 (bigEndian_injective p.txIndex.toNat_lt q.txIndex.toNat_lt ht)
  cases p
  cases q
  simp_all

/-- The order of the positions is that of their bytes. -/
theorem bytes_lt {p q : AbsoluteTxPosition} (h : p.lessThan q = true) : p.bytes < q.bytes := by
  unfold AbsoluteTxPosition.bytes
  simp only [AbsoluteTxPosition.lessThan, Bool.or_eq_true, Bool.and_eq_true, beq_iff_eq, decide_eq_true_eq] at h
  rcases h with hlt | ⟨heq, hlt⟩
  · have hb := bigEndian_lt (w := 8) (UInt64.lt_iff_toNat_lt.1 hlt) q.blockHeight.toNat_lt
    exact append_lt_append_of_lt (by simp) hb _ _
  · rw [heq]
    exact (append_lt_append_iff _).2 (bigEndian_lt (w := 8) (UInt64.lt_iff_toNat_lt.1 hlt) q.txIndex.toNat_lt)

theorem not_lessThan_of_lt {p q : AbsoluteTxPosition} {x y : Bytes} (h : p.bytes ++ x < q.bytes ++ y) :
    q.lessThan p = false := by
  rcases hqp : q.lessThan p with _ | _
  · rfl
  · have hlt := append_lt_append_of_lt (by simp) (bytes_lt hqp) y x
    exact absurd (hlt.trans h) (lt_irrefl _)

theorem owns_info : Owns (infoRow (b := b)) := by
  rintro a r x v a' r' v' ⟨rfl, -⟩ ⟨h, -⟩
  exact h

theorem owns_history : Owns (historyRow (b := b)) := by
  rintro a r x v a' r' v' ⟨i, e, -, rfl, -⟩ ⟨i', e', -, h, -⟩
  exact (List.append_inj' h (by simp)).1

theorem owns_byCode : Owns (byCodeRow (b := b)) := by
  rintro a r x v a' r' v' ⟨rfl, -⟩ ⟨h, -⟩
  exact (List.append_inj h (by simp)).2

/-- The prefix of a creator's part of the index has their length in front. -/
theorem creatorPrefix_of_valid {creator : AccAddress} (h : b.valid creator = true) :
    getContractsByCreatorPrefix creator =
      some (contractsByCreatorPrefix ++ (Fin.ofNat 256 creator.length :: creator)) := by
  obtain ⟨hne, hle⟩ := b.valid_length h
  rw [getContractsByCreatorPrefix, lengthPrefix, if_neg hne, if_pos hle]
  rfl

namespace ContractRecord

variable (r : ContractRecord b)

theorem creator_length : r.creator.length < 256 := by
  have h := (b.valid_length (b.fromBech32_valid r.creator_eq)).2
  omega

theorem creatorPrefix : getContractsByCreatorPrefix r.creator =
    some (contractsByCreatorPrefix ++ (Fin.ofNat 256 r.creator.length :: r.creator)) :=
  creatorPrefix_of_valid (b.fromBech32_valid r.creator_eq)

theorem history_ne_nil : r.history ≠ [] := by
  intro h
  have hl := r.last_eq
  rw [h] at hl
  cases hl

/-- The info and the history tell everything else. -/
theorem eq_of_info_of_history {r r' : ContractRecord b} (hinfo : r.info = r'.info) (hhist : r.history = r'.history) :
    r = r' := by
  cases r with
  | mk info history last updated entered creator last_eq updated_eq entered_eq creator_eq fits =>
    cases r' with
    | mk info' history' last' updated' entered' creator' last_eq' updated_eq' entered_eq' creator_eq' fits' =>
      dsimp only at hinfo hhist
      subst hinfo hhist
      obtain rfl : last = last' := Option.some.inj (last_eq.symm.trans last_eq')
      obtain rfl : updated = updated' := Option.some.inj (updated_eq.symm.trans updated_eq')
      obtain rfl : entered = entered' := Option.some.inj (entered_eq.symm.trans entered_eq')
      obtain rfl : creator = creator' := Except.ok.inj (creator_eq.symm.trans creator_eq')
      rfl

end ContractRecord

/-- The length byte tells where a creator's address ends. -/
theorem creator_append_inj {c c' x x' : Bytes} (hc : c.length < 256) (hc' : c'.length < 256)
    (h : (Fin.ofNat 256 c.length : Byte) :: (c ++ x) = Fin.ofNat 256 c'.length :: (c' ++ x')) : c = c' ∧ x = x' := by
  obtain ⟨hlen, happ⟩ := List.cons.inj h
  have hlen : c.length = c'.length := by
    have hval := congrArg Fin.val hlen
    simp only [Fin.ofNat] at hval
    rwa [Nat.mod_eq_of_lt hc, Nat.mod_eq_of_lt hc'] at hval
  exact List.append_inj happ hlen

theorem owns_byCreator : Owns (byCreatorRow (b := b)) := by
  rintro a r x v a' r' v' ⟨rfl, -⟩ ⟨h, -⟩
  rw [List.append_assoc, List.append_assoc] at h
  have hx := (creator_append_inj r.creator_length r'.creator_length h).2
  exact (List.append_inj hx (by simp)).2

/-- The four key families that make up the registry hold exactly what belongs to the records. -/
structure Represents (b : Bech32) (kv : KVStore) (R : AccAddress → Option (ContractRecord b)) : Prop where
  infos : Lists kv contractKeyPrefix infoRow R
  histories : Lists kv contractCodeHistoryElementPrefix historyRow R
  byCode : Lists kv contractByCodeIDAndCreatedSecondaryIndexPrefix byCodeRow R
  byCreator : Lists kv contractsByCreatorPrefix byCreatorRow R

/-- A key of one of the four families. -/
def IsRegistryKey (key : Bytes) : Prop := key.head? ∈ [some 2, some 5, some 6, some 9]

namespace Represents

variable {kv kv' : KVStore} {R : AccAddress → Option (ContractRecord b)}

theorem empty : Represents b .empty fun _ ↦ none := ⟨.empty _ _, .empty _ _, .empty _ _, .empty _ _⟩

theorem congr (h : Represents b kv R) (hk : ∀ key, IsRegistryKey key → kv'.get key = kv.get key) :
    Represents b kv' R where
  infos := h.infos.congr fun x ↦ hk _ (by simp [IsRegistryKey, contractKeyPrefix])
  histories := h.histories.congr fun x ↦ hk _ (by simp [IsRegistryKey, contractCodeHistoryElementPrefix])
  byCode := h.byCode.congr fun x ↦ hk _ (by simp [IsRegistryKey, contractByCodeIDAndCreatedSecondaryIndexPrefix])
  byCreator := h.byCreator.congr fun x ↦ hk _ (by simp [IsRegistryKey, contractsByCreatorPrefix])

/-- Stores of the same records agree on the four families. -/
theorem get_eq (h : Represents b kv R) (h' : Represents b kv' R) {key : Bytes} (hkey : IsRegistryKey key) :
    kv'.get key = kv.get key := by
  cases key with
  | nil => simp [IsRegistryKey] at hkey
  | cons n x =>
    simp only [IsRegistryKey, List.head?_cons, List.mem_cons, Option.some.injEq, List.not_mem_nil, or_false] at hkey
    rcases hkey with rfl | rfl | rfl | rfl
    · exact h.infos.get_eq h'.infos x
    · exact h.histories.get_eq h'.histories x
    · exact h.byCode.get_eq h'.byCode x
    · exact h.byCreator.get_eq h'.byCreator x

theorem get_info (h : Represents b kv R) (a : AccAddress) :
    kv.get (getContractAddressKey a) = (R a).map (.contractInfo ·.info) := by
  refine Option.ext fun v ↦ (h.infos a v).trans ?_
  rw [Option.map_eq_some_iff]
  constructor
  · rintro ⟨a', r, hr, rfl, rfl⟩
    exact ⟨r, hr, rfl⟩
  · rintro ⟨r, hr, rfl⟩
    exact ⟨a, r, hr, rfl, rfl⟩

theorem get_info_eq_none (h : Represents b kv R) {a : AccAddress} :
    kv.get (getContractAddressKey a) = none ↔ R a = none := by
  rw [h.get_info, Option.map_eq_none_iff]

theorem get_info_eq_some (h : Represents b kv R) {a : AccAddress} {info : ContractInfo} :
    kv.get (getContractAddressKey a) = some (.contractInfo info) ↔ ∃ r, R a = some r ∧ r.info = info := by
  rw [h.get_info, Option.map_eq_some_iff]
  simp

end Represents

/-- A history as the store lists it below the contract's address. -/
def numbered (es : List ContractCodeHistoryEntry) : List (Bytes × Value) :=
  es.mapIdx fun i e ↦ (bigEndian 8 (i + 1), .history e)

theorem mem_numbered {es : List ContractCodeHistoryEntry} {x : Bytes} {v : Value} :
    (x, v) ∈ numbered es ↔ ∃ i e, es[i]? = some e ∧ x = bigEndian 8 (i + 1) ∧ v = .history e := by
  rw [numbered, List.mem_mapIdx]
  constructor
  · rintro ⟨i, hi, he⟩
    cases he
    exact ⟨i, es[i], List.getElem?_eq_getElem hi, rfl, rfl⟩
  · rintro ⟨i, e, he, rfl, rfl⟩
    obtain ⟨hi, rfl⟩ := List.getElem?_eq_some_iff.1 he
    exact ⟨i, hi, rfl⟩

theorem numbered_sorted {es : List ContractCodeHistoryEntry} (h : es.length < 2 ^ 64) :
    (numbered es).Pairwise KeyLT := by
  rw [List.pairwise_iff_getElem]
  intro i j hi hj hij
  simp only [numbered, List.length_mapIdx] at hi hj
  simp only [numbered, List.getElem_mapIdx, KeyLT]
  exact bigEndian_lt (by omega) (by omega)

theorem getLast?_numbered (es : List ContractCodeHistoryEntry) :
    (numbered es).getLast? = es.getLast?.map fun e ↦ (bigEndian 8 es.length, .history e) := by
  rw [List.getLast?_eq_getElem?, List.getLast?_eq_getElem?, numbered, List.length_mapIdx, List.getElem?_mapIdx]
  rcases es with _ | ⟨e, es⟩
  · rfl
  · simp

theorem mapM_unmarshalHistory (es : List ContractCodeHistoryEntry) :
    ((numbered es).mapM fun e ↦ unmarshalHistory e.2) = .ok es := by
  rw [mapM_eq_ok, List.forall₂_iff_get]
  refine ⟨by simp [numbered], fun i _ _ ↦ ?_⟩
  simp [numbered, unmarshalHistory]

/-- The history section of the store holds one list for each address, its entries numbered from one. -/
structure Histories (kv : KVStore) (H : AccAddress → List ContractCodeHistoryEntry) : Prop where
  fits : ∀ a, (H a).length < 2 ^ 64
  get : ∀ x v, kv.get (contractCodeHistoryElementPrefix ++ x) = some v ↔
    ∃ a i e, (H a)[i]? = some e ∧ x = a ++ bigEndian 8 (i + 1) ∧ v = .history e

namespace Histories

variable {kv : KVStore} {H : AccAddress → List ContractCodeHistoryEntry}

/-- The entries below an address that are its own, whatever addresses begin with it. -/
theorem entries_scan (h : Histories kv H) (a : AccAddress) :
    historyEntries (kv.scan (getContractCodeHistoryElementPrefix a)) = numbered (H a) := by
  refine OrderedStore.eq_of_sorted_of_mem ((OrderedStore.scan_sorted _ _).filter _) (numbered_sorted (h.fits a)) ?_
  rintro ⟨x, v⟩
  rw [historyEntries, List.mem_filter, OrderedStore.mem_scan, mem_numbered, getContractCodeHistoryElementPrefix,
    List.append_assoc, h.get]
  constructor
  · rintro ⟨⟨a', i, e, he, hx, rfl⟩, hlen⟩
    -- eight bytes at the end of the key leave the same address in front
    obtain ⟨rfl, rfl⟩ := List.append_inj' hx (by simpa using hlen)
    exact ⟨i, e, he, rfl, rfl⟩
  · rintro ⟨i, e, he, rfl, rfl⟩
    exact ⟨⟨a, i, e, he, rfl, rfl⟩, by simp⟩

theorem lastPosition_scan (h : Histories kv H) (a : AccAddress) :
    lastPosition (kv.scan (getContractCodeHistoryElementPrefix a)) = UInt64.ofNat (H a).length := by
  have hfit := h.fits a
  rw [lastPosition, h.entries_scan, getLast?_numbered]
  rcases hl : (H a).getLast? with _ | e
  · rw [List.getLast?_eq_none_iff.1 hl]
    rfl
  · simp only [Option.map_some, bigEndianToUint64]
    rw [List.take_of_length_le (by simp), ofBigEndian_bigEndian_of_lt (by simpa using hfit)]

end Histories

namespace Represents

variable {kv kv' : KVStore} {R : AccAddress → Option (ContractRecord b)} {a : AccAddress}

/-- The history on record for an address. -/
def historyOf (R : AccAddress → Option (ContractRecord b)) (a : AccAddress) : List ContractCodeHistoryEntry :=
  ((R a).map (·.history)).getD []

theorem historyOf_some {r : ContractRecord b} (hr : R a = some r) : historyOf R a = r.history := by
  rw [historyOf, hr]
  rfl

theorem historyOf_none (hr : R a = none) : historyOf R a = [] := by
  rw [historyOf, hr]
  rfl

theorem length_historyOf (R : AccAddress → Option (ContractRecord b)) (a : AccAddress) :
    (historyOf R a).length < 2 ^ 64 := by
  rcases hr : R a with _ | r
  · rw [historyOf_none hr]
    decide
  · rw [historyOf_some hr]
    exact r.fits

theorem histories_historyOf (h : Lists kv contractCodeHistoryElementPrefix historyRow R) : Histories kv (historyOf R) := by
  refine ⟨length_historyOf R, fun x v ↦ (h x v).trans ⟨?_, ?_⟩⟩
  · rintro ⟨a, r, hr, i, e, he, hx, hv⟩
    exact ⟨a, i, e, by rwa [historyOf_some hr], hx, hv⟩
  · rintro ⟨a, i, e, he, hx, hv⟩
    rcases hr : R a with _ | r
    · rw [historyOf_none hr] at he
      cases he
    · rw [historyOf_some hr] at he
      exact ⟨a, r, hr, i, e, he, hx, hv⟩

theorem historyEntries_scan (h : Lists kv contractCodeHistoryElementPrefix historyRow R) (a : AccAddress) :
    historyEntries (kv.scan (getContractCodeHistoryElementPrefix a)) = numbered (historyOf R a) :=
  (histories_historyOf h).entries_scan a

theorem lastPosition_scan (h : Lists kv contractCodeHistoryElementPrefix historyRow R) (a : AccAddress) :
    lastPosition (kv.scan (getContractCodeHistoryElementPrefix a)) = UInt64.ofNat (historyOf R a).length :=
  (histories_historyOf h).lastPosition_scan a

theorem lastHistory_some (h : Lists kv contractCodeHistoryElementPrefix historyRow R) {r : ContractRecord b}
    (hr : R a = some r) :
    ((historyEntries (kv.scan (getContractCodeHistoryElementPrefix a))).getLast?).map (·.2) =
      some (.history r.last) := by
  rw [historyEntries_scan h, getLast?_numbered, historyOf_some hr, r.last_eq]
  rfl

end Represents

end Cosmwasgo.Registry
