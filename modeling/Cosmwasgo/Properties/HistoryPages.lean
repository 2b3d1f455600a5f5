import Cosmwasgo.Keeper.Querier
import Cosmwasgo.Properties.History

namespace Cosmwasgo.Properties

open Cosmwasgo.Lib Cosmwasgo.Types Cosmwasgo.State Cosmwasgo.Keeper Cosmwasgo.Runs Cosmwasgo.Registry

variable {X : Type} {k : Keeper X}

/-- The pages of a contract's history, asked for one after the other with any limits until none is left, and all
their entries. -/
inductive HistoryPages (k : Keeper X) (w : World X) (address : String) :
    Option PageRequest → List ContractCodeHistoryEntry → Prop
  | last {req : Option PageRequest} {entries : List ContractCodeHistoryEntry} {w' : World X}
      (h : contractHistory k (some ⟨address, req⟩) w = (.ok ⟨entries, none⟩, w')) : HistoryPages k w address req entries
  | more {req : Option PageRequest} {entries rest : List ContractCodeHistoryEntry} {key : Bytes} {next : PageRequest}
      {w' : World X} (h : contractHistory k (some ⟨address, req⟩) w = (.ok ⟨entries, some key⟩, w'))
      (hkey : next.key = key) (hrest : HistoryPages k w address (some next) rest) :
      HistoryPages k w address req (entries ++ rest)

/-- No key of another contract's history begins like the keys of this one. -/
def Undisturbed (H : AccAddress → List ContractCodeHistoryEntry) (a : AccAddress) : Prop :=
  ∀ a' i, i < (H a').length → a <+: a' ++ bigEndian 8 (i + 1) → a' = a

section Pages

variable {w : World X} {a : AccAddress} {address : String}

/-- The keys below the prefix of an address. -/
def historyScan (w : World X) (a : AccAddress) : List (Bytes × Value) :=
  w.store.kv.scan (getContractCodeHistoryElementPrefix a)

def ReadAs (es : List (Bytes × Value)) (entries : List ContractCodeHistoryEntry) : Prop :=
  List.Forall₂ (fun e entry ↦ e.2 = .history entry) es entries

theorem readHistory_eq_ok {v : Value} {entry : ContractCodeHistoryEntry} :
    readHistory v = .ok entry ↔ v = .history entry := by
  cases v with
  | history e =>
    constructor
    · intro h
      cases h
      rfl
    · intro h
      cases h
      rfl
  | _ => exact ⟨nofun, nofun⟩

theorem mapM_readHistory {es : List (Bytes × Value)} {entries : List ContractCodeHistoryEntry} :
    (es.mapM fun e ↦ readHistory e.2) = .ok entries ↔ ReadAs es entries := by
  rw [mapM_eq_ok, ReadAs]
  simp only [readHistory_eq_ok]

/-- One page: entries are taken from where the request starts. -/
theorem contractHistory_eq_ok (ha : k.bech32.fromBech32 address = .ok a) {req : Option PageRequest}
    {rsp : QueryContractHistoryResponse} {w' : World X}
    (h : contractHistory k (some ⟨address, req⟩) w = (.ok rsp, w')) :
    ∃ limit, 0 < limit ∧ rsp.nextKey = (paginate (historyScan w a) (startKey req) limit).nextKey ∧
      ReadAs (paginate (historyScan w a) (startKey req) limit).visited rsp.entries := by
  obtain ⟨a', w₁, haddr, h⟩ := Program.bind_eq_ok.1 h
  obtain ⟨ha', rfl⟩ := Program.lift_eq_ok.1 haddr
  obtain rfl : a = a' := Except.ok.inj (ha.symm.trans ha')
  obtain ⟨ps, w₁, hps, h⟩ := Program.bind_eq_ok.1 h
  obtain ⟨hparams, rfl⟩ := Program.lift_eq_ok.1 hps
  obtain ⟨hlimit, hstart⟩ := ensurePaginationParams_eq_ok hparams
  obtain ⟨es, w₁, hscan, h⟩ := Program.bind_eq_ok.1 h
  obtain ⟨rfl, -⟩ := (Writes.iterateKV k _).post w es w₁ hscan
  obtain ⟨entries, w₂, hread, h⟩ := Program.bind_eq_ok.1 h
  obtain ⟨hentries, rfl⟩ := Program.lift_eq_ok.1 hread
  cases h
  refine ⟨ps.limit.toNat, hlimit, ?_, ?_⟩
  · rw [← hstart]
    rfl
  · rw [← hstart]
    exact mapM_readHistory.1 hentries

theorem historyScan_sorted (w : World X) (a : AccAddress) : (historyScan w a).Pairwise KeyLT := OrderedStore.scan_sorted _ _

/-- A page never ends before the empty key. -/
theorem startKey_next {req : Option PageRequest} {limit : Nat} (hlimit : 0 < limit) {key : Bytes} {next : PageRequest}
    (hnext : (paginate (historyScan w a) (startKey req) limit).nextKey = some key) (hkey : next.key = key) :
    startKey (some next) = some key := by
  obtain ⟨e, -, hlt⟩ := exists_visited (historyScan_sorted w a) hlimit hnext
  have hne : key ≠ [] := by
    rintro rfl
    exact List.not_lt_nil _ hlt
  rw [startKey, hkey, if_neg hne]

/-- The pages of a query are pages of what the store has below the address. -/
theorem HistoryPages.pages (ha : k.bech32.fromBech32 address = .ok a) {req : Option PageRequest}
    {entries : List ContractCodeHistoryEntry} (h : HistoryPages k w address req entries) :
    ∃ all, Pages (historyScan w a) (startKey req) all ∧ ReadAs all entries := by
  induction h with
  | last h =>
    obtain ⟨limit, hlimit, hnext, hread⟩ := contractHistory_eq_ok ha h
    exact ⟨_, .last hnext.symm, hread⟩
  | more h hkey _ ih =>
    obtain ⟨limit, hlimit, hnext, hread⟩ := contractHistory_eq_ok ha h
    obtain ⟨all, hall, hrest⟩ := ih
    rw [startKey_next hlimit hnext.symm hkey] at hall
    exact ⟨_, .more hnext.symm hall, List.rel_append hread hrest⟩

end Pages

section Compare

variable {w : World X} {a : AccAddress} {H : AccAddress → List ContractCodeHistoryEntry}

/-- The keys below an address are its own exactly when no other contract's keys begin like them. -/
theorem undisturbed_iff (hH : Histories w.store.kv H) :
    Undisturbed H a ↔ ∀ e ∈ historyScan w a, (e.1.length == 8) = true := by
  constructor
  · rintro h ⟨x, v⟩ hx
    rw [historyScan, OrderedStore.mem_scan, getContractCodeHistoryElementPrefix, List.append_assoc, hH.get] at hx
    obtain ⟨a', i, e, he, hkey, -⟩ := hx
    obtain rfl := h a' i (List.getElem?_eq_some_iff.1 he).1 (hkey ▸ List.prefix_append a x)
    rw [List.append_cancel_left hkey]
    simp
  · rintro h a' i hi ⟨x, hx⟩
    have hmem : (x, Value.history (H a')[i]) ∈ historyScan w a := by
      rw [historyScan, OrderedStore.mem_scan, getContractCodeHistoryElementPrefix, List.append_assoc, hH.get]
      exact ⟨a', i, _, List.getElem?_eq_getElem hi, hx, rfl⟩
    have hlen : x.length = 8 := by simpa using h _ hmem
    exact (List.append_inj' hx (by simpa using hlen)).1.symm

theorem readAs_numbered (es : List ContractCodeHistoryEntry) : ReadAs (numbered es) es := by
  rw [ReadAs, numbered, List.forall₂_iff_get]
  refine ⟨by simp, fun i h h' ↦ ?_⟩
  simp

/-- Everything below an address is its history exactly when nothing but its history is there. -/
theorem readAs_historyScan_iff (hH : Histories w.store.kv H) {entries : List ContractCodeHistoryEntry}
    (hread : ReadAs (historyScan w a) entries) : entries = H a ↔ Undisturbed H a := by
  have hown : (historyScan w a).filter (fun e ↦ e.1.length == 8) = numbered (H a) := hH.entries_scan a
  have hlen : (numbered (H a)).length = (H a).length := (readAs_numbered (H a)).length_eq
  rw [undisturbed_iff hH]
  constructor
  · rintro rfl
    refine List.length_filter_eq_length_iff.1 ?_
    rw [hown, hlen, hread.length_eq]
  · intro hall
    rw [List.filter_eq_self.2 hall] at hown
    rw [hown] at hread
    refine List.ext_get (hread.length_eq.symm.trans hlen) fun i h h' ↦ ?_
    have h₁ := (List.forall₂_iff_get.1 hread).2 i (by omega) h
    have h₂ := (List.forall₂_iff_get.1 (readAs_numbered (H a))).2 i (by omega) h'
    exact Value.history.inj (h₁.symm.trans h₂)

end Compare

section Paging

variable {w : World X} {a : AccAddress} {address : String} {H : AccAddress → List ContractCodeHistoryEntry}

theorem exists_readAs {es : List (Bytes × Value)} (h : ∀ e ∈ es, ∃ entry, e.2 = .history entry) :
    ∃ entries, ReadAs es entries := by
  induction es with
  | nil => exact ⟨[], .nil⟩
  | cons e es ih =>
    obtain ⟨entry, he⟩ := h e List.mem_cons_self
    obtain ⟨entries, hes⟩ := ih fun e' he' ↦ h e' (List.mem_cons_of_mem _ he')
    exact ⟨entry :: entries, .cons he hes⟩

theorem ensurePaginationParams_plain (key : Bytes) (limit : UInt64) :
    ∃ ps, ensurePaginationParams (some { key, limit }) = .ok ps := by
  simp only [ensurePaginationParams]
  rw [if_neg (by simp)]
  split
  · exact ⟨_, rfl⟩
  · exact ⟨_, rfl⟩

/-- With enough gas every page is answered. -/
theorem exists_contractHistory (hH : Histories w.store.kv H) (ha : k.bech32.fromBech32 address = .ok a)
    (hw : w.meter.infinite = true) (key : Bytes) (limit : UInt64) :
    ∃ rsp w', contractHistory k (some ⟨address, some { key, limit }⟩) w = (.ok rsp, w') := by
  obtain ⟨ps, hps⟩ := ensurePaginationParams_plain key limit
  have hhistory : ∀ e ∈ (filteredPaginate (historyScan w a) ps).visited, ∃ entry, e.2 = .history entry := by
    rintro ⟨x, v⟩ he
    have hmem : (x, v) ∈ historyScan w a := (entriesFrom_suffix _ _).subset (List.mem_of_mem_take he)
    rw [historyScan, OrderedStore.mem_scan, getContractCodeHistoryElementPrefix, List.append_assoc, hH.get] at hmem
    obtain ⟨_, _, entry, -, -, hv⟩ := hmem
    exact ⟨entry, hv⟩
  obtain ⟨entries, hread⟩ := exists_readAs hhistory
  obtain hscan | ⟨hfin, -⟩ := returns_iterateKV k (getContractCodeHistoryElementPrefix a) w
  · rcases hrun : iterateKV k (getContractCodeHistoryElementPrefix a) w with ⟨o, w'⟩
    rw [hrun] at hscan
    obtain rfl : o = .ok (historyScan w a) := hscan
    refine ⟨⟨entries, (filteredPaginate (historyScan w a) ps).nextKey⟩, w', ?_⟩
    refine Program.bind_eq_ok.2 ⟨a, w, Program.lift_eq_ok.2 ⟨ha, rfl⟩, ?_⟩
    refine Program.bind_eq_ok.2 ⟨ps, w, Program.lift_eq_ok.2 ⟨hps, rfl⟩, ?_⟩
    refine Program.bind_eq_ok.2 ⟨historyScan w a, w', hrun, ?_⟩
    exact Program.bind_eq_ok.2 ⟨entries, w', Program.lift_eq_ok.2 ⟨mapM_readHistory.2 hread, rfl⟩, rfl⟩
  · rw [hw] at hfin
    cases hfin

/-- Whatever the limit is, the pages come to an end. -/
theorem exists_historyPages (hH : Histories w.store.kv H) (ha : k.bech32.fromBech32 address = .ok a)
    (hw : w.meter.infinite = true) (key : Bytes) (limit : UInt64) :
    ∃ entries, HistoryPages k w address (some { key, limit }) entries := by
  -- every page leaves fewer entries
  induction hn : (entriesFrom (historyScan w a) (startKey (some { key, limit }))).length using Nat.strong_induction_on
    generalizing key with
  | _ n ih =>
    obtain ⟨rsp, w', hrun⟩ := exists_contractHistory hH ha hw key limit
    obtain ⟨size, hsize, hnext, -⟩ := contractHistory_eq_ok ha hrun
    obtain ⟨entries, _ | next⟩ := rsp
    · exact ⟨entries, .last hrun⟩
    · obtain ⟨e, he, -⟩ := exists_visited (historyScan_sorted w a) hsize hnext.symm
      have hsplit := congrArg List.length (entriesFrom_nextKey (historyScan_sorted w a) hnext.symm)
      rw [List.length_append, hn] at hsplit
      have hpos := List.length_pos_of_mem he
      have hstart : startKey (some { key := next, limit }) = some next := startKey_next hsize hnext.symm rfl
      obtain ⟨rest, hrest⟩ := ih (entriesFrom (historyScan w a) (some next)).length (by omega) next (by rw [hstart])
      exact ⟨entries ++ rest, .more hrun rfl hrest⟩

end Paging

/-- All pages of a contract's history together are the history that the keeper knows exactly when no other contract's
keys begin like its own. -/
theorem contractHistory_pages_iff {calls : List (AccAddress × List ContractCodeHistoryEntry)} {w : World X}
    (h : HistoryRun k calls w) {a : AccAddress} {address : String} (ha : k.bech32.fromBech32 address = .ok a) :
    Returns (getContractHistory k a) w (appended calls a) ∧
    (∀ req entries, startKey req = none → HistoryPages k w address req entries →
      (entries = appended calls a ↔ Undisturbed (appended calls) a)) ∧
    (w.meter.infinite = true → ∀ limit, ∃ entries, HistoryPages k w address (some { limit }) entries) := by
  refine ⟨returns_getContractHistory h.histories a, fun req entries hreq hpages ↦ ?_,
    fun hw limit ↦ exists_historyPages h.histories ha hw [] limit⟩
  obtain ⟨all, hall, hread⟩ := hpages.pages ha
  rw [hreq] at hall
  obtain rfl : all = historyScan w a := hall.eq_entriesFrom (historyScan_sorted w a)
  exact readAs_historyScan_iff h.histories hread

/-- Two contracts whose addresses have nothing to do with each other. -/
def apartHistories : World Unit :=
  let k := plainnet idleContract
  let w := (appendToContractHistory k [8] [historyEntry 1] emptyWorld).2
  (appendToContractHistory k shortAddress [historyEntry 2, historyEntry 3] w).2

/-- A page for each entry. -/
theorem historyPages_apartHistories :
    HistoryPages (plainnet idleContract) apartHistories (plainBech32.string shortAddress) (some { limit := 1 })
      [historyEntry 2, historyEntry 3] := by
  have h₁ : (contractHistory (plainnet idleContract) (some ⟨plainBech32.string shortAddress, some { limit := 1 }⟩)
      apartHistories).1 = .ok ⟨[historyEntry 2], some (bigEndian 8 2)⟩ := by decide +kernel
  have h₂ : (contractHistory (plainnet idleContract)
      (some ⟨plainBech32.string shortAddress, some { key := bigEndian 8 2, limit := 1 }⟩) apartHistories).1 =
      .ok ⟨[historyEntry 3], none⟩ := by decide +kernel
  exact .more (Program.apply_eq h₁) rfl (.last (Program.apply_eq h₂))

theorem contractHistory_pages_apartHistories :
    Undisturbed (appended [([8], [historyEntry 1]), (shortAddress, [historyEntry 2, historyEntry 3])]) shortAddress := by
  have h₀ : HistoryRun (plainnet idleContract) [] emptyWorld := .start fun _ _ ↦ rfl
  have h₁ := h₀.next [8] [historyEntry 1] (by decide +kernel)
  have h₂ := h₁.next shortAddress [historyEntry 2, historyEntry 3] (by decide +kernel)
  have haddr : (plainnet idleContract).bech32.fromBech32 (plainBech32.string shortAddress) = .ok shortAddress := by
    decide +kernel
  obtain ⟨-, hpages, -⟩ := contractHistory_pages_iff h₂ haddr
  exact (hpages _ _ rfl historyPages_apartHistories).1 (by decide)

/-- The page of the short address lists the entries of the long one among its own. -/
theorem contractHistory_mixed_up :
    (contractHistory (plainnet idleContract) (some ⟨plainBech32.string shortAddress, none⟩) mixedHistories).1 =
      .ok ⟨[historyEntry 2, historyEntry 1, historyEntry 4, historyEntry 3], none⟩ ∧
    (getContractHistory (plainnet idleContract) shortAddress mixedHistories).1 =
      .ok [historyEntry 2, historyEntry 3] := by
  refine ⟨by decide +kernel, by decide +kernel⟩

end Cosmwasgo.Properties
