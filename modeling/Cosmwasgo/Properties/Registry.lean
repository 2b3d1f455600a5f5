import Cosmwasgo.Registry.Iteration
import Cosmwasgo.Registry.Preservation

namespace Cosmwasgo.Properties

open Cosmwasgo.Lib Cosmwasgo.Types Cosmwasgo.State Cosmwasgo.Keeper Cosmwasgo.Runs Cosmwasgo.Registry

variable {X : Type} {k : Keeper X}

/-- When the code of a contract was last updated, by its history. -/
def LastUpdate (kv : KVStore) (a : AccAddress) (pos : AbsoluteTxPosition) : Prop :=
  ∃ last, lastHistory kv a = some (.history last) ∧ last.updated = some pos

/-- When a contract was created, by its info. -/
def CreatedAt (kv : KVStore) (a : AccAddress) (pos : AbsoluteTxPosition) : Prop :=
  ∃ info, kv.get (getContractAddressKey a) = some (.contractInfo info) ∧ info.created = some pos

/-- The history and the indexes say about a contract what its info says. -/
def Indexed (k : Keeper X) (kv : KVStore) (a : AccAddress) (info : ContractInfo) : Prop :=
  ∃ last updated created creator head,
    lastHistory kv a = some (.history last) ∧ last.updated = some updated ∧ last.codeID = info.codeID ∧
    (∃ code, kv.get (getCodeKey info.codeID) = some (.codeInfo code)) ∧
    kv.get (getContractByCreatedSecondaryIndexKey a info.codeID updated) = some (.bytes []) ∧
    info.created = some created ∧ k.bech32.fromBech32 info.creator = .ok creator ∧
    getContractsByCreatorPrefix creator = some head ∧
    kv.get (getContractByCreatorSecondaryIndexKey head created a) = some (.bytes [])

/-- An iterator comes to exactly the contracts with the property, to each once, in the order of their positions. -/
def Visits (m : M X (List AccAddress)) (w : World X) (P : AccAddress → Prop)
    (at_ : AccAddress → AbsoluteTxPosition → Prop) : Prop :=
  ∃ l, Returns m w l ∧ l.Nodup ∧ (∀ a, a ∈ l ↔ P a) ∧
    l.Pairwise fun a a' ↦ ∀ p p', at_ a p → at_ a' p' → p'.lessThan p = false

/-- The contract is stored with an info of which the property holds. -/
def StoredWith (kv : KVStore) (P : ContractInfo → Prop) (a : AccAddress) : Prop :=
  ∃ info, kv.get (getContractAddressKey a) = some (.contractInfo info) ∧ P info

structure RegistryInvariant (k : Keeper X) (d : Durable X) : Prop where
  history : ∀ a, a.length = contractAddrLen →
    ((d.kv.get (getContractAddressKey a)).isSome ↔
      historyEntries (d.kv.scan (getContractCodeHistoryElementPrefix a)) ≠ [])
  byCode : ∀ a, a.length = contractAddrLen →
    ((d.kv.get (getContractAddressKey a)).isSome ↔
      (entriesEndingIn d.kv contractByCodeIDAndCreatedSecondaryIndexPrefix a).length = 1)
  byCreator : ∀ a, a.length = contractAddrLen →
    ((d.kv.get (getContractAddressKey a)).isSome ↔ (entriesEndingIn d.kv contractsByCreatorPrefix a).length = 1)
  contract : ∀ a v, d.kv.get (getContractAddressKey a) = some v →
    ∃ info, v = .contractInfo info ∧ a.length = contractAddrLen ∧ Indexed k d.kv a info
  iterateByCode : ∀ codeID (w : World X), durable w = d →
    Visits (iterateContractsByCode k codeID) w (StoredWith d.kv (·.codeID = codeID)) (LastUpdate d.kv)
  iterateByCreator : ∀ creator (w : World X), durable w = d → k.bech32.valid creator = true →
    Visits (iterateContractsByCreator k creator) w
      (StoredWith d.kv fun info ↦ k.bech32.fromBech32 info.creator = .ok creator) (CreatedAt d.kv)

/-- What the iterator over a creator's part of the index comes to, when this part has an entry for each contract. -/
theorem visits_creator_of_rows {w : World X} {creator : AccAddress} {head : Bytes}
    (hhead : getContractsByCreatorPrefix creator = some head) {row : AccAddress → AbsoluteTxPosition → Prop}
    (hes : ∀ x v, (x, v) ∈ w.store.kv.scan head ↔ ∃ a pos, row a pos ∧ x = pos.bytes ++ a ∧ v = .bytes [])
    (huniq : ∀ {a p q}, row a p → row a q → p = q) {P : AccAddress → Prop} {at_ : AccAddress → AbsoluteTxPosition → Prop}
    (hrow : ∀ a pos, row a pos ↔ P a ∧ at_ a pos) (hat : ∀ a, P a → ∃ pos, at_ a pos) :
    Visits (iterateContractsByCreator k creator) w P at_ := by
  obtain ⟨l, hl, hnodup, hmem, hord⟩ := visits_of_rows (OrderedStore.scan_sorted _ _) hes huniq
  have hP : ∀ a, a ∈ l ↔ P a := by
    intro a
    rw [hmem]
    constructor
    · rintro ⟨pos, h⟩
      exact ((hrow a pos).1 h).1
    · intro h
      obtain ⟨pos, hpos⟩ := hat a h
      exact ⟨pos, (hrow a pos).2 ⟨h, hpos⟩⟩
  refine ⟨l, ?_, hnodup, hP, ?_⟩
  · have hread := returns_iterateKV k head w
    have hfirst : iterateContractsByCreator k creator =
        (iterateKV k head >>= fun es ↦ liftPanic (indexAddresses es)) := by
      simp only [iterateContractsByCreator, mustCreatorPrefix, hhead, Program.pure_bind]
    rw [hfirst]
    exact hread.bind_pure (by rw [hl]; rfl)
  · refine hord.imp_of_mem fun {a a'} ha ha' h p p' hp hp' ↦ ?_
    exact h p p' ((hrow a p).2 ⟨(hP a).1 ha, hp⟩) ((hrow a' p').2 ⟨(hP a').1 ha', hp'⟩)

section Records

variable {kv : KVStore} {R : AccAddress → Option (ContractRecord k.bech32)} {a : AccAddress}
  (hR : Represents k.bech32 kv R) (hs : ∀ a r, R a = some r → Sound kv a r)
include hR

theorem isSome_info : (kv.get (getContractAddressKey a)).isSome ↔ (R a).isSome := by
  rw [hR.get_info, Option.isSome_map]

theorem historyEntries_ne_nil :
    historyEntries (kv.scan (getContractCodeHistoryElementPrefix a)) ≠ [] ↔ (R a).isSome := by
  rw [Represents.historyEntries_scan hR.histories, numbered, Ne, List.mapIdx_eq_nil_iff]
  rcases hr : R a with _ | r
  · simp [Represents.historyOf_none hr]
  · simp [Represents.historyOf_some hr, r.history_ne_nil]

theorem lastUpdate_iff {r : ContractRecord k.bech32} (hr : R a = some r) (pos : AbsoluteTxPosition) :
    LastUpdate kv a pos ↔ r.updated = pos := by
  unfold LastUpdate
  rw [lastHistory, Represents.lastHistory_some hR.histories hr]
  constructor
  · rintro ⟨last, hlast, hpos⟩
    cases hlast
    exact Option.some.inj (r.updated_eq.symm.trans hpos)
  · rintro rfl
    exact ⟨r.last, rfl, r.updated_eq⟩

include hs

theorem indexed_of_record {r : ContractRecord k.bech32} (hr : R a = some r) : Indexed k kv a r.info := by
  have hsound := hs a r hr
  refine ⟨r.last, r.updated, r.entered, r.creator, _, ?_, r.updated_eq, hsound.current, hsound.code, ?_,
    hsound.created, r.creator_eq, r.creatorPrefix, ?_⟩
  · exact Represents.lastHistory_some hR.histories hr
  · rw [byCodeKey_eq, ← hsound.current]
    exact (hR.byCode _ _).2 ⟨a, r, hr, rfl, rfl⟩
  · rw [byCreatorKey_eq r _ _ r.creatorPrefix]
    exact (hR.byCreator _ _).2 ⟨a, r, hr, rfl, rfl⟩

theorem createdAt_iff {r : ContractRecord k.bech32} (hr : R a = some r) (pos : AbsoluteTxPosition) :
    CreatedAt kv a pos ↔ r.entered = pos := by
  have hsound := hs a r hr
  constructor
  · rintro ⟨info, hinfo, hpos⟩
    obtain ⟨r', hr', rfl⟩ := hR.get_info_eq_some.1 hinfo
    obtain rfl := Option.some.inj (hr.symm.trans hr')
    exact Option.some.inj (hsound.created.symm.trans hpos)
  · rintro rfl
    exact ⟨r.info, hR.get_info_eq_some.2 ⟨r, hr, rfl⟩, hsound.created⟩

/-- The by-code iterator follows the records. -/
theorem visits_byCode {w : World X} (hw : w.store.kv = kv) (codeID : UInt64) :
    Visits (iterateContractsByCode k codeID) w (StoredWith kv (·.codeID = codeID)) (LastUpdate kv) := by
  have hes := Represents.mem_scan_byCode hR.byCode codeID
  obtain ⟨l, hl, hnodup, hmem, hord⟩ := visits_of_rows (OrderedStore.scan_sorted _ _) hes (by
    rintro a p q ⟨r, hr, -, rfl⟩ ⟨r', hr', -, rfl⟩
    rw [Option.some.inj (hr.symm.trans hr')])
  refine ⟨l, ?_, hnodup, fun a ↦ (hmem a).trans ?_, ?_⟩
  · have hread := returns_iterateKV k (getContractByCodeIDSecondaryIndexPrefix codeID) w
    rw [hw] at hread
    exact hread.bind_pure (f := fun es ↦ liftPanic (indexAddresses es)) (by rw [hl]; rfl)
  · constructor
    · rintro ⟨pos, r, hr, hid, -⟩
      exact ⟨r.info, hR.get_info_eq_some.2 ⟨r, hr, rfl⟩, (hs a r hr).current.symm.trans hid⟩
    · rintro ⟨info, hinfo, hid⟩
      obtain ⟨r, hr, rfl⟩ := hR.get_info_eq_some.1 hinfo
      exact ⟨r.updated, r, hr, (hs a r hr).current.trans hid, rfl⟩
  · refine hord.imp_of_mem fun {a a'} ha ha' h p p' hp hp' ↦ ?_
    obtain ⟨pos, r, hr, hid, -⟩ := (hmem a).1 ha
    obtain ⟨pos', r', hr', hid', -⟩ := (hmem a').1 ha'
    exact h p p' ⟨r, hr, hid, (lastUpdate_iff hR hr p).1 hp⟩ ⟨r', hr', hid', (lastUpdate_iff hR hr' p').1 hp'⟩

/-- The by-creator iterator follows the records. -/
theorem visits_byCreator {w : World X} (hw : w.store.kv = kv) {creator : AccAddress}
    (hv : k.bech32.valid creator = true) :
    Visits (iterateContractsByCreator k creator) w
      (StoredWith kv fun info ↦ k.bech32.fromBech32 info.creator = .ok creator) (CreatedAt kv) := by
  have hhead := creatorPrefix_of_valid hv
  have hes := Represents.mem_scan_byCreator hR.byCreator hv hhead
  rw [← hw] at hes
  refine visits_creator_of_rows hhead hes ?_ (fun a pos ↦ ?_) ?_
  · rintro a p q ⟨r, hr, -, rfl⟩ ⟨r', hr', -, rfl⟩
    rw [Option.some.inj (hr.symm.trans hr')]
  · constructor
    · rintro ⟨r, hr, rfl, rfl⟩
      exact ⟨⟨r.info, hR.get_info_eq_some.2 ⟨r, hr, rfl⟩, r.creator_eq⟩, (createdAt_iff hR hs hr _).2 rfl⟩
    · rintro ⟨⟨info, hinfo, hc⟩, hat⟩
      obtain ⟨r, hr, rfl⟩ := hR.get_info_eq_some.1 hinfo
      exact ⟨r, hr, Except.ok.inj (r.creator_eq.symm.trans hc), (createdAt_iff hR hs hr pos).1 hat⟩
  · intro a ⟨info, hinfo, _⟩
    obtain ⟨r, hr, rfl⟩ := hR.get_info_eq_some.1 hinfo
    exact ⟨r.entered, (createdAt_iff hR hs hr _).2 rfl⟩

end Records

/-- In every reachable state the infos, the histories and both indexes tell of the same contracts, and the
iterators over the indexes come to the contracts the infos name, in order. -/
theorem registry_invariant {d : Durable X} (hd : Reachable k d) : RegistryInvariant k d := by
  obtain ⟨R, hR, hs⟩ := HasRegistry.of_reachable hd
  have hlen : ∀ a r, R a = some r → a.length = contractAddrLen := fun a r hr ↦ (hs a r hr).length
  refine ⟨fun a _ ↦ ?_, fun a ha ↦ ?_, fun a ha ↦ ?_, fun a v hv ↦ ?_, ?_, ?_⟩
  · exact (isSome_info hR).trans (historyEntries_ne_nil hR).symm
  · refine (isSome_info hR).trans (length_entriesEndingIn hR.byCode (fun r ↦
      uint64ToBigEndian r.last.codeID ++ r.updated.bytes) (fun a r x v ↦ Iff.rfl) hlen ha).symm
  · refine (isSome_info hR).trans (length_entriesEndingIn hR.byCreator (fun r ↦
      Fin.ofNat 256 r.creator.length :: (r.creator ++ r.entered.bytes)) (fun a r x v ↦ Iff.rfl) hlen ha).symm
  · rw [hR.get_info, Option.map_eq_some_iff] at hv
    obtain ⟨r, hr, rfl⟩ := hv
    exact ⟨r.info, rfl, hlen a r hr, indexed_of_record hR hs hr⟩
  · intro codeID w hw
    exact visits_byCode hR hs (congrArg Durable.kv hw) codeID
  · intro creator w hw hv
    exact visits_byCreator hR hs (congrArg Durable.kv hw) hv

/-- One code and one contract on a devnet. -/
theorem registry_invariant_devnet :
    let d := kept idleContract aliceInstantiates (kept idleContract aliceStores (durable openWorld))
    (d.kv.get (getContractAddressKey (buildContractAddressClassic (devnet idleContract) 1 1))).isSome ∧
      RegistryInvariant (devnet idleContract) d := by
  refine ⟨by decide +kernel, registry_invariant ?_⟩
  exact (reachable_open.kept aliceStores).kept aliceInstantiates

end Cosmwasgo.Properties
