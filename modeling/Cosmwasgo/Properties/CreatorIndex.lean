import Cosmwasgo.Migrations.V1
import Cosmwasgo.Properties.Registry
import Cosmwasgo.Registry.Restore

namespace Cosmwasgo.Properties

open Cosmwasgo.Lib Cosmwasgo.Types Cosmwasgo.State Cosmwasgo.Keeper Cosmwasgo.Runs Cosmwasgo.Registry
open Cosmwasgo.Migrations

variable {X : Type} {k : Keeper X} {d d' : Durable X}

/-- A store of version 1: every contract has a creation position, and there is no index by creator. -/
structure Version1 (d : Durable X) : Prop where
  contracts : ∀ a v, d.kv.get (getContractAddressKey a) = some v →
    ∃ info pos, v = .contractInfo info ∧ info.created = some pos
  unindexed : ∀ key : Bytes, key.head? = some 9 → d.kv.get key = none

/-- The creators of all contracts can be read. -/
def CreatorsDecode (k : Keeper X) (d : Durable X) : Prop := ∀ a info,
  d.kv.get (getContractAddressKey a) = some (.contractInfo info) → ∃ creator, k.bech32.fromBech32 info.creator = .ok creator

/-- The index by creator is there, and nothing else is different. -/
structure CreatorsIndexed (k : Keeper X) (d d' : Durable X) : Prop where
  visits : ∀ creator (w : World X), durable w = d' → k.bech32.valid creator = true →
    Visits (iterateContractsByCreator k creator) w
      (StoredWith d.kv fun info ↦ k.bech32.fromBech32 info.creator = .ok creator) (CreatedAt d.kv)
  frame : ∀ key : Bytes, key.head? ≠ some 9 → d'.kv.get key = d.kv.get key

section Loop

/-- The key of an entry's contract in the index. -/
def IndexKey (k : Keeper X) (e : Bytes × Value) (key : Bytes) : Prop := ∃ info pos creator,
  e.2 = .contractInfo info ∧ info.created = some pos ∧ k.bech32.fromBech32 info.creator = .ok creator ∧
    key = contractsByCreatorPrefix ++ (Fin.ofNat 256 creator.length :: (creator ++ (pos.bytes ++ e.1)))

theorem indexKey_eq {creator : AccAddress} {head : Bytes} (hv : k.bech32.valid creator = true)
    (hhead : getContractsByCreatorPrefix creator = some head) (pos : AbsoluteTxPosition) (a : AccAddress) :
    getContractByCreatorSecondaryIndexKey head pos a =
      contractsByCreatorPrefix ++ (Fin.ofNat 256 creator.length :: (creator ++ (pos.bytes ++ a))) := by
  obtain rfl := Option.some.inj (hhead.symm.trans (creatorPrefix_of_valid hv))
  simp [getContractByCreatorSecondaryIndexKey]

theorem mustAccAddressFromBech32_eq_ok {s : String} {a : AccAddress} :
    V1.mustAccAddressFromBech32 k s = .ok a ↔ k.bech32.fromBech32 s = .ok a := by
  unfold V1.mustAccAddressFromBech32
  cases k.bech32.fromBech32 s <;> simp [Except.mapError]

/-- What the callback does for one contract. -/
theorem ensures_indexCreator (a : AccAddress) (info : ContractInfo) :
    Ensures (V1.indexCreator k () (a, info)) fun d r d' ↦ r.2 = false ∧
      ∃ key, IndexKey k (a, .contractInfo info) key ∧ d' = d.withKV (d.kv.set key (.bytes [])) := by
  intro w r w' hrun
  obtain ⟨creator, w₁, hcreator, hrun⟩ := Program.bind_eq_ok.1 hrun
  obtain ⟨_, w₂, hadd, hrun⟩ := Program.bind_eq_ok.1 hrun
  cases hrun
  obtain ⟨hmust, rfl⟩ := liftPanic_eq_ok.1 hcreator
  have hdecode := mustAccAddressFromBech32_eq_ok.1 hmust
  obtain ⟨pos, head, hpos, hhead, hd⟩ := (Writes.addToContractCreatorSecondaryIndex k creator info.created a).ensures hadd
  rw [indexKey_eq (k.bech32.fromBech32_valid hdecode) hhead] at hd
  exact ⟨rfl, _, ⟨info, pos, creator, rfl, hpos, hdecode, rfl⟩, hd⟩

/-- The loop: the index gets the keys of the entries, all with the empty value. -/
theorem ensures_indexCreators (es : List (Bytes × Value)) :
    Ensures (visitEntries decodeContractInfo (V1.indexCreator k) () es) fun d _ d' ↦
      (∀ e ∈ es, ∃ key, IndexKey k e key) ∧ (∀ key : Bytes, key.head? ≠ some 9 → d'.kv.get key = d.kv.get key) ∧
      ((∀ key v, key.head? = some 9 → d.kv.get key = some v → v = .bytes []) → ∀ key v, key.head? = some 9 →
        (d'.kv.get key = some v ↔ d.kv.get key = some v ∨ (∃ e ∈ es, IndexKey k e key) ∧ v = .bytes [])) := by
  induction es with
  | nil =>
    refine (Ensures.pure ()).mono ?_
    rintro d _ d' ⟨-, rfl⟩
    exact ⟨nofun, fun _ _ ↦ rfl, fun _ key v _ ↦ by simp⟩
  | cons e es ih =>
    intro w u w' hrun
    obtain ⟨⟨a, info⟩, w₁, hdecode, hrun⟩ := Program.bind_eq_ok.1 hrun
    obtain ⟨⟨_, stop⟩, w₂, hindex, hrun⟩ := Program.bind_eq_ok.1 hrun
    obtain ⟨rfl, hw₁⟩ : e = (a, .contractInfo info) ∧ w₁ = w := by
      obtain ⟨x, v⟩ := e
      cases v with
      | contractInfo c => cases hdecode; exact ⟨rfl, rfl⟩
      | _ => cases hdecode
    rw [hw₁] at hindex
    obtain ⟨hstop, key₀, hkey₀, hd⟩ := ensures_indexCreator a info hindex
    obtain rfl : stop = false := hstop
    obtain ⟨hkeys, hframe, hindexed⟩ := ih hrun
    have h9 : key₀.head? = some 9 := by
      obtain ⟨_, _, _, -, -, -, rfl⟩ := hkey₀
      rfl
    rw [hd] at hframe hindexed
    refine ⟨?_, fun key hkey ↦ (hframe key hkey).trans (get_set_of_head _ (by rw [h9]; exact hkey)), ?_⟩
    · intro e he
      rcases List.mem_cons.1 he with rfl | he
      · exact ⟨key₀, hkey₀⟩
      · exact hkeys e he
    intro hblank key v hkey
    have hset : ∀ key v, ((durable w).kv.set key₀ (.bytes [])).get key = some v ↔
        (key = key₀ ∧ v = .bytes []) ∨ key ≠ key₀ ∧ (durable w).kv.get key = some v := by
      intro key v
      rw [OrderedStore.get_set]
      split
      · next heq => simp [heq, eq_comm]
      · next hne => simp [hne]
    rw [hindexed _ key v hkey]
    · change ((durable w).kv.set key₀ (.bytes [])).get key = some v ∨ _ ↔ _
      rw [hset]
      constructor
      · rintro ((⟨rfl, rfl⟩ | ⟨-, hold⟩) | ⟨⟨e, he, hrow⟩, rfl⟩)
        · exact .inr ⟨⟨_, List.mem_cons_self, hkey₀⟩, rfl⟩
        · exact .inl hold
        · exact .inr ⟨⟨e, List.mem_cons_of_mem _ he, hrow⟩, rfl⟩
      · rintro (hold | ⟨⟨e, he, hrow⟩, rfl⟩)
        · by_cases heq : key = key₀
          · exact .inl (.inl ⟨heq, hblank key v hkey hold⟩)
          · exact .inl (.inr ⟨heq, hold⟩)
        · rcases List.mem_cons.1 he with rfl | he
          · -- a contract has one key
            obtain ⟨info₁, pos₁, creator₁, hinfo₁, hpos₁, hcreator₁, rfl⟩ := hrow
            obtain ⟨info₂, pos₂, creator₂, hinfo₂, hpos₂, hcreator₂, rfl⟩ := hkey₀
            cases hinfo₁
            cases hinfo₂
            obtain rfl := Option.some.inj (hpos₁.symm.trans hpos₂)
            obtain rfl := Except.ok.inj (hcreator₁.symm.trans hcreator₂)
            exact .inl (.inl ⟨rfl, rfl⟩)
          · exact .inr ⟨⟨e, he, hrow⟩, rfl⟩
    · intro key v hkey hv
      rcases (hset key v).1 hv with ⟨-, rfl⟩ | ⟨-, hold⟩
      · rfl
      · exact hblank key v hkey hold

/-- The loop goes through when there is a key for every entry. -/
theorem unmetered_indexCreators {es : List (Bytes × Value)} (hes : ∀ e ∈ es, ∃ key, IndexKey k e key) (d : Durable X) :
    ∃ d', Unmetered (visitEntries decodeContractInfo (V1.indexCreator k) () es) d () d' := by
  induction es generalizing d with
  | nil => exact ⟨d, .pure () d⟩
  | cons e es ih =>
    obtain ⟨_, info, pos, creator, hinfo, hpos, hcreator, -⟩ := hes e List.mem_cons_self
    have hdecode : decodeContractInfo e = .ok (e.1, info) := by rw [decodeContractInfo, hinfo]
    have hhead := creatorPrefix_of_valid (k.bech32.fromBech32_valid hcreator)
    have hadd := unmetered_addToContractCreatorSecondaryIndex (k := k) hhead hpos e.1 d
    obtain ⟨d', hrest⟩ := ih (fun e he ↦ hes e (List.mem_cons_of_mem _ he)) _
    have hindex : Unmetered (V1.indexCreator k () (e.1, info)) d ((), false) _ :=
      .bind (.liftPanic (mustAccAddressFromBech32_eq_ok.2 hcreator) d) (.bind hadd (.pure ((), false) _))
    exact ⟨d', .visitEntries_cons hdecode hindex hrest⟩

end Loop

/-- A contract of the old store is an entry of the iteration. -/
theorem mem_scan_contracts {a : AccAddress} {v : Value} :
    (a, v) ∈ d.kv.scan contractKeyPrefix ↔ d.kv.get (getContractAddressKey a) = some v := OrderedStore.mem_scan

theorem ensures_migrate1to2 : Ensures (V1.migrate1to2 k) fun d _ d' ↦ Version1 d →
    CreatorsDecode k d ∧ CreatorsIndexed k d d' := by
  intro w u w' hrun hd
  obtain ⟨es, w₁, hes, hrun⟩ := Program.bind_eq_ok.1 hrun
  obtain ⟨rfl, hw₁⟩ := (Writes.iterateKV k contractKeyPrefix).ensures hes
  obtain ⟨hkeys, hframe, hindexed⟩ := ensures_indexCreators _ hrun
  rw [hw₁] at hframe hindexed
  refine ⟨fun a info hinfo ↦ ?_, fun creator v hv hvalid ↦ ?_, hframe⟩
  · obtain ⟨_, info', pos, creator, hinfo', -, hcreator, -⟩ := hkeys _ (mem_scan_contracts.2 hinfo)
    cases hinfo'
    exact ⟨creator, hcreator⟩
  · have hget : ∀ key v, key.head? = some 9 → ((durable w').kv.get key = some v ↔
        (∃ e ∈ (durable w).kv.scan contractKeyPrefix, IndexKey k e key) ∧ v = .bytes []) := by
      intro key v hkey
      rw [hindexed (fun key v hkey hold ↦ by rw [hd.unindexed key hkey] at hold; cases hold) key v hkey,
        hd.unindexed key hkey]
      simp
    have hle := (k.bech32.valid_length hvalid).2
    refine visits_creator_of_rows (creatorPrefix_of_valid hvalid) (fun x y ↦ ?_) ?_ (fun a pos ↦ Iff.rfl) ?_
    · rw [OrderedStore.mem_scan, show v.store.kv = (durable w').kv from congrArg Durable.kv hv, List.append_assoc,
        List.cons_append, hget _ y rfl]
      constructor
      · rintro ⟨⟨⟨a, c⟩, he, info, pos, creator', rfl, hpos, hcreator, hkey⟩, rfl⟩
        have hle' := (k.bech32.valid_length (k.bech32.fromBech32_valid hcreator)).2
        obtain ⟨rfl, rfl⟩ := creator_append_inj (by omega) (by omega) (List.append_cancel_left hkey)
        have hinfo := mem_scan_contracts.1 he
        exact ⟨a, pos, ⟨⟨info, hinfo, hcreator⟩, info, hinfo, hpos⟩, rfl, rfl⟩
      · rintro ⟨a, pos, ⟨⟨info, hinfo, hcreator⟩, info', hinfo', hpos⟩, rfl, rfl⟩
        cases hinfo.symm.trans hinfo'
        exact ⟨⟨_, mem_scan_contracts.2 hinfo, info, pos, creator, rfl, hpos, hcreator, rfl⟩, rfl⟩
    · rintro a p q ⟨-, info, hinfo, hp⟩ ⟨-, info', hinfo', hq⟩
      cases hinfo.symm.trans hinfo'
      exact Option.some.inj (hp.symm.trans hq)
    · rintro a ⟨info, hinfo, -⟩
      obtain ⟨info', pos, hinfo', hpos⟩ := hd.contracts a _ hinfo
      cases hinfo'
      exact ⟨pos, info, hinfo, hpos⟩

/-- The migration of a store of version 1 goes through when the creators can be read, and whenever it does, the index is
built. -/
theorem migrate1to2_indexes (hd : Version1 d) : (CreatorsDecode k d ↔ ∃ d', Unmetered (V1.migrate1to2 k) d () d') ∧
    ∀ w w', durable w = d → V1.migrate1to2 k w = (.ok (), w') → CreatorsIndexed k d (durable w') := by
  refine ⟨⟨fun hcreators ↦ ?_, ?_⟩, ?_⟩
  · have hkeys : ∀ e ∈ d.kv.scan contractKeyPrefix, ∃ key, IndexKey k e key := by
      rintro ⟨a, v⟩ he
      obtain ⟨info, pos, rfl, hpos⟩ := hd.contracts a v (mem_scan_contracts.1 he)
      obtain ⟨creator, hcreator⟩ := hcreators a info (mem_scan_contracts.1 he)
      exact ⟨_, info, pos, creator, rfl, hpos, hcreator, rfl⟩
    obtain ⟨d', hrun⟩ := unmetered_indexCreators hkeys d
    exact ⟨d', (Unmetered.iterateKV contractKeyPrefix d).bind hrun⟩
  · rintro ⟨d', hrun⟩
    exact (hrun.ensures ensures_migrate1to2 hd).1
  · rintro w w' rfl hrun
    exact (ensures_migrate1to2 hrun hd).2

def oldContract (creator : String) (height : UInt64) : ContractInfo :=
  { codeID := 1, creator, admin := "", label := "contract", created := some ⟨height, 0⟩ }

/-- Two contracts of an old chain. The address of the second one's creator is the longer one. -/
def oldState : Durable Unit := (emptyDurable ()).withKV
  ((OrderedStore.empty.set (getContractAddressKey [7]) (.contractInfo (oldContract carol 5))).set
    (getContractAddressKey [6]) (.contractInfo (oldContract (plainBech32.string [1, 1]) 3)))

theorem version1_oldState : Version1 oldState where
  contracts a v h := by
    change OrderedStore.get (OrderedStore.set (OrderedStore.set _ _ _) _ _) _ = _ at h
    rw [OrderedStore.get_set, OrderedStore.get_set] at h
    split_ifs at h with h₁ h₂
    · cases h
      exact ⟨_, _, rfl, rfl⟩
    · cases h
      exact ⟨_, _, rfl, rfl⟩
    · cases h
  unindexed key h := by
    have h2 : ∀ a : AccAddress, key.head? ≠ (getContractAddressKey a).head? := fun a ↦ by
      rw [h]
      exact ne_of_beq_false rfl
    exact (get_set_of_head _ (h2 _)).trans (get_set_of_head _ (h2 _))

theorem migrate1to2_indexes_oldState : ∃ d', Unmetered (V1.migrate1to2 (plainnet idleContract)) oldState () d' ∧
    CreatorsIndexed (plainnet idleContract) oldState d' := by
  have hmigrate := migrate1to2_indexes (k := plainnet idleContract) version1_oldState
  have hcreators : CreatorsDecode (plainnet idleContract) oldState := by
    intro a info h
    change OrderedStore.get (OrderedStore.set (OrderedStore.set _ _ _) _ _) _ = _ at h
    rw [OrderedStore.get_set, OrderedStore.get_set] at h
    split_ifs at h with h₁ h₂
    · cases h
      exact ⟨[1, 1], by decide +kernel⟩
    · cases h
      exact ⟨[1], by decide +kernel⟩
    · cases h
  obtain ⟨d', hrun⟩ := hmigrate.1.1 hcreators
  obtain ⟨w', hw, rfl, -⟩ := hrun (worldOf oldState) rfl rfl
  exact ⟨_, hrun, hmigrate.2 _ w' rfl hw⟩

end Cosmwasgo.Properties
