import Cosmwasgo.Keeper.Snapshotter
import Cosmwasgo.Properties.Codes
import Cosmwasgo.Runs.Unmetered

namespace Cosmwasgo.Properties

open Cosmwasgo.Lib Cosmwasgo.Types Cosmwasgo.State Cosmwasgo.Keeper Cosmwasgo.Runs

variable {X : Type} {k : Keeper X} {d : Durable X}

/-- The VM has a code for a checksum, the one it computes. -/
def Holds (k : Keeper X) (vm : VMCache) (checksum : Bytes) : Prop :=
  ∃ code, vm.codes.get checksum = some code ∧ k.wasmVM.checksum code = checksum

def StoredCode (kv : KVStore) (id : UInt64) (info : CodeInfo) : Prop := kv.get (getCodeKey id) = some (.codeInfo info)

def MarkedPinned (kv : KVStore) (id : UInt64) : Prop := (kv.get (getPinnedCodeIndexPrefix id)).isSome = true

/-- A state of the keeper whose codes are all held by the VM. -/
structure CodesHeld (k : Keeper X) (d : Durable X) : Prop where
  codes : ∀ {x v}, d.kv.get (codeKeyPrefix ++ x) = some v →
    ∃ id info, x = uint64ToBigEndian id ∧ v = .codeInfo info ∧ Holds k d.vm info.codeHash
  pins : ∀ {x v}, d.kv.get (pinnedCodeIndexPrefix ++ x) = some v →
    ∃ id info, x = uint64ToBigEndian id ∧ StoredCode d.kv id info

section Reachable

/-- A mark of the pinned index was there before, or it is for a code that is stored. -/
theorem mark_step {c : Ctx} {d d' : Durable X} (hstep : Step k Anybody c d d') {x : Bytes} {v : Value}
    (hv : d'.kv.get (pinnedCodeIndexPrefix ++ x) = some v) :
    d.kv.get (pinnedCodeIndexPrefix ++ x) = some v ∨ ∃ id info, x = uint64ToBigEndian id ∧ StoredCode d.kv id info := by
  have hhead : (pinnedCodeIndexPrefix ++ x).head? = some 7 := rfl
  have same : d'.kv.get (pinnedCodeIndexPrefix ++ x) = d.kv.get (pinnedCodeIndexPrefix ++ x) →
      d.kv.get (pinnedCodeIndexPrefix ++ x) = some v := fun h ↦ h.symm.trans hv
  cases hstep with
  | quiet _ hq => exact .inl (same (hq.records _ (not_isStateKey (by simp [hhead]))))
  | act _ hact =>
    cases hact with
    | cacheCode _ => exact .inl hv
    | cachePins _ => exact .inl hv
    | createCode _ _ _ =>
      exact .inl (same ((get_set_of_head _ (by simp [hhead])).trans (get_set_of_head _ (by simp [hhead]))))
    | nextInstance _ _ => exact .inl (same (get_set_of_head _ (by simp [hhead])))
    | register _ _ _ _ _ _ _ hhead' _ _ _ => exact .inl (same (get_registered_of_head hhead' (by simp [hhead])))
    | migrate _ _ _ _ _ _ _ _ _ _ _ _ => exact .inl (same (get_migrated_of_head (by simp [hhead])))
    | modify _ _ _ _ _ => exact .inl (same (get_set_of_head _ (by simp [hhead])))
    | extend _ _ _ => exact .inl (same (get_set_of_head _ (by simp [hhead])))
    | setAccess _ => exact .inl (same (get_set_of_head _ (by simp [hhead])))
    | setParams _ => exact .inl (same (get_set_of_head _ (by simp [hhead])))
    | @pin codeID info hinfo =>
      by_cases hx : x = uint64ToBigEndian codeID
      · exact .inr ⟨codeID, info, hx, hinfo⟩
      · exact .inl (same (OrderedStore.get_set_of_ne _ _ fun h ↦ hx (List.append_cancel_left h)))
    | unpin codeID =>
      left
      change (d.kv.delete (getPinnedCodeIndexPrefix codeID)).get (pinnedCodeIndexPrefix ++ x) = some v at hv
      rw [OrderedStore.get_delete] at hv
      split at hv
      · cases hv
      · exact hv
    | storePacket _ => exact .inl (same (get_set_of_head _ (by simp [hhead])))
    | acknowledge _ => exact .inl (same (get_delete_of_head (by simp [hhead])))

/-- The marks of the pinned index are for codes that are stored. -/
def PinsStored (d : Durable X) : Prop := ∀ x v, d.kv.get (pinnedCodeIndexPrefix ++ x) = some v →
  ∃ id info, x = uint64ToBigEndian id ∧ StoredCode d.kv id info

theorem PinsStored.step {c : Ctx} {d d' : Durable X} {n : Nat} (hstep : Step k Anybody c d d') (hreg : CodeRegistry k n d)
    (h : PinsStored d) : PinsStored d' := by
  intro x v hv
  obtain ⟨id, info, hx, hinfo⟩ : ∃ id info, x = uint64ToBigEndian id ∧ StoredCode d.kv id info :=
    (mark_step hstep hv).elim (h x v) fun h ↦ h
  obtain ⟨info', hinfo', -⟩ := (hreg.step hstep).2.infos hinfo
  exact ⟨id, info', hx, hinfo'⟩

/-- In every reachable state the VM holds all codes. -/
theorem codesHeld_reachable (h : Reachable k d) : CodesHeld k d := by
  obtain ⟨⟨n, hreg⟩, hpins⟩ := h.invariant (P := fun d ↦ (∃ n, CodeRegistry k n d) ∧ PinsStored d)
    (fun x ↦ ⟨⟨0, codeRegistry_empty x⟩, nofun⟩)
    fun hstep ⟨⟨n, hreg⟩, hpins⟩ ↦ ⟨(hreg.step hstep).1, hpins.step hstep hreg⟩
  refine ⟨fun {x v} hv ↦ ?_, fun {x v} hv ↦ hpins x v hv⟩
  obtain ⟨i, -, -, hkey⟩ := (hreg.ids (codeKeyPrefix ++ x) rfl).1 (by rw [hv]; rfl)
  obtain rfl : x = uint64ToBigEndian (UInt64.ofNat i) := List.append_cancel_left hkey
  obtain ⟨info, rfl, hheld⟩ := hreg.infos hv
  obtain ⟨code, hcode⟩ := Option.isSome_iff_exists.1 hheld
  exact ⟨_, info, rfl, rfl, code, hcode, (hreg.held hcode).1⟩

end Reachable

/-- What is assumed of compression and of the VM: gzip comes undone, hex texts tell hashes apart, and the VM takes back
the codes it holds. -/
structure SnapshotHost (k : Keeper X) (d : Durable X) : Prop where
  gzip : ∀ code, ∃ z, k.lib.gzipIt code = .ok z ∧ isGzip z = true ∧ k.lib.uncompress z maxInt64 = .ok code
  hex : Function.Injective k.lib.hexEncode
  unchecked : ∀ {checksum code}, d.vm.codes.get checksum = some code → k.wasmVM.checkUnchecked code = .ok ()

/-- An item of a snapshot, with the code of a checksum. -/
def Packs (k : Keeper X) (d : Durable X) (checksum item : Bytes) : Prop :=
  ∃ code, d.vm.codes.get checksum = some code ∧ k.wasmVM.checksum code = checksum ∧ k.lib.gzipIt code = .ok item

section Snapshot

variable {payloadWriter : Bytes → Except Err Unit}

/-- The snapshot of some codes, so far. -/
structure SnapshotOf (k : Keeper X) (d : Durable X) (hashes : List Bytes) (s : SnapshotState) : Prop where
  seen : s.seenBefore = (hashes.map k.lib.hexEncode).reverse
  rerr : s.rerr = none
  items : List.Forall₂ (Packs k d) hashes s.items
  nodup : hashes.Nodup

theorem unmetered_snapshotCode (hk : SnapshotHost k d) (hwriter : ∀ z, payloadWriter z = .ok ()) {hashes : List Bytes}
    {s : SnapshotState} (hs : SnapshotOf k d hashes s) {id : UInt64} {info : CodeInfo} (hinfo : StoredCode d.kv id info)
    (hheld : Holds k d.vm info.codeHash) :
    ∃ hashes' s', Unmetered (snapshotCode k payloadWriter s (id, info)) d (s', false) d ∧ SnapshotOf k d hashes' s' ∧
      ∀ h, h ∈ hashes' ↔ h ∈ hashes ∨ h = info.codeHash := by
  obtain ⟨code, hcode, hsum⟩ := hheld
  have hmem : k.lib.hexEncode info.codeHash ∈ s.seenBefore ↔ info.codeHash ∈ hashes := by
    rw [hs.seen, List.mem_reverse, List.mem_map_of_injective hk.hex]
  unfold snapshotCode
  by_cases hseen : info.codeHash ∈ hashes
  · refine ⟨hashes, s, ?_, hs, fun h ↦ ⟨.inl, ?_⟩⟩
    · rw [if_pos (hmem.2 hseen)]
      exact .pure _ d
    · rintro (h | rfl)
      · exact h
      · exact hseen
  · obtain ⟨z, hz, -⟩ := hk.gzip code
    refine ⟨hashes ++ [info.codeHash],
      { s with seenBefore := k.lib.hexEncode info.codeHash :: s.seenBefore, items := s.items ++ [z] }, ?_, ?_,
      fun h ↦ by simp⟩
    · rw [if_neg fun h ↦ hseen (hmem.1 h)]
      refine (Unmetered.getByteCode hinfo hcode).attempt ?_
      simp only [writeItem, hz, hwriter]
      exact .pure _ d
    · refine ⟨by simp [hs.seen], hs.rerr, List.rel_append hs.items (.cons ⟨code, hcode, hsum, hz⟩ .nil), ?_⟩
      refine List.nodup_append.2 ⟨hs.nodup, List.nodup_singleton _, fun h hmem h' hmem' heq ↦ hseen ?_⟩
      rwa [← List.mem_singleton.1 hmem', ← heq]

/-- An entry of the codes' part of the store, decoded. -/
theorem decodeCodeInfo_eq {id : UInt64} {info : CodeInfo} :
    decodeCodeInfo (uint64ToBigEndian id, .codeInfo info) = .ok (id, info) := by
  simp only [decodeCodeInfo, length_uint64ToBigEndian]
  rw [if_neg (by decide), bigEndianToUint64_uint64ToBigEndian]

theorem unmetered_snapshotCodes (hk : SnapshotHost k d) (hwriter : ∀ z, payloadWriter z = .ok ())
    {es : List (Bytes × Value)}
    (hes : ∀ e ∈ es, ∃ id info, e = (uint64ToBigEndian id, .codeInfo info) ∧ StoredCode d.kv id info ∧
      Holds k d.vm info.codeHash) {hashes : List Bytes} {s : SnapshotState} (hs : SnapshotOf k d hashes s) :
    ∃ hashes' s', Unmetered (visitEntries decodeCodeInfo (snapshotCode k payloadWriter) s es) d s' d ∧
      SnapshotOf k d hashes' s' ∧
      ∀ h, h ∈ hashes' ↔ h ∈ hashes ∨ ∃ x info, (x, .codeInfo info) ∈ es ∧ info.codeHash = h := by
  induction es generalizing hashes s with
  | nil => exact ⟨hashes, s, .pure s d, hs, by simp⟩
  | cons e es ih =>
    obtain ⟨id, info, rfl, hinfo, hheld⟩ := hes e List.mem_cons_self
    obtain ⟨hashes₁, s₁, hstep, hs₁, hmem₁⟩ := unmetered_snapshotCode hk hwriter hs hinfo hheld
    obtain ⟨hashes₂, s₂, hrest, hs₂, hmem₂⟩ := ih (fun e he ↦ hes e (List.mem_cons_of_mem _ he)) hs₁
    refine ⟨hashes₂, s₂, .visitEntries_cons decodeCodeInfo_eq hstep hrest, hs₂, fun h ↦ ?_⟩
    rw [hmem₂, hmem₁, or_assoc]
    refine or_congr_right ⟨?_, ?_⟩
    · rintro (rfl | ⟨x, info', hmem, rfl⟩)
      · exact ⟨_, info, List.mem_cons_self, rfl⟩
      · exact ⟨x, info', List.mem_cons_of_mem _ hmem, rfl⟩
    · rintro ⟨x, info', hmem, rfl⟩
      rcases List.mem_cons.1 hmem with heq | hmem
      · cases heq
        exact .inl rfl
      · exact .inr ⟨x, info', hmem, rfl⟩

/-- A snapshot has one item for each hash of a stored code. -/
theorem unmetered_snapshotExtension (hk : SnapshotHost k d) (hwriter : ∀ z, payloadWriter z = .ok ())
    (hd : CodesHeld k d) :
    ∃ hashes items, Unmetered (snapshotExtension k payloadWriter) d items d ∧ hashes.Nodup ∧
      (∀ h, h ∈ hashes ↔ ∃ id info, StoredCode d.kv id info ∧ info.codeHash = h) ∧
      List.Forall₂ (Packs k d) hashes items := by
  have hes : ∀ e ∈ d.kv.scan codeKeyPrefix, ∃ id info, e = (uint64ToBigEndian id, .codeInfo info) ∧
      StoredCode d.kv id info ∧ Holds k d.vm info.codeHash := by
    rintro ⟨x, v⟩ he
    have hget := OrderedStore.mem_scan.1 he
    obtain ⟨id, info, rfl, rfl, hheld⟩ := hd.codes hget
    exact ⟨id, info, rfl, hget, hheld⟩
  have hstart : SnapshotOf k d [] {} := ⟨rfl, rfl, .nil, .nil⟩
  obtain ⟨hashes, s, hrun, hs, hmem⟩ := unmetered_snapshotCodes hk hwriter hes hstart
  refine ⟨hashes, s.items, ?_, hs.nodup, fun h ↦ ?_, hs.items⟩
  · refine ((Unmetered.iterateKV codeKeyPrefix d).bind hrun).bind ?_
    rw [hs.rerr]
    exact .pure _ d
  · rw [hmem]
    constructor
    · rintro (h | ⟨x, info, he, rfl⟩)
      · cases h
      · obtain ⟨id, info', heq, hinfo, -⟩ := hes _ he
        cases heq
        exact ⟨id, info, hinfo, rfl⟩
    · rintro ⟨id, info, hinfo, rfl⟩
      exact .inr ⟨uint64ToBigEndian id, info, OrderedStore.mem_scan.2 hinfo, rfl⟩

end Snapshot

section Restore

variable {d₀ : Durable X}

/-- What the items written into a fresh VM have made of it: it holds their codes, and nothing else has changed. -/
structure Restored (k : Keeper X) (hashes : List Bytes) (d₀ d' : Durable X) : Prop where
  store : d'.store = d₀.store
  pinned : d'.vm.pinned = d₀.vm.pinned
  held : ∀ h, h ∈ hashes ∨ Holds k d₀.vm h → Holds k d'.vm h

theorem Holds.set {vm : VMCache} {h : Bytes} (hh : Holds k vm h) (code : Bytes) :
    Holds k { vm with codes := vm.codes.set (k.wasmVM.checksum code) code } h := by
  by_cases hsum : h = k.wasmVM.checksum code
  · subst hsum
    exact ⟨code, OrderedStore.get_set_self _ _ _, rfl⟩
  · obtain ⟨code', hcode', hsum'⟩ := hh
    exact ⟨code', (OrderedStore.get_set_of_ne _ _ hsum).trans hcode', hsum'⟩

theorem unmetered_restoreV1 (hk : SnapshotHost k d) {h item : Bytes} (hp : Packs k d h item) (d₀ : Durable X) :
    ∃ d₁, Unmetered (restoreV1 k item) d₀ () d₁ ∧ Restored k [h] d₀ d₁ := by
  obtain ⟨code, hcode, rfl, hitem⟩ := hp
  obtain ⟨z, hz, hgzip, hunzip⟩ := hk.gzip code
  obtain rfl : z = item := Except.ok.inj (hz.symm.trans hitem)
  let vm : VMCache := { d₀.vm with codes := d₀.vm.codes.set (k.wasmVM.checksum code) code }
  refine ⟨{ d₀ with vm }, (Unmetered.require hgzip _ d₀).bind ?_, rfl, rfl, ?_⟩
  · rw [hunzip]
    exact (Unmetered.vmStoreCodeUnchecked (hk.unchecked hcode) d₀).bind (.pure () _)
  · rintro h' (hmem | hheld)
    · obtain rfl : h' = k.wasmVM.checksum code := List.mem_singleton.1 hmem
      exact ⟨code, OrderedStore.get_set_self _ _ _, rfl⟩
    · exact hheld.set code

theorem Restored.trans {h : Bytes} {hashes : List Bytes} {d₁ d₂ : Durable X} (h₁ : Restored k [h] d₀ d₁)
    (h₂ : Restored k hashes d₁ d₂) : Restored k (h :: hashes) d₀ d₂ := by
  refine ⟨h₂.store.trans h₁.store, h₂.pinned.trans h₁.pinned, ?_⟩
  rintro h' (hmem | hheld)
  · rcases List.mem_cons.1 hmem with rfl | hmem
    · exact h₂.held _ (.inr (h₁.held _ (.inl (List.mem_singleton_self _))))
    · exact h₂.held _ (.inl hmem)
  · exact h₂.held _ (.inr (h₁.held _ (.inr hheld)))

/-- The items are restored, then what is left is the call to `finalize`. -/
theorem unmetered_processAllItems (hk : SnapshotHost k d) {hashes items : List Bytes}
    (hp : List.Forall₂ (Packs k d) hashes items) (finalize : M X Unit) (d₀ : Durable X) :
    ∃ d₁, Restored k hashes d₀ d₁ ∧ ∀ {d₂}, Unmetered finalize d₁ () d₂ →
      Unmetered (processAllItems (restoreV1 k) finalize (items.map .ok)) d₀ () d₂ := by
  induction hp generalizing d₀ with
  | nil => exact ⟨d₀, ⟨rfl, rfl, fun h hh ↦ hh.resolve_left List.not_mem_nil⟩, fun h ↦ h⟩
  | cons hitem _ ih =>
    obtain ⟨d₁, hstep, hr₁⟩ := unmetered_restoreV1 hk hitem d₀
    obtain ⟨d₂, hr₂, hrest⟩ := ih d₁
    exact ⟨d₂, hr₁.trans hr₂, fun hfinal ↦ (hstep.wrapErr _).bind (hrest hfinal)⟩

/-- `Pin` of codes that are held. -/
def withPins (d : Durable X) (hashes : List Bytes) : Durable X := { d with vm := { d.vm with pinned := hashes } }

theorem unmetered_pinMarked {id : UInt64} {info : CodeInfo} (hinfo : StoredCode d₀.kv id info)
    (hheld : Holds k d₀.vm info.codeHash) :
    Unmetered (pinMarked k id) d₀ () (withPins d₀ (info.codeHash :: d₀.vm.pinned)) := by
  obtain ⟨code, hcode, -⟩ := hheld
  have hstored : ∀ w : World X, durable w = d₀ → (w.vm.codes.get info.codeHash).isSome = true := by
    rintro w rfl
    exact Option.isSome_of_eq_some hcode
  refine (Unmetered.getCodeInfo hinfo).bind ((Unmetered.read hstored).bind ((Unmetered.require rfl _ d₀).bind ?_))
  refine .update ?_ fun _ ↦ rfl
  rintro w rfl
  rfl

theorem parsePinnedCodeIndex_eq (id : UInt64) : parsePinnedCodeIndex (uint64ToBigEndian id) = .ok id := by
  have hlen := length_uint64ToBigEndian id
  have hne : uint64ToBigEndian id ≠ [] := List.ne_nil_of_length_pos (by omega)
  rw [parsePinnedCodeIndex, if_neg hne, if_neg (by omega), bigEndianToUint64_uint64ToBigEndian]

theorem unmetered_pinEntries {kv : KVStore} {es : List (Bytes × Value)}
    (hes : ∀ e ∈ es, ∃ id info, e.1 = uint64ToBigEndian id ∧ StoredCode kv id info) (d₀ : Durable X) (hkv : d₀.kv = kv)
    (hheld : ∀ {id info}, StoredCode kv id info → Holds k d₀.vm info.codeHash) :
    ∃ hashes, Unmetered (visitEntries (fun e ↦ parsePinnedCodeIndex e.1)
        (fun _ codeID ↦ do pinMarked k codeID; return ((), false)) () es) d₀ () (withPins d₀ hashes) ∧
      ∀ h, h ∈ hashes ↔ h ∈ d₀.vm.pinned ∨
        ∃ e ∈ es, ∃ id info, e.1 = uint64ToBigEndian id ∧ StoredCode kv id info ∧ info.codeHash = h := by
  induction es generalizing d₀ with
  | nil => exact ⟨d₀.vm.pinned, .pure () d₀, by simp⟩
  | cons e es ih =>
    obtain ⟨id, info, he, hinfo⟩ := hes e List.mem_cons_self
    subst hkv
    obtain ⟨hashes, hrest, hmem⟩ := ih (fun e he ↦ hes e (List.mem_cons_of_mem _ he))
      (withPins d₀ (info.codeHash :: d₀.vm.pinned)) rfl hheld
    refine ⟨hashes, .visitEntries_cons (by rw [he, parsePinnedCodeIndex_eq])
      ((unmetered_pinMarked hinfo (hheld hinfo)).bind (.pure _ _)) hrest, fun h ↦ (hmem h).trans ?_⟩
    have hthis : (∃ id info, e.1 = uint64ToBigEndian id ∧ StoredCode d₀.kv id info ∧ info.codeHash = h) ↔
        h = info.codeHash := by
      constructor
      · rintro ⟨id', info', he', hinfo', rfl⟩
        obtain rfl := uint64ToBigEndian_injective (he'.symm.trans he)
        cases hinfo'.symm.trans hinfo
        rfl
      · rintro rfl
        exact ⟨id, info, he, hinfo, rfl⟩
    rw [List.exists_mem_cons_iff, hthis]
    change h ∈ info.codeHash :: d₀.vm.pinned ∨ _ ↔ _
    rw [List.mem_cons, or_assoc, or_left_comm]

/-- What is marked in the store gets pinned, and nothing else is pinned after a start with nothing pinned. -/
theorem unmetered_initializePinnedCodes (hd : CodesHeld k d) (hkv : d₀.kv = d.kv)
    (hheld : ∀ {id info}, StoredCode d.kv id info → Holds k d₀.vm info.codeHash) (hpinned : d₀.vm.pinned = []) :
    ∃ hashes, Unmetered (initializePinnedCodes k) d₀ () (withPins d₀ hashes) ∧
      ∀ h, h ∈ hashes ↔ ∃ id info, MarkedPinned d.kv id ∧ StoredCode d.kv id info ∧ info.codeHash = h := by
  have hes : ∀ e ∈ d₀.kv.scan pinnedCodeIndexPrefix, ∃ id info, e.1 = uint64ToBigEndian id ∧ StoredCode d.kv id info := by
    rintro ⟨x, v⟩ he
    rw [hkv] at he
    exact hd.pins (OrderedStore.mem_scan.1 he)
  obtain ⟨hashes, hrun, hmem⟩ := unmetered_pinEntries hes d₀ hkv hheld
  refine ⟨hashes, (Unmetered.iterateKV pinnedCodeIndexPrefix d₀).bind hrun, fun h ↦ (hmem h).trans ?_⟩
  rw [hpinned, hkv]
  constructor
  · rintro (h | ⟨⟨x, v⟩, he, id, info, rfl, hinfo, rfl⟩)
    · cases h
    · exact ⟨id, info, Option.isSome_of_eq_some (OrderedStore.mem_scan.1 he), hinfo, rfl⟩
  · rintro ⟨id, info, hmark, hinfo, rfl⟩
    obtain ⟨v, hv⟩ := Option.isSome_iff_exists.1 hmark
    exact .inr ⟨(_, v), OrderedStore.mem_scan.2 hv, id, info, rfl, hinfo, rfl⟩

end Restore

/-- What a node that restores the items has, if it starts with the same store and an empty VM: all codes, and the
marked ones pinned. -/
def RestoresAll (k : Keeper X) (d : Durable X) (items : List Bytes) : Prop :=
  ∀ d₀ : Durable X, d₀.kv = d.kv → d₀.vm = {} →
    ∃ d', Unmetered (restoreExtension k snapshotFormat (items.map .ok)) d₀ () d' ∧ d'.store = d₀.store ∧
      (∀ id info, StoredCode d.kv id info → Holds k d'.vm info.codeHash) ∧
      ∀ h, h ∈ d'.vm.pinned ↔ ∃ id info, MarkedPinned d.kv id ∧ StoredCode d.kv id info ∧ info.codeHash = h

theorem restoresAll_of_packs (hk : SnapshotHost k d) (hd : CodesHeld k d) {hashes items : List Bytes}
    (hmem : ∀ h, h ∈ hashes ↔ ∃ id info, StoredCode d.kv id info ∧ info.codeHash = h)
    (hpacks : List.Forall₂ (Packs k d) hashes items) : RestoresAll k d items := by
  intro d₀ hkv hvm
  obtain ⟨d₁, hr, hrun⟩ := unmetered_processAllItems hk hpacks (finalizeV1 k) d₀
  have hheld : ∀ {id info}, StoredCode d.kv id info → Holds k d₁.vm info.codeHash :=
    fun {id info} hinfo ↦ hr.held _ (.inl ((hmem _).2 ⟨id, info, hinfo, rfl⟩))
  have hkv₁ : d₁.kv = d.kv := (congrArg Store.kv hr.store).trans hkv
  have hpinned : d₁.vm.pinned = [] := hr.pinned.trans (congrArg VMCache.pinned hvm)
  obtain ⟨pins, hfinal, hpins⟩ := unmetered_initializePinnedCodes hd hkv₁ hheld hpinned
  exact ⟨withPins d₁ pins, hrun hfinal, hr.store, fun _ _ hinfo ↦ hheld hinfo, hpins⟩

/-- In every reachable state the VM holds all codes, and where it does, a snapshot has one item for each hash of a
stored code and brings all codes and pins to the node that restores it. -/
theorem snapshot_restoresAll {payloadWriter : Bytes → Except Err Unit} (hwriter : ∀ z, payloadWriter z = .ok ()) :
    (∀ {d : Durable X}, Reachable k d → CodesHeld k d) ∧
    ∀ {d : Durable X}, SnapshotHost k d → CodesHeld k d →
      ∃ hashes items, Unmetered (snapshotExtension k payloadWriter) d items d ∧
        hashes.Nodup ∧ (∀ h, h ∈ hashes ↔ ∃ id info, StoredCode d.kv id info ∧ info.codeHash = h) ∧
        List.Forall₂ (Packs k d) hashes items ∧ RestoresAll k d items := by
  refine ⟨codesHeld_reachable, fun hk hd ↦ ?_⟩
  obtain ⟨hashes, items, hrun, hnodup, hmem, hpacks⟩ := unmetered_snapshotExtension hk hwriter hd
  exact ⟨hashes, items, hrun, hnodup, hmem, hpacks, restoresAll_of_packs hk hd hmem hpacks⟩

/-- A devnet with a compression that puts the magic number of gzip before the code. -/
def gzipNet : Keeper Unit :=
  let k := plainnet idleContract
  { k with
    lib := { k.lib with gzipIt := fun code ↦ .ok (0x1F :: 0x8B :: 0x08 :: code), uncompress := fun z _ ↦ .ok (z.drop 3) }
    wasmVM := { k.wasmVM with checkUnchecked := fun _ ↦ .ok () } }

theorem hexEncode_injective : Function.Injective gzipNet.lib.hexEncode := by
  have hdigit : ∀ m n : Fin 16, Nat.digitChar m.val = Nat.digitChar n.val → m = n := by decide +kernel
  have hdigits : ∀ x y : Byte, Nat.digitChar (x.val / 16) = Nat.digitChar (y.val / 16) →
      Nat.digitChar (x.val % 16) = Nat.digitChar (y.val % 16) → x = y := by
    intro x y hhigh hlow
    have hhigh := hdigit ⟨x.val / 16, by omega⟩ ⟨y.val / 16, by omega⟩ hhigh
    have hlow := hdigit ⟨x.val % 16, by omega⟩ ⟨y.val % 16, by omega⟩ hlow
    simp only [Fin.mk.injEq] at hhigh hlow
    exact Fin.ext (by omega)
  intro a b hab
  have hchars := String.ofList_injective hab
  induction a generalizing b with
  | nil => cases b <;> simp_all
  | cons x a ih =>
    cases b with
    | nil => cases hchars
    | cons y b =>
      injection hchars with hhigh hrest
      injection hrest with hlow hrest
      rw [hdigits x y hhigh hlow, ih (congrArg String.ofList hrest) hrest]

/-- Two uploads of one code, the first of them pinned. -/
def pinnedUploads : Durable Unit :=
  delivered gzipNet (durable openWorld) [storeCodeMsg carol, storeCodeMsg carol,
    .pinCodes { authority := gzipNet.authority, codeIDs := [1] }]

theorem snapshot_restoresAll_pinnedUploads :
    (pinnedUploads.kv.get (getCodeKey 2)).isSome = true ∧ MarkedPinned pinnedUploads.kv 1 ∧
    ∃ items, Unmetered (snapshotExtension gzipNet fun _ ↦ .ok ()) pinnedUploads items pinnedUploads ∧
      RestoresAll gzipNet pinnedUploads items := by
  have hopen : Reachable gzipNet (durable openWorld) :=
    .op (w := emptyWorld) (.empty ()) (.setParams (n := 0) (c := genesisCtx) ⟨allowEverybody, .everybody⟩)
  have hhost : SnapshotHost gzipNet pinnedUploads :=
    ⟨fun code ↦ ⟨_, rfl, rfl, rfl⟩, hexEncode_injective, fun _ ↦ rfl⟩
  have hwriter : ∀ z : Bytes, (fun _ ↦ .ok () : Bytes → Except Err Unit) z = .ok () := fun _ ↦ rfl
  obtain ⟨hheld, hsnap⟩ := snapshot_restoresAll (k := gzipNet) hwriter
  obtain ⟨_, items, hrun, -, -, -, hall⟩ := hsnap hhost (hheld (hopen.delivered _))
  exact ⟨by decide +kernel, by unfold MarkedPinned; decide +kernel, items, hrun, hall⟩

end Cosmwasgo.Properties
