import Cosmwasgo.Registry.Import
import Cosmwasgo.Runs.Pins
import Cosmwasgo.Runs.Roots

namespace Cosmwasgo.Properties

open Cosmwasgo.Lib Cosmwasgo.Types Cosmwasgo.State Cosmwasgo.Keeper Cosmwasgo.Runs Cosmwasgo.Registry

variable {X α β : Type} {k : Keeper X}

/-- What `IsPinnedCode` answers. -/
def IsPinned (kv : KVStore) (codeID : UInt64) : Prop := (kv.get (getPinnedCodeIndexPrefix codeID)).isSome

instance (kv : KVStore) (codeID : UInt64) : Decidable (IsPinned kv codeID) := inferInstanceAs (Decidable (_ = true))

def HasHash (kv : KVStore) (codeID : UInt64) (hash : Bytes) : Prop :=
  ∃ info, kv.get (getCodeKey codeID) = some (.codeInfo info) ∧ info.codeHash = hash

/-- Every code that the store has as pinned is pinned in the VM. -/
def PinsCached (kv : KVStore) (vm : VMCache) : Prop :=
  ∀ codeID, IsPinned kv codeID → ∃ hash, HasHash kv codeID hash ∧ hash ∈ vm.pinned

/-- The operations that bear on the pins. -/
inductive PinOp
  | create (c : Ctx) (creator : AccAddress) (wasmCode : Bytes) (access : Option AccessConfig) (authZ : AuthorizationPolicy)
  | pinCodes (req : MsgCodes)
  | unpinCodes (req : MsgCodes)
  | initGenesis (data : GenesisState)
  | initializePinnedCodes

def PinOp.run (k : Keeper X) : PinOp → M X Unit
  | .create c creator wasmCode access authZ => ignore (Keeper.create k c creator wasmCode access authZ)
  | .pinCodes req => ignore (MsgServer.pinCodes k req)
  | .unpinCodes req => ignore (MsgServer.unpinCodes k req)
  | .initGenesis data => Keeper.initGenesis k data
  | .initializePinnedCodes => Keeper.initializePinnedCodes k

/-- The operations of one transaction, up to the first one that fails. -/
def runOps (k : Keeper X) : List PinOp → M X Unit
  | [] => return ()
  | op :: ops => do
    op.run k
    runOps k ops

/-- Transactions on an empty store. Those that fail are reverted, and so may others be; what they did to the VM stays. -/
inductive PinRun (k : Keeper X) (C : Bool → World X → List PinOp → Prop) : Durable X → Prop
  | start {w : World X} (hempty : ∀ key, w.store.kv.get key = none) : PinRun k C (durable w)
  | tx {w w' : World X} {ops : List PinOp} {r : Outcome Err Panic Unit} {kept : Bool} (h : PinRun k C (durable w))
      (hrun : runOps k ops w = (r, w')) (hkept : kept = true → r = .ok ()) (hC : C kept w ops) :
      PinRun k C (if kept then durable w' else ⟨w.store, w'.vm⟩)

section Conditions

/-- With a code every other one that is pinned with the same hash is unpinned. -/
def UnpinsAlike (kv : KVStore) (codeIDs : List UInt64) : Prop :=
  ∀ codeID ∈ codeIDs, ∀ hash, HasHash kv codeID hash → ∀ other, IsPinned kv other → HasHash kv other hash →
    other ∈ codeIDs

/-- None of the codes has a hash of which the VM must not lose the pin. -/
def Spares (H : Bytes → Prop) (kv : KVStore) (codeIDs : List UInt64) : Prop :=
  ∀ codeID ∈ codeIDs, ∀ hash, HasHash kv codeID hash → ¬ H hash

/-- The hashes of the pinned codes. -/
def IsPinnedHash (kv : KVStore) (hash : Bytes) : Prop := ∃ codeID, IsPinned kv codeID ∧ HasHash kv codeID hash

/-- An operation of a transaction that starts with `base` is harmless where the store is `kv`. -/
def PinOp.Harmless (base kv : KVStore) : Bool → PinOp → Prop
  | true, .unpinCodes req => UnpinsAlike kv req.codeIDs
  | false, .unpinCodes req => Spares (IsPinnedHash base) kv req.codeIDs
  | true, .initGenesis data => ∀ s ∈ data.sequences, ∀ codeID, s.idKey ≠ getPinnedCodeIndexPrefix codeID
  | _, _ => True

/-- All of them are, where each is run. -/
def Harmless (k : Keeper X) (base : KVStore) (kept : Bool) : World X → List PinOp → Prop
  | _, [] => True
  | w, op :: ops => op.Harmless base w.store.kv kept ∧ ∀ w', op.run k w = (.ok (), w') → Harmless k base kept w' ops

end Conditions

section Reverted

variable {H : Bytes → Prop}

end Reverted

section Kept

variable {d d' : Durable X}

/-- The code sequence is above the ids in use. -/
def CodesBelow (kv : KVStore) : Prop :=
  ∀ codeID info, kv.get (getCodeKey codeID) = some (.codeInfo info) →
    ∀ n, parseSequence (kv.get keySequenceCodeID) = .ok n → codeID < n

structure PinsHold (d : Durable X) : Prop where
  cached : PinsCached d.kv d.vm
  below : CodesBelow d.kv

theorem HasHash.congr {kv kv' : KVStore} {id : UInt64} {hash : Bytes} (h : HasHash kv id hash)
    (hkv : kv'.get (getCodeKey id) = kv.get (getCodeKey id)) : HasHash kv' id hash := by
  obtain ⟨info, hinfo, rfl⟩ := h
  exact ⟨info, hkv.trans hinfo, rfl⟩

/-- Pins stay cached if the infos of pinned codes and their pins in the VM stay, and new ones are cached. -/
theorem PinsCached.step {kv kv' : KVStore} {vm vm' : VMCache} (h : PinsCached kv vm)
    (hinfos : ∀ id, IsPinned kv id → kv'.get (getCodeKey id) = kv.get (getCodeKey id))
    (hpins : ∀ hash, IsPinnedHash kv hash → hash ∈ vm.pinned → hash ∈ vm'.pinned)
    (hnew : ∀ id, IsPinned kv' id → IsPinned kv id ∨ ∃ hash, HasHash kv' id hash ∧ hash ∈ vm'.pinned) :
    PinsCached kv' vm' := by
  intro id hid
  rcases hnew id hid with hold | hcached
  · obtain ⟨hash, hhash, hmem⟩ := h id hold
    exact ⟨hash, hhash.congr (hinfos id hold), hpins hash ⟨id, hold, hhash⟩ hmem⟩
  · exact hcached

theorem CodesBelow.congr {kv kv' : KVStore} (h : CodesBelow kv)
    (hkv : ∀ key, key.head? = some 1 ∨ key = keySequenceCodeID → kv'.get key = kv.get key) : CodesBelow kv' := by
  intro id info hinfo n hn
  rw [hkv _ (.inl rfl)] at hinfo
  rw [hkv _ (.inr rfl)] at hn
  exact h id info hinfo n hn

/-- The id that the sequence gives next has no info yet, and so no pin. -/
theorem PinsHold.next_free (h : PinsHold d) {n : UInt64} (hn : parseSequence (d.kv.get keySequenceCodeID) = .ok n) :
    ¬ IsPinned d.kv n := by
  intro hpin
  obtain ⟨_, ⟨info, hinfo, -⟩, -⟩ := h.cached n hpin
  exact absurd (h.below n info hinfo n hn) (UInt64.lt_irrefl n)

/-- What `create` leaves of the codes: one more, under the next id. -/
def Created (d : Durable X) (d' : Durable X) : Prop :=
  ∃ n info, parseSequence (d.kv.get keySequenceCodeID) = .ok n ∧ n.toNat + 1 < 2 ^ 64 ∧ d'.vm.pinned = d.vm.pinned ∧
    ∀ key : Bytes, key.head? ≠ some 3 → d'.kv.get key =
      ((d.kv.set keySequenceCodeID (.bytes (uint64ToBigEndian (n + 1)))).set (getCodeKey n) (.codeInfo info)).get key

/-- Nothing but state of contracts and codes in the VM changes. -/
structure Bystanding (d d' : Durable X) : Prop where
  pinned : d'.vm.pinned = d.vm.pinned
  records : ∀ key : Bytes, key.head? ≠ some 3 → d'.kv.get key = d.kv.get key

/-- The same, with the id. -/
def CreatedAs (d : Durable X) (id : UInt64) (d' : Durable X) : Prop :=
  ∃ info, parseSequence (d.kv.get keySequenceCodeID) = .ok id ∧ id.toNat + 1 < 2 ^ 64 ∧ d'.vm.pinned = d.vm.pinned ∧
    ∀ key : Bytes, key.head? ≠ some 3 → d'.kv.get key =
      ((d.kv.set keySequenceCodeID (.bytes (uint64ToBigEndian (id + 1)))).set (getCodeKey id) (.codeInfo info)).get key

theorem CreatedAs.after {d₁ : Durable X} {id : UInt64} (h : Bystanding d d₁) (h' : CreatedAs d₁ id d') : CreatedAs d id d' := by
  obtain ⟨info, hn, hlt, hvm, hkv⟩ := h'
  refine ⟨info, by rwa [h.records _ (by simp)] at hn, hlt, hvm.trans h.pinned, fun key hkey ↦ ?_⟩
  rw [hkv key hkey]
  exact OrderedStore.get_set_congr (OrderedStore.get_set_congr (h.records key hkey) _ _) _ _

theorem created_bind {m : M X α} {f : α → M X β} {id : β → UInt64} (hm : Ensures m fun d _ d' ↦ Bystanding d d')
    (hf : ∀ a, Ensures (f a) fun d b d' ↦ CreatedAs d (id b) d') : Ensures (m >>= f) fun d b d' ↦ CreatedAs d (id b) d' :=
  (Ensures.bind hm hf).mono fun _ _ _ ⟨_, _, hby, hcreated⟩ ↦ hcreated.after hby

theorem bystanding_of_eq (h : d' = d) : Bystanding d d' := by
  subst h
  exact ⟨rfl, fun _ _ ↦ rfl⟩

theorem bystanding_local {m : M X α} (h : Local none m) : Ensures m fun d _ d' ↦ Bystanding d d' := by
  refine h.ensures.mono fun d _ d' hquiet ↦ ?_
  exact ⟨congrArg VMCache.pinned hquiet.vm, fun key hkey ↦ hquiet.records key (not_isStateKey hkey)⟩

theorem ensures_createdAs (c : Ctx) (creator : AccAddress) (wasmCode : Bytes) (access : Option AccessConfig)
    (authZ : AuthorizationPolicy) : Ensures (create k c creator wasmCode access authZ) fun d r d' ↦ CreatedAs d r.1 d' := by
  have hauthorize : ∀ decision e, Ensures (authorize c authZ decision e : M X Unit) fun d _ d' ↦ Bystanding d d' :=
    fun decision e ↦ (Ensures.authorize c authZ decision e).mono fun _ _ _ h ↦ bystanding_of_eq h
  have hstore : ∀ code gasLeft, Ensures (vmStoreCode k code gasLeft) fun d _ d' ↦ Bystanding d d' := by
    intro code gasLeft
    have hreturn : ∀ r, Ensures (pure r : M X (Except String Bytes × Gas)) fun d _ d' ↦ Bystanding d d' :=
      fun r ↦ (Ensures.pure r).mono fun _ _ _ h ↦ bystanding_of_eq h.2
    have hcache : Ensures (Program.update fun w : World X ↦
        { w with vm := { w.vm with codes := w.vm.codes.set (k.wasmVM.checksum code) code } }) fun d _ d' ↦
          Bystanding d d' := by
      intro w _ w' hr
      cases hr
      exact ⟨rfl, fun _ _ ↦ rfl⟩
    unfold vmStoreCode
    dsimp only
    split
    · exact hreturn _
    · split
      · exact hreturn _
      · refine (hcache.bind fun _ ↦ Ensures.pure _).mono ?_
        rintro d _ _ ⟨_, _, hby, -, rfl⟩
        exact hby
  refine created_bind (bystanding_local (Local.require _ _)) fun _ ↦ ?_
  refine created_bind (bystanding_local Local.getParams) fun params ↦ ?_
  refine created_bind (bystanding_local (Local.liftPanic _)) fun defaultAccess ↦ ?_
  refine created_bind (bystanding_local Local.getParams) fun params ↦ ?_
  refine created_bind (hauthorize _ _) fun _ ↦ ?_
  refine created_bind (bystanding_local (Local.unpackCode wasmCode)) fun code ↦ ?_
  refine created_bind (bystanding_local (Local.runtimeGasForContract k)) fun gasLeft ↦ ?_
  refine created_bind (hstore code gasLeft) fun (stored, gasUsed) ↦ ?_
  refine created_bind (bystanding_local (Local.consumeRuntimeGas k gasUsed)) fun _ ↦ ?_
  refine created_bind (bystanding_local (Local.lift _)) fun checksum ↦ ?_
  refine created_bind (bystanding_local (Local.analyzeCode checksum _)) fun report ↦ ?_
  refine ((Writes.persistCode k _).ensures.bind fun id ↦ (Ensures.emitEvents _).bind fun _ ↦ Ensures.pure _).mono ?_
  rintro d _ _ ⟨id, _, ⟨hid, hlt, rfl⟩, _, _, rfl, rfl, rfl⟩
  exact ⟨_, hid, hlt, rfl, fun _ _ ↦ rfl⟩

theorem ensures_create (c : Ctx) (creator : AccAddress) (wasmCode : Bytes) (access : Option AccessConfig)
    (authZ : AuthorizationPolicy) : Ensures (create k c creator wasmCode access authZ) fun d _ d' ↦ Created d d' :=
  (ensures_createdAs c creator wasmCode access authZ).mono fun _ r _ ⟨info, hcreated⟩ ↦ ⟨r.1, info, hcreated⟩

theorem PinsHold.created (h : PinsHold d) (hd : Created d d') : PinsHold d' := by
  obtain ⟨n, info, hn, hlt, hvm, hkv⟩ := hd
  have hseq : parseSequence (d'.kv.get keySequenceCodeID) = .ok (n + 1) := by
    rw [hkv _ (by simp), get_set_of_head _ (by simp), OrderedStore.get_set_self, parseSequence_uint64ToBigEndian]
  have hmark : ∀ id, d'.kv.get (getPinnedCodeIndexPrefix id) = d.kv.get (getPinnedCodeIndexPrefix id) := by
    intro id
    rw [hkv _ (by simp), get_set_of_head _ (by simp), get_set_of_head _ (by simp)]
  have hcode : ∀ id, id ≠ n → d'.kv.get (getCodeKey id) = d.kv.get (getCodeKey id) := by
    intro id hid
    have hne : getCodeKey id ≠ getCodeKey n := fun heq ↦ hid (uint64ToBigEndian_injective (List.append_cancel_left heq))
    rw [hkv _ (by simp), OrderedStore.get_set_of_ne _ _ hne, get_set_of_head _ (by simp)]
  constructor
  · refine h.cached.step (fun id hid ↦ hcode id ?_) (fun hash _ hmem ↦ by rwa [hvm]) fun id hid ↦ .inl ?_
    · rintro rfl
      exact h.next_free hn hid
    · rwa [IsPinned, hmark] at hid
  · intro id info' hinfo m hm
    obtain rfl : n + 1 = m := Except.ok.inj (hseq.symm.trans hm)
    have hsucc : (n + 1).toNat = n.toNat + 1 := by
      rw [UInt64.toNat_add]
      exact Nat.mod_eq_of_lt hlt
    rw [UInt64.lt_iff_toNat_lt, hsucc]
    by_cases hid : id = n
    · subst hid
      omega
    · rw [hcode id hid] at hinfo
      have := UInt64.lt_iff_toNat_lt.1 (h.below id info' hinfo n hn)
      omega

/-- Neither the infos nor the sequence change, and neither pins in the VM nor new marks get lost. -/
theorem PinsHold.step (h : PinsHold d)
    (hkv : ∀ key, key.head? = some 1 ∨ key = keySequenceCodeID → d'.kv.get key = d.kv.get key)
    (hpins : ∀ hash ∈ d.vm.pinned, hash ∈ d'.vm.pinned)
    (hnew : ∀ id, IsPinned d'.kv id → IsPinned d.kv id ∨ ∃ hash, HasHash d'.kv id hash ∧ hash ∈ d'.vm.pinned) :
    PinsHold d' :=
  ⟨h.cached.step (fun _ _ ↦ hkv _ (.inl rfl)) (fun hash _ ↦ hpins hash) hnew, h.below.congr hkv⟩

theorem getPinnedCodeIndexPrefix_inj {id id' : UInt64} (h : getPinnedCodeIndexPrefix id = getPinnedCodeIndexPrefix id') :
    id = id' := uint64ToBigEndian_injective (List.append_cancel_left h)

theorem ensures_eachCode {f : UInt64 → M X Unit} {I : List UInt64 → Durable X → Prop}
    (hf : ∀ id rest, Ensures (f id) fun d _ d' ↦ I (id :: rest) d → I rest d') (ids : List UInt64) :
    Ensures (MsgServer.eachCode f ids) fun d _ d' ↦ I ids d → I [] d' := by
  induction ids with
  | nil =>
    refine (Ensures.pure ()).mono ?_
    rintro d _ _ ⟨-, rfl⟩ hd
    exact hd
  | cons id ids ih =>
    refine ((hf id ids).bind fun _ ↦ ih).mono ?_
    rintro d _ d' ⟨_, d₁, h₁, h₂⟩ hd
    exact h₂ (h₁ hd)

theorem ensures_pinCode (id : UInt64) : Ensures (pinCode k id) fun d _ d' ↦ PinsHold d → PinsHold d' := by
  refine (Ensures.pinCode id).mono ?_
  rintro d _ _ ⟨info, hinfo, rfl⟩ h
  refine h.step (fun key hkey ↦ get_set_of_head _ ?_) (fun hash hmem ↦ List.mem_cons_of_mem _ hmem) fun id' hid' ↦ ?_
  · rcases hkey with hkey | rfl
    · simp [hkey]
    · simp
  · by_cases heq : id' = id
    · subst heq
      exact .inr ⟨_, ⟨info, (get_set_of_head _ (by simp)).trans hinfo, rfl⟩, List.mem_cons_self⟩
    · refine .inl ?_
      have hne : getPinnedCodeIndexPrefix id' ≠ getPinnedCodeIndexPrefix id :=
        fun h ↦ heq (getPinnedCodeIndexPrefix_inj h)
      rwa [IsPinned, Durable.kv_withKV, OrderedStore.get_set_of_ne _ _ hne] at hid'

theorem ensures_unpinCode (id : UInt64) : Ensures (unpinCode k id) fun d _ d' ↦ ∃ info,
    d.kv.get (getCodeKey id) = some (.codeInfo info) ∧
    d' = (d.withVM { d.vm with pinned := d.vm.pinned.filter (· ≠ info.codeHash) }).withKV
      (d.kv.delete (getPinnedCodeIndexPrefix id)) := by
  refine ((Writes.getCodeInfo k id).ensures.bind fun r ↦ (?_ : Ensures _ fun d _ d' ↦ ∃ info, r = some info ∧
    d' = (d.withVM { d.vm with pinned := d.vm.pinned.filter (· ≠ info.codeHash) }).withKV
      (d.kv.delete (getPinnedCodeIndexPrefix id)))).mono ?_
  · cases r with
    | none => exact Ensures.fail _
    | some info =>
      have hunpin : Ensures (Program.update fun w : World X ↦
          { w with vm := { w.vm with pinned := w.vm.pinned.filter (· ≠ info.codeHash) } }) fun d _ d' ↦
          d' = d.withVM { d.vm with pinned := d.vm.pinned.filter (· ≠ info.codeHash) } := Ensures.update fun _ ↦ rfl
      refine (hunpin.bind fun _ ↦ (Writes.deleteKV k _).ensures.bind fun _ ↦ Ensures.emitEvents _).mono ?_
      rintro d _ _ ⟨_, _, rfl, _, _, rfl, rfl⟩
      exact ⟨info, rfl, rfl⟩
  · rintro d _ d' ⟨_, _, ⟨rfl, hget⟩, info, rfl, rfl⟩
    exact ⟨info, hget, rfl⟩

/-- Between two unpinned codes of a list: what is still to be unpinned may have lost its pin in the VM. -/
structure Unpinning (rest : List UInt64) (d : Durable X) : Prop where
  below : CodesBelow d.kv
  alike : UnpinsAlike d.kv rest
  cached : ∀ id, IsPinned d.kv id → ∃ hash, HasHash d.kv id hash ∧ (hash ∈ d.vm.pinned ∨ id ∈ rest)

theorem Unpinning.step {id : UInt64} {rest : List UInt64} (h : Unpinning (id :: rest) d) {info : CodeInfo}
    (hinfo : d.kv.get (getCodeKey id) = some (.codeInfo info)) :
    Unpinning rest ((d.withVM { d.vm with pinned := d.vm.pinned.filter (· ≠ info.codeHash) }).withKV
      (d.kv.delete (getPinnedCodeIndexPrefix id))) := by
  have hkv : ∀ key : Bytes, key.head? ≠ some 7 → (d.kv.delete (getPinnedCodeIndexPrefix id)).get key = d.kv.get key :=
    fun key hkey ↦ OrderedStore.get_delete_of_ne _ (head_ne (by simpa using hkey))
  have hcode : ∀ id' hash, HasHash (d.kv.delete (getPinnedCodeIndexPrefix id)) id' hash → HasHash d.kv id' hash :=
    fun id' hash hhash ↦ hhash.congr (hkv _ (by simp)).symm
  have hpinned : ∀ id', IsPinned (d.kv.delete (getPinnedCodeIndexPrefix id)) id' → id' ≠ id ∧ IsPinned d.kv id' := by
    intro id' hid'
    rw [IsPinned, OrderedStore.get_delete] at hid'
    split_ifs at hid' with heq
    · cases hid'
    · exact ⟨fun h ↦ heq (h ▸ rfl), hid'⟩
  have hrest : ∀ {id'}, id' ≠ id → id' ∈ id :: rest → id' ∈ rest := by
    intro id' hne hmem
    exact (List.mem_cons.1 hmem).resolve_left hne
  refine ⟨h.below.congr fun key hkey ↦ hkv key ?_, ?_, fun id' hid' ↦ ?_⟩
  · rcases hkey with hkey | rfl
    · simp [hkey]
    · simp
  · intro id₁ hid₁ hash hhash other hother hotherHash
    obtain ⟨hne, hother⟩ := hpinned other hother
    exact hrest hne (h.alike id₁ (List.mem_cons_of_mem _ hid₁) hash (hcode _ _ hhash) other hother (hcode _ _ hotherHash))
  · obtain ⟨hne, hold⟩ := hpinned id' hid'
    obtain ⟨hash, hhash, hcached⟩ := h.cached id' hold
    refine ⟨hash, hhash.congr (hkv _ (by simp)), ?_⟩
    by_cases heq : hash = info.codeHash
    · subst heq
      exact .inr (hrest hne (h.alike id List.mem_cons_self _ ⟨info, hinfo, rfl⟩ id' hold hhash))
    · rcases hcached with hmem | hmem
      · exact .inl (List.mem_filter.2 ⟨hmem, decide_eq_true heq⟩)
      · exact .inr (hrest hne hmem)

theorem ensures_pinMarked (id : UInt64) : Ensures (pinMarked k id) fun d _ d' ↦ d'.kv = d.kv := by
  refine ((Writes.getCodeInfo k id).ensures.bind fun r ↦ (?_ : Ensures _ fun d _ d' ↦ d'.kv = d.kv)).mono ?_
  · cases r with
    | none => exact Ensures.fail _
    | some info =>
      have hread : Ensures (Program.read fun w : World X ↦ (w.vm.codes.get info.codeHash).isSome) fun d _ d' ↦ d' = d :=
        fun _ _ _ hr ↦ by cases hr; rfl
      have hpin : Ensures (Program.update fun w : World X ↦
          { w with vm := { w.vm with pinned := info.codeHash :: w.vm.pinned } }) fun d _ d' ↦ d'.kv = d.kv :=
        fun _ _ _ hr ↦ by cases hr; rfl
      refine (hread.bind fun _ ↦ (Ensures.require _ _).bind fun _ ↦ hpin).mono ?_
      rintro d _ d' ⟨_, _, rfl, _, _, ⟨-, rfl⟩, hkv⟩
      exact hkv
  · rintro d _ d' ⟨_, _, ⟨rfl, -⟩, hkv⟩
    exact hkv

theorem ensures_initializePinnedCodes : Ensures (initializePinnedCodes k) fun d _ d' ↦ d'.kv = d.kv := by
  have hloop : ∀ es, Ensures (visitEntries (fun e ↦ parsePinnedCodeIndex e.1)
      (fun _ codeID ↦ do pinMarked k codeID; return ((), false)) () es) fun d _ d' ↦ d'.kv = d.kv := by
    intro es
    induction es with
    | nil => exact (Ensures.pure ()).mono fun _ _ _ h ↦ congrArg Durable.kv h.2
    | cons e es ih =>
      have hnext : ∀ r : Unit × Bool, Ensures (if r.2 = true then pure r.1 else visitEntries
          (fun e ↦ parsePinnedCodeIndex e.1) (fun _ codeID ↦ do pinMarked k codeID; return ((), false)) r.1 es)
          fun d _ d' ↦ d'.kv = d.kv := by
        rintro ⟨⟨⟩, _ | _⟩
        · exact ih
        · exact (Ensures.pure ()).mono fun _ _ _ h ↦ congrArg Durable.kv h.2
      refine ((Writes.liftPanic _).ensures.bind fun codeID ↦ ((ensures_pinMarked codeID).bind fun _ ↦
        Ensures.pure ((), false)).bind hnext).mono ?_
      rintro d _ d' ⟨_, _, ⟨-, rfl⟩, _, d₁, ⟨_, _, hpin, -, rfl⟩, hrest⟩
      exact hrest.trans hpin
  refine ((Writes.iterateKV k _).ensures.bind fun es ↦ hloop es).mono ?_
  rintro d _ d' ⟨_, _, ⟨-, rfl⟩, hkv⟩
  exact hkv

section Import

variable {g : GenesisState} {m : UInt64} {d₁ d₂ : Durable X}
  (hcodes : CodesImported k g.codes (d.withKV (d.kv.set paramsKey (.params g.params))) d₁)
  (hcontracts : ContractsImported k g.contracts d₁ d₂) (hseqs : SequencesImported g.sequences d₂ d')
include hcodes hcontracts hseqs

theorem imported_code (id : UInt64) (info : CodeInfo) : d'.kv.get (getCodeKey id) = some (.codeInfo info) ↔
    d.kv.get (getCodeKey id) = some (.codeInfo info) ∨ ∃ c ∈ g.codes, id = c.codeID ∧ info = c.codeInfo := by
  have hrow : ¬ ∃ s ∈ g.sequences, getCodeKey id = s.idKey ∧
      Value.codeInfo info = .bytes (uint64ToBigEndian s.value) := by
    rintro ⟨s, -, -, hv⟩
    cases hv
  rw [hseqs.rows, or_iff_left hrow, hcontracts.apart _ (by simp), getCodeKey, hcodes.infos, Durable.kv_withKV,
    get_set_of_head _ (by simp [codeKeyPrefix])]
  refine or_congr_right ⟨?_, ?_⟩
  · rintro ⟨c, hc, hid, hinfo⟩
    exact ⟨c, hc, uint64ToBigEndian_injective hid, Value.codeInfo.inj hinfo⟩
  · rintro ⟨c, hc, rfl, rfl⟩
    exact ⟨c, hc, rfl, rfl⟩

theorem imported_pin (hkeys : ∀ s ∈ g.sequences, ∀ id, s.idKey ≠ getPinnedCodeIndexPrefix id) {id : UInt64}
    (hid : IsPinned d'.kv id) : IsPinned d.kv id ∨ ∃ c ∈ g.codes, c.pinned = true ∧ id = c.codeID := by
  have hsame : d'.kv.get (getPinnedCodeIndexPrefix id) = d₁.kv.get (getPinnedCodeIndexPrefix id) := by
    rw [hseqs.rows.get_of_no_row, hcontracts.apart _ (by simp)]
    rintro v ⟨s, hs, hkey, -⟩
    exact hkeys s hs id hkey.symm
  rw [IsPinned, hsame, getPinnedCodeIndexPrefix, hcodes.pins, Durable.kv_withKV,
    get_set_of_head _ (by simp [pinnedCodeIndexPrefix])] at hid
  refine hid.imp_right ?_
  rintro ⟨c, hc, hpin, hkey⟩
  exact ⟨c, hc, hpin, uint64ToBigEndian_injective hkey⟩

/-- The sequence that is there stays; where none is, all ids are below one. -/
theorem imported_below (h : CodesBelow d.kv) (hle : ∀ c ∈ g.codes, c.codeID ≤ m) (hchecked : SequencesChecked k m d') :
    CodesBelow d'.kv := by
  obtain ⟨n', hn', hlt⟩ := hchecked.codes
  intro id info hinfo n hn
  obtain rfl : n' = n := Except.ok.inj (hn'.symm.trans hn)
  rcases (imported_code hcodes hcontracts hseqs id info).1 hinfo with hold | ⟨c, hc, rfl, -⟩
  · rcases hseq : d.kv.get keySequenceCodeID with _ | v
    · have hone := h id info hold 1 (by rw [hseq]; rfl)
      rw [UInt64.lt_iff_toNat_lt] at hone hlt ⊢
      have h1 : (1 : UInt64).toNat = 1 := rfl
      omega
    · refine h id info hold n' ?_
      have hkeep : d₂.kv.get keySequenceCodeID = some v := by
        rw [hcontracts.apart _ (by simp), hcodes.apart _ (by simp) (by simp), Durable.kv_withKV,
          get_set_of_head _ (by simp), hseq]
      rwa [hseqs.rows.get_of_some hkeep, ← hseq] at hn'
  · exact UInt64.lt_of_le_of_lt (hle c hc) hlt

/-- An import adds pins and keeps what is there, if no sequence takes the place of a pin. -/
theorem PinsHold.imported (h : PinsHold d) (hle : ∀ c ∈ g.codes, c.codeID ≤ m) (hchecked : SequencesChecked k m d')
    (hkeys : ∀ s ∈ g.sequences, ∀ id, s.idKey ≠ getPinnedCodeIndexPrefix id) : PinsHold d' := by
  have hvm : d'.vm = d₁.vm := hseqs.vm.trans hcontracts.vm
  refine ⟨fun id hid ↦ ?_, imported_below hcodes hcontracts hseqs h.below hle hchecked⟩
  rw [hvm]
  rcases imported_pin hcodes hcontracts hseqs hkeys hid with hold | ⟨c, hc, hpin, rfl⟩
  · obtain ⟨hash, ⟨info, hinfo, rfl⟩, hmem⟩ := h.cached id hold
    exact ⟨_, ⟨info, (imported_code hcodes hcontracts hseqs id info).2 (.inl hinfo), rfl⟩,
      (hcodes.pinned _).2 (.inl hmem)⟩
  · exact ⟨_, ⟨_, (imported_code hcodes hcontracts hseqs _ _).2 (.inr ⟨c, hc, rfl, rfl⟩), rfl⟩,
      (hcodes.pinned _).2 (.inr ⟨c, hc, hpin, rfl⟩)⟩

end Import

theorem ensures_ignore {m : M X α} {post : Durable X → Durable X → Prop} (h : Ensures m fun d _ d' ↦ post d d') :
    Ensures (Runs.ignore m) fun d _ d' ↦ post d d' := by
  refine (Ensures.bind h fun _ ↦ Ensures.pure ()).mono ?_
  rintro d _ d' ⟨_, _, hpost, -, rfl⟩
  exact hpost

theorem PinsHold.op {op : PinOp} {base : KVStore} {w w' : World X} (hrun : op.run k w = (.ok (), w'))
    (h : PinsHold (durable w)) (hop : op.Harmless base w.store.kv true) : PinsHold (durable w') := by
  cases op with
  | create c creator wasmCode access authZ => exact h.created (ensures_ignore (ensures_create c creator wasmCode access authZ) hrun)
  | pinCodes req =>
    have hpins := ensures_eachCode (I := fun _ ↦ PinsHold) (fun id _ ↦ ensures_pinCode (k := k) id) req.codeIDs
    have hmsg : Ensures (MsgServer.pinCodes k req) fun d _ d' ↦ PinsHold d → PinsHold d' := by
      refine ((Ensures.lift _).bind fun _ ↦ (Ensures.require _ _).bind fun _ ↦ hpins.bind fun _ ↦ Ensures.pure _).mono ?_
      rintro d _ _ ⟨_, _, ⟨-, rfl⟩, _, _, ⟨-, rfl⟩, _, _, hpins, -, rfl⟩
      exact hpins
    exact ensures_ignore hmsg hrun h
  | unpinCodes req =>
    have hunpins := ensures_eachCode (I := Unpinning) (fun id rest ↦ (ensures_unpinCode (k := k) id).mono
      fun d _ d' ⟨info, hinfo, hd⟩ hunpin ↦ hd ▸ hunpin.step hinfo) req.codeIDs
    have hmsg : Ensures (MsgServer.unpinCodes k req) fun d _ d' ↦ Unpinning req.codeIDs d → Unpinning [] d' := by
      refine ((Ensures.lift _).bind fun _ ↦ (Ensures.require _ _).bind fun _ ↦ hunpins.bind fun _ ↦ Ensures.pure _).mono ?_
      rintro d _ _ ⟨_, _, ⟨-, rfl⟩, _, _, ⟨-, rfl⟩, _, _, hunpins, -, rfl⟩
      exact hunpins
    have hend := ensures_ignore hmsg hrun ⟨h.below, hop, fun id hid ↦ ?_⟩
    · refine ⟨fun id hid ↦ ?_, hend.below⟩
      obtain ⟨hash, hhash, hmem | hnil⟩ := hend.cached id hid
      · exact ⟨hash, hhash, hmem⟩
      · cases hnil
    · obtain ⟨hash, hhash, hmem⟩ := h.cached id hid
      exact ⟨hash, hhash, .inl hmem⟩
  | initGenesis g =>
    obtain ⟨m, d₁, d₂, hcodes, hle, hcontracts, hseqs, hchecked⟩ := ensures_initGenesis g hrun
    exact h.imported hcodes hcontracts hseqs hle hchecked hop
  | initializePinnedCodes =>
    have hkv : (durable w').kv = (durable w).kv := ensures_initializePinnedCodes hrun
    have hpins := KeepsPins.initializePinnedCodes (H := fun _ ↦ True) (k := k) w
    rw [show initializePinnedCodes k w = _ from hrun] at hpins
    refine h.step (fun key _ ↦ by rw [hkv]) (fun hash hmem ↦ hpins hash trivial hmem) fun id hid ↦ .inl ?_
    rwa [hkv] at hid

theorem PinsHold.ops {ops : List PinOp} {base : KVStore} {w w' : World X} (hrun : runOps k ops w = (.ok (), w'))
    (h : PinsHold (durable w)) (hops : Harmless k base true w ops) : PinsHold (durable w') := by
  induction ops generalizing w with
  | nil =>
    cases hrun
    exact h
  | cons op ops ih =>
    obtain ⟨⟨⟩, w₁, hop, hrest⟩ := Program.bind_eq_ok.1 hrun
    exact ih hrest (h.op hop hops.1) (hops.2 w₁ hop)

end Kept

section Devnet

variable {C : Bool → World X → List PinOp → Prop} {w : World X} {ops : List PinOp}

theorem PinRun.keep (h : PinRun k C (durable w)) (hr : (runOps k ops w).1 = .ok ()) (hC : C true w ops) :
    PinRun k C (durable (runOps k ops w).2) :=
  @PinRun.tx X k C w _ ops _ true h (Program.apply_eq hr) (fun _ ↦ rfl) hC

theorem PinRun.revert (h : PinRun k C (durable w)) (hC : C false w ops) :
    PinRun k C ⟨w.store, (runOps k ops w).2.vm⟩ :=
  @PinRun.tx X k C w _ ops _ false h (Program.apply_eq rfl) (fun hkept ↦ nomatch hkept) hC

end Devnet

end Cosmwasgo.Properties
