import Cosmwasgo.Keeper.Iteration
import Cosmwasgo.Properties.Packets
import Cosmwasgo.Registry.Records
import Cosmwasgo.State.Devnet

namespace Cosmwasgo.Properties

open Cosmwasgo.Lib Cosmwasgo.Types Cosmwasgo.State Cosmwasgo.Keeper Cosmwasgo.Registry

variable {X : Type}

/-- `PortIdentifierValidator` of IBC. -/
def validPortID (id : String) : Bool :=
  2 ≤ id.utf8ByteSize && id.utf8ByteSize ≤ 128 && id.toList.all fun c ↦ c.isAlphanum || "._+-#[]<>".toList.contains c

/-- The records the module keeps in its store, with what their keys are made of. -/
inductive StoreKey
  | code (codeID : UInt64)
  | contractInfo (addr : AccAddress)
  | contractState (addr : AccAddress) (key : Bytes)
  | sequenceCodeID
  | sequenceInstanceID
  | history (addr : AccAddress) (pos : UInt64)
  | byCode (codeID : UInt64) (updated : AbsoluteTxPosition) (addr : AccAddress)
  | byCreator (creator : AccAddress) (position : AbsoluteTxPosition) (addr : AccAddress)
  | pinned (codeID : UInt64)
  | params
  | txCounter
  | asyncAck (portID channelID : String) (sequence : UInt64)

namespace StoreKey

/-- The key in the store. There is none below a creator whose address has no length byte. -/
def encode : StoreKey → Option Bytes
  | code codeID => some (getCodeKey codeID)
  | contractInfo addr => some (getContractAddressKey addr)
  | contractState addr key => some (getContractStorePrefix addr ++ key)
  | sequenceCodeID => some keySequenceCodeID
  | sequenceInstanceID => some keySequenceInstanceID
  | history addr pos => some (getContractCodeHistoryElementKey addr pos)
  | byCode codeID updated addr => some (getContractByCreatedSecondaryIndexKey addr codeID updated)
  | byCreator creator position addr =>
    (getContractsByCreatorPrefix creator).map (getContractByCreatorSecondaryIndexKey · position addr)
  | pinned codeID => some (getPinnedCodeIndexPrefix codeID)
  | params => some paramsKey
  | txCounter => some txCounterPrefix
  | asyncAck portID channelID sequence => some (asyncAckKey portID channelID sequence)

/-- The contracts are among `A`, ports and channels have valid identifiers. -/
def Over (A : Set AccAddress) : StoreKey → Prop
  | contractInfo addr | contractState addr _ | history addr _ | byCode _ _ addr | byCreator _ _ addr => addr ∈ A
  | asyncAck portID channelID _ => validPortID portID = true ∧ validChannelID channelID = true
  | _ => True

/-- Creators have addresses, which are never empty. -/
def Created : StoreKey → Prop
  | byCreator creator _ _ => creator ≠ []
  | _ => True

/-- The first byte of the key. -/
def family : StoreKey → Byte
  | code _ => 1
  | contractInfo _ => 2
  | contractState _ _ => 3
  | sequenceCodeID | sequenceInstanceID => 4
  | history _ _ => 5
  | byCode _ _ _ => 6
  | pinned _ => 7
  | txCounter => 8
  | byCreator _ _ _ => 9
  | params => 16
  | asyncAck _ _ _ => 17

theorem head?_encode {x : StoreKey} {key : Bytes} (h : x.encode = some key) : key.head? = some x.family := by
  cases x with
  | byCreator creator position addr =>
    obtain ⟨head, hhead, rfl⟩ := Option.map_eq_some_iff.1 h
    exact head?_getContractByCreatorSecondaryIndexKey hhead _ _
  | _ =>
    cases h
    rfl

theorem family_eq {x y : StoreKey} {key : Bytes} (hx : x.encode = some key) (hy : y.encode = some key) :
    x.family = y.family := Option.some.inj ((head?_encode hx).symm.trans (head?_encode hy))

end StoreKey

/-- No address is a proper prefix of another. -/
def PrefixFree (A : Set AccAddress) : Prop := ∀ a ∈ A, ∀ b ∈ A, a <+: b → a = b

/-- In such a set an address is known from where it begins. -/
theorem PrefixFree.append_inj {A : Set AccAddress} (hA : PrefixFree A) {a b : AccAddress} (ha : a ∈ A) (hb : b ∈ A)
    {x y : Bytes} (h : a ++ x = b ++ y) : a = b ∧ x = y := by
  have hab : a = b := by
    rcases List.prefix_or_prefix_of_prefix (List.prefix_append a x) (h ▸ List.prefix_append b y) with hp | hp
    · exact hA a ha b hb hp
    · exact (hA b hb a ha hp).symm
  subst hab
  exact ⟨rfl, List.append_cancel_left h⟩

section Identifiers

/-- The characters of an identifier are encoded without a zero byte. -/
theorem zero_notMem_encodeChar {c : Char} (h : (c.isAlphanum || "._+-#[]<>".toList.contains c) = true) :
    (0 : Byte) ∉ (String.utf8EncodeChar c).map fun b ↦ Fin.ofNat 256 b.toNat := by
  have hsmall : ∀ n : Fin 128, n ≠ 0 →
      (0 : Byte) ∉ (String.utf8EncodeChar (Char.ofNat n.val)).map fun b ↦ Fin.ofNat 256 b.toNat := by
    decide +kernel
  have hrange : c.toNat < 128 ∧ c.toNat ≠ 0 := by
    rcases Bool.or_eq_true_iff.1 h with h | h
    · delta Char.isAlphanum Char.isAlpha Char.isUpper Char.isLower Char.isDigit at h
      simp only [Bool.or_eq_true, Bool.and_eq_true, decide_eq_true_eq, UInt32.le_iff_toNat_le, ge_iff_le] at h
      change ((65 ≤ c.toNat ∧ c.toNat ≤ 90) ∨ (97 ≤ c.toNat ∧ c.toNat ≤ 122)) ∨ (48 ≤ c.toNat ∧ c.toNat ≤ 57) at h
      omega
    · have hall : ("._+-#[]<>".toList.all fun d ↦ d.toNat < 128 && d.toNat != 0) = true := by decide +kernel
      have hc := List.all_eq_true.1 hall c (List.contains_iff_mem.1 h)
      simpa using hc
  have hc := hsmall ⟨c.toNat, hrange.1⟩ fun h0 ↦ hrange.2 (congrArg Fin.val h0)
  rwa [Char.ofNat_toNat] at hc

theorem zero_notMem_portID {id : String} (h : validPortID id = true) : 0 ∉ stringToBytes id := by
  simp only [validPortID, Bool.and_eq_true, List.all_eq_true] at h
  rw [stringToBytes, List.mem_flatMap]
  rintro ⟨c, hc, h0⟩
  exact zero_notMem_encodeChar (h.2 c hc) h0

end Identifiers

theorem creatorPrefix_inj {c c' : AccAddress} {head head' x x' : Bytes} (hc : c ≠ []) (hc' : c' ≠ [])
    (hhead : getContractsByCreatorPrefix c = some head) (hhead' : getContractsByCreatorPrefix c' = some head')
    (h : head ++ x = head' ++ x') : c = c' ∧ x = x' := by
  rw [getContractsByCreatorPrefix, lengthPrefix, if_neg hc] at hhead
  rw [getContractsByCreatorPrefix, lengthPrefix, if_neg hc'] at hhead'
  split at hhead
  · next hlen =>
    split at hhead'
    · next hlen' =>
      cases hhead
      cases hhead'
      simp only [List.append_assoc, List.cons_append] at h
      exact creator_append_inj (by omega) (by omega) (List.append_cancel_left h)
    · cases hhead'
  · cases hhead

/-- No two records share a key. -/
theorem StoreKey.encode_inj {A : Set AccAddress} (hA : PrefixFree A) {x y : StoreKey} {key : Bytes} (hx : x.Over A)
    (hy : y.Over A) (hcx : x.Created) (hcy : y.Created) (hex : x.encode = some key) (hey : y.encode = some key) :
    x = y := by
  have hf := family_eq hex hey
  cases x with
  | code id =>
    cases y with
    | code id' =>
      have h := List.append_cancel_left (Option.some.inj (hex.trans hey.symm))
      rw [uint64ToBigEndian_injective h]
    | _ => simp [family] at hf
  | contractInfo a =>
    cases y with
    | contractInfo a' =>
      have h := List.append_cancel_left (Option.some.inj (hex.trans hey.symm))
      rw [h]
    | _ => simp [family] at hf
  | contractState a key =>
    cases y with
    | contractState a' key' =>
      have h := Option.some.inj (hex.trans hey.symm)
      simp only [getContractStorePrefix, List.append_assoc] at h
      obtain ⟨rfl, rfl⟩ := hA.append_inj hx hy (List.append_cancel_left h)
      rfl
    | _ => simp [family] at hf
  | sequenceCodeID =>
    cases y with
    | sequenceCodeID => rfl
    | sequenceInstanceID => exact absurd (Option.some.inj (hex.trans hey.symm)) (by decide)
    | _ => simp [family] at hf
  | sequenceInstanceID =>
    cases y with
    | sequenceInstanceID => rfl
    | sequenceCodeID => exact absurd (Option.some.inj (hex.trans hey.symm)) (by decide)
    | _ => simp [family] at hf
  | history a pos =>
    cases y with
    | history a' pos' =>
      have h := Option.some.inj (hex.trans hey.symm)
      simp only [getContractCodeHistoryElementKey, getContractCodeHistoryElementPrefix, List.append_assoc] at h
      obtain ⟨rfl, hpos⟩ := hA.append_inj hx hy (List.append_cancel_left h)
      rw [uint64ToBigEndian_injective hpos]
    | _ => simp [family] at hf
  | byCode id updated a =>
    cases y with
    | byCode id' updated' a' =>
      have h := Option.some.inj (hex.trans hey.symm)
      simp only [getContractByCreatedSecondaryIndexKey, getContractByCodeIDSecondaryIndexPrefix,
        List.append_assoc] at h
      obtain ⟨hid, h⟩ := List.append_inj (List.append_cancel_left h) (by simp)
      obtain ⟨hpos, rfl⟩ := List.append_inj h (by simp)
      rw [uint64ToBigEndian_injective hid, bytes_injective hpos]
    | _ => simp [family] at hf
  | byCreator c pos a =>
    cases y with
    | byCreator c' pos' a' =>
      obtain ⟨head, hhead, rfl⟩ := Option.map_eq_some_iff.1 hex
      obtain ⟨head', hhead', h⟩ := Option.map_eq_some_iff.1 hey
      simp only [getContractByCreatorSecondaryIndexKey, List.append_assoc] at h
      obtain ⟨rfl, h⟩ := creatorPrefix_inj hcy hcx hhead' hhead h
      obtain ⟨hpos, rfl⟩ := List.append_inj h (by simp)
      rw [bytes_injective hpos]
    | _ => simp [family] at hf
  | pinned id =>
    cases y with
    | pinned id' =>
      have h := List.append_cancel_left (Option.some.inj (hex.trans hey.symm))
      rw [uint64ToBigEndian_injective h]
    | _ => simp [family] at hf
  | params =>
    cases y with
    | params => rfl
    | _ => simp [family] at hf
  | txCounter =>
    cases y with
    | txCounter => rfl
    | _ => simp [family] at hf
  | asyncAck port channel seq =>
    cases y with
    | asyncAck port' channel' seq' =>
      have h := Option.some.inj (hex.trans hey.symm)
      obtain ⟨rfl, rfl, rfl⟩ :=
        asyncAckKey_inj (zero_notMem_portID hx.1) (zero_notMem_portID hy.1) hx.2 hy.2 h
      rfl
    | _ => simp [family] at hf

/-- A write of a contract to its own state. -/
inductive StateWrite
  | set (key value : Bytes)
  | delete (key : Bytes)

def StateWrite.run (k : Keeper X) (addr : AccAddress) : StateWrite → M X Unit
  | set key value => contractSet k addr key value
  | delete key => contractRemove k addr key

/-- The world after a number of writes, whatever each of them returned. -/
def afterWrites (k : Keeper X) (addr : AccAddress) (ws : List StateWrite) (w : World X) : World X :=
  ws.foldl (fun w o ↦ (o.run k addr w).2) w

section Frame

variable {k : Keeper X}

/-- Runs that leave what is stored under one key alone. -/
def keyKept (X : Type) (key : Bytes) : Discipline (World X) where
  rel w _ w' := w'.store.kv.get key = w.store.kv.get key
  refl _ := rfl
  trans h h' := h'.trans h
  abort _ := rfl
  expire _ := rfl

theorem keyKept_assertValidKey (key j : Bytes) : (keyKept X key).Obeys (assertValidKey j) := by
  unfold assertValidKey
  split
  · exact .raise fun _ ↦ rfl
  · exact .pure ()

theorem keyKept_consumeGas (key : Bytes) (amount : Gas) (d : String) :
    (keyKept X key).Obeys (consumeGas amount d) := by
  intro w
  unfold consumeGas
  rcases w.meter.consume amount d with ⟨_ | p, m⟩ <;> rfl

theorem keyKept_setKV {key j : Bytes} (h : key ≠ j) (v : Value) : (keyKept X key).Obeys (setKV k j v) :=
  (keyKept_assertValidKey key j).bind fun _ ↦ (keyKept_consumeGas key _ _).bind fun _ ↦
    .update fun w ↦ OrderedStore.get_set_of_ne w.store.kv v h

theorem keyKept_deleteKV {key j : Bytes} (h : key ≠ j) : (keyKept X key).Obeys (deleteKV k j) :=
  (keyKept_assertValidKey key j).bind fun _ ↦ (keyKept_consumeGas key _ _).bind fun _ ↦
    .update fun w ↦ OrderedStore.get_delete_of_ne w.store.kv h

theorem StateWrite.kept {a : AccAddress} {key : Bytes} (h : ∀ x, key ≠ getContractStorePrefix a ++ x) (o : StateWrite) :
    (keyKept X key).Obeys (o.run k a) := by
  cases o with
  | set x v => exact (keyKept_assertValidKey key x).bind fun _ ↦ keyKept_setKV (h x) _
  | delete x => exact keyKept_deleteKV (h x)

/-- The writes of a contract are confined to the keys below its prefix. -/
theorem get_afterWrites {a : AccAddress} {key : Bytes} (h : ∀ x, key ≠ getContractStorePrefix a ++ x)
    (ws : List StateWrite) (w : World X) : (afterWrites k a ws w).store.kv.get key = w.store.kv.get key := by
  induction ws generalizing w with
  | nil => rfl
  | cons o ws ih => exact (ih _).trans (o.kept h w)

end Frame

section Readers

variable {k : Keeper X} {α σ : Type} {P : Bytes → Prop} {w v : World X}

/-- Worlds that a reader who only looks at the keys of `P` cannot tell apart. -/
structure Indistinct (P : Bytes → Prop) (w v : World X) : Prop where
  meter : w.meter = v.meter
  get : ∀ key, P key → w.store.kv.get key = v.store.kv.get key

theorem Indistinct.liftPanic (e : Except Panic α) : Agrees (Indistinct (X := X) P) Eq (liftPanic e) (liftPanic e) := by
  intro w v h
  right
  cases e with
  | ok a => exact ⟨.ok rfl, h⟩
  | error p => exact ⟨.panic p, h⟩

theorem Indistinct.consumeGas (amount : Gas) (d : String) :
    Agrees (Indistinct (X := X) P) Eq (consumeGas amount d) (consumeGas amount d) := by
  intro w v h
  right
  unfold Keeper.consumeGas
  rw [h.meter]
  rcases v.meter.consume amount d with ⟨_ | p, m⟩
  · exact ⟨.ok rfl, rfl, h.get⟩
  · exact ⟨.panic p, rfl, h.get⟩

theorem Indistinct.assertValidKey (key : Bytes) :
    Agrees (Indistinct (X := X) P) Eq (assertValidKey key) (assertValidKey key) := by
  unfold Keeper.assertValidKey
  split
  · exact fun w v h ↦ .inr ⟨.panic _, h⟩
  · exact .pure rfl

theorem Indistinct.getKV {key : Bytes} (hkey : P key) : Agrees (Indistinct P) Eq (getKV k key) (getKV k key) := by
  refine (assertValidKey key).bind fun _ _ _ ↦ ?_
  refine Agrees.bind (V := Eq) (fun w v h ↦ .inr ⟨.ok (h.get key hkey), h⟩) ?_
  rintro x _ rfl
  exact (consumeGas _ _).bind fun _ _ _ ↦ .pure rfl

theorem Indistinct.iterateKV {p : Bytes} (hp : ∀ x, P (p ++ x)) :
    Agrees (Indistinct P) Eq (iterateKV k p) (iterateKV k p) := by
  refine Agrees.bind (V := Eq) (fun w v h ↦ .inr ⟨.ok (OrderedStore.scan_congr fun x ↦ h.get _ (hp x)), h⟩) ?_
  rintro es _ rfl
  exact (consumeGas _ _).bind fun _ _ _ ↦ .pure rfl

theorem Indistinct.outcome {m : M X α} (hm : Agrees (Indistinct P) Eq m m) (h : Indistinct P w v) :
    (m w).1 = (m v).1 := by
  rcases hm w v h with ⟨hw, hv⟩ | ⟨hwv, -⟩
  · rw [hw, hv]
  · exact hwv.eq

theorem Indistinct.queryRaw {a : AccAddress} (hP : ∀ x, P (getContractStorePrefix a ++ x)) (key : Option Bytes) :
    Agrees (Indistinct P) Eq (queryRaw k a key) (queryRaw k a key) := by
  cases key with
  | none => exact .pure rfl
  | some key =>
    refine (getKV (hP key)).bind ?_
    rintro v _ rfl
    exact .pure rfl

theorem Indistinct.visitEntries {β : Type} (decode : Bytes × Value → Except Panic β) (cb : σ → β → σ × Bool) (s : σ)
    (es : List (Bytes × Value)) :
    Agrees (Indistinct (X := X) P) Eq (visitEntries decode (fun s b ↦ pure (cb s b)) s es)
      (visitEntries decode (fun s b ↦ pure (cb s b)) s es) := by
  induction es generalizing s with
  | nil => exact .pure rfl
  | cons e es ih =>
    refine (liftPanic (decode e)).bind ?_
    rintro b _ rfl
    refine Agrees.bind (V := Eq) (.pure rfl) ?_
    rintro ⟨s', stop⟩ _ rfl
    cases stop with
    | true => exact .pure rfl
    | false => exact ih s'

theorem Indistinct.iterateContractState {a : AccAddress} (hP : ∀ x, P (getContractStorePrefix a ++ x))
    (cb : σ → Bytes × Bytes → σ × Bool) (s : σ) :
    Agrees (Indistinct P) Eq (iterateContractState k a (fun s e ↦ pure (cb s e)) s)
      (iterateContractState k a (fun s e ↦ pure (cb s e)) s) := by
  refine (iterateKV hP).bind ?_
  rintro es _ rfl
  exact visitEntries _ cb s es

theorem Indistinct.getContractHistory {a : AccAddress} (hP : ∀ x, P (getContractCodeHistoryElementPrefix a ++ x)) :
    Agrees (Indistinct P) Eq (getContractHistory k a) (getContractHistory k a) := by
  refine (iterateKV hP).bind ?_
  rintro es _ rfl
  exact liftPanic _

end Readers

/-- What the writes of a contract to its state leave as it was: every record but that state, and what is read of
another contract, or of any history, by a reader with a context of its own. -/
structure Untouched (k : Keeper X) (A : Set AccAddress) (a : AccAddress) (st st' : Store X) : Prop where
  records : ∀ {x : StoreKey} {key : Bytes}, (∀ b y, x = .contractState b y → b ∈ A ∧ b ≠ a) → x.encode = some key →
    st'.kv.get key = st.kv.get key
  raw : ∀ b ∈ A, b ≠ a → ∀ key (v : World X),
    (queryRaw k b key { v with store := st' }).1 = (queryRaw k b key { v with store := st }).1
  models : ∀ b ∈ A, b ≠ a → ∀ {σ : Type} (cb : σ → Bytes × Bytes → σ × Bool) (s : σ) (v : World X),
    (iterateContractState k b (fun s e ↦ pure (cb s e)) s { v with store := st' }).1 =
      (iterateContractState k b (fun s e ↦ pure (cb s e)) s { v with store := st }).1
  histories : ∀ b (v : World X),
    (getContractHistory k b { v with store := st' }).1 = (getContractHistory k b { v with store := st }).1

section

variable {k : Keeper X} {A : Set AccAddress} {a b : AccAddress}

/-- The prefix stores of two contracts have no key in common. -/
theorem PrefixFree.state_ne (hA : PrefixFree A) (ha : a ∈ A) (hb : b ∈ A) (hne : b ≠ a) (x y : Bytes) :
    getContractStorePrefix b ++ x ≠ getContractStorePrefix a ++ y := by
  intro h
  simp only [getContractStorePrefix, List.append_assoc] at h
  exact hne (hA.append_inj hb ha (List.append_cancel_left h)).1

theorem StoreKey.encode_ne (hA : PrefixFree A) (ha : a ∈ A) {x : StoreKey} {key : Bytes}
    (hx : ∀ b y, x = .contractState b y → b ∈ A ∧ b ≠ a) (hex : x.encode = some key) (y : Bytes) :
    key ≠ getContractStorePrefix a ++ y := by
  rintro rfl
  have hf : some x.family = some 3 := (head?_encode hex).symm.trans rfl
  cases x with
  | contractState b z =>
    obtain ⟨hb, hne⟩ := hx b z rfl
    exact hA.state_ne ha hb hne z y (Option.some.inj hex)
  | _ => simp [family] at hf

theorem untouched_afterWrites (hA : PrefixFree A) (ha : a ∈ A) (ws : List StateWrite) (w : World X) :
    Untouched k A a w.store (afterWrites k a ws w).store := by
  have hstate : ∀ b ∈ A, b ≠ a → ∀ v : World X, Indistinct (fun key ↦ ∃ x, key = getContractStorePrefix b ++ x)
      { v with store := (afterWrites k a ws w).store } { v with store := w.store } := by
    refine fun b hb hne v ↦ ⟨rfl, ?_⟩
    rintro _ ⟨x, rfl⟩
    exact get_afterWrites (fun y ↦ hA.state_ne ha hb hne x y) ws w
  have hhistory : ∀ b : AccAddress, ∀ v : World X,
      Indistinct (fun key ↦ ∃ x, key = getContractCodeHistoryElementPrefix b ++ x)
        { v with store := (afterWrites k a ws w).store } { v with store := w.store } := by
    refine fun b v ↦ ⟨rfl, ?_⟩
    rintro _ ⟨x, rfl⟩
    exact get_afterWrites (fun y ↦ head_ne (by simp [getContractCodeHistoryElementPrefix, getContractStorePrefix,
      contractCodeHistoryElementPrefix, contractStorePrefix])) ws w
  refine ⟨fun hx hex ↦ get_afterWrites (StoreKey.encode_ne hA ha hx hex) ws w, fun b hb hne key v ↦ ?_,
    fun b hb hne σ cb s v ↦ ?_, fun b v ↦ ?_⟩
  · exact Indistinct.outcome (Indistinct.queryRaw (fun x ↦ ⟨x, rfl⟩) key) (hstate b hb hne v)
  · exact Indistinct.outcome (Indistinct.iterateContractState (fun x ↦ ⟨x, rfl⟩) cb s) (hstate b hb hne v)
  · exact Indistinct.outcome (Indistinct.getContractHistory fun x ↦ ⟨x, rfl⟩) (hhistory b v)

end

/-- Records with different arguments have different keys, and a contract reaches none but its own state. -/
theorem store_isolation (k : Keeper X) {A : Set AccAddress} (hA : PrefixFree A) :
    (∀ {x y : StoreKey} {key : Bytes}, x.Over A → y.Over A → x.Created → y.Created →
      x.encode = some key → y.encode = some key → x = y) ∧
    ∀ a ∈ A, ∀ (ws : List StateWrite) (w : World X), Untouched k A a w.store (afterWrites k a ws w).store :=
  ⟨fun hx hy hcx hcy hex hey ↦ StoreKey.encode_inj hA hx hy hcx hcy hex hey,
    fun _ ha ws w ↦ untouched_afterWrites hA ha ws w⟩

/-- Two contracts whose addresses have different lengths. -/
def twoAddresses : Set AccAddress := {[1, 2, 3, 4], [3, 4]}

theorem prefixFree_twoAddresses : PrefixFree twoAddresses := by
  rintro a (rfl | rfl) b (rfl | rfl) h
  all_goals first | rfl | exact absurd h (by decide)

theorem store_isolation_twoAddresses :
    Untouched (plainnet idleContract) twoAddresses [3, 4] openWorld.store
      (afterWrites (plainnet idleContract) [3, 4] [.set [5] [6], .delete [7]] openWorld).store :=
  (store_isolation (plainnet idleContract) prefixFree_twoAddresses).2 [3, 4] (.inr rfl) _ _

/-- A creator without an address has no length byte, and its first position reads as the length and the address of
another creator. -/
theorem emptyCreator_collides :
    let x := StoreKey.byCreator [] ⟨0x0107000000000000, 0⟩ [1, 2, 3, 4]
    let y := StoreKey.byCreator [7] ⟨0, 0x0102⟩ [3, 4]
    PrefixFree twoAddresses ∧ x.Over twoAddresses ∧ y.Over twoAddresses ∧ x ≠ y ∧
      ∃ key, x.encode = some key ∧ y.encode = some key :=
  ⟨prefixFree_twoAddresses, .inl rfl, .inr rfl, by simp, _, rfl, by decide⟩

end Cosmwasgo.Properties
