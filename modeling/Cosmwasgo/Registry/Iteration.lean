import Cosmwasgo.Registry.Records

namespace Cosmwasgo.Registry

open Cosmwasgo.Lib Cosmwasgo.Types Cosmwasgo.State Cosmwasgo.Keeper

variable {X α β : Type} {k : Keeper X} {b : Bech32} {kv : KVStore} {R : AccAddress → Option (ContractRecord b)}

def IsGasPanic (p : Panic) : Prop := ∃ desc, p = .outOfGas desc ∨ p = .gasOverflow desc

/-- The program returns the value, unless a finite meter does not last. -/
def Returns (m : M X α) (w : World X) (a : α) : Prop :=
  (m w).1 = .ok a ∨ w.meter.infinite = false ∧ ∃ p, (m w).1 = .panic p ∧ IsGasPanic p

theorem Returns.bind_pure {m : M X α} {w : World X} {a : α} (h : Returns m w a) {f : α → M X β} {c : β}
    (hf : f a = pure c) : Returns (m >>= f) w c := by
  rcases h with h | ⟨hi, p, h, hp⟩
  · left
    rcases hm : m w with ⟨r, w'⟩
    rw [hm] at h
    obtain rfl : r = .ok a := h
    rw [Program.bind_of_ok f hm, hf]
    rfl
  · right
    rcases hm : m w with ⟨r, w'⟩
    rw [hm] at h
    obtain rfl : r = .panic p := h
    rw [Program.bind_of_panic f hm]
    exact ⟨hi, p, rfl, hp⟩

/-- Sequencing: the meter stays finite or infinite. -/
theorem Returns.bind {m : M X α} {f : α → M X β} {w : World X} {x : α} {y : β} (hm : Returns m w x)
    (hi : (m w).2.meter.infinite = w.meter.infinite) (hf : Returns (f x) (m w).2 y) : Returns (m >>= f) w y := by
  rcases hr : m w with ⟨r, w'⟩
  rw [hr] at hi hf
  rcases hm with hm | ⟨hfin, p, hm, hp⟩ <;> rw [hr] at hm
  · obtain rfl : r = .ok x := hm
    rw [Returns, Program.bind_of_ok f hr, ← hi]
    exact hf
  · obtain rfl : r = .panic p := hm
    rw [Returns, Program.bind_of_panic f hr]
    exact .inr ⟨hfin, p, rfl, hp⟩

theorem returns_consumeGas (amount : Gas) (desc : String) (w : World X) : Returns (consumeGas amount desc) w () := by
  unfold Returns consumeGas GasMeter.consume
  rcases hi : w.meter.infinite with _ | _
  · by_cases ho : 2 ^ 64 ≤ w.meter.consumed.toNat + amount.toNat
    · right
      simp only [Bool.false_eq_true, if_false, ho, if_true]
      exact ⟨trivial, _, rfl, desc, .inr rfl⟩
    · by_cases hl : w.meter.limit < w.meter.consumed + amount
      · right
        simp only [Bool.false_eq_true, if_false, ho, hl, if_true]
        exact ⟨trivial, _, rfl, desc, .inl rfl⟩
      · left
        simp only [Bool.false_eq_true, if_false, ho, hl]
  · left
    simp only [if_true]

theorem returns_iterateKV (k : Keeper X) (head : Bytes) (w : World X) :
    Returns (iterateKV k head) w (w.store.kv.scan head) := by
  have h := returns_consumeGas (k.kvGas (.iterate head (w.store.kv.scan head).length)) "Iterate" w
  exact h.bind_pure (f := fun _ ↦ pure (w.store.kv.scan head)) rfl

theorem indexAddresses_eq_ok {es : List (Bytes × Value)} {l : List AccAddress} : indexAddresses es = .ok l ↔
    (∀ e ∈ es, absoluteTxPositionLen ≤ e.1.length) ∧ es.map (fun e ↦ e.1.drop absoluteTxPositionLen) = l := by
  have hentry : ∀ (e : Bytes × Value) (a : AccAddress),
      (if e.1.length < absoluteTxPositionLen then .error sliceOutOfRange else .ok (e.1.drop absoluteTxPositionLen)) =
        (.ok a : Except Panic AccAddress) ↔
      absoluteTxPositionLen ≤ e.1.length ∧ e.1.drop absoluteTxPositionLen = a := by
    intro e a
    split_ifs with hlt
    · simp [hlt]
    · simp [not_lt.1 hlt]
  rw [indexAddresses, mapM_eq_ok]
  simp only [hentry, List.forall₂_and_left]
  rw [← List.forall₂_map_left_iff, List.forall₂_eq_eq_eq]

/-- What an iterator over an index finds, when the index holds a position and an address for each contract. -/
theorem visits_of_rows {es : List (Bytes × Value)} (hs : es.Pairwise KeyLT)
    {P : AccAddress → AbsoluteTxPosition → Prop}
    (hes : ∀ x v, (x, v) ∈ es ↔ ∃ a pos, P a pos ∧ x = pos.bytes ++ a ∧ v = .bytes [])
    (huniq : ∀ {a p q}, P a p → P a q → p = q) :
    ∃ l, indexAddresses es = .ok l ∧ l.Nodup ∧ (∀ a, a ∈ l ↔ ∃ pos, P a pos) ∧
      l.Pairwise fun a a' ↦ ∀ p p', P a p → P a' p' → p'.lessThan p = false := by
  have hdrop : ∀ (pos : AbsoluteTxPosition) (a : AccAddress), (pos.bytes ++ a).drop absoluteTxPositionLen = a := by
    intro pos a
    rw [List.drop_left' (by simp [absoluteTxPositionLen])]
  refine ⟨es.map fun e ↦ e.1.drop absoluteTxPositionLen, indexAddresses_eq_ok.2 ⟨?_, rfl⟩, ?_, fun a ↦ ?_, ?_⟩
  · rintro ⟨x, v⟩ he
    obtain ⟨a, pos, -, rfl, -⟩ := (hes x v).1 he
    simp [absoluteTxPositionLen]
  · refine (OrderedStore.nodup_of_sorted hs).map_on ?_
    rintro ⟨x, v⟩ he ⟨x', v'⟩ he' heq
    obtain ⟨a, pos, hp, rfl, rfl⟩ := (hes x v).1 he
    obtain ⟨a', pos', hp', rfl, rfl⟩ := (hes x' v').1 he'
    simp only [hdrop] at heq
    subst heq
    rw [huniq hp hp']
  · rw [List.mem_map]
    constructor
    · rintro ⟨⟨x, v⟩, he, rfl⟩
      obtain ⟨a, pos, hp, rfl, rfl⟩ := (hes x v).1 he
      exact ⟨pos, by rwa [hdrop]⟩
    · rintro ⟨pos, hp⟩
      exact ⟨_, (hes _ _).2 ⟨a, pos, hp, rfl, rfl⟩, hdrop pos a⟩
  · rw [List.pairwise_map]
    refine hs.imp_of_mem ?_
    rintro ⟨x, v⟩ ⟨x', v'⟩ he he' hlt p p' hp hp'
    obtain ⟨a, pos, hq, rfl, rfl⟩ := (hes x v).1 he
    obtain ⟨a', pos', hq', rfl, rfl⟩ := (hes x' v').1 he'
    simp only [hdrop] at hp hp'
    rw [huniq hp hq, huniq hp' hq']
    exact not_lessThan_of_lt hlt

namespace Represents

theorem mem_scan_byCode (h : Lists kv contractByCodeIDAndCreatedSecondaryIndexPrefix byCodeRow R) (codeID : UInt64)
    (x : Bytes) (v : Value) : (x, v) ∈ kv.scan (getContractByCodeIDSecondaryIndexPrefix codeID) ↔
      ∃ a pos, (∃ r, R a = some r ∧ r.last.codeID = codeID ∧ r.updated = pos) ∧ x = pos.bytes ++ a ∧ v = .bytes [] := by
  rw [OrderedStore.mem_scan, getContractByCodeIDSecondaryIndexPrefix, List.append_assoc, h]
  constructor
  · rintro ⟨a, r, hr, hx, rfl⟩
    rw [List.append_assoc] at hx
    obtain ⟨hid, rfl⟩ := List.append_inj hx (by simp)
    exact ⟨a, r.updated, ⟨r, hr, (uint64ToBigEndian_injective hid).symm, rfl⟩, rfl, rfl⟩
  · rintro ⟨a, pos, ⟨r, hr, rfl, rfl⟩, rfl, rfl⟩
    exact ⟨a, r, hr, by rw [List.append_assoc], rfl⟩

theorem mem_scan_byCreator (h : Lists kv contractsByCreatorPrefix byCreatorRow R) {creator : AccAddress} {head : Bytes}
    (hv : b.valid creator = true) (hhead : getContractsByCreatorPrefix creator = some head) (x : Bytes) (v : Value) :
    (x, v) ∈ kv.scan head ↔
      ∃ a pos, (∃ r, R a = some r ∧ r.creator = creator ∧ r.entered = pos) ∧ x = pos.bytes ++ a ∧ v = .bytes [] := by
  obtain ⟨-, hle⟩ := b.valid_length hv
  obtain rfl := Option.some.inj (hhead.symm.trans (creatorPrefix_of_valid hv))
  rw [OrderedStore.mem_scan, List.append_assoc, List.cons_append, h]
  constructor
  · rintro ⟨a, r, hr, hx, rfl⟩
    rw [List.append_assoc] at hx
    obtain ⟨rfl, rfl⟩ := creator_append_inj (by omega) r.creator_length hx
    exact ⟨a, r.entered, ⟨r, hr, rfl, rfl⟩, rfl, rfl⟩
  · rintro ⟨a, pos, ⟨r, hr, rfl, rfl⟩, rfl, rfl⟩
    exact ⟨a, r, hr, by rw [List.append_assoc], rfl⟩

end Represents

/-- The entries of an index whose key ends in the address. -/
def entriesEndingIn (kv : KVStore) (family : Bytes) (a : AccAddress) : List (Bytes × Value) :=
  (kv.scan family).filter fun e ↦ a.isSuffixOf e.1

/-- An index with one entry for each contract, its address at the end. -/
theorem length_entriesEndingIn {p : Bytes} {Q : AccAddress → ContractRecord b → Bytes → Value → Prop}
    (h : Lists kv p Q R) (front : ContractRecord b → Bytes) {n : Nat}
    (hq : ∀ a r x v, Q a r x v ↔ x = front r ++ a ∧ v = .bytes []) (hlen : ∀ a r, R a = some r → a.length = n)
    {a : AccAddress} (ha : a.length = n) : (entriesEndingIn kv p a).length = 1 ↔ (R a).isSome := by
  -- an entry ends in the address only if it is the contract's own
  have hmem : ∀ e, e ∈ entriesEndingIn kv p a ↔ ∃ r, R a = some r ∧ e = (front r ++ a, .bytes []) := by
    rintro ⟨x, v⟩
    rw [entriesEndingIn, List.mem_filter, h.mem_scan, List.isSuffixOf_iff_suffix]
    constructor
    · rintro ⟨⟨a', r, hr, hrow⟩, y, hy⟩
      obtain ⟨rfl, rfl⟩ := (hq _ _ _ _).1 hrow
      obtain ⟨-, rfl⟩ := List.append_inj' hy (by rw [ha, hlen a' r hr])
      exact ⟨r, hr, rfl⟩
    · rintro ⟨r, hr, he⟩
      cases he
      exact ⟨⟨a, r, hr, (hq _ _ _ _).2 ⟨rfl, rfl⟩⟩, List.suffix_append _ _⟩
  rcases hr : R a with _ | r
  · have hnil : entriesEndingIn kv p a = [] := by
      rw [List.eq_nil_iff_forall_not_mem]
      intro e he
      obtain ⟨r, hr', -⟩ := (hmem e).1 he
      rw [hr] at hr'
      cases hr'
    simp [hnil]
  · have hnodup : (entriesEndingIn kv p a).Nodup :=
      (OrderedStore.nodup_of_sorted (OrderedStore.scan_sorted _ _)).filter _
    have hone : (entriesEndingIn kv p a).Perm [(front r ++ a, .bytes [])] := by
      refine (List.perm_ext_iff_of_nodup hnodup (List.nodup_singleton _)).2 fun e ↦ ?_
      rw [hmem, List.mem_singleton, hr]
      simp
    simp [hone.length_eq]

end Cosmwasgo.Registry
