import Cosmwasgo.Runs.Watch

namespace Cosmwasgo.Properties

open Cosmwasgo.Lib Cosmwasgo.Types Cosmwasgo.State Cosmwasgo.Keeper Cosmwasgo.Runs

variable {X : Type} {k : Keeper X} {S : Set Bytes}

/-- The key a classic address is made from. -/
def classicKey (codeID instanceID : UInt64) : Bytes := uint64ToBigEndian codeID ++ uint64ToBigEndian instanceID

/-- The address made from a key, `address.Module` cut to the length of an address. -/
def keyAddress (k : Keeper X) (key : Bytes) : AccAddress := (k.addressModule key).take contractAddrLen

/-- No other key has the address of a key in `S`. No hash keeps all keys apart, so `S` is a parameter. -/
def CollisionFree (k : Keeper X) (S : Set Bytes) : Prop :=
  ∀ key ∈ S, ∀ key', keyAddress k key' = keyAddress k key → key' = key

section Keys

theorem length_classicKey (codeID i : UInt64) : (classicKey codeID i).length = 16 := by
  simp [classicKey]

theorem classicKey_inj {codeID codeID' i i' : UInt64} (h : classicKey codeID i = classicKey codeID' i') :
    codeID = codeID' ∧ i = i' := by
  obtain ⟨hc, hi⟩ := List.append_inj h (by simp)
  exact ⟨uint64ToBigEndian_injective hc, uint64ToBigEndian_injective hi⟩

theorem uint64LengthPrefix_eq (bz : Bytes) : uint64LengthPrefix bz = bigEndian 8 bz.length ++ bz := by
  rw [uint64LengthPrefix, uint64ToBigEndian, UInt64.toNat_ofNat', ← bigEndian_mod 8 bz.length]
  rfl

theorem uint64LengthPrefix_append_inj {a b x y : Bytes} (ha : a.length < 2 ^ 64) (hb : b.length < 2 ^ 64)
    (h : uint64LengthPrefix a ++ x = uint64LengthPrefix b ++ y) : a = b ∧ x = y := by
  rw [uint64LengthPrefix_eq, uint64LengthPrefix_eq, List.append_assoc, List.append_assoc] at h
  exact length_append_inj ha hb h

theorem uint64LengthPrefix_inj {a b : Bytes} (h : uint64LengthPrefix a = uint64LengthPrefix b) : a = b := by
  rw [uint64LengthPrefix, uint64LengthPrefix] at h
  exact (List.append_inj h (by simp)).2

/-- The key of a predictable address can be taken apart again. The message is last, so that its length does
not matter. -/
theorem predictableKey_inj {checksum creator salt msg checksum' creator' salt' msg' : Bytes}
    (hc : checksum.length < 2 ^ 64) (hc' : checksum'.length < 2 ^ 64) (ha : creator.length < 2 ^ 64)
    (ha' : creator'.length < 2 ^ 64) (hs : salt.length < 2 ^ 64) (hs' : salt'.length < 2 ^ 64)
    (h : predictableKey checksum creator salt msg = predictableKey checksum' creator' salt' msg') :
    checksum = checksum' ∧ creator = creator' ∧ salt = salt' ∧ msg = msg' := by
  simp only [predictableKey, List.append_assoc] at h
  obtain ⟨hchecksum, h⟩ := uint64LengthPrefix_append_inj hc hc' h
  obtain ⟨hcreator, h⟩ := uint64LengthPrefix_append_inj ha ha' h
  obtain ⟨hsalt, h⟩ := uint64LengthPrefix_append_inj hs hs' h
  exact ⟨hchecksum, hcreator, hsalt, uint64LengthPrefix_inj h⟩

theorem predictableKey_ne_classicKey {checksum : Bytes} (hc : checksum.length = 32) (creator salt msg : Bytes)
    (codeID i : UInt64) : predictableKey checksum creator salt msg ≠ classicKey codeID i := by
  intro h
  have hlen := congrArg List.length h
  rw [length_classicKey] at hlen
  simp only [predictableKey, uint64LengthPrefix, List.length_append, length_uint64ToBigEndian, hc] at hlen
  omega

end Keys

/-- What `BuildContractAddressPredictable` makes sure of. -/
theorem predictable_ok {checksum creator salt msg a : Bytes}
    (h : buildContractAddressPredictable k checksum creator salt msg = .ok a) :
    checksum.length = 32 ∧ creator.length ≤ 255 ∧ salt.length ≤ maxSaltSize ∧
      a = keyAddress k (predictableKey checksum creator salt msg) := by
  obtain ⟨hc, ha⟩ := Regime.predictable_eq_ok h
  refine ⟨hc, ?_, ?_, ha⟩
  · by_contra hlen
    have hv : k.bech32.valid creator = false := by
      rw [← Bool.not_eq_true]
      exact fun hv ↦ hlen (k.bech32.valid_length hv).2
    simp [buildContractAddressPredictable, hc, hv, bind, Except.bind, throw, throwThe, MonadExceptOf.throw] at h
  · by_contra hlen
    have hs : ∃ e, validateSalt salt = .error e := by
      have hne : salt ≠ [] := by
        rintro rfl
        simp at hlen
      exact ⟨_, by simp [validateSalt, check, hne, hlen, bind, Except.bind]; rfl⟩
    obtain ⟨e, he⟩ := hs
    rw [buildContractAddressPredictable, he] at h
    by_cases hv : k.bech32.valid creator = true <;>
      simp [hc, hv, bind, Except.bind, Except.mapError, throw, throwThe, MonadExceptOf.throw] at h

/-- Two predictable addresses are equal just when all four parts of their keys are. -/
theorem predictable_eq_iff (hS : CollisionFree k S) {checksum creator salt msg a checksum' creator' salt' msg' a' : Bytes}
    (h : buildContractAddressPredictable k checksum creator salt msg = .ok a)
    (h' : buildContractAddressPredictable k checksum' creator' salt' msg' = .ok a')
    (hkey : predictableKey checksum' creator' salt' msg' ∈ S) :
    a = a' ↔ checksum = checksum' ∧ creator = creator' ∧ salt = salt' ∧ msg = msg' := by
  obtain ⟨hc, ha, hs, rfl⟩ := predictable_ok h
  obtain ⟨hc', ha', hs', rfl⟩ := predictable_ok h'
  have hmax : maxSaltSize = 64 := rfl
  constructor
  · intro heq
    exact predictableKey_inj (by omega) (by omega) (by omega) (by omega) (by omega) (by omega) (hS _ hkey _ heq)
  · rintro ⟨rfl, rfl, rfl, rfl⟩
    rfl

theorem keyAddress_classicKey (codeID i : UInt64) : keyAddress k (classicKey codeID i) = buildContractAddressClassic k codeID i :=
  rfl

section Classic

variable (hS : CollisionFree k S) (hclassic : ∀ codeID i, classicKey codeID i ∈ S)
include hS hclassic

theorem classic_inj {codeID codeID' i i' : UInt64}
    (h : buildContractAddressClassic k codeID i = buildContractAddressClassic k codeID' i') : codeID = codeID' ∧ i = i' :=
  classicKey_inj (hS _ (hclassic codeID' i') _ h)

theorem predictable_ne_classic {checksum : Bytes} (hc : checksum.length = 32) (creator salt msg : Bytes)
    (codeID i : UInt64) :
    keyAddress k (predictableKey checksum creator salt msg) ≠ buildContractAddressClassic k codeID i :=
  fun h ↦ predictableKey_ne_classicKey hc creator salt msg codeID i (hS _ (hclassic codeID i) _ h)

end Classic

/-- The address of a contract is predictable or has an instance number below `n`. -/
def MadeBelow (k : Keeper X) (n : UInt64) (a : AccAddress) : Prop :=
  (∃ codeID i : UInt64, i < n ∧ a = buildContractAddressClassic k codeID i) ∨
    ∃ checksum creator salt msg : Bytes, checksum.length = 32 ∧ a = keyAddress k (predictableKey checksum creator salt msg)

/-- The instance sequence is ahead of all contracts. -/
def Numbered (k : Keeper X) (kv : KVStore) : Prop :=
  ∃ n, parseSequence (kv.get keySequenceInstanceID) = .ok n ∧
    ∀ a, (kv.get (getContractAddressKey a)).isSome → MadeBelow k n a

section Numbered

variable {kv kv' : KVStore} {codeID : UInt64} {a : AccAddress}

theorem MadeBelow.mono {m n : UInt64} (h : MadeBelow k m a) (hmn : m ≤ n) : MadeBelow k n a := by
  rcases h with ⟨codeID, i, hi, rfl⟩ | h
  · exact .inl ⟨codeID, i, UInt64.lt_of_lt_of_le hi hmn, rfl⟩
  · exact .inr h

theorem lt_add_one {i : UInt64} (h : i.toNat + 1 < 2 ^ 64) : i < i + 1 := by
  rw [UInt64.lt_iff_toNat_lt, UInt64.toNat_add]
  have h1 : (1 : UInt64).toNat = 1 := rfl
  omega

theorem Numbered.of_get (h : Numbered k kv) (hseq : kv'.get keySequenceInstanceID = kv.get keySequenceInstanceID)
    (hinfo : ∀ a, (kv'.get (getContractAddressKey a)).isSome → (kv.get (getContractAddressKey a)).isSome) :
    Numbered k kv' := by
  obtain ⟨n, hn, hall⟩ := h
  exact ⟨n, by rw [hseq, hn], fun a ha ↦ hall a (hinfo a ha)⟩

/-- A write to another family. -/
theorem Numbered.set_other (h : Numbered k kv) {key : Bytes} (v : Value) (hne : key ≠ keySequenceInstanceID)
    (hk : key.head? ≠ some 2) : Numbered k (kv.set key v) := by
  refine h.of_get (OrderedStore.get_set_of_ne _ _ hne.symm) fun a ha ↦ ?_
  rwa [get_set_of_head _ (by simpa using hk.symm)] at ha

theorem Numbered.delete (h : Numbered k kv) {key : Bytes} (hne : key ≠ keySequenceInstanceID) :
    Numbered k (kv.delete key) := by
  refine h.of_get (OrderedStore.get_delete_of_ne _ hne.symm) fun a ha ↦ ?_
  rw [OrderedStore.get_delete] at ha
  split at ha
  · cases ha
  · exact ha

theorem Numbered.next (h : Numbered k kv) {i : UInt64} (hid : parseSequence (kv.get keySequenceInstanceID) = .ok i)
    (hlt : i.toNat + 1 < 2 ^ 64) :
    Numbered k (kv.set keySequenceInstanceID (.bytes (uint64ToBigEndian (i + 1)))) := by
  obtain ⟨n, hn, hall⟩ := h
  obtain rfl : n = i := Except.ok.inj (hn.symm.trans hid)
  refine ⟨n + 1, ?_, fun a ha ↦ ?_⟩
  · rw [OrderedStore.get_set_self]
    exact parseSequence_uint64ToBigEndian _
  · rw [get_set_of_head _ (by simp)] at ha
    exact (hall a ha).mono (UInt64.le_of_lt (lt_add_one hlt))

theorem Numbered.claims (h : Numbered k kv) (hclaim : Claims k kv codeID a kv') : Numbered k kv' := by
  cases hclaim with
  | classic hid hlt => exact h.next hid hlt
  | predictable _ _ _ _ _ => exact h

theorem Numbered.register (h : Numbered k kv) (horigin : Origin k kv codeID a)
    (hseq : kv'.get keySequenceInstanceID = kv.get keySequenceInstanceID)
    (hinfo : ∀ a', a' ≠ a → kv'.get (getContractAddressKey a') = kv.get (getContractAddressKey a')) :
    Numbered k kv' := by
  obtain ⟨n, hn, hall⟩ := h
  refine ⟨n, by rw [hseq, hn], fun a' ha' ↦ ?_⟩
  by_cases heq : a' = a
  · subst heq
    cases horigin with
    | classic i hi hstored =>
      rw [hstored, parseSequence_uint64ToBigEndian] at hn
      cases hn
      exact .inl ⟨codeID, i, lt_add_one hi, rfl⟩
    | predictable checksum creator salt msg hc => exact .inr ⟨checksum, creator, salt, msg, hc, rfl⟩
  · rw [hinfo a' heq] at ha'
    exact hall a' ha'

/-- A contract that is there is written anew. -/
theorem Numbered.rewrite (h : Numbered k kv) {v : Value} (hv : kv.get (getContractAddressKey a) = some v)
    (hseq : kv'.get keySequenceInstanceID = kv.get keySequenceInstanceID)
    (hinfo : ∀ a', a' ≠ a → kv'.get (getContractAddressKey a') = kv.get (getContractAddressKey a')) :
    Numbered k kv' := by
  refine h.of_get hseq fun a' ha' ↦ ?_
  by_cases heq : a' = a
  · rw [heq, hv]
    rfl
  · rwa [hinfo a' heq] at ha'

theorem get_set_info {addr : AccAddress} (v : Value) (ha : a ≠ addr) :
    (kv.set (getContractAddressKey addr) v).get (getContractAddressKey a) = kv.get (getContractAddressKey a) :=
  OrderedStore.get_set_of_ne _ _ fun h ↦ ha (getContractAddressKey_inj h)

theorem Numbered.act {permits : Ctx → Operation → AccAddress → AuthorizationPolicy → Prop} {c : Ctx} {d d' : Durable X}
    (hd : Numbered k d.kv) (h : Act k permits c d d') : Numbered k d'.kv := by
  cases h with
  | cacheCode _ => exact hd
  | cachePins _ => exact hd
  | createCode _ _ _ =>
    exact (hd.set_other _ (by decide) (by simp)).set_other _ (head_ne (by simp)) (by simp)
  | nextInstance hid hlt => exact hd.next hid hlt
  | register hp hnew hcode hauth horigin hvalid hcreator hhead hpos hport hnext =>
    exact hd.register horigin (get_registered_of_head hhead (by simp)) fun a' ha' ↦ get_registered_info hhead ha'
  | migrate info port hp hinfo _ _ _ _ _ _ _ _ =>
    exact hd.rewrite hinfo (get_migrated_of_head (by simp)) fun a' ha' ↦ get_migrated_info ha'
  | modify hp hinfo _ _ _ =>
    exact hd.rewrite hinfo (get_set_of_head _ (by simp)) fun a' ha' ↦ get_set_info _ ha'
  | extend ext hp hinfo =>
    exact hd.rewrite hinfo (get_set_of_head _ (by simp)) fun a' ha' ↦ get_set_info _ ha'
  | unpin _ => exact hd.delete (head_ne (by simp))
  | acknowledge _ => exact hd.delete (head_ne (by simp))
  | _ => exact hd.set_other _ (head_ne (by simp)) (by simp)

theorem Numbered.quiet {o : Option AccAddress} {d d' : Durable X} (hd : Numbered k d.kv) (h : Quiet o d d') :
    Numbered k d'.kv := by
  refine hd.of_get (h.records _ (not_isStateKey (by simp))) fun a ha ↦ ?_
  have hkept : d'.kv.get (getContractAddressKey a) = d.kv.get (getContractAddressKey a) :=
    h.records _ (not_isStateKey (by simp))
  rwa [hkept] at ha

end Numbered

/-- No address of the classic form is ever found taken: the next instance number is above those of all
contracts, and no predictable address is a classic one. -/
theorem addressed_not_classic (hS : CollisionFree k S) (hclassic : ∀ codeID i, classicKey codeID i ∈ S) {kv kv' : KVStore}
    {codeID : UInt64} {a : AccAddress} (hn : Numbered k kv) (hclaim : Claims k kv codeID a kv')
    (htaken : (kv.get (getContractAddressKey a)).isSome) (codeID' i' : UInt64) :
    a ≠ buildContractAddressClassic k codeID' i' := by
  obtain ⟨n, hseq, hall⟩ := hn
  rintro rfl
  rcases hall _ htaken with ⟨c, i, hi, heq⟩ | ⟨checksum, creator, salt, msg, hc, heq⟩
  · generalize ha : buildContractAddressClassic k codeID' i' = a at hclaim heq
    cases hclaim with
    | @classic j hid hlt =>
      obtain rfl : n = j := Except.ok.inj (hseq.symm.trans hid)
      obtain ⟨-, rfl⟩ := classic_inj hS hclassic heq
      exact absurd hi (UInt64.lt_irrefl _)
    | predictable checksum creator salt msg hc =>
      exact predictable_ne_classic hS hclassic hc creator salt msg codeID' i' ha.symm
  · exact predictable_ne_classic hS hclassic hc creator salt msg codeID' i' heq.symm

/-- The instance numbers are watched, and that no classic address is found taken. -/
def addressWatch (hS : CollisionFree k S) (hclassic : ∀ codeID i, classicKey codeID i ∈ S) : Watch k where
  permits := Anybody
  permits_select _ _ _ _ _ _ := trivial
  ports _ _ := True
  ports_own _ := trivial
  Inv st := Numbered k st.kv
  Good _ o := ∀ codeID i, o ≠ .address (buildContractAddressClassic k codeID i) true
  recorded _ _ := trivial
  act h hd := hd.act h
  quiet h hd := hd.quiet h
  claims h hd := hd.claims h
  authorize := nofun
  called := nofun
  addressed {s st codeID a kv} hn hclaim codeID' i' heq := by
    obtain ⟨ha, htaken⟩ := Observation.address.inj heq
    exact addressed_not_classic hS hclassic hn hclaim htaken codeID' i' ha
  acknowledged _ _ _ _ := nofun
  dispatched {s o} ho := by
    rintro codeID i rfl
    exact ho
  enter _ h := h

/-- The contracts instantiated in a state, by what is on record. -/
def instantiated (d : Durable X) : List AccAddress :=
  (d.store.changes.filter (·.kind = .instantiate)).map (·.contract)

section Instantiated

variable {permits : Ctx → Operation → AccAddress → AuthorizationPolicy → Prop} {c : Ctx} {d d' : Durable X}

theorem instantiated_eq (h : d'.store.changes = d.store.changes) : instantiated d' = instantiated d := by
  rw [instantiated, h, instantiated]

theorem instantiated_recording_other {ch : ContractChange} (kv : KVStore) (h : ch.kind ≠ .instantiate) :
    instantiated ((d.recording ch).withKV kv) = instantiated d := by
  simp [instantiated, h]

theorem instantiated_recording {ch : ContractChange} (kv : KVStore) (h : ch.kind = .instantiate) :
    instantiated ((d.recording ch).withKV kv) = instantiated d ++ [ch.contract] := by
  simp [instantiated, h]

/-- An operation instantiates no contract, or one at an address that was free. -/
theorem instantiated_act (h : Act k permits c d d') : instantiated d' = instantiated d ∨
    ∃ a, d.kv.get (getContractAddressKey a) = none ∧ (d'.kv.get (getContractAddressKey a)).isSome ∧
      instantiated d' = instantiated d ++ [a] := by
  cases h with
  | @register creator addr head initMsg info pos policy code hp hnew hcode hauth horigin hvalid hcreator hhead hpos
      hport hnext =>
    refine .inr ⟨addr, hnew, ?_, instantiated_recording _ rfl⟩
    rw [Durable.kv_withKV, registered, OrderedStore.get_set_self]
    rfl
  | migrate info port _ _ _ _ _ _ _ _ _ _ => exact .inl (instantiated_recording_other _ fun hkind ↦ by cases hkind)
  | modify hp hinfo hadmin hmodify hkind =>
    refine .inl (instantiated_recording_other _ ?_)
    cases hkind <;> exact fun hkind ↦ by cases hkind
  | extend ext hp hinfo => exact .inl (instantiated_recording_other _ fun hkind ↦ by cases hkind)
  | _ => exact .inl (instantiated_eq rfl)

theorem isSome_get_set {kv : KVStore} {key key' : Bytes} (v : Value) (h : (kv.get key).isSome) :
    ((kv.set key' v).get key).isSome := by
  rw [OrderedStore.get_set]
  split
  · rfl
  · exact h

/-- No contract is ever deleted. -/
theorem isSome_info_act (h : Act k permits c d d') {a : AccAddress} (ha : (d.kv.get (getContractAddressKey a)).isSome) :
    (d'.kv.get (getContractAddressKey a)).isSome := by
  cases h with
  | cacheCode _ => exact ha
  | cachePins _ => exact ha
  | createCode _ _ _ => exact isSome_get_set _ (isSome_get_set _ ha)
  | register => exact isSome_get_set _ (isSome_get_set _ (isSome_get_set _ (isSome_get_set _ ha)))
  | migrate =>
    refine isSome_get_set _ (isSome_get_set _ (isSome_get_set _ ?_))
    rwa [get_delete_of_head (by simp)]
  | unpin _ => rwa [Durable.kv_withKV, get_delete_of_head (by simp)]
  | acknowledge _ => rwa [Durable.kv_withKV, get_delete_of_head (by simp)]
  | _ => exact isSome_get_set _ ha

theorem nodup_instantiated (hd : Reachable k d) : (instantiated d).Nodup := by
  have hinv : (∀ a ∈ instantiated d, (d.kv.get (getContractAddressKey a)).isSome) ∧ (instantiated d).Nodup := by
    refine hd.invariant (P := fun d ↦ (∀ a ∈ instantiated d, (d.kv.get (getContractAddressKey a)).isSome) ∧
      (instantiated d).Nodup) (fun _ ↦ ⟨by simp [instantiated, emptyDurable], .nil⟩) ?_
    rintro c d d' (⟨-, h⟩ | ⟨-, h⟩) ⟨hstored, hnodup⟩
    · rcases instantiated_act h with heq | ⟨a, hnone, hsome, heq⟩
      · rw [heq]
        exact ⟨fun a ha ↦ isSome_info_act h (hstored a ha), hnodup⟩
      · have hfresh : a ∉ instantiated d := by
          intro ha
          have hs := hstored a ha
          rw [hnone] at hs
          cases hs
        rw [heq]
        refine ⟨fun a' ha' ↦ ?_, ?_⟩
        · rcases List.mem_append.1 ha' with ha' | ha'
          · exact isSome_info_act h (hstored a' ha')
          · rw [List.mem_singleton.1 ha']
            exact hsome
        · exact List.nodup_append.2 ⟨hnodup, List.nodup_singleton a, by
            rintro x hx y hy rfl
            rw [List.mem_singleton.1 hy] at hx
            exact hfresh hx⟩
    · rw [instantiated_eq h.changes]
      refine ⟨fun a ha ↦ ?_, hnodup⟩
      have hkept : d'.kv.get (getContractAddressKey a) = d.kv.get (getContractAddressKey a) :=
        h.records _ (not_isStateKey (by simp))
      rw [hkept]
      exact hstored a ha
  exact hinv.2

end Instantiated

theorem predictableAddressGenerator_ok {creator : AccAddress} {salt msg checksum : Bytes} {fixMsg : Bool}
    {codeID : UInt64} {a : AccAddress} {w w' : World X}
    (h : predictableAddressGenerator k creator salt msg fixMsg codeID checksum w = (.ok a, w')) :
    buildContractAddressPredictable k checksum creator salt (if fixMsg then msg else []) = .ok a := by
  change liftPanic (buildContractAddressPredictable k checksum creator salt (if fixMsg then msg else [])) w = _ at h
  rcases hb : buildContractAddressPredictable k checksum creator salt (if fixMsg then msg else []) with p | b <;>
    rw [hb] at h
  · cases h
  · obtain ⟨ha, -⟩ := Prod.mk.inj h
    cases ha
    rfl

/-- What keeps contract addresses apart. The keys in `S` have addresses of their own.

`classic_free` is about every address an operation makes, those of nested messages and of messages that are
reverted included: none of the classic form is found taken, which is when `instantiate` returns `ErrDuplicate`. -/
structure AddressesApart (k : Keeper X) (S : Set Bytes) : Prop where
  classic_free : ∀ {n : Nat} {c : Ctx} {α : Type} {m : M X α} {w : World X}, Reachable k (durable w) →
    RootOp k n c α m → ∃ added, (m w).2.trace = w.trace ++ added ∧
      ∀ codeID i, .address (buildContractAddressClassic k codeID i) true ∉ added
  distinct : ∀ {d : Durable X}, Reachable k d → (instantiated d).Nodup
  predictable : ∀ {creator creator' : AccAddress} {salt msg checksum salt' msg' checksum' : Bytes} {fixMsg fixMsg' : Bool}
    {codeID codeID' : UInt64} {a a' : AccAddress} {w w₁ w' w₁' : World X},
    predictableAddressGenerator k creator salt msg fixMsg codeID checksum w = (.ok a, w₁) →
    predictableAddressGenerator k creator' salt' msg' fixMsg' codeID' checksum' w' = (.ok a', w₁') →
    predictableKey checksum' creator' salt' (if fixMsg' then msg' else []) ∈ S →
      (a = a' ↔ checksum = checksum' ∧ creator = creator' ∧ salt = salt' ∧
        (if fixMsg then msg else []) = if fixMsg' then msg' else [])
  predictable_ne_classic : ∀ {creator : AccAddress} {salt msg checksum : Bytes} {fixMsg : Bool} {codeID : UInt64}
    {a : AccAddress} {w w₁ : World X},
    predictableAddressGenerator k creator salt msg fixMsg codeID checksum w = (.ok a, w₁) →
      ∀ codeID' i, a ≠ buildContractAddressClassic k codeID' i

/-- Contract addresses never collide, as long as the hash keeps the keys they are made from apart. -/
theorem addresses_apart (hS : CollisionFree k S) (hclassic : ∀ codeID i, classicKey codeID i ∈ S) :
    AddressesApart k S where
  classic_free hw hop := by
    have h₀ : ∀ x : X, (addressWatch hS hclassic).Inv (emptyDurable x).store := fun x ↦ ⟨1, rfl, by simp [emptyDurable]⟩
    obtain ⟨added, ht, hgood⟩ := Watch.added_of_reachable (W := addressWatch hS hclassic) rfl h₀ hw hop
    exact ⟨added, ht, fun codeID i hmem ↦ hgood _ hmem codeID i rfl⟩
  distinct := nodup_instantiated
  predictable h h' hkey :=
    predictable_eq_iff hS (predictableAddressGenerator_ok h) (predictableAddressGenerator_ok h') hkey
  predictable_ne_classic h codeID' i := by
    obtain ⟨hc, -, -, rfl⟩ := predictable_ok (predictableAddressGenerator_ok h)
    exact predictable_ne_classic hS hclassic hc _ _ _ codeID' i

section Witness

/-- The key of the address at which alice instantiates the first code with a salt. -/
def aliceKey : Bytes := predictableKey (sha256 wasmIdent) (List.replicate 20 1) [7] []

/-- A hash that keeps apart classic keys and `aliceKey`. -/
def apartHash (key : Bytes) : Bytes :=
  if key.length = 16 then key ++ List.replicate 16 0
  else if key = aliceKey then List.replicate 32 1
  else List.replicate 32 2

theorem length_apartHash (key : Bytes) : (apartHash key).length = 32 := by
  unfold apartHash
  split
  · simp [*]
  · split <;> rfl

/-- A devnet with that hash. -/
def apartnet : Keeper Unit :=
  { devnet idleContract with addressModule := apartHash, addressModule_length := length_apartHash }

theorem collisionFree_apartnet : CollisionFree apartnet ({key | key.length = 16} ∪ {aliceKey}) := by
  have hall : ∀ key, keyAddress apartnet key = apartHash key := fun key ↦
    List.take_of_length_le (by rw [show apartnet.addressModule key = apartHash key from rfl, length_apartHash]; decide)
  have halice : aliceKey.length ≠ 16 := by decide +kernel
  have hlast : ∀ key : Bytes, (key ++ List.replicate 16 0).getLast? = some 0 := fun key ↦ by
    rw [List.getLast?_append]
    rfl
  rintro key (hkey | rfl) key' h <;> rw [hall, hall] at h <;> unfold apartHash at h
  · have hlen : key.length = 16 := hkey
    rw [if_pos hlen] at h
    split at h
    · exact List.append_cancel_right h
    · have hbad := congrArg List.getLast? h
      rw [hlast] at hbad
      split at hbad <;> simp at hbad
  · rw [if_neg halice, if_pos rfl] at h
    split at h
    · have hbad := congrArg List.getLast? h
      rw [hlast] at hbad
      simp at hbad
    · split at h
      · assumption
      · simp at h

def aliceInstantiates2 : Msg :=
  .instantiateContract2 {
    sender := alice, admin := alice, codeID := 1, label := "contract", msg := stringToBytes "\x7b\x7d", funds := [],
    salt := [7], fixMsg := false }

/-- Two classic contracts and a predictable one; the second attempt at the latter fails. -/
theorem addresses_apart_apartnet :
    let d := delivered apartnet (durable openWorld)
      [aliceStores, aliceInstantiates, aliceInstantiates2, aliceInstantiates, aliceInstantiates2]
    Reachable apartnet d ∧ instantiated d = [buildContractAddressClassic apartnet 1 1, keyAddress apartnet aliceKey,
      buildContractAddressClassic apartnet 1 2] ∧
      AddressesApart apartnet ({key | key.length = 16} ∪ {aliceKey}) := by
  have hopen : Reachable apartnet (durable openWorld) :=
    .op (w := emptyWorld) (.empty ()) (.setParams (n := 0) (c := genesisCtx) ⟨allowEverybody, .everybody⟩)
  refine ⟨hopen.delivered _, by decide +kernel, ?_⟩
  exact addresses_apart collisionFree_apartnet fun codeID i ↦ .inl (length_classicKey codeID i)

end Witness

end Cosmwasgo.Properties
