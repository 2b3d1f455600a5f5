import Cosmwasgo.Properties.Addresses
import Cosmwasgo.Properties.Genesis
import Cosmwasgo.Properties.Packets
import Cosmwasgo.Properties.Snapshot
import Cosmwasgo.Properties.UploadParams
import Cosmwasgo.Registry.Restore

namespace Cosmwasgo.Properties

open Cosmwasgo.Lib Cosmwasgo.Types Cosmwasgo.State Cosmwasgo.Keeper Cosmwasgo.Runs Cosmwasgo.Registry

variable {X α β : Type} {k : Keeper X} {d d₀ d' : Durable X} {R : AccAddress → Option (ContractRecord k.bech32)}
variable {g : GenesisState}

section Answers

/-- A query has the same outcome in both states, be it an answer, an error or a panic. -/
def SameAnswer (m : M X α) (d d' : Durable X) : Prop := ∀ w w', durable w = d → durable w' = d' →
  w.meter.infinite = true → w'.meter.infinite = true → (m w).1 = (m w').1

namespace SameAnswer

theorem of_unmetered {m : M X α} {a : α} (h : Unmetered m d a d) (h' : Unmetered m d' a d') : SameAnswer m d d' := by
  intro w w' hw hw' hi hi'
  obtain ⟨_, hrun, -⟩ := h w hw hi
  obtain ⟨_, hrun', -⟩ := h' w' hw' hi'
  rw [hrun, hrun']

/-- The same has been read, and what is made of it depends on nothing else. -/
theorem bind {m : M X α} {f : α → M X β} {a : α} (h : Unmetered m d a d) (h' : Unmetered m d' a d')
    (hf : ∀ w w', (f a w).1 = (f a w').1) : SameAnswer (m >>= f) d d' := by
  intro w w' hw hw' hi hi'
  obtain ⟨w₁, hrun, -⟩ := h w hw hi
  obtain ⟨w₁', hrun', -⟩ := h' w' hw' hi'
  rw [Program.bind_of_ok f hrun, Program.bind_of_ok f hrun']
  exact hf w₁ w₁'

theorem getKV {key : Bytes} (hkey : key ≠ []) (h : d'.kv.get key = d.kv.get key) {f : Option Value → M X β}
    (hf : ∀ v w w', (f v w).1 = (f v w').1) : SameAnswer (Keeper.getKV k key >>= f) d d' := by
  have hread : Unmetered (Keeper.getKV k key) d' (d.kv.get key) d' := by
    rw [← h]
    exact .getKV hkey d'
  exact bind (.getKV hkey d) hread (hf _)

theorem hasKV {key : Bytes} (hkey : key ≠ []) (h : (d'.kv.get key).isSome = (d.kv.get key).isSome) :
    SameAnswer (Keeper.hasKV k key) d d' := by
  have hread : Unmetered (Keeper.hasKV k key) d' (d.kv.get key).isSome d' := by
    rw [← h]
    exact .hasKV hkey d'
  exact of_unmetered (.hasKV hkey d) hread

theorem iterateKV {head : Bytes} (h : ∀ x, d'.kv.get (head ++ x) = d.kv.get (head ++ x))
    {f : List (Bytes × Value) → M X β} (hf : ∀ es w w', (f es w).1 = (f es w').1) :
    SameAnswer (Keeper.iterateKV k head >>= f) d d' := by
  have hread : Unmetered (Keeper.iterateKV k head) d' (d.kv.scan head) d' := by
    rw [← OrderedStore.scan_congr h]
    exact .iterateKV head d'
  exact bind (.iterateKV head d) hread (hf _)

end SameAnswer

theorem liftPanic_const (x : Except Panic α) (w w' : World X) : (liftPanic x w).1 = (liftPanic x w').1 := by
  cases x <;> rfl

end Answers

/-- The keeper answers the same in both states. The state is that of the contracts on record. -/
structure SameGenesis (k : Keeper X) (d d' : Durable X) : Prop where
  params : SameAnswer (getParams k) d d'
  codeInfos : ∀ codeID, SameAnswer (getCodeInfo k codeID) d d'
  pins : ∀ codeID, SameAnswer (isPinnedCode k codeID) d d'
  contractInfos : ∀ a, SameAnswer (getContractInfo k a) d d'
  state : ∀ a, (d.kv.get (getContractAddressKey a)).isSome → SameAnswer (iterateContractState k a addModel []) d d'
  histories : ∀ a, SameAnswer (getContractHistory k a) d d'
  byCode : ∀ codeID, SameAnswer (iterateContractsByCode k codeID) d d'
  byCreator : ∀ creator, SameAnswer (iterateContractsByCreator k creator) d d'
  codeSequence : SameAnswer (peekAutoIncrementID k keySequenceCodeID) d d'
  instanceSequence : SameAnswer (peekAutoIncrementID k keySequenceInstanceID) d d'

section Reachable

/-- What stands in the section for the state of contracts: bytes, below an address and a key that is not empty. -/
def StateShape (d : Durable X) : Prop := ∀ x v, d.kv.get (contractStorePrefix ++ x) = some v →
  contractAddrLen < x.length ∧ ∃ b, v = .bytes b

theorem StateShape.of_get (h : StateShape d) (hkv : ∀ key : Bytes, key.head? = some 3 → d'.kv.get key = d.kv.get key) :
    StateShape d' := by
  intro x v hv
  rw [hkv _ rfl] at hv
  exact h x v hv

theorem StateShape.act {permits : Ctx → Operation → AccAddress → AuthorizationPolicy → Prop} {c : Ctx} (h : StateShape d)
    (hact : Act k permits c d d') : StateShape d' := by
  refine h.of_get fun key hkey ↦ ?_
  cases hact with
  | cacheCode _ => rfl
  | cachePins _ => rfl
  | createCode _ _ _ => exact (get_set_of_head _ (by simp [hkey])).trans (get_set_of_head _ (by simp [hkey]))
  | register _ _ _ _ _ _ _ hhead _ _ _ => exact get_registered_of_head hhead (by simp [hkey])
  | migrate _ _ _ _ _ _ _ _ _ _ _ _ => exact get_migrated_of_head (by simp [hkey])
  | unpin _ => exact get_delete_of_head (by simp [hkey])
  | acknowledge _ => exact get_delete_of_head (by simp [hkey])
  | _ => exact get_set_of_head _ (by simp [hkey])

theorem StateShape.step {c : Ctx} (hd : HasRegistry k.bech32 d.kv) (h : StateShape d) (hstep : Step k Anybody c d d') :
    StateShape d' := by
  cases hstep with
  | act _ hact => exact h.act hact
  | @quiet o _ hlive hq =>
    intro x v hv
    rcases hq.state _ v hv with hold | ⟨a, y, b, rfl, hy, hkey, rfl⟩
    · exact h x v hold
    -- the contract that has written is on record, or its address has the length of one
    have hlen : a.length = contractAddrLen := by
      rcases hlive a rfl with hlen | hinfo
      · exact hlen
      · obtain ⟨R, hR, hs⟩ := hd
        obtain ⟨r, hr⟩ := Option.isSome_iff_exists.1 ((isSome_info hR).1 hinfo)
        exact (hs a r hr).length
    rw [getContractStorePrefix, List.append_assoc] at hkey
    obtain rfl := List.append_cancel_left hkey
    refine ⟨?_, b, rfl⟩
    have hpos := List.length_pos_iff.2 hy
    rw [List.length_append]
    omega

theorem stateShape_reachable (h : Reachable k d) : StateShape d := by
  have hboth : HasRegistry k.bech32 d.kv ∧ StateShape d := by
    refine h.invariant (P := fun d ↦ HasRegistry k.bech32 d.kv ∧ StateShape d) (fun x ↦ ⟨.empty, nofun⟩) ?_
    rintro c d d' hstep ⟨hd, hshape⟩
    exact ⟨hd.step hstep, hshape.step hd hstep⟩
  exact hboth.2

theorem numbered_reachable (h : Reachable k d) : Numbered k d.kv := by
  refine h.invariant (P := fun d ↦ Numbered k d.kv) (fun x ↦ ⟨1, rfl, nofun⟩) ?_
  rintro c d d' hstep hd
  cases hstep with
  | act _ hact => exact hd.act hact
  | quiet _ hq => exact hd.quiet hq

theorem exportable_reachable (hd : Reachable k d) (hR : Represents k.bech32 d.kv R)
    (hs : ∀ a r, R a = some r → Sound d.kv a r) : Exportable k d R where
  represents := hR
  valid a r hr := k.bech32.valid_contract (hs a r hr).length
  codes x v hv := by
    obtain ⟨id, info, rfl, rfl, code, hcode, -⟩ := (codesHeld_reachable hd).codes hv
    exact ⟨id, info, code, rfl, rfl, hcode⟩
  state a x v hv := by
    rw [getContractStorePrefix, List.append_assoc] at hv
    exact (stateShape_reachable hd _ v hv).2
  codeSequence := by
    obtain ⟨n, hreg⟩ := codeRegistry_reachable hd
    exact ⟨_, hreg.sequence⟩
  instanceSequence := by
    obtain ⟨n, hn, -⟩ := numbered_reachable hd
    exact ⟨n, hn⟩

end Reachable

/-- The families of keys that a genesis file is about are the same in both states, and there are no packets in the
second. A sequence may be stored where it was at its first number before, and a mark stands for itself. -/
structure Restores (k : Keeper X) (d d' : Durable X) : Prop where
  params : d'.kv.get paramsKey = d.kv.get paramsKey
  codes : ∀ x, d'.kv.get (codeKeyPrefix ++ x) = d.kv.get (codeKeyPrefix ++ x)
  pins : ∀ x, (d'.kv.get (pinnedCodeIndexPrefix ++ x)).isSome = (d.kv.get (pinnedCodeIndexPrefix ++ x)).isSome
  registry : ∀ key, IsRegistryKey key → d'.kv.get key = d.kv.get key
  state : ∀ a, (d.kv.get (getContractAddressKey a)).isSome → ∀ x,
    d'.kv.get (getContractStorePrefix a ++ x) = d.kv.get (getContractStorePrefix a ++ x)
  codeSequence : ∃ n, parseSequence (d.kv.get keySequenceCodeID) = .ok n ∧
    parseSequence (d'.kv.get keySequenceCodeID) = .ok n
  instanceSequence : ∃ n, parseSequence (d.kv.get keySequenceInstanceID) = .ok n ∧
    parseSequence (d'.kv.get keySequenceInstanceID) = .ok n
  packets : ∀ key : Bytes, key.head? = some 17 → d'.kv.get key = none

section Stages

variable {d₁ d₂ d₃ : Durable X}

theorem get_after_sequences (hg : Exported k d R g) (hseqs : SequencesImported g.sequences d₂ d₃) {key : Bytes}
    (hkey : key.head? ≠ some 4) : d₃.kv.get key = d₂.kv.get key := by
  obtain ⟨n, m, -, -, hsequences⟩ := hg.sequences
  refine hseqs.rows.get_of_no_row ?_
  rintro v ⟨s, hs, rfl, -⟩
  rw [hsequences] at hs
  simp only [List.mem_cons, List.not_mem_nil, or_false] at hs
  rcases hs with rfl | rfl <;> exact hkey rfl

variable (hempty : ∀ key, d₀.kv.get key = none)
include hempty

theorem get_start {p : Params} {key : Bytes} (hkey : key.head? ≠ some 16) :
    (d₀.withKV (d₀.kv.set paramsKey (.params p))).kv.get key = none := by
  rw [Durable.kv_withKV, get_set_of_head _ (by simpa using hkey)]
  exact hempty key

variable (hcodes : CodesImported k g.codes (d₀.withKV (d₀.kv.set paramsKey (.params g.params))) d₁)
include hcodes

theorem get_after_codes {key : Bytes} (hkey : key.head? ∉ [some 1, some 7, some 16]) : d₁.kv.get key = none := by
  simp only [List.mem_cons, List.not_mem_nil, or_false, not_or] at hkey
  rw [hcodes.apart key hkey.1 hkey.2.1, get_start hempty hkey.2.2]

theorem represents_after_codes : Represents k.bech32 d₁.kv fun _ ↦ none := by
  refine Represents.empty.congr fun key hkey ↦ ?_
  rw [OrderedStore.get_empty]
  refine get_after_codes hempty hcodes fun hmem ↦ ?_
  simp only [IsRegistryKey, List.mem_cons, List.not_mem_nil, or_false] at hkey hmem
  rcases hmem with h | h | h <;> simp [h] at hkey

variable (hg : Exported k d R g) (hR : Represents k.bech32 d.kv R) (hcontracts : ContractsImported k g.contracts d₁ d₂)
include hg hR hcontracts

theorem represents_after_contracts : Represents k.bech32 d₂.kv R := by
  obtain ⟨R', hR', hrec⟩ := hcontracts.records _ (represents_after_codes hempty hcodes)
  rwa [hg.recorded_eq hR hrec] at hR'

theorem restores_of_stages (hseqs : SequencesImported g.sequences d₂ d₃) (hs : ∀ a r, R a = some r → Sound d.kv a r)
    (hpins : PinsStored d) : Restores k d d₃ := by
  have hapart : ∀ key : Bytes, key.head? ∉ [some 2, some 3, some 4, some 5, some 6, some 9] →
      d₃.kv.get key = d₁.kv.get key := by
    intro key hkey
    simp only [List.mem_cons, List.not_mem_nil, or_false, not_or] at hkey
    rw [get_after_sequences hg hseqs hkey.2.2.1, hcontracts.apart key (by simp [hkey])]
  obtain ⟨n, m, hn, hm, hsequences⟩ := hg.sequences
  refine ⟨?_, fun x ↦ ?_, fun x ↦ ?_, fun key hkey ↦ ?_, fun a ha x ↦ ?_, ⟨n, hn, ?_⟩, ⟨m, hm, ?_⟩, fun key hkey ↦ ?_⟩
  · rw [hapart _ (by decide), hcodes.apart _ (by decide) (by decide), hg.params]
    exact OrderedStore.get_set_self _ _ _
  · refine Option.ext fun v ↦ ?_
    rw [hapart _ (by simp [codeKeyPrefix]), hcodes.infos, hg.get_code, get_start hempty (by simp [codeKeyPrefix])]
    simp
  · rw [hapart _ (by simp [pinnedCodeIndexPrefix]), Bool.eq_iff_iff, hcodes.pins,
      get_start hempty (by simp [pinnedCodeIndexPrefix])]
    simp only [Option.isSome_none, Bool.false_eq_true, false_or]
    constructor
    · rintro ⟨c, hc, hpin, rfl⟩
      exact (hg.pins c hc).symm.trans hpin
    · intro hmark
      obtain ⟨v, hv⟩ := Option.isSome_iff_exists.1 hmark
      obtain ⟨id, info, rfl, hinfo⟩ := hpins x v hv
      obtain ⟨c, hc, hid, -⟩ := hg.get_code.1 hinfo
      cases uint64ToBigEndian_injective hid
      exact ⟨c, hc, (hg.pins c hc).trans hmark, rfl⟩
  · rw [get_after_sequences hg hseqs]
    · exact hR.get_eq (represents_after_contracts hempty hcodes hg hR hcontracts) hkey
    · intro h
      simp [IsRegistryKey, h] at hkey
  · obtain ⟨r, hr⟩ := Option.isSome_iff_exists.1 ((isSome_info hR).1 ha)
    obtain ⟨c, hc, rfl⟩ := hg.listed hR hr
    refine Option.ext fun v ↦ ?_
    rw [get_after_sequences hg hseqs (by simp [getContractStorePrefix, contractStorePrefix]),
      hg.get_model hc, getContractStorePrefix, List.append_assoc, hcontracts.state,
      get_after_codes hempty hcodes (by simp [contractStorePrefix])]
    simp only [reduceCtorEq, false_or]
    constructor
    · rintro ⟨c', hc', a, ha', m, hmem, hkey, rfl⟩
      -- addresses are all of one length, so the key starts with the contract's own
      obtain ⟨r', hr', -⟩ := hg.record hR hc'
      rw [contractOf_eq ha'] at hr'
      obtain ⟨heq, rfl⟩ := List.append_inj hkey ((hs _ r hr).length.trans (hs _ r' hr').length.symm)
      rw [← contractOf_eq ha'] at heq
      obtain rfl := List.inj_on_of_nodup_map hg.nodup_contracts hc hc' heq
      exact ⟨m, hmem, rfl, rfl⟩
    · rintro ⟨m, hmem, rfl, rfl⟩
      exact ⟨c, hc, _, hg.addresses c hc, m, hmem, rfl, rfl⟩
  · have hrow := (hseqs.rows keySequenceCodeID (.bytes (uint64ToBigEndian n))).2
      (.inr ⟨⟨keySequenceCodeID, n⟩, by simp [hsequences], rfl, rfl⟩)
    rw [hrow, parseSequence_uint64ToBigEndian]
  · have hrow := (hseqs.rows keySequenceInstanceID (.bytes (uint64ToBigEndian m))).2
      (.inr ⟨⟨keySequenceInstanceID, m⟩, by simp [hsequences], rfl, rfl⟩)
    rw [hrow, parseSequence_uint64ToBigEndian]
  · rw [hapart _ (by simp [hkey]), get_after_codes hempty hcodes (by simp [hkey])]

end Stages

theorem Restores.sameGenesis (h : Restores k d d') (hshape : StateShape d) :
    SameGenesis k d d' where
  params := by
    refine SameAnswer.getKV (by decide) h.params fun v w w' ↦ ?_
    split <;> rfl
  codeInfos codeID := by
    have hkey : getCodeKey codeID ≠ [] := nofun
    refine SameAnswer.getKV hkey (h.codes _) fun v w w' ↦ ?_
    split <;> rfl
  pins codeID := SameAnswer.hasKV nofun (h.pins _)
  contractInfos a := by
    have hkey : getContractAddressKey a ≠ [] := nofun
    refine SameAnswer.getKV hkey (h.registry _ (by simp [IsRegistryKey])) fun v w w' ↦ ?_
    split <;> rfl
  state a ha := by
    have hbytes : ∀ x v, d.kv.get (getContractStorePrefix a ++ x) = some v → ∃ b, v = .bytes b := by
      intro x v hv
      rw [getContractStorePrefix, List.append_assoc] at hv
      exact (hshape _ v hv).2
    have hsame := h.state a ha
    obtain ⟨models, hrun, hmodels⟩ := unmetered_iterateContractState (k := k) hbytes
    obtain ⟨models', hrun', hmodels'⟩ := unmetered_iterateContractState (k := k) (d := d') (a := a) fun x v hv ↦
      hbytes x v ((hsame x).symm.trans hv)
    rw [OrderedStore.scan_congr hsame, ← hmodels] at hmodels'
    obtain rfl : models' = models := by
      refine List.map_injective_iff.2 (fun m m' heq ↦ ?_) hmodels'
      obtain ⟨hkey, hvalue⟩ := Prod.mk.inj heq
      cases m
      cases m'
      simp_all
    exact .of_unmetered hrun hrun'
  histories a := SameAnswer.iterateKV (fun x ↦ h.registry _ (by simp [IsRegistryKey, getContractCodeHistoryElementPrefix,
    contractCodeHistoryElementPrefix])) fun _ ↦ liftPanic_const _
  byCode codeID := SameAnswer.iterateKV (fun x ↦ h.registry _ (by simp [IsRegistryKey,
    getContractByCodeIDSecondaryIndexPrefix, contractByCodeIDAndCreatedSecondaryIndexPrefix])) fun _ ↦ liftPanic_const _
  byCreator creator := by
    unfold iterateContractsByCreator mustCreatorPrefix
    cases hhead : getContractsByCreatorPrefix creator with
    | none => exact fun _ _ _ _ _ _ ↦ rfl
    | some head =>
      obtain ⟨y, -, rfl⟩ := Option.map_eq_some_iff.1 hhead
      exact SameAnswer.iterateKV (fun x ↦ h.registry _ (by simp [IsRegistryKey, contractsByCreatorPrefix])) fun _ ↦
        liftPanic_const _
  codeSequence := by
    obtain ⟨n, hn, hn'⟩ := h.codeSequence
    exact .of_unmetered (.peekAutoIncrementID (by decide) hn) (.peekAutoIncrementID (by decide) hn')
  instanceSequence := by
    obtain ⟨n, hn, hn'⟩ := h.instanceSequence
    exact .of_unmetered (.peekAutoIncrementID (by decide) hn) (.peekAutoIncrementID (by decide) hn')

/-- What is assumed of the VM: it stores what it has accepted once without another check, and it accepts no archive. -/
structure GenesisHost (k : Keeper X) : Prop where
  unchecked : ∀ {code}, k.wasmVM.check code = .ok () → k.wasmVM.checkUnchecked code = .ok ()
  plain : ∀ {code}, k.wasmVM.check code = .ok () → isGzip code = false

section Import

variable {n : Nat} (hg : Exported k d R g) (hR : Represents k.bech32 d.kv R)
include hg

theorem codeFits_of_exported (hk : GenesisHost k) (hreg : CodeRegistry k n d) : ∀ c ∈ g.codes, CodeFits k c := by
  intro c hc
  obtain ⟨hsum, hcheck⟩ := hreg.held (hg.bytes c hc)
  exact ⟨hk.plain hcheck, hk.unchecked hcheck, hsum⟩

/-- The ids of the codes are below the sequence. -/
theorem codeID_lt_sequence (hreg : CodeRegistry k n d) : ∀ c ∈ g.codes, c.codeID < UInt64.ofNat (n + 1) := by
  intro c hc
  have hget : d.kv.get (getCodeKey c.codeID) = some (.codeInfo c.codeInfo) := hg.get_code.2 ⟨c, hc, rfl, rfl⟩
  obtain ⟨i, -, hi, hkey⟩ := (hreg.ids _ rfl).1 (Option.isSome_of_eq_some hget)
  have hfits := hreg.fits
  rw [getCodeKey_inj hkey, UInt64.lt_iff_toNat_lt, UInt64.toNat_ofNat_of_lt' (by simpa [UInt64.size] using by omega),
    UInt64.toNat_ofNat_of_lt' (by simpa [UInt64.size] using hfits)]
  omega

include hR

theorem contractFits_of_exported (hs : ∀ a r, R a = some r → Sound d.kv a r) (hshape : StateShape d) :
    ∀ c ∈ g.contracts, ContractFits k c := by
  intro c hc
  obtain ⟨r, hr, hinfo, hhist⟩ := hg.record hR hc
  have hlen := (hs _ r hr).length
  refine ⟨hg.addresses c hc, hlen, ⟨r, hinfo, hhist⟩, fun m hm hnil ↦ ?_, ?_⟩
  · have hget := (hg.get_model hc).2 ⟨m, hm, rfl, rfl⟩
    rw [getContractStorePrefix, List.append_assoc] at hget
    have hlong := (hshape _ _ hget).1
    rw [hnil, List.append_nil] at hlong
    omega
  · have hkeys := OrderedStore.nodup_keys_of_sorted (OrderedStore.scan_sorted d.kv (getContractStorePrefix (contractOf k c)))
    rw [← hg.state c hc, List.map_map] at hkeys
    exact hkeys

end Import

/-- The next classic address of any code is free. -/
theorem Numbered.next_free {S : Set Bytes} (hS : CollisionFree k S) (hclassic : ∀ codeID i, classicKey codeID i ∈ S)
    {kv : KVStore} (h : Numbered k kv) {n : UInt64} (hn : parseSequence (kv.get keySequenceInstanceID) = .ok n)
    (codeID : UInt64) : kv.get (getContractAddressKey (buildContractAddressClassic k codeID n)) = none := by
  obtain ⟨n', hn', hall⟩ := h
  obtain rfl : n' = n := Except.ok.inj (hn'.symm.trans hn)
  rw [← Option.not_isSome_iff_eq_none]
  intro htaken
  rcases hall _ htaken with ⟨codeID', i, hi, heq⟩ | ⟨checksum, creator, salt, msg, hc, heq⟩
  · obtain ⟨-, rfl⟩ := classic_inj hS hclassic heq
    exact absurd hi (UInt64.lt_irrefl _)
  · exact predictable_ne_classic hS hclassic hc creator salt msg codeID n' heq.symm

/-- The file of a reachable state is imported into any empty store. -/
theorem exists_import (hk : GenesisHost k) {S : Set Bytes} (hS : CollisionFree k S)
    (hclassic : ∀ codeID i, classicKey codeID i ∈ S) (hd : Reachable k d) (hR : Represents k.bech32 d.kv R)
    (hs : ∀ a r, R a = some r → Sound d.kv a r) (hg : Exported k d R g) (hempty : ∀ key, d₀.kv.get key = none) :
    ∃ d', Unmetered (initGenesis k g) d₀ () d' ∧ Restores k d d' := by
  obtain ⟨n, hreg⟩ := codeRegistry_reachable hd
  have hpins : PinsStored d := fun x v hv ↦ (codesHeld_reachable hd).pins hv
  -- the params
  have hparams : Unmetered (setParams k g.params) d₀ () (d₀.withKV (d₀.kv.set paramsKey (.params g.params))) :=
    .setKV (by decide) _ d₀
  -- the codes
  obtain ⟨m, d₁, hcodes⟩ := unmetered_importCodes (codeFits_of_exported hg hk hreg) hg.nodup_codes
    (fun c _ ↦ get_start hempty (p := g.params) (by simp)) 0 0
  obtain ⟨hcodes', -, -, hmax⟩ := hcodes.ensures (ensures_importCodes 0 0 g.codes)
  -- the contracts
  have hfree : ∀ c ∈ g.contracts, ContractFree k (fun _ ↦ none) d₁ c := by
    intro c hc
    obtain ⟨r, hr, hinfo, -⟩ := hg.record hR hc
    obtain ⟨code, hcode⟩ := (hs _ r hr).code
    rw [hinfo] at hcode
    obtain ⟨c', hc', hid, hcode'⟩ := hg.get_code.1 hcode
    refine ⟨Option.isSome_of_eq_some ((hcodes'.infos _ _).2 (.inr ⟨c', hc', hid, hcode'⟩)), rfl, fun x ↦ ?_⟩
    exact get_after_codes hempty hcodes' (by simp [getContractStorePrefix, contractStorePrefix])
  obtain ⟨d₂, hcontracts⟩ := unmetered_importContracts (represents_after_codes hempty hcodes')
    (contractFits_of_exported hg hR hs (stateShape_reachable hd)) hg.nodup_contracts hfree 0
  have hcontracts' := hcontracts.ensures (ensures_importContracts 0 g.contracts)
  -- the sequences
  obtain ⟨codeSeq, instanceSeq, hcodeSeq, hinstanceSeq, hsequences⟩ := hg.sequences
  have hkeys : ∀ s ∈ g.sequences, s.idKey = keySequenceCodeID ∨ s.idKey = keySequenceInstanceID := by
    intro s hs
    rw [hsequences] at hs
    simp only [List.mem_cons, List.not_mem_nil, or_false] at hs
    rcases hs with rfl | rfl
    · exact .inl rfl
    · exact .inr rfl
  obtain ⟨d₃, hseqs⟩ : ∃ d', Unmetered (importSequences k 0 g.sequences) d₂ () d' := by
    have hnodup : [keySequenceCodeID, keySequenceInstanceID].Nodup := by decide
    refine unmetered_importSequences (fun s hs ↦ ?_) (by rw [hsequences]; exact hnodup) (fun s hs ↦ ?_) 0
    · rcases hkeys s hs with h | h <;> rw [h] <;> decide
    · rw [hcontracts'.apart _ (by rcases hkeys s hs with h | h <;> rw [h] <;> decide)]
      exact get_after_codes hempty hcodes' (by rcases hkeys s hs with h | h <;> rw [h] <;> decide)
  have hrestores := restores_of_stages hempty hcodes' hg hR hcontracts' (hseqs.ensures (ensures_importSequences 0 _)) hs hpins
  refine ⟨d₃, hparams.bind (hcodes.bind (hcontracts.bind (hseqs.bind (unmetered_checkSequences ⟨?_, ?_⟩)))), hrestores⟩
  · obtain ⟨n', hn', hparse⟩ := hrestores.codeSequence
    obtain rfl : UInt64.ofNat (n + 1) = n' := Except.ok.inj (hreg.sequence.symm.trans hn')
    refine ⟨_, hparse, ?_⟩
    rcases hmax with rfl | ⟨c, hc, rfl⟩
    · rw [UInt64.lt_iff_toNat_lt, UInt64.toNat_ofNat_of_lt' (by simpa [UInt64.size] using hreg.fits)]
      exact Nat.succ_pos n
    · exact codeID_lt_sequence hg hreg c hc
  · obtain ⟨n', hn', hparse⟩ := hrestores.instanceSequence
    refine ⟨n', hparse, ?_⟩
    rw [hrestores.registry _ (by simp [IsRegistryKey])]
    exact (numbered_reachable hd).next_free hS hclassic hn' n'

/-- A genesis file takes a reachable state with params to any empty store: the export and the import succeed, and the
keeper answers as before. -/
theorem genesis_round_trip (hk : GenesisHost k) {S : Set Bytes} (hS : CollisionFree k S)
    (hclassic : ∀ codeID i, classicKey codeID i ∈ S) (hd : Reachable k d) {p : Params} (hp : StoredParams d p)
    (hempty : ∀ key, d₀.kv.get key = none) :
    ∃ g d', Unmetered (exportGenesis k) d g d ∧ Unmetered (initGenesis k g) d₀ () d' ∧ SameGenesis k d d' := by
  obtain ⟨R, hR, hs⟩ := HasRegistry.of_reachable hd
  obtain ⟨g, hexport, hg⟩ := unmetered_exportGenesis (exportable_reachable hd hR hs) hp
  obtain ⟨d', himport, hrestores⟩ := exists_import hk hS hclassic hd hR hs hg hempty
  exact ⟨g, d', hexport, himport, hrestores.sameGenesis (stateShape_reachable hd)⟩

section Packets

variable {port channel : String} {seq : UInt64}

/-- Where no packet is kept, the answer tells. -/
theorem sameAnswer_loadAsyncAckPacket (hnone : d'.kv.get (asyncAckKey port channel seq) = none) :
    SameAnswer (loadAsyncAckPacket k port channel seq) d d' ↔ d.kv.get (asyncAckKey port channel seq) = none := by
  have hkey : asyncAckKey port channel seq ≠ [] := nofun
  constructor
  · intro hsame
    have hanswer := hsame (worldOf d) (worldOf d') rfl rfl rfl rfl
    obtain ⟨w, hread, -⟩ := Unmetered.getKV (k := k) hkey d (worldOf d) rfl rfl
    obtain ⟨w', hread', -⟩ := Unmetered.getKV (k := k) hkey d' (worldOf d') rfl rfl
    rw [hnone] at hread'
    unfold loadAsyncAckPacket at hanswer
    rw [Program.bind_of_ok _ hread, Program.bind_of_ok _ hread'] at hanswer
    cases hget : d.kv.get (asyncAckKey port channel seq) with
    | none => rfl
    | some v =>
      rw [hget] at hanswer
      cases v <;> cases hanswer
  · intro hget
    refine SameAnswer.getKV hkey (hnone.trans hget.symm) fun v w w' ↦ ?_
    split <;> rfl

/-- A genesis file has no packets: a packet that waits for its acknowledgement is not found after the import. -/
theorem async_packet_survives_iff (hk : GenesisHost k) {S : Set Bytes} (hS : CollisionFree k S)
    (hclassic : ∀ codeID i, classicKey codeID i ∈ S) (hd : Reachable k d) {p : Params} (hp : StoredParams d p)
    (hempty : ∀ key, d₀.kv.get key = none) :
    ∃ g d', Unmetered (exportGenesis k) d g d ∧ Unmetered (initGenesis k g) d₀ () d' ∧ ∀ port channel seq,
      SameAnswer (loadAsyncAckPacket k port channel seq) d d' ↔ d.kv.get (asyncAckKey port channel seq) = none := by
  obtain ⟨R, hR, hs⟩ := HasRegistry.of_reachable hd
  obtain ⟨g, hexport, hg⟩ := unmetered_exportGenesis (exportable_reachable hd hR hs) hp
  obtain ⟨d', himport, hrestores⟩ := exists_import hk hS hclassic hd hR hs hg hempty
  refine ⟨g, d', hexport, himport, fun port channel seq ↦ ?_⟩
  exact sameAnswer_loadAsyncAckPacket (hrestores.packets _ (head?_asyncAckKey port channel seq))

end Packets

section Devnet

/-- The devnet's VM looks at the first bytes of a code only, which no archive begins with. -/
theorem genesisHost_apartnet : GenesisHost apartnet where
  unchecked h := h
  plain {code} h := by
    have hwasm : wasmIdent.isPrefixOf code = true := by
      by_contra hno
      cases (if_neg hno).symm.trans h
    obtain ⟨t, rfl⟩ := List.isPrefixOf_iff_prefix.1 hwasm
    rfl

/-- Alice's code and their two contracts. -/
def aliceState : Durable Unit := delivered apartnet (durable openWorld) [aliceStores, aliceInstantiates, aliceInstantiates2]

theorem reachable_aliceState : Reachable apartnet aliceState := by
  have hopen : Reachable apartnet (durable openWorld) :=
    .op (w := emptyWorld) (.empty ()) (.setParams (n := 0) (c := genesisCtx) ⟨allowEverybody, .everybody⟩)
  unfold aliceState
  exact hopen.delivered _

theorem storedParams_aliceState : StoredParams aliceState ⟨allowEverybody, .everybody⟩ := by
  unfold StoredParams
  decide +kernel

theorem genesis_round_trip_apartnet :
    instantiated aliceState = [buildContractAddressClassic apartnet 1 1, keyAddress apartnet aliceKey] ∧
    ∃ g d', Unmetered (exportGenesis apartnet) aliceState g aliceState ∧
      Unmetered (initGenesis apartnet g) (emptyDurable ()) () d' ∧ SameGenesis apartnet aliceState d' :=
  ⟨by decide +kernel, genesis_round_trip genesisHost_apartnet collisionFree_apartnet
    (fun codeID i ↦ .inl (length_classicKey codeID i)) reachable_aliceState storedParams_aliceState fun _ ↦ rfl⟩

/-- Before the params are set there is nothing to export. -/
theorem emptyDurable_not_exported : Reachable apartnet (emptyDurable ()) ∧
    (exportGenesis apartnet (worldOf (emptyDurable ()))).1 = .panic (.other "collections: not found") :=
  ⟨.empty (), rfl⟩

theorem async_packet_survives_iff_apartnet :
    ∃ g d', Unmetered (exportGenesis apartnet) aliceState g aliceState ∧
      Unmetered (initGenesis apartnet g) (emptyDurable ()) () d' ∧ ∀ port channel seq,
        SameAnswer (loadAsyncAckPacket apartnet port channel seq) aliceState d' ↔
          aliceState.kv.get (asyncAckKey port channel seq) = none :=
  async_packet_survives_iff genesisHost_apartnet collisionFree_apartnet
    (fun codeID i ↦ .inl (length_classicKey codeID i)) reachable_aliceState storedParams_aliceState fun _ ↦ rfl

/-- The receipt of the packet by the keeper. -/
def asyncReceived : Durable Unit :=
  committed (onRecvPacket asyncnet (responseHandler asyncnet 5) genesisCtx contractOne (IBCHandler.newIBCPacket asyncPacket)
    "relayer") asyncWorld

/-- What the import of a state's own genesis file into the empty store leads to. -/
def reimported (k : Keeper Unit) (d : Durable Unit) : Option (Durable Unit) :=
  match exportGenesis k (worldOf d) with
  | (.ok g, _) =>
    match initGenesis k g (worldOf (emptyDurable ())) with
    | (.ok (), w) => some (durable w)
    | _ => none
  | _ => none

/-- The packet that carol's contract is to acknowledge is there before the export and not found after the import. -/
theorem async_packet_lost : Reachable asyncnet asyncReceived ∧
    (loadAsyncAckPacket asyncnet asyncPort "channel-0" 1 (worldOf asyncReceived)).1 = .ok asyncPacket ∧
    (reimported asyncnet asyncReceived).map
      (fun d ↦ (loadAsyncAckPacket asyncnet asyncPort "channel-0" 1 (worldOf d)).1) =
        some (.error (.wrap errNotFound "packet")) := by
  have hopen : Reachable asyncnet (durable openWorld) :=
    .op (w := emptyWorld) (.empty ()) (.setParams (n := 0) (c := genesisCtx) ⟨allowEverybody, .everybody⟩)
  have hset : Reachable asyncnet (durable asyncWorld) := by
    rw [asyncWorld, durable_worldOf]
    exact hopen.delivered _
  refine ⟨?_, ?_, ?_⟩
  · unfold asyncReceived
    exact .op hset (.onRecvPacket _ _ _)
  · decide +kernel
  · decide +kernel

end Devnet

end Cosmwasgo.Properties
