import Cosmwasgo.Registry.Export

namespace Cosmwasgo.Registry

open Cosmwasgo.Lib Cosmwasgo.Types Cosmwasgo.State Cosmwasgo.Keeper Cosmwasgo.Runs

variable {X : Type} {k : Keeper X} {d : Durable X}

section Codes

/-- The VM takes the bytes of a code for what its info says. -/
structure CodeFits (k : Keeper X) (c : Code) : Prop where
  plain : isGzip c.codeBytes = false
  accepted : k.wasmVM.checkUnchecked c.codeBytes = .ok ()
  checksum : k.wasmVM.checksum c.codeBytes = c.codeInfo.codeHash

theorem unmetered_importCode {c : Code} (hc : CodeFits k c) (hfree : d.kv.get (getCodeKey c.codeID) = none) :
    Unmetered (importCode k c.codeID c.codeInfo c.codeBytes) d ()
      ((d.withVM { d.vm with codes := d.vm.codes.set c.codeInfo.codeHash c.codeBytes }).withKV
        (d.kv.set (getCodeKey c.codeID) (.codeInfo c.codeInfo))) := by
  have hkey : getCodeKey c.codeID ≠ [] := by simp [getCodeKey, codeKeyPrefix]
  have hplain : (if isGzip c.codeBytes then uncompressCode k c.codeBytes maxInt64 else .ok c.codeBytes) =
      .ok c.codeBytes := by rw [hc.plain]; rfl
  have hstore := Unmetered.vmStoreCodeUnchecked hc.accepted d
  rw [hc.checksum] at hstore
  refine (Unmetered.lift hplain d).bind (hstore.bind ((Unmetered.require (by simp) _ _).bind
    ((Unmetered.hasKV hkey _).bind ((Unmetered.require ?_ _ _).bind (.setKV hkey _ _)))))
  change (!(d.kv.get (getCodeKey c.codeID)).isSome) = true
  rw [hfree]
  rfl

theorem unmetered_importPin {c : Code} (i : Nat) (hinfo : d.kv.get (getCodeKey c.codeID) = some (.codeInfo c.codeInfo))
    (hcode : (d.vm.codes.get c.codeInfo.codeHash).isSome) : ∃ d', Unmetered (importPin k i c) d () d' := by
  unfold importPin
  split
  · exact ⟨_, (Unmetered.pinCode hinfo hcode).wrapErr _⟩
  · exact ⟨d, .pure () d⟩

/-- Codes under ids of their own are imported. -/
theorem unmetered_importCodes {codes : List Code} (hcodes : ∀ c ∈ codes, CodeFits k c)
    (hnodup : (codes.map (·.codeID)).Nodup) (hfree : ∀ c ∈ codes, d.kv.get (getCodeKey c.codeID) = none) (i : Nat)
    (m : UInt64) : ∃ m' d', Unmetered (importCodes k i m codes) d m' d' := by
  induction codes generalizing d i m with
  | nil => exact ⟨m, d, .pure m d⟩
  | cons c codes ih =>
    obtain ⟨hc, hcodes⟩ := List.forall_mem_cons.1 hcodes
    obtain ⟨hown, hfree⟩ := List.forall_mem_cons.1 hfree
    obtain ⟨hnot, hnodup⟩ := List.nodup_cons.1 hnodup
    let d₀ : Durable X := (d.withVM { d.vm with codes := d.vm.codes.set c.codeInfo.codeHash c.codeBytes }).withKV
      (d.kv.set (getCodeKey c.codeID) (.codeInfo c.codeInfo))
    have hstore : Unmetered (importCode k c.codeID c.codeInfo c.codeBytes) d () d₀ := unmetered_importCode hc hown
    have hinfo : d₀.kv.get (getCodeKey c.codeID) = some (.codeInfo c.codeInfo) := OrderedStore.get_set_self _ _ _
    have hcode : d₀.vm.codes.get c.codeInfo.codeHash = some c.codeBytes := OrderedStore.get_set_self _ _ _
    obtain ⟨d₁, hpin⟩ := unmetered_importPin (k := k) i hinfo (Option.isSome_of_eq_some hcode)
    have himported : CodesImported k [c] d d₁ :=
      hpin.ensures (ensures_importPin i c) d (.one (c := { c with pinned := false }) hown rfl)
    have hfree₁ : ∀ c' ∈ codes, d₁.kv.get (getCodeKey c'.codeID) = none := by
      intro c' hc'
      rw [Option.eq_none_iff_forall_ne_some]
      intro v hv
      rcases (himported.infos _ v).1 hv with hold | ⟨c'', hc'', hid, -⟩
      · cases (hfree c' hc').symm.trans hold
      · obtain rfl := List.mem_singleton.1 hc''
        exact hnot (List.mem_map.2 ⟨c', hc', uint64ToBigEndian_injective hid⟩)
    obtain ⟨m', d', hrest⟩ := ih hcodes hnodup hfree₁ (i + 1) (if c.codeID > m then c.codeID else m)
    exact ⟨m', d', (hstore.wrapErr _).bind (hpin.bind hrest)⟩

end Codes

section Contracts

theorem unmetered_importContractState {a : AccAddress} {models : List Model} (hne : ∀ m ∈ models, m.key ≠ [])
    (hnodup : (models.map (·.key)).Nodup) (hfree : ∀ m ∈ models, d.kv.get (getContractStorePrefix a ++ m.key) = none) :
    ∃ d', Unmetered (importContractState k a models) d () d' := by
  induction models generalizing d with
  | nil => exact ⟨d, .pure () d⟩
  | cons m models ih =>
    obtain ⟨hm, hne⟩ := List.forall_mem_cons.1 hne
    obtain ⟨hown, hfree⟩ := List.forall_mem_cons.1 hfree
    obtain ⟨hnot, hnodup⟩ := List.nodup_cons.1 hnodup
    have hkey : getContractStorePrefix a ++ m.key ≠ [] := by simp [hm]
    let d₁ := d.withKV (d.kv.set (getContractStorePrefix a ++ m.key) (.bytes m.value))
    have hfree₁ : ∀ m' ∈ models, d₁.kv.get (getContractStorePrefix a ++ m'.key) = none := by
      intro m' hm'
      refine (OrderedStore.get_set_of_ne _ _ fun heq ↦ ?_).trans (hfree m' hm')
      exact hnot (List.mem_map.2 ⟨m', hm', List.append_cancel_left heq⟩)
    obtain ⟨d', hrest⟩ := ih hne hnodup hfree₁
    refine ⟨d', (Unmetered.hasKV hkey d).bind ((Unmetered.require ?_ _ d).bind
      (((Unmetered.assertValidKey hm d).bind (.setKV hkey _ d)).bind hrest))⟩
    rw [hown]
    rfl

theorem unmetered_storeHistory (a : AccAddress) {es : List ContractCodeHistoryEntry} {pos : UInt64}
    (hfit : pos.toNat + es.length < 2 ^ 64) : ∃ d', Unmetered (storeHistory k a pos es) d () d' := by
  induction es generalizing d pos with
  | nil => exact ⟨d, .pure () d⟩
  | cons e es ih =>
    rw [List.length_cons] at hfit
    have hnext : (pos + 1).toNat = pos.toNat + 1 := by
      rw [UInt64.toNat_add]
      exact Nat.mod_eq_of_lt (by simp; omega)
    have hfit₁ : (pos + 1).toNat + es.length < 2 ^ 64 := by omega
    obtain ⟨d', hrest⟩ := ih (d := d.withKV (d.kv.set (getContractCodeHistoryElementKey a (pos + 1)) (.history e))) hfit₁
    have hkey : getContractCodeHistoryElementKey a (pos + 1) ≠ [] := nofun
    exact ⟨d', (Unmetered.incUint64 (by omega) d).bind ((Unmetered.setKV hkey _ d).bind hrest)⟩

theorem unmetered_addToContractCodeSecondaryIndex {e : ContractCodeHistoryEntry} {pos : AbsoluteTxPosition}
    (he : e.updated = some pos) (a : AccAddress) (d : Durable X) :
    Unmetered (addToContractCodeSecondaryIndex k a e) d ()
      (d.withKV (d.kv.set (getContractByCreatedSecondaryIndexKey a e.codeID pos) (.bytes []))) := by
  have hkey : getContractByCreatedSecondaryIndexKey a e.codeID pos ≠ [] := nofun
  unfold addToContractCodeSecondaryIndex
  rw [he]
  exact (Unmetered.pure _ d).bind (.setKV hkey _ d)

theorem unmetered_addToContractCreatorSecondaryIndex {creator : AccAddress} {head : Bytes}
    (hhead : getContractsByCreatorPrefix creator = some head) {entered : Option AbsoluteTxPosition}
    {pos : AbsoluteTxPosition} (hpos : entered = some pos) (a : AccAddress) (d : Durable X) :
    Unmetered (addToContractCreatorSecondaryIndex k creator entered a) d ()
      (d.withKV (d.kv.set (getContractByCreatorSecondaryIndexKey head pos a) (.bytes []))) := by
  have hkey : getContractByCreatorSecondaryIndexKey head pos a ≠ [] :=
    List.ne_nil_of_mem (List.mem_of_head? (head?_getContractByCreatorSecondaryIndexKey hhead pos a))
  unfold addToContractCreatorSecondaryIndex mustCreatorPrefix
  rw [hpos, hhead]
  exact (Unmetered.pure _ d).bind ((Unmetered.pure _ d).bind (.setKV hkey _ d))

/-- A listed contract that the checks of the import have nothing against: it has a record to give, and the keys of its
state are all different. -/
structure ContractFits (k : Keeper X) (c : Contract) : Prop where
  address : k.bech32.fromBech32 c.contractAddress = .ok (contractOf k c)
  length : (contractOf k c).length = contractAddrLen
  record : ∃ r : ContractRecord k.bech32, r.info = c.contractInfo ∧ r.history = c.contractCodeHistory
  keys : ∀ m ∈ c.contractState, m.key ≠ []
  nodup : (c.contractState.map (·.key)).Nodup

/-- There is room for a contract: its code is there, and nothing is in its place. -/
structure ContractFree (k : Keeper X) (R : AccAddress → Option (ContractRecord k.bech32)) (d : Durable X) (c : Contract) :
    Prop where
  code : (d.kv.get (getCodeKey c.contractInfo.codeID)).isSome
  record : R (contractOf k c) = none
  state : ∀ x, d.kv.get (getContractStorePrefix (contractOf k c) ++ x) = none

variable {R : AccAddress → Option (ContractRecord k.bech32)} {c : Contract}

theorem unmetered_importContract (hR : Represents k.bech32 d.kv R) (hc : ContractFits k c) (hfree : ContractFree k R d c) :
    ∃ d', Unmetered (importContract k (contractOf k c) c.contractInfo c.contractState c.contractCodeHistory) d () d' := by
  obtain ⟨r, hinfo, hhist⟩ := hc.record
  obtain ⟨first, hfirst, hentered⟩ := Option.bind_eq_some_iff.1 r.entered_eq
  have hlast := r.last_eq
  rw [hhist] at hfirst hlast
  have hcreator := r.creator_eq
  rw [hinfo] at hcreator
  have hnew := hR.get_info_eq_none.2 hfree.record
  -- the history starts from nothing
  have hempty : lastPosition (d.kv.scan (getContractCodeHistoryElementPrefix (contractOf k c))) = 0 := by
    rw [Represents.lastPosition_scan hR.histories, Represents.historyOf_none hfree.record]
    rfl
  have hfit : (0 : UInt64).toNat + c.contractCodeHistory.length < 2 ^ 64 := by
    rw [← hhist]
    simpa using r.fits
  obtain ⟨d₁, hstore⟩ := unmetered_storeHistory (k := k) (d := d) (contractOf k c) hfit
  have happend : Unmetered (appendToContractHistory k (contractOf k c) c.contractCodeHistory) d () d₁ := by
    refine (Unmetered.iterateKV _ d).bind ?_
    rwa [hempty]
  have hkv₁ := (happend.ensures (ensures_appendToContractHistory _ _)).2.1
  obtain ⟨head, hhead⟩ : ∃ head, getContractsByCreatorPrefix r.creator = some head := ⟨_, r.creatorPrefix⟩
  let d₂ := d₁.withKV (d₁.kv.set (getContractAddressKey (contractOf k c)) (.contractInfo c.contractInfo))
  let d₃ := d₂.withKV (d₂.kv.set (getContractByCreatedSecondaryIndexKey (contractOf k c) r.last.codeID r.updated)
    (.bytes []))
  let d₄ := d₃.withKV (d₃.kv.set (getContractByCreatorSecondaryIndexKey head r.entered (contractOf k c)) (.bytes []))
  have hstate : ∀ m ∈ c.contractState, d₄.kv.get (getContractStorePrefix (contractOf k c) ++ m.key) = none := by
    intro m _
    have h3 : (getContractStorePrefix (contractOf k c) ++ m.key).head? = some 3 := rfl
    have h9 := head?_getContractByCreatorSecondaryIndexKey hhead r.entered (contractOf k c)
    refine (get_set_of_head _ (by simp [h3, h9])).trans ((get_set_of_head _ (by simp [h3])).trans
      ((get_set_of_head _ (by simp [h3])).trans ((hkv₁ _ (by simp [h3])).trans (hfree.state m.key))))
  obtain ⟨d', hmodels⟩ := unmetered_importContractState (k := k) hc.keys hc.nodup hstate
  have hcodeIndex : Unmetered (addToContractCodeSecondaryIndex k (contractOf k c) r.last) d₂ () d₃ :=
    unmetered_addToContractCodeSecondaryIndex r.updated_eq _ _
  have hcreatorIndex : Unmetered (addToContractCreatorSecondaryIndex k r.creator first.updated (contractOf k c)) d₃ () d₄ :=
    unmetered_addToContractCreatorSecondaryIndex hhead hentered _ _
  have hcodeKey : getCodeKey c.contractInfo.codeID ≠ [] := nofun
  have hinfoKey : getContractAddressKey (contractOf k c) ≠ [] := nofun
  refine ⟨d', ?_⟩
  unfold importContract
  rw [hfirst, hlast]
  refine (Unmetered.hasKV hcodeKey d).bind ((Unmetered.require hfree.code _ d).bind ((Unmetered.hasKV hinfoKey d).bind
    ((Unmetered.require ?_ _ d).bind ((Unmetered.lift hcreator d).bind (happend.bind ((Unmetered.setKV hinfoKey _ d₁).bind
      (hcodeIndex.bind (hcreatorIndex.bind hmodels))))))))
  rw [hnew]
  rfl

/-- What the import of a contract leaves room for. -/
theorem ContractFree.step {R' : AccAddress → Option (ContractRecord k.bech32)} {d' : Durable X} {c' : Contract}
    (hc : ContractFits k c) (hc' : ContractFits k c') (hne : contractOf k c' ≠ contractOf k c)
    (himported : ContractImported k (contractOf k c) c d d') {r : ContractRecord k.bech32}
    (hR' : R' = Function.update R (contractOf k c) (some r)) (h : ContractFree k R d c') : ContractFree k R' d' c' where
  code := by
    rw [himported.apart _ (by simp)]
    exact h.code
  record := by
    rw [hR', Function.update_of_ne hne]
    exact h.record
  state x := by
    rw [Option.eq_none_iff_forall_ne_some]
    intro v hv
    rw [getContractStorePrefix, List.append_assoc] at hv
    rcases (himported.state _ v).1 hv with hold | ⟨m, -, heq, -⟩
    · have hnone := h.state x
      rw [getContractStorePrefix, List.append_assoc] at hnone
      cases hnone.symm.trans hold
    · exact hne (List.append_inj heq (hc'.length.trans hc.length.symm)).1

/-- Contracts under addresses of their own are imported. -/
theorem unmetered_importContracts {contracts : List Contract} (hR : Represents k.bech32 d.kv R)
    (hfits : ∀ c ∈ contracts, ContractFits k c) (hnodup : (contracts.map (contractOf k)).Nodup)
    (hfree : ∀ c ∈ contracts, ContractFree k R d c) (i : Nat) :
    ∃ d', Unmetered (importContracts k i contracts) d () d' := by
  induction contracts generalizing d R i with
  | nil => exact ⟨d, .pure () d⟩
  | cons c contracts ih =>
    obtain ⟨hc, hfits⟩ := List.forall_mem_cons.1 hfits
    obtain ⟨hown, hfree⟩ := List.forall_mem_cons.1 hfree
    obtain ⟨hnot, hnodup⟩ := List.nodup_cons.1 hnodup
    obtain ⟨d₁, hstep⟩ := unmetered_importContract hR hc hown
    have himported := hstep.ensures (ensures_importContract _ c)
    obtain ⟨-, r, -, -, hR₁⟩ := himported.records R hR
    have hfree₁ : ∀ c' ∈ contracts, ContractFree k (Function.update R (contractOf k c) (some r)) d₁ c' := by
      intro c' hc'
      refine .step hc (hfits c' hc') (fun heq ↦ hnot ?_) himported rfl (hfree c' hc')
      exact List.mem_map.2 ⟨c', hc', heq⟩
    obtain ⟨d', hrest⟩ := ih hR₁ hfits hnodup hfree₁ (i + 1)
    exact ⟨d', (Unmetered.lift (wrap_eq_ok.2 hc.address) d).bind ((hstep.wrapErr _).bind hrest)⟩

end Contracts

section Sequences

theorem unmetered_importSequences {seqs : List Sequence} (hne : ∀ s ∈ seqs, s.idKey ≠ [])
    (hnodup : (seqs.map (·.idKey)).Nodup) (hfree : ∀ s ∈ seqs, d.kv.get s.idKey = none) (i : Nat) :
    ∃ d', Unmetered (importSequences k i seqs) d () d' := by
  induction seqs generalizing d i with
  | nil => exact ⟨d, .pure () d⟩
  | cons s seqs ih =>
    obtain ⟨hs, hne⟩ := List.forall_mem_cons.1 hne
    obtain ⟨hown, hfree⟩ := List.forall_mem_cons.1 hfree
    obtain ⟨hnot, hnodup⟩ := List.nodup_cons.1 hnodup
    let d₁ := d.withKV (d.kv.set s.idKey (.bytes (uint64ToBigEndian s.value)))
    have hfree₁ : ∀ s' ∈ seqs, d₁.kv.get s'.idKey = none := by
      intro s' hs'
      refine (OrderedStore.get_set_of_ne _ _ fun heq ↦ ?_).trans (hfree s' hs')
      exact hnot (List.mem_map.2 ⟨s', hs', heq⟩)
    obtain ⟨d', hrest⟩ := ih hne hnodup hfree₁ (i + 1)
    have hset : Unmetered (importAutoIncrementID k s.idKey s.value) d () d₁ := by
      refine (Unmetered.hasKV hs d).bind ((Unmetered.require ?_ _ d).bind (.setKV hs _ d))
      rw [hown]
      rfl
    exact ⟨d', (hset.wrapErr _).bind hrest⟩

theorem unmetered_checkSequences {m : UInt64} (h : SequencesChecked k m d) : Unmetered (checkSequences k m) d () d := by
  obtain ⟨n, hn, hlt⟩ := h.codes
  obtain ⟨i, hi, hfree⟩ := h.instances
  have hcodeKey : keySequenceCodeID ≠ [] := nofun
  have hinstanceKey : keySequenceInstanceID ≠ [] := nofun
  have hinfoKey : getContractAddressKey (buildContractAddressClassic k i i) ≠ [] := nofun
  have hpeek := Unmetered.peekAutoIncrementID (k := k) hinstanceKey hi
  have haddr : Unmetered (peekClassicAddress k i) d (buildContractAddressClassic k i i) d :=
    Unmetered.discarding (hpeek.bind ((Unmetered.setKV hinstanceKey _ d).bind (.pure _ _))) rfl
  refine (Unmetered.peekAutoIncrementID hcodeKey hn).bind ((Unmetered.require (decide_eq_true hlt) _ d).bind
    (hpeek.bind (haddr.bind ((Unmetered.hasKV hinfoKey d).bind (.require ?_ _ d)))))
  rw [hfree]
  rfl

end Sequences

end Cosmwasgo.Registry
