import Cosmwasgo.Registry.Records
import Cosmwasgo.Runs.Roots

namespace Cosmwasgo.Registry

open Cosmwasgo.Lib Cosmwasgo.Types Cosmwasgo.State Cosmwasgo.Keeper Cosmwasgo.Runs

variable {X : Type} {k : Keeper X} {b : Bech32} {kv kv' : KVStore} {R : AccAddress → Option (ContractRecord b)}
  {a : AccAddress}

/-- The key of a by-code entry, and of a by-creator entry, below the head of its family. -/
theorem byCodeKey_eq (a : AccAddress) (codeID : UInt64) (pos : AbsoluteTxPosition) :
    getContractByCreatedSecondaryIndexKey a codeID pos =
      contractByCodeIDAndCreatedSecondaryIndexPrefix ++ (uint64ToBigEndian codeID ++ pos.bytes ++ a) := by
  simp [getContractByCreatedSecondaryIndexKey, getContractByCodeIDSecondaryIndexPrefix]

theorem byCreatorKey_eq (r : ContractRecord b) (pos : AbsoluteTxPosition) (a : AccAddress) {head : Bytes}
    (h : getContractsByCreatorPrefix r.creator = some head) :
    getContractByCreatorSecondaryIndexKey head pos a =
      contractsByCreatorPrefix ++ (Fin.ofNat 256 r.creator.length :: (r.creator ++ pos.bytes ++ a)) := by
  rw [r.creatorPrefix] at h
  cases h
  simp [getContractByCreatorSecondaryIndexKey]

theorem historyKey_eq (a : AccAddress) {n : Nat} (h : n + 1 < 2 ^ 64) :
    getContractCodeHistoryElementKey a (UInt64.ofNat n + 1) =
      contractCodeHistoryElementPrefix ++ (a ++ bigEndian 8 (n + 1)) := by
  have hn : (UInt64.ofNat n + 1).toNat = n + 1 := by
    rw [UInt64.toNat_add, UInt64.toNat_ofNat_of_lt' (by simpa [UInt64.size] using (by omega : n < 2 ^ 64))]
    simpa using h
  rw [getContractCodeHistoryElementKey, getContractCodeHistoryElementPrefix, uint64ToBigEndian, hn, List.append_assoc]

theorem nextPosition_eq (h : Lists kv contractCodeHistoryElementPrefix historyRow R) (a : AccAddress) :
    nextPosition kv a = UInt64.ofNat (Represents.historyOf R a).length + 1 := by
  rw [nextPosition, Represents.lastPosition_scan h]

/-- One more entry at the end of a history. -/
theorem lists_history_append (h : Lists kv contractCodeHistoryElementPrefix historyRow R) {r' : ContractRecord b}
    {e : ContractCodeHistoryEntry} (hr' : r'.history = Represents.historyOf R a ++ [e]) :
    Lists (kv.set (getContractCodeHistoryElementKey a (nextPosition kv a)) (.history e))
      contractCodeHistoryElementPrefix historyRow (Function.update R a (some r')) := by
  have hfit : (Represents.historyOf R a).length + 1 < 2 ^ 64 := by
    have := r'.fits
    rw [hr', List.length_append] at this
    exact this
  rw [nextPosition_eq h, historyKey_eq a hfit]
  generalize hes : Represents.historyOf R a = es at *
  refine h.extend owns_history ?_ fun x v ↦ ?_
  · rw [Option.eq_none_iff_forall_ne_some]
    intro v hv
    obtain ⟨a', r, hr, i, e', he', hx, -⟩ := (h _ _).1 hv
    obtain ⟨rfl, hbe⟩ := List.append_inj' hx (by simp)
    rw [Represents.historyOf_some hr] at hes
    subst hes
    obtain ⟨hi, -⟩ := List.getElem?_eq_some_iff.1 he'
    have := bigEndian_injective (w := 8) (by omega) (by omega) hbe
    omega
  · have hold : (∃ r, R a = some r ∧ historyRow a r x v) ↔
        ∃ i e, es[i]? = some e ∧ x = a ++ bigEndian 8 (i + 1) ∧ v = .history e := by
      rw [← hes]
      rcases hr : R a with _ | r
      · simp [Represents.historyOf_none hr]
      · simp [Represents.historyOf_some hr, historyRow]
    rw [hold, historyRow, hr']
    constructor
    · rintro ⟨i, e', he', rfl, rfl⟩
      have hi := (List.getElem?_eq_some_iff.1 he').1
      rw [List.length_append, List.length_singleton] at hi
      rcases Nat.lt_succ_iff_lt_or_eq.1 hi with hi | rfl
      · rw [List.getElem?_append_left hi] at he'
        exact .inr ⟨i, e', he', rfl, rfl⟩
      · rw [List.getElem?_concat_length] at he'
        cases he'
        exact .inl ⟨rfl, rfl⟩
    · rintro (⟨rfl, rfl⟩ | ⟨i, e', he', rfl, rfl⟩)
      · exact ⟨es.length, e, by rw [List.getElem?_concat_length], rfl, rfl⟩
      · have hi := (List.getElem?_eq_some_iff.1 he').1
        exact ⟨i, e', by rw [List.getElem?_append_left hi, he'], rfl, rfl⟩

namespace ContractRecord

/-- The record of a contract that was just instantiated. -/
def new (info : ContractInfo) (initMsg : Bytes) {pos : AbsoluteTxPosition} {creator : AccAddress}
    (hpos : info.created = some pos) (hcreator : b.fromBech32 info.creator = .ok creator) : ContractRecord b where
  info := info
  history := [info.initialHistory initMsg]
  last := info.initialHistory initMsg
  updated := pos
  entered := pos
  creator := creator
  last_eq := rfl
  updated_eq := hpos
  entered_eq := hpos
  creator_eq := hcreator
  fits := by simp

/-- The record after a migration. -/
def migrate (r : ContractRecord b) (codeID : UInt64) (ibcPortID : String) (pos : AbsoluteTxPosition) (msg : Bytes)
    (hfit : r.history.length + 1 < 2 ^ 64) : ContractRecord b where
  info := { r.info with codeID, ibcPortID }
  history := r.history ++ [⟨.migrate, codeID, some pos, msg⟩]
  last := ⟨.migrate, codeID, some pos, msg⟩
  updated := pos
  entered := r.entered
  creator := r.creator
  last_eq := by simp
  updated_eq := rfl
  entered_eq := by
    rw [List.head?_append_of_ne_nil _ r.history_ne_nil]
    exact r.entered_eq
  creator_eq := r.creator_eq
  fits := by simpa using hfit

/-- The record with another info of the same creator. -/
def withInfo (r : ContractRecord b) (info : ContractInfo) (hc : info.creator = r.info.creator) : ContractRecord b :=
  { r with info, creator_eq := by rw [hc]; exact r.creator_eq }

end ContractRecord

namespace Represents

theorem register (h : Represents b kv R) (hr : R a = none) {info : ContractInfo} {initMsg head : Bytes}
    {pos : AbsoluteTxPosition} {creator : AccAddress} (hpos : info.created = some pos)
    (hcreator : b.fromBech32 info.creator = .ok creator) (hhead : getContractsByCreatorPrefix creator = some head) :
    Represents b (registered kv a head pos info initMsg)
      (Function.update R a (some (.new info initMsg hpos hcreator))) := by
  have hby : getContractByCreatorSecondaryIndexKey head pos a = _ :=
    byCreatorKey_eq (.new info initMsg hpos hcreator : ContractRecord b) pos a hhead
  have h9 := head?_getContractByCreatorSecondaryIndexKey hhead pos a
  unfold registered
  refine ⟨?_, ?_, ?_, ?_⟩
  · refine Lists.insert (.set_other (.set_other (.set_other h.infos ?_ _) ?_ _) ?_ _) owns_info hr fun x v ↦ Iff.rfl
    all_goals exact append_ne_of_head (by simp [h9])
  · refine .set_other (lists_history_append (.set_other (.set_other h.histories ?_ _) ?_ _) ?_) ?_ _
    · exact append_ne_of_head (by simp)
    · exact append_ne_of_head (by simp [h9])
    · rw [historyOf_none hr]
      rfl
    · exact append_ne_of_head (by simp)
  · refine .set_other (.set_other (.set_other ?_ ?_ _) ?_ _) ?_ _
    · rw [byCodeKey_eq]
      exact h.byCode.insert owns_byCode hr fun x v ↦ Iff.rfl
    all_goals exact append_ne_of_head (by simp [h9])
  · refine .set_other (.set_other ?_ ?_ _) ?_ _
    · rw [hby]
      refine Lists.insert (.set_other h.byCreator ?_ _) owns_byCreator hr fun x v ↦ Iff.rfl
      exact append_ne_of_head (by simp)
    all_goals exact append_ne_of_head (by simp)

theorem migrate (h : Represents b kv R) {r : ContractRecord b} (hr : R a = some r) (codeID : UInt64) (port : String)
    (pos : AbsoluteTxPosition) (msg : Bytes) (hfit : r.history.length + 1 < 2 ^ 64) :
    Represents b (migrated kv a r.last.codeID r.updated { r.info with codeID, ibcPortID := port } pos msg)
      (Function.update R a (some (r.migrate codeID port pos msg hfit))) := by
  unfold migrated
  refine ⟨?_, ?_, ?_, ?_⟩
  · refine Lists.overwrite (.set_other (.set_other (.delete_other h.infos ?_) ?_ _) ?_ _) owns_info hr
      (fun x v ↦ Iff.rfl) fun x v ↦ Iff.rfl
    all_goals exact append_ne_of_head (by simp)
  · refine .set_other (.set_other (lists_history_append (.delete_other h.histories ?_) ?_) ?_ _) ?_ _
    · exact append_ne_of_head (by simp)
    · rw [historyOf_some hr]
      rfl
    · exact append_ne_of_head (by simp)
    · exact append_ne_of_head (by simp)
  · refine .set_other ?_ (append_ne_of_head (by simp)) _
    rw [byCodeKey_eq, byCodeKey_eq]
    refine (h.byCode.replace owns_byCode hr (fun x v ↦ Iff.rfl) (t := r.migrate codeID port pos msg hfit)
      fun x v ↦ Iff.rfl).congr fun x ↦ ?_
    -- the history entry in between belongs to another family
    have hne : ∀ n, contractByCodeIDAndCreatedSecondaryIndexPrefix ++ x ≠ getContractCodeHistoryElementKey a n :=
      fun n ↦ append_ne_of_head (by simp) x
    exact OrderedStore.get_set_congr (OrderedStore.get_set_of_ne _ _ (hne _)) _ _
  · refine .set_other (.set_other (.set_other (.delete_other ?_ ?_) ?_ _) ?_ _) ?_ _
    · exact h.byCreator.update_same hr fun x v ↦ Iff.rfl
    all_goals exact append_ne_of_head (by simp)

theorem setInfo (h : Represents b kv R) {r : ContractRecord b} (hr : R a = some r) (info : ContractInfo)
    (hc : info.creator = r.info.creator) :
    Represents b (kv.set (getContractAddressKey a) (.contractInfo info))
      (Function.update R a (some (r.withInfo info hc))) := by
  refine ⟨?_, ?_, ?_, ?_⟩
  · exact h.infos.overwrite owns_info hr (fun x v ↦ Iff.rfl) fun x v ↦ Iff.rfl
  · refine .set_other (h.histories.update_same hr (t := r.withInfo info hc) fun x v ↦ Iff.rfl) ?_ _
    exact append_ne_of_head (by simp)
  · refine .set_other (h.byCode.update_same hr (t := r.withInfo info hc) fun x v ↦ Iff.rfl) ?_ _
    exact append_ne_of_head (by simp)
  · refine .set_other (h.byCreator.update_same hr (t := r.withInfo info hc) fun x v ↦ Iff.rfl) ?_ _
    exact append_ne_of_head (by simp)

end Represents

/-- What holds of a contract besides: its history agrees with its info, and its code exists. -/
structure Sound (kv : KVStore) (a : AccAddress) (r : ContractRecord b) : Prop where
  length : a.length = contractAddrLen
  current : r.last.codeID = r.info.codeID
  created : r.info.created = some r.entered
  code : ∃ code, kv.get (getCodeKey r.info.codeID) = some (.codeInfo code)

def KeepsCodes (kv kv' : KVStore) : Prop :=
  ∀ id code, kv.get (getCodeKey id) = some (.codeInfo code) → ∃ code', kv'.get (getCodeKey id) = some (.codeInfo code')

theorem KeepsCodes.of_get (h : ∀ id, kv'.get (getCodeKey id) = kv.get (getCodeKey id)) : KeepsCodes kv kv' :=
  fun id code hc ↦ ⟨code, (h id).trans hc⟩

theorem KeepsCodes.set (kv : KVStore) (id : UInt64) (info : CodeInfo) :
    KeepsCodes kv (kv.set (getCodeKey id) (.codeInfo info)) := by
  intro id' code hc
  rw [OrderedStore.get_set]
  split
  · exact ⟨info, rfl⟩
  · exact ⟨code, hc⟩

theorem Sound.mono {r : ContractRecord b} (h : Sound kv a r) (hc : KeepsCodes kv kv') : Sound kv' a r := by
  obtain ⟨code, hcode⟩ := h.code
  exact { h with code := hc _ code hcode }

/-- The store is that of a registry whose contracts are all sound. -/
def HasRegistry (b : Bech32) (kv : KVStore) : Prop :=
  ∃ R : AccAddress → Option (ContractRecord b), Represents b kv R ∧ ∀ a r, R a = some r → Sound kv a r

theorem IsRegistryKey.ne {key key' : Bytes} (h : IsRegistryKey key) (hk : ¬ IsRegistryKey key') : key ≠ key' := by
  rintro rfl
  exact hk h

namespace HasRegistry

theorem empty : HasRegistry b .empty := ⟨fun _ ↦ none, .empty, nofun⟩

theorem of_get (h : HasRegistry b kv) (hk : ∀ key, IsRegistryKey key → kv'.get key = kv.get key)
    (hc : KeepsCodes kv kv') : HasRegistry b kv' := by
  obtain ⟨R, hR, hs⟩ := h
  exact ⟨R, hR.congr hk, fun a r hr ↦ (hs a r hr).mono hc⟩

theorem set_other (h : HasRegistry b kv) {key : Bytes} (v : Value) (hk : ¬ IsRegistryKey key)
    (hc : KeepsCodes kv (kv.set key v)) : HasRegistry b (kv.set key v) :=
  h.of_get (fun _ hkey ↦ OrderedStore.get_set_of_ne _ _ (hkey.ne hk)) hc

theorem delete_other (h : HasRegistry b kv) {key : Bytes} (hk : ¬ IsRegistryKey key) (hcode : key.head? ≠ some 1) :
    HasRegistry b (kv.delete key) :=
  h.of_get (fun _ hkey ↦ OrderedStore.get_delete_of_ne _ (hkey.ne hk))
    (.of_get fun id ↦ get_delete_of_head (by simpa using hcode.symm))

/-- A key that belongs neither to the registry nor to the codes. -/
theorem set_apart (h : HasRegistry b kv) {key : Bytes} (v : Value) (hk : ¬ IsRegistryKey key)
    (hcode : key.head? ≠ some 1) : HasRegistry b (kv.set key v) :=
  h.set_other v hk (.of_get fun id ↦ get_set_of_head _ (by simpa using hcode.symm))

/-- One contract is put in or changed. -/
theorem update {R : AccAddress → Option (ContractRecord b)} (hs : ∀ a r, R a = some r → Sound kv a r)
    {r' : ContractRecord b} (hrep : Represents b kv' (Function.update R a (some r'))) (hc : KeepsCodes kv kv')
    (hs' : Sound kv' a r') : HasRegistry b kv' := by
  refine ⟨_, hrep, fun a' r hr ↦ ?_⟩
  by_cases ha : a' = a
  · subst ha
    rw [Function.update_self] at hr
    cases hr
    exact hs'
  · rw [Function.update_of_ne ha] at hr
    exact (hs a' r hr).mono hc

end HasRegistry

theorem length_of_origin {kv : KVStore} {codeID : UInt64} {a : AccAddress} (h : Origin k kv codeID a) :
    a.length = contractAddrLen := by
  cases h with
  | classic i _ _ => exact Regime.length_address k _
  | predictable _ _ _ _ _ => exact Regime.length_address k _

/-- Changing an info without touching its code or its creation keeps the registry. -/
theorem HasRegistry.setInfo (h : HasRegistry b kv) {info info' : ContractInfo}
    (hinfo : kv.get (getContractAddressKey a) = some (.contractInfo info)) (hcode : info'.codeID = info.codeID)
    (hcreator : info'.creator = info.creator) (hcreated : info'.created = info.created) :
    HasRegistry b (kv.set (getContractAddressKey a) (.contractInfo info')) := by
  obtain ⟨R, hR, hs⟩ := h
  obtain ⟨r, hr, rfl⟩ := hR.get_info_eq_some.1 hinfo
  have hc : KeepsCodes kv (kv.set (getContractAddressKey a) (.contractInfo info')) :=
    .of_get fun id ↦ get_set_of_head _ (by simp)
  have hsound := (hs a r hr).mono hc
  refine .update hs (hR.setInfo hr info' hcreator) hc ⟨hsound.length, ?_, ?_, ?_⟩
  · exact hsound.current.trans hcode.symm
  · exact hcreated.trans hsound.created
  · rw [show (r.withInfo info' hcreator).info.codeID = r.info.codeID from hcode]
    exact hsound.code

theorem HasRegistry.act {permits : Ctx → Operation → AccAddress → AuthorizationPolicy → Prop} {c : Ctx}
    {d d' : Durable X} (hd : HasRegistry k.bech32 d.kv) (h : Act k permits c d d') : HasRegistry k.bech32 d'.kv := by
  cases h with
  | cacheCode _ => exact hd
  | cachePins _ => exact hd
  | createCode _ _ _ =>
    refine (hd.set_apart _ ?_ ?_).set_other _ ?_ (.set _ _ _)
    all_goals simp [IsRegistryKey]
  | register hp hnew hcode hauth horigin hvalid hcreator hhead hpos hport hnext =>
    obtain ⟨R, hR, hs⟩ := hd
    have hr := hR.get_info_eq_none.1 hnew
    have hdec := k.bech32.fromBech32_string hvalid
    rw [← hcreator] at hdec
    refine .update hs (hR.register hr hpos hdec hhead) (.of_get fun id ↦ get_registered_of_head hhead (by simp)) ?_
    exact ⟨length_of_origin horigin, rfl, hpos, _, (get_registered_of_head hhead (by simp)).trans hcode⟩
  | @migrate info port caller addr pos lastPos msg policy code last admin codeID hp hinfo hadmin hmodify hcode hauth
      hlast hpos hport hnext =>
    obtain ⟨R, hR, hs⟩ := hd
    obtain ⟨r, hr, rfl⟩ := hR.get_info_eq_some.1 hinfo
    -- the last entry the code finds is the one on record
    obtain rfl : r.last = last := by
      have h := Represents.lastHistory_some hR.histories hr
      rw [lastHistory, h] at hlast
      cases hlast
      rfl
    obtain rfl : r.updated = lastPos := Option.some.inj (r.updated_eq.symm.trans hpos)
    have hfit : r.history.length + 1 < 2 ^ 64 := by
      have hlen := r.fits
      rw [Represents.lastPosition_scan hR.histories, Represents.historyOf_some hr,
        UInt64.toNat_ofNat_of_lt' (by simpa [UInt64.size] using hlen)] at hnext
      exact hnext
    refine .update hs (hR.migrate hr codeID port pos msg hfit) (.of_get fun _ ↦ get_migrated_of_head (by simp)) ?_
    have hsound := hs addr r hr
    exact ⟨hsound.length, rfl, hsound.created, code, (get_migrated_of_head (by simp)).trans hcode⟩
  | modify hp hinfo hadmin hmodify hkind =>
    cases hkind <;> exact hd.setInfo hinfo rfl rfl rfl
  | extend ext hp hinfo => exact hd.setInfo hinfo rfl rfl rfl
  | setAccess _ => exact hd.set_other _ (by simp [IsRegistryKey]) (.set _ _ _)
  | unpin _ => exact hd.delete_other (by simp [IsRegistryKey]) (by simp)
  | acknowledge _ => exact hd.delete_other (by simp [IsRegistryKey]) (by simp)
  | _ => exact hd.set_apart _ (by simp [IsRegistryKey]) (by simp)

theorem IsRegistryKey.not_state {key : Bytes} (h : IsRegistryKey key) : ¬ IsStateKey key := by
  rintro ⟨rest, rfl⟩
  simp [IsRegistryKey, contractStorePrefix] at h

theorem HasRegistry.step {c : Ctx} {d d' : Durable X} (h : Step k Anybody c d d') (hd : HasRegistry k.bech32 d.kv) :
    HasRegistry k.bech32 d'.kv := by
  cases h with
  | act _ h => exact hd.act h
  | quiet _ h =>
    refine hd.of_get (fun key hkey ↦ h.records key hkey.not_state) (.of_get fun id ↦ ?_)
    exact h.records _ (not_isStateKey (by simp))

theorem HasRegistry.of_reachable {d : Durable X} (hd : Reachable k d) : HasRegistry k.bech32 d.kv :=
  hd.invariant (P := fun d ↦ HasRegistry k.bech32 d.kv) (fun _ ↦ .empty) HasRegistry.step

end Cosmwasgo.Registry
