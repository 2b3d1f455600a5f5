import Cosmwasgo.Runs.Ensures
import Cosmwasgo.Runs.Roots

namespace Cosmwasgo.Properties

open Cosmwasgo.Lib Cosmwasgo.Types Cosmwasgo.State Cosmwasgo.Keeper Cosmwasgo.Keeper.MsgServer Cosmwasgo.Runs

variable {X : Type} {k : Keeper X}

/-- A list of addresses that may upload code, as it is validated. -/
structure ValidAddresses (k : Keeper X) (addresses : List String) : Prop where
  nonempty : addresses ≠ []
  bounded : addresses.length ≤ maxAddressCount
  decodes : ∀ s ∈ addresses, ∃ a, k.bech32.fromBech32 s = .ok a
  distinct : (addresses.map k.lib.toUpper).Nodup

section Lists

theorem validateAddressList_eq_ok {seen l : List String} :
    validateAddressList k seen l = .ok () ↔ (∀ s ∈ l, ∃ a, k.bech32.fromBech32 s = .ok a) ∧
      (l.map k.lib.toUpper).Nodup ∧ ∀ s ∈ l, k.lib.toUpper s ∉ seen := by
  induction l generalizing seen with
  | nil => simp [validateAddressList]
  | cons s l ih =>
    rcases hs : k.bech32.fromBech32 s with e | a
    · refine ⟨fun h ↦ ?_, fun h ↦ ?_⟩
      · simp only [validateAddressList, hs] at h
        cases h
      · obtain ⟨a, ha⟩ := h.1 s List.mem_cons_self
        cases hs.symm.trans ha
    · have hunfold : validateAddressList k seen (s :: l) = .ok () ↔
          k.lib.toUpper s ∉ seen ∧ validateAddressList k (k.lib.toUpper s :: seen) l = .ok () := by
        rw [validateAddressList, hs]
        refine check_bind_eq_ok.trans ?_
        simp
      rw [hunfold, ih]
      have hnew : k.lib.toUpper s ∉ l.map k.lib.toUpper ↔ ∀ t ∈ l, k.lib.toUpper t ≠ k.lib.toUpper s := by
        simp only [List.mem_map, not_exists, not_and]
      rw [List.forall_mem_cons, List.forall_mem_cons, List.map_cons, List.nodup_cons, hnew]
      simp only [List.mem_cons, not_or]
      constructor
      · rintro ⟨hseen, hdec, hnodup, hl⟩
        exact ⟨⟨⟨a, hs⟩, hdec⟩, ⟨fun t ht ↦ (hl t ht).1, hnodup⟩, hseen, fun t ht ↦ (hl t ht).2⟩
      · rintro ⟨⟨-, hdec⟩, ⟨hnew, hnodup⟩, hseen, hl⟩
        exact ⟨hseen, hdec, hnodup, fun t ht ↦ ⟨hnew t ht, hl t ht⟩⟩

theorem validateBech32Addresses_eq_ok {l : List String} : validateBech32Addresses k l = .ok () ↔ ValidAddresses k l := by
  rw [validateBech32Addresses, check_bind_eq_ok, check_bind_eq_ok, validateAddressList_eq_ok, decide_eq_true_iff,
    decide_eq_true_iff]
  constructor
  · rintro ⟨hne, hlen, hdec, hnodup, -⟩
    exact ⟨hne, hlen, hdec, hnodup⟩
  · rintro ⟨hne, hlen, hdec, hnodup⟩
    exact ⟨hne, hlen, hdec, hnodup, fun _ _ ↦ List.not_mem_nil⟩

/-- Adding addresses one by one, each unless it is there, appends those that are new. -/
theorem foldl_add_eq {addresses new : List String} (hnew : new.Nodup) :
    new.foldl (fun as a ↦ if as.contains a then as else as ++ [a]) addresses =
      addresses ++ new.filter (· ∉ addresses) := by
  induction new generalizing addresses with
  | nil => simp
  | cons a new ih =>
    obtain ⟨ha, hnew⟩ := List.nodup_cons.1 hnew
    rw [List.foldl_cons, ih hnew]
    by_cases hmem : a ∈ addresses
    · simp [hmem]
    · have hrest : new.filter (· ∉ addresses ++ [a]) = new.filter (· ∉ addresses) := by
        refine List.filter_congr fun b hb ↦ ?_
        have hne : b ≠ a := fun h ↦ ha (h ▸ hb)
        simp [hne]
      simp only [List.contains_eq_mem, hmem, decide_false, if_neg, Bool.false_eq_true, not_false_eq_true]
      rw [hrest, List.filter_cons_of_pos (by simpa using hmem), List.append_assoc, List.singleton_append]

variable {stored addresses : List String}

theorem nodup_of_valid (h : ValidAddresses k addresses) : addresses.Nodup := h.distinct.of_map _

/-- Added addresses keep the list valid exactly when there is room for them, and none of them is there already in
another spelling. -/
theorem validAddresses_add (hs : ValidAddresses k stored) (ha : ValidAddresses k addresses) :
    ValidAddresses k (stored ++ addresses.filter (· ∉ stored)) ↔
      stored.length + (addresses.filter (· ∉ stored)).length ≤ maxAddressCount ∧
      ∀ a ∈ addresses, a ∉ stored → ∀ b ∈ stored, k.lib.toUpper a ≠ k.lib.toUpper b := by
  have hnodup : ((addresses.filter (· ∉ stored)).map k.lib.toUpper).Nodup :=
    ha.distinct.sublist (List.filter_sublist.map _)
  constructor
  · intro h
    refine ⟨List.length_append ▸ h.bounded, fun a hmem hnew b hb heq ↦ ?_⟩
    have hdisj := (List.nodup_append.1 (List.map_append ▸ h.distinct)).2.2
    exact hdisj _ (List.mem_map_of_mem hb) _ (List.mem_map_of_mem (List.mem_filter.2 ⟨hmem, by simpa using hnew⟩)) heq.symm
  · rintro ⟨hlen, hnew⟩
    refine ⟨List.append_ne_nil_of_left_ne_nil hs.nonempty _, by rwa [List.length_append], fun s hmem ↦ ?_, ?_⟩
    · rcases List.mem_append.1 hmem with hmem | hmem
      · exact hs.decodes s hmem
      · exact ha.decodes s (List.mem_of_mem_filter hmem)
    · rw [List.map_append]
      refine List.nodup_append.2 ⟨hs.distinct, hnodup, fun x hx y hy hxy ↦ ?_⟩
      obtain ⟨b, hb, rfl⟩ := List.mem_map.1 hx
      obtain ⟨a, hmem, rfl⟩ := List.mem_map.1 hy
      obtain ⟨hmem, ha⟩ := List.mem_filter.1 hmem
      exact hnew a hmem (by simpa using ha) b hb hxy.symm

/-- Removed addresses keep the list valid exactly when one address is left. -/
theorem validAddresses_remove (hs : ValidAddresses k stored) :
    ValidAddresses k (stored.filter fun addr ↦ !addresses.contains addr) ↔ ∃ a ∈ stored, a ∉ addresses := by
  constructor
  · intro h
    obtain ⟨a, ha⟩ := List.exists_mem_of_ne_nil _ h.nonempty
    obtain ⟨hmem, hout⟩ := List.mem_filter.1 ha
    exact ⟨a, hmem, by simpa using hout⟩
  · rintro ⟨a, hmem, hout⟩
    refine ⟨List.ne_nil_of_mem (List.mem_filter.2 ⟨hmem, by simpa using hout⟩),
      (List.length_filter_le _ _).trans hs.bounded, fun s hs' ↦ hs.decodes s (List.mem_of_mem_filter hs'),
      hs.distinct.sublist (List.filter_sublist.map _)⟩

end Lists

def StoredParams (d : Durable X) (p : Params) : Prop := d.kv.get paramsKey = some (.params p)

def ValidParams (k : Keeper X) (d : Durable X) : Prop :=
  ∃ p, StoredParams d p ∧ Params.validateBasic k p = .ok ()

/-- The messages that write params. -/
inductive ParamsMsg : Msg → Prop
  | updateParams (m : MsgUpdateParams) : ParamsMsg (.updateParams m)
  | add (m : MsgUploadAddresses) : ParamsMsg (.addCodeUploadParamsAddresses m)
  | remove (m : MsgUploadAddresses) : ParamsMsg (.removeCodeUploadParamsAddresses m)

/-- What may be asked of a list of addresses: not more than there is room for, no other spelling of an address that is
there, and not all of them gone. -/
def Fits (k : Keeper X) (stored : List String) : Msg → Prop
  | .addCodeUploadParamsAddresses m =>
    stored.length + (m.addresses.filter (· ∉ stored)).length ≤ maxAddressCount ∧
      ∀ a ∈ m.addresses, a ∉ stored → ∀ b ∈ stored, k.lib.toUpper a ≠ k.lib.toUpper b
  | .removeCodeUploadParamsAddresses m => ∃ a ∈ stored, a ∉ m.addresses
  | _ => True

/-- The same about a state. A message of anybody but the authority is refused, and so are edits of anything but a
list. -/
def UploadFits (k : Keeper X) (d : Durable X) (m : Msg) : Prop :=
  ∀ p, StoredParams d p → p.codeUploadAccess.permission = .anyOfAddresses → m.sender = k.authority →
    Fits k p.codeUploadAccess.addresses m

section Handlers

theorem validateBasic_anyOf {p : Params} (hp : p.codeUploadAccess.permission = .anyOfAddresses) :
    Params.validateBasic k p = .ok () ↔
      validateAccessType p.instantiateDefaultPermission = .ok () ∧ ValidAddresses k p.codeUploadAccess.addresses := by
  have hupload : AccessConfig.validateBasic k p.codeUploadAccess = .ok () ↔ ValidAddresses k p.codeUploadAccess.addresses := by
    rw [AccessConfig.validateBasic, hp]
    exact wrap_eq_ok.trans validateBech32Addresses_eq_ok
  rw [← hupload, Params.validateBasic]
  rcases validateAccessType p.instantiateDefaultPermission with e | ⟨⟨⟩⟩
  · exact ⟨nofun, nofun⟩
  · exact wrap_eq_ok.trans (by simp)

def withAddresses (p : Params) (addresses : List String) : Params :=
  { p with codeUploadAccess := { p.codeUploadAccess with addresses } }

theorem ensures_updateUploadAddresses (update : List String → List String) :
    Ensures (updateUploadAddresses k update) fun d _ d' ↦ ∃ p, StoredParams d p ∧
      p.codeUploadAccess.permission = .anyOfAddresses ∧
      StoredParams d' (withAddresses p (update p.codeUploadAccess.addresses)) := by
  refine (Ensures.getParams.bind fun p ↦ (Ensures.require _ _).bind fun _ ↦
    ((Writes.setKV k paramsKey _).ensures.bind fun _ ↦ Ensures.pure _)).mono ?_
  rintro d _ d' ⟨p, d₁, ⟨hp, rfl⟩, _, d₂, ⟨hperm, rfl⟩, _, d₃, rfl, -, rfl⟩
  exact ⟨p, hp, of_decide_eq_true hperm, OrderedStore.get_set_self _ _ _⟩

/-- Validation and the check of the authority come before everything else. -/
theorem ensures_authorityOnly {α : Type} {authority : String} {x : Except Err Unit} {m : M X α}
    {post : Durable X → α → Durable X → Prop} (hm : Ensures m post) :
    Ensures (do Program.lift x; requireAuthority k authority; m) fun d a d' ↦
      x = .ok () ∧ authority = k.authority ∧ post d a d' := by
  refine ((Ensures.lift x).bind fun _ ↦ (Ensures.require _ _).bind fun _ ↦ hm).mono ?_
  rintro d a d' ⟨_, d₁, ⟨hx, rfl⟩, _, d₂, ⟨hauth, rfl⟩, hpost⟩
  exact ⟨hx, (of_decide_eq_true hauth).symm, hpost⟩

theorem validAddresses_of_validateBasic {m : MsgUploadAddresses}
    (h : Msg.validateBasic k (.addCodeUploadParamsAddresses m) = .ok ()) : ValidAddresses k m.addresses := by
  simp only [Msg.validateBasic, validateAddress] at h
  rcases hauth : k.bech32.fromBech32 m.authority with e | a <;> rw [hauth] at h
  · cases h
  · exact validateBech32Addresses_eq_ok.1 h

/-- An edit of the list is fine exactly if it makes a valid list of a valid one. -/
theorem validParams_edited {m : Msg} {addresses : List String} {d d' : Durable X} {p : Params}
    (hauth : m.sender = k.authority) (hp : StoredParams d p) (hperm : p.codeUploadAccess.permission = .anyOfAddresses)
    (hp' : StoredParams d' (withAddresses p addresses))
    (hedit : ValidAddresses k p.codeUploadAccess.addresses →
      (ValidAddresses k addresses ↔ Fits k p.codeUploadAccess.addresses m)) (hd : ValidParams k d) :
    ValidParams k d' ↔ UploadFits k d m := by
  obtain ⟨q, hq, hvalid⟩ := hd
  cases hq.symm.trans hp
  obtain ⟨htype, haddr⟩ := (validateBasic_anyOf hperm).1 hvalid
  constructor
  · rintro ⟨q', hq', hvalid'⟩ q hq - -
    cases hq'.symm.trans hp'
    cases hq.symm.trans hp
    exact (hedit haddr).1 ((validateBasic_anyOf (p := withAddresses p addresses) hperm).1 hvalid').2
  · intro hfits
    exact ⟨_, hp', (validateBasic_anyOf (p := withAddresses p addresses) hperm).2
      ⟨htype, (hedit haddr).2 (hfits p hp hperm hauth)⟩⟩

variable {h : ResponseHandler X} {c : Ctx}

/-- A message that is served keeps valid params valid exactly if it fits. -/
theorem ensures_serve {m : Msg} (hm : ParamsMsg m) :
    Ensures (serve k h c m) fun d _ d' ↦ ValidParams k d → (ValidParams k d' ↔ UploadFits k d m) := by
  cases hm with
  | updateParams m =>
    refine (ensures_authorityOnly ((Writes.setKV k paramsKey _).ensures.bind fun _ ↦ Ensures.pure _)).mono ?_
    rintro d _ d' ⟨hvalid, -, _, d₁, rfl, -, rfl⟩ -
    refine ⟨fun _ _ _ _ _ ↦ trivial, fun _ ↦ ⟨m.params, OrderedStore.get_set_self _ _ _, ?_⟩⟩
    simp only [Msg.validateBasic, validateAddress] at hvalid
    rcases hauth : k.bech32.fromBech32 m.authority with e | a <;> rw [hauth] at hvalid
    · cases hvalid
    · exact hvalid
  | add m =>
    refine (ensures_authorityOnly (ensures_updateUploadAddresses _)).mono ?_
    rintro d _ d' ⟨hvalid, hauth, p, hp, hperm, hp'⟩
    have hnew := validAddresses_of_validateBasic hvalid
    refine validParams_edited hauth hp hperm hp' fun hstored ↦ ?_
    rw [foldl_add_eq (nodup_of_valid hnew)]
    exact validAddresses_add hstored hnew
  | remove m =>
    refine (ensures_authorityOnly (ensures_updateUploadAddresses _)).mono ?_
    rintro d _ d' ⟨-, hauth, p, hp, hperm, hp'⟩
    exact validParams_edited hauth hp hperm hp' validAddresses_remove

theorem ensures_settle {α : Type} {m : M X α} {post : Durable X → α → Durable X → Prop} (hm : Ensures m post) :
    Ensures (settle m) post := by
  intro w a w' hr
  unfold settle at hr
  rcases hrun : m w with ⟨b | e | p | _, w₁⟩ <;> rw [hrun] at hr
  · cases hr
    exact hm hrun
  all_goals cases hr

theorem validParams_handleMsg {m : Msg} (hm : ParamsMsg m) :
    Ensures (handleMsg k h c m) fun d _ d' ↦ ValidParams k d → (ValidParams k d' ↔ UploadFits k d m) :=
  ensures_settle (ensures_serve hm)

end Handlers

/-- Messages that write params, one after the other, each of them one that fits. -/
inductive ParamsRun (k : Keeper X) (d : Durable X) : Durable X → Prop
  | start : ParamsRun k d d
  | message {n : Nat} {c : Ctx} {m : Msg} {w : World X} (h : ParamsRun k d (durable w)) (hm : ParamsMsg m)
      (hfits : UploadFits k (durable w) m) : ParamsRun k d (committed (handleMsg k (responseHandler k n) c m) w)

theorem ParamsRun.delivered {d : Durable X} {m : Msg} (hm : ParamsMsg m) (hfits : UploadFits k d m) :
    ParamsRun k d (delivered k d [m]) := .message (w := worldOf d) .start hm hfits

theorem validParams_committed {α : Type} {m : M X α} {w : World X} (hw : ValidParams k (durable w))
    (hm : ∀ a w', m w = (.ok a, w') → ValidParams k (durable w')) : ValidParams k (committed m w) := by
  unfold committed
  rcases hr : m w with ⟨a | e | p | _, w'⟩
  · exact hm a w' hr
  all_goals exact hw

/-- Over every run of messages that fit the params stay valid. A message that does not fit makes them invalid. -/
theorem validParams_run {d : Durable X} (hd : ValidParams k d) :
    (∀ {d'}, ParamsRun k d d' → ValidParams k d') ∧
    ∀ {n c m w r w'}, ValidParams k (durable w) → ParamsMsg m → handleMsg k (responseHandler k n) c m w = (.ok r, w') →
      (ValidParams k (durable w') ↔ UploadFits k (durable w) m) := by
  refine ⟨fun {d'} hrun ↦ ?_, fun hw hm hr ↦ validParams_handleMsg hm hr hw⟩
  induction hrun with
  | start => exact hd
  | message _ hm hfits ih => exact validParams_committed ih fun _ _ hr ↦ (validParams_handleMsg hm hr ih).2 hfits

/-- A chain on which only these may upload code. -/
def uploadersOnly (addresses : List String) : Durable Unit :=
  ⟨{ kv := OrderedStore.empty.set paramsKey (.params ⟨⟨.anyOfAddresses, addresses⟩, .everybody⟩), ext := () }, {}⟩

def uploadNet : Keeper Unit := plainnet idleContract

def dave : String := plainBech32.string [2]

theorem storedParams_uploadersOnly (addresses : List String) :
    StoredParams (uploadersOnly addresses) ⟨⟨.anyOfAddresses, addresses⟩, .everybody⟩ := OrderedStore.get_set_self _ _ _

theorem validParams_run_dave : ValidParams uploadNet (delivered uploadNet (uploadersOnly [carol])
    [.addCodeUploadParamsAddresses { authority := uploadNet.authority, addresses := [dave] }]) := by
  have hvalid : ValidParams uploadNet (uploadersOnly [carol]) :=
    ⟨_, storedParams_uploadersOnly _, by decide +kernel⟩
  refine (validParams_run hvalid).1 (.delivered (.add _) ?_)
  intro p hp _ _
  cases hp.symm.trans (storedParams_uploadersOnly [carol])
  exact ⟨by decide +kernel, by decide +kernel⟩

/-- The only address on the list is removed, and nobody is left. -/
theorem carol_removed :
    ValidParams uploadNet (uploadersOnly [carol]) ∧
    Msg.validateBasic uploadNet (.removeCodeUploadParamsAddresses ⟨uploadNet.authority, [carol]⟩) = .ok () ∧
    ¬ ValidParams uploadNet (delivered uploadNet (uploadersOnly [carol])
      [.removeCodeUploadParamsAddresses ⟨uploadNet.authority, [carol]⟩]) := by
  refine ⟨⟨_, storedParams_uploadersOnly _, by decide +kernel⟩, by decide +kernel, ?_⟩
  have hstored : StoredParams (delivered uploadNet (uploadersOnly [carol])
      [.removeCodeUploadParamsAddresses ⟨uploadNet.authority, [carol]⟩]) ⟨⟨.anyOfAddresses, []⟩, .everybody⟩ := by
    unfold StoredParams
    decide +kernel
  rintro ⟨p, hp, hvalid⟩
  cases hp.symm.trans hstored
  cases hvalid

end Cosmwasgo.Properties
