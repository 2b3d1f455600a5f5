import Cosmwasgo.Properties.Codes
import Cosmwasgo.Properties.UploadParams
import Cosmwasgo.Runs.Unmetered

namespace Cosmwasgo.Properties

open Cosmwasgo.Lib Cosmwasgo.Types Cosmwasgo.State Cosmwasgo.Keeper Cosmwasgo.Keeper.MsgServer Cosmwasgo.Runs

variable {X : Type} {k : Keeper X}

/-- An address is written in one case and read in two. -/
structure CaseBlind (k : Keeper X) : Prop where
  back : ∀ {a b}, k.bech32.fromBech32 (k.bech32.string a) = .ok b → b = a
  spelled : ∀ {s a}, k.bech32.fromBech32 s = .ok a → s = k.bech32.string a ∨ s = k.lib.toUpper (k.bech32.string a)
  toUpper_toUpper : ∀ a, k.lib.toUpper (k.lib.toUpper (k.bech32.string a)) = k.lib.toUpper (k.bech32.string a)

section Lists

variable {addresses : List String} {a : AccAddress} {s : String}

/-- An account that a valid list names in canonical form is named in no other. -/
theorem eq_string_of_mem (hk : CaseBlind k) (h : ValidAddresses k addresses) (hs : s ∈ addresses)
    (hdec : k.bech32.fromBech32 s = .ok a) (ha : k.bech32.string a ∈ addresses) : s = k.bech32.string a := by
  rcases hk.spelled hdec with heq | heq
  · exact heq
  · have hupper : k.lib.toUpper s = k.lib.toUpper (k.bech32.string a) := by
      rw [heq, hk.toUpper_toUpper]
    exact List.inj_on_of_nodup_map h.distinct hs ha hupper

/-- A listed address in canonical form names its account. -/
theorem decodes_of_mem (hk : CaseBlind k) (h : ValidAddresses k addresses) (ha : k.bech32.string a ∈ addresses) :
    k.bech32.fromBech32 (k.bech32.string a) = .ok a := by
  obtain ⟨b, hb⟩ := h.decodes _ ha
  rw [hb, hk.back hb]

theorem allowed_anyOf {cfg : AccessConfig} (hcfg : cfg.permission = .anyOfAddresses) :
    cfg.allowed k.bech32 a = .ok true ↔ k.bech32.string a ∈ cfg.addresses := by
  obtain ⟨permission, addresses⟩ := cfg
  obtain rfl : permission = .anyOfAddresses := hcfg
  simp [AccessConfig.allowed]

end Lists

section Allowed

/-- The accounts a config is meant for. -/
def MeantFor (k : Keeper X) (cfg : AccessConfig) (actor : AccAddress) : Prop :=
  cfg.permission = .everybody ∨
    cfg.permission = .anyOfAddresses ∧ ∃ s ∈ cfg.addresses, k.bech32.fromBech32 s = .ok actor

/-- The address is written as the codec writes it. -/
def Canonical (k : Keeper X) (s : String) : Prop := ∀ a, k.bech32.fromBech32 s = .ok a → s = k.bech32.string a

theorem allowed_anyOf_iff (hk : CaseBlind k) {cfg : AccessConfig} (hcfg : cfg.permission = .anyOfAddresses)
    (hvalid : ValidAddresses k cfg.addresses) :
    (∀ actor, cfg.allowed k.bech32 actor = .ok true ↔ MeantFor k cfg actor) ↔ ∀ s ∈ cfg.addresses, Canonical k s := by
  have hmeant : ∀ actor, MeantFor k cfg actor ↔ ∃ s ∈ cfg.addresses, k.bech32.fromBech32 s = .ok actor := by
    intro actor
    simp [MeantFor, hcfg]
  constructor
  · intro h s hs a hdec
    have hallowed := (h a).2 ((hmeant a).2 ⟨s, hs, hdec⟩)
    exact eq_string_of_mem hk hvalid hs hdec ((allowed_anyOf hcfg).1 hallowed)
  · intro h actor
    rw [allowed_anyOf hcfg, hmeant]
    constructor
    · intro hmem
      exact ⟨_, hmem, decodes_of_mem hk hvalid hmem⟩
    · rintro ⟨s, hs, hdec⟩
      rwa [← h s hs actor hdec]

/-- A valid config lets in exactly those it is meant for, provided no address on it is written in upper case. -/
theorem allowed_iff_meantFor (hk : CaseBlind k) {cfg : AccessConfig}
    (hcfg : AccessConfig.validateBasic k cfg = .ok ()) :
    (∀ actor, cfg.allowed k.bech32 actor = .ok true ↔ MeantFor k cfg actor) ↔
      ∀ s ∈ cfg.allAuthorizedAddresses, Canonical k s := by
  rcases hperm : cfg.permission with _ | _ | _ | _ | n
  · rw [AccessConfig.validateBasic, hperm] at hcfg
    cases hcfg
  · simp [MeantFor, AccessConfig.allowed, AccessConfig.allAuthorizedAddresses, hperm]
  · simp [MeantFor, AccessConfig.allowed, AccessConfig.allAuthorizedAddresses, hperm]
  · rw [AccessConfig.validateBasic, hperm] at hcfg
    have hvalid := validateBech32Addresses_eq_ok.1 (wrap_eq_ok.1 hcfg)
    rw [allowed_anyOf_iff hk hperm hvalid, AccessConfig.allAuthorizedAddresses, if_pos hperm]
  · rw [AccessConfig.validateBasic, hperm] at hcfg
    cases hcfg

end Allowed

section Edits

def Uploads (k : Keeper X) (p : Params) (a : AccAddress) : Prop := p.codeUploadAccess.allowed k.bech32 a = .ok true

/-- The accounts a request is about. -/
def Requested (k : Keeper X) (m : MsgUploadAddresses) (a : AccAddress) : Prop :=
  ∃ s ∈ m.addresses, k.bech32.fromBech32 s = .ok a

variable {p : Params} {m : MsgUploadAddresses} {addresses : List String}

theorem uploads_iff (hp : p.codeUploadAccess.permission = .anyOfAddresses) (addresses : List String) (a : AccAddress) :
    Uploads k (withAddresses p addresses) a ↔ k.bech32.string a ∈ addresses := by
  have hcfg : (withAddresses p addresses).codeUploadAccess.permission = .anyOfAddresses := hp
  exact allowed_anyOf hcfg

theorem requested_of_mem (hk : CaseBlind k) (hm : ValidAddresses k m.addresses) {a : AccAddress}
    (ha : k.bech32.string a ∈ m.addresses) : Requested k m a := ⟨_, ha, decodes_of_mem hk hm ha⟩

/-- The union of the two lists is the union of the accounts exactly if every new account is written in canonical
form. -/
theorem uploads_added (hk : CaseBlind k) (hp : p.codeUploadAccess.permission = .anyOfAddresses)
    (hm : ValidAddresses k m.addresses)
    (hmem : ∀ s, s ∈ addresses ↔ s ∈ p.codeUploadAccess.addresses ∨ s ∈ m.addresses) :
    (∀ a, Uploads k (withAddresses p addresses) a ↔ Uploads k p a ∨ Requested k m a) ↔
      ∀ s ∈ m.addresses, ∀ a, k.bech32.fromBech32 s = .ok a → s = k.bech32.string a ∨ Uploads k p a := by
  have hstored : ∀ a, Uploads k p a ↔ k.bech32.string a ∈ p.codeUploadAccess.addresses := fun a ↦ allowed_anyOf hp
  constructor
  · intro h s hs a hdec
    have hupload := (uploads_iff hp addresses a).1 ((h a).2 (.inr ⟨s, hs, hdec⟩))
    rcases (hmem _).1 hupload with hold | hnew
    · exact .inr ((hstored a).2 hold)
    · exact .inl (eq_string_of_mem hk hm hs hdec hnew)
  · intro h a
    rw [uploads_iff hp, hmem, hstored]
    constructor
    · rintro (hold | hnew)
      · exact .inl hold
      · exact .inr (requested_of_mem hk hm hnew)
    · rintro (hold | ⟨s, hs, hdec⟩)
      · exact .inl hold
      · rcases h s hs a hdec with heq | hold
        · exact .inr (heq ▸ hs)
        · exact .inl ((hstored a).1 hold)

/-- The difference of the two lists is the difference of the accounts exactly if every account that is to go is
written in canonical form. -/
theorem uploads_removed (hk : CaseBlind k) (hp : p.codeUploadAccess.permission = .anyOfAddresses)
    (hm : ValidAddresses k m.addresses)
    (hmem : ∀ s, s ∈ addresses ↔ s ∈ p.codeUploadAccess.addresses ∧ s ∉ m.addresses) :
    (∀ a, Uploads k (withAddresses p addresses) a ↔ Uploads k p a ∧ ¬ Requested k m a) ↔
      ∀ s ∈ m.addresses, ∀ a, k.bech32.fromBech32 s = .ok a → s = k.bech32.string a ∨ ¬ Uploads k p a := by
  have hstored : ∀ a, Uploads k p a ↔ k.bech32.string a ∈ p.codeUploadAccess.addresses := fun a ↦ allowed_anyOf hp
  constructor
  · intro h s hs a hdec
    by_cases hold : Uploads k p a
    · left
      by_contra hne
      have hout : k.bech32.string a ∉ m.addresses := fun ha ↦ hne (eq_string_of_mem hk hm hs hdec ha)
      have hkept := (uploads_iff hp addresses a).2 ((hmem _).2 ⟨(hstored a).1 hold, hout⟩)
      exact ((h a).1 hkept).2 ⟨s, hs, hdec⟩
    · exact .inr hold
  · intro h a
    rw [uploads_iff hp, hmem, hstored]
    refine and_congr_right fun hold ↦ not_congr ⟨requested_of_mem hk hm, ?_⟩
    rintro ⟨s, hs, hdec⟩
    rcases h s hs a hdec with heq | hnot
    · exact heq ▸ hs
    · exact absurd ((hstored a).2 hold) hnot

variable {n : Nat} {c : Ctx}

theorem ensures_added : Ensures (handleMsg k (responseHandler k n) c (.addCodeUploadParamsAddresses m)) fun d _ d' ↦
    ValidAddresses k m.addresses ∧ ∀ p, StoredParams d p → ∃ addresses,
      p.codeUploadAccess.permission = .anyOfAddresses ∧ StoredParams d' (withAddresses p addresses) ∧
      ∀ s, s ∈ addresses ↔ s ∈ p.codeUploadAccess.addresses ∨ s ∈ m.addresses := by
  refine ensures_settle ((ensures_authorityOnly (ensures_updateUploadAddresses _)).mono ?_)
  rintro d _ d' ⟨hvalid, -, q, hq, hperm, hq'⟩
  have hm := validAddresses_of_validateBasic hvalid
  refine ⟨hm, fun p hp ↦ ?_⟩
  cases hp.symm.trans hq
  refine ⟨_, hperm, hq', fun s ↦ ?_⟩
  rw [foldl_add_eq (nodup_of_valid hm), List.mem_append, List.mem_filter, decide_eq_true_iff]
  tauto

theorem ensures_removed : Ensures (handleMsg k (responseHandler k n) c (.removeCodeUploadParamsAddresses m)) fun d _ d' ↦
    ValidAddresses k m.addresses ∧ ∀ p, StoredParams d p → ∃ addresses,
      p.codeUploadAccess.permission = .anyOfAddresses ∧ StoredParams d' (withAddresses p addresses) ∧
      ∀ s, s ∈ addresses ↔ s ∈ p.codeUploadAccess.addresses ∧ s ∉ m.addresses := by
  refine ensures_settle ((ensures_authorityOnly (ensures_updateUploadAddresses _)).mono ?_)
  rintro d _ d' ⟨hvalid, -, q, hq, hperm, hq'⟩
  refine ⟨validAddresses_of_validateBasic (m := m) hvalid, fun p hp ↦ ?_⟩
  cases hp.symm.trans hq
  refine ⟨_, hperm, hq', fun s ↦ ?_⟩
  simp [List.mem_filter]

/-- The lists are edited as sets of accounts exactly as far as addresses are written in canonical form. -/
theorem uploadAddresses_edited (hk : CaseBlind k) {w w' : World X} {r : MsgServiceResponse}
    (hp : StoredParams (durable w) p) :
    (handleMsg k (responseHandler k n) c (.addCodeUploadParamsAddresses m) w = (.ok r, w') →
      ∃ p', StoredParams (durable w') p' ∧ ((∀ a, Uploads k p' a ↔ Uploads k p a ∨ Requested k m a) ↔
        ∀ s ∈ m.addresses, ∀ a, k.bech32.fromBech32 s = .ok a → s = k.bech32.string a ∨ Uploads k p a)) ∧
    (handleMsg k (responseHandler k n) c (.removeCodeUploadParamsAddresses m) w = (.ok r, w') →
      ∃ p', StoredParams (durable w') p' ∧ ((∀ a, Uploads k p' a ↔ Uploads k p a ∧ ¬ Requested k m a) ↔
        ∀ s ∈ m.addresses, ∀ a, k.bech32.fromBech32 s = .ok a → s = k.bech32.string a ∨ ¬ Uploads k p a)) := by
  constructor
  · intro hrun
    obtain ⟨hm, hedit⟩ := ensures_added hrun
    obtain ⟨addresses, hperm, hp', hmem⟩ := hedit p hp
    exact ⟨_, hp', uploads_added hk hperm hm hmem⟩
  · intro hrun
    obtain ⟨hm, hedit⟩ := ensures_removed hrun
    obtain ⟨addresses, hperm, hp', hmem⟩ := hedit p hp
    exact ⟨_, hp', uploads_removed hk hperm hm hmem⟩

end Edits

section Updates

variable {p : Params} {creator : AccAddress} {config : AccessConfig}

/-- The decision of an upload about the instantiate permission it asks for. -/
def uploadDecision (k : Keeper X) (p : Params) (creator : AccAddress) (config : AccessConfig) : Except Panic Bool := do
  let defaultAccessConfig ← AccessType.with k p.instantiateDefaultPermission creator
  AuthorizationPolicy.default.canCreateCode k.bech32 ⟨p.codeUploadAccess, defaultAccessConfig⟩ creator config

/-- What an upload does once its permission is accepted. -/
def uploadAccepted (k : Keeper X) (creator : AccAddress) (wasmCode : Bytes) (config : AccessConfig) :
    M X (UInt64 × Bytes) := do
  let wasmCode ← unpackCode k wasmCode
  let gasLeft ← runtimeGasForContract k
  let (stored, gasUsed) ← vmStoreCode k wasmCode gasLeft
  consumeRuntimeGas k gasUsed
  let checksum ← Program.lift (stored.mapError fun e ↦ .wrap errCreateFailed e)
  let report ← analyzeCode k checksum errCreateFailed
  let codeID ← persistCode k ⟨checksum, k.bech32.string creator, config⟩
  emitEvents [storeCodeEvent k checksum codeID report.requiredCapabilities]
  return (codeID, checksum)

/-- An upload goes by the decision, and nothing is written before. -/
theorem create_apply {c : Ctx} {wasmCode : Bytes} {w : World X} {b : Bool} (hcreator : creator ≠ [])
    (hp : StoredParams (durable w) p) (hi : w.meter.infinite = true) (hb : uploadDecision k p creator config = .ok b) :
    ∃ w₁, durable w₁ = durable w ∧ create k c creator wasmCode (some config) .default w =
      if b then uploadAccepted k creator wasmCode config w₁ else (.error (.wrap errUnauthorized "can not create code"), w₁) := by
  obtain ⟨access, haccess, hdecision⟩ := except_bind_eq_ok.1 hb
  obtain ⟨w₁, hparams, hw₁, hi₁⟩ := Unmetered.getParams (k := k) hp w rfl hi
  obtain ⟨w₂, hparams', hw₂, -⟩ := Unmetered.getParams (k := k) hp w₁ hw₁ hi₁
  have hreq : (Program.require (creator ≠ []) (.wrap errInvalidAddress "cannot be nil") : M X Unit) w = (.ok (), w) := by
    rw [decide_eq_true hcreator]
    rfl
  have hwith : (liftPanic (AccessType.with k p.instantiateDefaultPermission creator) : M X AccessConfig) w₁ =
      (.ok access, w₁) := by
    rw [haccess]
    rfl
  refine ⟨{ w₂ with trace := w₂.trace ++ [.authorize c.stack .default] }, hw₂, ?_⟩
  rw [create, Program.bind_of_ok _ hreq, Program.bind_of_ok _ hparams, Program.bind_of_ok _ hwith,
    Program.bind_of_ok _ hparams', Option.getD_some, hdecision]
  cases b <;> rfl

variable {c : Ctx} {codeID : UInt64} {w w' : World X}

/-- A successful update is made by the creator, and its config fits the default permission by its type. -/
theorem fits_of_setAccessConfig (h : setAccessConfig k c codeID creator config .default w = (.ok (), w'))
    (hp : StoredParams (durable w) p) :
    k.bech32.valid creator = true ∧ config.permission.isSubset p.instantiateDefaultPermission = true := by
  obtain ⟨info, w₁, hinfo, h⟩ := Program.bind_eq_ok.1 h
  obtain ⟨hw₁, -⟩ := (Writes.getCodeInfo k codeID).ensures hinfo
  cases info with
  | none => cases h
  | some info =>
    obtain ⟨q, w₂, hq, h⟩ := Program.bind_eq_ok.1 h
    obtain ⟨hq, -⟩ := Ensures.getParams hq
    rw [hw₁] at hq
    cases hq.symm.trans hp
    obtain ⟨a, w₃, ha, h⟩ := Program.bind_eq_ok.1 h
    obtain ⟨ha, -⟩ := (Writes.liftPanic _).post w₂ a w₃ ha
    obtain ⟨⟨⟩, w₄, hauth, -⟩ := Program.bind_eq_ok.1 h
    have hgranted := Except.ok.inj (granted_of_authorize hauth)
    simp only [AuthorizationPolicy.canModifyCodeAccessConfig, Bool.and_eq_true, beq_iff_eq] at hgranted
    obtain ⟨⟨-, rfl⟩, hsub⟩ := hgranted
    refine ⟨?_, hsub⟩
    rcases hdec : k.bech32.fromBech32 info.creator with e | b <;> rw [hdec] at ha
    · cases ha
    · cases ha
      exact k.bech32.fromBech32_valid hdec

/-- Where the default is a list and so is the config, the config names nobody but the creator. -/
def OnlyCreator (k : Keeper X) (p : Params) (creator : AccAddress) (config : AccessConfig) : Prop :=
  p.instantiateDefaultPermission = .anyOfAddresses → config.permission = .anyOfAddresses →
    ∀ s ∈ config.addresses, s = k.bech32.string creator

instance (k : Keeper X) (p : Params) (creator : AccAddress) (config : AccessConfig) :
    Decidable (OnlyCreator k p creator config) := by
  unfold OnlyCreator
  infer_instance

theorem uploadDecision_of_with {access : AccessConfig}
    (hwith : AccessType.with k p.instantiateDefaultPermission creator = .ok access)
    (hupload : p.codeUploadAccess.allowed k.bech32 creator = .ok true) :
    uploadDecision k p creator config = .ok (config.isSubset access) := by
  simp only [uploadDecision, hwith, AuthorizationPolicy.canCreateCode, AuthorizationPolicy.defaultCanCreateCode]
  change (do let allowed ← p.codeUploadAccess.allowed k.bech32 creator; _) = _
  rw [hupload]
  rfl

/-- The two subset tests differ for lists only. -/
theorem uploadDecision_eq (hcreator : k.bech32.valid creator = true)
    (hupload : p.codeUploadAccess.allowed k.bech32 creator = .ok true)
    (hsub : config.permission.isSubset p.instantiateDefaultPermission = true) :
    uploadDecision k p creator config = .ok (decide (OnlyCreator k p creator config)) := by
  rcases hperm : p.instantiateDefaultPermission with _ | _ | _ | _ | n <;> rw [hperm] at hsub
  · cases hsub
  · have hwith : AccessType.with k p.instantiateDefaultPermission creator = .ok allowNobody := by rw [hperm]; rfl
    have honly : OnlyCreator k p creator config := fun h ↦ by rw [hperm] at h; cases h
    rw [uploadDecision_of_with hwith hupload, decide_eq_true honly]
    exact congrArg Except.ok hsub
  · have hwith : AccessType.with k p.instantiateDefaultPermission creator = .ok allowEverybody := by rw [hperm]; rfl
    have honly : OnlyCreator k p creator config := fun h ↦ by rw [hperm] at h; cases h
    rw [uploadDecision_of_with hwith hupload, decide_eq_true honly]
    exact congrArg Except.ok hsub
  · have hwith : AccessType.with k p.instantiateDefaultPermission creator =
        .ok ⟨.anyOfAddresses, [k.bech32.string creator]⟩ := by rw [hperm, with_anyOfAddresses hcreator]
    rw [uploadDecision_of_with hwith hupload, Except.ok.injEq, Bool.eq_iff_iff, decide_eq_true_iff]
    have htype : config.permission = .nobody ∨ config.permission = .anyOfAddresses := by
      simpa [AccessType.isSubset] using hsub
    rcases htype with htype | htype
    · simp [AccessConfig.isSubset, OnlyCreator, htype]
    · simp [AccessConfig.isSubset, OnlyCreator, htype, hperm, Types.isSubset]
  · cases hsub

/-- A creator changes the config only to what their upload would take, as long as a list in place of the default list
names nobody else. -/
theorem setAccessConfig_within_create (h : setAccessConfig k c codeID creator config .default w = (.ok (), w'))
    (hp : StoredParams (durable w) p) (hupload : p.codeUploadAccess.allowed k.bech32 creator = .ok true) :
    (uploadDecision k p creator config = .ok true ↔ OnlyCreator k p creator config) ∧
    ∀ {c' wasmCode v}, StoredParams (durable v) p → v.meter.infinite = true → ∃ v₁, durable v₁ = durable v ∧
      create k c' creator wasmCode (some config) .default v =
        if OnlyCreator k p creator config then uploadAccepted k creator wasmCode config v₁
        else (.error (.wrap errUnauthorized "can not create code"), v₁) := by
  obtain ⟨hcreator, hsub⟩ := fits_of_setAccessConfig h hp
  have hdecision : uploadDecision k p creator config = .ok (decide (OnlyCreator k p creator config)) :=
    uploadDecision_eq hcreator hupload hsub
  refine ⟨by rw [hdecision, Except.ok.injEq, decide_eq_true_iff], fun hv hi ↦ ?_⟩
  obtain ⟨v₁, hv₁, hcreate⟩ := create_apply (k.bech32.valid_length hcreator).1 hv hi hdecision
  refine ⟨v₁, hv₁, hcreate.trans ?_⟩
  simp only [decide_eq_true_eq]

end Updates

section Devnet

/-- A text in upper case throughout is read as if it were in lower case. -/
def lowered (s : String) : String :=
  let lower := String.ofList (s.toList.map Char.toLower)
  if asciiLib.toUpper lower = s then lower else s

theorem eq_or_eq_toUpper_lowered (s : String) : s = lowered s ∨ s = asciiLib.toUpper (lowered s) := by
  unfold lowered
  dsimp only
  split
  · next h => exact .inr h.symm
  · exact .inl rfl

theorem char_toUpper_toUpper (c : Char) : c.toUpper.toUpper = c.toUpper := by
  unfold Char.toUpper
  split
  · next h =>
    -- a letter lands between A and Z, before the lower case ones
    refine dif_neg ?_
    rintro ⟨hlo, -⟩
    simp only [UInt32.le_iff_toNat_le, UInt32.toNat_add] at h hlo
    have ha : 'a'.val.toNat = 97 := rfl
    have hz : 'z'.val.toNat = 122 := rfl
    have hshift : ('A'.val - 'a'.val).toNat = 2 ^ 32 - 32 := rfl
    omega
  · rfl

theorem toUpper_toUpper (s : String) : asciiLib.toUpper (asciiLib.toUpper s) = asciiLib.toUpper s := by
  change String.ofList ((String.ofList (s.toList.map Char.toUpper)).toList.map Char.toUpper) = _
  rw [String.toList_ofList, List.map_map]
  exact congrArg String.ofList (List.map_congr_left fun c _ ↦ char_toUpper_toUpper c)

/-- An address begins in lower case. -/
theorem lowered_string (a : AccAddress) : lowered (cosmosBech32.string a) = cosmosBech32.string a := by
  by_cases ha : a = []
  · subst ha
    rfl
  · unfold lowered
    rw [if_neg]
    intro h
    have hhead : (cosmosBech32.string a).toList.head? = some 'c' := by
      have hstring : cosmosBech32.string a = Bech32Text.encode "cosmos" a := if_neg ha
      rw [hstring, Bech32Text.encode, String.toList_ofList]
      rfl
    have hupper := congrArg (fun s ↦ s.toList.head?) h
    simp only [asciiLib, String.toList_ofList, List.map_map, List.head?_map, hhead] at hupper
    cases hupper

def readAnyCase (s : String) : Except Err AccAddress := cosmosBech32.fromBech32 (lowered s)

theorem readAnyCase_string (a : AccAddress) :
    readAnyCase (cosmosBech32.string a) = cosmosBech32.fromBech32 (cosmosBech32.string a) := by
  rw [readAnyCase, lowered_string]

theorem eq_of_fromBech32_string {a b : AccAddress} (h : cosmosBech32.fromBech32 (cosmosBech32.string a) = .ok b) :
    b = a := by
  by_cases ha : a = []
  · subst ha
    obtain ⟨e, he⟩ := cosmosBech32.fromBech32_empty
    rw [cosmosBech32.string_nil, he] at h
    cases h
  · have hb := (cosmosBech32.valid_length (cosmosBech32.fromBech32_valid h)).1
    have hencode : Bech32Text.encode "cosmos" b = Bech32Text.encode "cosmos" a :=
      (if_neg hb).symm.trans ((string_of_fromBech32 h).trans (if_neg ha))
    have hdecode := Bech32Text.decode_encode "cosmos" b
    rw [hencode, Bech32Text.decode_encode] at hdecode
    exact (Option.some.inj hdecode).symm

/-- The address codec of the devnet, which reads upper case as well. -/
def anyCaseBech32 : Bech32 where
  string := cosmosBech32.string
  fromBech32 := readAnyCase
  valid := cosmosBech32.valid
  string_nil := cosmosBech32.string_nil
  fromBech32_empty := by
    rw [← cosmosBech32.string_nil, readAnyCase_string, cosmosBech32.string_nil]
    exact cosmosBech32.fromBech32_empty
  fromBech32_valid h := cosmosBech32.fromBech32_valid h
  fromBech32_string {a} h := by
    rw [readAnyCase_string]
    exact cosmosBech32.fromBech32_string h
  valid_length := cosmosBech32.valid_length
  valid_contract := cosmosBech32.valid_contract

def anyCaseNet : Keeper Unit := { devnet idleContract with bech32 := anyCaseBech32 }

theorem string_anyCaseNet (a : AccAddress) : anyCaseNet.bech32.string a = cosmosBech32.string a := by
  simp only [anyCaseNet, anyCaseBech32]

theorem fromBech32_anyCaseNet (s : String) : anyCaseNet.bech32.fromBech32 s = readAnyCase s := by
  simp only [anyCaseNet, anyCaseBech32]

theorem caseBlind_anyCaseNet : CaseBlind anyCaseNet where
  back {a b} h := by
    rw [string_anyCaseNet, fromBech32_anyCaseNet, readAnyCase_string] at h
    exact eq_of_fromBech32_string h
  spelled {s a} h := by
    rw [fromBech32_anyCaseNet] at h
    have hcases := eq_or_eq_toUpper_lowered s
    rwa [← string_of_fromBech32 h, ← string_anyCaseNet] at hcases
  toUpper_toUpper a := toUpper_toUpper _

def shout (s : String) : String := asciiLib.toUpper s

theorem allowed_iff_meantFor_alice :
    AccessConfig.validateBasic anyCaseNet ⟨.anyOfAddresses, [alice]⟩ = .ok () ∧
    ∀ actor, (⟨.anyOfAddresses, [alice]⟩ : AccessConfig).allowed anyCaseNet.bech32 actor = .ok true ↔
      MeantFor anyCaseNet ⟨.anyOfAddresses, [alice]⟩ actor := by
  have hvalid : AccessConfig.validateBasic anyCaseNet ⟨.anyOfAddresses, [alice]⟩ = .ok () := by decide +kernel
  refine ⟨hvalid, (allowed_iff_meantFor caseBlind_anyCaseNet hvalid).2 fun s hs a hdec ↦ ?_⟩
  obtain rfl := List.mem_singleton.1 hs
  have halice : anyCaseNet.bech32.fromBech32 alice = .ok (List.replicate 20 1) := by decide +kernel
  cases halice.symm.trans hdec
  rfl

/-- A valid list names Alice in upper case, and Alice is kept out. -/
theorem alice_kept_out :
    AccessConfig.validateBasic anyCaseNet ⟨.anyOfAddresses, [shout alice]⟩ = .ok () ∧
    anyCaseNet.bech32.fromBech32 (shout alice) = .ok (List.replicate 20 1) ∧
    (⟨.anyOfAddresses, [shout alice]⟩ : AccessConfig).allowed anyCaseNet.bech32 (List.replicate 20 1) = .ok false := by
  decide +kernel

/-- Alice may upload, and Bob is added. -/
theorem uploadAddresses_edited_bob :
    let m : MsgUploadAddresses := ⟨anyCaseNet.authority, [bob]⟩
    ∃ r w', handleMsg anyCaseNet (responseHandler anyCaseNet 1) genesisCtx (.addCodeUploadParamsAddresses m)
        (worldOf (uploadersOnly [alice])) = (.ok r, w') ∧
      ∃ p', StoredParams (durable w') p' ∧ ∀ a, Uploads anyCaseNet p' a ↔
        Uploads anyCaseNet ⟨⟨.anyOfAddresses, [alice]⟩, .everybody⟩ a ∨ Requested anyCaseNet m a := by
  intro m
  have hok : (handleMsg anyCaseNet (responseHandler anyCaseNet 1) genesisCtx (.addCodeUploadParamsAddresses m)
      (worldOf (uploadersOnly [alice]))).1 = .ok .empty := by decide +kernel
  have hp : StoredParams (durable (worldOf (uploadersOnly [alice]))) ⟨⟨.anyOfAddresses, [alice]⟩, .everybody⟩ :=
    storedParams_uploadersOnly [alice]
  rcases hrun : handleMsg anyCaseNet (responseHandler anyCaseNet 1) genesisCtx (.addCodeUploadParamsAddresses m)
    (worldOf (uploadersOnly [alice])) with ⟨o, w'⟩
  rw [hrun] at hok
  subst hok
  obtain ⟨p', hp', hedit⟩ := (uploadAddresses_edited caseBlind_anyCaseNet hp).1 hrun
  refine ⟨_, w', rfl, p', hp', hedit.2 fun s hs a hdec ↦ .inl ?_⟩
  obtain rfl := List.mem_singleton.1 hs
  have hbob : anyCaseNet.bech32.fromBech32 bob = .ok (List.replicate 20 2) := by decide +kernel
  cases hbob.symm.trans hdec
  rfl

/-- Alice is to be removed, in upper case, and may upload as before. -/
theorem alice_not_removed :
    let m : MsgUploadAddresses := ⟨anyCaseNet.authority, [shout alice]⟩
    Requested anyCaseNet m (List.replicate 20 1) ∧
    ∃ w', handleMsg anyCaseNet (responseHandler anyCaseNet 1) genesisCtx (.removeCodeUploadParamsAddresses m)
        (worldOf (uploadersOnly [alice, bob])) = (.ok .empty, w') ∧
      ∃ p', StoredParams (durable w') p' ∧ Uploads anyCaseNet p' (List.replicate 20 1) := by
  intro m
  refine ⟨⟨_, List.mem_singleton_self _, by decide +kernel⟩, ?_⟩
  have hok : (handleMsg anyCaseNet (responseHandler anyCaseNet 1) genesisCtx (.removeCodeUploadParamsAddresses m)
      (worldOf (uploadersOnly [alice, bob]))).1 = .ok .empty ∧
      (handleMsg anyCaseNet (responseHandler anyCaseNet 1) genesisCtx (.removeCodeUploadParamsAddresses m)
        (worldOf (uploadersOnly [alice, bob]))).2.store.kv.get paramsKey =
          some (.params ⟨⟨.anyOfAddresses, [alice, bob]⟩, .everybody⟩) := by decide +kernel
  have huploads : Uploads anyCaseNet ⟨⟨.anyOfAddresses, [alice, bob]⟩, .everybody⟩ (List.replicate 20 1) := by
    unfold Uploads
    decide +kernel
  rcases hrun : handleMsg anyCaseNet (responseHandler anyCaseNet 1) genesisCtx (.removeCodeUploadParamsAddresses m)
    (worldOf (uploadersOnly [alice, bob])) with ⟨o, w'⟩
  rw [hrun] at hok
  obtain ⟨rfl, hstored⟩ := hok
  exact ⟨w', rfl, _, hstored, huploads⟩

/-- A chain that gives each code to its creator, with a code of Carol's. -/
def creatorsOnly : World Unit :=
  worldOf (delivered uploadNet
    ⟨{ kv := OrderedStore.empty.set paramsKey (.params ⟨allowEverybody, .anyOfAddresses⟩), ext := () }, {}⟩ [storeCodeMsg carol])

theorem setAccessConfig_within_create_carol :
    uploadDecision uploadNet ⟨allowEverybody, .anyOfAddresses⟩ [1] ⟨.nobody, []⟩ = .ok true := by
  have hok : (setAccessConfig uploadNet genesisCtx 1 [1] ⟨.nobody, []⟩ .default creatorsOnly).1 = .ok () := by
    decide +kernel
  have hp : StoredParams (durable creatorsOnly) ⟨allowEverybody, .anyOfAddresses⟩ := by
    unfold StoredParams
    decide +kernel
  exact (setAccessConfig_within_create (Program.apply_eq hok) hp rfl).1.2 nofun

/-- Carol gives the code to Dave, which an upload would not let them do. -/
theorem carol_gives_away :
    (setAccessConfig uploadNet genesisCtx 1 [1] ⟨.anyOfAddresses, [dave]⟩ .default creatorsOnly).1 = .ok () ∧
    (create uploadNet genesisCtx [1] wasmIdent (some ⟨.anyOfAddresses, [dave]⟩) .default creatorsOnly).1 =
      .error (.wrap errUnauthorized "can not create code") := by
  decide +kernel

end Devnet

end Cosmwasgo.Properties
