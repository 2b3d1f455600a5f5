import Cosmwasgo.Properties.Ledger
import Cosmwasgo.Properties.Pins
import Cosmwasgo.Runs.LegacyProposals
import Cosmwasgo.Runs.Paths

namespace Cosmwasgo.Properties

open Cosmwasgo.Lib Cosmwasgo.Types Cosmwasgo.State Cosmwasgo.Keeper Cosmwasgo.Runs MsgServer Relation

variable {X : Type} {k : Keeper X} {c c' : Ctx} {content : Content} {d d' : Durable X}

section Mandate

variable {op : Operation} {actor : AccAddress} {p : AuthorizationPolicy} {ch : ContractChange}

/-- What is decided in the run of a proposal: with no message on the way what the proposal asks for, for the
governance, and what the message on top asks for otherwise. -/
def ProposalPermits (k : Keeper X) (content : Content) (c : Ctx) (op : Operation) (actor : AccAddress)
    (p : AuthorizationPolicy) : Prop :=
  c.stack = [] ∧ Asks k content op actor ∧ p = .gov [] ∨ Decides k c op actor p

/-- As long as the authority sends no message, the context carries the default policy. -/
def Humble (k : Keeper X) (c : Ctx) : Prop := Unprivileged k c.stack → c.subMsgAuthzPolicy.getD .default = .default

theorem Humble.default_of_decides (h : Humble k c) (hd : Decides k c op actor p) (hun : Unprivileged k c.stack) :
    p = .default := by
  obtain ⟨m, s, hs, -, -, rfl⟩ := hd
  have hm : m.sender ≠ k.authority := hun m (by rw [hs]; exact List.mem_cons_self)
  rw [selectAuthorizationPolicy, if_neg hm]
  exact h hun

/-- The policy of the governance hands nothing down: the keeper of the handler propagates no action. -/
theorem Humble.sub_of_permits (h : Humble k c) (hp : ProposalPermits k content c op actor p)
    (hun : Unprivileged k c.stack) (action : AuthorizationPolicyAction) :
    p.subMessageAuthorizationPolicy action = .default := by
  rcases hp with ⟨-, -, rfl⟩ | hd
  · rfl
  · rw [h.default_of_decides hd hun]
    rfl

theorem Humble.enters (h : Humble k c) (he : Enters (ProposalPermits k content) c c') : Humble k c' := by
  cases he with
  | message m => exact fun hun ↦ h hun.tail
  | call entry a => exact fun hun ↦ h hun.tail
  | instantiate hp a => exact fun hun ↦ h.sub_of_permits hp hun.tail .instantiate
  | migrate hp => exact fun hun ↦ h.sub_of_permits hp hun.tail .migrateContract
  | deeper n => exact h

theorem Humble.reaches (h : Humble k c) (he : ReflTransGen (Enters (ProposalPermits k content)) c c') :
    Humble k c' := by
  induction he with
  | refl => exact h
  | tail _ he ih => exact ih.enters he

/-- The operation behind a change. -/
def operationBehind (ch : ContractChange) : Operation :=
  match ch.kind with
  | .instantiate => .instantiate
  | .migrate => .migrate ch.contract
  | kind => .modify kind ch.contract

/-- A change made for a proposal: the proposal's own, or one that a message below it asked for, which the default policy
decided about unless the authority is on the way. -/
inductive Mandated (k : Keeper X) (content : Content) (ch : ContractChange) : Prop
  | own (hstack : ch.stack = []) (hpolicy : ch.policy = .gov []) (hasks : Asks k content (operationBehind ch) ch.caller)
  | below (hstack : ch.stack ≠ []) (hpolicy : Unprivileged k ch.stack → ch.policy = .default)

theorem mandated_of_permits (h : Humble k c) (hs : ch.stack = c.stack)
    (hp : ProposalPermits k content c (operationBehind ch) ch.caller ch.policy) : Mandated k content ch := by
  rcases hp with ⟨hroot, hasks, hpolicy⟩ | hd
  · exact .own (hs.trans hroot) hpolicy hasks
  · refine .below ?_ ?_
    · obtain ⟨m, s, hstack, -⟩ := hd
      rw [hs, hstack]
      exact List.cons_ne_nil _ _
    · rw [hs]
      exact h.default_of_decides hd

/-- The changes that come with a step are all mandated. -/
def AddsMandated (k : Keeper X) (content : Content) (d d' : Durable X) : Prop :=
  ∃ new, d'.store.changes = d.store.changes ++ new ∧ ∀ ch ∈ new, Mandated k content ch

theorem AddsMandated.of_eq (h : d'.store.changes = d.store.changes) : AddsMandated k content d d' := by
  refine ⟨[], by rw [h, List.append_nil], ?_⟩
  intro ch hch
  cases hch

theorem AddsMandated.single (h : d'.store.changes = d.store.changes ++ [ch]) (hch : Mandated k content ch) :
    AddsMandated k content d d' := by
  refine ⟨[ch], h, ?_⟩
  intro ch' hmem
  rw [List.mem_singleton] at hmem
  rw [hmem]
  exact hch

theorem AddsMandated.trans {d₁ : Durable X} (h : AddsMandated k content d d₁) (h' : AddsMandated k content d₁ d') :
    AddsMandated k content d d' := by
  obtain ⟨new, hnew, hall⟩ := h
  obtain ⟨new', hnew', hall'⟩ := h'
  refine ⟨new ++ new', by rw [hnew', hnew, List.append_assoc], ?_⟩
  intro ch hch
  rcases List.mem_append.1 hch with hmem | hmem
  · exact hall ch hmem
  · exact hall' ch hmem

theorem AddsMandated.of_act (hc : Humble k c) (h : Act k (ProposalPermits k content) c d d') :
    AddsMandated k content d d' := by
  cases h with
  | register hp => exact .single rfl (mandated_of_permits hc rfl hp)
  | migrate info port hp => exact .single rfl (mandated_of_permits hc rfl hp)
  | modify hp hinfo hadmin hmodify hkind =>
    cases hkind with
    | admin => exact .single rfl (mandated_of_permits hc rfl hp)
    | label => exact .single rfl (mandated_of_permits hc rfl hp)
  | extend ext hp => exact .single rfl (mandated_of_permits hc rfl hp)
  | _ => exact .of_eq rfl

theorem AddsMandated.of_steps (hc : Humble k c) (h : Steps k (ProposalPermits k content) c d d') :
    AddsMandated k content d d' := by
  induction h with
  | refl => exact .of_eq rfl
  | tail _ hstep ih =>
    refine ih.trans ?_
    cases hstep with
    | act hreach hact => exact .of_act (hc.reaches hreach) hact
    | quiet _ hq => exact .of_eq hq.changes

end Mandate

section Sweep

variable {ι : Type} (loop : List ι → M X Unit) {f : ι → M X Unit}

/-- One record is rewritten. -/
structure Rewrites (key : Bytes) (new : Option Value → Option Value) (d d' : Durable X) : Prop where
  self : d'.kv.get key = new (d.kv.get key)
  other : ∀ {key'}, key' ≠ key → d'.kv.get key' = d.kv.get key'

/-- What is left of a record when the items of a list that concern it have rewritten it one after the other. -/
def swept (key : ι → Bytes) (new : ι → Option Value → Option Value) (l : List ι) (target : Bytes) (v : Option Value) :
    Option Value :=
  (l.filter fun i ↦ key i = target).foldl (fun v i ↦ new i v) v

/-- A loop over items that are ready rewrites the records of all of them. -/
theorem unmetered_loop (hnil : loop [] = pure ()) (hcons : ∀ i l, loop (i :: l) = (f i >>= fun _ ↦ loop l))
    {I : ι → Durable X → Prop} {key : ι → Bytes} {new : ι → Option Value → Option Value}
    (hf : ∀ i d, I i d → ∃ d', Unmetered (f i) d () d' ∧ Rewrites (key i) (new i) d d' ∧ ∀ j, I j d → I j d')
    {l : List ι} {d : Durable X} (h : ∀ i ∈ l, I i d) :
    ∃ d', Unmetered (loop l) d () d' ∧ ∀ target, d'.kv.get target = swept key new l target (d.kv.get target) := by
  induction l generalizing d with
  | nil =>
    rw [hnil]
    exact ⟨d, .pure () d, fun _ ↦ rfl⟩
  | cons i l ih =>
    obtain ⟨d₁, hrun, hwrite, hready⟩ := hf i d (h i List.mem_cons_self)
    obtain ⟨d', hrest, hswept⟩ := ih fun j hj ↦ hready j (h j (List.mem_cons_of_mem i hj))
    refine ⟨d', ?_, fun target ↦ ?_⟩
    · rw [hcons]
      exact hrun.bind hrest
    · rw [hswept, swept, swept]
      by_cases hi : key i = target
      · rw [List.filter_cons_of_pos (by simpa using hi), List.foldl_cons, ← hi, hwrite.self]
      · rw [List.filter_cons_of_neg (by simpa using hi), hwrite.other (Ne.symm hi)]

/-- A loop that comes to its end has found all its items ready. -/
theorem ensures_loop (hnil : loop [] = pure ()) (hcons : ∀ i l, loop (i :: l) = (f i >>= fun _ ↦ loop l))
    {I : ι → Durable X → Prop} (hf : ∀ i, Ensures (f i) fun d _ d' ↦ I i d ∧ ∀ j, I j d' → I j d) (l : List ι) :
    Ensures (loop l) fun d _ _ ↦ ∀ i ∈ l, I i d := by
  induction l with
  | nil =>
    rw [hnil]
    refine (Ensures.pure ()).mono ?_
    intro d _ d' _ i hi
    cases hi
  | cons i l ih =>
    rw [hcons]
    refine ((hf i).bind fun _ ↦ ih).mono ?_
    rintro d _ d' ⟨_, d₁, ⟨hi, hback⟩, hrest⟩ j hj
    rcases List.mem_cons.1 hj with rfl | hj
    · exact hi
    · exact hback j (hrest j hj)

theorem swept_const {key : ι → Bytes} {value : Option Value} (l : List ι) (target : Bytes) (v : Option Value) :
    swept key (fun _ _ ↦ value) l target v = if ∃ i ∈ l, key i = target then value else v := by
  induction l generalizing v with
  | nil => simp [swept]
  | cons i l ih =>
    by_cases hi : key i = target
    · have hfirst : swept key (fun _ _ ↦ value) (i :: l) target v = swept key (fun _ _ ↦ value) l target value := by
        rw [swept, List.filter_cons_of_pos (by simpa using hi)]
        rfl
      rw [hfirst, ih, ite_self, if_pos ⟨i, List.mem_cons_self, hi⟩]
    · have hskip : swept key (fun _ _ ↦ value) (i :: l) target v = swept key (fun _ _ ↦ value) l target v := by
        rw [swept, List.filter_cons_of_neg (by simpa using hi)]
        rfl
      rw [hskip, ih]
      simp [hi]

/-- With one item for each record the order does not matter. -/
theorem swept_distinct {key : ι → Bytes} {new : ι → Option Value → Option Value} {l : List ι} (hl : (l.map key).Nodup)
    (target : Bytes) (v : Option Value) :
    swept key new l target v = ((l.find? fun i ↦ key i = target).map fun i ↦ new i v).getD v := by
  induction l generalizing v with
  | nil => rfl
  | cons i l ih =>
    rw [List.map_cons, List.nodup_cons] at hl
    by_cases hi : key i = target
    · have hnone : l.filter (fun j ↦ key j = target) = [] := by
        rw [List.filter_eq_nil_iff]
        intro j hj hkey
        have hsame : key j = key i := (of_decide_eq_true hkey).trans hi.symm
        exact hl.1 (hsame ▸ List.mem_map_of_mem hj)
      rw [swept, List.filter_cons_of_pos (by simpa using hi), hnone, List.find?_cons_of_pos (by simpa using hi)]
      rfl
    · rw [swept, List.filter_cons_of_neg (by simpa using hi), List.find?_cons_of_neg (by simpa using hi)]
      exact ih hl.2 v

end Sweep

section Codes

variable {id : UInt64} {info : CodeInfo}

/-- The proposals that go through a list of codes, with what they need to get that far. -/
inductive OverCodes (k : Keeper X) (enabled : List String) : Content → Prop
  | pinCodes {p : CodesProposal} (h : p.validateBasic k = .ok ()) (he : "PinCodes" ∈ enabled) :
      OverCodes k enabled (.pinCodes p)
  | unpinCodes {p : CodesProposal} (h : p.validateBasic k = .ok ()) (he : "UnpinCodes" ∈ enabled) :
      OverCodes k enabled (.unpinCodes p)
  | updateInstantiateConfig {p : UpdateInstantiateConfigProposal} (h : p.validateBasic k = .ok ())
      (he : "UpdateInstantiateConfig" ∈ enabled) : OverCodes k enabled (.updateInstantiateConfig p)

def KnownCode (id : UInt64) (d : Durable X) : Prop := ∃ info, d.kv.get (getCodeKey id) = some (.codeInfo info)

/-- The code is known and its creator can be read. -/
def OwnedCode (k : Keeper X) (id : UInt64) (d : Durable X) : Prop :=
  ∃ info creator, d.kv.get (getCodeKey id) = some (.codeInfo info) ∧ k.bech32.fromBech32 info.creator = .ok creator

def HasParams (d : Durable X) : Prop := ∃ params, d.kv.get paramsKey = some (.params params)

/-- All codes of the proposal are there. -/
def CodesReady (k : Keeper X) (d : Durable X) : Content → Prop
  | .pinCodes p | .unpinCodes p => ∀ id ∈ p.codeIDs, KnownCode id d
  | .updateInstantiateConfig p => ∀ u ∈ p.accessConfigUpdates, OwnedCode k u.codeID d ∧ HasParams d
  | _ => False

def withConfig (config : AccessConfig) : Option Value → Option Value
  | some (.codeInfo info) => some (.codeInfo { info with instantiateConfig := config })
  | v => v

/-- What becomes of a record of the store. -/
def proposed (content : Content) (key : Bytes) (v : Option Value) : Option Value :=
  match content with
  | .pinCodes p => if ∃ id ∈ p.codeIDs, getPinnedCodeIndexPrefix id = key then some (.bytes [1]) else v
  | .unpinCodes p => if ∃ id ∈ p.codeIDs, getPinnedCodeIndexPrefix id = key then none else v
  | .updateInstantiateConfig p =>
    ((p.accessConfigUpdates.find? fun u ↦ getCodeKey u.codeID = key).map fun u ↦
      withConfig u.instantiatePermission v).getD v
  | _ => v

/-- The code is known, and the VM has it. -/
def HeldCode (id : UInt64) (d : Durable X) : Prop :=
  ∃ info, d.kv.get (getCodeKey id) = some (.codeInfo info) ∧ (d.vm.codes.get info.codeHash).isSome

theorem unmetered_pinCode (h : HeldCode id d) :
    ∃ d', Unmetered (onCode (newGovPermissionKeeper k).pinCode id) d () d' ∧
      Rewrites (getPinnedCodeIndexPrefix id) (fun _ ↦ some (.bytes [1])) d d' ∧
      ∀ j, HeldCode j d → HeldCode j d' := by
  obtain ⟨info, hinfo, hcode⟩ := h
  refine ⟨_, (Unmetered.pinCode hinfo hcode).wrapErr _, ⟨?_, ?_⟩, ?_⟩
  · exact OrderedStore.get_set_self _ _ _
  · intro key hkey
    exact OrderedStore.get_set_of_ne _ _ hkey
  · rintro j ⟨info', hinfo', hcode'⟩
    exact ⟨info', (get_set_of_head _ (by simp)).trans hinfo', hcode'⟩

theorem unmetered_unpinCode (h : KnownCode id d) :
    ∃ d', Unmetered (onCode (newGovPermissionKeeper k).unpinCode id) d () d' ∧
      Rewrites (getPinnedCodeIndexPrefix id) (fun _ ↦ none) d d' ∧ ∀ j, KnownCode j d → KnownCode j d' := by
  obtain ⟨info, hinfo⟩ := h
  have hunpin : Unmetered (Program.update fun w : World X ↦
      { w with vm := { w.vm with pinned := w.vm.pinned.filter (· ≠ info.codeHash) } }) d ()
      (d.withVM { d.vm with pinned := d.vm.pinned.filter (· ≠ info.codeHash) }) := by
    refine .update ?_ fun _ ↦ rfl
    rintro w rfl
    rfl
  have hmark : getPinnedCodeIndexPrefix id ≠ [] := by simp [getPinnedCodeIndexPrefix, pinnedCodeIndexPrefix]
  have hrun : Unmetered (unpinCode k id) d () ((d.withVM { d.vm with
      pinned := d.vm.pinned.filter (· ≠ info.codeHash) }).withKV (d.kv.delete (getPinnedCodeIndexPrefix id))) :=
    (Unmetered.getCodeInfo hinfo).bind (hunpin.bind ((Unmetered.deleteKV hmark _).bind (.emitEvents _ _)))
  refine ⟨_, hrun.wrapErr _, ⟨?_, ?_⟩, ?_⟩
  · exact (OrderedStore.get_delete _ _ _).trans (if_pos rfl)
  · intro key hkey
    exact OrderedStore.get_delete_of_ne _ hkey
  · rintro j ⟨info', hinfo'⟩
    exact ⟨info', (get_delete_of_head (by simp)).trans hinfo'⟩

theorem unmetered_setAccessConfig (u : AccessConfigUpdate) (h : OwnedCode k u.codeID d ∧ HasParams d) :
    ∃ d', Unmetered (onCode (fun codeID ↦ (newGovPermissionKeeper k).setAccessConfig c codeID [] u.instantiatePermission)
        u.codeID) d () d' ∧
      Rewrites (getCodeKey u.codeID) (withConfig u.instantiatePermission) d d' ∧
      ∀ v : AccessConfigUpdate, OwnedCode k v.codeID d ∧ HasParams d → OwnedCode k v.codeID d' ∧ HasParams d' := by
  obtain ⟨id, config⟩ := u
  obtain ⟨⟨info, creator, hinfo, hcreator⟩, params, hparams⟩ := h
  have hauth : Unmetered (authorize (X := X) c (.gov []) (.ok true)
      (.wrap errUnauthorized "can not modify code access config")) d () d := by
    refine .bind (.update (fun _ hw ↦ hw) fun _ ↦ rfl) (.bind (.liftPanic rfl d) ?_)
    exact .require rfl _ d
  have hkey : getCodeKey id ≠ [] := by simp [getCodeKey, codeKeyPrefix]
  have hread : (k.bech32.fromBech32 info.creator).mapError (fun e ↦ Panic.other e.error) = .ok creator :=
    mapError_eq_ok.2 hcreator
  have hrun : Unmetered (setAccessConfig k c id [] config (.gov [])) d ()
      (d.withKV (d.kv.set (getCodeKey id) (.codeInfo { info with instantiateConfig := config }))) :=
    (Unmetered.getCodeInfo hinfo).bind ((Unmetered.getParams hparams).bind ((Unmetered.liftPanic hread d).bind
      (hauth.bind ((Unmetered.setKV hkey _ d).bind (.emitEvents _ _)))))
  refine ⟨_, hrun.wrapErr _, ⟨?_, ?_⟩, ?_⟩
  · rw [hinfo]
    exact OrderedStore.get_set_self _ _ _
  · intro key hne
    exact OrderedStore.get_set_of_ne _ _ hne
  · rintro ⟨j, _⟩ ⟨⟨info', creator', hinfo', hcreator'⟩, -⟩
    refine ⟨?_, params, (get_set_of_head _ (by simp)).trans hparams⟩
    by_cases hj : getCodeKey j = getCodeKey id
    · obtain rfl := getCodeKey_inj hj
      cases hinfo.symm.trans hinfo'
      exact ⟨_, creator', OrderedStore.get_set_self _ _ _, hcreator'⟩
    · exact ⟨info', creator', (OrderedStore.get_set_of_ne _ _ hj).trans hinfo', hcreator'⟩

theorem ensures_onPin (id : UInt64) : Ensures (onCode (newGovPermissionKeeper k).pinCode id) fun d _ d' ↦
    KnownCode id d ∧ ∀ j, KnownCode j d' → KnownCode j d := by
  refine (Ensures.wrapErr (Ensures.pinCode id) _).mono ?_
  rintro d _ _ ⟨info, hinfo, rfl⟩
  refine ⟨⟨info, hinfo⟩, ?_⟩
  rintro j ⟨info', hinfo'⟩
  exact ⟨info', (get_set_of_head _ (by simp)).symm.trans hinfo'⟩

theorem ensures_onUnpin (id : UInt64) : Ensures (onCode (newGovPermissionKeeper k).unpinCode id) fun d _ d' ↦
    KnownCode id d ∧ ∀ j, KnownCode j d' → KnownCode j d := by
  refine (Ensures.wrapErr (ensures_unpinCode id) _).mono ?_
  rintro d _ _ ⟨info, hinfo, rfl⟩
  refine ⟨⟨info, hinfo⟩, ?_⟩
  rintro j ⟨info', hinfo'⟩
  exact ⟨info', (get_delete_of_head (by simp)).symm.trans hinfo'⟩

theorem ensures_setAccessConfig (id : UInt64) (config : AccessConfig) (policy : AuthorizationPolicy) :
    Ensures (setAccessConfig k c id [] config policy) fun d _ d' ↦ ∃ info creator params,
      d.kv.get (getCodeKey id) = some (.codeInfo info) ∧ k.bech32.fromBech32 info.creator = .ok creator ∧
      d.kv.get paramsKey = some (.params params) ∧
      d' = d.withKV (d.kv.set (getCodeKey id) (.codeInfo { info with instantiateConfig := config })) := by
  intro w _ w' hr
  obtain ⟨r, w₁, hinfo, hr⟩ := Program.bind_eq_ok.1 hr
  obtain ⟨hd, hinfo⟩ := (Writes.getCodeInfo k id).ensures hinfo
  cases r with
  | none => cases hr
  | some info =>
    obtain ⟨params, w₂, hparams, hr⟩ := Program.bind_eq_ok.1 hr
    obtain ⟨hparams, hd₂⟩ := Ensures.getParams hparams
    obtain ⟨creator, w₃, hcreator, hr⟩ := Program.bind_eq_ok.1 hr
    obtain ⟨hcreator, hw₃⟩ := liftPanic_eq_ok.1 hcreator
    obtain ⟨_, w₄, hauth, hr⟩ := Program.bind_eq_ok.1 hr
    have hd₄ := Ensures.authorize _ _ _ _ hauth
    obtain ⟨_, w₅, hset, hr⟩ := Program.bind_eq_ok.1 hr
    have hd₅ := (Writes.setKV k _ _).ensures hset
    have hd' := Ensures.emitEvents _ hr
    rw [hw₃, hd₂, hd] at hd₄
    rw [hd₄] at hd₅
    rw [hd] at hparams
    exact ⟨info, creator, params, hinfo, mapError_eq_ok.1 hcreator, hparams, hd'.trans hd₅⟩

theorem ensures_onConfig (u : AccessConfigUpdate) :
    Ensures (onCode (fun codeID ↦ (newGovPermissionKeeper k).setAccessConfig c codeID [] u.instantiatePermission) u.codeID)
      fun d _ d' ↦ (OwnedCode k u.codeID d ∧ HasParams d) ∧
        ∀ v : AccessConfigUpdate, OwnedCode k v.codeID d' ∧ HasParams d' → OwnedCode k v.codeID d ∧ HasParams d := by
  obtain ⟨id, config⟩ := u
  refine (Ensures.wrapErr (ensures_setAccessConfig id config _) _).mono ?_
  rintro d _ _ ⟨info, creator, params, hinfo, hcreator, hparams, rfl⟩
  refine ⟨⟨⟨info, creator, hinfo, hcreator⟩, params, hparams⟩, ?_⟩
  rintro ⟨j, _⟩ ⟨⟨info', creator', hinfo', hcreator'⟩, -⟩
  refine ⟨?_, params, hparams⟩
  by_cases hj : getCodeKey j = getCodeKey id
  · rw [getCodeKey_inj hj]
    exact ⟨info, creator, hinfo, hcreator⟩
  · exact ⟨info', creator', (OrderedStore.get_set_of_ne _ _ hj).symm.trans hinfo', hcreator'⟩

theorem nodup_of_validateUpdates {seen : List UInt64} {us : List AccessConfigUpdate}
    (h : validateUpdates k seen us = .ok ()) : (us.map (·.codeID)).Nodup ∧ ∀ u ∈ us, u.codeID ∉ seen := by
  induction us generalizing seen with
  | nil => simp
  | cons u us ih =>
    obtain ⟨hnew, h⟩ := check_bind_eq_ok.1 h
    obtain ⟨_, -, h⟩ := except_bind_eq_ok.1 h
    obtain ⟨hnodup, hfresh⟩ := ih h
    have hnot : u.codeID ∉ seen := by simpa using hnew
    refine ⟨?_, ?_⟩
    · rw [List.map_cons, List.nodup_cons]
      refine ⟨?_, hnodup⟩
      intro hmem
      obtain ⟨u', hu', heq⟩ := List.mem_map.1 hmem
      exact hfresh u' hu' (heq ▸ List.mem_cons_self)
    · intro u' hu'
      rcases List.mem_cons.1 hu' with rfl | hu'
      · exact hnot
      · exact fun hmem ↦ hfresh u' hu' (List.mem_cons_of_mem _ hmem)

theorem nodup_of_validateBasic {p : UpdateInstantiateConfigProposal} (h : p.validateBasic k = .ok ()) :
    (p.accessConfigUpdates.map fun u ↦ getCodeKey u.codeID).Nodup := by
  obtain ⟨_, -, h⟩ := except_bind_eq_ok.1 h
  obtain ⟨-, h⟩ := check_bind_eq_ok.1 h
  have hmap := (nodup_of_validateUpdates h).1.map fun _ _ ↦ getCodeKey_inj
  rwa [List.map_map] at hmap

/-- The handler gets to the loop. -/
theorem unmetered_legacyHandler {n : Nat} {enabled : List String} {valid : Except Err Unit} {m : M X Unit}
    (he : content.proposalType ∈ enabled) (hvalid : valid = .ok ()) (hm : Unmetered m d () d')
    (hrun : legacyHandler k n enabled c (some content) =
      (do Program.require (enabled.contains content.proposalType) (.wrap errUnknownRequest
            ("unsupported wasm proposal content type: " ++ quote k.lib.isPrint content.proposalType))
          Program.lift valid
          m)) : Unmetered (legacyHandler k n enabled c (some content)) d () d' := by
  rw [hrun]
  exact (Unmetered.require (by simpa using he) _ d).bind ((Unmetered.lift hvalid d).bind hm)

theorem unmetered_codesProposal {n N : Nat} {enabled : List String} (hreg : CodeRegistry k N d)
    (h : OverCodes k enabled content) (hready : CodesReady k d content) :
    ∃ d', Unmetered (legacyHandler k n enabled c (some content)) d () d' ∧
      ∀ key, d'.kv.get key = proposed content key (d.kv.get key) := by
  cases h with
  | @pinCodes p hvalid he =>
    have hheld : ∀ id ∈ p.codeIDs, HeldCode id d := by
      intro id hid
      obtain ⟨info, hinfo⟩ := hready id hid
      obtain ⟨_, heq, hcode⟩ := hreg.infos hinfo
      cases heq
      exact ⟨info, hinfo, hcode⟩
    obtain ⟨d', hrun, hswept⟩ := unmetered_loop (eachCode (onCode (newGovPermissionKeeper k).pinCode)) rfl
      (fun _ _ ↦ rfl) (fun id d hid ↦ unmetered_pinCode hid) hheld
    refine ⟨d', unmetered_legacyHandler he hvalid hrun rfl, fun key ↦ ?_⟩
    rw [hswept, swept_const]
    rfl
  | @unpinCodes p hvalid he =>
    obtain ⟨d', hrun, hswept⟩ := unmetered_loop (eachCode (onCode (newGovPermissionKeeper k).unpinCode)) rfl
      (fun _ _ ↦ rfl) (fun id d hid ↦ unmetered_unpinCode hid) hready
    refine ⟨d', unmetered_legacyHandler he hvalid hrun rfl, fun key ↦ ?_⟩
    rw [hswept, swept_const]
    rfl
  | @updateInstantiateConfig p hvalid he =>
    have hall : ∀ u ∈ p.accessConfigUpdates, OwnedCode k u.codeID d ∧ HasParams d := hready
    obtain ⟨d', hrun, hswept⟩ := unmetered_loop (setAccessConfigs (newGovPermissionKeeper k) c) rfl
      (fun _ _ ↦ rfl) (fun u d hu ↦ unmetered_setAccessConfig u hu) hall
    refine ⟨d', unmetered_legacyHandler he hvalid hrun rfl, fun key ↦ ?_⟩
    rw [hswept, swept_distinct (nodup_of_validateBasic hvalid)]
    rfl

theorem ensures_codesProposal {n : Nat} {enabled : List String} (h : OverCodes k enabled content) :
    Ensures (legacyHandler k n enabled c (some content)) fun d _ _ ↦ CodesReady k d content := by
  -- nothing happens before the loop
  have hloop : ∀ {valid : Except Err Unit} {b : Bool} {e : Err} {m : M X Unit}, Ensures m (fun d _ _ ↦ CodesReady k d content) →
      Ensures (Program.require b e >>= fun _ ↦ Program.lift valid >>= fun _ ↦ m) fun d _ _ ↦ CodesReady k d content := by
    intro valid b e m hm
    refine ((Ensures.require b e).bind fun _ ↦ (Ensures.lift valid).bind fun _ ↦ hm).mono ?_
    rintro d _ d' ⟨_, _, ⟨-, rfl⟩, _, _, ⟨-, rfl⟩, hready⟩
    exact hready
  cases h with
  | pinCodes hvalid he =>
    exact hloop (ensures_loop (eachCode (onCode (newGovPermissionKeeper k).pinCode)) rfl (fun _ _ ↦ rfl)
      ensures_onPin _)
  | unpinCodes hvalid he =>
    exact hloop (ensures_loop (eachCode (onCode (newGovPermissionKeeper k).unpinCode)) rfl (fun _ _ ↦ rfl)
      ensures_onUnpin _)
  | updateInstantiateConfig hvalid he =>
    exact hloop (ensures_loop (setAccessConfigs (newGovPermissionKeeper k) c) rfl (fun _ _ ↦ rfl)
      ensures_onConfig _)

end Codes

/-- Pinning, unpinning and setting the permissions of a list of codes is all or nothing, and exact: without a limit on
gas the proposal goes through if and only if all its codes are there, and then it has rewritten the records that it names
and no other record of the store. -/
theorem codesProposal_exact {x : X} (hd : ChainRun k (emptyDurable x) d) (n : Nat) {enabled : List String}
    (h : OverCodes k enabled content) :
    (CodesReady k d content ↔ ∃ d', Unmetered (legacyHandler k n enabled c (some content)) d () d') ∧
      ∀ d', Unmetered (legacyHandler k n enabled c (some content)) d () d' →
        ∀ key, d'.kv.get key = proposed content key (d.kv.get key) := by
  obtain ⟨L, -, hL⟩ := (Abstracts.empty x).run hd
  have hready : ∀ {d'}, Unmetered (legacyHandler k n enabled c (some content)) d () d' → CodesReady k d content := by
    intro d' hrun
    obtain ⟨w', hw', -⟩ := hrun (worldOf d) (durable_worldOf d) rfl
    have hr := ensures_codesProposal h hw'
    rwa [durable_worldOf] at hr
  refine ⟨⟨?_, ?_⟩, ?_⟩
  · intro hcodes
    obtain ⟨d', hrun, -⟩ := unmetered_codesProposal (n := n) (c := c) hL.registry h hcodes
    exact ⟨d', hrun⟩
  · intro ⟨d', hrun⟩
    exact hready hrun
  · intro d' hrun
    obtain ⟨d₁, hrun₁, hkv⟩ := unmetered_codesProposal (n := n) (c := c) hL.registry h (hready hrun)
    obtain ⟨w', hw', hd', -⟩ := hrun (worldOf d) (durable_worldOf d) rfl
    obtain ⟨w₁, hw₁, hd₁, -⟩ := hrun₁ (worldOf d) (durable_worldOf d) rfl
    obtain ⟨-, rfl⟩ := Prod.mk.inj (hw'.symm.trans hw₁)
    rw [← hd', hd₁]
    exact hkv

def pinProposal : CodesProposal := ⟨"Pin", "The first code.", [1]⟩

theorem codesProposal_exact_carol :
    ∃ d', Unmetered (legacyHandler listnet 1 ["PinCodes"] genesisCtx (some (.pinCodes pinProposal))) (carolCreates 0) () d' ∧
      IsPinned d'.kv 1 := by
  obtain ⟨n, hreg⟩ := codeRegistry_reachable (reachable_carolCreates 0)
  have hsome : ((carolCreates 0).kv.get (getCodeKey 1)).isSome := by decide +kernel
  obtain ⟨v, hv⟩ := Option.isSome_iff_exists.1 hsome
  obtain ⟨info, rfl, -⟩ := hreg.infos hv
  have hready : CodesReady listnet (carolCreates 0) (.pinCodes pinProposal) := by
    intro id hid
    rw [List.mem_singleton.1 hid]
    exact ⟨info, hv⟩
  have hover : OverCodes listnet ["PinCodes"] (.pinCodes pinProposal) := .pinCodes (by decide +kernel) (by decide)
  obtain ⟨hiff, hexact⟩ := codesProposal_exact (c := genesisCtx) (chainRun_carolCreates 0) 1 hover
  obtain ⟨d', hrun⟩ := hiff.1 hready
  refine ⟨d', hrun, ?_⟩
  rw [IsPinned, hexact d' hrun]
  rfl

end Cosmwasgo.Properties
