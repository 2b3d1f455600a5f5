import Cosmwasgo.Properties.Genesis
import Cosmwasgo.Properties.Ownership
import Cosmwasgo.Properties.UploadParams
import Cosmwasgo.Runs.Unmetered

namespace Cosmwasgo.Properties

open Cosmwasgo.Lib Cosmwasgo.Types Cosmwasgo.State Cosmwasgo.Keeper Cosmwasgo.Runs MsgServer

variable {X : Type} {k : Keeper X} {h : ResponseHandler X} {c : Ctx} {m : Msg} {d : Durable X}

section Below

variable {a : AccAddress} {p : AuthorizationPolicy} {s below : List Frame}

theorem Path.of_append {t : List Frame} : ∀ {below : List Frame}, Path k (below ++ t) → Path k t := by
  intro below hpath
  induction below with
  | nil => exact hpath
  | cons f below ih =>
    rw [List.cons_append] at hpath
    generalize hrest : below ++ t = rest at *
    cases hpath with
    | message hp _ => exact ih hp
    | call hp _ _ => exact ih hp
    | instantiate hp _ _ => exact ih hp
    | migrate hp _ => exact ih hp

/-- Below a migration the policy its own policy hands down stands, as long as the authority sends nothing more. -/
theorem standing_below_migrate (hpath : Path k (below ++ .call .migrate a (some p) :: s)) (hun : Unprivileged k below) :
    standing (below ++ .call .migrate a (some p) :: s) = p.subMessageAuthorizationPolicy .migrateContract := by
  induction below with
  | nil => rfl
  | cons f below ih =>
    -- a call that was authorised stands on its message, which is not the authority's
    have handed : ∀ {m' : Msg} {s' : List Frame} (action : AuthorizationPolicyAction), Path k (.message m' :: s') →
        .message m' :: s' = below ++ .call .migrate a (some p) :: s →
          (policyFor k m' s').subMessageAuthorizationPolicy action = p.subMessageAuthorizationPolicy .migrateContract := by
      intro m' s' action hp hs
      have ih := ih (hs ▸ hp) hun.tail
      rw [← hs] at ih
      cases below with
      | nil => cases hs
      | cons f' below =>
        obtain ⟨rfl, rfl⟩ := List.cons.inj hs
        rw [hun.tail.policyFor_eq, standing_sub]
        exact ih
    rw [List.cons_append] at hpath ⊢
    generalize hrest : below ++ Frame.call .migrate a (some p) :: s = rest at *
    cases hpath with
    | message hp m' => exact ih hp hun.tail
    | call hp entry a =>
      rw [standing_call_none]
      exact ih hp hun.tail
    | instantiate hp hm a => exact handed .instantiate hp rfl
    | migrate hp hm => exact handed .migrateContract hp rfl

end Below

section Modify

/-- The contract whose admin or label a message is to change. -/
def modifiedContract : Msg → Option String
  | .updateAdmin m => some m.contract
  | .clearAdmin m => some m.contract
  | .updateContractLabel m => some m.contract
  | _ => none

/-- The contract of the message, and what is stored of it. -/
def Concerns (k : Keeper X) (m : Msg) (d : Durable X) (addr : AccAddress) (info : ContractInfo) : Prop :=
  ∃ s, modifiedContract m = some s ∧ k.bech32.fromBech32 s = .ok addr ∧ InfoStored addr info d

/-- The sender is the admin that the contract has at this moment. -/
def SentByAdmin (k : Keeper X) (m : Msg) (d : Durable X) : Prop :=
  ∃ addr info a, Concerns k m d addr info ∧ k.bech32.fromBech32 info.admin = .ok a ∧ k.bech32.fromBech32 m.sender = .ok a

/-- Only a policy can still refuse the message. -/
def Applicable (k : Keeper X) (m : Msg) (d : Durable X) : Prop :=
  Msg.validateBasic k m = .ok () ∧ ∃ addr info admin, Concerns k m d addr info ∧ adminAddr k info = .ok admin

/-- The policy does not refuse it either. -/
def Admitted (k : Keeper X) (p : AuthorizationPolicy) (m : Msg) (d : Durable X) : Prop :=
  Msg.validateBasic k m = .ok () ∧ ∃ addr info admin caller, Concerns k m d addr info ∧
    adminAddr k info = .ok admin ∧ k.bech32.fromBech32 m.sender = .ok caller ∧ p.canModifyContract admin caller = true

variable {kind : ChangeKind} {addr caller admin : AccAddress} {policy : AuthorizationPolicy} {info : ContractInfo}
  {change : ContractInfo → ContractInfo}

theorem ensures_decode (text field : String) : Ensures (MsgServer.decode k text field) fun d a d' ↦
    k.bech32.fromBech32 text = .ok a ∧ d' = d :=
  (Ensures.lift _).mono fun _ _ _ ⟨ha, hd⟩ ↦ ⟨wrap_eq_ok.1 ha, hd⟩

theorem ensures_modifyContract : Ensures (modifyContract k c kind addr caller policy change) fun d _ _ ↦
    ∃ info admin, InfoStored addr info d ∧ adminAddr k info = .ok admin ∧
      policy.canModifyContract admin caller = true := by
  intro w _ w' hr
  obtain ⟨info, w₁, hinfo, hr⟩ := Program.bind_eq_ok.1 hr
  obtain ⟨hd, hinfo⟩ := (Writes.getContractInfo k addr).ensures hinfo
  cases info with
  | none => cases hr
  | some info =>
    obtain ⟨admin, w₂, hadmin, hr⟩ := Program.bind_eq_ok.1 hr
    obtain ⟨_, w₃, hauth, -⟩ := Program.bind_eq_ok.1 hr
    obtain ⟨_, w₄, -, hauth⟩ := Program.bind_eq_ok.1 hauth
    have hadmin : adminAddr k info = .ok admin := by
      cases hadm : adminAddr k info with
      | ok a =>
        rw [hadm] at hadmin
        cases hadmin
        rfl
      | error e =>
        rw [hadm] at hadmin
        cases hadmin
    exact ⟨info, admin, hinfo, hadmin, ((Ensures.require _ _) hauth).1⟩

theorem unmetered_modifyContract (hinfo : InfoStored addr info d) (hadmin : adminAddr k info = .ok admin)
    (hpolicy : policy.canModifyContract admin caller = true) :
    ∃ d', Unmetered (modifyContract k c kind addr caller policy change) d () d' := by
  have hget : Unmetered (getContractInfo k addr) d (some info) d := by
    refine (Unmetered.getKV (k := k) (by simp [getContractAddressKey, contractKeyPrefix]) d).bind ?_
    rw [hinfo]
    exact .pure _ d
  have hauth : Unmetered (authorize (X := X) c policy (.ok (policy.canModifyContract admin caller))
      (.wrap errUnauthorized "can not modify contract")) d () d := by
    refine .bind (.update (fun _ hw ↦ hw) fun _ ↦ rfl) (.bind (.liftPanic rfl d) ?_)
    exact .require hpolicy _ d
  have hrecord : Unmetered (recordChange (X := X) c kind addr caller policy (change info)) d ()
      (d.recording (changeOf d.kv kind addr caller policy c.stack (change info))) := by
    refine .update ?_ fun _ ↦ rfl
    rintro w rfl
    rfl
  have hkey : getContractAddressKey addr ≠ [] := by simp [getContractAddressKey, contractKeyPrefix]
  exact ⟨_, hget.bind ((Unmetered.liftPanic hadmin d).bind (hauth.bind (hrecord.bind (.setKV hkey _ _))))⟩

section Request

variable {α : Type} {valid : Except Err Unit} {sender contract : String} {f : AccAddress → AccAddress → M X α}

/-- The checks with which the three handlers begin. -/
def request (k : Keeper X) (valid : Except Err Unit) (sender contract : String) (f : AccAddress → AccAddress → M X α) :
    M X α := do
  Program.lift valid
  let senderAddr ← MsgServer.decode k sender "sender"
  let contractAddr ← MsgServer.decode k contract "contract"
  f senderAddr contractAddr

theorem ensures_request {post : AccAddress → AccAddress → Durable X → Prop}
    (hf : ∀ a b, Ensures (f a b) fun d _ _ ↦ post a b d) :
    Ensures (request k valid sender contract f) fun d _ _ ↦ ∃ a b, valid = .ok () ∧
      k.bech32.fromBech32 sender = .ok a ∧ k.bech32.fromBech32 contract = .ok b ∧ post a b d := by
  refine ((Ensures.lift valid).bind fun _ ↦ (ensures_decode sender "sender").bind fun a ↦
    (ensures_decode contract "contract").bind (hf a)).mono ?_
  rintro d r d' ⟨_, _, ⟨hv, rfl⟩, a, _, ⟨ha, rfl⟩, b, _, ⟨hb, rfl⟩, hpost⟩
  exact ⟨a, b, hv, ha, hb, hpost⟩

theorem unmetered_request {a b : AccAddress} {r : α} {d' : Durable X} (hv : valid = .ok ())
    (ha : k.bech32.fromBech32 sender = .ok a) (hb : k.bech32.fromBech32 contract = .ok b)
    (hf : Unmetered (f a b) d r d') : Unmetered (request k valid sender contract f) d r d' :=
  (Unmetered.lift hv d).bind ((Unmetered.lift (wrap_eq_ok.2 ha) d).bind ((Unmetered.lift (wrap_eq_ok.2 hb) d).bind hf))

end Request

/-- What holds whenever a program's first part returns. -/
theorem ensures_of_first {α β : Type} {first : M X α} {rest : α → M X β} {P : Durable X → Prop}
    (hfirst : Ensures first fun d _ _ ↦ P d) : Ensures (first >>= rest) fun d _ _ ↦ P d := by
  intro w b w' hr
  obtain ⟨a, w₁, hr, -⟩ := Program.bind_eq_ok.1 hr
  exact hfirst hr

theorem ensures_serve_modify {s : String} (hm : modifiedContract m = some s) : Ensures (serve k h c m) fun d _ _ ↦
    Admitted k (selectAuthorizationPolicy k c m.sender) m d := by
  have collect : ∀ {f : AccAddress → AccAddress → M X MsgServiceResponse},
      (∀ a b, Ensures (f a b) fun d _ _ ↦ ∃ info admin, InfoStored b info d ∧ adminAddr k info = .ok admin ∧
        (selectAuthorizationPolicy k c m.sender).canModifyContract admin a = true) →
      Ensures (request k (Msg.validateBasic k m) m.sender s f) fun d _ _ ↦
        Admitted k (selectAuthorizationPolicy k c m.sender) m d := by
    intro f hf
    refine (ensures_request hf).mono ?_
    rintro d _ _ ⟨a, b, hvalid, ha, hb, info, admin, hinfo, hadmin, hpolicy⟩
    exact ⟨hvalid, b, info, admin, a, ⟨s, hm, hb, hinfo⟩, hadmin, ha, hpolicy⟩
  cases m with
  | updateAdmin m =>
    cases hm
    refine collect fun a b ↦ ?_
    intro w _ w' hr
    obtain ⟨newAdmin, w₁, hdec, hr⟩ := Program.bind_eq_ok.1 hr
    have hd := (ensures_decode _ _ hdec).2
    rw [← hd]
    exact ensures_of_first (ensures_of_first ensures_modifyContract) hr
  | clearAdmin m =>
    cases hm
    exact collect fun a b ↦ ensures_of_first (ensures_of_first ensures_modifyContract)
  | updateContractLabel m =>
    cases hm
    exact collect fun a b ↦ ensures_of_first (ensures_of_first ensures_modifyContract)
  | _ => cases hm

/-- A valid update of the admin names an admin. -/
theorem newAdmin_of_valid {u : MsgUpdateAdmin} (hvalid : Msg.validateBasic k (.updateAdmin u) = .ok ()) :
    ∃ a, k.bech32.fromBech32 u.newAdmin = .ok a := by
  obtain ⟨_, -, hvalid⟩ := except_bind_eq_ok.1 hvalid
  obtain ⟨_, -, hvalid⟩ := except_bind_eq_ok.1 hvalid
  obtain ⟨_, hnew, -⟩ := except_bind_eq_ok.1 hvalid
  obtain ⟨a, ha, -⟩ := except_bind_eq_ok.1 hnew
  exact ⟨a, wrap_eq_ok.1 ha⟩

theorem unmetered_serve_modify (hm : Admitted k (selectAuthorizationPolicy k c m.sender) m d) :
    ∃ r d', Unmetered (serve k h c m) d r d' := by
  obtain ⟨hvalid, addr, info, admin, caller, ⟨s, hs, haddr, hinfo⟩, hadmin, hcaller, hpolicy⟩ := hm
  have hmodify : ∀ kind change, ∃ d', Unmetered (modifyContract k c kind addr caller
      (selectAuthorizationPolicy k c m.sender) change) d () d' :=
    fun kind change ↦ unmetered_modifyContract hinfo hadmin hpolicy
  cases m with
  | updateAdmin m =>
    cases hs
    obtain ⟨newAdmin, hnew⟩ := newAdmin_of_valid hvalid
    obtain ⟨d', hd'⟩ := hmodify .admin fun i ↦ { i with admin := k.bech32.string newAdmin }
    refine ⟨.empty, d', unmetered_request hvalid hcaller haddr ?_⟩
    exact (Unmetered.lift (wrap_eq_ok.2 hnew) d).bind (.bind (hd'.bind (.emitEvents _ d')) (.pure _ d'))
  | clearAdmin m =>
    cases hs
    obtain ⟨d', hd'⟩ := hmodify .admin fun i ↦ { i with admin := k.bech32.string [] }
    exact ⟨.empty, d', unmetered_request hvalid hcaller haddr (.bind (hd'.bind (.emitEvents _ d')) (.pure _ d'))⟩
  | updateContractLabel m =>
    cases hs
    obtain ⟨d', hd'⟩ := hmodify .label fun i ↦ { i with label := m.newLabel }
    exact ⟨.empty, d', unmetered_request hvalid hcaller haddr (.bind (hd'.bind (.emitEvents _ d')) (.pure _ d'))⟩
  | _ => cases hs

/-- Some world in this state sees the message through exactly if it is admitted. -/
theorem handled_iff {s : String} (hm : modifiedContract m = some s) :
    (∃ w r w', durable w = d ∧ handleMsg k h c m w = (.ok r, w')) ↔
      Admitted k (selectAuthorizationPolicy k c m.sender) m d := by
  have hselect : selectAuthorizationPolicy k (c.push (.message m)) m.sender = selectAuthorizationPolicy k c m.sender :=
    rfl
  rw [← hselect]
  constructor
  · rintro ⟨w, r, w', rfl, hr⟩
    have hserve := ensures_settle (ensures_serve_modify (k := k) (h := h) (c := c.push (.message m)) hm)
    exact hserve hr
  · intro hadmitted
    obtain ⟨r, d', hserve⟩ := unmetered_serve_modify (h := h) hadmitted
    obtain ⟨w', hr, -, -⟩ := hserve (worldOf d) rfl rfl
    refine ⟨worldOf d, r, w', rfl, ?_⟩
    rw [handleMsg, settle, hr]

end Modify

/-- A policy under which anybody may change a contract: that of the authority, or what it hands down with a
migration. -/
def Widened (k : Keeper X) (c : Ctx) (m : Msg) : Prop :=
  m.sender = k.authority ∨ standing c.stack = .partialGov .migrateContract

/-- A valid message names its sender. -/
theorem sender_of_valid {s : String} (hm : modifiedContract m = some s) (hvalid : Msg.validateBasic k m = .ok ()) :
    ∃ a, k.bech32.fromBech32 m.sender = .ok a := by
  cases m with
  | updateAdmin m | clearAdmin m | updateContractLabel m =>
    obtain ⟨_, hsender, -⟩ := except_bind_eq_ok.1 hvalid
    obtain ⟨a, ha, -⟩ := except_bind_eq_ok.1 hsender
    exact ⟨a, wrap_eq_ok.1 ha⟩
  | _ => cases hm

theorem admitted_of_widened (hc : OnPath k c) (hw : Widened k c m) (happ : Applicable k m d) :
    Admitted k (selectAuthorizationPolicy k c m.sender) m d := by
  obtain ⟨hvalid, addr, info, admin, hinfo, hadmin⟩ := happ
  obtain ⟨s, hs, -⟩ := id hinfo
  obtain ⟨caller, hcaller⟩ := sender_of_valid hs hvalid
  refine ⟨hvalid, addr, info, admin, caller, hinfo, hadmin, hcaller, ?_⟩
  unfold selectAuthorizationPolicy
  split
  · rfl
  · next hsender =>
    rw [hc.policy, hw.resolve_left hsender]
    rfl

/-- The policy of the authority is never handed down as it is. -/
theorem standing_ne_gov (s : List Frame) (propagate : List AuthorizationPolicyAction) : standing s ≠ .gov propagate := by
  intro hgov
  have hsub := standing_sub s .instantiate
  rw [hgov, AuthorizationPolicy.subMessageAuthorizationPolicy] at hsub
  split at hsub <;> cases hsub

/-- The default policy, and what is handed down with an instantiation, let only the admin through. -/
theorem sentByAdmin_of_admitted (hc : OnPath k c) (hw : ¬Widened k c m)
    (hm : Admitted k (selectAuthorizationPolicy k c m.sender) m d) : SentByAdmin k m d := by
  obtain ⟨-, addr, info, admin, caller, hinfo, hadmin, hcaller, hpolicy⟩ := hm
  obtain ⟨hsender, hstanding⟩ := not_or.1 hw
  rw [selectAuthorizationPolicy, if_neg hsender, hc.policy] at hpolicy
  refine ⟨addr, info, caller, hinfo, admin_of_canModify hadmin ?_, hcaller⟩
  rcases hst : standing c.stack with _ | propagate | _ | _ <;> rw [hst] at hpolicy
  · exact hpolicy
  · exact absurd hst (standing_ne_gov _ _)
  · exact hpolicy
  · exact absurd hst hstanding

theorem applicable_of_admitted {p : AuthorizationPolicy} (hm : Admitted k p m d) : Applicable k m d := by
  obtain ⟨hvalid, addr, info, admin, -, hinfo, hadmin, -, -⟩ := hm
  exact ⟨hvalid, addr, info, admin, hinfo, hadmin⟩

/-- Below a migration by the authority that passes its permission on, a message about an admin or a label succeeds for
the admin alone exactly if its sender is the admin, it does not apply, or the policy over it is no longer the one that was
passed on. As long as the authority sends nothing more it is. -/
theorem modify_below_migrate {root : Msg} {a : AccAddress} {p : AuthorizationPolicy} {below s : List Frame}
    (hc : OnPath k c) (hstack : c.stack = below ++ .call .migrate a (some p) :: .message root :: s)
    (hroot : root.sender = k.authority) (hpropagate : .migrateContract ∈ k.propagateGovAuthorization)
    {contract : String} (hm : modifiedContract m = some contract) (d : Durable X) :
    ((∀ w r w', durable w = d → handleMsg k h c m w = (.ok r, w') → SentByAdmin k m d) ↔
      SentByAdmin k m d ∨ ¬Applicable k m d ∨ ¬Widened k c m) ∧
    (Unprivileged k below → Widened k c m) := by
  refine ⟨⟨fun honly ↦ ?_, fun hcond w r w' hw hr ↦ ?_⟩, fun hun ↦ .inr ?_⟩
  · by_cases happ : Applicable k m d
    · by_cases hwide : Widened k c m
      · obtain ⟨w, r, w', hw, hr⟩ := (handled_iff (h := h) hm).2 (admitted_of_widened hc hwide happ)
        exact .inl (honly w r w' hw hr)
      · exact .inr (.inr hwide)
    · exact .inr (.inl happ)
  · have hadmitted := (handled_iff hm).1 ⟨w, r, w', hw, hr⟩
    rcases hcond with hadmin | happ | hwide
    · exact hadmin
    · exact absurd (applicable_of_admitted hadmitted) happ
    · exact sentByAdmin_of_admitted hc hwide hadmitted
  · have hpath := hc.path
    rw [hstack] at hpath ⊢
    have hp : p = .gov k.propagateGovAuthorization := by
      cases Path.of_append hpath with
      | migrate _ _ => rw [policyFor, if_pos hroot]
    rw [standing_below_migrate hpath hun, hp, AuthorizationPolicy.subMessageAuthorizationPolicy,
      if_pos hpropagate]

section Plainnet

def erin : String := plainBech32.string [4]

/-- A contract that, once migrated, gives the second contract to Erin. -/
def grabbing (code : Bytes) : ContractCall → VMScript Response
  | .migrate _ _ =>
    .done 0 (.ok (some { ok := some { messages := [
      { id := 1, replyOn := .never, msg := { wasm := some (.updateAdmin (plainBech32.string contractTwo) erin) } }] } }))
  | c => idleContract code c

/-- A chain whose governance passes on its permission to migrate. -/
def migratingNet : Keeper Unit := { plainnet grabbing with propagateGovAuthorization := [.migrateContract] }

def govMigrates : Msg :=
  .migrateContract {
    sender := migratingNet.authority, contract := plainBech32.string contractOne, codeID := 1,
    msg := stringToBytes "\x7b\x7d" }

def givesToErin : Msg :=
  .updateAdmin { sender := plainBech32.string contractOne, newAdmin := erin, contract := plainBech32.string contractTwo }

/-- Two contracts of Carol's. -/
def twoContracts : Durable Unit :=
  delivered migratingNet (durable openWorld) [storeCodeMsg carol, instantiateMsg carol, instantiateMsg carol]

def secondInfo : ContractInfo := ⟨1, carol, carol, "contract", some ⟨1, 0⟩, "", none⟩

theorem secondInfo_stored : InfoStored contractTwo secondInfo twoContracts := by
  unfold InfoStored
  decide +kernel

theorem givesToErin_not_by_admin : ¬SentByAdmin migratingNet givesToErin twoContracts := by
  rintro ⟨addr, info, a, ⟨s, hs, haddr, hinfo⟩, hadmin, hsender⟩
  cases hs
  have htwo : plainBech32.fromBech32 (plainBech32.string contractTwo) = .ok contractTwo := by decide +kernel
  cases htwo.symm.trans haddr
  cases secondInfo_stored.symm.trans hinfo
  have hcarol : plainBech32.fromBech32 carol = .ok [1] := by decide +kernel
  cases hcarol.symm.trans hadmin
  have hone : plainBech32.fromBech32 (plainBech32.string contractOne) = .ok contractOne := by decide +kernel
  cases hone.symm.trans hsender

/-- Where the messages of the migrated contract are handled. -/
def migratedCtx : Ctx :=
  ((genesisCtx.push (.message govMigrates)).push
    (.call .migrate contractOne (some (.gov [.migrateContract])))).withSubMsgAuthzPolicy (.partialGov .migrateContract)

theorem onPath_migratedCtx : OnPath migratingNet migratedCtx := by
  refine ⟨.migrate (m := govMigrates) (s := []) (.message .root govMigrates) (.migrateContract ?_), rfl⟩
  decide +kernel

theorem modify_below_migrate_erin :
    let k := migratingNet
    ((∀ w r w', durable w = twoContracts →
        handleMsg k (responseHandler k 5) migratedCtx givesToErin w = (.ok r, w') → SentByAdmin k givesToErin twoContracts) ↔
      SentByAdmin k givesToErin twoContracts ∨ ¬Applicable k givesToErin twoContracts ∨
        ¬Widened k migratedCtx givesToErin) ∧
    (Unprivileged k [] → Widened k migratedCtx givesToErin) := by
  have hroot : govMigrates.sender = migratingNet.authority := rfl
  exact modify_below_migrate (s := []) onPath_migratedCtx rfl hroot (by decide) rfl twoContracts

/-- Governance migrates the first contract, and in that migration the first contract changes the admin of the second,
which is Carol's. -/
theorem first_gives_second_away :
    let k := migratingNet
    let d' := delivered k twoContracts [govMigrates]
    (newChanges twoContracts d').map (fun ch ↦ (ch.kind, ch.contract, ch.stack.take 1, ch.failed)) =
        [(.migrate, contractOne, [.message govMigrates], false), (.admin, contractTwo, [.message givesToErin], false)] ∧
      InfoStored contractTwo secondInfo twoContracts ∧ ¬SentByAdmin k givesToErin twoContracts ∧
        InfoStored contractTwo { secondInfo with admin := erin } d' := by
  refine ⟨?_, secondInfo_stored, givesToErin_not_by_admin, ?_⟩
  · decide +kernel
  · unfold InfoStored
    decide +kernel

end Plainnet

end Cosmwasgo.Properties
