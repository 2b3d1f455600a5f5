import Cosmwasgo.Registry.Preservation
import Cosmwasgo.Runs.Entries
import Cosmwasgo.Runs.Roots

namespace Cosmwasgo.Properties

open Cosmwasgo.Lib Cosmwasgo.Types Cosmwasgo.State Cosmwasgo.Keeper Cosmwasgo.Runs Cosmwasgo.Registry

variable {X α : Type} {k : Keeper X} {h : ResponseHandler X} {c : Ctx} {w w₁ w₂ : World X}

/-- A contract's messages on their way. -/
def IsDispatch : Observation X → Prop
  | .dispatch _ => True
  | .submsg .. => True
  | _ => False

/-- No message is dispatched, and the infos, histories and indexes of the contracts stay as they are. -/
structure Still (w w' : World X) : Prop where
  trace : ∃ added, w'.trace = w.trace ++ added ∧ ∀ o ∈ added, ¬ IsDispatch o
  records : ∀ key, IsRegistryKey key → w'.store.kv.get key = w.store.kv.get key

section Stillness

theorem Still.refl (w : World X) : Still w w := ⟨⟨[], by simp, by simp⟩, fun _ _ ↦ rfl⟩

theorem Still.trans (h₁ : Still w w₁) (h₂ : Still w₁ w₂) : Still w w₂ := by
  obtain ⟨added₁, ht₁, hd₁⟩ := h₁.trace
  obtain ⟨added₂, ht₂, hd₂⟩ := h₂.trace
  refine ⟨⟨added₁ ++ added₂, by rw [ht₂, ht₁, List.append_assoc], fun o ho ↦ ?_⟩, fun key hk ↦
    (h₂.records key hk).trans (h₁.records key hk)⟩
  rcases List.mem_append.1 ho with ho | ho
  · exact hd₁ o ho
  · exact hd₂ o ho

theorem Still.of_keeps {o : Option AccAddress} {x : Exit} (hk : Keeps o w x w₁) : Still w w₁ :=
  ⟨⟨[], by rw [hk.trace, List.append_nil], by simp⟩, fun key hkey ↦ hk.quiet.records key hkey.not_state⟩

/-- A panic is not asked about: nothing it leaves behind is kept. -/
def stillness (X : Type) : Discipline (World X) where
  rel w x w' := x ≠ .panic → Still w w'
  refl w _ := .refl w
  trans h₁ h₂ hx := (h₁ nofun).trans (h₂ hx)
  abort w _ := .refl w
  expire w _ := .refl w

theorem still_local {m : M X α} (hm : Local none m) : (stillness X).Obeys m :=
  fun w _ ↦ .of_keeps (hm.keeps w)

theorem still_observe {o : Observation X} (ho : ¬ IsDispatch o) : (stillness X).Obeys (observe o) :=
  fun _ _ ↦ ⟨⟨[o], rfl, by simpa using ho⟩, fun _ _ ↦ rfl⟩

theorem still_authorize (c : Ctx) (policy : AuthorizationPolicy) (decision : Except Panic Bool) (e : Err) :
    (stillness X).Obeys (authorize c policy decision e) :=
  (still_observe id).bind fun _ ↦ (still_local (.liftPanic _)).bind fun _ ↦ still_local (.require _ _)

/-- A new address uses up an instance number at most. -/
theorem still_generates {gen : AddressGenerator X} (hgen : Regime.Generates k gen) (codeID : UInt64) (checksum : Bytes) :
    (stillness X).Obeys (gen codeID checksum) := by
  intro w hx
  have hw := hgen codeID checksum
  have ht := hw.trace w
  rcases hr : gen codeID checksum w with ⟨a | e | p | _, w'⟩ <;> rw [hr] at ht hx
  · obtain ⟨kv, hclaim, hd⟩ := hw.post w a w' hr
    refine ⟨⟨[], by simpa using ht, by simp⟩, fun key hkey ↦ ?_⟩
    have hkv : w'.store.kv = kv := congrArg Durable.kv hd
    rw [hkv]
    exact hclaim.get (hkey.ne (by simp [IsRegistryKey]))
  · have hexit := hw.exits w
    rw [hr] at hexit
    simp at hexit
  · exact absurd rfl hx
  · have hexit := hw.exits w
    rw [hr] at hexit
    simp at hexit

theorem still_newAddress {gen : AddressGenerator X} (hgen : Regime.Generates k gen) (codeID : UInt64) (checksum : Bytes) :
    (stillness X).Obeys (newAddress k gen codeID checksum) :=
  (still_generates hgen codeID checksum).bind fun addr ↦
    (still_local (.hasContractInfo addr)).bind fun _ ↦ (still_observe id).bind fun _ ↦ .pure _

/-- The start of all entry points of an existing contract. -/
theorem still_contractInstance {addr : AccAddress} {f : ContractInfo × CodeInfo → M X α}
    (hf : ∀ info code, (stillness X).Obeys (f (info, code))) : (stillness X).Obeys (contractInstance k addr >>= f) :=
  (still_local (.contractInstance addr)).bind fun (info, code) ↦ hf info code

theorem still_prepare (e : ContractEntry) : (stillness X).Obeys (e.prepare k h c) := by
  have call : ∀ {ρ α : Type} {env : Except Panic Env} {stack : List Frame} {f : Env → Invocation X ρ α},
      (stillness X).Obeys (liftPanic env >>= fun env ↦ observe (.call stack) >>= fun _ ↦ pure (some (f env))) := fun {_ _ _ _ _} ↦
    (still_local (.liftPanic _)).bind fun _ ↦ (still_observe id).bind fun _ ↦ .pure _
  cases e with
  | instantiate codeID creator admin initMsg label funds salted policy =>
    refine (still_local (.require _ _)).bind fun _ ↦ (still_local (.getCodeInfo codeID)).bind fun code ↦ ?_
    cases code with
    | none => exact .fail _
    | some code =>
      refine (still_local (.chargeSetup _ _ _ _)).bind fun _ ↦ (still_authorize _ _ _ _).bind fun _ ↦ ?_
      refine (still_newAddress (ContractEntry.generates_generator _ _ _) _ _).bind fun (addr, taken) ↦ ?_
      refine (still_local (.require _ _)).bind fun _ ↦ (still_local (.prepareAccount addr)).bind fun _ ↦ ?_
      exact (still_local (.deposit _ _ _)).bind fun _ ↦ call
  | execute contract caller msg coins =>
    refine still_contractInstance fun info code ↦ (still_local (.chargeSetup _ _ _ _)).bind fun _ ↦ ?_
    exact (still_local (.deposit _ _ _)).bind fun _ ↦ call
  | migrate contract caller codeID msg policy =>
    refine (still_local (.getContractInfo contract)).bind fun info ↦ ?_
    cases info with
    | none => exact .fail _
    | some info =>
      refine (still_local (.liftPanic _)).bind fun admin ↦ (still_authorize _ _ _ _).bind fun _ ↦ ?_
      refine (still_local (.getCodeInfo codeID)).bind fun code ↦ ?_
      cases code with
      | none => exact .fail _
      | some code =>
        refine (still_authorize _ _ _ _).bind fun _ ↦ (still_local (.analyzeCode _ _)).bind fun report ↦ ?_
        refine (still_local (.migratedPort _ _ _)).bind fun port ↦ ?_
        refine (still_local (.getCodeInfo _)).bind fun old ↦ (still_local (.deref old)).bind fun old ↦ ?_
        refine (still_local (.analyzeCode _ _)).bind fun oldReport ↦ .ite (fun _ ↦ .pure _) fun _ ↦ ?_
        exact (still_local (.chargeSetup _ _ _ _)).bind fun _ ↦ call
  | sudoContract contract msg =>
    exact still_contractInstance fun info code ↦ (still_local (.chargeSetup _ _ _ _)).bind fun _ ↦ call
  | reply contract r =>
    refine still_contractInstance fun info code ↦ (still_local (.liftPanic _)).bind fun _ ↦ ?_
    exact (still_local (.consumeGas _ _)).bind fun _ ↦ call
  | query fuel contract req =>
    refine (still_local (.lift _)).bind fun c ↦ still_contractInstance fun info code ↦ ?_
    refine (still_local (.chargeSetup _ _ _ _)).bind fun _ ↦ ?_
    exact (still_local (.liftPanic _)).bind fun _ ↦ .pure _
  | openChannel contract msg => exact still_contractInstance fun info code ↦ call
  | ibc entry contract msg => exact still_contractInstance fun info code ↦ call
  | receivePacket contract packet relayer => exact still_contractInstance fun info code ↦ call

end Stillness

/-- The contract may answer with messages: all entry points but queries and the consent to a channel. -/
def AnswersWithMessages : ContractEntry → Bool
  | .query .. => false
  | .openChannel .. => false
  | _ => true

def isErrorAck : (e : ContractEntry) → e.Result → Bool
  | .receivePacket .., some (.error _) => true
  | _, _ => false

/-- The call ends with an error or an error acknowledgement. -/
inductive Refused (e : ContractEntry) : Outcome Err Panic e.Result → Prop
  | error (x : Err) : Refused e (.error x)
  | ack {r : e.Result} (hr : isErrorAck e r = true) : Refused e (.ok r)

/-- The call is turned down and leaves nothing behind. -/
structure Rejects (k : Keeper X) (h : ResponseHandler X) (c : Ctx) (e : ContractEntry) (w : World X) : Prop where
  refused : Refused e (e.run k h c w).1
  still : Still w (e.run k h c w).2

/-- A new contract with IBC entry points does not get its port. -/
def PortRefused (k : Keeper X) (w : World X) : (e : ContractEntry) → Invocation X e.Answer e.Result → Prop
  | .instantiate .., v => ∃ code, w.vm.codes.get v.checksum = some code ∧
      (k.wasmVM.analyze code).hasIBCEntryPoints = true ∧
      k.host.getCapability w.store.ext ("ports/" ++ portIDForContract k v.addr) = false ∧
      (external (k.host.bindIbcPort (portIDForContract k v.addr)) w).1.exit = .error
  | _, _ => False

section Conclusion

/-- What the keeper makes of an answer without a success in it. -/
structure Concludes (k : Keeper X) (e : ContractEntry) (v : Invocation X e.Answer e.Result) : Prop where
  failed : ∀ {r : ContractResult e.Answer} (w), r.err ≠ "" →
    Refused e (v.conclude (.ok (some r)) w).1 ∧ (v.conclude (.ok (some r)) w).2 = w
  empty : ∀ {r : ContractResult e.Answer} {w}, r.ok = none → r.err = "" → (w.vm.codes.get v.checksum).isSome →
    (Refused e (v.conclude (.ok (some r)) w).1 ↔ PortRefused k w e v) ∧
      (PortRefused k w e v → Still w (v.conclude (.ok (some r)) w).2)

theorem refused_error_iff {e : ContractEntry} {o : Outcome Err Panic e.Result} (ho : ∀ r, isErrorAck e r = false) :
    Refused e o ↔ o.exit = .error := by
  constructor
  · rintro (x | hr)
    · rfl
    · rw [ho] at hr
      cases hr
  · intro hx
    cases o with
    | error x => exact .error x
    | ok r => cases hx
    | panic p => cases hx
    | timeout => cases hx

/-- The shape of all conclusions but that of a received packet. -/
theorem concludes_of {e : ContractEntry} {v : Invocation X e.Answer e.Result} {vmFailed failed : Err}
    {f : Option e.Answer → M X e.Result} (hack : ∀ r, isErrorAck e r = false)
    (hv : ∀ res, v.conclude res = Program.lift (contractResult vmFailed failed res) >>= f)
    (hempty : ∀ w, (w.vm.codes.get v.checksum).isSome → ((f none w).1.exit = .error ↔ PortRefused k w e v) ∧
      (PortRefused k w e v → Still w (f none w).2)) : Concludes k e v where
  failed {r} w hr := by
    have hres : contractResult vmFailed failed (.ok (some r)) = .error (.deterministic (.wrap failed r.err)) := if_pos hr
    rw [hv, hres]
    exact ⟨.error _, rfl⟩
  empty {r w} hok hr hcode := by
    have hres : contractResult vmFailed failed (.ok (some r)) = .ok none := by
      rw [← hok]
      exact if_neg (not_not.2 hr)
    rw [hv, hres, Program.lift_ok, Program.pure_bind, refused_error_iff hack]
    exact hempty w hcode

theorem writes_ne_error {m : M X α} {post : Durable X → α → Durable X → Prop} (hm : Writes m post) (w : World X) :
    (m w).1.exit ≠ .error := by
  rcases hm.exits w with hx | hx <;> simp [hx]

/-- A nil response is dereferenced. -/
theorem deref_none_ne_error {β : Type} (f : α → M X β) (w : World X) : ((deref none >>= f) w).1.exit ≠ .error := nofun

theorem instancePort_eq_error {addr : AccAddress} {report : AnalysisReport} (w : World X) :
    (instancePort k addr report w).1.exit = .error ↔ report.hasIBCEntryPoints = true ∧
      k.host.getCapability w.store.ext ("ports/" ++ portIDForContract k addr) = false ∧
      (external (k.host.bindIbcPort (portIDForContract k addr)) w).1.exit = .error := by
  unfold instancePort
  cases report.hasIBCEntryPoints with
  | false => exact iff_of_false (fun hx ↦ by cases hx) fun hx ↦ by cases hx.1
  | true =>
    rw [if_pos rfl, ensureIbcPort, Program.read_bind_apply]
    cases k.host.getCapability w.store.ext ("ports/" ++ portIDForContract k addr) with
    | true => exact iff_of_false (fun hx ↦ by cases hx) fun hx ↦ by cases hx.2.1
    | false =>
      have hbind := Program.exit_bind_eq_error (m := external (k.host.bindIbcPort (portIDForContract k addr)))
        (f := fun _ ↦ pure (portIDForContract k addr)) (fun _ _ hx ↦ by cases hx) w
      exact ⟨fun hx ↦ ⟨rfl, rfl, hbind.1 hx⟩, fun hx ↦ hbind.2 hx.2.2⟩

theorem position_of_env {addr : AccAddress} {env : Env} (henv : newEnv k c addr = .ok env) :
    ∃ pos, newAbsoluteTxPosition c = .ok pos := by
  unfold newEnv at henv
  split at henv
  · cases henv
  · next hheight => exact ⟨_, if_neg hheight⟩

theorem analyzeCode_of_get {checksum code : Bytes} (hcode : w.vm.codes.get checksum = some code) (e : Err) :
    analyzeCode k checksum e w = (.ok (k.wasmVM.analyze code), w) := by
  rw [analyzeCode, Program.read_bind_apply, hcode]
  rfl

/-- A registration that cannot fail once the contract has its port. -/
theorem registers_unless_refused {β : Type} {checksum code : Bytes} (addr : AccAddress) {f : String → M X β}
    (hcode : w.vm.codes.get checksum = some code) (hf : ∀ port t, (f port t).1.exit ≠ .error) :
    let m := analyzeCode k checksum errVMError >>= fun report ↦ instancePort k addr report >>= f
    let refused := (k.wasmVM.analyze code).hasIBCEntryPoints = true ∧
      k.host.getCapability w.store.ext ("ports/" ++ portIDForContract k addr) = false ∧
      (external (k.host.bindIbcPort (portIDForContract k addr)) w).1.exit = .error
    ((m w).1.exit = .error ↔ refused) ∧ (refused → Still w (m w).2) := by
  dsimp only
  rw [Program.bind_of_ok _ (analyzeCode_of_get hcode errVMError), Program.exit_bind_eq_error hf, instancePort_eq_error]
  refine ⟨Iff.rfl, fun hx ↦ ?_⟩
  rw [Program.snd_bind_of_error _ ((instancePort_eq_error w).2 hx)]
  exact .of_keeps ((Local.instancePort (o := none) addr _).keeps w)

theorem yields_concludes {e : ContractEntry} (he : AnswersWithMessages e = true) :
    Yields (Concludes k e) (e.prepare k h c) := by
  cases e with
  | instantiate codeID creator admin initMsg label funds salted policy =>
    refine .bind fun _ ↦ .bind fun code ↦ ?_
    cases code with
    | none => exact .fail _
    | some code =>
      refine .bind fun _ ↦ .bind fun _ ↦ .bind fun r ↦ ?_
      obtain ⟨addr, taken⟩ := r
      refine .bind fun _ ↦ .bind fun _ ↦ .bind fun _ ↦ ?_
      refine .liftPanic fun env henv ↦ .bind fun _ ↦ .call (concludes_of (fun _ ↦ rfl) (fun _ ↦ rfl) fun w hcode ↦ ?_)
      obtain ⟨pos, hpos⟩ := position_of_env henv
      obtain ⟨bytes, hbytes⟩ := Option.isSome_iff_exists.1 hcode
      rw [hpos]
      have hport := registers_unless_refused (k := k) addr hbytes (f := fun ibcPortID ↦ do
        persistInstance k c creator addr initMsg { newContractInfo k codeID creator admin label pos with ibcPortID } policy
        emitContractEvent k "instantiate" addr [codeIDAttribute codeID]
        let response ← deref none
        let c' := (c.push (.call .instantiate addr (some policy))).withSubMsgAuthzPolicy
          (policy.subMessageAuthorizationPolicy .instantiate)
        let data ← wrapErr (handleContractResponse k h c' addr ibcPortID response) "dispatch"
        return (addr, data)) fun port t ↦ ?_
      · refine ⟨hport.1.trans ⟨fun hx ↦ ⟨bytes, hbytes, hx⟩, ?_⟩, ?_⟩
        · rintro ⟨_, hb, hx⟩
          cases hbytes.symm.trans hb
          exact hx
        · rintro ⟨_, hb, hx⟩
          cases hbytes.symm.trans hb
          exact hport.2 hx
      · refine fun hx ↦ writes_ne_error (Writes.persistInstance k _ _ _ _ _ _) t ((Program.exit_bind_eq_error ?_ t).1 hx)
        exact fun _ _ ↦ show Exit.panic ≠ Exit.error by decide
  | execute contract caller msg coins =>
    refine .bind fun r ↦ .bind fun _ ↦ .bind fun _ ↦ .bind fun env ↦ .bind fun _ ↦ ?_
    exact .call (concludes_of (fun _ ↦ rfl) (fun _ ↦ rfl) fun w _ ↦ ⟨iff_of_false (fun hx ↦ by cases hx) id, False.elim⟩)
  | migrate contract caller codeID msg policy =>
    refine .bind fun info ↦ ?_
    cases info with
    | none => exact .fail _
    | some info =>
      refine .bind fun admin ↦ .bind fun _ ↦ .bind fun code ↦ ?_
      cases code with
      | none => exact .fail _
      | some code =>
        refine .bind fun _ ↦ .bind fun report ↦ .bind fun port ↦ .bind fun old ↦ .bind fun old ↦ .bind fun oldReport ↦ ?_
        dsimp only
        split
        · exact .skip
        · refine .bind fun _ ↦ .bind fun env ↦ .bind fun _ ↦ ?_
          refine .call (concludes_of (fun _ ↦ rfl) (fun _ ↦ rfl) fun w _ ↦ ⟨iff_of_false ?_ id, False.elim⟩)
          -- the registry is updated as if the entry point had been skipped
          refine fun hx ↦ writes_ne_error (Writes.persistMigration k _ _ _ _ _ _ _) w ((Program.exit_bind_eq_error ?_ w).1 hx)
          exact fun _ _ ↦ show Exit.ok ≠ Exit.error by decide
  | sudoContract contract msg =>
    refine .bind fun r ↦ .bind fun _ ↦ .bind fun env ↦ .bind fun _ ↦ ?_
    exact .call (concludes_of (fun _ ↦ rfl) (fun _ ↦ rfl) fun w _ ↦ ⟨iff_of_false (fun hx ↦ by cases hx) id, False.elim⟩)
  | reply contract r =>
    refine .bind fun r ↦ .bind fun _ ↦ .bind fun _ ↦ .bind fun env ↦ .bind fun _ ↦ ?_
    exact .call (concludes_of (fun _ ↦ rfl) (fun _ ↦ rfl) fun w _ ↦ ⟨iff_of_false (fun hx ↦ by cases hx) id, False.elim⟩)
  | query fuel contract req => cases he
  | openChannel contract msg => cases he
  | ibc entry contract msg =>
    refine .bind fun r ↦ .bind fun env ↦ .bind fun _ ↦ ?_
    exact .call (concludes_of (fun _ ↦ rfl) (fun _ ↦ rfl) fun w _ ↦ ⟨iff_of_false (fun hx ↦ by cases hx) id, False.elim⟩)
  | receivePacket contract packet relayer =>
    refine .bind fun _ ↦ .bind fun env ↦ .bind fun _ ↦ .call ⟨fun {r} w hr ↦ ?_, fun {r w} hok hr _ ↦ ?_⟩
    · dsimp only
      rw [if_pos hr]
      exact ⟨.ack rfl, rfl⟩
    · refine ⟨iff_of_false ?_ id, False.elim⟩
      dsimp only
      rw [if_neg (not_not.2 hr), hok]
      intro hx
      cases hx

/-- A contract that answers has its code in the cache. -/
theorem code_of_answer {e : ContractEntry} {v : Invocation X e.Answer e.Result} {r : ContractResult e.Answer}
    (hcall : v.call k w₁ = (.ok (.ok (some r)), w₂)) : (w₂.vm.codes.get v.checksum).isSome := by
  have hkeeps := (v.call_local k).keeps w₁
  rw [hcall] at hkeeps
  have hvm : w₂.vm = w₁.vm := hkeeps.quiet.vm
  obtain ⟨gasLeft, w', hgas, hrun⟩ := Program.bind_eq_ok.1 hcall
  have hgas' := (Local.runtimeGasForContract (o := none) k).keeps w₁
  rw [hgas] at hgas'
  have hvm' : w'.vm = w₁.vm := hgas'.quiet.vm
  obtain ⟨⟨gasUsed, res⟩, w'', hcode, hrest⟩ := Program.bind_eq_ok.1 hrun
  obtain ⟨_, _, -, hres⟩ := Program.bind_eq_ok.1 hrest
  rw [runCode, Program.read_bind_apply, hvm', ← hvm] at hcode
  cases hget : w₂.vm.codes.get v.checksum with
  | some code => rfl
  | none =>
    rw [hget] at hcode
    cases hcode
    cases hres

/-- An answer without a success is turned down exactly if the error it carries says something, apart from new
contracts that fail for want of a port. -/
theorem rejects_iff {e : ContractEntry} (he : AnswersWithMessages e = true) {v : Invocation X e.Answer e.Result}
    (hp : e.prepare k h c w = (.ok (some v), w₁)) {r : ContractResult e.Answer}
    (hcall : v.call k w₁ = (.ok (.ok (some r)), w₂)) (hok : r.ok = none) :
    Rejects k h c e w ↔ r.err ≠ "" ∨ PortRefused k w₂ e v := by
  have hrun : e.run k h c w = v.conclude (.ok (some r)) w₂ := by
    rw [e.follows_prepare hp, Program.bind_of_ok _ hcall]
  have hprepared : Still w w₁ := by
    have hstill := still_prepare (k := k) (h := h) (c := c) e w
    rw [hp] at hstill
    exact hstill nofun
  have hcalled : Still w₁ w₂ := by
    have hkeeps := (v.call_local k).keeps w₁
    rw [hcall] at hkeeps
    exact .of_keeps hkeeps
  have hconcludes := yields_concludes he hp
  by_cases hr : r.err = ""
  · obtain ⟨hiff, hstill⟩ := hconcludes.empty hok hr (code_of_answer hcall)
    constructor
    · rintro ⟨hrefused, -⟩
      rw [hrun] at hrefused
      exact .inr (hiff.1 hrefused)
    · intro hport
      replace hport := hport.resolve_left (not_not.2 hr)
      refine ⟨?_, ?_⟩ <;> rw [hrun]
      · exact hiff.2 hport
      · exact (hprepared.trans hcalled).trans (hstill hport)
  · obtain ⟨hrefused, hend⟩ := hconcludes.failed w₂ hr
    refine iff_of_true ⟨?_, ?_⟩ (.inl hr) <;> rw [hrun]
    · exact hrefused
    · rw [hend]
      exact hprepared.trans hcalled

end Conclusion

section Devnet

/-- A contract that answers its instantiation properly and everything else as told. -/
def tersely (r : ContractResult Response) (_ : Bytes) : ContractCall → VMScript Response
  | .instantiate _ _ => .done 0 (.ok (some { ok := some {} }))
  | _ => .done 0 (.ok (some r))

abbrev tersenet (r : ContractResult Response) : Keeper Unit := plainnet (tersely r)

/-- After carol has stored the code twice and set up a contract of the first one. -/
def terseWorld (r : ContractResult Response) : World Unit :=
  worldOf (delivered (tersenet r) (durable openWorld) [storeCodeMsg carol, storeCodeMsg carol, instantiateMsg carol])

def carolExecutes : ContractEntry := .execute contractOne [1] (stringToBytes "\x7b\x7d") []

def carolMigrates : ContractEntry := .migrate contractOne [1] 2 (stringToBytes "\x7b\x7d") .default

/-- What the contract answers, if it is called. -/
def terseAnswer (r : ContractResult Response) (e : ContractEntry) :
    Option (Outcome Err Panic (Except String (Option (ContractResult e.Answer)))) :=
  let prepared := e.prepare (tersenet r) (responseHandler (tersenet r) 5) genesisCtx (terseWorld r)
  (Invocation.ofOutcome prepared.1).map fun v ↦ (v.call (tersenet r) prepared.2).1

abbrev terseRun (r : ContractResult Response) (e : ContractEntry) : Outcome Err Panic e.Result × World Unit :=
  e.run (tersenet r) (responseHandler (tersenet r) 5) genesisCtx (terseWorld r)

theorem exists_of_terseAnswer {r : ContractResult Response} {e : ContractEntry}
    {o : Outcome Err Panic (Except String (Option (ContractResult e.Answer)))} (ho : terseAnswer r e = some o) :
    ∃ v w₁ w₂, e.prepare (tersenet r) (responseHandler (tersenet r) 5) genesisCtx (terseWorld r) = (.ok (some v), w₁) ∧
      v.call (tersenet r) w₁ = (o, w₂) := by
  obtain ⟨v, w₁, hp, hcall⟩ := Invocation.exists_of_ofOutcome (f := fun v w ↦ (v.call (tersenet r) w).1) ho
  exact ⟨v, w₁, _, hp, Program.apply_eq hcall⟩

theorem rejects_tersenet : Rejects (tersenet { err := "no" }) (responseHandler (tersenet { err := "no" }) 5) genesisCtx
    carolExecutes (terseWorld { err := "no" }) := by
  have hanswer : terseAnswer { err := "no" } carolExecutes = some (.ok (.ok (some { err := "no" }))) := by decide +kernel
  obtain ⟨v, w₁, w₂, hp, hcall⟩ := exists_of_terseAnswer hanswer
  exact (rejects_iff rfl hp hcall rfl).2 (.inl (by decide))

/-- The contract answers with neither a success nor an error. -/
def Unanswered (e : ContractEntry) : Prop := terseAnswer {} e = some (.ok (.ok (some {})))

/-- Execution crashes on the missing success, migration takes it for a success and changes the registry. -/
theorem unanswered_accepted :
    (Unanswered carolExecutes ∧ (terseRun {} carolExecutes).1 = .panic nilPointer) ∧
      Unanswered carolMigrates ∧ (terseRun {} carolMigrates).1 = .ok none ∧
        (terseRun {} carolMigrates).2.store.kv.get (getContractAddressKey contractOne) ≠
          (terseWorld {}).store.kv.get (getContractAddressKey contractOne) := by
  refine ⟨⟨?_, ?_⟩, ?_, ?_, ?_⟩
  · unfold Unanswered
    decide +kernel
  · decide +kernel
  · unfold Unanswered
    decide +kernel
  · decide +kernel
  · decide +kernel

end Devnet

end Cosmwasgo.Properties
