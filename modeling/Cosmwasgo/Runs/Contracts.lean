import Cosmwasgo.Runs.Regime

namespace Cosmwasgo.Runs

open Cosmwasgo.Lib Cosmwasgo.Types Cosmwasgo.State Cosmwasgo.Keeper

variable {X α β ρ : Type} {k : Keeper X} {R : Regime k} {h : ResponseHandler X} {s : Site} {c : Ctx}

/-- Handling the messages of a response obeys the regime, and its errors leave a state to go on from. -/
def HandlerObeys (R : Regime k) (h : ResponseHandler X) : Prop :=
  ∀ c addr port msgs data, R.ports addr port → (R.clean (within c)).Obeys (h c addr port msgs data)

/-- The store holds the info of a contract. -/
def InfoStored (addr : AccAddress) (info : ContractInfo) (d : Durable X) : Prop :=
  d.kv.get (getContractAddressKey addr) = some (.contractInfo info)

/-- The store holds the info of a code. -/
def CodeStored (codeID : UInt64) (info : CodeInfo) (d : Durable X) : Prop :=
  d.kv.get (getCodeKey codeID) = some (.codeInfo info)

theorem InfoStored.stable (addr : AccAddress) (info : ContractInfo) : Stable (X := X) (InfoStored addr info) :=
  .record (not_isStateKey (by simp)) _

theorem CodeStored.stable (codeID : UInt64) (info : CodeInfo) : Stable (X := X) (CodeStored codeID info) :=
  .record (not_isStateKey (by simp)) _

theorem InfoStored.live {addr : AccAddress} {info : ContractInfo} (d : Durable X) (hd : InfoStored addr info d)
    (a : AccAddress) (ha : some addr = some a) : Live d a := by
  cases ha
  exact .inr (by rw [show d.kv.get _ = _ from hd]; rfl)

namespace Regime

/-- Code that works on a contract on record may take its port for the right one. -/
theorem recorded_triple {addr : AccAddress} {info : ContractInfo} {m : M X α}
    (hm : R.ports addr info.ibcPortID → (R.clean s).Triple (On (InfoStored addr info)) m fun _ _ ↦ True) :
    (R.clean s).Triple (On (InfoStored addr info)) m fun _ _ ↦ True :=
  fun w hw ↦ ⟨R.recorded hw fun hp ↦ (hm hp w hw).1, fun _ _ _ ↦ trivial⟩

theorem clean_wrapErr {m : M X α} (hm : (R.clean s).Obeys m) (desc : String) :
    (R.clean s).Obeys (wrapErr m desc) := by
  refine Discipline.Obeys.attempt fun w r w' hr ↦ ?_
  have h := hm w
  rw [hr] at h
  cases r <;> exact h

/-- The start of all entry points of an existing contract. -/
theorem clean_contractInstance {addr : AccAddress} {f : ContractInfo × CodeInfo → M X β}
    (hf : ∀ info code, R.ports addr info.ibcPortID →
      (R.clean s).Triple (On (InfoStored addr info)) (f (info, code)) fun _ _ ↦ True) :
    (R.clean s).Obeys (contractInstance k addr >>= f) := by
  refine Discipline.Triple.obeys (Discipline.Triple.bind (Q := fun r ↦ On (InfoStored addr r.1)) ?_ fun (info, code) ↦
    recorded_triple (hf info code))
  refine ((Writes.getContractInfo k addr).clean_reads (P := fun _ ↦ True) fun _ _ _ hp ↦ hp.1).bind fun r ↦ ?_
  cases r with
  | none => exact .fail _
  | some info =>
    refine Discipline.Triple.conseq (P := On (InfoStored addr info)) (Q := fun r ↦ On (InfoStored addr r.1)) ?_
      (fun w hw ↦ hw.2.2) fun _ _ hq ↦ hq
    refine (Local.getCodeInfo info.codeID).clean_bind (InfoStored.stable addr info) fun r ↦ ?_
    cases r with
    | none => exact .fail _
    | some code => exact .pure fun _ hs ↦ hs

theorem clean_handleContractResponse (hh : HandlerObeys R h) {addr : AccAddress} {port : String}
    (hp : R.ports addr port) (res : Response) : (R.clean (within c)).Obeys (handleContractResponse k h c addr port res) := by
  refine (Local.liftPanic _).clean.bind fun _ ↦ (Local.consumeGas _ _).clean.bind fun _ ↦ ?_
  refine (Local.emitWasmModuleEvent _ _).clean.bind fun _ ↦ (Local.emitCustomEvents _ _).clean.bind fun _ ↦ ?_
  exact hh c addr port res.messages res.data hp

/-- The call of a contract, from a context with the path of the site it enters. -/
theorem clean_callContract {P : Durable X → Prop} {addr : AccAddress} {c' : Ctx} (entry : EntryPoint)
    (he : Site.Enters k R.permits s (within c')) (c₁ : Ctx) (hc : c₁.stack = c'.stack) (hP : Stable P)
    (hl : ∀ d, P d → ∀ a, some addr = some a → Live d a) (checksum : Bytes) (script : Bytes → Gas → VMScript ρ) :
    (R.clean s).Triple (On P) (callContract k entry c₁ addr checksum script) fun _ ↦ On P := by
  unfold callContract
  rw [hc]
  refine (clean_called he).bind fun _ ↦ ?_
  exact (Local.contractVM entry c₁ addr checksum script).clean_triple hP hl

/-- Calling a contract on record and then handling its answer. -/
theorem clean_callRecorded {addr : AccAddress} {info : ContractInfo} {c' : Ctx} {entry : EntryPoint} {checksum : Bytes}
    {script : Bytes → Gas → VMScript ρ} {f : Except String (Option (ContractResult ρ)) → M X β}
    (he : Site.Enters k R.permits s (within c')) (hf : ∀ r, (R.clean s).Obeys (f r)) :
    (R.clean s).Triple (On (InfoStored addr info)) (callContract k entry c' addr checksum script >>= f) fun _ _ ↦ True :=
  (clean_callContract entry he c' rfl (InfoStored.stable addr info) InfoStored.live checksum script).bind fun r ↦
    (hf r).triple

theorem clean_execute (hh : HandlerObeys R h) (addr caller : AccAddress) (msg : Bytes) (coins : Coins) :
    (R.clean (before c)).Obeys (execute k h c addr caller msg coins) := by
  refine clean_contractInstance fun info code hp ↦ ?_
  have hst := InfoStored.stable (X := X) addr info
  have he : Site.Enters k R.permits (before c) _ := .call c .execute (by decide) addr
  refine (Local.chargeSetup _ _ _ _).clean_bind hst fun _ ↦ ?_
  refine (Local.deposit _ _ _).clean_bind hst fun _ ↦ ?_
  refine (Local.liftPanic _).clean_bind hst fun env ↦ clean_callRecorded he fun res ↦ ?_
  refine (Local.lift _).clean.bind fun ok ↦ (Local.emitContractEvent _ _ _).clean.bind fun _ ↦ ?_
  refine (Local.deref ok).clean.bind fun response ↦ ?_
  exact enter_clean he (clean_handleContractResponse hh hp response)

theorem clean_sudoContract (hh : HandlerObeys R h) (addr : AccAddress) (msg : Bytes) :
    (R.clean (before c)).Obeys (sudoContract k h c addr msg) := by
  refine clean_contractInstance fun info code hp ↦ ?_
  have hst := InfoStored.stable (X := X) addr info
  have he : Site.Enters k R.permits (before c) _ := .call c .sudo (by decide) addr
  refine (Local.chargeSetup _ _ _ _).clean_bind hst fun _ ↦ ?_
  refine (Local.liftPanic _).clean_bind hst fun env ↦ clean_callRecorded he fun res ↦ ?_
  refine (Local.lift _).clean.bind fun ok ↦ (Local.emitContractEvent _ _ _).clean.bind fun _ ↦ ?_
  refine (Local.deref ok).clean.bind fun response ↦ clean_wrapErr ?_ _
  exact enter_clean he (clean_handleContractResponse hh hp response)

theorem clean_reply (hh : HandlerObeys R h) (addr : AccAddress) (r : Reply) :
    (R.clean (within c)).Obeys (reply k h c addr r) := by
  refine clean_contractInstance fun info code hp ↦ ?_
  have hst := InfoStored.stable (X := X) addr info
  have he : Site.Enters k R.permits (within c) _ := .reply c addr
  refine (Local.liftPanic _).clean_bind hst fun _ ↦ ?_
  refine (Local.consumeGas _ _).clean_bind hst fun _ ↦ ?_
  refine (Local.liftPanic _).clean_bind hst fun env ↦ clean_callRecorded he fun res ↦ ?_
  refine (Local.lift _).clean.bind fun ok ↦ (Local.emitContractEvent _ _ _).clean.bind fun _ ↦ ?_
  refine (Local.deref ok).clean.bind fun response ↦ clean_wrapErr ?_ _
  exact enter_clean he (clean_handleContractResponse hh hp response)

end Regime

end Cosmwasgo.Runs
