import Cosmwasgo.Keeper.Proposals
import Cosmwasgo.Properties.Codes
import Cosmwasgo.Properties.Pins
import Cosmwasgo.Properties.Snapshot

namespace Cosmwasgo.Properties

open Cosmwasgo.Lib Cosmwasgo.Types Cosmwasgo.State Cosmwasgo.Keeper Cosmwasgo.Runs MsgServer

variable {X α β : Type} {k : Keeper X} {h : ResponseHandler X} {c : Ctx}

section Marks

/-- The program pins and unpins no code. -/
def KeepsMarks (m : M X α) : Prop :=
  Ensures m fun d _ d' ↦ ∀ id, d'.kv.get (getPinnedCodeIndexPrefix id) = d.kv.get (getPinnedCodeIndexPrefix id)

namespace KeepsMarks

theorem of_local {o : Option AccAddress} {m : M X α} (hm : Local o m) : KeepsMarks m :=
  hm.ensures.mono fun _ _ _ hquiet _ ↦ hquiet.records _ (not_isStateKey (by simp))

theorem of_eq {m : M X α} (hm : Ensures m fun d _ d' ↦ d' = d) : KeepsMarks m :=
  hm.mono fun _ _ _ hd _ ↦ by rw [hd]

theorem bind {m : M X α} {f : α → M X β} (hm : KeepsMarks m) (hf : ∀ a, KeepsMarks (f a)) : KeepsMarks (m >>= f) :=
  (Ensures.bind hm hf).mono fun _ _ _ ⟨_, _, h, h'⟩ id ↦ (h' id).trans (h id)

theorem create (creator : AccAddress) (wasmCode : Bytes) (access : Option AccessConfig) (authZ : AuthorizationPolicy) :
    KeepsMarks (create k c creator wasmCode access authZ) := by
  refine (ensures_create c creator wasmCode access authZ).mono fun d _ d' ⟨n, info, _, _, _, hkv⟩ id ↦ ?_
  rw [hkv _ (by simp), get_set_of_head _ (by simp), get_set_of_head _ (by simp)]

theorem wrapErr {m : M X α} (hm : KeepsMarks m) (desc : String) : KeepsMarks (wrapErr m desc) := Ensures.wrapErr hm desc

theorem newAddress (codeID : UInt64) (checksum : Bytes) :
    KeepsMarks (newAddress k (classicAddressGenerator k) codeID checksum) := by
  have hgen : KeepsMarks (classicAddressGenerator k codeID checksum) := by
    refine KeepsMarks.bind ?_ fun _ ↦ of_local (Local.pure (o := none) _)
    refine (Writes.mustAutoIncrementID k _).ensures.mono fun d _ d' ⟨_, _, hd⟩ id ↦ ?_
    rw [hd, Durable.kv_withKV, get_set_of_head _ (by simp)]
  exact (Ensures.newAddress hgen).mono fun _ _ _ hmarks ↦ hmarks.1

theorem callContract {ρ : Type} (entry : EntryPoint) (addr : AccAddress) (checksum : Bytes)
    (script : Bytes → Gas → VMScript ρ) : KeepsMarks (callContract k entry c addr checksum script) :=
  (of_eq (Ensures.observe _)).bind fun _ ↦ of_local (Local.contractVM entry c addr checksum script)

theorem persistInstance (creator addr : AccAddress) (initMsg : Bytes) (info : ContractInfo) (policy : AuthorizationPolicy) :
    KeepsMarks (persistInstance k c creator addr initMsg info policy) := by
  refine (Writes.persistInstance k c creator addr initMsg info policy).ensures.mono ?_
  rintro d _ d' ⟨pos, head, -, hhead, -, rfl⟩ id
  exact get_registered_of_head hhead (by simp)

theorem handleContractResponse (hh : ∀ c addr port msgs data, KeepsMarks (h c addr port msgs data)) (addr : AccAddress)
    (port : String) (res : Response) : KeepsMarks (handleContractResponse k h c addr port res) := by
  refine (of_local (Local.liftPanic (o := none) _)).bind fun _ ↦ (of_local (Local.consumeGas (o := none) _ _)).bind fun _ ↦ ?_
  refine (of_local (Local.emitWasmModuleEvent (o := none) _ _)).bind fun _ ↦ ?_
  exact (of_local (Local.emitCustomEvents (o := none) _ _)).bind fun _ ↦ hh c addr port _ _

theorem instantiate (hh : ∀ c addr port msgs data, KeepsMarks (h c addr port msgs data)) (codeID : UInt64)
    (creator admin : AccAddress) (initMsg : Bytes) (label : String) (funds : Coins) (policy : AuthorizationPolicy) :
    KeepsMarks (instantiate k h c codeID creator admin initMsg label funds (classicAddressGenerator k) policy) := by
  refine (of_local (Local.require (o := none) _ _)).bind fun _ ↦ ?_
  refine (of_local (Local.getCodeInfo (o := none) codeID)).bind fun code ↦ ?_
  cases code with
  | none => exact Ensures.fail _
  | some code =>
    refine (of_local (Local.chargeSetup (o := none) _ _ _ _)).bind fun _ ↦ ?_
    refine (of_eq (Ensures.authorize c _ _ _)).bind fun _ ↦ (newAddress codeID _).bind fun (addr, taken) ↦ ?_
    refine (of_local (Local.require (o := none) _ _)).bind fun _ ↦ ?_
    refine (of_local (Local.prepareAccount (o := none) addr)).bind fun _ ↦ ?_
    refine (of_local (Local.deposit (o := none) _ _ _)).bind fun _ ↦ ?_
    refine (of_local (Local.liftPanic (o := none) _)).bind fun env ↦ (callContract _ addr _ _).bind fun res ↦ ?_
    refine (of_local (Local.lift (o := none) _)).bind fun ok ↦ (of_local (Local.liftPanic (o := none) _)).bind fun createdAt ↦ ?_
    refine (of_local (Local.analyzeCode (o := none) _ _)).bind fun report ↦ ?_
    refine (of_local (Local.instancePort (o := none) addr report)).bind fun port ↦ ?_
    refine (persistInstance creator addr initMsg _ policy).bind fun _ ↦ ?_
    refine (of_local (Local.emitContractEvent (o := none) _ _ _)).bind fun _ ↦ ?_
    refine (of_local (Local.deref (o := none) ok)).bind fun response ↦ ?_
    refine ((handleContractResponse hh addr port response).wrapErr _).bind fun _ ↦ ?_
    exact of_local (Local.pure (o := none) _)

end KeepsMarks

end Marks

/-- The two programs end the same way, and leave the same behind. -/
structure SameOutcome (m : M X α) (m' : M X β) (w : World X) : Prop where
  exit : (m w).1.exit = (m' w).1.exit
  state : committed m w = committed m' w

section Validation

variable {req : MsgStoreAndInstantiateContract} {title description : String}

end Validation

section Runs

variable {req : MsgStoreAndInstantiateContract} {title description : String} {w w' : World X}

theorem SameOutcome.congr {m n : M X α} {m' n' : M X β} (h : SameOutcome m m' w) (hm : n w = m w) (hm' : n' w = m' w) :
    SameOutcome n n' w := by
  have hstate : committed n w = committed m w := by rw [committed, committed, hm]
  have hstate' : committed n' w = committed m' w := by rw [committed, committed, hm']
  exact ⟨by rw [hm, hm', h.exit], by rw [hstate, hstate', h.state]⟩

section Handlers

variable (k c req) (creator admin : AccAddress) (policy : AuthorizationPolicy)

variable {k c req creator admin policy} (hvalid : Msg.validateBasic k (.storeAndInstantiateContract req) = .ok ())
  (hcreator : k.bech32.fromBech32 req.authority = .ok creator)
  (hadmin : ∀ w : World X, decodeAdmin k req.admin w = (.ok admin, w))

include hvalid hcreator hadmin

end Handlers

end Runs

section Necessity

variable {k : PermissionedKeeper X} {req : MsgStoreAndInstantiateContract} {title description : String} {w w' : World X}
  {res : MsgServiceResponse}

end Necessity

section Sufficiency

variable {k : PermissionedKeeper X} {req : MsgStoreAndInstantiateContract} {title description : String}

end Sufficiency

section Plainnet

end Plainnet

end Cosmwasgo.Properties
