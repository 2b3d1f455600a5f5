import Cosmwasgo.Runs.Ensures

namespace Cosmwasgo.Runs

open Cosmwasgo.Lib Cosmwasgo.Types Cosmwasgo.State Cosmwasgo.Keeper

variable {X α β : Type} {k : Keeper X} {H : Bytes → Prop}

def ignore (m : M X α) : M X Unit := do
  let _ ← m
  return ()

/-- The hashes stay pinned in the VM, however a run ends. -/
def pinning (H : Bytes → Prop) : Discipline (World X) where
  rel w _ w' := ∀ hash, H hash → hash ∈ w.vm.pinned → hash ∈ w'.vm.pinned
  refl _ _ _ hmem := hmem
  trans h h' hash hH hmem := h' hash hH (h hash hH hmem)
  abort _ _ _ hmem := hmem
  expire _ _ _ hmem := hmem

abbrev KeepsPins (H : Bytes → Prop) (m : M X α) : Prop := (pinning H).Obeys m

namespace KeepsPins

theorem of_pinned {m : M X α} (h : ∀ w, (m w).2.vm.pinned = w.vm.pinned) : KeepsPins H m := by
  intro w hash _ hmem
  rw [h]
  exact hmem

theorem of_local {m : M X α} (h : Local none m) : KeepsPins H m :=
  of_pinned fun w ↦ congrArg VMCache.pinned (h.keeps w).quiet.vm

theorem of_writes {m : M X α} {post : Durable X → α → Durable X → Prop} (h : Writes m post) : KeepsPins H m :=
  of_pinned fun w ↦ congrArg VMCache.pinned (h.vm w)

theorem ignore {m : M X α} (h : KeepsPins H m) : KeepsPins H (Runs.ignore m) :=
  Discipline.Obeys.bind h fun _ ↦ .pure ()

theorem wrapErr {m : M X α} (h : KeepsPins H m) (desc : String) : KeepsPins H (Keeper.wrapErr m desc) := by
  refine Discipline.Obeys.attempt fun w o w' hr ↦ ?_
  have hw := h w
  rw [hr] at hw
  cases o with
  | ok a => exact hw
  | error e => exact hw
  | panic p => exact hw
  | timeout => exact hw

theorem discarding {m : M X α} (h : KeepsPins H m) : KeepsPins H (Keeper.discarding m) :=
  fun w ↦ h { w with events := [] }

theorem eachCode {f : UInt64 → M X Unit} (hf : ∀ id, KeepsPins H (f id)) (ids : List UInt64) :
    KeepsPins H (MsgServer.eachCode f ids) := by
  induction ids with
  | nil => exact .pure ()
  | cons id ids ih => exact (hf id).bind fun _ ↦ ih

theorem create (c : Ctx) (creator : AccAddress) (wasmCode : Bytes) (access : Option AccessConfig)
    (authZ : AuthorizationPolicy) : KeepsPins H (Keeper.create k c creator wasmCode access authZ) := by
  have hauthorize : ∀ decision e, KeepsPins H (authorize c authZ decision e : M X Unit) := fun decision e ↦
    (of_pinned fun _ ↦ rfl : KeepsPins H (observe _)).bind fun _ ↦ (of_writes (.liftPanic decision)).bind fun _ ↦
      .require _ _
  have hstore : ∀ code gasLeft, KeepsPins H (vmStoreCode k code gasLeft) := by
    intro code gasLeft
    unfold vmStoreCode
    refine Discipline.Obeys.ite (fun _ ↦ .pure _) fun _ ↦ ?_
    split
    · exact .pure _
    · exact Discipline.Obeys.bind (Discipline.Obeys.update fun _ _ _ hmem ↦ hmem) fun _ ↦ .pure _
  refine (Discipline.Obeys.require _ _).bind fun _ ↦ (of_local Local.getParams).bind fun params ↦ ?_
  refine (of_writes (.liftPanic _)).bind fun access ↦ (of_local Local.getParams).bind fun params ↦ ?_
  refine (hauthorize _ _).bind fun _ ↦ (of_local (Local.unpackCode wasmCode)).bind fun code ↦ ?_
  refine (of_local (Local.runtimeGasForContract k)).bind fun gasLeft ↦ (hstore code gasLeft).bind fun (stored, gasUsed) ↦ ?_
  refine (of_local (Local.consumeRuntimeGas k gasUsed)).bind fun _ ↦ (Discipline.Obeys.lift _).bind fun checksum ↦ ?_
  refine (of_local (Local.analyzeCode checksum _)).bind fun report ↦ (of_writes (Writes.persistCode k _)).bind fun id ↦ ?_
  exact (of_local (Local.emitEvents _)).bind fun _ ↦ .pure _

theorem vmPin (checksum : Bytes) : KeepsPins H (Keeper.vmPin checksum : M X Unit) :=
  (Discipline.Obeys.read _).bind fun _ ↦ (Discipline.Obeys.require _ _).bind fun _ ↦
    Discipline.Obeys.update fun _ _ _ hmem ↦ List.mem_cons_of_mem _ hmem

theorem pinCode (codeID : UInt64) : KeepsPins H (Keeper.pinCode k codeID) := by
  refine (of_writes (Writes.getCodeInfo k codeID)).bind fun r ↦ ?_
  cases r with
  | none => exact .fail _
  | some info =>
    exact (Discipline.Obeys.read _).bind fun _ ↦ (Discipline.Obeys.require _ _).bind fun _ ↦
      (Discipline.Obeys.update fun _ _ _ hmem ↦ List.mem_cons_of_mem _ hmem).bind fun _ ↦
      (of_writes (Writes.setKV k _ _)).bind fun _ ↦ of_local (Local.emitEvents _)

theorem pinMarked (codeID : UInt64) : KeepsPins H (Keeper.pinMarked k codeID) := by
  refine (of_writes (Writes.getCodeInfo k codeID)).bind fun r ↦ ?_
  cases r with
  | none => exact .fail _
  | some info => exact vmPin _

theorem initializePinnedCodes : KeepsPins H (Keeper.initializePinnedCodes k) := by
  refine (of_writes (Writes.iterateKV k _)).bind fun es ↦ ?_
  induction es with
  | nil => exact .pure ()
  | cons e es ih =>
    refine (of_writes (.liftPanic _)).bind fun codeID ↦ ((pinMarked codeID).bind fun _ ↦ .pure _).bind fun (_, stop) ↦ ?_
    exact Discipline.Obeys.ite (fun _ ↦ .pure _) fun _ ↦ ih

theorem importCode (codeID : UInt64) (info : CodeInfo) (wasmCode : Bytes) :
    KeepsPins H (Keeper.importCode k codeID info wasmCode) := by
  have hstore : ∀ code, KeepsPins H (vmStoreCodeUnchecked k code) := by
    intro code
    unfold vmStoreCodeUnchecked
    split
    · exact .fail _
    · exact Discipline.Obeys.bind (Discipline.Obeys.update fun _ _ _ hmem ↦ hmem) fun _ ↦ .pure _
  exact (Discipline.Obeys.lift _).bind fun code ↦ (hstore code).bind fun _ ↦ (Discipline.Obeys.require _ _).bind fun _ ↦
    (of_writes (Writes.hasKV k _)).bind fun _ ↦ (Discipline.Obeys.require _ _).bind fun _ ↦ of_writes (Writes.setKV k _ _)

theorem importCodes (i : Nat) (m : UInt64) (codes : List Code) : KeepsPins H (Keeper.importCodes k i m codes) := by
  induction codes generalizing i m with
  | nil => exact .pure _
  | cons c codes ih =>
    have hpin : KeepsPins H (importPin k i c) :=
      Discipline.Obeys.ite (fun _ ↦ (pinCode c.codeID).wrapErr _) fun _ ↦ .pure _
    exact ((importCode _ _ _).wrapErr _).bind fun _ ↦ hpin.bind fun _ ↦ ih _ _

theorem importContractState (a : AccAddress) (models : List Model) :
    KeepsPins H (Keeper.importContractState k a models) := by
  induction models with
  | nil => exact .pure _
  | cons m models ih =>
    exact (of_writes (Writes.hasKV k _)).bind fun _ ↦ (Discipline.Obeys.require _ _).bind fun _ ↦
      ((of_writes (Writes.assertValidKey _)).bind fun _ ↦ of_writes (Writes.setKV k _ _)).bind fun _ ↦ ih

theorem appendToContractHistory (a : AccAddress) (es : List ContractCodeHistoryEntry) :
    KeepsPins H (Keeper.appendToContractHistory k a es) := by
  refine (of_writes (Writes.iterateKV k _)).bind fun found ↦ ?_
  generalize lastPosition found = pos
  induction es generalizing pos with
  | nil => exact .pure _
  | cons e es ih =>
    exact (of_writes (Writes.incUint64 pos)).bind fun next ↦ (of_writes (Writes.setKV k _ _)).bind fun _ ↦ ih next

theorem importContract (a : AccAddress) (info : ContractInfo) (state : List Model)
    (history : List ContractCodeHistoryEntry) : KeepsPins H (Keeper.importContract k a info state history) := by
  refine (of_writes (Writes.hasKV k _)).bind fun _ ↦ (Discipline.Obeys.require _ _).bind fun _ ↦ ?_
  refine (of_writes (Writes.hasKV k _)).bind fun _ ↦ (Discipline.Obeys.require _ _).bind fun _ ↦ ?_
  split
  · exact (Discipline.Obeys.lift _).bind fun creator ↦ (appendToContractHistory a history).bind fun _ ↦
      (of_writes (Writes.setKV k _ _)).bind fun _ ↦ (of_writes (Writes.addToContractCodeSecondaryIndex k a _)).bind
      fun _ ↦ (of_writes (Writes.addToContractCreatorSecondaryIndex k creator _ a)).bind fun _ ↦
      importContractState a state
  · exact .fail _

theorem importContracts (i : Nat) (contracts : List Contract) : KeepsPins H (Keeper.importContracts k i contracts) := by
  induction contracts generalizing i with
  | nil => exact .pure _
  | cons c contracts ih =>
    exact (Discipline.Obeys.lift _).bind fun a ↦ ((importContract a _ _ _).wrapErr _).bind fun _ ↦ ih _

theorem importSequences (i : Nat) (seqs : List Sequence) : KeepsPins H (Keeper.importSequences k i seqs) := by
  induction seqs generalizing i with
  | nil => exact .pure _
  | cons s seqs ih =>
    have hone : KeepsPins H (importAutoIncrementID k s.idKey s.value) := (of_writes (Writes.hasKV k _)).bind fun _ ↦
      (Discipline.Obeys.require _ _).bind fun _ ↦ of_writes (Writes.setKV k _ _)
    exact (hone.wrapErr _).bind fun _ ↦ ih _

theorem checkSequences (m : UInt64) : KeepsPins H (Keeper.checkSequences k m) := by
  have hpeek : ∀ key, KeepsPins H (peekAutoIncrementID k key) := fun key ↦
    (of_writes (Writes.getKV k key)).bind fun _ ↦ of_writes (.liftPanic _)
  have hclassic : ∀ codeID, KeepsPins H (peekClassicAddress k codeID) := fun codeID ↦
    discarding ((hpeek _).bind fun _ ↦ (of_writes (Writes.setKV k _ _)).bind fun _ ↦ .pure _)
  exact (hpeek _).bind fun _ ↦ (Discipline.Obeys.require _ _).bind fun _ ↦ (hpeek _).bind fun _ ↦ (hclassic _).bind
    fun _ ↦ (of_writes (Writes.hasKV k _)).bind fun _ ↦ .require _ _

theorem initGenesis (g : GenesisState) : KeepsPins H (Keeper.initGenesis k g) :=
  (of_writes (Writes.setKV k _ _)).bind fun _ ↦ (importCodes 0 0 g.codes).bind fun m ↦
    (importContracts 0 g.contracts).bind fun _ ↦ (importSequences 0 g.sequences).bind fun _ ↦ checkSequences m

end KeepsPins

end Cosmwasgo.Runs
