import Cosmwasgo.Lib.Program
import Cosmwasgo.Types.Errors
import Mathlib.Data.List.AList

namespace Cosmwasgo.WasmVM

open Cosmwasgo.Lib Cosmwasgo.Types

variable {ι : Type}

/-- The iterators of the open contract calls, by call ID, and the counter the IDs come from. -/
structure IteratorRegistry (ι : Type) where
  iteratorFrames : AList fun _ : UInt64 ↦ List ι := ∅
  latestCallID : UInt64 := 0

def maxInt32 : Nat := 2 ^ 31 - 1

def iteratorIdToIndex (id : UInt64) : Option Nat :=
  if id.toNat < 1 ∨ maxInt32 < id.toNat then none else some (id.toNat - 1)

def indexToIteratorID (index : Nat) : Option UInt64 :=
  if maxInt32 < index then none else some (UInt64.ofNat index + 1)

namespace IteratorRegistry

variable (r : IteratorRegistry ι)

def startCall : UInt64 × IteratorRegistry ι :=
  (r.latestCallID + 1, { r with latestCallID := r.latestCallID + 1 })

/-- `iteratorFrames[callID]`; a missing frame reads as the empty one. -/
def frame (callID : UInt64) : List ι := (r.iteratorFrames.lookup callID).getD []

def removeFrame (callID : UInt64) : List ι × IteratorRegistry ι :=
  (r.frame callID, { r with iteratorFrames := r.iteratorFrames.erase callID })

/-- Returns the iterators it closes, in that order. -/
def endCall (callID : UInt64) : List ι × IteratorRegistry ι := r.removeFrame callID

def storeIterator (callID : UInt64) (it : ι) (frameLenLimit : Nat) : Except Err UInt64 × IteratorRegistry ι :=
  let newIndex := (r.frame callID).length
  if frameLenLimit ≤ newIndex then
    (.error (.text ("Reached iterator limit (" ++ toString frameLenLimit ++ ")")), r)
  else
    let r := { r with iteratorFrames := r.iteratorFrames.insert callID (r.frame callID ++ [it]) }
    match indexToIteratorID newIndex with
    | some iteratorID => (.ok iteratorID, r)
    | none => (.error (.text "could not convert index to iterator ID"), r)

def retrieveIterator (callID iteratorID : UInt64) : Option ι :=
  match iteratorIdToIndex iteratorID with
  | none => none
  | some indexInFrame => (r.frame callID)[indexInFrame]?

end IteratorRegistry

def frameLenLimit : Nat := 32768

structure IteratorReference where
  callID : UInt64
  iteratorID : UInt64
  deriving DecidableEq, Repr

/-- What a callback answers the VM with when it does not succeed. -/
inductive GoError
  | panic
  | badArgument
  | outOfGas
  | user (message : String)
  deriving DecidableEq, Repr

def recoverPanic (p : Panic) : GoError := if p.isOutOfGas then .outOfGas else .panic

/-- A callback of the VM, over the iterators of all open calls. -/
abbrev Callback (ι α : Type) : Type := Program (IteratorRegistry ι) GoError Panic α

def buildIterator (callID : UInt64) (it : ι) : Callback ι (Except Err IteratorReference) := fun r ↦
  let stored := r.storeIterator callID it frameLenLimit
  (.ok (stored.1.map fun iteratorID ↦ ⟨callID, iteratorID⟩), stored.2)

/-- A scan as the VM asks for it, with what the gas meter and the store of the contract answer during the callback. -/
structure ScanRequest (ι : Type) where
  order : Int
  gasBefore : Except Panic UInt64
  iterator : Except Panic ι
  reverseIterator : Except Panic ι
  gasAfter : Except Panic UInt64

def orPanic {α : Type} (x : Except Panic α) : Callback ι α :=
  match x with
  | .ok a => pure a
  | .error p => Program.raise p

/-- The answer of the store to the order asked for. -/
def ScanRequest.answer (q : ScanRequest ι) : Option (Except Panic ι) :=
  match q.order with
  | 1 => some q.iterator
  | 2 => some q.reverseIterator
  | _ => none

def ScanRequest.openIterator (q : ScanRequest ι) : Callback ι ι :=
  match q.answer with
  | some x => orPanic x
  | none => Program.fail .badArgument

/-- `cScan` up to `recoverPanic`. -/
def scan (callID : UInt64) (q : ScanRequest ι) : Callback ι (UInt64 × IteratorReference) := do
  let gasBefore ← orPanic q.gasBefore
  let iter ← q.openIterator
  let gasAfter ← orPanic q.gasAfter
  match ← buildIterator callID iter with
  | .ok iteratorRef => return (gasAfter - gasBefore, iteratorRef)
  | .error err => Program.fail (.user err.error)

def cScan (callID : UInt64) (q : ScanRequest ι) : Callback ι (UInt64 × IteratorReference) :=
  (scan callID q).attempt fun
    | .panic p => Program.fail (recoverPanic p)
    | o => Program.finish o

end Cosmwasgo.WasmVM
