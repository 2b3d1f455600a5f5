import Cosmwasgo.Keeper.Contracts
import Cosmwasgo.Keeper.Iteration

namespace Cosmwasgo.Keeper

open Cosmwasgo.Lib Cosmwasgo.Types Cosmwasgo.State

variable {X : Type} (k : Keeper X)

/-- A code id that is not in use has no bytes, which is not an error. -/
def getByteCode (codeID : UInt64) : M X Bytes := do
  match ← getKV k (getCodeKey codeID) with
  | none => return []
  | some (.codeInfo codeInfo) =>
    match ← Program.read fun w ↦ w.vm.codes.get codeInfo.codeHash with
    | some code => return code
    | none => Program.fail (.text "Error opening Wasm file for reading")
  | some _ => Program.raise unmarshalPanic

/-- `wasmVM.Pin`. -/
def vmPin (checksum : Bytes) : M X Unit := do
  let stored ← Program.read fun w ↦ (w.vm.codes.get checksum).isSome
  Program.require stored (.wrap errPinContractFailed "Error opening Wasm file for reading")
  Program.update fun w ↦ { w with vm := { w.vm with pinned := checksum :: w.vm.pinned } }

/-- `wasmVM.StoreCodeUnchecked`. -/
def vmStoreCodeUnchecked (code : Bytes) : M X Bytes :=
  match k.wasmVM.checkUnchecked code with
  | .error e => Program.fail (.wrap errCreateFailed e)
  | .ok () => do
    Program.update fun w ↦ { w with vm := { w.vm with codes := w.vm.codes.set (k.wasmVM.checksum code) code } }
    return k.wasmVM.checksum code

def parsePinnedCodeIndex (s : Bytes) : Except Panic UInt64 :=
  if s = [] then .ok 0
  else if s.length < 8 then .error indexOutOfRange
  else .ok (bigEndianToUint64 s)

def pinMarked (codeID : UInt64) : M X Unit := do
  match ← getCodeInfo k codeID with
  | none => Program.fail (noSuchCode codeID)
  | some codeInfo => vmPin codeInfo.codeHash

def initializePinnedCodes : M X Unit := do
  let es ← iterateKV k pinnedCodeIndexPrefix
  visitEntries (fun e ↦ parsePinnedCodeIndex e.1)
    (fun _ codeID ↦ do pinMarked k codeID; return ((), false)) () es

/-- The variables that the callback of `SnapshotExtension` captures, and what it has written. -/
structure SnapshotState where
  seenBefore : List String := []
  rerr : Option Err := none
  items : List Bytes := []
  deriving DecidableEq, Repr

def SnapshotState.abort (s : SnapshotState) (e : Err) : SnapshotState × Bool := ({ s with rerr := some e }, true)

variable (payloadWriter : Bytes → Except Err Unit)

def writeItem (s : SnapshotState) (wasmBytes : Bytes) : SnapshotState × Bool :=
  match k.lib.gzipIt wasmBytes with
  | .error e => s.abort e
  | .ok compressedWasm =>
    match payloadWriter compressedWasm with
    | .error e => s.abort e
    | .ok () => ({ s with items := s.items ++ [compressedWasm] }, false)

def snapshotCode (s : SnapshotState) (e : UInt64 × CodeInfo) : M X (SnapshotState × Bool) :=
  let hexHash := k.lib.hexEncode e.2.codeHash
  if hexHash ∈ s.seenBefore then return (s, false)
  else
    let s := { s with seenBefore := hexHash :: s.seenBefore }
    (getByteCode k e.1).attempt fun
      | .ok wasmBytes => pure (writeItem k payloadWriter s wasmBytes)
      | .error e => pure (s.abort e)
      | .panic p => Program.raise p
      | .timeout => Program.expire

/-- The items that were written, if nothing went wrong. -/
def snapshotExtension : M X (List Bytes) := do
  let s ← iterateCodeInfos k (snapshotCode k payloadWriter) {}
  match s.rerr with
  | some e => Program.fail e
  | none => return s.items

def maxInt64 : Nat := 2 ^ 63 - 1

def restoreV1 (compressedCode : Bytes) : M X Unit := do
  Program.require (isGzip compressedCode) (.wrap errInvalid "not a gzip")
  match k.lib.uncompress compressedCode maxInt64 with
  | .error e => Program.fail (.wrap errCreateFailed e.error)
  | .ok wasmCode => do
    let _ ← vmStoreCodeUnchecked k wasmCode
    return ()

def finalizeV1 : M X Unit := initializePinnedCodes k

/-- What the payload reader returns, one call after the other, before the end of the stream. -/
def processAllItems (cb : Bytes → M X Unit) (finalize : M X Unit) : List (Except Err Bytes) → M X Unit
  | [] => finalize
  | .error e :: _ => Program.fail e
  | .ok payload :: rest => do
    wrapErr (cb payload) "processing snapshot item"
    processAllItems cb finalize rest

def snapshotFormat : Nat := 1

def restoreExtension (format : Nat) (payloadReader : List (Except Err Bytes)) : M X Unit :=
  if format = snapshotFormat then processAllItems (restoreV1 k) (finalizeV1 k) payloadReader
  else Program.fail (.text "unknown snapshot format")

end Cosmwasgo.Keeper
