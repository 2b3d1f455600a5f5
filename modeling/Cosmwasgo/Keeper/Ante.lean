import Cosmwasgo.Keeper.Lookup

namespace Cosmwasgo.Keeper

open Cosmwasgo.Lib Cosmwasgo.Types Cosmwasgo.State

variable {X α : Type}

def encodeHeightCounter (height : Int64) (counter : UInt32) : Bytes :=
  uint64ToBigEndian height.toUInt64 ++ bigEndian 4 counter.toNat

/-- Slices that are too short panic. -/
def decodeHeightCounter (bz : Bytes) : Except Panic (Int64 × UInt32) :=
  if bz.length < 12 then .error (.other "slice bounds out of range")
  else .ok ((bigEndianToUint64 bz).toInt64, UInt32.ofNat (ofBigEndian ((bz.drop 8).take 4)))

/-- The counter of the store, if it is one of the current height. -/
def loadTxCounter (currentHeight : Int64) : Option Value → Except Panic UInt32
  | none => .ok 0
  | some (.bytes bz) => do
    let (lastHeight, val) ← decodeHeightCounter bz
    return if currentHeight = lastHeight then val else 0
  | some _ => .error unmarshalPanic

/-- `CountTXDecorator.AnteHandle`. -/
def anteHandle (k : Keeper X) (c : Ctx) (simulate : Bool) (next : Ctx → M X α) : M X α :=
  if simulate then next c
  else do
    let currentHeight := Int64.ofInt c.blockHeight
    let bz ← getKV k txCounterPrefix
    let txCounter ← liftPanic (loadTxCounter currentHeight bz)
    setKV k txCounterPrefix (.bytes (encodeHeightCounter currentHeight (txCounter + 1)))
    next { c with txCounter := some txCounter.toNat }

/-- `TxContractsDecorator.AnteHandle`: no contract has been called yet. -/
def txContractsAnteHandle (next : M X α) : M X α := do
  Program.update fun w ↦ { w with txContracts := some [] }
  next

theorem decodeHeightCounter_encodeHeightCounter (height : Int64) (counter : UInt32) :
    decodeHeightCounter (encodeHeightCounter height counter) = .ok (height, counter) := by
  have hlen : ¬(encodeHeightCounter height counter).length < 12 := by simp [encodeHeightCounter]
  have hheight : bigEndianToUint64 (encodeHeightCounter height counter) = height.toUInt64 := by
    unfold bigEndianToUint64 encodeHeightCounter
    rw [List.take_left' (length_uint64ToBigEndian _), uint64ToBigEndian, ofBigEndian_bigEndian_of_lt height.toUInt64.toNat_lt]
    exact UInt64.ofNat_toNat
  have hcounter : (((encodeHeightCounter height counter).drop 8).take 4) = bigEndian 4 counter.toNat := by
    unfold encodeHeightCounter
    rw [List.drop_left' (length_uint64ToBigEndian _), List.take_of_length_le (by simp)]
  rw [decodeHeightCounter, if_neg hlen, hheight, hcounter, ofBigEndian_bigEndian_of_lt counter.toNat_lt, UInt32.ofNat_toNat]
  rfl

/-- What the rest of the ante chain does comes after the count. -/
theorem anteHandle_eq_bind (k : Keeper X) (c : Ctx) (simulate : Bool) (next : Ctx → M X α) :
    anteHandle k c simulate next = anteHandle k c simulate pure >>= next := by
  unfold anteHandle
  cases simulate with
  | true => rfl
  | false =>
    simp only [Bool.false_eq_true, if_false, Program.bind_assoc]
    rfl

end Cosmwasgo.Keeper
