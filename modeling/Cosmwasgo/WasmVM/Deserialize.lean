import Cosmwasgo.Keeper.GasRegister

namespace Cosmwasgo.WasmVM

open Cosmwasgo.Lib Cosmwasgo.Types Cosmwasgo.State Cosmwasgo.Keeper

structure GasReport where
  limit : UInt64
  remaining : UInt64
  usedExternally : UInt64
  usedInternally : UInt64
  deriving DecidableEq, Repr

def emptyGasReport (limit : UInt64) : GasReport := ⟨limit, limit, 0, 0⟩

def GasReport.charge (r : GasReport) (cost : UInt64) : GasReport :=
  { r with usedInternally := r.usedInternally + cost, remaining := r.remaining - cost }

def replyPayloadMaxBytes : Nat := 128 * 1024

/-- Each payload needs to be below the maximum size. -/
def checkPayloads : Nat → List SubMsg → Except String Unit
  | _, [] => .ok ()
  | i, m :: ms =>
    if replyPayloadMaxBytes < m.payload.length then
      .error ("reply contains submessage at index " ++ toString i ++ " with payload larger than " ++
        toString replyPayloadMaxBytes ++ " bytes: " ++ toString m.payload.length ++ " bytes")
    else checkPayloads (i + 1) ms

/-- A type of responses: how it is read from JSON, and its submessages, if it is one of the types that have any. -/
structure ResponseType (ρ : Type) where
  unmarshal : Bytes → Except String ρ
  subMessages : ρ → Option (List SubMsg)

/-- The response, once it is paid for. -/
def ResponseType.decode {ρ : Type} (t : ResponseType ρ) (data : Bytes) : Except String ρ := do
  let response ← t.unmarshal data
  match t.subMessages response with
  | some ms => checkPayloads 0 ms
  | none => pure ()
  return response

/-- `DeserializeResponse`, with the report as it leaves it. All numbers are `uint64` and wrap around. -/
def deserializeResponse {ρ : Type} (t : ResponseType ρ) (gasLimit : UInt64) (deserCost : UFraction)
    (gasReport : GasReport) (data : Bytes) : Except Panic (Except String ρ × GasReport) := do
  let gasForDeserialization ← (deserCost.mul (UInt64.ofNat data.length)).floor
  if gasLimit < gasForDeserialization + gasReport.usedInternally then
    return (.error ("Insufficient gas left to deserialize contract execution result (" ++ toString data.length ++
      " bytes)"), gasReport)
  else
    return (t.decode data, gasReport.charge gasForDeserialization)

end Cosmwasgo.WasmVM
