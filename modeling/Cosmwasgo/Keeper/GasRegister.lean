import Cosmwasgo.State.Oracle

namespace Cosmwasgo.Keeper

open Cosmwasgo.Lib Cosmwasgo.Types Cosmwasgo.State

structure UFraction where
  numerator : UInt64
  denominator : UInt64
  deriving DecidableEq, Repr

def UFraction.mul (f : UFraction) (m : UInt64) : UFraction := ⟨f.numerator * m, f.denominator⟩

def UFraction.floor (f : UFraction) : Except Panic UInt64 :=
  if f.denominator = 0 then .error (.other "integer divide by zero") else .ok (f.numerator / f.denominator)

structure WasmGasRegisterConfig where
  instanceCost : Gas
  instanceCostDiscount : Gas
  uncompressCost : UFraction
  gasMultiplier : Gas
  eventPerAttributeCost : Gas
  eventAttributeDataCost : Gas
  eventAttributeDataFreeTier : UInt64
  contractMessageDataCost : Gas
  customEventCost : UInt64
  deriving DecidableEq, Repr

def defaultGasRegisterConfig : WasmGasRegisterConfig where
  instanceCost := 60000
  instanceCostDiscount := 2000
  uncompressCost := ⟨15, 100⟩
  gasMultiplier := 140000
  eventPerAttributeCost := 10
  eventAttributeDataCost := 1
  eventAttributeDataFreeTier := 100
  contractMessageDataCost := 0
  customEventCost := 20

/-- The bytes to pay for, and what is left of the free tier. -/
def calcWithFreeTier (storedBytes freeTier : UInt64) : UInt64 × UInt64 :=
  if storedBytes ≤ freeTier then (0, freeTier - storedBytes) else (storedBytes - freeTier, 0)

namespace WasmGasRegister

variable (g : WasmGasRegisterConfig)

def uncompressCosts (byteLength : Nat) : Except Panic Gas := (g.uncompressCost.mul (UInt64.ofNat byteLength)).floor

def setupContractCost (discount : Bool) (msgLen : Nat) : Gas :=
  let dataCost := UInt64.ofNat msgLen * g.contractMessageDataCost
  if discount then g.instanceCostDiscount + dataCost else g.instanceCost + dataCost

/-- The byte count wraps around as the other costs do; the products and their sum do not. -/
def eventAttributeCosts (attrs : List Attribute) (freeTier : UInt64) : Except Panic (Gas × UInt64) :=
  if attrs = [] then .ok (0, freeTier)
  else
    let storedBytes := attrs.foldl (fun n a ↦
      n + (UInt64.ofNat a.key.utf8ByteSize + UInt64.ofNat a.value.utf8ByteSize)) 0
    let (storedBytes, freeTier) := calcWithFreeTier storedBytes freeTier
    let r := g.eventAttributeDataCost.toNat * storedBytes.toNat + g.eventPerAttributeCost.toNat * attrs.length
    if r < 2 ^ 64 then .ok (UInt64.ofNat r, freeTier) else .error (.outOfGas "overflow")

def eventCosts (attrs : List Attribute) (events : List Event) : Except Panic Gas := do
  let start ← eventAttributeCosts g attrs g.eventAttributeDataFreeTier
  let (gas, _) ← events.foldlM (fun (gas, freeTier) e ↦ do
    let (attrCost, freeTier) ← eventAttributeCosts g e.attributes freeTier
    return (gas + g.customEventCost + UInt64.ofNat e.type.utf8ByteSize * g.eventAttributeDataCost + attrCost, freeTier))
    start
  return gas

/-- The events of a reply: the free tier applies to all of them at once, and types are never free. -/
def replyEventGas (reply : Reply) : Except Panic Gas :=
  match reply.result.ok with
  | none => .ok 0
  | some ok => do
    let typeGas := ok.events.foldl (fun gas e ↦
      gas + UInt64.ofNat e.type.utf8ByteSize * g.eventAttributeDataCost) 0
    let attrGas ← eventCosts g (ok.events.flatMap (·.attributes)) []
    return typeGas + attrGas

def replyMsgLen (reply : Reply) : Nat :=
  reply.result.err.utf8ByteSize +
    match reply.result.ok with
    | none => 0
    | some ok => (ok.data.getD []).length

def replyCosts (discount : Bool) (reply : Reply) : Except Panic Gas := do
  let eventGas ← replyEventGas g reply
  return eventGas + setupContractCost g discount (replyMsgLen reply)

def toWasmVMGas (source : Gas) : Except Panic Gas :=
  let x := source * g.gasMultiplier
  if x < source then .error (.outOfGas "overflow") else .ok x

def fromWasmVMGas (source : Gas) : Gas := source / g.gasMultiplier

end WasmGasRegister

/-- The keeper's gas register, for a multiplier that is not zero. -/
def wasmGasRegister (c : WasmGasRegisterConfig) : GasRegister where
  uncompressCosts := WasmGasRegister.uncompressCosts c
  setupContractCost discount msgLen := .ok (WasmGasRegister.setupContractCost c discount msgLen)
  replyCosts := WasmGasRegister.replyCosts c
  eventCosts := WasmGasRegister.eventCosts c
  toWasmVMGas := WasmGasRegister.toWasmVMGas c
  fromWasmVMGas source := .ok (WasmGasRegister.fromWasmVMGas c source)

def newWasmGasRegister (c : WasmGasRegisterConfig) : Except Panic GasRegister :=
  if c.gasMultiplier = 0 then .error (.other "GasMultiplier can not be 0: internal logic error") else .ok (wasmGasRegister c)

end Cosmwasgo.Keeper
