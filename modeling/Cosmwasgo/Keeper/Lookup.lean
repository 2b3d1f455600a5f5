import Cosmwasgo.Keeper.Actions

namespace Cosmwasgo.Keeper

open Cosmwasgo.Lib Cosmwasgo.Types Cosmwasgo.State

variable {X : Type}

/-- `MustUnmarshal` of a value that is not the encoding of the wanted type. -/
def unmarshalPanic : Panic := .other "unmarshal"

def getContractInfo (k : Keeper X) (contractAddress : AccAddress) : M X (Option ContractInfo) := do
  match ← getKV k (getContractAddressKey contractAddress) with
  | none => return none
  | some (.contractInfo c) => return some c
  | some _ => Program.raise unmarshalPanic

def hasContractInfo (k : Keeper X) (contractAddress : AccAddress) : M X Bool :=
  hasKV k (getContractAddressKey contractAddress)

def getCodeInfo (k : Keeper X) (codeID : UInt64) : M X (Option CodeInfo) := do
  match ← getKV k (getCodeKey codeID) with
  | none => return none
  | some (.codeInfo c) => return some c
  | some _ => Program.raise unmarshalPanic

def containsCodeInfo (k : Keeper X) (codeID : UInt64) : M X Bool := hasKV k (getCodeKey codeID)

def isPinnedCode (k : Keeper X) (codeID : UInt64) : M X Bool := hasKV k (getPinnedCodeIndexPrefix codeID)

def getParams (k : Keeper X) : M X Params := do
  match ← getKV k paramsKey with
  | some (.params p) => return p
  | some _ => Program.raise unmarshalPanic
  | none => Program.raise (.other "collections: not found")

def noSuchContract (k : Keeper X) (addr : AccAddress) : Err :=
  .wrap (errNoSuchContractFn (k.bech32.string addr)) ("address " ++ k.bech32.string addr)

def noSuchCode (codeID : UInt64) : Err :=
  .wrap (errNoSuchCodeFn codeID.toNat) ("code id " ++ toString codeID)

def contractInstance (k : Keeper X) (contractAddress : AccAddress) : M X (ContractInfo × CodeInfo) := do
  match ← getContractInfo k contractAddress with
  | none => Program.fail (noSuchContract k contractAddress)
  | some contractInfo =>
    match ← getCodeInfo k contractInfo.codeID with
    | none => Program.fail (noSuchCode contractInfo.codeID)
    | some codeInfo => return (contractInfo, codeInfo)

def valueBytes : Value → Option Bytes
  | .bytes b => some b
  | _ => none

/-- The contract's view of its prefix store. -/
def contractGet (k : Keeper X) (addr : AccAddress) (key : Bytes) : M X (Option Bytes) := do
  let v ← getKV k (getContractStorePrefix addr ++ key)
  return v.bind valueBytes

def contractSet (k : Keeper X) (addr : AccAddress) (key value : Bytes) : M X Unit := do
  assertValidKey key
  setKV k (getContractStorePrefix addr ++ key) (.bytes value)

def contractRemove (k : Keeper X) (addr : AccAddress) (key : Bytes) : M X Unit :=
  deleteKV k (getContractStorePrefix addr ++ key)

def inRange (start stop : Option Bytes) (key : Bytes) : Bool :=
  start.all (fun s ↦ decide (s ≤ key)) && stop.all (fun e ↦ decide (key < e))

def contractScan (k : Keeper X) (addr : AccAddress) (start stop : Option Bytes) (descending : Bool) :
    M X (List (Bytes × Bytes)) := do
  let es ← iterateKV k (getContractStorePrefix addr)
  let found := es.filterMap fun e ↦ if inRange start stop e.1 then (valueBytes e.2).map (e.1, ·) else none
  return if descending then found.reverse else found

/-- The meter the VM takes its readings from. -/
inductive VMGasMeter
  | multiplied
  | original
  deriving DecidableEq, Repr

/-- The entry points of `keeper.go` hand the VM the keeper's multiplied meter, those of `relay.go` the meter of
the context as it is. -/
def handedMeter : EntryPoint → VMGasMeter
  | .ibc => .original
  | _ => .multiplied

/-- `GasConsumed` of a meter, when the meter of the context stands at `consumed`. -/
def VMGasMeter.gasConsumed (k : Keeper X) (m : VMGasMeter) (consumed : Gas) : Except Panic Gas :=
  match m with
  | .multiplied => k.gasRegister.toWasmVMGas consumed
  | .original => .ok consumed

def readMeter (k : Keeper X) (m : VMGasMeter) : M X Gas := do
  let meter ← Program.read fun w ↦ w.meter
  liftPanic (m.gasConsumed k meter.consumed)

/-- A callback of the VM, and the gas it used by the readings taken before and after. -/
def measured {β : Type} (k : Keeper X) (m : VMGasMeter) (op : M X β) : M X (β × Gas) := do
  let gasBefore ← readMeter k m
  let b ← op
  let gasAfter ← readMeter k m
  return (b, gasAfter - gasBefore)

/-- A call from the VM back into the host. An error or a panic does not pass through the VM: it ends the
contract run with an error. -/
def hostCall {β ρ : Type} (spent : Gas) (op : M X (β × Gas))
    (next : β → Gas → M X (Gas × Except String (Option (ContractResult ρ)))) :
    M X (Gas × Except String (Option (ContractResult ρ))) :=
  op.attempt fun
    | .ok (b, usedGas) => next b usedGas
    | .error e => pure (spent, .error e.error)
    | .panic p => pure (spent, .error (if p.isOutOfGas then "Out of gas" else "Panic in FFI call"))
    | .timeout => Program.expire

/-- Runs a contract against the host. `querier` answers its queries and has a meter of its own. -/
def runVM {ρ : Type} (k : Keeper X) (meter : VMGasMeter)
    (querier : QueryRequest → Gas → M X (Except Err Bytes)) (addr : AccAddress) :
    VMScript ρ → M X (Gas × Except String (Option (ContractResult ρ)))
  | .done gasUsed result => pure (gasUsed, result)
  | .get spent key next =>
    hostCall spent (measured k meter (contractGet k addr key)) fun v g ↦
      runVM k meter querier addr (next v g)
  | .set spent key value next =>
    hostCall spent (measured k meter (contractSet k addr key value)) fun _ g ↦
      runVM k meter querier addr (next g)
  | .remove spent key next =>
    hostCall spent (measured k meter (contractRemove k addr key)) fun _ g ↦
      runVM k meter querier addr (next g)
  | .scan spent start stop descending next =>
    hostCall spent (measured k meter (contractScan k addr start stop descending)) fun es g ↦
      runVM k meter querier addr (next es g)
  | .query spent gasLimit request next =>
    hostCall spent (measured k .multiplied (querier request gasLimit)) fun r g ↦
      runVM k meter querier addr (next r g)

end Cosmwasgo.Keeper
