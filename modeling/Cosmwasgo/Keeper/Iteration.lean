import Cosmwasgo.Keeper.Registry

namespace Cosmwasgo.Keeper

open Cosmwasgo.Lib Cosmwasgo.Types Cosmwasgo.State

variable {X σ β : Type}

/-- The loop of the iterators: the callback is handed one decoded entry after the other and says when to stop. What
it has collected so far goes with it. -/
def visitEntries (decode : Bytes × Value → Except Panic β) (cb : σ → β → M X (σ × Bool)) :
    σ → List (Bytes × Value) → M X σ
  | s, [] => return s
  | s, e :: es => do
    let b ← liftPanic (decode e)
    let (s, stop) ← cb s b
    if stop then return s else visitEntries decode cb s es

def decodeContractInfo (e : Bytes × Value) : Except Panic (AccAddress × ContractInfo) :=
  match e.2 with
  | .contractInfo c => .ok (e.1, c)
  | _ => .error unmarshalPanic

/-- The values below a contract's prefix are plain bytes. -/
def decodeModel (e : Bytes × Value) : Except Panic (Bytes × Bytes) :=
  match e.2 with
  | .bytes v => .ok (e.1, v)
  | _ => .error unmarshalPanic

def decodeCodeInfo (e : Bytes × Value) : Except Panic (UInt64 × CodeInfo) :=
  match e.2 with
  | .codeInfo c => if e.1.length < 8 then .error (.other "index out of range") else .ok (bigEndianToUint64 e.1, c)
  | _ => .error unmarshalPanic

def iterateContractInfo (k : Keeper X) (cb : σ → AccAddress × ContractInfo → M X (σ × Bool)) (s : σ) : M X σ := do
  let es ← iterateKV k contractKeyPrefix
  visitEntries decodeContractInfo cb s es

def iterateContractState (k : Keeper X) (contractAddress : AccAddress) (cb : σ → Bytes × Bytes → M X (σ × Bool))
    (s : σ) : M X σ := do
  let es ← iterateKV k (getContractStorePrefix contractAddress)
  visitEntries decodeModel cb s es

def iterateCodeInfos (k : Keeper X) (cb : σ → UInt64 × CodeInfo → M X (σ × Bool)) (s : σ) : M X σ := do
  let es ← iterateKV k codeKeyPrefix
  visitEntries decodeCodeInfo cb s es

end Cosmwasgo.Keeper
