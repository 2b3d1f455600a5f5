import Cosmwasgo.Keeper.Contracts
import Cosmwasgo.Lib.Hex
import Cosmwasgo.Lib.Paging

namespace Cosmwasgo.Keeper

open Cosmwasgo.Lib Cosmwasgo.Types Cosmwasgo.State

variable {X : Type}

/-- `query.PageRequest`, for a walk in ascending order. -/
structure PageRequest where
  key : Bytes := []
  offset : UInt64 := 0
  limit : UInt64 := 0
  countTotal : Bool := false

structure QueryContractHistoryRequest where
  address : String
  pagination : Option PageRequest := none

structure QueryContractHistoryResponse where
  entries : List ContractCodeHistoryEntry
  nextKey : Option Bytes
  deriving DecidableEq

def invalidArgument (desc : String) : Err := .text ("rpc error: code = InvalidArgument desc = " ++ desc)

def maxResultEntries : UInt64 := 100

/-- `query.DefaultLimit` of the SDK. -/
def defaultLimit : UInt64 := 100

def ensurePaginationParams : Option PageRequest → Except Err PageRequest
  | none => .ok { limit := defaultLimit }
  | some req =>
    if req.offset ≠ 0 ∨ req.countTotal then .error (invalidArgument "offset and count queries not supported")
    else if req.limit > maxResultEntries ∨ req.limit ≤ 0 then .ok { req with limit := maxResultEntries }
    else .ok req

/-- The SDK's `FilteredPaginate` over a prefix store, with a callback that takes every entry. -/
def filteredPaginate (es : List (Bytes × Value)) (req : PageRequest) : Page Bytes Value :=
  paginate es (if req.key = [] then none else some req.key) req.limit.toNat

/-- The entry as the querier's codec reads it, with an error in place of the panic. -/
def readHistory (v : Value) : Except Err ContractCodeHistoryEntry :=
  (unmarshalHistory v).mapError fun _ ↦ .text "unmarshal"

/-- `GrpcQuerier.ContractHistory`. -/
def contractHistory (k : Keeper X) (req : Option QueryContractHistoryRequest) : M X QueryContractHistoryResponse := do
  match req with
  | none => Program.fail (invalidArgument "empty request")
  | some req =>
    let contractAddr ← Program.lift (k.bech32.fromBech32 req.address)
    let paginationParams ← Program.lift (ensurePaginationParams req.pagination)
    let es ← iterateKV k (getContractCodeHistoryElementPrefix contractAddr)
    let page := filteredPaginate es paginationParams
    -- every key below the address is taken, whatever its length
    let entries ← Program.lift (page.visited.mapM fun e ↦ readHistory e.2)
    return { entries, nextKey := page.nextKey }

structure QueryBuildAddressRequest where
  codeHash : String
  creatorAddress : String
  salt : String
  initArgs : Option Bytes := none

/-- `%#U`: the code point, and the character itself where it can be printed. -/
def unicodeFormat (k : Keeper X) (b : Byte) : String :=
  let r := Char.ofNat b.val
  "U+00" ++ String.ofList [(Nat.digitChar (b.val / 16)).toUpper, (Nat.digitChar (b.val % 16)).toUpper] ++
    if k.lib.isPrint r then " '" ++ String.singleton r ++ "'" else ""

def hexError (k : Keeper X) : Hex.DecodeError → Err
  | .invalidByte b => .text ("encoding/hex: invalid byte: " ++ unicodeFormat k b)
  | .length => .text "encoding/hex: odd length hex string"

/-- `hex.DecodeString`. -/
def hexDecodeString (k : Keeper X) (s : String) : Except Err Bytes := (Hex.decode (stringToBytes s)).mapError (hexError k)

def defaultGasCostBuildAddress : Gas := 10

/-- `GrpcQuerier.BuildAddress`. -/
def buildAddress (k : Keeper X) (req : Option QueryBuildAddressRequest) : M X String := do
  match req with
  | none => Program.fail (invalidArgument "empty request")
  | some req =>
    let codeHash ← Program.lift (wrap (hexDecodeString k req.codeHash) "invalid code hash")
    let creator ← Program.lift (wrap (k.bech32.fromBech32 req.creatorAddress) "invalid creator address")
    let salt ← Program.lift (wrap (hexDecodeString k req.salt) "invalid salt")
    Program.require (salt ≠ []) (invalidArgument "empty salt")
    Program.deferring (consumeGas defaultGasCostBuildAddress "build address") do
      match req.initArgs with
      | none =>
        let addr ← liftPanic (buildContractAddressPredictable k codeHash creator salt [])
        return k.bech32.string addr
      | some initMsg =>
        Program.lift (validateRawContractMessage k initMsg)
        let addr ← liftPanic (buildContractAddressPredictable k codeHash creator salt initMsg)
        return k.bech32.string addr

/-- Where a request starts; an empty key is no key. -/
def startKey : Option PageRequest → Option Bytes
  | none => none
  | some req => if req.key = [] then none else some req.key

/-- What passes has a limit, and starts where the request says. -/
theorem ensurePaginationParams_eq_ok {req : Option PageRequest} {ps : PageRequest}
    (h : ensurePaginationParams req = .ok ps) :
    0 < ps.limit.toNat ∧ (if ps.key = [] then none else some ps.key) = startKey req := by
  cases req with
  | none =>
    cases h
    exact ⟨by decide, rfl⟩
  | some req =>
    simp only [ensurePaginationParams] at h
    split at h
    · cases h
    split at h
    · cases h
      exact ⟨(by decide : 0 < maxResultEntries.toNat), rfl⟩
    · next hlimit =>
      cases h
      rw [not_or, UInt64.not_le, UInt64.lt_iff_toNat_lt] at hlimit
      exact ⟨hlimit.2, rfl⟩

end Cosmwasgo.Keeper
