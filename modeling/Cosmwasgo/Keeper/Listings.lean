import Cosmwasgo.Keeper.Querier
import Cosmwasgo.Keeper.Snapshotter

namespace Cosmwasgo.Keeper

open Cosmwasgo.Lib Cosmwasgo.Types Cosmwasgo.State

variable {X β : Type}

/-- The response to a paginated query. `Total` stays zero, as no request that passes asks for it. -/
structure Listing (β : Type) where
  items : List β
  nextKey : Option Bytes
  deriving DecidableEq

structure CodeInfoResponse where
  codeID : UInt64
  creator : String
  dataHash : Bytes
  instantiatePermission : AccessConfig
  deriving DecidableEq

structure QueryCodeResponse where
  codeInfo : CodeInfoResponse
  data : Bytes
  deriving DecidableEq

variable (k : Keeper X)

/-- The entries of a page go to the callback one after the other; the first failure ends the query. -/
def collect (onResult : Bytes × Value → M X β) : List (Bytes × Value) → M X (List β)
  | [] => return []
  | e :: es => do
    let item ← onResult e
    let items ← collect onResult es
    return item :: items

/-- `FilteredPaginate` over the store below a prefix, with a callback that appends to the response. -/
def listEntries (head : Bytes) (params : PageRequest) (onResult : Bytes × Value → M X β) : M X (Listing β) := do
  let es ← iterateKV k head
  let page := filteredPaginate es params
  let items ← collect onResult page.visited
  return { items, nextKey := page.nextKey }

/-- The callback over both secondary indexes: the address is what follows the position in the key. -/
def listAddress (e : Bytes × Value) : M X String :=
  if e.1.length < absoluteTxPositionLen then Program.raise sliceOutOfRange
  else return k.bech32.string (e.1.drop absoluteTxPositionLen)

/-- The info is unmarshalled first, then the id is read off the key. -/
def listCode (e : Bytes × Value) : M X CodeInfoResponse :=
  match e.2 with
  | .codeInfo c =>
    if e.1.length < 8 then Program.raise indexOutOfRange
    else return ⟨bigEndianToUint64 e.1, c.creator, c.codeHash, c.instantiateConfig⟩
  | _ => Program.fail (.text "unmarshal")

def queryCodeInfo (codeID : UInt64) : M X (Option CodeInfoResponse) :=
  if codeID = 0 then return none
  else do
    match ← getCodeInfo k codeID with
    | none => return none
    | some res => return some ⟨codeID, res.creator, res.codeHash, res.instantiateConfig⟩

def queryCode (codeID : UInt64) : M X (Option QueryCodeResponse) := do
  match ← queryCodeInfo k codeID with
  | none => return none
  | some codeInfo => do
    let data ← wrapErr (getByteCode k codeID) "loading wasm code"
    return some { codeInfo, data }

namespace GrpcQuerier

def codes (req : Option (Option PageRequest)) : M X (Listing CodeInfoResponse) := do
  match req with
  | none => Program.fail (invalidArgument "empty request")
  | some pagination => do
    let params ← Program.lift (ensurePaginationParams pagination)
    listEntries k codeKeyPrefix params listCode

def code (req : Option UInt64) : M X QueryCodeResponse := do
  match req with
  | none => Program.fail (invalidArgument "empty request")
  | some codeID =>
    if codeID = 0 then Program.fail (.wrap errInvalid "code id")
    else do
      match ← queryCode k codeID with
      | none => Program.fail (noSuchCode codeID)
      | some rsp => return rsp

def codeInfo (req : Option UInt64) : M X CodeInfoResponse := do
  match req with
  | none => Program.fail (invalidArgument "empty request")
  | some codeID =>
    if codeID = 0 then Program.fail (.wrap errInvalid "code id")
    else do
      match ← queryCodeInfo k codeID with
      | none => Program.fail (noSuchCode codeID)
      | some info => return info

end GrpcQuerier

end Cosmwasgo.Keeper
