import Cosmwasgo.Lib.Program
import Cosmwasgo.Types.Keys
import Cosmwasgo.Types.Messages
import Cosmwasgo.Types.Policies

namespace Cosmwasgo.State

open Cosmwasgo.Lib Cosmwasgo.Types

inductive EntryPoint
  | instantiate
  | execute
  | migrate
  | sudo
  | reply
  | ibc
  | query
  deriving DecidableEq, Repr

/-- One level of the call tree: a message in the message server, or a contract call with the policy that
authorised it. -/
inductive Frame
  | message (m : Msg)
  | call (entry : EntryPoint) (contract : AccAddress) (policy : Option AuthorizationPolicy)
  deriving DecidableEq, Repr

/-- The values an `sdk.Context` carries besides its stores. `stack` is the path of the call tree, newest
frame first; no modelled function reads it. -/
structure Ctx where
  blockHeight : Int
  blockTime : Int
  chainID : String
  blockGas : Option Gas
  txCounter : Option Nat := none
  queryStackSize : Nat := 0
  callDepth : Nat := 0
  subMsgAuthzPolicy : Option AuthorizationPolicy := none
  stack : List Frame := []
  deriving DecidableEq, Repr

def Ctx.push (c : Ctx) (f : Frame) : Ctx := { c with stack := f :: c.stack }

def Ctx.withSubMsgAuthzPolicy (c : Ctx) (p : AuthorizationPolicy) : Ctx := { c with subMsgAuthzPolicy := some p }

/-- The SDK gas meters. An infinite meter only counts. -/
structure GasMeter where
  limit : Gas
  consumed : Gas := 0
  infinite : Bool := false
  deriving DecidableEq, Repr

namespace GasMeter

def new (limit : Gas) : GasMeter := ⟨limit, 0, false⟩

def isOutOfGas (m : GasMeter) : Bool := !m.infinite && m.limit ≤ m.consumed

/-- `ConsumeGas`: the amount is added first, then compared with the limit. -/
def consume (m : GasMeter) (amount : Gas) (descriptor : String) : Option Panic × GasMeter :=
  if m.infinite then (none, { m with consumed := m.consumed + amount })
  else if 2 ^ 64 ≤ m.consumed.toNat + amount.toNat then
    (some (.gasOverflow descriptor), { m with consumed := UInt64.ofNat (2 ^ 64 - 1) })
  else
    let m' := { m with consumed := m.consumed + amount }
    (if m'.limit < m'.consumed then some (.outOfGas descriptor) else none, m')

end GasMeter

inductive ChangeKind
  | instantiate
  | migrate
  | admin
  | label
  | extension
  deriving DecidableEq, Repr

/-- A write of a contract info, with what the store held at that moment. `failed` is set when the message
that made the write ends in an error. -/
structure ContractChange where
  kind : ChangeKind
  contract : AccAddress
  caller : AccAddress
  policy : AuthorizationPolicy
  stack : List Frame
  before : Option Value
  after : ContractInfo
  code : Option Value
  failed : Bool := false
  deriving DecidableEq, Repr

/-- The transactional state: the module store, the state of the other modules, and a record of the
contract infos written and of the packets acknowledged late, which no modelled function reads. -/
structure Store (X : Type) where
  kv : KVStore
  ext : X
  changes : List ContractChange := []
  acks : List Packet := []

/-- What happens during a run, whether or not it is kept. `call` is a contract call with its frame on top,
`address` the address of a new contract and whether it is taken, `acknowledge` a packet on its way to IBC with
the store at that moment, `claim` a capability that was claimed.
Submessages and replies carry the number of the dispatch loop they belong to. -/
inductive Observation (X : Type)
  | authorize (stack : List Frame) (policy : AuthorizationPolicy)
  | call (stack : List Frame)
  | address (addr : AccAddress) (taken : Bool)
  | acknowledge (contract : AccAddress) (packet : Packet) (store : Store X)
  | claim (name : String)
  | dispatch (loop : Nat)
  | submsg (loop : Nat) (msg : SubMsg) (before after : Store X) (result : Except Err DispatchResult)
  | reply (loop : Nat) (r : Reply) (store : Store X)
  | replied (loop : Nat) (data : Option Bytes)

/-- The code cache of the VM, which is not part of any transaction. -/
structure VMCache where
  codes : OrderedStore Bytes Bytes := .empty
  pinned : List Bytes := []

/-- A contract that is loaded for a call, and whether this comes at the discount. -/
structure Setup where
  checksum : Bytes
  pinned : Bool
  discount : Bool
  deriving DecidableEq, Repr

/-- `txContracts` and `vm` are shared by all contexts of a transaction; `trace` and `setups` only record. -/
structure World (X : Type) where
  store : Store X
  events : List Event := []
  meter : GasMeter
  txContracts : Option (List Bytes) := none
  vm : VMCache := {}
  trace : List (Observation X) := []
  setups : List Setup := []

abbrev M (X α : Type) := Program (World X) Err Panic α

end Cosmwasgo.State
