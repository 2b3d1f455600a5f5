import Cosmwasgo.Lib.Interleaving
import Cosmwasgo.Types.Errors

namespace Cosmwasgo.Keeper

open Cosmwasgo.Lib Cosmwasgo.Types

-- `C` are contexts, `R` the response messages as pointers and `V` what such a message can hold
variable {C R V : Type}

/-- What is done with a response message. It is reset before it is unmarshalled into, so that what it holds afterwards, if
only in part after an error, does not depend on what it held. -/
structure Codec (R V : Type) where
  unmarshal : R → Bytes → V × Option Err
  marshalJSON : R → V → Except Err Bytes
  marshal : R → V → Except Err Bytes
  reset : R → V

/-- What an accept list querier is made with. The router has no handler for some paths. -/
structure AcceptList (C R V : Type) where
  acceptList : String → Option R
  queryRouter : String → Option (C → String → Bytes → Except Err Bytes)
  codec : Codec R V

/-- The response messages. The accept lists hold pointers to them, so all calls share them. -/
abbrev Responses (R V : Type) := R → V

/-- The start of both queriers: the response message for a path and the value the handler returned. -/
def acceptedQuery (l : AcceptList C R V) (ctx : C) (path : String) (data : Bytes) : Except Err (R × Bytes) :=
  match l.acceptList path with
  | none => .error (.system (.unsupportedRequest ("'" ++ path ++ "' path is not allowed from the contract")))
  | some protoResponse =>
    match l.queryRouter path with
    | none => .error (.system (.unsupportedRequest ("No route to query '" ++ path ++ "'")))
    | some handler =>
      match handler ctx path data with
      | .error err => .error err
      | .ok value => .ok (protoResponse, value)

section Queriers

variable [DecidableEq R]

section Accesses

variable (cdc : Codec R V) (protoResponse : R)

def Codec.unmarshalStep (bz : Bytes) : Thread (Responses R V) (Option Err) :=
  .atomic fun s ↦ ((cdc.unmarshal protoResponse bz).2, Function.update s protoResponse (cdc.unmarshal protoResponse bz).1)

def Codec.marshalJSONStep : Thread (Responses R V) (Except Err Bytes) :=
  .atomic fun s ↦ (cdc.marshalJSON protoResponse (s protoResponse), s)

def Codec.marshalStep : Thread (Responses R V) (Except Err Bytes) :=
  .atomic fun s ↦ (cdc.marshal protoResponse (s protoResponse), s)

def Codec.resetStep : Thread (Responses R V) Unit :=
  .atomic fun s ↦ ((), Function.update s protoResponse (cdc.reset protoResponse))

end Accesses

def convertProtoToJSONMarshal (cdc : Codec R V) (protoResponse : R) (bz : Bytes) :
    Thread (Responses R V) (Except Err Bytes) := do
  match ← cdc.unmarshalStep protoResponse bz with
  | some err => return .error (.wrap err "to proto")
  | none =>
    match ← cdc.marshalJSONStep protoResponse with
    | .error err => return .error (.wrap err "to json")
    | .ok bz =>
      cdc.resetStep protoResponse
      return .ok bz

def acceptListStargateQuerier (l : AcceptList C R V) (ctx : C) (path : String) (data : Bytes) :
    Thread (Responses R V) (Except Err Bytes) :=
  match acceptedQuery l ctx path data with
  | .error err => return .error err
  | .ok (protoResponse, value) => convertProtoToJSONMarshal l.codec protoResponse value

def acceptListGrpcQuerier (l : AcceptList C R V) (ctx : C) (path : String) (data : Bytes) :
    Thread (Responses R V) (Except Err R) :=
  match acceptedQuery l ctx path data with
  | .error err => return .error err
  | .ok (protoResponse, value) => do
    match ← l.codec.unmarshalStep protoResponse value with
    | some err => return .error err
    | none => return .ok protoResponse

inductive AcceptedKind
  | stargate
  | grpc
  deriving DecidableEq, Repr

/-- A query of a contract that goes to an accept list querier. -/
structure AcceptedCall (C R V : Type) where
  list : AcceptList C R V
  kind : AcceptedKind
  ctx : C
  path : String
  data : Bytes

/-- The branches of `QueryPlugins.HandleQuery` for these queries. A gRPC response is marshalled there, after the querier has
returned the message. -/
def AcceptedCall.handle (q : AcceptedCall C R V) : Thread (Responses R V) (Except Err Bytes) :=
  match q.kind with
  | .stargate => acceptListStargateQuerier q.list q.ctx q.path q.data
  | .grpc => do
    match ← acceptListGrpcQuerier q.list q.ctx q.path q.data with
    | .error err => return .error err
    | .ok resp => q.list.codec.marshalStep resp

end Queriers

end Cosmwasgo.Keeper
