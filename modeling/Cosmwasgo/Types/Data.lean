import Cosmwasgo.Types.Errors
import Cosmwasgo.Lib.OrderedStore

namespace Cosmwasgo.Types

open Cosmwasgo.Lib

abbrev AccAddress := Bytes

abbrev Gas := UInt64

structure Attribute where
  key : String
  value : String
  deriving DecidableEq, Repr

structure Event where
  type : String
  attributes : List Attribute
  deriving DecidableEq, Repr

structure Coin where
  denom : String
  amount : Int
  deriving DecidableEq, Repr

abbrev Coins := List Coin

def Coins.isZero (coins : Coins) : Bool := coins.all fun c ↦ c.amount == 0

/-- A coin as a contract writes it: the amount is still text. -/
structure WasmCoin where
  denom : String
  amount : String
  deriving DecidableEq, Repr

def newWasmCoins (coins : Coins) : List WasmCoin := coins.map fun c ↦ ⟨c.denom, toString c.amount⟩

/-- `other` stands for the enum values without a name. -/
inductive AccessType
  | unspecified
  | nobody
  | everybody
  | anyOfAddresses
  | other (n : Nat)
  deriving DecidableEq, Repr

structure AccessConfig where
  permission : AccessType
  addresses : List String := []
  deriving DecidableEq, Repr

def allowEverybody : AccessConfig := ⟨.everybody, []⟩

def allowNobody : AccessConfig := ⟨.nobody, []⟩

structure Params where
  codeUploadAccess : AccessConfig
  instantiateDefaultPermission : AccessType
  deriving DecidableEq, Repr

structure ChainAccessConfigs where
  upload : AccessConfig
  instantiate : AccessConfig
  deriving DecidableEq, Repr

structure CodeInfo where
  codeHash : Bytes
  creator : String
  instantiateConfig : AccessConfig
  deriving DecidableEq, Repr

structure AbsoluteTxPosition where
  blockHeight : UInt64
  txIndex : UInt64
  deriving DecidableEq, Repr

/-- `AbsoluteTxPosition.Bytes`. -/
def AbsoluteTxPosition.bytes (a : AbsoluteTxPosition) : Bytes :=
  bigEndian 8 a.blockHeight.toNat ++ bigEndian 8 a.txIndex.toNat

def AbsoluteTxPosition.lessThan (a b : AbsoluteTxPosition) : Bool :=
  a.blockHeight < b.blockHeight || (a.blockHeight == b.blockHeight && a.txIndex < b.txIndex)

structure ContractInfo where
  codeID : UInt64
  creator : String
  admin : String
  label : String
  created : Option AbsoluteTxPosition
  ibcPortID : String := ""
  extension : Option Bytes := none
  deriving DecidableEq, Repr

inductive HistoryOperation
  | unspecified
  | init
  | migrate
  | genesis
  | other (n : Nat)
  deriving DecidableEq, Repr

structure ContractCodeHistoryEntry where
  operation : HistoryOperation
  codeID : UInt64
  updated : Option AbsoluteTxPosition
  msg : Bytes
  deriving DecidableEq, Repr

def ContractInfo.initialHistory (c : ContractInfo) (initMsg : Bytes) : ContractCodeHistoryEntry :=
  ⟨.init, c.codeID, c.created, initMsg⟩

structure Height where
  revisionNumber : UInt64 := 0
  revisionHeight : UInt64 := 0
  deriving DecidableEq, Repr

structure Packet where
  sequence : UInt64
  sourcePort : String
  sourceChannel : String
  destinationPort : String
  destinationChannel : String
  data : Bytes
  timeoutHeight : Height := {}
  timeoutTimestamp : UInt64 := 0
  deriving DecidableEq, Repr

structure IBCEndpoint where
  portID : String
  channelID : String
  deriving DecidableEq, Repr

structure IBCTimeoutBlock where
  revision : UInt64
  height : UInt64
  deriving DecidableEq, Repr

structure IBCTimeout where
  block : Option IBCTimeoutBlock := none
  timestamp : UInt64 := 0
  deriving DecidableEq, Repr

/-- A packet as contracts see it. -/
structure IBCPacket where
  data : Bytes
  src : IBCEndpoint
  dest : IBCEndpoint
  sequence : UInt64
  timeout : IBCTimeout
  deriving DecidableEq, Repr

structure IBCChannel where
  endpoint : IBCEndpoint
  counterpartyEndpoint : IBCEndpoint
  order : String
  version : String
  connectionID : String
  deriving DecidableEq, Repr

/-- One of the two steps in which a channel is opened. -/
inductive IBCChannelOpenMsg
  | openInit (channel : IBCChannel)
  | openTry (channel : IBCChannel) (counterpartyVersion : String)
  deriving DecidableEq, Repr

/-- `channeltypes.Order`. -/
inductive Order
  | noneUnspecified
  | unordered
  | ordered
  deriving DecidableEq, Repr

def Order.string : Order → String
  | .noneUnspecified => "ORDER_NONE_UNSPECIFIED"
  | .unordered => "ORDER_UNORDERED"
  | .ordered => "ORDER_ORDERED"

/-- `channeltypes.State`. -/
inductive ChannelState
  | uninitialized
  | init
  | tryOpen
  | opened
  | closed
  | flushing
  | flushComplete
  deriving DecidableEq, Repr

/-- A channel as IBC keeps it. -/
structure Channel where
  state : ChannelState
  ordering : Order
  counterparty : IBCEndpoint
  connectionHops : List String
  version : String
  deriving DecidableEq, Repr

structure IdentifiedChannel extends Channel where
  portID : String
  channelID : String
  deriving DecidableEq, Repr

/-- What the module store holds under a key. Protobuf encodings are kept as the value they encode;
`bytes` is everything written without a codec. -/
inductive Value
  | codeInfo (c : CodeInfo)
  | contractInfo (c : ContractInfo)
  | history (e : ContractCodeHistoryEntry)
  | params (p : Params)
  | packet (p : Packet)
  | bytes (b : Bytes)
  deriving DecidableEq, Repr

abbrev KVStore := OrderedStore Bytes Value

namespace AccessType

def isSubset (a superSet : AccessType) : Bool :=
  match superSet with
  | .everybody => a != .unspecified
  | .nobody => a == .nobody
  | .anyOfAddresses => a == .nobody || a == .anyOfAddresses
  | _ => false

def string : AccessType → String
  | .nobody => "Nobody"
  | .everybody => "Everybody"
  | .anyOfAddresses => "AnyOfAddresses"
  | _ => "Unspecified"

end AccessType

/-- All elements of `sub` are in `super`. -/
def isSubset (super sub : List String) : Bool := sub.all fun o ↦ super.contains o

namespace AccessConfig

def isSubset (a superSet : AccessConfig) : Bool :=
  match superSet.permission with
  | .anyOfAddresses =>
    a.permission == .nobody || (a.permission == .anyOfAddresses && Types.isSubset superSet.addresses a.addresses)
  | .unspecified => false
  | p => a.permission.isSubset p

def allAuthorizedAddresses (a : AccessConfig) : List String :=
  if a.permission = .anyOfAddresses then a.addresses else []

end AccessConfig

end Cosmwasgo.Types
