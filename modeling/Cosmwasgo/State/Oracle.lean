import Cosmwasgo.State.World

namespace Cosmwasgo.State

open Cosmwasgo.Lib Cosmwasgo.Types

structure ListChannelsQuery where
  portID : String := ""
  deriving DecidableEq, Repr

structure ChannelQuery where
  portID : String := ""
  channelID : String
  deriving DecidableEq, Repr

/-- `IBCQuery`, without the variant for fees that nothing answers. `portID` is whether that pointer is set. -/
structure IBCQuery where
  portID : Bool := false
  listChannels : Option ListChannelsQuery := none
  channel : Option ChannelQuery := none
  deriving DecidableEq, Repr

inductive IBCQueryResponse
  | portID (portID : String)
  | listChannels (channels : List IBCChannel)
  | channel (channel : Option IBCChannel)
  deriving DecidableEq, Repr

inductive QueryRequest
  | ibc (request : IBCQuery)
  | smart (contractAddr : String) (msg : Bytes)
  | raw (contractAddr : String) (key : Option Bytes)
  | contractInfo (contractAddr : String)
  | codeInfo (codeID : UInt64)
  | other (payload : Bytes)
  deriving DecidableEq, Repr

/-- A contract run as the host sees it: the calls back into the host in order, each of which tells the VM what
gas it cost, then the answer of the VM. `spent` is the gas the VM reports when the host call fails and it
gives up. -/
inductive VMScript (ρ : Type)
  | done (gasUsed : Gas) (result : Except String (Option (ContractResult ρ)))
  | get (spent : Gas) (key : Bytes) (next : Option Bytes → Gas → VMScript ρ)
  | set (spent : Gas) (key value : Bytes) (next : Gas → VMScript ρ)
  | remove (spent : Gas) (key : Bytes) (next : Gas → VMScript ρ)
  | scan (spent : Gas) (start stop : Option Bytes) (descending : Bool)
      (next : List (Bytes × Bytes) → Gas → VMScript ρ)
  | query (spent gasLimit : Gas) (request : QueryRequest) (next : Except Err Bytes → Gas → VMScript ρ)

structure AnalysisReport where
  hasIBCEntryPoints : Bool := false
  requiredCapabilities : String := ""
  contractMigrateVersion : Option UInt64 := none
  deriving DecidableEq, Repr

structure Env where
  height : UInt64
  time : UInt64
  chainID : String
  transaction : Option Nat
  contract : String
  deriving DecidableEq, Repr

structure MessageInfo where
  sender : String
  funds : List WasmCoin
  deriving DecidableEq, Repr

structure MigrateInfo where
  sender : String
  oldMigrateVersion : Option UInt64
  deriving DecidableEq, Repr

/-- The IBC entry points whose message the keeper only passes on. -/
inductive IBCEntryPoint
  | channelConnect
  | channelClose
  | packetAck
  | packetTimeout
  | sourceCallback
  | destinationCallback
  deriving DecidableEq, Repr

/-- A call of an entry point that answers with messages and events. A packet's acknowledgement is the
`data` of the answer. -/
inductive ContractCall
  | instantiate (info : MessageInfo) (msg : Bytes)
  | execute (info : MessageInfo) (msg : Bytes)
  | migrate (msg : Bytes) (info : MigrateInfo)
  | sudo (msg : Bytes)
  | reply (r : Reply)
  | ibc (entry : IBCEntryPoint) (msg : Bytes)
  | ibcPacketReceive (packet : IBCPacket) (relayer : String)
  deriving DecidableEq, Repr

/-- The VM and the code it runs. Contracts are functions of their code and of what they are told. -/
structure Engine where
  checksum : Bytes → Bytes
  storeCodeCost : Bytes → Gas
  check : Bytes → Except String Unit
  checkUnchecked : Bytes → Except String Unit
  analyze : Bytes → AnalysisReport
  call : Bytes → Env → ContractCall → Gas → VMScript Response
  query : Bytes → Env → Bytes → Gas → VMScript Bytes
  ibcChannelOpen : Bytes → Env → IBCChannelOpenMsg → Gas → VMScript String

/-- One step of another module: its new state, the events it emits, the gas it uses and how it ends. -/
structure ExtStep (X α : Type) where
  state : X
  events : List Event := []
  gas : Gas := 0
  result : Outcome Err Panic α

/-- A handler of another module that calls back into this one and gives up when the callee fails. -/
inductive Script (X C R : Type)
  | done (run : X → ExtStep X R)
  | call (run : X → ExtStep X C) (next : Option Bytes → Script X C R)

/-- A query plugin that may make smart queries of its own, in the context it was given. With a gas limit it runs one
on a meter of its own and recovers from its panics. -/
inductive QueryScript (X : Type)
  | done (run : X → ExtStep X Bytes)
  | smart (run : X → ExtStep X (AccAddress × Bytes)) (gasLimit : Option Gas)
      (next : Outcome Err Panic Bytes → QueryScript X)

/-- What a message handler answers, without its events. -/
structure MsgData where
  data : Option Bytes
  msgResponses : List MsgResponse
  deriving DecidableEq, Repr

/-- `sdk.Result`. -/
structure MsgResult extends MsgData where
  events : List Event
  deriving DecidableEq, Repr

structure Account where
  type : Nat
  sequence : UInt64
  hasPubKey : Bool
  /-- Of a vesting account only. -/
  originalVesting : Option Coins := none
  deriving DecidableEq, Repr

/-- A channel callback another module makes: the contract it is for and the message. -/
structure ChannelCallback where
  portID : String
  msg : Bytes
  deriving DecidableEq, Repr

/-- The other modules of the chain. -/
structure Host (X : Type) where
  getAccount : X → AccAddress → Option Account
  newAccount : AccAddress → X → ExtStep X Unit
  cleanupExistingAccount : AccAddress → Account → X → ExtStep X Bool
  isSendEnabledCoins : X → Coins → Except Err Unit
  blockedAddr : X → AccAddress → Bool
  sendCoins : AccAddress → AccAddress → Coins → X → ExtStep X Unit
  getBalance : AccAddress → String → X → ExtStep X Coin
  sendCoinsFromAccountToModule : AccAddress → Coins → X → ExtStep X Unit
  burnCoins : Coins → X → ExtStep X Unit
  getCapability : X → String → Bool
  bindIbcPort : String → X → ExtStep X Unit
  authenticateCapability : X → Nat → String → Bool
  claimCapability : Nat → String → X → ExtStep X Unit
  sendPacket : Ctx → String → SendPacketMsg → X → ExtStep X UInt64
  writeAcknowledgement : Ctx → Packet → Bytes → X → ExtStep X Unit
  validateBasic : ExtMsg → Except Err Unit
  signers : ExtMsg → Except Err (List AccAddress)
  plainHandler : Ctx → ExtMsg → Option (X → ExtStep X MsgData)
  channelHandler : Ctx → ExtMsg → Option (Script X ChannelCallback MsgData)
  nestedHandler : Ctx → ExtMsg → Option (Script X Msg MsgData)
  msgSend : String → String → Coins → ExtMsg
  msgChannelCloseInit : String → String → String → ExtMsg
  encodeDistributionMsg : AccAddress → Bytes → Except Err ExtMsg
  encodeStakingMsg : AccAddress → Bytes → Except Err ExtMsg
  encodeGovMsg : AccAddress → Bytes → Except Err ExtMsg
  encodeIBCOther : AccAddress → String → Bytes → Except Err ExtMsg
  unpackAny : ExtMsg → Except Err SdkMsg
  marshalResponse : MsgServiceResponse → MsgResponse
  handleQuery : Ctx → AccAddress → Bytes → QueryScript X
  getAllChannelsWithPortPrefix : String → X → ExtStep X (List IdentifiedChannel)
  getChannel : String → String → X → ExtStep X (Option Channel)

/-- `types.GasRegister`. -/
structure GasRegister where
  uncompressCosts : Nat → Except Panic Gas
  setupContractCost : Bool → Nat → Except Panic Gas
  replyCosts : Bool → Reply → Except Panic Gas
  eventCosts : List Attribute → List Event → Except Panic Gas
  toWasmVMGas : Gas → Except Panic Gas
  fromWasmVMGas : Gas → Except Panic Gas

/-- The parts of Go's library and of the SDK that validation uses. -/
structure GoLib where
  jsonValid : Bytes → Bool
  trimSpace : String → String
  isPrint : Char → Bool
  toUpper : String → String
  equalFold : String → String → Bool
  coinsValidate : Coins → Except Err Unit
  extensionValidate : Bytes → Except Err Unit
  convertWasmCoins : List WasmCoin → Except Err Coins
  /-- `big.Int.SetString` with base 0. -/
  setString : String → Option Int
  validateDenom : String → Except Err Unit
  parseRequestURI : String → Except String Unit
  parseDockerRef : String → Except String Unit
  splitCapabilities : String → List String
  gzipIt : Bytes → Except Err Bytes
  uncompress : Bytes → Nat → Except Err Bytes
  hexEncode : Bytes → String
  parseChannelSequence : String → Except Err UInt64
  marshalContractInfo : ContractInfo → Bool → Bytes
  marshalCodeInfo : UInt64 → CodeInfo → Bytes
  marshalIBCResponse : IBCQueryResponse → Bytes

inductive StoreAccess
  | get (key : Bytes) (value : Option Value)
  | has (key : Bytes)
  | set (key : Bytes) (value : Value)
  | delete (key : Bytes)
  | iterate (head : Bytes) (count : Nat)
  deriving DecidableEq, Repr

/-- The keeper and what it was built with. `kvGas` is what the SDK charges for a store access. -/
structure Keeper (X : Type) where
  authority : String
  propagateGovAuthorization : List AuthorizationPolicyAction
  maxQueryStackSize : Nat
  maxCallDepth : Nat
  acceptedAccountTypes : List Nat
  bech32 : Bech32
  addressModule : Bytes → Bytes
  addressModule_length : ∀ key, (addressModule key).length = 32
  gasRegister : GasRegister
  kvGas : StoreAccess → Gas
  wasmVM : Engine
  host : Host X
  lib : GoLib

end Cosmwasgo.State
