import Cosmwasgo.Types.Data

namespace Cosmwasgo.Types

open Cosmwasgo.Lib

structure MsgStoreCode where
  sender : String
  wasmByteCode : Bytes
  instantiatePermission : Option AccessConfig
  deriving DecidableEq, Repr

structure MsgInstantiateContract where
  sender : String
  admin : String
  codeID : UInt64
  label : String
  msg : Bytes
  funds : Coins
  deriving DecidableEq, Repr

structure MsgInstantiateContract2 where
  sender : String
  admin : String
  codeID : UInt64
  label : String
  msg : Bytes
  funds : Coins
  salt : Bytes
  fixMsg : Bool
  deriving DecidableEq, Repr

structure MsgExecuteContract where
  sender : String
  contract : String
  msg : Bytes
  funds : Coins
  deriving DecidableEq, Repr

structure MsgMigrateContract where
  sender : String
  contract : String
  codeID : UInt64
  msg : Bytes
  deriving DecidableEq, Repr

structure MsgUpdateAdmin where
  sender : String
  newAdmin : String
  contract : String
  deriving DecidableEq, Repr

structure MsgClearAdmin where
  sender : String
  contract : String
  deriving DecidableEq, Repr

structure MsgUpdateInstantiateConfig where
  sender : String
  codeID : UInt64
  newInstantiatePermission : Option AccessConfig
  deriving DecidableEq, Repr

structure MsgUpdateParams where
  authority : String
  params : Params
  deriving DecidableEq, Repr

structure MsgSudoContract where
  authority : String
  contract : String
  msg : Bytes
  deriving DecidableEq, Repr

/-- `MsgPinCodes` and `MsgUnpinCodes`. -/
structure MsgCodes where
  authority : String
  codeIDs : List UInt64
  deriving DecidableEq, Repr

structure MsgStoreAndInstantiateContract where
  authority : String
  wasmByteCode : Bytes
  instantiatePermission : Option AccessConfig
  unpinCode : Bool := false
  admin : String
  label : String
  msg : Bytes
  funds : Coins
  source : String := ""
  builder : String := ""
  codeHash : Option Bytes := none
  deriving DecidableEq, Repr

/-- `MsgAddCodeUploadParamsAddresses` and `MsgRemoveCodeUploadParamsAddresses`. -/
structure MsgUploadAddresses where
  authority : String
  addresses : List String
  deriving DecidableEq, Repr

structure MsgStoreAndMigrateContract where
  authority : String
  wasmByteCode : Bytes
  instantiatePermission : Option AccessConfig
  contract : String
  msg : Bytes
  deriving DecidableEq, Repr

structure MsgUpdateContractLabel where
  sender : String
  newLabel : String
  contract : String
  deriving DecidableEq, Repr

/-- The messages of the module's `Msg` service. -/
inductive Msg
  | storeCode (m : MsgStoreCode)
  | instantiateContract (m : MsgInstantiateContract)
  | instantiateContract2 (m : MsgInstantiateContract2)
  | executeContract (m : MsgExecuteContract)
  | migrateContract (m : MsgMigrateContract)
  | updateAdmin (m : MsgUpdateAdmin)
  | clearAdmin (m : MsgClearAdmin)
  | updateInstantiateConfig (m : MsgUpdateInstantiateConfig)
  | updateParams (m : MsgUpdateParams)
  | sudoContract (m : MsgSudoContract)
  | pinCodes (m : MsgCodes)
  | unpinCodes (m : MsgCodes)
  | storeAndInstantiateContract (m : MsgStoreAndInstantiateContract)
  | addCodeUploadParamsAddresses (m : MsgUploadAddresses)
  | removeCodeUploadParamsAddresses (m : MsgUploadAddresses)
  | storeAndMigrateContract (m : MsgStoreAndMigrateContract)
  | updateContractLabel (m : MsgUpdateContractLabel)
  deriving DecidableEq, Repr

/-- The field that names the signer. -/
def Msg.sender : Msg → String
  | .storeCode m => m.sender
  | .instantiateContract m => m.sender
  | .instantiateContract2 m => m.sender
  | .executeContract m => m.sender
  | .migrateContract m => m.sender
  | .updateAdmin m => m.sender
  | .clearAdmin m => m.sender
  | .updateInstantiateConfig m => m.sender
  | .updateParams m => m.authority
  | .sudoContract m => m.authority
  | .pinCodes m => m.authority
  | .unpinCodes m => m.authority
  | .storeAndInstantiateContract m => m.authority
  | .addCodeUploadParamsAddresses m => m.authority
  | .removeCodeUploadParamsAddresses m => m.authority
  | .storeAndMigrateContract m => m.authority
  | .updateContractLabel m => m.sender

/-- The answers of the `Msg` service and of the raw IBC handler; the empty ones are one constructor. -/
inductive MsgServiceResponse
  | storeCode (codeID : UInt64) (checksum : Bytes)
  | instantiate (address : String) (data : Option Bytes)
  | data (data : Option Bytes)
  | storeAndMigrate (codeID : UInt64) (checksum : Bytes) (data : Option Bytes)
  | ibcSend (sequence : UInt64)
  | ibcWriteAcknowledgement
  | empty
  deriving DecidableEq, Repr

/-- An SDK message of another module, as a protobuf `Any`. -/
structure ExtMsg where
  typeURL : String
  value : Bytes
  deriving DecidableEq, Repr

/-- An SDK message a contract message is encoded to. Messages of other modules are sorted by what their
handler may call back: nothing, the channel callbacks of this module, or its messages. -/
inductive SdkMsg
  | wasm (m : Msg)
  | plain (m : ExtMsg)
  | channel (m : ExtMsg)
  | nested (m : ExtMsg)
  deriving DecidableEq, Repr

/-- The variant `EncodeWasmMsg` selects; `unset` when no pointer is set. -/
inductive WasmMsg
  | execute (contractAddr : String) (msg : Bytes) (funds : List WasmCoin)
  | instantiate (codeID : UInt64) (msg : Bytes) (funds : List WasmCoin) (label admin : String)
  | instantiate2 (codeID : UInt64) (msg : Bytes) (funds : List WasmCoin) (label admin : String) (salt : Bytes)
  | migrate (contractAddr : String) (newCodeID : UInt64) (msg : Bytes)
  | updateAdmin (contractAddr admin : String)
  | clearAdmin (contractAddr : String)
  | unset
  deriving DecidableEq, Repr

structure SendMsg where
  toAddress : String
  amount : List WasmCoin
  deriving DecidableEq, Repr

structure BankMsg where
  send : Option SendMsg := none
  burn : Option (List WasmCoin) := none
  deriving DecidableEq, Repr

structure SendPacketMsg where
  channelID : String
  data : Bytes
  timeoutHeight : Height := {}
  timeoutTimestamp : UInt64 := 0
  deriving DecidableEq, Repr

structure WriteAcknowledgementMsg where
  channelID : String
  packetSequence : UInt64
  ack : Bytes
  deriving DecidableEq, Repr

/-- `closeChannel` names the channel; `other` is a transfer or fee message, kept as its payload. -/
structure IBCMsg where
  closeChannel : Option String := none
  other : Option Bytes := none
  sendPacket : Option SendPacketMsg := none
  writeAcknowledgement : Option WriteAcknowledgementMsg := none
  deriving DecidableEq, Repr

/-- A message of a contract. In Go every variant is a pointer of its own, so several can be set. -/
structure CosmosMsg where
  bank : Option BankMsg := none
  custom : Option Bytes := none
  distribution : Option Bytes := none
  gov : Option Bytes := none
  ibc : Option IBCMsg := none
  staking : Option Bytes := none
  any : Option ExtMsg := none
  wasm : Option WasmMsg := none
  deriving DecidableEq, Repr

/-- `other` stands for every value that is not one of the four. -/
inductive ReplyOn
  | always
  | success
  | error
  | never
  | other (n : Int)
  deriving DecidableEq, Repr

structure SubMsg where
  id : UInt64
  msg : CosmosMsg
  payload : Bytes := []
  gasLimit : Option Gas := none
  replyOn : ReplyOn
  deriving DecidableEq, Repr

structure MsgResponse where
  typeURL : String
  value : Bytes
  deriving DecidableEq, Repr

structure SubMsgResponse where
  events : List Event
  data : Option Bytes
  msgResponses : List MsgResponse
  deriving DecidableEq, Repr

structure SubMsgResult where
  ok : Option SubMsgResponse := none
  err : String := ""
  deriving DecidableEq, Repr

structure Reply where
  gasUsed : UInt64 := 0
  id : UInt64
  result : SubMsgResult
  payload : Bytes
  deriving DecidableEq, Repr

/-- What a messenger returns for a message it handled. -/
structure DispatchResult where
  events : List Event
  data : List (Option Bytes)
  msgResponses : List (List MsgResponse)
  deriving DecidableEq, Repr

/-- `Response`: the part of a contract's answer the keeper acts on. -/
structure Response where
  messages : List SubMsg := []
  data : Option Bytes := none
  attributes : List Attribute := []
  events : List Event := []
  deriving DecidableEq, Repr

/-- The result wrapper of every entry point: `Ok` is a pointer, `Err` a text. -/
structure ContractResult (ρ : Type) where
  ok : Option ρ := none
  err : String := ""
  deriving DecidableEq

end Cosmwasgo.Types
