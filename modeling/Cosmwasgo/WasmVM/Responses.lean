import Cosmwasgo.Lib.GoJson
import Cosmwasgo.WasmVM.Deserialize

namespace Cosmwasgo.WasmVM

open Cosmwasgo.Lib Cosmwasgo.Lib.GoJson Cosmwasgo.State Cosmwasgo.Keeper
open Cosmwasgo.Types hiding Value

/-- The types of responses that have an `UnmarshalJSON`. -/
inductive Unmarshaler
  | cosmosMsg
  | voteMsg
  | voteOption
  | replyOn
  | array
  deriving DecidableEq, Repr

abbrev ResponsePart := GoType Unmarshaler

section Parts

def record (fields : List (String × ResponsePart)) : ResponsePart := .struct (.ofList fields)

/-- `Array[C]`. -/
def array (elem : ResponsePart) : ResponsePart := .custom .array (.slice elem)

def coin : ResponsePart := record [("denom", .string), ("amount", .string)]

def eventAttribute : ResponsePart := record [("key", .string), ("value", .string)]

def event : ResponsePart := record [("type", .string), ("attributes", array eventAttribute)]

def sendMsg : ResponsePart := record [("to_address", .string), ("amount", array coin)]

def burnMsg : ResponsePart := record [("amount", array coin)]

def bankMsg : ResponsePart := record [("send", .ptr sendMsg), ("burn", .ptr burnMsg)]

def voteOption : ResponsePart := .custom .voteOption .string

def internalVoteMsg : ResponsePart :=
  record [("proposal_id", .uint 64), ("option", .ptr voteOption), ("vote", .ptr voteOption)]

def voteMsg : ResponsePart := .custom .voteMsg internalVoteMsg

def weightedVoteOption : ResponsePart := record [("option", voteOption), ("weight", .string)]

def voteWeightedMsg : ResponsePart := record [("proposal_id", .uint 64), ("options", .slice weightedVoteOption)]

def govMsg : ResponsePart := record [("vote", .ptr voteMsg), ("vote_weighted", .ptr voteWeightedMsg)]

def ibcTimeoutBlock : ResponsePart := record [("revision", .uint 64), ("height", .uint 64)]

def ibcTimeout : ResponsePart := record [("block", .ptr ibcTimeoutBlock), ("timestamp", .quoted 64)]

def ibcAcknowledgement : ResponsePart := record [("data", .bytes)]

def ibcFee : ResponsePart :=
  record [("ack_fee", array coin), ("receive_fee", array coin), ("timeout_fee", array coin)]

def transferMsg : ResponsePart :=
  record [("channel_id", .string), ("to_address", .string), ("amount", coin), ("timeout", ibcTimeout), ("memo", .string)]

def sendPacketMsg : ResponsePart := record [("channel_id", .string), ("data", .bytes), ("timeout", ibcTimeout)]

def writeAcknowledgementMsg : ResponsePart :=
  record [("ack", ibcAcknowledgement), ("channel_id", .string), ("packet_sequence", .uint 64)]

def closeChannelMsg : ResponsePart := record [("channel_id", .string)]

def payPacketFeeMsg : ResponsePart :=
  record [("channel_id", .string), ("fee", ibcFee), ("port_id", .string), ("relayers", array .string)]

def payPacketFeeAsyncMsg : ResponsePart :=
  record [("channel_id", .string), ("fee", ibcFee), ("port_id", .string), ("relayers", array .string),
    ("sequence", .uint 64)]

def ibcMsg : ResponsePart :=
  record [("transfer", .ptr transferMsg), ("send_packet", .ptr sendPacketMsg),
    ("write_acknowledgement", .ptr writeAcknowledgementMsg), ("close_channel", .ptr closeChannelMsg),
    ("pay_packet_fee", .ptr payPacketFeeMsg), ("pay_packet_fee_async", .ptr payPacketFeeAsyncMsg)]

/-- `DelegateMsg` and `UndelegateMsg`. -/
def delegateMsg : ResponsePart := record [("validator", .string), ("amount", coin)]

def redelegateMsg : ResponsePart := record [("src_validator", .string), ("dst_validator", .string), ("amount", coin)]

def stakingMsg : ResponsePart :=
  record [("delegate", .ptr delegateMsg), ("undelegate", .ptr delegateMsg), ("redelegate", .ptr redelegateMsg)]

def setWithdrawAddressMsg : ResponsePart := record [("address", .string)]

def withdrawDelegatorRewardMsg : ResponsePart := record [("validator", .string)]

def fundCommunityPoolMsg : ResponsePart := record [("amount", array coin)]

def distributionMsg : ResponsePart :=
  record [("set_withdraw_address", .ptr setWithdrawAddressMsg),
    ("withdraw_delegator_reward", .ptr withdrawDelegatorRewardMsg), ("fund_community_pool", .ptr fundCommunityPoolMsg)]

def anyMsg : ResponsePart := record [("type_url", .string), ("value", .bytes)]

def executeMsg : ResponsePart := record [("contract_addr", .string), ("msg", .bytes), ("funds", array coin)]

def instantiateMsg : ResponsePart :=
  record [("code_id", .uint 64), ("msg", .bytes), ("funds", array coin), ("label", .string), ("admin", .string)]

def instantiate2Msg : ResponsePart :=
  record [("code_id", .uint 64), ("msg", .bytes), ("funds", array coin), ("label", .string), ("admin", .string),
    ("salt", .bytes)]

def migrateMsg : ResponsePart := record [("contract_addr", .string), ("new_code_id", .uint 64), ("msg", .bytes)]

def updateAdminMsg : ResponsePart := record [("contract_addr", .string), ("admin", .string)]

def clearAdminMsg : ResponsePart := record [("contract_addr", .string)]

def wasmMsg : ResponsePart :=
  record [("execute", .ptr executeMsg), ("instantiate", .ptr instantiateMsg), ("instantiate2", .ptr instantiate2Msg),
    ("migrate", .ptr migrateMsg), ("update_admin", .ptr updateAdminMsg), ("clear_admin", .ptr clearAdminMsg)]

def internalCosmosMsg : ResponsePart :=
  record [("bank", .ptr bankMsg), ("custom", .raw), ("distribution", .ptr distributionMsg), ("gov", .ptr govMsg),
    ("ibc", .ptr ibcMsg), ("staking", .ptr stakingMsg), ("any", .ptr anyMsg), ("wasm", .ptr wasmMsg),
    ("stargate", .ptr anyMsg)]

def cosmosMsg : ResponsePart := .custom .cosmosMsg internalCosmosMsg

def replyOn : ResponsePart := .custom .replyOn .string

def subMsg : ResponsePart :=
  record [("id", .uint 64), ("msg", cosmosMsg), ("payload", .bytes), ("gas_limit", .ptr (.uint 64)),
    ("reply_on", replyOn)]

def response : ResponsePart :=
  record [("messages", .slice subMsg), ("data", .bytes), ("attributes", .slice eventAttribute), ("events", .slice event)]

def ibcBasicResponse : ResponsePart :=
  record [("messages", .slice subMsg), ("attributes", .slice eventAttribute), ("events", .slice event)]

def ibcReceiveResponse : ResponsePart :=
  record [("acknowledgement", .bytes), ("messages", .slice subMsg), ("attributes", .slice eventAttribute),
    ("events", .slice event)]

def ibc3ChannelOpenResponse : ResponsePart := record [("version", .string)]

def result (ok : ResponsePart) : ResponsePart := record [("ok", ok), ("error", .string)]

end Parts

section Unmarshalers

def nilDereference : Panic := .other "invalid memory address or nil pointer dereference"

def toVoteOption : String → Option Nat
  | "yes" => some 1
  | "no" => some 2
  | "abstain" => some 3
  | "no_with_veto" => some 4
  | _ => none

def toReplyOn : String → Option Nat
  | "always" => some 1
  | "success" => some 2
  | "error" => some 3
  | "never" => some 4
  | _ => none

/-- `UnmarshalJSON` of `voteOption` and of `replyOn`. -/
def fromText (lookup : String → Option Nat) (what : String) (j : Value) : Except String Value :=
  match lookup j.text with
  | some n => .ok (.uint n)
  | none => .error ("invalid " ++ what ++ " '" ++ j.text ++ "'")

def unmarshalCosmosMsg (tmp : Value) : Except String Value :=
  let cosmosMsg (any : Value) : Value :=
    .struct [tmp.field 0, tmp.field 1, tmp.field 2, tmp.field 3, tmp.field 4, tmp.field 5, any, tmp.field 7]
  match (tmp.field 6).deref, (tmp.field 8).deref with
  | some _, some _ => .error "invalid CosmosMsg: both 'any' and 'stargate' fields are set"
  | none, some _ => .ok (cosmosMsg (tmp.field 8))
  | _, none => .ok (cosmosMsg (tmp.field 6))

def unmarshalVoteMsg (tmp : Value) : Except Panic (Except String Value) :=
  match (tmp.field 1).deref, (tmp.field 2).deref with
  | some _, some _ => .ok (.error "invalid VoteMsg: both 'option' and 'vote' fields are set")
  | none, some vote => .ok (.ok (.struct [tmp.field 0, vote]))
  | some option, none => .ok (.ok (.struct [tmp.field 0, option]))
  -- `*tmp.Option`
  | none, none => .error nilDereference

def unmarshalArray (raw : Value) : Value := if raw.items.isEmpty then .slice [] [] else raw

def Unmarshaler.zero : Unmarshaler → Value
  | .cosmosMsg => .struct (List.replicate 8 .nil)
  | .voteMsg => .struct [.uint 0, .uint 0]
  | .voteOption => .uint 0
  | .replyOn => .uint 0
  | .array => .nil

def Unmarshaler.finish : Unmarshaler → Value → Except Panic (Except String Value)
  | .cosmosMsg, tmp => .ok (unmarshalCosmosMsg tmp)
  | .voteMsg, tmp => unmarshalVoteMsg tmp
  | .voteOption, j => .ok (fromText toVoteOption "vote option" j)
  | .replyOn, j => .ok (fromText toReplyOn "reply_on value" j)
  | .array, raw => .ok (.ok (unmarshalArray raw))

def decoder (texts : Texts) : Decoder Unmarshaler Panic := ⟨texts, Unmarshaler.zero, Unmarshaler.finish⟩

end Unmarshalers

/-- The types of results, and of those with submessages where they are. -/
inductive ResultType
  | contractResult
  | queryResult
  | ibcChannelOpenResult
  | ibcBasicResult
  | ibcReceiveResult
  deriving DecidableEq, Repr

namespace ResultType

def type : ResultType → ResponsePart
  | contractResult => result (.ptr response)
  | queryResult => result .bytes
  | ibcChannelOpenResult => result (.ptr ibc3ChannelOpenResponse)
  | ibcBasicResult => result (.ptr ibcBasicResponse)
  | ibcReceiveResult => result (.ptr ibcReceiveResponse)

/-- `SubMessages`, for the types that have it. -/
def subMessages : ResultType → Option (Value → List Value)
  | contractResult => some fun r ↦ (r.field 0).deref.elim [] fun ok ↦ (ok.field 0).items
  | ibcBasicResult => some fun r ↦ (r.field 0).deref.elim [] fun ok ↦ (ok.field 0).items
  | ibcReceiveResult => some fun r ↦ (r.field 0).deref.elim [] fun ok ↦ (ok.field 1).items
  | _ => none

end ResultType

/-- The methods of the VM that read a response. -/
inductive VMCall
  | instantiate
  | execute
  | query
  | migrate
  | migrateWithInfo
  | sudoContract
  | reply
  | ibcChannelOpen
  | ibcChannelConnect
  | ibcChannelClose
  | ibcPacketReceive
  | ibcPacketAck
  | ibcPacketTimeout
  | ibcSourceCallback
  | ibcDestinationCallback
  deriving DecidableEq, Repr

def VMCall.result : VMCall → ResultType
  | instantiate => .contractResult
  | execute => .contractResult
  | query => .queryResult
  | migrate => .contractResult
  | migrateWithInfo => .contractResult
  | sudoContract => .contractResult
  | reply => .contractResult
  | ibcChannelOpen => .ibcChannelOpenResult
  | ibcChannelConnect => .ibcBasicResult
  | ibcChannelClose => .ibcBasicResult
  | ibcPacketReceive => .ibcReceiveResult
  | ibcPacketAck => .ibcBasicResult
  | ibcPacketTimeout => .ibcBasicResult
  | ibcSourceCallback => .ibcBasicResult
  | ibcDestinationCallback => .ibcBasicResult

def checkSizes : Nat → List Nat → Except String Unit
  | _, [] => .ok ()
  | i, n :: ns =>
    if replyPayloadMaxBytes < n then
      .error ("reply contains submessage at index " ++ toString i ++ " with payload larger than " ++
        toString replyPayloadMaxBytes ++ " bytes: " ++ toString n ++ " bytes")
    else checkSizes (i + 1) ns

/-- The sizes of the payloads, if the type has submessages. -/
def ResultType.payloadSizes (t : ResultType) (v : Value) : Option (List Nat) :=
  t.subMessages.map fun subMessages ↦ (subMessages v).map fun m ↦ (m.field 2).toBytes.length

section Reading

variable (texts : Texts) (parse : Bytes → Except String Json)

/-- The response, once it is paid for. -/
def readResponse (t : ResultType) (data : Bytes) : Except Panic (Except String Value) :=
  match parse data with
  | .error e => .ok (.error e)
  | .ok j => do
    match ← unmarshal (decoder texts) t.type j with
    | .error e => return .error e
    | .ok v =>
      return do
        match t.payloadSizes v with
        | some sizes => checkSizes 0 sizes
        | none => pure ()
        return v

/-- `DeserializeResponse`, with what the unmarshalers do. -/
def deserialize (call : VMCall) (gasLimit : UInt64) (deserCost : UFraction) (gasReport : GasReport) (data : Bytes) :
    Except Panic (Except String Value × GasReport) := do
  let gasForDeserialization ← (deserCost.mul (UInt64.ofNat data.length)).floor
  if gasLimit < gasForDeserialization + gasReport.usedInternally then
    return (.error ("Insufficient gas left to deserialize contract execution result (" ++ toString data.length ++
      " bytes)"), gasReport)
  else
    let response ← readResponse texts parse call.result data
    return (response, gasReport.charge gasForDeserialization)

end Reading

theorem checkPayloads_eq_checkSizes (i : Nat) (ms : List SubMsg) :
    checkPayloads i ms = checkSizes i (ms.map fun m ↦ m.payload.length) := by
  induction ms generalizing i with
  | nil => rfl
  | cons m ms ih => simp only [checkPayloads, checkSizes, List.map_cons, ih]

/-- `t` reads the responses of `call` as values of its own, as long as that is possible. -/
structure Views {ρ : Type} (texts : Texts) (parse : Bytes → Except String Json) (call : VMCall) (t : ResponseType ρ)
    (view : Value → ρ) : Prop where
  unmarshal : ∀ {data j r}, parse data = .ok j → GoJson.unmarshal (decoder texts) call.result.type j = .ok r →
    t.unmarshal data = r.map view
  invalid : ∀ {data e}, parse data = .error e → t.unmarshal data = .error e
  payloads : ∀ v, (t.subMessages (view v)).map (List.map fun m ↦ m.payload.length) = call.result.payloadSizes v

section Bridge

variable {ρ : Type} {texts : Texts} {parse : Bytes → Except String Json} {call : VMCall} {t : ResponseType ρ}
variable {view : Value → ρ} {data : Bytes}

theorem Views.decode_eq (hviews : Views texts parse call t view) {r : Except String Value}
    (h : readResponse texts parse call.result data = .ok r) : t.decode data = r.map view := by
  simp only [readResponse] at h
  split at h
  next e hparse =>
    cases h
    rw [ResponseType.decode, hviews.invalid hparse]
    rfl
  next j hparse =>
    obtain ⟨u, hu, hrest⟩ := except_bind_eq_ok.1 h
    rw [ResponseType.decode, hviews.unmarshal hparse hu]
    cases u with
    | error e =>
      cases hrest
      rfl
    | ok v =>
      cases hrest
      rw [← hviews.payloads v]
      dsimp only [Except.map, bind, Except.bind]
      rcases hms : t.subMessages (view v) with _ | ms
      · rfl
      · simp only [Option.map_some, ← checkPayloads_eq_checkSizes]
        cases checkPayloads 0 ms <;> rfl

/-- Whatever the responses are read as, what is returned is the same, as long as nothing panics. -/
theorem Views.deserializeResponse_eq (hviews : Views texts parse call t view) {gasLimit : UInt64}
    {deserCost : UFraction} {report : GasReport} {r : Except String Value × GasReport}
    (h : deserialize texts parse call gasLimit deserCost report data = .ok r) :
    deserializeResponse t gasLimit deserCost report data = .ok (r.1.map view, r.2) := by
  obtain ⟨cost, hcost, hrest⟩ := except_bind_eq_ok.1 h
  rw [deserializeResponse, hcost]
  split at hrest
  next hlow =>
    cases hrest
    exact if_pos hlow
  next hpaid =>
    obtain ⟨x, hx, hpure⟩ := except_bind_eq_ok.1 hrest
    cases hpure
    rw [← hviews.decode_eq hx]
    exact if_neg hpaid

end Bridge

end Cosmwasgo.WasmVM
