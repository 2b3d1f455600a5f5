import Cosmwasgo.Keeper.Lookup

namespace Cosmwasgo.Keeper

open Cosmwasgo.Lib Cosmwasgo.Types Cosmwasgo.State

variable {X ρ : Type}

def nilPointer : Panic := .other "invalid memory address or nil pointer dereference"
def indexOutOfRange : Panic := .other "index out of range"

/-- The VM on a code of its cache. -/
def runCode (k : Keeper X) (meter : VMGasMeter) (querier : QueryRequest → Gas → M X (Except Err Bytes)) (addr : AccAddress) (checksum : Bytes)
    (script : Bytes → VMScript ρ) : M X (Gas × Except String (Option (ContractResult ρ))) := do
  match ← Program.read fun w ↦ w.vm.codes.get checksum with
  | none => return (0, .error "Error opening Wasm file for reading")
  | some code => runVM k meter querier addr (script code)

/-- Gas, VM run and gas again, the same around every entry point. -/
def callVM (k : Keeper X) (entry : EntryPoint) (querier : QueryRequest → Gas → M X (Except Err Bytes)) (addr : AccAddress) (checksum : Bytes)
    (script : Bytes → Gas → VMScript ρ) : M X (Except String (Option (ContractResult ρ))) := do
  let gasLeft ← runtimeGasForContract k
  let (gasUsed, res) ← runCode k (handedMeter entry) querier addr checksum fun code ↦ script code gasLeft
  consumeRuntimeGas k gasUsed
  return res

/-- The size is a `uint32`, which wraps around before it is compared. -/
def checkAndIncreaseQueryStackSize (c : Ctx) (maxQueryStackSize : Nat) : Except Err Ctx :=
  let queryStackSize := (c.queryStackSize + 1) % 2 ^ 32
  if maxQueryStackSize < queryStackSize then .error errExceedMaxQueryStackSize else .ok { c with queryStackSize }

def checkAndIncreaseCallDepth (c : Ctx) (maxCallDepth : Nat) : Except Err Ctx :=
  if maxCallDepth < c.callDepth + 1 then .error errExceedMaxCallDepth
  else .ok { c with callDepth := c.callDepth + 1 }

/-- Charges for loading a contract, with the discount if it is pinned or was called in this transaction. -/
def chargeSetup (k : Keeper X) (checksum : Bytes) (codeID : UInt64) (msgLen : Nat) (entry : String) :
    M X Unit := do
  let isPinned ← isPinnedCode k codeID
  let discount ← recordedDiscount checksum isPinned
  let setupCost ← liftPanic (k.gasRegister.setupContractCost discount msgLen)
  consumeGas setupCost ("Loading CosmWasm module: " ++ entry)

def queryRaw (k : Keeper X) (contractAddress : AccAddress) (key : Option Bytes) : M X (Option Bytes) :=
  match key with
  | none => return none
  | some key => contractGet k contractAddress key

section

variable (k : Keeper X) (querier : Ctx → AccAddress → QueryRequest → Gas → M X (Except Err Bytes))

/-- `QuerySmart` once the stack size is checked. -/
def runSmartQuery (c : Ctx) (contractAddr : AccAddress) (req : Bytes) : M X Bytes := do
  let (contractInfo, codeInfo) ← contractInstance k contractAddr
  chargeSetup k codeInfo.codeHash contractInfo.codeID req.length "query"
  let env ← liftPanic (newEnv k c contractAddr)
  let c := c.push (.call .query contractAddr none)
  let res ← callVM k .query (querier c contractAddr) contractAddr codeInfo.codeHash fun code gas ↦
    k.wasmVM.query code env req gas
  match res with
  | .error e => Program.fail (.wrap errVMError e)
  | .ok none => Program.raise nilPointer
  | .ok (some r) =>
    if r.err ≠ "" then Program.fail (.deterministic (.wrap errQueryFailed r.err)) else return r.ok.getD []

def querySmart (c : Ctx) (contractAddr : AccAddress) (req : Bytes) : M X Bytes := do
  let c ← Program.lift (checkAndIncreaseQueryStackSize c k.maxQueryStackSize)
  runSmartQuery k querier c contractAddr req

end

/-- A smart query that a plugin makes. Queries only read, so nothing of it stays. -/
def pluginQuery (gasLimit : Option Gas) (m : M X Bytes) (next : Outcome Err Panic Bytes → M X Bytes) : M X Bytes :=
  match gasLimit with
  | none => (discarding m).attempt fun
    | .timeout => Program.expire
    | .panic p => Program.raise p
    | r => next r
  | some limit => withGasMeter limit (discarding m) fun
    | .timeout, _ => Program.expire
    | r, _ => next r

def runPlugin (smart : AccAddress → Bytes → M X Bytes) : QueryScript X → M X Bytes
  | .done run => external run
  | .smart run gasLimit next => do
    let (contractAddr, req) ← external run
    pluginQuery gasLimit (smart contractAddr req) fun r ↦ runPlugin smart (next r)

section IBC

variable (k : Keeper X) (caller : AccAddress)

/-- The channel as contracts see it, over the first of its hops. -/
def newIBCChannel (endpoint : IBCEndpoint) (ch : Channel) : Except Panic IBCChannel :=
  match ch.connectionHops with
  | [] => .error indexOutOfRange
  | connectionID :: _ => .ok {
      endpoint, counterpartyEndpoint := ch.counterparty, order := ch.ordering.string, version := ch.version, connectionID }

/-- `GetContractInfo(ctx, caller).IBCPortID`, read through the pointer. -/
def callerPort : M X String := do
  match ← getContractInfo k caller with
  | some contractInfo => return contractInfo.ibcPortID
  | none => Program.raise nilPointer

/-- Without a port in the request it is the caller's own. -/
def requestedPort (portID : String) : M X String := if portID = "" then callerPort k caller else pure portID

/-- The open channels the scan for the port finds. No port has no channels. -/
def listChannels (portID : String) : M X (List IBCChannel) :=
  if portID = "" then pure []
  else do
    let gotChannels ← external (k.host.getAllChannelsWithPortPrefix portID)
    liftPanic ((gotChannels.filter (·.state = .opened)).mapM fun ch ↦
      newIBCChannel ⟨ch.portID, ch.channelID⟩ ch.toChannel)

def channelInfo (portID channelID : String) : M X (Option IBCChannel) := do
  match ← external (k.host.getChannel portID channelID) with
  | none => return none
  | some got =>
    if got.state = .opened then do
      let channel ← liftPanic (newIBCChannel ⟨portID, channelID⟩ got)
      return some channel
    else return none

/-- What `IBCQuerier` answers: the first variant that is set decides. -/
def ibcResponse (request : IBCQuery) : M X IBCQueryResponse :=
  match request with
  | { portID := true, .. } => do
    let portID ← callerPort k caller
    return .portID portID
  | { listChannels := some q, .. } => do
    let portID ← requestedPort k caller q.portID
    let channels ← listChannels k portID
    return .listChannels channels
  | { channel := some q, .. } => do
    let portID ← requestedPort k caller q.portID
    let channel ← channelInfo k portID q.channelID
    return .channel channel
  | _ => Program.fail (.system (.unsupportedRequest "unknown IBCQuery variant"))

def ibcQuerier (request : IBCQuery) : M X Bytes := do
  let res ← ibcResponse k caller request
  return k.lib.marshalIBCResponse res

end IBC

/-- `QueryPlugins.HandleQuery`, with `smart` for `QuerySmart`. -/
def handleRequest (k : Keeper X) (smart : Ctx → AccAddress → Bytes → M X Bytes) (c : Ctx) (caller : AccAddress)
    (req : QueryRequest) : M X Bytes :=
  match req with
  | .ibc request => ibcQuerier k caller request
  | .smart contractAddr msg =>
    match k.bech32.fromBech32 contractAddr with
    | .error _ => Program.fail (.wrap errInvalidAddress contractAddr)
    | .ok addr => do
      Program.require (k.lib.jsonValid msg) (.wrap errInvalid "json msg")
      smart c addr msg
  | .raw contractAddr key =>
    match k.bech32.fromBech32 contractAddr with
    | .error _ => Program.fail (.wrap errInvalidAddress contractAddr)
    | .ok addr => do
      let v ← queryRaw k addr key
      return v.getD []
  | .contractInfo contractAddr =>
    match k.bech32.fromBech32 contractAddr with
    | .error _ => Program.fail (.wrap errInvalidAddress contractAddr)
    | .ok addr => do
      match ← getContractInfo k addr with
      | none => Program.fail (.wrap (errNoSuchContractFn contractAddr) ("address " ++ contractAddr))
      | some info =>
        let pinned ← isPinnedCode k info.codeID
        return k.lib.marshalContractInfo info pinned
  | .codeInfo codeID => do
    Program.require (codeID != 0) (.wrap errEmpty "code id")
    match ← getCodeInfo k codeID with
    | none => Program.fail (noSuchCode codeID)
    | some info => return k.lib.marshalCodeInfo codeID info
  | .other payload => runPlugin (smart c) (k.host.handleQuery c caller payload)

def handleQuery (k : Keeper X) (querier : Ctx → AccAddress → QueryRequest → Gas → M X (Except Err Bytes)) (c : Ctx)
    (caller : AccAddress) (req : QueryRequest) : M X Bytes :=
  handleRequest k (querySmart k querier) c caller req

/-- The result for the querying contract: errors are answers, with what is not deterministic redacted. -/
def subQueryResult : Outcome Err Panic Bytes → Outcome Err Panic (Except Err Bytes)
  | .ok b => .ok (.ok b)
  | .error e => .ok (.error (redactError (match asWasmVMErrorable e with | some s => .system s | none => e)))
  | .panic p => .panic p
  | .timeout => .timeout

/-- The deferred charge: made however the query ends, by a panic too. -/
def chargeCaller (r : Outcome Err Panic Bytes) (gasConsumed : Gas) : M X (Except Err Bytes) :=
  match r with
  | .timeout => Program.expire
  | r => do
    consumeGas gasConsumed "contract sub-query"
    Program.finish (subQueryResult r)

/-- Nothing of a sub-query stays but the gas it used. -/
def subQuery (sdkGas : Gas) (m : M X Bytes) : M X (Except Err Bytes) :=
  discarding (withGasMeter sdkGas m chargeCaller)

/-- `QueryHandler.Query`. Queries nest at most `maxQueryStackSize` deep, so that much fuel is enough. -/
def query (k : Keeper X) : Nat → Ctx → AccAddress → QueryRequest → Gas → M X (Except Err Bytes)
  | 0, _, _, _, _ => Program.expire
  | fuel + 1, c, caller, request, gasLimit => do
    let sdkGas ← liftPanic (k.gasRegister.fromWasmVMGas gasLimit)
    subQuery sdkGas (handleQuery k (query k fuel) c caller request)

def newQueryHandler (k : Keeper X) (c : Ctx) (caller : AccAddress) : QueryRequest → Gas → M X (Except Err Bytes) :=
  query k (k.maxQueryStackSize + 1) c caller

end Cosmwasgo.Keeper
