import Cosmwasgo.Keeper.Genesis
import Cosmwasgo.Types.Coins

namespace Cosmwasgo.Types

open Cosmwasgo.Lib

/-- `undefined` is what `GetLimit` returns for a grant without a limit it knows. -/
inductive ContractAuthzLimit
  | undefined
  | maxCalls (remaining : UInt64)
  | maxFunds (amounts : Coins)
  | combined (callsRemaining : UInt64) (amounts : Coins)
  deriving DecidableEq, Repr

inductive ContractAuthzFilter
  | undefined
  | allowAllMessages
  | acceptedMessageKeys (keys : List String)
  | acceptedMessages (messages : List Bytes)
  deriving DecidableEq, Repr

structure ContractGrant where
  contract : String
  limit : ContractAuthzLimit
  filter : ContractAuthzFilter
  deriving DecidableEq, Repr

structure ContractAuthzLimitAcceptResult where
  accepted : Bool := false
  deleteLimit : Bool := false
  updateLimit : Option ContractAuthzLimit := none
  deriving DecidableEq, Repr

/-- `ContractExecutionAuthorization` and `ContractMigrationAuthorization` differ in the messages they are for. -/
inductive ContractAuthzKind
  | execution
  | migration
  deriving DecidableEq, Repr

structure ContractAuthorization where
  kind : ContractAuthzKind
  grants : List ContractGrant
  deriving DecidableEq, Repr

structure AcceptResponse where
  accept : Bool := false
  delete : Bool := false
  updated : Option ContractAuthorization := none
  deriving DecidableEq, Repr

/-- What an authorization sees of a message. -/
structure AuthzableWasmMsg where
  funds : Coins
  msg : Bytes
  contract : String
  deriving DecidableEq, Repr

/-- The message, if it is of the type that the authorization is for. A migration carries no funds. -/
def ContractAuthzKind.asAuthzable : ContractAuthzKind → Msg → Option AuthzableWasmMsg
  | .execution, .executeContract m => some ⟨m.funds, m.msg, m.contract⟩
  | .migration, .migrateContract m => some ⟨[], m.msg, m.contract⟩
  | _, _ => none

def errInvalidType : Err := .sdk "sdk" 29 "invalid type"

/-- The SDK's own error, not the one of this module. -/
def sdkErrNotFound : Err := .sdk "sdk" 38 "not found"

end Cosmwasgo.Types

namespace Cosmwasgo.Keeper

open Cosmwasgo.Lib Cosmwasgo.Types Cosmwasgo.State

variable {X : Type} (k : Keeper X)

section Validation

def ContractAuthzLimit.validateBasic : ContractAuthzLimit → Except Err Unit
  | .undefined => .error (.wrap errInvalidType "undefined limit")
  | .maxCalls remaining => check (remaining ≠ 0) (.wrap errEmpty "remaining calls")
  | .maxFunds amounts => do
    k.lib.coinsValidate amounts
    check (!amounts.isZero) (.wrap errEmpty "amounts")
  | .combined callsRemaining amounts => do
    check (callsRemaining ≠ 0) (.wrap errEmpty "remaining calls")
    check (!amounts.isZero) (.wrap errEmpty "amounts")
    wrap (k.lib.coinsValidate amounts) "amounts"

def validateKeys (idx : List String) : List String → Except Err Unit
  | [] => .ok ()
  | m :: rest => do
    check (m ≠ "") (.wrap errEmpty "key")
    check (m = k.lib.trimSpace m) (.wrap errInvalid ("key " ++ m.quote ++ " contains whitespaces"))
    check (!idx.contains m) (.wrap errDuplicate ("key " ++ m.quote))
    validateKeys (m :: idx) rest

def validateMessages (idx : List Bytes) : List Bytes → Except Err Unit
  | [] => .ok ()
  | m :: rest => do
    check (m ≠ []) (.wrap errEmpty "message")
    validateRawContractMessage k m
    check (!idx.contains m) (.wrap errDuplicate "message")
    validateMessages (m :: idx) rest

def ContractAuthzFilter.validateBasic : ContractAuthzFilter → Except Err Unit
  | .undefined => .error (.wrap errInvalidType "undefined filter")
  | .allowAllMessages => .ok ()
  | .acceptedMessageKeys keys => do
    check (keys ≠ []) (.wrap errEmpty "keys")
    validateKeys k [] keys
  | .acceptedMessages messages => do
    check (messages ≠ []) (.wrap errEmpty "messages")
    validateMessages k [] messages

def ContractGrant.validateBasic (g : ContractGrant) : Except Err Unit := do
  validateAddress k "contract" g.contract
  wrap (ContractAuthzLimit.validateBasic k g.limit) "limit"
  wrap (ContractAuthzFilter.validateBasic k g.filter) "filter"

def validateGrants (g : List ContractGrant) : Except Err Unit := do
  check (g ≠ []) (.wrap errEmpty "grants")
  validateEach (ContractGrant.validateBasic k) "position " 0 g

def ContractAuthorization.validateBasic (a : ContractAuthorization) : Except Err Unit := validateGrants k a.grants

end Validation

section Accept

/-- `sdk.NewCoins`. -/
def newCoins (coins : Coins) : Except Panic Coins :=
  match k.lib.coinsValidate (Coins.sanitize coins) with
  | .ok _ => .ok (Coins.sanitize coins)
  | .error e => .error (.other ("invalid coin set: " ++ e.error))

def noCallsLeft : Err := .wrap errUnauthorized "no calls left"

/-- The error of the undefined limit speaks of a filter, as in the source. -/
def ContractAuthzLimit.accept (msg : AuthzableWasmMsg) : ContractAuthzLimit → M X ContractAuthzLimitAcceptResult
  | .undefined => Program.fail (.wrap sdkErrNotFound "undefined filter")
  | .maxCalls n =>
    if msg.funds ≠ [] then return { accepted := false }
    else if n = 0 then Program.fail noCallsLeft
    else if n = 1 then return { accepted := true, deleteLimit := true }
    else return { accepted := true, updateLimit := some (.maxCalls (n - 1)) }
  | .maxFunds amounts =>
    if msg.funds = [] then return { accepted := true }
    else if !Coins.isAllLTE msg.funds amounts then return { accepted := false }
    else do
      let newAmounts ← liftPanic (Coins.sub amounts msg.funds)
      if newAmounts.isZero then return { accepted := true, deleteLimit := true }
      else return { accepted := true, updateLimit := some (.maxFunds newAmounts) }
  | .combined n amounts =>
    if !Coins.isAllLTE msg.funds amounts then return { accepted := false }
    else if n = 0 then Program.fail noCallsLeft
    else if n = 1 then return { accepted := true, deleteLimit := true }
    else do
      let remainingAmounts ← liftPanic (Coins.sub amounts msg.funds)
      if remainingAmounts.isZero then return { accepted := true, deleteLimit := true }
      else do
        let amounts ← liftPanic (newCoins k remainingAmounts)
        return { accepted := true, updateLimit := some (.combined (n - 1) amounts) }

-- what `json.Unmarshal` into an `interface` finds: the keys of the document, if it is an object
variable (decode : Bytes → Except Err (Option (List String)))

def isJSONObjectWithTopLevelKey (jsonBytes : Bytes) (allowedKeys : List String) : Except Err Bool := do
  validateRawContractMessage k jsonBytes
  match ← decode jsonBytes with
  | some [topLevelKey] => return allowedKeys.contains topLevelKey
  | _ => return false

def gasDeserializationCostPerByte : UInt64 := 1

def ContractAuthzFilter.accept (msg : Bytes) : ContractAuthzFilter → M X Bool
  | .undefined => Program.fail (.wrap sdkErrNotFound "undefined filter")
  | .allowAllMessages => do
    Program.lift (validateRawContractMessage k msg)
    return true
  | .acceptedMessageKeys keys => do
    consumeGas (gasDeserializationCostPerByte * UInt64.ofNat msg.length) "contract authorization"
    Program.lift ((isJSONObjectWithTopLevelKey k decode msg keys).mapError fun e ↦
      .wrap errUnauthorized ("not an allowed msg: " ++ e.error))
  | .acceptedMessages messages => return messages.contains msg

/-- The sanity check of the grants that an authorization is left with. -/
def newAuthz (kind : ContractAuthzKind) (grants : List ContractGrant) : M X AcceptResponse := do
  Program.lift ((validateGrants k grants).mapError fun e ↦ .wrap errInvalid ("new grant state: " ++ e.error))
  return { accept := true, updated := some ⟨kind, grants⟩ }

/-- The limit state update for the grant behind `done`. The source edits the slice of the grants in place. -/
def updateGrants (kind : ContractAuthzKind) (done : List ContractGrant) (g : ContractGrant) (rest : List ContractGrant)
    (result : ContractAuthzLimitAcceptResult) : M X AcceptResponse :=
  if result.deleteLimit then
    if done ++ rest = [] then return { accept := true, delete := true } else newAuthz k kind (done ++ rest)
  else
    match result.updateLimit with
    | some limit => newAuthz k kind (done ++ { g with limit } :: rest)
    | none => return { accept := true }

/-- The loop of `AcceptGrantedMessage`, with the grants before the current one. -/
def acceptGrants (kind : ContractAuthzKind) (exec : AuthzableWasmMsg) (done : List ContractGrant) :
    List ContractGrant → M X AcceptResponse
  | [] => return { accept := false }
  | g :: rest =>
    if g.contract ≠ exec.contract then acceptGrants kind exec (done ++ [g]) rest
    else do
      let result ← wrapErr (ContractAuthzLimit.accept k exec g.limit) "limit"
      if !result.accepted then acceptGrants kind exec (done ++ [g]) rest
      else do
        let ok ← wrapErr (ContractAuthzFilter.accept k decode exec.msg g.filter) "filter"
        if !ok then acceptGrants kind exec (done ++ [g]) rest
        else updateGrants k kind done g rest result

def acceptGrantedMessage (a : ContractAuthorization) (msg : Msg) : M X AcceptResponse :=
  match a.kind.asAuthzable msg with
  | none => Program.fail (.wrap errInvalidType "type mismatch")
  | some exec => do
    Program.require (exec.msg ≠ []) (.wrap errInvalidType "empty message")
    Program.lift (Msg.validateBasic k msg)
    acceptGrants k decode a.kind exec [] a.grants

end Accept

end Cosmwasgo.Keeper
