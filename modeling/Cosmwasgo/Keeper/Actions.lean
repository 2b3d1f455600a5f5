import Cosmwasgo.State.Oracle

namespace Cosmwasgo.Keeper

open Cosmwasgo.Lib Cosmwasgo.Types Cosmwasgo.State

variable {X α β : Type}

def liftPanic (x : Except Panic α) : M X α :=
  match x with
  | .ok a => pure a
  | .error p => Program.raise p

theorem liftPanic_eq_ok {x : Except Panic α} {a : α} {w w' : World X} :
    liftPanic x w = (.ok a, w') ↔ x = .ok a ∧ w' = w := by
  cases x with
  | ok b =>
    refine ⟨fun h ↦ ?_, ?_⟩
    · cases h
      exact ⟨rfl, rfl⟩
    · rintro ⟨h, rfl⟩
      cases h
      rfl
  | error p =>
    refine ⟨fun h ↦ ?_, ?_⟩
    · cases h
    · rintro ⟨h, -⟩
      cases h

def consumeGas (amount : Gas) (descriptor : String) : M X Unit := fun w ↦
  match w.meter.consume amount descriptor with
  | (none, m) => (.ok (), { w with meter := m })
  | (some p, m) => (.panic p, { w with meter := m })

def emitEvents (es : List Event) : M X Unit := Program.update fun w ↦ { w with events := w.events ++ es }

def observe (o : Observation X) : M X Unit := Program.update fun w ↦ { w with trace := w.trace ++ [o] }

/-- The same for what is said about the store as it is now. -/
def observeStore (o : Store X → Observation X) : M X Unit :=
  Program.update fun w ↦ { w with trace := w.trace ++ [o w.store] }

/-- An authorization decision, put on record before it is taken. -/
def authorize (c : Ctx) (policy : AuthorizationPolicy) (decision : Except Panic Bool) (e : Err) : M X Unit := do
  observe (.authorize c.stack policy)
  let granted ← liftPanic decision
  Program.require granted e

/-- The stores refuse an empty key. -/
def assertValidKey (key : Bytes) : M X Unit :=
  if key = [] then Program.raise (.other "key is nil or empty") else pure ()

def getKV (k : Keeper X) (key : Bytes) : M X (Option Value) := do
  assertValidKey key
  let v ← Program.read fun w ↦ w.store.kv.get key
  consumeGas (k.kvGas (.get key v)) "Read"
  return v

def hasKV (k : Keeper X) (key : Bytes) : M X Bool := do
  assertValidKey key
  consumeGas (k.kvGas (.has key)) "Has"
  Program.read fun w ↦ (w.store.kv.get key).isSome

def setKV (k : Keeper X) (key : Bytes) (v : Value) : M X Unit := do
  assertValidKey key
  consumeGas (k.kvGas (.set key v)) "Write"
  Program.update fun w ↦ { w with store := { w.store with kv := w.store.kv.set key v } }

def deleteKV (k : Keeper X) (key : Bytes) : M X Unit := do
  assertValidKey key
  consumeGas (k.kvGas (.delete key)) "Delete"
  Program.update fun w ↦ { w with store := { w.store with kv := w.store.kv.delete key } }

/-- Reads all entries under a key head, ascending. -/
def iterateKV (k : Keeper X) (head : Bytes) : M X (List (Bytes × Value)) := do
  let es ← Program.read fun w ↦ w.store.kv.scan head
  consumeGas (k.kvGas (.iterate head es.length)) "Iterate"
  return es

/-- Runs code of another module. -/
def external (f : X → ExtStep X α) : M X α := do
  let s ← Program.read fun w ↦ f w.store.ext
  Program.update fun w ↦ { w with store := { w.store with ext := s.state }, events := w.events ++ s.events }
  consumeGas s.gas "external"
  Program.finish s.result

/-- Runs with an event manager of its own and returns what was emitted. -/
def withEventManager (m : M X α) : M X (α × List Event) := fun w ↦
  let r := m { w with events := [] }
  (r.1.map (·, r.2.events), { r.2 with events := w.events })

theorem withEventManager_apply {m : M X α} {w w' : World X} {r : Outcome Err Panic α}
    (h : m { w with events := [] } = (r, w')) :
    withEventManager m w = (r.map (·, w'.events), { w' with events := w.events }) := by
  simp only [withEventManager, h]

/-- Runs under a meter of its own, then continues under the old one with the outcome and the gas used. -/
def withGasMeter (limit : Gas) (m : M X α) (next : Outcome Err Panic α → Gas → M X β) : M X β := fun w ↦
  let r := m { w with meter := .new limit }
  next r.1 r.2.meter.consumed { r.2 with meter := w.meter }

theorem withGasMeter_apply {limit : Gas} {m : M X α} {next : Outcome Err Panic α → Gas → M X β} {w w' : World X}
    {r : Outcome Err Panic α} (h : m { w with meter := .new limit } = (r, w')) :
    withGasMeter limit m next w = next r w'.meter.consumed { w' with meter := w.meter } := by
  simp only [withGasMeter, h]

/-- Runs in a cached context that is never written back. -/
def discarding (m : M X α) : M X α := fun w ↦
  let r := m { w with events := [] }
  (r.1, { r.2 with store := w.store, events := w.events })

/-- `x++` on a `uint64` counter. Go would wrap around after 2^64 steps; the model stops there. -/
def incUint64 (n : UInt64) : M X UInt64 :=
  if n.toNat + 1 < 2 ^ 64 then pure (n + 1) else Program.raise (.other "uint64 overflow")

def newAbsoluteTxPosition (c : Ctx) : Except Panic AbsoluteTxPosition :=
  if c.blockHeight < 0 then .error (.other ("unsupported height: " ++ toString c.blockHeight))
  else .ok ⟨UInt64.ofNat c.blockHeight.toNat, c.blockGas.getD 0⟩

def newEnv (k : Keeper X) (c : Ctx) (contractAddr : AccAddress) : Except Panic Env :=
  if c.blockHeight < 0 then .error (.other "Block height must never be negative")
  else if c.blockTime < 1 then .error (.other "Block (unix) time must never be empty or negative ")
  else .ok ⟨UInt64.ofNat c.blockHeight.toNat, UInt64.ofNat c.blockTime.toNat, c.chainID, c.txCounter,
    k.bech32.string contractAddr⟩

def newInfo (k : Keeper X) (creator : AccAddress) (deposit : Coins) : MessageInfo :=
  ⟨k.bech32.string creator, newWasmCoins deposit⟩

def maxUint64 : Gas := UInt64.ofNat (2 ^ 64 - 1)

def runtimeGasForContract (k : Keeper X) : M X Gas := do
  let meter ← Program.read fun w ↦ w.meter
  if meter.isOutOfGas then return 0
  else if meter.infinite || meter.limit = maxUint64 then return maxUint64
  else liftPanic (k.gasRegister.toWasmVMGas (meter.limit - min meter.consumed meter.limit))

def consumeRuntimeGas (k : Keeper X) (gas : Gas) : M X Unit := do
  let consumed ← liftPanic (k.gasRegister.fromWasmVMGas gas)
  consumeGas consumed "wasm contract"
  let meter ← Program.read fun w ↦ w.meter
  if meter.isOutOfGas then Program.raise (.outOfGas "Wasm engine function execution") else pure ()

def checkDiscountEligibility (checksum : Bytes) (isPinned : Bool) : M X Bool := do
  if isPinned then return true
  else
    let txContracts ← Program.read fun w ↦ w.txContracts
    match txContracts with
    | none => return false
    | some cs =>
      if checksum ∈ cs then return true
      else
        Program.update fun w ↦ { w with txContracts := some (if checksum = [] then cs else checksum :: cs) }
        return false

/-- The eligibility for the discount, which goes on record. -/
def recordedDiscount (checksum : Bytes) (isPinned : Bool) : M X Bool := do
  let discount ← checkDiscountEligibility checksum isPinned
  Program.update fun w ↦ { w with setups := w.setups ++ [⟨checksum, isPinned, discount⟩] }
  return discount

def redactError (e : Err) : Err :=
  match e with
  | .system _ => e
  | .deterministic _ => e
  | _ => .text ("codespace: " ++ e.abciInfo.1 ++ ", code: " ++ toString e.abciInfo.2)

/-- The wasmvm error of the first error in the chain that has one. -/
def asWasmVMErrorable : Err → Option SystemError
  | .flavoured _ e => some e
  | .wrap cause _ => asWasmVMErrorable cause
  | .deterministic cause => asWasmVMErrorable cause
  | _ => none

end Cosmwasgo.Keeper
