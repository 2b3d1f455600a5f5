import Cosmwasgo.Runs.Steps
import Cosmwasgo.State.Devnet

namespace Cosmwasgo.Runs

open Cosmwasgo.Lib Cosmwasgo.Types Cosmwasgo.State Cosmwasgo.Keeper MsgServer Relation

variable {X α : Type}

section Operations

variable (k : Keeper X) (n : Nat) (c : Ctx)

/-- The operations of the keeper as the message server, the other modules and IBC call them, all but the receipt
of a packet. `n` bounds the depth of the contract calls; the callers are addresses. -/
inductive KeeperOp : (α : Type) → M X α → Prop
  | message (m : Msg) : KeeperOp _ (handleMsg k (responseHandler k n) c m)
  | create (creator : AccAddress) (wasmCode : Bytes) (access : Option AccessConfig) (policy : AuthorizationPolicy) :
      KeeperOp _ (create k c creator wasmCode access policy)
  | instantiate (codeID : UInt64) {creator : AccAddress} (hc : k.bech32.valid creator = true) (admin : AccAddress)
      (initMsg : Bytes) (label : String) (funds : Coins) (policy : AuthorizationPolicy) :
      KeeperOp _ (instantiate k (responseHandler k n) c codeID creator admin initMsg label funds
        (classicAddressGenerator k) policy)
  | instantiate2 (codeID : UInt64) {creator : AccAddress} (hc : k.bech32.valid creator = true) (admin : AccAddress)
      (initMsg : Bytes) (label : String) (funds : Coins) (salt : Bytes) (fixMsg : Bool)
      (policy : AuthorizationPolicy) :
      KeeperOp _ (instantiate k (responseHandler k n) c codeID creator admin initMsg label funds
        (predictableAddressGenerator k creator salt initMsg fixMsg) policy)
  | execute (contract caller : AccAddress) (msg : Bytes) (coins : Coins) :
      KeeperOp _ (execute k (responseHandler k n) c contract caller msg coins)
  | migrate (contract caller : AccAddress) (codeID : UInt64) (msg : Bytes) (policy : AuthorizationPolicy) :
      KeeperOp _ (migrate k (responseHandler k n) c contract caller codeID msg policy)
  | sudoContract (contract : AccAddress) (msg : Bytes) :
      KeeperOp _ (Keeper.sudoContract k (responseHandler k n) c contract msg)
  | setContractAdmin (contract caller newAdmin : AccAddress) (policy : AuthorizationPolicy) :
      KeeperOp _ (setContractAdmin k c contract caller newAdmin policy)
  | setContractLabel (contract caller : AccAddress) (label : String) (policy : AuthorizationPolicy) :
      KeeperOp _ (setContractLabel k c contract caller label policy)
  | setContractInfoExtension (contract : AccAddress) (ext : Option Bytes) :
      KeeperOp _ (setContractInfoExtension k c contract ext)
  | setAccessConfig (codeID : UInt64) (caller : AccAddress) (config : AccessConfig) (policy : AuthorizationPolicy) :
      KeeperOp _ (setAccessConfig k c codeID caller config policy)
  | setParams (params : Params) : KeeperOp _ (setParams k params)
  | pinCode (codeID : UInt64) : KeeperOp _ (pinCode k codeID)
  | unpinCode (codeID : UInt64) : KeeperOp _ (unpinCode k codeID)
  | onOpenChannel (contract : AccAddress) (msg : IBCChannelOpenMsg) : KeeperOp _ (onOpenChannel k c contract msg)
  | ibcBasicCall (entry : IBCEntryPoint) (contract : AccAddress) (msg : Bytes) :
      KeeperOp _ (ibcBasicCall k (responseHandler k n) c entry contract msg)

/-- All operations of the keeper. -/
inductive RootOp : (α : Type) → M X α → Prop
  | keeper {α : Type} {m : M X α} (h : KeeperOp k n c α m) : RootOp α m
  | onRecvPacket (contract : AccAddress) (packet : IBCPacket) (relayer : String) :
      RootOp _ (onRecvPacket k (responseHandler k n) c contract packet relayer)

variable {k n c}

theorem RootOp.message (m : Msg) : RootOp k n c _ (handleMsg k (responseHandler k n) c m) := .keeper (.message m)

theorem RootOp.setParams (params : Params) : RootOp k n c _ (setParams k params) := .keeper (.setParams params)

end Operations

/-- Nobody is refused, so that the steps say nothing about who asked for them. -/
abbrev Anybody : Ctx → Operation → AccAddress → AuthorizationPolicy → Prop := fun _ _ _ _ ↦ True

abbrev freeRegime (k : Keeper X) : Regime k := stepsRegime k Anybody fun _ _ _ _ _ _ ↦ trivial

/-- What an operation other than the receipt of a packet asks a permission for. -/
def NoReceipt (op : Operation) : Prop := ∀ packet, op ≠ .receive packet

section Obeys

variable {k : Keeper X} {R : Regime k} {n : Nat} {c : Ctx} {m : M X α}

theorem KeeperOp.obeys (hobs : R.Observes) (h : KeeperOp k n c α m)
    (hp : ∀ {op} actor p, NoReceipt op → R.permits c op actor p) : (R.discipline (before c)).Obeys m := by
  have hh := Regime.handlerObeys_responseHandler hobs n
  cases h with
  | message m => exact Regime.obeys_handleMsg hh c m
  | create creator wasmCode access policy => exact Regime.clean_obeys (Regime.clean_create (hp _ _ nofun) _ _)
  | instantiate codeID hc admin initMsg label funds policy =>
    exact Regime.clean_obeys (Regime.clean_instantiate hh (hp _ _ nofun) Regime.generates_classic hc _ _ _ _ _)
  | instantiate2 codeID hc admin initMsg label funds salt fixMsg policy =>
    exact Regime.clean_obeys
      (Regime.clean_instantiate hh (hp _ _ nofun) (Regime.generates_predictable _ _ _ _) hc _ _ _ _ _)
  | execute contract caller msg coins => exact Regime.clean_obeys (Regime.clean_execute hh _ _ _ _)
  | migrate contract caller codeID msg policy => exact Regime.clean_obeys (Regime.clean_migrate hh (hp _ _ nofun) _ _)
  | sudoContract contract msg => exact Regime.clean_obeys (Regime.clean_sudoContract hh _ _)
  | setContractAdmin contract caller newAdmin policy =>
    exact Regime.clean_obeys (Regime.clean_setContractAdmin (hp _ _ nofun) _)
  | setContractLabel contract caller label policy =>
    exact Regime.clean_obeys (Regime.clean_setContractLabel (hp _ _ nofun) _)
  | setContractInfoExtension contract ext =>
    exact Regime.clean_obeys (Regime.clean_setContractInfoExtension (hp _ _ nofun) _)
  | setAccessConfig codeID caller config policy =>
    exact Regime.clean_obeys (Regime.clean_setAccessConfig (hp _ _ nofun) _ _)
  | setParams params => exact Regime.clean_obeys (Regime.clean_setParams _)
  | pinCode codeID => exact Regime.clean_obeys (Regime.clean_pinCode _)
  | unpinCode codeID => exact Regime.clean_obeys (Regime.clean_unpinCode _)
  | onOpenChannel contract msg => exact Regime.clean_obeys (Regime.clean_onOpenChannel _ _)
  | ibcBasicCall entry contract msg => exact Regime.clean_obeys (Regime.clean_ibcBasicCall hh _ _ _)

/-- Every operation obeys a regime that lets everybody do everything. -/
theorem RootOp.obeys (hobs : R.Observes) (hp : ∀ c op actor p, R.permits c op actor p) (h : RootOp k n c α m) :
    (R.discipline (before c)).Obeys m := by
  cases h with
  | keeper h => exact h.obeys hobs fun _ _ _ ↦ hp _ _ _ _
  | onRecvPacket contract packet relayer =>
    exact Regime.clean_obeys
      (Regime.clean_onRecvPacket (Regime.handlerObeys_responseHandler hobs n) (hp _ _ _ _) _ _)

end Obeys

theorem RootOp.steps {k : Keeper X} {n : Nat} {c : Ctx} {m : M X α} (h : RootOp k n c α m) (w : World X) :
    Steps k Anybody c (durable w) (committed m w) :=
  steps_committed (h.obeys (R := freeRegime k) (stepsRegime_observes _) fun _ _ _ _ ↦ trivial) w

def Durable.withExt (d : Durable X) (x : X) : Durable X := { d with store := { d.store with ext := x } }

theorem Quiet.withExt (d : Durable X) (x : X) : Quiet none d (d.withExt x) := .of_eq rfl rfl rfl rfl

/-- What a chain starts from: nothing in the store of the module and nothing in the cache of its VM. -/
def emptyDurable (x : X) : Durable X := ⟨{ kv := .empty, ext := x }, {}⟩

/-- The states after operations of the keeper, each kept or reverted as a whole, one after the other. Between
them the other modules go their own way. -/
inductive Reachable (k : Keeper X) : Durable X → Prop
  | empty (x : X) : Reachable k (emptyDurable x)
  | op {n : Nat} {c : Ctx} {α : Type} {m : M X α} {w : World X} (h : Reachable k (durable w))
      (hop : RootOp k n c α m) : Reachable k (committed m w)
  | outside {d : Durable X} (h : Reachable k d) (x : X) : Reachable k (d.withExt x)

/-- What the empty state has and every step keeps, every reachable state has. -/
theorem Reachable.invariant {k : Keeper X} {P : Durable X → Prop} (h₀ : ∀ x, P (emptyDurable x))
    (hstep : ∀ {c d d'}, Step k Anybody c d d' → P d → P d') {d : Durable X} (hd : Reachable k d) : P d := by
  have hsteps : ∀ {c d d'}, Steps k Anybody c d d' → P d → P d' := by
    intro c d d' h hd
    induction h with
    | refl => exact hd
    | tail _ h ih => exact hstep h ih
  induction hd with
  | empty x => exact h₀ x
  | op _ hop ih => exact hsteps (hop.steps _) ih
  | outside _ x ih =>
    let c : Ctx := { blockHeight := 0, blockTime := 0, chainID := "", blockGas := none }
    exact hstep (c := c) (.quiet (by simp) (.withExt _ x)) ih

/-- Messages through the message server, one after the other, none of them with a policy preset. -/
inductive MessageRun (k : Keeper X) (d : Durable X) : Durable X → Prop
  | start : MessageRun k d d
  | deliver {n : Nat} {c : Ctx} {m : Msg} {w : World X} (h : MessageRun k d (durable w)) (hs : c.stack = [])
      (hp : c.subMsgAuthzPolicy = none) : MessageRun k d (committed (handleMsg k (responseHandler k n) c m) w)
  | outside {d' : Durable X} (h : MessageRun k d d') (x : X) : MessageRun k d (d'.withExt x)

section Devnet

variable (call : Bytes → ContractCall → VMScript Response)

/-- A world to start a message in, with as much gas as it takes. -/
def worldOf (d : Durable X) : World X := { store := d.store, vm := d.vm, meter := ⟨0, 0, true⟩ }

@[simp] theorem durable_worldOf (d : Durable X) : durable (worldOf d) = d := rfl

/-- What outlives a message on a devnet. -/
def kept (m : Msg) (d : Durable Unit) : Durable Unit :=
  committed (handleMsg (devnet call) (responseHandler (devnet call) 2) genesisCtx m) (worldOf d)

variable {call}

/-- What outlives messages that are delivered one after the other. -/
def delivered (k : Keeper X) (d : Durable X) (ms : List Msg) : Durable X :=
  ms.foldl (fun d m ↦ committed (handleMsg k (responseHandler k 5) genesisCtx m) (worldOf d)) d

theorem Reachable.delivered {k : Keeper X} {d : Durable X} (h : Reachable k d) (ms : List Msg) :
    Reachable k (delivered k d ms) := by
  induction ms generalizing d with
  | nil => exact h
  | cons m ms ih => exact ih (.op (w := worldOf d) h (.message m))

theorem reachable_open : Reachable (devnet call) (durable openWorld) :=
  .op (w := emptyWorld) (.empty ()) (.setParams (n := 0) (c := genesisCtx) ⟨allowEverybody, .everybody⟩)

theorem Reachable.kept {d : Durable Unit} (h : Reachable (devnet call) d) (m : Msg) :
    Reachable (devnet call) (kept call m d) := .op (w := worldOf d) h (.message m)

end Devnet

end Cosmwasgo.Runs
