import Cosmwasgo.Runs.Operations
import Cosmwasgo.Keeper.Relay

namespace Cosmwasgo.Runs

open Cosmwasgo.Lib Cosmwasgo.Types Cosmwasgo.State Cosmwasgo.Keeper

variable {X ρ α : Type}

/-- A contract call as the VM gets it, and what the keeper makes of the answer. -/
structure Invocation (X ρ α : Type) where
  entry : EntryPoint
  querier : QueryRequest → Gas → M X (Except Err Bytes)
  addr : AccAddress
  checksum : Bytes
  script : Bytes → Gas → VMScript ρ
  conclude : Except String (Option (ContractResult ρ)) → M X α
  querier_local : ∀ request gasLimit, Local none (querier request gasLimit)

def Invocation.call (k : Keeper X) (v : Invocation X ρ α) : M X (Except String (Option (ContractResult ρ))) :=
  callVM k v.entry v.querier v.addr v.checksum v.script

theorem Invocation.call_local (k : Keeper X) (v : Invocation X ρ α) : Local (some v.addr) (v.call k) :=
  .callVM v.entry (fun request gasLimit ↦ (v.querier_local request gasLimit).weaken _) v.checksum v.script

/-- The call a preparation arrived at. -/
def Invocation.ofOutcome : Outcome Err Panic (Option (Invocation X ρ α)) → Option (Invocation X ρ α)
  | .ok v => v
  | _ => none

/-- A preparation that was seen to arrive at a call with a value of `f`. -/
theorem Invocation.exists_of_ofOutcome {γ : Type} {m : M X (Option (Invocation X ρ α))} {w : World X}
    {f : Invocation X ρ α → World X → γ} {x : γ} (hx : (ofOutcome (m w).1).map (f · (m w).2) = some x) :
    ∃ v w₁, m w = (.ok (some v), w₁) ∧ f v w₁ = x := by
  obtain ⟨v, hv, hf⟩ := Option.map_eq_some_iff.1 hx
  refine ⟨v, (m w).2, Program.apply_eq ?_, hf⟩
  cases hm : (m w).1 with
  | ok o =>
    rw [hm] at hv
    exact congrArg _ hv
  | error e => rw [hm] at hv; cases hv
  | panic p => rw [hm] at hv; cases hv
  | timeout => rw [hm] at hv; cases hv

/-- The ways into a contract. `salted` holds the salt and the `fixMsg` flag of a predictable address; the queries of a
queried contract nest at most `fuel` deep. -/
inductive ContractEntry
  | instantiate (codeID : UInt64) (creator admin : AccAddress) (initMsg : Bytes) (label : String) (funds : Coins)
      (salted : Option (Bytes × Bool)) (policy : AuthorizationPolicy)
  | execute (contract caller : AccAddress) (msg : Bytes) (coins : Coins)
  | migrate (contract caller : AccAddress) (codeID : UInt64) (msg : Bytes) (policy : AuthorizationPolicy)
  | sudoContract (contract : AccAddress) (msg : Bytes)
  | reply (contract : AccAddress) (r : Reply)
  | query (fuel : Nat) (contract : AccAddress) (req : Bytes)
  | openChannel (contract : AccAddress) (msg : IBCChannelOpenMsg)
  | ibc (entry : IBCEntryPoint) (contract : AccAddress) (msg : Bytes)
  | receivePacket (contract : AccAddress) (packet : IBCPacket) (relayer : String)

namespace ContractEntry

/-- The entry point of the contract. -/
def entryPoint : ContractEntry → EntryPoint
  | .instantiate .. => .instantiate
  | .execute .. => .execute
  | .migrate .. => .migrate
  | .sudoContract .. => .sudo
  | .reply .. => .reply
  | .query .. => .query
  | .openChannel .. => .ibc
  | .ibc .. => .ibc
  | .receivePacket .. => .ibc

/-- The contract that is called, if it is there before the call. -/
def contract : ContractEntry → Option AccAddress
  | .instantiate .. => none
  | .execute contract .. => some contract
  | .migrate contract .. => some contract
  | .sudoContract contract .. => some contract
  | .reply contract .. => some contract
  | .query _ contract .. => some contract
  | .openChannel contract .. => some contract
  | .ibc _ contract .. => some contract
  | .receivePacket contract .. => some contract

/-- What the contract answers with. -/
abbrev Answer : ContractEntry → Type
  | .query .. => Bytes
  | .openChannel .. => String
  | _ => Response

/-- What the keeper returns. -/
abbrev Result : ContractEntry → Type
  | .instantiate .. => AccAddress × Option Bytes
  | .query .. => Bytes
  | .openChannel .. => String
  | .ibc .. => Unit
  | .receivePacket .. => Option Acknowledgement
  | _ => Option Bytes

instance : (e : ContractEntry) → DecidableEq e.Answer
  | .instantiate .. | .execute .. | .migrate .. | .sudoContract .. | .reply .. | .ibc .. | .receivePacket .. =>
    inferInstanceAs (DecidableEq Response)
  | .query .. => inferInstanceAs (DecidableEq Bytes)
  | .openChannel .. => inferInstanceAs (DecidableEq String)

instance : (e : ContractEntry) → DecidableEq e.Result
  | .instantiate .. => inferInstanceAs (DecidableEq (AccAddress × Option Bytes))
  | .execute .. | .migrate .. | .sudoContract .. | .reply .. => inferInstanceAs (DecidableEq (Option Bytes))
  | .query .. => inferInstanceAs (DecidableEq Bytes)
  | .openChannel .. => inferInstanceAs (DecidableEq String)
  | .ibc .. => inferInstanceAs (DecidableEq Unit)
  | .receivePacket .. => inferInstanceAs (DecidableEq (Option Acknowledgement))

section

variable (k : Keeper X) (h : ResponseHandler X) (c : Ctx)

/-- The generator of the address of a new contract. -/
def generator (creator : AccAddress) (initMsg : Bytes) : Option (Bytes × Bool) → AddressGenerator X
  | none => classicAddressGenerator k
  | some (salt, fixMsg) => predictableAddressGenerator k creator salt initMsg fixMsg

def run : (e : ContractEntry) → M X e.Result
  | .instantiate codeID creator admin initMsg label funds salted policy =>
    Keeper.instantiate k h c codeID creator admin initMsg label funds (generator k creator initMsg salted) policy
  | .execute contract caller msg coins => Keeper.execute k h c contract caller msg coins
  | .migrate contract caller codeID msg policy => Keeper.migrate k h c contract caller codeID msg policy
  | .sudoContract contract msg => Keeper.sudoContract k h c contract msg
  | .reply contract r => Keeper.reply k h c contract r
  | .query fuel contract req => querySmart k (Keeper.query k fuel) c contract req
  | .openChannel contract msg => onOpenChannel k c contract msg
  | .ibc entry contract msg => ibcBasicCall k h c entry contract msg
  | .receivePacket contract packet relayer => onRecvPacket k h c contract packet relayer

/-- The code before the VM is called. A migration between codes of one migrate version calls no contract. -/
def prepare : (e : ContractEntry) → M X (Option (Invocation X e.Answer e.Result))
  | .instantiate codeID creator admin initMsg label funds salted policy => do
    Program.require (creator ≠ []) (.wrap errEmpty "creator")
    match ← getCodeInfo k codeID with
    | none => Program.fail (noSuchCode codeID)
    | some codeInfo =>
      chargeSetup k codeInfo.codeHash codeID initMsg.length "instantiate"
      authorize c policy (policy.canInstantiateContract k.bech32 codeInfo.instantiateConfig creator)
        (.wrap errUnauthorized "can not instantiate")
      let (addr, exists_) ← newAddress k (generator k creator initMsg salted) codeID codeInfo.codeHash
      Program.require (!exists_) (.wrap errDuplicate
        "contract address already exists, try a different combination of creator, checksum and salt")
      prepareAccount k addr
      deposit k creator addr funds
      let env ← liftPanic (newEnv k c addr)
      let c' := c.push (.call .instantiate addr (some policy))
      observe (.call c'.stack)
      return some {
        entry := .instantiate, querier := newQueryHandler k c' addr, addr, checksum := codeInfo.codeHash
        querier_local := Local.newQueryHandler c' addr
        script := fun code gas ↦ k.wasmVM.call code env (.instantiate (newInfo k creator funds) initMsg) gas
        conclude := fun res ↦ do
          let ok ← Program.lift (contractResult errVMError errInstantiateFailed res)
          let createdAt ← liftPanic (newAbsoluteTxPosition c)
          let report ← analyzeCode k codeInfo.codeHash errVMError
          let ibcPortID ← instancePort k addr report
          persistInstance k c creator addr initMsg
            { newContractInfo k codeID creator admin label createdAt with ibcPortID } policy
          emitContractEvent k "instantiate" addr [codeIDAttribute codeID]
          let response ← deref ok
          let c' := c'.withSubMsgAuthzPolicy (policy.subMessageAuthorizationPolicy .instantiate)
          let data ← wrapErr (handleContractResponse k h c' addr ibcPortID response) "dispatch"
          return (addr, data) }
  | .execute contract caller msg coins => do
    let (contractInfo, codeInfo) ← contractInstance k contract
    chargeSetup k codeInfo.codeHash contractInfo.codeID msg.length "execute"
    deposit k caller contract coins
    let env ← liftPanic (newEnv k c contract)
    let c' := c.push (.call .execute contract none)
    observe (.call c'.stack)
    return some {
      entry := .execute, querier := newQueryHandler k c' contract, addr := contract, checksum := codeInfo.codeHash
      querier_local := Local.newQueryHandler c' contract
      script := fun code gas ↦ k.wasmVM.call code env (.execute (newInfo k caller coins) msg) gas
      conclude := fun res ↦ do
        let ok ← Program.lift (contractResult errVMError errExecuteFailed res)
        emitContractEvent k "execute" contract []
        let response ← deref ok
        handleContractResponse k h c' contract contractInfo.ibcPortID response }
  | .migrate contract caller codeID msg policy => do
    match ← getContractInfo k contract with
    | none => Program.fail unknownContract
    | some contractInfo =>
      let admin ← liftPanic (adminAddr k contractInfo)
      authorize c policy (.ok (policy.canModifyContract admin caller)) (.wrap errUnauthorized "can not migrate")
      match ← getCodeInfo k codeID with
      | none => Program.fail (.wrap errInvalidRequest "unknown code")
      | some newCodeInfo =>
        authorize c policy (policy.canInstantiateContract k.bech32 newCodeInfo.instantiateConfig caller)
          (.wrap errUnauthorized "to use new code")
        let report ← analyzeCode k newCodeInfo.codeHash errVMError
        let ibcPortID ← migratedPort k contract contractInfo report
        let oldCodeInfo ← getCodeInfo k contractInfo.codeID
        let oldCodeInfo ← deref oldCodeInfo
        let oldReport ← analyzeCode k oldCodeInfo.codeHash errVMError
        let c' := c.push (.call .migrate contract (some policy))
        if sameMigrateVersion report oldReport then return none
        else do
          chargeSetup k newCodeInfo.codeHash codeID msg.length "migrate"
          let env ← liftPanic (newEnv k c' contract)
          observe (.call c'.stack)
          return some {
            entry := .migrate, querier := newQueryHandler k c' contract, addr := contract
            checksum := newCodeInfo.codeHash, querier_local := Local.newQueryHandler c' contract
            script := fun code gas ↦
              k.wasmVM.call code env (.migrate msg ⟨k.bech32.string caller, oldReport.contractMigrateVersion⟩) gas
            conclude := fun res ↦ do
              let response ← Program.lift (contractResult errVMError errMigrationFailed res)
              persistMigration k c contract caller codeID msg { contractInfo with ibcPortID } policy
              emitEvents [⟨"migrate", [codeIDAttribute codeID, ⟨"_contract_address", k.bech32.string contract⟩]⟩]
              match response with
              | none => return none
              | some response =>
                let c' := c'.withSubMsgAuthzPolicy (policy.subMessageAuthorizationPolicy .migrateContract)
                wrapErr (handleContractResponse k h c' contract ibcPortID response) "dispatch" }
  | .sudoContract contract msg => do
    let (contractInfo, codeInfo) ← contractInstance k contract
    chargeSetup k codeInfo.codeHash contractInfo.codeID msg.length "sudo"
    let env ← liftPanic (newEnv k c contract)
    let c' := c.push (.call .sudo contract none)
    observe (.call c'.stack)
    return some {
      entry := .sudo, querier := newQueryHandler k c' contract, addr := contract, checksum := codeInfo.codeHash
      querier_local := Local.newQueryHandler c' contract
      script := fun code gas ↦ k.wasmVM.call code env (.sudo msg) gas
      conclude := fun res ↦ do
        let ok ← Program.lift (contractResult errVMError errExecuteFailed res)
        emitContractEvent k "sudo" contract []
        let response ← deref ok
        wrapErr (handleContractResponse k h c' contract contractInfo.ibcPortID response) "dispatch" }
  | .reply contract r => do
    let (contractInfo, codeInfo) ← contractInstance k contract
    let replyCosts ← liftPanic (k.gasRegister.replyCosts true r)
    consumeGas replyCosts "Loading CosmWasm module: reply"
    let env ← liftPanic (newEnv k c contract)
    let c' := c.push (.call .reply contract none)
    observe (.call c'.stack)
    return some {
      entry := .reply, querier := newQueryHandler k c' contract, addr := contract, checksum := codeInfo.codeHash
      querier_local := Local.newQueryHandler c' contract
      script := fun code gas ↦ k.wasmVM.call code env (.reply r) gas
      conclude := fun res ↦ do
        let ok ← Program.lift (contractResult errVMError errExecuteFailed res)
        emitContractEvent k "reply" contract []
        let response ← deref ok
        wrapErr (handleContractResponse k h c' contract contractInfo.ibcPortID response) "dispatch" }
  | .query fuel contract req => do
    let c ← Program.lift (checkAndIncreaseQueryStackSize c k.maxQueryStackSize)
    let (contractInfo, codeInfo) ← contractInstance k contract
    chargeSetup k codeInfo.codeHash contractInfo.codeID req.length "query"
    let env ← liftPanic (newEnv k c contract)
    let c := c.push (.call .query contract none)
    return some {
      entry := .query, querier := Keeper.query k fuel c contract, addr := contract, checksum := codeInfo.codeHash
      querier_local := Local.query fuel c contract
      script := fun code gas ↦ k.wasmVM.query code env req gas
      conclude := fun
        | .error e => Program.fail (.wrap errVMError e)
        | .ok none => Program.raise nilPointer
        | .ok (some r) =>
          if r.err ≠ "" then Program.fail (.deterministic (.wrap errQueryFailed r.err)) else return r.ok.getD [] }
  | .openChannel contract msg => do
    let (_, codeInfo) ← contractInstance k contract
    let env ← liftPanic (newEnv k c contract)
    let c' := c.push (.call .ibc contract none)
    observe (.call c'.stack)
    return some {
      entry := .ibc, querier := newQueryHandler k c' contract, addr := contract, checksum := codeInfo.codeHash
      querier_local := Local.newQueryHandler c' contract
      script := fun code gas ↦ k.wasmVM.ibcChannelOpen code env msg gas
      conclude := fun
        | .error e => Program.fail (.wrap errExecuteFailed e)
        | .ok none => return ""
        | .ok (some r) => return r.ok.getD "" }
  | .ibc entry contract msg => do
    let (contractInfo, codeInfo) ← contractInstance k contract
    let env ← liftPanic (newEnv k c contract)
    let c' := c.push (.call .ibc contract none)
    observe (.call c'.stack)
    return some {
      entry := .ibc, querier := newQueryHandler k c' contract, addr := contract, checksum := codeInfo.codeHash
      querier_local := Local.newQueryHandler c' contract
      script := fun code gas ↦ k.wasmVM.call code env (.ibc entry msg) gas
      conclude := fun res ↦ do
        let ok ← Program.lift (contractResult errExecuteFailed errExecuteFailed res)
        let response ← deref ok
        let _ ← handleContractResponse k h c' contract contractInfo.ibcPortID { response with data := none }
        return () }
  | .receivePacket contract packet relayer => do
    let (contractInfo, codeInfo) ← contractInstance k contract
    let env ← liftPanic (newEnv k c contract)
    let c' := c.push (.call .ibc contract none)
    observe (.call c'.stack)
    return some {
      entry := .ibc, querier := newQueryHandler k c' contract, addr := contract, checksum := codeInfo.codeHash
      querier_local := Local.newQueryHandler c' contract
      script := fun code gas ↦ k.wasmVM.call code env (.ibcPacketReceive packet relayer) gas
      conclude := fun
        | .error e => Program.raise (.other e)
        | .ok none => Program.fail (.wrap errVMError "internal wasmvm error")
        | .ok (some r) =>
          if r.err ≠ "" then return some (.error r.err)
          else do
            let response ← deref r.ok
            let data ← handleContractResponse k h c' contract contractInfo.ibcPortID response
            acknowledge k (convertPacket packet) data }

end

end ContractEntry

section Follows

variable {β : Type} {k : Keeper X}

/-- Whenever the preparation arrives at a call of the VM, the program goes on with that call. -/
def Follows (k : Keeper X) (m : M X α) (p : M X (Option (Invocation X ρ α))) : Prop :=
  ∀ ⦃w v w₁⦄, p w = (.ok (some v), w₁) → m w = (v.call k >>= v.conclude) w₁

namespace Follows

theorem bind {m : M X β} {f : β → M X α} {g : β → M X (Option (Invocation X ρ α))} (hf : ∀ b, Follows k (f b) (g b)) :
    Follows k (m >>= f) (m >>= g) := by
  intro w v w₁ hp
  obtain ⟨b, w', hm, hg⟩ := Program.bind_eq_ok.1 hp
  rw [Program.bind_of_ok f hm]
  exact hf b hg

theorem fail (m : M X α) (e : Err) : Follows k m (Program.fail e : M X (Option (Invocation X ρ α))) := nofun

theorem skip (m : M X α) : Follows k m (pure none : M X (Option (Invocation X ρ α))) := nofun

theorem call {v : Invocation X ρ α} {f : Except String (Option (ContractResult ρ)) → M X α}
    (hf : ∀ res, v.conclude res = f res) : Follows k (v.call k >>= f) (pure (some v)) := by
  intro w v' w₁ hp
  cases hp
  rw [← funext hf]

/-- The call of a contract goes on record first. -/
theorem observed {v : Invocation X ρ α} {c : Ctx} {f : Except String (Option (ContractResult ρ)) → M X α}
    (hq : v.querier = newQueryHandler k c v.addr) (hf : ∀ res, v.conclude res = f res) :
    Follows k (callContract k v.entry c v.addr v.checksum v.script >>= f)
      (observe (.call c.stack) >>= fun _ ↦ pure (some v)) := by
  rw [callContract, Program.bind_assoc, ← hq]
  exact bind fun _ ↦ call hf

end Follows

/-- Every call the preparation arrives at has the property. -/
def Yields (P : Invocation X ρ α → Prop) (p : M X (Option (Invocation X ρ α))) : Prop :=
  ∀ ⦃w v w₁⦄, p w = (.ok (some v), w₁) → P v

namespace Yields

variable {P : Invocation X ρ α → Prop}

theorem bind {m : M X β} {g : β → M X (Option (Invocation X ρ α))} (hg : ∀ b, Yields P (g b)) : Yields P (m >>= g) := by
  intro w v w₁ hp
  obtain ⟨b, w', -, hb⟩ := Program.bind_eq_ok.1 hp
  exact hg b hb

theorem liftPanic {x : Except Panic β} {g : β → M X (Option (Invocation X ρ α))}
    (hg : ∀ b, x = .ok b → Yields P (g b)) : Yields P (Keeper.liftPanic x >>= g) := by
  cases x with
  | error p => exact nofun
  | ok b => exact hg b rfl

theorem fail (e : Err) : Yields P (Program.fail e : M X (Option (Invocation X ρ α))) := nofun

theorem skip : Yields P (pure none : M X (Option (Invocation X ρ α))) := nofun

theorem call {v : Invocation X ρ α} (hv : P v) : Yields P (pure (some v)) := by
  intro w v' w₁ hp
  cases hp
  exact hv

end Yields

end Follows

namespace ContractEntry

variable {k : Keeper X} {h : ResponseHandler X} {c : Ctx}

theorem generates_generator (creator : AccAddress) (initMsg : Bytes) (salted : Option (Bytes × Bool)) :
    Regime.Generates k (generator k creator initMsg salted) := by
  cases salted with
  | none => exact Regime.generates_classic
  | some s => exact Regime.generates_predictable _ _ _ _

theorem follows_prepare (e : ContractEntry) : Follows k (e.run k h c) (e.prepare k h c) := by
  cases e with
  | instantiate codeID creator admin initMsg label funds salted policy =>
    refine .bind fun _ ↦ .bind fun code ↦ ?_
    cases code with
    | none => exact .fail _ _
    | some code =>
      refine .bind fun _ ↦ .bind fun _ ↦ .bind fun (addr, taken) ↦ .bind fun _ ↦ .bind fun _ ↦ .bind fun _ ↦ ?_
      exact .bind fun env ↦ .observed rfl fun _ ↦ rfl
  | execute contract caller msg coins =>
    refine .bind fun (info, code) ↦ .bind fun _ ↦ .bind fun _ ↦ .bind fun env ↦ ?_
    exact .observed rfl fun _ ↦ rfl
  | migrate contract caller codeID msg policy =>
    refine .bind fun info ↦ ?_
    cases info with
    | none => exact .fail _ _
    | some info =>
      refine .bind fun admin ↦ .bind fun _ ↦ .bind fun code ↦ ?_
      cases code with
      | none => exact .fail _ _
      | some code =>
        refine .bind fun _ ↦ .bind fun report ↦ .bind fun port ↦ .bind fun old ↦ .bind fun old ↦ .bind fun oldReport ↦ ?_
        dsimp only [callMigrateIfNeeded]
        split
        · exact .skip _
        · rw [callMigrateEntrypoint, Program.bind_assoc]
          refine .bind fun _ ↦ ?_
          rw [Program.bind_assoc]
          refine .bind fun env ↦ ?_
          rw [Program.bind_assoc]
          refine .observed rfl fun res ↦ bind_congr fun response ↦ ?_
          cases response <;> rfl
  | sudoContract contract msg =>
    refine .bind fun (info, code) ↦ .bind fun _ ↦ .bind fun env ↦ ?_
    exact .observed rfl fun _ ↦ rfl
  | reply contract r =>
    refine .bind fun (info, code) ↦ .bind fun _ ↦ .bind fun _ ↦ .bind fun env ↦ ?_
    exact .observed rfl fun _ ↦ rfl
  | query fuel contract req =>
    refine .bind fun c ↦ .bind fun (info, code) ↦ .bind fun _ ↦ .bind fun env ↦ ?_
    refine .call fun res ↦ ?_
    rcases res with e | _ | r <;> rfl
  | openChannel contract msg =>
    refine .bind fun (info, code) ↦ .bind fun env ↦ .observed rfl fun res ↦ ?_
    rcases res with e | _ | r <;> rfl
  | ibc entry contract msg =>
    refine .bind fun (info, code) ↦ .bind fun env ↦ ?_
    exact .observed rfl fun _ ↦ rfl
  | receivePacket contract packet relayer =>
    rw [run, onRecvPacket, Keeper.receivePacket, Program.bind_assoc]
    refine .bind fun (info, code) ↦ ?_
    dsimp only
    rw [Program.bind_assoc]
    refine .bind fun env ↦ ?_
    rw [Program.bind_assoc]
    refine .observed rfl fun res ↦ ?_
    rcases res with e | _ | r
    · rfl
    · rfl
    · by_cases hr : r.err ≠ ""
      · simp only [if_pos hr]
        rfl
      · simp only [if_neg hr, Program.bind_assoc]
        rfl

/-- The call that an entry point comes down to: which contract runs, and who answers its queries. -/
structure Calls (k : Keeper X) (e : ContractEntry) (v : Invocation X e.Answer e.Result) : Prop where
  entry : v.entry = e.entryPoint
  addr : ∀ a, e.contract = some a → v.addr = a
  querier : ∃ fuel c, v.querier = Keeper.query k fuel c v.addr ∧ (e.contract = none → fuel ≠ 0)

theorem Calls.handled {e : ContractEntry} {v : Invocation X e.Answer e.Result} {c : Ctx} (hentry : v.entry = e.entryPoint)
    (haddr : e.contract.getD v.addr = v.addr) (hquerier : v.querier = newQueryHandler k c v.addr) : e.Calls k v where
  entry := hentry
  addr a ha := by
    rw [ha] at haddr
    exact haddr.symm
  querier := ⟨_, c, hquerier, fun _ ↦ nofun⟩

theorem yields_prepare (e : ContractEntry) : Yields (e.Calls k) (e.prepare k h c) := by
  cases e with
  | instantiate codeID creator admin initMsg label funds salted policy =>
    refine .bind fun _ ↦ .bind fun code ↦ ?_
    cases code with
    | none => exact .fail _
    | some code =>
      refine .bind fun _ ↦ .bind fun _ ↦ .bind fun (addr, taken) ↦ .bind fun _ ↦ .bind fun _ ↦ .bind fun _ ↦ ?_
      exact .bind fun env ↦ .bind fun _ ↦ .call (.handled rfl rfl rfl)
  | execute contract caller msg coins =>
    exact .bind fun (info, code) ↦ .bind fun _ ↦ .bind fun _ ↦ .bind fun env ↦ .bind fun _ ↦ .call (.handled rfl rfl rfl)
  | migrate contract caller codeID msg policy =>
    refine .bind fun info ↦ ?_
    cases info with
    | none => exact .fail _
    | some info =>
      refine .bind fun admin ↦ .bind fun _ ↦ .bind fun code ↦ ?_
      cases code with
      | none => exact .fail _
      | some code =>
        refine .bind fun _ ↦ .bind fun report ↦ .bind fun port ↦ .bind fun old ↦ .bind fun old ↦ .bind fun oldReport ↦ ?_
        dsimp only
        split
        · exact .skip
        · exact .bind fun _ ↦ .bind fun env ↦ .bind fun _ ↦ .call (.handled rfl rfl rfl)
  | sudoContract contract msg => exact .bind fun (info, code) ↦ .bind fun _ ↦ .bind fun env ↦ .bind fun _ ↦ .call (.handled rfl rfl rfl)
  | reply contract r =>
    exact .bind fun (info, code) ↦ .bind fun _ ↦ .bind fun _ ↦ .bind fun env ↦ .bind fun _ ↦ .call (.handled rfl rfl rfl)
  | query fuel contract req =>
    refine .bind fun c ↦ .bind fun (info, code) ↦ .bind fun _ ↦ .bind fun env ↦ .call ⟨rfl, ?_, fuel, _, rfl, nofun⟩
    exact fun a ha ↦ Option.some.inj ha
  | openChannel contract msg => exact .bind fun (info, code) ↦ .bind fun env ↦ .bind fun _ ↦ .call (.handled rfl rfl rfl)
  | ibc entry contract msg => exact .bind fun (info, code) ↦ .bind fun env ↦ .bind fun _ ↦ .call (.handled rfl rfl rfl)
  | receivePacket contract packet relayer => exact .bind fun (info, code) ↦ .bind fun env ↦ .bind fun _ ↦ .call (.handled rfl rfl rfl)

end ContractEntry

end Cosmwasgo.Runs
