import Cosmwasgo.Runs.Actions

namespace Cosmwasgo.Runs

open Cosmwasgo.Lib Cosmwasgo.Types Cosmwasgo.State Cosmwasgo.Keeper

variable {X α β ρ : Type} {o : Option AccAddress} {k : Keeper X}

namespace Local

theorem getContractInfo (addr : AccAddress) : Local o (Keeper.getContractInfo k addr) := by
  refine (getKV k _).bind fun v ↦ ?_
  split
  · exact .pure _
  · exact .pure _
  · exact .raise _

theorem hasContractInfo (addr : AccAddress) : Local o (Keeper.hasContractInfo k addr) := hasKV k _

theorem getCodeInfo (codeID : UInt64) : Local o (Keeper.getCodeInfo k codeID) := by
  refine (getKV k _).bind fun v ↦ ?_
  split
  · exact .pure _
  · exact .pure _
  · exact .raise _

theorem isPinnedCode (codeID : UInt64) : Local o (Keeper.isPinnedCode k codeID) := hasKV k _

theorem getParams : Local o (Keeper.getParams k) := by
  refine (getKV k _).bind fun v ↦ ?_
  split
  · exact .pure _
  · exact .raise _
  · exact .raise _

theorem contractInstance (addr : AccAddress) : Local o (Keeper.contractInstance k addr) := by
  refine (getContractInfo addr).bind fun v ↦ ?_
  split
  · exact .fail _
  · refine (getCodeInfo _).bind fun v ↦ ?_
    split
    · exact .fail _
    · exact .pure _

theorem contractGet (addr : AccAddress) (key : Bytes) : Local o (Keeper.contractGet k addr key) :=
  (getKV k _).bind fun _ ↦ .pure _

theorem setState (addr : AccAddress) {key : Bytes} (hk : key ≠ []) (value : Bytes) :
    Local (some addr) (setKV k (getContractStorePrefix addr ++ key) (.bytes value)) := by
  refine (assertValidKey _).bind fun _ ↦ (consumeGas _ _).bind fun _ ↦ ⟨fun w ↦ ?_, .update fun E _ w v hw ↦ ?_⟩
  · refine ⟨rfl, ⟨rfl, rfl, rfl, fun j hj ↦ ?_, fun j v hv ↦ ?_⟩, .refl _ _, .of_eq rfl rfl⟩
    · refine OrderedStore.get_set_of_ne _ _ fun h ↦ hj ⟨addr ++ key, ?_⟩
      rw [h, getContractStorePrefix, List.append_assoc]
    · change (w.store.kv.set (getContractStorePrefix addr ++ key) (.bytes value)).get j = some v at hv
      rw [OrderedStore.get_set] at hv
      split at hv
      · next hj => exact .inr ⟨addr, key, value, rfl, hk, hj, (Option.some.inj hv).symm⟩
      · exact .inl hv
  · exact ⟨by rw [hw.store], hw.meter, hw.txContracts, hw.vm, hw.events⟩

theorem contractSet (addr : AccAddress) (key value : Bytes) :
    Local (some addr) (Keeper.contractSet k addr key value) := by
  unfold Keeper.contractSet Keeper.assertValidKey
  by_cases hk : key = []
  · rw [if_pos hk]
    exact Local.raise _
  · rw [if_neg hk]
    exact setState addr hk value

theorem contractRemove (addr : AccAddress) (key : Bytes) :
    Local (some addr) (Keeper.contractRemove k addr key) := by
  refine (assertValidKey _).bind fun _ ↦ (consumeGas _ _).bind fun _ ↦ ⟨fun w ↦ ?_, .update fun E _ w v hw ↦ ?_⟩
  · refine ⟨rfl, ⟨rfl, rfl, rfl, fun j hj ↦ ?_, fun j v hv ↦ ?_⟩, .refl _ _, .of_eq rfl rfl⟩
    · refine OrderedStore.get_delete_of_ne _ fun h ↦ hj ⟨addr ++ key, ?_⟩
      rw [h, getContractStorePrefix, List.append_assoc]
    · left
      change (w.store.kv.delete (getContractStorePrefix addr ++ key)).get j = some v at hv
      rw [OrderedStore.get_delete] at hv
      split at hv
      · cases hv
      · exact hv
  · exact ⟨by rw [hw.store], hw.meter, hw.txContracts, hw.vm, hw.events⟩

theorem contractScan (addr : AccAddress) (start stop : Option Bytes) (descending : Bool) :
    Local o (Keeper.contractScan k addr start stop descending) :=
  (iterateKV k _).bind fun _ ↦ .pure _

theorem readMeter (m : VMGasMeter) : Local o (Keeper.readMeter k m) :=
  (read fun _ _ _ hm _ _ ↦ hm).bind fun _ ↦ liftPanic _

theorem measured {op : M X β} (hop : Local o op) (m : VMGasMeter) : Local o (Keeper.measured k m op) :=
  (readMeter m).bind fun _ ↦ hop.bind fun _ ↦ (readMeter m).bind fun _ ↦ .pure _

end Local

/-- A run of the VM swallows failures of the host, so it may return with an exhausted meter. -/
theorem runVM_keeps {querier : QueryRequest → Gas → M X (Except Err Bytes)} {addr : AccAddress}
    (hq : ∀ r g, Local (some addr) (querier r g)) (meter : VMGasMeter) (script : VMScript ρ)
    (w : World X) : Keeps (some addr) w .panic (runVM k meter querier addr script w).2 := by
  have call : ∀ {β : Type} {op : M X β} {next : β → Gas → M X (Gas × Except String (Option (ContractResult ρ)))}
      {m spent w}, Local (some addr) op → (∀ b g w, Keeps (some addr) w .panic (next b g w).2) →
        Keeps (some addr) w .panic (hostCall spent (measured k m op) next w).2 := by
    intro β op next m spent w hop hnext
    have h := (hop.measured (k := k) m).keeps w
    unfold hostCall Program.attempt
    rcases hr : measured k m op w with ⟨⟨b, g⟩ | e | p | _, w'⟩ <;> rw [hr] at h
    · exact h.compose (hnext b g w') (h.meter.panic_trans (hnext b g w').meter)
    · exact h.withExit h.meter.panic
    · exact h
    · exact h.withExit h.meter.panic
  induction script generalizing w with
  | done gasUsed result => exact .refl _ w _
  | get spent key next ih => exact call (.contractGet addr key) ih
  | set spent key value next ih => exact call (.contractSet addr key value) fun _ ↦ ih
  | remove spent key next ih => exact call (.contractRemove addr key) fun _ ↦ ih
  | scan spent start stop descending next ih => exact call (.contractScan addr start stop descending) ih
  | query spent gasLimit request next ih => exact call (hq request gasLimit) ih

theorem Oblivious.hostCall {spent : Gas} {o : Option AccAddress} {op : M X β} {m : VMGasMeter}
    {next : β → Gas → M X (Gas × Except String (Option (ContractResult ρ)))} (hop : Local o op)
    (hnext : ∀ b g, Oblivious (next b g)) : Oblivious (hostCall spent (measured k m op) next) := by
  intro E hE
  refine ((hop.measured m).oblivious E hE).attempt (fun _ ↦ rfl) fun r r' hr ↦ ?_
  cases hr with
  | ok h => exact h ▸ hnext _ _ E hE
  | error e => exact .pure rfl
  | panic p => exact .pure rfl

theorem runVM_oblivious {querier : QueryRequest → Gas → M X (Except Err Bytes)} {addr : AccAddress}
    (hq : ∀ r g, Local (some addr) (querier r g)) (meter : VMGasMeter) (script : VMScript ρ) :
    Oblivious (runVM k meter querier addr script) := by
  induction script with
  | done gasUsed result => exact .pure _
  | get spent key next ih => exact .hostCall (Local.contractGet (o := none) addr key) ih
  | set spent key value next ih => exact .hostCall (Local.contractSet addr key value) fun _ ↦ ih
  | remove spent key next ih => exact .hostCall (Local.contractRemove addr key) fun _ ↦ ih
  | scan spent start stop descending next ih =>
    exact .hostCall (Local.contractScan (o := none) addr start stop descending) ih
  | query spent gasLimit request next ih => exact .hostCall (hq request gasLimit) ih

theorem runVM_returns {querier : QueryRequest → Gas → M X (Except Err Bytes)} {addr : AccAddress}
    (meter : VMGasMeter) (script : VMScript ρ) (w : World X) :
    (runVM k meter querier addr script w).1.exit ≠ .error ∧
      (runVM k meter querier addr script w).1.exit ≠ .panic := by
  have call : ∀ {β : Type} {op : M X (β × Gas)}
      {next : β → Gas → M X (Gas × Except String (Option (ContractResult ρ)))} {spent w},
      (∀ b g w, (next b g w).1.exit ≠ .error ∧ (next b g w).1.exit ≠ .panic) →
        (hostCall spent op next w).1.exit ≠ .error ∧ (hostCall spent op next w).1.exit ≠ .panic := by
    intro β op next spent w hnext
    unfold hostCall Program.attempt
    rcases op w with ⟨⟨b, g⟩ | e | p | _, w'⟩
    · exact hnext b g w'
    · simp
    · simp
    · simp
  induction script generalizing w with
  | done gasUsed result => simp [runVM]
  | get spent key next ih => exact call ih
  | set spent key value next ih => exact call fun _ ↦ ih
  | remove spent key next ih => exact call fun _ ↦ ih
  | scan spent start stop descending next ih => exact call ih
  | query spent gasLimit request next ih => exact call ih

theorem runCode_keeps {querier : QueryRequest → Gas → M X (Except Err Bytes)} {addr : AccAddress}
    (hq : ∀ r g, Local (some addr) (querier r g)) (meter : VMGasMeter) (checksum : Bytes)
    (script : Bytes → VMScript ρ) (w : World X) :
    Keeps (some addr) w .panic (runCode k meter querier addr checksum script w).2 := by
  rw [runCode, Program.read_bind_apply]
  cases w.vm.codes.get checksum with
  | none => exact .refl _ w _
  | some code => exact runVM_keeps hq meter (script code) w

theorem runCode_returns (meter : VMGasMeter)
    (querier : QueryRequest → Gas → M X (Except Err Bytes)) (addr : AccAddress) (checksum : Bytes)
    (script : Bytes → VMScript ρ) (w : World X) :
    (runCode k meter querier addr checksum script w).1.exit ≠ .error ∧
      (runCode k meter querier addr checksum script w).1.exit ≠ .panic := by
  rw [runCode, Program.read_bind_apply]
  cases w.vm.codes.get checksum with
  | none => simp
  | some code => exact runVM_returns meter (script code) w

/-- The charge after a run of the VM notices an exhausted meter. -/
theorem consumeRuntimeGas_settles {w w₁ : World X} (h : Keeps o w .panic w₁) (gas : Gas) :
    Keeps o w (consumeRuntimeGas k gas w₁).1.exit (consumeRuntimeGas k gas w₁).2 := by
  have hk := (Local.consumeRuntimeGas (o := o) k gas).keeps w₁
  refine h.compose hk ⟨hk.meter.limit.trans h.meter.limit, hk.meter.infinite.trans h.meter.infinite,
    fun hi ↦ (h.meter.grows hi).trans (hk.meter.grows (h.meter.infinite.trans hi)), fun hx hi _ ↦ ?_⟩
  have hi₁ : w₁.meter.infinite = false := h.meter.infinite.trans hi
  revert hx
  unfold consumeRuntimeGas
  rcases k.gasRegister.fromWasmVMGas gas with p | consumed
  · intro hx
    simp [liftPanic, Bind.bind, Program.bind, Program.raise] at hx
  · rcases hc : w₁.meter.consume consumed "wasm contract" with ⟨_ | p, m⟩
    · intro _
      have hm := GasMeter.consumed_le_of_consume hc hi₁
      have hw : (consumeGas consumed "wasm contract" : M X Unit) w₁ = (.ok (), { w₁ with meter := m }) := by
        simp only [consumeGas, hc]
      rw [show liftPanic (X := X) (Except.ok consumed) = pure consumed from rfl, Program.pure_bind,
        Program.bind_of_ok _ hw, Program.read_bind_apply, ← h.meter.limit]
      split <;> exact hm
    · have hw : (consumeGas consumed "wasm contract" : M X Unit) w₁ = (.panic p, { w₁ with meter := m }) := by
        simp only [consumeGas, hc]
      rw [show liftPanic (X := X) (Except.ok consumed) = pure consumed from rfl, Program.pure_bind,
        Program.bind_of_panic _ hw]
      intro hx
      simp at hx

namespace Local

theorem callVM (entry : EntryPoint) {querier : QueryRequest → Gas → M X (Except Err Bytes)} {addr : AccAddress}
    (hq : ∀ r g, Local (some addr) (querier r g)) (checksum : Bytes) (script : Bytes → Gas → VMScript ρ) :
    Local (some addr) (Keeper.callVM k entry querier addr checksum script) := by
  refine (runtimeGasForContract k).bind fun gasLeft ↦ ⟨fun w ↦ ?_, ?_⟩
  · have h := runCode_keeps hq (k := k) (handedMeter entry) checksum (script · gasLeft) w
    have hx := runCode_returns (k := k) (handedMeter entry) querier addr checksum (script · gasLeft) w
    rcases hr : runCode k (handedMeter entry) querier addr checksum (script · gasLeft) w with
      ⟨⟨gasUsed, res⟩ | e | p | _, w'⟩ <;> rw [hr] at h hx
    · have hs := consumeRuntimeGas_settles (k := k) h gasUsed
      rw [Program.bind_of_ok _ hr]
      change Keeps (some addr) w ((Keeper.consumeRuntimeGas k gasUsed >>= fun _ ↦ Pure.pure res) w').1.exit
        ((Keeper.consumeRuntimeGas k gasUsed >>= fun _ ↦ Pure.pure res) w').2
      rw [Program.exit_bind_pure, Program.snd_bind_pure]
      exact hs
    · simp at hx
    · simp at hx
    · rw [Program.bind_of_timeout _ hr]
      exact h.withExit h.meter.timeout
  · refine Oblivious.bind (fun E hE ↦ ?_) fun _ ↦
      ((consumeRuntimeGas (o := none) k _).bind fun _ ↦ .pure _).oblivious
    refine (Oblivious.read (fun _ _ _ _ _ hv ↦ by rw [hv]) E hE).bind_eq fun code ↦ ?_
    cases code with
    | none => exact .pure rfl
    | some code => exact runVM_oblivious hq _ _ E hE

theorem chargeSetup (checksum : Bytes) (codeID : UInt64) (msgLen : Nat) (entry : String) :
    Local o (Keeper.chargeSetup k checksum codeID msgLen entry) :=
  (isPinnedCode codeID).bind fun _ ↦ (recordedDiscount checksum _).bind fun _ ↦
    (liftPanic _).bind fun _ ↦ consumeGas _ _

theorem queryRaw (addr : AccAddress) (key : Option Bytes) : Local o (Keeper.queryRaw k addr key) := by
  cases key with
  | none => exact .pure _
  | some key => exact .contractGet addr key

theorem runSmartQuery {querier : Ctx → AccAddress → QueryRequest → Gas → M X (Except Err Bytes)}
    (hq : ∀ c a r g, Local none (querier c a r g)) (c : Ctx) (addr : AccAddress) (req : Bytes) :
    Local (some addr) (Keeper.runSmartQuery k querier c addr req) := by
  refine (contractInstance addr).bind fun (contractInfo, codeInfo) ↦ ?_
  refine (chargeSetup _ _ _ _).bind fun _ ↦ (liftPanic _).bind fun env ↦ ?_
  refine (callVM _ (fun r g ↦ (hq _ _ r g).weaken _) _ _).bind fun res ↦ ?_
  split
  · exact .fail _
  · exact .raise _
  · split
    · exact .fail _
    · exact .pure _

theorem querySmart {querier : Ctx → AccAddress → QueryRequest → Gas → M X (Except Err Bytes)}
    (hq : ∀ c a r g, Local none (querier c a r g)) (c : Ctx) (addr : AccAddress) (req : Bytes) :
    Local (some addr) (Keeper.querySmart k querier c addr req) :=
  (lift _).bind fun c ↦ runSmartQuery hq c addr req

theorem pluginQuery {m : M X Bytes} (hm : Local o m) (gasLimit : Option Gas)
    {next : Outcome Err Panic Bytes → M X Bytes} (hn : ∀ r, Local none (next r)) :
    Local none (Keeper.pluginQuery gasLimit m next) := by
  unfold Keeper.pluginQuery
  cases gasLimit with
  | none =>
    refine hm.discarding.attempt rfl (fun w r w' _ h ↦ ?_) fun r ↦ ?_
    · cases r with
      | ok b => exact h.trans ((hn _).keeps w')
      | error e => exact (h.withExit h.meter.ok).trans ((hn _).keeps w')
      | panic p => exact h
      | timeout => exact h
    · cases r with
      | ok b => exact (hn _).oblivious
      | error e => exact (hn _).oblivious
      | panic p => exact .raise p
      | timeout => exact .expire
  | some limit =>
    refine hm.discarding.withGasMeter limit (fun r g ↦ ?_) fun _ _ ↦ rfl
    cases r with
    | timeout => exact .expire
    | ok b => exact hn _
    | error e => exact hn _
    | panic p => exact hn _

theorem runPlugin {smart : AccAddress → Bytes → M X Bytes} (hs : ∀ a m, Local (some a) (smart a m))
    (script : QueryScript X) : Local none (Keeper.runPlugin smart script) := by
  induction script with
  | done run => exact .external run
  | smart run gasLimit next ih => exact (external run).bind fun (a, m) ↦ (hs a m).pluginQuery gasLimit ih

theorem callerPort (caller : AccAddress) : Local o (Keeper.callerPort k caller) := by
  refine (getContractInfo caller).bind fun info ↦ ?_
  cases info with
  | none => exact .raise _
  | some info => exact .pure _

theorem requestedPort (caller : AccAddress) (portID : String) : Local o (Keeper.requestedPort k caller portID) := by
  unfold Keeper.requestedPort
  split
  · exact callerPort caller
  · exact .pure _

theorem listChannels (portID : String) : Local o (Keeper.listChannels k portID) := by
  unfold Keeper.listChannels
  split
  · exact .pure _
  · exact (external _).bind fun _ ↦ liftPanic _

theorem channelInfo (portID channelID : String) : Local o (Keeper.channelInfo k portID channelID) := by
  refine (external _).bind fun got ↦ ?_
  cases got with
  | none => exact .pure _
  | some got =>
    dsimp only
    split
    · exact (liftPanic _).bind fun _ ↦ .pure _
    · exact .pure _

theorem ibcResponse (caller : AccAddress) (request : IBCQuery) : Local o (Keeper.ibcResponse k caller request) := by
  unfold Keeper.ibcResponse
  split
  · exact (callerPort caller).bind fun _ ↦ .pure _
  · exact (requestedPort caller _).bind fun portID ↦ (listChannels portID).bind fun _ ↦ .pure _
  · exact (requestedPort caller _).bind fun portID ↦ (channelInfo portID _).bind fun _ ↦ .pure _
  · exact .fail _

theorem ibcQuerier (caller : AccAddress) (request : IBCQuery) : Local o (Keeper.ibcQuerier k caller request) :=
  (ibcResponse caller request).bind fun _ ↦ .pure _

/-- A query may write state of the contract it asks, for the time of the query. -/
theorem handleRequest {smart : Ctx → AccAddress → Bytes → M X Bytes} (hs : ∀ c a m, Local (some a) (smart c a m))
    (c : Ctx) (caller : AccAddress) (req : QueryRequest) :
    ∃ o, Local o (Keeper.handleRequest k smart c caller req) := by
  cases req with
  | ibc request => exact ⟨none, ibcQuerier caller request⟩
  | smart contractAddr msg =>
    rcases h : k.bech32.fromBech32 contractAddr with e | addr
    · exact ⟨none, by simp only [Keeper.handleRequest, h]; exact .fail _⟩
    · exact ⟨some addr, by simp only [Keeper.handleRequest, h]; exact (require _ _).bind fun _ ↦ hs c addr msg⟩
  | raw contractAddr key =>
    refine ⟨none, ?_⟩
    rcases h : k.bech32.fromBech32 contractAddr with e | addr <;> simp only [Keeper.handleRequest, h]
    · exact .fail _
    · exact (queryRaw addr key).bind fun _ ↦ .pure _
  | contractInfo contractAddr =>
    refine ⟨none, ?_⟩
    rcases h : k.bech32.fromBech32 contractAddr with e | addr <;> simp only [Keeper.handleRequest, h]
    · exact .fail _
    · refine (getContractInfo addr).bind fun v ↦ ?_
      split
      · exact .fail _
      · exact (isPinnedCode _).bind fun _ ↦ .pure _
  | codeInfo codeID =>
    refine ⟨none, (require _ _).bind fun _ ↦ (getCodeInfo codeID).bind fun v ↦ ?_⟩
    split
    · exact .fail _
    · exact .pure _
  | other payload => exact ⟨none, .runPlugin (hs c) _⟩

theorem handleQuery {querier : Ctx → AccAddress → QueryRequest → Gas → M X (Except Err Bytes)}
    (hq : ∀ c a r g, Local none (querier c a r g)) (c : Ctx) (caller : AccAddress) (req : QueryRequest) :
    ∃ o, Local o (Keeper.handleQuery k querier c caller req) :=
  handleRequest (fun c a m ↦ querySmart hq c a m) c caller req

theorem subQuery {m : M X Bytes} (hm : Local o m) (sdkGas : Gas) : Local none (Keeper.subQuery sdkGas m) := by
  refine (hm.withGasMeter sdkGas (fun r g ↦ ?_) fun _ _ ↦ rfl).discarding
  cases r with
  | timeout => exact .expire
  | ok b => exact (consumeGas _ _).bind fun _ ↦ .finish _
  | error e => exact (consumeGas _ _).bind fun _ ↦ .finish _
  | panic p => exact (consumeGas _ _).bind fun _ ↦ .finish _

theorem query (fuel : Nat) (c : Ctx) (caller : AccAddress) (request : QueryRequest) (gasLimit : Gas) :
    Local none (Keeper.query k fuel c caller request gasLimit) := by
  induction fuel generalizing c caller request gasLimit with
  | zero => exact .expire
  | succ fuel ih =>
    obtain ⟨o, h⟩ := handleQuery ih c caller request
    exact (liftPanic _).bind fun sdkGas ↦ h.subQuery sdkGas

theorem newQueryHandler (c : Ctx) (caller : AccAddress) (request : QueryRequest) (gasLimit : Gas) :
    Local none (Keeper.newQueryHandler k c caller request gasLimit) := query _ c caller request gasLimit

/-- The VM with the querier every contract is called with. -/
theorem contractVM (entry : EntryPoint) (c : Ctx) (addr : AccAddress) (checksum : Bytes)
    (script : Bytes → Gas → VMScript ρ) :
    Local (some addr) (Keeper.callVM k entry (Keeper.newQueryHandler k c addr) addr checksum script) :=
  callVM entry (fun r g ↦ (newQueryHandler c addr r g).weaken _) checksum script

end Local

end Cosmwasgo.Runs
