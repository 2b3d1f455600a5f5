import Cosmwasgo.Properties.Answers
import Cosmwasgo.Properties.SubQueries
import Cosmwasgo.Runs.Ensures

namespace Cosmwasgo.Properties

open Cosmwasgo.Lib Cosmwasgo.Types Cosmwasgo.State Cosmwasgo.Keeper Cosmwasgo.Runs Cosmwasgo.Registry

variable {X ρ α β : Type} {k : Keeper X} {h : ResponseHandler X} {c : Ctx} {w w₁ w₂ : World X}

/-- The queries a contract issues while it runs, each with the world it is issued in. -/
inductive Issues (k : Keeper X) (meter : VMGasMeter) (querier : QueryRequest → Gas → M X (Except Err Bytes))
    (addr : AccAddress) : VMScript ρ → World X → QueryRequest → Gas → World X → Prop
  | now {spent gasLimit : Gas} {request : QueryRequest} {next : Except Err Bytes → Gas → VMScript ρ} {w : World X} :
      Issues k meter querier addr (.query spent gasLimit request next) w request gasLimit w
  | answered {spent gasLimit limit used : Gas} {request r : QueryRequest} {next : Except Err Bytes → Gas → VMScript ρ}
      {w w₁ w₂ : World X} {answer : Except Err Bytes}
      (hop : measured k .multiplied (querier request gasLimit) w = (.ok (answer, used), w₁))
      (hnext : Issues k meter querier addr (next answer used) w₁ r limit w₂) :
      Issues k meter querier addr (.query spent gasLimit request next) w r limit w₂
  | get {spent limit used : Gas} {r : QueryRequest} {key : Bytes} {next : Option Bytes → Gas → VMScript ρ} {w w₁ w₂ : World X}
      {v : Option Bytes} (hop : measured k meter (contractGet k addr key) w = (.ok (v, used), w₁))
      (hnext : Issues k meter querier addr (next v used) w₁ r limit w₂) :
      Issues k meter querier addr (.get spent key next) w r limit w₂
  | set {spent limit used : Gas} {r : QueryRequest} {key value : Bytes} {next : Gas → VMScript ρ} {w w₁ w₂ : World X}
      (hop : measured k meter (contractSet k addr key value) w = (.ok ((), used), w₁))
      (hnext : Issues k meter querier addr (next used) w₁ r limit w₂) :
      Issues k meter querier addr (.set spent key value next) w r limit w₂
  | remove {spent limit used : Gas} {r : QueryRequest} {key : Bytes} {next : Gas → VMScript ρ} {w w₁ w₂ : World X}
      (hop : measured k meter (contractRemove k addr key) w = (.ok ((), used), w₁))
      (hnext : Issues k meter querier addr (next used) w₁ r limit w₂) :
      Issues k meter querier addr (.remove spent key next) w r limit w₂
  | scan {spent limit used : Gas} {r : QueryRequest} {start stop : Option Bytes} {descending : Bool}
      {next : List (Bytes × Bytes) → Gas → VMScript ρ} {w w₁ w₂ : World X} {es : List (Bytes × Bytes)}
      (hop : measured k meter (contractScan k addr start stop descending) w = (.ok (es, used), w₁))
      (hnext : Issues k meter querier addr (next es used) w₁ r limit w₂) :
      Issues k meter querier addr (.scan spent start stop descending next) w r limit w₂

/-- A query the contract issues when it is called at this entry point. -/
structure IssuedAt (k : Keeper X) (h : ResponseHandler X) (c : Ctx) (e : ContractEntry) (w : World X)
    (v : Invocation X e.Answer e.Result) (r : QueryRequest) (limit : Gas) (w₂ : World X) : Prop where
  run : ∃ w₁ gasLeft w₁' code, e.prepare k h c w = (.ok (some v), w₁) ∧
    runtimeGasForContract k w₁ = (.ok gasLeft, w₁') ∧ w₁'.vm.codes.get v.checksum = some code ∧
    Issues k (handedMeter v.entry) v.querier v.addr (v.script code gasLeft) w₁' r limit w₂

section Records

/-- Up to the query the contract touches nothing but its own state. -/
theorem Issues.quiet {meter : VMGasMeter} {querier : QueryRequest → Gas → M X (Except Err Bytes)} {addr : AccAddress}
    (hq : ∀ r g, Local none (querier r g)) {script : VMScript ρ} {r : QueryRequest} {limit : Gas}
    (hi : Issues k meter querier addr script w r limit w₂) : Quiet (some addr) (durable w) (durable w₂) := by
  induction hi with
  | now => exact .of_eq rfl rfl rfl rfl
  | answered hop _ ih => exact ((((hq _ _).weaken _).measured _).ensures hop).trans ih
  | get hop _ ih => exact (((Local.contractGet addr _).measured _).ensures hop).trans ih
  | set hop _ ih => exact (((Local.contractSet addr _ _).measured _).ensures hop).trans ih
  | remove hop _ ih => exact (((Local.contractRemove addr _).measured _).ensures hop).trans ih
  | scan hop _ ih => exact (((Local.contractScan addr _ _ _).measured _).ensures hop).trans ih

theorem info_of_contractInstance {a : AccAddress} {r : ContractInfo × CodeInfo} (hrun : contractInstance k a w = (.ok r, w₁)) :
    w.store.kv.get (getContractAddressKey a) = some (.contractInfo r.1) := by
  obtain ⟨info, w', hinfo, hrun⟩ := Program.bind_eq_ok.1 hrun
  have hget := ((Writes.getContractInfo k a).ensures hinfo).2
  cases info with
  | none => cases hrun
  | some info =>
    obtain ⟨code, w'', -, hrun⟩ := Program.bind_eq_ok.1 hrun
    cases code with
    | none => cases hrun
    | some code =>
      cases hrun
      exact hget

/-- Nothing but a contract on record is called, other than by its instantiation. -/
theorem info_before_call {e : ContractEntry} {v : Invocation X e.Answer e.Result} {a : AccAddress}
    (hp : e.prepare k h c w = (.ok (some v), w₁)) (ha : e.contract = some a) :
    ∃ info, w.store.kv.get (getContractAddressKey a) = some (.contractInfo info) := by
  cases e with
  | instantiate => cases ha
  | migrate contract caller codeID msg policy =>
    cases ha
    obtain ⟨info, w', hinfo, hp⟩ := Program.bind_eq_ok.1 hp
    cases info with
    | none => cases hp
    | some info => exact ⟨info, ((Writes.getContractInfo k _).ensures hinfo).2⟩
  | query fuel contract req =>
    cases ha
    obtain ⟨c', w', hc, hp⟩ := Program.bind_eq_ok.1 hp
    obtain ⟨-, rfl⟩ := Program.lift_eq_ok.1 hc
    obtain ⟨r, w'', hinst, -⟩ := Program.bind_eq_ok.1 hp
    exact ⟨r.1, info_of_contractInstance hinst⟩
  | execute | sudoContract | reply | openChannel | ibc | receivePacket =>
    cases ha
    obtain ⟨r, w', hinst, -⟩ := Program.bind_eq_ok.1 hp
    exact ⟨r.1, info_of_contractInstance hinst⟩

/-- The VM runs before the new contract goes on record. -/
theorem no_info_at_instantiate {codeID : UInt64} {creator admin : AccAddress} {initMsg : Bytes} {label : String}
    {funds : Coins} {salted : Option (Bytes × Bool)} {policy : AuthorizationPolicy}
    {v : Invocation X Response (AccAddress × Option Bytes)}
    (hp : (ContractEntry.instantiate codeID creator admin initMsg label funds salted policy).prepare k h c w =
      (.ok (some v), w₁)) : w₁.store.kv.get (getContractAddressKey v.addr) = none := by
  obtain ⟨_, _, -, hp⟩ := Program.bind_eq_ok.1 hp
  obtain ⟨code, _, -, hp⟩ := Program.bind_eq_ok.1 hp
  cases code with
  | none => cases hp
  | some code =>
    obtain ⟨_, _, -, hp⟩ := Program.bind_eq_ok.1 hp
    obtain ⟨_, _, -, hp⟩ := Program.bind_eq_ok.1 hp
    obtain ⟨⟨addr, taken⟩, u, hnew, hp⟩ := Program.bind_eq_ok.1 hp
    obtain ⟨_, u', hrequire, hp⟩ := Program.bind_eq_ok.1 hp
    obtain ⟨htaken, rfl⟩ := Program.require_eq_ok.1 hrequire
    have hfree : u.store.kv.get (getContractAddressKey addr) = none := by
      obtain ⟨-, hsome⟩ := Ensures.newAddress (.anything _) hnew
      change taken = (u.store.kv.get (getContractAddressKey addr)).isSome at hsome
      rw [hsome] at htaken
      simpa using htaken
    obtain ⟨_, u₁, haccount, hp⟩ := Program.bind_eq_ok.1 hp
    obtain ⟨_, u₂, hdeposit, hp⟩ := Program.bind_eq_ok.1 hp
    obtain ⟨env, u₃, henv, hp⟩ := Program.bind_eq_ok.1 hp
    obtain ⟨_, u₄, hobserve, hp⟩ := Program.bind_eq_ok.1 hp
    cases hobserve
    cases hp
    have hquiet : Quiet none (durable u) (durable u₃) :=
      (((Local.prepareAccount addr).ensures haccount).trans ((Local.deposit _ _ _).ensures hdeposit)).trans
        ((Local.liftPanic _).ensures henv)
    exact (hquiet.records _ (not_isStateKey (by simp))).trans hfree

/-- What a query can know of the contract that issues it. -/
theorem info_at_query {e : ContractEntry} {v : Invocation X e.Answer e.Result} {r : QueryRequest} {limit : Gas}
    (hi : IssuedAt k h c e w v r limit w₂) :
    (e.contract = none → w₂.store.kv.get (getContractAddressKey v.addr) = none) ∧
      (e.contract ≠ none → ∃ info, w₂.store.kv.get (getContractAddressKey v.addr) = some (.contractInfo info)) := by
  obtain ⟨w₁, gasLeft, w₁', code, hp, hgas, -, hissues⟩ := hi.run
  have hcalls := ContractEntry.yields_prepare e hp
  have hsame : w₂.store.kv.get (getContractAddressKey v.addr) = w₁.store.kv.get (getContractAddressKey v.addr) := by
    have hquiet := ((Local.runtimeGasForContract k).ensures hgas).trans (hissues.quiet v.querier_local)
    exact hquiet.records _ (not_isStateKey (by simp))
  rw [hsame]
  constructor
  · intro hnew
    cases e with
    | instantiate => exact no_info_at_instantiate hp
    | execute | migrate | sudoContract | reply | query | openChannel | ibc | receivePacket => cases hnew
  · intro hold
    obtain ⟨a, ha⟩ := Option.ne_none_iff_exists'.1 hold
    obtain ⟨info, hinfo⟩ := info_before_call hp ha
    have hstill := still_prepare (k := k) (h := h) (c := c) e w
    rw [hp] at hstill
    rw [hcalls.addr a ha]
    exact ⟨info, ((hstill nofun).records _ (by simp [IsRegistryKey])).trans hinfo⟩

end Records

section Nil

/-- No run of the program dereferences a nil pointer. -/
def NilFree (m : M X α) : Prop := ∀ w, (m w).1 ≠ .panic nilPointer

theorem bind_ne_nil {m : M X α} {f : α → M X β} (hm : (m w).1 ≠ .panic nilPointer) (hf : ∀ a, NilFree (f a)) :
    ((m >>= f) w).1 ≠ .panic nilPointer := by
  rcases hr : m w with ⟨a | e | p | _, w'⟩
  · rw [Program.bind_of_ok f hr]
    exact hf a w'
  · rw [Program.bind_of_error f hr]
    exact nofun
  · rw [Program.bind_of_panic f hr]
    rw [hr] at hm
    exact fun hp ↦ hm (by cases hp; rfl)
  · rw [Program.bind_of_timeout f hr]
    exact nofun

theorem consume_ne_nil (meter : GasMeter) (amount : Gas) (descriptor : String) :
    (meter.consume amount descriptor).1 ≠ some nilPointer := by
  unfold GasMeter.consume
  split
  · exact nofun
  · split
    · exact nofun
    · dsimp only
      split <;> exact nofun

namespace NilFree

theorem pure (a : α) : NilFree (X := X) (pure a) := fun _ ↦ nofun

theorem bind {m : M X α} {f : α → M X β} (hm : NilFree m) (hf : ∀ a, NilFree (f a)) : NilFree (m >>= f) :=
  fun w ↦ bind_ne_nil (hm w) hf

theorem consumeGas (amount : Gas) (descriptor : String) : NilFree (X := X) (Keeper.consumeGas amount descriptor) := by
  intro w
  have hconsume := consume_ne_nil w.meter amount descriptor
  unfold Keeper.consumeGas
  split
  · exact nofun
  · next p m hp =>
    rw [hp] at hconsume
    exact fun hnil ↦ hconsume (by cases hnil; rfl)

theorem liftPanic {x : Except Panic α} (hx : x ≠ .error nilPointer) : NilFree (X := X) (Keeper.liftPanic x) := by
  intro w
  cases x with
  | ok a => exact nofun
  | error p => exact fun hp ↦ hx (by cases hp; rfl)

theorem external {f : X → ExtStep X α} (hf : ∀ x, (f x).result ≠ .panic nilPointer) : NilFree (Keeper.external f) := by
  intro w
  have hgas : NilFree (X := X) (do
      Keeper.consumeGas (f w.store.ext).gas "external"
      Program.finish (f w.store.ext).result) := (consumeGas _ _).bind fun _ _ ↦ hf _
  exact hgas _

theorem getKV (key : Bytes) : NilFree (Keeper.getKV k key) := by
  have hvalid : NilFree (X := X) (assertValidKey key) := by
    intro w
    unfold assertValidKey
    split
    · exact fun hp ↦ absurd (Outcome.panic.inj hp) (by decide)
    · exact nofun
  exact hvalid.bind fun _ ↦ .bind (fun _ ↦ nofun) fun _ ↦ (consumeGas _ _).bind fun _ ↦ .pure _

theorem getContractInfo (a : AccAddress) : NilFree (Keeper.getContractInfo k a) := by
  refine (getKV _).bind fun v ↦ ?_
  split
  · exact .pure _
  · exact .pure _
  · exact fun _ hp ↦ absurd (Outcome.panic.inj hp) (by decide)

end NilFree

/-- The answers of the IBC module are taken as they are; its own code is not looked into. -/
structure SafeChannels (h : Host X) : Prop where
  scan : ∀ p x, (h.getAllChannelsWithPortPrefix p x).result ≠ .panic nilPointer
  channel : ∀ p c x, (h.getChannel p c x).result ≠ .panic nilPointer

theorem newIBCChannel_ne_nil (endpoint : IBCEndpoint) (ch : Channel) : newIBCChannel endpoint ch ≠ .error nilPointer := by
  unfold newIBCChannel
  split
  · exact fun he ↦ absurd (Except.error.inj he) (by decide)
  · exact nofun

theorem mapM_ne_error {f : α → Except Panic β} {p : Panic} (hf : ∀ a, f a ≠ .error p) (l : List α) : l.mapM f ≠ .error p := by
  induction l with
  | nil => exact nofun
  | cons a l ih =>
    rw [List.mapM_cons]
    rcases ha : f a with q | b
    · intro he
      cases he
      exact hf a ha
    · rcases hl : l.mapM f with q | bs
      · intro he
        cases he
        exact ih hl
      · exact nofun

theorem nilFree_listChannels (hsafe : SafeChannels k.host) (p : String) : NilFree (listChannels k p) := by
  unfold listChannels
  split
  · exact .pure _
  · exact (NilFree.external (hsafe.scan p)).bind fun got ↦ .liftPanic (mapM_ne_error (fun _ ↦ newIBCChannel_ne_nil _ _) _)

theorem nilFree_channelInfo (hsafe : SafeChannels k.host) (p ch : String) : NilFree (channelInfo k p ch) := by
  refine (NilFree.external (hsafe.channel p ch)).bind fun got ↦ ?_
  split
  · exact .pure _
  · split
    · exact (NilFree.liftPanic (newIBCChannel_ne_nil _ _)).bind fun _ ↦ .pure _
    · exact .pure _

/-- The request is about the port of the caller. -/
def NeedsCallerPort : IBCQuery → Prop
  | { portID := true, .. } => True
  | { listChannels := some q, .. } => q.portID = ""
  | { channel := some q, .. } => q.portID = ""
  | _ => False

section Caller

variable {caller : AccAddress}

theorem callerPort_ne_nil {info : ContractInfo}
    (hinfo : w.store.kv.get (getContractAddressKey caller) = some (.contractInfo info)) :
    (callerPort k caller w).1 ≠ .panic nilPointer := by
  have hlookup := NilFree.getContractInfo (k := k) caller w
  unfold callerPort
  rcases hr : getContractInfo k caller w with ⟨r | e | p | _, w'⟩
  · have hget := ((Writes.getContractInfo k caller).ensures hr).2
    rw [Program.bind_of_ok _ hr]
    cases r with
    | none => cases hinfo.symm.trans hget
    | some info' => exact nofun
  · rw [Program.bind_of_error _ hr]
    exact nofun
  · rw [Program.bind_of_panic _ hr]
    rw [hr] at hlookup
    exact fun hp ↦ hlookup (by cases hp; rfl)
  · rw [Program.bind_of_timeout _ hr]
    exact nofun

/-- Of a caller that is not on record only the lookup is left. -/
theorem callerPort_of_none (hnone : w.store.kv.get (getContractAddressKey caller) = none) :
    callerPort k caller w = (getContractInfo k caller >>= fun _ ↦ Program.raise nilPointer) w := by
  unfold callerPort
  rcases hr : getContractInfo k caller w with ⟨r | e | p | _, w'⟩
  · have hget := ((Writes.getContractInfo k caller).ensures hr).2
    rw [Program.bind_of_ok _ hr, Program.bind_of_ok _ hr]
    cases r with
    | none => rfl
    | some info => cases hnone.symm.trans hget
  · rw [Program.bind_of_error _ hr, Program.bind_of_error _ hr]
  · rw [Program.bind_of_panic _ hr, Program.bind_of_panic _ hr]
  · rw [Program.bind_of_timeout _ hr, Program.bind_of_timeout _ hr]

theorem requestedPort_ne_nil {p : String} (hport : p = "" → ∃ info,
    w.store.kv.get (getContractAddressKey caller) = some (.contractInfo info)) :
    (requestedPort k caller p w).1 ≠ .panic nilPointer := by
  unfold requestedPort
  split
  · next hp =>
    obtain ⟨info, hinfo⟩ := hport hp
    exact callerPort_ne_nil hinfo
  · exact nofun

/-- The querier on a request it can answer. -/
theorem ibcQuerier_ne_nil (hsafe : SafeChannels k.host) {r : IBCQuery} (hport : NeedsCallerPort r → ∃ info,
    w.store.kv.get (getContractAddressKey caller) = some (.contractInfo info)) :
    (ibcQuerier k caller r w).1 ≠ .panic nilPointer := by
  refine bind_ne_nil ?_ fun _ ↦ .pure _
  rcases r with ⟨_ | _, q | q, ch | ch⟩
  case true.none.none | true.none.some | true.some.none | true.some.some =>
    obtain ⟨info, hinfo⟩ := hport trivial
    exact bind_ne_nil (callerPort_ne_nil hinfo) fun _ ↦ .pure _
  case false.some.none | false.some.some =>
    exact bind_ne_nil (requestedPort_ne_nil hport) fun p ↦ (nilFree_listChannels hsafe p).bind fun _ ↦ .pure _
  case false.none.some =>
    exact bind_ne_nil (requestedPort_ne_nil hport) fun p ↦ (nilFree_channelInfo hsafe p _).bind fun _ ↦ .pure _
  case false.none.none => exact nofun

theorem ibcQuerier_of_none {r : IBCQuery} (hneeds : NeedsCallerPort r)
    (hnone : w.store.kv.get (getContractAddressKey caller) = none) :
    ibcQuerier k caller r w = (getContractInfo k caller >>= fun _ ↦ Program.raise nilPointer) w := by
  have hstart : ∀ {γ : Type} (f : String → M X γ),
      (callerPort k caller >>= f) w = (getContractInfo k caller >>= fun _ ↦ Program.raise nilPointer) w := by
    intro γ f
    have hport := callerPort_of_none (k := k) hnone
    rcases hr : getContractInfo k caller w with ⟨a | e | p | _, w'⟩
    · rw [Program.bind_of_ok _ hr] at hport ⊢
      exact Program.bind_of_panic f hport
    · rw [Program.bind_of_error _ hr] at hport ⊢
      exact Program.bind_of_error f hport
    · rw [Program.bind_of_panic _ hr] at hport ⊢
      exact Program.bind_of_panic f hport
    · rw [Program.bind_of_timeout _ hr] at hport ⊢
      exact Program.bind_of_timeout f hport
  have hrequested : ∀ {p : String}, p = "" → requestedPort k caller p = callerPort k caller := fun hp ↦ if_pos hp
  rcases r with ⟨_ | _, q | q, ch | ch⟩
  case true.none.none | true.none.some | true.some.none | true.some.some =>
    exact (congrFun (Program.bind_assoc _ _ _) w).trans (hstart _)
  case false.some.none | false.some.some =>
    refine (congrFun (Program.bind_assoc _ _ _) w).trans ?_
    rw [hrequested hneeds]
    exact hstart _
  case false.none.some =>
    refine (congrFun (Program.bind_assoc _ _ _) w).trans ?_
    rw [hrequested hneeds]
    exact hstart _
  case false.none.none => cases hneeds

section Handler

variable {r : IBCQuery} {limit : Gas}

/-- The gas covers the lookup of the caller: a query for nothing but its record is answered. -/
def LookupPaid (k : Keeper X) (caller : AccAddress) (limit : Gas) (w : World X) : Prop :=
  (queryWith k (getContractInfo k caller >>= fun _ ↦ pure []) limit w).1.exit = .ok

theorem subQueryEnd_ne_nil {o : Outcome Err Panic Bytes} (ho : o ≠ .panic nilPointer) (meter : GasMeter) (spent : Gas)
    (descriptor : String) : subQueryEnd (meter.consume spent descriptor) o ≠ .panic nilPointer := by
  have hcharge := consume_ne_nil meter spent descriptor
  unfold subQueryEnd
  split
  · next p hp => exact fun hnil ↦ hcharge (hp.trans (congrArg some (Outcome.panic.inj hnil)))
  · cases o with
    | ok b => exact nofun
    | error e => exact nofun
    | panic p => exact fun hnil ↦ ho (congrArg _ (Outcome.panic.inj hnil))
    | timeout => exact nofun

theorem subQuery_ne_nil {m : M X Bytes} {sdkGas : Gas} (hm : (subRun m sdkGas w).1 ≠ .panic nilPointer) :
    (subQuery sdkGas m w).1 ≠ .panic nilPointer := by
  by_cases htimeout : (subRun m sdkGas w).1 = .timeout
  · have hrun : (subQuery sdkGas m w).1 = (chargeCaller (subRun m sdkGas w).1 (subSpent m sdkGas w)
        { (subRun m sdkGas w).2 with meter := w.meter }).1 := rfl
    rw [hrun, htimeout]
    exact nofun
  · rw [subQuery_apply htimeout]
    exact subQueryEnd_ne_nil hm _ _ _

/-- A panic comes through if the charge can be paid, as an answer does. -/
theorem subQuery_nil_iff {m m' : M X Bytes} {sdkGas : Gas} {b : Bytes} {w' : World X}
    (hm : subRun m sdkGas w = (.panic nilPointer, w')) (hm' : subRun m' sdkGas w = (.ok b, w')) :
    (subQuery sdkGas m w).1 = .panic nilPointer ↔ (subQuery sdkGas m' w).1.exit = .ok := by
  have hspent : subSpent m sdkGas w = subSpent m' sdkGas w := by rw [subSpent, subSpent, hm, hm']
  have hcharge := consume_ne_nil w.meter (subSpent m' sdkGas w) "contract sub-query"
  rw [subQuery_apply (by rw [hm]; exact nofun), subQuery_apply (by rw [hm']; exact nofun), hspent, hm, hm']
  unfold subQueryEnd
  split
  · next p hp => exact iff_of_false (fun hnil ↦ hcharge (hp.trans (congrArg some (Outcome.panic.inj hnil)))) nofun
  · exact iff_of_true rfl rfl

section Gas

variable (hreg : ∀ g, k.gasRegister.fromWasmVMGas g ≠ .error nilPointer)
include hreg

theorem queryWith_ne_nil {m : M X Bytes} (hm : ∀ sdkGas, (subRun m sdkGas w).1 ≠ .panic nilPointer) :
    (queryWith k m limit w).1 ≠ .panic nilPointer := by
  rcases hg : k.gasRegister.fromWasmVMGas limit with p | sdkGas
  · unfold queryWith
    rw [hg]
    exact fun hp ↦ hreg limit (hg.trans (congrArg _ (Outcome.panic.inj hp)))
  · rw [queryWith_apply hg]
    exact subQuery_ne_nil (hm sdkGas)

/-- A query that needs no more than is on record. -/
theorem query_ne_nil (hsafe : SafeChannels k.host)
    (hport : NeedsCallerPort r → ∃ info, w.store.kv.get (getContractAddressKey caller) = some (.contractInfo info))
    (fuel : Nat) (c : Ctx) : (query k fuel c caller (.ibc r) limit w).1 ≠ .panic nilPointer := by
  cases fuel with
  | zero => exact nofun
  | succ fuel =>
    rw [query_succ]
    exact queryWith_ne_nil hreg fun sdkGas ↦ ibcQuerier_ne_nil hsafe hport

/-- A query by a caller that is not on record comes to nothing more than the lookup. -/
theorem query_eq_nil_iff (hneeds : NeedsCallerPort r) (hnone : w.store.kv.get (getContractAddressKey caller) = none)
    {fuel : Nat} (hfuel : fuel ≠ 0) (c : Ctx) :
    (query k fuel c caller (.ibc r) limit w).1 = .panic nilPointer ↔ LookupPaid k caller limit w := by
  obtain ⟨fuel, rfl⟩ := Nat.exists_eq_succ_of_ne_zero hfuel
  unfold LookupPaid
  rw [Nat.succ_eq_add_one, query_succ]
  rcases hg : k.gasRegister.fromWasmVMGas limit with p | sdkGas
  · unfold queryWith
    rw [hg]
    exact iff_of_false (fun hp ↦ hreg limit (hg.trans (congrArg _ (Outcome.panic.inj hp)))) nofun
  rw [queryWith_apply hg, queryWith_apply hg]
  have hquerier : subRun (handleQuery k (query k fuel) c caller (.ibc r)) sdkGas w =
      subRun (getContractInfo k caller >>= fun _ ↦ Program.raise nilPointer) sdkGas w := ibcQuerier_of_none hneeds hnone
  have hlookup := NilFree.getContractInfo (k := k) caller { w with events := [], meter := .new sdkGas }
  have hexits := (Writes.getContractInfo k caller).exits { w with events := [], meter := .new sdkGas }
  rcases hr : getContractInfo k caller { w with events := [], meter := .new sdkGas } with ⟨info | e | p | _, w'⟩ <;>
    rw [hr] at hlookup hexits
  · exact subQuery_nil_iff (hquerier.trans (Program.bind_of_ok _ hr)) (Program.bind_of_ok _ hr)
  · simp at hexits
  · have hfails : subRun (getContractInfo k caller >>= fun _ ↦ pure []) sdkGas w = (.panic p, w') := Program.bind_of_panic _ hr
    refine iff_of_false (subQuery_ne_nil ?_) ?_
    · rw [hquerier.trans (Program.bind_of_panic _ hr)]
      exact fun hnil ↦ hlookup (congrArg _ (Outcome.panic.inj hnil))
    · rw [subQuery_apply (by rw [hfails]; exact nofun), hfails]
      unfold subQueryEnd
      split <;> exact nofun
  · simp at hexits

end Gas

end Handler

end Caller

/-- A query for the port of a contract dereferences a nil pointer just when the contract is being instantiated and the gas
lasts until its record has been looked up. -/
theorem ibc_query_safe_iff (hreg : ∀ g, k.gasRegister.fromWasmVMGas g ≠ .error nilPointer) (hsafe : SafeChannels k.host)
    {e : ContractEntry} {v : Invocation X e.Answer e.Result} {r : IBCQuery} {limit : Gas}
    (hi : IssuedAt k h c e w v (.ibc r) limit w₂) :
    (v.querier (.ibc r) limit w₂).1 ≠ .panic nilPointer ↔
      ¬(e.entryPoint = .instantiate ∧ NeedsCallerPort r ∧ LookupPaid k v.addr limit w₂) := by
  obtain ⟨hnew, hold⟩ := info_at_query hi
  obtain ⟨w₁, _, _, _, hp, -⟩ := hi.run
  obtain ⟨fuel, c', hquerier, hfuel⟩ := (ContractEntry.yields_prepare e hp).querier
  have hentry : e.entryPoint = .instantiate ↔ e.contract = none := by
    cases e <;> simp [ContractEntry.entryPoint, ContractEntry.contract]
  rw [hentry, hquerier]
  by_cases hcontract : e.contract = none
  · by_cases hneeds : NeedsCallerPort r
    · rw [ne_eq, query_eq_nil_iff hreg hneeds (hnew hcontract) (hfuel hcontract) c']
      simp [hcontract, hneeds]
    · exact iff_of_true (query_ne_nil hreg hsafe (fun hn ↦ absurd hn hneeds) fuel c') fun hbad ↦ hneeds hbad.2.1
  · exact iff_of_true (query_ne_nil hreg hsafe (fun _ ↦ hold hcontract) fuel c') fun hbad ↦ hcontract hbad.1

end Nil

section Curious

/-- A contract that asks for its port whenever it is called. -/
def curiousContract (_ : Bytes) (_ : ContractCall) : VMScript Response :=
  .query 0 1000 (.ibc { portID := true }) fun _ _ ↦ .done 0 (.ok (some { ok := some {} }))

def curiousnet : Keeper Unit := plainnet curiousContract

def curiousHandler : ResponseHandler Unit := responseHandler curiousnet 2

/-- The code is there, and a contract of it at an address of one byte. -/
def curiousWorld : World Unit where
  store := {
    kv := (OrderedStore.empty.set (getCodeKey 1) (.codeInfo ⟨padHash wasmIdent, carol, allowEverybody⟩)).set
      (getContractAddressKey [7])
      (.contractInfo { codeID := 1, creator := carol, admin := "", label := "curious", created := some ⟨1, 0⟩, ibcPortID := "wasm.7" })
    ext := () }
  meter := ⟨0, 0, true⟩
  vm := { codes := OrderedStore.empty.set (padHash wasmIdent) wasmIdent }

def curiousInstantiate : ContractEntry :=
  .instantiate 1 [1] [] (stringToBytes "\x7b\x7d") "curious" [] none (.default)

def curiousExecute : ContractEntry := .execute [7] [1] (stringToBytes "\x7b\x7d") []

/-- The query at the head of a script, if there is one. -/
def headQuery {ρ : Type} : VMScript ρ → Option (QueryRequest × Gas)
  | .query _ limit request _ => some (request, limit)
  | _ => none

theorem issues_of_headQuery {meter : VMGasMeter} {querier : QueryRequest → Gas → M X (Except Err Bytes)} {addr : AccAddress}
    {script : VMScript ρ} {r : QueryRequest} {limit : Gas} (hq : headQuery script = some (r, limit)) (w : World X) :
    Issues k meter querier addr script w r limit w := by
  cases script with
  | query spent gasLimit request next =>
    cases hq
    exact .now
  | done | get | set | remove | scan => cases hq

/-- What is to be seen of a call: the gas it gets, its code and its first query. -/
def seen {e : ContractEntry} (v : Invocation Unit e.Answer e.Result) (w₁ : World Unit) :
    Outcome Err Panic Gas × Option Bytes × Option (QueryRequest × Gas) :=
  ((runtimeGasForContract curiousnet w₁).1, (runtimeGasForContract curiousnet w₁).2.vm.codes.get v.checksum,
    headQuery (v.script wasmIdent maxUint64))

def portAnswer {e : ContractEntry} (v : Invocation Unit e.Answer e.Result) (w₁ : World Unit) :
    Outcome Err Panic (Except Err Bytes) :=
  (v.querier (.ibc { portID := true }) 1000 (runtimeGasForContract curiousnet w₁).2).1

theorem issuedAt_of_seen {e : ContractEntry} {v : Invocation Unit e.Answer e.Result} {w₁ : World Unit}
    (hp : e.prepare curiousnet curiousHandler genesisCtx curiousWorld = (.ok (some v), w₁))
    (hseen : seen v w₁ = (.ok maxUint64, some wasmIdent, some (.ibc { portID := true }, 1000))) :
    IssuedAt curiousnet curiousHandler genesisCtx e curiousWorld v (.ibc { portID := true }) 1000
      (runtimeGasForContract curiousnet w₁).2 := by
  obtain ⟨hgas, hrest⟩ := Prod.mk.inj hseen
  obtain ⟨hcode, hquery⟩ := Prod.mk.inj hrest
  exact ⟨w₁, maxUint64, _, wasmIdent, hp, Program.apply_eq hgas, hcode, issues_of_headQuery hquery _⟩

theorem ibc_query_safe_iff_execute : ∃ v w₂,
    IssuedAt curiousnet curiousHandler genesisCtx curiousExecute curiousWorld v (.ibc { portID := true }) 1000 w₂ ∧
      (v.querier (.ibc { portID := true }) 1000 w₂).1 ≠ .panic nilPointer := by
  have hx : (Invocation.ofOutcome (curiousExecute.prepare curiousnet curiousHandler genesisCtx curiousWorld).1).map
      (seen · (curiousExecute.prepare curiousnet curiousHandler genesisCtx curiousWorld).2) =
        some (.ok maxUint64, some wasmIdent, some (.ibc { portID := true }, 1000)) := by decide +kernel
  obtain ⟨v, w₁, hp, hseen⟩ := Invocation.exists_of_ofOutcome hx
  have hi := issuedAt_of_seen hp hseen
  have hsafe : SafeChannels curiousnet.host := ⟨fun _ _ ↦ nofun, fun _ _ _ ↦ nofun⟩
  have hreg : ∀ g, curiousnet.gasRegister.fromWasmVMGas g ≠ .error nilPointer := fun g ↦
    (nofun : (.ok g : Except Panic Gas) ≠ .error nilPointer)
  exact ⟨v, _, hi, (ibc_query_safe_iff hreg hsafe hi).2 fun hbad ↦ absurd hbad.1 (by decide)⟩

/-- While it is instantiated, the contract's question for its own port ends in a nil pointer dereference. -/
theorem port_query_panics_at_instantiate : ∃ v w₂,
    IssuedAt curiousnet curiousHandler genesisCtx curiousInstantiate curiousWorld v (.ibc { portID := true }) 1000 w₂ ∧
      (v.querier (.ibc { portID := true }) 1000 w₂).1 = .panic nilPointer := by
  have hx : (Invocation.ofOutcome (curiousInstantiate.prepare curiousnet curiousHandler genesisCtx curiousWorld).1).map
      (seen · (curiousInstantiate.prepare curiousnet curiousHandler genesisCtx curiousWorld).2) =
        some (.ok maxUint64, some wasmIdent, some (.ibc { portID := true }, 1000)) := by decide +kernel
  have hanswer : (Invocation.ofOutcome (curiousInstantiate.prepare curiousnet curiousHandler genesisCtx curiousWorld).1).map
      (portAnswer · (curiousInstantiate.prepare curiousnet curiousHandler genesisCtx curiousWorld).2) =
        some (.panic nilPointer) := by decide +kernel
  obtain ⟨v, w₁, hp, hseen⟩ := Invocation.exists_of_ofOutcome hx
  rw [hp] at hanswer
  exact ⟨v, _, issuedAt_of_seen hp hseen, Option.some.inj hanswer⟩

end Curious

end Cosmwasgo.Properties
