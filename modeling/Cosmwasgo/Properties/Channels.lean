import Cosmwasgo.Keeper.IBC
import Cosmwasgo.Runs.Roots

namespace Cosmwasgo.Properties

open Cosmwasgo.Lib Cosmwasgo.Types Cosmwasgo.State Cosmwasgo.Keeper Cosmwasgo.Runs IBCHandler

variable {X α β : Type} {k : Keeper X} {c : Ctx} {p : ChannelParams} {w w' : World X} {r : ContractResult String}

/-- The steps of the handshake in which a contract is asked for its consent. -/
inductive OpenStep
  | openInit
  | openTry
  deriving DecidableEq

def OpenStep.msg (s : OpenStep) (p : ChannelParams) (channel : IBCChannel) : IBCChannelOpenMsg :=
  match s with
  | .openInit => .openInit channel
  | .openTry => .openTry channel p.version

def OpenStep.run (s : OpenStep) (k : Keeper X) (c : Ctx) (p : ChannelParams) : M X String :=
  match s with
  | .openInit => onChanOpenInit k c p
  | .openTry => onChanOpenTry k c p

/-- The step reaches the contract, and the VM hands back its answer. -/
inductive OpenAnswers (k : Keeper X) (c : Ctx) (p : ChannelParams) (s : OpenStep) (w : World X) (r : ContractResult String) :
    World X → Prop
  | intro {addr : AccAddress} {hop : String} {info : ContractInfo} {code : CodeInfo} {env : Env} {w₁ w' : World X}
      (hvalid : validateChannelParams k p.channelID = .ok ()) (hport : contractFromPortID k p.portID = .ok addr)
      (hhop : p.connectionHops.head? = some hop) (hinst : contractInstance k addr w = (.ok (info, code), w₁))
      (henv : newEnv k c addr = .ok env)
      (hcall : callContract k .ibc (c.push (.call .ibc addr none)) addr code.codeHash
        (fun code gas ↦ k.wasmVM.ibcChannelOpen code env (s.msg p (p.channel hop)) gas) w₁ = (.ok (.ok (some r)), w')) :
      OpenAnswers k c p s w r w'

/-- The channel capabilities claimed so far. -/
def claimed (w : World X) : List String :=
  w.trace.filterMap fun
    | .claim name => some name
    | _ => none

/-- The step ends with an error and claims no capability. -/
def Refuses (m : M X String) (w : World X) : Prop := ∃ e w', m w = (.error e, w') ∧ claimed w' = claimed w

theorem trace_callContract {ρ : Type} (entry : EntryPoint) (c : Ctx) (addr : AccAddress) (checksum : Bytes)
    (script : Bytes → Gas → VMScript ρ) (w : World X) :
    (callContract k entry c addr checksum script w).2.trace = w.trace ++ [.call c.stack] := by
  have hvm := Local.contractVM (k := k) entry c addr checksum script
  exact (hvm.keeps { w with trace := w.trace ++ [.call c.stack] }).trace

section Steps

/-- Of the answer only the version of a success is looked at, never the error. -/
theorem openChannel_of_answers {s : OpenStep} (h : OpenAnswers k c p s w r w') :
    openChannel k c p (s.msg p) w = (.ok (r.ok.getD ""), w') := by
  cases h with
  | @intro addr hop info code env w₁ w' hvalid hport hhop hinst henv hcall =>
    obtain ⟨order, hops, portID, channelID, cap, cp, version⟩ := p
    cases hops with
    | nil => cases hhop
    | cons hop' hops =>
      cases hhop
      unfold openChannel
      rw [hvalid, hport]
      change onOpenChannel k c addr _ w = _
      unfold onOpenChannel
      rw [Program.bind_of_ok _ hinst]
      dsimp only
      rw [henv, show liftPanic (.ok env) = (pure env : M X Env) from rfl, Program.pure_bind, Program.bind_of_ok _ hcall]
      rfl

theorem claimed_of_answers {s : OpenStep} (h : OpenAnswers k c p s w r w') : claimed w' = claimed w := by
  cases h with
  | @intro addr hop info code env w₁ w' hvalid hport hhop hinst henv hcall =>
    have hinst' := (Local.contractInstance (k := k) (o := none) addr).keeps w
    rw [hinst] at hinst'
    have htrace := trace_callContract (k := k) .ibc (c.push (.call .ibc addr none)) addr code.codeHash
      (fun code gas ↦ k.wasmVM.ibcChannelOpen code env (s.msg p (p.channel hop)) gas) w₁
    rw [hcall, hinst'.trace] at htrace
    rw [claimed, htrace, List.filterMap_append]
    exact List.append_nil _

/-- The capability is claimed, or the handshake ends with the error of the claim. -/
theorem claimCapability_eq (p : ChannelParams) (w : World X) :
    (∃ e w', claimCapability k p w = (.error e, w') ∧ claimed w' = claimed w) ∧
        (external (k.host.claimCapability p.chanCap (channelCapabilityPath p.portID p.channelID)) w).1.exit = .error ∨
      (∀ e w', claimCapability k p w ≠ (.error e, w')) ∧
        (external (k.host.claimCapability p.chanCap (channelCapabilityPath p.portID p.channelID)) w).1.exit ≠ .error := by
  have hkeeps := (Local.external (o := none)
    (k.host.claimCapability p.chanCap (channelCapabilityPath p.portID p.channelID))).keeps w
  unfold claimCapability wrapErr
  rcases hr : external (k.host.claimCapability p.chanCap (channelCapabilityPath p.portID p.channelID)) w with
    ⟨a | e | q | _, w'⟩
  · refine .inr ⟨fun e v hv ↦ ?_, nofun⟩
    rw [Program.bind_of_ok (a := a) (t := w') _ (by unfold Program.attempt; rw [hr]; rfl)] at hv
    cases hv
  · rw [hr] at hkeeps
    refine .inl ⟨⟨.wrap e "claim capability", w', ?_, by rw [claimed, hkeeps.trace, claimed]⟩, rfl⟩
    exact Program.bind_of_error _ (by unfold Program.attempt; rw [hr]; rfl)
  · refine .inr ⟨fun e v hv ↦ ?_, nofun⟩
    rw [Program.bind_of_panic (p := q) (t := w') _ (by unfold Program.attempt; rw [hr]; rfl)] at hv
    cases hv
  · refine .inr ⟨fun e v hv ↦ ?_, nofun⟩
    rw [Program.bind_of_timeout (t := w') _ (by unfold Program.attempt; rw [hr]; rfl)] at hv
    cases hv

end Steps

/-- The step fails for a reason of its own: it has no version to go with, or the capability cannot be had. -/
def Hindered (k : Keeper X) (p : ChannelParams) (r : ContractResult String) (w : World X) : OpenStep → Prop
  | .openInit => p.version = "" ∧ r.ok.getD "" = "" ∨
      (external (k.host.claimCapability p.chanCap (channelCapabilityPath p.portID p.channelID)) w).1.exit = .error
  | .openTry =>
      k.host.authenticateCapability w.store.ext p.chanCap (channelCapabilityPath p.portID p.channelID) = false ∧
      (external (k.host.claimCapability p.chanCap (channelCapabilityPath p.portID p.channelID)) w).1.exit = .error

section Refusal

variable {m : M X String}

/-- A step that comes down to the claim of the capability refuses exactly if the claim fails. -/
theorem refuses_iff_claim (hw : claimed w' = claimed w) {a : String}
    (hm : m w = (claimCapability k p >>= fun _ ↦ pure a) w') : Refuses m w ↔
      (external (k.host.claimCapability p.chanCap (channelCapabilityPath p.portID p.channelID)) w').1.exit = .error := by
  rcases claimCapability_eq (k := k) p w' with ⟨⟨e, v, hclaim, hv⟩, hexit⟩ | ⟨hclaim, hexit⟩
  · refine iff_of_true ⟨e, v, ?_, hv.trans hw⟩ hexit
    rw [hm, Program.bind_of_error _ hclaim]
  · refine iff_of_false ?_ hexit
    rintro ⟨e, v, hv, -⟩
    rw [hm] at hv
    rcases Program.bind_eq_error.1 hv with hv | ⟨_, _, -, hv⟩
    · exact hclaim e v hv
    · cases hv

theorem not_refuses_of_ok {a : String} (hm : m w = (.ok a, w')) : ¬ Refuses m w := by
  rintro ⟨e, v, hv, -⟩
  rw [hm] at hv
  cases hv

/-- Whatever the contract answers, with or without an error, the step refuses exactly if it is hindered. -/
theorem refuses_iff_hindered {s : OpenStep} (h : OpenAnswers k c p s w r w') :
    Refuses (s.run k c p) w ↔ Hindered k p r w' s := by
  have hw := claimed_of_answers h
  have hopen := openChannel_of_answers h
  cases s with
  | openInit =>
    have hrun := Program.bind_of_ok (fun acceptedVersion ↦ do
      Program.require (acceptedVersion ≠ "" || p.version ≠ "") (.wrap errEmpty "version")
      claimCapability k p
      return if acceptedVersion = "" then p.version else acceptedVersion) hopen
    by_cases hempty : p.version = "" ∧ r.ok.getD "" = ""
    · refine iff_of_true ⟨.wrap errEmpty "version", w', ?_, hw⟩ (.inl hempty)
      change (openChannel k c p (OpenStep.openInit.msg p) >>= _) w = _
      rw [hrun, hempty.1, hempty.2]
      rfl
    · have hsome : (r.ok.getD "" ≠ "" || p.version ≠ "") = true := by
        rw [Bool.or_eq_true, decide_eq_true_eq, decide_eq_true_eq]
        exact (not_and_or.1 hempty).symm
      rw [hsome, Program.require_true] at hrun
      have hclaim := refuses_iff_claim (m := OpenStep.openInit.run k c p) hw hrun
      rw [hclaim]
      exact ⟨.inr, fun hh ↦ hh.resolve_left hempty⟩
  | openTry =>
    have hrun := Program.bind_of_ok (fun version ↦ do
      let owned ← Program.read fun w ↦
        k.host.authenticateCapability w.store.ext p.chanCap (channelCapabilityPath p.portID p.channelID)
      if owned then pure () else claimCapability k p
      return if version = "" then p.version else version) hopen
    rw [Program.read_bind_apply] at hrun
    cases howned : k.host.authenticateCapability w'.store.ext p.chanCap (channelCapabilityPath p.portID p.channelID)
    · rw [howned] at hrun
      have hclaim := refuses_iff_claim (m := OpenStep.openTry.run k c p) hw hrun
      rw [hclaim]
      exact ⟨fun hh ↦ ⟨howned, hh⟩, fun hh ↦ hh.2⟩
    · rw [howned] at hrun
      refine iff_of_false (not_refuses_of_ok (m := OpenStep.openTry.run k c p) hrun) fun hh ↦ ?_
      exact absurd (howned.symm.trans hh.1) nofun

end Refusal

section Devnet

/-- A devnet whose contracts refuse every channel. -/
def refusingnet : Keeper Unit :=
  let k := plainnet idleContract
  { k with wasmVM := { k.wasmVM with
      ibcChannelOpen := fun _ _ _ _ ↦ .done 0 (.ok (some { err := "channel refused" })) } }

/-- After carol has set up the contract. -/
def refusingWorld : World Unit := worldOf (delivered refusingnet (durable openWorld) [storeCodeMsg carol, instantiateMsg carol])

def proposal (version : String) : ChannelParams where
  order := .unordered
  connectionHops := ["connection-0"]
  portID := portIDForContract refusingnet contractOne
  channelID := "channel-0"
  chanCap := 0
  counterparty := ⟨"transfer", "channel-7"⟩
  version

def refusingInfo : ContractInfo :=
  { codeID := 1, creator := carol, admin := carol, label := "contract", created := some ⟨1, 0⟩ }

def refusingCode : CodeInfo := ⟨padHash wasmIdent, carol, allowEverybody⟩

/-- The call of the contract, once its records have been read. -/
def refusal (s : OpenStep) (version : String) :
    Outcome Err Panic (Except String (Option (ContractResult String))) × World Unit :=
  callContract refusingnet .ibc (genesisCtx.push (.call .ibc contractOne none)) contractOne
    refusingCode.codeHash
    (fun code gas ↦ refusingnet.wasmVM.ibcChannelOpen code
      ⟨1, 1, "devnet", none, refusingnet.bech32.string contractOne⟩
      (s.msg (proposal version) ((proposal version).channel "connection-0")) gas)
    (contractInstance refusingnet contractOne refusingWorld).2

theorem answers_refusingnet {s : OpenStep} {version : String}
    (h : (refusal s version).1 = .ok (.ok (some { err := "channel refused" }))) :
    OpenAnswers refusingnet genesisCtx (proposal version) s refusingWorld { err := "channel refused" }
      (refusal s version).2 := by
  have hport : contractFromPortID refusingnet (proposal version).portID = .ok contractOne := by
    change contractFromPortID refusingnet (portIDForContract refusingnet contractOne) = _
    decide +kernel
  have hinst : (contractInstance refusingnet contractOne refusingWorld).1 = .ok (refusingInfo, refusingCode) := by
    decide +kernel
  have henv : newEnv refusingnet genesisCtx contractOne =
      .ok ⟨1, 1, "devnet", none, refusingnet.bech32.string contractOne⟩ := rfl
  exact .intro rfl hport rfl (Program.apply_eq hinst) henv (Program.apply_eq h)

/-- Without a version from anybody the channel is refused, as it would be without the contract's error. -/
theorem refuses_refusingnet : Refuses (OpenStep.openInit.run refusingnet genesisCtx (proposal "")) refusingWorld :=
  (refuses_iff_hindered (answers_refusingnet (by decide +kernel))).2 (.inl ⟨rfl, rfl⟩)

/-- The contract refuses, yet the step returns a version and the capability is claimed. -/
def RefusalIgnored (s : OpenStep) : Prop :=
  (∃ r w', OpenAnswers refusingnet genesisCtx (proposal "v1") s refusingWorld r w' ∧ r.err ≠ "") ∧
    (s.run refusingnet genesisCtx (proposal "v1") refusingWorld).1 = .ok "v1" ∧
    claimed (s.run refusingnet genesisCtx (proposal "v1") refusingWorld).2 =
      [channelCapabilityPath (proposal "v1").portID "channel-0"]

/-- With a version on the table both steps take the contract's error for its consent. -/
theorem refusal_ignored : RefusalIgnored .openInit ∧ RefusalIgnored .openTry := by
  refine ⟨⟨⟨_, _, answers_refusingnet ?_, ?_⟩, ?_, ?_⟩, ⟨_, _, answers_refusingnet ?_, ?_⟩, ?_, ?_⟩
  all_goals decide +kernel

end Devnet

end Cosmwasgo.Properties
