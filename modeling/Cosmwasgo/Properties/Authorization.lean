import Cosmwasgo.Runs.Paths
import Cosmwasgo.State.Devnet

namespace Cosmwasgo.Properties

open Cosmwasgo.Lib Cosmwasgo.Types Cosmwasgo.State Cosmwasgo.Keeper Cosmwasgo.Runs MsgServer Relation

variable {X : Type} {k : Keeper X}

/-- A decision made in a context below the given one, by the policy of that context. -/
def Justified (k : Keeper X) (c : Ctx) (s : List Frame) (p : AuthorizationPolicy) : Prop :=
  ∃ c' op actor, ReflTransGen (Enters (Decides k)) c c' ∧ s = c'.stack ∧ Decides k c' op actor p

/-- All decisions put on record in between are justified. -/
def DecidesOnly (k : Keeper X) (c : Ctx) (w w' : World X) : Prop :=
  ∃ added, w'.trace = w.trace ++ added ∧ ∀ s p, .authorize s p ∈ added → Justified k c s p

theorem DecidesOnly.of_eq {c : Ctx} {w w' : World X} (h : w'.trace = w.trace) : DecidesOnly k c w w' :=
  ⟨[], by simp [h], by simp⟩

theorem DecidesOnly.trans {c : Ctx} {w w₁ w₂ : World X} (h : DecidesOnly k c w w₁) (h' : DecidesOnly k c w₁ w₂) :
    DecidesOnly k c w w₂ := by
  obtain ⟨l, ht, hl⟩ := h
  obtain ⟨l', ht', hl'⟩ := h'
  refine ⟨l ++ l', by rw [ht', ht, List.append_assoc], fun s p hs ↦ ?_⟩
  rcases List.mem_append.1 hs with hs | hs
  · exact hl s p hs
  · exact hl' s p hs

theorem DecidesOnly.of_other {c : Ctx} {w : World X} {o : Observation X} (ho : ∀ s p, o ≠ .authorize s p) :
    DecidesOnly k c w { w with trace := w.trace ++ [o] } :=
  ⟨[o], rfl, fun s p hs ↦ absurd (List.mem_singleton.1 hs).symm (ho s p)⟩

/-- No decision is made but by the policy of its context. -/
def decisionRegime (k : Keeper X) : Regime k where
  rel s w _ w' := DecidesOnly k s.ctx w w'
  permits := Decides k
  permits_select c _ _ _ hm ha := decides_select c hm ha
  ports _ _ := True
  ports_own _ := trivial
  recorded _ h := h trivial
  keeps _ h := .of_eq h.trace
  trans h h' := h.trans h'
  weaken h := h
  act _ := .of_eq rfl
  torn h := .of_eq h.trace
  decision {s w op actor p} hp := ⟨_, rfl, fun s' q hs ↦ by
    cases List.mem_singleton.1 hs
    exact ⟨s.ctx, op, actor, .refl, rfl, hp⟩⟩
  called := .of_other nofun
  addressed _ := .of_other nofun
  acknowledged _ _ _ := .of_other nofun
  enter he := by
    rintro ⟨l, ht, hl⟩
    refine ⟨l, ht, fun s p hs ↦ ?_⟩
    obtain ⟨c', op, actor, hr, hc', hd⟩ := hl s p hs
    exact ⟨c', op, actor, .head (enters_of_site he) hr, hc', hd⟩
  settle {c m w w' changes} := by
    rintro ⟨l, ht, hl⟩
    refine ⟨l, ht, fun s p hs ↦ ?_⟩
    obtain ⟨c', op, actor, hr, hc', hd⟩ := hl s p hs
    exact ⟨c', op, actor, .head (.message c m) hr, hc', hd⟩
  events h := h
  remeter h _ := h
  revert h := h
  revertMeter h _ := h

theorem decisionRegime_observes : (decisionRegime k).Observes := by
  intro s w o ho
  refine .of_other ?_
  rintro s' p rfl
  exact ho

/-- The authorization decisions of a run, in order, each with the path it was made on. -/
def decisions (w w' : World X) : List (List Frame × AuthorizationPolicy) :=
  (w'.trace.drop w.trace.length).filterMap fun
    | .authorize s p => some (s, p)
    | _ => none

theorem mem_decisions {w w' : World X} {d : List Frame × AuthorizationPolicy} (h : d ∈ decisions w w') :
    .authorize d.1 d.2 ∈ w'.trace.drop w.trace.length := by
  obtain ⟨o, ho, he⟩ := List.mem_filterMap.1 h
  split at he
  · cases he
    exact ho
  · cases he

theorem trace_handleMsg (h : ResponseHandler X) (c : Ctx) (m : Msg) (w : World X) :
    (handleMsg k h c m w).2.trace = (serve k h (c.push (.message m)) m w).2.trace := by
  unfold handleMsg MsgServer.settle
  rcases serve k h (c.push (.message m)) m w with ⟨a | e | p | _, w'⟩ <;> rfl

/-- Every decision of a root message is made on a path above it, by the policy of the message on top. -/
theorem mem_decisions_handleMsg {n : Nat} {c : Ctx} (hs : c.stack = []) (hp : c.subMsgAuthzPolicy = none) {m : Msg}
    {w : World X} {d : List Frame × AuthorizationPolicy}
    (hd : d ∈ decisions w (handleMsg k (responseHandler k n) c m w).2) :
    Path k d.1 ∧ [.message m] <:+ d.1 ∧ ∃ m' s, d.1 = .message m' :: s ∧ d.2 = policyFor k m' s := by
  have hrun := Regime.clean_serve (k := k) (Regime.handlerObeys_responseHandler decisionRegime_observes n) c m w
  obtain ⟨added, ht, hadded⟩ : DecidesOnly k (c.push (.message m)) w
    (serve k (responseHandler k n) (c.push (.message m)) m w).2 := hrun
  have hd := mem_decisions hd
  rw [trace_handleMsg, ht, List.drop_left] at hd
  obtain ⟨c', op, actor, hr, hs', hdec⟩ := hadded _ _ hd
  have hroot : OnPath k (c.push (.message m)) :=
    ⟨.message (by rw [hs]; exact .root) m, by
      change c.subMsgAuthzPolicy.getD .default = standing c.stack
      rw [hs, hp]
      rfl⟩
  have hon := hroot.reaches hr
  obtain ⟨m', s, hstack, -, -, hpol⟩ := hon.decides hdec
  refine ⟨hs' ▸ hon.path, ?_, m', s, hs'.trans hstack, hpol⟩
  have hsuffix := suffix_of_reaches hr
  change .message m :: c.stack <:+ _ at hsuffix
  rwa [hs, ← hs'] at hsuffix

/-- The policies that may decide below a root message of the authority. -/
def Inherited (k : Keeper X) (m : Msg) (p : AuthorizationPolicy) : Prop :=
  match m with
  | .instantiateContract _ | .instantiateContract2 _ | .storeAndInstantiateContract _ =>
    p = .default ∨ .instantiate ∈ k.propagateGovAuthorization ∧ p = .partialGov .instantiate
  | .migrateContract _ | .storeAndMigrateContract _ =>
    p = .default ∨ .migrateContract ∈ k.propagateGovAuthorization ∧ p = .partialGov .migrateContract
  | _ => p = .default

/-- The policy of a decision on the path `below` above the root message. -/
def DecidedBy (k : Keeper X) (m : Msg) (below : List Frame) (p : AuthorizationPolicy) : Prop :=
  if m.sender ≠ k.authority then p = .default
  else if below = [] then p = .gov k.propagateGovAuthorization
  else Inherited k m p

/-- A decision by `p'` on a path on which `p` decided before. -/
def Follows (p p' : AuthorizationPolicy) : Prop :=
  (p = .default → p' = .default) ∧ ∀ a, p = .partialGov a → p' = .partialGov a

theorem inherited_default (k : Keeper X) (m : Msg) : Inherited k m .default := by
  cases m <;> simp [Inherited]

theorem inherited_of_hands {m : Msg} {action : AuthorizationPolicyAction} (h : Hands k m action) :
    Inherited k m ((AuthorizationPolicy.gov k.propagateGovAuthorization).subMessageAuthorizationPolicy action) := by
  rw [AuthorizationPolicy.subMessageAuthorizationPolicy]
  split
  · next hmem =>
    cases h with
    | instantiate h => cases h <;> exact .inr ⟨hmem, rfl⟩
    | migrate h => cases h <;> exact .inr ⟨hmem, rfl⟩
  · exact inherited_default k m

theorem decidedBy_of_path {m m' : Msg} {below s : List Frame} (hpath : Path k (below ++ [.message m]))
    (hs : below ++ [.message m] = .message m' :: s) (hun : Unprivileged k below) :
    DecidedBy k m below (policyFor k m' s) := by
  cases below with
  | nil =>
    cases hs
    unfold DecidedBy
    by_cases h : m.sender = k.authority
    · rw [if_neg (not_not.2 h), if_pos rfl, policyFor, if_pos h]
    · rw [if_pos h, policyFor, if_neg h]
      rfl
  | cons f below =>
    rw [List.cons_append] at hs
    obtain ⟨rfl, rfl⟩ := List.cons.inj hs
    have hp : Path k (below ++ [.message m]) := by
      cases hpath with
      | message hp _ => exact hp
    rw [hun.policyFor_eq]
    unfold DecidedBy
    rw [if_neg (List.cons_ne_nil _ _)]
    rcases standing_below hp hun.tail with h | ⟨action, hands, h⟩
    · rw [h]
      split
      · rfl
      · exact inherited_default k m
    · rw [h, policyFor]
      by_cases ha : m.sender = k.authority
      · rw [if_neg (not_not.2 ha), if_pos ha]
        exact inherited_of_hands hands
      · rw [if_pos ha, if_neg ha]
        rfl

theorem follows_of_path {m m' : Msg} {above s s' : List Frame} (hpath : Path k (.message m' :: s'))
    (hs : .message m' :: s' = above ++ .message m :: s) (hun : Unprivileged k above) :
    Follows (policyFor k m s) (policyFor k m' s') := by
  cases above with
  | nil =>
    cases hs
    exact ⟨id, fun _ h ↦ h⟩
  | cons f above =>
    rw [List.cons_append] at hs
    obtain ⟨rfl, rfl⟩ := List.cons.inj hs
    have hp : Path k (above ++ .message m :: s) := by
      cases hpath with
      | message hp _ => exact hp
    rw [hun.policyFor_eq]
    rcases standing_below hp hun.tail with h | ⟨action, -, h⟩
    · rw [h, policyFor]
      split
      · exact ⟨(fun hgov ↦ by cases hgov), fun _ hgov ↦ by cases hgov⟩
      · exact ⟨id, fun _ h ↦ h⟩
    · rw [h]
      refine ⟨fun hd ↦ ?_, fun a ha ↦ ?_⟩
      · rw [hd]; rfl
      · rw [ha]; rfl

/-- Authorization never escalates along a call tree, whatever the contracts answer. -/
theorem decisions_never_escalate (n : Nat) (c : Ctx) (hs : c.stack = []) (hp : c.subMsgAuthzPolicy = none) (m : Msg)
    (w : World X) :
    let run := decisions w (handleMsg k (responseHandler k n) c m w).2
    ∀ d ∈ run, ∃ below, d.1 = below ++ [.message m] ∧ (Unprivileged k below → DecidedBy k m below d.2) ∧
      ∀ d' ∈ run, ∀ above, d'.1 = above ++ d.1 → Unprivileged k above → Follows d.2 d'.2 := by
  intro run d hd
  obtain ⟨hpath, ⟨below, hbelow⟩, m₁, s₁, hs₁, hp₁⟩ := mem_decisions_handleMsg hs hp hd
  refine ⟨below, hbelow.symm, fun hun ↦ ?_, fun d' hd' above habove hun ↦ ?_⟩
  · rw [hp₁]
    rw [← hbelow] at hpath hs₁
    exact decidedBy_of_path hpath hs₁ hun
  · obtain ⟨hpath', -, m₂, s₂, hs₂, hp₂⟩ := mem_decisions_handleMsg hs hp hd'
    rw [hp₁, hp₂]
    rw [hs₂] at hpath' habove
    rw [hs₁] at habove
    exact follows_of_path hpath' habove hun

section Devnet

/-- A contract that the authority instantiates and that then instantiates its own code once more. -/
def spawning (code : Bytes) : ContractCall → VMScript Response
  | .instantiate info _ =>
    if info.sender = (devnet idleContract).authority then
      .done 0 (.ok (some { ok := some { messages := [
        { id := 1, replyOn := .never,
          msg := { wasm := some (.instantiate 1 (stringToBytes "\x7b\x7d") [] "child" "") } }] } }))
    else idleContract code (.sudo [])
  | c => idleContract code c

def govInstantiate : Msg :=
  .storeAndInstantiateContract {
    authority := (devnet spawning).authority, wasmByteCode := wasmIdent, instantiatePermission := none, admin := "",
    label := "parent", msg := stringToBytes "\x7b\x7d", funds := [] }

def closedWorld : World Unit :=
  { emptyWorld with
    store := { kv := OrderedStore.empty.set paramsKey (.params ⟨allowNobody, .nobody⟩), ext := () } }

/-- The chain lets nobody upload or instantiate, and still the authority's root message and what it passes on
go through: the decisions are those of the governance policy, then of its partial one. -/
theorem decisions_never_escalate_devnet :
    let k := devnet spawning
    let run := decisions closedWorld (handleMsg k (responseHandler k 3) genesisCtx govInstantiate closedWorld).2
    run.map (·.2) = [.gov [.instantiate], .gov [.instantiate], .partialGov .instantiate] ∧
      ∀ d ∈ run, ∃ below, d.1 = below ++ [.message govInstantiate] ∧
        (Unprivileged k below → DecidedBy k govInstantiate below d.2) ∧
          ∀ d' ∈ run, ∀ above, d'.1 = above ++ d.1 → Unprivileged k above → Follows d.2 d'.2 :=
  ⟨by decide +kernel, decisions_never_escalate 3 genesisCtx rfl rfl govInstantiate closedWorld⟩

end Devnet

end Cosmwasgo.Properties
