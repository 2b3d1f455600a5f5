import Cosmwasgo.Runs.Dispatch

namespace Cosmwasgo.Runs

open Cosmwasgo.Lib Cosmwasgo.Types Cosmwasgo.State Cosmwasgo.Keeper MsgServer AuthorizationPolicy Relation

variable {X : Type} (k : Keeper X)

/-- The policy for what happens below a path, for everybody but the authority. -/
def standing : List Frame → AuthorizationPolicy
  | [] => .default
  | .call .instantiate _ (some p) :: _ => p.subMessageAuthorizationPolicy .instantiate
  | .call .migrate _ (some p) :: _ => p.subMessageAuthorizationPolicy .migrateContract
  | _ :: s => standing s

theorem standing_call_none (entry : EntryPoint) (a : AccAddress) (s : List Frame) :
    standing (.call entry a none :: s) = standing s := by
  cases entry <;> rfl

/-- The policy that decides about a message on top of a path. -/
def policyFor (m : Msg) (s : List Frame) : AuthorizationPolicy :=
  if m.sender = k.authority then .gov k.propagateGovAuthorization else standing s

/-- The paths of a call tree whose root has no policy in its context. -/
inductive Path : List Frame → Prop
  | root : Path []
  | message {s : List Frame} (h : Path s) (m : Msg) : Path (.message m :: s)
  | call {s : List Frame} (h : Path s) (entry : EntryPoint) (a : AccAddress) : Path (.call entry a none :: s)
  | instantiate {m : Msg} {s : List Frame} (h : Path (.message m :: s)) (hm : Performs k m .instantiate)
      (a : AccAddress) : Path (.call .instantiate a (some (policyFor k m s)) :: .message m :: s)
  | migrate {m : Msg} {s : List Frame} {a : AccAddress} (h : Path (.message m :: s))
      (hm : Performs k m (.migrate a)) : Path (.call .migrate a (some (policyFor k m s)) :: .message m :: s)

/-- The context stands on a path and carries the policy the path gives it. -/
structure OnPath (c : Ctx) : Prop where
  path : Path k c.stack
  policy : c.subMsgAuthzPolicy.getD .default = standing c.stack

/-- The policy is the one the message on top of the context gets, for an operation it asks for. -/
def Decides (c : Ctx) (op : Operation) (actor : AccAddress) (p : AuthorizationPolicy) : Prop :=
  ∃ m s, c.stack = .message m :: s ∧ Performs k m op ∧ k.bech32.fromBech32 m.sender = .ok actor ∧
    p = selectAuthorizationPolicy k c m.sender

variable {k} {c c' : Ctx} {op : Operation} {actor : AccAddress} {p : AuthorizationPolicy}

theorem decides_select (c : Ctx) {m : Msg} (hm : Performs k m op) (ha : k.bech32.fromBech32 m.sender = .ok actor) :
    Decides k (c.push (.message m)) op actor (selectAuthorizationPolicy k (c.push (.message m)) m.sender) :=
  ⟨m, c.stack, rfl, hm, ha, rfl⟩

theorem OnPath.select {m : Msg} {s : List Frame} (h : OnPath k c) (hs : c.stack = .message m :: s) :
    selectAuthorizationPolicy k c m.sender = policyFor k m s := by
  have hp := h.policy
  rw [hs] at hp
  rw [selectAuthorizationPolicy, policyFor, hp]
  rfl

theorem OnPath.enters (h : OnPath k c) (he : Enters (Decides k) c c') : OnPath k c' := by
  cases he with
  | message m => exact ⟨.message h.path m, h.policy⟩
  | call entry a =>
    exact ⟨.call h.path entry a, h.policy.trans (standing_call_none entry a c.stack).symm⟩
  | instantiate hd a =>
    obtain ⟨m, s, hs, hm, -, rfl⟩ := hd
    rw [h.select hs]
    refine ⟨?_, rfl⟩
    have hpath := h.path
    change Path k (_ :: c.stack)
    rw [hs] at hpath ⊢
    exact .instantiate hpath hm a
  | migrate hd =>
    obtain ⟨m, s, hs, hm, -, rfl⟩ := hd
    rw [h.select hs]
    refine ⟨?_, rfl⟩
    have hpath := h.path
    change Path k (_ :: c.stack)
    rw [hs] at hpath ⊢
    exact .migrate hpath hm
  | deeper n => exact ⟨h.path, h.policy⟩

theorem OnPath.reaches (h : OnPath k c) (he : ReflTransGen (Enters (Decides k)) c c') : OnPath k c' := by
  induction he with
  | refl => exact h
  | tail _ he ih => exact ih.enters he

theorem Enters.suffix {permits : Ctx → Operation → AccAddress → AuthorizationPolicy → Prop}
    (h : Enters permits c c') : c.stack <:+ c'.stack := by
  cases h with
  | message m => exact List.suffix_cons _ _
  | call entry a => exact List.suffix_cons _ _
  | instantiate hp a => exact List.suffix_cons _ _
  | migrate hp => exact List.suffix_cons _ _
  | deeper n => exact List.suffix_refl _

theorem suffix_of_reaches {permits : Ctx → Operation → AccAddress → AuthorizationPolicy → Prop}
    (h : ReflTransGen (Enters permits) c c') : c.stack <:+ c'.stack := by
  induction h with
  | refl => exact List.suffix_refl _
  | tail _ he ih => exact ih.trans he.suffix

/-- A decision on a path is the one for the message on top. -/
theorem OnPath.decides (h : OnPath k c) (hd : Decides k c op actor p) :
    ∃ m s, c.stack = .message m :: s ∧ Performs k m op ∧ k.bech32.fromBech32 m.sender = .ok actor ∧
      p = policyFor k m s := by
  obtain ⟨m, s, hs, hm, ha, rfl⟩ := hd
  exact ⟨m, s, hs, hm, ha, h.select hs⟩

/-- Handing a policy down a second time changes nothing. -/
theorem sub_sub (q : AuthorizationPolicy) (a b : AuthorizationPolicyAction) :
    (q.subMessageAuthorizationPolicy a).subMessageAuthorizationPolicy b = q.subMessageAuthorizationPolicy a := by
  cases q with
  | default => rfl
  | gov propagate =>
    rw [subMessageAuthorizationPolicy]
    split <;> rfl
  | partialGov a => rfl

theorem standing_sub (s : List Frame) (a : AuthorizationPolicyAction) :
    (standing s).subMessageAuthorizationPolicy a = standing s := by
  fun_induction standing s with
  | case1 => rfl
  | case2 => exact sub_sub _ _ _
  | case3 => exact sub_sub _ _ _
  | case4 _ _ _ _ ih => exact ih

/-- The path has no message of the authority on it. -/
def Unprivileged (k : Keeper X) (s : List Frame) : Prop := ∀ m, Frame.message m ∈ s → m.sender ≠ k.authority

instance (s : List Frame) : Decidable (Unprivileged k s) :=
  decidable_of_iff (∀ f ∈ s, (match f with | .message m => decide (m.sender ≠ k.authority) | _ => true) = true)
    ⟨fun h m hm ↦ of_decide_eq_true (h (.message m) hm), fun h f hf ↦ by
      cases f with
      | message m => exact decide_eq_true (h m hf)
      | call _ _ _ => rfl⟩

theorem Unprivileged.tail {f : Frame} {s : List Frame} (h : Unprivileged k (f :: s)) : Unprivileged k s :=
  fun m hm ↦ h m (List.mem_cons_of_mem _ hm)

theorem Unprivileged.policyFor_eq {m : Msg} {s : List Frame} (h : Unprivileged k (.message m :: s)) (t : List Frame) :
    policyFor k m t = standing t := if_neg (h m List.mem_cons_self)

/-- Without the authority on the path the default policy stands. -/
theorem standing_of_unprivileged {s : List Frame} (h : Path k s) (hun : Unprivileged k s) : standing s = .default := by
  induction h with
  | root => rfl
  | message _ m ih => exact ih hun.tail
  | call _ entry a ih =>
    rw [standing_call_none]
    exact ih hun.tail
  | instantiate _ _ a ih =>
    have hs := ih hun.tail
    change standing _ = _ at hs
    rw [standing, hun.tail.policyFor_eq]
    exact congrArg (subMessageAuthorizationPolicy · _) hs
  | migrate _ _ ih =>
    have hs := ih hun.tail
    change standing _ = _ at hs
    rw [standing, hun.tail.policyFor_eq]
    exact congrArg (subMessageAuthorizationPolicy · _) hs

theorem OnPath.default_of_unprivileged (h : OnPath k c) (hd : Decides k c op actor p) (hun : Unprivileged k c.stack) :
    p = .default := by
  obtain ⟨m, s, hs, -, -, rfl⟩ := h.decides hd
  have hpath := h.path
  rw [hs] at hpath hun
  rw [hun.policyFor_eq]
  change standing (.message m :: s) = _
  exact standing_of_unprivileged hpath hun

/-- The operation whose policy is handed down with an action. -/
inductive Hands (k : Keeper X) (m : Msg) : AuthorizationPolicyAction → Prop
  | instantiate (h : Performs k m .instantiate) : Hands k m .instantiate
  | migrate {a : AccAddress} (h : Performs k m (.migrate a)) : Hands k m .migrateContract

/-- Below a message the policy is the one above it, or what the message's own policy hands down. -/
theorem standing_below {m : Msg} {s : List Frame} : ∀ {below : List Frame}, Path k (below ++ .message m :: s) →
    Unprivileged k below → standing (below ++ .message m :: s) = standing s ∨
      ∃ action, Hands k m action ∧
        standing (below ++ .message m :: s) = (policyFor k m s).subMessageAuthorizationPolicy action := by
  intro below hpath hun
  induction below with
  | nil => exact .inl rfl
  | cons f below ih =>
    -- a call that was authorised hands down the policy of the message right below it on the path
    have handed : ∀ {m' : Msg} {s' : List Frame} {action : AuthorizationPolicyAction}, Hands k m' action →
        Path k (.message m' :: s') → .message m' :: s' = below ++ .message m :: s →
          (policyFor k m' s').subMessageAuthorizationPolicy action = standing s ∨
            ∃ action', Hands k m action' ∧ (policyFor k m' s').subMessageAuthorizationPolicy action =
              (policyFor k m s).subMessageAuthorizationPolicy action' := by
      intro m' s' action hands hp hs
      have ih := ih (hs ▸ hp) hun.tail
      rw [← hs] at ih
      change standing s' = _ ∨ (∃ _, _ ∧ standing s' = _) at ih
      cases below with
      | nil =>
        cases hs
        exact .inr ⟨action, hands, rfl⟩
      | cons f' below =>
        obtain ⟨rfl, rfl⟩ := List.cons.inj hs
        rw [hun.tail.policyFor_eq, standing_sub]
        exact ih
    rw [List.cons_append] at hpath ⊢
    generalize hs : below ++ Frame.message m :: s = rest at *
    cases hpath with
    | message hp m' => exact ih hp hun.tail
    | call hp entry a =>
      rw [standing_call_none]
      exact ih hp hun.tail
    | instantiate hp hm a => exact handed (.instantiate hm) hp rfl
    | migrate hp hm => exact handed (.migrate hm) hp rfl

end Cosmwasgo.Runs
