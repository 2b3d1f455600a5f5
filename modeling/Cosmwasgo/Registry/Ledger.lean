import Cosmwasgo.State.World
import Mathlib.Data.Set.Basic
import Mathlib.Logic.Function.Basic
import Mathlib.Logic.Relation

namespace Cosmwasgo.Registry

open Cosmwasgo.Lib Cosmwasgo.Types Cosmwasgo.State

namespace ChainLedger

/-- A published code: what it is, who published it, and who may set up contracts with it. -/
structure Code where
  checksum : Bytes
  creator : String
  users : Set AccAddress

/-- A contract: who set it up, who is in control of it, and the codes it has run, the present one last. -/
structure Contract where
  creator : AccAddress
  controllers : Set AccAddress
  history : List ContractCodeHistoryEntry

/-- An entry of the log: who did what to which contract, under which policy. -/
structure Entry where
  kind : ChangeKind
  contract : AccAddress
  actor : AccAddress
  policy : AuthorizationPolicy

/-- A policy under which nobody is asked for the permission that an action needs. -/
def Exempt (action : AuthorizationPolicyAction) : AuthorizationPolicy → Prop
  | .default => False
  | .gov _ => True
  | .partialGov a => a = action

end ChainLedger

/-- What the registry of the module is for: numbered codes, contracts that run them, and a log of all that was done to
the contracts. -/
structure ChainLedger where
  codes : List ChainLedger.Code
  contracts : AccAddress → Option ChainLedger.Contract
  log : List ChainLedger.Entry

namespace ChainLedger

def empty : ChainLedger := ⟨[], fun _ ↦ none, []⟩

/-- A contract is put in, or takes the place of what it was before, and an entry says so. -/
def put (L : ChainLedger) (x : Entry) (t : Contract) : ChainLedger :=
  { L with contracts := Function.update L.contracts x.contract (some t), log := L.log ++ [x] }

theorem contracts_put_self (L : ChainLedger) (x : Entry) (t : Contract) : (L.put x t).contracts x.contract = some t :=
  Function.update_self _ _ _

theorem contracts_put_of_ne (L : ChainLedger) {x : Entry} (t : Contract) {a : AccAddress} (h : a ≠ x.contract) :
    (L.put x t).contracts a = L.contracts a :=
  Function.update_of_ne h _ _

/-- The ways in which a ledger changes. Codes count from one. -/
inductive Step (L : ChainLedger) : ChainLedger → Prop
  | publish (c : Code) : Step L { L with codes := L.codes ++ [c] }
  | restrict {i : Nat} {c : Code} (hc : L.codes[i]? = some c) (users : Set AccAddress) :
      Step L { L with codes := L.codes.set i { c with users } }
  | deploy {i : Nat} {c : Code} {a actor : AccAddress} {policy : AuthorizationPolicy} {e : ContractCodeHistoryEntry}
      (controllers : Set AccAddress) (hnew : L.contracts a = none) (hc : L.codes[i]? = some c)
      (hop : e.operation = .init) (hid : e.codeID.toNat = i + 1) (huse : Exempt .instantiate policy ∨ actor ∈ c.users) :
      Step L (L.put ⟨.instantiate, a, actor, policy⟩ ⟨actor, controllers, [e]⟩)
  | upgrade {i : Nat} {c : Code} {a actor : AccAddress} {policy : AuthorizationPolicy} {e : ContractCodeHistoryEntry}
      {t : Contract} (ha : L.contracts a = some t) (hc : L.codes[i]? = some c) (hop : e.operation = .migrate)
      (hid : e.codeID.toNat = i + 1) (hcontrol : Exempt .migrateContract policy ∨ actor ∈ t.controllers)
      (huse : Exempt .instantiate policy ∨ actor ∈ c.users) :
      Step L (L.put ⟨.migrate, a, actor, policy⟩ { t with history := t.history ++ [e] })
  | handOver {a actor : AccAddress} {policy : AuthorizationPolicy} {t : Contract} (ha : L.contracts a = some t)
      (controllers : Set AccAddress) (hcontrol : Exempt .migrateContract policy ∨ actor ∈ t.controllers) :
      Step L (L.put ⟨.admin, a, actor, policy⟩ { t with controllers })
  | label {a actor : AccAddress} {policy : AuthorizationPolicy} {t : Contract} (ha : L.contracts a = some t)
      (hcontrol : Exempt .migrateContract policy ∨ actor ∈ t.controllers) :
      Step L (L.put ⟨.label, a, actor, policy⟩ t)
  | extend {a : AccAddress} {t : Contract} (ha : L.contracts a = some t) :
      Step L (L.put ⟨.extension, a, [], .default⟩ t)

/-- Any number of changes. -/
def Run : ChainLedger → ChainLedger → Prop := Relation.ReflTransGen Step

/-- The entry an action leaves in the history of its contract, if it leaves one. -/
def Entry.operation (x : Entry) : Option HistoryOperation :=
  match x.kind with
  | .instantiate => some .init
  | .migrate => some .migrate
  | _ => none

/-- What a log says about the history of a contract. -/
def deployments (log : List Entry) (a : AccAddress) : List HistoryOperation :=
  (log.filter fun x ↦ x.contract = a).filterMap Entry.operation

/-- The history of an address, which is empty as long as there is no contract. -/
def historyAt (L : ChainLedger) (a : AccAddress) : List ContractCodeHistoryEntry := ((L.contracts a).map (·.history)).getD []

theorem historyAt_some {L : ChainLedger} {a : AccAddress} {t : Contract} (h : L.contracts a = some t) :
    L.historyAt a = t.history := by
  rw [historyAt, h]
  rfl

theorem historyAt_none {L : ChainLedger} {a : AccAddress} (h : L.contracts a = none) : L.historyAt a = [] := by
  rw [historyAt, h]
  rfl

theorem deployments_append (log log' : List Entry) (a : AccAddress) :
    deployments (log ++ log') a = deployments log a ++ deployments log' a := by
  rw [deployments, List.filter_append, List.filterMap_append, deployments, deployments]

/-- Histories run known codes and are what the log says, and the log tells who set a contract up. -/
structure WellFormed (L : ChainLedger) : Prop where
  known : ∀ {a e}, e ∈ L.historyAt a → 0 < e.codeID.toNat ∧ e.codeID.toNat ≤ L.codes.length
  logged : ∀ a, deployments L.log a = (L.historyAt a).map (·.operation)
  creator : ∀ {a t}, L.contracts a = some t → ∃ policy, ⟨.instantiate, a, t.creator, policy⟩ ∈ L.log

/-- Nothing is taken back: codes keep their number, contracts their creator and what they have run. -/
structure Extends (L L' : ChainLedger) : Prop where
  codes : ∀ {i : Nat} {c : Code}, L.codes[i]? = some c →
    ∃ c', L'.codes[i]? = some c' ∧ c'.checksum = c.checksum ∧ c'.creator = c.creator
  contracts : ∀ {a t}, L.contracts a = some t →
    ∃ t', L'.contracts a = some t' ∧ t'.creator = t.creator ∧ t.history <+: t'.history
  log : L.log <+: L'.log

theorem wellFormed_empty : WellFormed empty := by
  refine ⟨?_, ?_, ?_⟩
  · intro a e he
    cases he
  · intro a
    rfl
  · intro a t ha
    cases ha

section Step

variable {L L' : ChainLedger} {a : AccAddress} {t : Contract} {x : Entry}

/-- The history that is put in has grown by what the entry says. -/
theorem WellFormed.put (h : WellFormed L)
    (hhist : t.history.map (·.operation) = (L.historyAt x.contract).map (·.operation) ++ x.operation.toList)
    (hknown : ∀ e ∈ t.history, e ∈ L.historyAt x.contract ∨ 0 < e.codeID.toNat ∧ e.codeID.toNat ≤ L.codes.length)
    (hcreator : ∃ policy, ⟨.instantiate, x.contract, t.creator, policy⟩ ∈ L.log ++ [x]) : WellFormed (L.put x t) := by
  have hself : (L.put x t).historyAt x.contract = t.history := historyAt_some (L.contracts_put_self x t)
  have hother : ∀ {b}, b ≠ x.contract → (L.put x t).historyAt b = L.historyAt b := by
    intro b hb
    rw [historyAt, L.contracts_put_of_ne t hb, historyAt]
  refine ⟨?_, ?_, ?_⟩
  · intro b e he
    by_cases hb : b = x.contract
    · rw [hb, hself] at he
      rcases hknown e he with hold | hnew
      · exact h.known hold
      · exact hnew
    · rw [hother hb] at he
      exact h.known he
  · intro b
    rw [ChainLedger.put, deployments_append, h.logged]
    change _ = ((L.put x t).historyAt b).map _
    by_cases hb : b = x.contract
    · rw [hb, hself, hhist]
      cases hop : x.operation <;> simp [deployments, hop]
    · rw [hother hb]
      simp [deployments, Ne.symm hb]
  · intro b s hs
    by_cases hb : b = x.contract
    · rw [hb, L.contracts_put_self] at hs
      cases hs
      rw [hb]
      exact hcreator
    · rw [L.contracts_put_of_ne t hb] at hs
      obtain ⟨policy, hmem⟩ := h.creator hs
      exact ⟨policy, List.mem_append_left _ hmem⟩

/-- Entries that leave the history alone. -/
theorem WellFormed.note (h : WellFormed L) {s : Contract} (hs : L.contracts x.contract = some s)
    (hx : x.operation = none) (hhist : t.history = s.history) (hcreator : t.creator = s.creator) :
    WellFormed (L.put x t) := by
  have hold : t.history = L.historyAt x.contract := by rw [historyAt_some hs, hhist]
  obtain ⟨p, hmem⟩ := h.creator hs
  refine h.put ?_ ?_ ⟨p, ?_⟩
  · rw [hold, hx]
    exact (List.append_nil _).symm
  · intro e he
    rw [hold] at he
    exact .inl he
  · rw [hcreator]
    exact List.mem_append_left _ hmem

theorem lt_of_getElem? {i : Nat} {c : Code} (h : L.codes[i]? = some c) : i < L.codes.length :=
  (List.getElem?_eq_some_iff.1 h).1

theorem WellFormed.step (hstep : Step L L') (h : WellFormed L) : WellFormed L' := by
  cases hstep with
  | publish c =>
    refine ⟨?_, h.logged, h.creator⟩
    intro a e he
    have := h.known he
    rw [List.length_append]
    omega
  | restrict hc users =>
    refine ⟨?_, h.logged, h.creator⟩
    intro a e he
    rw [List.length_set]
    exact h.known he
  | deploy controllers hnew hc hop hid huse =>
    have hlt := lt_of_getElem? hc
    refine h.put ?_ ?_ ⟨_, List.mem_append_right _ (List.mem_singleton_self _)⟩
    · rw [historyAt_none hnew]
      exact congrArg (fun o ↦ [o]) hop
    · intro e he
      rw [List.mem_singleton] at he
      subst he
      right
      omega
  | @upgrade i c a actor policy e t ha hc hop hid hcontrol huse =>
    have hlt := lt_of_getElem? hc
    obtain ⟨p, hmem⟩ := h.creator ha
    refine h.put ?_ ?_ ⟨p, List.mem_append_left _ hmem⟩
    · rw [historyAt_some ha, List.map_append]
      exact congrArg (fun o ↦ t.history.map (·.operation) ++ [o]) hop
    · intro e' he'
      rw [historyAt_some ha]
      rcases List.mem_append.1 he' with hold | hnew
      · exact .inl hold
      · rw [List.mem_singleton] at hnew
        subst hnew
        right
        omega
  | handOver ha controllers hcontrol => exact h.note ha rfl rfl rfl
  | label ha hcontrol => exact h.note ha rfl rfl rfl
  | extend ha => exact h.note ha rfl rfl rfl

theorem WellFormed.run (hrun : Run L L') (h : WellFormed L) : WellFormed L' := by
  induction hrun with
  | refl => exact h
  | tail _ hstep ih => exact ih.step hstep

namespace Extends

theorem refl (L : ChainLedger) : Extends L L :=
  ⟨fun hc ↦ ⟨_, hc, rfl, rfl⟩, fun ha ↦ ⟨_, ha, rfl, List.prefix_refl _⟩, List.prefix_refl _⟩

theorem trans {L₁ : ChainLedger} (h : Extends L L₁) (h' : Extends L₁ L') : Extends L L' := by
  refine ⟨?_, ?_, h.log.trans h'.log⟩
  · intro i c hc
    obtain ⟨c₁, hc₁, hsum, hcreator⟩ := h.codes hc
    obtain ⟨c₂, hc₂, hsum', hcreator'⟩ := h'.codes hc₁
    exact ⟨c₂, hc₂, hsum'.trans hsum, hcreator'.trans hcreator⟩
  · intro a t ha
    obtain ⟨t₁, ha₁, hcreator, hhist⟩ := h.contracts ha
    obtain ⟨t₂, ha₂, hcreator', hhist'⟩ := h'.contracts ha₁
    exact ⟨t₂, ha₂, hcreator'.trans hcreator, hhist.trans hhist'⟩

/-- The codes change and nothing else does. -/
theorem of_codes {codes : List Code} (h : ∀ {i : Nat} {c : Code}, L.codes[i]? = some c →
    ∃ c', codes[i]? = some c' ∧ c'.checksum = c.checksum ∧ c'.creator = c.creator) :
    Extends L { L with codes } :=
  ⟨h, (refl L).contracts, List.prefix_refl _⟩

/-- A contract goes on from what it was, if there was one. -/
theorem put (h : ∀ s, L.contracts x.contract = some s → t.creator = s.creator ∧ s.history <+: t.history) :
    Extends L (L.put x t) := by
  refine ⟨(refl L).codes, ?_, List.prefix_append _ _⟩
  intro b s hs
  by_cases hb : b = x.contract
  · rw [hb] at hs ⊢
    exact ⟨t, L.contracts_put_self x t, h s hs⟩
  · exact ⟨s, (L.contracts_put_of_ne t hb).trans hs, rfl, List.prefix_refl _⟩

theorem note {s : Contract} (hs : L.contracts x.contract = some s) (hhist : t.history = s.history)
    (hcreator : t.creator = s.creator) : Extends L (L.put x t) := by
  apply put
  intro s' hs'
  cases hs.symm.trans hs'
  rw [hhist]
  exact ⟨hcreator, List.prefix_refl _⟩

theorem step (hstep : Step L L') : Extends L L' := by
  cases hstep with
  | publish c =>
    apply of_codes
    intro i c hc
    exact ⟨c, by rw [List.getElem?_append_left (lt_of_getElem? hc), hc], rfl, rfl⟩
  | @restrict i c hc users =>
    apply of_codes
    intro j c' hc'
    by_cases hj : i = j
    · subst hj
      cases hc.symm.trans hc'
      exact ⟨_, List.getElem?_set_self (lt_of_getElem? hc), rfl, rfl⟩
    · exact ⟨c', by rw [List.getElem?_set_ne hj, hc'], rfl, rfl⟩
  | deploy controllers hnew hc hop hid huse =>
    apply put
    intro s hs
    cases hnew.symm.trans hs
  | upgrade ha hc hop hid hcontrol huse =>
    apply put
    intro s hs
    cases ha.symm.trans hs
    exact ⟨rfl, List.prefix_append _ _⟩
  | handOver ha controllers hcontrol => exact note ha rfl rfl
  | label ha hcontrol => exact note ha rfl rfl
  | extend ha => exact note ha rfl rfl

theorem run (hrun : Run L L') : Extends L L' := by
  induction hrun with
  | refl => exact refl L
  | tail _ hstep ih => exact ih.trans (step hstep)

theorem history (h : Extends L L') (a : AccAddress) : L.historyAt a <+: L'.historyAt a := by
  rcases ha : L.contracts a with _ | t
  · rw [historyAt_none ha]
    exact List.nil_prefix
  · obtain ⟨t', ha', -, hhist⟩ := h.contracts ha
    rw [historyAt_some ha, historyAt_some ha']
    exact hhist

end Extends

/-- What a run adds to a history is what it adds to the log about it. -/
theorem history_of_run (h : WellFormed L) (hrun : Run L L') (a : AccAddress) :
    ∃ new es, L'.log = L.log ++ new ∧ L'.historyAt a = L.historyAt a ++ es ∧
      es.map (·.operation) = deployments new a := by
  have hext := Extends.run hrun
  obtain ⟨new, hlog⟩ := hext.log
  obtain ⟨es, hes⟩ := hext.history a
  refine ⟨new, es, hlog.symm, hes.symm, ?_⟩
  have hall := (h.run hrun).logged a
  rw [← hlog, ← hes, deployments_append, List.map_append, h.logged a] at hall
  exact (List.append_cancel_left hall).symm

end Step

end ChainLedger

end Cosmwasgo.Registry
