import Cosmwasgo.Keeper.Contracts
import Cosmwasgo.State.Devnet

namespace Cosmwasgo.Properties

open Cosmwasgo.Lib Cosmwasgo.Types Cosmwasgo.State Cosmwasgo.Keeper

variable {X : Type} {k : Keeper X} {addr : AccAddress}

/-- The key is one of those that are kept from contracts. -/
def isReserved (a : Attribute) : Bool := a.key.toList.head? = some '_'

def trimmed (k : Keeper X) (a : Attribute) : Attribute := ⟨k.lib.trimSpace a.key, k.lib.trimSpace a.value⟩

/-- The attribute every event of a contract starts with. -/
def originOf (k : Keeper X) (addr : AccAddress) : Attribute := ⟨"_contract_address", k.bech32.string addr⟩

/-- What a contract may call an attribute, once the spaces around it are gone. -/
def Admissible (k : Keeper X) (a : Attribute) : Prop := (trimmed k a).key ≠ "" ∧ isReserved (trimmed k a) = false

/-- What a contract may call an event. -/
def LongEnough (k : Keeper X) (e : Event) : Prop := 3 ≤ (k.lib.trimSpace e.type).utf8ByteSize

/-- An event that names the contract it is from, and besides has what this contract gave. -/
structure Marked (k : Keeper X) (addr : AccAddress) (given : List Attribute) (e : Event) : Prop where
  reserved : e.attributes.filter isReserved = [originOf k addr]
  others : e.attributes.filter (fun a ↦ !isReserved a) = given.map (trimmed k)
  keys : ∀ a ∈ e.attributes, a.key ≠ ""

section Attributes

theorem contractSDKEventAttributes_eq_ok {attrs l : List Attribute} :
    contractSDKEventAttributes k addr attrs = .ok l ↔
      (∀ a ∈ attrs, Admissible k a) ∧ originOf k addr :: attrs.map (trimmed k) = l := by
  have hone : ∀ a b, (do
      check ((trimmed k a).key ≠ "") (.wrap errInvalidEvent ("Empty attribute key. Value: " ++ a.value))
      check ((trimmed k a).key.toList.head? ≠ some '_')
        (.wrap errInvalidEvent ("Attribute key starts with reserved prefix _: '" ++ (trimmed k a).key ++ "'"))
      return trimmed k a) = (.ok b : Except Err Attribute) ↔ Admissible k a ∧ trimmed k a = b := by
    intro a b
    rw [check_bind_eq_ok, check_bind_eq_ok, decide_eq_true_eq, decide_eq_true_eq, ← and_assoc]
    refine and_congr (and_congr_right fun _ ↦ ?_) ⟨Except.ok.inj, congrArg Except.ok⟩
    exact (decide_eq_false_iff_not (p := (trimmed k a).key.toList.head? = some '_')).symm
  refine except_bind_eq_ok.trans ⟨?_, ?_⟩
  · rintro ⟨custom, hcustom, hl⟩
    obtain ⟨hall, rfl⟩ := (mapM_checked hone).1 hcustom
    exact ⟨hall, Except.ok.inj hl⟩
  · rintro ⟨hall, rfl⟩
    exact ⟨_, (mapM_checked hone).2 ⟨hall, rfl⟩, rfl⟩

/-- The one reserved key is that of the origin. -/
theorem marked_of_admissible {attrs : List Attribute} (h : ∀ a ∈ attrs, Admissible k a) (type : String) :
    Marked k addr attrs ⟨type, originOf k addr :: attrs.map (trimmed k)⟩ := by
  have horigin : isReserved (originOf k addr) = true := by
    have hhead : "_contract_address".toList.head? = some '_' := by decide
    exact decide_eq_true hhead
  have hcustom : ∀ a ∈ attrs.map (trimmed k), isReserved a = false := by
    intro a ha
    obtain ⟨b, hb, rfl⟩ := List.mem_map.1 ha
    exact (h b hb).2
  refine ⟨?_, ?_, ?_⟩
  · rw [List.filter_cons_of_pos horigin, List.filter_eq_nil_iff.2 fun a ha ↦ by simp [hcustom a ha]]
  · rw [List.filter_cons_of_neg (by simp [horigin]), List.filter_eq_self.2 fun a ha ↦ by simp [hcustom a ha]]
  · intro a ha
    rcases List.mem_cons.1 ha with rfl | ha
    · exact fun hno ↦ absurd hno (by decide : "_contract_address" ≠ "")
    · obtain ⟨b, hb, rfl⟩ := List.mem_map.1 ha
      exact (h b hb).1

end Attributes

/-- The custom event as the keeper emits it. -/
def customEvent (k : Keeper X) (addr : AccAddress) (e : Event) : Event :=
  ⟨"wasm-" ++ k.lib.trimSpace e.type, originOf k addr :: e.attributes.map (trimmed k)⟩

theorem newCustomEvents_eq_ok {evts es : List Event} : newCustomEvents k evts addr = .ok es ↔
    (∀ e ∈ evts, LongEnough k e ∧ ∀ a ∈ e.attributes, Admissible k a) ∧ evts.map (customEvent k addr) = es := by
  have hone : ∀ e b, (do
      check (2 < (k.lib.trimSpace e.type).utf8ByteSize)
        (.wrap errInvalidEvent ("Event type too short: '" ++ k.lib.trimSpace e.type ++ "'"))
      let attributes ← contractSDKEventAttributes k addr e.attributes
      return (⟨"wasm-" ++ k.lib.trimSpace e.type, attributes⟩ : Event)) = (.ok b : Except Err Event) ↔
        (LongEnough k e ∧ ∀ a ∈ e.attributes, Admissible k a) ∧ customEvent k addr e = b := by
    intro e b
    rw [check_bind_eq_ok, decide_eq_true_eq, and_assoc]
    refine and_congr_right fun _ ↦ except_bind_eq_ok.trans ⟨?_, ?_⟩
    · rintro ⟨l, hl, hb⟩
      obtain ⟨hall, rfl⟩ := contractSDKEventAttributes_eq_ok.1 hl
      exact ⟨hall, Except.ok.inj hb⟩
    · rintro ⟨hall, rfl⟩
      exact ⟨_, contractSDKEventAttributes_eq_ok.2 ⟨hall, rfl⟩, rfl⟩
  exact mapM_checked hone

/-- What a response emits itself: one event for its attributes, if it has any, and one for each of its events. -/
structure OwnEvents (k : Keeper X) (addr : AccAddress) (res : Response) (general custom : List Event) : Prop where
  general : if res.attributes = [] then general = []
    else ∃ e, general = [e] ∧ e.type = "wasm" ∧ Marked k addr res.attributes e
  custom : List.Forall₂ (fun given e ↦ LongEnough k given ∧ e.type = "wasm-" ++ k.lib.trimSpace given.type ∧
    Marked k addr given.attributes e) res.events custom

/-- A response that tries to pass for another origin, or that has a name which is no name. -/
def Objectionable (k : Keeper X) (res : Response) : Prop :=
  (∃ a ∈ res.attributes ++ res.events.flatMap (·.attributes), (trimmed k a).key = "" ∨ isReserved (trimmed k a) = true) ∨
    ∃ e ∈ res.events, (k.lib.trimSpace e.type).utf8ByteSize < 3

section Emitted

variable {w w' : World X}

theorem emitWasmModuleEvent_eq_ok {attrs : List Attribute} {u : Unit}
    (h : emitWasmModuleEvent k attrs addr w = (.ok u, w')) : (∀ a ∈ attrs, Admissible k a) ∧
      w'.events = w.events ++ if attrs = [] then [] else [⟨"wasm", originOf k addr :: attrs.map (trimmed k)⟩] := by
  unfold emitWasmModuleEvent at h
  split at h
  · next hnil =>
    cases h
    rw [if_pos hnil, hnil, List.append_nil]
    exact ⟨nofun, rfl⟩
  · next hne =>
    obtain ⟨es, w₁, hlift, hrun⟩ := Program.bind_eq_ok.1 h
    obtain ⟨hes, rfl⟩ := Program.lift_eq_ok.1 hlift
    obtain ⟨l, hl, hret⟩ := except_bind_eq_ok.1 hes
    obtain ⟨hall, rfl⟩ := contractSDKEventAttributes_eq_ok.1 hl
    cases hret
    cases hrun
    rw [if_neg hne]
    exact ⟨hall, rfl⟩

theorem emitCustomEvents_eq_ok {evts : List Event} {u : Unit} (h : emitCustomEvents k evts addr w = (.ok u, w')) :
    (∀ e ∈ evts, LongEnough k e ∧ ∀ a ∈ e.attributes, Admissible k a) ∧
      w'.events = w.events ++ evts.map (customEvent k addr) := by
  unfold emitCustomEvents at h
  split at h
  · next hnil =>
    cases h
    rw [hnil, List.map_nil, List.append_nil]
    exact ⟨nofun, rfl⟩
  · obtain ⟨es, w₁, hlift, hrun⟩ := Program.bind_eq_ok.1 h
    obtain ⟨hes, rfl⟩ := Program.lift_eq_ok.1 hlift
    obtain ⟨hall, rfl⟩ := newCustomEvents_eq_ok.1 hes
    cases hrun
    exact ⟨hall, rfl⟩

theorem handleContractResponse_eq_ok {h : ResponseHandler X} {c : Ctx} {port : String} {res : Response}
    {data : Option Bytes} (hrun : handleContractResponse k h c addr port res w = (.ok data, w')) :
    (∀ a ∈ res.attributes, Admissible k a) ∧ (∀ e ∈ res.events, LongEnough k e ∧ ∀ a ∈ e.attributes, Admissible k a) ∧
      ∃ w₁, h c addr port res.messages res.data w₁ = (.ok data, w') ∧
        w₁.events = w.events ++ ((if res.attributes = [] then []
          else [⟨"wasm", originOf k addr :: res.attributes.map (trimmed k)⟩]) ++ res.events.map (customEvent k addr)) := by
  obtain ⟨cost, w₁, hcost, hrun⟩ := Program.bind_eq_ok.1 hrun
  obtain ⟨_, w₂, hgas, hrun⟩ := Program.bind_eq_ok.1 hrun
  obtain ⟨_, w₃, hgeneral, hrun⟩ := Program.bind_eq_ok.1 hrun
  obtain ⟨_, w₄, hcustom, hrun⟩ := Program.bind_eq_ok.1 hrun
  -- the charge emits nothing
  have h₁ : w₁.events = w.events := by
    cases hg : k.gasRegister.eventCosts res.attributes res.events with
    | ok cost => rw [hg] at hcost; cases hcost; rfl
    | error p => rw [hg] at hcost; cases hcost
  have h₂ : w₂.events = w₁.events := by
    unfold consumeGas at hgas
    split at hgas <;> cases hgas
    rfl
  obtain ⟨hall, h₃⟩ := emitWasmModuleEvent_eq_ok hgeneral
  obtain ⟨hall', h₄⟩ := emitCustomEvents_eq_ok hcustom
  refine ⟨hall, hall', w₄, hrun, ?_⟩
  rw [h₄, h₃, h₂, h₁, List.append_assoc]

end Emitted

/-- A contract cannot forge where an event is from. -/
theorem own_events_marked (h : ResponseHandler X) (c : Ctx) (addr : AccAddress) (port : String) (res : Response)
    (w : World X) :
    (∀ data w', handleContractResponse k h c addr port res w = (.ok data, w') →
      ∃ general custom w₁, OwnEvents k addr res general custom ∧ w₁.events = w.events ++ (general ++ custom) ∧
        h c addr port res.messages res.data w₁ = (.ok data, w')) ∧
    (Objectionable k res → (handleContractResponse k h c addr port res w).1.exit ≠ .ok) := by
  constructor
  · intro data w' hrun
    obtain ⟨hall, hall', w₁, hdispatch, hevents⟩ := handleContractResponse_eq_ok hrun
    refine ⟨_, _, w₁, ⟨?_, ?_⟩, hevents, hdispatch⟩
    · split
      · rfl
      · exact ⟨_, rfl, rfl, marked_of_admissible hall _⟩
    · rw [List.forall₂_map_right_iff, List.forall₂_same]
      intro e he
      exact ⟨(hall' e he).1, rfl, marked_of_admissible (hall' e he).2 _⟩
  · intro hbad hok
    rcases hrun : handleContractResponse k h c addr port res w with ⟨data | e | p | _, w'⟩ <;> rw [hrun] at hok
    · obtain ⟨hall, hall', -⟩ := handleContractResponse_eq_ok hrun
      have hattr : ∀ a ∈ res.attributes ++ res.events.flatMap (·.attributes), Admissible k a := by
        intro a ha
        rcases List.mem_append.1 ha with ha | ha
        · exact hall a ha
        · obtain ⟨e, he, ha⟩ := List.mem_flatMap.1 ha
          exact (hall' e he).2 a ha
      rcases hbad with ⟨a, ha, hkey | hkey⟩ | ⟨e, he, hshort⟩
      · exact (hattr a ha).1 hkey
      · rw [(hattr a ha).2] at hkey
        cases hkey
      · exact absurd (hall' e he).1 (Nat.not_le.2 hshort)
    · cases hok
    · cases hok
    · cases hok

example : (handleContractResponse (plainnet idleContract) (fun _ _ _ _ data ↦ pure data) genesisCtx [1] ""
    { attributes := [⟨"key", "value"⟩], events := [⟨"abc", []⟩] } emptyWorld).2.events =
      [⟨"wasm", [⟨"_contract_address", "1"⟩, ⟨"key", "value"⟩]⟩, ⟨"wasm-abc", [⟨"_contract_address", "1"⟩]⟩] := by
  decide +kernel

end Cosmwasgo.Properties
