import Cosmwasgo.Keeper.GasRegister
import Mathlib.Algebra.BigOperators.Group.List.Basic
import Mathlib.Data.List.Perm.Basic

namespace Cosmwasgo.Properties

open Cosmwasgo.Lib Cosmwasgo.Types Cosmwasgo.State Cosmwasgo.Keeper

variable {g : WasmGasRegisterConfig}

/-- The bytes of keys and values. -/
def attributeBytes (attrs : List Attribute) : Nat := (attrs.map fun a ↦ a.key.utf8ByteSize + a.value.utf8ByteSize).sum

def typeBytes (events : List Event) : Nat := (events.map (·.type.utf8ByteSize)).sum

/-- The attributes of the main list and of all events. -/
def allAttributes (attrs : List Attribute) (events : List Event) : List Attribute := attrs ++ events.flatMap (·.attributes)

/-- The price of attributes, by their number and their bytes. -/
def attributePrice (g : WasmGasRegisterConfig) (attrs : List Attribute) : Nat :=
  g.eventPerAttributeCost.toNat * attrs.length +
    g.eventAttributeDataCost.toNat * (attributeBytes attrs - g.eventAttributeDataFreeTier.toNat)

def eventPrice (g : WasmGasRegisterConfig) (attrs : List Attribute) (events : List Event) : Nat :=
  attributePrice g (allAttributes attrs events) + g.customEventCost.toNat * events.length +
    g.eventAttributeDataCost.toNat * typeBytes events

section Attributes

theorem foldl_attributeBytes (attrs : List Attribute) (n : UInt64) :
    attrs.foldl (fun n a ↦ n + (UInt64.ofNat a.key.utf8ByteSize + UInt64.ofNat a.value.utf8ByteSize)) n =
      n + UInt64.ofNat (attributeBytes attrs) := by
  induction attrs generalizing n with
  | nil => simp [attributeBytes]
  | cons a attrs ih =>
    rw [List.foldl_cons, ih]
    simp only [attributeBytes, List.map_cons, List.sum_cons, UInt64.ofNat_add]
    rw [UInt64.add_assoc]

theorem toNat_calcWithFreeTier (stored free : UInt64) :
    (calcWithFreeTier stored free).1.toNat = stored.toNat - free.toNat ∧
      (calcWithFreeTier stored free).2.toNat = free.toNat - stored.toNat := by
  unfold calcWithFreeTier
  split
  · next hle =>
    have hle' := UInt64.le_iff_toNat_le.1 hle
    refine ⟨?_, UInt64.toNat_sub_of_le _ _ hle⟩
    rw [Nat.sub_eq_zero_of_le hle']
    rfl
  · next hgt =>
    have hlt := UInt64.lt_iff_toNat_lt.1 (UInt64.not_le.1 hgt)
    refine ⟨UInt64.toNat_sub_of_le _ _ (UInt64.le_of_lt (UInt64.not_le.1 hgt)), ?_⟩
    rw [Nat.sub_eq_zero_of_le (Nat.le_of_lt hlt)]
    rfl

/-- A list of attributes uses up the free tier first. -/
theorem eventAttributeCosts_eq {attrs : List Attribute} {free : UInt64} (hbytes : attributeBytes attrs < 2 ^ 64)
    (hlt : g.eventAttributeDataCost.toNat * (attributeBytes attrs - free.toNat) +
      g.eventPerAttributeCost.toNat * attrs.length < 2 ^ 64) :
    ∃ cost free', WasmGasRegister.eventAttributeCosts g attrs free = .ok (cost, free') ∧
      cost.toNat = g.eventAttributeDataCost.toNat * (attributeBytes attrs - free.toNat) +
        g.eventPerAttributeCost.toNat * attrs.length ∧ free'.toNat = free.toNat - attributeBytes attrs := by
  unfold WasmGasRegister.eventAttributeCosts
  by_cases hnil : attrs = []
  · subst hnil
    exact ⟨0, free, rfl, by simp [attributeBytes], by simp [attributeBytes]⟩
  · rw [if_neg hnil]
    obtain ⟨hstored, hfree⟩ := toNat_calcWithFreeTier (UInt64.ofNat (attributeBytes attrs)) free
    have htoNat : (UInt64.ofNat (attributeBytes attrs)).toNat = attributeBytes attrs := by
      rw [UInt64.toNat_ofNat', Nat.mod_eq_of_lt hbytes]
    rw [htoNat] at hstored hfree
    simp only [foldl_attributeBytes, UInt64.zero_add, hstored, if_pos hlt]
    exact ⟨_, _, rfl, by rw [UInt64.toNat_ofNat', Nat.mod_eq_of_lt hlt], hfree⟩

end Attributes

section Events

/-- One event of the fold in `EventCosts`. -/
def eventStep (g : WasmGasRegisterConfig) (s : Gas × UInt64) (e : Event) : Except Panic (Gas × UInt64) := do
  let (attrCost, freeTier) ← WasmGasRegister.eventAttributeCosts g e.attributes s.2
  return (s.1 + g.customEventCost + UInt64.ofNat e.type.utf8ByteSize * g.eventAttributeDataCost + attrCost, freeTier)

theorem eventCosts_eq (attrs : List Attribute) (events : List Event) :
    WasmGasRegister.eventCosts g attrs events = do
      let start ← WasmGasRegister.eventAttributeCosts g attrs g.eventAttributeDataFreeTier
      let (gas, _) ← events.foldlM (eventStep g) start
      return gas := rfl

theorem attributeBytes_append (l l' : List Attribute) :
    attributeBytes (l ++ l') = attributeBytes l + attributeBytes l' := by
  simp [attributeBytes]

/-- What is charged for more bytes once some were counted: the free tier is not granted again. -/
theorem mul_sub_add_mul_sub (c B b F : Nat) : c * (B - F) + c * (b - (F - B)) = c * (B + b - F) := by
  rw [← Nat.mul_add]
  congr 1
  omega

/-- The price of the events that are still to come, when `bytes` have been counted and everything but their price
makes up `paid`. -/
def restPrice (g : WasmGasRegisterConfig) (paid bytes : Nat) (events : List Event) : Nat :=
  paid + g.eventPerAttributeCost.toNat * (events.flatMap (·.attributes)).length +
    g.eventAttributeDataCost.toNat *
      (bytes + attributeBytes (events.flatMap (·.attributes)) - g.eventAttributeDataFreeTier.toNat) +
    g.customEventCost.toNat * events.length + g.eventAttributeDataCost.toNat * typeBytes events

theorem restPrice_cons (paid bytes : Nat) (e : Event) (events : List Event) :
    restPrice g paid bytes (e :: events) =
      restPrice g (paid + g.customEventCost.toNat + g.eventAttributeDataCost.toNat * e.type.utf8ByteSize +
        g.eventPerAttributeCost.toNat * e.attributes.length) (bytes + attributeBytes e.attributes) events := by
  simp only [restPrice, List.flatMap_cons, List.length_append, List.length_cons, attributeBytes_append, typeBytes,
    List.map_cons, List.sum_cons, Nat.mul_add, Nat.add_assoc]
  omega

theorem paid_le_restPrice (paid bytes : Nat) (events : List Event) :
    paid + g.eventAttributeDataCost.toNat * (bytes - g.eventAttributeDataFreeTier.toNat) ≤
      restPrice g paid bytes events := by
  have hmul : g.eventAttributeDataCost.toNat * (bytes - g.eventAttributeDataFreeTier.toNat) ≤
      g.eventAttributeDataCost.toNat *
        (bytes + attributeBytes (events.flatMap (·.attributes)) - g.eventAttributeDataFreeTier.toNat) :=
    Nat.mul_le_mul_left _ (by omega)
  unfold restPrice
  omega

/-- The fold carries what is paid so far and what is left of the free tier. -/
theorem foldlM_eventStep {events : List Event} (hbytes : ∀ e ∈ events, attributeBytes e.attributes < 2 ^ 64)
    {paid bytes : Nat} {gas free : UInt64}
    (hgas : gas.toNat = paid + g.eventAttributeDataCost.toNat * (bytes - g.eventAttributeDataFreeTier.toNat))
    (hfree : free.toNat = g.eventAttributeDataFreeTier.toNat - bytes) (hlt : restPrice g paid bytes events < 2 ^ 64) :
    ∃ gas' free', events.foldlM (eventStep g) (gas, free) = .ok (gas', free') ∧
      gas'.toNat = restPrice g paid bytes events := by
  induction events generalizing paid bytes gas free with
  | nil => exact ⟨gas, free, rfl, by rw [hgas]; simp [restPrice, typeBytes, attributeBytes]⟩
  | cons e events ih =>
    rw [restPrice_cons] at hlt
    have hle := Nat.lt_of_le_of_lt (paid_le_restPrice _ _ _) hlt
    rw [← mul_sub_add_mul_sub] at hle
    have hfits : g.eventAttributeDataCost.toNat * (attributeBytes e.attributes - free.toNat) +
        g.eventPerAttributeCost.toNat * e.attributes.length < 2 ^ 64 := by
      rw [hfree]
      omega
    obtain ⟨cost, free₁, hcost, hcostNat, hfree₁⟩ := eventAttributeCosts_eq (hbytes e List.mem_cons_self) hfits
    rw [hfree] at hcostNat hfree₁
    have htype : (UInt64.ofNat e.type.utf8ByteSize * g.eventAttributeDataCost).toNat =
        g.eventAttributeDataCost.toNat * e.type.utf8ByteSize := by
      rw [UInt64.toNat_mul, UInt64.toNat_ofNat', Nat.mod_mul_mod, Nat.mul_comm, Nat.mod_eq_of_lt (by omega)]
    have h₁ : (gas + g.customEventCost).toNat = gas.toNat + g.customEventCost.toNat :=
      toNat_add_of_lt (by omega)
    have h₂ := toNat_add_of_lt (a := gas + g.customEventCost)
      (b := UInt64.ofNat e.type.utf8ByteSize * g.eventAttributeDataCost) (by rw [h₁, htype]; omega)
    have h₃ := toNat_add_of_lt (b := cost) (by rw [h₂, h₁, htype, hcostNat]; omega)
    rw [h₂, h₁, htype, hcostNat] at h₃
    obtain ⟨gas', free', hrun, hgas'⟩ := ih (fun e he ↦ hbytes e (List.mem_cons_of_mem _ he))
      (by rw [h₃, hgas, ← mul_sub_add_mul_sub]; omega) (by rw [hfree₁]; omega) hlt
    refine ⟨gas', free', ?_, by rw [restPrice_cons, hgas']⟩
    rw [List.foldlM_cons, eventStep, hcost]
    exact hrun

/-- The bytes of each list are a number of the machine. -/
def Counted (attrs : List Attribute) (events : List Event) : Prop :=
  attributeBytes attrs < 2 ^ 64 ∧ ∀ e ∈ events, attributeBytes e.attributes < 2 ^ 64

theorem eventPrice_eq_restPrice (attrs : List Attribute) (events : List Event) :
    eventPrice g attrs events = restPrice g (g.eventPerAttributeCost.toNat * attrs.length) (attributeBytes attrs) events := by
  simp only [eventPrice, attributePrice, allAttributes, restPrice, List.length_append, attributeBytes_append, Nat.mul_add]

theorem eventCosts_eq_price {attrs : List Attribute} {events : List Event} (hcounted : Counted attrs events)
    (hlt : eventPrice g attrs events < 2 ^ 64) :
    WasmGasRegister.eventCosts g attrs events = .ok (UInt64.ofNat (eventPrice g attrs events)) := by
  rw [eventPrice_eq_restPrice] at hlt ⊢
  have hle := Nat.lt_of_le_of_lt (paid_le_restPrice _ _ _) hlt
  rw [Nat.add_comm] at hle
  obtain ⟨cost, free, hcost, hcostNat, hfree⟩ := eventAttributeCosts_eq hcounted.1 hle
  rw [Nat.add_comm] at hcostNat
  obtain ⟨gas, free', hrun, hgas⟩ := foldlM_eventStep hcounted.2 hcostNat hfree hlt
  rw [eventCosts_eq, hcost]
  change (do let (gas, _) ← events.foldlM (eventStep g) (cost, free); return gas) = _
  rw [hrun, ← hgas, UInt64.ofNat_toNat]
  rfl

/-- The price depends on the attributes and the types, not on where they stand. -/
theorem eventPrice_perm {attrs attrs' : List Attribute} {events events' : List Event}
    (hattrs : (allAttributes attrs events).Perm (allAttributes attrs' events'))
    (htypes : (events.map (·.type)).Perm (events'.map (·.type))) : eventPrice g attrs events = eventPrice g attrs' events' := by
  have hbytes : attributeBytes (allAttributes attrs events) = attributeBytes (allAttributes attrs' events') :=
    (hattrs.map _).sum_eq
  have htypeBytes : typeBytes events = typeBytes events' := by
    have hsum := (htypes.map String.utf8ByteSize).sum_eq
    rwa [List.map_map, List.map_map] at hsum
  have hlen : events.length = events'.length := by simpa using htypes.length_eq
  rw [eventPrice, eventPrice, attributePrice, attributePrice, hbytes, htypeBytes, hlen, hattrs.length_eq]

end Events

section Replies

def setupPrice (g : WasmGasRegisterConfig) (discount : Bool) (msgLen : Nat) : Nat :=
  (if discount then g.instanceCostDiscount else g.instanceCost).toNat + msgLen * g.contractMessageDataCost.toNat

def replyEvents (reply : Reply) : List Event := (reply.result.ok.map (·.events)).getD []

/-- The price of a reply: its setup, the types of its events, and the attributes of all of them together. -/
def replyPrice (g : WasmGasRegisterConfig) (discount : Bool) (reply : Reply) : Nat :=
  setupPrice g discount (WasmGasRegister.replyMsgLen reply) + g.eventAttributeDataCost.toNat * typeBytes (replyEvents reply) +
    attributePrice g ((replyEvents reply).flatMap (·.attributes))

theorem toNat_setupContractCost_of_lt {discount : Bool} {msgLen : Nat} (hlt : setupPrice g discount msgLen < 2 ^ 64) :
    (WasmGasRegister.setupContractCost g discount msgLen).toNat = setupPrice g discount msgLen := by
  have hdata : (UInt64.ofNat msgLen * g.contractMessageDataCost).toNat = msgLen * g.contractMessageDataCost.toNat := by
    rw [UInt64.toNat_mul, UInt64.toNat_ofNat', Nat.mod_mul_mod, Nat.mod_eq_of_lt]
    exact Nat.lt_of_le_of_lt (Nat.le_add_left _ _) hlt
  unfold WasmGasRegister.setupContractCost
  unfold setupPrice at hlt ⊢
  cases discount with
  | true => exact (toNat_add_of_lt (by rw [hdata]; exact hlt)).trans (by rw [hdata]; rfl)
  | false => exact (toNat_add_of_lt (by rw [hdata]; exact hlt)).trans (by rw [hdata]; rfl)

theorem foldl_typeGas (events : List Event) (n : UInt64) :
    events.foldl (fun gas e ↦ gas + UInt64.ofNat e.type.utf8ByteSize * g.eventAttributeDataCost) n =
      n + UInt64.ofNat (g.eventAttributeDataCost.toNat * typeBytes events) := by
  induction events generalizing n with
  | nil => simp [typeBytes]
  | cons e events ih =>
    rw [List.foldl_cons, ih]
    simp only [typeBytes, List.map_cons, List.sum_cons, Nat.mul_add, UInt64.ofNat_add, UInt64.ofNat_mul, UInt64.ofNat_toNat]
    rw [UInt64.add_assoc, UInt64.mul_comm]

theorem attributePrice_eq_eventPrice (attrs : List Attribute) : attributePrice g attrs = eventPrice g attrs [] := by
  simp [eventPrice, allAttributes, typeBytes]

theorem replyEventGas_eq {reply : Reply} (hbytes : attributeBytes ((replyEvents reply).flatMap (·.attributes)) < 2 ^ 64)
    (hlt : g.eventAttributeDataCost.toNat * typeBytes (replyEvents reply) +
      attributePrice g ((replyEvents reply).flatMap (·.attributes)) < 2 ^ 64) :
    WasmGasRegister.replyEventGas g reply =
      .ok (UInt64.ofNat (g.eventAttributeDataCost.toNat * typeBytes (replyEvents reply) +
        attributePrice g ((replyEvents reply).flatMap (·.attributes)))) := by
  unfold WasmGasRegister.replyEventGas
  unfold replyEvents at hbytes hlt ⊢
  rcases hok : reply.result.ok with _ | ok <;> rw [hok] at hbytes hlt
  · simp [typeBytes, attributePrice, attributeBytes]
  · simp only [Option.map_some, Option.getD_some] at hbytes hlt ⊢
    rw [attributePrice_eq_eventPrice] at hlt ⊢
    rw [eventCosts_eq_price ⟨hbytes, fun _ he ↦ absurd he List.not_mem_nil⟩ (by omega), UInt64.ofNat_add]
    change Except.ok (_ + _) = _
    rw [foldl_typeGas, UInt64.zero_add]

theorem replyCosts_eq_price {discount : Bool} {reply : Reply}
    (hbytes : attributeBytes ((replyEvents reply).flatMap (·.attributes)) < 2 ^ 64)
    (hlt : replyPrice g discount reply < 2 ^ 64) :
    WasmGasRegister.replyCosts g discount reply = .ok (UInt64.ofNat (replyPrice g discount reply)) := by
  unfold replyPrice at hlt ⊢
  have hsetup : (WasmGasRegister.setupContractCost g discount (WasmGasRegister.replyMsgLen reply)).toNat =
      setupPrice g discount (WasmGasRegister.replyMsgLen reply) := toNat_setupContractCost_of_lt (by omega)
  rw [WasmGasRegister.replyCosts, replyEventGas_eq hbytes (by omega), Nat.add_assoc, UInt64.ofNat_add (setupPrice _ _ _),
    ← hsetup, UInt64.ofNat_toNat, UInt64.add_comm]
  rfl

end Replies

/-- Events and replies are charged for by totals: wherever the attributes stand, the free tier is granted once. -/
theorem event_gas_closed_form (g : WasmGasRegisterConfig) :
    (∀ attrs events, Counted attrs events → eventPrice g attrs events < 2 ^ 64 →
      WasmGasRegister.eventCosts g attrs events = .ok (UInt64.ofNat (eventPrice g attrs events))) ∧
    (∀ attrs events attrs' events', Counted attrs events → Counted attrs' events' → eventPrice g attrs events < 2 ^ 64 →
      (allAttributes attrs events).Perm (allAttributes attrs' events') →
      (events.map (·.type)).Perm (events'.map (·.type)) →
      WasmGasRegister.eventCosts g attrs events = WasmGasRegister.eventCosts g attrs' events') ∧
    ∀ discount reply, attributeBytes ((replyEvents reply).flatMap (·.attributes)) < 2 ^ 64 →
      replyPrice g discount reply < 2 ^ 64 →
      WasmGasRegister.replyCosts g discount reply = .ok (UInt64.ofNat (replyPrice g discount reply)) := by
  refine ⟨fun _ _ ↦ eventCosts_eq_price, fun attrs events attrs' events' hc hc' hlt hattrs htypes ↦ ?_,
    fun _ _ ↦ replyCosts_eq_price⟩
  have hprice := eventPrice_perm (g := g) hattrs htypes
  rw [eventCosts_eq_price hc hlt, hprice, eventCosts_eq_price hc' (hprice ▸ hlt)]

/-- Two attributes in the main list cost what they cost inside the event. -/
theorem event_gas_closed_form_moved :
    WasmGasRegister.eventCosts defaultGasRegisterConfig [⟨"denom", "atom"⟩, ⟨"memo", ""⟩] [⟨"mint", []⟩] = .ok 44 ∧
      WasmGasRegister.eventCosts defaultGasRegisterConfig [] [⟨"mint", [⟨"memo", ""⟩, ⟨"denom", "atom"⟩]⟩] = .ok 44 ∧
      WasmGasRegister.replyCosts defaultGasRegisterConfig true
        { id := 1, result := { ok := some ⟨[⟨"mint", [⟨"memo", ""⟩]⟩], none, []⟩ }, payload := [] } = .ok 2014 := by
  obtain ⟨hprice, hmoved, hreply⟩ := event_gas_closed_form defaultGasRegisterConfig
  have hcosts := hprice [⟨"denom", "atom"⟩, ⟨"memo", ""⟩] [⟨"mint", []⟩] ⟨by decide, by decide⟩ (by decide)
  refine ⟨hcosts, ?_, ?_⟩
  · rw [← hmoved [⟨"denom", "atom"⟩, ⟨"memo", ""⟩] [⟨"mint", []⟩] [] [⟨"mint", [⟨"memo", ""⟩, ⟨"denom", "atom"⟩]⟩]
      ⟨by decide, by decide⟩ ⟨by decide, by decide⟩ (by decide) (.swap _ _ _) (.refl _)]
    exact hcosts
  · exact hreply true _ (by decide) (by decide)

section Wraparound

/-- Attributes without a price of their own, and a free tier of half the numbers of the machine. -/
def halfFree : WasmGasRegisterConfig :=
  { defaultGasRegisterConfig with eventPerAttributeCost := 0, eventAttributeDataFreeTier := 9223372036854775808 }

/-- The same attribute `m` times, with a key and a value of `n` bytes. -/
def sharedAttributes (m n : Nat) : List Attribute :=
  let s := String.ofList (List.replicate n 'a')
  List.replicate m ⟨s, s⟩

theorem utf8ByteSize_replicate (n : Nat) : (String.ofList (List.replicate n 'a')).utf8ByteSize = n := by
  induction n with
  | zero => rfl
  | succ n ih =>
    rw [List.replicate_succ, String.ofList_cons, String.utf8ByteSize_append, ih, Nat.add_comm]
    rfl

theorem attributeBytes_sharedAttributes (m n : Nat) : attributeBytes (sharedAttributes m n) = m * (n + n) := by
  simp [attributeBytes, sharedAttributes, utf8ByteSize_replicate]

/-- Where the bytes of one list are a multiple of the word size, none are counted. -/
theorem eventCosts_of_wraparound {attrs : List Attribute} (hne : attrs ≠ []) (hbytes : attributeBytes attrs = 2 ^ 64) :
    WasmGasRegister.eventCosts halfFree attrs [] = .ok 0 := by
  have hstored : UInt64.ofNat (attributeBytes attrs) = 0 := by rw [hbytes]; rfl
  have hcosts : WasmGasRegister.eventAttributeCosts halfFree attrs halfFree.eventAttributeDataFreeTier =
      .ok (0, halfFree.eventAttributeDataFreeTier) := by
    unfold WasmGasRegister.eventAttributeCosts
    rw [if_neg hne]
    simp only [foldl_attributeBytes, hstored]
    have hprice : halfFree.eventAttributeDataCost.toNat * (0 : UInt64).toNat +
        halfFree.eventPerAttributeCost.toNat * attrs.length = 0 := by
      simp [halfFree]
    have hcalc : calcWithFreeTier (0 + 0) halfFree.eventAttributeDataFreeTier = (0, halfFree.eventAttributeDataFreeTier) := rfl
    rw [hcalc, hprice]
    rfl
  rw [eventCosts_eq, hcosts]
  rfl

theorem price_and_costs_of_wraparound {m n : Nat} (h : m * (n + n) = 2 ^ 64) :
    eventPrice halfFree (sharedAttributes m n) [] = 2 ^ 63 ∧
      WasmGasRegister.eventCosts halfFree (sharedAttributes m n) [] = .ok 0 := by
  have hbytes : attributeBytes (sharedAttributes m n) = 2 ^ 64 := (attributeBytes_sharedAttributes m n).trans h
  have hne : sharedAttributes m n ≠ [] := by
    intro hnil
    rw [hnil] at hbytes
    cases hbytes
  refine ⟨?_, eventCosts_of_wraparound hne hbytes⟩
  rw [← attributePrice_eq_eventPrice, attributePrice, hbytes]
  simp [halfFree, defaultGasRegisterConfig]

/-- An attribute of four gigabytes, as often: the count of the bytes wraps around, though their price does not. -/
theorem bytes_uncounted :
    eventPrice halfFree (sharedAttributes (2 ^ 32) (2 ^ 31)) [] = 2 ^ 63 ∧
      WasmGasRegister.eventCosts halfFree (sharedAttributes (2 ^ 32) (2 ^ 31)) [] = .ok 0 :=
  price_and_costs_of_wraparound (by norm_num)

end Wraparound

end Cosmwasgo.Properties
