import Cosmwasgo.Lib.Rules
import Cosmwasgo.Keeper.Dispatcher
import Cosmwasgo.Runs.Meter

namespace Cosmwasgo.Runs

open Cosmwasgo.Lib Cosmwasgo.Types Cosmwasgo.State Cosmwasgo.Keeper

variable {X α β ρ : Type}

/-- A key of the state of some contract. -/
def IsStateKey (key : Bytes) : Prop := ∃ rest, key = contractStorePrefix ++ rest

/-- The part of a world that outlives a message. -/
structure Durable (X : Type) where
  store : Store X
  vm : VMCache

def durable (w : World X) : Durable X := ⟨w.store, w.vm⟩

/-- Nothing of the module's own records changes. State of the contract `o` may. -/
structure Quiet (o : Option AccAddress) (d d' : Durable X) : Prop where
  vm : d'.vm = d.vm
  changes : d'.store.changes = d.store.changes
  acks : d'.store.acks = d.store.acks
  records : ∀ key, ¬ IsStateKey key → d'.store.kv.get key = d.store.kv.get key
  state : ∀ key v, d'.store.kv.get key = some v → d.store.kv.get key = some v ∨
    ∃ a x b, o = some a ∧ x ≠ [] ∧ key = getContractStorePrefix a ++ x ∧ v = .bytes b

/-- A setup that is due the discount, with these contracts loaded before. -/
def IsDiscounted (txContracts : Option (List Bytes)) (s : Setup) : Prop :=
  s.pinned = true ∨ ∃ loaded, txContracts = some loaded ∧ s.checksum ∈ loaded

/-- Setups in a row, each with the discount it is due. One without adds its contract to those that are loaded. -/
inductive Loading : Option (List Bytes) → List Setup → Option (List Bytes) → Prop
  | nil (cs : Option (List Bytes)) : Loading cs [] cs
  | discounted {cs cs' : Option (List Bytes)} {s : Setup} {l : List Setup} (hs : s.discount = true)
      (hd : IsDiscounted cs s) (h : Loading cs l cs') : Loading cs (s :: l) cs'
  | full {cs cs' : Option (List Bytes)} {s : Setup} {l : List Setup} (hs : s.discount = false)
      (hd : ¬ IsDiscounted cs s)
      (h : Loading (cs.map fun loaded ↦ if s.checksum = [] then loaded else s.checksum :: loaded) l cs') :
      Loading cs (s :: l) cs'

/-- What a run has put on record about setups goes with the contracts it has loaded. -/
def Loads (w w' : World X) : Prop := ∃ l, w'.setups = w.setups ++ l ∧ Loading w.txContracts l w'.txContracts

/-- A run that leaves the records alone and pays for what it does. -/
structure Keeps (o : Option AccAddress) (w : World X) (x : Exit) (w' : World X) : Prop where
  trace : w'.trace = w.trace
  quiet : Quiet o (durable w) (durable w')
  meter : w.meter.Spends x w'.meter
  loads : Loads w w'

/-- Relations of what is emitted that hold of the parts if they hold of the whole is made of, and of what is left by
filters on types. -/
structure IsEventRel (E : List Event → List Event → Prop) : Prop where
  refl : ∀ es, E es es
  append : ∀ {es es' fs fs'}, E es es' → E fs fs' → E (es ++ fs) (es' ++ fs')
  filter : ∀ {es es'}, E es es' → ∀ p : String → Bool, E (es.filter fun e ↦ p e.type) (es'.filter fun e ↦ p e.type)

/-- Worlds that differ at most in their events, up to `E`, and in what they have on record. -/
structure Alike (E : List Event → List Event → Prop) (w v : World X) : Prop where
  store : w.store = v.store
  meter : w.meter = v.meter
  txContracts : w.txContracts = v.txContracts
  vm : w.vm = v.vm
  events : E w.events v.events

/-- The program does not look at the events or the record of the run. -/
def Oblivious (m : M X α) : Prop := ∀ E, IsEventRel E → Simulates (Alike E) Eq m m

structure Local (o : Option AccAddress) (m : M X α) : Prop where
  keeps : ∀ w, Keeps o w (m w).1.exit (m w).2
  oblivious : Oblivious m

namespace Quiet

variable {o : Option AccAddress} {d d₁ d₂ : Durable X}

theorem of_eq (hv : d₁.vm = d.vm) (hc : d₁.store.changes = d.store.changes) (ha : d₁.store.acks = d.store.acks)
    (hk : d₁.store.kv = d.store.kv) : Quiet o d d₁ :=
  ⟨hv, hc, ha, fun _ _ ↦ by rw [hk], fun _ _ h ↦ .inl (by rwa [hk] at h)⟩

theorem trans (h : Quiet o d d₁) (h' : Quiet o d₁ d₂) : Quiet o d d₂ where
  vm := h'.vm.trans h.vm
  changes := h'.changes.trans h.changes
  acks := h'.acks.trans h.acks
  records key hk := (h'.records key hk).trans (h.records key hk)
  state key v hv := by
    rcases h'.state key v hv with hv | hv
    · exact h.state key v hv
    · exact .inr hv

theorem weaken (h : Quiet none d d₁) (o : Option AccAddress) : Quiet o d d₁ where
  vm := h.vm
  changes := h.changes
  acks := h.acks
  records := h.records
  state key v hv := by
    rcases h.state key v hv with hv | ⟨a, _, _, ha, -⟩
    · exact .inl hv
    · cases ha

end Quiet

theorem Loading.append {cs cs₁ cs₂ : Option (List Bytes)} {l l' : List Setup} (h : Loading cs l cs₁)
    (h' : Loading cs₁ l' cs₂) : Loading cs (l ++ l') cs₂ := by
  induction h with
  | nil => exact h'
  | discounted hs hd _ ih => exact .discounted hs hd (ih h')
  | full hs hd _ ih => exact .full hs hd (ih h')

namespace Loads

variable {w w₁ w₂ : World X}

theorem of_eq (hc : w₁.txContracts = w.txContracts) (hs : w₁.setups = w.setups) : Loads w w₁ :=
  ⟨[], by rw [hs, List.append_nil], hc ▸ .nil _⟩

theorem trans (h : Loads w w₁) (h' : Loads w₁ w₂) : Loads w w₂ := by
  obtain ⟨l, hl, hloading⟩ := h
  obtain ⟨l', hl', hloading'⟩ := h'
  exact ⟨l ++ l', by rw [hl', hl, List.append_assoc], hloading.append hloading'⟩

end Loads

namespace Keeps

variable {o : Option AccAddress} {w w₁ w₂ : World X} {x y : Exit}

theorem refl (o : Option AccAddress) (w : World X) (x : Exit) : Keeps o w x w :=
  ⟨rfl, .of_eq rfl rfl rfl rfl, .refl _ x, .of_eq rfl rfl⟩

theorem compose (h : Keeps o w x w₁) (h' : Keeps o w₁ y w₂) {z : Exit} (hm : w.meter.Spends z w₂.meter) :
    Keeps o w z w₂ :=
  ⟨h'.trace.trans h.trace, h.quiet.trans h'.quiet, hm, h.loads.trans h'.loads⟩

theorem trans (h : Keeps o w .ok w₁) (h' : Keeps o w₁ x w₂) : Keeps o w x w₂ :=
  h.compose h' (h.meter.trans h'.meter)

theorem withExit (h : Keeps o w x w₁) (hm : w.meter.Spends y w₁.meter) : Keeps o w y w₁ :=
  ⟨h.trace, h.quiet, hm, h.loads⟩

theorem weaken (h : Keeps none w x w₁) (o : Option AccAddress) : Keeps o w x w₁ :=
  ⟨h.trace, h.quiet.weaken o, h.meter, h.loads⟩

/-- Steps that only spend gas, emit events or change what other modules hold. -/
theorem of_eq (ht : w₁.trace = w.trace) (hv : w₁.vm = w.vm) (hc : w₁.store.changes = w.store.changes)
    (ha : w₁.store.acks = w.store.acks) (hk : w₁.store.kv = w.store.kv) (hm : w.meter.Spends x w₁.meter)
    (hl : Loads w w₁) : Keeps o w x w₁ :=
  ⟨ht, .of_eq hv hc ha hk, hm, hl⟩

/-- The discipline of code that keeps the records. -/
def discipline (X : Type) (o : Option AccAddress) : Discipline (World X) where
  rel := Keeps o
  refl w := .refl o w _
  trans := .trans
  abort w := .refl o w _
  expire w := .refl o w _

end Keeps

theorem IsEventRel.swap {E : List Event → List Event → Prop} (hE : IsEventRel E) : IsEventRel fun es es' ↦ E es' es :=
  ⟨hE.refl, hE.append, hE.filter⟩

theorem Alike.swap {E : List Event → List Event → Prop} {w v : World X} (h : Alike E w v) :
    Alike (fun es es' ↦ E es' es) v w :=
  ⟨h.store.symm, h.meter.symm, h.txContracts.symm, h.vm.symm, h.events⟩

/-- Relations of single events that know of their types. -/
theorem isEventRel_forall₂ {R : Event → Event → Prop} (refl : ∀ e, R e e) (type : ∀ {e e'}, R e e' → e.type = e'.type) :
    IsEventRel (List.Forall₂ R) := by
  refine ⟨fun es ↦ List.forall₂_same.2 fun e _ ↦ refl e, fun h h' ↦ List.rel_append h h', fun h p ↦ ?_⟩
  induction h with
  | nil => exact .nil
  | cons hab _ ih =>
    rw [List.filter_cons, List.filter_cons, type hab]
    split
    · exact .cons hab ih
    · exact ih

namespace Oblivious

theorem pure (a : α) : Oblivious (X := X) (pure a) := fun _ _ ↦ .pure rfl

theorem fail (e : Err) : Oblivious (Program.fail e : M X α) := fun _ _ ↦ .fail e

theorem raise (p : Panic) : Oblivious (Program.raise p : M X α) := fun _ _ ↦ .raise p

theorem expire : Oblivious (Program.expire : M X α) := fun _ _ ↦ .expire _

theorem bind {m : M X α} {f : α → M X β} (hm : Oblivious m) (hf : ∀ a, Oblivious (f a)) :
    Oblivious (m >>= f) := fun E hE ↦ (hm E hE).bind_eq fun a ↦ hf a E hE

theorem read {f : World X → α}
    (h : ∀ w v : World X, w.store = v.store → w.meter = v.meter → w.txContracts = v.txContracts → w.vm = v.vm →
      f w = f v) : Oblivious (Program.read f : M X α) :=
  fun _ _ ↦ .read fun w v hw ↦ h w v hw.store hw.meter hw.txContracts hw.vm

theorem update {f : World X → World X} (h : ∀ E, IsEventRel E → ∀ w v, Alike E w v → Alike E (f w) (f v)) :
    Oblivious (Program.update f : M X Unit) :=
  fun E hE ↦ .update rfl (h E hE)

end Oblivious

namespace Local

variable {o : Option AccAddress}

theorem pure (a : α) : Local (X := X) o (pure a) :=
  ⟨Discipline.Obeys.pure (D := Keeps.discipline X o) a, .pure a⟩

theorem fail (e : Err) : Local o (Program.fail e : M X α) :=
  ⟨Discipline.Obeys.fail (D := Keeps.discipline X o) e, .fail e⟩

theorem raise (p : Panic) : Local o (Program.raise p : M X α) :=
  ⟨Discipline.Obeys.raise (D := Keeps.discipline X o) fun w ↦ .refl o w _, .raise p⟩

theorem expire : Local o (Program.expire : M X α) :=
  ⟨Discipline.Obeys.expire (D := Keeps.discipline X o), .expire⟩

theorem bind {m : M X α} {f : α → M X β} (hm : Local o m) (hf : ∀ a, Local o (f a)) : Local o (m >>= f) :=
  ⟨Discipline.Obeys.bind (D := Keeps.discipline X o) hm.keeps fun a ↦ (hf a).keeps,
    hm.oblivious.bind fun a ↦ (hf a).oblivious⟩

theorem read {f : World X → α}
    (h : ∀ w v : World X, w.store = v.store → w.meter = v.meter → w.txContracts = v.txContracts → w.vm = v.vm →
      f w = f v) : Local o (Program.read f : M X α) :=
  ⟨Discipline.Obeys.read (D := Keeps.discipline X o) f, .read h⟩

theorem lift (e : Except Err α) : Local (X := X) o (Program.lift e) := by
  cases e with
  | ok a => exact .pure a
  | error e => exact .fail e

theorem require (b : Bool) (e : Err) : Local (X := X) o (Program.require b e) := by
  cases b with
  | true => exact .pure ()
  | false => exact .fail e

theorem finish (r : Outcome Err Panic α) : Local (X := X) o (Program.finish r) := by
  cases r with
  | ok a => exact .pure a
  | error e => exact .fail e
  | panic p => exact .raise p
  | timeout => exact .expire

theorem weaken {m : M X α} (h : Local none m) (o : Option AccAddress) : Local o m :=
  ⟨fun w ↦ (h.keeps w).weaken o, h.oblivious⟩

end Local

end Cosmwasgo.Runs
