import Cosmwasgo.Keeper.Listings
import Cosmwasgo.Properties.Codes
import Cosmwasgo.Properties.HistoryPages
import Cosmwasgo.Properties.Registry
import Cosmwasgo.Runs.Unmetered

namespace Cosmwasgo.Properties

open Cosmwasgo.Lib Cosmwasgo.Types Cosmwasgo.State Cosmwasgo.Keeper Cosmwasgo.Runs Cosmwasgo.Registry

variable {X β : Type} {k : Keeper X}

/-- A client goes through a listing page by page while the chain goes on: between two pages there may be any operations
of the keeper. The states are those the pages were answered in, from the first to the last one. -/
inductive Browses (k : Keeper X) (query : Option PageRequest → M X (Listing β)) :
    Option PageRequest → Durable X → List (Durable X) → Durable X → List β → Prop
  | last {req : Option PageRequest} {items : List β} {w w' : World X} (h : query req w = (.ok ⟨items, none⟩, w')) :
      Browses k query req (durable w) [durable w] (durable w) items
  | more {req : Option PageRequest} {items rest : List β} {key : Bytes} {next : PageRequest} {w w' : World X}
      {d d' : Durable X} {ds : List (Durable X)} (h : query req w = (.ok ⟨items, some key⟩, w'))
      (hkey : next.key = key) (hrun : KeeperRun k (durable w) d) (hrest : Browses k query (some next) d ds d' rest) :
      Browses k query req (durable w) (durable w :: ds) d' (items ++ rest)

theorem KeeperRun.trans {d d₁ d₂ : Durable X} (h : KeeperRun k d d₁) (h' : KeeperRun k d₁ d₂) : KeeperRun k d d₂ := by
  induction h' with
  | start => exact h
  | op _ hop ih => exact .op ih hop
  | outside _ x ih => exact .outside ih x

theorem KeeperRun.delivered {d d' : Durable X} (h : KeeperRun k d d') (ms : List Msg) :
    KeeperRun k d (delivered k d' ms) := by
  induction ms generalizing d' with
  | nil => exact h
  | cons m ms ih => exact ih (.op (w := worldOf d') h (.message m))

namespace Browses

variable {query : Option PageRequest → M X (Listing β)} {req : Option PageRequest} {d d' : Durable X}
  {ds : List (Durable X)} {listed : List β}

end Browses

section Pages

variable {onResult : Bytes × Value → M X β} {head : Bytes}

/-- What the callback appends for an entry. -/
def Renders (onResult : Bytes × Value → M X β) (e : Bytes × Value) (item : β) : Prop := onResult e = pure item

theorem Renders.unique {e : Bytes × Value} {item item' : β} (h : Renders onResult e item) (h' : Renders onResult e item')
    (w : World X) : item = item' := by
  have heq : (pure item : M X β) w = (pure item' : M X β) w := by rw [← h, ← h']
  cases heq
  rfl

/-- The callback takes whatever the state holds below the prefix. -/
def Readable (onResult : Bytes × Value → M X β) (head : Bytes) (d : Durable X) : Prop :=
  ∀ e ∈ d.kv.scan head, ∃ item, Renders onResult e item

/-- The pages of a query are those of the entries below a prefix. -/
def ShowsPages (query : Option PageRequest → M X (Listing β)) (onResult : Bytes × Value → M X β) (head : Bytes)
    (d : Durable X) : Prop :=
  ∀ {req rsp} {w w' : World X}, durable w = d → query req w = (.ok rsp, w') →
    ∃ limit, 0 < limit ∧ rsp.nextKey = (paginate (d.kv.scan head) (startKey req) limit).nextKey ∧
      List.Forall₂ (Renders onResult) (paginate (d.kv.scan head) (startKey req) limit).visited rsp.items

theorem collect_of_readable {es : List (Bytes × Value)} (h : ∀ e ∈ es, ∃ item, Renders onResult e item) :
    ∃ items, collect onResult es = pure items ∧ List.Forall₂ (Renders onResult) es items := by
  induction es with
  | nil => exact ⟨[], rfl, .nil⟩
  | cons e es ih =>
    obtain ⟨item, hitem⟩ := h e List.mem_cons_self
    obtain ⟨items, hitems, hall⟩ := ih fun e' he' ↦ h e' (List.mem_cons_of_mem _ he')
    refine ⟨item :: items, ?_, .cons hitem hall⟩
    have hfirst : onResult e = pure item := hitem
    rw [collect, hfirst, hitems]
    rfl

theorem Readable.visited {d : Durable X} (h : Readable onResult head d) (params : PageRequest) :
    ∃ items, collect onResult (filteredPaginate (d.kv.scan head) params).visited = pure items ∧
      List.Forall₂ (Renders onResult) (filteredPaginate (d.kv.scan head) params).visited items :=
  collect_of_readable fun e he ↦ h e ((entriesFrom_suffix _ _).subset (List.mem_of_mem_take he))

/-- The key a page ends with is never the empty one, which would mean to start again. -/
theorem startKey_of_nextKey {es : List (Bytes × Value)} (hs : es.Pairwise KeyLT) {start : Option Bytes} {limit : Nat}
    (hlimit : 0 < limit) {next : PageRequest} (hnext : (paginate es start limit).nextKey = some next.key) :
    startKey (some next) = some next.key := by
  obtain ⟨e, -, hlt⟩ := exists_visited hs hlimit hnext
  have hne : next.key ≠ [] := by
    intro h
    rw [h] at hlt
    exact List.not_lt_nil _ hlt
  rw [startKey, if_neg hne]

variable {query : Option PageRequest → M X (Listing β)} {req : Option PageRequest} {d d' : Durable X}
  {ds : List (Durable X)} {listed : List β}

theorem Browses.pages (h : Browses k query req d ds d' listed)
    (hshow : ∀ e ∈ ds, ShowsPages query onResult head e) :
    ∃ all, PagesOver (startKey req) (ds.map fun e ↦ e.kv.scan head) all ∧
      List.Forall₂ (Renders onResult) all listed := by
  induction h with
  | last h =>
    obtain ⟨limit, -, hnext, hall⟩ := hshow _ List.mem_cons_self rfl h
    exact ⟨_, .last hnext.symm, hall⟩
  | more h hkey _ _ ih =>
    obtain ⟨limit, hlimit, hnext, hall⟩ := hshow _ List.mem_cons_self rfl h
    obtain ⟨all, hpages, hrest⟩ := ih fun e he ↦ hshow e (List.mem_cons_of_mem _ he)
    subst hkey
    rw [startKey_of_nextKey (OrderedStore.scan_sorted _ _) hlimit hnext.symm] at hpages
    exact ⟨_, .more hnext.symm hpages, List.rel_append hall hrest⟩

end Pages

/-! The entries below a prefix are mostly of one form. Then a listing tells which of them the client has seen. -/

section Entries

variable {ι : Type} {entry : ι → Bytes × Value} {head : Bytes} {ds : List (Durable X)} {l : List ι}

/-- All entries below the prefix have the form. -/
def AllOfForm (entry : ι → Bytes × Value) (head : Bytes) (d : Durable X) : Prop :=
  ∀ e ∈ d.kv.scan head, ∃ i, e = entry i

theorem AllOfForm.readable {onResult : Bytes × Value → M X β} {item : ι → β} {d : Durable X}
    (h : AllOfForm entry head d) (hrender : ∀ i, Renders onResult (entry i) (item i)) : Readable onResult head d := by
  intro e he
  obtain ⟨i, rfl⟩ := h e he
  exact ⟨item i, hrender i⟩

/-- The client has gone through the entries in these states and has come to those of the list. -/
def Visited (entry : ι → Bytes × Value) (head : Bytes) (ds : List (Durable X)) (l : List ι) : Prop :=
  PagesOver none (ds.map fun d ↦ d.kv.scan head) (l.map entry)

theorem scans_sorted (ds : List (Durable X)) (head : Bytes) : ∀ es ∈ ds.map fun d ↦ d.kv.scan head, es.Pairwise KeyLT := by
  intro es hes
  obtain ⟨d, -, rfl⟩ := List.mem_map.1 hes
  exact OrderedStore.scan_sorted _ _

namespace Visited

theorem mem (h : Visited entry head ds l) (hinj : Function.Injective entry) {i : ι}
    (hi : ∀ d ∈ ds, entry i ∈ d.kv.scan head) : i ∈ l := by
  have hmem : entry i ∈ l.map entry := by
    refine PagesOver.mem_of_forall_mem h (scans_sorted ds head) (fun es hes ↦ ?_) fun _ hnone ↦ by cases hnone
    obtain ⟨d, hd, rfl⟩ := List.mem_map.1 hes
    exact hi d hd
  exact (List.mem_map_of_injective hinj).1 hmem

end Visited

theorem exists_map_entry {all : List (Bytes × Value)} (h : ∀ e ∈ all, ∃ i, e = entry i) :
    ∃ l : List ι, all = l.map entry := by
  induction all with
  | nil => exact ⟨[], rfl⟩
  | cons e all ih =>
    obtain ⟨i, rfl⟩ := h e List.mem_cons_self
    obtain ⟨l, rfl⟩ := ih fun e' he' ↦ h e' (List.mem_cons_of_mem _ he')
    exact ⟨i :: l, rfl⟩

theorem Browses.visited {query : Option PageRequest → M X (Listing β)} {onResult : Bytes × Value → M X β} {item : ι → β}
    {req : Option PageRequest} {d d' : Durable X} {listed : List β} (h : Browses k query req d ds d' listed)
    (hreq : startKey req = none) (hshow : ∀ e ∈ ds, ShowsPages query onResult head e)
    (hform : ∀ e ∈ ds, AllOfForm entry head e) (hrender : ∀ i, Renders onResult (entry i) (item i)) :
    ∃ l : List ι, listed = l.map item ∧ Visited entry head ds l := by
  obtain ⟨all, hpages, hall⟩ := h.pages hshow
  rw [hreq] at hpages
  have hforms : ∀ e ∈ all, ∃ i, e = entry i := by
    intro e he
    obtain ⟨⟨es, hes, hmem⟩, -⟩ := hpages.exists_mem (scans_sorted ds head) he
    obtain ⟨s, hs, rfl⟩ := List.mem_map.1 hes
    exact hform s hs e hmem
  obtain ⟨l, rfl⟩ := exists_map_entry hforms
  refine ⟨l, ?_, hpages⟩
  rw [List.forall₂_map_left_iff] at hall
  have hitems : List.Forall₂ (fun i b ↦ item i = b) l listed :=
    hall.imp fun i b hb ↦ (hrender i).unique hb (worldOf d)
  have hmap : List.Forall₂ Eq (l.map item) listed := List.forall₂_map_left_iff.2 hitems
  rw [List.forall₂_eq_eq_eq] at hmap
  exact hmap.symm

end Entries

end Cosmwasgo.Properties
