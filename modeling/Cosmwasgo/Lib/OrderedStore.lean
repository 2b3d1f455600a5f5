import Cosmwasgo.Lib.Bytes
import Mathlib.Data.List.Perm.Basic
import Mathlib.Data.List.Pairwise
import Mathlib.Data.List.Nodup

namespace Cosmwasgo.Lib

variable {κ ν : Type} [LinearOrder κ]

/-- Key order on the entries of a store. -/
abbrev KeyLT (a b : κ × ν) : Prop := a.1 < b.1

/-- A finite map whose entries are listed in strictly ascending key order. -/
@[ext] structure OrderedStore (κ ν : Type) [LinearOrder κ] where
  entries : List (κ × ν)
  sorted : entries.Pairwise KeyLT

namespace OrderedStore

def lookupEntry (k : κ) : List (κ × ν) → Option ν
  | [] => none
  | (a, v) :: r => if a = k then some v else lookupEntry k r

def insertEntry (k : κ) (v : ν) : List (κ × ν) → List (κ × ν)
  | [] => [(k, v)]
  | (a, w) :: r =>
    if k < a then (k, v) :: (a, w) :: r
    else if k = a then (k, v) :: r
    else (a, w) :: insertEntry k v r

theorem mem_insertEntry {k : κ} {v : ν} {l : List (κ × ν)} {e : κ × ν} (h : e ∈ insertEntry k v l) :
    e = (k, v) ∨ e ∈ l := by
  induction l with
  | nil => simpa [insertEntry] using h
  | cons a r ih =>
    rw [insertEntry] at h
    split_ifs at h with h1 h2
    · simpa using h
    · rcases List.mem_cons.1 h with h | h
      · exact .inl h
      · exact .inr (List.mem_cons_of_mem _ h)
    · rcases List.mem_cons.1 h with h | h
      · exact .inr (h ▸ List.mem_cons_self)
      · exact (ih h).imp_right (List.mem_cons_of_mem _)

theorem insertEntry_sorted {k : κ} {v : ν} {l : List (κ × ν)} (hl : l.Pairwise KeyLT) :
    (insertEntry k v l).Pairwise KeyLT := by
  induction l with
  | nil => simp [insertEntry]
  | cons a r ih =>
    have hr := List.pairwise_cons.1 hl
    rw [insertEntry]
    split_ifs with h1 h2
    · refine List.pairwise_cons.2 ⟨?_, hl⟩
      intro e he
      rcases List.mem_cons.1 he with rfl | he
      · exact h1
      · exact h1.trans (hr.1 e he)
    · exact List.pairwise_cons.2 ⟨fun e he ↦ h2 ▸ hr.1 e he, hr.2⟩
    · refine List.pairwise_cons.2 ⟨?_, ih hr.2⟩
      intro e he
      rcases mem_insertEntry he with rfl | he
      · exact lt_of_le_of_ne (not_lt.1 h1) (Ne.symm h2)
      · exact hr.1 e he

def empty : OrderedStore κ ν := ⟨[], .nil⟩

instance : Inhabited (OrderedStore κ ν) := ⟨empty⟩

instance [DecidableEq ν] : DecidableEq (OrderedStore κ ν) := fun s t ↦
  decidable_of_iff (s.entries = t.entries) OrderedStore.ext_iff.symm

def get (s : OrderedStore κ ν) (k : κ) : Option ν := lookupEntry k s.entries

def set (s : OrderedStore κ ν) (k : κ) (v : ν) : OrderedStore κ ν :=
  ⟨insertEntry k v s.entries, insertEntry_sorted s.sorted⟩

def delete (s : OrderedStore κ ν) (k : κ) : OrderedStore κ ν :=
  ⟨s.entries.filter (fun e ↦ e.1 ≠ k), s.sorted.filter _⟩

theorem lookupEntry_eq_some {k : κ} {v : ν} {l : List (κ × ν)} (hl : l.Pairwise KeyLT) :
    lookupEntry k l = some v ↔ (k, v) ∈ l := by
  induction l with
  | nil => simp [lookupEntry]
  | cons a r ih =>
    have hr := List.pairwise_cons.1 hl
    rw [lookupEntry, List.mem_cons]
    split_ifs with h
    · subst h
      have hno : (a.1, v) ∉ r := fun hm ↦ lt_irrefl a.1 (hr.1 (a.1, v) hm)
      simp [hno, Prod.ext_iff, eq_comm]
    · rw [ih hr.2]
      simp [Prod.ext_iff, Ne.symm h]

theorem get_eq_some {s : OrderedStore κ ν} {k : κ} {v : ν} : s.get k = some v ↔ (k, v) ∈ s.entries :=
  lookupEntry_eq_some s.sorted

@[simp] theorem get_empty (k : κ) : (empty : OrderedStore κ ν).get k = none := rfl

theorem lookupEntry_insertEntry (k j : κ) (v : ν) (l : List (κ × ν)) :
    lookupEntry j (insertEntry k v l) = if j = k then some v else lookupEntry j l := by
  induction l with
  | nil => simp [insertEntry, lookupEntry, eq_comm]
  | cons a r ih =>
    rw [insertEntry]
    by_cases hj : j = k
    · subst hj
      rw [if_pos rfl] at ih ⊢
      split_ifs with h1 h2
      · simp [lookupEntry]
      · simp [lookupEntry]
      · simp [lookupEntry, ih, Ne.symm h2]
    · rw [if_neg hj] at ih ⊢
      split_ifs with h1 h2
      · simp [lookupEntry, Ne.symm hj]
      · simp [lookupEntry, ← h2, Ne.symm hj]
      · simp [lookupEntry, ih]

theorem get_set (s : OrderedStore κ ν) (k j : κ) (v : ν) :
    (s.set k v).get j = if j = k then some v else s.get j :=
  lookupEntry_insertEntry k j v s.entries

@[simp] theorem get_set_self (s : OrderedStore κ ν) (k : κ) (v : ν) : (s.set k v).get k = some v := by
  simp [get_set]

theorem get_set_of_ne (s : OrderedStore κ ν) {k j : κ} (v : ν) (h : j ≠ k) : (s.set k v).get j = s.get j := by
  simp [get_set, h]

theorem get_set_congr {s t : OrderedStore κ ν} {j : κ} (h : s.get j = t.get j) (k : κ) (v : ν) :
    (s.set k v).get j = (t.set k v).get j := by
  rw [get_set, get_set, h]

theorem get_delete (s : OrderedStore κ ν) (k j : κ) :
    (s.delete k).get j = if j = k then none else s.get j := by
  refine Option.ext fun v ↦ ?_
  rw [get_eq_some, delete, List.mem_filter]
  split_ifs with h
  · simp [h]
  · simp [h, get_eq_some]

theorem get_delete_of_ne (s : OrderedStore κ ν) {k j : κ} (h : j ≠ k) : (s.delete k).get j = s.get j := by
  simp [get_delete, h]

theorem nodup_keys_of_sorted {l : List (κ × ν)} (hl : l.Pairwise KeyLT) : (l.map Prod.fst).Nodup := by
  rw [List.Nodup, List.pairwise_map]
  exact hl.imp fun h ↦ ne_of_lt h

theorem nodup_of_sorted {l : List (κ × ν)} (hl : l.Pairwise KeyLT) : l.Nodup := (nodup_keys_of_sorted hl).of_map _

/-- Lists in key order are determined by their members. -/
theorem eq_of_sorted_of_mem {l l' : List (κ × ν)} (hl : l.Pairwise KeyLT) (hl' : l'.Pairwise KeyLT)
    (h : ∀ e, e ∈ l ↔ e ∈ l') : l = l' := by
  have hp : l.Perm l' := (List.perm_ext_iff_of_nodup (nodup_of_sorted hl) (nodup_of_sorted hl')).2 h
  exact hp.eq_of_pairwise (fun a b _ _ hab hba ↦ absurd (hab.trans hba) (lt_irrefl _)) hl hl'

theorem getLast?_of_max {l : List (κ × ν)} (hl : l.Pairwise KeyLT) {e : κ × ν} (he : e ∈ l)
    (hmax : ∀ e' ∈ l, ¬ KeyLT e e') : l.getLast? = some e := by
  rcases List.eq_nil_or_concat l with rfl | ⟨init, last, rfl⟩
  · cases he
  · rw [List.concat_eq_append] at hl he hmax ⊢
    rw [List.getLast?_concat]
    rcases List.mem_append.1 he with hinit | hlast
    · exact absurd ((List.pairwise_append.1 hl).2.2 e hinit last (by simp)) (hmax last (by simp))
    · rw [List.mem_singleton.1 hlast]

theorem getLast?_max {l : List (κ × ν)} (hl : l.Pairwise KeyLT) {e e' : κ × ν} (he : l.getLast? = some e)
    (he' : e' ∈ l) : e' = e ∨ KeyLT e' e := by
  obtain ⟨init, rfl⟩ := List.getLast?_eq_some_iff.1 he
  rcases List.mem_append.1 he' with hinit | hlast
  · exact .inr ((List.pairwise_append.1 hl).2.2 e' hinit e (by simp))
  · exact .inl (List.mem_singleton.1 hlast)

/-- Stores with the same readings are equal. -/
theorem ext_get {s t : OrderedStore κ ν} (h : ∀ k, s.get k = t.get k) : s = t := by
  refine OrderedStore.ext (eq_of_sorted_of_mem s.sorted t.sorted fun e ↦ ?_)
  rw [← get_eq_some (k := e.1) (v := e.2), ← get_eq_some (k := e.1) (v := e.2), h]

/-- A store with the given entries on top of those of another. -/
def Adds (rows : κ → ν → Prop) (s s' : OrderedStore κ ν) : Prop :=
  ∀ k v, s'.get k = some v ↔ s.get k = some v ∨ rows k v

namespace Adds

variable {s s₁ s₂ : OrderedStore κ ν} {rows rows' : κ → ν → Prop}

theorem refl (s : OrderedStore κ ν) : Adds (fun _ _ ↦ False) s s := fun _ _ ↦ (or_iff_left not_false).symm

theorem congr (h : Adds rows s s₁) (hr : ∀ k v, rows k v ↔ rows' k v) : Adds rows' s s₁ :=
  fun k v ↦ (h k v).trans (or_congr_right (hr k v))

theorem trans (h : Adds rows s s₁) (h' : Adds rows' s₁ s₂) : Adds (fun k v ↦ rows k v ∨ rows' k v) s s₂ :=
  fun k v ↦ by rw [h' k v, h k v, or_assoc]

theorem set (s : OrderedStore κ ν) {k : κ} (hk : s.get k = none) (v : ν) :
    Adds (fun j u ↦ j = k ∧ u = v) s (s.set k v) := by
  intro j u
  rw [get_set]
  by_cases hj : j = k
  · subst hj
    simp [hk, eq_comm]
  · simp [hj]

theorem get_of_some (h : Adds rows s s₁) {k : κ} {v : ν} (hk : s.get k = some v) : s₁.get k = some v :=
  (h k v).2 (.inl hk)

theorem get_of_no_row (h : Adds rows s s₁) {k : κ} (hk : ∀ v, ¬ rows k v) : s₁.get k = s.get k :=
  Option.ext fun v ↦ (h k v).trans (or_iff_left (hk v))

end Adds

section Scan

variable {s : OrderedStore Bytes ν} {p x : Bytes} {v : ν}

/-- The entries under a key head, ascending, with the head cut off. -/
def scan (s : OrderedStore Bytes ν) (p : Bytes) : List (Bytes × ν) :=
  s.entries.filterMap fun e ↦ (stripHead p e.1).map (·, e.2)

theorem mem_scan : (x, v) ∈ s.scan p ↔ s.get (p ++ x) = some v := by
  rw [get_eq_some, scan, List.mem_filterMap]
  constructor
  · rintro ⟨⟨k, w⟩, hm, he⟩
    obtain ⟨y, hy, he⟩ := Option.map_eq_some_iff.1 he
    cases he
    obtain rfl := stripHead_eq_some.1 hy
    exact hm
  · intro hm
    exact ⟨_, hm, by simp [stripHead_eq_some.2 rfl]⟩

theorem scan_sorted (s : OrderedStore Bytes ν) (p : Bytes) : (s.scan p).Pairwise KeyLT := by
  refine List.Pairwise.filterMap _ ?_ s.sorted
  intro a b hab c hc d hd
  obtain ⟨y, hy, rfl⟩ := Option.map_eq_some_iff.1 hc
  obtain ⟨z, hz, rfl⟩ := Option.map_eq_some_iff.1 hd
  have h : a.1 < b.1 := hab
  rw [stripHead_eq_some.1 hy, stripHead_eq_some.1 hz] at h
  exact (append_lt_append_iff p).1 h

/-- A scan is the one ascending list that holds exactly the entries under the head. -/
theorem scan_eq {l : List (Bytes × ν)} (hl : l.Pairwise KeyLT)
    (h : ∀ x v, (x, v) ∈ l ↔ s.get (p ++ x) = some v) : s.scan p = l :=
  eq_of_sorted_of_mem (scan_sorted s p) hl fun e ↦ by rw [← Prod.mk.eta (p := e), mem_scan, h]

theorem scan_congr {t : OrderedStore Bytes ν} (h : ∀ x, s.get (p ++ x) = t.get (p ++ x)) : s.scan p = t.scan p :=
  scan_eq (scan_sorted t p) fun x v ↦ by rw [mem_scan, h]

end Scan

end OrderedStore

end Cosmwasgo.Lib
