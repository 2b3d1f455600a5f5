import Cosmwasgo.Lib.OrderedStore

namespace Cosmwasgo.Lib

variable {κ ν : Type} [LinearOrder κ]

/-- One page of an ascending list of entries, and the key to go on with. -/
structure Page (κ ν : Type) where
  visited : List (κ × ν)
  nextKey : Option κ

/-- The entries from a key on; all of them without a key. -/
def entriesFrom (es : List (κ × ν)) : Option κ → List (κ × ν)
  | none => es
  | some key => es.dropWhile fun e ↦ e.1 < key

/-- At most `limit` entries from the key on. -/
def paginate (es : List (κ × ν)) (key : Option κ) (limit : Nat) : Page κ ν where
  visited := (entriesFrom es key).take limit
  nextKey := ((entriesFrom es key).drop limit).head?.map Prod.fst

/-- An ascending list is cut at the key of any of its entries. -/
theorem entriesFrom_append {es es' : List (κ × ν)} {e : κ × ν} (h : (es ++ e :: es').Pairwise KeyLT) :
    entriesFrom (es ++ e :: es') (some e.1) = e :: es' := by
  have hlt : ∀ a ∈ es, decide (a.1 < e.1) = true := fun a ha ↦
    decide_eq_true ((List.pairwise_append.1 h).2.2 a ha e List.mem_cons_self)
  rw [entriesFrom, List.dropWhile_append_of_pos hlt, List.dropWhile_cons_of_neg (by simp)]

theorem entriesFrom_suffix (es : List (κ × ν)) (key : Option κ) : entriesFrom es key <:+ es := by
  cases key with
  | none => exact List.suffix_refl es
  | some key => exact List.dropWhile_suffix _

/-- Page after page, each with the key the last one gave and a limit of its own. -/
inductive Pages (es : List (κ × ν)) : Option κ → List (κ × ν) → Prop
  | last {key : Option κ} {limit : Nat} (h : (paginate es key limit).nextKey = none) :
      Pages es key (paginate es key limit).visited
  | more {key : Option κ} {limit : Nat} {next : κ} {rest : List (κ × ν)} (h : (paginate es key limit).nextKey = some next)
      (hrest : Pages es (some next) rest) : Pages es key ((paginate es key limit).visited ++ rest)

/-- The pages go on where the last one ended. -/
theorem entriesFrom_nextKey {es : List (κ × ν)} (hs : es.Pairwise KeyLT) {key : Option κ} {limit : Nat}
    {next : κ} (h : (paginate es key limit).nextKey = some next) :
    entriesFrom es key = (paginate es key limit).visited ++ entriesFrom es (some next) := by
  obtain ⟨e, he, rfl⟩ := Option.map_eq_some_iff.1 h
  obtain ⟨tail, htail⟩ := List.head?_eq_some_iff.1 he
  have hfrom : entriesFrom es key = (paginate es key limit).visited ++ e :: tail := by
    rw [← htail]
    exact (List.take_append_drop limit _).symm
  obtain ⟨before, hbefore⟩ := entriesFrom_suffix es key
  rw [hfrom, ← List.append_assoc] at hbefore
  rw [hfrom]
  congr 1
  conv_rhs => rw [← hbefore]
  rw [← hbefore] at hs
  exact (entriesFrom_append hs).symm

/-- A page that ends before the last entry has visited an entry. -/
theorem exists_visited {es : List (κ × ν)} (hs : es.Pairwise KeyLT) {key : Option κ} {limit : Nat} (hlimit : 0 < limit)
    {next : κ} (h : (paginate es key limit).nextKey = some next) : ∃ e ∈ (paginate es key limit).visited, e.1 < next := by
  obtain ⟨e, he, rfl⟩ := Option.map_eq_some_iff.1 h
  obtain ⟨tail, htail⟩ := List.head?_eq_some_iff.1 he
  have hlen : limit < (entriesFrom es key).length := by
    have := congrArg List.length htail
    rw [List.length_drop, List.length_cons] at this
    omega
  have hsorted := hs.sublist (entriesFrom_suffix es key).sublist
  rw [← List.take_append_drop limit (entriesFrom es key), htail] at hsorted
  obtain ⟨first, hfirst⟩ : ∃ first, first ∈ (entriesFrom es key).take limit :=
    List.exists_mem_of_length_pos (by rw [List.length_take]; omega)
  exact ⟨first, hfirst, (List.pairwise_append.1 hsorted).2.2 first hfirst e List.mem_cons_self⟩

/-- All pages together visit every entry once and in order. -/
theorem Pages.eq_entriesFrom {es : List (κ × ν)} (hs : es.Pairwise KeyLT) {key : Option κ}
    {all : List (κ × ν)} (h : Pages es key all) : all = entriesFrom es key := by
  induction h with
  | @last key limit h =>
    have hdrop : (entriesFrom es key).drop limit = [] := by simpa [paginate] using h
    have := List.take_append_drop limit (entriesFrom es key)
    rwa [hdrop, List.append_nil] at this
  | more h _ ih => rw [ih, ← entriesFrom_nextKey hs h]

/-! A client may take its time between two pages, and the entries change meanwhile. -/

/-- Page after page, each of what is there when it is asked for. -/
inductive PagesOver : Option κ → List (List (κ × ν)) → List (κ × ν) → Prop
  | last {es : List (κ × ν)} {key : Option κ} {limit : Nat} (h : (paginate es key limit).nextKey = none) :
      PagesOver key [es] (paginate es key limit).visited
  | more {es rest : List (κ × ν)} {key : Option κ} {limit : Nat} {next : κ} {snaps : List (List (κ × ν))}
      (h : (paginate es key limit).nextKey = some next) (hrest : PagesOver (some next) snaps rest) :
      PagesOver key (es :: snaps) ((paginate es key limit).visited ++ rest)

/-- The key is not before the one to start with. -/
def NotBefore (start : Option κ) (key : κ) : Prop := ∀ first, start = some first → first ≤ key

theorem mem_entriesFrom {es : List (κ × ν)} (hs : es.Pairwise KeyLT) {start : Option κ} {e : κ × ν} :
    e ∈ entriesFrom es start ↔ e ∈ es ∧ NotBefore start e.1 := by
  cases start with
  | none =>
    constructor
    · intro h
      exact ⟨h, fun _ h' ↦ by cases h'⟩
    · intro h
      exact h.1
  | some first =>
    have hnot : NotBefore (some first) e.1 ↔ first ≤ e.1 := by
      constructor
      · intro h
        exact h first rfl
      · intro h key hkey
        cases hkey
        exact h
    rw [hnot, entriesFrom]
    induction es with
    | nil => simp
    | cons a es ih =>
      have htail := (List.pairwise_cons.1 hs).2
      by_cases hlt : a.1 < first
      · rw [List.dropWhile_cons_of_pos (by simpa using hlt), List.mem_cons]
        refine (ih htail).trans ?_
        constructor
        · intro h
          exact ⟨.inr h.1, h.2⟩
        · rintro ⟨rfl | h, hle⟩
          · exact absurd hle (not_le.2 hlt)
          · exact ⟨h, hle⟩
      · rw [List.dropWhile_cons_of_neg (by simpa using hlt)]
        constructor
        · intro h
          refine ⟨h, ?_⟩
          rcases List.mem_cons.1 h with rfl | h
          · exact not_lt.1 hlt
          · exact (not_lt.1 hlt).trans ((List.pairwise_cons.1 hs).1 e h).le
        · intro h
          exact h.1

/-- What a page visits is there, and lies between its two keys. -/
theorem of_mem_visited {es : List (κ × ν)} (hs : es.Pairwise KeyLT) {start : Option κ} {limit : Nat} {e : κ × ν}
    (he : e ∈ (paginate es start limit).visited) :
    e ∈ es ∧ NotBefore start e.1 ∧ ∀ next, (paginate es start limit).nextKey = some next → e.1 < next := by
  obtain ⟨hmem, hstart⟩ := (mem_entriesFrom hs).1 (List.mem_of_mem_take he)
  refine ⟨hmem, hstart, fun next hnext ↦ ?_⟩
  obtain ⟨first, hfirst, rfl⟩ := Option.map_eq_some_iff.1 hnext
  have hsorted := hs.sublist (entriesFrom_suffix es start).sublist
  rw [← List.take_append_drop limit (entriesFrom es start)] at hsorted
  exact (List.pairwise_append.1 hsorted).2.2 e he first (List.mem_of_mem_head? hfirst)

/-- What a page leaves out lies before its first key or not before its next one. -/
theorem mem_visited {es : List (κ × ν)} (hs : es.Pairwise KeyLT) {start : Option κ} {limit : Nat} {e : κ × ν}
    (he : e ∈ es) (hstart : NotBefore start e.1)
    (hnext : ∀ next, (paginate es start limit).nextKey = some next → e.1 < next) :
    e ∈ (paginate es start limit).visited := by
  have hmem := (mem_entriesFrom hs).2 ⟨he, hstart⟩
  rw [← List.take_append_drop limit (entriesFrom es start)] at hmem
  rcases List.mem_append.1 hmem with hmem | hmem
  · exact hmem
  -- the first entry left out has the next key
  · have hsorted := (hs.sublist (entriesFrom_suffix es start).sublist).sublist (List.drop_sublist limit _)
    rcases hdrop : (entriesFrom es start).drop limit with _ | ⟨first, tail⟩
    · rw [hdrop] at hmem
      cases hmem
    · have hlt : e.1 < first.1 := hnext first.1 (by rw [paginate, hdrop]; rfl)
      rw [hdrop] at hmem hsorted
      rcases List.mem_cons.1 hmem with rfl | hmem
      · exact absurd hlt (lt_irrefl _)
      · exact absurd ((List.pairwise_cons.1 hsorted).1 e hmem) (lt_asymm hlt)

namespace PagesOver

variable {start : Option κ} {snaps : List (List (κ × ν))} {all : List (κ × ν)}

/-- Every entry was there when it was listed. -/
theorem exists_mem (h : PagesOver start snaps all) (hs : ∀ es ∈ snaps, es.Pairwise KeyLT) {e : κ × ν} (he : e ∈ all) :
    (∃ es ∈ snaps, e ∈ es) ∧ NotBefore start e.1 := by
  induction h with
  | @last es key limit hnone =>
    obtain ⟨hmem, hstart, -⟩ := of_mem_visited (hs es List.mem_cons_self) he
    exact ⟨⟨es, List.mem_cons_self, hmem⟩, hstart⟩
  | @more es rest key limit next snaps hnext _ ih =>
    have hes := hs es List.mem_cons_self
    rcases List.mem_append.1 he with he | he
    · obtain ⟨hmem, hstart, -⟩ := of_mem_visited hes he
      exact ⟨⟨es, List.mem_cons_self, hmem⟩, hstart⟩
    · obtain ⟨⟨es', hes', hmem⟩, hle⟩ := ih (fun es' h' ↦ hs es' (List.mem_cons_of_mem _ h')) he
      refine ⟨⟨es', List.mem_cons_of_mem _ hes', hmem⟩, ?_⟩
      obtain ⟨first, hfirst, rfl⟩ := Option.map_eq_some_iff.1 hnext
      have hin := List.mem_of_mem_drop (List.mem_of_mem_head? hfirst)
      have hstart := ((mem_entriesFrom hes).1 hin).2
      intro key' hkey'
      exact (hstart key' hkey').trans (hle _ rfl)

/-- An entry that is there all the time is listed. -/
theorem mem_of_forall_mem (h : PagesOver start snaps all) (hs : ∀ es ∈ snaps, es.Pairwise KeyLT) {e : κ × ν}
    (he : ∀ es ∈ snaps, e ∈ es) (hstart : NotBefore start e.1) : e ∈ all := by
  induction h with
  | @last es key limit hnone =>
    refine mem_visited (hs es List.mem_cons_self) (he es List.mem_cons_self) hstart fun next hnext ↦ ?_
    rw [hnone] at hnext
    cases hnext
  | @more es rest key limit next snaps hnext _ ih =>
    by_cases hlt : e.1 < next
    · refine List.mem_append_left _ (mem_visited (hs es List.mem_cons_self) (he es List.mem_cons_self) hstart ?_)
      intro next' hnext'
      cases hnext.symm.trans hnext'
      exact hlt
    · refine List.mem_append_right _ (ih (fun es' h' ↦ hs es' (List.mem_cons_of_mem _ h'))
        (fun es' h' ↦ he es' (List.mem_cons_of_mem _ h')) ?_)
      intro first hfirst
      cases hfirst
      exact not_lt.1 hlt

end PagesOver

end Cosmwasgo.Lib
