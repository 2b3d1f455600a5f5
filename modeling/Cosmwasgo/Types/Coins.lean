import Cosmwasgo.Lib.Program
import Cosmwasgo.Types.Data
import Mathlib.Data.String.Basic

namespace Cosmwasgo.Types

open Cosmwasgo.Lib

/-- `sdk.Coins`, denomination by denomination. -/
def Coins.amountOf (coins : Coins) (denom : String) : Int :=
  ((coins.find? (·.denom = denom)).map (·.amount)).getD 0

def Coins.isAllGTE (coins coinsB : Coins) : Bool :=
  if coinsB = [] then true
  else if coins = [] then false
  else coinsB.all fun c ↦ c.amount ≤ Coins.amountOf coins c.denom

def Coins.isAllLTE (coins coinsB : Coins) : Bool := Coins.isAllGTE coinsB coins

/-- `Sub` panics when an amount would become negative, and drops the amounts that become zero. -/
def Coins.sub (coins coinsB : Coins) : Except Panic Coins :=
  if Coins.isAllLTE coinsB coins then
    .ok ((coins.map fun c ↦ ⟨c.denom, c.amount - Coins.amountOf coinsB c.denom⟩).filter (·.amount ≠ 0))
  else .error (.other "negative coin amount")

/-- `sanitizeCoins`: sorted, without zero amounts. -/
def Coins.sanitize (coins : Coins) : Coins := (coins.filter (·.amount ≠ 0)).mergeSort fun c c' ↦ c.denom ≤ c'.denom

def Coins.isSorted : Coins → Bool
  | c :: c' :: coins => c.denom ≤ c'.denom && isSorted (c' :: coins)
  | _ => true

def Coins.sort (coins : Coins) : Coins := coins.mergeSort fun c c' ↦ c.denom ≤ c'.denom

/-- The integers of the SDK have 256 bits and a sign. -/
def FitsInt (n : Int) : Prop := n.natAbs < 2 ^ 256

instance (n : Int) : Decidable (FitsInt n) := inferInstanceAs (Decidable (_ < _))

def addInt (i i2 : Int) : Except Panic Int :=
  if FitsInt (i + i2) then .ok (i + i2) else .error (.other "integer overflow")

def Coin.add (coin coinB : Coin) : Except Panic Coin :=
  if coin.denom = coinB.denom then (addInt coin.amount coinB.amount).map fun amount ↦ ⟨coin.denom, amount⟩
  else .error (.other ("invalid coin denominations; " ++ coin.denom ++ ", " ++ coinB.denom))

/-- The coins of one denomination as one coin. -/
def Coins.combo (coins : Coins) (denom : String) : Except Panic Coin :=
  (coins.filter (·.denom = denom)).foldlM Coin.add ⟨denom, 0⟩

/-- `safeAdd`. Go walks a map of denominations, in no fixed order, and sorts the result. -/
def Coins.add (coins coinsB : Coins) : Except Panic Coins := do
  if !coins.isSorted then throw (.other "Coins (self) must be sorted")
  if !coinsB.isSorted then throw (.other "Wrong argument: coins must be sorted")
  let combos ← ((coins ++ coinsB).map (·.denom)).dedup.mapM (Coins.combo (coins ++ coinsB))
  return Coins.sort (combos.filter (·.amount ≠ 0))

/-- What there is of a denomination in all. -/
def Coins.total (coins : Coins) (denom : String) : Int := ((coins.filter (·.denom = denom)).map (·.amount)).sum

/-- What `Validate` makes sure of. -/
structure Coins.Valid (coins : Coins) : Prop where
  positive : ∀ c ∈ coins, 0 < c.amount
  distinct : (coins.map (·.denom)).Nodup

/-- Coins as the SDK keeps them: in the order of their denominations, none of them twice, and no zero. -/
structure Coins.Canonical (coins : Coins) : Prop where
  positive : ∀ c ∈ coins, 0 < c.amount
  ascending : coins.Pairwise fun c c' ↦ c.denom < c'.denom

namespace Coins

variable {a b coins : Coins} {denom : String}

theorem amountOf_of_mem (h : (coins.map (·.denom)).Nodup) {c : Coin} (hc : c ∈ coins) :
    amountOf coins c.denom = c.amount := by
  rcases hfind : coins.find? (·.denom = c.denom) with _ | c'
  · exact absurd (decide_eq_true rfl) (List.find?_eq_none.1 hfind c hc)
  · have hsame : c' = c := by
      refine List.inj_on_of_nodup_map h (List.mem_of_find?_eq_some hfind) hc ?_
      simpa using List.find?_some hfind
    rw [amountOf, hfind, hsame]
    rfl

theorem amountOf_of_not_mem (h : ∀ c ∈ coins, c.denom ≠ denom) : amountOf coins denom = 0 := by
  have hfind : coins.find? (·.denom = denom) = none := by
    rw [List.find?_eq_none]
    intro c hc
    simpa using h c hc
  rw [amountOf, hfind]
  rfl

/-- An amount is zero, or that of a coin. -/
theorem amountOf_cases (h : (coins.map (·.denom)).Nodup) (denom : String) :
    (∃ c ∈ coins, c.denom = denom ∧ amountOf coins denom = c.amount) ∨
      (∀ c ∈ coins, c.denom ≠ denom) ∧ amountOf coins denom = 0 := by
  by_cases hc : ∃ c ∈ coins, c.denom = denom
  · obtain ⟨c, hc, rfl⟩ := hc
    exact .inl ⟨c, hc, rfl, amountOf_of_mem h hc⟩
  · have hno : ∀ c ∈ coins, c.denom ≠ denom := fun c hc' he ↦ hc ⟨c, hc', he⟩
    exact .inr ⟨hno, amountOf_of_not_mem hno⟩

theorem Valid.amountOf_nonneg (h : Valid coins) (denom : String) : 0 ≤ amountOf coins denom := by
  rcases amountOf_cases h.distinct denom with ⟨c, hc, -, ha⟩ | ⟨-, ha⟩
  · rw [ha]
    exact (h.positive c hc).le
  · rw [ha]

theorem amountOf_le (hb : Valid b) (ha : Valid a) (h : isAllLTE b a = true) (denom : String) :
    amountOf b denom ≤ amountOf a denom := by
  rcases amountOf_cases hb.distinct denom with ⟨c, hc, rfl, hamount⟩ | ⟨-, hamount⟩
  · rw [hamount]
    unfold isAllLTE isAllGTE at h
    split at h
    · next hnil =>
      rw [hnil] at hc
      cases hc
    · split at h
      · cases h
      · exact of_decide_eq_true (List.all_eq_true.1 h c hc)
  · rw [hamount]
    exact ha.amountOf_nonneg denom

theorem sub_eq_ok {r : Coins} (h : sub a b = .ok r) : isAllLTE b a = true ∧
    r = (a.map fun c ↦ ⟨c.denom, c.amount - amountOf b c.denom⟩).filter (·.amount ≠ 0) := by
  unfold sub at h
  split at h
  · cases h
    exact ⟨‹_›, rfl⟩
  · cases h

theorem sub_distinct (ha : Valid a) {r : Coins} (h : sub a b = .ok r) : (r.map (·.denom)).Nodup := by
  obtain ⟨-, rfl⟩ := sub_eq_ok h
  have hmap : ((a.map fun c ↦ (⟨c.denom, c.amount - amountOf b c.denom⟩ : Coin)).map (·.denom)).Nodup := by
    rw [List.map_map]
    exact ha.distinct
  exact hmap.sublist (List.filter_sublist.map _)

/-- What is subtracted is subtracted from every amount. -/
theorem amountOf_sub (ha : Valid a) (hb : Valid b) {r : Coins} (h : sub a b = .ok r) (denom : String) :
    amountOf r denom = amountOf a denom - amountOf b denom := by
  have hdistinct := sub_distinct ha h
  obtain ⟨hle, rfl⟩ := sub_eq_ok h
  rcases amountOf_cases ha.distinct denom with ⟨c, hc, rfl, hamount⟩ | ⟨hno, hamount⟩
  · by_cases hzero : c.amount - amountOf b c.denom = 0
    · rw [hamount, hzero]
      refine amountOf_of_not_mem fun c' hc' hdenom ↦ ?_
      obtain ⟨hmem, hne⟩ := List.mem_filter.1 hc'
      obtain ⟨c₀, hc₀, rfl⟩ := List.mem_map.1 hmem
      obtain rfl := List.inj_on_of_nodup_map ha.distinct hc₀ hc hdenom
      simp [hzero] at hne
    · rw [hamount]
      refine amountOf_of_mem hdistinct (c := ⟨c.denom, c.amount - amountOf b c.denom⟩) ?_
      exact List.mem_filter.2 ⟨List.mem_map.2 ⟨c, hc, rfl⟩, by simpa using hzero⟩
  · have hle := amountOf_le hb ha hle denom
    have hnonneg := hb.amountOf_nonneg denom
    rw [hamount] at hle ⊢
    rw [le_antisymm hle hnonneg, sub_zero]
    refine amountOf_of_not_mem fun c' hc' hdenom ↦ ?_
    obtain ⟨c₀, hc₀, rfl⟩ := List.mem_map.1 (List.mem_filter.1 hc').1
    exact hno c₀ hc₀ hdenom

theorem amountOf_sanitize (h : (coins.map (·.denom)).Nodup) (denom : String) :
    amountOf (sanitize coins) denom = amountOf coins denom := by
  have hperm : (sanitize coins).Perm (coins.filter (·.amount ≠ 0)) := List.mergeSort_perm _ _
  have hmem : ∀ c, c ∈ sanitize coins ↔ c ∈ coins ∧ c.amount ≠ 0 := by
    intro c
    rw [hperm.mem_iff, List.mem_filter]
    simp
  have hdistinct : ((sanitize coins).map (·.denom)).Nodup :=
    (hperm.map _).nodup_iff.2 (h.sublist (List.filter_sublist.map _))
  rcases amountOf_cases h denom with ⟨c, hc, rfl, hamount⟩ | ⟨hno, hamount⟩
  · rw [hamount]
    by_cases hzero : c.amount = 0
    · rw [hzero]
      refine amountOf_of_not_mem fun c' hc' hdenom ↦ ?_
      obtain ⟨hmem', hne⟩ := (hmem c').1 hc'
      obtain rfl := List.inj_on_of_nodup_map h hmem' hc hdenom
      exact hne hzero
    · exact amountOf_of_mem hdistinct ((hmem c).2 ⟨hc, hzero⟩)
  · rw [hamount]
    exact amountOf_of_not_mem fun c' hc' ↦ hno c' ((hmem c').1 hc').1

section Add

theorem total_nil (denom : String) : total [] denom = 0 := rfl

theorem total_append (a b : Coins) (denom : String) : total (a ++ b) denom = total a denom + total b denom := by
  simp only [total, List.filter_append, List.map_append, List.sum_append]

theorem total_singleton (c : Coin) (denom : String) : total [c] denom = if c.denom = denom then c.amount else 0 := by
  by_cases h : c.denom = denom <;> simp [total, h]

theorem total_of_perm (h : a.Perm b) (denom : String) : total a denom = total b denom :=
  ((h.filter _).map _).sum_eq

theorem total_nonneg (h : ∀ c ∈ coins, 0 ≤ c.amount) (denom : String) : 0 ≤ total coins denom := by
  refine List.sum_nonneg fun n hn ↦ ?_
  obtain ⟨c, hc, rfl⟩ := List.mem_map.1 hn
  exact h c (List.mem_of_mem_filter hc)

theorem total_of_not_mem (h : ∀ c ∈ coins, c.denom ≠ denom) : total coins denom = 0 := by
  rw [total, List.filter_eq_nil_iff.2 fun c hc ↦ by simpa using h c hc]
  rfl

/-- Without duplicates there is one coin to look at. -/
theorem total_eq_amountOf (h : (coins.map (·.denom)).Nodup) (denom : String) : total coins denom = amountOf coins denom := by
  induction coins with
  | nil => rfl
  | cons c coins ih =>
    obtain ⟨hc, hrest⟩ := List.nodup_cons.1 h
    rw [show c :: coins = [c] ++ coins from rfl, total_append, total_singleton]
    by_cases hdenom : c.denom = denom
    · subst hdenom
      rw [if_pos rfl, total_of_not_mem fun c' hc' he ↦ hc (List.mem_map.2 ⟨c', hc', he⟩), add_zero]
      have hhead : amountOf (c :: coins) c.denom = c.amount := amountOf_of_mem h List.mem_cons_self
      exact hhead.symm
    · rw [if_neg hdenom, zero_add, ih hrest, amountOf, amountOf, List.singleton_append,
        List.find?_cons_of_neg (by simpa using hdenom)]

theorem Canonical.nodup (h : Canonical coins) : (coins.map (·.denom)).Nodup :=
  List.pairwise_map.2 (h.ascending.imp ne_of_lt)

theorem isSorted_of_pairwise (h : coins.Pairwise fun c c' ↦ c.denom ≤ c'.denom) : isSorted coins = true := by
  fun_induction isSorted coins with
  | case1 c c' coins ih =>
    obtain ⟨hhead, hrest⟩ := List.pairwise_cons.1 h
    rw [ih hrest, Bool.and_true]
    exact decide_eq_true (hhead c' List.mem_cons_self)
  | case2 coins hshort => rfl

theorem Canonical.isSorted (h : Canonical coins) : isSorted coins = true :=
  isSorted_of_pairwise (h.ascending.imp le_of_lt)

theorem fitsInt_of_le {m n : Int} (hm : 0 ≤ m) (hle : m ≤ n) (hn : FitsInt n) : FitsInt m := by
  unfold FitsInt at hn ⊢
  omega

/-- Sums of amounts that are not negative: they fit when the last one does. -/
theorem foldlM_add {cs : Coins} (hcs : ∀ c ∈ cs, c.denom = denom ∧ 0 ≤ c.amount) {s : Int} (hs : 0 ≤ s)
    (hfits : FitsInt s) {c : Coin} : cs.foldlM Coin.add ⟨denom, s⟩ = .ok c ↔
      FitsInt (s + (cs.map (·.amount)).sum) ∧ ⟨denom, s + (cs.map (·.amount)).sum⟩ = c := by
  induction cs generalizing s with
  | nil =>
    rw [List.map_nil, List.sum_nil, add_zero]
    exact ⟨fun h ↦ ⟨hfits, Except.ok.inj h⟩, fun h ↦ congrArg Except.ok h.2⟩
  | cons c₁ cs ih =>
    obtain ⟨rfl, hnonneg⟩ := hcs c₁ List.mem_cons_self
    have hrest := fun c hc ↦ hcs c (List.mem_cons_of_mem _ hc)
    rw [List.foldlM_cons, Coin.add, if_pos rfl, addInt, List.map_cons, List.sum_cons, ← add_assoc]
    dsimp only
    split
    · next hstep => exact ih hrest (by omega) hstep
    · next hstep =>
      have hsum : 0 ≤ (cs.map (·.amount)).sum := by
        refine List.sum_nonneg fun n hn ↦ ?_
        obtain ⟨c', hc', rfl⟩ := List.mem_map.1 hn
        exact (hrest c' hc').2
      exact ⟨nofun, fun h ↦ absurd (fitsInt_of_le (by omega) (by omega) h.1) hstep⟩

theorem combo_eq_ok (h : ∀ c ∈ coins, 0 ≤ c.amount) {c : Coin} :
    combo coins denom = .ok c ↔ FitsInt (total coins denom) ∧ ⟨denom, total coins denom⟩ = c := by
  have hcs : ∀ c ∈ coins.filter (·.denom = denom), c.denom = denom ∧ 0 ≤ c.amount := by
    intro c hc
    obtain ⟨hmem, hdenom⟩ := List.mem_filter.1 hc
    exact ⟨of_decide_eq_true hdenom, h c hmem⟩
  rw [combo, foldlM_add hcs le_rfl (by decide), zero_add, total]

/-- The coins of all totals that are not zero. -/
def merged (coins : Coins) : Coins :=
  sort (((coins.map (·.denom)).dedup.map fun denom ↦ ⟨denom, total coins denom⟩).filter (·.amount ≠ 0))

theorem sort_perm (coins : Coins) : (sort coins).Perm coins := List.mergeSort_perm _ _

theorem pairwise_sort (coins : Coins) : (sort coins).Pairwise fun c c' ↦ c.denom ≤ c'.denom := by
  have h : (sort coins).Pairwise fun c c' ↦ decide (c.denom ≤ c'.denom) = true := by
    refine List.pairwise_mergeSort ?_ ?_ coins
    · intro c₁ c₂ c₃ h₁ h₂
      exact decide_eq_true (le_trans (of_decide_eq_true h₁) (of_decide_eq_true h₂))
    · intro c₁ c₂
      simpa using le_total c₁.denom c₂.denom
  exact h.imp of_decide_eq_true

/-- `Add` of amounts that are not negative fails exactly on overflow. -/
theorem add_eq_ok (ha : isSorted a = true) (hb : isSorted b = true) (hnonneg : ∀ c ∈ a ++ b, 0 ≤ c.amount) {r : Coins} :
    add a b = .ok r ↔ (∀ denom, FitsInt (total (a ++ b) denom)) ∧ merged (a ++ b) = r := by
  have hcombos : ∀ cs, ((a ++ b).map (·.denom)).dedup.mapM (combo (a ++ b)) = .ok cs ↔
      (∀ denom ∈ ((a ++ b).map (·.denom)).dedup, FitsInt (total (a ++ b) denom)) ∧ _ = cs := fun cs ↦
    mapM_checked fun denom c ↦ combo_eq_ok hnonneg
  have hall : (∀ denom ∈ ((a ++ b).map (·.denom)).dedup, FitsInt (total (a ++ b) denom)) ↔
      ∀ denom, FitsInt (total (a ++ b) denom) := by
    refine ⟨fun h denom ↦ ?_, fun h denom _ ↦ h denom⟩
    by_cases hmem : denom ∈ (a ++ b).map (·.denom)
    · exact h denom (List.mem_dedup.2 hmem)
    · rw [total_of_not_mem fun c hc he ↦ hmem (List.mem_map.2 ⟨c, hc, he⟩)]
      decide
  unfold add
  simp only [ha, hb, Bool.not_true, Bool.false_eq_true, if_false, except_bind_eq_ok, hcombos, hall]
  constructor
  · rintro ⟨_, ⟨hfits, rfl⟩, hr⟩
    exact ⟨hfits, Except.ok.inj hr⟩
  · rintro ⟨hfits, rfl⟩
    exact ⟨_, ⟨hfits, rfl⟩, rfl⟩

theorem mem_merged {c : Coin} : c ∈ merged coins ↔ c.amount = total coins c.denom ∧ c.amount ≠ 0 := by
  rw [merged, (sort_perm _).mem_iff, List.mem_filter, List.mem_map]
  constructor
  · rintro ⟨⟨denom, -, rfl⟩, hne⟩
    exact ⟨rfl, by simpa using hne⟩
  · rintro ⟨hamount, hne⟩
    refine ⟨⟨c.denom, ?_, by rw [← hamount]⟩, by simpa using hne⟩
    by_contra hmem
    refine hne (hamount.trans (total_of_not_mem fun c' hc' he ↦ hmem ?_))
    exact List.mem_dedup.2 (List.mem_map.2 ⟨c', hc', he⟩)

theorem nodup_merged (coins : Coins) : ((merged coins).map (·.denom)).Nodup := by
  refine ((sort_perm _).map _).nodup_iff.2 (List.Nodup.sublist (List.filter_sublist.map _) ?_)
  rw [List.map_map]
  exact (List.map_id _).symm ▸ List.nodup_dedup _

theorem canonical_merged (hnonneg : ∀ c ∈ coins, 0 ≤ c.amount) : Canonical (merged coins) where
  positive c hc := by
    obtain ⟨hamount, hne⟩ := mem_merged.1 hc
    have := total_nonneg hnonneg c.denom
    omega
  ascending := (pairwise_sort _).imp₂ (fun _ _ hle hne ↦ lt_of_le_of_ne hle hne) (List.pairwise_map.1 (nodup_merged coins))

theorem total_merged (coins : Coins) (denom : String) : total (merged coins) denom = total coins denom := by
  rw [total_eq_amountOf (nodup_merged coins)]
  rcases amountOf_cases (nodup_merged coins) denom with ⟨c, hc, rfl, hamount⟩ | ⟨hno, hamount⟩
  · rw [hamount, (mem_merged.1 hc).1]
  · rw [hamount]
    by_contra hne
    exact hno ⟨denom, total coins denom⟩ (mem_merged.2 ⟨rfl, Ne.symm hne⟩) rfl

end Add

end Coins

end Cosmwasgo.Types
