import Cosmwasgo.Keeper.Ante
import Cosmwasgo.Runs.Roots

namespace Cosmwasgo.Properties

open Cosmwasgo.Lib Cosmwasgo.Types Cosmwasgo.State Cosmwasgo.Keeper Cosmwasgo.Runs

variable {X α : Type} {k : Keeper X}

/-- No operation of the keeper writes the counter. -/
theorem Step.get_txCounterPrefix {permits : Ctx → Operation → AccAddress → AuthorizationPolicy → Prop} {c : Ctx}
    {d d' : Durable X} (h : Step k permits c d d') : d'.kv.get txCounterPrefix = d.kv.get txCounterPrefix := by
  cases h with
  | quiet _ h => exact h.records _ (not_isStateKey (by simp))
  | act _ h =>
    cases h with
    | cacheCode h => rfl
    | cachePins pinned => rfl
    | createCode hid hlt hcode =>
      rw [Durable.kv_withKV, get_set_of_head _ (by simp), get_set_of_head _ (by simp)]
    | nextInstance hid hlt => exact get_set_of_head _ (by simp)
    | register hp hnew hcode hauth horigin hvalid hcreator hhead hpos hport hnext =>
      exact get_registered_of_head hhead (by simp)
    | migrate info port hp hinfo hadmin hmodify hcode hauth hlast hpos hport hnext =>
      exact get_migrated_of_head (by simp)
    | modify hp hinfo hadmin hmodify hkind => exact get_set_of_head _ (by simp)
    | extend ext hp hinfo => exact get_set_of_head _ (by simp)
    | setAccess hinfo => exact get_set_of_head _ (by simp)
    | setParams params => exact get_set_of_head _ (by simp)
    | pin hinfo => exact get_set_of_head _ (by simp)
    | unpin codeID => exact get_delete_of_head (by simp)
    | storePacket hp => exact get_set_of_head _ (by simp)
    | acknowledge hpacket => exact get_delete_of_head (by simp)

theorem Steps.get_txCounterPrefix {permits : Ctx → Operation → AccAddress → AuthorizationPolicy → Prop} {c : Ctx}
    {d d' : Durable X} (h : Steps k permits c d d') : d'.kv.get txCounterPrefix = d.kv.get txCounterPrefix := by
  induction h with
  | refl => rfl
  | tail _ h ih => exact (Step.get_txCounterPrefix h).trans ih

/-- A transaction in the ante handler: whether its writes were kept, and the counter the context is passed on with. -/
structure CountedTx where
  height : Int64
  simulate : Bool
  kept : Bool
  seen : Option Nat
  deriving DecidableEq, Repr

/-- A transaction of a block that is counted. -/
def CountedTx.counts (height : Int64) (t : CountedTx) : Bool := !t.simulate && t.kept && t.height == height

/-- Transactions and simulations in the ante handler, and operations of the keeper in between. -/
inductive TxRun (k : Keeper X) : List CountedTx → Durable X → Prop
  | start {d : Durable X} (h : d.kv.get txCounterPrefix = none) : TxRun k [] d
  | ante {txs : List CountedTx} {w w' : World X} {c c' : Ctx} {simulate : Bool} (h : TxRun k txs (durable w))
      (hc : c.txCounter = none) (hr : anteHandle k c simulate pure w = (.ok c', w')) (kept : Bool) :
      TxRun k (txs ++ [⟨.ofInt c.blockHeight, simulate, kept, c'.txCounter⟩]) (if kept then durable w' else durable w)
  | op {txs : List CountedTx} {n : Nat} {c : Ctx} {α : Type} {m : M X α} {w : World X} (h : TxRun k txs (durable w))
      (hop : RootOp k n c α m) : TxRun k txs (committed m w)
  | outside {txs : List CountedTx} {d : Durable X} (h : TxRun k txs d) (x : X) : TxRun k txs (d.withExt x)

/-- The blocks of a run: their heights rise, and each has fewer than 2^32 transactions. -/
structure Blocks (txs : List CountedTx) : Prop where
  rising : (txs.filter (!·.simulate)).Pairwise (·.height ≤ ·.height)
  small : ∀ height, txs.countP (fun t ↦ !t.simulate && t.height == height) < 2 ^ 32

theorem Blocks.of_append {txs : List CountedTx} {t : CountedTx} (h : Blocks (txs ++ [t])) : Blocks txs where
  rising := by
    have := h.rising
    rw [List.filter_append] at this
    exact (List.pairwise_append.1 this).1
  small height := by
    have := h.small height
    rw [List.countP_append] at this
    omega

/-- The next transaction is not of an earlier block. -/
theorem Blocks.le_last {txs : List CountedTx} {t q : CountedTx} (h : Blocks (txs ++ [t])) (ht : t.simulate = false)
    (hq : q ∈ txs) (hs : q.simulate = false) : q.height ≤ t.height := by
  have hrising := h.rising
  rw [List.filter_append] at hrising
  refine (List.pairwise_append.1 hrising).2.2 q ?_ t ?_
  · exact List.mem_filter.2 ⟨hq, by rw [hs]; rfl⟩
  · exact List.mem_filter.2 ⟨List.mem_singleton_self t, by rw [ht]; rfl⟩

/-- The counted transactions. -/
def keptTxs (txs : List CountedTx) : List CountedTx := txs.filter fun t ↦ !t.simulate && t.kept

/-- Nothing counted is of a later block than the last one counted. -/
theorem Blocks.le_getLast {txs : List CountedTx} {l q : CountedTx} (h : Blocks txs) (hl : (keptTxs txs).getLast? = some l)
    (hq : q ∈ keptTxs txs) : q.height ≤ l.height := by
  have hkept : keptTxs txs = (txs.filter (!·.simulate)).filter (·.kept) := by
    rw [keptTxs, List.filter_filter]
    simp only [Bool.and_comm]
  have hrising : (keptTxs txs).Pairwise (·.height ≤ ·.height) := hkept ▸ h.rising.filter _
  obtain ⟨ys, hys⟩ := List.getLast?_eq_some_iff.1 hl
  rw [hys] at hrising hq
  rcases List.mem_append.1 hq with hq | hq
  · exact (List.pairwise_append.1 hrising).2.2 q hq l (List.mem_singleton_self l)
  · rw [List.mem_singleton.1 hq]
    exact Int64.le_refl _

/-- What the store holds after the transactions: the height of the last one counted and the count at it. -/
def storedCounter (txs : List CountedTx) : Option Value :=
  (keptTxs txs).getLast?.map fun t ↦
    .bytes (encodeHeightCounter t.height (UInt32.ofNat (txs.countP (·.counts t.height))))

/-- The count reads the counter for its height and leaves the next one. -/
theorem writes_anteHandle (k : Keeper X) (c : Ctx) : Writes (anteHandle k c false pure) fun d c' d' ↦
    ∃ n, loadTxCounter (.ofInt c.blockHeight) (d.kv.get txCounterPrefix) = .ok n ∧
      c' = { c with txCounter := some n.toNat } ∧
      d' = d.withKV (d.kv.set txCounterPrefix (.bytes (encodeHeightCounter (.ofInt c.blockHeight) (n + 1)))) := by
  refine ((Writes.getKV k txCounterPrefix).bind fun bz ↦
    (Writes.liftPanic (loadTxCounter (.ofInt c.blockHeight) bz)).bind fun n ↦
      (Writes.setKV k txCounterPrefix _).bind fun _ ↦ Writes.pure _).mono ?_
  rintro d c' d' ⟨bz, _, ⟨rfl, rfl⟩, n, _, ⟨hn, rfl⟩, _, _, rfl, rfl, rfl⟩
  exact ⟨n, hn, rfl, rfl⟩

theorem counts_of_simulate {t : CountedTx} (h : t.simulate = true) (height : Int64) : t.counts height = false := by
  unfold CountedTx.counts
  rw [h]
  rfl

theorem storedCounter_append_of_not_kept {txs : List CountedTx} {t : CountedTx} (h : (!t.simulate && t.kept) = false) :
    storedCounter (txs ++ [t]) = storedCounter txs := by
  have hkept : keptTxs (txs ++ [t]) = keptTxs txs := by
    unfold keptTxs
    rw [List.filter_append, List.filter_singleton, h]
    exact List.append_nil _
  have hcount : ∀ height, (txs ++ [t]).countP (·.counts height) = txs.countP (·.counts height) := fun height ↦ by
    rw [List.countP_append, List.countP_singleton, CountedTx.counts, h]
    rfl
  unfold storedCounter
  simp only [hkept, hcount]

theorem storedCounter_append_of_kept {txs : List CountedTx} {t : CountedTx} (h : (!t.simulate && t.kept) = true) :
    storedCounter (txs ++ [t]) =
      some (.bytes (encodeHeightCounter t.height (UInt32.ofNat (txs.countP (·.counts t.height) + 1)))) := by
  have hkept : keptTxs (txs ++ [t]) = keptTxs txs ++ [t] := by
    unfold keptTxs
    rw [List.filter_append, List.filter_singleton, h]
    rfl
  have hcount : (txs ++ [t]).countP (·.counts t.height) = txs.countP (·.counts t.height) + 1 := by
    rw [List.countP_append, List.countP_singleton, CountedTx.counts, h, beq_self_eq_true]
    rfl
  unfold storedCounter
  rw [hkept, List.getLast?_concat, Option.map_some, hcount]

/-- The counter a transaction loads is the count at its height. -/
theorem loadTxCounter_storedCounter {txs : List CountedTx} {t : CountedTx} (hb : Blocks (txs ++ [t]))
    (ht : t.simulate = false) :
    loadTxCounter t.height (storedCounter txs) = .ok (UInt32.ofNat (txs.countP (·.counts t.height))) := by
  have hmem : ∀ {q}, q ∈ txs → q.counts t.height = true → q ∈ keptTxs txs ∧ q.height = t.height := by
    intro q hq hc
    simp only [CountedTx.counts, Bool.and_eq_true, beq_iff_eq] at hc
    refine ⟨List.mem_filter.2 ⟨hq, ?_⟩, hc.2⟩
    rw [Bool.and_eq_true]
    exact hc.1
  unfold storedCounter
  cases hlast : (keptTxs txs).getLast? with
  | none =>
    have hzero : txs.countP (·.counts t.height) = 0 := by
      refine List.countP_eq_zero.2 fun q hq hc ↦ ?_
      have := (hmem hq hc).1
      rw [List.getLast?_eq_none_iff.1 hlast] at this
      cases this
    rw [hzero]
    rfl
  | some l =>
    rw [Option.map_some, loadTxCounter, decodeHeightCounter_encodeHeightCounter]
    change Except.ok (if t.height = l.height then _ else _) = _
    by_cases hl : t.height = l.height
    · rw [if_pos hl, hl]
    · -- The last counted transaction is of an earlier block, so none of this block has been counted.
      have hlmem : l ∈ keptTxs txs := List.mem_of_getLast? hlast
      have hls : l.simulate = false := by
        have := (List.mem_filter.1 hlmem).2
        rw [Bool.and_eq_true, Bool.not_eq_true'] at this
        exact this.1
      have hzero : txs.countP (·.counts t.height) = 0 := by
        refine List.countP_eq_zero.2 fun q hq hc ↦ hl ?_
        obtain ⟨hqk, hqh⟩ := hmem hq hc
        have hle : q.height ≤ l.height := hb.of_append.le_getLast hlast hqk
        exact Int64.le_antisymm (hqh ▸ hle) (hb.le_last ht (List.mem_filter.1 hlmem).1 hls)
      rw [if_neg hl, hzero]
      rfl

/-- The counter a transaction is to see, from those before it. -/
def expected (before : List CountedTx) (t : CountedTx) : Option Nat :=
  if t.simulate then none else some (before.countP (·.counts t.height))

/-- Everybody has seen what was to be seen. -/
def AllSeen (txs : List CountedTx) : Prop := ∀ before t after, txs = before ++ t :: after → t.seen = expected before t

theorem AllSeen.append {txs : List CountedTx} {t : CountedTx} (h : AllSeen txs) (ht : t.seen = expected txs t) :
    AllSeen (txs ++ [t]) := by
  intro before q after heq
  rcases List.eq_nil_or_concat' after with rfl | ⟨after, b, rfl⟩
  · obtain ⟨rfl, hq⟩ := List.append_inj' heq rfl
    rw [← (List.cons.inj hq).1]
    exact ht
  · rw [← List.cons_append, ← List.append_assoc] at heq
    exact h before q after (List.append_inj' heq rfl).1

theorem ofNat_succ (n : Nat) : UInt32.ofNat n + 1 = UInt32.ofNat (n + 1) := (UInt32.ofNat_add n 1).symm

theorem TxRun.stored {txs : List CountedTx} {d : Durable X} (h : TxRun k txs d) (hb : Blocks txs) :
    d.kv.get txCounterPrefix = storedCounter txs ∧ AllSeen txs := by
  induction h with
  | start h => exact ⟨h, fun before t after ht ↦ by simp at ht⟩
  | @ante txs w w' c c' simulate h hc hr kept ih =>
    obtain ⟨hstored, hseen⟩ := ih hb.of_append
    cases simulate with
    | true =>
      obtain ⟨hcc, rfl⟩ := Prod.mk.inj hr
      obtain rfl := Outcome.ok.inj hcc
      refine ⟨?_, hseen.append hc⟩
      rw [storedCounter_append_of_not_kept rfl, ite_self]
      exact hstored
    | false =>
      obtain ⟨n, hn, hc', hd⟩ := (writes_anteHandle k c).post w c' w' hr
      have hload := loadTxCounter_storedCounter hb rfl
      rw [← hstored] at hload
      have hcount := Except.ok.inj (hn.symm.trans hload)
      refine ⟨?_, hseen.append ?_⟩
      · cases kept with
        | true =>
          rw [storedCounter_append_of_kept rfl, if_pos rfl, hd, Durable.kv_withKV, OrderedStore.get_set_self, hcount,
            ofNat_succ]
        | false =>
          rw [storedCounter_append_of_not_kept rfl]
          exact hstored
      · have hlt : txs.countP (·.counts (.ofInt c.blockHeight)) < 2 ^ 32 := by
          refine Nat.lt_of_le_of_lt (List.countP_mono_left fun t _ ht ↦ ?_) (hb.of_append.small (.ofInt c.blockHeight))
          simp only [CountedTx.counts, Bool.and_eq_true] at ht ⊢
          exact ⟨ht.1.1, ht.2⟩
        change c'.txCounter = some (txs.countP (·.counts (.ofInt c.blockHeight)))
        rw [hc', hcount]
        exact congrArg some (UInt32.toNat_ofNat_of_lt' hlt)
  | op h hop ih =>
    obtain ⟨hstored, hseen⟩ := ih hb
    refine ⟨?_, hseen⟩
    rw [← hstored]
    exact Steps.get_txCounterPrefix (hop.steps _)
  | outside h x ih => exact ih hb

theorem AllSeen.of_append {txs : List CountedTx} {t : CountedTx} (h : AllSeen (txs ++ [t])) :
    AllSeen txs ∧ t.seen = expected txs t := by
  refine ⟨fun before q after heq ↦ h before q (after ++ [t]) ?_, h txs t [] rfl⟩
  rw [heq, List.append_assoc]
  rfl

/-- The counted transactions of a block are numbered in order. -/
theorem AllSeen.numbered {txs : List CountedTx} (h : AllSeen txs) (height : Int64) :
    (txs.filter (·.counts height)).map (·.seen) = (List.range (txs.countP (·.counts height))).map some := by
  induction txs using List.reverseRecOn with
  | nil => rfl
  | append_singleton txs t ih =>
    obtain ⟨hall, ht⟩ := h.of_append
    rw [List.filter_append, List.map_append, ih hall, List.countP_append, List.countP_singleton, List.filter_singleton]
    cases hc : t.counts height with
    | true =>
      have hsim : t.simulate = false := by
        by_contra hs
        rw [Bool.not_eq_false] at hs
        rw [counts_of_simulate hs] at hc
        cases hc
      have hheight : t.height = height := by
        simp only [CountedTx.counts, Bool.and_eq_true, beq_iff_eq] at hc
        exact hc.2
      rw [if_pos rfl, cond_true, List.range_succ, List.map_append, List.map_singleton, List.map_singleton, ht, expected,
        hsim, hheight]
      rfl
    | false => exact List.append_nil _

/-- A transaction sees how many of its block were counted before it, and a simulation sees nothing; so the counted
transactions of a block see 0, 1, 2 and so on. -/
theorem txCounter_exact {txs : List CountedTx} {d : Durable X} (h : TxRun k txs d) (hb : Blocks txs) :
    AllSeen txs ∧ ∀ height, (txs.filter (·.counts height)).map (·.seen) =
      (List.range (txs.countP (·.counts height))).map some :=
  ⟨(h.stored hb).2, (h.stored hb).2.numbered⟩

section Devnet

/-- A transaction after the given ones, in the block of that height. -/
def nextTx (height : Int) (simulate kept : Bool) (d : Durable Unit) : Durable Unit :=
  let r := anteHandle (plainnet idleContract) { genesisCtx with blockHeight := height } simulate pure (worldOf d)
  if kept then durable r.2 else d

theorem TxRun.next {txs : List CountedTx} {d : Durable Unit} (h : TxRun (plainnet idleContract) txs d) (height : Int)
    (simulate kept : Bool) (seen : Option Nat)
    (hr : (anteHandle (plainnet idleContract) { genesisCtx with blockHeight := height } simulate pure (worldOf d)).1 =
      .ok { genesisCtx with blockHeight := height, txCounter := seen }) :
    TxRun (plainnet idleContract) (txs ++ [⟨.ofInt height, simulate, kept, seen⟩]) (nextTx height simulate kept d) :=
  .ante (w := worldOf d) h rfl (Program.apply_eq hr) kept

/-- Two transactions of a block, a rolled back one and a simulation between them, and one of the next block. -/
def fiveTxs : List CountedTx :=
  [⟨7, false, true, some 0⟩, ⟨7, false, false, some 1⟩, ⟨3, true, true, none⟩, ⟨7, false, true, some 1⟩,
    ⟨8, false, true, some 0⟩]

theorem txRun_fiveTxs : ∃ d, TxRun (plainnet idleContract) fiveTxs d := by
  have hrun : TxRun (plainnet idleContract) [] (durable openWorld) := .start (by decide +kernel)
  have hrun := hrun.next 7 false true (some 0) (by decide +kernel)
  have hrun := hrun.next 7 false false (some 1) (by decide +kernel)
  have hrun := hrun.next 3 true true none (by decide +kernel)
  have hrun := hrun.next 7 false true (some 1) (by decide +kernel)
  have hrun := hrun.next 8 false true (some 0) (by decide +kernel)
  exact ⟨_, hrun⟩

theorem txCounter_fiveTxs : AllSeen fiveTxs := by
  obtain ⟨d, hrun⟩ := txRun_fiveTxs
  refine (txCounter_exact hrun ⟨by decide, fun height ↦ ?_⟩).1
  exact Nat.lt_of_le_of_lt List.countP_le_length (by decide)

end Devnet

end Cosmwasgo.Properties
