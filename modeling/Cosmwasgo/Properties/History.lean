import Cosmwasgo.Registry.Histories
import Cosmwasgo.Registry.Iteration
import Cosmwasgo.State.Devnet

namespace Cosmwasgo.Properties

open Cosmwasgo.Lib Cosmwasgo.Types Cosmwasgo.State Cosmwasgo.Keeper Cosmwasgo.Runs Cosmwasgo.Registry

variable {X α β : Type} {k : Keeper X}

/-- What was appended for an address, over a list of calls. -/
def appended (calls : List (AccAddress × List ContractCodeHistoryEntry)) (a : AccAddress) :
    List ContractCodeHistoryEntry := calls.flatMap fun c ↦ if c.1 = a then c.2 else []

/-- Calls of `appendToContractHistory` in any order, on a store without a history at first. In between everything
else may change. -/
inductive HistoryRun (k : Keeper X) : List (AccAddress × List ContractCodeHistoryEntry) → World X → Prop
  | start {w : World X} (h : ∀ key : Bytes, key.head? = some 5 → w.store.kv.get key = none) : HistoryRun k [] w
  | append {calls : List (AccAddress × List ContractCodeHistoryEntry)} {w w' : World X} {a : AccAddress}
      {es : List ContractCodeHistoryEntry} (h : HistoryRun k calls w)
      (hrun : appendToContractHistory k a es w = (.ok (), w')) : HistoryRun k (calls ++ [(a, es)]) w'
  | other {calls : List (AccAddress × List ContractCodeHistoryEntry)} {w w' : World X} (h : HistoryRun k calls w)
      (hkv : ∀ key : Bytes, key.head? = some 5 → w'.store.kv.get key = w.store.kv.get key) : HistoryRun k calls w'

section Appends

variable {w w' : World X}

/-- At every point of a run the store holds what was appended. -/
theorem HistoryRun.histories {calls : List (AccAddress × List ContractCodeHistoryEntry)} (h : HistoryRun k calls w) :
    Histories w.store.kv (appended calls) := by
  induction h with
  | start h => exact histories_nil h
  | @append calls w w' a es _ hrun ih =>
    have hstep := appendToContractHistory_histories ih hrun
    have heq : Function.update (appended calls) a (appended calls a ++ es) = appended (calls ++ [(a, es)]) := by
      funext a'
      by_cases ha : a' = a
      · subst ha
        simp [appended]
      · simp [appended, Function.update_of_ne ha, Ne.symm ha]
    rwa [heq] at hstep
  | other _ hkv ih => exact histories_congr ih hkv

end Appends

section Answers

variable {w : World X} {a : AccAddress} {H : AccAddress → List ContractCodeHistoryEntry}

theorem returns_setKV {key : Bytes} (hkey : key ≠ []) (v : Value) (w : World X) : Returns (setKV k key v) w () := by
  refine Returns.bind (x := ()) (.inl ?_) ?_ (Returns.bind (x := ()) (returns_consumeGas _ _ _) ?_ (.inl rfl))
  · rw [assertValidKey, if_neg hkey]
    rfl
  · exact ((Local.assertValidKey (o := none) key).keeps w).meter.infinite
  · exact ((Local.consumeGas (o := none) _ _).keeps _).meter.infinite

theorem returns_storeHistory {pos : UInt64} {es : List ContractCodeHistoryEntry} (h : pos.toNat + es.length < 2 ^ 64)
    (w : World X) : Returns (storeHistory k a pos es) w () := by
  induction es generalizing pos w with
  | nil => exact .inl rfl
  | cons e es ih =>
    rw [List.length_cons] at h
    have hinc : (incUint64 pos : M X UInt64) w = (.ok (pos + 1), w) := by
      rw [incUint64, if_pos (by omega)]
      rfl
    have hnext : (pos + 1).toNat = pos.toNat + 1 := by
      rw [UInt64.toNat_add]
      exact Nat.mod_eq_of_lt (by simpa using (by omega : pos.toNat + 1 < 2 ^ 64))
    refine Returns.bind (x := pos + 1) (.inl (by rw [hinc])) (by rw [hinc]) ?_
    refine Returns.bind (x := ()) (returns_setKV (by simp [getContractCodeHistoryElementKey,
      getContractCodeHistoryElementPrefix, contractCodeHistoryElementPrefix]) _ _) ?_ (ih (by omega) _)
    exact ((Writes.setKV k _ _).meter _).infinite

theorem returns_appendToContractHistory (hH : Histories w.store.kv H) {es : List ContractCodeHistoryEntry}
    (h : (H a).length + es.length < 2 ^ 64) : Returns (appendToContractHistory k a es) w () := by
  refine Returns.bind (returns_iterateKV k _ w) ((Writes.iterateKV k _).meter w).infinite ?_
  refine returns_storeHistory ?_ _
  rw [hH.lastPosition_scan, toNat_length hH]
  exact h

theorem returns_getContractHistory (hH : Histories w.store.kv H) (a : AccAddress) :
    Returns (getContractHistory k a) w (H a) := by
  refine (returns_iterateKV k _ w).bind_pure ?_
  rw [hH.entries_scan, mapM_unmarshalHistory]
  rfl

theorem returns_mustGetLastContractHistoryEntry (hH : Histories w.store.kv H) {e : ContractCodeHistoryEntry}
    (he : (H a).getLast? = some e) : Returns (mustGetLastContractHistoryEntry k a) w e := by
  refine (returns_iterateKV k _ w).bind_pure ?_
  simp only [hH.entries_scan, getLast?_numbered, he, Option.map_some]
  rfl

end Answers

/-- The history of an address is what was appended for it, in order, and its last entry what was appended last,
whatever the addresses are. Calls go through as long as the positions fit. -/
theorem contractHistory_exact {calls : List (AccAddress × List ContractCodeHistoryEntry)} {w : World X}
    (h : HistoryRun k calls w) (a : AccAddress) :
    Returns (getContractHistory k a) w (appended calls a) ∧
    (∀ e, (appended calls a).getLast? = some e → Returns (mustGetLastContractHistoryEntry k a) w e) ∧
    ∀ es, (appended calls a).length + es.length < 2 ^ 64 → Returns (appendToContractHistory k a es) w () :=
  ⟨returns_getContractHistory h.histories a, fun _ he ↦ returns_mustGetLastContractHistoryEntry h.histories he,
    fun _ hes ↦ returns_appendToContractHistory h.histories hes⟩

/-- A short address, and one that goes on like a key of its history. -/
def shortAddress : AccAddress := [7]
def longAddress : AccAddress := shortAddress ++ bigEndian 8 1

def historyEntry (codeID : UInt64) : ContractCodeHistoryEntry := ⟨.init, codeID, some ⟨1, 0⟩, []⟩

theorem HistoryRun.next {calls : List (AccAddress × List ContractCodeHistoryEntry)} {w : World X}
    (h : HistoryRun k calls w) (a : AccAddress) (es : List ContractCodeHistoryEntry)
    (hr : (appendToContractHistory k a es w).1 = .ok ()) :
    HistoryRun k (calls ++ [(a, es)]) (appendToContractHistory k a es w).2 := .append h (Program.apply_eq hr)

/-- Histories of the two addresses, written in turns. -/
def mixedHistories : World Unit :=
  let k := plainnet idleContract
  let w := (appendToContractHistory k longAddress [historyEntry 1] emptyWorld).2
  let w := (appendToContractHistory k shortAddress [historyEntry 2, historyEntry 3] w).2
  (appendToContractHistory k longAddress [historyEntry 4] w).2

theorem historyRun_mixedHistories : HistoryRun (plainnet idleContract)
    [(longAddress, [historyEntry 1]), (shortAddress, [historyEntry 2, historyEntry 3]), (longAddress, [historyEntry 4])]
    mixedHistories := by
  have h₀ : HistoryRun (plainnet idleContract) [] emptyWorld := .start fun _ _ ↦ rfl
  have h₁ := h₀.next longAddress [historyEntry 1] (by decide +kernel)
  have h₂ := h₁.next shortAddress [historyEntry 2, historyEntry 3] (by decide +kernel)
  exact h₂.next longAddress [historyEntry 4] (by decide +kernel)

theorem contractHistory_mixedHistories :
    Returns (getContractHistory (plainnet idleContract) shortAddress) mixedHistories [historyEntry 2, historyEntry 3] ∧
    Returns (mustGetLastContractHistoryEntry (plainnet idleContract) longAddress) mixedHistories (historyEntry 4) :=
  ⟨(contractHistory_exact historyRun_mixedHistories shortAddress).1,
    (contractHistory_exact historyRun_mixedHistories longAddress).2.1 _ (by decide)⟩

end Cosmwasgo.Properties
