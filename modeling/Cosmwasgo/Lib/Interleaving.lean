import Mathlib.Data.List.Basic
import Mathlib.Logic.Function.Basic
import Mathlib.Tactic.Common

namespace Cosmwasgo.Lib

variable {ι S α β : Type}

/-- A thread that shares a state with others. It has returned, or its next atomic step updates the state and goes on with
what was read there. -/
inductive Thread (S α : Type)
  | ret (a : α)
  | step (update : S → S) (next : S → Thread S α)

namespace Thread

/-- A single access to the state. -/
def atomic (f : S → α × S) : Thread S α := .step (fun s ↦ (f s).2) fun s ↦ .ret (f s).1

protected def bind : Thread S α → (α → Thread S β) → Thread S β
  | .ret a, f => f a
  | .step update next, f => .step update fun s ↦ (next s).bind f

instance : Monad (Thread S) where
  pure := .ret
  bind := Thread.bind

/-- The thread with the state to itself, up to its end. -/
def run : Thread S α → S → α × S
  | .ret a, s => (a, s)
  | .step update next, s => (next s).run (update s)

/-- What is left of the thread after its next step, and the state then. A thread that has returned makes no more steps. -/
def advance : Thread S α → S → Thread S α × S
  | .ret a, s => (.ret a, s)
  | .step update next, s => (next s, update s)

/-- The thread returns within so many steps, whatever happens to the state in between. -/
inductive Within : Nat → Thread S α → Prop
  | ret (n : Nat) (a : α) : Within n (.ret a)
  | step {n : Nat} {update : S → S} {next : S → Thread S α} (h : ∀ s, Within n (next s)) : Within (n + 1) (.step update next)

theorem Within.returned {t : Thread S α} (h : t.Within 0) : ∃ a, t = .ret a := by
  cases h with
  | ret _ a => exact ⟨a, rfl⟩

theorem Within.advance {n : Nat} {t : Thread S α} (h : t.Within n) (s : S) : (t.advance s).1.Within (n - 1) := by
  cases h with
  | ret _ a => exact .ret _ a
  | step h => exact h s

end Thread

/-- Threads and the state they share. -/
structure Pool (ι S α : Type) where
  threads : ι → Thread S α
  state : S

namespace Pool

variable [DecidableEq ι] (p : Pool ι S α) {i j : ι}

/-- One step of one thread. -/
def turn (i : ι) : Pool ι S α where
  threads := Function.update p.threads i ((p.threads i).advance p.state).1
  state := ((p.threads i).advance p.state).2

/-- The turns of a schedule, each thread in it moving on by one step when it is named. -/
def interleave (schedule : List ι) : Pool ι S α := schedule.foldl turn p

@[simp] theorem interleave_nil : p.interleave [] = p := rfl
@[simp] theorem interleave_cons (i : ι) (schedule : List ι) :
    p.interleave (i :: schedule) = (p.turn i).interleave schedule := rfl

@[simp] theorem threads_turn_self : (p.turn i).threads i = ((p.threads i).advance p.state).1 := Function.update_self ..

theorem threads_turn_of_ne (h : i ≠ j) : (p.turn j).threads i = p.threads i := Function.update_of_ne h ..

@[simp] theorem state_turn : (p.turn i).state = ((p.threads i).advance p.state).2 := rfl

variable {p}

/-- What each thread keeps by its own steps, and what no step of another thread takes from it, holds in every
interleaving. -/
theorem invariant {I : ι → Thread S α → S → Prop}
    (own : ∀ {i update next s}, I i (.step update next) s → I i (next s) (update s))
    (others : ∀ {i j t update next s}, i ≠ j → I i t s → I j (.step update next) s → I i t (update s))
    (h : ∀ i, I i (p.threads i) p.state) (schedule : List ι) (i : ι) :
    I i ((p.interleave schedule).threads i) (p.interleave schedule).state := by
  induction schedule generalizing p with
  | nil => exact h i
  | cons j schedule ih =>
    refine ih fun i ↦ ?_
    have hi := h i
    have hj := h j
    by_cases hij : i = j
    · subst hij
      rw [threads_turn_self, state_turn]
      cases ht : p.threads i with
      | ret a => rwa [ht] at hi
      | step update next =>
        rw [ht] at hi
        exact own hi
    · rw [p.threads_turn_of_ne hij, state_turn]
      cases ht : p.threads j with
      | ret a => exact hi
      | step update next =>
        rw [ht] at hj
        exact others hij hi hj

/-- A thread that gets enough turns returns. -/
theorem returned_of_within {n : Nat} {schedule : List ι} (h : (p.threads i).Within n) (hn : n ≤ schedule.count i) :
    ∃ a, (p.interleave schedule).threads i = .ret a := by
  induction schedule generalizing p n with
  | nil =>
    obtain rfl : n = 0 := Nat.le_zero.1 hn
    exact h.returned
  | cons j schedule ih =>
    rw [interleave_cons]
    by_cases hij : i = j
    · subst hij
      rw [List.count_cons_self] at hn
      refine ih (n := n - 1) ?_ (by omega)
      rw [threads_turn_self]
      exact h.advance p.state
    · rw [List.count_cons_of_ne (Ne.symm hij)] at hn
      refine ih ?_ hn
      rwa [p.threads_turn_of_ne hij]

end Pool

end Cosmwasgo.Lib
