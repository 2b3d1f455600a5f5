import Mathlib.Data.List.Forall2
import Mathlib.Tactic.Common

namespace Cosmwasgo.Lib

variable {σ τ ε π α β γ δ : Type}

/-- How a run of a program ends. `timeout` is the answer of an interpreter that ran out of fuel. -/
inductive Outcome (ε π α : Type)
  | ok (a : α)
  | error (e : ε)
  | panic (p : π)
  | timeout
  deriving DecidableEq, Repr

/-- The way a run ends, without the value it ends with. -/
inductive Exit
  | ok
  | error
  | panic
  | timeout
  deriving DecidableEq, Repr

namespace Outcome

def exit : Outcome ε π α → Exit
  | .ok _ => .ok
  | .error _ => .error
  | .panic _ => .panic
  | .timeout => .timeout

def map (f : α → β) : Outcome ε π α → Outcome ε π β
  | .ok a => .ok (f a)
  | .error e => .error e
  | .panic p => .panic p
  | .timeout => .timeout

@[simp] theorem exit_map (f : α → β) (o : Outcome ε π α) : (o.map f).exit = o.exit := by
  cases o <;> rfl

@[simp] theorem exit_ok (a : α) : (ok a : Outcome ε π α).exit = .ok := rfl
@[simp] theorem exit_error (e : ε) : (error e : Outcome ε π α).exit = .error := rfl
@[simp] theorem exit_panic (p : π) : (panic p : Outcome ε π α).exit = .panic := rfl
@[simp] theorem exit_timeout : (timeout : Outcome ε π α).exit = .timeout := rfl

end Outcome

/-- A state-passing computation that may fail or panic. The state is returned in every case: what a
failure or a panic undoes is decided by the code that observes it. -/
def Program (σ ε π α : Type) : Type := σ → Outcome ε π α × σ

namespace Program

protected def bind (m : Program σ ε π α) (f : α → Program σ ε π β) : Program σ ε π β := fun s ↦
  match m s with
  | (.ok a, t) => f a t
  | (.error e, t) => (.error e, t)
  | (.panic p, t) => (.panic p, t)
  | (.timeout, t) => (.timeout, t)

instance : Monad (Program σ ε π) where
  pure a := fun s ↦ (.ok a, s)
  bind := Program.bind

def fail (e : ε) : Program σ ε π α := fun s ↦ (.error e, s)

def raise (p : π) : Program σ ε π α := fun s ↦ (.panic p, s)

def expire : Program σ ε π α := fun s ↦ (.timeout, s)

/-- Ends at once with the given outcome. -/
def finish (o : Outcome ε π α) : Program σ ε π α := fun s ↦ (o, s)

/-- A deferred call: made however the program ends, by a panic too. A panic of its own takes the place of that outcome. -/
def deferring (d : Program σ ε π Unit) (m : Program σ ε π α) : Program σ ε π α := fun s ↦
  match m s with
  | (.timeout, t) => (.timeout, t)
  | (o, t) => Program.bind d (fun _ ↦ finish o) t

def read (f : σ → α) : Program σ ε π α := fun s ↦ (.ok (f s), s)

def update (f : σ → σ) : Program σ ε π Unit := fun s ↦ (.ok (), f s)

/-- Runs a pure fallible computation. -/
def lift (x : Except ε α) : Program σ ε π α :=
  match x with
  | .ok a => pure a
  | .error e => fail e

def require (b : Bool) (e : ε) : Program σ ε π Unit := if b then pure () else fail e

/-- Continues with the outcome of the first program, whatever it is. -/
def attempt (m : Program σ ε π α) (f : Outcome ε π α → Program σ ε π β) : Program σ ε π β :=
  fun s ↦ f (m s).1 (m s).2

@[simp] theorem pure_apply (a : α) (s : σ) : (pure a : Program σ ε π α) s = (.ok a, s) := rfl
@[simp] theorem fail_apply (e : ε) (s : σ) : (fail e : Program σ ε π α) s = (.error e, s) := rfl
@[simp] theorem raise_apply (p : π) (s : σ) : (raise p : Program σ ε π α) s = (.panic p, s) := rfl
@[simp] theorem expire_apply (s : σ) : (expire : Program σ ε π α) s = (.timeout, s) := rfl
@[simp] theorem finish_apply (o : Outcome ε π α) (s : σ) : (finish o : Program σ ε π α) s = (o, s) := rfl
@[simp] theorem read_apply (f : σ → α) (s : σ) : (read f : Program σ ε π α) s = (.ok (f s), s) := rfl
@[simp] theorem update_apply (f : σ → σ) (s : σ) : (update f : Program σ ε π Unit) s = (.ok (), f s) := rfl
@[simp] theorem lift_ok (a : α) : (lift (.ok a) : Program σ ε π α) = pure a := rfl
@[simp] theorem lift_error (e : ε) : (lift (.error e) : Program σ ε π α) = fail e := rfl
@[simp] theorem require_true (e : ε) : (require true e : Program σ ε π Unit) = pure () := rfl
@[simp] theorem require_false (e : ε) : (require false e : Program σ ε π Unit) = fail e := rfl

theorem apply_eq {m : Program σ ε π α} {s : σ} {o : Outcome ε π α} (h : (m s).1 = o) : m s = (o, (m s).2) := by
  rw [← h]

theorem bind_of_ok {m : Program σ ε π α} {s t : σ} {a : α} (f : α → Program σ ε π β)
    (h : m s = (.ok a, t)) : (m >>= f) s = f a t := by
  change Program.bind m f s = _
  simp only [Program.bind, h]

theorem bind_of_error {m : Program σ ε π α} {s t : σ} {e : ε} (f : α → Program σ ε π β)
    (h : m s = (.error e, t)) : (m >>= f) s = (.error e, t) := by
  change Program.bind m f s = _
  simp only [Program.bind, h]

theorem bind_of_panic {m : Program σ ε π α} {s t : σ} {p : π} (f : α → Program σ ε π β)
    (h : m s = (.panic p, t)) : (m >>= f) s = (.panic p, t) := by
  change Program.bind m f s = _
  simp only [Program.bind, h]

theorem bind_of_timeout {m : Program σ ε π α} {s t : σ} (f : α → Program σ ε π β)
    (h : m s = (.timeout, t)) : (m >>= f) s = (.timeout, t) := by
  change Program.bind m f s = _
  simp only [Program.bind, h]

theorem bind_of_not_ok {m : Program σ ε π α} {s t : σ} {o : Outcome ε π α} (f : α → Program σ ε π β)
    (h : m s = (o, t)) (ho : ∀ a, o ≠ .ok a) : (∀ b, ((m >>= f) s).1 ≠ .ok b) ∧ ((m >>= f) s).2 = t := by
  cases o with
  | ok a => exact absurd rfl (ho a)
  | error e => rw [bind_of_error f h]; exact ⟨nofun, rfl⟩
  | panic p => rw [bind_of_panic f h]; exact ⟨nofun, rfl⟩
  | timeout => rw [bind_of_timeout f h]; exact ⟨nofun, rfl⟩

@[simp] theorem pure_bind (a : α) (f : α → Program σ ε π β) : (pure a >>= f) = f a := rfl
@[simp] theorem fail_bind (e : ε) (f : α → Program σ ε π β) : (fail e >>= f) = fail e := rfl
theorem bind_assoc (m : Program σ ε π α) (f : α → Program σ ε π β) (g : β → Program σ ε π γ) :
    (m >>= f >>= g) = (m >>= fun a ↦ f a >>= g) := by
  funext s
  rcases h : m s with ⟨a | e | p | _, t⟩
  · rw [bind_of_ok _ h]
    rcases hf : f a t with ⟨b | e | p | _, u⟩
    · rw [bind_of_ok g (by rw [bind_of_ok f h, hf]), bind_of_ok g hf]
    · rw [bind_of_error g (by rw [bind_of_ok f h, hf]), bind_of_error g hf]
    · rw [bind_of_panic g (by rw [bind_of_ok f h, hf]), bind_of_panic g hf]
    · rw [bind_of_timeout g (by rw [bind_of_ok f h, hf]), bind_of_timeout g hf]
  · rw [bind_of_error g (bind_of_error f h), bind_of_error _ h]
  · rw [bind_of_panic g (bind_of_panic f h), bind_of_panic _ h]
  · rw [bind_of_timeout g (bind_of_timeout f h), bind_of_timeout _ h]

@[simp] theorem read_bind_apply (g : σ → α) (f : α → Program σ ε π β) (s : σ) :
    (read g >>= f) s = f (g s) s := rfl
@[simp] theorem update_bind_apply (g : σ → σ) (f : Unit → Program σ ε π β) (s : σ) :
    (update g >>= f) s = f () (g s) := rfl

@[simp] theorem exit_bind_pure (m : Program σ ε π α) (g : α → β) (s : σ) :
    ((m >>= fun a ↦ pure (g a)) s).1.exit = (m s).1.exit := by
  rcases h : m s with ⟨a | e | p | _, t⟩
  · rw [bind_of_ok _ h]; rfl
  · rw [bind_of_error _ h]; rfl
  · rw [bind_of_panic _ h]; rfl
  · rw [bind_of_timeout _ h]; rfl

@[simp] theorem snd_bind_pure (m : Program σ ε π α) (g : α → β) (s : σ) :
    ((m >>= fun a ↦ pure (g a)) s).2 = (m s).2 := by
  rcases h : m s with ⟨a | e | p | _, t⟩
  · rw [bind_of_ok _ h]; rfl
  · rw [bind_of_error _ h]
  · rw [bind_of_panic _ h]
  · rw [bind_of_timeout _ h]

/-- A sequence succeeds exactly when its first part does and the second succeeds from there. -/
theorem bind_eq_ok {m : Program σ ε π α} {f : α → Program σ ε π β} {s u : σ} {b : β} :
    (m >>= f) s = (.ok b, u) ↔ ∃ a t, m s = (.ok a, t) ∧ f a t = (.ok b, u) := by
  constructor
  · intro h
    rcases hm : m s with ⟨a | e | p | _, t⟩
    · exact ⟨a, t, rfl, by rwa [bind_of_ok f hm] at h⟩
    · rw [bind_of_error f hm] at h; cases h
    · rw [bind_of_panic f hm] at h; cases h
    · rw [bind_of_timeout f hm] at h; cases h
  · rintro ⟨a, t, hm, hf⟩
    rw [bind_of_ok f hm, hf]

theorem bind_eq_error {m : Program σ ε π α} {f : α → Program σ ε π β} {s u : σ} {e : ε} :
    (m >>= f) s = (.error e, u) ↔
      m s = (.error e, u) ∨ ∃ a t, m s = (.ok a, t) ∧ f a t = (.error e, u) := by
  constructor
  · intro h
    rcases hm : m s with ⟨a | e' | p | _, t⟩
    · exact .inr ⟨a, t, rfl, by rwa [bind_of_ok f hm] at h⟩
    · rw [bind_of_error f hm] at h; cases h; exact .inl rfl
    · rw [bind_of_panic f hm] at h; cases h
    · rw [bind_of_timeout f hm] at h; cases h
  · rintro (hm | ⟨a, t, hm, hf⟩)
    · exact bind_of_error f hm
    · rw [bind_of_ok f hm, hf]

/-- When the second part never fails, the sequence fails where the first one does. -/
theorem exit_bind_eq_error {m : Program σ ε π α} {f : α → Program σ ε π β} (hf : ∀ a t, (f a t).1.exit ≠ .error) (s : σ) :
    ((m >>= f) s).1.exit = .error ↔ (m s).1.exit = .error := by
  rcases h : m s with ⟨a | e | p | _, t⟩
  · rw [bind_of_ok f h]
    exact iff_of_false (hf a t) nofun
  · rw [bind_of_error f h]
    rfl
  · rw [bind_of_panic f h]
    exact iff_of_false nofun nofun
  · rw [bind_of_timeout f h]
    exact iff_of_false nofun nofun

theorem snd_bind_of_error {m : Program σ ε π α} {s : σ} (f : α → Program σ ε π β) (h : (m s).1.exit = .error) :
    ((m >>= f) s).2 = (m s).2 := by
  rcases hm : m s with ⟨a | e | p | _, t⟩ <;> rw [hm] at h
  · cases h
  · rw [bind_of_error f hm]
  · cases h
  · cases h

theorem fst_deferring {d : Program σ ε π Unit} {m : Program σ ε π α} {s t u : σ} {o : Outcome ε π α} (hm : m s = (o, t))
    (hd : d t = (.ok (), u)) : (deferring d m s).1 = o := by
  unfold deferring
  rw [hm]
  cases o with
  | timeout => rfl
  | ok a => exact congrArg Prod.fst (bind_of_ok _ hd)
  | error e => exact congrArg Prod.fst (bind_of_ok _ hd)
  | panic p => exact congrArg Prod.fst (bind_of_ok _ hd)

theorem deferring_eq_ok {d : Program σ ε π Unit} {m : Program σ ε π α} {s u : σ} {a : α}
    (h : deferring d m s = (.ok a, u)) : ∃ t, m s = (.ok a, t) ∧ d t = (.ok (), u) := by
  unfold deferring at h
  rcases hm : m s with ⟨o, t⟩
  rw [hm] at h
  cases o with
  | timeout => cases h
  | ok b =>
    obtain ⟨_, u', hd, hfinish⟩ := bind_eq_ok.1 h
    cases hfinish
    exact ⟨t, rfl, hd⟩
  | error e =>
    obtain ⟨_, _, -, hfinish⟩ := bind_eq_ok.1 h
    cases hfinish
  | panic p =>
    obtain ⟨_, _, -, hfinish⟩ := bind_eq_ok.1 h
    cases hfinish

theorem lift_eq_ok {x : Except ε α} {s t : σ} {a : α} :
    (lift x : Program σ ε π α) s = (.ok a, t) ↔ x = .ok a ∧ s = t := by
  cases x <;> simp

theorem require_eq_ok {b : Bool} {e : ε} {s t : σ} {a : Unit} :
    (require b e : Program σ ε π Unit) s = (.ok a, t) ↔ b = true ∧ s = t := by
  cases b <;> simp

end Program

theorem except_bind_eq_ok {x : Except ε α} {f : α → Except ε β} {b : β} :
    x >>= f = .ok b ↔ ∃ a, x = .ok a ∧ f a = .ok b := by
  cases x with
  | error e => exact ⟨nofun, fun ⟨_, h, _⟩ ↦ nomatch h⟩
  | ok a => exact ⟨fun h ↦ ⟨a, rfl, h⟩, fun ⟨_, h, hf⟩ ↦ by cases h; exact hf⟩

theorem mapError_eq_ok {x : Except ε α} {f : ε → δ} {a : α} : x.mapError f = .ok a ↔ x = .ok a := by
  cases x with
  | ok b => exact ⟨fun h ↦ congrArg _ (Except.ok.inj h), fun h ↦ congrArg _ (Except.ok.inj h)⟩
  | error e => exact ⟨nofun, nofun⟩

/-- A list that is read entry by entry. -/
theorem mapM_eq_ok {f : α → Except ε β} {l : List α} {l' : List β} :
    l.mapM f = .ok l' ↔ List.Forall₂ (fun a b ↦ f a = .ok b) l l' := by
  induction l generalizing l' with
  | nil =>
    rw [List.mapM_nil, List.forall₂_nil_left_iff]
    exact ⟨fun h ↦ (Except.ok.inj h).symm, fun h ↦ congrArg Except.ok h.symm⟩
  | cons a l ih =>
    rw [List.mapM_cons, List.forall₂_cons_left_iff, except_bind_eq_ok]
    constructor
    · rintro ⟨b, hb, h⟩
      obtain ⟨bs, hbs, h⟩ := except_bind_eq_ok.1 h
      exact ⟨b, bs, hb, ih.1 hbs, (Except.ok.inj h).symm⟩
    · rintro ⟨b, bs, hb, hbs, rfl⟩
      exact ⟨b, hb, except_bind_eq_ok.2 ⟨bs, ih.2 hbs, rfl⟩⟩

/-- A check that passes as it is turned into a value. -/
theorem mapM_checked {f : α → Except ε β} {P : α → Prop} {g : α → β}
    (hf : ∀ a b, f a = .ok b ↔ P a ∧ g a = b) {l : List α} {l' : List β} :
    l.mapM f = .ok l' ↔ (∀ a ∈ l, P a) ∧ l.map g = l' := by
  have hrel : (fun a b ↦ f a = .ok b) = fun a b ↦ P a ∧ g a = b := by
    funext a b
    exact propext (hf a b)
  rw [mapM_eq_ok, hrel, List.forall₂_and_left, ← List.forall₂_map_left_iff (f := g) (R := (· = ·)),
    List.forall₂_eq_eq_eq]

end Cosmwasgo.Lib
