import Cosmwasgo.Lib.Program

namespace Cosmwasgo.Lib

variable {σ τ ε π α β γ δ : Type}

/-- A property of single runs that composes: what holds of a first part that ended well and of the
second part holds of the whole. -/
structure Discipline (σ : Type) where
  rel : σ → Exit → σ → Prop
  refl : ∀ s, rel s .ok s
  trans : ∀ {s t u x}, rel s .ok t → rel t x u → rel s x u
  abort : ∀ s, rel s .error s
  expire : ∀ s, rel s .timeout s

namespace Discipline

/-- Every run of the program is a run the discipline allows. -/
def Obeys (D : Discipline σ) (m : Program σ ε π α) : Prop := ∀ s, D.rel s (m s).1.exit (m s).2

variable {D : Discipline σ}

theorem Obeys.pure (a : α) : D.Obeys (pure a : Program σ ε π α) := fun s ↦ D.refl s

theorem Obeys.fail (e : ε) : D.Obeys (Program.fail e : Program σ ε π α) := fun s ↦ D.abort s

theorem Obeys.expire : D.Obeys (Program.expire : Program σ ε π α) := fun s ↦ D.expire s

theorem Obeys.read (f : σ → α) : D.Obeys (Program.read f : Program σ ε π α) := fun s ↦ D.refl s

theorem Obeys.update {f : σ → σ} (h : ∀ s, D.rel s .ok (f s)) :
    D.Obeys (Program.update f : Program σ ε π Unit) := fun s ↦ h s

theorem Obeys.raise {p : π} (h : ∀ s, D.rel s .panic s) : D.Obeys (Program.raise p : Program σ ε π α) :=
  fun s ↦ h s

/-- The second part has to obey only from the states and values the first one can end in. -/
theorem Obeys.bind_of {m : Program σ ε π α} {f : α → Program σ ε π β} (hm : D.Obeys m)
    (hf : ∀ s a t, m s = (.ok a, t) → D.rel t (f a t).1.exit (f a t).2) : D.Obeys (m >>= f) := by
  intro s
  have h := hm s
  rcases hs : m s with ⟨a | e | p | _, t⟩ <;> rw [hs] at h
  · rw [Program.bind_of_ok f hs]
    exact D.trans h (hf s a t hs)
  · rw [Program.bind_of_error f hs]; exact h
  · rw [Program.bind_of_panic f hs]; exact h
  · rw [Program.bind_of_timeout f hs]; exact h

theorem Obeys.bind {m : Program σ ε π α} {f : α → Program σ ε π β} (hm : D.Obeys m)
    (hf : ∀ a, D.Obeys (f a)) : D.Obeys (m >>= f) :=
  hm.bind_of fun _ a t _ ↦ hf a t

theorem Obeys.lift (x : Except ε α) : D.Obeys (Program.lift x : Program σ ε π α) := by
  cases x with
  | ok a => exact .pure a
  | error e => exact .fail e

theorem Obeys.require (b : Bool) (e : ε) : D.Obeys (Program.require b e : Program σ ε π Unit) := by
  cases b with
  | true => exact .pure ()
  | false => exact .fail e

theorem Obeys.ite {c : Prop} [Decidable c] {m m' : Program σ ε π α} (h : c → D.Obeys m)
    (h' : ¬ c → D.Obeys m') : D.Obeys (if c then m else m') := by
  split
  · exact h ‹_›
  · exact h' ‹_›

theorem Obeys.attempt {m : Program σ ε π α} {f : Outcome ε π α → Program σ ε π β}
    (h : ∀ s o t, m s = (o, t) → D.rel s (f o t).1.exit (f o t).2) : D.Obeys (m.attempt f) :=
  fun s ↦ h s (m s).1 (m s).2 rfl

theorem Obeys.mono {D' : Discipline σ} {m : Program σ ε π α} (h : ∀ {s x t}, D.rel s x t → D'.rel s x t)
    (hm : D.Obeys m) : D'.Obeys m := fun s ↦ h (hm s)

/-- From states with `P` every run is allowed, and a run that ends well ends with `Q`. -/
def Triple (D : Discipline σ) (P : σ → Prop) (m : Program σ ε π α) (Q : α → σ → Prop) : Prop :=
  ∀ s, P s → D.rel s (m s).1.exit (m s).2 ∧ ∀ a t, m s = (.ok a, t) → Q a t

variable {P : σ → Prop} {Q : α → σ → Prop} {R : β → σ → Prop}

theorem Obeys.triple {m : Program σ ε π α} (hm : D.Obeys m) : D.Triple P m fun _ _ ↦ True :=
  fun s _ ↦ ⟨hm s, fun _ _ _ ↦ trivial⟩

theorem Triple.obeys {m : Program σ ε π α} (hm : D.Triple (fun _ ↦ True) m fun _ _ ↦ True) : D.Obeys m :=
  fun s ↦ (hm s trivial).1

theorem Triple.pure {a : α} (h : ∀ s, P s → Q a s) : D.Triple P (pure a : Program σ ε π α) Q := by
  refine fun s hs ↦ ⟨D.refl s, fun b t hb ↦ ?_⟩
  obtain ⟨hb, rfl⟩ := Prod.mk.inj hb
  cases hb
  exact h s hs

theorem Triple.fail (e : ε) : D.Triple P (Program.fail e : Program σ ε π α) Q := by
  refine fun s _ ↦ ⟨D.abort s, fun b t hb ↦ ?_⟩
  cases (Prod.mk.inj hb).1

theorem Triple.conseq {P' : σ → Prop} {Q' : α → σ → Prop} {m : Program σ ε π α} (hm : D.Triple P m Q)
    (hP : ∀ s, P' s → P s) (hQ : ∀ a s, Q a s → Q' a s) : D.Triple P' m Q' :=
  fun s hs ↦ ⟨(hm s (hP s hs)).1, fun a t h ↦ hQ a t ((hm s (hP s hs)).2 a t h)⟩

theorem Triple.mono {D' : Discipline σ} {m : Program σ ε π α} (h : ∀ {s x t}, D.rel s x t → D'.rel s x t)
    (hm : D.Triple P m Q) : D'.Triple P m Q := fun s hs ↦ ⟨h (hm s hs).1, (hm s hs).2⟩

/-- A condition that does not depend on the state is a hypothesis. -/
theorem Triple.of_pure {φ : Prop} {m : Program σ ε π α} (h : φ → D.Triple P m Q) :
    D.Triple (fun s ↦ P s ∧ φ) m Q := fun s hs ↦ h hs.2 s hs.1

theorem Triple.bind {m : Program σ ε π α} {f : α → Program σ ε π β} (hm : D.Triple P m Q)
    (hf : ∀ a, D.Triple (Q a) (f a) R) : D.Triple P (m >>= f) R := by
  intro s hs
  obtain ⟨hrel, hpost⟩ := hm s hs
  rcases h : m s with ⟨a | e | p | _, t⟩ <;> rw [h] at hrel
  · obtain ⟨hrel', hpost'⟩ := hf a t (hpost a t h)
    rw [Program.bind_of_ok f h]
    exact ⟨D.trans hrel hrel', hpost'⟩
  · rw [Program.bind_of_error f h]
    exact ⟨hrel, fun _ _ hb ↦ by cases hb⟩
  · rw [Program.bind_of_panic f h]
    exact ⟨hrel, fun _ _ hb ↦ by cases hb⟩
  · rw [Program.bind_of_timeout f h]
    exact ⟨hrel, fun _ _ hb ↦ by cases hb⟩

theorem Triple.require {b : Bool} {e : ε} {Q : Unit → σ → Prop} (h : ∀ s, P s → b = true → Q () s) :
    D.Triple P (Program.require b e : Program σ ε π Unit) Q := by
  cases b with
  | true => exact .pure fun s hs ↦ h s hs rfl
  | false => exact .fail e

theorem Triple.lift {x : Except ε α} (h : ∀ s a, P s → x = .ok a → Q a s) :
    D.Triple P (Program.lift x : Program σ ε π α) Q := by
  cases x with
  | ok a => exact .pure fun s hs ↦ h s a hs rfl
  | error e => exact .fail e

end Discipline

/-- Two outcomes of one kind, with related values and the same error or panic. -/
inductive Outcome.Matches (V : α → β → Prop) : Outcome ε π α → Outcome ε π β → Prop
  | ok {a b} (h : V a b) : Matches V (.ok a) (.ok b)
  | error (e : ε) : Matches V (.error e) (.error e)
  | panic (p : π) : Matches V (.panic p) (.panic p)

theorem Outcome.Matches.eq {o o' : Outcome ε π α} (h : o.Matches Eq o') : o = o' := by
  cases h with
  | ok h => rw [h]
  | error e => rfl
  | panic p => rfl

theorem Outcome.Matches.mono {V W : α → β → Prop} (h : ∀ a b, V a b → W a b) {o : Outcome ε π α} {o' : Outcome ε π β}
    (ho : o.Matches V o') : o.Matches W o' := by
  cases ho with
  | ok hv => exact .ok (h _ _ hv)
  | error e => exact .error e
  | panic p => exact .panic p

/-- From related states the second program ends as the first does, unless the first runs out of fuel. -/
def Simulates (S : σ → τ → Prop) (V : α → β → Prop) (m : Program σ ε π α) (m' : Program τ ε π β) : Prop :=
  ∀ s t, S s t → (m s).1 = .timeout ∨ ((m s).1.Matches V (m' t).1 ∧ S (m s).2 (m' t).2)

namespace Simulates

variable {S : σ → τ → Prop} {V : α → β → Prop} {W : γ → δ → Prop}

theorem pure {a : α} {b : β} (h : V a b) :
    Simulates S V (pure a : Program σ ε π α) (pure b : Program τ ε π β) :=
  fun _ _ hs ↦ .inr ⟨.ok h, hs⟩

theorem fail (e : ε) : Simulates S V (Program.fail e : Program σ ε π α) (Program.fail e : Program τ ε π β) :=
  fun _ _ hs ↦ .inr ⟨.error e, hs⟩

theorem raise (p : π) : Simulates S V (Program.raise p : Program σ ε π α) (Program.raise p : Program τ ε π β) :=
  fun _ _ hs ↦ .inr ⟨.panic p, hs⟩

theorem expire (m : Program τ ε π β) : Simulates S V (Program.expire : Program σ ε π α) m :=
  fun _ _ _ ↦ .inl rfl

theorem read {f : σ → α} {g : τ → β} (h : ∀ s t, S s t → V (f s) (g t)) :
    Simulates S V (Program.read f : Program σ ε π α) (Program.read g : Program τ ε π β) :=
  fun s t hs ↦ .inr ⟨.ok (h s t hs), hs⟩

theorem update {f : σ → σ} {g : τ → τ} {V : Unit → Unit → Prop} (hV : V () ())
    (h : ∀ s t, S s t → S (f s) (g t)) :
    Simulates S V (Program.update f : Program σ ε π Unit) (Program.update g : Program τ ε π Unit) :=
  fun s t hs ↦ .inr ⟨.ok hV, h s t hs⟩

theorem bind {m : Program σ ε π α} {m' : Program τ ε π β} {f : α → Program σ ε π γ} {f' : β → Program τ ε π δ}
    (hm : Simulates S V m m') (hf : ∀ a b, V a b → Simulates S W (f a) (f' b)) :
    Simulates S W (m >>= f) (m' >>= f') := by
  intro s t hs
  rcases hms : m s with ⟨a | e | p | _, s'⟩ <;> rcases hmt : m' t with ⟨b | e' | p' | _, t'⟩
  case ok.ok =>
    have h := hm s t hs
    rw [hms, hmt] at h
    obtain ⟨⟨hv⟩, hst⟩ := h.resolve_left (by simp)
    rw [Program.bind_of_ok f hms, Program.bind_of_ok f' hmt]
    exact hf a b hv s' t' hst
  case error.error =>
    have h := hm s t hs
    rw [hms, hmt] at h
    obtain ⟨⟨⟩, hst⟩ := h.resolve_left (by simp)
    rw [Program.bind_of_error f hms, Program.bind_of_error f' hmt]
    exact .inr ⟨.error e, hst⟩
  case panic.panic =>
    have h := hm s t hs
    rw [hms, hmt] at h
    obtain ⟨⟨⟩, hst⟩ := h.resolve_left (by simp)
    rw [Program.bind_of_panic f hms, Program.bind_of_panic f' hmt]
    exact .inr ⟨.panic p, hst⟩
  case timeout.ok | timeout.error | timeout.panic | timeout.timeout =>
    exact .inl (by rw [Program.bind_of_timeout f hms])
  all_goals
    have h := hm s t hs
    rw [hms, hmt] at h
    obtain ⟨⟨⟩, -⟩ := h.resolve_left (by simp)

theorem mono {V' : α → β → Prop} (h : ∀ a b, V a b → V' a b) {m : Program σ ε π α} {m' : Program τ ε π β}
    (hm : Simulates S V m m') : Simulates S V' m m' :=
  fun s t hs ↦ (hm s t hs).imp_right fun ⟨hv, hst⟩ ↦ ⟨hv.mono h, hst⟩

theorem lift (x : Except ε α) :
    Simulates S Eq (Program.lift x : Program σ ε π α) (Program.lift x : Program τ ε π α) := by
  cases x with
  | ok a => exact .pure rfl
  | error e => exact .fail e

theorem require (b : Bool) (e : ε) :
    Simulates S Eq (Program.require b e : Program σ ε π Unit) (Program.require b e : Program τ ε π Unit) := by
  cases b with
  | true => exact .pure rfl
  | false => exact .fail e

/-- Continuing with outcomes: running out of fuel is not to be made up for. -/
theorem attempt {m : Program σ ε π α} {m' : Program τ ε π β} {f : Outcome ε π α → Program σ ε π γ}
    {f' : Outcome ε π β → Program τ ε π δ} (hm : Simulates S V m m')
    (ht : ∀ s, (f .timeout s).1 = .timeout)
    (hf : ∀ o o', o.Matches V o' → Simulates S W (f o) (f' o')) : Simulates S W (m.attempt f) (m'.attempt f') := by
  intro s t hs
  rcases hm s t hs with h | ⟨h, hst⟩
  · left
    change (f (m s).1 (m s).2).1 = .timeout
    rw [h]
    exact ht _
  · exact hf _ _ h _ _ hst

/-- Sequencing where both programs pass on the same value. -/
theorem bind_eq {m : Program σ ε π α} {m' : Program τ ε π α} {f : α → Program σ ε π γ} {f' : α → Program τ ε π δ}
    (hm : Simulates S Eq m m') (hf : ∀ a, Simulates S W (f a) (f' a)) : Simulates S W (m >>= f) (m' >>= f') :=
  hm.bind fun a b h ↦ by subst h; exact hf a

end Simulates

theorem Outcome.Matches.flip {V : α → β → Prop} {o : Outcome ε π α} {o' : Outcome ε π β} (h : o.Matches V o') :
    o'.Matches (fun b a ↦ V a b) o := by
  cases h with
  | ok hv => exact .ok hv
  | error e => exact .error e
  | panic p => exact .panic p

/-- The two programs end alike from related states, in fuel too. -/
def Agrees (S : σ → τ → Prop) (V : α → β → Prop) (m : Program σ ε π α) (m' : Program τ ε π β) : Prop :=
  ∀ s t, S s t → ((m s).1 = .timeout ∧ (m' t).1 = .timeout) ∨ ((m s).1.Matches V (m' t).1 ∧ S (m s).2 (m' t).2)

namespace Agrees

variable {S : σ → τ → Prop} {V : α → β → Prop} {W : γ → δ → Prop} {m : Program σ ε π α} {m' : Program τ ε π β}

theorem of_simulates (h : Simulates S V m m') (h' : Simulates (fun t s ↦ S s t) (fun b a ↦ V a b) m' m) :
    Agrees S V m m' := by
  intro s t hs
  rcases h s t hs with ht | hm
  · rcases h' t s hs with ht' | ⟨hm', -⟩
    · exact .inl ⟨ht, ht'⟩
    · rw [ht] at hm'
      nomatch hm'.flip
  · exact .inr hm

theorem simulates (h : Agrees S V m m') : Simulates S V m m' := fun s t hs ↦ (h s t hs).imp_left And.left

theorem simulates_flip (h : Agrees S V m m') : Simulates (fun t s ↦ S s t) (fun b a ↦ V a b) m' m := fun t s hs ↦ by
  rcases h s t hs with ht | ⟨hm, hst⟩
  · exact .inl ht.2
  · exact .inr ⟨hm.flip, hst⟩

theorem pure {a : α} {b : β} (h : V a b) : Agrees S V (pure a : Program σ ε π α) (pure b : Program τ ε π β) :=
  fun _ _ hs ↦ .inr ⟨.ok h, hs⟩

theorem fail (e : ε) : Agrees S V (Program.fail e : Program σ ε π α) (Program.fail e : Program τ ε π β) :=
  fun _ _ hs ↦ .inr ⟨.error e, hs⟩

theorem expire : Agrees S V (Program.expire : Program σ ε π α) (Program.expire : Program τ ε π β) :=
  fun _ _ _ ↦ .inl ⟨rfl, rfl⟩

theorem bind {f : α → Program σ ε π γ} {f' : β → Program τ ε π δ} (hm : Agrees S V m m')
    (hf : ∀ a b, V a b → Agrees S W (f a) (f' b)) : Agrees S W (m >>= f) (m' >>= f') :=
  of_simulates (hm.simulates.bind fun a b h ↦ (hf a b h).simulates)
    (hm.simulates_flip.bind fun b a h ↦ (hf a b h).simulates_flip)

theorem attempt {f : Outcome ε π α → Program σ ε π γ} {f' : Outcome ε π β → Program τ ε π δ} (hm : Agrees S V m m')
    (ht : ∀ s, (f .timeout s).1 = .timeout) (ht' : ∀ t, (f' .timeout t).1 = .timeout)
    (hf : ∀ o o', o.Matches V o' → Agrees S W (f o) (f' o')) : Agrees S W (m.attempt f) (m'.attempt f') :=
  of_simulates (hm.simulates.attempt ht fun o o' h ↦ (hf o o' h).simulates)
    (hm.simulates_flip.attempt ht' fun o' o h ↦ (hf o o' h.flip).simulates_flip)

end Agrees

/-- Two outcomes of one kind, with related values, errors or panics. -/
inductive Outcome.Coupled (V : α → β → Prop) (F : ε → ε → Prop) (G : π → π → Prop) :
    Outcome ε π α → Outcome ε π β → Prop
  | ok {a b} (h : V a b) : Coupled V F G (.ok a) (.ok b)
  | error {e e'} (h : F e e') : Coupled V F G (.error e) (.error e')
  | panic {p p'} (h : G p p') : Coupled V F G (.panic p) (.panic p')

/-- The two programs end alike from related states, in fuel too, though not for the same reasons. -/
def Couples (S : σ → τ → Prop) (V : α → β → Prop) (F : ε → ε → Prop) (G : π → π → Prop) (m : Program σ ε π α)
    (m' : Program τ ε π β) : Prop :=
  ∀ s t, S s t → ((m s).1 = .timeout ∧ (m' t).1 = .timeout) ∨ ((m s).1.Coupled V F G (m' t).1 ∧ S (m s).2 (m' t).2)

theorem Agrees.couples {S : σ → τ → Prop} {V : α → β → Prop} {F : ε → ε → Prop} {G : π → π → Prop}
    {m : Program σ ε π α} {m' : Program τ ε π β} (h : Agrees S V m m') (hF : ∀ e, F e e) (hG : ∀ p, G p p) :
    Couples S V F G m m' := by
  have coupled : ∀ {o : Outcome ε π α} {o' : Outcome ε π β}, o.Matches V o' → o.Coupled V F G o' := by
    intro o o' ho
    cases ho with
    | ok hv => exact .ok hv
    | error e => exact .error (hF e)
    | panic p => exact .panic (hG p)
  exact fun s t hs ↦ (h s t hs).imp_right fun ⟨hm, hst⟩ ↦ ⟨coupled hm, hst⟩

namespace Couples

variable {S : σ → τ → Prop} {V : α → β → Prop} {W : γ → δ → Prop} {F F' : ε → ε → Prop} {G : π → π → Prop}
  {m : Program σ ε π α} {m' : Program τ ε π β}

theorem pure {a : α} {b : β} (h : V a b) : Couples S V F G (pure a : Program σ ε π α) (pure b : Program τ ε π β) :=
  fun _ _ hs ↦ .inr ⟨.ok h, hs⟩

theorem fail {e e' : ε} (h : F e e') : Couples S V F G (Program.fail e : Program σ ε π α) (Program.fail e' : Program τ ε π β) :=
  fun _ _ hs ↦ .inr ⟨.error h, hs⟩

theorem expire : Couples S V F G (Program.expire : Program σ ε π α) (Program.expire : Program τ ε π β) :=
  fun _ _ _ ↦ .inl ⟨rfl, rfl⟩

theorem finish {o : Outcome ε π α} {o' : Outcome ε π β} (h : o.Coupled V F G o') :
    Couples S V F G (Program.finish o : Program σ ε π α) (Program.finish o' : Program τ ε π β) :=
  fun _ _ hs ↦ .inr ⟨h, hs⟩

theorem bind {f : α → Program σ ε π γ} {f' : β → Program τ ε π δ} (hm : Couples S V F G m m')
    (hf : ∀ a b, V a b → Couples S W F G (f a) (f' b)) : Couples S W F G (m >>= f) (m' >>= f') := by
  intro s t hs
  have h := hm s t hs
  rcases hms : m s with ⟨o, s'⟩
  rcases hmt : m' t with ⟨o', t'⟩
  rw [hms, hmt] at h
  rcases h with ⟨ho, ho'⟩ | ⟨ho, hst⟩
  · obtain rfl : o = .timeout := ho
    obtain rfl : o' = .timeout := ho'
    rw [Program.bind_of_timeout f hms, Program.bind_of_timeout f' hmt]
    exact .inl ⟨rfl, rfl⟩
  · cases ho with
    | ok hv =>
      rw [Program.bind_of_ok f hms, Program.bind_of_ok f' hmt]
      exact hf _ _ hv s' t' hst
    | error he =>
      rw [Program.bind_of_error f hms, Program.bind_of_error f' hmt]
      exact .inr ⟨.error he, hst⟩
    | panic hp =>
      rw [Program.bind_of_panic f hms, Program.bind_of_panic f' hmt]
      exact .inr ⟨.panic hp, hst⟩

/-- Continuing with outcomes: running out of fuel is not to be made up for. -/
theorem attempt {f : Outcome ε π α → Program σ ε π γ} {f' : Outcome ε π β → Program τ ε π δ}
    (hm : Couples S V F G m m') (ht : ∀ s, (f .timeout s).1 = .timeout) (ht' : ∀ t, (f' .timeout t).1 = .timeout)
    (hf : ∀ o o', o.Coupled V F G o' → Couples S W F' G (f o) (f' o')) :
    Couples S W F' G (m.attempt f) (m'.attempt f') := by
  intro s t hs
  rcases hm s t hs with ⟨h, h'⟩ | ⟨h, hst⟩
  · left
    change (f (m s).1 (m s).2).1 = .timeout ∧ (f' (m' t).1 (m' t).2).1 = .timeout
    rw [h, h']
    exact ⟨ht _, ht' _⟩
  · exact hf _ _ h _ _ hst

end Couples

end Cosmwasgo.Lib
