import Cosmwasgo.WasmVM.Iterators

namespace Cosmwasgo.Properties

open Cosmwasgo.Lib Cosmwasgo.Types Cosmwasgo.WasmVM

variable {P ι : Type}

section Registry

variable {r : IteratorRegistry ι} {c c' : UInt64} {it : ι}

theorem indexToIteratorID_eq {n : Nat} (hn : n < frameLenLimit) : indexToIteratorID n = some (UInt64.ofNat n + 1) := by
  have : ¬maxInt32 < n := by
    unfold maxInt32
    unfold frameLenLimit at hn
    omega
  exact if_neg this

theorem toNat_iteratorID {n : Nat} (hn : n < frameLenLimit) : (UInt64.ofNat n + 1).toNat = n + 1 := by
  unfold frameLenLimit at hn
  rw [UInt64.toNat_add, UInt64.toNat_ofNat']
  change (n % 2 ^ 64 + 1) % 2 ^ 64 = n + 1
  omega

/-- The `i`-th member of a list, counted from one. -/
def nth (l : List ι) (i : UInt64) : Option ι := if i = 0 then none else l[i.toNat - 1]?

theorem retrieveIterator_eq (hlen : (r.frame c).length ≤ frameLenLimit) (i : UInt64) :
    r.retrieveIterator c i = nth (r.frame c) i := by
  unfold IteratorRegistry.retrieveIterator nth iteratorIdToIndex
  by_cases h0 : i = 0
  · rw [if_pos h0, h0]
    rfl
  · have hpos : 0 < i.toNat := Nat.pos_of_ne_zero fun h ↦ h0 (UInt64.toNat_inj.1 h)
    rw [if_neg h0]
    by_cases hbig : maxInt32 < i.toNat
    · rw [if_pos (.inr hbig)]
      refine (List.getElem?_eq_none ?_).symm
      unfold maxInt32 at hbig
      unfold frameLenLimit at hlen
      omega
    · rw [if_neg (by omega)]

theorem frame_eq_of_lookup {r' : IteratorRegistry ι} (h : r'.iteratorFrames.lookup c = r.iteratorFrames.lookup c) :
    r'.frame c = r.frame c := by
  unfold IteratorRegistry.frame
  rw [h]

theorem frame_of_lookup_none (h : r.iteratorFrames.lookup c = none) : r.frame c = [] := by
  unfold IteratorRegistry.frame
  rw [h]
  rfl

/-- A full frame refuses the iterator, any other one gets it as its last. -/
theorem storeIterator_cases (r : IteratorRegistry ι) (c : UInt64) (it : ι) :
    (frameLenLimit ≤ (r.frame c).length ∧ ∃ e, r.storeIterator c it frameLenLimit = (.error e, r)) ∨
    ((r.frame c).length < frameLenLimit ∧ r.storeIterator c it frameLenLimit =
      (.ok (UInt64.ofNat (r.frame c).length + 1),
        { r with iteratorFrames := r.iteratorFrames.insert c (r.frame c ++ [it]) })) := by
  unfold IteratorRegistry.storeIterator
  dsimp only
  by_cases hfull : frameLenLimit ≤ (r.frame c).length
  · rw [if_pos hfull]
    exact .inl ⟨hfull, _, rfl⟩
  · rw [if_neg hfull, indexToIteratorID_eq (not_le.1 hfull)]
    exact .inr ⟨not_le.1 hfull, rfl⟩

theorem frame_insert_self (l : List ι) : ({ r with iteratorFrames := r.iteratorFrames.insert c l } : IteratorRegistry ι).frame c = l := by
  unfold IteratorRegistry.frame
  rw [AList.lookup_insert]
  rfl

theorem iteratorFrames_eq_empty (h : ∀ c, r.iteratorFrames.lookup c = none) : r.iteratorFrames = ∅ := by
  have hkeys : r.iteratorFrames.entries = [] := by
    rw [List.eq_nil_iff_forall_not_mem]
    rintro ⟨c, l⟩ hmem
    have hlookup := AList.mem_lookup_iff.2 hmem
    rw [h c] at hlookup
    cases hlookup
  exact AList.ext hkeys

end Registry

/-- What a call does with the registry between two points where others may come in. -/
inductive CallAction (P ι : Type)
  | startCall (p : P)
  | storeIterator (p : P) (it : ι)
  | retrieveIterator (p : P) (iteratorID : UInt64)
  | endCall (p : P)

def CallAction.call : CallAction P ι → P
  | .startCall p => p
  | .storeIterator p _ => p
  | .retrieveIterator p _ => p
  | .endCall p => p

/-- An action with what it returned. -/
inductive CallEvent (P ι : Type)
  | started (p : P) (callID : UInt64)
  | stored (p : P) (it : ι) (iteratorID : UInt64)
  | refused (p : P) (it : ι) (err : Err)
  | retrieved (p : P) (iteratorID : UInt64) (it : Option ι)
  | ended (p : P) (closed : List ι)

inductive CallPhase
  | idle
  | active (callID : UInt64)
  | ended (callID : UInt64)
  deriving DecidableEq

def CallPhase.callID : CallPhase → Option UInt64
  | .idle => none
  | .active c => some c
  | .ended c => some c

/-- Any number of contract calls over one registry. -/
structure Calls (P ι : Type) where
  registry : IteratorRegistry ι := {}
  phase : P → CallPhase := fun _ ↦ .idle

section Interleaving

variable [DecidableEq P]

/-- A call stores and retrieves iterators between its start and its end only. -/
def Calls.step (s : Calls P ι) : CallAction P ι → Option (CallEvent P ι × Calls P ι)
  | .startCall p =>
    match s.phase p with
    | .idle =>
      let started := s.registry.startCall
      some (.started p started.1, ⟨started.2, Function.update s.phase p (.active started.1)⟩)
    | _ => none
  | .storeIterator p it =>
    match s.phase p with
    | .active c =>
      match s.registry.storeIterator c it frameLenLimit with
      | (.ok iteratorID, r) => some (.stored p it iteratorID, { s with registry := r })
      | (.error e, r) => some (.refused p it e, { s with registry := r })
    | _ => none
  | .retrieveIterator p iteratorID =>
    match s.phase p with
    | .active c => some (.retrieved p iteratorID (s.registry.retrieveIterator c iteratorID), s)
    | _ => none
  | .endCall p =>
    match s.phase p with
    | .active c =>
      let ended := s.registry.endCall c
      some (.ended p ended.1, ⟨ended.2, Function.update s.phase p (.ended c)⟩)
    | _ => none

/-- The interleavings, from a process that has just started. -/
inductive Calls.Run : List (CallEvent P ι) → Calls P ι → Prop
  | init : Run [] {}
  | step {es : List (CallEvent P ι)} {s s' : Calls P ι} {a : CallAction P ι} {e : CallEvent P ι} :
      Run es s → s.step a = some (e, s') → Run (es ++ [e]) s'

def CallEvent.starts : CallEvent P ι → Bool
  | .started .. => true
  | _ => false

/-- How many calls have been made. -/
def callCount (es : List (CallEvent P ι)) : Nat := es.countP CallEvent.starts

def CallEvent.storedBy (p : P) : CallEvent P ι → Option ι
  | .stored q it _ => if q = p then some it else none
  | _ => none

/-- The iterators a call has stored, in order. -/
def storedBy (p : P) (es : List (CallEvent P ι)) : List ι := es.filterMap (CallEvent.storedBy p)

def CallEvent.closedBy (p : P) : CallEvent P ι → List ι
  | .ended q closed => if q = p then closed else []
  | _ => []

/-- All the times an iterator was closed by the end of a call. -/
def closedBy (p : P) (es : List (CallEvent P ι)) : List ι := es.flatMap (CallEvent.closedBy p)

/-- Everything a step can do. -/
inductive Calls.Stepped (s : Calls P ι) : CallAction P ι → CallEvent P ι → Calls P ι → Prop
  | started {p : P} (hp : s.phase p = .idle) :
      Stepped s (.startCall p) (.started p (s.registry.latestCallID + 1))
        ⟨{ s.registry with latestCallID := s.registry.latestCallID + 1 },
          Function.update s.phase p (.active (s.registry.latestCallID + 1))⟩
  | stored {p : P} {it : ι} {c : UInt64} (hp : s.phase p = .active c) (hlen : (s.registry.frame c).length < frameLenLimit) :
      Stepped s (.storeIterator p it) (.stored p it (UInt64.ofNat (s.registry.frame c).length + 1))
        ⟨{ s.registry with iteratorFrames := s.registry.iteratorFrames.insert c (s.registry.frame c ++ [it]) }, s.phase⟩
  | refused {p : P} {it : ι} {c : UInt64} {err : Err} (hp : s.phase p = .active c)
      (hlen : frameLenLimit ≤ (s.registry.frame c).length) : Stepped s (.storeIterator p it) (.refused p it err) s
  | retrieved {p : P} {i c : UInt64} (hp : s.phase p = .active c) :
      Stepped s (.retrieveIterator p i) (.retrieved p i (s.registry.retrieveIterator c i)) s
  | ended {p : P} {c : UInt64} (hp : s.phase p = .active c) :
      Stepped s (.endCall p) (.ended p (s.registry.frame c))
        ⟨{ s.registry with iteratorFrames := s.registry.iteratorFrames.erase c }, Function.update s.phase p (.ended c)⟩

theorem Calls.stepped {s s' : Calls P ι} {a : CallAction P ι} {e : CallEvent P ι} (h : s.step a = some (e, s')) :
    s.Stepped a e s' := by
  cases a with
  | startCall p =>
    rcases hp : s.phase p with _ | c | c <;> rw [Calls.step, hp] at h <;> cases h
    exact .started hp
  | storeIterator p it =>
    rcases hp : s.phase p with _ | c | c <;> rw [Calls.step, hp] at h
    · cases h
    · dsimp only at h
      rcases storeIterator_cases s.registry c it with ⟨hlen, err, hst⟩ | ⟨hlen, hst⟩ <;> rw [hst] at h <;> cases h
      · exact .refused hp hlen
      · exact .stored hp hlen
    · cases h
  | retrieveIterator p i =>
    rcases hp : s.phase p with _ | c | c <;> rw [Calls.step, hp] at h <;> cases h
    exact .retrieved hp
  | endCall p =>
    rcases hp : s.phase p with _ | c | c <;> rw [Calls.step, hp] at h <;> cases h
    exact .ended hp

omit [DecidableEq P] in
theorem callCount_append (es : List (CallEvent P ι)) (e : CallEvent P ι) :
    callCount (es ++ [e]) = callCount es + if e.starts then 1 else 0 := by
  simp [callCount, List.countP_append, List.countP_singleton]

theorem storedBy_append (p : P) (es : List (CallEvent P ι)) (e : CallEvent P ι) :
    storedBy p (es ++ [e]) = storedBy p es ++ (e.storedBy p).toList := by
  unfold storedBy
  rw [List.filterMap_append]
  cases he : e.storedBy p <;> simp [he]

theorem closedBy_append (p : P) (es : List (CallEvent P ι)) (e : CallEvent P ι) :
    closedBy p (es ++ [e]) = closedBy p es ++ e.closedBy p := by
  simp [closedBy]

/-- What an ended call has closed; an open one has closed nothing. -/
def CallPhase.closes (stored : List ι) : CallPhase → List ι
  | .ended _ => stored
  | _ => []

/-- The registry holds what the log says the open calls have stored. -/
structure Calls.Inv (es : List (CallEvent P ι)) (s : Calls P ι) : Prop where
  latest : s.registry.latestCallID.toNat = callCount es
  issued {p : P} {c : UInt64} : (s.phase p).callID = some c → c.toNat ≤ callCount es
  distinct {p q : P} {c : UInt64} : (s.phase p).callID = some c → (s.phase q).callID = some c → p = q
  own {p : P} {c : UInt64} : s.phase p = .active c → s.registry.frame c = storedBy p es
  held (c : UInt64) : (s.registry.frame c).length ≤ frameLenLimit
  absent {c : UInt64} : (∀ p, s.phase p ≠ .active c) → s.registry.iteratorFrames.lookup c = none
  unused {p : P} : s.phase p = .idle → storedBy p es = []
  closings (p : P) : closedBy p es = (s.phase p).closes (storedBy p es)

theorem CallPhase.callID_active {ph : CallPhase} {c : UInt64} (h : ph = .active c) : ph.callID = some c := by
  rw [h]
  rfl

namespace Calls.Inv

variable {es : List (CallEvent P ι)} {s s' : Calls P ι} {p : P} {it : ι} {c : UInt64}

theorem init : Calls.Inv ([] : List (CallEvent P ι)) {} where
  latest := rfl
  issued := nofun
  distinct := nofun
  own := nofun
  held _ := Nat.zero_le _
  absent _ := rfl
  unused _ := rfl
  closings _ := rfl

/-- An event that neither starts a call nor stores or closes anything leaves the log as it was. -/
theorem of_silent {e : CallEvent P ι} (hs : e.starts = false) (hst : ∀ q, e.storedBy q = none) (hcl : ∀ q, e.closedBy q = [])
    (h : s.Inv es) : s.Inv (es ++ [e]) := by
  have hcount : callCount (es ++ [e]) = callCount es := by rw [callCount_append, hs]; rfl
  have hstored : ∀ q, storedBy q (es ++ [e]) = storedBy q es := fun q ↦ by
    rw [storedBy_append, hst]
    exact List.append_nil _
  have hclosed : ∀ q, closedBy q (es ++ [e]) = closedBy q es := fun q ↦ by
    rw [closedBy_append, hcl, List.append_nil]
  constructor
  · rw [hcount]; exact h.latest
  · rw [hcount]; exact h.issued
  · exact h.distinct
  · intro q c hq; rw [hstored]; exact h.own hq
  · exact h.held
  · exact h.absent
  · intro q hq; rw [hstored]; exact h.unused hq
  · intro q; rw [hclosed, hstored]; exact h.closings q

/-- The next call ID has not been given out before. -/
theorem fresh (h : s.Inv es) (hcount : callCount es + 1 < 2 ^ 64) :
    (s.registry.latestCallID + 1).toNat = callCount es + 1 ∧
      ∀ q, (s.phase q).callID ≠ some (s.registry.latestCallID + 1) := by
  have hnext : (s.registry.latestCallID + 1).toNat = callCount es + 1 := by
    rw [UInt64.toNat_add, h.latest]
    exact Nat.mod_eq_of_lt hcount
  refine ⟨hnext, fun q hq ↦ ?_⟩
  have := h.issued hq
  omega

theorem started (h : s.Inv es) (hp : s.phase p = .idle) (hcount : callCount es + 1 < 2 ^ 64)
    (hframes : s'.registry.iteratorFrames = s.registry.iteratorFrames)
    (hlatest : s'.registry.latestCallID = s.registry.latestCallID + 1)
    (hself : s'.phase p = .active (s.registry.latestCallID + 1)) (hother : ∀ q, q ≠ p → s'.phase q = s.phase q) :
    s'.Inv (es ++ [.started p (s.registry.latestCallID + 1)]) := by
  obtain ⟨hnext, hfresh⟩ := h.fresh hcount
  have hcounted : callCount (es ++ [.started p (s.registry.latestCallID + 1)]) = callCount es + 1 := callCount_append _ _
  have hstored : ∀ q, storedBy q (es ++ [.started p (s.registry.latestCallID + 1)]) = storedBy q es := fun q ↦ by
    rw [storedBy_append]
    exact List.append_nil _
  have hclosed : ∀ q, closedBy q (es ++ [.started p (s.registry.latestCallID + 1)]) = closedBy q es := fun q ↦ by
    rw [closedBy_append]
    exact List.append_nil _
  have hframe : ∀ c, s'.registry.frame c = s.registry.frame c := fun c ↦ frame_eq_of_lookup (by rw [hframes])
  -- Every ID in use is an old one, except that of the new call.
  have hids : ∀ {q c}, (s'.phase q).callID = some c →
      q = p ∧ c = s.registry.latestCallID + 1 ∨ q ≠ p ∧ (s.phase q).callID = some c := by
    intro q c hq
    by_cases hqp : q = p
    · rw [hqp, hself] at hq
      exact .inl ⟨hqp, (Option.some.inj hq).symm⟩
    · rw [hother q hqp] at hq
      exact .inr ⟨hqp, hq⟩
  constructor
  · rw [hlatest, hcounted, hnext]
  · intro q c hq
    rw [hcounted]
    obtain ⟨-, rfl⟩ | ⟨-, hq⟩ := hids hq
    · exact hnext.le
    · exact (h.issued hq).trans (Nat.le_succ _)
  · intro q q' c hq hq'
    obtain ⟨rfl, rfl⟩ | ⟨-, hq⟩ := hids hq <;> obtain ⟨rfl, hc⟩ | ⟨-, hq'⟩ := hids hq'
    · rfl
    · exact absurd hq' (hfresh q')
    · exact absurd (hc ▸ hq) (hfresh q)
    · exact h.distinct hq hq'
  · intro q c hq
    rw [hstored, hframe]
    by_cases hqp : q = p
    · rw [hqp, hself] at hq
      obtain rfl := CallPhase.active.inj hq
      rw [hqp, h.unused hp]
      exact frame_of_lookup_none (h.absent fun q' hq' ↦ hfresh q' (CallPhase.callID_active hq'))
    · exact h.own ((hother q hqp).symm.trans hq)
  · intro c
    rw [hframe]
    exact h.held c
  · intro c hc
    rw [hframes]
    refine h.absent fun q hq ↦ hc q ?_
    have hqp : q ≠ p := fun e ↦ by rw [e, hp] at hq; cases hq
    exact (hother q hqp).trans hq
  · intro q hq
    rw [hstored]
    have hqp : q ≠ p := fun e ↦ by rw [e, hself] at hq; cases hq
    exact h.unused ((hother q hqp).symm.trans hq)
  · intro q
    rw [hclosed, hstored, h.closings q]
    by_cases hqp : q = p
    · rw [hqp, hself, hp]
      rfl
    · rw [hother q hqp]

theorem stored (h : s.Inv es) (hp : s.phase p = .active c) (hlen : (s.registry.frame c).length < frameLenLimit)
    (id : UInt64) : Calls.Inv (es ++ [.stored p it id])
      ⟨{ s.registry with iteratorFrames := s.registry.iteratorFrames.insert c (s.registry.frame c ++ [it]) }, s.phase⟩ := by
  have hcounted : callCount (es ++ [.stored p it id]) = callCount es := callCount_append _ _
  have hstored : storedBy p (es ++ [.stored p it id]) = storedBy p es ++ [it] := by
    rw [storedBy_append, CallEvent.storedBy, if_pos rfl]
    rfl
  have hstored' : ∀ q, q ≠ p → storedBy q (es ++ [.stored p it id]) = storedBy q es := fun q hq ↦ by
    rw [storedBy_append, CallEvent.storedBy, if_neg hq.symm]
    exact List.append_nil _
  have hclosed : ∀ q, closedBy q (es ++ [.stored p it id]) = closedBy q es := fun q ↦ by
    rw [closedBy_append]
    exact List.append_nil _
  have hframe' : ∀ {c'}, c' ≠ c → ({ s.registry with
      iteratorFrames := s.registry.iteratorFrames.insert c (s.registry.frame c ++ [it]) } : IteratorRegistry ι).frame c' =
      s.registry.frame c' := fun hc ↦ frame_eq_of_lookup (AList.lookup_insert_ne hc)
  constructor
  · rw [hcounted]; exact h.latest
  · rw [hcounted]; exact h.issued
  · exact h.distinct
  · intro q c' hq
    by_cases hqp : q = p
    · rw [hqp] at hq
      obtain rfl := CallPhase.active.inj (hq.symm.trans hp)
      rw [hqp, hstored, ← h.own hp]
      exact frame_insert_self _
    · have hc : c' ≠ c := fun e ↦
        hqp (h.distinct (CallPhase.callID_active hq) (e ▸ CallPhase.callID_active hp))
      rw [hstored' q hqp, ← h.own hq]
      exact hframe' hc
  · intro c'
    by_cases hc : c' = c
    · rw [hc]
      refine (congrArg List.length (frame_insert_self _)).trans_le ?_
      rw [List.length_append]
      exact hlen
    · exact (congrArg List.length (hframe' hc)).trans_le (h.held c')
  · intro c' hc
    have hne : c' ≠ c := fun e ↦ hc p (e ▸ hp)
    exact (AList.lookup_insert_ne hne).trans (h.absent hc)
  · intro q hq
    have hqp : q ≠ p := fun e ↦ by rw [e] at hq; rw [hp] at hq; cases hq
    rw [hstored' q hqp]
    exact h.unused hq
  · intro q
    rw [hclosed, h.closings q]
    by_cases hqp : q = p
    · rw [hqp]
      change (s.phase p).closes _ = (s.phase p).closes _
      rw [hp]
      rfl
    · rw [hstored' q hqp]

theorem ended (h : s.Inv es) (hp : s.phase p = .active c) (hlatest : s'.registry.latestCallID = s.registry.latestCallID)
    (hframes : s'.registry.iteratorFrames = s.registry.iteratorFrames.erase c)
    (hself : s'.phase p = .ended c) (hother : ∀ q, q ≠ p → s'.phase q = s.phase q) :
    s'.Inv (es ++ [.ended p (s.registry.frame c)]) := by
  have hcounted : callCount (es ++ [.ended p (s.registry.frame c)]) = callCount es := callCount_append _ _
  have hstored : ∀ q, storedBy q (es ++ [.ended p (s.registry.frame c)]) = storedBy q es := fun q ↦ by
    rw [storedBy_append]
    exact List.append_nil _
  have hids : ∀ q, (s'.phase q).callID = (s.phase q).callID := by
    intro q
    by_cases hqp : q = p
    · rw [hqp, hself, hp]
      rfl
    · rw [hother q hqp]
  have hframe' : ∀ {c'}, c' ≠ c → s'.registry.iteratorFrames.lookup c' = s.registry.iteratorFrames.lookup c' := fun hc ↦ by
    rw [hframes]
    exact AList.lookup_erase_ne hc
  have hgone : s'.registry.iteratorFrames.lookup c = none := by
    rw [hframes]
    exact AList.lookup_erase c _
  constructor
  · rw [hcounted, hlatest]; exact h.latest
  · intro q c'; rw [hcounted, hids]; exact h.issued
  · intro q q' c'; rw [hids, hids]; exact h.distinct
  · intro q c' hq
    have hqp : q ≠ p := fun e ↦ by rw [e, hself] at hq; cases hq
    rw [hother q hqp] at hq
    have hc : c' ≠ c := fun e ↦
      hqp (h.distinct (CallPhase.callID_active hq) (e ▸ CallPhase.callID_active hp))
    rw [hstored, ← h.own hq]
    exact frame_eq_of_lookup (hframe' hc)
  · intro c'
    by_cases hc : c' = c
    · rw [hc, frame_of_lookup_none hgone]
      exact Nat.zero_le _
    · rw [frame_eq_of_lookup (hframe' hc)]
      exact h.held c'
  · intro c' hc'
    by_cases hc : c' = c
    · rw [hc, hgone]
    · rw [hframe' hc]
      refine h.absent fun q hq ↦ hc' q ?_
      have hqp : q ≠ p := fun e ↦ hc (CallPhase.active.inj (hq.symm.trans (e ▸ hp)))
      exact (hother q hqp).trans hq
  · intro q hq
    have hqp : q ≠ p := fun e ↦ by rw [e, hself] at hq; cases hq
    rw [hstored]
    exact h.unused ((hother q hqp).symm.trans hq)
  · intro q
    rw [closedBy_append, hstored, h.closings q]
    by_cases hqp : q = p
    · rw [hqp, hself, hp, CallEvent.closedBy, if_pos rfl, ← h.own hp]
      rfl
    · rw [hother q hqp, CallEvent.closedBy, if_neg (Ne.symm hqp), List.append_nil]

theorem step {a : CallAction P ι} {e : CallEvent P ι} (h : s.Inv es) (hstep : s.Stepped a e s')
    (hcount : callCount (es ++ [e]) < 2 ^ 64) : s'.Inv (es ++ [e]) := by
  cases hstep with
  | started hp =>
    rw [callCount_append] at hcount
    exact h.started hp hcount rfl rfl (Function.update_self ..) fun q hq ↦ Function.update_of_ne hq ..
  | stored hp hlen => exact h.stored hp hlen _
  | refused hp hlen => exact h.of_silent rfl (fun _ ↦ rfl) fun _ ↦ rfl
  | retrieved hp => exact h.of_silent rfl (fun _ ↦ rfl) fun _ ↦ rfl
  | ended hp => exact h.ended hp rfl rfl (Function.update_self ..) fun q hq ↦ Function.update_of_ne hq ..

end Calls.Inv

theorem Calls.Run.inv {es : List (CallEvent P ι)} {s : Calls P ι} (h : Calls.Run es s) (hcount : callCount es < 2 ^ 64) :
    s.Inv es := by
  induction h with
  | init => exact .init
  | step hrun hstep ih =>
    have hle := callCount_append _ _ ▸ hcount
    exact (ih (Nat.lt_of_le_of_lt (Nat.le_add_right _ _) hle)).step (Calls.stepped hstep) hcount

/-- The registry as its callers may see it after the log, and after one more step. -/
structure Calls.Exact (es : List (CallEvent P ι)) (s : Calls P ι) : Prop where
  distinct {p q : P} {c : UInt64} : (s.phase p).callID = some c → (s.phase q).callID = some c → p = q
  numbered {p : P} {it : ι} {id : UInt64} {s' : Calls P ι} :
    s.step (.storeIterator p it) = some (.stored p it id, s') → id.toNat = (storedBy p es).length + 1
  retrieves {p : P} {c : UInt64} : s.phase p = .active c → ∀ i, s.registry.retrieveIterator c i = nth (storedBy p es) i
  retrieves_none {c : UInt64} : (∀ p, s.phase p ≠ .active c) → ∀ i, s.registry.retrieveIterator c i = none
  undisturbed {a : CallAction P ι} {e : CallEvent P ι} {s' : Calls P ι} {q : P} {c : UInt64} :
    s.step a = some (e, s') → a.call ≠ q → s.phase q = .active c →
      ∀ i, s'.registry.retrieveIterator c i = s.registry.retrieveIterator c i
  held {c : UInt64} {frame : List ι} : s.registry.iteratorFrames.lookup c = some frame → frame.length ≤ frameLenLimit
  closes {p : P} {e : CallEvent P ι} {s' : Calls P ι} : s.step (.endCall p) = some (e, s') → e = .ended p (storedBy p es)
  closed (p : P) : closedBy p es = (s.phase p).closes (storedBy p es)
  empties : (∀ p c, s.phase p ≠ .active c) → s.registry.iteratorFrames = ∅

theorem retrieveIterator_congr {r r' : IteratorRegistry ι} {c : UInt64} (h : r'.frame c = r.frame c) (i : UInt64) :
    r'.retrieveIterator c i = r.retrieveIterator c i := by
  unfold IteratorRegistry.retrieveIterator
  rw [h]

/-- A step of one call leaves the frames of the others alone. -/
theorem Calls.Inv.frame_undisturbed {es : List (CallEvent P ι)} {s s' : Calls P ι} {a : CallAction P ι} {e : CallEvent P ι}
    {q : P} {c : UInt64} (h : s.Inv es) (hstep : s.Stepped a e s') (ha : a.call ≠ q) (hq : s.phase q = .active c) :
    s'.registry.frame c = s.registry.frame c := by
  have hne : ∀ {p c'}, s.phase p = .active c' → p ≠ q → c ≠ c' := fun hp hpq hc ↦
    hpq (h.distinct (CallPhase.callID_active hp) (hc ▸ CallPhase.callID_active hq))
  cases hstep with
  | started hp => rfl
  | stored hp hlen => exact frame_eq_of_lookup (AList.lookup_insert_ne (hne hp ha))
  | refused hp hlen => rfl
  | retrieved hp => rfl
  | ended hp => exact frame_eq_of_lookup (AList.lookup_erase_ne (hne hp ha))

/-- In every interleaving of fewer than 2^64 calls each call sees its own iterators and nothing else. -/
theorem registry_exact {es : List (CallEvent P ι)} {s : Calls P ι} (h : Calls.Run es s) (hcount : callCount es < 2 ^ 64) :
    s.Exact es := by
  have hinv := h.inv hcount
  constructor
  · exact hinv.distinct
  · intro p it id s' hstep
    cases Calls.stepped hstep with
    | stored hp hlen => rw [toNat_iteratorID hlen, hinv.own hp]
  · intro p c hp i
    rw [retrieveIterator_eq (hinv.held c), hinv.own hp]
  · intro c hc i
    rw [retrieveIterator_eq (hinv.held c), frame_of_lookup_none (hinv.absent hc)]
    unfold nth
    split <;> rfl
  · intro a e s' q c hstep ha hq
    exact retrieveIterator_congr (hinv.frame_undisturbed (Calls.stepped hstep) ha hq)
  · intro c frame hframe
    have hlen := hinv.held c
    unfold IteratorRegistry.frame at hlen
    rw [hframe] at hlen
    exact hlen
  · intro p e s' hstep
    cases Calls.stepped hstep with
    | ended hp => rw [hinv.own hp]
  · exact hinv.closings
  · intro hidle
    exact iteratorFrames_eq_empty fun c ↦ hinv.absent fun p ↦ hidle p c

end Interleaving

/-- Two calls side by side; the first ends while the second still holds an iterator. -/
theorem registry_exact_two_calls : ∃ es, ∃ s : Calls Bool Nat, callCount es = 2 ∧ s.phase false = .active 2 ∧ s.Exact es := by
  have hrun := Calls.Run.init (P := Bool) (ι := Nat)
  have hrun := hrun.step (a := .startCall true) rfl
  have hrun := hrun.step (a := .startCall false) rfl
  have hrun := hrun.step (a := .storeIterator true 10) rfl
  have hrun := hrun.step (a := .storeIterator false 20) rfl
  have hrun := hrun.step (a := .endCall true) rfl
  exact ⟨_, _, rfl, rfl, registry_exact hrun (by decide)⟩

section Scans

variable {r : IteratorRegistry ι} {c : UInt64} {q : ScanRequest ι}

/-- The iterator the store opens for a scan, whatever becomes of it. -/
def opened (q : ScanRequest ι) : Option ι :=
  match q.gasBefore, q.answer with
  | .ok _, some (.ok it) => some it
  | _, _ => none

/-- The same, if the callback gets as far as handing it to the registry. -/
def handed (q : ScanRequest ι) : Option ι := if q.gasAfter.isOk then opened q else none

/-- The scans of one call, one after the other. -/
def scans (c : UInt64) (qs : List (ScanRequest ι)) (r : IteratorRegistry ι) : IteratorRegistry ι :=
  qs.foldl (fun r q ↦ (cScan c q r).2) r

def openedBy (qs : List (ScanRequest ι)) : List ι := qs.filterMap opened

def handedBy (qs : List (ScanRequest ι)) : List ι := qs.filterMap handed

theorem snd_cScan (c : UInt64) (q : ScanRequest ι) (r : IteratorRegistry ι) : (cScan c q r).2 = (scan c q r).2 := by
  unfold cScan Program.attempt
  cases (scan c q r).1 <;> rfl

theorem snd_buildIterator_bind {α : Type} {it : ι} (f : Except Err IteratorReference → Callback ι α)
    (hf : ∀ x r, (f x r).2 = r) (r : IteratorRegistry ι) :
    ((buildIterator c it >>= f) r).2 = (r.storeIterator c it frameLenLimit).2 := hf _ _

/-- A scan changes the registry by handing its iterator over, if it gets that far. -/
theorem snd_cScan_eq (c : UInt64) (q : ScanRequest ι) (r : IteratorRegistry ι) : (cScan c q r).2 =
    match handed q with
    | some it => (r.storeIterator c it frameLenLimit).2
    | none => r := by
  rw [snd_cScan]
  unfold scan handed opened ScanRequest.openIterator
  rcases q.gasBefore with p | before
  · rcases q.gasAfter with p' | after <;> rfl
  · rcases q.answer with _ | p | it <;> rcases q.gasAfter with p' | after
    · rfl
    · rfl
    · rfl
    · rfl
    · rfl
    · simp only [orPanic, Program.pure_bind]
      refine (snd_buildIterator_bind _ (fun x r ↦ ?_) r).trans rfl
      cases x <;> rfl

theorem frame_storeIterator (r : IteratorRegistry ι) (c : UInt64) (it : ι) (hlen : (r.frame c).length ≤ frameLenLimit) :
    (r.storeIterator c it frameLenLimit).2.frame c = (r.frame c ++ [it]).take frameLenLimit := by
  obtain ⟨hfull, e, h⟩ | ⟨hroom, h⟩ := storeIterator_cases r c it
  · rw [h, List.take_left' (le_antisymm hlen hfull)]
  · rw [h, List.take_of_length_le (by rw [List.length_append]; exact hroom)]
    exact frame_insert_self _

/-- What the limit has cut off it would also cut off later. -/
theorem take_take_append (n : Nat) (l l' : List ι) : (l.take n ++ l').take n = (l ++ l').take n := by
  rw [List.take_append, List.take_append, List.take_take, Nat.min_self, List.length_take]
  congr 2
  omega

/-- The registry keeps the iterators it is handed, up to the limit. -/
theorem frame_scans (c : UInt64) (qs : List (ScanRequest ι)) (r : IteratorRegistry ι)
    (hlen : (r.frame c).length ≤ frameLenLimit) :
    (scans c qs r).frame c = (r.frame c ++ handedBy qs).take frameLenLimit := by
  induction qs generalizing r with
  | nil =>
    rw [handedBy, List.filterMap_nil, List.append_nil, List.take_of_length_le hlen]
    rfl
  | cons q qs ih =>
    change (scans c qs (cScan c q r).2).frame c = _
    rw [snd_cScan_eq]
    unfold handedBy
    cases hq : handed q with
    | none =>
      rw [List.filterMap_cons_none hq]
      exact ih r hlen
    | some it =>
      have hframe := frame_storeIterator r c it hlen
      rw [List.filterMap_cons_some hq]
      refine (ih _ (hframe ▸ List.length_take_le ..)).trans ?_
      rw [hframe, take_take_append, List.append_assoc]
      rfl

theorem handedBy_sublist (qs : List (ScanRequest ι)) : (handedBy qs).Sublist (openedBy qs) := by
  induction qs with
  | nil => exact .refl _
  | cons q qs ih =>
    unfold handedBy openedBy at ih ⊢
    rw [List.filterMap_cons, List.filterMap_cons, handed]
    rcases opened q with _ | it <;> rcases q.gasAfter with p | after
    · exact ih
    · exact ih
    · exact ih.cons it
    · exact ih.cons_cons it

theorem length_handedBy_eq_iff (qs : List (ScanRequest ι)) :
    (handedBy qs).length = (openedBy qs).length ↔ ∀ q ∈ qs, (opened q).isSome → q.gasAfter.isOk := by
  induction qs with
  | nil => exact iff_of_true rfl nofun
  | cons q qs ih =>
    have hle := (handedBy_sublist qs).length_le
    rw [List.forall_mem_cons, ← ih]
    unfold handedBy openedBy at hle ⊢
    rw [List.filterMap_cons, List.filterMap_cons, handed]
    rcases opened q with _ | it <;> rcases q.gasAfter with p | after
    · exact (and_iff_right nofun).symm
    · exact (and_iff_right nofun).symm
    · refine iff_of_false (fun h ↦ ?_) fun h ↦ Bool.false_ne_true (h.1 rfl)
      have : (List.filterMap handed qs).length = (List.filterMap opened qs).length + 1 := h
      omega
    · exact Nat.succ_inj.trans (and_iff_right fun _ ↦ rfl).symm

theorem closed_eq (hc : r.iteratorFrames.lookup c = none) (qs : List (ScanRequest ι)) :
    ((scans c qs r).endCall c).1 = (handedBy qs).take frameLenLimit := by
  have hempty := frame_of_lookup_none hc
  refine (frame_scans c qs r (by rw [hempty]; exact Nat.zero_le _)).trans ?_
  rw [hempty, List.nil_append]

/-- Every iterator the store opens in a call is closed once when the call ends, unless the registry refuses it or
the gas meter panics before it is handed over. -/
theorem closed_perm_opened_iff {c : UInt64} {r : IteratorRegistry ι} (hc : r.iteratorFrames.lookup c = none)
    (qs : List (ScanRequest ι)) : ((scans c qs r).endCall c).1.Perm (openedBy qs) ↔
      (openedBy qs).length ≤ frameLenLimit ∧ ∀ q ∈ qs, (opened q).isSome → q.gasAfter.isOk := by
  have hle := (handedBy_sublist qs).length_le
  rw [closed_eq hc, ← length_handedBy_eq_iff]
  constructor
  · intro hperm
    have hlen := hperm.length_eq
    rw [List.length_take] at hlen
    constructor <;> omega
  · rintro ⟨hlimit, hlen⟩
    rw [List.take_of_length_le (hlen.trans_le hlimit)]
    exact (handedBy_sublist qs).eq_of_length hlen ▸ .refl _

/-- A scan for which the store opens its `n`-th iterator. -/
def scanOf (n : Nat) : ScanRequest Nat := ⟨1, .ok 0, .ok n, .ok n, .ok 0⟩

theorem closed_perm_opened_two : ((scans 1 [scanOf 0, scanOf 1] {}).endCall 1).1.Perm (openedBy [scanOf 0, scanOf 1]) := by
  refine (closed_perm_opened_iff rfl _).2 ⟨by decide, fun q hq _ ↦ ?_⟩
  rw [List.mem_pair] at hq
  obtain rfl | rfl := hq <;> rfl

/-- One scan more than a frame has room for. -/
def tooManyScans : List (ScanRequest Nat) := (List.range (frameLenLimit + 1)).map scanOf

theorem openedBy_tooManyScans : openedBy tooManyScans = List.range (frameLenLimit + 1) := by
  unfold openedBy tooManyScans
  rw [List.filterMap_map]
  exact List.filterMap_some

theorem handedBy_tooManyScans : handedBy tooManyScans = List.range (frameLenLimit + 1) := by
  unfold handedBy tooManyScans
  rw [List.filterMap_map]
  exact List.filterMap_some

/-- The iterator of the refused scan stays open. -/
theorem refused_scan_leaks : frameLenLimit ∈ openedBy tooManyScans ∧
    frameLenLimit ∉ ((scans 1 tooManyScans {}).endCall 1).1 := by
  rw [closed_eq rfl, openedBy_tooManyScans, handedBy_tooManyScans, List.take_range, List.mem_range, List.mem_range]
  omega

end Scans

end Cosmwasgo.Properties
