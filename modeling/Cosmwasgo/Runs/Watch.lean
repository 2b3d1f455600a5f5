import Cosmwasgo.Runs.Roots

namespace Cosmwasgo.Runs

open Cosmwasgo.Lib Cosmwasgo.Types Cosmwasgo.State Cosmwasgo.Keeper MsgServer

variable {X α : Type}

/-- An invariant of the store, and what may go on record at a site while it holds. -/
structure Watch (k : Keeper X) where
  permits : Ctx → Operation → AccAddress → AuthorizationPolicy → Prop
  permits_select : ∀ (c : Ctx) {m : Msg} {op actor}, Performs k m op → k.bech32.fromBech32 m.sender = .ok actor →
    permits (c.push (.message m)) op actor (selectAuthorizationPolicy k (c.push (.message m)) m.sender)
  ports : AccAddress → String → Prop
  ports_own : ∀ {a portID}, OwnPort k a portID → ports a portID
  Inv : Store X → Prop
  Good : Site → Observation X → Prop
  recorded : ∀ {st : Store X} {a info}, Inv st → st.kv.get (getContractAddressKey a) = some (.contractInfo info) →
    ports a info.ibcPortID
  act : ∀ {c d d'}, Act k permits c d d' → Inv d.store → Inv d'.store
  quiet : ∀ {o} {d d' : Durable X}, Quiet o d d' → Inv d.store → Inv d'.store
  claims : ∀ {st : Store X} {codeID a kv}, Claims k st.kv codeID a kv → Inv st → Inv { st with kv }
  authorize : ∀ {s : Site} {p}, Good s (.authorize s.ctx.stack p)
  called : ∀ {c : Ctx}, Good (within c) (.call c.stack)
  addressed : ∀ {s} {st : Store X} {codeID a kv}, Inv st → Claims k st.kv codeID a kv →
    Good s (.address a (st.kv.get (getContractAddressKey a)).isSome)
  acknowledged : ∀ {s} {st : Store X} {a portID channelID sequence packet}, Inv st → ports a portID →
    OpenChannel k portID channelID → st.kv.get (asyncAckKey portID channelID sequence) = some (.packet packet) →
      Good s (.acknowledge a packet st)
  dispatched : ∀ {s o}, IsDispatch o → Good s o
  enter : ∀ {s s' o}, Site.Enters k permits s s' → Good s' o → Good s o

/-- From a store with the invariant a run puts only good things on record, and ends in one when it ends well. -/
def Watch.Rel {k : Keeper X} (W : Watch k) (s : Site) (w : World X) (x : Exit) (w' : World X) : Prop :=
  W.Inv w.store → (x = .ok → W.Inv w'.store) ∧ ∃ added, w'.trace = w.trace ++ added ∧ ∀ o ∈ added, W.Good s o

namespace Watch

variable {k : Keeper X} {W : Watch k} {s : Site} {w w₁ w₂ : World X} {x : Exit}

theorem Rel.silent (ht : w₁.trace = w.trace) (hi : W.Inv w.store → x = .ok → W.Inv w₁.store) : W.Rel s w x w₁ :=
  fun h ↦ ⟨hi h, [], by simp [ht], by simp⟩

theorem Rel.single {o : Observation X} (ht : w₁.trace = w.trace ++ [o]) (ho : W.Inv w.store → W.Good s o)
    (hi : W.Inv w.store → W.Inv w₁.store) : W.Rel s w x w₁ := by
  refine fun h ↦ ⟨fun _ ↦ hi h, [o], ht, fun o' ho' ↦ ?_⟩
  rw [List.mem_singleton.1 ho']
  exact ho h

theorem Rel.trans (h : W.Rel s w .ok w₁) (h' : W.Rel s w₁ x w₂) : W.Rel s w x w₂ := by
  intro hi
  obtain ⟨hi₁, l, ht, hl⟩ := h hi
  obtain ⟨hi₂, l', ht', hl'⟩ := h' (hi₁ rfl)
  refine ⟨hi₂, l ++ l', by rw [ht', ht, List.append_assoc], fun o ho ↦ ?_⟩
  rcases List.mem_append.1 ho with ho | ho
  · exact hl o ho
  · exact hl' o ho

/-- Only the ends of a run, their stores and their records, matter. -/
theorem Rel.congr {v v₁ : World X} {y : Exit} (h : W.Rel s w x w₁) (hs : v.store = w.store) (ht : v.trace = w.trace)
    (ht₁ : v₁.trace = w₁.trace) (hi : W.Inv w.store → (x = .ok → W.Inv w₁.store) → y = .ok → W.Inv v₁.store) :
    W.Rel s v y v₁ := by
  intro hv
  rw [hs] at hv
  obtain ⟨hi₁, l, hl, hg⟩ := h hv
  exact ⟨hi hv hi₁, l, by rw [ht₁, hl, ht], hg⟩

theorem Rel.enter {s' : Site} (he : Site.Enters k W.permits s s') (h : W.Rel s' w x w₁) : W.Rel s w x w₁ := by
  intro hi
  obtain ⟨hi₁, l, ht, hl⟩ := h hi
  exact ⟨hi₁, l, ht, fun o ho ↦ W.enter he (hl o ho)⟩

def regime (W : Watch k) : Regime k where
  rel := W.Rel
  permits := W.permits
  permits_select := W.permits_select
  ports := W.ports
  ports_own := W.ports_own
  recorded hinfo h hi := h (W.recorded hi hinfo) hi
  keeps _ h := .silent h.trace fun hi _ ↦ W.quiet h.quiet hi
  trans := Rel.trans
  weaken h := h.congr rfl rfl rfl fun _ _ hx ↦ nomatch hx
  act h := .silent rfl fun hi _ ↦ W.act h hi
  torn h := .silent h.trace fun _ hx ↦ nomatch hx
  decision _ := .single rfl (fun _ ↦ W.authorize) id
  called := .single rfl (fun _ ↦ W.called) id
  addressed h := .single rfl (fun hi ↦ W.addressed hi h) (W.claims h)
  acknowledged hp hopen hpacket := .single rfl (fun hi ↦ W.acknowledged hi hp hopen hpacket) id
  enter he h := h.enter he
  settle {c m _ _ _} h := (h.enter (.message c m)).congr rfl rfl rfl fun _ _ hx ↦ nomatch hx
  events h := h.congr rfl rfl rfl fun _ h ↦ h
  remeter h _ := h.congr rfl rfl rfl fun _ h ↦ h
  revert h := h.congr rfl rfl rfl fun hi _ _ ↦ hi
  revertMeter h _ := h.congr rfl rfl rfl fun hi _ _ ↦ hi

theorem observes (W : Watch k) : W.regime.Observes := fun ho ↦ .single rfl (fun _ ↦ W.dispatched ho) id

/-- What the empty store has and the regime keeps, every reachable store has. -/
theorem inv_of_reachable {W : Watch k} (hp : W.permits = Anybody) (h₀ : ∀ x, W.Inv (emptyDurable x).store)
    {d : Durable X} (hd : Reachable k d) : W.Inv d.store := by
  refine hd.invariant (P := fun d ↦ W.Inv d.store) h₀ fun {c d d'} h hi ↦ ?_
  cases h with
  | act _ h => exact W.act (hp ▸ h) hi
  | quiet _ h => exact W.quiet h hi

/-- Nothing but what is good goes on record in an operation on a reachable state. -/
theorem added_of_reachable {W : Watch k} (hp : W.permits = Anybody) (h₀ : ∀ x, W.Inv (emptyDurable x).store) {n : Nat}
    {c : Ctx} {m : M X α} {w : World X} (hw : Reachable k (durable w)) (hop : RootOp k n c α m) :
    ∃ added, (m w).2.trace = w.trace ++ added ∧ ∀ o ∈ added, W.Good (before c) o := by
  have hobeys := hop.obeys W.observes (fun _ _ _ _ ↦ by rw [show W.regime.permits = Anybody from hp]; trivial)
  exact (hobeys w (inv_of_reachable hp h₀ hw)).2

end Watch

end Cosmwasgo.Runs
