import Cosmwasgo.Runs.Dispatch

namespace Cosmwasgo.Runs

open Cosmwasgo.Lib Cosmwasgo.Types Cosmwasgo.State Cosmwasgo.Keeper MsgServer Relation

variable {X α : Type} (k : Keeper X) (permits : Ctx → Operation → AccAddress → AuthorizationPolicy → Prop)

/-- What code can do to the cache of the VM. No revert undoes it. -/
inductive CacheStep (vm : VMCache) : VMCache → Prop
  | code {code : Bytes} (h : k.wasmVM.check code = .ok ()) :
      CacheStep vm { vm with codes := vm.codes.set (k.wasmVM.checksum code) code }
  | pins (pinned : List Bytes) : CacheStep vm { vm with pinned }

/-- One change of what outlives a message, made in a context below the given one. -/
inductive Step (c : Ctx) (d : Durable X) : Durable X → Prop
  | act {c' : Ctx} {d' : Durable X} (hc : ReflTransGen (Enters permits) c c') (h : Act k permits c' d d') : Step c d d'
  | quiet {o : Option AccAddress} {d' : Durable X} (hl : ∀ a, o = some a → Live d a) (h : Quiet o d d') : Step c d d'

abbrev Steps (c : Ctx) : Durable X → Durable X → Prop := ReflTransGen (Step k permits c)

variable {k permits} {c c' : Ctx} {d d' : Durable X}

theorem Act.cache (h : Act k permits c d d') : ReflTransGen (CacheStep k) d.vm d'.vm := by
  cases h with
  | cacheCode h => exact .single (.code h)
  | cachePins pinned => exact .single (.pins pinned)
  | _ => exact .refl

theorem steps_of_cache {vm vm' : VMCache} (h : ReflTransGen (CacheStep k) vm vm') (s : Store X) :
    Steps k permits c ⟨s, vm⟩ ⟨s, vm'⟩ := by
  induction h with
  | refl => exact .refl
  | tail _ hstep ih =>
    refine ih.tail (.act .refl ?_)
    cases hstep with
    | code h => exact .cacheCode h
    | pins pinned => exact .cachePins pinned

theorem Step.enter (he : Enters permits c c') (h : Step k permits c' d d') : Step k permits c d d' := by
  cases h with
  | act hc h => exact .act (.head he hc) h
  | quiet hl h => exact .quiet hl h

variable (k permits) in
/-- Every run moves the cache by cache steps, and one that ends well moves the rest by steps. -/
structure Moves (c : Ctx) (w : World X) (x : Exit) (w' : World X) : Prop where
  cache : ReflTransGen (CacheStep k) w.vm w'.vm
  steps : x = .ok → Steps k permits c (durable w) (durable w')

/-- The regime of what happens to the durable state. -/
def stepsRegime (k : Keeper X) (permits : Ctx → Operation → AccAddress → AuthorizationPolicy → Prop)
    (hsel : ∀ (c : Ctx) {m : Msg} {op actor}, Performs k m op → k.bech32.fromBech32 m.sender = .ok actor →
      permits (c.push (.message m)) op actor (selectAuthorizationPolicy k (c.push (.message m)) m.sender)) :
    Regime k where
  rel s := Moves k permits s.ctx
  permits := permits
  permits_select := hsel
  ports _ _ := True
  ports_own _ := trivial
  recorded _ h := h trivial
  keeps {s w x w' o} hl h := by
    have hvm : w'.vm = w.vm := h.quiet.vm
    exact ⟨hvm ▸ .refl, fun _ ↦ .single (.quiet hl h.quiet)⟩
  trans h h' := ⟨h.cache.trans h'.cache, fun hx ↦ (h.steps rfl).trans (h'.steps hx)⟩
  weaken h := ⟨h.cache, nofun⟩
  act h := ⟨h.cache, fun _ ↦ .single (.act .refl h)⟩
  torn h := ⟨h.vm ▸ .refl, nofun⟩
  decision _ := ⟨.refl, fun _ ↦ .refl⟩
  called := ⟨.refl, fun _ ↦ .refl⟩
  addressed h := ⟨.refl, fun _ ↦ by
    cases h with
    | classic hid hlt => exact .single (.act .refl (.nextInstance hid hlt))
    | predictable _ _ _ _ _ => exact .refl⟩
  acknowledged _ _ _ := ⟨.refl, fun _ ↦ .refl⟩
  enter he h := ⟨h.cache, fun hx ↦ ReflTransGen.mono (fun _ _ ↦ Step.enter (enters_of_site he)) _ _ (h.steps hx)⟩
  settle h := ⟨h.cache, nofun⟩
  events h := ⟨h.cache, h.steps⟩
  remeter h _ := ⟨h.cache, h.steps⟩
  revert {s w x w'} h := ⟨h.cache, fun _ ↦ steps_of_cache h.cache w.store⟩
  revertMeter {s w x y w' m₀ m} h _ := ⟨h.cache, fun _ ↦ steps_of_cache h.cache w.store⟩

theorem stepsRegime_observes (hsel) : (stepsRegime k permits hsel).Observes :=
  fun _ ↦ ⟨.refl, fun _ ↦ .refl⟩

/-- What is left of a run at the root: the store is kept only when the run ends well. -/
def committed (m : M X α) (w : World X) : Durable X :=
  match m w with
  | (.ok _, w') => durable w'
  | (_, w') => ⟨w.store, w'.vm⟩

theorem steps_committed {hsel} {m : M X α} (hm : ((stepsRegime k permits hsel).discipline (before c)).Obeys m) (w : World X) :
    Steps k permits c (durable w) (committed m w) := by
  have h : Moves k permits c w (m w).1.exit (m w).2 := hm w
  unfold committed
  rcases hr : m w with ⟨a | e | p | _, w'⟩ <;> rw [hr] at h
  · exact h.steps rfl
  · exact steps_of_cache h.cache w.store
  · exact steps_of_cache h.cache w.store
  · exact steps_of_cache h.cache w.store

end Cosmwasgo.Runs
