import Cosmwasgo.Keeper.Genesis
import Cosmwasgo.Runs.Regime

namespace Cosmwasgo.Runs

open Cosmwasgo.Lib Cosmwasgo.Types Cosmwasgo.State Cosmwasgo.Keeper

variable {X α β : Type} {k : Keeper X}

/-- What holds whenever the program returns, of the state it was started in, its value and the state it leaves. -/
def Ensures (m : M X α) (post : Durable X → α → Durable X → Prop) : Prop :=
  ∀ ⦃w a w'⦄, m w = (.ok a, w') → post (durable w) a (durable w')

def Durable.withVM (d : Durable X) (vm : VMCache) : Durable X := { d with vm }

@[simp] theorem Durable.kv_withVM (d : Durable X) (vm : VMCache) : (d.withVM vm).kv = d.kv := rfl

theorem Writes.ensures {m : M X α} {post : Durable X → α → Durable X → Prop} (h : Writes m post) : Ensures m post :=
  fun w a w' ↦ h.post w a w'

theorem Local.ensures {o : Option AccAddress} {m : M X α} (h : Local o m) : Ensures m fun d _ d' ↦ Quiet o d d' := by
  intro w a w' hr
  have hkeeps := (h.keeps w).quiet
  rw [hr] at hkeeps
  exact hkeeps

namespace Ensures

variable {post : Durable X → α → Durable X → Prop}

theorem mono {post' : Durable X → α → Durable X → Prop} {m : M X α} (h : Ensures m post)
    (hp : ∀ d a d', post d a d' → post' d a d') : Ensures m post' := fun _ _ _ hr ↦ hp _ _ _ (h hr)

theorem anything (m : M X α) : Ensures m fun _ _ _ ↦ True := fun _ _ _ _ ↦ trivial

theorem pure (a : α) : Ensures (X := X) (pure a) fun d b d' ↦ b = a ∧ d' = d := (Writes.pure a).ensures

theorem fail (e : Err) : Ensures (Program.fail e : M X α) post := fun _ _ _ hr ↦ by cases hr

theorem raise (p : Panic) : Ensures (Program.raise p : M X α) post := fun _ _ _ hr ↦ by cases hr

theorem bind {m : M X α} {f : α → M X β} {post' : α → Durable X → β → Durable X → Prop} (hm : Ensures m post)
    (hf : ∀ a, Ensures (f a) (post' a)) : Ensures (m >>= f) fun d b d' ↦ ∃ a d₁, post d a d₁ ∧ post' a d₁ b d' := by
  intro w b w' hr
  obtain ⟨a, w₁, hr₁, hr₂⟩ := Program.bind_eq_ok.1 hr
  exact ⟨a, durable w₁, hm hr₁, hf a hr₂⟩

theorem lift (x : Except Err α) : Ensures (X := X) (Program.lift x) fun d a d' ↦ x = .ok a ∧ d' = d := by
  cases x with
  | ok a => exact (pure a).mono fun _ _ _ ⟨ha, hd⟩ ↦ ⟨ha ▸ rfl, hd⟩
  | error e => exact fail e

theorem require (b : Bool) (e : Err) : Ensures (X := X) (Program.require b e) fun d _ d' ↦ b = true ∧ d' = d := by
  cases b with
  | true => exact (pure ()).mono fun _ _ _ ⟨_, hd⟩ ↦ ⟨rfl, hd⟩
  | false => exact fail e

theorem update {f : World X → World X} {g : Durable X → Durable X} (h : ∀ w, durable (f w) = g (durable w)) :
    Ensures (Program.update f) fun d _ d' ↦ d' = g d := by
  intro w _ w' hr
  cases hr
  exact h w

theorem emitEvents (es : List Event) : Ensures (X := X) (Keeper.emitEvents es) fun d _ d' ↦ d' = d :=
  update (g := fun d ↦ d) fun _ ↦ rfl

theorem observe (o : Observation X) : Ensures (Keeper.observe o) fun d _ d' ↦ d' = d :=
  update (g := fun d ↦ d) fun _ ↦ rfl

theorem wrapErr {m : M X α} (h : Ensures m post) (desc : String) : Ensures (Keeper.wrapErr m desc) post :=
  fun _ _ _ hr ↦ h (wrapErr_eq_ok.1 hr)

/-- Nothing of what is run in a cached context stays, as long as the VM is left alone. -/
theorem discarding {m : M X α} (h : Ensures m post) (hvm : ∀ d a d', post d a d' → d'.vm = d.vm) :
    Ensures (Keeper.discarding m) fun d a d' ↦ (∃ d₁, post d a d₁) ∧ d' = d := by
  intro w a w' hr
  rcases hrun : m { w with events := [] } with ⟨r, w₁⟩
  unfold Keeper.discarding at hr
  rw [hrun] at hr
  obtain ⟨rfl, rfl⟩ := Prod.mk.inj hr
  have hpost := h hrun
  refine ⟨⟨_, hpost⟩, ?_⟩
  have hvm := hvm _ _ _ hpost
  change (⟨w.store, w₁.vm⟩ : Durable X) = ⟨w.store, w.vm⟩
  rw [Durable.mk.injEq]
  exact ⟨rfl, hvm⟩

theorem vmStoreCodeUnchecked (code : Bytes) : Ensures (Keeper.vmStoreCodeUnchecked k code) fun d checksum d' ↦
    k.wasmVM.checkUnchecked code = .ok () ∧ checksum = k.wasmVM.checksum code ∧
      d' = d.withVM { d.vm with codes := d.vm.codes.set checksum code } := by
  unfold Keeper.vmStoreCodeUnchecked
  rcases hcheck : k.wasmVM.checkUnchecked code with e | ⟨⟨⟩⟩
  · exact fail _
  · refine ((update (g := fun d ↦ d.withVM { d.vm with codes := d.vm.codes.set (k.wasmVM.checksum code) code })
      fun _ ↦ rfl).bind fun _ ↦ pure _).mono ?_
    rintro d _ d' ⟨_, _, rfl, rfl, rfl⟩
    exact ⟨rfl, rfl, rfl⟩

theorem importCode (codeID : UInt64) (info : CodeInfo) (wasmCode : Bytes) :
    Ensures (Keeper.importCode k codeID info wasmCode) fun d _ d' ↦ ∃ code, info.codeHash = k.wasmVM.checksum code ∧
      d.kv.get (getCodeKey codeID) = none ∧
      d' = (d.withVM { d.vm with codes := d.vm.codes.set info.codeHash code }).withKV
        (d.kv.set (getCodeKey codeID) (.codeInfo info)) := by
  refine ((lift _).bind fun code ↦ (vmStoreCodeUnchecked code).bind fun _ ↦ (require _ _).bind fun _ ↦
    (Writes.hasKV k _).ensures.bind fun _ ↦ (require _ _).bind fun _ ↦ (Writes.setKV k _ _).ensures).mono ?_
  rintro d _ d' ⟨code, _, ⟨-, rfl⟩, _, _, ⟨-, rfl, rfl⟩, _, _, ⟨hhash, rfl⟩, _, _, ⟨rfl, rfl⟩, _, _, ⟨hfree, rfl⟩, rfl⟩
  have hhash := of_decide_eq_true hhash
  exact ⟨code, hhash, by simpa using hfree, by rw [hhash]; rfl⟩

theorem pinCode (codeID : UInt64) : Ensures (Keeper.pinCode k codeID) fun d _ d' ↦ ∃ info,
    d.kv.get (getCodeKey codeID) = some (.codeInfo info) ∧
    d' = (d.withVM { d.vm with pinned := info.codeHash :: d.vm.pinned }).withKV
      (d.kv.set (getPinnedCodeIndexPrefix codeID) (.bytes [1])) := by
  refine ((Writes.getCodeInfo k codeID).ensures.bind fun r ↦ (?_ : Ensures _ fun d _ d' ↦ ∃ info, r = some info ∧
    d' = (d.withVM { d.vm with pinned := info.codeHash :: d.vm.pinned }).withKV
      (d.kv.set (getPinnedCodeIndexPrefix codeID) (.bytes [1])))).mono ?_
  · cases r with
    | none => exact fail _
    | some info =>
      have hread : Ensures (Program.read fun w : World X ↦ (w.vm.codes.get info.codeHash).isSome) fun d _ d' ↦ d' = d :=
        fun _ _ _ hr ↦ by cases hr; rfl
      have hpin : Ensures (Program.update fun w : World X ↦
          { w with vm := { w.vm with pinned := info.codeHash :: w.vm.pinned } }) fun d _ d' ↦
          d' = d.withVM { d.vm with pinned := info.codeHash :: d.vm.pinned } := update fun _ ↦ rfl
      refine (hread.bind fun _ ↦ (require _ _).bind fun _ ↦ hpin.bind fun _ ↦ (Writes.setKV k _ _).ensures.bind fun _ ↦
        emitEvents _).mono ?_
      rintro d _ d' ⟨_, _, rfl, _, _, ⟨-, rfl⟩, _, _, rfl, _, _, rfl, rfl⟩
      exact ⟨info, rfl, rfl⟩
  · rintro d _ d' ⟨_, _, ⟨rfl, hget⟩, info, rfl, rfl⟩
    exact ⟨info, hget, rfl⟩

theorem getParams : Ensures (Keeper.getParams k) fun d p d' ↦ d.kv.get paramsKey = some (.params p) ∧ d' = d := by
  intro w p w' hr
  obtain ⟨v, w₁, hv, hr⟩ := Program.bind_eq_ok.1 hr
  obtain ⟨rfl, hd⟩ := (Writes.getKV k paramsKey).ensures hv
  rcases hget : (durable w).kv.get paramsKey with _ | v <;> rw [hget] at hr
  · cases hr
  · cases v with
    | params q =>
      cases hr
      exact ⟨rfl, hd⟩
    | _ => cases hr

/-- Only what was decided goes on record. -/
theorem authorize (c : Ctx) (p : AuthorizationPolicy) (decision : Except Panic Bool) (e : Err) :
    Ensures (X := X) (Keeper.authorize c p decision e) fun d _ d' ↦ d' = d := by
  intro w _ w' hr
  obtain ⟨_, w₁, hobserve, hr⟩ := Program.bind_eq_ok.1 hr
  cases hobserve
  obtain ⟨b, w₂, hdecision, hr⟩ := Program.bind_eq_ok.1 hr
  obtain ⟨-, rfl⟩ := liftPanic_eq_ok.1 hdecision
  obtain ⟨-, rfl⟩ := Program.require_eq_ok.1 hr
  rfl

theorem newAddress {gen : AddressGenerator X} {codeID : UInt64} {checksum : Bytes}
    {post : Durable X → AccAddress → Durable X → Prop} (hgen : Ensures (gen codeID checksum) post) :
    Ensures (Keeper.newAddress k gen codeID checksum) fun d r d' ↦
      post d r.1 d' ∧ r.2 = (d'.kv.get (getContractAddressKey r.1)).isSome := by
  intro w r w' hr
  obtain ⟨a, w₁, haddr, hr⟩ := Program.bind_eq_ok.1 hr
  obtain ⟨taken, w₂, hhas, hr⟩ := Program.bind_eq_ok.1 hr
  obtain ⟨_, w₃, hobserve, hr⟩ := Program.bind_eq_ok.1 hr
  cases hobserve
  cases hr
  obtain ⟨htaken, hd⟩ := (Writes.hasKV k _).ensures hhas
  change post (durable w) a (durable w₂) ∧ taken = ((durable w₂).kv.get (getContractAddressKey a)).isSome
  rw [hd]
  exact ⟨hgen haddr, htaken⟩

end Ensures

end Cosmwasgo.Runs
