import Cosmwasgo.Keeper.Snapshotter
import Cosmwasgo.Runs.Ensures

namespace Cosmwasgo.Runs

open Cosmwasgo.Lib Cosmwasgo.Types Cosmwasgo.State Cosmwasgo.Keeper

variable {X α β σ : Type} {k : Keeper X}

/-- With an infinite meter the program returns the value and leaves this state behind. Genesis and snapshots are run
so. -/
def Unmetered (m : M X α) (d : Durable X) (a : α) (d' : Durable X) : Prop :=
  ∀ w, durable w = d → w.meter.infinite = true →
    ∃ w', m w = (.ok a, w') ∧ durable w' = d' ∧ w'.meter.infinite = true

/-- Without a limit on gas a step of another module ends as the module says. -/
theorem external_of_infinite {w : World X} (f : X → ExtStep X α) (hi : w.meter.infinite = true) :
    ∃ w', external f w = ((f w.store.ext).result, w') ∧
      durable w' = { durable w with store := { w.store with ext := (f w.store.ext).state } } ∧ w'.meter.infinite = true := by
  let w₁ : World X :=
    { w with store := { w.store with ext := (f w.store.ext).state }, events := w.events ++ (f w.store.ext).events }
  have hgas : consumeGas (f w.store.ext).gas "external" w₁ =
      (.ok (), { w₁ with meter := { w.meter with consumed := w.meter.consumed + (f w.store.ext).gas } }) := by
    simp only [consumeGas, GasMeter.consume, hi, w₁, if_true]
  exact ⟨_, Program.bind_of_ok _ hgas, rfl, hi⟩

namespace Unmetered

variable {d d₁ d₂ : Durable X}

theorem pure (a : α) (d : Durable X) : Unmetered (pure a) d a d := fun w hw hi ↦ ⟨w, rfl, hw, hi⟩

theorem bind {m : M X α} {f : α → M X β} {a : α} {b : β} (hm : Unmetered m d a d₁) (hf : Unmetered (f a) d₁ b d₂) :
    Unmetered (m >>= f) d b d₂ := by
  intro w hw hi
  obtain ⟨w₁, hm, hw₁, hi₁⟩ := hm w hw hi
  obtain ⟨w₂, hf, hw₂, hi₂⟩ := hf w₁ hw₁ hi₁
  exact ⟨w₂, by rw [Program.bind_of_ok f hm, hf], hw₂, hi₂⟩

theorem read {f : World X → α} {a : α} (h : ∀ w, durable w = d → f w = a) : Unmetered (Program.read f) d a d :=
  fun w hw hi ↦ ⟨w, by rw [Program.read_apply, h w hw], hw, hi⟩

theorem update {f : World X → World X} (h : ∀ w, durable w = d → durable (f w) = d₁)
    (hi : ∀ w, (f w).meter = w.meter) : Unmetered (Program.update f) d () d₁ :=
  fun w hw hw' ↦ ⟨f w, rfl, h w hw, by rw [hi, hw']⟩

theorem require {b : Bool} (h : b = true) (e : Err) (d : Durable X) : Unmetered (Program.require b e) d () d := by
  subst h
  exact .pure () d

theorem lift {x : Except Err α} {a : α} (h : x = .ok a) (d : Durable X) : Unmetered (Program.lift x) d a d := by
  subst h
  exact .pure a d

theorem liftPanic {x : Except Panic α} {a : α} (h : x = .ok a) (d : Durable X) :
    Unmetered (Keeper.liftPanic x) d a d := by
  subst h
  exact .pure a d

theorem consumeGas (amount : Gas) (descriptor : String) (d : Durable X) :
    Unmetered (Keeper.consumeGas amount descriptor) d () d := by
  intro w hw hi
  refine ⟨{ w with meter := { w.meter with consumed := w.meter.consumed + amount } }, ?_, hw, hi⟩
  simp only [Keeper.consumeGas, GasMeter.consume, hi, if_true]

theorem emitEvents (es : List Event) (d : Durable X) : Unmetered (Keeper.emitEvents es) d () d :=
  .update (fun _ hw ↦ hw) fun _ ↦ rfl

theorem assertValidKey {key : Bytes} (h : key ≠ []) (d : Durable X) : Unmetered (Keeper.assertValidKey key) d () d := by
  unfold Keeper.assertValidKey
  rw [if_neg h]
  exact .pure () d

theorem getKV {key : Bytes} (h : key ≠ []) (d : Durable X) : Unmetered (Keeper.getKV k key) d (d.kv.get key) d := by
  refine (assertValidKey h d).bind ((read (a := d.kv.get key) ?_).bind ((consumeGas _ _ d).bind (.pure _ d)))
  rintro w rfl
  rfl

theorem hasKV {key : Bytes} (h : key ≠ []) (d : Durable X) : Unmetered (Keeper.hasKV k key) d (d.kv.get key).isSome d := by
  refine (assertValidKey h d).bind ((consumeGas _ _ d).bind (read ?_))
  rintro w rfl
  rfl

theorem setKV {key : Bytes} (h : key ≠ []) (v : Value) (d : Durable X) :
    Unmetered (Keeper.setKV k key v) d () (d.withKV (d.kv.set key v)) := by
  refine (assertValidKey h d).bind ((consumeGas _ _ d).bind (update ?_ fun _ ↦ rfl))
  rintro w rfl
  rfl

theorem deleteKV {key : Bytes} (h : key ≠ []) (d : Durable X) :
    Unmetered (Keeper.deleteKV k key) d () (d.withKV (d.kv.delete key)) := by
  refine (assertValidKey h d).bind ((consumeGas _ _ d).bind (update ?_ fun _ ↦ rfl))
  rintro w rfl
  rfl

theorem iterateKV (head : Bytes) (d : Durable X) : Unmetered (Keeper.iterateKV k head) d (d.kv.scan head) d := by
  refine (read (a := d.kv.scan head) ?_).bind ((consumeGas _ _ d).bind (.pure _ d))
  rintro w rfl
  rfl

theorem attempt {m : M X α} {f : Outcome Err Panic α → M X β} {a : α} {b : β} (hm : Unmetered m d a d₁)
    (hf : Unmetered (f (.ok a)) d₁ b d₂) : Unmetered (m.attempt f) d b d₂ := by
  intro w hw hi
  obtain ⟨w₁, hm, hw₁, hi₁⟩ := hm w hw hi
  obtain ⟨w₂, hf, hw₂, hi₂⟩ := hf w₁ hw₁ hi₁
  refine ⟨w₂, ?_, hw₂, hi₂⟩
  unfold Program.attempt
  rw [hm]
  exact hf

theorem wrapErr {m : M X α} {a : α} (hm : Unmetered m d a d₁) (desc : String) : Unmetered (Keeper.wrapErr m desc) d a d₁ :=
  hm.attempt (.pure a d₁)

theorem external {f : X → ExtStep X α} {a : α} (h : (f d.store.ext).result = .ok a) :
    Unmetered (Keeper.external f) d a { d with store := { d.store with ext := (f d.store.ext).state } } := by
  rintro w rfl hi
  obtain ⟨w', hrun, hd, hi'⟩ := external_of_infinite f hi
  exact ⟨w', hrun.trans (congrArg (·, w') h), hd, hi'⟩

theorem getContractInfo {a : AccAddress} {info : ContractInfo}
    (h : d.kv.get (getContractAddressKey a) = some (.contractInfo info)) :
    Unmetered (Keeper.getContractInfo k a) d (some info) d := by
  refine (getKV (k := k) (by simp [getContractAddressKey, contractKeyPrefix]) d).bind ?_
  rw [h]
  exact .pure _ d

theorem getCodeInfo {codeID : UInt64} {info : CodeInfo} (h : d.kv.get (getCodeKey codeID) = some (.codeInfo info)) :
    Unmetered (Keeper.getCodeInfo k codeID) d (some info) d := by
  refine (getKV (k := k) (by simp [getCodeKey, codeKeyPrefix]) d).bind ?_
  rw [h]
  exact .pure _ d

theorem getByteCode {codeID : UInt64} {info : CodeInfo} {code : Bytes}
    (hinfo : d.kv.get (getCodeKey codeID) = some (.codeInfo info)) (hcode : d.vm.codes.get info.codeHash = some code) :
    Unmetered (Keeper.getByteCode k codeID) d code d := by
  refine (getKV (k := k) (by simp [getCodeKey, codeKeyPrefix]) d).bind ?_
  rw [hinfo]
  refine bind (a := some code) (.read ?_) (.pure code d)
  rintro w rfl
  exact hcode

theorem vmStoreCodeUnchecked {code : Bytes} (h : k.wasmVM.checkUnchecked code = .ok ()) (d : Durable X) :
    Unmetered (Keeper.vmStoreCodeUnchecked k code) d (k.wasmVM.checksum code)
      { d with vm := { d.vm with codes := d.vm.codes.set (k.wasmVM.checksum code) code } } := by
  have hset : Unmetered (Program.update fun w : World X ↦
      { w with vm := { w.vm with codes := w.vm.codes.set (k.wasmVM.checksum code) code } }) d ()
      { d with vm := { d.vm with codes := d.vm.codes.set (k.wasmVM.checksum code) code } } := by
    refine update ?_ fun _ ↦ rfl
    rintro w rfl
    rfl
  unfold Keeper.vmStoreCodeUnchecked
  rw [h]
  exact hset.bind (.pure _ _)

/-- What holds whenever the program returns holds of this run. -/
theorem ensures {m : M X α} {a : α} {post : Durable X → α → Durable X → Prop} (h : Unmetered m d a d₁)
    (hpost : Ensures m post) : post d a d₁ := by
  obtain ⟨w', hrun, rfl, -⟩ := h { store := d.store, vm := d.vm, meter := ⟨0, 0, true⟩ } rfl rfl
  exact hpost hrun

theorem discarding {m : M X α} {a : α} (h : Unmetered m d a d₁) (hvm : d₁.vm = d.vm) :
    Unmetered (Keeper.discarding m) d a d := by
  rintro w rfl hi
  obtain ⟨w', hrun, rfl, hi'⟩ := h { w with events := [] } rfl hi
  refine ⟨{ w' with store := w.store, events := w.events }, ?_, ?_, hi'⟩
  · unfold Keeper.discarding
    rw [hrun]
  · change (⟨w.store, w'.vm⟩ : Durable X) = ⟨w.store, w.vm⟩
    rw [show w'.vm = w.vm from hvm]

theorem incUint64 {n : UInt64} (h : n.toNat + 1 < 2 ^ 64) (d : Durable X) : Unmetered (Keeper.incUint64 n) d (n + 1) d := by
  unfold Keeper.incUint64
  rw [if_pos h]
  exact .pure _ d

theorem getParams {p : Params} (h : d.kv.get paramsKey = some (.params p)) : Unmetered (Keeper.getParams k) d p d := by
  refine (getKV (k := k) (by simp [paramsKey]) d).bind ?_
  rw [h]
  exact .pure p d

theorem peekAutoIncrementID {key : Bytes} (hkey : key ≠ []) {n : UInt64} (h : parseSequence (d.kv.get key) = .ok n) :
    Unmetered (Keeper.peekAutoIncrementID k key) d n d := (getKV hkey d).bind (liftPanic h d)

theorem pinCode {codeID : UInt64} {info : CodeInfo} (hinfo : d.kv.get (getCodeKey codeID) = some (.codeInfo info))
    (hcode : (d.vm.codes.get info.codeHash).isSome) :
    Unmetered (Keeper.pinCode k codeID) d () ((d.withVM { d.vm with pinned := info.codeHash :: d.vm.pinned }).withKV
      (d.kv.set (getPinnedCodeIndexPrefix codeID) (.bytes [1]))) := by
  have hstored : ∀ w : World X, durable w = d → (w.vm.codes.get info.codeHash).isSome = true := by
    rintro w rfl
    exact hcode
  have hpin : Unmetered (Program.update fun w : World X ↦
      { w with vm := { w.vm with pinned := info.codeHash :: w.vm.pinned } }) d ()
      (d.withVM { d.vm with pinned := info.codeHash :: d.vm.pinned }) := by
    refine update ?_ fun _ ↦ rfl
    rintro w rfl
    rfl
  have hmark : getPinnedCodeIndexPrefix codeID ≠ [] := by simp [getPinnedCodeIndexPrefix, pinnedCodeIndexPrefix]
  refine (getCodeInfo hinfo).bind ((read hstored).bind ((require rfl _ d).bind (hpin.bind ?_)))
  exact (setKV hmark _ _).bind (emitEvents _ _)

/-- The loop of an iterator over entries that decode, with a callback that does not stop it. -/
theorem visitEntries_cons {decode : Bytes × Value → Except Panic β} {cb : σ → β → M X (σ × Bool)} {s s₁ s₂ : σ}
    {e : Bytes × Value} {es : List (Bytes × Value)} {b : β} (hb : decode e = .ok b) (hcb : Unmetered (cb s b) d (s₁, false) d₁)
    (hes : Unmetered (visitEntries decode cb s₁ es) d₁ s₂ d₂) : Unmetered (visitEntries decode cb s (e :: es)) d s₂ d₂ :=
  (liftPanic hb d).bind (hcb.bind hes)

end Unmetered

end Cosmwasgo.Runs
