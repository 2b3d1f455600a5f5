import Cosmwasgo.Runs.Ensures
import Cosmwasgo.Runs.Roots

namespace Cosmwasgo.Properties

open Cosmwasgo.Lib Cosmwasgo.Types Cosmwasgo.State Cosmwasgo.Keeper Cosmwasgo.Runs

variable {X α : Type} {k : Keeper X}

/-- Operations of the keeper from a given state on, each kept or reverted as a whole. -/
inductive KeeperRun (k : Keeper X) (d : Durable X) : Durable X → Prop
  | start : KeeperRun k d d
  | op {n : Nat} {c : Ctx} {α : Type} {m : M X α} {w : World X} (h : KeeperRun k d (durable w))
      (hop : RootOp k n c α m) : KeeperRun k d (committed m w)
  | outside {d' : Durable X} (h : KeeperRun k d d') (x : X) : KeeperRun k d (d'.withExt x)

theorem KeeperRun.invariant {d : Durable X} {P : Durable X → Prop} (h₀ : P d)
    (hstep : ∀ {c d₁ d₂}, Step k Anybody c d₁ d₂ → P d₁ → P d₂) {d' : Durable X} (h : KeeperRun k d d') : P d' := by
  have hsteps : ∀ {c d₁ d₂}, Steps k Anybody c d₁ d₂ → P d₁ → P d₂ := by
    intro c d₁ d₂ h hd
    induction h with
    | refl => exact hd
    | tail _ h ih => exact hstep h ih
  induction h with
  | start => exact h₀
  | op _ hop ih => exact hsteps (hop.steps _) ih
  | outside _ x ih => exact hstep (c := genesisCtx) (.quiet (by simp) (.withExt _ x)) ih

theorem KeeperRun.once {n : Nat} {c : Ctx} {m : M X α} (hop : RootOp k n c α m) (d : Durable X) :
    KeeperRun k d (committed m (worldOf d)) := by
  refine .op ?_ hop
  rw [durable_worldOf]
  exact .start

/-- The codes of a state with `n` of them: their ids are `1` to `n`, the next one is `n + 1`, and the VM holds each
under the checksum it computes. -/
structure CodeRegistry (k : Keeper X) (n : Nat) (d : Durable X) : Prop where
  fits : n + 1 < 2 ^ 64
  sequence : parseSequence (d.kv.get keySequenceCodeID) = .ok (UInt64.ofNat (n + 1))
  ids : ∀ key : Bytes, key.head? = some 1 →
    ((d.kv.get key).isSome ↔ ∃ i, 1 ≤ i ∧ i ≤ n ∧ key = getCodeKey (UInt64.ofNat i))
  infos : ∀ {id v}, d.kv.get (getCodeKey id) = some v →
    ∃ info, v = .codeInfo info ∧ (d.vm.codes.get info.codeHash).isSome
  held : ∀ {checksum code}, d.vm.codes.get checksum = some code →
    k.wasmVM.checksum code = checksum ∧ k.wasmVM.check code = .ok ()

/-- What later states keep of the code infos of an earlier one. -/
structure InfosKept (d d' : Durable X) : Prop where
  infos : ∀ {id info}, d.kv.get (getCodeKey id) = some (.codeInfo info) →
    ∃ info', d'.kv.get (getCodeKey id) = some (.codeInfo info') ∧ info'.codeHash = info.codeHash ∧
      info'.creator = info.creator

/-- The codes themselves stay, too. -/
structure CodesKept (d d' : Durable X) : Prop extends InfosKept d d' where
  codes : ∀ {checksum code}, d.vm.codes.get checksum = some code → d'.vm.codes.get checksum = some code

theorem InfosKept.of_get {d d' : Durable X} (h : ∀ id, d'.kv.get (getCodeKey id) = d.kv.get (getCodeKey id)) :
    InfosKept d d' := ⟨fun {id info} hget ↦ ⟨info, by rw [h, hget], rfl, rfl⟩⟩

theorem InfosKept.trans {d d₁ d₂ : Durable X} (h : InfosKept d d₁) (h' : InfosKept d₁ d₂) : InfosKept d d₂ := by
  refine ⟨fun hget ↦ ?_⟩
  obtain ⟨info₁, h₁, hhash, hcreator⟩ := h.infos hget
  obtain ⟨info₂, h₂, hhash', hcreator'⟩ := h'.infos h₁
  exact ⟨info₂, h₂, hhash'.trans hhash, hcreator'.trans hcreator⟩

theorem CodesKept.refl (d : Durable X) : CodesKept d d := ⟨.of_get fun _ ↦ rfl, fun h ↦ h⟩

theorem CodesKept.trans {d d₁ d₂ : Durable X} (h : CodesKept d d₁) (h' : CodesKept d₁ d₂) : CodesKept d d₂ :=
  ⟨h.toInfosKept.trans h'.toInfosKept, fun hget ↦ h'.codes (h.codes hget)⟩

/-- The VM's checksums tell the codes it accepts apart, so that no upload replaces another. -/
def DistinctChecksums (k : Keeper X) : Prop := ∀ {a b}, k.wasmVM.check a = .ok () → k.wasmVM.check b = .ok () →
  k.wasmVM.checksum a = k.wasmVM.checksum b → a = b

section Step

variable {n : Nat} {c : Ctx} {d d' : Durable X}

/-- A key the registry of codes reads. -/
def IsCodeKey (key : Bytes) : Prop := key.head? = some 1 ∨ key = keySequenceCodeID

theorem CodeRegistry.congr (h : CodeRegistry k n d) (hkv : ∀ key, IsCodeKey key → d'.kv.get key = d.kv.get key)
    (hvm : d'.vm.codes = d.vm.codes) : CodeRegistry k n d' ∧ InfosKept d d' := by
  refine ⟨⟨h.fits, ?_, fun key hkey ↦ ?_, fun {id v} hget ↦ ?_, fun hget ↦ ?_⟩, .of_get fun id ↦ hkv _ (.inl rfl)⟩
  · rw [hkv _ (.inr rfl)]
    exact h.sequence
  · rw [hkv _ (.inl hkey)]
    exact h.ids key hkey
  · rw [hkv _ (.inl rfl)] at hget
    rw [hvm]
    exact h.infos hget
  · rw [hvm] at hget
    exact h.held hget

theorem getCodeKey_inj {id id' : UInt64} (h : getCodeKey id = getCodeKey id') : id = id' :=
  uint64ToBigEndian_injective (List.append_cancel_left h)

/-- The next id is free, and takes its place behind the others. -/
theorem CodeRegistry.create (h : CodeRegistry k n d) {id : UInt64} {info : CodeInfo}
    (hid : parseSequence (d.kv.get keySequenceCodeID) = .ok id) (hlt : id.toNat + 1 < 2 ^ 64)
    (hcode : (d.vm.codes.get info.codeHash).isSome) :
    let d' := d.withKV ((d.kv.set keySequenceCodeID (.bytes (uint64ToBigEndian (id + 1)))).set (getCodeKey id)
      (.codeInfo info))
    CodeRegistry k (n + 1) d' ∧ InfosKept d d' := by
  intro d'
  obtain rfl : UInt64.ofNat (n + 1) = id := Except.ok.inj (h.sequence.symm.trans hid)
  have hn : (UInt64.ofNat (n + 1)).toNat = n + 1 := UInt64.toNat_ofNat_of_lt' (by simpa [UInt64.size] using h.fits)
  rw [hn] at hlt
  have hget : ∀ key : Bytes, key.head? = some 1 → key ≠ getCodeKey (UInt64.ofNat (n + 1)) →
      d'.kv.get key = d.kv.get key := by
    intro key hkey hne
    exact (OrderedStore.get_set_of_ne _ _ hne).trans (get_set_of_head _ (by simp [hkey]))
  have hself : d'.kv.get (getCodeKey (UInt64.ofNat (n + 1))) = some (.codeInfo info) :=
    OrderedStore.get_set_self _ _ _
  have hfree : d.kv.get (getCodeKey (UInt64.ofNat (n + 1))) = none := by
    rw [Option.eq_none_iff_forall_ne_some]
    intro v hv
    obtain ⟨i, -, hi, hkey⟩ := (h.ids _ rfl).1 (by rw [hv]; rfl)
    have heq := congrArg UInt64.toNat (getCodeKey_inj hkey)
    rw [hn, UInt64.toNat_ofNat_of_lt' (by simpa [UInt64.size] using (by omega : i < 2 ^ 64))] at heq
    omega
  refine ⟨⟨hlt, ?_, fun key hkey ↦ ?_, fun {id v} hv ↦ ?_, h.held⟩, ⟨fun {id info'} hv ↦ ?_⟩⟩
  · have hseq : d'.kv.get keySequenceCodeID = some (.bytes (uint64ToBigEndian (UInt64.ofNat (n + 1) + 1))) :=
      (get_set_of_head _ (by simp)).trans (OrderedStore.get_set_self _ _ _)
    rw [hseq, parseSequence_uint64ToBigEndian]
    exact congrArg _ (UInt64.ofNat_add (n + 1) 1).symm
  · by_cases hk : key = getCodeKey (UInt64.ofNat (n + 1))
    · subst hk
      rw [hself]
      exact ⟨fun _ ↦ ⟨n + 1, by omega, le_refl _, rfl⟩, fun _ ↦ rfl⟩
    · rw [hget key hkey hk, h.ids key hkey]
      constructor
      · rintro ⟨i, h1, hi, rfl⟩
        exact ⟨i, h1, by omega, rfl⟩
      · rintro ⟨i, h1, hi, rfl⟩
        refine ⟨i, h1, ?_, rfl⟩
        rcases Nat.lt_or_ge n i with hlt | hle
        · obtain rfl : i = n + 1 := by omega
          exact absurd rfl hk
        · exact hle
  · by_cases hk : id = UInt64.ofNat (n + 1)
    · subst hk
      rw [hself] at hv
      cases hv
      exact ⟨info, rfl, hcode⟩
    · rw [hget _ rfl fun he ↦ hk (getCodeKey_inj he)] at hv
      exact h.infos hv
  · by_cases hk : id = UInt64.ofNat (n + 1)
    · subst hk
      rw [hfree] at hv
      cases hv
    · exact ⟨info', by rw [hget _ rfl fun he ↦ hk (getCodeKey_inj he), hv], rfl, rfl⟩

/-- The VM takes one more code. -/
theorem CodeRegistry.cache (h : CodeRegistry k n d) {code : Bytes} (hcheck : k.wasmVM.check code = .ok ()) :
    let d' : Durable X := { d with vm := { d.vm with codes := d.vm.codes.set (k.wasmVM.checksum code) code } }
    CodeRegistry k n d' ∧ InfosKept d d' := by
  intro d'
  have hself : d'.vm.codes.get (k.wasmVM.checksum code) = some code := OrderedStore.get_set_self _ _ _
  have hother : ∀ {checksum}, checksum ≠ k.wasmVM.checksum code → d'.vm.codes.get checksum = d.vm.codes.get checksum :=
    fun hne ↦ OrderedStore.get_set_of_ne _ _ hne
  refine ⟨⟨h.fits, h.sequence, h.ids, fun {id v} hv ↦ ?_, fun {checksum held} hv ↦ ?_⟩, .of_get fun _ ↦ rfl⟩
  · obtain ⟨info, rfl, hsome⟩ := h.infos hv
    refine ⟨info, rfl, ?_⟩
    by_cases heq : info.codeHash = k.wasmVM.checksum code
    · rw [heq, hself]
      rfl
    · rw [hother heq]
      exact hsome
  · by_cases heq : checksum = k.wasmVM.checksum code
    · rw [heq, hself] at hv
      cases hv
      exact ⟨heq.symm, hcheck⟩
    · rw [hother heq] at hv
      exact h.held hv

/-- The access config is all that changes of a code info. -/
theorem CodeRegistry.setAccess (h : CodeRegistry k n d) {id : UInt64} {info : CodeInfo}
    (hinfo : d.kv.get (getCodeKey id) = some (.codeInfo info)) (config : AccessConfig) :
    let d' := d.withKV (d.kv.set (getCodeKey id) (.codeInfo { info with instantiateConfig := config }))
    CodeRegistry k n d' ∧ InfosKept d d' := by
  intro d'
  have hother : ∀ key, key ≠ getCodeKey id → d'.kv.get key = d.kv.get key :=
    fun key hne ↦ OrderedStore.get_set_of_ne _ _ hne
  have hself : d'.kv.get (getCodeKey id) = some (.codeInfo { info with instantiateConfig := config }) :=
    OrderedStore.get_set_self _ _ _
  refine ⟨⟨h.fits, ?_, fun key hkey ↦ ?_, fun {id' v} hv ↦ ?_, h.held⟩, ⟨fun {id' info'} hv ↦ ?_⟩⟩
  · rw [hother _ (head_ne (by simp))]
    exact h.sequence
  · rw [← h.ids key hkey]
    by_cases hk : key = getCodeKey id
    · rw [hk, hself, hinfo]
      rfl
    · rw [hother key hk]
  · by_cases hk : id' = id
    · subst hk
      rw [hself] at hv
      cases hv
      obtain ⟨_, heq, hheld⟩ := h.infos hinfo
      cases heq
      exact ⟨_, rfl, hheld⟩
    · rw [hother _ fun he ↦ hk (getCodeKey_inj he)] at hv
      exact h.infos hv
  · by_cases hk : id' = id
    · subst hk
      cases hinfo.symm.trans hv
      exact ⟨_, hself, rfl, rfl⟩
    · exact ⟨info', by rw [hother _ fun he ↦ hk (getCodeKey_inj he), hv], rfl, rfl⟩

theorem IsCodeKey.ne_of_head {key j : Bytes} (h : IsCodeKey key) (hj : j.head? ∉ [some 1, some 4]) : key ≠ j := by
  rintro rfl
  rcases h with h | rfl
  · simp [h] at hj
  · simp at hj

theorem IsCodeKey.not_state {key : Bytes} (h : IsCodeKey key) : ¬ IsStateKey key := by
  rintro ⟨rest, rfl⟩
  exact h.ne_of_head (j := contractStorePrefix ++ rest) (by simp [contractStorePrefix]) rfl

/-- Records of other families are written. -/
theorem CodeRegistry.set_other (h : CodeRegistry k n d) {j : Bytes} {v : Value} (hkv : d'.kv = d.kv.set j v)
    (hvm : d'.vm = d.vm) (hj : j.head? ∉ [some 1, some 4]) : CodeRegistry k n d' ∧ InfosKept d d' := by
  refine h.congr (fun _ hkey ↦ ?_) (by rw [hvm])
  rw [hkv]
  exact OrderedStore.get_set_of_ne _ _ (hkey.ne_of_head hj)

theorem CodeRegistry.delete_other (h : CodeRegistry k n d) {j : Bytes} (hkv : d'.kv = d.kv.delete j)
    (hvm : d'.vm = d.vm) (hj : j.head? ∉ [some 1, some 4]) : CodeRegistry k n d' ∧ InfosKept d d' := by
  refine h.congr (fun _ hkey ↦ ?_) (by rw [hvm])
  rw [hkv]
  exact OrderedStore.get_delete_of_ne _ (hkey.ne_of_head hj)

theorem CodeRegistry.act (hact : Act k Anybody c d d') (h : CodeRegistry k n d) :
    (∃ n', CodeRegistry k n' d') ∧ InfosKept d d' := by
  have one : ∀ {e : Durable X}, CodeRegistry k n e ∧ InfosKept d e → (∃ n', CodeRegistry k n' e) ∧ InfosKept d e :=
    fun he ↦ ⟨⟨n, he.1⟩, he.2⟩
  cases hact with
  | cacheCode hcheck => exact one (h.cache hcheck)
  | cachePins _ => exact one (h.congr (fun _ _ ↦ rfl) rfl)
  | createCode hid hlt hcode =>
    obtain ⟨hreg, hkept⟩ := h.create hid hlt hcode
    exact ⟨⟨_, hreg⟩, hkept⟩
  | nextInstance _ _ =>
    refine one (h.congr (fun key hkey ↦ OrderedStore.get_set_of_ne _ _ ?_) rfl)
    rintro rfl
    rcases hkey with hkey | hkey
    · simp at hkey
    · exact absurd hkey (by decide)
  | register _ _ _ _ _ _ _ hhead _ _ _ =>
    refine one (h.congr (fun key hkey ↦ get_registered_of_head hhead ?_) rfl)
    rcases hkey with hkey | rfl <;> simp [*]
  | migrate _ _ _ _ _ _ _ _ _ _ _ _ =>
    refine one (h.congr (fun key hkey ↦ get_migrated_of_head ?_) rfl)
    rcases hkey with hkey | rfl <;> simp [*]
  | modify _ _ _ _ _ => exact one (h.set_other rfl rfl (by simp))
  | extend _ _ _ => exact one (h.set_other rfl rfl (by simp))
  | setAccess hinfo => exact one (h.setAccess hinfo _)
  | setParams _ => exact one (h.set_other rfl rfl (by simp))
  | pin _ => exact one (h.set_other rfl rfl (by simp))
  | unpin _ => exact one (h.delete_other rfl rfl (by simp))
  | storePacket _ => exact one (h.set_other rfl rfl (by simp))
  | acknowledge _ => exact one (h.delete_other rfl rfl (by simp))

theorem CodeRegistry.step (hstep : Step k Anybody c d d') (h : CodeRegistry k n d) :
    (∃ n', CodeRegistry k n' d') ∧ InfosKept d d' := by
  cases hstep with
  | act _ hact => exact h.act hact
  | quiet _ hq =>
    obtain ⟨hreg, hkept⟩ : CodeRegistry k n d' ∧ InfosKept d d' :=
      h.congr (fun key hkey ↦ hq.records key hkey.not_state) (by rw [hq.vm])
    exact ⟨⟨n, hreg⟩, hkept⟩

/-- No code is replaced by another one with its checksum. -/
theorem CodeRegistry.codes_step (hk : DistinctChecksums k) (hstep : Step k Anybody c d d') (h : CodeRegistry k n d)
    {checksum code : Bytes} (hget : d.vm.codes.get checksum = some code) : d'.vm.codes.get checksum = some code := by
  cases hstep with
  | quiet _ hq => rwa [hq.vm]
  | act _ hact =>
    cases hact with
    | @cacheCode new hcheck =>
      change (d.vm.codes.set (k.wasmVM.checksum new) new).get checksum = some code
      by_cases heq : checksum = k.wasmVM.checksum new
      · obtain ⟨hsum, hok⟩ := h.held hget
        rw [heq, OrderedStore.get_set_self, hk hcheck hok (heq.symm.trans hsum.symm)]
      · rwa [OrderedStore.get_set_of_ne _ _ heq]
    | _ => exact hget

end Step

theorem codeRegistry_empty (x : X) : CodeRegistry k 0 (emptyDurable x) := by
  refine ⟨by decide, rfl, fun key _ ↦ ⟨nofun, ?_⟩, nofun, nofun⟩
  rintro ⟨i, h1, h0, -⟩
  omega

theorem codeRegistry_reachable {d : Durable X} (h : Reachable k d) : ∃ n, CodeRegistry k n d := by
  refine h.invariant (P := fun d ↦ ∃ n, CodeRegistry k n d) (fun x ↦ ⟨0, codeRegistry_empty x⟩) ?_
  rintro c d d' hstep ⟨n, hn⟩
  exact (hn.step hstep).1

theorem codesKept_run (hk : DistinctChecksums k) {d d' : Durable X} (h : Reachable k d) (hrun : KeeperRun k d d') :
    CodesKept d d' := by
  refine (hrun.invariant (P := fun d₁ ↦ (∃ n, CodeRegistry k n d₁) ∧ CodesKept d d₁)
    ⟨codeRegistry_reachable h, .refl d⟩ ?_).2
  rintro c d₁ d₂ hstep ⟨⟨n, hn⟩, hkept⟩
  obtain ⟨hreg, hnext⟩ := hn.step hstep
  exact ⟨hreg, hkept.trans ⟨hnext, fun hget ↦ hn.codes_step hk hstep hget⟩⟩

section Create

variable {c : Ctx} {creator : AccAddress} {wasmCode checksum : Bytes} {access : Option AccessConfig}
  {policy : AuthorizationPolicy} {id : UInt64} {w w' : World X}

/-- The code of an upload: compressed ones are unpacked. -/
def Unpacks (k : Keeper X) (wasmCode code : Bytes) : Prop :=
  if isGzip wasmCode then uncompressCode k wasmCode maxWasmSize = .ok code else code = wasmCode

theorem Unpacks.unique {wasmCode code code' : Bytes} (h : Unpacks k wasmCode code) (h' : Unpacks k wasmCode code') :
    code = code' := by
  by_cases hzip : isGzip wasmCode = true
  · rw [Unpacks, if_pos hzip] at h h'
    exact Except.ok.inj (h.symm.trans h')
  · rw [Unpacks, if_neg hzip] at h h'
    exact h.trans h'.symm

/-- What a successful `create` leaves behind: the new code info, the unpacked upload in the VM under the checksum
that was returned, and, unless governance has created the code, an access config within the chain's default for the
creator. -/
structure CreatedCode (k : Keeper X) (creator : AccAddress) (wasmCode : Bytes) (policy : AuthorizationPolicy)
    (id : UInt64) (checksum : Bytes) (d d' : Durable X) : Prop where
  stored : ∃ config, d'.kv.get (getCodeKey id) = some (.codeInfo ⟨checksum, k.bech32.string creator, config⟩) ∧
    (policy = .default → ∃ params defaultConfig, d.kv.get paramsKey = some (.params params) ∧
      AccessType.with k params.instantiateDefaultPermission creator = .ok defaultConfig ∧
      ∀ actor, config.allowed k.bech32 actor = .ok true → defaultConfig.allowed k.bech32 actor = .ok true)
  code : ∃ code, Unpacks k wasmCode code ∧ k.wasmVM.checksum code = checksum ∧ d'.vm.codes.get checksum = some code

theorem mem_of_isSubset {super sub : List String} (h : isSubset super sub = true) {s : String} (hs : s ∈ sub) :
    s ∈ super := by
  simpa using List.all_eq_true.1 h s hs

/-- The subset check of access configs lets nobody in that the larger config keeps out. -/
theorem allowed_of_isSubset {b : Bech32} {config super : AccessConfig} (h : config.isSubset super = true)
    {actor : AccAddress} (ha : config.allowed b actor = .ok true) : super.allowed b actor = .ok true := by
  obtain ⟨perm, addrs⟩ := config
  obtain ⟨perm', addrs'⟩ := super
  cases perm' with
  | everybody => rfl
  | nobody =>
    have hp : perm = .nobody := by simpa [AccessConfig.isSubset, AccessType.isSubset] using h
    subst hp
    cases ha
  | anyOfAddresses =>
    simp only [AccessConfig.isSubset, Bool.or_eq_true, beq_iff_eq, Bool.and_eq_true] at h
    rcases h with hp | ⟨hp, hsub⟩
    · subst hp
      cases ha
    · subst hp
      simp only [AccessConfig.allowed, Except.ok.injEq, List.any_eq_true, beq_iff_eq] at ha ⊢
      obtain ⟨s, hs, hactor⟩ := ha
      exact ⟨s, mem_of_isSubset hsub hs, hactor⟩
  | unspecified => cases h
  | other n => cases h

theorem vmStoreCode_eq_ok {code checksum : Bytes} {gasLimit used : Gas}
    (h : vmStoreCode k code gasLimit w = (.ok (.ok checksum, used), w')) :
    k.wasmVM.checksum code = checksum ∧ w'.store = w.store ∧ w'.vm.codes.get checksum = some code := by
  unfold vmStoreCode at h
  by_cases hgas : gasLimit < k.wasmVM.storeCodeCost code
  · rw [if_pos hgas] at h
    cases h
  · rw [if_neg hgas] at h
    rcases hcheck : k.wasmVM.check code with e | ⟨⟩ <;> rw [hcheck] at h
    · cases h
    · cases h
      exact ⟨rfl, rfl, OrderedStore.get_set_self _ _ _⟩

theorem unpackCode_eq_ok {code : Bytes} (h : unpackCode k wasmCode w = (.ok code, w')) : Unpacks k wasmCode code := by
  unfold unpackCode at h
  unfold Unpacks
  split at h
  · next hzip =>
    rw [if_pos hzip]
    obtain ⟨cost, w₁, -, h⟩ := Program.bind_eq_ok.1 h
    obtain ⟨⟨⟩, w₂, -, h⟩ := Program.bind_eq_ok.1 h
    rcases hu : uncompressCode k wasmCode maxWasmSize with e | code' <;> rw [hu] at h <;> cases h
    rfl
  · next hzip =>
    rw [if_neg hzip]
    cases h
    rfl

theorem granted_of_authorize {decision : Except Panic Bool} {e : Err}
    (h : authorize c policy decision e w = (.ok (), w')) : decision = .ok true := by
  obtain ⟨⟨⟩, w₁, -, h⟩ := Program.bind_eq_ok.1 h
  obtain ⟨granted, w₂, hlift, h⟩ := Program.bind_eq_ok.1 h
  obtain ⟨rfl, -⟩ := (Writes.liftPanic decision).post w₁ granted w₂ hlift
  cases granted with
  | true => rfl
  | false => cases h

/-- Under the default policy a config that passes is a subset of the chain's. -/
theorem isSubset_of_canCreateCode {b : Bech32} {chain : ChainAccessConfigs} {config : AccessConfig}
    (h : AuthorizationPolicy.default.canCreateCode b chain creator config = .ok true) :
    config.isSubset chain.instantiate = true := by
  change AuthorizationPolicy.defaultCanCreateCode b chain creator config = .ok true at h
  unfold AuthorizationPolicy.defaultCanCreateCode at h
  rcases hup : chain.upload.allowed b creator with p | allowed <;> rw [hup] at h
  · cases h
  · have hb := Except.ok.inj h
    exact (Bool.and_eq_true_iff.1 hb).2

theorem createdCode_of_create (h : create k c creator wasmCode access policy w = (.ok (id, checksum), w')) :
    CreatedCode k creator wasmCode policy id checksum (durable w) (durable w') := by
  obtain ⟨⟨⟩, w₁, hreq, h⟩ := Program.bind_eq_ok.1 h
  obtain ⟨params, w₂, hparams, h⟩ := Program.bind_eq_ok.1 h
  obtain ⟨defaultConfig, w₃, hdefault, h⟩ := Program.bind_eq_ok.1 h
  obtain ⟨params', w₄, hparams', h⟩ := Program.bind_eq_ok.1 h
  obtain ⟨⟨⟩, w₅, hauth, h⟩ := Program.bind_eq_ok.1 h
  obtain ⟨code, w₆, hunpack, h⟩ := Program.bind_eq_ok.1 h
  obtain ⟨gasLeft, w₇, hleft, h⟩ := Program.bind_eq_ok.1 h
  obtain ⟨⟨stored, gasUsed⟩, w₈, hstore, h⟩ := Program.bind_eq_ok.1 h
  obtain ⟨⟨⟩, w₉, hconsume, h⟩ := Program.bind_eq_ok.1 h
  obtain ⟨checksum', w₁₀, hsum, h⟩ := Program.bind_eq_ok.1 h
  obtain ⟨report, w₁₁, hreport, h⟩ := Program.bind_eq_ok.1 h
  obtain ⟨id', w₁₂, hpersist, h⟩ := Program.bind_eq_ok.1 h
  obtain ⟨⟨⟩, w₁₃, hevents, h⟩ := Program.bind_eq_ok.1 h
  cases h
  -- the upload is in the VM, and the checksum is the one the VM has returned
  obtain ⟨rfl, rfl⟩ : stored = .ok checksum ∧ w₁₀ = w₉ := by
    rcases stored with e | sum <;> cases hsum
    exact ⟨rfl, rfl⟩
  obtain ⟨hchecksum, -, hheld⟩ := vmStoreCode_eq_ok hstore
  obtain ⟨-, -, hd⟩ := (Writes.persistCode k _).post w₁₁ id w₁₂ hpersist
  have hvm : w'.vm = w₈.vm := by
    have h₉ := ((Local.consumeRuntimeGas (o := none) k gasUsed).ensures hconsume).vm
    have h₁₁ := ((Local.analyzeCode (o := none) _ _).ensures hreport).vm
    have h₁₂ : w₁₂.vm = w₁₁.vm := congrArg Durable.vm hd
    have h₁₃ := ((Local.emitEvents (o := none) _).ensures hevents).vm
    exact h₁₃.trans (h₁₂.trans (h₁₁.trans h₉))
  have hkv : w'.store.kv.get (getCodeKey id) = w₁₂.store.kv.get (getCodeKey id) :=
    ((Local.emitEvents (o := none) _).ensures hevents).records _ (not_isStateKey (by simp))
  have hparams₁ : w₁.store.kv.get paramsKey = w.store.kv.get paramsKey :=
    ((Local.require (o := none) _ _).ensures hreq).records _ (not_isStateKey (by simp))
  refine ⟨⟨access.getD defaultConfig, ?_, fun hpolicy ↦
    ⟨params, defaultConfig, hparams₁.symm.trans (Ensures.getParams hparams).1, ?_, fun actor hactor ↦ ?_⟩⟩,
    ⟨code, unpackCode_eq_ok hunpack, hchecksum, ?_⟩⟩
  · refine hkv.trans ?_
    change (durable w₁₂).kv.get (getCodeKey id) = _
    rw [hd, Durable.kv_withKV]
    exact OrderedStore.get_set_self _ _ _
  · exact ((Writes.liftPanic _).post w₂ defaultConfig w₃ hdefault).1
  · subst hpolicy
    exact allowed_of_isSubset (isSubset_of_canCreateCode (granted_of_authorize hauth)) hactor
  · change w'.vm.codes.get checksum = some code
    rw [hvm]
    exact hheld

end Create

/-- The registry of codes over every run: ids without gaps, hashes and creators that never change, codes that stay in
the VM under their checksums, and creators that open a code to nobody the chain would keep out. -/
theorem codeRegistry_exact (hk : DistinctChecksums k) {d d' : Durable X} (h : Reachable k d) (hrun : KeeperRun k d d') :
    (∃ n, CodeRegistry k n d) ∧ CodesKept d d' ∧
    ∀ {c : Ctx} {creator : AccAddress} {wasmCode checksum : Bytes} {access : Option AccessConfig}
      {policy : AuthorizationPolicy} {id : UInt64} {w w' : World X},
      create k c creator wasmCode access policy w = (.ok (id, checksum), w') →
        CreatedCode k creator wasmCode policy id checksum (durable w) (durable w') :=
  ⟨codeRegistry_reachable h, codesKept_run hk h hrun, fun hcreate ↦ createdCode_of_create hcreate⟩

/-- A devnet with a checksum that is the code itself. -/
def verbatimNet : Keeper Unit :=
  let k := plainnet idleContract
  { k with wasmVM := { k.wasmVM with checksum := fun code ↦ code } }

def carolUploads : Durable Unit := delivered verbatimNet (durable openWorld) [storeCodeMsg carol]

theorem codeRegistry_carolUploads :
    (carolUploads.kv.get (getCodeKey 1)).isSome = true ∧ (∃ n, CodeRegistry verbatimNet n carolUploads) ∧
    CodesKept carolUploads (committed (unpinCode verbatimNet 1) (worldOf carolUploads)) := by
  have hopen : Reachable verbatimNet (durable openWorld) :=
    .op (w := emptyWorld) (.empty ()) (.setParams (n := 0) (c := genesisCtx) ⟨allowEverybody, .everybody⟩)
  have hrun : KeeperRun verbatimNet carolUploads (committed (unpinCode verbatimNet 1) (worldOf carolUploads)) :=
    .once (n := 0) (c := genesisCtx) (.keeper (.unpinCode 1)) _
  obtain ⟨hreg, hkept, -⟩ := codeRegistry_exact (fun _ _ h ↦ h) (hopen.delivered _) hrun
  exact ⟨by decide +kernel, hreg, hkept⟩

end Cosmwasgo.Properties
