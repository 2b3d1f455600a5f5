import Cosmwasgo.Keeper.CodeGrants
import Cosmwasgo.Properties.Codes
import Cosmwasgo.Registry.Iteration
import Cosmwasgo.Runs.Roots

namespace Cosmwasgo.Properties

open Cosmwasgo.Lib Cosmwasgo.Types Cosmwasgo.State Cosmwasgo.Keeper Cosmwasgo.Runs Cosmwasgo.Registry

variable {X : Type} {k : Keeper X} {u : UnicodeTables} {gasRegister : Option GasRegister} {m : MsgStoreCode}
  {a : StoreCodeAuthorization}

section Ends

variable {α β : Type} {f : α → M X β} {w : World X}

/-- The run ends so, unless a finite meter does not last. -/
def Ends (x : M X α) (w : World X) (o : Outcome Err Panic α) : Prop :=
  (x w).1 = o ∨ w.meter.infinite = false ∧ ∃ p, (x w).1 = .panic p ∧ IsGasPanic p

theorem Ends.bind {x : M X α} {v : α} {o : Outcome Err Panic β} (h : Ends x w (.ok v)) (hf : ∀ w', (f v w').1 = o) :
    Ends (x >>= f) w o := by
  rcases hx : x w with ⟨r, w'⟩
  rw [Ends, hx] at h
  rcases h with rfl | ⟨hi, p, rfl, hp⟩
  · exact .inl (by rw [Program.bind_of_ok f hx, hf])
  · exact .inr ⟨hi, p, by rw [Program.bind_of_panic f hx], hp⟩

theorem Ends.bind_error {x : M X α} {e : Err} (h : Ends x w (.error e)) : Ends (x >>= f) w (.error e) := by
  rcases hx : x w with ⟨r, w'⟩
  rw [Ends, hx] at h
  rcases h with rfl | ⟨hi, p, rfl, hp⟩
  · exact .inl (by rw [Program.bind_of_error f hx])
  · exact .inr ⟨hi, p, by rw [Program.bind_of_panic f hx], hp⟩

theorem ends_consumeGas (amount : Gas) (descriptor : String) (w : World X) :
    Ends (consumeGas amount descriptor) w (.ok ()) := returns_consumeGas amount descriptor w

end Ends

section Decision

/-- The code of a message, unpacked. -/
def unpacked (k : Keeper X) (gasRegister : Option GasRegister) (code : Bytes) : Except Err Bytes :=
  if isGzip code then
    match gasRegister with
    | none => .error (.wrap sdkErrNotFound "gas register")
    | some _ =>
      (k.lib.uncompress code maxWasmSize).mapError fun _ ↦ .wrap errInvalidRequest "uncompress wasm archive"
  else .ok code

/-- The checksum of what a message uploads. -/
def uploadChecksum (k : Keeper X) (gasRegister : Option GasRegister) (m : MsgStoreCode) : Except Err Bytes := do
  let code ← unpacked k gasRegister m.wasmByteCode
  (createChecksum code).mapError fun _ ↦ .wrap errInvalidRequest "checksum"

/-- The answer of the loop over the grants. -/
def answer : Except Panic Bool → Outcome Err Panic AcceptResponse
  | .error p => .panic p
  | .ok accept => .ok { accept }

/-- What the authorization says to the message, gas aside. -/
def decision (k : Keeper X) (u : UnicodeTables) (gasRegister : Option GasRegister) (a : StoreCodeAuthorization)
    (m : MsgStoreCode) : Outcome Err Panic AcceptResponse :=
  match uploadChecksum k gasRegister m with
  | .error e => .error e
  | .ok checksum => answer (acceptCode u checksum m.instantiatePermission a.grants)

theorem decision_of_checksum {checksum : Bytes} (h : uploadChecksum k gasRegister m = .ok checksum) :
    decision k u gasRegister a m = answer (acceptCode u checksum m.instantiatePermission a.grants) := by
  rw [decision, h]

/-- The gas register has a price for the code. -/
def HasPrice (gasRegister : Option GasRegister) (code : Bytes) : Prop :=
  ∀ g, gasRegister = some g → ∃ cost, g.uncompressCosts code.length = .ok cost

/-- An outcome without a panic. -/
def outcomeOf {α : Type} : Except Err α → Outcome Err Panic α
  | .ok v => .ok v
  | .error e => .error e

theorem lift_apply {α : Type} (x : Except Err α) (w : World X) : (Program.lift x : M X α) w = (outcomeOf x, w) := by
  cases x <;> rfl

theorem ends_grantedCode {code : Bytes} (hp : HasPrice gasRegister code) (w : World X) :
    Ends (grantedCode k gasRegister code) w (outcomeOf (unpacked k gasRegister code)) := by
  unfold grantedCode unpacked
  split
  · rcases gasRegister with _ | g
    · exact .inl rfl
    · obtain ⟨cost, hcost⟩ := hp g rfl
      have hprice : (liftPanic (g.uncompressCosts code.length) : M X Gas) = pure cost := by rw [hcost]; rfl
      simp only [hprice]
      change Ends (consumeGas cost "Uncompress gzip bytecode" >>= fun _ ↦ Program.lift _) w _
      refine Ends.bind (ends_consumeGas cost "Uncompress gzip bytecode" w) fun w' ↦ ?_
      rw [lift_apply]
  · exact .inl rfl

theorem answer_apply (x : Except Panic Bool) (w : World X) :
    ((liftPanic x >>= fun accept ↦ pure { accept } : M X AcceptResponse) w).1 = answer x := by
  cases x <;> rfl

theorem ends_accept (hp : HasPrice gasRegister m.wasmByteCode) (w : World X) :
    Ends (StoreCodeAuthorization.accept k u gasRegister a (.storeCode m)) w (decision k u gasRegister a m) := by
  have hcode := ends_grantedCode (k := k) hp w
  rcases hun : unpacked k gasRegister m.wasmByteCode with e | code <;> rw [hun] at hcode
  · have hsum : uploadChecksum k gasRegister m = .error e := by rw [uploadChecksum, hun]; rfl
    rw [decision, hsum]
    exact hcode.bind_error
  · refine hcode.bind fun w' ↦ ?_
    have hsum : uploadChecksum k gasRegister m =
        (createChecksum code).mapError fun _ ↦ .wrap errInvalidRequest "checksum" := by rw [uploadChecksum, hun]; rfl
    rw [decision, hsum]
    rcases createChecksum code with e | checksum
    · rfl
    · exact answer_apply (acceptCode u checksum m.instantiatePermission a.grants) w'

/-- The message is accepted. -/
def Accepts (k : Keeper X) (u : UnicodeTables) (gasRegister : Option GasRegister) (a : StoreCodeAuthorization)
    (m : MsgStoreCode) (w : World X) : Prop :=
  ∃ r w', StoreCodeAuthorization.accept k u gasRegister a (.storeCode m) w = (.ok r, w') ∧ r.accept = true

theorem acceptCode_of_accepts (hp : HasPrice gasRegister m.wasmByteCode) {w : World X}
    (h : Accepts k u gasRegister a m w) : ∃ checksum, uploadChecksum k gasRegister m = .ok checksum ∧
      acceptCode u checksum m.instantiatePermission a.grants = .ok true := by
  obtain ⟨r, w', hr, htrue⟩ := h
  have hends := ends_accept (k := k) (u := u) (a := a) hp w
  rw [Ends, hr] at hends
  rcases hends with hd | ⟨-, p, hpanic, -⟩
  · unfold decision at hd
    rcases hsum : uploadChecksum k gasRegister m with e | checksum <;> rw [hsum] at hd
    · cases hd
    · rcases hacc : acceptCode u checksum m.instantiatePermission a.grants with p | accept <;>
        simp only [hacc, answer] at hd
      · cases hd
      · cases hd
        obtain rfl : accept = true := htrue
        exact ⟨checksum, rfl, hacc⟩
  · cases hpanic

theorem accepts_of_acceptCode (hp : HasPrice gasRegister m.wasmByteCode) {checksum : Bytes}
    (hsum : uploadChecksum k gasRegister m = .ok checksum)
    (h : acceptCode u checksum m.instantiatePermission a.grants = .ok true) (d : Durable X) :
    Accepts k u gasRegister a m (worldOf d) := by
  rcases hr : StoreCodeAuthorization.accept k u gasRegister a (.storeCode m) (worldOf d) with ⟨o, w'⟩
  have hends := ends_accept (k := k) (u := u) (a := a) hp (worldOf d)
  rw [Ends, hr, decision_of_checksum hsum, h] at hends
  rcases hends with rfl | ⟨hi, -⟩
  · exact ⟨_, w', hr, rfl⟩
  · cases hi

end Decision

section Sound

variable {g : CodeGrant} {checksum : Bytes} {permission : Option AccessConfig}

theorem acceptCode_true {gs : List CodeGrant} (h : acceptCode u checksum permission gs = .ok true) :
    ∃ g ∈ gs, CodeGrant.accept u g checksum permission = .ok true := by
  induction gs with
  | nil => cases h
  | cons g gs ih =>
    rcases hg : CodeGrant.accept u g checksum permission with p | _ | _ <;> rw [acceptCode, hg] at h
    · cases h
    · obtain ⟨g', hmem, hg'⟩ := ih h
      exact ⟨g', List.mem_cons_of_mem _ hmem, hg'⟩
    · exact ⟨g, List.mem_cons_self, hg⟩

theorem accept_eq_true : CodeGrant.accept u g checksum permission = .ok true ↔
    CodeGrant.matches u g checksum = true ∧ ∀ superSet, g.instantiatePermission = some superSet →
      ∃ p, permission = some p ∧ p.isSubset superSet = true := by
  unfold CodeGrant.accept
  rcases CodeGrant.matches u g checksum with _ | _
  · simp
  · rcases g.instantiatePermission with _ | superSet
    · simp
    · rcases permission with _ | p <;> simp

theorem rigid_wildcard (u : UnicodeTables) : Utf8.Rigid u.simpleFold codehashWildcard := by
  intro r hr
  have hrunes : Utf8.runes codehashWildcard = [0x2A] := by decide
  rw [hrunes, List.mem_singleton] at hr
  subst hr
  refine ⟨by decide, fun x _ hx ↦ ?_⟩
  by_contra hne
  rw [Utf8.foldEq, if_neg hne] at hx
  dsimp only at hx
  split at hx
  · simp only [Bool.and_eq_true, decide_eq_true_eq] at hx
    omega
  · -- the asterisk is alone in its orbit
    have hmin : min x 0x2A = 0x2A := by omega
    obtain ⟨n, hn⟩ := Nat.exists_eq_succ_of_ne_zero (n := max x 0x2A) (by omega)
    rw [hmin, u.simpleFold_asterisk, beq_iff_eq] at hx
    nth_rewrite 2 [hn] at hx
    rw [Utf8.foldLoop, if_neg (fun h ↦ h.1 rfl)] at hx
    omega

theorem isWildcard_iff : isWildcard u g = true ↔ g.codeHash = codehashWildcard := by
  constructor
  · exact Utf8.eq_of_equalFold (rigid_wildcard u)
  · intro h
    rw [isWildcard, h]
    exact Utf8.equalFold_of_runes_eq rfl

/-- A grant for the code by name, whose permission covers that of the message. -/
def GrantedSoundly (k : Keeper X) (a : StoreCodeAuthorization) (m : MsgStoreCode) (checksum : Bytes) : Prop :=
  ∃ g ∈ a.grants, (g.codeHash = codehashWildcard ∨ g.codeHash = checksum) ∧
    ∀ superSet, g.instantiatePermission = some superSet → ∃ p, m.instantiatePermission = some p ∧
      ∀ actor, p.allowed k.bech32 actor = .ok true → superSet.allowed k.bech32 actor = .ok true

theorem grantedSoundly_of_rigid (hrigid : Utf8.Rigid u.simpleFold checksum)
    (h : acceptCode u checksum m.instantiatePermission a.grants = .ok true) : GrantedSoundly k a m checksum := by
  obtain ⟨g, hg, haccept⟩ := acceptCode_true h
  obtain ⟨hmatch, hperm⟩ := accept_eq_true.1 haccept
  refine ⟨g, hg, ?_, fun superSet hsuper ↦ ?_⟩
  · rcases Bool.or_eq_true_iff.1 hmatch with hwild | hfold
    · exact .inl (isWildcard_iff.1 hwild)
    · exact .inr (Utf8.eq_of_equalFold hrigid hfold)
  · obtain ⟨p, hp, hsub⟩ := hperm superSet hsuper
    exact ⟨p, hp, fun actor ↦ allowed_of_isSubset hsub⟩

/-- A grant without a permission accepts whatever matches it. -/
theorem accept_unrestricted {h : Bytes} (hfold : Utf8.equalFold u.simpleFold h checksum = true) :
    CodeGrant.accept u ⟨h, none⟩ checksum permission = .ok true := by
  refine accept_eq_true.2 ⟨?_, nofun⟩
  rw [CodeGrant.matches, hfold, Bool.or_true]

theorem ne_nil_of_equalFold {h : Bytes} (hne : h ≠ checksum) (hfold : Utf8.equalFold u.simpleFold h checksum = true) :
    h ≠ [] := by
  rintro rfl
  rcases eq_or_ne checksum [] with rfl | hc
  · exact hne rfl
  · rw [Utf8.equalFold, Utf8.runes_of_ne_nil hc] at hfold
    cases hfold

theorem ne_wildcard_of_equalFold {h : Bytes} (hne : h ≠ checksum)
    (hfold : Utf8.equalFold u.simpleFold h checksum = true) : h ≠ codehashWildcard := by
  rintro rfl
  exact hne (Utf8.eq_of_equalFold (rigid_wildcard u) (Utf8.equalFold_symm hfold)).symm

/-- The authorization with the one grant is valid and accepts the code, but not by its name. -/
theorem unsound_of_equalFold {h : Bytes} (hne : h ≠ checksum)
    (hfold : Utf8.equalFold u.simpleFold h checksum = true) :
    StoreCodeAuthorization.validateBasic k u ⟨[⟨h, none⟩]⟩ = .ok () ∧
      acceptCode u checksum permission [⟨h, none⟩] = .ok true ∧ ¬GrantedSoundly k ⟨[⟨h, none⟩]⟩ m checksum := by
  refine ⟨?_, ?_, ?_⟩
  · have hnil := ne_nil_of_equalFold hne hfold
    simp [StoreCodeAuthorization.validateBasic, CodeGrant.validateBasic, check, hnil]
    rfl
  · rw [acceptCode, accept_unrestricted hfold]
    rfl
  · rintro ⟨g, hg, hname, -⟩
    rw [List.mem_singleton] at hg
    subst hg
    exact hname.elim (ne_wildcard_of_equalFold hne hfold) hne

/-- A grant for one code alone. -/
def Single (u : UnicodeTables) (checksum : Bytes) : Prop :=
  ∀ g : CodeGrant, g.codeHash ≠ codehashWildcard → ∀ checksum' p p', CodeGrant.accept u g checksum p = .ok true →
    CodeGrant.accept u g checksum' p' = .ok true → checksum' = checksum

theorem single_iff : Single u checksum ↔ Utf8.Rigid u.simpleFold checksum := by
  constructor
  · intro hsingle
    by_contra hrigid
    obtain ⟨h, hne, hfold⟩ := Utf8.exists_equalFold_ne checksum hrigid
    exact hne (hsingle ⟨h, none⟩ (ne_wildcard_of_equalFold hne hfold) h none none (accept_unrestricted hfold)
      (accept_unrestricted (Utf8.equalFold_of_runes_eq rfl)))
  · intro hrigid g hg checksum' p p' h h'
    have hnamed : ∀ {c q}, CodeGrant.accept u g c q = .ok true → Utf8.equalFold u.simpleFold g.codeHash c = true := by
      intro c q hacc
      refine (Bool.or_eq_true_iff.1 (accept_eq_true.1 hacc).1).resolve_left fun hwild ↦ ?_
      exact hg (isWildcard_iff.1 hwild)
    have hfold := hnamed h'
    rw [Utf8.eq_of_equalFold hrigid (hnamed h)] at hfold
    exact Utf8.eq_of_equalFold hrigid (Utf8.equalFold_symm hfold)

/-- Grants are sound for exactly the codes whose checksum is a text without upper and lower case: whatever authorization
accepts such a code names it, and a grant for it accepts no other. -/
theorem grants_sound (hp : HasPrice gasRegister m.wasmByteCode) (hsum : uploadChecksum k gasRegister m = .ok checksum)
    (d : Durable X) :
    ((∀ a w, StoreCodeAuthorization.validateBasic k u a = .ok () → durable w = d → Accepts k u gasRegister a m w →
        GrantedSoundly k a m checksum) ↔ Utf8.Rigid u.simpleFold checksum) ∧
      (Single u checksum ↔ Utf8.Rigid u.simpleFold checksum) ∧
        (Utf8.Rigid u.simpleFold checksum → ∀ g m' checksum' w w', g.codeHash ≠ codehashWildcard →
          HasPrice gasRegister m'.wasmByteCode → uploadChecksum k gasRegister m' = .ok checksum' →
            Accepts k u gasRegister ⟨[g]⟩ m w → Accepts k u gasRegister ⟨[g]⟩ m' w' → checksum' = checksum) := by
  refine ⟨⟨fun hsound ↦ ?_, fun hrigid a w _ _ haccepts ↦ ?_⟩, single_iff, ?_⟩
  · by_contra hrigid
    obtain ⟨h, hne, hfold⟩ := Utf8.exists_equalFold_ne checksum hrigid
    obtain ⟨hvalid, haccept, hunsound⟩ := unsound_of_equalFold (k := k) (m := m) hne hfold
    exact hunsound (hsound _ (worldOf d) hvalid rfl (accepts_of_acceptCode hp hsum haccept d))
  · obtain ⟨checksum', hsum', haccept⟩ := acceptCode_of_accepts hp haccepts
    cases hsum.symm.trans hsum'
    exact grantedSoundly_of_rigid hrigid haccept
  · intro hrigid g m' checksum' w w' hg hp' hsum' h h'
    have hone : ∀ {n c v}, HasPrice gasRegister n.wasmByteCode → uploadChecksum k gasRegister n = .ok c →
        Accepts k u gasRegister ⟨[g]⟩ n v → CodeGrant.accept u g c n.instantiatePermission = .ok true := by
      intro n c v hprice hc haccepts
      obtain ⟨c', hc', haccept⟩ := acceptCode_of_accepts hprice haccepts
      cases hc.symm.trans hc'
      obtain ⟨g', hg', hacc⟩ := acceptCode_true haccept
      rw [List.mem_singleton] at hg'
      subst hg'
      exact hacc
    exact single_iff.2 hrigid g hg checksum' _ _ (hone hp hsum h) (hone hp' hsum' h')

end Sound

section Total

variable {checksum : Bytes}

/-- A message with a permission always gets a decision. -/
theorem acceptCode_some (p : AccessConfig) (gs : List CodeGrant) :
    ∃ b, acceptCode u checksum (some p) gs = .ok b := by
  induction gs with
  | nil => exact ⟨false, rfl⟩
  | cons g gs ih =>
    have hg : ∃ b, CodeGrant.accept u g checksum (some p) = .ok b := by
      unfold CodeGrant.accept
      split
      · exact ⟨_, rfl⟩
      · rcases g.instantiatePermission with _ | superSet
        · exact ⟨_, rfl⟩
        · exact ⟨_, rfl⟩
    obtain ⟨_ | _, hb⟩ := hg <;> rw [acceptCode, hb]
    · exact ih
    · exact ⟨true, rfl⟩

/-- Without a permission the first grant for the code decides: it has no permission either, or there is nothing to compare
its permission with. -/
theorem acceptCode_none (gs : List CodeGrant) : acceptCode u checksum none gs =
    match gs.find? (CodeGrant.matches u · checksum) with
    | none => .ok false
    | some g => if g.instantiatePermission = none then .ok true else .error nilPointer := by
  induction gs with
  | nil => rfl
  | cons g gs ih =>
    rw [acceptCode, CodeGrant.accept]
    rcases hm : CodeGrant.matches u g checksum with _ | _
    · rw [List.find?_cons_of_neg (by simp [hm]), ← ih]
      rfl
    · rw [List.find?_cons_of_pos (p := (CodeGrant.matches u · checksum)) hm]
      rcases hperm : g.instantiatePermission with _ | superSet
      · simp only [hperm, if_true]
        rfl
      · simp only [hperm, if_neg (Option.some_ne_none superSet)]
        rfl

/-- No permission in the message, but one in the first grant for its code. -/
def NilPermission (k : Keeper X) (u : UnicodeTables) (gasRegister : Option GasRegister) (a : StoreCodeAuthorization)
    (m : MsgStoreCode) : Prop :=
  m.instantiatePermission = none ∧ ∃ checksum g, uploadChecksum k gasRegister m = .ok checksum ∧
    a.grants.find? (CodeGrant.matches u · checksum) = some g ∧ g.instantiatePermission ≠ none

theorem decision_of_nilPermission (h : NilPermission k u gasRegister a m) :
    decision k u gasRegister a m = .panic nilPointer := by
  obtain ⟨hm, checksum, g, hsum, hg, hperm⟩ := h
  rw [decision_of_checksum hsum, hm, acceptCode_none, hg]
  simp only [if_neg hperm]
  rfl

theorem decision_of_not_nilPermission (h : ¬NilPermission k u gasRegister a m) :
    (decision k u gasRegister a m).exit = .ok ∨ (decision k u gasRegister a m).exit = .error := by
  rcases hsum : uploadChecksum k gasRegister m with e | checksum
  · rw [decision, hsum]
    exact .inr rfl
  · rw [decision_of_checksum hsum]
    rcases hm : m.instantiatePermission with _ | p
    · rw [acceptCode_none]
      rcases hg : a.grants.find? (CodeGrant.matches u · checksum) with _ | g
      · exact .inl rfl
      · have hperm : g.instantiatePermission = none := by
          by_contra hperm
          exact h ⟨hm, checksum, g, hsum, hg, hperm⟩
        simp only [if_pos hperm]
        exact .inl rfl
    · obtain ⟨b, hb⟩ : ∃ b, acceptCode u checksum (some p) a.grants = .ok b := acceptCode_some p a.grants
      rw [hb]
      exact .inl rfl

/-- The answer is a decision or an error; for want of gas there may be none. -/
def Decided (o : Outcome Err Panic AcceptResponse) : Prop :=
  o.exit = .ok ∨ o.exit = .error ∨ ∃ p, o = .panic p ∧ IsGasPanic p

theorem length_of_valid (hm : Msg.validateBasic k (.storeCode m) = .ok ()) : m.wasmByteCode.length ≤ maxWasmSize := by
  obtain ⟨_, -, hvalid⟩ := except_bind_eq_ok.1 hm
  obtain ⟨_, hcode, -⟩ := except_bind_eq_ok.1 hvalid
  rcases hwasm : validateWasmCode m.wasmByteCode maxWasmSize with e | _ <;> rw [validateCodeBytes, hwasm] at hcode
  · cases hcode
  · rw [validateWasmCode, check_bind_eq_ok] at hwasm
    simpa [check] using hwasm.2

/-- A valid message gets a decision or an error from every authorization but one whose first grant for the code has a
permission where the message has none. Without a permission it is accepted only under a grant without one. -/
theorem accept_decided (hm : Msg.validateBasic k (.storeCode m) = .ok ())
    (hreg : ∀ g, gasRegister = some g → ∀ n ≤ maxWasmSize, ∃ cost, g.uncompressCosts n = .ok cost)
    (a : StoreCodeAuthorization) (d : Durable X) :
    ((∀ w, durable w = d → Decided (StoreCodeAuthorization.accept k u gasRegister a (.storeCode m) w).1) ↔
        ¬NilPermission k u gasRegister a m) ∧
      (m.instantiatePermission = none → ∀ w, Accepts k u gasRegister a m w →
        ∃ checksum g, uploadChecksum k gasRegister m = .ok checksum ∧ g ∈ a.grants ∧
          CodeGrant.matches u g checksum = true ∧ g.instantiatePermission = none) := by
  have hp : HasPrice gasRegister m.wasmByteCode := fun g hg ↦ hreg g hg _ (length_of_valid hm)
  refine ⟨⟨fun hdecided hnil ↦ ?_, fun hnil w _ ↦ ?_⟩, fun hnone w haccepts ↦ ?_⟩
  · have hpanic : (StoreCodeAuthorization.accept k u gasRegister a (.storeCode m) (worldOf d)).1 = .panic nilPointer := by
      rcases ends_accept (k := k) (u := u) (a := a) hp (worldOf d) with h | ⟨hi, -⟩
      · rw [h, decision_of_nilPermission hnil]
      · cases hi
    have h := hdecided (worldOf d) rfl
    rw [hpanic] at h
    rcases h with h | h | ⟨p, h, desc, hgas | hgas⟩
    · cases h
    · cases h
    · cases h
      cases hgas
    · cases h
      cases hgas
  · rcases ends_accept (k := k) (u := u) (a := a) hp w with h | ⟨-, p, h, hgas⟩
    · rw [h]
      rcases decision_of_not_nilPermission hnil with hok | herr
      · exact .inl hok
      · exact .inr (.inl herr)
    · exact .inr (.inr ⟨p, h, hgas⟩)
  · obtain ⟨checksum, hsum, haccept⟩ := acceptCode_of_accepts hp haccepts
    obtain ⟨g, hg, hacc⟩ := acceptCode_true haccept
    obtain ⟨hmatch, hperm⟩ := accept_eq_true.1 hacc
    refine ⟨checksum, g, hsum, hg, hmatch, ?_⟩
    by_contra hsome
    obtain ⟨superSet, hsuper⟩ := Option.ne_none_iff_exists'.1 hsome
    obtain ⟨p, hp', -⟩ := hperm superSet hsuper
    rw [hnone] at hp'
    cases hp'

end Total

section Plainnet

/-- The tables as far as ASCII goes. -/
def asciiTables : UnicodeTables where
  simpleFold r := if 0x41 ≤ r ∧ r ≤ 0x5A then r + 32 else if 0x61 ≤ r ∧ r ≤ 0x7A then r - 32 else r
  toLower b := b.map fun x ↦ if 0x41 ≤ x.val ∧ x.val ≤ 0x5A then x + 32 else x
  simpleFold_asterisk := rfl

def carolStores : MsgStoreCode := { sender := carol, wasmByteCode := wasmIdent, instantiatePermission := none }

/-- The checksum of Carol's code, but for its first byte. -/
def otherHash : Bytes := 0xCE :: (sha256 wasmIdent).tail

theorem uploadChecksum_carolStores :
    uploadChecksum (plainnet idleContract) (some freeGas) carolStores = .ok (sha256 wasmIdent) := rfl

theorem hasPrice_freeGas (code : Bytes) : HasPrice (some freeGas) code := by
  rintro g ⟨⟩
  exact ⟨0, rfl⟩

theorem grants_sound_carol :
    let k := plainnet idleContract
    let checksum := sha256 wasmIdent
    ((∀ a w, StoreCodeAuthorization.validateBasic k asciiTables a = .ok () → durable w = durable openWorld →
        Accepts k asciiTables (some freeGas) a carolStores w → GrantedSoundly k a carolStores checksum) ↔
          Utf8.Rigid asciiTables.simpleFold checksum) ∧
      (Single asciiTables checksum ↔ Utf8.Rigid asciiTables.simpleFold checksum) ∧
        (Utf8.Rigid asciiTables.simpleFold checksum → ∀ g m' checksum' w w', g.codeHash ≠ codehashWildcard →
          HasPrice (some freeGas) m'.wasmByteCode → uploadChecksum k (some freeGas) m' = .ok checksum' →
            Accepts k asciiTables (some freeGas) ⟨[g]⟩ carolStores w →
              Accepts k asciiTables (some freeGas) ⟨[g]⟩ m' w' → checksum' = checksum) :=
  grants_sound (hasPrice_freeGas _) uploadChecksum_carolStores (durable openWorld)

theorem otherHash_ne : otherHash ≠ sha256 wasmIdent := by decide +kernel

theorem otherHash_equalFold : Utf8.equalFold asciiTables.simpleFold otherHash (sha256 wasmIdent) = true := by
  decide +kernel

/-- Carol's code is accepted under a grant for another hash: its first byte is no valid text, whichever it is. -/
theorem carol_under_otherHash :
    let k := plainnet idleContract
    let a : StoreCodeAuthorization := ⟨[⟨otherHash, none⟩]⟩
    StoreCodeAuthorization.validateBasic k asciiTables a = .ok () ∧
      uploadChecksum k (some freeGas) carolStores = .ok (sha256 wasmIdent) ∧
        Accepts k asciiTables (some freeGas) a carolStores (worldOf (durable openWorld)) ∧
          ¬GrantedSoundly k a carolStores (sha256 wasmIdent) := by
  intro k a
  obtain ⟨hvalid, haccept, hunsound⟩ : StoreCodeAuthorization.validateBasic k asciiTables a = .ok () ∧
      acceptCode asciiTables (sha256 wasmIdent) none a.grants = .ok true ∧
        ¬GrantedSoundly k a carolStores (sha256 wasmIdent) :=
    unsound_of_equalFold otherHash_ne otherHash_equalFold
  exact ⟨hvalid, uploadChecksum_carolStores,
    accepts_of_acceptCode (hasPrice_freeGas _) uploadChecksum_carolStores haccept _, hunsound⟩

/-- A grant for Carol's code that lets nobody instantiate it. -/
def carolsGrant : StoreCodeAuthorization := ⟨[⟨sha256 wasmIdent, some allowNobody⟩]⟩

theorem carolStores_valid : Msg.validateBasic (plainnet idleContract) (.storeCode carolStores) = .ok () := by decide +kernel

theorem accept_decided_carol :
    let k := plainnet idleContract
    ((∀ w, durable w = durable openWorld →
        Decided (StoreCodeAuthorization.accept k asciiTables (some freeGas) carolsGrant (.storeCode carolStores) w).1) ↔
          ¬NilPermission k asciiTables (some freeGas) carolsGrant carolStores) ∧
      (carolStores.instantiatePermission = none → ∀ w, Accepts k asciiTables (some freeGas) carolsGrant carolStores w →
        ∃ checksum g, uploadChecksum k (some freeGas) carolStores = .ok checksum ∧ g ∈ carolsGrant.grants ∧
          CodeGrant.matches asciiTables g checksum = true ∧ g.instantiatePermission = none) :=
  accept_decided carolStores_valid (fun g hg n _ ↦ by cases hg; exact ⟨0, rfl⟩) carolsGrant (durable openWorld)

/-- Her message, which says nothing about a permission, is valid, and so is the grant, but the answer is a panic. -/
theorem carolsGrant_panics :
    let k := plainnet idleContract
    StoreCodeAuthorization.validateBasic k asciiTables carolsGrant = .ok () ∧
      Msg.validateBasic k (.storeCode carolStores) = .ok () ∧
        (StoreCodeAuthorization.accept k asciiTables (some freeGas) carolsGrant (.storeCode carolStores) openWorld).1 =
          .panic nilPointer := by
  decide +kernel

end Plainnet

end Cosmwasgo.Properties
