import Cosmwasgo.Keeper.Validation
import Cosmwasgo.Migrations.V3
import Cosmwasgo.State.Devnet

namespace Cosmwasgo.Properties

open Cosmwasgo.Lib Cosmwasgo.Types Cosmwasgo.State Cosmwasgo.Keeper Cosmwasgo.Migrations

variable {X : Type} {k : Keeper X}

/-- Whom a configuration of version 3 lets in: the one address it names, those it lists, everybody or nobody. -/
def legacyAllowed (b : Bech32) (a : V3.AccessConfig) (actor : AccAddress) : Except Panic Bool :=
  match a.permission with
  | .nobody => .ok false
  | .everybody => .ok true
  | .onlyAddress => .ok (a.address == b.string actor)
  | .anyOfAddresses => .ok (a.addresses.any fun v ↦ v == b.string actor)
  | _ => .error (.other "unknown type")

/-- A permission of version 3 that is given to a creator. -/
def legacyWith (b : Bech32) (a : V3.AccessType) (creator : AccAddress) : V3.AccessConfig :=
  { permission := a, address := b.string creator, addresses := [b.string creator] }

/-- Params and code infos are those of version 3, and codes have their ids for keys. -/
structure Version3 (s : V3.Store) : Prop where
  params : ∀ v, s.get paramsKey = some v → ∃ p, v = .params p
  codes : ∀ x v, s.get (codeKeyPrefix ++ x) = some v → x.length = 8 ∧ ∃ c, v = .codeInfo c

section Configs

variable (b : Bech32) (actor : AccAddress)

theorem allowed_updateAccessConfig (a : V3.AccessConfig) :
    (V3.updateAccessConfig a).allowed b actor = legacyAllowed b a actor := by
  obtain ⟨permission, address, addresses⟩ := a
  cases permission with
  | onlyAddress =>
    change Except.ok (List.any [address] fun v ↦ v == b.string actor) = .ok (address == b.string actor)
    simp
  | _ => rfl

/-- The default permission, given to an account, lets the same actors in as before. -/
theorem allowed_with_updateParams (p : V3.Params) {creator : AccAddress} (hcreator : k.bech32.valid creator = true) :
    ((AccessType.with k (V3.updateParams p).instantiateDefaultPermission creator).bind fun a ↦
        a.allowed k.bech32 actor).toOption =
      (legacyAllowed k.bech32 (legacyWith k.bech32 p.instantiateDefaultPermission creator) actor).toOption := by
  obtain ⟨upload, permission⟩ := p
  cases permission with
  | onlyAddress =>
    change ((AccessType.with k .anyOfAddresses creator).bind _).toOption = _
    rw [with_anyOfAddresses hcreator]
    simp [Except.bind, AccessConfig.allowed, legacyAllowed, legacyWith]
  | anyOfAddresses =>
    change ((AccessType.with k .anyOfAddresses creator).bind _).toOption = _
    rw [with_anyOfAddresses hcreator]
    rfl
  | _ => rfl

end Configs

section Codes

/-- A key of eight bytes is the key of the code it is read as. -/
theorem getCodeKey_bigEndianToUint64 {x : Bytes} (hx : x.length = 8) :
    getCodeKey (bigEndianToUint64 x) = codeKeyPrefix ++ x := by
  have hlt : ofBigEndian x < 2 ^ 64 := by
    have := ofBigEndian_lt x
    rw [hx] at this
    exact this
  have hback := bigEndian_ofBigEndian x
  rw [hx] at hback
  rw [getCodeKey, bigEndianToUint64, List.take_of_length_le hx.le, uint64ToBigEndian, UInt64.toNat_ofNat_of_lt' hlt, hback]

/-- The loop over the codes gives each its new info and leaves the rest alone. -/
theorem migrateCodeInfos_spec {es : List (Bytes × V3.Value)} (hes : es.Pairwise KeyLT)
    (h : ∀ e ∈ es, e.1.length = 8 ∧ ∃ c, e.2 = .codeInfo c) (s : V3.Store) :
    ∃ s', V3.migrateCodeInfos es s = (.ok (), s') ∧
      (∀ x c, (x, .codeInfo c) ∈ es →
        s'.get (codeKeyPrefix ++ x) = some (.current (.codeInfo (V3.updateCodeInfo c)))) ∧
      ∀ key, (∀ e ∈ es, key ≠ codeKeyPrefix ++ e.1) → s'.get key = s.get key := by
  induction es generalizing s with
  | nil => exact ⟨s, rfl, nofun, fun _ _ ↦ rfl⟩
  | cons e es ih =>
    obtain ⟨x, v⟩ := e
    obtain ⟨hx, c, rfl⟩ := h _ List.mem_cons_self
    obtain ⟨hlt, hrest⟩ := List.pairwise_cons.1 hes
    obtain ⟨s', hrun, hcodes, hkeeps⟩ := ih hrest (fun e he ↦ h e (List.mem_cons_of_mem _ he))
      (s.set (codeKeyPrefix ++ x) (.current (.codeInfo (V3.updateCodeInfo c))))
    -- the keys that are left lie behind this one
    have hahead : ∀ e ∈ es, codeKeyPrefix ++ x ≠ codeKeyPrefix ++ e.1 := fun e he heq ↦
      absurd (hlt e he) (by rw [KeyLT, List.append_cancel_left heq]; exact lt_irrefl _)
    refine ⟨s', ?_, fun y c' hmem ↦ ?_, fun key hkey ↦ ?_⟩
    · rw [← hrun, ← getCodeKey_bigEndianToUint64 hx]
      have hread : V3.readCodeID x = (pure (bigEndianToUint64 x) : V3.MigrationM UInt64) := by
        rw [V3.readCodeID, if_neg (Nat.not_lt.2 hx.ge)]
      simp only [V3.migrateCodeInfos, hread]
      rfl
    · rcases List.mem_cons.1 hmem with heq | hmem
      · cases heq
        rw [hkeeps _ hahead, OrderedStore.get_set_self]
      · exact hcodes y c' hmem
    · rw [hkeeps key fun e he ↦ hkey e (List.mem_cons_of_mem _ he)]
      exact OrderedStore.get_set_of_ne _ _ (hkey _ List.mem_cons_self)

end Codes

/-- What version 4 keeps of version 3. -/
structure Migrated (k : Keeper X) (s s' : V3.Store) : Prop where
  codes : ∀ codeID c, s.get (getCodeKey codeID) = some (.codeInfo c) → ∃ info,
    s'.get (getCodeKey codeID) = some (.current (.codeInfo info)) ∧ info.codeHash = c.codeHash ∧
      info.creator = c.creator ∧
      ∀ actor, info.instantiateConfig.allowed k.bech32 actor = legacyAllowed k.bech32 c.instantiateConfig actor
  same : ∀ key, key.head? = some 1 → ((s'.get key).isSome ↔ (s.get key).isSome)
  params : ∀ p, s.get paramsKey = some (.params p) → ∃ p', s'.get paramsKey = some (.current (.params p')) ∧
    (∀ actor, p'.codeUploadAccess.allowed k.bech32 actor = legacyAllowed k.bech32 p.codeUploadAccess actor) ∧
    ∀ creator actor, k.bech32.valid creator = true →
      ((AccessType.with k p'.instantiateDefaultPermission creator).bind fun a ↦ a.allowed k.bech32 actor).toOption =
        (legacyAllowed k.bech32 (legacyWith k.bech32 p.instantiateDefaultPermission creator) actor).toOption
  noParams : s.get paramsKey = none → s'.get paramsKey = none
  others : ∀ key, key ≠ paramsKey → key.head? ≠ some 1 → s'.get key = s.get key

/-- The first half of the migration. -/
theorem migrateParams_spec {s : V3.Store} (h : Version3 s) : ∃ s', V3.migrateParams (s.get paramsKey) s = (.ok (), s') ∧
    (∀ p, s.get paramsKey = some (.params p) → s'.get paramsKey = some (.current (.params (V3.updateParams p)))) ∧
    (s.get paramsKey = none → s'.get paramsKey = none) ∧ ∀ key, key ≠ paramsKey → s'.get key = s.get key := by
  rcases hget : s.get paramsKey with _ | v
  · exact ⟨s, rfl, nofun, fun _ ↦ hget, fun _ _ ↦ rfl⟩
  · obtain ⟨p, rfl⟩ := h.params v hget
    refine ⟨s.set paramsKey (.current (.params (V3.updateParams p))), rfl, fun p' hp' ↦ ?_, nofun,
      fun key hkey ↦ OrderedStore.get_set_of_ne _ _ hkey⟩
    cases hp'
    exact OrderedStore.get_set_self _ _ _

/-- The migration of a version 3 store goes through, and everybody may do what they might do before. -/
theorem migrate3to4_preserves {s : V3.Store} (h : Version3 s) :
    ∃ s', V3.migrate3to4 s = (.ok (), s') ∧ Migrated k s s' := by
  obtain ⟨s₁, hrun₁, hparams, hnone, hkeeps₁⟩ := migrateParams_spec h
  have hsame : ∀ x, s₁.get (codeKeyPrefix ++ x) = s.get (codeKeyPrefix ++ x) := fun x ↦
    hkeeps₁ _ (by simp [codeKeyPrefix, paramsKey])
  have hlegacy : ∀ e ∈ s₁.scan codeKeyPrefix, e.1.length = 8 ∧ ∃ c, e.2 = .codeInfo c := by
    rintro ⟨x, v⟩ he
    rw [OrderedStore.mem_scan, hsame] at he
    exact h.codes x v he
  obtain ⟨s₂, hrun₂, hcodes, hkeeps₂⟩ := migrateCodeInfos_spec (OrderedStore.scan_sorted _ _) hlegacy s₁
  have hapart : ∀ key, key.head? ≠ some 1 → s₂.get key = s₁.get key := fun key hkey ↦
    hkeeps₂ key fun e _ heq ↦ hkey (by rw [heq]; rfl)
  have hcode : ∀ x c, s.get (codeKeyPrefix ++ x) = some (.codeInfo c) →
      s₂.get (codeKeyPrefix ++ x) = some (.current (.codeInfo (V3.updateCodeInfo c))) := fun x c hget ↦
    hcodes x c (OrderedStore.mem_scan.2 ((hsame x).trans hget))
  refine ⟨s₂, ?_, ?_⟩
  · refine Program.bind_eq_ok.2 ⟨_, s, rfl, Program.bind_eq_ok.2 ⟨(), s₁, hrun₁, ?_⟩⟩
    exact Program.bind_eq_ok.2 ⟨_, s₁, rfl, hrun₂⟩
  · exact {
      codes := fun codeID c hget ↦ ⟨_, hcode _ c hget, rfl, rfl, fun actor ↦ allowed_updateAccessConfig _ _ _⟩
      same := by
        intro key hkey
        obtain ⟨x, rfl⟩ : ∃ x, key = codeKeyPrefix ++ x := by
          cases key with
          | nil => cases hkey
          | cons b x =>
            cases hkey
            exact ⟨x, rfl⟩
        rcases hget : s.get (codeKeyPrefix ++ x) with _ | v
        · rw [hkeeps₂ _ fun e he heq ↦ ?_, hsame, hget]
          obtain rfl := List.append_cancel_left heq
          have hmem := OrderedStore.mem_scan.1 (show (e.1, e.2) ∈ s₁.scan codeKeyPrefix from he)
          rw [hsame, hget] at hmem
          cases hmem
        · obtain ⟨-, c, rfl⟩ := h.codes x v hget
          rw [hcode x c hget]
          simp
      params := by
        intro p hget
        refine ⟨V3.updateParams p, ?_, fun actor ↦ allowed_updateAccessConfig _ _ _,
          fun creator actor hcreator ↦ allowed_with_updateParams actor p hcreator⟩
        rw [hapart _ (by decide), hparams p hget]
      noParams := fun hget ↦ by rw [hapart _ (by decide), hnone hget]
      others := fun key hkey hhead ↦ by rw [hapart key hhead, hkeeps₁ key hkey] }

/-- Carol's code of version 3, for them alone, on a chain where only they upload. -/
def legacyStore : V3.Store :=
  let onlyCarol : V3.AccessConfig := { permission := .onlyAddress, address := carol }
  (OrderedStore.empty.set (getCodeKey 1) (.codeInfo ⟨[1, 2, 3], carol, onlyCarol⟩)).set paramsKey
    (.params ⟨onlyCarol, .onlyAddress⟩)

theorem version3_legacyStore : Version3 legacyStore := by
  constructor
  · intro v hget
    rw [legacyStore, OrderedStore.get_set_self] at hget
    exact ⟨_, (Option.some.inj hget).symm⟩
  · intro x v hget
    have hne : codeKeyPrefix ++ x ≠ paramsKey := by simp [codeKeyPrefix, paramsKey]
    rw [legacyStore, OrderedStore.get_set_of_ne _ _ hne, OrderedStore.get_set] at hget
    split at hget
    · next hkey =>
      rw [List.append_cancel_left hkey]
      exact ⟨by simp, _, (Option.some.inj hget).symm⟩
    · cases hget

/-- Carol may still use the code, and nobody else may. -/
theorem migrate3to4_legacyStore : ∃ s' info, V3.migrate3to4 legacyStore = (.ok (), s') ∧
    s'.get (getCodeKey 1) = some (.current (.codeInfo info)) ∧
    info.instantiateConfig.allowed plainBech32 [1] = .ok true ∧
    info.instantiateConfig.allowed plainBech32 [2] = .ok false := by
  obtain ⟨s', hrun, hmigrated⟩ := migrate3to4_preserves (k := plainnet idleContract) version3_legacyStore
  obtain ⟨info, hget, -, -, hallowed⟩ := hmigrated.codes 1 ⟨[1, 2, 3], carol, { permission := .onlyAddress, address := carol }⟩
    (by decide +kernel)
  refine ⟨s', info, hrun, hget, (hallowed [1]).trans ?_, (hallowed [2]).trans ?_⟩
  · decide +kernel
  · decide +kernel

end Cosmwasgo.Properties
