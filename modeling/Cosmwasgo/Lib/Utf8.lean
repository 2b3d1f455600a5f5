import Cosmwasgo.Lib.Bytes

namespace Cosmwasgo.Lib.Utf8

/-- The code point that stands for a byte outside every valid encoding. -/
def runeError : Nat := 0xFFFD

/-- A code point that has an encoding; the surrogates have none. -/
def ValidRune (r : Nat) : Prop := r < 0xD800 ∨ 0xE000 ≤ r ∧ r < 0x110000

instance (r : Nat) : Decidable (ValidRune r) := inferInstanceAs (Decidable (_ ∨ _))

def encodeRune (r : Nat) : Bytes :=
  if r < 0x80 then [Fin.ofNat 256 r]
  else if r < 0x800 then [Fin.ofNat 256 (0xC0 + r / 64), Fin.ofNat 256 (0x80 + r % 64)]
  else if r < 0x10000 then
    [Fin.ofNat 256 (0xE0 + r / 4096), Fin.ofNat 256 (0x80 + r / 64 % 64), Fin.ofNat 256 (0x80 + r % 64)]
  else
    [Fin.ofNat 256 (0xF0 + r / 262144), Fin.ofNat 256 (0x80 + r / 4096 % 64), Fin.ofNat 256 (0x80 + r / 64 % 64),
      Fin.ofNat 256 (0x80 + r % 64)]

/-- A byte that continues an encoding. -/
def continues (b : Byte) : Bool := 0x80 ≤ b.val && b.val ≤ 0xBF

/-- The range of the second byte depends on the first: the encoding has to be the shortest, and no surrogate. -/
def second (b₀ b₁ : Byte) : Bool :=
  (if b₀.val = 0xE0 then 0xA0 else if b₀.val = 0xF0 then 0x90 else 0x80) ≤ b₁.val &&
    b₁.val ≤ (if b₀.val = 0xED then 0x9F else if b₀.val = 0xF4 then 0x8F else 0xBF)

section Sizes

variable (b₀ : Byte)

/-- What follows the first byte of an encoding of two bytes. -/
def two : Bytes → Option (Nat × Bytes)
  | b₁ :: p => if continues b₁ then some ((b₀.val - 0xC0) * 64 + (b₁.val - 0x80), p) else none
  | _ => none

def three : Bytes → Option (Nat × Bytes)
  | b₁ :: b₂ :: p =>
    if second b₀ b₁ && continues b₂ then
      some ((b₀.val - 0xE0) * 4096 + (b₁.val - 0x80) * 64 + (b₂.val - 0x80), p)
    else none
  | _ => none

def four : Bytes → Option (Nat × Bytes)
  | b₁ :: b₂ :: b₃ :: p =>
    if second b₀ b₁ && continues b₂ && continues b₃ then
      some ((b₀.val - 0xF0) * 262144 + (b₁.val - 0x80) * 4096 + (b₂.val - 0x80) * 64 + (b₃.val - 0x80), p)
    else none
  | _ => none

end Sizes

/-- The code point a valid encoding at the head stands for, and what comes after it. -/
def validRune : Bytes → Option (Nat × Bytes)
  | [] => none
  | b₀ :: p =>
    if b₀.val < 0x80 then some (b₀.val, p)
    else if b₀.val < 0xC2 then none
    else if b₀.val < 0xE0 then two b₀ p
    else if b₀.val < 0xF0 then three b₀ p
    else if b₀.val < 0xF5 then four b₀ p
    else none

/-- `utf8.DecodeRune`, with the rest in place of the size. A byte that starts no valid encoding is taken alone. -/
def decodeRune (p : Bytes) : Nat × Bytes := (validRune p).getD (runeError, p.tail)

def runesFrom : Nat → Bytes → List Nat
  | 0, _ => []
  | fuel + 1, p => if p = [] then [] else (decodeRune p).1 :: runesFrom fuel (decodeRune p).2

/-- The code points of a byte string; each of them takes a byte at least. -/
def runes (p : Bytes) : List Nat := runesFrom p.length p

section RoundTrip

variable {p rest : Bytes} {r : Nat}

theorem byte_eq_ofNat {b : Byte} {n : Nat} (h : n = b.val) : Fin.ofNat 256 n = b := by
  subst h
  exact Fin.ofNat_val_eq_self b

theorem continues_iff {b : Byte} : continues b = true ↔ 0x80 ≤ b.val ∧ b.val ≤ 0xBF := by
  simp [continues]

/-- The second byte continues, and keeps the code point in the range of its size. -/
theorem second_iff {b₀ b₁ : Byte} : second b₀ b₁ = true ↔
    0x80 ≤ b₁.val ∧ b₁.val ≤ 0xBF ∧ (b₀.val = 0xE0 → 0xA0 ≤ b₁.val) ∧ (b₀.val = 0xF0 → 0x90 ≤ b₁.val) ∧
      (b₀.val = 0xED → b₁.val ≤ 0x9F) ∧ (b₀.val = 0xF4 → b₁.val ≤ 0x8F) := by
  unfold second
  simp only [Bool.and_eq_true, decide_eq_true_eq]
  split_ifs <;> omega

theorem two_sound {b₀ : Byte} (hlo : 0xC2 ≤ b₀.val) (hhi : b₀.val < 0xE0) (h : two b₀ p = some (r, rest)) :
    ValidRune r ∧ b₀ :: p = encodeRune r ++ rest := by
  rcases p with _ | ⟨b₁, p⟩
  · cases h
  · rw [two] at h
    split at h
    · next h₁ =>
      rw [continues_iff] at h₁
      obtain ⟨hr, rfl⟩ := Prod.mk.inj (Option.some.inj h)
      refine ⟨.inl (by omega), ?_⟩
      rw [encodeRune, if_neg (by omega), if_pos (by omega), byte_eq_ofNat (b := b₀) (by omega),
        byte_eq_ofNat (b := b₁) (by omega)]
      rfl
    · cases h

theorem three_sound {b₀ : Byte} (hlo : 0xE0 ≤ b₀.val) (hhi : b₀.val < 0xF0) (h : three b₀ p = some (r, rest)) :
    ValidRune r ∧ b₀ :: p = encodeRune r ++ rest := by
  rcases p with _ | ⟨b₁, _ | ⟨b₂, p⟩⟩
  · cases h
  · cases h
  · rw [three] at h
    split at h
    · next h₁ =>
      rw [Bool.and_eq_true, second_iff, continues_iff] at h₁
      obtain ⟨hr, rfl⟩ := Prod.mk.inj (Option.some.inj h)
      refine ⟨by unfold ValidRune; omega, ?_⟩
      rw [encodeRune, if_neg (by omega), if_neg (by omega), if_pos (by omega), byte_eq_ofNat (b := b₀) (by omega),
        byte_eq_ofNat (b := b₁) (by omega), byte_eq_ofNat (b := b₂) (by omega)]
      rfl
    · cases h

theorem four_sound {b₀ : Byte} (hlo : 0xF0 ≤ b₀.val) (hhi : b₀.val < 0xF5) (h : four b₀ p = some (r, rest)) :
    ValidRune r ∧ b₀ :: p = encodeRune r ++ rest := by
  rcases p with _ | ⟨b₁, _ | ⟨b₂, _ | ⟨b₃, p⟩⟩⟩
  · cases h
  · cases h
  · cases h
  · rw [four] at h
    split at h
    · next h₁ =>
      rw [Bool.and_eq_true, Bool.and_eq_true, second_iff, continues_iff, continues_iff] at h₁
      obtain ⟨hr, rfl⟩ := Prod.mk.inj (Option.some.inj h)
      refine ⟨by unfold ValidRune; omega, ?_⟩
      rw [encodeRune, if_neg (by omega), if_neg (by omega), if_neg (by omega), byte_eq_ofNat (b := b₀) (by omega),
        byte_eq_ofNat (b := b₁) (by omega), byte_eq_ofNat (b := b₂) (by omega), byte_eq_ofNat (b := b₃) (by omega)]
      rfl
    · cases h

/-- What is read as a code point is its encoding. -/
theorem validRune_sound (h : validRune p = some (r, rest)) : ValidRune r ∧ p = encodeRune r ++ rest := by
  rcases p with _ | ⟨b₀, p⟩
  · cases h
  · rw [validRune] at h
    split_ifs at h with h₀ h₁ h₂ h₃ h₄
    · cases h
      refine ⟨.inl (by omega), ?_⟩
      rw [encodeRune, if_pos h₀, byte_eq_ofNat rfl]
      rfl
    · exact two_sound (by omega) h₂ h
    · exact three_sound (by omega) h₃ h
    · exact four_sound (by omega) h₄ h

theorem val_ofNat {n : Nat} (h : n < 256) : (Fin.ofNat 256 n).val = n := Nat.mod_eq_of_lt h

theorem validRune_two {b₀ b₁ : Byte} (hlo : 0x80 ≤ r) (hhi : r < 0x800) (h₀ : b₀.val = 0xC0 + r / 64)
    (h₁ : b₁.val = 0x80 + r % 64) (rest : Bytes) : validRune (b₀ :: b₁ :: rest) = some (r, rest) := by
  have hc : continues b₁ = true := continues_iff.2 (by omega)
  rw [validRune, if_neg (by omega), if_neg (by omega), if_pos (by omega), two, if_pos hc]
  refine congrArg some (Prod.ext ?_ rfl)
  dsimp only
  omega

theorem validRune_three {b₀ b₁ b₂ : Byte} (hr : ValidRune r) (hlo : 0x800 ≤ r) (hhi : r < 0x10000)
    (h₀ : b₀.val = 0xE0 + r / 4096) (h₁ : b₁.val = 0x80 + r / 64 % 64) (h₂ : b₂.val = 0x80 + r % 64) (rest : Bytes) :
    validRune (b₀ :: b₁ :: b₂ :: rest) = some (r, rest) := by
  unfold ValidRune at hr
  have hc : (second b₀ b₁ && continues b₂) = true := by
    rw [Bool.and_eq_true, second_iff, continues_iff]
    omega
  rw [validRune, if_neg (by omega), if_neg (by omega), if_neg (by omega), if_pos (by omega), three, if_pos hc]
  refine congrArg some (Prod.ext ?_ rfl)
  dsimp only
  omega

theorem validRune_four {b₀ b₁ b₂ b₃ : Byte} (hr : ValidRune r) (hlo : 0x10000 ≤ r)
    (h₀ : b₀.val = 0xF0 + r / 262144) (h₁ : b₁.val = 0x80 + r / 4096 % 64) (h₂ : b₂.val = 0x80 + r / 64 % 64)
    (h₃ : b₃.val = 0x80 + r % 64) (rest : Bytes) : validRune (b₀ :: b₁ :: b₂ :: b₃ :: rest) = some (r, rest) := by
  unfold ValidRune at hr
  have hc : (second b₀ b₁ && continues b₂ && continues b₃) = true := by
    rw [Bool.and_eq_true, Bool.and_eq_true, second_iff, continues_iff, continues_iff]
    omega
  rw [validRune, if_neg (by omega), if_neg (by omega), if_neg (by omega), if_neg (by omega), if_pos (by omega), four,
    if_pos hc]
  refine congrArg some (Prod.ext ?_ rfl)
  dsimp only
  omega

/-- What is written is read back, whatever comes after it. -/
theorem validRune_encodeRune (hr : ValidRune r) (rest : Bytes) : validRune (encodeRune r ++ rest) = some (r, rest) := by
  have hmax : r < 0x110000 := by
    unfold ValidRune at hr
    omega
  rw [encodeRune]
  split_ifs with h₁ h₂ h₃
  · have hb : (Fin.ofNat 256 r).val = r := val_ofNat (by omega)
    rw [List.singleton_append, validRune, hb, if_pos h₁]
  · exact validRune_two (by omega) h₂ (val_ofNat (by omega)) (val_ofNat (by omega)) rest
  · exact validRune_three hr (by omega) h₃ (val_ofNat (by omega)) (val_ofNat (by omega)) (val_ofNat (by omega)) rest
  · exact validRune_four hr (by omega) (val_ofNat (by omega)) (val_ofNat (by omega)) (val_ofNat (by omega))
      (val_ofNat (by omega)) rest

end RoundTrip

section Runes

variable {p rest : Bytes} {r : Nat}

theorem length_encodeRune_pos (r : Nat) : 0 < (encodeRune r).length := by
  unfold encodeRune
  split_ifs <;> exact Nat.succ_pos _

theorem length_decodeRune_lt (hp : p ≠ []) : (decodeRune p).2.length < p.length := by
  unfold decodeRune
  rcases hv : validRune p with _ | ⟨r, rest⟩
  · rw [Option.getD_none, List.length_tail]
    exact Nat.sub_lt (List.length_pos_of_ne_nil hp) Nat.one_pos
  · have hlen := congrArg List.length (validRune_sound hv).2
    rw [List.length_append] at hlen
    have hpos := length_encodeRune_pos r
    change rest.length < p.length
    omega

/-- Fuel for each byte is enough. -/
theorem runesFrom_eq {fuel fuel' : Nat} (h : p.length ≤ fuel) (h' : p.length ≤ fuel') :
    runesFrom fuel p = runesFrom fuel' p := by
  induction fuel generalizing p fuel' with
  | zero =>
    rw [List.eq_nil_of_length_eq_zero (Nat.le_zero.1 h)]
    cases fuel' <;> rfl
  | succ fuel ih =>
    rcases eq_or_ne p [] with rfl | hp
    · cases fuel' <;> rfl
    · have hpos := List.length_pos_of_ne_nil hp
      have hlt := length_decodeRune_lt hp
      obtain ⟨fuel', rfl⟩ := Nat.exists_eq_succ_of_ne_zero (Nat.ne_zero_of_lt (hpos.trans_le h'))
      have hrest : runesFrom fuel (decodeRune p).2 = runesFrom fuel' (decodeRune p).2 := ih (by omega) (by omega)
      rw [runesFrom, runesFrom, if_neg hp, if_neg hp, hrest]

theorem runes_of_ne_nil (hp : p ≠ []) : runes p = (decodeRune p).1 :: runes (decodeRune p).2 := by
  have hlt := length_decodeRune_lt hp
  obtain ⟨n, hn⟩ := Nat.exists_eq_succ_of_ne_zero (Nat.ne_zero_of_lt hlt)
  have hrest : runes (decodeRune p).2 = runesFrom n (decodeRune p).2 := runesFrom_eq le_rfl (by omega)
  rw [runes, hn, runesFrom, if_neg hp, hrest]

theorem runes_append {r : Nat} (hr : ValidRune r) (rest : Bytes) : runes (encodeRune r ++ rest) = r :: runes rest := by
  have hne : encodeRune r ++ rest ≠ [] := by
    intro h
    have hpos := length_encodeRune_pos r
    rw [(List.append_eq_nil_iff.1 h).1] at hpos
    cases hpos
  rw [runes_of_ne_nil hne, decodeRune, validRune_encodeRune hr]
  rfl

theorem runes_invalid {b : Byte} (h : validRune (b :: rest) = none) : runes (b :: rest) = runeError :: runes rest := by
  rw [runes_of_ne_nil (List.cons_ne_nil b rest), decodeRune, h]
  rfl

theorem validRune_runeError : ValidRune runeError := by decide

/-- The byte string is read off its head: an encoding, or a byte that starts none. -/
theorem cases_head (hp : p ≠ []) :
    (∃ r rest, ValidRune r ∧ p = encodeRune r ++ rest) ∨ ∃ b rest, p = b :: rest ∧ validRune p = none := by
  rcases hv : validRune p with _ | ⟨r, rest⟩
  · obtain ⟨b, rest, rfl⟩ := List.exists_cons_of_ne_nil hp
    exact .inr ⟨b, rest, rfl, rfl⟩
  · exact .inl ⟨r, rest, validRune_sound hv⟩

/-- Induction over the code points of a byte string. -/
theorem runes_induction {motive : Bytes → Prop} (nil : motive [])
    (rune : ∀ r rest, ValidRune r → motive rest → motive (encodeRune r ++ rest))
    (invalid : ∀ b rest, validRune (b :: rest) = none → motive rest → motive (b :: rest)) (p : Bytes) : motive p := by
  induction hlen : p.length using Nat.strong_induction_on generalizing p with
  | _ n ih =>
    rcases eq_or_ne p [] with rfl | hp
    · exact nil
    · rcases cases_head hp with ⟨r, rest, hr, rfl⟩ | ⟨b, rest, rfl, hv⟩
      · have hpos := length_encodeRune_pos r
        rw [List.length_append] at hlen
        exact rune r rest hr (ih _ (by omega) rest rfl)
      · rw [List.length_cons] at hlen
        exact invalid b rest hv (ih _ (by omega) rest rfl)

theorem validRune_of_mem (p : Bytes) : ∀ r ∈ runes p, ValidRune r := by
  induction p using runes_induction with
  | nil => exact fun r hr ↦ nomatch hr
  | rune r rest hr ih =>
    rw [runes_append hr]
    exact List.forall_mem_cons.2 ⟨hr, ih⟩
  | invalid b rest hv ih =>
    rw [runes_invalid hv]
    exact List.forall_mem_cons.2 ⟨validRune_runeError, ih⟩

/-- A byte string all of whose bytes belong to valid encodings is the encoding of its code points. -/
theorem flatMap_encodeRune_runes (p : Bytes) (h : runeError ∉ runes p) : (runes p).flatMap encodeRune = p := by
  induction p using runes_induction with
  | nil => rfl
  | rune r rest hr ih =>
    rw [runes_append hr] at h ⊢
    rw [List.flatMap_cons, ih fun hmem ↦ h (List.mem_cons_of_mem _ hmem)]
  | invalid b rest hv _ =>
    rw [runes_invalid hv] at h
    exact absurd List.mem_cons_self h

theorem eq_of_runes_eq {p q : Bytes} (h : runes p = runes q) (hq : runeError ∉ runes q) : p = q := by
  rw [← flatMap_encodeRune_runes p (h ▸ hq), h, flatMap_encodeRune_runes q hq]

end Runes

section Fold

/-- `unicode.SimpleFold` goes round the code points that differ in case only. From `sr` on the next one is looked at until
it is not below `tr` any more, or all have been seen. -/
def foldLoop (simpleFold : Nat → Nat) (sr tr : Nat) : Nat → Nat → Nat
  | 0, r => r
  | fuel + 1, r => if r ≠ sr ∧ r < tr then foldLoop simpleFold sr tr fuel (simpleFold r) else r

/-- The comparison of two code points in `bytes.EqualFold`. -/
def foldEq (simpleFold : Nat → Nat) (s t : Nat) : Bool :=
  if s = t then true
  else
    let sr := min s t
    let tr := max s t
    if tr < 0x80 then 0x41 ≤ sr && sr ≤ 0x5A && tr == sr + 32
    else foldLoop simpleFold sr tr tr (simpleFold sr) == tr

def foldAll (simpleFold : Nat → Nat) : List Nat → List Nat → Bool
  | [], [] => true
  | s :: ss, t :: ts => foldEq simpleFold s t && foldAll simpleFold ss ts
  | _, _ => false

/-- `bytes.EqualFold`, which is `strings.EqualFold` on the bytes of a string. -/
def equalFold (simpleFold : Nat → Nat) (s t : Bytes) : Bool := foldAll simpleFold (runes s) (runes t)

variable {simpleFold : Nat → Nat}

theorem foldEq_refl (r : Nat) : foldEq simpleFold r r = true := if_pos rfl

theorem foldEq_comm (s t : Nat) : foldEq simpleFold s t = foldEq simpleFold t s := by
  unfold foldEq
  rw [Nat.min_comm, Nat.max_comm]
  exact if_congr eq_comm rfl rfl

theorem foldAll_iff {s t : List Nat} :
    foldAll simpleFold s t = true ↔ List.Forall₂ (fun a b ↦ foldEq simpleFold a b = true) s t := by
  induction s generalizing t with
  | nil => cases t <;> simp [foldAll]
  | cons a s ih => cases t <;> simp [foldAll, ih]

theorem foldAll_refl (s : List Nat) : foldAll simpleFold s s = true :=
  foldAll_iff.2 (List.forall₂_same.2 fun r _ ↦ foldEq_refl r)

theorem equalFold_of_runes_eq {s t : Bytes} (h : runes s = runes t) : equalFold simpleFold s t = true := by
  rw [equalFold, h, foldAll_refl]

theorem equalFold_symm {s t : Bytes} (h : equalFold simpleFold s t = true) : equalFold simpleFold t s = true := by
  refine foldAll_iff.2 (List.Forall₂.flip ((foldAll_iff.1 h).imp fun a b hab ↦ ?_))
  exact (foldEq_comm b a).trans hab

/-- No other code point differs from this one in case only. -/
def Caseless (simpleFold : Nat → Nat) (r : Nat) : Prop := ∀ x, ValidRune x → foldEq simpleFold x r = true → x = r

/-- A valid encoding throughout, and without upper and lower case. -/
def Rigid (simpleFold : Nat → Nat) (p : Bytes) : Prop := ∀ r ∈ runes p, r ≠ runeError ∧ Caseless simpleFold r

/-- A rigid byte string is equal to itself alone. -/
theorem eq_of_equalFold {p q : Bytes} (hq : Rigid simpleFold q) (h : equalFold simpleFold p q = true) : p = q := by
  refine eq_of_runes_eq ?_ fun hmem ↦ (hq _ hmem).1 rfl
  have hall := foldAll_iff.1 h
  have hvalid := validRune_of_mem p
  unfold Rigid at hq
  generalize runes p = ps, runes q = qs at *
  induction hall with
  | nil => rfl
  | @cons a b ps qs hab _ ih =>
    rw [List.forall_mem_cons] at hq hvalid
    rw [hq.1.2 a hvalid.1 hab, ih hq.2 hvalid.2]

/-- Any other one is equal to something else as well. -/
theorem exists_equalFold_ne (p : Bytes) (h : ¬Rigid simpleFold p) : ∃ q, q ≠ p ∧ equalFold simpleFold q p = true := by
  induction p using runes_induction with
  | nil => exact absurd (fun r hr ↦ nomatch hr) h
  | rune r rest hr ih =>
    by_cases hrest : Rigid simpleFold rest
    · by_cases herr : r = runeError
      · -- a byte that starts no encoding in place of the replacement
        subst herr
        have hinvalid : validRune (0xFF :: rest) = none := rfl
        refine ⟨0xFF :: rest, fun heq ↦ ?_, equalFold_of_runes_eq ?_⟩
        · have hlen := congrArg List.length heq
          rw [List.length_append, List.length_cons] at hlen
          have hthree : (encodeRune runeError).length = 3 := by decide
          omega
        · rw [runes_append hr, runes_invalid hinvalid]
      · -- the other case of the first code point
        have hcased : ¬Caseless simpleFold r := by
          intro hcaseless
          refine h ?_
          unfold Rigid
          rw [runes_append hr]
          exact List.forall_mem_cons.2 ⟨⟨herr, hcaseless⟩, hrest⟩
        obtain ⟨x, hx⟩ := not_forall.1 hcased
        rw [Classical.not_imp, Classical.not_imp] at hx
        obtain ⟨hvalid, hfold, hne⟩ := hx
        refine ⟨encodeRune x ++ rest, fun heq ↦ ?_, ?_⟩
        · have hrunes := congrArg runes heq
          rw [runes_append hvalid, runes_append hr] at hrunes
          exact hne (List.cons.inj hrunes).1
        · rw [equalFold, runes_append hvalid, runes_append hr, foldAll, hfold, foldAll_refl]
          rfl
    · obtain ⟨q, hne, hq⟩ := ih hrest
      refine ⟨encodeRune r ++ q, fun heq ↦ hne (List.append_cancel_left heq), ?_⟩
      rw [equalFold, runes_append hr, runes_append hr, foldAll, foldEq_refl, Bool.true_and]
      exact hq
  | invalid b rest hv _ =>
    -- the encoding of the replacement in place of the byte
    refine ⟨encodeRune runeError ++ rest, fun heq ↦ ?_, equalFold_of_runes_eq ?_⟩
    · have hlen := congrArg List.length heq
      rw [List.length_append, List.length_cons] at hlen
      have hthree : (encodeRune runeError).length = 3 := by decide
      omega
    · rw [runes_append validRune_runeError, runes_invalid hv]

end Fold

end Cosmwasgo.Lib.Utf8
