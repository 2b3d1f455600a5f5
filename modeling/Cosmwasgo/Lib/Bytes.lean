import Mathlib.Data.List.Lex
import Mathlib.Order.Fin.Basic
import Mathlib.Tactic.Positivity
import Mathlib.Tactic.Ring

namespace Cosmwasgo.Lib

abbrev Byte := Fin 256

instance neZero_byteSize : NeZero 256 := ⟨by decide⟩

abbrev Bytes := List Byte

/-- The `w` low bytes of `n`, most significant first. -/
def bigEndian : Nat → Nat → Bytes
  | 0, _ => []
  | w + 1, n => Fin.ofNat 256 (n / 256 ^ w) :: bigEndian w n

/-- The number a byte string spells, most significant byte first. -/
def ofBigEndian (b : Bytes) : Nat := b.foldl (fun n x ↦ n * 256 + x.val) 0

@[simp] theorem length_bigEndian (w n : Nat) : (bigEndian w n).length = w := by
  induction w with
  | zero => rfl
  | succ w ih => simp [bigEndian, ih]

theorem foldl_bigEndian (w n acc : Nat) :
    (bigEndian w n).foldl (fun n x ↦ n * 256 + x.val) acc = acc * 256 ^ w + n % 256 ^ w := by
  induction w generalizing acc with
  | zero => simp [bigEndian, Nat.mod_one]
  | succ w ih =>
    have hd : n % 256 ^ (w + 1) = n / 256 ^ w % 256 * 256 ^ w + n % 256 ^ w := by
      rw [pow_succ, Nat.mod_mul, Nat.add_comm, Nat.mul_comm]
    simp only [bigEndian, List.foldl_cons, ih, Fin.val_ofNat, hd]
    ring

theorem ofBigEndian_bigEndian (w n : Nat) : ofBigEndian (bigEndian w n) = n % 256 ^ w := by
  simp [ofBigEndian, foldl_bigEndian]

theorem ofBigEndian_bigEndian_of_lt {w n : Nat} (h : n < 256 ^ w) : ofBigEndian (bigEndian w n) = n := by
  rw [ofBigEndian_bigEndian, Nat.mod_eq_of_lt h]

theorem bigEndian_injective {w m n : Nat} (hm : m < 256 ^ w) (hn : n < 256 ^ w)
    (h : bigEndian w m = bigEndian w n) : m = n := by
  rw [← ofBigEndian_bigEndian_of_lt hm, h, ofBigEndian_bigEndian_of_lt hn]

theorem bigEndian_mod (w n : Nat) : bigEndian w (n % 256 ^ w) = bigEndian w n := by
  induction w generalizing n with
  | zero => rfl
  | succ w ih =>
    have hq : Fin.ofNat 256 (n % 256 ^ (w + 1) / 256 ^ w) = Fin.ofNat 256 (n / 256 ^ w) := by
      ext
      simp only [Fin.val_ofNat, pow_succ, Nat.mod_mul_right_div_self, Nat.mod_mod]
    have hr : bigEndian w (n % 256 ^ (w + 1)) = bigEndian w n := by
      rw [← ih, pow_succ, Nat.mod_mul_right_mod, ih]
    simp only [bigEndian, hq, hr]

theorem foldl_bytes (b : Bytes) (acc : Nat) :
    b.foldl (fun n x ↦ n * 256 + x.val) acc = acc * 256 ^ b.length + ofBigEndian b := by
  induction b generalizing acc with
  | nil => simp [ofBigEndian]
  | cons x b ih =>
    have h0 : ofBigEndian (x :: b) = x.val * 256 ^ b.length + ofBigEndian b := by
      rw [ofBigEndian, List.foldl_cons, ih, Nat.zero_mul, Nat.zero_add]
    rw [List.foldl_cons, ih, h0, List.length_cons]
    ring

theorem ofBigEndian_cons (x : Byte) (b : Bytes) :
    ofBigEndian (x :: b) = x.val * 256 ^ b.length + ofBigEndian b := by
  simpa [ofBigEndian] using foldl_bytes b x.val

theorem ofBigEndian_lt (b : Bytes) : ofBigEndian b < 256 ^ b.length := by
  induction b with
  | nil => simp [ofBigEndian]
  | cons x b ih =>
    rw [ofBigEndian_cons, List.length_cons, pow_succ]
    have hx : x.val * 256 ^ b.length ≤ 255 * 256 ^ b.length := Nat.mul_le_mul_right _ (by omega)
    omega

/-- Every byte string is the encoding of the number it spells. -/
theorem bigEndian_ofBigEndian (b : Bytes) : bigEndian b.length (ofBigEndian b) = b := by
  induction b with
  | nil => rfl
  | cons x b ih =>
    have hpos : 0 < 256 ^ b.length := by positivity
    have hlt := ofBigEndian_lt b
    have hq : (x.val * 256 ^ b.length + ofBigEndian b) / 256 ^ b.length = x.val := by
      rw [Nat.add_comm, Nat.add_mul_div_right _ _ hpos, Nat.div_eq_of_lt hlt, Nat.zero_add]
    have hr : (x.val * 256 ^ b.length + ofBigEndian b) % 256 ^ b.length = ofBigEndian b := by
      rw [Nat.add_comm, Nat.add_mul_mod_self_right, Nat.mod_eq_of_lt hlt]
    rw [List.length_cons, bigEndian, ofBigEndian_cons, hq, ← bigEndian_mod, hr, ih]
    simp

/-- On numbers that fit, byte order is numeric order. -/
theorem bigEndian_lt {w m n : Nat} (h : m < n) (hn : n < 256 ^ w) : bigEndian w m < bigEndian w n := by
  induction w generalizing m n with
  | zero => simp at hn; omega
  | succ w ih =>
    have hpos : 0 < 256 ^ w := by positivity
    rw [pow_succ, Nat.mul_comm] at hn
    have hn' : n / 256 ^ w < 256 := Nat.div_lt_of_lt_mul (by rwa [Nat.mul_comm] at hn)
    have hle : m / 256 ^ w ≤ n / 256 ^ w := Nat.div_le_div_right h.le
    rw [bigEndian, bigEndian, List.cons_lt_cons_iff]
    rcases hle.lt_or_eq with hlt | heq
    · left
      rw [Fin.lt_def, Fin.val_ofNat, Fin.val_ofNat, Nat.mod_eq_of_lt hn', Nat.mod_eq_of_lt (hlt.trans hn')]
      exact hlt
    · right
      refine ⟨by rw [heq], ?_⟩
      have hm := Nat.div_add_mod m (256 ^ w)
      have hk := Nat.div_add_mod n (256 ^ w)
      rw [heq] at hm
      rw [← bigEndian_mod w m, ← bigEndian_mod w n]
      exact ih (by omega) (Nat.mod_lt _ hpos)

theorem bigEndian_le {w m n : Nat} (h : m ≤ n) (hn : n < 256 ^ w) : bigEndian w m ≤ bigEndian w n := by
  rcases Nat.eq_or_lt_of_le h with rfl | hlt
  · exact le_rfl
  · exact (bigEndian_lt hlt hn).le

theorem append_lt_append_iff (p : Bytes) {x y : Bytes} : p ++ x < p ++ y ↔ x < y := by
  induction p with
  | nil => rfl
  | cons a p ih => simp [ih]

/-- Fields of one width compare before what follows them. -/
theorem append_lt_append_of_lt {p q : Bytes} (hl : p.length = q.length) (h : p < q) (x y : Bytes) :
    p ++ x < q ++ y := by
  induction p generalizing q with
  | nil =>
    cases q with
    | nil => exact absurd h (lt_irrefl _)
    | cons b q => cases hl
  | cons a p ih =>
    cases q with
    | nil => cases hl
    | cons b q =>
      simp only [List.cons_append]
      rw [List.cons_lt_cons_iff] at h ⊢
      rcases h with h | ⟨rfl, h⟩
      · exact .inl h
      · exact .inr ⟨rfl, ih (by simpa using hl) h⟩

/-- A field with its length in front ends where it ends, whatever follows. -/
theorem length_append_inj {w : Nat} {a b x y : Bytes} (ha : a.length < 256 ^ w) (hb : b.length < 256 ^ w)
    (h : bigEndian w a.length ++ (a ++ x) = bigEndian w b.length ++ (b ++ y)) : a = b ∧ x = y := by
  obtain ⟨hlen, hrest⟩ := List.append_inj h (by simp)
  exact List.append_inj hrest (bigEndian_injective ha hb hlen)

theorem bigEndian_succ_of_lt {w n : Nat} (h : n < 256 ^ w) : bigEndian (w + 1) n = 0 :: bigEndian w n := by
  rw [bigEndian, Nat.div_eq_of_lt h]
  rfl

/-- A list that ends before the first separator is known from where it stands. -/
theorem append_cons_inj {α : Type} {s : α} {a b x y : List α} (ha : s ∉ a) (hb : s ∉ b)
    (h : a ++ s :: x = b ++ s :: y) : a = b ∧ x = y := by
  induction a generalizing b with
  | nil =>
    cases b with
    | nil => exact ⟨rfl, (List.cons.inj h).2⟩
    | cons c b => exact absurd (List.mem_cons.2 (.inl (List.cons.inj h).1)) hb
  | cons c a ih =>
    cases b with
    | nil => exact absurd (List.mem_cons.2 (.inl (List.cons.inj h).1.symm)) ha
    | cons c' b =>
      obtain ⟨rfl, ht⟩ := List.cons.inj h
      obtain ⟨rfl, rfl⟩ := ih (fun hm ↦ ha (List.mem_cons_of_mem _ hm)) (fun hm ↦ hb (List.mem_cons_of_mem _ hm)) ht
      exact ⟨rfl, rfl⟩

/-- What is left of a key after a given head. -/
def stripHead : Bytes → Bytes → Option Bytes
  | [], k => some k
  | _ :: _, [] => none
  | a :: p, b :: k => if a = b then stripHead p k else none

theorem stripHead_eq_some {p k x : Bytes} : stripHead p k = some x ↔ k = p ++ x := by
  induction p generalizing k with
  | nil => simp [stripHead, eq_comm]
  | cons a p ih =>
    cases k with
    | nil => simp [stripHead]
    | cons b k =>
      by_cases h : a = b
      · simp [stripHead, h, ih]
      · simp [stripHead, h, Ne.symm h]

theorem toNat_add_of_lt {a b : UInt64} (h : a.toNat + b.toNat < 2 ^ 64) : (a + b).toNat = a.toNat + b.toNat := by
  rw [UInt64.toNat_add, Nat.mod_eq_of_lt h]

end Cosmwasgo.Lib
