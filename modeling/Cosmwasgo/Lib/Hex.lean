import Cosmwasgo.Lib.Bytes

namespace Cosmwasgo.Lib.Hex

/-- `hex.InvalidByteError` and `hex.ErrLength`. -/
inductive DecodeError
  | invalidByte (b : Byte)
  | length
  deriving DecidableEq, Repr

/-- The value of a digit, in either case. -/
def nibble (b : Byte) : Except DecodeError Nat :=
  if 48 ≤ b.val ∧ b.val ≤ 57 then .ok (b.val - 48)
  else if 65 ≤ b.val ∧ b.val ≤ 70 then .ok (b.val - 55)
  else if 97 ≤ b.val ∧ b.val ≤ 102 then .ok (b.val - 87)
  else .error (.invalidByte b)

/-- `hex.Decode`. A digit without a partner is looked at before the length is reported. -/
def decode : Bytes → Except DecodeError Bytes
  | [] => .ok []
  | [p] => do
    let _ ← nibble p
    throw .length
  | p :: q :: src => do
    let a ← nibble p
    let b ← nibble q
    let dst ← decode src
    return Fin.ofNat 256 (16 * a + b) :: dst

/-- A digit, in lower case. -/
def digit (n : Nat) : Byte := Fin.ofNat 256 (if n < 10 then 48 + n else 87 + n)

/-- `hex.Encode`. -/
def encode (src : Bytes) : Bytes := src.flatMap fun b ↦ [digit (b.val / 16), digit (b.val % 16)]

theorem nibble_digit {n : Nat} (h : n < 16) : nibble (digit n) = .ok n := by
  have hall : ∀ d : Fin 16, nibble (digit d) = .ok d.val := by decide
  exact hall ⟨n, h⟩

theorem digit_lt {n : Nat} (h : n < 16) : (digit n).val < 128 := by
  have hall : ∀ d : Fin 16, (digit d).val < 128 := by decide
  exact hall ⟨n, h⟩

/-- Digits are plain characters. -/
theorem encode_ascii {src : Bytes} {b : Byte} (h : b ∈ encode src) : b.val < 128 := by
  obtain ⟨c, -, hb⟩ := List.mem_flatMap.1 h
  have hc := c.isLt
  rcases List.mem_pair.1 hb with rfl | rfl
  · exact digit_lt (by omega)
  · exact digit_lt (by omega)

theorem decode_encode (src : Bytes) : decode (encode src) = .ok src := by
  induction src with
  | nil => rfl
  | cons b src ih =>
    have hb := b.isLt
    have hhigh := nibble_digit (show b.val / 16 < 16 by omega)
    have hlow := nibble_digit (show b.val % 16 < 16 by omega)
    have hhalves : Fin.ofNat 256 (16 * (b.val / 16) + b.val % 16) = b := by
      rw [Nat.div_add_mod]
      exact Fin.ofNat_val_eq_self b
    change decode (digit (b.val / 16) :: digit (b.val % 16) :: encode src) = _
    simp only [decode, hhigh, hlow, ih, bind, Except.bind, pure, Except.pure, hhalves]

end Cosmwasgo.Lib.Hex
