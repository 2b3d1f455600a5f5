import Cosmwasgo.Lib.Bytes

namespace Cosmwasgo.Lib.Bech32Text

/-- The alphabet of the five-bit groups. -/
def charset : List Char := "qpzry9x8gf2tvdw0s3jn54khce6mua7l".toList

def toChar (v : Nat) : Char := charset.getD v 'q'

theorem idxOf_toChar {v : Nat} (h : v < 32) : charset.idxOf (toChar v) = v := by
  have : ∀ v : Fin 32, charset.idxOf (toChar v) = v := by decide
  exact this ⟨v, h⟩

/-- The `w` lowest digits to base 32, most significant first. -/
def base32 : Nat → Nat → List Nat
  | 0, _ => []
  | w + 1, n => base32 w (n / 32) ++ [n % 32]

def ofBase32 (l : List Nat) : Nat := l.foldl (fun n v ↦ n * 32 + v) 0

@[simp] theorem length_base32 (w n : Nat) : (base32 w n).length = w := by
  induction w generalizing n with
  | zero => rfl
  | succ w ih => simp [base32, ih]

theorem lt_of_mem_base32 {w n v : Nat} (h : v ∈ base32 w n) : v < 32 := by
  induction w generalizing n with
  | zero => cases h
  | succ w ih =>
    rcases List.mem_append.1 h with h | h
    · exact ih h
    · rw [List.mem_singleton.1 h]
      omega

theorem ofBase32_base32 (w n : Nat) : ofBase32 (base32 w n) = n % 32 ^ w := by
  induction w generalizing n with
  | zero => simp [base32, ofBase32, Nat.mod_one]
  | succ w ih =>
    have hfold : ofBase32 (base32 (w + 1) n) = ofBase32 (base32 w (n / 32)) * 32 + n % 32 := by
      simp [base32, ofBase32]
    rw [hfold, ih, pow_succ, Nat.mul_comm (32 ^ w), Nat.mod_mul]
    omega

def groupCount (bytes : Nat) : Nat := (8 * bytes + 4) / 5

/-- The bytes as five-bit groups; the last group is filled up with zero bits. -/
def toGroups (b : Bytes) : List Nat :=
  base32 (groupCount b.length) (ofBigEndian b * 2 ^ (5 * groupCount b.length - 8 * b.length))

def ofGroups (v : List Nat) : Bytes :=
  bigEndian (5 * v.length / 8) (ofBase32 v / 2 ^ (5 * v.length % 8))

theorem ofGroups_toGroups (b : Bytes) : ofGroups (toGroups b) = b := by
  have hlen : 5 * groupCount b.length / 8 = b.length := by simp only [groupCount]; omega
  have hpad : 5 * groupCount b.length % 8 = 5 * groupCount b.length - 8 * b.length := by
    simp only [groupCount]; omega
  have hle : 8 * b.length ≤ 5 * groupCount b.length := by simp only [groupCount]; omega
  have hlt : ofBigEndian b * 2 ^ (5 * groupCount b.length - 8 * b.length) < 32 ^ groupCount b.length := by
    have hb := ofBigEndian_lt b
    have h32 : (32 : Nat) ^ groupCount b.length =
        256 ^ b.length * 2 ^ (5 * groupCount b.length - 8 * b.length) := by
      rw [show (32 : Nat) = 2 ^ 5 from rfl, show (256 : Nat) = 2 ^ 8 from rfl, ← pow_mul, ← pow_mul, ← pow_add]
      congr 1
      omega
    rw [h32]
    exact Nat.mul_lt_mul_of_pos_right hb (by positivity)
  rw [ofGroups, toGroups, length_base32, ofBase32_base32, Nat.mod_eq_of_lt hlt, hlen, hpad,
    Nat.mul_div_cancel _ (by positivity), bigEndian_ofBigEndian]

def generator : List Nat := [0x3b6a57b2, 0x26508e6d, 0x1ea119fa, 0x3d4233dd, 0x2a1462b3]

def polymodStep (chk v : Nat) : Nat :=
  let top := chk >>> 25
  (generator.zipIdx).foldl (fun c g ↦ if top.testBit g.2 then c ^^^ g.1 else c) ((chk &&& 0x1ffffff) <<< 5 ^^^ v)

def polymod (vs : List Nat) : Nat := vs.foldl polymodStep 1

/-- The human-readable part as it enters the checksum. -/
def expand (hrp : String) : List Nat :=
  hrp.toList.map (fun c ↦ c.toNat >>> 5) ++ 0 :: hrp.toList.map fun c ↦ c.toNat &&& 31

def checksum (hrp : String) (vs : List Nat) : List Nat :=
  base32 6 (polymod (expand hrp ++ vs ++ List.replicate 6 0) ^^^ 1)

def encode (hrp : String) (b : Bytes) : String :=
  String.ofList (hrp.toList ++ '1' :: (toGroups b ++ checksum hrp (toGroups b)).map toChar)

/-- The bytes whose encoding the text is. -/
def decode (hrp : String) (s : String) : Option Bytes :=
  let data := s.toList.drop (hrp.length + 1)
  let b := ofGroups ((data.take (data.length - 6)).map charset.idxOf)
  if encode hrp b = s then some b else none

theorem map_idxOf_toChar (vs : List Nat) (h : ∀ v ∈ vs, v < 32) : (vs.map toChar).map charset.idxOf = vs := by
  rw [List.map_map]
  exact (List.map_congr_left fun v hv ↦ idxOf_toChar (h v hv)).trans (List.map_id vs)

theorem decode_encode (hrp : String) (b : Bytes) : decode hrp (encode hrp b) = some b := by
  have hdata : (encode hrp b).toList.drop (hrp.length + 1) =
      (toGroups b ++ checksum hrp (toGroups b)).map toChar := by
    rw [encode, String.toList_ofList, ← String.length_toList, List.drop_append, List.drop_of_length_le (by omega)]
    simp
  have hback : ofGroups (((((encode hrp b).toList.drop (hrp.length + 1)).take
      (((encode hrp b).toList.drop (hrp.length + 1)).length - 6))).map charset.idxOf) = b := by
    have hlen : (checksum hrp (toGroups b)).length = 6 := length_base32 6 _
    rw [hdata, List.map_append, List.take_left' (by simp [hlen]),
      map_idxOf_toChar (toGroups b) fun v hv ↦ lt_of_mem_base32 hv, ofGroups_toGroups]
  rw [decode, hback, if_pos rfl]

/-- Only its own encoding is read as the bytes. -/
theorem encode_of_decode {hrp s : String} {b : Bytes} (h : decode hrp s = some b) : encode hrp b = s := by
  dsimp only [decode] at h
  split at h
  · next heq =>
    cases h
    exact heq
  · cases h

example : encode "cosmos" (List.replicate 20 0) = "cosmos1qqqqqqqqqqqqqqqqqqqqqqqqqqqqqqqqnrql8a" := by
  decide +kernel

end Cosmwasgo.Lib.Bech32Text
