import Cosmwasgo.Lib.Bytes

namespace Cosmwasgo.Lib.Sha256

/-- The word size of the hash. -/
def modulus : Nat := 2 ^ 32

def rotr (n x : Nat) : Nat := (x >>> n ||| x <<< (32 - n)) % modulus

/-- The round constants. -/
def constants : List Nat :=
  [0x428a2f98, 0x71374491, 0xb5c0fbcf, 0xe9b5dba5, 0x3956c25b, 0x59f111f1, 0x923f82a4, 0xab1c5ed5,
   0xd807aa98, 0x12835b01, 0x243185be, 0x550c7dc3, 0x72be5d74, 0x80deb1fe, 0x9bdc06a7, 0xc19bf174,
   0xe49b69c1, 0xefbe4786, 0x0fc19dc6, 0x240ca1cc, 0x2de92c6f, 0x4a7484aa, 0x5cb0a9dc, 0x76f988da,
   0x983e5152, 0xa831c66d, 0xb00327c8, 0xbf597fc7, 0xc6e00bf3, 0xd5a79147, 0x06ca6351, 0x14292967,
   0x27b70a85, 0x2e1b2138, 0x4d2c6dfc, 0x53380d13, 0x650a7354, 0x766a0abb, 0x81c2c92e, 0x92722c85,
   0xa2bfe8a1, 0xa81a664b, 0xc24b8b70, 0xc76c51a3, 0xd192e819, 0xd6990624, 0xf40e3585, 0x106aa070,
   0x19a4c116, 0x1e376c08, 0x2748774c, 0x34b0bcb5, 0x391c0cb3, 0x4ed8aa4a, 0x5b9cca4f, 0x682e6ff3,
   0x748f82ee, 0x78a5636f, 0x84c87814, 0x8cc70208, 0x90befffa, 0xa4506ceb, 0xbef9a3f7, 0xc67178f2]

structure Working where
  a : Nat := 0x6a09e667
  b : Nat := 0xbb67ae85
  c : Nat := 0x3c6ef372
  d : Nat := 0xa54ff53a
  e : Nat := 0x510e527f
  f : Nat := 0x9b05688c
  g : Nat := 0x1f83d9ab
  h : Nat := 0x5be0cd19

def Working.add (s t : Working) : Working :=
  { a := (s.a + t.a) % modulus, b := (s.b + t.b) % modulus, c := (s.c + t.c) % modulus, d := (s.d + t.d) % modulus,
    e := (s.e + t.e) % modulus, f := (s.f + t.f) % modulus, g := (s.g + t.g) % modulus, h := (s.h + t.h) % modulus }

/-- The message schedule, kept as its next sixteen words. -/
def nextWord (w : List Nat) : Nat :=
  let x := w.getD 1 0
  let y := w.getD 14 0
  (w.getD 0 0 + (rotr 7 x ^^^ rotr 18 x ^^^ x >>> 3) + w.getD 9 0 + (rotr 17 y ^^^ rotr 19 y ^^^ y >>> 10)) % modulus

def round (s : Working) (k w : Nat) : Working :=
  let ch := (s.e &&& s.f) ^^^ ((modulus - 1 - s.e) &&& s.g)
  let maj := (s.a &&& s.b) ^^^ (s.a &&& s.c) ^^^ (s.b &&& s.c)
  let t := s.h + (rotr 6 s.e ^^^ rotr 11 s.e ^^^ rotr 25 s.e) + ch + k + w
  { a := (t + (rotr 2 s.a ^^^ rotr 13 s.a ^^^ rotr 22 s.a) + maj) % modulus, b := s.a, c := s.b, d := s.c,
    e := (s.d + t) % modulus, f := s.e, g := s.f, h := s.g }

def rounds : List Nat → Working → List Nat → Working
  | [], s, _ => s
  | k :: ks, s, w => rounds ks (round s k (w.getD 0 0)) (w.drop 1 ++ [nextWord w])

/-- The groups of `w` bytes a list starts with, `n` of them, as numbers. -/
def words (w : Nat) : Nat → Bytes → List Nat
  | 0, _ => []
  | n + 1, b => ofBigEndian (b.take w) :: words w n (b.drop w)

def blocks : Nat → Bytes → Working → Working
  | 0, _, s => s
  | n + 1, b, s => blocks n (b.drop 64) (s.add (rounds constants s (words 4 16 b)))

def padding (b : Bytes) : Bytes :=
  b ++ 0x80 :: List.replicate ((119 - b.length % 64) % 64) 0 ++ bigEndian 8 (8 * b.length)

end Sha256

def sha256 (b : Bytes) : Bytes :=
  let padded := Sha256.padding b
  let s := Sha256.blocks (padded.length / 64) padded {}
  [s.a, s.b, s.c, s.d, s.e, s.f, s.g, s.h].flatMap (bigEndian 4)

theorem length_sha256 (b : Bytes) : (sha256 b).length = 32 := by
  simp [sha256]

example : sha256 [97, 98, 99] = bigEndian 32
    0xba7816bf8f01cfea414140de5dae2223b00361a396177a9cb410ff61f20015ad := by
  decide +kernel

end Cosmwasgo.Lib
