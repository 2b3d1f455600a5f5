import Cosmwasgo.Keeper.Contracts
import Cosmwasgo.Keeper.IOUtils

namespace Cosmwasgo.Properties

open Cosmwasgo.Types hiding errLimit
open Cosmwasgo.Lib Cosmwasgo.State Cosmwasgo.Keeper IOUtils Reader

variable {σ : Type} {r : Reader σ Err} {s : σ} {c : Bytes}

theorem read_limitReader_zero (size : Nat) (s : σ) :
    (limitReader r).read size (s, (0 : Nat)) = ⟨[], some (.other errLimit), (s, (0 : Nat))⟩ := rfl

theorem read_limitReader_pos {n : Nat} (hn : 0 < n) (size : Nat) (s : σ) :
    (limitReader r).read size (s, (n : Int)) =
      ⟨(r.read (min size n) s).bytes, (r.read (min size n) s).err,
        ((r.read (min size n) s).next, ((n - (r.read (min size n) s).bytes.length : Nat) : Int))⟩ := by
  have hpos : ¬(n : Int) ≤ 0 := by omega
  have hle : (r.read (min size n) s).bytes.length ≤ n := (r.read_le _ _).trans (Nat.min_le_right _ _)
  simp only [limitReader, limited, if_neg hpos, Int.toNat_natCast, Int.ofNat_sub hle]

/-- With room to spare the limit is not noticed. -/
theorem limitReader_yields (h : Yields r .eof s c) {n : Nat} (hn : c.length < n) :
    Yields (limitReader r) .eof (s, (n : Int)) c := by
  induction h generalizing n with
  | @mk s c starts ends goes ih =>
    have hread := read_limitReader_pos (r := r) (Nat.zero_lt_of_lt hn) (s := s)
    have hsize : ∀ size, 0 < size → 0 < min size n := fun size hsize ↦ Nat.lt_min.2 ⟨hsize, Nat.zero_lt_of_lt hn⟩
    refine .mk (fun size h0 ↦ ?_) (fun size h0 e he ↦ ?_) fun size h0 he ↦ ?_
    · rw [hread]
      exact starts _ (hsize size h0)
    · rw [hread] at he ⊢
      exact ends _ (hsize size h0) e he
    · rw [hread] at he ⊢
      refine ih _ (hsize size h0) he ?_
      have hle := (starts _ (hsize size h0)).length_le
      rw [List.length_drop]
      omega

/-- A longer stream is broken off at the limit. -/
theorem limitReader_breaks (h : Yields r .eof s c) {n : Nat} (hn : n < c.length) :
    Yields (limitReader r) (.other errLimit) (s, (n : Int)) (c.take n) := by
  induction h generalizing n with
  | @mk s c starts ends goes ih =>
    rcases Nat.eq_zero_or_pos n with rfl | hpos
    · refine .mk (fun size _ ↦ ?_) (fun size _ e he ↦ ?_) fun size _ he ↦ ?_
      · exact List.nil_prefix
      · rw [read_limitReader_zero] at he
        cases he
        exact ⟨rfl, rfl⟩
      · rw [read_limitReader_zero] at he
        cases he
    · have hread := read_limitReader_pos (r := r) hpos (s := s)
      have hsize : ∀ size, 0 < size → 0 < min size n := fun size hsize ↦ Nat.lt_min.2 ⟨hsize, hpos⟩
      have hlen : ∀ size, (r.read (min size n) s).bytes.length ≤ n :=
        fun size ↦ (r.read_le _ _).trans (Nat.min_le_right _ _)
      refine .mk (fun size h0 ↦ ?_) (fun size h0 e he ↦ ?_) fun size h0 he ↦ ?_
      · rw [hread]
        exact List.prefix_take_iff.2 ⟨starts _ (hsize size h0), hlen size⟩
      · -- the end would come with all of the content, for which there is no room
        rw [hread] at he
        have hall := (ends _ (hsize size h0) e he).2
        have hle := hlen size
        rw [hall] at hle
        omega
      · rw [hread] at he ⊢
        have hle := hlen size
        have hnext := ih _ (hsize size h0) he (n := n - (r.read (min size n) s).bytes.length)
          (by rw [List.length_drop]; omega)
        rwa [List.take_drop, Nat.add_sub_cancel' hle] at hnext

/-- The reads of `io.ReadAll`, none of which asks for more than is left, take all of the content without any of them
reporting the end. -/
inductive Drains (r : Reader σ Err) (grow : Nat → Nat) : Nat → Nat → σ → Bytes → Prop
  | nil {cap len : Nat} {s : σ} : Drains r grow cap len s []
  | read {cap len : Nat} {s : σ} {c : Bytes} {res : ReadResult σ Err} (hc : c ≠ [])
      (hres : r.read (min (cap - len) c.length) s = res) (herr : res.err = none)
      (rest : Drains r grow (capAfter grow cap (len + res.bytes.length)) (len + res.bytes.length) res.next
        (c.drop res.bytes.length)) : Drains r grow cap len s c

section Boundary

variable {grow : Nat → Nat}

/-- At the limit all depends on whether the end is reported in time. -/
theorem readsTo_boundary (h : Yields r .eof s c) (hgrow : ∀ n, n < grow n) {cap : Nat} {b : Bytes}
    (hb : b.length < cap) :
    (Drains r grow cap b.length s c ∧
        ReadsTo (limitReader r) grow cap b (s, (c.length : Int)) (b ++ c, some errLimit)) ∨
      (¬Drains r grow cap b.length s c ∧ ReadsTo (limitReader r) grow cap b (s, (c.length : Int)) (b ++ c, none)) := by
  induction h generalizing cap b with
  | @mk s c starts ends goes ih =>
    rcases eq_or_ne c [] with rfl | hc
    · exact .inl ⟨.nil, .other (read_limitReader_zero _ _) rfl⟩
    · have hlen : 0 < c.length := List.length_pos_of_ne_nil hc
      have hroom : 0 < min (cap - b.length) c.length := Nat.lt_min.2 ⟨Nat.sub_pos_of_lt hb, hlen⟩
      have hread := read_limitReader_pos (r := r) hlen (cap - b.length) s
      have hle := (r.read_le (min (cap - b.length) c.length) s).trans (Nat.min_le_left _ _)
      have hstarts := starts _ hroom
      have hends := ends _ hroom
      have ih := ih _ hroom
      generalize hres : r.read (min (cap - b.length) c.length) s = res at *
      rcases herr : res.err with _ | e
      · -- what is left is again as long as the limit
        rw [← List.length_drop] at hread
        have hlen : (b ++ res.bytes).length ≤ cap := by rw [List.length_append]; omega
        have hnext := ih herr (lt_capAfter hgrow hlen)
        rw [List.append_assoc, ← List.prefix_append_drop hstarts] at hnext
        rcases hnext with ⟨hdrains, hx⟩ | ⟨hdrains, hx⟩
        · rw [List.length_append] at hdrains
          exact .inl ⟨.read hc hres herr hdrains, .more hread herr hx⟩
        · refine .inr ⟨fun hd ↦ hdrains ?_, .more hread herr hx⟩
          cases hd with
          | nil => exact absurd rfl hc
          | read _ hres' _ rest =>
            obtain rfl := hres.symm.trans hres'
            rw [List.length_append]
            exact rest
      · -- the end comes with what is left
        obtain ⟨rfl, hall⟩ := hends e herr
        have heof : ReadsTo (limitReader r) grow cap b (s, (c.length : Int)) (b ++ res.bytes, none) := .eof hread herr
        rw [hall] at heof
        refine .inr ⟨fun hd ↦ ?_, heof⟩
        cases hd with
        | nil => exact hc rfl
        | read _ hres' hnone _ =>
          obtain rfl := hres.symm.trans hres'
          rw [herr] at hnone
          cases hnone

/-- The result of reading everything through the limit. -/
def LimitReads (r : Reader σ Err) (grow : Nat → Nat) (s : σ) (n : Nat) (x : Bytes × Option Err) : Prop :=
  ReadsTo (limitReader r) grow readAllCap [] (s, (n : Int)) x

/-- Content that fits is read, content that does not is refused. -/
def Exact (r : Reader σ Err) (grow : Nat → Nat) (s : σ) (c : Bytes) (n : Nat) : Prop :=
  (c.length ≤ n → LimitReads r grow s n (c, none)) ∧ (n < c.length → LimitReads r grow s n (c.take n, some errLimit))

/-- The end is reported too late: the content has as many bytes as the limit, and all of them are taken before it. -/
def LateEnd (r : Reader σ Err) (grow : Nat → Nat) (s : σ) (c : Bytes) (n : Nat) : Prop :=
  c.length = n ∧ Drains r grow readAllCap 0 s c

theorem limitReads_cases (h : Yields r .eof s c) (hgrow : ∀ n, n < grow n) (n : Nat) :
    (n < c.length ∧ LimitReads r grow s n (c.take n, some errLimit)) ∨
      (c.length ≤ n ∧ LateEnd r grow s c n ∧ LimitReads r grow s n (c, some errLimit)) ∨
        (c.length ≤ n ∧ ¬LateEnd r grow s c n ∧ LimitReads r grow s n (c, none)) := by
  have hcap : ([] : Bytes).length < readAllCap := by decide
  rcases Nat.lt_trichotomy c.length n with hlt | rfl | hgt
  · exact .inr (.inr ⟨hlt.le, fun hlate ↦ hlt.ne hlate.1, .of_yields (limitReader_yields h hlt) hgrow hcap⟩)
  · rcases readsTo_boundary h hgrow hcap with ⟨hdrains, hx⟩ | ⟨hdrains, hx⟩
    · exact .inr (.inl ⟨le_rfl, ⟨rfl, hdrains⟩, hx⟩)
    · exact .inr (.inr ⟨le_rfl, fun hlate ↦ hdrains hlate.2, hx⟩)
  · exact .inl ⟨hgt, .of_yields (limitReader_breaks h hgt) hgrow hcap⟩

theorem exact_iff (h : Yields r .eof s c) (hgrow : ∀ n, n < grow n) (n : Nat) :
    Exact r grow s c n ↔ ¬LateEnd r grow s c n := by
  rcases limitReads_cases h hgrow n with ⟨hn, hx⟩ | ⟨hn, hlate, hx⟩ | ⟨hn, hlate, hx⟩
  · refine iff_of_true ⟨fun hle ↦ absurd hle hn.not_ge, fun _ ↦ hx⟩ ?_
    exact fun hlate ↦ hn.ne' hlate.1
  · refine iff_of_false (fun hexact ↦ ?_) fun hnot ↦ hnot hlate
    cases (hexact.1 hn).unique hx
  · exact iff_of_true ⟨fun _ ↦ hx, fun hlt ↦ absurd hn hlt.not_ge⟩ hlate

end Boundary

section Uncompress

variable {z : Gzip σ} {grow : Nat → Nat} {src : Bytes} {n : Nat}

/-- The call returns, and with this result. -/
def Uncompresses (z : Gzip σ) (grow : Nat → Nat) (src : Bytes) (n : Nat) (x : Bytes × Option Err) : Prop :=
  ∃ k, ∀ fuel, k ≤ fuel → uncompress z grow fuel src n = some x

theorem Uncompresses.unique {x y : Bytes × Option Err} (hx : Uncompresses z grow src n x)
    (hy : Uncompresses z grow src n y) : x = y := by
  obtain ⟨k, hk⟩ := hx
  obtain ⟨k', hk'⟩ := hy
  have h := hk (max k k') (Nat.le_max_left _ _)
  rw [hk' _ (Nat.le_max_right _ _)] at h
  exact (Option.some.inj h).symm

/-- What `Uncompress` makes of the bytes and the error it has read. -/
def uncompressed (n : Nat) : Bytes × Option Err → Bytes × Option Err
  | (bz, none) => (bz, none)
  | (bz, some err) => if err.is errLimit then ([], some (exceedsLimit n)) else (bz, some err)

theorem uncompresses_of_limitReads (hsrc : src.length ≤ n) (hz : z.newReader src = .ok s) {x : Bytes × Option Err}
    (hx : LimitReads z.reader grow s n x) : Uncompresses z grow src n (uncompressed n x) := by
  obtain ⟨k, hk⟩ := hx
  refine ⟨k, fun fuel hfuel ↦ ?_⟩
  have hlimit : ¬(n : Int) < src.length := by omega
  rw [uncompress, if_neg hlimit, hz]
  simp only [hk fuel hfuel]
  rcases x with ⟨bz, _ | err⟩
  · rfl
  · by_cases hlim : err.is errLimit = true <;> simp [uncompressed, hlim]

/-- A valid archive gives its content, or the error of the limit. -/
theorem uncompresses_cases (h : Yields z.reader .eof s c) (hgrow : ∀ n, n < grow n) (hsrc : src.length ≤ n)
    (hz : z.newReader src = .ok s) :
    (c.length ≤ n ∧ ¬LateEnd z.reader grow s c n ∧ Uncompresses z grow src n (c, none)) ∨
      ((c.length ≤ n → LateEnd z.reader grow s c n) ∧ Uncompresses z grow src n ([], some (exceedsLimit n))) := by
  rcases limitReads_cases h hgrow n with ⟨hn, hx⟩ | ⟨hn, hlate, hx⟩ | ⟨hn, hlate, hx⟩
  · exact .inr ⟨fun hle ↦ absurd hle hn.not_ge, uncompresses_of_limitReads hsrc hz hx⟩
  · exact .inr ⟨fun _ ↦ hlate, uncompresses_of_limitReads hsrc hz hx⟩
  · exact .inl ⟨hn, hlate, uncompresses_of_limitReads hsrc hz hx⟩

/-- Reading through the limit is exact, and a valid archive is accepted exactly if its content fits, unless the content
is as long as the limit and its end is reported after its last byte. -/
theorem uncompress_exact (h : Yields z.reader .eof s c) (hgrow : ∀ n, n < grow n) (n : Nat) :
    (Exact z.reader grow s c n ↔ ¬LateEnd z.reader grow s c n) ∧
      ∀ src, z.newReader src = .ok s → src.length ≤ n →
        (((∃ bz, Uncompresses z grow src n (bz, none)) ↔ c.length ≤ n) ↔ ¬LateEnd z.reader grow s c n) ∧
          (Uncompresses z grow src n (c, none) ∨ Uncompresses z grow src n ([], some (exceedsLimit n))) := by
  refine ⟨exact_iff h hgrow n, fun src hz hsrc ↦ ?_⟩
  rcases uncompresses_cases h hgrow hsrc hz with ⟨hn, hlate, hx⟩ | ⟨hlate, hx⟩
  · exact ⟨iff_of_true (iff_of_true ⟨c, hx⟩ hn) hlate, .inl hx⟩
  · have hrefused : ¬∃ bz, Uncompresses z grow src n (bz, none) := by
      rintro ⟨bz, hbz⟩
      cases hbz.unique hx
    refine ⟨⟨fun hiff hl ↦ hrefused (hiff.2 hl.1.le), fun hl ↦ iff_of_false hrefused fun hn ↦ hl (hlate hn)⟩, .inr hx⟩

/-- The library the keeper calls. -/
def CallsUncompress {X : Type} (k : Keeper X) (z : Gzip σ) (grow : Nat → Nat) : Prop :=
  ∀ src n bz, k.lib.uncompress src n = .ok bz ↔ Uncompresses z grow src n (bz, none)

/-- So the keeper takes a compressed code exactly if it fits and its end is not reported too late. -/
theorem uncompressCode_eq_ok {X : Type} {k : Keeper X} (hk : CallsUncompress k z grow) (h : Yields z.reader .eof s c)
    (hgrow : ∀ n, n < grow n) (hz : z.newReader src = .ok s) (hsrc : src.length ≤ n) :
    uncompressCode k src n = .ok c ↔ c.length ≤ n ∧ ¬LateEnd z.reader grow s c n := by
  have hcode : uncompressCode k src n = .ok c ↔ k.lib.uncompress src n = .ok c := by
    unfold uncompressCode
    split
    · next hbz => rw [hbz]
    · next hbz => simp [hbz]
  rw [hcode, hk]
  rcases uncompresses_cases h hgrow hsrc hz with ⟨hn, hlate, hx⟩ | ⟨hlate, hx⟩
  · exact iff_of_true hx ⟨hn, hlate⟩
  · refine iff_of_false (fun hc ↦ ?_) fun ⟨hn, hnot⟩ ↦ hnot (hlate hn)
    cases hc.unique hx

end Uncompress

section Runs

/-- An archive of one byte, repeated. The end of the content is reported in a read of its own. -/
def repeated : Gzip Bytes where
  newReader src :=
    match src with
    | [0x1F, 0x8B, 0x08, times] => .ok (List.replicate times.val 1)
    | _ => .error (.text "gzip: invalid header")
  reader := {
    read size s := ⟨s.take size, if s = [] then some .eof else none, s.drop size⟩
    read_le _ _ := List.length_take_le _ _ }

theorem repeated_yields (s : Bytes) : Yields repeated.reader .eof s s := by
  induction hlen : s.length using Nat.strong_induction_on generalizing s with
  | _ len ih =>
    refine .mk (fun size _ ↦ List.take_prefix _ _) (fun size _ e he ↦ ?_) fun size hsize he ↦ ?_
    · change (if s = [] then some ReadErr.eof else none) = some e at he
      split at he
      · next hnil =>
        cases he
        subst hnil
        exact ⟨rfl, List.take_nil⟩
      · cases he
    · change (if s = [] then some ReadErr.eof else none) = none at he
      split at he
      · cases he
      · next hne =>
        have hpos := List.length_pos_of_ne_nil hne
        have hdrop : s.drop (s.take size).length = s.drop size := by
          rw [List.length_take]
          rcases Nat.le_total size s.length with hle | hle
          · rw [Nat.min_eq_left hle]
          · rw [Nat.min_eq_right hle, List.drop_length, List.drop_of_length_le hle]
        change Yields repeated.reader .eof (s.drop size) (s.drop (s.take size).length)
        rw [hdrop]
        exact ih _ (by rw [List.length_drop]; omega) _ rfl

def doubling (cap : Nat) : Nat := 2 * cap + 1

theorem lt_doubling (n : Nat) : n < doubling n := by
  unfold doubling
  omega

def fourOnes : Bytes := [0x1F, 0x8B, 0x08, 4]

theorem uncompress_exact_fourOnes :
    (Exact repeated.reader doubling [1, 1, 1, 1] [1, 1, 1, 1] 5 ↔
        ¬LateEnd repeated.reader doubling [1, 1, 1, 1] [1, 1, 1, 1] 5) ∧
      ∀ src, repeated.newReader src = .ok [1, 1, 1, 1] → src.length ≤ 5 →
        (((∃ bz, Uncompresses repeated doubling src 5 (bz, none)) ↔ [(1 : Byte), 1, 1, 1].length ≤ 5) ↔
            ¬LateEnd repeated.reader doubling [1, 1, 1, 1] [1, 1, 1, 1] 5) ∧
          (Uncompresses repeated doubling src 5 ([1, 1, 1, 1], none) ∨
            Uncompresses repeated doubling src 5 ([], some (exceedsLimit (5 : Nat)))) :=
  uncompress_exact (repeated_yields [1, 1, 1, 1]) lt_doubling 5

/-- Four bytes are refused by a limit of four. -/
theorem fourOnes_refused :
    repeated.newReader fourOnes = .ok [1, 1, 1, 1] ∧ Yields repeated.reader .eof [1, 1, 1, 1] [1, 1, 1, 1] ∧
      ¬Exact repeated.reader doubling [1, 1, 1, 1] [1, 1, 1, 1] 4 ∧
        Uncompresses repeated doubling fourOnes 4 ([], some (exceedsLimit (4 : Nat))) ∧
          ¬∃ bz, Uncompresses repeated doubling fourOnes 4 (bz, none) := by
  have hyields := repeated_yields [1, 1, 1, 1]
  have hlate : LateEnd repeated.reader doubling [1, 1, 1, 1] [1, 1, 1, 1] 4 := ⟨rfl, .read (by decide) rfl rfl .nil⟩
  have hz : repeated.newReader fourOnes = .ok [1, 1, 1, 1] := rfl
  have hsrc : fourOnes.length ≤ 4 := by decide
  rcases uncompresses_cases hyields lt_doubling hsrc hz with ⟨-, hnot, -⟩ | ⟨-, hx⟩
  · exact absurd hlate hnot
  · refine ⟨hz, hyields, fun hexact ↦ (exact_iff hyields lt_doubling 4).1 hexact hlate, hx, ?_⟩
    rintro ⟨bz, hbz⟩
    cases hbz.unique hx

end Runs

end Cosmwasgo.Properties
