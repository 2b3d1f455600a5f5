import Cosmwasgo.Lib.Bytes

namespace Cosmwasgo.Lib

variable {σ ε : Type}

/-- The end of a stream, or an error that breaks it off. -/
inductive ReadErr (ε : Type)
  | eof
  | other (e : ε)
  deriving DecidableEq, Repr

/-- What `io.ReadAll` makes of the error that ends a stream. -/
def ReadErr.final : ReadErr ε → Option ε
  | .eof => none
  | .other e => some e

/-- The bytes and the error of one read, and the reader after it. -/
structure ReadResult (σ ε : Type) where
  bytes : Bytes
  err : Option (ReadErr ε)
  next : σ

/-- `io.Reader`. A read may return fewer bytes than the buffer has room for, none included, and it may report the end
together with the last bytes or in a read of its own. -/
structure Reader (σ ε : Type) where
  read : Nat → σ → ReadResult σ ε
  read_le : ∀ size s, (read size s).bytes.length ≤ size

namespace Reader

/-- `io.LimitedReader`: the reader below it and the number of bytes left. -/
def limited (r : Reader σ ε) : Reader (σ × Int) ε where
  read size l :=
    if l.2 ≤ 0 then ⟨[], some .eof, l⟩
    else
      let res := r.read (min size l.2.toNat) l.1
      ⟨res.bytes, res.err, (res.next, l.2 - res.bytes.length)⟩
  read_le size l := by
    split
    · exact Nat.zero_le _
    · exact (r.read_le _ _).trans (Nat.min_le_left _ _)

/-- The loop of `io.ReadAll` over the buffer `b`. A full buffer is grown by `append`. -/
def readAll (r : Reader σ ε) (grow : Nat → Nat) : Nat → Nat → Bytes → σ → Option (Bytes × Option ε)
  | 0, _, _, _ => none
  | fuel + 1, cap, b, s =>
    let res := r.read (cap - b.length) s
    match res.err with
    | some .eof => some (b ++ res.bytes, none)
    | some (.other e) => some (b ++ res.bytes, some e)
    | none =>
      r.readAll grow fuel (if (b ++ res.bytes).length = cap then grow cap else cap) (b ++ res.bytes) res.next

/-- The loop ends, and with this result. -/
def ReadsTo (r : Reader σ ε) (grow : Nat → Nat) (cap : Nat) (b : Bytes) (s : σ) (x : Bytes × Option ε) : Prop :=
  ∃ n, ∀ fuel, n ≤ fuel → r.readAll grow fuel cap b s = some x

section ReadsTo

variable {r : Reader σ ε} {grow : Nat → Nat} {cap : Nat} {b : Bytes} {s : σ} {x y : Bytes × Option ε}
  {res : ReadResult σ ε}

theorem ReadsTo.unique (hx : ReadsTo r grow cap b s x) (hy : ReadsTo r grow cap b s y) : x = y := by
  obtain ⟨n, hn⟩ := hx
  obtain ⟨n', hn'⟩ := hy
  have h := hn (max n n') (Nat.le_max_left _ _)
  rw [hn' _ (Nat.le_max_right _ _)] at h
  exact (Option.some.inj h).symm

theorem ReadsTo.eof (hres : r.read (cap - b.length) s = res) (h : res.err = some .eof) :
    ReadsTo r grow cap b s (b ++ res.bytes, none) := by
  refine ⟨1, fun fuel hfuel ↦ ?_⟩
  obtain ⟨fuel, rfl⟩ := Nat.exists_eq_succ_of_ne_zero (Nat.one_le_iff_ne_zero.1 hfuel)
  simp only [readAll, hres, h]

theorem ReadsTo.other {e : ε} (hres : r.read (cap - b.length) s = res) (h : res.err = some (.other e)) :
    ReadsTo r grow cap b s (b ++ res.bytes, some e) := by
  refine ⟨1, fun fuel hfuel ↦ ?_⟩
  obtain ⟨fuel, rfl⟩ := Nat.exists_eq_succ_of_ne_zero (Nat.one_le_iff_ne_zero.1 hfuel)
  simp only [readAll, hres, h]

/-- The capacity of the buffer before the next read. -/
def capAfter (grow : Nat → Nat) (cap len : Nat) : Nat := if len = cap then grow cap else cap

theorem lt_capAfter (hgrow : ∀ n, n < grow n) {len : Nat} (h : len ≤ cap) : len < capAfter grow cap len := by
  unfold capAfter
  split
  · next heq => exact heq ▸ hgrow len
  · next hne => exact Nat.lt_of_le_of_ne h hne

theorem ReadsTo.more (hres : r.read (cap - b.length) s = res) (h : res.err = none)
    (hx : ReadsTo r grow (capAfter grow cap (b ++ res.bytes).length) (b ++ res.bytes) res.next x) :
    ReadsTo r grow cap b s x := by
  obtain ⟨n, hn⟩ := hx
  refine ⟨n + 1, fun fuel hfuel ↦ ?_⟩
  obtain ⟨fuel, rfl⟩ := Nat.exists_eq_succ_of_ne_zero (Nat.ne_zero_of_lt hfuel)
  simp only [readAll, hres, h]
  exact hn fuel (Nat.le_of_succ_le_succ hfuel)

end ReadsTo

/-- In whatever portions the reader is asked for them, it gives these bytes and then this error, after finitely many
reads. -/
inductive Yields (r : Reader σ ε) (e : ReadErr ε) : σ → Bytes → Prop
  | mk {s : σ} {c : Bytes} (starts : ∀ size, 0 < size → (r.read size s).bytes <+: c)
      (ends : ∀ size, 0 < size → ∀ e', (r.read size s).err = some e' → e' = e ∧ (r.read size s).bytes = c)
      (goes : ∀ size, 0 < size → (r.read size s).err = none →
        Yields r e (r.read size s).next (c.drop (r.read size s).bytes.length)) : Yields r e s c

/-- `io.ReadAll` puts together what the reader yields. -/
theorem ReadsTo.of_yields {r : Reader σ ε} {e : ReadErr ε} {s : σ} {c : Bytes} (h : Yields r e s c)
    {grow : Nat → Nat} (hgrow : ∀ n, n < grow n) {cap : Nat} {b : Bytes} (hb : b.length < cap) :
    ReadsTo r grow cap b s (b ++ c, e.final) := by
  induction h generalizing cap b with
  | @mk s c starts ends _ ih =>
    have hroom : 0 < cap - b.length := Nat.sub_pos_of_lt hb
    have hle := r.read_le (cap - b.length) s
    have hstarts := starts _ hroom
    have hends := ends _ hroom
    have ih := ih _ hroom
    generalize hres : r.read (cap - b.length) s = res at *
    rcases herr : res.err with _ | e'
    · have hlen : (b ++ res.bytes).length ≤ cap := by rw [List.length_append]; omega
      have hx := ih herr (lt_capAfter hgrow hlen)
      rw [List.append_assoc, ← List.prefix_append_drop hstarts] at hx
      exact .more hres herr hx
    · obtain ⟨rfl, hc⟩ := hends e' herr
      rw [← hc]
      cases e' with
      | eof => exact .eof hres herr
      | other e => exact .other hres herr

end Reader

end Cosmwasgo.Lib
