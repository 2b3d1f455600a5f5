import Cosmwasgo.Lib.Bytes

namespace Cosmwasgo.Lib.GoJson

variable {ι π : Type}

/-- A document. The members of an object keep their order, and a key may occur more than once. A number has a value if
it is written as a natural one. -/
inductive Json
  | null
  | bool (b : Bool)
  | num (natural : Option Nat)
  | str (s : String)
  | arr (items : List Json)
  | obj (members : List (String × Json))

/-- What is in a variable. Behind the items of a slice there may be spare ones that it had before. -/
inductive Value
  | nil
  | str (s : String)
  | uint (n : Nat)
  | bytes (b : Bytes)
  | raw (j : Json)
  | slice (items spare : List Value)
  | ptr (v : Value)
  | struct (fields : List Value)

mutual

/-- The types of variables. A type with an `UnmarshalJSON` of its own reads the document into a new variable of another
type first. -/
inductive GoType (ι : Type)
  | string
  | uint (bits : Nat)
  | quoted (bits : Nat)
  | bytes
  | raw
  | slice (elem : GoType ι)
  | ptr (elem : GoType ι)
  | struct (fields : Fields ι)
  | custom (unmarshaler : ι) (inner : GoType ι)
  deriving DecidableEq

inductive Fields (ι : Type)
  | nil
  | cons (name : String) (type : GoType ι) (rest : Fields ι)
  deriving DecidableEq

end

def Fields.ofList : List (String × GoType ι) → Fields ι
  | [] => .nil
  | (name, type) :: rest => .cons name type (ofList rest)

/-- What becomes of the text of a number in quotes. -/
inductive Literal
  | value (n : Nat)
  | ignored
  | refused (e : String)
  | broken (e : String)

/-- When a key is meant for a field, and the texts of bytes and of numbers in quotes. -/
structure Texts where
  sameKey : String → String → Bool
  base64 : String → Option Bytes
  quoted : Nat → String → Literal

/-- For each `UnmarshalJSON` the zero value of its type, and what it makes of the variable it has read. -/
structure Decoder (ι π : Type) extends Texts where
  zero : ι → Value
  finish : ι → Value → Except π (Except String Value)

/-- Reading stops at an error of an `UnmarshalJSON` and at a panic. -/
inductive Stop (π : Type)
  | error (e : String)
  | panic (p : π)

/-- The first value of a wrong type. Reading goes on after it, and in the end it is the error. -/
abbrev Saved := Option String

def keep (saved : Saved) (e : String) : Saved := saved.or (some e)

def mismatch (type : String) : String := "json: cannot unmarshal value into Go value of type " ++ type

section Parts

def Value.backing : Value → List Value
  | .slice items spare => items ++ spare
  | _ => []

def Value.pointee (fresh : Value) : Value → Value
  | .ptr v => v
  | _ => fresh

def Value.fields : Value → List Value
  | .struct fields => fields
  | _ => []

def Value.field (v : Value) (i : Nat) : Value := v.fields.getD i .nil

/-- What a pointer points to, if it is not nil. -/
def Value.deref : Value → Option Value
  | .ptr v => some v
  | _ => none

def Value.items : Value → List Value
  | .slice items _ => items
  | _ => []

def Value.text : Value → String
  | .str s => s
  | _ => ""

def Value.toBytes : Value → Bytes
  | .bytes b => b
  | _ => []

def readByte (old : Byte) (saved : Saved) : Json → Byte × Saved
  | .num (some n) => if n < 256 then (Fin.ofNat 256 n, saved) else (old, keep saved (mismatch "uint8"))
  | .null => (old, saved)
  | _ => (old, keep saved (mismatch "uint8"))

/-- Bytes that are written as a list of numbers. -/
def readBytes : List Json → Bytes → Saved → Bytes × Saved
  | [], _, saved => ([], saved)
  | j :: js, old, saved =>
    let (b, saved) := readByte (old.headD 0) saved j
    let (bs, saved) := readBytes js old.tail saved
    (b :: bs, saved)

/-- The items of a list are read into those that are there already, then into new ones. -/
def readItems (item : Json → Value → Saved → Except (Stop π) (Value × Saved)) (fresh : Value) :
    List Json → List Value → Saved → Except (Stop π) (List Value × Saved)
  | [], _, saved => .ok ([], saved)
  | j :: js, old, saved => do
    let (v, saved) ← item j (old.headD fresh) saved
    let (vs, saved) ← readItems item fresh js old.tail saved
    return (v :: vs, saved)

def readMembers (member : String → Json → List Value → Saved → Except (Stop π) (List Value × Saved)) :
    List (String × Json) → List Value → Saved → Except (Stop π) (List Value × Saved)
  | [], vs, saved => .ok (vs, saved)
  | (key, j) :: ms, vs, saved => do
    let (vs, saved) ← member key j vs saved
    readMembers member ms vs saved

/-- What `json.Unmarshal` returns. -/
def settled : Except (Stop π) (Value × Saved) → Except π (Except String Value)
  | .error (.panic p) => .error p
  | .error (.error e) => .ok (.error e)
  | .ok (_, some e) => .ok (.error e)
  | .ok (v, none) => .ok (.ok v)

/-- What an `UnmarshalJSON` does, given what `json.Unmarshal` returned to it. -/
def finished (finish : Value → Except π (Except String Value)) (saved : Saved) :
    Except π (Except String Value) → Except (Stop π) (Value × Saved)
  | .error p => .error (.panic p)
  | .ok (.error e) => .error (.error e)
  | .ok (.ok v) =>
    match finish v with
    | .error p => .error (.panic p)
    | .ok (.error e) => .error (.error e)
    | .ok (.ok v) => .ok (v, saved)

end Parts

variable (D : Decoder ι π)

mutual

def zero : GoType ι → Value
  | .string => .str ""
  | .uint _ => .uint 0
  | .quoted _ => .uint 0
  | .bytes => .nil
  | .raw => .nil
  | .slice _ => .nil
  | .ptr _ => .nil
  | .struct fields => .struct (zeros fields)
  | .custom u _ => D.zero u

def zeros : Fields ι → List Value
  | .nil => []
  | .cons _ type rest => zero type :: zeros rest

end

mutual

/-- Reading a document into a variable. `null` leaves it as it is, unless it can be nil. -/
def read : GoType ι → Json → Value → Saved → Except (Stop π) (Value × Saved)
  | .string, j, old, saved =>
    match j with
    | .str s => .ok (.str s, saved)
    | .null => .ok (old, saved)
    | _ => .ok (old, keep saved (mismatch "string"))
  | .uint bits, j, old, saved =>
    match j with
    | .num (some n) => if n < 2 ^ bits then .ok (.uint n, saved) else .ok (old, keep saved (mismatch "uint"))
    | .null => .ok (old, saved)
    | _ => .ok (old, keep saved (mismatch "uint"))
  | .quoted bits, j, old, saved =>
    match j with
    | .str s =>
      match D.quoted bits s with
      | .value n => .ok (.uint n, saved)
      | .ignored => .ok (old, saved)
      | .refused e => .ok (old, keep saved e)
      | .broken e => .error (.error e)
    | .null => .ok (old, saved)
    | _ => .ok (old, keep saved "json: invalid use of ,string struct tag, trying to unmarshal unquoted value into uint")
  | .bytes, j, old, saved =>
    match j with
    | .str s =>
      match D.base64 s with
      | some b => .ok (.bytes b, saved)
      | none => .ok (old, keep saved "illegal base64 data")
    | .null => .ok (.nil, saved)
    | .arr items =>
      let (b, saved) := readBytes items old.toBytes saved
      .ok (.bytes b, saved)
    | _ => .ok (old, keep saved (mismatch "[]uint8"))
  | .raw, j, _, saved => .ok (.raw j, saved)
  | .slice elem, j, old, saved =>
    match j with
    | .null => .ok (.nil, saved)
    | .arr items => do
      let (vs, saved) ← readItems (read elem) (zero D elem) items old.backing saved
      return (.slice vs (if vs.isEmpty then [] else old.backing.drop vs.length), saved)
    | _ => .ok (old, keep saved (mismatch "slice"))
  | .ptr elem, j, old, saved =>
    match j with
    | .null => .ok (.nil, saved)
    | j => do
      let (v, saved) ← read elem j (old.pointee (zero D elem)) saved
      return (.ptr v, saved)
  | .struct fields, j, old, saved =>
    match j with
    | .obj members => do
      let (vs, saved) ← readMembers (readField fields) members old.fields saved
      return (.struct vs, saved)
    | .null => .ok (old, saved)
    | _ => .ok (old, keep saved (mismatch "struct"))
  | .custom u inner, j, _, saved => finished (D.finish u) saved (settled (read inner j (zero D inner) none))

/-- The value of a key goes to the field that the key is meant for, if there is one. -/
def readField : Fields ι → String → Json → List Value → Saved → Except (Stop π) (List Value × Saved)
  | .nil, _, _, vs, saved => .ok (vs, saved)
  | .cons name type rest, key, j, vs, saved =>
    if D.sameKey name key then do
      let (v, saved) ← read type j (vs.headD (zero D type)) saved
      return (v :: vs.tail, saved)
    else do
      let (vs', saved) ← readField rest key j vs.tail saved
      return (vs.headD (zero D type) :: vs', saved)

end

/-- `json.Unmarshal` into a new variable. -/
def unmarshal (t : GoType ι) (j : Json) : Except π (Except String Value) := settled (read D t j (zero D t) none)

/-- The type of the field that a key is meant for. -/
def Fields.find : Fields ι → String → Option (GoType ι)
  | .nil, _ => none
  | .cons name type rest, key => if D.sameKey name key then some type else rest.find key

/-- To read `j` as a `t`, the part `j'` of it is read as a `t'`, if reading gets that far. -/
inductive Reads : GoType ι → Json → GoType ι → Json → Prop
  | here (t : GoType ι) (j : Json) : Reads t j t j
  | item {elem t' : GoType ι} {items : List Json} {j j' : Json} (mem : j ∈ items) (h : Reads elem j t' j') :
      Reads (.slice elem) (.arr items) t' j'
  | pointee {elem t' : GoType ι} {j j' : Json} (ne : j ≠ .null) (h : Reads elem j t' j') : Reads (.ptr elem) j t' j'
  | field {fields : Fields ι} {type t' : GoType ι} {members : List (String × Json)} {key : String} {j j' : Json}
      (mem : (key, j) ∈ members) (find : fields.find D key = some type) (h : Reads type j t' j') :
      Reads (.struct fields) (.obj members) t' j'
  | inner {u : ι} {inner t' : GoType ι} {j j' : Json} (h : Reads inner j t' j') : Reads (.custom u inner) j t' j'

/-- Where reading stops by itself, and not because it stops at a part. -/
inductive StopsAt : GoType ι → Json → Stop π → Prop
  | broken {bits : Nat} {s e : String} (h : D.quoted bits s = .broken e) : StopsAt (.quoted bits) (.str s) (.error e)
  | mistyped {u : ι} {inner : GoType ι} {j : Json} {v : Value} {e : String}
      (h : read D inner j (zero D inner) none = .ok (v, some e)) : StopsAt (.custom u inner) j (.error e)
  | refused {u : ι} {inner : GoType ι} {j : Json} {v : Value} {e : String} (h : unmarshal D inner j = .ok (.ok v))
      (hf : D.finish u v = .ok (.error e)) : StopsAt (.custom u inner) j (.error e)
  | panics {u : ι} {inner : GoType ι} {j : Json} {v : Value} {p : π} (h : unmarshal D inner j = .ok (.ok v))
      (hf : D.finish u v = .error p) : StopsAt (.custom u inner) j (.panic p)

/-- Reading stops at no part. -/
def Clean (t : GoType ι) (j : Json) : Prop := ∀ t' j' s, Reads D t j t' j' → ¬ StopsAt D t' j' s

/-- The same as `Reads`, for a part such that reading stops at none of those before it. -/
inductive First : GoType ι → Json → GoType ι → Json → Prop
  | here (t : GoType ι) (j : Json) : First t j t j
  | item {elem t' : GoType ι} {before after : List Json} {j j' : Json} (clean : ∀ i ∈ before, Clean D elem i)
      (h : First elem j t' j') : First (.slice elem) (.arr (before ++ j :: after)) t' j'
  | pointee {elem t' : GoType ι} {j j' : Json} (ne : j ≠ .null) (h : First elem j t' j') : First (.ptr elem) j t' j'
  | field {fields : Fields ι} {type t' : GoType ι} {before after : List (String × Json)} {key : String} {j j' : Json}
      (clean : ∀ m ∈ before, ∀ type, fields.find D m.1 = some type → Clean D type m.2)
      (find : fields.find D key = some type) (h : First type j t' j') :
      First (.struct fields) (.obj (before ++ (key, j) :: after)) t' j'
  | inner {u : ι} {inner t' : GoType ι} {j j' : Json} (h : First inner j t' j') : First (.custom u inner) j t' j'

variable {D} {t t' : GoType ι} {j j' : Json} {s : Stop π}

section Loops

variable {fresh : Value} {item : Json → Value → Saved → Except (Stop π) (Value × Saved)}
variable {member : String → Json → List Value → Saved → Except (Stop π) (List Value × Saved)}

theorem except_bind_eq_error {ε α β : Type} {x : Except ε α} {f : α → Except ε β} {e : ε} :
    x >>= f = .error e ↔ x = .error e ∨ ∃ a, x = .ok a ∧ f a = .error e := by
  cases x with
  | error e' =>
    refine ⟨fun h ↦ ?_, fun h ↦ ?_⟩
    · cases h
      exact .inl rfl
    · rcases h with h | ⟨_, h, -⟩
      · cases h
        rfl
      · cases h
  | ok a => exact ⟨fun h ↦ .inr ⟨a, rfl, h⟩, fun h ↦ h.elim nofun fun ⟨_, ha, hf⟩ ↦ by cases ha; exact hf⟩

theorem exists_error_bind {ε α β : Type} {x : Except ε α} {f : α → Except ε β}
    (h : ∀ a, x = .ok a → ∃ e, f a = .error e) : ∃ e, x >>= f = .error e := by
  cases x with
  | error e => exact ⟨e, rfl⟩
  | ok a => exact h a rfl

theorem readItems_eq_error {items : List Json} {old : List Value} {saved : Saved}
    (h : readItems item fresh items old saved = .error s) :
    ∃ before j after, items = before ++ j :: after ∧ (∀ i ∈ before, ∃ old saved r, item i old saved = .ok r) ∧
      ∃ old saved, item j old saved = .error s := by
  induction items generalizing old saved with
  | nil => cases h
  | cons j items ih =>
    rcases except_bind_eq_error.1 h with hj | ⟨r, hr, hrest⟩
    · exact ⟨[], j, items, rfl, nofun, _, _, hj⟩
    rcases except_bind_eq_error.1 hrest with hitems | ⟨_, -, hpure⟩
    · obtain ⟨before, j', after, rfl, hbefore, hj'⟩ := ih hitems
      exact ⟨j :: before, j', after, rfl, List.forall_mem_cons.2 ⟨⟨_, _, r, hr⟩, hbefore⟩, hj'⟩
    · cases hpure

theorem readItems_of_first {before after : List Json} {j : Json}
    (hbefore : ∀ i ∈ before, ∀ old saved, ∃ r, item i old saved = .ok r)
    (hj : ∀ old saved, item j old saved = .error s) (old : List Value) (saved : Saved) :
    readItems item fresh (before ++ j :: after) old saved = .error s := by
  induction before generalizing old saved with
  | nil => exact except_bind_eq_error.2 (.inl (hj _ _))
  | cons i before ih =>
    obtain ⟨hi, hbefore⟩ := List.forall_mem_cons.1 hbefore
    obtain ⟨r, hr⟩ := hi (old.headD fresh) saved
    exact except_bind_eq_error.2 (.inr ⟨r, hr, except_bind_eq_error.2 (.inl (ih hbefore _ _))⟩)

theorem readItems_stops {items : List Json} {j : Json} (hmem : j ∈ items)
    (hstop : ∀ old saved, ∃ s, item j old saved = .error s) (old : List Value) (saved : Saved) :
    ∃ s, readItems item fresh items old saved = .error s := by
  induction hmem generalizing old saved with
  | head =>
    obtain ⟨s, hs⟩ := hstop (old.headD fresh) saved
    exact ⟨s, except_bind_eq_error.2 (.inl hs)⟩
  | tail _ _ ih =>
    refine exists_error_bind fun r _ ↦ ?_
    obtain ⟨s, hs⟩ := ih old.tail r.2
    exact ⟨s, except_bind_eq_error.2 (.inl hs)⟩

theorem readMembers_eq_error {members : List (String × Json)} {vs : List Value} {saved : Saved}
    (h : readMembers member members vs saved = .error s) :
    ∃ before m after, members = before ++ m :: after ∧ (∀ n ∈ before, ∃ vs saved r, member n.1 n.2 vs saved = .ok r) ∧
      ∃ vs saved, member m.1 m.2 vs saved = .error s := by
  induction members generalizing vs saved with
  | nil => cases h
  | cons m members ih =>
    rcases except_bind_eq_error.1 h with hm | ⟨r, hr, hrest⟩
    · exact ⟨[], m, members, rfl, nofun, _, _, hm⟩
    · obtain ⟨before, m', after, rfl, hbefore, hm'⟩ := ih hrest
      exact ⟨m :: before, m', after, rfl, List.forall_mem_cons.2 ⟨⟨_, _, r, hr⟩, hbefore⟩, hm'⟩

theorem readMembers_of_first {before after : List (String × Json)} {m : String × Json}
    (hbefore : ∀ n ∈ before, ∀ vs saved, ∃ r, member n.1 n.2 vs saved = .ok r)
    (hm : ∀ vs saved, member m.1 m.2 vs saved = .error s) (vs : List Value) (saved : Saved) :
    readMembers member (before ++ m :: after) vs saved = .error s := by
  induction before generalizing vs saved with
  | nil => exact except_bind_eq_error.2 (.inl (hm _ _))
  | cons n before ih =>
    obtain ⟨hn, hbefore⟩ := List.forall_mem_cons.1 hbefore
    obtain ⟨r, hr⟩ := hn vs saved
    exact except_bind_eq_error.2 (.inr ⟨r, hr, ih hbefore _ _⟩)

theorem readMembers_stops {members : List (String × Json)} {m : String × Json} (hmem : m ∈ members)
    (hstop : ∀ vs saved, ∃ s, member m.1 m.2 vs saved = .error s) (vs : List Value) (saved : Saved) :
    ∃ s, readMembers member members vs saved = .error s := by
  induction hmem generalizing vs saved with
  | head =>
    obtain ⟨s, hs⟩ := hstop vs saved
    exact ⟨s, except_bind_eq_error.2 (.inl hs)⟩
  | tail _ _ ih => exact exists_error_bind fun r _ ↦ ih r.1 r.2

end Loops

/-- An `UnmarshalJSON` stops where the reading in it stops, or by itself. -/
theorem stopsAt_of_finished {u : ι} {inner : GoType ι} {saved : Saved}
    (h : finished (D.finish u) saved (unmarshal D inner j) = .error s) :
    read D inner j (zero D inner) none = .error s ∨ StopsAt D (.custom u inner) j s := by
  cases hr : read D inner j (zero D inner) none with
  | error s' =>
    left
    rw [unmarshal, hr] at h
    cases s' <;> exact h
  | ok r =>
    right
    obtain ⟨v, hv | e⟩ := r
    · have hu : unmarshal D inner j = .ok (.ok v) := by rw [unmarshal, hr]; rfl
      rw [hu] at h
      simp only [finished] at h
      split at h
      next p hf => cases h; exact .panics hu hf
      next e hf => cases h; exact .refused hu hf
      next => cases h
    · rw [unmarshal, hr] at h
      cases h
      exact .mistyped hr

theorem finished_of_stopsAt {u : ι} {inner : GoType ι} (hat : StopsAt D (.custom u inner) j s) (saved : Saved) :
    finished (D.finish u) saved (unmarshal D inner j) = .error s := by
  cases hat with
  | mistyped hr => rw [unmarshal, hr]; rfl
  | refused hu hf => rw [hu]; simp only [finished, hf]
  | panics hu hf => rw [hu]; simp only [finished, hf]

theorem finished_of_error {u : ι} {inner : GoType ι} (h : read D inner j (zero D inner) none = .error s)
    (saved : Saved) : finished (D.finish u) saved (unmarshal D inner j) = .error s := by
  rw [unmarshal, h]
  cases s <;> rfl

theorem StopsAt.read_eq (hat : StopsAt D t j s) (old : Value) (saved : Saved) : read D t j old saved = .error s := by
  cases t with
  | custom u inner => exact finished_of_stopsAt hat saved
  | quoted bits =>
    cases hat with
    | broken he => simp only [read, he]
  | _ => cases hat

theorem read_ptr (hne : j ≠ .null) (old : Value) (saved : Saved) :
    read D (.ptr t) j old saved =
      read D t j (old.pointee (zero D t)) saved >>= fun r ↦ .ok (.ptr r.1, r.2) := by
  cases j with
  | null => exact absurd rfl hne
  | _ => rfl

theorem readField_of_find_none : ∀ {fields : Fields ι} {key : String}, fields.find D key = none →
    ∀ (vs : List Value) (saved : Saved), ∃ r, readField D fields key j vs saved = .ok r
  | .nil, _, _, vs, saved => ⟨(vs, saved), rfl⟩
  | .cons name type rest, key, hfind, vs, saved => by
    simp only [Fields.find] at hfind
    split at hfind
    next => cases hfind
    next hkey =>
      obtain ⟨r, hr⟩ := readField_of_find_none hfind vs.tail saved
      simp only [readField, if_neg hkey, hr]
      exact ⟨_, rfl⟩

/-- The value of a key is read as its field, and the rest only puts it in its place. -/
theorem readField_of_find : ∀ {fields : Fields ι} {key : String}, fields.find D key = some t →
    ∀ (vs : List Value) (saved : Saved), ∃ (old : Value) (place : Value → List Value), readField D fields key j vs saved =
      read D t j old saved >>= fun r ↦ .ok (place r.1, r.2)
  | .nil, _, hfind, _, _ => nomatch hfind
  | .cons name type rest, key, hfind, vs, saved => by
    simp only [Fields.find] at hfind
    split at hfind
    next hkey =>
      cases hfind
      refine ⟨vs.headD (zero D t), fun v ↦ v :: vs.tail, ?_⟩
      simp only [readField, if_pos hkey]
      rfl
    next hkey =>
      obtain ⟨old, place, h⟩ := readField_of_find hfind vs.tail saved
      refine ⟨old, fun v ↦ vs.headD (zero D type) :: place v, ?_⟩
      simp only [readField, if_neg hkey, h]
      cases read D t j old saved <;> rfl

/-- Nothing is read past a part that stops, whatever has been read before it. -/
theorem Reads.stops (h : Reads D t j t' j') (hat : StopsAt D t' j' s) (old : Value) (saved : Saved) :
    ∃ s, read D t j old saved = .error s := by
  induction h generalizing old saved with
  | here t j => exact ⟨s, hat.read_eq old saved⟩
  | item hmem _ ih =>
    obtain ⟨s, hs⟩ := readItems_stops hmem (ih hat) old.backing saved
    exact ⟨s, except_bind_eq_error.2 (.inl hs)⟩
  | pointee hne _ ih =>
    obtain ⟨s, hs⟩ := ih hat (old.pointee (zero D _)) saved
    exact ⟨s, (read_ptr hne old saved).trans (except_bind_eq_error.2 (.inl hs))⟩
  | @field fields type _ members key j _ hmem hfind _ ih =>
    have hfield : ∀ vs saved, ∃ s, readField D fields key j vs saved = .error s := by
      intro vs saved
      obtain ⟨old, place, h⟩ := readField_of_find hfind vs saved
      obtain ⟨s, hs⟩ := ih hat old saved
      exact ⟨s, h.trans (except_bind_eq_error.2 (.inl hs))⟩
    obtain ⟨s, hs⟩ := readMembers_stops hmem hfield old.fields saved
    exact ⟨s, except_bind_eq_error.2 (.inl hs)⟩
  | inner _ ih =>
    obtain ⟨s, hs⟩ := ih hat (zero D _) none
    exact ⟨s, finished_of_error hs saved⟩

theorem clean_of_read {old : Value} {saved : Saved} {r : Value × Saved} (h : read D t j old saved = .ok r) :
    Clean D t j := by
  intro t' j' s hreads hat
  obtain ⟨s, hs⟩ := hreads.stops hat old saved
  cases h.symm.trans hs

mutual

/-- Reading stops only where a part stops by itself, and at the first such part. -/
theorem exists_first : ∀ (t : GoType ι) {j : Json} {old : Value} {saved : Saved},
    read D t j old saved = .error s → ∃ t' j', First D t j t' j' ∧ StopsAt D t' j' s
  | .string, j, _, _, h => by cases j <;> cases h
  | .uint bits, j, _, _, h => by
    simp only [read] at h
    split at h
    · split at h <;> cases h
    all_goals cases h
  | .quoted bits, j, _, _, h => by
    cases j with
    | str _ =>
      simp only [read] at h
      split at h
      next => cases h
      next => cases h
      next => cases h
      next e he => cases h; exact ⟨_, _, .here _ _, .broken he⟩
    | _ => cases h
  | .bytes, j, _, _, h => by
    simp only [read] at h
    split at h
    · split at h <;> cases h
    all_goals cases h
  | .raw, _, _, _, h => nomatch h
  | .slice elem, j, _, _, h => by
    cases j with
    | arr items =>
      rcases except_bind_eq_error.1 h with hitems | ⟨_, -, hpure⟩
      · obtain ⟨before, j, after, rfl, hbefore, _, _, hj⟩ := readItems_eq_error hitems
        obtain ⟨t', j', hfirst, hat⟩ := exists_first elem hj
        have hclean : ∀ i ∈ before, Clean D elem i := by
          intro i hi
          obtain ⟨_, _, _, hr⟩ := hbefore i hi
          exact clean_of_read hr
        exact ⟨t', j', .item hclean hfirst, hat⟩
      · cases hpure
    | _ => cases h
  | .ptr elem, j, old, saved, h => by
    by_cases hnull : j = .null
    · subst hnull
      cases h
    · rw [read_ptr hnull] at h
      rcases except_bind_eq_error.1 h with helem | ⟨_, -, hpure⟩
      · obtain ⟨t', j', hfirst, hat⟩ := exists_first elem helem
        exact ⟨t', j', .pointee hnull hfirst, hat⟩
      · cases hpure
  | .struct fields, j, _, _, h => by
    cases j with
    | obj members =>
      rcases except_bind_eq_error.1 h with hmembers | ⟨_, -, hpure⟩
      · obtain ⟨before, m, after, rfl, hbefore, _, _, hm⟩ := readMembers_eq_error hmembers
        obtain ⟨type, t', j', hfind, hfirst, hat⟩ := exists_first_field fields hm
        have hclean : ∀ n ∈ before, ∀ type, fields.find D n.1 = some type → Clean D type n.2 := by
          intro n hn type htype
          obtain ⟨vs, saved, _, hr⟩ := hbefore n hn
          obtain ⟨old, place, heq⟩ := readField_of_find (j := n.2) htype vs saved
          cases hread : read D type n.2 old saved with
          | error s =>
            rw [heq, hread] at hr
            cases hr
          | ok r => exact clean_of_read hread
        exact ⟨t', j', .field hclean hfind hfirst, hat⟩
      · cases hpure
    | _ => cases h
  | .custom u inner, j, _, saved, h => by
    rcases stopsAt_of_finished h with hinner | hat
    · obtain ⟨t', j', hfirst, hat⟩ := exists_first inner hinner
      exact ⟨t', j', .inner hfirst, hat⟩
    · exact ⟨_, _, .here _ _, hat⟩

theorem exists_first_field : ∀ (fields : Fields ι) {key : String} {j : Json} {vs : List Value} {saved : Saved},
    readField D fields key j vs saved = .error s →
      ∃ type t' j', fields.find D key = some type ∧ First D type j t' j' ∧ StopsAt D t' j' s
  | .nil, _, _, _, _, h => nomatch h
  | .cons name type rest, key, j, _, _, h => by
    simp only [readField] at h
    split at h
    next hkey =>
      rcases except_bind_eq_error.1 h with htype | ⟨_, -, hpure⟩
      · obtain ⟨t', j', hfirst, hat⟩ := exists_first type htype
        exact ⟨type, t', j', if_pos hkey, hfirst, hat⟩
      · cases hpure
    next hkey =>
      rcases except_bind_eq_error.1 h with hrest | ⟨_, -, hpure⟩
      · obtain ⟨type', t', j', hfind, hfirst, hat⟩ := exists_first_field rest hrest
        exact ⟨type', t', j', (if_neg hkey).trans hfind, hfirst, hat⟩
      · cases hpure

end

theorem First.reads (h : First D t j t' j') : Reads D t j t' j' := by
  induction h with
  | here t j => exact .here t j
  | item _ _ ih => exact .item List.mem_append_cons_self ih
  | pointee hne _ ih => exact .pointee hne ih
  | field _ hfind _ ih => exact .field List.mem_append_cons_self hfind ih
  | inner _ ih => exact .inner ih

theorem Clean.read_ok (h : Clean D t j) (old : Value) (saved : Saved) : ∃ r, read D t j old saved = .ok r := by
  cases hread : read D t j old saved with
  | ok r => exact ⟨r, rfl⟩
  | error s =>
    obtain ⟨t', j', hfirst, hat⟩ := exists_first t hread
    exact absurd hat (h t' j' s hfirst.reads)

/-- At the first part that stops by itself reading does stop, whatever was in the variable. -/
theorem First.read_eq (h : First D t j t' j') (hat : StopsAt D t' j' s) (old : Value) (saved : Saved) :
    read D t j old saved = .error s := by
  induction h generalizing old saved with
  | here t j => exact hat.read_eq old saved
  | item hclean _ ih =>
    exact except_bind_eq_error.2 (.inl (readItems_of_first (fun i hi ↦ (hclean i hi).read_ok) (ih hat) old.backing saved))
  | pointee hne _ ih => exact (read_ptr hne old saved).trans (except_bind_eq_error.2 (.inl (ih hat _ saved)))
  | @field fields type _ before after key j _ hclean hfind _ ih =>
    have hbefore : ∀ n ∈ before, ∀ vs saved, ∃ r, readField D fields n.1 n.2 vs saved = .ok r := by
      intro n hn vs saved
      cases htype : fields.find D n.1 with
      | none => exact readField_of_find_none htype vs saved
      | some type =>
        obtain ⟨old, place, heq⟩ := readField_of_find (j := n.2) htype vs saved
        obtain ⟨r, hr⟩ := (hclean n hn type htype).read_ok old saved
        exact ⟨_, heq.trans (by rw [hr]; rfl)⟩
    have hfield : ∀ vs saved, readField D fields key j vs saved = .error s := by
      intro vs saved
      obtain ⟨old, place, heq⟩ := readField_of_find (j := j) hfind vs saved
      exact heq.trans (except_bind_eq_error.2 (.inl (ih hat old saved)))
    exact except_bind_eq_error.2 (.inl (readMembers_of_first hbefore hfield old.fields saved))
  | inner _ ih => exact finished_of_error (ih hat _ none) saved

theorem unmarshal_eq_error {p : π} : unmarshal D t j = .error p ↔ read D t j (zero D t) none = .error (.panic p) := by
  rw [unmarshal]
  rcases read D t j (zero D t) none with (e | p') | ⟨v, saved | e⟩ <;> simp [settled]

/-- A document makes reading panic if, and only if, an `UnmarshalJSON` does at the first part that stops by itself. -/
theorem unmarshal_panics_iff {p : π} :
    unmarshal D t j = .error p ↔ ∃ t' j', First D t j t' j' ∧ StopsAt D t' j' (.panic p) := by
  rw [unmarshal_eq_error]
  exact ⟨exists_first t, fun ⟨_, _, hfirst, hat⟩ ↦ hfirst.read_eq hat (zero D t) none⟩

section Types

mutual

/-- Every type with an `UnmarshalJSON` in `t` is one of those that `p` allows. -/
def GoType.all (p : ι → GoType ι → Bool) : GoType ι → Bool
  | .slice elem => elem.all p
  | .ptr elem => elem.all p
  | .struct fields => fields.all p
  | .custom u inner => p u inner && inner.all p
  | _ => true

def Fields.all (p : ι → GoType ι → Bool) : Fields ι → Bool
  | .nil => true
  | .cons _ type rest => type.all p && rest.all p

end

variable {p : ι → GoType ι → Bool}

theorem Fields.all_of_find : ∀ {fields : Fields ι} {key : String}, fields.find D key = some t → fields.all p = true →
    t.all p = true
  | .nil, _, hfind, _ => nomatch hfind
  | .cons name type rest, key, hfind, hall => by
    simp only [Fields.find] at hfind
    obtain ⟨htype, hrest⟩ := Bool.and_eq_true_iff.1 hall
    split at hfind
    · cases hfind
      exact htype
    · exact Fields.all_of_find hfind hrest

theorem Reads.all (h : Reads D t j t' j') (hall : t.all p = true) : t'.all p = true := by
  induction h with
  | here => exact hall
  | item _ _ ih => exact ih hall
  | pointee _ _ ih => exact ih hall
  | field _ hfind _ ih => exact ih (Fields.all_of_find hfind hall)
  | inner _ ih => exact ih (Bool.and_eq_true_iff.1 hall).2

end Types

end Cosmwasgo.Lib.GoJson
