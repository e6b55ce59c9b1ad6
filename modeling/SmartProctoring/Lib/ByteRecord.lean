import Mathlib.Data.Nat.Digits.Defs
import Mathlib.Data.List.Basic

/-!
# Records of bytes

A record is a list of fields, each a number in so many bytes, lowest first.  What is written reads
back, if each number fits its field (`read_bytes`); so do records one after another
(`readMany_flatMap`).  A part that a text of bytes has at a position (`HoldsAt`) stays there when
more is appended.
-/

set_option autoImplicit false

universe u v

namespace ByteRecord

open List

/-! ## Numbers -/

/-- The `w` lowest bytes of a number, lowest first. -/
def leBytes : Nat → Nat → List UInt8
  | 0, _ => []
  | w + 1, v => .ofNat v :: leBytes w (v / 256)

/-- The number that bytes stand for, lowest first. -/
def leValue (bs : List UInt8) : Nat := Nat.ofDigits 256 (bs.map UInt8.toNat)

@[simp] theorem length_leBytes (w v : Nat) : (leBytes w v).length = w := by
  induction w generalizing v with
  | zero => rfl
  | succ w ih => rw [leBytes, length_cons, ih]

theorem leValue_leBytes {w v : Nat} (h : v < 256 ^ w) : leValue (leBytes w v) = v := by
  induction w generalizing v with
  | zero =>
    rw [Nat.pow_zero, Nat.lt_one_iff] at h
    rw [h]
    rfl
  | succ w ih =>
    have hrest : v / 256 < 256 ^ w := Nat.div_lt_of_lt_mul (by rwa [pow_succ'] at h)
    have hcons : leValue (leBytes (w + 1) v) = v % 256 + 256 * leValue (leBytes w (v / 256)) := by
      simp [leValue, leBytes, Nat.ofDigits_cons]
    rw [hcons, ih hrest]
    omega

/-! ## Fields -/

structure Field where
  width : Nat
  value : Nat

def Field.Fits (f : Field) : Prop := f.value < 256 ^ f.width

instance (f : Field) : Decidable f.Fits := inferInstanceAs (Decidable (f.value < 256 ^ f.width))

def bytes (fs : List Field) : List UInt8 := fs.flatMap fun f => leBytes f.width f.value

/-- The values of fields of these widths, and what comes after them. -/
def read : List Nat → List UInt8 → Option (List Nat × List UInt8)
  | [], bs => some ([], bs)
  | w :: ws, bs =>
    if bs.length < w then none else (read ws (bs.drop w)).map fun r => (leValue (bs.take w) :: r.1, r.2)

@[simp] theorem length_bytes (fs : List Field) : (bytes fs).length = (fs.map (·.width)).sum := by
  simp [bytes, length_flatMap]

theorem read_bytes {fs : List Field} (h : ∀ f ∈ fs, f.Fits) (rest : List UInt8) :
    read (fs.map (·.width)) (bytes fs ++ rest) = some (fs.map (·.value), rest) := by
  induction fs with
  | nil => rfl
  | cons f fs ih =>
    rw [forall_mem_cons] at h
    have hlen : (leBytes f.width f.value).length = f.width := length_leBytes f.width f.value
    have hsplit : bytes (f :: fs) ++ rest = leBytes f.width f.value ++ (bytes fs ++ rest) := by
      rw [bytes, flatMap_cons, append_assoc, ← bytes]
    have hlong : ¬ (leBytes f.width f.value ++ (bytes fs ++ rest)).length < f.width := by
      rw [length_append]
      omega
    rw [map_cons, hsplit, read, if_neg hlong, drop_left' hlen, take_left' hlen, ih h.2,
      leValue_leBytes h.1, Option.map_some, map_cons]

/-! ## Records one after another -/

variable {α : Type u} {β : Type v}

/-- Reads `n` times. -/
def readMany (readOne : List UInt8 → Option (α × List UInt8)) :
    Nat → List UInt8 → Option (List α × List UInt8)
  | 0, bs => some ([], bs)
  | n + 1, bs =>
    (readOne bs).bind fun (x, bs) => (readMany readOne n bs).map fun (xs, bs) => (x :: xs, bs)

theorem readMany_flatMap {readOne : List UInt8 → Option (α × List UInt8)} {write : β → List UInt8}
    {value : β → α}
    {l : List β} (h : ∀ b ∈ l, ∀ rest, readOne (write b ++ rest) = some (value b, rest))
    (rest : List UInt8) :
    readMany readOne l.length (l.flatMap write ++ rest) = some (l.map value, rest) := by
  induction l with
  | nil => rfl
  | cons b l ih =>
    rw [forall_mem_cons] at h
    rw [length_cons, readMany, flatMap_cons, append_assoc, h.1, Option.bind_some]
    dsimp only
    rw [ih h.2, Option.map_some, map_cons]

/-! ## Positions -/

/-- At this position a text of bytes goes on with `part`. -/
def HoldsAt (bs : List UInt8) (position : Nat) (part : List UInt8) : Prop :=
  ∃ rest, bs.drop position = part ++ rest

theorem holdsAt_append (a part rest : List UInt8) : HoldsAt (a ++ (part ++ rest)) a.length part :=
  ⟨rest, drop_left⟩

end ByteRecord
