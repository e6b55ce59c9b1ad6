import Mathlib.Data.List.DropRight

/-!
# Characters as JavaScript sees them

The classes of characters in JavaScript's patterns and what its string methods do to single
characters.  A string is a list of characters here; lone surrogates, which no text that is handled
as characters keeps, are left out.
-/

set_option autoImplicit false

namespace JsChar

/-- `\s`, and what `trim` takes off: white space and line ends. -/
def isSpace (c : Char) : Bool :=
  decide (c.toNat ∈ [9, 10, 11, 12, 13, 32, 160, 5760, 8232, 8233, 8239, 8287, 12288, 65279]) ||
    decide (8192 ≤ c.toNat ∧ c.toNat ≤ 8202)

/-- `s.trim()`. -/
def trim (s : List Char) : List Char := (s.dropWhile isSpace).rdropWhile isSpace

/-- What is used of `String.prototype.toUpperCase`, which maps a text character by character. -/
structure ToUpperCase (upper : Char → List Char) : Prop where
  ascii : ∀ c : Char, c.toNat < 128 → upper c = [c.toUpper]
  space : ∀ c : Char, isSpace c = true → upper c = [c]

theorem ascii_forall {P : Char → Prop} (h : ∀ n < 128, P (Char.ofNat n)) (c : Char)
    (hc : c.toNat < 128) : P c := by
  have := h c.toNat hc
  rwa [Char.ofNat_toNat] at this

theorem recase_ascii (c : Char) (hc : c.toNat < 128) :
    (c.toUpper.toNat < 128 ∧ c.toUpper.toUpper = c.toUpper) ∧
      c.toLower.toNat < 128 ∧ c.toLower.toUpper = c.toUpper := by
  revert c
  exact ascii_forall (by decide)

end JsChar
