import Mathlib.Data.List.Sort
import Mathlib.Data.List.Perm.Basic
import Mathlib.Data.List.Lex
import Mathlib.Data.Fintype.Basic
import Mathlib.Algebra.GroupWithZero.Nat
import SmartProctoring.Lib.Joined

/-!
# JSON texts of JavaScript values

JSON values as JavaScript has them, with strings of UTF-16 code units, so lone surrogates included,
and the text that `JSON.stringify` prints for them.

* A text determines its value (`print_inj`).
* Two values are the same request when they are equal up to the order of the keys of their objects (`Same`); putting the
  keys of every object in one order decides that (`sortAll_eq_iff`).

What is done with a value, one case for each kind, is a `Reading`.
-/

set_option autoImplicit false

universe u v

namespace JsText

open Joined
open List

/-- A UTF-16 code unit. -/
abbrev CodeUnit := Fin 65536

instance neZero_codeUnits : NeZero 65536 := ⟨by decide⟩

instance lawfulBEq_codeUnit : LawfulBEq CodeUnit := inferInstance

/-- A JavaScript string. -/
abbrev Text := List CodeUnit

/-- The text of an ASCII string. -/
def ascii (s : String) : Text := s.toList.map fun c => Fin.ofNat 65536 c.toNat

/-! ## Strings -/

/-- The quotation mark. -/
def mark : CodeUnit := 34

def backslash : CodeUnit := 92

def hexDigit (n : Nat) : CodeUnit := if n < 10 then Fin.ofNat 65536 (48 + n)
    else Fin.ofNat 65536 (87 + n)

def hexValue (c : CodeUnit) : Nat := if c.val < 58 then c.val - 48 else c.val - 87

theorem hexValue_hexDigit : ∀ n < 16, hexValue (hexDigit n) = n := by decide

/-- The code units with an escape of two characters. -/
def shortEscapes : List (CodeUnit × CodeUnit) :=
  [(8, 98), (9, 116), (10, 110), (12, 102), (13, 114), (mark, mark), (backslash, backslash)]

def isHigh (u : CodeUnit) : Bool := 0xD800 ≤ u.val && u.val < 0xDC00

def isLow (u : CodeUnit) : Bool := 0xDC00 ≤ u.val && u.val < 0xE000

/-- `\u` and four digits. -/
def unicodeEscape (u : CodeUnit) : Text :=
  [backslash, 117, hexDigit (u.val / 4096), hexDigit (u.val / 256 % 16), hexDigit (u.val / 16 % 16),
    hexDigit (u.val % 16)]

/-- `JSON.stringify` of one code unit that is no part of a surrogate pair. -/
def escapeUnit (u : CodeUnit) : Text :=
  match shortEscapes.find? fun e => e.1 = u with
  | some e => [backslash, e.2]
  | none => if u.val < 32 || isHigh u || isLow u then unicodeEscape u else [u]

/-- A surrogate pair is one character, which is not escaped. -/
def escape : Text → Text
  | [] => []
  | [u] => escapeUnit u
  | u :: v :: rest =>
    if isHigh u && isLow v then u :: v :: escape rest else escapeUnit u ++ escape (v :: rest)

/-- `JSON.stringify` of a string. -/
def quote (s : Text) : Text := mark :: (escape s ++ [mark])

/-- The first code unit that an escaped text stands for, and the text after it. -/
def next : Text → Option (CodeUnit × Text)
  | [] => none
  | c :: rest =>
    if c = backslash then
      match rest with
      | [] => none
      | e :: rest =>
        match shortEscapes.find? fun p => p.2 = e with
        | some p => some (p.1, rest)
        | none =>
          match rest with
          | a :: b :: c :: d :: rest =>
            some (Fin.ofNat 65536 (hexValue a * 4096 + hexValue b * 256 + hexValue c * 16 + hexValue d), rest)
          | _ => none
    else some (c, rest)

theorem next_plain {u : CodeUnit} (h : u ≠ backslash) (s : Text) : next (u :: s) = some (u, s) := by
  simp [next, h]

theorem next_unicodeEscape (u : CodeUnit) (s : Text) :
    next (unicodeEscape u ++ s) = some (u, s) := by
  have hnone : shortEscapes.find? (fun p => p.2 = (117 : CodeUnit)) = none := by decide
  have hu := u.isLt
  have hvalue : u.val / 4096 * 4096 + u.val / 256 % 16 * 256 + u.val / 16 % 16 * 16 +
      u.val % 16 = u.val := by omega
  simp only [unicodeEscape, cons_append, nil_append, next, if_true, hnone]
  rw [hexValue_hexDigit _ (by omega), hexValue_hexDigit _ (by omega),
    hexValue_hexDigit _ (by omega),
    hexValue_hexDigit _ (by omega), hvalue]
  congr 2
  exact Fin.ext (Nat.mod_eq_of_lt hu)

theorem next_escapeUnit (u : CodeUnit) (s : Text) : next (escapeUnit u ++ s) = some (u, s) := by
  rw [escapeUnit]
  split
  next e he =>
    have hmem := mem_of_find?_eq_some he
    have hu : e.1 = u := by simpa using find?_some he
    subst hu
    simp only [shortEscapes, mem_cons, not_mem_nil, or_false] at hmem
    rcases hmem with rfl | rfl | rfl | rfl | rfl | rfl | rfl <;> rfl
  next hnone =>
    split
    · exact next_unicodeEscape u s
    · refine next_plain (fun heq => ?_) s
      subst heq
      exact absurd hnone (by decide)

theorem escapeUnit_opens (u : CodeUnit) : Opens mark (escapeUnit u) := by
  rw [escapeUnit]
  split
  next e he => exact ⟨backslash, _, rfl, by decide⟩
  next hnone =>
    split
    · exact ⟨backslash, _, rfl, by decide⟩
    · refine ⟨u, [], rfl, fun heq => ?_⟩
      subst heq
      exact absurd hnone (by decide)

/-- A text that spells a string, code unit by code unit. -/
inductive Spelled : Text → Text → Prop
  | nil : Spelled [] []
  | cons {u : CodeUnit} {w s x : Text} (hnext : ∀ y, next (w ++ y) = some (u, y))
      (hopens : Opens mark w) (h : Spelled s x) : Spelled (u :: s) (w ++ x)

variable {s x : Text}

theorem Spelled.escapeUnit (u : CodeUnit) (h : Spelled s x) : Spelled (u :: s)
    (escapeUnit u ++ x) :=
  .cons (next_escapeUnit u) (escapeUnit_opens u) h

theorem Spelled.surrogate {u : CodeUnit} (hu : isHigh u = true ∨ isLow u = true) (h : Spelled s x) :
    Spelled (u :: s) (u :: x) := by
  have hne : ∀ c : CodeUnit, isHigh c = false → isLow c = false → u ≠ c := by
    rintro c hhigh hlow rfl
    simp [hhigh, hlow] at hu
  exact .cons (w := [u]) (next_plain (hne backslash (by decide) (by decide)))
    ⟨u, [], rfl, hne mark (by decide) (by decide)⟩ h

theorem spelled_escape (s : Text) : Spelled s (escape s) := by
  induction s using escape.induct with
  | case1 => exact .nil
  | case2 u =>
    rw [escape, ← append_nil (JsText.escapeUnit u)]
    exact .escapeUnit u .nil
  | case3 u v rest hpair ih =>
    rw [escape, if_pos hpair]
    rw [Bool.and_eq_true] at hpair
    exact .surrogate (.inl hpair.1) (.surrogate (.inr hpair.2) ih)
  | case4 u v rest hpair ih =>
    rw [escape, if_neg hpair]
    exact .escapeUnit u ih

theorem Spelled.cancel {a b x y s t : Text} (ha : Spelled a x) (hb : Spelled b y)
    (h : x ++ mark :: s = y ++ mark :: t) : a = b ∧ s = t := by
  induction ha generalizing b y with
  | nil =>
    cases hb with
    | nil => exact ⟨rfl, (cons.inj h).2⟩
    | cons hnext hopens hb =>
      rw [append_assoc] at h
      exact absurd h.symm hopens.ne
  | @cons u w a x hnext hopens ha ih =>
    cases hb with
    | nil =>
      rw [append_assoc] at h
      exact absurd h hopens.ne
    | cons hnext' hopens' hb =>
      rw [append_assoc, append_assoc] at h
      have hread := hnext (x ++ mark :: s)
      rw [h, hnext', Option.some.injEq, Prod.mk.injEq] at hread
      obtain ⟨rfl, hrest⟩ := ih hb hread.2.symm
      exact ⟨by rw [hread.1], hrest⟩

theorem quote_cancel {a b s t : Text} (h : quote a ++ s = quote b ++ t) : a = b ∧ s = t := by
  simp only [quote, cons_append, append_assoc, nil_append, cons.injEq, true_and] at h
  exact (spelled_escape a).cancel (spelled_escape b) h

variable {a b : Text}

/-! ## Values -/

/-- A JSON value, with numbers of type `ν`. -/
inductive Value (ν : Type u) where
  | null
  | bool (b : Bool)
  | num (n : ν)
  | str (s : Text)
  | arr (items : List (Value ν))
  | obj (fields : List (Text × Value ν))

variable {ν : Type u} {β : Type v}

/-- Something is done with the value of each field. -/
def onValues {γ : Type u} {β : Type v} (g : γ → β) (fs : List (Text × γ)) : List (Text × β) :=
  fs.map fun f => (f.1, g f.2)

/-- What is done with a value of each kind, once it is done with what is in it. -/
structure Reading (ν : Type u) (β : Type v) where
  null : β
  bool : Bool → β
  num : ν → β
  str : Text → β
  arr : List β → β
  obj : List (Text × β) → β

namespace Value

mutual

def fold (r : Reading ν β) : Value ν → β
  | null => r.null
  | bool b => r.bool b
  | num n => r.num n
  | str s => r.str s
  | arr items => r.arr (foldItems r items)
  | obj fields => r.obj (foldFields r fields)

def foldItems (r : Reading ν β) : List (Value ν) → List β
  | [] => []
  | v :: vs => fold r v :: foldItems r vs

def foldFields (r : Reading ν β) : List (Text × Value ν) → List (Text × β)
  | [] => []
  | (k, v) :: fs => (k, fold r v) :: foldFields r fs

end

theorem foldItems_eq (r : Reading ν β) (vs : List (Value ν)) :
    foldItems r vs = vs.map (fold r) := by
  induction vs with
  | nil => rfl
  | cons v vs ih => rw [foldItems, ih, map_cons]

theorem foldFields_eq (r : Reading ν β) (fs : List (Text × Value ν)) :
    foldFields r fs = onValues (fold r) fs := by
  induction fs with
  | nil => rfl
  | cons f fs ih => rw [foldFields, ih, onValues, onValues, map_cons]

theorem fold_arr (r : Reading ν β) (vs : List (Value ν)) :
    (arr vs).fold r = r.arr (vs.map (fold r)) := by
  rw [fold, foldItems_eq]

theorem fold_obj (r : Reading ν β) (fs : List (Text × Value ν)) :
    (obj fs).fold r = r.obj (onValues (fold r) fs) := by
  rw [fold, foldFields_eq]

/-- No object has a key twice. -/
inductive Distinct : Value ν → Prop
  | null : Distinct null
  | bool (b : Bool) : Distinct (bool b)
  | num (n : ν) : Distinct (num n)
  | str (s : Text) : Distinct (str s)
  | arr {vs : List (Value ν)} (h : ∀ v ∈ vs, Distinct v) : Distinct (arr vs)
  | obj {fs : List (Text × Value ν)} (hkeys : (fs.map Prod.fst).Nodup)
      (h : ∀ f ∈ fs, Distinct f.2) : Distinct (obj fs)

/-- Equal up to the order of the keys of objects. -/
inductive Same : Value ν → Value ν → Prop
  | null : Same null null
  | bool (b : Bool) : Same (bool b) (bool b)
  | num (n : ν) : Same (num n) (num n)
  | str (s : Text) : Same (str s) (str s)
  | arr {vs us : List (Value ν)} (hlength : vs.length = us.length)
    (h : ∀ p ∈ vs.zip us, Same p.1 p.2) : Same (arr vs) (arr us)
  | obj {fs hs gs : List (Text × Value ν)} (hkeys : fs.map Prod.fst = hs.map Prod.fst)
    (h : ∀ p ∈ fs.zip hs, Same p.1.2 p.2.2) (hperm : hs.Perm gs) : Same (obj fs) (obj gs)

theorem inductionOn {motive : Value ν → Prop} (v : Value ν) (null : motive null)
    (bool : ∀ b, motive (bool b))
    (num : ∀ n, motive (num n)) (str : ∀ s, motive (str s))
    (arr : ∀ vs, (∀ v ∈ vs, motive v) → motive (arr vs))
    (obj : ∀ fs, (∀ f ∈ fs, motive f.2) → motive (obj fs)) : motive v := by
  refine @Value.rec ν motive (fun vs => ∀ v ∈ vs, motive v) (fun fs => ∀ f ∈ fs,
    motive f.2) (fun f => motive f.2)
    null bool num str arr obj ?_ ?_ ?_ ?_ ?_ v
  · exact nofun
  · exact fun v vs hv hvs => forall_mem_cons.mpr ⟨hv, hvs⟩
  · exact nofun
  · exact fun f fs hf hfs => forall_mem_cons.mpr ⟨hf, hfs⟩
  · exact fun k v hv => hv

end Value

/-! ## Printing -/

/-- The code units of a number. -/
def numberUnits : Text := ascii "0123456789+-.e"

/-- A finite number, by the text JavaScript prints for it: equal numbers have equal texts. -/
abbrev Number := { text : Text // text ≠ [] ∧ ∀ c ∈ text, c ∈ numberUnits }

def comma : CodeUnit := 44

def openBracket : CodeUnit := 91

def closeBracket : CodeUnit := 93

def openBrace : CodeUnit := 123

def closeBrace : CodeUnit := 125

def array (ts : List Text) : Text := openBracket :: (joinWith comma ts ++ [closeBracket])

/-- A field of an object: its quoted key, a colon and the text of its value. -/
def member (f : Text × Text) : Text := quote f.1 ++ 58 :: f.2

def object (fs : List (Text × Text)) : Text :=
  openBrace :: (joinWith comma (fs.map member) ++ [closeBrace])

def printing : Reading Number Text where
  null := ascii "null"
  bool b := if b then ascii "true" else ascii "false"
  num n := n.val
  str s := quote s
  arr := array
  obj := object

/-- The text of a value whose objects are printed in the order of their fields. -/
def print : Value Number → Text := Value.fold printing

@[simp] theorem print_arr (vs : List (Value Number)) : print (.arr vs) = array (vs.map print) :=
  Value.fold_arr ..

@[simp] theorem print_obj (fs : List (Text × Value Number)) :
    print (.obj fs) = object (onValues print fs) :=
  Value.fold_obj ..

/-- What can follow a value. -/
def stops : Text := [comma, closeBracket, closeBrace]

/-- What the first code unit of a text says of the value. -/
def startKind (c : CodeUnit) : Nat :=
  if c ∈ numberUnits then 3
  else if c = 110 then 0
  else if c = 116 then 1
  else if c = 102 then 2
  else if c = mark then 4
  else if c = openBracket then 5
  else if c = openBrace then 6
  else 7

def Value.kind {ν : Type u} : Value ν → Nat
  | null => 0
  | bool b => if b then 1 else 2
  | num _ => 3
  | str _ => 4
  | arr _ => 5
  | obj _ => 6

theorem print_starts (v : Value Number) : ∃ c rest, print v = c :: rest ∧ startKind c = v.kind := by
  cases v with
  | null => exact ⟨_, _, rfl, by decide⟩
  | bool b => cases b <;> exact ⟨_, _, rfl, by decide⟩
  | num n =>
    obtain ⟨text, hne, hunits⟩ := n
    obtain ⟨c, rest, rfl⟩ := exists_cons_of_ne_nil hne
    exact ⟨c, rest, rfl, if_pos (hunits c (mem_cons_self ..))⟩
  | str s =>
    have hkind : startKind mark = 4 := by decide
    exact ⟨mark, _, rfl, hkind⟩
  | arr vs =>
    have hkind : startKind openBracket = 5 := by decide
    exact ⟨openBracket, _, print_arr vs, hkind⟩
  | obj fs =>
    have hkind : startKind openBrace = 6 := by decide
    exact ⟨openBrace, _, print_obj fs, hkind⟩

theorem print_opens {close : CodeUnit} (hclose : startKind close = 7) (v : Value Number) :
    Opens close (print v) := by
  obtain ⟨c, rest, heq, hkind⟩ := print_starts v
  refine ⟨c, rest, heq, fun hc => ?_⟩
  rw [hc, hclose] at hkind
  cases v with
  | bool b => cases b <;> cases hkind
  | _ => cases hkind

/-- The text of `a` ends with it, and is of no other value. -/
def Determines (a b : Value Number) : Prop := Cancels stops (print a)
    (print b) ∧ (print a = print b → a = b)

theorem determines_of_kind {a b : Value Number} (h : a.kind ≠ b.kind) : Determines a b := by
  obtain ⟨c, rest, ha, hkind⟩ := print_starts a
  obtain ⟨d, rest', hb, hkind'⟩ := print_starts b
  have hne : c ≠ d := fun hcd => h (by rw [← hkind, ← hkind', hcd])
  rw [Determines, ha, hb]
  exact ⟨fun s t _ _ heq => absurd (cons.inj heq).1 hne, fun heq => absurd (cons.inj heq).1 hne⟩

theorem determines_self (a : Value Number) : Determines a a :=
  ⟨fun _ _ _ _ heq => ⟨rfl, append_cancel_left heq⟩, fun _ => rfl⟩

theorem determines_of_cancel {a b : Value Number}
    (h : ∀ s t, print a ++ s = print b ++ t → a = b ∧ s = t) : Determines a b := by
  refine ⟨fun s t _ _ heq => ?_, fun heq => (h [] [] (by rw [heq])).1⟩
  obtain ⟨rfl, hst⟩ := h s t heq
  exact ⟨rfl, hst⟩

theorem member_opens (f : Text × Value Number) : Opens closeBrace (member (f.1, print f.2)) :=
  ⟨mark, _, rfl, by decide⟩

theorem member_determines {f g : Text × Value Number} (h : Determines f.2 g.2) :
    Cancels stops (member (f.1, print f.2)) (member (g.1, print g.2)) ∧
      (member (f.1, print f.2) = member (g.1, print g.2) → f = g) := by
  constructor
  · intro s t hs ht heq
    rw [member, member, append_assoc, append_assoc] at heq
    obtain ⟨hkey, hrest⟩ := quote_cancel heq
    obtain ⟨hvalue, hst⟩ := h.1 s t hs ht (cons.inj hrest).2
    exact ⟨by rw [member, member, hkey, hvalue], hst⟩
  · intro heq
    obtain ⟨hkey, hrest⟩ := quote_cancel heq
    exact Prod.ext hkey (h.2 (cons.inj hrest).2)

/-- **The text of a value ends with it, and is of no other value.** -/
theorem determines (a b : Value Number) : Determines a b := by
  induction a using Value.inductionOn generalizing b with
  | null =>
    cases b with
    | null => exact determines_self _
    | bool b => exact determines_of_kind (by cases b <;> decide)
    | _ => exact determines_of_kind (by simp [Value.kind])
  | bool a =>
    cases b with
    | bool b =>
      by_cases hab : a = b
      · rw [hab]
        exact determines_self _
      · exact determines_of_kind (by cases a <;> cases b <;> simp_all [Value.kind])
    | _ => exact determines_of_kind (by cases a <;> simp [Value.kind])
  | num m =>
    cases b with
    | num n =>
      have hstops : ∀ c ∈ stops, ¬ c ∈ numberUnits := by
        intro c hc
        simp only [stops, mem_cons, not_mem_nil, or_false] at hc
        rcases hc with rfl | rfl | rfl <;> decide
      refine ⟨cancels_run hstops m.2.2 n.2.2, fun heq => ?_⟩
      have hmn : m = n := Subtype.ext heq
      rw [hmn]
    | bool b => exact determines_of_kind (by cases b <;> simp [Value.kind])
    | _ => exact determines_of_kind (by simp [Value.kind])
  | str s =>
    cases b with
    | str t =>
      refine determines_of_cancel fun x y heq => ?_
      obtain ⟨rfl, hxy⟩ := quote_cancel heq
      exact ⟨rfl, hxy⟩
    | bool b => exact determines_of_kind (by cases b <;> simp [Value.kind])
    | _ => exact determines_of_kind (by simp [Value.kind])
  | arr vs ih =>
    cases b with
    | arr us =>
      refine determines_of_cancel fun s t heq => ?_
      rw [print_arr, print_arr, array, array, cons_append, cons_append, append_assoc,
        append_assoc] at heq
      obtain ⟨rfl, hst⟩ := joinWith_map_cancel print (by decide) (by decide) (by decide) ih
        (print_opens (by decide)) (cons.inj heq).2
      exact ⟨rfl, hst⟩
    | bool b => exact determines_of_kind (by cases b <;> simp [Value.kind])
    | _ => exact determines_of_kind (by simp [Value.kind])
  | obj fs ih =>
    cases b with
    | obj gs =>
      refine determines_of_cancel fun s t heq => ?_
      rw [print_obj, print_obj, object, object, onValues, onValues, map_map, map_map, cons_append,
        cons_append, append_assoc, append_assoc] at heq
      obtain ⟨rfl, hst⟩ := joinWith_map_cancel (member ∘ fun f : Text × Value Number =>
          (f.1, print f.2)) (by decide)
        (by decide) (by decide) (fun f hf g =>
          member_determines (ih f hf g.2)) member_opens (cons.inj heq).2
      exact ⟨rfl, hst⟩
    | bool b => exact determines_of_kind (by cases b <;> simp [Value.kind])
    | _ => exact determines_of_kind (by simp [Value.kind])

/-- **A text is of one value.** -/
theorem print_inj {a b : Value Number} : print a = print b ↔ a = b :=
  ⟨(determines a b).2, congrArg print⟩

/-! ## The order of keys -/

/-- The array index that a key spells. -/
def indexOf (k : Text) : Option Nat :=
  let n := k.foldl (fun n u => n * 10 + (u.val - 48)) 0
  if k ≠ [] ∧ (k.all fun u => 48 ≤ u.val ∧ u.val ≤ 57) = true ∧ (k.head? = some 48 → k.length = 1) ∧
      n < 4294967295 then
    some n
  else none

section Fields

variable {γ : Type u} {β : Type v}

/-- The fields as `Object.keys` lists them: array indices in ascending order, then the others as
they were created. -/
def ownKeys (fs : List (Text × γ)) : List (Text × γ) :=
  (fs.filter fun f => (indexOf f.1).isSome).insertionSort (fun f g =>
    (indexOf f.1).getD 0 ≤ (indexOf g.1).getD 0) ++
    fs.filter fun f => !(indexOf f.1).isSome

/-- `.sort()` of the keys, by code units. -/
def sortKeys (fs : List (Text × γ)) : List (Text × γ) := fs.insertionSort fun f g => f.1 ≤ g.1

theorem ownKeys_perm (fs : List (Text × γ)) : (ownKeys fs).Perm fs :=
  ((perm_insertionSort _ _).append_right _).trans (filter_append_perm _ fs)

theorem sortKeys_perm (fs : List (Text × γ)) : (sortKeys fs).Perm fs := perm_insertionSort _ _

theorem sortKeys_sorted (fs : List (Text × γ)) : (sortKeys fs).Pairwise fun f g => f.1 ≤ g.1 := by
  exact pairwise_insertionSort _ fs

theorem eq_of_perm {fs gs : List (Text × γ)} (hkeys : (fs.map Prod.fst).Nodup) (hperm : fs.Perm gs)
    (hfs : fs.Pairwise fun f g => f.1 ≤ g.1) (hgs : gs.Pairwise fun f g => f.1 ≤ g.1) :
    fs = gs := by
  refine hperm.eq_of_pairwise (fun f g hf hg hle hle' => ?_) hfs hgs
  exact inj_on_of_nodup_map hkeys hf (hperm.mem_iff.mpr hg) (le_antisymm hle hle')

theorem sortKeys_eq_of_perm {fs gs : List (Text × γ)} (hkeys : (fs.map Prod.fst).Nodup)
    (h : fs.Perm gs) : sortKeys fs = sortKeys gs := by
  have hperm : (sortKeys fs).Perm (sortKeys gs) :=
    (sortKeys_perm fs).trans (h.trans (sortKeys_perm gs).symm)
  have hnodup : ((sortKeys fs).map Prod.fst).Nodup :=
    ((sortKeys_perm fs).map Prod.fst).nodup_iff.mpr hkeys
  exact eq_of_perm hnodup hperm (sortKeys_sorted fs) (sortKeys_sorted gs)

theorem onValues_keys (g : γ → β) (fs : List (Text × γ)) :
    (onValues g fs).map Prod.fst = fs.map Prod.fst := by
  rw [onValues, map_map]
  rfl

theorem onValues_filter (p : Text → Bool) (g : γ → β) (fs : List (Text × γ)) :
    (onValues g fs).filter (fun f => p f.1) = onValues g (fs.filter fun f => p f.1) := by
  rw [onValues, filter_map]
  rfl

theorem ownKeys_onValues (g : γ → β) (fs : List (Text × γ)) :
    ownKeys (onValues g fs) = onValues g (ownKeys fs) := by
  rw [ownKeys, ownKeys, onValues_filter (fun k => (indexOf k).isSome),
    onValues_filter (fun k => !(indexOf k).isSome),
    onValues, onValues, onValues, map_append]
  have hsort := map_insertionSort (fun f g : Text × γ => (indexOf f.1).getD 0 ≤ (indexOf g.1).getD 0)
    (fun f g : Text × β => (indexOf f.1).getD 0 ≤ (indexOf g.1).getD 0) (fun f => (f.1, g f.2))
    (fs.filter fun f => (indexOf f.1).isSome) fun _ _ _ _ => Iff.rfl
  rw [hsort]

theorem sortKeys_onValues (g : γ → β) (fs : List (Text × γ)) :
    sortKeys (onValues g fs) = onValues g (sortKeys fs) :=
  (map_insertionSort (fun f g : Text × γ => f.1 ≤ g.1) (fun f g : Text × β => f.1 ≤ g.1) (fun f =>
    (f.1, g f.2)) fs
    fun _ _ _ _ => Iff.rfl).symm

end Fields

/-! ## Equal up to the order of keys -/

section Sorting

variable {ν : Type u}

def sorting : Reading ν (Value ν) where
  null := .null
  bool := .bool
  num := .num
  str := .str
  arr := .arr
  obj fs := .obj (ownKeys (sortKeys fs))

/-- The keys of every object in one order. -/
def sortAll : Value ν → Value ν := Value.fold sorting

theorem sortAll_arr (vs : List (Value ν)) : sortAll (.arr vs) = .arr (vs.map sortAll) :=
  Value.fold_arr ..

theorem sortAll_obj (fs : List (Text × Value ν)) :
    sortAll (.obj fs) = .obj (ownKeys (sortKeys (onValues sortAll fs))) := Value.fold_obj ..

theorem map_eq_map_iff_zip {α β γ : Type*} {f : α → γ} {g : β → γ} {xs : List α} {ys : List β} :
    xs.map f = ys.map g ↔ xs.length = ys.length ∧ ∀ p ∈ xs.zip ys, f p.1 = g p.2 := by
  induction xs generalizing ys with
  | nil => cases ys <;> simp
  | cons x xs ih =>
    cases ys with
    | nil => simp
    | cons y ys =>
      simp only [map_cons, cons.injEq, ih, length_cons, zip_cons_cons, forall_mem_cons,
        Nat.add_right_cancel_iff]
      exact and_left_comm

open Value (Same Distinct)

variable {a b : Value ν}

theorem fold_of_same {β : Type v} {r : Reading ν β}
    (hobj : ∀ fs gs, (fs.map Prod.fst).Nodup → fs.Perm gs → r.obj fs = r.obj gs) (h : Same a b)
    (ha : a.Distinct) : a.fold r = b.fold r := by
  induction h with
  | null | bool b | num n | str s => rfl
  | @arr vs us hlength _ ih =>
    cases ha with
    | arr ha =>
      rw [Value.fold_arr, Value.fold_arr,
        map_eq_map_iff_zip.mpr ⟨hlength, fun p hp => ih p hp (ha p.1 (of_mem_zip hp).1)⟩]
  | @obj fs hs gs hkeys _ hperm ih =>
    cases ha with
    | obj hnodup ha =>
      have hvalues : onValues (Value.fold r) fs = onValues (Value.fold r) hs := by
        have hlength : fs.length = hs.length := by simpa using congrArg length hkeys
        refine map_eq_map_iff_zip.mpr ⟨hlength, fun p hp => ?_⟩
        rw [ih p hp (ha p.1 (of_mem_zip hp).1), (map_eq_map_iff_zip.mp hkeys).2 p hp]
      rw [Value.fold_obj, Value.fold_obj, hvalues]
      refine hobj _ _ ?_ (hperm.map _)
      rw [onValues_keys, ← hkeys]
      exact hnodup

theorem sortAll_of_same (h : Same a b) (ha : a.Distinct) : sortAll a = sortAll b := by
  refine fold_of_same (fun fs gs hkeys hperm => ?_) h ha
  show Value.obj (ownKeys (sortKeys fs)) = .obj (ownKeys (sortKeys gs))
  rw [sortKeys_eq_of_perm hkeys hperm]

theorem same_of_sortAll (h : sortAll a = sortAll b) : Same a b := by
  induction a using Value.inductionOn generalizing b with
  | null =>
    cases b with
    | null => exact .null
    | _ => cases h
  | bool a =>
    cases b with
    | bool b =>
      cases h
      exact .bool a
    | _ => cases h
  | num m =>
    cases b with
    | num n =>
      cases h
      exact .num m
    | _ => cases h
  | str s =>
    cases b with
    | str t =>
      cases h
      exact .str s
    | _ => cases h
  | arr vs ih =>
    cases b with
    | arr us =>
      rw [sortAll_arr, sortAll_arr, Value.arr.injEq] at h
      obtain ⟨hlength, hzip⟩ := map_eq_map_iff_zip.mp h
      exact .arr hlength fun p hp => ih p.1 (of_mem_zip hp).1 (hzip p hp)
    | _ => cases h
  | obj fs ih =>
    cases b with
    | obj gs =>
      rw [sortAll_obj, sortAll_obj, Value.obj.injEq] at h
      have hperm : (onValues sortAll fs).Perm (onValues sortAll gs) := by
        have hself := fun fs : List (Text × Value ν) =>
          (ownKeys_perm (sortKeys (onValues sortAll fs))).trans (sortKeys_perm (onValues sortAll fs))
        exact (hself fs).symm.trans (h ▸ hself gs)
      -- the fields of the one, in the order of the other
      obtain ⟨hs, hvalues, hperm⟩ : ∃ hs, onValues sortAll fs = onValues sortAll hs ∧ hs.Perm gs := by
        have hcomp : (List.Perm · (onValues sortAll gs)) (onValues sortAll fs) := hperm
        obtain ⟨hs, hmap, hperm⟩ := (congrFun₂ (eq_map_comp_perm _) _ _).mpr hcomp
        exact ⟨hs, hmap, hperm⟩
      obtain ⟨hlength, hzip⟩ := map_eq_map_iff_zip.mp hvalues
      refine @Same.obj _ fs hs gs ?_ (fun p hp => ?_) hperm
      · rw [← onValues_keys sortAll fs, hvalues, onValues_keys]
      · exact ih p.1 (of_mem_zip hp).1 (Prod.ext_iff.mp (hzip p hp)).2
    | _ => cases h

/-- **Values with the keys in one order are equal where the values are, up to the order of
keys.** -/
theorem sortAll_eq_iff (ha : a.Distinct) : sortAll a = sortAll b ↔ Same a b :=
  ⟨same_of_sortAll, fun h => sortAll_of_same h ha⟩

end Sorting

end JsText
