import Mathlib.Data.List.Basic
import Mathlib.Data.List.Sort

/-!
# Canonical JSON text

JSON values as JavaScript has them, and the text `canonicalJson` that prints an object with its keys
sorted.  A text of this kind ends where its value ends (`JsonText.cancel`), so the text of an array
determines the texts of its elements and the text of an object those of its fields.
-/

set_option autoImplicit false

namespace Json

open List Option

/-! ## Strings -/

/-- The quotation mark. -/
def mark : Char := Char.ofNat 34

def backslash : Char := Char.ofNat 92

def hexDigit (n : Nat) : Char := if n < 10 then Char.ofNat (48 + n) else Char.ofNat (87 + n)

def hexValue (c : Char) : Nat := if c.toNat < 58 then c.toNat - 48 else c.toNat - 87

theorem hexValue_hexDigit : ∀ n < 16, hexValue (hexDigit n) = n := by decide

/-- The characters with an escape of two characters. -/
def shortEscapes : List (Char × Char) :=
  [(mark, mark), (backslash, backslash), (Char.ofNat 8, 'b'), (Char.ofNat 12, 'f'), ('\n', 'n'),
    ('\r', 'r'),
    ('\t', 't')]

/-- `JSON.stringify` of one character: quotation marks, backslashes and control characters
escaped. -/
def escapeChar (c : Char) : List Char :=
  match shortEscapes.find? fun e => e.1 = c with
  | some e => [backslash, e.2]
  | none =>
    if c.toNat < 32 then [backslash, 'u', '0', '0', hexDigit (c.toNat / 16), hexDigit (c.toNat % 16)]
    else [c]

/-- `JSON.stringify` of a string. -/
def quote (s : String) : List Char := mark :: (s.toList.flatMap escapeChar ++ [mark])

/-- The first character an escaped text stands for, and the text after it. -/
def unescape : List Char → Option (Char × List Char)
  | [] => none
  | c :: rest =>
    if c = backslash then
      match rest with
      | [] => none
      | e :: rest =>
        match shortEscapes.find? fun p => p.2 = e with
        | some p => some (p.1, rest)
        | none =>
          match rest with
          | _ :: _ :: h :: l :: rest => some (Char.ofNat (hexValue h * 16 + hexValue l), rest)
          | _ => none
    else some (c, rest)

theorem unescape_plain {c : Char} (h : c ≠ backslash) (s : List Char) :
    unescape (c :: s) = some (c, s) := by
  simp [unescape, h]

theorem unescape_escapeChar (c : Char) (s : List Char) :
    unescape (escapeChar c ++ s) = some (c, s) := by
  rw [escapeChar]
  split
  · rename_i e he
    have hmem := mem_of_find?_eq_some he
    have hc : e.1 = c := by simpa using find?_some he
    subst hc
    simp only [shortEscapes, mem_cons, not_mem_nil, or_false] at hmem
    rcases hmem with rfl | rfl | rfl | rfl | rfl | rfl | rfl <;> rfl
  · rename_i hnone
    split
    · have hu : shortEscapes.find? (fun p => p.2 = 'u') = none := by decide
      have hval : c.toNat / 16 * 16 + c.toNat % 16 = c.toNat := Nat.div_add_mod' c.toNat 16
      simp only [cons_append, nil_append, unescape, if_true, hu]
      rw [hexValue_hexDigit _ (by omega), hexValue_hexDigit _ (by omega), hval, Char.ofNat_toNat]
    · have hne : c ≠ backslash := by
        rintro rfl
        simp [shortEscapes] at hnone
      exact unescape_plain hne s

variable {s t : List Char}

theorem escapeChar_cancel {c d : Char} (h : escapeChar c ++ s = escapeChar d ++ t) :
    c = d ∧ s = t := by
  have hdecoded := unescape_escapeChar c s
  rw [h, unescape_escapeChar, some.injEq, Prod.mk.injEq] at hdecoded
  exact ⟨hdecoded.1.symm, hdecoded.2.symm⟩

theorem escapeChar_ne_mark (c : Char) (s t : List Char) : escapeChar c ++ s ≠ mark :: t := by
  intro h
  have hdecoded := unescape_escapeChar c s
  have hmark : mark ≠ backslash := by decide
  rw [h, unescape_plain hmark, some.injEq, Prod.mk.injEq] at hdecoded
  rw [← hdecoded.1] at h
  exact hmark (cons.inj h).1.symm

theorem escaped_cancel {cs ds s t : List Char}
    (h : cs.flatMap escapeChar ++ mark :: s = ds.flatMap escapeChar ++ mark :: t) :
    cs = ds ∧ s = t := by
  induction cs generalizing ds with
  | nil =>
    rcases ds with _ | ⟨d, ds⟩
    · exact ⟨rfl, (cons.inj h).2⟩
    · rw [flatMap_cons, append_assoc] at h
      exact absurd h.symm (escapeChar_ne_mark d _ _)
  | cons c cs ih =>
    rcases ds with _ | ⟨d, ds⟩
    · rw [flatMap_cons, append_assoc] at h
      exact absurd h (escapeChar_ne_mark c _ _)
    · rw [flatMap_cons, flatMap_cons, append_assoc, append_assoc] at h
      obtain ⟨rfl, hrest⟩ := escapeChar_cancel h
      obtain ⟨rfl, rfl⟩ := ih hrest
      exact ⟨rfl, rfl⟩

theorem quote_cancel {a b : String} (h : quote a ++ s = quote b ++ t) : a = b ∧ s = t := by
  simp only [quote, cons_append, append_assoc, nil_append, cons.injEq, true_and] at h
  obtain ⟨hab, hst⟩ := escaped_cancel h
  exact ⟨String.toList_inj.mp hab, hst⟩

/-! ## Texts that end with their value -/

/-- The characters of a number. -/
def numberChars : List Char := ['0', '1', '2', '3', '4', '5', '6', '7', '8', '9', '+',
    '-', '.', 'e']

/-- A finite number, by the text JavaScript prints for it: equal numbers have equal texts. -/
abbrev Number := { text : List Char // text ≠ [] ∧ ∀ c ∈ text, c ∈ numberChars }

/-- What can follow a value in a JSON text: nothing, or one of `,`, `]` and `}`. -/
def Ends (s : List Char) : Prop := ∀ c ∈ s.head?, c = ',' ∨ c = ']' ∨ c = '\x7d'

/-- Texts joined with commas. -/
def commaJoin : List (List Char) → List Char
  | [] => []
  | [t] => t
  | t :: u :: ts => t ++ ',' :: commaJoin (u :: ts)

/-- A field of an object: its quoted key, a colon and the text of its value. -/
def member (f : String × List Char) : List Char := quote f.1 ++ ':' :: f.2

def array (ts : List (List Char)) : List Char := '[' :: (commaJoin ts ++ [']'])

def object (fs : List (String × List Char)) : List Char :=
  '\x7b' :: (commaJoin (fs.map member) ++ ['\x7d'])

/-- The texts of JSON values. -/
inductive JsonText : List Char → Prop
  | word {t : List Char} (h : t = "null".toList ∨ t = "true".toList ∨ t = "false".toList) : JsonText t
  | number (n : Number) : JsonText n.val
  | string (s : String) : JsonText (quote s)
  | array {ts : List (List Char)} (h : ∀ t ∈ ts, JsonText t) : JsonText (array ts)
  | object {fs : List (String × List Char)} (h : ∀ f ∈ fs, JsonText f.2) : JsonText (object fs)

/-- The characters a value can begin with. -/
def starters : List Char := ['n', 't', 'f', mark, '[', '\x7b'] ++ numberChars

theorem JsonText.starts (h : JsonText t) : ∃ c u, t = c :: u ∧ c ∈ starters := by
  cases h with
  | word h => rcases h with rfl | rfl | rfl <;> exact ⟨_, _, rfl, by decide⟩
  | number n =>
    obtain ⟨t, hne, hchars⟩ := n
    rcases t with _ | ⟨c, t⟩
    · exact absurd rfl hne
    · exact ⟨c, t, rfl, mem_append_right _ (hchars c (by simp))⟩
  | string s | array h | object h => exact ⟨_, _, rfl, by decide⟩

/-- Two texts of which neither goes on where the other ends. -/
def Cancels (a b : List Char) : Prop :=
  ∀ s t, Ends s → Ends t → a ++ s = b ++ t → a = b ∧ s = t

theorem Ends.comma (s : List Char) : Ends (',' :: s) := by
  intro c hc
  exact .inl (by simpa using hc.symm)

variable {e : Char}

theorem commaJoin_cancel (he : e = ']' ∨ e = '\x7d') {ts us : List (List Char)}
    (hts : ∀ t ∈ ts, ∀ u ∈ us, Cancels t u)
    (ht : ∀ t ∈ ts, ∀ s, t ++ s ≠ [] ∧ (t ++ s).head? ≠ some e)
    (hu : ∀ u ∈ us, ∀ s, u ++ s ≠ [] ∧ (u ++ s).head? ≠ some e) {s t : List Char}
    (h : commaJoin ts ++ e :: s = commaJoin us ++ e :: t) : ts = us ∧ s = t := by
  have hends : ∀ s, Ends (e :: s) := fun s c hc => by
    rw [head?_cons, mem_some_iff] at hc
    subst hc
    exact .inr he
  have hcomma : ',' ≠ e := by rcases he with rfl | rfl <;> decide
  induction ts generalizing us with
  | nil =>
    rcases us with _ | ⟨u, us⟩
    · exact ⟨rfl, (cons.inj h).2⟩
    · have hhead : (commaJoin (u :: us) ++ e :: t).head? = some e := by rw [← h]; rfl
      rcases us with _ | ⟨v, us⟩
      · exact absurd hhead (hu u (by simp) _).2
      · rw [commaJoin, append_assoc] at hhead
        exact absurd hhead (hu u (by simp) _).2
  | cons a ts ih =>
    rcases us with _ | ⟨u, us⟩
    · have hhead : (commaJoin (a :: ts) ++ e :: s).head? = some e := by rw [h]; rfl
      rcases ts with _ | ⟨v, ts⟩
      · exact absurd hhead (ht a (by simp) _).2
      · rw [commaJoin, append_assoc] at hhead
        exact absurd hhead (ht a (by simp) _).2
    · have hcancel := hts a (by simp) u (by simp)
      rcases ts with _ | ⟨b, ts⟩ <;> rcases us with _ | ⟨v, us⟩
      · obtain ⟨rfl, hst⟩ := hcancel _ _ (hends s) (hends t) h
        exact ⟨rfl, (cons.inj hst).2⟩
      · rw [commaJoin, commaJoin, append_assoc] at h
        have hst := (hcancel _ _ (hends s) (Ends.comma _) h).2
        exact absurd (cons.inj hst).1.symm hcomma
      · rw [commaJoin, commaJoin, append_assoc] at h
        have hst := (hcancel _ _ (Ends.comma _) (hends t) h).2
        exact absurd (cons.inj hst).1 hcomma
      · rw [commaJoin, commaJoin, append_assoc, append_assoc] at h
        obtain ⟨rfl, hst⟩ := hcancel _ _ (Ends.comma _) (Ends.comma _) h
        obtain ⟨hrest, hend⟩ := ih (fun t ht' u hu' => hts t (by simp [ht']) u (by simp [hu']))
          (fun t ht' => ht t (by simp [ht'])) (fun u hu' => hu u (by simp [hu'])) (cons.inj hst).2
        exact ⟨by rw [hrest], hend⟩

/-! ## A text determines its parts -/

/-- What a first character says about the value. -/
def startClass (c : Char) : Nat :=
  if c = mark then 1
  else if c = '[' then 2
  else if c = '\x7b' then 3
  else if c ∈ numberChars then 4
  else 5

theorem Number.head (n : Number) (s : List Char) : (n.val ++ s).head?.map startClass = some 4 := by
  obtain ⟨t, hne, hchars⟩ := n
  have hclass : ∀ c ∈ numberChars, startClass c = 4 := by
    simpa using show numberChars.all (fun c => startClass c = 4) = true by decide
  rcases t with _ | ⟨c, t⟩
  · exact absurd rfl hne
  · simp [hclass c (hchars c (by simp))]

theorem word_head {w : List Char} (h : w = "null".toList ∨ w = "true".toList ∨ w = "false".toList)
    (s : List Char) : (w ++ s).head?.map startClass = some 5 := by
  have hclass : startClass 'n' = 5 ∧ startClass 't' = 5 ∧ startClass 'f' = 5 := by decide
  rcases h with rfl | rfl | rfl
  · simp [hclass.1]
  · simp [hclass.2.1]
  · simp [hclass.2.2]

theorem quote_head (a : String) (s : List Char) : (quote a ++ s).head?.map startClass = some 1 := by
  simp [quote, startClass]

theorem array_head (ts : List (List Char)) (s : List Char) :
    (array ts ++ s).head?.map startClass = some 2 := by
  have hclass : startClass '[' = 2 := by decide
  simp [array, hclass]

theorem object_head (fs : List (String × List Char)) (s : List Char) :
    (object fs ++ s).head?.map startClass = some 3 := by
  have hclass : startClass '\x7b' = 3 := by decide
  simp [object, hclass]

variable {a b : List Char}

/-- Texts that begin differently. -/
theorem cancels_of_head {m n : Nat} (ha : ∀ s, (a ++ s).head?.map startClass = some m)
    (hb : ∀ s, (b ++ s).head?.map startClass = some n) (hmn : m ≠ n) : Cancels a b := by
  intro s t _ _ h
  have hclass := ha s
  rw [h, hb t, some.injEq] at hclass
  exact absurd hclass.symm hmn

theorem number_cancel (ha : ∀ c ∈ a, c ∈ numberChars) (hb : ∀ c ∈ b, c ∈ numberChars) :
    Cancels a b := by
  intro s t hs ht h
  have hstop : ∀ r, Ends r → ∀ c ∈ r.head?, c ∉ numberChars := by
    intro r hr c hc
    rcases hr c hc with rfl | rfl | rfl <;> decide
  induction a generalizing b with
  | nil =>
    rcases b with _ | ⟨c, b⟩
    · exact ⟨rfl, h⟩
    · rw [nil_append] at h
      exact absurd (hb c (by simp)) (hstop s hs c (by simp [h]))
  | cons c a ih =>
    rcases b with _ | ⟨d, b⟩
    · rw [nil_append] at h
      exact absurd (ha c (by simp)) (hstop t ht c (by simp [← h]))
    · obtain ⟨rfl, hrest⟩ := cons.inj h
      obtain ⟨rfl, hst⟩ := ih (fun c hc => ha c (by simp [hc])) (fun c hc => hb c (by simp [hc])) hrest
      exact ⟨rfl, hst⟩

theorem word_cancel (ha : a = "null".toList ∨ a = "true".toList ∨ a = "false".toList)
    (hb : b = "null".toList ∨ b = "true".toList ∨ b = "false".toList) : Cancels a b := by
  intro s t _ _ h
  rcases ha with rfl | rfl | rfl <;> rcases hb with rfl | rfl | rfl <;> simp_all

theorem JsonText.ne_close (h : JsonText t) (he : e = ']' ∨ e = '\x7d')
    (s : List Char) : t ++ s ≠ [] ∧ (t ++ s).head? ≠ some e := by
  obtain ⟨c, u, rfl, hc⟩ := h.starts
  refine ⟨by simp, fun hhead => ?_⟩
  rw [cons_append, head?_cons, some.injEq] at hhead
  subst hhead
  revert hc
  rcases he with rfl | rfl <;> decide

theorem member_ne_close (f : String × List Char) (he : e = ']' ∨ e = '\x7d') (s : List Char) :
    member f ++ s ≠ [] ∧ (member f ++ s).head? ≠ some e := by
  refine ⟨by simp [member, quote], fun hhead => ?_⟩
  rw [member, quote, cons_append, cons_append, head?_cons, some.injEq] at hhead
  subst hhead
  revert he
  decide

theorem member_cancel {f g : String × List Char} (h : Cancels f.2 g.2) : Cancels (member f)
    (member g) := by
  intro s t hs ht he
  rw [member, member, append_assoc, append_assoc] at he
  obtain ⟨hk, hrest⟩ := quote_cancel he
  obtain ⟨hv, hst⟩ := h s t hs ht (cons.inj hrest).2
  exact ⟨by rw [member, member, hk, hv], hst⟩

/-- **A text ends where its value ends.** -/
theorem JsonText.cancel (ha : JsonText a) (hb : JsonText b) : Cancels a b := by
  induction ha generalizing b with
  | word h =>
    cases hb with
    | word h' => exact word_cancel h h'
    | number n => exact cancels_of_head (word_head h) n.head (by decide)
    | string u => exact cancels_of_head (word_head h) (quote_head u) (by decide)
    | array _ => exact cancels_of_head (word_head h) (array_head _) (by decide)
    | object _ => exact cancels_of_head (word_head h) (object_head _) (by decide)
  | number m =>
    cases hb with
    | word h => exact cancels_of_head m.head (word_head h) (by decide)
    | number n => exact number_cancel m.2.2 n.2.2
    | string u => exact cancels_of_head m.head (quote_head u) (by decide)
    | array _ => exact cancels_of_head m.head (array_head _) (by decide)
    | object _ => exact cancels_of_head m.head (object_head _) (by decide)
  | string u =>
    cases hb with
    | word h => exact cancels_of_head (quote_head u) (word_head h) (by decide)
    | number n => exact cancels_of_head (quote_head u) n.head (by decide)
    | string v =>
      intro s t _ _ he
      obtain ⟨rfl, hst⟩ := quote_cancel he
      exact ⟨rfl, hst⟩
    | array _ => exact cancels_of_head (quote_head u) (array_head _) (by decide)
    | object _ => exact cancels_of_head (quote_head u) (object_head _) (by decide)
  | @array ts hts ih =>
    cases hb with
    | word h => exact cancels_of_head (array_head _) (word_head h) (by decide)
    | number n => exact cancels_of_head (array_head _) n.head (by decide)
    | string v => exact cancels_of_head (array_head _) (quote_head v) (by decide)
    | @array us hus =>
      intro s t _ _ he
      rw [Json.array, Json.array, cons_append, cons_append, append_assoc, append_assoc] at he
      obtain ⟨rfl, hst⟩ := commaJoin_cancel (.inl rfl) (fun t ht u hu => ih t ht (hus u hu))
        (fun t ht => (hts t ht).ne_close (.inl rfl)) (fun u hu => (hus u hu).ne_close (.inl rfl))
        (cons.inj he).2
      exact ⟨rfl, hst⟩
    | object _ => exact cancels_of_head (array_head _) (object_head _) (by decide)
  | @object fs hfs ih =>
    cases hb with
    | word h => exact cancels_of_head (object_head _) (word_head h) (by decide)
    | number n => exact cancels_of_head (object_head _) n.head (by decide)
    | string v => exact cancels_of_head (object_head _) (quote_head v) (by decide)
    | array _ => exact cancels_of_head (object_head _) (array_head _) (by decide)
    | @object gs hgs =>
      intro s t _ _ he
      rw [Json.object, Json.object, cons_append, cons_append, append_assoc, append_assoc] at he
      obtain ⟨hfg, hst⟩ := commaJoin_cancel (.inr rfl)
        (forall_mem_map.mpr fun f hf => forall_mem_map.mpr fun g hg =>
          member_cancel (ih f hf (hgs g hg)))
        (forall_mem_map.mpr fun f _ => member_ne_close f (.inr rfl))
        (forall_mem_map.mpr fun g _ => member_ne_close g (.inr rfl)) (cons.inj he).2
      exact ⟨by rw [Json.object, Json.object, hfg], hst⟩

theorem array_inj {ts us : List (List Char)} (hts : ∀ t ∈ ts, JsonText t)
    (hus : ∀ u ∈ us, JsonText u) (h : array ts = array us) : ts = us := by
  rw [array, array, cons.injEq] at h
  exact (commaJoin_cancel (.inl rfl) (fun t ht u hu => (hts t ht).cancel (hus u hu))
    (fun t ht => (hts t ht).ne_close (.inl rfl)) (fun u hu => (hus u hu).ne_close (.inl rfl)) h.2).1

theorem object_inj {fs gs : List (String × List Char)} (hfs : ∀ f ∈ fs, JsonText f.2)
    (hgs : ∀ g ∈ gs, JsonText g.2) (h : object fs = object gs) : fs = gs := by
  rw [object, object, cons.injEq] at h
  have hmembers := (commaJoin_cancel (.inr rfl)
    (forall_mem_map.mpr fun f hf => forall_mem_map.mpr fun g hg =>
      member_cancel ((hfs f hf).cancel (hgs g hg)))
    (forall_mem_map.mpr fun f _ => member_ne_close f (.inr rfl))
    (forall_mem_map.mpr fun g _ => member_ne_close g (.inr rfl)) h.2).1
  refine map_injective_iff.mpr (fun f g hfg => ?_) hmembers
  obtain ⟨hk, hv⟩ := quote_cancel hfg
  exact Prod.ext hk (cons.inj hv).2

/-! ## Values -/

/-- A JavaScript value that `JSON.stringify` prints (`undefined`: a field that is not there). -/
inductive Value
  | undefined | null
  | bool (b : Bool)
  | num (n : Number)
  | str (s : String)
  | arr (items : List Value)
  | obj (fields : List (String × Value))

/-- The UTF-16 code units of a string, which is what JavaScript compares. -/
def utf16 (s : String) : List Nat :=
  s.toList.flatMap fun c =>
    if c.toNat < 0x10000 then [c.toNat]
    else [0xD800 + (c.toNat - 0x10000) / 0x400, 0xDC00 + (c.toNat - 0x10000) % 0x400]

/-- `.sort(([a], [b]) => (a < b ? -1 : a > b ? 1 : 0))`. -/
def sortByKey {α : Type} (fs : List (String × α)) : List (String × α) :=
  fs.insertionSort fun f g => ¬ utf16 g.1 < utf16 f.1

mutual

/-- JSON with object keys sorted at every level. -/
def canonicalJson : Value → List Char
  | .undefined => "null".toList
  | .null => "null".toList
  | .bool true => "true".toList
  | .bool false => "false".toList
  | .num n => n.val
  | .str s => quote s
  | .arr items => array (canonicalItems items)
  | .obj fields => object (sortByKey (canonicalFields fields))

def canonicalItems : List Value → List (List Char)
  | [] => []
  | v :: vs => canonicalJson v :: canonicalItems vs

/-- The fields that are there, with their texts. -/
def canonicalFields : List (String × Value) → List (String × List Char)
  | [] => []
  | (_, .undefined) :: fs => canonicalFields fs
  | (k, v) :: fs => (k, canonicalJson v) :: canonicalFields fs

end

@[simp] theorem canonicalItems_eq (vs : List Value) : canonicalItems vs = vs.map canonicalJson := by
  induction vs with
  | nil => rfl
  | cons v vs ih => rw [canonicalItems, ih, map_cons]

theorem canonicalJson_arr (vs : List Value) :
    canonicalJson (.arr vs) = array (vs.map canonicalJson) := by
  rw [canonicalJson, canonicalItems_eq]

theorem canonicalJson_obj (fs : List (String × Value)) :
    canonicalJson (.obj fs) = object (sortByKey (canonicalFields fs)) := by
  rw [canonicalJson]

theorem mem_sortByKey {α : Type} {fs : List (String × α)} {f : String × α} :
    f ∈ sortByKey fs ↔ f ∈ fs :=
  mem_insertionSort _

mutual

theorem jsonText_canonicalJson (v : Value) : JsonText (canonicalJson v) := by
  match v with
  | .undefined => exact .word (.inl rfl)
  | .null => exact .word (.inl rfl)
  | .bool true => exact .word (.inr (.inl rfl))
  | .bool false => exact .word (.inr (.inr rfl))
  | .num n => exact .number n
  | .str s => exact .string s
  | .arr items => exact .array (jsonText_canonicalItems items)
  | .obj fields => exact .object fun f hf => jsonText_canonicalFields fields f (mem_sortByKey.mp hf)

theorem jsonText_canonicalItems (vs : List Value) : ∀ t ∈ canonicalItems vs, JsonText t := by
  match vs with
  | [] => simp [canonicalItems]
  | v :: vs =>
    rw [canonicalItems, forall_mem_cons]
    exact ⟨jsonText_canonicalJson v, jsonText_canonicalItems vs⟩

theorem jsonText_canonicalFields (fs : List (String × Value)) :
    ∀ f ∈ canonicalFields fs, JsonText f.2 := by
  match fs with
  | [] => simp [canonicalFields]
  | (k, v) :: fs =>
    cases v
    case undefined => exact jsonText_canonicalFields fs
    all_goals
      rw [canonicalFields, forall_mem_cons]
      · exact ⟨jsonText_canonicalJson _, jsonText_canonicalFields fs⟩
      · simp

end

@[simp] theorem canonicalJson_str_inj {a b : String} :
    canonicalJson (.str a) = canonicalJson (.str b) ↔ a = b := by
  refine ⟨fun h => ?_, fun h => by rw [h]⟩
  rw [canonicalJson, canonicalJson] at h
  exact (quote_cancel (s := []) (t := []) (by rw [h])).1

@[simp] theorem canonicalJson_num_inj {a b : Number} :
    canonicalJson (.num a) = canonicalJson (.num b) ↔ a = b := by
  rw [canonicalJson, canonicalJson, Subtype.ext_iff]

theorem canonicalJson_arr_inj {vs us : List Value} :
    canonicalJson (.arr vs) = canonicalJson (.arr us) ↔
    vs.map canonicalJson = us.map canonicalJson := by
  rw [canonicalJson_arr, canonicalJson_arr]
  refine ⟨fun h => array_inj ?_ ?_ h, fun h => by rw [h]⟩
  · exact forall_mem_map.mpr fun v _ => jsonText_canonicalJson v
  · exact forall_mem_map.mpr fun u _ => jsonText_canonicalJson u

end Json
