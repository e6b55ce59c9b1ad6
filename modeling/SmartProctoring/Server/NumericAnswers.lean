import SmartProctoring.Server.Grading

/-!
# What a comma means in a numeric answer

`toNumber` drops a comma that three digits follow up to the end of a word, and reads the first comma
that is left as a decimal point.

* A numeral (`Numeral`) is read the same with a comma as with a point, except where exactly three digits and nothing else
  follow the separator (`textToNumber_comma`); `0,125` is read as 125 (`numeric_answers_iff`).
* Grouping commas are dropped (`textToNumber_grouped`), and white space counts for nothing (`textToNumber_spaces`).
-/

set_option autoImplicit false

namespace SmartProctoring.Grading

open JsChar
open List Option

/-! ## Numerals -/

def IsSign (s : List Char) : Prop := s = [] ∨ s = ['+'] ∨ s = ['-']

def Digits (ds : List Char) : Prop := ∀ c ∈ ds, isDigit c = true

/-- No exponent, or an `e` with an optional sign and digits. -/
def IsExponent (s : List Char) : Prop :=
  s = [] ∨ ∃ e sign ds, s = e :: sign ++ ds ∧ (e = 'e' ∨ e = 'E') ∧ IsSign sign ∧
  ds ≠ [] ∧ Digits ds

/-- A decimal numeral, but for the character that separates its fraction. -/
structure Numeral where
  sign : List Char
  whole : List Char
  fraction : List Char
  exponent : List Char
  sign_ok : IsSign sign
  whole_ok : Digits whole
  fraction_ok : Digits fraction
  exponent_ok : IsExponent exponent

def Numeral.spelled (n : Numeral) (separator : Char) : List Char :=
  n.sign ++ n.whole ++ separator :: n.fraction ++ n.exponent

/-- One to three digits that do not begin with a zero, and groups of three digits after commas. -/
def IsGroupedInteger (s : List Char) : Prop :=
  ∃ sign g gs, s = sign ++ g ++ gs.flatMap (',' :: ·) ∧ IsSign sign ∧ 1 ≤ g.length ∧
    g.length ≤ 3 ∧ Digits g ∧ g.head? ≠ some '0' ∧ gs ≠ [] ∧ ∀ h ∈ gs, h.length = 3 ∧ Digits h

/-! ## White space -/

theorem filter_dropWhile (s : List Char) :
    (s.dropWhile isSpace).filter (fun c => !isSpace c) = s.filter fun c => !isSpace c := by
  induction s with
  | nil => rfl
  | cons c s ih =>
    cases h : isSpace c with
    | true => rw [dropWhile_cons_of_pos h, ih, filter_cons_of_neg (by simp [h])]
    | false => rw [dropWhile_cons_of_neg (by simp [h])]

theorem filter_trim (s : List Char) : (trim s).filter (fun c => !isSpace c) = s.filter fun c =>
    !isSpace c := by
  rw [trim, rdropWhile, filter_reverse, filter_dropWhile, ← filter_reverse, reverse_reverse,
    filter_dropWhile]

theorem textToNumber_spaces {s t : List Char}
    (h : s.filter (fun c => !isSpace c) = t.filter fun c => !isSpace c) :
    textToNumber s = textToNumber t := by
  rw [textToNumber, textToNumber, filter_trim, filter_trim, h]

/-! ## Commas -/

variable {s : List Char}

theorem withoutGrouping_append (h : ',' ∉ s) (r : List Char) :
    withoutGrouping (s ++ r) = s ++ withoutGrouping r := by
  induction s with
  | nil => rfl
  | cons c s ih =>
    have hc : c ≠ ',' := fun hc => h (hc ▸ mem_cons_self ..)
    rw [cons_append, withoutGrouping, if_neg fun hcomma => hc hcomma.1,
      ih fun hmem => h (mem_cons_of_mem _ hmem),
      cons_append]

theorem withoutGrouping_eq_self (h : ',' ∉ s) : withoutGrouping s = s := by
  have happend := withoutGrouping_append h []
  rwa [withoutGrouping, append_nil] at happend

theorem commaToPoint_eq_self (h : ',' ∉ s) : commaToPoint s = s := by
  induction s with
  | nil => rfl
  | cons c s ih =>
    have hc : c ≠ ',' := fun hc => h (hc ▸ mem_cons_self ..)
    rw [commaToPoint, if_neg hc, ih fun hmem => h (mem_cons_of_mem _ hmem)]

theorem commaToPoint_append (h : ',' ∉ s) (r : List Char) :
    commaToPoint (s ++ ',' :: r) = s ++ '.' :: r := by
  induction s with
  | nil => rfl
  | cons c s ih =>
    have hc : c ≠ ',' := fun hc => h (hc ▸ mem_cons_self ..)
    rw [cons_append, commaToPoint, if_neg hc, ih fun hmem => h (mem_cons_of_mem _ hmem), cons_append]

theorem groupAhead_cons (a b c : Char) (s : List Char) :
    groupAhead (a :: b :: c :: s) = (isDigit a && isDigit b && isDigit c && !s.head?.any isWord) :=
    rfl

theorem isWord_digit {c : Char} (h : isDigit c = true) : isWord c = true := by
  simp [isWord, h]

theorem groupAhead_spec :
    groupAhead s = true ↔ ∃ a b c r, s = a :: b :: c :: r ∧ isDigit a = true ∧ isDigit b = true ∧
      isDigit c = true ∧ ∀ d ∈ r.head?, isWord d = false := by
  constructor
  · intro h
    match s, h with
    | a :: b :: c :: r, h =>
      rw [groupAhead_cons, Bool.and_eq_true, Bool.and_eq_true, Bool.and_eq_true, Bool.not_eq_true'] at h
      refine ⟨a, b, c, r, rfl, h.1.1.1, h.1.1.2, h.1.2, fun d hd => ?_⟩
      have := h.2
      rwa [mem_def.1 hd] at this
  · rintro ⟨a, b, c, r, rfl, ha, hb, hc, hr⟩
    rw [groupAhead_cons, ha, hb, hc]
    cases hhead : r.head? with
    | none => rfl
    | some d => simp [hr d hhead]

theorem groupAhead_iff {fraction exponent : List Char} (hf : Digits fraction)
    (he : IsExponent exponent) :
    groupAhead (fraction ++ exponent) = true ↔ fraction.length = 3 ∧ exponent = [] := by
  rw [groupAhead_spec]
  constructor
  · rintro ⟨a, b, c, r, heq, ha, hb, hc, hr⟩
    -- the `e` of an exponent is no digit, and stands where a word goes on
    have hexponent : ∀ e s, exponent = e :: s → isDigit e = false ∧ isWord e = true := by
      rintro e s rfl
      rcases he with he | ⟨e', sign, ds, he, he', -⟩
      · cases he
      · obtain ⟨rfl, -⟩ := cons.inj he
        rcases he' with rfl | rfl <;> decide
    match fraction, hf, heq with
    | [], _, heq =>
      rw [(hexponent _ _ heq).1] at ha
      cases ha
    | [_], _, heq =>
      obtain ⟨-, heq⟩ := cons.inj heq
      rw [(hexponent _ _ heq).1] at hb
      cases hb
    | [_, _], _, heq =>
      obtain ⟨-, heq⟩ := cons.inj (cons.inj heq).2
      rw [(hexponent _ _ heq).1] at hc
      cases hc
    | [_, _, _], _, heq =>
      obtain ⟨-, heq⟩ := cons.inj (cons.inj (cons.inj heq).2).2
      refine ⟨rfl, ?_⟩
      cases hexp : exponent with
      | nil => rfl
      | cons e s =>
        have hword := hr e (by rw [← show exponent = r from heq, hexp]; rfl)
        rw [(hexponent e s hexp).2] at hword
        cases hword
    | _ :: _ :: _ :: d :: ds, hf, heq =>
      obtain ⟨-, heq⟩ := cons.inj (cons.inj (cons.inj heq).2).2
      have hword := hr d (by rw [← heq]; rfl)
      rw [isWord_digit (hf d (by simp))] at hword
      cases hword
  · rintro ⟨hlen, rfl⟩
    obtain ⟨a, b, c, rfl⟩ := length_eq_three.1 hlen
    exact ⟨a, b, c, [], rfl, hf a (by simp), hf b (by simp), hf c (by simp), nofun⟩

/-! ## The two spellings of a numeral -/

theorem not_digit_special : isDigit ',' = false ∧ isDigit '.' = false ∧ isDigit '-' = false ∧
    isDigit '+' = false := by
  decide

variable {ds : List Char}

theorem Digits.not_mem (h : Digits ds) {c : Char} (hc : isDigit c = false) : c ∉ ds := by
  intro hmem
  rw [h c hmem] at hc
  cases hc

theorem IsSign.not_comma (h : IsSign s) : ',' ∉ s := by
  rcases h with rfl | rfl | rfl <;> decide

theorem IsExponent.not_comma (h : IsExponent s) : ',' ∉ s := by
  rcases h with rfl | ⟨e, sign, ds, rfl, he, hsign, -, hds⟩
  · exact not_mem_nil
  · simp only [mem_append, mem_cons, not_or]
    refine ⟨⟨?_, hsign.not_comma⟩, hds.not_mem not_digit_special.1⟩
    rcases he with rfl | rfl <;> decide

theorem isSpace_digit : ∀ {c : Char}, isDigit c = true → isSpace c = false := by
  have hall : ∀ c : Char, c.toNat < 128 → isDigit c = true → isSpace c = false :=
    ascii_forall (by decide)
  intro c hc
  refine hall c ?_ hc
  simp only [isDigit, Bool.and_eq_true, decide_eq_true_eq] at hc
  exact lt_of_le_of_lt (show c.toNat ≤ '9'.toNat from hc.2) (by decide)

/-- Text without white space. -/
def Solid (s : List Char) : Prop := ∀ c ∈ s, isSpace c = false

theorem Solid.filter (h : Solid s) : s.filter (fun c => !isSpace c) = s :=
  filter_eq_self.2 fun c hc => by simp [h c hc]

theorem Digits.solid (h : Digits ds) : Solid ds := fun c hc => isSpace_digit (h c hc)

theorem IsSign.solid (h : IsSign s) : Solid s := by
  rcases h with rfl | rfl | rfl
  · exact forall_mem_nil _
  · exact forall_mem_singleton.2 (by decide)
  · exact forall_mem_singleton.2 (by decide)

theorem IsExponent.solid (h : IsExponent s) : Solid s := by
  rcases h with rfl | ⟨e, sign, ds, rfl, he, hsign, -, hds⟩
  · exact fun c hc => absurd hc not_mem_nil
  · refine forall_mem_append.2 ⟨forall_mem_cons.2 ⟨?_, hsign.solid⟩, hds.solid⟩
    rcases he with rfl | rfl <;> decide

namespace Numeral

variable (n : Numeral)

theorem solid {separator : Char} (h : isSpace separator = false) : Solid (n.spelled separator) :=
  forall_mem_append.2 ⟨forall_mem_append.2 ⟨forall_mem_append.2 ⟨n.sign_ok.solid, n.whole_ok.solid⟩,
    forall_mem_cons.2 ⟨h, n.fraction_ok.solid⟩⟩, n.exponent_ok.solid⟩

theorem not_comma_before : ',' ∉ n.sign ++ n.whole := by
  rw [mem_append, not_or]
  exact ⟨n.sign_ok.not_comma, n.whole_ok.not_mem not_digit_special.1⟩

theorem not_comma_after : ',' ∉ n.fraction ++ n.exponent := by
  rw [mem_append, not_or]
  exact ⟨n.fraction_ok.not_mem not_digit_special.1, n.exponent_ok.not_comma⟩

theorem spelled_eq (separator : Char) :
    n.spelled separator = (n.sign ++ n.whole) ++ separator :: (n.fraction ++ n.exponent) := by
  simp [spelled]

theorem textToNumber_point : textToNumber (n.spelled '.') = decimalNumber (n.spelled '.') := by
  have hcomma : ',' ∉ n.spelled '.' := by
    rw [spelled_eq, mem_append, mem_cons, not_or, not_or]
    exact ⟨n.not_comma_before, by decide, n.not_comma_after⟩
  rw [textToNumber, filter_trim, (n.solid (by decide)).filter, withoutGrouping_eq_self hcomma,
    commaToPoint_eq_self hcomma]

theorem textToNumber_comma : textToNumber (n.spelled ',') =
    if n.fraction.length = 3 ∧ n.exponent = [] then decimalNumber (n.sign ++ n.whole ++ n.fraction)
    else textToNumber (n.spelled '.') := by
  rw [textToNumber, filter_trim, (n.solid (by decide)).filter, spelled_eq,
    withoutGrouping_append n.not_comma_before,
    withoutGrouping]
  have hahead := groupAhead_iff n.fraction_ok n.exponent_ok
  split
  next h =>
    have h3 := hahead.1 h.2
    have hclean : ',' ∉ n.sign ++ n.whole ++ n.fraction := by
      rw [mem_append, not_or]
      exact ⟨n.not_comma_before, n.fraction_ok.not_mem not_digit_special.1⟩
    rw [if_pos h3, h3.2, append_nil, withoutGrouping_eq_self (n.fraction_ok.not_mem not_digit_special.1),
      commaToPoint_eq_self hclean]
  next h =>
    rw [if_neg fun h3 => h ⟨rfl, hahead.2 h3⟩, withoutGrouping_eq_self n.not_comma_after,
      commaToPoint_append n.not_comma_before, textToNumber_point, spelled_eq]

end Numeral

/-! ## The number of a numeral -/

variable {sign : List Char}

theorem spanSign_append (h : IsSign sign) (hs : ∀ c ∈ s.head?, c ≠ '-' ∧ c ≠ '+') :
    spanSign (sign ++ s) = (decide (sign = ['-']), s) := by
  rcases h with rfl | rfl | rfl
  · rw [nil_append, spanSign.eq_def]
    split
    · exact absurd rfl (hs '-' rfl).1
    · exact absurd rfl (hs '+' rfl).2
    · rfl
  · rfl
  · rfl

theorem spanDigits_append {ds r : List Char} (h : Digits ds)
    (hr : ∀ c ∈ r.head?, isDigit c = false) : spanDigits (ds ++ r) = (ds, r) := by
  rw [spanDigits, takeWhile_append_of_pos h, dropWhile_append_of_pos h]
  cases r with
  | nil => simp
  | cons c r =>
    have hc := hr c rfl
    rw [takeWhile_cons_of_neg (by simp [hc]), dropWhile_cons_of_neg (by simp [hc]), append_nil]

theorem IsExponent.head (h : IsExponent s) : ∀ c ∈ s.head?, c = 'e' ∨ c = 'E' := by
  rcases h with rfl | ⟨e, sign, ds, rfl, he, -⟩
  · exact nofun
  · intro c hc
    obtain rfl : e = c := some.inj hc
    exact he

theorem exponentPart_isSome (h : IsExponent s) : ∃ e, exponentPart s = some e := by
  rcases h with rfl | ⟨e, sign, ds, rfl, he, hsign, hne, hds⟩
  · exact ⟨0, rfl⟩
  · have hhead : ∀ c ∈ ds.head?, c ≠ '-' ∧ c ≠ '+' := by
      intro c hc
      have hdigit := hds c (mem_of_head? hc)
      constructor <;> rintro rfl <;> exact absurd hdigit (by decide)
    have hspan : spanDigits ds = (ds, []) := by
      have := spanDigits_append hds (r := []) nofun
      rwa [append_nil] at this
    have hok : ¬ (ds = [] ∨ ([] : List Char) ≠ []) := fun h => h.elim hne fun h => h rfl
    rw [cons_append, exponentPart, if_pos he, spanSign_append hsign hhead]
    dsimp only
    rw [hspan]
    exact ⟨_, if_neg hok⟩

namespace Numeral

variable (n : Numeral)

/-- The number that a numeral denotes. -/
def value : Rat :=
  let q := scale10 (digitsValue (n.whole ++ n.fraction))
    ((exponentPart n.exponent).getD 0 - n.fraction.length)
  if n.sign = ['-'] then -q else q

theorem digit_head {s : List Char} (hs : ∀ c ∈ s.head?,
    isDigit c = true ∨ c = '.' ∨ c = 'e' ∨ c = 'E') : ∀ c ∈ s.head?, c ≠ '-' ∧ c ≠ '+' := by
  intro c hc
  rcases hs c hc with h | rfl | rfl | rfl
  · constructor <;> rintro rfl <;> exact absurd h (by decide)
  · decide
  · decide
  · decide

theorem decimalNumber_point (hne : n.whole ++ n.fraction ≠ []) :
    decimalNumber (n.spelled '.') = some n.value := by
  obtain ⟨e, he⟩ := exponentPart_isSome n.exponent_ok
  have hsign : spanSign (n.spelled '.') = (decide (n.sign = ['-']),
      n.whole ++ '.' :: (n.fraction ++ n.exponent)) := by
    rw [spelled, append_assoc, append_assoc]
    refine spanSign_append n.sign_ok (digit_head fun c hc => ?_)
    cases hw : n.whole with
    | nil =>
      rw [hw] at hc
      exact .inr (.inl (some.inj hc).symm)
    | cons d ds =>
      rw [hw] at hc
      exact .inl (n.whole_ok c (by rw [hw, some.inj hc]; exact mem_cons_self ..))
  have hwhole : spanDigits (n.whole ++ '.' :: (n.fraction ++ n.exponent)) = (n.whole,
      '.' :: (n.fraction ++ n.exponent)) :=
    spanDigits_append n.whole_ok fun c hc => by
      rw [← some.inj hc]
      exact not_digit_special.2.1
  have hfraction : spanDigits (n.fraction ++ n.exponent) = (n.fraction, n.exponent) :=
    spanDigits_append n.fraction_ok fun c hc => by
      rcases n.exponent_ok.head c hc with rfl | rfl <;> decide
  have hnot : ¬ (n.whole = [] ∧ n.fraction = []) := fun h => hne (by rw [h.1, h.2, append_nil])
  simp only [decimalNumber, hsign, hwhole, head?_cons, if_true, tail_cons, hfraction,
    if_neg hnot, he,
    map_some, value, getD_some, decide_eq_true_eq]

theorem decimalNumber_whole {sign ds : List Char} (hsign : IsSign sign) (hds : Digits ds) (hne : ds ≠ []) :
    decimalNumber (sign ++ ds) = some (if sign = ['-'] then -(digitsValue ds : Rat) else digitsValue ds) := by
  have hspan : spanSign (sign ++ ds) = (decide (sign = ['-']), ds) :=
    spanSign_append hsign (digit_head fun c hc => .inl (hds c (mem_of_head? hc)))
  have hdigits : spanDigits ds = (ds, []) := by
    have := spanDigits_append hds (r := []) nofun
    rwa [append_nil] at this
  simp only [decimalNumber, hspan, hdigits, head?_nil, reduceCtorEq, if_false,
    exponentPart, map_some,
    append_nil, length_nil, decide_eq_true_eq]
  simp [scale10, hne]

end Numeral

/-! ## Grouping -/

/-- Nothing, or a point and digits. -/
def IsFraction (s : List Char) : Prop := s = [] ∨ ∃ ds, s = '.' :: ds ∧ Digits ds

variable {tail : List Char} {gs : List (List Char)}

theorem withoutGrouping_groups (hgs : ∀ h ∈ gs, h.length = 3 ∧ Digits h)
    (htail : IsFraction tail) :
    withoutGrouping (gs.flatMap (',' :: ·) ++ tail) = gs.flatten ++ tail := by
  have hcomma : ',' ∉ tail := by
    rcases htail with rfl | ⟨ds, rfl, hds⟩
    · exact not_mem_nil
    · rw [mem_cons, not_or]
      exact ⟨by decide, hds.not_mem not_digit_special.1⟩
  induction gs with
  | nil => exact withoutGrouping_eq_self hcomma
  | cons g gs ih =>
    obtain ⟨⟨hlen, hg⟩, hgs⟩ := forall_mem_cons.1 hgs
    have hahead : groupAhead (g ++ (gs.flatMap (',' :: ·) ++ tail)) = true := by
      obtain ⟨a, b, c, rfl⟩ := length_eq_three.1 hlen
      refine groupAhead_spec.2 ⟨a, b, c, _, rfl, hg a (by simp), hg b (by simp), hg c (by simp), fun d hd => ?_⟩
      cases gs with
      | cons g' gs =>
        obtain rfl : ',' = d := some.inj hd
        decide
      | nil =>
        rcases htail with rfl | ⟨ds, rfl, -⟩
        · cases hd
        · obtain rfl : '.' = d := some.inj hd
          decide
    rw [flatMap_cons, cons_append, cons_append, append_assoc, withoutGrouping, if_pos ⟨rfl, hahead⟩,
      withoutGrouping_append (hg.not_mem not_digit_special.1), ih hgs, flatten_cons, append_assoc]

theorem textToNumber_grouped {sign g tail : List Char} (hsign : IsSign sign) (hg : Digits g)
    (hgs : ∀ h ∈ gs, h.length = 3 ∧ Digits h) (htail : IsFraction tail) :
    textToNumber (sign ++ g ++ gs.flatMap (',' :: ·) ++ tail) =
    textToNumber (sign ++ g ++ gs.flatten ++ tail) := by
  have htailSolid : Solid tail := by
    rcases htail with rfl | ⟨ds, rfl, hds⟩
    · exact fun c hc => absurd hc not_mem_nil
    · exact forall_mem_cons.2 ⟨by decide, hds.solid⟩
  have hfront : Solid (sign ++ g) := forall_mem_append.2 ⟨hsign.solid, hg.solid⟩
  have hflat : Solid gs.flatten := by
    intro c hc
    obtain ⟨h, hh, hch⟩ := mem_flatten.1 hc
    exact (hgs h hh).2.solid c hch
  have hgroups : Solid (gs.flatMap (',' :: ·)) := by
    intro c hc
    obtain ⟨h, hh, hch⟩ := mem_flatMap.1 hc
    rcases mem_cons.1 hch with rfl | hch
    · decide
    · exact (hgs h hh).2.solid c hch
  have hcomma : ',' ∉ sign ++ g := by
    rw [mem_append, not_or]
    exact ⟨hsign.not_comma, hg.not_mem not_digit_special.1⟩
  have hplain : ',' ∉ sign ++ g ++ gs.flatten ++ tail := by
    simp only [mem_append, not_or, mem_flatten, not_exists, not_and]
    refine ⟨⟨⟨hsign.not_comma, hg.not_mem not_digit_special.1⟩,
      fun h hh => (hgs h hh).2.not_mem not_digit_special.1⟩, ?_⟩
    rcases htail with rfl | ⟨ds, rfl, hds⟩
    · exact not_mem_nil
    · rw [mem_cons, not_or]
      exact ⟨by decide, hds.not_mem not_digit_special.1⟩
  have hleft : Solid (sign ++ g ++ gs.flatMap (',' :: ·) ++ tail) :=
    forall_mem_append.2 ⟨forall_mem_append.2 ⟨hfront, hgroups⟩, htailSolid⟩
  have hright : Solid (sign ++ g ++ gs.flatten ++ tail) :=
    forall_mem_append.2 ⟨forall_mem_append.2 ⟨hfront, hflat⟩, htailSolid⟩
  rw [textToNumber, textToNumber, filter_trim, filter_trim, hleft.filter, hright.filter,
    withoutGrouping_eq_self hplain,
    append_assoc, withoutGrouping_append hcomma, withoutGrouping_groups hgs htail, ← append_assoc]

/-! ## Grades -/

theorem numeric_congr (js : JsStrings) (correct : List String) {s t : String}
    (h : textToNumber s.toList = textToNumber t.toList) :
    isAnswerCorrect js .numeric correct (.text s) =
    isAnswerCorrect js .numeric correct (.text t) := by
  simp [isAnswerCorrect, toNumber, h]

theorem digitsValue_eq_zero (h : Digits ds) : digitsValue ds = 0 ↔ ∀ c ∈ ds, c = '0' := by
  induction ds using reverseRecOn with
  | nil => simp [digitsValue]
  | append_singleton ds c ih =>
    have hc := h c (mem_append_right _ (mem_cons_self ..))
    have hds := ih fun d hd => h d (mem_append_left _ hd)
    simp only [isDigit, Bool.and_eq_true, decide_eq_true_eq] at hc
    have hle : '0'.toNat ≤ c.toNat := hc.1
    have hzero : c.toNat - '0'.toNat = 0 ↔ c = '0' := by
      constructor
      · intro hsub
        have heq : c.toNat = '0'.toNat := by omega
        exact Char.toNat_inj.1 heq
      · rintro rfl
        rfl
    have hvalue : digitsValue (ds ++ [c]) = 10 * digitsValue ds + (c.toNat - '0'.toNat) := by
      rw [digitsValue, foldl_append, foldl_cons, foldl_nil, digitsValue]
    rw [forall_mem_append, ← hds, forall_mem_singleton, ← hzero]
    omega

theorem digit_no_separator : ∀ {c : Char}, isDigit c = true → (c == '±' || c == '|') = false := by
  have hall : ∀ c : Char, c.toNat < 128 → isDigit c = true → (c == '±' || c == '|') = false :=
    ascii_forall (by decide)
  intro c hc
  refine hall c ?_ hc
  simp only [isDigit, Bool.and_eq_true, decide_eq_true_eq] at hc
  exact lt_of_le_of_lt (show c.toNat ≤ '9'.toNat from hc.2) (by decide)

namespace Numeral

variable (n : Numeral)

theorem no_separator : ∀ c ∈ n.spelled '.', (c == '±' || c == '|') = false := by
  have hsign : ∀ {s : List Char}, IsSign s → ∀ c ∈ s, (c == '±' || c == '|') = false := by
    intro s hs
    rcases hs with rfl | rfl | rfl
    · exact forall_mem_nil _
    · exact forall_mem_singleton.2 (by decide)
    · exact forall_mem_singleton.2 (by decide)
  have hexponent : ∀ c ∈ n.exponent, (c == '±' || c == '|') = false := by
    rcases n.exponent_ok with he | ⟨e, sign, ds, he, hletter, hs, -, hds⟩ <;> rw [he]
    · exact fun c hc => absurd hc not_mem_nil
    · refine forall_mem_append.2 ⟨forall_mem_cons.2 ⟨?_, hsign hs⟩, fun c hc => digit_no_separator (hds c hc)⟩
      rcases hletter with rfl | rfl <;> decide
  exact forall_mem_append.2 ⟨forall_mem_append.2 ⟨forall_mem_append.2 ⟨hsign n.sign_ok,
    fun c hc => digit_no_separator (n.whole_ok c hc)⟩, forall_mem_cons.2 ⟨by decide,
      fun c hc => digit_no_separator (n.fraction_ok c hc)⟩⟩, hexponent⟩

/-- The key that accepts the numeral and nothing else. -/
def exactKey : List Char := n.spelled '.' ++ ['|', '0']

theorem exactKey_accepts (hne : n.whole ++ n.fraction ≠ []) (v : Rat) :
    numericKeyAccepts v n.exactKey = decide (|v - n.value| ≤ 1 / 10 ^ 12) := by
  have hsplit : n.exactKey.splitOnP (fun c => c == '±' || c == '|') = [n.spelled '.', ['0']] := by
    rw [exactKey, splitOnP_append_cons_of_forall_mem n.no_separator '|' (by decide)]
    rfl
  have htarget : textToNumber (n.spelled '.') = some n.value :=
    n.textToNumber_point.trans (n.decimalNumber_point hne)
  have hzero : textToNumber ['0'] = some 0 := by
    have hwhole : decimalNumber ([] ++ ['0']) = _ :=
      decimalNumber_whole (.inl rfl) (by simp [Digits, isDigit]) (by decide)
    exact hwhole.trans (by simp [digitsValue])
  simp only [numericKeyAccepts, hsplit, headD_cons, htarget, tolerance, getElem?_cons_succ,
    getElem?_cons_zero, hzero, getD_some, abs_zero, zero_add]

theorem comma_misread (h3 : n.fraction.length = 3) (he : n.exponent = [])
    (hdigit : ¬ ∀ c ∈ n.whole ++ n.fraction, c = '0') :
    ∃ v, textToNumber (n.spelled ',') = some v ∧ ¬ |v - n.value| ≤ 1 / 10 ^ 12 := by
  have hds : Digits (n.whole ++ n.fraction) := forall_mem_append.2 ⟨n.whole_ok, n.fraction_ok⟩
  have hne : n.whole ++ n.fraction ≠ [] := by
    intro hnil
    have := congrArg length hnil
    rw [length_append, length_nil] at this
    omega
  have hpos : 0 < digitsValue (n.whole ++ n.fraction) :=
    Nat.pos_of_ne_zero fun h => hdigit ((digitsValue_eq_zero hds).1 h)
  have hread := n.textToNumber_comma
  rw [if_pos ⟨h3, he⟩, append_assoc, decimalNumber_whole n.sign_ok hds hne] at hread
  refine ⟨_, hread, ?_⟩
  have hvalue : n.value = if n.sign = ['-'] then -((digitsValue (n.whole ++ n.fraction) : Rat) / 10 ^ 3)
      else (digitsValue (n.whole ++ n.fraction) : Rat) / 10 ^ 3 := by
    rw [value, he, h3]
    rfl
  have hone : (1 : Rat) ≤ (digitsValue (n.whole ++ n.fraction) : Rat) := by exact_mod_cast hpos
  have hfar : ∀ q : Rat, 1 ≤ q → 1 / 10 ^ 12 < |q - q / 10 ^ 3| := by
    intro q hq
    rw [abs_of_nonneg (by linarith)]
    linarith
  rw [hvalue, not_le]
  split
  · rw [neg_sub_neg, abs_sub_comm]
    exact hfar _ hone
  · exact hfar _ hone

theorem scale10_zero (e : Int) : scale10 0 e = 0 := by
  cases e <;> simp [scale10]

theorem zero_read (h3 : n.fraction.length = 3) (hzeros : ∀ c ∈ n.whole ++ n.fraction, c = '0') :
    decimalNumber (n.sign ++ n.whole ++ n.fraction) = textToNumber (n.spelled '.') := by
  have hds : Digits (n.whole ++ n.fraction) := forall_mem_append.2 ⟨n.whole_ok, n.fraction_ok⟩
  have hne : n.whole ++ n.fraction ≠ [] := by
    intro hnil
    have := congrArg length hnil
    rw [length_append, length_nil] at this
    omega
  rw [append_assoc, decimalNumber_whole n.sign_ok hds hne, textToNumber_point,
    n.decimalNumber_point hne, value,
    (digitsValue_eq_zero hds).2 hzeros]
  rw [Nat.cast_zero, scale10_zero]

end Numeral

theorem numeric_single (js : JsStrings) (key : List Char) {v : Rat} (h : textToNumber s = some v) :
    isAnswerCorrect js .numeric [.ofList key] (.text (.ofList s)) =
    some (numericKeyAccepts v key) := by
  simp [isAnswerCorrect, toNumber, h]

theorem filter_digits (h : Digits ds) : ds.filter (· != ',') = ds := by
  refine filter_eq_self.2 fun c hc => ?_
  rw [bne_iff_ne]
  rintro rfl
  exact absurd (h _ hc) (by decide)

theorem filter_grouped {sign g tail : List Char} (hsign : IsSign sign) (hg : Digits g)
    (hgs : ∀ h ∈ gs, Digits h) (htail : IsFraction tail) :
    (sign ++ g ++ gs.flatMap (',' :: ·) ++ tail).filter (· != ',') = sign ++ g ++
    gs.flatten ++ tail := by
  have hflat : (gs.flatMap (',' :: ·)).filter (· != ',') = gs.flatten := by
    induction gs with
    | nil => rfl
    | cons h gs ih =>
      obtain ⟨hh, hgs⟩ := forall_mem_cons.1 hgs
      rw [flatMap_cons, filter_append, filter_cons_of_neg (by decide), filter_digits hh, ih hgs,
        flatten_cons]
  have hsign' : sign.filter (· != ',') = sign := by
    rcases hsign with rfl | rfl | rfl <;> rfl
  have htail' : tail.filter (· != ',') = tail := by
    rcases htail with rfl | ⟨ds, rfl, hds⟩
    · rfl
    · rw [filter_cons_of_pos (by decide), filter_digits hds]
  rw [filter_append, filter_append, filter_append, hsign', filter_digits hg, hflat, htail']

/-- **Numeric answers.**  A numeral is graded the same with a comma as with a point unless exactly
three digits follow the separator and nothing after them, and its digits are not all zero; the
spellings with grouping commas, which are among these, are graded as without the commas; and white
space does not count. -/
theorem numeric_answers_iff (js : JsStrings) :
    (∀ n : Numeral,
      (¬ IsGroupedInteger (n.spelled ',') → ∀ correct,
        isAnswerCorrect js .numeric correct (.text (.ofList (n.spelled ','))) =
        isAnswerCorrect js .numeric correct (.text (.ofList (n.spelled '.')))) ↔
      (IsGroupedInteger (n.spelled ',') ∨ n.fraction.length ≠ 3 ∨ n.exponent ≠ [] ∨
        ∀ c ∈ n.whole ++ n.fraction, c = '0')) ∧
    (∀ s tail, IsGroupedInteger s → IsFraction tail → ∀ correct,
      isAnswerCorrect js .numeric correct (.text (.ofList (s ++ tail))) =
        isAnswerCorrect js .numeric correct (.text (.ofList ((s ++ tail).filter (· != ','))))) ∧
    ∀ s t : String, s.toList.filter (fun c => !isSpace c) = t.toList.filter (fun c => !isSpace c) → ∀ correct,
      isAnswerCorrect js .numeric correct (.text s) = isAnswerCorrect js .numeric correct (.text t) := by
  refine ⟨fun n => ⟨fun h => ?_, fun h hgrouped correct => ?_⟩, fun s tail hs htail correct => ?_,
    fun s t h correct => numeric_congr js correct (textToNumber_spaces h)⟩
  · by_contra hnot
    simp only [not_or, not_not] at hnot
    obtain ⟨hgrouped, h3, he, hdigit⟩ := hnot
    obtain ⟨v, hv, hfar⟩ := n.comma_misread h3 he hdigit
    have hne : n.whole ++ n.fraction ≠ [] := by
      intro hnil
      rw [hnil] at hdigit
      exact hdigit fun c hc => absurd hc not_mem_nil
    have hpoint := n.textToNumber_point.trans (n.decimalNumber_point hne)
    have hsame := h hgrouped [.ofList n.exactKey]
    rw [numeric_single js _ hv, numeric_single js _ hpoint, n.exactKey_accepts hne, n.exactKey_accepts hne,
      some.injEq, decide_eq_decide] at hsame
    exact hfar (hsame.2 (by simp))
  · refine numeric_congr js correct ?_
    rw [String.toList_ofList, String.toList_ofList, n.textToNumber_comma]
    split
    next h3 =>
      have hzeros := ((h.resolve_left hgrouped).resolve_left (not_not_intro h3.1)).resolve_left
          (not_not_intro h3.2)
      exact n.zero_read h3.1 hzeros
    next => rfl
  · refine numeric_congr js correct ?_
    obtain ⟨sign, g, gs, rfl, hsign, -, -, hg, -, -, hgs⟩ := hs
    rw [String.toList_ofList, String.toList_ofList, filter_grouped hsign hg (fun h hh => (hgs h hh).2) htail]
    exact textToNumber_grouped hsign hg hgs htail

/-- An eighth with a decimal comma is read as 125. -/
theorem eighth_misread :
    ¬ (¬ IsGroupedInteger "0,125".toList → ∀ (js : JsStrings) (correct : List String),
      isAnswerCorrect js .numeric correct (.text "0,125") =
        isAnswerCorrect js .numeric correct (.text "0.125")) := by
  intro h
  have hgrouped : ¬ IsGroupedInteger "0,125".toList := by
    rintro ⟨sign, g, gs, heq, hsign, hpos, -, -, hzero, -⟩
    obtain ⟨d, ds, rfl⟩ := exists_cons_of_ne_nil (length_pos_iff.1 hpos)
    have hhead := congrArg head? heq
    rcases hsign with rfl | rfl | rfl
    · exact hzero hhead.symm
    · exact absurd (show '0' = '+' from some.inj hhead) (by decide)
    · exact absurd (show '0' = '-' from some.inj hhead) (by decide)
  have hcomma : isAnswerCorrect ⟨id, id, fun _ => ""⟩ .numeric ["0.125|0"] (.text "0,125") = some false := by
    decide +kernel
  have hpoint : isAnswerCorrect ⟨id, id, fun _ => ""⟩ .numeric ["0.125|0"] (.text "0.125") = some true := by
    decide +kernel
  have hsame := h hgrouped ⟨id, id, fun _ => ""⟩ ["0.125|0"]
  rw [hcomma, hpoint] at hsame
  cases hsame

end SmartProctoring.Grading
