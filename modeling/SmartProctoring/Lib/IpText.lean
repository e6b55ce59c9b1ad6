import Mathlib.Algebra.Group.Nat.Defs
import Mathlib.Data.List.Basic
import Mathlib.Data.List.Induction
import Mathlib.Tactic.Common

/-!
# Texts of internet addresses

What a text says about an address, as RFC 4291 has it.  An IPv4 address is four decimal numbers
(`dottedText`); an IPv6 address is groups of up to four hexadecimal digits in either case, of which
one run of zero groups may be left out (`::`) and the last two may be written as an IPv4 address
(`IPv6Text`).  A zone may follow an IPv6 address (`IsZone`).

Networks are given by their first bits (`InNetwork`).
-/

set_option autoImplicit false

namespace IpText

open List

/-! ## Texts -/

def isHex (c : Char) : Bool :=
  (decide ('0' ≤ c) && decide (c ≤ '9')) || (decide ('a' ≤ c) && decide (c ≤ 'f')) ||
  (decide ('A' ≤ c) && decide (c ≤ 'F'))

/-- The value of a hexadecimal digit. -/
def hexDigit (c : Char) : Nat :=
  if c ≤ '9' then c.toNat - '0'.toNat else if c ≤ 'F' then c.toNat - 'A'.toNat + 10
    else c.toNat - 'a'.toNat + 10

def hexNumber (t : List Char) : Nat := t.foldl (fun n c => 16 * n + hexDigit c) 0

/-- One group of an IPv6 address. -/
def IsGroup (t : List Char) (v : Nat) : Prop :=
  1 ≤ t.length ∧ t.length ≤ 4 ∧ (∀ c ∈ t, isHex c = true) ∧ hexNumber t = v

/-- Parts with a separator between them. -/
def join (sep : Char) : List (List Char) → List Char
  | [] => []
  | [t] => t
  | t :: u :: ts => t ++ sep :: join sep (u :: ts)

/-- An IPv4 address in decimal. -/
def dottedText (a b c d : Nat) : List Char :=
  join '.' [Nat.toDigits 10 a, Nat.toDigits 10 b, Nat.toDigits 10 c, Nat.toDigits 10 d]

/-- The text of an IPv4 address. -/
def IPv4Text (s : List Char) (bytes : List Nat) : Prop :=
  ∃ a b c d, a < 256 ∧ b < 256 ∧ c < 256 ∧ d < 256 ∧ s = dottedText a b c d ∧ bytes = [a, b, c, d]

/-- Groups, and the bytes that they stand for. -/
inductive Groups : List (List Char) → List Nat → Prop
  | nil : Groups [] []
  | cons {t : List Char} {v : Nat} {ts : List (List Char)} {bs : List Nat} :
    IsGroup t v → Groups ts bs → Groups (t :: ts) (v / 256 :: v % 256 :: bs)

/-- Groups, the last two of which may be written as an IPv4 address. -/
inductive GroupsOrDotted : List (List Char) → List Nat → Prop
  | groups {ts : List (List Char)} {bs : List Nat} : Groups ts bs → GroupsOrDotted ts bs
  | dotted {ts : List (List Char)} {bs : List Nat} {t : List Char} {tail : List Nat} :
    Groups ts bs → IPv4Text t tail → GroupsOrDotted (ts ++ [t]) (bs ++ tail)

/-- The text of an IPv6 address: all of its groups, or `::` in place of one or more groups of
zeros. -/
inductive IPv6Text : List Char → List Nat → Prop
  | full {ts : List (List Char)} {bs : List Nat} :
      GroupsOrDotted ts bs → bs.length = 16 → IPv6Text (join ':' ts) bs
  | compressed {ls rs : List (List Char)} {lb rb : List Nat} : Groups ls lb → GroupsOrDotted rs rb →
    lb.length + rb.length ≤ 14 →
    IPv6Text (join ':' ls ++ ':' :: ':' :: join ':' rs) (lb ++
      List.replicate (16 - lb.length - rb.length) 0 ++ rb)

/-- A character of a zone. -/
def isZoneChar (c : Char) : Bool := c.isAlphanum || c == '-' || c == '.' || c == ':'

/-- No zone, or one after a percent sign. -/
def IsZone (z : List Char) : Prop :=
  z = [] ∨ ∃ c cs, z = '%' :: c :: cs ∧ ∀ x ∈ c :: cs, isZoneChar x = true

/-! ## Networks -/

/-- The first `bits` bits agree. -/
def InNetwork : Nat → List Nat → List Nat → Prop
  | bits, n :: net, a :: addr =>
    if bits < 8 then n / 2 ^ (8 - bits) = a / 2 ^ (8 - bits) else n = a ∧ InNetwork (bits - 8) net addr
  | _, _, _ => True

/-- A range of addresses. -/
structure Network where
  net : List Nat
  bits : Nat

def Network.Contains (n : Network) (addr : List Nat) : Prop := InNetwork n.bits n.net addr

/-! ## Facts about texts -/

@[simp] theorem join_singleton (sep : Char) (t : List Char) : join sep [t] = t := rfl

variable {ts : List (List Char)}

theorem join_cons (sep : Char) (t : List Char) (h : ts ≠ []) :
    join sep (t :: ts) = t ++ sep :: join sep ts := by
  cases ts with
  | nil => exact absurd rfl h
  | cons u ts => rfl

theorem join_append (sep : Char) {ts us : List (List Char)} (hts : ts ≠ []) (hus : us ≠ []) :
    join sep (ts ++ us) = join sep ts ++ sep :: join sep us := by
  induction ts with
  | nil => exact absurd rfl hts
  | cons t ts ih =>
    rcases eq_or_ne ts [] with rfl | hne
    · exact join_cons sep t hus
    · rw [cons_append, join_cons sep t (append_ne_nil_of_left_ne_nil hne _), ih hne,
        join_cons sep t hne, append_assoc, cons_append]

variable {sep : Char}

theorem splitOn_join (h : ts ≠ []) (hts : ∀ t ∈ ts, sep ∉ t) :
    (join sep ts).splitOn sep = ts := by
  induction ts with
  | nil => exact absurd rfl h
  | cons t ts ih =>
    have ht := hts t (mem_cons_self ..)
    rcases eq_or_ne ts [] with rfl | hne
    · exact splitOn_eq_singleton ht
    · rw [join_cons sep t hne, splitOn_append_cons_self_of_not_mem ht,
        ih hne fun u hu => hts u (mem_cons_of_mem _ hu)]

variable {s : List Char}

theorem exists_mem_splitOn {sep x : Char} (hx : x ∈ s) (hsep : x ≠ sep) :
    ∃ p ∈ s.splitOn sep, x ∈ p := by
  induction s with
  | nil => exact absurd hx not_mem_nil
  | cons c s ih =>
    rw [splitOn_cons_eq_if_modifyHead]
    obtain ⟨t, ts, hts⟩ := exists_cons_of_ne_nil (splitOn_ne_nil sep s)
    rcases mem_cons.1 hx with rfl | hmem
    · rw [if_neg (by simpa using hsep), hts]
      exact ⟨x :: t, mem_cons_self .., mem_cons_self ..⟩
    · obtain ⟨p, hp, hxp⟩ := ih hmem
      split
      · exact ⟨p, mem_cons_of_mem _ hp, hxp⟩
      · rw [hts] at hp ⊢
        rcases mem_cons.1 hp with rfl | hp
        · exact ⟨c :: p, mem_cons_self .., mem_cons_of_mem _ hxp⟩
        · exact ⟨p, mem_cons_of_mem _ hp, hxp⟩

variable {c : Char}

theorem mem_join (h : c ∈ join sep ts) : c = sep ∨ ∃ t ∈ ts, c ∈ t := by
  induction ts with
  | nil => exact absurd h not_mem_nil
  | cons t ts ih =>
    rcases eq_or_ne ts [] with rfl | hne
    · exact .inr ⟨t, mem_cons_self .., h⟩
    · rw [join_cons sep t hne, mem_append, mem_cons] at h
      rcases h with h | rfl | h
      · exact .inr ⟨t, mem_cons_self .., h⟩
      · exact .inl rfl
      · exact (ih h).imp_right fun ⟨u, hu, hc⟩ => ⟨u, mem_cons_of_mem _ hu, hc⟩

theorem isHex_ascii (h : isHex c = true) : c.toNat < 128 := by
  simp only [isHex, Bool.or_eq_true, Bool.and_eq_true, decide_eq_true_eq] at h
  rcases h with (h | h) | h
  · exact Nat.lt_of_le_of_lt (show c.toNat ≤ '9'.toNat from h.2) (by decide)
  · exact Nat.lt_of_le_of_lt (show c.toNat ≤ 'f'.toNat from h.2) (by decide)
  · exact Nat.lt_of_le_of_lt (show c.toNat ≤ 'F'.toNat from h.2) (by decide)

theorem hexDigit_lt (h : isHex c = true) : hexDigit c < 16 := by
  have hall : ∀ n < 128, isHex (Char.ofNat n) = true → hexDigit (Char.ofNat n) < 16 := by decide
  have := hall c.toNat (isHex_ascii h)
  rw [Char.ofNat_toNat] at this
  exact this h

theorem isHex_of_digit (h : '0' ≤ c ∧ c ≤ '9') : isHex c = true := by
  simp only [isHex, Bool.or_eq_true, Bool.and_eq_true, decide_eq_true_eq]
  exact .inl (.inl h)

/-- What the digits of a byte are. -/
theorem octet_digits : ∀ n < 256, Nat.toDigits 10 n ≠ [] ∧ (Nat.toDigits 10 n).length ≤ 3 ∧
    ∀ c ∈ Nat.toDigits 10 n, '0' ≤ c ∧ c ≤ '9' := by
  have hall : ∀ n < 256, Nat.toDigits 10 n ≠ [] ∧ (Nat.toDigits 10 n).length ≤ 3 ∧
      (Nat.toDigits 10 n).all (fun c => '0' ≤ c ∧ c ≤ '9') = true := by decide +kernel
  intro n hn
  obtain ⟨hne, hlen, hdigits⟩ := hall n hn
  exact ⟨hne, hlen, fun c hc => of_decide_eq_true (all_eq_true.1 hdigits c hc)⟩

variable {t : List Char}

theorem IsGroup.of_all {v : Nat} (hlen : 1 ≤ t.length ∧ t.length ≤ 4) (hhex : t.all isHex = true)
    (hv : hexNumber t = v) : IsGroup t v :=
  ⟨hlen.1, hlen.2, all_eq_true.1 hhex, hv⟩

theorem IsGroup.ne_nil {v : Nat} (h : IsGroup t v) : t ≠ [] := length_pos_iff.1 h.1

variable {bs : List Nat}

theorem Groups.length_eq (h : Groups ts bs) : bs.length = 2 * ts.length := by
  induction h with
  | nil => rfl
  | cons =>
    rw [length_cons, length_cons, length_cons]
    omega

theorem Groups.append {ts us : List (List Char)} {bs cs : List Nat} (h : Groups ts bs)
    (h' : Groups us cs) : Groups (ts ++ us) (bs ++ cs) := by
  induction h with
  | nil => exact h'
  | cons hg _ ih => exact .cons hg ih

theorem Groups.isGroup (h : Groups ts bs) : ∀ t ∈ ts, ∃ v, IsGroup t v := by
  induction h with
  | nil => exact fun t ht => absurd ht not_mem_nil
  | cons hg _ ih => exact forall_mem_cons.2 ⟨⟨_, hg⟩, ih⟩

/-- The characters of addresses. -/
def IsAddressChar (c : Char) : Prop := isHex c = true ∨ c = ':' ∨ c = '.'

variable {bytes : List Nat}

theorem IPv4Text.chars (h : IPv4Text s bytes) :
    ∀ x ∈ s, x = '.' ∨ ('0' ≤ x ∧ x ≤ '9') := by
  obtain ⟨a, b, c, d, ha, hb, hc, hd, rfl, -⟩ := h
  intro x hx
  refine (mem_join hx).imp_right fun ⟨t, ht, hxt⟩ => ?_
  simp only [mem_cons, not_mem_nil, or_false] at ht
  rcases ht with rfl | rfl | rfl | rfl
  · exact (octet_digits a ha).2.2 x hxt
  · exact (octet_digits b hb).2.2 x hxt
  · exact (octet_digits c hc).2.2 x hxt
  · exact (octet_digits d hd).2.2 x hxt

theorem IPv4Text.dot_mem (h : IPv4Text s bytes) : '.' ∈ s := by
  obtain ⟨a, b, c, d, -, -, -, -, rfl, -⟩ := h
  exact mem_append_right _ (mem_cons_self ..)

theorem Groups.chars (h : Groups ts bs) : ∀ t ∈ ts, ∀ x ∈ t, isHex x = true := by
  intro t ht x hx
  obtain ⟨v, hv⟩ := h.isGroup t ht
  exact hv.2.2.1 x hx

theorem GroupsOrDotted.chars (h : GroupsOrDotted ts bs) :
    ∀ x ∈ join ':' ts, IsAddressChar x := by
  have hparts : ∀ t ∈ ts, ∀ x ∈ t, IsAddressChar x := by
    cases h with
    | groups hg => exact fun t ht x hx => .inl (hg.chars t ht x hx)
    | dotted hg ht =>
      intro t hmem x hx
      rcases mem_append.1 hmem with hmem | hmem
      · exact .inl (hg.chars t hmem x hx)
      · rw [mem_singleton.1 hmem] at hx
        exact (ht.chars x hx).elim (fun h => .inr (.inr h)) fun h => .inl (isHex_of_digit h)
  intro x hx
  rcases mem_join hx with rfl | ⟨t, ht, hxt⟩
  · exact .inr (.inl rfl)
  · exact hparts t ht x hxt

theorem IPv6Text.chars (h : IPv6Text s bytes) : ∀ x ∈ s, IsAddressChar x := by
  cases h with
  | full hg _ => exact hg.chars
  | compressed hl hr _ =>
    have hcolon : IsAddressChar ':' := .inr (.inl rfl)
    exact forall_mem_append.2 ⟨(GroupsOrDotted.groups hl).chars,
      forall_mem_cons.2 ⟨hcolon, forall_mem_cons.2 ⟨hcolon, hr.chars⟩⟩⟩

theorem zeroGroups (n : Nat) : Groups (replicate n ['0']) (replicate (2 * n) 0) := by
  induction n with
  | zero => exact .nil
  | succ n ih =>
    have hzero : IsGroup ['0'] 0 := .of_all (by decide) (by decide) (by decide)
    exact .cons hzero ih

theorem hexNumber_lt (h : ∀ c ∈ t, isHex c = true) : hexNumber t < 16 ^ t.length := by
  induction t using reverseRecOn with
  | nil => exact Nat.one_pos
  | append_singleton t c ih =>
    have hc := hexDigit_lt (h c (mem_append_right _ (mem_cons_self ..)))
    have ht := ih fun d hd => h d (mem_append_left _ hd)
    rw [hexNumber, foldl_append, foldl_cons, foldl_nil, length_append, length_singleton]
    rw [hexNumber] at ht
    omega

theorem IsGroup.lt {v : Nat} (h : IsGroup t v) : v < 65536 := by
  have := hexNumber_lt h.2.2.1
  rw [h.2.2.2] at this
  exact Nat.lt_of_lt_of_le this (Nat.pow_le_pow_right (by decide : 16 > 0) h.2.1)

theorem Groups.byte_lt (h : Groups ts bs) : ∀ b ∈ bs, b < 256 := by
  induction h with
  | nil => exact fun b hb => absurd hb not_mem_nil
  | cons hg _ ih =>
    have := hg.lt
    exact forall_mem_cons.2 ⟨by omega, forall_mem_cons.2 ⟨by omega, ih⟩⟩

theorem IPv4Text.byte_lt (h : IPv4Text s bytes) : ∀ b ∈ bytes, b < 256 := by
  obtain ⟨a, b, c, d, ha, hb, hc, hd, -, rfl⟩ := h
  simp only [forall_mem_cons]
  exact ⟨ha, hb, hc, hd, fun b hb => absurd hb not_mem_nil⟩

theorem GroupsOrDotted.byte_lt (h : GroupsOrDotted ts bs) : ∀ b ∈ bs, b < 256 := by
  cases h with
  | groups hg => exact hg.byte_lt
  | dotted hg ht => exact forall_mem_append.2 ⟨hg.byte_lt, ht.byte_lt⟩

theorem IPv6Text.byte_lt (h : IPv6Text s bytes) : ∀ b ∈ bytes, b < 256 := by
  cases h with
  | full hg _ => exact hg.byte_lt
  | compressed hl hr _ =>
    have hzero : ∀ n : Nat, ∀ b ∈ replicate n 0, b < 256 := by
      intro n b hb
      rw [eq_of_mem_replicate hb]
      decide
    exact forall_mem_append.2 ⟨forall_mem_append.2 ⟨hl.byte_lt, hzero _⟩, hr.byte_lt⟩

theorem IPv4Text.length_eq (h : IPv4Text s bytes) : bytes.length = 4 := by
  obtain ⟨a, b, c, d, -, -, -, -, -, rfl⟩ := h
  rfl

theorem GroupsOrDotted.two_le (h : GroupsOrDotted ts bs) (hlen : bs.length = 16) :
    2 ≤ ts.length := by
  cases h with
  | groups hg =>
    have := hg.length_eq
    omega
  | @dotted us cs t tail hg ht =>
    have := hg.length_eq
    have := ht.length_eq
    simp only [length_append, length_singleton] at hlen ⊢
    omega

theorem IPv6Text.colon_mem (h : IPv6Text s bytes) : ':' ∈ s := by
  cases h with
  | @full ts bs hg hlen =>
    have := hg.two_le hlen
    match ts, this with
    | t :: u :: ts, _ =>
      exact mem_append_right _ (mem_cons_self ..)
  | compressed => exact mem_append_right _ (mem_cons_self ..)

theorem IPv6Text.length_eq (h : IPv6Text s bytes) : bytes.length = 16 := by
  cases h with
  | full _ hlen => exact hlen
  | compressed =>
    simp only [length_append, length_replicate]
    omega

end IpText
