import SmartProctoring.Lib.IpText
import SmartProctoring.Lib.JsChar

/-!
# The addresses that webhooks may reach

`lib/net-guard.ts`, the part that reads and classifies addresses.  `net.isIP` is Node's and stays a
parameter; what is used of it is that it accepts the text forms of RFC 4291 (`NetIsIP`).

* `parseIPv6` returns the bytes of an address, whichever way its text has them (`parseIPv6_of_text`).
* `isPublicV4` and `isPublicV6` accept what lies outside the special-purpose ranges (`Routable`), and an address that
  embeds an IPv4 address is judged by that (`isPublicV6_iff`).
* `isPublicAddress` therefore depends on the address alone (`guard_sees_every_spelling`).
-/

set_option autoImplicit false

namespace SmartProctoring.NetGuard

open IpText JsChar
open List

/-! ## Reading addresses -/

/-- `/^\d{1,3}$/`. -/
def isOctet (p : List Char) : Bool :=
  decide (1 ≤ p.length) && decide (p.length ≤ 3) && p.all fun c =>
    decide ('0' ≤ c) && decide (c ≤ '9')

/-- `Number(p)` of decimal digits. -/
def decimal (p : List Char) : Nat := p.foldl (fun n c => 10 * n + (c.toNat - '0'.toNat)) 0

def octet (p : List Char) : Option Nat :=
  if isOctet p = true ∧ decimal p ≤ 255 then some (decimal p) else none

def parseIPv4 (s : List Char) : Option (List Nat) :=
  let parts := s.splitOn '.'
  if parts.length = 4 then parts.mapM octet else none

/-- `s.split('::')`. -/
def splitDouble : List Char → List (List Char)
  | [] => [[]]
  | [c] => [[c]]
  | c :: d :: s => if c = ':' ∧ d = ':' then [] :: splitDouble s
      else (splitDouble (d :: s)).modifyHead (c :: ·)

/-- `half ? half.split(':') : []`. -/
def groupsOf (half : List Char) : List (List Char) := if half = [] then [] else half.splitOn ':'

/-- `/^[0-9a-fA-F]{1,4}$/`. -/
def isGroup (g : List Char) : Bool := decide (1 ≤ g.length) && decide (g.length ≤ 4) && g.all isHex

/-- The loop over the groups. -/
def groupBytes : List (List Char) → Option (List Nat)
  | [] => some []
  | g :: groups => if isGroup g then (groupBytes groups).map fun bytes =>
      (hexNumber g >>> 8) :: (hexNumber g &&& 0xff) :: bytes else none

/-- What `parseIPv6` does once an IPv4 tail is out of the way. -/
def expand (s : List Char) : Option (List Nat) :=
  match splitDouble s with
  | [half] => if (groupsOf half).length = 8 then groupBytes (groupsOf half) else none
  | [left, right] =>
    let head := groupsOf left
    let rest := groupsOf right
    if head.length + rest.length < 8 then
      groupBytes (head ++ List.replicate (8 - head.length - rest.length) ['0'] ++ rest)
    else none
  | _ => none

def parseIPv6 (input : List Char) : Option (List Nat) :=
  let s := input.takeWhile (· != '%')
  if ':' ∈ s then
    let before := s.rdropWhile (· != ':')
    let last := s.rtakeWhile (· != ':')
    if '.' ∈ last then
      (parseIPv4 last).bind fun tail4 =>
        -- `bytes.splice(12, 4, ...tail4)`
        (expand (before ++ ['0', ':', '0'])).map fun bytes => bytes.take 12 ++ tail4 ++ bytes.drop 16
    else expand s
  else none

/-! ## Classifying them -/

def isPublicV4 (b : List Nat) : Bool :=
  let a := b.getD 0 0
  let c := b.getD 1 0
  if a = 0 then false
  else if a = 10 then false
  else if a = 100 ∧ c &&& 0xc0 = 64 then false
  else if a = 127 then false
  else if a = 169 ∧ c = 254 then false
  else if a = 172 ∧ c &&& 0xf0 = 16 then false
  else if a = 192 ∧ c = 0 ∧ (b.getD 2 0 = 0 ∨ b.getD 2 0 = 2) then false
  else if a = 192 ∧ c = 88 ∧ b.getD 2 0 = 99 then false
  else if a = 192 ∧ c = 168 then false
  else if a = 198 ∧ c &&& 0xfe = 18 then false
  else if a = 198 ∧ c = 51 ∧ b.getD 2 0 = 100 then false
  else if a = 203 ∧ c = 0 ∧ b.getD 2 0 = 113 then false
  else if 224 ≤ a then false
  else true

/-- `allZero(from, to)`. -/
def allZero (b : List Nat) (start stop : Nat) : Bool := ((b.take stop).drop start).all (· == 0)

def isPublicV6 (b : List Nat) : Bool :=
  let byte := fun i => b.getD i 0
  if allZero b 0 12 = true then isPublicV4 (b.drop 12)
  else if allZero b 0 10 = true ∧ byte 10 = 0xff ∧ byte 11 = 0xff then isPublicV4 (b.drop 12)
  else if byte 0 = 0x00 ∧ byte 1 = 0x64 ∧ byte 2 = 0xff ∧ byte 3 = 0x9b ∧
    allZero b 4 12 = true then isPublicV4 (b.drop 12)
  else if byte 0 &&& 0xe0 ≠ 0x20 then false
  else if byte 0 = 0x20 ∧ byte 1 = 0x01 ∧ byte 2 < 0x02 then false
  else if byte 0 = 0x20 ∧ byte 1 = 0x01 ∧ byte 2 = 0x0d ∧ byte 3 = 0xb8 then false
  else if byte 0 = 0x20 ∧ byte 1 = 0x02 then isPublicV4 ((b.take 6).drop 2)
  else if byte 0 = 0x3f ∧ byte 1 = 0xff ∧ byte 2 &&& 0xf0 = 0 then false
  else true

/-- `replace(/^\[|\]$/g, '')`. -/
def unbracket (s : List Char) : List Char :=
  let s := if s.head? = some '[' then s.tail else s
  if s.getLast? = some ']' then s.dropLast else s

/-- True only for globally routable unicast addresses.  What cannot be parsed is not public. -/
def isPublicAddress (isIP : List Char → Nat) (address : List Char) : Bool :=
  let a := unbracket (trim address)
  let v := isIP (a.takeWhile (· != '%'))
  if v = 4 then
    match parseIPv4 a with
    | some b => isPublicV4 b
    | none => false
  else if v = 6 then
    match parseIPv6 a with
    | some b => isPublicV6 b
    | none => false
  else false

/-! ## What addresses are -/

/-- The text of an IPv6 address, with a zone or without one. -/
def IPv6Zoned (s : List Char) (bytes : List Nat) : Prop :=
  ∃ core zone, s = core ++ zone ∧ IPv6Text core bytes ∧ IsZone zone

/-- What is used of `net.isIP`. -/
structure NetIsIP (isIP : List Char → Nat) : Prop where
  v4 : ∀ s, isIP s = 4 ↔ ∃ bytes, IPv4Text s bytes
  v6 : ∀ s, isIP s = 6 ↔ ∃ bytes, IPv6Zoned s bytes

/-- The special-purpose IPv4 ranges that the module lists. -/
def specialV4 : List Network :=
  [⟨[0], 8⟩, ⟨[10], 8⟩, ⟨[100, 64], 10⟩, ⟨[127], 8⟩, ⟨[169, 254], 16⟩, ⟨[172, 16], 12⟩,
    ⟨[192, 0, 0], 24⟩,
    ⟨[192, 0, 2], 24⟩, ⟨[192, 88, 99], 24⟩, ⟨[192, 168], 16⟩, ⟨[198, 18], 15⟩, ⟨[198, 51, 100], 24⟩,
    ⟨[203, 0, 113], 24⟩, ⟨[224], 3⟩]

/-- The special-purpose IPv6 ranges that it lists: `2001::/23`, `2001:db8::/32`, `3fff::/20`, and,
as excluded by `2000::/3`, `fc00::/7`, `fe80::/10`, `ff00::/8`, `64:ff9b:1::/48`, `100::/64`. -/
def specialV6 : List Network :=
  [⟨[0x20, 0x01, 0x00], 23⟩, ⟨[0x20, 0x01, 0x0d, 0xb8], 32⟩, ⟨[0x3f, 0xff, 0x00], 20⟩, ⟨[0xfc], 7⟩,
    ⟨[0xfe, 0x80], 10⟩,
    ⟨[0xff], 8⟩, ⟨[0x00, 0x64, 0xff, 0x9b, 0x00, 0x01], 48⟩, ⟨[0x01, 0x00, 0, 0, 0, 0, 0, 0], 64⟩]

/-- `2000::/3`. -/
def globalUnicast : Network := ⟨[0x20], 3⟩

/-- The IPv4 address in an IPv4-compatible, IPv4-mapped, NAT64 or 6to4 address. -/
inductive Embeds : List Nat → List Nat → Prop
  | compatible (v4 : List Nat) : Embeds (List.replicate 12 0 ++ v4) v4
  | mapped (v4 : List Nat) : Embeds (List.replicate 10 0 ++ 0xff :: 0xff :: v4) v4
  | nat64 (v4 : List Nat) : Embeds (0x00 :: 0x64 :: 0xff :: 0x9b :: List.replicate 8 0 ++ v4) v4
  | sixToFour (v4 rest : List Nat) : v4.length = 4 → Embeds (0x20 :: 0x02 :: v4 ++ rest) v4

/-- In no listed range of IPv4 addresses. -/
def RoutableV4 (b : List Nat) : Prop := ∀ n ∈ specialV4, ¬ n.Contains b

/-- In no listed range, nor is the IPv4 address that it embeds. -/
inductive Routable : List Nat → Prop
  | v4 {b : List Nat} : b.length = 4 → RoutableV4 b → Routable b
  | embedded {b v4 : List Nat} : b.length = 16 → Embeds b v4 → RoutableV4 v4 → Routable b
  | v6 {b : List Nat} : b.length = 16 → (∀ v4, ¬ Embeds b v4) → globalUnicast.Contains b →
    (∀ n ∈ specialV6, ¬ n.Contains b) → Routable b

/-- The spellings of an address: white space around it, brackets, and a zone. -/
inductive Spells : List Char → List Nat → Prop
  | v4 {before opening text closing after : List Char} {bytes : List Nat} :
    (∀ c ∈ before ++ after, isSpace c = true) →
    opening = [] ∨ opening = ['['] → closing = [] ∨ closing = [']'] → IPv4Text text bytes →
    Spells (before ++ opening ++ text ++ closing ++ after) bytes
  | v6 {before opening text zone closing after : List Char} {bytes : List Nat} :
    (∀ c ∈ before ++ after, isSpace c = true) → opening = [] ∨ opening = ['['] → closing = [] ∨
    closing = [']'] → IPv6Text text bytes → zone = [] ∨ zone.head? = some '%' →
    Spells (before ++ opening ++ text ++ zone ++ closing ++ after) bytes

/-! ## Reading IPv4 addresses -/

theorem octet_toDigits : ∀ n < 256, octet (Nat.toDigits 10 n) = some n := by
  decide +kernel

variable {c : Char}

theorem not_mem_toDigits {n : Nat} (h : n < 256) (hc : ¬ ('0' ≤ c ∧ c ≤ '9')) :
    c ∉ Nat.toDigits 10 n :=
  fun hm => hc ((octet_digits n h).2.2 c hm)

variable {s : List Char}

theorem parseIPv4_of_text {bytes : List Nat} (h : IPv4Text s bytes) : parseIPv4 s = some bytes := by
  obtain ⟨a, b, c, d, ha, hb, hc, hd, rfl, rfl⟩ := h
  have hsplit : (dottedText a b c d).splitOn '.' =
      [Nat.toDigits 10 a, Nat.toDigits 10 b, Nat.toDigits 10 c, Nat.toDigits 10 d] := by
    refine splitOn_join (cons_ne_nil _ _) fun t ht => ?_
    simp only [mem_cons, not_mem_nil, or_false] at ht
    rcases ht with rfl | rfl | rfl | rfl <;> exact not_mem_toDigits (by assumption) (by decide)
  have hoctets : ([Nat.toDigits 10 a, Nat.toDigits 10 b, Nat.toDigits 10 c,
      Nat.toDigits 10 d]).mapM octet = some [a, b, c, d] := by
    simp only [mapM_cons, mapM_nil, octet_toDigits a ha, octet_toDigits b hb, octet_toDigits c hc,
      octet_toDigits d hd]
    rfl
  rw [parseIPv4, hsplit]
  exact (if_pos rfl).trans hoctets

variable {x : Char}

theorem not_parseIPv4 (hx : x ∈ s) (hdot : x ≠ '.') (hdigit : ¬ ('0' ≤ x ∧ x ≤ '9')) :
    parseIPv4 s = none := by
  obtain ⟨p, hp, hxp⟩ := exists_mem_splitOn hx hdot
  have hnone : octet p = none := by
    refine if_neg fun h => hdigit ?_
    simp only [isOctet, Bool.and_eq_true, all_eq_true, decide_eq_true_eq] at h
    exact h.1.2 x hxp
  have hall : ∀ ps : List (List Char), p ∈ ps → ps.mapM octet = none := by
    intro ps
    induction ps with
    | nil => exact fun h => absurd h not_mem_nil
    | cons q ps ih =>
      intro h
      rw [mapM_cons]
      rcases mem_cons.1 h with rfl | h
      · rw [hnone]
        rfl
      · rw [ih h]
        cases octet q <;> rfl
  rw [parseIPv4, hall _ hp, ite_self]

/-! ## Reading IPv6 addresses -/

theorem isHex_ne_colon (h : isHex c = true) : c ≠ ':' := by
  rintro rfl
  exact absurd h (by decide)

theorem isHex_ne_dot (h : isHex c = true) : c ≠ '.' := by
  rintro rfl
  exact absurd h (by decide)

variable {bs : List Nat} {ts : List (List Char)}

theorem groupBytes_of_groups (h : Groups ts bs) : groupBytes ts = some bs := by
  induction h with
  | nil => rfl
  | @cons t v ts bs hg _ ih =>
    have hgroup : isGroup t = true := by
      simp only [isGroup, Bool.and_eq_true, decide_eq_true_eq, all_eq_true]
      exact ⟨⟨hg.1, hg.2.1⟩, hg.2.2.1⟩
    rw [groupBytes, if_pos hgroup, ih, Option.map_some, hg.2.2.2, Nat.shiftRight_eq_div_pow,
      show (0xff : Nat) = 2 ^ 8 - 1 from rfl, Nat.and_two_pow_sub_one_eq_mod]

theorem splitDouble_ne_nil : ∀ s : List Char, splitDouble s ≠ []
  | [] => cons_ne_nil _ _
  | [_] => cons_ne_nil _ _
  | c :: d :: s => by
    rw [splitDouble]
    split
    · exact cons_ne_nil _ _
    · simpa using splitDouble_ne_nil (d :: s)

theorem splitDouble_cons (h : c ≠ ':' ∨ s.head? ≠ some ':') :
    splitDouble (c :: s) = (splitDouble s).modifyHead (c :: ·) := by
  cases s with
  | nil => rfl
  | cons d s =>
    have hne : ¬ (c = ':' ∧ d = ':') := by
      rintro ⟨rfl, rfl⟩
      exact h.elim (· rfl) (· rfl)
    rw [splitDouble, if_neg hne]

variable {t : List Char}

theorem splitDouble_append (ht : ':' ∉ t) (s : List Char) :
    splitDouble (t ++ s) = (splitDouble s).modifyHead (t ++ ·) := by
  induction t with
  | nil =>
    obtain ⟨u, us, hu⟩ := exists_cons_of_ne_nil (splitDouble_ne_nil s)
    rw [nil_append, hu]
    rfl
  | cons c t ih =>
    have hc : c ≠ ':' := fun h => ht (h ▸ mem_cons_self ..)
    rw [cons_append, splitDouble_cons (.inl hc), ih fun h => ht (mem_cons_of_mem _ h), modifyHead_modifyHead]
    rfl

theorem splitDouble_join (hts : ∀ t ∈ ts, t ≠ [] ∧ ':' ∉ t) (s : List Char) :
    splitDouble (join ':' ts ++ s) = (splitDouble s).modifyHead (join ':' ts ++ ·) := by
  induction ts with
  | nil => exact splitDouble_append not_mem_nil s
  | cons t ts ih =>
    obtain ⟨⟨_, ht⟩, hts⟩ := forall_mem_cons.1 hts
    rcases eq_or_ne ts [] with rfl | hne
    · exact splitDouble_append ht s
    · have hhead : (join ':' ts ++ s).head? ≠ some ':' := by
        obtain ⟨u, us, rfl⟩ := exists_cons_of_ne_nil hne
        obtain ⟨hu, hcolon⟩ := hts u (mem_cons_self ..)
        obtain ⟨c, u, rfl⟩ := exists_cons_of_ne_nil hu
        have hc : c ≠ ':' := fun h => hcolon (h ▸ mem_cons_self ..)
        cases us <;> simpa [join] using hc
      rw [join_cons ':' t hne, append_assoc, splitDouble_append ht, cons_append,
        splitDouble_cons (.inr hhead), ih hts, modifyHead_modifyHead, modifyHead_modifyHead]
      congr 1
      funext x
      simp

theorem Groups.parts (h : Groups ts bs) : ∀ t ∈ ts, t ≠ [] ∧ ':' ∉ t := by
  intro t ht
  obtain ⟨v, hv⟩ := h.isGroup t ht
  exact ⟨hv.ne_nil, fun hc => isHex_ne_colon (hv.2.2.1 _ hc) rfl⟩

theorem groupsOf_join (hts : ∀ t ∈ ts, t ≠ [] ∧ ':' ∉ t) : groupsOf (join ':' ts) = ts := by
  rcases eq_or_ne ts [] with rfl | hne
  · rfl
  · have hsplit := splitOn_join hne fun t ht => (hts t ht).2
    rw [groupsOf, if_neg, hsplit]
    intro hnil
    rw [hnil] at hsplit
    exact (hts [] (hsplit ▸ mem_cons_self ..)).1 rfl

theorem expand_full (h : Groups ts bs) (hlen : bs.length = 16) :
    expand (join ':' ts) = some bs := by
  have hsplit : splitDouble (join ':' ts) = [join ':' ts] := by
    have := splitDouble_join (Groups.parts h) []
    rwa [splitDouble, modifyHead_cons, append_nil] at this
  have hcount : ts.length = 8 := by
    have := h.length_eq
    omega
  simp only [expand, hsplit, groupsOf_join (Groups.parts h)]
  rw [if_pos hcount, groupBytes_of_groups h]

theorem expand_compressed {ls rs : List (List Char)} {lb rb : List Nat} (hl : Groups ls lb)
    (hr : Groups rs rb) (hlen : lb.length + rb.length ≤ 14) :
    expand (join ':' ls ++ ':' :: ':' :: join ':' rs) =
    some (lb ++ replicate (16 - lb.length - rb.length) 0 ++ rb) := by
  have hsplit : splitDouble (join ':' ls ++ ':' :: ':' :: join ':' rs) = [join ':' ls,
      join ':' rs] := by
    have hright := splitDouble_join (Groups.parts hr) []
    rw [splitDouble, modifyHead_cons, append_nil] at hright
    rw [splitDouble_join (Groups.parts hl), splitDouble, if_pos ⟨rfl, rfl⟩, hright,
      modifyHead_cons, append_nil]
  have hls := hl.length_eq
  have hrs := hr.length_eq
  have hzeros : 16 - lb.length - rb.length = 2 * (8 - ls.length - rs.length) := by omega
  simp only [expand, hsplit, groupsOf_join (Groups.parts hl), groupsOf_join (Groups.parts hr)]
  rw [if_pos (by omega), hzeros, groupBytes_of_groups ((hl.append (zeroGroups _)).append hr)]

variable {zone : List Char}

theorem takeWhile_zone (ht : '%' ∉ t) (hzone : zone = [] ∨ zone.head? = some '%') :
    (t ++ zone).takeWhile (· != '%') = t := by
  have hall : ∀ c ∈ t, (c != '%') = true := by
    intro c hc
    rw [bne_iff_ne]
    rintro rfl
    exact ht hc
  rw [takeWhile_append_of_pos hall]
  rcases hzone with rfl | hz
  · rw [takeWhile_nil, append_nil]
  · cases zone with
    | nil => cases hz
    | cons c z =>
      obtain rfl : c = '%' := Option.some.inj hz
      rw [takeWhile_cons_of_neg (by decide), append_nil]

theorem parseIPv6_last {before last zone : List Char} (hlast : ':' ∉ last)
    (hpercent : '%' ∉ before ++ ':' :: last) (hzone : zone = [] ∨ zone.head? = some '%') :
    parseIPv6 (before ++ ':' :: last ++ zone) = if '.' ∈ last then
        (parseIPv4 last).bind fun tail4 => (expand (before ++ [':', '0', ':', '0'])).map fun bytes =>
          bytes.take 12 ++ tail4 ++ bytes.drop 16
      else expand (before ++ ':' :: last) := by
  have hnone : ∀ c ∈ last, (c != ':') = true := by
    intro c hc
    rw [bne_iff_ne]
    rintro rfl
    exact hlast hc
  have hbefore : (before ++ ':' :: last).rdropWhile (· != ':') = before ++ [':'] := by
    rw [rdropWhile, reverse_append, reverse_cons, append_assoc,
      dropWhile_append_of_pos fun c hc => hnone c (mem_reverse.1 hc), singleton_append,
      dropWhile_cons_of_neg (by decide), reverse_cons, reverse_reverse]
  have hafter : (before ++ ':' :: last).rtakeWhile (· != ':') = last := by
    rw [rtakeWhile, reverse_append, reverse_cons, append_assoc,
      takeWhile_append_of_pos fun c hc => hnone c (mem_reverse.1 hc), singleton_append,
      takeWhile_cons_of_neg (by decide), append_nil, reverse_reverse]
  rw [parseIPv6, takeWhile_zone hpercent hzone]
  simp only [hbefore, hafter, append_assoc, singleton_append]
  rw [if_pos (mem_append_right _ (mem_cons_self ..))]

theorem exists_before {p t : List Char} {us : List (List Char)}
    (h : (∃ q, p = q ++ [':']) ∨ 2 ≤ (us ++ [t]).length) :
    ∃ before, ∀ vs : List (List Char), vs ≠ [] →
    p ++ join ':' (us ++ vs) = before ++ ':' :: join ':' vs := by
  rcases eq_or_ne us [] with rfl | hne
  · obtain ⟨q, rfl⟩ := h.resolve_right (by simp)
    exact ⟨q, fun vs _ => by rw [nil_append, append_assoc, singleton_append]⟩
  · exact ⟨p ++ join ':' us, fun vs hvs => by rw [join_append ':' hne hvs, append_assoc]⟩

theorem not_address (hhex : isHex x = false) (hcolon : x ≠ ':') (hdot : x ≠ '.') :
    ¬ IsAddressChar x := by
  rintro (h | h | h)
  · rw [hhex] at h
    cases h
  · exact hcolon h
  · exact hdot h

theorem not_percent : ¬ IsAddressChar '%' := not_address (by decide) (by decide) (by decide)

theorem IPv4Text.not_colon {bytes : List Nat} (h : IPv4Text t bytes) : ':' ∉ t := fun hc =>
  (h.chars _ hc).elim (by decide) (by decide)

theorem parseIPv6_tail {p zone : List Char} (pre : List Nat) (h : GroupsOrDotted ts bs)
    (hp : (∃ q, p = q ++ [':']) ∨ 2 ≤ ts.length) (hpercent : '%' ∉ p)
    (hzone : zone = [] ∨ zone.head? = some '%') (hlen : pre.length + bs.length = 16)
    (hexpand : ∀ us cs, Groups us cs → cs.length = bs.length →
      expand (p ++ join ':' us) = some (pre ++ cs)) :
    parseIPv6 (p ++ join ':' ts ++ zone) = some (pre ++ bs) := by
  have hclean : '%' ∉ p ++ join ':' ts := by
    rw [mem_append, not_or]
    exact ⟨hpercent, fun hmem => not_percent (h.chars _ hmem)⟩
  cases h with
  | groups hg =>
    -- the last group, or nothing when the text ends with a double colon
    have hlast : ∃ before last, p ++ join ':' ts = before ++ ':' :: last ∧ ':' ∉ last ∧ '.' ∉ last := by
      rcases eq_nil_or_concat' ts with rfl | ⟨us, t, rfl⟩
      · obtain ⟨q, rfl⟩ := hp.resolve_right (by simp)
        exact ⟨q, [], by simp [join], not_mem_nil, not_mem_nil⟩
      · obtain ⟨before, hbefore⟩ := exists_before hp
        have hlast := hg.chars t (mem_append_right _ (mem_cons_self ..))
        exact ⟨before, t, hbefore [t] (cons_ne_nil _ _), fun hc => isHex_ne_colon (hlast _ hc) rfl,
          fun hc => isHex_ne_dot (hlast _ hc) rfl⟩
    obtain ⟨before, last, heq, hcolon, hdot⟩ := hlast
    rw [heq] at hclean ⊢
    rw [parseIPv6_last hcolon hclean hzone, if_neg hdot, ← heq]
    exact hexpand ts bs hg rfl
  | @dotted us cs t tail hg ht =>
    obtain ⟨before, hbefore⟩ := exists_before hp
    have heq := hbefore [t] (cons_ne_nil _ _)
    rw [join_singleton] at heq
    rw [heq] at hclean ⊢
    have htail := ht.length_eq
    have hpre : (pre ++ cs).length = 12 := by
      rw [length_append] at hlen ⊢
      omega
    -- the two groups of zeros that stand for the tail until it is spliced in
    have hzeros : expand (before ++ [':', '0', ':', '0']) = some (pre ++ (cs ++ [0, 0, 0, 0])) := by
      have hgroups : Groups (us ++ [['0'], ['0']]) (cs ++ [0, 0, 0, 0]) := hg.append (zeroGroups 2)
      have hexp := hexpand _ _ hgroups (by rw [length_append, length_append, htail]; rfl)
      rwa [hbefore _ (cons_ne_nil _ _)] at hexp
    rw [parseIPv6_last (IPv4Text.not_colon ht) hclean hzone, if_pos ht.dot_mem, parseIPv4_of_text ht,
      Option.bind_some, hzeros, Option.map_some, ← append_assoc, take_left' hpre,
      drop_of_length_le (by rw [length_append, hpre]; decide), append_nil, append_assoc]

theorem parseIPv6_of_text {core zone : List Char} {bytes : List Nat} (h : IPv6Text core bytes)
    (hzone : zone = [] ∨ zone.head? = some '%') : parseIPv6 (core ++ zone) = some bytes := by
  cases h with
  | @full ts bs hg hlen =>
    exact parseIPv6_tail (p := []) [] hg (.inr (hg.two_le hlen)) not_mem_nil hzone
      (by simpa using hlen) fun us cs hus hcs => expand_full hus (hcs.trans hlen)
  | @compressed ls rs lb rb hl hr hlen =>
    have hpercent : '%' ∉ join ':' ls ++ [':', ':'] := by
      have : '%' ∉ join ':' ls := fun hmem => not_percent ((GroupsOrDotted.groups hl).chars _ hmem)
      simp [this]
    have htail := parseIPv6_tail (p := join ':' ls ++ [':', ':']) (lb ++ replicate (16 - lb.length - rb.length) 0)
      hr (.inl ⟨join ':' ls ++ [':'], by simp⟩) hpercent hzone (by simp; omega) fun us cs hus hcs => by
        rw [append_assoc, ← hcs]
        exact expand_compressed hl hus (hcs ▸ hlen)
    rwa [append_assoc (join ':' ls)] at htail

/-! ## The ranges -/

theorem masks : ∀ c < 256, (c &&& 0xc0 = 64 ↔ 1 = c / 64) ∧ (c &&& 0xf0 = 16 ↔ 1 = c / 16) ∧
    (c &&& 0xfe = 18 ↔ 9 = c / 2) ∧
    (c &&& 0xe0 = 0x20 ↔ 1 = c / 32) ∧ (c &&& 0xf0 = 0 ↔ 0 = c / 16) := by
  decide +kernel

variable {b : List Nat}

theorem isPublicV4_iff (hlen : b.length = 4) (hb : ∀ x ∈ b, x < 256) :
    isPublicV4 b = true ↔ RoutableV4 b := by
  obtain ⟨a, c, x, y, rfl⟩ := length_eq_four.1 hlen
  obtain ⟨ha, hc, -⟩ : a < 256 ∧ c < 256 ∧ _ := by simpa only [forall_mem_cons] using hb
  obtain ⟨h64, h16, h18, -⟩ := masks c hc
  have h224 : 7 = a / 32 ↔ 224 ≤ a := by omega
  simp [RoutableV4, specialV4, Network.Contains, InNetwork, isPublicV4, h64, h16, h18, h224]
  simp only [imp_iff_not_or, or_and_left, and_assoc]
  simp only [eq_comm (b := a), eq_comm (b := c), eq_comm (b := x)]

theorem isPublicV6_embeds {b v4 : List Nat} (h : Embeds b v4) : isPublicV6 b = isPublicV4 v4 := by
  cases h with
  | compatible | mapped | nat64 => rfl
  | sixToFour v4 rest hlen =>
    obtain ⟨p, q, r, s, rfl⟩ := length_eq_four.1 hlen
    simp [isPublicV6, allZero]

theorem isPublicV6_plain (hlen : b.length = 16) (hb : ∀ x ∈ b, x < 256) (h : ∀ v4, ¬ Embeds b v4) :
    isPublicV6 b = true ↔ globalUnicast.Contains b ∧ ∀ n ∈ specialV6, ¬ n.Contains b := by
  match b, hlen with
  | [b0, b1, b2, b3, b4, b5, b6, b7, b8, b9, b10, b11, b12, b13, b14, b15], _ =>
    have hcompatible : ¬ allZero [b0, b1, b2, b3, b4, b5, b6, b7, b8, b9, b10, b11, b12, b13, b14,
        b15] 0 12 = true := by
      intro hzero
      simp [allZero] at hzero
      obtain ⟨rfl, rfl, rfl, rfl, rfl, rfl, rfl, rfl, rfl, rfl, rfl, rfl⟩ := hzero
      exact h _ (.compatible [b12, b13, b14, b15])
    have hmapped : ¬ (allZero [b0, b1, b2, b3, b4, b5, b6, b7, b8, b9, b10, b11, b12, b13, b14,
        b15] 0 10 = true ∧ b10 = 0xff ∧ b11 = 0xff) := by
      rintro ⟨hzero, rfl, rfl⟩
      simp [allZero] at hzero
      obtain ⟨rfl, rfl, rfl, rfl, rfl, rfl, rfl, rfl, rfl, rfl⟩ := hzero
      exact h _ (.mapped [b12, b13, b14, b15])
    have hnat64 : ¬ (b0 = 0x00 ∧ b1 = 0x64 ∧ b2 = 0xff ∧ b3 = 0x9b ∧
        allZero [b0, b1, b2, b3, b4, b5, b6, b7, b8, b9, b10, b11, b12, b13, b14, b15] 4 12 = true) := by
      rintro ⟨rfl, rfl, rfl, rfl, hzero⟩
      simp [allZero] at hzero
      obtain ⟨rfl, rfl, rfl, rfl, rfl, rfl, rfl, rfl⟩ := hzero
      exact h _ (.nat64 [b12, b13, b14, b15])
    have hsix : ¬ (b0 = 0x20 ∧ b1 = 0x02) := by
      rintro ⟨rfl, rfl⟩
      exact h _ (.sixToFour [b2, b3, b4, b5] [b6, b7, b8, b9, b10, b11, b12, b13, b14, b15] rfl)
    simp only [forall_mem_cons] at hb
    obtain ⟨hb0, -, hb2, -⟩ := hb
    obtain ⟨-, -, -, h32, -⟩ := masks b0 hb0
    obtain ⟨-, -, -, -, h20⟩ := masks b2 hb2
    simp only [isPublicV6, getD_cons_zero, getD_cons_succ, if_neg hcompatible, if_neg hmapped, if_neg hnat64,
      if_neg hsix, h20]
    simp [globalUnicast, specialV6, Network.Contains, InNetwork]
    rw [h32]
    have hietf : (¬ b0 = 32 ∨ ¬ b1 = 1 ∨ 2 ≤ b2) ↔ (32 = b0 → 1 = b1 → ¬ 0 = b2 / 2) := by omega
    have hdoc : (¬ b0 = 32 ∨ ¬ b1 = 1 ∨ ¬ b2 = 13 ∨ ¬ b3 = 184) ↔
        (32 = b0 → 1 = b1 → 13 = b2 → ¬ 184 = b3) := by omega
    have h3fff : (¬ b0 = 63 ∨ ¬ b1 = 255 ∨ ¬ 0 = b2 / 16) ↔
        (63 = b0 → 255 = b1 → ¬ 0 = b2 / 16) := by omega
    refine and_congr_right fun hfirst => (and_congr hietf (and_congr hdoc h3fff)).trans ?_
    refine and_congr_right fun _ => and_congr_right fun _ => (and_iff_left ?_).symm
    -- in 2000::/3 the other ranges are out of reach
    exact ⟨by omega, fun h => by omega, by omega, fun h => by omega, fun h => by omega⟩

theorem Embeds.bytes {b v4 : List Nat} (h : Embeds b v4) (hlen : b.length = 16) :
    v4.length = 4 ∧ ∀ x ∈ v4, x ∈ b := by
  cases h with
  | compatible =>
    rw [length_append, length_replicate] at hlen
    exact ⟨by omega, fun x hx => mem_append_right _ hx⟩
  | mapped =>
    rw [length_append, length_replicate, length_cons, length_cons] at hlen
    exact ⟨by omega, fun x hx => mem_append_right _ (mem_cons_of_mem _ (mem_cons_of_mem _ hx))⟩
  | nat64 =>
    rw [length_append] at hlen
    exact ⟨Nat.add_left_cancel hlen, fun x hx => mem_append_right _ hx⟩
  | sixToFour v4 rest h4 =>
    exact ⟨h4, fun x hx => mem_append_left _ (mem_cons_of_mem _ (mem_cons_of_mem _ hx))⟩

theorem isPublicV6_iff (hlen : b.length = 16) (hb : ∀ x ∈ b, x < 256) :
    isPublicV6 b = true ↔ Routable b := by
  have hembedded : ∀ v4, Embeds b v4 → (isPublicV6 b = true ↔ RoutableV4 v4) := by
    intro v4 hv4
    obtain ⟨h4, hmem⟩ := Embeds.bytes hv4 hlen
    rw [isPublicV6_embeds hv4, isPublicV4_iff h4 fun x hx => hb x (hmem x hx)]
  constructor
  · intro hpublic
    by_cases hv4 : ∃ v4, Embeds b v4
    · obtain ⟨v4, hv4⟩ := hv4
      exact .embedded hlen hv4 ((hembedded v4 hv4).1 hpublic)
    · rw [not_exists] at hv4
      obtain ⟨hglobal, hspecial⟩ := (isPublicV6_plain hlen hb hv4).1 hpublic
      exact .v6 hlen hv4 hglobal hspecial
  · intro hroutable
    cases hroutable with
    | v4 hlen' => omega
    | embedded _ hv4 hroutable => exact (hembedded _ hv4).2 hroutable
    | v6 _ hv4 hglobal hspecial => exact (isPublicV6_plain hlen hb hv4).2 ⟨hglobal, hspecial⟩

/-! ## Around an address -/

theorem rdropWhile_append {p : Char → Bool} {l : List Char} (hx : p x = false) (r : List Char) :
    (l ++ [x] ++ r).rdropWhile p = l ++ [x] ++ r.rdropWhile p := by
  induction r using reverseRecOn with
  | nil => rw [append_nil, rdropWhile_concat_neg _ _ _ (by simp [hx]), rdropWhile_nil, append_nil]
  | append_singleton r y ih =>
    rw [← append_assoc]
    by_cases hy : p y = true
    · rw [rdropWhile_concat_pos _ _ _ hy, rdropWhile_concat_pos _ _ _ hy, ih]
    · rw [rdropWhile_concat_neg _ _ _ hy, rdropWhile_concat_neg _ _ _ hy, ← append_assoc]

theorem rdropWhile_append_of_pos {p : Char → Bool} (l : List Char) {r : List Char}
    (hr : ∀ c ∈ r, p c = true) : (l ++ r).rdropWhile p = l.rdropWhile p := by
  rw [rdropWhile, reverse_append, dropWhile_append_of_pos fun c hc => hr c (mem_reverse.1 hc),
    rdropWhile]

/-- The characters of an address: what is around it ends where they begin. -/
def Clean (text : List Char) : Prop :=
  text ≠ [] ∧ ∀ c ∈ text, isSpace c = false ∧ c ≠ '[' ∧ c ≠ ']' ∧ c ≠ '%'

theorem rdropWhile_end {zone closing after : List Char} (hafter : ∀ c ∈ after, isSpace c = true)
    (hzone : zone = [] ∨ zone.head? = some '%') (hclosing : closing = [] ∨ closing = [']']) :
    (zone = [] ∧ (zone ++ closing ++ after).rdropWhile isSpace = closing) ∨
      zone ≠ [] ∧ ∃ z, (zone ++ closing ++ after).rdropWhile isSpace = '%' :: z := by
  rw [rdropWhile_append_of_pos _ hafter]
  rcases hzone with rfl | hz
  · rcases hclosing with rfl | rfl
    · exact .inl ⟨rfl, rfl⟩
    · exact .inl ⟨rfl, by decide⟩
  · cases zone with
    | nil => cases hz
    | cons c z =>
      obtain rfl : c = '%' := Option.some.inj hz
      exact .inr ⟨cons_ne_nil _ _, _, rdropWhile_append (l := []) (x := '%') (by decide) (z ++ closing)⟩

theorem unbracket_end {text r : List Char} (hclean : Clean text)
    (hr : r = [] ∨ r = [']'] ∨ ∃ z, r = '%' :: z) :
    ∃ zone, (if (text ++ r).getLast? = some ']' then (text ++ r).dropLast else text ++ r) = text ++
      zone ∧ (zone = [] ∨ ∃ z z', zone = '%' :: z ∧ r = '%' :: z') := by
  rcases hr with rfl | rfl | ⟨z, rfl⟩
  · obtain ⟨t, x, rfl⟩ := (eq_nil_or_concat' text).resolve_left hclean.1
    have hx := (hclean.2 x (mem_append_right _ (mem_cons_self ..))).2.2.1
    simpa using hx
  · exact ⟨[], by simp, .inl rfl⟩
  · rcases eq_nil_or_concat' z with rfl | ⟨z', y, rfl⟩
    · exact ⟨['%'], by simp, .inr ⟨[], [], rfl, rfl⟩⟩
    · have hcons : text ++ '%' :: (z' ++ [y]) = text ++ '%' :: z' ++ [y] := by
        rw [append_assoc, cons_append]
      rw [hcons, getLast?_concat, dropLast_concat]
      by_cases hy : some y = some ']'
      · exact ⟨'%' :: z', if_pos hy, .inr ⟨_, _, rfl, rfl⟩⟩
      · exact ⟨'%' :: (z' ++ [y]), by rw [if_neg hy, hcons], .inr ⟨_, _, rfl, rfl⟩⟩

theorem unwrap {before opening text zone closing after : List Char} (hclean : Clean text)
    (hspace : ∀ c ∈ before ++ after, isSpace c = true) (hopening : opening = [] ∨ opening = ['['])
    (hclosing : closing = [] ∨ closing = [']']) (hzone : zone = [] ∨ zone.head? = some '%') :
    ∃ zone', unbracket (trim (before ++ opening ++ text ++ zone ++ closing ++ after)) = text ++
      zone' ∧ (zone' = [] ∨ zone'.head? = some '%') ∧ (zone = [] → zone' = []) := by
  obtain ⟨hbefore, hafter⟩ := forall_mem_append.1 hspace
  obtain ⟨t, x, rfl⟩ := (eq_nil_or_concat' text).resolve_left hclean.1
  have hx := (hclean.2 x (mem_append_right _ (mem_cons_self ..))).1
  have htrim : trim (before ++ opening ++ (t ++ [x]) ++ zone ++ closing ++ after) =
      opening ++ (t ++ [x]) ++ (zone ++ closing ++ after).rdropWhile isSpace := by
    have hdrop : (before ++ opening ++ (t ++ [x]) ++ zone ++ closing ++ after).dropWhile isSpace =
        opening ++ t ++ [x] ++ (zone ++ closing ++ after) := by
      simp only [append_assoc]
      rw [dropWhile_append_of_pos hbefore]
      rcases hopening with rfl | rfl
      · cases t with
        | nil => exact dropWhile_cons_of_neg (by simp [hx])
        | cons c t =>
          have hc := (hclean.2 c (mem_cons_self ..)).1
          exact dropWhile_cons_of_neg (by simp [hc])
      · exact dropWhile_cons_of_neg (by decide)
    rw [trim, hdrop, rdropWhile_append hx, append_assoc opening]
  have hopen : ∀ r, unbracket (opening ++ (t ++ [x]) ++ r) =
      if (t ++ [x] ++ r).getLast? = some ']' then (t ++ [x] ++ r).dropLast else t ++ [x] ++ r := by
    intro r
    rcases hopening with rfl | rfl
    · have hhead : (t ++ [x] ++ r).head? ≠ some '[' := by
        cases t with
        | nil => simpa using (hclean.2 x (mem_cons_self ..)).2.1
        | cons c t => simpa using (hclean.2 c (mem_cons_self ..)).2.1
      rw [nil_append, unbracket, if_neg hhead]
    · rfl
  rw [htrim, hopen]
  rcases rdropWhile_end hafter hzone hclosing with ⟨hnil, hend⟩ | ⟨hne, z, hend⟩
  · rw [hend]
    obtain ⟨zone', heq, hzone'⟩ := unbracket_end hclean (hclosing.imp_right .inl)
    have hnil' : zone' = [] := by
      rcases hzone' with h | ⟨z, z', -, h⟩
      · exact h
      · rcases hclosing with rfl | rfl <;> cases h
    exact ⟨zone', heq, .inl hnil', fun _ => hnil'⟩
  · rw [hend]
    obtain ⟨zone', heq, hzone'⟩ := unbracket_end hclean (.inr (.inr ⟨z, rfl⟩))
    exact ⟨zone', heq, hzone'.imp_right fun ⟨z, _, h, _⟩ => by rw [h]; rfl, fun hnil => absurd hnil hne⟩

variable {text : List Char}

theorem clean_of_chars (hne : text ≠ []) (h : ∀ c ∈ text, IsAddressChar c) : Clean text := by
  have hhex : ∀ c : Char, c.toNat < 128 → isHex c = true → isSpace c = false ∧ c ≠ '[' ∧ c ≠ ']' ∧ c ≠ '%' :=
    ascii_forall (by decide)
  refine ⟨hne, fun c hc => ?_⟩
  rcases h c hc with h | rfl | rfl
  · exact hhex c (isHex_ascii h) h
  · decide
  · decide

theorem clean_v4 {bytes : List Nat} (h : IPv4Text s bytes) : Clean s :=
  clean_of_chars (ne_nil_of_mem h.dot_mem) fun c hc =>
    (h.chars c hc).elim (fun h => .inr (.inr h)) fun h =>
    .inl (isHex_of_digit h)

theorem clean_v6 {bytes : List Nat} (h : IPv6Text s bytes) : Clean s :=
  clean_of_chars (ne_nil_of_mem h.colon_mem) h.chars

theorem Clean.not_percent (h : Clean text) : '%' ∉ text := fun hmem => (h.2 _ hmem).2.2.2 rfl

/-! ## Whole addresses -/

theorem Spells.byte_lt {bytes : List Nat} (h : Spells s bytes) : ∀ b ∈ bytes, b < 256 := by
  cases h with
  | v4 _ _ _ htext | v6 _ _ _ htext _ => exact htext.byte_lt

theorem trim_split (s : List Char) :
    ∃ before after, s = before ++ trim s ++ after ∧ ∀ c ∈ before ++ after, isSpace c = true := by
  refine ⟨s.takeWhile isSpace, (s.dropWhile isSpace).rtakeWhile isSpace, ?_, ?_⟩
  · rw [trim, append_assoc, rdropWhile_append_rtakeWhile, takeWhile_append_dropWhile]
  · exact forall_mem_append.2 ⟨fun c hc => mem_takeWhile_imp hc, fun c hc => mem_rtakeWhile_imp hc⟩

theorem unbracket_split (t : List Char) :
    ∃ opening closing, t = opening ++ unbracket t ++ closing ∧ (opening = [] ∨ opening = ['[']) ∧
      (closing = [] ∨ closing = [']']) := by
  have hopen : ∃ opening, t = opening ++ (if t.head? = some '[' then t.tail else t) ∧
      (opening = [] ∨ opening = ['[']) := by
    split
    case isTrue h =>
      obtain ⟨u, rfl⟩ := head?_eq_some_iff.1 h
      exact ⟨['['], rfl, .inr rfl⟩
    case isFalse => exact ⟨[], rfl, .inl rfl⟩
  obtain ⟨opening, heq, hopening⟩ := hopen
  have hclose : ∀ u : List Char, ∃ closing, u = (if u.getLast? = some ']' then u.dropLast else u) ++
      closing ∧ (closing = [] ∨ closing = [']']) := by
    intro u
    split
    case isTrue h =>
      obtain ⟨v, rfl⟩ := getLast?_eq_some_iff.1 h
      exact ⟨[']'], by rw [dropLast_concat], .inr rfl⟩
    case isFalse => exact ⟨[], (append_nil u).symm, .inl rfl⟩
  obtain ⟨closing, heq', hclosing⟩ := hclose (if t.head? = some '[' then t.tail else t)
  exact ⟨opening, closing, by rw [append_assoc, unbracket, ← heq', ← heq], hopening, hclosing⟩

section

variable {isIP : List Char → Nat} (hip : NetIsIP isIP)

include hip

variable {s : List Char}

theorem isIP_v6 {bytes : List Nat} (h : IPv6Text s bytes) : isIP s = 6 :=
  (hip.v6 s).2 ⟨bytes, s, [], (append_nil s).symm, h, .inl rfl⟩

theorem judged {bytes : List Nat} (h : Spells s bytes) :
    (bytes.length = 4 ∧ isPublicAddress isIP s = isPublicV4 bytes) ∨
      (bytes.length = 16 ∧ parseIPv6 (unbracket (trim s)) = some bytes ∧
        isPublicAddress isIP s = isPublicV6 bytes) := by
  cases h with
  | @v4 before opening text closing after _ hspace hopening hclosing htext =>
    obtain ⟨zone', heq, -, hnil⟩ := unwrap (clean_v4 htext) hspace hopening hclosing (.inl rfl)
    rw [hnil rfl, append_nil, append_nil] at heq
    have htake : text.takeWhile (· != '%') = text := by
      simpa using takeWhile_zone (clean_v4 htext).not_percent (.inl rfl : ([] : List Char) = [] ∨ _)
    refine .inl ⟨htext.length_eq, ?_⟩
    rw [isPublicAddress, heq, htake]
    simp only [(hip.v4 text).2 ⟨bytes, htext⟩, if_true, parseIPv4_of_text htext]
  | @v6 before opening text zone closing after _ hspace hopening hclosing htext hzone =>
    obtain ⟨zone', heq, hzone', -⟩ := unwrap (clean_v6 htext) hspace hopening hclosing hzone
    have hparse := parseIPv6_of_text htext hzone'
    refine .inr ⟨htext.length_eq, by rw [heq, hparse], ?_⟩
    rw [isPublicAddress, heq, takeWhile_zone (clean_v6 htext).not_percent hzone']
    simp only [isIP_v6 hip htext, hparse, Nat.reduceEqDiff, if_false, if_true]

theorem isIP_cases (h : '%' ∉ s) :
    (isIP s = 4 → ∃ bytes, IPv4Text s bytes) ∧ (isIP s = 6 → ∃ bytes, IPv6Text s bytes) := by
  refine ⟨(hip.v4 s).1, fun h6 => ?_⟩
  obtain ⟨bytes, core, zone, rfl, htext, hzone⟩ := (hip.v6 s).1 h6
  rcases hzone with rfl | ⟨c, cs, rfl, -⟩
  · rw [append_nil]
    exact ⟨bytes, htext⟩
  · exact absurd (mem_append_right _ (mem_cons_self ..)) h

theorem spells_of_public (h : isPublicAddress isIP s = true) : ∃ bytes, Spells s bytes := by
  obtain ⟨before, after, hs, hspace⟩ := trim_split s
  obtain ⟨opening, closing, ht, hopening, hclosing⟩ := unbracket_split (trim s)
  have ha := takeWhile_append_dropWhile (p := (· != '%')) (l := unbracket (trim s))
  have hclean : '%' ∉ (unbracket (trim s)).takeWhile (· != '%') := fun hmem =>
    absurd (mem_takeWhile_imp hmem) (by decide)
  have hzone := head?_dropWhile_not (· != '%') (unbracket (trim s))
  obtain ⟨hv4, hv6⟩ := isIP_cases hip hclean
  unfold isPublicAddress at h
  dsimp only at h
  generalize unbracket (trim s) = a at *
  generalize hcore : a.takeWhile (· != '%') = core at *
  generalize a.dropWhile (· != '%') = zone at *
  have hpercent : zone = [] ∨ zone.head? = some '%' := by
    cases zone with
    | nil => exact .inl rfl
    | cons c z => exact .inr (by simpa using hzone)
  rw [ht, ← ha] at hs
  by_cases h4 : isIP core = 4
  · obtain ⟨bytes, htext⟩ := hv4 h4
    -- the IPv4 parser gets the zone too, and takes none
    have hnil : zone = [] := by
      refine hpercent.resolve_right fun hhead => ?_
      have hmem : '%' ∈ a := ha ▸ mem_append_right _ (mem_of_head? hhead)
      rw [if_pos h4, not_parseIPv4 hmem (by decide) (by decide)] at h
      cases h
    rw [hnil, append_nil] at hs
    refine ⟨bytes, ?_⟩
    rw [hs]
    simpa only [append_assoc] using Spells.v4 hspace hopening hclosing htext
  · by_cases h6 : isIP core = 6
    · obtain ⟨bytes, htext⟩ := hv6 h6
      refine ⟨bytes, ?_⟩
      rw [hs]
      simpa only [append_assoc] using Spells.v6 hspace hopening hclosing htext hpercent
    · rw [if_neg h4, if_neg h6] at h
      cases h

theorem isPublicAddress_iff {bytes : List Nat} (h : Spells s bytes) :
    isPublicAddress isIP s = true ↔ Routable bytes := by
  rcases judged hip h with ⟨hlen, heq⟩ | ⟨hlen, -, heq⟩
  · rw [heq, isPublicV4_iff hlen h.byte_lt]
    constructor
    · exact .v4 hlen
    · intro hroutable
      cases hroutable with
      | v4 _ hr => exact hr
      | embedded h16 | v6 h16 => omega
  · rw [heq, isPublicV6_iff hlen h.byte_lt]

/-- The guard sees through every spelling of an address: `parseIPv6` returns the bytes of what
`net.isIP` takes for an IPv6 address, with or without brackets; what is public is the spelling of an
address in none of the ranges, nor is the IPv4 address that it embeds in one; and the spellings of
one address are judged alike. -/
theorem guard_sees_every_spelling :
    (∀ s, isIP s = 6 → ∃ bytes, bytes.length = 16 ∧ IPv6Zoned s bytes ∧
      (∀ bytes', IPv6Zoned s bytes' → bytes' = bytes) ∧ parseIPv6 s = some bytes) ∧
    (∀ s bytes, Spells s bytes → bytes.length = 16 → parseIPv6 (unbracket (trim s)) = some bytes) ∧
    (∀ s, isPublicAddress isIP s = true ↔ ∃ bytes, Spells s bytes ∧ Routable bytes) ∧
    (∀ s t bytes, Spells s bytes → Spells t bytes → isPublicAddress isIP s = isPublicAddress isIP t) ∧
    ∀ s t bytes v4, Spells s bytes → bytes.length = 16 → Embeds bytes v4 → Spells t v4 →
      isPublicAddress isIP s = isPublicAddress isIP t := by
  refine ⟨fun s h6 => ?_, fun s bytes hs hlen => ?_,
    fun s => ⟨fun h => ?_, fun ⟨bytes, hs, hr⟩ => ?_⟩,
    fun s t bytes hs ht => ?_, fun s t bytes v4 hs hlen hv4 ht => ?_⟩
  · have hparse : ∀ bytes, IPv6Zoned s bytes → parseIPv6 s = some bytes := by
      rintro bytes ⟨core, zone, rfl, htext, hzone⟩
      exact parseIPv6_of_text htext (hzone.imp_right fun ⟨c, cs, h, _⟩ => by rw [h]; rfl)
    obtain ⟨bytes, core, zone, hs, htext, hzone⟩ := (hip.v6 s).1 h6
    have hbytes : IPv6Zoned s bytes := ⟨core, zone, hs, htext, hzone⟩
    refine ⟨bytes, htext.length_eq, hbytes, fun bytes' h' => ?_, hparse bytes hbytes⟩
    exact Option.some.inj ((hparse bytes' h').symm.trans (hparse bytes hbytes))
  · rcases judged hip hs with ⟨h4, -⟩ | ⟨-, hparse, -⟩
    · omega
    · exact hparse
  · obtain ⟨bytes, hs⟩ := spells_of_public hip h
    exact ⟨bytes, hs, (isPublicAddress_iff hip hs).1 h⟩
  · exact (isPublicAddress_iff hip hs).2 hr
  · rw [Bool.eq_iff_iff, isPublicAddress_iff hip hs, isPublicAddress_iff hip ht]
  · obtain ⟨h4, -⟩ := Embeds.bytes hv4 hlen
    have hs6 : isPublicAddress isIP s = isPublicV6 bytes := by
      rcases judged hip hs with ⟨h, -⟩ | ⟨-, -, heq⟩
      · omega
      · exact heq
    have ht4 : isPublicAddress isIP t = isPublicV4 v4 := by
      rcases judged hip ht with ⟨-, heq⟩ | ⟨h, -⟩
      · exact heq
      · omega
    rw [hs6, ht4, isPublicV6_embeds hv4]

end

/-! ## `net.isIP` -/

open Classical in
/-- What `net.isIP` is documented to be. -/
noncomputable def isIPText (s : List Char) : Nat :=
  if ∃ bytes, IPv4Text s bytes then 4 else if ∃ bytes, IPv6Zoned s bytes then 6 else 0

theorem netIsIP_isIPText : NetIsIP isIPText := by
  refine ⟨fun s => ⟨fun h => ?_, fun h => if_pos h⟩, fun s => ⟨fun h => ?_, fun h => ?_⟩⟩
  · by_contra hne
    rw [isIPText, if_neg hne] at h
    split at h <;> cases h
  · by_contra hne
    rw [isIPText] at h
    split at h <;> cases h
  · have hne : ¬ ∃ bytes, IPv4Text s bytes := by
      rintro ⟨bytes', htext⟩
      obtain ⟨bytes, core, zone, rfl, hcore, -⟩ := h
      exact IPv4Text.not_colon htext (mem_append_left _ hcore.colon_mem)
    rw [isIPText, if_neg hne, if_pos h]

theorem guard_sees_every_spelling_metadata :
    isPublicAddress isIPText "[::FFFF:a9fe:A9FE%eth0]".toList =
    isPublicAddress isIPText "169.254.169.254".toList := by
  have hright : GroupsOrDotted ["FFFF".toList, "a9fe".toList, "A9FE".toList] [255, 255, 169, 254,
      169, 254] := by
    have hffff : IsGroup "FFFF".toList 65535 := .of_all (by decide) (by decide) (by decide)
    have hlower : IsGroup "a9fe".toList 43518 := .of_all (by decide) (by decide) (by decide)
    have hupper : IsGroup "A9FE".toList 43518 := .of_all (by decide) (by decide) (by decide)
    exact .groups (.cons hffff (.cons hlower (.cons hupper .nil)))
  have hnone : ∀ c ∈ ([] ++ [] : List Char), isSpace c = true := fun c hc => absurd hc not_mem_nil
  have hv6 : Spells ([] ++ ['['] ++ "::FFFF:a9fe:A9FE".toList ++ "%eth0".toList ++ [']'] ++ [])
      ([] ++ replicate 10 0 ++ [255, 255, 169, 254, 169, 254]) :=
    .v6 hnone (.inr rfl) (.inr rfl) (.compressed .nil hright (by decide)) (.inr rfl)
  have htext : "169.254.169.254".toList = dottedText 169 254 169 254 := by decide
  have hv4 : Spells ([] ++ [] ++ "169.254.169.254".toList ++ [] ++ []) [169, 254, 169, 254] :=
    .v4 hnone (.inl rfl) (.inl rfl) ⟨169, 254, 169,
      254, by decide, by decide, by decide, by decide, htext, rfl⟩
  exact (guard_sees_every_spelling netIsIP_isIPText).2.2.2.2 _ _ _ _ hv6 rfl (.mapped _) hv4

end SmartProctoring.NetGuard
