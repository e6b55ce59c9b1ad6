import SmartProctoring.Lib.BitStream
import SmartProctoring.Lib.JsChar

/-!
# Base32 secrets

`lib/totp.ts`, the base32 form in which an authenticator's secret is shown: both loops pass the bits
through one 32-bit number, `value`, that is never masked.  It overflows after a few characters;
`Pending` says that its low `bits` bits are the ones still needed all the same.

* `base32Encode` is the encoding of RFC 4648 without padding (`base32Encode_eq`).
* `base32Decode` reads the bytes back, however the text is spelled (`base32_survives`).
-/

set_option autoImplicit false

namespace SmartProctoring.Totp

open BitStream JsChar
open List

def B32 : List Char := "ABCDEFGHIJKLMNOPQRSTUVWXYZ234567".toList

/-- `B32[v]`. -/
def b32Digit (v : Nat) : Char := B32.getD v 'A'

/-- What both loops carry along. -/
structure Accumulator where
  bits : Nat := 0
  /-- A 32-bit number, as `<<` and `|` leave it. -/
  value : BitVec 32 := 0

/-- The inner loop of `base32Encode`: one character for every five bits; the bits that remain. -/
def emit (value : BitVec 32) : Nat → List Char × Nat
  | bits + 5 =>
    let (out, rest) := emit value bits
    (b32Digit ((value >>> bits) &&& 31).toNat :: out, rest)
  | bits => ([], bits)

/-- One byte of the buffer. -/
def encodeByte (s : List Char × Accumulator) (byte : UInt8) : List Char × Accumulator :=
  let value := s.2.value <<< 8 ||| BitVec.ofNat 32 byte.toNat
  let (out, bits) := emit value (s.2.bits + 8)
  (s.1 ++ out, { bits, value })

def base32Encode (buf : List UInt8) : List Char :=
  let (out, s) := buf.foldl encodeByte ([], {})
  if 0 < s.bits then out ++ [b32Digit ((s.value <<< (5 - s.bits)) &&& 31).toNat] else out

/-- What `base32Decode` takes out of its text. -/
def ignored (c : Char) : Bool := isSpace c || c == '=' || c == '-'

/-- One character of the cleaned text. -/
def decodeChar (s : List UInt8 × Accumulator) (ch : Char) :
    Except String (List UInt8 × Accumulator) :=
  match B32.idxOf? ch with
  | none => .error "invalid base32"
  | some i =>
    let value := s.2.value <<< 5 ||| BitVec.ofNat 32 i
    let bits := s.2.bits + 5
    if 8 ≤ bits then
      .ok (s.1 ++ [UInt8.ofNat ((value >>> (bits - 8)) &&& 255).toNat], { bits := bits - 8, value })
    else .ok (s.1, { bits, value })

/-- Decodes base32 (case-insensitive; spaces, dashes and `=` padding ignored).  Throws on other
characters. -/
def base32Decode (upper : Char → List Char) (s : List Char) : Except String (List UInt8) :=
  let clean := (s.flatMap upper).filter fun c => !ignored c
  (clean.foldlM decodeChar ([], {})).map (·.1)

/-! ## The encoding of RFC 4648 -/

/-- The eight bits of a byte. -/
def byteBits (byte : UInt8) : List Bool := toBits 8 byte.toNat

/-- RFC 4648, section 6, without padding: the stream of bits, filled up with zeros, in groups of
five. -/
def rfc4648 (buf : List UInt8) : List Char :=
  (groups 5 (fillUp 5 (buf.flatMap byteBits))).map fun g => b32Digit (ofBits g)

@[simp] theorem length_byteBits (byte : UInt8) : (byteBits byte).length = 8 :=
  length_toBits 8 byte.toNat

theorem ofBits_byteBits (byte : UInt8) : UInt8.ofNat (ofBits (byteBits byte)) = byte := by
  rw [byteBits, ofBits_toBits, Nat.mod_eq_of_lt byte.toNat_lt, UInt8.ofNat_toNat]

theorem shifted_and_mask (value : BitVec 32) (n k : Nat) (hk : k ≤ 8) :
    ((value >>> n) &&& BitVec.ofNat 32 (2 ^ k - 1)).toNat = value.toNat / 2 ^ n % 2 ^ k := by
  have hmask : (2 ^ k - 1) % 2 ^ 32 = 2 ^ k - 1 := by
    have hle : 2 ^ k ≤ 2 ^ 8 := Nat.pow_le_pow_right (by decide) hk
    exact Nat.mod_eq_of_lt (by omega)
  rw [BitVec.toNat_and, BitVec.toNat_ofNat, hmask, Nat.and_two_pow_sub_one_eq_mod,
    BitVec.toNat_ushiftRight,
    Nat.shiftRight_eq_div_pow]

theorem emit_eq {value : BitVec 32} {bits : List Bool} (h : Pending value bits) :
    emit value bits.length =
      ((groups 5 bits).map (fun g => b32Digit (ofBits g)), (leftover 5 bits).length) := by
  induction bits using groups_induction (k := 5) (by decide) with
  | short bits hs =>
    rw [groups_short hs, leftover_short hs]
    unfold emit
    split
    · omega
    · rfl
  | group g bits hg ih =>
    rw [groups_group (by decide) hg, leftover_group (by decide) hg, length_append, hg, Nat.add_comm, emit,
      ih h.drop, map_cons]
    have hread := h.readOut
    rw [hg] at hread
    rw [show (31 : BitVec 32) = BitVec.ofNat 32 (2 ^ 5 - 1) from rfl,
      shifted_and_mask _ _ 5 (by decide), hread]

theorem encodeByte_foldl (buf : List UInt8) :
    ∃ value : BitVec 32, buf.foldl encodeByte ([], {}) =
        ((groups 5 (buf.flatMap byteBits)).map (fun g => b32Digit (ofBits g)),
          ⟨(leftover 5 (buf.flatMap byteBits)).length, value⟩) ∧
      Pending value (leftover 5 (buf.flatMap byteBits)) := by
  induction buf using reverseRecOn with
  | nil =>
    rw [groups_short (by decide), leftover_short (by decide)]
    exact ⟨0, rfl, .nil 0⟩
  | append_singleton buf byte ih =>
    obtain ⟨value, hfold, hpend⟩ := ih
    have hlt := length_leftover_lt (k := 5) (by decide) (buf.flatMap byteBits)
    have hnext : Pending (value <<< 8 ||| BitVec.ofNat 32 byte.toNat)
        (leftover 5 (buf.flatMap byteBits) ++ byteBits byte) :=
      hpend.shiftIn byte.toNat_lt (by omega)
    have hemit := emit_eq hnext
    rw [length_append, length_byteBits] at hemit
    rw [← flatten_groups (k := 5) (by decide) (leftover 5 (buf.flatMap byteBits) ++ byteBits byte)] at hnext
    refine ⟨_, ?_, by
      rw [flatMap_append, flatMap_singleton, leftover_append (by decide)]
      exact hnext.drop⟩
    rw [foldl_append, hfold, foldl_cons, foldl_nil, flatMap_append, flatMap_singleton,
      groups_append (by decide), leftover_append (by decide), map_append]
    simp only [encodeByte, hemit]

/-- **`base32Encode` is the encoding of RFC 4648**, without padding. -/
theorem base32Encode_eq (buf : List UInt8) : base32Encode buf = rfc4648 buf := by
  obtain ⟨value, hfold, hpend⟩ := encodeByte_foldl buf
  have hlt := length_leftover_lt (k := 5) (by decide) (buf.flatMap byteBits)
  have hpos : 0 < (leftover 5 (buf.flatMap byteBits)).length ↔
      leftover 5 (buf.flatMap byteBits) ≠ [] := length_pos_iff
  generalize hrest : leftover 5 (buf.flatMap byteBits) = rest at hfold hpend hlt hpos
  simp only [base32Encode, hfold]
  rw [rfc4648, fillUp, hrest]
  split
  next hbits =>
    -- the last character: the bits that are left, followed by zeros
    have hfill : (rest ++ replicate (5 - rest.length) false).length = 5 := by
      rw [length_append, length_replicate]
      omega
    have hlast := hpend.shiftIn (k := 5 - rest.length) (x := 0) (Nat.two_pow_pos _) (by omega)
    rw [toBits_zero, BitVec.or_zero, Pending, hfill] at hlast
    have hmask := shifted_and_mask (value <<< (5 - rest.length)) 0 5 (by decide)
    rw [BitVec.ushiftRight_zero, pow_zero, Nat.div_one, hlast] at hmask
    rw [if_neg (hpos.1 hbits), groups_append (by decide), hrest, map_append,
      show (31 : BitVec 32) = BitVec.ofNat 32 (2 ^ 5 - 1) from rfl, hmask]
    congr 1
    rw [← append_nil (rest ++ _), groups_group (by decide) hfill, groups_short (by decide), append_nil]
    rfl
  next hbits => rw [if_pos (by_contra fun h => hbits (hpos.2 h))]

/-! ## Reading the bytes back -/

/-- The stream of bits that characters of the alphabet stand for. -/
def digitBits (digits : List Nat) : List Bool := digits.flatMap (toBits 5)

theorem idxOf?_b32Digit : ∀ d < 32, B32.idxOf? (b32Digit d) = some d := by decide

theorem decodeChar_foldlM (digits : List Nat) (h : ∀ d ∈ digits, d < 32) :
    ∃ value : BitVec 32, (digits.map b32Digit).foldlM decodeChar ([], {}) =
        .ok ((groups 8 (digitBits digits)).map (fun g => UInt8.ofNat (ofBits g)),
          ⟨(leftover 8 (digitBits digits)).length, value⟩) ∧
      Pending value (leftover 8 (digitBits digits)) := by
  induction digits using reverseRecOn with
  | nil =>
    rw [groups_short (by decide), leftover_short (by decide)]
    exact ⟨0, rfl, .nil 0⟩
  | append_singleton digits d ih =>
    obtain ⟨value, hfold, hpend⟩ := ih fun x hx => h x (mem_append_left _ hx)
    have hd : d < 2 ^ 5 := h d (mem_append_right _ (mem_singleton_self d))
    have hlt := length_leftover_lt (k := 8) (by decide) (digitBits digits)
    have hbits : digitBits (digits ++ [d]) = digitBits digits ++ toBits 5 d := by
      rw [digitBits, flatMap_append, flatMap_singleton, digitBits]
    generalize hrest : leftover 8 (digitBits digits) = rest at hfold hpend hlt
    have hnext : Pending (value <<< 5 ||| BitVec.ofNat 32 d) (rest ++ toBits 5 d) :=
      hpend.shiftIn hd (by omega)
    rw [map_append, foldlM_append, hfold, hbits, groups_append (by decide),
      leftover_append (by decide), hrest]
    refine ⟨value <<< 5 ||| BitVec.ofNat 32 d, ?_⟩
    simp only [Except.bind, bind, map_cons, map_nil, foldlM_cons, foldlM_nil, decodeChar,
      idxOf?_b32Digit d hd]
    by_cases h8 : 8 ≤ rest.length + 5
    · rw [if_pos h8]
      -- eight bits are there: the first of them are a byte
      have hgroup : 8 ≤ (rest ++ toBits 5 d).length := by rwa [length_append]
      obtain ⟨g, more, hsplit, hg⟩ := exists_group hgroup
      have hlen := congrArg length hsplit
      rw [length_append, length_toBits, length_append] at hlen
      rw [hsplit] at hnext ⊢
      have hmore : more.length < 8 := by omega
      have hread := hnext.readOut
      rw [hg] at hread
      rw [groups_group (by decide) hg, leftover_group (by decide) hg, groups_short hmore,
        leftover_short hmore,
        show rest.length + 5 - 8 = more.length by omega,
          show (255 : BitVec 32) = BitVec.ofNat 32 (2 ^ 8 - 1) from rfl,
        shifted_and_mask _ _ 8 (by decide), hread, map_append]
      exact ⟨rfl, hnext.drop⟩
    · rw [if_neg h8]
      have hshort : (rest ++ toBits 5 d).length < 8 := by
        rw [length_append, length_toBits]
        omega
      rw [groups_short hshort, leftover_short hshort, append_nil, length_append]
      exact ⟨rfl, hnext⟩

/-- The digits of the encoding. -/
def digitsOf (buf : List UInt8) : List Nat :=
  (groups 5 (fillUp 5 (buf.flatMap byteBits))).map ofBits

theorem digitsOf_lt (buf : List UInt8) : ∀ d ∈ digitsOf buf, d < 32 := by
  intro d hd
  obtain ⟨g, hg, rfl⟩ := mem_map.1 hd
  have hlt := ofBits_lt g
  rwa [length_of_mem_groups (by decide) hg] at hlt

theorem digitBits_digitsOf (buf : List UInt8) :
    ∃ n < 5, digitBits (digitsOf buf) = buf.flatMap byteBits ++ replicate n false := by
  obtain ⟨n, hn, hfill, hrest⟩ := fillUp_eq (k := 5) (by decide) (buf.flatMap byteBits)
  refine ⟨n, hn, ?_⟩
  have hbits : ∀ g ∈ groups 5 (fillUp 5 (buf.flatMap byteBits)), toBits 5 (ofBits g) = g := by
    intro g hg
    have hround := toBits_ofBits g
    rwa [length_of_mem_groups (by decide) hg] at hround
  have hflat := flatten_groups (k := 5) (by decide) (fillUp 5 (buf.flatMap byteBits))
  rw [hrest, append_nil] at hflat
  calc digitBits (digitsOf buf)
      = ((groups 5 (fillUp 5 (buf.flatMap byteBits))).map fun g => toBits 5 (ofBits g)).flatten := by
        rw [digitBits, digitsOf, flatMap_map, flatMap_def]
    _ = (groups 5 (fillUp 5 (buf.flatMap byteBits))).flatten := by rw [map_congr_left hbits, map_id']
    _ = buf.flatMap byteBits ++ replicate n false := by rw [hflat, hfill]

/-! ## Spellings -/

/-- The same text with letters in either case and with characters put in that `base32Decode` takes
out. -/
inductive Respelled : List Char → List Char → Prop
  | nil : Respelled [] []
  | keep (c : Char) {s t : List Char} : Respelled s t → Respelled (c :: s) (c :: t)
  | recase (c d : Char) {s t : List Char} (hc : c.toNat < 128) (h : d = c.toUpper ∨ d = c.toLower) :
      Respelled s t → Respelled (c :: s) (d :: t)
  | insert (c : Char) {s t : List Char} (h : ignored c = true) : Respelled s t → Respelled s (c :: t)

section

variable {upper : Char → List Char} (hupper : ToUpperCase upper)
include hupper

theorem upper_ignored {c : Char} (h : ignored c = true) : upper c = [c] := by
  rw [ignored, Bool.or_eq_true, Bool.or_eq_true, beq_iff_eq, beq_iff_eq] at h
  rcases h with (h | rfl) | rfl
  · exact hupper.space c h
  · exact hupper.ascii '=' (by decide)
  · exact hupper.ascii '-' (by decide)

theorem upper_recase {c d : Char} (hc : c.toNat < 128) (h : d = c.toUpper ∨ d = c.toLower) :
    upper d = upper c := by
  obtain ⟨⟨hup, hupup⟩, hlow, hlowup⟩ := recase_ascii c hc
  rcases h with rfl | rfl
  · rw [hupper.ascii _ hup, hupper.ascii _ hc, hupup]
  · rw [hupper.ascii _ hlow, hupper.ascii _ hc, hlowup]

theorem base32Decode_respelled {s t : List Char} (h : Respelled s t) :
    base32Decode upper t = base32Decode upper s := by
  have hclean : (t.flatMap upper).filter (fun c => !ignored c) = (s.flatMap upper).filter (fun c =>
      !ignored c) := by
    induction h with
    | nil => rfl
    | keep c _ ih => rw [flatMap_cons, flatMap_cons, filter_append, filter_append, ih]
    | recase c d hc h _ ih =>
      rw [flatMap_cons, flatMap_cons, filter_append, filter_append, ih, upper_recase hupper hc h]
    | insert c h _ ih =>
      rw [flatMap_cons, filter_append, ih, upper_ignored hupper h, filter_singleton, h]
      rfl
  rw [base32Decode, base32Decode]
  simp only [hclean]

theorem base32Decode_digits {digits : List Nat} (h : ∀ d ∈ digits, d < 32) :
    base32Decode upper (digits.map b32Digit) =
      .ok ((groups 8 (digitBits digits)).map fun g => UInt8.ofNat (ofBits g)) := by
  have hdigit : ∀ d < 32, (b32Digit d).toNat < 128 ∧ (b32Digit d).toUpper = b32Digit d ∧
      ignored (b32Digit d) = false := by
    decide
  have hclean : ((digits.map b32Digit).flatMap upper).filter (fun c => !ignored c) = digits.map b32Digit := by
    induction digits with
    | nil => rfl
    | cons d digits ih =>
      obtain ⟨hascii, hup, hkeep⟩ := hdigit d (h d (mem_cons_self ..))
      rw [map_cons, flatMap_cons, filter_append, ih fun x hx => h x (mem_cons_of_mem _ hx),
        hupper.ascii _ hascii, hup, filter_singleton, hkeep]
      rfl
  obtain ⟨value, hfold, -⟩ := decodeChar_foldlM digits h
  rw [base32Decode]
  simp only [hclean, hfold]
  rfl

theorem base32Decode_base32Encode (buf : List UInt8) :
    base32Decode upper (base32Encode buf) = .ok buf := by
  obtain ⟨n, hn, hbits⟩ := digitBits_digitsOf buf
  have hencode : base32Encode buf = (digitsOf buf).map b32Digit := by
    rw [base32Encode_eq, digitsOf, map_map]
    rfl
  have hshort : (replicate n false).length < 8 := by
    rw [length_replicate]
    omega
  rw [hencode, base32Decode_digits hupper (digitsOf_lt buf), hbits,
    groups_flatMap (by decide) byteBits length_byteBits, groups_short hshort, append_nil, map_map]
  have hbytes : ∀ byte ∈ buf, ((fun g => UInt8.ofNat (ofBits g)) ∘ byteBits) byte = byte :=
    fun byte _ =>
    ofBits_byteBits byte
  rw [map_congr_left hbytes, map_id']

/-- **Base32 survives the 32-bit accumulator.** -/
theorem base32_survives :
    (∀ buf : List UInt8, base32Encode buf = rfc4648 buf ∧ base32Decode upper (base32Encode buf) = .ok buf) ∧
    ∀ s t : List Char, Respelled s t → base32Decode upper t = base32Decode upper s :=
  ⟨fun buf => ⟨base32Encode_eq buf, base32Decode_base32Encode hupper buf⟩,
    fun _ _ => base32Decode_respelled hupper⟩

end

theorem toUpperCase_ascii : ToUpperCase fun c => [c.toUpper] where
  ascii _ _ := rfl
  space c hc := by
    have hnot : ¬ ('a'.val ≤ c.val ∧ c.val ≤ 'z'.val) := by
      intro h
      have hrange : 97 ≤ c.toNat ∧ c.toNat ≤ 122 := h
      rw [isSpace, Bool.or_eq_true, decide_eq_true_eq, decide_eq_true_eq] at hc
      simp only [mem_cons, not_mem_nil, or_false] at hc
      omega
    exact congrArg (fun u => [u]) (dif_neg hnot)

/-- `foobar`, and its encoding as a person may type it. -/
theorem base32_survives_foobar :
    base32Encode [102, 111, 111, 98, 97, 114] = rfc4648 [102, 111, 111, 98, 97, 114] ∧
    base32Decode (fun c => [c.toUpper]) "mzxw 6ytb-oi==".toList =
      base32Decode (fun c => [c.toUpper]) "MZXW6YTBOI".toList := by
  have h := base32_survives toUpperCase_ascii
  refine ⟨(h.1 _).1, h.2 _ _ ?_⟩
  have recase (c d : Char) {s t : List Char} (hc : c.toNat < 128) (hd : d = c.toLower)
      (h : Respelled s t) : Respelled (c :: s) (d :: t) := .recase c d hc (.inr hd) h
  refine recase 'M' _ (by decide) rfl <| recase 'Z' _ (by decide) rfl <|
    recase 'X' _ (by decide) rfl <|
    recase 'W' _ (by decide) rfl <| .insert ' ' (by decide) <| .keep '6' <|
    recase 'Y' _ (by decide) rfl <|
    recase 'T' _ (by decide) rfl <| recase 'B' _ (by decide) rfl <| .insert '-' (by decide) <|
    recase 'O' _ (by decide) rfl <| recase 'I' _ (by decide) rfl <| .insert '=' (by decide) <|
    .insert '=' (by decide) .nil

end SmartProctoring.Totp
