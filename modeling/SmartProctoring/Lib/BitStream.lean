import Mathlib.Data.List.Induction
import Mathlib.Tactic.Ring

/-!
# Bit streams

A number as its bits, the most significant first (`toBits`, `ofBits`), and a stream of bits cut into
groups of one size (`groups`), with what is left over for the bits that come later (`leftover`).

Two machines read such a stream through an accumulator: the bits not yet read are the low bits of a
word of limited size, whatever the bits above them are (`Pending`).  Bits are shifted in below and
read from above, and both are exact as long as the bits not yet read fit in the word.
-/

set_option autoImplicit false

namespace BitStream

open List

/-! ## Bits of a number -/

/-- The number that bits stand for. -/
def ofBits (bits : List Bool) : Nat := bits.foldl (fun n b => 2 * n + b.toNat) 0

/-- The low `k` bits of a number. -/
def toBits : Nat → Nat → List Bool
  | 0, _ => []
  | k + 1, n => toBits k (n / 2) ++ [decide (n % 2 = 1)]

@[simp] theorem length_toBits (k n : Nat) : (toBits k n).length = k := by
  induction k generalizing n with
  | zero => rfl
  | succ k ih => rw [toBits, length_append, ih, length_singleton]

theorem ofBits_concat (bits : List Bool) (b : Bool) :
    ofBits (bits ++ [b]) = 2 * ofBits bits + b.toNat := by
  rw [ofBits, foldl_append]
  rfl

theorem ofBits_append (bits more : List Bool) :
    ofBits (bits ++ more) = ofBits bits * 2 ^ more.length + ofBits more := by
  induction more using reverseRecOn with
  | nil => simp [ofBits]
  | append_singleton more b ih =>
    rw [← append_assoc, ofBits_concat, ofBits_concat, ih, length_append, length_singleton]
    ring

theorem ofBits_lt (bits : List Bool) : ofBits bits < 2 ^ bits.length := by
  induction bits using reverseRecOn with
  | nil => decide
  | append_singleton bits b ih =>
    have hb : b.toNat ≤ 1 := Bool.toNat_le b
    rw [ofBits_concat, length_append, length_singleton]
    omega

theorem ofBits_toBits (k n : Nat) : ofBits (toBits k n) = n % 2 ^ k := by
  induction k generalizing n with
  | zero => simp [toBits, ofBits, Nat.mod_one]
  | succ k ih =>
    have hbit : (decide (n % 2 = 1)).toNat = n % 2 := by
      rcases Nat.mod_two_eq_zero_or_one n with h | h <;> simp [h]
    rw [toBits, ofBits_concat, ih, pow_succ, Nat.mul_comm (2 ^ k) 2, Nat.mod_mul]
    omega

theorem toBits_ofBits (bits : List Bool) : toBits bits.length (ofBits bits) = bits := by
  induction bits using reverseRecOn with
  | nil => rfl
  | append_singleton bits b ih =>
    have hdiv : (2 * ofBits bits + b.toNat) / 2 = ofBits bits := by
      have := Bool.toNat_le b
      omega
    have hbit : decide ((2 * ofBits bits + b.toNat) % 2 = 1) = b := by
      cases b <;> simp
    rw [length_append, length_singleton, toBits, ofBits_concat, hdiv, ih, hbit]

theorem toBits_zero (k : Nat) : toBits k 0 = replicate k false := by
  induction k with
  | zero => rfl
  | succ k ih => rw [toBits, ih, replicate_succ']; rfl

/-! ## Groups -/

/-- The full groups of `k` bits, in order. -/
def groups (k : Nat) (bits : List Bool) : List (List Bool) :=
  if 0 < k ∧ k ≤ bits.length then bits.take k :: groups k (bits.drop k) else []
termination_by bits.length
decreasing_by
  rw [List.length_drop]
  omega

/-- The bits after the last full group. -/
def leftover (k : Nat) (bits : List Bool) : List Bool :=
  if 0 < k ∧ k ≤ bits.length then leftover k (bits.drop k) else bits
termination_by bits.length
decreasing_by
  rw [List.length_drop]
  omega

variable {k : Nat} {bits : List Bool}

theorem groups_short (h : bits.length < k) : groups k bits = [] := by
  rw [groups, if_neg (by omega)]

theorem leftover_short (h : bits.length < k) : leftover k bits = bits := by
  rw [leftover, if_neg (by omega)]

variable {group : List Bool}

theorem groups_group (hk : 0 < k) (h : group.length = k) (bits : List Bool) :
    groups k (group ++ bits) = group :: groups k bits := by
  rw [groups, if_pos ⟨hk, by rw [length_append]; omega⟩, take_left' h, drop_left' h]

theorem leftover_group (hk : 0 < k) (h : group.length = k) (bits : List Bool) :
    leftover k (group ++ bits) = leftover k bits := by
  rw [leftover, if_pos ⟨hk, by rw [length_append]; omega⟩, drop_left' h]

theorem exists_group (h : k ≤ bits.length) :
    ∃ group more, bits = group ++ more ∧ group.length = k :=
  ⟨bits.take k, bits.drop k, (take_append_drop k bits).symm, length_take_of_le h⟩

theorem groups_induction (hk : 0 < k) {motive : List Bool → Prop}
    (short : ∀ bits, bits.length < k → motive bits)
    (group : ∀ group bits, group.length = k → motive bits → motive (group ++ bits))
    (bits : List Bool) : motive bits := by
  induction hn : bits.length using Nat.strong_induction_on generalizing bits with
  | _ n ih =>
    rcases Nat.lt_or_ge bits.length k with h | h
    · exact short bits h
    · obtain ⟨g, more, rfl, hg⟩ := exists_group h
      rw [length_append] at hn
      exact group g more hg (ih more.length (by omega) more rfl)

theorem length_leftover_lt (hk : 0 < k) (bits : List Bool) : (leftover k bits).length < k := by
  induction bits using groups_induction hk with
  | short bits h => rwa [leftover_short h]
  | group g bits hg ih => rwa [leftover_group hk hg]

theorem groups_append (hk : 0 < k) (bits more : List Bool) :
    groups k (bits ++ more) = groups k bits ++ groups k (leftover k bits ++ more) := by
  induction bits using groups_induction hk with
  | short bits h => rw [groups_short h, leftover_short h, nil_append]
  | group g bits hg ih =>
    rw [append_assoc, groups_group hk hg, groups_group hk hg, leftover_group hk hg, ih, cons_append]

theorem leftover_append (hk : 0 < k) (bits more : List Bool) :
    leftover k (bits ++ more) = leftover k (leftover k bits ++ more) := by
  induction bits using groups_induction hk with
  | short bits h => rw [leftover_short h]
  | group g bits hg ih => rw [append_assoc, leftover_group hk hg, leftover_group hk hg, ih]

theorem flatten_groups (hk : 0 < k) (bits : List Bool) :
    (groups k bits).flatten ++ leftover k bits = bits := by
  induction bits using groups_induction hk with
  | short bits h => rw [groups_short h, leftover_short h, flatten_nil, nil_append]
  | group g bits hg ih =>
    rw [groups_group hk hg, leftover_group hk hg, flatten_cons, append_assoc, ih]

theorem length_of_mem_groups (hk : 0 < k) {bits g : List Bool} (h : g ∈ groups k bits) :
    g.length = k := by
  induction bits using groups_induction hk with
  | short bits hs =>
    rw [groups_short hs] at h
    exact absurd h not_mem_nil
  | group g' bits hg ih =>
    rw [groups_group hk hg, mem_cons] at h
    rcases h with rfl | h
    · exact hg
    · exact ih h

theorem groups_flatMap {α : Type*} (hk : 0 < k) (write : α → List Bool)
    (hlen : ∀ a, (write a).length = k)
    (l : List α) (more : List Bool) :
    groups k (l.flatMap write ++ more) = l.map write ++ groups k more := by
  induction l with
  | nil => rfl
  | cons a l ih =>
    rw [flatMap_cons, append_assoc, groups_group hk (hlen a), ih, map_cons, cons_append]

/-- The last group of a stream is filled up with zeros. -/
def fillUp (k : Nat) (bits : List Bool) : List Bool :=
  if leftover k bits = [] then bits else bits ++ List.replicate (k - (leftover k bits).length) false

theorem fillUp_eq (hk : 0 < k) (bits : List Bool) :
    ∃ n < k, fillUp k bits = bits ++ replicate n false ∧ leftover k (fillUp k bits) = [] := by
  rw [fillUp]
  split
  next h => exact ⟨0, hk, (append_nil bits).symm, h⟩
  next h =>
    have hpos := length_pos_iff.2 h
    have hlt := length_leftover_lt hk bits
    have hfull : (leftover k bits ++ replicate (k - (leftover k bits).length) false).length = k := by
      rw [length_append, length_replicate]
      omega
    refine ⟨k - (leftover k bits).length, by omega, rfl, ?_⟩
    rw [leftover_append hk, ← append_nil (leftover k bits ++ _), leftover_group hk hfull, leftover_short hk]

/-! ## Reading a stream through a word -/

variable {w : Nat}

/-- The low bits of the word are the bits not yet read. -/
def Pending (value : BitVec w) (bits : List Bool) : Prop :=
  value.toNat % 2 ^ bits.length = ofBits bits

theorem Pending.nil (value : BitVec w) : Pending value [] := by
  rw [Pending, length_nil, pow_zero, Nat.mod_one]
  rfl

variable {value : BitVec w}

theorem Pending.shiftIn (h : Pending value bits) {k x : Nat} (hx : x < 2 ^ k)
    (hfit : bits.length + k ≤ w) : Pending (value <<< k ||| BitVec.ofNat w x)
    (bits ++ toBits k x) := by
  have hxw : x < 2 ^ w := hx.trans_le (Nat.pow_le_pow_right (by decide) (by omega))
  have hword : 2 ^ w = 2 ^ k * 2 ^ (w - k) := by rw [← pow_add, Nat.add_sub_cancel' (by omega)]
  have hvalue : (value <<< k ||| BitVec.ofNat w x).toNat = 2 ^ k * (value.toNat % 2 ^ (w - k)) + x := by
    rw [BitVec.toNat_or, BitVec.toNat_shiftLeft, BitVec.toNat_ofNat, Nat.mod_eq_of_lt hxw, Nat.shiftLeft_eq,
      Nat.mul_comm value.toNat, hword, Nat.mul_mod_mul_left, Nat.two_pow_add_eq_or_of_lt hx]
  have hlow : value.toNat % 2 ^ (w - k) % 2 ^ bits.length = ofBits bits := by
    rw [Nat.mod_mod_of_dvd _ (pow_dvd_pow 2 (by omega))]
    exact h
  rw [Pending, hvalue, length_append, length_toBits, Nat.add_comm bits.length, pow_add, Nat.mod_mul,
    Nat.mul_add_mod, Nat.mod_eq_of_lt hx, Nat.mul_add_div (Nat.two_pow_pos k), Nat.div_eq_of_lt hx,
    Nat.add_zero, hlow, ofBits_append, ofBits_toBits, length_toBits, Nat.mod_eq_of_lt hx]
  ring

theorem Pending.readOut {group more : List Bool} (h : Pending value (group ++ more)) :
    value.toNat / 2 ^ more.length % 2 ^ group.length = ofBits group := by
  have hlt := ofBits_lt more
  rw [Pending, length_append, Nat.add_comm, pow_add] at h
  rw [← Nat.mod_mul_right_div_self, h, ofBits_append, Nat.mul_comm,
    Nat.mul_add_div (Nat.two_pow_pos _),
    Nat.div_eq_of_lt hlt, Nat.add_zero]

theorem Pending.drop {group more : List Bool} (h : Pending value (group ++ more)) :
    Pending value more := by
  rw [Pending, length_append, Nat.add_comm, pow_add] at h
  have hmod := congrArg (· % 2 ^ more.length) h
  simp only [Nat.mod_mul_right_mod] at hmod
  rw [Pending, hmod, ofBits_append, Nat.mul_comm, Nat.mul_add_mod,
    Nat.mod_eq_of_lt (ofBits_lt more)]

end BitStream
