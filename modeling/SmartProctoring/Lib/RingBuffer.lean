import Mathlib.Data.List.Rotate
import Mathlib.Data.Nat.ModEq

/-!
# Ring buffers

A queue kept in an array that is used as a ring: the oldest entry is at `head`, and the entries wrap
around the end.  When it is full the entries move to an array of twice the size.  `toList` is what
the queue holds, and the rules say that the operations are those of a queue, wherever the head is
and however often the array grew.
-/

set_option autoImplicit false

universe u

structure RingBuffer (α : Type u) where
  slots : List α
  /-- The slot of the oldest entry. -/
  head : Nat
  len : Nat
  head_lt : head < slots.length
  len_le : len ≤ slots.length

namespace RingBuffer

open List

variable {α : Type u} (r : RingBuffer α)

/-- What the queue holds, the oldest first. -/
def toList : List α := (r.slots.rotate r.head).take r.len

@[simp] theorem length_toList : r.toList.length = r.len := by
  rw [toList, length_take, length_rotate]
  exact Nat.min_eq_left r.len_le

theorem getElem?_toList {i : Nat} (hi : i < r.len) :
    r.toList[i]? = r.slots[(i + r.head) % r.slots.length]? := by
  rw [toList, getElem?_take_of_lt hi, getElem?_rotate (hi.trans_le r.len_le)]

/-- A queue without entries. -/
def new [Inhabited α] (capacity : Nat) (h : 0 < capacity) : RingBuffer α where
  slots := List.replicate capacity default
  head := 0
  len := 0
  head_lt := by simpa using h
  len_le := Nat.zero_le _

/-- The entries in the first slots of an array of twice the size. -/
def grow [Inhabited α] : RingBuffer α where
  slots := r.slots.rotate r.head ++ List.replicate r.slots.length default
  head := 0
  len := r.len
  head_lt := by
    have := r.head_lt
    simp
    omega
  len_le := by
    have := r.len_le
    simp
    omega

/-- The entry in the slot behind the newest one; there is one. -/
def put (x : α) (h : r.len < r.slots.length) : RingBuffer α where
  slots := r.slots.set ((r.head + r.len) % r.slots.length) x
  head := r.head
  len := r.len + 1
  head_lt := by simpa using r.head_lt
  len_le := by
    rw [List.length_set]
    exact h

theorem len_grow_lt [Inhabited α] (h : r.slots.length = r.len) :
    r.grow.len < r.grow.slots.length := by
  have hpos := r.head_lt
  simp only [grow, length_append, length_rotate, length_replicate]
  omega

def push [Inhabited α] (x : α) : RingBuffer α :=
  if h : r.len = r.slots.length then r.grow.put x (r.len_grow_lt h.symm)
  else r.put x (Nat.lt_of_le_of_ne r.len_le h)

/-- The oldest entry. -/
def head? : Option α := if r.len = 0 then none else r.slots[r.head]?

/-- The queue without the oldest entry. -/
def pop : RingBuffer α where
  slots := r.slots
  head := (r.head + 1) % r.slots.length
  len := r.len - 1
  head_lt := Nat.mod_lt _ (Nat.zero_lt_of_lt r.head_lt)
  len_le := (Nat.sub_le _ _).trans r.len_le

def clear : RingBuffer α where
  slots := r.slots
  head := 0
  len := 0
  head_lt := Nat.zero_lt_of_lt r.head_lt
  len_le := Nat.zero_le _

/-! ## The operations are those of a queue -/

@[simp] theorem toList_grow [Inhabited α] : r.grow.toList = r.toList := by
  rw [toList, toList, grow, rotate_zero, take_append_of_le_length]
  rw [length_rotate]
  exact r.len_le

theorem toList_put (x : α) (h : r.len < r.slots.length) : (r.put x h).toList = r.toList ++ [x] := by
  have hpos := Nat.zero_lt_of_lt r.head_lt
  refine ext_getElem? fun i => ?_
  rcases Nat.lt_trichotomy i r.len with hi | rfl | hi
  · rw [getElem?_toList _ (Nat.lt_succ_of_lt hi), getElem?_append_left (by simpa using hi),
      getElem?_toList _ hi]
    -- the entries there were are in other slots
    have hne : (r.head + r.len) % r.slots.length ≠ (i + r.head) % r.slots.length := by
      intro he
      rw [Nat.add_comm i] at he
      have hmod : r.len % r.slots.length = i % r.slots.length := Nat.ModEq.add_left_cancel' r.head he
      rw [Nat.mod_eq_of_lt h, Nat.mod_eq_of_lt (hi.trans h)] at hmod
      omega
    simp only [put, length_set]
    rw [getElem?_set_ne hne]
  · rw [getElem?_toList _ (Nat.lt_succ_self _), getElem?_append_right (by simp)]
    simp only [put, length_set, length_toList, Nat.sub_self]
    rw [Nat.add_comm r.len, getElem?_set_self (Nat.mod_lt _ hpos)]
    rfl
  · rw [getElem?_eq_none, getElem?_eq_none]
    · rw [length_append, length_toList, length_singleton]
      omega
    · rw [length_toList]
      exact hi

@[simp] theorem toList_push [Inhabited α] (x : α) : (r.push x).toList = r.toList ++ [x] := by
  rw [push]
  split
  · rw [toList_put, toList_grow]
  · exact toList_put r x _

@[simp] theorem head?_toList : r.toList.head? = r.head? := by
  rw [head?_eq_getElem?, head?]
  split
  next h0 => rw [getElem?_eq_none (by simp [h0])]
  next h0 => rw [getElem?_toList _ (Nat.pos_of_ne_zero h0), Nat.zero_add,
    Nat.mod_eq_of_lt r.head_lt]

@[simp] theorem toList_pop : r.pop.toList = r.toList.tail := by
  refine ext_getElem? fun i => ?_
  rw [getElem?_tail]
  by_cases hi : i + 1 < r.len
  · rw [getElem?_toList _ (show i < r.len - 1 by omega), getElem?_toList _ hi]
    simp only [pop]
    rw [Nat.add_mod_mod, Nat.add_right_comm, Nat.add_assoc]
  · rw [getElem?_eq_none]
    · simpa using hi
    · simp only [length_toList, pop]
      omega

end RingBuffer
