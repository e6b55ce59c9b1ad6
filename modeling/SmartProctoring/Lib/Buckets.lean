import Mathlib.Data.List.Basic
import Mathlib.Order.Nat

/-!
# Buckets

Entries put into numbered buckets, one after the other: a list whose entries come with ever larger
numbers is the concatenation of its buckets (`flatMap_buckets`).
-/

set_option autoImplicit false

universe u

namespace Buckets

open List

variable {α : Type u} (rank : α → Nat)

/-- The entries with a number, in the order of the list. -/
def bucket (l : List α) (k : Nat) : List α := l.filter fun a => rank a = k

variable {rank} {l : List α}

theorem mem_bucket {a : α} {k : Nat} : a ∈ bucket rank l k ↔ a ∈ l ∧ rank a = k := by
  rw [bucket, mem_filter, decide_eq_true_eq]

theorem bucket_concat (a : α) (k : Nat) :
    bucket rank (l ++ [a]) k = if rank a = k then bucket rank l k ++ [a] else bucket rank l k := by
  by_cases h : rank a = k <;> simp [bucket, filter_append, h]

variable (hsorted : l.Pairwise fun a b => rank a ≤ rank b)
include hsorted

theorem filter_lt_succ (n : Nat) :
    (l.filter fun a => rank a < n + 1) = (l.filter fun a => rank a < n) ++ bucket rank l n := by
  induction l with
  | nil => rfl
  | cons a l ih =>
    rw [pairwise_cons] at hsorted
    have hrest := ih hsorted.2
    rw [bucket] at hrest ⊢
    rcases Nat.lt_trichotomy (rank a) n with h | h | h
    · rw [filter_cons_of_pos (by simpa using by omega), filter_cons_of_pos (by simpa using h),
        filter_cons_of_neg (by simpa using h.ne), hrest, cons_append]
    · -- the entries behind are not below the number either
      have hnone : (l.filter fun b => rank b < n) = [] := by
        rw [filter_eq_nil_iff]
        intro b hb
        have := hsorted.1 b hb
        simpa using by omega
      rw [filter_cons_of_pos (by simpa using by omega), filter_cons_of_neg (by simpa using by omega),
        filter_cons_of_pos (by simpa using h), hrest, hnone]
      rfl
    · rw [filter_cons_of_neg (by simpa using by omega), filter_cons_of_neg (by simpa using by omega),
        filter_cons_of_neg (by simpa using by omega), hrest]

/-- **The buckets one after the other are the list.** -/
theorem flatMap_buckets {n : Nat} (hn : ∀ a ∈ l, rank a < n) :
    (range n).flatMap (bucket rank l) = l := by
  have hall : ∀ m, (range m).flatMap (bucket rank l) = l.filter fun a => rank a < m := by
    intro m
    induction m with
    | zero => simp
    | succ m ih =>
      rw [range_succ, flatMap_append, ih, filter_lt_succ hsorted, flatMap_singleton]
  rw [hall, filter_eq_self]
  exact fun a ha => decide_eq_true (hn a ha)

end Buckets
