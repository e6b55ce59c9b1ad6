import Mathlib.Data.Int.ConditionallyCompleteOrder
import Mathlib.Data.List.Chain
import Mathlib.Tactic.Linarith

/-!
# Growing delays

Attempts that are counted, each followed by a delay that grows with the count, until a rest long
enough starts the count again.  In a window no longer than the rest there are at most as many
attempts as the first delays leave room for (`length_window_le`).
-/

set_option autoImplicit false

namespace Backoff

open List

/-- An attempt, and its number since the last rest. -/
structure Attempt where
  time : Int
  count : Nat

/-- `b` is the next attempt after `a`: the delay is over, or there was a rest. -/
def Follows (delay : Nat → Int) (rest : Int) (a b : Attempt) : Prop :=
  b.count = a.count + 1 ∧ a.time + delay a.count ≤ b.time ∨ b.count = 1 ∧ a.time + rest < b.time

/-- The sum of `k` delays from the `n`-th on. -/
def delaySum (delay : Nat → Int) : Nat → Nat → Int
  | _, 0 => 0
  | n, k + 1 => delay n + delaySum delay (n + 1) k

variable {delay : Nat → Int} {rest : Int}

theorem delaySum_mono (h : Monotone delay) (k : Nat) {n n' : Nat} (hn : n ≤ n') :
    delaySum delay n k ≤ delaySum delay n' k := by
  induction k generalizing n n' with
  | zero => exact le_refl _
  | succ k ih =>
    exact add_le_add (h hn) (ih (Nat.succ_le_succ hn))

theorem Follows.time_le (h0 : ∀ n, 0 ≤ delay n) (hrest : 0 ≤ rest) {a b : Attempt}
    (h : Follows delay rest a b) : a.time ≤ b.time := by
  obtain ⟨-, hb⟩ | ⟨-, hb⟩ := h
  · have hdelay := h0 a.count
    omega
  · omega

variable {a : Attempt} {l : List Attempt}

theorem time_le_of_chain (h0 : ∀ n, 0 ≤ delay n) (hrest : 0 ≤ rest)
    (h : List.IsChain (Follows delay rest) (a :: l)) :
    ∀ b ∈ l, a.time ≤ b.time := by
  induction l generalizing a with
  | nil => exact forall_mem_nil _
  | cons b l ih =>
    rw [isChain_cons_cons] at h
    have hab := h.1.time_le h0 hrest
    intro c hc
    obtain rfl | hc := mem_cons.1 hc
    · exact hab
    · exact hab.trans (ih h.2 c hc)

theorem filter_eq_nil_of_lt {bound : Int} (h : ∀ b ∈ l, bound < b.time) :
    l.filter (fun b => decide (b.time ≤ bound)) = [] := by
  refine filter_eq_nil_iff.2 fun b hb => ?_
  have hlt := h b hb
  simp only [decide_eq_true_eq]
  omega

theorem length_until_le (h0 : ∀ n, 0 ≤ delay n) (hrest : 0 ≤ rest)
    (h : List.IsChain (Follows delay rest) (a :: l)) {bound : Int} {k : Nat}
    (hdelays : bound < a.time + delaySum delay a.count (k + 1)) (hwithin : bound ≤ a.time + rest) :
    (l.filter fun b => decide (b.time ≤ bound)).length ≤ k := by
  induction l generalizing a k with
  | nil => exact Nat.zero_le k
  | cons b l ih =>
    rw [isChain_cons_cons] at h
    obtain ⟨hab, hl⟩ := h
    have hlater := time_le_of_chain h0 hrest hl
    by_cases hb : b.time ≤ bound
    · obtain ⟨hcount, hdelay⟩ | ⟨-, hafter⟩ := hab
      · have hsum : delaySum delay a.count (k + 1) =
            delay a.count + delaySum delay b.count k := by
          rw [hcount]
          rfl
        cases k with
        | zero =>
          have hzero : delaySum delay b.count 0 = 0 := rfl
          omega
        | succ k =>
          have hin : decide (b.time ≤ bound) = true := decide_eq_true hb
          rw [filter_cons, if_pos hin]
          exact Nat.succ_le_succ (ih hl (by omega) (by have hdelay := h0 a.count; omega))
      · omega
    · have hnone : (b :: l).filter (fun b => decide (b.time ≤ bound)) = [] := by
        refine filter_eq_nil_of_lt fun c hc => ?_
        obtain rfl | hc := mem_cons.1 hc
        · omega
        · have hle := hlater c hc
          omega
      rw [hnone]
      exact Nat.zero_le k

/-- **The window bound.** -/
theorem length_window_le (h0 : ∀ n, 0 ≤ delay n) (hmono : Monotone delay) (hrest : 0 ≤ rest)
    (h : List.IsChain (Follows delay rest) l) (hcount : ∀ a ∈ l, 1 ≤ a.count)
    {k : Nat} (hk : rest < delaySum delay 1 (k + 1)) (start : Int) :
    (l.filter fun a => decide (start ≤ a.time ∧ a.time ≤ start + rest)).length ≤ k + 1 := by
  induction l with
  | nil => exact Nat.zero_le _
  | cons a l ih =>
    have hl : List.IsChain (Follows delay rest) l := h.tail
    by_cases ha : start ≤ a.time
    · have huntil : (l.filter fun b => decide (b.time ≤ start + rest)).length ≤ k := by
        have hsum := delaySum_mono hmono (k + 1) (hcount a mem_cons_self)
        exact length_until_le h0 hrest h (by omega) (by omega)
      have hfewer : (l.filter fun b => decide (start ≤ b.time ∧ b.time ≤ start + rest)).length ≤
          (l.filter fun b => decide (b.time ≤ start + rest)).length := by
        refine (monotone_filter_right l fun b hb => ?_).length_le
        exact decide_eq_true (of_decide_eq_true hb).2
      rw [filter_cons]
      split
      · rw [length_cons]
        omega
      · omega
    · have hout : ¬ decide (start ≤ a.time ∧ a.time ≤ start + rest) = true := by simp [ha]
      rw [filter_cons, if_neg hout]
      exact ih hl fun b hb => hcount b (mem_cons_of_mem _ hb)

end Backoff
