import Mathlib.Algebra.BigOperators.Group.Multiset.Basic
import Mathlib.Algebra.Order.BigOperators.Group.Multiset

/-!
# Budgets that are checked before they are used

Several parties add to one sum.  Each compares the sum with a limit, and adds its own part some time
later; others may add theirs in between.  Then the sum can pass the limit, by as many parts as were
under way when the last one was let through.
-/

set_option autoImplicit false

universe u

section Budget

variable {α : Type u} [AddCommMonoid α] [PartialOrder α]

/-- The parts pass the limit by at most `k` of them. -/
def WithinBut (limit : α) (k : ℕ) (parts : Multiset α) : Prop :=
  ∃ extra ≤ parts, extra.card ≤ k ∧ parts.sum ≤ limit + extra.sum

variable {limit : α} {parts : Multiset α}

theorem withinBut_of_le (k : ℕ) (h : parts.sum ≤ limit) :
    WithinBut limit k parts :=
  ⟨0, Multiset.zero_le _, Nat.zero_le _, by simpa using h⟩

theorem withinBut_one :
    WithinBut limit 1 parts ↔ parts.sum ≤ limit ∨ ∃ x ∈ parts, parts.sum ≤ limit + x := by
  constructor
  · rintro ⟨extra, hle, hcard, hsum⟩
    rcases Nat.le_one_iff_eq_zero_or_eq_one.mp hcard with h0 | h1
    · rw [Multiset.card_eq_zero] at h0
      exact .inl (by simpa [h0] using hsum)
    · obtain ⟨x, rfl⟩ := Multiset.card_eq_one.mp h1
      exact .inr ⟨x, Multiset.singleton_le.mp hle, by simpa using hsum⟩
  · rintro (h | ⟨x, hx, hsum⟩)
    · exact withinBut_of_le 1 h
    · exact ⟨{x}, Multiset.singleton_le.mpr hx, by simp, by simpa using hsum⟩

variable [IsOrderedCancelAddMonoid α]

theorem withinBut_admit {limit x : α} {stored underway : Multiset α} {k : ℕ}
    (hfits : stored.sum + x ≤ limit)
    (hk : underway.card ≤ k) : WithinBut limit k (stored + x ::ₘ underway) := by
  refine ⟨underway, (Multiset.le_cons_self _ _).trans (Multiset.le_add_left _ _), hk, ?_⟩
  rw [Multiset.sum_add, Multiset.sum_cons, ← add_assoc]
  exact add_le_add_left hfits _

theorem WithinBut.of_le [CanonicallyOrderedAdd α] {k : ℕ} {parts rest : Multiset α}
    (h : WithinBut limit k parts) (hle : rest ≤ parts) : WithinBut limit k rest := by
  classical
  obtain ⟨extra, hover, hcard, hsum⟩ := h
  obtain ⟨removed, rfl⟩ := Multiset.le_iff_exists_add.mp hle
  refine ⟨extra - removed, ?_, (Multiset.card_le_card (Multiset.sub_le_self _ _)).trans hcard, ?_⟩
  · rwa [tsub_le_iff_right]
  · -- what goes beyond without the removed parts, and the removed parts, make up what went beyond
    have hparts : extra.sum ≤ (extra - removed).sum + removed.sum := by
      rw [← Multiset.sum_add]
      obtain ⟨more, hmore⟩ := Multiset.le_iff_exists_add.mp (le_tsub_add (a := removed) (b := extra))
      rw [hmore, Multiset.sum_add]
      exact le_self_add
    rw [Multiset.sum_add] at hsum
    refine le_of_add_le_add_right (a := removed.sum) (hsum.trans ?_)
    rw [add_assoc]
    exact add_le_add_right hparts _

end Budget
