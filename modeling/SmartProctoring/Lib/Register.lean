import Mathlib.Data.List.Basic
import Mathlib.Order.Lattice

/-!
# Last-writer-wins registers

A register holds at most one stamped value.  A write with a higher stamp than the stored one
replaces it; any other write changes nothing.  So the value with the highest stamp stays, and as
long as a stamp determines its value the result of a set of writes does not depend on their order or
on how often each of them is repeated.
-/

set_option autoImplicit false

universe u v

/-- A value and the stamp it was written with. -/
structure Stamped (τ : Type u) (α : Type v) where
  stamp : τ
  value : α

namespace Register

variable {τ : Type u} {α : Type v} [LinearOrder τ] {reg : Option (Stamped τ α)}
  {w c : Stamped τ α} {ws ws' : List (Stamped τ α)} {s : τ}

/-- The register holds a value with stamp `s` or a higher one. -/
def Covers (reg : Option (Stamped τ α)) (s : τ) : Prop := ∃ c ∈ reg, s ≤ c.stamp
  deriving Decidable

def write (reg : Option (Stamped τ α)) (w : Stamped τ α) : Option (Stamped τ α) :=
  if Covers reg w.stamp then reg else some w

def writes (reg : Option (Stamped τ α)) (ws : List (Stamped τ α)) : Option (Stamped τ α) :=
  ws.foldl write reg

@[simp] theorem not_covers_none (s : τ) : ¬ Covers (none : Option (Stamped τ α)) s := by
  rintro ⟨c, ⟨⟩, -⟩

@[simp] theorem covers_some : Covers (some c) s ↔ s ≤ c.stamp := by
  simp [Covers]

theorem write_of_covers (h : Covers reg w.stamp) : write reg w = reg := if_pos h

theorem write_of_not_covers (h : ¬ Covers reg w.stamp) : write reg w = some w := if_neg h

theorem covers_write_self : Covers (write reg w) w.stamp := by
  by_cases h : Covers reg w.stamp
  · rwa [write_of_covers h]
  · rw [write_of_not_covers h, covers_some]

theorem Covers.write (h : Covers reg s) (w : Stamped τ α) : Covers (write reg w) s := by
  by_cases hw : Covers reg w.stamp
  · rwa [write_of_covers hw]
  · rw [write_of_not_covers hw, covers_some]
    obtain ⟨c, hc, hs⟩ := h
    rcases le_total w.stamp c.stamp with hle | hle
    · exact absurd ⟨c, hc, hle⟩ hw
    · exact hs.trans hle

theorem Covers.writes (h : Covers reg s) (ws : List (Stamped τ α)) : Covers (writes reg ws) s := by
  induction ws generalizing reg with
  | nil => exact h
  | cons w ws ih => exact ih (h.write w)

theorem covers_writes_of_mem (hw : w ∈ ws) : Covers (writes reg ws) w.stamp := by
  induction ws generalizing reg with
  | nil => cases hw
  | cons w' ws ih =>
    rcases List.mem_cons.1 hw with rfl | hw
    · exact covers_write_self.writes ws
    · exact ih hw

theorem mem_or_of_writes (h : writes reg ws = some c) :
    reg = some c ∨ c ∈ ws ∧ ¬ Covers reg c.stamp := by
  induction ws generalizing reg with
  | nil => exact .inl h
  | cons w ws ih =>
    by_cases hw : Covers reg w.stamp
    · have h' : writes reg ws = some c := by rwa [writes, List.foldl_cons, write_of_covers hw] at h
      rcases ih h' with h | h
      · exact .inl h
      · exact .inr ⟨List.mem_cons_of_mem _ h.1, h.2⟩
    · have h' : writes (some w) ws = some c := by
        rwa [writes, List.foldl_cons, write_of_not_covers hw] at h
      rcases ih h' with h | h
      · obtain rfl : w = c := by simpa using h
        exact .inr ⟨List.mem_cons_self, hw⟩
      · refine .inr ⟨List.mem_cons_of_mem _ h.1, fun hc => h.2 ?_⟩
        rw [← write_of_not_covers hw]
        exact hc.write w

theorem writes_eq_none (h : writes reg ws = none) : reg = none ∧ ws = [] := by
  constructor
  · cases reg with
    | none => rfl
    | some c =>
      have hc : Covers (writes (some c) ws) c.stamp := (covers_some.2 le_rfl).writes ws
      rw [h] at hc
      exact absurd hc (not_covers_none _)
  · cases ws with
    | nil => rfl
    | cons w ws =>
      have hc : Covers (writes reg (w :: ws)) w.stamp := covers_writes_of_mem List.mem_cons_self
      rw [h] at hc
      exact absurd hc (not_covers_none _)

theorem stamp_le_of_writes (h : writes reg ws = some c)
    (hs : Covers reg s ∨ ∃ w ∈ ws, w.stamp = s) : s ≤ c.stamp := by
  rw [← covers_some, ← h]
  rcases hs with hs | ⟨w, hw, rfl⟩
  · exact hs.writes ws
  · exact covers_writes_of_mem hw

/-- **Convergence.**  Writes with the same members leave the same value, if a stamp determines its
value. -/
theorem writes_congr (hws : ∀ w, w ∈ ws ↔ w ∈ ws')
    (hfun : ∀ w ∈ ws, ∀ w' ∈ ws, w.stamp = w'.stamp → w = w') : writes reg ws = writes reg ws' := by
  have hnil : ws = [] ↔ ws' = [] := by
    simp only [List.eq_nil_iff_forall_not_mem, hws]
  cases h : writes reg ws with
  | none =>
    obtain ⟨rfl, hnone⟩ := writes_eq_none h
    rw [hnil.1 hnone]
    rfl
  | some c =>
    cases h' : writes reg ws' with
    | none =>
      obtain ⟨rfl, hnone⟩ := writes_eq_none h'
      rw [hnil.2 hnone] at h
      cases h
    | some c' =>
      have hcovers : ∀ {x : Stamped τ α} {s : τ}, reg = some x → s ≤ x.stamp → Covers reg s := by
        rintro x s rfl hs
        exact covers_some.2 hs
      have hc := mem_or_of_writes h
      have hc' := mem_or_of_writes h'
      have hstamp : c.stamp = c'.stamp := by
        refine le_antisymm (stamp_le_of_writes h' ?_) (stamp_le_of_writes h ?_)
        · exact hc.imp (fun hr => hcovers hr le_rfl) fun hw => ⟨c, (hws c).1 hw.1, rfl⟩
        · exact hc'.imp (fun hr => hcovers hr le_rfl) fun hw => ⟨c', (hws c').2 hw.1, rfl⟩
      rcases hc with hr | ⟨hw, hnew⟩
      · rcases hc' with hr' | ⟨-, hnew'⟩
        · rw [← hr, ← hr']
        · exact absurd (hcovers hr hstamp.ge) hnew'
      · rcases hc' with hr' | ⟨hw', -⟩
        · exact absurd (hcovers hr' hstamp.le) hnew
        · rw [hfun c hw c' ((hws c').2 hw') hstamp]

end Register
