import Mathlib.Data.List.Perm.Basic

/-!
# Operations that absorb themselves

A list of operations on a state, applied one after the other (`List.foldl`).  Where any two
operations commute and each one absorbs itself, the order of the list does not matter and applying
the list to its own result changes nothing, also when a closure is taken after the last operation.
-/

set_option autoImplicit false

universe u v w

namespace Absorb

variable {σ : Type u} {α : Type v} {β : Type w} {f : σ → α → σ} {E : σ → σ}

variable {l : List α}

theorem foldl_keeps (g : σ → β) (h : ∀ a ∈ l, ∀ x, g (f x a) = g x) (x : σ) :
    g (l.foldl f x) = g x := by
  induction l generalizing x with
  | nil => rfl
  | cons a l ih =>
    rw [List.foldl_cons, ih (fun b hb => h b (by simp [hb])), h a (by simp)]

theorem foldl_rel {R : σ → σ → Prop} (hrefl : ∀ x, R x x) (htrans : ∀ x y z, R x y → R y z → R x z)
    (h : ∀ x a, R x (f x a)) (l : List α) (x : σ) : R x (l.foldl f x) := by
  induction l generalizing x with
  | nil => exact hrefl x
  | cons a l ih => exact htrans _ _ _ (h x a) (ih (f x a))

theorem foldl_comm (hcomm : ∀ x a b, f (f x a) b = f (f x b) a) (l : List α) (x : σ) (a : α) :
    l.foldl f (f x a) = f (l.foldl f x) a := by
  induction l generalizing x with
  | nil => rfl
  | cons b l ih => rw [List.foldl_cons, hcomm, ih, List.foldl_cons]

theorem absorbed (hcomm : ∀ x a b, f (f x a) b = f (f x b) a) (hidem : ∀ x a, f (f x a) a = f x a)
    {a : α} (ha : a ∈ l) (x : σ) : f (l.foldl f x) a = l.foldl f x := by
  obtain ⟨l₁, l₂, rfl⟩ := List.append_of_mem ha
  rw [List.foldl_append, List.foldl_cons, ← foldl_comm hcomm, hidem]

theorem foldl_absorbed {x : σ} (h : ∀ a ∈ l, f x a = x) : l.foldl f x = x := by
  induction l with
  | nil => rfl
  | cons a l ih => rw [List.foldl_cons, h a (by simp), ih fun b hb => h b (by simp [hb])]

theorem foldl_foldl (hcomm : ∀ x a b, f (f x a) b = f (f x b) a)
    (hidem : ∀ x a, f (f x a) a = f x a) (l : List α) (x : σ) :
    l.foldl f (l.foldl f x) = l.foldl f x :=
  foldl_absorbed fun _ ha => absorbed hcomm hidem ha x

theorem closed_foldl (hE : ∀ x a, E (f (E x) a) = E (f x a)) (hEE : ∀ x, E (E x) = E x) (l : List α)
    (x : σ) : E (l.foldl f (E x)) = E (l.foldl f x) := by
  induction l generalizing x with
  | nil => exact hEE x
  | cons a l ih =>
    calc E (l.foldl f (f (E x) a))
        = E (l.foldl f (E (f (E x) a))) := (ih _).symm
      _ = E (l.foldl f (E (f x a))) := by rw [hE]
      _ = E (l.foldl f (f x a)) := ih _

theorem closed_foldl_self (hcomm : ∀ x a b, f (f x a) b = f (f x b) a)
    (hidem : ∀ x a, f (f x a) a = f x a) (hE : ∀ x a, E (f (E x) a) = E (f x a))
    (hEE : ∀ x, E (E x) = E x) (l : List α) (x : σ) :
    E (l.foldl f (E (l.foldl f x))) = E (l.foldl f x) := by
  rw [closed_foldl hE hEE, foldl_foldl hcomm hidem]

end Absorb
