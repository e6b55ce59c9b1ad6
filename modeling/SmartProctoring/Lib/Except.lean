import Mathlib.Data.List.Forall2
import Mathlib.Logic.Basic

/-!
# What a fallible computation yields

`x.Yields P` says that `x`, if it returns at all, returns something that satisfies `P`.  The rules
follow the ways such a computation is put together: what is thrown yields anything, a guard that
throws may be assumed passed, a sequence yields what its last part yields.
-/

set_option autoImplicit false

universe u v

namespace Except

variable {ε : Type u} {α : Type v} {β : Type v}

/-- Whatever `x` returns satisfies `P`. -/
def Yields (x : Except ε α) (P : α → Prop) : Prop := ∀ a, x = .ok a → P a

variable {P : α → Prop} {Q : β → Prop}

theorem Yields.error (e : ε) : (Except.error e : Except ε α).Yields P := by
  intro a h
  cases h

theorem Yields.thrown (e : ε) : (throw e : Except ε α).Yields P := Yields.error e

variable {a : α}

theorem Yields.ok (h : P a) : (Except.ok a : Except ε α).Yields P := by
  rintro b ⟨⟩
  exact h

theorem Yields.pure (h : P a) : (Pure.pure a : Except ε α).Yields P := Yields.ok h

variable {x : Except ε α}

theorem Yields.bind {f : α → Except ε β} (hx : x.Yields P)
    (hf : ∀ a, P a → (f a).Yields Q) : (x >>= f).Yields Q := by
  cases x with
  | error e => exact Yields.error e
  | ok a => exact hf a (hx a rfl)

theorem Yields.map {f : α → β} (hx : x.Yields fun a => Q (f a)) :
    (f <$> x).Yields Q := by
  cases x with
  | error e => exact Yields.error e
  | ok a => exact Yields.ok (hx a rfl)

theorem Yields.fst {x : Except ε (α × β)} (h : x.Yields fun r => P r.1) :
    ((fun r => r.1) <$> x).Yields P := h.map

theorem Yields.mono {P' : α → Prop} (hx : x.Yields P) (h : ∀ a, P a → P' a) :
    x.Yields P' := fun a ha => h a (hx a ha)

variable {c : Prop}

theorem Yields.ite [Decidable c] {x y : Except ε α} (hx : c → x.Yields P)
    (hy : ¬ c → y.Yields P) : (if c then x else y).Yields P := by
  split
  next h => exact hx h
  next h => exact hy h

/-- A guard that throws, and the rest. -/
theorem Yields.guard [Decidable c] {e : ε} {f : PUnit.{v + 1} → Except ε α}
    (h : ¬ c → (f ⟨⟩).Yields P) :
    (if c then (MonadExcept.throw e : Except ε PUnit.{v + 1}) >>= f else f ⟨⟩).Yields P :=
  Yields.ite (fun _ => Yields.error e) h

theorem Yields.whenever [Decidable c] {x : Except ε PUnit.{v + 1}}
    {f : PUnit.{v + 1} → Except ε α} (h : (f ⟨⟩).Yields P) :
    (if c then x >>= f else f ⟨⟩).Yields P := by
  have hx : x.Yields fun _ => True := fun _ _ => trivial
  exact Yields.ite (fun _ => hx.bind fun _ _ => h) fun _ => h

theorem Yields.foldlM {γ : Type u} {f : α → γ → Except ε α} (l : List γ) (ha : P a)
    (hf : ∀ a, P a → ∀ c ∈ l, (f a c).Yields P) : (l.foldlM f a).Yields P := by
  induction l generalizing a with
  | nil => exact Yields.pure ha
  | cons c l ih =>
    exact (hf a ha c List.mem_cons_self).bind fun b hb =>
      ih hb fun a ha c hc => hf a ha c (List.mem_cons_of_mem _ hc)

theorem Yields.mapM {γ : Type v} {f : γ → Except ε β} {P : γ → β → Prop} {l : List γ}
    (hf : ∀ c ∈ l, (f c).Yields (P c)) : (l.mapM f).Yields (List.Forall₂ P l) := by
  induction l with
  | nil =>
    exact Yields.pure .nil
  | cons c l ih =>
    rw [List.mapM_cons]
    refine (hf c List.mem_cons_self).bind fun b hb => ?_
    refine (ih fun c hc => hf c (List.mem_cons_of_mem _ hc)).bind fun bs hbs => ?_
    exact Yields.pure (.cons hb hbs)

/-- `x` throws nothing. -/
def Returns (x : Except ε α) : Prop := ∃ a, x = .ok a

theorem Returns.ok (a : α) : (Except.ok a : Except ε α).Returns := ⟨a, rfl⟩

theorem Returns.pure (a : α) : (Pure.pure a : Except ε α).Returns := ⟨a, rfl⟩

theorem Returns.bind {f : α → Except ε β} (hx : x.Returns) (hP : x.Yields P)
    (hf : ∀ a, P a → (f a).Returns) : (x >>= f).Returns := by
  obtain ⟨a, rfl⟩ := hx
  exact hf a (hP a rfl)

theorem Returns.map (hx : x.Returns) (f : α → β) : (f <$> x).Returns := by
  obtain ⟨a, rfl⟩ := hx
  exact ⟨f a, rfl⟩

theorem Returns.ite [Decidable c] {x y : Except ε α} (hx : c → x.Returns)
    (hy : ¬ c → y.Returns) : (if c then x else y).Returns := by
  split
  next h => exact hx h
  next h => exact hy h

theorem Returns.foldlM {γ : Type u} {f : α → γ → Except ε α} (l : List γ)
    (hf : ∀ a, ∀ c ∈ l, (f a c).Returns) (a : α) : (l.foldlM f a).Returns := by
  induction l generalizing a with
  | nil => exact Returns.pure a
  | cons c l ih =>
    have htrue : (f a c).Yields fun _ => True := fun _ _ => trivial
    exact (hf a c List.mem_cons_self).bind htrue fun b _ =>
      ih (fun a c hc => hf a c (List.mem_cons_of_mem _ hc)) b

end Except
