import Mathlib.Data.List.Induction
import Mathlib.Logic.Relation

/-!
# Runs of a guarded state machine

A machine has initial states, a total step function, and a condition under which an input may be
taken in a state.  `Machine.Steps` is a finite run, `Machine.Reachable` what the runs from the
initial states reach.

The rules are the usual ones: an invariant that holds initially and is preserved by every enabled
step holds in every reachable state; a preorder that every enabled step respects is respected by
every run; and tightening the guard only removes runs.
-/

set_option autoImplicit false

universe u v

/-- A state machine over states `σ` and inputs `ι`. -/
structure Machine (σ : Type u) (ι : Type v) where
  /-- The states a run may begin in. -/
  init : σ → Prop
  /-- What an input does to a state. -/
  step : ι → σ → σ
  /-- When an input may be taken. -/
  enabled : ι → σ → Prop

namespace Machine

variable {σ : Type u} {ι : Type v}

/-- A finite run of enabled steps. -/
inductive Steps (M : Machine σ ι) : σ → σ → Prop
  | refl (s : σ) : Steps M s s
  | tail {s t : σ} (h : Steps M s t) (i : ι) (hi : M.enabled i t) : Steps M s (M.step i t)

/-- The states reached by a run from an initial state. -/
inductive Reachable (M : Machine σ ι) : σ → Prop
  | init {s : σ} (h : M.init s) : Reachable M s
  | step {s : σ} (h : Reachable M s) (i : ι) (hi : M.enabled i s) : Reachable M (M.step i s)

/-- The machine with a further condition on its steps. -/
def restrict (M : Machine σ ι) (g : ι → σ → Prop) : Machine σ ι where
  init := M.init
  step := M.step
  enabled i s := M.enabled i s ∧ g i s

variable {M : Machine σ ι}

variable {s : σ}

variable {t : σ}

variable {I : σ → Prop}

/-- **The invariant rule.** -/
theorem Reachable.invariant (h0 : ∀ s, M.init s → I s)
    (hstep : ∀ s i, M.Reachable s → M.enabled i s → I s → I (M.step i s))
    (h : M.Reachable s) : I s := by
  induction h with
  | init h => exact h0 _ h
  | step hr i hi ih => exact hstep _ i hr hi ih

theorem Steps.rel {R : σ → σ → Prop} (hrefl : ∀ s, R s s)
    (htrans : ∀ {a b c}, R a b → R b c → R a c)
    (hstep : ∀ s i, I s → M.enabled i s → I (M.step i s) ∧ R s (M.step i s))
    (h : M.Steps s t) (hs : I s) : I t ∧ R s t := by
  induction h with
  | refl => exact ⟨hs, hrefl _⟩
  | tail _ i hi ih =>
    obtain ⟨hinv, hrel⟩ := ih
    obtain ⟨hinv', hrel'⟩ := hstep _ i hinv hi
    exact ⟨hinv', htrans hrel hrel'⟩

/-! ## Runs on given inputs -/

/-- The state that the inputs lead to. -/
def run (M : Machine σ ι) (s : σ) (is : List ι) : σ := is.foldl (fun s i => M.step i s) s

/-- Each of the inputs may be taken in its turn. -/
def Admits (M : Machine σ ι) : σ → List ι → Prop
  | _, [] => True
  | s, i :: is => M.enabled i s ∧ Admits M (M.step i s) is

instance decidableAdmits (M : Machine σ ι) [h : ∀ i s, Decidable (M.enabled i s)] :
    ∀ (is : List ι) (s : σ), Decidable (M.Admits s is)
  | [], _ => .isTrue trivial
  | i :: is, s =>
    have := decidableAdmits M is (M.step i s)
    inferInstanceAs (Decidable (M.enabled i s ∧ M.Admits (M.step i s) is))

/-- `P` holds of each step of the run on the given inputs. -/
def EachStep (M : Machine σ ι) (P : σ → ι → Prop) : σ → List ι → Prop
  | _, [] => True
  | s, i :: is => P s i ∧ EachStep M P (M.step i s) is

instance decidableEachStep (M : Machine σ ι) (P : σ → ι → Prop) [h : ∀ s i, Decidable (P s i)] :
    ∀ (is : List ι) (s : σ), Decidable (M.EachStep P s is)
  | [], _ => .isTrue trivial
  | i :: is, s =>
    have := decidableEachStep M P is (M.step i s)
    inferInstanceAs (Decidable (P s i ∧ M.EachStep P (M.step i s) is))

variable {P : σ → ι → Prop}

theorem EachStep.at_step {is js : List ι} {i : ι}
    (h : M.EachStep P s (is ++ i :: js)) : P (M.run s is) i := by
  induction is generalizing s with
  | nil => exact h.1
  | cons j is ih => exact ih h.2

variable {is : List ι}

theorem eachStep_concat {i : ι} :
    M.EachStep P s (is ++ [i]) ↔ M.EachStep P s is ∧ P (M.run s is) i := by
  induction is generalizing s with
  | nil => exact and_comm
  | cons j is ih =>
    show P s j ∧ M.EachStep P (M.step j s) (is ++ [i]) ↔ (P s j ∧ M.EachStep P (M.step j s) is) ∧ _
    rw [ih, and_assoc]
    rfl

variable {Q : σ → ι → Prop}

theorem EachStep.congr
    (h : ∀ s i, M.Reachable s → M.enabled i s → (P s i ↔ Q s i)) (hs : M.Reachable s)
    (his : M.Admits s is) : M.EachStep P s is ↔ M.EachStep Q s is := by
  induction is generalizing s with
  | nil => exact Iff.rfl
  | cons i is ih => exact and_congr (h s i hs his.1) (ih (.step hs i his.1) his.2)

theorem EachStep.congr_invariant (h : ∀ s i, I s → M.enabled i s → (P s i ↔ Q s i))
    (hstep : ∀ s i, I s → M.enabled i s → P s i → I (M.step i s)) (hs : I s)
    (his : M.Admits s is) : M.EachStep P s is ↔ M.EachStep Q s is := by
  induction is generalizing s with
  | nil => exact Iff.rfl
  | cons i is ih =>
    have hi := h s i hs his.1
    constructor
    · exact fun hP => ⟨hi.1 hP.1, (ih (hstep s i hs his.1 hP.1) his.2).1 hP.2⟩
    · exact fun hQ => ⟨hi.2 hQ.1, (ih (hstep s i hs his.1 (hi.2 hQ.1)) his.2).2 hQ.2⟩

theorem EachStep.imp_invariant
    (h : ∀ s i, I s → M.enabled i s → P s i → Q s i ∧ I (M.step i s)) (hs : I s)
    (his : M.Admits s is) (hP : M.EachStep P s is) : M.EachStep Q s is := by
  induction is generalizing s with
  | nil => trivial
  | cons i is ih =>
    obtain ⟨hQ, hinv⟩ := h s i hs his.1 hP.1
    exact ⟨hQ, ih hinv his.2 hP.2⟩

theorem Steps.run (h : M.Steps s t) (his : M.Admits t is) :
    M.Steps s (M.run t is) := by
  induction is generalizing t with
  | nil => exact h
  | cons i is ih => exact ih (.tail h i his.1) his.2

theorem Reachable.run (h : M.Reachable s) (his : M.Admits s is) :
    M.Reachable (M.run s is) := by
  induction is generalizing s with
  | nil => exact h
  | cons i is ih => exact ih (.step h i his.1) his.2

theorem run_append (s : σ) (is js : List ι) : M.run s (is ++ js) = M.run (M.run s is) js :=
  List.foldl_append

theorem admits_append {is js : List ι} :
    M.Admits s (is ++ js) ↔ M.Admits s is ∧ M.Admits (M.run s is) js := by
  induction is generalizing s with
  | nil => exact (and_iff_right trivial).symm
  | cons i is ih =>
    change M.enabled i s ∧ M.Admits (M.step i s) (is ++ js) ↔
      (M.enabled i s ∧ M.Admits (M.step i s) is) ∧ M.Admits (M.run (M.step i s) is) js
    rw [ih, and_assoc]

/-- **The invariant rule, with the history.**  The invariant may speak about the inputs so far. -/
theorem run_invariant {I : List ι → σ → Prop} (h0 : I [] s)
    (hstep : ∀ is i, M.Admits s is → M.enabled i (M.run s is) → I is (M.run s is) →
      I (is ++ [i]) (M.step i (M.run s is)))
    (h : M.Admits s is) : I is (M.run s is) := by
  induction is using List.reverseRecOn with
  | nil => exact h0
  | append_singleton is i ih =>
    obtain ⟨his, hi, -⟩ := admits_append.1 h
    rw [run_append]
    exact hstep is i his hi (ih his)

theorem exists_since {P : σ → Prop} (h0 : ¬ P s) (h : P (M.run s is)) :
    ∃ pre i post, is = pre ++ i :: post ∧ ¬ P (M.run s pre) ∧
      ∀ k, k <+: post → P (M.run s (pre ++ i :: k)) := by
  induction is using List.reverseRecOn with
  | nil => exact absurd h h0
  | append_singleton is a ih =>
    by_cases hP : P (M.run s is)
    · obtain ⟨pre, i, post, rfl, hpre, hpost⟩ := ih hP
      refine ⟨pre, i, post ++ [a], by simp, hpre, fun k hk => ?_⟩
      obtain rfl | hk := List.prefix_concat_iff.1 hk
      · rwa [List.append_assoc] at h
      · exact hpost k hk
    · refine ⟨is, a, [], rfl, hP, fun k hk => ?_⟩
      rw [List.prefix_nil.1 hk]
      exact h

/-! ## Fewer steps -/

instance (M : Machine σ ι) (g : ι → σ → Prop) [∀ i s, Decidable (M.enabled i s)]
    [∀ i s, Decidable (g i s)] (i : ι) (s : σ) : Decidable ((M.restrict g).enabled i s) :=
  inferInstanceAs (Decidable (M.enabled i s ∧ g i s))

variable {g : ι → σ → Prop}

theorem Reachable.of_restrict (h : (M.restrict g).Reachable s) :
    M.Reachable s := by
  induction h with
  | init h => exact .init h
  | step _ i hi ih => exact .step ih i hi.1

theorem Reachable.restrict (hg : ∀ i s, g i s) (h : M.Reachable s) :
    (M.restrict g).Reachable s := by
  induction h with
  | init h => exact .init h
  | step _ i hi ih => exact .step ih i ⟨hi, hg i _⟩

end Machine

theorem List.mem_snoc {α : Type u} {l : List α} {a b : α} : a ∈ l ++ [b] ↔ a ∈ l ∨ a = b := by
  rw [mem_append, mem_singleton]
