import Mathlib.Logic.Function.Basic
import SmartProctoring.Lib.Run

/-!
# Processes over a shared store

Any number of processes, each with its own local state, take steps on one shared store.  A proof
outline gives an invariant of the store and an assertion for each process about the store and its
local state.  It holds throughout when each step keeps the invariant, establishes the assertion of
the process that takes it, and leaves the assertions of the others intact: non-interference is the
only thing to check about two processes at a time.
-/

set_option autoImplicit false

universe u v w

/-- A shared store and the local states of the processes. -/
structure Processes (σ : Type u) (ι : Type v) (π : Type w) where
  shared : σ
  loc : ι → π

namespace Processes

variable {σ : Type u} {ι : Type v} {π : Type w} [DecidableEq ι]

/-- Process `i` moves: the store and its own local state change. -/
def move (s : Processes σ ι π) (i : ι) (next : σ × π) : Processes σ ι π :=
  ⟨next.1, Function.update s.loc i next.2⟩

/-- The store changes by itself. -/
def setShared (s : Processes σ ι π) (shared : σ) : Processes σ ι π := { s with shared }

@[simp] theorem move_shared (s : Processes σ ι π) (i : ι) (next : σ × π) :
    (s.move i next).shared = next.1 := rfl

@[simp] theorem move_loc_self (s : Processes σ ι π) (i : ι) (next : σ × π) :
    (s.move i next).loc i = next.2 := by
  simp [move]

theorem move_loc_of_ne (s : Processes σ ι π) {i j : ι} (h : j ≠ i) (next : σ × π) :
    (s.move i next).loc j = s.loc j := by
  simp [move, h]

variable {i : ι}

theorem exists_loc_move {s : Processes σ ι π} {next : σ × π} {C : π → Prop}
    (h : ∃ k, C (s.loc k)) (hi : C (s.loc i) → C next.2) : ∃ k, C ((s.move i next).loc k) := by
  obtain ⟨k, hk⟩ := h
  by_cases hki : k = i
  · subst hki
    exact ⟨k, by rw [move_loc_self]; exact hi hk⟩
  · exact ⟨k, by rw [move_loc_of_ne s hki]; exact hk⟩

omit [DecidableEq ι] in
@[simp] theorem setShared_shared (s : Processes σ ι π) (shared : σ) :
    (s.setShared shared).shared = shared := rfl

omit [DecidableEq ι] in
/-- A proof outline: an invariant of the store and an assertion for each process. -/
structure Outline (G : σ → Prop) (P : ι → σ → π → Prop) (s : Processes σ ι π) : Prop where
  shared : G s.shared
  loc (i : ι) : P i s.shared (s.loc i)

variable {G : σ → Prop} {P : ι → σ → π → Prop} {s : Processes σ ι π}

/-- **The outline rule**, for a step of one process. -/
theorem Outline.move (h : Outline G P s) {next : σ × π} (hshared : G next.1)
    (hown : P i next.1 next.2)
    (hothers : ∀ j q, j ≠ i → P j s.shared q → P j next.1 q) : Outline G P (s.move i next) := by
  refine ⟨hshared, fun j => ?_⟩
  by_cases hj : j = i
  · subst hj
    simpa using hown
  · rw [move_loc_of_ne _ hj]
    exact hothers j _ hj (h.loc j)

omit [DecidableEq ι] in
theorem Outline.setShared (h : Outline G P s) {shared : σ} (hshared : G shared)
    (hothers : ∀ j q, P j s.shared q → P j shared q) : Outline G P (s.setShared shared) :=
  ⟨hshared, fun j => hothers j _ (h.loc j)⟩

end Processes
