import SmartProctoring.Lib.Span
import Mathlib.Algebra.BigOperators.Group.List.Basic
import Mathlib.Tactic.Abel

/-!
# Spans that join

A list of spans joins to a span when the first starts where it starts, each of the others starts
where the one before it stops, and the last stops where it stops (or is open, as it is).  Nothing is
lost and nothing is covered twice: an instant belongs to the whole exactly when it belongs to a
piece, the pieces follow each other, and their lengths add up.

Putting in place of each span of a list some pieces that join to it leaves the list in order
(`inOrder_flatMap`).
-/

set_option autoImplicit false

universe u v

namespace Span

open List

variable {α : Type u} [LinearOrder α] {p q : Span α} {l : List (Span α)} {t : α}

/-- `p` has stopped when `q` starts. -/
def Before (p q : Span α) : Prop := ∃ x ∈ p.stop, x ≤ q.start

/-- The span does not stop before it starts. -/
def Forward (p : Span α) : Prop := ∀ x ∈ p.stop, p.start ≤ x

/-- The spans of `l`, each starting where the one before it stops, make up `p`. -/
inductive Joins : List (Span α) → Span α → Prop
  | single {p : Span α} (hp : p.Forward) : Joins [p] p
  | cons {l : List (Span α)} {s m : α} {e : Option α} (hs : s ≤ m) (h : Joins l ⟨m, e⟩) :
      Joins (⟨s, some m⟩ :: l) ⟨s, e⟩

theorem Joins.forward (h : Joins l p) : p.Forward := by
  induction h with
  | single hp => exact hp
  | cons hs _ ih => exact fun x hx => hs.trans (ih x hx)

theorem Joins.start_le (h : Joins l p) : ∀ q ∈ l, p.start ≤ q.start := by
  induction h with
  | single => simp
  | cons hs _ ih =>
    intro q hq
    rcases mem_cons.mp hq with rfl | hq
    · exact le_rfl
    · exact hs.trans (ih q hq)

theorem Joins.stop_le (h : Joins l p) : ∀ q ∈ l, ∀ x ∈ p.stop, ∃ y ∈ q.stop, y ≤ x := by
  induction h with
  | single =>
    intro q hq x hx
    rw [mem_singleton.mp hq]
    exact ⟨x, hx, le_rfl⟩
  | cons _ hl ih =>
    intro q hq x hx
    rcases mem_cons.mp hq with rfl | hq
    · exact ⟨_, rfl, hl.forward x hx⟩
    · exact ih q hq x hx

theorem Joins.forward_of_mem (h : Joins l p) : ∀ q ∈ l, q.Forward := by
  induction h with
  | single hp => simpa using hp
  | cons hs _ ih =>
    intro q hq
    rcases mem_cons.mp hq with rfl | hq
    · simpa [Forward] using hs
    · exact ih q hq

/-- The pieces follow each other. -/
theorem Joins.inOrder (h : Joins l p) : l.Pairwise Before := by
  induction h with
  | single => exact pairwise_singleton _ _
  | cons _ hl ih => exact pairwise_cons.mpr ⟨fun q hq => ⟨_, rfl, hl.start_le q hq⟩, ih⟩

theorem Joins.getLast (h : Joins l p) : ∃ q, l.getLast? = some q ∧ q.stop = p.stop := by
  induction h with
  | single => exact ⟨_, rfl, rfl⟩
  | cons _ hl ih =>
    obtain ⟨q, hq, hstop⟩ := ih
    exact ⟨q, by rw [getLast?_cons, hq]; rfl, hstop⟩

/-- How long the span is; an open one counts for nothing. -/
def length [Sub α] [Zero α] (p : Span α) : α := p.stop.elim 0 (· - p.start)

theorem Joins.sum_length {β : Type u} [AddCommGroup β] [LinearOrder β] {l : List (Span β)}
    {p : Span β} (h : Joins l p) (hp : p.stop ≠ none) : (l.map length).sum = p.length := by
  induction h with
  | single => simp
  | @cons l s m e hs hl ih =>
    rcases e with _ | e
    · exact absurd rfl hp
    · rw [map_cons, sum_cons, ih (Option.some_ne_none e)]
      simp only [length, Option.elim_some]
      abel

theorem inOrder_flatMap {ι : Type v} {κ : Type*} {span : ι → Span α} {span' : κ → Span α}
    {split : ι → List κ} {l : List ι} (hl : l.Pairwise fun i j => (span i).Before (span j))
    (hsplit : ∀ i ∈ l, Joins ((split i).map span') (span i)) :
    (l.flatMap split).Pairwise fun i j => (span' i).Before (span' j) := by
  rw [pairwise_flatMap]
  refine ⟨fun i hi => ?_, hl.imp_of_mem fun {i j} hi hj hij x hx y hy => ?_⟩
  · have h := (hsplit i hi).inOrder
    rwa [pairwise_map] at h
  · obtain ⟨e, he, hle⟩ := hij
    obtain ⟨e', he', hle'⟩ := (hsplit i hi).stop_le _ (mem_map_of_mem hx) e he
    have hstart := (hsplit j hj).start_le _ (mem_map_of_mem hy)
    exact ⟨e', he', (hle'.trans hle).trans hstart⟩

end Span
