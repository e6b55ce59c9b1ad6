import Mathlib.Data.List.Pairwise
import Mathlib.Data.List.Sort
import Mathlib.Order.Lattice

/-!
# Spans of a linear order that do not overlap

A `Span` is a half-open interval `[start, stop)`, or `[start, ∞)` while it has no stop.  Two spans
are `Apart` when no instant belongs to both; an empty span (one that stops where it starts) is apart
from everything.  The entries of a list are `PairwiseApart` when no two of their spans meet.

The rules say how such a list may be changed: entries may shrink, an entry may be inserted where
nothing else is, and an entry may be split, a part of it handed to a new one.  At most one entry is
open (`PairwiseApart.at_most_one_open`), which is why closing the last open entry closes all of
them.
-/

set_option autoImplicit false

universe u v

/-- A half-open interval; without a `stop` it is still open. -/
structure Span (α : Type u) where
  start : α
  stop : Option α

namespace Span

variable {α : Type u} [LinearOrder α] {p q r : Span α}

/-- The instant belongs to the span. -/
def Covers (p : Span α) (t : α) : Prop := p.start ≤ t ∧ ∀ e ∈ p.stop, t < e

/-- Every instant of `p` is one of `q`. -/
def Within (p q : Span α) : Prop := ∀ t, p.Covers t → q.Covers t

/-- No instant belongs to both. -/
def Apart (p q : Span α) : Prop := ∀ t, ¬ (p.Covers t ∧ q.Covers t)

theorem Within.refl (p : Span α) : p.Within p := fun _ h => h

theorem Apart.symm (h : p.Apart q) : q.Apart p := fun t ht => h t ⟨ht.2, ht.1⟩

theorem Apart.mono (h : q.Apart r) (hp : p.Within q) : p.Apart r :=
  fun t ht => h t ⟨hp t ht.1, ht.2⟩

theorem within_of_le (hs : q.start ≤ p.start) (he : ∀ e ∈ q.stop, ∃ e' ∈ p.stop, e' ≤ e) :
    p.Within q := by
  intro t ht
  refine ⟨hs.trans ht.1, fun e hqe => ?_⟩
  obtain ⟨e', hpe, hle⟩ := he e hqe
  exact (ht.2 e' hpe).trans_le hle

/-- One stops before the other starts. -/
theorem apart_of_stop_le {e : α} (he : p.stop = some e) (h : e ≤ q.start) : p.Apart q := by
  rintro t ⟨hp, hq⟩
  exact absurd (hp.2 e he) (not_lt.2 (h.trans hq.1))

theorem apart_of_empty {e : α} (he : p.stop = some e) (h : e ≤ p.start) : p.Apart q := by
  rintro t ⟨hp, -⟩
  exact absurd (hp.2 e he) (not_lt.2 (h.trans hp.1))

theorem Apart.empty_of_self (h : p.Apart p) : ∃ e ∈ p.stop, e ≤ p.start := by
  by_contra hno
  have hcovers : p.Covers p.start := by
    refine ⟨le_rfl, fun e he => not_le.1 fun hle => hno ⟨e, he, hle⟩⟩
  exact h p.start ⟨hcovers, hcovers⟩

/-- Two open spans meet. -/
theorem Apart.not_both_open (h : p.Apart q) : ¬ (p.stop = none ∧ q.stop = none) := by
  rintro ⟨hp, hq⟩
  exact h (max p.start q.start)
    ⟨⟨le_max_left _ _, by simp [hp]⟩, ⟨le_max_right _ _, by simp [hq]⟩⟩

end Span

section PairwiseApart

variable {α : Type u} {ι : Type v} [LinearOrder α] {span : ι → Span α} {l l' : List ι}

/-- The entries of `l` are pairwise apart. -/
def PairwiseApart (span : ι → Span α) (l : List ι) : Prop :=
  l.Pairwise fun p q => (span p).Apart (span q)

/-- Two different entries are apart. -/
theorem PairwiseApart.apart (h : PairwiseApart span l) {p q : ι} (hp : p ∈ l) (hq : q ∈ l)
    (hne : p ≠ q) : (span p).Apart (span q) := by
  have : Std.Symm fun p q : ι => (span p).Apart (span q) := ⟨fun _ _ h => h.symm⟩
  exact List.Pairwise.forall h hp hq hne

theorem PairwiseApart.perm (h : PairwiseApart span l) (hl : l.Perm l') : PairwiseApart span l' :=
  (hl.pairwise_iff fun h => h.symm).1 h

theorem PairwiseApart.at_most_one_open (h : PairwiseApart span l) :
    l.Pairwise fun p q => ¬ ((span p).stop = none ∧ (span q).stop = none) :=
  h.imp fun h => h.not_both_open

/-- Entries may shrink. -/
theorem PairwiseApart.shrink (h : PairwiseApart span l) {f : ι → ι}
    (hf : ∀ p ∈ l, (span (f p)).Within (span p)) : PairwiseApart span (l.map f) := by
  rw [PairwiseApart, List.pairwise_map]
  exact h.imp_of_mem fun hp hq hpq => (hpq.mono (hf _ hp)).symm.mono (hf _ hq) |>.symm

variable {p : ι}

theorem PairwiseApart.insert (h : PairwiseApart span l) (r : ι → ι → Prop) [DecidableRel r]
    (hp : ∀ q ∈ l, (span p).Apart (span q)) : PairwiseApart span (l.orderedInsert r p) :=
  PairwiseApart.perm (List.pairwise_cons.2 ⟨hp, h⟩) (List.perm_orderedInsert r p l).symm

theorem PairwiseApart.split (h : PairwiseApart span l) {f : ι → ι} {p n : ι} (hp : p ∈ l)
    (hf : ∀ q ∈ l, (span (f q)).Within (span q)) (hn : (span n).Within (span p))
    (hpn : (span (f p)).Apart (span n)) : ∀ q ∈ l.map f, (span n).Apart (span q) := by
  intro q' hq'
  obtain ⟨q, hq, rfl⟩ := List.mem_map.1 hq'
  by_cases hqp : q = p
  · rw [hqp]
    exact hpn.symm
  · exact ((h.apart hq hp hqp).mono (hf q hq)).symm.mono hn

end PairwiseApart
