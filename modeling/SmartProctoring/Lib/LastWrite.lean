import Mathlib.Data.List.Induction

/-!
# Records that a list of writes changes

A record is changed by one write after another.  A field that each write sets, or leaves alone,
holds what the last write gave for it (`foldl_last`); a field that keeps its first value holds what
the first one gave (`foldl_first`).
-/

set_option autoImplicit false

namespace LastWrite

open List Option

universe u v w

variable {σ : Type u} {ε : Type v} {α : Type w}

/-- What the last write that gives something gives. -/
def last (get : ε → Option α) (es : List ε) : Option α :=
  es.foldl (fun acc e => (get e).or acc) none

/-- What the first write that gives something gives. -/
def first (get : ε → Option α) (es : List ε) : Option α := es.findSome? get

theorem last_concat (get : ε → Option α) (es : List ε) (e : ε) :
    last get (es ++ [e]) = (get e).or (last get es) := by
  rw [last, foldl_append]
  rfl

theorem first_concat (get : ε → Option α) (es : List ε) (e : ε) :
    first get (es ++ [e]) = (first get es).or (get e) := by
  rw [first, findSome?_append, findSome?_singleton]
  rfl

variable {get : ε → Option α} {es : List ε}

theorem mem_of_last {a : α} (h : last get es = some a) : ∃ e ∈ es, get e = some a := by
  induction es using reverseRecOn with
  | nil => exact absurd h.symm (some_ne_none a)
  | append_singleton es e ih =>
    rw [last_concat] at h
    cases he : get e with
    | some b =>
      rw [he] at h
      exact ⟨e, mem_append_right _ (mem_singleton_self e), he.trans h⟩
    | none =>
      rw [he] at h
      obtain ⟨e', he', hget⟩ := ih h
      exact ⟨e', mem_append_left _ he', hget⟩

theorem last_eq_none (h : ∀ e ∈ es, get e = none) : last get es = none := by
  by_contra hne
  obtain ⟨a, ha⟩ := ne_none_iff_exists'.1 hne
  obtain ⟨e, he, hget⟩ := mem_of_last ha
  exact absurd ((h e he).symm.trans hget) (some_ne_none a).symm

theorem first_eq_none (h : ∀ e ∈ es, get e = none) : first get es = none :=
  findSome?_eq_none_iff.2 h

theorem last_isSome (get : ε → Option α) (es : List ε) :
    (last get es).isSome = es.any fun e => (get e).isSome := by
  induction es using reverseRecOn with
  | nil => rfl
  | append_singleton es e ih =>
    rw [last_concat, isSome_or, ih, any_append, any_cons, any_nil, Bool.or_false, Bool.or_comm]

theorem first_isSome (get : ε → Option α) (es : List ε) :
    (first get es).isSome = es.any fun e => (get e).isSome := by
  rw [first, isSome_findSome?]

theorem foldl_last {set : σ → ε → σ} {proj : σ → Option α}
    (h : ∀ s e, proj (set s e) = (get e).or (proj s)) (s : σ) (es : List ε) :
    proj (es.foldl set s) = (last get es).or (proj s) := by
  induction es using reverseRecOn with
  | nil => rfl
  | append_singleton es e ih => rw [foldl_append, last_concat, Option.or_assoc, ← ih, ← h]; rfl

theorem foldl_first {set : σ → ε → σ} {proj : σ → Option α} {get keep : ε → Option α}
    (h : ∀ s e, proj (set s e) = (get e).or ((proj s).or (keep e))) (s : σ) (es : List ε) :
    proj (es.foldl set s) = (last get es).or ((proj s).or (first keep es)) := by
  induction es using reverseRecOn with
  | nil => exact or_none.symm
  | append_singleton es e ih =>
    rw [foldl_append, last_concat, first_concat, foldl_cons, foldl_nil, h, ih]
    simp only [Option.or_assoc]

end LastWrite
