import Mathlib.Data.List.Infix

/-!
# Trails

A thing is moved step by step from a first point, and each step leads to a point computed from the
one before and from a choice.  When no two of the steps that are taken lead to one point, and none
leads back to the first, no point is ever visited twice: the visited points are as good as the lists
of choices.
-/

set_option autoImplicit false

universe u v

section Trail

variable {α : Type u} {β : Type v}

/-- The point reached from `base` by the given choices, the last one first. -/
def trail (next : α → β → α) (base : α) : List β → α
  | [] => base
  | b :: bs => next (trail next base bs) b

/-- Every step to the point is one of `S`. -/
def Along (next : α → β → α) (S : α → β → Prop) (base : α) : List β → Prop
  | [] => True
  | b :: bs => S (trail next base bs) b ∧ Along next S base bs

/-- The steps of `S` lead to points of their own, none of which is the first. -/
structure Distinct (next : α → β → α) (S : α → β → Prop) (base : α) : Prop where
  step : ∀ {a b a' b'}, S a b → S a' b' → next a b = next a' b' → a = a' ∧ b = b'
  base : ∀ {a b}, S a b → next a b ≠ base

variable {next : α → β → α} {S : α → β → Prop} {base : α}

theorem Along.of_suffix {bs cs : List β} (h : bs <:+ cs) (hcs : Along next S base cs) :
    Along next S base bs := by
  induction cs with
  | nil =>
    rw [List.suffix_nil.mp h]
    trivial
  | cons c cs ih =>
    rcases List.suffix_cons_iff.mp h with rfl | h
    · exact hcs
    · exact ih h hcs.2

theorem Distinct.trail_injective (hd : Distinct next S base) {bs cs : List β}
    (hbs : Along next S base bs) (hcs : Along next S base cs)
    (h : trail next base bs = trail next base cs) : bs = cs := by
  induction bs generalizing cs with
  | nil =>
    cases cs with
    | nil => rfl
    | cons c cs => exact absurd h.symm (hd.base hcs.1)
  | cons b bs ih =>
    cases cs with
    | nil => exact absurd h (hd.base hbs.1)
    | cons c cs =>
      obtain ⟨htail, hhead⟩ := hd.step hbs.1 hcs.1 h
      rw [ih hbs.2 hcs.2 htail, hhead]

/-- `p` is on the trail to `q`. -/
def Before (next : α → β → α) (S : α → β → Prop) (base p q : α) : Prop :=
  ∃ bs cs, bs <:+ cs ∧ Along next S base cs ∧ p = trail next base bs ∧ q = trail next base cs

namespace Before

variable {p q : α}

theorem base_self : Before next S base base base := ⟨[], [], List.suffix_rfl, trivial, rfl, rfl⟩

theorem right_self (h : Before next S base p q) : Before next S base q q := by
  obtain ⟨_, cs, _, hcs, _, rfl⟩ := h
  exact ⟨cs, cs, List.suffix_rfl, hcs, rfl, rfl⟩

variable {b c : β}

theorem step (h : Before next S base p q) (hb : S q b) : Before next S base p (next q b) := by
  obtain ⟨bs, cs, hbs, hcs, rfl, rfl⟩ := h
  exact ⟨bs, b :: cs, hbs.trans (List.suffix_cons b cs), ⟨hb, hcs⟩, rfl, rfl⟩

variable (hd : Distinct next S base) (h : Before next S base p q)
include hd h

/-- A step leaves the trail so far. -/
theorem ne_step (hb : S q b) : p ≠ next q b := by
  obtain ⟨bs, cs, hbs, hcs, rfl, rfl⟩ := h
  intro heq
  obtain rfl : bs = b :: cs := hd.trail_injective (hcs.of_suffix hbs) ⟨hb, hcs⟩ heq
  have hlen := hbs.length_le
  rw [List.length_cons] at hlen
  omega

omit h in
theorem step_ne_step (hne : p ≠ q) (hb : S p b) (hc : S q c) : next p b ≠ next q c :=
  fun heq => hne (hd.step hb hc heq).1

end Before

end Trail
