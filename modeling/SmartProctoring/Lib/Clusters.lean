import Mathlib.Algebra.Order.Group.Defs
import Mathlib.Algebra.Order.Monoid.Unbundled.Basic
import Mathlib.Data.List.Induction
import Mathlib.Data.List.Pairwise
import Mathlib.Logic.Relation

/-!
# Clusters of spans

Entries with a span each, from `start` to `stop`.  Two entries are `Near` when their spans overlap
or lie within a gap of each other, and `Linked` when a chain of entries leads from one to the other,
each near the next.

One sweep over the entries in the order of their starts, with the latest stop of the group at hand,
finds the clusters: two entries are in one group exactly when they are linked (`same_cluster_iff`),
and the groups lie further apart than the gap (`clusters_apart`).
-/

set_option autoImplicit false

universe u v

namespace Clusters

open List

variable {E : Type u} {T : Type v} [AddCommGroup T] [LinearOrder T]

section

variable (start stop : E → T) (gap : T)

/-- The spans overlap or lie within the gap. -/
def Near (e f : E) : Prop := start f ≤ stop e + gap ∧ start e ≤ stop f + gap

/-- A chain of entries of the list leads from one to the other. -/
def Linked (l : List E) : E → E → Prop :=
  Relation.ReflTransGen fun e f => e ∈ l ∧ f ∈ l ∧ Near start stop gap e f

/-- The second group begins after every span of the first, by more than the gap. -/
def Before (g h : List E) : Prop := ∀ e ∈ g, ∀ f ∈ h, stop e + gap < start f

end

/-- Where a sweep is: the groups that are complete, the group at hand and its latest stop. -/
structure Sweep (E : Type u) (T : Type v) where
  groups : List (List E)
  last : List E
  fin : T

def Sweep.all (s : Sweep E T) : List (List E) := s.groups ++ [s.last]

section

variable (start stop : E → T) (gap : T)

/-- One entry: into the group at hand, or into a new one. -/
def step (s : Option (Sweep E T)) (e : E) : Option (Sweep E T) :=
  match s with
  | none => some ⟨[], [e], stop e⟩
  | some s =>
    if start e ≤ s.fin + gap then some ⟨s.groups, s.last ++ [e], max s.fin (stop e)⟩
    else some ⟨s.all, [e], stop e⟩

/-- The groups that a sweep over the entries makes. -/
def clusters (l : List E) : List (List E) :=
  match l.foldl (step start stop gap) none with
  | none => []
  | some s => s.all

/-- What holds after a sweep over the entries of a list. -/
structure SweepInv (l : List E) (s : Sweep E T) : Prop where
  flatten : s.all.flatten = l
  ne_nil : ∀ g ∈ s.all, g ≠ []
  reaches : ∃ f ∈ s.last, stop f = s.fin
  le_fin : ∀ f ∈ s.last, stop f ≤ s.fin
  linked : ∀ g ∈ s.all, ∀ e ∈ g, ∀ f ∈ g, Linked start stop gap l e f
  apart : s.all.Pairwise (Before start stop gap)

end

variable {start stop : E → T} {gap : T}

variable {l : List E} {e f : E}

theorem Linked.symm (h : Linked start stop gap l e f) : Linked start stop gap l f e := by
  induction h with
  | refl => exact .refl
  | tail _ hlast ih => exact .head ⟨hlast.2.1, hlast.1, hlast.2.2.2, hlast.2.2.1⟩ ih

theorem Linked.mono {l m : List E} (hsub : ∀ e ∈ l, e ∈ m) (h : Linked start stop gap l e f) :
    Linked start stop gap m e f :=
  Relation.ReflTransGen.mono (fun _ _ h => ⟨hsub _ h.1, hsub _ h.2.1, h.2.2⟩) _ _ h

theorem linked_congr {l m : List E} (h : ∀ e, e ∈ l ↔ e ∈ m) :
    Linked start stop gap l e f ↔ Linked start stop gap m e f :=
  ⟨Linked.mono fun e => (h e).1, Linked.mono fun e => (h e).2⟩

theorem sweepInv_single (e : E) : SweepInv start stop gap [e] ⟨[], [e], stop e⟩ where
  flatten := rfl
  ne_nil g hg := by
    rw [mem_singleton.1 hg]
    exact cons_ne_nil e []
  reaches := ⟨e, mem_singleton_self e, rfl⟩
  le_fin f hf := by rw [mem_singleton.1 hf]
  linked g hg f hf f' hf' := by
    rw [mem_singleton.1 hg] at hf hf'
    rw [mem_singleton.1 hf, mem_singleton.1 hf']
    exact .refl
  apart := pairwise_singleton ..

variable [IsOrderedAddMonoid T]

theorem SweepInv.step (hgap : 0 ≤ gap) (hspan : ∀ e, start e ≤ stop e) {s : Sweep E T}
    (h : SweepInv start stop gap l s) (hlate : ∀ f ∈ l, start f ≤ start e) :
    ∃ s', step start stop gap (some s) e = some s' ∧ SweepInv start stop gap (l ++ [e]) s' := by
  have hflat : s.groups.flatten ++ s.last = l := by
    rw [← h.flatten, Sweep.all, flatten_append, flatten_singleton]
  have hmem : ∀ g ∈ s.all, ∀ f ∈ g, f ∈ l := fun g hg f hf => h.flatten ▸ mem_flatten.2 ⟨g, hg, hf⟩
  have hlast : s.last ∈ s.all := mem_append_right _ (mem_singleton_self _)
  have hold : ∀ {f f' : E}, Linked start stop gap l f f' → Linked start stop gap (l ++ [e]) f f' :=
    Linked.mono fun _ hf => mem_append_left _ hf
  have happart := pairwise_append.1 h.apart
  obtain ⟨f₀, hf₀, hfin⟩ := h.reaches
  by_cases hnear : start e ≤ s.fin + gap
  · refine ⟨⟨s.groups, s.last ++ [e], max s.fin (stop e)⟩, if_pos hnear, ?_⟩
    -- the entry is near the one that reaches furthest
    have hlink : Linked start stop gap (l ++ [e]) f₀ e := by
      refine .single ⟨mem_append_left _ (hmem _ hlast f₀ hf₀), mem_append_right _ (mem_singleton_self e), ?_, ?_⟩
      · rwa [hfin]
      · calc start f₀ ≤ start e := hlate f₀ (hmem _ hlast f₀ hf₀)
          _ ≤ stop e := hspan e
          _ ≤ stop e + gap := le_add_of_nonneg_right hgap
    have hjoin : ∀ f ∈ s.last ++ [e], Linked start stop gap (l ++ [e]) f₀ f := by
      intro f hf
      rcases mem_append.1 hf with hf | hf
      · exact hold (h.linked _ hlast f₀ hf₀ f hf)
      · rwa [mem_singleton.1 hf]
    constructor
    · rw [Sweep.all, flatten_append, flatten_singleton, ← append_assoc, hflat]
    · intro g hg
      rcases mem_append.1 hg with hg | hg
      · exact h.ne_nil g (mem_append_left _ hg)
      · rw [mem_singleton.1 hg]
        exact append_ne_nil_of_right_ne_nil _ (cons_ne_nil e [])
    · rcases le_total (stop e) s.fin with hle | hle
      · exact ⟨f₀, mem_append_left _ hf₀, by rw [hfin, max_eq_left hle]⟩
      · exact ⟨e, mem_append_right _ (mem_singleton_self e), (max_eq_right hle).symm⟩
    · intro f hf
      rcases mem_append.1 hf with hf | hf
      · exact le_max_of_le_left (h.le_fin f hf)
      · rw [mem_singleton.1 hf]
        exact le_max_right ..
    · intro g hg f hf f' hf'
      rcases mem_append.1 hg with hg | hg
      · exact hold (h.linked g (mem_append_left _ hg) f hf f' hf')
      · rw [mem_singleton.1 hg] at hf hf'
        exact (hjoin f hf).symm.trans (hjoin f' hf')
    · refine pairwise_append.2 ⟨happart.1, pairwise_singleton .., fun g hg g' hg' f hf f' hf' => ?_⟩
      have hbefore := happart.2.2 g hg s.last (mem_singleton_self _) f hf
      rw [mem_singleton.1 hg'] at hf'
      rcases mem_append.1 hf' with hf' | hf'
      · exact hbefore f' hf'
      · rw [mem_singleton.1 hf']
        exact (hbefore f₀ hf₀).trans_le (hlate f₀ (hmem _ hlast f₀ hf₀))
  · refine ⟨⟨s.all, [e], stop e⟩, if_neg hnear, ?_⟩
    have hsingle : SweepInv start stop gap [e] ⟨[], [e], stop e⟩ := sweepInv_single e
    constructor
    · rw [Sweep.all, flatten_append, h.flatten, flatten_singleton]
    · intro g hg
      rcases mem_append.1 hg with hg | hg
      · exact h.ne_nil g hg
      · exact hsingle.ne_nil g hg
    · exact hsingle.reaches
    · exact hsingle.le_fin
    · intro g hg f hf f' hf'
      rcases mem_append.1 hg with hg | hg
      · exact hold (h.linked g hg f hf f' hf')
      · rw [mem_singleton.1 hg, mem_singleton] at hf hf'
        rw [hf, hf']
        exact .refl
    · refine pairwise_append.2 ⟨h.apart, pairwise_singleton .., fun g hg g' hg' f hf f' hf' => ?_⟩
      rw [mem_singleton.1 hg', mem_singleton] at hf'
      rw [hf']
      have hle : stop f + gap ≤ s.fin + gap ∨ stop f + gap < start f₀ := by
        rcases mem_append.1 hg with hg | hg
        · exact .inr (happart.2.2 g hg s.last (mem_singleton_self _) f hf f₀ hf₀)
        · rw [mem_singleton.1 hg] at hf
          exact .inl (add_le_add_left (h.le_fin f hf) gap)
      rcases hle with hle | hlt
      · exact hle.trans_lt (not_le.1 hnear)
      · exact hlt.trans_le (hlate f₀ (hmem _ hlast f₀ hf₀))

/-! ## What the sweep finds -/

section

variable (hgap : 0 ≤ gap) (hspan : ∀ e, start e ≤ stop e) {l : List E}
  (hsorted : l.Pairwise fun e f => start e ≤ start f)
include hgap hspan hsorted

theorem sweep_spec (hl : l ≠ []) :
    ∃ s, l.foldl (Clusters.step start stop gap) none = some s ∧ SweepInv start stop gap l s := by
  induction l using reverseRecOn with
  | nil => exact absurd rfl hl
  | append_singleton l e ih =>
    rw [pairwise_append] at hsorted
    rw [foldl_append]
    rcases eq_or_ne l [] with rfl | hne
    · exact ⟨_, rfl, sweepInv_single e⟩
    · obtain ⟨s, hs, hinv⟩ := ih hsorted.1 hne
      rw [hs]
      exact hinv.step hgap hspan fun f hf => hsorted.2.2 f hf e (mem_singleton_self e)

theorem clusters_cases :
    (l = [] ∧ clusters start stop gap l = []) ∨ ∃ s,
    clusters start stop gap l = s.all ∧ SweepInv start stop gap l s := by
  rcases eq_or_ne l [] with rfl | hne
  · exact .inl ⟨rfl, rfl⟩
  · obtain ⟨s, hs, hinv⟩ := sweep_spec hgap hspan hsorted hne
    exact .inr ⟨s, by rw [clusters, hs], hinv⟩

/-- Each entry is in exactly one group. -/
theorem flatten_clusters : (clusters start stop gap l).flatten = l := by
  rcases clusters_cases hgap hspan hsorted with ⟨rfl, h⟩ | ⟨s, h, hinv⟩
  · rfl
  · rw [h, hinv.flatten]

theorem cluster_ne_nil {g : List E} (hg : g ∈ clusters start stop gap l) : g ≠ [] := by
  rcases clusters_cases hgap hspan hsorted with ⟨-, h⟩ | ⟨s, h, hinv⟩
  · rw [h] at hg
    exact absurd hg not_mem_nil
  · exact hinv.ne_nil g (h ▸ hg)

theorem clusters_apart : (clusters start stop gap l).Pairwise (Before start stop gap) := by
  rcases clusters_cases hgap hspan hsorted with ⟨-, h⟩ | ⟨s, h, hinv⟩
  · rw [h]
    exact .nil
  · exact h ▸ hinv.apart

theorem before_or_before {g h : List E} (hg : g ∈ clusters start stop gap l)
    (hh : h ∈ clusters start stop gap l)
    (hne : g ≠ h) : Before start stop gap g h ∨ Before start stop gap h g := by
  have hpairs := (clusters_apart hgap hspan hsorted).imp
    (S := fun g h => Before start stop gap g h ∨ Before start stop gap h g) fun hb => .inl hb
  have : Std.Symm fun g h => Before start stop gap g h ∨ Before start stop gap h g :=
    ⟨fun _ _ => Or.symm⟩
  exact hpairs.forall hg hh hne

/-- **One sweep finds the clusters**: two entries are in one group exactly when they are linked. -/
theorem same_cluster_iff {e f : E} (he : e ∈ l) :
    (∃ g ∈ clusters start stop gap l, e ∈ g ∧ f ∈ g) ↔ Linked start stop gap l e f := by
  constructor
  · rintro ⟨g, hg, heg, hfg⟩
    rcases clusters_cases hgap hspan hsorted with ⟨-, h⟩ | ⟨s, h, hinv⟩
    · rw [h] at hg
      exact absurd hg not_mem_nil
    · exact hinv.linked g (h ▸ hg) e heg f hfg
  · have hgroup : ∀ e ∈ l, ∃ g ∈ clusters start stop gap l, e ∈ g := fun e he => by
      rwa [← flatten_clusters hgap hspan hsorted, mem_flatten] at he
    intro hlink
    induction hlink with
    | refl =>
      obtain ⟨g, hg, heg⟩ := hgroup e he
      exact ⟨g, hg, heg, heg⟩
    | tail _ hlast ih =>
      -- entries near each other are not in different groups
      obtain ⟨g, hg, heg, hfg⟩ := ih
      obtain ⟨h, hh, hfh⟩ := hgroup _ hlast.2.1
      by_cases hgh : g = h
      · exact ⟨g, hg, heg, hgh ▸ hfh⟩
      · rcases before_or_before hgap hspan hsorted hg hh hgh with hb | hb
        · exact absurd hlast.2.2.1 (not_le.2 (hb _ hfg _ hfh))
        · exact absurd hlast.2.2.2 (not_le.2 (hb _ hfh _ hfg))

end

end Clusters
