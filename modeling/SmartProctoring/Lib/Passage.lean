import Mathlib.Data.List.Induction
import Mathlib.Data.List.Nodup
import Mathlib.Data.List.Perm.Basic

/-!
# Things in places

A thing enters at a place, moves from place to place, and leaves; a `Layout` says where it may
enter, along which routes it moves, and by which exits it leaves.  `held` lists where the things are
that have not left, and `log` what happened to each.  `Accounted` says that the two agree: each
thing that has entered and not left is in exactly one place, the one that its moves led to, and a
thing that has left is nowhere and nothing happens to it any more.

The rules say that entering, moving along a route and leaving by an exit keep the account.  In which
order `held` lists the things does not matter (`Accounted.perm`).
-/

set_option autoImplicit false

universe u v w

section Passage

variable {κ : Type u} {π : Type v} {ρ : Type w}

/-- What happens to a thing. -/
inductive Passage (π : Type v) (ρ : Type w)
  | entered (p : π)
  | moved (p : π)
  | left (r : ρ)
  deriving DecidableEq

/-- Where things may enter, move and leave. -/
structure Layout (π : Type v) (ρ : Type w) where
  entry : π → Prop
  route : π → π → Prop
  exit : π → ρ → Prop

/-- What happened to the thing `k`, in order. -/
def passages [DecidableEq κ] (log : List (κ × Passage π ρ)) (k : κ) : List (Passage π ρ) :=
  log.filterMap fun e => if e.1 = k then some e.2 else none

/-- The passages of a thing that got to the place `p`. -/
inductive Way (L : Layout π ρ) : List (Passage π ρ) → π → Prop
  | entered {p : π} (hp : L.entry p) : Way L [.entered p] p
  | moved {l : List (Passage π ρ)} {p q : π} (h : Way L l p) (hpq : L.route p q) :
    Way L (l ++ [.moved q]) q

variable [DecidableEq κ] {L : Layout π ρ} {held : List (κ × π)}
  {log : List (κ × Passage π ρ)} {k k' : κ} {p q : π} {r : ρ}

theorem Way.ne_nil {l : List (Passage π ρ)} (h : Way L l p) : l ≠ [] := by
  cases h with
  | entered => exact List.cons_ne_nil _ _
  | moved => exact List.append_ne_nil_of_right_ne_nil _ (List.cons_ne_nil _ _)

/-- What has become of the thing `k`. -/
inductive Fate (L : Layout π ρ) (held : List (κ × π))
    (log : List (κ × Passage π ρ)) (k : κ) : Prop
  | unknown (hlog : passages log k = []) (hheld : k ∉ held.map Prod.fst)
  | held (p : π) (hway : Way L (passages log k) p) (hheld : (k, p) ∈ held)
  | gone (l : List (Passage π ρ)) (p : π) (r : ρ) (hlog : passages log k = l ++ [.left r])
    (hway : Way L l p) (hexit : L.exit p r) (hheld : k ∉ held.map Prod.fst)

/-- Every thing is accounted for. -/
structure Accounted (L : Layout π ρ) (held : List (κ × π))
    (log : List (κ × Passage π ρ)) : Prop where
  nodup : (held.map Prod.fst).Nodup
  fate : ∀ k, Fate L held log k

theorem passages_append_self (log : List (κ × Passage π ρ)) (k : κ) (e : Passage π ρ) :
    passages (log ++ [(k, e)]) k = passages log k ++ [e] := by
  simp [passages]

theorem passages_append_of_ne (log : List (κ × Passage π ρ)) {k k' : κ} (h : k ≠ k')
    (e : Passage π ρ) : passages (log ++ [(k, e)]) k' = passages log k' := by
  simp [passages, h]

theorem Fate.other {held' : List (κ × π)} (h : Fate L held log k') (hne : k ≠ k')
    (e : Passage π ρ) (hheld : ∀ p, (k', p) ∈ held ↔ (k', p) ∈ held') :
    Fate L held' (log ++ [(k, e)]) k' := by
  have hkeys : k' ∉ held.map Prod.fst → k' ∉ held'.map Prod.fst := by
    intro hno hmem
    obtain ⟨⟨_, p⟩, hp, rfl⟩ := List.mem_map.1 hmem
    exact hno (List.mem_map_of_mem ((hheld p).2 hp))
  have hsame := passages_append_of_ne log hne e
  obtain ⟨hlog, hno⟩ | ⟨p, hway, hp⟩ | ⟨l, p, r, hlog, hway, hexit, hno⟩ := h
  · exact .unknown (hsame.trans hlog) (hkeys hno)
  · exact .held p (hsame.symm ▸ hway) ((hheld p).1 hp)
  · exact .gone l p r (hsame.trans hlog) hway hexit (hkeys hno)

/-- The places where `k` is. -/
def placesOf (held : List (κ × π)) (k : κ) : List π :=
  (held.filter fun e => decide (e.1 = k)).map Prod.snd

theorem placesOf_eq_nil (h : k ∉ held.map Prod.fst) : placesOf held k = [] := by
  rw [placesOf, List.map_eq_nil_iff, List.filter_eq_nil_iff]
  intro e he hk
  exact h (of_decide_eq_true hk ▸ List.mem_map_of_mem he)

theorem placesOf_eq_singleton (hnodup : (held.map Prod.fst).Nodup) (h : (k, p) ∈ held) :
    placesOf held k = [p] := by
  obtain ⟨pre, post, rfl⟩ := List.append_of_mem h
  rw [List.map_append, List.map_cons, List.nodup_append, List.nodup_cons] at hnodup
  obtain ⟨-, ⟨hpost, -⟩, hdisj⟩ := hnodup
  have hpre : k ∉ pre.map Prod.fst := fun hk => hdisj k hk k List.mem_cons_self rfl
  have hself : decide (((k, p) : κ × π).1 = k) = true := decide_eq_true rfl
  have hsplit : placesOf (pre ++ (k, p) :: post) k = placesOf pre k ++ p :: placesOf post k := by
    rw [placesOf, List.filter_append, List.filter_cons, if_pos hself, List.map_append]
    rfl
  rw [hsplit, placesOf_eq_nil hpre, placesOf_eq_nil hpost]
  rfl

namespace Accounted

open List

theorem nil : Accounted L ([] : List (κ × π)) ([] : List (κ × Passage π ρ)) :=
  ⟨nodup_nil, fun _ => .unknown rfl (not_mem_nil)⟩

theorem perm {held' : List (κ × π)} (h : Accounted L held log) (hp : held.Perm held') :
    Accounted L held' log := by
  have hkeys : ∀ k, k ∉ held.map Prod.fst → k ∉ held'.map Prod.fst := fun k hno hmem =>
    hno ((hp.map Prod.fst).mem_iff.2 hmem)
  refine ⟨(hp.map Prod.fst).nodup_iff.1 h.nodup, fun k => ?_⟩
  obtain ⟨hlog, hno⟩ | ⟨p, hway, hheld⟩ | ⟨l, p, r, hlog, hway, hexit, hno⟩ := h.fate k
  · exact .unknown hlog (hkeys k hno)
  · exact .held p hway (hp.mem_iff.1 hheld)
  · exact .gone l p r hlog hway hexit (hkeys k hno)

theorem enter (h : Accounted L held log) (hk : passages log k = []) (hp : L.entry p) :
    Accounted L ((k, p) :: held) (log ++ [(k, .entered p)]) := by
  have hno : k ∉ held.map Prod.fst := by
    obtain ⟨-, hno⟩ | ⟨p, hway, -⟩ | ⟨l, p, r, hlog, -, -, -⟩ := h.fate k
    · exact hno
    · exact absurd hk hway.ne_nil
    · rw [hk] at hlog
      exact absurd hlog.symm (append_ne_nil_of_right_ne_nil _ (cons_ne_nil _ _))
  refine ⟨nodup_cons.2 ⟨hno, h.nodup⟩, fun k' => ?_⟩
  by_cases hkk : k = k'
  · subst hkk
    refine .held p ?_ mem_cons_self
    rw [passages_append_self, hk]
    exact .entered hp
  · refine (h.fate k').other hkk _ fun q => ?_
    rw [mem_cons, Prod.mk.injEq, or_iff_right fun hc => hkk hc.1.symm]

theorem enterAll (hp : L.entry p) {ks : List κ} (hnodup : ks.Nodup) :
    Accounted L (ks.map fun k => (k, p)) (ks.map fun k => (k, .entered p)) := by
  induction ks using reverseRecOn with
  | nil => exact nil
  | append_singleton ks k ih =>
    rw [nodup_append] at hnodup
    have hnew : passages (ks.map fun k => (k, Passage.entered (ρ := ρ) p)) k = [] := by
      refine filterMap_eq_nil_iff.2 fun e he => if_neg fun heq => ?_
      obtain ⟨k', hk', rfl⟩ := mem_map.1 he
      exact hnodup.2.2 k' hk' k (mem_singleton.2 rfl) heq
    have h := (ih hnodup.1).enter hnew hp
    rw [map_append, map_append]
    exact h.perm (perm_append_singleton _ _).symm

section

variable (h : Accounted L ((k, p) :: held) log)
include h

theorem way : Way L (passages log k) p := by
  have hmem : k ∈ ((k, p) :: held).map Prod.fst := mem_cons_self
  obtain ⟨-, hno⟩ | ⟨q, hway, hheld⟩ | ⟨l, q, r, -, -, -, hno⟩ := h.fate k
  · exact absurd hmem hno
  · obtain heq | hheld := mem_cons.1 hheld
    · obtain rfl := (Prod.mk.inj heq).2
      exact hway
    · exact absurd (mem_map_of_mem hheld) (nodup_cons.1 h.nodup).1
  · exact absurd hmem hno

theorem logged : ∃ e ∈ log, e.1 = k := by
  by_contra hno
  refine h.way.ne_nil (filterMap_eq_nil_iff.2 fun e he => if_neg fun heq => ?_)
  exact hno ⟨e, he, heq⟩

theorem move (hpq : L.route p q) : Accounted L ((k, q) :: held) (log ++ [(k, .moved q)]) := by
  refine ⟨h.nodup, fun k' => ?_⟩
  by_cases hkk : k = k'
  · subst hkk
    refine .held q ?_ mem_cons_self
    rw [passages_append_self]
    exact .moved h.way hpq
  · refine (h.fate k').other hkk _ fun q' => ?_
    simp only [mem_cons, Prod.mk.injEq, Ne.symm hkk, false_and, false_or]

theorem leave (hr : L.exit p r) : Accounted L held (log ++ [(k, .left r)]) := by
  obtain ⟨hno, hnodup⟩ := nodup_cons.1 h.nodup
  refine ⟨hnodup, fun k' => ?_⟩
  by_cases hkk : k = k'
  · subst hkk
    exact .gone _ p r (passages_append_self log k _) h.way hr hno
  · refine (h.fate k').other hkk _ fun q => ?_
    rw [mem_cons, Prod.mk.injEq, or_iff_right fun hc => hkk hc.1.symm]

end

/-- Several things leave. -/
theorem leaveAll {gone : List (κ × π)} (h : Accounted L (gone ++ held) log)
    (hr : ∀ e ∈ gone, L.exit e.2 r) :
    Accounted L held (log ++ gone.map fun e => (e.1, .left r)) := by
  induction gone generalizing log with
  | nil => rwa [map_nil, append_nil]
  | cons e gone ih =>
    obtain ⟨k, p⟩ := e
    have hfirst : Accounted L (gone ++ held) (log ++ [(k, .left r)]) :=
      h.leave (hr _ mem_cons_self)
    have hrest := ih hfirst fun e he => hr e (mem_cons_of_mem _ he)
    rwa [append_assoc] at hrest

end Accounted

end Passage
