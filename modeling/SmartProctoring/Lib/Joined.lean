import Mathlib.Data.List.Basic

/-!
# Texts that end with their value

A text over any alphabet ends with its value when what follows cannot be taken for a part of it
(`Cancels`).  Such texts can be joined with a separator and closed: the whole determines the parts
(`joinWith_cancel`).
-/

set_option autoImplicit false

universe u v

namespace Joined

open List

variable {α : Type u}

/-- Where one of two texts ends, the other ends too, if only `stops` can follow them. -/
def Cancels (stops : List α) (a b : List α) : Prop :=
  ∀ s t : List α, (∀ c ∈ s.head?, c ∈ stops) → (∀ c ∈ t.head?, c ∈ stops) → a ++ s = b ++ t →
  a = b ∧ s = t

/-- Texts joined with a separator. -/
def joinWith (sep : α) : List (List α) → List α
  | [] => []
  | [t] => t
  | t :: u :: ts => t ++ sep :: joinWith sep (u :: ts)

/-- The text begins, and not with `close`. -/
def Opens (close : α) (t : List α) : Prop := ∃ c rest, t = c :: rest ∧ c ≠ close

variable {stops : List α} {sep close : α}

theorem Opens.ne {t s x : List α} (h : Opens close t) : t ++ s ≠ close :: x := by
  obtain ⟨c, rest, rfl, hc⟩ := h
  intro heq
  exact hc (cons.inj heq).1

variable {t : List α}

theorem Opens.joinWith (h : Opens close t) (ts : List (List α)) :
    Opens close (joinWith sep (t :: ts)) := by
  cases ts with
  | nil => exact h
  | cons u us =>
    obtain ⟨c, rest, rfl, hc⟩ := h
    exact ⟨c, _, rfl, hc⟩

theorem head_stops {c : α} (hc : c ∈ stops) (s : List α) : ∀ x ∈ (c :: s).head?, x ∈ stops := by
  intro x hx
  obtain rfl := Option.some_inj.mp hx
  exact hc

variable {s : List α}

/-- **A closed list of texts determines the texts**, and where it ends. -/
theorem joinWith_cancel (hne : sep ≠ close) (hsep : sep ∈ stops) (hclose : close ∈ stops)
    {ts us : List (List α)}
    (hcancel : ∀ t ∈ ts, ∀ u ∈ us, Cancels stops t u) (hts : ∀ t ∈ ts, Opens close t)
    (hus : ∀ u ∈ us, Opens close u)
    (h : joinWith sep ts ++ close :: s = joinWith sep us ++ close :: t) : ts = us ∧ s = t := by
  induction ts generalizing us with
  | nil =>
    cases us with
    | nil => exact ⟨rfl, (cons.inj h).2⟩
    | cons u us => exact absurd h.symm ((hus u (mem_cons_self ..)).joinWith us).ne
  | cons a ts ih =>
    cases us with
    | nil => exact absurd h ((hts a (mem_cons_self ..)).joinWith ts).ne
    | cons u us =>
      have hau := hcancel a (mem_cons_self ..) u (mem_cons_self ..)
      rcases ts with _ | ⟨b, ts⟩ <;> rcases us with _ | ⟨v, us⟩
      · obtain ⟨rfl, hst⟩ := hau _ _ (head_stops hclose s) (head_stops hclose t) h
        exact ⟨rfl, (cons.inj hst).2⟩
      · rw [joinWith, joinWith, append_assoc] at h
        have hst := (hau _ _ (head_stops hclose s) (head_stops hsep _) h).2
        exact absurd (cons.inj hst).1.symm hne
      · rw [joinWith, joinWith, append_assoc] at h
        have hst := (hau _ _ (head_stops hsep _) (head_stops hclose t) h).2
        exact absurd (cons.inj hst).1 hne
      · rw [joinWith, joinWith, append_assoc, append_assoc] at h
        obtain ⟨rfl, hst⟩ := hau _ _ (head_stops hsep _) (head_stops hsep _) h
        obtain ⟨hrest, hend⟩ := ih
          (fun t ht u hu => hcancel t (mem_cons_of_mem _ ht) u (mem_cons_of_mem _ hu))
          (fun t ht => hts t (mem_cons_of_mem _ ht)) (fun u hu => hus u (mem_cons_of_mem _ hu))
          (cons.inj hst).2
        exact ⟨by rw [hrest], hend⟩

theorem joinWith_map_cancel {β : Type v} (text : β → List α) (hne : sep ≠ close)
    (hsep : sep ∈ stops) (hclose : close ∈ stops) {xs ys : List β}
    (h : ∀ x ∈ xs, ∀ y, Cancels stops (text x) (text y) ∧ (text x = text y → x = y))
    (hopens : ∀ x, Opens close (text x))
    (heq : joinWith sep (xs.map text) ++ close :: s = joinWith sep (ys.map text) ++ close :: t) :
    xs = ys ∧ s = t := by
  obtain ⟨hmap, hst⟩ := joinWith_cancel hne hsep hclose
    (forall_mem_map.mpr fun x hx => forall_mem_map.mpr fun y _ => (h x hx y).1)
    (forall_mem_map.mpr fun x _ => hopens x) (forall_mem_map.mpr fun y _ => hopens y) heq
  refine ⟨?_, hst⟩
  clear heq
  induction xs generalizing ys with
  | nil => exact (map_eq_nil_iff.mp hmap.symm).symm
  | cons x xs ih =>
    cases ys with
    | nil => cases hmap
    | cons y ys =>
      obtain ⟨hxy, hrest⟩ := cons.inj hmap
      rw [(h x (mem_cons_self ..) y).2 hxy, ih (fun x hx => h x (mem_cons_of_mem _ hx)) hrest]

theorem cancels_run {p : α → Prop} (hstops : ∀ c ∈ stops, ¬ p c) {a b : List α} (ha : ∀ c ∈ a, p c)
    (hb : ∀ c ∈ b, p c) : Cancels stops a b := by
  intro s t hs ht h
  induction a generalizing b with
  | nil =>
    cases b with
    | nil => exact ⟨rfl, h⟩
    | cons c b =>
      rw [nil_append] at h
      exact absurd (hb c (mem_cons_self ..)) (hstops c (hs c (by rw [h]; rfl)))
  | cons c a ih =>
    cases b with
    | nil =>
      rw [nil_append] at h
      exact absurd (ha c (mem_cons_self ..)) (hstops c (ht c (by rw [← h]; rfl)))
    | cons d b =>
      obtain ⟨rfl, hrest⟩ := cons.inj h
      obtain ⟨rfl, hst⟩ := ih (fun c hc => ha c (mem_cons_of_mem _ hc))
        (fun c hc => hb c (mem_cons_of_mem _ hc)) hrest
      exact ⟨rfl, hst⟩

end Joined
