import Mathlib.Data.List.Perm.Basic

/-!
# Lists of processes

The processes of a system in a list; a step replaces one of them.  `l.eraseIdx k` is what the others
are: every statement about all processes is one about the one that steps and one about the others.
-/

set_option autoImplicit false

universe u

namespace List

open List

variable {α : Type u} {l : List α} {k : Nat} {a : α}

theorem perm_eraseIdx_of_getElem? (h : l[k]? = some a) : l.Perm (a :: l.eraseIdx k) := by
  obtain ⟨hk, rfl⟩ := getElem?_eq_some_iff.mp h
  exact (getElem_cons_eraseIdx_perm hk).symm

theorem set_perm_eraseIdx (h : l[k]? = some a) (b : α) : (l.set k b).Perm (b :: l.eraseIdx k) := by
  obtain ⟨hk, -⟩ := getElem?_eq_some_iff.mp h
  have hb : (l.set k b)[k]? = some b := by simp [hk]
  have h' := perm_eraseIdx_of_getElem? hb
  rwa [eraseIdx_set_eq] at h'

theorem mem_set_cases (h : l[k]? = some a) {b c : α} (hc : c ∈ l.set k b) :
    c = b ∨ c ∈ l.eraseIdx k :=
  mem_cons.mp ((set_perm_eraseIdx h b).subset hc)

theorem map_set_of_eq {β : Type*} {f : α → β} {b : α} (h : l[k]? = some a) (hf : f b = f a) :
    (l.set k b).map f = l.map f := by
  refine ext_getElem? fun i => ?_
  obtain ⟨hk, rfl⟩ := getElem?_eq_some_iff.mp h
  rw [map_set, hf, getElem?_set]
  split
  next hi =>
    subst hi
    simp [hk]
  next => rfl

/-- An element of the changed list. -/
theorem getElem?_modify_cases {f : α → α} {i : Nat}
    (h : (l.modify k f)[i]? = some a) : ∃ b, l[i]? = some b ∧ (a = b ∨ i = k ∧ a = f b) := by
  rw [getElem?_modify, Option.map_eq_map, Option.map_eq_some_iff] at h
  obtain ⟨b, hb, rfl⟩ := h
  refine ⟨b, hb, ?_⟩
  split
  next hk => exact .inr ⟨hk.symm, rfl⟩
  next => exact .inl rfl

section FilterMap

variable {β : Type*} {f : α → Option β}

theorem mem_filterMap_slot (h : l[k]? = some a) {x : β} :
    x ∈ l.filterMap f ↔ f a = some x ∨ x ∈ (l.eraseIdx k).filterMap f := by
  rw [((perm_eraseIdx_of_getElem? h).filterMap f).mem_iff]
  simp only [mem_filterMap, mem_cons, exists_eq_or_imp]

theorem mem_filterMap_set (h : l[k]? = some a) {b : α} {x : β} :
    x ∈ (l.set k b).filterMap f ↔ f b = some x ∨ x ∈ (l.eraseIdx k).filterMap f := by
  rw [((set_perm_eraseIdx h b).filterMap f).mem_iff]
  simp only [mem_filterMap, mem_cons, exists_eq_or_imp]

end FilterMap

end List
