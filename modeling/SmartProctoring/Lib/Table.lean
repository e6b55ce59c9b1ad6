import Mathlib.Data.List.Nodup

/-!
# Tables with a primary key

A `Table key` is a list of rows no two of which have the same key.  Rows are appended by `insert`,
which refuses a key in use, and changed in place by `modify`, which may not change a key.  What is
stored under a key is `find?`, and the rules say how the two operations act on it.
-/

set_option autoImplicit false

universe u v

/-- Rows with a unique key. -/
structure Table {ρ : Type u} {κ : Type v} (key : ρ → κ) where
  rows : List ρ
  nodup : (rows.map key).Nodup

namespace Table

open List

variable {ρ : Type u} {κ : Type v} {key : ρ → κ}

theorem ext {t t' : Table key} (h : t.rows = t'.rows) : t = t' := by
  obtain ⟨rows, _⟩ := t
  obtain rfl : rows = t'.rows := h
  rfl

def empty : Table key := ⟨[], List.nodup_nil⟩

/-- The rows that `sel` selects, changed by `f`. -/
def modify (t : Table key) (sel : ρ → Bool) (f : ρ → ρ) (hf : ∀ r, key (f r) = key r) :
    Table key where
  rows := t.rows.map fun r => if sel r then f r else r
  nodup := by
    have h : key ∘ (fun r => if sel r then f r else r) = key := by
      funext r
      simp only [Function.comp_apply]
      split
      · exact hf r
      · rfl
    rw [List.map_map, h]
    exact t.nodup

/-- The rows that `sel` selects. -/
def filter (t : Table key) (sel : ρ → Bool) : Table key where
  rows := t.rows.filter sel
  nodup := t.nodup.sublist (List.filter_sublist.map key)

variable {t : Table key}

theorem eq_of_mem {r r' : ρ} (hr : r ∈ t.rows) (hr' : r' ∈ t.rows) (h : key r = key r') : r = r' :=
  inj_on_of_nodup_map t.nodup hr hr' h

variable [DecidableEq κ]

/-- The row appended, unless its key is in use. -/
def insert (t : Table key) (r : ρ) : Table key :=
  if h : key r ∈ t.rows.map key then t
  else
    { rows := t.rows ++ [r]
      nodup := by
        rw [List.map_append, List.nodup_append]
        refine ⟨t.nodup, List.nodup_singleton _, fun a ha b hb hab => h ?_⟩
        rw [List.map_singleton, List.mem_singleton] at hb
        rwa [← hb, ← hab] }

/-- The row stored under a key. -/
def find? (t : Table key) (k : κ) : Option ρ := t.rows.find? fun r => decide (key r = k)

variable {r : ρ} {k : κ}

theorem find?_eq_some :
    t.find? k = some r ↔ r ∈ t.rows ∧ key r = k := by
  constructor
  · intro h
    exact ⟨mem_of_find?_eq_some h, by simpa using find?_some h⟩
  · rintro ⟨hr, hk⟩
    cases h : t.find? k with
    | none => exact absurd hk (by simpa using find?_eq_none.1 h r hr)
    | some r' =>
      have hr' := mem_of_find?_eq_some h
      have hk' : key r' = k := by simpa using find?_some h
      rw [eq_of_mem hr' hr (hk'.trans hk.symm)]

theorem find?_eq_none : t.find? k = none ↔ ∀ r ∈ t.rows, key r ≠ k := by
  simp [find?]

theorem ext_find? {t t' : Table key} (hk : t.rows.map key = t'.rows.map key)
    (h : ∀ k, t.find? k = t'.find? k) : t = t' := by
  have hlen : t.rows.length = t'.rows.length := by simpa using congrArg length hk
  refine ext (ext_getElem hlen fun i hi hi' => ?_)
  have hrow : t.find? (key t.rows[i]) = some t.rows[i] := find?_eq_some.2 ⟨getElem_mem hi, rfl⟩
  have hkey : key t'.rows[i] = key t.rows[i] := by
    have := getElem_of_eq hk (i := i) (by simpa using hi)
    simpa using this.symm
  rw [h] at hrow
  exact eq_of_mem (find?_eq_some.1 hrow).1 (getElem_mem hi')
    ((find?_eq_some.1 hrow).2.trans hkey.symm)

theorem mem_insert_of_find?_eq_none {r r' : ρ} (h : t.find? (key r) = none) :
    r' ∈ (t.insert r).rows ↔ r' ∈ t.rows ∨ r' = r := by
  have hne : key r ∉ t.rows.map key := fun hr => by
    obtain ⟨x, hx, hk⟩ := mem_map.1 hr
    exact find?_eq_none.1 h x hx hk
  rw [insert, dif_neg hne, mem_append, mem_singleton]

theorem find?_insert (h : t.find? (key r) = none) (k : κ) :
    (t.insert r).find? k = if k = key r then some r else t.find? k := by
  split
  next hk => exact find?_eq_some.2 ⟨(mem_insert_of_find?_eq_none h).2 (.inr rfl), hk.symm⟩
  next hk =>
    cases hf : t.find? k with
    | none =>
      refine find?_eq_none.2 fun x hx => ?_
      obtain hx | rfl := (mem_insert_of_find?_eq_none h).1 hx
      · exact find?_eq_none.1 hf x hx
      · exact fun he => hk he.symm
    | some x =>
      obtain ⟨hx, hxk⟩ := find?_eq_some.1 hf
      exact find?_eq_some.2 ⟨(mem_insert_of_find?_eq_none h).2 (.inl hx), hxk⟩

variable {x : ρ}

theorem insert_of_find?_eq_some (h : t.find? (key r) = some x) :
    t.insert r = t :=
  dif_pos (mem_map.2 ⟨x, (find?_eq_some.1 h).1, (find?_eq_some.1 h).2⟩)

theorem find?_insert_of_some (h : t.find? k = some x) :
    (t.insert r).find? k = some x := by
  cases hr : t.find? (key r) with
  | some y => rwa [insert_of_find?_eq_some hr]
  | none =>
    rw [find?_insert hr, if_neg, h]
    rintro rfl
    rw [hr] at h
    cases h

theorem isSome_find?_insert :
    ((t.insert r).find? k).isSome ↔ (t.find? k).isSome ∨ key r = k := by
  cases hr : t.find? (key r) with
  | some y =>
    rw [insert_of_find?_eq_some hr]
    refine ⟨.inl, fun h => h.elim id fun hk => ?_⟩
    rw [← hk, hr, Option.isSome_some]
  | none =>
    rw [find?_insert hr]
    split
    next hk => simp [hk]
    next hk => exact ⟨.inl, fun h => h.resolve_right fun he => hk he.symm⟩

theorem mem_of_mem_foldl_insert {rs : List ρ}
    (h : x ∈ (rs.foldl insert t).rows) : x ∈ t.rows ∨ x ∈ rs := by
  induction rs generalizing t with
  | nil => exact .inl h
  | cons r rs ih =>
    rcases ih h with h | h
    · cases hr : t.find? (key r) with
      | some y =>
        rw [insert_of_find?_eq_some hr] at h
        exact .inl h
      | none =>
        refine ((mem_insert_of_find?_eq_none hr).1 h).imp_right fun he => ?_
        exact he ▸ mem_cons_self
    · exact .inr (mem_cons_of_mem _ h)

theorem isSome_find?_foldl_insert {rs : List ρ} :
    ((rs.foldl insert t).find? k).isSome ↔ (t.find? k).isSome ∨ ∃ r ∈ rs, key r = k := by
  induction rs generalizing t with
  | nil => simp
  | cons r rs ih =>
    rw [foldl_cons, ih, isSome_find?_insert]
    simp only [mem_cons, exists_eq_or_imp, or_assoc]

/-- The row in the place of the row with its key, or appended. -/
def upsert (t : Table key) (r : ρ) : Table key :=
  if key r ∈ t.rows.map key then
    { rows := t.rows.map fun x => if key x = key r then r else x
      nodup := by
        have h : key ∘ (fun x => if key x = key r then r else x) = key := by
          funext x
          simp only [Function.comp_apply]
          split
          · exact Eq.symm ‹_›
          · rfl
        rw [List.map_map, h]
        exact t.nodup }
  else t.insert r

theorem find?_upsert (t : Table key) (r : ρ) (k : κ) :
    (t.upsert r).find? k = if k = key r then some r else t.find? k := by
  rw [upsert]
  split
  next hmem =>
    split
    next hk =>
      subst hk
      obtain ⟨x, hx, hxk⟩ := mem_map.1 hmem
      exact find?_eq_some.2 ⟨mem_map.2 ⟨x, hx, if_pos hxk⟩, rfl⟩
    next hk =>
      cases hf : t.find? k with
      | none =>
        refine find?_eq_none.2 fun y hy => ?_
        obtain ⟨x, hx, rfl⟩ := mem_map.1 hy
        split
        · exact fun he => hk he.symm
        · exact find?_eq_none.1 hf x hx
      | some x =>
        obtain ⟨hx, hxk⟩ := find?_eq_some.1 hf
        refine find?_eq_some.2 ⟨mem_map.2 ⟨x, hx, if_neg fun he => hk ?_⟩, hxk⟩
        rw [← hxk, he]
  next hmem =>
    refine find?_insert (find?_eq_none.2 fun x hx he => hmem ?_) k
    exact mem_map.2 ⟨x, hx, he⟩

theorem mem_upsert : x ∈ (t.upsert r).rows ↔ x = r ∨ x ∈ t.rows ∧ key x ≠ key r := by
  have hfind : ∀ t' : Table key, x ∈ t'.rows ↔ t'.find? (key x) = some x := fun t' => by
    simp [find?_eq_some]
  rw [hfind, hfind t, find?_upsert]
  by_cases hk : key x = key r
  · rw [if_pos hk, Option.some.injEq]
    exact ⟨fun h => .inl h.symm, fun h => (h.resolve_right fun h => h.2 hk).symm⟩
  · rw [if_neg hk]
    exact ⟨fun h => .inr ⟨h, hk⟩, fun h => (h.resolve_left fun h => hk (congrArg key h)).1⟩

/-- The table without the row under a key. -/
def erase (t : Table key) (k : κ) : Table key := t.filter fun r => decide (key r ≠ k)

theorem find?_erase (t : Table key) (k k' : κ) :
    (t.erase k).find? k' = if k' = k then none else t.find? k' := by
  split
  next hk =>
    refine find?_eq_none.2 fun r hr he => ?_
    have hne := (mem_filter.1 hr).2
    simp [he, hk] at hne
  next hk =>
    cases hf : t.find? k' with
    | none => exact find?_eq_none.2 fun r hr => find?_eq_none.1 hf r (mem_of_mem_filter hr)
    | some r =>
      obtain ⟨hr, hrk⟩ := find?_eq_some.1 hf
      exact find?_eq_some.2 ⟨mem_filter.2 ⟨hr, by simp [hrk, hk]⟩, hrk⟩

theorem find?_filter {sel : ρ → Bool} :
    (t.filter sel).find? k = some r ↔ t.find? k = some r ∧ sel r = true := by
  rw [find?_eq_some, find?_eq_some, filter, mem_filter]
  exact ⟨fun h => ⟨⟨h.1.1, h.2⟩, h.1.2⟩, fun h => ⟨⟨h.1.1, h.2⟩, h.1.2⟩⟩

theorem find?_modify {sel : ρ → Bool} {f : ρ → ρ} {hf : ∀ r, key (f r) = key r} (k : κ) :
    (t.modify sel f hf).find? k = (t.find? k).map fun r => if sel r then f r else r := by
  have hkey : ∀ r, key (if sel r then f r else r) = key r := fun r => by
    split
    · exact hf r
    · rfl
  cases h : t.find? k with
  | none =>
    refine find?_eq_none.2 fun x hx => ?_
    obtain ⟨r, hr, rfl⟩ := mem_map.1 hx
    rw [hkey]
    exact find?_eq_none.1 h r hr
  | some r =>
    obtain ⟨hr, hk⟩ := find?_eq_some.1 h
    exact find?_eq_some.2 ⟨mem_map.2 ⟨r, hr, rfl⟩, (hkey r).trans hk⟩

theorem countP_modify (h : t.find? k = some r) (p : ρ → Bool)
    {f : ρ → ρ} (hf : ∀ r, key (f r) = key r) :
    (t.modify (fun x => decide (key x = k)) f hf).rows.countP p + (if p r then 1 else 0) =
      t.rows.countP p + (if p (f r) then 1 else 0) := by
  obtain ⟨hr, hk⟩ := find?_eq_some.1 h
  have hnodup := t.nodup
  show (t.rows.map fun x => if decide (key x = k) then f x else x).countP p + _ = _
  obtain ⟨l₁, l₂, hrows⟩ := append_of_mem hr
  rw [hrows, map_append, map_cons, nodup_middle, nodup_cons,
    mem_append] at hnodup
  have hothers : ∀ l : List ρ, key r ∉ l.map key →
      (l.map fun x => if decide (key x = k) then f x else x) = l := by
    intro l hl
    conv_rhs => rw [← map_id l]
    refine map_congr_left fun x hx => if_neg fun he => hl ?_
    exact mem_map.2 ⟨x, hx, (of_decide_eq_true he).trans hk.symm⟩
  rw [hrows, map_append, map_cons, hothers l₁ fun h => hnodup.1 (.inl h),
    hothers l₂ fun h => hnodup.1 (.inr h), if_pos (decide_eq_true hk)]
  simp only [countP_append, countP_cons]
  omega

theorem countP_insert_le (t : Table key) (r : ρ) (p : ρ → Bool) :
    (t.insert r).rows.countP p ≤ t.rows.countP p + 1 := by
  rw [insert]
  split
  · omega
  · rw [countP_append, countP_singleton]
    split <;> omega

theorem length_insert_le (t : Table key) (r : ρ) :
    (t.insert r).rows.length ≤ t.rows.length + 1 := by
  have h := countP_insert_le t r fun _ => true
  simpa only [countP_true] using h

end Table
