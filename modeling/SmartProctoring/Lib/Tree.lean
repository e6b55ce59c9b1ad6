import Mathlib.Data.List.Basic

/-!
# Trees with named branches

A `PathTree` is a value, or named fields that are trees again: a JSON object without arrays.
`leaves` lists its values with their paths and `set` replaces the value at a path.  Two trees of one
shape differ in finitely many values (`diff`): reading the second tree at each path of the first
finds them (`filterMap_leaves`), and setting them turns the first tree into the second
(`patch_diff`).
-/

set_option autoImplicit false

universe u

mutual

inductive PathTree (α : Type u)
  | leaf (a : α)
  | node (fields : PathFields α)

/-- The fields of an object, in order. -/
inductive PathFields (α : Type u)
  | nil
  | cons (key : String) (t : PathTree α) (rest : PathFields α)

end

variable {α : Type u}

/-- The fields of a list. -/
def PathFields.ofList : List (String × PathTree α) → PathFields α
  | [] => .nil
  | (k, t) :: fs => .cons k t (ofList fs)

/-- An object of a list of fields. -/
def PathTree.object (fs : List (String × PathTree α)) : PathTree α := .node (.ofList fs)

mutual

/-- The values of a tree with their paths. -/
def PathTree.leaves : PathTree α → List (List String × α)
  | .leaf a => [([], a)]
  | .node fs => fs.leaves

def PathFields.leaves : PathFields α → List (List String × α)
  | .nil => []
  | .cons k t fs => (t.leaves.map fun l => (k :: l.1, l.2)) ++ fs.leaves

end

/-- The field of a name changed; an object without it gets it. -/
def PathFields.modify (k : String) (f : PathTree α → PathTree α) : PathFields α → PathFields α
  | .nil => .cons k (f (.node .nil)) .nil
  | .cons k' t fs => if k' = k then .cons k' (f t) fs else .cons k' t (fs.modify k f)

/-- The value at a path replaced; a value has no fields to replace. -/
def PathTree.set (a : α) : List String → PathTree α → PathTree α
  | [], _ => .leaf a
  | _ :: _, .leaf b => .leaf b
  | k :: ks, .node fs => .node (fs.modify k (PathTree.set a ks))

def PathFields.keys : PathFields α → List String
  | .nil => []
  | .cons k _ fs => k :: fs.keys

mutual

/-- No object has two fields of one name. -/
def PathTree.Distinct : PathTree α → Prop
  | .leaf _ => True
  | .node fs => fs.Distinct

def PathFields.Distinct : PathFields α → Prop
  | .nil => True
  | .cons k t fs => k ∉ fs.keys ∧ t.Distinct ∧ fs.Distinct

end

mutual

/-- Two trees with the same fields in the same places. -/
def PathTree.SameShape : PathTree α → PathTree α → Prop
  | .leaf _, .leaf _ => True
  | .node fs, .node gs => fs.SameShape gs
  | _, _ => False

def PathFields.SameShape : PathFields α → PathFields α → Prop
  | .nil, .nil => True
  | .cons k t fs, .cons k' u gs => k = k' ∧ t.SameShape u ∧ fs.SameShape gs
  | _, _ => False

end

mutual

/-- The paths at which two trees of one shape differ, with the value of the first and of the
second. -/
def PathTree.diff [DecidableEq α] : PathTree α → PathTree α → List (List String × α × α)
  | .leaf a, .leaf b => if a = b then [] else [([], a, b)]
  | .node fs, .node gs => fs.diff gs
  | _, _ => []

def PathFields.diff [DecidableEq α] : PathFields α → PathFields α → List (List String × α × α)
  | .cons k t fs, .cons _ u gs => ((t.diff u).map fun d => (k :: d.1, d.2)) ++ fs.diff gs
  | _, _ => []

end

/-! ## Shape -/

mutual

theorem PathTree.SameShape.refl (t : PathTree α) : t.SameShape t := by
  match t with
  | .leaf _ => trivial
  | .node fs => exact PathFields.SameShape.refl fs

theorem PathFields.SameShape.refl (fs : PathFields α) : fs.SameShape fs := by
  match fs with
  | .nil => trivial
  | .cons k t fs => exact ⟨rfl, PathTree.SameShape.refl t, PathFields.SameShape.refl fs⟩

end

theorem PathTree.sameShape_object {fs gs : List (String × PathTree α)}
    (h : List.Forall₂ (fun f g => f.1 = g.1 ∧ f.2.SameShape g.2) fs gs) :
    (PathTree.object fs).SameShape (.object gs) := by
  induction h with
  | nil => trivial
  | cons hfg _ ih => exact ⟨hfg.1, hfg.2, ih⟩

theorem PathFields.keys_ofList (fs : List (String × PathTree α)) :
    (ofList fs).keys = fs.map (·.1) := by
  induction fs with
  | nil => rfl
  | cons f fs ih => rw [ofList, keys, ih, List.map_cons]

theorem PathTree.distinct_object {fs : List (String × PathTree α)} (hn : (fs.map (·.1)).Nodup)
    (h : ∀ f ∈ fs, f.2.Distinct) : (PathTree.object fs).Distinct := by
  rw [object, Distinct]
  induction fs with
  | nil => trivial
  | cons f fs ih =>
    rw [List.map_cons, List.nodup_cons] at hn
    rw [PathFields.ofList, PathFields.Distinct, PathFields.keys_ofList]
    exact ⟨hn.1, h f (by simp), ih hn.2 fun g hg => h g (by simp [hg])⟩

/-! ## Reading a path -/

theorem PathFields.mem_keys {fs : PathFields α} {l : List String × α} (h : l ∈ fs.leaves) :
    ∃ k ∈ fs.keys, ∃ ks, l.1 = k :: ks := by
  match fs, h with
  | .cons k t fs, h =>
    rw [leaves, List.mem_append, List.mem_map] at h
    rcases h with ⟨l', -, rfl⟩ | h
    · exact ⟨k, by simp [keys], l'.1, rfl⟩
    · obtain ⟨k', hk', ks, hl⟩ := mem_keys h
      exact ⟨k', by simp [keys, hk'], ks, hl⟩

theorem PathFields.lookup_eq_none {fs : PathFields α} {k : String} (h : k ∉ fs.keys)
    (ks : List String) : fs.leaves.lookup (k :: ks) = none := by
  rw [List.lookup_eq_none_iff]
  intro l hl
  obtain ⟨k', hk', ks', hl'⟩ := mem_keys hl
  have hne : k ≠ k' := fun he => h (he ▸ hk')
  simp [hl', hne]

theorem List.lookup_map_cons (k : String) (ks : List String) (ls : List (List String × α)) :
    (ls.map fun l => (k :: l.1, l.2)).lookup (k :: ks) = ls.lookup ks := by
  induction ls with
  | nil => rfl
  | cons l ls ih =>
    rcases l with ⟨p, a⟩
    by_cases he : ks = p
    · rw [he]
      simp
    · rw [List.map_cons, List.lookup_cons, List.lookup_cons, ih]
      simp

theorem List.lookup_map_cons_ne {k k' : String} (h : k' ≠ k) (ks : List String)
    (ls : List (List String × α)) : (ls.map fun l => (k :: l.1, l.2)).lookup (k' :: ks) = none := by
  rw [List.lookup_eq_none_iff]
  intro l hl
  rw [List.mem_map] at hl
  obtain ⟨l', -, rfl⟩ := hl
  simp [h]

/-- Reading below the first field. -/
theorem PathFields.lookup_cons {k : String} (t : PathTree α) {fs : PathFields α} (h : k ∉ fs.keys)
    (ks : List String) : (PathFields.cons k t fs).leaves.lookup (k :: ks) = t.leaves.lookup ks := by
  rw [leaves, List.lookup_append, List.lookup_map_cons, lookup_eq_none h, Option.or_none]

/-- Reading below another field. -/
theorem PathFields.lookup_cons_ne {k k' : String} (h : k' ≠ k) (t : PathTree α) (fs : PathFields α)
    (ks : List String) :
    (PathFields.cons k t fs).leaves.lookup (k' :: ks) = fs.leaves.lookup (k' :: ks) := by
  rw [leaves, List.lookup_append, List.lookup_map_cons_ne h, Option.none_or]

theorem PathFields.SameShape.keys {fs gs : PathFields α} (h : fs.SameShape gs) :
    fs.keys = gs.keys := by
  match fs, gs, h with
  | .nil, .nil, _ => rfl
  | .cons k t fs, .cons k' u gs, h =>
    rw [PathFields.keys, PathFields.keys, h.1, h.2.2.keys]

/-! ## Setting several values -/

/-- The second value of each difference set. -/
def PathTree.patch (t : PathTree α) (ds : List (List String × α × α)) : PathTree α :=
  ds.foldl (fun t d => PathTree.set d.2.2 d.1 t) t

theorem PathTree.patch_cons (t : PathTree α) (d : List String × α × α)
    (ds : List (List String × α × α)) :
    t.patch (d :: ds) = (PathTree.set d.2.2 d.1 t).patch ds := rfl

theorem PathTree.patch_append (t : PathTree α) (ds es : List (List String × α × α)) :
    t.patch (ds ++ es) = (t.patch ds).patch es := List.foldl_append

theorem PathTree.patch_map_cons (k : String) (t : PathTree α) (fs : PathFields α)
    (ds : List (List String × α × α)) :
    (PathTree.node (.cons k t fs)).patch (ds.map fun d => (k :: d.1, d.2)) =
      .node (.cons k (t.patch ds) fs) := by
  induction ds generalizing t with
  | nil => rfl
  | cons d ds ih =>
    rw [List.map_cons, patch_cons, set, PathFields.modify, if_pos rfl]
    exact ih _

theorem PathTree.patch_rest {k : String} (t : PathTree α) (fs gs : PathFields α)
    (ds : List (List String × α × α)) (h : ∀ d ∈ ds, ∃ k' ks, d.1 = k' :: ks ∧ k' ≠ k)
    (hds : (PathTree.node fs).patch ds = .node gs) :
    (PathTree.node (.cons k t fs)).patch ds = .node (.cons k t gs) := by
  induction ds generalizing fs with
  | nil =>
    simp only [patch, List.foldl_nil, PathTree.node.injEq] at hds
    rw [patch, List.foldl_nil, hds]
  | cons d ds ih =>
    obtain ⟨k', ks, he, hne⟩ := h d (by simp)
    rw [patch_cons, he, set] at hds ⊢
    rw [PathFields.modify, if_neg (Ne.symm hne)]
    exact ih _ (fun d hd => h d (by simp [hd])) hds

/-! ## The values that differ -/

section Diff

variable [DecidableEq α]

/-- Two trees differ only at paths of which `P` holds. -/
def PathTree.DiffersAt (P : List String → Prop) (t u : PathTree α) : Prop := ∀ d ∈ t.diff u, P d.1

@[simp] theorem PathTree.differsAt_leaf {P : List String → Prop} {a b : α} :
    DiffersAt P (.leaf a) (.leaf b) ↔ (a ≠ b → P []) := by
  rw [DiffersAt, diff]
  split <;> simp [*]

@[simp] theorem PathTree.differsAt_nil {P : List String → Prop} {fs : List (String × PathTree α)} :
    DiffersAt P (.object []) (.object fs) := by
  simp [DiffersAt, object, diff, PathFields.ofList, PathFields.diff]

@[simp] theorem PathTree.differsAt_cons {P : List String → Prop} {k k' : String} {t u : PathTree α}
    {fs gs : List (String × PathTree α)} :
    DiffersAt P (.object ((k, t) :: fs)) (.object ((k', u) :: gs)) ↔
      DiffersAt (fun ks => P (k :: ks)) t u ∧ DiffersAt P (.object fs) (.object gs) := by
  simp only [DiffersAt, object, diff, PathFields.ofList, PathFields.diff, List.mem_append,
    List.mem_map]
  constructor
  · exact fun h => ⟨fun d hd => h _ (.inl ⟨d, hd, rfl⟩), fun d hd => h d (.inr hd)⟩
  · rintro ⟨ht, hfs⟩ d (⟨d', hd', rfl⟩ | hd)
    · exact ht d' hd'
    · exact hfs d hd

mutual

theorem PathTree.diff_self (t : PathTree α) : t.diff t = [] := by
  match t with
  | .leaf _ => simp [PathTree.diff]
  | .node fs => exact PathFields.diff_self fs

theorem PathFields.diff_self (fs : PathFields α) : fs.diff fs = [] := by
  match fs with
  | .nil => rfl
  | .cons k t fs => rw [PathFields.diff, PathTree.diff_self t, PathFields.diff_self fs,
      List.map_nil, List.nil_append]

end

@[simp] theorem PathTree.differsAt_self {P : List String → Prop} (t : PathTree α) :
    DiffersAt P t t := by
  simp [DiffersAt, diff_self]

/-- A value that differs from what is read at its path, with both. -/
def PathTree.differing (read : List String → α) (l : List String × α) :
    Option (List String × α × α) :=
  if l.2 = read l.1 then none else some (l.1, l.2, read l.1)

theorem PathTree.filterMap_map_cons (k : String) (read : List String → α)
    (ls : List (List String × α)) :
    (ls.map fun l => (k :: l.1, l.2)).filterMap (PathTree.differing read) =
      (ls.filterMap (PathTree.differing fun ks => read (k :: ks))).map fun d => (k :: d.1, d.2) := by
  rw [List.filterMap_map, List.map_filterMap]
  congr 1
  funext l
  by_cases h : l.2 = read (k :: l.1) <;> simp [PathTree.differing, h]

theorem PathTree.filterMap_congr_of_mem {read read' : List String → α} {ls : List (List String × α)}
    (h : ∀ l ∈ ls, read l.1 = read' l.1) :
    ls.filterMap (PathTree.differing read) = ls.filterMap (PathTree.differing read') :=
  List.filterMap_congr fun l hl => by rw [PathTree.differing, PathTree.differing, h l hl]

mutual

theorem PathTree.filterMap_leaves (a : α) {t u : PathTree α} (h : t.SameShape u) (hu : u.Distinct) :
    t.leaves.filterMap (PathTree.differing fun ks => (u.leaves.lookup ks).getD a) = t.diff u := by
  match t, u, h with
  | .leaf b, .leaf c, _ =>
    by_cases he : b = c <;> simp [PathTree.leaves, PathTree.diff, PathTree.differing, he]
  | .node fs, .node gs, h =>
    rw [PathTree.SameShape] at h
    rw [PathTree.Distinct] at hu
    exact PathFields.filterMap_leaves a h hu

theorem PathFields.filterMap_leaves (a : α) {fs gs : PathFields α} (h : fs.SameShape gs) (hg : gs.Distinct) :
    fs.leaves.filterMap (PathTree.differing fun ks => (gs.leaves.lookup ks).getD a) = fs.diff gs := by
  match fs, gs, h with
  | .nil, .nil, _ => rfl
  | .cons k t fs, .cons k' u gs, h =>
    rw [PathFields.SameShape] at h
    obtain ⟨rfl, ht, hfs⟩ := h
    rw [PathFields.Distinct] at hg
    obtain ⟨hk, hu, hgs⟩ := hg
    have hrest :
        fs.leaves.filterMap (PathTree.differing fun ks => ((PathFields.cons k u gs).leaves.lookup ks).getD a) =
          fs.leaves.filterMap (PathTree.differing fun ks => (gs.leaves.lookup ks).getD a) := by
      refine PathTree.filterMap_congr_of_mem fun l hl => ?_
      obtain ⟨k', hk', ks, he⟩ := PathFields.mem_keys hl
      have hne : k' ≠ k := fun hkk => hk (hfs.keys ▸ hkk ▸ hk')
      simp only [he, PathFields.lookup_cons_ne hne]
    rw [PathFields.leaves.eq_def (.cons k t fs), List.filterMap_append, PathTree.filterMap_map_cons, hrest,
      PathFields.filterMap_leaves a hfs hgs, PathFields.diff, ← PathTree.filterMap_leaves a ht hu]
    simp only [PathFields.lookup_cons u hk]

end

theorem PathFields.mem_diff {fs gs : PathFields α} {d : List String × α × α} (h : d ∈ fs.diff gs) :
    ∃ k ∈ fs.keys, ∃ ks, d.1 = k :: ks := by
  match fs, gs, h with
  | .cons k t fs, .cons k' u gs, h =>
    rw [diff, List.mem_append, List.mem_map] at h
    rcases h with ⟨d', -, rfl⟩ | h
    · exact ⟨k, by simp [keys], d'.1, rfl⟩
    · obtain ⟨k', hk', ks, hd⟩ := mem_diff h
      exact ⟨k', by simp [keys, hk'], ks, hd⟩

mutual

theorem PathTree.patch_diff {t u : PathTree α} (h : t.SameShape u) (hu : u.Distinct) :
    t.patch (t.diff u) = u := by
  match t, u, h with
  | .leaf a, .leaf b, _ => by_cases he : a = b <;> simp [PathTree.diff, PathTree.patch, PathTree.set, he]
  | .node fs, .node gs, h =>
    rw [PathTree.SameShape] at h
    rw [PathTree.Distinct] at hu
    exact PathFields.patch_diff h hu

theorem PathFields.patch_diff {fs gs : PathFields α} (h : fs.SameShape gs) (hg : gs.Distinct) :
    (PathTree.node fs).patch (fs.diff gs) = .node gs := by
  match fs, gs, h with
  | .nil, .nil, _ => rfl
  | .cons k t fs, .cons k' u gs, h =>
    rw [PathFields.SameShape] at h
    obtain ⟨rfl, ht, hfs⟩ := h
    rw [PathFields.Distinct] at hg
    obtain ⟨hk, hu, hgs⟩ := hg
    rw [PathFields.diff, PathTree.patch_append, PathTree.patch_map_cons, PathTree.patch_diff ht hu]
    refine PathTree.patch_rest u fs gs _ (fun d hd => ?_) (PathFields.patch_diff hfs hgs)
    obtain ⟨k', hk', ks, he⟩ := PathFields.mem_diff hd
    exact ⟨k', ks, he, fun hkk => hk (hfs.keys ▸ hkk ▸ hk')⟩

end

end Diff
