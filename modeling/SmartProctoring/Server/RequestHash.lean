import SmartProctoring.Lib.Stringify

/-!
# The hash of a request

`canonicalJson` and `idempotencyRequestHash` of `services/idempotency.ts`: a request is replayed or
refused by the hash of its method, path, query and body.  The body is printed with the keys of every
object sorted, so their order never changes the hash.

The fields are assigned to a new object, `out[k] = …`, which is no assignment of a field for the key
`__proto__`; and `JSON.stringify` prints `null` for a number that is too large for JavaScript.
Otherwise the text is of one body only (`canonicalJson_eq_iff`).
-/

set_option autoImplicit false

namespace SmartProctoring

open JsText
open List

/-- A number that was parsed: one that is too large is read as an infinity. -/
inductive JsNumber where
  | finite (n : Number)
  | infinite (negative : Bool)

abbrev JsValue := Value JsNumber

/-- What `JSON.parse` gives. -/
abbrev JsonBody := { v : JsValue // v.Distinct }

namespace RequestHash

def protoKey : Text := ascii "__proto__"

/-! ## The text -/

def stringifying : Reading JsNumber Text where
  null := ascii "null"
  bool b := if b then ascii "true" else ascii "false"
  num
    | .finite n => n.val
    | .infinite _ => ascii "null"
  str := quote
  arr := array
  obj fs := object (ownKeys fs)

/-- `JSON.stringify` -/
def stringify : JsValue → Text := Value.fold stringifying

section Fields

variable {γ : Type}

/-- `out[k] = x`.  The key `__proto__` sets the prototype, which is no field. -/
def assign (out : List (Text × γ)) (f : Text × γ) : List (Text × γ) :=
  if f.1 = protoKey then out
  else if out.any (·.1 = f.1) then out.map fun g => if g.1 = f.1 then f else g
  else out ++ [f]

def assignAll (fs : List (Text × γ)) : List (Text × γ) := fs.foldl assign []

/-- The fields but for the one that cannot be assigned. -/
def assignable (fs : List (Text × γ)) : List (Text × γ) := fs.filter fun f => f.1 ≠ protoKey

end Fields

def normalizing : Reading JsNumber JsValue where
  null := .null
  bool := .bool
  num := .num
  str := .str
  arr := .arr
  -- each key of `Object.keys(v).sort()`, with its value
  obj fs := .obj (assignAll (sortKeys (ownKeys fs)))

def norm : JsValue → JsValue := Value.fold normalizing

/-- JSON with object keys sorted at every level; `none` is a request without a body. -/
def canonicalJson (value : Option JsValue) : Text := stringify (norm (value.getD .null))

/-- `method.toUpperCase()`; a method is ASCII. -/
def toUpperCase (s : Text) : Text :=
  s.map fun u => if 97 ≤ u.val ∧ u.val ≤ 122 then Fin.ofNat 65536 (u.val - 32) else u

def idempotencyRequestHash {δ : Type} (sha256Hex : Text → δ) (method path query : Text)
    (body : Option JsValue) : δ :=
  sha256Hex (stringify (.arr [.str (toUpperCase method), .str path, .str query,
    .str (canonicalJson body)]))

/-! ## What is kept of a body -/

def keeping : Reading JsNumber (Value Number) where
  null := .null
  bool := .bool
  num
    | .finite n => .num n
    | .infinite _ => .null
  str := .str
  arr := .arr
  obj fs := .obj (assignable fs)

/-- The body without fields named `__proto__`, and with null for a number that is too large. -/
def kept : JsValue → Value Number := Value.fold keeping

/-- What is kept, with the keys in one order. -/
def canon : Reading JsNumber (Value Number) :=
  { keeping with obj := fun fs => .obj (ownKeys (sortKeys (assignable fs))) }

section Fields

variable {γ β : Type}

variable {fs : List (Text × γ)}

theorem assign_foldl (out : List (Text × γ)) (hkeys : ((out ++ fs).map Prod.fst).Nodup) :
    fs.foldl assign out = out ++ assignable fs := by
  induction fs generalizing out with
  | nil => rw [foldl_nil, assignable, filter_nil, append_nil]
  | cons f fs ih =>
    rw [map_append, map_cons, nodup_middle, nodup_cons, ← map_append] at hkeys
    obtain ⟨hf, hrest⟩ := hkeys
    have hnew : ¬ out.any (·.1 = f.1) = true := by
      simp only [any_eq_true, decide_eq_true_eq, not_exists, not_and]
      exact fun g hg heq => hf (mem_map.mpr ⟨g, mem_append_left _ hg, heq⟩)
    rw [foldl_cons, assign, assignable, filter_cons]
    by_cases hproto : f.1 = protoKey
    · rw [if_pos hproto, if_neg (by simpa using hproto), ih out hrest]
      rfl
    · rw [if_neg hproto, if_neg hnew, if_pos (by simpa using hproto), ih (out ++ [f]), append_assoc]
      · rfl
      · rw [append_assoc, map_append, singleton_append, map_cons, nodup_middle,
          nodup_cons, ← map_append]
        exact ⟨hf, hrest⟩

theorem assignAll_eq (hkeys : (fs.map Prod.fst).Nodup) : assignAll fs = assignable fs :=
  assign_foldl [] hkeys

theorem assignable_onValues (g : γ → β) (fs : List (Text × γ)) :
    assignable (onValues g fs) = onValues g (assignable fs) :=
  onValues_filter (fun k => k ≠ protoKey) g fs

theorem assignable_keys (hkeys : (fs.map Prod.fst).Nodup) :
    ((assignable fs).map Prod.fst).Nodup :=
  hkeys.sublist (filter_sublist.map _)

theorem assignAll_sorted (hkeys : (fs.map Prod.fst).Nodup) :
    assignAll (sortKeys (ownKeys fs)) = sortKeys (assignable fs) := by
  have hperm : (sortKeys (ownKeys fs)).Perm fs := (sortKeys_perm _).trans (ownKeys_perm fs)
  have hsorted : ((sortKeys (ownKeys fs)).map Prod.fst).Nodup :=
    (hperm.map Prod.fst).nodup_iff.mpr hkeys
  rw [assignAll_eq hsorted]
  refine eq_of_perm (assignable_keys hsorted) ?_ ((sortKeys_sorted _).filter _) (sortKeys_sorted _)
  exact (hperm.filter _).trans (sortKeys_perm _).symm

end Fields

theorem kept_distinct {v : JsValue} (h : v.Distinct) : (kept v).Distinct := by
  induction h with
  | null => exact .null
  | bool b => exact .bool b
  | num n =>
    cases n with
    | finite n => exact .num n
    | infinite _ => exact .null
  | str s => exact .str s
  | @arr vs _ ih =>
    rw [kept, Value.fold_arr]
    exact .arr (forall_mem_map.mpr ih)
  | @obj fs hkeys _ ih =>
    rw [kept, Value.fold_obj]
    refine .obj (assignable_keys ?_) fun f hf => ?_
    · rw [onValues_keys]
      exact hkeys
    · obtain ⟨g, hg, rfl⟩ := mem_map.mp (mem_of_mem_filter hf)
      exact ih g hg

theorem canon_eq (v : JsValue) : v.fold canon = sortAll (kept v) := by
  induction v using Value.inductionOn with
  | num n => cases n <;> rfl
  | arr vs ih =>
    rw [kept, Value.fold_arr, Value.fold_arr]
    show Value.arr _ = sortAll (.arr _)
    rw [sortAll_arr, map_map]
    exact congrArg _ (map_congr_left ih)
  | obj fs ih =>
    rw [kept, Value.fold_obj, Value.fold_obj]
    show Value.obj (ownKeys (sortKeys (assignable (onValues (Value.fold canon) fs)))) =
      sortAll (.obj (assignable (onValues kept fs)))
    have hvalues : onValues (Value.fold canon) fs = onValues sortAll (onValues kept fs) := by
      rw [onValues, onValues, onValues, map_map]
      exact map_congr_left fun f hf => Prod.ext rfl (ih f hf)
    rw [sortAll_obj, hvalues, assignable_onValues]
  | _ => rfl

/-- **The text of a body** is that of what is kept of it, in one order. -/
theorem stringify_norm {v : JsValue} (h : v.Distinct) :
    stringify (norm v) = print (v.fold canon) := by
  induction h with
  | null | bool b => rfl
  | num n => cases n <;> rfl
  | str s => rfl
  | @arr vs _ ih =>
    rw [norm, Value.fold_arr, Value.fold_arr]
    show stringify (.arr _) = print (.arr _)
    rw [stringify, Value.fold_arr, print_arr, map_map, map_map]
    exact congrArg array (map_congr_left ih)
  | @obj fs hkeys _ ih =>
    rw [norm, Value.fold_obj, Value.fold_obj]
    show stringify (.obj (assignAll (sortKeys (ownKeys (onValues norm fs))))) =
      print (.obj (ownKeys (sortKeys (assignable (onValues (Value.fold canon) fs)))))
    have hvalues : onValues stringify (onValues norm fs) = onValues print (onValues (Value.fold canon) fs) := by
      rw [onValues, onValues, onValues, onValues, map_map, map_map]
      exact map_congr_left fun f hf => Prod.ext rfl (ih f hf)
    rw [stringify, Value.fold_obj, print_obj, assignAll_sorted (by rw [onValues_keys]; exact hkeys)]
    show object (ownKeys (onValues stringify (sortKeys (assignable (onValues norm fs))))) = _
    rw [← sortKeys_onValues, ← assignable_onValues, hvalues, assignable_onValues, sortKeys_onValues,
      ownKeys_onValues]

theorem canonicalJson_eq_iff {a b : JsValue} (ha : a.Distinct) (hb : b.Distinct) :
    canonicalJson (some a) = canonicalJson (some b) ↔ (kept a).Same (kept b) := by
  rw [canonicalJson, canonicalJson, Option.getD_some, Option.getD_some, stringify_norm ha,
    stringify_norm hb, print_inj,
    canon_eq, canon_eq, sortAll_eq_iff (kept_distinct ha)]

theorem kept_same {a b : JsValue} (h : a.Same b) (ha : a.Distinct) : (kept a).Same (kept b) := by
  have hfold : a.fold canon = b.fold canon := by
    refine fold_of_same (fun fs gs hkeys hperm => ?_) h ha
    have hassign : (assignable fs).Perm (assignable gs) := hperm.filter _
    show Value.obj (ownKeys (sortKeys (assignable fs))) = .obj (ownKeys (sortKeys (assignable gs)))
    rw [sortKeys_eq_of_perm (assignable_keys hkeys) hassign]
  rw [canon_eq, canon_eq] at hfold
  exact same_of_sortAll hfold

theorem idempotencyRequestHash_eq_iff {δ : Type} {sha256Hex : Text → δ}
    (hsha : Function.Injective sha256Hex)
    {method path query method' path' query' : Text} {a b : Option JsValue} :
    idempotencyRequestHash sha256Hex method path query a =
      idempotencyRequestHash sha256Hex method' path' query' b ↔
      toUpperCase method = toUpperCase method' ∧ path = path' ∧ query = query' ∧
      canonicalJson a = canonicalJson b := by
  have htext : ∀ m p q (c : Text), stringify (.arr [.str m, .str p, .str q, .str c]) =
      print (.arr [.str m, .str p, .str q, .str c]) := fun _ _ _ _ => rfl
  rw [idempotencyRequestHash, idempotencyRequestHash, hsha.eq_iff, htext, htext, print_inj]
  simp

/-- The text tells the bodies apart, and the hash the requests. -/
def Identifies {δ : Type} (sha256Hex : Text → δ) (a b : JsValue) : Prop :=
  (canonicalJson (some a) = canonicalJson (some b) ↔ a.Same b) ∧
    ∀ method path query method' path' query',
      idempotencyRequestHash sha256Hex method path query (some a) =
          idempotencyRequestHash sha256Hex method' path' query' (some b) ↔
        toUpperCase method = toUpperCase method' ∧ path = path' ∧ query = query' ∧ a.Same b

/-- **Two bodies are told apart** unless they differ in fields named `__proto__`, or in numbers that
are too large where the other has null or another such number, and in nothing else. -/
theorem requests_identified_iff {δ : Type} {sha256Hex : Text → δ}
    (hsha : Function.Injective sha256Hex)
    (a b : JsonBody) : Identifies sha256Hex a.val b.val ↔
    ((kept a.val).Same (kept b.val) → a.val.Same b.val) := by
  have hiff := canonicalJson_eq_iff a.2 b.2
  constructor
  · intro h hkept
    exact h.1.mp (hiff.mpr hkept)
  · intro h
    have htext : canonicalJson (some a.val) = canonicalJson (some b.val) ↔ a.val.Same b.val :=
      hiff.trans ⟨h, fun hsame => kept_same hsame a.2⟩
    refine ⟨htext, fun method path query method' path' query' => ?_⟩
    rw [idempotencyRequestHash_eq_iff hsha, htext]

/-- `{"name": true, "tags": [null]}` -/
def nameTags : List (Text × JsValue) := [(ascii "name", .bool true), (ascii "tags", .arr [.null])]

theorem nameTags_distinct : ∀ f ∈ nameTags, f.2.Distinct :=
  forall_mem_cons.mpr ⟨.bool true, forall_mem_singleton.mpr (.arr (forall_mem_singleton.mpr .null))⟩

/-- The order of the fields is no difference. -/
theorem nameTags_identified : Identifies id (.obj nameTags) (.obj nameTags.reverse) := by
  have hkeys : (nameTags.map Prod.fst).Nodup := by decide
  have hkeys' : (nameTags.reverse.map Prod.fst).Nodup := by decide
  refine (requests_identified_iff Function.injective_id ⟨.obj nameTags, .obj hkeys nameTags_distinct⟩
    ⟨.obj nameTags.reverse, .obj hkeys' fun f hf => nameTags_distinct f (mem_reverse.mp hf)⟩).mpr fun _ => ?_
  refine @Value.Same.obj _ nameTags nameTags _ rfl (forall_mem_cons.mpr ⟨.bool true, ?_⟩)
    nameTags.reverse_perm.symm
  exact forall_mem_singleton.mpr (.arr rfl (forall_mem_singleton.mpr .null))

/-- `{"seats": 1e400}` and `{"seats": null}` have one hash, and so have `{"__proto__": true}` and no
fields. -/
theorem seats_not_identified :
    ¬ Identifies id (.obj [(ascii "seats", .num (.infinite false))]) (.obj [(ascii "seats", .null)]) ∧
      ¬ Identifies id (.obj [(protoKey, .bool true)]) (.obj []) := by
  constructor
  · intro h
    have hsame := h.1.mp (by decide +kernel)
    cases hsame with
    | obj hkeys hvalues hperm =>
      obtain rfl := perm_singleton.mp hperm
      cases hvalues _ (mem_singleton_self _)
  · intro h
    have hsame := h.1.mp (by decide +kernel)
    cases hsame with
    | obj hkeys hvalues hperm =>
      obtain rfl := perm_nil.mp hperm
      cases hkeys

end RequestHash

end SmartProctoring
