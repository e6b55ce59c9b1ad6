import Mathlib.Data.List.Basic

/-!
# Storing evidence inside a transaction

`storeEvidence`, `discardFailedInsert`, `transactionWithEvidence` and `discardUncommittedBlobs` of
`services/evidence.ts`.  A transaction body is whatever it does to the database and the blob store,
one call after another: evidence stored through the transaction's handle or a savepoint's, other
statements, savepoints.  Each call comes with what the outside answers to it, and with whether the
body catches its error.

PostgreSQL aborts a transaction at its first failed statement: until a rollback to a savepoint
everything else fails too, and `COMMIT` then rolls back and does not say so.  A `COMMIT` whose
answer is lost may have taken effect, may not, or may still take effect later.  So may a put have
stored its object before it failed: its row is not written then, and nobody is told of the blob.
-/

set_option autoImplicit false

namespace SmartProctoring

open List

/-- A blob written by `storeEvidence`: its evidence id, key and the storage location it went to. -/
structure StoredBlob where
  id : Nat
  key : Nat
  location : Option Nat
  deriving DecidableEq

/-- A call of `storeEvidence`, and what the database and the storage answer. -/
structure StoreCall where
  /-- The id the client chose, if any. -/
  id : Option Nat
  /-- The id made up otherwise. -/
  freshId : Nat
  location : Option Nat
  /-- A row with the client's id is visible. -/
  known : Bool := false
  lookupFails : Bool := false
  locationFails : Bool := false
  putFails : Bool := false
  /-- The put that fails has stored the object. -/
  putLands : Bool := false
  insertFails : Bool := false
  /-- A row with the id was committed between the lookup and the insert. -/
  conflict : Bool := false
  rereadFails : Bool := false
  /-- The storage does not delete the blob when asked to. -/
  refused : Bool := false

/-- A transaction that stores evidence: the blobs it has in storage, and the rows it inserted since
it began and since each open savepoint (innermost first). -/
structure EvidenceTx where
  blobs : List StoredBlob := []
  rows : List StoredBlob := []
  savepoints : List (List StoredBlob) := []
  aborted : Bool := false
  /-- `uncommittedBlobs` of the transaction's handle. -/
  uncommittedBlobs : List StoredBlob := []
  /-- The next unused storage key (keys are random in the code). -/
  nextKey : Nat := 0
  /-- Blobs the storage refused to delete. -/
  refused : List StoredBlob := []
  /-- Blobs stored while a savepoint was open. -/
  nested : List StoredBlob := []
  /-- Blobs of puts that failed. -/
  stray : List StoredBlob := []

namespace EvidenceTx

def deleteQuietly (tx : EvidenceTx) (b : StoredBlob) (refused : Bool) : EvidenceTx :=
  if refused then { tx with refused := b :: tx.refused }
  else { tx with blobs := tx.blobs.filter fun b' => b' ≠ b }

def insertRow (tx : EvidenceTx) (b : StoredBlob) : EvidenceTx :=
  match tx.savepoints with
  | [] => { tx with rows := b :: tx.rows }
  | l :: ls => { tx with savepoints := (b :: l) :: ls }

def put (tx : EvidenceTx) (b : StoredBlob) : EvidenceTx :=
  { tx with
    blobs := b :: tx.blobs
    nextKey := tx.nextKey + 1
    nested := if tx.savepoints = [] then tx.nested else b :: tx.nested }

/-- The blob of a put that fails. -/
def putStray (tx : EvidenceTx) (b : StoredBlob) : EvidenceTx :=
  { tx.put b with stray := b :: tx.stray }

/-- A statement that fails: the transaction is aborted and the error thrown. -/
def fail (tx : EvidenceTx) : EvidenceTx × Bool := ({ tx with aborted := true }, true)

/-- Encrypt and store: the blob, then its row.  `own` is whether the handle is the transaction's
own; the result says whether it threw. -/
def storeEvidence (manyLocations own : Bool) (c : StoreCall) (tx : EvidenceTx) :
    EvidenceTx × Bool :=
  if c.id.isSome ∧ (tx.aborted ∨ c.lookupFails) then tx.fail
  else if c.id.isSome ∧ c.known then (tx, false)
  else if manyLocations ∧ (tx.aborted ∨ c.locationFails) then tx.fail
  else
    let blob : StoredBlob := ⟨c.id.getD c.freshId, tx.nextKey, c.location⟩
    -- outside the `try`: the handle is not told
    if c.putFails then (if c.putLands then tx.putStray blob else tx, true)
    else
      let tx := tx.put blob
      if tx.aborted ∨ c.insertFails then
        -- `discardFailedInsert`: through another handle the check fails too, and the blob is kept
        (if own then tx.deleteQuietly blob c.refused else tx).fail
      else
        let tx := if own then { tx with uncommittedBlobs := blob :: tx.uncommittedBlobs } else tx
        if c.conflict then
          let tx := tx.deleteQuietly blob c.refused
          if c.rereadFails then tx.fail else (tx, false)
        else (tx.insertRow blob, false)

end EvidenceTx

inductive EvidenceOp
  /-- Through the transaction's own handle, or through the innermost savepoint's. -/
  | store (own : Bool) (call : StoreCall)
  | statement (fails : Bool)
  | savepoint
  | release
  | rollbackTo

def evidenceOp (manyLocations : Bool) (tx : EvidenceTx) : EvidenceOp → EvidenceTx × Bool
  | .store own call => tx.storeEvidence manyLocations (own || tx.savepoints.isEmpty) call
  | .statement fails => if tx.aborted ∨ fails then tx.fail else (tx, false)
  | .savepoint => if tx.aborted then tx.fail else ({ tx with savepoints := [] :: tx.savepoints }, false)
  | .release =>
    if tx.aborted then tx.fail
    else
      match tx.savepoints with
      | [] => tx.fail
      | [l] => ({ tx with rows := l ++ tx.rows, savepoints := [] }, false)
      | l :: l' :: ls => ({ tx with savepoints := (l ++ l') :: ls }, false)
  | .rollbackTo =>
    match tx.savepoints with
    | [] => tx.fail
    | _ :: ls => ({ tx with savepoints := ls, aborted := false }, false)

/-- The body: each call with whether its error is caught. -/
def runBody (manyLocations : Bool) : List (EvidenceOp × Bool) → EvidenceTx → EvidenceTx × Bool
  | [], tx => (tx, false)
  | (op, caught) :: body, tx =>
    match evidenceOp manyLocations tx op with
    | (tx, true) => if caught then runBody manyLocations body tx else (tx, true)
    | (tx, false) => runBody manyLocations body tx

/-- What becomes of a transaction whose `COMMIT` was not answered. -/
inductive CommitFate
  | rolledBack | committed
  /-- It takes effect after the check. -/
  | committedLate
  deriving DecidableEq

inductive CommitAnswer
  | answered
  | lost (fate : CommitFate) (checkFails : Bool)

/-- How a transaction ends: whether the body throws at its end, how `COMMIT` goes, and which blobs
the storage will not delete. -/
structure EvidenceEnd where
  throws : Bool
  commit : CommitAnswer
  refuses : StoredBlob → Bool

/-- What `transactionWithEvidence` leaves behind. -/
structure EvidenceOutcome where
  returned : Bool
  /-- The transaction's blobs in storage, and its committed rows. -/
  blobs : List StoredBlob
  rows : List StoredBlob
  /-- The commit's outcome could not be determined. -/
  undetermined : Bool := false
  /-- The commit took effect only after the check. -/
  late : Bool := false
  /-- `COMMIT` rolled an aborted transaction back. -/
  silent : Bool := false
  refused : List StoredBlob
  nested : List StoredBlob
  stray : List StoredBlob

/-- Delete the blobs whose rows did not make it. -/
def discardBlobs (refuses : StoredBlob → Bool) (orphans : List StoredBlob) (tx : EvidenceTx) :
    EvidenceTx :=
  orphans.foldl (fun tx b => tx.deleteQuietly b (refuses b)) tx

/-- `discardUncommittedBlobs`; `visible` are the rows the check would find. -/
def discardUncommittedBlobs (refuses : StoredBlob → Bool) (commitUnknown checkFails : Bool)
    (visible : List StoredBlob) (tx : EvidenceTx) : EvidenceTx :=
  if commitUnknown then
    if checkFails then tx
    else
      let orphans := tx.uncommittedBlobs.filter fun b => !(visible.map StoredBlob.key).contains b.key
      discardBlobs refuses orphans tx
  else discardBlobs refuses tx.uncommittedBlobs tx

def transactionWithEvidence (manyLocations : Bool) (body : List (EvidenceOp × Bool))
    (ending : EvidenceEnd) : EvidenceOutcome :=
  let (tx, threw) := runBody manyLocations body {}
  let rows := tx.rows ++ tx.savepoints.flatten
  if threw || ending.throws then
    let tx := discardUncommittedBlobs ending.refuses false false [] tx
    { returned := false, blobs := tx.blobs, rows := [], refused := tx.refused, nested := tx.nested,
      stray := tx.stray }
  else
    match ending.commit with
    | .answered =>
      { returned := true, blobs := tx.blobs, rows := if tx.aborted then [] else rows,
        silent := tx.aborted, refused := tx.refused, nested := tx.nested, stray := tx.stray }
    | .lost fate checkFails =>
      let rows := if tx.aborted || fate = .rolledBack then [] else rows
      let late := decide (fate = .committedLate)
      let tx := discardUncommittedBlobs ending.refuses true checkFails (if late then [] else rows) tx
      { returned := false, blobs := tx.blobs, rows, undetermined := checkFails, late,
        refused := tx.refused, nested := tx.nested, stray := tx.stray }

/-! ## What a body leaves -/

namespace EvidenceTx

/-- All rows inserted so far. -/
def allRows (tx : EvidenceTx) : List StoredBlob := tx.rows ++ tx.savepoints.flatten

/-- A blob that may be left without a row although the outcome is known: the storage refused to
delete it, it was stored inside a savepoint, or its put failed. -/
def Excused (tx : EvidenceTx) (b : StoredBlob) : Prop :=
  b ∈ tx.refused ∨ b ∈ tx.nested ∨ b ∈ tx.stray

/-- Rows have their blobs, and a blob without a row is excused. -/
structure Ok (tx : EvidenceTx) : Prop where
  keys : ∀ b, b ∈ tx.blobs ∨ b ∈ tx.uncommittedBlobs → b.key < tx.nextKey
  distinct : ∀ b b', b ∈ tx.blobs → b' ∈ tx.uncommittedBlobs → b.key = b'.key → b = b'
  stored : ∀ r ∈ tx.allRows, r ∈ tx.blobs
  landed : ∀ b ∈ tx.blobs, b ∈ tx.allRows ∨ tx.Excused b
  tracked : ∀ b ∈ tx.blobs, b ∈ tx.uncommittedBlobs ∨ tx.Excused b
  nested : ∀ r ∈ tx.savepoints.flatten, r ∈ tx.nested

variable {tx : EvidenceTx}

theorem Ok.abort (h : tx.Ok) (aborted : Bool) : ({ tx with aborted } : EvidenceTx).Ok :=
  { h with }

theorem Ok.fail (h : tx.Ok) : tx.fail.1.Ok := h.abort true

variable {b : StoredBlob}

theorem Ok.extend {tx tx' : EvidenceTx} (h : tx.Ok) (hb : b.key = tx.nextKey)
    (hnext : tx'.nextKey = tx.nextKey + 1)
    (hblobs : ∀ x, x ∈ tx'.blobs ↔ x ∈ tx.blobs ∨ (x = b ∧ b ∈ tx'.blobs))
    (hrows : ∀ x, x ∈ tx'.allRows ↔ x ∈ tx.allRows ∨ (x = b ∧ b ∈ tx'.allRows))
    (hstored : b ∈ tx'.allRows → b ∈ tx'.blobs)
    (huncommitted : ∀ x, x ∈ tx'.uncommittedBlobs ↔
      x ∈ tx.uncommittedBlobs ∨ (x = b ∧ b ∈ tx'.uncommittedBlobs))
    (hrefused : tx.refused ⊆ tx'.refused) (hnested : tx.nested ⊆ tx'.nested)
    (hstray : tx.stray ⊆ tx'.stray)
    (hlanded : b ∈ tx'.blobs → b ∈ tx'.allRows ∨ tx'.Excused b)
    (htracked : b ∈ tx'.blobs → b ∈ tx'.uncommittedBlobs ∨ tx'.Excused b)
    (hsave : ∀ r ∈ tx'.savepoints.flatten, r ∈ tx.savepoints.flatten ∨ r ∈ tx'.nested) :
    tx'.Ok where
  keys x hx := by
    have : x = b ∨ x ∈ tx.blobs ∨ x ∈ tx.uncommittedBlobs := by
      rcases hx with hx | hx
      · rcases (hblobs x).1 hx with hx | hx
        exacts [.inr (.inl hx), .inl hx.1]
      · rcases (huncommitted x).1 hx with hx | hx
        exacts [.inr (.inr hx), .inl hx.1]
    rcases this with rfl | hx
    · omega
    · have := h.keys x hx
      omega
  distinct x y hx hy hxy := by
    rcases (hblobs x).1 hx with hx | ⟨rfl, -⟩ <;> rcases (huncommitted y).1 hy with hy | ⟨rfl, -⟩
    · exact h.distinct x y hx hy hxy
    · have := h.keys x (.inl hx)
      omega
    · have := h.keys y (.inr hy)
      omega
    · rfl
  stored r hr := by
    rcases (hrows r).1 hr with hr | ⟨rfl, hr⟩
    exacts [(hblobs r).2 (.inl (h.stored r hr)), hstored hr]
  landed x hx := by
    rcases (hblobs x).1 hx with hx | ⟨rfl, hx⟩
    · exact (h.landed x hx).imp (fun hx => (hrows x).2 (.inl hx))
        (.imp (hrefused ·) (.imp (hnested ·) (hstray ·)))
    · exact hlanded hx
  tracked x hx := by
    rcases (hblobs x).1 hx with hx | ⟨rfl, hx⟩
    · exact (h.tracked x hx).imp (fun hx => (huncommitted x).2 (.inl hx))
        (.imp (hrefused ·) (.imp (hnested ·) (hstray ·)))
    · exact htracked hx
  nested r hr := by
    rcases hsave r hr with hr | hr
    exacts [hnested (h.nested r hr), hr]

/-- The fresh key is not in use. -/
theorem Ok.fresh (h : tx.Ok) (hb : b.key = tx.nextKey) :
    b ∉ tx.blobs ∧ b ∉ tx.allRows ∧ b ∉ tx.uncommittedBlobs := by
  refine ⟨fun hx => ?_, fun hx => ?_, fun hx => ?_⟩
  · have := h.keys b (.inl hx); omega
  · have := h.keys b (.inl (h.stored b hx)); omega
  · have := h.keys b (.inr hx); omega

theorem Ok.leave {tx tx' : EvidenceTx} (h : tx.Ok) (hb : b.key = tx.nextKey)
    (hnext : tx'.nextKey = tx.nextKey + 1)
    (hblobs : ∀ x, x ∈ tx'.blobs ↔ x ∈ tx.blobs ∨ (x = b ∧ b ∈ tx'.blobs))
    (hrows : tx'.allRows = tx.allRows) (huncommitted : tx'.uncommittedBlobs = tx.uncommittedBlobs)
    (hsave : tx'.savepoints = tx.savepoints) (hrefused : tx.refused ⊆ tx'.refused)
    (hnested : tx.nested ⊆ tx'.nested) (hstray : tx.stray ⊆ tx'.stray)
    (hexcused : b ∈ tx'.blobs → tx'.Excused b) : tx'.Ok := by
  obtain ⟨-, hrowless, hunlisted⟩ := h.fresh hb
  refine h.extend hb hnext hblobs (fun x => ?_) (fun hx =>
    absurd (hrows ▸ hx) hrowless) (fun x => ?_)
    hrefused hnested hstray (fun hx => .inr (hexcused hx)) (fun hx => .inr (hexcused hx))
    fun r hr => .inl (hsave ▸ hr)
  · rw [hrows]
    exact ⟨.inl, fun hx => hx.resolve_right fun hx => hrowless hx.2⟩
  · rw [huncommitted]
    exact ⟨.inl, fun hx => hx.resolve_right fun hx => hunlisted hx.2⟩

theorem nested_put (tx : EvidenceTx) (b : StoredBlob) : tx.nested ⊆ (tx.put b).nested := by
  intro x hx
  rw [put]
  split
  exacts [hx, mem_cons_of_mem _ hx]

theorem Ok.put_delete (h : tx.Ok) (hb : b.key = tx.nextKey)
    (refused : Bool) : ((tx.put b).deleteQuietly b refused).Ok := by
  obtain ⟨hfresh, -, -⟩ := h.fresh hb
  cases refused with
  | true =>
    exact h.leave hb rfl (by simp [deleteQuietly, put, or_comm]) rfl rfl rfl (subset_cons_self _ _)
      (tx.nested_put b) (List.Subset.refl _) fun _ => .inl mem_cons_self
  | false =>
    have hgone : b ∉ ((tx.put b).deleteQuietly b false).blobs := by simp [deleteQuietly]
    have hblobs : ∀ x, x ∈ ((tx.put b).deleteQuietly b false).blobs ↔ x ∈ tx.blobs := by
      intro x
      simp only [deleteQuietly, put, Bool.false_eq_true, if_false, mem_filter, mem_cons]
      constructor
      · rintro ⟨rfl | hx, hne⟩
        · simp at hne
        · exact hx
      · intro hx
        exact ⟨.inr hx, by simpa using fun he : x = b => hfresh (he ▸ hx)⟩
    exact h.leave hb rfl (fun x => by simp [hblobs, hfresh]) rfl rfl rfl (List.Subset.refl _)
      (tx.nested_put b) (List.Subset.refl _) fun hx => absurd hx hgone

theorem Ok.putStray (h : tx.Ok) (hb : b.key = tx.nextKey) : (tx.putStray b).Ok :=
  h.leave hb rfl (by simp [EvidenceTx.putStray, put, or_comm]) rfl rfl rfl (List.Subset.refl _)
    (tx.nested_put b) (subset_cons_self _ _) fun _ => .inr (.inr mem_cons_self)

/-- The handle is told of a blob. -/
def note (tx : EvidenceTx) (b : StoredBlob) : EvidenceTx :=
  { tx with uncommittedBlobs := b :: tx.uncommittedBlobs }

theorem Ok.note (h : tx.Ok) (hkey : b.key < tx.nextKey)
    (hsame : ∀ x ∈ tx.blobs, x.key = b.key → x = b) : (tx.note b).Ok where
  __ := h
  keys x hx := by
    rcases hx with hx | hx
    · exact h.keys x (.inl hx)
    · rcases mem_cons.1 hx with rfl | hx
      exacts [hkey, h.keys x (.inr hx)]
  distinct x y hx hy hxy := by
    rcases mem_cons.1 hy with rfl | hy
    exacts [hsame x hx hxy, h.distinct x y hx hy hxy]
  tracked x hx := (h.tracked x hx).imp_left (mem_cons_of_mem _)

theorem Ok.put_insert (h : tx.Ok) (hb : b.key = tx.nextKey)
    {own : Bool} (hown : own = false → tx.savepoints ≠ []) :
    ((if own then (tx.put b).note b else tx.put b).insertRow b).Ok := by
  obtain ⟨hfresh, hrowless, hunlisted⟩ := h.fresh hb
  have hput : (if own then (tx.put b).note b else tx.put b) = { tx.put b with
      uncommittedBlobs := if own then b :: tx.uncommittedBlobs else tx.uncommittedBlobs } := by
    split <;> rfl
  have huncommitted : ∀ x, x ∈ (if own then b :: tx.uncommittedBlobs else tx.uncommittedBlobs) ↔
      x ∈ tx.uncommittedBlobs ∨
        (x = b ∧ b ∈ (if own then b :: tx.uncommittedBlobs else tx.uncommittedBlobs)) := by
    cases own <;> simp [hunlisted, or_comm]
  have hblobs : ∀ x, x ∈ b :: tx.blobs ↔ x ∈ tx.blobs ∨ (x = b ∧ b ∈ b :: tx.blobs) := by
    simp [or_comm]
  rw [hput]
  cases hs : tx.savepoints with
  | nil =>
    obtain rfl : own = true := by
      cases own
      · exact absurd hs (hown rfl)
      · rfl
    have hrows : (EvidenceTx.insertRow { tx.put b with
        uncommittedBlobs := b :: tx.uncommittedBlobs } b) = { tx.put b with
        uncommittedBlobs := b :: tx.uncommittedBlobs, rows := b :: tx.rows } := by
      simp [insertRow, put, hs]
    simp only [if_true] at huncommitted ⊢
    rw [hrows]
    exact h.extend hb rfl hblobs (fun x => by simp [allRows, put, hs, or_comm])
      (fun _ => mem_cons_self) huncommitted (List.Subset.refl _) (by simp [put, hs])
      (List.Subset.refl _) (fun _ => .inl mem_cons_self) (fun _ => .inl mem_cons_self) (fun r hr => .inl hr)
  | cons l ls =>
    have hrows : (EvidenceTx.insertRow { tx.put b with
        uncommittedBlobs := if own then b :: tx.uncommittedBlobs else tx.uncommittedBlobs } b) =
        { tx.put b with
          uncommittedBlobs := if own then b :: tx.uncommittedBlobs else tx.uncommittedBlobs
          savepoints := (b :: l) :: ls } := by
      simp [insertRow, put, hs]
    have hnested : (tx.put b).nested = b :: tx.nested := by simp [put, hs]
    rw [hrows]
    refine h.extend hb rfl hblobs (fun x => ?_) (fun _ => mem_cons_self) huncommitted
      (List.Subset.refl _) ?_ (List.Subset.refl _) ?_ ?_ ?_
    · simp only [allRows, put, hs, mem_append, flatten_cons, mem_cons, or_assoc, true_or, or_true,
        and_true]
      exact or_congr_right (by rw [or_comm, or_assoc])
    · rw [hnested]
      exact subset_cons_self _ _
    · exact fun _ => .inr (.inr (.inl (by rw [hnested]; exact mem_cons_self)))
    · exact fun _ => .inr (.inr (.inl (by rw [hnested]; exact mem_cons_self)))
    · intro r hr
      rw [hnested, hs]
      simp only [flatten_cons, mem_append, mem_cons] at hr ⊢
      rcases hr with (hr | hr) | hr
      · exact .inr (.inl hr)
      · exact .inl (.inl hr)
      · exact .inl (.inr hr)

theorem storeEvidence_ok (h : tx.Ok) (manyLocations : Bool) {own : Bool}
    (hown : own = false → tx.savepoints ≠ []) (c : StoreCall) :
    (tx.storeEvidence manyLocations own c).1.Ok := by
  unfold storeEvidence
  split
  · exact h.fail
  split
  · exact h
  split
  · exact h.fail
  extract_lets blob tx₁ tx₂
  have hb : blob.key = tx.nextKey := rfl
  split
  · cases c.putLands
    exacts [h, h.putStray hb]
  obtain ⟨hfresh, hrowless, hunlisted⟩ := h.fresh hb
  split
  · refine Ok.abort ?_ true
    cases hs : own with
    | true => exact h.put_delete hb c.refused
    | false =>
      -- through a savepoint's handle the blob is kept
      have hnested : tx₁.nested = blob :: tx.nested := by simp [tx₁, put, hown hs]
      have hexcused : tx₁.Excused blob := .inr (.inl (by rw [hnested]; exact mem_cons_self))
      exact h.leave hb rfl (by simp [tx₁, put, or_comm]) rfl rfl rfl (List.Subset.refl _)
        (by rw [if_neg Bool.false_ne_true, hnested]; exact subset_cons_self _ _)
        (List.Subset.refl _) fun _ => hexcused
  · split
    · have hdeleted : (tx₂.deleteQuietly blob c.refused).Ok := by
        have hput := h.put_delete hb c.refused
        cases hs : own with
        | false => simpa [tx₂, hs] using hput
        | true =>
          have hnote := hput.note (b := blob) (by cases c.refused <;> simp [deleteQuietly, put, hb])
            (fun x hx hxb => ?_)
          · cases hr : c.refused <;> simpa [tx₂, hs, hr, deleteQuietly, note] using hnote
          · cases hr : c.refused <;> simp [hr, deleteQuietly, put] at hx
            · have := h.keys x (.inl hx.1)
              omega
            · rcases hx with rfl | hx
              · rfl
              · have := h.keys x (.inl hx)
                omega
      split
      exacts [hdeleted.fail, hdeleted]
    · exact h.put_insert hb hown

/-! ## The other calls -/

theorem evidenceOp_ok (h : tx.Ok) (manyLocations : Bool) (op : EvidenceOp) :
    (evidenceOp manyLocations tx op).1.Ok := by
  cases op with
  | store own call =>
    refine storeEvidence_ok h manyLocations (fun hown hs => ?_) call
    simp [hs] at hown
  | statement fails =>
    rw [evidenceOp]
    split
    exacts [h.fail, h]
  | savepoint =>
    rw [evidenceOp]
    split
    · exact h.fail
    · exact { h with
          stored := fun r hr => h.stored r (by simpa [allRows] using hr)
          landed := fun b hb => by simpa [allRows, Excused] using h.landed b hb
          nested := fun r hr => h.nested r (by simpa using hr) }
  | release =>
    rw [evidenceOp]
    split
    · exact h.fail
    · split
      · exact h.fail
      · rename_i l hs
        refine ⟨h.keys, h.distinct, fun r hr => h.stored r ?_, fun b hb => ?_, h.tracked, by simp⟩
        · simp only [allRows, hs, flatten_cons, flatten_nil, append_nil,
            mem_append] at hr ⊢
          exact hr.symm
        · have := h.landed b hb
          simp only [allRows, hs, flatten_cons, flatten_nil, append_nil,
            mem_append] at this ⊢
          exact this.imp_left .symm
      · rename_i l l' ls hs
        refine ⟨h.keys, h.distinct, fun r hr => h.stored r ?_, fun b hb => ?_, h.tracked,
          fun r hr => h.nested r ?_⟩
        · simpa [allRows, hs] using hr
        · simpa [allRows, hs, Excused] using h.landed b hb
        · simpa [hs] using hr
  | rollbackTo =>
    rw [evidenceOp]
    split
    · exact h.fail
    · rename_i l ls hs
      refine ⟨h.keys, h.distinct, fun r hr => h.stored r ?_, fun b hb => ?_, h.tracked,
        fun r hr => h.nested r ?_⟩
      · simp only [allRows, hs, flatten_cons, mem_append] at hr ⊢
        exact hr.imp_right .inr
      · -- what is rolled back was stored inside the savepoint
        rcases h.landed b hb with hb | hb
        · simp only [allRows, hs, flatten_cons, mem_append] at hb ⊢
          rcases hb with hb | hb | hb
          · exact .inl (.inl hb)
          · exact .inr (.inr (.inl (h.nested b (by rw [hs]; simp [hb]))))
          · exact .inl (.inr hb)
        · exact .inr hb
      · rw [hs]
        simp only [flatten_cons, mem_append]
        exact .inr hr

theorem runBody_ok (manyLocations : Bool) (body : List (EvidenceOp × Bool))
    (h : tx.Ok) : (runBody manyLocations body tx).1.Ok := by
  induction body generalizing tx with
  | nil => exact h
  | cons step body ih =>
    obtain ⟨op, caught⟩ := step
    have hstep := evidenceOp_ok h manyLocations op
    rw [runBody]
    split <;> rename_i hop <;> rw [hop] at hstep
    · split
      exacts [ih hstep, hstep]
    · exact ih hstep

end EvidenceTx

/-! ## Discarding -/

theorem discardBlobs_spec (refuses : StoredBlob → Bool) (orphans : List StoredBlob)
    (tx : EvidenceTx) :
    (∀ b, b ∈ (discardBlobs refuses orphans tx).blobs ↔
      b ∈ tx.blobs ∧ (b ∈ orphans → refuses b = true)) ∧
    (∀ b, b ∈ (discardBlobs refuses orphans tx).refused ↔
      b ∈ tx.refused ∨ (b ∈ orphans ∧ refuses b = true)) ∧
    (discardBlobs refuses orphans tx).nested = tx.nested ∧
    (discardBlobs refuses orphans tx).stray = tx.stray := by
  induction orphans generalizing tx with
  | nil => simp [discardBlobs]
  | cons o orphans ih =>
    obtain ⟨hblobs, hrefused, hnested, hstray⟩ := ih (tx.deleteQuietly o (refuses o))
    have hcons : discardBlobs refuses (o :: orphans) tx =
        discardBlobs refuses orphans (tx.deleteQuietly o (refuses o)) := rfl
    rw [hcons]
    cases hr : refuses o with
    | true =>
      rw [hr] at hblobs hrefused hnested hstray
      refine ⟨fun b => ?_, fun b => ?_, hnested, hstray⟩
      · rw [hblobs, mem_cons]
        constructor
        · rintro ⟨hb, himp⟩
          exact ⟨hb, fun ho => ho.elim (fun he => he ▸ hr) himp⟩
        · rintro ⟨hb, himp⟩
          exact ⟨hb, fun ho => himp (.inr ho)⟩
      · rw [hrefused, EvidenceTx.deleteQuietly, if_pos rfl, mem_cons, mem_cons]
        constructor
        · rintro ((rfl | hb) | hb)
          exacts [.inr ⟨.inl rfl, hr⟩, .inl hb, .inr ⟨.inr hb.1, hb.2⟩]
        · rintro (hb | ⟨rfl | hb, hb'⟩)
          exacts [.inl (.inr hb), .inl (.inl rfl), .inr ⟨hb, hb'⟩]
    | false =>
      rw [hr] at hblobs hrefused hnested hstray
      refine ⟨fun b => ?_, fun b => ?_, hnested, hstray⟩
      · rw [hblobs, EvidenceTx.deleteQuietly, if_neg Bool.false_ne_true, mem_filter,
          mem_cons, decide_eq_true_iff]
        constructor
        · rintro ⟨⟨hb, hne⟩, himp⟩
          exact ⟨hb, fun ho => ho.elim (fun he => absurd he hne) himp⟩
        · rintro ⟨hb, himp⟩
          refine ⟨⟨hb, fun he => ?_⟩, fun ho => himp (.inr ho)⟩
          have := himp (.inl he)
          rw [he, hr] at this
          cases this
      · rw [hrefused, mem_cons]
        constructor
        · rintro (hb | hb)
          exacts [.inl hb, .inr ⟨.inr hb.1, hb.2⟩]
        · rintro (hb | ⟨rfl | hb, hb'⟩)
          · exact .inl hb
          · rw [hr] at hb'
            cases hb'
          · exact .inr ⟨hb, hb'⟩

/-- **Evidence and its transaction.**  Whatever the body does and however it ends: every committed
row has its blob, unless a commit whose answer was lost took effect only after the check; and a blob
without a committed row is left only where the outcome could not be determined, where the storage
refused to delete it, where it was stored inside a savepoint, where its put failed, or where
`COMMIT` rolled an aborted transaction back without saying so. -/
theorem evidence_with_transaction (manyLocations : Bool) (body : List (EvidenceOp × Bool))
    (ending : EvidenceEnd) :
    (∀ r ∈ (transactionWithEvidence manyLocations body ending).rows,
      r ∈ (transactionWithEvidence manyLocations body ending).blobs ∨
        (transactionWithEvidence manyLocations body ending).late = true) ∧
    ∀ b ∈ (transactionWithEvidence manyLocations body ending).blobs,
      b ∈ (transactionWithEvidence manyLocations body ending).rows ∨
        (transactionWithEvidence manyLocations body ending).undetermined = true ∨
        b ∈ (transactionWithEvidence manyLocations body ending).refused ∨
        b ∈ (transactionWithEvidence manyLocations body ending).nested ∨
        b ∈ (transactionWithEvidence manyLocations body ending).stray ∨
        (transactionWithEvidence manyLocations body ending).silent = true := by
  have hempty : ({} : EvidenceTx).Ok :=
    ⟨by simp, by simp, by simp [EvidenceTx.allRows], by simp, by simp, by simp⟩
  have h := EvidenceTx.runBody_ok manyLocations body hempty
  unfold transactionWithEvidence
  generalize runBody manyLocations body {} = result at h
  obtain ⟨tx, threw⟩ := result
  dsimp only at h ⊢
  split
  · -- rolled back: every blob the handle was told of is discarded
    refine ⟨by simp, fun b hb => ?_⟩
    simp only [discardUncommittedBlobs, Bool.false_eq_true, if_false] at hb ⊢
    obtain ⟨hblobs, hrefused, hnested, hstray⟩ :=
      discardBlobs_spec ending.refuses tx.uncommittedBlobs tx
    obtain ⟨hb, himp⟩ := (hblobs b).1 hb
    rw [hrefused, hnested, hstray]
    rcases h.tracked b hb with hu | hr | hn | hs
    exacts [.inr (.inr (.inl (.inr ⟨hu, himp hu⟩))), .inr (.inr (.inl (.inl hr))),
      .inr (.inr (.inr (.inl hn))), .inr (.inr (.inr (.inr (.inl hs))))]
  · split
    · cases haborted : tx.aborted with
      | true => exact ⟨by simp, fun b hb => .inr (.inr (.inr (.inr (.inr rfl))))⟩
      | false =>
        refine ⟨fun r hr => .inl (h.stored r (by simpa [EvidenceTx.allRows] using hr)), fun b hb => ?_⟩
        rcases h.landed b hb with hl | hr | hn | hs
        exacts [.inl (by simpa [EvidenceTx.allRows] using hl), .inr (.inr (.inl hr)),
          .inr (.inr (.inr (.inl hn))), .inr (.inr (.inr (.inr (.inl hs))))]
    · rename_i fate checkFails _
      generalize hrows : (if (tx.aborted || decide (fate = .rolledBack)) = true then []
        else tx.rows ++ tx.savepoints.flatten) = rows
      have hstored : ∀ r ∈ rows, r ∈ tx.blobs := by
        intro r hr
        rw [← hrows] at hr
        split at hr
        · simp at hr
        · exact h.stored r hr
      cases checkFails with
      | true =>
        exact ⟨fun r hr => .inl (hstored r hr), fun b hb => .inr (.inl rfl)⟩
      | false =>
        simp only [discardUncommittedBlobs, Bool.false_eq_true, if_false, if_true]
        generalize hvisible : (if decide (fate = .committedLate) = true then [] else rows) = visible
        obtain ⟨hblobs, hrefused, hnested, hstray⟩ := discardBlobs_spec ending.refuses
          (tx.uncommittedBlobs.filter fun b => !(visible.map StoredBlob.key).contains b.key) tx
        constructor
        · intro r hr
          by_cases hlate : fate = .committedLate
          · exact .inr (decide_eq_true hlate)
          · -- a visible row keeps its blob
            rw [if_neg (by simpa using hlate)] at hvisible
            refine .inl ((hblobs r).2 ⟨hstored r hr, fun hmem => ?_⟩)
            have hout := (mem_filter.1 hmem).2
            rw [Bool.not_eq_true', contains_eq_mem, decide_eq_false_iff_not] at hout
            exact absurd (mem_map_of_mem (hvisible ▸ hr)) hout
        · intro b hb
          obtain ⟨hb, himp⟩ := (hblobs b).1 hb
          rw [hrefused, hnested, hstray]
          rcases h.tracked b hb with hu | hr | hn | hs
          · by_cases hkey : b.key ∈ visible.map StoredBlob.key
            · obtain ⟨r, hr, hrb⟩ := mem_map.1 hkey
              have hrow : r ∈ rows := by
                rw [← hvisible] at hr
                split at hr
                · simp at hr
                · exact hr
              obtain rfl : r = b := h.distinct r b (hstored r hrow) hu hrb
              exact .inl hrow
            · have hmem : b ∈ tx.uncommittedBlobs.filter fun b =>
                  !(visible.map StoredBlob.key).contains b.key := by
                rw [mem_filter, Bool.not_eq_true', contains_eq_mem,
                  decide_eq_false_iff_not]
                exact ⟨hu, hkey⟩
              exact .inr (.inr (.inl (.inr ⟨hmem, himp hmem⟩)))
          · exact .inr (.inr (.inl (.inl hr)))
          · exact .inr (.inr (.inr (.inl hn)))
          · exact .inr (.inr (.inr (.inr (.inl hs))))

/-- A body that stores one image and then throws. -/
def storeThenThrow : EvidenceEnd := ⟨true, .answered, fun _ => true⟩

/-- Where the storage refuses the delete, the blob of a rolled-back transaction is left. -/
theorem evidence_blob_left :
    (transactionWithEvidence false [(.store true { id := none, freshId := 7, location := none }, false)]
      storeThenThrow).blobs = [⟨7, 0, none⟩] ∧
    (transactionWithEvidence false [(.store true { id := none, freshId := 7, location := none }, false)]
      storeThenThrow).rows = [] ∧
    (transactionWithEvidence false [(.store true { id := none, freshId := 7, location := none }, false)]
      storeThenThrow).undetermined = false := by
  decide

end SmartProctoring
