import SmartProctoring.Server.CapsKept
import SmartProctoring.Web.SegmentsNumbered

/-!
# What the server finds under a segment's number

The server takes `(stream, instance, seq)` as the identity of a session's segment.  The uploads of a
session are those of the storage caps; here the ones from one page are uploads of segments that the
page handed over.
-/

set_option autoImplicit false

namespace SmartProctoring

open List

def SegmentInfo.key (q : SegmentInfo) (instanceId : Nat) : SegmentKey :=
  ⟨q.stream, instanceId, q.seq⟩

/-- The segment that an upload is about. -/
def UploadTask.segment? : UploadTask → Option SegmentUpload
  | findSegment u => some u
  | recordingCap u => some u
  | insertSegment u => some u
  | commitSegment u => some u
  | _ => none

/-- An upload of a segment that the page has handed over, if it is one of the page. -/
def SegmentUpload.OfPage (queued : List SegmentInfo) (instanceId : Nat)
    (u : SegmentUpload) : Prop :=
  u.key.clientInstanceId = instanceId → ∃ q ∈ queued,
  u.key = q.key instanceId ∧ u.byteSize = q.bytes

def CapsAction.segment? : CapsAction → Option SegmentUpload
  | arrive t => t.segment?
  | _ => none

/-- The uploads of the page are of segments that it has handed over. -/
def UploadsOf (queued : List SegmentInfo) (instanceId : Nat) (a : CapsAction)
    (_ : CapsState) : Prop :=
  ∀ u ∈ a.segment?, u.OfPage queued instanceId

instance UploadsOf.decidable (queued : List SegmentInfo) (instanceId : Nat) (a : CapsAction)
    (s : CapsState) : Decidable (UploadsOf queued instanceId a s) :=
  have (u : SegmentUpload) : Decidable (u.OfPage queued instanceId) :=
    inferInstanceAs (Decidable (_ → ∃ q ∈ queued, u.key = q.key instanceId ∧ u.byteSize = q.bytes))
  inferInstanceAs (Decidable (∀ u ∈ a.segment?, u.OfPage queued instanceId))

/-- The rows of `evidence` stay, with their sizes. -/
def CapsDb.RowsKept (db db' : CapsDb) : Prop :=
  ∀ (i : Nat) (row : SessionEvidenceRow), db.rows[i]? = some row →
    ∃ row' : SessionEvidenceRow, db'.rows[i]? = some row' ∧ row'.byteSize = row.byteSize

/-- What is stored of the page, and what is on its way, is what the page has handed over. -/
structure StoredOf (queued : List SegmentInfo) (instanceId : Nat) (s : CapsState) : Prop where
  tasks : ∀ t ∈ s.tasks, ∀ u ∈ t.segment?, u.OfPage queued instanceId
  stored : ∀ g ∈ s.db.segments, g.key.clientInstanceId = instanceId → ∃ q ∈ queued,
    g.key = q.key instanceId ∧ ∃ row, s.db.rows[g.evidenceId]? = some row ∧ row.byteSize = q.bytes

variable {queued : List SegmentInfo} {instanceId : Nat} {cfg : CapsConfig} {db db' : CapsDb}
    {s : CapsState}

theorem CapsDb.RowsKept.refl (db : CapsDb) : db.RowsKept db := fun _ row h => ⟨row, h, rfl⟩

theorem CapsDb.rowsKept_append {added : List SessionEvidenceRow}
    (hrows : db'.rows = db.rows ++ added) : db.RowsKept db' := by
  intro i row hi
  refine ⟨row, ?_, rfl⟩
  rwa [hrows, List.getElem?_append_left (List.getElem?_eq_some_iff.1 hi).1]

theorem CapsDb.rowsKept_storeImages (images : List (EvidenceKind × Nat)) :
    db.RowsKept (db.storeImages images) := by
  obtain ⟨added, hdb, -⟩ := storeImages_eq images db
  exact CapsDb.rowsKept_append (by rw [hdb])

theorem CapsDb.rowsKept_purge (ids : List Nat) : db.RowsKept (db.purgeEvidenceRows ids) := by
  intro i row hi
  refine ⟨if row.id ∈ ids then { row with purged := true } else row, ?_, ?_⟩
  · show (db.rows.map _)[i]? = _
    rw [List.getElem?_map, hi]
    rfl
  · split <;> rfl

theorem StoredOf.congr {s' : CapsState} (h : StoredOf queued instanceId s)
    (htasks : ∀ t ∈ s'.tasks, ∀ u ∈ t.segment?, u.OfPage queued instanceId)
    (hsegments : s'.db.segments = s.db.segments) (hrows : s.db.RowsKept s'.db) :
    StoredOf queued instanceId s' where
  tasks := htasks
  stored g hg hi := by
    rw [hsegments] at hg
    obtain ⟨q, hq, hkey, row, hrow, hsize⟩ := h.stored g hg hi
    obtain ⟨row', hrow', hsize'⟩ := hrows _ row hrow
    exact ⟨q, hq, hkey, row', hrow', hsize'.trans hsize⟩

/-- A task after which there is no other segment. -/
def UploadTask.Carries (t t' : UploadTask) : Prop := ∀ u ∈ t'.segment?, t.segment? = some u

theorem UploadTask.carries_none {t t' : UploadTask} (h : t'.segment? = none) : t.Carries t' := by
  intro u hu
  rw [h] at hu
  cases hu

theorem UploadTask.carries_eq {t t' : UploadTask} (h : t'.segment? = t.segment?) : t.Carries t' :=
  fun _ hu => h.symm.trans hu

theorem UploadTask.Carries.ite {c : Prop} [Decidable c] {t t₁ t₂ : UploadTask} (h₁ : t.Carries t₁)
    (h₂ : t.Carries t₂) : t.Carries (if c then t₁ else t₂) := by
  split
  · exact h₁
  · exact h₂

theorem carries_next (cfg : CapsConfig) (db : CapsDb) (t : UploadTask) :
    t.Carries (db.next cfg t).2 := by
  have hnone : ∀ t', t'.segment? = none → t.Carries t' := fun _ h => UploadTask.carries_none h
  cases t with
  | findSegment u => exact (hnone _ rfl).ite ((hnone _ rfl).ite (UploadTask.carries_eq rfl))
  | recordingCap u | insertSegment u => exact (hnone _ rfl).ite (UploadTask.carries_eq rfl)
  | commitSegment u => exact hnone _ rfl
  | findEvidence u => exact (hnone _ rfl).ite ((hnone _ rfl).ite (hnone _ rfl))
  | countScreenshots u | screenshotShare u
  | countPerEvent u => exact (hnone _ rfl).ite (hnone _ rfl)
  | lookupEvidence u | insertEvidence u =>
    simp only [CapsDb.next]
    split <;> exact hnone _ rfl
  | frameBudget u | lockCheck u | frameBudgetAgain u => exact (hnone _ rfl).ite (hnone _ rfl)
  | commitFrame u | sampleImages u | recheck id | done => exact hnone _ rfl

theorem next_segments (cfg : CapsConfig) (db : CapsDb) (t : UploadTask) :
    (∃ u, t = .commitSegment u) ∨
      ((db.next cfg t).1.segments = db.segments ∧ db.RowsKept (db.next cfg t).1) := by
  have hsame : db.segments = db.segments ∧ db.RowsKept db := ⟨rfl, .refl db⟩
  have himages : ∀ images, (db.storeImages images).segments = db.segments ∧
      db.RowsKept (db.storeImages images) := by
    intro images
    obtain ⟨_, hdb, -⟩ := storeImages_eq images db
    exact ⟨by rw [hdb], CapsDb.rowsKept_storeImages images⟩
  cases t with
  | commitSegment u => exact .inl ⟨u, rfl⟩
  | insertEvidence u =>
    simp only [CapsDb.next]
    split
    · exact .inr hsame
    · exact .inr ⟨rfl, CapsDb.rowsKept_append rfl⟩
  | commitFrame u => exact .inr (himages _)
  | sampleImages u =>
    simp only [CapsDb.next]
    split
    · exact .inr (himages _)
    · exact .inr hsame
  | recheck id =>
    simp only [CapsDb.next]
    split
    · exact .inr ⟨rfl, CapsDb.rowsKept_purge _⟩
    · exact .inr hsame
  | _ => exact .inr hsame

theorem StoredOf.advance (h : StoredOf queued instanceId s) (k : Nat) :
    StoredOf queued instanceId (CapsAction.step cfg (.advance k) s) := by
  rw [CapsAction.step]
  split
  next t ht =>
    have htasks : ∀ t' ∈ s.tasks.set k (s.db.next cfg t).2, ∀ u ∈ t'.segment?, u.OfPage queued instanceId := by
      intro t' ht' u hu
      rcases mem_set_cases ht ht' with rfl | ht'
      · exact h.tasks t (mem_of_getElem? ht) u (carries_next cfg s.db t u hu)
      · exact h.tasks t' (mem_of_mem_eraseIdx ht') u hu
    rcases next_segments cfg s.db t with ⟨u, rfl⟩ | ⟨hsegments, hrows⟩
    · have hrows : s.db.RowsKept (s.db.next cfg (.commitSegment u)).1 := CapsDb.rowsKept_append rfl
      refine ⟨htasks, ?_⟩
      intro g hg hi
      rcases mem_snoc.1 hg with hg | rfl
      · obtain ⟨q, hq, hkey, row, hrow, hsize⟩ := h.stored g hg hi
        obtain ⟨row', hrow', hsize'⟩ := hrows _ row hrow
        exact ⟨q, hq, hkey, row', hrow', hsize'.trans hsize⟩
      · obtain ⟨q, hq, hkey, hsize⟩ := h.tasks _ (mem_of_getElem? ht) u rfl hi
        exact ⟨q, hq, hkey, _, List.getElem?_concat_length, hsize⟩
    · exact h.congr htasks hsegments hrows
  next => exact h

theorem StoredOf.reachable (h : ((uploadMachine cfg).restrict
    (UploadsOf queued instanceId)).Reachable s) :
    StoredOf queued instanceId s := by
  induction h with
  | init h0 =>
    rw [show _ = _ from h0]
    constructor <;> simp
  | @step s _ a ha ih =>
    obtain ⟨-, hg⟩ := ha
    cases a with
    | arrive t =>
      refine ih.congr (fun t' ht' => ?_) rfl (.refl _)
      rcases mem_snoc.1 ht' with ht' | rfl
      · exact ih.tasks t' ht'
      · exact hg
    | advance k => exact ih.advance k
    | fail k =>
      refine ih.congr (fun t' ht' => ?_) rfl (.refl _)
      rcases mem_or_eq_of_mem_set ht' with ht' | rfl
      · exact ih.tasks t' ht'
      · simp [UploadTask.segment?]
    | keep images =>
      obtain ⟨_, hdb, -⟩ := storeImages_eq images s.db
      refine ih.congr ih.tasks ?_ (CapsDb.rowsKept_storeImages images)
      show (s.db.storeImages images).segments = _
      rw [hdb]
    | purge ids => exact ih.congr ih.tasks rfl (CapsDb.rowsKept_purge ids)
    | close => exact ih.congr ih.tasks rfl (CapsDb.RowsKept.refl s.db)

/-! ## In every run -/

/-- Two segments of a stream have different numbers; so what the server finds under a segment's key
is that segment. -/
structure KeysDistinct (queued : List SegmentInfo) : Prop where
  distinct : queued.Pairwise fun a b => a.stream = b.stream → a.seq ≠ b.seq
  found : ∀ (cfg : CapsConfig) (instanceId : Nat) (s : CapsState),
    ((uploadMachine cfg).restrict (UploadsOf queued instanceId)).Reachable s →
      ∀ q ∈ queued, s.db.findSegment (q.key instanceId) = true →
        ∃ g ∈ s.db.segments, g.key = q.key instanceId ∧
          (∃ row, s.db.rows[g.evidenceId]? = some row ∧ row.byteSize = q.bytes) ∧
          ∀ q' ∈ queued, q'.key instanceId = g.key → q' = q

theorem keysDistinct_of_pairwise (h : queued.Pairwise fun a b => a.stream = b.stream →
    a.seq ≠ b.seq) : KeysDistinct queued := by
  refine ⟨h, fun cfg instanceId s hs q hq hfound => ?_⟩
  have hsymm : Std.Symm fun a b : SegmentInfo => a.stream = b.stream → a.seq ≠ b.seq :=
    ⟨fun _ _ hab hst => (hab hst.symm).symm⟩
  have hinj : ∀ q₁ ∈ queued, ∀ q₂ ∈ queued, q₁.key instanceId = q₂.key instanceId → q₁ = q₂ := by
    intro q₁ hq₁ q₂ hq₂ hkey
    obtain ⟨hst, -, hseq⟩ := SegmentKey.mk.inj hkey
    by_contra hne
    exact h.forall hq₁ hq₂ hne hst hseq
  obtain ⟨g, hg, hkey⟩ := any_eq_true.1 hfound
  have hkey : g.key = q.key instanceId := by simpa using hkey
  obtain ⟨q', hq', hkey', hrow⟩ := (StoredOf.reachable hs).stored g hg (by rw [hkey]; rfl)
  obtain rfl : q' = q := hinj q' hq' q hq (hkey'.symm.trans hkey)
  exact ⟨g, hg, hkey, hrow, fun q₂ hq₂ hkey₂ => hinj q₂ hq₂ q' hq (hkey₂.trans hkey)⟩

namespace RecordingPage

instance decidableFresh (a : RecordingAction) (p : RecordingPage) : Decidable (Fresh a p) :=
  have (m : Recorders) (stream : RecordingStream) : Decidable (m.fresh stream) :=
    inferInstanceAs (Decidable (_ ∧ _))
  inferInstanceAs (Decidable (∀ stream ∈ p.begins a, p.media.fresh stream))

/-- While the recorders that are made find their stream fresh, the segments that are handed over
have different numbers, and the server finds under each the segment itself. -/
theorem segments_distinct {p : RecordingPage} (h : (machine.restrict Fresh).Reachable p) :
    KeysDistinct p.media.queued :=
  keysDistinct_of_pairwise (Numbered.reachable h).distinct

/-- A page on which nothing is shared yet. -/
def newPage : RecordingPage where
  supported := true
  camera := ⟨false, false, 0⟩
  screen := ⟨false, false, 0⟩
  runs := []
  media := ⟨fun _ => 0, [], [], []⟩

def works : RecorderOutcome := ⟨true, false⟩

/-- The screen alone is recorded, and it is shared. -/
def shareScreen : List RecordingAction :=
  [.construct ⟨true, false, false, true⟩, .screen ⟨true, true, 1⟩, .start 0 works, .data 0 5]

def stopSharing : List RecordingAction := [.screen ⟨false, false, 1⟩, .onScreen 0 works]

def shareAgain : List RecordingAction := [.screen ⟨true, true, 2⟩, .onScreen 0 works, .data 1 9]

/-- The recorder's stop event comes before the screen is shared again. -/
def sharedTwice : List RecordingAction :=
  shareScreen ++ stopSharing ++ [.stopEvent 0 6000 works] ++ shareAgain ++ stopSharing ++
  [.stopEvent 1 6000 works]

theorem sharedTwice_admits :
    (machine.restrict Fresh).Admits newPage sharedTwice := by decide +kernel

theorem segments_distinct_sharedTwice :
    KeysDistinct (machine.run newPage sharedTwice).media.queued ∧
      (machine.run newPage sharedTwice).media.queued = [⟨0, .screen, 0, 6000, 5⟩, ⟨1, .screen, 1, 6000, 9⟩] :=
  ⟨segments_distinct
    (.run (.init (M := machine.restrict Fresh) ⟨rfl, rfl⟩) sharedTwice_admits), by decide +kernel⟩

/-- The screen is shared again before the recorder's stop event. -/
def sharedEarly : List RecordingAction :=
  shareScreen ++ stopSharing ++ shareAgain ++ [.stopEvent 0 6000 works] ++ stopSharing ++
  [.stopEvent 1 6000 works]

/-- The uploads of the two segments, one after the other. -/
def sharedEarlyUploads : List CapsAction :=
  .arrive (.findSegment ⟨⟨.screen, 7, 0⟩, 5, true⟩) :: List.replicate 5 (.advance 0) ++
    [.arrive (.findSegment ⟨⟨.screen, 7, 0⟩, 9, true⟩), .advance 1]

/-- Both segments have number 0; the second is answered as stored, and is not. -/
theorem sharedEarly_lost :
    (∃ p, machine.Reachable p ∧ p.media.queued = [⟨0, .screen, 0, 6000, 5⟩, ⟨1, .screen, 0, 6000, 9⟩] ∧
      ¬ KeysDistinct p.media.queued) ∧
    ∃ s, ((uploadMachine smallCaps).restrict
        (UploadsOf [⟨0, .screen, 0, 6000, 5⟩, ⟨1, .screen, 0, 6000, 9⟩] 7)).Reachable s ∧
      s.tasks = [.done, .done] ∧ s.db.findSegment ⟨.screen, 7, 0⟩ = true ∧
      s.db.rows.map (·.byteSize) = [5] := by
  have hpage : machine.Admits newPage sharedEarly := by decide +kernel
  have hqueued : (machine.run newPage sharedEarly).media.queued =
      [⟨0, .screen, 0, 6000, 5⟩, ⟨1, .screen, 0, 6000, 9⟩] := by decide +kernel
  have huploads : ((uploadMachine smallCaps).restrict
      (UploadsOf [⟨0, .screen, 0, 6000, 5⟩, ⟨1, .screen, 0, 6000, 9⟩] 7)).Admits noUploads sharedEarlyUploads := by
    decide +kernel
  refine ⟨⟨_, .run (.init (M := machine) ⟨rfl, rfl⟩) hpage, hqueued, fun h => ?_⟩,
    _, .run (.init rfl) huploads, by decide +kernel, by decide +kernel, by decide +kernel⟩
  have hdistinct := h.distinct
  exact (pairwise_cons.1 hdistinct).1 _ mem_cons_self rfl rfl

end RecordingPage

end SmartProctoring
