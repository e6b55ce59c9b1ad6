import Mathlib.Algebra.GroupWithZero.Nat
import Mathlib.Data.List.Nodup
import SmartProctoring.Lib.Budget
import SmartProctoring.Lib.Run
import SmartProctoring.Lib.Slots
import SmartProctoring.Shared.Policy

/-!
# Storage caps of a session

The uploads of one exam session: recording segments (`services/recordings.ts`), event screenshots
(`services/ingest.ts`), check frames (`services/checks.ts`) and identity samples
(`services/identity-samples.ts`), with the caps of `services/session-limits.ts`.  Each statement is
a step; so is a transaction that holds the session row.  A transaction that does not hold it shows
its rows when it commits, and an insert waits for another transaction that inserts the same key.

What an upload finds in the request and in the session's row before it comes to the caps is part of
the upload.
-/

set_option autoImplicit false

namespace SmartProctoring

inductive EvidenceKind
  | eventScreenshot | identityProbe | identityReference | idPhoto | livenessFrame | recording
  deriving DecidableEq

/-- A row of `evidence`, of this session. -/
structure SessionEvidenceRow where
  id : Nat
  /-- The id of an event screenshot is chosen by the client. -/
  clientId : Option Nat
  kind : EvidenceKind
  byteSize : Nat
  eventId : Option Nat
  purged : Bool

/-- What the unique index of `recording_segments` is on, of one session. -/
structure SegmentKey where
  stream : RecordingStream
  clientInstanceId : Nat
  seq : Nat
  deriving DecidableEq

structure SegmentRow where
  key : SegmentKey
  evidenceId : Nat

structure SessionEvidenceUsage where
  items : Nat
  bytes : Nat

structure CapsDb where
  rows : List SessionEvidenceRow
  segments : List SegmentRow
  /-- Consent was withdrawn, or the evidence deleted. -/
  closed : Bool
  /-- The usage with each screenshot at the moment it was stored. -/
  shots : List SessionEvidenceUsage

/-- `config.sessionLimits`, `config.recording.maxSessionBytes` and the policy's
`maxScreenshotsPerEvent`. -/
structure CapsConfig where
  maxEvidenceItems : Nat
  maxEvidenceBytes : Nat
  maxSessionBytes : Nat
  maxScreenshotsPerEvent : Nat

/-- Fraction (in tenths) of the per-session evidence budget available to client event
screenshots. -/
def EVENT_SCREENSHOT_SHARE : Nat := 8

/-- Fraction (in tenths) available to mid-exam identity-sample images. -/
def IDENTITY_SAMPLE_SHARE : Nat := 9

def MAX_EVIDENCE_PER_SESSION : Nat := 3000

/-! ## The queries -/

def SessionEvidenceRow.isRecording (r : SessionEvidenceRow) : Bool :=
  r.kind = .recording ∧ ¬ r.purged

/-- Bytes of recording stored for a session (segments not deleted). -/
def sessionRecordingBytes (rows : List SessionEvidenceRow) : Nat :=
  ((rows.filter (·.isRecording)).map (·.byteSize)).sum

def SessionEvidenceRow.isImage (r : SessionEvidenceRow) : Bool := r.kind ≠ .recording ∧ ¬ r.purged

def sessionEvidenceUsage (rows : List SessionEvidenceRow) : SessionEvidenceUsage where
  items := (rows.filter (·.isImage)).length
  bytes := ((rows.filter (·.isImage)).map (·.byteSize)).sum

/-- True when `items` more evidence rows totalling `bytes` fit into the session's budget (times
`share`). -/
def sessionHasEvidenceCapacity (cfg : CapsConfig) (rows : List SessionEvidenceRow)
    (items bytes : Nat) (share : Nat := 10) : Bool :=
  (sessionEvidenceUsage rows).items + items ≤ cfg.maxEvidenceItems * share / 10 ∧
    (sessionEvidenceUsage rows).bytes + bytes ≤ cfg.maxEvidenceBytes * share / 10

/-! ## The uploads -/

structure SegmentUpload where
  key : SegmentKey
  byteSize : Nat
  /-- The plan, the file, consent, control and the time allow it. -/
  admitted : Bool
  deriving DecidableEq

structure ScreenshotUpload where
  id : Nat
  byteSize : Nat
  /-- The event, if it is one of this session. -/
  eventId : Option Nat
  /-- Control, the policy and the time allow it. -/
  admitted : Bool
  deriving DecidableEq

structure FrameUpload where
  checkId : Nat
  byteSize : Nat
  wantCrop : Bool
  /-- The face crop the analysis cut out. -/
  crop : Option Nat
  /-- The check is open and takes the frame, before the analysis and when it is locked. -/
  admitted : Bool
  stillOpen : Bool
  deriving DecidableEq

structure SampleUpload where
  jpeg : Option Nat
  crop : Option Nat
  deriving DecidableEq

/-- An upload, at its next statement. -/
inductive UploadTask
  | findSegment (u : SegmentUpload)
  | recordingCap (u : SegmentUpload)
  | insertSegment (u : SegmentUpload)
  | commitSegment (u : SegmentUpload)
  | findEvidence (u : ScreenshotUpload)
  | countScreenshots (u : ScreenshotUpload)
  | screenshotShare (u : ScreenshotUpload)
  | countPerEvent (u : ScreenshotUpload)
  | lookupEvidence (u : ScreenshotUpload)
  | insertEvidence (u : ScreenshotUpload)
  | frameBudget (u : FrameUpload)
  | lockCheck (u : FrameUpload)
  | frameBudgetAgain (u : FrameUpload)
  | commitFrame (u : FrameUpload)
  | sampleImages (u : SampleUpload)
  /-- Whether the session was closed while the upload was in flight. -/
  | recheck (id : Nat)
  | done
  deriving DecidableEq

namespace CapsDb

variable (cfg : CapsConfig) (db : CapsDb)

/-- The row `storeEvidence` inserts. -/
def newRow (clientId : Option Nat) (kind : EvidenceKind) (byteSize : Nat) (eventId : Option Nat) :
    SessionEvidenceRow where
  id := db.rows.length
  clientId := clientId
  kind := kind
  byteSize := byteSize
  eventId := eventId
  purged := false

/-- Images with ids made up by the server, one after the other. -/
def storeImages (images : List (EvidenceKind × Nat)) : CapsDb :=
  images.foldl (fun db i => { db with rows := db.rows ++ [db.newRow none i.1 i.2 none] }) db

/-- `purgeEvidenceRows`. -/
def purgeEvidenceRows (ids : List Nat) : CapsDb :=
  { db with rows := db.rows.map fun r => if r.id ∈ ids then { r with purged := true } else r }

def findSegment (key : SegmentKey) : Bool := db.segments.any fun g => g.key = key

def findEvidence (id : Nat) : Option SessionEvidenceRow :=
  db.rows.find? fun r => r.clientId = some id

/-- The next statement of an upload. -/
def next : UploadTask → CapsDb × UploadTask
  | .findSegment u =>
    (db, if db.findSegment u.key then .done else if ¬ u.admitted then .done else .recordingCap u)
  | .recordingCap u =>
    (db, if sessionRecordingBytes db.rows + u.byteSize > cfg.maxSessionBytes then .done else .insertSegment u)
  | .insertSegment u =>
    -- `DuplicateSegment` rolls the transaction back
    (db, if db.findSegment u.key then .done else .commitSegment u)
  | .commitSegment u =>
    let row := db.newRow none .recording u.byteSize none
    ({ db with rows := db.rows ++ [row], segments := db.segments ++ [⟨u.key, row.id⟩] }, .recheck row.id)
  | .findEvidence u =>
    (db, if (db.findEvidence u.id).isSome then .done else if ¬ u.admitted then .done else .countScreenshots u)
  | .countScreenshots u =>
    (db,
      if MAX_EVIDENCE_PER_SESSION ≤ db.rows.countP (fun r => r.kind = .eventScreenshot) then .done
      else .screenshotShare u)
  | .screenshotShare u =>
    (db,
      if sessionHasEvidenceCapacity cfg db.rows 1 u.byteSize EVENT_SCREENSHOT_SHARE then .countPerEvent u
      else .done)
  | .countPerEvent u =>
    (db,
      if u.eventId.isSome ∧ cfg.maxScreenshotsPerEvent + 2 ≤ db.rows.countP (fun r => r.eventId = u.eventId) then
        .done
      else .lookupEvidence u)
  | .lookupEvidence u =>
    (db,
      match db.findEvidence u.id with
      | some r => .recheck r.id
      | none => .insertEvidence u)
  | .insertEvidence u =>
    match db.findEvidence u.id with
    | some r => (db, .recheck r.id)
    | none =>
      let row := db.newRow (some u.id) .eventScreenshot u.byteSize u.eventId
      let rows := db.rows ++ [row]
      ({ db with rows := rows, shots := db.shots ++ [sessionEvidenceUsage rows] }, .recheck row.id)
  | .frameBudget u =>
    (db,
      if u.admitted ∧ sessionHasEvidenceCapacity cfg db.rows (if u.wantCrop then 2 else 1) u.byteSize then
        .lockCheck u
      else .done)
  | .lockCheck u => (db, if u.stillOpen then .frameBudgetAgain u else .done)
  | .frameBudgetAgain u =>
    (db,
      if sessionHasEvidenceCapacity cfg db.rows (if u.crop.isSome then 2 else 1) (u.byteSize + u.crop.getD 0) then
        .commitFrame u
      else .done)
  | .commitFrame u =>
    (db.storeImages ((.livenessFrame, u.byteSize) :: (u.crop.toList.map fun b => (.livenessFrame, b))), .done)
  | .sampleImages u =>
    (if sessionHasEvidenceCapacity cfg db.rows 2 (u.jpeg.getD 0 + u.crop.getD 0) IDENTITY_SAMPLE_SHARE then
        db.storeImages ((u.crop.toList ++ u.jpeg.toList).map fun b => (.identityProbe, b))
      else db, .done)
  | .recheck id => (if db.closed then db.purgeEvidenceRows [id] else db, .done)
  | .done => (db, .done)

end CapsDb

/-! ## The uploads together -/

structure CapsState where
  db : CapsDb
  tasks : List UploadTask

def UploadTask.isRequest : UploadTask → Bool
  | .findSegment _ | .findEvidence _ | .frameBudget _ | .sampleImages _ => true
  | _ => false

/-- Waiting for a transaction that inserts the same key, or that holds the row of the check. -/
def UploadTask.waitsFor : UploadTask → UploadTask → Bool
  | .insertSegment u, .commitSegment v => u.key = v.key
  | .lockCheck u, .frameBudgetAgain v => u.checkId = v.checkId
  | .lockCheck u, .commitFrame v => u.checkId = v.checkId
  | _, _ => false

inductive CapsAction
  | arrive (t : UploadTask)
  | advance (k : Nat)
  /-- A statement of the upload fails, and its transaction is rolled back. -/
  | fail (k : Nat)
  /-- Images that the result of a check, or an event, keeps. -/
  | keep (images : List (EvidenceKind × Nat))
  | purge (ids : List Nat)
  | close

def CapsAction.enabled (a : CapsAction) (s : CapsState) : Prop :=
  match a with
  | .arrive t => t.isRequest
  | .advance k => ∀ t ∈ s.tasks[k]?, ∀ t' ∈ s.tasks.eraseIdx k, ¬ t.waitsFor t'
  | .keep images => ∀ i ∈ images, i.1 ≠ .recording ∧ i.1 ≠ .eventScreenshot
  | _ => True

instance CapsAction.decidableEnabled (a : CapsAction) (s : CapsState) :
    Decidable (a.enabled s) := by
  unfold CapsAction.enabled
  split <;> infer_instance

def CapsAction.step (cfg : CapsConfig) (a : CapsAction) (s : CapsState) : CapsState :=
  match a with
  | .arrive t => { s with tasks := s.tasks ++ [t] }
  | .advance k =>
    match s.tasks[k]? with
    | some t => ⟨(s.db.next cfg t).1, s.tasks.set k (s.db.next cfg t).2⟩
    | none => s
  | .fail k => { s with tasks := s.tasks.set k .done }
  | .keep images => { s with db := s.db.storeImages images }
  | .purge ids => { s with db := s.db.purgeEvidenceRows ids }
  | .close => { s with db := { s.db with closed := true } }

/-- The uploads of a session, from its beginning on. -/
def uploadMachine (cfg : CapsConfig) : Machine CapsState CapsAction where
  init s := s = ⟨⟨[], [], false, []⟩, []⟩
  step := CapsAction.step cfg
  enabled := CapsAction.enabled

instance uploadMachine.decidableEnabled (cfg : CapsConfig) (a : CapsAction) (s : CapsState) :
    Decidable ((uploadMachine cfg).enabled a s) :=
  inferInstanceAs (Decidable (a.enabled s))

/-! ## What a statement does -/

namespace UploadTask

/-- A segment between its cap and its commit. -/
def recordingBytes? : UploadTask → Option Nat
  | insertSegment u | commitSegment u => some u.byteSize
  | _ => none

/-- The key that an open transaction has inserted. -/
def insertedKey? : UploadTask → Option SegmentKey
  | commitSegment u => some u.key
  | _ => none

/-- A screenshot between its share and its insert. -/
def screenshot? : UploadTask → Option ScreenshotUpload
  | countPerEvent u | lookupEvidence u | insertEvidence u => some u
  | _ => none

/-- Whether the next statement stores an image. -/
def storesImage (cfg : CapsConfig) (db : CapsDb) : UploadTask → Bool
  | insertEvidence u => (db.findEvidence u.id).isNone
  | commitFrame _ => true
  | sampleImages u =>
    sessionHasEvidenceCapacity cfg db.rows 2 (u.jpeg.getD 0 + u.crop.getD 0) IDENTITY_SAMPLE_SHARE ∧
      u.crop.toList ++ u.jpeg.toList ≠ []
  | _ => false

/-- Whether the next statement finds a segment within the cap. -/
def passesCap (cfg : CapsConfig) (db : CapsDb) : UploadTask → Bool
  | recordingCap u => sessionRecordingBytes db.rows + u.byteSize ≤ cfg.maxSessionBytes
  | _ => false

/-- Nothing that was not held before. -/
structure HoldsNoMore (t' t : UploadTask) : Prop where
  recording : ∀ b ∈ t'.recordingBytes?, t.recordingBytes? = some b
  key : ∀ k ∈ t'.insertedKey?, t.insertedKey? = some k
  screenshot : ∀ u ∈ t'.screenshot?, t.screenshot? = some u

/-- Neither in a transaction nor past a check. -/
structure HoldsNothing (t : UploadTask) : Prop where
  recording : t.recordingBytes? = none
  key : t.insertedKey? = none
  screenshot : t.screenshot? = none

theorem HoldsNothing.noMore {t' : UploadTask} (h : t'.HoldsNothing) (t : UploadTask) :
    t'.HoldsNoMore t := by
  constructor <;> simp [h.recording, h.key, h.screenshot]

theorem HoldsNothing.ite {c : Prop} [Decidable c] {t t' : UploadTask} (h : t.HoldsNothing)
    (h' : t'.HoldsNothing) : (if c then t else t').HoldsNothing := by
  split
  · exact h
  · exact h'

theorem holdsNothing_done : done.HoldsNothing := ⟨rfl, rfl, rfl⟩

end UploadTask

/-- What the next statement of an upload can do. -/
inductive NextOutcome (cfg : CapsConfig) (db : CapsDb) : UploadTask → CapsDb × UploadTask → Prop
  | quiet (t t' : UploadTask) (h : t'.HoldsNoMore t) : NextOutcome cfg db t (db, t')
  | capPassed (u : SegmentUpload)
    (h : sessionRecordingBytes db.rows + u.byteSize ≤ cfg.maxSessionBytes) :
    NextOutcome cfg db (.recordingCap u) (db, .insertSegment u)
  | inserted (u : SegmentUpload) (h : db.findSegment u.key = false) :
    NextOutcome cfg db (.insertSegment u) (db, .commitSegment u)
  | committed (u : SegmentUpload) :
    NextOutcome cfg db (.commitSegment u)
      ({ db with
          rows := db.rows ++ [db.newRow none .recording u.byteSize none]
          segments := db.segments ++ [⟨u.key, db.rows.length⟩] }, .recheck db.rows.length)
  | sharePassed (u : ScreenshotUpload)
    (h : sessionHasEvidenceCapacity cfg db.rows 1 u.byteSize EVENT_SCREENSHOT_SHARE) :
    NextOutcome cfg db (.screenshotShare u) (db, .countPerEvent u)
  | shot (u : ScreenshotUpload) (h : db.findEvidence u.id = none) :
    NextOutcome cfg db (.insertEvidence u)
      ({ db with
          rows := db.rows ++ [db.newRow (some u.id) .eventScreenshot u.byteSize u.eventId]
          shots := db.shots ++
            [sessionEvidenceUsage (db.rows ++ [db.newRow (some u.id) .eventScreenshot u.byteSize u.eventId])] },
        .recheck db.rows.length)
  | images (t : UploadTask) (images : List (EvidenceKind × Nat)) (ht : t.storesImage cfg db)
    (hk : ∀ i ∈ images, i.1 ≠ .recording ∧ i.1 ≠ .eventScreenshot) :
    NextOutcome cfg db t (db.storeImages images, .done)
  | purged (id : Nat) : NextOutcome cfg db (.recheck id) (db.purgeEvidenceRows [id], .done)

theorem CapsDb.next_outcome (cfg : CapsConfig) (db : CapsDb) (t : UploadTask) :
    NextOutcome cfg db t (db.next cfg t) := by
  have hdone : ∀ t, NextOutcome cfg db t (db, .done) := fun t =>
    .quiet t _ (UploadTask.holdsNothing_done.noMore t)
  have hrecheck : ∀ t id, NextOutcome cfg db t (db, .recheck id) := fun t id =>
    .quiet t _ (UploadTask.HoldsNothing.noMore ⟨rfl, rfl, rfl⟩ t)
  cases t with
  | findSegment u =>
    exact .quiet _ _ ((UploadTask.holdsNothing_done.ite (UploadTask.holdsNothing_done.ite
      ⟨rfl, rfl, rfl⟩)).noMore _)
  | recordingCap u =>
    rw [CapsDb.next]
    split
    · exact hdone _
    · exact .capPassed u (by omega)
  | insertSegment u =>
    rw [CapsDb.next]
    split
    · exact hdone _
    · rename_i h
      exact .inserted u (by simpa using h)
  | commitSegment u => exact .committed u
  | findEvidence u =>
    exact .quiet _ _ ((UploadTask.holdsNothing_done.ite (UploadTask.holdsNothing_done.ite
      ⟨rfl, rfl, rfl⟩)).noMore _)
  | countScreenshots u =>
    exact .quiet _ _ ((UploadTask.holdsNothing_done.ite ⟨rfl, rfl, rfl⟩).noMore _)
  | screenshotShare u =>
    rw [CapsDb.next]
    split
    · rename_i h
      exact .sharePassed u h
    · exact hdone _
  | countPerEvent u =>
    rw [CapsDb.next]
    split
    · exact hdone _
    · exact .quiet _ _ ⟨fun _ h => h, fun _ h => h, fun _ h => h⟩
  | lookupEvidence u =>
    rw [CapsDb.next]
    split
    · exact hrecheck _ _
    · exact .quiet _ _ ⟨fun _ h => h, fun _ h => h, fun _ h => h⟩
  | insertEvidence u =>
    rw [CapsDb.next]
    split
    · exact hrecheck _ _
    · rename_i h
      exact .shot u h
  | frameBudget u | lockCheck u | frameBudgetAgain u =>
    exact .quiet _ _ ((UploadTask.HoldsNothing.ite ⟨rfl, rfl, rfl⟩ UploadTask.holdsNothing_done).noMore _)
  | commitFrame u =>
    refine .images _ _ rfl fun i hi => ?_
    rcases List.mem_cons.mp hi with rfl | hi
    · simp
    · obtain ⟨b, -, rfl⟩ := List.mem_map.mp hi
      simp
  | sampleImages u =>
    rw [CapsDb.next]
    split
    · rename_i hcap
      by_cases hnone : u.crop.toList ++ u.jpeg.toList = []
      · rw [hnone]
        exact hdone _
      · refine .images _ _ (decide_eq_true ⟨hcap, hnone⟩) fun i hi => ?_
        obtain ⟨b, -, rfl⟩ := List.mem_map.mp hi
        simp
    · exact hdone _
  | recheck id =>
    rw [CapsDb.next]
    split
    · exact .purged id
    · exact hdone _
  | done => exact hdone _

end SmartProctoring
