import SmartProctoring.Lib.Processes
import SmartProctoring.Server.SessionActions

/-!
# The evidence of a session

What stores and deletes the images and recordings of a session: the uploads (`services/ingest.ts`,
`recordings.ts`, `checks.ts`, `identity-samples.ts`), the withdrawal of consent and the erasure of a
candidate (`privacy-requests.ts`), the retention job (`retention.ts`) and the purge of sandboxes
(`sandbox-purge.ts`).

A process takes one transaction or statement after another, and any number of processes take them in
any order.  A transaction that locks the session's row is one step; uploads that do not lock it may
insert rows while it runs, which it may count among the remaining ones (`PurgeRun.more`).
-/

set_option autoImplicit false

namespace SmartProctoring

/-! ## The rows -/

/-- The columns of `exam_sessions` that decide what may be deleted, and the retention that
applies. -/
structure EvidenceSession where
  id : Nat
  orgId : Nat
  candidateId : Nat
  status : SessionStatus
  startedAt : Option Int
  endedAt : Option Int
  endReason : Option SessionEndReason
  consentAcceptedAt : Option Int
  legalHold : Bool
  evidencePurgedAt : Option Int
  /-- `evidenceDaysFor` of the session. -/
  evidenceDays : Int
  eventDays : Int
  /-- The latest sign of activity of a session that has not ended. -/
  lastActivityAt : Int

inductive EvidencePurgeReason
  | retention | consentWithdrawn | candidateDeleted | sandbox
  deriving DecidableEq

/-- A row of `evidence`.  The rows are numbered; a number stands for the id and the storage key. -/
structure EvidenceItem where
  id : Nat
  /-- The id that the client chose (screenshots). -/
  clientId : Option Nat
  sessionId : Option Nat
  candidateId : Nat
  idPhoto : Bool
  purgedAt : Option Int
  purgeReason : Option EvidencePurgeReason
  deriving DecidableEq

structure EvidenceDb where
  sessions : Table EvidenceSession.id := Table.empty
  items : Table EvidenceItem.id := Table.empty
  /-- The rows whose blob is in storage. -/
  blobs : List Nat := []
  /-- The number of the next row. -/
  nextId : Nat := 0
  /-- The open checks, with their session. -/
  openChecks : List (Nat × Nat) := []
  /-- The organisations of kind sandbox. -/
  sandboxes : List Nat := []
  clock : Int := 0

/-- What a purge meets: the rows whose blob the storage does not delete, and whether rows inserted
while it runs are counted as remaining. -/
structure PurgeRun where
  refused : List Nat := []
  more : Bool := false

/-! ## Changes of a session under its row lock -/

inductive SessionChange
  | acceptConsent
  | setStatus (status : SessionStatus)
  | finalize (endReason : SessionEndReason) (endedAt : Int)
  | reopen (staffVerified hasReference reviewResolved : Bool)
  | setLegalHold (enabled : Bool)
  deriving DecidableEq

namespace EvidenceSession

def acceptConsent (now : Int) (s : EvidenceSession) : EvidenceSession :=
  if s.status.isTerminal then s else { s with consentAcceptedAt := some now }

/-- From one status of a session that has not ended to another. -/
def setStatus (status : SessionStatus) (s : EvidenceSession) : EvidenceSession :=
  if s.status.isTerminal ∨ status.isTerminal then s else { s with status }

def finalizeSession (endReason : SessionEndReason) (endedAt : Int) (s : EvidenceSession) :
    EvidenceSession :=
  if s.status.isTerminal then s
  else { s with status := endStatus endReason, endReason := some endReason, endedAt := some endedAt }

def reopenSession (staffVerified hasReference reviewResolved : Bool) (s : EvidenceSession) :
    EvidenceSession :=
  let eligibility := reopenEligibility {
    status := s.status, endReason := s.endReason, startedAt := s.startedAt
    evidencePurgedAt := s.evidencePurgedAt, hasReference, staffVerified, reviewResolved }
  if eligibility.isSome then s
  else
    let status := if s.startedAt.isSome then SessionStatus.onHold else .invited
    { s with endReason := none, endedAt := none, status }

def setLegalHold (enabled : Bool) (s : EvidenceSession) : EvidenceSession :=
  { s with legalHold := enabled }

def change (now : Int) : SessionChange → EvidenceSession → EvidenceSession
  | .acceptConsent => acceptConsent now
  | .setStatus status => setStatus status
  | .finalize endReason endedAt => finalizeSession endReason endedAt
  | .reopen staffVerified hasReference reviewResolved =>
    reopenSession staffVerified hasReference reviewResolved
  | .setLegalHold enabled => setLegalHold enabled

/-- The session's images are gone for good (`evidenceClosed`, `recordingClosed`). -/
def evidenceClosed (s : EvidenceSession) : Bool :=
  s.endReason = some .candidateWithdrew ∨ s.evidencePurgedAt.isSome

/-- When the evidence of a session that ended at `endedAt` is due. -/
def dueAt (s : EvidenceSession) (endedAt : Int) : Int := endedAt + s.evidenceDays * DAY_MS

/-- `lastUseSql` -/
def lastUse (s : EvidenceSession) : Int := s.endedAt.getD s.lastActivityAt

end EvidenceSession

namespace EvidenceDb

/-- A change of one session's row. -/
def updateSession (db : EvidenceDb) (sessionId : Nat) (f : EvidenceSession → EvidenceSession)
    (hf : ∀ s, (f s).id = s.id) : EvidenceDb :=
  { db with sessions := db.sessions.modify (fun s => decide (s.id = sessionId)) f hf }

end EvidenceDb

theorem EvidenceSession.change_id (now : Int) (c : SessionChange) (s : EvidenceSession) :
    (s.change now c).id = s.id := by
  cases c with
  | acceptConsent =>
    simp only [change, acceptConsent]
    split <;> rfl
  | setStatus status =>
    simp only [change, setStatus]
    split <;> rfl
  | finalize =>
    simp only [change, finalizeSession]
    split <;> rfl
  | reopen =>
    simp only [change, reopenSession]
    split <;> rfl
  | setLegalHold enabled => rfl

theorem EvidenceSession.change_keeps (now : Int) (c : SessionChange) (s : EvidenceSession) :
    (s.change now c).candidateId = s.candidateId ∧ (s.change now c).evidenceDays = s.evidenceDays ∧
      (c ≠ .setLegalHold true → (s.change now c).legalHold = true → s.legalHold = true) := by
  cases c with
  | acceptConsent =>
    simp only [change, acceptConsent]
    split <;> exact ⟨rfl, rfl, fun _ h => h⟩
  | setStatus status =>
    simp only [change, setStatus]
    split <;> exact ⟨rfl, rfl, fun _ h => h⟩
  | finalize =>
    simp only [change, finalizeSession]
    split <;> exact ⟨rfl, rfl, fun _ h => h⟩
  | reopen =>
    simp only [change, reopenSession]
    split <;> exact ⟨rfl, rfl, fun _ h => h⟩
  | setLegalHold enabled =>
    refine ⟨rfl, rfl, fun hne (henabled : enabled = true) => ?_⟩
    rw [henabled] at hne
    exact absurd rfl hne

namespace EvidenceDb

def changeSession (db : EvidenceDb) (sessionId : Nat) (c : SessionChange) : EvidenceDb :=
  db.updateSession sessionId (fun s => { s.change db.clock c with lastActivityAt := db.clock })
    (EvidenceSession.change_id db.clock c)

def markPurged (db : EvidenceDb) (sessionId : Nat) (now : Int) : EvidenceDb :=
  db.updateSession sessionId (fun s => { s with evidencePurgedAt := some now }) fun _ => rfl

/-! ## Storing and purging -/

/-- The row of an image or recording that is stored next. -/
def newItem (db : EvidenceDb) (sessionId candidateId : Nat) (clientId : Option Nat) :
    EvidenceItem where
  id := db.nextId
  clientId := clientId
  sessionId := some sessionId
  candidateId := candidateId
  idPhoto := false
  purgedAt := none
  purgeReason := none

/-- One image or recording of a session: its blob and its row. -/
def storeEvidence (db : EvidenceDb) (sessionId candidateId : Nat) (clientId : Option Nat) :
    EvidenceDb :=
  { db with
    items := db.items.insert (db.newItem sessionId candidateId clientId)
    blobs := db.nextId :: db.blobs
    nextId := db.nextId + 1 }

/-- Several images, of a check frame or a sample. -/
def storeImages (sessionId candidateId : Nat) : Nat → EvidenceDb → EvidenceDb
  | 0, db => db
  | n + 1, db => storeImages sessionId candidateId n (db.storeEvidence sessionId candidateId none)

/-- The rows whose blob `purgeEvidenceRows` deletes: not purged when they were read, and not refused
by the storage. -/
def purgeable (rows : List EvidenceItem) (run : PurgeRun) : List Nat :=
  (rows.filter fun r => decide (r.purgedAt = none ∧ r.id ∉ run.refused)).map (·.id)

/-- Purge blobs and tombstone the rows. -/
def purgeEvidenceRows (db : EvidenceDb) (rows : List EvidenceItem) (run : PurgeRun)
    (reason : EvidencePurgeReason) (now : Int) : EvidenceDb :=
  { db with
    blobs := db.blobs.filter fun b => decide (b ∉ purgeable rows run)
    items := db.items.modify (fun r => decide (r.id ∈ purgeable rows run ∧ r.purgedAt = none))
      (fun r => { r with purgedAt := some now, purgeReason := some reason }) fun _ => rfl }

/-- The rows of a session that are not purged. -/
def liveItems (db : EvidenceDb) (sessionId : Nat) : List EvidenceItem :=
  db.items.rows.filter fun r => decide (r.sessionId = some sessionId ∧ r.purgedAt = none)

def purgeSessionEvidence (db : EvidenceDb) (sessionId : Nat) (run : PurgeRun)
    (reason : EvidencePurgeReason) (now : Int) : EvidenceDb :=
  db.purgeEvidenceRows (db.liveItems sessionId) run reason now

/-- Something is left to purge. -/
def remaining (db : EvidenceDb) (sessionId : Nat) (run : PurgeRun) : Bool :=
  decide (db.liveItems sessionId ≠ []) || run.more

/-! ## The withdrawal of consent -/

/-- The transaction that ends the session; whether a legal hold keeps its evidence. -/
def withdrawConsent (db : EvidenceDb) (sessionId : Nat) : Except HttpError (EvidenceDb × Bool) :=
  match db.sessions.find? sessionId with
  | none => .error (notFound "Session not found" "session_not_found")
  | some s =>
    if s.status.isTerminal then .error (invalidState "The exam has already ended.")
    else if s.consentAcceptedAt = none then
      .error (conflict "consent_not_given" ("Consent was never given for this exam, so there is nothing to " ++
        "withdraw. You can simply close this page."))
    else .ok (db.changeSession sessionId (.finalize .candidateWithdrew db.clock), s.legalHold)

def purgeWithdrawnSessionEvidence (db : EvidenceDb) (sessionId : Nat) (run : PurgeRun) :
    EvidenceDb :=
  match db.sessions.find? sessionId with
  | none => db
  | some s =>
    if s.legalHold then db
    else
      let db := db.purgeSessionEvidence sessionId run .consentWithdrawn db.clock
      if db.remaining sessionId run ∨ s.evidencePurgedAt.isSome then db
      else db.markPurged sessionId db.clock

/-! ## Uploads -/

end EvidenceDb

inductive UploadKind
  /-- A screenshot, under the id that the client chose. -/
  | screenshot (clientId : Nat)
  | recording
  | checkFrame (checkId : Nat)
  | identitySample
  deriving DecidableEq

structure Upload where
  kind : UploadKind
  sessionId : Nat
  candidateId : Nat
  deriving DecidableEq

/-- A session of a retention batch, with its end as it was read. -/
structure DueSession where
  id : Nat
  endedAt : Int
  deriving DecidableEq

inductive ErasurePhase
  | session (id : Nat)
  | idPhoto
  | leftovers
  deriving DecidableEq

/-- The erasure of a candidate, past its checks: what it has still to purge. -/
structure Erasure where
  candidateId : Nat
  sessionIds : List Nat
  phases : List ErasurePhase
  rows : List EvidenceItem
  deriving DecidableEq

/-- How far a process has come. -/
inductive EvidenceProcess
  | idle
  /-- An upload has passed its first checks. -/
  | uploading (u : Upload)
  /-- A screenshot or segment is stored; the session is still to be looked at again. -/
  | stored (sessionId : Nat) (row : EvidenceItem)
  /-- The withdrawal has ended the session; the purge is to follow. -/
  | withdrawing (sessionId : Nat)
  | retention (now : Int) (due : List DueSession)
  | sandbox (orgId : Nat) (now cutoff : Int)
  /-- An erasure has found no open session. -/
  | erasureOpened (candidateId : Nat)
  | erasing (e : Erasure)
  deriving DecidableEq

namespace EvidenceDb

/-- The first checks of an upload, as far as they look at the session's end and its evidence; the
others only refuse more. -/
def accepts (db : EvidenceDb) (s : EvidenceSession) : UploadKind → Bool
  | .screenshot clientId =>
    !(db.items.rows.any fun r => decide (r.clientId = some clientId)) && !s.evidenceClosed
  | .recording => !s.evidenceClosed
  | .checkFrame checkId => decide ((checkId, s.id) ∈ db.openChecks)
  | .identitySample => decide (s.status ∈ [SessionStatus.active, .paused, .onHold])

def receiveUpload (db : EvidenceDb) (sessionId : Nat) (kind : UploadKind) : EvidenceProcess :=
  match db.sessions.find? sessionId with
  | none => .idle
  | some s => if db.accepts s kind then .uploading ⟨kind, sessionId, s.candidateId⟩ else .idle

/-- The storing transaction of an upload.  A check frame comes with a face `crop` if there is one;
of a sample, `late` if it was captured before the exam stopped, the images that are kept are
stored. -/
def storeUpload (db : EvidenceDb) (u : Upload) (frame crop late : Bool) :
    EvidenceDb × EvidenceProcess :=
  match u.kind with
  | .screenshot clientId =>
    match db.items.rows.find? fun r => decide (r.clientId = some clientId) with
    | some row => (db, .stored u.sessionId row)
    | none =>
      (db.storeEvidence u.sessionId u.candidateId (some clientId),
        .stored u.sessionId (db.newItem u.sessionId u.candidateId (some clientId)))
  | .recording =>
    (db.storeEvidence u.sessionId u.candidateId none,
      .stored u.sessionId (db.newItem u.sessionId u.candidateId none))
  | .checkFrame checkId =>
    -- the check's row is locked, the session's is not
    if (checkId, u.sessionId) ∈ db.openChecks then
      (storeImages u.sessionId u.candidateId (1 + crop.toNat) db, .idle)
    else (db, .idle)
  | .identitySample =>
    match db.sessions.find? u.sessionId with
    | none => (db, .idle)
    | some s =>
      if s.status = .active ∨ (late = true ∧ s.status ∈ [SessionStatus.paused, .onHold]) then
        (storeImages u.sessionId u.candidateId (frame.toNat + crop.toNat) db, .idle)
      else (db, .idle)

/-- A stored screenshot or segment is deleted again if the session's evidence is closed by now. -/
def recheckUpload (db : EvidenceDb) (sessionId : Nat) (row : EvidenceItem) (run : PurgeRun) :
    EvidenceDb :=
  match db.sessions.find? sessionId with
  | none => db
  | some s =>
    if s.evidenceClosed then
      let reason := if s.endReason = some .candidateWithdrew
        then EvidencePurgeReason.consentWithdrawn else .retention
      db.purgeEvidenceRows [row] run reason db.clock
    else db

/-! ## Retention -/

/-- A batch of the sessions whose evidence is due; `ids` are those the query's filter and limit
leave. -/
def selectDue (db : EvidenceDb) (now : Int) (ids : List Nat) : List DueSession :=
  db.sessions.rows.filterMap fun s =>
    match s.endedAt with
    | none => none
    | some endedAt =>
      if s.id ∈ ids ∧ s.evidencePurgedAt = none ∧ s.legalHold = false ∧ s.dueAt endedAt ≤ now then
        some ⟨s.id, endedAt⟩
      else none

/-- Purge one session's evidence under its row lock. -/
def purgeSessionEvidenceNow (db : EvidenceDb) (sessionId : Nat) (now : Int) (run : PurgeRun) :
    EvidenceDb :=
  match db.sessions.find? sessionId with
  | none => db
  | some s =>
    if s.endedAt = none ∨ s.legalHold ∨ s.evidencePurgedAt.isSome then db
    else
      let db := db.purgeSessionEvidence sessionId run .retention now
      if db.remaining sessionId run then db else db.markPurged sessionId now

/-- Delete the tombstones of a session's evidence, with its event metadata. -/
def purgeEventMetadataNow (db : EvidenceDb) (sessionId : Nat) (now : Int) : EvidenceDb :=
  match db.sessions.find? sessionId with
  | none => db
  | some s =>
    match s.endedAt with
    | none => db
    | some endedAt =>
      if s.legalHold ∨ s.evidencePurgedAt = none ∨ now < endedAt + s.eventDays * DAY_MS ∨
          db.liveItems sessionId ≠ [] then db
      else
        { db with items := db.items.filter fun r =>
            decide (¬ (r.sessionId = some sessionId ∧ r.purgedAt.isSome)) }

/-! ## The purge of sandboxes -/

def deleteSession (db : EvidenceDb) (orgId sessionId : Nat) (cutoff now : Int) (run : PurgeRun) :
    EvidenceDb :=
  if orgId ∉ db.sandboxes then db
  else
    match db.sessions.find? sessionId with
    | none => db
    | some s =>
      if s.orgId ≠ orgId ∨ s.legalHold ∨ cutoff < s.lastUse then db
      else
        let db := db.purgeSessionEvidence sessionId run .sandbox now
        if db.remaining sessionId run then db
        else
          { db with
            items := db.items.filter fun r => decide (r.sessionId ≠ some sessionId)
            sessions := db.sessions.filter fun s => decide (s.id ≠ sessionId) }

/-- The rows of a candidate that are not purged. -/
def candidateItems (db : EvidenceDb) (candidateId : Nat) : List EvidenceItem :=
  db.items.rows.filter fun r => decide (r.candidateId = candidateId ∧ r.purgedAt = none)

/-- `quiet`: the candidate is there, and not used since the cutoff. -/
def deleteCandidate (db : EvidenceDb) (orgId candidateId : Nat) (quiet : Bool) (now : Int)
    (run : PurgeRun) : EvidenceDb :=
  if orgId ∉ db.sandboxes ∨ quiet = false then db
  else if db.sessions.rows.any fun s => decide (s.candidateId = candidateId) then db
  else
    let db := db.purgeEvidenceRows (db.candidateItems candidateId) run .sandbox now
    if db.candidateItems candidateId ≠ [] then db
    else { db with items := db.items.filter fun r => decide (r.candidateId ≠ candidateId) }

/-! ## The erasure of a candidate -/

/-- No session of the candidate is still open. -/
def openErasure (db : EvidenceDb) (candidateId : Nat) : Except HttpError Unit :=
  if db.sessions.rows.any fun s => decide (s.candidateId = candidateId ∧ ¬ s.status.isTerminal) then
    .error (conflict "candidate_has_open_sessions"
      ("This candidate has an exam session that has not ended. " ++
      "Submit or terminate it before deleting the candidate."))
  else .ok ()

/-- None is under legal hold either: the erasure begins. -/
def beginErasure (db : EvidenceDb) (candidateId : Nat) : Except HttpError Erasure :=
  let sessions := db.sessions.rows.filter fun s => decide (s.candidateId = candidateId)
  if sessions.any (·.legalHold) then
    .error (conflict "candidate_under_legal_hold"
      ("A session of this candidate is under legal hold, so its " ++
      "evidence must be kept. Lift the legal hold before deleting the candidate."))
  else
    let sessionIds := sessions.map (·.id)
    .ok {
      candidateId, sessionIds, rows := []
      phases := sessionIds.map ErasurePhase.session ++ [.idPhoto, .leftovers] }

/-- The rows that a phase of the erasure reads. -/
def erasureRows (db : EvidenceDb) (candidateId : Nat) : ErasurePhase → List EvidenceItem
  | .session id => db.liveItems id
  | .idPhoto => (db.candidateItems candidateId).filter fun r => r.idPhoto && r.sessionId.isNone
  | .leftovers => db.candidateItems candidateId

/-- Delete the records; the sessions go with the candidate. -/
def finishErasure (db : EvidenceDb) (e : Erasure) : EvidenceDb :=
  { db with
    items := db.items.filter fun r =>
      decide (¬ (r.candidateId = e.candidateId ∨ ∃ id ∈ e.sessionIds, r.sessionId = some id))
    sessions := db.sessions.filter fun s => decide (s.candidateId ≠ e.candidateId) }

/-- The next statement of an erasure: one row, the rows of the next phase, or the records. -/
def erasureStep (db : EvidenceDb) (e : Erasure) (run : PurgeRun) : EvidenceDb × EvidenceProcess :=
  match e.rows, e.phases with
  | row :: rows, _ =>
    (db.purgeEvidenceRows [row] run .candidateDeleted db.clock, .erasing { e with rows })
  | [], phase :: phases =>
    let rows := db.erasureRows e.candidateId phase
    (db, .erasing { e with rows, phases })
  | [], [] => (db.finishErasure e, .idle)

end EvidenceDb

/-! ## The system -/

/-- What a process may begin. -/
inductive EvidenceTask
  | upload (sessionId : Nat) (kind : UploadKind)
  | withdraw (sessionId : Nat)
  | retention
  | sandboxPurge (orgId : Nat) (days : Int)
  | erase (candidateId : Nat)

/-- How a process goes on. -/
inductive EvidenceMove
  | store (frame crop late : Bool)
  | recheck (run : PurgeRun)
  | purge (run : PurgeRun)
  | select (ids : List Nat)
  | purgeMetadata (sessionId : Nat)
  | deleteSession (sessionId : Nat) (run : PurgeRun)
  | deleteCandidate (candidateId : Nat) (quiet : Bool) (run : PurgeRun)
  | beginErasure
  | finish

/-- The second look of an upload at its session. -/
def EvidenceMove.isRecheck : EvidenceMove → Bool
  | .recheck _ => true
  | _ => false

inductive EvidenceInput (ι : Type)
  | tick (d : Nat)
  | session (sessionId : Nat) (c : SessionChange)
  | openCheck (checkId sessionId : Nat)
  | closeCheck (checkId : Nat)
  | start (i : ι) (task : EvidenceTask)
  | next (i : ι) (mv : EvidenceMove)

def EvidenceInput.isRecheck {ι : Type} : EvidenceInput ι → Bool
  | .next _ mv => mv.isRecheck
  | _ => false

namespace EvidenceDb

/-- A process begins a task. -/
def startTask (db : EvidenceDb) : EvidenceTask → EvidenceDb × EvidenceProcess
  | .upload sessionId kind => (db, db.receiveUpload sessionId kind)
  | .withdraw sessionId =>
    match db.withdrawConsent sessionId with
    | .error _ => (db, .idle)
    | .ok (db, legalHold) => (db, if legalHold then .idle else .withdrawing sessionId)
  | .retention => (db, .retention db.clock [])
  | .sandboxPurge orgId days => (db, .sandbox orgId db.clock (db.clock - days * DAY_MS))
  | .erase candidateId =>
    match db.openErasure candidateId with
    | .error _ => (db, .idle)
    | .ok _ => (db, .erasureOpened candidateId)

/-- The next transaction of a process; one that it is not at changes nothing. -/
def nextMove (db : EvidenceDb) : EvidenceMove → EvidenceProcess → EvidenceDb × EvidenceProcess
  | .store frame crop late, .uploading u => db.storeUpload u frame crop late
  | .recheck run, .stored sessionId row => (db.recheckUpload sessionId row run, .idle)
  | .purge run, .withdrawing sessionId => (db.purgeWithdrawnSessionEvidence sessionId run, .idle)
  | .purge run, .retention now (d :: due) =>
    (db.purgeSessionEvidenceNow d.id now run, .retention now due)
  | .purge run, .erasing e => db.erasureStep e run
  | .select ids, .retention now [] => (db, .retention now (db.selectDue now ids))
  | .purgeMetadata sessionId, .retention now [] =>
    (db.purgeEventMetadataNow sessionId now, .retention now [])
  | .deleteSession sessionId run, .sandbox orgId now cutoff =>
    (db.deleteSession orgId sessionId cutoff now run, .sandbox orgId now cutoff)
  | .deleteCandidate candidateId quiet run, .sandbox orgId now cutoff =>
    (db.deleteCandidate orgId candidateId quiet now run, .sandbox orgId now cutoff)
  | .beginErasure, .erasureOpened candidateId =>
    match db.beginErasure candidateId with
    | .error _ => (db, .idle)
    | .ok e => (db, .erasing e)
  | .finish, .uploading _ => (db, .idle)
  | .finish, .retention _ [] => (db, .idle)
  | .finish, .sandbox _ _ _ => (db, .idle)
  | _, p => (db, p)

end EvidenceDb

/-- Processes over one database. -/
abbrev EvidenceServer (ι : Type) := Processes EvidenceDb ι EvidenceProcess

variable {ι : Type} [DecidableEq ι]

/-- What an input does. -/
def evidenceStep : EvidenceInput ι → EvidenceServer ι → EvidenceServer ι
  | .tick d, s => s.setShared { s.shared with clock := s.shared.clock + d }
  | .session sessionId c, s => s.setShared (s.shared.changeSession sessionId c)
  | .openCheck checkId sessionId, s =>
    s.setShared { s.shared with openChecks := (checkId, sessionId) :: s.shared.openChecks }
  | .closeCheck checkId, s =>
    s.setShared { s.shared with
      openChecks := s.shared.openChecks.filter fun c => decide (c.1 ≠ checkId) }
  | .start i task, s => s.move i (s.shared.startTask task)
  | .next i mv, s => s.move i (s.shared.nextMove mv (s.loc i))

/-- A check is opened while the exam has not ended; an exam does not end in the future, and consent
is withdrawn by a process. -/
def evidenceEnabled : EvidenceInput ι → EvidenceServer ι → Prop
  | .session _ (.finalize endReason endedAt), s =>
    endReason ≠ .candidateWithdrew ∧ endedAt ≤ s.shared.clock
  | .openCheck checkId sessionId, s =>
    (∃ x ∈ s.shared.sessions.rows, x.id = sessionId ∧ ¬ x.status.isTerminal) ∧
      ∀ c ∈ s.shared.openChecks, c.1 ≠ checkId
  | .start i _, s => s.loc i = .idle
  | _, _ => True

instance (i : EvidenceInput ι) (s : EvidenceServer ι) : Decidable (evidenceEnabled i s) := by
  unfold evidenceEnabled
  split <;> infer_instance

/-- The rows when no process runs: the numbers of evidence are below the next one, and its session,
if it is there, is one of its candidate. -/
structure EvidenceDb.WellFormed (db : EvidenceDb) : Prop where
  below : ∀ r ∈ db.items.rows, r.id < db.nextId
  candidate : ∀ r ∈ db.items.rows, ∀ x ∈ db.sessions.rows, r.sessionId = some x.id →
    r.candidateId = x.candidateId

/-- The system; it begins with no process running. -/
def evidenceSystem (ι : Type) [DecidableEq ι] : Machine (EvidenceServer ι) (EvidenceInput ι) where
  init s := s.shared.WellFormed ∧ ∀ i, s.loc i = .idle
  step := evidenceStep
  enabled := evidenceEnabled

end SmartProctoring
