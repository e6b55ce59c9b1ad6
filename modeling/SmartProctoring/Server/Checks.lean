import SmartProctoring.Server.SessionActions

/-!
# Camera and identity checks

`services/checks.ts`: starting a check, completing it (judged on its frames, or attested by staff),
and settling checks that were abandoned.  What the frames show is judged outside the session lock;
here it is an input, the `CheckJudgement`, together with the rules read before the lock.

* `startCheck` is the locked part of starting a check; the two transactions before it
  (`enforceReconnectLimits`, `settleAbandonedChecks`) are operations of their own.
* `completeCheck` applies the judgement: `applyInitial` establishes the reference and makes the
  session ready, `applyContinuation` lets the exam continue, asks for a retry, or holds it.
* `closeGapPeriods` is where the timeline is corrected after the fact: the period that preceded the
  check ends when the browser was last seen, or when the check began.
-/

set_option autoImplicit false

namespace SmartProctoring

/-! ## Scheduling windows (`services/scheduling.ts`) -/

inductive WindowAction
  | checkIn | start
  deriving DecidableEq

/-- Refuses (409) unless the window allows the action now; `requestedAt` is when the candidate first
asked, for a start the server itself held back. -/
def assertWindowAllows (s : ExamSession) (action : WindowAction) (now requestedAt : Int) :
    Except HttpError Unit :=
  match sessionWindow s with
  | none => .ok ()
  | some w =>
    if windowPhase w (min now requestedAt) = .closed then
      .error (conflict "exam_window_closed"
        ("The time for starting this exam has passed. Contact your exam administrator if you still " ++
         "need to take it."))
    else if windowPhase w now = .beforeCheckIn ∨
        (action = .start ∧ windowPhase w now = .checkIn) then
      .error (conflict "exam_window_not_open"
        ("This exam is not open yet. Please come back at the time shown on this page, using the same " ++
         "link."))
    else .ok ()

/-! ## The attempt budget -/

/-- How long a started check stays open for frames. -/
def CHECK_TTL_MS : Int := 3 * 60000

/-- Failed attempts since the last reset, in half attempts: a retry caused by image quality alone
counts one (`QUALITY_RETRY_WEIGHT`), any other counts two. -/
def failedHalfAttempts (m : SessionMutation) (purpose : CheckPurpose)
    (excludeCheckId : Option Nat := none) : Nat :=
  let since := m.session.checkAttemptsResetAt.getD 0
  let rows := m.checks.filter fun c =>
    c.purpose == purpose && c.status == .retry && decide (since ≤ c.issuedAt) &&
      some c.id != excludeCheckId
  (rows.map fun c => if c.qualityOnly then 1 else 2).sum

/-- When the first attempt since the last reset was issued. -/
def firstAttemptAt (m : SessionMutation) (check : Check) : Int :=
  let since := m.session.checkAttemptsResetAt.getD 0
  let rows := m.checks.filter fun c => c.purpose == check.purpose && decide (since ≤ c.issuedAt)
  ((rows.map (·.issuedAt)).min?).getD check.issuedAt

/-! ## Starting a check -/

def SessionMutation.mapChecks (m : SessionMutation) (f : Check → Check) : SessionMutation :=
  { m with checks := m.checks.map f }

/-- A check that ends without a result. -/
def Check.expire (c : Check) (now : Int) : Check :=
  { c with status := .expired, completedAt := some now }

/-- Whether two device records refer to different cameras: the label is authoritative when both
sides have one. -/
def cameraDiffers (a b : DeviceInfo) : Bool :=
  match a.cameraLabel, b.cameraLabel with
  | some la, some lb => la != lb
  | _, _ =>
    match a.cameraIdHash, b.cameraIdHash with
    | some ha, some hb => ha != hb
    | _, _ => false

/-- Record a `multiple_instances` observation, once per superseded instance. -/
def recordMultipleInstances (m : SessionMutation) (previousInstanceId newInstanceId : InstanceId)
    (purpose : Option CheckPurpose := none) : SessionMutation :=
  if m.events.rows.any fun e =>
      e.type == .multipleInstances && e.details.previousInstanceId == some previousInstanceId then m
  else
    m.addEvent
      { type := .multipleInstances
        details :=
          { previousInstanceId := some previousInstanceId
            newInstanceId := some newInstanceId
            purpose } }

structure StartCheckRequest where
  purpose : CheckPurpose
  device : DeviceInfo := {}
  /-- `config.sessionLimits.maxChecksPerHour`. -/
  maxChecksPerHour : Nat := 60

/-- The other live browser instance this check supersedes, if any. -/
def otherInstance (s : ExamSession) (instanceId : InstanceId) : Option InstanceId :=
  s.lastHeartbeatInstanceId.filter fun i => decide (i ≠ instanceId)

/-- Another browser instance sent a heartbeat within the timeout. -/
def otherLive (s : ExamSession) (instanceId : InstanceId) (timeoutMs now : Int) : Bool :=
  (otherInstance s instanceId).isSome &&
    s.lastHeartbeatAt.any (fun t => decide (now - t ≤ timeoutMs)) &&
    decide (s.status ∈ [SessionStatus.ready, .active, .paused, .onHold])

/-- A different device or camera than the superseded instance's last record. -/
def differentDevice (m : SessionMutation) (other : InstanceId) (device : DeviceInfo) : Bool :=
  match (m.deviceRecords.filter fun d => d.clientInstanceId == other).getLast? with
  | none => true
  | some prev => prev.device.userAgent != device.userAgent || cameraDiffers prev.device device

/-- The browsers told that they were superseded: the one in control and the last one heard from. -/
def supersededTargets (s : ExamSession) (instanceId : InstanceId) : List InstanceId :=
  let active := s.activeInstanceId.filter fun i => decide (i ≠ instanceId)
  match active, otherInstance s instanceId with
  | some a, some o => if a = o then [a] else [a, o]
  | some a, none => [a]
  | none, o => o.toList

/-- Another live browser instance, on another device: record it. -/
def noteOtherInstance (m : SessionMutation) (instanceId : InstanceId) (device : DeviceInfo)
    (purpose : CheckPurpose) : SessionMutation :=
  match otherInstance m.session instanceId with
  | some other =>
    if otherLive m.session instanceId m.policy.connection.heartbeatTimeoutSec.secMs m.now ∧
        differentDevice m other device then
      recordMultipleInstances m other instanceId (some purpose)
    else m
  | none => m

/-- Tell the other browser windows that this one takes over. -/
def supersedeOthers (m : SessionMutation) (instanceId : InstanceId) : SessionMutation :=
  let m := (supersededTargets m.session instanceId).foldl
    (fun m target => m.enqueueCommand (.superseded SUPERSEDED_MESSAGE) (some target)) m
  m.set fun s => { s with activeInstanceId := some instanceId }

/-- The check issued now. -/
def newCheck (m : SessionMutation) (instanceId : InstanceId) (device : DeviceInfo)
    (purpose : CheckPurpose) : Check where
  id := m.nextId
  purpose
  mode := if m.policy.identity.verification = .staff then .attest else .face
  clientInstanceId := instanceId
  device
  issuedAt := m.now
  expiresAt := m.now + CHECK_TTL_MS

def issueCheck (m : SessionMutation) (check : Check) : SessionMutation :=
  { m with
    checks := m.checks ++ [check]
    deviceRecords := m.deviceRecords ++ [⟨m.now, check.clientInstanceId, check.device⟩]
    nextId := m.nextId + 1 }

/-- The check is started: it takes the place of any other, and its browser takes control. -/
def beginCheck (m : SessionMutation) (instanceId : InstanceId) (device : DeviceInfo)
    (purpose : CheckPurpose) : SessionMutation :=
  -- expire any other open check of this session
  let m := m.mapChecks fun c => if c.status = .open then c.expire m.now else c
  let m := noteOtherInstance m instanceId device purpose
  let m := supersedeOthers m instanceId
  let m := issueCheck m (newCheck m instanceId device purpose)
  if purpose = .initial ∧ m.openPeriodRow.isNone then
    m.insertPeriod .checkIn m.now none .initialCheck
  else m

def startCheck (m : SessionMutation) (instanceId : InstanceId) (body : StartCheckRequest) :
    Except HttpError SessionMutation := do
  let s := m.session
  let some required := requiredCheckFor s instanceId
    | if s.status = .invited ∧ s.consentAcceptedAt.isNone then
        throw (conflict "consent_required" "Please read and accept the privacy notice first.")
      else throw (invalidState "No check is needed right now")
  if body.purpose ≠ required then
    throw (conflict "wrong_check_purpose" "A different check is required")
  if required = .initial then assertWindowAllows s .checkIn m.now m.now
  let policy := m.policy
  if 2 * policy.identity.maxVerificationAttempts.val ≤ failedHalfAttempts m required then
    throw (conflict "attempts_exhausted"
      "No verification attempts remain; an administrator will review your exam.")
  if body.maxChecksPerHour ≤
      (m.checks.filter fun c => decide (m.now - 3600000 ≤ c.issuedAt)).length then
    throw ⟨429, "too_many_checks", "Too many camera checks were started for this exam in the last " ++
      "hour. Please wait a few minutes before trying again, or contact your exam administrator."⟩
  return beginCheck m instanceId body.device required

/-! ## Closing the gap that preceded a check -/

/-- Start of the unobserved gap a reconnect check closes: the last verified heartbeat of the
previous browser. -/
def reconnectGapStart (s : ExamSession) (check : Check) : Int :=
  min (s.lastVerifiedHeartbeatAt.getD check.issuedAt) check.issuedAt

/-- Episodes a replaced browser instance reported and left open end where its observation ended.
Server-owned events are not touched. -/
def closeReplacedInstanceEvents (m : SessionMutation) (newInstanceId : InstanceId) (atMs : Int) :
    SessionMutation :=
  m.closeEvents (fun e => e.fromClient && e.clientInstanceId != some newInstanceId) atMs fun d =>
    { d with closedBy := some .instanceReplaced, replacedByInstanceId := some newInstanceId }

/-- The period before a check ends: an active one that a reconnect check interrupts ends when the
previous browser was last seen, and is followed by a `disconnected` one; any other ends when the
check began. -/
def closePrecedingPeriod (m : SessionMutation) (check : Check) (instanceId : InstanceId)
    (gapStart : Int) : SessionMutation :=
  match m.openPeriodRow with
  | none => m
  | some p =>
    if check.purpose = .reconnect ∧ p.kind = .active then
      let m := m.closeOpenPeriod gapStart
      if gapStart < check.issuedAt then
        m.insertPeriod .disconnected gapStart (some check.issuedAt) .browserReconnected
          { newInstanceId := some instanceId }
      else m
    else m.closeOpenPeriod (max p.startedAt check.issuedAt)

/-- The browser is back: a reporting outage ends here. -/
def endReportingOutage (m : SessionMutation) : SessionMutation :=
  let m := match m.session.reportingEventId with
    | some id => m.closeEvent id m.now .reconnected
    | none => m
  m.set fun s => { s with reportingEventId := none, reportingInterruptedSince := none }

/-- Close the unobserved/active period that preceded the check and insert the (observed)
`resume_check` period. -/
def closeGapPeriods (m : SessionMutation) (check : Check) (instanceId : InstanceId)
    (gapStart : Int) : SessionMutation :=
  let m := if check.purpose = .reconnect then
    closeReplacedInstanceEvents m instanceId gapStart else m
  let m := closePrecedingPeriod m check instanceId gapStart
  let m := m.insertPeriod .resumeCheck check.issuedAt (some m.now) (.check check.purpose)
    { checkId := some check.id }
  endReportingOutage m

/-- When the pause a resume check ends began. -/
def pauseStart (m : SessionMutation) : Option Int :=
  match m.openPeriodRow with
  | some p => if m.session.status = .paused ∧ p.kind = .paused then some p.startedAt else none
  | none => none

/-- The pause was longer than the exam rules allow. -/
def pauseTooLong (policy : ProctoringPolicy) (purpose : CheckPurpose) (checkStart : Int)
    (pauseStart : Option Int) : Bool :=
  purpose == .resume && pauseStart.any fun start =>
    policy.pause.maxPauseDurationSec.any fun max => decide ((max : Int) * 1000 < checkStart - start)

/-- A passed check with the gap closed: the exam continues (or, after a hold from the ready screen,
the session is ready again). -/
def resumeAfterCheck (m : SessionMutation) (purpose : CheckPurpose) : SessionMutation :=
  let next :=
    if m.session.status = .onHold ∧ m.session.holdPrevStatus = some .ready then SessionStatus.ready
    else .active
  let m := m.set fun s =>
    { (if s.status = .onHold then clearedHold s else s) with status := next }
  if next = .active then
    let m := continueActive m (.check purpose)
    if purpose = .resume then m.addEvent { type := .sessionResumed } else m
  else m

/-! ## Outcomes -/

inductive CheckOutcome
  | passed | retry (qualityOnly : Bool) | held

inductive IdentityDecision
  | match | mismatch | inconclusive | unableToVerify
  deriving DecidableEq

/-- The gallery built from a check's frames: usable, or not (with too few usable frames, or with
frames that disagree). -/
inductive GalleryResult
  | ok | failed (tooFew : Bool)
  deriving DecidableEq

/-- How the frames compare with the active reference. -/
structure ContinuationIdentity where
  decision : IdentityDecision
  qualityOnly : Bool := false

/-- The comparison with the approved ID photo; `lowOnPoor` is a very low score on poor frames. -/
structure IdPhotoResult where
  decision : IdentityDecision
  lowOnPoor : Bool := false

/-- What `completeCheck` prepares outside the session lock. -/
structure CheckJudgement where
  policy : ProctoringPolicy
  livenessOk : Bool := true
  /-- Built for an initial check and for an authorised re-enrolment. -/
  reference : Option GalleryResult := none
  /-- `none` without an active reference. -/
  aggregate : Option ContinuationIdentity := none
  /-- An external second opinion on an enrolment. -/
  second : Option IdentityDecision := none
  idPhoto : Option IdPhotoResult := none
  cameraChanged : Bool := false
  lightingChanged : Bool := false

/-- No attempts are left; a replaced browser stopped observing when the gap began. -/
def noteUnverifiable (m : SessionMutation) (check : Check) (instanceId : InstanceId)
    (startedAt : Int) : SessionMutation :=
  let m := m.addEvent
    { type := .identityUnverifiable
      source := some .serverIdentity
      startedAt := some startedAt
      endedAt := some m.now }
  if check.purpose = .reconnect then
    closeReplacedInstanceEvents m instanceId (reconnectGapStart m.session check) else m

/-- Retry or, once attempts are exhausted, hold for human review as `identity_unverifiable`. -/
def retryOrHold (m : SessionMutation) (j : CheckJudgement) (check : Check) (instanceId : InstanceId)
    (qualityOnly : Bool := false) : Except HttpError (SessionMutation × CheckOutcome) := do
  let used := failedHalfAttempts m check.purpose (some check.id) + (if qualityOnly then 1 else 2)
  if 2 * j.policy.identity.maxVerificationAttempts.val ≤ used then
    let m := noteUnverifiable m check instanceId (firstAttemptAt m check)
    let m ← holdNow m { reason := .identityUnverifiable, purpose := some check.purpose }
    let m := if check.purpose ≠ .initial then
      m.set fun s => { s with verifiedInstanceId := some instanceId } else m
    return (m, .held)
  else return (m, .retry qualityOnly)

/-! ## The initial check -/

/-- A new protected reference supersedes the active one. -/
def establishReference (m : SessionMutation) (check : Check) (authorizedBy : Option StaffId) :
    SessionMutation :=
  let maxVersion := (m.references.map (·.version)).foldl max 0
  { m with
    references :=
      (m.references.map fun r => { r with active := false }) ++
        [{ version := maxVersion + 1, checkId := check.id, authorizedBy }] }

/-- The ID-photo comparison of an initial check: recorded, and a hold under policy `required`. -/
def applyIdPhoto (m : SessionMutation) (j : CheckJudgement) :
    Except HttpError (SessionMutation × CheckOutcome) := do
  match j.idPhoto with
  | none => return (m, .passed)
  | some photo =>
    let m := m.addEvent { type := .idPhotoCompared, source := some .serverIdentity }
    let m := if photo.lowOnPoor then
      m.addEvent { type := .identityUnverifiable, source := some .serverIdentity } else m
    let m := if photo.decision = .mismatch then
      m.addEvent { type := .identityMismatch, source := some .serverIdentity } else m
    if j.policy.identity.idPhotoComparison = .required ∧ photo.decision ≠ .match then
      let reason :=
        if photo.decision = .mismatch then HoldReason.idPhotoMismatch else .idPhotoUnverifiable
      let m ← holdNow m { reason }
      return (m, .held)
    else return (m, .passed)

/-- Close check-in: the session is ready. -/
def completeCheckIn (m : SessionMutation) : SessionMutation :=
  (m.closeOpenPeriod m.now).set fun s => { s with status := .ready }

/-- The reference is established and the check-in complete. -/
def passInitial (m : SessionMutation) (check : Check) (instanceId : InstanceId) :
    SessionMutation :=
  let m := establishReference m check none
  let m := m.addEvent { type := .checkinCompleted }
  let m := m.addEvent { type := .referenceCreated, source := some .serverIdentity }
  let m := m.set fun s =>
    { s with
      verifiedInstanceId := some instanceId
      checkAttemptsResetAt := some m.now
      identityState := { s.identityState with lastMatchAt := some m.now } }
  completeCheckIn m

def applyInitial (m : SessionMutation) (j : CheckJudgement) (check : Check)
    (instanceId : InstanceId) : Except HttpError (SessionMutation × CheckOutcome) := do
  if !j.livenessOk then retryOrHold m j check instanceId
  else
    match j.reference with
    | none => retryOrHold m j check instanceId true
    | some (.failed tooFew) => retryOrHold m j check instanceId tooFew
    | some .ok =>
      if j.second.any fun d => decide (d ≠ .match) then retryOrHold m j check instanceId
      else applyIdPhoto (passInitial m check instanceId) j

/-! ## Resume, reconnect and reverify checks -/

/-- A staff re-enrolment authorisation applies only to the reverify check of the hold it was given
for. -/
def reEnrollmentApplies (s : ExamSession) (purpose : CheckPurpose) : Bool :=
  purpose == .reverify && s.status == .onHold && s.holdCanReverify && s.reEnrollAuthorized

/-- The browser that passed a check is the verified one from now on, and has just been heard
from. -/
def verifyInstance (m : SessionMutation) (instanceId : InstanceId) : SessionMutation :=
  m.set fun s =>
    { s with
      verifiedInstanceId := some instanceId
      checkAttemptsResetAt := some m.now
      lastVerifiedHeartbeatAt := some m.now
      lastHeartbeatAt := some m.now
      lastHeartbeatInstanceId := some instanceId
      connection := .online }

/-- The exam reopened in a new browser window during the exam. -/
def countReconnect (m : SessionMutation) (purpose : CheckPurpose) : SessionMutation :=
  if purpose = .reconnect ∧ m.session.status = .active then
    m.set fun s => { s with reconnectCount := s.reconnectCount + 1 }
  else m

/-- A pause that was longer than allowed: the exam is put back in progress and held. -/
def holdForPauseLimit (m : SessionMutation) : Except HttpError SessionMutation :=
  holdNow (m.set fun s => { s with status := .active }) { reason := .pauseLimit }

/-- What applying a judgement reads off the session before it changes anything: since when the gap
before the check was unobserved, and when the pause it ends began. -/
structure GapTimes where
  gapStart : Int
  pauseStart : Option Int

def gapTimes (m : SessionMutation) (check : Check) : GapTimes where
  gapStart := reconnectGapStart m.session check
  pauseStart := pauseStart m

/-- An open observation that the candidate could not be verified ends with a match. -/
def endUnverifiable (m : SessionMutation) : SessionMutation :=
  match m.session.identityState.openUnverifiableEventId with
  | some id => m.closeEvent id m.now .identityMatch
  | none => m

/-- What a passed check records; a mismatch that is only flagged is no match. -/
def notePass (m : SessionMutation) (flagged : Bool) : SessionMutation :=
  let m := endUnverifiable m
  let m := m.setIdentityState
    { m.session.identityState with
      openUnverifiableEventId := none
      lastMatchAt := if flagged then m.session.identityState.lastMatchAt else some m.now }
  if flagged then m
  else m.addEvent { type := .identityVerified, source := some .serverIdentity }

def continueAfterPass (m : SessionMutation) (j : CheckJudgement) (check : Check)
    (instanceId : InstanceId) (t : GapTimes) (flagged : Bool := false) :
    Except HttpError (SessionMutation × CheckOutcome) := do
  let m := verifyInstance (notePass m flagged) instanceId
  -- reconnect before the exam started (a page reload): nothing else changes
  if m.session.status = .ready then return (m, .passed)
  let m := countReconnect m check.purpose
  let m := closeGapPeriods m check instanceId t.gapStart
  if pauseTooLong j.policy check.purpose check.issuedAt t.pauseStart then
    return (← holdForPauseLimit m, .held)
  return (resumeAfterCheck m check.purpose, .passed)

/-- A check that found a different person, under policy `hold_for_review`: the gap is closed and the
exam held.  The person staff will review is at this browser. -/
def holdForMismatch (m : SessionMutation) (check : Check) (instanceId : InstanceId) (t : GapTimes) :
    Except HttpError (SessionMutation × CheckOutcome) := do
  let m := closeGapPeriods m check instanceId t.gapStart
  let m ← holdNow m
    { reason := .identityMismatch, source := .serverIdentity, purpose := some check.purpose }
  return (m.set fun s => { s with verifiedInstanceId := some instanceId }, .held)

/-- The observation that the person at the check did not match the reference. -/
def recordReferenceMismatch (m : SessionMutation) (startedAt : Option Int := none) :
    SessionMutation :=
  m.addEvent { type := .identityMismatch, source := some .serverIdentity, startedAt }

/-- A resume, reconnect or reverify check whose live-person challenge failed.  It must not hide
frames that clearly show a different person. -/
def applyFailedLiveness (m : SessionMutation) (j : CheckJudgement) (check : Check)
    (instanceId : InstanceId) (reEnroll : Bool) (t : GapTimes) :
    Except HttpError (SessionMutation × CheckOutcome) := do
  if (j.aggregate.any fun a => a.decision == .mismatch) && !reEnroll then
    let m := recordReferenceMismatch m
    if j.policy.identity.onMismatch = .holdForReview then holdForMismatch m check instanceId t
    else retryOrHold m j check instanceId
  else retryOrHold m j check instanceId

/-- Staff-authorised re-enrolment: a new reference, the old one kept and superseded. -/
def applyReEnrolment (m : SessionMutation) (j : CheckJudgement) (check : Check)
    (instanceId : InstanceId) (t : GapTimes) (ref : GalleryResult) :
    Except HttpError (SessionMutation × CheckOutcome) := do
  match ref with
  | .failed tooFew => retryOrHold m j check instanceId tooFew
  | .ok =>
    let m := if j.aggregate.any fun a => a.decision == .mismatch then
      recordReferenceMismatch m (some check.issuedAt) else m
    let m := establishReference m check m.session.reEnrollAuthorizedBy
    let m := m.addEvent { type := .referenceCreated, source := some .serverIdentity }
    let m := m.set fun s => { s with reEnrollAuthorized := false, reEnrollAuthorizedBy := none }
    continueAfterPass m j check instanceId t

/-- The observations about the candidate's surroundings. -/
def environmentContext (m : SessionMutation) (j : CheckJudgement) : SessionMutation :=
  let m := if j.cameraChanged then
    m.addEvent { type := .cameraChanged, source := some .serverSystem } else m
  if j.lightingChanged then
    m.addEvent { type := .environmentChanged, source := some .serverIdentity } else m

def applyContinuation (m : SessionMutation) (j : CheckJudgement) (check : Check)
    (instanceId : InstanceId) : Except HttpError (SessionMutation × CheckOutcome) := do
  let t := gapTimes m check
  let reEnroll := reEnrollmentApplies m.session check.purpose && j.reference.isSome
  if !j.livenessOk then applyFailedLiveness m j check instanceId reEnroll t
  else
    let m := environmentContext m j
    match (if reEnroll then j.reference else none), j.aggregate with
    | some ref, _ => applyReEnrolment m j check instanceId t ref
    | none, none => throw ⟨500, "internal_error", "No identity reference to compare with"⟩
    | none, some agg =>
      match agg.decision with
      | .match => continueAfterPass m j check instanceId t
      | .mismatch =>
        let m := recordReferenceMismatch m
        if j.policy.identity.onMismatch = .holdForReview then holdForMismatch m check instanceId t
        -- flag_only: the observation is recorded; the exam continues
        else continueAfterPass m j check instanceId t true
      -- never presented as a different person
      | .inconclusive | .unableToVerify => retryOrHold m j check instanceId agg.qualityOnly

/-! ## Identity verified by staff (`attest` checks) -/

def attestInitial (m : SessionMutation) (instanceId : InstanceId) :
    Except HttpError (SessionMutation × CheckOutcome) := do
  let m := m.addEvent { type := .checkinCompleted }
  let m := m.set fun s =>
    { s with verifiedInstanceId := some instanceId, checkAttemptsResetAt := some m.now }
  return (← holdNow (completeCheckIn m) { reason := .staffVerification, purpose := some .initial },
    .held)

def attestContinuation (m : SessionMutation) (policy : ProctoringPolicy) (check : Check)
    (instanceId : InstanceId) : Except HttpError (SessionMutation × CheckOutcome) := do
  let t := gapTimes m check
  let held (m : SessionMutation) : Except HttpError (SessionMutation × CheckOutcome) := do
    return (← holdNow m { reason := .staffVerification, purpose := some check.purpose }, .held)
  let m := verifyInstance m instanceId
  if m.session.status = .ready then
    if policy.identity.staffReverifyOnContinue then held m else return (m, .passed)
  else
    let m := countReconnect m check.purpose
    let m := closeGapPeriods m check instanceId t.gapStart
    if pauseTooLong policy check.purpose check.issuedAt t.pauseStart then
      return (← holdForPauseLimit m, .held)
    -- a staff re-verification holds the exam where it is; releasing it resumes
    if policy.identity.staffReverifyOnContinue then held m
    else return (resumeAfterCheck m check.purpose, .passed)

/-! ## Completing a check -/

/-- The stored status of a completed check. -/
def CheckOutcome.status : CheckOutcome → CheckStatus
  | .passed => .passed
  | .retry _ => .retry
  | .held => .held

def CheckOutcome.qualityOnly : CheckOutcome → Bool
  | .retry q => q
  | _ => false

/-- Record the outcome with the check. -/
def closeCheck (m : SessionMutation) (checkId : Nat) (out : CheckOutcome) : SessionMutation :=
  m.mapChecks fun c =>
    if c.id = checkId then
      { c with status := out.status, completedAt := some m.now, qualityOnly := out.qualityOnly }
    else c

/-- What the check leads to, by its mode and purpose. -/
def applyCheck (m : SessionMutation) (j : CheckJudgement) (check : Check)
    (instanceId : InstanceId) : Except HttpError (SessionMutation × CheckOutcome) :=
  match check.mode, check.purpose with
  | .attest, .initial => attestInitial m instanceId
  | .attest, _ => attestContinuation m m.policy check instanceId
  | .face, .initial => applyInitial m j check instanceId
  | .face, _ => applyContinuation m j check instanceId

/-- Complete a check.  `requestedAt` is when the request arrived, before the frames were judged:
only then is the check's lifetime looked at. -/
def completeCheck (m : SessionMutation) (instanceId : InstanceId) (checkId : Nat)
    (requestedAt : Int) (j : CheckJudgement) :
    Except HttpError (SessionMutation × CheckOutcome) := do
  let some check := m.checks.find? (·.id == checkId)
    | throw (notFound "Check not found" "check_not_found")
  if check.clientInstanceId ≠ instanceId then
    throw (conflict "superseded" "This check belongs to another browser window.")
  if check.status ≠ .open ∨ check.expiresAt + 5000 < requestedAt then
    throw (conflict "check_closed" "This check is no longer open. Start a new check.")
  if m.session.activeInstanceId ≠ some instanceId then
    throw (conflict "superseded" SUPERSEDED_MESSAGE)
  if requiredCheckFor m.session instanceId ≠ some check.purpose then
    throw (conflict "check_not_required" "This check is no longer needed.")
  let (m, out) ← applyCheck m j check instanceId
  return (closeCheck m checkId out, out)

/-! ## Abandoned checks -/

/-- An abandoned check whose frames point to a different person: a full failed attempt, and a hold
when no attempts are left. -/
def settleAbandoned (m : SessionMutation) (check : Check) : Except HttpError SessionMutation := do
  let max := m.policy.identity.maxVerificationAttempts
  let used := failedHalfAttempts m check.purpose (some check.id) + 2
  let m := closeCheck m check.id (.retry false)
  if 2 * max.val ≤ used ∧ m.session.status ∈ [SessionStatus.ready, .active, .paused, .onHold] then
    let m := noteUnverifiable m check check.clientInstanceId check.issuedAt
    holdNow m { reason := .identityUnverifiable, purpose := some check.purpose }
  else return m

/-- Settle the open checks that `sel` selects: those whose frames point to a different person
(`mismatch`, never an initial check) count as failed attempts, the others expire without penalty. -/
def settleAbandonedChecks (m : SessionMutation) (sel : Check → Bool) (mismatch : Nat → Bool) :
    Except HttpError SessionMutation :=
  let open' := m.checks.filter fun c => c.status == .open && sel c
  let judged (c : Check) : Bool := c.purpose != .initial && mismatch c.id
  let m := m.mapChecks fun c =>
    if c.status = .open ∧ sel c ∧ ¬ judged c then c.expire m.now else c
  (open'.filter judged).foldlM settleAbandoned m

end SmartProctoring
