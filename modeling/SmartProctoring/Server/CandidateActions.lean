import SmartProctoring.Server.Checks
import SmartProctoring.Server.IdentityEvidence

/-!
# Candidate actions

`services/candidate-actions.ts`: consent, starting and submitting the exam, answers, pauses, and the
heartbeat with the delivery of queued commands.

The common heartbeat is `fastHeartbeat`: one conditional update of the row as the request loaded it.
Anything else goes through `lockedHeartbeat`, which records an outage no sweeper saw, applies the
offline limit, folds the request into the usage record, closes the outage, restarts a stopped clock
and enforces the end of the exam time.
-/

set_option autoImplicit false

namespace SmartProctoring

/-! ## Consent -/

/-- Accept the notice version this session's candidate must accept. -/
def acceptConsent (m : SessionMutation) (bodyVersion noticeVersion : NoticeVersion) :
    Except HttpError SessionMutation := do
  if bodyVersion ≠ noticeVersion then
    throw (conflict "notice_outdated"
      "The privacy notice has been updated. Please read the current version.")
  if m.session.status.isTerminal then throw (invalidState "The exam has ended")
  if m.session.consentAcceptedAt.isSome ∧ m.session.consentNoticeVersion = some bodyVersion then
    return m
  return m.set fun s =>
    { s with consentAcceptedAt := some m.now, consentNoticeVersion := some bodyVersion }

/-! ## Start and submit -/

/-- `config.examStartAdmission` and the instance's capacity. -/
structure StartAdmission where
  enabled : Bool := false
  accepting : Bool := true
  maxDeferMs : Int := 0

/-- The start is held back: the instance is at capacity and the candidate has not waited
`maxDeferMs` yet. -/
def examStartDeferral (m : SessionMutation) (admission : StartAdmission) : Bool :=
  admission.enabled && m.session.status == .ready && !admission.accepting &&
    !m.session.startDeferredSince.any fun since => decide (admission.maxDeferMs ≤ m.now - since)

/-- Start the exam, unless this instance is at capacity.  Returns whether it was deferred. -/
def startSession (m : SessionMutation) (instanceId : InstanceId) (opts : StartOptions)
    (admission : StartAdmission) : Except HttpError (SessionMutation × Bool) := do
  assertInControl m.session instanceId
  if m.session.status = .ready then
    assertWindowAllows m.session .start m.now (m.session.startDeferredSince.getD m.now)
  if examStartDeferral m admission then
    return (m.set fun s =>
      { s with startDeferredSince := some (s.startDeferredSince.getD m.now) }, true)
  let m ← startExam m { opts with instanceId := some instanceId }
  return (m, false)

def candidateSubmit (m : SessionMutation) (instanceId : InstanceId) :
    Except HttpError SessionMutation := do
  if m.session.status = .submitted then return m -- idempotent
  assertInControl m.session instanceId
  m.assertStatus [.active] "The exam can only be submitted while it is in progress"
  return finalizeSession m .candidateSubmitted

/-! ## Answers -/

inductive QuestionType
  | singleChoice | multipleChoice | shortText | longText | numeric
  deriving DecidableEq

/-- A question of the attempt's exam version. -/
structure ExamVersionQuestion where
  id : QuestionId
  type : QuestionType
  /-- Ids of the options. -/
  options : List String := []

/-- `string.length`: UTF-16 code units. -/
def utf16Length (s : String) : Nat :=
  (s.toList.map fun c => if c.val < 0x10000 then 1 else 2).sum

def validateAnswer (q : ExamVersionQuestion) (value : AnswerValue) : Except HttpError Unit :=
  match q.type, value with
  | _, .null => .ok ()
  | .singleChoice, .text s =>
    if s ∈ q.options then .ok ()
    else .error (validationFailed "Answer must be one of the question options")
  | .singleChoice, _ => .error (validationFailed "Answer must be one of the question options")
  | .multipleChoice, .texts l =>
    if (∀ s ∈ l, s ∈ q.options) ∧ l.Nodup then .ok ()
    else .error (validationFailed "Answer must be a list of distinct question options")
  | .multipleChoice, _ =>
    .error (validationFailed "Answer must be a list of distinct question options")
  | .shortText, .text s =>
    if utf16Length s ≤ 2000 then .ok ()
    else .error (validationFailed "Answer must be text (max 2000 characters)")
  | .shortText, _ => .error (validationFailed "Answer must be text (max 2000 characters)")
  | .longText, .text _ => .ok ()
  | .longText, _ => .error (validationFailed "Answer must be text")
  | .numeric, .number _ => .ok ()
  -- allow partially typed input; graded leniently
  | .numeric, .text s =>
    if utf16Length s ≤ 100 then .ok () else .error (validationFailed "Answer must be a number")
  | .numeric, _ => .error (validationFailed "Answer must be a number")

structure SaveAnswerRequest where
  value : AnswerValue
  clientSeq : Nat
  /-- `none` when the browser's value is not a finite number. -/
  answeredAt : Option Int

structure SaveAnswerResponse where
  saved : Bool := true
  applied : Bool
  serverSeq : Nat

/-- `INSERT … ON CONFLICT DO UPDATE … WHERE client_seq < …`: the row as stored afterwards, and
whether it was written. -/
def upsertAnswer (answers : List Answer) (a : Answer) : List Answer × Bool :=
  match answers.find? (fun b => b.questionId == a.questionId) with
  | none => (answers ++ [a], true)
  | some b =>
    if b.clientSeq < a.clientSeq then
      (answers.map fun c => if c.questionId = a.questionId then a else c, true)
    else (answers, false)

/-- Answers are accepted while the exam is active and, delivered late, when they were given before
the current pause or hold began. -/
def answerAllowed (m : SessionMutation) (answeredAt : Int) : Bool :=
  m.session.status == .active ||
    ((m.session.status == .paused || m.session.status == .onHold) &&
      m.openPeriodRow.any fun p => !p.observed && decide (answeredAt ≤ p.startedAt))

def saveAnswer (m : SessionMutation) (instanceId : InstanceId)
    (questions : List ExamVersionQuestion) (questionId : QuestionId) (body : SaveAnswerRequest) :
    Except HttpError (SessionMutation × SaveAnswerResponse) := do
  let some q := questions.find? (·.id == questionId)
    | throw (notFound "Question not found" "question_not_found")
  validateAnswer q body.value
  assertInControl m.session instanceId
  let answeredAt := min (body.answeredAt.getD m.now) m.now
  if !answerAllowed m answeredAt then
    throw (conflict (if m.session.status.isTerminal then "exam_ended" else "invalid_state")
      "Answers cannot be saved right now")
  let row : Answer :=
    { questionId, value := body.value, clientSeq := body.clientSeq, answeredAt, savedAt := m.now }
  let (answers, applied) := upsertAnswer m.answers row
  let serverSeq :=
    ((answers.find? fun b => b.questionId == questionId).map (·.clientSeq)).getD body.clientSeq
  return ({ m with answers }, { applied, serverSeq })

/-! ## Pause -/

inductive PauseOutcome
  | denied (message : String) | pendingApproval | paused

/-- The session's pending pause request (the latest). -/
def pendingPauseRequest (m : SessionMutation) : Option PauseRequest :=
  (m.pauseRequests.filter fun r => r.status == .pending).getLast?

/-- `reason` is trimmed; a blank one is `none`. -/
def requestPause (m : SessionMutation) (instanceId : InstanceId) (reason : Option String) :
    Except HttpError (SessionMutation × PauseOutcome) := do
  assertInControl m.session instanceId
  m.assertStatus [.active] "The exam can only be paused while it is in progress"
  let p := m.policy.pause
  if !p.allowed then return (m, .denied "Pausing is not allowed for this exam.")
  if p.maxPauses.any fun max => decide (max ≤ m.session.pauseCount) then
    return (m, .denied "You have used all pauses allowed for this exam.")
  if p.requireReason ∧ reason.isNone then
    throw (badRequest "Please give a reason for the pause." "reason_required")
  if (pendingPauseRequest m).isSome then return (m, .pendingApproval)
  if p.requireApproval then
    let m : SessionMutation :=
      { m with
        pauseRequests := m.pauseRequests ++ [{ id := m.nextId, requestedAt := m.now, reason }]
        nextId := m.nextId + 1 }
    return (m.addEvent { type := .pauseRequested }, .pendingApproval)
  return (← pauseNow m reason, .paused)

def cancelPauseRequest (m : SessionMutation) (instanceId : InstanceId) :
    Except HttpError SessionMutation := do
  assertInControl m.session instanceId
  match pendingPauseRequest m with
  | none => return m
  | some r =>
    return { m with
      pauseRequests := m.pauseRequests.map fun (q : PauseRequest) =>
        if q.id = r.id then { q with status := .cancelled, decidedAt := some m.now } else q }

/-! ## Heartbeat: what both paths compute -/

def OUTBOX_DELAY_MS : Int := 30000

structure HeartbeatRequest where
  /-- `none` when the body names no instance. -/
  clientInstanceId : Option InstanceId := none
  seq : Int
  state : MonitoringState := .ok
  faces : Nat := 1
  openTypes : List EventType := []
  cameraState : Option String := none
  outboxSize : Nat := 0
  /-- Oldest undelivered item. -/
  outboxOldestAt : Option Int := none
  currentQuestionIndex : Option Nat := none
  visible : Option Bool := none
  fullscreen : Option Bool := none

structure HeartbeatResponse where
  serverTime : Int
  status : SessionStatus
  remainingMs : Int
  timerRunning : Bool
  requiredCheck : Option CheckPurpose
  commands : List CandidateCommand
  identitySample : Option IdentitySampleRequest

/-- The session row as the request loaded it (candidate auth), with its effective policy. -/
structure LoadedSession where
  session : ExamSession
  policy : Option ProctoringPolicy := none

def heartbeatMonitoring (body : HeartbeatRequest) (now : Int) : SessionMonitoring where
  state := body.state
  faces := body.faces
  openTypes := body.openTypes.take 50
  cameraState := body.cameraState
  visible := body.visible
  fullscreen := body.fullscreen
  atMs := now

/-- Outbox delay (browser online but uploads failing or queued): "reporting interrupted since". -/
def reportingInterruptedSince (body : HeartbeatRequest) (s : ExamSession) (now : Int) :
    Option Int :=
  match body.outboxOldestAt with
  | none => none
  | some oldest =>
    if 0 < body.outboxSize ∧ OUTBOX_DELAY_MS < now - oldest then
      some (match s.reportingInterruptedSince with
        | some t => min oldest t
        | none => oldest)
    else none

/-- An active exam whose browser has been silent past the heartbeat timeout, and no outage is
recorded yet. -/
def reportingTimedOut (s : ExamSession) (policy : ProctoringPolicy) (now : Int) : Bool :=
  s.status == .active && s.connection == .online && s.reportingEventId.isNone &&
    s.lastHeartbeatAt.any fun last =>
      decide (policy.connection.heartbeatTimeoutSec.secMs < now - last)

/-- The session is active and connected, yet no identity sample arrived although the server has been
asking and nothing explains it, and no such observation is open yet. -/
def noSamplesObservationDue (s : ExamSession) (policy : IdentityPolicy) (body : HeartbeatRequest)
    (now : Int) : Bool :=
  if s.status ≠ .active ∨ s.reportingEventId.isSome ∨ policy.verification = .staff ∨
      (reportingInterruptedSince body s now).isSome then false
  else
    s.identityState.openNoSamplesEventId.isNone &&
      sampleWatchdog policy s.identityState now == .unanswered

/-- Open the `no_samples` observation; closed by the next sample. -/
def recordNoSamples (m : SessionMutation) : SessionMutation :=
  let st := m.session.identityState
  let last := (st.evidence.lastSampleAt.or st.activeSince).getD m.now
  let evId := m.nextEventId
  let m := m.addEvent
    { type := .identityUnverifiable
      source := some .serverIdentity
      isOpen := true
      startedAt := some last }
  m.setIdentityState { m.session.identityState with openNoSamplesEventId := some evId }

/-! ## The fast heartbeat -/

/-- In control of a session that has not ended. -/
def controlsLive (s : ExamSession) (instanceId : InstanceId) : Bool :=
  instanceInControl s instanceId && decide (¬ s.status.isTerminal)

/-- The usage record after a heartbeat's verdict. -/
def storedUsage (s : ExamSession) : Option UsageVerdict → Option InstanceUsage
  | some v => if v.changed then some v.usage else s.instanceUsage
  | none => s.instanceUsage

/-- The row after any heartbeat: the browser was heard from. -/
def heardRow (s : ExamSession) (instanceId : InstanceId) (usage : Option UsageVerdict)
    (now : Int) : ExamSession :=
  { s with
    lastHeartbeatAt := some now
    lastHeartbeatInstanceId := some instanceId
    connection := .online
    instanceUsage := storedUsage s usage
    updatedAt := now }

/-- The row the heartbeat writes when nothing else happens. -/
def heartbeatPatch (s : ExamSession) (instanceId : InstanceId) (body : HeartbeatRequest)
    (usage : Option UsageVerdict) (now : Int) : ExamSession :=
  let row := heardRow s instanceId usage now
  if controlsLive s instanceId then
    { row with
      lastVerifiedHeartbeatAt := some now
      monitoring := some (heartbeatMonitoring body now)
      currentQuestionIndex := body.currentQuestionIndex.getD s.currentQuestionIndex
      reportingInterruptedSince := reportingInterruptedSince body s now }
  else row

/-- The usage verdict of a heartbeat. -/
def heartbeatUsage (s : ExamSession) (instanceId : InstanceId) (body : HeartbeatRequest)
    (client : Option ClientAddress) (now : Int) : Option UsageVerdict :=
  client.bind fun c =>
    evaluateInstanceUsage s instanceId
      { address := c, seq := some body.seq, atMs := now, refresh := true }

/-- Something only the locked path may do is due. -/
def needsLockedHeartbeat (s : ExamSession) (policy : ProctoringPolicy) (instanceId : InstanceId)
    (body : HeartbeatRequest) (client : Option ClientAddress) (now : Int) : Bool :=
  let inControl := controlsLive s instanceId
  superseded s instanceId ||
    (inControl && (s.reportingEventId.isSome || (s.status == .active && s.runningSince.isNone))) ||
    (inControl && noSamplesObservationDue s policy.identity body now) ||
    ((s.status == .active || s.status == .paused) && clockExpired (sessionClock s) now) ||
    (inControl && reportingTimedOut s policy now) ||
    (heartbeatUsage s instanceId body client now).any fun v => v.signal.isSome

/-- A queued command this instance would be sent. -/
def SessionCommand.pendingFor (c : SessionCommand) (instanceId : InstanceId) : Bool :=
  c.deliveredAt.isNone && c.targetInstanceId.all fun i => i == instanceId

/-- The common heartbeat as one conditional update: the row must still be the one the request
loaded.  No response means that the caller runs the full locked heartbeat (with commands pending,
after the update has already been committed). -/
def fastHeartbeat (m : SessionMutation) (loaded : LoadedSession) (instanceId : InstanceId)
    (body : HeartbeatRequest) (client : Option ClientAddress) :
    SessionMutation × Option HeartbeatResponse :=
  let s := loaded.session
  let policy := loaded.policy.getD DEFAULT_POLICY
  if needsLockedHeartbeat s policy instanceId body client m.now then (m, none)
  else if s ≠ m.session then (m, none)
  else
    let usage := heartbeatUsage s instanceId body client m.now
    let m := { m with session := heartbeatPatch s instanceId body usage m.now }
    if m.commands.any fun c => c.pendingFor instanceId then (m, none)
    else
      (m, some
        { serverTime := m.now
          status := s.status
          remainingMs := remainingMs s m.now
          timerRunning := s.runningSince.isSome
          requiredCheck := requiredCheckFor s instanceId
          commands := []
          identitySample :=
            if controlsLive s instanceId then
              identitySampleRequest s.status s.identityState policy.identity m.now
            else none })

/-! ## The locked heartbeat -/

/-- Deliver the pending commands that `sel` selects, at most `limit` of them. -/
def deliverCommands (now : Int) (sel : SessionCommand → Bool) :
    Nat → List SessionCommand → List SessionCommand × List CandidateCommand
  | 0, rows => (rows, [])
  | _ + 1, [] => ([], [])
  | limit + 1, c :: rows =>
    if c.deliveredAt.isNone && sel c then
      let (rest, sent) := deliverCommands now sel limit rows
      ({ c with deliveredAt := some now } :: rest, c.command :: sent)
    else
      let (rest, sent) := deliverCommands now sel (limit + 1) rows
      (c :: rest, sent)

def SessionMutation.deliver (m : SessionMutation) (sel : SessionCommand → Bool) :
    SessionMutation × List CandidateCommand :=
  let (commands, sent) := deliverCommands m.now sel 50 m.commands
  ({ m with commands }, sent)

/-- A heartbeat of a window that another one superseded. -/
def supersededHeartbeat (m : SessionMutation) (instanceId : InstanceId) :
    SessionMutation × HeartbeatResponse :=
  let (m, commands) := m.deliver fun c => c.targetInstanceId == some instanceId
  let told := commands.any (·.isSuperseded)
  -- the old window is demonstrably still open while another one took over
  let m := match m.session.activeInstanceId with
    | some active =>
      if told ∧ ¬ m.session.status.isTerminal then recordMultipleInstances m instanceId active else m
    | none => m
  let s := m.session
  (m,
    { serverTime := m.now
      status := s.status
      remainingMs := remainingMs s m.now
      timerRunning := s.runningSince.isSome
      requiredCheck := requiredCheckFor s instanceId
      commands := if told then commands else commands ++ [.superseded SUPERSEDED_MESSAGE]
      identitySample := none })

/-- The browser was silent for longer than the timeout and no sweeper recorded it: record the outage
and apply the offline limit as the sweeper would have. -/
def recordLateOutage (m : SessionMutation) (instanceId : InstanceId) :
    Except HttpError SessionMutation :=
  let policy := m.policy
  if instanceInControl m.session instanceId ∧ reportingTimedOut m.session policy m.now then
    applyOfflineLimit
      (recordReportingTimeout m policy (m.session.lastHeartbeatAt.getD m.now)) policy
  else .ok m

/-- Apply one observation of the usage record.  On a signal the verified instance id is cleared. -/
def applyInstanceUsage (m : SessionMutation) (verdict : Option UsageVerdict) : SessionMutation :=
  match verdict with
  | none => m
  | some v =>
    match v.signal with
    | none => if v.changed then m.set fun s => { s with instanceUsage := some v.usage } else m
    | some _ =>
      let m := m.addEvent { type := .multipleInstances, source := some .serverSystem }
      let m := m.set fun s => { s with verifiedInstanceId := none, instanceUsage := none }
      m.enqueueCommand (.requireCheck .reconnect RECHECK_MESSAGE)

/-- The browser is back after an outage: `reporting_interrupted` closes. -/
def endOutage (m : SessionMutation) : SessionMutation :=
  match m.session.reportingEventId with
  | some id =>
    (m.closeEvent id m.now .heartbeatResumed).set fun s => { s with reportingEventId := none }
  | none => m

/-- A clock that a disconnect stopped runs again. -/
def restartClock (m : SessionMutation) : SessionMutation :=
  if m.session.status = .active ∧ m.session.runningSince.isNone then m.clockStart m.now else m

/-- The browser was heard from. -/
def hear (m : SessionMutation) (instanceId : InstanceId) : SessionMutation :=
  m.set fun s =>
    { s with
      lastHeartbeatAt := some m.now
      lastHeartbeatInstanceId := some instanceId
      connection := .online
      updatedAt := m.now }

/-- What the verified browser reports about itself. -/
def hearVerified (m : SessionMutation) (body : HeartbeatRequest) : SessionMutation :=
  m.set fun s =>
    { s with
      lastVerifiedHeartbeatAt := some m.now
      monitoring := some (heartbeatMonitoring body m.now)
      currentQuestionIndex := body.currentQuestionIndex.getD s.currentQuestionIndex }

/-- The verified browser reported: an outage ends, a stopped clock restarts. -/
def reportVerified (m : SessionMutation) (instanceId : InstanceId) (body : HeartbeatRequest) :
    SessionMutation :=
  if controlsLive m.session instanceId then
    (restartClock (endOutage (hearVerified m body))).set fun s =>
      { s with reportingInterruptedSince := reportingInterruptedSince body s m.now }
  else m

/-- A heartbeat after a late outage is dealt with, up to the moment the exam time is looked at. -/
def hearFrom (m : SessionMutation) (instanceId : InstanceId) (body : HeartbeatRequest)
    (client : Option ClientAddress) : SessionMutation :=
  let m := hear m instanceId
  let m := applyInstanceUsage m (heartbeatUsage m.session instanceId body client m.now)
  reportVerified m instanceId body

/-- Clock expiry is enforced by the heartbeat as well as by the sweeper. -/
def enforceExpiry (m : SessionMutation) : SessionMutation :=
  if (m.session.status = .active ∨ m.session.status = .paused) ∧
      clockExpired (sessionClock m.session) m.now then finalizeSession m .timeExpired
  else m

/-- The answer to a heartbeat: the commands queued for the window, and what the session is now. -/
def answerHeartbeat (m : SessionMutation) (instanceId : InstanceId) (body : HeartbeatRequest) :
    SessionMutation × HeartbeatResponse :=
  let (m, commands) := m.deliver fun c => c.targetInstanceId.all fun i => i == instanceId
  let inControl := controlsLive m.session instanceId
  let policy := m.policy
  let m := if inControl ∧ noSamplesObservationDue m.session policy.identity body m.now then
    recordNoSamples m else m
  let s := m.session
  (m,
    { serverTime := m.now
      status := s.status
      remainingMs := remainingMs s m.now
      timerRunning := s.runningSince.isSome
      requiredCheck := requiredCheckFor s instanceId
      commands
      identitySample :=
        if inControl then identitySampleRequest s.status s.identityState policy.identity m.now
        else none })

/-- A heartbeat of a window nobody superseded, after a late outage is dealt with. -/
def finishHeartbeat (m : SessionMutation) (instanceId : InstanceId) (body : HeartbeatRequest)
    (client : Option ClientAddress) : SessionMutation × HeartbeatResponse :=
  answerHeartbeat (enforceExpiry (hearFrom m instanceId body client)) instanceId body

def lockedHeartbeat (m : SessionMutation) (instanceId : InstanceId) (body : HeartbeatRequest)
    (client : Option ClientAddress) : Except HttpError (SessionMutation × HeartbeatResponse) := do
  if superseded m.session instanceId then return supersededHeartbeat m instanceId
  let m ← recordLateOutage m instanceId
  return finishHeartbeat m instanceId body client

/-- The heartbeat: the fast path when the request loaded this session, else the locked one. -/
def heartbeat (m : SessionMutation) (instanceId : InstanceId) (body : HeartbeatRequest)
    (client : Option ClientAddress) (loaded : Option LoadedSession) :
    Except HttpError (SessionMutation × HeartbeatResponse) := do
  if body.clientInstanceId.any fun i => decide (i ≠ instanceId) then
    throw (badRequest "clientInstanceId does not match the X-Client-Instance header"
      "instance_mismatch")
  match loaded with
  | none => lockedHeartbeat m instanceId body client
  | some loaded =>
    match fastHeartbeat m loaded instanceId body client with
    | (m, some response) => return (m, response)
    | (m, none) => lockedHeartbeat m instanceId body client

end SmartProctoring
