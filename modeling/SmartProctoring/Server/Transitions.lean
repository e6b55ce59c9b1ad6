import SmartProctoring.Server.Accommodations

/-!
# The session state machine: transitions

`services/session-state.ts`, second half: a recorded reporting outage, the start of the exam, a
pause, a hold, and the end of the session.  The actions of candidates, staff, checks and the
sweeper are all built from these.
-/

set_option autoImplicit false

namespace SmartProctoring

/-! ## A reporting outage -/

/-- A `reporting_interrupted` event opens at `last`. -/
def openOutage (m : SessionMutation) (last : Int) : SessionMutation :=
  let evId := m.nextEventId
  let m := m.addEvent { type := .reportingInterrupted, isOpen := true, startedAt := some last }
  m.set fun s =>
    { s with
      reportingEventId := some evId
      reportingInterruptedSince :=
        some (match s.reportingInterruptedSince with
          | some t => min last t
          | none => last) }

/-- The browser stopped reporting at `last`, its last heartbeat, and the heartbeat timeout has
passed: the connection is offline; during an active exam a `reporting_interrupted` event opens at
`last` and, under disconnect policy `stop`, the clock stops there. -/
def recordReportingTimeout (m : SessionMutation) (policy : ProctoringPolicy) (last : Int) :
    SessionMutation :=
  let m := m.set fun s => { s with connection := .offline }
  if m.session.status ≠ .active then m
  else
    let m := openOutage m last
    match policy.connection.disconnectTimerBehavior with
    | .stop => m.clockStop (max last (m.session.runningSince.getD last))
    | .continue => m

/-- The exam clock once the outage is recorded. -/
def outageClock (policy : ProctoringPolicy) (c : ExamClock) (last : Int) : ExamClock :=
  match policy.connection.disconnectTimerBehavior with
  | .stop => clockStop c (max last (c.runningSince.getD last))
  | .continue => c

variable {m : SessionMutation}

theorem recordReportingTimeout_session (h : m.session.status = .active)
    (policy : ProctoringPolicy) (last : Int) :
    let s := (recordReportingTimeout m policy last).session
    s = { m.session with
      connection := .offline
      reportingEventId := some m.nextEventId
      reportingInterruptedSince := s.reportingInterruptedSince
      usedMs := (outageClock policy (sessionClock m.session) last).usedMs
      runningSince := (outageClock policy (sessionClock m.session) last).runningSince } := by
  simp only [recordReportingTimeout, openOutage, SessionMutation.set, h, ne_eq, not_true_eq_false,
    if_false, outageClock]
  cases policy.connection.disconnectTimerBehavior with
  | stop | «continue» => rfl

@[simp] theorem recordReportingTimeout_now (m : SessionMutation) (policy : ProctoringPolicy)
    (last : Int) : (recordReportingTimeout m policy last).now = m.now := by
  rw [recordReportingTimeout]
  split
  · rfl
  · split <;> rfl

/-! ## Starting the exam -/

def SINGLE_DISPLAY_MESSAGE : String :=
  "More than one display is connected. This exam allows only one display: disconnect any " ++
  "additional displays, then start the exam."

inductive DisplayReport
  | single | extended | unknown
  deriving DecidableEq

def displayReport : Option Bool → DisplayReport
  | some true => .extended
  | some false => .single
  | none => .unknown

/-- What the starting browser reports about its displays: sent with the start (`screen`), else what
its last check recorded, else unknown. -/
def displaysAtStart (m : SessionMutation) (instanceId : Option InstanceId)
    (screen : Option (Option Bool)) : DisplayReport :=
  match screen with
  | some isExtended => displayReport isExtended
  | none =>
    match instanceId with
    | none => .unknown
    | some i =>
      let own := m.deviceRecords.filter fun d => d.clientInstanceId == i
      displayReport (own.getLast?.bind (·.device.isExtended))

/-- What the start reads besides the session: the rules of the exam version it is pinned to (merged
with the organisation default), the candidate's accommodation records, and the browser's report. -/
structure StartOptions where
  versionPolicy : ProctoringPolicy
  records : List Accommodation := []
  instanceId : Option InstanceId := none
  screen : Option (Option Bool) := none

/-- The clock starts, the active period opens, and the rules are frozen. -/
def beginExam (m : SessionMutation) (policy : ProctoringPolicy)
    (acc : Option SessionAccommodations) : SessionMutation :=
  let snapshot := acc.filter fun a => !a.items.isEmpty
  let m := m.set fun s =>
    { s with
      status := .active
      startedAt := some (s.startedAt.getD m.now)
      policy := some policy
      accommodations := snapshot
      startDeferredSince := none }
  let m := m.clockStart m.now
  let m := m.switchPeriod .active m.now
  let m := m.resetIdentityCounters
  let m := m.addEvent { type := .sessionStarted }
  if snapshot.isSome then m.addEvent { type := .accommodationsApplied } else m

/-- ready -> active. -/
def startExam (m : SessionMutation) (opts : StartOptions) : Except HttpError SessionMutation := do
  m.assertStatus [.ready] "The exam can only be started after the readiness check"
  -- approved accommodations as of now, then frozen with the policy
  let m := refreshSessionAccommodations m opts.records
  let acc := m.session.accommodations
  let policy := withAccommodations opts.versionPolicy acc
  if !consentCoversRecording m.session.consentNoticeVersion (recordingPlan policy) then
    throw (conflict "consent_required"
      ("This exam is recorded. Please read the updated privacy notice and agree to it before you " ++
       "start."))
  if policy.browser.requireSingleDisplay ∧
      displaysAtStart m (opts.instanceId.or m.session.activeInstanceId) opts.screen = .extended then
    throw (conflict "single_display_required" SINGLE_DISPLAY_MESSAGE)
  return beginExam m policy acc

/-! ## Pausing -/

/-- The clock when a pause begins. -/
def pauseClock (m : SessionMutation) : TimerBehavior → SessionMutation
  | .stop => m.clockStop m.now
  -- e.g. was stopped during a disconnect; a pause with `continue` keeps time running
  | .continue => m.clockStart m.now

/-- What a pause does to an active session. -/
def enterPause (m : SessionMutation) (reason : Option String) : SessionMutation :=
  let behavior := m.policy.pause.timerBehavior
  let atMs := m.now
  let m := pauseClock m behavior
  let m := m.closeOpenEvents atMs .pause [.reportingInterrupted]
  let m := m.switchPeriod .paused atMs (.text reason) { timerBehavior := some behavior }
  let m := m.set fun s =>
    { s with
      status := .paused
      pauseCount := s.pauseCount + 1
      checkAttemptsResetAt := some atMs }
  let m := m.resetIdentityCounters
  m.addEvent { type := .sessionPaused, startedAt := some atMs }

/-- active -> paused (formal pause).  Monitoring stops; a paused (unobserved) period opens. -/
def pauseNow (m : SessionMutation) (reason : Option String) : Except HttpError SessionMutation := do
  m.assertStatus [.active]
  return enterPause m reason

/-! ## Holding -/

def HOLD_MESSAGES : HoldReason → String
  | .identityMismatch =>
    "Your exam is on hold while an administrator reviews the identity check. Please wait; you will " ++
    "be able to continue if the review allows it."
  | .identityUnverifiable =>
    "We could not verify your identity after several attempts. Your exam is on hold until an " ++
    "administrator reviews it. Your answers and remaining time are saved."
  | .idPhotoMismatch =>
    "We could not match you with the identity photo on file. An administrator will review this " ++
    "before you can start."
  | .pauseLimit =>
    "Your pause was longer than the exam rules allow. An administrator needs to approve before you " ++
    "can continue. Your answers and remaining time are saved."
  | .staff =>
    "An administrator has put your exam on hold. Please wait for further instructions."
  | .idPhotoUnverifiable =>
    "We could not compare you clearly with the identity photo on file (for example because of " ++
    "lighting or image quality). This is not a finding that you are a different person. An " ++
    "administrator will review this before you can start."
  | .staffVerification =>
    "A staff member will now verify your identity, as arranged with your organisation. Please keep " ++
    "this page open. The exam clock is stopped."
  | .resumeLimit =>
    "Your exam was interrupted more often or for longer than the exam rules allow, so it is on " ++
    "hold. An administrator needs to approve before you can continue. Your answers and remaining " ++
    "time are saved."
  | .recovery =>
    "An administrator has reopened your exam. Complete the camera and identity check to continue " ++
    "where you stopped. Your answers are saved, and the exam clock starts again only after the " ++
    "check."
  | .additionalDisplay =>
    "An additional display was connected to your computer, and this exam allows only one display, " ++
    "so your exam is on hold. Please disconnect the additional display. The exam administrator " ++
    "will review this and release the hold. Your answers and remaining time are saved."

structure HoldOptions where
  reason : HoldReason
  message : Option String := none
  canReverify : Bool := false
  source : EventSource := .serverSystem
  purpose : Option CheckPurpose := none

/-- The period part of `holdNow`: an open hold continues with the new reason, any other open period
gives way to an `on_hold` one. -/
def holdPeriod (m : SessionMutation) (reason : HoldReason) (prev : SessionStatus) :
    SessionMutation :=
  if m.openPeriodRow.any (fun p => p.kind == .onHold) then
    { m with
      periods := modifyLast (·.isOpen) (fun p => { p with reason := .hold reason }) m.periods }
  else m.switchPeriod .onHold m.now (.hold reason) { previousStatus := some prev }

/-- The clock stops, and monitoring with it unless a hold has stopped it already. -/
def stopForHold (m : SessionMutation) : SessionMutation :=
  let stopped := m.clockStop m.now
  if m.session.status ≠ .onHold then stopped.closeOpenEvents m.now .hold [.reportingInterrupted]
  else stopped

/-- What a hold does to a session that has not ended. -/
def enterHold (m : SessionMutation) (opts : HoldOptions) : SessionMutation :=
  let atMs := m.now
  let prev := m.session.status
  let message := opts.message.getD (HOLD_MESSAGES opts.reason)
  let m := stopForHold m
  let continuing := m.openPeriodRow.any fun p => p.kind == .onHold
  let m := holdPeriod m opts.reason prev
  let holdSince := if continuing then m.session.holdSince.getD atMs else atMs
  let m := m.set fun s =>
    { s with
      status := .onHold
      holdReason := some opts.reason
      holdSince := some holdSince
      holdMessage := some message
      holdCanReverify := opts.canReverify
      holdPrevStatus :=
        if prev = .onHold then s.holdPrevStatus
        else if prev = .paused then some .active
        else some prev
      reEnrollAuthorized := false
      reEnrollAuthorizedBy := none }
  let m := m.resetIdentityCounters
  let m := m.addEvent
    { type := .sessionHeld, source := some opts.source, details := { purpose := opts.purpose } }
  m.enqueueCommand (.hold opts.reason holdSince message opts.canReverify)

/-- Put the session on hold (clock stopped, `on_hold` period open, the candidate gets a `hold`
command). -/
def holdNow (m : SessionMutation) (opts : HoldOptions) : Except HttpError SessionMutation := do
  m.assertStatus [.invited, .ready, .active, .paused, .onHold]
  return enterHold m opts

theorem holdNow_eq_ok {m m' : SessionMutation} {opts : HoldOptions} :
    holdNow m opts = .ok m' ↔ ¬ m.session.status.isTerminal ∧ m' = enterHold m opts := by
  rw [holdNow, SessionMutation.assertStatus, SessionStatus.isTerminal_iff]
  cases m.session.status <;> simp [bind, Except.bind, pure, Except.pure, eq_comm]

@[simp] theorem holdPeriod_session (m : SessionMutation) (reason : HoldReason)
    (prev : SessionStatus) : (holdPeriod m reason prev).session = m.session := by
  rw [holdPeriod]
  split
  · rfl
  · simp

theorem enterHold_session (m : SessionMutation) (opts : HoldOptions) :
    let s := (enterHold m opts).session
    s = { m.session with
      status := .onHold
      usedMs := (clockStop (sessionClock m.session) m.now).usedMs
      runningSince := none
      holdReason := some opts.reason
      holdSince := s.holdSince
      holdMessage := s.holdMessage
      holdCanReverify := opts.canReverify
      holdPrevStatus := s.holdPrevStatus
      reEnrollAuthorized := false
      reEnrollAuthorizedBy := none
      identityState := s.identityState
      reportingEventId := s.reportingEventId } := by
  by_cases h : m.session.status = .onHold
  · simp [enterHold, stopForHold, h, SessionMutation.resetIdentityCounters]
  · simp [enterHold, stopForHold, h, SessionMutation.resetIdentityCounters,
      SessionMutation.closeOpenEvents]

/-! ## Ending -/

/-- Something the browser captured inside the gap reached the server late: a client event that
overlaps it, or a screenshot or sample taken in it (`loadLateCaptures`, `capturesWithin`). -/
def capturedWithin (m : SessionMutation) (start stop : Int) : Bool :=
  (m.events.rows.any fun e =>
    e.deliveredLate && e.fromClient &&
      decide (start < e.endedAt.getD e.startedAt ∧ e.startedAt ≤ stop)) ||
  m.lateCaptures.any fun t => decide (start < t ∧ t ≤ stop)

/-- The period `p` ends at `cut`, if it extends past it. -/
def endPeriodAt (m : SessionMutation) (p : SessionPeriod) (cut : Int) : SessionMutation :=
  match p.endedAt with
  | none => m.closeOpenPeriod cut
  | some e =>
    -- a hold or pause began while the browser was already gone
    if cut < e then
      { m with
        periods := m.periods.map fun q => if q = p then { q with endedAt := some cut } else q }
    else m

/-- One active period of a reporting gap: it ends where the gap begins, and the rest of it becomes a
`disconnected` period. -/
def cutActivePeriod (gapStart stop : Int) (evId : EventId) (endReason : SessionEndReason)
    (m : SessionMutation) (p : SessionPeriod) : SessionMutation :=
  let cut := max p.startedAt gapStart
  let to' := min (p.endedAt.getD stop) stop
  let m := endPeriodAt m p cut
  if cut < to' then
    m.insertPeriod .disconnected cut (some to') .gapNotReturned
      { reportingEventId := some evId, endReason := some endReason }
  else m

/-- The reporting outage an exam that ends at `stop` ends in, if nothing captured since has arrived
late. -/
def reportingGap (m : SessionMutation) (stop : Int) : Option EventRow :=
  (m.events.rows.find? fun e => some e.id == m.session.reportingEventId && e.isOpen).filter
    fun ev => decide (ev.startedAt < stop) && !capturedWithin m ev.startedAt stop

/-- The active periods that reach into the gap. -/
def activeWithin (periods : List SessionPeriod) (gapStart stop : Int) : List SessionPeriod :=
  periods.filter fun p =>
    p.kind == .active && decide (p.startedAt < stop) && p.endedAt.all fun e => decide (gapStart < e)

/-- The exam ends while the candidate's browser is not reporting and nothing it captured since has
arrived late: the active time from its last heartbeat to the end becomes `disconnected`, and the
episodes the gone browser left open end where its observation ended. -/
def closeReportingGapAtEnd (m : SessionMutation) (stop : Int) (endReason : SessionEndReason) :
    SessionMutation :=
  match reportingGap m stop with
  | none => m
  | some ev =>
    let gapStart := ev.startedAt
    let active := activeWithin m.periods gapStart stop
    if active.isEmpty then m
    else
      active.foldl (cutActivePeriod gapStart stop ev.id endReason)
        (m.closeEvents (·.fromClient) gapStart fun d =>
          { d with closedBy := some .browserNotReturned })

/-- When the session ends: time expiry is recorded at the moment the clock ran out. -/
def endInstant (m : SessionMutation) (endReason : SessionEndReason) : Int :=
  match endReason, m.session.runningSince with
  | .timeExpired, some rs => max rs (min m.now ((sessionClock m.session).runsOutAt rs))
  | _, _ => m.now

/-- The status the session ends in. -/
def endStatus : SessionEndReason → SessionStatus
  | .staffTerminated | .abandoned | .candidateWithdrew => .terminated
  | _ => .submitted

theorem endStatus_isTerminal (endReason : SessionEndReason) :
    (endStatus endReason).isTerminal := by
  cases endReason <;> decide

/-- The timeline entries and the command that tell the end. -/
def announceEnd (m : SessionMutation) (endReason : SessionEndReason) (atMs : Int) :
    SessionMutation :=
  let m := if endReason = .timeExpired then
    m.addEvent { type := .sessionExpired, startedAt := some atMs } else m
  match endReason with
  | .abandoned =>
    (m.addEvent
      { type := .sessionTerminated, source := some .serverSystem, startedAt := some atMs
      }).enqueueCommand
      (.terminated ("This exam session was closed because it was not used for a long time. Contact " ++
         "your exam administrator if you still need to take the exam."))
  | .staffTerminated =>
    (m.addEvent
      { type := .sessionTerminated, source := some .staff, startedAt := some atMs }).enqueueCommand
      (.terminated "Your exam was ended by an administrator.")
  | .candidateWithdrew =>
    (m.addEvent
      { type := .sessionTerminated, source := some .serverSystem, startedAt := some atMs
      }).enqueueCommand
      (.terminated "You withdrew your consent, so your exam has ended.")
  | .candidateSubmitted =>
    m.addEvent
      { type := .sessionSubmitted, source := some .serverSystem, startedAt := some atMs }
  | reason =>
    (m.addEvent
      { type := .sessionSubmitted, source := some .serverSystem, startedAt := some atMs
      }).enqueueCommand (.submitted reason)

/-- A request still pending when the session ends is cancelled. -/
def PauseRequest.cancelPending (atMs : Int) (r : PauseRequest) : PauseRequest :=
  if r.status = .pending then { r with status := .cancelled, decidedAt := some atMs } else r

/-- `gradeSession`: the stored answers, graded. -/
def gradeSession (m : SessionMutation) (atMs : Int) : SessionScore :=
  { gradedAt := atMs, graded := m.answers }

/-- The session ended at `atMs`: the clock stopped, all open periods and events closed. -/
def closeSession (m : SessionMutation) (endReason : SessionEndReason) (atMs : Int) :
    SessionMutation :=
  let m := m.clockStop atMs
  let m := closeReportingGapAtEnd m atMs endReason
  let m := m.closeOpenEvents atMs .sessionEnd
  let m := m.closeOpenPeriod atMs
  let m := { m with pauseRequests := m.pauseRequests.map (PauseRequest.cancelPending atMs) }
  let m := m.dropPendingBursts
  let m := m.set fun s =>
    { s with
      status := endStatus endReason
      endReason := some endReason
      endedAt := some atMs
      reportingInterruptedSince := none
      reportingEventId := none
      holdCanReverify := false }
  announceEnd m endReason atMs

/-- End the session (submitted / terminated) and grade its answers. -/
def finalizeSession (m : SessionMutation) (endReason : SessionEndReason) : SessionMutation :=
  if m.session.status.isTerminal then m
  else
    let atMs := endInstant m endReason
    let wasStarted := m.session.startedAt.isSome
    let m := closeSession m endReason atMs
    if wasStarted ∧ endReason ≠ .abandoned ∧ endReason ≠ .candidateWithdrew then
      m.set fun s => { s with score := some (gradeSession m atMs) }
    else m

@[simp] theorem endPeriodAt_session (m : SessionMutation) (p : SessionPeriod) (cut : Int) :
    (endPeriodAt m p cut).session = m.session := by
  rw [endPeriodAt]
  split
  · simp
  · split <;> rfl

@[simp] theorem cutActivePeriod_session (gapStart stop : Int) (evId : EventId)
    (endReason : SessionEndReason) (m : SessionMutation) (p : SessionPeriod) :
    (cutActivePeriod gapStart stop evId endReason m p).session = m.session := by
  simp only [cutActivePeriod]
  split
  · simp
  · simp

@[simp] theorem closeReportingGapAtEnd_session (m : SessionMutation) (stop : Int)
    (endReason : SessionEndReason) :
    (closeReportingGapAtEnd m stop endReason).session = m.session := by
  have hfold : ∀ (l : List SessionPeriod) (g : Int) (id : EventId) (m : SessionMutation),
      (l.foldl (cutActivePeriod g stop id endReason) m).session = m.session := by
    intro l g id
    induction l with
    | nil => exact fun _ => rfl
    | cons p l ih => exact fun m => (ih _).trans (cutActivePeriod_session _ _ _ _ _ _)
  rw [closeReportingGapAtEnd]
  split
  · rfl
  · dsimp only
    split
    · rfl
    · rw [hfold]
      rfl

@[simp] theorem announceEnd_session (m : SessionMutation) (endReason : SessionEndReason)
    (atMs : Int) : (announceEnd m endReason atMs).session = m.session := by
  cases endReason <;> simp [announceEnd]

theorem closeSession_session (m : SessionMutation) (endReason : SessionEndReason) (atMs : Int) :
    let s := (closeSession m endReason atMs).session
    s = { m.session with
      status := endStatus endReason
      endReason := some endReason
      endedAt := some atMs
      usedMs := (clockStop (sessionClock m.session) atMs).usedMs
      runningSince := none
      reportingInterruptedSince := none
      reportingEventId := none
      holdCanReverify := false
      identityState := s.identityState } := by
  simp [closeSession, SessionMutation.closeOpenEvents, SessionMutation.dropPendingBursts]

/-- The end of a session on its row. -/
theorem finalizeSession_session (h : ¬ m.session.status.isTerminal) (endReason : SessionEndReason) :
    let s := (finalizeSession m endReason).session
    s = { m.session with
      status := endStatus endReason
      endReason := some endReason
      endedAt := some (endInstant m endReason)
      usedMs := (clockStop (sessionClock m.session) (endInstant m endReason)).usedMs
      runningSince := none
      reportingInterruptedSince := none
      reportingEventId := none
      holdCanReverify := false
      identityState := s.identityState
      score := s.score } := by
  have hclose := closeSession_session m endReason (endInstant m endReason)
  rw [finalizeSession, if_neg h]
  dsimp only
  split
  · rw [SessionMutation.set_session, hclose]
  · rw [hclose]

end SmartProctoring
