import SmartProctoring.Server.Transitions

/-!
# Candidate recovery: the resume policy and reopening

`services/recovery.ts`.  An exam in progress may be interrupted without a formal pause, but not more
often than `maxReconnects` nor longer than `maxOfflineMinutes`; past a limit the exam is held for
staff or ended.  The offline limit is applied by the sweeper, by the browser's next heartbeat, and
when a new browser window is about to start a reconnect check.  Staff may reopen an ended exam.
-/

set_option autoImplicit false

namespace SmartProctoring

/-! ## The resume policy -/

inductive ResumeLimit
  | reconnects (reconnects maxReconnects : Nat)
  | offline (offlineSince offlineMs : Int) (maxOfflineMinutes : Nat)
  deriving DecidableEq

/-- Message the candidate sees on the hold screen when a limit holds the exam. -/
def resumeLimitHoldMessage (limit : ResumeLimit) : String :=
  let what := match limit with
    | .offline _ _ max =>
      s!"Your exam was disconnected for longer than the exam rules allow ({max} min)"
    | .reconnects _ 0 =>
      "Your exam was opened again in a new browser window, which the exam rules do not allow"
    | .reconnects _ max =>
      let times := if max = 1 then "time" else "times"
      (s!"Your exam was opened in a new browser window more often than the exam rules allow " ++
       s!"({max} {times})")
  what ++ ", so it is on hold. An administrator needs to approve before you can continue. Your " ++
    "answers and remaining time are saved."

/-- Hold or end the exam under the resume policy (`policy.resume.onLimit`). -/
def applyResumeLimit (m : SessionMutation) (policy : ProctoringPolicy) (limit : ResumeLimit) :
    Except HttpError SessionMutation :=
  match policy.resume.onLimit with
  | .end => .ok (finalizeSession m .resumeLimit)
  | .hold => holdNow m { reason := .resumeLimit, message := some (resumeLimitHoldMessage limit) }

/-- Since when the exam has had no browser reporting: the last heartbeat, or the moment the exam
last continued (the open active period started), whichever is later. -/
def offlineSince (m : SessionMutation) : Int :=
  let activeStart := match m.openPeriodRow with
    | some p => if p.kind = .active then p.startedAt else 0
    | none => 0
  max (m.session.lastHeartbeatAt.getD 0) (max activeStart (m.session.startedAt.getD 0))

def offlineLimit (m : SessionMutation) (policy : ProctoringPolicy) : Option ResumeLimit :=
  match policy.resume.maxOfflineMinutes with
  | none => none
  | some max =>
    if m.session.status ≠ .active then none
    else
      let since := offlineSince m
      let offlineMs := m.now - since
      if max.minMs < offlineMs then some (.offline since offlineMs max) else none

/-- The offline limit for a heartbeat that finds its browser silent past the heartbeat timeout with
no sweeper having noticed: applied as the sweeper's offline step would have. -/
def applyOfflineLimit (m : SessionMutation) (policy : ProctoringPolicy) :
    Except HttpError SessionMutation :=
  match offlineLimit m policy with
  | none => .ok m
  | some limit => applyResumeLimit m policy limit

/-- The limit a reconnect check that is about to start has reached, if any. -/
def reconnectLimit (m : SessionMutation) (policy : ProctoringPolicy) : Option ResumeLimit :=
  (offlineLimit m policy).or
    (policy.resume.maxReconnects.bind fun max =>
      if max.val ≤ m.session.reconnectCount then
        some (.reconnects m.session.reconnectCount max) else none)

/-- A new browser window is about to start a reconnect check during the exam: apply the resume
policy first.  Returns whether a limit was applied (the caller then answers 409
`resume_limit_reached` after this commits). -/
def enforceReconnectLimits (m : SessionMutation) (instanceId : InstanceId) :
    Except HttpError (SessionMutation × Bool) :=
  if m.session.status ≠ .active ∨ requiredCheckFor m.session instanceId ≠ some .reconnect then
    .ok (m, false)
  else
    match reconnectLimit m m.policy with
    | none => .ok (m, false)
    | some limit => (applyResumeLimit m m.policy limit).map fun m => (m, true)

/-- The pre-filter of the sweeper's offline step: an active, disconnected exam whose policy snapshot
has an offline limit that the last heartbeat (else the start) is beyond. -/
def offlineLimitDue (s : ExamSession) (now : Int) : Bool :=
  s.status == .active && s.connection == .offline &&
    (s.policy.bind (·.resume.maxOfflineMinutes)).any fun max =>
      (s.lastHeartbeatAt.or s.startedAt).any fun last => decide (last < now - max.minMs)

/-- `enforceOfflineLimits`: the sweeper's step for one session. -/
def enforceOfflineLimits (m : SessionMutation) : Except HttpError SessionMutation :=
  if offlineLimitDue m.session m.now then applyOfflineLimit m m.policy else .ok m

/-! ## Reopening -/

/-- A usable identity reference exists. -/
def hasReference (m : SessionMutation) : Bool :=
  m.references.any fun r => r.active && r.purgedAt.isNone

/-- Whether the session may be reopened now, with the facts read from the database. -/
def loadReopenEligibility (m : SessionMutation) (reviewResolved : Bool) : Option ReopenRefusal :=
  reopenEligibility
    { status := m.session.status
      endReason := m.session.endReason
      startedAt := m.session.startedAt
      evidencePurgedAt := m.session.evidencePurgedAt
      hasReference := hasReference m
      staffVerified := m.policy.identity.verification == .staff
      reviewResolved }

/-- The error code and message of a refusal. -/
def ReopenRefusal.error : ReopenRefusal → HttpError
  | .notEnded => conflict "not_ended" "Only an exam that has ended can be reopened."
  | .candidateSubmitted => conflict "candidate_submitted"
      "The candidate submitted this exam themselves, so it cannot be reopened."
  | .consentWithdrawn => conflict "consent_withdrawn"
      ("The candidate withdrew their consent and the face images of this exam were deleted, so it " ++
       "cannot be reopened. Arrange an alternative assessment instead.")
  | .endReason => conflict "end_reason" "Exams that ended this way cannot be reopened."
  | .evidencePurged => conflict "evidence_purged"
      ("The identity reference and images of this exam were deleted under the retention policy, so " ++
       "the candidate cannot be verified again. It cannot be reopened.")
  | .reviewResolved => conflict "review_resolved"
      ("The review of this exam is complete. Reopen the review first (Review tab) if the exam should " ++
       "continue.")
  | .referenceMissing => conflict "reference_missing"
      ("This exam has no usable identity reference to verify the candidate against, so it cannot be " ++
       "reopened.")

/-- The hold fields reset when a hold ends (`clearedHold`). -/
def clearedHold (s : ExamSession) : ExamSession :=
  { s with
    holdReason := none
    holdSince := none
    holdMessage := none
    holdCanReverify := false
    holdPrevStatus := none
    reEnrollAuthorized := false
    reEnrollAuthorizedBy := none }

def Default.addMinutes : Between 0 1440 := ⟨0, by decide⟩

structure ReopenRequest where
  /-- Minutes added to the exam time. -/
  addMinutes : Between 0 1440 := Default.addMinutes
  reviewResolved : Bool := false

/-- A reopened exam that had started is held until the candidate passes a fresh identity check; from
its old end on nothing is observed. -/
def reopenOnHold (m : SessionMutation) (endedAt : Int) : SessionMutation :=
  let m := m.insertPeriod .onHold endedAt none .recovery { reopenedAt := some m.now }
  let m := m.set fun s =>
    { s with
      status := .onHold
      holdReason := some .recovery
      holdSince := some m.now
      holdMessage := some (HOLD_MESSAGES .recovery)
      holdCanReverify := true
      holdPrevStatus := some .active
      reEnrollAuthorized := false
      reEnrollAuthorizedBy := none }
  m.resetIdentityCounters

/-- A reopened session that never started goes back to the check-in. -/
def reopenToCheckIn (m : SessionMutation) : SessionMutation :=
  m.set fun s =>
    { clearedHold s with
      status := .invited
      verifiedInstanceId := none
      activeInstanceId := none }

/-- Put an ended exam back. -/
def reopenSession (m : SessionMutation) (req : ReopenRequest) :
    Except HttpError SessionMutation := do
  if let some refusal := loadReopenEligibility m req.reviewResolved then throw refusal.error
  let s := m.session
  let addMs := req.addMinutes.minMs
  let remainingAfter := s.durationMs + addMs - s.usedMs
  if s.startedAt.isSome ∧ remainingAfter < REOPEN_MIN_REMAINING_MS then
    throw (conflict "no_time_left"
      "No exam time would be left. Add minutes so the candidate can continue.")
  let m := m.set fun s =>
    { s with
      endReason := none
      endedAt := none
      score := none
      durationMs := s.durationMs + addMs
      reconnectCount := 0
      checkAttemptsResetAt := some m.now
      startDeferredSince := none }
  let m :=
    if s.startedAt.isSome then reopenOnHold m (s.endedAt.getD m.now) else reopenToCheckIn m
  return m.addEvent { type := .sessionReopened, source := some .staff }

end SmartProctoring
