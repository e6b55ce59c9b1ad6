import SmartProctoring.Server.Recovery

/-!
# Staff actions and housekeeping

`services/session-actions.ts`: pause requests, holds and their release, ending, extra time; the
candidate's withdrawal of consent (`services/privacy-requests.ts`) and the closing of abandoned
sessions (`services/abandonment.ts`).  Organisation scoping and audit records are the callers'.
-/

set_option autoImplicit false

namespace SmartProctoring

/-! ## Pause requests -/

def decidePauseRequest (m : SessionMutation) (requestId : Nat) (approve : Bool)
    (note : Option String := none) : Except HttpError SessionMutation := do
  let some req := m.pauseRequests.find? (·.id == requestId)
    | throw (notFound "Pause request not found" "pause_request_not_found")
  if req.status ≠ .pending then
    throw (conflict "already_decided" "This pause request was already decided")
  let decide' (status : PauseRequestStatus) (m : SessionMutation) : SessionMutation :=
    { m with
      pauseRequests := m.pauseRequests.map fun (r : PauseRequest) =>
        if r.id = requestId then { r with status, decidedAt := some m.now } else r }
  if approve then
    m.assertStatus [.active] "The exam is no longer active, so it cannot be paused"
    let m ← pauseNow (decide' .approved m) req.reason
    return m.enqueueCommand .pauseApproved
  else
    let m := (decide' .denied m).addEvent { type := .pauseDenied, source := some .staff }
    return m.enqueueCommand (.pauseDenied note)

/-! ## Holds -/

def holdSession (m : SessionMutation) : Except HttpError SessionMutation := do
  m.assertStatus [.invited, .ready, .active, .paused, .onHold]
  holdNow m { reason := .staff, source := .staff }

def RELEASE_REVERIFY_MESSAGE : String :=
  "An administrator has reviewed your exam. Complete the camera and identity check to continue."

structure ReleaseOptions where
  requireCheck : Bool := true
  reEnroll : Bool := false
  /-- How a staff member verified the candidate was given (`opts.verification`). -/
  verification : Bool := false
  actor : StaffId := ⟨0⟩

/-- What a release without a check, or of a hold from before the check-in, restores. -/
def statusAfterRelease : SessionStatus → SessionStatus
  | .ready => .ready
  | .invited => .invited
  | _ => .active

/-- The exam continues without a check: an active period opens and the clock runs. -/
def continueActive (m : SessionMutation) (reason : PeriodReason) : SessionMutation :=
  ((m.insertPeriod .active m.now none reason).clockStart m.now).resetIdentityCounters

/-- No protected reference yet (hold during the initial check): back to the initial check. -/
def releaseToInitial (m : SessionMutation) : SessionMutation :=
  let m := m.closeOpenPeriod m.now
  let m := m.set fun s =>
    { clearedHold s with
      status := .invited
      checkAttemptsResetAt := some m.now
      verifiedInstanceId := none }
  let m := m.enqueueCommand (.holdReleased true)
  m.enqueueCommand (.requireCheck .initial RELEASE_REVERIFY_MESSAGE)

/-- The hold stays until the candidate passes a check. -/
def releaseToCheck (m : SessionMutation) (reEnroll : Bool) (actor : StaffId) : SessionMutation :=
  let m := m.set fun s =>
    { s with
      holdCanReverify := true
      holdMessage := some RELEASE_REVERIFY_MESSAGE
      reEnrollAuthorized := reEnroll
      reEnrollAuthorizedBy := if reEnroll then some actor else none
      checkAttemptsResetAt := some m.now }
  let m := m.enqueueCommand (.holdReleased true)
  m.enqueueCommand (.requireCheck .reverify RELEASE_REVERIFY_MESSAGE)

/-- Back to where the hold found the session. -/
def releaseToPrevious (m : SessionMutation) (prev : SessionStatus) : SessionMutation :=
  let next := statusAfterRelease prev
  let m := m.closeOpenPeriod m.now
  let m := m.set fun s =>
    { clearedHold s with status := next, checkAttemptsResetAt := some m.now }
  let m := if next = .active then continueActive m .holdReleased else m
  m.enqueueCommand (.holdReleased false)

/-- What every release records; staff decided the candidate may continue after a resume-policy
limit: the allowance starts again. -/
def noteRelease (m : SessionMutation) (verificationHold : Bool) : SessionMutation :=
  let m := if m.session.holdReason = some .resumeLimit then
    m.set fun s => { s with reconnectCount := 0 } else m
  let m := if verificationHold then
    m.addEvent { type := .identityVerifiedByStaff, source := some .staff } else m
  m.addEvent { type := .holdReleased, source := some .staff }

/-- Release a hold.  With `requireCheck` the status stays `on_hold` until the candidate passes a
`reverify` check; a hold raised before a reference existed returns to the initial check; otherwise
the session goes back to where the hold found it. -/
def releaseHold (m : SessionMutation) (opts : ReleaseOptions) :
    Except HttpError SessionMutation := do
  m.assertStatus [.onHold] "The exam is not on hold"
  let staffMode := m.policy.identity.verification == .staff
  let verificationHold := m.session.holdReason == some .staffVerification
  if verificationHold && !opts.verification then
    throw (conflict "verification_required"
      "Confirm that you have verified the candidate’s identity, and how, to release this hold.")
  let reEnroll := !staffMode && opts.reEnroll
  let requireCheck := !verificationHold && (reEnroll || opts.requireCheck)
  let ref := m.references.any (·.active)
  let prev := m.session.holdPrevStatus.getD .active
  let m := noteRelease m verificationHold
  if (if staffMode then prev == .invited else !ref) then return releaseToInitial m
  else if requireCheck then return releaseToCheck m reEnroll opts.actor
  else return releaseToPrevious m prev

/-! ## Ending -/

def terminateSession (m : SessionMutation) : Except HttpError SessionMutation := do
  if m.session.status.isTerminal then throw (invalidState "The exam has already ended")
  return finalizeSession m .staffTerminated

def staffSubmit (m : SessionMutation) : Except HttpError SessionMutation := do
  m.assertStatus [.active, .paused, .onHold] "Only an exam that has started can be submitted"
  return finalizeSession m .staffSubmitted

/-- `withdrawConsent` (`services/privacy-requests.ts`): the transaction that ends the session. -/
def withdrawConsent (m : SessionMutation) : Except HttpError SessionMutation := do
  if m.session.status.isTerminal then throw (invalidState "The exam has already ended.")
  if m.session.consentAcceptedAt.isNone then
    throw (conflict "consent_not_given"
      ("Consent was never given for this exam, so there is nothing to withdraw. You can simply close " ++
       "this page."))
  return finalizeSession m .candidateWithdrew

/-! ## Time extension -/

def extendSessionTime (m : SessionMutation) (minutes : Between 1 1440) :
    Except HttpError SessionMutation := do
  m.assertStatus [.ready, .active, .paused,
    .onHold] "Time can only be extended before the exam ends"
  let m := m.set fun s => { s with durationMs := s.durationMs + minutes.minMs }
  return m.addEvent { type := .timeExtended, source := some .staff }

/-! ## Abandoned sessions -/

def ABANDON_ELIGIBLE : List SessionStatus := [.invited, .ready, .paused, .onHold]

def isAbandonable (s : ExamSession) : Bool :=
  decide (s.status ∈ ABANDON_ELIGIBLE) || (s.status == .active && s.runningSince.isNone)

/-- Latest sign of life; a scheduling window counts as activity until it closes. -/
def lastActivityAt (s : ExamSession) : Int :=
  [s.lastHeartbeatAt, s.holdSince, s.windowStartsAt, s.windowEndsAt].foldl
    (fun a t => max a (t.getD 0)) (max s.createdAt s.updatedAt)

def DAY_MS : Int := 24 * 3600000

/-- `closeAbandonedSessions` for one session of an organisation with this `abandonAfterDays`. -/
def closeAbandonedSession (m : SessionMutation) (days : Nat) : SessionMutation :=
  if isAbandonable m.session ∧ lastActivityAt m.session < m.now - days * DAY_MS then
    finalizeSession m .abandoned
  else m

end SmartProctoring
