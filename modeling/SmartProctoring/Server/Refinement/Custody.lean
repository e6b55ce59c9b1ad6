import SmartProctoring.Server.Custody
import SmartProctoring.Server.Refinement.Requests

/-!
# Every transaction is a few deeds

The operations of the source, one file after the other, refine `Deeds`: the custody after an
operation is reached from the one before it by moves of the kinds the operation may do (`Op.may`).
A release is the only operation that authorises re-enrolment, and completing a check the only one
that establishes a reference.
-/

set_option autoImplicit false

namespace SmartProctoring

variable {D : Deed → Prop} {m m' : SessionMutation}

open SessionMutation

/-! ## Transitions -/

theorem custody_enterPause (m : SessionMutation) (reason : Option String) :
    (enterPause m reason).custody =
      { m.custody.dropBursts.resetAttempts with status := .paused } := by
  rw [enterPause]
  have hclock : (pauseClock m m.policy.pause.timerBehavior).custody = m.custody := by
    cases m.policy.pause.timerBehavior <;> rfl
  rw [custody_addEvent, custody_resetIdentityCounters,
    custody_set _ (fun v => { v with status := .paused, checkAttemptsResetAt := some m.now })
      fun _ => rfl, custody_switchPeriod, custody_closeOpenEvents, hclock]
  rfl

theorem custody_holdPeriod (m : SessionMutation) (reason : HoldReason) (prev : SessionStatus) :
    (holdPeriod m reason prev).custody = m.custody := by
  rw [holdPeriod]
  split
  · rfl
  · exact custody_switchPeriod _ _ _ _ _

theorem custody_stopForHold (m : SessionMutation) : (stopForHold m).custody = m.custody := by
  rw [stopForHold]
  split <;> rfl

theorem custody_enterHold (m : SessionMutation) {opts : HoldOptions}
    (h : opts.canReverify = false) : (enterHold m opts).custody = m.custody.hold := by
  have hstopped : (holdPeriod (stopForHold m) opts.reason m.session.status).custody = m.custody := by
    rw [custody_holdPeriod, custody_stopForHold]
  rw [enterHold]
  rw [custody_enqueueCommand, custody_addEvent, custody_resetIdentityCounters,
    custody_set _ (fun v => { v with
      status := .onHold
      holdCanReverify := opts.canReverify
      reEnrollAuthorized := false
      reEnrollAuthorizedBy := none }) fun _ => rfl, hstopped, h]
  rfl

theorem custody_cutActivePeriod (gapStart stop : Int) (evId : EventId)
    (endReason : SessionEndReason) (m : SessionMutation) (p : SessionPeriod) :
    (cutActivePeriod gapStart stop evId endReason m p).custody = m.custody := by
  have hend : ∀ cut, (endPeriodAt m p cut).custody = m.custody := by
    intro cut
    rw [endPeriodAt]
    split
    · exact custody_closeOpenPeriod _ _
    · split <;> rfl
  rw [cutActivePeriod]
  split
  · rw [custody_insertPeriod, hend]
  · exact hend _

theorem custody_closeReportingGapAtEnd (m : SessionMutation) (stop : Int)
    (endReason : SessionEndReason) :
    (closeReportingGapAtEnd m stop endReason).custody = m.custody := by
  have hfold : ∀ (evId : EventId) (gapStart : Int) (l : List SessionPeriod) (m : SessionMutation),
      (l.foldl (cutActivePeriod gapStart stop evId endReason) m).custody = m.custody := by
    intro evId gapStart l
    induction l with
    | nil => exact fun _ => rfl
    | cons p l ih => exact fun m => (ih _).trans (custody_cutActivePeriod _ _ _ _ _ _)
  rw [closeReportingGapAtEnd]
  split
  · rfl
  · dsimp only
    split
    · rfl
    · exact (hfold _ _ _ _).trans rfl

theorem custody_announceEnd (m : SessionMutation) (endReason : SessionEndReason) (atMs : Int) :
    (announceEnd m endReason atMs).custody = m.custody := by
  cases endReason <;> simp only [announceEnd] <;>
    first
    | exact custody_enqueueCommand_quiet _ _ _ rfl
    | rfl

theorem custody_finalizeSession (h : ¬ m.session.status.isTerminal) (endReason : SessionEndReason) :
    (finalizeSession m endReason).custody = m.custody.finish (endStatus endReason) := by
  have hclosed : ∀ atMs, (closeSession m endReason atMs).custody =
      m.custody.finish (endStatus endReason) := by
    intro atMs
    have hquiet : (((closeReportingGapAtEnd (m.clockStop atMs) atMs endReason).closeOpenEvents
        atMs .sessionEnd).closeOpenPeriod atMs).custody = m.custody := by
      rw [custody_closeOpenPeriod, custody_closeOpenEvents, custody_closeReportingGapAtEnd,
        custody_clockStop]
    rw [closeSession, custody_announceEnd,
      custody_set _ (fun v => { v with
        status := endStatus endReason
        holdCanReverify := false }) fun _ => rfl, ← hquiet]
    rfl
  rw [finalizeSession, if_neg h]
  dsimp only
  split
  · exact (custody_set_quiet _ fun _ => rfl).trans (hclosed _)
  · exact hclosed _

theorem deeds_holdNow {opts : HoldOptions} (hD : D .hold) (h : opts.canReverify = false) :
    (holdNow m opts).Yields fun m' => Deeds D m.custody m'.custody := by
  intro m' hm
  obtain ⟨hs, rfl⟩ := holdNow_eq_ok.1 hm
  rw [custody_enterHold m h]
  exact Deeds.single hD (.hold hs)

theorem deeds_pauseNow {reason : Option String} (hD : D .pause) :
    (pauseNow m reason).Yields fun m' => Deeds D m.custody m'.custody := by
  refine (assertStatus_yields m _ _).bind fun _ hs => .pure ?_
  rw [List.mem_singleton] at hs
  rw [custody_enterPause]
  exact Deeds.single hD (.pause hs)

theorem deeds_finalizeSession {endReason : SessionEndReason} (hD : D .finish) :
    Deeds D m.custody (finalizeSession m endReason).custody := by
  by_cases h : m.session.status.isTerminal
  · exact .of_eq (by rw [finalizeSession, if_pos h])
  · rw [custody_finalizeSession h]
    exact Deeds.single hD (.finish _ h (by cases endReason <;> decide))

theorem deeds_enforceExpiry (hD : D .finish) : Deeds D m.custody (enforceExpiry m).custody := by
  rw [enforceExpiry]
  split
  · exact deeds_finalizeSession hD
  · exact .refl

theorem custody_openOutage (m : SessionMutation) (last : Int) :
    (openOutage m last).custody = m.custody :=
  custody_set_quiet _ fun _ => rfl

theorem custody_recordReportingTimeout (m : SessionMutation) (policy : ProctoringPolicy)
    (last : Int) : (recordReportingTimeout m policy last).custody = m.custody := by
  have hoff : (m.set fun s => { s with connection := .offline }).custody = m.custody :=
    custody_set_quiet _ fun _ => rfl
  rw [recordReportingTimeout]
  split
  · exact hoff
  · split
    · exact (custody_clockStop _ _).trans ((custody_openOutage _ _).trans hoff)
    · exact (custody_openOutage _ _).trans hoff

theorem custody_refreshSessionAccommodations (m : SessionMutation) (rows : List Accommodation) :
    (refreshSessionAccommodations m rows).custody = m.custody := by
  rw [refreshSessionAccommodations]
  split
  · rfl
  · refine custody_set_quiet m fun s => ?_
    rw [refreshedSession]
    split <;> rfl

/-! ## Session actions -/

theorem deeds_decidePauseRequest {id : Nat} {approve : Bool} {note : Option String}
    (hD : D .pause) :
    (decidePauseRequest m id approve note).Yields fun m' => Deeds D m.custody m'.custody := by
  rw [decidePauseRequest]
  split
  next =>
    refine .guard fun _ => .ite (fun _ => ?_) fun _ => .pure (.of_eq ?_)
    · refine (assertStatus_yields m _ _).bind fun _ _ => ?_
      refine (deeds_pauseNow hD).bind fun m' hm => .pure ?_
      exact hm.trans (Deeds.of_eq (custody_enqueueCommand_quiet _ _ _ rfl))
    · exact custody_enqueueCommand_quiet _ _ _ rfl
  next => exact .thrown _

theorem deeds_holdSession (hD : D .hold) :
    (holdSession m).Yields fun m' => Deeds D m.custody m'.custody :=
  (assertStatus_yields m _ _).bind fun _ _ => deeds_holdNow hD rfl

theorem custody_noteRelease (m : SessionMutation) (verificationHold : Bool) :
    (noteRelease m verificationHold).custody = m.custody := by
  have hcount : (if m.session.holdReason = some .resumeLimit then
      m.set fun s => { s with reconnectCount := 0 } else m).custody = m.custody := by
    split
    · exact custody_set_quiet _ fun _ => rfl
    · rfl
  cases verificationHold <;> exact hcount

theorem custody_continueActive (m : SessionMutation) (reason : PeriodReason) :
    (continueActive m reason).custody = m.custody.dropBursts := by
  rw [continueActive, custody_resetIdentityCounters, custody_clockStart, custody_insertPeriod]

theorem custody_releasedRow (m : SessionMutation) (st : SessionStatus)
    {f : ExamSession → ExamSession}
    (h : ∀ s, (f s).custody =
      { s.custody with
        status := st
        holdCanReverify := false
        reEnrollAuthorized := false
        reEnrollAuthorizedBy := none
        checkAttemptsResetAt := some (m.closeOpenPeriod m.now).now }) :
    ((m.closeOpenPeriod m.now).set f).custody =
      { m.custody.cleared.resetAttempts with status := st } := by
  rw [custody_set _ (fun v => { v with
    status := st
    holdCanReverify := false
    reEnrollAuthorized := false
    reEnrollAuthorizedBy := none
    checkAttemptsResetAt := some (m.closeOpenPeriod m.now).now }) h, custody_closeOpenPeriod,
    closeOpenPeriod_now]
  rfl

theorem deeds_releaseToInitial (hs : m.session.status = .onHold) (hD : D .release) :
    Deeds D m.custody (releaseToInitial m).custody := by
  rw [releaseToInitial, custody_enqueueCommand_quiet _ _ _ rfl,
    custody_enqueueCommand_quiet _ _ _ rfl, custody_releasedRow m .invited fun _ => rfl]
  exact Deeds.single hD (.release .invited hs (.inl rfl))

theorem deeds_releaseToCheck {reEnroll : Bool} {actor : StaffId} (hs : m.session.status = .onHold)
    (hD : D .release) (hA : reEnroll = true → D .authorise) :
    Deeds D m.custody (releaseToCheck m reEnroll actor).custody := by
  rw [releaseToCheck, custody_enqueueCommand_quiet _ _ _ rfl,
    custody_enqueueCommand_quiet _ _ _ rfl]
  cases reEnroll with
  | false => exact Deeds.single hD (.requireCheck actor hs)
  | true => exact Deeds.single (hA rfl) (.authorise actor hs)

theorem deeds_releaseToPrevious {prev : SessionStatus} (hs : m.session.status = .onHold)
    (hD : D .release) : Deeds D m.custody (releaseToPrevious m prev).custody := by
  rw [releaseToPrevious, custody_enqueueCommand_quiet _ _ _ rfl]
  have hnext : statusAfterRelease prev = .active ∨ statusAfterRelease prev = .invited ∨
      statusAfterRelease prev = .ready := by
    cases prev <;> simp [statusAfterRelease]
  generalize statusAfterRelease prev = next at hnext ⊢
  obtain rfl | hnext := hnext
  · rw [if_pos rfl, custody_continueActive, custody_releasedRow m .active fun _ => rfl]
    exact Deeds.single hD (.releaseActive hs)
  · rw [if_neg (by obtain rfl | rfl := hnext <;> decide),
      custody_releasedRow m next fun _ => rfl]
    exact Deeds.single hD (.release next hs hnext)

theorem deeds_releaseHold {opts : ReleaseOptions} (hD : D .release)
    (hA : opts.reEnroll = true → D .authorise) :
    (releaseHold m opts).Yields fun m' => Deeds D m.custody m'.custody := by
  refine (assertStatus_yields m _ _).bind fun _ hs => .guard fun _ => ?_
  rw [List.mem_singleton] at hs
  have hnote := custody_noteRelease m (m.session.holdReason == some .staffVerification)
  generalize noteRelease m (m.session.holdReason == some .staffVerification) = n at hnote ⊢
  rw [← hnote]
  have hsn : n.session.status = .onHold := (congrArg Custody.status hnote).trans hs
  refine .ite (fun _ => .pure (deeds_releaseToInitial hsn hD)) fun _ =>
    .ite (fun _ => .pure ?_) fun _ => .pure (deeds_releaseToPrevious hsn hD)
  refine deeds_releaseToCheck hsn hD fun h => hA ?_
  rw [Bool.and_eq_true] at h
  exact h.2

theorem deeds_terminateSession (hD : D .finish) :
    (terminateSession m).Yields fun m' => Deeds D m.custody m'.custody := by
  rw [terminateSession]
  exact .guard fun _ => .pure (deeds_finalizeSession hD)

theorem deeds_staffSubmit (hD : D .finish) :
    (staffSubmit m).Yields fun m' => Deeds D m.custody m'.custody :=
  (assertStatus_yields m _ _).bind fun _ _ => .pure (deeds_finalizeSession hD)

theorem deeds_withdrawConsent (hD : D .finish) :
    (withdrawConsent m).Yields fun m' => Deeds D m.custody m'.custody := by
  rw [withdrawConsent]
  exact .guard fun _ => .guard fun _ => .pure (deeds_finalizeSession hD)

theorem deeds_closeAbandonedSession {days : Nat} (hD : D .finish) :
    Deeds D m.custody (closeAbandonedSession m days).custody := by
  rw [closeAbandonedSession]
  split
  · exact deeds_finalizeSession hD
  · exact .refl

theorem custody_extendSessionTime {minutes : Between 1 1440} :
    (extendSessionTime m minutes).Yields fun m' => m'.custody = m.custody :=
  (assertStatus_yields m _ _).bind fun _ _ => .pure rfl

/-! ## Recovery -/

variable {policy : ProctoringPolicy}

theorem deeds_applyResumeLimit {limit : ResumeLimit} (hH : D .hold) (hF : D .finish) :
    (applyResumeLimit m policy limit).Yields fun m' => Deeds D m.custody m'.custody := by
  rw [applyResumeLimit]
  split
  · exact .ok (deeds_finalizeSession hF)
  · exact deeds_holdNow hH rfl

theorem deeds_applyOfflineLimit (hH : D .hold) (hF : D .finish) :
    (applyOfflineLimit m policy).Yields fun m' => Deeds D m.custody m'.custody := by
  rw [applyOfflineLimit]
  split
  · exact .ok .refl
  · exact deeds_applyResumeLimit hH hF

variable {instanceId : InstanceId}

theorem deeds_enforceReconnectLimits (hH : D .hold) (hF : D .finish) :
    (enforceReconnectLimits m instanceId).Yields fun r => Deeds D m.custody r.1.custody := by
  refine .ite (fun _ => .ok .refl) fun _ => ?_
  split
  · exact .ok .refl
  · exact Except.Yields.map (f := fun m => (m, true)) (deeds_applyResumeLimit hH hF)

theorem deeds_enforceOfflineLimits (hH : D .hold) (hF : D .finish) :
    (enforceOfflineLimits m).Yields fun m' => Deeds D m.custody m'.custody := by
  exact .ite (fun _ => deeds_applyOfflineLimit hH hF) fun _ => .ok .refl

theorem deeds_reopenSession {req : ReopenRequest} (hD : D .reopen) :
    (reopenSession m req).Yields fun m' => Deeds D m.custody m'.custody := by
  rw [reopenSession]
  split
  next => exact .thrown _
  next helig =>
    rw [← Option.eq_none_iff_forall_ne_some] at helig
    have hs : m.session.status.isTerminal := reopenEligibility_terminal helig
    refine .guard fun _ => .pure ?_
    rw [custody_addEvent]
    split
    · exact Deeds.single hD (.reopenOnHold hs)
    · exact Deeds.single hD (.reopenToCheckIn hs)

/-! ## The candidate's actions and the heartbeat -/

theorem custody_beginExam (m : SessionMutation) (policy : ProctoringPolicy)
    (acc : Option SessionAccommodations) :
    (beginExam m policy acc).custody = { m.custody.dropBursts with status := .active } := by
  have hstart : (beginExam m policy acc).custody = (m.custody.mapRow fun v =>
      { v with status := .active }).dropBursts := by
    rw [beginExam]
    split
    all_goals
      simp only [custody_addEvent, custody_resetIdentityCounters, custody_switchPeriod,
        custody_clockStart]
      rw [custody_set _ (fun v => { v with status := .active }) fun _ => rfl]
  rw [hstart]
  rfl

theorem deeds_startExam {opts : StartOptions} (hD : D .start) :
    (startExam m opts).Yields fun m' => Deeds D m.custody m'.custody := by
  refine (assertStatus_yields m _ _).bind fun _ hs => ?_
  rw [List.mem_singleton] at hs
  refine .guard fun _ => .guard fun _ => .pure ?_
  have hrefresh := custody_refreshSessionAccommodations m opts.records
  rw [custody_beginExam, hrefresh]
  exact Deeds.single hD (.start hs)

theorem deeds_startSession {opts : StartOptions} {admission : StartAdmission} (hD : D .start) :
    (startSession m instanceId opts admission).Yields fun r => Deeds D m.custody r.1.custody := by
  refine .bind (P := fun _ => True) (fun _ _ => trivial) fun _ _ => .whenever ?_
  refine .ite (fun _ => .pure (Deeds.of_eq (custody_set_quiet _ fun _ => rfl))) fun _ => ?_
  exact (deeds_startExam hD).bind fun n hn => .pure hn

theorem custody_acceptConsent {bodyVersion noticeVersion : NoticeVersion} :
    (acceptConsent m bodyVersion noticeVersion).Yields fun m' => m'.custody = m.custody := by
  rw [acceptConsent]
  exact .guard fun _ => .guard fun _ => .ite (fun _ => .pure rfl) fun _ =>
    .pure (custody_set_quiet _ fun _ => rfl)

theorem deeds_candidateSubmit (hD : D .finish) :
    (candidateSubmit m instanceId).Yields fun m' => Deeds D m.custody m'.custody := by
  refine .ite (fun _ => .pure .refl) fun _ => ?_
  refine (assertInControl_yields _ _).bind fun _ _ => ?_
  exact (assertStatus_yields m _ _).bind fun _ _ => .pure (deeds_finalizeSession hD)

theorem custody_saveAnswer {questions : List ExamVersionQuestion}
    {questionId : QuestionId} {body : SaveAnswerRequest} :
    (saveAnswer m instanceId questions questionId body).Yields fun r =>
      r.1.custody = m.custody := by
  rw [saveAnswer]
  split
  next =>
    refine .bind (P := fun _ => True) (fun _ _ => trivial) fun _ _ => ?_
    exact (assertInControl_yields _ _).bind fun _ _ => .guard fun _ => .pure rfl
  next => exact .thrown _

theorem deeds_requestPause {reason : Option String} (hP : D .pause) (hN : D .number) :
    (requestPause m instanceId reason).Yields fun r => Deeds D m.custody r.1.custody := by
  refine (assertInControl_yields _ _).bind fun _ _ => (assertStatus_yields m _ _).bind fun _ _ => ?_
  refine .ite (fun _ => .pure .refl) fun _ => .ite (fun _ => .pure .refl) fun _ =>
    .guard fun _ => .ite (fun _ => .pure .refl) fun _ => .ite (fun _ => .pure ?_) fun _ => ?_
  · exact Deeds.single hN .number
  · exact (deeds_pauseNow hP).bind fun n hn => .pure hn

theorem custody_cancelPauseRequest :
    (cancelPauseRequest m instanceId).Yields fun m' => m'.custody = m.custody := by
  refine (assertInControl_yields _ _).bind fun _ _ => ?_
  split <;> exact .pure rfl

theorem countP_deliverCommands (now : Int) (sel : SessionCommand → Bool) (limit : Nat)
    (rows : List SessionCommand) :
    (deliverCommands now sel limit rows).1.countP (·.command.isHold) =
      rows.countP (·.command.isHold) := by
  fun_induction deliverCommands now sel limit rows with
  | case1 => rfl
  | case2 => rfl
  | case3 limit c rows h rest sent hrest ih =>
    rw [hrest] at ih
    simp only [List.countP_cons, ih]
  | case4 limit c rows h rest sent hrest ih =>
    rw [hrest] at ih
    simp only [List.countP_cons, ih]

theorem custody_deliver (m : SessionMutation) (sel : SessionCommand → Bool) :
    (m.deliver sel).1.custody = m.custody := by
  have hcount := countP_deliverCommands m.now sel 50 m.commands
  change { m.custody with
    holds := (deliverCommands m.now sel 50 m.commands).1.countP (·.command.isHold) } = m.custody
  rw [hcount]
  rfl

theorem custody_recordMultipleInstances (m : SessionMutation) (previous new : InstanceId)
    (purpose : Option CheckPurpose) :
    (recordMultipleInstances m previous new purpose).custody = m.custody := by
  rw [recordMultipleInstances]
  split <;> rfl

theorem custody_supersededHeartbeat (m : SessionMutation) (instanceId : InstanceId) :
    (supersededHeartbeat m instanceId).1.custody = m.custody := by
  have hdeliver := custody_deliver m fun c => c.targetInstanceId == some instanceId
  rw [supersededHeartbeat]
  dsimp only
  split
  · split
    · exact (custody_recordMultipleInstances _ _ _ _).trans hdeliver
    · exact hdeliver
  · exact hdeliver

theorem custody_heartbeatPatch (m : SessionMutation) (instanceId : InstanceId)
    (body : HeartbeatRequest) (usage : Option UsageVerdict) :
    (m.set fun s => heartbeatPatch s instanceId body usage m.now).custody = m.custody :=
  custody_set_quiet _ fun s => by
    rw [heartbeatPatch]
    split <;> rfl

theorem custody_fastHeartbeat (m : SessionMutation) (loaded : LoadedSession)
    (instanceId : InstanceId) (body : HeartbeatRequest) (client : Option ClientAddress) :
    (fastHeartbeat m loaded instanceId body client).1.custody = m.custody := by
  rw [fastHeartbeat]
  dsimp only
  split
  · rfl
  · split
    · rfl
    next hs =>
      rw [not_not] at hs
      rw [hs]
      split <;> exact custody_heartbeatPatch _ _ _ _

theorem deeds_recordLateOutage (hH : D .hold) (hF : D .finish) :
    (recordLateOutage m instanceId).Yields fun m' => Deeds D m.custody m'.custody := by
  refine .ite (fun _ => ?_) fun _ => .ok .refl
  rw [← custody_recordReportingTimeout m m.policy]
  exact deeds_applyOfflineLimit hH hF

theorem custody_applyInstanceUsage (m : SessionMutation) (verdict : Option UsageVerdict) :
    (applyInstanceUsage m verdict).custody = m.custody := by
  cases verdict with
  | none => rfl
  | some v =>
    rw [applyInstanceUsage]
    split
    · split
      · exact custody_set_quiet _ fun _ => rfl
      · rfl
    · exact custody_enqueueCommand_quiet _ _ _ rfl

theorem custody_hearFrom (m : SessionMutation) (instanceId : InstanceId) (body : HeartbeatRequest)
    (client : Option ClientAddress) : (hearFrom m instanceId body client).custody = m.custody := by
  have hend : ∀ n : SessionMutation, (endOutage n).custody = n.custody := by
    intro n
    rw [endOutage]
    split <;> rfl
  have hclock : ∀ n : SessionMutation, (restartClock n).custody = n.custody := by
    intro n
    rw [restartClock]
    split <;> rfl
  have hreport : ∀ n : SessionMutation, (reportVerified n instanceId body).custody = n.custody := by
    intro n
    rw [reportVerified]
    split
    · exact (custody_set_quiet _ fun _ => rfl).trans ((hclock _).trans ((hend _).trans rfl))
    · rfl
  rw [hearFrom, hreport, custody_applyInstanceUsage]
  rfl

theorem custody_answerHeartbeat (m : SessionMutation) (instanceId : InstanceId)
    (body : HeartbeatRequest) :
    (answerHeartbeat m instanceId body).1.custody = m.custody := by
  have hdeliver := custody_deliver m fun c => c.targetInstanceId.all fun i => i == instanceId
  rw [answerHeartbeat]
  dsimp only
  split
  · exact (custody_setIdentityState_quiet _ _ rfl rfl).trans hdeliver
  · exact hdeliver

theorem deeds_lockedHeartbeat {body : HeartbeatRequest}
    {client : Option ClientAddress} (hH : D .hold) (hF : D .finish) :
    (lockedHeartbeat m instanceId body client).Yields fun r => Deeds D m.custody r.1.custody := by
  refine .ite (fun _ => .pure (Deeds.of_eq (custody_supersededHeartbeat _ _))) fun _ => ?_
  refine (deeds_recordLateOutage hH hF).bind fun n hn => .pure ?_
  have hheard := custody_hearFrom n instanceId body client
  refine (hn.trans (Deeds.of_eq hheard)).trans ?_
  exact (deeds_enforceExpiry hF).trans (Deeds.of_eq (custody_answerHeartbeat _ _ _))

theorem deeds_heartbeat {body : HeartbeatRequest}
    {client : Option ClientAddress} {loaded : Option LoadedSession} (hH : D .hold)
    (hF : D .finish) :
    (heartbeat m instanceId body client loaded).Yields fun r => Deeds D m.custody r.1.custody := by
  rw [heartbeat.eq_def]
  refine .guard fun _ => ?_
  cases loaded with
  | none => exact deeds_lockedHeartbeat hH hF
  | some loaded =>
    dsimp only
    have hfast := custody_fastHeartbeat m loaded instanceId body client
    split
    next n response h =>
      rw [h] at hfast
      exact .pure (Deeds.of_eq hfast)
    next n h =>
      rw [h] at hfast
      rw [← hfast]
      exact deeds_lockedHeartbeat hH hF

theorem deeds_ingestEvents {batch : List EventUpsert} {foreign : EventId → Bool} (hH : D .hold) :
    (ingestEvents m policy instanceId batch foreign).Yields fun r =>
      Deeds D m.custody r.1.custody := by
  refine (assertInControl_yields _ _).bind fun _ _ => ?_
  refine .ite (fun _ => ?_) fun _ => .pure .refl
  exact (deeds_holdNow hH rfl).bind fun n hn => .pure hn

theorem deeds_holdForSample (hH : D .hold) :
    (holdForSample m).Yields fun m' => Deeds D m.custody m'.custody := by
  exact .ite (fun _ => deeds_holdNow hH rfl) fun _ => .ok .refl

theorem custody_sweepTimeout (m : SessionMutation) : (sweepTimeout m).custody = m.custody := by
  rw [sweepTimeout]
  split
  · split
    · rfl
    · split
      · rfl
      · exact custody_recordReportingTimeout _ _ _
  · rfl

theorem deeds_sweepExpiry (hF : D .finish) : Deeds D m.custody (sweepExpiry m).custody := by
  rw [sweepExpiry]
  split
  · exact deeds_enforceExpiry hF
  · exact .refl

end SmartProctoring
