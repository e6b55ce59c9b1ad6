import SmartProctoring.Server.IngestRows
import SmartProctoring.Server.Refinement.Checks

/-!
# Every transaction is a few moves: requests

The candidate's actions, the heartbeat, the sweeper's steps and event ingest; and from all
operations together, what a request does to a session (`moves_sessionStep`).
-/

set_option autoImplicit false

namespace SmartProctoring

variable {G : Gate} {m m' : SessionMutation}

open SessionMutation

/-! ## Starting the exam -/

theorem lifecycle_beginExam (m : SessionMutation) (policy : ProctoringPolicy)
    (acc : Option SessionAccommodations) :
    (beginExam m policy acc).lifecycle =
      m.lifecycle.start (extraTimeOf (acc.filter fun a => !a.items.isEmpty)) := by
  refine (lifecycle_addEvent_if _ _ _ rfl).trans ((lifecycle_addEvent _ _ rfl).trans ?_)
  rw [lifecycle_resetIdentityCounters, lifecycle_switchPeriod, lifecycle_clockStart]
  rfl

theorem moves_startExam (opts : StartOptions) (hS : G.starts)
    (hG : G.duration → RefreshedUnused m) :
    (startExam m opts).Yields fun m' => Moves G m.lifecycle m'.lifecycle := by
  refine (assertStatus_yields m _ _).bind fun _ hs => ?_
  rw [List.mem_singleton] at hs
  refine .guard fun _ => .guard fun _ => .pure ?_
  have hstatus : (refreshSessionAccommodations m opts.records).session.status = .ready := by
    rw [refreshSessionAccommodations]
    split
    · exact hs
    · rw [SessionMutation.set, refreshedSession_eq]
      exact hs
  rw [lifecycle_beginExam]
  exact (moves_refreshSessionAccommodations hG).tail (.start _ hstatus hS)

variable {instanceId : InstanceId}

theorem moves_startSession {opts : StartOptions}
    {admission : StartAdmission} (hS : G.starts) (hG : G.duration → RefreshedUnused m) :
    (startSession m instanceId opts admission).Yields fun r =>
      Moves G m.lifecycle r.1.lifecycle := by
  refine .bind (P := fun _ => True) (fun _ _ => trivial) fun _ _ => .whenever ?_
  refine .ite (fun _ => .pure (Moves.of_eq (lifecycle_set_quiet _ fun _ => rfl))) fun _ => ?_
  exact (moves_startExam { opts with instanceId := some instanceId } hS hG).bind fun n hn =>
    .pure hn

/-! ## Answers, pauses, consent, submission -/

theorem moves_acceptConsent {bodyVersion noticeVersion : NoticeVersion} :
    (acceptConsent m bodyVersion noticeVersion).Yields fun m' =>
      Moves G m.lifecycle m'.lifecycle := by
  rw [acceptConsent]
  exact .guard fun _ => .guard fun _ => .ite (fun _ => .pure .refl) fun _ =>
    .pure (Moves.of_eq (lifecycle_set_quiet _ fun _ => rfl))

theorem assertInControl_yields (s : ExamSession) (instanceId : InstanceId) :
    (assertInControl s instanceId).Yields fun _ => True := fun _ _ => trivial

theorem moves_candidateSubmit :
    (candidateSubmit m instanceId).Yields fun m' => Moves G m.lifecycle m'.lifecycle := by
  refine .ite (fun _ => .pure .refl) fun _ => ?_
  refine (assertInControl_yields _ _).bind fun _ _ => ?_
  exact (assertStatus_yields m _ _).bind fun _ _ => .pure (moves_finalizeSession_of_ne (by decide))

/-- When an answer was given, as far as the server believes it. -/
def answeredAt (m : SessionMutation) (body : SaveAnswerRequest) : Int :=
  min (body.answeredAt.getD m.now) m.now

/-- An answer the session takes was given before the running clock ran out. -/
def AnswerInTime (m : SessionMutation) (body : SaveAnswerRequest) : Prop :=
  answerAllowed m (answeredAt m body) = true → m.lifecycle.InTime (answeredAt m body)
  deriving Decidable

theorem moves_saveAnswer {questions : List ExamVersionQuestion}
    {questionId : QuestionId} {body : SaveAnswerRequest}
    (hG : G.answers → AnswerInTime m body) :
    (saveAnswer m instanceId questions questionId body).Yields fun r =>
      Moves G m.lifecycle r.1.lifecycle := by
  rw [saveAnswer]
  split
  next q _ =>
    refine .bind (P := fun _ => True) (fun _ _ => trivial) fun _ _ => ?_
    refine (assertInControl_yields _ _).bind fun _ _ => .guard fun hallowed => .pure ?_
    have hs : ¬ m.session.status.isTerminal := by
      rw [SessionStatus.isTerminal_iff]
      rintro (hs | hs) <;> simp [answerAllowed, hs] at hallowed
    rw [Bool.not_eq_true', Bool.not_eq_false] at hallowed
    exact .single (.save _ hs (min_le_right _ _) fun ha => hG ha hallowed)
  next => exact .thrown _

theorem moves_requestPause {reason : Option String} (hG : G.starts) :
    (requestPause m instanceId reason).Yields fun r => Moves G m.lifecycle r.1.lifecycle := by
  refine (assertInControl_yields _ _).bind fun _ _ => (assertStatus_yields m _ _).bind fun _ _ => ?_
  refine .ite (fun _ => .pure .refl) fun _ => .ite (fun _ => .pure .refl) fun _ =>
    .guard fun _ => .ite (fun _ => .pure .refl) fun _ => .ite (fun _ => .pure ?_) fun _ => ?_
  · exact Moves.of_eq (lifecycle_addEvent _ _ rfl)
  · exact (moves_pauseNow hG).bind fun n hn => .pure hn

theorem moves_cancelPauseRequest :
    (cancelPauseRequest m instanceId).Yields fun m' => Moves G m.lifecycle m'.lifecycle := by
  refine (assertInControl_yields _ _).bind fun _ _ => ?_
  split
  · exact .pure .refl
  · exact .pure .refl

/-! ## The heartbeat -/

theorem lifecycle_hear (m : SessionMutation) (instanceId : InstanceId) :
    (hear m instanceId).lifecycle = { m.lifecycle with lastHeartbeatAt := some m.now } :=
  lifecycle_set m (fun v => { v with lastHeartbeatAt := some m.now }) fun _ => rfl

theorem lifecycle_heartbeatPatch (m : SessionMutation) (instanceId : InstanceId)
    (body : HeartbeatRequest) (usage : Option UsageVerdict) :
    (m.set fun s => heartbeatPatch s instanceId body usage m.now).lifecycle =
      { m.lifecycle with lastHeartbeatAt := some m.now } :=
  lifecycle_set m (fun v => { v with lastHeartbeatAt := some m.now }) fun s => by
    rw [heartbeatPatch]
    split <;> rfl

theorem moves_fastHeartbeat (m : SessionMutation) (loaded : LoadedSession)
    (instanceId : InstanceId) (body : HeartbeatRequest) (client : Option ClientAddress) :
    Moves G m.lifecycle (fastHeartbeat m loaded instanceId body client).1.lifecycle := by
  rw [fastHeartbeat]
  dsimp only
  split
  · exact .refl
  · split
    · exact .refl
    next hs =>
      rw [not_not] at hs
      have hmove : Moves G m.lifecycle { m.lifecycle with lastHeartbeatAt := some m.now } :=
        .single .hear
      rw [← lifecycle_heartbeatPatch m instanceId body (heartbeatUsage m.session instanceId body
        client m.now)] at hmove
      rw [hs]
      split <;> exact hmove

theorem lifecycle_supersededHeartbeat (m : SessionMutation) (instanceId : InstanceId) :
    (supersededHeartbeat m instanceId).1.lifecycle = m.lifecycle := by
  rw [supersededHeartbeat]
  dsimp only
  split
  · split
    · exact lifecycle_recordMultipleInstances _ _ _ _
    · rfl
  · rfl

theorem moves_recordLateOutage :
    (recordLateOutage m instanceId).Yields fun m' => Moves G m.lifecycle m'.lifecycle := by
  refine .ite (fun h => ?_) fun _ => .ok .refl
  obtain ⟨last, hlast⟩ : ∃ last, m.session.lastHeartbeatAt = some last := by
    have hout := h.2
    rw [reportingTimedOut, Bool.and_eq_true, Option.any_eq_true] at hout
    obtain ⟨last, hlast, -⟩ := hout.2
    exact ⟨last, hlast⟩
  rw [hlast]
  exact moves_applyOfflineLimit.mono fun n hn => (moves_recordReportingTimeout hlast).trans hn

theorem lifecycle_applyInstanceUsage (m : SessionMutation) (verdict : Option UsageVerdict) :
    (applyInstanceUsage m verdict).lifecycle = m.lifecycle := by
  cases verdict with
  | none => rfl
  | some v =>
    rw [applyInstanceUsage]
    split
    · split
      · exact lifecycle_set_quiet _ fun _ => rfl
      · rfl
    · rw [lifecycle_enqueueCommand]
      exact (lifecycle_set_quiet _ fun _ => rfl).trans (lifecycle_addEvent _ _ rfl)

theorem moves_endOutage : Moves G m.lifecycle (endOutage m).lifecycle := by
  rw [endOutage]
  split
  next id _ =>
    have h := lifecycle_closeEvents m (fun e => e.id == id) m.now
      fun d => { d with closedBy := some .heartbeatResumed }
    exact (Moves.single (.closeReports _ _ _ (.inl le_rfl))).trans
      (Moves.of_eq ((lifecycle_set_quiet _ fun _ => rfl).trans h))
  next => exact .refl

theorem moves_restartClock (hG : G.starts) : Moves G m.lifecycle (restartClock m).lifecycle := by
  rw [restartClock]
  split
  next h =>
    rw [lifecycle_clockStart]
    exact .single (.restart h.1 hG)
  next => exact .refl

variable {body : HeartbeatRequest}

theorem moves_reportVerified (hG : G.starts) :
    Moves G m.lifecycle (reportVerified m instanceId body).lifecycle := by
  rw [reportVerified]
  split
  · have h := lifecycle_set_quiet m (f := fun s =>
      { s with
        lastVerifiedHeartbeatAt := some m.now
        monitoring := some (heartbeatMonitoring body m.now)
        currentQuestionIndex := body.currentQuestionIndex.getD s.currentQuestionIndex })
      fun _ => rfl
    refine Relation.ReflTransGen.trans ?_ (Moves.of_eq (lifecycle_set_quiet _ fun _ => rfl))
    refine .trans ?_ (moves_restartClock hG)
    exact (Moves.of_eq h).trans moves_endOutage
  · exact .refl

variable {client : Option ClientAddress}

theorem moves_hearFrom (hG : G.starts) :
    Moves G m.lifecycle (hearFrom m instanceId body client).lifecycle := by
  have hhear : Move G m.lifecycle (hear m instanceId).lifecycle :=
    lifecycle_hear m instanceId ▸ .hear
  have husage := lifecycle_applyInstanceUsage (hear m instanceId) (heartbeatUsage
    (hear m instanceId).session instanceId body client (hear m instanceId).now)
  exact ((Moves.single hhear).trans (Moves.of_eq husage)).trans (moves_reportVerified hG)

theorem lifecycle_answerHeartbeat (m : SessionMutation) (instanceId : InstanceId)
    (body : HeartbeatRequest) :
    (answerHeartbeat m instanceId body).1.lifecycle = m.lifecycle := by
  rw [answerHeartbeat]
  dsimp only
  split
  · exact (lifecycle_setIdentityState _ _).trans (lifecycle_addEvent _ _ rfl)
  · rfl

/-- When a heartbeat of this window looks at the exam time, the time did not run out before anything
reported of the event so far. -/
def HeartbeatExpiryAfterReports (ev : EventId) (m : SessionMutation) (instanceId : InstanceId)
    (body : HeartbeatRequest) (client : Option ClientAddress) : Prop :=
  ∀ n, recordLateOutage m instanceId = .ok n →
  ExpiryAfterReports ev (hearFrom n instanceId body client)

instance (ev : EventId) (m : SessionMutation) (instanceId : InstanceId) (body : HeartbeatRequest)
    (client : Option ClientAddress) :
    Decidable (HeartbeatExpiryAfterReports ev m instanceId body client) :=
  match h : recordLateOutage m instanceId with
  | .ok n => decidable_of_iff (ExpiryAfterReports ev (hearFrom n instanceId body client))
      ⟨fun hn n' hn' => by cases h.symm.trans hn'; exact hn, fun hall => hall n h⟩
  | .error _ => .isTrue fun n hn => by cases h.symm.trans hn

theorem moves_lockedHeartbeat (hS : G.starts) (hE : G.expires)
    (hG : ∀ ev, G.reports ev → HeartbeatExpiryAfterReports ev m instanceId body client) :
    (lockedHeartbeat m instanceId body client).Yields fun r => Moves G m.lifecycle r.1.lifecycle := by
  refine .ite (fun _ => .pure (Moves.of_eq (lifecycle_supersededHeartbeat _ _))) fun _ => ?_
  have hlate : (recordLateOutage m instanceId).Yields fun n =>
      Moves G m.lifecycle n.lifecycle ∧ recordLateOutage m instanceId = .ok n :=
    fun n hn => ⟨moves_recordLateOutage n hn, hn⟩
  refine hlate.bind fun n hn => .pure ?_
  have hmoves := (hn.1.trans (moves_hearFrom hS)).trans
    (moves_enforceExpiry hE fun ev hr => hG ev hr n hn.2)
  exact hmoves.trans (Moves.of_eq (lifecycle_answerHeartbeat _ _ _))

/-- The session as the locked heartbeat finds it: the fast one may have been committed first. -/
def beforeLocked (m : SessionMutation) (instanceId : InstanceId) (body : HeartbeatRequest)
    (client : Option ClientAddress) (loaded : Option LoadedSession) : SessionMutation :=
  match loaded with
  | none => m
  | some loaded => (fastHeartbeat m loaded instanceId body client).1

theorem moves_heartbeat {loaded : Option LoadedSession} (hS : G.starts)
    (hE : G.expires) (hG : ∀ ev, G.reports ev → HeartbeatExpiryAfterReports ev
      (beforeLocked m instanceId body client loaded) instanceId body client) :
    (heartbeat m instanceId body client loaded).Yields fun r =>
      Moves G m.lifecycle r.1.lifecycle := by
  rw [heartbeat.eq_def]
  refine .guard fun _ => ?_
  cases loaded with
  | none => exact moves_lockedHeartbeat hS hE hG
  | some loaded =>
    dsimp only
    have hfast := moves_fastHeartbeat (G := G) m loaded instanceId body client
    rw [beforeLocked] at hG
    split
    next n response h =>
      rw [h] at hfast
      exact .pure hfast
    next n h =>
      rw [h] at hfast hG
      exact (moves_lockedHeartbeat hS hE hG).mono fun r hr => hfast.trans hr

/-! ## The sweeper and event ingest -/

theorem moves_sweepTimeout : Moves G m.lifecycle (sweepTimeout m).lifecycle := by
  rw [sweepTimeout]
  split
  · split
    · exact .refl
    next last hlast =>
      split
      · exact .refl
      · exact moves_recordReportingTimeout hlast
  · exact .refl

theorem moves_sweepExpiry (hE : G.expires) (hG : ∀ ev, G.reports ev → ExpiryAfterReports ev m) :
    Moves G m.lifecycle (sweepExpiry m).lifecycle := by
  rw [sweepExpiry]
  split
  · exact moves_enforceExpiry hE hG
  · exact .refl

theorem moves_ingestEvents {policy : ProctoringPolicy}
    {batch : List EventUpsert} {foreign : EventId → Bool}
    (hG : ∀ e ∈ batch, G.reports e.id → e.InTime m.now) :
    (ingestEvents m policy instanceId batch foreign).Yields fun r =>
      Moves G m.lifecycle r.1.lifecycle := by
  refine (assertInControl_yields _ _).bind fun _ _ => ?_
  have hok := (ingestOk_init m m.events.rows.length).ingestAll policy instanceId foreign hG
  dsimp only
  generalize ingestAll _ _ _ _ _ _ batch = r at hok ⊢
  obtain ⟨st, results⟩ := r
  have hmove : Move G m.lifecycle { m with events := st.events }.lifecycle := by
    refine .ingest (st.events.rows.filter (·.fromClient)) fun e he => ?_
    obtain ⟨hmem, hsource⟩ := List.mem_filter.1 he
    exact (hok.rows e hmem hsource).imp (fun h => List.mem_filter.2 ⟨h, hsource⟩) id
  refine .ite (fun _ => ?_) fun _ => .pure (.single hmove)
  exact (moves_holdNow (G := G) rfl).bind fun n hn => .pure (.trans (.single hmove) hn)

theorem moves_holdForSample :
    (holdForSample m).Yields fun m' => Moves G m.lifecycle m'.lifecycle := by
  exact .ite (fun _ => moves_holdNow rfl) fun _ => .ok .refl

/-! ## Requests -/

/-- The operations that may start the exam clock. -/
def Op.startsClock : Op → Bool
  | completeCheck .. | startSession .. | requestPause .. | heartbeat .. | decidePauseRequest ..
  | releaseHold .. => true
  | _ => false

/-- The operations that look whether the exam time has run out. -/
def Op.looksAtExpiry : Op → Bool
  | heartbeat .. | sweepExpiry => true
  | _ => false

/-- A check or a reopening reaches no further back than the completed periods allow. -/
def GapClear (m : SessionMutation) : Op → Prop
  | .completeCheck instanceId checkId requestedAt j =>
    CheckGapClear m instanceId checkId requestedAt j
  | .reopenSession req => ReopenGapClear m req
  | _ => True

instance (m : SessionMutation) (op : Op) : Decidable (GapClear m op) := by
  cases op
  case completeCheck => exact inferInstanceAs (Decidable (CheckGapClear _ _ _ _ _))
  case reopenSession => exact inferInstanceAs (Decidable (ReopenGapClear _ _))
  all_goals exact inferInstanceAs (Decidable True)

/-- Where the operation refreshes the accommodations, no exam time is used. -/
def RefreshesUnused (m : SessionMutation) : Op → Prop
  | .startSession .. | .refreshAccommodations _ => RefreshedUnused m
  | _ => True

instance (m : SessionMutation) (op : Op) : Decidable (RefreshesUnused m op) := by
  cases op
  case startSession | refreshAccommodations => exact inferInstanceAs (Decidable (RefreshedUnused _))
  all_goals exact inferInstanceAs (Decidable True)

/-- No answer is taken that was given after the clock ran out. -/
def AnswersInTime (m : SessionMutation) : Op → Prop
  | .saveAnswer _ _ _ body => AnswerInTime m body
  | _ => True

instance (m : SessionMutation) (op : Op) : Decidable (AnswersInTime m op) := by
  cases op
  case saveAnswer => exact inferInstanceAs (Decidable (AnswerInTime _ _))
  all_goals exact inferInstanceAs (Decidable True)

/-- The reports of the event are of the past, and no expiry and no reopened hold is dated before
one. -/
def ReportsInTime (ev : EventId) (m : SessionMutation) : Op → Prop
  | .ingestEvents _ _ batch _ => ∀ e ∈ batch, e.id = ev → e.InTime m.now
  | .heartbeat instanceId body client loaded =>
    HeartbeatExpiryAfterReports ev (beforeLocked m instanceId body client loaded) instanceId body client
  | .sweepExpiry => ExpiryAfterReports ev m
  | .reopenSession req => ReopenAfterReports ev m req
  | _ => True

instance (ev : EventId) (m : SessionMutation) (op : Op) : Decidable (ReportsInTime ev m op) := by
  cases op
  case ingestEvents => exact inferInstanceAs (Decidable (∀ e ∈ _,
    EventUpsert.id e = _ → EventUpsert.InTime e _))
  case heartbeat => exact inferInstanceAs (Decidable (HeartbeatExpiryAfterReports _ _ _ _ _))
  case sweepExpiry => exact inferInstanceAs (Decidable (ExpiryAfterReports _ _))
  case reopenSession => exact inferInstanceAs (Decidable (ReopenAfterReports _ _ _))
  all_goals exact inferInstanceAs (Decidable True)

/-- The operation keeps the promises of the gate. -/
structure Keeps (G : Gate) (m : SessionMutation) (op : Op) : Prop where
  starts : op.startsClock = true → G.starts
  expires : op.looksAtExpiry = true → G.expires
  gap : G.gap → GapClear m op
  duration : G.duration → RefreshesUnused m op
  answers : G.answers → AnswersInTime m op
  reports : ∀ ev, G.reports ev → ReportsInTime ev m op

theorem moves_run {op : Op} (h : Keeps G m op) :
    (op.run m).Yields fun m' => Moves G m.lifecycle m'.lifecycle := by
  cases op with
  | acceptConsent => exact moves_acceptConsent
  | enforceReconnectLimits => exact moves_enforceReconnectLimits.fst
  | settleSuperseded | settleExpired => exact moves_settleAbandonedChecks
  | startCheck => exact moves_startCheck
  | completeCheck => exact (moves_completeCheck (h.starts rfl) h.gap).fst
  | startSession => exact (moves_startSession (h.starts rfl) h.duration).fst
  | candidateSubmit => exact moves_candidateSubmit
  | saveAnswer => exact (moves_saveAnswer h.answers).fst
  | requestPause => exact (moves_requestPause (h.starts rfl)).fst
  | cancelPauseRequest => exact moves_cancelPauseRequest
  | heartbeat => exact (moves_heartbeat (h.starts rfl) (h.expires rfl) h.reports).fst
  | trackInstanceRequest => exact .ok (Moves.of_eq (lifecycle_applyInstanceUsage _ _))
  | ingestEvents => exact (moves_ingestEvents fun e he hr => h.reports e.id hr e he rfl).fst
  | withdrawConsent => exact moves_withdrawConsent
  | lateCapture => exact .ok .refl
  | holdForSample => exact moves_holdForSample
  | decidePauseRequest => exact moves_decidePauseRequest (h.starts rfl)
  | holdSession => exact moves_holdSession
  | releaseHold => exact moves_releaseHold (h.starts rfl)
  | terminateSession => exact moves_terminateSession
  | staffSubmit => exact moves_staffSubmit
  | extendSessionTime => exact moves_extendSessionTime
  | reopenSession => exact moves_reopenSession h.gap h.reports
  | refreshAccommodations => exact .ok (moves_refreshSessionAccommodations h.duration)
  | sweepTimeout => exact .ok moves_sweepTimeout
  | sweepExpiry => exact .ok (moves_sweepExpiry (h.expires rfl) h.reports)
  | sweepStaleChecks => exact moves_settleAbandonedChecks
  | enforceOfflineLimits => exact moves_enforceOfflineLimits
  | closeAbandoned => exact .ok moves_closeAbandonedSession

/-- **Every request is a few moves.** -/
theorem moves_sessionStep {r : Request} (hnow : m.now ≤ r.now) (h : Keeps G (m.lock r) r.op) :
    Moves G m.lifecycle (sessionStep r m).lifecycle := by
  have htick : Moves G m.lifecycle (m.lock r).lifecycle := .single (.tick r.now hnow)
  rw [sessionStep]
  split
  next m' hm =>
    refine (htick.trans (moves_run h m' hm)).trans (Moves.of_eq ?_)
    rw [SessionMutation.flush]
    split
    · rfl
    · exact lifecycle_set_quiet _ fun _ => rfl
  next => exact htick

end SmartProctoring
