import SmartProctoring.Server.Operations

/-!
# An outage recorded by the sweeper, and by the returning heartbeat

A browser falls silent for longer than the heartbeat timeout.  Either the sweeper notices, in its
pass of timeouts, clock expiry and offline limit (`sweepClock`), and the browser's next heartbeat
finds the outage recorded; or no sweeper ran, and the heartbeat itself records the outage and
applies the offline limit (`recordLateOutage`) before it looks at the clock.

The two paths share the recorded outage (`recordReportingTimeout`) and everything a heartbeat does
once the outage is dealt with (`finishHeartbeat`).  What is left is the order of clock expiry and
offline limit, and the pre-filter of the sweeper's offline step, and the outcomes agree exactly
where neither matters.
-/

set_option autoImplicit false

namespace SmartProctoring

variable {m n : SessionMutation} {i : InstanceId} {body : HeartbeatRequest}
  {client : Option ClientAddress}

/-! ## The rest of a heartbeat -/

/-- What an outage leads to. -/
structure OutageOutcome where
  status : SessionStatus
  endReason : Option SessionEndReason
  holdReason : Option HoldReason
  usedMs : Int
  runningSince : Option Int
  endedAt : Option Int
  deriving DecidableEq

def outcomeOf (s : ExamSession) : OutageOutcome where
  status := s.status
  endReason := s.endReason
  holdReason := s.holdReason
  usedMs := s.usedMs
  runningSince := s.runningSince
  endedAt := s.endedAt

theorem lockedHeartbeat_of_recordLateOutage (hs : superseded m.session i = false)
    (h : recordLateOutage m i = .ok n) :
    lockedHeartbeat m i body client = .ok (finishHeartbeat n i body client) := by
  rw [lockedHeartbeat, hs, h]
  rfl

/-- Nothing an outage could have decided is different. -/
structure Unaltered (m n : SessionMutation) : Prop where
  now : n.now = m.now
  outcome : outcomeOf n.session = outcomeOf m.session
  durationMs : n.session.durationMs = m.session.durationMs

namespace Unaltered

theorem refl (m : SessionMutation) : Unaltered m m := ⟨rfl, rfl, rfl⟩

theorem trans {k : SessionMutation} (h : Unaltered m n) (h' : Unaltered n k) : Unaltered m k :=
  ⟨h'.now.trans h.now, h'.outcome.trans h.outcome, h'.durationMs.trans h.durationMs⟩

theorem status (h : Unaltered m n) : n.session.status = m.session.status :=
  congrArg OutageOutcome.status h.outcome

theorem runningSince (h : Unaltered m n) : n.session.runningSince = m.session.runningSince :=
  congrArg OutageOutcome.runningSince h.outcome

theorem sessionClock (h : Unaltered m n) :
    SmartProctoring.sessionClock n.session = SmartProctoring.sessionClock m.session := by
  have husage : n.session.usedMs = m.session.usedMs := congrArg OutageOutcome.usedMs h.outcome
  rw [SmartProctoring.sessionClock, SmartProctoring.sessionClock, h.durationMs, husage,
    h.runningSince]

end Unaltered

theorem applyInstanceUsage_unaltered (v : Option UsageVerdict) :
    Unaltered m (applyInstanceUsage m v) := by
  rw [applyInstanceUsage.eq_def]
  split
  · exact .refl m
  · split
    · split
      · exact ⟨rfl, rfl, rfl⟩
      · exact .refl m
    · exact ⟨rfl, rfl, rfl⟩

theorem endOutage_unaltered : Unaltered m (endOutage m) := by
  rw [endOutage]
  split
  · exact ⟨rfl, rfl, rfl⟩
  · exact .refl m

section

variable (h : ¬ (m.session.status = .active ∧ m.session.runningSince = none))
include h

theorem restartClock_of_not : restartClock m = m := by
  rw [restartClock, if_neg fun hr => h ⟨hr.1, Option.isNone_iff_eq_none.1 hr.2⟩]

theorem reportVerified_unaltered
    :
    Unaltered m (reportVerified m i body) := by
  rw [reportVerified]
  split
  · have hear : Unaltered m (hearVerified m body) := ⟨rfl, rfl, rfl⟩
    have hend : Unaltered m (endOutage (hearVerified m body)) := hear.trans endOutage_unaltered
    rw [restartClock_of_not (by rwa [hend.status, hend.runningSince])]
    exact hend.trans ⟨rfl, rfl, rfl⟩
  · exact .refl m

theorem hearFrom_unaltered : Unaltered m (hearFrom m i body client) := by
  have hear : Unaltered m (hear m i) := ⟨rfl, rfl, rfl⟩
  have husage := hear.trans (applyInstanceUsage_unaltered
    (heartbeatUsage (SmartProctoring.hear m i).session i body client m.now))
  refine husage.trans (reportVerified_unaltered ?_)
  rwa [husage.status, husage.runningSince]

end

@[simp] theorem restartClock_status : (restartClock m).session.status = m.session.status := by
  rw [restartClock]
  split <;> rfl

theorem reportVerified_status :
    (reportVerified m i body).session.status = m.session.status := by
  rw [reportVerified]
  split
  · exact restartClock_status.trans endOutage_unaltered.status
  · rfl

theorem hearFrom_status : (hearFrom m i body client).session.status = m.session.status :=
  reportVerified_status.trans (applyInstanceUsage_unaltered (m := hear m i) _).status

theorem answerHeartbeat_unaltered : Unaltered m (answerHeartbeat m i body).1 := by
  rw [answerHeartbeat]
  dsimp only [SessionMutation.deliver]
  split
  · exact ⟨rfl, rfl, rfl⟩
  · exact ⟨rfl, rfl, rfl⟩

theorem finishHeartbeat_of_idle (h : m.session.status ≠ .active) (h' : m.session.status ≠ .paused) :
    outcomeOf (finishHeartbeat m i body client).1.session = outcomeOf m.session := by
  have hear : Unaltered m (hearFrom m i body client) := hearFrom_unaltered
    fun hs => h hs.1
  rw [finishHeartbeat, answerHeartbeat_unaltered.outcome, enforceExpiry, if_neg, hear.outcome]
  rw [hear.status]
  exact fun hs => hs.1.elim h h'

theorem outcomeOf_finalizeSession (h : ¬ m.session.status.isTerminal)
    (endReason : SessionEndReason) :
    outcomeOf (finalizeSession m endReason).session =
      { status := endStatus endReason
        endReason := some endReason
        holdReason := m.session.holdReason
        usedMs := (clockStop (sessionClock m.session) (endInstant m endReason)).usedMs
        runningSince := none
        endedAt := some (endInstant m endReason) } := by
  rw [finalizeSession_session h]
  rfl

theorem not_terminal_of_active (h : m.session.status = .active) :
    ¬ m.session.status.isTerminal := by
  simp [h, SessionStatus.isTerminal_iff]

theorem Unaltered.finalizeSession (h : Unaltered m n) (hm : ¬ m.session.status.isTerminal)
    (endReason : SessionEndReason) :
    outcomeOf (finalizeSession n endReason).session =
      outcomeOf (finalizeSession m endReason).session := by
  have hend : endInstant n endReason = endInstant m endReason := by
    rw [endInstant.eq_def, endInstant.eq_def, h.now, h.runningSince, h.sessionClock]
  have hold : n.session.holdReason = m.session.holdReason :=
    congrArg OutageOutcome.holdReason h.outcome
  rw [outcomeOf_finalizeSession hm, outcomeOf_finalizeSession (by rwa [h.status]), hend,
    h.sessionClock, hold]

theorem finishHeartbeat_of_expired {rs : Int} (h : m.session.status = .active)
    (hrs : m.session.runningSince = some rs)
    (he : clockExpired (sessionClock m.session) m.now = true) :
    outcomeOf (finishHeartbeat m i body client).1.session =
      outcomeOf (finalizeSession m .timeExpired).session := by
  have hear : Unaltered m (hearFrom m i body client) := hearFrom_unaltered
    fun hs => by simp [hrs] at hs
  rw [finishHeartbeat, answerHeartbeat_unaltered.outcome, enforceExpiry, if_pos,
    hear.finalizeSession (not_terminal_of_active h)]
  rw [hear.status, hear.sessionClock, hear.now]
  exact ⟨.inl h, he⟩

theorem finishHeartbeat_of_active (h : m.session.status = .active) :
    (finishHeartbeat m i body client).1.session.status = .active ∨
      (finishHeartbeat m i body client).1.session.endReason = some .timeExpired ∧
        (finishHeartbeat m i body client).1.session.status = .submitted := by
  have hear : (hearFrom m i body client).session.status = .active := hearFrom_status.trans h
  have hans : Unaltered _ (answerHeartbeat (enforceExpiry (hearFrom m i body client)) i body).1 :=
    answerHeartbeat_unaltered
  have hend : (answerHeartbeat (enforceExpiry (hearFrom m i body client)) i body).1.session.endReason =
      (enforceExpiry (hearFrom m i body client)).session.endReason :=
    congrArg OutageOutcome.endReason hans.outcome
  rw [finishHeartbeat, hans.status, hend, enforceExpiry]
  split
  · rw [finalizeSession_session (not_terminal_of_active hear)]
    exact .inr ⟨rfl, rfl⟩
  · exact .inl hear

/-! ## The sweeper's steps after a recorded outage -/

@[simp] theorem recordReportingTimeout_periods (policy : ProctoringPolicy) (last : Int) :
    (recordReportingTimeout m policy last).periods = m.periods := by
  rw [recordReportingTimeout]
  split
  · rfl
  · split <;> rfl

theorem offlineLimit_recordReportingTimeout (h : m.session.status = .active)
    (policy p : ProctoringPolicy) (last : Int) :
    offlineLimit (recordReportingTimeout m policy last) p = offlineLimit m p := by
  have hstatus : (recordReportingTimeout m policy last).session.status = m.session.status := by
    rw [recordReportingTimeout_session h]
  have hlast : (recordReportingTimeout m policy last).session.lastHeartbeatAt =
      m.session.lastHeartbeatAt := by
    rw [recordReportingTimeout_session h]
  have hstart : (recordReportingTimeout m policy last).session.startedAt =
      m.session.startedAt := by
    rw [recordReportingTimeout_session h]
  simp only [offlineLimit, offlineSince, SessionMutation.openPeriodRow,
    recordReportingTimeout_periods, recordReportingTimeout_now, hstatus, hlast, hstart]
  rfl

theorem applyResumeLimit_active (h : m.session.status = .active) (policy : ProctoringPolicy)
    (limit : ResumeLimit) :
    ∃ n, applyResumeLimit m policy limit = .ok n ∧
      (n.session.status = .onHold ∨
        n.session.status = .submitted ∧ n.session.endReason = some .resumeLimit) ∧
      superseded n.session = superseded m.session ∧
      n.session.connection = m.session.connection := by
  have hne := not_terminal_of_active h
  rw [applyResumeLimit]
  cases policy.resume.onLimit with
  | hold =>
    refine ⟨_, holdNow_eq_ok.2 ⟨hne, rfl⟩, ?_⟩
    rw [enterHold_session]
    exact ⟨.inl rfl, rfl, rfl⟩
  | «end» =>
    refine ⟨_, rfl, ?_⟩
    rw [finalizeSession_session hne]
    exact ⟨.inr ⟨rfl, rfl⟩, rfl, rfl⟩

theorem recordLateOutage_of_offline (h : m.session.connection = .offline) :
    recordLateOutage m i = .ok m := by
  rw [recordLateOutage, if_neg]
  rintro ⟨-, ht⟩
  simp [reportingTimedOut, h] at ht

theorem outage_recorded (hc : instanceInControl m.session i = true)
    (ht : reportingTimedOut m.session m.policy m.now = true) :
    ∃ last, m.session.status = .active ∧ m.session.lastHeartbeatAt = some last ∧
      superseded m.session i = false ∧
      sweepTimeout m = recordReportingTimeout m m.policy last ∧
      recordLateOutage m i =
        applyOfflineLimit (recordReportingTimeout m m.policy last) m.policy := by
  have ht' := ht
  simp only [reportingTimedOut, Bool.and_eq_true, beq_iff_eq, Option.any_eq_true,
    decide_eq_true_eq] at ht
  obtain ⟨⟨⟨hactive, honline⟩, -⟩, last, hlast, hsilent⟩ := ht
  have hmin := m.policy.connection.heartbeatTimeoutSec.secMs_bounds
  refine ⟨last, hactive, hlast, ?_, ?_, ?_⟩
  · simp [superseded, (instanceInControl_iff.1 hc).1]
  · have hstale : heartbeatStale m.session m.now = true := by
      have hfloor : last < m.now - MIN_HEARTBEAT_TIMEOUT_MS := by
        rw [MIN_HEARTBEAT_TIMEOUT_MS]
        omega
      simp [heartbeatStale, honline, hactive, hlast, hfloor]
    rw [sweepTimeout, if_pos hstale, hlast]
    dsimp only
    rw [if_neg (by omega)]
  · rw [recordLateOutage, if_pos ⟨hc, ht'⟩, hlast]
    rfl

@[simp] theorem recordReportingTimeout_examPolicy (policy : ProctoringPolicy) (last : Int) :
    (recordReportingTimeout m policy last).examPolicy = m.examPolicy := by
  rw [recordReportingTimeout]
  split
  · rfl
  · split <;> rfl

theorem recordReportingTimeout_policy (h : m.session.status = .active) (policy : ProctoringPolicy)
    (last : Int) : (recordReportingTimeout m policy last).policy = m.policy := by
  rw [SessionMutation.policy, recordReportingTimeout_session h, recordReportingTimeout_examPolicy]
  rfl

theorem expiryDue_recordReportingTimeout (h : m.session.status = .active)
    (policy : ProctoringPolicy) (last now : Int) :
    expiryDue (recordReportingTimeout m policy last).session now = true ↔
      policy.connection.disconnectTimerBehavior = .continue ∧ expiryDue m.session now = true := by
  rw [recordReportingTimeout_session h, outageClock]
  cases policy.connection.disconnectTimerBehavior with
  | stop => simp [expiryDue]
  | «continue» => exact ⟨fun h => ⟨rfl, h⟩, And.right⟩

theorem sweepExpiry_of_due (h : expiryDue m.session m.now = true) :
    ∃ rs, m.session.runningSince = some rs ∧
      clockExpired (sessionClock m.session) m.now = true ∧
      sweepExpiry m = finalizeSession m .timeExpired := by
  rw [sweepExpiry, if_pos h]
  simp only [expiryDue, Bool.and_eq_true, Bool.or_eq_true, beq_iff_eq, Option.any_eq_true,
    decide_eq_true_eq] at h
  obtain ⟨hs, rs, hrs, hdur⟩ := h
  have he : clockExpired (sessionClock m.session) m.now = true := by
    rw [clockExpired_iff]
    simp only [sessionClock, clockRunningMs, hrs]
    omega
  exact ⟨rs, hrs, he, if_pos ⟨hs, he⟩⟩

theorem offlineLimit_eq_some {p : ProctoringPolicy} {limit : ResumeLimit}
    (h : offlineLimit m p = some limit) :
    ∃ max, p.resume.maxOfflineMinutes = some max ∧ max.minMs < m.now - offlineSince m := by
  rw [offlineLimit] at h
  split at h
  next => exact absurd h (by simp)
  next max hmax =>
    split at h
    · exact absurd h (by simp)
    · dsimp only at h
      split at h
      next hlt => exact ⟨max, hmax, hlt⟩
      next => exact absurd h (by simp)

theorem offlineLimitDue_of_limit {p : ProctoringPolicy} {last : Int} {limit : ResumeLimit}
    (hs : m.session.status = .active) (hoff : m.session.connection = .offline)
    (hp : m.session.policy = some p) (hlast : m.session.lastHeartbeatAt = some last)
    (h : offlineLimit m p = some limit) : offlineLimitDue m.session m.now = true := by
  obtain ⟨max, hmax, hlt⟩ := offlineLimit_eq_some h
  have hsince : last ≤ offlineSince m := by
    rw [offlineSince, hlast]
    exact le_max_left _ _
  have hdue : last < m.now - max.minMs := by omega
  simp [offlineLimitDue, hs, hoff, hp, hmax, hlast, hdue]

theorem lockedHeartbeat_of_offline (hs : superseded m.session i = false)
    (ho : m.session.connection = .offline) :
    lockedHeartbeat m i body client = .ok (finishHeartbeat m i body client) :=
  lockedHeartbeat_of_recordLateOutage hs (recordLateOutage_of_offline ho)

theorem sweepClock_of_expired (hs : m.session.status = .active)
    (he : expiryDue m.session m.now = true) :
    orUnchanged (sweepExpiry m) enforceOfflineLimits = finalizeSession m .timeExpired := by
  obtain ⟨-, -, -, hfin⟩ := sweepExpiry_of_due he
  have hend : (finalizeSession m .timeExpired).session.status = .submitted := by
    rw [finalizeSession_session (not_terminal_of_active hs)]
    rfl
  rw [hfin, orUnchanged, enforceOfflineLimits]
  simp [offlineLimitDue, hend]

theorem sweepClock_of_notExpired (he : expiryDue m.session m.now = false) :
    orUnchanged (sweepExpiry m) enforceOfflineLimits = orUnchanged m enforceOfflineLimits := by
  rw [sweepExpiry, he, if_neg Bool.false_ne_true]

/-- **What an outage leads to depends on who records it first exactly when an offline limit is
reached** and either the exam time has run out under a clock that the disconnect left running, or
the exam has no snapshot of its rules.  In the first case the sweeper has ended the exam for its
time before it looks at the limit; in the second the sweeper's offline step does not look at the
exam. -/
theorem outage_outcome_iff (hc : instanceInControl m.session i = true)
    (ht : reportingTimedOut m.session m.policy m.now = true) :
    ∃ a b, lockedHeartbeat (sweepClock m) i body client = .ok a ∧
      lockedHeartbeat m i body client = .ok b ∧
      (outcomeOf a.1.session = outcomeOf b.1.session ↔
        ¬ ((offlineLimit m m.policy).isSome ∧
          (m.session.policy = none ∨
            (m.policy.connection.disconnectTimerBehavior = .continue ∧
              expiryDue m.session m.now = true)))) := by
  obtain ⟨last, hactive, hlast, hsup, hsweep, hlate⟩ := outage_recorded hc ht
  rw [← expiryDue_recordReportingTimeout hactive _ last,
    ← offlineLimit_recordReportingTimeout hactive m.policy _ last]
  have hnow := recordReportingTimeout_now m m.policy last
  have hpolicy := recordReportingTimeout_policy hactive m.policy last
  have hrow := recordReportingTimeout_session hactive m.policy last
  generalize hr : recordReportingTimeout m m.policy last = r at *
  have hractive : r.session.status = .active := by rw [hrow]; exact hactive
  have hroff : r.session.connection = .offline := by rw [hrow]
  have hrsup : superseded r.session i = false := by rw [hrow]; exact hsup
  have hrlast : r.session.lastHeartbeatAt = some last := by rw [hrow]; exact hlast
  have hrpolicy : r.session.policy = m.session.policy := by rw [hrow]
  rw [← hrpolicy, ← hnow, ← hpolicy, sweepClock, hsweep]
  rw [← hpolicy] at hlate
  clear hsweep hrow hr hpolicy hrpolicy ht
  -- `F`: the exam as the sweeper ends it for its time
  obtain ⟨F, hF⟩ : ∃ F, F = finalizeSession r .timeExpired := ⟨_, rfl⟩
  have hFrow := finalizeSession_session (not_terminal_of_active hractive) .timeExpired
  rw [← hF] at hFrow
  have hFstatus : F.session.status = .submitted := by rw [hFrow]; rfl
  have hFend : F.session.endReason = some .timeExpired := by rw [hFrow]
  have hFheart : lockedHeartbeat F i body client = .ok (finishHeartbeat F i body client) :=
    lockedHeartbeat_of_offline (by rw [hFrow]; exact hrsup) (by rw [hFrow]; exact hroff)
  clear hFrow
  have hFout : outcomeOf (finishHeartbeat F i body client).1.session = outcomeOf F.session :=
    finishHeartbeat_of_idle (by simp [hFstatus]) (by simp [hFstatus])
  cases hlim : offlineLimit r r.policy with
  | none =>
    rw [applyOfflineLimit, hlim] at hlate
    have hheart : lockedHeartbeat m i body client = .ok (finishHeartbeat r i body client) :=
      lockedHeartbeat_of_recordLateOutage hsup hlate
    cases he : expiryDue r.session r.now with
    | true =>
      obtain ⟨rs, hrs, hexp, -⟩ := sweepExpiry_of_due he
      rw [sweepClock_of_expired hractive he, ← hF]
      refine ⟨_, _, hFheart, hheart, ?_⟩
      rw [hFout, finishHeartbeat_of_expired hractive hrs hexp, ← hF]
      simp
    | false =>
      have hswept : orUnchanged (sweepExpiry r) enforceOfflineLimits = r := by
        rw [sweepClock_of_notExpired he, orUnchanged, enforceOfflineLimits, applyOfflineLimit]
        split <;> simp_all
      rw [hswept]
      exact ⟨_, _, lockedHeartbeat_of_offline hrsup hroff, hheart, by simp⟩
  | some limit =>
    obtain ⟨n, hn, hnend, hnsup, hnoff⟩ := applyResumeLimit_active hractive r.policy limit
    have happly : applyOfflineLimit r r.policy = .ok n := by rw [applyOfflineLimit, hlim]; exact hn
    have hheart : lockedHeartbeat m i body client = .ok (finishHeartbeat n i body client) :=
      lockedHeartbeat_of_recordLateOutage hsup (hlate.trans happly)
    have hnout : outcomeOf (finishHeartbeat n i body client).1.session = outcomeOf n.session := by
      refine finishHeartbeat_of_idle ?_ ?_ <;> obtain h | ⟨h, -⟩ := hnend <;> simp [h]
    -- a held exam, or one ended by the limit, is neither active nor ended for its time
    have hdiffer : ∀ s : ExamSession,
        (s.status = .active ∨ s.endReason = some .timeExpired ∧ s.status = .submitted) →
        outcomeOf s ≠ outcomeOf n.session := by
      intro s hs heq
      have hstatus : s.status = n.session.status := congrArg OutageOutcome.status heq
      have hreason : s.endReason = n.session.endReason := congrArg OutageOutcome.endReason heq
      obtain h | ⟨h, h'⟩ := hnend
      · rw [h] at hstatus
        obtain hs | ⟨-, hs⟩ := hs
        · exact absurd (hs.symm.trans hstatus) (by decide)
        · exact absurd (hs.symm.trans hstatus) (by decide)
      · rw [h] at hstatus
        rw [h'] at hreason
        obtain hs | ⟨hs, -⟩ := hs
        · exact absurd (hs.symm.trans hstatus) (by decide)
        · exact absurd (hs.symm.trans hreason) (by decide)
    cases he : expiryDue r.session r.now with
    | true =>
      rw [sweepClock_of_expired hractive he, ← hF]
      refine ⟨_, _, hFheart, hheart, ?_⟩
      rw [hFout, hnout]
      exact iff_of_false (hdiffer _ (.inr ⟨hFend, hFstatus⟩)) (by simp)
    | false =>
      rw [sweepClock_of_notExpired he]
      cases hp : r.session.policy with
      | none =>
        have hswept : orUnchanged r enforceOfflineLimits = r := by
          rw [orUnchanged, enforceOfflineLimits, if_neg (by simp [offlineLimitDue, hp])]
        rw [hswept]
        refine ⟨_, _, lockedHeartbeat_of_offline hrsup hroff, hheart, ?_⟩
        rw [hnout]
        exact iff_of_false (hdiffer _ (finishHeartbeat_of_active hractive)) (by simp)
      | some p =>
        have hpol : r.policy = p := by rw [SessionMutation.policy, effectivePolicy, hp]
        have hdue : offlineLimitDue r.session r.now = true :=
          offlineLimitDue_of_limit hractive hroff hp hrlast (hpol ▸ hlim)
        have hswept : orUnchanged r enforceOfflineLimits = n := by
          rw [orUnchanged, enforceOfflineLimits, if_pos hdue, happly]
        rw [hswept]
        refine ⟨_, _, lockedHeartbeat_of_offline ?_ ?_, hheart, by simp⟩
        · rw [hnsup]; exact hrsup
        · rw [hnoff]; exact hroff

/-- An exam whose rules allow one minute offline. -/
def offlineRules : ProctoringPolicy :=
  { resume := { maxOfflineMinutes := some ⟨1, by decide⟩ } }

/-- A one-minute exam, started at 4000, whose browser was last heard from 65 seconds ago. -/
def silentExam : SessionMutation :=
  { runRequests (startedExam offlineRules)
      [⟨5000, offlineRules, .heartbeat ⟨1⟩ { seq := 1 } none none⟩] with now := 70000 }

/-- The sweeper ends the silent exam for its time, at 64000; the returning heartbeat holds it at
70000. -/
theorem outage_outcome_differs :
    instanceInControl silentExam.session ⟨1⟩ = true ∧
      reportingTimedOut silentExam.session silentExam.policy silentExam.now = true ∧
      ∃ a b, lockedHeartbeat (sweepClock silentExam) ⟨1⟩ { seq := 2 } none = .ok a ∧
        lockedHeartbeat silentExam ⟨1⟩ { seq := 2 } none = .ok b ∧
        outcomeOf a.1.session = ⟨.submitted, some .timeExpired, none, 60000, none, some 64000⟩ ∧
        outcomeOf b.1.session = ⟨.onHold, none, some .resumeLimit, 60000, none, none⟩ :=
  ⟨by decide, by decide, _, _, rfl, rfl, by decide, by decide⟩

/-- The silent exam's outcome depends on who records the outage first. -/
theorem outage_outcome_iff_silent :
    ∃ a b, lockedHeartbeat (sweepClock silentExam) ⟨1⟩ { seq := 2 } none = .ok a ∧
      lockedHeartbeat silentExam ⟨1⟩ { seq := 2 } none = .ok b ∧
      (outcomeOf a.1.session = outcomeOf b.1.session ↔
        ¬ ((offlineLimit silentExam silentExam.policy).isSome ∧
          (silentExam.session.policy = none ∨
            (silentExam.policy.connection.disconnectTimerBehavior = .continue ∧
              expiryDue silentExam.session silentExam.now = true)))) :=
  outage_outcome_iff (by decide) (by decide)

end SmartProctoring
