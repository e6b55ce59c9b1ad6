import SmartProctoring.Lib.Except
import SmartProctoring.Server.Moves

/-!
# Every transaction is a few moves: transitions and actions

The operations of the source, one file after the other, refine `Moves`: the view of the session
after an operation is reached from the view before it by moves of the gate.  Here the transitions of
`session-state.ts`, the actions of staff, the resume policy, reopening and the accommodations.
-/

set_option autoImplicit false

namespace SmartProctoring

open Option

variable {G : Gate} {m m' : SessionMutation}

open SessionMutation

/-! ## Transitions -/

theorem lifecycle_pauseClock (m : SessionMutation) (behavior : TimerBehavior) :
    (pauseClock m behavior).lifecycle = m.lifecycle.pauseClock behavior := by
  cases behavior with
  | stop => exact lifecycle_clockStop m m.now
  | «continue» => exact lifecycle_clockStart m m.now

theorem lifecycle_enterPause (m : SessionMutation) (reason : Option String) :
    (enterPause m reason).lifecycle =
      m.lifecycle.pause m.policy.pause.timerBehavior reason := by
  rw [enterPause, lifecycle_addEvent _ _ rfl, lifecycle_resetIdentityCounters,
    lifecycle_set_status _ (t := .paused) fun _ => rfl, lifecycle_switchPeriod,
    lifecycle_closeOpenEvents, lifecycle_pauseClock]
  cases m.policy.pause.timerBehavior <;> rfl

theorem lifecycle_holdPeriod (m : SessionMutation) (reason : HoldReason) (prev : SessionStatus) :
    (holdPeriod m reason prev).lifecycle =
      { m.lifecycle with periods := Periods.hold m.periods m.now reason prev } := by
  rw [holdPeriod, Periods.hold]
  have hopen : Periods.openRow m.periods = m.openPeriodRow := rfl
  rw [hopen]
  split
  · rfl
  · exact lifecycle_switchPeriod _ _ _ _ _

/-- Only the server and staff hold a session. -/
def HoldOptions.fromServer (opts : HoldOptions) : Bool :=
  decide (opts.source ∉ CLIENT_EVENT_SOURCES)

theorem lifecycle_stopForHold (m : SessionMutation) :
    (stopForHold m).lifecycle =
      { m.lifecycle.stopClock m.now with
        reports :=
          if m.session.status ≠ .onHold then
            (m.lifecycle.closeOpenReports m.now .hold [.reportingInterrupted]).reports
          else m.lifecycle.reports } := by
  rw [stopForHold]
  split
  · rw [lifecycle_closeOpenEvents, lifecycle_clockStop]
    rfl
  · rw [lifecycle_clockStop]
    rfl

variable {opts : HoldOptions}

theorem lifecycle_enterHold (m : SessionMutation) (h : opts.fromServer = true) :
    (enterHold m opts).lifecycle = m.lifecycle.hold opts.reason m.session.status := by
  have hstopped := lifecycle_stopForHold m
  have hp : (stopForHold m).periods = m.periods := congrArg Lifecycle.periods hstopped
  have hnow : (stopForHold m).now = m.now := congrArg Lifecycle.now hstopped
  rw [enterHold, lifecycle_enqueueCommand, lifecycle_addEvent,
    lifecycle_resetIdentityCounters, lifecycle_set_status _ (t := .onHold) fun _ => rfl,
    lifecycle_holdPeriod, hstopped, hp, hnow]
  · rfl
  · exact h

theorem lifecycle_endPeriodAt (m : SessionMutation) (p : SessionPeriod) (cut : Int) :
    (endPeriodAt m p cut).lifecycle =
      { m.lifecycle with periods := Periods.endAt m.periods p cut } := by
  cases h : p.endedAt with
  | none =>
    simp only [endPeriodAt, Periods.endAt, h]
    exact lifecycle_closeOpenPeriod _ _
  | some e =>
    simp only [endPeriodAt, Periods.endAt, h]
    split <;> rfl

theorem lifecycle_cutActivePeriod (gapStart stop : Int) (evId : EventId)
    (endReason : SessionEndReason) (m : SessionMutation) (p : SessionPeriod) :
    (cutActivePeriod gapStart stop evId endReason m p).lifecycle =
      { m.lifecycle with
        periods := Periods.cutActive gapStart stop evId endReason m.periods p } := by
  rw [cutActivePeriod, Periods.cutActive]
  split
  · rw [lifecycle_insertPeriod, lifecycle_endPeriodAt]
    rfl
  · exact lifecycle_endPeriodAt _ _ _

theorem lifecycle_foldl_cutActivePeriod (gapStart stop : Int) (evId : EventId)
    (endReason : SessionEndReason) (l : List SessionPeriod) (m : SessionMutation) :
    (l.foldl (cutActivePeriod gapStart stop evId endReason) m).lifecycle =
      { m.lifecycle with
        periods := l.foldl (Periods.cutActive gapStart stop evId endReason) m.periods } := by
  induction l generalizing m with
  | nil => rfl
  | cons p l ih =>
    have hcut := lifecycle_cutActivePeriod gapStart stop evId endReason m p
    have hp : (cutActivePeriod gapStart stop evId endReason m p).periods =
        Periods.cutActive gapStart stop evId endReason m.periods p :=
      congrArg Lifecycle.periods hcut
    rw [List.foldl_cons, List.foldl_cons, ih, hcut, hp]

/-- The reporting gap a session ends in, as the view needs it. -/
def gapAtEnd (m : SessionMutation) (stop : Int) : Option (Int × EventId) :=
  (reportingGap m stop).map fun ev => (ev.startedAt, ev.id)

theorem gapAtEnd_lt {stop : Int} {g : Int × EventId} (h : g ∈ gapAtEnd m stop) : g.1 < stop := by
  rw [gapAtEnd, mem_def, map_eq_some_iff] at h
  obtain ⟨ev, hev, rfl⟩ := h
  rw [reportingGap, filter_eq_some_iff] at hev
  simp only [Bool.and_eq_true, decide_eq_true_eq] at hev
  exact hev.2.1

theorem lifecycle_closeReportingGapAtEnd (m : SessionMutation) (stop : Int)
    (endReason : SessionEndReason) :
    (closeReportingGapAtEnd m stop endReason).lifecycle =
      m.lifecycle.carveGap (gapAtEnd m stop) stop endReason := by
  rw [closeReportingGapAtEnd, gapAtEnd]
  cases reportingGap m stop with
  | none => rfl
  | some ev =>
    rw [map_some, Lifecycle.carveGap, Periods.carve]
    dsimp only
    have hactive : m.lifecycle.periods = m.periods := rfl
    rw [hactive]
    split
    next h =>
      rw [List.isEmpty_iff.1 h]
      rfl
    next h =>
      rw [lifecycle_foldl_cutActivePeriod, lifecycle_closeEvents]
      rfl

theorem lifecycle_announceEnd (m : SessionMutation) (endReason : SessionEndReason) (atMs : Int) :
    (announceEnd m endReason atMs).lifecycle = m.lifecycle := by
  cases endReason <;> simp only [announceEnd, lifecycle_enqueueCommand] <;>
    first
    | exact lifecycle_addEvent _ _ rfl
    | exact (lifecycle_addEvent _ _ rfl).trans (lifecycle_addEvent _ _ rfl)

theorem lifecycle_closeSession (m : SessionMutation) (endReason : SessionEndReason) (atMs : Int) :
    (closeSession m endReason atMs).lifecycle =
      m.lifecycle.closeSession endReason (gapAtEnd (m.clockStop atMs) atMs) atMs := by
  rw [closeSession, Lifecycle.closeSession, lifecycle_announceEnd,
    lifecycle_set _ (fun v => { v with
      status := endStatus endReason, endReason := some endReason, endedAt := some atMs })
      fun _ => rfl,
    lifecycle_dropPendingBursts, ← lifecycle_clockStop, ← lifecycle_closeReportingGapAtEnd,
    ← lifecycle_closeOpenEvents, ← lifecycle_closeOpenPeriod]
  rfl

theorem lifecycle_finalizeSession (h : ¬ m.session.status.isTerminal)
    (endReason : SessionEndReason) :
    (finalizeSession m endReason).lifecycle =
      m.lifecycle.finish endReason
        (gapAtEnd (m.clockStop (endInstant m endReason)) (endInstant m endReason)) := by
  have hat : m.lifecycle.endInstant endReason = endInstant m endReason := rfl
  rw [finalizeSession, if_neg h, Lifecycle.finish, hat, ← lifecycle_closeSession]
  dsimp only
  split
  next hs =>
    exact (if_pos hs).symm
  next hs => exact (if_neg hs).symm

/-! ## Moves that transitions make -/

theorem Moves.single {l l' : Lifecycle} (h : Move G l l') : Moves G l l' :=
  Relation.ReflTransGen.single h

theorem Moves.of_eq {l l' : Lifecycle} (h : l' = l) : Moves G l l' := h ▸ .refl

theorem moves_enterHold (hs : ¬ m.session.status.isTerminal)
    (h : opts.fromServer = true) : Moves G m.lifecycle (enterHold m opts).lifecycle := by
  rw [lifecycle_enterHold m h]
  exact .single (.hold opts.reason hs)

theorem moves_holdNow (h : opts.fromServer = true) :
    (holdNow m opts).Yields fun m' => Moves G m.lifecycle m'.lifecycle := by
  intro m' hm
  obtain ⟨hs, rfl⟩ := holdNow_eq_ok.1 hm
  exact moves_enterHold hs h

theorem assertStatus_yields (m : SessionMutation) (allowed : List SessionStatus)
    (message : String) :
    (m.assertStatus allowed message).Yields fun _ => m.session.status ∈ allowed := by
  exact .ite (fun h => .ok h) fun _ => .error _

theorem moves_pauseNow {reason : Option String} (hG : G.starts) :
    (pauseNow m reason).Yields fun m' => Moves G m.lifecycle m'.lifecycle := by
  refine (assertStatus_yields m _ _).bind fun _ hs => .pure ?_
  rw [List.mem_singleton] at hs
  rw [lifecycle_enterPause]
  exact .single (.pause _ reason hs hG)

theorem moves_finalizeSession {endReason : SessionEndReason}
    (hE : endReason = .timeExpired → G.expires)
    (hG : ∀ ev, G.reports ev → endInstant m endReason < m.now →
      m.lifecycle.ReportsBefore ev (endInstant m endReason)) :
    Moves G m.lifecycle (finalizeSession m endReason).lifecycle := by
  by_cases h : m.session.status.isTerminal
  · exact .of_eq (by rw [finalizeSession, if_pos h])
  · rw [lifecycle_finalizeSession h]
    exact .single (.finish endReason _ h hE (fun _ hg => gapAtEnd_lt hg) hG)

theorem moves_finalizeSession_of_ne {endReason : SessionEndReason} (h : endReason ≠ .timeExpired) :
    Moves G m.lifecycle (finalizeSession m endReason).lifecycle := by
  refine moves_finalizeSession (fun he => absurd he h) fun _ _ hlt => absurd hlt ?_
  have hnow : endInstant m endReason = m.now := by
    rw [endInstant.eq_def]
    split
    · exact absurd rfl h
    · rfl
  rw [hnow]
  exact lt_irrefl _

/-- If the exam time has run out, it did so after everything reported of the event so far. -/
def ExpiryAfterReports (ev : EventId) (m : SessionMutation) : Prop :=
  clockExpired (sessionClock m.session) m.now = true →
    endInstant m .timeExpired < m.now → m.lifecycle.ReportsBefore ev (endInstant m .timeExpired)
  deriving Decidable

theorem moves_enforceExpiry (hE : G.expires) (hG : ∀ ev, G.reports ev → ExpiryAfterReports ev m) :
    Moves G m.lifecycle (enforceExpiry m).lifecycle := by
  rw [enforceExpiry]
  split
  next h => exact moves_finalizeSession (fun _ => hE) fun ev hr => hG ev hr h.2
  next => exact .refl

theorem lifecycle_openOutage (m : SessionMutation) (last : Int) :
    (openOutage m last).lifecycle = m.lifecycle := by
  refine (lifecycle_set_quiet _ fun _ => rfl).trans ?_
  exact lifecycle_addEvent _ _ rfl

variable {policy : ProctoringPolicy}

theorem moves_recordReportingTimeout {last : Int} (hlast : m.session.lastHeartbeatAt = some last) :
    Moves G m.lifecycle (recordReportingTimeout m policy last).lifecycle := by
  have hoff : (openOutage (m.set fun s => { s with connection := .offline }) last).lifecycle =
      m.lifecycle :=
    (lifecycle_openOutage _ _).trans (lifecycle_set_quiet _ fun _ => rfl)
  rw [recordReportingTimeout]
  split
  next => exact .of_eq (lifecycle_set_quiet _ fun _ => rfl)
  next hs =>
    split
    · rw [lifecycle_clockStop, hoff]
      exact .single (.outage last (not_not.1 hs) hlast)
    · exact .of_eq hoff

/-! ## Session actions -/

theorem moves_decidePauseRequest {id : Nat} {approve : Bool} {note : Option String}
    (hG : G.starts) :
    (decidePauseRequest m id approve note).Yields fun m' => Moves G m.lifecycle m'.lifecycle := by
  rw [decidePauseRequest]
  split
  next =>
    refine .guard fun _ => .ite (fun _ => ?_) fun _ => .pure (.of_eq ?_)
    · refine (assertStatus_yields m _ _).bind fun _ _ => ?_
      exact (moves_pauseNow hG).bind fun m' hm => .pure hm
    · rw [lifecycle_enqueueCommand]
      exact lifecycle_addEvent _ _ rfl
  next => exact .thrown _

theorem moves_holdSession :
    (holdSession m).Yields fun m' => Moves G m.lifecycle m'.lifecycle :=
  (assertStatus_yields m _ _).bind fun _ _ => moves_holdNow rfl

theorem lifecycle_noteRelease (m : SessionMutation) (verificationHold : Bool) :
    (noteRelease m verificationHold).lifecycle = m.lifecycle := by
  have hcount : (if m.session.holdReason = some .resumeLimit then
      m.set fun s => { s with reconnectCount := 0 } else m).lifecycle = m.lifecycle := by
    split
    · exact lifecycle_set_quiet _ fun _ => rfl
    · rfl
  refine (lifecycle_addEvent _ _ rfl).trans ?_
  cases verificationHold with
  | true => exact (lifecycle_addEvent _ _ rfl).trans hcount
  | false => exact hcount

theorem lifecycle_releaseToInitial (m : SessionMutation) :
    (releaseToInitial m).lifecycle =
      { m.lifecycle.closeOpenPeriod m.now with status := .invited } := by
  rw [releaseToInitial, lifecycle_enqueueCommand, lifecycle_enqueueCommand,
    lifecycle_set_status _ (t := .invited) fun _ => rfl, lifecycle_closeOpenPeriod]

theorem lifecycle_releaseToCheck (m : SessionMutation) (reEnroll : Bool) (actor : StaffId) :
    (releaseToCheck m reEnroll actor).lifecycle = m.lifecycle := by
  exact lifecycle_set_quiet _ fun _ => rfl

theorem lifecycle_continueActive (h : m.session.status = .active) (reason : PeriodReason) :
    (continueActive m reason).lifecycle = m.lifecycle.continueActive reason := by
  have hactive : ∀ l : Lifecycle, l.status = .active → l = { l with status := .active } :=
    fun l hl => by rw [← hl]
  rw [continueActive, lifecycle_resetIdentityCounters, lifecycle_clockStart]
  exact hactive _ h

theorem moves_releaseToPrevious {prev : SessionStatus} (hs : m.session.status = .onHold)
    (hG : G.starts) : Moves G m.lifecycle (releaseToPrevious m prev).lifecycle := by
  have hrow : ∀ st, ((m.closeOpenPeriod m.now).set fun s =>
      { clearedHold s with status := st, checkAttemptsResetAt := some m.now }).lifecycle =
      { m.lifecycle.closeOpenPeriod m.now with status := st } := fun st => by
    rw [lifecycle_set_status _ (t := st) fun _ => rfl, lifecycle_closeOpenPeriod]
  rw [releaseToPrevious, lifecycle_enqueueCommand]
  have hnext : statusAfterRelease prev = .active ∨ statusAfterRelease prev = .invited ∨
      statusAfterRelease prev = .ready := by
    cases prev <;> simp [statusAfterRelease]
  generalize statusAfterRelease prev = next at hnext ⊢
  obtain rfl | hnext := hnext
  · rw [if_pos rfl, lifecycle_continueActive rfl]
    exact .single (hrow .active ▸ .releaseActive .holdReleased hs hG)
  · rw [if_neg (by obtain rfl | rfl := hnext <;> decide)]
    exact .single (hrow next ▸ .release next hs hnext)

theorem moves_releaseHold {opts : ReleaseOptions} (hG : G.starts) :
    (releaseHold m opts).Yields fun m' => Moves G m.lifecycle m'.lifecycle := by
  refine (assertStatus_yields m _ _).bind fun _ hs => .guard fun _ => ?_
  rw [List.mem_singleton] at hs
  have hnote := lifecycle_noteRelease m (m.session.holdReason == some .staffVerification)
  generalize noteRelease m (m.session.holdReason == some .staffVerification) = n at hnote ⊢
  rw [← hnote]
  have hsn : n.session.status = .onHold := (congrArg Lifecycle.status hnote).trans hs
  refine .ite (fun _ => .pure ?_) fun _ => .ite (fun _ => .pure ?_) fun _ => .pure ?_
  · rw [lifecycle_releaseToInitial]
    exact .single (.release .invited hsn (.inl rfl))
  · exact .of_eq (lifecycle_releaseToCheck _ _ _)
  · exact moves_releaseToPrevious hsn hG

theorem moves_terminateSession :
    (terminateSession m).Yields fun m' => Moves G m.lifecycle m'.lifecycle := by
  rw [terminateSession]
  exact .guard fun _ => .pure (moves_finalizeSession_of_ne (by decide))

theorem moves_staffSubmit :
    (staffSubmit m).Yields fun m' => Moves G m.lifecycle m'.lifecycle :=
  (assertStatus_yields m _ _).bind fun _ _ => .pure (moves_finalizeSession_of_ne (by decide))

theorem moves_withdrawConsent :
    (withdrawConsent m).Yields fun m' => Moves G m.lifecycle m'.lifecycle := by
  rw [withdrawConsent]
  exact .guard fun _ => .guard fun _ => .pure (moves_finalizeSession_of_ne (by decide))

theorem moves_closeAbandonedSession {days : Nat} :
    Moves G m.lifecycle (closeAbandonedSession m days).lifecycle := by
  rw [closeAbandonedSession]
  split
  · exact moves_finalizeSession_of_ne (by decide)
  · exact .refl

theorem moves_extendSessionTime {minutes : Between 1 1440} :
    (extendSessionTime m minutes).Yields fun m' => Moves G m.lifecycle m'.lifecycle := by
  refine (assertStatus_yields m _ _).bind fun _ _ => .pure ?_
  have hms := minutes.minMs_bounds
  rw [lifecycle_addEvent _ _ (by rfl)]
  exact .single (.extend minutes.minMs (by omega))

/-! ## Recovery -/

theorem moves_applyResumeLimit {limit : ResumeLimit} :
    (applyResumeLimit m policy limit).Yields fun m' => Moves G m.lifecycle m'.lifecycle := by
  rw [applyResumeLimit]
  split
  · exact .ok (moves_finalizeSession_of_ne (by decide))
  · exact moves_holdNow rfl

theorem moves_applyOfflineLimit :
    (applyOfflineLimit m policy).Yields fun m' => Moves G m.lifecycle m'.lifecycle := by
  rw [applyOfflineLimit]
  split
  · exact .ok .refl
  · exact moves_applyResumeLimit

theorem moves_enforceReconnectLimits {instanceId : InstanceId} :
    (enforceReconnectLimits m instanceId).Yields fun r =>
      Moves G m.lifecycle r.1.lifecycle := by
  refine .ite (fun _ => .ok .refl) fun _ => ?_
  split
  · exact .ok .refl
  · exact Except.Yields.map (f := fun m => (m, true)) moves_applyResumeLimit

theorem moves_enforceOfflineLimits :
    (enforceOfflineLimits m).Yields fun m' => Moves G m.lifecycle m'.lifecycle := by
  exact .ite (fun _ => moves_applyOfflineLimit) fun _ => .ok .refl

/-- The ended exam may be reopened, and time is left if it had started. -/
structure Reopenable (m : SessionMutation) (req : ReopenRequest) : Prop where
  eligible : loadReopenEligibility m req.reviewResolved = none
  timeLeft : m.session.startedAt.isSome → REOPEN_MIN_REMAINING_MS ≤
    m.session.durationMs + req.addMinutes.minMs - m.session.usedMs

instance (m : SessionMutation) (req : ReopenRequest) : Decidable (Reopenable m req) :=
  decidable_of_iff
    (loadReopenEligibility m req.reviewResolved = none ∧
      (m.session.startedAt.isSome → REOPEN_MIN_REMAINING_MS ≤
        m.session.durationMs + req.addMinutes.minMs - m.session.usedMs))
    ⟨fun ⟨a, b⟩ => ⟨a, b⟩, fun ⟨a, b⟩ => ⟨a, b⟩⟩

/-- If the exam is put back on hold, no completed period reaches behind its old end. -/
def ReopenGapClear (m : SessionMutation) (req : ReopenRequest) : Prop :=
  Reopenable m req → m.session.startedAt.isSome →
    ∀ e ∈ m.session.endedAt, Periods.ClearBy m.periods e
  deriving Decidable

/-- If the exam is put back on hold, what is reported of the event started before its old end. -/
def ReopenAfterReports (ev : EventId) (m : SessionMutation) (req : ReopenRequest) : Prop :=
  Reopenable m req → ∀ e ∈ m.lifecycle.reports, e.id = ev → m.session.startedAt.isSome →
    ∀ t ∈ m.session.endedAt, e.startedAt < t
  deriving Decidable

theorem moves_reopenSession {req : ReopenRequest} (hG : G.gap → ReopenGapClear m req)
    (hR : ∀ ev, G.reports ev → ReopenAfterReports ev m req) :
    (reopenSession m req).Yields fun m' => Moves G m.lifecycle m'.lifecycle := by
  rw [reopenSession]
  split
  next => exact .thrown _
  next helig =>
    rw [← eq_none_iff_forall_ne_some] at helig
    have hs : m.session.status.isTerminal := reopenEligibility_terminal helig
    have hms := req.addMinutes.minMs_bounds
    refine .guard fun hleft => .pure ?_
    have hcan : Reopenable m req := ⟨helig, fun h => not_lt.1 fun hlt => hleft ⟨h, hlt⟩⟩
    rw [lifecycle_addEvent _ _ (by rfl)]
    have hmove : Move G m.lifecycle (m.lifecycle.reopen req.addMinutes.minMs) :=
      .reopen _ (by omega) hs (fun hg => hG hg hcan) fun e he hr => hR e.id hr hcan e he rfl
    rw [Lifecycle.reopen] at hmove
    split
    next h =>
      rw [if_pos (show m.lifecycle.startedAt.isSome = true from h)] at hmove
      exact .single hmove
    next h =>
      rw [if_neg (show ¬ m.lifecycle.startedAt.isSome = true from h)] at hmove
      exact .single hmove

/-! ## Accommodations -/

/-- A session whose accommodations follow the records has used no exam time. -/
def RefreshedUnused (m : SessionMutation) : Prop :=
  m.session.startedAt = none → m.session.status ∈ UNSTARTED → m.session.usedMs = 0
  deriving Decidable

theorem view_refreshedSession (s : ExamSession) (rows : List Accommodation) (now : Int) :
    ∃ extraMs, (0 ≤ baseDurationMs s → 0 ≤ extraMs) ∧ (refreshedSession s rows now).view =
      { s.view with
        extraMs
        clock := { s.view.clock with
          durationMs := s.view.clock.durationMs - s.view.extraMs + extraMs } } := by
  refine ⟨extraTimeOf (sessionSnapshot (applicableAccommodations rows now) (baseDurationMs s) now),
    fun h => extraTimeOf_sessionSnapshot_nonneg _ h now, ?_⟩
  rw [refreshedSession]
  split
  next h =>
    rw [h.2]
    simp [ExamSession.view, sessionClock]
  next => rfl

theorem moves_refreshSessionAccommodations {rows : List Accommodation}
    (hG : G.duration → RefreshedUnused m) :
    Moves G m.lifecycle (refreshSessionAccommodations m rows).lifecycle := by
  by_cases h : m.session.startedAt.isSome ∨ m.session.status ∉ UNSTARTED
  · exact .of_eq (by rw [refreshSessionAccommodations, if_pos h])
  · rw [not_or, not_isSome_iff_eq_none, not_not] at h
    obtain ⟨extraMs, hextra, hview⟩ := view_refreshedSession m.session rows m.now
    have hrefresh : (refreshSessionAccommodations m rows).lifecycle =
        m.lifecycle.refresh extraMs := by
      rw [refreshSessionAccommodations, if_neg (by simpa using h)]
      change m.lifecycle.withRow (refreshedSession m.session rows m.now).view = _
      rw [hview]
      rfl
    rw [hrefresh]
    exact .single (.refresh _ h.2 h.1 hextra fun hd => hG hd h.1 h.2)

end SmartProctoring
