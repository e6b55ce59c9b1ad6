import SmartProctoring.Server.Operations

/-!
# The life of a session, without its surroundings

What the timeline, the exam clock, the answers and the reported events are about, in one record: a
`Lifecycle` has the status and the clock, the periods, the answers, the events the candidate's
browser reported, and of everything else only when the browser was last heard from and when checks
began.  Its operations are those of the source stripped of messages, commands, identity state and
server events.

* `Periods` has the operations on the list of periods.
* `SessionMutation.lifecycle` is the view of a session; the lemmas after it say how each primitive of
  `SessionState` acts on the view, or that it does not.
* `Move` (next file) says what one transaction can do to a lifecycle.
-/

set_option autoImplicit false

namespace SmartProctoring

/-! ## Periods -/

namespace Periods

variable (ps : List SessionPeriod)

def openRow : Option SessionPeriod := (ps.filter (·.isOpen)).getLast?

/-- The open period closed. -/
def closeOpen (atMs : Int) : List SessionPeriod := modifyLast (·.isOpen) (·.closeAt atMs) ps

def insert (row : SessionPeriod) : List SessionPeriod :=
  ps.orderedInsert (fun p q => p.startedAt < q.startedAt) row

/-- The open period closed where a new one begins. -/
def switch (row : SessionPeriod) : List SessionPeriod :=
  insert (closeOpen ps row.startedAt) row

/-- A hold that begins now, or continues the one that is open. -/
def hold (now : Int) (reason : HoldReason) (prev : SessionStatus) : List SessionPeriod :=
  if (openRow ps).any (fun p => p.kind == .onHold) then
    modifyLast (·.isOpen) (fun p => { p with reason := .hold reason }) ps
  else
    switch ps
      { kind := .onHold
        startedAt := now
        endedAt := none
        reason := .hold reason
        metadata := { previousStatus := some prev } }

def endAt (p : SessionPeriod) (cut : Int) : List SessionPeriod :=
  match p.endedAt with
  | none => closeOpen ps cut
  | some e =>
    if cut < e then ps.map fun q => if q = p then { q with endedAt := some cut } else q else ps

/-- One active period of a reporting gap. -/
def cutActive (gapStart stop : Int) (evId : EventId) (endReason : SessionEndReason)
    (ps : List SessionPeriod) (p : SessionPeriod) : List SessionPeriod :=
  let cut := max p.startedAt gapStart
  let to' := min (p.endedAt.getD stop) stop
  if cut < to' then
    insert (endAt ps p cut)
      { kind := .disconnected
        startedAt := cut
        endedAt := some (max cut to')
        reason := .gapNotReturned
        metadata := { reportingEventId := some evId, endReason := some endReason } }
  else endAt ps p cut

/-- The active time of a reporting gap, if there is one, becomes `disconnected`. -/
def carve (gap : Option (Int × EventId)) (stop : Int) (endReason : SessionEndReason) :
    List SessionPeriod :=
  match gap with
  | none => ps
  | some (gapStart, evId) =>
    (activeWithin ps gapStart stop).foldl (cutActive gapStart stop evId endReason) ps

/-- The period before a check ends; the check has a period of its own, up to now. -/
def closeGap (now : Int) (check : Check) (instanceId : InstanceId) (gapStart : Int) :
    List SessionPeriod :=
  let closed := match openRow ps with
    | none => ps
    | some p =>
      if check.purpose = CheckPurpose.reconnect ∧ p.kind = PeriodKind.active then
        if gapStart < check.issuedAt then
          insert (closeOpen ps gapStart)
            { kind := .disconnected
              startedAt := gapStart
              endedAt := some (max gapStart check.issuedAt)
              reason := .browserReconnected
              metadata := { newInstanceId := some instanceId } }
        else closeOpen ps gapStart
      else closeOpen ps (max p.startedAt check.issuedAt)
  insert closed
    { kind := .resumeCheck
      startedAt := check.issuedAt
      endedAt := some (max check.issuedAt now)
      reason := .check check.purpose
      metadata := { checkId := some check.id } }

end Periods

/-! ## The record -/

structure Lifecycle where
  now : Int
  status : SessionStatus
  clock : ExamClock
  /-- The part of the duration that is extra time of accommodations. -/
  extraMs : Int
  startedAt : Option Int
  endedAt : Option Int
  endReason : Option SessionEndReason
  lastHeartbeatAt : Option Int
  /-- When the session's checks were issued. -/
  checkStarts : List Int
  periods : List SessionPeriod
  clockLog : List ClockSegment
  answers : List Answer
  score : Option SessionScore
  /-- The events the candidate's browser reported. -/
  reports : List EventRow

/-- The part of the session row that a lifecycle has. -/
structure RowView where
  status : SessionStatus
  clock : ExamClock
  extraMs : Int
  startedAt : Option Int
  endedAt : Option Int
  endReason : Option SessionEndReason
  lastHeartbeatAt : Option Int
  score : Option SessionScore

def ExamSession.view (s : ExamSession) : RowView where
  status := s.status
  clock := sessionClock s
  extraMs := extraTimeOf s.accommodations
  startedAt := s.startedAt
  endedAt := s.endedAt
  endReason := s.endReason
  lastHeartbeatAt := s.lastHeartbeatAt
  score := s.score

namespace Lifecycle

def row (l : Lifecycle) : RowView where
  status := l.status
  clock := l.clock
  extraMs := l.extraMs
  startedAt := l.startedAt
  endedAt := l.endedAt
  endReason := l.endReason
  lastHeartbeatAt := l.lastHeartbeatAt
  score := l.score

def withRow (l : Lifecycle) (v : RowView) : Lifecycle :=
  { l with
    status := v.status
    clock := v.clock
    extraMs := v.extraMs
    startedAt := v.startedAt
    endedAt := v.endedAt
    endReason := v.endReason
    lastHeartbeatAt := v.lastHeartbeatAt
    score := v.score }

def mapRow (l : Lifecycle) (g : RowView → RowView) : Lifecycle := l.withRow (g l.row)

/-! ## The primitives -/

def stopClock (l : Lifecycle) (atMs : Int) : Lifecycle :=
  { l with
    clock := clockStop l.clock atMs
    clockLog := l.clockLog ++ l.clock.segmentAt atMs }

def startClock (l : Lifecycle) (atMs : Int) : Lifecycle :=
  { l with clock := clockStart l.clock atMs }

/-- The row of an event that is closed at `atMs` if it is open and selected. -/
def closeReport (now : Int) (sel : EventRow → Bool) (atMs : Int)
    (note : EventDetails → EventDetails) (e : EventRow) : EventRow :=
  if e.isOpen && sel e then
    { e.closeAt atMs with details := note e.details, receivedAt := now }
  else e

def closeReports (l : Lifecycle) (sel : EventRow → Bool) (atMs : Int)
    (note : EventDetails → EventDetails) : Lifecycle :=
  { l with reports := l.reports.map (closeReport l.now sel atMs note) }

def openPeriodRow (l : Lifecycle) : Option SessionPeriod := Periods.openRow l.periods

def closeOpenPeriod (l : Lifecycle) (atMs : Int) : Lifecycle :=
  { l with periods := Periods.closeOpen l.periods atMs }

def insertPeriod (l : Lifecycle) (row : SessionPeriod) : Lifecycle :=
  { l with periods := Periods.insert l.periods row }

def switchPeriod (l : Lifecycle) (row : SessionPeriod) : Lifecycle :=
  { l with periods := Periods.switch l.periods row }

/-! ## The transitions -/

/-- Monitoring stops: the open reports close, except those of the types to keep. -/
def closeOpenReports (l : Lifecycle) (atMs : Int) (reason : ClosedBy)
    (keep : List EventType := []) : Lifecycle :=
  l.closeReports (fun e => decide (e.type ∉ keep)) atMs fun d => { d with closedBy := some reason }

/-- The clock when a pause begins. -/
def pauseClock (l : Lifecycle) : TimerBehavior → Lifecycle
  | .stop => l.stopClock l.now
  | .continue => l.startClock l.now

def pause (l : Lifecycle) (behavior : TimerBehavior) (reason : Option String) : Lifecycle :=
  { l.pauseClock behavior with
    status := .paused
    periods := Periods.switch l.periods
      { kind := .paused
        startedAt := l.now
        endedAt := none
        reason := .text reason
        metadata := { timerBehavior := some behavior } }
    reports := (l.closeOpenReports l.now .pause [.reportingInterrupted]).reports }

/-- A hold of a session that was `prev`. -/
def hold (l : Lifecycle) (reason : HoldReason) (prev : SessionStatus) : Lifecycle :=
  { l.stopClock l.now with
    status := .onHold
    periods := Periods.hold l.periods l.now reason prev
    reports :=
      if prev ≠ .onHold then (l.closeOpenReports l.now .hold [.reportingInterrupted]).reports
      else l.reports }

/-- The active time of a reporting gap, if there is one, becomes `disconnected`; what a gone browser
left open ends where the gap begins. -/
def carveGap (l : Lifecycle) (gap : Option (Int × EventId)) (stop : Int)
    (endReason : SessionEndReason) : Lifecycle :=
  { l with
    periods := Periods.carve l.periods gap stop endReason
    reports := match gap with
      | none => l.reports
      | some (gapStart, _) =>
        if (activeWithin l.periods gapStart stop).isEmpty then l.reports
        else
          (l.closeReports (·.fromClient) gapStart fun d =>
            { d with closedBy := some .browserNotReturned }).reports }

def endInstant (l : Lifecycle) (endReason : SessionEndReason) : Int :=
  match endReason, l.clock.runningSince with
  | .timeExpired, some rs => max rs (min l.now (l.clock.runsOutAt rs))
  | _, _ => l.now

/-- The session closed at `atMs`, in a reporting gap if there is one. -/
def closeSession (l : Lifecycle) (endReason : SessionEndReason) (gap : Option (Int × EventId))
    (atMs : Int) : Lifecycle :=
  let l := l.stopClock atMs
  let l := l.carveGap gap atMs endReason
  let l := l.closeOpenReports atMs .sessionEnd
  let l := l.closeOpenPeriod atMs
  { l with status := endStatus endReason, endReason := some endReason, endedAt := some atMs }

/-- The end. -/
def finish (l : Lifecycle) (endReason : SessionEndReason) (gap : Option (Int × EventId)) :
    Lifecycle :=
  let atMs := l.endInstant endReason
  let wasStarted := l.startedAt.isSome
  let l := l.closeSession endReason gap atMs
  if wasStarted ∧ endReason ≠ .abandoned ∧ endReason ≠ .candidateWithdrew then
    { l with score := some { gradedAt := atMs, graded := l.answers } }
  else l

/-- The exam goes on: an active period opens and the clock runs. -/
def continueActive (l : Lifecycle) (reason : PeriodReason) : Lifecycle :=
  let l := l.insertPeriod { kind := .active, startedAt := l.now, endedAt := none, reason }
  { l.startClock l.now with status := .active }

/-- The exam starts; the session keeps a snapshot of its accommodations, with `extraMs` of extra
time. -/
def start (l : Lifecycle) (extraMs : Int) : Lifecycle :=
  let l := { l with status := .active, extraMs, startedAt := some (l.startedAt.getD l.now) }
  (l.startClock l.now).switchPeriod { kind := .active, startedAt := l.now, endedAt := none }

/-- The accommodations of an unstarted exam now give `extraMs` of extra time. -/
def refresh (l : Lifecycle) (extraMs : Int) : Lifecycle :=
  { l with
    extraMs
    clock := { l.clock with durationMs := l.clock.durationMs - l.extraMs + extraMs } }

/-- A check closes the gap before it. -/
def closeGap (l : Lifecycle) (check : Check) (instanceId : InstanceId) (gapStart : Int) :
    Lifecycle :=
  { l with periods := Periods.closeGap l.periods l.now check instanceId gapStart }

/-- An ended exam that had started is put on hold from its old end on; one that had not goes back to
the check-in. -/
def reopen (l : Lifecycle) (addMs : Int) : Lifecycle :=
  let l' := { l with
    endReason := none
    endedAt := none
    score := none
    clock := { l.clock with durationMs := l.clock.durationMs + addMs } }
  if l.startedAt.isSome then
    { l'.insertPeriod
        { kind := .onHold
          startedAt := l.endedAt.getD l.now
          endedAt := none
          reason := .recovery
          metadata := { reopenedAt := some l.now } } with
      status := .onHold }
  else { l' with status := .invited }

end Lifecycle

/-! ## The view of a session -/

namespace SessionMutation

variable (m : SessionMutation)

def lifecycle : Lifecycle where
  now := m.now
  status := m.session.status
  clock := sessionClock m.session
  extraMs := extraTimeOf m.session.accommodations
  startedAt := m.session.startedAt
  endedAt := m.session.endedAt
  endReason := m.session.endReason
  lastHeartbeatAt := m.session.lastHeartbeatAt
  checkStarts := m.checks.map (·.issuedAt)
  periods := m.periods
  clockLog := m.clockLog
  answers := m.answers
  score := m.session.score
  reports := m.events.rows.filter (·.fromClient)

variable {f : ExamSession → ExamSession}

theorem lifecycle_set (g : RowView → RowView)
    (h : ∀ s, (f s).view = g s.view) : (m.set f).lifecycle = m.lifecycle.mapRow g := by
  change m.lifecycle.withRow (f m.session).view = m.lifecycle.withRow (g m.session.view)
  rw [h]

/-- A change that does not show. -/
theorem lifecycle_set_quiet (h : ∀ s, (f s).view = s.view) :
    (m.set f).lifecycle = m.lifecycle :=
  lifecycle_set m id h

theorem lifecycle_set_status {t : SessionStatus}
    (h : ∀ s, (f s).view = { s.view with status := t }) :
    (m.set f).lifecycle = { m.lifecycle with status := t } :=
  lifecycle_set m (fun v => { v with status := t }) h

@[simp] theorem lifecycle_clockStart (atMs : Int) :
    (m.clockStart atMs).lifecycle = m.lifecycle.startClock atMs := by
  have hclock : sessionClock (m.clockStart atMs).session =
      SmartProctoring.clockStart (sessionClock m.session) atMs := by
    cases h : m.session.runningSince <;>
      simp [clockStart, sessionClock, SmartProctoring.clockStart, h]
  simp only [lifecycle, hclock]
  rfl

@[simp] theorem lifecycle_clockStop (atMs : Int) :
    (m.clockStop atMs).lifecycle = m.lifecycle.stopClock atMs := by
  have hclock : sessionClock (m.clockStop atMs).session =
      SmartProctoring.clockStop (sessionClock m.session) atMs := by
    cases h : m.session.runningSince <;>
      simp [clockStop, sessionClock, SmartProctoring.clockStop, h]
  simp only [lifecycle, hclock]
  rfl

/-- The event is one of the server's own. -/
def ServerEventInput.fromServer (input : ServerEventInput) : Bool :=
  decide (input.source.getD (input.type.sources.headD .serverSystem) ∉ CLIENT_EVENT_SOURCES)

theorem lifecycle_addEvent (input : ServerEventInput) (h : input.fromServer = true) :
    (m.addEvent input).lifecycle = m.lifecycle := by
  have hrow : (m.eventRow input).fromClient = false := by
    simpa [EventRow.fromClient, eventRow, ServerEventInput.fromServer] using h
  have hrows : (m.events.insert (m.eventRow input)).rows.filter (·.fromClient) =
      m.events.rows.filter (·.fromClient) := by
    rw [Table.insert]
    split
    · rfl
    · rw [List.filter_append, List.filter_singleton, hrow]
      simp
  simp only [lifecycle, addEvent, hrows]

@[simp] theorem lifecycle_closeEvents (sel : EventRow → Bool) (atMs : Int)
    (note : EventDetails → EventDetails) :
    (m.closeEvents sel atMs note).lifecycle = m.lifecycle.closeReports sel atMs note := by
  have hsource : ((·.fromClient) : EventRow → Bool) ∘ Lifecycle.closeReport m.now sel atMs note =
      (·.fromClient) := by
    funext e
    simp only [Function.comp_apply, Lifecycle.closeReport]
    split <;> rfl
  have hrows : (m.closeEvents sel atMs note).events.rows.filter (·.fromClient) =
      (m.events.rows.filter (·.fromClient)).map (Lifecycle.closeReport m.now sel atMs note) := by
    change (m.events.rows.map (Lifecycle.closeReport m.now sel atMs note)).filter _ = _
    rw [List.filter_map, hsource]
  simp only [lifecycle, hrows]
  rfl

@[simp] theorem lifecycle_closeOpenEvents (atMs : Int) (reason : ClosedBy)
    (keep : List EventType) :
    (m.closeOpenEvents atMs reason keep).lifecycle =
      m.lifecycle.closeOpenReports atMs reason keep := by
  rw [Lifecycle.closeOpenReports, ← lifecycle_closeEvents]
  rfl

@[simp] theorem lifecycle_enqueueCommand (command : CandidateCommand)
    (target : Option InstanceId) : (m.enqueueCommand command target).lifecycle = m.lifecycle := rfl

@[simp] theorem lifecycle_setIdentityState (state : IdentityEngineState) :
    (m.setIdentityState state).lifecycle = m.lifecycle := rfl

@[simp] theorem lifecycle_resetIdentityCounters :
    m.resetIdentityCounters.lifecycle = m.lifecycle := rfl

@[simp] theorem lifecycle_dropPendingBursts : m.dropPendingBursts.lifecycle = m.lifecycle := rfl

theorem modifyLast_of_none {α : Type} {sel : α → Bool} {f : α → α} {l : List α}
    (h : ∀ x ∈ l, sel x = false) : modifyLast sel f l = l := by
  induction l with
  | nil => rfl
  | cons x l ih =>
    rw [modifyLast, h x List.mem_cons_self, Bool.false_and, if_neg Bool.false_ne_true,
      ih fun y hy => h y (List.mem_cons_of_mem _ hy)]

theorem openPeriodRow_eq_none : m.openPeriodRow = none ↔ ∀ p ∈ m.periods, p.isOpen = false := by
  simp [openPeriodRow]

@[simp] theorem lifecycle_closeOpenPeriod (atMs : Int) :
    (m.closeOpenPeriod atMs).lifecycle = m.lifecycle.closeOpenPeriod atMs := by
  rw [closeOpenPeriod]
  split
  next h =>
    have hnone := modifyLast_of_none (f := (·.closeAt atMs)) (m.openPeriodRow_eq_none.1 h)
    simp only [Lifecycle.closeOpenPeriod, Periods.closeOpen, lifecycle, hnone]
  next p h =>
    split
    · exact lifecycle_addEvent _ _ rfl
    · rfl

@[simp] theorem lifecycle_insertPeriod (kind : PeriodKind) (startedAt : Int)
    (endedAt : Option Int) (reason : PeriodReason) (metadata : PeriodMeta) :
    (m.insertPeriod kind startedAt endedAt reason metadata).lifecycle =
      m.lifecycle.insertPeriod
        { kind, startedAt, endedAt := endedAt.map (max startedAt), reason, metadata } := by
  cases endedAt with
  | none => rfl
  | some e =>
    simp only [insertPeriod, Option.map_some]
    split
    · exact lifecycle_addEvent _ _ rfl
    · rfl

@[simp] theorem lifecycle_switchPeriod (kind : PeriodKind) (atMs : Int) (reason : PeriodReason)
    (metadata : PeriodMeta) :
    (m.switchPeriod kind atMs reason metadata).lifecycle =
      m.lifecycle.switchPeriod { kind, startedAt := atMs, endedAt := none, reason, metadata } := by
  rw [switchPeriod, lifecycle_insertPeriod, lifecycle_closeOpenPeriod]
  rfl

end SessionMutation

end SmartProctoring
