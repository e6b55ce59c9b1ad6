import Mathlib.Data.List.Sort
import SmartProctoring.Server.InstanceUsage

/-!
# A locked session and its primitives

`services/session-state.ts`, first half.  Every change to a session runs with its row locked, so the
operations on one session are a sequence of functions on `SessionMutation`: the session row together
with the rows that hang off it, as the transaction sees them, at the server time `now`.  An
operation that refuses throws an `HttpError` and the transaction is rolled back.

## What is here

* `SessionMutation` and `SessionMutation.set`;
* the clock (`clockStart`, `clockStop`), periods (`closeOpenPeriod`, `insertPeriod`,
  `switchPeriod`), events (`addEvent`, `closeEvent`, `closeOpenEvents`), the identity counters and
  the command queue;
* for each primitive, the simp lemmas saying which components it leaves alone.

Periods are kept ordered by start (the `ORDER BY started_at` of the source).  `clockLog` is no
column: it records the running segments the clock has completed, for the accounting of exam time.
-/

set_option autoImplicit false

namespace SmartProctoring

/-- `UNOBSERVED_KINDS`: periods in which monitoring does not run. -/
def UNOBSERVED_KINDS : List PeriodKind := [.paused, .disconnected, .onHold]

/-- Behavioural events with timestamps inside these periods are dropped. -/
def BLOCKING_PERIOD_KINDS : List PeriodKind := [.paused, .onHold]

/-- A completed running segment of the exam clock: when it was started, the instant it was stopped
at, and the instant it would have run out. -/
structure ClockSegment where
  startedAt : Int
  stoppedAt : Int
  runsOutAt : Int

/-- The time a segment charges: up to the instant the clock ran out, if that came first. -/
def ClockSegment.chargedMs (r : ClockSegment) : Int := min r.stoppedAt r.runsOutAt - r.startedAt

/-- The running segment that stopping the clock at `atMs` completes. -/
def ExamClock.segmentAt (c : ExamClock) (atMs : Int) : List ClockSegment :=
  match c.runningSince with
  | some rs => [⟨rs, max rs atMs, c.runsOutAt rs⟩]
  | none => []

/-- A locked session inside a transaction. -/
structure SessionMutation where
  now : Int
  /-- The exam's rules as the transaction reads them (merged with the organisation default). -/
  examPolicy : ProctoringPolicy
  session : ExamSession
  periods : List SessionPeriod := []
  events : EventTable := .empty
  commands : List SessionCommand := []
  checks : List Check := []
  deviceRecords : List DeviceRecord := []
  references : List IdentityReference := []
  pauseRequests : List PauseRequest := []
  answers : List Answer := []
  /-- Capture instants of screenshots and identity samples that were delivered late. -/
  lateCaptures : List Int := []
  nextId : Nat := 0
  clockLog : List ClockSegment := []
  /-- Bursts dropped undecided: their frame embeddings are erased at flush. -/
  droppedBurstIds : List BurstId := []
  eraseAllUndecidedFrames : Bool := false

/-- `l` with its last element that satisfies `sel` modified by `f`. -/
def modifyLast {α : Type} (sel : α → Bool) (f : α → α) : List α → List α
  | [] => []
  | x :: xs => if sel x && !xs.any sel then f x :: xs else x :: modifyLast sel f xs

namespace SessionMutation

/-! ## The session row -/

/-- Update session fields. -/
def set (m : SessionMutation) (f : ExamSession → ExamSession) : SessionMutation :=
  { m with session := f m.session }

/-- `m.policy()`. -/
def policy (m : SessionMutation) : ProctoringPolicy := effectivePolicy m.session m.examPolicy

/-- `assertStatus`: refuses (409) unless the session is in one of the statuses. -/
def assertStatus (m : SessionMutation) (allowed : List SessionStatus)
    (message : String := "This action is not possible in the exam's current state") :
    Except HttpError Unit :=
  if m.session.status ∈ allowed then .ok () else .error (invalidState message)

/-! ## The clock -/

def clockStart (m : SessionMutation) (atMs : Int) : SessionMutation :=
  m.set fun s =>
    { s with runningSince := (SmartProctoring.clockStart (sessionClock s) atMs).runningSince }

/-- Stop the clock; the segment it completes goes to the log. -/
def clockStop (m : SessionMutation) (atMs : Int) : SessionMutation :=
  let c := SmartProctoring.clockStop (sessionClock m.session) atMs
  { m.set fun s => { s with usedMs := c.usedMs, runningSince := c.runningSince } with
    clockLog := m.clockLog ++ (sessionClock m.session).segmentAt atMs }

/-! ## Events -/

/-- The input of `addEvent`: `startedAt` defaults to now, the end to the start; a span may be left
open. -/
structure ServerEventInput where
  type : EventType
  source : Option EventSource := none
  startedAt : Option Int := none
  endedAt : Option Int := none
  /-- Span events: keep open.  Ignored for markers. -/
  isOpen : Bool := false
  details : EventDetails := {}

/-- The row `addEvent` inserts. -/
def eventRow (m : SessionMutation) (input : ServerEventInput) : EventRow :=
  let startedAt := input.startedAt.getD m.now
  let isOpen := input.type.span && input.isOpen && input.endedAt.isNone
  { id := m.events.freshId
    type := input.type
    source := input.source.getD (input.type.sources.headD .serverSystem)
    status := if isOpen then .open else .closed
    startedAt
    endedAt := if isOpen then none else some (max startedAt (input.endedAt.getD startedAt))
    details := input.details
    firstReceivedAt := m.now
    receivedAt := m.now }

def addEvent (m : SessionMutation) (input : ServerEventInput) : SessionMutation :=
  { m with events := m.events.insert (m.eventRow input) }

/-- The id `addEvent` gives to the row it inserts. -/
def nextEventId (m : SessionMutation) : EventId := m.events.freshId

/-- Close the open events that `sel` selects at `atMs`; `note` is what their details say about it.
`version` belongs to the reporting client and is not touched. -/
def closeEvents (m : SessionMutation) (sel : EventRow → Bool) (atMs : Int)
    (note : EventDetails → EventDetails) : SessionMutation :=
  { m with
    events := m.events.modify (fun e => e.isOpen && sel e)
      (fun e => { e.closeAt atMs with details := note e.details, receivedAt := m.now })
      fun _ => rfl }

/-- Close one event if it is open, recording what closed it. -/
def closeEvent (m : SessionMutation) (id : EventId) (atMs : Int) (by' : ClosedBy) :
    SessionMutation :=
  m.closeEvents (fun e => e.id == id) atMs fun d => { d with closedBy := some by' }

def setIdentityState (m : SessionMutation) (state : IdentityEngineState) : SessionMutation :=
  m.set fun s => { s with identityState := state }

/-- Close all open span events at `atMs` (monitoring stopped: pause, hold, end); `keep` lists the
types to leave open.  The observations the session row points at are forgotten with them. -/
def closeOpenEvents (m : SessionMutation) (atMs : Int) (reason : ClosedBy)
    (keep : List EventType := []) : SessionMutation :=
  let closes (e : EventRow) : Bool := decide (e.type ∉ keep)
  let ids := (m.events.rows.filter fun e => e.isOpen && closes e).map (·.id)
  let forget (id : Option EventId) : Option EventId := id.filter fun i => decide (i ∉ ids)
  let m := m.closeEvents closes atMs fun d => { d with closedBy := some reason }
  m.set fun s =>
    { s with
      identityState :=
        { s.identityState with
          openMismatchEventId := forget s.identityState.openMismatchEventId
          openUnverifiableEventId := forget s.identityState.openUnverifiableEventId
          openFeedSuspectEventId := forget s.identityState.openFeedSuspectEventId
          openNoSamplesEventId := forget s.identityState.openNoSamplesEventId }
      reportingEventId := forget s.reportingEventId }

/-! ## Periods -/

/-- The open period; the latest one, should there be several. -/
def openPeriodRow (m : SessionMutation) : Option SessionPeriod :=
  (m.periods.filter (·.isOpen)).getLast?

/-- Close the currently open period (if any) at `atMs`.  Emits `unobserved_period` for unobserved
kinds. -/
def closeOpenPeriod (m : SessionMutation) (atMs : Int) : SessionMutation :=
  match m.openPeriodRow with
  | none => m
  | some p =>
    let m := { m with periods := modifyLast (·.isOpen) (·.closeAt atMs) m.periods }
    if p.kind ∈ UNOBSERVED_KINDS then
      m.addEvent
        { type := .unobservedPeriod
          startedAt := some p.startedAt
          endedAt := some (max p.startedAt atMs) }
    else m

/-- Insert a period, open if `endedAt` is `none` (close any open one first). -/
def insertPeriod (m : SessionMutation) (kind : PeriodKind) (startedAt : Int)
    (endedAt : Option Int := none) (reason : PeriodReason := .text none)
    (metadata : PeriodMeta := {}) : SessionMutation :=
  let row : SessionPeriod :=
    { kind, startedAt, endedAt := endedAt.map (max startedAt), reason, metadata }
  let m := { m with periods := m.periods.orderedInsert (fun p q => p.startedAt < q.startedAt) row }
  match row.endedAt with
  | some e =>
    if kind ∈ UNOBSERVED_KINDS then
      m.addEvent { type := .unobservedPeriod, startedAt := some startedAt, endedAt := some e }
    else m
  | none => m

/-- Close the open period and open a new one. -/
def switchPeriod (m : SessionMutation) (kind : PeriodKind) (atMs : Int)
    (reason : PeriodReason := .text none) (metadata : PeriodMeta := {}) : SessionMutation :=
  (m.closeOpenPeriod atMs).insertPeriod kind atMs none reason metadata

/-! ## Identity counters and commands -/

/-- Reset per-period identity aggregation (a new period begins).  When the session is (again) active
the start-up sampling cadence begins and an `exam_start` sample is requested.  Bursts still being
collected belong to the previous period: they are dropped. -/
def resetIdentityCounters (m : SessionMutation) : SessionMutation :=
  let active := m.session.status == .active
  let st := m.session.identityState
  { m.setIdentityState
      { st with
        followUpRequestedAt := none
        identicalDhashStreak := 0
        lastSampleDhash := none
        evidence := {}
        pendingBursts := []
        secondOpinionPending := none
        secondOpinionVeto := none
        activeSince := if active then some m.now else none
        sampleRequest := if active then some ⟨.examStart, m.now⟩ else none
        cadenceMs := none } with
    droppedBurstIds := m.droppedBurstIds ++ st.pendingBursts.map (·.id) }

/-- The session ends: bursts still being collected are never decided, and every undecided frame's
embedding is erased. -/
def dropPendingBursts (m : SessionMutation) : SessionMutation :=
  { m.setIdentityState { m.session.identityState with pendingBursts := [] } with
    eraseAllUndecidedFrames := true }

def enqueueCommand (m : SessionMutation) (command : CandidateCommand)
    (targetInstanceId : Option InstanceId := none) : SessionMutation :=
  { m with commands := m.commands ++ [{ targetInstanceId, command, createdAt := m.now }] }

/-! ## What the primitives leave alone -/

variable (m : SessionMutation)

@[simp] theorem set_session (f : ExamSession → ExamSession) : (m.set f).session = f m.session := rfl

@[simp] theorem set_now (f : ExamSession → ExamSession) : (m.set f).now = m.now := rfl

@[simp] theorem clockStart_now (atMs : Int) : (m.clockStart atMs).now = m.now := rfl

@[simp] theorem clockStop_now (atMs : Int) : (m.clockStop atMs).now = m.now := rfl

@[simp] theorem clockStop_session (atMs : Int) :
    (m.clockStop atMs).session =
      { m.session with
        usedMs := (SmartProctoring.clockStop (sessionClock m.session) atMs).usedMs
        runningSince := none } := by
  simp [clockStop, set]

@[simp] theorem addEvent_session (input : ServerEventInput) :
    (m.addEvent input).session = m.session := rfl

@[simp] theorem addEvent_now (input : ServerEventInput) : (m.addEvent input).now = m.now := rfl

@[simp] theorem closeEvents_session (sel : EventRow → Bool) (atMs : Int)
    (note : EventDetails → EventDetails) : (m.closeEvents sel atMs note).session = m.session := rfl

@[simp] theorem closeEvents_now (sel : EventRow → Bool) (atMs : Int)
    (note : EventDetails → EventDetails) : (m.closeEvents sel atMs note).now = m.now := rfl

@[simp] theorem closeEvent_session (id : EventId) (atMs : Int) (by' : ClosedBy) :
    (m.closeEvent id atMs by').session = m.session := rfl

@[simp] theorem closeEvent_now (id : EventId) (atMs : Int) (by' : ClosedBy) :
    (m.closeEvent id atMs by').now = m.now := rfl

@[simp] theorem closeOpenEvents_now (atMs : Int) (reason : ClosedBy) (keep : List EventType) :
    (m.closeOpenEvents atMs reason keep).now = m.now := rfl

@[simp] theorem closeOpenPeriod_session (atMs : Int) :
    (m.closeOpenPeriod atMs).session = m.session := by
  rw [closeOpenPeriod]
  split
  · rfl
  · split <;> rfl

@[simp] theorem closeOpenPeriod_now (atMs : Int) : (m.closeOpenPeriod atMs).now = m.now := by
  rw [closeOpenPeriod]
  split
  · rfl
  · split <;> rfl

@[simp] theorem insertPeriod_session (kind : PeriodKind) (startedAt : Int) (endedAt : Option Int)
    (reason : PeriodReason) (metadata : PeriodMeta) :
    (m.insertPeriod kind startedAt endedAt reason metadata).session = m.session := by
  cases endedAt with
  | none => rfl
  | some e =>
    simp only [insertPeriod, Option.map_some]
    split <;> rfl

@[simp] theorem insertPeriod_now (kind : PeriodKind) (startedAt : Int) (endedAt : Option Int)
    (reason : PeriodReason) (metadata : PeriodMeta) :
    (m.insertPeriod kind startedAt endedAt reason metadata).now = m.now := by
  cases endedAt with
  | none => rfl
  | some e =>
    simp only [insertPeriod, Option.map_some]
    split <;> rfl

@[simp] theorem switchPeriod_session (kind : PeriodKind) (atMs : Int) (reason : PeriodReason)
    (metadata : PeriodMeta) :
    (m.switchPeriod kind atMs reason metadata).session = m.session := by
  simp [switchPeriod]

@[simp] theorem switchPeriod_now (kind : PeriodKind) (atMs : Int) (reason : PeriodReason)
    (metadata : PeriodMeta) : (m.switchPeriod kind atMs reason metadata).now = m.now := by
  simp [switchPeriod]

@[simp] theorem setIdentityState_session (state : IdentityEngineState) :
    (m.setIdentityState state).session = { m.session with identityState := state } := rfl

@[simp] theorem setIdentityState_now (state : IdentityEngineState) :
    (m.setIdentityState state).now = m.now := rfl

@[simp] theorem resetIdentityCounters_now : m.resetIdentityCounters.now = m.now := rfl

@[simp] theorem enqueueCommand_session (command : CandidateCommand)
    (target : Option InstanceId) : (m.enqueueCommand command target).session = m.session := rfl

@[simp] theorem enqueueCommand_now (command : CandidateCommand) (target : Option InstanceId) :
    (m.enqueueCommand command target).now = m.now := rfl

end SessionMutation

end SmartProctoring
