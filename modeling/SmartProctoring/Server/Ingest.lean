import SmartProctoring.Lib.JsChar
import SmartProctoring.Server.CandidateActions

/-!
# Candidate-reported events

`services/ingest.ts`.  Events are upserts keyed by the client's episode id; a version is applied
only if it is newer than the stored one.  Events that start inside a paused or held period, before
check-in or after the end are rejected; an episode running into a pause is cut at its start, and one
of a replaced browser instance at the reconnect gap.
-/

set_option autoImplicit false

namespace SmartProctoring

/-- A client capture that reaches the server later than this after it happened was delivered
late. -/
def LATE_DELIVERY_MS : Int := 30000

def MAX_EVENTS_PER_SESSION : Nat := 5000
def MAX_DETAILS_BYTES : Nat := 16 * 1024
def CHECKIN_TOLERANCE_MS : Int := 5000
def FUTURE_TOLERANCE_MS : Int := 60000

/-! ## Requests and results -/

inductive EventPhase
  | open | update | close
  deriving DecidableEq

/-- A candidate-reported event. -/
structure EventUpsert where
  id : EventId
  type : EventType
  phase : EventPhase
  /-- `none` when it is not a finite number. -/
  startedAt : Option Int
  endedAt : Option Int
  /-- The details' JSON text. -/
  details : String := "{}"
  version : Nat
  clientInstanceId : Option InstanceId := none
  deriving DecidableEq

inductive RejectReason
  | notClientReportable | disabledByPolicy | idConflict | typeMismatch | invalidTimestamp
  | beforeCheckIn | afterEnd | inFuture | duringUnobservedPeriod | detailsTooLarge | eventLimit
  deriving DecidableEq

inductive EventResult
  | created | updated | stale | rejected (reason : RejectReason)
  deriving DecidableEq

/-- Detector toggles in the policy that disable an event type. -/
def disabledByPolicy (type : EventType) (p : ProctoringPolicy) : Bool :=
  let en := p.detection
  match type with
  | .tabHidden => !p.browser.flagTabHidden
  | .windowUnfocused => !p.browser.flagWindowBlur
  | .fullscreenExited => !p.browser.requireFullscreen
  | .candidateAbsent => !en.absence
  | .multiplePeople => !en.multiplePeople
  | .lookingAway | .repeatedLookingAway | .offscreenAttentionPattern => !en.lookingAway
  | .unusualMovement => !en.movement
  | .faceObstructed => !en.obstruction
  | .phoneDetected | .unauthorizedObject => !en.objects
  | .screenShareStopped => !(recordingPlan p).screen
  | .recordingInterrupted => !(recordingPlan p).any
  | _ => false

/-! ## The timeline -/

structure Timeline where
  periods : List SessionPeriod
  firstStart : Option Int
  endedAt : Option Int

def timelineOf (m : SessionMutation) : Timeline where
  periods := m.periods
  firstStart := m.periods.head?.map (·.startedAt)
  endedAt := m.session.endedAt

/-- The period is a pause or a hold: nothing is observed in it. -/
def SessionPeriod.blocking (p : SessionPeriod) : Bool := decide (p.kind ∈ BLOCKING_PERIOD_KINDS)

/-- The instant belongs to the period. -/
def SessionPeriod.containsInstant (p : SessionPeriod) (atMs : Int) : Bool :=
  decide (p.startedAt ≤ atMs) && p.endedAt.all fun e => decide (atMs < e)

def blockingPeriodAt (t : Timeline) (atMs : Int) : Bool :=
  t.periods.any fun p => p.blocking && p.containsInstant atMs

/-- First blocking period that starts after `from` (an episode must end before it). -/
def nextBlockStart (t : Timeline) (from' : Int) : Option Int :=
  ((t.periods.filter fun p => p.blocking && decide (from' < p.startedAt)).map (·.startedAt)).min?

/-- Where a `disconnected` period cuts an episode that started at `from`: at its start, or, if the
episode started inside it, at its end. -/
def disconnectedBoundary (from' : Int) (p : SessionPeriod) : Option Int :=
  if p.kind ≠ .disconnected then none
  else if from' < p.startedAt then some p.startedAt
  else p.endedAt.filter fun e => decide (from' < e)

/-- Episodes of a browser instance no longer in control end where its observation ended. -/
def replacedInstanceBoundary (t : Timeline) (from' : Int) : Option Int :=
  (t.periods.filterMap (disconnectedBoundary from')).min?

/-! ## Normalising the end of an episode -/

/-- What `ingestEvents` knows about an event that is stored already. -/
structure KnownEvent where
  type : EventType
  version : Nat
  clientInstanceId : Option InstanceId
  endedAt : Option Int
  isOpen : Bool
  deliveredLate : Bool

def EventRow.known (r : EventRow) : KnownEvent where
  type := r.type
  version := r.version
  clientInstanceId := r.clientInstanceId
  endedAt := r.endedAt
  isOpen := r.isOpen
  deliveredLate := r.deliveredLate

/-- `endedAt` is cut at `bound` if it is later or open. -/
def cutsAt (endedAt : Option Int) (bound : Int) : Bool :=
  endedAt.all fun e => decide (bound < e)

/-- The end a report asks for: markers are instantaneous, a closing report ends now unless it says
otherwise. -/
def reportedEnd (e : EventUpsert) (startedAt now : Int) : Option Int :=
  if e.type.span then
    if e.phase = .close then some (e.endedAt.getD now) else e.endedAt
  else some startedAt

/-- Spans are cut at the next pause or hold. -/
def cutAtBlock (t : Timeline) (startedAt : Int) (r : Option Int × Option EndClampedBy) :
    Option Int × Option EndClampedBy :=
  match nextBlockStart t startedAt with
  | some block => if cutsAt r.1 block then (some block, some .unobservedPeriod) else r
  | none => r

/-- Late updates from a replaced browser instance never extend past the reconnect gap, and never
stay open: that instance can no longer close them. -/
def cutAtReplacement (t : Timeline) (startedAt : Int) (prevEndedAt : Option Int)
    (r : Option Int × Option EndClampedBy) : Option Int × Option EndClampedBy :=
  let stillOpen : Option Int × Option EndClampedBy :=
    if r.1.isNone then
      (some (max startedAt (prevEndedAt.getD startedAt)), some .instanceReplaced)
    else r
  match replacedInstanceBoundary t startedAt with
  | some b => if cutsAt r.1 b then (some b, some .instanceReplaced) else stillOpen
  | none => stillOpen

/-- Nothing extends past the end of the session. -/
def cutAtEnd (t : Timeline) (r : Option Int × Option EndClampedBy) :
    Option Int × Option EndClampedBy :=
  match t.endedAt with
  | some endedAt =>
    if cutsAt r.1 endedAt then (some endedAt, some (r.2.getD .sessionEnd)) else r
  | none => r

/-- The stored end of a reported episode, and what cut it short. -/
def normaliseEnd (t : Timeline) (instanceId : InstanceId) (now : Int) (prev : Option KnownEvent)
    (e : EventUpsert) (startedAt : Int) : Option Int × Option EndClampedBy :=
  let r := cutAtBlock t startedAt (reportedEnd e startedAt now, none)
  let reporter := ((prev.bind (·.clientInstanceId)).or e.clientInstanceId).getD instanceId
  let r :=
    if reporter ≠ instanceId ∧ e.type.span then
      cutAtReplacement t startedAt (prev.bind (·.endedAt)) r
    else r
  let r := cutAtEnd t r
  (r.1.map (max startedAt), r.2)

/-! ## One event -/

/-- Why an upsert is not stored, in the order the reasons are looked at; `none` when it is.  A
version that is not newer than the stored one is `stale`. -/
def refusal (t : Timeline) (policy : ProctoringPolicy) (now : Int) (foreign : EventId → Bool)
    (prev : Option KnownEvent) (count : Nat) (e : EventUpsert) : Option EventResult :=
  if !isClientReportable e.type then some (.rejected .notClientReportable)
  else if disabledByPolicy e.type policy then some (.rejected .disabledByPolicy)
  else if foreign e.id then some (.rejected .idConflict)
  else if prev.any fun p => decide (p.type ≠ e.type) then some (.rejected .typeMismatch)
  else if prev.any fun p => decide (e.version ≤ p.version) then some .stale
  else
    match e.startedAt with
    | none => some (.rejected .invalidTimestamp)
    | some startedAt =>
      if t.firstStart.all fun f => decide (startedAt < f - CHECKIN_TOLERANCE_MS) then
        some (.rejected .beforeCheckIn)
      else if t.endedAt.any fun x => decide (x < startedAt) then some (.rejected .afterEnd)
      else if now + FUTURE_TOLERANCE_MS < startedAt then some (.rejected .inFuture)
      else if blockingPeriodAt t startedAt then some (.rejected .duringUnobservedPeriod)
      else if MAX_DETAILS_BYTES < utf16Length e.details then some (.rejected .detailsTooLarge)
      else if prev.isNone ∧ MAX_EVENTS_PER_SESSION ≤ count then some (.rejected .eventLimit)
      else none

/-- The row a new event is stored as, but for the columns of `writeColumns`. -/
def insertedRow (now : Int) (instanceId : InstanceId) (e : EventUpsert) (startedAt : Int)
    (r : Option Int × Option EndClampedBy) : EventRow where
  id := e.id
  type := e.type
  source := e.type.clientSource
  status := if r.1.isSome then .closed else .open
  startedAt
  endedAt := r.1
  details := { reported := e.details, endClampedBy := r.2 }
  version := e.version
  clientInstanceId := some (e.clientInstanceId.getD instanceId)
  firstReceivedAt := now
  receivedAt := now
  deliveredLate := decide (LATE_DELIVERY_MS < now - r.1.getD startedAt)

/-- A stored row after a newer version of its event. -/
def updatedRow (now : Int) (prev : KnownEvent) (e : EventUpsert) (startedAt : Int)
    (r : Option Int × Option EndClampedBy) (row : EventRow) : EventRow :=
  { row with
    status := if r.1.isSome then .closed else .open
    startedAt
    endedAt := r.1
    details := { reported := e.details, endClampedBy := r.2 }
    version := e.version
    receivedAt := now
    deliveredLate := prev.deliveredLate ||
      r.1.any fun x => prev.isOpen && decide (LATE_DELIVERY_MS < now - x) }

/-- The state of a batch: the rows, what is known of the events of the batch, how many events the
session has, and the additional-display event that may hold the exam. -/
structure IngestState where
  events : EventTable
  existing : EventId → Option KnownEvent
  count : Nat
  displayEventId : Option EventId := none

/-- Remember what became of an event of the batch. -/
def IngestState.know (st : IngestState) (id : EventId) (k : KnownEvent) : IngestState :=
  { st with existing := fun i => if i = id then some k else st.existing i }

/-- One upsert of a batch. -/
def ingestOne (t : Timeline) (policy : ProctoringPolicy) (instanceId : InstanceId) (now : Int)
    (foreign : EventId → Bool) (st : IngestState) (e : EventUpsert) : IngestState × EventResult :=
  let prev := st.existing e.id
  match refusal t policy now foreign prev st.count e with
  | some r => (st, r)
  | none =>
    let startedAt := e.startedAt.getD now
    let r := normaliseEnd t instanceId now prev e startedAt
    match prev with
    | none =>
      -- within the batch, only the type and version of a new event are remembered
      let st := st.know e.id
        { type := e.type, version := e.version, clientInstanceId := none, endedAt := none
          isOpen := false, deliveredLate := false }
      ({ st with
          events := st.events.insert (insertedRow now instanceId e startedAt r)
          count := st.count + 1
          displayEventId :=
            if e.type = .additionalDisplayDetected then st.displayEventId.or (some e.id)
            else st.displayEventId },
        .created)
    | some p =>
      let newer (row : EventRow) : Bool := row.id == e.id && decide (row.version < e.version)
      if st.events.rows.any newer then
        let st := st.know e.id { p with version := e.version }
        ({ st with
            events := st.events.modify newer (updatedRow now p e startedAt r) fun _ => rfl },
          .updated)
      else (st, .stale)

/-- The upserts of a batch, in order. -/
def ingestAll (t : Timeline) (policy : ProctoringPolicy) (instanceId : InstanceId) (now : Int)
    (foreign : EventId → Bool) : IngestState → List EventUpsert → IngestState × List EventResult
  | st, [] => (st, [])
  | st, e :: batch =>
    let (st, r) := ingestOne t policy instanceId now foreign st e
    let (st, rs) := ingestAll t policy instanceId now foreign st batch
    (st, r :: rs)

/-- What is stored under the ids of a batch when it arrives. -/
def knownEvents (events : EventTable) (id : EventId) : Option KnownEvent :=
  (events.find? id).map (·.known)

/-- Store a batch of reported events.  An additional display, in an exam that allows only one, holds
it after the whole batch is stored. -/
def ingestEvents (m : SessionMutation) (policy : ProctoringPolicy) (instanceId : InstanceId)
    (batch : List EventUpsert) (foreign : EventId → Bool) :
    Except HttpError (SessionMutation × List EventResult) := do
  assertInControl m.session instanceId
  let st : IngestState :=
    { events := m.events, existing := knownEvents m.events, count := m.events.rows.length }
  let (st, results) := ingestAll (timelineOf m) policy instanceId m.now foreign st batch
  let m : SessionMutation := { m with events := st.events }
  if st.displayEventId.isSome ∧ policy.browser.requireSingleDisplay ∧
    m.session.status = .active then
    return (← holdNow m { reason := .additionalDisplay }, results)
  return (m, results)

/-! ## The columns nothing reads

A row holds more of a report than `ingestEvents` ever looks at again: they are written in the
branches that create and update a row. -/

/-- A reported event with all it reports. -/
structure ReportedUpsert extends EventUpsert where
  observation : Option String := none
  confidence : Rat := 1

/-- The columns of a reported event that no operation reads.  An observation of `none` is the
catalogue's for the type. -/
structure ReportColumns where
  observation : Option String
  confidence : Rat
  context : Option PeriodKind
  engineVersion : Option String

/-- The last of the periods the instant belongs to. -/
def periodKindAt (t : Timeline) (atMs : Int) : Option PeriodKind :=
  ((t.periods.filter fun p => p.containsInstant atMs).getLast?).map (·.kind)

/-- `e.observation?.trim().slice(0, 500) || cat.observation`. -/
def reportedObservation (o : Option String) : Option String :=
  (o.map fun s => String.ofList ((JsChar.trim s.toList).take 500)).filter (· ≠ "")

/-- What the upsert, answered with `r`, writes into the columns. -/
def writeColumns (t : Timeline) (engineVersion : Option String)
    (columns : EventId → Option ReportColumns) (e : ReportedUpsert) (r : EventResult) :
    EventId → Option ReportColumns :=
  match r with
  | .created =>
    Function.update columns e.id <| some
      { observation := reportedObservation e.observation
        confidence := e.confidence
        context := e.startedAt.bind (periodKindAt t)
        engineVersion }
  | .updated =>
    Function.update columns e.id <| (columns e.id).map fun c =>
      { c with observation := reportedObservation e.observation, confidence := e.confidence }
  | _ => columns

/-- The stored events of a session, all columns. -/
structure StoredEvents where
  events : EventTable
  columns : EventId → Option ReportColumns

/-- One request with a batch of reports, in the session `m`: what is stored then, and the answers.
A request that fails changes nothing. -/
def ingestReports (m : SessionMutation) (policy : ProctoringPolicy) (instanceId : InstanceId)
    (foreign : EventId → Bool) (engineVersion : Option String) (s : StoredEvents)
    (batch : List ReportedUpsert) : StoredEvents × List EventResult :=
  match ingestEvents { m with events := s.events } policy instanceId (batch.map (·.toEventUpsert))
      foreign with
  | .ok (m', results) =>
    (⟨m'.events, (batch.zip results).foldl
        (fun columns p => writeColumns (timelineOf m) engineVersion columns p.1 p.2) s.columns⟩, results)
  | .error _ => (s, [])

end SmartProctoring
