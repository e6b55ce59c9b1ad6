import SmartProctoring.Lib.Run
import SmartProctoring.Server.Schema

/-!
# The integration outbox

`enqueueIntegrationNotifications` of `services/integration-events.ts` and
`enqueueWebhookNotifications` of `services/webhooks.ts`, inside the session mutations of
`withSession`.  A mutation is any list of writes to the events of its session, with a new status
perhaps; it commits or is rolled back as a whole.  The notifications are worked out from the rows it
touched, as they stand when it is done, and inserted with `ON CONFLICT DO NOTHING` in a savepoint of
their own.

The envelopes are modelled without names, texts, scores and reasons; email alerts are left out.
-/

set_option autoImplicit false

namespace SmartProctoring

/-- A row of `events`, with its session. -/
structure SessionEvent extends EventRow where
  sessionId : Nat

def SessionEvent.key (e : SessionEvent) : EventId := e.id

abbrev SessionEvents := Table SessionEvent.key

/-! ## Session mutations -/

/-- The columns an update may set; `none` leaves a column as it is. -/
structure EventPatch where
  status : Option EventStatus := none
  startedAt : Option Int := none
  endedAt : Option (Option Int) := none
  details : Option EventDetails := none
  version : Option Nat := none
  deliveredLate : Option Bool := none

def EventPatch.apply (p : EventPatch) (now : Int) (e : SessionEvent) : SessionEvent :=
  { e with
    status := p.status.getD e.status
    startedAt := p.startedAt.getD e.startedAt
    endedAt := p.endedAt.getD e.endedAt
    details := p.details.getD e.details
    version := p.version.getD e.version
    deliveredLate := p.deliveredLate.getD e.deliveredLate
    receivedAt := now }

theorem EventPatch.apply_key (p : EventPatch) (now : Int) (e : SessionEvent) :
    (p.apply now e).key = e.key := rfl

inductive EventWrite
  /-- `addEvent`, or a first report at ingest: both stamp the mutation's clock. -/
  | insert (row : EventRow)
  | update (id : EventId) (patch : EventPatch)

structure Mutation where
  sessionId : Nat
  now : Int
  status : Option SessionStatus := none
  writes : List EventWrite
  /-- The body throws after its writes, or the commit fails. -/
  throws : Bool := false
  /-- Something fails inside the outbox's savepoint. -/
  outboxFails : Bool := false

/-- The events table in the mutation's transaction, and `touchedEvents`. -/
structure Written where
  events : SessionEvents
  touched : List EventId := []

/-- `touchedEvents.add`. -/
def Written.touchEvent (w : Written) (id : EventId) : Written :=
  { w with touched := if id ∈ w.touched then w.touched else w.touched ++ [id] }

/-- One write; an id in use violates the primary key. -/
def EventWrite.run (m : Mutation) (w : Written) : EventWrite → Option Written
  | .insert row =>
    let row : SessionEvent :=
      { row with sessionId := m.sessionId, firstReceivedAt := m.now, receivedAt := m.now }
    match w.events.find? row.id with
    | some _ => none
    | none => some ({ w with events := w.events.insert row }.touchEvent row.id)
  | .update id patch =>
    match w.events.find? id with
    | none => some w
    | some row =>
      if row.sessionId = m.sessionId then
        let events := w.events.modify (fun e => e.id == id) (patch.apply m.now) (patch.apply_key m.now)
        some ({ w with events }.touchEvent id)
      else some w

/-- What the transaction leaves to commit, if anything. -/
def Mutation.committed (m : Mutation) (events : SessionEvents) : Option Written :=
  if m.throws then none else m.writes.foldlM (EventWrite.run m) ⟨events, []⟩

/-! ## Notifications -/

inductive WebhookEventType
  | eventCreated | eventClosed | sessionHeld | sessionReleased | sessionPauseRequested
  | sessionSubmitted | sessionRegraded | sessionTerminated | identityMismatch | sessionReviewed
  | sessionRescheduled | sessionReopened
  deriving DecidableEq

def SESSION_NOTIFICATIONS : EventType → Option WebhookEventType
  | .sessionHeld => some .sessionHeld
  | .holdReleased => some .sessionReleased
  | .pauseRequested => some .sessionPauseRequested
  | .sessionSubmitted => some .sessionSubmitted
  | .sessionTerminated => some .sessionTerminated
  | .scoreRegraded => some .sessionRegraded
  | .reviewCompleted => some .sessionReviewed
  | .sessionRescheduled => some .sessionRescheduled
  | .sessionReopened => some .sessionReopened
  | _ => none

/-- The key of a domain change: `<type>:<event>`, or `event.closed:<event>:<end>`. -/
inductive DedupeKey
  | ofEvent (type : WebhookEventType) (id : EventId)
  | closed (id : EventId) (endedAt : Int)
  deriving DecidableEq

def DedupeKey.eventId : DedupeKey → EventId
  | ofEvent _ id | closed id _ => id

inductive NotificationData
  | event (id : EventId) (type : EventType) (status : EventStatus) (startedAt : Int)
    (endedAt durationMs : Option Int) (deliveredLate : Bool) (sessionStatus : SessionStatus)
  | session (status : SessionStatus) (startedAt : Int) (eventId : EventId)

structure WebhookNotification where
  type : WebhookEventType
  dedupeKey : DedupeKey
  sessionId : Nat
  data : NotificationData
  severity : Option Severity := none

def SessionEvent.eventData (ev : SessionEvent) (status : SessionStatus) : NotificationData :=
  .event ev.id ev.type ev.status ev.startedAt ev.endedAt
    (ev.endedAt.map fun endedAt => max 0 (endedAt - ev.startedAt)) ev.deliveredLate status

/-- The notifications about one touched event. -/
def SessionEvent.notifications (ev : SessionEvent) (now : Int) (status : SessionStatus) :
    List WebhookNotification :=
  let created : Bool := ev.firstReceivedAt = now
  let flag := isFlagCategory ev.type.category
  let data := ev.eventData status
  (if flag && created then
    [{ type := .eventCreated, dedupeKey := .ofEvent .eventCreated ev.id, sessionId := ev.sessionId,
       data, severity := some ev.type.severity }] else []) ++
  (if flag && ev.status == .closed && ev.type.span then
    [{ type := .eventClosed, dedupeKey := .closed ev.id (ev.endedAt.getD ev.startedAt),
       sessionId := ev.sessionId, data, severity := some ev.type.severity }] else []) ++
  (if flag && created && ev.type == .identityMismatch then
    [{ type := .identityMismatch, dedupeKey := .ofEvent .identityMismatch ev.id,
       sessionId := ev.sessionId, data }] else []) ++
  (match (if created then SESSION_NOTIFICATIONS ev.type else none) with
    | some type =>
      [{ type, dedupeKey := .ofEvent type ev.id, sessionId := ev.sessionId,
         data := .session status ev.startedAt ev.id }]
    | none => [])

/-- A webhook: what it is subscribed to, and from which severity on. -/
structure Subscription where
  id : Nat
  active : Bool
  events : List WebhookEventType
  minSeverity : Severity

/-- The webhook is to be told. -/
def Subscription.wants (h : Subscription) (n : WebhookNotification) : Bool :=
  h.events.contains n.type &&
    match n.severity with
    | none => true
    | some severity => decide (SEVERITY_RANK h.minSeverity ≤ SEVERITY_RANK severity)

inductive OutboxStatus
  | pending | succeeded | failed
  deriving DecidableEq

/-- A row of `webhook_deliveries`. -/
structure OutboxDelivery where
  webhookId : Nat
  eventType : WebhookEventType
  dedupeKey : DedupeKey
  sessionId : Nat
  payload : NotificationData
  status : OutboxStatus := .pending
  createdAt : Int

/-- The unique index of the table. -/
def OutboxDelivery.key (d : OutboxDelivery) : Nat × DedupeKey := (d.webhookId, d.dedupeKey)

def OutboxDelivery.settle (status : OutboxStatus) (d : OutboxDelivery) : OutboxDelivery :=
  { d with status }

theorem OutboxDelivery.settle_key (status : OutboxStatus) (d : OutboxDelivery) :
    (d.settle status).key = d.key := rfl

abbrev OutboxDeliveries := Table OutboxDelivery.key

/-- The rows a batch of notifications makes for the given webhooks. -/
def deliveryRows (hooks : List Subscription) (notifications : List WebhookNotification)
    (now : Int) : List OutboxDelivery :=
  hooks.flatMap fun h => (notifications.filter h.wants).map fun n =>
    { webhookId := h.id, eventType := n.type, dedupeKey := n.dedupeKey, sessionId := n.sessionId,
      payload := n.data, createdAt := now }

/-- `INSERT … ON CONFLICT DO NOTHING`: a row whose key is in use is passed over. -/
def enqueueWebhookNotifications (deliveries : OutboxDeliveries) (hooks : List Subscription)
    (notifications : List WebhookNotification) (now : Int) : OutboxDeliveries :=
  (deliveryRows hooks notifications now).foldl Table.insert deliveries

/-! ## The outbox as a machine -/

structure OutboxState where
  status : Nat → SessionStatus
  events : SessionEvents
  hooks : Table Subscription.id
  deliveries : OutboxDeliveries

def enqueueIntegrationNotifications (s : OutboxState) (m : Mutation) (w : Written)
    (status : SessionStatus) : OutboxDeliveries :=
  let hooks := s.hooks.rows.filter Subscription.active
  let rows := w.events.rows.filter fun ev => w.touched.contains ev.id && ev.sessionId == m.sessionId
  if w.touched.isEmpty || hooks.isEmpty || m.outboxFails then s.deliveries
  else enqueueWebhookNotifications s.deliveries hooks
    (rows.flatMap fun ev => ev.notifications m.now status) m.now

def WEBHOOK_RETENTION_MS : Int := 30 * 24 * 3600000

inductive OutboxInput
  | mutate (m : Mutation)
  /-- Staff create a webhook or change one. -/
  | saveHook (h : Subscription)
  /-- Staff delete a webhook; its deliveries go with it. -/
  | deleteHook (id : Nat)
  /-- A sender records what became of a delivery. -/
  | settle (webhookId : Nat) (key : DedupeKey) (status : OutboxStatus)
  | housekeep (now : Int)

def Mutation.step (m : Mutation) (s : OutboxState) : OutboxState :=
  match m.committed s.events with
  | none => s
  | some w =>
    let status := m.status.getD (s.status m.sessionId)
    { s with
      status := Function.update s.status m.sessionId status
      events := w.events
      deliveries := enqueueIntegrationNotifications s m w status }

def outbox : Machine OutboxState OutboxInput where
  init s := s.deliveries = .empty
  step
    | .mutate m, s => m.step s
    | .saveHook h, s =>
      let hooks := s.hooks.modify (fun old => old.id == h.id) (fun old => { h with id := old.id })
        fun _ => rfl
      { s with hooks := hooks.insert h }
    | .deleteHook id, s =>
      { s with
        hooks := s.hooks.filter fun h => h.id != id
        deliveries := s.deliveries.filter fun d => d.webhookId != id }
    | .settle webhookId key status, s =>
      let deliveries := s.deliveries.modify (fun d => d.key == (webhookId, key))
        (OutboxDelivery.settle status) (OutboxDelivery.settle_key status)
      { s with deliveries }
    | .housekeep now, s =>
      { s with deliveries := s.deliveries.filter fun d =>
          d.status == .pending || !decide (d.createdAt < now - WEBHOOK_RETENTION_MS) }
  enabled _ _ := True

end SmartProctoring
