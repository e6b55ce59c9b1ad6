import Mathlib.Data.List.Sort
import SmartProctoring.Lib.Processes
import SmartProctoring.Lib.Table

/-!
# Outgoing webhooks: delivery

`claimDue`, `recordAttempt`, `autoDisable`, `processClaimed`, `release`, `deliverDueWebhooks`,
`webhookHousekeeping` and `deliverNow` of `services/webhooks.ts`, and the advisory lock under which
`jobs/runner.ts` runs the dispatcher, as a machine of senders over the tables of deliveries and
webhooks.

A sender is a run of the job on some server instance, or a call of `deliverNow`.  It claims rows in
one transaction, sends them one request at a time in each webhook's batch, up to four batches at
once, and records each result.  The texts of errors, the signature and the audit record are left
out; so are the columns that nothing here reads.
-/

set_option autoImplicit false

namespace SmartProctoring

def WEBHOOK_BACKOFF_MS : List Int :=
  [30000, 60000, 120000, 300000, 900000, 1800000, 3600000, 7200000, 21600000]

def WEBHOOK_DELIVERY_RETENTION_MS : Int := 30 * 24 * 3600000
def WEBHOOK_PENDING_EXPIRY_MS : Int := 72 * 3600000
def CLAIM_BATCH : Nat := 50
def CONCURRENCY : Nat := 4
def LEASE_EXTRA_MS : Int := 60000

structure WebhookConfig where
  timeoutMs : Int := 10000
  maxAttempts : Nat := 10
  disableAfterFailures : Nat := 20
  disableMinFailingMs : Int := 3600000
  oneAttempt : 1 ≤ maxAttempts := by decide

def backoffMs (failedAttempts : Nat) : Int :=
  WEBHOOK_BACKOFF_MS.getD (min failedAttempts WEBHOOK_BACKOFF_MS.length - 1) 0

structure Webhook where
  id : Nat
  active : Bool
  failureCount : Nat := 0
  failingSince : Option Int := none

inductive WebhookDeliveryStatus
  | pending | succeeded | failed
  deriving DecidableEq

structure WebhookDelivery where
  id : Nat
  webhookId : Nat
  /-- `eventType` is `ping`. -/
  ping : Bool
  status : WebhookDeliveryStatus := .pending
  attempts : Nat := 0
  /-- Next attempt while pending, and the lease while an attempt is in flight. -/
  nextAttemptAt : Int
  lastStatusCode : Option Nat := none
  createdAt : Int
  deliveredAt : Option Int := none
  deriving DecidableEq

structure PostResult where
  ok : Bool
  statusCode : Option Nat

def isTransient (r : PostResult) : Bool :=
  !r.ok &&
    match r.statusCode with
    | none => true
    | some code => code == 408 || code == 429 || decide (500 ≤ code)

/-- How often a delivery is attempted at most. -/
def WebhookConfig.limit (cfg : WebhookConfig) (d : WebhookDelivery) : Nat :=
  if d.ping then 1 else cfg.maxAttempts

/-- A result that was recorded. -/
structure AttemptRecord where
  id : Nat
  ok : Bool
  deriving DecidableEq

/-- The tables, the advisory lock, the time, and the results recorded so far (newest first). -/
structure WebhookStore (ι : Type) where
  deliveries : Table WebhookDelivery.id
  webhooks : List Webhook
  /-- The next unused delivery id (ids are random in the code). -/
  nextId : Nat
  lock : Option ι := none
  clock : Int
  recorded : List AttemptRecord := []

/-- The deliveries of one webhook that a dispatcher run has claimed and not settled. -/
structure Batch where
  hook : Option Webhook
  list : List WebhookDelivery
  /-- The request of the first one is on its way. -/
  sending : Bool := false

/-- Where a sender is. -/
inductive Sender
  | idle
  /-- The job holds the lock; `claimed` rows whose webhooks are read next. -/
  | claimed (rows : List WebhookDelivery)
  /-- The job works through its batches: those waiting, and those its workers took. -/
  | pass (queue active : List Batch)
  /-- `deliverNow` claimed its row; the webhook is read next. -/
  | claimedNow (d : WebhookDelivery)
  | sendingNow (d : WebhookDelivery) (hook : Webhook)

section Statements

variable {ι : Type}

def WebhookStore.hook (st : WebhookStore ι) (id : Nat) : Option Webhook :=
  st.webhooks.find? fun h => h.id == id

/-- The rows a claim may take: due ones of active webhooks, or the pending ones asked for by id. -/
def claimable (st : WebhookStore ι) (onlyIds : Option (List Nat)) (d : WebhookDelivery) : Bool :=
  match st.hook d.webhookId with
  | none => false
  | some hook =>
    match onlyIds with
    | some ids => ids.contains d.id && d.status == .pending
    | none => d.status == .pending && decide (d.nextAttemptAt ≤ st.clock) && hook.active

/-- The ids a claim selects: `FOR UPDATE SKIP LOCKED` passes over the rows in `skip`. -/
def claimIds (st : WebhookStore ι) (limit : Nat) (onlyIds : Option (List Nat)) (skip : List Nat) :
    List Nat :=
  let due := st.deliveries.rows.filter fun d => !skip.contains d.id && claimable st onlyIds d
  let due := due.insertionSort fun a b =>
    a.nextAttemptAt < b.nextAttemptAt ∨ (a.nextAttemptAt = b.nextAttemptAt ∧ a.createdAt ≤ b.createdAt)
  (due.take limit).map WebhookDelivery.id

/-- The deliveries with the given ids get new values; the key stays. -/
def WebhookStore.update (st : WebhookStore ι) (ids : List Nat)
    (f : WebhookDelivery → WebhookDelivery) (hf : ∀ d, (f d).id = d.id) : WebhookStore ι :=
  { st with deliveries := st.deliveries.modify (fun d => ids.contains d.id) f hf }

/-- Claim due deliveries: the lease is `next_attempt_at` pushed into the future. -/
def claimDue (cfg : WebhookConfig) (st : WebhookStore ι) (limit : Nat)
    (onlyIds : Option (List Nat)) (skip : List Nat) : WebhookStore ι × List WebhookDelivery :=
  let ids := claimIds st limit onlyIds skip
  let lease := st.clock + cfg.timeoutMs + LEASE_EXTRA_MS
  let st := st.update ids (fun d => { d with nextAttemptAt := lease }) fun _ => rfl
  (st, st.deliveries.rows.filter fun d => ids.contains d.id)

/-- Postpone deliveries without counting an attempt. -/
def release (st : WebhookStore ι) (list : List WebhookDelivery) (delayMs : Int) : WebhookStore ι :=
  st.update (list.map WebhookDelivery.id)
    (fun d => if d.status = .pending then { d with nextAttemptAt := st.clock + delayMs } else d)
    fun d => by split <;> rfl

/-- What a failed attempt does to its webhook, and whether that disabled it. -/
def recordFailure (cfg : WebhookConfig) (now : Int) (h : Webhook) : Webhook × Bool :=
  let h := { h with
    failureCount := h.failureCount + 1
    failingSince := some (h.failingSince.getD now) }
  if h.active && decide (cfg.disableAfterFailures ≤ h.failureCount) &&
      decide (cfg.disableMinFailingMs ≤ now - h.failingSince.getD now) then
    ({ h with active := false }, true)
  else (h, false)

/-- What the row says after an attempt. -/
def attempted (cfg : WebhookConfig) (now : Int) (attempts : Nat) (r : PostResult)
    (d : WebhookDelivery) : WebhookDelivery :=
  if r.ok then
    { d with
      status := .succeeded
      attempts := attempts
      lastStatusCode := r.statusCode
      deliveredAt := some now
      nextAttemptAt := now }
  else
    { d with
      status := if cfg.limit d ≤ attempts then .failed else .pending
      attempts := attempts
      lastStatusCode := r.statusCode
      nextAttemptAt := if cfg.limit d ≤ attempts then now else now + backoffMs attempts }

@[simp] theorem attempted_id (cfg : WebhookConfig) (now : Int) (attempts : Nat) (r : PostResult)
    (d : WebhookDelivery) : (attempted cfg now attempts r d).id = d.id := by
  unfold attempted
  split <;> rfl

/-- Record the result of an attempt, by the row's id; says whether the webhook was disabled. -/
def recordAttempt (cfg : WebhookConfig) (st : WebhookStore ι) (d : WebhookDelivery) (hook : Webhook)
    (r : PostResult) : WebhookStore ι × Bool :=
  let st' := { st.update [d.id] (attempted cfg st.clock (d.attempts + 1) r)
    (attempted_id _ _ _ _) with
    recorded := ⟨d.id, r.ok⟩ :: st.recorded }
  if d.ping then (st', false)
  else if r.ok then
    ({ st' with
      webhooks := st.webhooks.map fun h =>
        if h.id = hook.id then { h with failureCount := 0, failingSince := none } else h }, false)
  else
    ({ st' with
      webhooks := st.webhooks.map fun h =>
        if h.id = hook.id then (recordFailure cfg st.clock h).1 else h },
      (st.hook hook.id).any fun h => (recordFailure cfg st.clock h).2)

/-- The claimed rows by webhook, in the order of their first rows. -/
def byHook (st : WebhookStore ι) (rows : List WebhookDelivery) : List Batch :=
  let groups := rows.foldl (fun gs d => add d gs) []
  -- new deliveries first, then retries
  groups.map fun g =>
    { hook := st.hook g.1
      list := g.2.insertionSort fun a b =>
        a.attempts < b.attempts ∨ (a.attempts = b.attempts ∧ a.createdAt ≤ b.createdAt) }
where
  add (d : WebhookDelivery) :
      List (Nat × List WebhookDelivery) → List (Nat × List WebhookDelivery)
    | [] => [(d.webhookId, [d])]
    | g :: gs => if g.1 = d.webhookId then (g.1, g.2 ++ [d]) :: gs else g :: add d gs

/-- A worker begins the next delivery of its batch, or gives the rest back when the webhook is gone
or switched off. -/
def sendNext (st : WebhookStore ι) (batch : Batch) (others : List Batch) :
    WebhookStore ι × List Batch :=
  match batch.hook with
  | some hook =>
    if hook.active then (st, { batch with sending := true } :: others)
    else (release st batch.list 0, others)
  | none => (release st batch.list 0, others)

/-- A worker has the result for the first delivery of its batch. -/
def sendDone (cfg : WebhookConfig) (st : WebhookStore ι) (hook : Webhook) (d : WebhookDelivery)
    (rest : List WebhookDelivery) (r : PostResult) (others : List Batch) :
    WebhookStore ι × List Batch :=
  let (st, disabled) := recordAttempt cfg st d hook r
  if rest = [] then (st, others)
  else if !r.ok && isTransient r then
    -- the endpoint looks down: the rest of its batch is postponed without counting attempts
    (release st rest (WEBHOOK_BACKOFF_MS.getD 0 0), others)
  else
    (st, { hook := some { hook with active := hook.active && !disabled }, list := rest } :: others)

end Statements

/-- `webhookHousekeeping`: deliveries stuck pending expire. -/
def WebhookStore.expire {ι : Type} (st : WebhookStore ι) : WebhookStore ι :=
  { st with
    deliveries := st.deliveries.modify
      (fun d => d.status == .pending && decide (d.createdAt < st.clock - WEBHOOK_PENDING_EXPIRY_MS))
      (fun d => { d with status := .failed, nextAttemptAt := st.clock }) fun _ => rfl }

/-- `webhookHousekeeping`: old delivery records are deleted. -/
def WebhookStore.deleteOld {ι : Type} (st : WebhookStore ι) : WebhookStore ι :=
  { st with
    deliveries := st.deliveries.filter fun d =>
      !(d.status != .pending && decide (d.createdAt < st.clock - WEBHOOK_DELIVERY_RETENTION_MS)) }

/-! ## The machine -/

inductive WebhookInput (ι : Type)
  /-- The job begins, where it gets the lock. -/
  | startPass (k : ι)
  | claim (k : ι) (skip : List Nat)
  | loadHooks (k : ι)
  /-- A worker takes the next batch. -/
  | take (k : ι)
  | send (k : ι) (worker : Nat)
  | result (k : ι) (worker : Nat) (r : PostResult)
  | endPass (k : ι)
  | deliverNow (k : ι) (id : Nat) (skip : List Nat)
  | loadHookNow (k : ι)
  | resultNow (k : ι) (r : PostResult)
  /-- The sender's server stops. -/
  | crash (k : ι)
  /-- A delivery is enqueued, by a session change or for a test. -/
  | enqueue (webhookId : Nat) (ping : Bool)
  /-- Staff switch a webhook on or off. -/
  | setActive (webhookId : Nat) (active : Bool)
  | expire
  | deleteOld
  | tick (ms : Nat)

abbrev WebhookState (ι : Type) := Processes (WebhookStore ι) ι Sender

section Machine

variable {ι : Type} [DecidableEq ι]

/-- One step of sender `k`. -/
def senderStep (cfg : WebhookConfig) (k : ι) (st : WebhookStore ι) :
    WebhookInput ι → Sender → WebhookStore ι × Sender
  | .startPass _, .idle =>
    match st.lock with
    | none => ({ st with lock := some k }, .pass [] [])
    | some _ => (st, .idle)
  | .claim _ skip, .pass [] [] =>
    let (st, rows) := claimDue cfg st CLAIM_BATCH none skip
    (st, .claimed rows)
  | .loadHooks _, .claimed rows => (st, .pass (byHook st rows) [])
  | .take _, .pass (b :: queue) active =>
    if active.length < CONCURRENCY then (st, .pass queue (b :: active)) else (st, .pass (b :: queue) active)
  | .send _ worker, .pass queue active =>
    match active[worker]? with
    | some batch =>
      if batch.sending then (st, .pass queue active)
      else
        let (st, active) := sendNext st batch (active.eraseIdx worker)
        (st, .pass queue active)
    | none => (st, .pass queue active)
  | .result _ worker r, .pass queue active =>
    match active[worker]? with
    | some ⟨some hook, d :: rest, true⟩ =>
      let (st, active) := sendDone cfg st hook d rest r (active.eraseIdx worker)
      (st, .pass queue active)
    | _ => (st, .pass queue active)
  | .endPass _, .pass [] [] => ({ st with lock := none }, .idle)
  | .deliverNow _ id skip, .idle =>
    match claimDue cfg st 1 (some [id]) skip with
    | (st, d :: _) => (st, .claimedNow d)
    | (st, []) => (st, .idle)
  | .loadHookNow _, .claimedNow d =>
    match st.hook d.webhookId with
    | some hook => (st, .sendingNow d hook)
    | none => (st, .idle)
  | .resultNow _ r, .sendingNow d hook => ((recordAttempt cfg st d hook r).1, .idle)
  | .crash _, _ => ({ st with lock := if st.lock = some k then none else st.lock }, .idle)
  | _, p => (st, p)

def webhookStep (cfg : WebhookConfig) (x : WebhookInput ι) (s : WebhookState ι) : WebhookState ι :=
  match x with
  | .startPass k | .claim k _ | .loadHooks k | .take k | .send k _ | .result k _ _ | .endPass k
  | .deliverNow k _ _ | .loadHookNow k | .resultNow k _ | .crash k =>
    s.move k (senderStep cfg k s.shared x (s.loc k))
  | .enqueue webhookId ping =>
    s.setShared { s.shared with
      deliveries := s.shared.deliveries.insert
        { id := s.shared.nextId, webhookId, ping, nextAttemptAt := s.shared.clock,
          createdAt := s.shared.clock }
      nextId := s.shared.nextId + 1 }
  | .setActive webhookId active =>
    s.setShared { s.shared with
      webhooks := s.shared.webhooks.map fun h => if h.id = webhookId then { h with active } else h }
  | .expire =>
    s.setShared s.shared.expire
  | .deleteOld =>
    s.setShared s.shared.deleteOld
  | .tick ms => s.setShared { s.shared with clock := s.shared.clock + ms }

/-- Deliveries begin with none; every input may be taken any time. -/
def webhookMachine (cfg : WebhookConfig) : Machine (WebhookState ι) (WebhookInput ι) where
  init s := s.shared.deliveries.rows = [] ∧ s.shared.nextId = 0 ∧ s.shared.lock = none ∧
    s.shared.recorded = [] ∧ ∀ k, s.loc k = .idle
  step := webhookStep cfg
  enabled _ _ := True

end Machine

end SmartProctoring
