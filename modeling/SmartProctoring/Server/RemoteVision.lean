import Mathlib.Data.List.Infix
import SmartProctoring.Server.VisionPool

/-!
# The remote vision driver

`vision/remote.ts`: each analysis is sent to one of the workers in use (`pick`), the one with the
least expected wait; an answer that means that it was not taken is followed by one more try
(`dispatch`).  Workers are polled for their load, and skipped while their circuit is open.  Worker
names are resolved again and again, and an address that comes back is a new endpoint.

An endpoint is known by its number.  Calls and polls run concurrently; what happens between two
awaits of one of them is one step.  What the bytes of an answer decode to is given with the answer.
-/

set_option autoImplicit false

namespace SmartProctoring

inductive RemoteWorkerState
  | unknown | up | unready | down
  deriving DecidableEq

inductive RemoteFailureReason
  | connect | reset | timeout | badResponse | unauthorized | serverError
  deriving DecidableEq

/-- The load that a worker reports; a number that is not finite is `none`. -/
structure VisionLoad where
  workers : Nat
  serviceMs : Option ℚ
  estimatedInteractiveMs : Option ℚ
  estimatedBackgroundMs : Option ℚ

def VisionLoad.estimatedWaitMs (l : VisionLoad) : VisionPriority → Option ℚ
  | .interactive => l.estimatedInteractiveMs
  | .background => l.estimatedBackgroundMs

def NO_WORKER_RETRY_AFTER_SEC : Int := 5

def FAILED_REQUEST_RETRY_AFTER_SEC : Int := 5

def DEFAULT_RETRY_AFTER_SEC : ℚ := 2

/-- At most this many workers are tried per analysis (one retry). -/
def MAX_ATTEMPTS : Nat := 2

def MIN_COOLDOWN_MS : Nat := 1000

def MAX_COOLDOWN_MS : Nat := 30000

structure Endpoint where
  /-- host:port. -/
  key : String
  state : RemoteWorkerState := .unknown
  snap : Option VisionLoad := none
  /-- Requests sent since the last report. -/
  sentSinceSnap : Nat := 0
  inFlight : Int := 0
  instanceId : Option String := none
  failures : Nat := 0
  cooldownMs : Nat := MIN_COOLDOWN_MS
  openUntil : Nat := 0
  polling : Bool := false

/-! ## Answers -/

/-- The error body of an answer; `load` if it has one that is well formed. -/
structure WorkerErrorBody where
  error : String
  message : String
  name : Option String
  retryAfterSec : Option ℚ
  load : Option VisionLoad

/-- What the body of a successful answer decodes to. -/
structure WorkerAnswer (T : Type) where
  result : T
  load : VisionLoad
  instanceId : Option String

/-- `decoded` is the body read as a successful answer, or why it is none; `error` the body read as
an error. -/
structure RawResponse (T : Type) where
  status : Nat
  /-- The `Retry-After` header, if it begins with a number. -/
  retryAfter : Option Int
  decoded : Except String (WorkerAnswer T)
  error : Option WorkerErrorBody

/-- An error of the socket. -/
structure SocketError where
  code : String
  message : String

/-- How a request ends: with an answer, or with an error after it was connected, and answered, or
not. -/
inductive SendOutcome (T : Type)
  | response (r : RawResponse T)
  | error (e : SocketError) (connected responded reusedSocket : Bool)

/-- A request that failed below HTTP.  `accepted`: it may have reached the worker. -/
structure TransportError where
  reason : RemoteFailureReason
  accepted : Bool

def STALE_SOCKET_CODES : List String := ["ECONNRESET", "EPIPE", "ECONNABORTED"]

/-- The error says that a kept-alive socket was closed. -/
def SocketError.stale (e : SocketError) : Bool :=
  decide (e.code ∈ STALE_SOCKET_CODES ∨
    "socket hang up".toList <:+: e.message.toList.map Char.toLower)

def classify (e : SocketError) (connected responded reusedSocket : Bool) : TransportError :=
  if ¬ connected then ⟨.connect, false⟩
  else if reusedSocket ∧ ¬ responded ∧ e.stale then ⟨.reset, false⟩
  else if e.code = "SP_TIMEOUT" then ⟨.timeout, true⟩
  else if e.code = "SP_TOO_LARGE" then ⟨.badResponse, true⟩
  else ⟨.reset, true⟩

def parseRetryAfter {T : Type} (r : RawResponse T) (body : Option WorkerErrorBody) : Int :=
  let v : ℚ := match r.retryAfter with
    | some h => h
    | none => (body.bind fun b => b.retryAfterSec).getD DEFAULT_RETRY_AFTER_SEC
  min MAX_RETRY_AFTER_SEC (max 1 ⌊v + 1 / 2⌋)

/-- What a call is rejected with; a busy error without a number has NaN. -/
inductive RemoteError
  | busy (retryAfterSec : Option Int)
  | input (message : String)
  | analysis (name message : String)
  | wire (message : String)
  | closed

/-! ## Calls -/

/-- A request of a call: where it was sent, and how it ended. -/
structure SentRequest (T : Type) where
  endpoint : Nat
  outcome : Option (SendOutcome T)

inductive CallPhase (T : Type)
  | starting
  | sending (e : Nat)
  | ended (r : Except RemoteError T)

/-- A call of `dispatch`.  `sends` are its requests, the last one first. -/
structure VisionCall (T : Type) where
  priority : VisionPriority
  tried : List Nat
  busyAfterSec : Option Int
  attempt : Nat
  phase : CallPhase T
  sends : List (SentRequest T)

/-- The call waits for a request. -/
def VisionCall.waits {T : Type} (c : VisionCall T) : Bool :=
  match c.phase with
  | .starting => false
  | .sending _ => true
  | .ended _ => false

def VisionCall.start {T : Type} (priority : VisionPriority) : VisionCall T where
  priority := priority
  tried := []
  busyAfterSec := none
  attempt := 0
  phase := .starting
  sends := []

/-- The driver.  `sources` are the numbers of the endpoints of each configured URL. -/
structure RemoteVision (T : Type) where
  now : Nat
  closed : Bool
  failureThreshold : Nat
  sources : List (List Nat)
  endpoint : Nat → Endpoint
  /-- How many endpoints there have been. -/
  allocated : Nat
  inFlight : Int
  rr : Nat
  calls : List (VisionCall T)

namespace RemoteVision

variable {T : Type}

def modify (e : Nat) (f : Endpoint → Endpoint) (s : RemoteVision T) : RemoteVision T :=
  { s with endpoint := Function.update s.endpoint e (f (s.endpoint e)) }

def endpoints (s : RemoteVision T) : List Nat := s.sources.flatten

/-- A name resolves to these addresses: new ones become endpoints, and those that are gone are
dropped. -/
def addSource (keys : List String) (ids : List Nat) (s : RemoteVision T) :
    List Nat × RemoteVision T :=
  keys.foldl (fun (ids, s) key =>
    if key ∈ ids.map (fun e => (s.endpoint e).key) then (ids, s)
    else (ids ++ [s.allocated], { s with
      endpoint := Function.update s.endpoint s.allocated { key := key }
      allocated := s.allocated + 1 })) (ids, s)

def resolveSource (i : Nat) (keys : List String) (s : RemoteVision T) : RemoteVision T :=
  match s.sources[i]? with
  | none => s
  | some ids =>
    let (ids, s) := s.addSource keys ids
    { s with sources := s.sources.set i (ids.filter fun e => (s.endpoint e).key ∈ keys) }

/-- A load report (poll or answer): the worker is alive. -/
def report (e : Nat) (load : VisionLoad) (instanceId : Option String) (s : RemoteVision T) :
    RemoteVision T :=
  if s.closed then s
  else
    s.modify e fun ep => { ep with
      snap := some load
      sentSinceSnap := 0
      instanceId := (instanceId.filter (· ≠ "")).or ep.instanceId
      failures := 0
      cooldownMs := MIN_COOLDOWN_MS
      state := if 0 < load.workers then .up else .unready }

/-- Circuit open: skipped until a poll succeeds. -/
def «open» (e : Nat) (s : RemoteVision T) : RemoteVision T :=
  s.modify e fun ep => { ep with
    state := .down
    openUntil := s.now + ep.cooldownMs
    cooldownMs := min MAX_COOLDOWN_MS (ep.cooldownMs * 2)
    failures := 0 }

/-- A request or poll failed. -/
def failed (e : Nat) (reason : RemoteFailureReason) (countIt : Bool) (s : RemoteVision T) :
    RemoteVision T :=
  if s.closed then s
  else if ¬ countIt then s
  else
    let s := s.modify e fun ep => { ep with failures := ep.failures + 1 }
    if reason = .connect ∨ reason = .unauthorized ∨ (s.endpoint e).state ≠ .up ∨
        s.failureThreshold ≤ (s.endpoint e).failures then s.open e
    else s

/-- The endpoints in use, one for each worker process seen so far (`seen`). -/
def activeAmong (s : RemoteVision T) : List String → List Nat → List Nat
  | _, [] => []
  | seen, e :: es =>
    let ep := s.endpoint e
    if ep.state ≠ .up ∨ ep.snap = none then s.activeAmong seen es
    else
      match ep.instanceId with
      | none => e :: s.activeAmong seen es
      | some i => if i ∈ seen then s.activeAmong seen es else e :: s.activeAmong (i :: seen) es

def active (s : RemoteVision T) : List Nat := s.activeAmong [] s.endpoints

end RemoteVision

/-- A number of milliseconds. -/
inductive WaitMs
  | finite (ms : ℚ)
  | infinite
  | nan

/-- Suggested wait before retrying, in whole seconds within 1..MAX_RETRY_AFTER_SEC. -/
def WaitMs.retryAfterSecFor : WaitMs → Option Int
  | .finite ms => some (min MAX_RETRY_AFTER_SEC (max 1 ⌈ms / 1000⌉))
  | .infinite => some MAX_RETRY_AFTER_SEC
  | .nan => none

namespace RemoteVision

variable {T : Type}

/-- Expected queue wait of a new analysis: the report plus what was sent since. -/
def expectedWaitMs (e : Nat) (priority : VisionPriority) (s : RemoteVision T) : WaitMs :=
  match (s.endpoint e).snap with
  | none => .nan
  | some l =>
    match l.serviceMs with
    | none => if (s.endpoint e).sentSinceSnap = 0 then .nan else .infinite
    | some service =>
      match l.estimatedWaitMs priority with
      | none => .infinite
      | some wait => .finite (wait + ((s.endpoint e).sentSinceSnap : ℚ) * service / max 1 (l.workers : ℚ))

/-- The first candidate of those with the least wait; `best` is the one found so far. -/
def leastWait (priority : VisionPriority) (s : RemoteVision T) :
    List Nat → Option (Nat × ℚ) → Option Nat
  | [], best => best.map (·.1)
  | e :: es, best =>
    match s.expectedWaitMs e priority with
    | .finite ms =>
      if (best.map (·.2)).all fun bestWait => ms < bestWait then s.leastWait priority es (some (e, ms))
      else s.leastWait priority es best
    | .infinite => s.leastWait priority es best
    | .nan => s.leastWait priority es best

/-- The endpoint for the next request; equal waits take turns. -/
def pick (priority : VisionPriority) (exclude : List Nat) (s : RemoteVision T) :
    Option Nat × RemoteVision T :=
  let cands := s.active.filter fun e => e ∉ exclude
  if cands = [] then (none, s)
  else
    let start := s.rr % cands.length
    (s.leastWait priority (cands.rotate start) none, { s with rr := s.rr + 1 })

/-! ## Dispatch -/

def finish (c : VisionCall T) (r : Except RemoteError T) : VisionCall T :=
  { c with phase := .ended r }

/-- The head of the loop of `dispatch`: the next request, or the end. -/
def attempt (c : VisionCall T) (s : RemoteVision T) : VisionCall T × RemoteVision T :=
  if c.attempt < MAX_ATTEMPTS then
    if s.closed then (finish c (.error .closed), s)
    else
      match s.pick c.priority c.tried with
      | (none, s) => (finish c (.error (.busy (some (c.busyAfterSec.getD NO_WORKER_RETRY_AFTER_SEC)))), s)
      | (some e, s) =>
        ({ c with tried := e :: c.tried, phase := .sending e, sends := ⟨e, none⟩ :: c.sends },
          { s.modify e fun ep => { ep with sentSinceSnap := ep.sentSinceSnap + 1, inFlight := ep.inFlight + 1 } with
            inFlight := s.inFlight + 1 })
  else (finish c (.error (.busy (some (c.busyAfterSec.getD NO_WORKER_RETRY_AFTER_SEC)))), s)

/-- On to the next attempt. -/
def «continue» (c : VisionCall T) (s : RemoteVision T) : VisionCall T × RemoteVision T :=
  s.attempt { c with attempt := c.attempt + 1 }

/-- The error body of an answer has the load of the worker. -/
def takeLoad (e : Nat) (load : Option VisionLoad) (s : RemoteVision T) : RemoteVision T :=
  match load with
  | none => s
  | some l => s.modify e fun ep => { ep with snap := some l, sentSinceSnap := 0 }

/-- An answer. -/
def responded (c : VisionCall T) (e : Nat) (r : RawResponse T) (s : RemoteVision T) :
    VisionCall T × RemoteVision T :=
  if r.status = 200 then
    match r.decoded with
    | .ok a => (finish c (.ok a.result), s.report e a.load a.instanceId)
    | .error message => (finish c (.error (.wire message)), s.failed e .badResponse true)
  else
    let s := s.takeLoad e (r.error.bind fun b => b.load)
    let is (error : String) : Bool := decide (r.error.map (fun b => b.error) = some error)
    if r.status = 503 ∧ is "vision_busy" then
      let after := parseRetryAfter r r.error
      s.continue { c with busyAfterSec := some (match c.busyAfterSec with
        | none => after
        | some b => min b after) }
    else if r.status = 503 ∧ is "vision_unavailable" then
      (s.modify e fun ep => { ep with state := .unready }).continue c
    else if r.status = 401 then (s.failed e .unauthorized true).continue c
    else if r.status = 502 ∨ r.status = 503 then (s.failed e .serverError true).continue c
    else if r.status = 400 ∨ r.status = 413 ∨ r.status = 415 then
      (finish c (.error (.input ((r.error.map fun b => b.message).getD "Unsupported or corrupt image"))), s)
    else if r.status = 500 ∧ is "analysis_failed" then
      (finish c (.error (.analysis ((r.error.bind fun b => b.name).getD "Error")
        ((r.error.map fun b => b.message).getD ""))), s)
    else (finish c (.error (.busy (some FAILED_REQUEST_RETRY_AFTER_SEC))), s.failed e .serverError true)

/-- The request of a call has ended. -/
def settled (c : VisionCall T) (e : Nat) (o : SendOutcome T) (s : RemoteVision T) :
    VisionCall T × RemoteVision T :=
  let s := { s.modify e fun ep => { ep with inFlight := ep.inFlight - 1 } with
    inFlight := s.inFlight - 1 }
  let c := { c with sends := c.sends.modifyHead fun q => { q with outcome := some o } }
  match o with
  | .response r => s.responded c e r
  | .error err connected responded reusedSocket =>
    let t := classify err connected responded reusedSocket
    if t.reason = .reset ∧ ¬ t.accepted then s.continue { c with tried := c.tried.filter fun e' => e' ≠ e }
    else
      let s := s.failed e t.reason (t.reason ≠ .timeout)
      if ¬ t.accepted then s.continue c
      else
        (finish c (.error (.busy (if t.reason = .timeout then (s.expectedWaitMs e c.priority).retryAfterSecFor
          else some FAILED_REQUEST_RETRY_AFTER_SEC))), s)

/-- A poll has ended. -/
def polled (e : Nat) (o : SendOutcome Unit) (s : RemoteVision T) : RemoteVision T :=
  let s := match o with
    | .response r =>
      if r.status = 401 then s.failed e .unauthorized true
      else if r.status ≠ 200 then s.failed e .serverError true
      else match r.decoded with
        | .ok a => s.report e a.load a.instanceId
        | .error _ => s.failed e .badResponse true
    | .error err connected responded reusedSocket =>
        s.failed e (classify err connected responded reusedSocket).reason true
  s.modify e fun ep => { ep with polling := false }

end RemoteVision

/-! ## Runs -/

inductive RemoteInput (T : Type)
  | tick (ms : Nat)
  | resolve (i : Nat) (keys : List String)
  | poll (e : Nat)
  | polled (e : Nat) (o : SendOutcome Unit)
  | call (priority : VisionPriority)
  /-- The request of the `k`-th call ends. -/
  | settled (k : Nat) (o : SendOutcome T)
  | close

def RemoteInput.step {T : Type} (i : RemoteInput T) (s : RemoteVision T) : RemoteVision T :=
  match i with
  | .tick ms => { s with now := s.now + ms }
  | .resolve i keys => s.resolveSource i keys
  | .poll e => s.modify e fun ep => { ep with polling := true }
  | .polled e o => s.polled e o
  | .call priority =>
    let (c, s) := s.attempt (.start priority)
    { s with calls := s.calls ++ [c] }
  | .settled k o =>
    match s.calls[k]? with
    | none => s
    | some c =>
      match c.phase with
      | .starting => s
      | .ended _ => s
      | .sending e =>
        let (c, s) := s.settled c e o
        { s with calls := s.calls.set k c }
  | .close => { s with closed := true }

def RemoteInput.enabled {T : Type} (i : RemoteInput T) (s : RemoteVision T) : Prop :=
  match i with
  | .poll e => s.closed = false ∧ e ∈ s.endpoints ∧ (s.endpoint e).polling = false ∧
    ((s.endpoint e).state ≠ .down ∨ (s.endpoint e).openUntil ≤ s.now)
  | .polled e _ => (s.endpoint e).polling = true
  | .settled k _ => ∃ c ∈ s.calls[k]?, c.waits = true
  | _ => True

instance RemoteInput.decidableEnabled {T : Type} (i : RemoteInput T) (s : RemoteVision T) :
    Decidable (i.enabled s) := by
  unfold RemoteInput.enabled
  split <;> infer_instance

/-- The driver from its start on, with any workers in any states. -/
def remoteMachine (T : Type) : Machine (RemoteVision T) (RemoteInput T) where
  init s := s.calls = [] ∧ s.inFlight = 0 ∧ (∀ e, (s.endpoint e).inFlight = 0) ∧ ∀ e ∈ s.endpoints,
    e < s.allocated
  step := RemoteInput.step
  enabled := RemoteInput.enabled

instance remoteMachine.decidableEnabled (T : Type) (i : RemoteInput T) (s : RemoteVision T) :
    Decidable ((remoteMachine T).enabled i s) :=
  inferInstanceAs (Decidable (i.enabled s))

end SmartProctoring
