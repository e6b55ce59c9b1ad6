import Mathlib.Data.List.Sort
import SmartProctoring.Lib.Run
import SmartProctoring.Shared.Policy

/-!
# Identity samples in the browser

`monitoring/sampler.ts`: triggers of the engine, the host and the server wait in a queue of one
place, a burst collects distinct camera frames for the trigger taken from it, and the frames are
sent concurrently.  What runs between two awaits is one step; a step has the time of the monotonic
clock.  `deps.uuid` gives a new number each time.

The log says what became of every frame, and since when the server waits for a sample: in the queue,
or in the burst that is being collected.  Nothing reads it.
-/

set_option autoImplicit false

namespace SmartProctoring

/-! ## The queue -/

/-- Importance of identity-sample triggers when several are waiting. -/
def SAMPLE_PRIORITY : IdentityCheckTrigger → Nat
  | .trackBreak => 9
  | .appearanceChange => 8
  | .examStart => 7
  | .serverRequest => 6
  | .followUp => 6
  | .cameraReconnect => 5
  | .afterMultiplePeople => 4
  | .faceReturn => 3
  | .afterObstruction => 2
  | .periodic => 1
  | .checkIn => 0
  | .resume => 0
  | .reconnect => 0
  | .reverify => 0
  | .idPhoto => 0

/-- Triggers that are never dropped as stale. -/
def PERSISTENT : List IdentityCheckTrigger := [.followUp, .examStart, .serverRequest]

def SAMPLE_MAX_AGE_MS : Int := 20000

/-- The waiting trigger; `server`: the server asked for this sample. -/
structure WaitingTrigger where
  trigger : IdentityCheckTrigger
  since : Int
  server : Bool

/-- The situation that the trigger describes has passed. -/
def WaitingTrigger.Stale (p : WaitingTrigger) (now : Int) : Prop :=
  p.trigger ∉ PERSISTENT ∧ SAMPLE_MAX_AGE_MS < now - p.since
  deriving Decidable

structure SampleTriggerQueue where
  pending : Option WaitingTrigger

namespace SampleTriggerQueue

def push (q : SampleTriggerQueue) (trigger : IdentityCheckTrigger) (now : Int) (server : Bool) :
    SampleTriggerQueue :=
  match q.pending with
  | none => ⟨some ⟨trigger, now, server⟩⟩
  | some p =>
    if SAMPLE_PRIORITY p.trigger < SAMPLE_PRIORITY trigger then ⟨some ⟨trigger, now, server⟩⟩
    else if server && !p.server then ⟨some { p with server := true, since := min p.since now }⟩
    else q

/-- What a look at the queue leaves in it. -/
def expire (q : SampleTriggerQueue) (now : Int) : SampleTriggerQueue :=
  ⟨q.pending.filter fun p => decide (¬ p.Stale now)⟩

def peek (q : SampleTriggerQueue) (now : Int) : Option IdentityCheckTrigger :=
  (q.expire now).pending.map (·.trigger)

/-- How long a server-requested sample has been waiting. -/
def serverWaitMs (q : SampleTriggerQueue) (now : Int) : Option Int :=
  ((q.expire now).pending.filter (·.server)).map fun p => now - p.since

end SampleTriggerQueue

/-! ## The budget -/

/-- A sliding request budget. -/
structure RequestBudget where
  maxPerWindow : Nat
  windowMs : Int
  times : List Int

namespace RequestBudget

def prune (b : RequestBudget) (now : Int) : RequestBudget :=
  { b with times := b.times.dropWhile fun t => decide (b.windowMs ≤ now - t) }

def available (b : RequestBudget) (now : Int) : Nat := b.maxPerWindow - (b.prune now).times.length

def spend (b : RequestBudget) (now : Int) (n : Nat) : RequestBudget :=
  { b with times := b.times ++ List.replicate n now }

end RequestBudget

/-! ## The sampler -/

/-- Frames of a triggered burst, and of a routine one. -/
structure SamplerSizes where
  burstSize : Nat
  routineBurstSize : Option Nat

structure BurstFrame where
  sampleId : Nat
  capturedAt : Int

def BURST_MIN_SPACING_MS : Int := 150

/-- A burst sends what it has after this long. -/
def BurstSampler.BURST_TIMEOUT_MS : Int := 2500

/-- A server-requested sample waits this long for a frame with exactly one usable face. -/
def SERVER_REQUEST_FORCE_MS : Int := 3000

/-- The burst that collects frames.  `forced`: any frame that can be captured is used. -/
structure ActiveBurst where
  id : Nat
  trigger : IdentityCheckTrigger
  startedAt : Int
  lastFrameAt : Option Int
  frames : List BurstFrame
  pendingCaptures : Nat
  forced : Bool
  size : Nat

/-- A frame that was sent directly. -/
structure SentFrame where
  burst : Nat
  index : Nat
  sampleId : Nat
  sentAt : Int
  deriving DecidableEq

/-- `sendBurst` at work: the sends that have not settled and those that failed; then, one after the
other, the failed frames that `onSendFailed` has yet to get while it is at work on one. -/
structure SendingBurst where
  id : Nat
  total : Nat
  inFlight : List SentFrame
  failed : List SentFrame
  decided : Bool
  held : Bool
  keeping : Option (List SentFrame)

/-- The server's answer: whether it reports a hold, and the receipt of the burst. -/
structure DirectAnswer where
  onHold : Bool
  complete : Option Bool
  deriving DecidableEq

/-- What `onSendFailed` did with a frame. -/
inductive SendFailure
  | queued | dropped | fatal
  deriving DecidableEq

inductive TriggerSource
  | engine | host | server
  deriving DecidableEq

structure SampleLog where
  /-- The frames captured for a burst. -/
  captured : List Nat
  /-- The captured frames of a burst that was stopped. -/
  discarded : List Nat
  sent : List SentFrame
  answered : List SentFrame
  /-- The calls of `onResponse`: the frame, and whether the answer is the decision. -/
  responses : List (Nat × Bool)
  /-- The calls of `onSendFailed`. -/
  sendFailed : List SentFrame
  /-- Failed frames that `onSendFailed` never gets. -/
  givenUp : List SentFrame
  /-- The bursts of which a failure was fatal. -/
  fatal : List Nat
  /-- Since when a server request waits in the queue. -/
  waiting : Option Int
  /-- Since when the server request waits for which the burst is collected. -/
  collecting : Option Int

structure BurstSampler where
  sizes : SamplerSizes
  queue : SampleTriggerQueue
  budget : RequestBudget
  burst : Option ActiveBurst
  sending : Option SendingBurst
  examStartTaken : Bool
  stopped : Bool
  /-- Scheduled server requests, with the time they are due. -/
  timers : List (Int × IdentityCheckTrigger)
  /-- Captures that have not settled: the burst, and the time of the frame. -/
  captures : List (Nat × Int)
  nextId : Nat
  clock : Int
  log : SampleLog

namespace BurstSampler

/-- Frames of a burst for this trigger. -/
def sizeFor (s : BurstSampler) (trigger : IdentityCheckTrigger) : Nat :=
  max 1 (min 5 (if trigger ∈ ROUTINE_SAMPLE_TRIGGERS
    then s.sizes.routineBurstSize.getD s.sizes.burstSize
    else s.sizes.burstSize))

/-- A burst is collecting frames or being sent. -/
def busy (s : BurstSampler) : Bool := s.burst.isSome || s.sending.isSome

def examStartBurst (s : BurstSampler) : Bool := s.burst.any fun b => decide (b.trigger = .examStart)

/-- `queue.push` for a trigger that was accepted. -/
def pushTrigger (s : BurstSampler) (trigger : IdentityCheckTrigger) (now : Int) (server : Bool) :
    BurstSampler :=
  { s with
    queue := s.queue.push trigger now server
    log := { s.log with waiting := if server then some (s.log.waiting.getD now) else s.log.waiting } }

/-- The queue is looked at. -/
def look (s : BurstSampler) (now : Int) : BurstSampler := { s with queue := s.queue.expire now }

def request (s : BurstSampler) (now : Int) (trigger : IdentityCheckTrigger)
    (source : TriggerSource) : BurstSampler :=
  if s.stopped then s
  else if trigger = .examStart then
    if s.examStartTaken || s.examStartBurst then s
    else if s.queue.peek now = some .examStart then s.look now
    else (s.look now).pushTrigger trigger now (source == .server)
  else s.pushTrigger trigger now (source == .server)

/-- `request(trigger, 'server')`, or its timer. -/
def requestIn (s : BurstSampler) (now : Int) (trigger : IdentityCheckTrigger) (inMs : Int) :
    BurstSampler :=
  if inMs ≤ 0 then s.request now trigger .server
  else { s with timers := s.timers ++ [(now + inMs, trigger)] }

def serverRequest (s : BurstSampler) (now : Int) (trigger : IdentityCheckTrigger) (inMs : Int) :
    BurstSampler :=
  if s.stopped then s
  else if trigger = .examStart then
    if s.examStartTaken then s else s.requestIn now trigger inMs
  else if s.busy then s
  else if s.queue.peek now = some trigger then s.look now
  else (s.look now).requestIn now trigger inMs

def timerFires (s : BurstSampler) (now : Int) (k : Nat) : BurstSampler :=
  match s.timers[k]? with
  | none => s
  | some t => { s with timers := s.timers.eraseIdx k }.request now t.2 .server

/-! ### Sending -/

/-- The failed frames go to `onSendFailed` one after the other. -/
def keepNext (s : BurstSampler) (b : SendingBurst) : List SentFrame → BurstSampler
  | [] => { s with sending := none }
  | x :: rest =>
    { s with
      sending := some { b with inFlight := [], failed := [], keeping := some rest }
      log := { s.log with sendFailed := s.log.sendFailed ++ [x] } }

/-- The frames of a burst as they are sent, in the order in which they were captured. -/
def framesToSend (b : ActiveBurst) (now : Int) : List SentFrame :=
  (b.frames.insertionSort fun x y => x.capturedAt ≤ y.capturedAt).mapIdx fun i f =>
    ⟨b.id, i, f.sampleId, now⟩

/-- `sendBurst`, as far as its sends. -/
def sendBurst (s : BurstSampler) (now : Int) (b : ActiveBurst) : BurstSampler :=
  { s with
    budget := s.budget.spend now b.frames.length
    sending := some ⟨b.id, b.frames.length, framesToSend b now, [], false, false, none⟩
    log := { s.log with sent := s.log.sent ++ framesToSend b now, collecting := none } }

def answered (s : BurstSampler) (k : Nat) (answer : DirectAnswer) : BurstSampler :=
  match s.sending with
  | none => s
  | some b =>
    match b.inFlight[k]? with
    | none => s
    | some f =>
      let rest := b.inFlight.eraseIdx k
      if s.stopped || b.held then
        { s with
          sending := some { b with inFlight := rest }
          log := { s.log with answered := s.log.answered ++ [f] } }
      else
        let final := !b.decided && answer.complete.getD (decide (f.index + 1 = b.total))
        { s with
          sending := some { b with inFlight := rest, decided := b.decided || final, held := answer.onHold }
          log := { s.log with
            answered := s.log.answered ++ [f], responses := s.log.responses ++ [(f.sampleId, final)] } }

def sendFails (s : BurstSampler) (k : Nat) : BurstSampler :=
  match s.sending with
  | none => s
  | some b =>
    match b.inFlight[k]? with
    | none => s
    | some f => { s with sending := some { b with inFlight := b.inFlight.eraseIdx k, failed := b.failed ++ [f] } }

/-- `Promise.all` has settled. -/
def sendsSettled (s : BurstSampler) : BurstSampler :=
  match s.sending with
  | none => s
  | some b =>
    if b.inFlight ≠ [] ∨ b.keeping ≠ none then s
    else if s.stopped then
      { s with sending := none, log := { s.log with givenUp := s.log.givenUp ++ b.failed } }
    else s.keepNext b (b.failed.insertionSort fun x y => x.index ≤ y.index)

/-- `onSendFailed` has settled. -/
def failureKept (s : BurstSampler) (outcome : SendFailure) : BurstSampler :=
  match s.sending with
  | none => s
  | some b =>
    match b.keeping with
    | none => s
    | some rest =>
      if outcome = .fatal then
        { s with
          sending := none
          log := { s.log with givenUp := s.log.givenUp ++ rest, fatal := s.log.fatal ++ [b.id] } }
      else s.keepNext b rest

/-! ### Collecting -/

/-- Nothing usable was captured: the request waits for the next opportunity. -/
def pushBack (s : BurstSampler) (now : Int) (b : ActiveBurst) : BurstSampler :=
  { s with
    burst := none
    examStartTaken := decide (b.trigger ≠ .examStart) && s.examStartTaken
    queue := s.queue.push b.trigger now false
    log := { s.log with waiting := s.log.collecting.or s.log.waiting, collecting := none } }

def finish (s : BurstSampler) (now : Int) : BurstSampler :=
  match s.burst with
  | none => s
  | some b =>
    if s.sending.isSome ∨ 0 < b.pendingCaptures then s
    else if b.frames = [] then s.pushBack now b
    else { s with burst := none }.sendBurst now b

/-- The part of `wantsFrame` that starts a burst when a trigger waits and the budget allows. -/
def startBurst (s : BurstSampler) (now : Int) (eligible capturable : Bool) : BurstSampler :=
  match (s.queue.expire now).pending with
  | none => s.look now
  | some p =>
    let forced := !eligible && capturable &&
      decide (SERVER_REQUEST_FORCE_MS ≤ (s.queue.serverWaitMs now).getD (-1))
    if !eligible && !forced then s.look now
    else if s.budget.available now < s.sizeFor p.trigger then
      { s.look now with budget := s.budget.prune now }
    else
      { s with
        queue := ⟨none⟩
        budget := s.budget.prune now
        burst := some ⟨s.nextId, p.trigger, now, none, [], 0, forced, s.sizeFor p.trigger⟩
        examStartTaken := decide (p.trigger = .examStart) || s.examStartTaken
        nextId := s.nextId + 1
        log := { s.log with waiting := none, collecting := s.log.waiting } }

/-- The frame belongs to the burst. -/
def takes (b : ActiveBurst) (now : Int) (eligible capturable : Bool) : Bool :=
  (eligible || b.forced && capturable) && decide (b.frames.length + b.pendingCaptures < b.size) &&
    b.lastFrameAt.all fun t => decide (BURST_MIN_SPACING_MS ≤ now - t)

/-- Whether an analysed frame should be captured. -/
def wantsFrame (s : BurstSampler) (now : Int) (eligible capturable : Bool) : Bool × BurstSampler :=
  if s.stopped || s.sending.isSome then (false, s)
  else
    let s := if s.burst.isNone then s.startBurst now eligible capturable else s
    match s.burst with
    | none => (false, s)
    | some b =>
      if BURST_TIMEOUT_MS < now - b.startedAt then (false, s.finish now)
      else (takes b now eligible capturable, s)

/-- `addFrame`, until the capture settles. -/
def addFrame (s : BurstSampler) (now : Int) (capturedAt : Int) : BurstSampler :=
  match s.burst with
  | none => s
  | some b =>
    { s with
      burst := some { b with lastFrameAt := some now, pendingCaptures := b.pendingCaptures + 1 }
      captures := s.captures ++ [(b.id, capturedAt)] }

/-- An analysed frame: it is captured when the sampler wants it. -/
def frame (s : BurstSampler) (now : Int) (eligible capturable : Bool) (capturedAt : Int) :
    BurstSampler :=
  let r := s.wantsFrame now eligible capturable
  if r.1 then r.2.addFrame now capturedAt else r.2

/-- The frame of a capture, if it did not fail, joins the burst. -/
def joinBurst (s : BurstSampler) (b : ActiveBurst) (f : Option BurstFrame) : BurstSampler :=
  { s with
    burst := some { b with pendingCaptures := b.pendingCaptures - 1, frames := b.frames ++ f.toList }
    nextId := s.nextId + f.toList.length
    log := { s.log with captured := s.log.captured ++ f.toList.map (·.sampleId) } }

/-- A capture has settled. -/
def captureSettles (s : BurstSampler) (now : Int) (k : Nat) (ok : Bool) : BurstSampler :=
  match s.captures[k]? with
  | none => s
  | some c =>
    let s := { s with captures := s.captures.eraseIdx k }
    match s.burst with
    | none => s
    | some b =>
      if b.id ≠ c.1 then s
      else
        let f := if ok then some ⟨s.nextId, c.2⟩ else none
        if b.size ≤ (b.frames ++ f.toList).length then (s.joinBurst b f).finish now else s.joinBurst b f

def tick (s : BurstSampler) (now : Int) : BurstSampler :=
  match s.burst with
  | none => s
  | some b =>
    if s.sending.isNone ∧ BURST_TIMEOUT_MS < now - b.startedAt ∧
      b.pendingCaptures = 0 then s.finish now else s

/-- Forget a waiting trigger of this kind. -/
def dropPending (s : BurstSampler) (now : Int) (trigger : IdentityCheckTrigger) : BurstSampler :=
  if s.queue.peek now = some trigger then { s with queue := ⟨none⟩ } else s.look now

def stop (s : BurstSampler) : BurstSampler :=
  { s with
    stopped := true
    burst := none
    queue := ⟨none⟩
    timers := []
    log := { s.log with
      discarded := s.log.discarded ++ (s.burst.elim [] fun b => b.frames.map (·.sampleId))
      waiting := none
      collecting := none } }

/-! ## Runs -/

inductive Event
  | request (trigger : IdentityCheckTrigger) (source : TriggerSource)
  | serverRequest (trigger : IdentityCheckTrigger) (inMs : Int)
  | timerFires (k : Nat)
  | frame (eligible capturable : Bool) (capturedAt : Int)
  | captureSettles (k : Nat) (ok : Bool)
  | tick
  | answered (k : Nat) (answer : DirectAnswer)
  | sendFails (k : Nat)
  | sendsSettled
  | failureKept (outcome : SendFailure)
  | dropPending (trigger : IdentityCheckTrigger)
  /-- `pendingTrigger` is read. -/
  | pendingTrigger
  /-- `budget.available` is read. -/
  | budgetLeft
  | stop
  deriving DecidableEq

def act (s : BurstSampler) (now : Int) : Event → BurstSampler
  | .request trigger source => s.request now trigger source
  | .serverRequest trigger inMs => s.serverRequest now trigger inMs
  | .timerFires k => s.timerFires now k
  | .frame eligible capturable capturedAt => s.frame now eligible capturable capturedAt
  | .captureSettles k ok => s.captureSettles now k ok
  | .tick => s.tick now
  | .answered k answer => s.answered k answer
  | .sendFails k => s.sendFails k
  | .sendsSettled => s.sendsSettled
  | .failureKept outcome => s.failureKept outcome
  | .dropPending trigger => s.dropPending now trigger
  | .pendingTrigger => if s.burst.isSome then s else s.look now
  | .budgetLeft => { s with budget := s.budget.prune now }
  | .stop => s.stop

def emptyLog : SampleLog := ⟨[], [], [], [], [], [], [], [], none, none⟩

/-- A new sampler. -/
def start (sizes : SamplerSizes) (maxPerWindow : Nat) (windowMs now : Int) : BurstSampler :=
  ⟨sizes, ⟨none⟩, ⟨maxPerWindow, windowMs, []⟩, none, none, false, false, [], [], 0, now, emptyLog⟩

/-- The sampler; the clock does not go back. -/
def machine : Machine BurstSampler (Int × Event) where
  init s := ∃ sizes maxPerWindow windowMs now, s = start sizes maxPerWindow windowMs now
  step i s := { s.act i.1 i.2 with clock := i.1 }
  enabled i s := s.clock ≤ i.1

instance (i : Int × Event) (s : BurstSampler) : Decidable (machine.enabled i s) :=
  inferInstanceAs (Decidable (s.clock ≤ i.1))

end BurstSampler

end SmartProctoring
