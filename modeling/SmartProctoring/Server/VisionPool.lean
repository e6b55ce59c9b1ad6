import Mathlib.Algebra.Order.Floor.Ring
import Mathlib.Data.Rat.Floor
import SmartProctoring.Lib.Passage
import SmartProctoring.Lib.Run

/-!
# The vision worker pool

`vision/pool.ts`: analyses wait in two queues, interactive before background, for a worker thread
that runs one at a time.  Background work that has waited too long alternates with interactive work.
A worker that crashes fails its own analysis only and is replaced; one that fails to start fails
what waits, unless another is ready.

`visionPool` is the machine of the events of the main thread: each handler runs to its end before
the next event, at one reading of the clock.  What is analysed and what comes out is nothing to the
pool and is left out.
-/

set_option autoImplicit false

namespace SmartProctoring

inductive VisionPriority
  | interactive | background
  deriving DecidableEq

/-- The error a worker ends with. -/
inductive WorkerError
  | notStarted
  | reported (message : String)
  | exited (code : Int)
  deriving DecidableEq

/-- Why an analysis is refused. -/
inductive VisionError
  | busy (retryAfterSec : Int)
  | cancelled
  | closed

/-- How the promise of an accepted task is settled. -/
inductive Settlement
  | resolved
  | failed (e : WorkerError)
  | cancelled
  | exited (e : WorkerError)
  | startFailed (e : WorkerError)
  | closed
  deriving DecidableEq

structure VisionTask where
  id : Nat
  priority : VisionPriority
  enqueuedAt : Int
  /-- When a worker took it (0 while queued). -/
  startedAt : Int := 0
  deriving DecidableEq

/-- A worker and the analysis it runs.  `initial` says that the start of the pool waits for it: it
is not tried again when it fails to start. -/
structure VisionSlot where
  worker : Nat
  initial : Bool := false
  ready : Bool := false
  exitError : Option WorkerError := none
  task : Option VisionTask := none

def VisionSlot.free (sl : VisionSlot) : Bool := sl.ready && sl.task.isNone

def MAX_RETRY_AFTER_SEC : Int := 30

/-- Background work that waited this long alternates with interactive work instead of waiting behind
it. -/
def BACKGROUND_MAX_WAIT_MS : Int := 5000

def INITIAL_SERVICE_MS : ℚ := 100

def SERVICE_MS_ALPHA : ℚ := 1 / 10

def MAX_RESPAWN_DELAY_MS : Nat := 30000

structure VisionPoolOptions where
  size : Nat
  maxQueue : Nat
  backgroundMaxWaitMs : Int := BACKGROUND_MAX_WAIT_MS

/-- Where a task may be. -/
inductive TaskPlace
  | queue (p : VisionPriority)
  | slot (worker : Nat)

/-- The start of a task, and what waited before it. -/
structure TaskStart where
  task : VisionTask
  now : Int
  interactive : List VisionTask
  background : List VisionTask

/-- The pool.  `timers` are the pending respawns with their delays, `listeners` the tasks whose
abort signal may still fire, and `nextWorker` numbers the workers.  `log` and `starts` are no
fields: they record what happened to each task, and the starts in their order; `startFailed` that
one of the first workers failed to start, so that the pool is closed instead of handed out. -/
structure VisionPool where
  opts : VisionPoolOptions
  slots : List VisionSlot
  interactive : List VisionTask := []
  background : List VisionTask := []
  lastWasOverdue : Bool := false
  nextId : Nat := 1
  closed : Bool := false
  respawnFailures : Nat := 0
  lastInitError : Option WorkerError := none
  serviceMs : ℚ := INITIAL_SERVICE_MS
  serviceMeasured : Bool := false
  timers : List Nat := []
  listeners : List (VisionPriority × Nat) := []
  nextWorker : Nat
  startFailed : Bool := false
  log : List (Nat × Passage TaskPlace Settlement) := []
  starts : List TaskStart := []

/-- Suggested wait before retrying, in whole seconds within 1..MAX_RETRY_AFTER_SEC. -/
def retryAfterSecFor (waitMs : Int) : Int :=
  min MAX_RETRY_AFTER_SEC (max 1 ⌈(waitMs : ℚ) / 1000⌉)

namespace VisionPool

def queue (s : VisionPool) : VisionPriority → List VisionTask
  | .interactive => s.interactive
  | .background => s.background

def setQueue (s : VisionPool) (p : VisionPriority) (q : List VisionTask) : VisionPool :=
  { s with
    interactive := match p with
      | .interactive => q
      | .background => s.interactive
    background := match p with
      | .interactive => s.background
      | .background => q }

def queued (s : VisionPool) : Nat := s.interactive.length + s.background.length

def readyWorkers (s : VisionPool) : Nat := s.slots.countP fun sl => sl.ready

/-- Expected wait before work of the priority submitted now gets a worker (ms). -/
def estimatedWaitMs (s : VisionPool) (priority : VisionPriority) : Int :=
  let ahead := match priority with
    | .interactive => s.interactive.length
    | .background => s.queued
  if ahead = 0 ∧ s.slots.any (·.free) then 0
  else ⌊((ahead + 1 : Nat) : ℚ) * s.serviceMs / (max 1 s.readyWorkers : Nat) + 1 / 2⌋

/-- Records the analysis time: a moving average of the analyses that succeeded. -/
def taskEnded (s : VisionPool) (task : VisionTask) (ok : Bool) (now : Int) : VisionPool :=
  if ok then
    let runMs : ℚ := (now - task.startedAt : Int)
    { s with
      serviceMs :=
        if s.serviceMeasured then s.serviceMs + SERVICE_MS_ALPHA * (runMs - s.serviceMs) else runMs
      serviceMeasured := true }
  else s

/-- Settle a task's promise. -/
def settle (s : VisionPool) (id : Nat) (r : Settlement) : VisionPool :=
  { s with log := s.log ++ [(id, .left r)] }

/-- A slot, with another state. -/
def setSlot (s : VisionPool) (worker : Nat) (f : VisionSlot → VisionSlot) : VisionPool :=
  { s with slots := s.slots.map fun sl => if sl.worker = worker then f sl else sl }

/-- Overdue background work at the head of its queue. -/
def overdue (s : VisionPool) (now : Int) : Bool :=
  s.background.head?.any fun t => decide (s.opts.backgroundMaxWaitMs ≤ now - t.enqueuedAt)

/-- The next task and the pool without it.  Overdue background work alternates with interactive
work, so neither class can starve the other. -/
def nextTask (s : VisionPool) (now : Int) : Option VisionTask × VisionPool :=
  if !s.interactive.isEmpty && !(s.overdue now && !s.lastWasOverdue) then
    (s.interactive.head?, { s with interactive := s.interactive.tail, lastWasOverdue := false })
  else
    (s.background.head?, { s with background := s.background.tail, lastWasOverdue := s.overdue now })

/-- Post the next task to the worker. -/
def startNext (s : VisionPool) (worker : Nat) (now : Int) : VisionPool :=
  match s.nextTask now with
  | (some task, rest) =>
    let started := { task with startedAt := now }
    let busy := rest.setSlot worker fun sl => { sl with task := some started }
    { busy with
      log := s.log ++ [(task.id, .moved (.slot worker))]
      starts := s.starts ++
        [{ task := started, now, interactive := s.interactive, background := s.background }] }
  | (none, _) => s

/-- Give queued tasks to ready workers that are free.  Each round starts a queued task, so as many
rounds as tasks are queued are enough. -/
def pumpRounds (now : Int) : Nat → VisionPool → VisionPool
  | 0, s => s
  | rounds + 1, s =>
    if s.queued = 0 then s
    else
      match s.slots.find? (·.free) with
      | none => s
      | some sl => pumpRounds now rounds (s.startNext sl.worker now)

def pump (s : VisionPool) (now : Int) : VisionPool := pumpRounds now s.queued s

/-- Queue a new task and listen to its signal. -/
def push (s : VisionPool) (task : VisionTask) (signal : Bool) : VisionPool :=
  let pushed : VisionPool := s.setQueue task.priority (s.queue task.priority ++ [task])
  { pushed with
    nextId := s.nextId + 1
    listeners := if signal then s.listeners ++ [(task.priority, task.id)] else s.listeners
    log := s.log ++ [(task.id, .entered (.queue task.priority))] }

def submit (s : VisionPool) (priority : VisionPriority) (signal : Option Bool) (now : Int) :
    Except VisionError Nat × VisionPool :=
  if s.closed then (.error .closed, s)
  else if signal = some true then (.error .cancelled, s)
  else if !s.slots.any (·.free) && decide (s.opts.maxQueue ≤ (s.queue priority).length) then
    (.error (.busy (retryAfterSecFor (s.estimatedWaitMs priority))), s)
  else
    let task : VisionTask := { id := s.nextId, priority, enqueuedAt := now }
    (.ok task.id, (s.push task signal.isSome).pump now)

/-- The listener of a task's abort signal, which is called once. -/
def aborted (s : VisionPool) (priority : VisionPriority) (id : Nat) : VisionPool :=
  let s : VisionPool := { s with listeners := s.listeners.erase (priority, id) }
  match (s.queue priority).find? fun t => decide (t.id = id) with
  | some task =>
    -- already on a worker: let it finish
    if task.startedAt ≠ 0 then s
    else (s.setQueue priority ((s.queue priority).erase task)).settle id .cancelled
  | none => s

/-- Fail all that waits. -/
def rejectQueued (s : VisionPool) (r : Settlement) : VisionPool :=
  { s with
    interactive := []
    background := []
    log := s.log ++ (s.interactive ++ s.background).map fun t => (t.id, .left r) }

def spawn (s : VisionPool) (initial : Bool) : VisionPool :=
  { s with slots := s.slots ++ [{ worker := s.nextWorker, initial }], nextWorker := s.nextWorker + 1 }

def scheduleRespawn (s : VisionPool) : VisionPool :=
  let delay := min MAX_RESPAWN_DELAY_MS (1000 * 2 ^ s.respawnFailures)
  { s with timers := s.timers ++ [if s.respawnFailures = 0 then 0 else delay] }

/-- The worker has loaded its models. -/
def onReady (s : VisionPool) (worker : Nat) (now : Int) : VisionPool :=
  let readied := s.setSlot worker fun sl => { sl with ready := true }
  { readied with respawnFailures := 0, lastInitError := none }.pump now

def onResult (s : VisionPool) (worker id : Nat) (outcome : Except WorkerError Unit) (now : Int) :
    VisionPool :=
  match s.slots.find? fun sl => decide (sl.worker = worker) with
  | some sl =>
    match sl.task with
    | some task =>
      if task.id ≠ id then s
      else
        let freed := s.setSlot worker fun sl => { sl with task := none }
        let settled := match outcome with
          | .ok _ => (freed.taskEnded task true now).settle id .resolved
          | .error e => (freed.taskEnded task false now).settle id (.failed e)
        settled.pump now
    | none => s
  | none => s

/-- The worker reported an error (while it loads, or later): it will exit. -/
def onError (s : VisionPool) (worker : Nat) (e : WorkerError) : VisionPool :=
  s.setSlot worker fun sl => { sl with exitError := some e }

/-- The pool without a worker, whose analysis fails. -/
def without (s : VisionPool) (sl : VisionSlot) (e : WorkerError) (now : Int) : VisionPool :=
  let removed : VisionPool :=
    { s with slots := s.slots.filter fun x => decide (x.worker ≠ sl.worker) }
  match sl.task with
  | some task => (removed.taskEnded task false now).settle task.id (.exited e)
  | none => removed

/-- A failed start is tried again by whoever called `spawn`: not by the start of the pool. -/
def startRejected (s : VisionPool) (sl : VisionSlot) : VisionPool :=
  if sl.initial then { s with startFailed := true }
  else { s with respawnFailures := s.respawnFailures + 1 }.scheduleRespawn

/-- The worker is gone.  A replacement that failed to start fails waiting work, instead of letting
it hang, when no other worker is ready. -/
def onExit (s : VisionPool) (worker : Nat) (code now : Int) : VisionPool :=
  match s.slots.find? fun sl => decide (sl.worker = worker) with
  | none => s
  | some sl =>
    let err := sl.exitError.getD (.exited code)
    let failed := s.without sl err now
    if !sl.ready then
      if failed.closed then failed.startRejected sl
      else
        let noted : VisionPool := { failed with lastInitError := some err }
        if noted.slots.any (·.ready) then noted.startRejected sl
        else (noted.rejectQueued (.startFailed err)).startRejected sl
    else if failed.closed then failed
    else failed.scheduleRespawn

/-- A respawn timer fires. -/
def onTimer (s : VisionPool) (k : Nat) : VisionPool :=
  let fired : VisionPool := { s with timers := s.timers.eraseIdx k }
  if s.closed then fired else fired.spawn false

/-- Refuse new work and fail queued work; analyses in flight finish. -/
def close (s : VisionPool) : VisionPool :=
  if s.closed then s else { s with closed := true }.rejectQueued .closed

end VisionPool

inductive VisionEvent
  /-- A task with or without a signal, which may have been aborted already. -/
  | submit (priority : VisionPriority) (signal : Option Bool) (now : Int)
  | abort (priority : VisionPriority) (id : Nat)
  | ready (worker : Nat) (now : Int)
  | result (worker id : Nat) (outcome : Except WorkerError Unit) (now : Int)
  | error (worker : Nat) (e : WorkerError)
  | exit (worker : Nat) (code now : Int)
  | timer (k : Nat)
  | close

def VisionPool.step : VisionEvent → VisionPool → VisionPool
  | .submit priority signal now, s => (s.submit priority signal now).2
  | .abort priority id, s => s.aborted priority id
  | .ready worker now, s => s.onReady worker now
  | .result worker id outcome now, s => s.onResult worker id outcome now
  | .error worker e, s => s.onError worker e
  | .exit worker code now, s => s.onExit worker code now
  | .timer k, s => s.onTimer k
  | .close, s => s.close

/-- The pool when its first workers have been created. -/
def VisionPool.started (opts : VisionPoolOptions) : VisionPool :=
  { opts
    slots := (List.range (max 1 opts.size)).map fun w => { worker := w, initial := true }
    nextWorker := max 1 opts.size }

/-- The pool has been handed out: each of its first workers became ready. -/
def VisionPool.Open (s : VisionPool) : Prop :=
  s.startFailed = false ∧ ∀ sl ∈ s.slots, sl.initial = true → sl.ready = true

instance (s : VisionPool) : Decidable s.Open := inferInstanceAs (Decidable (_ ∧ _))

/-- The pool and all its events.  Only a task whose signal has not fired is aborted. -/
def visionPool (opts : VisionPoolOptions) : Machine VisionPool VisionEvent where
  init s := s = VisionPool.started opts
  step := VisionPool.step
  enabled
    | .submit .., s => s.Open
    | .abort priority id, s => (priority, id) ∈ s.listeners
    | _, _ => True

instance (opts : VisionPoolOptions) :
    ∀ (i : VisionEvent) (s : VisionPool), Decidable ((visionPool opts).enabled i s)
  | .abort priority id, s => inferInstanceAs (Decidable ((priority, id) ∈ s.listeners))
  | .submit .., s => inferInstanceAs (Decidable s.Open)
  | .ready .., _ | .result .., _ | .error .., _ | .exit .., _ | .timer _, _
  | .close, _ => .isTrue trivial

end SmartProctoring
