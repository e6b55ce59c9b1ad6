import SmartProctoring.Lib.Run
import SmartProctoring.Server.Schema

/-!
# The controller of the candidate's page

`CandidateController` of `controller.ts`, as far as it starts and stops the monitoring: the session
states that are applied, the heartbeat's answers, the holds, the passed check that waits for a
click, and the fatal errors.  A call that waits is a task, and goes on when what it waits for
settles; what runs between two awaits is one step.  The waits of `apply` before `syncServices` are
one.

Of a `MonitoringRuntime` only the two flags are kept that say whether it was started and stopped, of
the outbox and the exam recording whether they are there.  Left out: the heartbeat and the polling
(their answers and the loads they begin come at any time), the camera and the screen, the answers,
what the candidate is shown, and `dispose`.
-/

set_option autoImplicit false

namespace SmartProctoring

/-- `verified`: this page is the verified instance.  `records`: the exam's recording plan has a
stream. -/
structure CandidateSessionState where
  status : SessionStatus
  verified : Bool
  requiredCheck : Option CheckPurpose
  records : Bool
  deriving DecidableEq

/-- The part of a heartbeat's answer that is about the monitoring. -/
structure HeartbeatAnswer where
  status : SessionStatus
  requiredCheck : Option CheckPurpose
  commands : List CandidateCommand
  deriving DecidableEq

/-- The flags of a `MonitoringRuntime`. -/
structure RuntimeFlags where
  running : Bool
  stopped : Bool
  deriving DecidableEq

/-- What the caller of `stopMonitoring` does next. -/
inductive AfterStop
  | nothing
  | load
  /-- The state is applied that a pause, a submission or a withdrawal was answered with. -/
  | leave (s : CandidateSessionState)
  deriving DecidableEq

/-- What `stopMonitoring` waits for. -/
inductive StopWait
  | recording (rt : Option Nat)
  | runtime
  | flush
  /-- It has returned to its caller. -/
  | returned
  deriving DecidableEq

/-- What `startMonitoring` waits for. -/
inductive StartWait
  | runtime
  | queue
  | recording
  | returned
  deriving DecidableEq

/-- A call that waits. -/
inductive ControllerTask
  | load (seq : Nat)
  | apply
  | heartbeat (hb : HeartbeatAnswer) (commands : List CandidateCommand) (needReload : Bool)
  | start (rt : Nat) (wait : StartWait)
  | stop (wait : StopWait) (flush : Bool) (after : AfterStop)
  deriving DecidableEq

/-- How what a call waits for settles. -/
inductive TaskOutcome
  | ok
  | fails
  | answered (s : CandidateSessionState)
  deriving DecidableEq

structure Controller where
  state : Option CandidateSessionState
  fatal : Bool
  /-- The status in which the check was passed that waits for the candidate's click. -/
  awaitingContinue : Option SessionStatus
  outbox : Bool
  loadSeq : Nat
  runtime : Option Nat
  runtimes : List RuntimeFlags
  runtimeStarting : Bool
  recording : Option Nat
  recordings : Nat
  recordingLimitReached : Bool
  tasks : List ControllerTask

/-- `isVerifiedInstance`. -/
def CandidateSessionState.isVerifiedInstance (s : CandidateSessionState) : Bool :=
  s.verified && s.requiredCheck.isNone

def CandidateSessionState.shouldMonitor (s : CandidateSessionState) : Bool :=
  decide (s.status = .active) && s.isVerifiedInstance

namespace Controller

def push (c : Controller) (t : ControllerTask) : Controller := { c with tasks := c.tasks ++ [t] }

/-! ## Starting and stopping -/

def startMonitoring (c : Controller) : Controller :=
  if c.runtime.isSome || c.runtimeStarting || !c.outbox || c.state.isNone then c
  else
    let rt : RuntimeFlags := ⟨true, false⟩
    { c with
      runtimeStarting := true
      runtime := some c.runtimes.length
      runtimes := c.runtimes ++ [rt] }.push (.start c.runtimes.length .runtime)

/-- `stop` of a runtime. -/
def stopRuntime (c : Controller) (rt : Nat) : Controller :=
  { c with runtimes := c.runtimes.modify rt fun _ => ⟨false, true⟩ }

/-- The end of `stopMonitoring`. -/
def stopFlush (c : Controller) (flush : Bool) (after : AfterStop) : Controller :=
  c.push (.stop (if flush && c.outbox then .flush else .returned) flush after)

/-- `stopMonitoring`, once the recording has stopped. -/
def stopRest (c : Controller) (rt : Option Nat) (flush : Bool) (after : AfterStop) : Controller :=
  match rt with
  | some rt => (c.stopRuntime rt).push (.stop .runtime flush after)
  | none => c.stopFlush flush after

def stopMonitoring (c : Controller) (flush : Bool) (after : AfterStop) : Controller :=
  let idle := { c with runtime := none, recording := none }
  match c.recording with
  | some _ => idle.push (.stop (.recording c.runtime) flush after)
  | none => idle.stopRest c.runtime flush after

def syncServices (c : Controller) : Controller :=
  match c.state with
  | some s =>
    if c.fatal then c
    else if s.shouldMonitor then
      if c.awaitingContinue.isSome then c else c.startMonitoring
    else if c.runtime.isSome then c.stopMonitoring true .nothing
    else c
  | none => c

def setFatal (c : Controller) : Controller :=
  if c.fatal then c else { c.stopMonitoring false .nothing with fatal := true }

/-- Whether `startRecording` goes on to make a recording. -/
def recordsNow (c : Controller) : Bool :=
  (c.state.any fun s => s.records) && c.recording.isNone && !c.recordingLimitReached && c.outbox

/-! ## Session states -/

/-- `apply`, until it waits for the stores. -/
def apply (c : Controller) (s : CandidateSessionState) : Controller :=
  let awaitingContinue := c.awaitingContinue.filter fun passedIn =>
    decide (s.status = .active ∨ s.status = passedIn)
  { c with state := some s, awaitingContinue }.push .apply

def load (c : Controller) : Controller :=
  { c with loadSeq := c.loadSeq + 1 }.push (.load (c.loadSeq + 1))

def applyState (c : Controller) (s : CandidateSessionState) : Controller :=
  { c with loadSeq := c.loadSeq + 1 }.apply s

def setAwaitingContinue (c : Controller) (a : Option SessionStatus) : Controller :=
  if a = none ∧ c.awaitingContinue = none then c else { c with awaitingContinue := a }.syncServices

/-! ## Heartbeats -/

/-- Whether the session state should be reloaded after a command. -/
def needsReload : CandidateCommand → Bool
  | .pauseApproved => true
  | .pauseDenied _ => true
  | .hold .. => true
  | .holdReleased _ => true
  | .terminated _ => true
  | .submitted _ => true
  | .requireCheck .. => true
  | .superseded _ => false

def handleCommand (c : Controller) (cmd : CandidateCommand) : Controller :=
  if cmd.isSuperseded then c.setFatal else c

/-- `onHeartbeat`, once the commands are handled. -/
def onHeartbeat (c : Controller) (hb : HeartbeatAnswer) (needReload : Bool) : Controller :=
  if c.state.any fun s => decide (hb.status ≠ s.status ∨ hb.requiredCheck ≠ s.requiredCheck) then
    if hb.status ≠ .active ∨ hb.requiredCheck.isSome then c.stopMonitoring true .load else c.load
  else if needReload then c.load
  else c

/-! ## Calls that go on -/

/-- `startMonitoring` comes to its `finally`. -/
def started (c : Controller) : Controller := { c with runtimeStarting := false }

/-- A call goes on, which is not waiting any more. -/
def resume (c : Controller) (t : ControllerTask) (o : TaskOutcome) : Controller :=
  match t, o with
  | .load seq, .answered s => if seq ≠ c.loadSeq then c else c.apply s
  | .apply, .ok => c.syncServices
  | .heartbeat hb (cmd :: commands) needReload, _ =>
    (c.handleCommand cmd).push (.heartbeat hb commands (needReload || needsReload cmd))
  | .heartbeat hb [] needReload, _ => c.onHeartbeat hb needReload
  | .start rt .runtime, .ok =>
    if c.runtime = some rt then c.push (.start rt (if c.recordsNow then .queue else .returned)) else c.started
  | .start rt .queue, .ok =>
    -- monitoring stopped meanwhile
    if c.runtime.isNone then c.push (.start rt .returned)
    else { c with recording := some c.recordings, recordings := c.recordings + 1 }.push (.start rt .recording)
  | .start rt .recording, .ok => c.push (.start rt .returned)
  | .start .., _ => c.started
  | .stop (.recording rt) flush after, _ => c.stopRest rt flush after
  | .stop .runtime flush after, .ok => c.stopFlush flush after
  | .stop .flush flush after, .ok => c.push (.stop .returned flush after)
  | .stop .returned _ .load, .ok => c.load
  | .stop .returned _ (.leave s), .ok => c.applyState s
  | _, _ => c

/-- What happens to the page.  `proceed`: what the `i`-th waiting call waits for settles. -/
inductive Action
  | applyState (s : CandidateSessionState)
  | load
  | leave (flush : Bool) (s : CandidateSessionState)
  | hold
  | heartbeat (hb : HeartbeatAnswer)
  | setAwaitingContinue (a : Option SessionStatus)
  | fatal
  | outboxOpens
  | recordingLimit
  | proceed (i : Nat) (o : TaskOutcome)

def step (a : Action) (c : Controller) : Controller :=
  match a with
  | .applyState s => c.applyState s
  | .load => c.load
  | .leave flush s => c.stopMonitoring flush (.leave s)
  | .hold => c.stopMonitoring true .load
  | .heartbeat hb => c.push (.heartbeat hb hb.commands false)
  | .setAwaitingContinue a => c.setAwaitingContinue a
  | .fatal => c.setFatal
  | .outboxOpens => { c with outbox := true }
  | .recordingLimit => if c.recordingLimitReached then c
      else { c with recordingLimitReached := true, recording := none }
  | .proceed i o =>
    match c.tasks[i]? with
    | some t => { c with tasks := c.tasks.eraseIdx i }.resume t o
    | none => c

/-- What a call may be told: a load, a state or that it failed.  The stop of a recording does not
fail. -/
def settles (c : Controller) (t : ControllerTask) (o : TaskOutcome) : Bool :=
  match t, o with
  | .load _, .ok => false
  | .load _, _ => true
  | _, .answered _ => false
  | .apply, .ok => c.outbox
  | .heartbeat .., .fails => false
  | .start _ .returned, .fails => false
  | .stop (.recording _) _ _, .fails => false
  | .stop .returned _ .load, .fails => false
  | _, _ => true

def enabled (a : Action) (c : Controller) : Prop :=
  match a with
  | .proceed i o => ∃ t ∈ c.tasks[i]?, c.settles t o = true
  | .outboxOpens => c.state.isSome = true
  | _ => True

instance decidableEnabled (a : Action) (c : Controller) : Decidable (enabled a c) := by
  cases a <;> unfold enabled <;> infer_instance

/-- The page, from its beginning on. -/
def machine : Machine Controller Action where
  init c := c = ⟨none, false, none, false, 0, none, [], false, none, 0, false, []⟩
  step := step
  enabled := enabled

instance machine.decidableEnabled (a : Action) (c : Controller) : Decidable (machine.enabled a c) :=
  inferInstanceAs (Decidable (enabled a c))

end Controller

end SmartProctoring
