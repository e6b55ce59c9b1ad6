import SmartProctoring.Lib.Run
import SmartProctoring.Shared.Policy
import SmartProctoring.Web.SegmentedRecorder

/-!
# The exam recording

`ExamRecording` of `monitoring/recording.ts`: the runs of one page, which share its counters of
sequence numbers.  What runs between two awaits is one step, and a step says what the browser does
in it: whether a `MediaRecorder` can be made and started, and whether the tracks of a recorder that
fails have ended.  The managers of the camera and of the screen are their present snapshots; a run
may be told of one at any time.

Left out: the events that are reported (an interruption, the span of a stopped share) and what the
candidate is told.
-/

set_option autoImplicit false

namespace SmartProctoring

/-- `isLive`: the state of the camera is `live`. -/
structure CameraSnapshot where
  isLive : Bool
  hasStream : Bool
  generation : Int

structure ScreenSnapshot where
  isLive : Bool
  hasStream : Bool
  generation : Int

def MAX_RETRIES : Nat := 3

/-- A segment at least this long shows the stream records properly (resets its failure count). -/
def HEALTHY_SEGMENT_MS : Nat := 5000

/-- What the browser does while a recorder is started or fails. -/
structure RecorderOutcome where
  begins : Bool
  ended : Bool

/-- A link of `cameraChain`: `startCamera`, or the stop of a recorder whose camera went away. -/
inductive ChainJob
  | start
  | away (rec : Nat)

/-- What the link that is run waits for: a recorder to stop, or the track to record. -/
inductive ChainPhase
  | stopping (old : Nat)
  | video
  | leaving (rec : Nat)
  deriving DecidableEq

def ChainPhase.awaits : ChainPhase → Option Nat
  | .stopping old => some old
  | .video => none
  | .leaving rec => some rec

structure ExamRecording where
  plan : RecordingPlan
  /-- `cameraRec` and `screenRec`. -/
  recs : RecordingStream → Option Nat
  mic : Bool
  cameraGen : Int
  screenGen : Int
  failures : RecordingStream → Nat
  gaveUp : RecordingStream → Bool
  retryTimers : List RecordingStream
  subscribed : RecordingStream → Bool
  stopped : Bool
  started : Bool
  /-- `start` waits for the microphone. -/
  opening : Bool
  cameraChain : List ChainJob
  phase : Option ChainPhase
  /-- The recorders that calls of `startScreen` wait for. -/
  sharing : List Nat
  /-- `stop` waits for `cameraChain`. -/
  stopping : Bool

namespace ExamRecording

def new (plan : RecordingPlan) : ExamRecording where
  plan := plan
  recs := fun _ => none
  mic := false
  cameraGen := -1
  screenGen := -1
  failures := fun _ => 0
  gaveUp := fun _ => false
  retryTimers := []
  subscribed := fun _ => false
  stopped := false
  started := false
  opening := false
  cameraChain := []
  phase := none
  sharing := []
  stopping := false

def setRec (e : ExamRecording) (stream : RecordingStream) (r : Option Nat) : ExamRecording :=
  { e with recs := Function.update e.recs stream r }

def restartCamera (e : ExamRecording) : ExamRecording :=
  { e with cameraChain := e.cameraChain ++ [.start] }

def onCamera (e : ExamRecording) (s : CameraSnapshot) : ExamRecording :=
  if e.stopped || e.gaveUp .camera then e
  else if s.isLive && s.hasStream && decide (s.generation ≠ e.cameraGen) then
    { e with cameraGen := s.generation }.restartCamera
  else
    match e.recs .camera with
    | some r =>
      if !s.isLive || !s.hasStream then
        { e.setRec .camera none with cameraChain := e.cameraChain ++ [.away r], cameraGen := -1 }
      else e
    | none => e

/-- A screen that is not recorded yet. -/
def sees (e : ExamRecording) (s : ScreenSnapshot) : Bool :=
  s.isLive && s.hasStream && decide (s.generation ≠ e.screenGen)

end ExamRecording

structure RecordingPage where
  /-- The browser has `MediaRecorder`. -/
  supported : Bool
  camera : CameraSnapshot
  screen : ScreenSnapshot
  runs : List ExamRecording
  media : Recorders

namespace RecordingPage

open ExamRecording

def set (p : RecordingPage) (n : Nat) (e : ExamRecording) : RecordingPage :=
  { p with runs := p.runs.set n e }

def construct (p : RecordingPage) (plan : RecordingPlan) : RecordingPage :=
  { p with runs := p.runs ++ [.new plan] }

/-! ## Recorders -/

def onRecorderError (p : RecordingPage) (n : Nat) (stream : RecordingStream) (ended : Bool) :
    RecordingPage :=
  match p.runs[n]? with
  | some e =>
    if e.stopped then p
    else
      -- Sequence numbers handed out by the failed recorder are used up.
      let media :=
        match e.recs stream with
        | some r => p.media.advance stream (p.media.nextSequence r)
        | none => p.media
      if ended then { p.set n (e.setRec stream none) with media }
      else
        let failures := e.failures stream + 1
        let e := { e with failures := Function.update e.failures stream failures }
        if MAX_RETRIES < failures then
          { p.set n { e with gaveUp := Function.update e.gaveUp stream true } with media }
        else { p.set n { e with retryTimers := e.retryTimers ++ [stream] } with media }
  | none => p

/-- `recorder`, and its `start`: the last lines of `startCamera` and of `startScreen`. -/
def record (p : RecordingPage) (n : Nat) (e : ExamRecording) (stream : RecordingStream)
    (o : RecorderOutcome) : RecordingPage :=
  let r := p.media.recorders.length
  let p := { p.set n (e.setRec stream (some r)) with
    media := (p.media.construct stream n).start r o.begins }
  if o.begins then p else p.onRecorderError n stream o.ended

/-! ## The screen -/

/-- `startScreen`, once the old recorder has stopped. -/
def screenFree (p : RecordingPage) (n : Nat) (e : ExamRecording) (o : RecorderOutcome) :
    RecordingPage :=
  if e.stopped || e.gaveUp .screen then p.set n e else p.record n e .screen o

def startScreen (p : RecordingPage) (n : Nat) (e : ExamRecording) (o : RecorderOutcome) :
    RecordingPage :=
  match e.recs .screen with
  | some old =>
    { p.set n { e.setRec .screen none with sharing := e.sharing ++ [old] } with media := p.media.stop old }
  | none => p.screenFree n e o

def onScreen (p : RecordingPage) (n : Nat) (e : ExamRecording) (o : RecorderOutcome) :
    RecordingPage :=
  if e.stopped then p.set n e
  else if e.sees p.screen then p.startScreen n { e with screenGen := p.screen.generation } o
  else if !p.screen.isLive && decide (e.screenGen ≠ -1) then
    -- Not waited for.
    let media :=
      match e.recs .screen with
      | some r => p.media.stop r
      | none => p.media
    { p.set n { e.setRec .screen none with screenGen := -1 } with media }
  else p.set n e

/-! ## The camera -/

/-- `startCamera`, once the old recorder has stopped. -/
def cameraFree (p : RecordingPage) (n : Nat) (e : ExamRecording) : RecordingPage :=
  if !(p.camera.isLive && p.camera.hasStream) || e.stopped then p.set n { e with phase := none }
  else p.set n { e with phase := some .video }

def startCamera (p : RecordingPage) (n : Nat) (e : ExamRecording) : RecordingPage :=
  if e.stopped then p.set n e
  else
    match e.recs .camera with
    | some old =>
      { p.set n { e.setRec .camera none with phase := some (.stopping old) } with media := p.media.stop old }
    | none => p.cameraFree n e

/-- The next link of the chain is run. -/
def chainNext (p : RecordingPage) (n : Nat) (e : ExamRecording) : RecordingPage :=
  match e.phase, e.cameraChain with
  | none, .start :: jobs => p.startCamera n { e with cameraChain := jobs }
  | none, .away r :: jobs =>
    { p.set n { e with cameraChain := jobs, phase := some (.leaving r) } with media := p.media.stop r }
  | _, _ => p

/-- The recorder that a link waits for has stopped. -/
def chainResumes (p : RecordingPage) (n : Nat) (e : ExamRecording) : RecordingPage :=
  match e.phase with
  | some (.stopping _) => p.cameraFree n e
  | some (.leaving _) => p.set n { e with phase := none }
  | _ => p

/-- `recordingVideoTrack` has given the track to record. -/
def videoReady (p : RecordingPage) (n : Nat) (e : ExamRecording) (o : RecorderOutcome) :
    RecordingPage :=
  if e.phase ≠ some .video then p
  else if e.stopped then p.set n { e with phase := none }
  else p.record n { e with phase := none } .camera o

/-! ## Start and stop -/

/-- `start`, once the microphone is open or refused. -/
def begun (p : RecordingPage) (n : Nat) (e : ExamRecording) (o : RecorderOutcome) : RecordingPage :=
  if e.stopped then p.set n e
  else
    let e :=
      if e.plan.camera then { e with subscribed := Function.update e.subscribed .camera true }.onCamera p.camera
      else e
    if e.plan.screen then p.onScreen n { e with subscribed := Function.update e.subscribed .screen true } o
    else p.set n e

def start (p : RecordingPage) (n : Nat) (e : ExamRecording) (o : RecorderOutcome) : RecordingPage :=
  if e.started || e.stopped then p
  else
    let e := { e with started := true }
    if !p.supported then p.set n e
    else if e.plan.audio then p.set n { e with opening := true }
    else p.begun n e o

def micOpened (p : RecordingPage) (n : Nat) (e : ExamRecording) : RecordingPage :=
  if e.opening && !e.stopped then p.set n { e with mic := true } else p

def micSettled (p : RecordingPage) (n : Nat) (e : ExamRecording) (o : RecorderOutcome) :
    RecordingPage :=
  if e.opening then p.begun n { e with opening := false } o else p

def micEnded (p : RecordingPage) (n : Nat) (e : ExamRecording) : RecordingPage :=
  if e.stopped || !e.mic then p else p.set n { e with mic := false }.restartCamera

def retry (p : RecordingPage) (n : Nat) (e : ExamRecording) (stream : RecordingStream)
    (o : RecorderOutcome) : RecordingPage :=
  if stream ∉ e.retryTimers then p
  else
    let e := { e with retryTimers := e.retryTimers.erase stream }
    if e.stopped then p.set n e
    else
      match stream with
      | .camera => p.set n e.restartCamera
      | .screen => if p.screen.isLive && p.screen.hasStream then p.startScreen n e o else p.set n e

def stop (p : RecordingPage) (n : Nat) (e : ExamRecording) : RecordingPage :=
  if e.stopped then p
  else p.set n { e with stopped := true, retryTimers := [], subscribed := fun _ => false, stopping := true }

/-- `stop`, once the camera chain has come to its end. -/
def stopResumes (p : RecordingPage) (n : Nat) (e : ExamRecording) : RecordingPage :=
  if e.stopping && decide (e.cameraChain = []) && decide (e.phase = none) then
    let stopRec (m : Recorders) (r : Option Nat) : Recorders :=
      match r with
      | some r => m.stop r
      | none => m
    { p.set n { e with recs := fun _ => none, mic := false, stopping := false } with
      media := stopRec (stopRec p.media (e.recs .camera)) (e.recs .screen) }
  else p

/-! ## Rotations, and what the browser reports -/

def rotate (p : RecordingPage) (r : Nat) (o : RecorderOutcome) : RecordingPage :=
  match p.media.recorders[r]? with
  | some rec =>
    let q := { p with media := p.media.rotate r o.begins }
    if rec.running && rec.current.isSome && !o.begins then q.onRecorderError rec.run rec.stream o.ended else q
  | none => p

/-- A recorder fails: it reports an error, or it stopped by itself. -/
def fail (p : RecordingPage) (k : Nat) (o : RecorderOutcome) : RecordingPage :=
  match p.media.segments[k]? with
  | some s =>
    match p.media.recorders[s.recorder]? with
    | some rec =>
      if p.media.interrupts k then
        { p with media := p.media.fail k }.onRecorderError rec.run rec.stream o.ended
      else p
    | none => p
  | none => p

/-- A segment that was long enough: earlier failures of the stream no longer count. -/
def healthy (p : RecordingPage) (k : Nat) (durationMs : Nat) : RecordingPage :=
  match p.media.segments[k]? with
  | some s =>
    match p.media.recorders[s.recorder]? with
    | some rec =>
      match p.runs[rec.run]? with
      | some e =>
        if s.chunks ≠ [] ∧ HEALTHY_SEGMENT_MS ≤ durationMs then
          p.set rec.run { e with failures := Function.update e.failures rec.stream 0 }
        else p
      | none => p
    | none => p
  | none => p

/-- A recorder's stop event. -/
def onstop (p : RecordingPage) (k : Nat) (durationMs : Nat) (o : RecorderOutcome) : RecordingPage :=
  let byItself := p.media.stopsByItself k
  let p := p.healthy k durationMs
  let p := { p with media := p.media.onstop k durationMs }
  if byItself then p.fail k o else p

end RecordingPage

/-! ## The page -/

/-- What happens on the page; `n` is a run, `r` a recorder and `k` a segment. -/
inductive RecordingAction
  | camera (s : CameraSnapshot)
  | screen (s : ScreenSnapshot)
  | construct (plan : RecordingPlan)
  | start (n : Nat) (o : RecorderOutcome)
  | micOpened (n : Nat)
  | micSettled (n : Nat) (o : RecorderOutcome)
  | micEnded (n : Nat)
  | onCamera (n : Nat)
  | onScreen (n : Nat) (o : RecorderOutcome)
  | chainNext (n : Nat)
  | chainResumes (n : Nat)
  | videoReady (n : Nat) (o : RecorderOutcome)
  /-- The recorder that the `i`-th waiting call of `startScreen` waits for has stopped. -/
  | screenResumes (n i : Nat) (o : RecorderOutcome)
  | retry (n : Nat) (stream : RecordingStream) (o : RecorderOutcome)
  | stop (n : Nat)
  | stopResumes (n : Nat)
  | rotate (r : Nat) (o : RecorderOutcome)
  | data (k size : Nat)
  | stopEvent (k durationMs : Nat) (o : RecorderOutcome)
  | errorEvent (k : Nat) (o : RecorderOutcome)
  | wait (k : Nat)

namespace RecordingPage

def withRun (p : RecordingPage) (n : Nat) (f : ExamRecording → RecordingPage) : RecordingPage :=
  match p.runs[n]? with
  | some e => f e
  | none => p

def step (a : RecordingAction) (p : RecordingPage) : RecordingPage :=
  match a with
  | .camera s => { p with camera := s }
  | .screen s => { p with screen := s }
  | .construct plan => p.construct plan
  | .start n o => p.withRun n fun e => p.start n e o
  | .micOpened n => p.withRun n (p.micOpened n)
  | .micSettled n o => p.withRun n fun e => p.micSettled n e o
  | .micEnded n => p.withRun n (p.micEnded n)
  | .onCamera n => p.withRun n fun e => p.set n (e.onCamera p.camera)
  | .onScreen n o => p.withRun n fun e => p.onScreen n e o
  | .chainNext n => p.withRun n (p.chainNext n)
  | .chainResumes n => p.withRun n (p.chainResumes n)
  | .videoReady n o => p.withRun n fun e => p.videoReady n e o
  | .screenResumes n i o =>
    p.withRun n fun e => p.screenFree n { e with sharing := e.sharing.eraseIdx i } o
  | .retry n stream o => p.withRun n fun e => p.retry n e stream o
  | .stop n => p.withRun n (p.stop n)
  | .stopResumes n => p.withRun n (p.stopResumes n)
  | .rotate r o => p.rotate r o
  | .data k size => { p with media := p.media.data k size }
  | .stopEvent k durationMs o => p.onstop k durationMs o
  | .errorEvent k o => p.fail k o
  | .wait k => { p with media := p.media.wait k }

def enabled (a : RecordingAction) (p : RecordingPage) : Prop :=
  match a with
  | .onCamera n => ∃ e ∈ p.runs[n]?, e.subscribed .camera = true
  | .onScreen n _ => ∃ e ∈ p.runs[n]?, e.subscribed .screen = true
  | .chainResumes n =>
    ∃ e ∈ p.runs[n]?, ∃ phase ∈ e.phase, ∃ r ∈ phase.awaits, p.media.settled r = true
  | .screenResumes n i _ => ∃ e ∈ p.runs[n]?, ∃ r ∈ e.sharing[i]?, p.media.settled r = true
  | .data k _ => ∃ s ∈ p.media.segments[k]?, s.done = false
  | .stopEvent k _ _ => ∃ s ∈ p.media.segments[k]?, s.done = false
  | .errorEvent k _ => ∃ s ∈ p.media.segments[k]?, s.done = false
  | .wait k => ∃ s ∈ p.media.segments[k]?, s.stopping = true
  | _ => True

instance decidableEnabled (a : RecordingAction) (p : RecordingPage) : Decidable (enabled a p) := by
  cases a <;> unfold enabled <;> infer_instance

/-- The page, from before the first monitoring run on. -/
def machine : Machine RecordingPage RecordingAction where
  init p := p.runs = [] ∧ p.media = ⟨fun _ => 0, [], [], []⟩
  step := step
  enabled := enabled

instance machine.decidableEnabled (a : RecordingAction) (p : RecordingPage) :
    Decidable (machine.enabled a p) :=
  inferInstanceAs (Decidable (enabled a p))

end RecordingPage

end SmartProctoring
