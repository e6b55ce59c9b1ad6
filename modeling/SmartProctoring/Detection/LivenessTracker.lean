import SmartProctoring.Detection.Debounce
import SmartProctoring.Server.Liveness

/-!
# The client's liveness tracker

`liveness/tracker.ts`: it tells the candidate what to do for the steps of a liveness challenge, and
the host when the pose is right to capture a frame.  The host says what it captured and what the
server answered.

Angles and times are exact; `none` stands for the `-Infinity` of an offset or a time that is not
there yet, and for a number that is not finite.  What an update returns is the state's `last`.
-/

set_option autoImplicit false

namespace SmartProctoring

namespace LivenessTracker

def LIVENESS_INSTRUCTIONS : StepAction → String
  | .center => "Look straight at the screen"
  | .move .turnLeft => "Slowly turn your head a little to your LEFT"
  | .move .turnRight => "Slowly turn your head a little to your RIGHT"
  | .move .lookUp => "Tilt your head UP slightly"
  | .move .lookDown => "Tilt your head DOWN slightly"

def QUALITY_GUIDANCE : QualityIssue → String
  | .noFace => "We can’t see your face. Sit in front of the camera and make sure nothing is covering it."
  | .multipleFaces => "More than one face is visible. Make sure only you are in view of the camera."
  | .faceTooSmall => "Move closer to the camera so your face fills more of the picture."
  | .faceCutOff => "Center your face in the picture — part of it is outside the camera view."
  | .tooDark =>
    "Your face is too dark. Turn on a light or face a window, and avoid bright light behind you."
  | .tooBright => "The image is too bright. Move away from direct sunlight or turn down a bright light."
  | .lowContrast =>
    "Your face lacks contrast. Add light in front of you (a lamp or window facing you), avoid bright light " ++
      "behind you, and make sure your face is evenly lit."
  | .blurry => "The image is blurry. Hold still, clean the camera lens, and check the camera focus."
  | .faceTurned => "Look straight at the screen."
  | .lowDetectionConfidence =>
    "We can’t see your face clearly. Remove anything covering your face and improve the lighting."
  | .lowDetail =>
    "The picture is too low in detail. Move closer to the camera, improve the lighting, and use your " ++
      "best-quality camera."

/-! ## Options -/

structure TrackerStep where
  index : Option ℚ
  action : StepAction
  instruction : String

structure TrackerOptions where
  steps : List TrackerStep
  targetYawDeg : ℚ
  targetPitchDeg : ℚ
  holdMs : Option ℚ
  framesPerStep : Option ℚ
  awaitVerdict : Bool
  maxFramesPerStep : Option ℚ
  captureFraction : Option ℚ

/-- The options as the tracker uses them. -/
structure TrackerConfig where
  steps : List TrackerStep
  holdMs : ℚ
  framesPerStep : Nat
  awaitVerdict : Bool
  maxFrames : Nat
  baseYaw : ℚ
  basePitch : ℚ
  captureFraction : ℚ
  minCaptureGap : ℚ
  framesPerStep_pos : 0 < framesPerStep
  framesPerStep_le : framesPerStep ≤ maxFrames

def TrackerOptions.config (o : TrackerOptions) : TrackerConfig where
  steps := o.steps
  holdMs := max 0 (o.holdMs.getD 400)
  framesPerStep := max 1 ⌊o.framesPerStep.getD 2⌋.toNat
  awaitVerdict := o.awaitVerdict
  maxFrames := max (max 1 ⌊o.framesPerStep.getD 2⌋.toNat) ⌊o.maxFramesPerStep.getD 3⌋.toNat
  baseYaw := max 1 o.targetYawDeg
  basePitch := max 1 o.targetPitchDeg
  captureFraction := min 1 (max (3 / 10) (o.captureFraction.getD 1))
  minCaptureGap := max 150 (max 0 (o.holdMs.getD 400) / 2)
  framesPerStep_pos := Nat.one_pos.trans_le (le_max_left ..)
  framesPerStep_le := le_max_left ..

def CENTRE_STEADY_DEG : ℚ := 5

def CENTRE_MAX_YAW : ℚ := 30

def CENTRE_MAX_PITCH : ℚ := 35

def CENTER_TOL_KNOWN : ℚ := 12

def PLATEAU_MS : ℚ := 300

def PLATEAU_DEG : ℚ := 4

def PEAK_WINDOW_MS : ℚ := 1000

def PEAK_TOL_DEG : ℚ := 3

def RETRY_EXTRA_DEG : ℚ := 6

def MAX_CLIENT_TARGET_DEG : ℚ := 35

/-! ## Progress -/

inductive Stage where
  | centre | move | hold | verify | retry
  deriving DecidableEq

structure LivenessProgress where
  stepIndex : ℚ
  action : StepAction
  message : String
  progress : ℚ
  readyToCapture : Bool
  done : Bool
  problem : Option String
  stage : Stage
  holdProgress : ℚ
  captured : Nat

structure Pose where
  yaw : ℚ
  pitch : ℚ

/-- What is read of a `FaceObservation`. -/
structure TrackedFace where
  yaw : Option ℚ
  pitch : Option ℚ
  visibility : Option ℚ
  cutOff : Bool

/-- What is wrong with what the camera sees, or the pose of the one face. -/
def problemFor (face : Option TrackedFace) (faceCount : Int) : Except String Pose :=
  match face with
  | none => .error (QUALITY_GUIDANCE .noFace)
  | some face =>
    if faceCount ≤ 0 then .error (QUALITY_GUIDANCE .noFace)
    else if 1 < faceCount then .error (QUALITY_GUIDANCE .multipleFaces)
    else if face.cutOff then .error (QUALITY_GUIDANCE .faceCutOff)
    else if face.visibility.any (· < 1 / 2) then .error (QUALITY_GUIDANCE .lowDetectionConfidence)
    else
      match face.yaw, face.pitch with
      | some yaw, some pitch => .ok ⟨yaw, pitch⟩
      | _, _ => .error (QUALITY_GUIDANCE .lowDetectionConfidence)

def instruction (s : TrackerStep) : String :=
  if s.instruction = "" then LIVENESS_INSTRUCTIONS s.action else s.instruction

namespace TrackerConfig

variable (cfg : TrackerConfig)

def stepAt (i : Nat) : Option TrackerStep := cfg.steps[i]?

def stepNo (i : Nat) : ℚ := ((cfg.stepAt i).bind (·.index)).getD i

def doneProgress : LivenessProgress :=
  ⟨cfg.stepNo (cfg.steps.length - 1), .center, "Done", 1, false, true, none, .verify, 1, 0⟩

/-- The progress at the start of step `i`. -/
def startProgress (i : Nat) : LivenessProgress :=
  match cfg.stepAt i with
  | some s => ⟨cfg.stepNo i, s.action, instruction s, 0, false, false, none, .move, 0, 0⟩
  | none => cfg.doneProgress

def horizontal : LivenessAction → Bool
  | .turnLeft => true
  | .turnRight => true
  | .lookUp => false
  | .lookDown => false

/-- The full target of a movement. -/
def baseTarget (a : LivenessAction) : ℚ := if horizontal a then cfg.baseYaw else cfg.basePitch

/-- Where a movement is captured the first time. -/
def captureTarget (a : LivenessAction) : ℚ := cfg.baseTarget a * cfg.captureFraction

end TrackerConfig

structure Tracker where
  idx : Nat
  centre : Option Pose
  centreSamples : List Pose
  buf : List (ℚ × Pose)
  offs : List (ℚ × ℚ)
  holdStart : Option ℚ
  captured : Nat
  capturedTotal : Nat
  lastCaptureAt : Option ℚ
  lastPose : Option Pose
  capturedOff : Option ℚ
  waiting : Bool
  retrying : Bool
  stepTarget : Option ℚ
  capturedCandidateOff : Option ℚ
  last : LivenessProgress
  /-- When the updates came and whether one valid face was seen; no function reads it. -/
  seen : List (ℚ × Bool)
  /-- The offset of this step's last update that was ready to capture; no function reads it. -/
  ready : Option ℚ
  /-- What `ready` was at each capture of this step; no function reads it. -/
  offsets : List (Option ℚ)
  /-- How each step before this one ended: accepted, and with how many captures; no function reads
  it. -/
  finished : List (Bool × Nat)

/-- The largest of two offsets, either of which may be `-Infinity`. -/
def maxOff : Option ℚ → Option ℚ → Option ℚ
  | none, b => b
  | some a, none => some a
  | some a, some b => some (max a b)

def spread (values : List ℚ) : ℚ := (values.max?.getD 0) - (values.min?.getD 0)

def mean (poses : List Pose) : Pose :=
  ⟨(poses.map (·.yaw)).sum / poses.length, (poses.map (·.pitch)).sum / poses.length⟩

namespace Tracker

variable (cfg : TrackerConfig) (s : Tracker)

def new : Tracker where
  idx := 0
  centre := none
  centreSamples := []
  buf := []
  offs := []
  holdStart := none
  captured := 0
  capturedTotal := 0
  lastCaptureAt := none
  lastPose := none
  capturedOff := none
  waiting := false
  retrying := false
  stepTarget := none
  capturedCandidateOff := none
  last := cfg.startProgress 0
  seen := []
  ready := none
  offsets := []
  finished := []

/-! ## Updates -/

structure Steadiness where
  buf : List (ℚ × Pose)
  steadyNow : Bool
  steady : Bool
  spanMs : ℚ
  mean : Pose

/-- Recent poses; a larger movement restarts them. -/
def steadiness (t : ℚ) (pose : Pose) : Steadiness :=
  let buf := (s.buf ++ [(t, pose)]).dropWhile fun b => b.1 < t - cfg.holdMs
  let steadyNow := decide (spread (buf.map (·.2.yaw)) ≤ CENTRE_STEADY_DEG) &&
    decide (spread (buf.map (·.2.pitch)) ≤ CENTRE_STEADY_DEG)
  let buf := if steadyNow then buf else buf.drop (buf.length - 1)
  let spanMs := (buf.head?.map fun b => t - b.1).getD 0
  { buf := buf
    steadyNow := steadyNow
    steady := steadyNow && decide (cfg.holdMs * (9 / 10) ≤ spanMs) && decide (2 ≤ buf.length)
    spanMs := spanMs
    mean := LivenessTracker.mean (buf.map (·.2)) }

def isPlausible (pose : Pose) : Bool :=
  decide (|pose.yaw| ≤ CENTRE_MAX_YAW) && decide (|pose.pitch| ≤ CENTRE_MAX_PITCH)

/-- The pose is right, or not: the hold goes on or begins at `since`, or is over. -/
def hold (ok : Bool) (t progress : ℚ) (step : TrackerStep) (hint : String) (stage : Stage)
    (since : ℚ) : Tracker :=
  let start := if ok then some (s.holdStart.getD since) else none
  let ready := (start.any fun h => cfg.holdMs ≤ t - h) && s.lastCaptureAt.all fun l =>
    cfg.minCaptureGap ≤ t - l
  let message :=
    if ok then if ready || decide (0 < s.captured) then "Hold still…" else "Hold it there…"
    else if hint = "" then instruction step else hint
  { s with
    holdStart := start
    last :=
      { stepIndex := cfg.stepNo s.idx, action := step.action, message := message, progress := progress,
        readyToCapture := ready, done := false, problem := none, stage := if ok then .hold else stage,
        holdProgress := (start.map fun h => clamp01 ((t - h) / max 1 cfg.holdMs)).getD 0,
        captured := s.capturedTotal } }

/-- A step that asks for the centre. -/
def trackCentre (step : TrackerStep) (pose : Pose) (t : ℚ) : Tracker :=
  match s.centre with
  | some c =>
    let dev := max |pose.yaw - c.yaw| |pose.pitch - c.pitch|
    let ok := decide (dev ≤ CENTER_TOL_KNOWN)
    let progress := if ok then 1 else clamp01 (1 - (dev - CENTER_TOL_KNOWN) / (2 * CENTER_TOL_KNOWN))
    s.hold cfg ok t progress step (if ok then "" else instruction step) .centre t
  | none =>
    let st := s.steadiness cfg t pose
    let ok := isPlausible pose && st.steadyNow
    let s := { s with buf := st.buf }
    s.hold cfg ok t (if ok then 1 else 0) step (instruction step ++ " and hold still") .centre t

/-- The centre before the first movement: a steady pose. -/
def findCentre (pose : Pose) (t : ℚ) : Tracker :=
  match s.centre with
  | some _ => s
  | none =>
    let st := s.steadiness cfg t pose
    if isPlausible pose && st.steady then { s with centre := some st.mean, buf := [], holdStart := none }
    else
      let progress := if isPlausible pose then clamp01 (st.spanMs / max 1 cfg.holdMs) * (99 / 100) else 0
      { s with
        buf := st.buf
        last :=
          ⟨cfg.stepNo s.idx, .center, LIVENESS_INSTRUCTIONS .center ++ " and hold still", progress,
            false, false, none,
            .centre, progress, s.capturedTotal⟩ }

/-- Offset from the centre in the direction asked for. -/
def offsetOf (a : LivenessAction) (c pose : Pose) : ℚ :=
  match a with
  | .turnLeft => pose.yaw - c.yaw
  | .turnRight => c.yaw - pose.yaw
  | .lookUp => pose.pitch - c.pitch
  | .lookDown => c.pitch - pose.pitch

def targetFor (a : LivenessAction) : ℚ := s.stepTarget.getD (cfg.captureTarget a)

/-- The head moves: the pose is right at the peak of a movement that is large enough. -/
def trackMove (step : TrackerStep) (a : LivenessAction) (c pose : Pose) (t : ℚ) : Tracker :=
  let isH := TrackerConfig.horizontal a
  let off := offsetOf a c pose
  let target := s.targetFor cfg a
  let progress := clamp01 (off / target)
  let crossOk :=
    if isH then decide (|pose.pitch - c.pitch| ≤ max 15 (3 / 2 * cfg.basePitch))
    else decide (|pose.yaw - c.yaw| ≤ max 15 (3 / 4 * cfg.baseYaw))
  let offs := (s.offs ++ [(t, off)]).dropWhile fun o => o.1 < t - PEAK_WINDOW_MS
  let recent := offs.filter fun o => t - PLATEAU_MS ≤ o.1
  let span := (recent.head?.map fun o => t - o.1).getD 0
  let peak := ((offs.map (·.2)).max?).getD off
  let stopped := !recent.isEmpty && decide (spread (recent.map (·.2)) ≤ PLATEAU_DEG) &&
    (decide (PLATEAU_MS * (6 / 10) ≤ span) || s.holdStart.isSome)
  let atPeak := decide (peak - PEAK_TOL_DEG ≤ off)
  let reached := decide (target ≤ off) && crossOk
  let ok := reached && stopped && atPeak
  let hint :=
    if !crossOk then if isH then "Keep your head level while turning"
      else "Face the screen first, then tilt your head"
    else if reached && !ok then "Hold it there…"
    else if !reached && s.retrying then instruction step ++ " — a little further than before, and hold"
    else if !reached && decide (6 / 10 ≤ progress) then instruction step ++ " — a little further"
    else if !reached && decide (off < -(cfg.baseTarget a) * (1 / 2)) then instruction step ++
      " — the other way"
    else ""
  let stage := if reached then .hold else if s.retrying then .retry else .move
  -- the hold counts from when the head stopped
  let since := (recent.head?.map (·.1)).getD t
  let s := { s with offs := offs }.hold cfg ok t progress step hint stage since
  if s.last.readyToCapture then { s with capturedCandidateOff := some off, ready := some off }
    else s

/-- One valid face is seen. -/
def track (step : TrackerStep) (pose : Pose) (t : ℚ) : Tracker :=
  let s := { s with lastPose := some pose }
  match step.action with
  | .center => s.trackCentre cfg step pose t
  | .move a =>
    let s := s.findCentre cfg pose t
    match s.centre with
    | some c => s.trackMove cfg step a c pose t
    | none => s

def update (face : Option TrackedFace) (faceCount : Int) (t : ℚ) : Tracker :=
  let seen := s.seen ++ [(t, (problemFor face faceCount).isOk)]
  let s := { s with seen := seen }
  match cfg.stepAt s.idx with
  | none => { s with last := cfg.doneProgress }
  | some step =>
    -- frames are on their way to the server
    if s.waiting then
      { s with
        last :=
          ⟨cfg.stepNo s.idx, step.action, "Good — now look back at the screen", 1, false, false, none, .verify, 1,
            s.capturedTotal⟩ }
    else
      match problemFor face faceCount with
      | .error problem =>
        { s with
          holdStart := none, buf := [], offs := []
          last :=
            ⟨cfg.stepNo s.idx, s.last.action, problem, 0, false, false, some problem, s.last.stage, 0,
              s.capturedTotal⟩ }
      | .ok pose => s.track cfg step pose t

/-! ## Captures and answers -/

/-- The next step begins. -/
def advance (accepted : Bool) : Tracker :=
  { s with
    idx := s.idx + 1
    captured := 0
    capturedTotal := 0
    capturedOff := none
    holdStart := none
    offs := []
    waiting := false
    retrying := false
    stepTarget := none
    last := cfg.startProgress (s.idx + 1)
    ready := none
    offsets := []
    finished := s.finished ++ [(accepted, s.capturedTotal)] }

/-- Frames of a round; a re-prompt captures another one within the step's budget. -/
def roundSize : Nat :=
  if s.retrying then max 1 (min cfg.framesPerStep (cfg.maxFrames - (s.capturedTotal - s.captured)))
  else cfg.framesPerStep

/-- The round has all its frames. -/
def endRound (action : StepAction) : Tracker :=
  let centre :=
    if action = StepAction.center ∧ s.centreSamples ≠ [] ∧
      s.centre.isNone then some (mean s.centreSamples) else s.centre
  let s := { s with centre := centre, centreSamples := [] }
  if cfg.awaitVerdict then
    { s with
      waiting := true
      holdStart := none
      last :=
        { s.last with
          readyToCapture := false, stage := .verify, message := "Good — now look back at the screen"
          captured := s.capturedTotal } }
  else s.advance cfg false

def markCaptured (t : ℚ) : Tracker :=
  match cfg.stepAt s.idx with
  | none => s
  | some step =>
    if s.waiting then s
    else
      let s :=
        { s with
          captured := s.captured + 1
          capturedTotal := s.capturedTotal + 1
          lastCaptureAt := some t
          capturedOff := maxOff s.capturedOff s.capturedCandidateOff
          centreSamples :=
            if step.action = StepAction.center then s.centreSamples ++ s.lastPose.toList else s.centreSamples
          offsets := s.offsets ++ [s.ready] }
      if s.roundSize cfg ≤ s.captured then s.endRound cfg step.action
      else { s with last := { s.last with readyToCapture := false, captured := s.capturedTotal } }

/-- A larger target for a movement that the server did not accept. -/
def retryTarget (a : LivenessAction) : ℚ :=
  min MAX_CLIENT_TARGET_DEG
    (max (cfg.captureTarget a) (s.capturedOff.getD (cfg.captureTarget a) + RETRY_EXTRA_DEG))

/-- The step is asked for again. -/
def reprompt (step : TrackerStep) : Tracker :=
  { s with
    waiting := false
    retrying := true
    captured := 0
    holdStart := none
    offs := []
    stepTarget :=
      match step.action with
      | StepAction.center => s.stepTarget
      | StepAction.move a => some (s.retryTarget cfg a)
    last :=
      { stepIndex := cfg.stepNo s.idx
        action := step.action
        message :=
          if step.action = StepAction.center then instruction step ++ " and hold still"
          else instruction step ++ " — a little further than before, and hold"
        progress := 0, readyToCapture := false, done := false, problem := none, stage := .retry, holdProgress := 0
        captured := s.capturedTotal } }

def verdict (stepIndex : ℚ) (satisfied : Bool) : Tracker :=
  match cfg.stepAt s.idx with
  | none => s
  | some step =>
    if cfg.stepNo s.idx ≠ stepIndex ∨ s.waiting = false then s
    else if satisfied || decide (cfg.maxFrames ≤ s.capturedTotal) then s.advance cfg satisfied
    else s.reprompt cfg step

def setCentre (pose : Option Pose) : Tracker := { s with centre := pose }

/-- Everything but the offset of the frame that was about to be captured. -/
def reset : Tracker := { new cfg with capturedCandidateOff := s.capturedCandidateOff }

end Tracker

/-- What the host calls. -/
inductive TrackerCall where
  | update (face : Option TrackedFace) (faceCount : Int) (t : ℚ)
  | markCaptured (t : ℚ)
  | verdict (stepIndex : ℚ) (satisfied : Bool)
  | setCentre (pose : Option Pose)
  | reset

namespace Tracker

variable (cfg : TrackerConfig)

def call (s : Tracker) : TrackerCall → Tracker
  | .update face faceCount t => s.update cfg face faceCount t
  | .markCaptured t => s.markCaptured cfg t
  | .verdict stepIndex satisfied => s.verdict cfg stepIndex satisfied
  | .setCentre pose => s.setCentre pose
  | .reset => s.reset cfg

def run (cs : List TrackerCall) : Tracker := cs.foldl (fun s c => s.call cfg c) (new cfg)

end Tracker

end LivenessTracker

end SmartProctoring
