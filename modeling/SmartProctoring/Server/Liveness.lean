import Mathlib
import SmartProctoring.Lib.Except
import SmartProctoring.Server.Schema

/-!
# The liveness challenge

`vision/liveness.ts`: `verifyLiveness` decides from the analysed frames of a challenge whether a
real head turned as asked.  Angles, similarities and times are numbers of an ordered field `K` with
a floor; the one thing it does not have, the square root, is a parameter.  Texts with a number in
them show it with `shown`.
-/

set_option autoImplicit false

namespace SmartProctoring

/-! ## What is analysed -/

inductive LivenessAction
  | turnLeft | turnRight | lookUp | lookDown
  deriving DecidableEq

/-- What a step asks for: `LivenessAction | 'center'`. -/
inductive StepAction
  | center
  | move (action : LivenessAction)
  deriving DecidableEq

inductive QualityIssue
  | noFace | multipleFaces | faceTooSmall | faceCutOff | tooDark | tooBright | lowContrast | blurry
  | faceTurned | lowDetectionConfidence | lowDetail
  deriving DecidableEq

structure Pose2 (K : Type) where
  yawDeg : K
  pitchDeg : K

structure FaceQuality (K : Type) where
  faceCount : Nat
  detectionScore : K
  interEyePx : K
  brightness : K
  contrast : K
  sharpness : K
  yawDeg : K
  pitchDeg : K
  issues : List QualityIssue
  usable : Bool

structure ImageAnalysis (K : Type) where
  /-- There is a primary face. -/
  primary : Bool
  pose : Option (Pose2 K)
  quality : FaceQuality K
  embedding : Option (List K)
  dhash : String

/-- `number | 'frontal'`. -/
inductive FrameStep
  | frontal
  | step (index : Int)
  deriving DecidableEq

structure LivenessFrame (K : Type) where
  step : FrameStep
  action : StepAction
  analysis : ImageAnalysis K
  capturedAt : K
  clientYaw : Option K := none
  clientPitch : Option K := none

structure LivenessStep where
  index : Int
  action : StepAction

structure LivenessChallengeSpec (K : Type) where
  steps : List LivenessStep
  issuedAt : K
  expiresAt : K
  targetYawDeg : K
  targetPitchDeg : K

/-! ## Embeddings -/

inductive EmbeddingError
  | lengthMismatch (a b : Nat) | noEmbeddings | dimensionMismatch

def EmbeddingError.text : EmbeddingError → String
  | .lengthMismatch a b => s!"cosineSimilarity: length mismatch {a} vs {b}"
  | .noEmbeddings => "templateFrom: no embeddings"
  | .dimensionMismatch => "templateFrom: dimension mismatch"

section

variable {K : Type} [Field K] [LinearOrder K] (sqrt : K → K)

def dotProduct (a b : List K) : K := (List.zipWith (· * ·) a b).sum

def cosineSimilarity (a b : List K) : Except EmbeddingError K :=
  if a.length ≠ b.length then .error (.lengthMismatch a.length b.length)
  else
    let na := dotProduct a a
    let nb := dotProduct b b
    if na = 0 ∨ nb = 0 then .ok 0 else .ok (dotProduct a b / sqrt (na * nb))

/-- The vector in its direction of length 1; the null vector stays. -/
def unitVector (e : List K) : List K :=
  let n := sqrt (dotProduct e e)
  let n := if n = 0 then 1 else n
  e.map (· / n)

/-- The mean of the embeddings' directions, as a direction. -/
def templateFrom (embeddings : List (List K)) : Except EmbeddingError (List K) :=
  match embeddings with
  | [] => .error .noEmbeddings
  | first :: _ =>
    if embeddings.any fun e => e.length ≠ first.length then .error .dimensionMismatch
    else
      let sum := embeddings.foldl (fun out e => List.zipWith (· + ·) out (unitVector sqrt e))
        (List.replicate first.length 0)
      .ok (unitVector sqrt sum)

end

/-! ## Hashes -/

def nibble (c : Char) : Option Nat :=
  if '0' ≤ c ∧ c ≤ '9' then some (c.toNat - '0'.toNat)
  else if 'a' ≤ c ∧ c ≤ 'f' then some (c.toNat - 'a'.toNat + 10)
  else if 'A' ≤ c ∧ c ≤ 'F' then some (c.toNat - 'A'.toNat + 10)
  else none

def NIBBLE_BITS : List Nat := [0, 1, 1, 2, 1, 2, 2, 3, 1, 2, 2, 3, 2, 3, 3, 4]

def hammingNibble (x y : Char) : Option Nat := do
  let x ← nibble x
  let y ← nibble y
  return NIBBLE_BITS.getD (x ^^^ y) 0

/-- `a.padStart(len, '0')`, as characters. -/
def padStart (len : Nat) (a : List Char) : List Char := List.replicate (len - a.length) '0' ++ a

/-- In how many bits two hex strings differ; `none` when one of them is not a hex string. -/
def hammingHex (a b : String) : Option Nat :=
  let len := max a.toList.length b.toList.length
  ((List.zipWith hammingNibble (padStart len a.toList) (padStart len b.toList)).mapM id).map
    List.sum

/-- Malformed hashes are treated as identical. -/
def safeHamming (a b : String) : Nat := (hammingHex a b).getD 0

section

variable {K : Type} [Field K] [LinearOrder K]

/-! ## Options -/

def FRONTAL_PITCH_DEG : K := -10

structure BucketThresholds (K : Type) where
  goodInterEyePx : K
  poorInterEyePx : K
  goodContrast : K
  poorContrast : K
  goodMinBrightness : K
  goodMaxBrightness : K
  poorMinBrightness : K
  poorMaxBrightness : K
  goodSharpness : K
  poorSharpness : K
  goodMaxAbsYawDeg : K
  poorMaxAbsYawDeg : K
  goodDetectionScore : K
  poorDetectionScore : K

def BUCKET_THRESHOLDS : BucketThresholds K where
  goodInterEyePx := 32
  poorInterEyePx := 24
  goodContrast := 18
  poorContrast := 12
  goodMinBrightness := 70
  goodMaxBrightness := 200
  poorMinBrightness := 50
  poorMaxBrightness := 225
  goodSharpness := 0
  poorSharpness := 0
  goodMaxAbsYawDeg := 18
  poorMaxAbsYawDeg := 25
  goodDetectionScore := 88 / 100
  poorDetectionScore := 80 / 100

def qualityBucket (q : FaceQuality K) (t : BucketThresholds K) : QualityBucket :=
  let yaw := |q.yawDeg|
  if q.interEyePx < t.poorInterEyePx ∨ q.contrast < t.poorContrast ∨
      q.brightness < t.poorMinBrightness ∨
      t.poorMaxBrightness < q.brightness ∨ q.sharpness < t.poorSharpness ∨
      t.poorMaxAbsYawDeg < yaw ∨ q.detectionScore < t.poorDetectionScore then
    .poor
  else if t.goodInterEyePx ≤ q.interEyePx ∧ t.goodContrast ≤ q.contrast ∧
      t.goodMinBrightness ≤ q.brightness ∧ q.brightness ≤ t.goodMaxBrightness ∧
      t.goodSharpness ≤ q.sharpness ∧ yaw ≤ t.goodMaxAbsYawDeg ∧
      t.goodDetectionScore ≤ q.detectionScore then
    .good
  else .fair

structure PoseGate (K : Type) where
  maxAbsYawDeg : K
  minPitchDeg : K
  maxPitchDeg : K

def poseWithinGate (p : Pose2 K) (gate : PoseGate K) : Bool :=
  |p.yawDeg| ≤ gate.maxAbsYawDeg ∧ gate.minPitchDeg ≤ p.pitchDeg ∧ p.pitchDeg ≤ gate.maxPitchDeg

structure LivenessOptions (K : Type) where
  minFractionOfTarget : K
  turnedMinSimilarity : Option K := none
  minFrameHamming : K
  clockToleranceMs : K
  clientContradictionFraction : K
  centerToleranceDeg : K
  maxFramesPerStep : K
  frontalPoseGate : PoseGate K
  minFramesAgreeing : K
  agreeingFractionOfTarget : K
  frontalMinSimilarity : Option K := none

def FRONTAL_MIN_SIMILARITY : QualityBucket → K
  | .good => 45 / 100
  | .fair => 40 / 100
  | .poor => 30 / 100

def TURNED_MIN_SIMILARITY : QualityBucket → K
  | .good => 30 / 100
  | .fair => 30 / 100
  | .poor => 25 / 100

/-- The bucket of a frame without its pose: turned frames are turned on purpose. -/
def frameBucket (a : ImageAnalysis K) : QualityBucket :=
  qualityBucket { a.quality with yawDeg := 0, pitchDeg := FRONTAL_PITCH_DEG } BUCKET_THRESHOLDS

def LIVENESS_DEFAULTS : LivenessOptions K where
  minFractionOfTarget := 6 / 10
  minFramesAgreeing := 2
  agreeingFractionOfTarget := 5 / 10
  minFrameHamming := 2
  clockToleranceMs := 1000
  clientContradictionFraction := 5 / 10
  centerToleranceDeg := 12
  maxFramesPerStep := 3
  frontalPoseGate := { maxAbsYawDeg := 30, minPitchDeg := -35, maxPitchDeg := 25 }

/-! ## Reasons -/

inductive LivenessReason
  | noFrames | badSpec | timeWindow | noFrontal | frontalNotFrontal | faceCount | noEmbedding
  | frontalInconsistent | personChanged | identical | outOfOrder | noParallax
  deriving DecidableEq

def LivenessReason.text : LivenessReason → String
  | .noFrames => "No challenge frames were received"
  | .badSpec => "The challenge must include both a left and a right head turn"
  | .timeWindow =>
    "Frames were captured outside the challenge time window (the challenge expired or frames were reused)"
  | .noFrontal => "No clear frontal frame was captured to compare the head turns with"
  | .frontalNotFrontal => "Look straight at the screen for the frontal frames"
  | .faceCount => "Exactly one face must be visible in every frame of the challenge"
  | .noEmbedding => "Frames could not be analysed for identity"
  | .frontalInconsistent => "The frontal frames appear to show different people"
  | .personChanged => "The person in view appears to change during the challenge"
  | .identical => "Submitted frames are identical — a live camera image is required"
  | .outOfOrder => "The head turns were not performed in the requested order"
  | .noParallax => "The left and right head turns did not show the depth change expected from a real face"

/-- Why a step did not pass. -/
inductive StepReason (K : Type)
  | noFrame | otherAction | noSingleFace | noReference | notCentred | otherFace
  | wrongWay (measured : K)
  | tooSmall (change need : K)
  | contradicted | outOfOrder

def StepReason.text (shown : K → String) : StepReason K → String
  | .noFrame => "No frame was captured for this step"
  | .otherAction => "Frame was submitted for a different action than requested"
  | .noSingleFace => "No single face was visible in this step"
  | .noReference => "No frontal reference pose"
  | .notCentred => "Look straight at the screen"
  | .otherFace => "The face in this step does not match the frontal frames"
  | .wrongWay measured => "Head moved the wrong way (" ++ shown measured ++ "°)"
  | .tooSmall change need =>
    "Head movement too small: " ++ shown change ++ "° of the required " ++ shown need ++ "°"
  | .contradicted => "The browser-reported head movement contradicts the submitted image"
  | .outOfOrder => "Performed out of order"

end

/-! ## Poses -/

section

variable {K : Type} [Field K] [LinearOrder K]

def isHorizontal : LivenessAction → Bool
  | .turnLeft | .turnRight => true
  | .lookUp | .lookDown => false

def median (values : List K) : K :=
  let s := values.insertionSort (· ≤ ·)
  let m := s.length / 2
  if s.length % 2 = 1 then s.getD m 0 else (s.getD (m - 1) 0 + s.getD m 0) / 2

def singleFace (a : ImageAnalysis K) : Bool :=
  a.primary && a.pose.isSome && decide (a.quality.faceCount ≤ 1) &&
    decide (QualityIssue.multipleFaces ∉ a.quality.issues)

def severalFaces (a : ImageAnalysis K) : Bool :=
  decide (1 < a.quality.faceCount) || decide (QualityIssue.multipleFaces ∈ a.quality.issues)

/-- The pose of a frame with a face. -/
def LivenessFrame.pose (f : LivenessFrame K) : Pose2 K := f.analysis.pose.getD ⟨0, 0⟩

structure StepDelta (K : Type) where
  measured : K
  /-- Positive in the required direction. -/
  directional : K

/-- Signed pose change for an action. -/
def stepDelta (action : LivenessAction) (pose centre : Pose2 K) : StepDelta K :=
  let yaw := pose.yawDeg - centre.yawDeg
  let pitch := pose.pitchDeg - centre.pitchDeg
  match action with
  | .turnLeft => ⟨yaw, yaw⟩
  | .turnRight => ⟨yaw, -yaw⟩
  | .lookUp => ⟨pitch, pitch⟩
  | .lookDown => ⟨pitch, -pitch⟩

def targetOf (action : LivenessAction) (spec : LivenessChallengeSpec K) : K :=
  if isHorizontal action then spec.targetYawDeg else spec.targetPitchDeg

def requiredChange (action : LivenessAction) (spec : LivenessChallengeSpec K)
    (o : LivenessOptions K) : K :=
  o.minFractionOfTarget * targetOf action spec

def medianOrZero (values : List (Option K)) : K :=
  match values.filterMap id with
  | [] => 0
  | v => median v

/-! ## Frontal frames -/

def inWindow (spec : LivenessChallengeSpec K) (o : LivenessOptions K)
    (f : LivenessFrame K) : Bool :=
  decide (spec.issuedAt - o.clockToleranceMs ≤ f.capturedAt) &&
    decide (f.capturedAt ≤ spec.expiresAt + o.clockToleranceMs)

def isFrontalFrame (f : LivenessFrame K) : Bool :=
  decide (f.step = .frontal) || decide (f.action = .center)

/-- The frontal frames that count: the usable ones, or without one those with a single face. -/
def frontalFrames (frames : List (LivenessFrame K)) : List (LivenessFrame K) :=
  let frontalSingle := frames.filter fun f => isFrontalFrame f && singleFace f.analysis
  let frontalUsable :=
    frontalSingle.filter fun f => f.analysis.quality.usable && f.analysis.embedding.isSome
  if frontalUsable = [] then frontalSingle else frontalUsable

def frontalPoses (o : LivenessOptions K) (frontal : List (LivenessFrame K)) : List (Pose2 K) :=
  (frontal.map (·.pose)).filter fun p => poseWithinGate p o.frontalPoseGate

/-- The candidate's own centre pose. -/
def frontalCentre (o : LivenessOptions K) (frontal : List (LivenessFrame K)) : Option (Pose2 K) :=
  match frontalPoses o frontal with
  | [] => none
  | poses => some ⟨median (poses.map (·.yawDeg)), median (poses.map (·.pitchDeg))⟩

def frontalEmb (frontal : List (LivenessFrame K)) : List (List K) :=
  frontal.filterMap (·.analysis.embedding)

def centreDistance (centre : Pose2 K) (f : LivenessFrame K) : K :=
  |f.pose.yawDeg - centre.yawDeg| + |f.pose.pitchDeg - centre.pitchDeg|

/-- The frontal frame closest to the centre. -/
def frontalRep (frontal : List (LivenessFrame K)) (centre : Option (Pose2 K)) :
    Option (LivenessFrame K) :=
  centre.bind fun c => frontal.foldl (fun best f =>
    if best.all fun b => decide (centreDistance c f < centreDistance c b) then some f else best) none

variable (sqrt : K → K)

/-- The frontal frames that do not look like the others. -/
def frontalOdd (o : LivenessOptions K) (frontal : List (LivenessFrame K)) :
    Except EmbeddingError (List Bool) :=
  let withEmb := frontal.filterMap fun f => f.analysis.embedding.map fun e => (f, e)
  if withEmb.length < 2 then return []
  else (List.range withEmb.length).zip withEmb |>.mapM fun (i, f, e) => do
    let others ← templateFrom sqrt ((withEmb.eraseIdx i).map (·.2))
    let similarity ← cosineSimilarity sqrt e others
    return decide (similarity < o.frontalMinSimilarity.getD (FRONTAL_MIN_SIMILARITY (frameBucket f.analysis)))

def frontalTemplate (frontal : List (LivenessFrame K)) : Except EmbeddingError (Option (List K)) :=
  match frontalEmb frontal with
  | [] => return none
  | embeddings => some <$> templateFrom sqrt embeddings

/-- The frame shows the person of the frontal frames. -/
def identityOk (o : LivenessOptions K) (template : Option (List K)) (f : LivenessFrame K) :
    Except EmbeddingError Bool :=
  match f.analysis.embedding, template with
  | some e, some t => do
    let similarity ← cosineSimilarity sqrt e t
    return decide
      (o.turnedMinSimilarity.getD (TURNED_MIN_SIMILARITY (frameBucket f.analysis)) ≤ similarity)
  | _, _ => return false

end

section

variable {K : Type} [Field K] [LinearOrder K] [FloorRing K]

/-- `Math.round(v * 10) / 10`. -/
def r1 (v : K) : K := (⌊v * 10 + 1 / 2⌋ : K) / 10

/-! ## One step -/

/-- The frames of a step that are looked at: the first ones given for it. -/
def stepFrames (o : LivenessOptions K) (frames : List (LivenessFrame K)) (step : LivenessStep) :
    List (LivenessFrame K) :=
  (frames.filter fun f => decide (f.step = .step step.index)).take
    (max 1 ⌊o.maxFramesPerStep⌋).toNat

/-- What became of a step. -/
structure StepOutcome (K : Type) where
  passed : Bool
  measured : Option K
  reason : Option (StepReason K)
  /-- Its qualifying frame. -/
  qualifying : Option (LivenessFrame K) := none

def StepOutcome.fail (measured : Option K) (reason : StepReason K) : StepOutcome K :=
  ⟨false, measured, some reason, none⟩

/-- What is the same for all steps: the frontal frames and their centre. -/
structure Frontal (K : Type) where
  frames : List (LivenessFrame K)
  centre : Pose2 K

def deviation (centre : Pose2 K) (f : LivenessFrame K) : K :=
  max |f.pose.yawDeg - centre.yawDeg| |f.pose.pitchDeg - centre.pitchDeg|

/-- The frame closest to the centre, the first of several. -/
def mostCentred (centre : Pose2 K) (usable : List (LivenessFrame K × Bool)) :
    Option (LivenessFrame K × Bool) :=
  usable.foldl (fun best f =>
    if best.all fun b => decide (deviation centre f.1 < deviation centre b.1) then some f else best) none

/-- A step back to the centre. -/
def centreOutcome (o : LivenessOptions K) (centre : Pose2 K)
    (usable : List (LivenessFrame K × Bool)) : StepOutcome K :=
  match mostCentred centre usable with
  | none => .fail none .notCentred
  | some (f, same) =>
    let measured := f.pose.yawDeg - centre.yawDeg
    if deviation centre f ≤ o.centerToleranceDeg ∧ same then ⟨true, some measured, none, some f⟩
    else .fail (some measured) .notCentred

/-- The frames of the person by the change they show, the largest first. -/
def measuredFrames (action : LivenessAction) (centre : Pose2 K)
    (usable : List (LivenessFrame K × Bool)) : List (LivenessFrame K × StepDelta K) :=
  ((usable.filter (·.2)).map fun f => (f.1, stepDelta action f.1.pose centre)).insertionSort
    fun a b => b.2.directional ≤ a.2.directional

/-- How many of `n` frames have to agree. -/
def agreeing (o : LivenessOptions K) (n : Nat) : Nat :=
  max 1 (min (max 1 ⌊o.minFramesAgreeing⌋).toNat n)

/-- The change that `k` agreeing frames have to reach. -/
def needOf (action : LivenessAction) (spec : LivenessChallengeSpec K) (o : LivenessOptions K)
    (k : Nat) : K :=
  if 2 ≤ k then min (requiredChange action spec o)
    (o.agreeingFractionOfTarget * targetOf action spec)
  else requiredChange action spec o

/-- The browser reports a movement the other way for the frame. -/
def clientContradicts (action : LivenessAction) (spec : LivenessChallengeSpec K)
    (o : LivenessOptions K) (frontal : List (LivenessFrame K)) (f : LivenessFrame K) : Bool :=
  let reported (g : LivenessFrame K) : Option K :=
    if isHorizontal action then g.clientYaw else g.clientPitch
  match reported f with
  | none => false
  | some value =>
    let pose (v : K) : Pose2 K := if isHorizontal action then ⟨v, 0⟩ else ⟨0, v⟩
    let centre := medianOrZero (frontal.map reported)
    decide ((stepDelta action (pose value) (pose centre)).directional ≤
      -o.clientContradictionFraction * targetOf action spec)

/-- A head movement: the frame that so many others of the window agree with must have moved far
enough. -/
def moveOutcome (spec : LivenessChallengeSpec K) (o : LivenessOptions K) (frontal : Frontal K)
    (action : LivenessAction) (usable : List (LivenessFrame K × Bool)) : StepOutcome K :=
  let measured := measuredFrames action frontal.centre usable
  let k := agreeing o measured.length
  let need := needOf action spec o k
  match measured[k - 1]? with
  | none => .fail none .otherFace
  | some (f, d) =>
    if d.directional < need then
      .fail (some d.measured) (if d.directional < -need / 2 then .wrongWay (r1 d.measured)
        else .tooSmall (r1 |d.directional|) (r1 need))
    else if clientContradicts action spec o frontal.frames f then .fail (some d.measured) .contradicted
    else ⟨true, some d.measured, none, some f⟩

variable (sqrt : K → K)

/-- The frames of a step that show one face in time, and whether it is the person's. -/
def usableFrames (spec : LivenessChallengeSpec K) (o : LivenessOptions K)
    (template : Option (List K))
    (window : List (LivenessFrame K)) : Except EmbeddingError (List (LivenessFrame K × Bool)) :=
  (window.filter fun f => singleFace f.analysis && inWindow spec o f).mapM fun f => do
    return (f, ← identityOk sqrt o template f)

/-- One step, and the reasons it gives against the challenge as a whole. -/
def verifyStep (spec : LivenessChallengeSpec K) (o : LivenessOptions K)
    (frames frontal : List (LivenessFrame K)) (template : Option (List K)) (step : LivenessStep) :
    Except EmbeddingError (StepOutcome K × List LivenessReason) := do
  let window := stepFrames o frames step
  if window = [] then return (.fail none .noFrame, [])
  if window.any fun f => f.action ≠ step.action then return (.fail none .otherAction, [])
  let usable ← usableFrames sqrt spec o template window
  if usable = [] then return (.fail none .noSingleFace, [])
  let against := usable.filterMap fun (f, same) =>
    if f.analysis.embedding.isNone then some LivenessReason.noEmbedding
    else if template.isSome && !same then some .personChanged
    else none
  match frontalCentre o frontal with
  | none => return (.fail none .noReference, against)
  | some centre =>
    match step.action with
    | .center => return (centreOutcome o centre usable, against)
    | .move action => return (moveOutcome spec o ⟨frontal, centre⟩ action usable, against)

end

section

variable {K : Type} [Field K] [LinearOrder K] [FloorRing K]

/-! ## The whole challenge -/

structure StepResult (K : Type) where
  index : Int
  action : StepAction
  passed : Bool
  measured : Option K
  reason : Option (StepReason K) := none

structure LivenessResult (K : Type) where
  passed : Bool
  steps : List (StepResult K)
  reasons : List LivenessReason

/-- Set the result of the first step with the index. -/
def setStep (index : Int) (passed : Bool) (measured : Option K) (reason : Option (StepReason K)) :
    List (StepResult K) → List (StepResult K)
  | [] => []
  | r :: rs =>
    if r.index = index then { r with passed, measured := measured.map r1, reason } :: rs
    else r :: setStep index passed measured reason rs

/-- `Map.set`: a key keeps its place. -/
def mapSet {κ α : Type} [DecidableEq κ] (k : κ) (x : α) : List (κ × α) → List (κ × α)
  | [] => [(k, x)]
  | p :: ps => if p.1 = k then (k, x) :: ps else p :: mapSet k x ps

/-- `Map.get`. -/
def mapGet {κ α : Type} [DecidableEq κ] (ps : List (κ × α)) (k : κ) : Option α :=
  (ps.find? fun p => decide (p.1 = k)).map (·.2)

def sortedSteps (spec : LivenessChallengeSpec K) : List LivenessStep :=
  spec.steps.insertionSort fun a b => a.index ≤ b.index

def resultOf (results : List (StepResult K)) (step : LivenessStep) : Option (StepResult K) :=
  results.find? fun r => decide (r.index = step.index)

/-- Neither turn shows more than noise, though one was measured. -/
def noParallax (spec : LivenessChallengeSpec K) (o : LivenessOptions K) (steps : List LivenessStep)
    (results : List (StepResult K)) : Bool :=
  let left := (steps.filter fun s => decide (s.action = .move .turnLeft)).filterMap
    (resultOf results)
  let right := (steps.filter fun s => decide (s.action = .move .turnRight)).filterMap
    (resultOf results)
  let leftOk := left.any fun r => r.passed && decide (0 < r.measured.getD 0)
  let rightOk := right.any fun r => r.passed && decide (r.measured.getD 0 < 0)
  (!leftOk || !rightOk) && (left ++ right).any (fun r => r.measured.isSome) &&
    (left ++ right).all fun r => r.measured.all fun x => decide (|x| < requiredChange .turnLeft spec o)

/-- The order check, as it goes through the steps: the latest time so far, the results, and whether
a step came too early. -/
structure OrderPass (K : Type) where
  lastTime : Option K
  results : List (StepResult K)
  outOfOrder : Bool

def orderStep (qualifying : List (Int × LivenessFrame K)) (p : OrderPass K) (step : LivenessStep) :
    OrderPass K :=
  match mapGet qualifying step.index with
  | none => p
  | some f =>
    let late := p.lastTime.any fun t => decide (f.capturedAt < t)
    { lastTime := some (p.lastTime.elim f.capturedAt (max · f.capturedAt))
      results :=
        if late then
          setStep step.index false ((resultOf p.results step).bind (·.measured)) (some .outOfOrder) p.results
        else p.results
      outOfOrder := p.outOfOrder || late }

/-- Two elements of the list, in its order, are related. -/
def anyPair {α : Type} (rel : α → α → Bool) : List α → Bool
  | [] => false
  | x :: xs => xs.any (rel x) || anyPair rel xs

/-- The frames that must not be the same image: the representative frontal frame and the qualifying
frames of the movements. -/
def comparedFrames (steps : List LivenessStep) (qualifying : List (Int × LivenessFrame K))
    (rep : Option (LivenessFrame K)) : List (LivenessFrame K) :=
  rep.toList ++ (qualifying.filter fun p =>
    decide ((steps.find? fun s => decide (s.index = p.1)).map (·.action) ≠ some .center)).map (·.2)

def sameImage (o : LivenessOptions K) (f g : LivenessFrame K) : Bool :=
  decide ((safeHamming f.analysis.dhash g.analysis.dhash : K) ≤ o.minFrameHamming)

def initialResult (s : LivenessStep) : StepResult K := ⟨s.index, s.action, false, none, none⟩

/-- The reasons, each once. -/
def finish (results : List (StepResult K)) (reasons : List LivenessReason) : LivenessResult K :=
  { passed := decide (reasons = []) && results.all (·.passed)
    steps := results
    reasons := reasons.eraseDups }

/-- The spec asks for both turns. -/
def goodSpec (spec : LivenessChallengeSpec K) : Bool :=
  (sortedSteps spec).any (fun s => decide (s.action = .move .turnLeft)) &&
    (sortedSteps spec).any (fun s => decide (s.action = .move .turnRight)) &&
    decide (0 < spec.targetYawDeg)

/-- One face in every frame, or none in a frontal one. -/
def facesOk (frames : List (LivenessFrame K)) : Bool :=
  frames.all fun f => !severalFaces f.analysis && (isFrontalFrame f || singleFace f.analysis)

/-- What there is against the challenge before its steps are looked at. -/
def reasonsBefore (spec : LivenessChallengeSpec K) (o : LivenessOptions K)
    (frames frontal : List (LivenessFrame K)) (odd : List Bool) : List LivenessReason :=
  let ofFrames : List LivenessReason :=
    (if goodSpec spec then [] else [LivenessReason.badSpec]) ++
    (if frames.all (inWindow spec o) then [] else [LivenessReason.timeWindow]) ++
    (if facesOk frames then [] else [LivenessReason.faceCount])
  let ofFrontal : List LivenessReason :=
    if frontal = [] then [LivenessReason.noFrontal]
    else if frontalPoses o frontal = [] then [LivenessReason.frontalNotFrontal] else []
  let ofEmbeddings : List LivenessReason :=
    if frontal ≠ [] ∧ (frontalEmb frontal).length < frontal.length then [LivenessReason.noEmbedding] else []
  ofFrames ++ ofFrontal ++ ofEmbeddings ++ (odd.filter id).map fun _ => LivenessReason.frontalInconsistent

/-- Set the results of the steps that were looked at. -/
def stepResults (steps : List LivenessStep) (outcomes : List (LivenessStep × StepOutcome K)) :
    List (StepResult K) :=
  outcomes.foldl (fun rs p => setStep p.1.index p.2.passed p.2.measured p.2.reason rs)
    (steps.map initialResult)

def qualifyingFrames (outcomes : List (LivenessStep × StepOutcome K)) :
    List (Int × LivenessFrame K) :=
  outcomes.foldl (fun q p => p.2.qualifying.elim q fun f => mapSet p.1.index f q) []

/-- What the steps have to say together. -/
def verdict (spec : LivenessChallengeSpec K) (o : LivenessOptions K)
    (rep : Option (LivenessFrame K))
    (before : List LivenessReason)
    (outcomes : List (LivenessStep × StepOutcome K × List LivenessReason)) : LivenessResult K :=
  let steps := sortedSteps spec
  let each := outcomes.map fun p => (p.1, p.2.1)
  let results := stepResults steps each
  let qualifying := qualifyingFrames each
  let order := steps.foldl (orderStep qualifying) ⟨none, results, false⟩
  let together : List LivenessReason :=
    (if noParallax spec o steps results then [LivenessReason.noParallax] else []) ++
    (if order.outOfOrder then [LivenessReason.outOfOrder] else []) ++
    (if anyPair (sameImage o) (comparedFrames steps qualifying rep) then [LivenessReason.identical] else [])
  finish order.results (before ++ outcomes.flatMap (fun p => p.2.2) ++ together)

/-- Verify a completed liveness challenge. -/
def verifyLiveness (sqrt : K → K) (spec : LivenessChallengeSpec K) (frames : List (LivenessFrame K))
    (o : LivenessOptions K) : Except EmbeddingError (LivenessResult K) := do
  if frames = [] then
    return finish ((sortedSteps spec).map fun s =>
      { initialResult s with reason := some .noFrame }) [.noFrames]
  let frontal := frontalFrames frames
  let odd ← frontalOdd sqrt o frontal
  let template ← frontalTemplate sqrt frontal
  let outcomes ← (sortedSteps spec).mapM fun s => do
    return (s, ← verifyStep sqrt spec o frames frontal template s)
  return verdict spec o (frontalRep frontal (frontalCentre o frontal))
    (reasonsBefore spec o frames frontal odd) outcomes

end

end SmartProctoring
