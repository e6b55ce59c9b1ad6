import Mathlib.Algebra.Order.Field.Rat
import Mathlib.Data.List.Sort
import Mathlib.Data.Rat.Floor
import Mathlib.Tactic.Linarith
import Mathlib.Tactic.NormNum

/-!
# Where the candidate's attention is

`AttentionModel` of `engine/attention.ts`: the screen region and the keyboard cone are learned from
the poses of ticks on which the candidate is seen to work, and a tick is away when its offset from
the screen centre is beyond the limits.

Numbers are exact.  A ring of samples is the list of them, the oldest first; a sample also says
where it comes from (`Origin`), which no function reads.
-/

set_option autoImplicit false

namespace SmartProctoring

namespace Attention

inductive GazeMode where
  | confirm | deadzone | learned
  deriving DecidableEq

structure Sides where
  side : ℚ
  up : ℚ
  down : ℚ

structure RingCaps where
  pointer : Nat
  typed : Nat
  calm : Nat
  keyboard : Nat

structure KeyboardPrior where
  x : ℚ
  bottom : ℚ

structure AttentionParams where
  gazeMode : GazeMode
  /-- `none` is a box. -/
  boundaryPower : Option Nat
  gazeXDeg : ℚ
  gazeYDeg : ℚ
  gazeDeadzone : ℚ
  fixedDeadzone : ℚ
  deadzoneCentred : Bool
  confirmFrom : ℚ
  confirmFull : ℚ
  engageMs : ℚ
  warmSamples : ℚ
  marginDeg : ℚ
  minExtent : Sides
  maxExtent : Sides
  coldExtra : Sides
  kbPrior : KeyboardPrior
  kbMargin : ℚ
  kbMinHalfWidth : ℚ
  kbMaxHalfWidth : ℚ
  kbMaxCentre : ℚ
  kbConfirmMs : ℚ
  kbMinDepth : ℚ
  kbMinSamples : Nat
  upPatternExtraDeg : ℚ
  upThinkMinDeg : ℚ
  upSideMax : ℚ
  resetShiftDeg : ℚ
  sanityYaw : ℚ
  sanityPitch : ℚ
  caps : RingCaps
  rebuildMs : ℚ
  calmRangeDeg : ℚ
  calmTicks : Nat

def ATTENTION : AttentionParams where
  gazeMode := .confirm
  boundaryPower := some 3
  gazeXDeg := 25
  gazeYDeg := 20
  gazeDeadzone := 1 / 10
  fixedDeadzone := 15 / 100
  deadzoneCentred := false
  confirmFrom := 3 / 10
  confirmFull := 65 / 100
  engageMs := 1500
  warmSamples := 25
  marginDeg := 10
  minExtent := ⟨6, 5, 6⟩
  maxExtent := ⟨20, 15, 14⟩
  coldExtra := ⟨10, 10, 12⟩
  kbPrior := ⟨12, -55⟩
  kbMargin := 5
  kbMinHalfWidth := 10
  kbMaxHalfWidth := 14
  kbMaxCentre := 5
  kbConfirmMs := 1000
  kbMinDepth := 30
  kbMinSamples := 15
  upPatternExtraDeg := 10
  upThinkMinDeg := 12
  upSideMax := 14 / 10
  resetShiftDeg := 15
  sanityYaw := 55
  sanityPitch := 40
  caps := ⟨600, 300, 300, 400⟩
  rebuildMs := 1000
  calmRangeDeg := 4
  calmTicks := 5

inductive AttentionReference where
  | learned | calibration
  deriving DecidableEq

/-- The policy's part; its schema has positive thresholds. -/
structure AttentionPolicy where
  lookAwayYawDeg : ℚ
  lookUpPitchDeg : ℚ
  lookDownPitchDeg : ℚ
  typingExcuseSec : ℚ
  attentionReference : AttentionReference
  lookAwayYawDeg_pos : 0 < lookAwayYawDeg
  lookUpPitchDeg_pos : 0 < lookUpPitchDeg
  lookDownPitchDeg_pos : 0 < lookDownPitchDeg

structure HeadPose where
  yaw : ℚ
  pitch : ℚ

/-- Toward the candidate's left (`h > 0`), right, up (`v > 0`) and down. -/
structure AttentionLimits where
  left : ℚ
  right : ℚ
  up : ℚ
  down : ℚ

structure KeyboardCone where
  xLo : ℚ
  xHi : ℚ
  bottom : ℚ

structure GazePoint where
  x : ℚ
  y : ℚ

structure GazeRange where
  xLo : ℚ
  xHi : ℚ
  yLo : ℚ
  yHi : ℚ

/-- What is read of a `FaceObservation`. -/
structure FaceObservation where
  yaw : ℚ
  pitch : ℚ
  gazeX : ℚ
  gazeY : ℚ

structure ActivityTiming where
  keyAt : Option ℚ
  answerKeyAt : Option ℚ
  pointerAt : Option ℚ
  clickAt : Option ℚ
  scrollAt : Option ℚ
  answerAt : Option ℚ

/-- Attention offset from the screen centre, and the head's alone. -/
structure Offsets where
  h : ℚ
  v : ℚ
  headH : ℚ
  headV : ℚ

/-- Where a sample comes from. -/
structure Origin where
  camera : Option String
  /-- The baseline when it was taken. -/
  prior : HeadPose
  /-- The tick's time and offset, and the extent of the region then; `none` for a sample that was
  imported. -/
  tick : Option (ℚ × Offsets × AttentionLimits)
  /-- The key that confirmed it. -/
  key : Option ℚ

structure Sample where
  face : FaceObservation
  origin : Origin

/-- The learned state that a host keeps between periods; `none` for what is not four finite
numbers. -/
structure AttentionState where
  cameraId : Option String
  prior : Option HeadPose
  pointer : List (Option FaceObservation)
  typed : List (Option FaceObservation)
  calm : List (Option FaceObservation)
  keyboard : List (Option FaceObservation)

structure AttentionAssessment where
  offsets : Offsets
  away : Bool
  up : Bool
  excused : Bool
  inKeyboard : Bool
  typingRecent : Bool
  lastKeyAt : Option ℚ
  limits : AttentionLimits

/-! ## Numbers -/

def clamp (v lo hi : ℚ) : ℚ := if v < lo then lo else if hi < v then hi else v

/-- The values around position `q` of a sorted list, interpolated; callers have some values. -/
def quantile (sorted : List ℚ) (q : ℚ) : ℚ :=
  let last : ℚ := sorted.length - 1
  let idx := clamp (q * last) 0 last
  let lo := sorted.getD ⌊idx⌋.toNat 0
  let hi := sorted.getD ⌈idx⌉.toNat 0
  lo + (hi - lo) * (idx - ⌊idx⌋)

def sortedOf (values : List ℚ) : List ℚ := values.insertionSort (· ≤ ·)

/-- The latest of some times. -/
def latest (times : List (Option ℚ)) : Option ℚ := (times.filterMap id).max?

/-- `t - at <= ms`, where no time at all is long ago. -/
def within (t : ℚ) (time : Option ℚ) (ms : ℚ) : Bool := time.any fun s => t - s ≤ ms

def sign (x : ℚ) : Int := if 0 < x then 1 else if x < 0 then -1 else 0

def deadzone (g dz : ℚ) : ℚ := if 0 < |g| - dz then sign g * (|g| - dz) else 0

/-! ## The model -/

structure AttentionModel where
  prior : HeadPose
  priorSet : Bool
  cameraId : Option String
  adaptive : Bool
  pointer : List Sample
  typed : List Sample
  calm : List Sample
  keyboard : List Sample
  calmToggle : Bool
  /-- Keyboard samples that wait for a later key, with their times. -/
  kbPending : List (ℚ × Sample)
  recent : List HeadPose
  /-- New samples since the last rebuild. -/
  dirty : Bool
  /-- Rebuild on the next tick. -/
  force : Bool
  lastRebuild : Option ℚ
  centre : HeadPose
  gazeCentre : GazePoint
  gazeRange : GazeRange
  extent : AttentionLimits
  lim : AttentionLimits
  kb : KeyboardCone
  warmth : ℚ

variable (p : AttentionParams) (policy : AttentionPolicy)

/-- The policy thresholds. -/
def policyLimits : AttentionLimits :=
  ⟨policy.lookAwayYawDeg, policy.lookAwayYawDeg, policy.lookUpPitchDeg, policy.lookDownPitchDeg⟩

def learns : Bool := policy.attentionReference ≠ .calibration

/-- `SampleRing.push` -/
def push (capacity : Nat) (ring : List Sample) (x : Sample) : List Sample :=
  if ring.length < capacity then ring ++ [x] else ring.tail ++ [x]

/-- `SampleRing.import`: the last ones, each as if it had been taken with the state's camera and
baseline. -/
def importRing (capacity : Nat) (origin : Origin) (faces : List (Option FaceObservation)) :
    List Sample :=
  ((faces.drop (faces.length - capacity)).filterMap id).map fun face => ⟨face, origin⟩

namespace AttentionModel

/-- The fields before the state is imported. -/
def blank : AttentionModel where
  prior := ⟨0, 0⟩
  priorSet := false
  cameraId := none
  adaptive := false
  pointer := []
  typed := []
  calm := []
  keyboard := []
  calmToggle := false
  kbPending := []
  recent := []
  dirty := true
  force := true
  lastRebuild := none
  centre := ⟨0, 0⟩
  gazeCentre := ⟨0, -5 / 100⟩
  gazeRange := ⟨-45 / 100, 45 / 100, -45 / 100, 3 / 10⟩
  extent := ⟨0, 0, 0, 0⟩
  lim := policyLimits policy
  kb := ⟨-p.kbPrior.x, p.kbPrior.x, p.kbPrior.bottom⟩
  warmth := 0

variable (m : AttentionModel)

def importState (s : AttentionState) : AttentionModel :=
  let prior := s.prior.getD m.prior
  let origin : Origin := ⟨s.cameraId, prior, none, none⟩
  { m with
    cameraId := s.cameraId
    prior := prior
    priorSet := m.priorSet || s.prior.isSome
    pointer := importRing p.caps.pointer origin s.pointer
    typed := importRing p.caps.typed origin s.typed
    calm := importRing p.caps.calm origin s.calm
    keyboard := importRing p.caps.keyboard origin s.keyboard
    force := true }

def new (state : Option AttentionState) : AttentionModel :=
  match state with
  | some s => (blank p policy).importState p s
  | none => blank p policy

/-! ### Host events -/

def clearSamples : AttentionModel :=
  { m with pointer := [], typed := [], calm := [], keyboard := [], recent := [], kbPending := [], force := true }

/-- The new baseline is far from the last one. -/
def moved (b : HeadPose) : Bool :=
  m.priorSet &&
    (decide (p.resetShiftDeg < |b.yaw - m.prior.yaw|) || decide (p.resetShiftDeg < |b.pitch - m.prior.pitch|))

def setBaseline (b : Option HeadPose) : AttentionModel :=
  match b with
  | none => m
  | some b =>
    let m := if m.moved p b then m.clearSamples else m
    { m with prior := b, priorSet := true, force := true }

/-- A different camera than the region was learned with resets it. -/
def setCamera (id : String) : AttentionModel :=
  let m := if m.cameraId.any (· ≠ id) then m.clearSamples else m
  { m with cameraId := some id }

def reset : AttentionModel := m.clearSamples

/-! ### Geometry -/

inductive Axis where
  | x | y
  deriving DecidableEq

/-- Eye contribution along one axis. -/
def eyes (g head : ℚ) (axis : Axis) (limit : ℚ) : ℚ :=
  let k := if axis = .x then p.gazeXDeg else p.gazeYDeg
  let c := if axis = .x then m.gazeCentre.x else m.gazeCentre.y
  match p.gazeMode with
  | .deadzone => deadzone (if p.deadzoneCentred then g - c else g) p.fixedDeadzone * k
  | .learned =>
    let lo := if axis = .x then m.gazeRange.xLo else m.gazeRange.yLo
    let hi := if axis = .x then m.gazeRange.xHi else m.gazeRange.yHi
    let e := if hi + p.gazeDeadzone < g then g - hi - p.gazeDeadzone
      else if g < lo - p.gazeDeadzone then g - lo + p.gazeDeadzone else 0
    e * k
  | .confirm =>
    let e := deadzone (g - c) p.gazeDeadzone * k
    if e = 0 then 0
    -- counter-rotating toward the screen
    else if sign e ≠ sign head ∨ head = 0 then e
    else
      let start := p.confirmFrom * limit
      let full := p.confirmFull * limit
      e * clamp ((|head| - start) / max (1 / 1000000) (full - start)) 0 1

def offsets (face : FaceObservation) (lim : AttentionLimits) : Offsets :=
  let headH := face.yaw - m.centre.yaw
  let headV := face.pitch - m.centre.pitch
  { h := headH + m.eyes p face.gazeX headH .x (if 0 ≤ headH then lim.left else lim.right)
    v := headV + m.eyes p face.gazeY headV .y (if 0 ≤ headV then lim.up else lim.down)
    headH := headH
    headV := headV }

/-- How far up the candidate looks, head and eyes. -/
def elevation (face : FaceObservation) (headV : ℚ) : ℚ :=
  headV + deadzone (face.gazeY - m.gazeCentre.y) p.gazeDeadzone * p.gazeYDeg

/-! ### The region -/

def screen : List Sample := m.pointer ++ m.typed ++ m.calm

/-- What is learned on an axis. -/
def column (f : FaceObservation → ℚ) : List ℚ := sortedOf (m.screen.map fun x => f x.face)

/-- The pointer and typing samples of a fully learned region. -/
def warmthOf : ℚ := min 1 ((m.pointer.length + m.typed.length : ℕ) / p.warmSamples)

/-- The centre, and that of the eyes. -/
def recentre : AttentionModel :=
  let w := m.warmthOf p
  let n := m.screen.length
  let m := { m with warmth := w }
  if 3 ≤ n then
    let gx := m.column (·.gazeX)
    let gy := m.column (·.gazeY)
    let mix (prior learned : ℚ) := prior + w * (learned - prior)
    { m with
      centre := ⟨m.prior.yaw + w * (quantile (m.column (·.yaw)) (1 / 2) - m.prior.yaw),
        m.prior.pitch + w * (quantile (m.column (·.pitch)) (1 / 2) - m.prior.pitch)⟩
      gazeCentre := ⟨w * quantile gx (1 / 2), -5 / 100 + w * (quantile gy (1 / 2) + 5 / 100)⟩
      gazeRange :=
        if 10 ≤ n then
          ⟨mix (-45 / 100) (quantile gx (5 / 100)), mix (45 / 100) (quantile gx (95 / 100)),
            mix (-45 / 100) (quantile gy (5 / 100)), mix (3 / 10) (quantile gy (95 / 100))⟩
        else m.gazeRange }
  else { m with centre := m.prior }

/-- The extent before anything is learned. -/
def minExtents : AttentionLimits :=
  ⟨p.minExtent.side, p.minExtent.side, p.minExtent.up, p.minExtent.down⟩

/-- Extents of the attention offsets of the screen samples. -/
def extents : AttentionLimits :=
  if 10 ≤ m.screen.length then
    let os := m.screen.map fun x => m.offsets p x.face (policyLimits policy)
    let H := sortedOf (os.map (·.h))
    let V := sortedOf (os.map (·.v))
    { left := clamp (quantile H (9 / 10)) p.minExtent.side p.maxExtent.side
      right := clamp (-quantile H (1 / 10)) p.minExtent.side p.maxExtent.side
      up := clamp (quantile V (9 / 10)) p.minExtent.up p.maxExtent.up
      down := clamp (-quantile V (1 / 10)) p.minExtent.down p.maxExtent.down }
  else minExtents p

def relimit : AttentionModel :=
  let ext := m.extents p policy
  let pol := policyLimits policy
  let cold := 1 - m.warmth
  { m with
    extent := ext
    lim :=
      { left := max pol.left (ext.left + p.marginDeg) + cold * p.coldExtra.side
        right := max pol.right (ext.right + p.marginDeg) + cold * p.coldExtra.side
        up := max pol.up (ext.up + p.marginDeg) + cold * p.coldExtra.up
        down := max pol.down (ext.down + p.marginDeg) + cold * p.coldExtra.down } }

/-- The cone before it is learned. -/
def priorCone : KeyboardCone := ⟨-p.kbPrior.x, p.kbPrior.x, p.kbPrior.bottom⟩

/-- Keyboard cone. -/
def recone : AttentionModel :=
  if p.kbMinSamples ≤ m.keyboard.length then
    let os := m.keyboard.map fun x => m.offsets p x.face m.lim
    let H := sortedOf (os.map (·.h))
    let V := sortedOf (os.map (·.v))
    let mid := clamp (quantile H (1 / 2)) (-p.kbMaxCentre) p.kbMaxCentre
    let half := clamp (max (mid - quantile H (1 / 10)) (quantile H (9 / 10) - mid) + p.kbMargin)
      p.kbMinHalfWidth p.kbMaxHalfWidth
    { m with kb := ⟨mid - half, mid + half,
      min (-p.kbMinDepth) (quantile V (5 / 100) - p.kbMargin)⟩ }
  else { m with kb := priorCone p }

def rebuild (t : ℚ) : AttentionModel :=
  let m := { m with lastRebuild := some t, dirty := false, force := false }
  if m.adaptive && learns policy then ((m.recentre p).relimit p policy).recone p
  else
    { m with
      centre := m.prior, warmth := 0, lim := policyLimits policy, extent := minExtents p, kb := priorCone p }

/-- What `info` reads is rebuilt first where that is due. -/
def info : AttentionModel := if m.force then m.rebuild p policy (m.lastRebuild.getD 0) else m

/-! ### Learning -/

/-- Keyboard samples that wait are learned when a key followed, or dropped. -/
def settle (t : ℚ) (keyAt : Option ℚ) : List (ℚ × Sample) → AttentionModel → AttentionModel
  | [], m => { m with kbPending := [] }
  | (s, x) :: rest, m =>
    if keyAt.any (fun k => s < k ∧ k - s ≤ p.kbConfirmMs) then
      settle t keyAt rest
        { m with
          keyboard := push p.caps.keyboard m.keyboard { x with origin := { x.origin with key := keyAt } }
          dirty := true }
    else if t - s ≤ p.kbConfirmMs then { m with kbPending := (s, x) :: rest }
    else settle t keyAt rest { m with dirty := true }

def noteRecent (face : FaceObservation) : AttentionModel :=
  let recent := m.recent ++ [⟨face.yaw, face.pitch⟩]
  { m with recent := if p.calmTicks < recent.length then recent.tail else recent }

/-- The head has been steady. -/
def steady : Bool :=
  let spread (values : List ℚ) : ℚ := (values.max?.getD 0) - (values.min?.getD 0)
  decide (spread (m.recent.map (·.yaw)) ≤ p.calmRangeDeg) &&
    decide (spread (m.recent.map (·.pitch)) ≤ p.calmRangeDeg)

/-- Close enough to the baseline. -/
def sane (face : FaceObservation) : Bool :=
  decide (|face.yaw - m.prior.yaw| ≤ p.sanityYaw) &&
    decide (|face.pitch - m.prior.pitch| ≤ p.sanityPitch)

/-- Inside the learned region. -/
def inCore (o : Offsets) : Bool :=
  decide (o.h ≤ m.extent.left) && decide (-m.extent.right ≤ o.h) && decide (o.v ≤ m.extent.up) &&
    decide (-m.extent.down ≤ o.v)

/-- Below the region and in the cone that is known beforehand. -/
def overKeyboard (o : Offsets) : Bool :=
  decide (o.v < -m.extent.down) && decide (-p.kbPrior.x ≤ o.h) && decide (o.h ≤ p.kbPrior.x) &&
    decide (p.kbPrior.bottom ≤ o.v)

/-- The sample of a tick. -/
def taken (t : ℚ) (face : FaceObservation) (o : Offsets) : Sample :=
  ⟨face, ⟨m.cameraId, m.prior, some (t, o, m.extent), none⟩⟩

def take (t : ℚ) (face : FaceObservation) (o : Offsets) (a : ActivityTiming) (keyAt : Option ℚ) :
    AttentionModel :=
  let x := m.taken t face o
  let typing := within t keyAt p.engageMs
  let pointing := within t (latest [a.pointerAt, a.clickAt, a.scrollAt, a.answerAt]) p.engageMs
  if pointing && !typing then
    if m.sane p face then { m with pointer := push p.caps.pointer m.pointer x, dirty := true } else m
  else if m.warmth < 1 then m
  else if typing then
    if m.inCore o then { m with typed := push p.caps.typed m.typed x, dirty := true }
    else if m.overKeyboard p o then { m with kbPending := m.kbPending ++ [(t, x)] }
    else m
  -- calm reading
  else if within t keyAt (policy.typingExcuseSec * 1000) || !m.inCore o ||
    decide (m.recent.length < p.calmTicks) then m
  else if !m.steady p then m
  else if m.calmToggle then { m with calmToggle := false }
  else { m with calmToggle := true, calm := push p.caps.calm m.calm x, dirty := true }

def sample (t : ℚ) (face : FaceObservation) (o : Offsets) (a : ActivityTiming) (keyAt : Option ℚ) :
    AttentionModel :=
  let m := m.noteRecent p face
  (settle p t keyAt m.kbPending m).take p policy t face o a keyAt

/-! ### Ticks -/

/-- The region that a tick is assessed with. -/
def refreshed (t : ℚ) (activity : Option ActivityTiming) : AttentionModel :=
  let m := if activity.isSome && !m.adaptive then { m with adaptive := true, force := true } else m
  if m.force || m.dirty && m.lastRebuild.all (fun l => p.rebuildMs ≤ t - l)
    then m.rebuild p policy t else m

/-- A tick's offset from the centre of the region, judged by its limits. -/
def judge (t : ℚ) (face : FaceObservation) (activity : Option ActivityTiming) :
    AttentionAssessment :=
  let o := m.offsets p face m.lim
  let nx := |o.h| / (if 0 ≤ o.h then m.lim.left else m.lim.right)
  let ny := if 0 ≤ o.v then o.v / m.lim.up else -o.v / m.lim.down
  let awaySide := decide (1 ≤ nx)
  let pw := if m.adaptive && learns policy then p.boundaryPower else none
  let rawAway := awaySide || decide (1 ≤ ny) || pw.any fun k => 1 ≤ nx ^ k + ny ^ k
  let awayDown := rawAway && decide (o.v < 0) && decide (nx ≤ ny)
  let awayUp := rawAway && (decide (0 < o.v) && decide (nx ≤ ny) ||
    decide (p.upThinkMinDeg ≤ m.elevation p face o.headV) && decide (nx < p.upSideMax))
  let keyAt := activity.bind fun a => latest [a.keyAt, a.answerKeyAt]
  let excuseMs := policy.typingExcuseSec * 1000
  let typingRecent := decide (0 < excuseMs) && within t keyAt excuseMs
  let inKeyboard := decide (o.v < 0) && decide (m.kb.xLo ≤ o.h) && decide (o.h ≤ m.kb.xHi) &&
    decide (m.kb.bottom ≤ o.v)
  let excused := awayDown && !awaySide && typingRecent && inKeyboard
  { offsets := o, away := rawAway && !excused, up := awayUp, excused := excused,
    inKeyboard := inKeyboard,
    typingRecent := typingRecent, lastKeyAt := keyAt, limits := m.lim }

def assess (t : ℚ) (face : FaceObservation) (activity : Option ActivityTiming) (learnable : Bool) :
    AttentionModel × AttentionAssessment :=
  let m := m.refreshed p policy t activity
  let r := m.judge p policy t face activity
  match activity with
  | some a => (if learnable && learns policy then m.sample p policy t face r.offsets a r.lastKeyAt else m, r)
  | none => (m, r)

end AttentionModel

/-- What the engine does with the model. -/
inductive AttentionAction where
  | setBaseline (b : Option HeadPose)
  | setCamera (id : String)
  | reset
  | info
  | assess (t : ℚ) (face : FaceObservation) (activity : Option ActivityTiming) (learnable : Bool)

namespace AttentionModel

def step (m : AttentionModel) : AttentionAction → AttentionModel
  | .setBaseline b => m.setBaseline p b
  | .setCamera id => m.setCamera id
  | .reset => m.reset
  | .info => m.info p policy
  | .assess t face activity learnable => (m.assess p policy t face activity learnable).1

def run (state : Option AttentionState) (as : List AttentionAction) : AttentionModel :=
  as.foldl (step p policy) (new p policy state)

end AttentionModel

end Attention

end SmartProctoring
