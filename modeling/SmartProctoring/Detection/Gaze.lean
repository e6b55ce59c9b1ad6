import SmartProctoring.Detection.Episodes

/-!
# Repeated looks away

The glances and the patterns of `engine/detectors/gaze.ts`.  A glance is a run of ticks on which the
candidate looks away; it qualifies when it has lasted for `glanceMinSec`, and a number of them
toward the same spot, or of short ones in any direction, makes a pattern, which is reported as an
episode.

Glances and patterns are objects of the source that several lists share; here they are numbered, in
the order in which they are made.  The mean of a glance's attention vectors (its angle and length),
and whether a look up is far enough up, are inputs of a tick; the circular mean of some angles is a
parameter.  The debounced span `looking_away` is not part of this module.
-/

set_option autoImplicit false

namespace SmartProctoring

inductive GazeDirection where
  | left | right | up | down | downLeft | downRight | upLeft | upRight
  deriving DecidableEq

def directionText : GazeDirection → String
  | .left => "toward the candidate’s left"
  | .right => "toward the candidate’s right"
  | .up => "upward"
  | .down => "downward"
  | .downLeft => "downward and to the candidate’s left"
  | .downRight => "downward and to the candidate’s right"
  | .upLeft => "upward and to the candidate’s left"
  | .upRight => "upward and to the candidate’s right"

/-- `((a % 360) + 360) % 360` -/
def wrap360 (a : ℚ) : ℚ := a - 360 * ⌊a / 360⌋

def SECTORS : List GazeDirection :=
  [.right, .downRight, .down, .downLeft, .left, .upLeft, .up, .upRight, .right]

def directionOfAngle (angDeg : ℚ) : GazeDirection :=
  let a := wrap360 (angDeg + 180) - 180
  let idx := ⌊a / 45 + 1 / 2⌋ + 4
  SECTORS.getD (max 0 (min 8 idx)).toNat .right

/-- The smallest difference between two angles. -/
def angleDiff (a b : ℚ) : ℚ := if 180 < wrap360 (a - b) then 360 - wrap360 (a - b)
    else wrap360 (a - b)

/-- A direction and a distance beyond the limits. -/
structure Spot where
  ang : ℚ
  radius : ℚ

def SAME_DIRECTION_TOL_DEG : ℚ := 30

def SAME_SPOT_RADIUS_TOL : ℚ := 1 / 2

/-- Similar direction and similar distance. -/
def sameSpot (a b : Spot) : Bool :=
  decide (angleDiff a.ang b.ang ≤ SAME_DIRECTION_TOL_DEG) &&
    decide (|a.radius - b.radius| ≤ SAME_SPOT_RADIUS_TOL)

def GLANCE_GAP_MS : ℚ := 350

def MAX_GLANCES : Nat := 64

def MAX_LISTED : Nat := 30

def MAX_PATTERN_GLANCES : Nat := 100

inductive PatternKind where
  | offscreen | repeated
  deriving DecidableEq

structure Glance where
  start : ℚ
  lastAway : ℚ
  firstNonAway : Option ℚ
  endedAt : Option ℚ
  qualified : Bool
  sustained : Bool
  dir : GazeDirection
  spot : Spot
  /-- The kind of pattern that it was attributed to. -/
  attr : Option PatternKind
  /-- Its pattern has closed. -/
  consumed : Bool
  owner : Option Nat

def Glance.new (start t : ℚ) : Glance :=
  ⟨start, t, none, none, false, false, .left, ⟨0, 0⟩, none, false, none⟩

/-- The keys of the patterns in the book. -/
inductive PatternKey where
  | repeated
  | offscreen (dir : GazeDirection)
  deriving DecidableEq

def PatternKey.isOff : PatternKey → Bool
  | .repeated => false
  | .offscreen _ => true

structure Pattern where
  key : PatternKey
  isOpen : Bool
  startedAt : ℚ
  spot : Spot
  dir : GazeDirection
  /-- The last glances, a hundred at most. -/
  glances : List Nat
  count : Nat
  firstStart : ℚ

def Pattern.new (key : PatternKey) (startedAt : ℚ) (spot : Spot) (dir : GazeDirection) : Pattern :=
  ⟨key, false, startedAt, spot, dir, [], 0, startedAt⟩

structure GazePolicy where
  lookingAway : Bool
  lookAwaySec : ℚ
  glanceMinSec : ℚ
  repeatedLookAwayCount : Nat
  repeatedLookAwayWindowSec : ℚ
  sameDirectionCount : Nat

structure GazeConfig where
  policy : GazePolicy
  /-- `meanAngle` of `context.ts`, which is made of sines and cosines. -/
  meanAngle : List ℚ → ℚ
  book : BookConfig

def GazeConfig.windowMs (cfg : GazeConfig) : ℚ := cfg.policy.repeatedLookAwayWindowSec * 1000

structure GazeDetails where
  durationSec : ℚ
  count : Nat
  windowSec : ℚ
  glances : List (ℚ × ℚ × GazeDirection)
  maxGlanceSec : ℚ
  direction : Option GazeDirection
  directions : List (GazeDirection × Nat)
  closedBy : Option FlushReason

abbrev GazeUpdate := EpisodeUpdate GazeDetails

/-- `String(round(v, 1))` -/
def oneDecimal (v : ℚ) : String :=
  let tenths := ⌊v * 10 + 1 / 2⌋.toNat
  if tenths % 10 = 0 then toString (tenths / 10)
    else toString (tenths / 10) ++ "." ++ toString (tenths % 10)

structure GazeState where
  book : EpisodeBook PatternKey
  glance : Nat → Glance
  nextGlance : Nat
  current : Option Nat
  /-- The glances that qualified and are kept. -/
  glances : List Nat
  pattern : Nat → Pattern
  nextPattern : Nat
  repeated : Nat
  offscreen : List (GazeDirection × Nat)
  lastScore : ℚ
  /-- Which glance was attributed to which pattern, in order; no function reads it. -/
  attached : List (Nat × Nat)
  /-- All glances that qualified since the last reset; no function reads it. -/
  qualified : List Nat
  /-- What was sent, beside the pattern that it is of. -/
  out : List (Nat × GazeUpdate)

namespace GazeState

variable (cfg : GazeConfig) (s : GazeState)

def setGlance (g : Nat) (glance : Glance) : GazeState :=
  { s with glance := Function.update s.glance g glance }

def setPattern (p : Nat) (pattern : Pattern) : GazeState :=
  { s with pattern := Function.update s.pattern p pattern }

def newPattern (pattern : Pattern) : GazeState :=
  { s.setPattern s.nextPattern pattern with nextPattern := s.nextPattern + 1 }

def new : GazeState where
  book := .new cfg.book
  glance _ := .new 0 0
  nextGlance := 0
  current := none
  glances := []
  pattern _ := .new .repeated 0 ⟨0, 0⟩ .left
  nextPattern := 1
  repeated := 0
  offscreen := []
  lastScore := 1
  attached := []
  qualified := []
  out := []

/-! ## Patterns -/

/-- Glance `g` is attributed to pattern `p`. -/
def attach (kind : PatternKind) (p g : Nat) : GazeState :=
  let pat := s.pattern p
  let firstStart := if pat.count = 0 then (s.glance g).start else pat.firstStart
  let glances := pat.glances ++ [g]
  let glances := if MAX_PATTERN_GLANCES < glances.length then glances.tail else glances
  let s := s.setGlance g { s.glance g with attr := some kind, owner := some p }
  let s := s.setPattern p { pat with firstStart := firstStart, count := pat.count + 1, glances := glances }
  { s with attached := s.attached ++ [(p, g)] }

def attachAll (kind : PatternKind) (p : Nat) (gs : List Nat) : GazeState :=
  gs.foldl (fun s g => s.attach kind p g) s

/-- How long a glance has lasted, in seconds. -/
def glanceSec (t : ℚ) (g : Nat) : ℚ := (((s.glance g).endedAt.getD t) - (s.glance g).start) / 1000

def patternData (p : Nat) (t : ℚ) (endedAt : Option ℚ) (closedBy : Option FlushReason) :
    EpisodeData GazeDetails :=
  let pat := s.pattern p
  let isOff := pat.key.isOff
  let gl := pat.glances
  let n := pat.count
  let durations := gl.map (s.glanceSec t)
  let first := if 0 < n then pat.firstStart else pat.startedAt
  let spanSec := (((gl.getLast?.bind fun g => (s.glance g).endedAt).getD t) - first) / 1000
  let threshold := if isOff then cfg.policy.sameDirectionCount else cfg.policy.repeatedLookAwayCount
  let minD := (durations.min?).getD 0
  let maxD := (durations.max?).getD 0
  let dirs := gl.map fun g => (s.glance g).dir
  { confidence :=
      min (95 / 100) (clamp01 ((if isOff then 65 / 100 else 6 / 10) + 7 / 100 * ((n : ℚ) - threshold)) *
        (7 / 10 + 3 / 10 * s.lastScore))
    details :=
      { durationSec := round1 ((endedAt.getD t - pat.startedAt) / 1000)
        count := n
        windowSec := cfg.policy.repeatedLookAwayWindowSec
        glances := (gl.drop (gl.length - MAX_LISTED)).map fun g =>
          ((s.glance g).start, round1 (s.glanceSec t g), (s.glance g).dir)
        maxGlanceSec := round1 maxD
        direction := if isOff then some pat.dir else none
        directions := if isOff then [] else dirs.eraseDups.map fun d => (d, dirs.count d)
        closedBy := closedBy }
    observation :=
      if isOff then
        "The candidate repeatedly looked in the same direction (" ++ directionText pat.dir ++
          "): " ++ toString n ++ " times within " ++ dur spanSec ++ "."
      else
        "The candidate looked away from the screen " ++ toString n ++ " times within " ++
          dur spanSec ++ " (each look " ++ oneDecimal minD ++ "–" ++ oneDecimal maxD ++ " s)." }

def openPattern (p : Nat) (type : EventType) (startedAt t : ℚ) : GazeState :=
  let pat := s.pattern p
  let (book, update, _) :=
    s.book.begin pat.key type startedAt t (s.patternData cfg p t none none) (toString pat.count)
  { s.setPattern p { pat with isOpen := true, startedAt := update.startedAt } with
    book := book, out := s.out ++ [(p, update)] }

def touchPattern (p : Nat) (t : ℚ) (peak : Bool) : GazeState :=
  let (book, u) :=
    s.book.touch (s.pattern p).key t (toString (s.pattern p).count) (s.patternData cfg p t none none) peak
  { s with book := book, out := s.out ++ u.toList.map fun u => (p, u) }

/-- The pattern's glances count no more. -/
def consume (p : Nat) : GazeState :=
  { s with
    glance := fun g =>
      if g ∈ (s.pattern p).glances ∨ g ∈ s.glances ∧ (s.glance g).owner = some p then
        { s.glance g with consumed := true }
      else s.glance g }

def closePattern (p : Nat) (t : ℚ) (closedBy : Option FlushReason) : GazeState :=
  let endedAt := ((s.pattern p).glances.getLast?.bind fun g => (s.glance g).endedAt).getD t
  let (book, u) := s.book.end (s.pattern p).key endedAt t
    (s.patternData cfg p t (some endedAt) closedBy)
  let s := { s with book := book, out := s.out ++ u.toList.map fun u => (p, u) }
  let pat := s.pattern p
  (s.consume p).setPattern p { pat with isOpen := false, glances := [], count := 0 }

def closeAfterMs (count : Nat) : ℚ :=
  min cfg.windowMs (max 20000 (3 / 2 * cfg.windowMs / max 1 (count : ℚ)))

def maybeClose (p : Nat) (t afterMs : ℚ) : GazeState :=
  match (s.pattern p).glances.getLast?.bind fun g => (s.glance g).endedAt with
  | none => s
  | some e => if afterMs ≤ t - e then s.closePattern cfg p t none else s

/-- The patterns toward a spot, in the order of the map. -/
def tracked : List Nat := s.offscreen.map Prod.snd

/-- Something is done with each of the patterns that is open when its turn comes. -/
def eachOpen (f : GazeState → Nat → GazeState) (ps : List Nat) : GazeState :=
  ps.foldl (fun s p => if (s.pattern p).isOpen then f s p else s) s

def maintain (t : ℚ) : GazeState :=
  let closing (count : Nat) (s : GazeState) (p : Nat) :=
    s.maybeClose cfg p t (closeAfterMs cfg count)
  let touching (s : GazeState) (p : Nat) := s.touchPattern cfg p t false
  let s := s.eachOpen (closing cfg.policy.repeatedLookAwayCount) [s.repeated]
  let s := s.eachOpen (closing cfg.policy.sameDirectionCount) s.tracked
  let s := s.eachOpen touching [s.repeated]
  s.eachOpen touching s.tracked

/-! ## Glances -/

/-- The open pattern toward the spot, the closest direction first. -/
def openOffscreenNear (spot : Spot) : Option Nat :=
  (s.tracked.foldl (fun (best : Option (Nat × ℚ)) p =>
    let d := angleDiff (s.pattern p).spot.ang spot.ang
    if (s.pattern p).isOpen && sameSpot (s.pattern p).spot spot &&
      best.all (d < ·.2) then some (p, d) else best)
    none).map Prod.fst

/-- The oldest glances go: finished ones outside the window, and what is more than `MAX_GLANCES`. -/
def trim (t : ℚ) (g : Nat) : List Nat → List Nat
  | [] => []
  | x :: xs =>
    if MAX_GLANCES < (x :: xs).length ∨
        (s.glance x).endedAt.isSome = true ∧ (s.glance x).start < t - cfg.windowMs ∧ x ≠ g then trim t g xs
    else x :: xs

def inWindow (t : ℚ) (x : Nat) : Bool :=
  !(s.glance x).consumed && decide (t - cfg.windowMs ≤ (s.glance x).start)

/-- The glances that make a pattern toward the spot of `g`. -/
def sameDirection (t : ℚ) (g : Nat) : List Nat :=
  s.glances.filter fun x =>
    inWindow cfg s t x && decide ((s.glance x).attr ≠ some .offscreen) &&
    sameSpot (s.glance x).spot (s.glance g).spot

/-- `Map.set`: a key that is there keeps its place. -/
def track (dir : GazeDirection) (p : Nat) : GazeState :=
  if s.offscreen.any (·.1 = dir) then
    { s with offscreen := s.offscreen.map fun e => if e.1 = dir then (dir, p) else e }
  else { s with offscreen := s.offscreen ++ [(dir, p)] }

/-- A pattern toward the spot of the glances `same` opens. -/
def openOffscreen (t : ℚ) (same : List Nat) : GazeState :=
  let ang := cfg.meanAngle (same.map fun x => (s.glance x).spot.ang)
  let dir := directionOfAngle ang
  let startedAt := ((same.head?).map fun x => (s.glance x).start).getD 0
  let radius := same.foldl (fun a x => a + (s.glance x).spot.radius) 0 / same.length
  let p := s.nextPattern
  let s := (s.newPattern (.new (.offscreen dir) startedAt ⟨ang, radius⟩ dir)).track dir p
  (s.attachAll .offscreen p same).openPattern cfg p .offscreenAttentionPattern startedAt t

/-- The pattern toward the spot of `g`: one that is open, or a new one. -/
def attributeOffscreen (t : ℚ) (g : Nat) : GazeState :=
  match s.openOffscreenNear (s.glance g).spot with
  | some p => (s.attach .offscreen p g).touchPattern cfg p t true
  | none =>
    let same := s.sameDirection cfg t g
    if cfg.policy.sameDirectionCount ≤ same.length then s.openOffscreen cfg t same else s

def repeatedPool (t : ℚ) : List Nat :=
  s.glances.filter fun x =>
    inWindow cfg s t x && !(s.glance x).sustained && decide ((s.glance x).attr = none) &&
      (s.openOffscreenNear (s.glance x).spot).isNone

def openRepeated (t : ℚ) (pool : List Nat) : GazeState :=
  let startedAt := ((pool.head?).map fun x => (s.glance x).start).getD 0
  let p := s.nextPattern
  let s := { s.newPattern (.new .repeated startedAt ⟨0, 0⟩ .left) with repeated := p }
  (s.attachAll .repeated p pool).openPattern cfg p .repeatedLookingAway startedAt t

/-- The pattern of looks in any direction. -/
def attributeRepeated (t : ℚ) (g : Nat) : GazeState :=
  if (s.pattern s.repeated).isOpen then (s.attach .repeated s.repeated g).touchPattern cfg
    s.repeated t false
  else
    let pool := s.repeatedPool cfg t
    if cfg.policy.repeatedLookAwayCount ≤ pool.length then s.openRepeated cfg t pool else s

/-- The glance has lasted long enough to be noted. -/
def note (spot : Spot) (t : ℚ) (g : Nat) : GazeState :=
  let s := s.setGlance g { s.glance g with qualified := true, spot := spot, dir := directionOfAngle spot.ang }
  { s with glances := trim cfg s t g (s.glances ++ [g]), qualified := s.qualified ++ [g] }

def qualify (spot : Spot) (t : ℚ) (g : Nat) : GazeState :=
  let s := (s.note cfg spot t g).attributeOffscreen cfg t g
  if (s.glance g).attr = some .offscreen then s else s.attributeRepeated cfg t g

def finalize (g : Nat) (endedAt : ℚ) : GazeState :=
  let e := max endedAt (s.glance g).lastAway
  let sustained := (s.glance g).sustained ||
    (s.glance g).qualified && decide (cfg.policy.lookAwaySec * 1000 ≤ e - (s.glance g).start)
  { s.setGlance g { s.glance g with endedAt := some e, sustained := sustained } with
    current := if s.current = some g then none else s.current }

end GazeState

/-- What a tick says of the candidate's attention. -/
structure GazeTick where
  t : ℚ
  /-- `none`: it could not be assessed. -/
  away : Option Bool
  /-- The face's score, when it was assessed. -/
  score : Option ℚ
  /-- When a look began that was excused until now. -/
  since : Option ℚ
  /-- The mean of the glance's attention vectors, with this one. -/
  mean : Spot
  /-- The glance is no look up, or is far enough up. -/
  eligible : Bool

namespace GazeState

variable (cfg : GazeConfig) (s : GazeState)

/-- A glance that was last seen too long ago is over. -/
def endGap (t : ℚ) : GazeState :=
  match s.current with
  | some g =>
    if GLANCE_GAP_MS < t - (s.glance g).lastAway then
      s.finalize cfg g ((s.glance g).firstNonAway.getD (s.glance g).lastAway)
    else s
  | none => s

/-- The glance of an away tick: the current one, or a new one. -/
def glanceOf (x : GazeTick) : GazeState × Nat :=
  match s.current with
  | some g => (s, g)
  | none =>
    ({ s.setGlance s.nextGlance (.new (x.since.getD x.t) x.t) with
        nextGlance := s.nextGlance + 1, current := some s.nextGlance }, s.nextGlance)

/-- The glance qualifies on this tick. -/
def qualifies (x : GazeTick) (g : Nat) : Bool :=
  !(s.glance g).qualified && decide (cfg.policy.glanceMinSec * 1000 ≤ x.t - (s.glance g).start) && x.eligible

def segmentAway (x : GazeTick) : GazeState :=
  let (s, g) := (s.endGap cfg x.t).glanceOf x
  let s := s.setGlance g { s.glance g with lastAway := x.t, firstNonAway := none }
  let s := if s.qualifies cfg x g then s.qualify cfg x.mean x.t g else s
  if (s.glance g).qualified && !(s.glance g).sustained &&
      decide (cfg.policy.lookAwaySec * 1000 ≤ x.t - (s.glance g).start) then
    s.setGlance g { s.glance g with sustained := true }
  else s

/-- A single tick that is not away is tolerated inside a glance. -/
def segmentOther (t : ℚ) : GazeState :=
  match s.current with
  | none => s
  | some g =>
    let first := (s.glance g).firstNonAway.getD t
    let s := s.setGlance g { s.glance g with firstNonAway := some first }
    if GLANCE_GAP_MS < t - (s.glance g).lastAway then s.finalize cfg g first else s

def step (x : GazeTick) : GazeState :=
  if cfg.policy.lookingAway then
    let s := { s with lastScore := x.score.getD s.lastScore, out := [] }
    let s := if x.away = some true then s.segmentAway cfg x else s.segmentOther cfg x.t
    s.maintain cfg x.t
  else { s with out := [] }

def reset : GazeState :=
  { s.newPattern (.new .repeated 0 ⟨0, 0⟩ .left) with
    current := none, glances := [], repeated := s.nextPattern, offscreen := [], qualified := [] }

/-- A look that goes on is over. -/
def endCurrent (t : ℚ) : GazeState :=
  match s.current with
  | some g => s.finalize cfg g ((s.glance g).firstNonAway.getD t)
  | none => s

def flush (t : ℚ) (reason : FlushReason) : GazeState :=
  let s := endCurrent cfg { s with out := [] } t
  let closing (s : GazeState) (p : Nat) := s.closePattern cfg p t (some reason)
  let s := s.eachOpen closing [s.repeated]
  let s := s.eachOpen closing s.tracked
  s.reset

end GazeState

/-- What the engine does with the detector. -/
inductive GazeAction where
  | ingest (x : GazeTick)
  | flush (t : Option ℚ) (reason : FlushReason)

structure GazeEngine where
  gaze : GazeState
  /-- `none` before the first tick. -/
  lastT : Option ℚ

namespace GazeEngine

variable (cfg : GazeConfig) (e : GazeEngine)

def new : GazeEngine := ⟨.new cfg, none⟩

/-- The engine leaves out a tick that is no later than the last one. -/
def accepts (t : ℚ) : Bool := e.lastT.all (· < t)

def step : GazeAction → GazeEngine
  | .ingest x => if e.accepts x.t then ⟨e.gaze.step cfg x, some x.t⟩ else ⟨{ e.gaze with out := [] }, e.lastT⟩
  | .flush t reason =>
    match t, e.lastT with
    | some t, l =>
      let gaze := e.gaze.flush cfg (max t (l.getD t)) reason
      ⟨{ gaze with book := gaze.book.forgetClosed }, l⟩
    | none, some l =>
      let gaze := e.gaze.flush cfg l reason
      ⟨{ gaze with book := gaze.book.forgetClosed }, some l⟩
    -- nothing was seen, so nothing is open
    | none, none => ⟨{ e.gaze.reset with out := [], book := e.gaze.book.forgetClosed }, none⟩

end GazeEngine

end SmartProctoring
