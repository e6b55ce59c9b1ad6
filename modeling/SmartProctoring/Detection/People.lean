import SmartProctoring.Detection.Episodes
import SmartProctoring.Lib.Run
import SmartProctoring.Shared.Policy

/-!
# More than one person in view

`MultiplePeopleDetector` of `engine/detectors/people.ts`, with the parts of `ingest` and `flush` of
`engine/engine.ts` around it.  Two paths feed one episode: faces, at every tick, and persons, at the
ticks at which the object detector ran.  The episode starts with the path that begins first and ends
when both are over.

What the detector calls on its host is listed in `HostCall`.  Scores that are not finite are `none`.
-/

set_option autoImplicit false

namespace SmartProctoring

/-- What the detector reads of the policy. -/
structure PeoplePolicy where
  enabled : Bool
  multiplePeopleSec : ℚ
  clearSec : ℚ

namespace PeoplePolicy

variable (policy : PeoplePolicy)

def faceParams : DebounceParams where
  onsetMs := policy.multiplePeopleSec * 1000
  clearMs := policy.clearSec * 1000
  minFraction := 7 / 10
  gapTolMs := 600
  minTicks := 3

def personParams : DebounceParams where
  onsetMs := max (policy.multiplePeopleSec * 1000) 900
  clearMs := max (policy.clearSec * 1000) 2500
  minFraction := 6 / 10
  gapTolMs := 2500
  minTicks := 2

end PeoplePolicy

structure ObjectObservation where
  label : String
  score : ℚ

/-- What the detector reads of a tick: a face is its score. -/
structure PeopleContext where
  t : ℚ
  visionOk : Bool
  faces : List (Option ℚ)
  objectsRan : Bool
  persons : Option Nat
  objects : Option (List ObjectObservation)

namespace PeopleContext

variable (ctx : PeopleContext)

def faceCount : Nat := ctx.faces.length

/-- What the face path observes at the tick. -/
def vf : Option Bool := if ctx.visionOk then some (decide (2 ≤ ctx.faceCount)) else none

/-- What the person path observes at a tick at which the object detector ran. -/
def vp : Option Bool := if ctx.visionOk then some (decide (2 ≤ ctx.persons.getD 0)) else none

def secondScore : Option ℚ := if 2 ≤ ctx.faceCount then (ctx.faces[1]?).getD none else some 1

/-- The best score of a person box. -/
def best : ℚ :=
  let best :=
    match ctx.objects with
    | some objects => ((objects.filter (·.label = "person")).map (·.score)).foldl max 0
    | none => 1
  if best = 0 then 1 else best

end PeopleContext

structure PeopleDetails where
  durationSec : ℚ
  maxFaces : Nat
  maxPersons : Nat
  sources : List String
  closedBy : Option FlushReason

inductive HostCall where
  | episode (update : EpisodeUpdate PeopleDetails)
  | prompt (key : String) (on : Bool)
  | arm (trigger : IdentityCheckTrigger)

def peopleKey : String := "multiple_people"

structure MultiplePeopleDetector (policy : PeoplePolicy) where
  faces : Debouncer policy.faceParams
  persons : Debouncer policy.personParams
  isOpen : Bool
  epStart : ℚ
  faceStart : Option ℚ
  personStart : Option ℚ
  faceEnd : Option ℚ
  personEnd : Option ℚ
  maxFaces : Nat
  maxPersons : Nat
  peakPending : Bool

/-- The detector with the book of its host. -/
structure PeopleState (policy : PeoplePolicy) extends MultiplePeopleDetector policy where
  book : EpisodeBook String

namespace PeopleState

variable {policy : PeoplePolicy} (s : PeopleState policy)

def new (policy : PeoplePolicy) (cfg : BookConfig) : PeopleState policy where
  faces := .new policy.faceParams
  persons := .new policy.personParams
  isOpen := false
  epStart := 0
  faceStart := none
  personStart := none
  faceEnd := none
  personEnd := none
  maxFaces := 0
  maxPersons := 0
  peakPending := false
  book := .new cfg

def material : String := toString s.maxFaces ++ "|" ++ toString s.maxPersons

def data (t : ℚ) (endedAt : Option ℚ) : EpisodeData PeopleDetails :=
  let durationSec := round1 ((endedAt.getD t - s.epStart) / 1000)
  let sources :=
    (if 2 ≤ s.maxFaces then ["faces"] else []) ++
    (if 2 ≤ s.maxPersons then ["person_detector"] else [])
  let people := max (max s.maxFaces s.maxPersons) 2
  let conf := max (if s.faces.active ∨ 2 ≤ s.maxFaces then s.faces.confidence t none else 0)
    (if s.persons.active ∨ 2 ≤ s.maxPersons then s.persons.confidence t none else 0)
  { confidence := clamp01 (if conf = 0 then 6 / 10 else conf)
    details :=
      { durationSec := durationSec, maxFaces := s.maxFaces, maxPersons := s.maxPersons, sources := sources
        closedBy := none }
    observation :=
      if endedAt.isNone then toString people ++ " people are visible in the camera view."
      else "Up to " ++ toString people ++ " people were visible in the camera view for " ++
        dur durationSec ++ "." }

/-- A path turned on: it began at `start`, and has not ended. -/
def noteFaces : Option DebounceEvent → PeopleState policy
  | some (.onset start) => { s with faceStart := some start, faceEnd := none }
  | some (.clear endedAt) => { s with faceEnd := some endedAt }
  | none => s

def notePersons : Option DebounceEvent → PeopleState policy
  | some (.onset start) => { s with personStart := some start, personEnd := none }
  | some (.clear endedAt) => { s with personEnd := some endedAt }
  | none => s

/-- The counts start again when nothing is open or building. -/
def forgetCounts : PeopleState policy :=
  if !s.isOpen ∧ s.faces.idle ∧ s.persons.idle then { s with maxFaces := 0, maxPersons := 0 } else s

/-- More faces than before: a snapshot of an open episode is due. -/
def countFaces (ctx : PeopleContext) : PeopleState policy :=
  if ctx.vf = some true ∧ s.maxFaces < ctx.faceCount then
    { s with peakPending := s.isOpen || s.peakPending, maxFaces := ctx.faceCount }
  else s

def countPersons (ctx : PeopleContext) : PeopleState policy :=
  if ctx.objectsRan ∧ ctx.vp = some true ∧ s.maxPersons < ctx.persons.getD 0 then
    { s with peakPending := s.isOpen || s.peakPending, maxPersons := ctx.persons.getD 0 }
  else s

/-- `this.faces.step`. -/
def facesStep (ctx : PeopleContext) : Debouncer policy.faceParams × Option DebounceEvent :=
  s.faces.step ctx.t ctx.vf ctx.secondScore

/-- `this.persons.step`, or `this.persons.expire` at a tick without the object detector. -/
def personsStep (ctx : PeopleContext) : Debouncer policy.personParams × Option DebounceEvent :=
  if ctx.objectsRan then s.persons.step ctx.t ctx.vp (some ctx.best)
    else s.persons.expire ctx.t 6000

def stepFaces (ctx : PeopleContext) : PeopleState policy :=
  { s with faces := (s.facesStep ctx).1 }.noteFaces (s.facesStep ctx).2

def stepPersons (ctx : PeopleContext) : PeopleState policy :=
  { s with persons := (s.personsStep ctx).1 }.notePersons (s.personsStep ctx).2

/-- The episode starts. -/
def begin (startedAt t : ℚ) : PeopleState policy × List HostCall :=
  let (book, update, _) := s.book.begin peopleKey .multiplePeople startedAt t
    (s.data t none) s.material
  ({ s with book := book, epStart := update.startedAt, isOpen := true },
    [.episode update, .prompt peopleKey true])

/-- Both paths are over. -/
def «end» (endedAt t : ℚ) : PeopleState policy × List HostCall :=
  let (book, u) := s.book.end peopleKey endedAt t (s.data t (some endedAt))
  ({ s with book := book, isOpen := false },
    (u.map .episode).toList ++ [.prompt peopleKey false, .arm .afterMultiplePeople])

def touch (t : ℚ) : PeopleState policy × List HostCall :=
  let (book, u) := s.book.touch peopleKey t s.material (s.data t none) s.peakPending
  ({ s with book := book, peakPending := s.peakPending && u.all (·.captureSnapshot ≠ some .peak) },
    (u.map .episode).toList)

/-- The starts of the paths that are on. -/
def starts : List ℚ :=
  (if s.faces.active then s.faceStart.toList else []) ++
  (if s.persons.active then s.personStart.toList else [])

def anyActive : Bool := s.faces.active || s.persons.active

/-- `Math.max(faceEnd ?? -Infinity, personEnd ?? -Infinity, epStart)`. -/
def latestEnd : ℚ := max (max (s.faceEnd.getD s.epStart) (s.personEnd.getD s.epStart)) s.epStart

/-- What becomes of the episode when the paths have been stepped. -/
def settle (t : ℚ) : PeopleState policy × List HostCall :=
  if !s.isOpen && s.anyActive then
    match s.starts with
    -- a path that is on has noted when it began
    | [] => (s, [])
    | start :: starts => s.begin (starts.foldl min start) t
  else if s.isOpen && !s.anyActive then s.end s.latestEnd t
  else if s.isOpen then s.touch t
  else (s, [])

theorem settle_idle (t : ℚ) (ho : s.isOpen = false) (ha : s.anyActive = false) :
    s.settle t = (s, []) := by
  rw [settle, ho, ha]
  rfl

theorem settle_begin (t : ℚ) (ho : s.isOpen = false) (ha : s.anyActive = true) {start : ℚ}
    {starts : List ℚ}
    (hs : s.starts = start :: starts) : s.settle t = s.begin (starts.foldl min start) t := by
  rw [settle, ho, ha, hs]
  rfl

theorem settle_end (t : ℚ) (ho : s.isOpen = true) (ha : s.anyActive = false) :
    s.settle t = s.end s.latestEnd t := by
  rw [settle, ho, ha]
  rfl

theorem settle_touch (t : ℚ) (ho : s.isOpen = true) (ha : s.anyActive = true) :
    s.settle t = s.touch t := by
  rw [settle, ho, ha]
  rfl

/-- One tick. -/
def step (ctx : PeopleContext) : PeopleState policy × List HostCall :=
  if policy.enabled then
    ((((s.forgetCounts.countFaces ctx).countPersons ctx).stepFaces ctx).stepPersons ctx).settle ctx.t
  else (s, [])

def reset : PeopleState policy :=
  { s with
    faces := s.faces.reset, persons := s.persons.reset, isOpen := false, faceStart := none,
      personStart := none
    faceEnd := none, personEnd := none, maxFaces := 0, maxPersons := 0, peakPending := false }

/-- The end a flush gives the episode. -/
def flushEnd (t : ℚ) : ℚ := (s.faces.firstOff.or s.persons.firstOff).getD t

def flushData (t : ℚ) (reason : FlushReason) : EpisodeData PeopleDetails :=
  let d := s.data t (some t)
  { d with details := { d.details with closedBy := some reason } }

def flush (t : ℚ) (reason : FlushReason) : PeopleState policy × List HostCall :=
  if s.isOpen then
    let (book, u) := s.book.end peopleKey (s.flushEnd t) t (s.flushData t reason)
    ({ s with book := book }.reset, (u.map .episode).toList ++ [.prompt peopleKey false])
  else (s.reset, [])

end PeopleState

/-! ## The detector in the engine -/

inductive PeopleAction where
  | ingest (ctx : PeopleContext)
  /-- `none` for a time that is not a finite number. -/
  | flush (t : Option ℚ) (reason : FlushReason)

structure PeopleEngine (policy : PeoplePolicy) where
  people : PeopleState policy
  /-- `none` before the first tick. -/
  lastT : Option ℚ

namespace PeopleEngine

variable {policy : PeoplePolicy} (e : PeopleEngine policy)

def new (policy : PeoplePolicy) (cfg : BookConfig) : PeopleEngine policy := ⟨.new policy cfg, none⟩

/-- The engine leaves out a tick that is no later than the last one. -/
def Accepts (t : ℚ) : Prop := ∀ l ∈ e.lastT, l < t

instance (t : ℚ) : Decidable (e.Accepts t) :=
  decidable_of_iff (e.lastT.all (· < t) = true) (by simp [Accepts, Option.all_eq_true])

/-- The time of a flush. -/
def flushTime (t : Option ℚ) : Option ℚ :=
  match t with
  | some t => some (max t (e.lastT.getD t))
  | none => e.lastT

def step : PeopleAction → PeopleEngine policy × List HostCall
  | .ingest ctx =>
    if e.Accepts ctx.t then
      let (people, calls) := e.people.step ctx
      (⟨people, some ctx.t⟩, calls)
    else (e, [])
  | .flush t reason =>
    match e.flushTime t with
    | some t =>
      let (people, calls) := e.people.flush t reason
      (⟨{ people with book := people.book.forgetClosed }, e.lastT⟩, calls)
    -- nothing was seen, so nothing is open
    | none => (⟨{ e.people.reset with book := e.people.book.forgetClosed }, none⟩, [])

end PeopleEngine

end SmartProctoring
