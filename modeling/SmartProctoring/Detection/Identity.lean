import Mathlib.Algebra.Order.Ring.Rat

/-!
# When an identity sample is asked for

`IdentityScheduler` of `engine/identity.ts`: the detectors arm triggers, one trigger is pending at a
time, and a tick with a face that has been sampleable for long enough asks for a sample of it, or
for a routine one that is due.  Beside it the slot of the possible swaps in
`detectors/continuity.ts`: two of them are armed at least `minGapMs` apart, and one that comes
sooner is deferred.

What the continuity detector finds in the frames is an input of a tick (`fire`), as are the calls of
the host.  A due time and a time of a sample that are not finite numbers do not reach the scheduler.
-/

set_option autoImplicit false

namespace SmartProctoring

inductive IdentityTrigger where
  | trackBreak | appearanceChange | cameraReconnect | afterMultiplePeople | faceReturn | afterObstruction | periodic
  deriving DecidableEq

def triggerPriority : IdentityTrigger → Nat
  | .trackBreak => 7
  | .appearanceChange => 6
  | .cameraReconnect => 5
  | .afterMultiplePeople => 4
  | .faceReturn => 3
  | .afterObstruction => 2
  | .periodic => 1

def STABLE_MS : ℚ := 600

def FAST_STABLE_MS : ℚ := 300

/-- The triggers of a possible quick swap. -/
def FAST : List IdentityTrigger := [.trackBreak, .appearanceChange]

structure IdentitySchedulerOptions where
  intervalMs : ℚ
  startupIntervalMs : Option ℚ
  startupWindowMs : Option ℚ

/-- The intervals as a scheduler keeps them. -/
structure IdentityPace where
  intervalMs : ℚ
  startupIntervalMs : ℚ
  startupWindowMs : ℚ

def IdentityPace.new (o : IdentitySchedulerOptions) : IdentityPace where
  intervalMs := max 0 o.intervalMs
  startupIntervalMs :=
    match o.startupIntervalMs with
    | some s => if 0 < s then s else max 0 o.intervalMs
    | none => max 0 o.intervalMs
  startupWindowMs := max 0 (o.startupWindowMs.getD 0)

structure IdentityScheduler where
  pace : IdentityPace
  pending : Option IdentityTrigger
  lastSampleAt : Option ℚ
  stableSince : Option ℚ
  startedAt : Option ℚ
  hostDueAt : Option ℚ

namespace IdentityScheduler

variable (s : IdentityScheduler)

def new (pace : IdentityPace) : IdentityScheduler := ⟨pace, none, none, none, none, none⟩

def arm (trigger : IdentityTrigger) : IdentityScheduler :=
  if s.pending.all fun p => triggerPriority p < triggerPriority trigger
    then { s with pending := some trigger } else s

/-- The routine interval at time `t`. -/
def interval (t : ℚ) : ℚ :=
  if s.pace.intervalMs ≤ 0 then 0
  else if 0 < s.pace.startupWindowMs ∧ s.startedAt.any (t - · < s.pace.startupWindowMs) = true then
    s.pace.startupIntervalMs
  else s.pace.intervalMs

/-- When the next routine sample is due. -/
def dueAt (t : ℚ) : Option ℚ :=
  match s.hostDueAt, s.lastSampleAt with
  | some host, _ => some host
  | none, none => none
  | none, some last => if 0 < s.interval (min t last) then some (last + s.interval (min t last)) else none

/-- The host says when the next routine sample is due. -/
def scheduleNext (at' : Option ℚ) : IdentityScheduler := { s with hostDueAt := at' }

/-- The host took a sample itself. -/
def noteSample (t : ℚ) : IdentityScheduler := { s with lastSampleAt := some t, hostDueAt := none }

/-- How long the face must have been sampleable. -/
def need : Option IdentityTrigger → ℚ
  | some p => if p ∈ FAST then FAST_STABLE_MS else STABLE_MS
  | none => STABLE_MS

/-- What a tick notes before it decides. -/
def note (t : ℚ) (sampleable : Bool) : IdentityScheduler :=
  { s with
    startedAt := some (s.startedAt.getD t)
    lastSampleAt := some (s.lastSampleAt.getD t)
    stableSince := if sampleable then some (s.stableSince.getD t) else none }

/-- What is to be sampled, when the face is stable: the pending trigger, else a routine sample that
is due. -/
def wanted (t : ℚ) : Option IdentityTrigger :=
  match s.pending with
  | some p => some p
  | none => if (s.dueAt t).any (· ≤ t) then some .periodic else none

def step (t : ℚ) (sampleable : Bool) : IdentityScheduler × Option IdentityTrigger :=
  let s := s.note t sampleable
  if s.stableSince.any (need s.pending ≤ t - ·) then
    match s.wanted t with
    | some trigger => ({ s with pending := none, lastSampleAt := some t, hostDueAt := none }, some trigger)
    | none => (s, none)
  else (s, none)

/-- Pause and stop. -/
def reset : IdentityScheduler := new s.pace

end IdentityScheduler

/-! ## Possible swaps -/

inductive SwapTrigger where
  | trackBreak | appearanceChange
  deriving DecidableEq

def SwapTrigger.trigger : SwapTrigger → IdentityTrigger
  | .trackBreak => .trackBreak
  | .appearanceChange => .appearanceChange

/-- `CONTINUITY.minGapMs` -/
def SwapTrigger.minGapMs : ℚ := 4000

/-- What the continuity detector keeps of the swaps it has seen; `none` is also the `-Infinity` of
`lastFiredAt`. -/
structure SwapSlot where
  lastFiredAt : Option ℚ
  deferred : Option SwapTrigger

namespace SwapSlot

variable (s : SwapSlot)

def new : SwapSlot := ⟨none, none⟩

/-- The rate limit lets another trigger pass. -/
def passes (t : ℚ) : Bool := s.lastFiredAt.all (SwapTrigger.minGapMs ≤ t - ·)

/-- A swap was seen: with the trigger to arm now, if any. -/
def request (fire : SwapTrigger) (t : ℚ) : SwapSlot × Option SwapTrigger :=
  if s.passes t then ({ s with lastFiredAt := some t }, some fire)
  else if s.deferred.all fun d => triggerPriority d.trigger < triggerPriority fire.trigger then
    ({ s with deferred := some fire }, none)
  else (s, none)

def releaseDeferred (t : ℚ) : SwapSlot × Option SwapTrigger :=
  match s.deferred with
  | some d => if s.passes t then (⟨some t, none⟩, some d) else (s, none)
  | none => (s, none)

/-- A tick: what was deferred first, then what was seen.  With the trigger that it arms. -/
def tick (t : ℚ) (fire : Option SwapTrigger) : SwapSlot × Option SwapTrigger :=
  let (s, released) := s.releaseDeferred t
  match fire with
  | some fire => let (s, armed) := s.request fire t; (s, released.or armed)
  | none => (s, released)

end SwapSlot

/-! ## The engine, as far as it is about identity samples -/

inductive IdentityAction where
  /-- Another detector arms a trigger. -/
  | arm (trigger : IdentityTrigger)
  /-- Another camera is in use. -/
  | cameraChanged
  | tick (t : ℚ) (sampleable : Bool) (fire : Option SwapTrigger)
  | scheduleNext (at' : Option ℚ)
  | noteSample (t : ℚ)
  | flush

structure IdentityEngine where
  scheduler : IdentityScheduler
  swaps : SwapSlot
  lastT : Option ℚ

/-- What comes of an action: the possible swap that it arms, the sample that it asks for. -/
structure IdentityReaction where
  armed : Option SwapTrigger := none
  sample : Option IdentityTrigger := none

namespace IdentityEngine

variable (e : IdentityEngine)

def new (pace : IdentityPace) : IdentityEngine := ⟨.new pace, .new, none⟩

/-- A frame that is not later than the last is not looked at. -/
def takes (t : ℚ) : Bool := e.lastT.all (· < t)

def tick (t : ℚ) (sampleable : Bool) (fire : Option SwapTrigger) :
    IdentityEngine × IdentityReaction :=
  let (swaps, armed) := e.swaps.tick t fire
  let scheduler := armed.elim e.scheduler fun a => e.scheduler.arm a.trigger
  let (scheduler, sample) := scheduler.step t sampleable
  (⟨scheduler, swaps, some t⟩, ⟨armed, sample⟩)

def step : IdentityAction → IdentityEngine × IdentityReaction
  | .arm trigger => ({ e with scheduler := e.scheduler.arm trigger }, {})
  | .cameraChanged => ({ e with scheduler := e.scheduler.arm .cameraReconnect, swaps := .new }, {})
  | .tick t sampleable fire => if e.takes t then e.tick t sampleable fire else (e, {})
  | .scheduleNext at' => ({ e with scheduler := e.scheduler.scheduleNext at' }, {})
  | .noteSample t => ({ e with scheduler := e.scheduler.noteSample t }, {})
  | .flush => ({ e with scheduler := e.scheduler.reset, swaps := .new }, {})

end IdentityEngine

end SmartProctoring
