import Mathlib.Data.Int.Order.Basic
import Mathlib.Order.Lattice
import Mathlib.Tactic.Common

/-!
# The exam session: statuses, periods and the exam clock

The vocabulary of `packages/shared/src/session.ts`.  A session moves between the `SessionStatus`es,
its timeline is a list of periods of some `PeriodKind`, and the time the candidate has left is kept
by an `ExamClock`: a duration, the time consumed in completed running segments, and the instant the
current segment began when the clock is running.

Times are epoch milliseconds and durations are milliseconds, both plain `Int`s, so that subtraction
is the source's; nothing is assumed about their sign.

## What is here

* the enumerations, with the lists the code tests membership in (`TERMINAL_STATUSES`,
  `OBSERVED_PERIOD_KINDS`);
* the clock functions, in the source's order and under its names;
* the arithmetic every later file needs: how `clockStop` and `clockStart` act on each component,
  what is consumed when the clock runs out, and `ExamClock.runsOutAt`, the instant it does.
-/

set_option autoImplicit false

namespace SmartProctoring

/-! ## Lifecycle enumerations -/

inductive SessionStatus
  | invited | ready | active | paused | onHold | submitted | terminated
  deriving DecidableEq

def TERMINAL_STATUSES : List SessionStatus := [.submitted, .terminated]

/-- The exam has ended. -/
abbrev SessionStatus.isTerminal (s : SessionStatus) : Prop := s ∈ TERMINAL_STATUSES

theorem SessionStatus.isTerminal_iff {s : SessionStatus} :
    s.isTerminal ↔ s = .submitted ∨ s = .terminated := by
  simp [isTerminal, TERMINAL_STATUSES]

inductive ConnectionStatus
  | online | offline | neverConnected
  deriving DecidableEq

inductive HoldReason
  | identityMismatch | identityUnverifiable | idPhotoMismatch | pauseLimit | staff
  | idPhotoUnverifiable | staffVerification | resumeLimit | recovery | additionalDisplay
  deriving DecidableEq

/-- `END_REASONS` and `SYSTEM_END_REASONS` together. -/
inductive SessionEndReason
  | candidateSubmitted | timeExpired | staffSubmitted | staffTerminated | candidateWithdrew
  | abandoned | resumeLimit
  deriving DecidableEq

inductive PeriodKind
  | checkIn | active | paused | disconnected | onHold | resumeCheck
  deriving DecidableEq

def OBSERVED_PERIOD_KINDS : List PeriodKind := [.checkIn, .active, .resumeCheck]

inductive CheckPurpose
  | initial | resume | reconnect | reverify
  deriving DecidableEq

/-- `policy.pause.timerBehavior` and `policy.connection.disconnectTimerBehavior`. -/
inductive TimerBehavior
  | stop | continue
  deriving DecidableEq

/-! ## The exam clock -/

/-- Exam clock.  `usedMs` is the time consumed in completed running segments, `runningSince` the
start of the current one, or `none` if the clock is stopped. -/
structure ExamClock where
  durationMs : Int
  usedMs : Int
  runningSince : Option Int

/-- The length of the current running segment at `now`. -/
def clockRunningMs (clock : ExamClock) (now : Int) : Int :=
  match clock.runningSince with
  | some rs => max 0 (now - rs)
  | none => 0

def clockRemainingMs (clock : ExamClock) (now : Int) : Int :=
  max 0 (clock.durationMs - clock.usedMs - clockRunningMs clock now)

def clockUsedMs (clock : ExamClock) (now : Int) : Int :=
  min clock.durationMs (clock.usedMs + clockRunningMs clock now)

def clockStart (clock : ExamClock) (now : Int) : ExamClock :=
  match clock.runningSince with
  | some _ => clock
  | none => { clock with runningSince := some now }

def clockStop (clock : ExamClock) (now : Int) : ExamClock :=
  match clock.runningSince with
  | none => clock
  | some _ => { clock with usedMs := clockUsedMs clock now, runningSince := none }

def clockExpired (clock : ExamClock) (now : Int) : Bool :=
  decide (clockRemainingMs clock now ≤ 0)

/-- The instant a clock running since `rs` runs out, if it is left alone. -/
def ExamClock.runsOutAt (clock : ExamClock) (rs : Int) : Int :=
  rs + clock.durationMs - clock.usedMs

/-! ## How the clock functions act -/

section

variable (c : ExamClock) (now : Int)
include c now

@[simp] theorem clockStart_durationMs : (clockStart c now).durationMs = c.durationMs := by
  rw [clockStart]; split <;> rfl

@[simp] theorem clockStart_usedMs : (clockStart c now).usedMs = c.usedMs := by
  rw [clockStart]; split <;> rfl

theorem clockStart_runningSince :
    (clockStart c now).runningSince = some (c.runningSince.getD now) := by
  rw [clockStart]
  cases h : c.runningSince with
  | none => rfl
  | some rs => simpa using h

@[simp] theorem clockStop_durationMs : (clockStop c now).durationMs = c.durationMs := by
  rw [clockStop]; split <;> rfl

@[simp] theorem clockStop_runningSince : (clockStop c now).runningSince = none := by
  rw [clockStop]
  split
  · assumption
  · rfl

end

variable {c : ExamClock} {rs now : Int}

theorem clockStop_usedMs_of_running (hrs : c.runningSince = some rs) (h : rs ≤ now) :
    (clockStop c now).usedMs = c.usedMs + (min now (c.runsOutAt rs) - rs) := by
  simp only [clockStop, clockUsedMs, clockRunningMs, hrs, ExamClock.runsOutAt]
  omega

theorem clockStop_usedMs_bounds (h : c.usedMs ≤ c.durationMs) (now : Int) :
    c.usedMs ≤ (clockStop c now).usedMs ∧ (clockStop c now).usedMs ≤ c.durationMs := by
  rw [clockStop]
  split
  · exact ⟨le_rfl, h⟩
  next rs hrs =>
    simp only [clockUsedMs, clockRunningMs, hrs]
    omega

theorem clockStop_of_stopped (h : c.runningSince = none) (now : Int) :
    clockStop c now = c := by
  rw [clockStop, h]

theorem clockStart_of_running (h : c.runningSince = some rs)
    (now : Int) : clockStart c now = c := by
  rw [clockStart, h]

theorem clockExpired_iff :
    clockExpired c now = true ↔ c.durationMs ≤ c.usedMs + clockRunningMs c now := by
  rw [clockExpired, decide_eq_true_iff, clockRemainingMs]
  omega

theorem clockExpired_iff_of_running (hrs : c.runningSince = some rs) (h : rs ≤ now) :
    clockExpired c now = true ↔ c.runsOutAt rs ≤ now := by
  rw [clockExpired_iff]
  simp only [clockRunningMs, hrs, ExamClock.runsOutAt]
  omega

end SmartProctoring
