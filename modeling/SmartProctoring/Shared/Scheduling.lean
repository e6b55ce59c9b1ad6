import SmartProctoring.Shared.Session

/-!
# Scheduling windows and reopening for recovery

`packages/shared/src/scheduling.ts`.  A session may carry a window; `windowPhase` says where an
instant falls relative to it.  `reopenEligibility` holds the rules under which staff may reopen an
ended exam, as the server enforces them.
-/

set_option autoImplicit false

namespace SmartProctoring

/-! ## Windows -/

/-- A session's scheduling window.  Either bound may be open (`none`). -/
structure SessionWindow where
  startsAt : Option Int
  endsAt : Option Int

/-- The check-in may begin this long before the window opens. -/
def CHECK_IN_LEAD_MS : Int := 30 * 60000

inductive WindowPhase
  | beforeCheckIn | checkIn | open | closed
  deriving DecidableEq

def windowPhase (w : SessionWindow) (now : Int) : WindowPhase :=
  if w.endsAt.any (fun e => decide (e ≤ now)) then .closed
  else if w.startsAt.any (fun s => decide (now < s - CHECK_IN_LEAD_MS)) then .beforeCheckIn
  else if w.startsAt.any (fun s => decide (now < s)) then .checkIn
  else .open

/-! ## Reopen for recovery -/

/-- End reasons after which staff may reopen an exam for recovery. -/
def REOPENABLE_END_REASONS : List SessionEndReason :=
  [.timeExpired, .staffSubmitted, .staffTerminated, .abandoned, .resumeLimit]

/-- A reopened exam that has started must have at least this much time left. -/
def REOPEN_MIN_REMAINING_MS : Int := 60000

inductive ReopenRefusal
  | notEnded | candidateSubmitted | consentWithdrawn | endReason | evidencePurged
  | referenceMissing | reviewResolved
  deriving DecidableEq

structure ReopenFacts where
  status : SessionStatus
  endReason : Option SessionEndReason
  startedAt : Option Int
  evidencePurgedAt : Option Int
  /-- A usable identity reference exists. -/
  hasReference : Bool
  staffVerified : Bool
  reviewResolved : Bool

/-- Why an ended exam may not be reopened for recovery; `none` when it may. -/
def reopenEligibility (f : ReopenFacts) : Option ReopenRefusal :=
  if ¬ f.status.isTerminal then some .notEnded
  else if f.endReason = some .candidateSubmitted then some .candidateSubmitted
  else if f.endReason = some .candidateWithdrew then some .consentWithdrawn
  else if ¬ f.endReason.any (fun r => decide (r ∈ REOPENABLE_END_REASONS)) then some .endReason
  else if f.evidencePurgedAt.isSome then some .evidencePurged
  else if f.reviewResolved then some .reviewResolved
  else if f.startedAt.isSome ∧ ¬ f.staffVerified ∧ ¬ f.hasReference then some .referenceMissing
  else none

theorem reopenEligibility_terminal {f : ReopenFacts} (h : reopenEligibility f = none) :
    f.status.isTerminal := by
  by_contra hs
  simp [reopenEligibility, hs] at h

end SmartProctoring
