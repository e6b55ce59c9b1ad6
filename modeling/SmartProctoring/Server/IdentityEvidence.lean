import Mathlib.Data.List.ReduceOption
import SmartProctoring.Server.CandidateState

/-!
# The sampling cadence and its watchdog

The last section of `services/identity-evidence.ts`: how long until the next routine identity
sample (`nextSampleDelayMs`), whether samples are overdue (`sampleWatchdog`), and the sample the
server asks for with a heartbeat (`identitySampleRequest`).  All three are functions of the session
row, so the single-statement heartbeat can answer them too.
-/

set_option autoImplicit false

namespace SmartProctoring

namespace CADENCE

/-- While `suspect`: the next burst after this long. -/
def suspectMs : Int := 2500

/-- While `monitoring`, or while a flagged mismatch is open: at most this long. -/
def monitoringMs : Int := 5000

/-- After an unusable sample: at most this long. -/
def unusableMs : Int := 10000

/-- A requested faster sample is late after this long. -/
def lateAfterMs : Int := 6000

end CADENCE

namespace SAMPLE_WATCHDOG

def requestAfterIntervals : Int := 3
def observeAfterIntervals : Int := 6
def minObserveMs : Int := 60000

end SAMPLE_WATCHDOG

def inStartupWindow (policy : IdentityPolicy) (activeSince : Option Int) (now : Int) : Bool :=
  activeSince.any fun since => decide (now - since < policy.startupWindowSec.secMs)

/-- Server-driven delay until the next routine sample. -/
def nextSampleDelayMs (policy : IdentityPolicy) (activeSince : Option Int)
    (acc : EvidenceAccumulator) (now : Int) : Int :=
  let ms :=
    if inStartupWindow policy activeSince now then policy.startupIntervalSec.secMs
    else policy.periodicCheckIntervalSec.secMs
  let ms :=
    match acc.state with
    | .suspect => min ms CADENCE.suspectMs
    | .monitoring | .confirmedMismatch => min ms CADENCE.monitoringMs
    | .consistent => ms
  if 0 < acc.unusableStreak then min ms CADENCE.unusableMs else ms

inductive WatchdogVerdict
  | ok | request | unanswered
  deriving DecidableEq

/-- The latest of the given instants; `none` when there is none. -/
def latest (instants : List (Option Int)) : Option Int := instants.reduceOption.max?

/-- `request` / `unanswered` when samples are overdue; `ok` otherwise. -/
def sampleWatchdog (policy : IdentityPolicy) (state : IdentityEngineState) (now : Int) :
    WatchdogVerdict :=
  -- silence since the latest sample (server receipt time, else its capture time) or the period start
  match latest [state.lastSampleReceivedAt, state.evidence.lastSampleAt, state.activeSince] with
  | none => .ok
  | some last =>
    let interval :=
      max (nextSampleDelayMs policy state.activeSince state.evidence now) (state.cadenceMs.getD 0)
    let quiet := now - last
    if quiet > max (SAMPLE_WATCHDOG.observeAfterIntervals * interval)
        SAMPLE_WATCHDOG.minObserveMs then .unanswered
    else if quiet > SAMPLE_WATCHDOG.requestAfterIntervals * interval then .request
    else .ok

/-- A server request for an identity sample (burst), to be taken at once. -/
structure IdentitySampleRequest where
  trigger : IdentityCheckTrigger
  inMs : Int := 0
  burstSize : Nat

/-- The identity sample the server wants right now: after a (re)start until a sample arrives, while
the evidence is suspect and the faster sample is late, or when the watchdog finds samples
overdue. -/
def identitySampleRequest (status : SessionStatus) (state : IdentityEngineState)
    (policy : IdentityPolicy) (now : Int) : Option IdentitySampleRequest :=
  let request (trigger : IdentityCheckTrigger) : Option IdentitySampleRequest :=
    some { trigger, burstSize := burstSizeFor trigger policy }
  if status ≠ .active ∨ policy.verification = .staff then none
  else
    match state.sampleRequest with
    | some r => request r.trigger
    | none =>
      if state.evidence.state = .suspect ∧
          state.evidence.lastSampleAt.any (fun t => decide (CADENCE.lateAfterMs ≤ now - t)) then
        request .serverRequest
      else if sampleWatchdog policy state now ≠ .ok then request .serverRequest
      else none

end SmartProctoring
