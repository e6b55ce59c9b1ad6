import SmartProctoring.Server.CandidateActions

/-!
# The background sweeper

`jobs/sweeper.ts`, for one session: heartbeat timeouts, clock expiry, stale checks and the offline
limit, in this order.  Each step selects the session by a pre-filter of its own, then re-checks
under the row lock.
-/

set_option autoImplicit false

namespace SmartProctoring

/-- The SQL pre-filter uses the minimum allowed timeout. -/
def MIN_HEARTBEAT_TIMEOUT_MS : Int := 10000

/-- The pre-filter of the first step. -/
def heartbeatStale (s : ExamSession) (now : Int) : Bool :=
  s.connection == .online &&
    s.lastHeartbeatAt.any (fun last => decide (last < now - MIN_HEARTBEAT_TIMEOUT_MS)) &&
    decide (s.status ∈ [SessionStatus.invited, .ready, .active, .paused, .onHold])

/-- Heartbeat timeouts (per-exam policy). -/
def sweepTimeout (m : SessionMutation) : SessionMutation :=
  if heartbeatStale m.session m.now then
    match m.session.lastHeartbeatAt with
    | none => m
    | some last =>
      if m.now - last ≤ m.policy.connection.heartbeatTimeoutSec.secMs then m
      else recordReportingTimeout m m.policy last
  else m

/-- The pre-filter of the second step: a running clock whose time is used up. -/
def expiryDue (s : ExamSession) (now : Int) : Bool :=
  (s.status == .active || s.status == .paused) &&
    s.runningSince.any fun rs => decide (s.durationMs ≤ s.usedMs + (now - rs))

/-- Clock expiry. -/
def sweepExpiry (m : SessionMutation) : SessionMutation :=
  if expiryDue m.session m.now then enforceExpiry m else m

/-- Stale checks, judged on the frames they received. -/
def sweepStaleChecks (m : SessionMutation) (mismatch : Nat → Bool) :
    Except HttpError SessionMutation :=
  settleAbandonedChecks m (fun c => decide (c.expiresAt < m.now - 10000)) mismatch

/-- A step that fails is logged; the session stays as it was. -/
def orUnchanged (m : SessionMutation) (step : SessionMutation → Except HttpError SessionMutation) :
    SessionMutation :=
  match step m with
  | .ok m' => m'
  | .error _ => m

/-- The sweeper's pass over the session's clock and connection: timeouts, expiry, offline limit. -/
def sweepClock (m : SessionMutation) : SessionMutation :=
  orUnchanged (sweepExpiry (sweepTimeout m)) enforceOfflineLimits

end SmartProctoring
