import SmartProctoring.Server.Outage
import SmartProctoring.Server.Runs

/-!
# What exam time is charged

The ledger of a session is the list of its completed running segments (`clockLog`).  The time used
is what the segments charge, each up to the instant at which the clock had run out; no instant is
charged twice.  The clock is started at the server's time only, by the operations that may start it,
so after an outage that stopped it at the last heartbeat nothing is charged until one of them.  An
exam that ends because its time has run out has used its whole duration and ends at the instant that
happened, however late it is noticed.
-/

set_option autoImplicit false

namespace SmartProctoring

variable {G : Gate} {l l' : Lifecycle}

/-! ## What a move does to the clock -/

/-- The three things a move can do to the clock and its ledger. -/
inductive ClockEffect (G : Gate) (l l' : Lifecycle) : Prop
  | none (hnow : l.now ≤ l'.now) (hrs : l'.clock.runningSince = l.clock.runningSince)
      (hused : l'.clock.usedMs = l.clock.usedMs) (hlog : l'.clockLog = l.clockLog)
  | stop (atMs : Int) (hat : atMs ≤ l.now) (hrs : ∀ rs ∈ l.clock.runningSince, rs ≤ atMs)
      (hnow : l'.now = l.now) (hclock : l'.clock = clockStop l.clock atMs)
      (hlog : l'.clockLog = l.clockLog ++ l.clock.segmentAt atMs)
  | start (hG : G.starts) (hnow : l'.now = l.now) (hclock : l'.clock = clockStart l.clock l.now)
      (hlog : l'.clockLog = l.clockLog)

theorem Move.clockEffect (hm : Move G l l') (ht : l.Timely) : ClockEffect G l l' := by
  have hstop : ∀ k : Lifecycle, k.now = l.now → k.clock = clockStop l.clock l.now →
      k.clockLog = l.clockLog ++ l.clock.segmentAt l.now → ClockEffect G l k :=
    fun k => .stop l.now le_rfl ht.running
  cases hm
  case tick t hle => exact .none hle rfl rfl rfl
  case outage last _ hl =>
    refine .stop (max last (l.clock.runningSince.getD last)) (max_le (ht.heard _ hl) ?_) ?_
      rfl rfl rfl
    · cases hrs : l.clock.runningSince with
      | none => exact ht.heard _ hl
      | some rs => exact ht.running rs hrs
    · intro rs hrs
      rw [Option.mem_def.1 hrs]
      exact le_max_right _ _
  case restart _ hG => exact .start hG rfl rfl rfl
  case pause behavior reason _ hG =>
    cases behavior with
    | stop => exact hstop _ rfl rfl rfl
    | «continue» => exact .start hG rfl rfl rfl
  case hold => exact hstop _ rfl rfl rfl
  case finish endReason gap _ _ _ _ =>
    rw [Lifecycle.finish]
    split
    · exact .stop _ (Lifecycle.endInstant_le ht endReason) (Lifecycle.le_endInstant ht endReason)
        rfl rfl rfl
    · exact .stop _ (Lifecycle.endInstant_le ht endReason) (Lifecycle.le_endInstant ht endReason)
        rfl rfl rfl
  case start _ hG | releaseActive _ _ hG => exact .start hG rfl rfl rfl
  case gapHold => exact hstop _ rfl rfl rfl
  case gapContinue _ hG _ => exact .start hG rfl rfl rfl
  case reopen addMs _ _ _ _ =>
    rw [Lifecycle.reopen]
    split
    · exact .none le_rfl rfl rfl rfl
    · exact .none le_rfl rfl rfl rfl
  all_goals exact .none le_rfl rfl rfl rfl

/-! ## The ledger -/

theorem ExamClock.mem_segmentAt {c : ExamClock} {atMs : Int} {s : ClockSegment} :
    s ∈ c.segmentAt atMs ↔ ∃ rs ∈ c.runningSince, s = ⟨rs, max rs atMs, c.runsOutAt rs⟩ := by
  rw [segmentAt]
  cases c.runningSince <;> simp

theorem clockStop_usedMs_eq {c : ExamClock} {atMs : Int} (h : ∀ rs ∈ c.runningSince, rs ≤ atMs) :
    (clockStop c atMs).usedMs =
      c.usedMs + ((c.segmentAt atMs).map ClockSegment.chargedMs).sum := by
  cases hrs : c.runningSince with
  | none => rw [clockStop_of_stopped hrs, ExamClock.segmentAt, hrs]; simp
  | some rs =>
    have hle := h rs hrs
    rw [clockStop_usedMs_of_running hrs hle, ExamClock.segmentAt, hrs]
    simp [ClockSegment.chargedMs, max_eq_right hle]

namespace Lifecycle

/-- The ledger is in order, of the past, and adds up to the time used. -/
structure Charged (l : Lifecycle) : Prop where
  total : l.clock.usedMs = (l.clockLog.map ClockSegment.chargedMs).sum
  ordered : ∀ s ∈ l.clockLog, s.startedAt ≤ s.stoppedAt ∧ s.stoppedAt ≤ l.now
  chrono : l.clockLog.Pairwise fun s t => s.stoppedAt ≤ t.startedAt
  before : ∀ rs ∈ l.clock.runningSince, ∀ s ∈ l.clockLog, s.stoppedAt ≤ rs

theorem charged_assigned (now durationMs extraMs : Int) :
    (assigned now durationMs extraMs).Charged :=
  ⟨rfl, fun _ hs => absurd hs List.not_mem_nil, .nil, nofun⟩

end Lifecycle

/-- **A move keeps the ledger.** -/
theorem ClockEffect.charged (he : ClockEffect G l l') (h : l.Charged) : l'.Charged := by
  cases he with
  | none hnow hrs hused hlog =>
    refine ⟨?_, fun s hs => ?_, hlog ▸ h.chrono, ?_⟩
    · rw [hused, hlog]
      exact h.total
    · obtain ⟨hle, hpast⟩ := h.ordered s (hlog ▸ hs)
      exact ⟨hle, hpast.trans hnow⟩
    · rw [hrs, hlog]
      exact h.before
  | stop atMs hat hrs hnow hclock hlog =>
    refine ⟨?_, fun s hs => ?_, ?_, fun rs' hrs' => ?_⟩
    · rw [hclock, hlog, clockStop_usedMs_eq hrs, h.total, List.map_append, List.sum_append]
    · rw [hnow]
      rcases List.mem_append.1 (hlog ▸ hs) with hs | hs
      · exact h.ordered s hs
      · obtain ⟨rs, hmem, rfl⟩ := ExamClock.mem_segmentAt.1 hs
        have hle := hrs rs hmem
        exact ⟨le_max_left _ _, max_le (hle.trans hat) hat⟩
    · rw [hlog, List.pairwise_append]
      refine ⟨h.chrono, ?_, fun s hs t hts => ?_⟩
      · rw [ExamClock.segmentAt]
        cases l.clock.runningSince <;> simp
      · obtain ⟨rs, hmem, rfl⟩ := ExamClock.mem_segmentAt.1 hts
        exact h.before rs hmem s hs
    · rw [hclock, clockStop_runningSince] at hrs'
      cases hrs'
  | start hG hnow hclock hlog =>
    refine ⟨?_, ?_, hlog ▸ h.chrono, fun rs hrs s hs => ?_⟩
    · rw [hclock, clockStart_usedMs, hlog]
      exact h.total
    · rw [hlog, hnow]
      exact h.ordered
    · rw [hlog] at hs
      rw [hclock, clockStart_runningSince, Option.mem_some_iff] at hrs
      subst hrs
      cases hr : l.clock.runningSince with
      | none => exact (h.ordered s hs).2
      | some rs => exact h.before rs hr s hs

/-- What the moves from `k` to `l` may have added to the ledger: segments, completed or still
running, that ran already or began since `k`, in a gate that lets the clock be started. -/
structure ClockSince (G : Gate) (k l : Lifecycle) : Prop where
  now : k.now ≤ l.now
  log : k.clockLog <+: l.clockLog
  segments : ∀ s ∈ l.clockLog, s ∈ k.clockLog ∨ s.startedAt ∈ k.clock.runningSince ∨
    G.starts ∧ k.now ≤ s.startedAt
  running : ∀ rs ∈ l.clock.runningSince, rs ∈ k.clock.runningSince ∨ G.starts ∧ k.now ≤ rs

theorem ClockEffect.since {k : Lifecycle} (he : ClockEffect G l l') (h : ClockSince G k l) :
    ClockSince G k l' := by
  cases he with
  | none hnow hrs _ hlog =>
    exact ⟨h.now.trans hnow, hlog ▸ h.log, hlog ▸ h.segments, hrs ▸ h.running⟩
  | stop atMs _ _ hnow hclock hlog =>
    refine ⟨hnow ▸ h.now, ?_, fun s hs => ?_, fun rs hrs => ?_⟩
    · rw [hlog]
      exact h.log.trans (List.prefix_append _ _)
    · rcases List.mem_append.1 (hlog ▸ hs) with hs | hs
      · exact h.segments s hs
      · obtain ⟨rs, hmem, rfl⟩ := ExamClock.mem_segmentAt.1 hs
        exact .inr (h.running rs hmem)
    · rw [hclock, clockStop_runningSince] at hrs
      cases hrs
  | start hG hnow hclock hlog =>
    refine ⟨hnow ▸ h.now, hlog ▸ h.log, hlog ▸ h.segments, fun rs hrs => ?_⟩
    rw [hclock, clockStart_runningSince, Option.mem_some_iff] at hrs
    subst hrs
    cases hr : l.clock.runningSince with
    | none => exact .inr ⟨hG, h.now⟩
    | some rs => exact h.running rs hr

/-! ## The end of the exam time -/

/-- The session as an operation that looks at the exam time finds it when it looks: the sweeper, as
it is; a heartbeat, when a late outage is recorded and the browser has been heard from. -/
inductive AtExpiryCheck (m : SessionMutation) : Op → SessionMutation → Prop
  | sweep : AtExpiryCheck m .sweepExpiry m
  | heartbeat {i : InstanceId} {body : HeartbeatRequest} {client : Option ClientAddress}
      {loaded : Option LoadedSession} {n : SessionMutation}
      (h : recordLateOutage (beforeLocked m i body client loaded) i = .ok n) :
      AtExpiryCheck m (.heartbeat i body client loaded) (hearFrom n i body client)

variable {m n : SessionMutation} {op : Op}

theorem AtExpiryCheck.moves (hS : G.starts) (h : AtExpiryCheck m op n) :
    Moves G m.lifecycle n.lifecycle := by
  cases h with
  | sweep => exact .refl
  | @heartbeat i body client loaded n hn =>
    have hbefore : Moves G m.lifecycle (beforeLocked m i body client loaded).lifecycle := by
      cases loaded with
      | none => exact .refl
      | some loaded => exact moves_fastHeartbeat m loaded i body client
    exact (hbefore.trans (moves_recordLateOutage n hn)).trans (moves_hearFrom hS)

/-- The exam ends for its time: all of it is used, and the end is the instant the clock ran out, or
the one since which it ran without any time left. -/
structure EndsOnTime (m n : SessionMutation) (rs : Int) : Prop where
  reason : n.session.endReason = some .timeExpired
  used : n.session.usedMs = n.session.durationMs
  ended : n.session.endedAt = some (max rs ((sessionClock m.session).runsOutAt rs))
  past : max rs ((sessionClock m.session).runsOutAt rs) ≤ m.now

theorem enforceExpiry_endsOnTime {rs : Int}
    (hs : m.session.status = .active ∨ m.session.status = .paused)
    (hrs : m.session.runningSince = some rs) (hle : rs ≤ m.now)
    (he : clockExpired (sessionClock m.session) m.now = true) :
    EndsOnTime m (enforceExpiry m) rs := by
  have hlive : ¬ m.session.status.isTerminal := by
    rw [SessionStatus.isTerminal_iff]
    rcases hs with hs | hs <;> simp [hs]
  have hout : (sessionClock m.session).runsOutAt rs ≤ m.now :=
    (clockExpired_iff_of_running hrs hle).1 he
  have hend : endInstant m .timeExpired = max rs ((sessionClock m.session).runsOutAt rs) := by
    rw [endInstant.eq_def, hrs]
    dsimp only
    rw [min_eq_right hout]
  have hfinal := finalizeSession_session hlive .timeExpired
  rw [enforceExpiry, if_pos ⟨hs, he⟩]
  refine ⟨?_, ?_, ?_, max_le hle hout⟩
  · rw [hfinal]
  · rw [hfinal, hend]
    dsimp only
    rw [clockStop_usedMs_of_running hrs (le_max_left _ _), ExamClock.runsOutAt]
    simp only [sessionClock]
    omega
  · rw [hfinal, hend]

theorem Move.endReason (hG : ¬ G.expires) (hm : Move G l l')
    (h : l.endReason ≠ some .timeExpired) : l'.endReason ≠ some .timeExpired := by
  cases hm
  case pause behavior reason _ _ => cases behavior <;> exact h
  case finish endReason gap _ hE _ _ =>
    have hne : some endReason ≠ some .timeExpired := fun he => hG (hE (Option.some.inj he))
    rw [Lifecycle.finish]
    split
    · exact hne
    · exact hne
  case reopen addMs _ _ _ _ =>
    rw [Lifecycle.reopen]
    split
    · intro he
      cases he
    · intro he
      cases he
  all_goals exact h

theorem Moves.endReason (hG : ¬ G.expires) (hm : Moves G l l')
    (h : l.endReason ≠ some .timeExpired) : l'.endReason ≠ some .timeExpired :=
  Moves.invariant (fun h hm => hm.endReason hG h) hm h

namespace Gate

/-- No promises, and only the operation `op`. -/
def ofOp (op : Op) : Gate :=
  { free with starts := op.startsClock = true, expires := op.looksAtExpiry = true }

theorem keeps_ofOp (m : SessionMutation) (op : Op) : Keeps (ofOp op) m op :=
  { keeps_free m op with starts := id, expires := id }

/-- No promises, and no end for time. -/
def unexpired : Gate := { free with expires := False }

end Gate

theorem outcomeOf_flush : outcomeOf (m.flush n).session = outcomeOf n.session ∧
    (m.flush n).session.durationMs = n.session.durationMs := by
  rw [SessionMutation.flush]
  split <;> exact ⟨rfl, rfl⟩

/-- If the exam has ended in `k` for its time, then `op` found it out of time when it looked. -/
def ExpiredBy (m : SessionMutation) (op : Op) (k : SessionMutation) : Prop :=
  k.session.endReason = some .timeExpired →
    ∃ n, AtExpiryCheck m op n ∧ outcomeOf k.session = outcomeOf (enforceExpiry n).session ∧
      k.session.durationMs = (enforceExpiry n).session.durationMs

theorem heartbeat_expires {i : InstanceId} {body : HeartbeatRequest}
    {client : Option ClientAddress} {loaded : Option LoadedSession}
    (hm : m.session.endReason ≠ some .timeExpired) :
    (heartbeat m i body client loaded).Yields fun r =>
      ExpiredBy m (.heartbeat i body client loaded) r.1 := by
  have hfast : ∀ loaded, (fastHeartbeat m loaded i body client).1.session.endReason ≠
      some .timeExpired := fun loaded =>
    (moves_fastHeartbeat (G := Gate.unexpired) m loaded i body client).endReason id hm
  have hlocked : (lockedHeartbeat (beforeLocked m i body client loaded) i body client).Yields
      fun r => ExpiredBy m (.heartbeat i body client loaded) r.1 := by
    have hbefore : (beforeLocked m i body client loaded).session.endReason ≠
        some .timeExpired := by
      cases loaded with
      | none => exact hm
      | some loaded => exact hfast loaded
    refine .ite (fun _ => .pure fun he => absurd he ?_) fun _ => ?_
    · have h := lifecycle_supersededHeartbeat (beforeLocked m i body client loaded) i
      exact (congrArg Lifecycle.endReason h).trans_ne hbefore
    · refine .bind (P := fun n => recordLateOutage (beforeLocked m i body client loaded) i = .ok n)
        (fun n hn => hn) fun n hn => .pure fun _ => ⟨_, .heartbeat hn, ?_⟩
      have hans : Unaltered (enforceExpiry (hearFrom n i body client))
          (answerHeartbeat (enforceExpiry (hearFrom n i body client)) i body).1 :=
        answerHeartbeat_unaltered
      exact ⟨hans.outcome, hans.durationMs⟩
  rw [heartbeat.eq_def]
  refine .guard fun _ => ?_
  cases loaded with
  | none => exact hlocked
  | some loaded =>
    have h := hfast loaded
    rw [beforeLocked] at hlocked
    dsimp only
    split
    next k response hk =>
      rw [hk] at h
      exact .pure fun he => absurd he h
    next k hk =>
      rw [hk] at hlocked
      exact hlocked

variable {r : Request}

/-- **An exam that a request ends for its time** was found out of time by an operation that
looks. -/
theorem sessionStep_expires (hnow : m.now ≤ r.now) (hm : m.session.endReason ≠ some .timeExpired) :
    ExpiredBy (m.lock r) r.op (sessionStep r m) := by
  intro h
  by_cases hlook : r.op.looksAtExpiry = true
  · have hlock : (m.lock r).session.endReason ≠ some .timeExpired := hm
    revert h
    rw [sessionStep]
    split
    next k hk =>
      have hrun : ExpiredBy (m.lock r) r.op k := by
        cases hop : r.op <;> rw [hop] at hlook hk <;> cases hlook
        case heartbeat i body client loaded =>
          have hyields : (heartbeat (m.lock r) i body client loaded).Yields fun p =>
              ExpiredBy (m.lock r) (.heartbeat i body client loaded) p.1 :=
            heartbeat_expires hlock
          exact hyields.fst (P := ExpiredBy _ _) k hk
        case sweepExpiry =>
          obtain rfl := Except.ok.inj hk
          rw [sweepExpiry]
          split
          · exact fun _ => ⟨_, .sweep, rfl, rfl⟩
          · exact fun h => absurd h hlock
      have hflush := outcomeOf_flush (m := m.lock r) (n := k)
      have hend : ((m.lock r).flush k).session.endReason = k.session.endReason :=
        congrArg OutageOutcome.endReason hflush.1
      rw [hend, hflush.1, hflush.2]
      exact hrun
    next => exact fun h => absurd h hlock
  · exact absurd h ((moves_sessionStep hnow (Gate.keeps_ofOp _ _)).endReason hlook hm)

/-! ## Every reachable session -/

/-- The time charged so far: the time used at `t` is what the ledger and the running segment charge,
and no instant is in two segments. -/
structure ChargedSoFar (m : SessionMutation) : Prop where
  used : ∀ t, clockUsedMs (sessionClock m.session) t =
    min m.session.durationMs ((m.clockLog.map ClockSegment.chargedMs).sum +
      clockRunningMs (sessionClock m.session) t)
  ordered : ∀ s ∈ m.clockLog, s.startedAt ≤ s.stoppedAt ∧ s.stoppedAt ≤ m.now
  chrono : m.clockLog.Pairwise fun s t => s.stoppedAt ≤ t.startedAt
  running : ∀ rs ∈ m.session.runningSince, rs ≤ m.now ∧ ∀ s ∈ m.clockLog, s.stoppedAt ≤ rs

/-- What the request `r` adds to the ledger: segments that ran already or that it starts itself,
from its own time on; and a segment that the outage of the browser ends goes to the last
heartbeat. -/
structure ChargesNext (r : Request) (m m' : SessionMutation) : Prop where
  log : m.clockLog <+: m'.clockLog
  segments : ∀ s ∈ m'.clockLog, s ∈ m.clockLog ∨ s.startedAt ∈ m.session.runningSince ∨
    r.op.startsClock = true ∧ r.now ≤ s.startedAt
  running : ∀ rs ∈ m'.session.runningSince, rs ∈ m.session.runningSince ∨
    r.op.startsClock = true ∧ r.now ≤ rs
  outage : ∀ last ∈ m.session.lastHeartbeatAt, m.session.status = .active →
    (m.lock r).policy.connection.disconnectTimerBehavior = .stop →
    (recordReportingTimeout (m.lock r) (m.lock r).policy last).session.runningSince = none ∧
      (recordReportingTimeout (m.lock r) (m.lock r).policy last).clockLog = m.clockLog ++
        (sessionClock m.session).segmentAt (max last (m.session.runningSince.getD last))

/-- If the request `r` ends the exam for its time, the operation found it out of time in some `n`;
where its clock was running then, it ends on time. -/
def EndsNext (r : Request) (m m' : SessionMutation) : Prop :=
  m.session.endReason ≠ some .timeExpired → m'.session.endReason = some .timeExpired →
    ∃ n, AtExpiryCheck (m.lock r) r.op n ∧
      ∀ rs ∈ n.session.runningSince, rs ≤ n.now ∧ EndsOnTime n m' rs

theorem recordReportingTimeout_stops (hs : m.session.status = .active) {policy : ProctoringPolicy}
    (hp : policy.connection.disconnectTimerBehavior = .stop) (last : Int) :
    (recordReportingTimeout m policy last).session.runningSince = none ∧
      (recordReportingTimeout m policy last).clockLog = m.clockLog ++
        (sessionClock m.session).segmentAt (max last (m.session.runningSince.getD last)) := by
  have hstop : (recordReportingTimeout m policy last).lifecycle =
      m.lifecycle.stopClock (max last (m.session.runningSince.getD last)) := by
    have hoff : (openOutage (m.set fun s => { s with connection := .offline }) last).lifecycle =
        m.lifecycle :=
      (lifecycle_openOutage _ _).trans (SessionMutation.lifecycle_set_quiet _ fun _ => rfl)
    rw [recordReportingTimeout, if_neg (by simpa using hs), hp,
      SessionMutation.lifecycle_clockStop, hoff]
    rfl
  refine ⟨?_, congrArg Lifecycle.clockLog hstop⟩
  have hclock := congrArg (fun l : Lifecycle => l.clock.runningSince) hstop
  exact hclock.trans (clockStop_runningSince _ _)

theorem EndsOnTime.of_outcome {k k' : SessionMutation} {rs : Int} (h : EndsOnTime m k rs)
    (hout : outcomeOf k'.session = outcomeOf k.session)
    (hdur : k'.session.durationMs = k.session.durationMs) : EndsOnTime m k' rs := by
  have hused : k'.session.usedMs = k.session.usedMs := congrArg OutageOutcome.usedMs hout
  refine ⟨?_, ?_, ?_, h.past⟩
  · exact (congrArg OutageOutcome.endReason hout).trans h.reason
  · rw [hused, hdur, h.used]
  · exact (congrArg OutageOutcome.endedAt hout).trans h.ended

theorem charged_of_reachable (h : sessionMachine.Reachable m) :
    m.lifecycle.Timely ∧ m.lifecycle.Charged := by
  have hkeep : (keeping fun _ _ => True).Reachable m := h.restrict fun _ _ => trivial
  exact keeping_invariant (fun m op _ => Gate.keeps_free m op)
    (fun now durationMs extraMs _ _ => Lifecycle.charged_assigned now durationMs extraMs)
    (fun _ _ ht hc hm => (hm.clockEffect ht).charged hc) hkeep

theorem chargesNext (h : sessionMachine.Reachable m) (hr : m.now ≤ r.now) :
    ChargesNext r m (sessionStep r m) := by
  obtain ⟨ht, -⟩ := charged_of_reachable h
  have hmoves : Moves (Gate.ofOp r.op) (m.lock r).lifecycle (sessionStep r m).lifecycle :=
    moves_sessionStep (m := m.lock r) le_rfl (Gate.keeps_ofOp _ _)
  have hsince : (sessionStep r m).lifecycle.Timely ∧
      ClockSince (Gate.ofOp r.op) (m.lock r).lifecycle (sessionStep r m).lifecycle :=
    hmoves.invariant (I := fun l => l.Timely ∧ ClockSince _ (m.lock r).lifecycle l)
      (fun hl hm => ⟨hm.timely hl.1, (hm.clockEffect hl.1).since hl.2⟩)
      ⟨ht.mono hr, ⟨le_rfl, List.prefix_rfl, fun _ => .inl, fun _ => .inl⟩⟩
  exact ⟨hsince.2.log, hsince.2.segments, hsince.2.running,
    fun last _ hs hp => recordReportingTimeout_stops (m := m.lock r) hs hp last⟩

theorem endsNext (h : sessionMachine.Reachable m) (hr : m.now ≤ r.now) :
    EndsNext r m (sessionStep r m) := by
  intro hm hend
  obtain ⟨ht, -⟩ := charged_of_reachable h
  obtain ⟨n, hn, hout, hdur⟩ := sessionStep_expires hr hm hend
  refine ⟨n, hn, fun rs hrs => ?_⟩
  have htn : n.lifecycle.Timely :=
    (hn.moves (G := Gate.free) trivial).invariant (fun hl hm => hm.timely hl) (ht.mono hr)
  have hle : rs ≤ n.now := htn.running rs hrs
  refine ⟨hle, EndsOnTime.of_outcome ?_ hout hdur⟩
  have hreason : (enforceExpiry n).session.endReason = some .timeExpired :=
    (congrArg OutageOutcome.endReason hout).symm.trans hend
  have hnot : n.session.endReason ≠ some .timeExpired :=
    (hn.moves (G := Gate.unexpired) trivial).endReason id hm
  have hcheck : (n.session.status = .active ∨ n.session.status = .paused) ∧
      clockExpired (sessionClock n.session) n.now = true := by
    by_contra hno
    rw [enforceExpiry, if_neg hno] at hreason
    exact hnot hreason
  exact enforceExpiry_endsOnTime hcheck.1 hrs hle hcheck.2

/-- **The exam time that is charged**, in every reachable session and by every request. -/
theorem time_charged (h : sessionMachine.Reachable m) :
    ChargedSoFar m ∧ ∀ r, sessionMachine.enabled r m →
      ChargesNext r m (sessionStep r m) ∧ EndsNext r m (sessionStep r m) := by
  obtain ⟨ht, hc⟩ := charged_of_reachable h
  refine ⟨⟨fun t => ?_, hc.ordered, hc.chrono, fun rs hrs => ⟨ht.running rs hrs, hc.before rs hrs⟩⟩,
    fun r hr => ⟨chargesNext h hr, endsNext h hr⟩⟩
  have htotal : m.session.usedMs = (m.clockLog.map ClockSegment.chargedMs).sum := hc.total
  rw [← htotal]
  rfl

/-- An exam in progress that is held and released. -/
theorem time_charged_released :
    let m := runRequests (startedExam {})
      [⟨20000, {}, .holdSession⟩, ⟨30000, {}, .releaseHold { requireCheck := false }⟩]
    ChargedSoFar m ∧ ∀ r, sessionMachine.enabled r m →
      ChargesNext r m (sessionStep r m) ∧ EndsNext r m (sessionStep r m) :=
  time_charged (reachable_started (by decide))

/-- A one-minute exam, started at 4000, is held at 70000 before anyone has noticed that its time ran
out at 64000, and is then extended: 66 seconds have passed on a running clock, and 60 of them are
used. -/
theorem running_time_uncharged :
    ¬ ∀ m, sessionMachine.Reachable m → ∀ t, m.now ≤ t →
      clockUsedMs (sessionClock m.session) t =
        min m.session.durationMs ((m.clockLog.map fun s => s.stoppedAt - s.startedAt).sum +
          clockRunningMs (sessionClock m.session) t) := by
  intro h
  have hused := h (runRequests (startedExam {})
      [⟨70000, {}, .holdSession⟩, ⟨71000, {}, .extendSessionTime ⟨1, by decide⟩⟩])
    (reachable_started (by decide)) 71000 (by decide)
  exact absurd hused (by decide)

end SmartProctoring
