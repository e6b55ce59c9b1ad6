import SmartProctoring.Server.Runs

/-!
# The exam clock and the status

The clock runs in an active exam, and in a pause that was begun under a policy that keeps it
running; in every other status it is stopped.  The time used never decreases and never exceeds the
duration.

The last needs a promise.  The accommodations of an exam that has not started follow the records,
and with them its duration; a session that has used exam time without ever having been started
(`RefreshedUnused`) can lose the time it has used.
-/

set_option autoImplicit false

namespace SmartProctoring

/-- Open for a pause in which the clock runs on. -/
def SessionPeriod.keepsClock (p : SessionPeriod) : Bool :=
  p.isOpen && p.kind == .paused && p.metadata.timerBehavior == some .continue

namespace Lifecycle

/-- The clock runs only where the status and the periods let it. -/
def RunsAllowed (l : Lifecycle) : Prop :=
  l.clock.runningSince.isSome →
    l.status = .active ∨ l.status = .paused ∧ ∃ p ∈ l.periods, p.keepsClock = true

/-- The time used is between zero and the duration, which before the start of the exam is not less
than the extra time it includes. -/
structure ClockOk (l : Lifecycle) : Prop where
  nonneg : 0 ≤ l.clock.usedMs
  within : l.clock.usedMs ≤ l.clock.durationMs
  base : l.startedAt = none → 0 ≤ l.clock.durationMs - l.extraMs

theorem runsAllowed_assigned (now durationMs extraMs : Int) :
    (assigned now durationMs extraMs).RunsAllowed :=
  fun h => absurd h Bool.false_ne_true

theorem clockOk_assigned {now durationMs extraMs : Int} (hx : 0 ≤ extraMs)
    (hd : extraMs ≤ durationMs) : (assigned now durationMs extraMs).ClockOk :=
  ⟨le_rfl, hx.trans hd, fun _ => Int.sub_nonneg.2 hd⟩

variable {l l' : Lifecycle}

theorem RunsAllowed.stopped (h : l.RunsAllowed) (hactive : l.status ≠ .active)
    (hpaused : l.status ≠ .paused) : l.clock.runningSince = none := by
  rw [← Option.not_isSome_iff_eq_none]
  intro hr
  rcases h hr with hs | ⟨hs, -⟩
  · exact hactive hs
  · exact hpaused hs

theorem RunsAllowed.of_none (h : l.clock.runningSince = none) : l.RunsAllowed := by
  intro hr
  rw [h] at hr
  exact absurd hr Bool.false_ne_true

theorem ClockOk.stop (h : l.ClockOk) (atMs : Int) (hclock : l'.clock = clockStop l.clock atMs)
    (hstart : l'.startedAt = l.startedAt) (hextra : l'.extraMs = l.extraMs) :
    l'.ClockOk ∧ l.clock.usedMs ≤ l'.clock.usedMs := by
  obtain ⟨hle, hwithin⟩ := clockStop_usedMs_bounds h.within atMs
  refine ⟨⟨?_, ?_, fun hn => ?_⟩, ?_⟩
  · rw [hclock]
    exact h.nonneg.trans hle
  · rw [hclock, clockStop_durationMs]
    exact hwithin
  · rw [hclock, clockStop_durationMs, hextra]
    exact h.base (hstart ▸ hn)
  · rw [hclock]
    exact hle

theorem ClockOk.keep (h : l.ClockOk) (hused : l'.clock.usedMs = l.clock.usedMs)
    (hdur : l.clock.durationMs ≤ l'.clock.durationMs)
    (hbase : l'.startedAt = none → l.startedAt = none ∧ l'.extraMs = l.extraMs) :
    l'.ClockOk ∧ l.clock.usedMs ≤ l'.clock.usedMs := by
  refine ⟨⟨hused ▸ h.nonneg, hused ▸ h.within.trans hdur, fun hn => ?_⟩, hused.ge⟩
  have := h.base (hbase hn).1
  rw [(hbase hn).2]
  omega

theorem ClockOk.startClock (h : l.ClockOk) (atMs : Int)
    (hclock : l'.clock = clockStart l.clock atMs)
    (hbase : l'.startedAt = none → l.startedAt = none ∧ l'.extraMs = l.extraMs) :
    l'.ClockOk ∧ l.clock.usedMs ≤ l'.clock.usedMs := by
  refine h.keep ?_ ?_ hbase
  · rw [hclock, clockStart_usedMs]
  · rw [hclock, clockStart_durationMs]

end Lifecycle

/-- **A move lets the clock run only where the status does.** -/
theorem Move.runsAllowed {G : Gate} {l l' : Lifecycle} (hm : Move G l l') (h : l.RunsAllowed) :
    l'.RunsAllowed := by
  have hstop : ∀ (k : Lifecycle) (atMs : Int), k.clock = clockStop l.clock atMs → k.RunsAllowed := by
    intro k atMs hk
    refine .of_none ?_
    rw [hk, clockStop_runningSince]
  have hidle : ∀ (k : Lifecycle), k.clock.runningSince = l.clock.runningSince →
      l.status ≠ .active → l.status ≠ .paused → k.RunsAllowed := by
    intro k hk ha hp
    refine .of_none ?_
    rw [hk, h.stopped ha hp]
  cases hm
  case outage => exact hstop _ _ rfl
  case restart hs _ => exact fun _ => .inl hs
  case pause behavior reason _ _ =>
    cases behavior with
    | stop => exact hstop _ _ rfl
    | «continue» => exact fun _ => .inr ⟨rfl, _, (List.mem_orderedInsert _).2 (.inl rfl), rfl⟩
  case hold => exact hstop _ _ rfl
  case finish endReason gap _ _ _ _ =>
    rw [Lifecycle.finish]
    split
    · exact hstop _ _ rfl
    · exact hstop _ _ rfl
  case start => exact fun _ => .inl rfl
  case release hs _ => exact hidle _ rfl (by simp [hs]) (by simp [hs])
  case releaseActive => exact fun _ => .inl rfl
  case checkIn hs _ | ready hs => exact hidle _ rfl (by simp [hs]) (by simp [hs])
  case gapHold => exact hstop _ _ rfl
  case gapContinue => exact fun _ => .inl rfl
  case gapReady hs _ => exact hidle _ rfl (by simp [hs]) (by simp [hs])
  case reopen addMs hadd hs _ _ =>
    rw [SessionStatus.isTerminal_iff] at hs
    have hterminal : l.status ≠ .active ∧ l.status ≠ .paused := by
      rcases hs with hs | hs <;> simp [hs]
    rw [Lifecycle.reopen]
    split
    · exact hidle _ rfl hterminal.1 hterminal.2
    · exact hidle _ rfl hterminal.1 hterminal.2
  all_goals exact h

/-- **A move keeps the time used within the duration, and gives back none.** -/
theorem Move.clockOk {G : Gate} (hG : G.duration) {l l' : Lifecycle} (hm : Move G l l')
    (h : l.ClockOk) : l'.ClockOk ∧ l.clock.usedMs ≤ l'.clock.usedMs := by
  cases hm
  case outage last _ _ => exact h.stop _ rfl rfl rfl
  case restart => exact h.startClock l.now rfl fun hn => ⟨hn, rfl⟩
  case pause behavior reason _ _ =>
    cases behavior with
    | stop => exact h.stop l.now rfl rfl rfl
    | «continue» => exact h.startClock l.now rfl fun hn => ⟨hn, rfl⟩
  case hold => exact h.stop l.now rfl rfl rfl
  case finish endReason gap _ _ _ _ =>
    rw [Lifecycle.finish]
    split
    · exact h.stop (l.endInstant endReason) rfl rfl rfl
    · exact h.stop (l.endInstant endReason) rfl rfl rfl
  case start => exact h.startClock l.now rfl fun hn => by cases hn
  case releaseActive => exact h.startClock l.now rfl fun hn => ⟨hn, rfl⟩
  case gapHold => exact h.stop l.now rfl rfl rfl
  case gapContinue => exact h.startClock l.now rfl fun hn => ⟨hn, rfl⟩
  case extend addMs hadd => exact h.keep rfl (Int.le_add_of_nonneg_right hadd) fun hn => ⟨hn, rfl⟩
  case refresh extraMs hs hn hb hd =>
    -- no time is used, and the new duration is not negative
    have hused := hd hG
    have hbase := h.base hn
    refine ⟨⟨h.nonneg, ?_, fun _ => ?_⟩, le_rfl⟩ <;> simp only [Lifecycle.refresh] <;> omega
  case reopen addMs hadd hs _ _ =>
    rw [Lifecycle.reopen]
    split
    · exact h.keep rfl (Int.le_add_of_nonneg_right hadd) fun hn => ⟨hn, rfl⟩
    · exact h.keep rfl (Int.le_add_of_nonneg_right hadd) fun hn => ⟨hn, rfl⟩
  all_goals exact h.keep rfl le_rfl fun hn => ⟨hn, rfl⟩

/-! ## Every reachable session -/

/-- The promise that accommodations are refreshed only while no exam time is used. -/
def Gate.refreshesUnused : Gate := { Gate.free with duration := True }

theorem Gate.keeps_refreshesUnused {m : SessionMutation} {op : Op} (h : RefreshesUnused m op) :
    Keeps refreshesUnused m op :=
  { Gate.keeps_free m op with duration := fun _ => h }

variable {m : SessionMutation}

theorem clockOk_of_reachable (h : (keeping RefreshesUnused).Reachable m) :
    m.lifecycle.Timely ∧ m.lifecycle.RunsAllowed ∧ m.lifecycle.ClockOk :=
  keeping_invariant (I := fun l => l.RunsAllowed ∧ l.ClockOk)
    (fun _ _ => Gate.keeps_refreshesUnused)
    (fun _ _ _ hx hd => ⟨Lifecycle.runsAllowed_assigned _ _ _, Lifecycle.clockOk_assigned hx hd⟩)
    (fun _ _ _ hl hm => ⟨hm.runsAllowed hl.1, (hm.clockOk trivial hl.2).1⟩) h

theorem usedMs_le_sessionStep (h : (keeping RefreshesUnused).Reachable m) {r : Request}
    (hr : (keeping RefreshesUnused).enabled r m) :
    m.session.usedMs ≤ (sessionStep r m).session.usedMs := by
  have hmoves := moves_sessionStep hr.1 (Gate.keeps_refreshesUnused hr.2)
  have hinv := hmoves.invariant
    (I := fun l => l.ClockOk ∧ m.session.usedMs ≤ l.clock.usedMs)
    (fun {l l'} hl hm => ⟨(hm.clockOk trivial hl.1).1, hl.2.trans (hm.clockOk trivial hl.1).2⟩)
    ⟨(clockOk_of_reachable h).2.2, le_rfl⟩
  exact hinv.2

/-- Where accommodations are refreshed only while no exam time is used: the clock runs only in an
active exam or in a pause that keeps it, since an instant that has passed; the time used is between
zero and the duration; and no request gives back time or leaves the clock running in any other
status. -/
theorem clock_agrees (h : (keeping RefreshesUnused).Reachable m) :
    ((m.session.runningSince.isSome →
        m.session.status = .active ∨
          m.session.status = .paused ∧ ∃ p ∈ m.periods, p.keepsClock = true) ∧
      (∀ rs ∈ m.session.runningSince, rs ≤ m.now) ∧
      0 ≤ m.session.usedMs ∧ m.session.usedMs ≤ m.session.durationMs) ∧
    ∀ r, (keeping RefreshesUnused).enabled r m →
      m.session.usedMs ≤ (sessionStep r m).session.usedMs ∧
        ((sessionStep r m).session.status ∈
            [SessionStatus.invited, .ready, .onHold, .submitted, .terminated] →
          (sessionStep r m).session.runningSince = none) := by
  obtain ⟨ht, hrun, hok⟩ := clockOk_of_reachable h
  refine ⟨⟨hrun, ht.running, hok.nonneg, hok.within⟩, fun r hr => ?_⟩
  refine ⟨usedMs_le_sessionStep h hr, fun hs => ?_⟩
  obtain ⟨-, hrun', -⟩ := clockOk_of_reachable (h.step r hr)
  refine hrun'.stopped (fun hs' => ?_) fun hs' => ?_
  · rw [show (sessionStep r m).session.status = .active from hs'] at hs
    exact absurd hs (by decide)
  · rw [show (sessionStep r m).session.status = .paused from hs'] at hs
    exact absurd hs (by decide)

/-- An exam in progress for six seconds is such a session. -/
theorem clock_agrees_started :
    let m := runRequests (startedExam {}) [⟨10000, {}, .heartbeat ⟨1⟩ { seq := 1 } none none⟩]
    ((m.session.runningSince.isSome →
        m.session.status = .active ∨
          m.session.status = .paused ∧ ∃ p ∈ m.periods, p.keepsClock = true) ∧
      (∀ rs ∈ m.session.runningSince, rs ≤ m.now) ∧
      0 ≤ m.session.usedMs ∧ m.session.usedMs ≤ m.session.durationMs) ∧
    ∀ r, (keeping RefreshesUnused).enabled r m →
      m.session.usedMs ≤ (sessionStep r m).session.usedMs ∧
        ((sessionStep r m).session.status ∈
            [SessionStatus.invited, .ready, .onHold, .submitted, .terminated] →
          (sessionStep r m).session.runningSince = none) :=
  clock_agrees (keeping_started (by decide))

/-- An exam of one minute, doubled by an accommodation, is ended before it starts, reopened, and put
on hold.  The check that the release asks for then passes: the exam is in progress without ever
having been started.  It is held again after 100 seconds, and the accommodation is withdrawn. -/
def unstartedExam : List Request :=
  [⟨1000, {}, .acceptConsent .privacy .privacy⟩,
   ⟨2000, {}, .startCheck ⟨1⟩ { purpose := .initial }⟩,
   ⟨3000, {}, .completeCheck ⟨1⟩ 0 3000 { policy := {}, reference := some .ok }⟩,
   ⟨4000, {}, .terminateSession⟩,
   ⟨5000, {}, .reopenSession {}⟩,
   ⟨6000, {}, .holdSession⟩,
   ⟨7000, {}, .releaseHold { requireCheck := true }⟩,
   ⟨8000, {}, .startCheck ⟨1⟩ { purpose := .reverify }⟩,
   ⟨9000, {}, .completeCheck ⟨1⟩ 1 9000
     { policy := {}, aggregate := some { decision := .match } }⟩,
   ⟨109000, {}, .holdSession⟩,
   ⟨110000, {}, .refreshAccommodations []⟩]

/-- More time is used than the exam has. -/
theorem usedMs_exceeds :
    ¬ ∀ m, sessionMachine.Reachable m → m.session.usedMs ≤ m.session.durationMs := by
  intro h
  let doubled : Accommodation :=
    { id := 0, spec := .extraTime ⟨100, by decide⟩ ⟨0, by decide⟩, grantedAt := 0 }
  have hinit : sessionMachine.init (createExamSession 0 {} ⟨60, by decide⟩ [doubled] none) :=
    ⟨0, {}, ⟨60, by decide⟩, [doubled], none, rfl⟩
  have hle := h _ ((Machine.Reachable.init hinit).run (show sessionMachine.Admits _ unstartedExam by decide))
  exact absurd hle (by decide)

end SmartProctoring
