import SmartProctoring.Server.Lifecycle

/-!
# What one transaction can do to a lifecycle

`Move G l l'` lists the transitions.  A transaction is a few of them in a row (`Moves`), after the
`tick` that brings the server time forward.  Each move carries what the source has checked when it
makes it: an outage stops the clock at the last heartbeat, a hold needs a session that has not
ended, a check closes a gap that began no later than the check itself.

Some results hold of runs that keep a promise the source does not enforce.  A `Gate` says which
promises are made; a move that would break one that is made is not a move of that gate.
-/

set_option autoImplicit false

namespace SmartProctoring

/-- Every completed period that is not empty ended by `t`. -/
def Periods.ClearBy (ps : List SessionPeriod) (t : Int) : Prop :=
  ∀ p ∈ ps, ∀ e ∈ p.endedAt, p.startedAt < e → e ≤ t
  deriving Decidable

namespace Lifecycle

/-- How far back closing the gap before a check reaches: to the check, or, where it cuts the active
period of a reconnect short, to the previous browser's last heartbeat. -/
def gapReach (l : Lifecycle) (check : Check) (gapStart : Int) : Int :=
  if check.purpose = .reconnect ∧ l.openPeriodRow.any (fun p => p.kind == .active) then gapStart
  else check.issuedAt

/-- The instant the running clock ran out is not before `atMs`, or it has not run out yet. -/
def InTime (l : Lifecycle) (atMs : Int) : Prop :=
  ∀ rs ∈ l.clock.runningSince, clockExpired l.clock l.now = true →
    atMs ≤ max rs (l.clock.runsOutAt rs)
  deriving Decidable

/-- No report of the event started or ended after `atMs`. -/
def ReportsBefore (l : Lifecycle) (ev : EventId) (atMs : Int) : Prop :=
  ∀ e ∈ l.reports, e.id = ev → e.startedAt ≤ atMs ∧ ∀ x ∈ e.endedAt, x ≤ atMs
  deriving Decidable

/-- No period, end or report of the event lies in the future. -/
structure Past (l : Lifecycle) (ev : EventId) : Prop where
  periods : ∀ p ∈ l.periods, p.startedAt ≤ l.now ∧ ∀ e ∈ p.endedAt, e ≤ l.now
  endedAt : ∀ t ∈ l.endedAt, t ≤ l.now
  reports : ∀ e ∈ l.reports, e.id = ev → ∀ x ∈ e.endedAt, x ≤ l.now

/-- What is stored of the events a browser reports: `e` is a row that ingest wrote. -/
structure Stored (l : Lifecycle) (e : EventRow) : Prop where
  fromClient : e.fromClient = true
  reportable : isClientReportable e.type = true
  receivedAt : e.receivedAt = l.now
  open_iff : e.isOpen = true ↔ e.endedAt = none
  ordered : ∀ x ∈ e.endedAt, e.startedAt ≤ x
  notBlocked : ∀ p ∈ l.periods, p.blocking = true → p.containsInstant e.startedAt = false
  cut : ∀ p ∈ l.periods, p.blocking = true → e.startedAt < p.startedAt →
    ∃ x, e.endedAt = some x ∧ x ≤ p.startedAt
  ended : ∀ t ∈ l.endedAt, e.startedAt ≤ t ∧ ∃ x, e.endedAt = some x ∧ x ≤ t

end Lifecycle

/-- Which promises a run makes. -/
structure Gate where
  /-- The clock may be started. -/
  starts : Prop
  /-- The exam may be ended because its time has run out. -/
  expires : Prop
  /-- No check or reopening reaches back behind the end of a completed period. -/
  gap : Prop
  /-- Accommodations are refreshed only while no exam time is used. -/
  duration : Prop
  /-- No answer is given after the clock ran out. -/
  answers : Prop
  /-- The reports of the event are of the past, and no expiry and no reopened hold is dated before
  one. -/
  reports : EventId → Prop

/-- A check may close the gap before it. -/
structure Lifecycle.GapOk (G : Gate) (l : Lifecycle) (check : Check) (gapStart : Int) : Prop where
  status : ¬ l.status.isTerminal
  issued : check.issuedAt ∈ l.checkStarts
  le : gapStart ≤ check.issuedAt
  clear : G.gap → Periods.ClearBy l.periods (l.gapReach check gapStart)

inductive Move (G : Gate) (l : Lifecycle) : Lifecycle → Prop
  | tick (t : Int) (h : l.now ≤ t) : Move G l { l with now := t }
  | hear : Move G l { l with lastHeartbeatAt := some l.now }
  | outage (last : Int) (hs : l.status = .active) (hl : l.lastHeartbeatAt = some last) :
      Move G l (l.stopClock (max last (l.clock.runningSince.getD last)))
  | restart (hs : l.status = .active) (hG : G.starts) : Move G l (l.startClock l.now)
  | save (a : Answer) (hs : ¬ l.status.isTerminal) (ha : a.answeredAt ≤ l.now)
      (hG : G.answers → l.InTime a.answeredAt) :
      Move G l { l with answers := (upsertAnswer l.answers a).1 }
  | pause (behavior : TimerBehavior) (reason : Option String) (hs : l.status = .active)
      (hG : G.starts) : Move G l (l.pause behavior reason)
  | hold (reason : HoldReason) (hs : ¬ l.status.isTerminal) : Move G l (l.hold reason l.status)
  | finish (endReason : SessionEndReason) (gap : Option (Int × EventId))
      (hs : ¬ l.status.isTerminal) (hE : endReason = .timeExpired → G.expires)
      (hgap : ∀ g ∈ gap, g.1 < l.endInstant endReason)
      (hG : ∀ ev, G.reports ev → l.endInstant endReason < l.now →
        l.ReportsBefore ev (l.endInstant endReason)) :
      Move G l (l.finish endReason gap)
  | start (extraMs : Int) (hs : l.status = .ready) (hG : G.starts) : Move G l (l.start extraMs)
  | release (st : SessionStatus) (hs : l.status = .onHold) (hst : st = .invited ∨ st = .ready) :
      Move G l { l.closeOpenPeriod l.now with status := st }
  | releaseActive (reason : PeriodReason) (hs : l.status = .onHold) (hG : G.starts) :
      Move G l ((l.closeOpenPeriod l.now).continueActive reason)
  | checkStarted : Move G l { l with checkStarts := l.checkStarts ++ [l.now] }
  | checkIn (reason : PeriodReason) (hs : l.status = .invited) (hp : l.openPeriodRow = none) :
      Move G l (l.insertPeriod { kind := .checkIn, startedAt := l.now, endedAt := none, reason })
  | ready (hs : l.status = .invited) :
      Move G l { l.closeOpenPeriod l.now with status := .ready }
  | closeReports (sel : EventRow → Bool) (atMs : Int) (note : EventDetails → EventDetails)
      (h : atMs ≤ l.now ∨ ∃ t ∈ l.checkStarts, atMs ≤ t) :
      Move G l (l.closeReports sel atMs note)
  | gapHold (check : Check) (instanceId : InstanceId) (gapStart : Int) (reason : HoldReason)
      (prev : SessionStatus) (hprev : prev = .onHold → l.status = .onHold)
      (h : l.GapOk G check gapStart) :
      Move G l ((l.closeGap check instanceId gapStart).hold reason prev)
  | gapContinue (check : Check) (instanceId : InstanceId) (gapStart : Int) (reason : PeriodReason)
      (hG : G.starts) (h : l.GapOk G check gapStart) :
      Move G l ((l.closeGap check instanceId gapStart).continueActive reason)
  | gapReady (check : Check) (instanceId : InstanceId) (gapStart : Int) (hs : l.status = .onHold)
      (h : l.GapOk G check gapStart) :
      Move G l { l.closeGap check instanceId gapStart with status := .ready }
  | extend (addMs : Int) (h : 0 ≤ addMs) :
      Move G l { l with clock := { l.clock with durationMs := l.clock.durationMs + addMs } }
  | refresh (extraMs : Int) (hs : l.status ∈ UNSTARTED) (hn : l.startedAt = none)
      (hb : 0 ≤ l.clock.durationMs - l.extraMs → 0 ≤ extraMs)
      (hd : G.duration → l.clock.usedMs = 0) : Move G l (l.refresh extraMs)
  | reopen (addMs : Int) (h : 0 ≤ addMs) (hs : l.status.isTerminal)
      (hG : G.gap → l.startedAt.isSome → ∀ e ∈ l.endedAt, Periods.ClearBy l.periods e)
      (hR : ∀ e ∈ l.reports, G.reports e.id → l.startedAt.isSome → ∀ t ∈ l.endedAt, e.startedAt < t) :
      Move G l (l.reopen addMs)
  | ingest (reports : List EventRow)
      (h : ∀ e ∈ reports, e ∈ l.reports ∨ l.Stored e ∧
        (G.reports e.id → e.startedAt < l.now ∧ (l.Past e.id → ∀ x ∈ e.endedAt, x ≤ l.now))) :
      Move G l { l with reports }

namespace Lifecycle

@[simp] theorem pauseClock_checkStarts (l : Lifecycle) (behavior : TimerBehavior) :
    (l.pauseClock behavior).checkStarts = l.checkStarts := by
  cases behavior <;> rfl

@[simp] theorem reopen_checkStarts (l : Lifecycle) (addMs : Int) :
    (l.reopen addMs).checkStarts = l.checkStarts := by
  rw [reopen]
  split <;> rfl

@[simp] theorem finish_checkStarts (l : Lifecycle) (endReason : SessionEndReason)
    (gap : Option (Int × EventId)) : (l.finish endReason gap).checkStarts = l.checkStarts := by
  rw [finish]
  split <;> rfl

end Lifecycle

variable {G : Gate} {l l' : Lifecycle}

theorem Move.checkStarts_subset (h : Move G l l') :
    l.checkStarts ⊆ l'.checkStarts := by
  cases h
  case checkStarted => exact List.subset_append_left _ _
  case pause => rw [Lifecycle.pause, Lifecycle.pauseClock_checkStarts]; exact List.Subset.refl _
  case finish => rw [Lifecycle.finish_checkStarts]; exact List.Subset.refl _
  case reopen => rw [Lifecycle.reopen_checkStarts]; exact List.Subset.refl _
  all_goals exact List.Subset.refl _

/-- A few moves in a row. -/
abbrev Moves (G : Gate) : Lifecycle → Lifecycle → Prop := Relation.ReflTransGen (Move G)

theorem Moves.invariant {I : Lifecycle → Prop}
    (hstep : ∀ {l l'}, I l → Move G l l' → I l') (h : Moves G l l')
    (hl : I l) : I l' := by
  induction h with
  | refl => exact hl
  | tail _ hm ih => exact hstep ih hm

/-! ## Nothing is dated in the future -/

namespace Lifecycle

/-- The clock, the last heartbeat, the end, the checks and the answers are of the past. -/
structure Timely (l : Lifecycle) : Prop where
  running : ∀ rs ∈ l.clock.runningSince, rs ≤ l.now
  heard : ∀ t ∈ l.lastHeartbeatAt, t ≤ l.now
  ended : ∀ t ∈ l.endedAt, t ≤ l.now
  checks : ∀ t ∈ l.checkStarts, t ≤ l.now
  answers : ∀ a ∈ l.answers, a.answeredAt ≤ l.now

variable {l : Lifecycle}

theorem Timely.mono (h : l.Timely) {t : Int} (ht : l.now ≤ t) : { l with now := t }.Timely :=
  ⟨fun rs hrs => (h.running rs hrs).trans ht, fun t' ht' => (h.heard t' ht').trans ht,
    fun e he => (h.ended e he).trans ht, fun c hc => (h.checks c hc).trans ht,
      fun a ha => (h.answers a ha).trans ht⟩

theorem startClock_running (h : ∀ rs ∈ l.clock.runningSince, rs ≤ l.now) :
    ∀ rs ∈ (l.startClock l.now).clock.runningSince, rs ≤ l.now := by
  intro rs hrs
  rw [startClock, clockStart_runningSince, Option.mem_some_iff] at hrs
  cases hr : l.clock.runningSince with
  | none =>
    rw [hr] at hrs
    exact hrs.ge
  | some rs' =>
    rw [hr] at hrs
    exact hrs ▸ h rs' hr

theorem stopClock_running (l : Lifecycle) (atMs : Int) :
    ∀ rs ∈ (l.stopClock atMs).clock.runningSince, rs ≤ l.now := by
  intro rs hrs
  rw [stopClock, clockStop_runningSince] at hrs
  cases hrs

theorem endInstant_le (h : l.Timely) (endReason : SessionEndReason) :
    l.endInstant endReason ≤ l.now := by
  rw [endInstant.eq_def]
  split
  next rs hrs => exact max_le (h.running rs hrs) (min_le_left _ _)
  next => exact le_rfl

theorem le_endInstant (h : l.Timely) (endReason : SessionEndReason) :
    ∀ rs ∈ l.clock.runningSince, rs ≤ l.endInstant endReason := by
  intro rs hrs
  rw [endInstant.eq_def]
  split
  next rs' hrs' =>
    obtain rfl := Option.some.inj (hrs'.symm.trans hrs)
    exact le_max_left _ _
  next => exact h.running rs hrs

theorem mem_upsertAnswer {answers : List Answer} {a b : Answer}
    (h : b ∈ (upsertAnswer answers a).1) : b ∈ answers ∨ b = a := by
  rw [upsertAnswer] at h
  split at h
  · rwa [List.mem_append, List.mem_singleton] at h
  · split at h
    · rcases List.mem_map.1 h with ⟨c, hc, rfl⟩
      split
      · exact .inr rfl
      · exact .inl hc
    · exact .inl h

end Lifecycle

/-- A move dates nothing in the future. -/
theorem Move.timely (hm : Move G l l') (h : l.Timely) : l'.Timely := by
  have hstart := Lifecycle.startClock_running h.running
  cases hm
  case tick t ht => exact h.mono ht
  case hear =>
    refine { h with heard := ?_ }
    rintro t ⟨⟩
    exact le_rfl
  case outage last _ _ => exact { h with running := l.stopClock_running _ }
  case restart => exact { h with running := hstart }
  case save a _ ha _ =>
    refine { h with answers := fun b hb => ?_ }
    rcases Lifecycle.mem_upsertAnswer hb with hb | rfl
    · exact h.answers b hb
    · exact ha
  case pause behavior reason _ _ =>
    cases behavior with
    | stop => exact { h with running := l.stopClock_running _ }
    | «continue» => exact { h with running := hstart }
  case hold => exact { h with running := l.stopClock_running _ }
  case finish endReason gap _ _ _ _ =>
    have hend : ∀ t ∈ some (l.endInstant endReason), t ≤ l.now := by
      rintro t ⟨⟩
      exact Lifecycle.endInstant_le h endReason
    rw [Lifecycle.finish]
    split
    · exact ⟨l.stopClock_running _, h.heard, hend, h.checks, h.answers⟩
    · exact ⟨l.stopClock_running _, h.heard, hend, h.checks, h.answers⟩
  case start | releaseActive => exact { h with running := hstart }
  case checkStarted =>
    refine { h with checks := fun t ht => ?_ }
    rcases List.mem_append.1 ht with ht | ht
    · exact h.checks t ht
    · exact (List.mem_singleton.1 ht).le
  case gapHold => exact { h with running := l.stopClock_running _ }
  case gapContinue => exact { h with running := hstart }
  case reopen addMs _ _ _ _ =>
    rw [Lifecycle.reopen]
    split
    · exact { h with ended := nofun }
    · exact { h with ended := nofun }
  all_goals exact { h with }

end SmartProctoring
