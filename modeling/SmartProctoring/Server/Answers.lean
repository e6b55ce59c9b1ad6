import SmartProctoring.Server.Clock

/-!
# Answers and the end of the exam time

An exam that ends because its time has run out ends at the instant that happened.  Every answer that
is stored and graded is from before it, if no answer is accepted that was given after the running
clock had run out.  The server does not see to that: it takes answers as long as the session is
active, and whoever notices that the time has run out may do so later.
-/

set_option autoImplicit false

namespace SmartProctoring

namespace Lifecycle

/-- No answer is later than the end of the exam time. -/
structure AnswersOk (l : Lifecycle) : Prop where
  running : ∀ rs ∈ l.clock.runningSince, ∀ a ∈ l.answers,
    a.answeredAt ≤ max rs (l.clock.runsOutAt rs)
  live : ¬ l.status.isTerminal → l.endReason = none ∧ l.score = none
  expired : l.endReason = some .timeExpired → ∃ e ∈ l.endedAt,
    (∀ a ∈ l.answers, a.answeredAt ≤ e) ∧ ∀ sc ∈ l.score, ∀ a ∈ sc.graded, a.answeredAt ≤ e

theorem answersOk_assigned (now durationMs extraMs : Int) :
    (assigned now durationMs extraMs).AnswersOk :=
  ⟨nofun, fun _ => ⟨rfl, rfl⟩, nofun⟩

variable {l l' : Lifecycle}

theorem AnswersOk.of_live (hrun : ∀ rs ∈ l'.clock.runningSince, ∀ a ∈ l'.answers,
      a.answeredAt ≤ max rs (l'.clock.runsOutAt rs))
    (hend : l'.endReason = none) (hscore : l'.score = none) : l'.AnswersOk :=
  ⟨hrun, fun _ => ⟨hend, hscore⟩, fun h => by rw [hend] at h; cases h⟩

theorem AnswersOk.stop (h : l.AnswersOk) (hs : ¬ l.status.isTerminal) {atMs : Int}
    (hclock : l'.clock = clockStop l.clock atMs) (hend : l'.endReason = l.endReason)
    (hscore : l'.score = l.score) : l'.AnswersOk := by
  refine .of_live (fun rs hrs => ?_) (hend.trans (h.live hs).1) (hscore.trans (h.live hs).2)
  rw [hclock, clockStop_runningSince] at hrs
  cases hrs

theorem AnswersOk.start (h : l.AnswersOk) (ht : l.Timely) (hs : ¬ l.status.isTerminal)
    (hclock : l'.clock = clockStart l.clock l.now) (hanswers : l'.answers = l.answers)
    (hend : l'.endReason = l.endReason) (hscore : l'.score = l.score) : l'.AnswersOk := by
  refine .of_live (fun rs hrs a ha => ?_) (hend.trans (h.live hs).1) (hscore.trans (h.live hs).2)
  rw [hanswers] at ha
  rw [hclock, clockStart_runningSince, Option.mem_some_iff] at hrs
  subst hrs
  cases hr : l.clock.runningSince with
  | none => exact (ht.answers a ha).trans (le_max_left _ _)
  | some rs =>
    rw [hclock, clockStart_of_running hr]
    exact h.running rs hr a ha

theorem AnswersOk.le_endInstant (h : l.AnswersOk) (ht : l.Timely) {a : Answer}
    (ha : a ∈ l.answers) (endReason : SessionEndReason) :
    a.answeredAt ≤ l.endInstant endReason := by
  have hnow := ht.answers a ha
  rw [endInstant.eq_def]
  split
  next rs hrs =>
    have hout := h.running rs hrs a ha
    omega
  next => exact hnow

end Lifecycle

/-- **A move keeps the answers before the end of the exam time**, if the gate lets no answer be
given after it. -/
theorem Move.answersOk {G : Gate} (hG : G.answers) {l l' : Lifecycle} (hm : Move G l l')
    (ht : l.Timely) (hrun : l.RunsAllowed) (h : l.AnswersOk) : l'.AnswersOk := by
  have hlive : ∀ {s : SessionStatus}, l.status = s → ¬ s.isTerminal → ¬ l.status.isTerminal :=
    fun hs hn => hs ▸ hn
  cases hm
  case outage last hs _ => exact h.stop (hlive hs (by decide)) rfl rfl rfl
  case restart hs _ => exact h.start ht (hlive hs (by decide)) rfl rfl rfl rfl
  case save a hs ha hin =>
    refine .of_live (fun rs hrs b hb => ?_) (h.live hs).1 (h.live hs).2
    rcases Lifecycle.mem_upsertAnswer hb with hb | rfl
    · exact h.running rs hrs b hb
    · by_cases he : clockExpired l.clock l.now = true
      · exact hin hG rs hrs he
      · -- the clock has not run out, so now is not too late
        rw [clockExpired_iff_of_running hrs (ht.running rs hrs)] at he
        exact (ha.trans (not_le.1 he).le).trans (le_max_right _ _)
  case pause behavior reason hs _ =>
    cases behavior with
    | stop => exact h.stop (hlive hs (by decide)) rfl rfl rfl
    | «continue» => exact h.start ht (hlive hs (by decide)) rfl rfl rfl rfl
  case hold reason hs => exact h.stop hs rfl rfl rfl
  case finish endReason gap hs _ _ _ =>
    have hend : ∀ a ∈ l.answers, a.answeredAt ≤ l.endInstant endReason :=
      fun a ha => h.le_endInstant ht ha endReason
    have hstop : ∀ rs ∈ (l.finish endReason gap).clock.runningSince, ∀ a ∈ l.answers,
        a.answeredAt ≤ max rs ((l.finish endReason gap).clock.runsOutAt rs) := by
      intro rs hrs
      have hnone : (l.finish endReason gap).clock.runningSince = none := by
        rw [Lifecycle.finish]
        split <;> exact clockStop_runningSince _ _
      rw [hnone] at hrs
      cases hrs
    rw [Lifecycle.finish] at hstop ⊢
    have hterminal := endStatus_isTerminal endReason
    split
    next hgrade =>
      rw [if_pos hgrade] at hstop
      refine ⟨hstop, fun hn => absurd hterminal hn, fun _ => ⟨_, rfl, hend, ?_⟩⟩
      rintro sc ⟨⟩
      exact hend
    next hgrade =>
      rw [if_neg hgrade] at hstop
      refine ⟨hstop, fun hn => absurd hterminal hn, fun _ => ⟨_, rfl, hend, fun sc hsc => ?_⟩⟩
      have hnone : l.score = none := (h.live hs).2
      rw [show (l.closeSession endReason gap (l.endInstant endReason)).score = l.score from rfl,
        hnone] at hsc
      cases hsc
  case start extraMs hs _ => exact h.start ht (hlive hs (by decide)) rfl rfl rfl rfl
  case release st hs _ =>
    exact .of_live h.running (h.live (hlive hs (by decide))).1 (h.live (hlive hs (by decide))).2
  case releaseActive reason hs _ => exact h.start ht (hlive hs (by decide)) rfl rfl rfl rfl
  case ready hs =>
    exact .of_live h.running (h.live (hlive hs (by decide))).1 (h.live (hlive hs (by decide))).2
  case gapHold hok => exact h.stop hok.status rfl rfl rfl
  case gapContinue hok => exact h.start ht hok.status rfl rfl rfl rfl
  case gapReady hs _ =>
    exact .of_live h.running (h.live (hlive hs (by decide))).1 (h.live (hlive hs (by decide))).2
  case extend addMs hadd =>
    refine ⟨fun rs hrs a ha => ?_, h.live, h.expired⟩
    have hle := h.running rs hrs a ha
    simp only [ExamClock.runsOutAt] at hle ⊢
    omega
  case refresh extraMs hs hn hb hd =>
    have hstopped : l.clock.runningSince = none := by
      refine hrun.stopped ?_ ?_ <;> (rintro hs'; rw [hs'] at hs; revert hs; decide)
    refine ⟨fun rs hrs => ?_, h.live, h.expired⟩
    rw [show (l.refresh extraMs).clock.runningSince = none from hstopped] at hrs
    cases hrs
  case reopen addMs hadd hs _ _ =>
    have hstopped : l.clock.runningSince = none := by
      rw [SessionStatus.isTerminal_iff] at hs
      refine hrun.stopped ?_ ?_ <;> rcases hs with hs | hs <;> simp [hs]
    have hnone : ∀ rs ∈ l.clock.runningSince, False := by
      intro rs hrs
      rw [hstopped] at hrs
      cases hrs
    rw [Lifecycle.reopen]
    split
    · exact .of_live (fun rs hrs => (hnone rs hrs).elim) rfl rfl
    · exact .of_live (fun rs hrs => (hnone rs hrs).elim) rfl rfl
  all_goals exact ⟨h.running, h.live, h.expired⟩

/-! ## Every reachable session -/

/-- The promise that no answer is taken that was given after the clock ran out. -/
def Gate.answersInTime : Gate := { Gate.free with answers := True }

theorem Gate.keeps_answersInTime {m : SessionMutation} {op : Op} (h : AnswersInTime m op) :
    Keeps answersInTime m op :=
  { Gate.keeps_free m op with answers := fun _ => h }

/-- Where no answer is taken that was given after the clock ran out: no stored answer is later than
the instant at which the running clock runs out, and an exam that ended for its time stored and
graded none that is later than its end. -/
theorem answers_before_end {m : SessionMutation} (h : (keeping AnswersInTime).Reachable m) :
    (∀ rs ∈ m.session.runningSince, ∀ a ∈ m.answers,
      a.answeredAt ≤ max rs ((sessionClock m.session).runsOutAt rs)) ∧
    (m.session.endReason = some .timeExpired → ∃ e ∈ m.session.endedAt,
      (∀ a ∈ m.answers, a.answeredAt ≤ e) ∧
        ∀ sc ∈ m.session.score, ∀ a ∈ sc.graded, a.answeredAt ≤ e) := by
  obtain ⟨-, -, hok⟩ := keeping_invariant (I := fun l => l.RunsAllowed ∧ l.AnswersOk)
    (fun _ _ => Gate.keeps_answersInTime)
    (fun _ _ _ _ _ => ⟨Lifecycle.runsAllowed_assigned _ _ _, Lifecycle.answersOk_assigned _ _ _⟩)
    (fun _ _ ht hl hm => ⟨hm.runsAllowed hl.1, hm.answersOk trivial ht hl.1 hl.2⟩) h
  exact ⟨hok.running, hok.expired⟩

/-- One answer, saved by browser 1. -/
def saveText (answeredAt : Int) : Op :=
  .saveAnswer ⟨1⟩ [{ id := ⟨1⟩, type := .longText }] ⟨1⟩
    { value := .text "x", clientSeq := 1, answeredAt := some answeredAt }

/-- A one-minute exam started at 4000, with an answer given at 50000 and its time noticed to have
run out at 71000. -/
theorem answers_before_end_expired :
    let m := runRequests (startedExam {})
      [⟨50000, {}, saveText 50000⟩, ⟨71000, {}, .sweepExpiry⟩]
    (∀ rs ∈ m.session.runningSince, ∀ a ∈ m.answers,
      a.answeredAt ≤ max rs ((sessionClock m.session).runsOutAt rs)) ∧
    (m.session.endReason = some .timeExpired → ∃ e ∈ m.session.endedAt,
      (∀ a ∈ m.answers, a.answeredAt ≤ e) ∧
        ∀ sc ∈ m.session.score, ∀ a ∈ sc.graded, a.answeredAt ≤ e) :=
  answers_before_end (keeping_started (by decide))

/-- The same exam takes an answer given at 70000, and ends at 64000. -/
theorem answer_after_end :
    ¬ ∀ m, sessionMachine.Reachable m → m.session.endReason = some .timeExpired →
      ∃ e ∈ m.session.endedAt, ∀ a ∈ m.answers, a.answeredAt ≤ e := by
  intro h
  have hend := h (runRequests (startedExam {})
      [⟨70000, {}, saveText 70000⟩, ⟨71000, {}, .sweepExpiry⟩])
    (reachable_started (by decide)) (by decide)
  exact absurd hend (by decide)

end SmartProctoring
