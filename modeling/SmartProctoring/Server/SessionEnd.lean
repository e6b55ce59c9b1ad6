import SmartProctoring.Server.Answers

/-!
# How a session ends, and what it keeps

A session is over exactly when it has an end and a reason for it, and what was graded is what is
stored: no answer changes after the end.  Whatever happens to a session, the start of its exam is
never moved and no stored answer is replaced by an older one.
-/

set_option autoImplicit false

namespace SmartProctoring

open List

/-- The reasons for which a started exam is graded. -/
def Graded (l : Lifecycle) (endReason : SessionEndReason) : Prop :=
  l.startedAt.isSome ∧ endReason ≠ .abandoned ∧ endReason ≠ .candidateWithdrew
  deriving Decidable

namespace Lifecycle

/-- The session stands ended at `atMs`, for `endReason`. -/
structure EndedAt (l : Lifecycle) (endReason : SessionEndReason) (atMs : Int) : Prop where
  reason : l.endReason = some endReason
  endedAt : l.endedAt = some atMs
  status : l.status = endStatus endReason
  stopped : l.clock.runningSince = none
  score : l.score = if Graded l endReason then some ⟨atMs, l.answers⟩ else none

/-- A session that is over has ended, and one that is not has no end. -/
structure EndOk (l : Lifecycle) : Prop where
  live : ¬ l.status.isTerminal → l.endReason = none ∧ l.endedAt = none ∧ l.score = none
  ended : l.status.isTerminal → ∃ endReason atMs, l.EndedAt endReason atMs

variable {l l' : Lifecycle}

theorem EndOk.goOn (h : l.EndOk) (hs : ¬ l.status.isTerminal) (st : SessionStatus)
    (hst : ¬ st.isTerminal) (hs' : l'.status = st) (hreason : l'.endReason = l.endReason)
    (hend : l'.endedAt = l.endedAt) (hscore : l'.score = l.score) : l'.EndOk where
  live _ := by
    rw [hreason, hend, hscore]
    exact h.live hs
  ended ht := absurd (hs' ▸ ht) hst

theorem EndOk.keep (h : l.EndOk) (hs : l'.status = l.status) (hr : l'.endReason = l.endReason)
    (he : l'.endedAt = l.endedAt) (hc : l'.clock.runningSince = l.clock.runningSince)
    (hst : l'.startedAt = l.startedAt) (hsc : l'.score = l.score) (ha : l'.answers = l.answers) :
    l'.EndOk := by
  refine ⟨fun hn => by rw [hr, he, hsc]; exact h.live (hs ▸ hn), fun ht => ?_⟩
  obtain ⟨endReason, atMs, hend⟩ := h.ended (hs ▸ ht)
  refine ⟨endReason, atMs, hr.trans hend.reason, he.trans hend.endedAt, hs.trans hend.status,
    hc.trans hend.stopped, ?_⟩
  rw [hsc, hend.score, ha]
  exact if_congr (by rw [Graded, Graded, hst]) rfl rfl

theorem endOk_finish (h : l.EndOk) (endReason : SessionEndReason) (gap : Option (Int × EventId))
    (hs : ¬ l.status.isTerminal) : (l.finish endReason gap).EndOk := by
  have hterminal := endStatus_isTerminal endReason
  have hstopped := clockStop_runningSince l.clock (l.endInstant endReason)
  rw [finish]
  split
  next hgraded =>
    refine ⟨fun hn => absurd hterminal hn, fun _ => ⟨endReason, _, rfl, rfl, rfl, hstopped, ?_⟩⟩
    exact (if_pos hgraded).symm
  next hgraded =>
    refine ⟨fun hn => absurd hterminal hn, fun _ => ⟨endReason, _, rfl, rfl, rfl, hstopped, ?_⟩⟩
    exact (h.live hs).2.2.trans (if_neg hgraded).symm

end Lifecycle

open Lifecycle

variable {G : Gate} {l l' : Lifecycle}

/-- **A move ends a session as a whole, or leaves its end alone.** -/
theorem Move.endOk (hm : Move G l l') (h : l.EndOk) : l'.EndOk := by
  have hlive : ∀ {s : SessionStatus}, l.status = s → ¬ s.isTerminal → ¬ l.status.isTerminal :=
    fun hs hn => hs ▸ hn
  cases hm
  case outage hs _ |
      restart hs _ => exact h.goOn (hlive hs (by decide)) .active (by decide) hs rfl rfl rfl
  case save hs _ _ => exact h.goOn hs _ hs rfl rfl rfl rfl
  case pause behavior reason hs _ =>
    cases behavior <;> exact h.goOn (hlive hs (by decide)) .paused (by decide) rfl rfl rfl rfl
  case hold hs => exact h.goOn hs .onHold (by decide) rfl rfl rfl rfl
  case finish endReason gap hs _ _ _ => exact endOk_finish h endReason gap hs
  case start hs _ => exact h.goOn (hlive hs (by decide)) .active (by decide) rfl rfl rfl rfl
  case release st hs hst =>
    refine h.goOn (hlive hs (by decide)) st ?_ rfl rfl rfl rfl
    rcases hst with rfl | rfl <;> decide
  case releaseActive hs _ => exact h.goOn (hlive hs (by decide)) .active (by decide) rfl rfl rfl rfl
  case ready hs => exact h.goOn (hlive hs (by decide)) .ready (by decide) rfl rfl rfl rfl
  case gapHold hok => exact h.goOn hok.status .onHold (by decide) rfl rfl rfl rfl
  case gapContinue hok => exact h.goOn hok.status .active (by decide) rfl rfl rfl rfl
  case gapReady hok => exact h.goOn hok.status .ready (by decide) rfl rfl rfl rfl
  case reopen addMs _ _ _ _ =>
    rw [Lifecycle.reopen]
    split
    · exact ⟨fun _ => ⟨rfl, rfl, rfl⟩,
        fun ht => absurd ht (show ¬ SessionStatus.isTerminal .onHold by decide)⟩
    · exact ⟨fun _ => ⟨rfl, rfl, rfl⟩,
        fun ht => absurd ht (show ¬ SessionStatus.isTerminal .invited by decide)⟩
  all_goals exact h.keep rfl rfl rfl rfl rfl rfl rfl

/-- Every reachable session is over exactly when it has an end and a reason, and its status is the
one of the reason; it then has no running clock, and (until the exam is regraded, which is no
operation here) it is scored exactly when its exam had started and was neither abandoned nor given
up, as of the end and for the answers that are stored. -/
theorem session_ends {m : SessionMutation} (h : sessionMachine.Reachable m) :
    (m.session.status.isTerminal ↔ m.session.endedAt.isSome) ∧
      (m.session.endReason.isSome ↔ m.session.endedAt.isSome) ∧
      (¬ m.session.endedAt.isSome → m.session.score = none) ∧
      ∀ endReason ∈ m.session.endReason, ∀ atMs ∈ m.session.endedAt,
        m.lifecycle.EndedAt endReason atMs := by
  have hfree : (keeping fun _ _ => True).Reachable m := h.restrict fun _ _ => trivial
  obtain ⟨-, hok⟩ := keeping_invariant (I := EndOk) (fun m op _ => Gate.keeps_free m op)
    (fun _ _ _ _ _ => ⟨fun _ => ⟨rfl, rfl, rfl⟩,
      fun ht => absurd ht (show ¬ SessionStatus.isTerminal .invited by decide)⟩)
    (fun _ _ _ hl hm => hm.endOk hl) hfree
  by_cases hs : m.session.status.isTerminal
  · obtain ⟨endReason, atMs, hend⟩ := hok.ended hs
    have hreason : m.session.endReason = some endReason := hend.reason
    have hat : m.session.endedAt = some atMs := hend.endedAt
    rw [hreason, hat]
    refine ⟨by simp [hs], by simp, by simp, fun _ hr _ ha => ?_⟩
    rw [← Option.some.inj hr, ← Option.some.inj ha]
    exact hend
  · obtain ⟨hreason, hat, hscore⟩ := hok.live hs
    have hreason : m.session.endReason = none := hreason
    have hat : m.session.endedAt = none := hat
    rw [hreason, hat]
    exact ⟨by simp [hs], by simp, fun _ => hscore, nofun⟩

theorem session_ends_expired :
    (runRequests (startedExam {})
      [⟨50000, {}, saveText 50000⟩, ⟨71000, {}, .sweepExpiry⟩]).lifecycle.EndedAt .timeExpired 64000 :=
  (session_ends (reachable_started (by decide))).2.2.2 _ (by decide) _ (by decide)

/-! ## What a session keeps -/

/-- The start of the exam stays, and for each stored answer that answer or a newer one. -/
structure Lifecycle.Kept (l l' : Lifecycle) : Prop where
  startedAt : ∀ t, l.startedAt = some t → l'.startedAt = some t
  answers : ∀ a ∈ l.answers, ∃ b ∈ l'.answers,
    b.questionId = a.questionId ∧ (b = a ∨ a.clientSeq < b.clientSeq)

theorem Lifecycle.Kept.trans {l'' : Lifecycle} (h : l.Kept l') (h' : l'.Kept l'') : l.Kept l'' where
  startedAt t ht := h'.startedAt t (h.startedAt t ht)
  answers a ha := by
    obtain ⟨b, hb, hq, hab⟩ := h.answers a ha
    obtain ⟨c, hc, hq', hbc⟩ := h'.answers b hb
    refine ⟨c, hc, hq'.trans hq, ?_⟩
    rcases hab with rfl | hab
    · exact hbc
    · exact .inr (hbc.elim (fun heq => heq ▸ hab) hab.trans)

/-- One row for each question. -/
def OneEach (answers : List Answer) : Prop := (answers.map (·.questionId)).Nodup

theorem upsertAnswer_kept {answers : List Answer} (h : OneEach answers) (a : Answer) :
    OneEach (upsertAnswer answers a).1 ∧ ∀ b ∈ answers, ∃ c ∈ (upsertAnswer answers a).1,
      c.questionId = b.questionId ∧ (c = b ∨ b.clientSeq < c.clientSeq) := by
  rw [upsertAnswer]
  split
  next hnone =>
    refine ⟨?_, fun b hb => ⟨b, mem_append_left _ hb, rfl, .inl rfl⟩⟩
    rw [OneEach, map_append]
    refine nodup_append.2 ⟨h, nodup_singleton _, fun q hq q' hq' => ?_⟩
    obtain ⟨b, hb, rfl⟩ := mem_map.1 hq
    rw [mem_singleton.1 hq']
    simpa using find?_eq_none.1 hnone b hb
  next b hb =>
    have hq : b.questionId = a.questionId := by simpa using find?_some hb
    split
    next hnewer =>
      have hids : (answers.map fun c => if c.questionId = a.questionId then a
          else c).map (·.questionId) = answers.map (·.questionId) := by
        rw [map_map]
        refine map_congr_left fun c _ => ?_
        show (if c.questionId = a.questionId then a else c).questionId = c.questionId
        split
        next heq => exact heq.symm
        next => rfl
      refine ⟨(congrArg Nodup hids).mpr h, fun c hc => ⟨_, mem_map_of_mem hc, ?_⟩⟩
      split
      next heq =>
        obtain rfl : c = b := inj_on_of_nodup_map h hc (mem_of_find?_eq_some hb) (heq.trans hq.symm)
        exact ⟨heq.symm, .inr hnewer⟩
      next => exact ⟨rfl, .inl rfl⟩
    next => exact ⟨h, fun c hc => ⟨c, hc, rfl, .inl rfl⟩⟩

theorem Move.kept (hm : Move G l l') (h : OneEach l.answers) : OneEach l'.answers ∧ l.Kept l' := by
  have hsame : ∀ k : Lifecycle, k.answers = l.answers →
      (∀ t, l.startedAt = some t → k.startedAt = some t) → OneEach k.answers ∧ l.Kept k :=
    fun k ha hst => ⟨ha ▸ h, hst, fun a hmem => ⟨a, ha ▸ hmem, rfl, .inl rfl⟩⟩
  cases hm
  case save a _ _ _ =>
    obtain ⟨hone, hkept⟩ := upsertAnswer_kept h a
    exact ⟨hone, fun _ ht => ht, hkept⟩
  case start =>
    refine hsame _ rfl fun t ht => ?_
    show some (l.startedAt.getD l.now) = some t
    rw [ht]
    rfl
  case pause behavior _ _ _ => cases behavior <;> exact hsame _ rfl fun _ ht => ht
  case finish => rw [Lifecycle.finish]; split <;> exact hsame _ rfl fun _ ht => ht
  case reopen => rw [Lifecycle.reopen]; split <;> exact hsame _ rfl fun _ ht => ht
  all_goals exact hsame _ rfl fun _ ht => ht

/-- Along every run, whatever staff and browsers do: the start of the exam is never moved, there is
one stored answer for each question, and it is only ever replaced by one with a higher sequence
number. -/
theorem answers_forward {m m' : SessionMutation} (h : sessionMachine.Reachable m)
    (hrun : sessionMachine.Steps m m') : OneEach m'.answers ∧ m.lifecycle.Kept m'.lifecycle := by
  have hstep : ∀ (n : SessionMutation) (r : Request), n.now ≤ r.now → OneEach n.answers →
      OneEach (sessionStep r n).answers ∧ n.lifecycle.Kept (sessionStep r n).lifecycle := by
    intro n r hr hn
    refine (moves_sessionStep hr (Gate.keeps_free _ _)).invariant
      (I := fun l => OneEach l.answers ∧ n.lifecycle.Kept l) (fun hl hm => ?_)
      ⟨hn, fun _ ht => ht, fun a ha => ⟨a, ha, rfl, .inl rfl⟩⟩
    obtain ⟨hone, hkept⟩ := hm.kept hl.1
    exact ⟨hone, hl.2.trans hkept⟩
  have hone : OneEach m.answers := h.invariant (I := fun n => OneEach n.answers)
    (by rintro _ ⟨_, _, _, _, _, rfl⟩; exact .nil) fun n r _ hr hn => (hstep n r hr hn).1
  exact hrun.rel (I := fun n => OneEach n.answers) (R := fun n n' => n.lifecycle.Kept n'.lifecycle)
    (fun n => ⟨fun _ ht => ht, fun a ha => ⟨a, ha, rfl, .inl rfl⟩⟩) .trans
    (fun n r hn hr => hstep n r hr hn) hone

/-- The exam with its answer. -/
def answeredExam : SessionMutation := runRequests (startedExam {}) [⟨50000, {}, saveText 50000⟩]

theorem answers_forward_expired :
    answeredExam.lifecycle.Kept (sessionStep ⟨71000, {}, .sweepExpiry⟩ answeredExam).lifecycle := by
  have hreach : sessionMachine.Reachable answeredExam := reachable_started (by decide)
  have hrun := (Machine.Steps.refl answeredExam).tail (M := sessionMachine)
    ⟨71000, {}, .sweepExpiry⟩ (by decide)
  exact (answers_forward hreach hrun).2

end SmartProctoring
