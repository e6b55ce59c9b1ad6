import SmartProctoring.Server.Refinement.Actions

/-!
# Every transaction is a few moves: checks

The operations of `checks.ts`.  A completed check is, in the view, a heartbeat, some reports closed,
and then one of the gap moves; which reports close does not depend on the periods, so they close
first (`lifecycle_closeGapPeriods`).
-/

set_option autoImplicit false

namespace SmartProctoring

variable {G : Gate} {m m' : SessionMutation}

open SessionMutation

/-! ## Small changes -/

theorem lifecycle_mapChecks (m : SessionMutation) {f : Check → Check}
    (h : ∀ c, (f c).issuedAt = c.issuedAt) : (m.mapChecks f).lifecycle = m.lifecycle := by
  have hmap : (m.checks.map f).map (·.issuedAt) = m.checks.map (·.issuedAt) := by
    rw [List.map_map]
    exact List.map_congr_left fun c _ => h c
  simp only [lifecycle, mapChecks, hmap]

theorem lifecycle_closeCheck (m : SessionMutation) (checkId : Nat) (out : CheckOutcome) :
    (closeCheck m checkId out).lifecycle = m.lifecycle :=
  lifecycle_mapChecks m fun c => by split <;> rfl

theorem lifecycle_recordMultipleInstances (m : SessionMutation) (previous new : InstanceId)
    (purpose : Option CheckPurpose) :
    (recordMultipleInstances m previous new purpose).lifecycle = m.lifecycle := by
  rw [recordMultipleInstances]
  split
  · rfl
  · exact lifecycle_addEvent _ _ rfl

theorem lifecycle_noteOtherInstance (m : SessionMutation) (instanceId : InstanceId)
    (device : DeviceInfo) (purpose : CheckPurpose) :
    (noteOtherInstance m instanceId device purpose).lifecycle = m.lifecycle := by
  rw [noteOtherInstance]
  split
  · split
    · exact lifecycle_recordMultipleInstances _ _ _ _
    · rfl
  · rfl

theorem lifecycle_supersedeOthers (m : SessionMutation) (instanceId : InstanceId) :
    (supersedeOthers m instanceId).lifecycle = m.lifecycle := by
  have hfold : ∀ (l : List InstanceId) (m : SessionMutation), (l.foldl (fun m target =>
      m.enqueueCommand (.superseded SUPERSEDED_MESSAGE) (some target)) m).lifecycle =
      m.lifecycle := by
    intro l
    induction l with
    | nil => exact fun _ => rfl
    | cons i l ih => exact fun m => ih _
  exact (lifecycle_set_quiet _ fun _ => rfl).trans (hfold _ _)

/-! ## Starting a check -/

theorem lifecycle_issueCheck (m : SessionMutation) (check : Check) :
    (issueCheck m check).lifecycle =
      { m.lifecycle with checkStarts := m.lifecycle.checkStarts ++ [check.issuedAt] } := by
  simp [lifecycle, issueCheck]

theorem status_of_requiredCheckFor {s : ExamSession} {i : InstanceId}
    (h : requiredCheckFor s i = some .initial) : s.status = .invited := by
  rw [requiredCheckFor] at h
  cases hs : s.status <;> simp only [hs] at h <;> first | rfl | (split at h <;> cases h) | cases h

variable {instanceId : InstanceId}

theorem moves_beginCheck {device : DeviceInfo} {purpose : CheckPurpose}
    (h : purpose = .initial → m.session.status = .invited) :
    Moves G m.lifecycle (beginCheck m instanceId device purpose).lifecycle := by
  have hother : (supersedeOthers (noteOtherInstance (m.mapChecks fun c =>
      if c.status = .open then c.expire m.now else c) instanceId device purpose)
      instanceId).lifecycle = m.lifecycle := by
    rw [lifecycle_supersedeOthers, lifecycle_noteOtherInstance]
    exact lifecycle_mapChecks m fun c => by split <;> rfl
  rw [beginCheck]
  generalize supersedeOthers _ _ = n at hother ⊢
  rw [← hother]
  have hissue : Move G n.lifecycle (issueCheck n (newCheck n instanceId device purpose)).lifecycle :=
    lifecycle_issueCheck n _ ▸ .checkStarted
  split
  next hin =>
    have hs : n.session.status = .invited :=
      (congrArg Lifecycle.status hother).trans (h hin.1)
    exact .tail (.single hissue) (.checkIn .initialCheck hs (Option.isNone_iff_eq_none.1 hin.2))
  next => exact .single hissue

theorem moves_startCheck {body : StartCheckRequest} :
    (startCheck m instanceId body).Yields fun m' => Moves G m.lifecycle m'.lifecycle := by
  rw [startCheck]
  split
  next required hreq =>
    refine .guard fun _ => .whenever (.guard fun _ => .guard fun _ => .pure ?_)
    exact moves_beginCheck fun h => status_of_requiredCheckFor (h ▸ hreq)
  next => exact .ite (fun _ => .thrown _) fun _ => .thrown _

/-! ## Closing the gap before a check -/

theorem Lifecycle.closeReports_none (l : Lifecycle) (atMs : Int)
    (note : EventDetails → EventDetails) : l.closeReports (fun _ => false) atMs note = l := by
  have hid : closeReport l.now (fun _ => false) atMs note = id := by
    funext e
    simp [closeReport]
  rw [closeReports, hid, List.map_id]

theorem lifecycle_closePrecedingPeriod (m : SessionMutation) (check : Check)
    (instanceId : InstanceId) (gapStart : Int) :
    ((closePrecedingPeriod m check instanceId gapStart).insertPeriod .resumeCheck check.issuedAt
      (some (closePrecedingPeriod m check instanceId gapStart).now) (.check check.purpose)
      { checkId := some check.id }).lifecycle =
      m.lifecycle.closeGap check instanceId gapStart := by
  have hopen : Periods.openRow m.lifecycle.periods = m.openPeriodRow := rfl
  have hclosed : (closePrecedingPeriod m check instanceId gapStart).lifecycle.insertPeriod
      { kind := .resumeCheck
        startedAt := check.issuedAt
        endedAt := some (max check.issuedAt m.now)
        reason := .check check.purpose
        metadata := { checkId := some check.id } } =
      m.lifecycle.closeGap check instanceId gapStart ∧
        (closePrecedingPeriod m check instanceId gapStart).lifecycle.now = m.now := by
    rw [Lifecycle.closeGap, Periods.closeGap, hopen, closePrecedingPeriod]
    cases m.openPeriodRow with
    | none => exact ⟨rfl, rfl⟩
    | some p =>
      dsimp only
      split
      · split
        · rw [lifecycle_insertPeriod, lifecycle_closeOpenPeriod]
          exact ⟨rfl, rfl⟩
        · rw [lifecycle_closeOpenPeriod]
          exact ⟨rfl, rfl⟩
      · rw [lifecycle_closeOpenPeriod]
        exact ⟨rfl, rfl⟩
  rw [← hclosed.1,
    show (closePrecedingPeriod m check instanceId gapStart).now = m.now from hclosed.2]
  rfl

theorem lifecycle_endReportingOutage (m : SessionMutation) :
    ∃ sel note, (endReportingOutage m).lifecycle = m.lifecycle.closeReports sel m.now note := by
  rw [endReportingOutage]
  split
  next id _ =>
    exact ⟨_, _, (lifecycle_set_quiet _ fun _ => rfl).trans (lifecycle_closeEvents _ _ _ _)⟩
  next =>
    exact ⟨fun _ => false, id, (lifecycle_set_quiet _ fun _ => rfl).trans
      (Lifecycle.closeReports_none _ _ _).symm⟩

variable {check : Check}

theorem moves_closeReplacedInstanceEvents (instanceId : InstanceId) {gapStart : Int}
    (hc : check.issuedAt ∈ m.lifecycle.checkStarts) (hg : gapStart ≤ check.issuedAt) :
    Moves G m.lifecycle (closeReplacedInstanceEvents m instanceId gapStart).lifecycle := by
  rw [closeReplacedInstanceEvents, lifecycle_closeEvents]
  exact .single (.closeReports _ _ _ (.inr ⟨_, hc, hg⟩))

theorem lifecycle_closeGapPeriods (instanceId : InstanceId) {gapStart : Int}
    (hc : check.issuedAt ∈ m.lifecycle.checkStarts) (hg : gapStart ≤ check.issuedAt) :
    ∃ reports, Moves G m.lifecycle { m.lifecycle with reports } ∧
      (closeGapPeriods m check instanceId gapStart).lifecycle =
        { m.lifecycle with reports }.closeGap check instanceId gapStart := by
  have hreplaced : ∃ reports, Moves G m.lifecycle { m.lifecycle with reports } ∧
      (if check.purpose = .reconnect then closeReplacedInstanceEvents m instanceId gapStart
        else m).lifecycle = { m.lifecycle with reports } := by
    split
    · have h := moves_closeReplacedInstanceEvents (G := G) instanceId hc hg
      exact ⟨_, h, rfl⟩
    · exact ⟨m.lifecycle.reports, .refl, rfl⟩
  obtain ⟨reports, hmoves, hn⟩ := hreplaced
  rw [closeGapPeriods]
  generalize (if check.purpose = .reconnect then
    closeReplacedInstanceEvents m instanceId gapStart else m) = n at hn ⊢
  have hclosed := lifecycle_closePrecedingPeriod n check instanceId gapStart
  generalize (closePrecedingPeriod n check instanceId gapStart).insertPeriod .resumeCheck
    check.issuedAt _ _ _ = c at hclosed ⊢
  obtain ⟨sel, note, hend⟩ := lifecycle_endReportingOutage c
  rw [hn] at hclosed
  have hnow : c.now = m.now := congrArg Lifecycle.now hclosed
  rw [hend, hclosed]
  exact ⟨_, hmoves.tail (.closeReports sel c.now note (.inl hnow.le)), rfl⟩

/-! ## Retry or hold -/

theorem reconnectGapStart_le (s : ExamSession) (check : Check) :
    reconnectGapStart s check ≤ check.issuedAt :=
  min_le_right _ _

theorem moves_noteUnverifiable {startedAt : Int} (hc : check.issuedAt ∈ m.lifecycle.checkStarts) :
    Moves G m.lifecycle (noteUnverifiable m check instanceId startedAt).lifecycle := by
  have hnote := lifecycle_addEvent m
    { type := .identityUnverifiable
      source := some .serverIdentity
      startedAt := some startedAt
      endedAt := some m.now } rfl
  rw [noteUnverifiable]
  rw [← hnote] at hc ⊢
  split
  · exact moves_closeReplacedInstanceEvents _ hc (reconnectGapStart_le _ _)
  · exact .refl

variable {j : CheckJudgement}

theorem moves_retryOrHold {qualityOnly : Bool} (hc : check.issuedAt ∈ m.lifecycle.checkStarts) :
    (retryOrHold m j check instanceId qualityOnly).Yields fun r =>
      Moves G m.lifecycle r.1.lifecycle := by
  refine .ite (fun _ => ?_) fun _ => .pure .refl
  refine (moves_holdNow (G := G) rfl).bind fun n hn => .pure ?_
  have hmoves := (moves_noteUnverifiable hc).trans hn
  split
  · exact hmoves.trans (Moves.of_eq (lifecycle_set_quiet _ fun _ => rfl))
  · exact hmoves

/-! ## The initial check -/

theorem moves_completeCheckIn (hs : m.session.status = .invited) :
    Moves G m.lifecycle (completeCheckIn m).lifecycle := by
  rw [completeCheckIn, lifecycle_set_status _ (t := .ready) fun _ => rfl,
    lifecycle_closeOpenPeriod]
  exact .single (.ready hs)

theorem lifecycle_establishReference (m : SessionMutation) (check : Check)
    (authorizedBy : Option StaffId) :
    (establishReference m check authorizedBy).lifecycle = m.lifecycle := rfl

theorem moves_passInitial (hs : m.session.status = .invited) :
    Moves G m.lifecycle (passInitial m check instanceId).lifecycle := by
  refine (Moves.of_eq ?_).trans (moves_completeCheckIn hs)
  refine (lifecycle_set_quiet _ fun _ => rfl).trans ?_
  refine (lifecycle_addEvent _ _ rfl).trans ?_
  exact lifecycle_addEvent _ _ rfl

theorem lifecycle_addEvent_if (m : SessionMutation) (c : Prop) [Decidable c]
    (input : ServerEventInput) (h : input.fromServer = true) :
    (if c then m.addEvent input else m).lifecycle = m.lifecycle := by
  split
  · exact lifecycle_addEvent m input h
  · rfl

theorem moves_applyIdPhoto :
    (applyIdPhoto m j).Yields fun r => Moves G m.lifecycle r.1.lifecycle := by
  rw [applyIdPhoto]
  split
  next => exact .pure .refl
  next photo _ =>
    have hnoted := (lifecycle_addEvent_if _ (photo.decision = .mismatch)
      { type := .identityMismatch, source := some .serverIdentity } rfl).trans
      ((lifecycle_addEvent_if _ (photo.lowOnPoor = true)
        { type := .identityUnverifiable, source := some .serverIdentity } rfl).trans
      (lifecycle_addEvent m { type := .idPhotoCompared, source := some .serverIdentity } rfl))
    rw [← hnoted]
    refine .ite (fun _ => ?_) fun _ => .pure .refl
    exact (moves_holdNow (G := G) rfl).bind fun n hn => .pure hn

theorem moves_applyInitial
    (hs : m.session.status = .invited) (hc : check.issuedAt ∈ m.lifecycle.checkStarts) :
    (applyInitial m j check instanceId).Yields fun r => Moves G m.lifecycle r.1.lifecycle := by
  refine .ite (fun _ => moves_retryOrHold hc) fun _ => ?_
  split
  · exact moves_retryOrHold hc
  · exact moves_retryOrHold hc
  · refine .ite (fun _ => moves_retryOrHold hc) fun _ => ?_
    exact moves_applyIdPhoto.mono fun r hr => (moves_passInitial hs).trans hr

theorem moves_attestInitial (hs : m.session.status = .invited) :
    (attestInitial m instanceId).Yields fun r => Moves G m.lifecycle r.1.lifecycle := by
  refine (moves_holdNow (G := G) rfl).bind fun n hn => .pure ?_
  refine Relation.ReflTransGen.trans ?_ hn
  refine (Moves.of_eq ?_).trans (moves_completeCheckIn hs)
  exact (lifecycle_set_quiet _ fun _ => rfl).trans (lifecycle_addEvent _ _ rfl)

/-! ## After the gap -/

section Gap

variable {check : Check} {instanceId : InstanceId} {gapStart : Int}

theorem moves_holdAfterGap (instanceId : InstanceId) {opts : HoldOptions}
    (h : m.lifecycle.GapOk G check gapStart) (hopts : opts.fromServer = true) :
    (holdNow (closeGapPeriods m check instanceId gapStart) opts).Yields fun m' =>
      Moves G m.lifecycle m'.lifecycle := by
  obtain ⟨reports, hmoves, hclosed⟩ :=
    lifecycle_closeGapPeriods (G := G) instanceId h.issued h.le
  have hstatus := congrArg Lifecycle.status hclosed
  intro m' hm
  obtain ⟨-, rfl⟩ := holdNow_eq_ok.1 hm
  rw [lifecycle_enterHold _ hopts, hclosed]
  exact hmoves.tail (.gapHold check instanceId gapStart _ _ hstatus.symm.trans
    { h with })

theorem moves_holdForPauseLimit (h : m.lifecycle.GapOk G check gapStart) :
    (holdForPauseLimit (closeGapPeriods m check instanceId gapStart)).Yields fun m' =>
      Moves G m.lifecycle m'.lifecycle := by
  obtain ⟨reports, hmoves, hclosed⟩ :=
    lifecycle_closeGapPeriods (G := G) instanceId h.issued h.le
  intro m' hm
  obtain ⟨-, rfl⟩ := holdNow_eq_ok.1 hm
  rw [lifecycle_enterHold _ rfl, lifecycle_set_status _ (t := .active) fun _ => rfl, hclosed]
  exact hmoves.tail (.gapHold check instanceId gapStart _ .active nofun
    { h with })

theorem moves_resumeAfterCheck {purpose : CheckPurpose} (h : m.lifecycle.GapOk G check gapStart)
    (hG : G.starts) :
    Moves G m.lifecycle
      (resumeAfterCheck (closeGapPeriods m check instanceId gapStart) purpose).lifecycle := by
  obtain ⟨reports, hmoves, hclosed⟩ :=
    lifecycle_closeGapPeriods (G := G) instanceId h.issued h.le
  have hstatus : (closeGapPeriods m check instanceId gapStart).session.status = m.session.status :=
    congrArg Lifecycle.status hclosed
  have hok : { m.lifecycle with reports }.GapOk G check gapStart :=
    { h with }
  generalize closeGapPeriods m check instanceId gapStart = c at hclosed hstatus ⊢
  have hrow : ∀ t, (c.set fun s =>
      { (if s.status = .onHold then clearedHold s else s) with status := t }).lifecycle =
      { c.lifecycle with status := t } := fun t =>
    lifecycle_set_status c fun s => by split <;> rfl
  rw [resumeAfterCheck]
  by_cases hready : c.session.status = .onHold ∧ c.session.holdPrevStatus = some .ready
  · rw [if_pos hready, if_neg (by decide), hrow, hclosed]
    exact hmoves.tail (.gapReady check instanceId gapStart (hstatus.symm.trans hready.1) hok)
  · rw [if_neg hready]
    rw [if_pos rfl, lifecycle_addEvent_if _ _ _ rfl, lifecycle_continueActive rfl, hrow, hclosed]
    exact hmoves.tail (.gapContinue check instanceId gapStart (.check purpose) hG hok)

/-- Like `m`, but for what was reported and when the browser was last heard from. -/
def HeardSince (m n : SessionMutation) : Prop :=
  ∃ reports heard, n.lifecycle = { m.lifecycle with reports, lastHeartbeatAt := heard }

variable {n : SessionMutation}

theorem HeardSince.gapOk (hn : HeardSince m n)
    (h : m.lifecycle.GapOk G check gapStart) : n.lifecycle.GapOk G check gapStart := by
  obtain ⟨reports, heard, hn⟩ := hn
  rw [hn]
  exact { h with }

theorem HeardSince.status (hn : HeardSince m n) :
    n.session.status = m.session.status := by
  obtain ⟨reports, heard, hn⟩ := hn
  exact congrArg Lifecycle.status hn

theorem moves_endUnverifiable (m : SessionMutation) :
    Moves G m.lifecycle (endUnverifiable m).lifecycle ∧ HeardSince m (endUnverifiable m) := by
  rw [endUnverifiable]
  split
  next id _ =>
    have h := lifecycle_closeEvents m (fun e => e.id == id) m.now
      fun d => { d with closedBy := some .identityMatch }
    exact ⟨(Moves.single (.closeReports _ _ _ (.inl le_rfl))).trans (Moves.of_eq h), _, _, h⟩
  next => exact ⟨.refl, m.lifecycle.reports, m.lifecycle.lastHeartbeatAt, rfl⟩

theorem lifecycle_notePass (m : SessionMutation) (flagged : Bool) :
    (notePass m flagged).lifecycle = (endUnverifiable m).lifecycle := by
  rw [notePass]
  generalize endUnverifiable m = n
  cases flagged with
  | true => rfl
  | false => exact lifecycle_addEvent _ _ rfl

theorem moves_notePass (m : SessionMutation) (flagged : Bool) :
    Moves G m.lifecycle (notePass m flagged).lifecycle ∧ HeardSince m (notePass m flagged) := by
  rw [HeardSince, lifecycle_notePass]
  exact moves_endUnverifiable m

theorem lifecycle_verifyInstance (m : SessionMutation) (instanceId : InstanceId) :
    (verifyInstance m instanceId).lifecycle =
      { m.lifecycle with lastHeartbeatAt := some m.now } :=
  lifecycle_set m (fun v => { v with lastHeartbeatAt := some m.now }) fun _ => rfl

theorem lifecycle_countReconnect (m : SessionMutation) (purpose : CheckPurpose) :
    (countReconnect m purpose).lifecycle = m.lifecycle := by
  rw [countReconnect]
  split
  · exact lifecycle_set_quiet _ fun _ => rfl
  · rfl

theorem moves_verifyInstance (instanceId : InstanceId) (h : Moves G m.lifecycle n.lifecycle)
    (hn : HeardSince m n) :
    Moves G m.lifecycle (verifyInstance n instanceId).lifecycle ∧
      HeardSince m (verifyInstance n instanceId) := by
  rw [HeardSince, lifecycle_verifyInstance]
  obtain ⟨reports, heard, hn⟩ := hn
  exact ⟨h.tail .hear, reports, some n.now, by rw [hn]⟩

variable {j : CheckJudgement} {t : GapTimes}

theorem moves_continueAfterPass {flagged : Bool} (hG : G.starts)
    (h : m.session.status ≠ .ready → m.lifecycle.GapOk G check t.gapStart) :
    (continueAfterPass m j check instanceId t flagged).Yields fun r =>
      Moves G m.lifecycle r.1.lifecycle := by
  obtain ⟨hmoves, hheard⟩ := moves_notePass (G := G) m flagged
  obtain ⟨hmoves, hheard⟩ := moves_verifyInstance instanceId hmoves hheard
  rw [continueAfterPass]
  generalize verifyInstance (notePass m flagged) instanceId = n at hmoves hheard ⊢
  refine .ite (fun _ => .pure hmoves) fun hs => ?_
  have hok := hheard.gapOk (h (hheard.status ▸ hs))
  rw [← lifecycle_countReconnect n check.purpose] at hmoves hok
  refine .ite (fun _ => ?_) fun _ => .pure (hmoves.trans (moves_resumeAfterCheck hok hG))
  exact (moves_holdForPauseLimit hok).bind fun c hc => .pure (hmoves.trans hc)

theorem moves_holdForMismatch (h : m.lifecycle.GapOk G check t.gapStart) :
    (holdForMismatch m check instanceId t).Yields fun r => Moves G m.lifecycle r.1.lifecycle := by
  refine (moves_holdAfterGap instanceId h rfl).bind fun n hn => .pure ?_
  exact hn.trans (Moves.of_eq (lifecycle_set_quiet _ fun _ => rfl))

theorem lifecycle_recordReferenceMismatch (m : SessionMutation) (startedAt : Option Int) :
    (recordReferenceMismatch m startedAt).lifecycle = m.lifecycle :=
  lifecycle_addEvent _ _ rfl

theorem moves_applyFailedLiveness {reEnroll : Bool} (hc : check.issuedAt ∈ m.lifecycle.checkStarts)
    (h : (j.aggregate.any fun a => a.decision == .mismatch) = true → reEnroll = false →
      j.policy.identity.onMismatch = .holdForReview → m.lifecycle.GapOk G check t.gapStart) :
    (applyFailedLiveness m j check instanceId reEnroll t).Yields fun r =>
      Moves G m.lifecycle r.1.lifecycle := by
  have hq := lifecycle_recordReferenceMismatch m none
  refine .ite (fun hmis => ?_) fun _ => moves_retryOrHold hc
  rw [Bool.and_eq_true, Bool.not_eq_true'] at hmis
  rw [← hq] at h hc ⊢
  exact .ite (fun hp => moves_holdForMismatch (h hmis.1 hmis.2 hp)) fun _ => moves_retryOrHold hc

theorem moves_applyReEnrolment {ref : GalleryResult}
    (hG : G.starts) (hc : check.issuedAt ∈ m.lifecycle.checkStarts)
    (h : ref = .ok → m.session.status ≠ .ready → m.lifecycle.GapOk G check t.gapStart) :
    (applyReEnrolment m j check instanceId t ref).Yields fun r =>
      Moves G m.lifecycle r.1.lifecycle := by
  rw [applyReEnrolment.eq_def]
  split
  next => exact moves_retryOrHold hc
  next =>
    dsimp only
    generalize hn : SessionMutation.set _ _ = n
    have hq : n.lifecycle = m.lifecycle := by
      rw [← hn]
      refine (lifecycle_set_quiet _ fun _ => rfl).trans ((lifecycle_addEvent _ _ rfl).trans ?_)
      refine (lifecycle_establishReference _ _ _).trans ?_
      split
      · exact lifecycle_recordReferenceMismatch _ _
      · rfl
    rw [← hq]
    refine moves_continueAfterPass hG fun hs => ?_
    rw [hq]
    exact h rfl ((congrArg Lifecycle.status hq).symm.trans_ne hs)

theorem lifecycle_environmentContext (m : SessionMutation) (j : CheckJudgement) :
    (environmentContext m j).lifecycle = m.lifecycle := by
  refine (lifecycle_addEvent_if _ _ _ rfl).trans ?_
  exact lifecycle_addEvent_if _ _ _ rfl

end Gap

/-- Completing a check that is not an initial one with this judgement closes the gap before it. -/
def closesGap (s : ExamSession) (j : CheckJudgement) (check : Check) : Bool :=
  if check.mode = .attest then s.status != .ready
  else if reEnrollmentApplies s check.purpose && j.reference.isSome then
    j.livenessOk && j.reference == some .ok
  else if (j.aggregate.any fun a => a.decision == .mismatch) &&
      j.policy.identity.onMismatch == .holdForReview then true
  else
    j.livenessOk && s.status != .ready &&
      j.aggregate.any fun a => a.decision == .match || a.decision == .mismatch

theorem moves_applyContinuation
    (hG : G.starts) (hc : check.issuedAt ∈ m.lifecycle.checkStarts) (hface : check.mode ≠ .attest)
    (h : closesGap m.session j check = true →
      m.lifecycle.GapOk G check (reconnectGapStart m.session check)) :
    (applyContinuation m j check instanceId).Yields fun r => Moves G m.lifecycle r.1.lifecycle := by
  rw [closesGap, if_neg hface] at h
  rw [applyContinuation]
  have ht : (gapTimes m check).gapStart = reconnectGapStart m.session check := rfl
  generalize gapTimes m check = t at ht ⊢
  rw [← ht] at h
  generalize hre : (reEnrollmentApplies m.session check.purpose && j.reference.isSome) = reEnroll
    at h ⊢
  refine .ite (fun _ => ?_) fun hlive => ?_
  · refine moves_applyFailedLiveness hc fun hmis hno hhold => h ?_
    simp [hno, hmis, hhold]
  have hq := lifecycle_environmentContext m j
  have hs : (environmentContext m j).session.status = m.session.status :=
    congrArg Lifecycle.status hq
  generalize environmentContext m j = n at hq hs ⊢
  rw [← hq] at hc h ⊢
  rw [← hs] at h
  have hlive : j.livenessOk = true := by simpa using hlive
  split
  next ref _ href =>
    refine moves_applyReEnrolment hG hc fun hok _ => h ?_
    cases reEnroll <;> simp_all
  next => exact .thrown _
  next agg hno hagg =>
    have hno : reEnroll = false := by cases reEnroll <;> simp_all
    have hpass : ∀ {d}, agg.decision = d → d = .match ∨ d = .mismatch → n.session.status ≠ .ready →
        n.lifecycle.GapOk G check t.gapStart := by
      rintro d hd hd' hs
      refine h ?_
      obtain rfl | rfl := hd' <;> simp [hno, hlive, hagg, hd, hs]
    split
    next hd => exact moves_continueAfterPass hG (hpass hd (.inl rfl))
    next hd =>
      have hm := lifecycle_recordReferenceMismatch n none
      have hms : (recordReferenceMismatch n).session.status = n.session.status :=
        congrArg Lifecycle.status hm
      rw [← hm] at h hpass ⊢
      refine .ite (fun hp => moves_holdForMismatch (h ?_)) fun _ =>
        moves_continueAfterPass hG (hms ▸ hpass hd (.inr rfl))
      simp [hno, hagg, hd, hp]
    next => exact moves_retryOrHold hc
    next => exact moves_retryOrHold hc

theorem moves_attestContinuation {policy : ProctoringPolicy} (hG : G.starts)
    (h : m.session.status ≠ .ready →
      m.lifecycle.GapOk G check (reconnectGapStart m.session check)) :
    (attestContinuation m policy check instanceId).Yields fun r =>
      Moves G m.lifecycle r.1.lifecycle := by
  rw [attestContinuation]
  have ht : (gapTimes m check).gapStart = reconnectGapStart m.session check := rfl
  rw [← ht] at h
  obtain ⟨hmoves, hheard⟩ :=
    moves_verifyInstance (G := G) (m := m) (n := m) instanceId .refl ⟨_, _, rfl⟩
  generalize verifyInstance m instanceId = n at hmoves hheard ⊢
  refine .ite (fun _ => .ite (fun _ => ?_) fun _ => .pure hmoves) fun hs => ?_
  · exact (moves_holdNow (G := G) rfl).bind fun c hc => .pure (hmoves.trans hc)
  have hok := hheard.gapOk (h (hheard.status ▸ hs))
  rw [← lifecycle_countReconnect n check.purpose] at hmoves hok
  refine .ite (fun _ => ?_) fun _ => .ite (fun _ => ?_) fun _ =>
    .pure (hmoves.trans (moves_resumeAfterCheck hok hG))
  · exact (moves_holdForPauseLimit hok).bind fun c hc => .pure (hmoves.trans hc)
  · exact (moves_holdAfterGap instanceId hok rfl).bind fun c hc => .pure (hmoves.trans hc)

/-! ## Completing a check -/

/-- The browser may complete the check now. -/
structure Completable (m : SessionMutation) (instanceId : InstanceId) (requestedAt : Int)
    (check : Check) : Prop where
  stored : check ∈ m.checks
  own : check.clientInstanceId = instanceId
  inTime : check.status = .open ∧ requestedAt ≤ check.expiresAt + 5000
  inControl : m.session.activeInstanceId = some instanceId
  required : requiredCheckFor m.session instanceId = some check.purpose

instance (m : SessionMutation) (instanceId : InstanceId) (requestedAt : Int) (check : Check) :
    Decidable (Completable m instanceId requestedAt check) :=
  decidable_of_iff
    (check ∈ m.checks ∧ check.clientInstanceId = instanceId ∧
      (check.status = .open ∧ requestedAt ≤ check.expiresAt + 5000) ∧
      m.session.activeInstanceId = some instanceId ∧
      requiredCheckFor m.session instanceId = some check.purpose)
    ⟨fun ⟨a, b, c, d, e⟩ => ⟨a, b, c, d, e⟩, fun ⟨a, b, c, d, e⟩ => ⟨a, b, c, d, e⟩⟩

/-- If completing the check closes the gap before it, no completed period reaches into the gap. -/
def CheckGapClear (m : SessionMutation) (instanceId : InstanceId) (checkId : Nat)
    (requestedAt : Int) (j : CheckJudgement) : Prop :=
  ∀ check ∈ m.checks.find? (·.id == checkId),
    Completable m instanceId requestedAt check → check.purpose ≠ .initial →
    closesGap m.session j check = true →
    Periods.ClearBy m.periods (m.lifecycle.gapReach check (reconnectGapStart m.session check))
  deriving Decidable

theorem Completable.not_terminal {requestedAt : Int}
    (h : Completable m instanceId requestedAt check) : ¬ m.session.status.isTerminal := by
  have hreq := h.required
  rw [requiredCheckFor] at hreq
  rw [SessionStatus.isTerminal_iff]
  rintro (hs | hs) <;> simp [hs] at hreq

theorem moves_applyCheck (hG : G.starts) (hc : check.issuedAt ∈ m.lifecycle.checkStarts)
    (hinitial : check.purpose = .initial → m.session.status = .invited)
    (h : check.purpose ≠ .initial → closesGap m.session j check = true →
      m.lifecycle.GapOk G check (reconnectGapStart m.session check)) :
    (applyCheck m j check instanceId).Yields fun r => Moves G m.lifecycle r.1.lifecycle := by
  rw [applyCheck.eq_def]
  split
  next hp => exact moves_attestInitial (hinitial hp)
  next hm hp =>
    refine moves_attestContinuation hG fun hs => h hp ?_
    simp [closesGap, hm, hs]
  next hp => exact moves_applyInitial (hinitial hp) hc
  next hm hp => exact moves_applyContinuation hG hc (by simp [hm]) (h hp)

theorem moves_completeCheck {checkId : Nat} {requestedAt : Int} (hG : G.starts)
    (h : G.gap → CheckGapClear m instanceId checkId requestedAt j) :
    (completeCheck m instanceId checkId requestedAt j).Yields fun r =>
      Moves G m.lifecycle r.1.lifecycle := by
  rw [completeCheck]
  split
  next check hfind =>
    refine .guard fun hown => .guard fun htime => .guard fun hctl => .guard fun hreq => ?_
    rw [not_not] at hown hctl hreq
    rw [not_or, not_not, not_lt] at htime
    have hcan : Completable m instanceId requestedAt check :=
      ⟨List.mem_of_find?_eq_some hfind, hown, htime, hctl, hreq⟩
    have hc : check.issuedAt ∈ m.lifecycle.checkStarts := List.mem_map_of_mem hcan.stored
    have happly : (applyCheck m j check instanceId).Yields fun r =>
        Moves G m.lifecycle r.1.lifecycle := by
      refine moves_applyCheck hG hc (fun hp => status_of_requiredCheckFor (hp ▸ hreq)) fun hp hcl => ?_
      exact ⟨hcan.not_terminal, hc, reconnectGapStart_le _ _, fun hg => h hg check hfind hcan hp hcl⟩
    refine happly.bind fun r hr => .pure ?_
    exact hr.trans (Moves.of_eq (lifecycle_closeCheck _ _ _))
  next => exact .thrown _

/-! ## Abandoned checks -/

theorem moves_settleAbandoned (hc : check.issuedAt ∈ m.lifecycle.checkStarts) :
    (settleAbandoned m check).Yields fun m' => Moves G m.lifecycle m'.lifecycle := by
  have hq := lifecycle_closeCheck m check.id (.retry false)
  rw [← hq] at hc ⊢
  refine .ite (fun _ => ?_) fun _ => .pure .refl
  exact (moves_holdNow (G := G) rfl).mono fun m' hm => (moves_noteUnverifiable hc).trans hm

theorem moves_settleAbandonedChecks {sel : Check → Bool} {mismatch : Nat → Bool} :
    (settleAbandonedChecks m sel mismatch).Yields fun m' => Moves G m.lifecycle m'.lifecycle := by
  rw [settleAbandonedChecks]
  generalize hn : m.mapChecks _ = n
  have hq : n.lifecycle = m.lifecycle := by
    rw [← hn]
    exact lifecycle_mapChecks m fun c => by split <;> rfl
  rw [← hq]
  refine Except.Yields.foldlM _ .refl fun m' hm' c hc => ?_
  have hissued : c.issuedAt ∈ n.lifecycle.checkStarts := by
    rw [hq]
    exact List.mem_map_of_mem (List.mem_filter.1 (List.mem_filter.1 hc).1).1
  have hmem : c.issuedAt ∈ m'.lifecycle.checkStarts :=
    hm'.invariant (fun h hmove => hmove.checkStarts_subset h) hissued
  exact (moves_settleAbandoned hmem).mono fun m'' hm'' => hm'.trans hm''

end SmartProctoring
