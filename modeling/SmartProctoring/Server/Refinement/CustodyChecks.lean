import SmartProctoring.Server.Refinement.Custody

/-!
# Every transaction is a few deeds: checks

The operations of `checks.ts`; and from all operations together, what a request does to a custody
(`deeds_sessionStep`).  Establishing a reference is set apart from the rest of a check: what comes
before it and after it are deeds of other kinds (`Deed.ofCheck`).
-/

set_option autoImplicit false

namespace SmartProctoring

open Option

variable {D : Deed → Prop} {m m' : SessionMutation}

open SessionMutation

/-! ## Starting a check -/

theorem mayRequire_of_requiredCheckFor {i : InstanceId} {purpose : CheckPurpose}
    (h : requiredCheckFor m.session i = some purpose) : m.custody.mayRequire purpose := by
  rw [requiredCheckFor] at h
  cases hs : m.session.status <;> simp only [hs] at h
  case invited =>
    obtain ⟨-, ⟨⟩⟩ := ite_none_right_eq_some.1 h
    exact hs
  case ready =>
    obtain ⟨-, ⟨⟩⟩ := ite_none_left_eq_some.1 h
    exact .inl hs
  case active =>
    obtain ⟨-, ⟨⟩⟩ := ite_none_left_eq_some.1 h
    exact .inr hs
  case paused =>
    obtain rfl := some.inj h
    exact hs
  case onHold =>
    obtain ⟨hcan, ⟨⟩⟩ := ite_none_right_eq_some.1 h
    exact ⟨hs, hcan⟩
  case submitted | terminated => cases h

theorem Custody.mayRequire.not_terminal {c : Custody} {purpose : CheckPurpose}
    (h : c.mayRequire purpose) : ¬ c.status.isTerminal := by
  rw [SessionStatus.isTerminal_iff]
  cases purpose with
  | initial => simp [show c.status = .invited from h]
  | resume => simp [show c.status = .paused from h]
  | reconnect =>
    obtain h | h := h
    · simp [h]
    · simp [h]
  | reverify => simp [h.1]

theorem custody_supersedeOthers (m : SessionMutation) (instanceId : InstanceId) :
    (supersedeOthers m instanceId).custody = m.custody := by
  have hfold : ∀ (l : List InstanceId) (m : SessionMutation), (l.foldl (fun m target =>
      m.enqueueCommand (.superseded SUPERSEDED_MESSAGE) (some target)) m).custody = m.custody := by
    intro l
    induction l with
    | nil => exact fun _ => rfl
    | cons i l ih => exact fun m => (ih _).trans (custody_enqueueCommand_quiet _ _ _ rfl)
  exact (custody_set_quiet _ fun _ => rfl).trans (hfold _ _)

theorem custody_noteOtherInstance (m : SessionMutation) (instanceId : InstanceId)
    (device : DeviceInfo) (purpose : CheckPurpose) :
    (noteOtherInstance m instanceId device purpose).custody = m.custody := by
  rw [noteOtherInstance]
  split
  · split
    · exact custody_recordMultipleInstances _ _ _ _
    · rfl
  · rfl

/-- What a started check is: open, issued now, of the purpose and browser it was started for. -/
structure Issued (m : SessionMutation) (instanceId : InstanceId) (purpose : CheckPurpose)
    (check : Check) : Prop where
  id : check.id = m.nextId
  status : check.status = .open
  issuedAt : check.issuedAt = m.now
  purpose : check.purpose = purpose
  own : check.clientInstanceId = instanceId

theorem custody_beginCheck (m : SessionMutation) (instanceId : InstanceId) (device : DeviceInfo)
    (purpose : CheckPurpose) :
    ∃ check, Issued m instanceId purpose check ∧
      (beginCheck m instanceId device purpose).custody = m.custody.issue check := by
  have hother : (supersedeOthers (noteOtherInstance (m.mapChecks fun c =>
      if c.status = .open then c.expire m.now else c) instanceId device purpose)
      instanceId).custody = m.custody.mapChecks fun c =>
        if c.status = .open then c.expire m.now else c := by
    rw [custody_supersedeOthers, custody_noteOtherInstance]
    rfl
  rw [beginCheck]
  generalize supersedeOthers _ _ = n at hother ⊢
  have hid : n.nextId = m.nextId := congrArg Custody.nextId hother
  have hnow : n.now = m.now := congrArg Custody.now hother
  have hissue : (issueCheck n (newCheck n instanceId device purpose)).custody =
      m.custody.issue (newCheck n instanceId device purpose) := by
    change { n.custody with
      checks := n.custody.checks ++ [newCheck n instanceId device purpose]
      nextId := n.custody.nextId + 1 } = _
    rw [hother]
    rfl
  refine ⟨newCheck n instanceId device purpose, ⟨hid, rfl, hnow, rfl, rfl⟩, ?_⟩
  split
  · exact (custody_insertPeriod _ _ _ _ _ _).trans hissue
  · exact hissue

variable {instanceId : InstanceId}

theorem deeds_startCheck {body : StartCheckRequest} (hD : D .issue) :
    (startCheck m instanceId body).Yields fun m' => Deeds D m.custody m'.custody := by
  rw [startCheck]
  split
  next required hreq =>
    refine .guard fun _ => .whenever (.guard fun _ => .guard fun _ => .pure ?_)
    obtain ⟨check, hcheck, hcustody⟩ := custody_beginCheck m instanceId body.device required
    rw [hcustody]
    refine Deeds.single hD (.issue check hcheck.id hcheck.status hcheck.issuedAt ?_)
    rw [hcheck.purpose]
    exact mayRequire_of_requiredCheckFor hreq
  next => exact .ite (fun _ => .thrown _) fun _ => .thrown _

/-! ## Retry or hold -/

theorem custody_closeGapPeriods (m : SessionMutation) (check : Check) (instanceId : InstanceId)
    (gapStart : Int) : (closeGapPeriods m check instanceId gapStart).custody = m.custody := by
  have hreplaced : (if check.purpose = .reconnect then
      closeReplacedInstanceEvents m instanceId gapStart else m).custody = m.custody := by
    split <;> rfl
  have hclosed : ∀ n : SessionMutation,
      (closePrecedingPeriod n check instanceId gapStart).custody = n.custody := by
    intro n
    rw [closePrecedingPeriod]
    split
    · rfl
    · split
      · split
        · rw [custody_insertPeriod, custody_closeOpenPeriod]
        · exact custody_closeOpenPeriod _ _
      · exact custody_closeOpenPeriod _ _
  have hend : ∀ n : SessionMutation, (endReportingOutage n).custody = n.custody := by
    intro n
    rw [endReportingOutage]
    split <;> rfl
  rw [closeGapPeriods, hend, custody_insertPeriod, hclosed, hreplaced]

theorem custody_noteUnverifiable (m : SessionMutation) (check : Check) (instanceId : InstanceId)
    (startedAt : Int) : (noteUnverifiable m check instanceId startedAt).custody = m.custody := by
  rw [noteUnverifiable]
  split <;> rfl

variable {j : CheckJudgement} {check : Check}

theorem custody_retryOrHold {qualityOnly : Bool} :
    (retryOrHold m j check instanceId qualityOnly).Yields fun r =>
      (r = (m, .retry qualityOnly) ∧
        failedHalfAttempts m check.purpose (some check.id) + (if qualityOnly then 1 else 2) <
          2 * j.policy.identity.maxVerificationAttempts.val) ∨
      (r.1.custody = m.custody.hold ∧ r.2 = .held ∧ ¬ m.session.status.isTerminal) := by
  refine .ite (fun _ => ?_) fun hleft => .pure (.inl ⟨rfl, not_le.1 hleft⟩)
  have hnote := custody_noteUnverifiable m check instanceId (firstAttemptAt m check)
  generalize noteUnverifiable m check instanceId (firstAttemptAt m check) = n at hnote ⊢
  have hheld : (holdNow n { reason := .identityUnverifiable, purpose := some check.purpose }).Yields
      fun k => k.custody = m.custody.hold ∧ ¬ m.session.status.isTerminal := by
    intro k hk
    obtain ⟨hs, rfl⟩ := holdNow_eq_ok.1 hk
    have hstatus : n.session.status = m.session.status := congrArg Custody.status hnote
    rw [custody_enterHold n rfl, hnote]
    exact ⟨rfl, hstatus ▸ hs⟩
  refine hheld.bind fun k hk => .pure (.inr ⟨?_, rfl, hk.2⟩)
  split
  · exact (custody_set_quiet _ fun _ => rfl).trans hk.1
  · exact hk.1

theorem deeds_retryOrHold {qualityOnly : Bool} (hH : D .hold) :
    (retryOrHold m j check instanceId qualityOnly).Yields fun r =>
      Deeds D m.custody r.1.custody := by
  refine custody_retryOrHold.mono fun r hr => ?_
  obtain ⟨rfl, -⟩ | ⟨hcustody, -, hs⟩ := hr
  · exact .refl
  · rw [hcustody]
    exact Deeds.single hH (.hold hs)

/-! ## After the gap -/

theorem custody_resumeAfterCheck (m : SessionMutation) (purpose : CheckPurpose) :
    ∃ st, (st = .ready ∧ m.session.status = .onHold ∨ st = .active) ∧
      (resumeAfterCheck m purpose).custody = m.custody.resume st := by
  have hrow : ∀ t, (m.set fun s =>
      { (if s.status = .onHold then clearedHold s else s) with status := t }).custody =
      { (if m.custody.status = .onHold then m.custody.cleared else m.custody) with status := t } := by
    intro t
    change m.custody.withRow
      ({ (if m.session.status = .onHold then clearedHold m.session else m.session) with
        status := t } : ExamSession).custody = _
    rw [custody_status]
    split <;> rfl
  rw [resumeAfterCheck]
  by_cases hready : m.session.status = .onHold ∧ m.session.holdPrevStatus = some .ready
  · refine ⟨.ready, .inl ⟨rfl, hready.1⟩, ?_⟩
    rw [if_pos hready, if_neg (by decide), hrow]
    rfl
  · refine ⟨.active, .inr rfl, ?_⟩
    rw [if_neg hready]
    rw [if_pos rfl]
    have hactive := (custody_continueActive (m.set fun s =>
      { (if s.status = .onHold then clearedHold s else s) with status := .active })
      (.check purpose)).trans (congrArg Custody.dropBursts (hrow .active))
    split
    · exact hactive
    · exact hactive

theorem custody_holdForPauseLimit :
    (holdForPauseLimit m).Yields fun m' => m'.custody = m.custody.hold := by
  intro m' hm
  obtain ⟨-, rfl⟩ := holdNow_eq_ok.1 hm
  rw [custody_enterHold _ rfl]
  rfl

theorem custody_notePass (m : SessionMutation) (flagged : Bool) :
    (notePass m flagged).custody = m.custody := by
  have hend : (endUnverifiable m).custody = m.custody := by
    rw [endUnverifiable]
    split <;> rfl
  rw [notePass, ← hend]
  split <;> exact custody_setIdentityState_quiet _ _ rfl rfl

theorem custody_verifyInstance (m : SessionMutation) (instanceId : InstanceId) :
    (verifyInstance m instanceId).custody = m.custody.resetAttempts := rfl

theorem custody_countReconnect (m : SessionMutation) (purpose : CheckPurpose) :
    (countReconnect m purpose).custody = m.custody := by
  rw [countReconnect]
  split
  · exact custody_set_quiet _ fun _ => rfl
  · rfl

/-- An authorised re-enrolment belongs to the hold the session is in. -/
def Custody.AuthorisedOnHold (c : Custody) : Prop :=
  c.reEnrollAuthorized = true → c.status = .onHold

theorem Custody.resume_reEnrollAuthorized {c : Custody} (h : c.AuthorisedOnHold)
    (st : SessionStatus) : (c.resume st).reEnrollAuthorized = false := by
  rw [resume_eq]
  split
  · rfl
  next hs => exact Bool.eq_false_iff.2 fun ha => hs (h ha)

section Continuation

variable {check : Check} {instanceId : InstanceId}

variable {n : SessionMutation} {gapStart : Int}

theorem reEnrollAuthorized_resumeAfterGap (h : n.custody.AuthorisedOnHold) :
    (resumeAfterCheck (closeGapPeriods n check instanceId gapStart)
      check.purpose).session.reEnrollAuthorized = false := by
  obtain ⟨st, -, hresume⟩ :=
    custody_resumeAfterCheck (closeGapPeriods n check instanceId gapStart) check.purpose
  refine (congrArg Custody.reEnrollAuthorized hresume).trans ?_
  rw [custody_closeGapPeriods]
  exact Custody.resume_reEnrollAuthorized h st

theorem deeds_resumeAfterGap (hP : D .pass)
    (h : n.custody.mayRequire check.purpose) (hp : check.purpose ≠ .initial) :
    Deeds D n.custody
      (resumeAfterCheck (closeGapPeriods n check instanceId gapStart) check.purpose).custody := by
  obtain ⟨st, hst, hresume⟩ :=
    custody_resumeAfterCheck (closeGapPeriods n check instanceId gapStart) check.purpose
  have hclosed := custody_closeGapPeriods n check instanceId gapStart
  rw [hresume, hclosed]
  refine Deeds.single hP (.resume check.purpose st h hp (hst.imp_left fun hs => ⟨hs.1, ?_⟩))
  exact (congrArg Custody.status hclosed).symm.trans hs.2

theorem deeds_holdAfterGap (hH : D .hold) (h : n.custody.mayRequire check.purpose) :
    (holdForPauseLimit (closeGapPeriods n check instanceId gapStart)).Yields fun k =>
      Deeds D n.custody k.custody := by
  refine custody_holdForPauseLimit.mono fun k hk => ?_
  rw [hk, custody_closeGapPeriods]
  exact Deeds.single hH (.hold h.not_terminal)

variable {j : CheckJudgement} {t : GapTimes}

theorem deeds_continueAfterPass {flagged : Bool} (hP : D .pass)
    (hH : D .hold) (h : m.custody.mayRequire check.purpose) (hp : check.purpose ≠ .initial) :
    (continueAfterPass m j check instanceId t flagged).Yields fun r =>
      Deeds D m.custody r.1.custody ∧ (check.purpose ≠ .resume → r.2 = .passed) ∧
        (m.custody.AuthorisedOnHold → r.2 = .passed →
          r.1.session.reEnrollAuthorized = false) := by
  have hverify : (verifyInstance (notePass m flagged) instanceId).custody =
      m.custody.resetAttempts := by
    rw [custody_verifyInstance, custody_notePass]
  have hmoves : Deeds D m.custody (verifyInstance (notePass m flagged) instanceId).custody :=
    hverify ▸ Deeds.single hP (.verify check.purpose h)
  have hreq : (verifyInstance (notePass m flagged) instanceId).custody.mayRequire check.purpose :=
    hverify ▸ h
  have hauth : m.custody.AuthorisedOnHold →
      (verifyInstance (notePass m flagged) instanceId).custody.AuthorisedOnHold := by
    rw [hverify]
    exact id
  rw [continueAfterPass]
  generalize verifyInstance (notePass m flagged) instanceId = n at hmoves hreq hauth ⊢
  refine .ite (fun hs => .pure ⟨hmoves, fun _ => rfl, fun hm _ => ?_⟩) fun _ => ?_
  · exact Bool.eq_false_iff.2 fun ha => by cases hs.symm.trans (hauth hm ha)
  rw [← custody_countReconnect n check.purpose] at hmoves hreq hauth
  refine .ite (fun hlong => ?_) fun _ => .pure
    ⟨hmoves.trans (deeds_resumeAfterGap hP hreq hp), fun _ => rfl, fun hm _ =>
      reEnrollAuthorized_resumeAfterGap (hauth hm)⟩
  refine (deeds_holdAfterGap hH hreq).bind fun c hc =>
    .pure ⟨hmoves.trans hc, fun hne => ?_, fun _ hpass => by cases hpass⟩
  simp [pauseTooLong, hne] at hlong

theorem deeds_holdForMismatch (hH : D .hold) :
    (holdForMismatch m check instanceId t).Yields fun r => Deeds D m.custody r.1.custody := by
  rw [← custody_closeGapPeriods m check instanceId t.gapStart]
  refine (deeds_holdNow hH rfl).bind fun n hn => .pure ?_
  exact hn.trans (Deeds.of_eq (custody_set_quiet _ fun _ => rfl))

theorem deeds_applyFailedLiveness {reEnroll : Bool} (hH : D .hold) :
    (applyFailedLiveness m j check instanceId reEnroll t).Yields fun r =>
      Deeds D m.custody r.1.custody := by
  refine .ite (fun _ => ?_) fun _ => deeds_retryOrHold hH
  change (ite _ _ _ : Except HttpError (SessionMutation × CheckOutcome)).Yields fun r =>
    Deeds D (recordReferenceMismatch m).custody r.1.custody
  exact .ite (fun _ => deeds_holdForMismatch hH) fun _ => deeds_retryOrHold hH

theorem custody_environmentContext (m : SessionMutation) (j : CheckJudgement) :
    (environmentContext m j).custody = m.custody := by
  rw [environmentContext]
  split <;> split <;> rfl

theorem applyReEnrolment_yields {ref : GalleryResult} {P : SessionMutation × CheckOutcome → Prop}
    (hp : check.purpose = .reverify) (h : m.custody.mayRequire .reverify)
    (hretry : ∀ tooFew, (retryOrHold m j check instanceId tooFew).Yields P)
    (hpass : ∀ n : SessionMutation,
      n.custody = { m.custody.establish check m.custody.reEnrollAuthorizedBy with
        reEnrollAuthorized := false
        reEnrollAuthorizedBy := none } →
      n.custody.mayRequire check.purpose → check.purpose ≠ .initial →
        (continueAfterPass n j check instanceId t).Yields P) :
    (applyReEnrolment m j check instanceId t ref).Yields P := by
  rw [applyReEnrolment.eq_def]
  split
  next => exact hretry _
  next =>
    dsimp only
    generalize hn : SessionMutation.set _ _ = n
    have hcustody : n.custody = { m.custody.establish check m.custody.reEnrollAuthorizedBy with
        reEnrollAuthorized := false
        reEnrollAuthorizedBy := none } := by
      rw [← hn]
      split <;> rfl
    refine hpass n hcustody ?_ (by simp [hp])
    rw [hcustody, hp]
    exact h

theorem deeds_applyReEnrolment {ref : GalleryResult}
    (hE : D .establish) (hP : D .pass) (hH : D .hold) (hp : check.purpose = .reverify)
    (h : m.custody.mayRequire .reverify) (ha : m.custody.reEnrollAuthorized = true) :
    (applyReEnrolment m j check instanceId t ref).Yields fun r =>
      Deeds D m.custody r.1.custody := by
  refine applyReEnrolment_yields hp h (fun _ => deeds_retryOrHold hH) fun n hcustody hreq hne => ?_
  have hmove : Deeds D m.custody n.custody := hcustody ▸ Deeds.single hE (.reEnrol check h ha)
  exact (deeds_continueAfterPass hP hH hreq hne).mono fun r hr => hmove.trans hr.1

theorem reEnrollmentApplies_iff {s : ExamSession} {purpose : CheckPurpose} :
    reEnrollmentApplies s purpose = true ↔
      purpose = .reverify ∧ s.status = .onHold ∧ s.holdCanReverify = true ∧
        s.reEnrollAuthorized = true := by
  simp [reEnrollmentApplies, and_assoc]

theorem deeds_applyContinuation (hP : D .pass) (hH : D .hold)
    (hE : (reEnrollmentApplies m.session check.purpose && j.reference.isSome) = true →
      D .establish)
    (h : m.custody.mayRequire check.purpose) (hp : check.purpose ≠ .initial) :
    (applyContinuation m j check instanceId).Yields fun r => Deeds D m.custody r.1.custody := by
  refine .ite (fun _ => deeds_applyFailedLiveness hH) fun _ => ?_
  have hq := custody_environmentContext m j
  generalize environmentContext m j = n at hq ⊢
  rw [← hq] at h ⊢
  split
  next ref _ href =>
    have happlies : (reEnrollmentApplies m.session check.purpose && j.reference.isSome) = true := by
      by_contra hno
      simp [hno] at href
    obtain ⟨hrev, -, -, hauth⟩ := reEnrollmentApplies_iff.1 (Bool.and_eq_true_iff.1 happlies).1
    have hauth : n.custody.reEnrollAuthorized = true :=
      (congrArg Custody.reEnrollAuthorized hq).trans hauth
    exact deeds_applyReEnrolment (hE happlies) hP hH hrev (hrev ▸ h) hauth
  next => exact .thrown _
  next agg _ _ =>
    split
    next => exact (deeds_continueAfterPass hP hH h hp).mono fun r hr => hr.1
    next =>
      change (ite _ _ _ : Except HttpError (SessionMutation × CheckOutcome)).Yields fun r =>
        Deeds D (recordReferenceMismatch n).custody r.1.custody
      refine .ite (fun _ => deeds_holdForMismatch hH) fun _ => ?_
      exact (deeds_continueAfterPass (m := recordReferenceMismatch n) hP hH h hp).mono
        fun r hr => hr.1
    next => exact deeds_retryOrHold hH
    next => exact deeds_retryOrHold hH

/-! ## Identity verified by staff -/

theorem deeds_attestContinuation {policy : ProctoringPolicy} (hP : D .pass) (hH : D .hold)
    (h : m.custody.mayRequire check.purpose) (hp : check.purpose ≠ .initial) :
    (attestContinuation m policy check instanceId).Yields fun r =>
      Deeds D m.custody r.1.custody ∧
        (m.custody.AuthorisedOnHold → r.2 = .passed →
          r.1.session.reEnrollAuthorized = false) := by
  rw [attestContinuation]
  generalize gapTimes m check = t
  have hverify := custody_verifyInstance m instanceId
  have hmoves : Deeds D m.custody (verifyInstance m instanceId).custody :=
    hverify ▸ Deeds.single hP (.verify check.purpose h)
  have hreq : (verifyInstance m instanceId).custody.mayRequire check.purpose := hverify ▸ h
  have hauth : m.custody.AuthorisedOnHold →
      (verifyInstance m instanceId).custody.AuthorisedOnHold := by
    exact id
  generalize verifyInstance m instanceId = n at hmoves hreq hauth ⊢
  have hheld : ∀ {c : SessionMutation}, Deeds D m.custody c.custody →
      Deeds D m.custody c.custody ∧ (m.custody.AuthorisedOnHold →
        CheckOutcome.held = .passed → c.session.reEnrollAuthorized = false) :=
    fun hc => ⟨hc, fun _ hpass => by cases hpass⟩
  refine .ite (fun hs => .ite (fun _ => ?_) fun _ => .pure ⟨hmoves, fun hm _ => ?_⟩) fun _ => ?_
  · exact (deeds_holdNow hH rfl).bind fun c hc => .pure (hheld (hmoves.trans hc))
  · exact Bool.eq_false_iff.2 fun ha => by cases hs.symm.trans (hauth hm ha)
  rw [← custody_countReconnect n check.purpose] at hmoves hreq hauth
  refine .ite (fun _ => ?_) fun _ => .ite (fun _ => ?_) fun _ => .pure
    ⟨hmoves.trans (deeds_resumeAfterGap hP hreq hp), fun hm _ =>
      reEnrollAuthorized_resumeAfterGap (hauth hm)⟩
  · exact (deeds_holdAfterGap hH hreq).bind fun c hc => .pure (hheld (hmoves.trans hc))
  · rw [← custody_closeGapPeriods (countReconnect n check.purpose) check instanceId
      t.gapStart] at hmoves
    exact (deeds_holdNow hH rfl).bind fun c hc => .pure (hheld (hmoves.trans hc))

end Continuation

theorem custody_completeCheckIn (m : SessionMutation) :
    (completeCheckIn m).custody = { m.custody with status := .ready } := by
  rw [completeCheckIn, custody_set _ (fun v => { v with status := .ready }) fun _ => rfl,
    custody_closeOpenPeriod]
  rfl

theorem deeds_attestInitial (hP : D .pass) (hH : D .hold) (hs : m.session.status = .invited) :
    (attestInitial m instanceId).Yields fun r => Deeds D m.custody r.1.custody := by
  have hmove : Deeds D m.custody { m.custody.resetAttempts with status := .ready } :=
    Deeds.single hP (.ready hs)
  refine (deeds_holdNow (D := D) hH rfl).bind fun n hn => .pure (hmove.trans ?_)
  rw [custody_completeCheckIn] at hn
  exact hn

/-! ## The initial check -/

theorem custody_passInitial (m : SessionMutation) (check : Check) (instanceId : InstanceId) :
    (passInitial m check instanceId).custody =
      { (m.custody.establish check none).resetAttempts with status := .ready } := by
  rw [passInitial, custody_completeCheckIn]
  rfl

/-- The exam requires the ID photo to match, and it does not. -/
def CheckJudgement.PhotoFails (j : CheckJudgement) : Prop :=
  j.policy.identity.idPhotoComparison = .required ∧ ∃ photo ∈ j.idPhoto, photo.decision ≠ .match

theorem custody_applyIdPhoto :
    (applyIdPhoto m j).Yields fun r =>
      (r.1.custody = m.custody ∧ r.2 = .passed) ∨
        (r.1.custody = m.custody.hold ∧ r.2 = .held ∧ ¬ m.session.status.isTerminal ∧ j.PhotoFails) := by
  rw [applyIdPhoto]
  split
  next => exact .pure (.inl ⟨rfl, rfl⟩)
  next photo hphoto =>
    have hnoted : ∀ n : SessionMutation, (if photo.decision = .mismatch then
        n.addEvent { type := .identityMismatch, source := some .serverIdentity } else n).custody =
        n.custody := by
      intro n
      split <;> rfl
    have hlow : ∀ n : SessionMutation, (if photo.lowOnPoor then
        n.addEvent { type := .identityUnverifiable, source := some .serverIdentity } else n).custody =
        n.custody := by
      intro n
      split <;> rfl
    have hquiet := (hnoted _).trans ((hlow _).trans (custody_addEvent m
      { type := .idPhotoCompared, source := some .serverIdentity }))
    dsimp only
    generalize (if photo.decision = .mismatch then _ else _ : SessionMutation) = n at hquiet ⊢
    have hstatus : n.session.status = m.session.status := congrArg Custody.status hquiet
    refine .ite (fun hfails => ?_) fun _ => .pure (.inl ⟨hquiet, rfl⟩)
    have hheld : ∀ reason, (holdNow n { reason }).Yields fun k =>
        k.custody = m.custody.hold ∧ ¬ m.session.status.isTerminal := by
      intro reason k hk
      obtain ⟨hs, rfl⟩ := holdNow_eq_ok.1 hk
      rw [custody_enterHold n rfl, hquiet]
      exact ⟨rfl, hstatus ▸ hs⟩
    exact (hheld _).bind fun k hk => .pure (.inr ⟨hk.1, rfl, hk.2, hfails.1, photo, hphoto, hfails.2⟩)

theorem deeds_applyInitial
    (hE : D .establish) (hP : D .pass) (hH : D .hold) (hs : m.session.status = .invited) :
    (applyInitial m j check instanceId).Yields fun r => Deeds D m.custody r.1.custody := by
  refine .ite (fun _ => deeds_retryOrHold hH) fun _ => ?_
  split
  · exact deeds_retryOrHold hH
  · exact deeds_retryOrHold hH
  · refine .ite (fun _ => deeds_retryOrHold hH) fun _ => ?_
    have hpassed : Deeds D m.custody (passInitial m check instanceId).custody := by
      rw [custody_passInitial]
      refine (Deeds.single hE (.establish check hs)).trans ?_
      exact Deeds.single hP (.ready hs)
    refine custody_applyIdPhoto.mono fun r hr => ?_
    obtain ⟨hcustody, -⟩ | ⟨hcustody, -, hst, -⟩ := hr
    · exact hcustody ▸ hpassed
    · rw [hcustody]
      exact hpassed.trans (Deeds.single hH (.hold hst))

/-! ## Completing a check -/

/-- What a check leads to, before its outcome is recorded with it. -/
def Deed.ofCheck (d : Deed) : Prop := d = .hold ∨ d = .pass ∨ d = .establish

theorem deeds_applyCheck (h : m.custody.mayRequire check.purpose) :
    (applyCheck m j check instanceId).Yields fun r =>
      Deeds Deed.ofCheck m.custody r.1.custody := by
  have hH : Deed.ofCheck .hold := .inl rfl
  have hP : Deed.ofCheck .pass := .inr (.inl rfl)
  have hE : Deed.ofCheck .establish := .inr (.inr rfl)
  rw [applyCheck.eq_def]
  split
  next hp => exact deeds_attestInitial hP hH (hp ▸ h : m.custody.mayRequire .initial)
  next hp => exact (deeds_attestContinuation hP hH h hp).mono fun r hr => hr.1
  next hp => exact deeds_applyInitial hE hP hH (hp ▸ h : m.custody.mayRequire .initial)
  next hp => exact deeds_applyContinuation hP hH (fun _ => hE) h hp

theorem completeCheck_yields {checkId : Nat} {requestedAt : Int}
    {Q : SessionMutation × CheckOutcome → Prop}
    (h : ∀ check ∈ m.checks.find? (·.id == checkId), Completable m instanceId requestedAt check →
      (applyCheck m j check instanceId).Yields fun r => Q (closeCheck r.1 check.id r.2, r.2)) :
    (completeCheck m instanceId checkId requestedAt j).Yields Q := by
  rw [completeCheck]
  split
  next check hfind =>
    refine .guard fun hown => .guard fun htime => .guard fun hctl => .guard fun hreq => ?_
    rw [not_not] at hown hctl hreq
    rw [not_or, not_not, not_lt] at htime
    have hid : check.id = checkId := by simpa using List.find?_some hfind
    have hcan : Completable m instanceId requestedAt check :=
      ⟨List.mem_of_find?_eq_some hfind, hown, htime, hctl, hreq⟩
    exact (h check hfind hcan).bind fun r hr => .pure (hid ▸ hr)
  next => exact .thrown _

theorem deeds_completeCheck {checkId : Nat} {requestedAt : Int}
    (hH : D .hold) (hP : D .pass) (hE : D .establish) (hC : D .close) :
    (completeCheck m instanceId checkId requestedAt j).Yields fun r =>
      Deeds D m.custody r.1.custody := by
  refine completeCheck_yields fun check _ hcan => ?_
  have hreq := mayRequire_of_requiredCheckFor hcan.required
  refine (deeds_applyCheck hreq).mono fun r hr => ?_
  have hD : ∀ d, Deed.ofCheck d → D d := by
    rintro d (rfl | rfl | rfl) <;> assumption
  exact (hr.mono hD).trans (Deeds.single hC (.close check.id r.2))

/-! ## Abandoned checks -/

theorem custody_settleAbandoned :
    (settleAbandoned m check).Yields fun m' =>
      m'.custody = m.custody.close check.id (.retry false) ∧
        (failedHalfAttempts m check.purpose (some check.id) + 2 <
            2 * m.policy.identity.maxVerificationAttempts.val ∨
          m.session.status ∉ [SessionStatus.ready, .active, .paused, .onHold]) ∨
      m'.custody = (m.custody.close check.id (.retry false)).hold ∧
        m.session.status ∈ [SessionStatus.ready, .active, .paused, .onHold] := by
  refine .ite (fun h => ?_) fun h => .pure (.inl ⟨rfl, ?_⟩)
  · have hnote := custody_noteUnverifiable (closeCheck m check.id (.retry false)) check
      check.clientInstanceId check.issuedAt
    intro m' hm
    obtain ⟨-, rfl⟩ := holdNow_eq_ok.1 hm
    rw [custody_enterHold _ rfl, hnote]
    exact .inr ⟨rfl, h.2⟩
  · rw [not_and_or, not_le] at h
    exact h

theorem deeds_settleAbandoned (hC : D .close) (hH : D .hold) :
    (settleAbandoned m check).Yields fun m' => Deeds D m.custody m'.custody := by
  refine custody_settleAbandoned.mono fun m' hm => ?_
  have hclose : Deeds D m.custody (m.custody.close check.id (.retry false)) :=
    Deeds.single hC (.close _ _)
  obtain ⟨hcustody, -⟩ | ⟨hcustody, hs⟩ := hm
  · exact hcustody ▸ hclose
  · rw [hcustody]
    refine hclose.trans (Deeds.single hH (.hold ?_))
    intro ht
    have hs' : m.session.status.isTerminal := ht
    rw [SessionStatus.isTerminal_iff] at hs'
    obtain hs' | hs' := hs' <;> simp [hs'] at hs

theorem deeds_settleAbandonedChecks {sel : Check → Bool} {mismatch : Nat → Bool} (hX : D .expire)
    (hC : D .close) (hH : D .hold) :
    (settleAbandonedChecks m sel mismatch).Yields fun m' => Deeds D m.custody m'.custody := by
  have hexpire : Deeds D m.custody (m.mapChecks fun c => if c.status = .open ∧ sel c ∧
      ¬ (c.purpose != .initial && mismatch c.id) then c.expire m.now else c).custody := by
    have hmove := Custody.Move.expire (c := m.custody) fun c =>
      sel c && !(c.purpose != .initial && mismatch c.id)
    simp only [Bool.and_eq_true, Bool.not_eq_true'] at hmove
    simp only [Bool.not_eq_true]
    exact Deeds.single hX hmove
  refine Except.Yields.foldlM _ hexpire fun m' hm' c _ => ?_
  exact (deeds_settleAbandoned hC hH).mono fun m'' hm'' => hm'.trans hm''

/-! ## Requests -/

/-- The kinds of deed that an operation may do. -/
def Op.deeds : Op → List Deed
  | acceptConsent .. | saveAnswer .. | cancelPauseRequest .. | trackInstanceRequest ..
  | lateCapture .. | extendSessionTime .. | refreshAccommodations .. | sweepTimeout => []
  | enforceReconnectLimits .. | heartbeat .. | enforceOfflineLimits => [.hold, .finish]
  | settleSuperseded .. | settleExpired .. | sweepStaleChecks .. => [.expire, .close, .hold]
  | startCheck .. => [.issue]
  | completeCheck .. => [.hold, .pass, .establish, .close]
  | startSession .. => [.start]
  | candidateSubmit .. | withdrawConsent | terminateSession | staffSubmit | sweepExpiry
  | closeAbandoned .. => [.finish]
  | requestPause .. => [.pause, .number]
  | decidePauseRequest .. => [.pause]
  | ingestEvents .. | holdForSample | holdSession => [.hold]
  | releaseHold opts => if opts.reEnroll then [.release, .authorise] else [.release]
  | reopenSession .. => [.reopen]

theorem deeds_run (op : Op) :
    (op.run m).Yields fun m' => Deeds (· ∈ op.deeds) m.custody m'.custody := by
  have hquiet : ∀ {x : Except HttpError SessionMutation} {D : Deed → Prop},
      x.Yields (fun m' => m'.custody = m.custody) →
      x.Yields fun m' => Deeds D m.custody m'.custody :=
    fun hx => hx.mono fun m' hm => Deeds.of_eq hm
  cases op with
  | acceptConsent => exact hquiet custody_acceptConsent
  | enforceReconnectLimits => refine (deeds_enforceReconnectLimits ?_ ?_).fst <;> simp [Op.deeds]
  | settleSuperseded
  | settleExpired => refine deeds_settleAbandonedChecks ?_ ?_ ?_ <;> simp [Op.deeds]
  | startCheck => exact deeds_startCheck (by simp [Op.deeds])
  | completeCheck => refine (deeds_completeCheck ?_ ?_ ?_ ?_).fst <;> simp [Op.deeds]
  | startSession => exact (deeds_startSession (by simp [Op.deeds])).fst
  | candidateSubmit => exact deeds_candidateSubmit (by simp [Op.deeds])
  | saveAnswer => exact hquiet custody_saveAnswer.fst
  | requestPause => refine (deeds_requestPause ?_ ?_).fst <;> simp [Op.deeds]
  | cancelPauseRequest => exact hquiet custody_cancelPauseRequest
  | heartbeat => refine (deeds_heartbeat ?_ ?_).fst <;> simp [Op.deeds]
  | trackInstanceRequest => exact .ok (Deeds.of_eq (custody_applyInstanceUsage _ _))
  | ingestEvents => exact (deeds_ingestEvents (by simp [Op.deeds])).fst
  | withdrawConsent => exact deeds_withdrawConsent (by simp [Op.deeds])
  | lateCapture => exact .ok .refl
  | holdForSample => exact deeds_holdForSample (by simp [Op.deeds])
  | decidePauseRequest => exact deeds_decidePauseRequest (by simp [Op.deeds])
  | holdSession => exact deeds_holdSession (by simp [Op.deeds])
  | releaseHold opts =>
    refine deeds_releaseHold ?_ fun h => ?_
    · by_cases h : opts.reEnroll <;> simp [Op.deeds, h]
    · simp [Op.deeds, h]
  | terminateSession => exact deeds_terminateSession (by simp [Op.deeds])
  | staffSubmit => exact deeds_staffSubmit (by simp [Op.deeds])
  | extendSessionTime => exact hquiet custody_extendSessionTime
  | reopenSession => exact deeds_reopenSession (by simp [Op.deeds])
  | refreshAccommodations => exact .ok (Deeds.of_eq (custody_refreshSessionAccommodations _ _))
  | sweepTimeout => exact .ok (Deeds.of_eq (custody_sweepTimeout _))
  | sweepExpiry => exact .ok (deeds_sweepExpiry (by simp [Op.deeds]))
  | sweepStaleChecks => refine deeds_settleAbandonedChecks ?_ ?_ ?_ <;> simp [Op.deeds]
  | enforceOfflineLimits => refine deeds_enforceOfflineLimits ?_ ?_ <;> simp [Op.deeds]
  | closeAbandoned => exact .ok (deeds_closeAbandonedSession (by simp [Op.deeds]))

theorem custody_flush (m n : SessionMutation) : (m.flush n).custody = n.custody := by
  rw [SessionMutation.flush]
  split
  · rfl
  · exact custody_set_quiet _ fun _ => rfl

/-- **Every request is a few deeds** of the kinds its operation may do. -/
theorem deeds_sessionStep (r : Request) (m : SessionMutation) :
    Deeds (· ∈ r.op.deeds) (m.lock r).custody (sessionStep r m).custody := by
  rw [sessionStep]
  split
  next m' hm => exact (deeds_run r.op m' hm).trans (Deeds.of_eq (custody_flush _ _))
  next => exact .refl

end SmartProctoring
