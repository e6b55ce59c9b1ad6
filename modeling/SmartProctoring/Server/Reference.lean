import SmartProctoring.Server.Refinement.CustodyChecks
import SmartProctoring.Server.Runs

/-!
# The protected identity reference

Samples and checks are compared with the session's active reference, so whoever could replace it
could take the exam for somebody else.  Two checks replace it: the initial one, and a `reverify`
check of a hold whose release authorised re-enrolment.  The authorisation is a flag of the session
row; what is shown here is that it belongs to one hold.  It is set by a release of a session on
hold, and every hold, every other release and every passed check clears it (`reference_protected`).

An initial check that establishes the reference need not have *passed*: when the exam requires the
ID photo to match and it does not, the session is held with its reference in place
(`held_check_establishes`).
-/

set_option autoImplicit false

namespace SmartProctoring

open List

variable {D : Deed → Prop} {m : SessionMutation}

open SessionMutation

/-! ## The references -/

/-- The references of a session: superseded ones are kept. -/
structure ReferencesOk (refs : List IdentityReference) : Prop where
  versions : refs.Pairwise (·.version < ·.version)
  active : (refs.filter (·.active)).length ≤ 1

namespace Custody

variable {c c' : Custody} {d : Deed}

theorem lt_nextVersion {r : IdentityReference} (h : r ∈ c.references) :
    r.version < (c.references.map (·.version)).foldl max 0 + 1 := by
  have hmax : (0 :: c.references.map (·.version)).max? =
      some ((c.references.map (·.version)).foldl max 0) := List.max?_cons'
  have hmem : r.version ∈ 0 :: c.references.map (·.version) :=
    mem_cons_of_mem _ (mem_map_of_mem h)
  exact Nat.lt_succ_of_le ((List.max?_le_iff hmax).1 le_rfl _ hmem)

theorem referencesOk_establish (h : ReferencesOk c.references) (check : Check)
    (authorizedBy : Option StaffId) : ReferencesOk (c.establish check authorizedBy).references := by
  refine ⟨pairwise_append.2 ⟨?_, pairwise_singleton _ _, ?_⟩, ?_⟩
  · rw [pairwise_map]
    exact h.versions
  · intro r hr s hs
    rw [mem_singleton.1 hs]
    obtain ⟨q, hq, rfl⟩ := mem_map.1 hr
    exact lt_nextVersion (r := q) hq
  · have hnone : ((c.references.map fun r => { r with active := false }).filter (·.active)) = [] := by
      rw [filter_map]
      simp
    rw [establish, filter_append, hnone]
    exact length_filter_le _ _

/-- The references, and the authorisation to replace the active one. -/
structure Guarded (c : Custody) : Prop where
  references : ReferencesOk c.references
  authorized : c.reEnrollAuthorized = true → c.status = .onHold ∨ c.status.isTerminal

theorem Guarded.authorisedOnHold (h : c.Guarded) (hs : ¬ c.status.isTerminal) :
    c.AuthorisedOnHold :=
  fun ha => (h.authorized ha).resolve_right hs

theorem Guarded.unauthorized (h : c.Guarded) {st : SessionStatus} (hs : c.status = st)
    (hhold : st ≠ .onHold) (ht : ¬ st.isTerminal) : ¬ c.reEnrollAuthorized = true := by
  subst hs
  exact fun ha => (h.authorized ha).elim hhold ht

/-- What every move keeps. -/
theorem Move.guarded (hm : c.Move d c') (h : c.Guarded) : c'.Guarded := by
  cases hm
  case hold => exact ⟨h.references, nofun⟩
  case pause hs => exact ⟨h.references, fun ha =>
    absurd ha (h.unauthorized hs (by decide) (by decide))⟩
  case finish st _ hst => exact ⟨h.references, fun _ => .inr hst⟩
  case start hs => exact ⟨h.references, fun ha =>
    absurd ha (h.unauthorized hs (by decide) (by decide))⟩
  case release | releaseActive | requireCheck => exact ⟨h.references, nofun⟩
  case authorise hs => exact ⟨h.references, fun _ => .inl hs⟩
  case reopenOnHold | reopenToCheckIn => exact ⟨h.references, nofun⟩
  case ready hs => exact ⟨h.references, fun ha =>
    absurd ha (h.unauthorized hs (by decide) (by decide))⟩
  case resume purpose st hreq _ _ =>
    have hclear := resume_reEnrollAuthorized (h.authorisedOnHold hreq.not_terminal) st
    refine ⟨?_, fun ha => by cases hclear.symm.trans ha⟩
    rw [resume_eq]
    exact h.references
  case establish => exact ⟨referencesOk_establish h.references _ _, h.authorized⟩
  case reEnrol => exact ⟨referencesOk_establish h.references _ _, nofun⟩
  all_goals exact ⟨h.references, h.authorized⟩

end Custody

theorem guarded (h : sessionMachine.Reachable m) : m.custody.Guarded := by
  refine h.invariant (I := fun m => m.custody.Guarded) (fun m hm => ?_) fun m r _ _ hinv => ?_
  · obtain ⟨now, rules, durationSec, records, window, rfl⟩ := hm
    exact ⟨⟨.nil, Nat.zero_le _⟩, nofun⟩
  · have hlock : (m.lock r).custody.Guarded := ⟨hinv.references, hinv.authorized⟩
    exact (deeds_sessionStep r m).invariant (fun _ hc hm => hm.guarded hc) hlock

/-! ## Completing a check -/

variable {j : CheckJudgement}

/-- The check put a new active reference in the place of the others. -/
def ReplacedBy (check : Check) (refs refs' : List IdentityReference) : Prop :=
  ∃ new : IdentityReference, new.checkId = check.id ∧ new.active = true ∧
    (∀ r ∈ refs, r.version < new.version) ∧
    refs' = (refs.map fun r => { r with active := false }) ++ [new]

theorem Custody.replacedBy_establish (c : Custody) (check : Check) (authorizedBy : Option StaffId) :
    ReplacedBy check c.references (c.establish check authorizedBy).references :=
  ⟨_, rfl, rfl, fun _ hr => lt_nextVersion hr, rfl⟩

/-- How applying a check can change the references. -/
inductive Establishes (m : SessionMutation) (j : CheckJudgement) (check : Check)
    (out : CheckOutcome) : Prop
  /-- The check-in: the candidate passed, or the exam is held for the ID photo. -/
  | initial (hp : check.purpose = .initial) (hs : m.session.status = .invited)
      (ho : out = .passed ∨ out = .held ∧ j.PhotoFails)
  /-- A re-enrolment. -/
  | reEnrolled (hp : check.purpose = .reverify) (hs : m.session.status = .onHold)
      (ha : m.session.reEnrollAuthorized = true) (ho : out = .passed)

/-- The references stay, or the check establishes a new one. -/
def KeepsOrEstablishes (m : SessionMutation) (j : CheckJudgement) (check : Check)
    (r : SessionMutation × CheckOutcome) : Prop :=
  r.1.references = m.references ∨
    ReplacedBy check m.references r.1.references ∧ Establishes m j check r.2

variable {check : Check} {instanceId : InstanceId}

theorem keeps_of_deeds {x : Except HttpError (SessionMutation × CheckOutcome)}
    (h : x.Yields fun r => Deeds (· ≠ .establish) m.custody r.1.custody) :
    x.Yields (KeepsOrEstablishes m j check) :=
  h.mono fun _ hr => .inl (hr.references_eq fun hne => hne rfl)

theorem establishes_applyInitial (hs : m.session.status = .invited)
    (hp : check.purpose = .initial) :
    (applyInitial m j check instanceId).Yields (KeepsOrEstablishes m j check) := by
  have hretry : ∀ q, (retryOrHold m j check instanceId q).Yields (KeepsOrEstablishes m j check) :=
    fun q => keeps_of_deeds (deeds_retryOrHold (by decide))
  refine .ite (fun _ => hretry _) fun _ => ?_
  split
  · exact hretry _
  · exact hretry _
  · refine .ite (fun _ => hretry _) fun _ => ?_
    have hpassed := custody_passInitial m check instanceId
    have hreplaced := m.custody.replacedBy_establish check none
    refine custody_applyIdPhoto.mono fun r hr => .inr ?_
    obtain ⟨hcustody, hout⟩ | ⟨hcustody, hout, -, hfails⟩ := hr
    · have hrefs : r.1.references = (m.custody.establish check none).references :=
        congrArg Custody.references (hcustody.trans hpassed)
      exact ⟨hrefs ▸ hreplaced, .initial hp hs (.inl hout)⟩
    · have hrefs : r.1.references = (m.custody.establish check none).references := by
        refine (congrArg Custody.references hcustody).trans ?_
        rw [hpassed]
        rfl
      exact ⟨hrefs ▸ hreplaced, .initial hp hs (.inr ⟨hout, hfails⟩)⟩

variable {t : GapTimes}

theorem establishes_applyReEnrolment {ref : GalleryResult}
    (hp : check.purpose = .reverify) (h : m.custody.mayRequire .reverify)
    (ha : m.session.reEnrollAuthorized = true) :
    (applyReEnrolment m j check instanceId t ref).Yields (KeepsOrEstablishes m j check) := by
  refine applyReEnrolment_yields hp h (fun _ => keeps_of_deeds (deeds_retryOrHold (by decide)))
    fun n hcustody hreq hne => ?_
  refine (deeds_continueAfterPass (D := (· ≠ .establish)) (by decide) (by decide) hreq hne).mono
    fun r hr => .inr ⟨?_, .reEnrolled hp h.1 ha (hr.2.1 (by simp [hp]))⟩
  have hrefs : r.1.references =
      (m.custody.establish check m.custody.reEnrollAuthorizedBy).references :=
    (hr.1.references_eq fun hne => hne rfl).trans (hcustody ▸ rfl)
  exact hrefs ▸ m.custody.replacedBy_establish check _

theorem establishes_applyContinuation (h : m.custody.mayRequire check.purpose)
    (hp : check.purpose ≠ .initial) :
    (applyContinuation m j check instanceId).Yields (KeepsOrEstablishes m j check) := by
  by_cases happlies : (reEnrollmentApplies m.session check.purpose && j.reference.isSome) = true
  · have hauth := happlies
    rw [Bool.and_eq_true, reEnrollmentApplies_iff, Option.isSome_iff_exists] at hauth
    obtain ⟨⟨hrev, -, -, hauth⟩, ref, href⟩ := hauth
    have hq := custody_environmentContext m j
    rw [applyContinuation]
    rw [happlies, href]
    refine .ite (fun _ => keeps_of_deeds (deeds_applyFailedLiveness (by decide))) fun _ => ?_
    generalize environmentContext m j = n at hq ⊢
    have hrefs : n.references = m.references := congrArg Custody.references hq
    have hstatus : n.session.status = m.session.status := congrArg Custody.status hq
    rw [← hq] at h
    refine (establishes_applyReEnrolment hrev (hrev ▸ h)
      ((congrArg Custody.reEnrollAuthorized hq).trans hauth)).mono fun r hr => ?_
    rw [KeepsOrEstablishes, hrefs] at hr
    refine hr.imp_right fun hr => ⟨hr.1, ?_⟩
    cases hr.2 with
    | initial hp' => exact absurd hp' hp
    | reEnrolled hp' hs ha ho => exact .reEnrolled hp' (hstatus ▸ hs) hauth ho
  · exact keeps_of_deeds (deeds_applyContinuation (by decide) (by decide)
      (fun ha => absurd ha happlies) h hp)

theorem establishes_applyCheck (h : m.custody.mayRequire check.purpose) :
    (applyCheck m j check instanceId).Yields (KeepsOrEstablishes m j check) := by
  rw [applyCheck.eq_def]
  split
  next hp =>
    exact keeps_of_deeds (deeds_attestInitial (by decide) (by decide)
      (hp ▸ h : m.custody.mayRequire .initial))
  next hp =>
    refine keeps_of_deeds ?_
    exact (deeds_attestContinuation (by decide) (by decide) h hp).mono fun r hr => hr.1
  next hp => exact establishes_applyInitial (hp ▸ h : m.custody.mayRequire .initial) hp
  next hp => exact establishes_applyContinuation h hp

/-! ## What clears the authorisation -/

/-- A pass leaves no authorisation behind. -/
def PassClears (r : SessionMutation × CheckOutcome) : Prop :=
  r.2 = .passed → r.1.session.reEnrollAuthorized = false

theorem passClears_retryOrHold {qualityOnly : Bool} :
    (retryOrHold m j check instanceId qualityOnly).Yields PassClears := by
  refine custody_retryOrHold.mono fun r hr hpass => ?_
  obtain ⟨rfl, -⟩ | ⟨-, hheld, -⟩ := hr
  · cases hpass
  · cases hheld.symm.trans hpass

theorem passClears_holdForMismatch :
    (holdForMismatch m check instanceId t).Yields PassClears := by
  exact Except.Yields.bind (P := fun _ => True) (fun _ _ => trivial) fun _ _ =>
    .pure nofun

theorem passClears_applyFailedLiveness {reEnroll : Bool} :
    (applyFailedLiveness m j check instanceId reEnroll t).Yields PassClears := by
  exact .ite (fun _ => .ite (fun _ => passClears_holdForMismatch) fun _ => passClears_retryOrHold)
    fun _ => passClears_retryOrHold

theorem passClears_continueAfterPass {flagged : Bool}
    (h : m.custody.mayRequire check.purpose) (hp : check.purpose ≠ .initial)
    (hauth : m.custody.AuthorisedOnHold) :
    (continueAfterPass m j check instanceId t flagged).Yields PassClears :=
  (deeds_continueAfterPass (D := fun _ => True) trivial trivial h hp).mono
    fun _ hr => hr.2.2 hauth

theorem passClears_applyReEnrolment {ref : GalleryResult}
    (hp : check.purpose = .reverify) (h : m.custody.mayRequire .reverify) :
    (applyReEnrolment m j check instanceId t ref).Yields PassClears := by
  refine applyReEnrolment_yields hp h (fun _ => passClears_retryOrHold) fun n hcustody hreq hne =>
    passClears_continueAfterPass hreq hne ?_
  rw [hcustody]
  intro he
  cases he

theorem passClears_applyContinuation (h : m.custody.mayRequire check.purpose)
    (hp : check.purpose ≠ .initial) (hauth : m.custody.AuthorisedOnHold) :
    (applyContinuation m j check instanceId).Yields PassClears := by
  refine .ite (fun _ => passClears_applyFailedLiveness) fun _ => ?_
  have hq := custody_environmentContext m j
  generalize environmentContext m j = n at hq ⊢
  rw [← hq] at h hauth
  split
  next ref _ href =>
    have happlies : (reEnrollmentApplies m.session check.purpose && j.reference.isSome) = true := by
      by_contra hno
      simp [hno] at href
    have hrev := (reEnrollmentApplies_iff.1 (Bool.and_eq_true_iff.1 happlies).1).1
    exact passClears_applyReEnrolment hrev (hrev ▸ h)
  next => exact .thrown _
  next =>
    split
    next => exact passClears_continueAfterPass h hp hauth
    next =>
      refine .ite (fun _ => passClears_holdForMismatch) fun _ => ?_
      exact passClears_continueAfterPass (m := recordReferenceMismatch n) h hp hauth
    next => exact passClears_retryOrHold
    next => exact passClears_retryOrHold

theorem passClears_applyInitial (hun : m.session.reEnrollAuthorized = false) :
    (applyInitial m j check instanceId).Yields PassClears := by
  refine .ite (fun _ => passClears_retryOrHold) fun _ => ?_
  split
  · exact passClears_retryOrHold
  · exact passClears_retryOrHold
  · refine .ite (fun _ => passClears_retryOrHold) fun _ => ?_
    refine custody_applyIdPhoto.mono fun r hr hpass => ?_
    obtain ⟨hcustody, -⟩ | ⟨-, hheld, -⟩ := hr
    · refine (congrArg Custody.reEnrollAuthorized hcustody).trans ?_
      rw [custody_passInitial]
      exact hun
    · cases hheld.symm.trans hpass

theorem passClears_attestInitial : (attestInitial m instanceId).Yields PassClears := by
  exact Except.Yields.bind (P := fun _ => True) (fun _ _ => trivial) fun _ _ =>
    .pure nofun

theorem passClears_applyCheck (h : m.custody.mayRequire check.purpose) (hg : m.custody.Guarded) :
    (applyCheck m j check instanceId).Yields PassClears := by
  have hauth := hg.authorisedOnHold h.not_terminal
  rw [applyCheck.eq_def]
  split
  next => exact passClears_attestInitial
  next hp =>
    exact (deeds_attestContinuation (D := fun _ => True) trivial trivial h hp).mono
      fun _ hr => hr.2 hauth
  next hp =>
    have hs : m.session.status = .invited := (hp ▸ h : m.custody.mayRequire .initial)
    exact passClears_applyInitial
      (Bool.eq_false_iff.2 (hg.unauthorized hs (by decide) (by decide)))
  next hp => exact passClears_applyContinuation h hp hauth

/-! ## Requests -/

/-- A check was completed with this outcome. -/
structure Completed (m m' : SessionMutation) (check : Check) (out : CheckOutcome) : Prop where
  stored : check ∈ m.checks
  recorded : ∃ c ∈ m'.checks, c.id = check.id ∧ c.status = out.status

theorem completed_closeCheck {n : SessionMutation} {out : CheckOutcome}
    (h : Deeds Deed.ofCheck m.custody n.custody) (hc : check ∈ m.checks) :
    Completed m (closeCheck n check.id out) check out := by
  have hchecks : n.checks = m.checks := h.checks_eq fun d hd => by
    obtain rfl | rfl | rfl := hd <;> decide
  refine ⟨hc, _, mem_map_of_mem (hchecks ▸ hc), ?_⟩
  rw [if_pos rfl]
  exact ⟨rfl, rfl⟩

theorem establishes_completeCheck {checkId : Nat} {requestedAt : Int} (hg : m.custody.Guarded) :
    (completeCheck m instanceId checkId requestedAt j).Yields fun r =>
      PassClears r ∧ (r.1.references = m.references ∨
        ∃ check, check.id = checkId ∧ Completed m r.1 check r.2 ∧
          ReplacedBy check m.references r.1.references ∧ Establishes m j check r.2) := by
  refine completeCheck_yields fun check hfind hcan n hn => ?_
  have hreq := mayRequire_of_requiredCheckFor hcan.required
  have hid : check.id = checkId := by simpa using find?_some hfind
  refine ⟨passClears_applyCheck hreq hg n hn, ?_⟩
  refine (establishes_applyCheck hreq n hn).imp_right fun h => ?_
  exact ⟨check, hid, completed_closeCheck (deeds_applyCheck hreq n hn) hcan.stored, h⟩

variable {r : Request}

theorem exists_run_of_custody_ne (h : (sessionStep r m).custody ≠ (m.lock r).custody) :
    ∃ m', r.op.run (m.lock r) = .ok m' ∧ (sessionStep r m).custody = m'.custody := by
  rw [sessionStep] at h ⊢
  split at h
  next m' hm => exact ⟨m', hm, custody_flush _ _⟩
  next => exact absurd rfl h

theorem establishes_sessionStep (hg : m.custody.Guarded)
    (h : (sessionStep r m).references ≠ m.references) :
    ∃ instanceId requestedAt j check out,
      r.op = .completeCheck instanceId check.id requestedAt j ∧
      Completed m (sessionStep r m) check out ∧
      ReplacedBy check m.references (sessionStep r m).references ∧ Establishes m j check out ∧
      (out = .passed → (sessionStep r m).session.reEnrollAuthorized = false) := by
  obtain ⟨m', hrun, hcustody⟩ := exists_run_of_custody_ne (m := m) (r := r) fun heq =>
    h (congrArg Custody.references heq)
  have hrefs : (sessionStep r m).references = m'.references :=
    congrArg Custody.references hcustody
  have hchecks : (sessionStep r m).checks = m'.checks := congrArg Custody.checks hcustody
  have hflag : (sessionStep r m).session.reEnrollAuthorized = m'.session.reEnrollAuthorized :=
    congrArg Custody.reEnrollAuthorized hcustody
  have hest : Deed.establish ∈ r.op.deeds := by
    by_contra hno
    exact h ((deeds_sessionStep r m).references_eq hno)
  cases hop : r.op with
  | completeCheck instanceId checkId requestedAt j =>
    rw [hop, Op.run] at hrun
    obtain ⟨res, hres, rfl⟩ : ∃ res,
        completeCheck (m.lock r) instanceId checkId requestedAt j = .ok res ∧ res.1 = m' := by
      cases hc : completeCheck (m.lock r) instanceId checkId requestedAt j with
      | error e => simp [hc] at hrun
      | ok res => exact ⟨res, rfl, by simpa [hc] using hrun⟩
    have hlock : (m.lock r).custody.Guarded := ⟨hg.references, hg.authorized⟩
    obtain ⟨hclears, heq | ⟨check, rfl, hdone, hreplaced, hestab⟩⟩ :=
      establishes_completeCheck hlock res hres
    · exact absurd (hrefs.trans heq) h
    · refine ⟨instanceId, requestedAt, j, check, res.2, rfl, ⟨hdone.stored, ?_⟩, hrefs ▸ hreplaced,
        ?_, fun hp => hflag.trans (hclears hp)⟩
      · rw [hchecks]
        exact hdone.recorded
      · cases hestab with
        | initial hp hs ho => exact .initial hp hs ho
        | reEnrolled hp hs ha ho => exact .reEnrolled hp hs ha ho
  | releaseHold opts =>
    rw [hop, Op.deeds] at hest
    split at hest <;> simp at hest
  | _ => simp [hop, Op.deeds] at hest

/-! ## The authorisation belongs to one hold -/

/-- A re-enrolment is authorised, for the hold the session is in. -/
def Custody.Authorised (c : Custody) : Prop := c.reEnrollAuthorized = true ∧ c.status = .onHold

variable {c c' : Custody}

theorem Custody.Move.authorised {d : Deed} (hm : c.Move d c') (hd : d ≠ .authorise)
    (h : c'.Authorised) : c.Authorised ∧ c'.holds = c.holds := by
  obtain ⟨ha, hs⟩ := h
  cases hm
  case authorise => exact absurd rfl hd
  case hold => cases ha
  case pause => cases hs
  case finish st _ hst =>
    subst hs
    exact absurd hst (by decide)
  case start => cases hs
  case release | releaseActive | requireCheck | reopenOnHold | reopenToCheckIn => cases ha
  case ready => cases hs
  case resume st _ _ hst =>
    obtain ⟨rfl, -⟩ | rfl := hst <;> cases hs
  case reEnrol => cases ha
  all_goals exact ⟨⟨ha, hs⟩, rfl⟩

theorem Deeds.authorised (h : Deeds D c c') (hD : ¬ D .authorise)
    (ha : c'.Authorised) : c.Authorised ∧ c'.holds = c.holds := by
  refine h.invariant (I := fun k => k.Authorised → c.Authorised ∧ k.holds = c.holds)
    (fun hd hk hm ha => ?_) (fun ha => ⟨ha, rfl⟩) ha
  obtain ⟨hb, hholds⟩ := hm.authorised (fun he => hD (he ▸ hd)) ha
  obtain ⟨hc, hholds'⟩ := hk hb
  exact ⟨hc, hholds.trans hholds'⟩

theorem Deeds.released (h : Deeds D c c') (hD : ∀ d, D d → d = .release ∨ d = .authorise) :
    (c' = c ∨ c.status = .onHold) ∧ c'.holds = c.holds := by
  refine h.invariant (I := fun k => (k = c ∨ c.status = .onHold) ∧ k.holds = c.holds)
    (fun hd hk hm => ?_) ⟨.inl rfl, rfl⟩
  obtain rfl | rfl := hD _ hd
  all_goals
    obtain ⟨rfl | hs, hholds⟩ := hk
    · cases hm with
      | _ => exact ⟨.inr ‹_›, rfl⟩
    · cases hm with
      | _ => exact ⟨.inr hs, hholds⟩

theorem not_authorise_mem {op : Op}
    (h : ¬ ∃ opts, op = .releaseHold opts ∧ opts.reEnroll = true) : Deed.authorise ∉ op.deeds := by
  cases op with
  | releaseHold opts =>
    have hno : opts.reEnroll ≠ true := fun hr => h ⟨opts, rfl, hr⟩
    rw [Op.deeds, if_neg hno]
    decide
  | _ => simp [Op.deeds]

theorem authorised_sessionStep (h : (sessionStep r m).custody.Authorised) :
    (m.custody.Authorised ∨ ∃ opts, r.op = .releaseHold opts ∧ opts.reEnroll = true ∧
      m.session.status = .onHold) ∧ (sessionStep r m).custody.holds = m.custody.holds := by
  have hdeeds := deeds_sessionStep r m
  by_cases hrel : ∃ opts, r.op = .releaseHold opts ∧ opts.reEnroll = true
  · obtain ⟨opts, hop, hre⟩ := hrel
    obtain ⟨hs, hholds⟩ := hdeeds.released fun d hd => by
      rw [hop, Op.deeds, if_pos hre] at hd
      simpa using hd
    refine ⟨.inr ⟨opts, hop, hre, ?_⟩, hholds⟩
    obtain heq | hs := hs
    · exact (congrArg Custody.status heq).symm.trans h.2
    · exact hs
  · obtain ⟨ha, hholds⟩ := hdeeds.authorised (not_authorise_mem hrel) h
    exact ⟨.inl ha, hholds⟩

/-- Some release of the hold the session is in authorised a re-enrolment, which has stood since: at
every moment after it, the session was on hold, the authorisation there, and no other hold made. -/
def AuthorisedInHold (m₀ : SessionMutation) (rs : List Request) : Prop :=
  ∃ pre r opts post, rs = pre ++ r :: post ∧ r.op = .releaseHold opts ∧ opts.reEnroll = true ∧
    (sessionMachine.run m₀ pre).session.status = .onHold ∧
    ∀ k, k <+: post →
      (sessionMachine.run m₀ (pre ++ r :: k)).custody.Authorised ∧
      (sessionMachine.run m₀ (pre ++ r :: k)).custody.holds =
        (sessionMachine.run m₀ pre).custody.holds

theorem authorisedInHold {m₀ : SessionMutation} {rs : List Request} (h0 : sessionMachine.init m₀)
    (h : (sessionMachine.run m₀ rs).custody.Authorised) : AuthorisedInHold m₀ rs := by
  have hinit : ¬ m₀.custody.Authorised := by
    obtain ⟨now, rules, durationSec, records, window, rfl⟩ := h0
    rintro ⟨ha, -⟩
    cases ha
  obtain ⟨pre, r, post, rfl, hpre, hsince⟩ :=
    Machine.exists_since (M := sessionMachine) (P := fun m => m.custody.Authorised) hinit h
  have hstep : ∀ is i, sessionMachine.run m₀ (is ++ [i]) =
      sessionStep i (sessionMachine.run m₀ is) := fun is i => Machine.run_append _ _ _
  have hfirst := hsince [] nil_prefix
  rw [hstep] at hfirst
  obtain ⟨hgiven, hholds⟩ := authorised_sessionStep hfirst
  obtain ⟨opts, hop, hre, hs⟩ := hgiven.resolve_left hpre
  refine ⟨pre, r, opts, post, rfl, hop, hre, hs, fun k hk => ⟨hsince k hk, ?_⟩⟩
  induction k using reverseRecOn with
  | nil =>
    rw [hstep]
    exact hholds
  | append_singleton k i ih =>
    have hlast := hsince _ hk
    rw [← cons_append, ← append_assoc, hstep] at hlast ⊢
    exact (authorised_sessionStep hlast).2.trans
      (ih ((prefix_append k [i]).trans hk))

/-! ## What clears the authorisation -/

theorem Custody.Move.unauthorised {d : Deed} (hm : c.Move d c') (hd : d ≠ .authorise) :
    (c.reEnrollAuthorized = false → c'.reEnrollAuthorized = false) ∧
      (c'.holds = c.holds ∨ c'.reEnrollAuthorized = false) := by
  cases hm
  case authorise => exact absurd rfl hd
  case hold => exact ⟨fun _ => rfl, .inr rfl⟩
  case resume =>
    rw [Custody.resume_eq]
    refine ⟨fun h => ?_, .inl rfl⟩
    split
    · rfl
    · exact h
  case reEnrol | release | releaseActive | requireCheck | reopenOnHold |
      reopenToCheckIn => exact ⟨fun _ => rfl, .inl rfl⟩
  all_goals exact ⟨id, .inl rfl⟩

theorem unauthorised_of_hold (h : (sessionStep r m).custody.holds ≠ m.custody.holds) :
    (sessionStep r m).session.reEnrollAuthorized = false := by
  have hdeeds := deeds_sessionStep r m
  by_cases hrel : ∃ opts, r.op = .releaseHold opts ∧ opts.reEnroll = true
  · obtain ⟨opts, hop, hre⟩ := hrel
    refine absurd (hdeeds.released fun d hd => ?_).2 h
    rw [hop, Op.deeds, if_pos hre] at hd
    simpa using hd
  · have hinv := hdeeds.invariant
      (I := fun c => c.holds = m.custody.holds ∨ c.reEnrollAuthorized = false)
      (fun hd hk hm => ?_) (.inl rfl)
    · exact hinv.resolve_left h
    obtain ⟨hkeep, hholds⟩ := hm.unauthorised fun he => not_authorise_mem hrel (he ▸ hd)
    obtain hk | hk := hk
    · exact hholds.imp_left fun heq => heq.trans hk
    · exact .inr (hkeep hk)

theorem unauthorised_releaseHold {opts : ReleaseOptions} (hopts : opts.reEnroll = false) :
    (releaseHold m opts).Yields fun m' => m'.session.reEnrollAuthorized = false := by
  refine (assertStatus_yields m _ _).bind fun _ _ => .guard fun _ => ?_
  refine .ite (fun _ => .pure rfl) fun _ => .ite (fun _ => .pure ?_) fun _ => .pure ?_
  · simp [hopts, releaseToCheck, SessionMutation.set, SessionMutation.enqueueCommand]
  · rw [releaseToPrevious]
    split <;> rfl

/-- The requests after which no authorisation is left. -/
structure Clears (r : Request) (m : SessionMutation) : Prop where
  /-- A new hold: the session comes to be on hold, or is put on hold once more. -/
  hold : ((sessionStep r m).session.status = .onHold ∧ m.session.status ≠ .onHold) ∨
      (sessionStep r m).custody.holds ≠ m.custody.holds →
    (sessionStep r m).session.reEnrollAuthorized = false
  release : ∀ opts, r.op = .releaseHold opts → opts.reEnroll = false →
    (r.op.run (m.lock r)).isOk = true → (sessionStep r m).session.reEnrollAuthorized = false
  pass : ∀ instanceId checkId requestedAt j m',
    r.op = .completeCheck instanceId checkId requestedAt j →
    completeCheck (m.lock r) instanceId checkId requestedAt j = .ok (m', .passed) →
    (sessionStep r m).session.reEnrollAuthorized = false

theorem reEnrollAuthorized_sessionStep {m' : SessionMutation} (h : r.op.run (m.lock r) = .ok m') :
    (sessionStep r m).session.reEnrollAuthorized = m'.session.reEnrollAuthorized := by
  rw [sessionStep, h]
  exact congrArg Custody.reEnrollAuthorized (custody_flush _ _)

theorem clears (r : Request) (hg : m.custody.Guarded) : Clears r m := by
  refine ⟨fun h => ?_, fun opts hop hopts hok => ?_, fun i id at' j m' hop hrun => ?_⟩
  · obtain ⟨hs, hne⟩ | hholds := h
    · refine Bool.eq_false_iff.2 fun ha => ?_
      obtain ⟨⟨-, hs⟩ | ⟨-, -, -, hs⟩, -⟩ := authorised_sessionStep (m := m) (r := r) ⟨ha, hs⟩
      · exact hne hs
      · exact hne hs
    · exact unauthorised_of_hold hholds
  · cases hrun : r.op.run (m.lock r) with
    | error e => cases hrun ▸ hok
    | ok m' =>
      rw [reEnrollAuthorized_sessionStep hrun]
      rw [hop] at hrun
      exact unauthorised_releaseHold hopts m' hrun
  · have hok : r.op.run (m.lock r) = .ok m' := by
      rw [hop, Op.run, hrun]
      rfl
    rw [reEnrollAuthorized_sessionStep hok]
    have hlock : (m.lock r).custody.Guarded := ⟨hg.references, hg.authorized⟩
    exact (establishes_completeCheck hlock _ hrun).1 rfl

/-! ## The reference is protected -/

/-- **The protected reference.**  In every run, a request leaves at most one reference active and
the versions increasing; it changes the references only by completing an initial check of a session
that is invited, which passed or was held because the ID photo has to match and does not, or a
`reverify` check that passes in the hold whose release authorised it, which uses the authorisation
up; and every new hold, every other release and every check that passes clears it. -/
theorem reference_protected {m₀ : SessionMutation} {rs : List Request} {r : Request}
    (h0 : sessionMachine.init m₀) (h : sessionMachine.Admits m₀ (rs ++ [r])) :
    let m := sessionMachine.run m₀ rs
    ReferencesOk (sessionStep r m).references ∧
    ((sessionStep r m).references ≠ m.references →
      ∃ instanceId requestedAt j check out,
        r.op = .completeCheck instanceId check.id requestedAt j ∧
        Completed m (sessionStep r m) check out ∧
        ReplacedBy check m.references (sessionStep r m).references ∧
        (check.purpose = .initial ∧ m.session.status = .invited ∧
            (out = .passed ∨ out = .held ∧ j.PhotoFails) ∨
          check.purpose = .reverify ∧ out = .passed ∧ AuthorisedInHold m₀ rs ∧
            (sessionStep r m).session.reEnrollAuthorized = false)) ∧
    Clears r m := by
  obtain ⟨hrs, hr⟩ := Machine.admits_append.1 h
  have hm : sessionMachine.Reachable (sessionMachine.run m₀ rs) :=
    (Machine.Reachable.init h0).run hrs
  have hg := guarded hm
  refine ⟨(guarded (hm.step r hr.1)).references, fun hne => ?_, clears r hg⟩
  obtain ⟨i, at', j, check, out, hop, hdone, hreplaced, hestab, hclears⟩ :=
    establishes_sessionStep hg hne
  refine ⟨i, at', j, check, out, hop, hdone, hreplaced, ?_⟩
  cases hestab with
  | initial hp hs ho => exact .inl ⟨hp, hs, ho⟩
  | reEnrolled hp hs ha ho =>
    exact .inr ⟨hp, ho, authorisedInHold h0 ⟨ha, hs⟩, hclears ho⟩

/-- An exam on hold, released with a re-enrolment; browser 1 has begun the check. -/
def authorisedExam : List Request :=
  startUp ⟨1⟩ {} ++
    [⟨20000, {}, .holdSession⟩, ⟨30000, {}, .releaseHold { reEnroll := true }⟩,
     ⟨40000, {}, .startCheck ⟨1⟩ { purpose := .reverify }⟩]

/-- The check passes: it has replaced the reference by the authorisation of the hold. -/
theorem reference_protected_reEnrolled :
    let m₀ := createExamSession 0 {} ⟨60, by decide⟩ [] none
    let r : Request := ⟨45000, {}, .completeCheck ⟨1⟩ 1 45000
      { policy := {}, reference := some .ok }⟩
    let m' := sessionStep r (sessionMachine.run m₀ authorisedExam)
    (m'.references.map fun ref => (ref.version, ref.active)) = [(1, false), (2, true)] ∧
      AuthorisedInHold m₀ authorisedExam ∧ m'.session.reEnrollAuthorized = false := by
  refine ⟨by decide, ?_⟩
  have hinit : sessionMachine.init (createExamSession 0 {} ⟨60, by decide⟩ [] none) :=
    ⟨0, {}, ⟨60, by decide⟩, [], none, rfl⟩
  have hrun : sessionMachine.Admits (createExamSession 0 {} ⟨60, by decide⟩ [] none)
      (authorisedExam ++ [⟨45000, {}, .completeCheck ⟨1⟩ 1 45000
        { policy := {}, reference := some .ok }⟩]) := by decide
  obtain ⟨-, hchange, -⟩ := reference_protected hinit hrun
  obtain ⟨-, -, -, check, out, -, -, -, ⟨-, hs, -⟩ | ⟨-, -, hauth, hclear⟩⟩ := hchange (by decide)
  · exact absurd hs (by decide)
  · exact ⟨hauth, hclear⟩

/-- The ID photo must match. -/
def photoRules : ProctoringPolicy := { identity := { idPhotoComparison := .required } }

/-- The candidate's first check; their ID photo does not match. -/
def photoMismatch : Request :=
  ⟨3000, photoRules, .completeCheck ⟨1⟩ 0 3000
    { policy := photoRules, reference := some .ok, idPhoto := some { decision := .mismatch } }⟩

/-- The check holds the exam for review, and its reference is established all the same. -/
theorem held_check_establishes :
    ¬ ∀ m₀ rs r, sessionMachine.init m₀ → sessionMachine.Admits m₀ (rs ++ [r]) →
      let m := sessionMachine.run m₀ rs
      (sessionStep r m).references ≠ m.references →
        ∃ check, Completed m (sessionStep r m) check .passed := by
  intro h
  obtain ⟨check, -, c, hc, -, hpassed⟩ := h (createExamSession 0 photoRules ⟨60, by decide⟩ [] none)
    [⟨1000, photoRules, .acceptConsent .privacy .privacy⟩,
     ⟨2000, photoRules, .startCheck ⟨1⟩ { purpose := .initial }⟩]
    photoMismatch ⟨0, photoRules, ⟨60, by decide⟩, [], none, rfl⟩ (by decide) (by decide)
  revert c
  decide

end SmartProctoring
