import Mathlib.Data.List.Perm.Subperm
import SmartProctoring.Server.IdentitySamples
import SmartProctoring.Server.Refinement.CustodyChecks

/-!
# What a sample does to a session

Of everything a decided sample does to the session, what matters to the bursts is what shows in the
custody: the evidence takes the sample in, or the exam is held, and with it the evidence and the
bursts being collected go (`Weighed`).
-/

set_option autoImplicit false

namespace SmartProctoring

open SessionMutation
open List

variable {m : SessionMutation} {κ ε : Type} {env : SampleEnv κ ε} {row : IdentityCheck}

/-- The samples that a window of evidence rests on. -/
def EvidenceAccumulator.samples (acc : EvidenceAccumulator) : List SampleId :=
  acc.window.map (·.id)

/-! ## The evidence -/

theorem samples_windowWith (prev : EvidenceAccumulator) (obs : SampleObservation)
    (bucket : QualityBucket) :
    ((prev.windowWith obs bucket).map (·.id)).Subperm (obs.id :: prev.samples) := by
  have hkept := prev.kept_sublist obs
  rw [EvidenceAccumulator.windowWith]
  generalize (if prev.discontinuity obs then (prev.recent obs).filter fun e => decide (0 < e.llr)
      else prev.recent obs) = kept at hkept ⊢
  generalize hentry : (⟨obs.id, obs.atMs, prev.contribution obs, bucket, obs.trigger⟩ :
    EvidenceEntry) = entry
  have hid : entry.id = obs.id := by rw [← hentry]
  have hperm : (if prev.inOrder obs then kept ++ [entry]
      else (kept ++ [entry]).insertionSort fun a b => a.atMs ≤ b.atMs).Perm (entry :: kept) := by
    split
    · exact perm_append_singleton _ _
    · exact (perm_insertionSort _ _).trans (perm_append_singleton _ _)
  generalize (if prev.inOrder obs then kept ++ [entry]
      else (kept ++ [entry]).insertionSort fun a b => a.atMs ≤ b.atMs) = window at hperm ⊢
  have hdrop := ((drop_sublist (window.length - CALIBRATION.sprtMaxSamples) window).map
    (·.id)).subperm
  refine hdrop.trans ((hperm.map (·.id)).subperm.trans ?_)
  rw [map_cons, hid]
  exact (List.Sublist.cons_cons _ (hkept.map (·.id))).subperm

theorem samples_accumulate (prev : EvidenceAccumulator) (obs : SampleObservation) :
    (accumulate prev obs).acc.samples.Subperm (obs.id :: prev.samples) := by
  have hempty : ([] : List SampleId).Subperm (obs.id :: prev.samples) := nil_subperm
  rw [accumulate.eq_def, EvidenceAccumulator.samples]
  split
  next bucket _ _ =>
    have hwith := samples_windowWith prev obs bucket
    split
    · show (map _ (judgeConfirmed (prev.added obs bucket) _).1.window).Subperm _
      obtain hw | hw := (judgeConfirmed_cases (prev.added obs bucket) (prev.contribution obs)).1
      · rw [hw]
        exact hwith
      · rw [hw]
        exact hempty
    · show (map _ (judgeWindow (prev.added obs bucket) _ _ _ _).1.window).Subperm _
      obtain hw | hw := (judgeWindow_cases (prev.added obs bucket) prev.state obs.atMs (prev.contribution obs)
          (windowSum (prev.windowWith obs bucket))).1
      · rw [hw]
        exact hwith
      · rw [hw]
        exact hempty
  next => exact ((filter_sublist.map _).trans (sublist_cons_self _ _)).subperm

/-! ## The session -/

theorem closeObservation_session (id : Option EventId) (atMs : Int) (reason : ClosedBy) :
    (m.closeObservation id atMs reason).session = m.session := by
  cases id <;> rfl

theorem custody_closeObservation (id : Option EventId) (atMs : Int) (reason : ClosedBy) :
    (m.closeObservation id atMs reason).custody = m.custody := by
  cases id <;> rfl

theorem custody_noteSampleReceived : (noteSampleReceived m row).custody = m.custody :=
  (custody_setIdentityState_quiet _ _ rfl rfl).trans (custody_closeObservation _ _ _)

theorem custody_noteFeed : (noteFeed m row).custody = m.custody := by
  rw [noteFeed]
  generalize (if (row.dhash.isSome && _ : Bool) = true then _ else _ : Nat) = streak
  split
  · split
    · exact custody_setIdentityState_quiet _ _ rfl rfl
    · exact custody_setIdentityState_quiet _ _ rfl rfl
  · split
    · exact custody_setIdentityState_quiet _ _ rfl rfl
    · refine (custody_setIdentityState_quiet _ _ ?_ ?_).trans (custody_closeObservation _ _ _)
      · rw [closeObservation_session]
      · rw [closeObservation_session]

theorem custody_openUnverifiable (atMs : Int) : (openUnverifiable m atMs).custody = m.custody := by
  rw [openUnverifiable]
  split
  · rfl
  · exact custody_setIdentityState_quiet _ _ rfl rfl

theorem custody_noteUsable {fe : FrameEvidence} {acc : EvidenceAccumulator} :
    (noteUsable m row fe acc).custody = m.custody := by
  rw [noteUsable]
  split
  · split
    · exact custody_openUnverifiable _
    · rfl
  · split
    · refine (custody_setIdentityState_quiet _ _ ?_ ?_).trans (custody_closeObservation _ _ _)
      · rw [closeObservation_session]
      · rw [closeObservation_session]
    · rfl

theorem custody_tellCadence : (tellCadence m env).1.custody = m.custody :=
  custody_setIdentityState_quiet _ _ rfl rfl

/-- What a decided sample does: the evidence takes it in, or the exam is held. -/
def Custody.Weighed (c c' : Custody) (samples : List SampleId) : Prop :=
  (∃ acc : EvidenceAccumulator, acc.samples.Subperm samples ∧ c' = { c with evidence := acc }) ∨
    c' = c.hold ∧ ¬ c.status.isTerminal

theorem Custody.weighed_of_eq {c c' : Custody} (h : c' = c) : c.Weighed c' c.evidence.samples :=
  .inl ⟨c.evidence, .refl _, h⟩

theorem Custody.Weighed.of_evidence {c c' : Custody} {acc : EvidenceAccumulator}
    {samples : List SampleId} (h : ({ c with evidence := acc } : Custody).Weighed c' acc.samples)
    (hacc : acc.samples.Subperm samples) : c.Weighed c' samples := by
  obtain ⟨acc', hsub, rfl⟩ | ⟨rfl, hs⟩ := h
  · exact .inl ⟨acc', hsub.trans hacc, rfl⟩
  · exact .inr ⟨rfl, hs⟩

theorem weighed_confirmMismatch {startedAt : Int} :
    (confirmMismatch m startedAt).Yields fun r =>
      m.custody.Weighed r.1.custody m.custody.evidence.samples := by
  rw [confirmMismatch]
  generalize hn : SessionMutation.setIdentityState _ _ = n
  have hquiet : n.custody = m.custody := by
    rw [← hn]
    exact custody_setIdentityState_quiet _ _ rfl rfl
  have hheld : (holdNow n { reason := .identityMismatch, source := .serverIdentity }).Yields
      fun k => m.custody.Weighed k.custody m.custody.evidence.samples := by
    intro k hk
    obtain ⟨hs, rfl⟩ := holdNow_eq_ok.1 hk
    rw [custody_enterHold n rfl, hquiet]
    have hstatus : n.session.status = m.session.status := congrArg Custody.status hquiet
    rw [hstatus] at hs
    exact .inr ⟨rfl, hs⟩
  exact .ite (fun _ => hheld.bind fun k hk => .pure hk)
    fun _ => .pure (Custody.weighed_of_eq hquiet)

theorem weighed_judgeSwap {res : AccumulateResult} :
    (judgeSwap m env row res).Yields fun r =>
      m.custody.Weighed r.1.custody m.custody.evidence.samples := by
  rw [judgeSwap]
  split
  · refine .ite (fun _ => ?_) fun _ => .ok (Custody.weighed_of_eq rfl)
    split
    · exact weighed_confirmMismatch
    · exact .ok (.inl ⟨stayedSuspect m.session.identityState.evidence, .refl _, rfl⟩)
    · exact .ok (.inl ⟨stayedSuspect m.session.identityState.evidence, .refl _, rfl⟩)
    · refine .ok (.inl ⟨_, ?_, custody_openUnverifiable _⟩)
      exact ((drop_sublist _ _).map _).subperm
  · refine .ite (fun _ => .ok (Custody.weighed_of_eq ?_)) fun _ => .ok (Custody.weighed_of_eq rfl)
    refine (custody_setIdentityState_quiet _ _ ?_ ?_).trans (custody_closeObservation _ _ _)
    · rw [closeObservation_session]
    · rw [closeObservation_session]

/-- **A decided sample**, as it shows in the custody. -/
theorem weighed_applyEvidence {fe : FrameEvidence} :
    (applyEvidence m env row fe).Yields fun r =>
      m.custody.Weighed r.1.custody (row.id :: m.custody.evidence.samples) := by
  rw [applyEvidence]
  have hfed : (noteFeed (noteSampleReceived m row) row).custody = m.custody :=
    custody_noteFeed.trans custody_noteSampleReceived
  generalize noteFeed (noteSampleReceived m row) row = n at hfed ⊢
  have hevidence : n.session.identityState.evidence = m.session.identityState.evidence :=
    congrArg Custody.evidence hfed
  have hsamples := samples_accumulate n.session.identityState.evidence
    { id := row.id, atMs := row.atMs, trigger := row.trigger, evidence := fe }
  have hadd : (addEvidence n row fe).1.custody =
      { m.custody with evidence := (addEvidence n row fe).2.acc } := by
    rw [← hfed]
    rfl
  have hacc : (addEvidence n row fe).2.acc.samples.Subperm (row.id :: m.custody.evidence.samples) := by
    change (accumulate n.session.identityState.evidence _).acc.samples.Subperm _
    rw [hevidence] at hsamples ⊢
    exact hsamples
  generalize addEvidence n row fe = r at hadd hacc ⊢
  have husable : (noteUsable r.1 row fe r.2.acc).custody = { m.custody with evidence := r.2.acc } :=
    custody_noteUsable.trans hadd
  have hjudged := @weighed_judgeSwap (noteUsable r.1 row fe r.2.acc) _ _ env row r.2
  rw [husable] at hjudged
  refine hjudged.bind fun k hk => ?_
  have hweighed := hk.of_evidence hacc
  refine .ite (fun _ => .pure hweighed) fun _ => .pure ?_
  rw [custody_tellCadence]
  split
  · rw [custody_openUnverifiable]
    exact hweighed
  · exact hweighed

theorem weighed_resolveSwapSecondOpinion {mismatch : Bool} :
    (resolveSwapSecondOpinion m row mismatch).Yields fun m' =>
      m.custody.Weighed m'.custody m.custody.evidence.samples := by
  refine .ite (fun _ => .ok (Custody.weighed_of_eq rfl)) fun _ => ?_
  refine .ite (fun _ => .ok (Custody.weighed_of_eq rfl)) fun _ => ?_
  refine .ite (fun _ => ?_) fun _ => .ok ?_
  · exact (weighed_confirmMismatch.mono fun r hr => hr.of_evidence (.refl _)).fst
  · rw [custody_openUnverifiable]
    refine Custody.Weighed.of_evidence (Custody.weighed_of_eq rfl) ?_
    exact nil_subperm

end SmartProctoring
