import Mathlib.Algebra.BigOperators.Group.List.Basic
import Mathlib.Data.List.Sort
import Mathlib.Tactic.Linarith
import SmartProctoring.Lib.Run
import SmartProctoring.Server.IdentityEvidence

/-!
# The evidence accumulator

`accumulate` of `services/identity-evidence.ts`, with `windowEvidence` and the thresholds of
`vision/calibration.ts`.  One decided sample takes its place in a window of the last samples, and
the window's log-likelihood sum moves the session between `consistent`, `monitoring`, `suspect` and
`confirmed_mismatch`.

Log-likelihood ratios are exact rationals here, rounded to four decimals where the code rounds them.
The posterior probability that goes out with the result is a function of the sum and is left out.

The module's rule is that a confirmed mismatch rests on two fair or good looks.  The clamp and the
discontinuity weight do keep a single sample below the threshold, and the cap keeps poor ones below
it, but one fair or good sample *and* capped poor ones reach it together: `PoorCompletes` is exactly
when they do.
-/

set_option autoImplicit false

namespace SmartProctoring

namespace CALIBRATION

/-- Accumulated evidence at or above which a faster sample is asked for. -/
def sprtSuspect : ℚ := 3

/-- Accumulated evidence at or above which a mismatch is confirmed. -/
def sprtConfirm : ℚ := 7

/-- Accumulated evidence at or below which the evidence is reset. -/
def sprtClear : ℚ := -6

def sprtMaxSamples : Nat := 8

/-- Positive evidence from poor samples counts at most this much in the window. -/
def sprtMaxPoorEvidence : ℚ := 4

def llrClamp : ℚ := 5

end CALIBRATION

namespace EVIDENCE

def monitorLLR : ℚ := 1
def closeAfterClearSamples : Nat := 2
def maxAgeMs : Int := 10 * 60000
def discontinuityWeight : ℚ := 5 / 4

end EVIDENCE

def CLEAR_MATCH_LLR : ℚ := -3

/-- Triggers at which the person in view may have changed. -/
def DISCONTINUITY_TRIGGERS : List IdentityCheckTrigger :=
  [.examStart, .trackBreak, .appearanceChange, .faceReturn, .cameraReconnect,
    .afterMultiplePeople, .afterObstruction]

/-- `Math.round(v * 10000) / 10000`. -/
def round4 (v : ℚ) : ℚ := ⌊v * 10000 + 1 / 2⌋ / 10000

/-- Positive evidence from a poor frame. -/
def EvidenceEntry.poorPositive (e : EvidenceEntry) : Bool := e.bucket = .poor && decide (0 < e.llr)

/-- The sum of the samples' ratios, with positive evidence from poor samples capped. -/
def windowEvidence (window : List EvidenceEntry) : ℚ :=
  let (sum, poor) := window.foldl
    (fun (sum, poor) e => if e.poorPositive then (sum, poor + e.llr) else (sum + e.llr, poor))
    (0, 0)
  sum + min CALIBRATION.sprtMaxPoorEvidence poor

def windowSum (window : List EvidenceEntry) : ℚ := round4 (windowEvidence window)

/-- Evidence of one frame, or of one burst: `bucket` is absent when the frame is unusable. -/
structure FrameEvidence where
  usable : Bool
  bucket : Option QualityBucket
  llr : ℚ

structure SampleObservation where
  id : SampleId
  atMs : Int
  trigger : IdentityCheckTrigger
  evidence : FrameEvidence

inductive EvidenceTransition
  | none | monitoring | suspect | confirmed | cleared | recovered
  deriving DecidableEq

structure AccumulateResult where
  acc : EvidenceAccumulator
  transition : EvidenceTransition
  /-- Contribution of this sample to the window. -/
  contribution : ℚ
  sum : ℚ

/-! ## The window -/

namespace EvidenceAccumulator

variable (prev : EvidenceAccumulator) (obs : SampleObservation)

def newest : Option Int := latest (prev.window.map fun e => some e.atMs)

/-- The sample is newer than everything in the window. -/
def inOrder : Bool := prev.newest.all fun t => decide (t < obs.atMs)

def latestWith : Int := (latest [prev.lastSampleAt, prev.newest]).elim obs.atMs (max obs.atMs)

/-- The samples of the window that are not too old. -/
def recent : List EvidenceEntry :=
  prev.window.filter fun e => decide (prev.latestWith obs - e.atMs ≤ EVIDENCE.maxAgeMs)

def discontinuity : Bool := DISCONTINUITY_TRIGGERS.contains obs.trigger && prev.inOrder obs

def contribution : ℚ :=
  round4
    (if 0 < obs.evidence.llr ∧ prev.discontinuity obs = true then
      obs.evidence.llr * EVIDENCE.discontinuityWeight
    else obs.evidence.llr)

/-- The window with a usable sample added: a discontinuity drops the earlier genuine evidence, a
late sample takes its place in time, and the oldest leave. -/
def windowWith (bucket : QualityBucket) : List EvidenceEntry :=
  let window := prev.recent obs
  let window := if prev.discontinuity obs then window.filter fun e => decide (0 < e.llr) else window
  let window := window ++ [⟨obs.id, obs.atMs, prev.contribution obs, bucket, obs.trigger⟩]
  let window :=
    if prev.inOrder obs then window else window.insertionSort fun a b => a.atMs ≤ b.atMs
  window.drop (window.length - CALIBRATION.sprtMaxSamples)

/-- The accumulator with a usable sample in its window, before it is judged. -/
def added (prev : EvidenceAccumulator) (obs : SampleObservation) (bucket : QualityBucket) :
    EvidenceAccumulator :=
  { prev with
    lastSampleAt := some (prev.latestWith obs)
    unusableStreak := 0
    lastUsableAt := some (prev.lastUsableAt.elim obs.atMs (max obs.atMs))
    window := prev.windowWith obs bucket }

theorem kept_sublist (prev : EvidenceAccumulator) (obs : SampleObservation) :
    (if prev.discontinuity obs then (prev.recent obs).filter fun e => decide (0 < e.llr)
      else prev.recent obs).Sublist prev.window := by
  split
  · exact List.filter_sublist.trans List.filter_sublist
  · exact List.filter_sublist

end EvidenceAccumulator

/-- What the window's sum makes of a state that is not a confirmed mismatch. -/
def judgeWindow (acc : EvidenceAccumulator) (prevState : EvidenceStateName) (atMs : Int)
    (contribution sum : ℚ) : EvidenceAccumulator × EvidenceTransition :=
  if sum ≤ CALIBRATION.sprtClear then
    ({ acc with window := [], state := .consistent },
      if prevState = .consistent then .none else .cleared)
  else if CALIBRATION.sprtConfirm ≤ sum then
    ({ acc with state := .confirmedMismatch, confirmedAt := some atMs, clearStreak := 0 },
      .confirmed)
  else if CALIBRATION.sprtSuspect ≤ sum then
    ({ acc with state := .suspect }, if prevState = .suspect then .none else .suspect)
  else if EVIDENCE.monitorLLR < sum ∨ EVIDENCE.monitorLLR < contribution then
    ({ acc with state := .monitoring }, if prevState = .monitoring then .none else .monitoring)
  else
    ({ acc with state := .consistent }, if prevState = .consistent then .none else .cleared)

/-- A confirmed mismatch ends with enough clear genuine samples in a row. -/
def judgeConfirmed (acc : EvidenceAccumulator) (contribution : ℚ) :
    EvidenceAccumulator × EvidenceTransition :=
  let clearStreak := if contribution ≤ CLEAR_MATCH_LLR then acc.clearStreak + 1 else 0
  if EVIDENCE.closeAfterClearSamples ≤ clearStreak then
    ({ acc with window := [], state := .consistent, confirmedAt := none, clearStreak := 0 },
      .recovered)
  else ({ acc with clearStreak }, .none)

/-- Add one sample to the session's evidence. -/
def accumulate (prev : EvidenceAccumulator) (obs : SampleObservation) : AccumulateResult :=
  let acc := { prev with
    lastSampleAt := some (prev.latestWith obs)
    window := prev.recent obs }
  let done (r : EvidenceAccumulator × EvidenceTransition) (contribution : ℚ) : AccumulateResult :=
    { acc := r.1, transition := r.2, contribution, sum := windowSum r.1.window }
  match obs.evidence.usable, obs.evidence.bucket with
  | true, some bucket =>
    let acc := { acc with
      unusableStreak := 0
      lastUsableAt := some (prev.lastUsableAt.elim obs.atMs (max obs.atMs))
      window := prev.windowWith obs bucket }
    let contribution := prev.contribution obs
    let sum := windowSum acc.window
    if prev.state = .confirmedMismatch then done (judgeConfirmed acc contribution) contribution
    else done (judgeWindow acc prev.state obs.atMs contribution sum) contribution
  | _, _ => done ({ acc with unusableStreak := acc.unusableStreak + 1 }, .none) 0

/-! ## What a step can do to the window -/

variable {prev : EvidenceAccumulator} {obs : SampleObservation} {e : EvidenceEntry}

theorem EvidenceAccumulator.mem_windowWith
    {bucket : QualityBucket} (h : e ∈ prev.windowWith obs bucket) :
    e ∈ prev.window ∨ e = ⟨obs.id, obs.atMs, prev.contribution obs, bucket, obs.trigger⟩ := by
  have h := List.mem_of_mem_drop h
  have hrecent : ∀ e, e ∈ prev.recent obs → e ∈ prev.window := fun e he => (List.mem_filter.1 he).1
  split at h <;> rename_i hd <;> split at h <;>
    simp only [List.mem_insertionSort, List.mem_append, List.mem_singleton, List.mem_filter] at h
  all_goals grind

theorem judgeWindow_cases (acc : EvidenceAccumulator) (prevState : EvidenceStateName) (atMs : Int)
    (contribution sum : ℚ) :
    ((judgeWindow acc prevState atMs contribution sum).1.window = acc.window ∨
      (judgeWindow acc prevState atMs contribution sum).1.window = []) ∧
    ((judgeWindow acc prevState atMs contribution sum).2 = .confirmed ↔
      CALIBRATION.sprtConfirm ≤ sum) ∧
    ((judgeWindow acc prevState atMs contribution sum).2 = .confirmed →
      (judgeWindow acc prevState atMs contribution sum).1.window = acc.window) := by
  have hclear : sum ≤ CALIBRATION.sprtClear → ¬CALIBRATION.sprtConfirm ≤ sum := by
    simp only [CALIBRATION.sprtClear, CALIBRATION.sprtConfirm]
    intro h; linarith
  unfold judgeWindow
  split_ifs <;> simp_all

theorem judgeConfirmed_cases (acc : EvidenceAccumulator) (contribution : ℚ) :
    ((judgeConfirmed acc contribution).1.window = acc.window ∨
      (judgeConfirmed acc contribution).1.window = []) ∧
    (judgeConfirmed acc contribution).2 ≠ .confirmed := by
  unfold judgeConfirmed
  extract_lets streak
  split_ifs <;> simp

theorem mem_window_accumulate (h : e ∈ (accumulate prev obs).acc.window) :
    e ∈ prev.window ∨ e.llr = prev.contribution obs := by
  unfold accumulate at h
  split at h
  · split at h
    · rcases (judgeConfirmed_cases _ _).1 with hw | hw <;> rw [hw] at h
      · rcases EvidenceAccumulator.mem_windowWith h with h | rfl
        exacts [.inl h, .inr rfl]
      · simp at h
    · rcases (judgeWindow_cases _ _ _ _ _).1 with hw | hw <;> rw [hw] at h
      · rcases EvidenceAccumulator.mem_windowWith h with h | rfl
        exacts [.inl h, .inr rfl]
      · simp at h
  · exact .inl (List.mem_filter.1 h).1

/-- The window a usable sample is judged by; what an unusable one leaves is not judged. -/
def judgedWindow (prev : EvidenceAccumulator) (obs : SampleObservation) :
    Option (List EvidenceEntry) :=
  match obs.evidence.usable, obs.evidence.bucket with
  | true, some bucket =>
    if prev.state = .confirmedMismatch then none else some (prev.windowWith obs bucket)
  | _, _ => none

variable {w : List EvidenceEntry}

theorem mem_judgedWindow (h : judgedWindow prev obs = some w)
    (he : e ∈ w) : e ∈ prev.window ∨ e.llr = prev.contribution obs := by
  unfold judgedWindow at h
  split at h
  · split at h
    · cases h
    · cases h
      rcases EvidenceAccumulator.mem_windowWith he with he | rfl
      exacts [.inl he, .inr rfl]
  · cases h

theorem accumulate_of_unjudged
    (h : judgedWindow prev obs = none) : (accumulate prev obs).transition ≠ .confirmed := by
  unfold judgedWindow at h
  unfold accumulate
  split at h
  · split at h
    · simpa [*] using (judgeConfirmed_cases _ _).2
    · cases h
  · simp

theorem accumulate_of_judged (h : judgedWindow prev obs = some w) :
    ((accumulate prev obs).transition = .confirmed ↔ CALIBRATION.sprtConfirm ≤ windowSum w) ∧
      ((accumulate prev obs).transition = .confirmed → (accumulate prev obs).acc.window = w) := by
  unfold judgedWindow at h
  unfold accumulate
  split at h
  · split at h
    · cases h
    · cases h
      rename_i bucket _ _ hconfirmed
      simpa [*, EvidenceAccumulator.added] using (judgeWindow_cases (prev.added obs bucket) prev.state obs.atMs
        (prev.contribution obs) (windowSum (prev.windowWith obs bucket))).2
  · cases h

/-! ## The sums are exact

Every entry is rounded when it enters, so rounding the sum again changes nothing. -/

/-- A whole number of ten-thousandths. -/
def Quantised (v : ℚ) : Prop := ∃ n : ℤ, v = n / 10000

theorem Quantised.round4 (v : ℚ) : Quantised (round4 v) := ⟨_, rfl⟩

theorem Quantised.add {v w : ℚ} (hv : Quantised v) (hw : Quantised w) : Quantised (v + w) := by
  obtain ⟨n, rfl⟩ := hv
  obtain ⟨k, rfl⟩ := hw
  exact ⟨n + k, by push_cast; ring⟩

theorem Quantised.min {v w : ℚ} (hv : Quantised v) (hw : Quantised w) : Quantised (min v w) := by
  rcases min_choice v w with h | h <;> rw [h] <;> assumption

variable {v : ℚ}

theorem round4_of_quantised (hv : Quantised v) : round4 v = v := by
  obtain ⟨n, rfl⟩ := hv
  have hround : ⌊((n : ℚ) / 10000) * 10000 + 1 / 2⌋ = n := by
    rw [Int.floor_eq_iff]
    constructor <;> linarith
  rw [SmartProctoring.round4, hround]

/-! ## The parts of the evidence -/

/-- A fair or good look at somebody else. -/
def EvidenceEntry.look (e : EvidenceEntry) : Bool := !(e.bucket = .poor) && decide (0 < e.llr)

/-- Evidence for the candidate, of any quality. -/
def EvidenceEntry.genuine (e : EvidenceEntry) : Bool := decide (e.llr ≤ 0)

def llrOf (p : EvidenceEntry → Bool) (window : List EvidenceEntry) : ℚ :=
  ((window.filter p).map EvidenceEntry.llr).sum

theorem windowEvidence_eq (window : List EvidenceEntry) :
    windowEvidence window =
      llrOf EvidenceEntry.look window + llrOf EvidenceEntry.genuine window +
        min CALIBRATION.sprtMaxPoorEvidence (llrOf EvidenceEntry.poorPositive window) := by
  -- the loop's two accumulators, from any values of them
  have hloop : ∀ (w : List EvidenceEntry) (sum poor : ℚ),
      w.foldl (fun (s : ℚ × ℚ) e =>
        if e.poorPositive then (s.1, s.2 + e.llr) else (s.1 + e.llr, s.2)) (sum, poor) =
      (sum + (llrOf EvidenceEntry.look w + llrOf EvidenceEntry.genuine w),
        poor + llrOf EvidenceEntry.poorPositive w) := by
    intro w
    induction w with
    | nil => simp [llrOf]
    | cons e w ih =>
      intro sum poor
      rw [List.foldl_cons]
      rcases lt_or_ge 0 e.llr with hpos | hneg
      · by_cases hpoor : e.bucket = .poor
        · rw [ih]
          simp [llrOf, EvidenceEntry.look, EvidenceEntry.genuine, EvidenceEntry.poorPositive,
            hpoor, hpos, add_assoc]
        · rw [ih]
          simp [llrOf, EvidenceEntry.look, EvidenceEntry.genuine, EvidenceEntry.poorPositive,
            hpoor, hpos, add_assoc]
      · rw [ih]
        simp [llrOf, EvidenceEntry.look, EvidenceEntry.genuine, EvidenceEntry.poorPositive,
          hneg, hneg.not_gt]
        ring
  rw [windowEvidence]
  simp only [hloop window 0 0, zero_add]

theorem llrOf_genuine_nonpos (window : List EvidenceEntry) :
    llrOf EvidenceEntry.genuine window ≤ 0 := by
  induction window with
  | nil => simp [llrOf]
  | cons e w ih =>
    by_cases he : e.llr ≤ 0
    · simpa [llrOf, EvidenceEntry.genuine, he] using add_nonpos he ih
    · simpa [llrOf, EvidenceEntry.genuine, he] using ih

theorem Quantised.windowEvidence {window : List EvidenceEntry}
    (h : ∀ e ∈ window, Quantised e.llr) : Quantised (windowEvidence window) := by
  have hzero : Quantised 0 := ⟨0, by norm_num⟩
  have hpart : ∀ (p : EvidenceEntry → Bool) (w : List EvidenceEntry),
      (∀ e ∈ w, Quantised e.llr) → Quantised (llrOf p w) := by
    intro p w hw
    induction w with
    | nil => exact hzero
    | cons e w ih =>
      have ih := ih fun e he => hw e (List.mem_cons_of_mem _ he)
      by_cases he : p e = true
      · simpa [llrOf, he] using (hw e List.mem_cons_self).add ih
      · simpa [llrOf, he] using ih
  rw [windowEvidence_eq]
  exact ((hpart _ _ h).add (hpart _ _ h)).add
    (.min ⟨40000, by norm_num [CALIBRATION.sprtMaxPoorEvidence]⟩ (hpart _ _ h))

/-! ## Two good looks -/

/-- The session's evidence, one sample after another. -/
def evidenceMachine : Machine EvidenceAccumulator SampleObservation where
  init acc := acc = {}
  step obs acc := (accumulate acc obs).acc
  enabled _ _ := True

theorem quantised_reachable {acc : EvidenceAccumulator} (h : evidenceMachine.Reachable acc) :
    ∀ e ∈ acc.window, Quantised e.llr := by
  refine h.invariant (I := fun acc => ∀ e ∈ acc.window, Quantised e.llr) ?_ ?_
  · rintro _ rfl e he
    simp at he
  · intro acc obs _ _ ih e he
    rcases mem_window_accumulate he with he | he
    · exact ih e he
    · rw [he]
      exact .round4 _

/-- A mismatch confirmed by this sample rests on two fair or good looks. -/
def TwoLooks (prev : EvidenceAccumulator) (obs : SampleObservation) : Prop :=
  (accumulate prev obs).transition = .confirmed →
    2 ≤ ((accumulate prev obs).acc.window.filter EvidenceEntry.look).length
  deriving Decidable

/-- The judged window holds one fair or good look, worth at least 3 with the genuine evidence taken
off, and poor frames make up what it lacks to 7. -/
def PoorCompletes (prev : EvidenceAccumulator) (obs : SampleObservation) : Prop :=
  ∃ w e, judgedWindow prev obs = some w ∧ w.filter EvidenceEntry.look = [e] ∧
    3 ≤ e.llr + llrOf EvidenceEntry.genuine w ∧
    7 - (e.llr + llrOf EvidenceEntry.genuine w) ≤ llrOf EvidenceEntry.poorPositive w

theorem windowSum_judged (hprev : evidenceMachine.Reachable prev)
    (h : judgedWindow prev obs = some w) :
    windowSum w =
      llrOf EvidenceEntry.look w + llrOf EvidenceEntry.genuine w +
        min 4 (llrOf EvidenceEntry.poorPositive w) := by
  have hquantised : ∀ e ∈ w, Quantised e.llr := by
    intro e he
    rcases mem_judgedWindow h he with he | he
    · exact quantised_reachable hprev e he
    · rw [he]
      exact .round4 _
  rw [windowSum, round4_of_quantised (.windowEvidence hquantised), windowEvidence_eq]
  rfl

theorem windowSum_of_no_look (hlook : w.filter EvidenceEntry.look = []) :
    llrOf EvidenceEntry.look w + llrOf EvidenceEntry.genuine w +
      min 4 (llrOf EvidenceEntry.poorPositive w) ≤ 4 := by
  have hnone : llrOf EvidenceEntry.look w = 0 := by simp [llrOf, hlook]
  have hgenuine := llrOf_genuine_nonpos w
  have hcap := min_le_left (4 : ℚ) (llrOf EvidenceEntry.poorPositive w)
  linarith

theorem twoLooks_iff (h : evidenceMachine.Reachable prev)
    (obs : SampleObservation) : TwoLooks prev obs ↔ ¬PoorCompletes prev obs := by
  cases hjudged : judgedWindow prev obs with
  | none =>
    have hunconfirmed := accumulate_of_unjudged hjudged
    simp [TwoLooks, PoorCompletes, hunconfirmed, hjudged]
  | some w =>
    obtain ⟨hiff, hwindow⟩ := accumulate_of_judged hjudged
    rw [windowSum_judged h hjudged] at hiff
    have hseven : CALIBRATION.sprtConfirm = 7 := rfl
    constructor
    · rintro htwo ⟨w', e, hw', hlook, hthree, hrest⟩
      obtain rfl : w = w' := Option.some.inj (hjudged.symm.trans hw')
      have hone : llrOf EvidenceEntry.look w = e.llr := by simp [llrOf, hlook]
      have hconf := hiff.2 (by
        rcases min_choice (4 : ℚ) (llrOf EvidenceEntry.poorPositive w) with hmin | hmin <;>
          rw [hone] <;> linarith)
      have := htwo hconf
      rw [hwindow hconf, hlook] at this
      simp at this
    · intro hpoor hconf
      have hsum := hiff.1 hconf
      rw [hwindow hconf]
      by_contra hfew
      rcases hlook : w.filter EvidenceEntry.look with _ | ⟨e, _ | ⟨e', rest⟩⟩
      · linarith [windowSum_of_no_look hlook]
      · have hone : llrOf EvidenceEntry.look w = e.llr := by simp [llrOf, hlook]
        have hcap := min_le_left (4 : ℚ) (llrOf EvidenceEntry.poorPositive w)
        have hpoorSum := min_le_right (4 : ℚ) (llrOf EvidenceEntry.poorPositive w)
        exact hpoor ⟨w, e, hjudged, hlook, by linarith, by linarith⟩
      · simp [hlook] at hfew

/-- **When a confirmed mismatch rests on two good looks.**  Over any samples from the empty
accumulator, every confirmation has two fair or good looks in its window exactly when no sample lets
poor frames complete the evidence of a single look. -/
theorem mismatch_rests_on_two_looks (samples : List SampleObservation) :
    evidenceMachine.EachStep TwoLooks {} samples ↔
      evidenceMachine.EachStep (fun prev obs => ¬PoorCompletes prev obs) {} samples := by
  have haccepts : ∀ (samples : List SampleObservation) (acc : EvidenceAccumulator),
      evidenceMachine.Admits acc samples := by
    intro samples
    induction samples with
    | nil => exact fun _ => trivial
    | cons obs samples ih => exact fun _ => ⟨trivial, ih _⟩
  exact Machine.EachStep.congr (fun prev obs h _ => twoLooks_iff h obs) (.init rfl)
    (haccepts samples {})

/-- One fair look worth 3, then one poor look worth 4. -/
def fairThenPoor : List SampleObservation :=
  [⟨⟨1⟩, 1000, .periodic, ⟨true, some .fair, 3⟩⟩, ⟨⟨2⟩, 6000, .periodic, ⟨true, some .poor, 4⟩⟩]

theorem mismatch_from_one_look :
    (∀ obs ∈ fairThenPoor, |obs.evidence.llr| ≤ CALIBRATION.llrClamp) ∧
      ¬evidenceMachine.EachStep TwoLooks {} fairThenPoor := by
  decide +kernel

end SmartProctoring
