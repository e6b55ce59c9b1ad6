import SmartProctoring.Detection.LivenessTracker

/-!
# The liveness tracker stays in step

An update moves the hold and the guidance of the current step; only a capture, an answer or a reset
moves the step.  From what each call can do follow the invariants of a run: the frames of a step,
the steps that are over, the frames seen since the hold began, and the targets of the re-prompts.
-/

set_option autoImplicit false

namespace SmartProctoring

open List Option

namespace LivenessTracker

/-- One valid face at `since`, and at every update after it. -/
def ValidSince (seen : List (ℚ × Bool)) (since : ℚ) : Prop :=
  ∃ pre rest, seen = pre ++ (since, true) :: rest ∧ ∀ e ∈ rest, e.2 = true

theorem ValidSince.now (seen : List (ℚ × Bool)) (t : ℚ) : ValidSince (seen ++ [(t, true)]) t :=
  ⟨seen, [], rfl, fun _ h => absurd h not_mem_nil⟩

theorem ValidSince.later {seen : List (ℚ × Bool)} {since : ℚ} (h : ValidSince seen since) (t : ℚ) :
    ValidSince (seen ++ [(t, true)]) since := by
  obtain ⟨pre, rest, rfl, hrest⟩ := h
  refine ⟨pre, rest ++ [(t, true)], by rw [append_assoc, cons_append], fun e he => ?_⟩
  rcases mem_append.1 he with he | he
  · exact hrest e he
  · rw [mem_singleton.1 he]

/-- The captures a step has room for. -/
def TrackerConfig.maxCaptures (cfg : TrackerConfig) : Nat :=
  if cfg.awaitVerdict then cfg.maxFrames else cfg.framesPerStep

theorem TrackerConfig.framesPerStep_le_maxCaptures (cfg : TrackerConfig) :
    cfg.framesPerStep ≤ cfg.maxCaptures := by
  rw [maxCaptures]
  split
  · exact cfg.framesPerStep_le
  · exact le_rfl

variable {cfg : TrackerConfig} {i : Nat}

theorem TrackerConfig.stepAt_eq_none : cfg.stepAt i = none ↔ cfg.steps.length ≤ i :=
  List.getElem?_eq_none_iff

theorem TrackerConfig.lt_of_stepAt {step : TrackerStep} (h : cfg.stepAt i = some step) :
    i < cfg.steps.length :=
  (List.getElem?_eq_some_iff.1 h).1

theorem TrackerConfig.startProgress_done (h : (cfg.startProgress i).done = true) :
    cfg.steps.length ≤ i := by
  rw [startProgress] at h
  cases hs : cfg.stepAt i with
  | none => exact stepAt_eq_none.1 hs
  | some step =>
    rw [hs] at h
    exact absurd h Bool.false_ne_true

namespace Tracker

variable {cfg : TrackerConfig} {s s' s'' : Tracker} {step : TrackerStep} {t : ℚ}

/-! ## What an update does -/

/-- What no update touches. -/
structure Kept (s s' : Tracker) : Prop where
  idx : s'.idx = s.idx
  captured : s'.captured = s.captured
  capturedTotal : s'.capturedTotal = s.capturedTotal
  lastCaptureAt : s'.lastCaptureAt = s.lastCaptureAt
  capturedOff : s'.capturedOff = s.capturedOff
  waiting : s'.waiting = s.waiting
  retrying : s'.retrying = s.retrying
  stepTarget : s'.stepTarget = s.stepTarget
  offsets : s'.offsets = s.offsets
  finished : s'.finished = s.finished

theorem Kept.trans (h : Kept s s') (h' : Kept s' s'') : Kept s s'' where
  idx := h'.idx.trans h.idx
  captured := h'.captured.trans h.captured
  capturedTotal := h'.capturedTotal.trans h.capturedTotal
  lastCaptureAt := h'.lastCaptureAt.trans h.lastCaptureAt
  capturedOff := h'.capturedOff.trans h.capturedOff
  waiting := h'.waiting.trans h.waiting
  retrying := h'.retrying.trans h.retrying
  stepTarget := h'.stepTarget.trans h.stepTarget
  offsets := h'.offsets.trans h.offsets
  finished := h'.finished.trans h.finished

/-- A valid face moves the hold of the step. -/
structure Tracked (cfg : TrackerConfig) (step : TrackerStep) (t : ℚ) (s s' : Tracker) : Prop where
  kept : Kept s s'
  seen : s'.seen = s.seen
  offs : ∀ o ∈ s'.offs, o ∈ s.offs ∨ o.1 = t
  since : ∀ h, s'.holdStart = some h → s.holdStart = some h ∨ h = t ∨ ∃ o ∈ s'.offs, o.1 = h
  ready : s'.last.readyToCapture = true →
    ∃ h, s'.holdStart = some h ∧ cfg.holdMs ≤ t - h ∧ ∀ l,
    s.lastCaptureAt = some l → cfg.minCaptureGap ≤ t - l
  notDone : s'.last.done = false
  candidate : (s'.capturedCandidateOff = s.capturedCandidateOff ∧ s'.ready = s.ready) ∨
    ∃ a x, step.action = .move a ∧ s.targetFor cfg a ≤ x ∧ s'.capturedCandidateOff = some x ∧
    s'.ready = some x

theorem Tracked.hold (ok : Bool) (progress : ℚ) (hint : String) (stage : Stage) {since : ℚ}
    (hsince : since = t ∨ ∃ o ∈ s.offs, o.1 = since) :
    Tracked cfg step t s (s.hold cfg ok t progress step hint stage since) where
  kept := by constructor <;> rfl
  seen := rfl
  offs o ho := .inl ho
  since h hh := by
    cases ok with
    | false => exact absurd hh (by simp [Tracker.hold])
    | true =>
      change some (s.holdStart.getD since) = some h at hh
      cases hs : s.holdStart with
      | some h' =>
        rw [hs] at hh
        exact .inl hh
      | none =>
        rw [hs] at hh
        cases hh
        exact .inr hsince
  ready h := by
    simp only [Tracker.hold, Bool.and_eq_true] at h
    obtain ⟨hs, hl⟩ := h
    obtain ⟨start, hstart, hheld⟩ := (any_eq_true _ _).1 hs
    refine ⟨start, hstart, of_decide_eq_true hheld, fun l hlast => ?_⟩
    rw [hlast] at hl
    exact of_decide_eq_true hl
  notDone := rfl
  candidate := .inl ⟨rfl, rfl⟩

theorem ready_ok {ok : Bool} {progress : ℚ} {hint : String} {stage : Stage} {since : ℚ}
    (h : (s.hold cfg ok t progress step hint stage since).last.readyToCapture = true) :
    ok = true := by
  cases ok with
  | true => rfl
  | false => exact absurd h (by simp [Tracker.hold])

/-- What comes before the hold: poses are kept, the centre may be found and the hold may be over. -/
structure Prepared (t : ℚ) (s s' : Tracker) : Prop where
  kept : Kept s s'
  seen : s'.seen = s.seen
  offs : ∀ o ∈ s'.offs, o ∈ s.offs ∨ o.1 = t
  holdStart : ∀ h, s'.holdStart = some h → s.holdStart = some h
  candidate : s'.capturedCandidateOff = s.capturedCandidateOff
  ready : s'.ready = s.ready

theorem Prepared.tracked (h : Prepared t s s') (h' : Tracked cfg step t s' s'') :
    Tracked cfg step t s s'' where
  kept := h.kept.trans h'.kept
  seen := h'.seen.trans h.seen
  offs o ho := (h'.offs o ho).elim (h.offs o) .inr
  since start hs := (h'.since start hs).imp_left (h.holdStart start)
  ready hr := by
    obtain ⟨start, hs, hheld, hgap⟩ := h'.ready hr
    rw [h.kept.lastCaptureAt] at hgap
    exact ⟨start, hs, hheld, hgap⟩
  notDone := h'.notDone
  candidate := by
    have hc := h'.candidate
    simp only [targetFor, h.candidate, h.ready, h.kept.stepTarget] at hc
    exact hc

theorem Prepared.steadiness (buf : List (ℚ × Pose)) : Prepared t s { s with buf := buf } :=
  ⟨(by constructor <;> rfl), rfl, fun _ h => .inl h, fun _ h => h, rfl, rfl⟩

theorem Tracked.trackCentre (pose : Pose) :
    Tracked cfg step t s (s.trackCentre cfg step pose t) := by
  rw [Tracker.trackCentre]
  split
  · exact Tracked.hold _ _ _ _ (.inl rfl)
  · exact (Prepared.steadiness _).tracked (Tracked.hold _ _ _ _ (.inl rfl))

theorem findCentre_cases (pose : Pose) :
    (∃ c, (s.findCentre cfg pose t).centre = some c) ∧ Prepared t s (s.findCentre cfg pose t) ∨
      (s.findCentre cfg pose t).centre = none ∧ Tracked cfg step t s (s.findCentre cfg pose t) := by
  rw [findCentre]
  split
  · next c hc =>
    left
    exact ⟨⟨c, hc⟩, (by constructor <;> rfl), rfl, fun _ h => .inl h, fun _ h => h, rfl, rfl⟩
  · next hc =>
    dsimp only
    split
    · left
      exact ⟨⟨_, rfl⟩, (by constructor <;> rfl), rfl, fun _ h => .inl h,
        fun _ h => absurd h (by simp), rfl, rfl⟩
    · right
      exact ⟨hc, (by constructor <;> rfl), rfl, fun _ h => .inl h, fun _ h => .inl h,
        fun h => absurd h Bool.false_ne_true, rfl, .inl ⟨rfl, rfl⟩⟩

theorem mem_of_head {l : List (ℚ × ℚ)} {p : ℚ × ℚ → Bool} {o : ℚ × ℚ}
    (h : (l.filter p).head? = some o) : o ∈ l :=
  mem_of_mem_filter (mem_of_mem_head? h)

variable {a : LivenessAction}

theorem Tracked.trackMove (hact : step.action = .move a) (c pose : Pose) :
    Tracked cfg step t s (s.trackMove cfg step a c pose t) := by
  unfold Tracker.trackMove
  extract_lets isH off target progress crossOk offs recent span peak stopped atPeak reached ok hint
    stage since s₀
  have hoffs : ∀ o ∈ offs, o ∈ s.offs ∨ o.1 = t := by
    intro o ho
    rcases mem_append.1 ((dropWhile_sublist _).subset ho) with ho | ho
    · exact .inl ho
    · exact .inr (by rw [mem_singleton.1 ho])
  have hsince : since = t ∨ ∃ o ∈ offs, o.1 = since := by
    cases hr : recent.head? with
    | none => exact .inl (by simp only [since, hr]; rfl)
    | some o => exact .inr ⟨o, mem_of_head hr, by simp only [since, hr]; rfl⟩
  have hprep : Prepared t s { s with offs := offs } :=
    ⟨(by constructor <;> rfl), rfl, hoffs, fun _ h => h, rfl, rfl⟩
  have hhold : Tracked cfg step t s s₀ := hprep.tracked (Tracked.hold _ _ _ _ hsince)
  split
  · next hready =>
    have hok : ok = true := ready_ok hready
    have hreached : target ≤ off := by
      simp only [ok, reached, Bool.and_eq_true, decide_eq_true_eq] at hok
      exact hok.1.1.1
    exact { hhold with
        kept := hhold.kept.trans (by constructor <;> rfl)
        candidate := .inr ⟨a, off, hact, hreached, rfl, rfl⟩ }
  · exact hhold

theorem Tracked.track (pose : Pose) : Tracked cfg step t s (s.track cfg step pose t) := by
  have hpose : Prepared t s { s with lastPose := some pose } :=
    ⟨(by constructor <;> rfl), rfl, fun _ h => .inl h, fun _ h => h, rfl, rfl⟩
  refine hpose.tracked ?_
  rw [Tracker.track]
  split
  · exact Tracked.trackCentre pose
  · next a hact =>
    dsimp only
    have hcases := @findCentre_cases cfg { s with lastPose := some pose } step t pose
    rcases hcases with ⟨⟨c, hc⟩, hfound⟩ | ⟨hnone, hover⟩
    · rw [hc]
      exact hfound.tracked (Tracked.trackMove hact _ _)
    · rw [hnone]
      exact hover

/-- The four ways an update goes. -/
inductive Updated (cfg : TrackerConfig) (t : ℚ) (valid : Bool) (s : Tracker) : Tracker → Prop
  | finished (h : cfg.stepAt s.idx = none) :
    Updated cfg t valid s { s with seen := s.seen ++ [(t, valid)], last := cfg.doneProgress }
  | waiting (p : LivenessProgress) (h : s.waiting = true) (hdone : p.done = false)
    (hready : p.readyToCapture = false) :
    Updated cfg t valid s { s with seen := s.seen ++ [(t, valid)], last := p }
  | problem (p : LivenessProgress) (h : s.waiting = false) (hdone : p.done = false) (hready : p.readyToCapture = false) :
    Updated cfg t valid s { s with seen := s.seen ++ [(t, valid)], holdStart := none, buf := [], offs := [], last := p }
  | tracked {step : TrackerStep} {s' : Tracker} (hstep : cfg.stepAt s.idx = some step) (h : s.waiting = false)
    (hvalid : valid = true)
    (htracked : Tracked cfg step t { s with seen := s.seen ++ [(t, true)] } s') :
    Updated cfg t valid s s'

theorem update_cases (face : Option TrackedFace) (faceCount : Int) :
    Updated cfg t (problemFor face faceCount).isOk s (s.update cfg face faceCount t) := by
  unfold update
  dsimp only
  split
  · next hnone => exact .finished hnone
  · next step hstep =>
    split
    · next hwait => exact .waiting _ hwait rfl rfl
    · next hwait =>
      have hwait : s.waiting = false := by simpa using hwait
      split
      · next problem hp =>
        exact .problem _ hwait rfl rfl
      · next pose hp =>
        rw [hp]
        exact .tracked hstep hwait rfl (Tracked.track pose)

/-! ## What a capture and an answer do -/

/-- A capture is counted. -/
def counted (s : Tracker) (t : ℚ) (samples : List Pose) : Tracker :=
  { s with
    captured := s.captured + 1
    capturedTotal := s.capturedTotal + 1
    lastCaptureAt := some t
    capturedOff := maxOff s.capturedOff s.capturedCandidateOff
    centreSamples := samples
    offsets := s.offsets ++ [s.ready] }

/-- What a call does. -/
inductive Called (cfg : TrackerConfig) (s : Tracker) : TrackerCall → Tracker → Prop
  | update {face : Option TrackedFace} {faceCount : Int} (t : ℚ) {s' : Tracker}
    (h : Updated cfg t (problemFor face faceCount).isOk s s') : Called cfg s (.update face faceCount t) s'
  | uncounted (t : ℚ) (h : cfg.stepAt s.idx = none ∨ s.waiting = true) : Called cfg s (.markCaptured t) s
  | counted {step : TrackerStep} {t : ℚ} (hstep : cfg.stepAt s.idx = some step) (hwait : s.waiting = false)
    (hroom : s.captured + 1 < s.roundSize cfg) (samples : List Pose) (p : LivenessProgress)
    (hp : p.done = s.last.done) :
    Called cfg s (.markCaptured t) { s.counted t samples with last := p }
  | sent {step : TrackerStep} {t : ℚ} (hstep : cfg.stepAt s.idx = some step)
    (hwait : s.waiting = false)
    (hfull : s.roundSize cfg ≤ s.captured + 1) (hawait : cfg.awaitVerdict = true)
    (centre : Option Pose) (p : LivenessProgress) (hp : p.done = s.last.done) :
    Called cfg s (.markCaptured t)
      { s.counted t [] with centre := centre, waiting := true, holdStart := none, last := p }
  | ended {step : TrackerStep} {t : ℚ} (hstep : cfg.stepAt s.idx = some step)
    (hwait : s.waiting = false)
    (hfull : s.roundSize cfg ≤ s.captured + 1) (hawait : cfg.awaitVerdict = false)
    (centre : Option Pose) :
    Called cfg s (.markCaptured t) (({ s.counted t [] with centre := centre }).advance cfg false)
  | unanswered {stepIndex : ℚ} {satisfied : Bool}
    (h : cfg.stepAt s.idx = none ∨ cfg.stepNo s.idx ≠ stepIndex ∨ s.waiting = false) :
    Called cfg s (.verdict stepIndex satisfied) s
  | moved {step : TrackerStep} {stepIndex : ℚ} {satisfied : Bool}
    (hstep : cfg.stepAt s.idx = some step)
    (hwait : s.waiting = true) (h : satisfied = true ∨ cfg.maxFrames ≤ s.capturedTotal) :
    Called cfg s (.verdict stepIndex satisfied) (s.advance cfg satisfied)
  | asked {step : TrackerStep} {stepIndex : ℚ} {satisfied : Bool}
    (hstep : cfg.stepAt s.idx = some step)
    (hwait : s.waiting = true) (hroom : s.capturedTotal < cfg.maxFrames) :
    Called cfg s (.verdict stepIndex satisfied) (s.reprompt cfg step)
  | setCentre (pose : Option Pose) : Called cfg s (.setCentre pose) (s.setCentre pose)
  | reset : Called cfg s .reset (s.reset cfg)

theorem roundSize_counted (samples : List Pose) :
    (s.counted t samples).roundSize cfg = s.roundSize cfg := by
  simp only [roundSize, counted, Nat.add_sub_add_right]

theorem markCaptured_cases : Called cfg s (.markCaptured t) (s.markCaptured cfg t) := by
  unfold markCaptured
  split
  · next hnone => exact .uncounted t (.inl hnone)
  · next step hstep =>
    split
    · next hwait => exact .uncounted t (.inr hwait)
    · next hwait =>
      have hwait : s.waiting = false := by simpa using hwait
      extract_lets s₀
      have hround : s₀.roundSize cfg = s.roundSize cfg := roundSize_counted s₀.centreSamples
      split
      · next hfull =>
        rw [hround] at hfull
        rw [endRound]
        split
        · next hawait => exact .sent hstep hwait hfull hawait _ _ rfl
        · next hawait => exact .ended hstep hwait hfull (by simpa using hawait) _
      · next hroom =>
        rw [hround] at hroom
        exact .counted hstep hwait (Nat.lt_of_not_le hroom) s₀.centreSamples _ rfl

theorem verdict_cases (stepIndex : ℚ) (satisfied : Bool) :
    Called cfg s (.verdict stepIndex satisfied) (s.verdict cfg stepIndex satisfied) := by
  unfold verdict
  split
  · next hnone => exact .unanswered (.inl hnone)
  · next step hstep =>
    split
    · next hother => exact .unanswered (.inr hother)
    · next hmine =>
      have hwait : s.waiting = true := by
        rw [not_or] at hmine
        simpa using hmine.2
      split
      · next h => exact .moved hstep hwait (by simpa using h)
      · next h =>
        have h : satisfied = false ∧ s.capturedTotal < cfg.maxFrames := by simpa using h
        exact .asked hstep hwait h.2

theorem called (s : Tracker) (c : TrackerCall) : Called cfg s c (s.call cfg c) := by
  cases c with
  | update face faceCount t => exact .update _ (update_cases face faceCount)
  | markCaptured t => exact markCaptured_cases
  | verdict stepIndex satisfied => exact verdict_cases stepIndex satisfied
  | setCentre pose => exact .setCentre pose
  | reset => exact .reset

/-! ## The frames of a step and the steps that are over -/

/-- What holds of the step and its frames between two calls. -/
structure FramesInv (cfg : TrackerConfig) (s : Tracker) : Prop where
  idx : s.idx ≤ cfg.steps.length
  finishedLength : s.finished.length = s.idx
  finished : ∀ e ∈ s.finished, e.2 ≤ cfg.maxCaptures ∧ (e.1 = true ∨ cfg.maxCaptures ≤ e.2)
  captured : s.captured ≤ s.capturedTotal
  room : s.waiting = false → s.captured < s.roundSize cfg
  firstRound : s.retrying = false → s.captured = s.capturedTotal
  laterRound : s.retrying = true → cfg.awaitVerdict = true ∧
    s.capturedTotal - s.captured < cfg.maxFrames
  total : s.capturedTotal ≤ cfg.maxCaptures
  waiting : s.waiting = true → cfg.awaitVerdict = true
  done : s.last.done = true → cfg.steps.length ≤ s.idx

theorem roundSize_pos : 0 < s.roundSize cfg := by
  rw [roundSize]
  split
  · exact Nat.one_pos.trans_le (le_max_left ..)
  · exact cfg.framesPerStep_pos

theorem FramesInv.new : FramesInv cfg (new cfg) where
  idx := Nat.zero_le _
  finishedLength := rfl
  finished _ he := absurd he not_mem_nil
  captured := le_rfl
  room _ := roundSize_pos
  firstRound _ := rfl
  laterRound h := absurd h Bool.false_ne_true
  total := Nat.zero_le _
  waiting h := absurd h Bool.false_ne_true
  done h := cfg.startProgress_done h

theorem FramesInv.of_kept (h : FramesInv cfg s) (hk : Kept s s')
    (hdone : s'.last.done = true → cfg.steps.length ≤ s.idx) : FramesInv cfg s' where
  idx := hk.idx ▸ h.idx
  finishedLength := by rw [hk.finished, hk.idx, h.finishedLength]
  finished := hk.finished ▸ h.finished
  captured := by rw [hk.captured, hk.capturedTotal]; exact h.captured
  room hw := by
    rw [roundSize, hk.captured, hk.capturedTotal, hk.retrying]
    exact h.room (hk.waiting ▸ hw)
  firstRound hr := by
    rw [hk.captured, hk.capturedTotal]
    exact h.firstRound (hk.retrying ▸ hr)
  laterRound hr := by
    rw [hk.captured, hk.capturedTotal]
    exact h.laterRound (hk.retrying ▸ hr)
  total := hk.capturedTotal ▸ h.total
  waiting hw := h.waiting (hk.waiting ▸ hw)
  done hd := by
    rw [hk.idx]
    exact hdone hd

variable {valid : Bool}

theorem Updated.kept (h : Updated cfg t valid s s') : Kept s s' := by
  cases h with
  | finished h | waiting | problem => constructor <;> rfl
  | tracked hstep h hvalid htracked =>
    have hseen : Kept s { s with seen := s.seen ++ [(t, true)] } :=
      by constructor <;> rfl
    exact hseen.trans htracked.kept

theorem FramesInv.update (h : FramesInv cfg s) (hu : Updated cfg t valid s s') :
    FramesInv cfg s' := by
  refine h.of_kept hu.kept fun hdone => ?_
  cases hu with
  | finished hnone => exact TrackerConfig.stepAt_eq_none.1 hnone
  | waiting p hw hp hready
  | problem p hw hp hready => exact absurd (hp.symm.trans hdone) Bool.false_ne_true
  | tracked hstep hw hvalid htracked => exact absurd (htracked.notDone.symm.trans hdone) Bool.false_ne_true

theorem FramesInv.advance {step : TrackerStep} {accepted : Bool} (h : FramesInv cfg s)
    (hlen : s'.finished = s.finished)
    (hidx : s'.idx = s.idx) (hstep : cfg.stepAt s.idx = some step)
    (htotal : s'.capturedTotal ≤ cfg.maxCaptures)
    (hend : accepted = true ∨ cfg.maxCaptures ≤ s'.capturedTotal) :
    FramesInv cfg (s'.advance cfg accepted) where
  idx := by
    have := TrackerConfig.lt_of_stepAt hstep
    change s'.idx + 1 ≤ _
    omega
  finishedLength := by
    change (s'.finished ++ [_]).length = s'.idx + 1
    rw [length_append, hlen, h.finishedLength, hidx]
    rfl
  finished e he := by
    rcases mem_append.1 he with he | he
    · exact h.finished e (hlen ▸ he)
    · rw [mem_singleton.1 he]
      exact ⟨htotal, hend⟩
  captured := le_rfl
  room _ := roundSize_pos
  firstRound _ := rfl
  laterRound hr := absurd hr Bool.false_ne_true
  total := Nat.zero_le _
  waiting hw := absurd hw Bool.false_ne_true
  done hd := cfg.startProgress_done hd

theorem FramesInv.round_le (h : FramesInv cfg s) :
    s.capturedTotal - s.captured + s.roundSize cfg ≤ cfg.maxCaptures := by
  have hle := cfg.framesPerStep_le_maxCaptures
  cases hr : s.retrying with
  | false =>
    have hfirst := h.firstRound hr
    simp only [roundSize, hr, Bool.false_eq_true, ↓reduceIte]
    omega
  | true =>
    obtain ⟨hawait, hlater⟩ := h.laterRound hr
    simp only [roundSize, hr, TrackerConfig.maxCaptures, hawait, ↓reduceIte]
    omega

theorem FramesInv.counted (h : FramesInv cfg s) (hwait : s.waiting = false) (hidx : s'.idx = s.idx)
    (hfinished : s'.finished = s.finished) (hcap : s'.captured = s.captured + 1)
    (htotal : s'.capturedTotal = s.capturedTotal + 1) (hretry : s'.retrying = s.retrying)
    (hroom : s'.waiting = false → s.captured + 1 < s.roundSize cfg)
    (hawait : s'.waiting = true → cfg.awaitVerdict = true) (hdone : s'.last.done = s.last.done) :
    FramesInv cfg s' where
  idx := hidx ▸ h.idx
  finishedLength := by rw [hfinished, hidx, h.finishedLength]
  finished := hfinished ▸ h.finished
  captured := by
    rw [hcap, htotal]
    exact Nat.succ_le_succ h.captured
  room hw := by
    rw [roundSize, hretry, hcap, htotal, Nat.add_sub_add_right]
    exact hroom hw
  firstRound hr := by rw [hcap, htotal, h.firstRound (hretry ▸ hr)]
  laterRound hr := by
    rw [hcap, htotal, Nat.add_sub_add_right]
    exact h.laterRound (hretry ▸ hr)
  total := by
    have hround := h.round_le
    have hroom := h.room hwait
    have hcap := h.captured
    omega
  waiting := hawait
  done hd := hidx ▸ h.done (hdone ▸ hd)

theorem FramesInv.call (h : FramesInv cfg s) {c : TrackerCall} (hc : Called cfg s c s') :
    FramesInv cfg s' := by
  cases hc with
  | update t hu => exact h.update hu
  | uncounted | unanswered => exact h
  | counted hstep hwait hroom samples p hp =>
    exact h.counted hwait rfl rfl rfl rfl rfl (fun _ => hroom) h.waiting hp
  | sent hstep hwait hfull hawait centre p hp =>
    exact h.counted hwait rfl rfl rfl rfl rfl (fun hw =>
      absurd hw.symm Bool.false_ne_true) (fun _ => hawait) hp
  | ended hstep hwait hfull hawait centre =>
    have hr : s.retrying = false := by
      by_contra hr
      have := (h.laterRound (by simpa using hr)).1
      exact absurd (hawait.symm.trans this) Bool.false_ne_true
    have hfirst := h.firstRound hr
    simp only [roundSize, hr, Bool.false_eq_true, ↓reduceIte] at hfull
    have hroom := h.room hwait
    simp only [roundSize, hr, Bool.false_eq_true, ↓reduceIte] at hroom
    have hmax : cfg.maxCaptures = cfg.framesPerStep := by
      simp only [TrackerConfig.maxCaptures, hawait, Bool.false_eq_true, ↓reduceIte]
    refine h.advance rfl rfl hstep ?_ (.inr ?_)
    · change s.capturedTotal + 1 ≤ _
      omega
    · change _ ≤ s.capturedTotal + 1
      omega
  | moved hstep hwait hend =>
    refine h.advance rfl rfl hstep h.total (hend.imp_right fun hend => ?_)
    rw [TrackerConfig.maxCaptures, h.waiting hwait]
    exact hend
  | asked hstep hwait hroom =>
    exact {
      idx := h.idx, finishedLength := h.finishedLength, finished := h.finished
      captured := Nat.zero_le _
      room := fun _ => roundSize_pos
      firstRound := fun hr => absurd hr.symm Bool.false_ne_true
      laterRound := fun _ => ⟨h.waiting hwait, hroom⟩
      total := h.total
      waiting := fun hw => absurd hw Bool.false_ne_true
      done := fun hd => absurd hd Bool.false_ne_true }
  | setCentre => exact h.of_kept (by constructor <;> rfl) h.done
  | reset => exact FramesInv.new.of_kept (by constructor <;> rfl) FramesInv.new.done

theorem run_induction {P : Tracker → Prop} (hnew : P (new cfg))
    (hcall : ∀ s c, P s → P (s.call cfg c)) (cs : List TrackerCall) : P (run cfg cs) := by
  induction cs using reverseRecOn with
  | nil => exact hnew
  | append_singleton cs c ih =>
    rw [run, foldl_append]
    exact hcall _ c ih

theorem FramesInv.run (cs : List TrackerCall) : FramesInv cfg (run cfg cs) :=
  run_induction FramesInv.new (fun s c h => h.call (called s c)) cs

/-! ## The faces seen since the hold began -/

/-- Every time a hold can count from is one since which one valid face was seen. -/
structure HoldInv (cfg : TrackerConfig) (s : Tracker) : Prop where
  hold : ∀ h, s.holdStart = some h → ValidSince s.seen h
  offs : s.waiting = false → ∀ o ∈ s.offs, ValidSince s.seen o.1
  idle : s.waiting = true ∨ cfg.stepAt s.idx = none → s.holdStart = none
  finished : cfg.stepAt s.idx = none → s.offs = []

theorem HoldInv.clear (hhold : s.holdStart = none) (hoffs : s.offs = []) : HoldInv cfg s where
  hold h hh := absurd (hhold.symm.trans hh) (some_ne_none h).symm
  offs _ _ ho := absurd (hoffs ▸ ho) not_mem_nil
  idle _ := hhold
  finished _ := hoffs

theorem HoldInv.update (h : HoldInv cfg s) (hu : Updated cfg t valid s s') : HoldInv cfg s' := by
  cases hu with
  | finished hnone => exact .clear (h.idle (.inr hnone)) (h.finished hnone)
  | waiting p hw =>
    have hhold := h.idle (.inl hw)
    exact ⟨fun start hs => absurd (hhold.symm.trans hs) (some_ne_none start).symm,
      fun hw' => absurd (hw.symm.trans hw') Bool.false_ne_true.symm, fun _ => hhold, h.finished⟩
  | problem => exact .clear rfl rfl
  | @tracked step s' hstep hw hvalid htracked =>
    have hseen : s'.seen = s.seen ++ [(t, true)] := htracked.seen
    have hoffs : ∀ o ∈ s'.offs, ValidSince s'.seen o.1 := by
      intro o ho
      rw [hseen]
      rcases htracked.offs o ho with ho | ho
      · exact (h.offs hw o ho).later t
      · rw [ho]
        exact .now _ t
    have hidx : s'.idx = s.idx := htracked.kept.idx
    have hnot : cfg.stepAt s'.idx ≠ none := by
      rw [hidx, hstep]
      exact some_ne_none step
    refine ⟨fun start hs => ?_, fun _ => hoffs, fun hidle => ?_, fun hnone => absurd hnone hnot⟩
    · rcases htracked.since start hs with hs | rfl | ⟨o, ho, rfl⟩
      · rw [hseen]
        exact (h.hold start hs).later t
      · rw [hseen]
        exact .now _ _
      · exact hoffs o ho
    · have hw' : s'.waiting = false := htracked.kept.waiting.trans hw
      exact hidle.elim (fun hw'' => absurd (hw'.symm.trans hw'') Bool.false_ne_true) fun hnone => absurd hnone hnot

theorem HoldInv.call (h : HoldInv cfg s) {c : TrackerCall} (hc : Called cfg s c s') :
    HoldInv cfg s' := by
  cases hc with
  | update t hu => exact h.update hu
  | uncounted | unanswered => exact h
  | counted => exact { h with }
  | sent hstep =>
    refine ⟨fun start hs => absurd hs.symm (some_ne_none start), fun hw => absurd hw.symm Bool.false_ne_true,
      fun _ => rfl, fun hnone => absurd (hnone.symm.trans hstep) (some_ne_none _).symm⟩
  | setCentre => exact { h with }
  | _ => exact .clear rfl rfl

theorem HoldInv.run (cs : List TrackerCall) : HoldInv cfg (run cfg cs) :=
  run_induction (.clear rfl rfl) (fun s c h => h.call (called s c)) cs

/-! ## The targets of the re-prompts -/

/-- The target of a re-prompt after the largest offset `off` captured. -/
def retryFrom (cfg : TrackerConfig) (a : LivenessAction) (off : Option ℚ) : ℚ :=
  min MAX_CLIENT_TARGET_DEG (max (cfg.captureTarget a)
    (off.getD (cfg.captureTarget a) + RETRY_EXTRA_DEG))

theorem maxOff_none {a b : Option ℚ} (h : maxOff a b = none) : a = none ∧ b = none := by
  cases a with
  | none => exact ⟨rfl, h⟩
  | some x => cases b <;> exact absurd h (some_ne_none _)

theorem le_retryFrom_maxOff {off cand : Option ℚ} {T : ℚ} (hmax : T ≤ MAX_CLIENT_TARGET_DEG)
    (hoff : T ≤ retryFrom cfg a off) (hcand : off = none → ∀ c, cand = some c → T ≤ c) :
    T ≤ retryFrom cfg a (maxOff off cand) := by
  cases off with
  | none =>
    cases cand with
    | none => exact hoff
    | some c =>
      have hc := hcand rfl c rfl
      refine le_min hmax (le_max_of_le_right ?_)
      change T ≤ c + RETRY_EXTRA_DEG
      have : (0 : ℚ) ≤ RETRY_EXTRA_DEG := by decide +kernel
      linarith
  | some x =>
    cases cand with
    | none => exact hoff
    | some c =>
      refine hoff.trans (min_le_min_left _ (max_le_max_left _ ?_))
      exact add_le_add_left (le_max_left x c) _

/-- What holds of the targets between two calls. -/
structure TargetInv (cfg : TrackerConfig) (s : Tracker) : Prop where
  bound : ∀ T, s.stepTarget = some T → T ≤ MAX_CLIENT_TARGET_DEG
  sent : s.waiting = true → s.capturedOff = none → s.capturedCandidateOff = none
  next : ∀ step a T, cfg.stepAt s.idx = some step → step.action = .move a → s.stepTarget = some T →
    T ≤ retryFrom cfg a s.capturedOff ∧ (s.capturedOff = none → ∀ c, s.capturedCandidateOff = some c → T ≤ c)

theorem TargetInv.start (hwait : s.waiting = false) (htarget : s.stepTarget = none) :
    TargetInv cfg s where
  bound T h := absurd (htarget.symm.trans h) (some_ne_none T).symm
  sent h := absurd (hwait.symm.trans h) Bool.false_ne_true
  next _ _ T _ _ h := absurd (htarget.symm.trans h) (some_ne_none T).symm

theorem TargetInv.update (h : TargetInv cfg s) (hu : Updated cfg t valid s s') : TargetInv cfg s' := by
  cases hu with
  | finished hnone | waiting | problem => exact ⟨h.bound, h.sent, h.next⟩
  | @tracked step s' hstep hw hvalid htracked =>
    have hk := htracked.kept
    have hidx : s'.idx = s.idx := hk.idx
    have hoff : s'.capturedOff = s.capturedOff := hk.capturedOff
    have htarget : s'.stepTarget = s.stepTarget := hk.stepTarget
    refine ⟨fun T hT => h.bound T (htarget ▸ hT),
      fun hw' => absurd ((hk.waiting.trans hw).symm.trans hw') Bool.false_ne_true, fun step' a T hs ha hT => ?_⟩
    rw [hidx] at hs
    rw [htarget] at hT
    obtain ⟨hle, hcand⟩ := h.next step' a T hs ha hT
    refine ⟨hoff ▸ hle, fun hnone c hc => ?_⟩
    rcases htracked.candidate with ⟨hsame, -⟩ | ⟨a', x, ha', hx, hnew, -⟩
    · exact hcand (hoff ▸ hnone) c (hsame ▸ hc)
    · cases hstep.symm.trans hs
      cases ha'.symm.trans ha
      cases hnew.symm.trans hc
      change s.stepTarget.getD (cfg.captureTarget a) ≤ c at hx
      rw [hT] at hx
      exact hx

theorem TargetInv.counted (h : TargetInv cfg s) (hidx : s'.idx = s.idx)
    (htarget : s'.stepTarget = s.stepTarget)
    (hoff : s'.capturedOff = maxOff s.capturedOff s.capturedCandidateOff)
    (hcand : s'.capturedCandidateOff = s.capturedCandidateOff) : TargetInv cfg s' where
  bound T hT := h.bound T (htarget ▸ hT)
  sent _ hnone := by
    rw [hcand]
    exact (maxOff_none (hoff ▸ hnone)).2
  next step a T hs ha hT := by
    rw [hidx] at hs
    rw [htarget] at hT
    obtain ⟨hle, hnext⟩ := h.next step a T hs ha hT
    rw [hoff, hcand]
    refine ⟨le_retryFrom_maxOff (h.bound T hT) hle hnext, fun hnone c hc => ?_⟩
    exact absurd (hc.symm.trans (maxOff_none hnone).2) (some_ne_none c)

theorem TargetInv.asked (h : TargetInv cfg s) (hstep : cfg.stepAt s.idx = some step)
    (hwait : s.waiting = true) : TargetInv cfg (s.reprompt cfg step) := by
  cases hact : step.action with
  | center =>
    have htarget : (s.reprompt cfg step).stepTarget = s.stepTarget := by simp only [reprompt, hact]
    refine ⟨fun T hT => h.bound T (htarget ▸ hT), fun hw => absurd hw Bool.false_ne_true,
      fun step' a T hs ha hT => ?_⟩
    cases hstep.symm.trans hs
    exact StepAction.noConfusion (hact.symm.trans ha)
  | move a =>
    have htarget : (s.reprompt cfg step).stepTarget = some (retryFrom cfg a s.capturedOff) := by
      simp only [reprompt, hact]
      rfl
    refine ⟨fun T hT => ?_, fun hw => absurd hw Bool.false_ne_true, fun step' a' T hs ha hT => ?_⟩
    · cases htarget.symm.trans hT
      exact min_le_left ..
    · cases hstep.symm.trans hs
      cases hact.symm.trans ha
      cases htarget.symm.trans hT
      refine ⟨le_rfl, fun hnone c hc => ?_⟩
      exact absurd (hc.symm.trans (h.sent hwait hnone)) (some_ne_none c)

theorem TargetInv.call (h : TargetInv cfg s) {c : TrackerCall} (hc : Called cfg s c s') :
    TargetInv cfg s' := by
  cases hc with
  | update t hu => exact h.update hu
  | uncounted | unanswered => exact h
  | counted | sent => exact h.counted rfl rfl rfl rfl
  | asked hstep hwait => exact h.asked hstep hwait
  | setCentre => exact ⟨h.bound, h.sent, h.next⟩
  | _ => exact .start rfl rfl

theorem TargetInv.run (cs : List TrackerCall) : TargetInv cfg (run cfg cs) :=
  run_induction (.start rfl rfl) (fun s c h => h.call (called s c)) cs

theorem verdict_target {stepIndex : ℚ} {satisfied : Bool}
    (hstep : cfg.stepAt s.idx = some step) (hact : step.action = .move a)
    (hindex : cfg.stepNo s.idx = stepIndex)
    (hwait : s.waiting = true) (hsame : (s.verdict cfg stepIndex satisfied).idx = s.idx) :
    (s.verdict cfg stepIndex satisfied).stepTarget = some (retryFrom cfg a s.capturedOff) := by
  have ha : Called cfg s _ _ := verdict_cases stepIndex satisfied
  generalize s.verdict cfg stepIndex satisfied = s' at ha hsame
  cases ha with
  | unanswered h =>
    rcases h with h | h | h
    · exact absurd (h.symm.trans hstep) (some_ne_none step).symm
    · exact absurd hindex h
    · exact absurd (h.symm.trans hwait) Bool.false_ne_true
  | moved => exact absurd hsame (Nat.succ_ne_self s.idx)
  | asked hstep' =>
    cases hstep.symm.trans hstep'
    simp only [reprompt, hact]
    rfl

theorem TargetInv.call_le (h : TargetInv cfg s) {c : TrackerCall} (hc : Called cfg s c s')
    (hreset : c ≠ .reset) {T : ℚ} (hT : s.stepTarget = some T) (hsame : s'.idx = s.idx) :
    ∃ T', s'.stepTarget = some T' ∧ T ≤ T' := by
  cases hc with
  | update t hu => exact ⟨T, hu.kept.stepTarget.trans hT, le_rfl⟩
  | ended | moved => exact absurd hsame (Nat.succ_ne_self s.idx)
  | @asked step _ _ hstep =>
    cases hact : step.action with
    | center => exact ⟨T, by simp only [reprompt, hact, hT], le_rfl⟩
    | move a =>
      refine ⟨retryFrom cfg a s.capturedOff, ?_, (h.next step a T hstep hact hT).1⟩
      simp only [reprompt, hact]
      rfl
  | reset => exact absurd rfl hreset
  | _ => exact ⟨T, hT, le_rfl⟩

/-! ## What the targets depend on -/

/-- The largest offset captured. -/
def largest (offsets : List (Option ℚ)) : Option ℚ := offsets.foldl maxOff none

/-- A capture of a movement now would follow an update of the step that was ready to capture. -/
def CaptureReady (cfg : TrackerConfig) (s : Tracker) : Prop :=
  ∀ step a, cfg.stepAt s.idx = some step → step.action = .move a → s.waiting = false →
  s.ready ≠ none

/-- Every capture of a movement follows an update of its step that was ready to capture. -/
def ReadyCaptures (cfg : TrackerConfig) (cs : List TrackerCall) : Prop :=
  ∀ pre t, pre ++ [.markCaptured t] <+: cs → (run cfg pre).CaptureReady cfg

/-- What holds of the offset of a movement between two calls. -/
structure OffsetInv (cfg : TrackerConfig) (s : Tracker) : Prop where
  ready : ∀ x, s.ready = some x → s.capturedCandidateOff = some x
  captured : ∀ step a, cfg.stepAt s.idx = some step → step.action = .move a →
    s.capturedOff = largest s.offsets

theorem OffsetInv.start (hready : s.ready = none) (hoff : s.capturedOff = none)
    (hoffs : s.offsets = []) : OffsetInv cfg s where
  ready x h := absurd (hready.symm.trans h) (some_ne_none x).symm
  captured _ _ _ _ := by
    rw [hoff, hoffs]
    rfl

theorem OffsetInv.update (h : OffsetInv cfg s) (hu : Updated cfg t valid s s') : OffsetInv cfg s' := by
  have hk := hu.kept
  refine ⟨fun x hx => ?_, fun step a hs ha => ?_⟩
  · cases hu with
    | finished hnone | waiting | problem => exact h.ready x hx
    | tracked hstep hw hvalid htracked =>
      rcases htracked.candidate with ⟨hcand, hready⟩ | ⟨a, y, -, -, hcand, hready⟩
      · exact hcand.trans (h.ready x (hready ▸ hx))
      · exact hcand.trans (hready.symm.trans hx)
  · rw [hk.capturedOff, hk.offsets]
    exact h.captured step a (hk.idx ▸ hs) ha

theorem OffsetInv.counted (h : OffsetInv cfg s) (hready : s.CaptureReady cfg)
    (hwait : s.waiting = false)
    (hidx : s'.idx = s.idx) (hcand : s'.capturedCandidateOff = s.capturedCandidateOff)
    (hr : s'.ready = s.ready) (hoff : s'.capturedOff = maxOff s.capturedOff s.capturedCandidateOff)
    (hoffs : s'.offsets = s.offsets ++ [s.ready]) : OffsetInv cfg s' where
  ready x hx := hcand.trans (h.ready x (hr ▸ hx))
  captured step a hs ha := by
    rw [hidx] at hs
    obtain ⟨x, hx⟩ := ne_none_iff_exists'.1 (hready step a hs ha hwait)
    rw [hoff, hoffs, largest, foldl_append, h.ready x hx, hx, h.captured step a hs ha]
    rfl

theorem OffsetInv.call (h : OffsetInv cfg s) {c : TrackerCall} (hc : Called cfg s c s')
    (hready : ∀ t, c = .markCaptured t → s.CaptureReady cfg) : OffsetInv cfg s' := by
  cases hc with
  | update t hu => exact h.update hu
  | uncounted | unanswered => exact h
  | counted hstep hwait
  | sent hstep hwait => exact h.counted (hready _ rfl) hwait rfl rfl rfl rfl rfl
  | asked | setCentre => exact ⟨h.ready, h.captured⟩
  | _ => exact .start rfl rfl rfl

theorem run_append (cs : List TrackerCall) (c : TrackerCall) :
    run cfg (cs ++ [c]) = (run cfg cs).call cfg c := by
  rw [run, foldl_append]
  rfl

theorem ReadyCaptures.nil : ReadyCaptures cfg [] :=
  fun _ _ h => absurd (prefix_nil.1 h) (append_ne_nil_of_right_ne_nil _ (cons_ne_nil _ _))

theorem ReadyCaptures.append (cs : List TrackerCall) (c : TrackerCall) :
    ReadyCaptures cfg (cs ++ [c]) ↔
      ReadyCaptures cfg cs ∧ ∀ t, c = .markCaptured t → (Tracker.run cfg cs).CaptureReady cfg := by
  constructor
  · intro h
    exact ⟨fun pre t hpre => h pre t (hpre.trans (prefix_append cs [c])),
      fun t hc => h cs t (hc ▸ prefix_rfl)⟩
  · rintro ⟨h, hc⟩ pre t hpre
    rcases prefix_concat_iff.1 hpre with heq | hpre
    · obtain ⟨rfl, hlast⟩ := append_inj' heq rfl
      exact hc t (singleton_inj.1 hlast).symm
    · exact h pre t hpre

theorem OffsetInv.run (cs : List TrackerCall) (hcs : ReadyCaptures cfg cs) :
    OffsetInv cfg (run cfg cs) := by
  induction cs using reverseRecOn with
  | nil => exact .start rfl rfl rfl
  | append_singleton cs c ih =>
    obtain ⟨hcs, hc⟩ := (ReadyCaptures.append cs c).1 hcs
    rw [run_append]
    exact (ih hcs).call (called _ c) hc

/-! ## The tracker stays in step -/

/-- What a call does after a run: the step moves by one, within its frames; a capture follows a hold
of one valid face; an answer that is not awaited is ignored; targets grow; the end is reached after
every step. -/
structure InStep (cfg : TrackerConfig) (s : Tracker) (c : TrackerCall) : Prop where
  index : c ≠ .reset → s.idx ≤ (s.call cfg c).idx ∧ (s.call cfg c).idx ≤ s.idx + 1
  captures : (s.call cfg c).capturedTotal ≤ cfg.maxCaptures ∧
    ∀ e ∈ (s.call cfg c).finished, e.2 ≤ cfg.maxCaptures
  ready : ∀ face faceCount t, c = .update face faceCount t → (s.call cfg c).last.readyToCapture =
    true → ∃ since, ValidSince (s.call cfg c).seen since ∧ cfg.holdMs ≤ t - since ∧
      ∀ l, s.lastCaptureAt = some l → cfg.minCaptureGap ≤ t - l
  verdict : ∀ i satisfied, c = .verdict i satisfied → cfg.stepNo s.idx ≠ i ∨ s.waiting = false →
    s.call cfg c = s
  bound : ∀ T, (s.call cfg c).stepTarget = some T → T ≤ MAX_CLIENT_TARGET_DEG
  targets : ∀ T, s.stepTarget = some T → c ≠ .reset → (s.call cfg c).idx = s.idx →
    ∃ T', (s.call cfg c).stepTarget = some T' ∧ T ≤ T'
  done : (s.call cfg c).last.done = true → (s.call cfg c).finished.length = cfg.steps.length ∧
    ∀ e ∈ (s.call cfg c).finished, e.1 = true ∨ cfg.maxCaptures ≤ e.2

theorem Called.idx {c : TrackerCall} (hc : Called cfg s c s') (hreset : c ≠ .reset) :
    s.idx ≤ s'.idx ∧ s'.idx ≤ s.idx + 1 := by
  cases hc with
  | update t hu =>
    have hidx := hu.kept.idx
    omega
  | ended | moved => exact ⟨Nat.le_succ _, le_rfl⟩
  | reset => exact absurd rfl hreset
  | _ => exact ⟨le_rfl, Nat.le_succ _⟩

theorem HoldInv.ready (h : HoldInv cfg s) (hu : Updated cfg t valid s s')
    (hr : s'.last.readyToCapture = true) :
    ∃ since, ValidSince s'.seen since ∧ cfg.holdMs ≤ t - since ∧
      ∀ l, s.lastCaptureAt = some l → cfg.minCaptureGap ≤ t - l := by
  have hinv := h.update hu
  cases hu with
  | finished hnone => exact absurd hr.symm Bool.false_ne_true.symm
  | waiting p hw hp hready
  | problem p hw hp hready => exact absurd (hready.symm.trans hr) Bool.false_ne_true
  | tracked hstep hw hvalid htracked =>
    obtain ⟨since, hsince, hheld, hgap⟩ := htracked.ready hr
    exact ⟨since, hinv.hold since hsince, hheld, hgap⟩

theorem verdict_ignored {i : ℚ} {satisfied : Bool} (h : cfg.stepNo s.idx ≠ i ∨ s.waiting = false) :
    s.verdict cfg i satisfied = s := by
  unfold verdict
  split
  · rfl
  · rw [if_pos h]

theorem inStep (cs : List TrackerCall) (c : TrackerCall) : InStep cfg (run cfg cs) c := by
  have hc : Called cfg _ c _ := called (run cfg cs) c
  have hframes := (FramesInv.run cs : FramesInv cfg (run cfg cs)).call hc
  exact {
    index := hc.idx
    captures := ⟨hframes.total, fun e he => (hframes.finished e he).1⟩
    ready := fun face faceCount t hc hr => by
      subst hc
      exact (HoldInv.run cs).ready (update_cases face faceCount) hr
    verdict := fun i satisfied hc h => by
      subst hc
      exact verdict_ignored h
    bound := ((TargetInv.run cs).call hc).bound
    targets := fun T hT hreset hsame => (TargetInv.run cs).call_le hc hreset hT hsame
    done := fun hdone => by
      have hend := hframes.done hdone
      refine ⟨?_, fun e he => (hframes.finished e he).2⟩
      rw [hframes.finishedLength]
      exact le_antisymm hframes.idx hend }

/-- The tracker stays in step with every run of calls; where each capture of a movement follows an
update of its step that was ready to capture, a re-prompt asks for the largest offset captured in
this step and a little more. -/
theorem liveness_in_step (o : TrackerOptions) (cs : List TrackerCall) (c : TrackerCall) :
    InStep o.config (run o.config cs) c ∧
      (ReadyCaptures o.config cs → ∀ i satisfied step a, c = .verdict i satisfied →
        o.config.stepAt (run o.config cs).idx = some step → step.action = .move a →
        o.config.stepNo (run o.config cs).idx = i → (run o.config cs).waiting = true →
        ((run o.config cs).call o.config c).idx = (run o.config cs).idx →
        ((run o.config cs).call o.config c).stepTarget =
          some (retryFrom o.config a (largest (run o.config cs).offsets))) := by
  refine ⟨inStep cs c, fun hready i satisfied step a hc hstep hact hindex hwait hsame => ?_⟩
  subst hc
  rw [← (OffsetInv.run cs hready).captured step a hstep hact]
  exact verdict_target hstep hact hindex hwait hsame

/-- A head turned by `yaw`. -/
def turned (yaw : ℚ) : Option TrackedFace := some ⟨some yaw, some 0, some 1, false⟩

/-- The centre is known, and the head is held turned by `yaw`. -/
def turnedCalls (yaw : ℚ) : List TrackerCall :=
  [.setCentre (some ⟨0, 0⟩), .update (turned yaw) 1 0, .update (turned yaw) 1 200]

/-- Two turns with one frame each, without a hold. -/
def twoTurns : TrackerOptions :=
  ⟨[⟨none, .move .turnLeft, ""⟩, ⟨none, .move .turnRight, ""⟩], 20, 12, some 0, some 1, true,
    some 3, none⟩

theorem liveness_in_step_turn :
    InStep twoTurns.config (run twoTurns.config (turnedCalls 25 ++ [.markCaptured 200]))
      (.verdict 0 false) ∧
      ((run twoTurns.config (turnedCalls 25 ++ [.markCaptured 200])).call twoTurns.config
        (.verdict 0 false)).stepTarget =
        some 31 := by
  have h := liveness_in_step twoTurns (turnedCalls 25 ++ [.markCaptured 200]) (.verdict 0 false)
  have hready : ReadyCaptures twoTurns.config (turnedCalls 25 ++ [.markCaptured 200]) := by
    refine (ReadyCaptures.append _ _).2 ⟨?_, fun _ _ _ _ _ _ _ => by decide +kernel⟩
    refine (ReadyCaptures.append [_, _] _).2 ⟨?_, fun _ hc => TrackerCall.noConfusion hc⟩
    refine (ReadyCaptures.append [_] _).2 ⟨?_, fun _ hc => TrackerCall.noConfusion hc⟩
    exact (ReadyCaptures.append [] _).2 ⟨ReadyCaptures.nil, fun _ hc => TrackerCall.noConfusion hc⟩
  refine ⟨h.1, (h.2 hready 0 false ⟨none, .move .turnLeft,
    ""⟩ .turnLeft rfl ?_ rfl ?_ ?_ ?_).trans ?_⟩
  · exact congrArg (fun i => twoTurns.config.stepAt i) (show _ = 0 by decide +kernel)
  all_goals decide +kernel

/-- Five frames a step with room for two take five; and after a step that was captured at 25° or
21°, a capture of the next step that no update asked for is taken for one at that angle. -/
theorem five_frames_and_stale_offset :
    (run (TrackerOptions.config ⟨[⟨none, .center, ""⟩], 20, 12, none, some 5, true, some 2, none⟩)
        (List.replicate 5 (.markCaptured 0))).capturedTotal = 5 ∧
      ([25, 21].map fun yaw =>
          (run twoTurns.config (turnedCalls yaw ++
            [.markCaptured 200, .verdict 0 true, .markCaptured 400, .verdict 1 false])).stepTarget) =
        [some 31, some 27] := by
  decide +kernel

end Tracker

end LivenessTracker

end SmartProctoring
