import Mathlib.Algebra.Order.BigOperators.Group.List
import SmartProctoring.Server.Accumulator

/-!
# The identity assessment of a check

`assessCheck` of `services/identity-evidence.ts`: the frames of a resume, reconnect or
re-verification check against the protected reference.  A frame counts half its log-likelihood
ratio, positive evidence of poor frames is capped, and the sum is compared with two thresholds.

* Poor frames and one fair or good one never make a different person likely, whatever their number.
* Three clear frames of the candidate always decide.  Three clear frames of a different person decide only from the sum
  that the threshold asks for, which is more than three times the evidence of a clear frame: `ShortOfConfirm`.

Ratios are exact rationals, rounded to four decimals where the code rounds them.  The posterior
probability is a function of the sum and is left out.
-/

set_option autoImplicit false

namespace SmartProctoring

open List

namespace CALIBRATION

def minFramesForDecision : Nat := 3

end CALIBRATION

namespace CHECK_EVIDENCE

/-- The frames of one check are not independent. -/
def frameWeight : ℚ := 1 / 2

def matchLLR : ℚ := CALIBRATION.sprtClear

def mismatchLLR : ℚ := CALIBRATION.sprtConfirm

def minFrames : Nat := CALIBRATION.minFramesForDecision

def minFramesAtLimit : Nat := 2

/-- Clear evidence of one frame, either way. -/
def clearFrameLLR : ℚ := 4

end CHECK_EVIDENCE

/-! ## Evidence of a list of samples -/

structure WindowEntry where
  llr : ℚ
  bucket : Option QualityBucket

namespace WindowEntry

variable {w : List WindowEntry}

/-- Positive evidence from a poor frame. -/
def poorPositive (e : WindowEntry) : Bool := e.bucket = some .poor && decide (0 < e.llr)

theorem poorPositive_of_bucket {e : WindowEntry} (h : e.bucket ≠ some .poor) :
    e.poorPositive = false := by
  rw [poorPositive, decide_eq_false h, Bool.false_and]

/-- `windowEvidence` of samples that are not in a session's window. -/
def evidence (window : List WindowEntry) : ℚ :=
  let (sum, poor) := window.foldl
    (fun (sum, poor) e => if e.poorPositive then (sum, poor + e.llr) else (sum + e.llr, poor))
    (0, 0)
  sum + min CALIBRATION.sprtMaxPoorEvidence poor

/-- The evidence of the entries that satisfy `p`. -/
def total (p : WindowEntry → Bool) (window : List WindowEntry) : ℚ :=
  ((window.filter p).map WindowEntry.llr).sum

theorem total_cons (p : WindowEntry → Bool) (e : WindowEntry) (w : List WindowEntry) :
    total p (e :: w) = (if p e then e.llr else 0) + total p w := by
  by_cases he : p e = true
  · simp only [total, filter_cons_of_pos he, map_cons, sum_cons, he, ↓reduceIte]
  · simp only [total, filter_cons_of_neg he, he, Bool.false_eq_true, ↓reduceIte, zero_add]

theorem evidence_eq (w : List WindowEntry) :
    evidence w = total (fun e => !e.poorPositive) w +
    min CALIBRATION.sprtMaxPoorEvidence (total poorPositive w) := by
  -- the loop's two accumulators, from any values of them
  have hloop : ∀ (w : List WindowEntry) (sum poor : ℚ),
      w.foldl (fun (s : ℚ × ℚ) e => if e.poorPositive then (s.1, s.2 + e.llr)
        else (s.1 + e.llr, s.2)) (sum, poor) =
        (sum + total (fun e => !e.poorPositive) w, poor + total poorPositive w) := by
    intro w
    induction w with
    | nil => intro sum poor; simp only [foldl_nil, total, filter_nil, map_nil, sum_nil, add_zero]
    | cons e w ih =>
      intro sum poor
      rw [foldl_cons, total_cons, total_cons]
      cases he : e.poorPositive with
      | true => simp only [ih, ↓reduceIte, Bool.not_true, Bool.false_eq_true, zero_add, add_assoc]
      | false => simp only [ih, ↓reduceIte, Bool.not_false, Bool.false_eq_true, zero_add, add_assoc]
  rw [evidence]
  simp only [hloop w 0 0, zero_add]

theorem evidence_of_none_poor (h : ∀ e ∈ w, e.poorPositive = false) :
    evidence w = (w.map WindowEntry.llr).sum := by
  have hrest : w.filter (fun e => !e.poorPositive) = w :=
    filter_eq_self.2 fun e he => by rw [h e he]; rfl
  have hpoor : w.filter poorPositive = [] :=
    filter_eq_nil_iff.2 fun e he => by rw [h e he]; exact Bool.false_ne_true
  rw [evidence_eq, total, total, hrest, hpoor, map_nil, sum_nil,
    min_eq_right (show (0 : ℚ) ≤ CALIBRATION.sprtMaxPoorEvidence by decide +kernel), add_zero]

theorem total_le {b : ℚ} (h : ∀ e ∈ w, e.llr ≤ b) :
    total (fun e => !e.poorPositive) w ≤
      b * (w.filter fun e => !e.poorPositive && decide (0 < e.llr)).length := by
  induction w with
  | nil => simp only [total, filter_nil, map_nil, sum_nil, length_nil, Nat.cast_zero, mul_zero, le_refl]
  | cons e w ih =>
    have ih := ih fun e he => h e (mem_cons_of_mem _ he)
    have he := h e mem_cons_self
    rw [total_cons, filter_cons]
    cases hp : e.poorPositive with
    | true => simpa only [Bool.not_true, Bool.false_eq_true, ↓reduceIte, zero_add, Bool.false_and] using ih
    | false =>
      by_cases hpos : 0 < e.llr
      · simp only [Bool.not_false, ↓reduceIte, hpos, decide_true, Bool.and_self, length_cons]
        push_cast
        linarith
      · simp only [Bool.not_false, ↓reduceIte, hpos, decide_false, Bool.and_false, Bool.false_eq_true]
        linarith

end WindowEntry

/-! ## The assessment -/

inductive CheckIdentityStatus
  | pending | likelyMatch | likelyMismatch | uncertain
  deriving DecidableEq

structure CheckAssessment where
  status : CheckIdentityStatus
  /-- Weighted sum of the usable frames' ratios. -/
  llr : ℚ
  usable : Nat
  clearMatch : Nat
  clearMismatch : Nat
  /-- `uncertain` because the evidence of a different person came only from poor frames. -/
  poorLight : Bool

def FrameEvidence.weighted (f : FrameEvidence) : WindowEntry :=
  ⟨f.llr * CHECK_EVIDENCE.frameWeight, f.bucket⟩

def FrameEvidence.clearMatch (f : FrameEvidence) : Bool :=
  decide (f.llr ≤ -CHECK_EVIDENCE.clearFrameLLR)

def FrameEvidence.clearMismatch (f : FrameEvidence) : Bool :=
  decide (CHECK_EVIDENCE.clearFrameLLR ≤ f.llr)

/-- The frames of the check that count. -/
def usableCheckFrames (frames : List FrameEvidence) : List FrameEvidence := frames.filter (·.usable)

/-- Usable frames needed before the assessment decides. -/
def requiredFrames (atLimit : Bool) : Nat :=
  if atLimit then CHECK_EVIDENCE.minFramesAtLimit else CHECK_EVIDENCE.minFrames

/-- Running identity assessment of a check's frames against the protected reference. -/
def assessCheck (frames : List FrameEvidence) (atLimit : Bool) : CheckAssessment :=
  let usable := usableCheckFrames frames
  let weighted := usable.map FrameEvidence.weighted
  let llr := round4 (WindowEntry.evidence weighted)
  let poorLimited := weighted.any WindowEntry.poorPositive &&
    decide (WindowEntry.evidence (weighted.filter fun e => !e.poorPositive) < CHECK_EVIDENCE.mismatchLLR)
  let clearMatch := (usable.filter FrameEvidence.clearMatch).length
  let clearMismatch := (usable.filter FrameEvidence.clearMismatch).length
  let status :=
    if usable.length = 0 ∨ usable.length < requiredFrames atLimit then CheckIdentityStatus.pending
    else if 2 ≤ clearMatch ∧ 2 ≤ clearMismatch then .uncertain
    else if llr ≤ CHECK_EVIDENCE.matchLLR then .likelyMatch
    else if CHECK_EVIDENCE.mismatchLLR ≤ llr then .likelyMismatch
    else .uncertain
  { status := status
    llr := llr
    usable := usable.length
    clearMatch := clearMatch
    clearMismatch := clearMismatch
    poorLight := decide (status = .uncertain) && poorLimited }

/-! ## Neither reckless nor deaf -/

/-- What `frameEvidence` makes sure of: the ratio is clamped and a usable frame has a bucket. -/
structure FrameEvidence.Graded (f : FrameEvidence) : Prop where
  clamped : |f.llr| ≤ CALIBRATION.llrClamp
  bucket : f.usable = true → f.bucket.isSome = true

def FrameEvidence.fairOrGood (f : FrameEvidence) : Bool :=
  f.usable && (decide (f.bucket = some .fair) || decide (f.bucket = some .good))

/-- A usable fair or good frame with positive evidence. -/
def FrameEvidence.pointsAway (f : FrameEvidence) : Bool := f.fairOrGood && decide (0 < f.llr)

/-- A different person is likely only with two fair or good frames that say so, nothing is decided
on too few frames, and three clear fair or good frames of one kind, with no other usable ones,
decide. -/
structure AssessedSoundly (frames : List FrameEvidence) (atLimit : Bool) : Prop where
  mismatch : (assessCheck frames atLimit).status = .likelyMismatch →
    2 ≤ (frames.filter FrameEvidence.pointsAway).length
  few : (usableCheckFrames frames).length < requiredFrames atLimit →
    (assessCheck frames atLimit).status = .pending
  clearMatch : 3 ≤ (usableCheckFrames frames).length →
    (∀ f ∈ usableCheckFrames frames, f.fairOrGood = true ∧ f.clearMatch = true) →
    (assessCheck frames atLimit).status = .likelyMatch
  clearMismatch : 3 ≤ (usableCheckFrames frames).length →
    (∀ f ∈ usableCheckFrames frames, f.fairOrGood = true ∧ f.clearMismatch = true) →
    (assessCheck frames atLimit).status = .likelyMismatch

/-- Three fair or good frames of a different person, all clear, whose evidence is below the
threshold together. -/
def ShortOfConfirm (frames : List FrameEvidence) : Prop :=
  (usableCheckFrames frames).length = 3 ∧
    (∀ f ∈ usableCheckFrames frames, f.fairOrGood = true ∧ f.clearMismatch = true) ∧
    ((usableCheckFrames frames).map FrameEvidence.llr).sum < 139999 / 10000
  deriving Decidable

theorem requiredFrames_le (atLimit : Bool) : requiredFrames atLimit ≤ 3 := by
  cases atLimit <;> decide

variable {frames : List FrameEvidence}

theorem mem_usableCheckFrames {f : FrameEvidence} :
    f ∈ usableCheckFrames frames ↔ f ∈ frames ∧ f.usable = true := mem_filter

theorem confirm_le_round4 {x : ℚ} : CHECK_EVIDENCE.mismatchLLR ≤ round4 x ↔ 139999 / 20000 ≤ x := by
  rw [round4, CHECK_EVIDENCE.mismatchLLR, CALIBRATION.sprtConfirm, le_div_iff₀ (by norm_num)]
  have hfloor : (7 * 10000 : ℚ) ≤ ⌊x * 10000 + 1 / 2⌋ ↔ (70000 : ℤ) ≤ ⌊x * 10000 + 1 / 2⌋ := by
    rw [show (7 * 10000 : ℚ) = ((70000 : ℤ) : ℚ) by norm_num, Int.cast_le]
  rw [hfloor, Int.le_floor]
  constructor <;> intro h <;> linarith

theorem round4_le_clear {x : ℚ} (h : x ≤ CHECK_EVIDENCE.matchLLR) :
    round4 x ≤ CHECK_EVIDENCE.matchLLR := by
  rw [CHECK_EVIDENCE.matchLLR, CALIBRATION.sprtClear] at h
  rw [round4, div_le_iff₀ (by norm_num)]
  have hfloor : ⌊x * 10000 + 1 / 2⌋ < -59999 := by
    rw [Int.floor_lt]
    linarith
  have hle : ⌊x * 10000 + 1 / 2⌋ ≤ -60000 := by omega
  calc ((⌊x * 10000 + 1 / 2⌋ : ℤ) : ℚ) ≤ ((-60000 : ℤ) : ℚ) := Int.cast_le.2 hle
    _ = -6 * 10000 := by norm_num

variable {atLimit : Bool}

theorem assessCheck_status (henough : 3 ≤ (usableCheckFrames frames).length)
    (hclear : ((usableCheckFrames frames).filter FrameEvidence.clearMatch).length < 2 ∨
      ((usableCheckFrames frames).filter FrameEvidence.clearMismatch).length < 2) :
    (assessCheck frames atLimit).status =
      let llr := round4 (WindowEntry.evidence ((usableCheckFrames frames).map FrameEvidence.weighted))
      if llr ≤ CHECK_EVIDENCE.matchLLR then .likelyMatch
      else if CHECK_EVIDENCE.mismatchLLR ≤ llr then .likelyMismatch
      else .uncertain := by
  have hrequired := requiredFrames_le atLimit
  simp only [assessCheck]
  rw [if_neg (by omega), if_neg (by omega)]

theorem evidence_fairOrGood (h : ∀ f ∈ usableCheckFrames frames, f.fairOrGood = true) :
    WindowEntry.evidence ((usableCheckFrames frames).map FrameEvidence.weighted) =
      ((usableCheckFrames frames).map FrameEvidence.llr).sum / 2 := by
  have hpoor : ∀ e ∈ (usableCheckFrames frames).map FrameEvidence.weighted, e.poorPositive = false := by
    intro e he
    obtain ⟨f, hf, rfl⟩ := mem_map.1 he
    have hf := h f hf
    simp only [FrameEvidence.fairOrGood, Bool.and_eq_true, Bool.or_eq_true, decide_eq_true_eq] at hf
    refine WindowEntry.poorPositive_of_bucket fun hpoor => ?_
    rcases hf.2 with hb | hb <;> exact absurd (hb.symm.trans hpoor) (by decide)
  rw [WindowEntry.evidence_of_none_poor hpoor, map_map]
  generalize usableCheckFrames frames = usable
  induction usable with
  | nil => simp only [map_nil, sum_nil, zero_div]
  | cons f usable ih =>
    rw [map_cons, map_cons, sum_cons, sum_cons, ih]
    simp only [Function.comp_apply, FrameEvidence.weighted, CHECK_EVIDENCE.frameWeight]
    ring

theorem no_clearMismatch {l : List FrameEvidence} (h : ∀ f ∈ l, f.clearMatch = true) :
    (l.filter FrameEvidence.clearMismatch).length = 0 := by
  rw [length_eq_zero_iff, filter_eq_nil_iff]
  intro f hf hmismatch
  have hmatch : f.llr ≤ -CHECK_EVIDENCE.clearFrameLLR := of_decide_eq_true (h f hf)
  have hmismatch : CHECK_EVIDENCE.clearFrameLLR ≤ f.llr := of_decide_eq_true hmismatch
  rw [CHECK_EVIDENCE.clearFrameLLR] at hmatch hmismatch
  linarith

theorem no_clearMatch {l : List FrameEvidence} (h : ∀ f ∈ l, f.clearMismatch = true) :
    (l.filter FrameEvidence.clearMatch).length = 0 := by
  rw [length_eq_zero_iff, filter_eq_nil_iff]
  intro f hf hmatch
  have hmatch : f.llr ≤ -CHECK_EVIDENCE.clearFrameLLR := of_decide_eq_true hmatch
  have hmismatch : CHECK_EVIDENCE.clearFrameLLR ≤ f.llr := of_decide_eq_true (h f hf)
  rw [CHECK_EVIDENCE.clearFrameLLR] at hmatch hmismatch
  linarith

theorem weighted_pointsAway {f : FrameEvidence}
    (hbucket : f.usable = true → f.bucket.isSome = true) :
    ((!f.weighted.poorPositive && decide (0 < f.weighted.llr)) && f.usable) = f.pointsAway := by
  obtain ⟨usable, bucket, llr⟩ := f
  have hhalf : (0 < llr * CHECK_EVIDENCE.frameWeight) ↔ 0 < llr := by
    rw [CHECK_EVIDENCE.frameWeight]
    constructor <;> intro h <;> linarith
  simp only [FrameEvidence.pointsAway, FrameEvidence.fairOrGood, FrameEvidence.weighted,
    WindowEntry.poorPositive, hhalf]
  cases usable with
  | false => rw [Bool.and_false, Bool.false_and, Bool.false_and]
  | true =>
    cases bucket with
    | none => exact absurd (hbucket rfl) Bool.false_ne_true
    | some b => cases b <;> simp

theorem two_pointAway (hframes : ∀ f ∈ frames, f.Graded)
    (h : (assessCheck frames atLimit).status = .likelyMismatch) :
    2 ≤ (frames.filter FrameEvidence.pointsAway).length := by
  have hsum : CHECK_EVIDENCE.mismatchLLR ≤
      round4 (WindowEntry.evidence ((usableCheckFrames frames).map FrameEvidence.weighted)) := by
    simp only [assessCheck] at h
    split_ifs at h
    assumption
  rw [confirm_le_round4, WindowEntry.evidence_eq] at hsum
  have hcount : (((usableCheckFrames frames).map FrameEvidence.weighted).filter
      fun e => !e.poorPositive && decide (0 < e.llr)).length =
        (frames.filter FrameEvidence.pointsAway).length := by
    rw [filter_map, length_map, usableCheckFrames, filter_filter]
    refine congrArg length (filter_congr fun f hf => ?_)
    exact weighted_pointsAway (hframes f hf).bucket
  have hbound : ∀ e ∈ (usableCheckFrames frames).map FrameEvidence.weighted, e.llr ≤ 5 / 2 := by
    intro e he
    obtain ⟨f, hf, rfl⟩ := mem_map.1 he
    have hclamp := (le_abs_self f.llr).trans (hframes f (mem_usableCheckFrames.1 hf).1).clamped
    simp only [FrameEvidence.weighted, CHECK_EVIDENCE.frameWeight, CALIBRATION.llrClamp] at hclamp ⊢
    linarith
  have htotal := WindowEntry.total_le hbound
  have hcap := min_le_left CALIBRATION.sprtMaxPoorEvidence
    (WindowEntry.total WindowEntry.poorPositive ((usableCheckFrames frames).map FrameEvidence.weighted))
  rw [hcount] at htotal
  by_contra hfew
  have hone : ((frames.filter FrameEvidence.pointsAway).length : ℚ) ≤ 1 := by
    have : (frames.filter FrameEvidence.pointsAway).length ≤ 1 := by omega
    exact_mod_cast this
  rw [CALIBRATION.sprtMaxPoorEvidence] at hcap hsum
  linarith

theorem few_pending
    (h : (usableCheckFrames frames).length < requiredFrames atLimit) :
    (assessCheck frames atLimit).status = .pending := by
  simp only [assessCheck]
  rw [if_pos (.inr h)]

theorem clearMatch_decides (henough : 3 ≤ (usableCheckFrames frames).length)
    (hclear : ∀ f ∈ usableCheckFrames frames, f.fairOrGood = true ∧ f.clearMatch = true) :
    (assessCheck frames atLimit).status = .likelyMatch := by
  have hnone := no_clearMismatch fun f hf => (hclear f hf).2
  have hsum : ((usableCheckFrames frames).map FrameEvidence.llr).sum ≤
      (usableCheckFrames frames).length * (-4 : ℚ) := by
    have h := sum_le_card_nsmul ((usableCheckFrames frames).map FrameEvidence.llr) (-4)
        fun x hx => by
      obtain ⟨f, hf, rfl⟩ := mem_map.1 hx
      exact of_decide_eq_true (hclear f hf).2
    rwa [length_map] at h
  have hlen : (3 : ℚ) ≤ (usableCheckFrames frames).length := by exact_mod_cast henough
  rw [assessCheck_status henough (.inr (by omega)), evidence_fairOrGood fun f hf => (hclear f hf).1]
  exact if_pos (round4_le_clear (by rw [CHECK_EVIDENCE.matchLLR, CALIBRATION.sprtClear]; linarith))

theorem sum_clearMismatch (hclear : ∀ f ∈ usableCheckFrames frames, f.clearMismatch = true) :
    (usableCheckFrames frames).length * (4 : ℚ) ≤
    ((usableCheckFrames frames).map FrameEvidence.llr).sum := by
  have h := card_nsmul_le_sum ((usableCheckFrames frames).map FrameEvidence.llr) 4 fun x hx => by
    obtain ⟨f, hf, rfl⟩ := mem_map.1 hx
    exact of_decide_eq_true (hclear f hf)
  rwa [length_map] at h

theorem clearMismatch_status (henough : 3 ≤ (usableCheckFrames frames).length)
    (hclear : ∀ f ∈ usableCheckFrames frames, f.fairOrGood = true ∧ f.clearMismatch = true) :
    (assessCheck frames atLimit).status =
      if 139999 / 10000 ≤ ((usableCheckFrames frames).map FrameEvidence.llr).sum
        then .likelyMismatch else .uncertain := by
  have hnone := no_clearMatch fun f hf => (hclear f hf).2
  have hsum := sum_clearMismatch fun f hf => (hclear f hf).2
  have hpos : ¬ round4 (((usableCheckFrames frames).map FrameEvidence.llr).sum / 2) ≤ CHECK_EVIDENCE.matchLLR := by
    have hround : (0 : ℚ) ≤ round4 (((usableCheckFrames frames).map FrameEvidence.llr).sum / 2) := by
      refine div_nonneg (Int.cast_nonneg (Int.floor_nonneg.2 ?_)) (by norm_num)
      linarith
    rw [CHECK_EVIDENCE.matchLLR, CALIBRATION.sprtClear]
    linarith
  rw [assessCheck_status henough (.inl (by omega)), evidence_fairOrGood fun f hf => (hclear f hf).1]
  rw [if_neg hpos]
  refine if_congr (confirm_le_round4.trans ?_) rfl rfl
  constructor <;> intro h <;> linarith

/-- The assessment is sound for every check but one of three clear frames of a different person that
are together below the threshold. -/
theorem assessed_soundly_iff (frames : List FrameEvidence) (atLimit : Bool)
    (hframes : ∀ f ∈ frames, f.Graded) :
    AssessedSoundly frames atLimit ↔ ¬ ShortOfConfirm frames := by
  constructor
  · rintro h ⟨hlen, hclear, hsum⟩
    have hstatus := h.clearMismatch hlen.ge hclear
    rw [clearMismatch_status hlen.ge hclear, if_neg (not_le.2 hsum)] at hstatus
    exact absurd hstatus (by decide)
  · intro hshort
    refine ⟨two_pointAway hframes, few_pending, clearMatch_decides, fun henough hclear => ?_⟩
    rw [clearMismatch_status henough hclear]
    refine if_pos ?_
    rcases Nat.eq_or_lt_of_le henough with hthree | hfour
    · by_contra hlow
      exact hshort ⟨hthree.symm, hclear, not_le.1 hlow⟩
    · have hsum := sum_clearMismatch fun f hf => (hclear f hf).2
      have hlen : (4 : ℚ) ≤ (usableCheckFrames frames).length := by exact_mod_cast hfour
      linarith

/-- A good frame with the evidence `llr`. -/
def goodFrame (llr : ℚ) : FrameEvidence := ⟨true, some .good, llr⟩

theorem assessed_soundly_two_good :
    AssessedSoundly [goodFrame 5, goodFrame 5, ⟨true, some .poor, 5⟩, ⟨true, some .poor, 5⟩] true :=
  (assessed_soundly_iff _ true fun f hf => by
    simp only [mem_cons, not_mem_nil, or_false] at hf
    rcases hf with rfl | rfl | rfl | rfl <;> exact ⟨by decide +kernel, fun _ => rfl⟩).2 (by decide +kernel)

/-- Three clear frames of a different person leave the check undecided. -/
theorem three_clear_frames_undecided :
    ¬ AssessedSoundly [goodFrame (21 / 5), goodFrame (21 / 5), goodFrame (21 / 5)] true ∧
      (assessCheck [goodFrame (21 / 5), goodFrame (21 / 5), goodFrame (21 / 5)] true).status =
      .uncertain := by
  have hstatus :
      (assessCheck [goodFrame (21 / 5), goodFrame (21 / 5), goodFrame (21 / 5)] true).status =
      .uncertain := by
    decide +kernel
  refine ⟨fun h => ?_, hstatus⟩
  exact absurd (hstatus.symm.trans (h.clearMismatch (by decide +kernel) (by decide +kernel)))
    (by decide)

end SmartProctoring
