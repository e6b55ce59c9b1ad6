import SmartProctoring.Shared.Policy

/-!
# Approved accommodations

`packages/shared/src/accommodations.ts`: what each kind of accommodation changes in the exam's
resolved policy (`applyAccommodations`), and the extra exam time a list of them adds
(`accommodationExtraTimeMs`).  Each one only relaxes rules; extra time is part of the session's
duration and not of the policy.
-/

set_option autoImplicit false

namespace SmartProctoring

/-- The behaviour detectors `detection_exemptions` can turn off. -/
structure DetectionExemptions where
  absence : Bool := false
  lookingAway : Bool := false
  movement : Bool := false
  obstruction : Bool := false
  objects : Bool := false
  multiplePeople : Bool := false
  deriving DecidableEq

/-- One accommodation with its parameters (`accommodationSpecSchema`). -/
inductive AccommodationSpec
  | extraTime (percent : Between 0 300) (minutes : Between 0 600)
  | restBreaks (maxPauses : Option (Between 1 50)) (maxPauseMinutes : Option (Between 1 240))
  | noLivenessChallenge
  | assistiveTechnology
  | detectionExemptions (d : DetectionExemptions)
  | supportPerson
  | staffIdentityVerification (reverifyOnContinue : Bool)
  | noCamera (reverifyOnContinue : Bool)
  deriving DecidableEq

/-- Never stricter than the exam: `none` is no limit. -/
def generous (exam granted : Option Nat) : Option Nat :=
  match exam, granted with
  | some e, some g => some (max e g)
  | _, _ => none

/-- The policy after one accommodation. -/
def applyAccommodation (p : ProctoringPolicy) : AccommodationSpec → ProctoringPolicy
  | .restBreaks maxPauses maxPauseMinutes =>
    let examMax := if p.pause.allowed then p.pause.maxPauses else some 0
    let examLen := if p.pause.allowed then p.pause.maxPauseDurationSec else some 0
    { p with
      pause :=
        { p.pause with
          allowed := true
          requireApproval := false
          requireReason := false
          timerBehavior := .stop
          maxPauses := generous examMax (maxPauses.map (·.val))
          maxPauseDurationSec := generous examLen (maxPauseMinutes.map (·.val * 60)) } }
  | .noLivenessChallenge => { p with identity := { p.identity with liveness := .off } }
  | .assistiveTechnology =>
    { p with
      browser :=
        { p.browser with
          requireFullscreen := false
          blockClipboard := false
          flagWindowBlur := false
          requireSingleDisplay := false } }
  | .detectionExemptions d =>
    { p with
      detection :=
        { p.detection with
          absence := p.detection.absence && !d.absence
          lookingAway := p.detection.lookingAway && !d.lookingAway
          movement := p.detection.movement && !d.movement
          obstruction := p.detection.obstruction && !d.obstruction
          objects := p.detection.objects && !d.objects
          multiplePeople := p.detection.multiplePeople && !d.multiplePeople } }
  | .supportPerson => { p with detection := { p.detection with multiplePeople := false } }
  | .staffIdentityVerification reverify =>
    { p with
      identity :=
        { p.identity with
          verification := .staff
          staffReverifyOnContinue := p.identity.staffReverifyOnContinue || reverify } }
  | .noCamera reverify =>
    { p with
      cameraEnabled := false
      identity :=
        { p.identity with
          verification := .staff
          staffReverifyOnContinue := p.identity.staffReverifyOnContinue || reverify } }
  -- the session's duration, not a policy setting (`accommodationExtraTimeMs`)
  | .extraTime _ _ => p

/-- The exam's resolved policy with accommodations applied. -/
def applyAccommodations (policy : ProctoringPolicy) (items : List AccommodationSpec) :
    ProctoringPolicy :=
  if items.isEmpty then policy else enforceModes (items.foldl applyAccommodation policy)

/-- `Math.round(a / 100)` for an integer `a`: the nearest integer, halves up. -/
def roundHundredth (a : Int) : Int := (a + 50) / 100

/-- The extra exam time of one accommodation, for an exam of `baseDurationMs`. -/
def AccommodationSpec.extraTimeMs (baseDurationMs : Int) : AccommodationSpec → Int
  | .extraTime percent minutes =>
    roundHundredth (baseDurationMs * (percent.val : Int)) + minutes.minMs
  | _ => 0

/-- Extra exam time from `extra_time` accommodations (several add up). -/
def accommodationExtraTimeMs (baseDurationMs : Int) (items : List AccommodationSpec) : Int :=
  items.foldl (fun extra a => extra + a.extraTimeMs baseDurationMs) 0

theorem AccommodationSpec.extraTimeMs_nonneg {baseDurationMs : Int} (h : 0 ≤ baseDurationMs)
    (a : AccommodationSpec) : 0 ≤ a.extraTimeMs baseDurationMs := by
  cases a with
  | extraTime percent minutes =>
    have hpercent : 0 ≤ baseDurationMs * (percent.val : Int) :=
      Int.mul_nonneg h (Int.natCast_nonneg percent.val)
    have hminutes := minutes.minMs_bounds
    rw [extraTimeMs, roundHundredth]
    omega
  | _ => exact le_rfl

/-- Extra time never shortens an exam. -/
theorem accommodationExtraTimeMs_nonneg {baseDurationMs : Int} (h : 0 ≤ baseDurationMs)
    (items : List AccommodationSpec) : 0 ≤ accommodationExtraTimeMs baseDurationMs items := by
  suffices hfold : ∀ extra : Int, 0 ≤ extra →
      0 ≤ items.foldl (fun extra a => extra + a.extraTimeMs baseDurationMs) extra from
    hfold 0 le_rfl
  induction items with
  | nil => exact fun extra he => he
  | cons a items ih => exact fun extra he => ih _ (Int.add_nonneg he (a.extraTimeMs_nonneg h))

end SmartProctoring
