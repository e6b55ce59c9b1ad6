import SmartProctoring.Lib.Absorb
import SmartProctoring.Lib.Tree
import SmartProctoring.Shared.Accommodations

/-!
# Accommodations as exceptions to the exam's rules

`packages/shared/src/accommodations.ts`: the settings that differ from the exam's own rules because
of accommodations (`policyExceptions`), each with the kinds that changed it, and the way back to the
exam's rules (`revertExceptions`).  Both work on the policy as the JSON object it is stored as.
-/

set_option autoImplicit false

namespace SmartProctoring

open List

/-! ## A policy as a JSON object -/

/-- A JSON value without fields (`undefined`: a field that is not there). -/
inductive Setting
  | undefined | null
  | bool (b : Bool)
  | num (n : Rat)
  | text (s : String)
  deriving DecidableEq

inductive SamplingProfile
  | maximum | balanced | custom
  deriving DecidableEq

/-- The numbers and enumerations of `detectionPolicySchema` beside `enabled`. -/
def DETECTION_SETTINGS : List String :=
  ["absenceSec", "multiplePeopleSec", "lookAwaySec", "lookAwayYawDeg", "lookDownPitchDeg",
    "lookUpPitchDeg", "lookUpSec", "attentionReference", "typingExcuseSec", "glanceMinSec",
    "repeatedLookAwayCount", "repeatedLookAwayWindowSec", "sameDirectionCount", "obstructionSec",
    "phoneMinConfidence", "objectMinConfidence", "objectPersistSec", "frozenSec", "coveredSec",
    "lightingSec", "movementExitCount", "movementWindowSec", "farFromBaselineSec", "mergeGapSec",
    "clearSec"]

/-- The settings of a policy that only the candidate's browser or the retention job read. -/
structure RemainingSettings where
  livenessSteps : Between 2 4
  samplingProfile : SamplingProfile
  windowBlurMinSec : Rat
  detection : String → Setting
  maxScreenshotsPerEvent : Between 1 20
  periodicScreenshotSec : Rat
  /-- `policy.retention.evidenceDays`; `none` = the organisation's default. -/
  evidenceDays : Option (Between 1 3650)

namespace Setting

def nat (n : Nat) : Setting := .num n

def limit (n : Option Nat) : Setting := n.elim .null nat

def verification : IdentityVerification → Setting
  | .automatic => .text "automatic"
  | .staff => .text "staff"

def liveness : LivenessMode → Setting
  | .active => .text "active"
  | .off => .text "off"

def idPhotoComparison : IdPhotoComparison → Setting
  | .off => .text "off"
  | .advisory => .text "advisory"
  | .required => .text "required"

def samplingProfile : SamplingProfile → Setting
  | .maximum => .text "maximum"
  | .balanced => .text "balanced"
  | .custom => .text "custom"

def onMismatch : OnMismatch → Setting
  | .holdForReview => .text "hold_for_review"
  | .flagOnly => .text "flag_only"

def onLimit : OnLimit → Setting
  | .hold => .text "hold"
  | .end => .text "end"

def timerBehavior : TimerBehavior → Setting
  | .stop => .text "stop"
  | .continue => .text "continue"

end Setting

def IdentityPolicy.json (p : IdentityPolicy) (o : RemainingSettings) : PathTree Setting :=
  .object
    [("verification", .leaf (.verification p.verification)),
      ("staffReverifyOnContinue", .leaf (.bool p.staffReverifyOnContinue)),
      ("liveness", .leaf (.liveness p.liveness)),
      ("livenessSteps", .leaf (.nat o.livenessSteps.val)),
      ("idPhotoComparison", .leaf (.idPhotoComparison p.idPhotoComparison)),
      ("periodicCheckIntervalSec", .leaf (.nat p.periodicCheckIntervalSec.val)),
      ("startupIntervalSec", .leaf (.nat p.startupIntervalSec.val)),
      ("startupWindowSec", .leaf (.nat p.startupWindowSec.val)),
      ("burstSize", .leaf (.nat p.burstSize.val)),
      ("routineBurstSize", .leaf (.nat p.routineBurstSize.val)),
      ("samplingProfile", .leaf (.samplingProfile o.samplingProfile)),
      ("onMismatch", .leaf (.onMismatch p.onMismatch)),
      ("maxVerificationAttempts", .leaf (.nat p.maxVerificationAttempts.val))]

def PausePolicy.json (p : PausePolicy) : PathTree Setting :=
  .object
    [("allowed", .leaf (.bool p.allowed)),
      ("requireReason", .leaf (.bool p.requireReason)),
      ("requireApproval", .leaf (.bool p.requireApproval)),
      ("timerBehavior", .leaf (.timerBehavior p.timerBehavior)),
      ("maxPauses", .leaf (.limit p.maxPauses)),
      ("maxPauseDurationSec", .leaf (.limit p.maxPauseDurationSec))]

def ConnectionPolicy.json (p : ConnectionPolicy) : PathTree Setting :=
  .object
    [("disconnectTimerBehavior", .leaf (.timerBehavior p.disconnectTimerBehavior)),
      ("heartbeatTimeoutSec", .leaf (.nat p.heartbeatTimeoutSec.val))]

def ResumePolicy.json (p : ResumePolicy) : PathTree Setting :=
  .object
    [("maxReconnects", .leaf (.limit (p.maxReconnects.map (·.val)))),
      ("maxOfflineMinutes", .leaf (.limit (p.maxOfflineMinutes.map (·.val)))),
      ("onLimit", .leaf (.onLimit p.onLimit))]

def BrowserPolicy.json (p : BrowserPolicy) (o : RemainingSettings) : PathTree Setting :=
  .object
    [("requireFullscreen", .leaf (.bool p.requireFullscreen)),
      ("requireSingleDisplay", .leaf (.bool p.requireSingleDisplay)),
      ("blockClipboard", .leaf (.bool p.blockClipboard)),
      ("flagTabHidden", .leaf (.bool p.flagTabHidden)),
      ("flagWindowBlur", .leaf (.bool p.flagWindowBlur)),
      ("windowBlurMinSec", .leaf (.num o.windowBlurMinSec))]

def DetectorToggles.json (p : DetectorToggles) : PathTree Setting :=
  .object
    [("absence", .leaf (.bool p.absence)),
      ("multiplePeople", .leaf (.bool p.multiplePeople)),
      ("lookingAway", .leaf (.bool p.lookingAway)),
      ("movement", .leaf (.bool p.movement)),
      ("obstruction", .leaf (.bool p.obstruction)),
      ("objects", .leaf (.bool p.objects)),
      ("cameraIntegrity", .leaf (.bool p.cameraIntegrity))]

def EvidencePolicy.json (p : EvidencePolicy) (o : RemainingSettings) : PathTree Setting :=
  .object
    [("screenshots", .leaf (.bool p.screenshots)),
      ("maxScreenshotsPerEvent", .leaf (.nat o.maxScreenshotsPerEvent.val)),
      ("periodicScreenshotSec", .leaf (.num o.periodicScreenshotSec)),
      ("keepMatchingIdentitySamples", .leaf (.bool p.keepMatchingIdentitySamples))]

def RecordingPolicy.json (p : RecordingPolicy) : PathTree Setting :=
  .object
    [("enabled", .leaf (.bool p.enabled)),
      ("audio", .leaf (.bool p.audio)),
      ("screen", .leaf (.bool p.screen))]

/-- The stored object, section by section. -/
def ProctoringPolicy.json (p : ProctoringPolicy) (o : RemainingSettings) : PathTree Setting :=
  .object
    [("identity", p.identity.json o),
      ("camera", .object [("enabled", .leaf (.bool p.cameraEnabled))]),
      ("pause", p.pause.json),
      ("connection", p.connection.json),
      ("resume", p.resume.json),
      ("browser", p.browser.json o),
      ("detection", .object
        (("enabled", p.detection.json) ::
          DETECTION_SETTINGS.map fun k => (k, .leaf (o.detection k)))),
      ("evidence", p.evidence.json o),
      ("retention", .object [("evidenceDays", .leaf (.limit (o.evidenceDays.map (·.val))))]),
      ("recording", p.recording.json)]

theorem ProctoringPolicy.json_sameShape (p q : ProctoringPolicy) (o : RemainingSettings) :
    (p.json o).SameShape (q.json o) := by
  refine PathTree.sameShape_object ?_
  simp [IdentityPolicy.json, PausePolicy.json, ConnectionPolicy.json, ResumePolicy.json,
    BrowserPolicy.json, DetectorToggles.json, EvidencePolicy.json, RecordingPolicy.json,
    PathTree.object,
    PathFields.ofList, PathTree.SameShape, PathFields.SameShape, PathFields.SameShape.refl]

theorem ProctoringPolicy.json_distinct (p : ProctoringPolicy) (o : RemainingSettings) :
    (p.json o).Distinct := by
  refine PathTree.distinct_object (by simp) fun f hf => ?_
  simp only [mem_cons, not_mem_nil, or_false] at hf
  rcases hf with rfl | rfl | rfl | rfl | rfl | rfl | rfl | rfl | rfl | rfl
  case inr.inr.inr.inr.inr.inr.inl =>
    refine PathTree.distinct_object (by simp [DETECTION_SETTINGS]) fun f hf => ?_
    rw [mem_cons, mem_map] at hf
    rcases hf with rfl | ⟨k, -, rfl⟩
    · exact PathTree.distinct_object (by simp) (by simp [PathTree.Distinct])
    · trivial
  all_goals exact PathTree.distinct_object (by simp) (by simp [PathTree.Distinct])

/-! ## Exceptions and the way back -/

/-- `ACCOMMODATION_KINDS`. -/
inductive AccommodationKind
  | extraTime | restBreaks | noLivenessChallenge | assistiveTechnology | detectionExemptions
  | supportPerson | staffIdentityVerification | noCamera
  deriving DecidableEq

def AccommodationSpec.kind : AccommodationSpec → AccommodationKind
  | .extraTime _ _ => .extraTime
  | .restBreaks _ _ => .restBreaks
  | .noLivenessChallenge => .noLivenessChallenge
  | .assistiveTechnology => .assistiveTechnology
  | .detectionExemptions _ => .detectionExemptions
  | .supportPerson => .supportPerson
  | .staffIdentityVerification _ => .staffIdentityVerification
  | .noCamera _ => .noCamera

/-- Human labels for the policy settings accommodations change. -/
def EXCEPTION_PATH_LABEL : List (String × String) :=
  [("durationMs", "Exam duration"),
    ("pause.allowed", "Pausing allowed"),
    ("pause.requireApproval", "Pauses need approval"),
    ("pause.requireReason", "Pauses need a reason"),
    ("pause.timerBehavior", "Clock during pauses"),
    ("pause.maxPauses", "Maximum number of pauses"),
    ("pause.maxPauseDurationSec", "Maximum pause length (s)"),
    ("identity.verification", "Identity verification"),
    ("identity.staffReverifyOnContinue", "Staff re-verify after pauses / reconnections"),
    ("identity.liveness", "Live-person check"),
    ("identity.idPhotoComparison", "ID photo comparison"),
    ("camera.enabled", "Camera used"),
    ("browser.requireFullscreen", "Fullscreen required"),
    ("browser.requireSingleDisplay", "Single display required"),
    ("browser.blockClipboard", "Copy and paste blocked"),
    ("browser.flagWindowBlur", "Switching windows recorded"),
    ("detection.enabled.absence", "Absence observed"),
    ("detection.enabled.multiplePeople", "Other people in view observed"),
    ("detection.enabled.lookingAway", "Looking away observed"),
    ("detection.enabled.movement", "Unusual movement observed"),
    ("detection.enabled.obstruction", "Face covered / out of view observed"),
    ("detection.enabled.objects", "Objects observed"),
    ("detection.enabled.cameraIntegrity", "Camera problems observed"),
    ("evidence.screenshots", "Camera screenshots"),
    ("evidence.keepMatchingIdentitySamples", "Keep matching identity images")]

/-- Which accommodation kinds can change a policy path: the first entry whose prefix fits. -/
def KINDS_FOR_PATH : List (String × List AccommodationKind) :=
  [("pause.", [.restBreaks]),
    ("identity.liveness", [.noLivenessChallenge, .staffIdentityVerification, .noCamera]),
    ("identity.idPhotoComparison", [.staffIdentityVerification, .noCamera]),
    ("identity.", [.staffIdentityVerification, .noCamera]),
    ("camera.", [.noCamera]),
    ("browser.", [.assistiveTechnology]),
    ("detection.enabled.multiplePeople", [.supportPerson, .detectionExemptions, .noCamera]),
    ("detection.enabled.", [.detectionExemptions, .noCamera]),
    ("evidence.", [.noCamera])]

/-- The dotted form of a path of field names. -/
def dotted (path : List String) : String := ".".intercalate path

def kindsForPath (path : String) : List AccommodationKind :=
  ((KINDS_FOR_PATH.find? fun e => e.1.toList.isPrefixOf path.toList).map (·.2)).getD []

/-- One policy setting that differs from the exam's own rules because of accommodations. -/
structure PolicyException where
  /-- The keys of the dotted path. -/
  path : List String
  label : String
  /-- `from`. -/
  examValue : Setting
  /-- `to`. -/
  appliedValue : Setting
  kinds : List AccommodationKind

structure Durations where
  baseMs : Int
  extraMs : Int

/-- `EXCEPTION_PATH_LABEL[path] ?? path`. -/
def exceptionLabel (path : List String) : String :=
  (EXCEPTION_PATH_LABEL.lookup (dotted path)).getD (dotted path)

/-- The exception of extra time (with the durations, where there is any). -/
def durationException : Option Durations → List PolicyException
  | none => []
  | some d =>
    if 0 < d.extraMs then
      [{ path := ["durationMs"]
         label := exceptionLabel ["durationMs"]
         examValue := .num d.baseMs
         appliedValue := .num (d.baseMs + d.extraMs)
         kinds := [.extraTime] }]
    else []

/-- Every setting accommodations changed: the exam's value and the applied one, attributed to the
kinds present. -/
def policyExceptions (examPolicy applied : PathTree Setting) (items : List AccommodationSpec)
    (durations : Option Durations) : List PolicyException :=
  durationException durations ++ applied.leaves.filterMap fun l =>
    -- `before.get(path)`
    if (examPolicy.leaves.lookup l.1).getD .undefined = l.2 then none
    else
      some
        { path := l.1
          label := exceptionLabel l.1
          examValue := (examPolicy.leaves.lookup l.1).getD .undefined
          appliedValue := l.2
          kinds := (kindsForPath (dotted l.1)).filter ((items.map (·.kind)).contains ·) }

/-- The exam's own rules from an applied policy and its exceptions (each changed setting set back to
its exam value). -/
def revertExceptions (policy : PathTree Setting) (exceptions : List PolicyException) :
    PathTree Setting :=
  exceptions.foldl
    (fun p e => if e.path = ["durationMs"] then p else PathTree.set e.examValue e.path p) policy

/-- The exception of one changed setting. -/
def exceptionOf (items : List AccommodationSpec) (d : List String × Setting × Setting) :
    PolicyException where
  path := d.1
  label := exceptionLabel d.1
  examValue := d.2.2
  appliedValue := d.2.1
  kinds := (kindsForPath (dotted d.1)).filter ((items.map (·.kind)).contains ·)

theorem policyExceptions_eq {exam applied : PathTree Setting} (hshape : applied.SameShape exam)
    (hexam : exam.Distinct) (items : List AccommodationSpec) (durations : Option Durations) :
    policyExceptions exam applied items durations =
      durationException durations ++ (applied.diff exam).map (exceptionOf items) := by
  rw [policyExceptions, ← PathTree.filterMap_leaves .undefined hshape hexam, map_filterMap]
  congr 1
  refine filterMap_congr fun l _ => ?_
  by_cases h : (exam.leaves.lookup l.1).getD .undefined = l.2
  · simp [PathTree.differing, h]
  · simp [PathTree.differing, h, Ne.symm h, exceptionOf]

theorem revertExceptions_append (policy : PathTree Setting) (es fs : List PolicyException) :
    revertExceptions policy (es ++ fs) = revertExceptions (revertExceptions policy es) fs :=
  foldl_append

theorem revertExceptions_policyExceptions {exam applied : PathTree Setting}
    (hshape : applied.SameShape exam) (hexam : exam.Distinct)
    (hduration : ∀ d ∈ applied.diff exam, d.1 ≠ ["durationMs"]) (items : List AccommodationSpec)
    (durations : Option Durations) :
    revertExceptions applied (policyExceptions exam applied items durations) = exam := by
  have hextra : revertExceptions applied (durationException durations) = applied := by
    rcases durations with _ | d
    · rfl
    · rw [durationException]
      split <;> simp [revertExceptions]
  rw [policyExceptions_eq hshape hexam, revertExceptions_append, hextra, revertExceptions,
    foldl_map]
  refine Eq.trans ?_ (PathTree.patch_diff hshape hexam)
  refine foldl_ext _ _ _ fun t d hd => ?_
  exact if_neg (hduration d hd)

/-! ## One accommodation after another -/

theorem generous_comm (exam a b : Option Nat) :
    generous (generous exam a) b = generous (generous exam b) a := by
  rcases exam with _ | e <;> rcases a with _ | a <;> rcases b with _ | b <;>
    simp only [generous, Option.some.injEq]
  omega

theorem generous_self (exam a : Option Nat) : generous (generous exam a) a = generous exam a := by
  rcases exam with _ | e <;> rcases a with _ | a <;> simp [generous]

theorem applyAccommodation_comm (p : ProctoringPolicy) (a b : AccommodationSpec) :
    applyAccommodation (applyAccommodation p a) b =
    applyAccommodation (applyAccommodation p b) a := by
  cases a <;> cases b <;>
    first
    | rfl
    | simp [applyAccommodation, generous_comm, Bool.or_right_comm, Bool.and_right_comm]

theorem applyAccommodation_self (p : ProctoringPolicy) (a : AccommodationSpec) :
    applyAccommodation (applyAccommodation p a) a = applyAccommodation p a := by
  cases a <;> simp [applyAccommodation, generous_self]

theorem enforceModes_self (p : ProctoringPolicy) :
    enforceModes (enforceModes p) = enforceModes p := by
  by_cases h : p.cameraEnabled <;> by_cases hv : p.identity.verification = .automatic <;>
    simp [enforceModes, h, hv]

theorem enforceModes_kept (q : ProctoringPolicy) :
    (enforceModes q).cameraEnabled = q.cameraEnabled ∧ (enforceModes q).pause = q.pause ∧
      (enforceModes q).browser = q.browser ∧
      (enforceModes q).identity.staffReverifyOnContinue = q.identity.staffReverifyOnContinue := by
  rw [enforceModes]
  split
  · exact ⟨rfl, rfl, rfl, rfl⟩
  · split <;> exact ⟨rfl, rfl, rfl, rfl⟩

theorem enforceModes_applyAccommodation (p : ProctoringPolicy) (a : AccommodationSpec) :
    enforceModes (applyAccommodation (enforceModes p) a) =
    enforceModes (applyAccommodation p a) := by
  cases a <;> by_cases h : p.cameraEnabled <;> by_cases hv :
    p.identity.verification = .automatic <;>
    simp [enforceModes, applyAccommodation, h, hv, DetectorToggles.allOff]

/-! ## Relaxation -/

/-- A limit at least as generous (`none` is no limit). -/
def noTighter : Option Nat → Option Nat → Prop
  | _, none => True
  | none, some _ => False
  | some e, some g => e ≤ g

/-- The pauses an exam allows: none where it does not allow pausing. -/
def PausePolicy.pausesAllowed (p : PausePolicy) : Option Nat :=
  if p.allowed then p.maxPauses else some 0

/-- The length of a pause an exam allows. -/
def PausePolicy.secondsAllowed (p : PausePolicy) : Option Nat :=
  if p.allowed then p.maxPauseDurationSec else some 0

/-- The other settings of an identity policy, with the verification of `j`. -/
def IdentityPolicy.withModesOf (i j : IdentityPolicy) : IdentityPolicy :=
  { i with
    verification := j.verification
    staffReverifyOnContinue := j.staffReverifyOnContinue
    liveness := j.liveness
    idPhotoComparison := j.idPhotoComparison }

/-- `q` has no rule that is stricter than in `p`, apart from staff verifying again after
interruptions: a setting is the one of `p` or the lenient one. -/
structure Relaxes (p q : ProctoringPolicy) : Prop where
  verification : p.identity.verification = q.identity.verification ∨
    q.identity.verification = .staff
  liveness : p.identity.liveness = q.identity.liveness ∨ q.identity.liveness = .off
  idPhotoComparison : p.identity.idPhotoComparison = q.identity.idPhotoComparison ∨
    q.identity.idPhotoComparison = .off
  /-- How often and how hard identity is sampled is the exam's. -/
  sampling : q.identity.withModesOf p.identity = p.identity
  camera : q.cameraEnabled ≤ p.cameraEnabled
  allowed : p.pause.allowed ≤ q.pause.allowed
  requireReason : q.pause.requireReason ≤ p.pause.requireReason
  requireApproval : q.pause.requireApproval ≤ p.pause.requireApproval
  timerBehavior : p.pause.timerBehavior = q.pause.timerBehavior ∨ q.pause.timerBehavior = .stop
  pauses : noTighter p.pause.pausesAllowed q.pause.pausesAllowed
  pauseSeconds : noTighter p.pause.secondsAllowed q.pause.secondsAllowed
  connection : q.connection = p.connection
  resume : q.resume = p.resume
  fullscreen : q.browser.requireFullscreen ≤ p.browser.requireFullscreen
  singleDisplay : q.browser.requireSingleDisplay ≤ p.browser.requireSingleDisplay
  clipboard : q.browser.blockClipboard ≤ p.browser.blockClipboard
  tabHidden : q.browser.flagTabHidden = p.browser.flagTabHidden
  windowBlur : q.browser.flagWindowBlur ≤ p.browser.flagWindowBlur
  absence : q.detection.absence ≤ p.detection.absence
  multiplePeople : q.detection.multiplePeople ≤ p.detection.multiplePeople
  lookingAway : q.detection.lookingAway ≤ p.detection.lookingAway
  movement : q.detection.movement ≤ p.detection.movement
  obstruction : q.detection.obstruction ≤ p.detection.obstruction
  objects : q.detection.objects ≤ p.detection.objects
  cameraIntegrity : q.detection.cameraIntegrity ≤ p.detection.cameraIntegrity
  screenshots : q.evidence.screenshots ≤ p.evidence.screenshots
  keepMatching : q.evidence.keepMatchingIdentitySamples ≤ p.evidence.keepMatchingIdentitySamples
  recording : q.recording = p.recording

theorem noTighter_refl (e : Option Nat) : noTighter e e := by
  rcases e with _ | e <;> simp [noTighter]

theorem noTighter_trans {d e f : Option Nat} (h : noTighter d e) (h' : noTighter e f) :
    noTighter d f := by
  rcases d with _ | d <;> rcases e with _ | e <;> rcases f with _ | f <;> simp_all [noTighter]
  omega

theorem noTighter_generous (e g : Option Nat) : noTighter e (generous e g) := by
  rcases e with _ | e <;> rcases g with _ | g <;> simp [generous, noTighter]

theorem lenient_trans {α : Type} {a b c l : α} (h : a = b ∨ b = l) (h' : b = c ∨ c = l) :
    a = c ∨ c = l := by
  rcases h' with rfl | h'
  · exact h
  · exact .inr h'

theorem Relaxes.refl (p : ProctoringPolicy) : Relaxes p p := by
  constructor <;> simp [noTighter_refl, IdentityPolicy.withModesOf]

theorem Relaxes.trans (p q r : ProctoringPolicy) (h : Relaxes p q) (h' : Relaxes q r) :
    Relaxes p r where
  verification := lenient_trans h.verification h'.verification
  liveness := lenient_trans h.liveness h'.liveness
  idPhotoComparison := lenient_trans h.idPhotoComparison h'.idPhotoComparison
  sampling := by
    have hpq := h.sampling
    have hqr := h'.sampling
    rw [← hqr] at hpq
    exact hpq
  camera := h'.camera.trans h.camera
  allowed := h.allowed.trans h'.allowed
  requireReason := h'.requireReason.trans h.requireReason
  requireApproval := h'.requireApproval.trans h.requireApproval
  timerBehavior := lenient_trans h.timerBehavior h'.timerBehavior
  pauses := noTighter_trans h.pauses h'.pauses
  pauseSeconds := noTighter_trans h.pauseSeconds h'.pauseSeconds
  connection := h'.connection.trans h.connection
  resume := h'.resume.trans h.resume
  fullscreen := h'.fullscreen.trans h.fullscreen
  singleDisplay := h'.singleDisplay.trans h.singleDisplay
  clipboard := h'.clipboard.trans h.clipboard
  tabHidden := h'.tabHidden.trans h.tabHidden
  windowBlur := h'.windowBlur.trans h.windowBlur
  absence := h'.absence.trans h.absence
  multiplePeople := h'.multiplePeople.trans h.multiplePeople
  lookingAway := h'.lookingAway.trans h.lookingAway
  movement := h'.movement.trans h.movement
  obstruction := h'.obstruction.trans h.obstruction
  objects := h'.objects.trans h.objects
  cameraIntegrity := h'.cameraIntegrity.trans h.cameraIntegrity
  screenshots := h'.screenshots.trans h.screenshots
  keepMatching := h'.keepMatching.trans h.keepMatching
  recording := h'.recording.trans h.recording

theorem relaxes_applyAccommodation (p : ProctoringPolicy) (a : AccommodationSpec) :
    Relaxes p (applyAccommodation p a) := by
  cases a <;> constructor <;>
    first
    | exact noTighter_refl _
    | simp [applyAccommodation, noTighter_generous, PausePolicy.pausesAllowed,
        PausePolicy.secondsAllowed, Bool.and_le_left, IdentityPolicy.withModesOf]

theorem relaxes_enforceModes (p : ProctoringPolicy) : Relaxes p (enforceModes p) := by
  rw [enforceModes]
  split
  · exact .refl p
  · split <;> constructor <;> simp_all [noTighter_refl, DetectorToggles.allOff, IdentityPolicy.withModesOf]

theorem relaxes_applyAccommodations (p : ProctoringPolicy) (items : List AccommodationSpec) :
    Relaxes p (applyAccommodations p items) := by
  rw [applyAccommodations]
  split
  · exact .refl p
  · exact .trans p _ _
      (Absorb.foldl_rel Relaxes.refl Relaxes.trans relaxes_applyAccommodation items p)
      (relaxes_enforceModes _)

/-- A policy as the schema returns it: what a mode excludes is off. -/
def ProctoringPolicy.Valid (p : ProctoringPolicy) : Prop := enforceModes p = p

instance (p : ProctoringPolicy) : Decidable p.Valid := inferInstanceAs (Decidable (_ = _))

variable {p : ProctoringPolicy}

theorem applyAccommodations_eq (h : p.Valid) (items : List AccommodationSpec) :
    applyAccommodations p items = enforceModes (items.foldl applyAccommodation p) := by
  rcases items with _ | ⟨a, items⟩
  · exact h.symm
  · rfl

theorem valid_applyAccommodations (h : p.Valid) (items : List AccommodationSpec) :
    (applyAccommodations p items).Valid := by
  rw [applyAccommodations_eq h, ProctoringPolicy.Valid, enforceModes_self]

variable {items items' : List AccommodationSpec}

theorem applyAccommodations_perm (p : ProctoringPolicy)
    (h : items.Perm items') : applyAccommodations p items = applyAccommodations p items' := by
  have hfold : items.foldl applyAccommodation p = items'.foldl applyAccommodation p :=
    h.foldl_eq' (fun a _ b _ q => applyAccommodation_comm q a b) p
  have hempty : items.isEmpty = items'.isEmpty := by
    rw [Bool.eq_iff_iff, List.isEmpty_iff, List.isEmpty_iff]
    exact ⟨fun he => (he ▸ h).nil_eq.symm, fun he => (he ▸ h).eq_nil⟩
  rw [applyAccommodations, applyAccommodations, hfold, hempty]

theorem applyAccommodations_self (h : p.Valid) (items : List AccommodationSpec) :
    applyAccommodations (applyAccommodations p items) items = applyAccommodations p items := by
  rw [applyAccommodations_eq (valid_applyAccommodations h items), applyAccommodations_eq h]
  exact Absorb.closed_foldl_self applyAccommodation_comm applyAccommodation_self
    enforceModes_applyAccommodation enforceModes_self items p

/-! ## Which kinds change what -/

theorem attributed {β γ : Type} (hp : p.Valid)
    {K : List AccommodationKind} (G : ProctoringPolicy → γ) (g : ProctoringPolicy → β)
    (hG : ∀ q q', G q = G q' → g (enforceModes q) = g (enforceModes q'))
    (hstep : ∀ q a, a.kind ∉ K → G (applyAccommodation q a) = G q)
    (hne : g (applyAccommodations p items) ≠ g p) : ∃ k ∈ K, k ∈ items.map (·.kind) := by
  by_contra hnone
  refine hne ?_
  have hkeep : G (items.foldl applyAccommodation p) = G p :=
    Absorb.foldl_keeps G (fun a ha q => hstep q a fun hk =>
      hnone ⟨a.kind, hk, mem_map.mpr ⟨a, ha, rfl⟩⟩) p
  calc g (applyAccommodations p items)
      = g (enforceModes (items.foldl applyAccommodation p)) := by rw [applyAccommodations_eq hp]
    _ = g (enforceModes p) := hG _ _ hkeep
    _ = g p := by rw [hp]

/-- The kinds an exception at `path` is attributed to: one of them is present. -/
def Attributed (items : List AccommodationSpec) (path : List String) : Prop :=
  ∃ k ∈ kindsForPath (dotted path), k ∈ items.map (·.kind)

section Attribution

variable {p : ProctoringPolicy} {items : List AccommodationSpec} {K : List AccommodationKind}

theorem attributed_kept {β : Type} (hp : p.Valid) (g : ProctoringPolicy → β)
    (hmodes : ∀ q, g (enforceModes q) = g q)
    (hstep : ∀ q a, a.kind ∉ K → g (applyAccommodation q a) = g q)
    (hne : g (applyAccommodations p items) ≠ g p) : ∃ k ∈ K, k ∈ items.map (·.kind) :=
  attributed hp g g (fun q q' h => by rw [hmodes, hmodes, h]) hstep hne

theorem enforceModes_congr {β : Type} {q q' : ProctoringPolicy} (g : ProctoringPolicy → β) (v : β)
    (hg : ∀ q : ProctoringPolicy, g (enforceModes q) =
      if q.cameraEnabled ∧ q.identity.verification = .automatic then g q else v)
    (h : (q.cameraEnabled, q.identity.verification, g q) =
      (q'.cameraEnabled, q'.identity.verification, g q')) :
    g (enforceModes q) = g (enforceModes q') := by
  simp only [Prod.mk.injEq] at h
  rw [hg, hg, h.1, h.2.1, h.2.2]

theorem enforceModes_camera {β : Type} {q q' : ProctoringPolicy} (g : ProctoringPolicy → β) (v : β)
    (hg : ∀ q : ProctoringPolicy, g (enforceModes q) = if q.cameraEnabled then g q else v)
    (h : (q.cameraEnabled, g q) = (q'.cameraEnabled, g q')) :
    g (enforceModes q) = g (enforceModes q') := by
  simp only [Prod.mk.injEq] at h
  rw [hg, hg, h.1, h.2]

section

variable (hp : p.Valid)
include hp

theorem differsAt_camera : PathTree.DiffersAt (fun ks => Attributed items ("camera" :: ks))
      (.object [("enabled", .leaf (Setting.bool (applyAccommodations p items).cameraEnabled))])
      (.object [("enabled", .leaf (Setting.bool p.cameraEnabled))]) := by
  simp only [PathTree.differsAt_cons, PathTree.differsAt_leaf, PathTree.differsAt_nil, and_true]
  refine attributed_kept (K := [.noCamera]) hp (fun q => Setting.bool q.cameraEnabled)
    (fun q => by rw [(enforceModes_kept q).1]) (by
    intro q a ha
    cases a <;> first | rfl | simp [AccommodationSpec.kind] at ha)

theorem differsAt_pause : PathTree.DiffersAt (fun ks => Attributed items ("pause" :: ks))
      (applyAccommodations p items).pause.json p.pause.json := by
  by_cases he : (applyAccommodations p items).pause = p.pause
  · rw [he]
    simp
  · have hbreaks : ∃ k ∈ [AccommodationKind.restBreaks], k ∈ items.map (·.kind) :=
      attributed_kept hp (·.pause) (fun q => (enforceModes_kept q).2.1) (by
        intro q a ha
        cases a <;> first | rfl | simp [AccommodationSpec.kind] at ha) he
    simp only [PausePolicy.json, PathTree.differsAt_cons, PathTree.differsAt_leaf,
      PathTree.differsAt_nil, and_true]
    exact ⟨fun _ => hbreaks, fun _ => hbreaks, fun _ => hbreaks, fun _ => hbreaks, fun _ => hbreaks,
      fun _ => hbreaks⟩

theorem differsAt_browser (o : RemainingSettings) :
    PathTree.DiffersAt (fun ks => Attributed items ("browser" :: ks))
      ((applyAccommodations p items).browser.json o) (p.browser.json o) := by
  by_cases he : (applyAccommodations p items).browser = p.browser
  · rw [he]
    simp
  · have htools : ∃ k ∈ [AccommodationKind.assistiveTechnology], k ∈ items.map (·.kind) :=
      attributed_kept hp (·.browser) (fun q => (enforceModes_kept q).2.2.1) (by
        intro q a ha
        cases a <;> first | rfl | simp [AccommodationSpec.kind] at ha) he
    simp only [BrowserPolicy.json, PathTree.differsAt_cons, PathTree.differsAt_leaf,
      PathTree.differsAt_nil, and_true]
    exact ⟨fun _ => htools, fun _ => htools, fun _ => htools, fun _ => htools, fun _ => htools,
      fun _ => htools⟩

theorem attributed_detector (g : DetectorToggles → Bool) (hoff : g .allOff = false)
    (hstep : ∀ q a, a.kind ∉ K →
      ((applyAccommodation q a).cameraEnabled, g (applyAccommodation q a).detection) =
        (q.cameraEnabled, g q.detection))
    (hne : Setting.bool (g (applyAccommodations p items).detection) ≠ .bool (g p.detection)) :
    ∃ k ∈ K, k ∈ items.map (·.kind) := by
  refine attributed hp (fun q => (q.cameraEnabled, g q.detection)) (fun q =>
    g q.detection) (fun q q' h => ?_)
    hstep (fun he => hne (by rw [he]))
  refine enforceModes_camera (fun q => g q.detection) false (fun q => ?_) h
  by_cases hc : q.cameraEnabled <;> by_cases hv : q.identity.verification = .automatic <;>
    simp [enforceModes, hc, hv, hoff]

theorem differsAt_detectors :
    PathTree.DiffersAt (fun ks => Attributed items ("detection" :: "enabled" :: ks))
      (applyAccommodations p items).detection.json p.detection.json := by
  simp only [DetectorToggles.json, PathTree.differsAt_cons, PathTree.differsAt_leaf,
    PathTree.differsAt_nil, and_true]
  have hexempt : ∀ (g : DetectorToggles → Bool), g .allOff = false →
      (∀ q a, a.kind ∉ [AccommodationKind.detectionExemptions, .noCamera] →
        ((applyAccommodation q a).cameraEnabled, g (applyAccommodation q a).detection) =
          (q.cameraEnabled, g q.detection)) →
      Setting.bool (g (applyAccommodations p items).detection) ≠ .bool (g p.detection) →
      ∃ k ∈ [AccommodationKind.detectionExemptions, .noCamera], k ∈ items.map (·.kind) :=
    fun g hoff hstep => attributed_detector hp g hoff hstep
  refine ⟨hexempt (·.absence) rfl ?_,
    attributed_detector (K := [.supportPerson, .detectionExemptions, .noCamera]) hp (·.multiplePeople) rfl ?_,
    hexempt (·.lookingAway) rfl ?_, hexempt (·.movement) rfl ?_, hexempt (·.obstruction) rfl ?_,
    hexempt (·.objects) rfl ?_, hexempt (·.cameraIntegrity) rfl ?_⟩
  all_goals
    intro q a ha
    cases a <;> first | rfl | simp [AccommodationSpec.kind] at ha

theorem differsAt_evidence (o : RemainingSettings) :
    PathTree.DiffersAt (fun ks => Attributed items ("evidence" :: ks))
      ((applyAccommodations p items).evidence.json o) (p.evidence.json o) := by
  have hcamera : ∀ (g : EvidencePolicy → Bool),
      g { screenshots := false, keepMatchingIdentitySamples := false } = false →
      Setting.bool (g (applyAccommodations p items).evidence) ≠ Setting.bool (g p.evidence) →
      ∃ k ∈ [AccommodationKind.noCamera], k ∈ items.map (·.kind) := by
    intro g hoff hne
    refine attributed hp (fun q => (q.cameraEnabled, g q.evidence)) (fun q => g q.evidence)
      (fun q q' h => ?_) ?_ (fun he => hne (by rw [he]))
    · refine enforceModes_camera (fun q => g q.evidence) false (fun q => ?_) h
      by_cases hc : q.cameraEnabled <;> by_cases hv : q.identity.verification = .automatic <;>
        simp [enforceModes, hc, hv, hoff]
    · intro q a ha
      cases a <;> first | rfl | simp [AccommodationSpec.kind] at ha
  simp only [EvidencePolicy.json, PathTree.differsAt_cons, PathTree.differsAt_leaf,
    PathTree.differsAt_nil,
    ne_eq, not_true_eq_false, false_implies, true_and, and_true]
  exact ⟨hcamera (·.screenshots) rfl, hcamera (·.keepMatchingIdentitySamples) rfl⟩

theorem attributed_identity (g : IdentityPolicy → Setting) (v : Setting)
    (hoff : ∀ i : IdentityPolicy,
      g { i with verification := .staff, liveness := .off, idPhotoComparison := .off } = v)
    (hstep : ∀ q a, a.kind ∉ K →
      ((applyAccommodation q a).cameraEnabled, (applyAccommodation q a).identity.verification,
          g (applyAccommodation q a).identity) =
        (q.cameraEnabled, q.identity.verification, g q.identity))
    (hne : g (applyAccommodations p items).identity ≠ g p.identity) : ∃ k ∈ K, k ∈ items.map (·.kind) := by
  refine attributed hp (fun q => (q.cameraEnabled, q.identity.verification, g q.identity))
    (fun q => g q.identity) (fun q q' h => ?_) hstep hne
  refine enforceModes_congr (fun q => g q.identity) v (fun q => ?_) h
  by_cases hc : q.cameraEnabled <;> by_cases hv : q.identity.verification = .automatic <;>
    simp [enforceModes, hc, hv, hoff]

theorem differsAt_identity (o : RemainingSettings) :
    PathTree.DiffersAt (fun ks => Attributed items ("identity" :: ks))
      ((applyAccommodations p items).identity.json o) (p.identity.json o) := by
  have hsame := (relaxes_applyAccommodations p items).sampling
  have hperiodic := congrArg IdentityPolicy.periodicCheckIntervalSec hsame
  have hstartup := congrArg IdentityPolicy.startupIntervalSec hsame
  have hwindow := congrArg IdentityPolicy.startupWindowSec hsame
  have hburst := congrArg IdentityPolicy.burstSize hsame
  have hroutine := congrArg IdentityPolicy.routineBurstSize hsame
  have hmismatch := congrArg IdentityPolicy.onMismatch hsame
  have hattempts := congrArg IdentityPolicy.maxVerificationAttempts hsame
  simp only [IdentityPolicy.withModesOf] at hperiodic hstartup hwindow hburst hroutine hmismatch hattempts
  simp only [IdentityPolicy.json, PathTree.differsAt_cons, PathTree.differsAt_leaf, PathTree.differsAt_nil, hperiodic,
    hstartup, hwindow, hburst, hroutine, hmismatch, hattempts, ne_eq, not_true_eq_false,
    false_implies, true_and, and_true]
  refine ⟨?verification, ?reverify, ?liveness, ?photo⟩
  case verification =>
    refine attributed_identity (K := [.staffIdentityVerification, .noCamera]) hp
      (fun i => .verification i.verification) (.verification .staff) (fun _ => rfl) ?_
    intro q a ha
    cases a <;> first | rfl | simp [AccommodationSpec.kind] at ha
  case reverify =>
    refine attributed_kept (K := [.staffIdentityVerification, .noCamera]) hp
      (fun q => Setting.bool q.identity.staffReverifyOnContinue)
      (fun q => by rw [(enforceModes_kept q).2.2.2]) ?_
    intro q a ha
    cases a <;> first | rfl | simp [AccommodationSpec.kind] at ha
  case liveness =>
    refine attributed_identity (K := [.noLivenessChallenge, .staffIdentityVerification, .noCamera]) hp
      (fun i => .liveness i.liveness) (.liveness .off) (fun _ => rfl) ?_
    intro q a ha
    cases a <;> first | rfl | simp [AccommodationSpec.kind] at ha
  case photo =>
    refine attributed_identity (K := [.staffIdentityVerification, .noCamera]) hp
      (fun i => .idPhotoComparison i.idPhotoComparison) (.idPhotoComparison .off) (fun _ => rfl) ?_
    intro q a ha
    cases a <;> first | rfl | simp [AccommodationSpec.kind] at ha

theorem differsAt_policy (o : RemainingSettings) :
    PathTree.DiffersAt (Attributed items) ((applyAccommodations p items).json o) (p.json o) := by
  have hrel := relaxes_applyAccommodations p items
  simp only [ProctoringPolicy.json, PathTree.differsAt_cons, hrel.connection, hrel.resume,
    hrel.recording, PathTree.differsAt_self, true_and, and_true]
  refine ⟨differsAt_identity hp o, ?_, differsAt_pause hp, differsAt_browser hp o,
    differsAt_detectors hp,
    differsAt_evidence hp o⟩
  simpa using differsAt_camera hp

end

end Attribution

/-! ## The exceptions as a whole -/

theorem accommodationExtraTimeMs_eq_zero
    (h : AccommodationKind.extraTime ∉ items.map (·.kind)) (baseDurationMs : Int) :
    accommodationExtraTimeMs baseDurationMs items = 0 := by
  refine Absorb.foldl_keeps (fun extra : Int => extra) (fun a ha extra => ?_) 0
  cases a
  case extraTime => exact (h (mem_map.mpr ⟨_, ha, rfl⟩)).elim
  all_goals simp [AccommodationSpec.extraTimeMs]

theorem accommodationExtraTimeMs_perm (baseDurationMs : Int) (h : items.Perm items') :
    accommodationExtraTimeMs baseDurationMs items =
    accommodationExtraTimeMs baseDurationMs items' :=
  h.foldl_eq' (fun a _ b _ extra => by omega) 0

/-- The exceptions of a session: the exam's policy, and the one with its records applied
(`withAccommodations`). -/
def sessionExceptions (policy : ProctoringPolicy) (other : RemainingSettings)
    (items : List AccommodationSpec) (durations : Option Durations) : List PolicyException :=
  policyExceptions (policy.json other) ((applyAccommodations policy items).json other)
    items durations

theorem sessionExceptions_eq (policy : ProctoringPolicy) (other : RemainingSettings)
    (items : List AccommodationSpec) (durations : Option Durations) :
    sessionExceptions policy other items durations =
      durationException durations ++
        (((applyAccommodations policy items).json other).diff (policy.json other)).map (exceptionOf items) :=
  policyExceptions_eq (ProctoringPolicy.json_sameShape _ _ other) (policy.json_distinct other) items durations

theorem sessionExceptions_perm (policy : ProctoringPolicy) (other : RemainingSettings)
    (h : items.Perm items') (durations : Option Durations) :
    sessionExceptions policy other items durations =
    sessionExceptions policy other items' durations := by
  have hkinds : exceptionOf items = exceptionOf items' := by
    funext d
    have hmem : ∀ k, (items.map (·.kind)).contains k = (items'.map (·.kind)).contains k := by
      intro k
      rw [Bool.eq_iff_iff, contains_iff_mem, contains_iff_mem, (h.map (·.kind)).mem_iff]
    simp only [exceptionOf, hmem]
  rw [sessionExceptions_eq, sessionExceptions_eq, applyAccommodations_perm policy h, hkinds]

theorem sessionExceptions_attributed {policy : ProctoringPolicy} (hp : policy.Valid)
    (other : RemainingSettings) {durations : Option Durations}
    (hdurations : ∀ d ∈ durations, ∃ base, d.extraMs = accommodationExtraTimeMs base items)
    {e : PolicyException} (he : e ∈ sessionExceptions policy other items durations) :
    e.kinds ≠ [] ∧ ∀ k ∈ e.kinds, k ∈ items.map (·.kind) := by
  rw [sessionExceptions_eq, mem_append, mem_map] at he
  rcases he with he | ⟨d, hd, rfl⟩
  · rcases durations with _ | d
    · simp [durationException] at he
    · obtain ⟨base, hbase⟩ := hdurations d rfl
      rw [durationException] at he
      split at he
      · rename_i hpos
        rw [mem_singleton] at he
        subst he
        refine ⟨by simp, fun k hk => ?_⟩
        rw [mem_singleton] at hk
        subst hk
        by_contra hnone
        rw [hbase, accommodationExtraTimeMs_eq_zero hnone] at hpos
        omega
      · simp at he
  · obtain ⟨k, hk, hpresent⟩ := differsAt_policy hp other d hd
    refine ⟨ne_nil_of_mem (mem_filter.mpr ⟨hk, by simpa using hpresent⟩), fun k' hk' => ?_⟩
    simpa using (mem_filter.mp hk').2

theorem revertExceptions_sessionExceptions (policy : ProctoringPolicy) (other : RemainingSettings)
    (items : List AccommodationSpec) (durations : Option Durations) :
    revertExceptions ((applyAccommodations policy items).json other)
      (sessionExceptions policy other items durations) = policy.json other := by
  refine revertExceptions_policyExceptions (ProctoringPolicy.json_sameShape _ _ other)
    (policy.json_distinct other) (fun d hd he => ?_) items durations
  obtain ⟨k, hk, ks, hd⟩ := PathFields.mem_diff hd
  rw [he, cons.injEq] at hd
  rw [← hd.1, PathFields.keys_ofList] at hk
  simp at hk

/-- Whether a record asks staff to verify again after interruptions. -/
def AccommodationSpec.reverifies : AccommodationSpec → Bool
  | .staffIdentityVerification reverify => reverify
  | .noCamera reverify => reverify
  | _ => false

theorem staffReverifyOnContinue_applyAccommodations (p : ProctoringPolicy)
    (items : List AccommodationSpec) :
    (applyAccommodations p items).identity.staffReverifyOnContinue =
      (p.identity.staffReverifyOnContinue || items.any (·.reverifies)) := by
  have hfold : (items.foldl applyAccommodation p).identity.staffReverifyOnContinue =
      (p.identity.staffReverifyOnContinue || items.any (·.reverifies)) := by
    induction items generalizing p with
    | nil => simp
    | cons a items ih =>
      rw [foldl_cons, ih, any_cons, ← Bool.or_assoc]
      cases a <;> simp [applyAccommodation, AccommodationSpec.reverifies]
  rw [applyAccommodations]
  split
  · rename_i he
    rw [List.isEmpty_iff] at he
    simp [he]
  · rw [(enforceModes_kept _).2.2.2, hfold]

/-- Accommodations relax an exam's rules: in any order, once and for all, with an account of what
changed and whose it is, from which the exam's rules can be read back. -/
theorem accommodations_relax (policy : ProctoringPolicy) (other : RemainingSettings)
    (items : List AccommodationSpec) (h : policy.Valid) :
    (∀ items', items.Perm items' →
      applyAccommodations policy items = applyAccommodations policy items' ∧
        (∀ base, accommodationExtraTimeMs base items = accommodationExtraTimeMs base items') ∧
        ∀ durations, sessionExceptions policy other items durations =
          sessionExceptions policy other items' durations) ∧
      applyAccommodations (applyAccommodations policy items) items =
      applyAccommodations policy items ∧ Relaxes policy (applyAccommodations policy items) ∧
      (applyAccommodations policy items).identity.staffReverifyOnContinue =
        (policy.identity.staffReverifyOnContinue || items.any (·.reverifies)) ∧
      (applyAccommodations policy items).Valid ∧
      (∀ durations : Option Durations,
        (∀ d ∈ durations, ∃ base, d.extraMs = accommodationExtraTimeMs base items) →
        ∀ e ∈ sessionExceptions policy other items durations,
          e.kinds ≠ [] ∧ ∀ k ∈ e.kinds, k ∈ items.map (·.kind)) ∧
      ∀ durations, revertExceptions ((applyAccommodations policy items).json other)
        (sessionExceptions policy other items durations) = policy.json other :=
  ⟨fun _ hperm =>
      ⟨applyAccommodations_perm policy hperm, fun base => accommodationExtraTimeMs_perm base hperm,
        sessionExceptions_perm policy other hperm⟩,
    applyAccommodations_self h items,
    relaxes_applyAccommodations policy items,
    staffReverifyOnContinue_applyAccommodations policy items,
    valid_applyAccommodations h items,
    fun _ hdurations _ he => sessionExceptions_attributed h other hdurations he,
    revertExceptions_sessionExceptions policy other items⟩

/-- The settings of an exam nobody changed. -/
def DEFAULT_REMAINING : RemainingSettings where
  livenessSteps := ⟨2, by decide⟩
  samplingProfile := .maximum
  windowBlurMinSec := 2
  detection := fun _ => .null
  maxScreenshotsPerEvent := ⟨4, by decide⟩
  periodicScreenshotSec := 30
  evidenceDays := none

theorem accommodations_relax_default :
    DEFAULT_POLICY.Valid ∧
      Relaxes DEFAULT_POLICY
        (applyAccommodations DEFAULT_POLICY [.noCamera true, .restBreaks none none]) :=
  ⟨by decide, (accommodations_relax DEFAULT_POLICY DEFAULT_REMAINING
    [.noCamera true, .restBreaks none none] (by decide)).2.2.1⟩

/-- An exam whose candidates staff verify once, at check-in. -/
def staffVerifiedExam : ProctoringPolicy :=
  enforceModes { DEFAULT_POLICY with identity := { verification := .staff } }

/-- A record that asks for it switches staff verification after interruptions on. -/
theorem reverification_switched_on :
    staffVerifiedExam.Valid ∧ staffVerifiedExam.identity.staffReverifyOnContinue = false ∧
      (applyAccommodations staffVerifiedExam
        [.staffIdentityVerification true]).identity.staffReverifyOnContinue = true := by
  decide

end SmartProctoring
