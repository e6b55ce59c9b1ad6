import SmartProctoring.Shared.Session

/-!
# The exam's rules

`packages/shared/src/policy.ts`: the resolved proctoring policy, section by section, with the
bounds its schema checks and the defaults it fills in.  A number the schema bounds is a `Between`,
so a policy that reached the server is in range by construction: the heartbeat timeout is at least
ten seconds, an offline limit is at least one minute.

Left out are the settings only the candidate's browser reads (detector thresholds, screenshot
counts) and the preset label of the sampling fields.
-/

set_option autoImplicit false

namespace SmartProctoring

/-- A natural number inside the bounds of its schema (`z.number().int().min(lo).max(hi)`). -/
abbrev Between (lo hi : Nat) := { n : Nat // lo ≤ n ∧ n ≤ hi }

/-- Seconds of a setting, in milliseconds. -/
def Between.secMs {lo hi : Nat} (n : Between lo hi) : Int := (n.val : Int) * 1000

/-- Minutes of a setting, in milliseconds. -/
def Between.minMs {lo hi : Nat} (n : Between lo hi) : Int := (n.val : Int) * 60000

theorem Between.secMs_bounds {lo hi : Nat} (n : Between lo hi) :
    (lo : Int) * 1000 ≤ n.secMs ∧ n.secMs ≤ (hi : Int) * 1000 := by
  simp only [secMs]
  omega

theorem Between.minMs_bounds {lo hi : Nat} (n : Between lo hi) :
    (lo : Int) * 60000 ≤ n.minMs ∧ n.minMs ≤ (hi : Int) * 60000 := by
  simp only [minMs]
  omega

/-! ## The sections of a policy -/

inductive IdentityVerification
  | automatic | staff
  deriving DecidableEq

inductive LivenessMode
  | active | off
  deriving DecidableEq

inductive IdPhotoComparison
  | off | advisory | required
  deriving DecidableEq

inductive OnMismatch
  | holdForReview | flagOnly
  deriving DecidableEq

inductive OnLimit
  | hold | end
  deriving DecidableEq

namespace Default

def periodicCheckIntervalSec : Between 5 600 := ⟨15, by decide⟩
def startupIntervalSec : Between 3 120 := ⟨6, by decide⟩
def startupWindowSec : Between 0 1800 := ⟨180, by decide⟩
def burstSize : Between 1 5 := ⟨3, by decide⟩
def routineBurstSize : Between 1 5 := ⟨3, by decide⟩
def maxVerificationAttempts : Between 1 20 := ⟨5, by decide⟩
def heartbeatTimeoutSec : Between 10 300 := ⟨20, by decide⟩

end Default

structure IdentityPolicy where
  verification : IdentityVerification := .automatic
  /-- `staff` verification: also after pauses and reconnections. -/
  staffReverifyOnContinue : Bool := false
  liveness : LivenessMode := .active
  idPhotoComparison : IdPhotoComparison := .advisory
  periodicCheckIntervalSec : Between 5 600 := Default.periodicCheckIntervalSec
  startupIntervalSec : Between 3 120 := Default.startupIntervalSec
  startupWindowSec : Between 0 1800 := Default.startupWindowSec
  burstSize : Between 1 5 := Default.burstSize
  routineBurstSize : Between 1 5 := Default.routineBurstSize
  onMismatch : OnMismatch := .holdForReview
  /-- Failed attempts during a check before routing to human review. -/
  maxVerificationAttempts : Between 1 20 := Default.maxVerificationAttempts
  deriving DecidableEq

structure PausePolicy where
  allowed : Bool := true
  requireReason : Bool := false
  requireApproval : Bool := false
  /-- `stop` = the exam clock stops during a pause; `continue` = it keeps running. -/
  timerBehavior : TimerBehavior := .stop
  /-- `none` = unlimited. -/
  maxPauses : Option Nat := none
  /-- `none` = unlimited.  If exceeded, resume requires administrator approval. -/
  maxPauseDurationSec : Option Nat := none
  deriving DecidableEq

structure ConnectionPolicy where
  /-- Clock behaviour while the candidate's browser is disconnected without a formal pause. -/
  disconnectTimerBehavior : TimerBehavior := .continue
  /-- Seconds without heartbeat before the session is shown as disconnected. -/
  heartbeatTimeoutSec : Between 10 300 := Default.heartbeatTimeoutSec
  deriving DecidableEq

structure ResumePolicy where
  maxReconnects : Option (Between 0 100) := none
  maxOfflineMinutes : Option (Between 1 1440) := none
  onLimit : OnLimit := .hold
  deriving DecidableEq

structure BrowserPolicy where
  requireFullscreen : Bool := true
  requireSingleDisplay : Bool := false
  blockClipboard : Bool := true
  flagTabHidden : Bool := true
  flagWindowBlur : Bool := true
  deriving DecidableEq

/-- `policy.detection.enabled`: which behaviour detectors run. -/
structure DetectorToggles where
  absence : Bool := true
  multiplePeople : Bool := true
  lookingAway : Bool := true
  movement : Bool := true
  obstruction : Bool := true
  objects : Bool := true
  cameraIntegrity : Bool := true
  deriving DecidableEq

structure EvidencePolicy where
  screenshots : Bool := true
  keepMatchingIdentitySamples : Bool := false
  deriving DecidableEq

structure RecordingPolicy where
  enabled : Bool := false
  audio : Bool := true
  screen : Bool := true
  deriving DecidableEq

structure ProctoringPolicy where
  identity : IdentityPolicy := {}
  /-- `policy.camera.enabled`. -/
  cameraEnabled : Bool := true
  pause : PausePolicy := {}
  connection : ConnectionPolicy := {}
  resume : ResumePolicy := {}
  browser : BrowserPolicy := {}
  detection : DetectorToggles := {}
  evidence : EvidencePolicy := {}
  recording : RecordingPolicy := {}
  deriving DecidableEq

def DEFAULT_POLICY : ProctoringPolicy := {}

/-- Every detector off (an exam without a camera). -/
def DetectorToggles.allOff : DetectorToggles where
  absence := false
  multiplePeople := false
  lookingAway := false
  movement := false
  obstruction := false
  objects := false
  cameraIntegrity := false

/-- Settings that cannot apply in a mode are switched off: without a camera nothing camera-based
runs and identity is verified by staff; with staff verification no automated face check runs. -/
def enforceModes (p : ProctoringPolicy) : ProctoringPolicy :=
  if p.cameraEnabled ∧ p.identity.verification = .automatic then p
  else
    let identity : IdentityPolicy :=
      { p.identity with verification := .staff, liveness := .off, idPhotoComparison := .off }
    if p.cameraEnabled then { p with identity := identity }
    else
      { p with
        identity := identity
        detection := .allOff
        evidence :=
          { p.evidence with screenshots := false, keepMatchingIdentitySamples := false } }

/-! ## Recording -/

/-- The streams of a recording (`recording.ts`): a segment belongs to one of the two. -/
inductive RecordingStream
  | camera | screen
  deriving DecidableEq

/-- What is recorded: `any` stream at all, the webcam, the microphone, the screen. -/
structure RecordingPlan where
  any : Bool
  camera : Bool
  audio : Bool
  screen : Bool

def recordingPlan (policy : ProctoringPolicy) : RecordingPlan :=
  let on := policy.recording.enabled
  let camera := on && policy.cameraEnabled
  let audio := camera && policy.recording.audio
  let screen := on && policy.recording.screen
  { any := camera || screen, camera, audio, screen }

/-- The version of a privacy notice: the plain one, the recording one, or an older one. -/
inductive NoticeVersion
  | privacy | recording | other (n : Nat)
  deriving DecidableEq

/-- Whether a consent given to notice `version` covers an exam with this recording plan. -/
def consentCoversRecording (version : Option NoticeVersion) (recording : RecordingPlan) : Bool :=
  !recording.any || version == some .recording

/-- `IDENTITY_CHECK_TRIGGERS`: what triggered an identity check or sample. -/
inductive IdentityCheckTrigger
  | checkIn | resume | reconnect | reverify | periodic | faceReturn | cameraReconnect
  | afterMultiplePeople | afterObstruction | followUp | idPhoto | examStart | trackBreak
  | appearanceChange | serverRequest
  deriving DecidableEq

def ROUTINE_SAMPLE_TRIGGERS : List IdentityCheckTrigger := [.periodic]

/-- Frames per identity sample for a trigger. -/
def burstSizeFor (trigger : IdentityCheckTrigger) (identity : IdentityPolicy) : Nat :=
  if trigger ∈ ROUTINE_SAMPLE_TRIGGERS then identity.routineBurstSize else identity.burstSize

end SmartProctoring
