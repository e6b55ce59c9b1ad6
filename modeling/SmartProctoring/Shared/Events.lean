import Mathlib.Tactic.Common

/-!
# The event catalog

`packages/shared/src/events.ts`: the types of observations, which sources may create each of them,
its category and severity, and whether a type is a span (with a start and an end) or an
instantaneous marker.  The catalog, not the client, decides all of them; a candidate's browser may
report exactly the types that list one of its own sources.
-/

set_option autoImplicit false

namespace SmartProctoring

inductive EventSource
  | clientVision | clientBrowser | serverIdentity | serverSystem | staff
  deriving DecidableEq

inductive EventCategory
  | integrity | uncertain | technical | neutral | exception
  deriving DecidableEq

inductive Severity
  | info | low | medium | high
  deriving DecidableEq

def SEVERITY_RANK : Severity → Nat
  | .info => 0 | .low => 1 | .medium => 2 | .high => 3

/-- Categories that are flags for review; the others are context. -/
def isFlagCategory (c : EventCategory) : Bool := decide (c ∈ [.integrity, .uncertain, .technical])

inductive EventType
  -- potential integrity events
  | identityMismatch | multiplePeople | candidateAbsent | lookingAway | repeatedLookingAway
  | offscreenAttentionPattern | unusualMovement | phoneDetected | unauthorizedObject
  | cameraCovered | cameraFeedSuspect | tabHidden | windowUnfocused | fullscreenExited
  | clipboardAttempt | multipleInstances | screenShareStopped
  -- uncertain observations
  | identityUnverifiable | faceObstructed | lightingUnusable
  -- technical problems
  | cameraDisconnected | cameraPermissionLost | cameraFrozen | reportingInterrupted
  | monitoringDegraded | recordingInterrupted
  -- neutral session changes
  | sessionStarted | checkinCompleted | referenceCreated | idPhotoCompared | identityVerified
  | pauseRequested | pauseDenied | sessionPaused | sessionResumed | unobservedPeriod
  | cameraChanged | environmentChanged | additionalDisplayDetected | sessionHeld | holdReleased
  | sessionSubmitted | sessionExpired | sessionTerminated | timeExtended | scoreRegraded
  | accommodationsApplied | identityVerifiedByStaff | reviewCompleted | reviewReopened
  | sessionRescheduled | sessionReopened
  deriving DecidableEq

namespace EventType

/-- `EVENT_CATALOG[type].sources`. -/
def sources : EventType → List EventSource
  | multiplePeople | candidateAbsent | lookingAway | repeatedLookingAway
  | offscreenAttentionPattern | unusualMovement | phoneDetected | unauthorizedObject
  | cameraCovered | faceObstructed | lightingUnusable | cameraDisconnected
  | cameraPermissionLost | cameraFrozen | monitoringDegraded => [.clientVision]
  | cameraFeedSuspect | environmentChanged => [.clientVision, .serverIdentity]
  | cameraChanged => [.clientVision, .serverSystem]
  | tabHidden | windowUnfocused | fullscreenExited | clipboardAttempt | screenShareStopped
  | recordingInterrupted | additionalDisplayDetected => [.clientBrowser]
  | identityMismatch | identityUnverifiable | referenceCreated | idPhotoCompared
  | identityVerified => [.serverIdentity]
  | multipleInstances | reportingInterrupted | sessionStarted | checkinCompleted
  | pauseRequested | sessionPaused | sessionResumed | unobservedPeriod | sessionSubmitted
  | sessionExpired | accommodationsApplied => [.serverSystem]
  | pauseDenied | sessionHeld => [.serverSystem, .staff]
  | holdReleased => [.staff, .serverSystem]
  | sessionTerminated | timeExtended | scoreRegraded | identityVerifiedByStaff
  | reviewCompleted | reviewReopened | sessionRescheduled | sessionReopened => [.staff]

/-- `EVENT_CATALOG[type].category`. -/
def category : EventType → EventCategory
  | identityMismatch | multiplePeople | candidateAbsent | lookingAway | repeatedLookingAway
  | offscreenAttentionPattern | unusualMovement | phoneDetected | unauthorizedObject
  | cameraCovered | cameraFeedSuspect | tabHidden | windowUnfocused | fullscreenExited
  | clipboardAttempt | multipleInstances | screenShareStopped => .integrity
  | identityUnverifiable | faceObstructed | lightingUnusable => .uncertain
  | cameraDisconnected | cameraPermissionLost | cameraFrozen | reportingInterrupted
  | monitoringDegraded | recordingInterrupted => .technical
  | accommodationsApplied | identityVerifiedByStaff => .exception
  | _ => .neutral

/-- `EVENT_CATALOG[type].severity`. -/
def severity : EventType → Severity
  | identityMismatch | multiplePeople | phoneDetected | cameraFeedSuspect => .high
  | candidateAbsent | offscreenAttentionPattern | unauthorizedObject | cameraCovered | tabHidden
  | multipleInstances | identityUnverifiable | cameraDisconnected | cameraPermissionLost
  | cameraFrozen => .medium
  | lookingAway | repeatedLookingAway | unusualMovement | windowUnfocused | fullscreenExited
  | clipboardAttempt | screenShareStopped | faceObstructed | lightingUnusable
  | reportingInterrupted | monitoringDegraded | recordingInterrupted => .low
  | _ => .info

/-- `EVENT_CATALOG[type].span`: the event is a span, not an instantaneous marker. -/
def span : EventType → Bool
  | identityMismatch | multiplePeople | candidateAbsent | lookingAway | repeatedLookingAway
  | offscreenAttentionPattern | unusualMovement | phoneDetected | unauthorizedObject
  | cameraCovered | cameraFeedSuspect | tabHidden | windowUnfocused | fullscreenExited
  | clipboardAttempt | screenShareStopped | identityUnverifiable | faceObstructed
  | lightingUnusable | cameraDisconnected | cameraPermissionLost | cameraFrozen
  | reportingInterrupted | monitoringDegraded | recordingInterrupted | unobservedPeriod => true
  | _ => false

end EventType

/-- The two sources a candidate's browser reports under. -/
def CLIENT_EVENT_SOURCES : List EventSource := [.clientBrowser, .clientVision]

/-- Event types a candidate client is allowed to report.  Everything else is server-authored. -/
def isClientReportable (type : EventType) : Bool :=
  type.sources.any fun s => decide (s ∈ CLIENT_EVENT_SOURCES)

/-- The source a reported event is stored under. -/
def EventType.clientSource (type : EventType) : EventSource :=
  if EventSource.clientBrowser ∈ type.sources then .clientBrowser else .clientVision

end SmartProctoring
