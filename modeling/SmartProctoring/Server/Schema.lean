import Mathlib.Data.Rat.Floor
import SmartProctoring.Lib.Table
import SmartProctoring.Shared.Accommodations
import SmartProctoring.Shared.Events
import SmartProctoring.Shared.Scheduling

/-!
# The rows of one session

The tables of `apps/server/src/db/schema.ts` as far as one exam session is concerned: its own row
(`ExamSession`), its periods, events, commands, checks, identity references, pause requests and
answers.  Column names are the source's, a nullable column is an `Option`, and identifiers are
opaque; where a column's name is a Lean keyword (`at`, `meta`) it is spelled `atMs` and `metadata`.

Columns that no operation on a session reads are left out: titles, categories and observation texts
of events, evidence and embeddings, similarity scores, tokens, organisation and exam ids.
-/

set_option autoImplicit false

namespace SmartProctoring

/-! ## Identifiers -/

/-- A browser instance (the `X-Client-Instance` header, never empty). -/
structure InstanceId where
  raw : Nat
  deriving DecidableEq

structure QuestionId where
  raw : Nat
  deriving DecidableEq

structure StaffId where
  raw : Nat
  deriving DecidableEq

/-- An event's id: generated by the server, or the episode id chosen by the reporting browser. -/
structure EventId where
  raw : Nat
  deriving DecidableEq

/-- A decided identity sample: the id of its `identity_checks` row. -/
structure SampleId where
  raw : Nat
  deriving DecidableEq

/-- The status of an exam (`exams.status`). -/
inductive ExamStatus
  | draft
  | published
  | archived
  deriving DecidableEq

/-! ## The identity engine's state and the usage record -/

inductive EvidenceStateName
  | consistent | monitoring | suspect | confirmedMismatch
  deriving DecidableEq

/-- Quality of a usable frame. -/
inductive QualityBucket
  | good | fair | poor
  deriving DecidableEq

/-- The contribution of one decided sample to the evidence. -/
structure EvidenceEntry where
  id : SampleId
  atMs : Int
  /-- Clamped log-likelihood ratio, trigger weight applied; positive for a different person. -/
  llr : ℚ
  bucket : QualityBucket
  trigger : IdentityCheckTrigger
  deriving DecidableEq

structure EvidenceAccumulator where
  /-- Samples contributing to the current evidence, oldest first. -/
  window : List EvidenceEntry := []
  state : EvidenceStateName := .consistent
  /-- When the current confirmed mismatch was reached. -/
  confirmedAt : Option Int := none
  /-- Consecutive clear genuine samples while confirmed. -/
  clearStreak : Nat := 0
  /-- Consecutive samples without a usable face image. -/
  unusableStreak : Nat := 0
  lastSampleAt : Option Int := none
  lastUsableAt : Option Int := none
  deriving DecidableEq

structure SampleRequest where
  trigger : IdentityCheckTrigger
  since : Int
  deriving DecidableEq

/-- The id a browser gives to a burst of identity frames. -/
structure BurstId where
  raw : Nat
  deriving DecidableEq

/-- A burst of identity frames being collected. -/
structure PendingBurst where
  id : BurstId
  size : Nat
  trigger : IdentityCheckTrigger
  /-- Server receipt time of the first frame. -/
  firstReceivedAt : Int
  /-- Distinct `burstIndex` values received. -/
  indexes : List Nat
  deriving DecidableEq

/-- The fingerprint of an image: equal for identical frames. -/
structure Dhash where
  raw : Nat
  deriving DecidableEq

/-- An external second opinion on a suspected swap that has been asked for. -/
structure SecondOpinionPending where
  checkId : SampleId
  since : Int
  deriving DecidableEq

/-- A second opinion said "same person": borderline confirmations are held off for a while. -/
structure SecondOpinionVeto where
  checkId : SampleId
  untilMs : Int
  deriving DecidableEq

/-- `identity_state`: open observations, the sampling cadence and the bursts being collected. -/
structure IdentityEngineState where
  openMismatchEventId : Option EventId := none
  openUnverifiableEventId : Option EventId := none
  openFeedSuspectEventId : Option EventId := none
  openNoSamplesEventId : Option EventId := none
  lastMatchAt : Option Int := none
  evidence : EvidenceAccumulator := {}
  /-- When the current observed active period began. -/
  activeSince : Option Int := none
  sampleRequest : Option SampleRequest := none
  pendingBursts : List PendingBurst := []
  lastSampleReceivedAt : Option Int := none
  /-- The routine interval the client was last told. -/
  cadenceMs : Option Int := none
  followUpRequestedAt : Option Int := none
  /-- Consecutive samples with identical images. -/
  identicalDhashStreak : Nat := 0
  lastSampleDhash : Option Dhash := none
  secondOpinionPending : Option SecondOpinionPending := none
  secondOpinionVeto : Option SecondOpinionVeto := none
  deriving DecidableEq

inductive IpFamily
  | v4 | v6
  deriving DecidableEq

/-- A hashed network: its address family and the hash of its /24 or /64. -/
structure NetHash where
  family : IpFamily
  hash : Nat
  deriving DecidableEq

/-- A run of consecutive requests from one network. -/
structure NetRun where
  net : NetHash
  firstAt : Int
  lastAt : Int
  deriving DecidableEq

/-- The last `seq` of one monotonic heartbeat sequence. -/
structure SeqStream where
  last : Int
  atMs : Int
  deriving DecidableEq

/-- The heartbeat sequences of an instance; `cur` is the index of the stream used last. -/
structure SeqStreams where
  streams : List SeqStream
  cur : Nat
  deriving DecidableEq

/-- `instance_usage`: where the verified instance's requests come from (hashes only). -/
structure InstanceUsage where
  instanceId : InstanceId
  uaHash : Nat
  nets : List NetRun
  ipHashes : List Nat
  seq : Option SeqStreams
  deriving DecidableEq

/-! ## Answers and scores -/

inductive AnswerValue
  | null
  | text (s : String)
  | number (q : Rat)
  | texts (l : List String)
  deriving DecidableEq

structure Answer where
  questionId : QuestionId
  value : AnswerValue
  clientSeq : Nat
  answeredAt : Int
  savedAt : Int
  deriving DecidableEq

/-- A score, given by what it is computed from: the stored answers that were graded and when.
(`scoreAnswers` is a function of these and of the pinned version's answer key.) -/
structure SessionScore where
  gradedAt : Int
  graded : List Answer
  deriving DecidableEq

/-! ## Accommodations and monitoring -/

structure SessionAccommodationItem where
  id : Nat
  spec : AccommodationSpec
  grantedAt : Int
  deriving DecidableEq

/-- The snapshot of the accommodations that apply to a session. -/
structure SessionAccommodations where
  items : List SessionAccommodationItem
  extraTimeMs : Int
  atMs : Int
  deriving DecidableEq

inductive MonitoringState
  | ok | attention | degraded | off
  deriving DecidableEq

/-- `exam_sessions.monitoring`: what the browser last reported about itself, and when. -/
structure SessionMonitoring where
  state : MonitoringState
  faces : Nat
  openTypes : List EventType
  cameraState : Option String
  visible : Option Bool
  fullscreen : Option Bool
  atMs : Int
  deriving DecidableEq

/-! ## The session row -/

structure ExamSession where
  status : SessionStatus := .invited
  endReason : Option SessionEndReason := none
  accommodations : Option SessionAccommodations := none
  /-- Policy snapshot taken when the exam starts (`none` = use the exam's policy). -/
  policy : Option ProctoringPolicy := none
  durationMs : Int
  usedMs : Int := 0
  runningSince : Option Int := none
  currentQuestionIndex : Nat := 0
  consentAcceptedAt : Option Int := none
  consentNoticeVersion : Option NoticeVersion := none
  /-- Browser instance currently in control (latest to start a check). -/
  activeInstanceId : Option InstanceId := none
  /-- Browser instance that passed the latest check. -/
  verifiedInstanceId : Option InstanceId := none
  lastHeartbeatAt : Option Int := none
  lastHeartbeatInstanceId : Option InstanceId := none
  /-- Last heartbeat from the verified instance. -/
  lastVerifiedHeartbeatAt : Option Int := none
  instanceUsage : Option InstanceUsage := none
  connection : ConnectionStatus := .neverConnected
  reportingInterruptedSince : Option Int := none
  /-- Open `reporting_interrupted` event while offline. -/
  reportingEventId : Option EventId := none
  monitoring : Option SessionMonitoring := none
  identityState : IdentityEngineState := {}
  holdReason : Option HoldReason := none
  holdSince : Option Int := none
  holdMessage : Option String := none
  holdCanReverify : Bool := false
  /-- Status to return to when a hold that did not interrupt an exam is released. -/
  holdPrevStatus : Option SessionStatus := none
  reEnrollAuthorized : Bool := false
  reEnrollAuthorizedBy : Option StaffId := none
  /-- Failed (`retry`) check attempts are counted from this instant. -/
  checkAttemptsResetAt : Option Int := none
  pauseCount : Nat := 0
  startedAt : Option Int := none
  startDeferredSince : Option Int := none
  windowStartsAt : Option Int := none
  windowEndsAt : Option Int := none
  reconnectCount : Nat := 0
  endedAt : Option Int := none
  evidencePurgedAt : Option Int := none
  score : Option SessionScore := none
  createdAt : Int
  updatedAt : Int
  deriving DecidableEq

/-- `sessionClock` (`services/dto.ts`): the exam clock in a session row. -/
def sessionClock (s : ExamSession) : ExamClock where
  durationMs := s.durationMs
  usedMs := s.usedMs
  runningSince := s.runningSince

/-- `remainingMs` (`services/dto.ts`). -/
def remainingMs (s : ExamSession) (now : Int) : Int := clockRemainingMs (sessionClock s) now

/-- `sessionWindow` (`services/dto.ts`): the session's window, `none` when neither bound is set. -/
def sessionWindow (s : ExamSession) : Option SessionWindow :=
  if s.windowStartsAt.isSome ∨ s.windowEndsAt.isSome then
    some ⟨s.windowStartsAt, s.windowEndsAt⟩
  else none

/-! ## Periods -/

/-- `session_periods.meta`, as far as it is set: under which timer behaviour a pause began, and the
check a `resume_check` period belongs to. -/
structure PeriodMeta where
  timerBehavior : Option TimerBehavior := none
  previousStatus : Option SessionStatus := none
  checkId : Option Nat := none
  newInstanceId : Option InstanceId := none
  reportingEventId : Option EventId := none
  endReason : Option SessionEndReason := none
  reopenedAt : Option Int := none
  deriving DecidableEq

/-- Why a period began (`session_periods.reason`). -/
inductive PeriodReason
  | text (s : Option String)
  | hold (r : HoldReason)
  | check (p : CheckPurpose)
  | initialCheck | browserReconnected | holdReleased | gapNotReturned | recovery
  deriving DecidableEq

structure SessionPeriod where
  kind : PeriodKind
  startedAt : Int
  endedAt : Option Int
  reason : PeriodReason := .text none
  metadata : PeriodMeta := {}
  deriving DecidableEq

/-- The period has not ended. -/
def SessionPeriod.isOpen (p : SessionPeriod) : Bool := p.endedAt.isNone

/-- The period closed at `atMs`, or at its start if that is later. -/
def SessionPeriod.closeAt (p : SessionPeriod) (atMs : Int) : SessionPeriod :=
  { p with endedAt := some (max p.startedAt atMs) }

/-- The `observed` column: monitoring was running in this period. -/
def SessionPeriod.observed (p : SessionPeriod) : Bool := decide (p.kind ∈ OBSERVED_PERIOD_KINDS)

/-! ## Events -/

inductive EventStatus
  | open | closed
  deriving DecidableEq

/-- What ended an episode (`details.closedBy`). -/
inductive ClosedBy
  | pause | hold | sessionEnd | heartbeatResumed | reconnected | instanceReplaced
  | browserNotReturned | identityMatch | clearImage | identityConsistent
  | sampleReceived | framesChanging
  deriving DecidableEq

/-- What cut a reported episode short at ingest (`details.endClampedBy`). -/
inductive EndClampedBy
  | unobservedPeriod | instanceReplaced | sessionEnd
  deriving DecidableEq

/-- `events.details`: what the reporter sent (its JSON text), and the keys the server sets over
it. -/
structure EventDetails where
  reported : String := "{}"
  closedBy : Option ClosedBy := none
  endClampedBy : Option EndClampedBy := none
  replacedByInstanceId : Option InstanceId := none
  previousInstanceId : Option InstanceId := none
  newInstanceId : Option InstanceId := none
  purpose : Option CheckPurpose := none

structure EventRow where
  id : EventId
  type : EventType
  source : EventSource
  status : EventStatus
  startedAt : Int
  endedAt : Option Int
  details : EventDetails := {}
  version : Nat := 1
  clientInstanceId : Option InstanceId := none
  firstReceivedAt : Int
  receivedAt : Int
  deliveredLate : Bool := false

/-- The `events` table: the id is its primary key. -/
abbrev EventTable := Table EventRow.id

/-- An id that no stored event has. -/
def EventTable.freshId (t : EventTable) : EventId :=
  ⟨(t.rows.map (·.id.raw)).foldl max 0 + 1⟩

/-- The event was reported by the candidate's browser. -/
def EventRow.fromClient (e : EventRow) : Bool := decide (e.source ∈ CLIENT_EVENT_SOURCES)

/-- The event is still open. -/
def EventRow.isOpen (e : EventRow) : Bool := e.status == .open

/-- The row closed at `atMs`, or at its start if that is later. -/
def EventRow.closeAt (e : EventRow) (atMs : Int) : EventRow :=
  { e with status := .closed, endedAt := some (max e.startedAt atMs) }

/-! ## Commands, checks, references, pause requests -/

inductive CandidateCommand
  | pauseApproved
  | pauseDenied (note : Option String)
  | hold (reason : HoldReason) (since : Int) (message : String) (canReverify : Bool)
  | holdReleased (requiresCheck : Bool)
  | terminated (message : String)
  | submitted (reason : SessionEndReason)
  | requireCheck (purpose : CheckPurpose) (message : String)
  | superseded (message : String)
  deriving DecidableEq

def CandidateCommand.isSuperseded : CandidateCommand → Bool
  | .superseded _ => true
  | _ => false

/-- A command queued for the candidate's browser; without a target it goes to whichever instance
is in control. -/
structure SessionCommand where
  targetInstanceId : Option InstanceId
  command : CandidateCommand
  createdAt : Int
  deliveredAt : Option Int := none

/-- What a browser says about its device (a blank camera label is `none`). -/
structure DeviceInfo where
  cameraLabel : Option String := none
  cameraIdHash : Option String := none
  userAgent : String := ""
  /-- `screen.isExtended`, where the browser can tell. -/
  isExtended : Option Bool := none
  deriving DecidableEq

inductive CheckMode
  | face | attest
  deriving DecidableEq

inductive CheckStatus
  | open | passed | retry | held | failed | expired
  deriving DecidableEq

structure Check where
  id : Nat
  purpose : CheckPurpose
  mode : CheckMode
  clientInstanceId : InstanceId
  device : DeviceInfo
  status : CheckStatus := .open
  issuedAt : Int
  expiresAt : Int
  completedAt : Option Int := none
  /-- `result._meta.qualityOnly`: a retry caused by image quality alone. -/
  qualityOnly : Bool := false
  deriving DecidableEq

structure DeviceRecord where
  atMs : Int
  clientInstanceId : InstanceId
  device : DeviceInfo

structure IdentityReference where
  version : Nat
  checkId : Nat
  active : Bool := true
  authorizedBy : Option StaffId := none
  purgedAt : Option Int := none
  deriving DecidableEq

inductive PauseRequestStatus
  | pending | approved | denied | cancelled
  deriving DecidableEq

structure PauseRequest where
  id : Nat
  requestedAt : Int
  reason : Option String
  status : PauseRequestStatus := .pending
  decidedAt : Option Int := none

end SmartProctoring
