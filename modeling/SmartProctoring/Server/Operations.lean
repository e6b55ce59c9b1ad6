import SmartProctoring.Lib.Run
import SmartProctoring.Server.Ingest
import SmartProctoring.Server.Sweeper

/-!
# A session as a state machine

Every change to a session runs under its row lock, so a session's history is a sequence of
`Request`s: a server time, the exam's rules at that time, and one operation of the candidate, of
staff, of a check, of the sweeper or of housekeeping.  `sessionStep` runs one request; an operation
that refuses leaves the rows as they were.  `sessionMachine` takes requests at non-decreasing server
times, starting from `createExamSession`.
-/

set_option autoImplicit false

namespace SmartProctoring

/-- One transaction on a session. -/
inductive Op
  -- candidate
  | acceptConsent (bodyVersion noticeVersion : NoticeVersion)
  | enforceReconnectLimits (instanceId : InstanceId)
  | settleSuperseded (mismatch : Nat → Bool)
  | settleExpired (checkId : Nat) (mismatch : Nat → Bool)
  | startCheck (instanceId : InstanceId) (body : StartCheckRequest)
  | completeCheck (instanceId : InstanceId) (checkId : Nat) (requestedAt : Int)
      (j : CheckJudgement)
  | startSession (instanceId : InstanceId) (opts : StartOptions) (admission : StartAdmission)
  | candidateSubmit (instanceId : InstanceId)
  | saveAnswer (instanceId : InstanceId) (questions : List ExamVersionQuestion)
      (questionId : QuestionId) (body : SaveAnswerRequest)
  | requestPause (instanceId : InstanceId) (reason : Option String)
  | cancelPauseRequest (instanceId : InstanceId)
  | heartbeat (instanceId : InstanceId) (body : HeartbeatRequest) (client : Option ClientAddress)
      (loaded : Option LoadedSession)
  | trackInstanceRequest (instanceId : InstanceId) (address : ClientAddress)
  | ingestEvents (policy : ProctoringPolicy) (instanceId : InstanceId) (batch : List EventUpsert)
      (foreign : EventId → Bool)
  | withdrawConsent
  -- identity samples: a late capture is noted, a confirmed mismatch holds the exam
  | lateCapture (capturedAt : Int)
  | holdForSample
  -- staff
  | decidePauseRequest (requestId : Nat) (approve : Bool) (note : Option String)
  | holdSession
  | releaseHold (opts : ReleaseOptions)
  | terminateSession
  | staffSubmit
  | extendSessionTime (minutes : Between 1 1440)
  | reopenSession (req : ReopenRequest)
  | refreshAccommodations (rows : List Accommodation)
  -- sweeper and housekeeping
  | sweepTimeout
  | sweepExpiry
  | sweepStaleChecks (mismatch : Nat → Bool)
  | enforceOfflineLimits
  | closeAbandoned (days : Nat)

/-- A confirmed mismatch of a mid-exam identity sample puts the active exam on hold. -/
def holdForSample (m : SessionMutation) : Except HttpError SessionMutation :=
  if m.session.status = .active then
    holdNow m { reason := .identityMismatch, source := .serverIdentity }
  else .ok m

/-- A request of the verified instance that is not a heartbeat. -/
def trackInstanceRequest (m : SessionMutation) (instanceId : InstanceId)
    (address : ClientAddress) : SessionMutation :=
  applyInstanceUsage m (evaluateInstanceUsage m.session instanceId { address, atMs := m.now })

/-- One operation, in a transaction. -/
def Op.run (m : SessionMutation) : Op → Except HttpError SessionMutation
  | acceptConsent b n => SmartProctoring.acceptConsent m b n
  | enforceReconnectLimits i => (·.1) <$> SmartProctoring.enforceReconnectLimits m i
  | settleSuperseded mismatch => settleAbandonedChecks m (fun _ => true) mismatch
  | settleExpired id mismatch => settleAbandonedChecks m (fun c => c.id == id) mismatch
  | startCheck i body => SmartProctoring.startCheck m i body
  | completeCheck i id at' j => (·.1) <$> SmartProctoring.completeCheck m i id at' j
  | startSession i opts adm => (·.1) <$> SmartProctoring.startSession m i opts adm
  | candidateSubmit i => SmartProctoring.candidateSubmit m i
  | saveAnswer i qs q body => (·.1) <$> SmartProctoring.saveAnswer m i qs q body
  | requestPause i reason => (·.1) <$> SmartProctoring.requestPause m i reason
  | cancelPauseRequest i => SmartProctoring.cancelPauseRequest m i
  | heartbeat i body client loaded =>
    (·.1) <$> SmartProctoring.heartbeat m i body client loaded
  | trackInstanceRequest i address => .ok (SmartProctoring.trackInstanceRequest m i address)
  | ingestEvents p i batch foreign => (·.1) <$> SmartProctoring.ingestEvents m p i batch foreign
  | withdrawConsent => SmartProctoring.withdrawConsent m
  | lateCapture at' => .ok { m with lateCaptures := m.lateCaptures ++ [at'] }
  | holdForSample => SmartProctoring.holdForSample m
  | decidePauseRequest id approve note => SmartProctoring.decidePauseRequest m id approve note
  | holdSession => SmartProctoring.holdSession m
  | releaseHold opts => SmartProctoring.releaseHold m opts
  | terminateSession => SmartProctoring.terminateSession m
  | staffSubmit => SmartProctoring.staffSubmit m
  | extendSessionTime minutes => SmartProctoring.extendSessionTime m minutes
  | reopenSession req => SmartProctoring.reopenSession m req
  | refreshAccommodations rows => .ok (refreshSessionAccommodations m rows)
  | sweepTimeout => .ok (SmartProctoring.sweepTimeout m)
  | sweepExpiry => .ok (SmartProctoring.sweepExpiry m)
  | sweepStaleChecks mismatch => SmartProctoring.sweepStaleChecks m mismatch
  | enforceOfflineLimits => SmartProctoring.enforceOfflineLimits m
  | closeAbandoned days => .ok (closeAbandonedSession m days)

/-- An operation at a server time, under the exam's rules at that time. -/
structure Request where
  now : Int
  examPolicy : ProctoringPolicy
  op : Op

/-- `withSession`: the session as a transaction locks it. -/
def SessionMutation.lockAt (m : SessionMutation) (now : Int) (examPolicy : ProctoringPolicy) :
    SessionMutation :=
  { m with now, examPolicy, droppedBurstIds := [], eraseAllUndecidedFrames := false }

/-- The session as the transaction of a request locks it. -/
def SessionMutation.lock (m : SessionMutation) (r : Request) : SessionMutation :=
  m.lockAt r.now r.examPolicy

/-- `flush`: a session row that was changed gets a new `updated_at`. -/
def SessionMutation.flush (before after : SessionMutation) : SessionMutation :=
  if after.session = before.session then after
  else after.set fun s => { s with updatedAt := after.now }

/-- `withSession`: run one request.  A refused operation is rolled back. -/
def sessionStep (r : Request) (m : SessionMutation) : SessionMutation :=
  let m := m.lock r
  match r.op.run m with
  | .ok m' => m.flush m'
  | .error _ => m

/-- An exam session as it is assigned to a candidate. -/
def createExamSession (now : Int) (examPolicy : ProctoringPolicy) (durationSec : Between 60 86400)
    (records : List Accommodation) (window : Option SessionWindow) : SessionMutation :=
  let acc := sessionSnapshot (applicableAccommodations records now) durationSec.secMs now
  { now
    examPolicy
    session :=
      { durationMs := durationSec.secMs + extraTimeOf acc
        accommodations := acc
        windowStartsAt := window.bind (·.startsAt)
        windowEndsAt := window.bind (·.endsAt)
        createdAt := now
        updatedAt := now } }

/-- Sessions under requests at non-decreasing server times. -/
def sessionMachine : Machine SessionMutation Request where
  init m := ∃ now p d records w, m = createExamSession now p d records w
  step := sessionStep
  enabled r m := m.now ≤ r.now

/-- A run given by its requests. -/
def runRequests (m : SessionMutation) (rs : List Request) : SessionMutation :=
  rs.foldl (fun m r => sessionStep r m) m

/-- The shortest way from a fresh session to an exam in progress: browser `i` accepts the notice,
passes the initial check and starts the exam, in the first four seconds. -/
def startUp (i : InstanceId) (rules : ProctoringPolicy) : List Request :=
  [⟨1000, rules, .acceptConsent .privacy .privacy⟩,
   ⟨2000, rules, .startCheck i { purpose := .initial }⟩,
   ⟨3000, rules, .completeCheck i 0 3000 { policy := rules, reference := some .ok }⟩,
   ⟨4000, rules, .startSession i { versionPolicy := rules } {}⟩]

/-- An exam of one minute in progress since 4000, in browser 1. -/
def startedExam (rules : ProctoringPolicy) : SessionMutation :=
  runRequests (createExamSession 0 rules ⟨60, by decide⟩ [] none) (startUp ⟨1⟩ rules)

end SmartProctoring
