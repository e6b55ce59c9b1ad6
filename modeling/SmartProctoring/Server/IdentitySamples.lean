import SmartProctoring.Server.Accumulator
import SmartProctoring.Server.Operations

/-!
# Mid-exam identity samples

`services/identity-samples.ts`.  The browser takes a burst of frames within half a second and sends
each in a request of its own; the frames are stored as they arrive, and the burst is decided as
*one* sample: by its last frame, or on what arrived once it has timed out, by the next sample or by
the sweeper.  A decided sample is a row of `identity_checks` and feeds the evidence accumulator,
which may put the exam on hold.

What comes before the session is locked (a first look for a replay, the analysis of the image)
changes nothing, so a sample request is its locked part, with any analysis and at any later time.
How images are compared is a parameter, the `SampleEnv`; `κ` is what is kept of the analysis of an
image and `ε` an embedding.  The images that are stored, the context and the texts of a decision are
left out.
-/

set_option autoImplicit false

namespace SmartProctoring

/-! ## The tables -/

/-- The id a browser gives to a sample, or to one frame of a burst. -/
structure FrameId where
  raw : Nat
  deriving DecidableEq

/-- `identity_checks.sample_id`: a browser's id, or one made of the burst's. -/
inductive SampleKey
  | frame (id : FrameId) | burst (id : BurstId)
  deriving DecidableEq

/-- How much of a burst has arrived. -/
structure BurstProgress where
  id : BurstId
  received : Nat
  size : Nat
  complete : Bool := true

/-- What is stored for the replay of a sample. -/
structure StoredResponse where
  followUpInMs : Option Int := none
  nextSampleInMs : Option Int := none
  burst : Option BurstProgress := none

/-- A frame of a burst: `identity_sample_frames`. -/
structure IdentitySampleFrame (κ ε : Type) where
  sampleId : FrameId
  burstId : BurstId
  burstIndex : Nat
  burstSize : Nat
  trigger : IdentityCheckTrigger
  capturedAt : Int
  receivedAt : Int
  analysis : κ
  decision : IdentityDecision
  /-- Absent once the burst was decided or dropped. -/
  embedding : Option ε
  /-- The burst's decision. -/
  identityCheckId : Option SampleId := none
  clientInstanceId : InstanceId
  response : StoredResponse := {}

/-- A decided sample: `identity_checks`. -/
structure IdentityCheck where
  id : SampleId
  sampleId : SampleKey
  trigger : IdentityCheckTrigger
  decision : IdentityDecision
  atMs : Int
  receivedAt : Int
  dhash : Option Dhash
  clientInstanceId : Option InstanceId
  /-- `context.burst`. -/
  burst : Option BurstProgress
  /-- `context.recordOnly`: stored, but no evidence. -/
  recordOnly : Bool
  response : StoredResponse := {}

/-- A locked session with its samples.  `contributed` and `contributedFrames` are no columns: they
list the decided samples that were given to the accumulator, and the frames these rest on. -/
structure SampleMutation (κ ε : Type) where
  m : SessionMutation
  frames : List (IdentitySampleFrame κ ε) := []
  identityChecks : List IdentityCheck := []
  contributed : List SampleId := []
  contributedFrames : List FrameId := []

/-! ## How images are judged -/

/-- The comparison with the reference that was loaded, and the deployment's second opinion. -/
structure SampleEnv (κ ε : Type) where
  frameEvidence : κ → Option ε → IdentityCheckTrigger → IdentityEngineState → FrameEvidence
  /-- The evidence of several frames together, and which of them stands for the burst. -/
  aggregateBurst :
    List (κ × Option ε) → IdentityCheckTrigger → IdentityEngineState → FrameEvidence × Nat
  sampleLabel : List (κ × Option ε) → FrameEvidence → IdentityDecision
  dhash : κ → Option Dhash
  secondOpinionApplies : Bool := false
  secondOpinionPendingMs : Int := 15000
  /-- The internal evidence, of this sum, counts as borderline. -/
  borderline : ℚ → Bool := fun _ => false
  /-- A busy queue spaces routine samples out. -/
  spaceOut : Int → Int := id

/-! ## From evidence to events -/

/-- An incomplete burst is decided on the frames received this long after its first frame. -/
def BURST_TIMEOUT_MS : Int := 3000

def UNVERIFIABLE_AFTER : Nat := 3
def IDENTICAL_SAMPLES_SUSPECT : Nat := 3

/-- Frame embeddings of bursts that were never decided are erased after this long. -/
def ORPHAN_FRAME_MS : Int := 30000

/-- A sample captured this long before it arrived is recorded only. -/
def LATE_SAMPLE_MS : Int := 2 * 60000

/-- Captures up to this long before the period began still belong to it. -/
def PERIOD_CLOCK_TOLERANCE_MS : Int := 5000

def SECOND_OPINION_VETO_MS : Int := 5 * 60000

/-- Captured before the current active period began, or long before it arrived. -/
def lateSample (capturedAt receivedAt : Int) (periodStart : Option Int) : Bool :=
  periodStart.any (fun start => decide (capturedAt < start - PERIOD_CLOCK_TOLERANCE_MS)) ||
    decide (LATE_SAMPLE_MS < receivedAt - capturedAt)

/-- The window is suspect only because of poor-quality samples. -/
def poorLightSuspect (acc : EvidenceAccumulator) : Bool :=
  acc.state == .suspect && acc.window.any (·.poorPositive) &&
    decide (windowSum (acc.window.filter fun e => !e.poorPositive) < CALIBRATION.sprtSuspect)

/-- Close the observation an identity-state field points at. -/
def SessionMutation.closeObservation (m : SessionMutation) (id : Option EventId) (atMs : Int)
    (reason : ClosedBy) : SessionMutation :=
  match id with
  | some id => m.closeEvent id atMs reason
  | none => m

/-- A sample satisfies the server's request for one, and ends the observation that none came. -/
def noteSampleReceived (m : SessionMutation) (row : IdentityCheck) : SessionMutation :=
  let m := m.closeObservation m.session.identityState.openNoSamplesEventId row.atMs .sampleReceived
  m.setIdentityState
    { m.session.identityState with
      sampleRequest := m.session.identityState.sampleRequest.filter fun r =>
        decide (row.receivedAt < r.since)
      openNoSamplesEventId := none }

/-- Identical frames across samples taken seconds apart: a suspect camera feed. -/
def noteFeed (m : SessionMutation) (row : IdentityCheck) : SessionMutation :=
  let st := m.session.identityState
  let identical := row.dhash.isSome && st.lastSampleDhash == row.dhash
  let streak := if identical then max 2 (st.identicalDhashStreak + 1) else 1
  let st := { st with identicalDhashStreak := streak, lastSampleDhash := row.dhash }
  if m.policy.detection.cameraIntegrity = true ∧ IDENTICAL_SAMPLES_SUSPECT ≤ streak then
    match st.openFeedSuspectEventId with
    | some _ => m.setIdentityState st
    | none =>
      (m.addEvent
        { type := .cameraFeedSuspect
          source := some .serverIdentity
          startedAt := some row.atMs
          isOpen := true }).setIdentityState
        { st with openFeedSuspectEventId := some m.nextEventId }
  else if identical then m.setIdentityState st
  else
    (m.closeObservation st.openFeedSuspectEventId row.atMs .framesChanging).setIdentityState
      { st with openFeedSuspectEventId := none }

/-- The sample's place in the evidence. -/
def addEvidence (m : SessionMutation) (row : IdentityCheck) (fe : FrameEvidence) :
    SessionMutation × AccumulateResult :=
  let st := m.session.identityState
  let res := accumulate st.evidence
    { id := row.id, atMs := row.atMs, trigger := row.trigger, evidence := fe }
  (m.setIdentityState
    { st with
      evidence := res.acc
      lastMatchAt := if row.decision = .match then some row.atMs else st.lastMatchAt }, res)

/-- Open the observation that the candidate could not be verified, unless it is open. -/
def openUnverifiable (m : SessionMutation) (atMs : Int) : SessionMutation :=
  match m.session.identityState.openUnverifiableEventId with
  | some _ => m
  | none =>
    (m.addEvent
      { type := .identityUnverifiable
        source := some .serverIdentity
        startedAt := some atMs
        isOpen := true }).setIdentityState
      { m.session.identityState with openUnverifiableEventId := some m.nextEventId }

/-- Samples without a usable face image, a few in a row, are an observation of their own; the next
clear image ends it. -/
def noteUsable (m : SessionMutation) (row : IdentityCheck) (fe : FrameEvidence)
    (acc : EvidenceAccumulator) : SessionMutation :=
  let st := m.session.identityState
  if !fe.usable then
    if UNVERIFIABLE_AFTER ≤ acc.unusableStreak then openUnverifiable m row.atMs else m
  else if row.decision = .match ∨ row.decision = .mismatch then
    (m.closeObservation st.openUnverifiableEventId row.atMs
      (if row.decision = .match then .identityMatch else .clearImage)).setIdentityState
      { st with openUnverifiableEventId := none }
  else m

inductive SwapGate
  | proceed | request | pending | vetoed
  deriving DecidableEq

/-- What to do when the accumulator is about to confirm a possible different person. -/
def swapGate {κ ε : Type} (env : SampleEnv κ ε) (st : IdentityEngineState) (now : Int) : SwapGate :=
  if !env.secondOpinionApplies then .proceed
  else if st.secondOpinionVeto.any fun v => decide (now < v.untilMs) then
    if env.borderline (windowSum st.evidence.window) then .vetoed else .proceed
  else if st.secondOpinionPending.any fun p =>
      decide (now - p.since < env.secondOpinionPendingMs) then .pending
  else .request

/-- A possible different person: recorded, and under policy `hold_for_review` the exam is held (the
second component says so). -/
def confirmMismatch (m : SessionMutation) (startedAt : Int) :
    Except HttpError (SessionMutation × Bool) := do
  let m := (m.addEvent
    { type := .identityMismatch
      source := some .serverIdentity
      startedAt := some startedAt
      isOpen := true }).setIdentityState
    { m.session.identityState with
      openMismatchEventId := some m.nextEventId
      followUpRequestedAt := none }
  if m.policy.identity.onMismatch = .holdForReview then
    return (← holdNow m { reason := .identityMismatch, source := .serverIdentity }, true)
  else return (m, false)

/-- When the evidence of a mismatch began. -/
def mismatchStart (window : List EvidenceEntry) (atMs : Int) : Int :=
  let contributing := window.filter fun e => decide (0 < e.llr)
  let from' := if contributing.isEmpty then window else contributing
  (from'.map (·.atMs)).foldl min atMs

/-- Not confirmed yet, or held off: the evidence stays suspect. -/
def stayedSuspect (acc : EvidenceAccumulator) : EvidenceAccumulator :=
  { acc with state := .suspect, confirmedAt := none, clearStreak := 0 }

/-- What the evidence says about a different person; whether the exam is held for it. -/
def judgeSwap {κ ε : Type} (m : SessionMutation) (env : SampleEnv κ ε) (row : IdentityCheck)
    (res : AccumulateResult) : Except HttpError (SessionMutation × Bool) :=
  let st := m.session.identityState
  match st.openMismatchEventId with
  | none =>
    if res.transition = .confirmed then
      match swapGate env st m.now with
      | .proceed => confirmMismatch m (mismatchStart res.acc.window row.atMs)
      | .pending =>
        .ok (m.setIdentityState { st with evidence := stayedSuspect st.evidence }, false)
      | .request =>
        let m := m.setIdentityState
          { st with
            evidence := stayedSuspect st.evidence
            secondOpinionPending := some ⟨row.id, m.now⟩ }
        .ok (m, false)
      | .vetoed =>
        let acc := stayedSuspect st.evidence
        let m := m.setIdentityState
          { st with evidence := { acc with window := acc.window.drop (acc.window.length - 1) } }
        .ok (openUnverifiable m row.atMs, false)
    else .ok (m, false)
  | some _ =>
    if res.transition = .recovered then
      let m := m.closeObservation st.openMismatchEventId row.atMs .identityConsistent
      .ok (m.setIdentityState { st with openMismatchEventId := none }, false)
    else .ok (m, false)

/-- When the browser is to take its next sample. -/
structure Cadence where
  followUpInMs : Option Int
  nextSampleInMs : Option Int

def tellCadence {κ ε : Type} (m : SessionMutation) (env : SampleEnv κ ε) :
    SessionMutation × Cadence :=
  let st := m.session.identityState
  let base := nextSampleDelayMs m.policy.identity st.activeSince st.evidence m.now
  let routine := st.evidence.state == .consistent && st.evidence.unusableStreak == 0
  let next := if routine then env.spaceOut base else base
  let followUp := if routine && st.openMismatchEventId.isNone then none else some next
  (m.setIdentityState
    { st with cadenceMs := some next, followUpRequestedAt := followUp.map fun _ => m.now },
    { followUpInMs := followUp, nextSampleInMs := some next })

/-- A decided sample feeds the session's evidence. -/
def applyEvidence {κ ε : Type} (m : SessionMutation) (env : SampleEnv κ ε) (row : IdentityCheck)
    (fe : FrameEvidence) : Except HttpError (SessionMutation × Cadence) := do
  let m := noteFeed (noteSampleReceived m row) row
  let (m, res) := addEvidence m row fe
  let m := noteUsable m row fe res.acc
  let (m, held) ← judgeSwap m env row res
  -- on hold: sampling stops
  if held then return (m, ⟨none, none⟩)
  let st := m.session.identityState
  let m := if poorLightSuspect st.evidence && st.openMismatchEventId.isNone then
    openUnverifiable m row.atMs else m
  return tellCadence m env

/-! ## Deciding samples -/

/-- One frame of a sample that is decided. -/
structure SampleFrameInput (κ ε : Type) where
  /-- The frame's row, or the sample itself when it is a single frame. -/
  sampleId : FrameId
  analysis : κ
  embedding : Option ε
  evidence : FrameEvidence
  capturedAt : Int

structure DecideInput (κ ε : Type) where
  sampleId : SampleKey
  trigger : IdentityCheckTrigger
  atMs : Int
  recordOnly : Bool
  frames : List (SampleFrameInput κ ε)
  burst : Option BurstProgress

/-- The answer to a sample. -/
structure SampleAnswer where
  result : IdentityDecision
  status : SessionStatus
  response : StoredResponse

variable {κ ε : Type}

/-- The sample's evidence, one burst being one sample; and the frame that stands for it. -/
def sampleEvidence (env : SampleEnv κ ε) (d : DecideInput κ ε) (st : IdentityEngineState) :
    FrameEvidence × Nat :=
  match d.frames with
  | [] => (⟨false, none, 0⟩, 0)
  | [f] => (f.evidence, 0)
  | fs => env.aggregateBurst (fs.map fun f => (f.analysis, f.embedding)) d.trigger st

/-- The row of a decided sample. -/
def decidedRow (t : SampleMutation κ ε) (env : SampleEnv κ ε) (d : DecideInput κ ε) :
    IdentityCheck :=
  let (fe, rep) := sampleEvidence env d t.m.session.identityState
  { id := ⟨t.identityChecks.length⟩
    sampleId := d.sampleId
    trigger := d.trigger
    decision := env.sampleLabel (d.frames.map fun f => (f.analysis, f.embedding)) fe
    atMs := d.atMs
    receivedAt := t.m.now
    dhash := d.frames[rep]?.bind fun f => env.dhash f.analysis
    clientInstanceId := t.m.session.activeInstanceId
    burst := d.burst
    recordOnly := d.recordOnly }

/-- Decide a sample: its row is stored with the answer, and unless it is only recorded it feeds the
evidence. -/
def decideSample (t : SampleMutation κ ε) (env : SampleEnv κ ε) (d : DecideInput κ ε) :
    Except HttpError (SampleMutation κ ε × IdentityCheck) := do
  let row := decidedRow t env d
  if d.recordOnly then
    let row := { row with response := { burst := d.burst } }
    return ({ t with identityChecks := t.identityChecks ++ [row] }, row)
  else
    let fe := (sampleEvidence env d t.m.session.identityState).1
    let (m, cadence) ← applyEvidence t.m env row fe
    let row := { row with
      response :=
        { followUpInMs := cadence.followUpInMs
          nextSampleInMs := cadence.nextSampleInMs
          burst := d.burst } }
    return ({ t with
      m
      identityChecks := t.identityChecks ++ [row]
      contributed := t.contributed ++ [row.id]
      contributedFrames := t.contributedFrames ++ d.frames.map (·.sampleId) }, row)

def SampleMutation.answer (t : SampleMutation κ ε) (row : IdentityCheck) : SampleAnswer :=
  { result := row.decision, status := t.m.session.status, response := row.response }

/-- The frames of a burst that no decision has used. -/
def undecidedFrames (t : SampleMutation κ ε) (burstId : BurstId) :
    List (IdentitySampleFrame κ ε) :=
  (t.frames.filter fun f => f.burstId == burstId &&
    f.identityCheckId.isNone).insertionSort fun f g =>
    f.burstIndex < g.burstIndex ∨ f.burstIndex = g.burstIndex ∧ f.receivedAt ≤ g.receivedAt

/-- `Math.round(median(..))` of the capture times. -/
def medianMs (times : List Int) : Int :=
  let s := times.insertionSort (· ≤ ·)
  let k := s.length / 2
  if s.length % 2 = 1 then s.getD k 0 else (s.getD (k - 1) 0 + s.getD k 0 + 1) / 2

/-- The frames of the burst belong to its decision; their embeddings are no longer needed. -/
def markDecided (frames : List (IdentitySampleFrame κ ε)) (burstId : BurstId)
    (row : IdentityCheck) : List (IdentitySampleFrame κ ε) :=
  frames.map fun f =>
    if f.burstId = burstId ∧ f.identityCheckId = none then
      { f with
        identityCheckId := some row.id
        embedding := none
        response := if row.sampleId = .frame f.sampleId then row.response else f.response }
    else f

/-- What the decision of a burst is about. -/
def burstInput (t : SampleMutation κ ε) (env : SampleEnv κ ε) (pending : PendingBurst)
    (completing : Option FrameId) (recordOnly : Bool) : DecideInput κ ε :=
  let rows := undecidedFrames t pending.id
  { sampleId := completing.elim (.burst pending.id) .frame
    trigger := pending.trigger
    atMs := if rows.isEmpty then t.m.now else medianMs (rows.map (·.capturedAt))
    recordOnly
    frames := rows.map fun f =>
      { sampleId := f.sampleId
        analysis := f.analysis
        embedding := f.embedding
        evidence := env.frameEvidence f.analysis f.embedding f.trigger t.m.session.identityState
        capturedAt := f.capturedAt }
    burst := some { id := pending.id, received := pending.indexes.length, size := pending.size } }

def SampleMutation.setPending (t : SampleMutation κ ε) (pendingBursts : List PendingBurst) :
    SampleMutation κ ε :=
  { t with m := t.m.setIdentityState { t.m.session.identityState with pendingBursts } }

/-- The burst is no longer pending. -/
def SampleMutation.unpend (t : SampleMutation κ ε) (burstId : BurstId) : SampleMutation κ ε :=
  t.setPending (t.m.session.identityState.pendingBursts.filter fun b => decide (b.id ≠ burstId))

/-- Decide a burst on the frames received, as one sample. -/
def decideBurst (t : SampleMutation κ ε) (env : SampleEnv κ ε) (pending : PendingBurst)
    (completing : Option FrameId) (recordOnly : Bool) :
    Except HttpError (SampleMutation κ ε × IdentityCheck) := do
  let d := burstInput t env pending completing recordOnly
  let (t, row) ← decideSample (t.unpend pending.id) env d
  return ({ t with frames := markDecided t.frames pending.id row }, row)

/-- The bursts whose first frame arrived too long ago. -/
def staleBursts (t : SampleMutation κ ε) (except : Option BurstId) : List PendingBurst :=
  t.m.session.identityState.pendingBursts.filter fun b =>
    decide (some b.id ≠ except) && decide (BURST_TIMEOUT_MS ≤ t.m.now - b.firstReceivedAt)

/-- Decide stale bursts on what arrived; once the exam is on hold, the others are dropped. -/
def decideStaleBursts (t : SampleMutation κ ε) (env : SampleEnv κ ε) (except : Option BurstId) :
    Except HttpError (SampleMutation κ ε) :=
  (staleBursts t except).foldlM (fun t b =>
    if t.m.session.status ≠ .active then .ok t
    else (·.1) <$> decideBurst t env b none false) t

/-- The embeddings of undecided frames that `sel` selects are erased. -/
def eraseEmbeddings (sel : IdentitySampleFrame κ ε → Bool)
    (frames : List (IdentitySampleFrame κ ε)) : List (IdentitySampleFrame κ ε) :=
  frames.map fun f => if f.identityCheckId = none ∧ sel f then { f with embedding := none } else f

/-- Old frames of bursts that are not being collected. -/
def isOrphan (pending : List PendingBurst) (now : Int) (f : IdentitySampleFrame κ ε) : Bool :=
  decide (f.receivedAt < now - ORPHAN_FRAME_MS) && pending.all fun b => decide (b.id ≠ f.burstId)

/-! ## A sample arrives -/

structure SampleInput where
  sampleId : FrameId
  trigger : IdentityCheckTrigger
  /-- Absent when it is no finite number. -/
  capturedAt : Option Int
  burstId : Option BurstId := none
  burstIndex : Option Int := none
  burstSize : Option Int := none

/-- An image as it was analysed before the lock. -/
structure AnalysedImage (κ ε : Type) where
  analysis : κ
  embedding : Option ε

/-- The stored answer to a sample that was received before. -/
def findExisting (t : SampleMutation κ ε) (sampleId : FrameId) : Option SampleAnswer :=
  match t.identityChecks.find? fun c => c.sampleId == .frame sampleId with
  | some c => some (t.answer c)
  | none =>
    (t.frames.find? fun f => f.sampleId == sampleId).map fun f =>
      { result := f.decision, status := t.m.session.status, response := f.response }

/-- Whether a sample is only recorded: it was captured before the pause or hold, before the current
active period, or long before it arrived.  Others are refused (409) unless the exam is active. -/
def recordsOnly (m : SessionMutation) (atMs : Int) : Except HttpError Bool :=
  let period := m.openPeriodRow
  if m.session.status ≠ .active then
    if period.any fun p => decide (p.kind ∈ UNOBSERVED_KINDS) && decide (atMs < p.startedAt) then
      .ok true
    else .error (invalidState "The exam is not active")
  else
    let start := m.session.identityState.activeSince.orElse fun _ =>
      (period.filter fun p => p.kind == .active).map (·.startedAt)
    .ok (lateSample atMs m.now start)

/-- The client is sending: the watchdog measures silence from here. -/
def noteHeard (m : SessionMutation) : SessionMutation :=
  if m.session.status = .active then
    m.setIdentityState { m.session.identityState with lastSampleReceivedAt := some m.now }
  else m

/-- The frame joins its burst, which begins with it if it is not being collected yet. -/
def joinBurst (st : IdentityEngineState) (now : Int) (burstId : BurstId) (size index : Nat)
    (trigger : IdentityCheckTrigger) : PendingBurst :=
  let pending := (st.pendingBursts.find? fun b => b.id == burstId).getD
    { id := burstId, size, trigger, firstReceivedAt := now, indexes := [] }
  if index ∈ pending.indexes then pending
  else { pending with indexes := (pending.indexes ++ [index]).insertionSort (· ≤ ·) }

def SampleMutation.pend (t : SampleMutation κ ε) (pending : PendingBurst) : SampleMutation κ ε :=
  let bursts := t.m.session.identityState.pendingBursts
  t.setPending
    (if bursts.any fun b => b.id == pending.id then
      bursts.map fun b => if b.id = pending.id then pending else b
    else bursts ++ [pending])

/-- A frame of a burst: stored; with the last frame, the burst is decided. -/
def receiveFrame (t : SampleMutation κ ε) (env : SampleEnv κ ε) (instanceId : InstanceId)
    (q : SampleInput) (image : AnalysedImage κ ε) (atMs : Int) (recordOnly : Bool)
    (burstId : BurstId) : Except HttpError (SampleMutation κ ε × SampleAnswer) := do
  let st := t.m.session.identityState
  let fe := env.frameEvidence image.analysis image.embedding q.trigger st
  let size := (max 1 (min 5 (q.burstSize.getD 1))).toNat
  let index := (max 0 (min (size - 1 : Int) (q.burstIndex.getD 0))).toNat
  let isPending := st.pendingBursts.any fun b => b.id == burstId
  let late := !isPending && (recordOnly || t.frames.any fun f => f.burstId == burstId)
  let frame : IdentitySampleFrame κ ε :=
    { sampleId := q.sampleId
      burstId
      burstIndex := index
      burstSize := size
      trigger := q.trigger
      capturedAt := atMs
      receivedAt := t.m.now
      analysis := image.analysis
      decision := env.sampleLabel [(image.analysis, image.embedding)] fe
      embedding := if late then none else image.embedding
      clientInstanceId := instanceId }
  let store (response : StoredResponse) : SampleMutation κ ε × SampleAnswer :=
    ({ t with frames := t.frames ++ [{ frame with response }] },
      { result := frame.decision, status := t.m.session.status, response })
  if late then
    -- a burst that was already decided, or belongs to a period that ended: no effect
    return store { burst := some { id := burstId, received := 1, size } }
  else
    let pending := joinBurst st t.m.now burstId size index q.trigger
    let (t, answer) := store
      { burst := some { id := burstId, received := pending.indexes.length, size := pending.size,
                        complete := false } }
    let t := t.pend pending
    if pending.size ≤ pending.indexes.length then
      let (t, row) ← decideBurst t env pending (some q.sampleId) recordOnly
      return (t, t.answer row)
    else return (t, answer)

/-- The locked part of `processSample`. -/
def processSample (t : SampleMutation κ ε) (env : SampleEnv κ ε) (instanceId : InstanceId)
    (q : SampleInput) (image : AnalysedImage κ ε) :
    Except HttpError (SampleMutation κ ε × SampleAnswer) := do
  match findExisting t q.sampleId with
  | some answer => return (t, answer)
  | none =>
    assertInControl t.m.session instanceId
    let atMs := min (q.capturedAt.getD t.m.now) (t.m.now + 5000)
    let recordOnly ← recordsOnly t.m atMs
    let burstId := q.burstId.filter fun _ => decide (1 < q.burstSize.getD 1)
    -- bursts whose remaining frames never came are decided on what arrived, which may hold the exam
    let t ← decideStaleBursts { t with m := noteHeard t.m } env burstId
    let t := { t with
      frames := eraseEmbeddings (isOrphan t.m.session.identityState.pendingBursts t.m.now) t.frames }
    let recordOnly := recordOnly || decide (t.m.session.status ≠ .active)
    match burstId with
    | some burstId => receiveFrame t env instanceId q image atMs recordOnly burstId
    | none =>
      let st := t.m.session.identityState
      let (t, row) ← decideSample t env
        { sampleId := .frame q.sampleId
          trigger := q.trigger
          atMs
          recordOnly
          frames := [⟨q.sampleId, image.analysis, image.embedding,
            env.frameEvidence image.analysis image.embedding q.trigger st, atMs⟩]
          burst := none }
      return (t, t.answer row)

/-! ## The sweeper and the second opinion -/

/-- `decideStaleBurstsForAll` for one session, by a sweep that began at `sweptAt`; `env` is absent
when it has no active reference. -/
def sweepBursts (t : SampleMutation κ ε) (sweptAt : Int) (env : Option (SampleEnv κ ε)) :
    Except HttpError (SampleMutation κ ε) :=
  let due := t.m.session.identityState.pendingBursts.any fun b =>
    decide (BURST_TIMEOUT_MS ≤ sweptAt - b.firstReceivedAt)
  if t.m.session.status ≠ .active ∨ due = false then .ok t
  else
    match env with
    | none => .ok { t with m := t.m.dropPendingBursts }
    | some env => decideStaleBursts t env none

/-- `eraseOrphanFrameEmbeddingsForAll` for one session. -/
def eraseOrphans (t : SampleMutation κ ε) (now : Int) : SampleMutation κ ε :=
  let pending := if t.m.session.status = .active then t.m.session.identityState.pendingBursts
    else []
  { t with frames := eraseEmbeddings (isOrphan pending now) t.frames }

/-- The locked part of `resolveSwapSecondOpinion`: the fused result of a second opinion (a mismatch,
or not) about the evidence that a check completed. -/
def resolveSwapSecondOpinion (m : SessionMutation) (row : IdentityCheck) (mismatch : Bool) :
    Except HttpError SessionMutation :=
  let st := m.session.identityState
  if st.secondOpinionPending.map (·.checkId) ≠ some row.id then .ok m
  else
    let m := m.setIdentityState { st with secondOpinionPending := none }
    let st := m.session.identityState
    if m.session.status ≠ .active ∨ st.openMismatchEventId.isSome ∨
        windowSum st.evidence.window < CALIBRATION.sprtConfirm then .ok m
    else if mismatch then
      let m := m.setIdentityState
        { st with
          evidence := { st.evidence with
            state := .confirmedMismatch, confirmedAt := some m.now, clearStreak := 0 } }
      (·.1) <$> confirmMismatch m (mismatchStart st.evidence.window row.atMs)
    else
      let m := m.setIdentityState
        { st with
          secondOpinionVeto := some ⟨row.id, m.now + SECOND_OPINION_VETO_MS⟩
          evidence := { st.evidence with
            state := .monitoring, window := [], confirmedAt := none, clearStreak := 0 } }
      .ok (openUnverifiable m row.atMs)

/-! ## Runs -/

/-- One transaction on a session and its samples. -/
inductive SampleOp (κ ε : Type)
  /-- Any other request of the session. -/
  | request (op : Op)
  | sample (env : SampleEnv κ ε) (instanceId : InstanceId) (q : SampleInput)
      (image : AnalysedImage κ ε)
  | sweep (sweptAt : Int) (env : Option (SampleEnv κ ε))
  | secondOpinion (checkId : SampleId) (mismatch : Bool)
  | eraseOrphans

/-- One operation, in a transaction. -/
def SampleOp.run (t : SampleMutation κ ε) : SampleOp κ ε → Except HttpError (SampleMutation κ ε)
  | request op => (fun m => { t with m }) <$> op.run t.m
  | sample env i q image => (·.1) <$> processSample t env i q image
  | sweep sweptAt env => sweepBursts t sweptAt env
  | secondOpinion checkId mismatch =>
    match t.identityChecks.find? (·.id == checkId) with
    | some row => (fun m => { t with m }) <$> resolveSwapSecondOpinion t.m row mismatch
    | none => .ok t
  | eraseOrphans => .ok (SmartProctoring.eraseOrphans t t.m.now)

/-- `flush`: the frame embeddings of bursts that will never be decided are erased with the change
that dropped them. -/
def SampleMutation.flush (before after : SampleMutation κ ε) : SampleMutation κ ε :=
  { after with
    m := before.m.flush after.m
    frames := eraseEmbeddings (fun f =>
      after.m.eraseAllUndecidedFrames || decide (f.burstId ∈ after.m.droppedBurstIds)) after.frames }

structure SampleTransaction (κ ε : Type) where
  now : Int
  examPolicy : ProctoringPolicy
  op : SampleOp κ ε

def SampleMutation.lock (t : SampleMutation κ ε) (r : SampleTransaction κ ε) : SampleMutation κ ε :=
  { t with m := t.m.lockAt r.now r.examPolicy }

/-- `withSession`: a refused operation is rolled back. -/
def sampleStep (r : SampleTransaction κ ε) (t : SampleMutation κ ε) : SampleMutation κ ε :=
  let t := t.lock r
  match r.op.run t with
  | .ok t' => t.flush t'
  | .error _ => t

/-- Sessions and their samples under transactions at non-decreasing server times. -/
def sampling (κ ε : Type) : Machine (SampleMutation κ ε) (SampleTransaction κ ε) where
  init t := ∃ m, sessionMachine.init m ∧ t = { m }
  step := sampleStep
  enabled r t := t.m.now ≤ r.now

end SmartProctoring
