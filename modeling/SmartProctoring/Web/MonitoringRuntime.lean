import SmartProctoring.Web.BurstSampler
import SmartProctoring.Web.RecordingQueue

/-!
# The monitoring runtime

`MonitoringRuntime` of `monitoring/runtime.ts` from `start` to `stop`.  What runs between two awaits
is one step.  The detection engine, the tracker of the browser's signals and the vision models are
outside: what episodes they give, and whether the models load, are part of an event.  So is the
camera, of which the runtime only asks whether it is wanted.  An episode is the flag whether a
snapshot is taken with it; `errorOf` says what error the send of a frame fails with, if it fails (a
frame is sent once).
-/

set_option autoImplicit false

namespace SmartProctoring

/-- `cameraOn` and `identitySampling` follow from the policy; `environmentChanged`: the baselines
differ. -/
structure RuntimeConfig where
  cameraOn : Bool
  identitySampling : Bool
  environmentChanged : Bool
  sizes : SamplerSizes

/-- What is put into the outbox. -/
inductive OutboxPut
  | environment
  | episode (id : Nat)
  | evidence (episode : Nat)
  | degradedOpen (id : Nat)
  | degradedClose (id : Nat)
  | sample (sampleId : Nat)

/-- What `start` waits for. -/
inductive StartPhase
  | notStarted
  | environment
  | loading
  /-- The report that the models failed to load. -/
  | reportingLoad
  /-- The report that a model is missing. -/
  | reporting
  | settled
  deriving DecidableEq

/-- What `stop` waits for. -/
inductive StopPhase
  | notStopped
  | closing
  | writing (writes : List Nat)
  | returned
  | rejected
  deriving DecidableEq

/-- What the write of an episode waits for. -/
inductive WritePhase
  | event (shot : Bool)
  | shot
  | evidence

structure PendingWrite where
  id : Nat
  phase : WritePhase

structure MonitoringRuntime where
  config : RuntimeConfig
  running : Bool
  stopped : Bool
  starting : StartPhase
  stopping : StopPhase
  /-- The listeners of the page are attached. -/
  removers : Bool
  unsubCamera : Bool
  loopTimer : Bool
  followUpTimer : Bool
  degraded : Option Nat
  bursts : BurstSampler
  pendingWrites : List PendingWrite
  nextId : Nat
  /-- What was put into the outbox, in order. -/
  outbox : List OutboxPut
  /-- The camera was started after `stop` was called. -/
  lateCamera : Bool

/-- What `sampleSendFailed` does with a frame. -/
def sampleSendFailed : ApiErrorKind → SendFailure
  | .invalidLink => .fatal
  | .superseded => .fatal
  | .client => .dropped
  | .invalidState => .dropped
  | _ => .queued

namespace MonitoringRuntime

section

variable (errorOf : Nat → ApiErrorKind)

/-! ## Parts -/

def pushEpisode (s : MonitoringRuntime) (shot : Bool) : MonitoringRuntime :=
  { s with
    pendingWrites := s.pendingWrites ++ [⟨s.nextId, .event shot⟩]
    outbox := s.outbox ++ [.episode s.nextId]
    nextId := s.nextId + 1 }

def pushEpisodes (s : MonitoringRuntime) (episodes : List Bool) : MonitoringRuntime :=
  episodes.foldl pushEpisode s

/-- The write of an episode goes on.  `ok`: what it waited for has succeeded, the snapshot with an
image. -/
def writeSettles (s : MonitoringRuntime) (k : Nat) (ok : Bool) : MonitoringRuntime :=
  match s.pendingWrites[k]? with
  | none => s
  | some ⟨id, .event true⟩ =>
    if ok then { s with pendingWrites := s.pendingWrites.set k ⟨id, .shot⟩ }
    else { s with pendingWrites := s.pendingWrites.eraseIdx k }
  | some ⟨id, .shot⟩ =>
    if ok then
      { s with pendingWrites := s.pendingWrites.set k ⟨id, .evidence⟩, outbox := s.outbox ++ [.evidence id] }
    else { s with pendingWrites := s.pendingWrites.eraseIdx k }
  | some _ => { s with pendingWrites := s.pendingWrites.eraseIdx k }

def scheduleLoop (s : MonitoringRuntime) : MonitoringRuntime :=
  if s.running then { s with loopTimer := true } else s

def onCamera (s : MonitoringRuntime) (episodes : List Bool) : MonitoringRuntime :=
  if s.running then s.pushEpisodes episodes else s

/-- `reportDegraded`, until its put settles. -/
def reportDegraded (s : MonitoringRuntime) : MonitoringRuntime :=
  if s.degraded.isSome then s
  else
    { s with
      degraded := some s.nextId
      outbox := s.outbox ++ [.degradedOpen s.nextId]
      nextId := s.nextId + 1 }

def closeDegraded (s : MonitoringRuntime) : MonitoringRuntime :=
  match s.degraded with
  | none => s
  | some id => { s with degraded := none, outbox := s.outbox ++ [.degradedClose id] }

/-- The failed frames that were handed to `sampleSendFailed` and are kept for later. -/
def samplesKept (old new : BurstSampler) : List OutboxPut :=
  ((new.log.sendFailed.drop old.log.sendFailed.length).filter fun f =>
    decide (sampleSendFailed (errorOf f.sampleId) = .queued)).map fun f => .sample f.sampleId

/-- The sampler takes a step. -/
def sampler (s : MonitoringRuntime) (now : Int) (e : BurstSampler.Event) : MonitoringRuntime :=
  let bursts := { s.bursts.act now e with clock := now }
  { s with bursts, outbox := s.outbox ++ samplesKept errorOf s.bursts bursts }

/-! ## Start and stop -/

/-- The part of `start` behind the comparison of the environment.  `wanted`: the camera is wanted
already. -/
def observe (s : MonitoringRuntime) (now : Int) (wanted : Bool) (page camera : List Bool) :
    MonitoringRuntime :=
  let s := { s with removers := true }.pushEpisodes page
  if !s.config.cameraOn then { s.scheduleLoop with starting := .settled }
  else
    let s := if s.config.identitySampling then s.sampler errorOf now (.request .examStart .host)
      else s
    { { s with unsubCamera := true, lateCamera := s.lateCamera ||
      (!wanted && s.stopped) }.onCamera camera with
      starting := .loading }

def start (s : MonitoringRuntime) (now : Int) (wanted : Bool) (page camera : List Bool) :
    MonitoringRuntime :=
  if s.running || s.stopped then s
  else if s.config.environmentChanged then
    { s with running := true, starting := .environment, outbox := s.outbox ++ [.environment] }
  else { s with running := true }.observe errorOf now wanted page camera

/-- The event about the environment was written, or could not be. -/
def environmentSettles (s : MonitoringRuntime) (now : Int) (wanted : Bool)
    (page camera : List Bool) : MonitoringRuntime :=
  if s.starting = .environment then s.observe errorOf now wanted page camera else s

/-- `loadVision` has returned. -/
def visionLoads (s : MonitoringRuntime) (face objects : Bool) : MonitoringRuntime :=
  if s.starting ≠ .loading then s
  else if !s.running then { s with starting := .settled }
  else if !face || !objects then { s.reportDegraded with starting := .reporting }
  else { s.scheduleLoop with starting := .settled }

/-- `loadVision` has failed. -/
def visionFails (s : MonitoringRuntime) : MonitoringRuntime :=
  if s.starting = .loading then { s.reportDegraded with starting := .reportingLoad } else s

/-- `reportDegraded` has returned, or failed. -/
def reportSettles (s : MonitoringRuntime) (ok : Bool) : MonitoringRuntime :=
  if s.starting ≠ .reportingLoad ∧ s.starting ≠ .reporting then s
  else if !ok then { s with starting := .settled }
  else { s.scheduleLoop with starting := .settled }

def stop (s : MonitoringRuntime) (episodes : List Bool) : MonitoringRuntime :=
  if s.stopped then s
  else
    let halted :=
      { s with
        stopped := true
        running := false
        loopTimer := false
        followUpTimer := false
        bursts := s.bursts.stop
        removers := false
        unsubCamera := false }
    if s.running then { (halted.pushEpisodes episodes).closeDegraded with stopping := .closing }
    else { halted with stopping := .returned }

/-- `closeDegraded` has returned, or failed. -/
def closeSettles (s : MonitoringRuntime) (ok : Bool) : MonitoringRuntime :=
  if s.stopping ≠ .closing then s
  else if ok then { s with stopping := .writing (s.pendingWrites.map (·.id)) }
  else { s with stopping := .rejected }

/-- Everything produced so far has landed in the outbox. -/
def writesSettled (s : MonitoringRuntime) : MonitoringRuntime :=
  match s.stopping with
  | .writing ids =>
    if ∀ w ∈ s.pendingWrites, w.id ∉ ids then { s with stopping := .returned } else s
  | _ => s

/-! ## Events -/

def domEvent (s : MonitoringRuntime) (episodes : List Bool) : MonitoringRuntime :=
  if s.removers then s.pushEpisodes episodes else s

def cameraEvent (s : MonitoringRuntime) (episodes : List Bool) : MonitoringRuntime :=
  if s.unsubCamera then s.onCamera episodes else s

def loopFires (s : MonitoringRuntime) (episodes : List Bool) : MonitoringRuntime :=
  if s.loopTimer then ({ s with loopTimer := false }.pushEpisodes episodes).scheduleLoop else s

/-- An answer to a sample.  `followUp`: an older server asks for a follow-up sample. -/
def handleSampleResult (s : MonitoringRuntime) (onHold final followUp : Bool) : MonitoringRuntime :=
  if onHold || !final || !s.running then s
    else { s with followUpTimer := s.followUpTimer || followUp }

def followUpFires (s : MonitoringRuntime) (now : Int) : MonitoringRuntime :=
  if s.followUpTimer then
    let s := { s with followUpTimer := false }
    if s.config.cameraOn && s.config.identitySampling
      then s.sampler errorOf now (.request .followUp .server) else s
  else s

inductive Event
  | start (wanted : Bool) (page camera : List Bool)
  | environmentSettles (wanted : Bool) (page camera : List Bool)
  | visionLoads (face objects : Bool)
  | visionFails
  | reportSettles (ok : Bool)
  | stop (episodes : List Bool)
  | closeSettles (ok : Bool)
  | writesSettled
  | writeSettles (k : Nat) (ok : Bool)
  | dom (episodes : List Bool)
  | camera (episodes : List Bool)
  | loopFires (episodes : List Bool)
  | sampleResult (onHold final followUp : Bool)
  | followUpFires
  | sampler (e : BurstSampler.Event)

def act (s : MonitoringRuntime) (now : Int) : Event → MonitoringRuntime
  | .start wanted page camera => s.start errorOf now wanted page camera
  | .environmentSettles wanted page camera => s.environmentSettles errorOf now wanted page camera
  | .visionLoads face objects => s.visionLoads face objects
  | .visionFails => s.visionFails
  | .reportSettles ok => s.reportSettles ok
  | .stop episodes => s.stop episodes
  | .closeSettles ok => s.closeSettles ok
  | .writesSettled => s.writesSettled
  | .writeSettles k ok => s.writeSettles k ok
  | .dom episodes => s.domEvent episodes
  | .camera episodes => s.cameraEvent episodes
  | .loopFires episodes => s.loopFires episodes
  | .sampleResult onHold final followUp => s.handleSampleResult onHold final followUp
  | .followUpFires => s.followUpFires errorOf now
  | .sampler e => s.sampler errorOf now e

/-- What `sampleSendFailed` does with the frame it got last. -/
def lastFailure (b : BurstSampler) : Option SendFailure :=
  b.log.sendFailed.getLast?.map fun f => sampleSendFailed (errorOf f.sampleId)

def keptOutcome : BurstSampler.Event → Option SendFailure
  | .failureKept outcome => some outcome
  | _ => none

/-- Only the runtime stops its sampler, and a failed frame fares as its error says. -/
def samplerEnabled (b : BurstSampler) (e : BurstSampler.Event) : Prop :=
  e ≠ .stop ∧ ∀ outcome ∈ keptOutcome e, lastFailure errorOf b = some outcome
  deriving Decidable

def samplerEvent : Event → Option BurstSampler.Event
  | .sampler e => some e
  | _ => none

end

/-- A new runtime. -/
def fresh (config : RuntimeConfig) (maxPerWindow : Nat) (windowMs now : Int) : MonitoringRuntime :=
  ⟨config, false, false, .notStarted, .notStopped, false, false, false, false, none,
    BurstSampler.start config.sizes maxPerWindow windowMs now, [], 0, [], false⟩

def machine (errorOf : Nat → ApiErrorKind) : Machine MonitoringRuntime (Int × Event) where
  init s := ∃ config maxPerWindow windowMs now, s = fresh config maxPerWindow windowMs now
  step i s := s.act errorOf i.1 i.2
  enabled i s := s.bursts.clock ≤ i.1 ∧ ∀ e ∈ samplerEvent i.2, samplerEnabled errorOf s.bursts e

instance (errorOf : Nat → ApiErrorKind) (i : Int × Event) (s : MonitoringRuntime) :
    Decidable ((machine errorOf).enabled i s) :=
  inferInstanceAs (Decidable (_ ∧ _))

end MonitoringRuntime

end SmartProctoring
