import SmartProctoring.Lib.Slots
import SmartProctoring.Web.MonitoringRuntime

/-!
# Stopping a runtime is final

A runtime is observing, or it is stopped for good: `RunningInv` and `StoppedInv`.  The second is
reached from the first when `stop` falls where `start` does not go on without asking, and then
nothing that happens leaves it.
-/

set_option autoImplicit false

namespace SmartProctoring

open List

/-! ## A stopped sampler -/

namespace BurstSampler

structure Halted (b : BurstSampler) : Prop where
  stopped : b.stopped = true
  burst : b.burst = none
  queue : b.queue = ⟨none⟩
  timers : b.timers = []

variable {b : BurstSampler} {now : Int} {e : Event}

theorem halted_stop (b : BurstSampler) : b.stop.Halted := ⟨rfl, rfl, rfl, rfl⟩

theorem Halted.look (h : b.Halted) : (b.look now).Halted := by
  refine { h with queue := ?_ }
  rw [BurstSampler.look, h.queue]
  rfl

def aboutSend : Event → Bool
  | .answered .. => true
  | .sendFails _ => true
  | .sendsSettled => true
  | .failureKept _ => true
  | _ => false

variable (now) in
theorem Halted.act_other (h : b.Halted) (he : aboutSend e = false) :
    (b.act now e).Halted ∧ (b.act now e).sending = b.sending ∧
      (b.act now e).log.sendFailed = b.log.sendFailed := by
  cases e with
  | request =>
    rw [BurstSampler.act, BurstSampler.request, if_pos h.stopped]
    exact ⟨h, rfl, rfl⟩
  | serverRequest =>
    rw [BurstSampler.act, BurstSampler.serverRequest, if_pos h.stopped]
    exact ⟨h, rfl, rfl⟩
  | timerFires k =>
    simp only [BurstSampler.act, BurstSampler.timerFires, h.timers, getElem?_nil]
    exact ⟨h, trivial, trivial⟩
  | frame =>
    simp only [BurstSampler.act, BurstSampler.frame, BurstSampler.wantsFrame, h.stopped,
      Bool.true_or, if_true,
      Bool.false_eq_true, if_false]
    exact ⟨h, trivial, trivial⟩
  | captureSettles k ok =>
    simp only [BurstSampler.act, BurstSampler.captureSettles, h.burst]
    split
    · exact ⟨h, rfl, rfl⟩
    · exact ⟨{ h with burst := rfl }, rfl, rfl⟩
  | tick =>
    simp only [BurstSampler.act, BurstSampler.tick, h.burst]
    exact ⟨h, trivial, trivial⟩
  | dropPending trigger =>
    rw [BurstSampler.act, BurstSampler.dropPending]
    split
    · exact ⟨{ h with queue := rfl }, rfl, rfl⟩
    · exact ⟨h.look, rfl, rfl⟩
  | pendingTrigger =>
    rw [BurstSampler.act]
    split
    · exact ⟨h, rfl, rfl⟩
    · exact ⟨h.look, rfl, rfl⟩
  | budgetLeft => exact ⟨{ h with }, rfl, rfl⟩
  | stop => exact ⟨halted_stop b, rfl, rfl⟩
  | answered | sendFails k | sendsSettled | failureKept outcome => cases he

end BurstSampler

namespace MonitoringRuntime

variable {errorOf : Nat → ApiErrorKind}

/-- No frame is kept for later while `onSendFailed` gets the frames one after the other. -/
def failuresQuiet : SendFailure → List SendFailure → Bool
  | .fatal, _ => true
  | _, [] => true
  | _, o :: os => decide (o ≠ .queued) && failuresQuiet o os

variable (errorOf) in
/-- No failed frame that waits its turn is one that is kept for later. -/
def NoneWaits (b : BurstSampler) : Prop :=
  ∀ c ∈ b.sending, ∀ rest ∈ c.keeping, ∀ last ∈ lastFailure errorOf b,
    failuresQuiet last (rest.map fun f => sampleSendFailed (errorOf f.sampleId)) = true
  deriving Decidable

theorem NoneWaits.congr {b d : BurstSampler} (h : NoneWaits errorOf b)
    (hfailed : d.log.sendFailed = b.log.sendFailed)
    (hkeeping : ∀ c ∈ d.sending, ∀ rest ∈ c.keeping, ∃ c' ∈ b.sending, c'.keeping = some rest) :
    NoneWaits errorOf d ∧ samplesKept errorOf b d = [] := by
  refine ⟨fun c hc rest hrest => ?_, ?_⟩
  · obtain ⟨c', hc', hkeeping'⟩ := hkeeping c hc rest hrest
    rw [lastFailure, hfailed]
    exact h c' hc' rest hkeeping'
  · rw [samplesKept, hfailed, drop_length]
    rfl

theorem halted_act {b : BurstSampler} (now : Int) {e : BurstSampler.Event} (h : b.Halted)
    (hquiet : NoneWaits errorOf b) (hen : samplerEnabled errorOf b e) :
    (b.act now e).Halted ∧ NoneWaits errorOf (b.act now e) ∧
    samplesKept errorOf b (b.act now e) = [] := by
  have hsame : NoneWaits errorOf b ∧ samplesKept errorOf b b = [] :=
    hquiet.congr rfl fun c hc rest hrest => ⟨c, hc, hrest⟩
  cases hsend : BurstSampler.aboutSend e with
  | false =>
    obtain ⟨hhalted, hsending, hfailed⟩ := h.act_other now hsend
    refine ⟨hhalted, hquiet.congr hfailed ?_⟩
    rw [hsending]
    exact fun c hc rest hrest => ⟨c, hc, hrest⟩
  | true =>
    cases e with
    | answered =>
      rw [BurstSampler.act, BurstSampler.answered]
      split
      · exact ⟨h, hsame⟩
      next c hc =>
        split
        · exact ⟨h, hsame⟩
        · split
          · refine ⟨{ h with }, hquiet.congr rfl ?_⟩
            rintro _ ⟨⟩ rest hrest
            exact ⟨c, hc, hrest⟩
          · refine ⟨{ h with }, hquiet.congr rfl ?_⟩
            rintro _ ⟨⟩ rest hrest
            exact ⟨c, hc, hrest⟩
    | sendFails k =>
      rw [BurstSampler.act, BurstSampler.sendFails]
      split
      · exact ⟨h, hsame⟩
      next c hc =>
        split
        · exact ⟨h, hsame⟩
        · refine ⟨{ h with }, hquiet.congr rfl ?_⟩
          rintro _ ⟨⟩ rest hrest
          exact ⟨c, hc, hrest⟩
    | sendsSettled =>
      rw [BurstSampler.act, BurstSampler.sendsSettled]
      split
      · exact ⟨h, hsame⟩
      · split
        · exact ⟨h, hsame⟩
        · rw [if_pos h.stopped]
          refine ⟨{ h with }, hquiet.congr rfl ?_⟩
          simp
    | failureKept outcome =>
      have hlast : lastFailure errorOf b = some outcome := hen.2 outcome rfl
      rw [BurstSampler.act, BurstSampler.failureKept]
      split
      · exact ⟨h, hsame⟩
      next c hc =>
        split
        · exact ⟨h, hsame⟩
        next rest hrest =>
          have hrestQuiet := hquiet c hc rest hrest outcome hlast
          split
          · refine ⟨{ h with }, hquiet.congr rfl ?_⟩
            simp
          next hnotFatal =>
            cases rest with
            | nil =>
              refine ⟨{ h with }, hquiet.congr rfl ?_⟩
              simp [BurstSampler.keepNext]
            | cons f rest =>
              -- the next frame is not kept, and neither are those behind it
              have hnext : sampleSendFailed (errorOf f.sampleId) ≠ .queued ∧
                  failuresQuiet (sampleSendFailed (errorOf f.sampleId))
                    (rest.map fun f => sampleSendFailed (errorOf f.sampleId)) = true := by
                cases outcome with
                | queued | dropped => simpa [failuresQuiet] using hrestQuiet
                | fatal => exact absurd rfl hnotFatal
              refine ⟨{ h with }, ?_, ?_⟩
              · rintro _ ⟨⟩ _ ⟨⟩ last hlast'
                rw [lastFailure, BurstSampler.keepNext, getLast?_concat, Option.map_some,
                  Option.mem_some] at hlast'
                rw [← hlast']
                exact hnext.2
              · simp [samplesKept, BurstSampler.keepNext, hnext.1]
    | _ => cases hsend

/-! ## The runtime -/

variable {s t : MonitoringRuntime}

/-- Every report that was opened is closed, or is the one to close. -/
def Opened (s : MonitoringRuntime) : Prop :=
  ∀ id, .degradedOpen id ∈ s.outbox → .degradedClose id ∈ s.outbox ∨ s.degraded = some id

/-- What is put does not open a report. -/
theorem Opened.put (h : s.Opened) {os : List OutboxPut} (hos : ∀ id, .degradedOpen id ∉ os)
    (hout : t.outbox = s.outbox ++ os) (hdegraded : t.degraded = s.degraded) : t.Opened := by
  intro id hid
  rw [hout] at hid ⊢
  rw [hdegraded]
  rcases mem_append.1 hid with hid | hid
  · exact (h id hid).imp_left (mem_append_left _)
  · exact absurd hid (hos id)

theorem Opened.keep (h : s.Opened) (hout : t.outbox = s.outbox)
    (hdegraded : t.degraded = s.degraded) : t.Opened := by
  have hnone : ∀ id, OutboxPut.degradedOpen id ∉ ([] : List OutboxPut) := by simp
  exact h.put hnone (by rw [hout, append_nil]) hdegraded

theorem pushEpisodes_eq (s : MonitoringRuntime) (episodes : List Bool) : ∃ ws os n,
    s.pushEpisodes episodes =
      { s with pendingWrites := s.pendingWrites ++ ws, outbox := s.outbox ++ os, nextId := n } ∧
    ∀ id, .degradedOpen id ∉ os := by
  induction episodes generalizing s with
  | nil => exact ⟨[], [], s.nextId, by simp [pushEpisodes], by simp⟩
  | cons shot episodes ih =>
    obtain ⟨ws, os, n, heq, hos⟩ := ih (s.pushEpisode shot)
    refine ⟨⟨s.nextId, .event shot⟩ :: ws, .episode s.nextId :: os, n, ?_, by simpa using hos⟩
    refine heq.trans ?_
    simp [pushEpisode]

/-- The runtime observes, or was not started. -/
structure RunningInv (s : MonitoringRuntime) : Prop where
  stopped : s.stopped = false
  stopping : s.stopping = .notStopped
  early : s.lateCamera = false
  opened : s.Opened
  unstarted : s.running = false → s.starting = .notStarted ∧ s.removers = false ∧
    s.unsubCamera = false ∧ s.loopTimer = false ∧ s.pendingWrites = [] ∧ s.degraded = none

variable (errorOf) in
/-- The runtime was stopped. -/
structure StoppedInv (s : MonitoringRuntime) : Prop where
  stopped : s.stopped = true
  running : s.running = false
  removers : s.removers = false
  unsubCamera : s.unsubCamera = false
  loopTimer : s.loopTimer = false
  followUpTimer : s.followUpTimer = false
  starting : s.starting ≠ .environment
  degraded : s.degraded = none
  early : s.lateCamera = false
  opened : s.Opened
  halted : s.bursts.Halted
  quiet : NoneWaits errorOf s.bursts
  writing : ∀ ids, s.stopping = .writing ids → ∀ w ∈ s.pendingWrites, w.id ∈ ids
  returned : s.stopping = .returned → s.pendingWrites = []

/-- `stop` does not fall into the write of the environment event, nor where failed frames still wait
to be kept; and the models do not fail to load after it. -/
def StopsWell (errorOf : Nat → ApiErrorKind) (i : Int × Event) (s : MonitoringRuntime) : Prop :=
  match i.2 with
  | .stop _ => s.stopped = true ∨ s.starting ≠ .environment ∧ NoneWaits errorOf s.bursts
  | .visionFails => s.stopped = false ∨ s.starting ≠ .loading
  | _ => True

/-! ## While it runs -/

theorem RunningInv.whileRuns (h : s.RunningInv) (hstopped : t.stopped = s.stopped)
    (hstopping : t.stopping = s.stopping)
    (hlate : t.lateCamera = s.lateCamera) (hopened : t.Opened) (hrun : t.running = true) :
    t.RunningInv :=
  ⟨hstopped.trans h.stopped, hstopping.trans h.stopping, hlate.trans h.early, hopened,
    fun hr => by rw [hrun] at hr; cases hr⟩

theorem RunningInv.pushEpisodes (h : s.RunningInv) (hrun : s.running = true)
    (episodes : List Bool) :
    (s.pushEpisodes episodes).RunningInv ∧ (s.pushEpisodes episodes).running = true := by
  obtain ⟨ws, os, n, heq, hos⟩ := pushEpisodes_eq s episodes
  rw [heq]
  exact ⟨h.whileRuns rfl rfl rfl (h.opened.put hos rfl rfl) hrun, hrun⟩

theorem RunningInv.scheduleLoop (h : s.RunningInv) : s.scheduleLoop.RunningInv := by
  rw [MonitoringRuntime.scheduleLoop]
  split
  next hrun => exact h.whileRuns rfl rfl rfl (h.opened.keep rfl rfl) hrun
  next => exact h

theorem samplesKept_ne (old new : BurstSampler) (id : Nat) :
    .degradedOpen id ∉ samplesKept errorOf old new := by
  simp [samplesKept]

theorem RunningInv.sampler (h : s.RunningInv) (now : Int) (e : BurstSampler.Event) :
    (s.sampler errorOf now e).RunningInv :=
  { h with opened := h.opened.put (samplesKept_ne _ _) rfl rfl }

/-- A field that says where `start` is. -/
theorem RunningInv.starting (h : s.RunningInv) (hrun : s.running = true) (p : StartPhase) :
    { s with starting := p }.RunningInv :=
  h.whileRuns rfl rfl rfl (h.opened.keep rfl rfl) hrun

theorem running_scheduleLoop : s.scheduleLoop.running = s.running := by
  rw [MonitoringRuntime.scheduleLoop]
  split <;> rfl

section

variable (h : s.RunningInv)
include h

theorem RunningInv.observe (hrun : s.running = true) (now : Int) (wanted : Bool)
    (page camera : List Bool) : (s.observe errorOf now wanted page camera).RunningInv := by
  have hattached : { s with removers := true }.RunningInv :=
    h.whileRuns rfl rfl rfl (h.opened.keep rfl rfl) hrun
  obtain ⟨hpage, hrunPage⟩ := hattached.pushEpisodes hrun page
  rw [MonitoringRuntime.observe]
  dsimp only
  generalize ({ s with removers := true } : MonitoringRuntime).pushEpisodes page = t at hpage hrunPage
  split
  · exact hpage.scheduleLoop.starting (running_scheduleLoop.trans hrunPage) _
  · have hsampled : (if t.config.identitySampling = true then t.sampler errorOf now (.request .examStart .host)
        else t).RunningInv ∧ (if t.config.identitySampling = true then
          t.sampler errorOf now (.request .examStart .host) else t).running = true := by
      split
      · exact ⟨hpage.sampler now _, hrunPage⟩
      · exact ⟨hpage, hrunPage⟩
    obtain ⟨hinv, hrunning⟩ := hsampled
    generalize (if t.config.identitySampling = true then t.sampler errorOf now (.request .examStart .host)
      else t) = u at hinv hrunning
    have hcamera : { u with unsubCamera := true, lateCamera := u.lateCamera || (!wanted && u.stopped) }.RunningInv :=
      hinv.whileRuns rfl rfl (by simp [hinv.early, hinv.stopped]) (hinv.opened.keep rfl rfl) hrunning
    rw [MonitoringRuntime.onCamera, if_pos hrunning]
    obtain ⟨hpushed, hrunPushed⟩ := hcamera.pushEpisodes hrunning camera
    exact hpushed.starting hrunPushed _

theorem RunningInv.reportDegraded (hrun : s.running = true) :
    s.reportDegraded.RunningInv ∧ s.reportDegraded.running = true := by
  rw [MonitoringRuntime.reportDegraded]
  split
  · exact ⟨h, hrun⟩
  next hnone =>
    refine ⟨h.whileRuns rfl rfl rfl (fun id hid => ?_) hrun, hrun⟩
    have hdegraded : s.degraded = none := by simpa using hnone
    rcases mem_append.1 hid with hid | hid
    · have hclosed := (h.opened id hid).resolve_right (by simp [hdegraded])
      exact .inl (mem_append_left _ hclosed)
    · simp only [mem_singleton, OutboxPut.degradedOpen.injEq] at hid
      exact .inr (by rw [hid])

theorem RunningInv.writeSettles (k : Nat) (ok : Bool) : (s.writeSettles k ok).RunningInv := by
  cases hrun : s.running with
  | false =>
    have hnil := (h.unstarted hrun).2.2.2.2.1
    rw [MonitoringRuntime.writeSettles, hnil]
    exact h
  | true =>
    rw [MonitoringRuntime.writeSettles]
    split
    · exact h
    · split
      · exact h.whileRuns rfl rfl rfl (h.opened.keep rfl rfl) hrun
      · exact h.whileRuns rfl rfl rfl (h.opened.keep rfl rfl) hrun
    · split
      · exact h.whileRuns rfl rfl rfl (h.opened.put (by simp) rfl rfl) hrun
      · exact h.whileRuns rfl rfl rfl (h.opened.keep rfl rfl) hrun
    · exact h.whileRuns rfl rfl rfl (h.opened.keep rfl rfl) hrun

theorem RunningInv.act (now : Int) {e : Event} (he : ∀ episodes, e ≠ .stop episodes) :
    (s.act errorOf now e).RunningInv := by
  -- where `start` is at work, the runtime runs
  have hrun_of : s.starting ≠ .notStarted → s.running = true := fun hne => by
    by_contra hr
    exact hne (h.unstarted (by simpa using hr)).1
  cases e with
  | start wanted page camera =>
    rw [MonitoringRuntime.act, MonitoringRuntime.start]
    split
    · exact h
    · split
      · exact h.whileRuns rfl rfl rfl (h.opened.put (by simp) rfl rfl) rfl
      · refine RunningInv.observe ?_ rfl now wanted page camera
        exact h.whileRuns rfl rfl rfl (h.opened.keep rfl rfl) rfl
  | environmentSettles wanted page camera =>
    rw [MonitoringRuntime.act, MonitoringRuntime.environmentSettles]
    split
    next hp => exact h.observe (hrun_of (by simp [hp])) now wanted page camera
    next => exact h
  | visionLoads =>
    rw [MonitoringRuntime.act, MonitoringRuntime.visionLoads]
    split
    · exact h
    next hp =>
      have hrun := hrun_of (by simp [not_not.1 hp])
      split
      · exact h.starting hrun _
      · split
        · obtain ⟨hreport, hrunReport⟩ := h.reportDegraded hrun
          exact hreport.starting hrunReport _
        · exact h.scheduleLoop.starting (running_scheduleLoop.trans hrun) _
  | visionFails =>
    rw [MonitoringRuntime.act, MonitoringRuntime.visionFails]
    split
    next hp =>
      obtain ⟨hreport, hrunReport⟩ := h.reportDegraded (hrun_of (by simp [hp]))
      exact hreport.starting hrunReport _
    next => exact h
  | reportSettles ok =>
    rw [MonitoringRuntime.act, MonitoringRuntime.reportSettles]
    split
    · exact h
    next hp =>
      have hrun : s.running = true := hrun_of fun hn => hp (by simp [hn])
      split
      · exact h.starting hrun _
      · exact h.scheduleLoop.starting (running_scheduleLoop.trans hrun) _
  | stop episodes => exact absurd rfl (he episodes)
  | closeSettles ok =>
    rw [MonitoringRuntime.act, MonitoringRuntime.closeSettles, if_pos (by simp [h.stopping])]
    exact h
  | writesSettled =>
    simp only [MonitoringRuntime.act, MonitoringRuntime.writesSettled, h.stopping]
    exact h
  | writeSettles k ok => exact h.writeSettles k ok
  | dom episodes =>
    rw [MonitoringRuntime.act, MonitoringRuntime.domEvent]
    split
    next hlisten =>
      refine (h.pushEpisodes ?_ episodes).1
      by_contra hr
      simp [(h.unstarted (by simpa using hr)).2.1] at hlisten
    next => exact h
  | camera episodes =>
    rw [MonitoringRuntime.act, MonitoringRuntime.cameraEvent]
    split
    · rw [MonitoringRuntime.onCamera]
      split
      next hrun => exact (h.pushEpisodes hrun episodes).1
      next => exact h
    · exact h
  | loopFires episodes =>
    rw [MonitoringRuntime.act, MonitoringRuntime.loopFires]
    split
    next htimer =>
      have hrun : s.running = true := by
        by_contra hr
        simp [(h.unstarted (by simpa using hr)).2.2.2.1] at htimer
      have hfired : { s with loopTimer := false }.RunningInv :=
        h.whileRuns rfl rfl rfl (h.opened.keep rfl rfl) hrun
      exact (hfired.pushEpisodes hrun episodes).1.scheduleLoop
    next => exact h
  | sampleResult =>
    rw [MonitoringRuntime.act, MonitoringRuntime.handleSampleResult]
    split
    · exact h
    · exact { h with opened := h.opened.keep rfl rfl }
  | followUpFires =>
    rw [MonitoringRuntime.act, MonitoringRuntime.followUpFires]
    split
    · have hfired : { s with followUpTimer := false }.RunningInv :=
        { h with opened := h.opened.keep rfl rfl }
      dsimp only
      split
      · exact hfired.sampler now _
      · exact hfired
    · exact h
  | sampler e => exact h.sampler now e

/-! ## Once it is stopped -/

theorem RunningInv.stop (hstart : s.starting ≠ .environment)
    (hquiet : NoneWaits errorOf s.bursts) (episodes : List Bool) :
    (s.stop episodes).StoppedInv errorOf := by
  have hhalted : s.bursts.stop.Halted := BurstSampler.halted_stop _
  have hquiet' : NoneWaits errorOf s.bursts.stop :=
    (hquiet.congr rfl fun c hc rest hrest => ⟨c, hc, hrest⟩).1
  rw [MonitoringRuntime.stop, if_neg (by simp [h.stopped])]
  dsimp only
  split
  next hrun =>
    obtain ⟨ws, os, n, heq, hos⟩ := pushEpisodes_eq { s with
      stopped := true, running := false, loopTimer := false, followUpTimer := false, bursts := s.bursts.stop,
      removers := false, unsubCamera := false } episodes
    rw [heq, MonitoringRuntime.closeDegraded]
    have hopened : ∀ id, .degradedOpen id ∈ s.outbox ++ os →
        .degradedClose id ∈ s.outbox ++ os ∨ s.degraded = some id :=
      h.opened.put (t := { s with outbox := s.outbox ++ os }) hos rfl rfl
    split
    next hnone =>
      exact ⟨rfl, rfl, rfl, rfl, rfl, rfl, hstart, hnone, h.early, hopened, hhalted, hquiet',
        nofun, nofun⟩
    next id hsome =>
      refine ⟨rfl, rfl, rfl, rfl, rfl, rfl, hstart, rfl, h.early, fun id' hid' => ?_, hhalted, hquiet',
        nofun, nofun⟩
      have hmem : .degradedOpen id' ∈ s.outbox ++ os := by simpa using hid'
      left
      rcases hopened id' hmem with hclosed | hlast
      · exact mem_append_left _ hclosed
      · have hid : id = id' := Option.some.inj (hsome.symm.trans hlast)
        simp [hid]
  next hrun =>
    obtain ⟨-, -, -, -, hwrites, hnone⟩ := h.unstarted (by simpa using hrun)
    exact ⟨rfl, rfl, rfl, rfl, rfl, rfl, hstart, hnone, h.early, h.opened.keep rfl rfl, hhalted, hquiet',
      nofun, fun _ => hwrites⟩

end

section

variable (h : s.StoppedInv errorOf)
include h

theorem StoppedInv.goOn {p : StartPhase} (hp : p ≠ .environment) :
    { s with starting := p }.StoppedInv errorOf :=
  { h with starting := hp, opened := h.opened.keep rfl rfl }

theorem StoppedInv.scheduleLoop : s.scheduleLoop = s := by
  rw [MonitoringRuntime.scheduleLoop, if_neg (by simp [h.running])]

theorem StoppedInv.writeSettles (k : Nat) (ok : Bool) :
    (s.writeSettles k ok).StoppedInv errorOf := by
  have hset : ∀ {w w' : PendingWrite} (os : List OutboxPut), s.pendingWrites[k]? = some w → w'.id = w.id →
      (∀ id, .degradedOpen id ∉ os) →
      { s with pendingWrites := s.pendingWrites.set k w', outbox := s.outbox ++ os }.StoppedInv errorOf := by
    intro w w' os hk hid hos
    refine { h with opened := h.opened.put hos rfl rfl, writing := fun ids hids v hv => ?_, returned := fun hr => ?_ }
    · rcases mem_set_cases hk hv with rfl | hv
      · rw [hid]
        exact h.writing ids hids w (mem_of_getElem? hk)
      · exact h.writing ids hids v (mem_of_mem_eraseIdx hv)
    · rw [h.returned hr] at hk
      simp at hk
  have herase : { s with pendingWrites := s.pendingWrites.eraseIdx k }.StoppedInv errorOf := by
    refine { h with opened := h.opened.keep rfl rfl, writing := fun ids hids v hv => ?_, returned := fun hr => ?_ }
    · exact h.writing ids hids v (mem_of_mem_eraseIdx hv)
    · rw [h.returned hr, eraseIdx_nil]
  rw [MonitoringRuntime.writeSettles]
  split
  · exact h
  next id hk =>
    split
    · have hgoesOn := @hset _ ⟨id, .shot⟩ [] hk rfl (by simp)
      rw [append_nil] at hgoesOn
      exact hgoesOn
    · exact herase
  next id hk =>
    split
    · exact hset [.evidence id] hk rfl (by simp)
    · exact herase
  · exact herase

theorem StoppedInv.act {now : Int} {e : Event}
    (hen : ∀ e' ∈ samplerEvent e, samplerEnabled errorOf s.bursts e') (hwell : StopsWell errorOf (now, e) s) :
    (s.act errorOf now e).StoppedInv errorOf ∧
      (s.pendingWrites = [] → (s.act errorOf now e).outbox = s.outbox) := by
  cases e with
  | start =>
    rw [MonitoringRuntime.act, MonitoringRuntime.start, if_pos (by simp [h.stopped])]
    exact ⟨h, fun _ => rfl⟩
  | environmentSettles =>
    rw [MonitoringRuntime.act, MonitoringRuntime.environmentSettles, if_neg h.starting]
    exact ⟨h, fun _ => rfl⟩
  | visionLoads =>
    rw [MonitoringRuntime.act, MonitoringRuntime.visionLoads]
    split
    · exact ⟨h, fun _ => rfl⟩
    · rw [if_pos (by simp [h.running])]
      exact ⟨h.goOn (by simp), fun _ => rfl⟩
  | visionFails =>
    have hloading : s.starting ≠ .loading := hwell.resolve_left (by simp [h.stopped])
    rw [MonitoringRuntime.act, MonitoringRuntime.visionFails, if_neg hloading]
    exact ⟨h, fun _ => rfl⟩
  | reportSettles ok =>
    rw [MonitoringRuntime.act, MonitoringRuntime.reportSettles, h.scheduleLoop]
    split
    · exact ⟨h, fun _ => rfl⟩
    · split
      · exact ⟨h.goOn (by simp), fun _ => rfl⟩
      · exact ⟨h.goOn (by simp), fun _ => rfl⟩
  | stop episodes =>
    rw [MonitoringRuntime.act, MonitoringRuntime.stop, if_pos h.stopped]
    exact ⟨h, fun _ => rfl⟩
  | closeSettles ok =>
    rw [MonitoringRuntime.act, MonitoringRuntime.closeSettles]
    split
    · exact ⟨h, fun _ => rfl⟩
    · split
      · refine ⟨{ h with opened := h.opened.keep rfl rfl, writing := ?_, returned := by simp }, fun _ => rfl⟩
        rintro _ ⟨⟩ w hw
        exact mem_map_of_mem hw
      · exact ⟨{ h with opened := h.opened.keep rfl rfl, writing := by simp, returned := by simp }, fun _ => rfl⟩
  | writesSettled =>
    rw [MonitoringRuntime.act, MonitoringRuntime.writesSettled]
    split
    next ids hids =>
      split
      next hnone =>
        refine ⟨{ h with opened := h.opened.keep rfl rfl, writing := by simp, returned := fun _ => ?_ }, fun _ => rfl⟩
        refine eq_nil_iff_forall_not_mem.2 fun w hw => ?_
        exact hnone w hw (h.writing ids hids w hw)
      next => exact ⟨h, fun _ => rfl⟩
    next => exact ⟨h, fun _ => rfl⟩
  | writeSettles k ok =>
    refine ⟨h.writeSettles k ok, fun hnil => ?_⟩
    rw [MonitoringRuntime.act, MonitoringRuntime.writeSettles, hnil]
    rfl
  | dom episodes =>
    rw [MonitoringRuntime.act, MonitoringRuntime.domEvent, if_neg (by simp [h.removers])]
    exact ⟨h, fun _ => rfl⟩
  | camera episodes =>
    rw [MonitoringRuntime.act, MonitoringRuntime.cameraEvent, if_neg (by simp [h.unsubCamera])]
    exact ⟨h, fun _ => rfl⟩
  | loopFires episodes =>
    rw [MonitoringRuntime.act, MonitoringRuntime.loopFires, if_neg (by simp [h.loopTimer])]
    exact ⟨h, fun _ => rfl⟩
  | sampleResult =>
    rw [MonitoringRuntime.act, MonitoringRuntime.handleSampleResult, if_pos (by simp [h.running])]
    exact ⟨h, fun _ => rfl⟩
  | followUpFires =>
    rw [MonitoringRuntime.act, MonitoringRuntime.followUpFires, if_neg (by simp [h.followUpTimer])]
    exact ⟨h, fun _ => rfl⟩
  | sampler e =>
    obtain ⟨hhalted, hquiet, hkept⟩ := halted_act now h.halted h.quiet (hen e rfl)
    have hout : (s.act errorOf now (.sampler e)).outbox = s.outbox := by
      show s.outbox ++ samplesKept errorOf s.bursts _ = s.outbox
      rw [show samplesKept errorOf s.bursts { s.bursts.act now e with clock := now } = [] from hkept,
        append_nil]
    refine ⟨{ h with opened := h.opened.keep hout rfl, halted := ?_, quiet := hquiet }, fun _ => hout⟩
    exact { hhalted with }

end

/-! ## Runs -/

theorem Reachable.running_or_stopped
    (h : ((machine errorOf).restrict (StopsWell errorOf)).Reachable s) :
    s.RunningInv ∨ s.StoppedInv errorOf := by
  refine h.invariant (I := fun s => s.RunningInv ∨ s.StoppedInv errorOf) ?_ ?_
  · rintro _ ⟨config, maxPerWindow, windowMs, now, rfl⟩
    exact .inl ⟨rfl, rfl, rfl, by simp [Opened, fresh], fun _ => ⟨rfl, rfl, rfl, rfl, rfl, rfl⟩⟩
  · rintro s ⟨now, e⟩ - ⟨⟨-, hen⟩, hwell⟩ (hrunning | hstopped)
    · by_cases he : ∀ episodes, e ≠ .stop episodes
      · exact .inl (hrunning.act now he)
      · simp only [not_forall, not_not] at he
        obtain ⟨episodes, rfl⟩ := he
        obtain ⟨hstart, hquiet⟩ := hwell.resolve_left (by simp [hrunning.stopped])
        exact .inr (hrunning.stop hstart hquiet episodes)
    · exact .inr (hstopped.act hen hwell).1

variable (errorOf) in
/-- No listener, subscription or timer is left, the camera was not started late, nothing more is put
into the outbox, and every report of degraded monitoring was closed. -/
structure StopIsFinal (s : MonitoringRuntime) : Prop where
  removers : s.removers = false
  unsubCamera : s.unsubCamera = false
  timers : s.loopTimer = false ∧ s.followUpTimer = false ∧ s.bursts.timers = []
  early : s.lateCamera = false
  quiet : ∀ i, (machine errorOf).enabled i s → ((machine errorOf).step i s).outbox = s.outbox
  closed : ∀ id, .degradedOpen id ∈ s.outbox → .degradedClose id ∈ s.outbox

/-- **A stop that falls well is final.** -/
theorem stop_final (errorOf : Nat → ApiErrorKind) (s : MonitoringRuntime)
    (h : ((machine errorOf).restrict (StopsWell errorOf)).Reachable s)
    (hreturned : s.stopping = .returned)
    (hsettled : s.starting = .notStarted ∨ s.starting = .settled) : s.StopIsFinal errorOf := by
  rcases Reachable.running_or_stopped h with hinv | hinv
  · rw [hinv.stopping] at hreturned
    cases hreturned
  · refine ⟨hinv.removers, hinv.unsubCamera,
      ⟨hinv.loopTimer, hinv.followUpTimer, hinv.halted.timers⟩, hinv.early, ?_, fun id hid => ?_⟩
    · rintro ⟨now, e⟩ ⟨-, hen⟩
      refine (hinv.act hen ?_).2 (hinv.returned hreturned)
      cases e with
      | stop episodes => exact .inl hinv.stopped
      | visionFails => exact .inr (by rcases hsettled with hp | hp <;> simp [hp])
      | _ => trivial
    · exact (hinv.opened id hid).resolve_right (by simp [hinv.degraded])

/-! ## Two stops -/

def newRuntime (environmentChanged : Bool) : MonitoringRuntime :=
  fresh ⟨true, true, environmentChanged, ⟨3, none⟩⟩ 180 60000 0

/-- The runtime is stopped while the models load. -/
def stoppedLoading : List (Int × Event) :=
  [(0, .start false [true] []), (10, .dom [false]), (20, .stop [false]), (20, .closeSettles true),
    (30, .writeSettles 0 false), (30, .writeSettles 0 true), (30, .writeSettles 0 true),
    (30, .writesSettled), (40, .visionLoads false true)]

theorem stoppedLoading_final :
    ((machine fun _ => .network).run (newRuntime false) stoppedLoading).StopIsFinal fun _ =>
      .network := by
  have hinit : ((machine fun _ => .network).restrict (StopsWell fun _ => .network)).Reachable
      (newRuntime false) :=
    .init ⟨_, _, _, _, rfl⟩
  have hadmits : ((machine fun _ => .network).restrict (StopsWell fun _ => .network)).Admits
      (newRuntime false) stoppedLoading := by
    refine ⟨⟨by decide +kernel, trivial⟩, ⟨by decide +kernel, trivial⟩, ⟨by decide +kernel, ?_⟩,
      ⟨by decide +kernel, trivial⟩, ⟨by decide +kernel, trivial⟩, ⟨by decide +kernel, trivial⟩,
      ⟨by decide +kernel, trivial⟩, ⟨by decide +kernel, trivial⟩, ⟨by decide +kernel, trivial⟩, trivial⟩
    exact .inr ⟨by decide +kernel, by decide +kernel⟩
  exact stop_final _ _ (hinit.run hadmits) (by decide +kernel) (by decide +kernel)

/-- The runtime is stopped while the event about the environment is written. -/
theorem stopped_in_environment :
    ¬ ∀ s, (machine fun _ => .network).Reachable s → s.stopping = .returned →
    s.starting = .notStarted ∨ s.starting = .settled → s.StopIsFinal fun _ => .network := by
  intro h
  have hinit : (machine fun _ => .network).Reachable (newRuntime true) := .init ⟨_, _, _, _, rfl⟩
  have hrun : (machine fun _ => .network).Reachable ((machine fun _ => .network).run (newRuntime true)
      [(0, .start false [] []), (10, .stop []), (10, .closeSettles true), (10, .writesSettled),
        (20, .environmentSettles false [false] []), (30, .visionLoads true true)]) :=
    hinit.run (by decide +kernel)
  have hremovers := (h _ hrun (by decide +kernel) (by decide +kernel)).removers
  revert hremovers
  decide +kernel

end MonitoringRuntime

end SmartProctoring
