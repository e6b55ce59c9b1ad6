import SmartProctoring.Web.SamplesSent

/-!
# What the server asked for

A request of the server is a mark on the waiting trigger.  `Queued` says once what a step does to
the queue; from it follow the rule of the priorities, which every step keeps, and that the mark
stays as long as the steps meet `KeepsMark`.  The budget and the account of the frames hold in every
run.
-/

set_option autoImplicit false

namespace SmartProctoring

open Option

/-! ## The queue -/

namespace SampleTriggerQueue

variable {q : SampleTriggerQueue} {p : WaitingTrigger} {now : Int}

theorem expire_of_not_stale (h : ∀ p ∈ q.pending, ¬ p.Stale now) : q.expire now = q := by
  cases q with
  | mk pending =>
    cases pending with
    | none => rfl
    | some p => simp [expire, h p rfl]

variable (q now) in
theorem expire_pending : (q.expire now).pending = none ∨ q.expire now = q := by
  cases q with
  | mk pending =>
    cases pending with
    | none => exact .inl rfl
    | some p =>
      by_cases hp : p.Stale now
      · exact .inl (by simp [expire, hp])
      · exact .inr (by simp [expire, hp])

variable (trigger : IdentityCheckTrigger) (server : Bool)

variable (now) in
theorem push_priority (hp : q.pending = some p) :
    ∃ p', (q.push trigger now server).pending = some p' ∧
    SAMPLE_PRIORITY p.trigger ≤ SAMPLE_PRIORITY p'.trigger := by
  simp only [push, hp]
  split
  next hlt => exact ⟨_, rfl, hlt.le⟩
  next =>
    split
    · exact ⟨_, rfl, le_rfl⟩
    · exact ⟨p, hp, le_rfl⟩

variable {trigger} in
theorem push_marked (hp : q.pending = some p) (hserver : p.server = true)
    (hle : SAMPLE_PRIORITY trigger ≤ SAMPLE_PRIORITY p.trigger) :
    q.push trigger now server = q := by
  simp [push, hp, hserver, not_lt.2 hle]

theorem push_server (h : ∀ p ∈ q.pending, p.since ≤ now) :
    ∃ p, (q.push trigger now true).pending = some p ∧ p.server = true ∧ p.since ≤ now := by
  simp only [push]
  split
  next => exact ⟨_, rfl, rfl, le_rfl⟩
  next p hp =>
    split
    · exact ⟨_, rfl, rfl, le_rfl⟩
    · split
      · exact ⟨_, rfl, rfl, min_le_right _ _⟩
      next hs => exact ⟨p, hp, by simpa using hs, h p hp⟩

theorem push_since (h : ∀ p ∈ q.pending, p.since ≤ now) :
    ∀ p ∈ (q.push trigger now server).pending, p.since ≤ now := by
  intro p' hp'
  simp only [push] at hp'
  split at hp'
  next => simp at hp'; simp [← hp']
  next p hp =>
    split at hp'
    · simp at hp'; simp [← hp']
    · split at hp'
      · simp at hp'; simp [← hp']
      · exact h p' hp'

end SampleTriggerQueue

namespace BurstSampler

variable {s t : BurstSampler} {now : Int} {e : Event}

/-! ## What a step does to the queue -/

/-- The exam start is sampled once. -/
def accepts (s : BurstSampler) (trigger : IdentityCheckTrigger) : Bool :=
  decide (trigger ≠ .examStart) || !(s.examStartTaken || s.examStartBurst)

/-- The trigger that is pushed, unless it waits already. -/
def arriving (s : BurstSampler) : Event → Option IdentityCheckTrigger
  | .request trigger _ => if s.accepts trigger then some trigger else none
  | .serverRequest trigger inMs =>
    if inMs ≤ 0 ∧ s.accepts trigger ∧ (trigger = .examStart ∨ s.busy = false) then some trigger else none
  | .timerFires k => ((s.timers[k]?).map (·.2)).filter s.accepts
  | _ => none

/-- A burst can end with this event. -/
def Event.offers : Event → Bool
  | .frame .. => true
  | .tick => true
  | _ => false

/-- The burst is over and nothing was captured. -/
def EndsEmpty (now : Int) (e : Event) (b : ActiveBurst) : Prop :=
  b.frames = [] ∧ b.pendingCaptures = 0 ∧ BURST_TIMEOUT_MS < now - b.startedAt ∧
  Event.offers e = true
  deriving Decidable

/-- What an event does to the queue, and to the note of how long the server waits. -/
inductive Queued (s : BurstSampler) (now : Int) (e : Event) (t : BurstSampler) : Prop
  | same (hq : t.queue = s.queue) (hw : t.log.waiting = s.log.waiting)
  | looked (hq : t.queue = s.queue.expire now) (hw : t.log.waiting = s.log.waiting)
  | taken (hq : t.queue = ⟨none⟩) (hw : t.log.waiting = none)
  | dropped (trigger : IdentityCheckTrigger) (he : e = .dropPending trigger)
      (hp : s.queue.peek now = some trigger) (hq : t.queue = ⟨none⟩) (hw : t.log.waiting = s.log.waiting)
  | pushed (q : SampleTriggerQueue) (trigger : IdentityCheckTrigger) (server : Bool)
      (he : s.arriving e = some trigger) (hold : q = s.queue ∨ q = s.queue.expire now)
      (hq : t.queue = q.push trigger now server)
      (hw : t.log.waiting = if server then some (s.log.waiting.getD now) else s.log.waiting)
  | pushedBack (b : ActiveBurst) (hb : s.burst = some b) (he : EndsEmpty now e b)
      (hq : t.queue = s.queue.push b.trigger now false)
      (hw : t.log.waiting = s.log.collecting.or s.log.waiting)

variable {trigger : IdentityCheckTrigger}

theorem queued_request {source : TriggerSource}
    (he : s.accepts trigger = true → s.arriving e = some trigger) :
    Queued s now e (s.request now trigger source) := by
  rw [request]
  split
  · exact .same rfl rfl
  · split
    · split
      · exact .same rfl rfl
      next hnew =>
        have he := he (by simp [accepts, hnew])
        split
        · exact .looked rfl rfl
        · exact .pushed _ trigger _ he (.inr rfl) rfl rfl
    next hexam =>
      have he := he (by simp [accepts, hexam])
      exact .pushed _ trigger _ he (.inl rfl) rfl rfl

theorem queued_serverRequest {inMs : Int} :
    Queued s now (.serverRequest trigger inMs) (s.serverRequest now trigger inMs) := by
  rw [serverRequest]
  split
  · exact .same rfl rfl
  · split
    next hexam =>
      split
      · exact .same rfl rfl
      · rw [requestIn]
        split
        next hin =>
          refine queued_request fun haccepts => ?_
          exact if_pos ⟨hin, haccepts, .inl hexam⟩
        next => exact .same rfl rfl
    next hexam =>
      split
      · exact .same rfl rfl
      next hbusy =>
        split
        · exact .looked rfl rfl
        · rw [requestIn]
          split
          next hin =>
            rw [request]
            split
            · exact .looked rfl rfl
            · refine .pushed _ trigger _ ?_ (.inr rfl) rfl rfl
              simp [arriving, hin, accepts, hexam, hbusy]
          next => exact .looked rfl rfl

theorem queued_timerFires {k : Nat} : Queued s now (.timerFires k) (s.timerFires now k) := by
  rw [timerFires]
  split
  next => exact .same rfl rfl
  next due hk =>
    have hr : Queued { s with timers := s.timers.eraseIdx k } now (.request due.2 .server)
        ({ s with timers := s.timers.eraseIdx k }.request now due.2 .server) :=
      queued_request fun haccepts => if_pos haccepts
    rcases hr with ⟨hq, hw⟩ | ⟨hq, hw⟩ | ⟨hq, hw⟩ | ⟨trigger, he, -⟩ | ⟨q, trigger, server, he, hold, hq, hw⟩ |
      ⟨b, -, he, -⟩
    · exact .same hq hw
    · exact .looked hq hw
    · exact .taken hq hw
    · cases he
    · refine .pushed q trigger server ?_ hold hq hw
      have hcond := he
      simp only [arriving] at hcond
      split at hcond
      next haccepts =>
        obtain rfl := some.inj hcond
        simp only [arriving, hk, map_some, filter_some]
        exact if_pos haccepts
      next => cases hcond
    · cases he.2.2.2

theorem keepNext_queue (b : SendingBurst) (l : List SentFrame) :
    (s.keepNext b l).queue = s.queue ∧ (s.keepNext b l).log.waiting = s.log.waiting := by
  cases l with
  | nil | cons x l => exact ⟨rfl, rfl⟩

variable {b : ActiveBurst}

theorem queued_finish (hb : s.burst = some b)
    (he : b.frames = [] → b.pendingCaptures = 0 → EndsEmpty now e b) :
    Queued s now e (s.finish now) := by
  simp only [finish, hb]
  split
  · exact .same rfl rfl
  next hpending =>
    rw [not_or, not_lt, Nat.le_zero] at hpending
    split
    next hnil => exact .pushedBack b hb (he hnil hpending.2) rfl rfl
    next => exact .same rfl rfl

theorem finish_queue (hb : s.burst = some b) (hne : b.frames ≠ []) :
    (s.finish now).queue = s.queue ∧ (s.finish now).log.waiting = s.log.waiting := by
  simp only [finish, hb]
  split
  · exact ⟨rfl, rfl⟩
  · exact ⟨rfl, rfl⟩

variable {eligible capturable : Bool}

theorem queued_startBurst :
    Queued s now e (s.startBurst now eligible capturable) := by
  rw [startBurst]
  split
  next => exact .looked rfl rfl
  next p _ =>
    dsimp only
    split
    · exact .looked rfl rfl
    · split
      · exact .looked rfl rfl
      · exact .taken rfl rfl

theorem startBurst_burst
    (hb : (s.startBurst now eligible capturable).burst = some b) :
    s.burst = some b ∨ b.startedAt = now := by
  rw [startBurst] at hb
  split at hb
  next => exact .inl hb
  next p _ =>
    dsimp only at hb
    split at hb
    · exact .inl hb
    · split at hb
      · exact .inl hb
      · cases hb
        exact .inr rfl

variable {capturedAt : Int}

theorem addFrame_queue :
    (s.addFrame now capturedAt).queue = s.queue ∧
      (s.addFrame now capturedAt).log.waiting = s.log.waiting := by
  rw [addFrame]
  split <;> exact ⟨rfl, rfl⟩

theorem Queued.andThen {u : BurstSampler} (h : Queued s now e t)
    (hu : u.queue = t.queue ∧ u.log.waiting = t.log.waiting) : Queued s now e u := by
  obtain ⟨hqu, hwu⟩ := hu
  rcases h with ⟨hq, hw⟩ | ⟨hq, hw⟩ | ⟨hq, hw⟩ | ⟨trigger, he, hp, hq, hw⟩ | ⟨q, trigger, server,
      he, hold, hq, hw⟩ |
    ⟨b, hb, he, hq, hw⟩
  · exact .same (hqu.trans hq) (hwu.trans hw)
  · exact .looked (hqu.trans hq) (hwu.trans hw)
  · exact .taken (hqu.trans hq) (hwu.trans hw)
  · exact .dropped trigger he hp (hqu.trans hq) (hwu.trans hw)
  · exact .pushed q trigger server he hold (hqu.trans hq) (hwu.trans hw)
  · exact .pushedBack b hb he (hqu.trans hq) (hwu.trans hw)

theorem queued_wantsFrame :
    Queued s now (.frame eligible capturable capturedAt) (s.wantsFrame now eligible capturable).2 := by
  rw [wantsFrame]
  split
  · exact .same rfl rfl
  · dsimp only
    cases hb : s.burst with
    | none =>
      have hstart : Queued s now (.frame eligible capturable capturedAt) (s.startBurst now eligible capturable) :=
        queued_startBurst
      split
      next => exact hstart
      next b hstarted =>
        have hfresh : b.startedAt = now := (startBurst_burst hstarted).resolve_left (by simp [hb])
        rw [if_neg (by simp [hfresh, BURST_TIMEOUT_MS])]
        exact hstart
    | some b =>
      rw [if_neg (by simp)]
      simp only [hb]
      split
      next hlate => exact queued_finish hb fun hnil hnone => ⟨hnil, hnone, hlate, rfl⟩
      next => exact .same rfl rfl

theorem queued_frame :
    Queued s now (.frame eligible capturable capturedAt) (s.frame now eligible capturable capturedAt) := by
  rw [frame]
  split
  · exact queued_wantsFrame.andThen addFrame_queue
  · exact queued_wantsFrame

theorem queued_captureSettles {k : Nat} {ok : Bool} (hsize : ∀ b ∈ s.burst, 0 < b.size) :
    Queued s now (.captureSettles k ok) (s.captureSettles now k ok) := by
  rw [captureSettles]
  split
  next => exact .same rfl rfl
  next c _ =>
    dsimp only
    split
    next => exact .same rfl rfl
    next b hb =>
      have hpos := hsize b hb
      split
      · exact .same rfl rfl
      · generalize (if ok = true then some (⟨s.nextId, c.2⟩ : BurstFrame) else none) = f
        split
        next hfull =>
          have hne : b.frames ++ f.toList ≠ [] := List.ne_nil_of_length_pos (hpos.trans_le hfull)
          exact .same (finish_queue rfl hne).1 (finish_queue rfl hne).2
        next => exact .same rfl rfl

theorem queued_tick : Queued s now .tick (s.tick now) := by
  rw [tick]
  split
  next => exact .same rfl rfl
  next b hb =>
    split
    next h => exact queued_finish hb fun hnil hnone => ⟨hnil, hnone, h.2.1, rfl⟩
    next => exact .same rfl rfl

theorem queued_dropPending :
    Queued s now (.dropPending trigger) (s.dropPending now trigger) := by
  rw [dropPending]
  split
  next hp => exact .dropped trigger rfl hp rfl rfl
  next => exact .looked rfl rfl

theorem sending_queue : (∀ k answer, (s.answered k answer).queue = s.queue ∧
      (s.answered k answer).log.waiting = s.log.waiting) ∧
    (∀ k, (s.sendFails k).queue = s.queue ∧ (s.sendFails k).log.waiting = s.log.waiting) ∧
    (s.sendsSettled.queue = s.queue ∧ s.sendsSettled.log.waiting = s.log.waiting) ∧
    ∀ outcome, (s.failureKept outcome).queue = s.queue ∧
      (s.failureKept outcome).log.waiting = s.log.waiting := by
  refine ⟨fun k answer => ?_, fun k => ?_, ?_, fun outcome => ?_⟩
  · rw [answered]
    split
    · exact ⟨rfl, rfl⟩
    · split
      · exact ⟨rfl, rfl⟩
      · split <;> exact ⟨rfl, rfl⟩
  · rw [sendFails]
    split
    · exact ⟨rfl, rfl⟩
    · split <;> exact ⟨rfl, rfl⟩
  · rw [sendsSettled]
    split
    · exact ⟨rfl, rfl⟩
    · split
      · exact ⟨rfl, rfl⟩
      · split
        · exact ⟨rfl, rfl⟩
        · exact keepNext_queue _ _
  · rw [failureKept]
    split
    · exact ⟨rfl, rfl⟩
    · split
      · exact ⟨rfl, rfl⟩
      · split
        · exact ⟨rfl, rfl⟩
        · exact keepNext_queue _ _

variable (now e) in
theorem queued_act (hsize : ∀ b ∈ s.burst, 0 < b.size) : Queued s now e (s.act now e) := by
  obtain ⟨hanswered, hfails, hsettled, hkept⟩ := sending_queue (s := s)
  cases e with
  | request => exact queued_request fun haccepts => if_pos haccepts
  | serverRequest => exact queued_serverRequest
  | timerFires k => exact queued_timerFires
  | frame => exact queued_frame
  | captureSettles k ok => exact queued_captureSettles hsize
  | tick => exact queued_tick
  | answered k answer => exact .same (hanswered k answer).1 (hanswered k answer).2
  | sendFails k => exact .same (hfails k).1 (hfails k).2
  | sendsSettled => exact .same hsettled.1 hsettled.2
  | failureKept outcome => exact .same (hkept outcome).1 (hkept outcome).2
  | dropPending trigger => exact queued_dropPending
  | pendingTrigger =>
    rw [act]
    split
    · exact .same rfl rfl
    · exact .looked rfl rfl
  | budgetLeft => exact .same rfl rfl
  | stop => exact .taken rfl rfl

/-! ## Priorities -/

theorem priority_act (hsize : ∀ b ∈ s.burst, 0 < b.size) {p : WaitingTrigger}
    (hp : s.queue.pending = some p) (hfresh : ¬ p.Stale now) :
    ∀ p' ∈ (s.act now e).queue.pending, SAMPLE_PRIORITY p.trigger ≤ SAMPLE_PRIORITY p'.trigger := by
  have hexpire : s.queue.expire now = s.queue :=
    SampleTriggerQueue.expire_of_not_stale fun q hq => by
      rw [hp] at hq
      exact some.inj hq ▸ hfresh
  have hpush : ∀ trigger server, ∀ p' ∈ (s.queue.push trigger now server).pending,
      SAMPLE_PRIORITY p.trigger ≤ SAMPLE_PRIORITY p'.trigger := by
    intro trigger server p' hp'
    obtain ⟨p'', hp'', hle⟩ := SampleTriggerQueue.push_priority now trigger server hp
    rw [hp''] at hp'
    exact some.inj hp' ▸ hle
  have hsame : ∀ p' ∈ s.queue.pending, SAMPLE_PRIORITY p.trigger ≤ SAMPLE_PRIORITY p'.trigger := by
    intro p' hp'
    rw [hp] at hp'
    exact (some.inj hp' ▸ le_rfl)
  rcases queued_act now e hsize with ⟨hq, -⟩ | ⟨hq, -⟩ | ⟨hq, -⟩ | ⟨_, -, -, hq, -⟩ |
    ⟨q, trigger, server, -, hold, hq, -⟩ | ⟨b, -, -, hq, -⟩
  · rwa [hq]
  · rwa [hq, hexpire]
  · simp [hq]
  · simp [hq]
  · have hq' : q = s.queue := hold.elim id fun h => h.trans hexpire
    rw [hq, hq']
    exact hpush trigger server
  · rw [hq]
    exact hpush _ _

/-! ## The server's mark -/

/-- Nothing waits since later than now. -/
def SinceInv (s : BurstSampler) (now : Int) : Prop := ∀ p ∈ s.queue.pending, p.since ≤ now

theorem SinceInv.act (h : s.SinceInv now) (hsize : ∀ b ∈ s.burst, 0 < b.size) :
    (s.act now e).SinceInv now := by
  have hexpire : ∀ p ∈ (s.queue.expire now).pending, p.since ≤ now := by
    rcases SampleTriggerQueue.expire_pending s.queue now with hnone | hsame
    · simp [hnone]
    · rwa [hsame]
  rw [SinceInv]
  rcases queued_act now e hsize with ⟨hq, -⟩ | ⟨hq, -⟩ | ⟨hq, -⟩ | ⟨_, -, -, hq, -⟩ |
    ⟨q, trigger, server, -, hold, hq, -⟩ | ⟨b, -, -, hq, -⟩
  · rwa [hq]
  · rwa [hq]
  · simp [hq]
  · simp [hq]
  · rw [hq]
    refine SampleTriggerQueue.push_since trigger server ?_
    rcases hold with rfl | rfl
    · exact h
    · exact hexpire
  · rw [hq]
    exact SampleTriggerQueue.push_since _ _ h

/-- While a trigger with the server's mark waits: it does not go stale and is not dropped, and
nothing of higher priority comes, be it a new trigger or that of a burst that captured nothing.  And
no burst for the server ends without a frame. -/
def KeepsMark (i : Int × Event) (s : BurstSampler) : Prop :=
  (∀ p ∈ s.queue.pending, p.server = true →
    ¬ p.Stale i.1 ∧ i.2 ≠ .dropPending p.trigger ∧
      (∀ trigger ∈ s.arriving i.2, SAMPLE_PRIORITY trigger ≤ SAMPLE_PRIORITY p.trigger) ∧
      ∀ b ∈ s.burst, EndsEmpty i.1 i.2 b → SAMPLE_PRIORITY b.trigger ≤ SAMPLE_PRIORITY p.trigger) ∧
  ∀ b ∈ s.burst, EndsEmpty i.1 i.2 b → s.log.collecting = none
  deriving Decidable

instance (i : Int × Event) (s : BurstSampler) :
    Decidable ((machine.restrict KeepsMark).enabled i s) :=
  inferInstanceAs (Decidable (_ ∧ _))

/-- A server request that waits in the queue is marked, and counts from when it came. -/
def Marked (s : BurstSampler) : Prop :=
  ∀ t ∈ s.log.waiting, ∃ p, s.queue.pending = some p ∧ p.server = true ∧ p.since ≤ t

theorem Marked.act (h : s.Marked) (hsince : s.SinceInv now) (hsize : ∀ b ∈ s.burst, 0 < b.size)
    (hkeeps : KeepsMark (now, e) s) : (s.act now e).Marked := by
  obtain ⟨hmark, hburst⟩ := hkeeps
  have hexpire : ∀ t ∈ s.log.waiting, s.queue.expire now = s.queue := by
    intro t ht
    obtain ⟨p, hp, hserver, -⟩ := h t ht
    refine SampleTriggerQueue.expire_of_not_stale fun q hq => ?_
    rw [hp] at hq
    exact some.inj hq ▸ (hmark p hp hserver).1
  rw [Marked]
  rcases queued_act now e hsize with ⟨hq, hw⟩ | ⟨hq, hw⟩ | ⟨hq, hw⟩ | ⟨trigger, he, hpeek, hq, hw⟩ |
    ⟨q, trigger, server, he, hold, hq, hw⟩ | ⟨b, hb, he, hq, hw⟩
  · rwa [hq, hw]
  · intro t ht
    rw [hw] at ht
    rw [hq, hexpire t ht]
    exact h t ht
  · simp [hw]
  · -- the mark would have been dropped
    intro t ht
    rw [hw] at ht
    obtain ⟨p, hp, hserver, -⟩ := h t ht
    obtain ⟨hfresh, hdrop, -⟩ := hmark p hp hserver
    have hpeek' : s.queue.peek now = some p.trigger := by
      rw [SampleTriggerQueue.peek, hexpire t ht, hp, map_some]
    rw [hpeek', some.injEq] at hpeek
    exact absurd (hpeek ▸ he) hdrop
  · intro t ht
    rw [hw] at ht
    cases hwaiting : s.log.waiting with
    | some t' =>
      have hq' : q = s.queue := hold.elim id fun h => h.trans (hexpire t' hwaiting)
      obtain ⟨p, hp, hserver, hle⟩ := h t' hwaiting
      have hprio := (hmark p hp hserver).2.2.1 trigger he
      have ht' : t = t' := by
        rw [hwaiting] at ht
        cases server <;> simpa using ht.symm
      rw [hq, hq', SampleTriggerQueue.push_marked server hp hserver hprio, ht']
      exact ⟨p, hp, hserver, hle⟩
    | none =>
      rw [hwaiting] at ht
      cases server with
      | false => simp at ht
      | true =>
        have ht' : now = t := by simpa using ht
        have hsince' : ∀ p ∈ q.pending, p.since ≤ now := by
          rcases hold with rfl | rfl
          · exact hsince
          · rcases SampleTriggerQueue.expire_pending s.queue now with hnone | hsame
            · simp [hnone]
            · rw [hsame]
              exact hsince
        rw [hq, ← ht']
        exact SampleTriggerQueue.push_server trigger hsince'
  · -- the burst was not for the server
    intro t ht
    rw [hw, hburst b hb he] at ht
    obtain ⟨p, hp, hserver, hle⟩ := h t ht
    rw [hq, SampleTriggerQueue.push_marked false hp hserver ((hmark p hp hserver).2.2.2 b hb he)]
    exact ⟨p, hp, hserver, hle⟩

/-! ## What holds of the sampler -/

/-- A server request has waited for long enough, no burst is being sent, the budget allows one, and
the last frame of the burst that is collected is not too recent. -/
structure Due (s : BurstSampler) (now : Int) : Prop where
  waited : ∃ t, (t ∈ s.log.waiting ∨ t ∈ s.log.collecting) ∧ t + SERVER_REQUEST_FORCE_MS ≤ now
  running : s.stopped = false
  idle : s.sending = none
  fits : s.burst = none → ∀ p ∈ s.queue.pending, s.sizeFor p.trigger ≤ s.budget.available now
  spaced : ∀ b ∈ s.burst, now - b.startedAt ≤ BURST_TIMEOUT_MS →
    ∀ t ∈ b.lastFrameAt, BURST_MIN_SPACING_MS ≤ now - t

/-- A frame that can be captured starts a burst or joins the one that is collected, or that one is
sent. -/
def Serves (s : BurstSampler) (now : Int) (eligible : Bool) : Prop :=
  (s.wantsFrame now eligible true).1 = true ∨
  (s.wantsFrame now eligible true).2.sending.isSome = true
  deriving Decidable

/-- The waiting trigger has not gone stale.  A burst that is collected still needs a frame, and
takes those without a usable face or the frame has one; or it is over, has a frame to send and waits
for no other. -/
def Open (s : BurstSampler) (now : Int) (eligible : Bool) : Prop :=
  match s.burst with
  | none => ∀ p ∈ s.queue.pending, ¬ p.Stale now
  | some b =>
    if BURST_TIMEOUT_MS < now - b.startedAt then b.frames ≠ [] ∧ b.pendingCaptures = 0
    else (eligible = true ∨ b.forced = true) ∧ b.frames.length + b.pendingCaptures < b.size

/-- Until a burst is sent for it, a server request that waits is marked as the server's; and once it
has waited for long enough, every frame that can be captured serves it. -/
structure ServerKept (s : BurstSampler) : Prop where
  marked : s.Marked
  served : ∀ now eligible, s.Due now → s.Serves now eligible

theorem serves_iff_start {p : WaitingTrigger} (hp : s.queue.pending = some p)
    (hserver : p.server = true)
    (hwaited : p.since + SERVER_REQUEST_FORCE_MS ≤ now) (hb : s.burst = none)
    (hrunning : s.stopped = false)
    (hidle : s.sending = none) (hfits : s.sizeFor p.trigger ≤ s.budget.available now)
    {eligible : Bool} : s.Serves now eligible ↔ ¬ p.Stale now := by
  rw [Serves, wantsFrame, hrunning, hidle]
  simp only [hb, isNone_none, if_true, isSome_none, Bool.or_self, Bool.false_eq_true, if_false]
  by_cases hstale : p.Stale now
  · have hexpire : (s.queue.expire now).pending = none := by
      simp [SampleTriggerQueue.expire, hp, hstale]
    have hstart : s.startBurst now eligible true = s.look now := by
      rw [startBurst]
      simp only [hexpire]
    simp [hstart, look, hb, hidle, hstale]
  · have hexpire : s.queue.expire now = s.queue :=
      SampleTriggerQueue.expire_of_not_stale fun q hq => by
        rw [hp] at hq
        exact some.inj hq ▸ hstale
    have hwait : SERVER_REQUEST_FORCE_MS ≤ (s.queue.serverWaitMs now).getD (-1) := by
      rw [SampleTriggerQueue.serverWaitMs, hexpire, hp, filter_some, if_pos hserver]
      simp only [map_some, getD_some]
      omega
    have hforced : (!eligible && !(!eligible && true &&
        decide (SERVER_REQUEST_FORCE_MS ≤ (s.queue.serverWaitMs now).getD (-1)))) = false := by
      cases eligible <;> simp [hwait]
    have hstart : (s.startBurst now eligible true).burst = some ⟨s.nextId, p.trigger, now, none, [], 0,
        !eligible && true && decide (SERVER_REQUEST_FORCE_MS ≤ (s.queue.serverWaitMs now).getD (-1)),
        s.sizeFor p.trigger⟩ := by
      simp only [startBurst, hexpire, hp, hforced]
      rw [if_neg (by simp), if_neg (not_lt.2 hfits)]
    simp only [hstart, hstale, not_false_eq_true, iff_true]
    rw [if_neg (by simp [BURST_TIMEOUT_MS])]
    have := sizeFor_pos (s := s) p.trigger
    left
    cases eligible <;> simp [takes, hwait, this]

theorem serves_iff_burst (hb : s.burst = some b) (hrunning : s.stopped = false) (hidle : s.sending = none)
    (hspaced : now - b.startedAt ≤ BURST_TIMEOUT_MS → ∀ t ∈ b.lastFrameAt, BURST_MIN_SPACING_MS ≤ now - t)
    {eligible : Bool} : s.Serves now eligible ↔ s.Open now eligible := by
  rw [Serves, Open, wantsFrame, hrunning, hidle]
  simp only [hb, isNone_some, Bool.false_eq_true, if_false, isSome_none, Bool.or_self]
  split
  next hlate =>
    simp only [finish, hb, hidle, isSome_none, Bool.false_eq_true, false_or]
    split
    next hpending => simp [hidle, hpending.ne']
    next hpending =>
      have hnone : b.pendingCaptures = 0 := Nat.le_zero.1 (not_lt.1 hpending)
      split
      next hnil => simp [pushBack, hidle, hnil]
      next hne => simp [sendBurst, hne, hnone]
  next htime =>
    have hlast : b.lastFrameAt.all (fun t => decide (BURST_MIN_SPACING_MS ≤ now - t)) = true :=
      (all_eq_true _ _).2 fun t ht => decide_eq_true (hspaced (not_lt.1 htime) t ht)
    simp [takes, hlast, hidle]

theorem Marked.serves_iff (h : s.Marked)
    (hcollecting : s.log.collecting.isSome = true → s.burst.isSome = true)
    (hdue : s.Due now) {eligible : Bool} : s.Serves now eligible ↔ s.Open now eligible := by
  obtain ⟨⟨t, ht, hlong⟩, hrunning, hidle, hfits, hspaced⟩ := hdue
  cases hb : s.burst with
  | some b => exact serves_iff_burst hb hrunning hidle (hspaced b hb)
  | none =>
    have hwaiting : t ∈ s.log.waiting := ht.resolve_right fun ht => by
      have := hcollecting (by rw [mem_def.1 ht]; rfl)
      simp [hb] at this
    obtain ⟨p, hp, hserver, hle⟩ := h t hwaiting
    rw [serves_iff_start hp hserver (by omega) hb hrunning hidle (hfits hb p hp), Open, hb]
    simp [hp]

/-- Each captured frame of a burst that is sent is sent exactly once, and ends in exactly one answer
or one call of `onSendFailed`, unless an earlier failure was fatal or the sampler was stopped. -/
structure FramesSettle (s : BurstSampler) : Prop where
  sentOnce : (s.collected ++ s.log.sent.map (·.sampleId)).Nodup
  allSent : s.stopped = false → ∀ n ∈ s.log.captured,
    n ∈ s.collected ∨ n ∈ s.log.sent.map (·.sampleId)
  settledOnce : (s.unsettled ++ (s.log.answered ++ s.log.sendFailed)).Nodup
  settled : ∀ f ∈ s.log.sent, f ∈ s.unsettled ∨ (f ∈ s.log.answered ∨ f ∈ s.log.sendFailed) ∨
    f ∈ s.log.givenUp ∧ (f.burst ∈ s.log.fatal ∨ s.stopped = true)

theorem SamplerInv.framesSettle (h : s.SamplerInv now) : s.FramesSettle := by
  have hcaptured := h.frames.captured
  have hids : (s.collected ++ s.log.discarded ++ s.log.sent.map (·.sampleId)).Nodup :=
    hcaptured.nodup_iff.1 h.frames.once
  have hsent : s.log.sent.Nodup := (List.nodup_append.1 hids).2.1.of_map
  have hsettled := h.sends.settled
  have hall := hsettled.nodup_iff.1 hsent
  refine ⟨?_, fun hrunning n hn => ?_, ?_, fun f hf => ?_⟩
  · exact hids.sublist ((List.sublist_append_left _ _).append_right _)
  · have hmem := hcaptured.subset hn
    rw [h.frames.discarded hrunning, List.append_nil] at hmem
    exact List.mem_append.1 hmem
  · exact hall.sublist ((List.sublist_append_left _ _).append_right _)
  · rcases List.mem_append.1 (hsettled.subset hf) with hmem | hmem
    · rcases List.mem_append.1 hmem with hmem | hmem
      · exact .inl hmem
      · exact .inr (.inr ⟨hmem, h.sends.givenUp f hmem⟩)
    · exact .inr (.inl (List.mem_append.1 hmem))

theorem Reachable.marked (h : (machine.restrict KeepsMark).Reachable s) :
    s.SamplerInv s.clock ∧ s.Marked := by
  have hinv : s.SamplerInv s.clock ∧ s.SinceInv s.clock ∧ s.Marked := by
    refine h.invariant (I := fun s => s.SamplerInv s.clock ∧ s.SinceInv s.clock ∧ s.Marked) ?_ ?_
    · rintro _ ⟨sizes, maxPerWindow, windowMs, now, rfl⟩
      exact ⟨samplerInv_start sizes maxPerWindow windowMs, by simp [SinceInv, start], by
        simp [Marked, start, emptyLog]⟩
    · rintro s ⟨now, e⟩ - ⟨hnow, hkeeps⟩ ⟨hinv, hsince, hmarked⟩
      have hlater : s.SamplerInv now := ⟨hinv.bursts.later hnow, hinv.frames, hinv.sends⟩
      have hsince' : s.SinceInv now := fun p hp => (hsince p hp).trans hnow
      have hsize := hinv.bursts.size_pos
      exact ⟨(hlater.act e).sameWork (by constructor <;> rfl), hsince'.act hsize,
        hmarked.act hsince' hsize hkeeps⟩
  exact ⟨hinv.1, hinv.2.2⟩

/-- **Server requests are kept while nothing overwrites their mark.**  In every run the budget is
kept, the frames settle, and a waiting trigger is never replaced by one of lower priority.  In every
run whose steps meet `KeepsMark` a server request keeps its mark until a burst is taken for it, and
once it is due a frame serves it exactly where the sampler is open to that frame. -/
theorem server_request_kept (s : BurstSampler) :
    (machine.Reachable s → s.BudgetKept ∧ s.FramesSettle ∧ ∀ now e p, s.clock ≤ now →
      s.queue.pending = some p → ¬ p.Stale now →
      ∀ p' ∈ (s.act now e).queue.pending, SAMPLE_PRIORITY p.trigger ≤ SAMPLE_PRIORITY p'.trigger) ∧
    ((machine.restrict KeepsMark).Reachable s →
      s.Marked ∧ ∀ now eligible, s.Due now → (s.Serves now eligible ↔ s.Open now eligible)) := by
  refine ⟨fun h => ?_, fun h => ?_⟩
  · have hinv := Reachable.samplerInv h
    exact ⟨hinv.bursts.kept, hinv.framesSettle, fun now e p _ hp hfresh =>
      priority_act hinv.bursts.size_pos hp hfresh⟩
  · obtain ⟨hinv, hmarked⟩ := Reachable.marked h
    exact ⟨hmarked, fun now eligible hdue => hmarked.serves_iff hinv.frames.collecting hdue⟩

/-- The face is hidden; the server asks for a sample. -/
def hiddenFace : List (Int × Event) :=
  [(0, .serverRequest .serverRequest 0), (1000, .frame false true 0), (2000, .frame false true 0),
    (3000, .frame false true 0)]

def newSampler : BurstSampler := start ⟨3, none⟩ 180 60000 0

theorem hiddenFace_sampled : (machine.run newSampler hiddenFace).captures = [(0, 0)] ∧
    (machine.run newSampler hiddenFace).Marked ∧
    (machine.run newSampler hiddenFace).Serves 3200 false := by
  have hadmits : (machine.restrict KeepsMark).Admits newSampler hiddenFace := by
    decide +kernel
  have hreach : (machine.restrict KeepsMark).Reachable newSampler :=
    .init ⟨⟨3, none⟩, 180, 60000, 0, rfl⟩
  obtain ⟨hmarked, hserves⟩ := (server_request_kept _).2 (hreach.run hadmits)
  have hdue : (machine.run newSampler hiddenFace).Due 3200 :=
    ⟨⟨0, by decide +kernel⟩, by decide, by decide, fun h => by revert h; decide +kernel, by decide +kernel⟩
  exact ⟨by decide +kernel, hmarked, (hserves 3200 false hdue).2 ⟨.inr rfl, by decide +kernel⟩⟩

/-- The face track breaks while the server's request waits; the face stays hidden. -/
theorem trackBreak_overwrites : ¬ ∀ s, machine.Reachable s → s.ServerKept := by
  intro h
  have hreach : machine.Reachable newSampler := .init ⟨⟨3, none⟩, 180, 60000, 0, rfl⟩
  have hrun : machine.Reachable (machine.run newSampler
      [(0, .serverRequest .serverRequest 0), (100, .request .trackBreak .engine)]) :=
    hreach.run ⟨by decide, by decide, trivial⟩
  have hserves := (h _ hrun).served 3200 false
    ⟨⟨0, by decide +kernel⟩, by decide, by decide, by decide +kernel, by decide +kernel⟩
  revert hserves
  decide +kernel

end BurstSampler

end SmartProctoring
