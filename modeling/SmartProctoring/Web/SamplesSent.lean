import Mathlib.Data.List.Perm.Lattice
import Mathlib.Data.List.TakeWhile
import SmartProctoring.Lib.Slots
import SmartProctoring.Web.BurstSampler

/-!
# The budget and the frames of the sampler

Three invariants.  `BurstInv`: the burst that is collected fits into the budget, and what was sent
in any window does too.  `FramesInv`: a captured frame is in the burst, or was sent; and a server
request collects in a burst.  `SendInv`: a frame that was sent was answered or handed to
`onSendFailed`, or is on its way to that.
-/

set_option autoImplicit false

namespace SmartProctoring

open List

namespace BurstSampler

variable {s t : BurstSampler} {now : Int}

/-! ## The invariants -/

/-- The frames sent in the window that begins at `w`. -/
def sentWithin (windowMs w : Int) (sent : List SentFrame) : List SentFrame :=
  sent.filter fun f => decide (w ≤ f.sentAt ∧ f.sentAt < w + windowMs)

/-- The frames sent directly never exceed the budget in any window. -/
def BudgetKept (s : BurstSampler) : Prop :=
  ∀ w, (sentWithin s.budget.windowMs w s.log.sent).length ≤ s.budget.maxPerWindow

structure BurstInv (s : BurstSampler) (now : Int) : Prop where
  size_pos : ∀ b ∈ s.burst, 0 < b.size
  room : ∀ b ∈ s.burst, b.frames.length + b.pendingCaptures ≤ b.size
  pending : ∀ b ∈ s.burst, b.pendingCaptures = s.captures.countP fun c => decide (c.1 = b.id)
  fresh : ∀ b ∈ s.burst, b.id < s.nextId
  captures : ∀ c ∈ s.captures, c.1 < s.nextId
  fits : ∀ b ∈ s.burst, s.budget.times.length + b.size ≤ s.budget.maxPerWindow
  /-- What the budget has forgotten is too old to count. -/
  spent : ∃ old, s.log.sent.map (·.sentAt) = old ++ s.budget.times ∧ ∀ t ∈ old,
    s.budget.windowMs ≤ now - t
  kept : s.BudgetKept

/-- The frames of the burst that is collected. -/
def collected (s : BurstSampler) : List Nat := s.burst.elim [] fun b => b.frames.map (·.sampleId)

structure FramesInv (s : BurstSampler) : Prop where
  once : s.log.captured.Nodup
  fresh : ∀ n ∈ s.log.captured, n < s.nextId
  captured : s.log.captured.Perm (s.collected ++ s.log.discarded ++ s.log.sent.map (·.sampleId))
  discarded : s.stopped = false → s.log.discarded = []
  collecting : s.log.collecting.isSome = true → s.burst.isSome = true

/-- The frames of a burst that is being sent of which the outcome is not known yet. -/
def outstanding (b : SendingBurst) : List SentFrame := b.inFlight ++ b.failed ++ b.keeping.getD []

def unsettled (s : BurstSampler) : List SentFrame := s.sending.elim [] outstanding

structure SendInv (s : BurstSampler) : Prop where
  settled : s.log.sent.Perm (s.unsettled ++ s.log.givenUp ++ (s.log.answered ++ s.log.sendFailed))
  givenUp : ∀ f ∈ s.log.givenUp, f.burst ∈ s.log.fatal ∨ s.stopped = true
  own : ∀ b ∈ s.sending, ∀ f ∈ outstanding b, f.burst = b.id
  keeping : ∀ b ∈ s.sending, b.keeping ≠ none → b.inFlight = [] ∧ b.failed = []

theorem BurstInv.congr (h : s.BurstInv now) (hburst : t.burst = s.burst)
    (hcaptures : t.captures = s.captures)
    (hnext : s.nextId ≤ t.nextId) (hbudget : t.budget = s.budget)
    (hsent : t.log.sent = s.log.sent) : t.BurstInv now where
  size_pos := hburst ▸ h.size_pos
  room := hburst ▸ h.room
  pending := by
    rw [hburst, hcaptures]
    exact h.pending
  fresh := by
    rw [hburst]
    exact fun b hb => (h.fresh b hb).trans_le hnext
  captures := by
    rw [hcaptures]
    exact fun c hc => (h.captures c hc).trans_le hnext
  fits := by
    rw [hburst, hbudget]
    exact h.fits
  spent := by
    rw [hsent, hbudget]
    exact h.spent
  kept := by
    rw [BudgetKept, hsent, hbudget]
    exact h.kept

theorem BurstInv.noBurst (h : s.BurstInv now) (hburst : t.burst = none)
    (hcaptures : t.captures = s.captures) (hnext : t.nextId = s.nextId)
    (hspent : ∃ old, t.log.sent.map (·.sentAt) = old ++ t.budget.times ∧ ∀ u ∈ old,
      t.budget.windowMs ≤ now - u)
    (hkept : t.BudgetKept) : t.BurstInv now where
  size_pos := by simp [hburst]
  room := by simp [hburst]
  pending := by simp [hburst]
  fresh := by simp [hburst]
  captures := by
    rw [hcaptures, hnext]
    exact h.captures
  fits := by simp [hburst]
  spent := hspent
  kept := hkept

theorem BurstInv.later (h : s.BurstInv now) {now' : Int} (hle : now ≤ now') : s.BurstInv now' :=
  { h with
    spent := by
      obtain ⟨old, hsent, hold⟩ := h.spent
      exact ⟨old, hsent, fun t ht => by have := hold t ht; omega⟩ }

theorem FramesInv.congr (h : s.FramesInv) (hburst : t.burst = s.burst)
    (hstopped : t.stopped = s.stopped)
    (hnext : s.nextId ≤ t.nextId) (hcaptured : t.log.captured = s.log.captured)
    (hdiscarded : t.log.discarded = s.log.discarded) (hsent : t.log.sent = s.log.sent)
    (hcollecting : t.log.collecting = s.log.collecting) : t.FramesInv where
  once := hcaptured ▸ h.once
  fresh := by
    rw [hcaptured]
    exact fun n hn => (h.fresh n hn).trans_le hnext
  captured := by
    rw [hcaptured, collected, hburst, hdiscarded, hsent]
    exact h.captured
  discarded := by
    rw [hstopped, hdiscarded]
    exact h.discarded
  collecting := by
    rw [hcollecting, hburst]
    exact h.collecting

theorem SendInv.congr (h : s.SendInv) (hsending : t.sending = s.sending)
    (hstopped : t.stopped = s.stopped)
    (hsent : t.log.sent = s.log.sent) (hgiven : t.log.givenUp = s.log.givenUp)
    (hanswered : t.log.answered = s.log.answered) (hfailed : t.log.sendFailed = s.log.sendFailed)
    (hfatal : t.log.fatal = s.log.fatal) : t.SendInv where
  settled := by
    rw [hsent, unsettled, hsending, hgiven, hanswered, hfailed]
    exact h.settled
  givenUp := by
    rw [hgiven, hfatal, hstopped]
    exact h.givenUp
  own := hsending ▸ h.own
  keeping := hsending ▸ h.keeping

theorem SendInv.sending {b : SendingBurst} (hsending : t.sending = some b)
    (hsettled : t.log.sent.Perm (outstanding b ++ t.log.givenUp ++ (t.log.answered ++ t.log.sendFailed)))
    (hgivenUp : ∀ f ∈ t.log.givenUp, f.burst ∈ t.log.fatal ∨ t.stopped = true)
    (hown : ∀ f ∈ outstanding b, f.burst = b.id)
    (hkeeping : b.keeping ≠ none → b.inFlight = [] ∧ b.failed = []) : t.SendInv where
  settled := by
    rw [unsettled, hsending]
    exact hsettled
  givenUp := hgivenUp
  own := by
    rw [hsending]
    rintro _ ⟨⟩
    exact hown
  keeping := by
    rw [hsending]
    rintro _ ⟨⟩
    exact hkeeping

/-! ## The queue -/

/-- Everything but the queue, the timers and the note of the request that waits. -/
structure SameWork (s t : BurstSampler) : Prop where
  burst : t.burst = s.burst
  captures : t.captures = s.captures
  nextId : t.nextId = s.nextId
  budget : t.budget = s.budget
  sending : t.sending = s.sending
  stopped : t.stopped = s.stopped
  captured : t.log.captured = s.log.captured
  discarded : t.log.discarded = s.log.discarded
  sent : t.log.sent = s.log.sent
  answered : t.log.answered = s.log.answered
  sendFailed : t.log.sendFailed = s.log.sendFailed
  givenUp : t.log.givenUp = s.log.givenUp
  fatal : t.log.fatal = s.log.fatal
  collecting : t.log.collecting = s.log.collecting

theorem SameWork.refl (s : BurstSampler) : s.SameWork s := by
  constructor <;> rfl

theorem sameWork_look : s.SameWork (s.look now) := by
  constructor <;> rfl

variable {trigger : IdentityCheckTrigger}

theorem sameWork_request {source : TriggerSource} :
    s.SameWork (s.request now trigger source) := by
  rw [request]
  split
  · exact .refl s
  · split
    · split
      · exact .refl s
      · split <;> constructor <;> rfl
    · constructor <;> rfl

theorem SameWork.trans {u : BurstSampler} (h : s.SameWork t) (h' : t.SameWork u) :
    s.SameWork u where
  burst := h'.burst.trans h.burst
  captures := h'.captures.trans h.captures
  nextId := h'.nextId.trans h.nextId
  budget := h'.budget.trans h.budget
  sending := h'.sending.trans h.sending
  stopped := h'.stopped.trans h.stopped
  captured := h'.captured.trans h.captured
  discarded := h'.discarded.trans h.discarded
  sent := h'.sent.trans h.sent
  answered := h'.answered.trans h.answered
  sendFailed := h'.sendFailed.trans h.sendFailed
  givenUp := h'.givenUp.trans h.givenUp
  fatal := h'.fatal.trans h.fatal
  collecting := h'.collecting.trans h.collecting

theorem sameWork_requestIn {inMs : Int} :
    s.SameWork (s.requestIn now trigger inMs) := by
  rw [requestIn]
  split
  · exact sameWork_request
  · constructor <;> rfl

theorem sameWork_serverRequest {inMs : Int} :
    s.SameWork (s.serverRequest now trigger inMs) := by
  rw [serverRequest]
  split
  · exact .refl s
  · split
    · split
      · exact .refl s
      · exact sameWork_requestIn
    · split
      · exact .refl s
      · split
        · exact sameWork_look
        · exact sameWork_look.trans sameWork_requestIn

theorem sameWork_timerFires {k : Nat} : s.SameWork (s.timerFires now k) := by
  rw [timerFires]
  split
  · exact .refl s
  next t _ =>
    have hshorter : s.SameWork { s with timers := s.timers.eraseIdx k } := by
      constructor <;> rfl
    exact hshorter.trans sameWork_request

theorem sameWork_dropPending :
    s.SameWork (s.dropPending now trigger) := by
  rw [dropPending]
  split <;> constructor <;> rfl

/-! ## The invariant -/

structure SamplerInv (s : BurstSampler) (now : Int) : Prop where
  bursts : s.BurstInv now
  frames : s.FramesInv
  sends : s.SendInv

theorem SamplerInv.sameWork (h : s.SamplerInv now) (hw : s.SameWork t) : t.SamplerInv now where
  bursts := h.bursts.congr hw.burst hw.captures hw.nextId.ge hw.budget hw.sent
  frames := h.frames.congr hw.burst hw.stopped hw.nextId.ge hw.captured hw.discarded hw.sent
    hw.collecting
  sends := h.sends.congr hw.sending hw.stopped hw.sent hw.givenUp hw.answered hw.sendFailed hw.fatal

theorem SamplerInv.prune (h : s.SamplerInv now) :
    { s with budget := s.budget.prune now }.SamplerInv now where
  bursts :=
    { h.bursts with
      fits := fun b hb => by
        have hfits := h.bursts.fits b hb
        have hle : (s.budget.prune now).times.length ≤ s.budget.times.length :=
          (dropWhile_sublist _).length_le
        show (s.budget.prune now).times.length + b.size ≤ s.budget.maxPerWindow
        omega
      spent := by
        obtain ⟨old, hsent, hold⟩ := h.bursts.spent
        refine ⟨old ++ s.budget.times.takeWhile fun t => decide (s.budget.windowMs ≤ now - t), ?_, ?_⟩
        · rw [append_assoc]
          show _ = old ++ (_ ++ (s.budget.times.dropWhile fun t => decide (s.budget.windowMs ≤ now - t)))
          rw [takeWhile_append_dropWhile]
          exact hsent
        · intro t ht
          rcases mem_append.1 ht with ht | ht
          · exact hold t ht
          · have hle := mem_takeWhile_imp ht
            exact of_decide_eq_true hle }
  frames := h.frames.congr rfl rfl le_rfl rfl rfl rfl rfl
  sends := h.sends.congr rfl rfl rfl rfl rfl rfl rfl

/-! ## Collecting -/

theorem sizeFor_pos (trigger : IdentityCheckTrigger) : 0 < s.sizeFor trigger :=
  Nat.lt_of_lt_of_le Nat.zero_lt_one (le_max_left _ _)

theorem SamplerInv.startBurst {eligible capturable : Bool} (h : s.SamplerInv now)
    (hb : s.burst = none) : (s.startBurst now eligible capturable).SamplerInv now := by
  rw [BurstSampler.startBurst]
  split
  · exact h.sameWork sameWork_look
  next p _ =>
    dsimp only
    split
    · exact h.sameWork sameWork_look
    · have hpruned := h.prune
      split
      · exact hpruned.sameWork (by constructor <;> rfl)
      next havailable =>
        refine ⟨⟨?_, ?_, ?_, ?_, ?_, ?_, hpruned.bursts.spent, hpruned.bursts.kept⟩, ?_,
          h.sends.congr rfl rfl rfl rfl rfl rfl rfl⟩
        · simp [sizeFor_pos]
        · simp
        · -- the captures are of earlier bursts
          simp only [Option.mem_def, Option.some.injEq, forall_eq']
          symm
          rw [countP_eq_zero]
          intro c hc
          have := h.bursts.captures c hc
          simp
          omega
        · simp
        · exact fun c hc => (h.bursts.captures c hc).trans (Nat.lt_succ_self _)
        · simp only [Option.mem_def, Option.some.injEq, forall_eq']
          have hle : s.sizeFor p.trigger ≤ s.budget.maxPerWindow - (s.budget.prune now).times.length :=
            not_lt.1 havailable
          have := sizeFor_pos (s := s) p.trigger
          show (s.budget.prune now).times.length + s.sizeFor p.trigger ≤ s.budget.maxPerWindow
          omega
        · refine ⟨h.frames.once, fun n hn => (h.frames.fresh n hn).trans (Nat.lt_succ_self _), ?_,
            h.frames.discarded, fun _ => rfl⟩
          have hcaptured := h.frames.captured
          rw [collected, hb] at hcaptured
          exact hcaptured

theorem SamplerInv.addFrame (h : s.SamplerInv now) {capturedAt : Int}
    (hroom : ∀ b ∈ s.burst, b.frames.length + b.pendingCaptures < b.size) :
    (s.addFrame now capturedAt).SamplerInv now := by
  rw [BurstSampler.addFrame]
  split
  · exact h
  next b hb =>
    refine ⟨⟨?_, ?_, ?_, ?_, ?_, ?_, h.bursts.spent, h.bursts.kept⟩, ⟨h.frames.once, h.frames.fresh, ?_,
      h.frames.discarded, fun _ => rfl⟩, h.sends.congr rfl rfl rfl rfl rfl rfl rfl⟩
    · simpa using h.bursts.size_pos b hb
    · have := hroom b hb
      simp only [Option.mem_def, Option.some.injEq, forall_eq']
      omega
    · have := h.bursts.pending b hb
      simp only [Option.mem_def, Option.some.injEq, forall_eq', countP_append, countP_singleton,
        decide_true, if_true]
      omega
    · simpa using h.bursts.fresh b hb
    · intro c hc
      rcases mem_snoc.1 hc with hc | rfl
      · exact h.bursts.captures c hc
      · exact h.bursts.fresh b hb
    · simpa using h.bursts.fits b hb
    · have hcaptured := h.frames.captured
      rw [collected, hb] at hcaptured
      exact hcaptured

variable {b : ActiveBurst}

theorem SamplerInv.joinBurst (h : s.SamplerInv now) {k : Nat} {c : Nat × Int}
    (hk : s.captures[k]? = some c) (hb : s.burst = some b) (hc : b.id = c.1) {f : Option BurstFrame}
    (hf : ∀ x ∈ f, x.sampleId = s.nextId) :
    ({ s with captures := s.captures.eraseIdx k }.joinBurst b f).SamplerInv now := by
  have hcount := (perm_eraseIdx_of_getElem? hk).countP_eq fun c => decide (c.1 = b.id)
  rw [← h.bursts.pending b hb, countP_cons_of_pos (by simp [hc])] at hcount
  have hroom := h.bursts.room b hb
  have hlen : f.toList.length ≤ 1 := by
    cases f <;> simp
  refine ⟨⟨?_, ?_, ?_, ?_, ?_, ?_, h.bursts.spent, h.bursts.kept⟩, ⟨?_, ?_, ?_, h.frames.discarded,
    fun _ => rfl⟩, h.sends.congr rfl rfl rfl rfl rfl rfl rfl⟩
  · simpa [BurstSampler.joinBurst] using h.bursts.size_pos b hb
  · simp only [BurstSampler.joinBurst, Option.mem_def, Option.some.injEq, forall_eq', length_append]
    omega
  · simp only [BurstSampler.joinBurst, Option.mem_def, Option.some.injEq, forall_eq']
    omega
  · simp only [BurstSampler.joinBurst, Option.mem_def, Option.some.injEq, forall_eq']
    exact (h.bursts.fresh b hb).trans_le (Nat.le_add_right _ _)
  · intro c hc
    exact (h.bursts.captures c (mem_of_mem_eraseIdx hc)).trans_le (Nat.le_add_right _ _)
  · simpa [BurstSampler.joinBurst] using h.bursts.fits b hb
  · cases f with
    | none => simpa [BurstSampler.joinBurst] using h.frames.once
    | some x =>
      refine nodup_append.2 ⟨h.frames.once, nodup_singleton _, ?_⟩
      intro n hn m hm
      have hlt := h.frames.fresh n hn
      have hm : m = x.sampleId := mem_singleton.1 hm
      rw [hm, hf x rfl]
      exact hlt.ne
  · cases f with
    | none => simpa [BurstSampler.joinBurst] using h.frames.fresh
    | some x =>
      intro n hn
      rcases mem_append.1 hn with hn | hn
      · exact (h.frames.fresh n hn).trans (Nat.lt_succ_self _)
      · have hn : n = x.sampleId := mem_singleton.1 hn
        rw [hn, hf x rfl]
        exact Nat.lt_succ_self _
  · have hcaptured := h.frames.captured
    rw [collected, hb] at hcaptured
    simp only [BurstSampler.joinBurst, collected, Option.elim_some, map_append]
    refine (hcaptured.append_right _).trans ?_
    simp only [Option.elim_some, append_assoc]
    refine List.Perm.append_left _ ?_
    rw [← append_assoc]
    exact perm_append_comm

/-! ## A burst ends -/

theorem SamplerInv.pushBack (h : s.SamplerInv now) (hb : s.burst = some b)
    (hnil : b.frames = []) : (s.pushBack now b).SamplerInv now := by
  refine ⟨h.bursts.noBurst rfl rfl rfl h.bursts.spent h.bursts.kept, ⟨h.frames.once, h.frames.fresh,
    ?_, h.frames.discarded, fun h => h⟩, h.sends.congr rfl rfl rfl rfl rfl rfl rfl⟩
  have hcaptured := h.frames.captured
  rw [collected, hb, Option.elim_some, hnil] at hcaptured
  exact hcaptured

theorem framesToSend_burst {f : SentFrame} (hf : f ∈ framesToSend b now) :
    f.burst = b.id ∧ f.sentAt = now := by
  rw [framesToSend, mem_mapIdx] at hf
  obtain ⟨i, hi, rfl⟩ := hf
  exact ⟨rfl, rfl⟩

theorem length_framesToSend (b : ActiveBurst) : (framesToSend b now).length = b.frames.length := by
  rw [framesToSend, length_mapIdx, length_insertionSort]

theorem framesToSend_ids (b : ActiveBurst) :
    ((framesToSend b now).map (·.sampleId)).Perm (b.frames.map (·.sampleId)) := by
  have hids : (framesToSend b now).map (·.sampleId) =
      (b.frames.insertionSort fun x y => x.capturedAt ≤ y.capturedAt).map (·.sampleId) := by
    rw [framesToSend]
    exact ext_getElem? fun i => by simp [Function.comp_def]
  rw [hids]
  exact (perm_insertionSort _ _).map _

theorem map_sentAt_framesToSend (b : ActiveBurst) :
    (framesToSend b now).map (·.sentAt) = replicate b.frames.length now := by
  refine eq_replicate_iff.2 ⟨by rw [length_map, length_framesToSend], fun t ht => ?_⟩
  obtain ⟨f, hf, rfl⟩ := mem_map.1 ht
  exact (framesToSend_burst hf).2

theorem BurstInv.budgetKept_sendBurst (h : s.BurstInv now) (hb : s.burst = some b) :
    (s.sendBurst now b).BudgetKept := by
  intro w
  show (sentWithin s.budget.windowMs w (s.log.sent ++ framesToSend b now)).length ≤
    s.budget.maxPerWindow
  rw [sentWithin, filter_append, length_append]
  by_cases hw : w ≤ now ∧ now < w + s.budget.windowMs
  · obtain ⟨old, hsent, hold⟩ := h.spent
    have hold' : ∀ t ∈ old, ¬ (w ≤ t ∧ t < w + s.budget.windowMs) := by
      intro t ht
      have := hold t ht
      omega
    have hcount : (sentWithin s.budget.windowMs w s.log.sent).length ≤ s.budget.times.length := by
      have hmap : (sentWithin s.budget.windowMs w s.log.sent).length =
          ((s.log.sent.map (·.sentAt)).filter fun t => decide (w ≤ t ∧ t < w + s.budget.windowMs)).length := by
        rw [filter_map, length_map]
        rfl
      rw [hmap, hsent, filter_append, filter_eq_nil_iff.2 fun t ht => by simpa using hold' t ht]
      exact length_filter_le _ _
    have hnew := length_filter_le (fun f => decide (w ≤ f.sentAt ∧ f.sentAt < w + s.budget.windowMs))
      (framesToSend b now)
    rw [length_framesToSend] at hnew
    have hfits := h.fits b hb
    have hroom := h.room b hb
    rw [sentWithin] at hcount
    omega
  · have hnone : (framesToSend b now).filter
        (fun f => decide (w ≤ f.sentAt ∧ f.sentAt < w + s.budget.windowMs)) = [] := by
      refine filter_eq_nil_iff.2 fun f hf => ?_
      rw [(framesToSend_burst hf).2]
      simpa using hw
    rw [hnone]
    exact h.kept w

section

variable (h : s.SamplerInv now)
include h

theorem SamplerInv.sendBurst (hb : s.burst = some b)
    (hsending : s.sending = none) : ({ s with burst := none }.sendBurst now b).SamplerInv now := by
  refine ⟨h.bursts.noBurst rfl rfl rfl ?_ (h.bursts.budgetKept_sendBurst hb),
    ⟨h.frames.once, h.frames.fresh, ?_, h.frames.discarded, fun h => h⟩,
      .sending rfl ?_ h.sends.givenUp ?_ ?_⟩
  · obtain ⟨old, hsent, hold⟩ := h.bursts.spent
    refine ⟨old, ?_, hold⟩
    rw [BurstSampler.sendBurst, map_append, hsent, map_sentAt_framesToSend, append_assoc]
    rfl
  · have hcaptured := h.frames.captured
    rw [collected, hb, Option.elim_some] at hcaptured
    have hids : (s.log.discarded ++ (s.log.sent ++ framesToSend b now).map (·.sampleId)).Perm
        (s.log.discarded ++ (s.log.sent.map (·.sampleId) ++ b.frames.map (·.sampleId))) := by
      rw [map_append]
      exact ((framesToSend_ids b).append_left _).append_left _
    refine hcaptured.trans (List.Perm.trans ?_ hids.symm)
    rw [append_assoc]
    refine (perm_append_comm).trans ?_
    rw [append_assoc]
  · have hsettled := h.sends.settled
    rw [unsettled, hsending] at hsettled
    simp only [BurstSampler.sendBurst, outstanding, Option.getD_none, append_nil]
    refine (hsettled.append_right _).trans ?_
    rw [append_assoc (framesToSend b now)]
    exact perm_append_comm
  · intro f hf
    simp only [outstanding, Option.getD_none, append_nil] at hf
    exact (framesToSend_burst hf).1
  · exact absurd rfl

theorem SamplerInv.finish : (s.finish now).SamplerInv now := by
  rw [BurstSampler.finish]
  split
  · exact h
  next b hb =>
    split
    · exact h
    next hidle =>
      split
      next hnil => exact h.pushBack hb hnil
      next => exact h.sendBurst hb (by simpa using (not_or.1 hidle).1)

theorem SamplerInv.wantsFrame (eligible capturable : Bool) :
    (s.wantsFrame now eligible capturable).2.SamplerInv now ∧
      ((s.wantsFrame now eligible capturable).1 = true →
        ∀ b ∈ (s.wantsFrame now eligible capturable).2.burst,
          b.frames.length + b.pendingCaptures < b.size) := by
  have hstarted : (if s.burst.isNone = true then s.startBurst now eligible capturable
      else s).SamplerInv now := by
    split
    next hb => exact h.startBurst (by simpa using hb)
    next => exact h
  rw [BurstSampler.wantsFrame]
  split
  · exact ⟨h, fun hf => by simp at hf⟩
  · dsimp only
    split
    · exact ⟨hstarted, fun hf => by simp at hf⟩
    next b hb =>
      split
      · exact ⟨hstarted.finish, fun hf => by simp at hf⟩
      · refine ⟨hstarted, fun htakes b' hb' => ?_⟩
        rw [hb] at hb'
        obtain rfl := Option.some.inj hb'
        simp only [takes, Bool.and_eq_true, decide_eq_true_eq] at htakes
        exact htakes.1.2

theorem SamplerInv.frame (eligible capturable : Bool) (capturedAt : Int) :
    (s.frame now eligible capturable capturedAt).SamplerInv now := by
  obtain ⟨hinv, hroom⟩ := h.wantsFrame eligible capturable
  rw [BurstSampler.frame]
  split
  next hwants => exact hinv.addFrame (hroom hwants)
  next => exact hinv

theorem SamplerInv.captureSettles (k : Nat) (ok : Bool) :
    (s.captureSettles now k ok).SamplerInv now := by
  rw [BurstSampler.captureSettles]
  split
  · exact h
  next c hk =>
    have hothers : s.burst.all (fun b => decide (b.id ≠ c.1)) = true →
        { s with captures := s.captures.eraseIdx k }.SamplerInv now := by
      intro hne
      refine ⟨{ h.bursts with
        pending := fun b hb => ?_
        captures := fun c hc => h.bursts.captures c (mem_of_mem_eraseIdx hc) },
        h.frames.congr rfl rfl le_rfl rfl rfl rfl rfl, h.sends.congr rfl rfl rfl rfl rfl rfl rfl⟩
      have hcount := (perm_eraseIdx_of_getElem? hk).countP_eq fun c => decide (c.1 = b.id)
      have hid : ¬ c.1 = b.id := by
        intro heq
        rw [Option.mem_def.1 hb] at hne
        simp [heq] at hne
      rw [← h.bursts.pending b hb, countP_cons_of_neg (by simpa using hid)] at hcount
      exact hcount
    dsimp only
    split
    next hb => exact hothers (by rw [hb]; rfl)
    next b hb =>
      split
      next hne => exact hothers (by rw [hb]; simpa using hne)
      next hid =>
        have hf : ∀ x ∈ (if ok = true then some (⟨s.nextId, c.2⟩ : BurstFrame) else none),
            x.sampleId = s.nextId := by
          cases ok <;> simp
        generalize (if ok = true then some (⟨s.nextId, c.2⟩ : BurstFrame) else none) = f at hf ⊢
        have hjoined := h.joinBurst hk hb (not_not.1 hid) hf
        split
        · exact hjoined.finish
        · exact hjoined

theorem SamplerInv.tick : (s.tick now).SamplerInv now := by
  rw [BurstSampler.tick]
  split
  · exact h
  · split
    · exact h.finish
    · exact h

end

/-! ## Sends settle -/

section Sends

variable {b : SendingBurst}

section

variable (h : s.SendInv)
include h

theorem SendInv.of_sending (hb : s.sending = some b) :
    s.log.sent.Perm (outstanding b ++ s.log.givenUp ++ (s.log.answered ++ s.log.sendFailed)) ∧
      (∀ f ∈ outstanding b, f.burst = b.id) ∧ (b.keeping ≠ none → b.inFlight = [] ∧ b.failed = []) := by
  refine ⟨?_, h.own b hb, h.keeping b hb⟩
  have hsettled := h.settled
  rwa [unsettled, hb] at hsettled

theorem SendInv.answered (k : Nat) (answer : DirectAnswer) : (s.answered k answer).SendInv := by
  rw [BurstSampler.answered]
  split
  · exact h
  next b hb =>
    split
    · exact h
    next f hk =>
      obtain ⟨hsettled, hown, hkeeping⟩ := h.of_sending hb
      have hperm : (outstanding b).Perm (f :: (b.inFlight.eraseIdx k ++ b.failed ++ b.keeping.getD [])) :=
        ((perm_eraseIdx_of_getElem? hk).append_right _).append_right _
      have hout : s.log.sent.Perm (b.inFlight.eraseIdx k ++ b.failed ++ b.keeping.getD [] ++
          s.log.givenUp ++ (s.log.answered ++ [f] ++ s.log.sendFailed)) := by
        refine (hsettled.trans ((hperm.append_right _).append_right _)).trans ?_
        rw [perm_iff_count]
        simp only [count_append, count_cons, count_nil]
        omega
      have hsub : ∀ g ∈ b.inFlight.eraseIdx k ++ b.failed ++ b.keeping.getD [], g.burst = b.id := fun g hg =>
        hown g (hperm.symm.subset (mem_cons_of_mem _ hg))
      have hkeep : b.keeping ≠ none → b.inFlight.eraseIdx k = [] ∧ b.failed = [] := by
        intro hne
        rw [(hkeeping hne).1] at hk
        simp at hk
      split
      · exact .sending rfl hout h.givenUp hsub hkeep
      · exact .sending rfl hout h.givenUp hsub hkeep

theorem SendInv.sendFails (k : Nat) : (s.sendFails k).SendInv := by
  rw [BurstSampler.sendFails]
  split
  · exact h
  next b hb =>
    split
    · exact h
    next f hk =>
      obtain ⟨hsettled, hown, hkeeping⟩ := h.of_sending hb
      have hperm : (outstanding b).Perm (b.inFlight.eraseIdx k ++ (b.failed ++ [f]) ++ b.keeping.getD []) := by
        refine (((perm_eraseIdx_of_getElem? hk).append_right _).trans ?_).append_right _
        rw [← append_assoc]
        exact (perm_append_singleton _ _).symm
      refine .sending rfl (hsettled.trans ((hperm.append_right _).append_right _)) h.givenUp ?_ ?_
      · exact fun g hg => hown g (hperm.symm.subset hg)
      · intro hne
        rw [(hkeeping hne).1] at hk
        simp at hk

theorem SendInv.keepNext (hb : s.sending = some b) {l : List SentFrame}
    (hl : (outstanding b).Perm l) : (s.keepNext b l).SendInv := by
  obtain ⟨hsettled, hown, hkeeping⟩ := h.of_sending hb
  have hall := hsettled.trans ((hl.append_right _).append_right _)
  cases l with
  | nil => exact ⟨hall, h.givenUp, by simp [BurstSampler.keepNext], by simp [BurstSampler.keepNext]⟩
  | cons f l =>
    refine .sending rfl ?_ h.givenUp ?_ fun _ => ⟨rfl, rfl⟩
    · refine hall.trans ?_
      simp only [BurstSampler.keepNext, outstanding, Option.getD_some, nil_append]
      rw [perm_iff_count]
      simp only [count_append, count_cons, count_nil]
      omega
    · intro g hg
      exact hown g (hl.symm.subset (mem_cons_of_mem _ hg))

theorem SendInv.sendsSettled : s.sendsSettled.SendInv := by
  rw [BurstSampler.sendsSettled]
  split
  · exact h
  next b hb =>
    split
    · exact h
    next hidle =>
      simp only [ne_eq, not_or, not_not] at hidle
      have hout : outstanding b = b.failed := by
        simp [outstanding, hidle.1, hidle.2]
      split
      next hstopped =>
        obtain ⟨hsettled, -, -⟩ := h.of_sending hb
        refine ⟨?_, fun f hf => .inr hstopped, by simp, by simp⟩
        refine hsettled.trans (List.Perm.append_right _ ?_)
        rw [hout]
        exact perm_append_comm
      next =>
        refine h.keepNext hb ?_
        rw [hout]
        exact (perm_insertionSort _ _).symm

theorem SendInv.failureKept (outcome : SendFailure) : (s.failureKept outcome).SendInv := by
  rw [BurstSampler.failureKept]
  split
  · exact h
  next b hb =>
    split
    · exact h
    next rest hrest =>
      obtain ⟨hsettled, hown, hkeeping⟩ := h.of_sending hb
      obtain ⟨hinFlight, hfailed⟩ := hkeeping (by simp [hrest])
      have hout : outstanding b = rest := by
        simp [outstanding, hinFlight, hfailed, hrest]
      rw [hout] at hsettled hown
      split
      · refine ⟨?_, ?_, by simp, by simp⟩
        · exact hsettled.trans (List.Perm.append_right _ perm_append_comm)
        · intro f hf
          rcases mem_append.1 hf with hf | hf
          · exact (h.givenUp f hf).imp (mem_append_left _) id
          · exact .inl (by simp [hown f hf])
      · exact h.keepNext hb (by rw [hout])

end

end Sends

/-- What happens to the sends leaves the bursts alone. -/
structure SameBursts (s t : BurstSampler) : Prop where
  burst : t.burst = s.burst
  captures : t.captures = s.captures
  nextId : t.nextId = s.nextId
  budget : t.budget = s.budget
  stopped : t.stopped = s.stopped
  captured : t.log.captured = s.log.captured
  discarded : t.log.discarded = s.log.discarded
  sent : t.log.sent = s.log.sent
  collecting : t.log.collecting = s.log.collecting

theorem SamplerInv.sends_step (h : s.SamplerInv now) (hsame : s.SameBursts t) (hsends : t.SendInv) :
    t.SamplerInv now where
  bursts := h.bursts.congr hsame.burst hsame.captures hsame.nextId.ge hsame.budget hsame.sent
  frames := h.frames.congr hsame.burst hsame.stopped hsame.nextId.ge hsame.captured
    hsame.discarded hsame.sent hsame.collecting
  sends := hsends

theorem sameBursts_keepNext (b : SendingBurst) (l : List SentFrame) :
    s.SameBursts (s.keepNext b l) := by
  cases l <;> constructor <;> rfl

theorem sameBursts_answered (k : Nat) (answer : DirectAnswer) :
    s.SameBursts (s.answered k answer) := by
  rw [answered]
  split
  · constructor <;> rfl
  · split
    · constructor <;> rfl
    · split <;> constructor <;> rfl

theorem sameBursts_sendFails (k : Nat) : s.SameBursts (s.sendFails k) := by
  rw [sendFails]
  split
  · constructor <;> rfl
  · split <;> constructor <;> rfl

theorem sameBursts_sendsSettled : s.SameBursts s.sendsSettled := by
  rw [sendsSettled]
  split
  · constructor <;> rfl
  · split
    · constructor <;> rfl
    · split
      · constructor <;> rfl
      · exact sameBursts_keepNext _ _

theorem sameBursts_failureKept (outcome : SendFailure) : s.SameBursts (s.failureKept outcome) := by
  rw [failureKept]
  split
  · constructor <;> rfl
  · split
    · constructor <;> rfl
    · split
      · constructor <;> rfl
      · exact sameBursts_keepNext _ _

/-! ## Runs -/

theorem SamplerInv.stop (h : s.SamplerInv now) : s.stop.SamplerInv now := by
  refine ⟨h.bursts.noBurst rfl rfl rfl h.bursts.spent h.bursts.kept, ⟨h.frames.once, h.frames.fresh,
    ?_, ?_, fun h => h⟩, ⟨h.sends.settled, ?_, h.sends.own, h.sends.keeping⟩⟩
  · refine h.frames.captured.trans (List.Perm.append_right _ ?_)
    exact perm_append_comm
  · intro hrunning
    cases hrunning
  · exact fun f _ => .inr rfl

theorem SamplerInv.act (h : s.SamplerInv now) (e : Event) : (s.act now e).SamplerInv now := by
  cases e with
  | request => exact h.sameWork sameWork_request
  | serverRequest => exact h.sameWork sameWork_serverRequest
  | timerFires k => exact h.sameWork sameWork_timerFires
  | frame eligible capturable capturedAt => exact h.frame eligible capturable capturedAt
  | captureSettles k ok => exact h.captureSettles k ok
  | tick => exact h.tick
  | answered k answer => exact h.sends_step (sameBursts_answered k answer) (h.sends.answered k answer)
  | sendFails k => exact h.sends_step (sameBursts_sendFails k) (h.sends.sendFails k)
  | sendsSettled => exact h.sends_step sameBursts_sendsSettled h.sends.sendsSettled
  | failureKept outcome => exact h.sends_step (sameBursts_failureKept outcome) (h.sends.failureKept outcome)
  | dropPending trigger => exact h.sameWork sameWork_dropPending
  | pendingTrigger =>
    rw [BurstSampler.act]
    split
    · exact h
    · exact h.sameWork sameWork_look
  | budgetLeft => exact h.prune
  | stop => exact h.stop

theorem samplerInv_start (sizes : SamplerSizes) (maxPerWindow : Nat) (windowMs : Int) :
    (start sizes maxPerWindow windowMs now).SamplerInv now := by
  refine ⟨⟨?_, ?_, ?_, ?_, ?_, ?_, ⟨[], rfl, by simp⟩, ?_⟩,
    ⟨nodup_nil, ?_, .refl _, fun _ => rfl, fun h => h⟩,
    ⟨.refl _, ?_, ?_, ?_⟩⟩ <;> simp [start, emptyLog, BudgetKept, sentWithin]

theorem Reachable.samplerInv (h : machine.Reachable s) : s.SamplerInv s.clock := by
  refine h.invariant (I := fun s => s.SamplerInv s.clock) ?_ ?_
  · rintro _ ⟨sizes, maxPerWindow, windowMs, now, rfl⟩
    exact samplerInv_start sizes maxPerWindow windowMs
  · rintro s ⟨now, e⟩ - hnow hinv
    have hlater : s.SamplerInv now := ⟨hinv.bursts.later hnow, hinv.frames, hinv.sends⟩
    have hact := hlater.act e
    exact hact.sameWork (by constructor <;> rfl)

end BurstSampler

end SmartProctoring
