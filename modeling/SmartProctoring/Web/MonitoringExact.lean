import SmartProctoring.Lib.Slots
import SmartProctoring.Web.Controller

/-!
# Monitoring runs exactly while it should

`RuntimesInv` says where the runtimes are that were not stopped: one is the controller's, the others
are held by calls of `stopMonitoring` that wait for a recording.  `Synced` says that `syncServices`
would change nothing, unless a call of it is still to come.  Every step that is `Orderly` keeps
both.
-/

set_option autoImplicit false

namespace SmartProctoring

open List Option

/-- The runtime that a call is still to stop. -/
def ControllerTask.holds : ControllerTask → Option Nat
  | .stop (.recording rt) _ _ => rt
  | _ => none

/-- Calls that end with a state that is applied, if nothing fails. -/
def ControllerTask.syncs : ControllerTask → Bool
  | .load _ => true
  | .apply => true
  | .stop _ _ after => decide (after ≠ .nothing)
  | _ => false

namespace Controller

/-- The monitoring should run. -/
def Wanted (c : Controller) : Prop :=
  c.fatal = false ∧ c.awaitingContinue = none ∧ ∃ s ∈ c.state, s.shouldMonitor = true

/-- `syncServices` would start the monitoring. -/
def ToStart (c : Controller) : Prop := c.Wanted ∧ c.runtime = none

/-- `syncServices` would stop the monitoring. -/
def ToStop (c : Controller) : Prop :=
  c.fatal = false ∧ c.runtime ≠ none ∧ ∃ s ∈ c.state, s.shouldMonitor = false

/-- `syncServices` would change nothing, or a call of it is still to come. -/
def Synced (c : Controller) : Prop := ¬ c.ToStart ∧ ¬ c.ToStop ∨ ∃ t ∈ c.tasks, t.syncs = true

/-- `held`: the runtime that the call that is running now is still to stop. -/
structure RuntimesInv (c : Controller) (held : Option Nat) : Prop where
  current : ∀ rt, c.runtime = some rt → c.runtimes[rt]? = some ⟨true, false⟩
  owned : ∀ rt f, c.runtimes[rt]? = some f → f.stopped = false →
    c.runtime = some rt ∨ held = some rt ∨ ∃ t ∈ c.tasks, t.holds = some rt
  apart : ∀ t ∈ c.tasks, ∀ rt, t.holds = some rt → rt < c.runtimes.length ∧ c.runtime ≠ some rt
  heldApart : ∀ rt, held = some rt → rt < c.runtimes.length ∧ c.runtime ≠ some rt
  single : ∀ (i j : Nat) (f g : RuntimeFlags), c.runtimes[i]? = some f → c.runtimes[j]? = some g →
    f.stopped = false → g.stopped = false → i = j
  waiting : c.runtime ≠ none → c.awaitingContinue = none
  fatal : c.fatal = true → c.runtime = none
  loaded : c.state = none → c.runtime = none

variable {c : Controller} {held : Option Nat} {t : ControllerTask} {flush : Bool}
    {after : AfterStop}

/-! ## The runtimes -/

namespace RuntimesInv

variable {c' : Controller}

theorem frame (h : RuntimesInv c held) (hruntimes : c'.runtimes = c.runtimes)
    (hruntime : c'.runtime = c.runtime)
    (htasks : c'.tasks = c.tasks) (waiting : c'.runtime ≠ none → c'.awaitingContinue = none)
    (fatal : c'.fatal = true → c'.runtime = none) (loaded : c'.state = none → c'.runtime = none) :
    RuntimesInv c' held where
  current rt hrt := by
    rw [hruntimes]
    exact h.current rt (hruntime ▸ hrt)
  owned rt f hf hs := by
    rw [hruntime, htasks]
    exact h.owned rt f (hruntimes ▸ hf) hs
  apart t ht rt hrt := by
    rw [hruntimes, hruntime]
    exact h.apart t (htasks ▸ ht) rt hrt
  heldApart rt hrt := by
    rw [hruntimes, hruntime]
    exact h.heldApart rt hrt
  single := by
    rw [hruntimes]
    exact h.single
  waiting := waiting
  fatal := fatal
  loaded := loaded

theorem push (h : RuntimesInv c held) (ht : t.holds = none) : RuntimesInv (c.push t) held where
  __ := h
  owned rt f hf hs := by
    obtain hrt | hrt | ⟨t', ht', hrt⟩ := h.owned rt f hf hs
    · exact .inl hrt
    · exact .inr (.inl hrt)
    · exact .inr (.inr ⟨t', mem_append_left _ ht', hrt⟩)
  apart t' ht' rt hrt := by
    rcases mem_snoc.1 ht' with ht' | rfl
    · exact h.apart t' ht' rt hrt
    · rw [ht] at hrt
      cases hrt

theorem pushHeld (h : RuntimesInv c held) (ht : t.holds = held) : RuntimesInv (c.push t) none where
  __ := h
  owned rt f hf hs := by
    obtain hrt | hrt | ⟨t', ht', hrt⟩ := h.owned rt f hf hs
    · exact .inl hrt
    · exact .inr (.inr ⟨t, mem_append_right _ (mem_singleton_self t), ht.trans hrt⟩)
    · exact .inr (.inr ⟨t', mem_append_left _ ht', hrt⟩)
  apart t' ht' rt hrt := by
    rcases mem_snoc.1 ht' with ht' | rfl
    · exact h.apart t' ht' rt hrt
    · rw [ht] at hrt
      exact h.heldApart rt hrt
  heldApart _ hrt := by cases hrt

/-- A call goes on. -/
theorem erase (h : RuntimesInv c none) {i : Nat} (hi : c.tasks[i]? = some t) :
    RuntimesInv { c with tasks := c.tasks.eraseIdx i } t.holds where
  __ := h
  owned rt f hf hs := by
    obtain hrt | hrt | ⟨t', ht', hrt⟩ := h.owned rt f hf hs
    · exact .inl hrt
    · cases hrt
    · rcases mem_cons.1 ((perm_eraseIdx_of_getElem? hi).mem_iff.1 ht') with rfl | ht'
      · exact .inr (.inl hrt)
      · exact .inr (.inr ⟨t', ht', hrt⟩)
  apart t' ht' := h.apart t' (mem_of_mem_eraseIdx ht')
  heldApart := h.apart t (mem_of_getElem? hi)

theorem letGo (h : RuntimesInv c none) (recording : Option Nat) :
    RuntimesInv { c with runtime := none, recording } c.runtime where
  current _ hrt := by cases hrt
  owned rt f hf hs := by
    obtain hrt | hrt | ht := h.owned rt f hf hs
    · exact .inr (.inl hrt)
    · cases hrt
    · exact .inr (.inr ht)
  apart t ht rt hrt := ⟨(h.apart t ht rt hrt).1, by simp⟩
  heldApart rt hrt := ⟨(List.getElem?_eq_some_iff.1 (h.current rt hrt)).1, by simp⟩
  single := h.single
  waiting hne := absurd rfl hne
  fatal _ := rfl
  loaded _ := rfl

theorem stopRuntime {rt : Nat} (h : RuntimesInv c (some rt)) :
    RuntimesInv (c.stopRuntime rt) none := by
  have hopen : ∀ (i : Nat) (f : RuntimeFlags), (c.stopRuntime rt).runtimes[i]? = some f →
      f.stopped = false → c.runtimes[i]? = some f ∧ i ≠ rt := by
    intro i f hf hs
    have hf : (c.runtimes.modify rt fun _ => (⟨false, true⟩ : RuntimeFlags))[i]? = some f := hf
    rw [List.getElem?_modify] at hf
    by_cases hi : rt = i
    · subst hi
      simp only [if_true, Option.map_eq_map, map_eq_some_iff] at hf
      obtain ⟨_, -, rfl⟩ := hf
      cases hs
    · simp only [hi, if_false, Option.map_eq_map, Option.map_id_fun', id] at hf
      exact ⟨hf, Ne.symm hi⟩
  constructor
  · intro rt' hrt'
    have hne : rt ≠ rt' := by
      rintro rfl
      exact (h.heldApart rt rfl).2 hrt'
    show (c.runtimes.modify rt fun _ => (⟨false, true⟩ : RuntimeFlags))[rt']? = _
    rw [List.getElem?_modify, h.current rt' hrt']
    simp [hne]
  · intro rt' f hf hs
    obtain ⟨hf, hne⟩ := hopen rt' f hf hs
    obtain hrt | hrt | ht := h.owned rt' f hf hs
    · exact .inl hrt
    · exact absurd (some.inj hrt).symm hne
    · exact .inr (.inr ht)
  · intro t ht rt' hrt'
    obtain ⟨hlt, hne⟩ := h.apart t ht rt' hrt'
    exact ⟨by simpa [Controller.stopRuntime] using hlt, hne⟩
  · intro rt' hrt'
    cases hrt'
  · intro i j f g hf hg hfs hgs
    exact h.single i j f g (hopen i f hf hfs).1 (hopen j g hg hgs).1 hfs hgs
  · exact h.waiting
  · exact h.fatal
  · exact h.loaded

theorem stopFlush (h : RuntimesInv c held) : RuntimesInv (c.stopFlush flush after) held := by
  refine h.push ?_
  split <;> rfl

theorem stopRest (h : RuntimesInv c held) : RuntimesInv (c.stopRest held flush after) none := by
  cases held with
  | some rt => exact h.stopRuntime.push rfl
  | none => exact h.stopFlush

variable (flush after) in
theorem stopMonitoring (h : RuntimesInv c none) :
    RuntimesInv (c.stopMonitoring flush after) none := by
  have hidle := h.letGo none
  unfold Controller.stopMonitoring
  dsimp only
  split
  · exact hidle.pushHeld rfl
  · exact hidle.stopRest

end RuntimesInv

theorem stopMonitoring_runtime : (c.stopMonitoring flush after).runtime = none := by
  unfold Controller.stopMonitoring
  split
  · rfl
  · cases hrt : c.runtime with
    | some rt | none => rfl

variable (c flush after) in
theorem stopMonitoring_kept :
    (c.stopMonitoring flush after).state = c.state ∧ (c.stopMonitoring flush after).fatal =
      c.fatal ∧ (c.stopMonitoring flush after).awaitingContinue = c.awaitingContinue := by
  unfold Controller.stopMonitoring
  dsimp only
  split
  · exact ⟨rfl, rfl, rfl⟩
  · cases hrt : c.runtime with
    | some rt | none => exact ⟨rfl, rfl, rfl⟩

variable (c flush after) in
theorem stopMonitoring_tasks : ∃ wait, (c.stopMonitoring flush after).tasks = c.tasks ++
    [.stop wait flush after] := by
  unfold Controller.stopMonitoring
  dsimp only
  split
  · exact ⟨_, rfl⟩
  · cases hrt : c.runtime with
    | some rt | none => exact ⟨_, rfl⟩

/-! ## `syncServices` -/

/-- Where `syncServices` starts the monitoring, no stop waits for a recording while it holds a
runtime; and a start is dropped only if a call of it is still to come. -/
def StartsInOrder (c : Controller) : Prop :=
  c.ToStart →
    if c.outbox = true ∧ c.runtimeStarting = false then ∀ t ∈ c.tasks, t.holds = none
    else ∃ t ∈ c.tasks, t.syncs = true

theorem startMonitoring_eq (hs : c.ToStart) : c.startMonitoring =
    if c.outbox = true ∧ c.runtimeStarting = false then
      Controller.push { c with
        runtimeStarting := true
        runtime := some c.runtimes.length
        runtimes := c.runtimes ++ [⟨true, false⟩] } (.start c.runtimes.length .runtime)
    else c := by
  obtain ⟨⟨-, -, s, hst, -⟩, hrt⟩ := hs
  have hst : c.state = some s := hst
  unfold Controller.startMonitoring
  simp only [hst, hrt, isSome_none, isNone_some, Bool.false_or, Bool.or_false]
  cases c.runtimeStarting <;> cases c.outbox <;> rfl

theorem RuntimesInv.startMonitoring (h : RuntimesInv c none) (hs : c.ToStart)
    (ho : c.StartsInOrder) : RuntimesInv c.startMonitoring none := by
  have ho := ho hs
  rw [startMonitoring_eq hs]
  split
  next hc =>
    rw [if_pos hc] at ho
    refine RuntimesInv.push ?_ rfl
    obtain ⟨⟨hfatal, hwait, s, hst, -⟩, hnone⟩ := hs
    have hold : ∀ (rt : Nat) (f : RuntimeFlags), (c.runtimes ++ [⟨true, false⟩])[rt]? = some f →
        f.stopped = false → rt = c.runtimes.length := by
      intro rt f hf hfs
      rcases Nat.lt_or_ge rt c.runtimes.length with hlt | hge
      · rw [List.getElem?_append_left hlt] at hf
        -- an old runtime that was not stopped would be held
        obtain hcur | hcur | ⟨t, ht, hcur⟩ := h.owned rt f hf hfs
        · rw [hnone] at hcur
          cases hcur
        · cases hcur
        · rw [ho t ht] at hcur
          cases hcur
      · have hlen := (List.getElem?_eq_some_iff.1 hf).1
        rw [length_append, length_singleton] at hlen
        omega
    constructor
    · intro rt hrt
      obtain rfl : c.runtimes.length = rt := some.inj hrt
      exact List.getElem?_concat_length
    · intro rt f hf hfs
      exact .inl (by rw [hold rt f hf hfs])
    · intro t ht rt hrt
      have hlt := (h.apart t ht rt hrt).1
      refine ⟨by rw [length_append]; omega, fun hne => ?_⟩
      have : c.runtimes.length = rt := some.inj hne
      omega
    · intro rt hrt
      cases hrt
    · intro i j f g hf hg hfs hgs
      rw [hold i f hf hfs, hold j g hg hgs]
    · exact fun _ => hwait
    · intro hf
      rw [hfatal] at hf
      cases hf
    · intro hn
      rw [hst] at hn
      cases hn
  next => exact h

theorem Synced.of_syncs (ht : t ∈ c.tasks) (hs : t.syncs = true) : c.Synced := .inr ⟨t, ht, hs⟩

theorem synced_startMonitoring (hs : c.ToStart) (ho : c.StartsInOrder) :
    c.startMonitoring.Synced := by
  have ho := ho hs
  rw [startMonitoring_eq hs]
  split
  next hc =>
    obtain ⟨⟨-, -, s, hst, hmon⟩, -⟩ := hs
    refine .inl ⟨fun hstart => ?_, fun hstop => ?_⟩
    · have : some c.runtimes.length = none := hstart.2
      cases this
    · obtain ⟨-, -, s', hst', hmon'⟩ := hstop
      obtain rfl : s = s' := some.inj (hst.symm.trans hst')
      rw [hmon] at hmon'
      cases hmon'
  next hc =>
    rw [if_neg hc] at ho
    exact .inr ho

theorem syncServices_cases (c : Controller) :
    (c.ToStart ∧ c.syncServices = c.startMonitoring) ∨
      (c.ToStop ∧ c.syncServices = c.stopMonitoring true .nothing) ∨
      (¬ c.ToStart ∧ ¬ c.ToStop ∧ c.syncServices = c) := by
  unfold syncServices
  cases hst : c.state with
  | none => exact .inr (.inr ⟨by simp [ToStart, Wanted, hst], by simp [ToStop, hst], rfl⟩)
  | some s =>
    dsimp only
    cases hfatal : c.fatal with
    | true => exact .inr (.inr ⟨by simp [ToStart, Wanted, hfatal], by simp [ToStop, hfatal], rfl⟩)
    | false =>
      cases hmon : s.shouldMonitor with
      | true =>
        have hstop : ¬ c.ToStop := by simp [ToStop, hst, hmon]
        cases hwait : c.awaitingContinue with
        | some a => exact .inr (.inr ⟨by simp [ToStart, Wanted, hwait], hstop, rfl⟩)
        | none =>
          cases hrt : c.runtime with
          | none => exact .inl ⟨⟨⟨hfatal, hwait, s, hst, hmon⟩, hrt⟩, rfl⟩
          | some rt =>
            refine .inr (.inr ⟨by simp [ToStart, hrt], hstop, ?_⟩)
            simp [Controller.startMonitoring, hrt]
      | false =>
        have hstart : ¬ c.ToStart := by simp [ToStart, Wanted, hst, hmon]
        cases hrt : c.runtime with
        | none => exact .inr (.inr ⟨hstart, by simp [ToStop, hrt], rfl⟩)
        | some rt => exact .inr (.inl ⟨⟨hfatal, by simp [hrt], s, hst, hmon⟩, rfl⟩)

theorem RuntimesInv.syncServices (h : RuntimesInv c none) (ho : c.StartsInOrder) :
    RuntimesInv c.syncServices none := by
  obtain ⟨hs, heq⟩ | ⟨-, heq⟩ | ⟨-, -, heq⟩ := syncServices_cases c
  · rw [heq]
    exact h.startMonitoring hs ho
  · rw [heq]
    exact h.stopMonitoring _ _
  · rwa [heq]

theorem synced_syncServices (ho : c.StartsInOrder) : c.syncServices.Synced := by
  obtain ⟨hs, heq⟩ | ⟨⟨hfatal, hrt, s, hst, hmon⟩, heq⟩ | ⟨hstart, hstop, heq⟩ :=
    syncServices_cases c
  · rw [heq]
    exact synced_startMonitoring hs ho
  · rw [heq]
    obtain ⟨hst', -, -⟩ := stopMonitoring_kept c true .nothing
    refine .inl ⟨?_, ?_⟩
    · rintro ⟨⟨-, -, s', hs', hmon'⟩, -⟩
      rw [hst'] at hs'
      obtain rfl : s = s' := some.inj (hst.symm.trans hs')
      rw [hmon] at hmon'
      cases hmon'
    · exact fun hstop => hstop.2.1 stopMonitoring_runtime
  · rw [heq]
    exact .inl ⟨hstart, hstop⟩

/-! ## The steps -/

/-- A call that should have ended with a state that is applied ends without it. -/
def endsUnsynced (c : Controller) (t : ControllerTask) (o : TaskOutcome) : Bool :=
  match t, o with
  | .load _, .fails => true
  | .load seq, .answered _ => decide (seq ≠ c.loadSeq)
  | .apply, .fails => true
  | .stop _ _ after, .fails => decide (after ≠ .nothing)
  | _, _ => false

/-- A passed check begins to wait only while nothing is monitored, or what is monitored is stopped
at once; what `syncServices` starts is in order; and a call that ends without a state leaves nothing
for it to do. -/
def Orderly (a : Action) (c : Controller) : Prop :=
  match a with
  | .setAwaitingContinue a =>
    (a ≠ none → c.runtime = none ∨ c.ToStop) ∧
      (a ≠ none ∨ c.awaitingContinue ≠ none → StartsInOrder { c with awaitingContinue := a })
  | .proceed i o =>
    ∀ t ∈ c.tasks[i]?,
      (t = .apply ∧ o = .ok → StartsInOrder { c with tasks := c.tasks.eraseIdx i }) ∧
        (c.endsUnsynced t o = true → Synced { c with tasks := c.tasks.eraseIdx i })
  | _ => True

namespace RuntimesInv

section

variable (h : RuntimesInv c none)
include h

theorem apply (s : CandidateSessionState) : RuntimesInv (c.apply s) none := by
  refine push (t := .apply) (h.frame rfl rfl rfl ?_ h.fatal ?_) rfl
  · intro hrt
    rw [h.waiting hrt]
    rfl
  · intro hn
    cases hn

theorem load : RuntimesInv c.load none :=
  push (t := .load (c.loadSeq + 1)) (h.frame rfl rfl rfl h.waiting h.fatal h.loaded) rfl

theorem applyState (s : CandidateSessionState) : RuntimesInv (c.applyState s) none :=
  have h' : RuntimesInv { c with loadSeq := c.loadSeq + 1 } none :=
    h.frame rfl rfl rfl h.waiting h.fatal h.loaded
  h'.apply s

theorem setFatal : RuntimesInv c.setFatal none := by
  unfold Controller.setFatal
  split
  · exact h
  · have h' := h.stopMonitoring false .nothing
    exact h'.frame rfl rfl rfl h'.waiting (fun _ => stopMonitoring_runtime) h'.loaded

theorem setAwaitingContinue (a : Option SessionStatus)
    (ho : Orderly (.setAwaitingContinue a) c) : RuntimesInv (c.setAwaitingContinue a) none := by
  unfold Controller.setAwaitingContinue
  split
  · exact h
  next hc =>
    have hchange : a ≠ none ∨ c.awaitingContinue ≠ none := by
      by_contra hcon
      simp only [not_or, not_not] at hcon
      exact hc hcon
    by_cases hrt : c.runtime = none ∨ a = none
    · refine RuntimesInv.syncServices (h.frame rfl rfl rfl ?_ h.fatal h.loaded) (ho.2 hchange)
      intro hne
      exact hrt.resolve_left hne
    · -- the check begins to wait while a runtime is there, which is stopped
      simp only [not_or] at hrt
      have hstop : ToStop { c with awaitingContinue := a } := (ho.1 hrt.2).resolve_left hrt.1
      obtain ⟨⟨-, hnone⟩, -⟩ | ⟨-, heq⟩ | ⟨-, hnot, -⟩ := syncServices_cases { c with awaitingContinue := a }
      · exact absurd hnone hrt.1
      · have h' := h.stopMonitoring true .nothing
        have hset : Controller.stopMonitoring { c with awaitingContinue := a } true .nothing =
            { c.stopMonitoring true .nothing with awaitingContinue := a } := by
          unfold Controller.stopMonitoring
          dsimp only
          split
          · rfl
          · cases c.runtime <;> rfl
        rw [heq, hset]
        exact h'.frame rfl rfl rfl (fun hne => absurd stopMonitoring_runtime hne) h'.fatal h'.loaded
      · exact absurd hstop hnot

end

theorem started (h : RuntimesInv c held) : RuntimesInv c.started held :=
  h.frame rfl rfl rfl h.waiting h.fatal h.loaded

theorem onHeartbeat (h : RuntimesInv c none) (hb : HeartbeatAnswer) (needReload : Bool) :
    RuntimesInv (c.onHeartbeat hb needReload) none := by
  unfold Controller.onHeartbeat
  split
  · split
    · exact h.stopMonitoring _ _
    · exact h.load
  · split
    · exact h.load
    · exact h

theorem handleCommand (h : RuntimesInv c none) (cmd : CandidateCommand) :
    RuntimesInv (c.handleCommand cmd) none := by
  unfold Controller.handleCommand
  split
  · exact h.setFatal
  · exact h

theorem resume {o : TaskOutcome} (h : RuntimesInv c t.holds)
    (ho : t = .apply ∧ o = .ok → c.StartsInOrder) : RuntimesInv (c.resume t o) none := by
  cases t with
  | load seq =>
    cases o with
    | answered s =>
      simp only [Controller.resume]
      split
      · exact h
      · exact h.apply s
    | _ => exact h
  | apply =>
    cases o with
    | ok => exact h.syncServices (ho ⟨rfl, rfl⟩)
    | _ => exact h
  | heartbeat hb commands needReload =>
    cases commands with
    | nil => cases o <;> exact h.onHeartbeat hb needReload
    | cons cmd commands => cases o <;> exact (h.handleCommand cmd).push rfl
  | start rt wait =>
    cases wait with
    | runtime =>
      cases o with
      | ok =>
        simp only [Controller.resume]
        split
        · exact h.push rfl
        · exact h.started
      | _ => exact h.started
    | queue =>
      cases o with
      | ok =>
        simp only [Controller.resume]
        split
        · exact h.push rfl
        · exact push (t := .start _ .recording) (h.frame rfl rfl rfl h.waiting h.fatal h.loaded) rfl
      | _ => exact h.started
    | recording =>
      cases o with
      | ok => exact h.push rfl
      | _ => exact h.started
    | returned => cases o <;> exact h.started
  | stop wait flush after =>
    cases wait with
    | recording rt => cases o <;> exact h.stopRest
    | runtime =>
      cases o with
      | ok => exact h.stopFlush
      | _ => exact h
    | flush =>
      cases o with
      | ok => exact h.push rfl
      | _ => exact h
    | returned =>
      cases o with
      | ok =>
        cases after with
        | nothing => exact h
        | load => exact h.load
        | leave s => exact h.applyState s
      | _ => cases after <;> exact h

end RuntimesInv

/-! ## A call of `syncServices` is still to come -/

theorem Synced.mono {c' : Controller} (h : c.Synced) (hstate : c'.state = c.state)
    (hfatal : c'.fatal = c.fatal)
    (hwait : c'.awaitingContinue = c.awaitingContinue) (hrt : c'.runtime = c.runtime)
    (htasks : ∀ t ∈ c.tasks, t ∈ c'.tasks) : c'.Synced := by
  obtain ⟨hstart, hstop⟩ | ⟨t, ht, hs⟩ := h
  · refine .inl ⟨fun hn => hstart ?_, fun hn => hstop ?_⟩
    · rwa [ToStart, Wanted, hstate, hfatal, hwait, hrt] at hn
    · rwa [ToStop, hstate, hfatal, hrt] at hn
  · exact .inr ⟨t, htasks t ht, hs⟩

theorem Synced.push (h : c.Synced) (t : ControllerTask) : (c.push t).Synced :=
  h.mono rfl rfl rfl rfl fun _ ht => mem_append_left _ ht

theorem Synced.erase {i : Nat} (h : c.Synced) (hi : c.tasks[i]? = some t) (ht : t.syncs = false) :
    Synced { c with tasks := c.tasks.eraseIdx i } := by
  obtain h | ⟨t', ht', hs⟩ := h
  · exact .inl h
  · rcases mem_cons.1 ((perm_eraseIdx_of_getElem? hi).mem_iff.1 ht') with rfl | ht'
    · rw [ht] at hs
      cases hs
    · exact .inr ⟨t', ht', hs⟩

theorem synced_push (ht : t.syncs = true) : (c.push t).Synced :=
  .of_syncs (mem_append_right _ (mem_singleton_self t)) ht

theorem synced_stopMonitoring (ha : after ≠ .nothing) : (c.stopMonitoring flush after).Synced := by
  obtain ⟨wait, htasks⟩ := stopMonitoring_tasks c flush after
  refine .of_syncs (t := .stop wait flush after) ?_ (decide_eq_true ha)
  rw [htasks]
  exact mem_append_right _ (mem_singleton_self _)

theorem synced_setFatal (h : c.Synced) : c.setFatal.Synced := by
  unfold setFatal
  split
  · exact h
  · refine .inl ⟨?_, ?_⟩
    · rintro ⟨⟨hf, -⟩, -⟩
      cases hf
    · rintro ⟨hf, -⟩
      cases hf

theorem synced_setAwaitingContinue (h : c.Synced) (a : Option SessionStatus)
    (ho : Orderly (.setAwaitingContinue a) c) : (c.setAwaitingContinue a).Synced := by
  unfold setAwaitingContinue
  split
  · exact h
  next hc =>
    refine synced_syncServices (ho.2 ?_)
    by_contra hcon
    simp only [not_or, not_not] at hcon
    exact hc hcon

theorem synced_stopRest {rt : Option Nat} (h : after = .nothing → c.Synced) :
    (c.stopRest rt flush after).Synced := by
  by_cases ha : after = .nothing
  · cases rt with
    | some rt => exact (h ha).mono rfl rfl rfl rfl fun _ ht => mem_append_left _ ht
    | none => exact (h ha).push _
  · cases rt with
    | some rt | none => exact synced_push (decide_eq_true ha)

theorem synced_resume {o : TaskOutcome} (hset : c.settles t o = true)
    (h : t.syncs = false → c.Synced)
    (ho : t = .apply ∧ o = .ok → c.StartsInOrder) (hend : c.endsUnsynced t o = true → c.Synced) :
    (c.resume t o).Synced := by
  cases t with
  | load seq =>
    cases o with
    | ok => cases hset
    | fails => exact hend rfl
    | answered s =>
      simp only [resume]
      split
      next hne => exact hend (decide_eq_true hne)
      next => exact synced_push rfl
  | apply =>
    cases o with
    | ok => exact synced_syncServices (ho ⟨rfl, rfl⟩)
    | fails => exact hend rfl
    | answered s => cases hset
  | heartbeat hb commands needReload =>
    have hs : c.Synced := h rfl
    cases commands with
    | nil =>
      simp only [resume, onHeartbeat]
      split
      · split
        · exact synced_stopMonitoring (by decide)
        · exact synced_push rfl
      · split
        · exact synced_push rfl
        · exact hs
    | cons =>
      simp only [resume, handleCommand]
      split
      · exact (synced_setFatal hs).push _
      · exact hs.push _
  | start rt wait =>
    have hs : c.Synced := h rfl
    have hstarted : c.started.Synced := hs.mono rfl rfl rfl rfl fun _ ht => ht
    cases wait with
    | runtime =>
      cases o with
      | ok =>
        simp only [resume]
        split
        · exact hs.push _
        · exact hstarted
      | fails | answered s => exact hstarted
    | queue =>
      cases o with
      | ok =>
        simp only [resume]
        split
        · exact hs.push _
        · exact hs.mono rfl rfl rfl rfl fun _ ht => mem_append_left _ ht
      | fails | answered s => exact hstarted
    | recording =>
      cases o with
      | ok => exact hs.push _
      | fails | answered s => exact hstarted
    | returned => exact hstarted
  | stop wait flush after =>
    have hnone : after = .nothing → c.Synced := by
      rintro rfl
      exact h rfl
    have hfails : o = .fails → c.Synced := by
      rintro rfl
      by_cases ha : after = .nothing
      · exact hnone ha
      · exact hend (decide_eq_true ha)
    have hstop : ∀ wait', (c.push (.stop wait' flush after)).Synced := by
      intro wait'
      by_cases ha : after = .nothing
      · exact (hnone ha).push _
      · exact synced_push (decide_eq_true ha)
    cases wait with
    | recording rt => cases o <;> exact synced_stopRest hnone
    | runtime | flush =>
      cases o with
      | ok => exact hstop _
      | fails => exact hfails rfl
      | answered s => cases hset
    | returned =>
      cases after with
      | nothing => cases o <;> exact hnone rfl
      | load =>
        cases o with
        | ok => exact synced_push rfl
        | fails | answered s => cases hset
      | leave s =>
        cases o with
        | ok => exact synced_push rfl
        | fails => exact hfails rfl
        | answered s => cases hset

/-! ## In every run -/

/-- One runtime at most is there that was not stopped; and where no call waits, one is running
exactly if the monitoring should run. -/
structure MonitorsExactly (c : Controller) : Prop where
  one : ∀ (i j : Nat) (f g : RuntimeFlags), c.runtimes[i]? = some f → c.runtimes[j]? = some g →
    f.stopped = false → g.stopped = false → i = j
  running : c.tasks = [] → ((∃ f ∈ c.runtimes, f.running = true ∧ f.stopped = false) ↔ c.Wanted)

theorem RuntimesInv.step {a : Action} (h : RuntimesInv c none) (ho : Orderly a c) :
    RuntimesInv (step a c) none := by
  cases a with
  | applyState s => exact h.applyState s
  | load => exact h.load
  | leave | hold => exact h.stopMonitoring _ _
  | heartbeat hb => exact h.push rfl
  | setAwaitingContinue a => exact h.setAwaitingContinue a ho
  | fatal => exact h.setFatal
  | outboxOpens => exact h.frame rfl rfl rfl h.waiting h.fatal h.loaded
  | recordingLimit =>
    simp only [Controller.step]
    split
    · exact h
    · exact h.frame rfl rfl rfl h.waiting h.fatal h.loaded
  | proceed i o =>
    simp only [Controller.step]
    split
    next t hi => exact (h.erase hi).resume (ho t hi).1
    next => exact h

theorem Synced.step {a : Action} (h : c.Synced) (ha : enabled a c) (ho : Orderly a c) :
    (step a c).Synced := by
  cases a with
  | applyState s | load => exact synced_push rfl
  | leave | hold => exact synced_stopMonitoring (by simp)
  | heartbeat hb => exact h.push _
  | setAwaitingContinue a => exact synced_setAwaitingContinue h a ho
  | fatal => exact synced_setFatal h
  | outboxOpens => exact h.mono rfl rfl rfl rfl fun _ ht => ht
  | recordingLimit =>
    simp only [Controller.step]
    split
    · exact h
    · exact h.mono rfl rfl rfl rfl fun _ ht => ht
  | proceed i o =>
    obtain ⟨t, hi, hset⟩ := ha
    have hi : c.tasks[i]? = some t := hi
    obtain ⟨hstart, hend⟩ := ho t hi
    simp only [Controller.step, hi]
    exact synced_resume hset (h.erase hi) hstart hend

theorem inv_reachable (h : (machine.restrict Orderly).Reachable c) :
    RuntimesInv c none ∧ c.Synced := by
  induction h with
  | init h0 =>
    rw [show _ = _ from h0]
    refine ⟨?_, .inl ⟨?_, ?_⟩⟩
    · constructor <;> simp
    · simp [ToStart, Wanted]
    · simp [ToStop]
  | step _ a ha ih => exact ⟨ih.1.step ha.2, ih.2.step ha.1 ha.2⟩

/-- While every step is orderly, the monitoring runs exactly while it should. -/
theorem monitors_exactly (h : (machine.restrict Orderly).Reachable c) : c.MonitorsExactly := by
  obtain ⟨hinv, hsync⟩ := inv_reachable h
  refine ⟨hinv.single, fun htasks => ?_⟩
  have hidle : ¬ c.ToStart ∧ ¬ c.ToStop := by
    obtain hidle | ⟨t, ht, -⟩ := hsync
    · exact hidle
    · rw [htasks] at ht
      cases ht
  constructor
  · rintro ⟨f, hf, -, hstopped⟩
    obtain ⟨rt, hrt⟩ := mem_iff_getElem?.1 hf
    obtain hcur | hcur | ⟨t, ht, -⟩ := hinv.owned rt f hrt hstopped
    · have hne : c.runtime ≠ none := by simp [hcur]
      have hfatal : c.fatal = false := by
        rw [← Bool.not_eq_true]
        exact fun hf => hne (hinv.fatal hf)
      refine ⟨hfatal, hinv.waiting hne, ?_⟩
      cases hst : c.state with
      | none => exact absurd (hinv.loaded hst) hne
      | some s =>
        by_contra hmon
        exact hidle.2 ⟨hfatal, hne, s, hst, by simpa using hmon⟩
    · cases hcur
    · rw [htasks] at ht
      cases ht
  · intro hw
    cases hrt : c.runtime with
    | none => exact absurd ⟨hw, hrt⟩ hidle.1
    | some rt => exact ⟨⟨true, false⟩, mem_of_getElem? (hinv.current rt hrt), rfl, rfl⟩

instance decidableToStart (c : Controller) : Decidable c.ToStart :=
  inferInstanceAs (Decidable ((c.fatal = false ∧ c.awaitingContinue = none ∧
    ∃ s ∈ c.state, s.shouldMonitor = true) ∧ c.runtime = none))

instance decidableToStop (c : Controller) : Decidable c.ToStop :=
  inferInstanceAs (Decidable (c.fatal = false ∧ c.runtime ≠ none ∧ ∃ s ∈ c.state,
    s.shouldMonitor = false))

instance decidableSynced (c : Controller) : Decidable c.Synced :=
  inferInstanceAs (Decidable (_ ∨ ∃ t ∈ c.tasks, t.syncs = true))

instance decidableStartsInOrder (c : Controller) : Decidable c.StartsInOrder :=
  inferInstanceAs (Decidable (c.ToStart → if c.outbox = true ∧ c.runtimeStarting = false then
    ∀ t ∈ c.tasks, t.holds = none else ∃ t ∈ c.tasks, t.syncs = true))

instance decidableOrderly (a : Action) (c : Controller) : Decidable (Orderly a c) := by
  refine Action.casesOn (motive := fun a => Decidable (Orderly a c)) a ?_ ?_ ?_ ?_ ?_ ?_ ?_
    ?_ ?_ ?_ <;> intros <;> unfold Orderly <;> infer_instance

/-! ## Runs -/

def newPage : Controller := ⟨none, false, none, false, 0, none, [], false, none, 0, false, []⟩

/-- The exam is active, and this page may go on. -/
def activeState : CandidateSessionState := ⟨.active, true, none, true⟩

def heldState : CandidateSessionState := ⟨.onHold, true, none, true⟩

def checkState : CandidateSessionState := ⟨.active, true, some .reverify, true⟩

/-- The first state is applied, and `n` times the only call that waits goes on. -/
def applied (s : CandidateSessionState) (n : Nat) : List Action :=
  .applyState s :: .outboxOpens :: List.replicate n (.proceed 0 .ok)

/-- The exam runs, is held and released. -/
def heldAndReleased : List Action :=
  applied activeState 5 ++ .hold :: List.replicate 4 (.proceed 0 .ok) ++
    [.proceed 0 (.answered heldState), .proceed 0 .ok] ++ applied activeState 5

theorem heldAndReleased_admits :
    (machine.restrict Orderly).Admits newPage heldAndReleased := by decide +kernel

theorem monitors_exactly_released :
    (machine.run newPage heldAndReleased).MonitorsExactly ∧
      (machine.run newPage heldAndReleased).runtimes = [⟨false, true⟩, ⟨true, false⟩] ∧
      (machine.run newPage heldAndReleased).tasks = [] :=
  ⟨monitors_exactly (.run (.init (M := machine.restrict Orderly) rfl) heldAndReleased_admits),
    by decide +kernel, by decide +kernel⟩

/-- A check is required while the models are still loading, and it is passed before they have
loaded. -/
def checkedWhileLoading : List Action :=
  applied activeState 1 ++ .heartbeat ⟨.active, some .reverify, []⟩ ::
    List.replicate 4 (.proceed 1 .ok) ++
    [.proceed 1 (.answered checkState), .proceed 1 .ok, .applyState activeState, .proceed 1 .ok,
      .proceed 0 .ok]

def pausedState : CandidateSessionState := ⟨.paused, true, none, true⟩

/-- The exam is resumed before the last part of the recording has come. -/
def resumedWhileStopping : List Action :=
  applied activeState 5 ++ [.applyState pausedState, .proceed 0 .ok, .applyState activeState,
    .proceed 1 .ok]

/-- The start is dropped, and the exam goes on unobserved; and there are two runtimes that were not
stopped. -/
theorem unobserved_or_doubled :
    (∃ c, machine.Reachable c ∧ c.tasks = [] ∧ c.Wanted ∧ (∀ f ∈ c.runtimes, f.running = false) ∧
      ¬ c.MonitorsExactly) ∧
    ∃ c, machine.Reachable c ∧ c.runtimes = [⟨true, false⟩, ⟨true, false⟩] ∧
    ¬ c.MonitorsExactly := by
  have hchecked : machine.Admits newPage checkedWhileLoading := by decide +kernel
  have hresumed : machine.Admits newPage resumedWhileStopping := by decide +kernel
  have htasks : (machine.run newPage checkedWhileLoading).tasks = [] := by decide +kernel
  have hstart : (machine.run newPage checkedWhileLoading).ToStart := by decide +kernel
  have hidle : ∀ f ∈ (machine.run newPage checkedWhileLoading).runtimes,
      f.running = false := by decide +kernel
  have htwo : (machine.run newPage resumedWhileStopping).runtimes = [⟨true, false⟩,
      ⟨true, false⟩] := by
    decide +kernel
  have hinit : machine.Reachable newPage := .init rfl
  refine ⟨⟨machine.run newPage checkedWhileLoading, hinit.run hchecked, htasks, hstart.1, hidle,
    fun h => ?_⟩,
    machine.run newPage resumedWhileStopping, hinit.run hresumed, htwo, fun h => ?_⟩
  · obtain ⟨f, hf, hrun, -⟩ := (h.running htasks).2 hstart.1
    rw [hidle f hf] at hrun
    cases hrun
  · have h01 := h.one 0 1 ⟨true, false⟩ ⟨true, false⟩ (by rfl) (by rfl) rfl rfl
    cases h01

end Controller

end SmartProctoring
