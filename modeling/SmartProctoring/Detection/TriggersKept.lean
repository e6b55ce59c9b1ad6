import Mathlib.Data.List.Induction
import Mathlib.Tactic.Linarith
import SmartProctoring.Detection.Identity

/-!
# No trigger is lost

An observer of the ticks knows since when the face has been sampleable (`steadySince`).  Between two
pauses:

* of the armed triggers the one with the highest priority is pending until a sample is taken of it;
* a possible swap that was deferred is sampled on the first tick after its time with a steady face;
* a sample is asked for only when the face is steady;
* possible swaps are armed at least `minGapMs` apart, and a routine sample that the host did not ask for keeps to the
  interval.

Between the samples of other triggers there is no least distance, and a pause forgets what is
pending.
-/

set_option autoImplicit false

namespace SmartProctoring

open List Option

/-- The first of the last ticks without a break in which the face is sampleable. -/
def steadySince (ticks : List (ℚ × Bool)) : Option ℚ :=
  ((ticks.reverse.takeWhile (·.2)).getLast?).map (·.1)

theorem steadySince_concat (ticks : List (ℚ × Bool)) (t : ℚ) (sampleable : Bool) :
    steadySince (ticks ++ [(t, sampleable)]) = if sampleable then some ((steadySince ticks).getD t)
    else none := by
  rw [steadySince, reverse_append, reverse_singleton, singleton_append, takeWhile_cons]
  cases sampleable with
  | false => rfl
  | true =>
    rw [if_pos rfl, getLast?_cons, steadySince]
    cases (ticks.reverse.takeWhile (·.2)).getLast? <;> rfl

/-- The face has been steady for `ms` at the last of the ticks, at time `t`. -/
def SteadyFor (ms : ℚ) (ticks : List (ℚ × Bool)) (t : ℚ) : Prop :=
  ∃ since ∈ steadySince ticks, ms ≤ t - since

namespace IdentityScheduler

variable {s : IdentityScheduler} {p : Nat}

/-- What is pending has at least the priority `p`. -/
def Pends (p : Nat) (s : IdentityScheduler) : Prop := ∃ q ∈ s.pending, p ≤ triggerPriority q

theorem arm_pends (s : IdentityScheduler) (trigger : IdentityTrigger) :
    (s.arm trigger).Pends (triggerPriority trigger) := by
  rw [arm]
  split
  · exact ⟨trigger, rfl, le_rfl⟩
  next h =>
    cases hp : s.pending with
    | none => simp [hp] at h
    | some q => exact ⟨q, hp, by simpa [hp] using h⟩

theorem Pends.arm (h : s.Pends p) (trigger : IdentityTrigger) : (s.arm trigger).Pends p := by
  obtain ⟨q, hq, hle⟩ := h
  rw [IdentityScheduler.arm]
  split
  next hlt =>
    rw [mem_def.mp hq] at hlt
    exact ⟨trigger, rfl, hle.trans (of_decide_eq_true hlt).le⟩
  next => exact ⟨q, hq, hle⟩

@[simp] theorem arm_stableSince (trigger : IdentityTrigger) :
    (s.arm trigger).stableSince = s.stableSince := by
  rw [arm]; split <;> rfl

@[simp] theorem arm_lastSampleAt (trigger : IdentityTrigger) :
    (s.arm trigger).lastSampleAt = s.lastSampleAt := by
  rw [arm]; split <;> rfl

@[simp] theorem arm_hostDueAt (trigger : IdentityTrigger) :
    (s.arm trigger).hostDueAt = s.hostDueAt := by
  rw [arm]; split <;> rfl

@[simp] theorem arm_pace (trigger : IdentityTrigger) : (s.arm trigger).pace = s.pace := by
  rw [arm]; split <;> rfl

/-- The tick asks for a sample of `q`: the face is stable, and `q` is pending, or it is a routine
sample that is due. -/
structure Asks (s : IdentityScheduler) (t : ℚ) (sampleable : Bool)
    (q : IdentityTrigger) : Prop where
  stable : ∃ since ∈ (s.note t sampleable).stableSince, need (some q) ≤ t - since
  cause : s.pending = some q ∨
    s.pending = none ∧ q = .periodic ∧ ∃ due ∈ (s.note t sampleable).dueAt t, due ≤ t
  after : s.step t sampleable =
    ({ s.note t sampleable with pending := none, lastSampleAt := some t, hostDueAt := none }, some q)

/-- What a tick can do. -/
theorem step_cases (s : IdentityScheduler) (t : ℚ) (sampleable : Bool) :
    (∃ q, s.Asks t sampleable q) ∨
      s.step t sampleable = (s.note t sampleable, none) ∧
        ∀ since ∈ (s.note t sampleable).stableSince, ∀ q ∈ s.pending, t - since < need (some q) := by
  rw [step]
  split
  next hst =>
    obtain ⟨since, hsince, hle⟩ := (any_eq_true _ _).1 hst
    have hle := of_decide_eq_true hle
    cases hp : s.pending with
    | some q =>
      have hwant : (s.note t sampleable).wanted t = some q := by
        rw [wanted]
        simp only [note, hp]
      refine .inl ⟨q, ⟨since, hsince, ?_⟩, .inl hp, ?_⟩
      · have hsame : (s.note t sampleable).pending = some q := hp
        rwa [hsame] at hle
      · rw [step]
        rw [if_pos hst, hwant]
    | none =>
      have hnone : (s.note t sampleable).pending = none := hp
      cases hdue : ((s.note t sampleable).dueAt t).any (· ≤ t) with
      | true =>
        have hwant : (s.note t sampleable).wanted t = some .periodic := by
          rw [wanted, hnone]
          exact if_pos hdue
        obtain ⟨due, hd, hdt⟩ := (any_eq_true _ _).1 hdue
        refine .inl ⟨.periodic, ⟨since, hsince, ?_⟩, .inr ⟨hp, rfl, due, hd, of_decide_eq_true hdt⟩, ?_⟩
        · rwa [hnone] at hle
        · rw [step]
          rw [if_pos hst, hwant]
      | false =>
        have hwant : (s.note t sampleable).wanted t = none := by
          rw [wanted, hnone]
          exact if_neg (by simp [hdue])
        rw [hwant]
        exact .inr ⟨rfl, nofun⟩
  next hst =>
    refine .inr ⟨rfl, fun since hsince q hq => lt_of_not_ge fun hle => hst ?_⟩
    refine (any_eq_true _ _).2 ⟨since, hsince, decide_eq_true ?_⟩
    have hsame : (s.note t sampleable).pending = some q := hq
    rwa [hsame]

theorem step_stableSince (s : IdentityScheduler) (t : ℚ) (sampleable : Bool) :
    (s.step t sampleable).1.stableSince = if sampleable then some (s.stableSince.getD t)
    else none := by
  rcases s.step_cases t sampleable with ⟨q, h⟩ | ⟨h, -⟩
  · rw [h.after, note]
  · rw [h, note]

theorem step_pace (s : IdentityScheduler) (t : ℚ) (sampleable : Bool) :
    (s.step t sampleable).1.pace = s.pace := by
  rcases s.step_cases t sampleable with ⟨q, h⟩ | ⟨h, -⟩
  · rw [h.after, note]
  · rw [h, note]

theorem Pends.step (h : s.Pends p) (t : ℚ) (sampleable : Bool) :
    (∃ q ∈ (s.step t sampleable).2, p ≤ triggerPriority q) ∨
      (s.step t sampleable).2 = none ∧ (s.step t sampleable).1.Pends p := by
  obtain ⟨q, hq, hle⟩ := h
  rcases s.step_cases t sampleable with ⟨q', hask⟩ | ⟨hnone, -⟩
  · rw [hask.after]
    rcases hask.cause with hp | ⟨hp, -⟩
    · obtain rfl := some_inj.mp (hq.symm.trans hp)
      exact .inl ⟨q, rfl, hle⟩
    · exact absurd (hq.symm.trans hp) (by simp)
  · rw [hnone]
    exact .inr ⟨rfl, q, hq, hle⟩

end IdentityScheduler

/-! ## Deferred swaps -/

namespace SwapSlot

variable {s : SwapSlot} {p : Nat}

/-- A swap of at least the priority `p` is deferred; the last was armed at `f`. -/
def Defers (p : Nat) (f : ℚ) (s : SwapSlot) : Prop :=
  s.lastFiredAt = some f ∧ ∃ d ∈ s.deferred, p ≤ triggerPriority d.trigger

theorem passes_iff (s : SwapSlot) (t : ℚ) :
    s.passes t = true ↔ ∀ f ∈ s.lastFiredAt, SwapTrigger.minGapMs ≤ t - f := by
  rw [passes]
  cases s.lastFiredAt with
  | none | some f => simp

theorem request_cases (s : SwapSlot) (fire : SwapTrigger) (t : ℚ) :
    s.passes t = true ∧ s.request fire t = ({ s with lastFiredAt := some t }, some fire) ∨
      s.passes t = false ∧ (s.request fire t).2 = none ∧
        (s.request fire t).1.lastFiredAt = s.lastFiredAt ∧
        ∃ f, (s.request fire t).1.Defers (triggerPriority fire.trigger) f ∧
          ∀ d ∈ s.deferred, (s.request fire t).1.Defers (triggerPriority d.trigger) f := by
  rw [request]
  cases hp : s.passes t with
  | true => exact .inl ⟨rfl, rfl⟩
  | false =>
    have hfired : ∃ f, s.lastFiredAt = some f := by
      cases hf : s.lastFiredAt with
      | none => simp [passes, hf] at hp
      | some f => exact ⟨f, rfl⟩
    obtain ⟨f, hf⟩ := hfired
    rw [if_neg (by decide)]
    split
    next hlt =>
      refine .inr ⟨rfl, rfl, rfl, f, ⟨hf, fire, rfl, le_rfl⟩, fun d hd => ⟨hf, fire, rfl, ?_⟩⟩
      rw [mem_def.mp hd] at hlt
      exact (of_decide_eq_true hlt).le
    next hno =>
      cases hd : s.deferred with
      | none => simp [hd] at hno
      | some d =>
        refine .inr ⟨rfl, rfl, rfl, f, ⟨hf, d, hd, by simpa [hd] using hno⟩, fun d' hd' => ⟨hf, d', ?_, le_rfl⟩⟩
        rw [mem_def] at hd' ⊢
        rw [hd, hd']

theorem tick_cases (s : SwapSlot) (t : ℚ) (fire : Option SwapTrigger) :
    (∃ d, (s.tick t fire).2 = some d ∧ s.passes t = true ∧ (s.tick t fire).1.lastFiredAt = some t ∧
        (∀ d' ∈ s.deferred, d' = d) ∧
        ∀ fire' ∈ fire, fire' = d ∨ (s.tick t fire).1.Defers (triggerPriority fire'.trigger) t) ∨
      (s.tick t fire).2 = none ∧ (s.tick t fire).1.lastFiredAt = s.lastFiredAt ∧
        (∀ d' ∈ s.deferred, s.passes t = false ∧
          ∃ f, (s.tick t fire).1.Defers (triggerPriority d'.trigger) f) ∧
        ∀ fire' ∈ fire, ∃ f, (s.tick t fire).1.Defers (triggerPriority fire'.trigger) f := by
  rw [tick, releaseDeferred]
  cases hd : s.deferred with
  | none =>
    cases fire with
    | none => exact .inr ⟨rfl, rfl, fun d hd' => by simp at hd', fun f hf => by simp at hf⟩
    | some fire =>
      rcases s.request_cases fire t with ⟨hp, heq⟩ | ⟨-, hnone, hlast, f, hdef, -⟩
      · dsimp only
        rw [heq]
        exact .inl ⟨fire, rfl, hp, rfl, fun d hd' => by simp at hd', fun f hf => .inl (some_inj.mp hf).symm⟩
      · refine .inr ⟨hnone, hlast, fun d hd' => by simp at hd', fun fire' hf => ⟨f, ?_⟩⟩
        obtain rfl := some_inj.mp hf
        exact hdef
  | some d =>
    dsimp only
    have hfirst : ∀ d' ∈ some d, d' = d := fun d' hd' => (some_inj.mp hd').symm
    cases hp : s.passes t with
    | true =>
      refine .inl ⟨d, ?_⟩
      cases fire with
      | none => exact ⟨rfl, rfl, rfl, hfirst, fun f hf => by simp at hf⟩
      | some fire =>
        have hno : (SwapSlot.mk (some t) none).passes t = false := by simp [passes, SwapTrigger.minGapMs]
        rcases request_cases ⟨some t, none⟩ fire t with ⟨hyes, -⟩ | ⟨-, hnone, hlast, f, hdef, -⟩
        · exact absurd (hno.symm.trans hyes) (by decide)
        · refine ⟨rfl, rfl, hlast, hfirst, fun fire' hf => .inr ?_⟩
          obtain rfl := some_inj.mp hf
          obtain rfl := some_inj.mp (hlast.symm.trans hdef.1)
          exact hdef
    | false =>
      rw [if_neg (by decide)]
      have hfired : ∃ f, s.lastFiredAt = some f := by
        cases hf : s.lastFiredAt with
        | none => simp [passes, hf] at hp
        | some f => exact ⟨f, rfl⟩
      obtain ⟨f₀, hf₀⟩ := hfired
      cases fire with
      | none =>
        refine .inr ⟨rfl, rfl, fun d' hd' => ⟨rfl, f₀, hf₀, d, hd, ?_⟩, fun f hf => by simp at hf⟩
        rw [hfirst d' hd']
      | some fire =>
        rcases s.request_cases fire t with ⟨hyes, -⟩ | ⟨-, hnone, hlast, f, hdef, hdefs⟩
        · exact absurd (hp.symm.trans hyes) (by decide)
        · dsimp only
          rw [hnone]
          refine .inr ⟨rfl, hlast, fun d' hd' => ⟨rfl, f, hdefs d' (hd ▸ hd')⟩, fun fire' hf => ⟨f, ?_⟩⟩
          obtain rfl := some_inj.mp hf
          exact hdef

end SwapSlot

/-! ## A run of the engine -/

/-- Nothing but the ticks and the triggers of the detectors. -/
def IdentityAction.Undisturbed : IdentityAction → Prop
  | .scheduleNext _ | .noteSample _ | .flush | .arm .periodic => False
  | _ => True

namespace IdentityEngine

variable {e : IdentityEngine} {p : Nat} {f : ℚ}

/-- The state after the actions. -/
def run (e : IdentityEngine) (as : List IdentityAction) : IdentityEngine :=
  as.foldl (fun e a => (e.step a).1) e

/-- The samples that the actions ask for, in order. -/
def samples : IdentityEngine → List IdentityAction → List IdentityTrigger
  | _, [] => []
  | e, a :: as => (e.step a).2.sample.toList ++ samples (e.step a).1 as

/-- When possible swaps are armed. -/
def armTimes : IdentityEngine → List IdentityAction → List ℚ
  | _, [] => []
  | e, .tick t sampleable fire :: as =>
    ((e.step (.tick t sampleable fire)).2.armed.map fun _ => t).toList ++
      armTimes (e.step (.tick t sampleable fire)).1 as
  | e, a :: as => armTimes (e.step a).1 as

/-- What is pending has at least the priority `p`. -/
def Pends (p : Nat) (e : IdentityEngine) : Prop := e.scheduler.Pends p

/-- The first sample was of a trigger of at least the priority `p`; without a sample one is
pending. -/
def Answered (p : Nat) : List IdentityTrigger → IdentityEngine → Prop
  | q :: _, _ => p ≤ triggerPriority q
  | [], e => e.Pends p

/-- A trigger of at least the priority `p` is pending, or deferred since one was armed at `f`. -/
def Owes (p : Nat) (f : ℚ) (e : IdentityEngine) : Prop := e.Pends p ∨ e.swaps.Defers p f

/-- The scheduler at a tick, when what the tick arms is armed. -/
def armed (e : IdentityEngine) (t : ℚ) (fire : Option SwapTrigger) : IdentityScheduler :=
  (e.swaps.tick t fire).2.elim e.scheduler fun a => e.scheduler.arm a.trigger

theorem tick_eq (e : IdentityEngine) (t : ℚ) (sampleable : Bool) (fire : Option SwapTrigger) :
    e.tick t sampleable fire =
      (⟨((e.armed t fire).step t sampleable).1, (e.swaps.tick t fire).1, some t⟩,
        ⟨(e.swaps.tick t fire).2, ((e.armed t fire).step t sampleable).2⟩) := rfl

theorem armed_pends (h : e.Pends p) (t : ℚ) (fire : Option SwapTrigger) :
    (e.armed t fire).Pends p := by
  rw [armed]
  cases (e.swaps.tick t fire).2 with
  | none => exact h
  | some d => exact h.arm _

variable {t : ℚ} {fire : Option SwapTrigger}

theorem armed_released {d : SwapTrigger}
    (h : (e.swaps.tick t fire).2 = some d) :
    (e.armed t fire).Pends (triggerPriority d.trigger) := by
  rw [armed, h]
  exact e.scheduler.arm_pends d.trigger

theorem armed_stableSince (e : IdentityEngine) (t : ℚ) (fire : Option SwapTrigger) :
    (e.armed t fire).stableSince = e.scheduler.stableSince := by
  rw [armed]
  cases (e.swaps.tick t fire).2 with
  | none => rfl
  | some d => exact IdentityScheduler.arm_stableSince _

theorem step_tick (t : ℚ) (sampleable : Bool) (fire : Option SwapTrigger) :
    e.takes t = true ∧ e.step (.tick t sampleable fire) = e.tick t sampleable fire ∨
      e.takes t = false ∧ e.step (.tick t sampleable fire) = (e, {}) := by
  cases h : e.takes t with
  | true => exact .inl ⟨rfl, if_pos h⟩
  | false => exact .inr ⟨rfl, if_neg (by simp [h])⟩

variable {a : IdentityAction}

theorem Pends.step (h : e.Pends p) (ha : a ≠ .flush) :
    (∃ q, (e.step a).2.sample = some q ∧ p ≤ triggerPriority q) ∨
      (e.step a).2.sample = none ∧ (e.step a).1.Pends p := by
  cases a with
  | arm trigger => exact .inr ⟨rfl, IdentityScheduler.Pends.arm h trigger⟩
  | cameraChanged => exact .inr ⟨rfl, IdentityScheduler.Pends.arm h _⟩
  | scheduleNext at' | noteSample t => exact .inr ⟨rfl, h⟩
  | flush => exact absurd rfl ha
  | tick t sampleable fire =>
    rcases e.step_tick t sampleable fire with ⟨-, heq⟩ | ⟨-, heq⟩
    · rw [heq]
      exact (armed_pends h t fire).step t sampleable
    · rw [heq]
      exact .inr ⟨rfl, h⟩

variable {as : List IdentityAction}

theorem Pends.answered (h : e.Pends p) (has : .flush ∉ as) :
    Answered p (e.samples as) (e.run as) := by
  induction as generalizing e with
  | nil => exact h
  | cons a as ih =>
    rw [mem_cons, not_or] at has
    rcases h.step (Ne.symm has.1) with ⟨q, hq, hle⟩ | ⟨hnone, hpend⟩
    · rw [samples, hq]
      exact hle
    · rw [samples, hnone]
      exact ih hpend has.2

/-! ### Deferred triggers -/

theorem Owes.step (h : e.Owes p f) (hflush : a ≠ .flush) (hcamera : a ≠ .cameraChanged) :
    (∃ q, (e.step a).2.sample = some q ∧ p ≤ triggerPriority q) ∨ (e.step a).1.Owes p f := by
  rcases h with h | h
  · rcases h.step hflush with hq | ⟨-, hpend⟩
    · exact .inl hq
    · exact .inr (.inl hpend)
  · cases a with
    | arm trigger => exact .inr (.inr h)
    | cameraChanged => exact absurd rfl hcamera
    | scheduleNext at' | noteSample t => exact .inr (.inr h)
    | flush => exact absurd rfl hflush
    | tick t sampleable fire =>
      rcases e.step_tick t sampleable fire with ⟨-, heq⟩ | ⟨-, heq⟩
      · rw [heq]
        obtain ⟨hlast, d', hd', hle⟩ := h
        rcases e.swaps.tick_cases t fire with ⟨d, harm, -, -, hall, -⟩ | ⟨-, hlast', hall, -⟩
        · have hpend : (e.armed t fire).Pends p := by
            obtain ⟨q, hq, hqle⟩ := armed_released harm
            exact ⟨q, hq, hle.trans ((hall d' hd') ▸ hqle)⟩
          rcases hpend.step t sampleable with ⟨q, hq, hqle⟩ | ⟨-, hpend'⟩
          · exact .inl ⟨q, hq, hqle⟩
          · exact .inr (.inl hpend')
        · obtain ⟨-, f', hf', d, hd, hdle⟩ := hall d' hd'
          obtain rfl := some_inj.mp (hf'.symm.trans (hlast'.trans hlast))
          exact .inr (.inr ⟨hf', d, hd, hle.trans hdle⟩)
      · rw [heq]
        exact .inr (.inr h)

theorem Owes.run (h : e.Owes p f) (hflush : .flush ∉ as) (hcamera : .cameraChanged ∉ as) :
    (∃ q ∈ e.samples as, p ≤ triggerPriority q) ∨ (e.run as).Owes p f := by
  induction as generalizing e with
  | nil => exact .inr h
  | cons a as ih =>
    rw [mem_cons, not_or] at hflush hcamera
    rcases h.step (Ne.symm hflush.1) (Ne.symm hcamera.1) with ⟨q, hq, hle⟩ | h'
    · exact .inl ⟨q, mem_append_left _ (by simp [hq]), hle⟩
    · rcases ih h' hflush.2 hcamera.2 with ⟨q, hq, hle⟩ | h''
      · exact .inl ⟨q, mem_append_right _ hq, hle⟩
      · exact .inr h''

theorem samples_append (e : IdentityEngine) (as bs : List IdentityAction) :
    e.samples (as ++ bs) = e.samples as ++ (e.run as).samples bs := by
  induction as generalizing e with
  | nil => rfl
  | cons a as ih =>
    rw [cons_append, samples, samples, ih, append_assoc]
    rfl

theorem Pends.run (h : e.Pends p) (has : .flush ∉ as) :
    (∃ q ∈ e.samples as, p ≤ triggerPriority q) ∨ (e.run as).Pends p := by
  have hans := h.answered has
  cases hs : e.samples as with
  | nil =>
    rw [hs] at hans
    exact .inr hans
  | cons q qs =>
    rw [hs] at hans
    exact .inl ⟨q, mem_cons_self .., hans⟩

theorem Owes.armed (h : e.Owes p f) (ht : SwapTrigger.minGapMs ≤ t - f)
    (fire : Option SwapTrigger) : (e.armed t fire).Pends p := by
  rcases h with h | ⟨hlast, d', hd', hle⟩
  · exact armed_pends h t fire
  · rcases e.swaps.tick_cases t fire with ⟨d, harm, -, -, hall, -⟩ | ⟨-, -, hall, -⟩
    · obtain ⟨q, hq, hqle⟩ := armed_released harm
      exact ⟨q, hq, hle.trans ((hall d' hd') ▸ hqle)⟩
    · have hpass : e.swaps.passes t = true := by
        refine (e.swaps.passes_iff t).mpr fun f' hf' => ?_
        rwa [← some_inj.mp (hlast.symm.trans hf')]
      exact absurd ((hall d' hd').1.symm.trans hpass) (by decide)

theorem fire_owes (htakes : e.takes t = true) (sampleable : Bool) (swap : SwapTrigger) :
    (∃ q, (e.step (.tick t sampleable (some swap))).2.sample = some q ∧
        triggerPriority swap.trigger ≤ triggerPriority q) ∨
      (e.step (.tick t sampleable (some swap))).1.Pends (triggerPriority swap.trigger) ∨
      ∃ f, (e.step (.tick t sampleable (some swap))).1.swaps.Defers (triggerPriority swap.trigger) f := by
  have hstep : e.step (.tick t sampleable (some swap)) = e.tick t sampleable (some swap) := if_pos htakes
  rw [hstep]
  rcases e.swaps.tick_cases t (some swap) with ⟨d, harm, -, -, -, hfire⟩ | ⟨-, -, -, hfire⟩
  · rcases hfire swap rfl with rfl | hdef
    · rcases (armed_released harm).step t sampleable with hq | ⟨-, hpend'⟩
      · exact .inl hq
      · exact .inr (.inl hpend')
    · exact .inr (.inr ⟨t, hdef⟩)
  · exact .inr (.inr (hfire swap rfl))

/-! ### Steady faces -/

/-- The ticks that were looked at since the last pause. -/
def note (ticks : List (ℚ × Bool)) (e : IdentityEngine) : IdentityAction → List (ℚ × Bool)
  | .tick t sampleable _ => if e.takes t then ticks ++ [(t, sampleable)] else ticks
  | .flush => []
  | _ => ticks

def watch (w : IdentityEngine × List (ℚ × Bool)) (a : IdentityAction) :
    IdentityEngine × List (ℚ × Bool) :=
  ((w.1.step a).1, note w.2 w.1 a)

/-- An engine and what an observer of its ticks noted, after the actions. -/
def watched (pace : IdentityPace) (as : List IdentityAction) : IdentityEngine × List (ℚ × Bool) :=
  as.foldl watch (new pace, [])

theorem watched_append (pace : IdentityPace) (as bs : List IdentityAction) :
    (watched pace (as ++ bs)).1 = (watched pace as).1.run bs := by
  rw [watched, foldl_append, ← watched]
  generalize watched pace as = w
  induction bs generalizing w with
  | nil => rfl
  | cons b bs ih => exact ih (watch w b)

theorem watched_concat (pace : IdentityPace) (as : List IdentityAction) (a : IdentityAction) :
    watched pace (as ++ [a]) = watch (watched pace as) a := by
  rw [watched, foldl_append]
  rfl

theorem watch_stableSince {w : IdentityEngine × List (ℚ × Bool)}
    (h : w.1.scheduler.stableSince = steadySince w.2) (a : IdentityAction) :
    (watch w a).1.scheduler.stableSince = steadySince (watch w a).2 := by
  rw [watch]
  cases a with
  | arm trigger => exact (IdentityScheduler.arm_stableSince trigger).trans h
  | cameraChanged => exact (IdentityScheduler.arm_stableSince _).trans h
  | scheduleNext at' | noteSample t => exact h
  | flush => rfl
  | tick t sampleable fire =>
    dsimp only [note]
    rcases w.1.step_tick t sampleable fire with ⟨htakes, heq⟩ | ⟨htakes, heq⟩
    · rw [heq, if_pos htakes, steadySince_concat, tick_eq, IdentityScheduler.step_stableSince,
        armed_stableSince, h]
    · rw [heq, if_neg (by simp [htakes])]
      exact h

theorem watched_stableSince (pace : IdentityPace) (as : List IdentityAction) :
    (watched pace as).1.scheduler.stableSince = steadySince (watched pace as).2 := by
  induction as using reverseRecOn with
  | nil => rfl
  | append_singleton as a ih =>
    rw [watched_concat]
    exact watch_stableSince ih a

variable {ticks : List (ℚ × Bool)}

theorem note_stableSince (h : e.scheduler.stableSince = steadySince ticks) (t : ℚ)
    (sampleable : Bool) (fire : Option SwapTrigger) :
    ((e.armed t fire).note t sampleable).stableSince =
    steadySince (ticks ++ [(t, sampleable)]) := by
  rw [steadySince_concat, ← h, ← armed_stableSince e t fire]
  rfl

theorem need_le (q : IdentityTrigger) : IdentityScheduler.need (some q) ≤ STABLE_MS := by
  cases q <;> decide +kernel

variable {q : IdentityTrigger}

theorem need_swap {d : SwapTrigger} (h : triggerPriority d.trigger ≤ triggerPriority q) :
    IdentityScheduler.need (some q) ≤ FAST_STABLE_MS := by
  cases d <;> cases q <;> first | decide +kernel | exact absurd h (by decide)

variable {sampleable : Bool}

theorem sampled {t ms : ℚ}
    (h : e.scheduler.stableSince = steadySince ticks) (hpend : (e.armed t fire).Pends p)
    (htakes : e.takes t = true) (hsteady : SteadyFor ms (ticks ++ [(t, sampleable)]) t)
    (hneed : ∀ q, p ≤ triggerPriority q → IdentityScheduler.need (some q) ≤ ms) :
    ∃ q, (e.step (.tick t sampleable fire)).2.sample = some q ∧ p ≤ triggerPriority q := by
  obtain ⟨since, hsince, hms⟩ := hsteady
  obtain ⟨q, hq, hle⟩ := hpend
  have hstep : e.step (.tick t sampleable fire) = e.tick t sampleable fire := if_pos htakes
  rw [hstep]
  rcases (e.armed t fire).step_cases t sampleable with ⟨q', hask⟩ | ⟨-, hno⟩
  · refine ⟨q', congrArg Prod.snd hask.after, ?_⟩
    rcases hask.cause with hp | ⟨hp, -⟩
    · rwa [← some_inj.mp (hq.symm.trans hp)]
    · exact absurd (hq.symm.trans hp) (by simp)
  · rw [note_stableSince h] at hno
    have := hno since hsince q hq
    have := hneed q hle
    linarith

theorem steady_of_sample (h : e.scheduler.stableSince = steadySince ticks)
    (hq : (e.step a).2.sample = some q) :
    ∃ t sampleable fire, a = .tick t sampleable fire ∧ e.takes t = true ∧
      SteadyFor (IdentityScheduler.need (some q)) (ticks ++ [(t, sampleable)]) t := by
  cases a with
  | tick t sampleable fire =>
    rcases e.step_tick t sampleable fire with ⟨htakes, heq⟩ | ⟨-, heq⟩
    · refine ⟨t, sampleable, fire, rfl, htakes, ?_⟩
      rw [heq, tick_eq] at hq
      rcases (e.armed t fire).step_cases t sampleable with ⟨q', hask⟩ | ⟨hnone, -⟩
      · have hqq : some q' = some q := (congrArg Prod.snd hask.after).symm.trans hq
        obtain rfl := some_inj.mp hqq
        obtain ⟨since, hsince, hle⟩ := hask.stable
        rw [note_stableSince h] at hsince
        exact ⟨since, hsince, hle⟩
      · rw [hnone] at hq
        cases hq
    · rw [heq] at hq
      cases hq
  | arm | cameraChanged | scheduleNext | noteSample | flush => cases hq

/-! ### Distances -/

theorem armTimes_apart (hflush : .flush ∉ as) (hcamera : .cameraChanged ∉ as) (e : IdentityEngine) :
    (∀ f ∈ e.swaps.lastFiredAt, ∀ a ∈ e.armTimes as, f + SwapTrigger.minGapMs ≤ a) ∧
      (e.armTimes as).Pairwise fun a b => a + SwapTrigger.minGapMs ≤ b := by
  induction as generalizing e with
  | nil => exact ⟨by simp [armTimes], .nil⟩
  | cons a as ih =>
    rw [mem_cons, not_or] at hflush hcamera
    obtain ⟨hfrom, hpair⟩ := ih hflush.2 hcamera.2 (e.step a).1
    cases a with
    | arm trigger | scheduleNext at' | noteSample t => exact ⟨hfrom, hpair⟩
    | cameraChanged => exact absurd rfl hcamera.1
    | flush => exact absurd rfl hflush.1
    | tick t sampleable fire =>
      rw [armTimes]
      rcases e.step_tick t sampleable fire with ⟨-, heq⟩ | ⟨-, heq⟩
      · rw [heq, tick_eq] at hfrom hpair ⊢
        rcases e.swaps.tick_cases t fire with ⟨d, harm, hpass, hlast, -⟩ | ⟨hnone, hlast, -⟩
        · have hlater := hfrom t hlast
          rw [harm]
          refine ⟨fun f hf a ha => ?_, pairwise_cons.mpr ⟨hlater, hpair⟩⟩
          have hft := (e.swaps.passes_iff t).mp hpass f hf
          have hpos : (0 : ℚ) ≤ SwapTrigger.minGapMs := by decide +kernel
          rcases mem_cons.mp ha with rfl | ha
          · linarith
          · linarith [hlater a ha]
        · rw [hnone]
          exact ⟨fun f hf => hfrom f (hlast.trans hf), hpair⟩
      · rw [heq] at hfrom hpair ⊢
        exact ⟨hfrom, hpair⟩

/-- The shortest interval between routine samples. -/
def leastIntervalMs (pace : IdentityPace) : ℚ := min pace.startupIntervalMs pace.intervalMs

theorem leastIntervalMs_le (s : IdentityScheduler) (t : ℚ) (h : 0 < s.interval t) :
    leastIntervalMs s.pace ≤ s.interval t := by
  rw [IdentityScheduler.interval] at h ⊢
  split at h
  · exact absurd h (lt_irrefl 0)
  next hpos =>
    rw [if_neg hpos]
    split
    · exact min_le_left _ _
    · exact min_le_right _ _

/-- The last sample was taken at `t` or later, and nothing but the interval says when the next
routine one is due. -/
structure Rests (t : ℚ) (e : IdentityEngine) : Prop where
  sampled : ∃ last ∈ e.scheduler.lastSampleAt, t ≤ last ∧ ∃ now ∈ e.lastT, last ≤ now
  host : e.scheduler.hostDueAt = none
  pending : e.scheduler.pending ≠ some .periodic

theorem arm_pending {s : IdentityScheduler} (h : s.pending ≠ some .periodic)
    {trigger : IdentityTrigger}
    (ht : trigger ≠ .periodic) : (s.arm trigger).pending ≠ some .periodic := by
  rw [IdentityScheduler.arm]
  split
  · exact fun heq => ht (some_inj.mp heq)
  · exact h

theorem armed_pending (h : e.scheduler.pending ≠ some .periodic) (t : ℚ)
    (fire : Option SwapTrigger) : (e.armed t fire).pending ≠ some .periodic := by
  rw [armed]
  cases (e.swaps.tick t fire).2 with
  | none => exact h
  | some d => exact arm_pending h (by cases d <;> simp [SwapTrigger.trigger])

theorem armed_lastSampleAt (e : IdentityEngine) (t : ℚ) (fire : Option SwapTrigger) :
    (e.armed t fire).lastSampleAt = e.scheduler.lastSampleAt := by
  rw [armed]
  cases (e.swaps.tick t fire).2 with
  | none => rfl
  | some d => exact IdentityScheduler.arm_lastSampleAt _

theorem armed_hostDueAt (e : IdentityEngine) (t : ℚ) (fire : Option SwapTrigger) :
    (e.armed t fire).hostDueAt = e.scheduler.hostDueAt := by
  rw [armed]
  cases (e.swaps.tick t fire).2 with
  | none => rfl
  | some d => exact IdentityScheduler.arm_hostDueAt _

theorem armed_pace (e : IdentityEngine) (t : ℚ) (fire : Option SwapTrigger) :
    (e.armed t fire).pace = e.scheduler.pace := by
  rw [armed]
  cases (e.swaps.tick t fire).2 with
  | none => rfl
  | some d => exact IdentityScheduler.arm_pace _

theorem step_pace (e : IdentityEngine) (a : IdentityAction) :
    (e.step a).1.scheduler.pace = e.scheduler.pace := by
  cases a with
  | arm trigger | cameraChanged => exact IdentityScheduler.arm_pace _
  | scheduleNext at' | noteSample t | flush => rfl
  | tick t sampleable fire =>
    rcases e.step_tick t sampleable fire with ⟨-, heq⟩ | ⟨-, heq⟩
    · rw [heq, tick_eq, IdentityScheduler.step_pace, armed_pace]
    · rw [heq]

theorem run_pace (e : IdentityEngine) (as : List IdentityAction) :
    (e.run as).scheduler.pace = e.scheduler.pace := by
  induction as generalizing e with
  | nil => rfl
  | cons a as ih => exact (ih _).trans (e.step_pace a)

theorem rests_of_sample
    (hq : (e.step (.tick t sampleable fire)).2.sample = some q) :
    (e.step (.tick t sampleable fire)).1.Rests t := by
  rcases e.step_tick t sampleable fire with ⟨-, heq⟩ | ⟨-, heq⟩
  · rw [heq, tick_eq] at hq ⊢
    rcases (e.armed t fire).step_cases t sampleable with ⟨q', hask⟩ | ⟨hnone, -⟩
    · rw [hask.after]
      exact ⟨⟨t, rfl, le_rfl, t, rfl, le_rfl⟩, rfl, by simp⟩
    · rw [hnone] at hq
      cases hq
  · rw [heq] at hq
    cases hq

theorem Rests.step (h : e.Rests t) (ha : a.Undisturbed) : (e.step a).1.Rests t := by
  obtain ⟨⟨last, hlast, hle, now, hnow, hln⟩, hhost, hpend⟩ := h
  cases a with
  | arm trigger =>
    refine ⟨⟨last, (IdentityScheduler.arm_lastSampleAt trigger).trans hlast, hle, now, hnow, hln⟩,
      (IdentityScheduler.arm_hostDueAt trigger).trans hhost, arm_pending hpend ?_⟩
    rintro rfl
    exact ha
  | cameraChanged =>
    exact ⟨⟨last, (IdentityScheduler.arm_lastSampleAt _).trans hlast, hle, now, hnow, hln⟩,
      (IdentityScheduler.arm_hostDueAt _).trans hhost, arm_pending hpend (by decide)⟩
  | scheduleNext at' | noteSample t | flush => exact absurd ha id
  | tick t' sampleable fire =>
    rcases e.step_tick t' sampleable fire with ⟨htakes, heq⟩ | ⟨-, heq⟩
    · have hlt : now < t' := by
        rw [takes, mem_def.mp hnow] at htakes
        exact of_decide_eq_true htakes
      have hlast' : ((e.armed t' fire).note t' sampleable).lastSampleAt = some last := by
        rw [IdentityScheduler.note, armed_lastSampleAt, mem_def.mp hlast]
        rfl
      rw [heq, tick_eq]
      rcases (e.armed t' fire).step_cases t' sampleable with ⟨q', hask⟩ | ⟨hnone, -⟩
      · rw [hask.after]
        exact ⟨⟨t', rfl, by linarith, t', rfl, le_rfl⟩, rfl, by simp⟩
      · rw [hnone]
        exact ⟨⟨last, hlast', hle, t', rfl, by linarith⟩, (armed_hostDueAt e t' fire).trans hhost,
          armed_pending hpend t' fire⟩
    · rw [heq]
      exact ⟨⟨last, hlast, hle, now, hnow, hln⟩, hhost, hpend⟩

theorem Rests.run (h : e.Rests t) (has : ∀ a ∈ as, a.Undisturbed) :
    (e.run as).Rests t := by
  induction as generalizing e with
  | nil => exact h
  | cons a as ih =>
    exact ih (h.step (has a (mem_cons_self ..))) fun a' ha' => has a' (mem_cons_of_mem _ ha')

theorem Rests.periodic (h : e.Rests t) {t' : ℚ}
    (hq : (e.step (.tick t' sampleable fire)).2.sample = some .periodic) :
    t + leastIntervalMs e.scheduler.pace ≤ t' := by
  obtain ⟨⟨last, hlast, hle, now, hnow, hln⟩, hhost, hpend⟩ := h
  rcases e.step_tick t' sampleable fire with ⟨htakes, heq⟩ | ⟨-, heq⟩
  · rw [heq, tick_eq] at hq
    rcases (e.armed t' fire).step_cases t' sampleable with ⟨q', hask⟩ | ⟨hnone, -⟩
    · have hqq : some q' = some IdentityTrigger.periodic := (congrArg Prod.snd hask.after).symm.trans hq
      obtain rfl := some_inj.mp hqq
      rcases hask.cause with hp | ⟨-, -, due, hdue, hdt⟩
      · exact absurd hp (armed_pending hpend t' fire)
      · have hlast' : ((e.armed t' fire).note t' sampleable).lastSampleAt = some last := by
          rw [IdentityScheduler.note, armed_lastSampleAt, mem_def.mp hlast]
          rfl
        have hhost' : ((e.armed t' fire).note t' sampleable).hostDueAt = none :=
          (armed_hostDueAt e t' fire).trans hhost
        have hpace : ((e.armed t' fire).note t' sampleable).pace = e.scheduler.pace := armed_pace e t' fire
        rw [IdentityScheduler.dueAt, hlast', hhost'] at hdue
        dsimp only at hdue
        split at hdue
        next hpos =>
          have hleast := leastIntervalMs_le _ _ hpos
          rw [hpace] at hleast
          have hsum := some_inj.mp hdue
          linarith
        next => cases hdue
    · rw [hnone] at hq
      cases hq
  · rw [heq] at hq
    cases hq

end IdentityEngine

open IdentityEngine in
/-- No trigger is lost between two pauses, and what is sampled is a steady face; what the distances
between samples are. -/
theorem triggers_kept (pace : IdentityPace) (as : List IdentityAction) :
    (∀ trigger bs, .flush ∉ bs →
        Answered (triggerPriority trigger) (((watched pace as).1.step (.arm trigger)).1.samples bs)
          (((watched pace as).1.step (.arm trigger)).1.run bs)) ∧
      (∀ p t sampleable fire, (watched pace as).1.Pends p → (watched pace as).1.takes t = true →
        SteadyFor STABLE_MS ((watched pace as).2 ++ [(t, sampleable)]) t →
        ∃ q, ((watched pace as).1.step (.tick t sampleable fire)).2.sample = some q ∧ p ≤ triggerPriority q) ∧
      (∀ t sampleable swap bs t' sampleable' fire', (watched pace as).1.takes t = true → .flush ∉ bs →
        .cameraChanged ∉ bs →
        (watched pace (as ++ .tick t sampleable (some swap) :: bs)).1.takes t' = true →
        SteadyFor FAST_STABLE_MS
          ((watched pace (as ++ .tick t sampleable (some swap) :: bs)).2 ++ [(t', sampleable')]) t' →
        (((watched pace as).1.step (.tick t sampleable (some swap))).1.swaps.deferred = none ∨
          ((watched pace as).1.step (.tick t sampleable (some swap))).1.swaps.passes t' = true) →
        ∃ q ∈ (watched pace as).1.samples (.tick t sampleable (some swap) :: bs ++ [.tick t' sampleable' fire']),
          triggerPriority swap.trigger ≤ triggerPriority q) ∧
      (∀ a q, ((watched pace as).1.step a).2.sample = some q →
        ∃ t sampleable fire, a = .tick t sampleable fire ∧
          SteadyFor (IdentityScheduler.need (some q)) ((watched pace as).2 ++ [(t, sampleable)]) t) ∧
      (∀ bs, .flush ∉ bs → .cameraChanged ∉ bs →
        ((watched pace as).1.armTimes bs).Pairwise fun a b => a + SwapTrigger.minGapMs ≤ b) ∧
      ∀ t sampleable fire q bs t' sampleable' fire',
        ((watched pace as).1.step (.tick t sampleable fire)).2.sample = some q → (∀ b ∈ bs, b.Undisturbed) →
        ((((watched pace as).1.step (.tick t sampleable fire)).1.run bs).step
          (.tick t' sampleable' fire')).2.sample = some .periodic →
        t + leastIntervalMs pace ≤ t' := by
  have hstable := watched_stableSince pace as
  refine ⟨fun trigger bs hbs => ?_, fun p t sampleable fire hp ht hst => ?_, ?_, fun a q hq => ?_,
    fun bs hf hc => (armTimes_apart hf hc _).2,
      fun t sampleable fire q bs t' sampleable' fire' hq hbs hq' => ?_⟩
  · have hp : ((watched pace as).1.step (.arm trigger)).1.Pends (triggerPriority trigger) :=
      IdentityScheduler.arm_pends _ trigger
    exact hp.answered hbs
  · exact sampled hstable (armed_pends hp t fire) ht hst fun q _ => need_le q
  · intro t sampleable swap bs t' sampleable' fire' htakes hflush hcamera htakes' hsteady hdue
    have hrun : (watched pace (as ++ .tick t sampleable (some swap) :: bs)).1 =
        ((watched pace as).1.step (.tick t sampleable (some swap))).1.run bs := watched_append ..
    have hstable' := watched_stableSince pace (as ++ .tick t sampleable (some swap) :: bs)
    rw [hrun] at htakes' hstable'
    rw [cons_append, samples, samples_append]
    -- the swap is sampled at once, or it is pending, or it is deferred
    rcases fire_owes htakes sampleable swap with ⟨q, hq, hle⟩ | hpend | ⟨f, hdef⟩
    · exact ⟨q, mem_append_left _ (by simp [hq]), hle⟩
    · rcases hpend.run hflush with ⟨q, hq, hle⟩ | hpend'
      · exact ⟨q, by simp [hq], hle⟩
      · obtain ⟨q, hq, hle⟩ := sampled hstable' (armed_pends hpend' t' fire') htakes' hsteady fun q => need_swap
        exact ⟨q, by simp [samples, hq], hle⟩
    · have hgap : SwapTrigger.minGapMs ≤ t' - f := by
        obtain ⟨hlast, d, hd, -⟩ := hdef
        rcases hdue with hnone | hpass
        · exact absurd (hnone.symm.trans hd) (by simp)
        · exact (SwapSlot.passes_iff _ t').mp hpass f hlast
      rcases Owes.run (.inr hdef) hflush hcamera with ⟨q, hq, hle⟩ | howes
      · exact ⟨q, by simp [hq], hle⟩
      · obtain ⟨q, hq, hle⟩ := sampled hstable' (howes.armed hgap fire') htakes' hsteady fun q => need_swap
        exact ⟨q, by simp [samples, hq], hle⟩
  · obtain ⟨t, sampleable, fire, heq, -, hst⟩ := steady_of_sample hstable hq
    exact ⟨t, sampleable, fire, heq, hst⟩
  · have hrests := (rests_of_sample hq).run hbs
    have hspaced := hrests.periodic hq'
    rw [run_pace, step_pace] at hspaced
    have hpace : (watched pace as).1.scheduler.pace = pace := by
      have hrun := watched_append pace [] as
      rw [nil_append] at hrun
      rw [hrun, run_pace]
      rfl
    rwa [hpace] at hspaced

/-- A routine sample every half minute. -/
def halfMinute : IdentityPace := .new ⟨30000, none, none⟩

/-- The face is steady from 0 on, and at 1000 a possible swap is seen. -/
def swapSeen : List IdentityAction := [.tick 0 true none, .tick 1000 true (some .appearanceChange)]

open IdentityEngine in
/-- A broken track is sampled though the face returns meanwhile.  A possible swap that is seen too
soon after another one is deferred, and sampled once it is due. -/
theorem brokenTrack_kept :
    (Answered 7 (((watched halfMinute []).1.step (.arm .trackBreak)).1.samples
          [.arm .faceReturn, .tick 0 true none, .tick 700 true none])
        (((watched halfMinute []).1.step (.arm .trackBreak)).1.run
          [.arm .faceReturn, .tick 0 true none, .tick 700 true none]) ∧
      ((watched halfMinute []).1.step (.arm .trackBreak)).1.samples
        [.arm .faceReturn, .tick 0 true none, .tick 700 true none] = [.trackBreak]) ∧
    (∃ q ∈ (watched halfMinute swapSeen).1.samples
        (.tick 2000 true (some .trackBreak) :: [.tick 3000 true none] ++ [.tick 5000 true none]),
      triggerPriority .trackBreak ≤ triggerPriority q) ∧
    (watched halfMinute swapSeen).1.samples
        (.tick 2000 true (some .trackBreak) :: [.tick 3000 true none]) = [] := by
  have hsteady : SteadyFor FAST_STABLE_MS ((watched halfMinute
      (swapSeen ++ .tick 2000 true (some .trackBreak) :: [.tick 3000 true none])).2 ++ [(5000, true)]) 5000 :=
    ⟨0, by decide +kernel, by decide +kernel⟩
  exact ⟨⟨(triggers_kept halfMinute []).1 .trackBreak _ (by simp), by decide +kernel⟩,
    (triggers_kept halfMinute swapSeen).2.2.1 2000 true .trackBreak [.tick 3000 true none] 5000 true none
      (by decide +kernel) (by simp) (by simp) (by decide +kernel) hsteady (.inr (by decide +kernel)),
    by decide +kernel⟩

/-- A pause forgets what is pending, and two samples may follow one another within a tenth of a
second. -/
theorem pausedTrack_forgotten :
    (IdentityEngine.new halfMinute).samples [.arm .trackBreak, .flush, .tick 0 true none,
      .tick 700 true none] = [] ∧
      (IdentityEngine.new halfMinute).samples
          [.tick 0 true none, .arm .faceReturn, .tick 600 true none, .arm .afterObstruction, .tick 700 true none] =
        [.faceReturn, .afterObstruction] := by
  decide +kernel

end SmartProctoring
