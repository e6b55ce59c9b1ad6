import Mathlib.Algebra.Order.Field.Rat
import Mathlib.Data.List.Chain
import Mathlib.Tactic.Linarith
import SmartProctoring.Lib.RingBuffer

/-!
# Debounced conditions

`engine/debounce.ts` and `TickWindow` of `util/ring.ts`: the state machine behind every detector.  A
condition is observed tick by tick as holding, absent or not assessable.  It turns on when a run of
ticks is long enough, has enough ticks that support it and few that do not, and off when it has not
been seen for a while.

Times and scores are exact rationals.  `none` stands for the `-Infinity` that `lastTrue` and
`lastFeed` start with, and for a score that is not a finite number.
-/

set_option autoImplicit false

namespace SmartProctoring

open Option

/-! ## The window of ticks -/

/-- The ticks of the window with the count of those that hold. -/
structure TickWindow where
  ring : RingBuffer (ℚ × Bool)
  trues : Nat
  trues_eq : trues = ring.toList.countP (·.2)

namespace TickWindow

variable (w : TickWindow)

/-- The ticks in the window, the oldest first. -/
def ticks : List (ℚ × Bool) := w.ring.toList

def new (capacity : Nat) (h : 0 < capacity) : TickWindow where
  ring := .new capacity h
  trues := 0
  trues_eq := rfl

def size : Nat := w.ring.len

def trueCount : Nat := w.trues

def fraction : ℚ := if w.size = 0 then 0 else w.trues / w.size

def clear : TickWindow where
  ring := w.ring.clear
  trues := 0
  trues_eq := rfl

def push (t : ℚ) (v : Bool) : TickWindow where
  ring := w.ring.push (t, v)
  trues := if v then w.trues + 1 else w.trues
  trues_eq := by
    rw [RingBuffer.toList_push, List.countP_append, w.trues_eq]
    cases v <;> simp

/-- One round of the loop of `prune`. -/
def dropOldest : TickWindow where
  ring := w.ring.pop
  trues := if w.ring.head?.any (·.2) then w.trues - 1 else w.trues
  trues_eq := by
    rw [RingBuffer.toList_pop, w.trues_eq, ← RingBuffer.head?_toList]
    rcases w.ring.toList with _ | ⟨⟨t, v⟩, xs⟩
    · rfl
    · cases v <;> simp

/-- The loop of `prune`, for at most `fuel` rounds. -/
def pruneLoop (minT : ℚ) : Nat → TickWindow → TickWindow
  | 0, w => w
  | fuel + 1, w => if w.ring.head?.any (·.1 < minT) then pruneLoop minT fuel w.dropOldest else w

/-- Drop the ticks that are older than `minT`. -/
def prune (minT : ℚ) : TickWindow := pruneLoop minT w.size w

@[simp] theorem ticks_new (capacity : Nat) (h : 0 < capacity) : (new capacity h).ticks = [] := rfl

@[simp] theorem ticks_clear : w.clear.ticks = [] := rfl

@[simp] theorem ticks_push (t : ℚ) (v : Bool) : (w.push t v).ticks = w.ticks ++ [(t, v)] :=
  RingBuffer.toList_push _ _

@[simp] theorem length_ticks : w.ticks.length = w.size := w.ring.length_toList

theorem trueCount_eq : w.trueCount = w.ticks.countP (·.2) := w.trues_eq

theorem ticks_pruneLoop (minT : ℚ) (fuel : Nat) (w : TickWindow) (h : w.size ≤ fuel) :
    (pruneLoop minT fuel w).ticks = w.ticks.dropWhile (·.1 < minT) := by
  induction fuel generalizing w with
  | zero =>
    have hnil : w.ticks = [] := List.length_eq_zero_iff.mp (by rw [length_ticks]; omega)
    rw [pruneLoop, hnil, List.dropWhile_nil]
  | succ fuel ih =>
    have hhead : w.ring.head? = w.ticks.head? := (RingBuffer.head?_toList _).symm
    have htail : w.dropOldest.ticks = w.ticks.tail := RingBuffer.toList_pop _
    have hsize : w.dropOldest.size = w.size - 1 := rfl
    rw [pruneLoop, hhead]
    cases hticks : w.ticks with
    | nil => simp [hticks]
    | cons x xs =>
      rw [List.head?_cons, any_some, List.dropWhile_cons]
      split
      · rw [ih _ (by omega), htail, hticks, List.tail_cons]
      · exact hticks

theorem ticks_prune (minT : ℚ) : (w.prune minT).ticks = w.ticks.dropWhile (·.1 < minT) :=
  ticks_pruneLoop minT _ w le_rfl

end TickWindow

/-- The share of the ticks that hold. -/
def share (ticks : List (ℚ × Bool)) : ℚ :=
  if ticks = [] then 0 else ticks.countP (·.2) / ticks.length

theorem TickWindow.fraction_eq (w : TickWindow) : w.fraction = share w.ticks := by
  rw [fraction, share, ← trueCount_eq, ← length_ticks]
  simp only [List.length_eq_zero_iff]
  rfl

theorem dropWhile_eq_filter {ticks : List (ℚ × Bool)} (h : ticks.Pairwise (·.1 ≤ ·.1)) (minT : ℚ) :
    ticks.dropWhile (·.1 < minT) = ticks.filter (minT ≤ ·.1) := by
  induction h with
  | nil => rfl
  | @cons x xs hx _ ih =>
    rw [List.dropWhile_cons, List.filter_cons]
    by_cases hlt : x.1 < minT
    · rw [if_pos (by simpa using hlt), if_neg (by simpa using hlt), ih]
    · rw [if_neg (by simpa using hlt), if_pos (by simpa using hlt), List.filter_eq_self.mpr]
      intro y hy
      have := hx y hy
      simp only [decide_eq_true_eq]
      linarith

/-! ## The state machine -/

def clamp01 (v : ℚ) : ℚ := if v < 0 then 0 else if 1 < v then 1 else v

structure DebounceParams where
  onsetMs : ℚ
  clearMs : ℚ
  minFraction : ℚ
  gapTolMs : ℚ
  minTicks : ℚ

inductive DebounceEvent where
  | onset (startedAt : ℚ)
  | clear (endedAt : ℚ)
  deriving DecidableEq

structure Debouncer (p : DebounceParams) where
  active : Bool
  /-- Start of the run that is building or active. -/
  runStart : Option ℚ
  lastTrue : Option ℚ
  /-- First tick without the condition since the last one with it, while active. -/
  firstOff : Option ℚ
  lastFeed : Option ℚ
  win : TickWindow
  runTrue : Nat
  runTotal : Nat
  scoreSum : ℚ
  /-- The run is over and is kept to be read until the next step. -/
  pendingReset : Bool

namespace Debouncer

variable {p : DebounceParams} (d : Debouncer p)

def new (p : DebounceParams) : Debouncer p where
  active := false
  runStart := none
  lastTrue := none
  firstOff := none
  lastFeed := none
  win := .new 32 (by decide)
  runTrue := 0
  runTotal := 0
  scoreSum := 0
  pendingReset := false

/-- No episode and no run building. -/
def idle : Bool := !d.active && (d.runStart.isNone || d.pendingReset)

def resetRun : Debouncer p :=
  { d with
    pendingReset := false, runStart := none, firstOff := none, lastTrue := none, win := d.win.clear
    runTrue := 0, runTotal := 0, scoreSum := 0 }

/-- A finished run is forgotten at the next step. -/
def settled : Debouncer p := if d.pendingReset then d.resetRun else d

/-- A run without the condition for too long is given up. -/
def dropStale (t : ℚ) : Debouncer p :=
  if d.runStart.isSome ∧ d.lastTrue.all (p.gapTolMs < t - ·) then d.resetRun else d

def startRun (t : ℚ) : Debouncer p :=
  match d.runStart with
  | none =>
    { d with runStart := some t, win := d.win.clear, runTrue := 0, runTotal := 0, scoreSum := 0 }
  | some _ => d

/-- The tick supports the run: it is counted, and the window is brought up to date. -/
def support (t : ℚ) (score : Option ℚ) : Debouncer p :=
  { d with
    lastTrue := some t, win := (d.win.push t true).prune (t - p.onsetMs), runTrue := d.runTrue + 1
    runTotal := d.runTotal + 1, scoreSum := d.scoreSum + score.getD 1 }

/-- The run that started at `start` is long enough, and well enough supported. -/
def Ready (t start : ℚ) : Prop :=
  p.onsetMs ≤ t - start ∧ p.minTicks ≤ d.runTrue ∧ p.minFraction ≤ d.win.fraction
  deriving Decidable

def stepIdle (t : ℚ) (v : Option Bool) (score : Option ℚ) : Debouncer p × Option DebounceEvent :=
  let d := d.dropStale t
  match v with
  | some true =>
    let d := (d.startRun t).support t score
    let start := d.runStart.getD t
    if d.Ready t start then ({ d with active := true, firstOff := none }, some (.onset start))
    else (d, none)
  | some false =>
    if d.runStart.isSome then
      ({ d with win := (d.win.push t false).prune (t - p.onsetMs), runTotal := d.runTotal + 1 }, none)
    else (d, none)
  | none => (d, none)

theorem stepIdle_false (t : ℚ) (score : Option ℚ) :
    d.stepIdle t (some false) score =
      if (d.dropStale t).runStart.isSome then
        ({ d.dropStale t with
            win := ((d.dropStale t).win.push t false).prune (t - p.onsetMs)
            runTotal := (d.dropStale t).runTotal + 1 }, none)
      else (d.dropStale t, none) := rfl

theorem stepIdle_true (t : ℚ) (score : Option ℚ) {run : Debouncer p} {start : ℚ}
    (hrun : ((d.dropStale t).startRun t).support t score = run)
    (hstart : run.runStart = some start) : d.stepIdle t (some true) score =
      if run.Ready t start then ({ run with active := true, firstOff := none }, some (.onset start))
      else (run, none) := by
  subst hrun
  simp only [stepIdle, hstart, getD_some]

/-- A tick without the condition while active. -/
def stepOff (t : ℚ) : Debouncer p × Option DebounceEvent :=
  let off := d.firstOff.getD t
  if p.clearMs ≤ t - off then
    ({ d with firstOff := some off, active := false, pendingReset := true }, some (.clear off))
  else ({ d with firstOff := some off }, none)

def stepActive (t : ℚ) (v : Option Bool) (score : Option ℚ) : Debouncer p × Option DebounceEvent :=
  match v with
  | some true =>
    ({ d with
        lastTrue := some t, firstOff := none, runTrue := d.runTrue + 1, runTotal := d.runTotal + 1
        scoreSum := d.scoreSum + score.getD 1 }, none)
  | some false => { d with runTotal := d.runTotal + 1 }.stepOff t
  | none => d.stepOff t

def fed (t : ℚ) : Debouncer p := { d with lastFeed := some t }

/-- One observation. -/
def step (t : ℚ) (v : Option Bool) (score : Option ℚ) : Debouncer p × Option DebounceEvent :=
  let d := d.settled.fed t
  if d.active then d.stepActive t v score else d.stepIdle t v score

/-- An active condition that nothing was fed to for `maxSilenceMs` is cleared. -/
def expire (t maxSilenceMs : ℚ) : Debouncer p × Option DebounceEvent :=
  if !d.active ∨ d.lastFeed.any (t - · < maxSilenceMs) then (d, none)
  else
    -- an active condition has been true, so there is a time to report
    ({ d with active := false, pendingReset := true }, (d.firstOff.or d.lastTrue).map .clear)

/-- Hard reset: a flush, or the camera restarts. -/
def reset : Debouncer p := { d.resetRun with active := false, lastFeed := none }

/-! ### What is said of the run -/

/-- The share of the ticks of the run that could be assessed and hold. -/
def supportFraction : ℚ := if d.runTotal = 0 then 0 else d.runTrue / d.runTotal

def meanScore : ℚ := if d.runTrue = 0 then 0 else d.scoreSum / d.runTrue

/-- From the mean score, the share of ticks that hold, and how long the run is compared with the
onset. -/
def confidence (t : ℚ) (scoreOverride : Option ℚ) : ℚ :=
  let score := scoreOverride.getD d.meanScore
  let dur :=
    match d.runStart, d.lastTrue with
    | some runStart, some lastTrue => max 0 (min t lastTrue - runStart)
    | _, _ => 0
  let durF := clamp01 (dur / max 1 (2 * p.onsetMs))
  clamp01 (score * (11 / 20 + 9 / 20 * d.supportFraction) * (3 / 4 + 1 / 4 * durF))

/-! ## The times it keeps -/

/-- What the times of a debouncer are at time `now`. -/
structure InTime (now : ℚ) : Prop where
  run : ∀ s ∈ d.runStart, 0 < d.runTrue ∧ ∃ l ∈ d.lastTrue,
    s ≤ l ∧ l ≤ now ∧ (1 < d.runTrue → s < l)
  active : d.active = true → d.pendingReset = false ∧ d.runStart.isSome = true ∧
    p.minTicks ≤ d.runTrue
  idle : d.active = false → d.pendingReset = false → d.firstOff = none
  off : ∀ o ∈ d.firstOff, o ≤ now ∧ ∀ l ∈ d.lastTrue, l ≤ o

variable {d} {now t : ℚ}

theorem InTime.new (p : DebounceParams) (now : ℚ) : (new p).InTime now :=
  ⟨by simp [Debouncer.new], by simp [Debouncer.new], fun _ _ => rfl, by simp [Debouncer.new]⟩

theorem InTime.mono (h : d.InTime now) (ht : now ≤ t) : d.InTime t where
  run s hs :=
    have ⟨hpos, l, hl, hsl, hln, hlt⟩ := h.run s hs
    ⟨hpos, l, hl, hsl, hln.trans ht, hlt⟩
  active := h.active
  idle := h.idle
  off o ho := ⟨(h.off o ho).1.trans ht, (h.off o ho).2⟩

theorem InTime.resetRun (d : Debouncer p) (h : d.active = false) (now : ℚ) :
    d.resetRun.InTime now where
  run := by simp [Debouncer.resetRun]
  active ha := by simp [Debouncer.resetRun, h] at ha
  idle _ _ := rfl
  off := by simp [Debouncer.resetRun]

theorem InTime.settled (h : d.InTime now) :
    d.settled.InTime now ∧ d.settled.pendingReset = false := by
  rw [Debouncer.settled]
  split
  next hp =>
    have hidle : d.active = false := by
      cases ha : d.active with
      | false => rfl
      | true => exact absurd (h.active ha).1 (by simp [hp])
    exact ⟨.resetRun d hidle now, rfl⟩
  next hp => exact ⟨h, by simpa using hp⟩

theorem InTime.fed (h : d.InTime now) (t : ℚ) : (d.fed t).InTime now := { h with }

@[simp] theorem active_settled (d : Debouncer p) : d.settled.active = d.active := by
  rw [Debouncer.settled]
  split <;> rfl

@[simp] theorem active_dropStale (d : Debouncer p) (t : ℚ) : (d.dropStale t).active = d.active := by
  rw [Debouncer.dropStale]
  split <;> rfl

theorem InTime.dropStale (h : d.InTime now) (hidle : d.active = false)
    (hp : d.pendingReset = false) :
    (d.dropStale t).InTime now ∧ (d.dropStale t).pendingReset = false := by
  rw [Debouncer.dropStale]
  split
  · exact ⟨.resetRun d hidle now, rfl⟩
  · exact ⟨h, hp⟩

/-- What one observation at time `t` does. -/
inductive Stepped (d : Debouncer p) (t : ℚ) (v : Option Bool) (d' : Debouncer p) :
    Option DebounceEvent → Prop
  | waits (hoff : d.active = false) (hoff' : d'.active = false) (hfirst : d'.firstOff = none) :
      Stepped d t v d' none
  | onset {s : ℚ} (hoff : d.active = false) (hon : d'.active = true) (hv : v = some true)
      (hlast : d'.lastTrue = some t) (hfirst : d'.firstOff = none) (hs : d'.runStart = some s) :
      Stepped d t v d' (some (.onset s))
  | supported (hon : d.active = true) (hon' : d'.active = true) (hv : v = some true)
      (hlast : d'.lastTrue = some t) (hfirst : d'.firstOff = none) : Stepped d t v d' none
  | off (hon : d.active = true) (hon' : d'.active = true) (hv : v ≠ some true)
      (hlast : d'.lastTrue = d.lastTrue)
      (hfirst : d'.firstOff = some (d.firstOff.getD t)) : Stepped d t v d' none
  | clear (hon : d.active = true) (hoff' : d'.active = false) (hv : v ≠ some true)
      (hlast : d'.lastTrue = d.lastTrue)
      (hfirst : d'.firstOff = some (d.firstOff.getD t)) :
      Stepped d t v d' (some (.clear (d.firstOff.getD t)))

theorem InTime.support (h : d.InTime now) (hidle : d.active = false) (hp : d.pendingReset = false)
    (ht : now < t) (score : Option ℚ) :
    ((d.startRun t).support t score).InTime t ∧ ((d.startRun t).support t score).active = false ∧
      ((d.startRun t).support t score).pendingReset = false ∧ ((d.startRun t).support t score).runStart.isSome = true := by
  cases hs : d.runStart with
  | none =>
    have hstart : d.startRun t =
        { d with runStart := some t, win := d.win.clear, runTrue := 0, runTotal := 0, scoreSum := 0 } := by
      rw [startRun, hs]
    have hoff : d.firstOff = none := h.idle hidle hp
    rw [hstart]
    refine ⟨⟨fun s hs => ⟨Nat.succ_pos _, t, rfl, ?_⟩, fun ha => ?_, fun _ _ => hoff,
      fun o ho => ?_⟩, hidle, hp, rfl⟩
    · obtain rfl := some_inj.mp hs
      exact ⟨le_rfl, le_rfl, fun hc => absurd hc (lt_irrefl 1)⟩
    · exact absurd (hidle.symm.trans ha) (by decide)
    · exact absurd (hoff.symm.trans ho) (by simp)
  | some start =>
    have hstart : d.startRun t = d := by rw [startRun, hs]
    have hoff : d.firstOff = none := h.idle hidle hp
    obtain ⟨-, l, -, hsl, hln, -⟩ := h.run start hs
    have hlt : start < t := by linarith
    rw [hstart]
    refine ⟨⟨fun s hs' => ⟨Nat.succ_pos _, t, rfl, ?_⟩, fun ha => ?_, fun _ _ => hoff,
      fun o ho => ?_⟩, hidle, hp, ?_⟩
    · obtain rfl := some_inj.mp (hs.symm.trans hs')
      exact ⟨hlt.le, le_rfl, fun _ => hlt⟩
    · exact absurd (hidle.symm.trans ha) (by decide)
    · exact absurd (hoff.symm.trans ho) (by simp)
    · exact congrArg isSome hs

theorem InTime.stepIdle (h : d.InTime now) (hidle : d.active = false) (hp : d.pendingReset = false)
    (ht : now < t) (v : Option Bool) (score : Option ℚ) :
    (d.stepIdle t v score).1.InTime t ∧
    Stepped d t v (d.stepIdle t v score).1 (d.stepIdle t v score).2 := by
  obtain ⟨hd, hp'⟩ := h.dropStale (t := t) hidle hp
  have hact : (d.dropStale t).active = false := by rw [active_dropStale, hidle]
  have hfirst : (d.dropStale t).firstOff = none := hd.idle hact hp'
  have hm := hd.mono ht.le
  rcases v with _ | _ | _
  · exact ⟨hm, .waits hidle hact hfirst⟩
  · rw [stepIdle_false]
    split
    · exact ⟨{ hm with }, .waits hidle hact hfirst⟩
    · exact ⟨hm, .waits hidle hact hfirst⟩
  · obtain ⟨hrun, hact', hp'', hsome⟩ := hd.support hact hp' ht score
    obtain ⟨start, hstart⟩ := isSome_iff_exists.mp hsome
    rw [stepIdle_true d t score rfl hstart]
    split
    next hready =>
      refine ⟨⟨hrun.run, fun _ => ⟨hp'', hsome, hready.2.1⟩, fun hc => absurd hc (by simp), by simp⟩, ?_⟩
      exact .onset hidle rfl rfl rfl rfl hstart
    next => exact ⟨hrun, .waits hidle hact' (hrun.idle hact' hp'')⟩

theorem InTime.stepOff (h : d.InTime now) (hon : d.active = true) (ht : now < t) :
    (d.stepOff t).1.InTime t ∧ (d.stepOff t).1.lastTrue = d.lastTrue ∧
      (d.stepOff t).1.firstOff = some (d.firstOff.getD t) ∧
      (((d.stepOff t).1.active = true ∧ (d.stepOff t).2 = none) ∨
        ((d.stepOff t).1.active = false ∧ (d.stepOff t).2 = some (.clear (d.firstOff.getD t)))) := by
  have hoff : d.firstOff.getD t ≤ t ∧ ∀ l ∈ d.lastTrue, l ≤ d.firstOff.getD t := by
    cases hf : d.firstOff with
    | none =>
      refine ⟨le_rfl, fun l hl => ?_⟩
      obtain ⟨-, hsome, -⟩ := h.active hon
      obtain ⟨s, hs⟩ := isSome_iff_exists.mp hsome
      obtain ⟨-, l', hl', -, hln, -⟩ := h.run s hs
      obtain rfl := mem_unique hl hl'
      exact hln.trans ht.le
    | some o => exact ⟨(h.off o hf).1.trans ht.le, (h.off o hf).2⟩
  have hoff' : ∀ o ∈ some (d.firstOff.getD t), o ≤ t ∧ ∀ l ∈ d.lastTrue, l ≤ o := by
    intro o ho
    obtain rfl := some_inj.mp ho
    exact hoff
  have hm := h.mono ht.le
  rw [Debouncer.stepOff]
  split
  · exact ⟨⟨hm.run, fun hc => absurd hc (by simp), fun _ hc => absurd hc (by simp), hoff'⟩, rfl,
      rfl, .inr ⟨rfl, rfl⟩⟩
  · exact ⟨⟨hm.run, hm.active, fun hc => absurd (hon.symm.trans hc) (by decide), hoff'⟩, rfl, rfl,
      .inl ⟨hon, rfl⟩⟩

theorem InTime.stepActive (h : d.InTime now) (hon : d.active = true) (ht : now < t)
    (v : Option Bool) (score : Option ℚ) :
    (d.stepActive t v score).1.InTime t ∧
    Stepped d t v (d.stepActive t v score).1 (d.stepActive t v score).2 := by
  have hstepOff : v ≠ some true → ∀ e : Debouncer p,
      e.InTime now → e.active = true → e.lastTrue = d.lastTrue →
      e.firstOff = d.firstOff → (e.stepOff t).1.InTime t ∧
      Stepped d t v (e.stepOff t).1 (e.stepOff t).2 := by
    intro hv e he hact hl hf
    obtain ⟨hin, hlast, hfirst, ⟨ha, hev⟩ | ⟨ha, hev⟩⟩ := he.stepOff hact ht
    · rw [hev]
      exact ⟨hin, .off hon ha hv (hlast.trans hl) (hfirst.trans (by rw [hf]))⟩
    · rw [hev, hf]
      exact ⟨hin, .clear hon ha hv (hlast.trans hl) (hfirst.trans (by rw [hf]))⟩
  rcases v with _ | _ | _
  · exact hstepOff (by simp) d h hon rfl rfl
  · exact hstepOff (by simp) _ { h with } hon rfl rfl
  · refine ⟨⟨fun s hs => ?_, fun ha => ?_, fun hc =>
      absurd (hon.symm.trans hc) (by decide), by simp [Debouncer.stepActive]⟩,
      .supported hon hon rfl rfl rfl⟩
    · obtain ⟨-, l, -, hsl, hln, -⟩ := h.run s hs
      have hlt : s < t := by linarith
      exact ⟨Nat.succ_pos _, t, rfl, hlt.le, le_rfl, fun _ => hlt⟩
    · obtain ⟨hp, hsome, hticks⟩ := h.active ha
      refine ⟨hp, hsome, hticks.trans ?_⟩
      exact_mod_cast Nat.le_succ d.runTrue

theorem InTime.expire (h : d.InTime now) (ht : now < t) (maxSilenceMs : ℚ) :
    (d.expire t maxSilenceMs).1.InTime t ∧
      (d.expire t maxSilenceMs = (d, none) ∨
        d.active = true ∧ (d.expire t maxSilenceMs).1.active = false ∧
          ∃ e, (d.expire t maxSilenceMs).2 = some (.clear e) ∧ e ≤ now ∧ ∀ l ∈ d.lastTrue, l ≤ e) := by
  have hm := h.mono ht.le
  rw [Debouncer.expire]
  split
  · exact ⟨hm, .inl rfl⟩
  next hc =>
    have hon : d.active = true := by
      cases ha : d.active with
      | true => rfl
      | false => exact absurd (.inl (by simp [ha])) hc
    refine ⟨⟨hm.run, fun hc => absurd hc (by simp), fun _ hc => absurd hc (by simp), hm.off⟩,
      .inr ⟨hon, rfl, ?_⟩⟩
    cases hf : d.firstOff with
    | some o => exact ⟨o, rfl, h.off o hf⟩
    | none =>
      obtain ⟨s, hs⟩ := isSome_iff_exists.mp (h.active hon).2.1
      obtain ⟨-, l, hl, -, hln, -⟩ := h.run s hs
      refine ⟨l, ?_, hln, fun l' hl' => (mem_unique hl' hl).le⟩
      rw [mem_def.mp hl]
      rfl

theorem InTime.reset (d : Debouncer p) (now : ℚ) : d.reset.InTime now where
  run := by simp [Debouncer.reset, Debouncer.resetRun]
  active ha := by simp [Debouncer.reset] at ha
  idle _ _ := rfl
  off := by simp [Debouncer.reset, Debouncer.resetRun]

theorem InTime.step (h : d.InTime now) (ht : now < t) (v : Option Bool) (score : Option ℚ) :
    (d.step t v score).1.InTime t ∧ Stepped d t v (d.step t v score).1 (d.step t v score).2 := by
  obtain ⟨hset, hp⟩ := h.settled
  cases hact : d.active with
  | false =>
    have hact' : (d.settled.fed t).active = false := (active_settled d).trans hact
    have hstep : d.step t v score = (d.settled.fed t).stepIdle t v score := if_neg (by simp [hact'])
    obtain ⟨hin, hstepped⟩ := (hset.fed t).stepIdle hact' hp ht v score
    rw [hstep]
    refine ⟨hin, ?_⟩
    generalize (d.settled.fed t).stepIdle t v score = r at hstepped
    obtain ⟨d', ev⟩ := r
    cases hstepped with
    | waits _ hoff' hfirst => exact .waits hact hoff' hfirst
    | onset _ hon hv hlast hfirst hs => exact .onset hact hon hv hlast hfirst hs
    | supported hon | off hon | clear hon => exact absurd (hact'.symm.trans hon) (by decide)
  | true =>
    have hsame : d.settled = d := by
      rw [Debouncer.settled, (h.active hact).1]
      rfl
    have hstep : d.step t v score = (d.fed t).stepActive t v score := by
      rw [Debouncer.step, hsame]
      exact if_pos hact
    obtain ⟨hin, hstepped⟩ := (h.fed t).stepActive hact ht v score
    rw [hstep]
    refine ⟨hin, ?_⟩
    generalize (d.fed t).stepActive t v score = r at hstepped
    obtain ⟨d', ev⟩ := r
    cases hstepped with
    | waits hoff | onset hoff => exact absurd (hact.symm.trans hoff) (by decide)
    | supported hon hon' hv hlast hfirst => exact .supported hon hon' hv hlast hfirst
    | off hon hon' hv hlast hfirst => exact .off hon hon' hv hlast hfirst
    | clear hon hoff' hv hlast hfirst => exact .clear hon hoff' hv hlast hfirst

end Debouncer

end SmartProctoring
