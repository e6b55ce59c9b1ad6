import Mathlib.Data.List.DropRight
import SmartProctoring.Detection.Debounce

/-!
# The rule a debounced condition follows

The comment at the head of `engine/debounce.ts` says when a condition turns on and off in terms of
the ticks seen so far.  Here that rule is stated over the whole trace, without the counters, the
window and the pending times that `Debouncer` keeps, and the two are shown to report the same onsets
and ends at the same ticks.

The share of ticks that hold is taken over the ticks of the run.  The comment speaks of all ticks in
the last `onsetMs`; the two differ by ticks before the run that carry the very time it started at,
so they are the same where no two ticks carry the same time (`phaseAt_trace`).
-/

set_option autoImplicit false

namespace SmartProctoring

open List

/-- What `step` is called with. -/
structure Tick where
  t : ℚ
  v : Option Bool
  score : Option ℚ := some 1

namespace DebounceRule

/-! ## The rule -/

/-- The condition is observed at the tick. -/
def holds (x : Tick) : Bool := x.v = some true

/-- The ticks at which the condition could be assessed. -/
def assessed (ticks : List Tick) : List (ℚ × Bool) := ticks.filterMap fun x => x.v.map (x.t, ·)

/-- No two ticks with the condition, one after the other, are more than `gap` apart. -/
def Linked (gap : ℚ) (ticks : List Tick) : Prop :=
  ((ticks.filter holds).map (·.t)).IsChain fun a b => b - a ≤ gap
  deriving Decidable

/-- The run the ticks end in: it starts with the condition and is never without it for more than
`gap`. -/
def runOf (gap : ℚ) : List Tick → List Tick
  | [] => []
  | x :: xs => if holds x = true ∧ Linked gap (x :: xs) then x :: xs else runOf gap xs

/-- Which ticks the share is taken over: those of the run, or all that were seen. -/
inductive Scope where
  | run
  | trace

def Scope.ticks (run seen : List Tick) : Scope → List Tick
  | .run => run
  | .trace => seen

/-- What turns the condition on at the tick `now`. -/
structure Onset (p : DebounceParams) (start : ℚ) (run counted : List Tick) (now : Tick) : Prop where
  holds_now : holds now = true
  long : p.onsetMs ≤ now.t - start
  supported : p.minTicks ≤ run.countP holds
  mostly : p.minFraction ≤ share ((assessed counted).filter (now.t - p.onsetMs ≤ ·.1))

instance (p : DebounceParams) (start : ℚ) (run counted : List Tick) (now : Tick) :
    Decidable (Onset p start run counted now) :=
  decidable_of_iff
    (holds now = true ∧ p.onsetMs ≤ now.t - start ∧ p.minTicks ≤ run.countP holds ∧
      p.minFraction ≤ share ((assessed counted).filter (now.t - p.onsetMs ≤ ·.1)))
    ⟨fun h => ⟨h.1, h.2.1, h.2.2.1, h.2.2.2⟩, fun h => ⟨h.1, h.2, h.3, h.4⟩⟩

/-- When the condition began, if it turns on at the last tick: `ticks` are those since it last
turned off. -/
def onsetAt (scope : Scope) (p : DebounceParams) (seen ticks : List Tick) : Option ℚ :=
  let run := runOf p.gapTolMs ticks
  match run.head?, ticks.getLast? with
  | some first, some now => if Onset p first.t run (scope.ticks run seen) now then some first.t else none
  | _, _ => none

/-- The first of the ticks without the condition that the ticks end in. -/
def offSince (ticks : List Tick) : Option ℚ := (ticks.rtakeWhile (!holds ·)).head?.map (·.t)

/-- When the condition stopped, if it turns off at the last tick: `ticks` are those since it turned
on. -/
def clearAt (p : DebounceParams) (ticks : List Tick) : Option ℚ :=
  match offSince ticks, ticks.getLast? with
  | some off, some now => if p.clearMs ≤ now.t - off then some off else none
  | _, _ => none

/-- The ticks from number `base` on, of the first `n`. -/
def since (history : List Tick) (base n : Nat) : List Tick := (history.take n).drop base

/-- Off since before tick `base`, or on since tick `onset`, the condition having begun at
`startedAt`. -/
inductive Phase where
  | off (base : Nat)
  | on (startedAt : ℚ) (onset : Nat)
  deriving DecidableEq

/-- The phase after the first `n` ticks of the trace. -/
def phaseAt (scope : Scope) (p : DebounceParams) (history : List Tick) : Nat → Phase
  | 0 => .off 0
  | n + 1 =>
    match phaseAt scope p history n with
    | .off base =>
      match onsetAt scope p (history.take (n + 1)) (since history base (n + 1)) with
      | some start => .on start n
      | none => .off base
    | .on start onset =>
      match clearAt p (since history onset (n + 1)) with
      | some _ => .off (n + 1)
      | none => .on start onset

/-- What is to be reported at tick `n`. -/
def eventAt (scope : Scope) (p : DebounceParams) (history : List Tick) (n : Nat) :
    Option DebounceEvent :=
  match phaseAt scope p history n with
  | .off base => (onsetAt scope p (history.take (n + 1)) (since history base (n + 1))).map .onset
  | .on _ onset => (clearAt p (since history onset (n + 1))).map .clear

/-! ## The ticks so far -/

/-- The last time at which the condition was seen. -/
def lastTrueOf (ticks : List Tick) : Option ℚ := ((ticks.filter holds).map (·.t)).getLast?

theorem lastTrueOf_concat (ticks : List Tick) (x : Tick) :
    lastTrueOf (ticks ++ [x]) = if holds x then some x.t else lastTrueOf ticks := by
  rw [lastTrueOf]
  split
  · simp [*]
  · simp [lastTrueOf, *]

variable {gap : ℚ} {ticks : List Tick} {x : Tick}

theorem linked_concat_off (hx : holds x = false) :
    Linked gap (ticks ++ [x]) ↔ Linked gap ticks := by
  simp [Linked, hx]

theorem linked_concat_on (hx : holds x = true) :
    Linked gap (ticks ++ [x]) ↔ Linked gap ticks ∧ ∀ l ∈ lastTrueOf ticks, x.t - l ≤ gap := by
  simp only [Linked, filter_append, map_append, filter_singleton, hx]
  rw [isChain_append]
  simp [lastTrueOf]

theorem runOf_suffix (gap : ℚ) (ticks : List Tick) : runOf gap ticks <:+ ticks := by
  induction ticks with
  | nil => exact suffix_rfl
  | cons x xs ih =>
    rw [runOf]
    split
    · exact suffix_rfl
    · exact ih.trans (suffix_cons x xs)

theorem lastTrueOf_cons (x : Tick) (ticks : List Tick) :
    lastTrueOf (x :: ticks) = (lastTrueOf ticks).or (if holds x then some x.t else none) := by
  rw [lastTrueOf, lastTrueOf, filter_cons]
  split
  · rw [map_cons, getLast?_cons]
    cases ((ticks.filter holds).map (·.t)).getLast? <;> rfl
  · rw [Option.or_none]

theorem linked_cons (h : lastTrueOf ticks = none) :
    Linked gap (x :: ticks) := by
  have hnil : (ticks.filter holds).map (·.t) = [] := getLast?_eq_none_iff.mp h
  rw [Linked, filter_cons]
  split
  · rw [map_cons, hnil]
    exact .singleton _
  · rw [hnil]
    exact .nil

theorem lastTrueOf_tail
    (h : ¬ (holds x = true ∧ Linked gap (x :: ticks))) :
    lastTrueOf (x :: ticks) = lastTrueOf ticks := by
  rw [lastTrueOf_cons]
  cases hl : lastTrueOf ticks with
  | some l => rfl
  | none => rw [if_neg fun hx => h ⟨hx, linked_cons hl⟩, Option.or_none]

theorem runOf_ne_nil {l : ℚ} (h : l ∈ lastTrueOf ticks) : runOf gap ticks ≠ [] := by
  induction ticks with
  | nil => simp [lastTrueOf] at h
  | cons x xs ih =>
    rw [runOf]
    split
    · exact cons_ne_nil x xs
    next hx => exact ih (lastTrueOf_tail hx ▸ h)

/-! ### One more tick -/

theorem runOf_concat_off (hx : holds x = false) {l : ℚ}
    (hl : l ∈ lastTrueOf ticks) : runOf gap (ticks ++ [x]) = runOf gap ticks ++ [x] := by
  induction ticks with
  | nil => simp [lastTrueOf] at hl
  | cons y ys ih =>
    have hlinked := @linked_concat_off gap (y :: ys) x hx
    rw [cons_append] at hlinked ⊢
    rw [runOf, runOf]
    by_cases hy : holds y = true ∧ Linked gap (y :: ys)
    · rw [if_pos ⟨hy.1, hlinked.mpr hy.2⟩, if_pos hy, cons_append]
    · rw [if_neg fun hc => hy ⟨hc.1, hlinked.mp hc.2⟩, if_neg hy]
      exact ih (lastTrueOf_tail hy ▸ hl)

theorem runOf_concat_linked (hx : holds x = true)
    (h : ∀ l ∈ lastTrueOf ticks, x.t - l ≤ gap) :
    runOf gap (ticks ++ [x]) = runOf gap ticks ++ [x] := by
  induction ticks with
  | nil => simp [runOf, hx, Linked]
  | cons y ys ih =>
    have hlinked := @linked_concat_on gap (y :: ys) x hx
    rw [cons_append] at hlinked ⊢
    rw [runOf, runOf]
    by_cases hy : holds y = true ∧ Linked gap (y :: ys)
    · rw [if_pos ⟨hy.1, hlinked.mpr ⟨hy.2, h⟩⟩, if_pos hy, cons_append]
    · rw [if_neg fun hc => hy ⟨hc.1, (hlinked.mp hc.2).1⟩, if_neg hy]
      exact ih (lastTrueOf_tail hy ▸ h)

theorem runOf_concat_stale (hx : holds x = true)
    (h : ∀ l ∈ lastTrueOf ticks, gap < x.t - l) : runOf gap (ticks ++ [x]) = [x] := by
  induction ticks with
  | nil => simp [runOf, hx, Linked]
  | cons y ys ih =>
    have hlinked := @linked_concat_on gap (y :: ys) x hx
    rw [cons_append] at hlinked ⊢
    -- a run that starts at `y` has a last tick with the condition, and it is too long ago
    have hno : ¬ (holds y = true ∧ Linked gap (y :: (ys ++ [x]))) := by
      rintro ⟨hy, hc⟩
      have hle := (hlinked.mp hc).2
      cases hl : lastTrueOf (y :: ys) with
      | none => simp [lastTrueOf_cons, hy] at hl
      | some l => exact absurd (hle l hl) (not_le.mpr (h l hl))
    rw [runOf, if_neg hno]
    refine ih fun l hl => h l ?_
    rw [lastTrueOf_cons, Option.mem_def.mp hl]
    rfl

variable {seen : List Tick} {scope : Scope}

theorem onsetAt_concat {p : DebounceParams} {x first : Tick}
    (h : (runOf p.gapTolMs (ticks ++ [x])).head? = some first) :
    onsetAt scope p seen (ticks ++ [x]) =
      if Onset p first.t (runOf p.gapTolMs (ticks ++ [x]))
        (scope.ticks (runOf p.gapTolMs (ticks ++ [x])) seen) x then
        some first.t
      else none := by
  simp only [onsetAt, h, getLast?_concat]

theorem onsetAt_off {p : DebounceParams}
    (hx : holds x = false) : onsetAt scope p seen (ticks ++ [x]) = none := by
  cases h : (runOf p.gapTolMs (ticks ++ [x])).head? with
  | none => simp only [onsetAt, h]
  | some first =>
    rw [onsetAt_concat h, if_neg]
    intro ho
    simp [ho.holds_now] at hx

theorem offSince_concat (ticks : List Tick) (x : Tick) :
    offSince (ticks ++ [x]) = if holds x then none else some ((offSince ticks).getD x.t) := by
  rw [offSince]
  split
  next hx => rw [rtakeWhile_concat_neg _ _ _ (by simp [hx])]; rfl
  next hx =>
    rw [rtakeWhile_concat_pos _ _ _ (by simp [hx]), offSince]
    cases ticks.rtakeWhile (!holds ·) <;> rfl

theorem clearAt_concat (p : DebounceParams) (ticks : List Tick) (x : Tick) :
    clearAt p (ticks ++ [x]) =
      if holds x then none
      else
        let off := (offSince ticks).getD x.t
        if p.clearMs ≤ x.t - off then some off else none := by
  rw [clearAt, offSince_concat, getLast?_concat]
  cases holds x <;> rfl

/-! ## The debouncer follows the rule -/

variable {p : DebounceParams} {d : Debouncer p}

/-- The counters and the window, which reaches back to `since`, are those of the run. -/
structure Builds (d : Debouncer p) (run : List Tick) (since : ℚ) : Prop where
  runStart : d.runStart = run.head?.map (·.t)
  runTrue : d.runTrue = run.countP holds
  win : d.win.ticks = (assessed run).filter (since ≤ ·.1)

/-- The window reaches back as far as it will be asked for. -/
def Reaches (p : DebounceParams) (run : List Tick) (since : ℚ) : Prop :=
  ∀ t, (∀ x ∈ run, x.t ≤ t) → since ≤ t - p.onsetMs

theorem reaches_concat (p : DebounceParams) (run : List Tick) (x : Tick) : Reaches p (run ++ [x])
    (x.t - p.onsetMs) := by
  intro t ht
  have := ht x (by simp)
  linarith

/-- Off at time `t`, with the ticks since it last turned off: the run they end in builds, or it has
been without the condition for too long. -/
structure Waits (d : Debouncer p) (ticks : List Tick) (t : ℚ) : Prop where
  active : d.active = false
  pendingReset : d.pendingReset = false
  run : (d.runStart = none ∧ ∀ l ∈ lastTrueOf ticks, p.gapTolMs < t - l) ∨
    (d.lastTrue = lastTrueOf ticks ∧ (∃ l, l ∈ lastTrueOf ticks) ∧
      ∃ since, Reaches p (runOf p.gapTolMs ticks) since ∧ Builds d (runOf p.gapTolMs ticks) since)

/-- On since the first of the ticks. -/
structure Lasts (d : Debouncer p) (start : ℚ) (ticks : List Tick) : Prop where
  active : d.active = true
  pendingReset : d.pendingReset = false
  runStart : d.runStart = some start
  firstOff : d.firstOff = offSince ticks

theorem Waits.new (t : ℚ) : Waits (Debouncer.new p) [] t where
  active := rfl
  pendingReset := rfl
  run := .inl ⟨rfl, by simp [lastTrueOf]⟩

theorem Waits.resetRun (h : d.active = false) (t : ℚ) : Waits d.resetRun [] t where
  active := h
  pendingReset := rfl
  run := .inl ⟨rfl, by simp [lastTrueOf]⟩

theorem Waits.mono {t t' : ℚ} (h : Waits d ticks t) (ht : t ≤ t') : Waits d ticks t' where
  active := h.active
  pendingReset := h.pendingReset
  run := h.run.imp_left fun ⟨hnone, hstale⟩ => ⟨hnone, fun l hl => by
    have := hstale l hl
    linarith⟩

variable {t : ℚ}

theorem Waits.dropStale (h : Waits d ticks t) :
    Waits (d.dropStale t) ticks t ∧
      ((d.dropStale t).runStart = none ∨ ∀ l ∈ lastTrueOf ticks, t - l ≤ p.gapTolMs) := by
  rw [Debouncer.dropStale]
  rcases h.run with ⟨hnone, hstale⟩ | ⟨hlast, ⟨l, hl⟩, since, -, hb⟩
  · rw [if_neg (by simp [hnone])]
    exact ⟨h, .inl hnone⟩
  · have hstart : d.runStart.isSome = true := by
      rw [hb.runStart]
      simpa using runOf_ne_nil hl
    have hcond : (d.runStart.isSome = true ∧ d.lastTrue.all (p.gapTolMs < t - ·) = true) ↔ p.gapTolMs < t - l := by
      rw [hlast, Option.mem_def.mp hl]
      simp [hstart]
    by_cases hgap : p.gapTolMs < t - l
    · rw [if_pos (hcond.mpr hgap)]
      refine ⟨⟨h.active, rfl, .inl ⟨rfl, fun l' hl' => ?_⟩⟩, .inl rfl⟩
      obtain rfl := Option.mem_unique hl hl'
      exact hgap
    · rw [if_neg fun hc => hgap (hcond.mp hc)]
      refine ⟨h, .inr fun l' hl' => ?_⟩
      obtain rfl := Option.mem_unique hl hl'
      exact not_lt.mp hgap

/-- In the order of their times. -/
def InOrder (ticks : List Tick) : Prop := ticks.Pairwise (·.t ≤ ·.t)

theorem InOrder.concat_le {x y : Tick} (h : InOrder (ticks ++ [x])) (hy : y ∈ ticks) :
    y.t ≤ x.t :=
  (pairwise_append.mp h).2.2 y hy x (mem_singleton_self x)

theorem runOf_inOrder (h : InOrder (ticks ++ [x])) :
    InOrder (runOf gap ticks ++ [x]) := by
  obtain ⟨pre, hpre⟩ := runOf_suffix gap ticks
  rw [← hpre, append_assoc] at h
  exact h.sublist (sublist_append_right _ _)

variable {run : List Tick}

theorem assessed_concat {v : Bool} (hx : x.v = some v) :
    assessed (run ++ [x]) = assessed run ++ [(x.t, v)] := by
  simp [assessed, hx]

theorem assessed_inOrder (h : InOrder run) : (assessed run).Pairwise (·.1 ≤ ·.1) := by
  refine List.Pairwise.filterMap _ (fun a b hab x hx y hy => ?_) h
  simp only [Option.map_eq_some_iff] at hx hy
  obtain ⟨_, -, rfl⟩ := hx
  obtain ⟨_, -, rfl⟩ := hy
  exact hab

theorem ticks_advance {w : TickWindow} {v : Bool} {since onsetMs : ℚ}
    (hx : x.v = some v) (hrun : InOrder (run ++ [x])) (hsince : since ≤ x.t - onsetMs)
    (hw : w.ticks = (assessed run).filter (since ≤ ·.1)) :
    ((w.push x.t v).prune (x.t - onsetMs)).ticks =
    (assessed (run ++ [x])).filter (x.t - onsetMs ≤ ·.1) := by
  have hsub : (w.push x.t v).ticks.Sublist (assessed (run ++ [x])) := by
    rw [TickWindow.ticks_push, hw, assessed_concat hx]
    exact (filter_sublist).append (List.Sublist.refl _)
  rw [TickWindow.ticks_prune, dropWhile_eq_filter ((assessed_inOrder hrun).sublist hsub),
    TickWindow.ticks_push, hw,
    assessed_concat hx, filter_append, filter_append, filter_filter]
  congr 1
  refine filter_congr fun y _ => ?_
  by_cases hy : x.t - onsetMs ≤ y.1
  · simp [hy, hsince.trans hy]
  · simp [hy]

theorem head?_concat_of_ne_nil (x : Tick) (h : run ≠ []) : (run ++ [x]).head? = run.head? := by
  cases run with
  | nil => exact absurd rfl h
  | cons y ys => rfl

theorem Waits.support (h : Waits d ticks x.t) (hx : holds x = true)
    (hticks : InOrder (ticks ++ [x])) :
    ∃ run, runOf p.gapTolMs (ticks ++ [x]) = run ++ [x] ∧
      Builds (((d.dropStale x.t).startRun x.t).support x.t x.score) (run ++ [x]) (x.t - p.onsetMs) := by
  have hv : x.v = some true := by simpa [holds] using hx
  obtain ⟨⟨-, -, hrun⟩, hgap⟩ := h.dropStale
  rcases hrun with ⟨hnone, hstale⟩ | ⟨hlast, ⟨l, hl⟩, since, hsince, hb⟩
  · refine ⟨[], runOf_concat_stale hx hstale, ?_, ?_, ticks_advance hv (pairwise_singleton _ _) le_rfl ?_⟩
    · simp [Debouncer.support, Debouncer.startRun, hnone]
    · simp [Debouncer.support, Debouncer.startRun, hnone, hx]
    · simp [Debouncer.startRun, hnone, assessed]
  · have hne := @runOf_ne_nil p.gapTolMs ticks l hl
    have hsome : ∃ start, (d.dropStale x.t).runStart = some start := by
      rw [hb.runStart]
      cases hr : runOf p.gapTolMs ticks with
      | nil => exact absurd hr hne
      | cons y ys => exact ⟨y.t, rfl⟩
    obtain ⟨start, hstart⟩ := hsome
    have hgo : (d.dropStale x.t).startRun x.t = d.dropStale x.t := by rw [Debouncer.startRun, hstart]
    have hord : InOrder (runOf p.gapTolMs ticks ++ [x]) := runOf_inOrder hticks
    rw [hgo]
    refine ⟨runOf p.gapTolMs ticks, runOf_concat_linked hx (hgap.resolve_left (by simp [hstart])), ?_, ?_,
      ticks_advance hv hord (hsince x.t fun y hy => hord.concat_le hy) hb.win⟩
    · rw [head?_concat_of_ne_nil x hne]
      exact hb.runStart
    · rw [countP_append, ← hb.runTrue]
      simp [Debouncer.support, hx]

theorem Waits.stepIdle_off (h : Waits d ticks x.t) (hx : holds x = false)
    (hticks : InOrder (ticks ++ [x])) :
    (d.stepIdle x.t x.v x.score).2 = none ∧
    Waits (d.stepIdle x.t x.v x.score).1 (ticks ++ [x]) x.t := by
  obtain ⟨⟨hact, hpend, hrun⟩, -⟩ := h.dropStale
  have hlast : lastTrueOf (ticks ++ [x]) = lastTrueOf ticks := by rw [lastTrueOf_concat, hx]; rfl
  rcases hrun with ⟨hnone, hstale⟩ | ⟨hl, ⟨l, hmem⟩, since, hsince, hb⟩
  · have hsame : d.stepIdle x.t x.v x.score = (d.dropStale x.t, none) := by
      rcases hv : x.v with _ | _ | _
      · rfl
      · rw [Debouncer.stepIdle_false, hnone]
        rfl
      · simp [holds, hv] at hx
    rw [hsame]
    exact ⟨rfl, hact, hpend, .inl ⟨hnone, hlast ▸ hstale⟩⟩
  · have hne := @runOf_ne_nil p.gapTolMs ticks l hmem
    have hhead : (d.dropStale x.t).runStart = (runOf p.gapTolMs ticks ++ [x]).head?.map (·.t) := by
      rw [head?_concat_of_ne_nil x hne]
      exact hb.runStart
    have htrue : (d.dropStale x.t).runTrue = (runOf p.gapTolMs ticks ++ [x]).countP holds := by
      rw [countP_append, ← hb.runTrue]
      simp [hx]
    have hord : InOrder (runOf p.gapTolMs ticks ++ [x]) := runOf_inOrder hticks
    rw [← hlast] at hl
    have hmem' : l ∈ lastTrueOf (ticks ++ [x]) := hlast ▸ hmem
    rcases hv : x.v with _ | _ | _
    · -- nothing is assessed, nothing is counted
      have hsame : assessed (runOf p.gapTolMs ticks ++ [x]) = assessed (runOf p.gapTolMs ticks) := by
        simp [assessed, hv]
      refine ⟨rfl, hact, hpend, .inr ⟨hl, ⟨l, hmem'⟩, since, ?_⟩⟩
      rw [runOf_concat_off hx hmem]
      exact ⟨fun t ht => hsince t fun y hy => ht y (mem_append_left _ hy), hhead, htrue, hsame ▸ hb.win⟩
    · rw [Debouncer.stepIdle_false, if_pos]
      · refine ⟨rfl, hact, hpend, .inr ⟨hl, ⟨l, hmem'⟩, x.t - p.onsetMs, ?_⟩⟩
        rw [runOf_concat_off hx hmem]
        exact ⟨reaches_concat p _ x, hhead, htrue,
          ticks_advance hv hord (hsince x.t fun y hy => hord.concat_le hy) hb.win⟩
      · rw [hb.runStart, Option.isSome_map, isSome_head?]
        exact hne
    · simp [holds, hv] at hx

theorem Builds.ready_iff (hx : holds x = true) (hb : Builds d run (x.t - p.onsetMs)) (start : ℚ) :
    d.Ready x.t start ↔ Onset p start run (Scope.run.ticks run seen) x := by
  rw [Debouncer.Ready, TickWindow.fraction_eq, hb.win, hb.runTrue]
  exact ⟨fun h => ⟨hx, h.1, h.2.1, h.2.2⟩, fun h => ⟨h.long, h.supported, h.mostly⟩⟩

theorem Waits.stepIdle_on (h : Waits d ticks x.t) (hx : holds x = true)
    (hticks : InOrder (ticks ++ [x])) (seen : List Tick) :
    (d.stepIdle x.t x.v x.score).2 = (onsetAt .run p seen (ticks ++ [x])).map .onset ∧
      (∀ start ∈ onsetAt .run p seen (ticks ++ [x]), Lasts (d.stepIdle x.t x.v x.score).1 start [x]) ∧
      (onsetAt .run p seen (ticks ++ [x]) = none → Waits (d.stepIdle x.t x.v x.score).1 (ticks ++ [x]) x.t) := by
  have hv : x.v = some true := by simpa [holds] using hx
  obtain ⟨⟨hact, hpend, -⟩, -⟩ := h.dropStale
  obtain ⟨run, hrun, hb⟩ := h.support hx hticks
  obtain ⟨first, hfirst⟩ : ∃ first, (run ++ [x]).head? = some first := by
    cases run with
    | nil => exact ⟨x, rfl⟩
    | cons y ys => exact ⟨y, rfl⟩
  have hstart := hb.runStart
  rw [hfirst] at hstart
  have hgo : (((d.dropStale x.t).startRun x.t).support x.t x.score).active = false ∧
      (((d.dropStale x.t).startRun x.t).support x.t x.score).pendingReset = false := by
    rw [Debouncer.startRun]
    split
    · exact ⟨hact, hpend⟩
    · exact ⟨hact, hpend⟩
  rw [hv, Debouncer.stepIdle_true d x.t x.score rfl hstart,
    onsetAt_concat (by rw [hrun]; exact hfirst), hrun]
  by_cases hready : Onset p first.t (run ++ [x]) (Scope.run.ticks (run ++ [x]) seen) x
  · rw [if_pos ((hb.ready_iff hx _).mpr hready), if_pos hready]
    refine ⟨rfl, fun start hs => ?_, fun hs => by simp at hs⟩
    obtain rfl : first.t = start := by simpa using hs
    refine ⟨rfl, hgo.2, hstart, ?_⟩
    have hoff := offSince_concat [] x
    rw [hx] at hoff
    exact hoff.symm
  · rw [if_neg fun hr => hready ((hb.ready_iff hx _).mp hr), if_neg hready]
    refine ⟨rfl, fun start hs => by simp at hs, fun _ => ⟨hgo.1, hgo.2, .inr ?_⟩⟩
    have hlast : lastTrueOf (ticks ++ [x]) = some x.t := by rw [lastTrueOf_concat, hx]; rfl
    rw [hlast, hrun]
    exact ⟨rfl, ⟨x.t, rfl⟩, x.t - p.onsetMs, reaches_concat p run x, hb⟩

variable {start : ℚ}

theorem Lasts.stepActive (h : Lasts d start ticks) (x : Tick) :
    (d.stepActive x.t x.v x.score).2 = (clearAt p (ticks ++ [x])).map .clear ∧
      (∀ off ∈ clearAt p (ticks ++ [x]), ∀ t, Waits (d.stepActive x.t x.v x.score).1.settled [] t) ∧
      (clearAt p (ticks ++ [x]) = none → Lasts (d.stepActive x.t x.v x.score).1 start (ticks ++ [x])) := by
  have hoff := offSince_concat ticks x
  -- what a tick without the condition does, whichever it is
  have hstepOff : holds x = false → ∀ e : Debouncer p, Lasts e start ticks →
      (e.stepOff x.t).2 = (clearAt p (ticks ++ [x])).map .clear ∧
        (∀ off ∈ clearAt p (ticks ++ [x]), ∀ t, Waits (e.stepOff x.t).1.settled [] t) ∧
        (clearAt p (ticks ++ [x]) = none → Lasts (e.stepOff x.t).1 start (ticks ++ [x])) := by
    intro hx e he
    rw [hx] at hoff
    rw [clearAt_concat, hx, Debouncer.stepOff, he.firstOff]
    by_cases hclear : p.clearMs ≤ x.t - (offSince ticks).getD x.t
    · rw [if_pos hclear, if_pos hclear]
      exact ⟨rfl, fun _ _ t => Waits.resetRun rfl t, fun hc => by simp at hc⟩
    · rw [if_neg hclear, if_neg hclear]
      exact ⟨rfl, fun off hc => by simp at hc, fun _ => { he with firstOff := hoff.symm }⟩
  rcases hv : x.v with _ | _ | _
  · exact hstepOff (by simp [holds, hv]) d h
  · exact hstepOff (by simp [holds, hv]) _ { h with }
  · have hx : holds x = true := by simp [holds, hv]
    rw [hx] at hoff
    rw [clearAt_concat, hx]
    exact ⟨rfl, fun off hc => by simp at hc, fun _ => { h with firstOff := hoff.symm }⟩

/-! ### Over a trace -/

variable {history : List Tick} {n : Nat}

theorem since_self (history : List Tick) (n : Nat) : since history n n = [] :=
  drop_eq_nil_of_le (length_take_le n history)

theorem take_concat (hx : history[n]? = some x) : history.take (n + 1) = history.take n ++ [x] := by
  rw [take_add_one, hx]
  rfl

theorem since_concat {base : Nat} (hbase : base ≤ n) (hx : history[n]? = some x) :
    since history base (n + 1) = since history base n ++ [x] := by
  have hn := (List.getElem?_eq_some_iff.mp hx).1
  rw [since, take_concat hx, drop_append_of_le_length, since]
  rw [length_take]
  omega

theorem InOrder.since (h : InOrder history) (base n : Nat) : InOrder (since history base n) :=
  h.sublist ((drop_sublist _ _).trans (take_sublist _ _))

/-- The tick the phase began at. -/
def Phase.begin : Phase → Nat
  | .off base => base
  | .on _ onset => onset

theorem begin_le (scope : Scope) (p : DebounceParams) (history : List Tick) (n : Nat) :
    (phaseAt scope p history n).begin ≤ n := by
  induction n with
  | zero => exact le_rfl
  | succ n ih =>
    rw [phaseAt]
    cases hphase : phaseAt scope p history n with
    | off base =>
      rw [hphase] at ih
      dsimp only
      split
      · exact Nat.le_succ n
      · exact Nat.le_succ_of_le ih
    | on =>
      rw [hphase] at ih
      dsimp only
      split
      · exact le_rfl
      · exact Nat.le_succ_of_le ih

/-- The debouncer after the first ticks of the trace. -/
def after (p : DebounceParams) (history : List Tick) (n : Nat) : Debouncer p :=
  (history.take n).foldl (fun d x => (d.step x.t x.v x.score).1) (.new p)

theorem after_succ (p : DebounceParams) (hx : history[n]? = some x) :
    after p history (n + 1) = ((after p history n).step x.t x.v x.score).1 := by
  rw [after, take_concat hx, foldl_append]
  rfl

/-- The debouncer is in the phase after the first `n` ticks. -/
def Follows (d : Debouncer p) (history : List Tick) (n : Nat) : Phase → Prop
  | .off base => ∀ t, (∀ x ∈ history.take n, x.t ≤ t) → Waits d.settled (since history base n) t
  | .on start onset => Lasts d start (since history onset n)

theorem Waits.fed (h : Waits d ticks t) (t' : ℚ) : Waits (d.fed t') ticks t :=
  ⟨h.active, h.pendingReset, h.run.imp id fun ⟨hl, hmem, since, hsince, hb⟩ =>
    ⟨hl, hmem, since, hsince, hb.runStart, hb.runTrue, hb.win⟩⟩

theorem Lasts.fed (h : Lasts d start ticks) (t : ℚ) : Lasts (d.fed t) start ticks :=
  { h with }

theorem settled_of_pendingReset (h : d.pendingReset = false) : d.settled = d := by
  rw [Debouncer.settled, h]
  rfl

theorem Follows.step (htrace : InOrder history) (hx : history[n]? = some x)
    (h : Follows d history n (phaseAt .run p history n)) :
    (d.step x.t x.v x.score).2 = eventAt .run p history n ∧
      Follows (d.step x.t x.v x.score).1 history (n + 1) (phaseAt .run p history (n + 1)) := by
  have hbegin := begin_le .run p history n
  have hlate : ∀ y ∈ history.take n, y.t ≤ x.t := fun y hy => by
    have hord : InOrder (history.take (n + 1)) := htrace.sublist (take_sublist _ _)
    rw [take_concat hx] at hord
    exact hord.concat_le hy
  have hlast : ∀ t, (∀ y ∈ history.take (n + 1), y.t ≤ t) → x.t ≤ t := fun t ht =>
    ht x (by rw [take_concat hx]; simp)
  rw [phaseAt, eventAt]
  cases hphase : phaseAt .run p history n with
  | off base =>
    rw [hphase] at h hbegin
    have hw := (h x.t hlate).fed x.t
    have hord := htrace.since base (n + 1)
    have hstep : d.step x.t x.v x.score = (d.settled.fed x.t).stepIdle x.t x.v x.score :=
      if_neg (by simp [hw.active])
    have hconcat : DebounceRule.since history base (n + 1) = DebounceRule.since history base n ++ [x] :=
      since_concat hbegin hx
    rw [hstep]
    dsimp only
    rw [hconcat] at hord ⊢
    cases hon : holds x with
    | false =>
      obtain ⟨hev, hw'⟩ := hw.stepIdle_off hon hord
      rw [onsetAt_off hon]
      refine ⟨hev, fun t ht => ?_⟩
      rw [settled_of_pendingReset hw'.pendingReset, hconcat]
      exact hw'.mono (hlast t ht)
    | true =>
      obtain ⟨hev, hlasts, hw'⟩ := hw.stepIdle_on hon hord (history.take (n + 1))
      refine ⟨hev, ?_⟩
      cases honset : onsetAt .run p (history.take (n + 1)) (DebounceRule.since history base n ++ [x]) with
      | some start =>
        have := hlasts start honset
        rw [Follows, since_concat le_rfl hx, since_self]
        exact this
      | none =>
        intro t ht
        have hw' := hw' honset
        rw [settled_of_pendingReset hw'.pendingReset, hconcat]
        exact hw'.mono (hlast t ht)
  | on start onset =>
    rw [hphase] at h hbegin
    have hset : d.settled = d := settled_of_pendingReset h.pendingReset
    have hstep : d.step x.t x.v x.score = (d.fed x.t).stepActive x.t x.v x.score := by
      rw [Debouncer.step, hset]
      exact if_pos h.active
    have hconcat : DebounceRule.since history onset (n + 1) = DebounceRule.since history onset n ++ [x] :=
      since_concat hbegin hx
    obtain ⟨hev, hclear, hgo⟩ := (h.fed x.t).stepActive x
    rw [hstep]
    dsimp only
    rw [hconcat]
    refine ⟨hev, ?_⟩
    cases hoff : clearAt p (DebounceRule.since history onset n ++ [x]) with
    | some off =>
      intro t ht
      rw [since_self]
      exact hclear off hoff t
    | none =>
      rw [Follows, hconcat]
      exact hgo hoff

theorem after_follows (hhistory : InOrder history) (hn : n ≤ history.length) :
    Follows (after p history n) history n (phaseAt .run p history n) := by
  induction n with
  | zero => exact fun t _ => Waits.new t
  | succ n ih =>
    have hx : history[n]? = some history[n] := List.getElem?_eq_getElem hn
    rw [after_succ p hx]
    exact ((ih (Nat.le_of_succ_le hn)).step hhistory hx).2

/-- What is reported at tick `n`. -/
def reported (p : DebounceParams) (history : List Tick) (n : Nat) : Option DebounceEvent :=
  history[n]?.bind fun x => ((after p history n).step x.t x.v x.score).2

theorem reported_eq (hhistory : InOrder history) (hn : n < history.length) :
    reported p history n = eventAt .run p history n := by
  have hx : history[n]? = some history[n] := List.getElem?_eq_getElem hn
  rw [reported, hx]
  exact ((after_follows hhistory hn.le).step hhistory hx).1

/-- The condition is on, and since when it holds. -/
def Phase.onSince : Phase → Option ℚ
  | .off _ => none
  | .on start _ => some start

/-- The condition the debouncer reports as on, with the time it began. -/
def onSince (d : Debouncer p) : Option ℚ := if d.active then d.runStart else none

theorem onSince_after (hhistory : InOrder history) (hn : n ≤ history.length) :
    onSince (after p history n) = (phaseAt .run p history n).onSince := by
  have h := after_follows (p := p) hhistory hn
  cases hphase : phaseAt .run p history n with
  | off base =>
    rw [hphase] at h
    have hmax : ∃ t, ∀ x ∈ history.take n, x.t ≤ t := by
      rcases eq_nil_or_concat (history.take n) with hnil | ⟨pre, x, hx⟩
      · exact ⟨0, by simp [hnil]⟩
      · refine ⟨x.t, fun y hy => ?_⟩
        have hord : InOrder (history.take n) := hhistory.sublist (take_sublist _ _)
        rw [hx, concat_eq_append] at hord hy
        rcases mem_append.mp hy with hy | hy
        · exact hord.concat_le hy
        · rw [mem_singleton.mp hy]
    obtain ⟨t, ht⟩ := hmax
    rw [onSince, ← Debouncer.active_settled, (h t ht).active]
    rfl
  | on =>
    rw [hphase] at h
    rw [onSince, h.active, h.runStart]
    rfl

/-! ### The share over all ticks -/

theorem onset_trace_iff {pre run : List Tick} (hrun : run.head?.map (·.t) = some start)
    (h : (pre ++ run).Pairwise (·.t < ·.t)) :
    Onset p start run (Scope.trace.ticks run (pre ++ run)) x ↔
    Onset p start run (Scope.run.ticks run (pre ++ run)) x := by
  have hsame : p.onsetMs ≤ x.t - start →
      (assessed (pre ++ run)).filter (x.t - p.onsetMs ≤ ·.1) =
      (assessed run).filter (x.t - p.onsetMs ≤ ·.1) := by
    intro hlong
    obtain ⟨first, hfirst, rfl⟩ := Option.map_eq_some_iff.mp hrun
    have hmem : first ∈ run := mem_of_head? hfirst
    have hnil : (assessed pre).filter (x.t - p.onsetMs ≤ ·.1) = [] := by
      rw [filter_eq_nil_iff]
      intro y hy
      obtain ⟨z, hz, hzy⟩ := mem_filterMap.mp hy
      obtain ⟨v, -, rfl⟩ := Option.map_eq_some_iff.mp hzy
      have hlt := (pairwise_append.mp h).2.2 z hz first hmem
      simp only [decide_eq_true_eq, not_le]
      linarith
    rw [assessed, filterMap_append, filter_append]
    exact (congrArg (· ++ _) hnil).trans (nil_append _)
  constructor
  · intro ho
    exact { ho with mostly := by rw [Scope.ticks, ← hsame ho.long]; exact ho.mostly }
  · intro ho
    exact { ho with mostly := by rw [Scope.ticks, hsame ho.long]; exact ho.mostly }

theorem onsetAt_trace (h : seen.Pairwise (·.t < ·.t)) (base : Nat) :
    onsetAt .trace p seen (seen.drop base) = onsetAt .run p seen (seen.drop base) := by
  rw [onsetAt, onsetAt]
  cases hhead : (runOf p.gapTolMs (seen.drop base)).head? with
  | none => rfl
  | some first =>
    cases hlast : (seen.drop base).getLast? with
    | none => rfl
    | some now =>
      obtain ⟨pre, hpre⟩ := (runOf_suffix p.gapTolMs (seen.drop base)).trans (drop_suffix base seen)
      have hiff := onset_trace_iff (p := p) (x := now) (congrArg (Option.map (·.t)) hhead) (hpre ▸ h)
      rw [hpre] at hiff
      simp only [hiff]

theorem phaseAt_trace (h : history.Pairwise (·.t < ·.t)) (n : Nat) :
    phaseAt .trace p history n = phaseAt .run p history n := by
  induction n with
  | zero => rfl
  | succ n ih =>
    rw [phaseAt, phaseAt, ih]
    cases phaseAt .run p history n with
    | off base =>
      dsimp only
      rw [DebounceRule.since, onsetAt_trace (h.sublist (take_sublist _ _))]
    | on => rfl

theorem eventAt_trace (h : history.Pairwise (·.t < ·.t)) (n : Nat) :
    eventAt .trace p history n = eventAt .run p history n := by
  rw [eventAt, eventAt, phaseAt_trace h]
  cases phaseAt .run p history n with
  | off base =>
    dsimp only
    rw [DebounceRule.since, onsetAt_trace (h.sublist (take_sublist _ _))]
  | on => rfl

/-! ### The intervals -/

/-- The events in the order they are reported. -/
def reports (p : DebounceParams) (history : List Tick) (n : Nat) : List DebounceEvent :=
  (List.range n).filterMap (reported p history)

def timeOf : DebounceEvent → ℚ
  | .onset startedAt => startedAt
  | .clear endedAt => endedAt

/-- An onset turns the condition on, an end turns it off, and there is no other event. -/
def turn : Bool → DebounceEvent → Option Bool
  | false, .onset _ => some true
  | true, .clear _ => some false
  | _, _ => none

/-- The intervals over which the condition is reported; the last one may be open. -/
def onIntervals : List DebounceEvent → List (ℚ × Option ℚ)
  | .onset startedAt :: .clear endedAt :: events => (startedAt, some endedAt) :: onIntervals events
  | .onset startedAt :: events => (startedAt, none) :: onIntervals events
  | .clear _ :: events => onIntervals events
  | [] => []

/-- One interval ends before the next one starts. -/
def Precedes (i j : ℚ × Option ℚ) : Prop := ∃ endedAt ∈ i.2, endedAt ≤ j.1

theorem mem_onIntervals {events : List DebounceEvent} {i : ℚ × Option ℚ}
    (h : i ∈ onIntervals events) : i.1 ∈ events.map timeOf := by
  induction events using onIntervals.induct with
  | case1 startedAt endedAt events ih =>
    rcases mem_cons.mp h with rfl | h
    · simp [timeOf]
    · have := ih h
      simp [this]
  | case2 startedAt events hno ih =>
    rw [onIntervals] at h
    · rcases mem_cons.mp h with rfl | h
      · simp [timeOf]
      · have := ih h
        simp [this]
    · exact hno
  | case3 endedAt events ih =>
    have := ih h
    simp [this]
  | case4 => simp [onIntervals] at h

theorem onIntervals_inOrder {events : List DebounceEvent} {b : Bool}
    (hturn : events.foldlM turn false = some b) (htimes : (events.map timeOf).Pairwise (· ≤ ·)) :
    (onIntervals events).Pairwise Precedes ∧ ∀ i ∈ onIntervals events, ∀ endedAt ∈ i.2,
    i.1 ≤ endedAt := by
  induction events using onIntervals.induct with
  | case1 startedAt endedAt events ih =>
    rw [map_cons, map_cons, pairwise_cons, pairwise_cons] at htimes
    obtain ⟨hstart, hend, htimes⟩ := htimes
    obtain ⟨hpair, hlong⟩ := ih hturn htimes
    refine ⟨pairwise_cons.mpr ⟨fun j hj => ⟨endedAt, rfl, hend _ (mem_onIntervals hj)⟩, hpair⟩, ?_⟩
    intro i hi e he
    rcases mem_cons.mp hi with rfl | hi
    · obtain rfl : endedAt = e := Option.some_inj.mp he
      exact hstart _ (mem_cons_self ..)
    · exact hlong i hi e he
  | case2 startedAt events hno ih =>
    cases events with
    | nil => simp [onIntervals]
    | cons e events =>
      cases e with
      | onset t => simp [foldlM_cons, turn] at hturn
      | clear t => exact absurd rfl (hno t events)
  | case3 => simp [foldlM_cons, turn] at hturn
  | case4 => simp [onIntervals]

theorem mem_of_onsetAt
    (h : onsetAt scope p seen ticks = some start) : ∃ x ∈ ticks, x.t = start := by
  rw [onsetAt] at h
  cases hhead : (runOf p.gapTolMs ticks).head? with
  | none => simp [hhead] at h
  | some first =>
    have hmem := (runOf_suffix p.gapTolMs ticks).subset (mem_of_head? hhead)
    cases hlast : ticks.getLast? with
    | none => simp [hhead, hlast] at h
    | some now =>
      simp only [hhead, hlast] at h
      split at h
      · exact ⟨first, hmem, Option.some_inj.mp h⟩
      · cases h

theorem mem_of_clearAt {off : ℚ} (h : clearAt p ticks = some off) : ∃ x ∈ ticks, x.t = off := by
  rw [clearAt] at h
  cases hoff : offSince ticks with
  | none => simp [hoff] at h
  | some t =>
    cases hlast : ticks.getLast? with
    | none => simp [hoff, hlast] at h
    | some now =>
      simp only [hoff, hlast] at h
      split at h
      · obtain rfl := Option.some_inj.mp h
        obtain ⟨x, hx, rfl⟩ := Option.map_eq_some_iff.mp hoff
        exact ⟨x, (rtakeWhile_suffix _ _).subset (mem_of_head? hx), rfl⟩
      · cases h

theorem InOrder.take_le_drop (h : InOrder history) {x y : Tick} (hx : x ∈ history.take (n + 1))
    (hy : y ∈ history.drop n) : x.t ≤ y.t := by
  rw [← take_append_drop n history] at h
  obtain ⟨-, hdrop, hlt⟩ := pairwise_append.mp h
  rcases mem_take_iff_getElem.mp hx with ⟨i, hi, rfl⟩
  rcases Nat.lt_or_ge i n with hin | hin
  · exact hlt _ (mem_take_iff_getElem.mpr ⟨i, by omega, rfl⟩) y hy
  · obtain ⟨j, hj, rfl⟩ := mem_drop_iff_getElem.mp hy
    obtain rfl : i = n := by omega
    rcases Nat.eq_zero_or_pos j with rfl | hpos
    · exact le_rfl
    · have := pairwise_iff_getElem.mp hdrop 0 j (by rw [length_drop]; omega) (by rw [length_drop]; omega) hpos
      simpa using this

theorem mem_drop_of_since {base : Nat} (h : x ∈ DebounceRule.since history base n) :
    x ∈ history.drop base ∧ x ∈ history.take n := by
  refine ⟨?_, mem_of_mem_drop h⟩
  rw [DebounceRule.since, drop_take] at h
  exact mem_of_mem_take h

/-- The events so far take turns, in order, and none is later than a tick of the phase. -/
structure ReportsInv (p : DebounceParams) (history : List Tick) (n : Nat) : Prop where
  turns : (reports p history n).foldlM turn false = some (phaseAt .run p history n).onSince.isSome
  inOrder : ((reports p history n).map timeOf).Pairwise (· ≤ ·)
  past : ∀ e ∈ reports p history n, ∀ x ∈ history.drop (phaseAt .run p history n).begin,
    timeOf e ≤ x.t

theorem reports_succ (p : DebounceParams) (history : List Tick) (n : Nat) :
    reports p history (n + 1) = reports p history n ++ (reported p history n).toList := by
  rw [reports, range_succ, reports]
  cases h : reported p history n <;> simp [h]

theorem ReportsInv.report {phase : Phase} {e : DebounceEvent} (hhistory : InOrder history)
    (h : ReportsInv p history n) (hphase : phaseAt .run p history (n + 1) = phase)
    (hev : reported p history n = some e)
    (hturn : turn (phaseAt .run p history n).onSince.isSome e = some phase.onSince.isSome)
    (hx : x ∈ DebounceRule.since history (phaseAt .run p history n).begin (n + 1))
    (hxe : x.t = timeOf e) (hbegin : n ≤ phase.begin) : ReportsInv p history (n + 1) := by
  obtain ⟨hdrop, htake⟩ := mem_drop_of_since hx
  have hold := begin_le .run p history n
  refine ⟨?_, ?_, ?_⟩
  · rw [reports_succ, hev, foldlM_append, h.turns, hphase]
    simpa [foldlM_cons] using hturn
  · rw [reports_succ, hev, map_append, pairwise_append]
    refine ⟨h.inOrder, pairwise_singleton _ _, ?_⟩
    intro a ha b hb
    obtain ⟨e', he', rfl⟩ := mem_map.mp ha
    obtain rfl : b = timeOf e := by simpa using hb
    rw [← hxe]
    exact h.past e' he' x hdrop
  · intro e' he' y hy
    rw [hphase] at hy
    have hyn : y ∈ history.drop n := by
      obtain ⟨k, hk⟩ := Nat.exists_eq_add_of_le hbegin
      rw [hk, ← drop_drop] at hy
      exact mem_of_mem_drop hy
    rw [reports_succ, hev] at he'
    rcases mem_append.mp he' with he' | he'
    · obtain ⟨k, hk⟩ := Nat.exists_eq_add_of_le hold
      rw [hk, ← drop_drop] at hyn
      exact h.past e' he' y (mem_of_mem_drop hyn)
    · obtain rfl : e' = e := by simpa using he'
      rw [← hxe]
      exact hhistory.take_le_drop htake hyn

theorem ReportsInv.quiet (h : ReportsInv p history n) (hev : reported p history n = none)
    (hphase : phaseAt .run p history (n + 1) = phaseAt .run p history n) :
    ReportsInv p history (n + 1) := by
  have hsame : reports p history (n + 1) = reports p history n := by
    rw [reports_succ, hev]
    exact append_nil _
  exact ⟨by rw [hsame, hphase]; exact h.turns, by rw [hsame]; exact h.inOrder,
    by rw [hsame, hphase]; exact h.past⟩

theorem ReportsInv.step (hhistory : InOrder history) (hn : n < history.length)
    (h : ReportsInv p history n) : ReportsInv p history (n + 1) := by
  have hrep := reported_eq (p := p) hhistory hn
  rw [eventAt] at hrep
  cases hphase : phaseAt .run p history n with
  | off base =>
    rw [hphase] at hrep
    dsimp only at hrep
    cases honset : onsetAt .run p (history.take (n + 1)) (DebounceRule.since history base (n + 1)) with
    | none =>
      rw [honset] at hrep
      have hnext : phaseAt .run p history (n + 1) = .off base := by
        rw [phaseAt, hphase]
        dsimp only
        rw [honset]
      exact h.quiet hrep (hnext.trans hphase.symm)
    | some start =>
      rw [honset] at hrep
      have hnext : phaseAt .run p history (n + 1) = .on start n := by
        rw [phaseAt, hphase]
        dsimp only
        rw [honset]
      obtain ⟨x, hx, hxs⟩ := mem_of_onsetAt honset
      refine h.report hhistory hnext hrep ?_ (by rw [hphase]; exact hx) hxs le_rfl
      rw [hphase]
      rfl
  | on start onset =>
    rw [hphase] at hrep
    dsimp only at hrep
    cases hclear : clearAt p (DebounceRule.since history onset (n + 1)) with
    | none =>
      rw [hclear] at hrep
      have hnext : phaseAt .run p history (n + 1) = .on start onset := by
        rw [phaseAt, hphase]
        dsimp only
        rw [hclear]
      exact h.quiet hrep (hnext.trans hphase.symm)
    | some off =>
      rw [hclear] at hrep
      have hnext : phaseAt .run p history (n + 1) = .off (n + 1) := by
        rw [phaseAt, hphase]
        dsimp only
        rw [hclear]
      obtain ⟨x, hx, hxs⟩ := mem_of_clearAt hclear
      refine h.report hhistory hnext hrep ?_ (by rw [hphase]; exact hx) hxs (Nat.le_succ n)
      rw [hphase]
      rfl

theorem reportsInv (hhistory : InOrder history) (hn : n ≤ history.length) :
    ReportsInv p history n := by
  induction n with
  | zero => exact ⟨rfl, List.Pairwise.nil, by simp [reports]⟩
  | succ n ih => exact (ih (Nat.le_of_succ_le hn)).step hhistory hn

/-! ### The window -/

inductive WindowOp where
  | push (t : ℚ) (v : Bool)
  | prune (minT : ℚ)
  | clear

def WindowOp.apply (w : TickWindow) : WindowOp → TickWindow
  | .push t v => w.push t v
  | .prune minT => w.prune minT
  | .clear => w.clear

/-- The same on a plain list of the ticks in the window. -/
def WindowOp.applyList (ticks : List (ℚ × Bool)) : WindowOp → List (ℚ × Bool)
  | .push t v => ticks ++ [(t, v)]
  | .prune minT => ticks.filter (minT ≤ ·.1)
  | .clear => []

/-- The times of the ticks that are pushed. -/
def pushed (ops : List WindowOp) : List ℚ :=
  ops.filterMap fun
    | .push t _ => some t
    | _ => none

theorem ticks_foldl_apply (ops : List WindowOp) (w : TickWindow)
    (h : (w.ticks.map (·.1) ++ pushed ops).Pairwise (· ≤ ·)) :
    (ops.foldl WindowOp.apply w).ticks = ops.foldl WindowOp.applyList w.ticks := by
  induction ops generalizing w with
  | nil => rfl
  | cons op ops ih =>
    rw [foldl_cons, foldl_cons]
    cases op with
    | push t v =>
      have hticks : (w.push t v).ticks = w.ticks ++ [(t, v)] := w.ticks_push t v
      rw [WindowOp.apply, ih _ ?_, hticks, WindowOp.applyList]
      rw [hticks, map_append, append_assoc]
      exact h
    | prune minT =>
      have hticks : (w.prune minT).ticks = w.ticks.filter (minT ≤ ·.1) := by
        rw [w.ticks_prune]
        exact dropWhile_eq_filter (pairwise_map.mp (pairwise_append.mp h).1) minT
      rw [WindowOp.apply, ih _ ?_, hticks, WindowOp.applyList]
      rw [hticks]
      exact h.sublist ((filter_sublist.map _).append (List.Sublist.refl _))
    | clear =>
      rw [WindowOp.apply, ih _ ?_, WindowOp.applyList]
      rw [w.ticks_clear]
      exact h.sublist (sublist_append_right _ _)

/-! ### The debouncer reports what the rule says -/

theorem debouncer_reports_rule (p : DebounceParams) (history : List Tick) (h : InOrder history) :
    (∀ n < history.length, reported p history n = eventAt .run p history n) ∧
      (∀ n ≤ history.length, onSince (after p history n) = (phaseAt .run p history n).onSince) ∧
      (history.Pairwise (·.t < ·.t) → ∀ n, phaseAt .run p history n = phaseAt .trace p history n ∧
        eventAt .run p history n = eventAt .trace p history n) ∧
      (reports p history history.length).foldlM turn false ≠ none ∧
      (onIntervals (reports p history history.length)).Pairwise Precedes ∧
      (∀ i ∈ onIntervals (reports p history history.length), ∀ endedAt ∈ i.2, i.1 ≤ endedAt) ∧
      ∀ (capacity : Nat) (hc : 0 < capacity) (ops : List WindowOp), (pushed ops).Pairwise (· ≤ ·) →
        let w := ops.foldl WindowOp.apply (.new capacity hc)
        let ticks := ops.foldl WindowOp.applyList []
        w.size = ticks.length ∧ w.trueCount = ticks.countP (·.2) ∧ w.fraction = share ticks := by
  have hinv := reportsInv (p := p) h le_rfl
  obtain ⟨hpair, hlong⟩ := onIntervals_inOrder hinv.turns hinv.inOrder
  refine ⟨fun n hn => reported_eq h hn, fun n hn => onSince_after h hn,
    fun hlt n => ⟨(phaseAt_trace hlt n).symm, (eventAt_trace hlt n).symm⟩, ?_, hpair, hlong, ?_⟩
  · rw [hinv.turns]
    exact Option.some_ne_none _
  · intro capacity hc ops hops
    have hticks := ticks_foldl_apply ops (.new capacity hc) hops
    rw [TickWindow.ticks_new] at hticks
    rw [← hticks]
    exact ⟨(TickWindow.length_ticks _).symm, TickWindow.trueCount_eq _, TickWindow.fraction_eq _⟩

/-- On from the third tick to the fifth. -/
def shortTrace : List Tick :=
  [⟨0, some true, some 1⟩, ⟨500, some true, some 1⟩, ⟨1000, some true, some 1⟩,
    ⟨1100, some false, some 1⟩,
    ⟨1700, none, some 1⟩]

/-- Three ticks in a window of one slot, and the first of them dropped again. -/
def overflowOps : List WindowOp := [.push 0 true, .push 500 false, .push 1000 true, .prune 500]

theorem shortTrace_reports :
    reports ⟨1000, 500, 7 / 10, 600, 3⟩ shortTrace 5 = [.onset 0, .clear 1100] ∧
      eventAt .trace ⟨1000, 500, 7 / 10, 600, 3⟩ shortTrace 4 = some (.clear 1100) ∧
      (overflowOps.foldl WindowOp.apply (.new 1 (by decide))).fraction = 1 / 2 := by
  have hordered : InOrder shortTrace := show Pairwise _ _ by decide +kernel
  have h := debouncer_reports_rule ⟨1000, 500, 7 / 10, 600, 3⟩ shortTrace hordered
  refine ⟨by decide +kernel, ?_, ?_⟩
  · rw [← (h.2.2.1 (by decide +kernel) 4).2, ← h.1 4 (by decide)]
    decide +kernel
  · rw [(h.2.2.2.2.2.2 1 (by decide) overflowOps (by decide +kernel)).2.2]
    decide +kernel

/-- One tick without the condition and one with it at the same time, and the condition goes on. -/
def edgeTrace : List Tick := [⟨0, some false, some 1⟩, ⟨0, some true, some 1⟩,
    ⟨1000, some true, some 1⟩]

/-- Over all ticks of the last `onsetMs` the share is two thirds, over those of the run it is all of
them. -/
theorem edgeTrace_reported :
    ¬ ∀ (p : DebounceParams) (history : List Tick), InOrder history → ∀ n < history.length,
      reported p history n = eventAt .trace p history n := by
  intro h
  have := h ⟨1000, 500, 1, 2000, 2⟩ edgeTrace (show List.Pairwise _ _ by decide +kernel) 2 (by decide)
  revert this
  decide +kernel

end DebounceRule

end SmartProctoring
