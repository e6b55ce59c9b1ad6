import SmartProctoring.Detection.People

/-!
# When an episode of several people ends

The episode is to end when the last of its two paths does.  An observer beside the engine writes
down when each path ended and at which ticks it was seen, since the episode began.  Where both paths
clear, the end that is reported is the last of these times.  A flush takes the time at which the
faces path was first off, else that of the persons path, whether or not the other path went on:
`FlushesInOrder` says exactly when that is the last one.
-/

set_option autoImplicit false

namespace SmartProctoring

open List

/-- What a path did since the episode began. -/
structure PathTrack where
  /-- When it stopped, each time it did. -/
  ends : List ℚ
  /-- The ticks at which it was on and seen. -/
  on : List ℚ

namespace PathTrack

def empty : PathTrack := ⟨[], []⟩

def tick (tr : PathTrack) (seen : Bool) (t : ℚ) (ev : Option DebounceEvent) : PathTrack where
  ends :=
    match ev with
    | some (.clear endedAt) => tr.ends ++ [endedAt]
    | _ => tr.ends
  on := if seen then tr.on ++ [t] else tr.on

/-- At a flush a path that is on has been so until it was first off, if it was. -/
def flush {p : DebounceParams} (tr : PathTrack) (d : Debouncer p) (t : ℚ) : PathTrack :=
  if d.active then { tr with ends := tr.ends ++ [d.firstOff.getD t] } else tr

end PathTrack

structure EpisodeTrack where
  faces : PathTrack
  persons : PathTrack

namespace EpisodeTrack

variable {policy : PeoplePolicy}

def empty : EpisodeTrack := ⟨.empty, .empty⟩

/-- What is written down at a tick. -/
def tick (tr : EpisodeTrack) (s : PeopleState policy) (ctx : PeopleContext) : EpisodeTrack where
  faces := tr.faces.tick ((s.facesStep ctx).1.active &&
    decide (ctx.vf = some true)) ctx.t (s.facesStep ctx).2
  persons := tr.persons.tick ((s.personsStep ctx).1.active &&
    (ctx.objectsRan && decide (ctx.vp = some true))) ctx.t
    (s.personsStep ctx).2

def flush (tr : EpisodeTrack) (s : PeopleState policy) (t : ℚ) : EpisodeTrack where
  faces := tr.faces.flush s.faces t
  persons := tr.persons.flush s.persons t

/-- Between episodes there is nothing to write down. -/
def since (tr : EpisodeTrack) (s : PeopleState policy) : EpisodeTrack :=
  if s.isOpen then tr else empty

/-- The observer beside the engine, before the engine acts. -/
def after (tr : EpisodeTrack) (e : PeopleEngine policy) : PeopleAction → EpisodeTrack
  | .ingest ctx =>
    if e.Accepts ctx.t ∧ policy.enabled = true then (tr.since e.people).tick e.people ctx
      else tr.since e.people
  | .flush t _ =>
    match e.flushTime t with
    | some t => (tr.since e.people).flush e.people t
    | none => tr.since e.people

/-- The times at which one of the paths stopped. -/
def ends (tr : EpisodeTrack) : List ℚ := tr.faces.ends ++ tr.persons.ends

/-- The ticks at which one of the paths was on and seen. -/
def on (tr : EpisodeTrack) : List ℚ := tr.faces.on ++ tr.persons.on

/-- The last time at which one of the paths was on: nothing was on later. -/
def EndsAt (tr : EpisodeTrack) (endedAt : ℚ) : Prop :=
  endedAt ∈ tr.ends ∧ (∀ x ∈ tr.ends, x ≤ endedAt) ∧ ∀ x ∈ tr.on, x ≤ endedAt

end EpisodeTrack

/-- The engine and the observer after some actions. -/
def watchPeople (policy : PeoplePolicy) (cfg : BookConfig) (actions : List PeopleAction) :
    PeopleEngine policy × EpisodeTrack :=
  actions.foldl (fun (e, tr) a => ((e.step a).1, tr.after e a)) (.new policy cfg, .empty)

/-- The updates that close an episode. -/
def closes (calls : List HostCall) : List (EpisodeUpdate PeopleDetails) :=
  calls.filterMap fun
    | .episode u => if u.phase = .close then some u else none
    | _ => none

variable {policy : PeoplePolicy}

/-- The off time that a flush takes is not before the end of the other path. -/
def PeopleState.FlushesInOrder (s : PeopleState policy) (t : ℚ) : Prop :=
  match s.faces.firstOff, s.persons.firstOff with
  | none, none => True
  | some off, _ => if s.persons.active then s.persons.firstOff.getD t ≤ off else ∀ e ∈ s.personEnd, e ≤ off
  | none, some off => if s.faces.active then t ≤ off else ∀ e ∈ s.faceEnd, e ≤ off

/-- Whether the action gives an open episode its true end: a tick does, a flush when the times are
in order. -/
def PeopleEngine.ClosesInOrder (e : PeopleEngine policy) : PeopleAction → Prop
  | .ingest _ => True
  | .flush t _ => ∀ t' ∈ e.flushTime t, e.people.FlushesInOrder t'

/-! ## One path -/

variable {p : DebounceParams} {d : Debouncer p} {ended : Option ℚ} {tr : PathTrack}
    {openedAt now t : ℚ}

/-- A path of an episode that was opened at `openedAt`: what the detector notes as its end, and what
was written down. -/
structure PathInv (d : Debouncer p) (ended : Option ℚ) (tr : PathTrack) (openedAt : ℚ) : Prop where
  on : d.active = true → ∃ l ∈ d.lastTrue, openedAt ≤ l ∧ (∀ e ∈ tr.ends, e ≤ l) ∧
    ∀ x ∈ tr.on, x ≤ l
  off : d.active = false → (tr = .empty ∧ ∀ e ∈ ended, e ≤ openedAt) ∨
    ∃ e, ended = some e ∧ e ∈ tr.ends ∧ openedAt ≤ e ∧ (∀ e' ∈ tr.ends, e' ≤ e) ∧ ∀ x ∈ tr.on, x ≤ e

/-- What the detector notes as the end of a path. -/
def endedAfter (ended : Option ℚ) : Option DebounceEvent → Option ℚ
  | some (.onset _) => none
  | some (.clear endedAt) => some endedAt
  | none => ended

/-- What was written down is past. -/
theorem PathInv.past (h : PathInv d ended tr openedAt) (hin : d.InTime now)
    (hended : ∀ e ∈ ended, e ≤ now) : (∀ e ∈ tr.ends, e ≤ now) ∧ ∀ x ∈ tr.on, x ≤ now := by
  cases ha : d.active with
  | true =>
    obtain ⟨l, hl, -, hends, hon⟩ := h.on ha
    obtain ⟨s, hs⟩ := Option.isSome_iff_exists.mp (hin.active ha).2.1
    obtain ⟨-, l', hl', -, hln, -⟩ := hin.run s hs
    obtain rfl := Option.mem_unique hl hl'
    exact ⟨fun e he => (hends e he).trans hln, fun x hx => (hon x hx).trans hln⟩
  | false =>
    rcases h.off ha with ⟨rfl, -⟩ | ⟨e, he, -, -, hends, hon⟩
    · simp [PathTrack.empty]
    · have hen := hended e he
      exact ⟨fun e' he' => (hends e' he').trans hen, fun x hx => (hon x hx).trans hen⟩

variable {d' : Debouncer p}

theorem PathInv.waits (h : PathInv d ended tr openedAt) (hoff : d.active = false)
    (hoff' : d'.active = false) : PathInv d' ended tr openedAt :=
  ⟨fun ha => absurd (hoff'.symm.trans ha) (by decide), fun _ => h.off hoff⟩

variable {e : ℚ}

theorem PathInv.clear (h : PathInv d ended tr openedAt) (hon : d.active = true)
    (hoff' : d'.active = false) (hle : ∀ l ∈ d.lastTrue, l ≤ e) :
    PathInv d' (some e) { tr with ends := tr.ends ++ [e] } openedAt := by
  obtain ⟨l, hl, hopen, hends, hons⟩ := h.on hon
  have hle := hle l hl
  refine ⟨fun ha => absurd (hoff'.symm.trans ha) (by decide),
    fun _ => .inr ⟨e, rfl, by simp, hopen.trans hle, ?_, ?_⟩⟩
  · intro e' he'
    rcases mem_append.mp he' with he' | he'
    · exact (hends e' he').trans hle
    · exact (mem_singleton.mp he').le
  · exact fun x hx => (hons x hx).trans hle

variable {ev : Option DebounceEvent} {seen : Bool}

/-- One observation of a path. -/
theorem PathInv.stepped {v : Option Bool}
    (h : PathInv d ended tr openedAt) (hin : d.InTime now) (hended : ∀ e ∈ ended, e ≤ now)
    (ht : now < t)
    (hopen : openedAt ≤ t) (hstep : d.Stepped t v d' ev)
    (hseen : seen = (d'.active && decide (v = some true)))
    (hin' : d'.InTime t) : PathInv d' (endedAfter ended ev) (tr.tick seen t ev) openedAt := by
  obtain ⟨hends, hons⟩ := h.past hin hended
  have hupTo : ∀ x ∈ (if seen then tr.on ++ [t] else tr.on), x ≤ t := by
    intro x hx
    split at hx
    · rcases mem_append.mp hx with hx | hx
      · exact (hons x hx).trans ht.le
      · exact (mem_singleton.mp hx).le
    · exact (hons x hx).trans ht.le
  cases hstep with
  | waits hoff hoff' =>
    have hnot : seen = false := by rw [hseen, hoff']; rfl
    rw [hnot]
    exact h.waits hoff hoff'
  | onset hoff hon hv hlast =>
    refine ⟨fun _ => ⟨t, hlast, hopen, fun e he => (hends e he).trans ht.le, hupTo⟩, fun ha => ?_⟩
    exact absurd (hon.symm.trans ha) (by decide)
  | supported hon hon' hv hlast hfirst =>
    refine ⟨fun _ => ⟨t, hlast, hopen, fun e he => (hends e he).trans ht.le, hupTo⟩, fun ha => ?_⟩
    exact absurd (hon'.symm.trans ha) (by decide)
  | off hon hon' hv hlast hfirst =>
    have hnot : seen = false := by simp [hseen, hv]
    obtain ⟨l, hl, hrest⟩ := h.on hon
    rw [hnot]
    exact ⟨fun _ => ⟨l, hlast ▸ hl, hrest⟩, fun ha => absurd (hon'.symm.trans ha) (by decide)⟩
  | clear hon hoff' hv hlast hfirst =>
    have hnot : seen = false := by simp [hseen, hv]
    rw [hnot]
    refine h.clear hon hoff' fun l hl => ?_
    exact (hin'.off _ hfirst).2 l (hlast ▸ hl)

/-- What a step of a path comes to. -/
structure PathStepped (d d' : Debouncer p) (ended : Option ℚ) (tr : PathTrack) (seen : Bool)
    (ev : Option DebounceEvent) (openedAt t : ℚ) : Prop where
  inTime : d'.InTime t
  inv : PathInv d' (endedAfter ended ev) (tr.tick seen t ev) openedAt
  past : ∀ e ∈ endedAfter ended ev, e ≤ t
  starts : d.active = false → d'.active = true → ∃ start < t, ev = some (.onset start)
  stops : d.active = true → d'.active = false → tr.tick seen t ev ≠ .empty

theorem PathInv.step (h : PathInv d ended tr openedAt) (hin : d.InTime now)
    (hended : ∀ e ∈ ended, e ≤ now) (ht : now < t) (hopen : openedAt ≤ t) (hticks : 2 ≤ p.minTicks)
    (v : Option Bool)
    (score : Option ℚ) (hseen : seen = ((d.step t v score).1.active && decide (v = some true))) :
    PathStepped d (d.step t v score).1 ended tr seen (d.step t v score).2 openedAt t := by
  obtain ⟨hin', hstep⟩ := hin.step ht v score
  refine ⟨hin', h.stepped hin hended ht hopen hstep hseen hin', ?_, ?_, ?_⟩
  · have hold : ∀ e ∈ ended, e ≤ t := fun e he => (hended e he).trans ht.le
    generalize (d.step t v score).2 = ev at hstep
    cases hstep with
    | waits => exact hold
    | onset => simp [endedAfter]
    | supported | off => exact hold
    | clear _ _ _ _ hfirst =>
      intro e he
      obtain rfl := Option.some_inj.mp he
      exact (hin'.off _ hfirst).1
  · generalize (d.step t v score).2 = ev at hstep
    intro hoff hon
    cases hstep with
    | waits _ hoff' => exact absurd (hoff'.symm.trans hon) (by decide)
    | onset _ _ _ hlast _ hs =>
      -- a run with two ticks is not over at the time it began
      obtain ⟨-, l, hl, -, -, hlt⟩ := hin'.run _ hs
      obtain rfl := Option.mem_unique hl hlast
      have hmin := (hin'.active hon).2.2
      refine ⟨_, hlt ?_, rfl⟩
      exact_mod_cast lt_of_lt_of_le (by norm_num : (1 : ℚ) < 2) (hticks.trans hmin)
    | supported hon' | off hon' | clear hon' => exact absurd (hoff.symm.trans hon') (by decide)
  · generalize (d.step t v score).2 = ev at hstep
    intro hon hoff
    cases hstep with
    | waits hoff' | onset hoff' => exact absurd (hoff'.symm.trans hon) (by decide)
    | supported _ hon' | off _ hon' => exact absurd (hoff.symm.trans hon') (by decide)
    | clear => simp [PathTrack.tick, PathTrack.empty]

theorem fresh_of_stepped {v : Option Bool} {o : ℚ}
    (hstep : d.Stepped t v d' ev) (hoff : d'.active = false) (ho : o ∈ d'.firstOff) :
    endedAfter ended ev = some o ∧ o ∈ (tr.tick seen t ev).ends := by
  cases hstep with
  | waits _ _ hfirst => simp [hfirst] at ho
  | onset _ hon | supported _ hon | off _ hon => exact absurd (hoff.symm.trans hon) (by decide)
  | clear _ _ _ _ hfirst =>
    obtain rfl := Option.some_inj.mp (hfirst.symm.trans ho)
    exact ⟨rfl, by simp [PathTrack.tick]⟩

theorem PathInv.expire (h : PathInv d ended tr openedAt) (hin : d.InTime now)
    (hended : ∀ e ∈ ended, e ≤ now) (ht : now < t) (maxSilenceMs : ℚ) (hseen : seen = false) :
    PathStepped d (d.expire t maxSilenceMs).1 ended tr seen (d.expire t maxSilenceMs).2 openedAt t := by
  obtain ⟨hin', hsame | ⟨hon, hoff', e, hev, hen, hle⟩⟩ := hin.expire ht maxSilenceMs
  · rw [hsame, hseen]
    exact ⟨hin.mono ht.le, h, fun e he => (hended e he).trans ht.le,
      fun hoff hon => absurd (hoff.symm.trans hon) (by decide),
        fun hon hoff => absurd (hoff.symm.trans hon) (by decide)⟩
  · rw [hev, hseen]
    refine ⟨hin', h.clear hon hoff' hle, fun e' he' => ?_,
      fun hoff => absurd (hoff.symm.trans hon) (by decide),
      fun _ _ => by simp [PathTrack.tick, PathTrack.empty]⟩
    obtain rfl := Option.some_inj.mp he'
    exact hen.trans ht.le

/-! ## The detector -/

/-- What the detector notes as the start of a path. -/
def startAfter (started : Option ℚ) : Option DebounceEvent → Option ℚ
  | some (.onset start) => some start
  | _ => started

theorem PathStepped.started
    (h : PathStepped d d' ended tr seen ev openedAt t) (hoff : d.active = false)
    (started : Option ℚ) :
    (∀ x ∈ (if d'.active then (startAfter started ev).toList else []), x < t) ∧
      (d'.active = true → (if d'.active then (startAfter started ev).toList else []) ≠ []) := by
  cases hon : d'.active with
  | false => simp
  | true =>
    obtain ⟨start, hlt, rfl⟩ := h.starts hoff hon
    simpa [startAfter] using hlt

namespace PeopleState

variable (s : PeopleState policy) (ctx : PeopleContext)

theorem noteFaces_eq (ev : Option DebounceEvent) :
    s.noteFaces ev = { s with faceStart := startAfter s.faceStart ev, faceEnd := endedAfter s.faceEnd ev } := by
  rcases ev with _ | _ | _ <;> rfl

theorem notePersons_eq (ev : Option DebounceEvent) :
    s.notePersons ev = { s with personStart := startAfter s.personStart ev, personEnd := endedAfter s.personEnd ev } := by
  rcases ev with _ | _ | _ <;> rfl

theorem counted_eq : ∃ maxFaces maxPersons peakPending,
    (s.forgetCounts.countFaces ctx).countPersons ctx =
      { s with maxFaces := maxFaces, maxPersons := maxPersons, peakPending := peakPending } := by
  have hforget : ∀ s : PeopleState policy, ∃ maxFaces maxPersons,
      s.forgetCounts = { s with maxFaces := maxFaces, maxPersons := maxPersons } := by
    intro s
    rw [forgetCounts]
    split
    · exact ⟨0, 0, rfl⟩
    · exact ⟨s.maxFaces, s.maxPersons, rfl⟩
  have hfaces : ∀ s : PeopleState policy, ∃ maxFaces peakPending,
      s.countFaces ctx = { s with maxFaces := maxFaces, peakPending := peakPending } := by
    intro s
    rw [countFaces]
    split
    · exact ⟨_, _, rfl⟩
    · exact ⟨s.maxFaces, s.peakPending, rfl⟩
  have hpersons : ∀ s : PeopleState policy, ∃ maxPersons peakPending,
      s.countPersons ctx = { s with maxPersons := maxPersons, peakPending := peakPending } := by
    intro s
    rw [countPersons]
    split
    · exact ⟨_, _, rfl⟩
    · exact ⟨s.maxPersons, s.peakPending, rfl⟩
  obtain ⟨mf, mp, h1⟩ := hforget s
  obtain ⟨mf', pp, h2⟩ := hfaces s.forgetCounts
  obtain ⟨mp', pp', h3⟩ := hpersons (s.forgetCounts.countFaces ctx)
  rw [h3, h2, h1]
  exact ⟨mf', mp', pp', rfl⟩

/-- The detector when both paths have been stepped. -/
def paths : PeopleState policy :=
  (((s.forgetCounts.countFaces ctx).countPersons ctx).stepFaces ctx).stepPersons ctx

theorem paths_eq : ∃ maxFaces maxPersons peakPending,
    s.paths ctx =
      { s with
        maxFaces := maxFaces, maxPersons := maxPersons, peakPending := peakPending
        faces := (s.facesStep ctx).1
        faceStart := startAfter s.faceStart (s.facesStep ctx).2
        faceEnd := endedAfter s.faceEnd (s.facesStep ctx).2
        persons := (s.personsStep ctx).1, personStart := startAfter s.personStart (s.personsStep ctx).2
        personEnd := endedAfter s.personEnd (s.personsStep ctx).2 } := by
  obtain ⟨mf, mp, pp, h⟩ := s.counted_eq ctx
  rw [paths, h, stepFaces, noteFaces_eq, stepPersons, notePersons_eq]
  exact ⟨mf, mp, pp, rfl⟩

end PeopleState

/-- The detector with an open episode that was opened at `openedAt`, and the observer. -/
structure Opened (s : PeopleState policy) (tr : EpisodeTrack) (openedAt : ℚ) : Prop where
  slot : ∃ slot, s.book.slots peopleKey = some slot ∧ slot.endedAt.isNone = true ∧
    slot.startedAt < openedAt
  epStart : s.epStart < openedAt
  faces : PathInv s.faces s.faceEnd tr.faces openedAt
  persons : PathInv s.persons s.personEnd tr.persons openedAt
  /-- The faces path is stepped at every tick: an off time of one that is over is that of the last
  tick. -/
  fresh : s.faces.active = false → ∀ o ∈ s.faces.firstOff, s.faceEnd = some o ∧ o ∈ tr.faces.ends

/-- The detector and the observer at time `now`. -/
structure PeopleInv (s : PeopleState policy) (tr : EpisodeTrack) (now : ℚ) : Prop where
  faces : s.faces.InTime now
  persons : s.persons.InTime now
  isOpen_eq : s.isOpen = s.anyActive
  faceEnd : ∀ e ∈ s.faceEnd, e ≤ now
  personEnd : ∀ e ∈ s.personEnd, e ≤ now
  closed : s.isOpen = false → ∀ slot, s.book.slots peopleKey = some slot →
    ∃ e ∈ slot.endedAt, e ≤ now
  opened : s.isOpen = true → ∃ openedAt ≤ now, Opened s tr openedAt

variable {s : PeopleState policy}

theorem PeopleInv.mono {tr : EpisodeTrack} (h : PeopleInv s tr now) (ht : now ≤ t) :
    PeopleInv s tr t where
  faces := h.faces.mono ht
  persons := h.persons.mono ht
  isOpen_eq := h.isOpen_eq
  faceEnd e he := (h.faceEnd e he).trans ht
  personEnd e he := (h.personEnd e he).trans ht
  closed hc slot hs :=
    have ⟨e, he, hen⟩ := h.closed hc slot hs
    ⟨e, he, hen.trans ht⟩
  opened ho :=
    have ⟨openedAt, hon, h'⟩ := h.opened ho
    ⟨openedAt, hon.trans ht, h'⟩

/-- The detector when the paths have been stepped at time `t`, before the episode is dealt with. -/
structure PathsInv (s s' : PeopleState policy) (tr : EpisodeTrack) (openedAt t : ℚ) : Prop where
  book : s'.book = s.book
  isOpen : s'.isOpen = s.isOpen
  epStart : s'.epStart = s.epStart
  faces : s'.faces.InTime t
  persons : s'.persons.InTime t
  faceEnd : ∀ e ∈ s'.faceEnd, e ≤ t
  personEnd : ∀ e ∈ s'.personEnd, e ≤ t
  faceInv : PathInv s'.faces s'.faceEnd tr.faces openedAt
  personInv : PathInv s'.persons s'.personEnd tr.persons openedAt
  fresh : s'.faces.active = false → ∀ o ∈ s'.faces.firstOff, s'.faceEnd = some o ∧ o ∈ tr.faces.ends
  starts : s.anyActive = false → s'.anyActive = true → s'.starts ≠ [] ∧ ∀ x ∈ s'.starts, x < t
  stops : s.anyActive = true → s'.anyActive = false → tr.faces ≠ .empty ∨ tr.persons ≠ .empty

theorem pathsInv {tr₀ tr : EpisodeTrack} {ctx : PeopleContext} (h : PeopleInv s tr₀ now)
    (ht : now < ctx.t) (hopen : openedAt ≤ ctx.t) (hfaces : PathInv s.faces s.faceEnd tr.faces openedAt)
    (hpersons : PathInv s.persons s.personEnd tr.persons openedAt) :
    PathsInv s (s.paths ctx) (tr.tick s ctx) openedAt ctx.t := by
  obtain ⟨mf, mp, pp, hs⟩ := s.paths_eq ctx
  have hf : PathStepped s.faces (s.facesStep ctx).1 s.faceEnd tr.faces
      ((s.facesStep ctx).1.active && decide (ctx.vf = some true)) (s.facesStep ctx).2 openedAt ctx.t :=
    hfaces.step h.faces h.faceEnd ht hopen (by norm_num [PeoplePolicy.faceParams]) _ _ rfl
  have hp : PathStepped s.persons (s.personsStep ctx).1 s.personEnd tr.persons
      ((s.personsStep ctx).1.active && (ctx.objectsRan && decide (ctx.vp = some true)))
      (s.personsStep ctx).2 openedAt ctx.t := by
    rw [PeopleState.personsStep]
    cases hran : ctx.objectsRan with
    | true => exact hpersons.step h.persons h.personEnd ht hopen (by norm_num [PeoplePolicy.personParams]) _ _ (by simp)
    | false => exact hpersons.expire h.persons h.personEnd ht _ (by simp)
  rw [hs]
  refine ⟨rfl, rfl, rfl, hf.inTime, hp.inTime, hf.past, hp.past, hf.inv, hp.inv, ?_, ?_, ?_⟩
  · intro hoff o ho
    exact fresh_of_stepped (h.faces.step ht ctx.vf ctx.secondScore).2 hoff ho
  · intro hoff hon
    obtain ⟨hf0, hp0⟩ := Bool.or_eq_false_iff.mp hoff
    obtain ⟨hflt, hfne⟩ := hf.started hf0 s.faceStart
    obtain ⟨hplt, hpne⟩ := hp.started hp0 s.personStart
    refine ⟨fun hnil => ?_, fun x hx => ?_⟩
    · obtain ⟨hfnil, hpnil⟩ := append_eq_nil_iff.mp hnil
      rcases Bool.or_eq_true_iff.mp hon with hact | hact
      · exact hfne hact hfnil
      · exact hpne hact hpnil
    · rcases mem_append.mp hx with hx | hx
      · exact hflt x hx
      · exact hplt x hx
  · intro hon hoff
    obtain ⟨hf1, hp1⟩ := Bool.or_eq_false_iff.mp hoff
    rcases Bool.or_eq_true_iff.mp hon with hf0 | hp0
    · exact .inl (hf.stops hf0 hf1)
    · exact .inr (hp.stops hp0 hp1)

/-! ## The end of an episode -/

/-- The last time at which the path stopped; nothing of it is later. -/
def PathTrack.Last (tr : PathTrack) (m : ℚ) : Prop :=
  m ∈ tr.ends ∧ (∀ e ∈ tr.ends, e ≤ m) ∧ ∀ x ∈ tr.on, x ≤ m

theorem endsAt_both {tr : EpisodeTrack} {m n e : ℚ} (hf : tr.faces.Last m)
    (hp : tr.persons.Last n) : tr.EndsAt e ↔ e = max m n := by
  have hmax : tr.EndsAt (max m n) := by
    refine ⟨?_, fun x hx => ?_, fun x hx => ?_⟩
    · rcases le_total m n with hmn | hmn
      · rw [max_eq_right hmn]
        exact mem_append_right _ hp.1
      · rw [max_eq_left hmn]
        exact mem_append_left _ hf.1
    · rcases mem_append.mp hx with hx | hx
      · exact (hf.2.1 x hx).trans (le_max_left _ _)
      · exact (hp.2.1 x hx).trans (le_max_right _ _)
    · rcases mem_append.mp hx with hx | hx
      · exact (hf.2.2 x hx).trans (le_max_left _ _)
      · exact (hp.2.2 x hx).trans (le_max_right _ _)
  constructor
  · intro he
    exact le_antisymm (hmax.2.1 e he.1) (he.2.1 _ hmax.1)
  · rintro rfl
    exact hmax

theorem endsAt_faces {tr : EpisodeTrack} {m e : ℚ} (hf : tr.faces.Last m)
    (hp : tr.persons = .empty) : tr.EndsAt e ↔ e = m := by
  have hends : tr.ends = tr.faces.ends := by rw [EpisodeTrack.ends, hp]; exact append_nil _
  have hon : tr.on = tr.faces.on := by rw [EpisodeTrack.on, hp]; exact append_nil _
  rw [EpisodeTrack.EndsAt, hends, hon]
  constructor
  · intro he
    exact le_antisymm (hf.2.1 e he.1) (he.2.1 m hf.1)
  · rintro rfl
    exact hf

theorem endsAt_persons {tr : EpisodeTrack} {n e : ℚ} (hf : tr.faces = .empty)
    (hp : tr.persons.Last n) : tr.EndsAt e ↔ e = n := by
  have hends : tr.ends = tr.persons.ends := by rw [EpisodeTrack.ends, hf]; rfl
  have hon : tr.on = tr.persons.on := by rw [EpisodeTrack.on, hf]; rfl
  rw [EpisodeTrack.EndsAt, hends, hon]
  constructor
  · intro he
    exact le_antisymm (hp.2.1 e he.1) (he.2.1 n hp.1)
  · rintro rfl
    exact hp

theorem PathInv.over (h : PathInv d ended tr openedAt) (hoff : d.active = false) :
    (tr = .empty ∧ ∀ e ∈ ended, e ≤ openedAt) ∨ ∃ m, ended = some m ∧ openedAt ≤ m ∧ tr.Last m := by
  rcases h.off hoff with hempty | ⟨e, he, hmem, hopen, hends, hons⟩
  · exact .inl hempty
  · exact .inr ⟨e, he, hopen, hmem, hends, hons⟩

theorem endsAt_latestEnd {tr : EpisodeTrack} {start : ℚ}
    (hfaces : PathInv s.faces s.faceEnd tr.faces openedAt)
    (hpersons : PathInv s.persons s.personEnd tr.persons openedAt)
    (hfaceEnd : ∀ e ∈ s.faceEnd, e ≤ t) (hpersonEnd : ∀ e ∈ s.personEnd, e ≤ t)
    (hover : s.anyActive = false)
    (hsome : tr.faces ≠ .empty ∨ tr.persons ≠ .empty) (hstart : start < openedAt)
    (hep : s.epStart < openedAt) : tr.EndsAt (max start (min s.latestEnd t)) := by
  obtain ⟨hf, hp⟩ := Bool.or_eq_false_iff.mp hover
  rw [PeopleState.latestEnd]
  rcases hfaces.over hf with ⟨hfe, hfle⟩ | ⟨m, hm, hom, hlm⟩ <;>
    rcases hpersons.over hp with ⟨hpe, hple⟩ | ⟨n, hn, hon, hln⟩
  · exact absurd hsome (by simp [hfe, hpe])
  · have hle : s.faceEnd.getD s.epStart ≤ n := by
      cases hfe' : s.faceEnd with
      | none => exact hep.le.trans hon
      | some e => exact (hfle e hfe').trans hon
    have hnt : n ≤ t := hpersonEnd n hn
    rw [endsAt_persons hfe hln, hn, Option.getD_some, max_eq_right hle, max_eq_left (hep.le.trans hon),
      min_eq_left hnt, max_eq_right (hstart.le.trans hon)]
  · have hle : s.personEnd.getD s.epStart ≤ m := by
      cases hpe' : s.personEnd with
      | none => exact hep.le.trans hom
      | some e => exact (hple e hpe').trans hom
    have hmt : m ≤ t := hfaceEnd m hm
    rw [endsAt_faces hlm hpe, hm, Option.getD_some, max_eq_left hle, max_eq_left (hep.le.trans hom),
      min_eq_left hmt, max_eq_right (hstart.le.trans hom)]
  · have hmt : m ≤ t := hfaceEnd m hm
    have hnt : n ≤ t := hpersonEnd n hn
    have ho : openedAt ≤ max m n := hom.trans (le_max_left _ _)
    rw [endsAt_both hlm hln, hm, hn, Option.getD_some, Option.getD_some, max_eq_left (hep.le.trans ho),
      min_eq_left (max_le hmt hnt), max_eq_right (hstart.le.trans ho)]

theorem PathInv.flushed (h : PathInv d ended tr openedAt) (hin : d.InTime now) (ht : now ≤ t)
    (hon : d.active = true) :
    openedAt ≤ d.firstOff.getD t ∧ d.firstOff.getD t ≤ t ∧
    (tr.flush d t).Last (d.firstOff.getD t) := by
  obtain ⟨l, hl, hopen, hends, hons⟩ := h.on hon
  obtain ⟨s, hs⟩ := Option.isSome_iff_exists.mp (hin.active hon).2.1
  obtain ⟨-, l', hl', -, hln, -⟩ := hin.run s hs
  obtain rfl := Option.mem_unique hl hl'
  have hoff : l ≤ d.firstOff.getD t ∧ d.firstOff.getD t ≤ t := by
    cases hf : d.firstOff with
    | none => exact ⟨hln.trans ht, le_rfl⟩
    | some o => exact ⟨(hin.off o hf).2 l hl, (hin.off o hf).1.trans ht⟩
  rw [PathTrack.flush, if_pos hon]
  refine ⟨hopen.trans hoff.1, hoff.2, by simp, fun e he => ?_, fun x hx => (hons x hx).trans hoff.1⟩
  rcases mem_append.mp he with he | he
  · exact (hends e he).trans hoff.1
  · exact (mem_singleton.mp he).le

theorem PathTrack.flush_off (tr : PathTrack) (t : ℚ) (hoff : d.active = false) :
    tr.flush d t = tr := by
  rw [PathTrack.flush, hoff]
  rfl

theorem endsAt_flushEnd {tr : EpisodeTrack} {start : ℚ} (h : PeopleInv s tr now)
    (hopened : Opened s tr openedAt) (hopen : openedAt ≤ now) (ht : now ≤ t) (hon : s.isOpen = true)
    (hstart : start < openedAt) :
    (tr.flush s t).EndsAt (max start (min (s.flushEnd t) t)) ↔ s.FlushesInOrder t := by
  have hclip : ∀ v, openedAt ≤ v → v ≤ t → max start (min v t) = v := fun v hov hvt => by
    rw [min_eq_left hvt, max_eq_right (hstart.le.trans hov)]
  have hot := hopen.trans ht
  rw [PeopleState.flushEnd, PeopleState.FlushesInOrder]
  cases hfa : s.faces.active with
  | true =>
    obtain ⟨hfo, hft, hflast⟩ := hopened.faces.flushed h.faces ht hfa
    cases hpa : s.persons.active with
    | true =>
      obtain ⟨hpo, hpt, hplast⟩ := hopened.persons.flushed h.persons ht hpa
      rw [endsAt_both hflast hplast]
      cases hf : s.faces.firstOff with
      | some f =>
        rw [hf] at hfo hft
        rw [Option.some_or, Option.getD_some, hclip f hfo hft]
        exact eq_comm.trans max_eq_left_iff
      | none =>
        cases hp : s.persons.firstOff with
        | none => simpa using hstart.le.trans hot
        | some g =>
          rw [hp, Option.getD_some] at hpo hpt
          rw [Option.none_or, Option.getD_some, Option.getD_none, hclip g hpo hpt, max_eq_left hpt]
          exact ⟨fun he => he.ge, fun hle => le_antisymm hpt hle⟩
    | false =>
      have hsame : (tr.flush s t).persons = tr.persons := tr.persons.flush_off t hpa
      cases hf : s.faces.firstOff with
      | some f =>
        rw [hf] at hfo hft hflast
        rw [Option.some_or, Option.getD_some, hclip f hfo hft]
        rcases hopened.persons.over hpa with ⟨hpe, hple⟩ | ⟨n, hn, hno, hplast⟩
        · rw [endsAt_faces hflast (hsame.trans hpe)]
          exact ⟨fun _ e he => (hple e he).trans hfo, fun _ => rfl⟩
        · rw [endsAt_both hflast (hsame ▸ hplast), hn]
          refine (eq_comm.trans max_eq_left_iff).trans ⟨fun hle e he => ?_, fun hle => hle n rfl⟩
          exact (Option.some_inj.mp he) ▸ hle
      | none =>
        rw [hf, Option.getD_none] at hflast
        -- the faces path goes on, so the true end is the flush
        have htrue : ∀ v, (tr.flush s t).EndsAt v ↔ v = t := by
          intro v
          rcases hopened.persons.over hpa with ⟨hpe, -⟩ | ⟨n, hn, -, hplast⟩
          · exact endsAt_faces hflast (hsame.trans hpe)
          · have hnt : n ≤ t := (h.personEnd n hn).trans ht
            rw [endsAt_both hflast (hsame ▸ hplast), max_eq_left hnt]
        rw [htrue]
        cases hp : s.persons.firstOff with
        | none => simpa using hstart.le.trans hot
        | some g =>
          have hgt : g ≤ t := (h.persons.off g hp).1.trans ht
          rw [Option.none_or, Option.getD_some, min_eq_left hgt]
          constructor
          · intro he
            rcases max_choice start g with hmax | hmax
            · exact absurd (hmax.symm.trans he) (by linarith)
            · exact (hmax.symm.trans he).ge
          · intro hle
            rw [le_antisymm hgt hle]
            exact max_eq_right (by linarith)
  | false =>
    have hpa : s.persons.active = true := by
      have := h.isOpen_eq.symm.trans hon
      rwa [PeopleState.anyActive, hfa] at this
    obtain ⟨hpo, hpt, hplast⟩ := hopened.persons.flushed h.persons ht hpa
    have hsame : (tr.flush s t).faces = tr.faces := tr.faces.flush_off t hfa
    cases hf : s.faces.firstOff with
    | some f =>
      obtain ⟨hfe, hmem⟩ := hopened.fresh hfa f hf
      rcases hopened.faces.over hfa with ⟨hempty, -⟩ | ⟨m, hm, hmo, hflast⟩
      · simp [hempty, PathTrack.empty] at hmem
      · obtain rfl : m = f := Option.some_inj.mp (hm.symm.trans hfe)
        have hmt : m ≤ t := (h.faceEnd m hm).trans ht
        rw [Option.some_or, Option.getD_some, hclip m hmo hmt, endsAt_both (hsame ▸ hflast) hplast, hpa]
        exact eq_comm.trans max_eq_left_iff
    | none =>
      have hv : max start (min ((none.or s.persons.firstOff).getD t) t) = s.persons.firstOff.getD t := by
        exact hclip _ hpo hpt
      rw [hv]
      rcases hopened.faces.over hfa with ⟨hfe, hfle⟩ | ⟨m, hm, hmo, hflast⟩
      · rw [endsAt_persons (hsame.trans hfe) hplast]
        cases hp : s.persons.firstOff with
        | none => simp
        | some g =>
          rw [hp] at hpo
          exact ⟨fun _ e he => (hfle e he).trans hpo, fun _ => rfl⟩
      · have hmt : m ≤ t := (h.faceEnd m hm).trans ht
        rw [endsAt_both (hsame ▸ hflast) hplast, hm]
        cases hp : s.persons.firstOff with
        | none => simp [hmt]
        | some g =>
          refine (eq_comm.trans max_eq_right_iff).trans ⟨fun hle e he => ?_, fun hle => hle m rfl⟩
          exact (Option.some_inj.mp he) ▸ hle

/-! ## Runs -/

theorem closes_touch (s : PeopleState policy) (t : ℚ) {slot : EpisodeSlot}
    (hslot : s.book.slots peopleKey = some slot) : closes (s.touch t).2 = [] := by
  obtain ⟨-, hphase⟩ := EpisodeBook.touch_slot hslot t s.material (s.data t none) s.peakPending
  rw [PeopleState.touch]
  cases hu : (s.book.touch peopleKey t s.material (s.data t none) s.peakPending).2 with
  | none => simp [hu, closes]
  | some u => simp [hu, closes, hphase u hu]

/-- The updates that close an episode: there is one, and it carries the true end. -/
def ClosesWith (calls : List HostCall) (P : ℚ → Prop) : Prop :=
  ∃ u endedAt, closes calls = [u] ∧ u.endedAt = some endedAt ∧ P endedAt

theorem closes_end {slot : EpisodeSlot} (hslot : s.book.slots peopleKey = some slot)
    (hopen : slot.endedAt.isNone = true) (endedAt t : ℚ) :
    (s.end endedAt t).1 = { s with book := s.book.put peopleKey (slot.closed endedAt t), isOpen := false } ∧
      ClosesWith (s.end endedAt t).2 (· = max slot.startedAt (min endedAt t)) := by
  rw [PeopleState.end, EpisodeBook.end_of_open hslot hopen]
  exact ⟨rfl, _, _, rfl, rfl, rfl⟩

theorem foldl_min_lt {b : ℚ} (l : List ℚ) {a : ℚ} (ha : a < b) : l.foldl min a < b := by
  induction l generalizing a with
  | nil => exact ha
  | cons x l ih => exact ih ((min_le_left a x).trans_lt ha)

variable {s' : PeopleState policy}

theorem begin_inv {tr tr' : EpisodeTrack} (h : PeopleInv s tr now) (ht : now < t)
    (hopen : s.isOpen = false) (hact : s'.anyActive = true) (hp : PathsInv s s' tr' t t)
    {startedAt : ℚ} (hlt : startedAt < t) :
    PeopleInv (s'.begin startedAt t).1 tr' t ∧ (s'.begin startedAt t).1.isOpen = true ∧
      closes (s'.begin startedAt t).2 = [] := by
  obtain ⟨slot, hslot, hnone, hstart, hphase, hcase⟩ :=
    s'.book.begin_slot peopleKey .multiplePeople startedAt t (s'.data t none) s'.material
  have hbefore : slot.startedAt < t := by
    rcases hcase with heq | ⟨prev, hprev, heq⟩
    · exact heq ▸ hlt
    · -- the episode that goes on was closed at an earlier tick
      obtain ⟨e, he, hen⟩ := h.closed hopen prev (hp.book ▸ hprev)
      have := prev.started_le e he
      linarith
  refine ⟨{ hp with
      isOpen_eq := hact.symm
      closed := fun hc => absurd hc (by simp [PeopleState.begin])
      opened := fun _ => ⟨t, le_rfl, ⟨slot, hslot, hnone, hbefore⟩, ?_, hp.faceInv, hp.personInv,
        hp.fresh⟩ }, rfl, ?_⟩
  · exact hstart.trans_lt hbefore
  · simp [PeopleState.begin, closes, hphase]

theorem end_inv {tr tr' : EpisodeTrack} (hwas : s.anyActive = true)
    (hopened : Opened s tr openedAt) (hact : s'.anyActive = false)
    (hp : PathsInv s s' tr' openedAt t) :
    PeopleInv (s'.end s'.latestEnd t).1 tr' t ∧ (s'.end s'.latestEnd t).1.isOpen = false ∧
      ClosesWith (s'.end s'.latestEnd t).2 tr'.EndsAt := by
  obtain ⟨slot, hslot, hnone, hstart⟩ := hopened.slot
  rw [← hp.book] at hslot
  obtain ⟨hstate, u, e, hu, hue, he⟩ := closes_end hslot hnone s'.latestEnd t
  have hends := endsAt_latestEnd hp.faceInv hp.personInv hp.faceEnd hp.personEnd hact (hp.stops hwas hact) hstart
    (by rw [hp.epStart]; exact hopened.epStart)
  have hpast : max slot.startedAt (min s'.latestEnd t) ≤ t := by
    rcases mem_append.mp hends.1 with hmem | hmem
    · exact (hp.faceInv.past hp.faces hp.faceEnd).1 _ hmem
    · exact (hp.personInv.past hp.persons hp.personEnd).1 _ hmem
  rw [hstate]
  refine ⟨{ hp with
      isOpen_eq := hact.symm
      closed := fun _ slot' hs' => ?_
      opened := fun ho => by cases ho }, rfl,
    u, e, hu, hue, by rw [he]; exact hends⟩
  obtain rfl := Option.some_inj.mp ((EpisodeBook.slots_put _ _ _).symm.trans hs')
  exact ⟨_, rfl, hpast⟩

theorem touch_inv {tr tr' : EpisodeTrack} (hle : openedAt ≤ t)
    (hopen : s.isOpen = true) (hopened : Opened s tr openedAt) (hact : s'.anyActive = true)
    (hp : PathsInv s s' tr' openedAt t) :
    PeopleInv (s'.touch t).1 tr' t ∧ (s'.touch t).1.isOpen = true ∧ closes (s'.touch t).2 = [] := by
  obtain ⟨slot, hslot, hnone, hstart⟩ := hopened.slot
  rw [← hp.book] at hslot
  have hopen' : s'.isOpen = true := hp.isOpen.trans hopen
  obtain ⟨⟨slot', hslot', hstart', hnone'⟩, -⟩ :=
    EpisodeBook.touch_slot hslot t s'.material (s'.data t none) s'.peakPending
  refine ⟨{ hp with
      isOpen_eq := hopen'.trans hact.symm
      closed := fun hc => ?_
      opened := fun _ => ?_ }, hopen',
    closes_touch s' t hslot⟩
  · exact absurd (hopen'.symm.trans hc) (by decide)
  · refine ⟨openedAt, hle, ⟨slot', hslot', hnone' ▸ hnone, hstart' ▸ hstart⟩, ?_, hp.faceInv,
      hp.personInv, hp.fresh⟩
    exact hp.epStart.trans_lt hopened.epStart

/-- An episode is closed by one update whose end meets `P`, or none is closed and there is no such
update. -/
def Outcome (s s' : PeopleState policy) (calls : List HostCall) (P : ℚ → Prop) : Prop :=
  if s.isOpen = true ∧ s'.isOpen = false then ClosesWith calls P else closes calls = []

variable {calls : List HostCall} {P : ℚ → Prop}

theorem Outcome.closed (ho : s.isOpen = true)
    (hc : s'.isOpen = false) (h : ClosesWith calls P) : Outcome s s' calls P := by
  rw [Outcome, if_pos ⟨ho, hc⟩]
  exact h

theorem Outcome.quiet
    (hno : s.isOpen = false ∨ s'.isOpen = true) (h : closes calls = []) : Outcome s s' calls P := by
  rw [Outcome, if_neg]
  · exact h
  · rintro ⟨ho, hc⟩
    rcases hno with hno | hno
    · exact absurd (hno.symm.trans ho) (by decide)
    · exact absurd (hc.symm.trans hno) (by decide)

theorem PathInv.fresh (hoff : d.active = false) (hended : ∀ e ∈ ended, e ≤ t) :
    PathInv d ended .empty t :=
  ⟨fun ha => absurd (hoff.symm.trans ha) (by decide), fun _ => .inl ⟨rfl, hended⟩⟩

/-- One tick. -/
theorem step_inv {tr : EpisodeTrack} {ctx : PeopleContext} (h : PeopleInv s tr now)
    (ht : now < ctx.t) (henabled : policy.enabled = true) :
    PeopleInv (s.step ctx).1 ((tr.since s).tick s ctx) ctx.t ∧
      Outcome s (s.step ctx).1 (s.step ctx).2 ((tr.since s).tick s ctx).EndsAt := by
  have hstep : s.step ctx = (s.paths ctx).settle ctx.t := if_pos henabled
  rw [hstep]
  cases hopen : s.isOpen with
  | false =>
    have hsince : tr.since s = .empty := by
      rw [EpisodeTrack.since, hopen]
      rfl
    have hidle : s.anyActive = false := h.isOpen_eq.symm.trans hopen
    obtain ⟨hf, hp⟩ := Bool.or_eq_false_iff.mp hidle
    have hpaths : PathsInv s (s.paths ctx) ((tr.since s).tick s ctx) ctx.t ctx.t := by
      rw [hsince]
      exact pathsInv h ht le_rfl (.fresh hf fun e he => (h.faceEnd e he).trans ht.le)
        (.fresh hp fun e he => (h.personEnd e he).trans ht.le)
    have hopen' : (s.paths ctx).isOpen = false := hpaths.isOpen.trans hopen
    cases hact : (s.paths ctx).anyActive with
    | false =>
      rw [PeopleState.settle_idle _ _ hopen' hact]
      refine ⟨{ hpaths with
          isOpen_eq := hopen'.trans hact.symm
          closed := fun _ => ?_
          opened := fun ho => absurd (hopen'.symm.trans ho) (by decide) }, .quiet (.inl hopen) rfl⟩
      rw [hpaths.book]
      exact (h.mono ht.le).closed hopen
    | true =>
      obtain ⟨hne, hlt⟩ := hpaths.starts hidle hact
      obtain ⟨start, starts, hstarts⟩ := exists_cons_of_ne_nil hne
      rw [PeopleState.settle_begin _ _ hopen' hact hstarts]
      have hmin := foldl_min_lt starts (hlt start (hstarts ▸ mem_cons_self ..))
      obtain ⟨hinv, hon, hcloses⟩ := begin_inv h ht hopen hact hpaths hmin
      exact ⟨hinv, .quiet (.inl hopen) hcloses⟩
  | true =>
    have hsince : tr.since s = tr := by
      rw [EpisodeTrack.since, hopen]
      rfl
    rw [hsince]
    obtain ⟨openedAt, hle, hopened⟩ := h.opened hopen
    have hpaths := pathsInv h ht (hle.trans ht.le) hopened.faces hopened.persons
    have hopen' : (s.paths ctx).isOpen = true := hpaths.isOpen.trans hopen
    cases hact : (s.paths ctx).anyActive with
    | false =>
      rw [PeopleState.settle_end _ _ hopen' hact]
      obtain ⟨hinv, hoff, hcloses⟩ := end_inv (h.isOpen_eq.symm.trans hopen) hopened hact hpaths
      exact ⟨hinv, .closed hopen hoff hcloses⟩
    | true =>
      rw [PeopleState.settle_touch _ _ hopen' hact]
      obtain ⟨hinv, hon, hcloses⟩ := touch_inv (hle.trans ht.le) hopen hopened hact hpaths
      exact ⟨hinv, .quiet (.inr hon) hcloses⟩

theorem reset_inv (s : PeopleState policy) (tr : EpisodeTrack) (book : EpisodeBook String)
    (hbook : ∀ slot, book.slots peopleKey = some slot → slot.isOpen = false) (now : ℚ) :
    PeopleInv { s.reset with book := book.forgetClosed } tr now where
  faces := .reset _ now
  persons := .reset _ now
  isOpen_eq := rfl
  faceEnd := by simp [PeopleState.reset]
  personEnd := by simp [PeopleState.reset]
  closed _ slot hslot := by
    obtain ⟨hs, ho⟩ := Option.filter_eq_some_iff.mp hslot
    exact absurd ((hbook slot hs).symm.trans ho) (by decide)
  opened ho := absurd ho (by simp [PeopleState.reset])

theorem slot_closed {tr : EpisodeTrack} (h : PeopleInv s tr now) (hc : s.isOpen = false)
    (slot : EpisodeSlot) (hslot : s.book.slots peopleKey = some slot) : slot.isOpen = false := by
  obtain ⟨e, he, -⟩ := h.closed hc slot hslot
  rw [slot.isOpen_eq, Option.mem_def.mp he]
  rfl

theorem flush_inv {tr : EpisodeTrack} (h : PeopleInv s tr now) (ht : now ≤ t)
    (reason : FlushReason) (tr' : EpisodeTrack) (now' : ℚ) :
    PeopleInv { (s.flush t reason).1 with book := (s.flush t reason).1.book.forgetClosed } tr' now' ∧
      Outcome s (s.flush t reason).1 (s.flush t reason).2
        (fun e => ((tr.since s).flush s t).EndsAt e ↔ s.FlushesInOrder t) := by
  cases hopen : s.isOpen with
  | false =>
    have hflush : s.flush t reason = (s.reset, []) := by
      rw [PeopleState.flush, hopen]
      rfl
    rw [hflush]
    exact ⟨reset_inv s tr' s.book (slot_closed h hopen) now', .quiet (.inl hopen) rfl⟩
  | true =>
    obtain ⟨openedAt, hle, hopened⟩ := h.opened hopen
    obtain ⟨slot, hslot, hnone, hstart⟩ := hopened.slot
    have hsince : tr.since s = tr := by
      rw [EpisodeTrack.since, hopen]
      rfl
    have hflush : s.flush t reason =
        ({ s with book := s.book.put peopleKey (slot.closed (s.flushEnd t) t) }.reset,
          [.episode ((slot.closed (s.flushEnd t) t).emit .close (s.flushData t reason) none),
            .prompt peopleKey false]) := by
      rw [PeopleState.flush, if_pos hopen, EpisodeBook.end_of_open hslot hnone]
      rfl
    rw [hsince, hflush]
    refine ⟨reset_inv _ tr' _ (fun slot' hs' => ?_) now', .closed hopen rfl ⟨_, _, rfl, rfl, ?_⟩⟩
    · obtain rfl := Option.some_inj.mp ((EpisodeBook.slots_put _ _ _).symm.trans hs')
      rfl
    · exact endsAt_flushEnd h hopened hle ht hopen hstart

/-- The engine and the observer at any time from the last tick on. -/
def EngineInv (e : PeopleEngine policy) (tr : EpisodeTrack) : Prop :=
  ∀ now, (∀ l ∈ e.lastT, l ≤ now) → PeopleInv e.people tr now

theorem EngineInv.new (policy : PeoplePolicy) (cfg : BookConfig) :
    EngineInv (PeopleEngine.new policy cfg) .empty := fun now _ =>
  { faces := .new _ now
    persons := .new _ now
    isOpen_eq := rfl
    faceEnd := by simp [PeopleEngine.new, PeopleState.new]
    personEnd := by simp [PeopleEngine.new, PeopleState.new]
    closed := fun _ slot hslot => by cases hslot
    opened := fun ho => by cases ho }

theorem EngineInv.before {e : PeopleEngine policy} {tr : EpisodeTrack} (h : EngineInv e tr)
    (ht : e.Accepts t) : ∃ now < t, PeopleInv e.people tr now := by
  cases hl : e.lastT with
  | none => exact ⟨t - 1, by linarith, h _ (by simp [hl])⟩
  | some l => exact ⟨l, ht l hl, h l fun l' hl' => (Option.mem_unique hl' hl).le⟩

theorem Outcome.imp {P Q : ℚ → Prop} (h : Outcome s s' calls P)
    (hpq : ∀ x, P x → Q x) : Outcome s s' calls Q := by
  rw [Outcome] at h ⊢
  split
  next hc =>
    rw [if_pos hc] at h
    obtain ⟨u, e, hu, he, hp⟩ := h
    exact ⟨u, e, hu, he, hpq e hp⟩
  next hc =>
    rw [if_neg hc] at h
    exact h

theorem Outcome.same (s : PeopleState policy) (P : ℚ → Prop) : Outcome s s [] P := by
  refine .quiet ?_ rfl
  cases s.isOpen <;> simp

theorem PeopleInv.since {tr : EpisodeTrack} (h : PeopleInv s tr now) :
    PeopleInv s (tr.since s) now where
  __ := h
  opened ho := by
    rw [EpisodeTrack.since, if_pos ho]
    exact h.opened ho

theorem EngineInv.closed {e : PeopleEngine policy} {tr : EpisodeTrack} (h : EngineInv e tr)
    (hl : e.lastT = none) : e.people.isOpen = false := by
  have hall : ∀ now, PeopleInv e.people tr now := fun now => h now (by simp [hl])
  cases hopen : e.people.isOpen with
  | false => rfl
  | true =>
    obtain ⟨_, -, hopened⟩ := (hall 0).opened hopen
    obtain ⟨slot, hslot, -, -⟩ := hopened.slot
    obtain ⟨openedAt, hle, hopened'⟩ := (hall slot.startedAt).opened hopen
    obtain ⟨slot', hslot', -, hlt⟩ := hopened'.slot
    obtain rfl := Option.some_inj.mp (hslot.symm.trans hslot')
    linarith

theorem EngineInv.step {e : PeopleEngine policy} {tr : EpisodeTrack} (h : EngineInv e tr)
    (a : PeopleAction) : EngineInv (e.step a).1 (tr.after e a) ∧
      Outcome e.people (e.step a).1.people (e.step a).2 fun x => (tr.after e a).EndsAt x ↔
      e.ClosesInOrder a := by
  cases a with
  | ingest ctx =>
    by_cases hacc : e.Accepts ctx.t
    · obtain ⟨now, ht, hinv⟩ := h.before hacc
      have hstep : e.step (.ingest ctx) = (⟨(e.people.step ctx).1, some ctx.t⟩,
          (e.people.step ctx).2) := if_pos hacc
      rw [hstep]
      cases hen : policy.enabled with
      | true =>
        have htr : tr.after e (.ingest ctx) = (tr.since e.people).tick e.people ctx := if_pos ⟨hacc, hen⟩
        obtain ⟨hinv', hout⟩ := step_inv hinv ht hen
        rw [htr]
        exact ⟨fun now' hn => hinv'.mono (hn _ rfl), hout.imp fun x hx => iff_of_true hx trivial⟩
      | false =>
        have hsame : e.people.step ctx = (e.people, []) := by
          rw [PeopleState.step, hen]
          rfl
        have htr : tr.after e (.ingest ctx) = tr.since e.people := if_neg fun hc => by simp [hen] at hc
        rw [hsame, htr]
        exact ⟨fun now' hn => (hinv.mono (ht.le.trans (hn _ rfl))).since, .same _ _⟩
    · have hstep : e.step (.ingest ctx) = (e, []) := if_neg hacc
      have htr : tr.after e (.ingest ctx) = tr.since e.people := if_neg fun hc => hacc hc.1
      rw [hstep, htr]
      exact ⟨fun now hn => (h now hn).since, .same _ _⟩
  | flush t reason =>
    cases hft : e.flushTime t with
    | none =>
      have hlast : e.lastT = none := by
        cases t with
        | none => exact hft
        | some t => simp [PeopleEngine.flushTime] at hft
      have hclosed := h.closed hlast
      have hstep : e.step (.flush t reason) =
          (⟨{ e.people.reset with book := e.people.book.forgetClosed }, none⟩, []) := by
        rw [PeopleEngine.step, hft]
      rw [hstep]
      exact ⟨fun now _ => reset_inv _ _ _ (slot_closed (h now (by simp [hlast])) hclosed) now,
        .quiet (.inl hclosed) rfl⟩
    | some at' =>
      have hle : ∀ l ∈ e.lastT, l ≤ at' := by
        intro l hl
        cases t with
        | none =>
          obtain rfl := Option.mem_unique hl hft
          exact le_rfl
        | some t =>
          have hat : max t (e.lastT.getD t) = at' := Option.some_inj.mp hft
          rw [Option.mem_def.mp hl] at hat
          exact hat ▸ le_max_right _ _
      have hstep : e.step (.flush t reason) =
          (⟨{ (e.people.flush at' reason).1 with
            book := (e.people.flush at' reason).1.book.forgetClosed }, e.lastT⟩,
            (e.people.flush at' reason).2) := by
        rw [PeopleEngine.step, hft]
      have htr : tr.after e (.flush t reason) = (tr.since e.people).flush e.people at' := by
        rw [EpisodeTrack.after, hft]
      have hcond : e.ClosesInOrder (.flush t reason) ↔ e.people.FlushesInOrder at' := by
        simp [PeopleEngine.ClosesInOrder, hft]
      rw [hstep, htr]
      refine ⟨fun now _ => (flush_inv (h at' hle) le_rfl reason _ now).1, ?_⟩
      have hout := (flush_inv (h at' hle) le_rfl reason .empty at').2
      exact hout.imp fun x (hx : _ ↔ _) => hx.trans hcond.symm

theorem watchPeople_concat (policy : PeoplePolicy) (cfg : BookConfig) (actions : List PeopleAction)
    (a : PeopleAction) : watchPeople policy cfg (actions ++ [a]) =
      (((watchPeople policy cfg actions).1.step a).1,
        (watchPeople policy cfg actions).2.after (watchPeople policy cfg actions).1 a) := by
  rw [watchPeople, foldl_append]
  rfl

theorem engineInv (policy : PeoplePolicy) (cfg : BookConfig) (actions : List PeopleAction) :
    EngineInv (watchPeople policy cfg actions).1 (watchPeople policy cfg actions).2 := by
  induction actions using reverseRecOn with
  | nil => exact .new policy cfg
  | append_singleton actions a ih =>
    rw [watchPeople_concat]
    exact (ih.step a).1

/-- Whatever was observed, an action that closes the episode reports one end, and it is the last
time at which one of the paths was on exactly when the action is a tick, or a flush whose times are
in order. -/
theorem people_endedAt (policy : PeoplePolicy) (cfg : BookConfig) (actions : List PeopleAction)
    (a : PeopleAction) :
    let e := (watchPeople policy cfg actions).1
    let tr := (watchPeople policy cfg (actions ++ [a])).2
    if e.people.isOpen = true ∧ (e.step a).1.people.isOpen = false then
      ∃ u endedAt, closes (e.step a).2 = [u] ∧ u.endedAt = some endedAt ∧
      (tr.EndsAt endedAt ↔ e.ClosesInOrder a)
    else closes (e.step a).2 = [] := by
  rw [watchPeople_concat]
  exact ((engineInv policy cfg actions).step a).2

/-- Two faces and two persons at a tick of the object detector. -/
def twoSeen (t : ℚ) : PeopleAction :=
  .ingest ⟨t, true, [some 1, some 1], true, some 2, none⟩

/-- One face, while the object detector goes on to see two persons. -/
def oneTurnedAway (t : ℚ) : PeopleAction := .ingest ⟨t, true, [some 1], true, some 2, none⟩

def idBook : BookConfig := ⟨fun n => toString n, 10000, 3, 30000, 10000, 3000⟩

/-- The second face turns away and the second person stays until the exam is submitted. -/
def turnedAway : List PeopleAction :=
  [twoSeen 0, twoSeen 500, twoSeen 1000, oneTurnedAway 1500, oneTurnedAway 2000]

/-- The episode ends at 1500, although two persons were seen at 2000. -/
theorem turnedAway_endedAt :
    ¬ ∀ (policy : PeoplePolicy) (cfg : BookConfig) (actions : List PeopleAction) (a : PeopleAction),
      ∀ u ∈ closes ((watchPeople policy cfg actions).1.step a).2, ∃ endedAt, u.endedAt = some endedAt ∧
        ∀ x ∈ (watchPeople policy cfg (actions ++ [a])).2.on, x ≤ endedAt := by
  intro h
  have hu : (closes ((watchPeople ⟨true, 1, 2⟩ idBook turnedAway).1.step (.flush (some 2500) .submit)).2).any
      (·.endedAt = some 1500) = true := by
    decide +kernel
  obtain ⟨u, hmem, hend⟩ := any_eq_true.mp hu
  obtain ⟨endedAt, he, hle⟩ := h _ _ _ _ u hmem
  obtain rfl : (1500 : ℚ) = endedAt := Option.some_inj.mp ((of_decide_eq_true hend).symm.trans he)
  have hon : (2000 : ℚ) ∈ (watchPeople ⟨true, 1,
      2⟩ idBook (turnedAway ++ [.flush (some 2500) .submit])).2.on := by
    decide +kernel
  exact absurd (hle _ hon) (by norm_num)

end SmartProctoring
