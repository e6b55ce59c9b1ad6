import Mathlib.Data.List.Chain
import SmartProctoring.Server.VisionPool

/-!
# The vision pool loses no task

Each accepted task is in exactly one queue, or on exactly one worker, until its promise is settled,
once.  Tasks of a priority start in the order of their submission, no queue grows beyond its limit,
and none waits while a ready worker is free.  Overdue background work and waiting interactive work
alternate (`no_task_lost`).
-/

set_option autoImplicit false

namespace SmartProctoring

open List

namespace VisionPool

variable {s : VisionPool} {opts : VisionPoolOptions} {p : VisionPriority} {now : Int}

/-! ## Where the tasks are -/

/-- How a task in a place is settled. -/
inductive TaskExit : TaskPlace → Settlement → Prop
  | cancelled (p : VisionPriority) : TaskExit (.queue p) .cancelled
  | startFailed (p : VisionPriority) (e : WorkerError) : TaskExit (.queue p) (.startFailed e)
  | closed (p : VisionPriority) : TaskExit (.queue p) .closed
  | resolved (worker : Nat) : TaskExit (.slot worker) .resolved
  | failed (worker : Nat) (e : WorkerError) : TaskExit (.slot worker) (.failed e)
  | exited (worker : Nat) (e : WorkerError) : TaskExit (.slot worker) (.exited e)

/-- Tasks are queued, posted to a worker, and settled. -/
inductive TaskPosted : TaskPlace → TaskPlace → Prop
  | post (p : VisionPriority) (worker : Nat) : TaskPosted (.queue p) (.slot worker)

def taskLayout : Layout TaskPlace Settlement where
  entry q := ∃ p, q = .queue p
  route := TaskPosted
  exit := TaskExit

def queueHeld (p : VisionPriority) (q : List VisionTask) : List (Nat × TaskPlace) :=
  q.map fun t => (t.id, .queue p)

def slotsHeld (slots : List VisionSlot) : List (Nat × TaskPlace) :=
  slots.filterMap fun sl => sl.task.map fun t => (t.id, .slot sl.worker)

/-- The tasks in the two queues and on the workers. -/
def held (s : VisionPool) : List (Nat × TaskPlace) :=
  queueHeld .interactive s.interactive ++ (queueHeld .background s.background ++ slotsHeld s.slots)

/-- The tasks of a priority that were started, in order. -/
def startedIds (s : VisionPool) (p : VisionPriority) : List Nat :=
  (s.starts.filter fun x => decide (x.task.priority = p)).map (·.task.id)

/-- The starts of interactive tasks while the background task `b` was the oldest and overdue. -/
def passed (s : VisionPool) (b : VisionTask) : Nat :=
  s.starts.countP fun x => decide (x.task.priority = .interactive ∧ x.background.head? = some b ∧
    s.opts.backgroundMaxWaitMs ≤ x.now - b.enqueuedAt)

/-- A background task was started while interactive work was waiting. -/
def Crowded (x : TaskStart) : Prop := x.task.priority = .background ∧ x.interactive ≠ []

/-- Whose turn it is. -/
structure Alternating (s : VisionPool) : Prop where
  passedOld : ∀ b, 0 < s.passed b → b.id < s.nextId
  passedOnce : ∀ b, s.passed b ≤ 1
  passedNext : ∀ b ∈ s.background, 0 < s.passed b →
    s.background.head? = some b ∧ s.lastWasOverdue = false
  crowded : s.starts.IsChain fun y x => ¬ (Crowded y ∧ Crowded x)
  crowdedLast : ∀ x, s.starts.getLast? = some x → Crowded x → s.lastWasOverdue = true

/-- What holds throughout. -/
structure TasksOk (s : VisionPool) : Prop where
  accounted : Accounted taskLayout s.held s.log
  workers : (s.slots.map (·.worker)).Nodup
  workersOld : ∀ sl ∈ s.slots, sl.worker < s.nextWorker
  logged : ∀ e ∈ s.log, e.1 < s.nextId
  sorted : ∀ p, (s.startedIds p ++ (s.queue p).map (·.id)).Pairwise (· < ·)
  old : ∀ p, ∀ t ∈ s.queue p, t.id < s.nextId
  startedOld : ∀ x ∈ s.starts, x.task.id < s.nextId
  priority : ∀ p, ∀ t ∈ s.queue p, t.priority = p
  alternating : Alternating s

/-! ## Slots -/

variable {sl : VisionSlot}

theorem split_slots {slots : List VisionSlot} (h : (slots.map (·.worker)).Nodup)
    (hsl : sl ∈ slots) : ∃ pre post, slots = pre ++ sl :: post ∧
      (∀ x ∈ pre, x.worker ≠ sl.worker) ∧ ∀ x ∈ post, x.worker ≠ sl.worker := by
  obtain ⟨pre, post, rfl⟩ := append_of_mem hsl
  rw [map_append, map_cons, nodup_append, nodup_cons] at h
  obtain ⟨-, ⟨hpost, -⟩, hdisj⟩ := h
  refine ⟨pre, post, rfl, fun x hx heq => ?_, fun x hx heq => ?_⟩
  · exact hdisj x.worker (mem_map_of_mem hx) sl.worker mem_cons_self heq
  · exact hpost (heq ▸ mem_map_of_mem hx)

theorem map_split {pre post : List VisionSlot} (f : VisionSlot → VisionSlot)
    (hpre : ∀ x ∈ pre, x.worker ≠ sl.worker) (hpost : ∀ x ∈ post, x.worker ≠ sl.worker) :
    ((pre ++ sl :: post).map fun x => if x.worker = sl.worker then f x else x) =
      pre ++ f sl :: post := by
  have hsame : ∀ l : List VisionSlot, (∀ x ∈ l, x.worker ≠ sl.worker) →
      (l.map fun x => if x.worker = sl.worker then f x else x) = l := by
    intro l hl
    refine (map_congr_left fun x hx => ?_).trans (map_id l)
    exact if_neg (hl x hx)
  rw [map_append, map_cons, hsame pre hpre, hsame post hpost, if_pos rfl]

theorem filter_split {pre post : List VisionSlot}
    (hpre : ∀ x ∈ pre, x.worker ≠ sl.worker) (hpost : ∀ x ∈ post, x.worker ≠ sl.worker) :
    ((pre ++ sl :: post).filter fun x => decide (x.worker ≠ sl.worker)) = pre ++ post := by
  have hsame : ∀ l : List VisionSlot, (∀ x ∈ l, x.worker ≠ sl.worker) →
      (l.filter fun x => decide (x.worker ≠ sl.worker)) = l := fun l hl =>
    filter_eq_self.2 fun x hx => decide_eq_true (hl x hx)
  have hneg : ¬ (decide (sl.worker ≠ sl.worker) = true) := by simp
  rw [filter_append, filter_cons, if_neg hneg, hsame pre hpre, hsame post hpost]

theorem slotsHeld_append (a b : List VisionSlot) :
    slotsHeld (a ++ b) = slotsHeld a ++ slotsHeld b :=
  filterMap_append

theorem slotsHeld_cons_none (h : sl.task = none) (l : List VisionSlot) :
    slotsHeld (sl :: l) = slotsHeld l := by
  rw [slotsHeld, filterMap_cons_none]
  · rfl
  · rw [h]
    rfl

variable {t : VisionTask}

theorem slotsHeld_cons_some (h : sl.task = some t)
    (l : List VisionSlot) : slotsHeld (sl :: l) = (t.id, .slot sl.worker) :: slotsHeld l := by
  rw [slotsHeld, filterMap_cons_some]
  · rfl
  · rw [h]
    rfl

theorem slotsHeld_map (slots : List VisionSlot) (worker : Nat) (f : VisionSlot → VisionSlot)
    (hworker : ∀ sl, (f sl).worker = sl.worker) (htask : ∀ sl, (f sl).task = sl.task) :
    slotsHeld (slots.map fun sl => if sl.worker = worker then f sl else sl) = slotsHeld slots := by
  rw [slotsHeld, filterMap_map]
  refine filterMap_congr fun sl _ => ?_
  simp only [Function.comp_apply]
  split
  · rw [hworker, htask]
  · rfl

theorem workers_setSlot (s : VisionPool) (worker : Nat) (f : VisionSlot → VisionSlot)
    (hworker : ∀ sl, (f sl).worker = sl.worker) :
    (s.setSlot worker f).slots.map (·.worker) = s.slots.map (·.worker) := by
  rw [setSlot, map_map]
  refine map_congr_left fun sl _ => ?_
  simp only [Function.comp_apply]
  split
  · exact hworker sl
  · rfl

theorem workersOld_setSlot (h : ∀ sl ∈ s.slots, sl.worker < s.nextWorker) (worker : Nat)
    (f : VisionSlot → VisionSlot) (hworker : ∀ sl, (f sl).worker = sl.worker) :
    ∀ sl ∈ (s.setSlot worker f).slots, sl.worker < s.nextWorker := by
  intro sl' hsl'
  obtain ⟨sl, hsl, rfl⟩ := mem_map.1 hsl'
  split
  · rw [hworker]
    exact h sl hsl
  · exact h sl hsl

/-! ## The next task -/

theorem queued_pos_iff : 0 < s.queued ↔ s.interactive ≠ [] ∨ s.background ≠ [] := by
  rw [queued, Nat.add_pos_iff_pos_or_pos, length_pos_iff, length_pos_iff]

theorem background_of_overdue (h : s.overdue now = true) : ∃ t rest, s.background = t :: rest ∧
    s.opts.backgroundMaxWaitMs ≤ now - t.enqueuedAt := by
  rw [overdue] at h
  cases hb : s.background with
  | nil =>
    rw [hb] at h
    cases h
  | cons t rest =>
    rw [hb] at h
    exact ⟨t, rest, rfl, of_decide_eq_true h⟩

theorem nextTask_cases (h : 0 < s.queued) : ∃ p t rest flag, s.queue p = t :: rest ∧
    s.nextTask now = (some t, { s.setQueue p rest with lastWasOverdue := flag }) ∧
    (p = .interactive → flag = false ∧ (s.overdue now = true → s.lastWasOverdue = true)) ∧
    (p = .background → flag = s.overdue now ∧
      (s.interactive ≠ [] → s.overdue now = true ∧ s.lastWasOverdue = false)) := by
  rw [nextTask]
  split
  next hturn =>
    obtain ⟨hne, hturn⟩ := Bool.and_eq_true_iff.1 hturn
    cases hi : s.interactive with
    | nil =>
      rw [hi] at hne
      cases hne
    | cons t rest =>
      refine ⟨.interactive, t, rest, false, hi, rfl, fun _ => ⟨rfl, fun hover => ?_⟩, nofun⟩
      rw [hover] at hturn
      simpa using hturn
  next hturn =>
    have hcrowded : s.interactive ≠ [] → s.overdue now = true ∧ s.lastWasOverdue = false := by
      intro hne
      cases hi : s.interactive with
      | nil => exact absurd hi hne
      | cons =>
        rw [hi] at hturn
        simpa using hturn
    have hne : s.background ≠ [] := by
      obtain hi | hb := queued_pos_iff.1 h
      · obtain ⟨t, rest, hb, -⟩ := background_of_overdue (hcrowded hi).1
        rw [hb]
        exact cons_ne_nil _ _
      · exact hb
    cases hb : s.background with
    | nil => exact absurd hb hne
    | cons t rest =>
      exact ⟨.background, t, rest, s.overdue now, hb, rfl, nofun, fun _ => ⟨rfl, hcrowded⟩⟩

/-! ## Where tasks go -/

@[simp] theorem queue_setQueue_self (s : VisionPool) (p : VisionPriority) (q : List VisionTask) :
    (s.setQueue p q).queue p = q := by
  cases p <;> rfl

theorem queue_setQueue_of_ne {p' : VisionPriority} (s : VisionPool) (q : List VisionTask)
    (h : p' ≠ p) : (s.setQueue p q).queue p' = s.queue p' := by
  cases p <;> cases p' <;> first | rfl | exact absurd rfl h

@[simp] theorem slots_setQueue (s : VisionPool) (p : VisionPriority) (q : List VisionTask) :
    (s.setQueue p q).slots = s.slots := by
  cases p <;> rfl

theorem held_queue {q : List VisionTask} (h : (s.queue p).Perm (t :: q)) :
    s.held.Perm ((t.id, .queue p) :: (s.setQueue p q).held) := by
  cases p with
  | interactive =>
    exact (h.map fun t => (t.id, TaskPlace.queue .interactive)).append_right _
  | background =>
    have hq := (h.map fun t => (t.id, TaskPlace.queue .background)).append_right (slotsHeld s.slots)
    exact (hq.append_left _).trans perm_middle

theorem held_slots {e : Nat × TaskPlace} {slots : List VisionSlot}
    (h : (slotsHeld s.slots).Perm (e :: slotsHeld slots)) :
    s.held.Perm (e :: { s with slots }.held) := by
  have hq := (h.append_left (queueHeld .background s.background)).trans perm_middle
  exact (hq.append_left _).trans perm_middle

theorem slotsHeld_take (h : (s.slots.map (·.worker)).Nodup) (hsl : sl ∈ s.slots)
    (hnone : sl.task = none) (t : VisionTask) :
    (slotsHeld (s.setSlot sl.worker fun sl => { sl with task := some t }).slots).Perm
      ((t.id, .slot sl.worker) :: slotsHeld s.slots) := by
  obtain ⟨pre, post, hslots, hpre, hpost⟩ := split_slots h hsl
  rw [setSlot, hslots, map_split _ hpre hpost, slotsHeld_append, slotsHeld_append,
    slotsHeld_cons_none hnone]
  exact perm_middle

theorem slotsHeld_give (h : (s.slots.map (·.worker)).Nodup)
    (hsl : sl ∈ s.slots) (htask : sl.task = some t) :
    (slotsHeld s.slots).Perm ((t.id, .slot sl.worker) ::
      slotsHeld (s.setSlot sl.worker fun sl => { sl with task := none }).slots) := by
  obtain ⟨pre, post, hslots, hpre, hpost⟩ := split_slots h hsl
  rw [setSlot, hslots, map_split _ hpre hpost, slotsHeld_append, slotsHeld_append,
    slotsHeld_cons_some htask]
  exact perm_middle

/-! ## Starting a task -/

theorem startNext_eq (h : 0 < s.queued) (worker : Nat) : ∃ p t rest flag, s.queue p = t :: rest ∧
    (s.startNext worker now).held = ((s.setQueue p rest).setSlot worker fun sl =>
      { sl with task := some { t with startedAt := now } }).held ∧
    (∀ p', (s.startNext worker now).queue p' = (s.setQueue p rest).queue p') ∧
    s.startNext worker now =
      { ({ s.setQueue p rest with lastWasOverdue := flag }.setSlot worker fun sl =>
          { sl with task := some { t with startedAt := now } }) with
        log := s.log ++ [(t.id, .moved (.slot worker))]
        starts := s.starts ++ [{ task := { t with startedAt := now }, now
                                 interactive := s.interactive, background := s.background }] } ∧
    (p = .interactive → flag = false ∧ (s.overdue now = true → s.lastWasOverdue = true)) ∧
    (p = .background → flag = s.overdue now ∧
      (s.interactive ≠ [] → s.overdue now = true ∧ s.lastWasOverdue = false)) := by
  obtain ⟨p, t, rest, flag, hq, hnext, hinter, hback⟩ := @nextTask_cases s now h
  refine ⟨p, t, rest, flag, hq, ?_, ?_, ?_, hinter, hback⟩
  · rw [startNext, hnext]
    cases p <;> rfl
  · intro p'
    rw [startNext, hnext]
    cases p <;> cases p' <;> rfl
  · rw [startNext, hnext]

theorem startedIds_append (s : VisionPool) (x : TaskStart) (p : VisionPriority) :
    { s with starts := s.starts ++ [x] }.startedIds p =
      s.startedIds p ++ if x.task.priority = p then [x.task.id] else [] := by
  rw [startedIds, filter_append, map_append]
  by_cases hp : x.task.priority = p
  · have hpos : decide (x.task.priority = p) = true := decide_eq_true hp
    rw [if_pos hp, filter_cons, if_pos hpos]
    rfl
  · have hneg : ¬ decide (x.task.priority = p) = true := fun hd => hp (of_decide_eq_true hd)
    rw [if_neg hp, filter_cons, if_neg hneg]
    rfl

theorem passed_append (s : VisionPool) (x : TaskStart) (b : VisionTask) :
    { s with starts := s.starts ++ [x] }.passed b = s.passed b +
      if x.task.priority = .interactive ∧ x.background.head? = some b ∧
        s.opts.backgroundMaxWaitMs ≤ x.now - b.enqueuedAt then 1 else 0 := by
  rw [passed, countP_append, countP_singleton]
  simp only [decide_eq_true_eq]
  rfl

theorem head?_background {b : VisionTask} (h : s.background.head? = some b) : b ∈ s.background :=
  mem_of_mem_head? h

theorem Alternating.interactive (h : Alternating s)
    (hold : ∀ t ∈ s.background, t.id < s.nextId) {x : TaskStart}
    (hx : x.task.priority = .interactive) (hback : x.background = s.background)
    (hturn : s.overdue x.now = true → s.lastWasOverdue = true) :
    Alternating { s with starts := s.starts ++ [x], lastWasOverdue := false } := by
  have hcount : ∀ b, { s with starts := s.starts ++ [x] }.passed b = s.passed b ∨
      s.passed b = 0 ∧ { s with starts := s.starts ++ [x] }.passed b = 1 ∧
        s.background.head? = some b := by
    intro b
    rw [passed_append]
    split
    next hb =>
      obtain ⟨-, hhead, hover⟩ := hb
      rw [hback] at hhead
      have hoverdue : s.overdue x.now = true := by
        rw [overdue, hhead]
        exact decide_eq_true hover
      have hzero : s.passed b = 0 := by
        by_contra hne
        have hlast := (h.passedNext b (head?_background hhead) (Nat.pos_of_ne_zero hne)).2
        rw [hturn hoverdue] at hlast
        cases hlast
      exact .inr ⟨hzero, by rw [hzero], hhead⟩
    · exact .inl rfl
  refine ⟨fun b hb => ?_, fun b => ?_, fun b hb hpos => ?_, ?_, fun y hy hcrowded => ?_⟩
  · obtain heq | ⟨-, -, hhead⟩ := hcount b
    · exact h.passedOld b (heq ▸ hb)
    · exact hold b (head?_background hhead)
  · obtain heq | ⟨-, hone, -⟩ := hcount b
    · exact (Nat.le_of_eq heq).trans (h.passedOnce b)
    · exact Nat.le_of_eq hone
  · obtain heq | ⟨-, -, hhead⟩ := hcount b
    · exact ⟨(h.passedNext b hb (heq ▸ hpos)).1, rfl⟩
    · exact ⟨hhead, rfl⟩
  · refine isChain_append.2 ⟨h.crowded, .singleton x, fun y _ z hz hboth => ?_⟩
    obtain rfl := Option.some.inj hz
    have hpriority := hboth.2.1
    rw [hx] at hpriority
    cases hpriority
  · rw [getLast?_concat] at hy
    obtain rfl := Option.some.inj hy
    have hpriority := hcrowded.1
    rw [hx] at hpriority
    cases hpriority

theorem Alternating.background (h : Alternating s) {x : TaskStart}
    {rest : List VisionTask} (hq : s.background = t :: rest) (hnew : t ∉ rest)
    (hx : x.task.priority = .background) (hinter : x.interactive = s.interactive)
    (hturn : s.interactive ≠ [] → s.overdue now = true ∧ s.lastWasOverdue = false) :
    Alternating
      { s with
        background := rest, starts := s.starts ++ [x], lastWasOverdue := s.overdue now } := by
  have hcount : ∀ b, { s with starts := s.starts ++ [x] }.passed b = s.passed b := by
    intro b
    rw [passed_append, if_neg, Nat.add_zero]
    rintro ⟨hpriority, -⟩
    rw [hx] at hpriority
    cases hpriority
  refine ⟨fun b hb => ?_, fun b => ?_, fun b hb hpos => ?_, ?_, fun y hy hcrowded => ?_⟩
  · exact h.passedOld b (hcount b ▸ hb)
  · exact (Nat.le_of_eq (hcount b)).trans (h.passedOnce b)
  · have hmem : b ∈ s.background := by
      rw [hq]
      exact mem_cons_of_mem _ hb
    have hhead := (h.passedNext b hmem (hcount b ▸ hpos)).1
    rw [hq] at hhead
    obtain rfl := Option.some.inj hhead
    exact absurd hb hnew
  · refine isChain_append.2 ⟨h.crowded, .singleton x, fun y hy z hz hboth => ?_⟩
    obtain rfl := Option.some.inj hz
    have hne := hboth.2.2
    rw [hinter] at hne
    have hlast := h.crowdedLast y hy hboth.1
    rw [(hturn hne).2] at hlast
    cases hlast
  · rw [getLast?_concat] at hy
    obtain rfl := Option.some.inj hy
    have hne := hcrowded.2
    rw [hinter] at hne
    exact (hturn hne).1

theorem TasksOk.start (h : TasksOk s) (hpos : 0 < s.queued) (hsl : sl ∈ s.slots)
    (hfree : sl.free = true) (now : Int) : TasksOk (s.startNext sl.worker now) := by
  have hnone : sl.task = none := Option.isNone_iff_eq_none.1 (Bool.and_eq_true_iff.1 hfree).2
  obtain ⟨p, t, rest, flag, hq, hheld, hqueue, heq, hinter, hback⟩ :=
    @startNext_eq s now hpos sl.worker
  have ht : t ∈ s.queue p := hq ▸ mem_cons_self
  have hpriority := h.priority p t ht
  have hsub : ∀ p', ∀ t' ∈ (s.startNext sl.worker now).queue p', t' ∈ s.queue p' := by
    intro p' t' ht'
    rw [hqueue] at ht'
    by_cases hp : p' = p
    · subst hp
      rw [queue_setQueue_self] at ht'
      rw [hq]
      exact mem_cons_of_mem _ ht'
    · rwa [queue_setQueue_of_ne s rest hp] at ht'
  have hsorted := h.sorted p
  rw [hq, map_cons] at hsorted
  have hnew : t ∉ rest := by
    intro hmem
    have hlt := (pairwise_cons.1 (pairwise_append.1 hsorted).2.1).1 t.id
      (mem_map_of_mem hmem)
    omega
  have hnext : (s.startNext sl.worker now).nextId = s.nextId := by
    rw [heq]
    cases p <;> rfl
  have hslots : ((s.setQueue p rest).slots.map (·.worker)).Nodup := by
    exact h.workers
  have htaken := slotsHeld_take hslots (by rwa [slots_setQueue]) hnone { t with startedAt := now }
  refine ⟨?_, ?_, ?_, ?_, fun p' => ?_, fun p' t' ht' => ?_, ?_, fun p' t' ht' => ?_, ?_⟩
  · have hqueued : s.held.Perm ((t.id, .queue p) :: (s.setQueue p rest).held) :=
      held_queue (by rw [hq])
    have hmoved := (h.accounted.perm hqueued).move (.post p sl.worker)
    have hlog : (s.startNext sl.worker now).log = s.log ++ [(t.id, .moved (.slot sl.worker))] := by
      rw [heq]
    rw [hheld, hlog]
    exact hmoved.perm (held_slots htaken).symm
  · have hsame := workers_setSlot (s.setQueue p rest) sl.worker
      (fun sl => { sl with task := some { t with startedAt := now } }) fun _ => rfl
    rw [heq]
    show (((s.setQueue p rest).setSlot sl.worker _).slots.map (·.worker)).Nodup
    rw [hsame]
    exact hslots
  · rw [heq]
    cases p <;> exact workersOld_setSlot h.workersOld sl.worker _ fun _ => rfl
  · rw [heq]
    intro e he
    obtain he | rfl := mem_snoc.1 he
    · exact h.logged e he
    · exact h.old p t ht
  · have hids := startedIds_append s
      { task := { t with startedAt := now }, now, interactive := s.interactive
        background := s.background } p'
    have hstarted : (s.startNext sl.worker now).startedIds p' =
        s.startedIds p' ++ if t.priority = p' then [t.id] else [] := by
      rw [← hids, heq]
      rfl
    rw [hstarted, hqueue]
    by_cases hp : p' = p
    · subst hp
      rw [if_pos hpriority, queue_setQueue_self, append_assoc]
      exact hsorted
    · rw [if_neg fun hc => hp (hc.symm.trans hpriority), append_nil,
        queue_setQueue_of_ne s rest hp]
      exact h.sorted p'
  · rw [hnext]
    exact h.old p' t' (hsub p' t' ht')
  · rw [heq]
    intro x hx
    obtain hx | rfl := mem_snoc.1 hx
    · exact h.startedOld x hx
    · exact h.old p t ht
  · exact h.priority p' t' (hsub p' t' ht')
  · rw [heq]
    cases p with
    | interactive =>
      obtain ⟨rfl, hturn⟩ := hinter rfl
      have halt := h.alternating.interactive (h.old .background)
        (x := { task := { t with startedAt := now }, now, interactive := s.interactive
                background := s.background }) hpriority rfl hturn
      exact { halt with }
    | background =>
      obtain ⟨rfl, hturn⟩ := hback rfl
      have halt := h.alternating.background (x := { task := { t with startedAt := now }, now
                                                    interactive := s.interactive
                                                    background := s.background })
        hq hnew hpriority rfl hturn
      exact { halt with }

/-! ## Pumping -/

/-- Which of the workers are first ones, and which are ready. -/
def crew (s : VisionPool) : List (Bool × Bool) := s.slots.map fun sl => (sl.initial, sl.ready)

/-- What starting tasks leaves as it was. -/
structure Pumps (s s' : VisionPool) : Prop where
  opts : s'.opts = s.opts
  closed : s'.closed = s.closed
  timers : s'.timers = s.timers
  startFailed : s'.startFailed = s.startFailed
  crew : s'.crew = s.crew
  queues : ∀ p, (s'.queue p).length ≤ (s.queue p).length

theorem Pumps.refl (s : VisionPool) : Pumps s s :=
  ⟨rfl, rfl, rfl, rfl, rfl, fun _ => Nat.le_refl _⟩

theorem Pumps.trans {s₁ s₂ s₃ : VisionPool} (h : Pumps s₁ s₂) (h' : Pumps s₂ s₃) : Pumps s₁ s₃ :=
  ⟨h'.opts.trans h.opts, h'.closed.trans h.closed, h'.timers.trans h.timers,
    h'.startFailed.trans h.startFailed, h'.crew.trans h.crew,
    fun p => (h'.queues p).trans (h.queues p)⟩

theorem crew_setSlot (s : VisionPool) (worker : Nat) (f : VisionSlot → VisionSlot)
    (hinitial : ∀ sl, (f sl).initial = sl.initial) (hready : ∀ sl, (f sl).ready = sl.ready) :
    (s.setSlot worker f).crew = s.crew := by
  rw [crew, setSlot, map_map]
  refine map_congr_left fun sl _ => ?_
  simp only [Function.comp_apply]
  split
  · rw [hinitial, hready]
  · rfl

theorem queued_eq (s : VisionPool) :
    s.queued = (s.queue .interactive).length + (s.queue .background).length := rfl

theorem queue_length_le (s : VisionPool) (p : VisionPriority) : (s.queue p).length ≤ s.queued := by
  cases p with
  | interactive => exact Nat.le_add_right _ _
  | background => exact Nat.le_add_left _ _

theorem startNext_pumps (h : 0 < s.queued) (worker : Nat) (now : Int) :
    Pumps s (s.startNext worker now) ∧ (s.startNext worker now).queued + 1 = s.queued := by
  obtain ⟨p, t, rest, flag, hq, -, hqueue, heq, -, -⟩ := @startNext_eq s now h worker
  refine ⟨⟨?_, ?_, ?_, ?_, ?_, fun p' => ?_⟩, ?_⟩
  · rw [heq]
    cases p <;> rfl
  · rw [heq]
    cases p <;> rfl
  · rw [heq]
    cases p <;> rfl
  · rw [heq]
    cases p <;> rfl
  · have hcrew := crew_setSlot (s.setQueue p rest) worker
      (fun sl => { sl with task := some { t with startedAt := now } }) (fun _ => rfl) fun _ => rfl
    rw [heq]
    cases p <;> exact hcrew
  · rw [hqueue]
    by_cases hp : p' = p
    · subst hp
      rw [queue_setQueue_self, hq]
      exact Nat.le_succ _
    · rw [queue_setQueue_of_ne s rest hp]
  · rw [queued_eq, queued_eq, hqueue, hqueue]
    cases p with
    | interactive =>
      have hother : VisionPriority.background ≠ .interactive := nofun
      rw [queue_setQueue_self, queue_setQueue_of_ne s rest hother, hq, length_cons]
      omega
    | background =>
      have hother : VisionPriority.interactive ≠ .background := nofun
      rw [queue_setQueue_self, queue_setQueue_of_ne s rest hother, hq, length_cons]
      omega

theorem pumpRounds_ok (rounds : Nat) (h : TasksOk s) (now : Int) :
    TasksOk (pumpRounds now rounds s) ∧ Pumps s (pumpRounds now rounds s) := by
  induction rounds generalizing s with
  | zero => exact ⟨h, .refl s⟩
  | succ rounds ih =>
    rw [pumpRounds]
    split
    · exact ⟨h, .refl s⟩
    next hne =>
      split
      · exact ⟨h, .refl s⟩
      next sl hfind =>
        have hpos := Nat.pos_of_ne_zero hne
        obtain ⟨hok, hpumps⟩ :=
          ih (h.start hpos (mem_of_find?_eq_some hfind) (find?_some hfind :) now)
        exact ⟨hok, (startNext_pumps hpos sl.worker now).1.trans hpumps⟩

theorem pumpRounds_done (rounds : Nat) (h : s.queued ≤ rounds) (now : Int) :
    (pumpRounds now rounds s).queued = 0 ∨
      ∀ sl ∈ (pumpRounds now rounds s).slots, ¬ sl.free = true := by
  induction rounds generalizing s with
  | zero => exact .inl (Nat.le_zero.1 h)
  | succ rounds ih =>
    rw [pumpRounds]
    split
    next hzero => exact .inl hzero
    next hne =>
      split
      next hfind => exact .inr (find?_eq_none.1 hfind)
      next sl hfind =>
        have hone := (startNext_pumps (Nat.pos_of_ne_zero hne) sl.worker now).2
        exact ih (by omega)

theorem pumpRounds_lt (rounds : Nat) (hrounds : 0 < rounds) (h : TasksOk s) (hpos : 0 < s.queued)
    (hsl : sl ∈ s.slots) (hfree : sl.free = true) (now : Int) :
    (pumpRounds now rounds s).queued < s.queued := by
  obtain ⟨rounds, rfl⟩ := Nat.exists_eq_add_of_le' hrounds
  rw [pumpRounds, if_neg (Nat.ne_of_gt hpos)]
  split
  next hfind => exact absurd hfree (find?_eq_none.1 hfind sl hsl)
  next sl' hfind =>
    have hone := (startNext_pumps hpos sl'.worker now).2
    have hok := h.start hpos (mem_of_find?_eq_some hfind) (find?_some hfind :) now
    have hpumps := (pumpRounds_ok rounds hok now).2
    have hi := hpumps.queues .interactive
    have hb := hpumps.queues .background
    rw [queued_eq] at hone ⊢
    omega

theorem pump_ok (h : TasksOk s) (now : Int) : TasksOk (s.pump now) ∧ Pumps s (s.pump now) :=
  pumpRounds_ok s.queued h now

theorem pump_done (s : VisionPool) (now : Int) :
    (s.pump now).queued = 0 ∨ ∀ sl ∈ (s.pump now).slots, ¬ sl.free = true :=
  pumpRounds_done s.queued (Nat.le_refl _) now

/-! ## The other moves -/

variable {s' : VisionPool}

theorem Alternating.keep (h : Alternating s) (hstarts : s'.starts = s.starts)
    (hopts : s'.opts = s.opts) (hlast : s'.lastWasOverdue = s.lastWasOverdue)
    (hnext : s.nextId ≤ s'.nextId)
    (hback : ∀ b ∈ s'.background, 0 < s.passed b →
      b ∈ s.background ∧ (s.background.head? = some b → s'.background.head? = some b)) :
    Alternating s' := by
  have hpassed : ∀ b, s'.passed b = s.passed b := by
    intro b
    rw [passed, passed, hstarts, hopts]
  refine ⟨fun b hb => ?_, fun b => ?_, fun b hb hpos => ?_, ?_, fun x hx hcrowded => ?_⟩
  · rw [hpassed] at hb
    exact Nat.lt_of_lt_of_le (h.passedOld b hb) hnext
  · rw [hpassed]
    exact h.passedOnce b
  · rw [hpassed] at hpos
    obtain ⟨hmem, hhead⟩ := hback b hb hpos
    obtain ⟨hfirst, hl⟩ := h.passedNext b hmem hpos
    exact ⟨hhead hfirst, hlast.trans hl⟩
  · rw [hstarts]
    exact h.crowded
  · rw [hstarts] at hx
    exact hlast.trans (h.crowdedLast x hx hcrowded)

theorem passages_eq_nil {κ π ρ : Type} [DecidableEq κ] {log : List (κ × Passage π ρ)} {k : κ}
    (h : ∀ e ∈ log, e.1 ≠ k) : passages log k = [] :=
  filterMap_eq_nil_iff.2 fun e he => if_neg (h e he)

theorem queue_push (s : VisionPool) (t : VisionTask) (signal : Bool) (p : VisionPriority) :
    (s.push t signal).queue p = (s.setQueue t.priority (s.queue t.priority ++ [t])).queue p := by
  rw [push]
  cases t.priority <;> cases p <;> rfl

theorem queued_push (s : VisionPool) (t : VisionTask) (signal : Bool) :
    (s.push t signal).queued = s.queued + 1 := by
  show ((s.push t signal).queue .interactive).length +
    ((s.push t signal).queue .background).length = _
  rw [queue_push, queue_push]
  cases t.priority with
  | interactive =>
    show (s.interactive ++ [t]).length + s.background.length = _
    rw [length_append, length_singleton, queued]
    omega
  | background =>
    show s.interactive.length + (s.background ++ [t]).length = _
    rw [length_append, length_singleton, queued]
    omega

/-- A new task is queued. -/
theorem TasksOk.push (h : TasksOk s) (hid : t.id = s.nextId) (signal : Bool) :
    TasksOk (s.push t signal) := by
  have hcases : ∀ p', ∀ t' ∈ (s.push t signal).queue p', t' ∈ s.queue p' ∨ t' = t ∧ p' = t.priority := by
    intro p' t' ht'
    rw [queue_push] at ht'
    by_cases hpp : p' = t.priority
    · subst hpp
      rw [queue_setQueue_self] at ht'
      exact (mem_append.1 ht').imp_right fun hm => ⟨mem_singleton.1 hm, rfl⟩
    · rw [queue_setQueue_of_ne _ _ hpp] at ht'
      exact .inl ht'
  refine ⟨?_, ?_, ?_, ?_, fun p' => ?_, fun p' t' ht' => ?_, ?_, fun p' t' ht' => ?_, ?_⟩
  · have hfresh : passages s.log t.id = [] := passages_eq_nil fun e he => by
      have hlt := h.logged e he
      omega
    have hq : ((s.setQueue t.priority (s.queue t.priority ++ [t])).queue t.priority).Perm
        (t :: s.queue t.priority) := by
      rw [queue_setQueue_self]
      exact perm_append_singleton t (s.queue t.priority)
    have hback : (s.setQueue t.priority (s.queue t.priority ++ [t])).setQueue t.priority
        (s.queue t.priority) = s := by
      cases t.priority <;> rfl
    have hperm := held_queue hq
    rw [hback] at hperm
    exact (h.accounted.enter hfresh ⟨t.priority, rfl⟩).perm hperm.symm
  · exact h.workers
  · exact h.workersOld
  · intro e he
    obtain he | rfl := mem_snoc.1 he
    · exact Nat.lt_succ_of_lt (h.logged e he)
    · rw [hid]
      exact Nat.lt_succ_self _
  · rw [queue_push]
    by_cases hpp : p' = t.priority
    · subst hpp
      rw [queue_setQueue_self, map_append, ← append_assoc]
      refine pairwise_append.2 ⟨h.sorted _, pairwise_singleton _ _, fun k hk k' hk' => ?_⟩
      rw [map_singleton, mem_singleton] at hk'
      rw [hk', hid]
      obtain hk | hk := mem_append.1 hk
      · obtain ⟨x, hx, rfl⟩ := mem_map.1 hk
        exact h.startedOld x (mem_of_mem_filter hx)
      · obtain ⟨t', ht', rfl⟩ := mem_map.1 hk
        exact h.old _ t' ht'
    · rw [queue_setQueue_of_ne _ _ hpp]
      exact h.sorted p'
  · obtain hm | ⟨rfl, -⟩ := hcases p' t' ht'
    · exact Nat.lt_succ_of_lt (h.old p' t' hm)
    · rw [hid]
      exact Nat.lt_succ_self _
  · exact fun x hx => Nat.lt_succ_of_lt (h.startedOld x hx)
  · obtain hm | ⟨rfl, rfl⟩ := hcases p' t' ht'
    · exact h.priority p' t' hm
    · rfl
  · refine h.alternating.keep rfl rfl rfl (Nat.le_succ _) fun b hb hpos => ?_
    obtain hm | ⟨rfl, -⟩ := hcases .background b hb
    · refine ⟨hm, fun hhead => ?_⟩
      show ((s.push t signal).queue .background).head? = some b
      rw [queue_push]
      cases t.priority with
      | interactive => exact hhead
      | background =>
        show (s.background ++ [t]).head? = some b
        rw [head?_append, hhead]
        rfl
    · have hlt := h.alternating.passedOld b hpos
      omega

theorem TasksOk.drop (h : TasksOk s) (hqueue : ∀ p, (s'.queue p).Sublist (s.queue p))
    (haccounted : Accounted taskLayout s'.held s'.log)
    (hslots : s'.slots = s.slots) (hworker : s'.nextWorker = s.nextWorker)
    (hlogged : ∀ e ∈ s'.log, e ∈ s.log ∨ ∃ p, ∃ t ∈ s.queue p, e.1 = t.id)
    (hnext : s'.nextId = s.nextId) (hstarts : s'.starts = s.starts) (hopts : s'.opts = s.opts)
    (hlast : s'.lastWasOverdue = s.lastWasOverdue)
    (hhead : ∀ b ∈ s'.background, s.background.head? = some b → s'.background.head? = some b) :
    TasksOk s' := by
  refine ⟨haccounted, ?_, ?_, ?_, fun p => ?_, fun p t ht => ?_, ?_, fun p t ht => ?_, ?_⟩
  · rw [hslots]
    exact h.workers
  · rw [hslots, hworker]
    exact h.workersOld
  · rw [hnext]
    intro e he
    obtain he | ⟨p, t, ht, heq⟩ := hlogged e he
    · exact h.logged e he
    · rw [heq]
      exact h.old p t ht
  · have hstarted : s'.startedIds p = s.startedIds p := by
      rw [startedIds, startedIds, hstarts]
    rw [hstarted]
    exact (h.sorted p).sublist (((hqueue p).map _).append_left _)
  · rw [hnext]
    exact h.old p t ((hqueue p).subset ht)
  · rw [hnext, hstarts]
    exact h.startedOld
  · exact h.priority p t ((hqueue p).subset ht)
  · exact h.alternating.keep hstarts hopts hlast (Nat.le_of_eq hnext.symm) fun b hb _ =>
      ⟨(hqueue .background).subset hb, hhead b hb⟩

theorem TasksOk.reslot (h : TasksOk s) (hqueue : ∀ p, s'.queue p = s.queue p)
    (haccounted : Accounted taskLayout s'.held s'.log)
    (hworkers : (s'.slots.map (·.worker)).Nodup)
    (hworkersOld : ∀ sl ∈ s'.slots, sl.worker < s'.nextWorker)
    (hlogged : ∀ e ∈ s'.log, e.1 < s.nextId) (hnext : s'.nextId = s.nextId)
    (hstarts : s'.starts = s.starts) (hopts : s'.opts = s.opts)
    (hlast : s'.lastWasOverdue = s.lastWasOverdue) : TasksOk s' := by
  refine ⟨haccounted, hworkers, hworkersOld, ?_, fun p => ?_, fun p t ht => ?_, ?_,
    fun p t ht => ?_, ?_⟩
  · rw [hnext]
    exact hlogged
  · have hstarted : s'.startedIds p = s.startedIds p := by
      rw [startedIds, startedIds, hstarts]
    rw [hstarted, hqueue]
    exact h.sorted p
  · rw [hqueue] at ht
    rw [hnext]
    exact h.old p t ht
  · rw [hnext, hstarts]
    exact h.startedOld
  · rw [hqueue] at ht
    exact h.priority p t ht
  · have hback : s'.background = s.background := hqueue .background
    refine h.alternating.keep hstarts hopts hlast (Nat.le_of_eq hnext.symm) fun b hb _ => ?_
    rw [hback] at hb ⊢
    exact ⟨hb, id⟩

theorem TasksOk.setSlot (h : TasksOk s) (worker : Nat) (f : VisionSlot → VisionSlot)
    (hworker : ∀ sl, (f sl).worker = sl.worker) (htask : ∀ sl, (f sl).task = sl.task) :
    TasksOk (s.setSlot worker f) := by
  refine h.reslot (fun _ => rfl) ?_ ?_ (workersOld_setSlot h.workersOld worker f hworker)
    h.logged rfl rfl rfl rfl
  · have hslots : slotsHeld (s.setSlot worker f).slots = slotsHeld s.slots :=
      slotsHeld_map s.slots worker f hworker htask
    have hheld : (s.setSlot worker f).held = s.held := by
      rw [held, hslots]
      rfl
    rw [hheld]
    exact h.accounted
  · rw [workers_setSlot s worker f hworker]
    exact h.workers

/-! ## Between the events -/

/-- What holds when no handler runs. -/
structure PoolOk (opts : VisionPoolOptions) (s : VisionPool) : Prop where
  fixed : s.opts = opts
  tasks : TasksOk s
  bounded : ∀ p, (s.queue p).length ≤ opts.maxQueue
  busy : ∀ sl ∈ s.slots, sl.free = true → s.queued = 0
  closed : s.closed = true → s.queued = 0
  /-- Nothing is submitted before the pool is handed out. -/
  unopened : s.startFailed = true ∨ (true, false) ∈ s.crew → s.queued = 0
  /-- A worker is there, or one will be tried. -/
  staffed : s.startFailed = true ∨ s.closed = true ∨ s.slots ≠ [] ∨ s.timers ≠ []

theorem crew_eq_nil_iff : s.crew = [] ↔ s.slots = [] := by
  rw [crew, map_eq_nil_iff]

theorem PoolOk.shrink (h : PoolOk opts s) (hopts : s'.opts = s.opts)
    (htasks : TasksOk s') (hle : ∀ p, (s'.queue p).length ≤ (s.queue p).length)
    (hfree : s'.queued = 0 ∨
      ∀ sl' ∈ s'.slots, sl'.free = true → ∃ sl ∈ s.slots, sl.free = true)
    (hclosed : s'.closed = true → s.closed = true ∨ s'.queued = 0)
    (hunopened : s'.startFailed = true ∨ (true, false) ∈ s'.crew →
      s.startFailed = true ∨ (true, false) ∈ s.crew)
    (hstaffed : s'.startFailed = true ∨ s'.closed = true ∨ s'.slots ≠ [] ∨ s'.timers ≠ []) :
    PoolOk opts s' := by
  have hzero : s.queued = 0 → s'.queued = 0 := by
    intro hz
    have hi := hle .interactive
    have hb := hle .background
    rw [queued_eq] at hz ⊢
    omega
  refine ⟨hopts.trans h.fixed, htasks, fun p => (hle p).trans (h.bounded p), fun sl' hsl' hf => ?_,
    fun hc => ?_, fun hu => hzero (h.unopened (hunopened hu)), hstaffed⟩
  · obtain hz | hfree := hfree
    · exact hz
    · obtain ⟨sl, hsl, hf⟩ := hfree sl' hsl' hf
      exact hzero (h.busy sl hsl hf)
  · obtain hc | hz := hclosed hc
    · exact hzero (h.closed hc)
    · exact hz

theorem PoolOk.of_pump (hopts : s.opts = opts) (h : TasksOk s) (now : Int)
    (hbounded : ∀ p, ((s.pump now).queue p).length ≤ opts.maxQueue)
    (hclosed : s.closed = true → s.queued = 0)
    (hunopened : s.startFailed = true ∨ (true, false) ∈ s.crew → s.queued = 0)
    (hstaffed : s.startFailed = true ∨ s.closed = true ∨ s.slots ≠ [] ∨ s.timers ≠ []) :
    PoolOk opts (s.pump now) := by
  obtain ⟨hok, hpumps⟩ := pump_ok h now
  have hzero : s.queued = 0 → (s.pump now).queued = 0 := by
    intro hz
    have hi := hpumps.queues .interactive
    have hb := hpumps.queues .background
    rw [queued_eq] at hz ⊢
    omega
  refine ⟨hpumps.opts.trans hopts, hok, hbounded, fun sl hsl hfree => ?_, fun hc => ?_,
    fun hu => ?_, ?_⟩
  · obtain hzero | hnone := pump_done s now
    · exact hzero
    · exact absurd hfree (hnone sl hsl)
  · exact hzero (hclosed (hpumps.closed ▸ hc))
  · rw [hpumps.startFailed, hpumps.crew] at hu
    exact hzero (hunopened hu)
  · rw [hpumps.startFailed, hpumps.closed, hpumps.timers, ne_eq (s.pump now).slots,
      ← crew_eq_nil_iff, hpumps.crew, crew_eq_nil_iff]
    exact hstaffed

theorem PoolOk.awaited (h : PoolOk opts s) (hpos : 0 < s.queued) :
    s.slots ≠ [] ∨ s.timers ≠ [] := by
  obtain hfailed | hclosed | hthere := h.staffed
  · have hzero := h.unopened (.inl hfailed)
    omega
  · have hzero := h.closed hclosed
    omega
  · exact hthere

/-! ## The events -/

theorem PoolOk.submit (h : PoolOk opts s) (hopen : s.Open) (priority : VisionPriority)
    (signal : Option Bool) (now : Int) : PoolOk opts (s.submit priority signal now).2 := by
  rw [VisionPool.submit]
  split
  · exact h
  next hclosed =>
    split
    · exact h
    · split
      · exact h
      next hroom =>
        have hcrew : ¬ (s.startFailed = true ∨ (true, false) ∈ s.crew) := by
          rintro (hfailed | hstarting)
          · rw [hopen.1] at hfailed
            cases hfailed
          · obtain ⟨sl, hsl, heq⟩ := mem_map.1 hstarting
            obtain ⟨hinitial, hready⟩ := Prod.mk.inj heq
            rw [hopen.2 sl hsl hinitial] at hready
            cases hready
        let t : VisionTask := { id := s.nextId, priority, enqueuedAt := now }
        have hpushed : TasksOk (s.push t signal.isSome) := h.tasks.push rfl signal.isSome
        have hpumps := (pump_ok hpushed now).2
        refine .of_pump (s := s.push t signal.isSome) h.fixed hpushed now (fun p => ?_)
          (fun hc => absurd hc hclosed) (fun hu => absurd hu hcrew) h.staffed
        by_cases hfree : s.slots.any (·.free) = true
        · -- a free worker takes it at once
          obtain ⟨sl, hsl, hf⟩ := any_eq_true.1 hfree
          have hone := queued_push s t signal.isSome
          rw [h.busy sl hsl hf] at hone
          have hpos : 0 < (s.push t signal.isSome).queued := by omega
          have hlt := pumpRounds_lt _ hpos hpushed hpos hsl hf now
          have hzero : ((s.push t signal.isSome).pump now).queued = 0 := by
            rw [pump]
            omega
          have hle := queue_length_le ((s.push t signal.isSome).pump now) p
          omega
        · have hlen : ((s.push t signal.isSome).queue p).length ≤ opts.maxQueue := by
            have hroom' : (s.queue priority).length < s.opts.maxQueue := by
              rw [Bool.not_eq_true] at hfree
              rw [hfree] at hroom
              simpa using hroom
            rw [h.fixed] at hroom'
            rw [queue_push]
            by_cases hp : p = priority
            · subst hp
              rw [queue_setQueue_self, length_append]
              exact hroom'
            · rw [queue_setQueue_of_ne _ _ hp]
              exact h.bounded p
          exact (hpumps.queues p).trans hlen

theorem find_worker {worker : Nat}
    (h : (s.slots.find? fun sl => decide (sl.worker = worker)) = some sl) :
    sl ∈ s.slots ∧ sl.worker = worker :=
  ⟨mem_of_find?_eq_some h, of_decide_eq_true (find?_some h :)⟩

theorem head?_erase {l : List VisionTask} (hnodup : l.Nodup) {t b : VisionTask} (hb : b ∈ l.erase t)
    (hhead : l.head? = some b) : (l.erase t).head? = some b := by
  cases l with
  | nil => cases hhead
  | cons x rest =>
    obtain rfl := Option.some.inj hhead
    by_cases hx : x = t
    · subst hx
      rw [erase_cons_head] at hb
      exact absurd hb (nodup_cons.1 hnodup).1
    · rw [erase_cons_tail (by simpa using hx)]
      rfl

theorem TasksOk.nodup (h : TasksOk s) (p : VisionPriority) : (s.queue p).Nodup := by
  have hsorted := (pairwise_append.1 (h.sorted p)).2.1
  exact List.Nodup.of_map _ (hsorted.imp fun hlt => Nat.ne_of_lt hlt)

theorem PoolOk.aborted (h : PoolOk opts s) (priority : VisionPriority) (id : Nat) :
    PoolOk opts (s.aborted priority id) := by
  have hsame : PoolOk opts { s with listeners := s.listeners.erase (priority, id) } := by
    have htasks : TasksOk { s with listeners := s.listeners.erase (priority, id) } :=
      { h.tasks with alternating := { h.tasks.alternating with } }
    exact { h with tasks := htasks }
  rw [VisionPool.aborted]
  generalize ({ s with listeners := s.listeners.erase (priority, id) } : VisionPool) = s₁ at hsame
  split
  next task hfind =>
    split
    · exact hsame
    · obtain hid : task.id = id := of_decide_eq_true (find?_some hfind :)
      have hmem : task ∈ s₁.queue priority := mem_of_find?_eq_some hfind
      have hsub : ∀ p, ((s₁.setQueue priority ((s₁.queue priority).erase task)).queue p).Sublist
          (s₁.queue p) := by
        intro p
        by_cases hp : p = priority
        · subst hp
          rw [queue_setQueue_self]
          exact erase_sublist
        · rw [queue_setQueue_of_ne _ _ hp]
      have htasks : TasksOk ((s₁.setQueue priority ((s₁.queue priority).erase task)).settle id
          .cancelled) := by
        refine hsame.tasks.drop (fun p => ?_) ?_ rfl rfl (fun e he => ?_) rfl rfl rfl rfl fun b hb hhead => ?_
        · have hp := hsub p
          cases p <;> exact hp
        · have hperm := held_queue (perm_cons_erase hmem)
          rw [hid] at hperm
          exact (hsame.tasks.accounted.perm hperm).leave (.cancelled priority)
        · obtain he | rfl := mem_snoc.1 he
          · exact .inl he
          · exact .inr ⟨priority, task, hmem, hid.symm⟩
        · cases priority with
          | interactive => exact hhead
          | background => exact head?_erase (hsame.tasks.nodup .background) hb hhead
      refine hsame.shrink rfl htasks (fun p => ?_) (.inr fun sl hsl hf => ⟨sl, hsl, hf⟩) .inl
        (fun hu => hu) hsame.staffed
      have hp := (hsub p).length_le
      cases p <;> exact hp
  · exact hsame

theorem PoolOk.pumped (h : PoolOk opts s) (htasks : TasksOk s')
    (hopts : s'.opts = s.opts) (hqueue : ∀ p, s'.queue p = s.queue p)
    (hclosed : s'.closed = s.closed) (hunopened : s'.startFailed = true ∨ (true, false) ∈ s'.crew →
      s.startFailed = true ∨ (true, false) ∈ s.crew)
    (hstaffed : s'.startFailed = true ∨ s'.closed = true ∨ s'.slots ≠ [] ∨ s'.timers ≠ [])
    (now : Int) : PoolOk opts (s'.pump now) := by
  have hqueued : s'.queued = s.queued := by
    rw [queued_eq, queued_eq, hqueue, hqueue]
  refine .of_pump (hopts.trans h.fixed) htasks now (fun p => ?_) (fun hc => ?_) (fun hu =>
    ?_) hstaffed
  · refine ((pump_ok htasks now).2.queues p).trans ?_
    rw [hqueue]
    exact h.bounded p
  · rw [hqueued]
    exact h.closed (hclosed ▸ hc)
  · rw [hqueued]
    exact h.unopened (hunopened hu)

theorem slots_ne_nil_setSlot (worker : Nat) (f : VisionSlot → VisionSlot) :
    (s.setSlot worker f).slots ≠ [] ↔ s.slots ≠ [] := by
  rw [setSlot, ne_eq, map_eq_nil_iff]

theorem PoolOk.onReady (h : PoolOk opts s) (worker : Nat) (now : Int) :
    PoolOk opts (s.onReady worker now) := by
  have hslot := h.tasks.setSlot worker (fun sl => { sl with ready := true }) (fun _ => rfl)
    fun _ => rfl
  have htasks : TasksOk { s.setSlot worker (fun sl => { sl with ready := true }) with
      respawnFailures := 0, lastInitError := none } :=
      { hslot with alternating := { hslot.alternating with } }
  refine h.pumped htasks rfl (fun _ => rfl) rfl (fun hu => ?_) ?_ now
  · refine hu.imp_right fun hcrew => ?_
    obtain ⟨sl', hsl', heq⟩ := mem_map.1 hcrew
    obtain ⟨sl, hsl, rfl⟩ := mem_map.1 hsl'
    refine mem_map.2 ⟨sl, hsl, ?_⟩
    by_cases hw : sl.worker = worker
    · rw [if_pos hw] at heq
      exact absurd (Prod.mk.inj heq).2 nofun
    · rwa [if_neg hw] at heq
  · refine h.staffed.imp_right fun hst => hst.imp_right fun hst => hst.imp_left fun hne => ?_
    exact (slots_ne_nil_setSlot worker _).2 hne

theorem taskEnded_eq (s : VisionPool) (task : VisionTask) (ok : Bool) (now : Int) :
    ∃ serviceMs serviceMeasured,
      s.taskEnded task ok now = { s with serviceMs, serviceMeasured } := by
  rw [taskEnded]
  cases ok with
  | true => exact ⟨_, _, rfl⟩
  | false => exact ⟨s.serviceMs, s.serviceMeasured, rfl⟩

/-- A worker's task is settled. -/
theorem TasksOk.finish (h : TasksOk s) (hsl : sl ∈ s.slots)
    (htask : sl.task = some t) {r : Settlement} (hr : TaskExit (.slot sl.worker) r)
    (ok : Bool) (now : Int) : TasksOk
      (((s.setSlot sl.worker fun sl => { sl with task := none }).taskEnded t ok now).settle t.id r) := by
  obtain ⟨serviceMs, serviceMeasured, hended⟩ :=
    taskEnded_eq (s.setSlot sl.worker fun sl => { sl with task := none }) t ok now
  have hgiven := h.accounted.perm (held_slots (slotsHeld_give h.workers hsl htask))
  have haccounted := hgiven.leave hr
  obtain ⟨e, he, heq⟩ := hgiven.logged
  have hlt : t.id < s.nextId := heq ▸ h.logged e he
  rw [hended]
  refine h.reslot (fun _ => rfl) haccounted ?_ ?_ (fun e he => ?_) rfl rfl rfl rfl
  · have hsame := workers_setSlot s sl.worker (fun sl => { sl with task := none }) fun _ => rfl
    exact hsame ▸ h.workers
  · exact workersOld_setSlot h.workersOld sl.worker (fun sl => { sl with task := none }) fun _ => rfl
  · obtain he | rfl := mem_snoc.1 he
    · exact h.logged e he
    · exact hlt

theorem PoolOk.onResult (h : PoolOk opts s) (worker id : Nat) (outcome : Except WorkerError Unit)
    (now : Int) : PoolOk opts (s.onResult worker id outcome now) := by
  rw [VisionPool.onResult]
  split
  next sl hfind =>
    obtain ⟨hsl, rfl⟩ := find_worker hfind
    split
    next task htask =>
      split
      · exact h
      next hid =>
        rw [not_not] at hid
        subst hid
        have hcrew := crew_setSlot s sl.worker (fun sl => { sl with task := none }) (fun _ => rfl)
          fun _ => rfl
        have hne := slots_ne_nil_setSlot (s := s) sl.worker fun sl => { sl with task := none }
        have hrest : ∀ (r : Settlement) (ok : Bool), TaskExit (.slot sl.worker) r → PoolOk opts
            ((((s.setSlot sl.worker fun sl => { sl with task := none }).taskEnded task ok
              now).settle task.id r).pump now) := by
          intro r ok hr
          have htasks := h.tasks.finish hsl htask hr ok now
          obtain ⟨serviceMs, serviceMeasured, hended⟩ :=
            taskEnded_eq (s.setSlot sl.worker fun sl => { sl with task := none }) task ok now
          rw [hended] at htasks ⊢
          refine h.pumped htasks rfl (fun _ => rfl) rfl (fun hu => ?_) ?_ now
          · exact hu.imp_right fun hc => hcrew ▸ hc
          · exact h.staffed.imp_right fun hst => hst.imp_right fun hst => hst.imp_left hne.2
        cases outcome with
        | ok => exact hrest .resolved true (.resolved _)
        | error e => exact hrest (.failed e) false (.failed _ e)
    · exact h
  · exact h

theorem PoolOk.onError (h : PoolOk opts s) (worker : Nat) (e : WorkerError) :
    PoolOk opts (s.onError worker e) := by
  have htasks := h.tasks.setSlot worker (fun sl => { sl with exitError := some e }) (fun _ => rfl)
    fun _ => rfl
  have hcrew := crew_setSlot s worker (fun sl => { sl with exitError := some e }) (fun _ => rfl)
    fun _ => rfl
  refine h.shrink rfl htasks (fun _ => Nat.le_refl _) (.inr fun sl' hsl' hf => ?_)
    .inl (fun hu => hu.imp_right fun hc => hcrew ▸ hc) ?_
  · obtain ⟨sl, hsl, rfl⟩ := mem_map.1 hsl'
    refine ⟨sl, hsl, ?_⟩
    by_cases hw : sl.worker = worker
    · rwa [if_pos hw] at hf
    · rwa [if_neg hw] at hf
  · refine h.staffed.imp_right fun hst => hst.imp_right fun hst => hst.imp_left fun hne => ?_
    exact (slots_ne_nil_setSlot worker _).2 hne

theorem PoolOk.onTimer (h : PoolOk opts s) (k : Nat) : PoolOk opts (s.onTimer k) := by
  have hfired : TasksOk { s with timers := s.timers.eraseIdx k } :=
      { h.tasks with alternating := { h.tasks.alternating with } }
  rw [VisionPool.onTimer]
  split
  next hclosed =>
    refine h.shrink rfl hfired (fun _ => Nat.le_refl _)
      (.inr fun sl hsl hf => ⟨sl, hsl, hf⟩) .inl (fun hu => hu) (.inr (.inl hclosed))
  · have hspawned : TasksOk ({ s with timers := s.timers.eraseIdx k }.spawn false) := by
      refine hfired.reslot (fun _ => rfl) ?_ ?_ (fun sl hsl => ?_) hfired.logged rfl rfl
        rfl rfl
      · have hslots : slotsHeld (s.slots ++ [{ worker := s.nextWorker }]) = slotsHeld s.slots := by
          rw [slotsHeld_append]
          exact append_nil _
        have hheld : ({ s with timers := s.timers.eraseIdx k }.spawn false).held = s.held := by
          show _ ++ (_ ++ slotsHeld (s.slots ++ [{ worker := s.nextWorker }])) = _
          rw [hslots]
          rfl
        rw [hheld]
        exact h.tasks.accounted
      · show (map (fun sl : VisionSlot => sl.worker) (s.slots ++ [_])).Nodup
        rw [map_append, nodup_append]
        refine ⟨h.tasks.workers, nodup_singleton _, fun w hw w' hw' heq => ?_⟩
        obtain ⟨sl, hsl, rfl⟩ := mem_map.1 hw
        rw [map_singleton, mem_singleton] at hw'
        have hlt := h.tasks.workersOld sl hsl
        rw [heq, hw'] at hlt
        exact Nat.lt_irrefl _ hlt
      · obtain hsl | rfl := mem_snoc.1 hsl
        · exact Nat.lt_succ_of_lt (h.tasks.workersOld sl hsl)
        · exact Nat.lt_succ_self _
    refine h.shrink rfl hspawned (fun _ => Nat.le_refl _)
      (.inr fun sl hsl hf => ?_) .inl (fun hu => ?_) (.inr (.inr (.inl ?_)))
    · obtain hsl | hsl := mem_append.1 hsl
      · exact ⟨sl, hsl, hf⟩
      · rw [mem_singleton.1 hsl] at hf
        cases hf
    · refine hu.imp_right fun hc => ?_
      obtain ⟨sl, hsl, heq⟩ := mem_map.1 hc
      obtain hsl | hsl := mem_append.1 hsl
      · exact mem_map.2 ⟨sl, hsl, heq⟩
      · rw [mem_singleton.1 hsl] at heq
        cases heq
    · exact append_ne_nil_of_right_ne_nil _ (cons_ne_nil _ _)

/-- Everything that waits is failed. -/
theorem TasksOk.rejectQueued (h : TasksOk s) {r : Settlement} (hr : ∀ p, TaskExit (.queue p) r) :
    TasksOk (s.rejectQueued r) := by
  refine h.drop (fun p => ?_) ?_ rfl rfl (fun e he => ?_) rfl rfl rfl rfl (forall_mem_nil _)
  · cases p <;> exact nil_sublist _
  · have hheld : s.held = (queueHeld .interactive s.interactive ++
        queueHeld .background s.background) ++ slotsHeld s.slots := (append_assoc _ _ _).symm
    have hall := h.accounted
    rw [hheld] at hall
    have hleft := hall.leaveAll (r := r) fun e he => by
      obtain he | he := mem_append.1 he
      · obtain ⟨t, -, rfl⟩ := mem_map.1 he
        exact hr .interactive
      · obtain ⟨t, -, rfl⟩ := mem_map.1 he
        exact hr .background
    rw [queueHeld, queueHeld, map_append, map_map, map_map] at hleft
    have hlog : (s.rejectQueued r).log = s.log ++
        (s.interactive.map (fun t => (t.id, .left r)) ++
          s.background.map fun t => (t.id, .left r)) := by
      rw [VisionPool.rejectQueued, map_append]
    rw [hlog]
    exact hleft
  · obtain he | he := mem_append.1 he
    · exact .inl he
    · obtain ⟨t, ht, rfl⟩ := mem_map.1 he
      obtain ht | ht := mem_append.1 ht
      · exact .inr ⟨.interactive, t, ht, rfl⟩
      · exact .inr ⟨.background, t, ht, rfl⟩

theorem PoolOk.close (h : PoolOk opts s) : PoolOk opts s.close := by
  rw [VisionPool.close]
  split
  · exact h
  · have hclosed : TasksOk { s with closed := true } :=
      { h.tasks with alternating := { h.tasks.alternating with } }
    have hrejected := hclosed.rejectQueued .closed
    refine h.shrink rfl hrejected (fun p => by cases p <;> exact Nat.zero_le _) (.inl rfl)
      (fun _ => .inr rfl) (fun hu => hu) (.inr (.inl rfl))

/-! ## The end of a worker -/

theorem without_eq (s : VisionPool) (sl : VisionSlot) (e : WorkerError) (now : Int) :
    ∃ log, s.without sl e now =
      { s with slots := s.slots.filter fun x => decide (x.worker ≠ sl.worker), log } := by
  rw [without]
  cases sl.task with
  | none => exact ⟨s.log, rfl⟩
  | some task => exact ⟨_, rfl⟩

theorem TasksOk.without (h : TasksOk s) (hsl : sl ∈ s.slots) (e : WorkerError)
    (now : Int) : TasksOk (s.without sl e now) := by
  obtain ⟨pre, post, hslots, hpre, hpost⟩ := split_slots h.workers hsl
  have hfilter : s.slots.filter (fun x => decide (x.worker ≠ sl.worker)) = pre ++ post := by
    rw [hslots]
    exact filter_split hpre hpost
  have hnodup : ((s.slots.filter fun x => decide (x.worker ≠ sl.worker)).map (·.worker)).Nodup :=
    h.workers.sublist (filter_sublist.map _)
  have hold : ∀ x ∈ s.slots.filter (fun x => decide (x.worker ≠ sl.worker)),
      x.worker < s.nextWorker := fun x hx => h.workersOld x (mem_of_mem_filter hx)
  rw [VisionPool.without]
  cases htask : sl.task with
  | none =>
    have hheld : slotsHeld (s.slots.filter fun x => decide (x.worker ≠ sl.worker)) =
        slotsHeld s.slots := by
      rw [hfilter, hslots, slotsHeld_append, slotsHeld_append, slotsHeld_cons_none htask]
    refine h.reslot (fun _ => rfl) ?_ hnodup hold h.logged rfl rfl rfl rfl
    rw [held]
    rw [hheld]
    exact h.accounted
  | some t =>
    have hgiven : (slotsHeld s.slots).Perm ((t.id, .slot sl.worker) ::
        slotsHeld (s.slots.filter fun x => decide (x.worker ≠ sl.worker))) := by
      rw [hfilter, hslots, slotsHeld_append, slotsHeld_append, slotsHeld_cons_some htask]
      exact perm_middle
    have haccounted := h.accounted.perm (held_slots hgiven)
    obtain ⟨x, hx, heq⟩ := haccounted.logged
    refine h.reslot (fun _ => rfl) (haccounted.leave (.exited _ e)) hnodup hold
      (fun x' hx' => ?_) rfl rfl rfl rfl
    obtain hx' | rfl := mem_snoc.1 hx'
    · exact h.logged x' hx'
    · exact heq ▸ h.logged x hx

/-- What is left when a worker has gone. -/
theorem PoolOk.exited (h : PoolOk opts s) {worker : Nat} (htasks : TasksOk s')
    (hopts : s'.opts = s.opts) (hle : ∀ p, (s'.queue p).length ≤ (s.queue p).length)
    (hslots : s'.slots = s.slots.filter fun x => decide (x.worker ≠ worker))
    (hclosed : s'.closed = s.closed)
    (hfailed : s'.startFailed = true → s.startFailed = true ∨ (true, false) ∈ s.crew)
    (hstaffed : s'.startFailed = true ∨ s'.closed = true ∨ s'.timers ≠ []) : PoolOk opts s' := by
  have hmem : ∀ sl ∈ s'.slots, sl ∈ s.slots := by
    intro sl hsl
    rw [hslots] at hsl
    exact mem_of_mem_filter hsl
  refine h.shrink hopts htasks hle (.inr fun sl hsl hf => ⟨sl, hmem sl hsl, hf⟩)
    (fun hc => .inl (hclosed ▸ hc)) (fun hu => ?_)
    (hstaffed.imp_right fun hst => hst.imp_right .inr)
  obtain hu | hu := hu
  · exact hfailed hu
  · obtain ⟨sl, hsl, heq⟩ := mem_map.1 hu
    exact .inr (mem_map.2 ⟨sl, hmem sl hsl, heq⟩)

theorem PoolOk.startRejected (h : PoolOk opts s) {s₁ : VisionPool}
    (hsl : sl ∈ s.slots) (hready : sl.ready = false) (htasks : TasksOk s₁)
    (hopts : s₁.opts = s.opts) (hle : ∀ p, (s₁.queue p).length ≤ (s.queue p).length)
    (hslots : s₁.slots = s.slots.filter fun x => decide (x.worker ≠ sl.worker))
    (hclosed : s₁.closed = s.closed) (hfailed : s₁.startFailed = s.startFailed) :
    PoolOk opts (s₁.startRejected sl) := by
  rw [VisionPool.startRejected]
  split
  next hinitial =>
    have hnew : TasksOk { s₁ with startFailed := true } :=
      { htasks with alternating := { htasks.alternating with } }
    refine h.exited hnew hopts hle hslots hclosed (fun _ => .inr ?_)
      (.inl rfl)
    refine mem_map.2 ⟨sl, hsl, ?_⟩
    rw [hinitial, hready]
  · have hnew : TasksOk { s₁ with respawnFailures := s₁.respawnFailures + 1 }.scheduleRespawn :=
      { htasks with alternating := { htasks.alternating with } }
    refine h.exited hnew hopts hle hslots hclosed
      (fun hf => .inl (hfailed ▸ hf)) (.inr (.inr ?_))
    exact append_ne_nil_of_right_ne_nil _ (cons_ne_nil _ _)

theorem PoolOk.onExit (h : PoolOk opts s) (worker : Nat) (code now : Int) :
    PoolOk opts (s.onExit worker code now) := by
  rw [VisionPool.onExit]
  split
  · exact h
  next sl hfind =>
    obtain ⟨hsl, rfl⟩ := find_worker hfind
    have hwithout := h.tasks.without hsl (sl.exitError.getD (.exited code)) now
    obtain ⟨log, hlog⟩ := without_eq s sl (sl.exitError.getD (.exited code)) now
    generalize sl.exitError.getD (.exited code) = err at hwithout hlog ⊢
    rw [hlog] at hwithout
    dsimp only
    rw [hlog]
    split
    next hready =>
      have hready' : sl.ready = false := by simpa using hready
      split
      · exact h.startRejected hsl hready' hwithout rfl (fun _ => Nat.le_refl _) rfl
          rfl rfl
      · have hnoted : TasksOk { s with
            slots := s.slots.filter fun x => decide (x.worker ≠ sl.worker), log
            lastInitError := some err } :=
      { hwithout with alternating := { hwithout.alternating with } }
        split
        · exact h.startRejected hsl hready' hnoted rfl (fun _ => Nat.le_refl _) rfl
            rfl rfl
        · exact h.startRejected hsl hready' (hnoted.rejectQueued fun p => .startFailed p err) rfl
            (fun p => by cases p <;> exact Nat.zero_le _) rfl rfl rfl
    · split
      next hclosed =>
        exact h.exited hwithout rfl (fun _ => Nat.le_refl _) rfl rfl .inl
          (.inr (.inl hclosed))
      · have hscheduled : TasksOk (VisionPool.scheduleRespawn { s with
            slots := s.slots.filter fun x => decide (x.worker ≠ sl.worker), log }) :=
      { hwithout with alternating := { hwithout.alternating with } }
        refine h.exited hscheduled rfl (fun _ => Nat.le_refl _) rfl rfl .inl
          (.inr (.inr ?_))
        exact append_ne_nil_of_right_ne_nil _ (cons_ne_nil _ _)

/-! ## Runs -/

theorem PoolOk.step (h : PoolOk opts s) {i : VisionEvent} (hi : (visionPool opts).enabled i s) :
    PoolOk opts (VisionPool.step i s) := by
  cases i with
  | submit priority signal now => exact h.submit hi priority signal now
  | abort priority id => exact h.aborted priority id
  | ready worker now => exact h.onReady worker now
  | result worker id outcome now => exact h.onResult worker id outcome now
  | error worker e => exact h.onError worker e
  | exit worker code now => exact h.onExit worker code now
  | timer k => exact h.onTimer k
  | close => exact h.close

theorem PoolOk.started (opts : VisionPoolOptions) : PoolOk opts (VisionPool.started opts) := by
  have hworkers : (VisionPool.started opts).slots.map (·.worker) = range (max 1 opts.size) := by
    rw [VisionPool.started, map_map]
    exact map_id _
  have hslots : slotsHeld (VisionPool.started opts).slots = [] := by
    refine filterMap_eq_nil_iff.2 fun sl hsl => ?_
    obtain ⟨w, -, rfl⟩ := mem_map.1 hsl
    rfl
  have hheld : (VisionPool.started opts).held = [] := by
    rw [held, hslots]
    rfl
  have halternating : Alternating (VisionPool.started opts) := by
    refine ⟨fun b hb => absurd hb (Nat.lt_irrefl 0), fun b => Nat.zero_le 1, forall_mem_nil _, .nil,
      fun x hx => ?_⟩
    cases hx
  refine ⟨rfl, ⟨?_, ?_, fun sl hsl => ?_, forall_mem_nil _, fun p => ?_, fun p => ?_,
    forall_mem_nil _, fun p => ?_, halternating⟩, fun p => ?_, fun _ _ _ => rfl, fun _ => rfl,
    fun _ => rfl, .inr (.inr (.inl fun hnil => ?_))⟩
  · rw [hheld]
    exact .nil
  · rw [hworkers]
    exact nodup_range
  · have hmem : sl.worker ∈ (VisionPool.started opts).slots.map (·.worker) := mem_map_of_mem hsl
    rw [hworkers] at hmem
    exact mem_range.1 hmem
  · cases p <;> exact .nil
  · cases p <;> exact forall_mem_nil _
  · cases p <;> exact forall_mem_nil _
  · cases p <;> exact Nat.zero_le _
  · have hlength := congrArg length hworkers
    rw [hnil, map_nil, length_nil, length_range] at hlength
    omega

theorem poolOk_reachable (h : (visionPool opts).Reachable s) : PoolOk opts s := by
  refine h.invariant (I := PoolOk opts) ?_ fun s i _ hi ih => ih.step hi
  rintro _ rfl
  exact .started opts

/-- What has become of a task: it was not accepted, waits in one queue, runs on one worker, or was
settled, once. -/
inductive TaskFate (s : VisionPool) (id : Nat) : Prop
  | unknown (hlog : passages s.log id = []) (hplaces : placesOf s.held id = [])
  | waiting (p : VisionPriority) (hlog : passages s.log id = [.entered (.queue p)])
    (hplaces : placesOf s.held id = [.queue p])
  | running (p : VisionPriority) (worker : Nat)
    (hlog : passages s.log id = [.entered (.queue p), .moved (.slot worker)])
    (hplaces : placesOf s.held id = [.slot worker])
  | dropped (p : VisionPriority) (r : Settlement) (hexit : TaskExit (.queue p) r)
    (hlog : passages s.log id = [.entered (.queue p), .left r]) (hplaces : placesOf s.held id = [])
  | finished (p : VisionPriority) (worker : Nat) (r : Settlement)
    (hexit : TaskExit (.slot worker) r)
    (hlog : passages s.log id = [.entered (.queue p), .moved (.slot worker), .left r])
    (hplaces : placesOf s.held id = [])

theorem way_cases {l : List (Passage TaskPlace Settlement)} {q : TaskPlace}
    (h : Way taskLayout l q) : (∃ p, q = .queue p ∧ l = [.entered (.queue p)]) ∨
      ∃ p worker, q = .slot worker ∧ l = [.entered (.queue p), .moved (.slot worker)] := by
  induction h with
  | entered hp =>
    obtain ⟨p, rfl⟩ := hp
    exact .inl ⟨p, rfl, rfl⟩
  | moved h hpq ih =>
    cases hpq with
    | post p worker =>
      obtain ⟨p', hq, rfl⟩ | ⟨-, w, hq, -⟩ := ih
      · obtain rfl := TaskPlace.queue.inj hq
        exact .inr ⟨p, worker, rfl, rfl⟩
      · cases hq

theorem TasksOk.fate (h : TasksOk s) (id : Nat) : TaskFate s id := by
  obtain ⟨hlog, hno⟩ | ⟨q, hway, hheld⟩ | ⟨l, q, r, hlog, hway, hexit, hno⟩ := h.accounted.fate id
  · exact .unknown hlog (placesOf_eq_nil hno)
  · have hplaces := placesOf_eq_singleton h.accounted.nodup hheld
    obtain ⟨p, rfl, hlog⟩ | ⟨p, worker, rfl, hlog⟩ := way_cases hway
    · exact .waiting p hlog hplaces
    · exact .running p worker hlog hplaces
  · obtain ⟨p, rfl, rfl⟩ | ⟨p, worker, rfl, rfl⟩ := way_cases hway
    · exact .dropped p r hexit hlog (placesOf_eq_nil hno)
    · exact .finished p worker r hexit hlog (placesOf_eq_nil hno)

theorem Alternating.crowded_length (h : Alternating s) {mid : List TaskStart}
    (hmid : mid <:+: s.starts) (hall : ∀ x ∈ mid, Crowded x) : mid.length ≤ 1 := by
  have hchain := h.crowded.infix hmid
  match mid with
  | [] => exact Nat.zero_le 1
  | [x] => exact Nat.le_refl 1
  | x :: y :: rest =>
    have hxy := (isChain_cons_cons.1 hchain).1
    exact absurd ⟨hall x mem_cons_self, hall y (mem_cons_of_mem _ mem_cons_self)⟩ hxy

/-- **No task is lost.**  Whatever happens, each task is in exactly one place or settled, and was
posted once at most and never after it was settled; tasks of a priority start in the order of
submission; no queue exceeds its limit, and none waits while a ready worker is free; interactive
work passes a background task that is the oldest and overdue once at most, and while interactive
work waits no two background tasks start in a row.  While a task waits there is a worker, or one
will be tried. -/
theorem no_task_lost (h : (visionPool opts).Reachable s) :
    (∀ id, TaskFate s id) ∧
      (∀ p, (s.startedIds p).Pairwise (· < ·)) ∧
      (∀ p, (s.queue p).length ≤ opts.maxQueue) ∧
      (∀ sl ∈ s.slots, sl.free = true → ∀ p, s.queue p = []) ∧
      (∀ b, s.passed b ≤ 1) ∧
      (∀ mid, mid <:+: s.starts → (∀ x ∈ mid, Crowded x) → mid.length ≤ 1) ∧
      ∀ p, s.queue p ≠ [] → s.slots ≠ [] ∨ s.timers ≠ [] := by
  have hok := poolOk_reachable h
  refine ⟨hok.tasks.fate, fun p => ?_, hok.bounded, fun sl hsl hfree p => ?_,
    hok.tasks.alternating.passedOnce, fun mid hmid hall => ?_, fun p hne => hok.awaited ?_⟩
  · exact (pairwise_append.1 (hok.tasks.sorted p)).1
  · have hle := queue_length_le s p
    rw [hok.busy sl hsl hfree] at hle
    exact length_eq_zero_iff.1 (Nat.le_zero.1 hle)
  · exact hok.tasks.alternating.crowded_length hmid hall
  · exact Nat.lt_of_lt_of_le (length_pos_iff.2 hne) (queue_length_le s p)

/-- One worker takes a background task; an overdue one then goes before interactive work, whose
second task is given up; the worker crashes and its replacement does not start. -/
def crashed : List VisionEvent :=
  [.ready 0 0, .submit .background none 100, .submit .background none 200,
   .submit .interactive none 300, .submit .interactive (some false) 400,
   .result 0 1 (.ok ()) 6000, .result 0 2 (.error (.reported "no face")) 6100,
   .abort .interactive 4, .exit 0 1 6200, .submit .background none 6300, .timer 0, .exit 1 1 6400]

theorem no_task_lost_crashed :
    let opts : VisionPoolOptions := { size := 1, maxQueue := 4 }
    let s := (visionPool opts).run (VisionPool.started opts) crashed
    s.log.filterMap (fun e => match e.2 with
        | .left r => some (e.1, r)
        | _ => none) =
        [(1, .resolved), (2, .failed (.reported "no face")), (4, .cancelled), (3, .exited (.exited 1)),
         (5, .startFailed (.exited 1))] ∧
      ∀ id, TaskFate s id :=
  ⟨by decide +kernel, (no_task_lost ((Machine.Reachable.init rfl).run
    (by decide +kernel : Machine.Admits _ _ crashed))).1⟩

end VisionPool

end SmartProctoring
