import SmartProctoring.Lib.Slots
import SmartProctoring.Web.RecordingQueue

/-!
# What becomes of a recorded segment

Along every run whose steps are undisturbed (`RecordingInput.Undisturbed`) a segment is in one
place, being stored, queued or being dropped, or it has left by one exit, accepted, reported once or
discarded (`SegmentsKept`); it is dropped for space only while the queue exceeds the limit; and what
`discardAll` deletes is not uploaded later.

A step disturbs when it takes the segment that the upload loop holds out of the queue, when it
leaves the queue smaller than what a call of `put` in the middle of its loop takes it to be, or when
the store takes a segment after a `discardAll` that was called meanwhile.  Each of them happens
(`accepted_and_reported`).
-/

set_option autoImplicit false

namespace SmartProctoring

open List

namespace RecordingQueue

/-- The segment that the upload loop holds; it is still in the index. -/
def inHands (q : RecordingQueue) : Option QueuedSegment :=
  match q.task with
  | some (.reading seg _) => some seg
  | some (.sending seg) => some seg
  | some .removing => none
  | some (.dropping _ _) => none
  | none => none

def taskHeld (q : RecordingQueue) : List (Nat × SegmentPlace) :=
  match q.task with
  | some (.reading _ _) => []
  | some (.sending _) => []
  | some .removing => []
  | some (.dropping seg reason) => [(seg.id, .dropping reason)]
  | none => []

end RecordingQueue

/-- Where a call of `put` has its segment, or the one it drops. -/
def PutCall.held (p : PutCall) : Option (Nat × SegmentPlace) :=
  match p.phase with
  | .storing => some (p.seg.id, .storing)
  | .dropping oldest _ => some (oldest.id, .dropping .deviceStorageFull)
  | .done => none

/-- A call in the middle of its loop does not take the queue to be larger than it is. -/
def PutCall.TotalRight (index : List QueuedSegment) (p : PutCall) : Prop :=
  match p.phase with
  | .storing => True
  | .dropping oldest total => total - oldest.bytes ≤ queueBytes index
  | .done => True

instance PutCall.decidableTotalRight (index : List QueuedSegment) (p : PutCall) :
    Decidable (p.TotalRight index) := by
  unfold PutCall.TotalRight
  split <;> infer_instance

def TotalsRight (puts : List PutCall) (index : List QueuedSegment) : Prop :=
  ∀ p ∈ puts, p.TotalRight index

instance TotalsRight.decidable (puts : List PutCall) (index : List QueuedSegment) :
    Decidable (TotalsRight puts index) := by
  unfold TotalsRight
  infer_instance

/-- What may happen to a segment. -/
def segmentLayout : Layout SegmentPlace SegmentExit where
  entry p := p = .storing ∨ p = .queued
  route p p' := p = .storing ∧ p' = .queued ∨ p = .queued ∧ ∃ reason, p' = .dropping reason
  exit p r := p = .queued ∧ (r = .accepted ∨ r = .discarded) ∨ p = .storing ∧
    r = .reported .deviceStorageFull ∨ ∃ reason, p = .dropping reason ∧ r = .reported reason

/-! ## Undisturbed steps -/

/-- Where the loop of a call of `put` would take the oldest segment: the upload loop does not hold
it, and the other calls' totals stay right. -/
def LoopUndisturbed (k : Nat) (total : Int) (q : RecordingQueue) : Prop :=
  ∀ oldest ∈ q.index.head?, 1 < q.index.length → (q.maxBytes : Int) < total →
    (∀ s ∈ q.inHands, s.id ≠ oldest.id) ∧
      TotalsRight (q.puts.eraseIdx k) (q.index.filter fun s => s.id ≠ oldest.id)

instance LoopUndisturbed.decidable (k : Nat) (total : Int) (q : RecordingQueue) :
    Decidable (LoopUndisturbed k total q) := by
  unfold LoopUndisturbed
  infer_instance

/-- The same where a `discardAll` removes a segment. -/
def DiscardUndisturbed (rest : List QueuedSegment) (q : RecordingQueue) : Prop :=
  ∀ d ∈ rest.head?, (∀ s ∈ q.inHands, s.id ≠ d.id) ∧
  TotalsRight q.puts (q.index.filter fun s => s.id ≠ d.id)

instance DiscardUndisturbed.decidable (rest : List QueuedSegment) (q : RecordingQueue) :
    Decidable (DiscardUndisturbed rest q) := by
  unfold DiscardUndisturbed
  infer_instance

/-- The upload takes the segment out of the queue. -/
def uploadEnds (r : Except (Option CandidateApiError) Unit) : Prop :=
  match r with
  | .ok _ => True
  | .error err => RecordingQueue.refusal err = .drop ∨ RecordingQueue.refusal err = .limit

instance uploadEnds.decidable (r : Except (Option CandidateApiError) Unit) :
    Decidable (uploadEnds r) := by
  unfold uploadEnds
  split <;> infer_instance

def RecordingInput.Undisturbed (i : RecordingInput) (q : RecordingQueue) : Prop :=
  match i with
  | .stored k ok => ok = true → ∀ p ∈ q.puts[k]?, p.phase = .storing →
    p.discards = q.discards.length ∧
    LoopUndisturbed k (queueBytes (q.push p.seg).index) (q.push p.seg)
  | .dropped k =>
    match q.puts[k]? with
    | some ⟨_, _, .dropping oldest total⟩ => LoopUndisturbed k (total - oldest.bytes) q
    | _ => True
  | .read =>
    match q.task with
    | some (.reading seg false) => TotalsRight q.puts (q.index.filter fun s => s.id ≠ seg.id)
    | _ => True
  | .sent r =>
    match q.task with
    | some (.sending seg) => uploadEnds r → TotalsRight q.puts (q.index.filter fun s => s.id ≠ seg.id)
    | _ => True
  | .discardAll => DiscardUndisturbed q.index q
  | .discarded j =>
    match q.discards[j]? with
    | some (.removing rest) => DiscardUndisturbed rest q
    | _ => True
  | _ => True

instance RecordingInput.decidableUndisturbed (i : RecordingInput) (q : RecordingQueue) :
    Decidable (i.Undisturbed q) := by
  unfold RecordingInput.Undisturbed
  split <;> first | infer_instance | (split <;> infer_instance)

/-! ## What holds throughout -/

namespace RecordingQueue

/-- Where the segments are, with the calls of `put` in `puts`. -/
def held (puts : List PutCall) (q : RecordingQueue) : List (Nat × SegmentPlace) :=
  q.index.map (fun s => (s.id, .queued)) ++ (puts.filterMap PutCall.held ++ q.taskHeld)

end RecordingQueue

/-- What a `discardAll` has still to remove. -/
def DiscardCall.rest : DiscardCall → List QueuedSegment
  | .removing rest => rest
  | .returned => []

/-- What holds of the queue throughout, with the calls of `put` in `puts`. -/
structure QueueFacts (puts : List PutCall) (q : RecordingQueue) : Prop where
  hands : ∀ s ∈ q.inHands, s ∈ q.index
  stored : ∀ s ∈ q.index, s.id ∈ q.segments
  totals : TotalsRight puts q.index
  space : ∀ n ∈ q.spaceDrops, q.maxBytes < n
  discards : ∀ j d, q.discards[j]? = some d → ∀ s ∈ q.index, q.handedAt s.id ≤ j → s ∈ d.rest
  handed : ∀ p ∈ puts, p.phase = .storing → q.handedAt p.seg.id = p.discards
  late : q.lateUploads = []

/-- And every segment is accounted for. -/
structure QueueInv (puts : List PutCall) (q : RecordingQueue) : Prop extends QueueFacts puts q where
  accounted : Accounted segmentLayout (q.held puts) q.log

open RecordingQueue

section

variable {q q' : RecordingQueue} {puts puts' : List PutCall} {p p' : PutCall} {k : Nat}
    {seg : QueuedSegment}

variable {index : List QueuedSegment}

theorem PutCall.totalRight_iff :
    p.TotalRight index ↔ ∀ oldest total, p.phase = .dropping oldest total →
    total - oldest.bytes ≤ queueBytes index := by
  unfold PutCall.TotalRight
  rcases p.phase with _ | ⟨oldest, total⟩ | _ <;> simp

theorem TotalsRight.mono {index index' : List QueuedSegment} (h : TotalsRight puts index)
    (hle : queueBytes index ≤ queueBytes index') : TotalsRight puts index' := by
  intro p hp
  rw [PutCall.totalRight_iff]
  intro oldest total hphase
  have := PutCall.totalRight_iff.1 (h p hp) oldest total hphase
  omega

theorem queueBytes_perm {index index' : List QueuedSegment} (h : index.Perm index') :
    queueBytes index = queueBytes index' := (h.map _).sum_eq

theorem perm_filter_id (hnodup : (index.map fun s => s.id).Nodup) (hs : seg ∈ index) :
    index.Perm (seg :: index.filter fun s => s.id ≠ seg.id) := by
  obtain ⟨l₁, l₂, rfl⟩ := append_of_mem hs
  rw [map_append, map_cons, nodup_middle, nodup_cons, mem_append] at hnodup
  have hothers : ∀ l : List QueuedSegment, seg.id ∉ l.map (fun s => s.id) →
      l.filter (fun s => decide (s.id ≠ seg.id)) = l := by
    intro l hl
    refine filter_eq_self.2 fun s hs => decide_eq_true fun he => hl ?_
    exact mem_map.2 ⟨s, hs, he⟩
  rw [filter_append, filter_cons_of_neg (by simp), hothers l₁ fun h => hnodup.1 (.inl h),
    hothers l₂ fun h => hnodup.1 (.inr h)]
  exact perm_middle

namespace QueueFacts

theorem perm (h : QueueFacts puts q) (hp : puts.Perm puts') : QueueFacts puts' q where
  __ := h
  totals p' hp' := h.totals p' (hp.mem_iff.2 hp')
  handed p' hp' := h.handed p' (hp.mem_iff.2 hp')

theorem tail (h : QueueFacts (p :: puts) q) : QueueFacts puts q where
  __ := h
  totals p' hp' := h.totals p' (mem_cons_of_mem p hp')
  handed p' hp' := h.handed p' (mem_cons_of_mem p hp')

section

variable (h : QueueFacts puts q)
include h

theorem congr (log : List (Nat × Passage SegmentPlace SegmentExit)) (calls : List PutCall) :
    QueueFacts puts { q with log := log, puts := calls } :=
  { h with }

theorem cons (hstoring : p.phase ≠ .storing)
    (ht : ∀ oldest total, p.phase = .dropping oldest total → total - oldest.bytes ≤ queueBytes q.index) :
    QueueFacts (p :: puts) q where
  __ := h
  totals := forall_mem_cons.2 ⟨PutCall.totalRight_iff.2 ht, h.totals⟩
  handed := forall_mem_cons.2 ⟨fun hs => absurd hs hstoring, h.handed⟩

/-- A segment leaves the queue. -/
theorem remove {id : Nat} (hhands : ∀ s ∈ q.inHands, s.id ≠ id)
    (ht : TotalsRight puts (q.index.filter fun s => s.id ≠ id)) :
    QueueFacts puts (q.remove id) where
  __ := h
  hands s hs := mem_filter.2 ⟨h.hands s hs, decide_eq_true (hhands s hs)⟩
  stored s hs := by
    obtain ⟨hs, hne⟩ := mem_filter.1 hs
    exact mem_filter.2 ⟨h.stored s hs, hne⟩
  totals := ht
  discards j d hd s hs := h.discards j d hd s (mem_of_mem_filter hs)

theorem setTask (task : Option DrainPhase)
    (hhands : ∀ s ∈ inHands { q with task := task }, s ∈ q.index) :
    QueueFacts puts { q with task := task } :=
  { h with hands := hhands }

theorem noteUpload_eq (hs : seg ∈ q.index) : q.noteUpload seg = q := by
  unfold RecordingQueue.noteUpload
  rw [if_neg]
  intro hlate
  obtain ⟨d, hd, hreturned⟩ := any_eq_true.1 hlate
  obtain rfl : d = .returned := of_decide_eq_true hreturned
  obtain ⟨j, hj⟩ := List.getElem?_of_mem hd
  rw [List.getElem?_drop] at hj
  have hrest := h.discards _ _ hj seg hs (Nat.le_add_right _ j)
  simp [DiscardCall.rest] at hrest

theorem push (hseg : q.handedAt seg.id = q.discards.length) : QueueFacts puts (q.push seg) := by
  have hmem : ∀ s, s ∈ (q.push seg).index ↔ s ∈ q.index ∨ s = seg := fun s => by
    simp [RecordingQueue.push, (perm_insertionSort _ _).mem_iff]
  refine ⟨fun s hs => (hmem s).2 (.inl (h.hands s hs)), fun s hs => ?_, h.totals.mono ?_, h.space,
    fun j d hd s hs hle => ?_, h.handed, h.late⟩
  · rcases (hmem s).1 hs with hs | rfl
    · exact mem_append_left _ (h.stored s hs)
    · exact mem_append_right _ (mem_singleton.2 rfl)
  · have hperm : (q.push seg).index.Perm (q.index ++ [seg]) := perm_insertionSort _ _
    rw [queueBytes_perm hperm]
    simp [queueBytes]
  · rcases (hmem s).1 hs with hs | rfl
    · exact h.discards j d hd s hs hle
    · have hlt : j < q.discards.length := (List.getElem?_eq_some_iff.1 hd).1
      change q.handedAt s.id ≤ j at hle
      omega

end

end QueueFacts

namespace QueueInv

theorem perm (h : QueueInv puts q) (hp : puts.Perm puts') : QueueInv puts' q where
  toQueueFacts := h.toQueueFacts.perm hp
  accounted := h.accounted.perm (((hp.filterMap _).append_right _).append_left _)

theorem ids_nodup (h : QueueInv puts q) : (q.index.map fun s => s.id).Nodup := by
  have hnodup := h.accounted.nodup
  rw [held, map_append, map_map] at hnodup
  exact (nodup_append.1 hnodup).1

end QueueInv

theorem held_perm (hnodup : (q.index.map fun s => s.id).Nodup) (hs : seg ∈ q.index) :
    (q.held puts).Perm ((seg.id, .queued) :: (q.remove seg.id).held puts) :=
  ((perm_filter_id hnodup hs).map _).append_right _

theorem held_cons (e : Nat × SegmentPlace) (hp : p.held = some e) :
    (q.held (p :: puts)).Perm (e :: q.held puts) := by
  rw [held, filterMap_cons_some hp]
  exact perm_middle

/-! ## Steps of `put` -/

namespace QueueInv

variable {p₀ : PutCall}

theorem setPut (h : QueueInv (p :: q.puts.eraseIdx k) q) (hk : q.puts[k]? = some p₀) :
    QueueInv (q.puts.set k p) { q with puts := q.puts.set k p } :=
  ⟨(h.perm (set_perm_eraseIdx hk p).symm).congr q.log _,
    (h.perm (set_perm_eraseIdx hk p).symm).accounted⟩

theorem donePut (h : QueueInv (q.puts.eraseIdx k) q) (hk : q.puts[k]? = some p₀) (p : PutCall) :
    QueueInv (q.puts.set k { p with phase := .done }) { q with
      puts := q.puts.set k { p with phase := .done } } := by
  refine setPut ⟨h.toQueueFacts.cons (by simp) (by simp), ?_⟩ hk
  exact h.accounted

theorem beginDrop (h : QueueInv puts q) (hs : seg ∈ q.index) (reason : DropReason) :
    Accounted segmentLayout ((seg.id, .dropping reason) :: (q.remove seg.id).held puts)
      (q.beginDrop seg reason).log :=
  (h.accounted.perm (held_perm h.ids_nodup hs)).move (.inr ⟨rfl, reason, rfl⟩)

/-- **The loop of `enforceLimit`.** -/
theorem enforceLimit (h : QueueInv (q.puts.eraseIdx k) q) (hk : q.puts[k]? = some p₀) (p : PutCall)
    {total : Int} (ht : total ≤ queueBytes q.index) (hu : LoopUndisturbed k total q) :
    QueueInv (q.enforceLimit k p total).puts (q.enforceLimit k p total) := by
  unfold RecordingQueue.enforceLimit
  split
  next oldest s₂ rest hindex =>
    have hold : oldest ∈ q.index := by simp [hindex]
    split
    next hmax =>
      obtain ⟨hhands, htotals⟩ := hu oldest (by simp [hindex]) (by simp [hindex]) hmax
      have hbytes : queueBytes q.index = oldest.bytes + queueBytes (q.index.filter fun s => s.id ≠ oldest.id) := by
        rw [queueBytes_perm (perm_filter_id h.ids_nodup hold)]
        simp [queueBytes]
      have hfacts : QueueFacts (({ p with phase := .dropping oldest total } : PutCall) ::
          q.puts.eraseIdx k) (q.remove oldest.id) := by
        refine (h.toQueueFacts.remove hhands htotals).cons (by simp) ?_
        rintro _ _ ⟨⟩
        show total - oldest.bytes ≤ queueBytes (q.index.filter fun s => s.id ≠ oldest.id)
        omega
      have hacc := h.beginDrop hold .deviceStorageFull
      have hset := (hfacts.perm (set_perm_eraseIdx hk _).symm).congr
        (q.beginDrop oldest .deviceStorageFull).log (q.puts.set k { p with phase := .dropping oldest total })
      refine ⟨{ hset with space := fun n hn => ?_ }, ?_⟩
      · rcases mem_snoc.1 hn with hn | rfl
        · exact h.space n hn
        · show q.maxBytes < queueBytes q.index
          omega
      · refine hacc.perm (.trans ?_ (((set_perm_eraseIdx hk _).symm.filterMap _).append_right _ |>.append_left _))
        exact (held_cons (q := q.remove oldest.id) _ rfl).symm
    next => exact h.donePut hk p
  next => exact h.donePut hk p

section

variable (h : QueueInv q.puts q) (hk : q.puts[k]? = some p)
include h hk

theorem ofPut : QueueInv (p :: q.puts.eraseIdx k) q :=
  h.perm (perm_eraseIdx_of_getElem? hk)

theorem storeDone (hphase : p.phase = .storing) (ok : Bool)
    (hu : ok = true → p.discards = q.discards.length ∧
      LoopUndisturbed k (queueBytes (q.push p.seg).index) (q.push p.seg)) :
    QueueInv (q.stored k p ok).puts (q.stored k p ok) := by
  have hfirst := h.ofPut hk
  have hheld : p.held = some (p.seg.id, .storing) := by rw [PutCall.held, hphase]
  have hacc := hfirst.accounted.perm (held_cons _ hheld)
  unfold RecordingQueue.stored
  split
  next hok =>
    obtain ⟨hdiscards, hloop⟩ := hu hok
    have hpush : QueueInv ((q.push p.seg).puts.eraseIdx k) (q.push p.seg) := by
      refine ⟨hfirst.toQueueFacts.tail.push ?_, ?_⟩
      · rw [hfirst.handed p mem_cons_self hphase, hdiscards]
      · have hindex : (q.push p.seg).index.Perm (p.seg :: q.index) :=
          (perm_insertionSort _ _).trans (perm_append_singleton _ _)
        refine (hacc.move (.inl ⟨rfl, rfl⟩)).perm ?_
        exact ((hindex.map fun s => (s.id, SegmentPlace.queued)).append_right _).symm
    exact hpush.enforceLimit hk p le_rfl hloop
  next =>
    have hleft : QueueInv ((q.onDropped p.seg .deviceStorageFull).puts.eraseIdx k)
        (q.onDropped p.seg .deviceStorageFull) :=
      ⟨hfirst.toQueueFacts.tail.congr _ q.puts, hacc.leave (.inr (.inl ⟨rfl, rfl⟩))⟩
    exact hleft.donePut hk p

theorem dropped {oldest : QueuedSegment} {total : Int}
    (hphase : p.phase = .dropping oldest total) (hu : LoopUndisturbed k (total - oldest.bytes) q) :
    QueueInv (q.dropped k p oldest total).puts (q.dropped k p oldest total) := by
  have hfirst := h.ofPut hk
  have hheld : p.held = some (oldest.id, .dropping .deviceStorageFull) := by rw [PutCall.held, hphase]
  have hacc := hfirst.accounted.perm (held_cons _ hheld)
  have hleft : QueueInv ((q.onDropped oldest .deviceStorageFull).puts.eraseIdx k)
      (q.onDropped oldest .deviceStorageFull) :=
    ⟨hfirst.toQueueFacts.tail.congr _ q.puts, hacc.leave (.inr (.inr ⟨_, rfl, rfl⟩))⟩
  exact hleft.enforceLimit hk p (PutCall.totalRight_iff.1
    (hfirst.totals p mem_cons_self) oldest total hphase) hu

end

/-- A segment is handed over. -/
theorem put (h : QueueInv q.puts q) (hnew : passages q.log seg.id = []) :
    QueueInv ((RecordingInput.put seg).step q).puts ((RecordingInput.put seg).step q) := by
  have hfresh : ∀ id pl, (id, pl) ∈ q.held q.puts → id ≠ seg.id := by
    rintro id pl hmem rfl
    rcases h.accounted.fate seg.id with ⟨-, hno⟩ | ⟨_, hway, -⟩ | ⟨_, _, _, hlog, -, -, -⟩
    · exact hno (mem_map_of_mem hmem)
    · exact hway.ne_nil hnew
    · simp [hnew] at hlog
  have hindex : ∀ s ∈ q.index, s.id ≠ seg.id := fun s hs =>
    hfresh s.id .queued (mem_append_left _ (mem_map_of_mem hs))
  refine ⟨⟨h.hands, h.stored, ?_, h.space, fun j d hd s hs hle => ?_, ?_, h.late⟩, ?_⟩
  · exact forall_mem_append.2 ⟨h.totals, forall_mem_singleton.2 trivial⟩
  · refine h.discards j d hd s hs ?_
    simpa [RecordingInput.step, hindex s hs] using hle
  · refine forall_mem_append.2 ⟨fun p hp hphase => ?_, forall_mem_singleton.2 fun _ => ?_⟩
    · have hne : p.seg.id ≠ seg.id := by
        refine hfresh p.seg.id .storing (mem_append_right _ (mem_append_left _ ?_))
        exact mem_filterMap.2 ⟨p, hp, by rw [PutCall.held, hphase]⟩
      have hhanded := h.handed p hp hphase
      simpa [RecordingInput.step, hne] using hhanded
    · simp [RecordingInput.step]
  · refine (h.accounted.enter hnew (.inl rfl)).perm ?_
    show List.Perm _ (q.index.map _ ++ ((q.puts ++ [_]).filterMap PutCall.held ++ q.taskHeld))
    rw [filterMap_append]
    refine List.Perm.trans ?_ ((perm_append_comm.append_right _).append_left _)
    exact perm_middle.symm

/-! ## Steps of the upload loop -/

theorem drain (h : QueueInv q.puts { q with task := none }) (gate : Bool) :
    QueueInv (q.drain gate).puts (q.drain gate) := by
  unfold RecordingQueue.drain
  split
  · exact h
  · split
    next => exact h
    next seg rest hindex =>
      split
      · refine ⟨{ h with hands := fun s hs => ?_ }, h.accounted⟩
        obtain rfl : seg = s := Option.some.inj hs
        simp [hindex]
      · exact h

theorem takeHeld (h : QueueInv q.puts q) (ht : TotalsRight q.puts (q.index.filter fun s =>
    s.id ≠ seg.id)) (task : Option DrainPhase) (hnone : inHands { q with task := task } = none) :
    QueueFacts q.puts { q.remove seg.id with task := task } := by
  have hfree : QueueFacts q.puts { q with task := task } :=
    h.toQueueFacts.setTask task (by simp [hnone])
  exact hfree.remove (by simp [hnone]) ht

theorem dropHeld (h : QueueInv q.puts q) (hs : seg ∈ q.index) (hheld : q.taskHeld = [])
    (reason : DropReason) (ht : TotalsRight q.puts (q.index.filter fun s => s.id ≠ seg.id)) :
    QueueInv q.puts { q.beginDrop seg reason with task := some (.dropping seg reason) } := by
  have hfacts := h.takeHeld ht (some (.dropping seg reason)) rfl
  refine ⟨hfacts.congr _ q.puts, ?_⟩
  have hacc := h.beginDrop hs reason
  have hnil : (q.remove seg.id).taskHeld = [] := hheld
  rw [held, hnil, append_nil] at hacc
  refine hacc.perm ?_
  show List.Perm _ (_ ++ (_ ++ [_]))
  rw [← append_assoc]
  exact (perm_append_singleton _ _).symm

theorem read {found : Bool} (h : QueueInv q.puts q) (htask : q.task = some (.reading seg found))
    (hu : found = false → TotalsRight q.puts (q.index.filter fun s => s.id ≠ seg.id)) :
    QueueInv (q.read seg found).puts (q.read seg found) := by
  have hs : seg ∈ q.index := h.hands seg (by rw [inHands, htask]; rfl)
  have hheld : q.taskHeld = [] := by rw [taskHeld, htask]
  unfold RecordingQueue.read
  split
  next =>
    rw [h.noteUpload_eq hs]
    refine ⟨h.toQueueFacts.setTask _ fun s hs' => Option.some.inj hs' ▸ hs, ?_⟩
    have hacc := h.accounted
    rw [held, hheld] at hacc
    exact hacc
  next hno => exact h.dropHeld hs hheld .missing (hu (by simpa using hno))

section

variable (h : QueueInv q.puts q)
include h

theorem sent (htask : q.task = some (.sending seg)) (r : Except (Option CandidateApiError) Unit)
    (hu : uploadEnds r → TotalsRight q.puts (q.index.filter fun s => s.id ≠ seg.id)) :
    QueueInv (q.sent seg r).puts (q.sent seg r) := by
  have hs : seg ∈ q.index := h.hands seg (by rw [inHands, htask]; rfl)
  have hheld : q.taskHeld = [] := by rw [taskHeld, htask]
  have hwait : QueueInv q.puts { q with task := none } := by
    refine ⟨h.toQueueFacts.setTask none (by simp [inHands]), ?_⟩
    have hacc := h.accounted
    rw [held, hheld] at hacc
    exact hacc
  unfold RecordingQueue.sent
  split
  next =>
    rw [h.noteUpload_eq hs]
    refine ⟨(h.takeHeld (hu trivial) (some .removing) rfl).congr _ q.puts, ?_⟩
    have hacc := (h.accounted.perm (held_perm h.ids_nodup hs)).leave (r := .accepted) (.inl ⟨rfl, .inl rfl⟩)
    have hnil : (q.remove seg.id).taskHeld = [] := hheld
    rw [held, hnil] at hacc
    exact hacc
  next err =>
    split
    next =>
      exact ⟨{ hwait with },
        hwait.accounted⟩
    next href => exact h.dropHeld hs hheld .refused (hu (.inl href))
    next href => exact h.dropHeld hs hheld .refused (hu (.inr href))
    next => exact hwait
    next => exact hwait

theorem removed (gate : Bool) :
    QueueInv ((RecordingInput.removed gate).step q).puts ((RecordingInput.removed gate).step q) := by
  dsimp only [RecordingInput.step]
  split
  next htask =>
    refine QueueInv.drain ⟨h.toQueueFacts.setTask none (by simp [inHands]), ?_⟩ gate
    have hheld : q.taskHeld = [] := by rw [taskHeld, htask]
    have hacc := h.accounted
    rw [held, hheld] at hacc
    exact hacc
  next seg reason htask =>
    have hheld : q.taskHeld = [(seg.id, .dropping reason)] := by rw [taskHeld, htask]
    have hacc := h.accounted
    rw [held, hheld, ← append_assoc] at hacc
    have hleft := (hacc.perm (perm_append_singleton _ _)).leave (r := .reported reason)
      (.inr (.inr ⟨reason, rfl, rfl⟩))
    have hnew : QueueInv q.puts { q.onDropped seg reason with task := none } := by
      refine ⟨(h.toQueueFacts.setTask none (by simp [inHands])).congr _ q.puts, ?_⟩
      show Accounted segmentLayout (_ ++ (_ ++ [])) _
      rwa [append_nil]
    exact hnew.drain gate
  next => exact h

/-! ## Steps of `discardAll` -/

theorem discardNext {j : Nat} {rest : List QueuedSegment}
    (hj : q.discards[j]? = some (.removing rest)) (hu : DiscardUndisturbed rest q) :
    QueueInv (q.discardNext j rest).puts (q.discardNext j rest) := by
  have hlt : j < q.discards.length := (List.getElem?_eq_some_iff.1 hj).1
  -- What a `discardAll` has still to do is what it had, without what is no longer queued.
  have hdiscards : ∀ (index : List QueuedSegment) (d : DiscardCall), index ⊆ q.index →
      (∀ s ∈ index, s ∈ rest → s ∈ d.rest) → ∀ j' d', (q.discards.set j d)[j']? = some d' →
      ∀ s ∈ index, q.handedAt s.id ≤ j' → s ∈ d'.rest := by
    intro index d hsub hrest j' d' hd' s hs hle
    by_cases hjj : j = j'
    · subst hjj
      rw [List.getElem?_set_self hlt] at hd'
      obtain rfl := Option.some.inj hd'
      exact hrest s hs (h.discards j _ hj s (hsub hs) hle)
    · rw [List.getElem?_set_ne hjj] at hd'
      exact h.discards j' d' hd' s (hsub hs) hle
  unfold RecordingQueue.discardNext
  split
  next =>
    refine ⟨{ h with discards := ?_ }, h.accounted⟩
    exact hdiscards q.index .returned (List.Subset.refl _) fun s _ hs => hs
  next d rest =>
    obtain ⟨hhands, htotals⟩ := hu d rfl
    have hfacts := h.toQueueFacts.remove hhands htotals
    have hrest := hdiscards (q.remove d.id).index (.removing rest) (fun s hs => mem_of_mem_filter hs)
      fun s hs hmem => by
        have hne : s.id ≠ d.id := of_decide_eq_true (mem_filter.1 hs).2
        exact (mem_cons.1 hmem).resolve_left fun he => hne (congrArg _ he)
    split
    next hin =>
      obtain ⟨s, hs, hid⟩ := mem_map.1 hin
      refine ⟨⟨hfacts.hands, hfacts.stored, hfacts.totals, h.space, hrest, h.handed, h.late⟩, ?_⟩
      rw [← hid]
      exact (h.accounted.perm (held_perm h.ids_nodup hs)).leave (.inl ⟨rfl, .inr rfl⟩)
    next hout =>
      refine ⟨⟨hfacts.hands, hfacts.stored, hfacts.totals, h.space, hrest, h.handed, h.late⟩, ?_⟩
      have hsame : q.index.filter (fun s => decide (s.id ≠ d.id)) = q.index :=
        filter_eq_self.2 fun s hs => decide_eq_true fun he => hout (mem_map.2 ⟨s, hs, he⟩)
      show Accounted segmentLayout ((q.index.filter fun s => decide (s.id ≠ d.id)).map _ ++ _) _
      rw [hsame]
      exact h.accounted

theorem discardAll (hu : DiscardUndisturbed q.index q) :
    QueueInv q.discardAll.puts q.discardAll := by
  have hnew : QueueInv q.puts { q with discards := q.discards ++ [.removing q.index] } := by
    refine ⟨{ h with discards := fun j d hd s hs hle => ?_ }, h.accounted⟩
    rw [List.getElem?_append] at hd
    split at hd
    next => exact h.discards j d hd s hs hle
    next => rwa [mem_singleton.1 (mem_of_getElem? hd)]
  exact hnew.discardNext (by simp) hu

/-! ## Runs -/

theorem step {i : RecordingInput} (hi : i.enabled q) (hu : i.Undisturbed q) :
    QueueInv (i.step q).puts (i.step q) := by
  cases i with
  | put seg => exact h.put hi
  | stored k ok =>
    dsimp only [RecordingInput.step]
    split
    next p hk =>
      split
      next hphase => exact h.storeDone hk hphase ok fun hok => hu hok p hk hphase
      next => exact h
    next => exact h
  | dropped k =>
    dsimp only [RecordingInput.step]
    split
    next p hk =>
      split
      next => exact h
      next oldest total hphase =>
        refine h.dropped hk hphase ?_
        obtain ⟨seg, discards, phase⟩ := p
        obtain rfl : phase = .dropping oldest total := hphase
        simpa only [RecordingInput.Undisturbed, hk] using hu
      next => exact h
    next => exact h
  | run gate =>
    dsimp only [RecordingInput.step]
    split
    next htask =>
      refine QueueInv.drain ?_ gate
      rwa [← htask]
    next => exact h
  | read =>
    dsimp only [RecordingInput.step]
    split
    next seg found htask =>
      refine h.read htask fun hno => ?_
      subst hno
      simpa only [RecordingInput.Undisturbed, htask] using hu
    next => exact h
  | sent r =>
    dsimp only [RecordingInput.step]
    split
    next seg htask =>
      refine h.sent htask r ?_
      simpa only [RecordingInput.Undisturbed, htask] using hu
    next => exact h
  | removed gate => exact h.removed gate
  | discardAll => exact h.discardAll hu
  | discarded j =>
    dsimp only [RecordingInput.step]
    split
    next rest hj =>
      refine h.discardNext hj ?_
      simpa only [RecordingInput.Undisturbed, hj] using hu
    next => exact h
  | start | stop => exact ⟨{ h with }, h.accounted⟩

end

end QueueInv

theorem queueInv_open (maxBytes : Nat) (blobs : List Nat) {stored : List QueuedSegment}
    (hnodup : (stored.map fun s => s.id).Nodup) :
    QueueInv (RecordingQueue.open maxBytes stored blobs).puts (.open maxBytes stored blobs) := by
  have hperm : (stored.insertionSort QueuedSegment.order).Perm stored := perm_insertionSort _ _
  refine ⟨⟨by simp [RecordingQueue.open, inHands], fun s hs => ?_, by simp [RecordingQueue.open, TotalsRight],
    by simp [RecordingQueue.open], by simp [RecordingQueue.open], by simp [RecordingQueue.open], rfl⟩, ?_⟩
  · exact mem_map_of_mem (hperm.mem_iff.1 hs)
  · have hentry : segmentLayout.entry .queued := .inr rfl
    have hentered := Accounted.enterAll hentry hnodup
    rw [map_map, map_map] at hentered
    refine hentered.perm ?_
    show List.Perm _ (map _ _ ++ [])
    rw [append_nil]
    exact (hperm.map _).symm

theorem QueueInv.reachable (h : (recordingMachine.restrict RecordingInput.Undisturbed).Reachable
    q) :
    QueueInv q.puts q := by
  induction h with
  | init h =>
    obtain ⟨maxBytes, stored, blobs, hnodup, rfl⟩ := h
    exact queueInv_open maxBytes blobs hnodup
  | step _ i hi ih => exact ih.step hi.1 hi.2

end

/-- Every segment is in one place or has left by one exit; what is queued is stored; segments are
dropped for space only while the queue exceeds the limit; and what a `discardAll` that has returned
should have deleted is neither queued nor uploaded. -/
structure SegmentsKept (q : RecordingQueue) : Prop where
  accounted : Accounted segmentLayout (q.held q.puts) q.log
  stored : ∀ s ∈ q.index, s.id ∈ q.segments
  space : ∀ n ∈ q.spaceDrops, q.maxBytes < n
  deleted : ∀ j, q.discards[j]? = some .returned → ∀ s ∈ q.index, j < q.handedAt s.id
  late : q.lateUploads = []

/-- **Every queued recording segment has one outcome** in the runs whose steps are undisturbed. -/
theorem segments_kept {q : RecordingQueue}
    (h : (recordingMachine.restrict RecordingInput.Undisturbed).Reachable q) : SegmentsKept q := by
  have hinv := QueueInv.reachable h
  refine ⟨hinv.accounted, hinv.stored, hinv.space, fun j hj s hs => ?_, hinv.late⟩
  by_contra hle
  have hrest := hinv.discards j _ hj s hs (by omega)
  simp [DiscardCall.rest] at hrest

/-- A segment of the screen recording. -/
def screenSegment (id bytes : Nat) : QueuedSegment := ⟨id, .screen, id, id, bytes⟩

/-- A segment is uploaded, one is dropped for space, and the last one is discarded. -/
def calmRun : List RecordingInput :=
  [.start, .put (screenSegment 1 6), .stored 0 true, .run true, .read, .sent (.ok ()),
    .removed true,
    .put (screenSegment 2 6), .stored 1 true, .put (screenSegment 3 6), .stored 2 true, .dropped 2,
    .discardAll, .discarded 0]

theorem calmRun_admits :
    (recordingMachine.restrict RecordingInput.Undisturbed).Admits (.open 10 [] []) calmRun := by
  decide +kernel

/-- The queue after the inputs. -/
def recorded (is : List RecordingInput) : RecordingQueue := recordingMachine.run (.open 10 [] []) is

theorem segments_kept_calm :
    (recorded calmRun).log.map Prod.fst = [1, 1, 1, 2, 2, 3, 3, 2, 2, 3] ∧
    SegmentsKept (recorded calmRun) :=
  ⟨by decide +kernel,
    segments_kept (.run (.init (M := recordingMachine.restrict RecordingInput.Undisturbed)
    (RecordingQueue.open_init 10)) calmRun_admits)⟩

/-- The upload of a segment is accepted after the segment has been dropped for space. -/
def droppedInFlight : List RecordingInput :=
  [.start, .put (screenSegment 1 6), .stored 0 true, .run true, .read, .put (screenSegment 2 6),
    .stored 1 true,
    .dropped 1, .sent (.ok ())]

/-- The store takes a segment after `discardAll` has returned. -/
def storedAfterDiscard : List RecordingInput :=
  [.start, .put (screenSegment 1 6), .discardAll, .stored 0 true, .run true, .read]

/-- A segment is uploaded while `put` waits for the removal of another. -/
def uploadedMeanwhile : List RecordingInput :=
  [.start, .put (screenSegment 1 1), .stored 0 true, .put (screenSegment 2 5), .stored 1 true,
    .put (screenSegment 3 2), .stored 2 true, .put (screenSegment 4 7), .stored 3 true,
    .run true, .read, .sent (.ok ()), .dropped 3]

/-- **A segment is reported as dropped and accepted**, another is uploaded after it should have been
discarded, and a third is dropped from a queue within its limit. -/
theorem accepted_and_reported :
    (recordingMachine.Admits (.open 10 [] []) droppedInFlight ∧
      passages (recorded droppedInFlight).log 1 =
        [.entered .storing, .moved .queued, .moved (.dropping .deviceStorageFull),
          .left (.reported .deviceStorageFull),
          .left .accepted]) ∧
      (recordingMachine.Admits (.open 10 [] []) storedAfterDiscard ∧
        (recorded storedAfterDiscard).lateUploads = [1]) ∧
      recordingMachine.Admits (.open 10 [] []) uploadedMeanwhile ∧
      (recorded uploadedMeanwhile).spaceDrops = [15, 9] := by
  decide +kernel

end SmartProctoring
