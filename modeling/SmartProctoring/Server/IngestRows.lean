import SmartProctoring.Server.Moves

/-!
# The rows that ingest writes

What is true of the end that `normaliseEnd` computes, and from it what is true of every row that a
batch of reported events writes: it is `Stored`.

The end of an episode is cut up to three times: at the pause or hold that the episode runs into,
when another browser took over, and at the end of the session.  A cut brings an end forward or
leaves it alone, so what one cut establishes the later ones keep.  Two bounds are followed through
the cuts: that the episode has an end, and it is not after `b` (`EndsBy`), and that an end, if there
is one, is not after `b` (`NotPast`).  The last step, which keeps the end from lying before the
start, keeps them too as long as the start is not after `b`.

A report that no check refuses is `Accepted`.  The row written for it, a new one or one that was
there, has its start, its normalised end and its type (`RowWritten`), and that is what `Stored` is
derived from.  `IngestOk` is the invariant of the loop over a batch: it says what the rows are, and
that what the loop knows of an event is what its row says.  Under it no later report of the batch
sees anything but rows that are right.
-/

set_option autoImplicit false

namespace SmartProctoring

open List

variable {t : Timeline} {now startedAt b : Int} {instanceId : InstanceId} {prev : Option KnownEvent}
  {e : EventUpsert}

/-! ## The end of an episode -/

/-- The episode has an end, and it is not after `b`. -/
def EndsBy (r : Option Int × Option EndClampedBy) (b : Int) : Prop := ∃ x, r.1 = some x ∧ x ≤ b

variable {r : Option Int × Option EndClampedBy} {by' : Option EndClampedBy}

theorem endsBy_cut (b : Int) :
    EndsBy (if cutsAt r.1 b then (some b, by') else r) b := by
  split
  next => exact ⟨b, rfl, le_rfl⟩
  next h =>
    cases hr : r.1 with
    | none => simp [cutsAt, hr] at h
    | some x => exact ⟨x, hr, by simpa [cutsAt, hr] using h⟩

theorem EndsBy.cut {c : Int}
    (h : EndsBy r b) : EndsBy (if cutsAt r.1 c then (some c, by') else r) b := by
  obtain ⟨x, hx, hxb⟩ := h
  split
  next hc =>
    rw [hx] at hc
    have hlt : c < x := by simpa [cutsAt] using hc
    exact ⟨c, rfl, hlt.le.trans hxb⟩
  next => exact ⟨x, hx, hxb⟩

theorem EndsBy.cutAtReplacement {p : Option Int}
    (h : EndsBy r b) : EndsBy (cutAtReplacement t startedAt p r) b := by
  have hr : r.1.isNone = false := by
    obtain ⟨x, hx, -⟩ := h
    rw [hx]
    rfl
  rw [SmartProctoring.cutAtReplacement]
  simp only [hr]
  split
  · exact h.cut
  · exact h

theorem EndsBy.cutAtEnd (h : EndsBy r b) :
    EndsBy (cutAtEnd t r) b := by
  rw [SmartProctoring.cutAtEnd]
  split
  · exact h.cut
  · exact h

theorem EndsBy.not_before (h : EndsBy r b)
    (hb : startedAt ≤ b) : EndsBy (r.1.map (max startedAt), r.2) b := by
  obtain ⟨x, hx, hxb⟩ := h
  exact ⟨max startedAt x, by rw [hx]; rfl, max_le hb hxb⟩

variable {p : SessionPeriod}

theorem endsBy_cutAtBlock
    (hp : p ∈ t.periods) (hb : p.blocking = true) (h : startedAt < p.startedAt) :
    EndsBy (cutAtBlock t startedAt r) p.startedAt := by
  have hmem : p.startedAt ∈ (t.periods.filter fun p =>
      p.blocking && decide (startedAt < p.startedAt)).map (·.startedAt) :=
    mem_map_of_mem (mem_filter.2 ⟨hp, by simp [hb, h]⟩)
  rw [cutAtBlock, nextBlockStart]
  split
  next block hblock =>
    obtain ⟨x, hx, hxb⟩ := endsBy_cut (r := r) (b := block)
    exact ⟨x, hx, hxb.trans ((List.min?_eq_some_iff.1 hblock).2 _ hmem)⟩
  next hnone =>
    rw [List.min?_eq_none_iff] at hnone
    rw [hnone] at hmem
    exact absurd hmem not_mem_nil

theorem normaliseEnd_ordered :
    ∀ x ∈ (normaliseEnd t instanceId now prev e startedAt).1, startedAt ≤ x := by
  intro x hx
  obtain ⟨y, -, rfl⟩ := Option.map_eq_some_iff.1 hx
  exact le_max_left _ _

theorem normaliseEnd_endsBy_block (hp : p ∈ t.periods)
    (hb : p.blocking = true) (h : startedAt < p.startedAt) :
    EndsBy (normaliseEnd t instanceId now prev e startedAt) p.startedAt := by
  have hcut : EndsBy (cutAtBlock t startedAt (reportedEnd e startedAt now, none)) p.startedAt :=
    endsBy_cutAtBlock hp hb h
  refine EndsBy.not_before (EndsBy.cutAtEnd ?_) h.le
  split
  · exact hcut.cutAtReplacement
  · exact hcut

theorem normaliseEnd_endsBy_end (ht : t.endedAt = some b) (h : startedAt ≤ b) :
    EndsBy (normaliseEnd t instanceId now prev e startedAt) b := by
  refine EndsBy.not_before ?_ h
  rw [cutAtEnd, ht]
  exact endsBy_cut b

/-- The episode does not extend past `b`, if it has an end. -/
def NotPast (r : Option Int × Option EndClampedBy) (b : Int) : Prop := ∀ x ∈ r.1, x ≤ b

theorem NotPast.cut {c : Int}
    (h : NotPast r b) (hc : c ≤ b) : NotPast (if cutsAt r.1 c then (some c, by') else r) b := by
  split
  · rintro x ⟨⟩
    exact hc
  · exact h

theorem disconnectedBoundary_eq_some
    (h : disconnectedBoundary startedAt p = some b) : b = p.startedAt ∨ p.endedAt = some b := by
  rw [disconnectedBoundary] at h
  split at h
  · cases h
  · split at h
    · exact .inl (Option.some.inj h).symm
    · exact .inr (Option.filter_eq_some_iff.1 h).1

theorem NotPast.cutAtReplacement {p : Option Int}
    (h : NotPast r b) (hs : startedAt ≤ b) (hp : ∀ x ∈ p, x ≤ b)
    (ht : ∀ p ∈ t.periods, p.startedAt ≤ b ∧ ∀ e ∈ p.endedAt, e ≤ b) :
    NotPast (cutAtReplacement t startedAt p r) b := by
  have hopen : NotPast (if r.1.isNone then
      (some (max startedAt (p.getD startedAt)), some EndClampedBy.instanceReplaced) else r) b := by
    split
    · rintro x ⟨⟩
      refine max_le hs ?_
      cases p with
      | none => exact hs
      | some x => exact hp x rfl
    · exact h
  rw [SmartProctoring.cutAtReplacement]
  split
  next c hc =>
    rw [replacedInstanceBoundary, List.min?_eq_some_iff] at hc
    obtain ⟨q, hq, hqc⟩ := mem_filterMap.1 hc.1
    obtain ⟨hstart, hend⟩ := ht q hq
    have hcb : c ≤ b := by
      obtain rfl | hqe := disconnectedBoundary_eq_some hqc
      · exact hstart
      · exact hend c hqe
    split
    · rintro x ⟨⟩
      exact hcb
    · exact hopen
  next => exact hopen

theorem normaliseEnd_notPast (hs : startedAt ≤ b)
    (he : ∀ x ∈ reportedEnd e startedAt now, x ≤ b)
    (hprev : ∀ x ∈ prev.bind (·.endedAt), x ≤ b)
    (ht : ∀ p ∈ t.periods, p.startedAt ≤ b ∧ ∀ e ∈ p.endedAt, e ≤ b)
    (hend : ∀ x ∈ t.endedAt, x ≤ b) :
    NotPast (normaliseEnd t instanceId now prev e startedAt) b := by
  have hblock : NotPast (cutAtBlock t startedAt (reportedEnd e startedAt now, none)) b := by
    rw [cutAtBlock]
    split
    next block hb =>
      rw [nextBlockStart, List.min?_eq_some_iff] at hb
      obtain ⟨p, hp, hpb⟩ := mem_map.1 hb.1
      exact NotPast.cut he (hpb ▸ (ht p (mem_filter.1 hp).1).1)
    next => exact he
  have hreplaced : NotPast (if ((prev.bind (·.clientInstanceId)).or e.clientInstanceId).getD
        instanceId ≠ instanceId ∧ e.type.span then
      cutAtReplacement t startedAt (prev.bind (·.endedAt))
        (cutAtBlock t startedAt (reportedEnd e startedAt now, none))
      else cutAtBlock t startedAt (reportedEnd e startedAt now, none)) b := by
    split
    · exact hblock.cutAtReplacement hs hprev ht
    · exact hblock
  intro x hx
  obtain ⟨y, hy, rfl⟩ := Option.map_eq_some_iff.1 hx
  refine max_le hs ?_
  rw [cutAtEnd] at hy
  split at hy
  next c hc => exact NotPast.cut hreplaced (hend c hc) y hy
  next => exact hreplaced y hy

/-! ## Accepted reports -/

/-- What a report that is not refused satisfies. -/
structure Accepted (t : Timeline) (now : Int) (prev : Option KnownEvent) (e : EventUpsert)
    (startedAt : Int) : Prop where
  reportable : isClientReportable e.type = true
  newer : ∀ p ∈ prev, p.type = e.type ∧ p.version < e.version
  startsAt : e.startedAt = some startedAt
  notEnded : ∀ x ∈ t.endedAt, startedAt ≤ x
  notFuture : startedAt ≤ now + FUTURE_TOLERANCE_MS
  notBlocked : blockingPeriodAt t startedAt = false

theorem not_and_of_ite_eq_none {α : Type} {c : Prop} [Decidable c] {r : α} {x : Option α}
    (h : (if c then some r else x) = none) : ¬ c ∧ x = none := by
  split at h
  · cases h
  next hc => exact ⟨hc, h⟩

theorem accepted_of_refusal {policy : ProctoringPolicy} {foreign : EventId → Bool} {count : Nat}
    (h : refusal t policy now foreign prev count e = none) :
    Accepted t now prev e (e.startedAt.getD now) := by
  obtain ⟨hrep, h⟩ := not_and_of_ite_eq_none h
  obtain ⟨-, h⟩ := not_and_of_ite_eq_none h
  obtain ⟨-, h⟩ := not_and_of_ite_eq_none h
  obtain ⟨htype, h⟩ := not_and_of_ite_eq_none h
  obtain ⟨hver, h⟩ := not_and_of_ite_eq_none h
  cases hs : e.startedAt with
  | none => simp only [hs, reduceCtorEq] at h
  | some s =>
    simp only [hs] at h
    obtain ⟨-, h⟩ := not_and_of_ite_eq_none h
    obtain ⟨hended, h⟩ := not_and_of_ite_eq_none h
    obtain ⟨hfuture, h⟩ := not_and_of_ite_eq_none h
    obtain ⟨hblocked, -⟩ := not_and_of_ite_eq_none h
    refine ⟨by simpa using hrep, fun p hp => ?_, hs, fun x hx => ?_, not_lt.1 hfuture, by
      simpa using hblocked⟩
    · rw [Option.mem_def] at hp
      simp only [hp, Option.any_some, decide_eq_true_eq, not_not, not_le] at htype hver
      exact ⟨htype, hver⟩
    · rw [Option.mem_def] at hx
      simpa [hx] using hended

/-! ## The rows of a batch -/

/-- The report is of the past: it started before the server's time and ends no later. -/
def EventUpsert.InTime (e : EventUpsert) (now : Int) : Prop :=
  (∀ s ∈ e.startedAt, s < now) ∧ ∀ x ∈ e.endedAt, x ≤ now
  deriving Decidable

/-- A row is written by ingest: it has the start and the end that the accepted report gives it. -/
structure RowWritten (m : SessionMutation) (instanceId : InstanceId) (prev : Option KnownEvent)
    (e : EventUpsert) (row : EventRow) : Prop where
  accepted : Accepted (timelineOf m) m.now prev e row.startedAt
  type : row.type = e.type
  endedAt : row.endedAt = (normaliseEnd (timelineOf m) instanceId m.now prev e row.startedAt).1
  status : row.status = if row.endedAt.isSome then .closed else .open
  receivedAt : row.receivedAt = m.now

variable {m : SessionMutation} {row : EventRow}

theorem RowWritten.stored (h : RowWritten m instanceId prev e row)
    (hsource : row.fromClient = true) : m.lifecycle.Stored row where
  fromClient := hsource
  reportable := h.type ▸ h.accepted.reportable
  receivedAt := h.receivedAt
  open_iff := by
    rw [EventRow.isOpen, h.status]
    cases row.endedAt <;> simp
  ordered := h.endedAt ▸ normaliseEnd_ordered
  notBlocked p hp hb := by
    have hno := h.accepted.notBlocked
    rw [blockingPeriodAt, any_eq_false] at hno
    simpa [hb] using hno p hp
  cut p hp hb hlt := h.endedAt ▸ normaliseEnd_endsBy_block hp hb hlt
  ended t ht :=
    have hle := h.accepted.notEnded t ht
    ⟨hle, h.endedAt ▸ normaliseEnd_endsBy_end ht hle⟩

theorem RowWritten.inTime (h : RowWritten m instanceId prev e row) (he : e.InTime m.now)
    (hpast : m.lifecycle.Past row.id) (hprev : ∀ x ∈ prev.bind (·.endedAt), x ≤ m.now) :
    ∀ x ∈ row.endedAt, x ≤ m.now := by
  have hs := (he.1 _ h.accepted.startsAt).le
  rw [h.endedAt]
  refine normaliseEnd_notPast hs ?_ hprev hpast.periods hpast.endedAt
  rw [reportedEnd]
  split
  · split
    · rintro x ⟨⟩
      cases hx : e.endedAt with
      | none => exact le_rfl
      | some x => exact he.2 x hx
    · exact he.2
  · rintro x ⟨⟩
    exact hs

theorem written_insertedRow (h : Accepted (timelineOf m) m.now prev e startedAt) :
    RowWritten m instanceId prev e (insertedRow m.now instanceId e startedAt
      (normaliseEnd (timelineOf m) instanceId m.now prev e startedAt)) :=
  ⟨h, rfl, rfl, rfl, rfl⟩

theorem written_updatedRow {p : KnownEvent} (h : Accepted (timelineOf m) m.now prev e startedAt)
    (hp : prev = some p) (htype : row.type = p.type) :
    RowWritten m instanceId prev e (updatedRow m.now p e startedAt
      (normaliseEnd (timelineOf m) instanceId m.now prev e startedAt) row) :=
  ⟨h, htype.trans (h.newer p hp).1, rfl, rfl, rfl⟩

/-- A row of the table while a batch is stored: it was there before, or it is `Stored`, and in time
if the reports of its event are. -/
def RowOk (m : SessionMutation) (inTime : EventId → Prop) (row : EventRow) : Prop :=
  row ∈ m.events.rows ∨ m.lifecycle.Stored row ∧
    (inTime row.id → row.startedAt < m.now ∧ (m.lifecycle.Past row.id → ∀ x ∈ row.endedAt, x ≤ m.now))

/-- What the batch knows of a row: its type, and an end that the row of the event had before. -/
def Knows (m : SessionMutation) (row : EventRow) (k : KnownEvent) : Prop :=
  k.type = row.type ∧ ∀ x ∈ k.endedAt,
    ∃ r ∈ m.events.rows, r.id = row.id ∧ r.fromClient = row.fromClient ∧ r.endedAt = some x

/-- The invariant of a batch. -/
structure IngestOk (m : SessionMutation) (inTime : EventId → Prop) (st : IngestState) : Prop where
  rows : ∀ row ∈ st.events.rows, row.fromClient = true → RowOk m inTime row
  known : ∀ row ∈ st.events.rows, ∃ k, st.existing row.id = some k ∧ Knows m row k

variable {inTime : EventId → Prop}

theorem RowWritten.rowOk (h : RowWritten m instanceId prev e row)
    (hsource : row.fromClient = true) (hid : row.id = e.id) (he : inTime e.id → e.InTime m.now)
    (hprev : ∀ p ∈ prev, ∀ x ∈ p.endedAt,
      ∃ r ∈ m.events.rows, r.id = row.id ∧ r.fromClient = row.fromClient ∧ r.endedAt = some x) :
    RowOk m inTime row := by
  refine .inr ⟨h.stored hsource, fun hin => ?_⟩
  have he := he (hid ▸ hin)
  refine ⟨he.1 _ h.accepted.startsAt, fun hpast => h.inTime he hpast fun x hx => ?_⟩
  obtain ⟨p, hp, hpx⟩ := Option.bind_eq_some_iff.1 hx
  obtain ⟨r, hr, hrid, hrs, hrx⟩ := hprev p hp x hpx
  exact hpast.reports r (mem_filter.2 ⟨hr, hrs.trans hsource⟩) hrid x hrx

variable {policy : ProctoringPolicy} {foreign : EventId → Bool} {st : IngestState}

/-- A new event keeps the invariant. -/
theorem IngestOk.insert {k : KnownEvent} (h : IngestOk m inTime st)
    (hfresh : st.existing e.id = none) (hid : row.id = e.id)
    (hrow : row.fromClient = true → RowOk m inTime row) (hk : Knows m row k) (n : Nat)
    (d : Option EventId) :
    IngestOk m inTime
      { st.know e.id k with events := st.events.insert row, count := n, displayEventId := d } := by
  have hne : ∀ row ∈ st.events.rows, row.id ≠ e.id := by
    rintro row hrow hid
    obtain ⟨k, hk, -⟩ := h.known row hrow
    rw [hid, hfresh] at hk
    cases hk
  have hnone : st.events.find? row.id = none :=
    Table.find?_eq_none.2 fun r hr => hid ▸ hne r hr
  refine ⟨fun r hr hsource => ?_, fun r hr => ?_⟩
  · obtain hr | rfl := (Table.mem_insert_of_find?_eq_none hnone).1 hr
    · exact h.rows r hr hsource
    · exact hrow hsource
  · obtain hr | rfl := (Table.mem_insert_of_find?_eq_none hnone).1 hr
    · obtain ⟨k', hk', hknows⟩ := h.known r hr
      exact ⟨k', (if_neg (hne r hr)).trans hk', hknows⟩
    · exact ⟨k, if_pos hid, hk⟩

theorem IngestOk.modify {p k : KnownEvent} {newer : EventRow → Bool}
    {f : EventRow → EventRow} (h : IngestOk m inTime st) (hp : st.existing e.id = some p)
    (hid : ∀ r, (f r).id = r.id) (hnewer : ∀ r, newer r = true → r.id = e.id)
    (hrow : ∀ r, r.id = e.id → Knows m r p → (f r).fromClient = true → RowOk m inTime (f r))
    (hk : ∀ r, Knows m r p → Knows m r k ∧ Knows m (f r) k) :
    IngestOk m inTime { st.know e.id k with events := st.events.modify newer f hid } := by
  have hknown : ∀ r ∈ st.events.rows, r.id = e.id → Knows m r p := by
    intro r hr hre
    obtain ⟨k', hk', hknows⟩ := h.known r hr
    rw [hre, hp, Option.some.injEq] at hk'
    exact hk' ▸ hknows
  refine ⟨fun r' hr' hsource => ?_, fun r' hr' => ?_⟩
  · obtain ⟨r, hr, rfl⟩ := mem_map.1 hr'
    split at hsource
    next hn =>
      rw [if_pos hn]
      exact hrow r (hnewer r hn) (hknown r hr (hnewer r hn)) hsource
    next hn =>
      rw [if_neg hn]
      exact h.rows r hr hsource
  · obtain ⟨r, hr, rfl⟩ := mem_map.1 hr'
    have hid' : (if newer r = true then f r else r).id = r.id := by
      split
      · exact hid r
      · rfl
    rw [hid']
    by_cases hre : r.id = e.id
    · refine ⟨k, if_pos hre, ?_⟩
      obtain ⟨hkr, hkf⟩ := hk r (hknown r hr hre)
      split
      · exact hkf
      · exact hkr
    · obtain ⟨k', hk', hknows⟩ := h.known r hr
      refine ⟨k', (if_neg hre).trans hk', ?_⟩
      rw [if_neg fun hn => hre (hnewer r hn)]
      exact hknows

/-- One upsert keeps the invariant. -/
theorem IngestOk.ingestOne (h : IngestOk m inTime st) (he : inTime e.id → e.InTime m.now) :
    IngestOk m inTime (ingestOne (timelineOf m) policy instanceId m.now foreign st e).1 := by
  rw [SmartProctoring.ingestOne]
  split
  next => exact h
  next hno =>
    have hacc := accepted_of_refusal hno
    generalize e.startedAt.getD m.now = startedAt at hacc ⊢
    cases hprev : st.existing e.id with
    | none =>
      rw [hprev] at hacc
      exact h.insert hprev rfl
        (fun hsource => (written_insertedRow hacc).rowOk hsource rfl he fun p hp => by cases hp)
        ⟨rfl, fun x hx => by cases hx⟩ _ _
    | some p =>
      rw [hprev] at hacc
      dsimp only
      split
      next =>
        refine IngestOk.modify (k := { p with version := e.version })
          (f := updatedRow m.now p e startedAt _) h hprev (fun _ => rfl) (fun r hr => ?_)
          (fun r hid hr hsource => ?_) fun r hr => ⟨hr, hr⟩
        · simpa using (Bool.and_eq_true_iff.1 hr).1
        · refine (written_updatedRow hacc rfl hr.1.symm).rowOk hsource hid he fun q hq => ?_
          obtain rfl := Option.some.inj hq
          exact hr.2
      next => exact h

/-- A batch keeps the invariant. -/
theorem IngestOk.ingestAll {batch : List EventUpsert} (h : IngestOk m inTime st)
    (policy : ProctoringPolicy) (instanceId : InstanceId) (foreign : EventId → Bool)
    (he : ∀ e ∈ batch, inTime e.id → e.InTime m.now) :
    IngestOk m inTime (ingestAll (timelineOf m) policy instanceId m.now foreign st batch).1 := by
  induction batch generalizing st with
  | nil => exact h
  | cons e batch ih =>
    exact ih (h.ingestOne (he e mem_cons_self)) fun e he' => he e (mem_cons_of_mem _ he')

theorem ingestOk_init (m : SessionMutation) (count : Nat) :
    IngestOk m inTime { events := m.events, existing := knownEvents m.events, count } := by
  refine ⟨fun row hrow _ => .inl hrow, fun row hrow => ?_⟩
  refine ⟨row.known, ?_, rfl, fun x hx => ⟨row, hrow, rfl, rfl, hx⟩⟩
  exact congrArg (Option.map EventRow.known) (Table.find?_eq_some.2 ⟨hrow, rfl⟩)

end SmartProctoring
