import SmartProctoring.Server.Converge

/-!
# A batch of reported events, and its events one by one

Inside a batch a second version of an event is not checked against the stored row but against what
the batch remembers of it: of an event new in the batch only the type and the version, of one stored
before it the values from before the batch.  Type and version decide whether a version is taken, so
the answers are always those of the single events.  What is written of a taken version also reads
who reported the event first, when it ended, whether it was open and whether it was delivered late;
a batch leaves the rows of the single events exactly when, at the last version it takes of each
event, what it remembers does not tell a different story there (`RemembersEnough`).
-/

set_option autoImplicit false

namespace SmartProctoring

open List

variable {t : Timeline} {policy : ProctoringPolicy} {instanceId : InstanceId} {now : Int}
  {foreign : EventId → Bool} {st : IngestState} {events : EventTable} {e : EventUpsert}
  {startedAt : Int} {id : EventId}

/-! ## Requests with one report each -/

/-- The reports each in a request of its own. -/
def ingestEach (m : SessionMutation) (policy : ProctoringPolicy) (instanceId : InstanceId)
    (foreign : EventId → Bool) (engineVersion : Option String) :
    StoredEvents → List ReportedUpsert → StoredEvents × List EventResult
  | s, [] => (s, [])
  | s, e :: batch =>
    let r := ingestReports m policy instanceId foreign engineVersion s [e]
    let rest := ingestEach m policy instanceId foreign engineVersion r.1 batch
    (rest.1, r.2 ++ rest.2)

/-! ## What a newer version reads of an older one -/

/-- The episode reaches past the reconnect gap, or is left open: reported by a replaced browser it
would be cut. -/
def outlivesReplacement (t : Timeline) (now : Int) (e : EventUpsert) (startedAt : Int) : Bool :=
  let r := cutAtBlock t startedAt (reportedEnd e startedAt now, none)
  e.type.span && match replacedInstanceBoundary t startedAt with
    | some b => cutsAt r.1 b
    | none => r.1.isNone

/-- An episode left open by a replaced browser ends where it ended before, but not after the
session. -/
def endLeftOpen (t : Timeline) (startedAt : Int) (k : KnownEvent) : Int :=
  let x := max startedAt (k.endedAt.getD startedAt)
  t.endedAt.elim x (min x)

/-- The version is of an episode that had ended long ago. -/
def endedLong (t : Timeline) (instanceId : InstanceId) (now : Int) (k : KnownEvent)
    (e : EventUpsert) (startedAt : Int) : Bool :=
  (normaliseEnd t instanceId now (some k) e startedAt).1.any fun x =>
    decide (LATE_DELIVERY_MS < now - x)

/-- Of an event, `k` tells the version `e` the same story as `row`: both or neither count it to a
replaced browser, should that cut it; both know the same end, should it be left open; and both make
it late, or neither. -/
structure SameStory (t : Timeline) (instanceId : InstanceId) (now : Int) (k row : KnownEvent)
    (e : EventUpsert) (startedAt : Int) : Prop where
  reporter : outlivesReplacement t now e startedAt = true →
    (reporterOf instanceId (some k) e = instanceId ↔ reporterOf instanceId (some row) e = instanceId)
  leftOpen : outlivesReplacement t now e startedAt = true →
    reporterOf instanceId (some row) e ≠ instanceId → replacedInstanceBoundary t startedAt = none →
      endLeftOpen t startedAt k = endLeftOpen t startedAt row
  late : (k.deliveredLate || (k.isOpen && endedLong t instanceId now row e startedAt)) =
    (row.deliveredLate || (row.isOpen && endedLong t instanceId now row e startedAt))

section Story

variable {k k' : KnownEvent}

/-- The end of a version before the session's end cuts it. -/
def beforeSessionEnd (t : Timeline) (instanceId : InstanceId) (now : Int) (k : KnownEvent)
    (e : EventUpsert) (startedAt : Int) : Option Int × Option EndClampedBy :=
  let r := cutAtBlock t startedAt (reportedEnd e startedAt now, none)
  if reporterOf instanceId (some k) e ≠ instanceId ∧ e.type.span then
    cutAtReplacement t startedAt k.endedAt r
  else r

theorem normaliseEnd_some : normaliseEnd t instanceId now (some k) e startedAt =
    ((cutAtEnd t (beforeSessionEnd t instanceId now k e startedAt)).1.map (max startedAt),
      (cutAtEnd t (beforeSessionEnd t instanceId now k e startedAt)).2) := rfl

theorem cutAtBlock_not_replaced {x : Option Int} :
    (cutAtBlock t startedAt (x, none)).2 ≠ some .instanceReplaced := by
  rw [cutAtBlock]
  split
  · split <;> simp
  · simp

theorem cutAtEnd_replaced {r : Option Int × Option EndClampedBy} :
    (cutAtEnd t r).2 = some .instanceReplaced ↔ r.2 = some .instanceReplaced := by
  rw [cutAtEnd]
  split
  · split
    · cases r.2 <;> simp
    · rfl
  · rfl

theorem beforeSessionEnd_replaced : (beforeSessionEnd t instanceId now k e startedAt).2 =
      some .instanceReplaced ↔
    reporterOf instanceId (some k) e ≠ instanceId ∧
    outlivesReplacement t now e startedAt = true := by
  have hblock : (cutAtBlock t startedAt (reportedEnd e startedAt now, none)).2 ≠
      some .instanceReplaced := cutAtBlock_not_replaced
  rw [beforeSessionEnd, outlivesReplacement]
  split
  next hc =>
    rw [cutAtReplacement]
    cases hb : replacedInstanceBoundary t startedAt with
    | none =>
      cases hr : (cutAtBlock t startedAt (reportedEnd e startedAt now, none)).1 <;>
        simp [hc.1, hc.2, hblock]
    | some b =>
      cases hr : (cutAtBlock t startedAt (reportedEnd e startedAt now, none)).1 with
      | none => simp [hc.1, hc.2, cutsAt]
      | some x =>
        by_cases hbx : b < x <;> simp [hc.1, hc.2, cutsAt, hbx, hblock]
  next hc =>
    simp only [hblock, false_iff]
    rintro ⟨hrep, hout⟩
    exact hc ⟨hrep, (Bool.and_eq_true_iff.1 hout).1⟩

theorem beforeSessionEnd_of_reporter (h : reporterOf instanceId (some k) e = instanceId) :
    beforeSessionEnd t instanceId now k e startedAt =
      cutAtBlock t startedAt (reportedEnd e startedAt now, none) := by
  exact if_neg fun hc => hc.1 h

theorem beforeSessionEnd_of_not_outlives (h : outlivesReplacement t now e startedAt = false) :
    beforeSessionEnd t instanceId now k e startedAt =
      cutAtBlock t startedAt (reportedEnd e startedAt now, none) := by
  rw [beforeSessionEnd]
  split
  next hc =>
    rw [outlivesReplacement, hc.2, Bool.true_and] at h
    rw [cutAtReplacement]
    cases hb : replacedInstanceBoundary t startedAt with
    | none =>
      simp only [hb] at h
      simp [h]
    | some b =>
      simp only [hb] at h
      cases hr : (cutAtBlock t startedAt (reportedEnd e startedAt now, none)).1 with
      | none => simp [hr, cutsAt] at h
      | some x =>
        rw [hr] at h
        simp [h]
  next => rfl

theorem beforeSessionEnd_of_boundary {b : Int} (h : outlivesReplacement t now e startedAt = true)
    (hrep : reporterOf instanceId (some k) e ≠ instanceId)
    (hb : replacedInstanceBoundary t startedAt = some b) :
    beforeSessionEnd t instanceId now k e startedAt = (some b, some .instanceReplaced) := by
  rw [outlivesReplacement, hb, Bool.and_eq_true_iff] at h
  rw [beforeSessionEnd, if_pos ⟨hrep, h.1⟩, cutAtReplacement, hb]
  exact if_pos h.2

theorem normaliseEnd_leftOpen (h : outlivesReplacement t now e startedAt = true)
    (hrep : reporterOf instanceId (some k) e ≠ instanceId)
    (hb : replacedInstanceBoundary t startedAt = none) (hended : ∀ x ∈ t.endedAt, startedAt ≤ x) :
    normaliseEnd t instanceId now (some k) e startedAt =
      (some (endLeftOpen t startedAt k), some .instanceReplaced) := by
  rw [outlivesReplacement, hb, Bool.and_eq_true_iff] at h
  have hcut : beforeSessionEnd t instanceId now k e startedAt =
      (some (max startedAt (k.endedAt.getD startedAt)), some .instanceReplaced) := by
    rw [beforeSessionEnd, if_pos ⟨hrep, h.1⟩, cutAtReplacement, hb]
    exact if_pos h.2
  rw [normaliseEnd_some, hcut, cutAtEnd, endLeftOpen]
  generalize k.endedAt.getD startedAt = y
  cases hend : t.endedAt with
  | none => simp
  | some x =>
    have hx : startedAt ≤ x := hended x hend
    by_cases hxy : x < max startedAt y
    · simpa [cutsAt, hxy, hx] using hxy.le
    · simpa [cutsAt, hxy] using max_le_iff.1 (not_lt.1 hxy)

theorem normaliseEnd_eq_iff (hended : ∀ x ∈ t.endedAt, startedAt ≤ x) :
    normaliseEnd t instanceId now (some k) e startedAt =
        normaliseEnd t instanceId now (some k') e startedAt ↔
      (outlivesReplacement t now e startedAt = true →
        (reporterOf instanceId (some k) e = instanceId ↔
          reporterOf instanceId (some k') e = instanceId)) ∧
      (outlivesReplacement t now e startedAt = true →
        reporterOf instanceId (some k') e ≠ instanceId → replacedInstanceBoundary t startedAt = none →
          endLeftOpen t startedAt k = endLeftOpen t startedAt k') := by
  constructor
  · intro h
    have hreplaced : ∀ k : KnownEvent, (normaliseEnd t instanceId now (some k) e startedAt).2 =
          some .instanceReplaced ↔
        reporterOf instanceId (some k) e ≠ instanceId ∧
          outlivesReplacement t now e startedAt = true := fun k =>
      cutAtEnd_replaced.trans beforeSessionEnd_replaced
    have hreporter : outlivesReplacement t now e startedAt = true →
        (reporterOf instanceId (some k) e = instanceId ↔
          reporterOf instanceId (some k') e = instanceId) := by
      intro hout
      have hk := hreplaced k
      rw [h, hreplaced k'] at hk
      simpa [hout, not_iff_not] using hk.symm
    refine ⟨hreporter, fun hout hrep hb => ?_⟩
    have hrep' : reporterOf instanceId (some k) e ≠ instanceId := fun hk =>
      hrep ((hreporter hout).1 hk)
    rw [normaliseEnd_leftOpen hout hrep hb hended, normaliseEnd_leftOpen hout hrep' hb hended] at h
    simpa using h
  · rintro ⟨hreporter, hopen⟩
    cases hout : outlivesReplacement t now e startedAt with
    | false =>
      rw [normaliseEnd_some, normaliseEnd_some, beforeSessionEnd_of_not_outlives hout,
        beforeSessionEnd_of_not_outlives hout]
    | true =>
      by_cases hrep : reporterOf instanceId (some k') e = instanceId
      · rw [normaliseEnd_some, normaliseEnd_some, beforeSessionEnd_of_reporter hrep,
          beforeSessionEnd_of_reporter ((hreporter hout).2 hrep)]
      · have hrep' : reporterOf instanceId (some k) e ≠ instanceId := fun hk =>
          hrep ((hreporter hout).1 hk)
        cases hb : replacedInstanceBoundary t startedAt with
        | none =>
          rw [normaliseEnd_leftOpen hout hrep hb hended, normaliseEnd_leftOpen hout hrep' hb hended,
            hopen hout hrep hb]
        | some b =>
          rw [normaliseEnd_some, normaliseEnd_some, beforeSessionEnd_of_boundary hout hrep hb,
            beforeSessionEnd_of_boundary hout hrep' hb]

/-- The columns of a row that no version of its event changes, and the version. -/
def EventRow.settledColumns (r : EventRow) :
    EventId × EventType × EventSource × Nat × Option InstanceId × Int :=
  (r.id, r.type, r.source, r.version, r.clientInstanceId, r.firstReceivedAt)

theorem updatedRow_eq_iff {r r' : EventRow} (hended : ∀ x ∈ t.endedAt, startedAt ≤ x)
    (hkept : r.settledColumns = r'.settledColumns) :
    updatedRow now k e startedAt (normaliseEnd t instanceId now (some k) e startedAt) r =
        updatedRow now k' e startedAt (normaliseEnd t instanceId now (some k') e startedAt) r' ↔
      SameStory t instanceId now k k' e startedAt := by
  have hlate : ∀ j : KnownEvent, (j.deliveredLate || (normaliseEnd t instanceId now (some k') e
        startedAt).1.any fun x => j.isOpen && decide (LATE_DELIVERY_MS < now - x)) =
      (j.deliveredLate || (j.isOpen && endedLong t instanceId now k' e startedAt)) := by
    rw [endedLong]
    cases (normaliseEnd t instanceId now (some k') e startedAt).1 <;> simp
  constructor
  · intro h
    have hend : normaliseEnd t instanceId now (some k) e startedAt =
        normaliseEnd t instanceId now (some k') e startedAt := by
      refine Prod.ext (congrArg EventRow.endedAt h) ?_
      exact congrArg (fun r : EventRow => r.details.endClampedBy) h
    obtain ⟨hreporter, hopen⟩ := (normaliseEnd_eq_iff hended).1 hend
    refine ⟨hreporter, hopen, ?_⟩
    have := congrArg EventRow.deliveredLate h
    rw [hend] at this
    rw [← hlate, ← hlate]
    exact this
  · rintro ⟨hreporter, hopen, hstory⟩
    rw [(normaliseEnd_eq_iff hended).2 ⟨hreporter, hopen⟩]
    rw [← hlate, ← hlate] at hstory
    simp only [EventRow.settledColumns, Prod.mk.injEq] at hkept
    obtain ⟨hid, htype, hsource, -, hclient, hfirst⟩ := hkept
    simp only [updatedRow, hstory, hid, htype, hsource, hclient, hfirst]

end Story

/-! ## The state of a batch -/

theorem takenRow_stamp (h : refusal t policy now foreign (st.existing e.id) st.count e = none)
    (hsound : st.Sound) : (takenRow t instanceId now st e).known.stamp = (e.type, e.version) := by
  have hsome := hsound e.id
  rw [takenRow]
  cases hk : st.existing e.id with
  | none => rfl
  | some k =>
    rw [hk] at hsome h
    cases hrow : st.events.find? e.id with
    | none => rfl
    | some row =>
      rw [hrow, Option.map_some, Option.map_some, Option.some.injEq] at hsome
      have htype : row.type = k.type := congrArg Prod.fst hsome.symm
      exact Prod.ext (htype.trans ((refusal_eq_none_iff.1 h).2.1 k rfl).1) rfl

theorem IngestState.Sound.one (h : st.Sound) :
    (ingestOne t policy instanceId now foreign st e).1.Sound := by
  cases hr : refusal t policy now foreign (st.existing e.id) st.count e with
  | some r =>
    rw [ingestOne_refused hr]
    exact h
  | none =>
    obtain ⟨-, htakes⟩ := ingestOne_accepted instanceId h hr
    intro id
    rw [htakes.find?]
    split
    next hid => rw [hid, htakes.stamp, Option.map_some, takenRow_stamp hr h]
    next hid => rw [htakes.existing id hid, h id]

/-! ## A batch and its single events

After as many upserts, a batch and the single events have stored the same versions of the same
events. -/

/-- The batch in the state `st` has stored what the single events have stored in `events`, but for
the columns that a version changes. -/
structure Lockstep (st : IngestState) (events : EventTable) : Prop where
  sound : st.Sound
  count : st.count = st.events.rows.length
  ids : st.events.rows.map (·.id) = events.rows.map (·.id)
  rows : ∀ id, (st.events.find? id).map (·.settledColumns) =
    (events.find? id).map (·.settledColumns)

theorem lockstep_start : Lockstep (ingestStart events) events :=
  ⟨sound_ingestStart, rfl, rfl, fun _ => rfl⟩

theorem stamp_of_settledColumns {r r' : Option EventRow}
    (h : r.map (·.settledColumns) = r'.map (·.settledColumns)) :
    r.map (·.known.stamp) = r'.map (·.known.stamp) := by
  have := congrArg (Option.map fun c => (c.2.1, c.2.2.2.1)) h
  rw [Option.map_map, Option.map_map] at this
  exact this

theorem Lockstep.stamp (h : Lockstep st events) (id : EventId) :
    (st.existing id).map (·.stamp) = ((ingestStart events).existing id).map (·.stamp) := by
  rw [h.sound id, sound_ingestStart id]
  exact stamp_of_settledColumns (h.rows id)

theorem Lockstep.refusal_eq (h : Lockstep st events) :
    refusal t policy now foreign ((ingestStart events).existing e.id) (ingestStart events).count e =
      refusal t policy now foreign (st.existing e.id) st.count e := by
  have hcount : (ingestStart events).count = st.count := by
    rw [h.count, ← length_map (f := (·.id)), h.ids, length_map]
    rfl
  rw [hcount]
  exact refusal_of_stamp (h.stamp e.id).symm

theorem Lockstep.isSome_eq (h : Lockstep st events) (id : EventId) :
    ((ingestStart events).existing id).isSome = (st.existing id).isSome := by
  have := congrArg Option.isSome (h.stamp id)
  simpa using this.symm

theorem Lockstep.takenRow_settledColumns (h : Lockstep st events) :
    (takenRow t instanceId now st e).settledColumns =
      (takenRow t instanceId now (ingestStart events) e).settledColumns := by
  have hrows := h.rows e.id
  have hsome := h.isSome_eq e.id
  simp only [takenRow]
  cases hk : st.existing e.id with
  | none =>
    have hk' : (ingestStart events).existing e.id = none := by simpa [hk] using hsome
    rw [hk']
  | some k =>
    obtain ⟨k', hk'⟩ : ∃ k', (ingestStart events).existing e.id = some k' := by
      simpa [hk, Option.isSome_iff_exists] using hsome
    rw [hk']
    have hevents : (ingestStart events).events = events := rfl
    cases hrow : st.events.find? e.id with
    | none =>
      rw [hrow] at hrows
      rw [hevents, show events.find? e.id = none by simpa using hrows.symm]
      rfl
    | some row =>
      rw [hrow] at hrows
      obtain ⟨row', hrow', heq⟩ : ∃ row', events.find? e.id = some row' ∧
          row'.settledColumns = row.settledColumns := by
        simpa [eq_comm] using hrows
      rw [hevents, hrow']
      simp only [EventRow.settledColumns, Prod.mk.injEq] at heq
      simp only [updatedRow, EventRow.settledColumns, heq]

variable (t policy instanceId now foreign e) in
/-- **One upsert, in a batch and alone**: it is answered the same, and the two stay in step. -/
theorem Lockstep.one (h : Lockstep st events) :
    (ingestOne t policy instanceId now foreign st e).2 =
        (ingestOne t policy instanceId now foreign (ingestStart events) e).2 ∧
      Lockstep (ingestOne t policy instanceId now foreign st e).1
        (ingestOne t policy instanceId now foreign (ingestStart events) e).1.events := by
  cases hr : refusal t policy now foreign (st.existing e.id) st.count e with
  | some r =>
    rw [ingestOne_refused hr, ingestOne_refused (h.refusal_eq.trans hr)]
    exact ⟨rfl, h⟩
  | none =>
    obtain ⟨hres, htakes⟩ := ingestOne_accepted instanceId h.sound hr
    obtain ⟨hres', htakes'⟩ := ingestOne_accepted instanceId
      (sound_ingestStart : (ingestStart events).Sound) (h.refusal_eq.trans hr)
    refine ⟨by rw [hres, hres', h.isSome_eq], h.sound.one, ?_, ?_, fun id => ?_⟩
    · have hlen := congrArg length htakes.ids
      simp only [length_map, length_append] at hlen
      rw [htakes.count, hlen, h.count]
      split <;> rfl
    · rw [htakes.ids, htakes'.ids, h.isSome_eq, h.ids]
      rfl
    · rw [htakes.find?, htakes'.find?]
      split
      · rw [Option.map_some, Option.map_some, h.takenRow_settledColumns]
      · exact h.rows id

/-- What the batch knows of the event tells the version `e` the same story as the row that the
single events have stored. -/
def Remembers (t : Timeline) (instanceId : InstanceId) (now : Int) (st : IngestState)
    (events : EventTable) (e : EventUpsert) : Prop :=
  ∀ k ∈ st.existing e.id, ∀ row ∈ events.find? e.id,
    SameStory t instanceId now k row.known e (e.startedAt.getD now)

theorem Lockstep.row_eq_iff (h : Lockstep st events)
    (hr : refusal t policy now foreign (st.existing e.id) st.count e = none) :
    (ingestOne t policy instanceId now foreign st e).1.events.find? e.id =
        (ingestOne t policy instanceId now foreign (ingestStart events) e).1.events.find? e.id ↔
      Remembers t instanceId now st events e := by
  obtain ⟨-, htakes⟩ := ingestOne_accepted instanceId h.sound hr
  obtain ⟨-, htakes'⟩ := ingestOne_accepted instanceId
    (sound_ingestStart : (ingestStart events).Sound) (h.refusal_eq.trans hr)
  have hended : ∀ x ∈ t.endedAt, e.startedAt.getD now ≤ x := (accepted_of_refusal hr).notEnded
  have hrows := h.rows e.id
  have hsome := h.sound e.id
  have hknown : (ingestStart events).existing e.id = (events.find? e.id).map (·.known) := rfl
  have hevents : (ingestStart events).events = events := rfl
  rw [htakes.find?, htakes'.find?, Remembers, takenRow,
    takenRow, hknown, hevents]
  cases hk : st.existing e.id with
  | none =>
    rw [hk] at hsome
    rw [show st.events.find? e.id = none by simpa using hsome.symm] at hrows
    rw [show events.find? e.id = none by simpa using hrows.symm]
    simp
  | some k =>
    rw [hk] at hsome
    obtain ⟨row, hrow⟩ : ∃ row, st.events.find? e.id = some row := by
      cases hrow : st.events.find? e.id with
      | none => simp [hrow] at hsome
      | some row => exact ⟨row, rfl⟩
    rw [hrow] at hrows
    obtain ⟨row', hrow', heq⟩ : ∃ row', events.find? e.id = some row' ∧
        row'.settledColumns = row.settledColumns := by
      simpa [eq_comm] using hrows
    rw [hrow, hrow']
    simpa using updatedRow_eq_iff hended heq.symm

theorem ingestOne_find?_of_ne (hsound : st.Sound)
    (h : ¬ (e.id = id ∧ refusal t policy now foreign (st.existing e.id) st.count e = none)) :
    (ingestOne t policy instanceId now foreign st e).1.events.find? id = st.events.find? id := by
  cases hr : refusal t policy now foreign (st.existing e.id) st.count e with
  | some r => rw [ingestOne_refused hr]
  | none =>
    rw [(ingestOne_accepted instanceId hsound hr).2.find?]
    exact if_neg fun hid => h ⟨hid.symm, hr⟩

/-! ## The whole batch -/

/-- The batch takes a version of the event. -/
def TakesOf (t : Timeline) (policy : ProctoringPolicy) (instanceId : InstanceId) (now : Int)
    (foreign : EventId → Bool) (id : EventId) : IngestState → List EventUpsert → Prop
  | _, [] => False
  | st, e :: batch =>
    e.id = id ∧ refusal t policy now foreign (st.existing e.id) st.count e = none ∨
      TakesOf t policy instanceId now foreign id (ingestOne t policy instanceId now foreign st e).1 batch

/-- At the last version of the event that the batch takes, it remembers enough of it. -/
def RemembersLast (t : Timeline) (policy : ProctoringPolicy) (instanceId : InstanceId) (now : Int)
    (foreign : EventId → Bool) (id : EventId) : IngestState → EventTable → List EventUpsert → Prop
  | _, _, [] => True
  | st, events, e :: batch =>
    let st' := (ingestOne t policy instanceId now foreign st e).1
    let events' := (ingestOne t policy instanceId now foreign (ingestStart events) e).1.events
    (e.id = id → refusal t policy now foreign (st.existing e.id) st.count e = none →
        ¬ TakesOf t policy instanceId now foreign id st' batch →
          Remembers t instanceId now st events e) ∧
      RemembersLast t policy instanceId now foreign id st' events' batch

/-- The upserts one by one, each as a batch of its own. -/
def ingestSingly (t : Timeline) (policy : ProctoringPolicy) (instanceId : InstanceId) (now : Int)
    (foreign : EventId → Bool) : EventTable → List EventUpsert → EventTable × List EventResult
  | events, [] => (events, [])
  | events, e :: batch =>
    let one := ingestOne t policy instanceId now foreign (ingestStart events) e
    let rest := ingestSingly t policy instanceId now foreign one.1.events batch
    (rest.1, one.2 :: rest.2)

variable {batch : List EventUpsert}

variable (t policy instanceId now foreign batch) in
/-- **A batch, in step with its single events.** -/
theorem Lockstep.all (h : Lockstep st events) :
    (ingestAll t policy instanceId now foreign st batch).2 =
        (ingestSingly t policy instanceId now foreign events batch).2 ∧
      Lockstep (ingestAll t policy instanceId now foreign st batch).1
        (ingestSingly t policy instanceId now foreign events batch).1 := by
  induction batch generalizing st events with
  | nil => exact ⟨rfl, h⟩
  | cons e batch ih =>
    obtain ⟨hres, hstep⟩ := h.one t policy instanceId now foreign e
    obtain ⟨hrest, hend⟩ := ih hstep
    exact ⟨congrArg₂ cons hres hrest, hend⟩

theorem Lockstep.find?_eq_iff (h : Lockstep st events) :
    (ingestAll t policy instanceId now foreign st batch).1.events.find? id =
        (ingestSingly t policy instanceId now foreign events batch).1.find? id ↔
      (¬ TakesOf t policy instanceId now foreign id st batch →
        st.events.find? id = events.find? id) ∧
      RemembersLast t policy instanceId now foreign id st events batch := by
  induction batch generalizing st events with
  | nil => simp [ingestAll, ingestSingly, TakesOf, RemembersLast]
  | cons e batch ih =>
    have hrest := ih (h.one t policy instanceId now foreign e).2
    simp only [ingestAll, ingestSingly, TakesOf, RemembersLast]
    rw [hrest]
    by_cases hwrites : e.id = id ∧ refusal t policy now foreign (st.existing e.id) st.count e = none
    · obtain ⟨rfl, hr⟩ := hwrites
      rw [h.row_eq_iff hr]
      simp only [hr, true_and, true_or, not_true_eq_false, false_implies, forall_const]
    · rw [ingestOne_find?_of_ne h.sound hwrites, ingestOne_find?_of_ne sound_ingestStart
        (fun hw => hwrites (h.refusal_eq ▸ hw))]
      have hvacuous : (e.id = id → refusal t policy now foreign (st.existing e.id) st.count e = none →
          ¬ TakesOf t policy instanceId now foreign id
              (ingestOne t policy instanceId now foreign st e).1 batch →
            Remembers t instanceId now st events e) ↔ True :=
        iff_true_intro fun hid hr => absurd ⟨hid, hr⟩ hwrites
      simp only [hwrites, false_or, hvacuous, true_and]
      rfl

/-- Of every event, the batch remembers enough at the last version of it that it takes. -/
def RemembersEnough (t : Timeline) (policy : ProctoringPolicy) (instanceId : InstanceId) (now : Int)
    (foreign : EventId → Bool) (events : EventTable) (batch : List EventUpsert) : Prop :=
  ∀ id, RemembersLast t policy instanceId now foreign id (ingestStart events) events batch

theorem ingestAll_eq_ingestSingly_iff :
    (ingestAll t policy instanceId now foreign (ingestStart events) batch).1.events =
        (ingestSingly t policy instanceId now foreign events batch).1 ↔
      RemembersEnough t policy instanceId now foreign events batch := by
  have hrow : ∀ id, (ingestAll t policy instanceId now foreign (ingestStart events)
        batch).1.events.find? id = (ingestSingly t policy instanceId now foreign events batch).1.find? id ↔
      RemembersLast t policy instanceId now foreign id (ingestStart events) events batch := fun id =>
    lockstep_start.find?_eq_iff.trans (and_iff_right fun _ => rfl)
  constructor
  · exact fun h id => (hrow id).1 (by rw [h])
  · exact fun h => Table.ext_find? (lockstep_start.all ..).2.ids fun id => (hrow id).2 (h id)

theorem remembersEnough_of_mem (h : ∀ id ∈ batch.map (·.id),
    RemembersLast t policy instanceId now foreign id (ingestStart events) events batch) :
    RemembersEnough t policy instanceId now foreign events batch := by
  have hother : ∀ id (batch : List EventUpsert) (st : IngestState) (events : EventTable),
      id ∉ batch.map (·.id) → RemembersLast t policy instanceId now foreign id st events batch := by
    intro id batch
    induction batch with
    | nil => exact fun _ _ _ => trivial
    | cons e batch ih =>
      intro st events hid
      rw [map_cons, mem_cons, not_or] at hid
      exact ⟨fun heq => absurd heq.symm hid.1, ih _ _ hid.2⟩
  intro id
  by_cases hid : id ∈ batch.map (·.id)
  · exact h id hid
  · exact hother id batch _ _ hid

/-! ## Requests -/

theorem displayEventId_ingestAll (h : ∀ e ∈ batch, e.type ≠ .additionalDisplayDetected)
    (hst : st.displayEventId = none) :
    (ingestAll t policy instanceId now foreign st batch).1.displayEventId = none := by
  induction batch generalizing st with
  | nil => exact hst
  | cons e batch ih =>
    refine ih (fun x hx => h x (mem_cons_of_mem _ hx)) ?_
    by_contra hne
    rcases displayEventId_ingestOne (Option.isSome_iff_ne_none.2 hne) with h' | h'
    · simp [hst] at h'
    · exact h e mem_cons_self h'

section Requests

variable {m : SessionMutation} {engineVersion : Option String} {s : StoredEvents}
  {reports : List ReportedUpsert}

variable (policy foreign engineVersion s) in
theorem ingestReports_eq (hctl : assertInControl m.session instanceId = .ok ())
    (hno : ∀ e ∈ reports, e.type ≠ .additionalDisplayDetected) :
    ingestReports m policy instanceId foreign engineVersion s reports =
      let r := ingestAll (timelineOf m) policy instanceId m.now foreign (ingestStart s.events)
        (reports.map (·.toEventUpsert))
      (⟨r.1.events, (reports.zip r.2).foldl
        (fun columns p => writeColumns (timelineOf m) engineVersion columns p.1 p.2) s.columns⟩,
        r.2) := by
  have hdisplay : (ingestAll (timelineOf m) policy instanceId m.now foreign (ingestStart s.events)
      (reports.map (·.toEventUpsert))).1.displayEventId = none :=
    displayEventId_ingestAll (by simpa using hno) rfl
  have htimeline : timelineOf { m with events := s.events } = timelineOf m := rfl
  rw [ingestReports, ingestEvents, hctl]
  simp only [bind, Except.bind, htimeline]
  simp only [ingestStart] at hdisplay ⊢
  simp only [hdisplay, Option.isSome_none, Bool.false_eq_true, false_and, if_false]
  rfl

theorem ingestReports_error {err : HttpError}
    (hctl : assertInControl m.session instanceId = .error err) :
    ingestReports m policy instanceId foreign engineVersion s reports = (s, []) := by
  rw [ingestReports, ingestEvents, hctl]
  rfl

theorem ingestEach_error {err : HttpError}
    (hctl : assertInControl m.session instanceId = .error err) :
    ingestEach m policy instanceId foreign engineVersion s reports = (s, []) := by
  induction reports with
  | nil => rfl
  | cons e reports ih =>
    rw [ingestEach]
    simp only [ingestReports_error hctl, ih, append_nil]

theorem ingestEach_eq (hctl : assertInControl m.session instanceId = .ok ())
    (hno : ∀ e ∈ reports, e.type ≠ .additionalDisplayDetected) :
    ingestEach m policy instanceId foreign engineVersion s reports =
      let r := ingestSingly (timelineOf m) policy instanceId m.now foreign s.events
        (reports.map (·.toEventUpsert))
      (⟨r.1, (reports.zip r.2).foldl
        (fun columns p => writeColumns (timelineOf m) engineVersion columns p.1 p.2) s.columns⟩,
        r.2) := by
  induction reports generalizing s with
  | nil => rfl
  | cons e reports ih =>
    have he : ∀ x ∈ [e], x.type ≠ .additionalDisplayDetected := by simpa using hno e mem_cons_self
    have hone := ingestReports_eq policy foreign engineVersion s hctl he
    rw [ingestEach, hone]
    simp only [ih fun x hx => hno x (mem_cons_of_mem _ hx)]
    rfl

/-- **A batch and its single events.**  The answers of a batch without an additional display are
those of its events in requests of their own, and so are the columns that nothing reads; the rows
are the same exactly when the batch remembers enough of every event. -/
theorem ingestReports_eq_ingestEach_iff (hno : ∀ e ∈ reports, e.type ≠ .additionalDisplayDetected) :
    (ingestReports m policy instanceId foreign engineVersion s reports).2 =
        (ingestEach m policy instanceId foreign engineVersion s reports).2 ∧
      (ingestReports m policy instanceId foreign engineVersion s reports).1.columns =
        (ingestEach m policy instanceId foreign engineVersion s reports).1.columns ∧
      (ingestReports m policy instanceId foreign engineVersion s reports =
          ingestEach m policy instanceId foreign engineVersion s reports ↔
        (assertInControl m.session instanceId = .ok () →
          RemembersEnough (timelineOf m) policy instanceId m.now foreign s.events
            (reports.map (·.toEventUpsert)))) := by
  cases hctl : assertInControl m.session instanceId with
  | error err => simp [ingestReports_error hctl, ingestEach_error hctl]
  | ok u =>
    rw [ingestReports_eq policy foreign engineVersion s hctl hno, ingestEach_eq hctl hno]
    have hstart : Lockstep (ingestStart s.events) s.events := lockstep_start
    have hresults := hstart.all (timelineOf m) policy instanceId m.now foreign
      (reports.map (·.toEventUpsert))
    simp only [hresults.1, Prod.mk.injEq, StoredEvents.mk.injEq, and_true, true_and]
    exact ingestAll_eq_ingestSingly_iff.trans ⟨fun h _ => h, fun h => h trivial⟩

/-- A session in its second minute, with browser 2 in control. -/
def inSecondMinute : SessionMutation :=
  let m := inControlOf2 100000
  { m with session := { m.session with durationMs := 3600000 } }

/-- An episode of looking away, opened and, in the second version, closed. -/
def openedThenClosed : List ReportedUpsert :=
  [{ lookedAway 2 1 with }, { lookedAway 2 2 with }]

/-- Both versions arrive in time, in one batch. -/
theorem two_versions_in_time :
    ingestReports (inControlOf2 6000) {} ⟨2⟩ (fun _ => false) none ⟨.empty, fun _ => none⟩
        openedThenClosed =
      ingestEach (inControlOf2 6000) {} ⟨2⟩ (fun _ => false) none ⟨.empty, fun _ => none⟩
        openedThenClosed := by
  refine (ingestReports_eq_ingestEach_iff (by decide)).2.2.2 fun _ => remembersEnough_of_mem ?_
  intro id hid
  obtain rfl : id = ⟨7⟩ := by simpa [openedThenClosed, lookedAway] using hid
  refine ⟨fun _ _ _ => ?_, fun _ _ _ => ?_, trivial⟩
  · rintro k ⟨⟩
  · rintro k ⟨⟩ row ⟨⟩
    exact ⟨fun hcut => absurd hcut (by decide), fun hcut => absurd hcut (by decide), by decide⟩

/-- Both versions arrive late, in one batch: the second row no longer says so, as it does after two
requests. -/
theorem late_delivery_forgotten :
    (ingestReports inSecondMinute {} ⟨2⟩ (fun _ => false) none ⟨.empty, fun _ => none⟩
        openedThenClosed).1.events.rows.map (fun r => (r.version, r.deliveredLate)) = [(2, false)] ∧
      (ingestEach inSecondMinute {} ⟨2⟩ (fun _ => false) none ⟨.empty, fun _ => none⟩
        openedThenClosed).1.events.rows.map (fun r => (r.version, r.deliveredLate)) = [(2, true)] := by
  decide

end Requests

end SmartProctoring
