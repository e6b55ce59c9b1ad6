import Mathlib.Data.List.Dedup
import SmartProctoring.Lib.Register
import SmartProctoring.Server.IngestRows

/-!
# Reported events converge

Deliveries of single events while the timeline and the browser in control stay the same.  What a
report becomes depends, beyond the timeline, on the time of its delivery and on the stored row in a
few places only: a closing report without an end, a report that leaves the episode of a replaced
browser open, the limit of events, and a start in the future.  Where none of them decides, the
stored event is a last-writer-wins register of its versions.

The columns that nothing reads follow: those written by every version are those of the last accepted
one, and the two written on insert are those of the first (`StoredEvents`).
-/

set_option autoImplicit false

namespace SmartProctoring

open List Option

variable {t : Timeline} {policy : ProctoringPolicy} {instanceId : InstanceId}
  {foreign : EventId → Bool} {events : EventTable} {st : IngestState} {now now' : Int}
  {e e' : EventUpsert}

/-! ## One upsert

What a batch checks of a known event is its type and its version, and of these it always knows the
stored ones. -/

/-- What `ingestEvents` starts from. -/
def ingestStart (events : EventTable) : IngestState :=
  { events, existing := knownEvents events, count := events.rows.length }

/-- The version was stored. -/
def EventResult.accepted (r : EventResult) : Bool := r == .created || r == .updated

variable {prev : Option KnownEvent} {count : Nat}

theorem not_accepted_of_refusal {r : EventResult}
    (h : refusal t policy now foreign prev count e = some r) : r.accepted = false := by
  have hite : ∀ {c : Prop} [Decidable c] {r' : EventResult} {x : Option EventResult},
      r'.accepted = false → (x = some r → r.accepted = false) →
      (if c then some r' else x) = some r → r.accepted = false := by
    intro c _ r' x hr' hx hif
    split at hif
    · obtain rfl : r' = r := by simpa using hif
      exact hr'
    · exact hx hif
  refine hite rfl (hite rfl (hite rfl (hite rfl (hite rfl fun h => ?_)))) h
  split at h
  · obtain rfl : EventResult.rejected .invalidTimestamp = r := by simpa using h
    rfl
  · exact hite rfl (hite rfl (hite rfl (hite rfl (hite rfl (hite rfl fun h => by cases h))))) h

theorem refusal_eq_none_iff :
    refusal t policy now foreign prev count e = none ↔
      refusal t policy now foreign none 0 e = none ∧
        (∀ p ∈ prev, p.type = e.type ∧ p.version < e.version) ∧
        (prev = none → count < MAX_EVENTS_PER_SESSION) := by
  have hprev : (∀ p ∈ prev, p.type = e.type ∧ p.version < e.version) ↔
      ¬ (prev.any fun p => decide (p.type ≠ e.type)) = true ∧
        ¬ (prev.any fun p => decide (e.version ≤ p.version)) = true := by
    cases prev <;> simp
  have hroom : (prev = none → count < MAX_EVENTS_PER_SESSION) ↔
      ¬ (prev.isNone ∧ MAX_EVENTS_PER_SESSION ≤ count) := by
    cases prev <;> simp
  have hzero : ¬ MAX_EVENTS_PER_SESSION ≤ 0 := by decide
  have hite : ∀ {c : Prop} [Decidable c] {r : EventResult} {x : Option EventResult},
      (if c then some r else x) = none ↔ ¬ c ∧ x = none := by
    intro c _ r x
    split <;> simp [*]
  rw [refusal, refusal]
  simp only [hite, any_none, Bool.false_eq_true, not_false_eq_true, true_and, hzero,
    and_false]
  cases e.startedAt with
  | none => simp
  | some startedAt =>
    simp only [hite, not_false_eq_true, and_true]
    rw [hprev, hroom]
    constructor
    · rintro ⟨h₁, h₂, h₃, hp₁, hp₂, h₄, h₅, h₆, h₇, h₈, hcount⟩
      exact ⟨⟨h₁, h₂, h₃, h₄, h₅, h₆, h₇, h₈⟩, ⟨hp₁, hp₂⟩, hcount⟩
    · rintro ⟨⟨h₁, h₂, h₃, h₄, h₅, h₆, h₇, h₈⟩, ⟨hp₁, hp₂⟩, hcount⟩
      exact ⟨h₁, h₂, h₃, hp₁, hp₂, h₄, h₅, h₆, h₇, h₈, hcount⟩

theorem refusal_congr (hnow : ∀ s ∈ e.startedAt, s ≤ now + FUTURE_TOLERANCE_MS)
    (hnow' : ∀ s ∈ e.startedAt, s ≤ now' + FUTURE_TOLERANCE_MS)
    :
    refusal t policy now foreign prev count e = refusal t policy now' foreign prev count e := by
  rw [refusal, refusal]
  cases hs : e.startedAt with
  | none => rfl
  | some startedAt =>
    have h := Int.not_lt.2 (hnow startedAt hs)
    have h' := Int.not_lt.2 (hnow' startedAt hs)
    simp only [h, h', if_false]

/-- What is checked of a known event. -/
def KnownEvent.stamp (k : KnownEvent) : EventType × Nat := (k.type, k.version)

theorem refusal_of_stamp {prev prev' : Option KnownEvent} {count : Nat}
    (h : prev.map (·.stamp) = prev'.map (·.stamp)) :
    refusal t policy now foreign prev count e = refusal t policy now foreign prev' count e := by
  cases prev with
  | none =>
    cases prev' with
    | none => rfl
    | some k' => simp at h
  | some k =>
    cases prev' with
    | none => simp at h
    | some k' =>
      simp only [Option.map_some, Option.some.injEq, KnownEvent.stamp, Prod.mk.injEq] at h
      simp only [refusal, Option.any_some, h.1, h.2, Option.isNone_some]

/-- What the batch knows of an event has the type and the version of the stored row. -/
def IngestState.Sound (st : IngestState) : Prop :=
  ∀ id, (st.existing id).map (·.stamp) = (st.events.find? id).map (·.known.stamp)

theorem sound_ingestStart : (ingestStart events).Sound := by
  intro id
  simp only [ingestStart, knownEvents, Option.map_map]
  rfl

/-- The row that an accepted upsert leaves. -/
def takenRow (t : Timeline) (instanceId : InstanceId) (now : Int) (st : IngestState)
    (e : EventUpsert) : EventRow :=
  let startedAt := e.startedAt.getD now
  let r := normaliseEnd t instanceId now (st.existing e.id) e startedAt
  match st.existing e.id, st.events.find? e.id with
  | some k, some row => updatedRow now k e startedAt r row
  | _, _ => insertedRow now instanceId e startedAt r

/-- `st'` is what accepting the upsert makes of `st`. -/
structure StoresIt (t : Timeline) (instanceId : InstanceId) (now : Int) (st : IngestState)
    (e : EventUpsert) (st' : IngestState) : Prop where
  find? : ∀ id, st'.events.find? id =
    if id = e.id then some (takenRow t instanceId now st e) else st.events.find? id
  stamp : (st'.existing e.id).map (·.stamp) = some (e.type, e.version)
  existing : ∀ id, id ≠ e.id → st'.existing id = st.existing id
  ids : st'.events.rows.map (·.id) =
    st.events.rows.map (·.id) ++ if (st.existing e.id).isSome then [] else [e.id]
  count : st'.count = st.count + if (st.existing e.id).isSome then 0 else 1

theorem ingestOne_refused {r : EventResult}
    (h : refusal t policy now foreign (st.existing e.id) st.count e = some r) :
    ingestOne t policy instanceId now foreign st e = (st, r) := by
  rw [ingestOne]
  simp only [h]

variable (instanceId) in
/-- **One upsert.**  What is not refused is stored. -/
theorem ingestOne_accepted (hsound : st.Sound)
    (h : refusal t policy now foreign (st.existing e.id) st.count e = none) :
    (ingestOne t policy instanceId now foreign st e).2 =
        (if (st.existing e.id).isSome then .updated else .created) ∧
      StoresIt t instanceId now st e (ingestOne t policy instanceId now foreign st e).1 := by
  have hsome := hsound e.id
  cases hk : st.existing e.id with
  | none =>
    rw [hk] at h hsome
    have hnone : st.events.find? e.id = none := by simpa using hsome.symm
    have hfresh : ∀ row ∈ st.events.rows, row.id ≠ e.id := Table.find?_eq_none.1 hnone
    simp only [ingestOne, hk, h]
    refine ⟨rfl, fun id => ?_, ?_, fun id hid => ?_, ?_, ?_⟩
    · simp only [IngestState.know]
      rw [Table.find?_insert (by exact hnone), takenRow, hk]
      rfl
    · simp [IngestState.know, KnownEvent.stamp]
    · exact if_neg hid
    · simp only [IngestState.know]
      rw [Table.insert, dif_neg]
      · simp [insertedRow, hk]
      · simpa [insertedRow] using hfresh
    · simp [IngestState.know, hk]
  | some k =>
    rw [hk] at h hsome
    obtain ⟨row, hrow, hstamp⟩ : ∃ row, st.events.find? e.id = some row ∧ row.known.stamp = k.stamp := by
      simpa [eq_comm] using hsome
    obtain ⟨htype, hver⟩ := (refusal_eq_none_iff.1 h).2.1 k rfl
    obtain ⟨hmem, hid⟩ := Table.find?_eq_some.1 hrow
    have hnewer : row.version < e.version := by
      have : row.version = k.version := congrArg Prod.snd hstamp
      omega
    have hany : (st.events.rows.any fun row => row.id == e.id && decide (row.version < e.version)) =
        true :=
      any_eq_true.2 ⟨row, hmem, by simpa [hid] using hnewer⟩
    simp only [ingestOne, hk, h, hany, if_true]
    refine ⟨rfl, fun id => ?_, ?_, fun id hid => ?_, ?_, ?_⟩
    · simp only [IngestState.know]
      rw [Table.find?_modify, takenRow, hk, hrow]
      split
      next heq =>
        subst heq
        rw [hrow, Option.map_some, if_pos (by simp [hid, hnewer])]
      next hne =>
        cases hx : st.events.find? id with
        | none => rfl
        | some x =>
          have hxid := (Table.find?_eq_some.1 hx).2
          rw [Option.map_some, if_neg]
          simp [hxid, hne]
    · simp [IngestState.know, KnownEvent.stamp, htype]
    · exact if_neg hid
    · simp only [IngestState.know, Table.modify, List.map_map, Option.isSome_some, if_true,
        hk, append_nil]
      refine map_congr_left fun r _ => ?_
      simp only [Function.comp_apply]
      split <;> rfl
    · simp [IngestState.know, hk]

/-- The row that an accepted report leaves. -/
def writtenRow (t : Timeline) (instanceId : InstanceId) (events : EventTable) (now : Int)
    (e : EventUpsert) : EventRow :=
  let startedAt := e.startedAt.getD now
  let r := normaliseEnd t instanceId now (knownEvents events e.id) e startedAt
  match events.find? e.id with
  | none => insertedRow now instanceId e startedAt r
  | some row => updatedRow now row.known e startedAt r row

theorem takenRow_ingestStart :
    takenRow t instanceId now (ingestStart events) e = writtenRow t instanceId events now e := by
  simp only [takenRow, writtenRow, ingestStart, knownEvents]
  cases events.find? e.id <;> rfl

@[simp] theorem writtenRow_id : (writtenRow t instanceId events now e).id = e.id := by
  rw [writtenRow]
  split
  · rfl
  next row hrow => exact (Table.find?_eq_some.1 hrow).2

@[simp] theorem writtenRow_version :
    (writtenRow t instanceId events now e).version = e.version := by
  rw [writtenRow]
  split <;> rfl

/-- The row holds the status, start, end, details and version of the report, delivered at `now`
where `prev` was known of the event. -/
structure LeftBy (t : Timeline) (instanceId : InstanceId) (now : Int) (prev : Option KnownEvent)
    (e : EventUpsert) (row : EventRow) : Prop where
  version : row.version = e.version
  startedAt : e.startedAt = some row.startedAt
  details : row.details.reported = e.details
  endedAt : (row.endedAt, row.details.endClampedBy) =
    normaliseEnd t instanceId now prev e row.startedAt
  /-- The end is the reported one, unless the timeline cuts it. -/
  uncut : row.details.endClampedBy = none →
    row.endedAt = (reportedEnd e row.startedAt now).map (max row.startedAt)
  status : row.status = if row.endedAt.isSome then .closed else .open

theorem normaliseEnd_uncut {startedAt : Int}
    (h : (normaliseEnd t instanceId now prev e startedAt).2 = none) :
    (normaliseEnd t instanceId now prev e startedAt).1 =
      (reportedEnd e startedAt now).map (max startedAt) := by
  have hend : ∀ r : Option Int × Option EndClampedBy, (cutAtEnd t r).2 = none → cutAtEnd t r = r := by
    intro r
    rw [cutAtEnd]
    split
    · split
      · exact fun h => by cases h
      · exact fun _ => rfl
    · exact fun _ => rfl
  have hblock : ∀ r : Option Int × Option EndClampedBy,
      (cutAtBlock t startedAt r).2 = none → cutAtBlock t startedAt r = r := by
    intro r
    rw [cutAtBlock]
    split
    · split
      · exact fun h => by cases h
      · exact fun _ => rfl
    · exact fun _ => rfl
  have hreplaced : ∀ (x : Option Int) (r : Option Int × Option EndClampedBy),
      (cutAtReplacement t startedAt x r).2 = none → cutAtReplacement t startedAt x r = r := by
    intro x r
    rw [cutAtReplacement]
    split
    · split
      · exact fun h => by cases h
      · split
        · exact fun h => by cases h
        · exact fun _ => rfl
    · split
      · exact fun h => by cases h
      · exact fun _ => rfl
  rw [normaliseEnd] at h ⊢
  dsimp only at h ⊢
  have hcut := hend _ h
  rw [hcut] at h ⊢
  split
  next hc =>
    rw [if_pos hc] at h
    have hcut := hreplaced _ _ h
    rw [hcut] at h ⊢
    rw [hblock _ h]
  next hc =>
    rw [if_neg hc] at h
    rw [hblock _ h]

theorem leftBy_writtenRow (hs : e.startedAt.isSome) :
    LeftBy t instanceId now (knownEvents events e.id) e (writtenRow t instanceId events now e) := by
  obtain ⟨startedAt, hs⟩ := isSome_iff_exists.1 hs
  rw [writtenRow, hs, getD_some]
  split
  · exact ⟨rfl, hs, rfl, rfl, normaliseEnd_uncut, rfl⟩
  · exact ⟨rfl, hs, rfl, rfl, normaliseEnd_uncut, rfl⟩

/-! ## Deliveries -/

/-- A request with one report, from a browser with these detectors, and the session as the request
finds it (but for the stored events). -/
structure Delivery where
  session : SessionMutation
  report : ReportedUpsert
  engineVersion : Option String := none

/-- What a delivery makes of the stored events, and its answer. -/
def deliver (policy : ProctoringPolicy) (instanceId : InstanceId) (foreign : EventId → Bool)
    (s : StoredEvents) (d : Delivery) : StoredEvents × List EventResult :=
  ingestReports d.session policy instanceId foreign d.engineVersion s [d.report]

/-- The stored events after some deliveries. -/
def deliverAll (policy : ProctoringPolicy) (instanceId : InstanceId) (foreign : EventId → Bool)
    (s : StoredEvents) (ds : List Delivery) : StoredEvents :=
  ds.foldl (fun s d => (deliver policy instanceId foreign s d).1) s

/-- The delivery finds the timeline `t` and the browser `instanceId` in control, and leaves it so:
it puts no exam on hold. -/
structure Delivery.Steady (t : Timeline) (policy : ProctoringPolicy) (instanceId : InstanceId)
    (d : Delivery) : Prop where
  timeline : timelineOf d.session = t
  inControl : assertInControl d.session.session instanceId = .ok ()
  noHold : d.report.type = .additionalDisplayDetected →
    policy.browser.requireSingleDisplay = true → d.session.session.status ≠ .active

/-- The accepted reports of an event, in the order of their deliveries, with what was stored
before. -/
def acceptedReports (policy : ProctoringPolicy) (instanceId : InstanceId) (foreign : EventId → Bool)
    (id : EventId) : StoredEvents → List Delivery → List (StoredEvents × Delivery)
  | _, [] => []
  | s, d :: ds =>
    let r := deliver policy instanceId foreign s d
    let rest := acceptedReports policy instanceId foreign id r.1 ds
    if d.report.id = id ∧ r.2.any EventResult.accepted then (s, d) :: rest else rest

/-- Every row has its columns. -/
def StoredEvents.Complete (s : StoredEvents) : Prop :=
  ∀ id, (s.columns id).isSome = (s.events.find? id).isSome

/-- The columns that each accepted version writes. -/
def ReportColumns.own (c : ReportColumns) : Option String × Rat := (c.observation, c.confidence)

/-- What a report writes there. -/
def ReportedUpsert.own (e : ReportedUpsert) : Option String × Rat :=
  (reportedObservation e.observation, e.confidence)

theorem displayEventId_ingestOne {st : IngestState}
    (h : (ingestOne t policy instanceId now foreign st e).1.displayEventId.isSome) :
    st.displayEventId.isSome ∨ e.type = .additionalDisplayDetected := by
  rw [ingestOne] at h
  dsimp only at h
  split at h
  · exact .inl h
  · split at h
    · by_cases htype : e.type = .additionalDisplayDetected
      · exact .inr htype
      · simp only [htype, if_false] at h
        exact .inl h
    · split at h <;> exact .inl h

section Reports

variable {s : StoredEvents} {ds : List Delivery} {d : Delivery} {id : EventId}

theorem deliver_eq (h : d.Steady t policy instanceId) :
    deliver policy instanceId foreign s d =
      let r := ingestOne t policy instanceId d.session.now foreign (ingestStart s.events)
        d.report.toEventUpsert
      (⟨r.1.events, writeColumns t d.engineVersion s.columns d.report r.2⟩, [r.2]) := by
  have htimeline : timelineOf { d.session with events := s.events } = t := h.timeline
  have hno : ¬ ((ingestOne t policy instanceId d.session.now foreign (ingestStart s.events)
      d.report.toEventUpsert).1.displayEventId.isSome ∧ policy.browser.requireSingleDisplay ∧
      d.session.session.status = .active) := by
    rintro ⟨hdisplay, hsingle, hactive⟩
    rcases displayEventId_ingestOne hdisplay with h' | h'
    · cases h'
    · exact h.noHold h' hsingle hactive
  rw [deliver, ingestReports, ingestEvents, h.inControl]
  simp only [bind, Except.bind, map_cons, map_nil, ingestAll, htimeline]
  simp only [ingestStart] at hno ⊢
  rw [if_neg hno]
  simp only [pure, Except.pure, zip_cons_cons, zip_nil_right, foldl_cons, foldl_nil, h.timeline]

variable (foreign) in
/-- **One delivery.**  A report that is refused leaves all as it is; any other is written into the
row and the columns of its event. -/
theorem deliver_cases (hs : s.Complete) (h : d.Steady t policy instanceId) :
    let r := deliver policy instanceId foreign s d
    let refused := refusal t policy d.session.now foreign (knownEvents s.events d.report.id)
      s.events.rows.length d.report.toEventUpsert
    (refused ≠ none ∧ r.2.any EventResult.accepted = false ∧ r.1 = s) ∨
    (refused = none ∧ r.2.any EventResult.accepted = true ∧ r.1.Complete ∧
      (∀ id, r.1.events.find? id = if id = d.report.id then
        some (writtenRow t instanceId s.events d.session.now d.report.toEventUpsert)
        else s.events.find? id) ∧
      ∀ id, (r.1.columns id).map ReportColumns.own =
        if id = d.report.id then some d.report.own else (s.columns id).map ReportColumns.own) := by
  rw [deliver_eq h]
  cases hr : refusal t policy d.session.now foreign (knownEvents s.events d.report.id)
      s.events.rows.length d.report.toEventUpsert with
  | some r =>
    have hacc := not_accepted_of_refusal hr
    rw [ingestOne_refused hr]
    refine .inl ⟨by simp, by simp [hacc], ?_⟩
    have hcolumns : writeColumns t d.engineVersion s.columns d.report r = s.columns := by
      cases r with
      | created => cases hacc
      | updated => cases hacc
      | stale => rfl
      | rejected reason => rfl
    show (⟨s.events, writeColumns t _ s.columns d.report r⟩ : StoredEvents) = s
    rw [hcolumns]
  | none =>
    obtain ⟨hresult, hstores⟩ := ingestOne_accepted instanceId sound_ingestStart hr
    have hfind := hstores.find?
    rw [takenRow_ingestStart] at hfind
    have hown : ∀ id, ((writeColumns t d.engineVersion s.columns d.report (if (knownEvents s.events
        d.report.id).isSome then .updated else .created)) id).map ReportColumns.own =
          if id = d.report.id then some d.report.own else (s.columns id).map ReportColumns.own := by
      intro id
      split
      next hsome =>
        rw [knownEvents, isSome_map, ← hs] at hsome
        obtain ⟨columns, hcolumns⟩ := isSome_iff_exists.1 hsome
        simp only [writeColumns, Function.update_apply, hcolumns]
        split <;> rfl
      next =>
        simp only [writeColumns, Function.update_apply]
        split <;> rfl
    dsimp only
    rw [hresult]
    refine .inr ⟨rfl, ?_, fun id => ?_, hfind, hown⟩
    · split <;> rfl
    · have hsome := congrArg Option.isSome (hown id)
      rw [isSome_map] at hsome
      refine hsome.trans ?_
      rw [hfind]
      split
      · rfl
      · rw [isSome_map, hs id]
        rfl

theorem newer_of_refusal {e : EventUpsert} {count : Nat}
    (h : refusal t policy now foreign (knownEvents events e.id) count e = none) :
    ∀ row ∈ events.find? e.id, row.type = e.type ∧ row.version < e.version :=
  fun row hrow => (refusal_eq_none_iff.1 h).2.1 row.known (mem_map_of_mem _ hrow)

/-! ## Any deliveries -/

section

variable (hs : s.Complete) (hds : ∀ d ∈ ds, d.Steady t policy instanceId)
include hs hds

variable (foreign) in
theorem complete_deliverAll : (deliverAll policy instanceId foreign s ds).Complete := by
  induction ds generalizing s with
  | nil => exact hs
  | cons d ds ih =>
    refine ih (s := (deliver policy instanceId foreign s d).1) ?_ fun d' hd' =>
      hds d' (mem_cons_of_mem d hd')
    rcases deliver_cases foreign hs (hds d mem_cons_self) with ⟨-, -, heq⟩ | ⟨-, -, hs', -⟩
    · rwa [heq]
    · exact hs'

theorem stored_deliverAll :
    let final := deliverAll policy instanceId foreign s ds
    match (acceptedReports policy instanceId foreign id s ds).getLast? with
    | none => final.events.find? id = s.events.find? id ∧
        (final.columns id).map ReportColumns.own = (s.columns id).map ReportColumns.own
    | some (s₁, d) => ∃ row, final.events.find? id = some row ∧
        LeftBy t instanceId d.session.now (knownEvents s₁.events id) d.report.toEventUpsert row ∧
        (final.columns id).map ReportColumns.own = some d.report.own := by
  induction ds generalizing s with
  | nil => exact ⟨rfl, rfl⟩
  | cons d ds ih =>
    have hds' := fun d' hd' => hds d' (mem_cons_of_mem d hd')
    rw [deliverAll, foldl_cons, ← deliverAll, acceptedReports]
    rcases deliver_cases foreign hs (hds d mem_cons_self) with
      ⟨-, hacc, heq⟩ | ⟨hrefusal, hacc, hs', hfind, hown⟩
    · rw [if_neg (by simp [hacc]), heq]
      exact ih hs hds'
    · have ih := ih hs' hds'
      dsimp only at ih ⊢
      by_cases hid : d.report.id = id
      · rw [if_pos ⟨hid, hacc⟩, getLast?_cons]
        cases hlast : (acceptedReports policy instanceId foreign id
            (deliver policy instanceId foreign s d).1 ds).getLast? with
        | some a =>
          rw [hlast] at ih
          exact ih
        | none =>
          rw [hlast] at ih
          obtain ⟨hrow, hcolumns⟩ := ih
          refine ⟨_, (hrow.trans (hfind id)).trans (if_pos hid.symm), ?_,
            (hcolumns.trans (hown id)).trans (if_pos hid.symm)⟩
          rw [← hid]
          exact leftBy_writtenRow (by rw [(accepted_of_refusal hrefusal).startsAt]; rfl)
      · rw [if_neg fun h => hid h.1]
        rw [hfind, hown, if_neg (Ne.symm hid), if_neg (Ne.symm hid)] at ih
        exact ih

theorem pairwise_acceptedReports :
    (acceptedReports policy instanceId foreign id s ds).Pairwise
        (·.2.report.version < ·.2.report.version) ∧
      ∀ row ∈ s.events.find? id, ∀ a ∈ acceptedReports policy instanceId foreign id s ds,
        row.version < a.2.report.version := by
  induction ds generalizing s with
  | nil => exact ⟨.nil, fun _ _ _ ha => by cases ha⟩
  | cons d ds ih =>
    have hds' := fun d' hd' => hds d' (mem_cons_of_mem d hd')
    rw [acceptedReports]
    rcases deliver_cases foreign hs (hds d mem_cons_self) with
      ⟨-, hacc, heq⟩ | ⟨hrefusal, hacc, hs', hfind, -⟩
    · rw [if_neg (by simp [hacc]), heq]
      exact ih hs hds'
    · obtain ⟨hpairwise, hlt⟩ := ih hs' hds'
      by_cases hid : d.report.id = id
      · subst hid
        have hlater := hlt _ ((hfind _).trans (if_pos rfl))
        rw [writtenRow_version] at hlater
        rw [if_pos ⟨rfl, hacc⟩]
        refine ⟨.cons hlater hpairwise, fun row hrow a ha => ?_⟩
        have hnewer := (newer_of_refusal hrefusal row hrow).2
        rcases mem_cons.1 ha with rfl | ha
        · exact hnewer
        · exact hnewer.trans (hlater a ha)
      · rw [if_neg fun h => hid h.1]
        refine ⟨hpairwise, fun row hrow => hlt row ?_⟩
        rwa [hfind, if_neg (Ne.symm hid)]

end

end Reports

/-! ## Any order -/

/-- The stored row without the times of its deliveries. -/
def EventRow.undelivered (r : EventRow) : EventRow :=
  { r with firstReceivedAt := 0, receivedAt := 0, deliveredLate := false }

/-- The browser that an event belongs to. -/
def reporterOf (instanceId : InstanceId) (prev : Option KnownEvent) (e : EventUpsert) :
    InstanceId :=
  ((prev.bind (·.clientInstanceId)).or e.clientInstanceId).getD instanceId

/-- The report settles its end: a closing one says when, and one that leaves the episode open comes
from the browser in control, or the timeline cuts it. -/
def EndStated (t : Timeline) (instanceId : InstanceId) (prev : Option KnownEvent)
    (e : EventUpsert) : Prop :=
  e.type.span = true → e.endedAt = none →
    e.phase ≠ .close ∧
      (reporterOf instanceId prev e ≠ instanceId →
        (nextBlockStart t (e.startedAt.getD 0)).isSome ∨
          (replacedInstanceBoundary t (e.startedAt.getD 0)).isSome)

/-- The reports are those of one client: an event keeps its type and its browser, and a version of
it is one report. -/
structure OneHistory (es : List EventUpsert) : Prop where
  type : ∀ e ∈ es, ∀ e' ∈ es, e.id = e'.id → e.type = e'.type
  clientInstanceId : ∀ e ∈ es, ∀ e' ∈ es, e.id = e'.id → e.clientInstanceId = e'.clientInstanceId
  version : ∀ e ∈ es, ∀ e' ∈ es, e.id = e'.id → e.version = e'.version → e = e'

/-- What the reports need for their order not to matter: they are those of one client, each settles
its end, and the session has room for all of their events. -/
structure OrderFree (t : Timeline) (instanceId : InstanceId) (events : EventTable)
    (es : List EventUpsert) : Prop where
  history : OneHistory es
  ends : ∀ e ∈ es, EndStated t instanceId (knownEvents events e.id) e
  room : (events.rows.map (·.id) ++ es.map (·.id)).dedup.length ≤ MAX_EVENTS_PER_SESSION

/-- No report is delivered before the episode starts. -/
def Punctual (d : Delivery) : Prop :=
  ∀ s ∈ d.report.startedAt, s ≤ d.session.now + FUTURE_TOLERANCE_MS

section Ends

variable {prev prev' : Option KnownEvent} {startedAt : Int}

theorem reportedEnd_congr (h : e.type.span = true → e.endedAt = none → e.phase ≠ .close) :
    reportedEnd e startedAt now = reportedEnd e startedAt now' := by
  rw [reportedEnd, reportedEnd]
  split
  next hspan =>
    split
    next hclose =>
      cases hend : e.endedAt with
      | none => exact absurd hclose (h hspan hend)
      | some x => rfl
    next => rfl
  next => rfl

variable {r : Option Int × Option EndClampedBy}

theorem cutAtReplacement_congr {x y : Option Int}
    (h : r.1 = none → (replacedInstanceBoundary t startedAt).isSome) :
    cutAtReplacement t startedAt x r = cutAtReplacement t startedAt y r := by
  rw [cutAtReplacement, cutAtReplacement]
  cases hb : replacedInstanceBoundary t startedAt with
  | none =>
    cases hr : r.1 with
    | none => simp [hb] at h; exact absurd hr h
    | some z => simp
  | some b =>
    cases hr : r.1 with
    | none => simp [cutsAt]
    | some z => simp

theorem cutAtBlock_isSome
    (h : (nextBlockStart t startedAt).isSome) : (cutAtBlock t startedAt r).1 ≠ none := by
  rw [cutAtBlock]
  obtain ⟨block, hblock⟩ := isSome_iff_exists.1 h
  rw [hblock]
  dsimp only
  split
  · simp
  next hcut =>
    intro hr
    simp [cutsAt, hr] at hcut

theorem cutAtBlock_eq_none (h : (cutAtBlock t startedAt r).1 = none) :
    r.1 = none ∧ nextBlockStart t startedAt = none := by
  have hblock : nextBlockStart t startedAt = none := by
    by_contra hne
    exact cutAtBlock_isSome (isSome_iff_ne_none.2 hne) h
  rw [cutAtBlock, hblock] at h
  exact ⟨h, hblock⟩

theorem normaliseEnd_congr (hreporter : reporterOf instanceId prev e =
    reporterOf instanceId prev' e)
    (h : EndStated t instanceId prev' e) (hs : e.startedAt = some startedAt) :
    normaliseEnd t instanceId now prev e startedAt =
      normaliseEnd t instanceId now' prev' e startedAt := by
  have hend : reportedEnd e startedAt now = reportedEnd e startedAt now' :=
    reportedEnd_congr fun hspan hnone => (h hspan hnone).1
  change ((cutAtEnd t _).1.map _, (cutAtEnd t _).2) = ((cutAtEnd t _).1.map _, (cutAtEnd t _).2)
  have hcut : (if reporterOf instanceId prev e ≠ instanceId ∧ e.type.span then
        cutAtReplacement t startedAt (prev.bind (·.endedAt))
          (cutAtBlock t startedAt (reportedEnd e startedAt now, none))
      else cutAtBlock t startedAt (reportedEnd e startedAt now, none)) =
      if reporterOf instanceId prev' e ≠ instanceId ∧ e.type.span then
        cutAtReplacement t startedAt (prev'.bind (·.endedAt))
          (cutAtBlock t startedAt (reportedEnd e startedAt now', none))
      else cutAtBlock t startedAt (reportedEnd e startedAt now', none) := by
    rw [hreporter, hend]
    split
    next hc =>
      refine cutAtReplacement_congr fun hnone => ?_
      obtain ⟨hrep, hblock⟩ := cutAtBlock_eq_none hnone
      have hrep : e.endedAt = none := by
        rw [reportedEnd, if_pos hc.2] at hrep
        split at hrep
        · cases hrep
        · exact hrep
      have := (h hc.2 hrep).2 hc.1
      rw [hs, getD_some, hblock] at this
      simpa using this
    next => rfl
  exact congrArg (fun r => ((cutAtEnd t r).1.map (max startedAt), (cutAtEnd t r).2)) hcut

end Ends

section Order

variable {es : List EventUpsert} {start : EventTable} {id : EventId}

/-- The columns of a row that no update changes are those of the row stored at the start, or were
written by the event's first report. -/
def Inherits (instanceId : InstanceId) (start : EventTable) (es : List EventUpsert)
    (row : EventRow) : Prop :=
  (∃ row₀, start.find? row.id = some row₀ ∧ row.type = row₀.type ∧ row.source = row₀.source ∧
      row.clientInstanceId = row₀.clientInstanceId) ∨
    (start.find? row.id = none ∧ ∃ e ∈ es, e.id = row.id ∧ row.type = e.type ∧
      row.source = e.type.clientSource ∧
      row.clientInstanceId = some (e.clientInstanceId.getD instanceId))

/-- What the deliveries of `es` keep of the events stored at the start. -/
structure Grown (instanceId : InstanceId) (start : EventTable) (es : List EventUpsert)
    (events : EventTable) : Prop where
  kept : ∀ id, (start.find? id).isSome → (events.find? id).isSome
  inherits : ∀ row ∈ events.rows, Inherits instanceId start es row

theorem grown_start : Grown instanceId start es start :=
  ⟨fun _ h => h, fun row hrow => .inl ⟨row, Table.find?_eq_some.2 ⟨hrow, rfl⟩, rfl, rfl, rfl⟩⟩

section

variable (h : Grown instanceId start es events) (hes : OrderFree t instanceId start es)
  (he : e ∈ es)
include h hes he

theorem Grown.room (hnone : events.find? e.id = none) :
    events.rows.length < MAX_EVENTS_PER_SESSION := by
  have hnodup : (e.id :: events.rows.map (·.id)).Nodup := by
    refine nodup_cons.2 ⟨fun hmem => ?_, events.nodup⟩
    obtain ⟨row, hrow, hid⟩ := mem_map.1 hmem
    exact Table.find?_eq_none.1 hnone row hrow hid
  have hsub : e.id :: events.rows.map (·.id) ⊆ (start.rows.map (·.id) ++ es.map (·.id)).dedup := by
    intro id hid
    rw [mem_dedup, mem_append]
    rcases mem_cons.1 hid with rfl | hid
    · exact .inr (mem_map_of_mem he)
    · obtain ⟨row, hrow, rfl⟩ := mem_map.1 hid
      rcases h.inherits row hrow with ⟨row₀, hrow₀, -⟩ | ⟨-, e', he', hid', -⟩
      · obtain ⟨hmem, hid₀⟩ := Table.find?_eq_some.1 hrow₀
        exact .inl (mem_map.2 ⟨row₀, hmem, hid₀⟩)
      · exact .inr (mem_map.2 ⟨e', he', hid'⟩)
  have hlen := (subperm_of_subset hnodup hsub).length_le
  simp only [length_cons, length_map] at hlen
  exact lt_of_lt_of_le (Nat.lt_of_succ_le hlen) hes.room

theorem Grown.reporterOf_eq : reporterOf instanceId (knownEvents events e.id) e =
      reporterOf instanceId (knownEvents start e.id) e := by
  cases hrow : events.find? e.id with
  | none =>
    cases hrow₀ : start.find? e.id with
    | none => rw [knownEvents, knownEvents, hrow, hrow₀]
    | some row₀ =>
      have hkept := h.kept e.id (by rw [hrow₀]; rfl)
      rw [hrow] at hkept
      cases hkept
  | some row =>
    obtain ⟨hmem, hid⟩ := Table.find?_eq_some.1 hrow
    rcases h.inherits row hmem with ⟨row₀, hrow₀, -, -, hinst⟩ | ⟨hnone, e', he', hid', -, -, hinst⟩
    · rw [hid] at hrow₀
      simp only [reporterOf, knownEvents, hrow, hrow₀, map_some, bind_some,
        EventRow.known, hinst]
    · rw [hid] at hnone hid'
      simp only [reporterOf, knownEvents, hrow, hnone, map_some, map_none,
        bind_some, bind_none, EventRow.known, hinst,
        hes.history.clientInstanceId e' he' e he hid']
      cases e.clientInstanceId <;> rfl

theorem Grown.type_eq_iff :
    (∀ row ∈ events.find? e.id, row.type = e.type) ↔ ∀ row ∈ start.find? e.id,
    row.type = e.type := by
  constructor
  · intro htype row₀ hrow₀
    obtain ⟨row, hrow⟩ := isSome_iff_exists.1 (h.kept e.id (by rw [hrow₀]; rfl))
    obtain ⟨hmem, hid⟩ := Table.find?_eq_some.1 hrow
    rcases h.inherits row hmem with ⟨row₁, hrow₁, heq, -⟩ | ⟨hnone, -⟩
    · rw [hid, mem_def.1 hrow₀, some_inj] at hrow₁
      rw [hrow₁, ← heq]
      exact htype row hrow
    · rw [hid, mem_def.1 hrow₀] at hnone
      cases hnone
  · intro htype row hrow
    obtain ⟨hmem, hid⟩ := Table.find?_eq_some.1 hrow
    rcases h.inherits row hmem with ⟨row₁, hrow₁, heq, -⟩ | ⟨-, e', he', hid', heq, -⟩
    · rw [hid] at hrow₁
      rw [heq]
      exact htype row₁ hrow₁
    · rw [heq]
      exact hes.history.type e' he' e he (hid'.trans hid)

end

/-- The version register of an event: its stored row, without the times of the deliveries, and what
each version writes into its columns. -/
def eventRegister (s : StoredEvents) (id : EventId) :
    Option (Stamped Nat (EventRow × Option (Option String × Rat))) :=
  (s.events.find? id).map fun row =>
    ⟨row.version, row.undelivered, (s.columns id).map ReportColumns.own⟩

/-- A report can be stored, whatever else is delivered. -/
def Storable (t : Timeline) (policy : ProctoringPolicy) (foreign : EventId → Bool)
    (start : EventTable) (e : EventUpsert) : Prop :=
  refusal t policy (e.startedAt.getD 0) foreign none 0 e = none ∧
    ∀ row ∈ start.find? e.id, row.type = e.type

instance : Decidable (Storable t policy foreign start e) :=
  inferInstanceAs (Decidable (_ ∧ ∀ row ∈ start.find? e.id, row.type = e.type))

/-- What a report writes to the register of its event. -/
def versionOf (t : Timeline) (policy : ProctoringPolicy) (instanceId : InstanceId)
    (foreign : EventId → Bool) (start : EventTable) (id : EventId) (e : ReportedUpsert) :
    Option (Stamped Nat (EventRow × Option (Option String × Rat))) :=
  if e.id = id ∧ Storable t policy foreign start e.toEventUpsert then
    some ⟨e.version, (writtenRow t instanceId start (e.startedAt.getD 0) e.toEventUpsert).undelivered,
      some e.own⟩
  else none

section

variable (h : Grown instanceId start es events)
include h

theorem Grown.writtenRow_eq (hes : OrderFree t instanceId start es) (he : e ∈ es) {startedAt : Int}
    (hs : e.startedAt = some startedAt) (htype : ∀ row ∈ events.find? e.id, row.type = e.type) :
    (writtenRow t instanceId events now e).undelivered =
      (writtenRow t instanceId start now' e).undelivered := by
  have hend : ∀ {now now' : Int}, normaliseEnd t instanceId now (knownEvents events e.id)
      e startedAt = normaliseEnd t instanceId now' (knownEvents start e.id) e startedAt :=
    normaliseEnd_congr (h.reporterOf_eq hes he) (hes.ends e he) hs
  rw [writtenRow, writtenRow, hs]
  simp only [getD_some]
  rw [@hend now now']
  cases hrow : events.find? e.id with
  | none =>
    cases hrow₀ : start.find? e.id with
    | none => simp [EventRow.undelivered, insertedRow]
    | some row₀ =>
      have hkept := h.kept e.id (by rw [hrow₀]; rfl)
      rw [hrow] at hkept
      cases hkept
  | some row =>
    obtain ⟨hmem, hid⟩ := Table.find?_eq_some.1 hrow
    have hrowtype := htype row hrow
    rcases h.inherits row hmem with ⟨row₀, hrow₀, hty, hsrc, hinst⟩ |
      ⟨hnone, e', he', hid', hty, hsrc, hinst⟩
    · have hid₀ := (Table.find?_eq_some.1 hrow₀).2
      rw [hid] at hrow₀
      simp [EventRow.undelivered, updatedRow, hrow₀, hty, hsrc, hinst, hid₀]
    · rw [hid] at hnone
      have hclient := hes.history.clientInstanceId e' he' e he (hid'.trans hid)
      simp [EventRow.undelivered, updatedRow, insertedRow, hnone, hid, hrowtype, hsrc, hinst, hclient,
        ← hty]

theorem Grown.inherits_writtenRow (he : e ∈ es) :
    Inherits instanceId start es (writtenRow t instanceId events now e) := by
  cases hrow : events.find? e.id with
  | none =>
    have hnone : start.find? e.id = none := by
      by_contra hne
      have hkept := h.kept e.id (isSome_iff_ne_none.2 hne)
      rw [hrow] at hkept
      cases hkept
    refine .inr ⟨by rw [writtenRow_id, hnone], e, he, writtenRow_id.symm, ?_⟩
    simp [writtenRow, hrow, insertedRow]
  | some row =>
    have hold := h.inherits row (Table.find?_eq_some.1 hrow).1
    simp only [writtenRow, hrow]
    exact hold

end

section

variable {s : StoredEvents} (h : Grown instanceId start es s.events) (hs : s.Complete)
include h hs

variable (foreign) in
theorem Grown.delivered {d : Delivery} (hd : d.Steady t policy instanceId)
    (he : d.report.toEventUpsert ∈ es) :
    Grown instanceId start es (deliver policy instanceId foreign s d).1.events ∧
      (deliver policy instanceId foreign s d).1.Complete := by
  rcases deliver_cases foreign hs hd with ⟨-, -, heq⟩ | ⟨-, -, hs', hfind, -⟩
  · rw [heq]
    exact ⟨h, hs⟩
  · refine ⟨⟨fun id hid => ?_, fun row hrow => ?_⟩, hs'⟩
    · rw [hfind]
      split
      · rfl
      · exact h.kept id hid
    · have hrow := (Table.find?_eq_some.2 ⟨hrow, rfl⟩)
      rw [hfind] at hrow
      split at hrow
      next hid =>
        obtain rfl := some_inj.1 hrow
        exact h.inherits_writtenRow he
      next => exact h.inherits row (Table.find?_eq_some.1 hrow).1

/-- **A delivery is a write** to the register of its event. -/
theorem Grown.eventRegister_deliver (hes : OrderFree t instanceId start es) {d : Delivery}
    (hd : d.Steady t policy instanceId) (hpunctual : Punctual d) (he : d.report.toEventUpsert ∈ es)
    (id : EventId) :
    eventRegister (deliver policy instanceId foreign s d).1 id =
      Register.writes (eventRegister s id)
        (versionOf t policy instanceId foreign start id d.report).toList := by
  have hstorable : Storable t policy foreign start d.report.toEventUpsert ↔
      refusal t policy d.session.now foreign none 0 d.report.toEventUpsert = none ∧
        ∀ row ∈ s.events.find? d.report.id, row.type = d.report.type := by
    rw [h.type_eq_iff hes he]
    refine and_congr_left fun _ => ?_
    rw [refusal_congr hpunctual]
    rintro s hs
    rw [mem_def.1 hs]
    simp [FUTURE_TOLERANCE_MS]
  rcases deliver_cases foreign hs hd with
    ⟨hrefusal, -, heq⟩ | ⟨hrefusal, -, -, hfind, hown⟩
  · rw [heq, versionOf]
    split
    next hid =>
      obtain ⟨rfl, hstore⟩ := hid
      obtain ⟨hfree, htype⟩ := hstorable.1 hstore
      symm
      refine Register.write_of_covers ?_
      by_contra hnot
      refine hrefusal (refusal_eq_none_iff.2 ⟨hfree, fun p hp => ?_, fun hnone => ?_⟩)
      · obtain ⟨row, hrow, rfl⟩ := map_eq_some_iff.1 hp
        refine ⟨htype row hrow, ?_⟩
        rw [eventRegister, hrow, map_some, Register.covers_some] at hnot
        exact Nat.lt_of_not_le hnot
      · exact h.room hes he (map_eq_none_iff.1 hnone)
    next => rfl
  · have hfree := (refusal_eq_none_iff.1 hrefusal).1
    have hprev := newer_of_refusal hrefusal
    have htype : ∀ row ∈ s.events.find? d.report.id, row.type = d.report.type := fun row hrow =>
      (hprev row hrow).1
    rw [versionOf, eventRegister, hfind, hown]
    by_cases hid : id = d.report.id
    · subst hid
      have hstarts := (accepted_of_refusal hfree).startsAt
      rw [if_pos rfl, if_pos rfl, if_pos ⟨rfl, hstorable.2 ⟨hfree, htype⟩⟩, map_some,
        writtenRow_version, h.writtenRow_eq hes he hstarts htype]
      symm
      refine Register.write_of_not_covers ?_
      rintro ⟨c, hc, hle⟩
      obtain ⟨row, hrow, rfl⟩ := map_eq_some_iff.1 hc
      exact absurd hle (Nat.not_le_of_lt (hprev row hrow).2)
    · rw [if_neg hid, if_neg hid, if_neg fun hc => hid hc.1.symm]
      rfl

theorem Grown.eventRegister_deliverAll (hes : OrderFree t instanceId start es) {ds : List Delivery}
    (hds : ∀ d ∈ ds, d.Steady t policy instanceId ∧ Punctual d ∧ d.report.toEventUpsert ∈ es)
    (id : EventId) :
    eventRegister (deliverAll policy instanceId foreign s ds) id =
      Register.writes (eventRegister s id)
        (ds.filterMap fun d => versionOf t policy instanceId foreign start id d.report) := by
  induction ds generalizing s with
  | nil => rfl
  | cons d ds ih =>
    obtain ⟨hd, hpunctual, he⟩ := hds d mem_cons_self
    obtain ⟨h', hs'⟩ := h.delivered foreign hs hd he
    have ih := ih h' hs' fun d' hd' => hds d' (mem_cons_of_mem _ hd')
    rw [deliverAll, foldl_cons, ← deliverAll, ih,
      h.eventRegister_deliver hs hes hd hpunctual he, filterMap_cons]
    cases versionOf t policy instanceId foreign start id d.report <;> rfl

end

end Order

variable (foreign) in
theorem deliverAll_orderFree {start : StoredEvents} {ds ds' : List Delivery}
    (hstart : start.Complete)
    (hds : ∀ d ∈ ds, d.Steady t policy instanceId) (hds' : ∀ d ∈ ds', d.Steady t policy instanceId)
    (hsame : ∀ e, e ∈ ds.map (·.report) ↔ e ∈ ds'.map (·.report))
    (hes : OrderFree t instanceId start.events (ds.map (·.report.toEventUpsert)))
    (hone : ∀ d ∈ ds, ∀ d' ∈ ds, d.report.id = d'.report.id → d.report.version = d'.report.version →
      d.report = d'.report)
    (hpunctual : ∀ d ∈ ds ++ ds', Punctual d) (id : EventId) :
    eventRegister (deliverAll policy instanceId foreign start ds) id =
      eventRegister (deliverAll policy instanceId foreign start ds') id := by
  have hwrites : ∀ ds'' : List Delivery, (∀ d ∈ ds'', d.Steady t policy instanceId ∧ Punctual d ∧
      d.report ∈ ds.map (·.report)) →
      eventRegister (deliverAll policy instanceId foreign start ds'') id =
        Register.writes (eventRegister start id)
          ((ds''.map (·.report)).filterMap (versionOf t policy instanceId foreign start.events id)) := by
    intro ds'' h
    rw [filterMap_map]
    refine grown_start.eventRegister_deliverAll hstart hes (fun d hd => ?_) id
    obtain ⟨hsteady, hpunctual, hmem⟩ := h d hd
    obtain ⟨d', hd', heq⟩ := mem_map.1 hmem
    exact ⟨hsteady, hpunctual, mem_map.2 ⟨d', hd', congrArg _ heq⟩⟩
  have hds₁ := hwrites ds fun d hd =>
    ⟨hds d hd, hpunctual d (mem_append_left _ hd), mem_map_of_mem hd⟩
  have hds₂ := hwrites ds' fun d hd =>
    ⟨hds' d hd, hpunctual d (mem_append_right _ hd), (hsame _).2 (mem_map_of_mem hd)⟩
  rw [hds₁, hds₂]
  refine Register.writes_congr (fun w => ?_) fun w hw w' hw' hstamp => ?_
  · simp only [mem_filterMap, hsame]
  · obtain ⟨e, he, hw⟩ := mem_filterMap.1 hw
    obtain ⟨e', he', hw'⟩ := mem_filterMap.1 hw'
    rw [versionOf, ite_none_right_eq_some] at hw hw'
    obtain ⟨⟨rfl, -⟩, heq⟩ := hw
    obtain ⟨⟨hid, -⟩, heq'⟩ := hw'
    obtain rfl := some_inj.1 heq
    obtain rfl := some_inj.1 heq'
    obtain ⟨d, hd, rfl⟩ := mem_map.1 he
    obtain ⟨d', hd', rfl⟩ := mem_map.1 he'
    rw [hone d hd d' hd' hid.symm hstamp]

/-- **Reported events converge.**  What is stored for an event has the status, start, end, details
and version, and the columns, of its highest accepted report, and a version that is not newer
changes nothing.  The reports of one client that each settle their end leave the same, but for what
says when an event was delivered and first reported, in whichever order and however often they are
delivered, as long as the session has room for them and none comes before its time. -/
theorem ingest_converges {start : StoredEvents} {ds : List Delivery} (hstart : start.Complete)
    (hds : ∀ d ∈ ds, d.Steady t policy instanceId) :
    (∀ id,
      let accepted := acceptedReports policy instanceId foreign id start ds
      let final := deliverAll policy instanceId foreign start ds
      accepted.Pairwise (·.2.report.version < ·.2.report.version) ∧
        (∀ row ∈ start.events.find? id, ∀ a ∈ accepted, row.version < a.2.report.version) ∧
        match accepted.getLast? with
        | none => final.events.find? id = start.events.find? id ∧
            (final.columns id).map ReportColumns.own = (start.columns id).map ReportColumns.own
        | some (s, d) => ∃ row, final.events.find? id = some row ∧
            LeftBy t instanceId d.session.now (knownEvents s.events id) d.report.toEventUpsert row ∧
            (final.columns id).map ReportColumns.own = some d.report.own) ∧
      (∀ pre d post, ds = pre ++ d :: post →
        ∀ row ∈ (deliverAll policy instanceId foreign start pre).events.find? d.report.id,
          d.report.version ≤ row.version →
          deliverAll policy instanceId foreign start (pre ++ [d]) =
            deliverAll policy instanceId foreign start pre) ∧
      ∀ ds' : List Delivery, (∀ d ∈ ds', d.Steady t policy instanceId) →
        (∀ e, e ∈ ds.map (·.report) ↔ e ∈ ds'.map (·.report)) →
        OrderFree t instanceId start.events (ds.map (·.report.toEventUpsert)) →
        (∀ d ∈ ds, ∀ d' ∈ ds, d.report.id = d'.report.id → d.report.version = d'.report.version →
          d.report = d'.report) →
        (∀ d ∈ ds ++ ds', Punctual d) →
        ∀ id,
          let final := deliverAll policy instanceId foreign start ds
          let final' := deliverAll policy instanceId foreign start ds'
          (final.events.find? id).map EventRow.undelivered =
              (final'.events.find? id).map EventRow.undelivered ∧
            (final.columns id).map ReportColumns.own = (final'.columns id).map ReportColumns.own := by
  refine ⟨fun id => ?_, ?_, ?_⟩
  · obtain ⟨hpairwise, hlt⟩ := pairwise_acceptedReports hstart hds
    exact ⟨hpairwise, hlt, stored_deliverAll hstart hds⟩
  · rintro pre d post rfl row hrow hle
    have hcomplete := complete_deliverAll foreign hstart
      fun d' (hd' : d' ∈ pre) => hds d' (mem_append_left _ hd')
    rw [deliverAll, foldl_append]
    rcases deliver_cases foreign hcomplete (hds d (by simp)) with
      ⟨-, -, heq⟩ | ⟨hrefusal, -⟩
    · exact heq
    · exact absurd hle (Nat.not_le_of_lt (newer_of_refusal hrefusal row hrow).2)
  · intro ds' hds' hsame hes hone hpunctual id
    have hregister := deliverAll_orderFree foreign hstart hds hds' hsame hes hone
      hpunctual id
    have hcomplete := complete_deliverAll foreign hstart hds
    have hcomplete' := complete_deliverAll foreign hstart hds'
    refine ⟨?_, ?_⟩
    · have hrow := congrArg (Option.map fun w => w.value.1) hregister
      simpa only [eventRegister, Option.map_map, Function.comp_def] using hrow
    · have hcolumns := congrArg (Option.bind · fun w => w.value.2) hregister
      have hown : ∀ {s : StoredEvents}, s.Complete → ((eventRegister s id).bind fun w => w.value.2) =
          (s.columns id).map ReportColumns.own := by
        intro s hs
        rw [eventRegister, bind_map]
        cases hrow : s.events.find? id with
        | none =>
          have hnone := hs id
          rw [hrow, isSome_none, isSome_eq_false_iff, isNone_iff_eq_none] at hnone
          rw [hnone]
          rfl
        | some row => rfl
      rwa [hown hcomplete, hown hcomplete'] at hcolumns

/-- A session in its first minute, with browser 2 in control. -/
def inControlOf2 (now : Int) : SessionMutation where
  now
  examPolicy := {}
  session :=
    { status := .active, durationMs := 60000, activeInstanceId := some ⟨2⟩
      verifiedInstanceId := some ⟨2⟩, createdAt := 0, updatedAt := 0 }
  periods := [{ kind := .active, startedAt := 0, endedAt := none }]

/-- An episode of looking away from 1000 on, in three versions: opened, closed at 5000, and opened
again. -/
def lookedAway (browser version : Nat) : EventUpsert where
  id := ⟨7⟩
  type := .lookingAway
  phase := if version = 1 then .open else if version = 2 then .close else .update
  startedAt := some 1000
  endedAt := if version = 2 then some 5000 else none
  version
  clientInstanceId := some ⟨browser⟩

/-- The report delivered at `now`, with all it reports. -/
def reportedAt (now : Int) (e : EventUpsert) (engineVersion : String) : Delivery where
  session := inControlOf2 now
  report := { e with observation := some "looks to the left", confidence := 1 / 2 }
  engineVersion := some engineVersion

theorem steady_reportedAt (now : Int) (e : EventUpsert) (engineVersion : String)
    (h : e.type ≠ .additionalDisplayDetected) :
    (reportedAt now e engineVersion).Steady (timelineOf (inControlOf2 0)) {} ⟨2⟩ :=
  ⟨rfl, rfl, fun he => absurd he h⟩

/-- The first two versions, in both orders and one of them twice; by then the browser has other
detectors. -/
theorem ingest_converges_twice :
    let ds := [reportedAt 6000 (lookedAway 2 1) "1", reportedAt 7000 (lookedAway 2 2) "1"]
    let ds' := [reportedAt 6000 (lookedAway 2 2) "2", reportedAt 8000 (lookedAway 2 1) "2",
      reportedAt 9000 (lookedAway 2 2) "2"]
    let final := deliverAll {} ⟨2⟩ (fun _ => false) ⟨.empty, fun _ => none⟩ ds
    let final' := deliverAll {} ⟨2⟩ (fun _ => false) ⟨.empty, fun _ => none⟩ ds'
    (acceptedReports {} ⟨2⟩ (fun _ => false) ⟨7⟩ ⟨.empty, fun _ => none⟩ ds).length = 2 ∧
      (final.columns ⟨7⟩).map (·.engineVersion) ≠ (final'.columns ⟨7⟩).map (·.engineVersion) ∧
      ∀ id, (final.events.find? id).map EventRow.undelivered =
          (final'.events.find? id).map EventRow.undelivered ∧
        (final.columns id).map ReportColumns.own = (final'.columns id).map ReportColumns.own := by
  have hds : ∀ d ∈ [reportedAt 6000 (lookedAway 2 1) "1", reportedAt 7000 (lookedAway 2 2) "1"],
      d.Steady (timelineOf (inControlOf2 0)) {} ⟨2⟩ := by
    simp only [forall_mem_cons]
    exact ⟨steady_reportedAt _ _ _ (by decide), steady_reportedAt _ _ _ (by decide), by simp⟩
  refine ⟨by decide, by decide, (ingest_converges (fun _ => rfl) hds).2.2 _ ?_ ?_ ?_ ?_ ?_⟩
  · simp only [forall_mem_cons]
    exact ⟨steady_reportedAt _ _ _ (by decide), steady_reportedAt _ _ _ (by decide),
      steady_reportedAt _ _ _ (by decide), by simp⟩
  · intro e
    simp [reportedAt]
    tauto
  · refine ⟨⟨by decide, by decide, by decide⟩, ?_, by decide⟩
    simp only [map_cons, forall_mem_cons]
    exact ⟨fun _ _ => ⟨by decide, fun h => absurd rfl h⟩, fun _ h => absurd h (by decide),
      by simp⟩
  · simp [reportedAt, lookedAway]
  · simp [reportedAt, Punctual, lookedAway, inControlOf2, FUTURE_TOLERANCE_MS]

/-- The version and the end of the episode after the deliveries, in a session without events. -/
def leftAfter (ds : List Delivery) : Option (Nat × Option Int) :=
  ((deliverAll {} ⟨2⟩ (fun _ => false) ⟨.empty, fun _ => none⟩ ds).events.find? ⟨7⟩).map fun row =>
    (row.version, row.endedAt)

/-- The order of the deliveries shows.  An episode of browser 1, which browser 2 has replaced, ends
where its second version ended if the third is stored over it, and at its start otherwise; and a
closing report without an end ends when it is delivered. -/
theorem deliveries_diverge :
    (leftAfter [reportedAt 6000 (lookedAway 1 2) "1", reportedAt 7000 (lookedAway 1 3) "1"] =
        some (3, some 5000) ∧
      leftAfter [reportedAt 6000 (lookedAway 1 3) "1", reportedAt 7000 (lookedAway 1 2) "1"] =
        some (3, some 1000)) ∧
    leftAfter [reportedAt 6000 { lookedAway 2 2 with endedAt := none } "1",
        reportedAt 7000 (lookedAway 2 1) "1"] = some (2, some 6000) ∧
      leftAfter [reportedAt 6000 (lookedAway 2 1) "1",
        reportedAt 7000 { lookedAway 2 2 with endedAt := none } "1"] = some (2, some 7000) := by
  decide

end SmartProctoring
