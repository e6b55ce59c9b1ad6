import Mathlib.Algebra.BigOperators.Group.List.Basic
import SmartProctoring.Server.Refinement.Actions

/-!
# Extra time before the start

The table of accommodation records and one assigned session together: staff grant and revoke records
(`routes/admin/accommodations.ts`), add time, and each grant or revocation is followed by a refresh
of the sessions that have not started.  The exam's own time is not stored; a refresh recovers it
from the duration and the last snapshot.

* `AssignedExam` is the table and the session, `extraTimeMachine` what happens to them, in any order.
* `Exact` is the invariant: without the extra time of its snapshot, the duration is the exam's and what staff added.
* `extra_time_exact` says what a refresh leaves, and that nothing of it changes a started exam.
-/

set_option autoImplicit false

namespace SmartProctoring

open List

/-! ## The table of records -/

/-- A row of `accommodations`. -/
structure AccommodationRow where
  candidateId : Nat
  /-- `none`: every exam of the candidate. -/
  examId : Option Nat
  record : Accommodation

/-- `accommodationApplies`, for the candidate's records. -/
def AccommodationRow.appliesTo (a : AccommodationRow) (candidateId examId : Nat)
    (now : Int) : Bool :=
  a.candidateId == candidateId && a.examId.all (· == examId) && a.record.applies now

/-- The query of `applicableAccommodations`: what was granted for the exam or for every exam and is
not revoked, oldest first. -/
def accommodationRows (table : List AccommodationRow) (candidateId examId : Nat) :
    List Accommodation :=
  ((table.filter fun a => a.candidateId == candidateId && a.record.revokedAt.isNone &&
    a.examId.all (· == examId)).map
    (·.record)).insertionSort fun a b => a.grantedAt ≤ b.grantedAt

/-- The body of a grant. -/
structure GrantRequest where
  candidateId : Nat
  examId : Option Nat
  spec : AccommodationSpec
  validUntil : Option Int

/-- `POST /candidates/:id/accommodations`, the row it inserts. -/
def grantAccommodation (table : List AccommodationRow) (now : Int) (id : Nat)
    (body : GrantRequest) : Except HttpError (List AccommodationRow) :=
  if body.validUntil.any fun v => decide (v ≤ now)
    then .error (validationFailed "The end date must be in the future")
  else
    .ok (table ++ [{
      candidateId := body.candidateId
      examId := body.examId
      record := { id, spec := body.spec, grantedAt := now, validUntil := body.validUntil } }])

/-- `POST /accommodations/:id/revoke`. -/
def revokeAccommodation (table : List AccommodationRow) (now : Int) (id : Nat) :
    Except HttpError (List AccommodationRow) :=
  match table.find? (·.record.id == id) with
  | none => .error (notFound "Accommodation not found" "accommodation_not_found")
  | some cur =>
    if cur.record.revokedAt.isSome then
      .error (conflict "already_revoked" "This accommodation was already revoked.")
    else
      .ok (table.map fun a =>
        if a.record.id = id then { a with record := { a.record with revokedAt := some now } } else a)

/-! ## Refreshing -/

/-- `refreshedSession`, with the comparison of the two lists of items left open: the source compares
their JSON texts, and the database gives the keys of a stored item back in an order of its own. -/
def refreshedBy (same : List SessionAccommodationItem → List SessionAccommodationItem → Bool)
    (s : ExamSession) (rows : List Accommodation) (now : Int) : ExamSession :=
  let base := baseDurationMs s
  let next := sessionSnapshot (applicableAccommodations rows now) base now
  if same (itemsOf next) (itemsOf s.accommodations) = true ∧
    extraTimeOf next = extraTimeOf s.accommodations then s
  else { s with accommodations := next, durationMs := base + extraTimeOf next }

theorem refreshedSession_eq_refreshedBy (s : ExamSession) (rows : List Accommodation) (now : Int) :
    refreshedSession s rows now = refreshedBy (fun a b => decide (a = b)) s rows now := by
  simp only [refreshedSession, refreshedBy, decide_eq_true_eq]

/-- `refreshSessionAccommodations`. -/
def refreshBy (same : List SessionAccommodationItem → List SessionAccommodationItem → Bool)
    (m : SessionMutation) (rows : List Accommodation) : SessionMutation :=
  if m.session.startedAt.isSome ∨ m.session.status ∉ UNSTARTED then m
  else m.set fun s => refreshedBy same s rows m.now

/-! ## The table and a session -/

/-- An exam assigned to a candidate. -/
structure AssignedExam where
  table : List AccommodationRow
  candidateId : Nat
  examId : Nat
  /-- `exams.duration_sec`. -/
  durationSec : Between 60 86400
  m : SessionMutation
  /-- What staff have added to the exam's time. -/
  addedMs : Int := 0

/-- What happens to the table and the session. -/
inductive ExtraTimeAction
  | grant (now : Int) (id : Nat) (body : GrantRequest)
  | revoke (now : Int) (id : Nat)
  | refresh (now : Int) (rules : ProctoringPolicy)
  | extend (now : Int) (rules : ProctoringPolicy) (minutes : Between 1 1440)
  | reopen (now : Int) (rules : ProctoringPolicy) (req : ReopenRequest)
  | start (now : Int) (rules : ProctoringPolicy) (instanceId : InstanceId) (opts : StartOptions)
      (admission : StartAdmission)
  /-- Anything else that is done with the session. -/
  | other (m : SessionMutation)

/-- Grants, revocations and refreshes. -/
def ExtraTimeAction.OfRecords : ExtraTimeAction → Prop
  | .grant .. | .revoke .. | .refresh .. => True
  | _ => False

namespace AssignedExam

/-- The rows that the session's query finds. -/
def rows (w : AssignedExam) : List Accommodation := accommodationRows w.table w.candidateId w.examId

/-- The exam's time and what staff added. -/
def examMs (w : AssignedExam) : Int := w.durationSec.secMs + w.addedMs

/-- A transaction of the session that adds so much time if it goes through. -/
def request (w : AssignedExam) (r : Request) (addedMs : Int) : AssignedExam :=
  match r.op.run (w.m.lock r) with
  | .ok m' => { w with m := (w.m.lock r).flush m', addedMs := w.addedMs + addedMs }
  | .error _ => { w with m := w.m.lock r }

def step (same : List SessionAccommodationItem → List SessionAccommodationItem → Bool)
    (w : AssignedExam) : ExtraTimeAction → AssignedExam
  | .grant now id body =>
    match grantAccommodation w.table now id body with
    | .ok table => { w with table }
    | .error _ => w
  | .revoke now id =>
    match revokeAccommodation w.table now id with
    | .ok table => { w with table }
    | .error _ => w
  | .refresh now rules =>
    let m := w.m.lockAt now rules
    { w with m := m.flush (refreshBy same m w.rows) }
  | .extend now rules minutes => w.request ⟨now, rules, .extendSessionTime minutes⟩ minutes.minMs
  | .reopen now rules req => w.request ⟨now, rules, .reopenSession req⟩ req.addMinutes.minMs
  | .start now rules instanceId opts admission =>
    w.request ⟨now, rules, .startSession instanceId { opts with records := w.rows } admission⟩ 0
  | .other m => { w with m }

/-- Nothing else writes the duration, the snapshot or the start. -/
def enabled (w : AssignedExam) : ExtraTimeAction → Prop
  | .other m => m.session.durationMs = w.m.session.durationMs ∧
      m.session.accommodations = w.m.session.accommodations ∧
      m.session.startedAt = w.m.session.startedAt
  | _ => True

/-- The session may still be refreshed. -/
def Unstarted (w : AssignedExam) : Prop :=
  w.m.session.startedAt = none ∧ w.m.session.status ∈ UNSTARTED

end AssignedExam

/-- An exam from its assignment on. -/
def extraTimeMachine (same : List SessionAccommodationItem → List SessionAccommodationItem → Bool) :
    Machine AssignedExam ExtraTimeAction where
  init w := ∃ table candidateId examId durationSec now rules window,
    w = { table, candidateId, examId, durationSec,
          m := createExamSession now rules durationSec (accommodationRows table candidateId examId) window }
  step a w := w.step same a
  enabled a w := w.enabled a

/-! ## Extra time is a sum -/

theorem accommodationExtraTimeMs_eq_sum (baseDurationMs : Int) (items : List AccommodationSpec) :
    accommodationExtraTimeMs baseDurationMs items = (items.map (·.extraTimeMs baseDurationMs)).sum := by
  suffices hfold : ∀ extra : Int, items.foldl (fun extra a => extra + a.extraTimeMs baseDurationMs) extra =
      extra + (items.map (·.extraTimeMs baseDurationMs)).sum by
    rw [accommodationExtraTimeMs, hfold, zero_add]
  induction items with
  | nil => exact fun extra => (add_zero extra).symm
  | cons a items ih =>
    intro extra
    rw [foldl_cons, ih, map_cons, sum_cons, add_assoc]

/-- The records that a refresh at `now` takes, out of the whole table. -/
def AssignedExam.applicable (w : AssignedExam) (now : Int) : List AccommodationRow :=
  w.table.filter fun a => a.appliesTo w.candidateId w.examId now

theorem AssignedExam.applicable_perm (w : AssignedExam) (now : Int) :
    (applicableAccommodations w.rows now).Perm ((w.applicable now).map (·.record)) := by
  have hsorted : (applicableAccommodations w.rows now).Perm (((w.table.filter fun a =>
      a.candidateId == w.candidateId && a.record.revokedAt.isNone &&
        a.examId.all (· == w.examId)).map (·.record)).filter
        (·.applies now)) := (perm_insertionSort _ _).filter _
  rw [filter_map, filter_filter] at hsorted
  refine hsorted.trans (List.Perm.of_eq (congrArg _ (filter_congr fun a _ => ?_)))
  rw [AccommodationRow.appliesTo, Function.comp_apply, Accommodation.applies]
  cases a.candidateId == w.candidateId <;> cases a.record.revokedAt.isNone <;> simp [Bool.and_comm]

theorem AssignedExam.extraTime_eq (w : AssignedExam) (baseDurationMs now : Int) :
    accommodationExtraTimeMs baseDurationMs ((applicableAccommodations w.rows now).map (·.spec)) =
      ((w.applicable now).map fun a => a.record.spec.extraTimeMs baseDurationMs).sum := by
  rw [accommodationExtraTimeMs_eq_sum, map_map]
  have := ((w.applicable_perm now).map fun a => a.spec.extraTimeMs baseDurationMs).sum_eq
  rw [map_map] at this
  exact this

/-! ## What a refresh does -/

theorem extraTimeOf_sessionSnapshot (rows : List Accommodation) (baseDurationMs now : Int) :
    extraTimeOf (sessionSnapshot rows baseDurationMs now) =
    accommodationExtraTimeMs baseDurationMs (rows.map (·.spec)) := by
  rw [sessionSnapshot]
  split
  next h =>
    rw [isEmpty_iff.1 h]
    rfl
  next => rfl

theorem itemsOf_sessionSnapshot (rows : List Accommodation) (baseDurationMs now : Int) :
    itemsOf (sessionSnapshot rows baseDurationMs now) = rows.map fun a => ⟨a.id, a.spec, a.grantedAt⟩ := by
  rw [sessionSnapshot]
  split
  next h =>
    rw [isEmpty_iff.1 h]
    rfl
  next => rfl

section

variable {same : List SessionAccommodationItem → List SessionAccommodationItem → Bool}
  (s : ExamSession) (rows : List Accommodation) (now : Int)

/-- The refresh finds nothing changed. -/
def Unchanged (same : List SessionAccommodationItem → List SessionAccommodationItem → Bool) :
    Prop :=
  same (itemsOf (sessionSnapshot (applicableAccommodations rows now) (baseDurationMs s) now))
      (itemsOf s.accommodations) = true ∧
    extraTimeOf (sessionSnapshot (applicableAccommodations rows now) (baseDurationMs s) now) =
    extraTimeOf s.accommodations

variable {s rows now} in
theorem refreshedBy_skips (h : Unchanged s rows now same) :
    refreshedBy same s rows now = s := if_pos h

variable {s rows now} in
theorem refreshedBy_writes (h : ¬ Unchanged s rows now same) :
    refreshedBy same s rows now = { s with
    accommodations := sessionSnapshot (applicableAccommodations rows now) (baseDurationMs s) now
    durationMs := baseDurationMs s +
      extraTimeOf (sessionSnapshot (applicableAccommodations rows now) (baseDurationMs s) now) } := if_neg h

variable (same) in
theorem refreshedBy_base : baseDurationMs (refreshedBy same s rows now) = baseDurationMs s := by
  by_cases h : Unchanged s rows now same
  · rw [refreshedBy_skips h]
  · rw [refreshedBy_writes h]
    exact Int.add_sub_cancel _ _

variable (same) in
theorem refreshedBy_extra : extraTimeOf (refreshedBy same s rows now).accommodations =
    accommodationExtraTimeMs (baseDurationMs s) ((applicableAccommodations rows now).map (·.spec)) := by
  rw [← extraTimeOf_sessionSnapshot _ _ now]
  by_cases h : Unchanged s rows now same
  · rw [refreshedBy_skips h, h.2]
  · rw [refreshedBy_writes h]

variable (same) in
theorem refreshedBy_items (hsame : ∀ a b, same a b = true → a = b) :
    itemsOf (refreshedBy same s rows now).accommodations =
      (applicableAccommodations rows now).map fun a => ⟨a.id, a.spec, a.grantedAt⟩ := by
  rw [← itemsOf_sessionSnapshot _ (baseDurationMs s) now]
  by_cases h : Unchanged s rows now same
  · rw [refreshedBy_skips h, hsame _ _ h.1]
  · rw [refreshedBy_writes h]

theorem refreshedBy_refreshedBy :
    refreshedBy same (refreshedBy same s rows now) rows now = refreshedBy same s rows now := by
  by_cases h : Unchanged s rows now same
  · rw [refreshedBy_skips h, refreshedBy_skips h]
  · have hbase := refreshedBy_base same s rows now
    rw [refreshedBy_writes h] at hbase ⊢
    rw [refreshedBy, hbase]
    exact ite_self _

theorem refreshedBy_frame (updatedAt : Int) :
    refreshedBy same { s with updatedAt } rows now = { refreshedBy same s rows now with
      updatedAt } ∧
      (refreshedBy same s rows now).startedAt = s.startedAt ∧
      (refreshedBy same s rows now).status = s.status := by
  by_cases h : Unchanged s rows now same
  · have h' : Unchanged { s with updatedAt } rows now same := h
    rw [refreshedBy_skips h, refreshedBy_skips h']
    exact ⟨rfl, rfl, rfl⟩
  · have h' : ¬ Unchanged { s with updatedAt } rows now same := h
    rw [refreshedBy_writes h, refreshedBy_writes h']
    exact ⟨rfl, rfl, rfl⟩

end

/-! ## What the requests do to the time -/

/-- A snapshot that is there has items. -/
def SnapshotOk (s : ExamSession) : Prop := ∀ a ∈ s.accommodations, a.items ≠ []

theorem sessionSnapshot_items (rows : List Accommodation) (baseDurationMs now : Int) :
    ∀ a ∈ sessionSnapshot rows baseDurationMs now, a.items ≠ [] := by
  intro a ha
  rw [sessionSnapshot] at ha
  split at ha
  next => cases ha
  next hne =>
    obtain rfl := Option.some.inj ha
    intro hnil
    exact hne (isEmpty_iff.2 (map_eq_nil_iff.1 hnil))

/-- So much is added to the exam's own time, and a started exam stays started. -/
structure AddsTime (addedMs : Int) (s s' : ExamSession) : Prop where
  base : SnapshotOk s → baseDurationMs s' = baseDurationMs s + addedMs
  ok : SnapshotOk s → SnapshotOk s'
  started : s.startedAt.isSome = true → s'.startedAt.isSome = true

theorem AddsTime.of_eq {s s' : ExamSession} {addedMs : Int}
    (hd : s'.durationMs = s.durationMs + addedMs)
    (ha : s'.accommodations = s.accommodations) (hs : s'.startedAt = s.startedAt) :
    AddsTime addedMs s s' where
  base _ := by
    rw [baseDurationMs, baseDurationMs, ha]
    omega
  ok h := by rwa [SnapshotOk, ha]
  started h := by rwa [hs]

theorem AddsTime.zero_trans {s t u : ExamSession} (h : AddsTime 0 s t) (h' : AddsTime 0 t u) :
    AddsTime 0 s u where
  base hs := by
    have := h.base hs
    have := h'.base (h.ok hs)
    omega
  ok hs := h'.ok (h.ok hs)
  started hs := h'.started (h.started hs)

theorem addsTime_refreshedBy (same : List SessionAccommodationItem → List SessionAccommodationItem →
    Bool) (s : ExamSession)
    (rows : List Accommodation) (now : Int) : AddsTime 0 s (refreshedBy same s rows now) where
  base _ := by rw [refreshedBy_base, add_zero]
  ok hs := by
    by_cases h : Unchanged s rows now same
    · rwa [refreshedBy_skips h]
    · rw [refreshedBy_writes h]
      exact sessionSnapshot_items _ _ _
  started hs := by rwa [(refreshedBy_frame s rows now s.updatedAt).2.1]

variable {m : SessionMutation}

theorem addsTime_refreshBy (same : List SessionAccommodationItem → List SessionAccommodationItem →
    Bool) (rows : List Accommodation) : AddsTime 0 m.session (refreshBy same m rows).session := by
  rw [refreshBy]
  split
  · exact .of_eq (add_zero _).symm rfl rfl
  · exact addsTime_refreshedBy same m.session rows m.now

theorem refreshSessionAccommodations_eq_refreshBy (m : SessionMutation)
    (rows : List Accommodation) :
    refreshSessionAccommodations m rows = refreshBy (fun a b => decide (a = b)) m rows := by
  rw [refreshSessionAccommodations, refreshBy]
  simp only [refreshedSession_eq_refreshedBy]

theorem addsTime_extend (minutes : Between 1 1440) :
    (extendSessionTime m minutes).Yields fun m' => AddsTime minutes.minMs m.session m'.session := by
  exact (assertStatus_yields m _ _).bind fun _ _ => .pure (.of_eq rfl rfl rfl)

theorem addsTime_reopen (req : ReopenRequest) :
    (reopenSession m req).Yields fun m' => AddsTime req.addMinutes.minMs m.session m'.session := by
  rw [reopenSession]
  split
  next => exact .thrown _
  next =>
    refine .guard fun _ => .pure ?_
    split
    · refine .of_eq ?_ ?_ ?_ <;> simp [reopenOnHold, SessionMutation.resetIdentityCounters]
    · exact .of_eq rfl rfl rfl

theorem addsTime_beginExam (policy : ProctoringPolicy) :
    AddsTime 0 m.session (beginExam m policy m.session.accommodations).session := by
  have hsession : ∃ s : ExamSession, (beginExam m policy m.session.accommodations).session = s ∧
      s.durationMs = m.session.durationMs ∧
      s.accommodations = m.session.accommodations.filter (fun a => !a.items.isEmpty) ∧
      s.startedAt.isSome = true := by
    rw [beginExam]
    split <;> simp [SessionMutation.clockStart, SessionMutation.resetIdentityCounters]
  obtain ⟨s, hs, hd, ha, hstarted⟩ := hsession
  rw [hs]
  have hkept : SnapshotOk m.session → s.accommodations = m.session.accommodations := by
    intro hok
    rw [ha]
    cases hacc : m.session.accommodations with
    | none => rfl
    | some a =>
      have hne : a.items ≠ [] := hok a hacc
      simp [hne]
  exact ⟨fun hok => by rw [baseDurationMs, baseDurationMs, hd, hkept hok, add_zero],
    fun hok => by rwa [SnapshotOk, hkept hok], fun _ => hstarted⟩

theorem addsTime_startExam (opts : StartOptions) :
    (startExam m opts).Yields fun m' => AddsTime 0 m.session m'.session := by
  refine (assertStatus_yields m _ _).bind fun _ _ => .guard fun _ => .guard fun _ => .pure ?_
  have hrefresh := addsTime_refreshBy (m := m) (fun a b => decide (a = b)) opts.records
  rw [← refreshSessionAccommodations_eq_refreshBy] at hrefresh
  exact hrefresh.zero_trans (addsTime_beginExam _)

theorem addsTime_startSession (instanceId : InstanceId) (opts : StartOptions) (admission : StartAdmission) :
    (startSession m instanceId opts admission).Yields fun r => AddsTime 0 m.session r.1.session := by
  refine .bind (P := fun _ => True) (fun _ _ => trivial) fun _ _ => .whenever ?_
  refine .ite (fun _ => .pure (.of_eq (add_zero _).symm rfl rfl)) fun _ => ?_
  exact (addsTime_startExam { opts with instanceId := some instanceId }).bind fun n hn => .pure hn

/-! ## The invariant -/

variable {s : ExamSession}

theorem flush_time (before after : SessionMutation) {addedMs : Int}
    (h : AddsTime addedMs s after.session) : AddsTime addedMs s (before.flush after).session := by
  rw [SessionMutation.flush]
  split
  · exact h
  · exact ⟨h.base, h.ok, h.started⟩

namespace AssignedExam

/-- Without the extra time of its snapshot, the duration is the exam's and what staff added. -/
structure Exact (w : AssignedExam) : Prop where
  base : baseDurationMs w.m.session = w.examMs
  ok : SnapshotOk w.m.session

/-- What a step keeps: the exam, and a start. -/
structure Follows (w w' : AssignedExam) : Prop where
  exact : w.Exact → w'.Exact
  started : w.m.session.startedAt.isSome = true → w'.m.session.startedAt.isSome = true

theorem follows_request {w : AssignedExam} {r : Request} {addedMs : Int}
    (h : (r.op.run (w.m.lock r)).Yields fun m' => AddsTime addedMs w.m.session m'.session) :
    w.Follows (w.request r addedMs) := by
  rw [request]
  split
  next m' hm =>
    have htime := flush_time (w.m.lock r) m' (h m' hm)
    refine ⟨fun hw => ⟨?_, htime.ok hw.ok⟩, htime.started⟩
    have hbase := htime.base hw.ok
    have := hw.base
    simp only [examMs] at this ⊢
    omega
  next => exact ⟨fun hw => ⟨hw.base, hw.ok⟩, id⟩

theorem follows_step (same : List SessionAccommodationItem → List SessionAccommodationItem → Bool)
    {w : AssignedExam} {a : ExtraTimeAction} (ha : w.enabled a) : w.Follows (w.step same a) := by
  cases a with
  | grant | revoke =>
    rw [step]
    split <;> exact ⟨fun hw => ⟨hw.base, hw.ok⟩, fun hs => hs⟩
  | refresh now rules =>
    have htime := flush_time (w.m.lockAt now rules) _ (addsTime_refreshBy (m := w.m.lockAt now rules) same w.rows)
    refine ⟨fun hw => ⟨?_, htime.ok hw.ok⟩, htime.started⟩
    exact (htime.base hw.ok).trans ((add_zero _).trans hw.base)
  | extend now rules minutes => exact follows_request (addsTime_extend minutes)
  | reopen now rules req => exact follows_request (addsTime_reopen req)
  | start now rules instanceId opts admission =>
    exact follows_request (addsTime_startSession instanceId _ admission).fst
  | other m =>
    obtain ⟨hd, hacc, hs⟩ := ha
    have htime : AddsTime 0 w.m.session m.session := .of_eq (hd.trans (add_zero _).symm) hacc hs
    refine ⟨fun hw => ⟨?_, htime.ok hw.ok⟩, htime.started⟩
    exact (htime.base hw.ok).trans ((add_zero _).trans hw.base)

end AssignedExam

variable {same : List SessionAccommodationItem → List SessionAccommodationItem → Bool}

theorem exact_of_reachable {w : AssignedExam} (h : (extraTimeMachine same).Reachable w) :
    w.Exact := by
  refine h.invariant (I := AssignedExam.Exact) (fun w hw => ?_) fun w a _ ha hw =>
    (w.follows_step same ha).exact hw
  obtain ⟨table, candidateId, examId, durationSec, now, rules, window, rfl⟩ := hw
  refine ⟨?_, sessionSnapshot_items _ _ _⟩
  simp only [AssignedExam.examMs, add_zero]
  exact Int.add_sub_cancel _ _

/-! ## Refreshes of a session -/

theorem flush_session (before after : SessionMutation) :
    ∃ updatedAt, (before.flush after).session = { after.session with updatedAt } := by
  rw [SessionMutation.flush]
  split
  · exact ⟨after.session.updatedAt, rfl⟩
  · exact ⟨after.now, rfl⟩

theorem refreshBy_stable {m : SessionMutation} {rows : List Accommodation} (s : ExamSession)
    (updatedAt : Int)
    (h : m.session = { refreshedBy same s rows m.now with updatedAt }) :
    refreshBy same m rows = m := by
  rw [refreshBy]
  split
  · rfl
  · have hfix : refreshedBy same m.session rows m.now = m.session := by
      rw [h, (refreshedBy_frame _ rows m.now updatedAt).1, refreshedBy_refreshedBy]
    rw [SessionMutation.set, hfix]

theorem refreshBy_of_unstarted {m : SessionMutation} (hstarted : m.session.startedAt = none)
    (hstatus : m.session.status ∈ UNSTARTED) (rows : List Accommodation) :
    refreshBy same m rows = m.set fun s => refreshedBy same s rows m.now := by
  refine if_neg ?_
  rw [not_or, not_not, hstarted]
  exact ⟨Bool.false_ne_true, hstatus⟩

theorem refreshBy_now (m : SessionMutation) (rows : List Accommodation) :
    (refreshBy same m rows).now = m.now := by
  rw [refreshBy]
  split <;> rfl

namespace AssignedExam

variable {w : AssignedExam}

variable (same) in
theorem refresh_session (h : w.Unstarted) (now : Int) (rules : ProctoringPolicy) :
    ∃ updatedAt, (w.step same (.refresh now rules)).m.session =
      { refreshedBy same w.m.session w.rows now with updatedAt } := by
  have hrefresh : refreshBy same (w.m.lockAt now rules) w.rows =
      (w.m.lockAt now rules).set fun s => refreshedBy same s w.rows now :=
    refreshBy_of_unstarted (m := w.m.lockAt now rules) h.1 h.2 w.rows
  simp only [step, hrefresh]
  exact flush_session _ _

theorem refresh_refresh (w : AssignedExam) (now : Int) (rules : ProctoringPolicy) :
    (w.step same (.refresh now rules)).step same (.refresh now rules) =
    w.step same (.refresh now rules) := by
  have hstill : ∀ m : SessionMutation, m.lockAt now rules = m → refreshBy same m w.rows = m →
      ({ w with m } : AssignedExam).step same (.refresh now rules) = { w with m } := by
    intro m hlock hrefresh
    simp only [step, hlock]
    rw [show ({ w with m } : AssignedExam).rows = w.rows from rfl, hrefresh,
      SessionMutation.flush, if_pos rfl]
  refine hstill _ ?_ ?_
  · rw [SessionMutation.flush, refreshBy]
    split <;> split <;> rfl
  · by_cases hw : w.Unstarted
    · obtain ⟨updatedAt, hsession⟩ := refresh_session same hw now rules
      have hnow : ((w.m.lockAt now rules).flush (refreshBy same (w.m.lockAt now rules) w.rows)).now = now := by
        rw [SessionMutation.flush]
        split <;> exact refreshBy_now _ _
      refine refreshBy_stable w.m.session updatedAt ?_
      rw [hnow]
      exact hsession
    · have hskip : refreshBy same (w.m.lockAt now rules) w.rows = w.m.lockAt now rules := by
        refine if_pos ?_
        by_contra hnot
        rw [not_or, not_not, Bool.not_eq_true, Option.isSome_eq_false_iff, Option.isNone_iff_eq_none] at hnot
        exact hw hnot
      rw [hskip, SessionMutation.flush, if_pos rfl, hskip]

theorem started_frozen (h : w.m.session.startedAt.isSome = true) {a : ExtraTimeAction}
    (ha : a.OfRecords) : (w.step same a).m.session.durationMs = w.m.session.durationMs ∧
      (w.step same a).m.session.accommodations = w.m.session.accommodations := by
  cases a with
  | grant | revoke =>
    rw [step]
    split <;> exact ⟨rfl, rfl⟩
  | refresh now rules =>
    have hskip : refreshBy same (w.m.lockAt now rules) w.rows = w.m.lockAt now rules := if_pos (.inl h)
    simp only [step, hskip, SessionMutation.flush, if_true]
    exact ⟨rfl, rfl⟩
  | _ => exact ha.elim

theorem started_steps {w' : AssignedExam} (h : (extraTimeMachine same).Steps w w')
    (hs : w.m.session.startedAt.isSome = true) : w'.m.session.startedAt.isSome = true := by
  induction h with
  | refl => exact hs
  | tail _ a ha ih => exact (follows_step same ha).started ih

end AssignedExam

/-- **Extra time is exact.**  Whatever staff have granted, revoked and added, and however often the
session was refreshed, its duration less the extra time of its snapshot is the exam's time and what
staff added; a refresh before the start leaves the extra time of exactly the records that apply
then, and none when none does; a second one at the same time does nothing; and no grant, revocation
or refresh reaches an exam that has started. -/
theorem extra_time_exact (hsame : ∀ a b, same a b = true → a = b) {w : AssignedExam}
    (h : (extraTimeMachine same).Reachable w) :
    baseDurationMs w.m.session = w.examMs ∧
    (∀ now rules, w.Unstarted →
      extraTimeOf (w.step same (.refresh now rules)).m.session.accommodations =
        ((w.applicable now).map fun a => a.record.spec.extraTimeMs w.examMs).sum ∧
      extraTimeOf (w.step same (.refresh now rules)).m.session.accommodations =
        accommodationExtraTimeMs w.examMs ((applicableAccommodations w.rows now).map (·.spec)) ∧
      itemsOf (w.step same (.refresh now rules)).m.session.accommodations =
        (applicableAccommodations w.rows now).map (fun a => ⟨a.id, a.spec, a.grantedAt⟩) ∧
      (w.step same (.refresh now rules)).m.session.durationMs =
        w.examMs + extraTimeOf (w.step same (.refresh now rules)).m.session.accommodations ∧
      (w.applicable now = [] → (w.step same (.refresh now rules)).m.session.durationMs =
        w.examMs)) ∧
    (∀ now rules, (w.step same (.refresh now rules)).step same (.refresh now rules) =
      w.step same (.refresh now rules)) ∧
    ∀ w', (extraTimeMachine same).Steps w w' → w.m.session.startedAt.isSome = true →
      ∀ a : ExtraTimeAction, a.OfRecords →
      (w'.step same a).m.session.durationMs = w'.m.session.durationMs ∧
        (w'.step same a).m.session.accommodations = w'.m.session.accommodations := by
  have hexact := exact_of_reachable h
  refine ⟨hexact.base, fun now rules hw => ?_, fun now rules => w.refresh_refresh now rules,
    fun w' hrun hs a ha => AssignedExam.started_frozen (AssignedExam.started_steps hrun hs) ha⟩
  obtain ⟨updatedAt, hsession⟩ := AssignedExam.refresh_session same hw now rules
  have hextra := refreshedBy_extra same w.m.session w.rows now
  have hbase := refreshedBy_base same w.m.session w.rows now
  have hitems := refreshedBy_items same w.m.session w.rows now hsame
  rw [hexact.base] at hextra hbase
  have hduration : (refreshedBy same w.m.session w.rows now).durationMs =
      w.examMs + extraTimeOf (refreshedBy same w.m.session w.rows now).accommodations := by
    rw [baseDurationMs] at hbase
    omega
  rw [hsession]
  refine ⟨hextra.trans (w.extraTime_eq _ now), hextra, hitems, hduration, fun hnone => ?_⟩
  have hzero := hextra.trans (w.extraTime_eq _ now)
  rw [hnone, map_nil, sum_nil] at hzero
  rw [hzero, add_zero] at hduration
  exact hduration

theorem minute_allowed : 60 ≤ 60 ∧ 60 ≤ 86400 := by decide

/-- An exam of a minute, assigned to a candidate with a quarter more and ten minutes until 100. -/
def assignedExam : AssignedExam :=
  let table : List AccommodationRow :=
    [⟨1, none, { id := 1, spec := .extraTime ⟨25, by decide⟩ ⟨10, by decide⟩, grantedAt := 0, validUntil := some 100 }⟩]
  { table, candidateId := 1, examId := 2, durationSec := ⟨60, minute_allowed⟩,
    m := createExamSession 0 {} ⟨60, minute_allowed⟩ (accommodationRows table 1 2) none }

theorem extra_time_exact_assigned :
    (assignedExam.step (fun a b => decide (a = b)) (.refresh 200 {})).m.session.durationMs = 60000 := by
  have hreachable : (extraTimeMachine fun a b => decide (a = b)).Reachable assignedExam :=
    .init ⟨_, 1, 2, ⟨60, by decide⟩, 0, {}, none, rfl⟩
  obtain ⟨-, hrefresh, -⟩ := extra_time_exact (fun _ _ => of_decide_eq_true) hreachable
  obtain ⟨-, -, -, -, hnone⟩ := hrefresh 200 {} ⟨rfl, by decide⟩
  exact hnone rfl

end SmartProctoring
