import SmartProctoring.Lib.Processes
import SmartProctoring.Server.CandidateState

/-!
# Quotas

The limits of an organisation (`packages/shared/src/quotas.ts`, `services/quotas.ts`) and the routes
that check them (`routes/admin/exams.ts`, `routes/admin/candidates.ts`, `routes/v1/index.ts`), as
transactions that take one statement after another.

A statement reads what is committed when it starts.  What a transaction writes is kept apart
(`QuotaWrites`) and committed as a whole; the locks it takes are its own until it ends.  Any number
of connections run transactions in any order, one statement at a time.
-/

set_option autoImplicit false

namespace SmartProctoring

/-! ## The limits -/

inductive OrgKind
  | production
  | sandbox
  deriving DecidableEq

inductive QuotaKind
  | exams
  | candidates
  | sessionsPerMonth
  deriving DecidableEq

/-- A limit for each quota; `none` is no limit. -/
abbrev OrgQuotas := QuotaKind → Option Nat

def PRODUCTION_DEFAULT_QUOTAS : OrgQuotas := fun _ => none

def SANDBOX_DEFAULT_QUOTAS : OrgQuotas
  | .exams => some 5
  | .candidates => some 50
  | .sessionsPerMonth => some 100

/-- A value of the untyped column `organizations.quotas`. -/
inductive StoredLimit
  | null
  | number (n : Int)
  /-- Neither `null` nor an integer. -/
  | other
  deriving DecidableEq

/-- The columns of the organisation that its limits depend on. -/
structure OrgLimits where
  kind : OrgKind := .production
  quotas : QuotaKind → Option StoredLimit := fun _ => none

/-- The limit that a stored value stands for, if it is a valid one. -/
def validLimit : StoredLimit → Option (Option Nat)
  | .null => some none
  | .number n => if 0 ≤ n then some (some n.toNat) else none
  | .other => none

/-- The limits that apply: the operator's overrides over the kind's defaults. -/
def effectiveQuotas (org : OrgLimits) : OrgQuotas := fun k =>
  match (org.quotas k).bind validLimit with
  | some limit => limit
  | none => (if org.kind = .sandbox then SANDBOX_DEFAULT_QUOTAS else PRODUCTION_DEFAULT_QUOTAS) k

/-! ## Calendar months -/

/-- A calendar month in UTC (`YYYY-MM`); January is 1. -/
structure Month where
  year : Int
  month : Int
  deriving DecidableEq

def Month.next (m : Month) : Month :=
  if m.month = 12 then ⟨m.year + 1, 1⟩ else ⟨m.year, m.month + 1⟩

/-- The days from the epoch to the first day of the month (`Date.UTC`), in years that begin in March
and eras of 400 of them. -/
def Month.firstDay (m : Month) : Int :=
  let y := if m.month ≤ 2 then m.year - 1 else m.year
  let era := y / 400
  let yoe := y - era * 400
  let mp := if m.month ≤ 2 then m.month + 9 else m.month - 3
  era * 146097 + yoe * 365 + yoe / 4 - yoe / 100 + (153 * mp + 2) / 5 - 719468

/-- The month of a day (`getUTCFullYear`, `getUTCMonth`). -/
def Month.ofDay (day : Int) : Month :=
  let z := day + 719468
  let era := z / 146097
  let doe := z - era * 146097
  let yoe := (doe - doe / 1460 + doe / 36524 - doe / 146096) / 365
  let doy := doe - (365 * yoe + yoe / 4 - yoe / 100)
  let mp := (5 * doy + 2) / 153
  let y := yoe + era * 400
  if mp < 10 then ⟨y, mp + 3⟩ else ⟨y + 1, mp - 9⟩

structure QuotaMonth where
  month : Month
  startsAt : Int
  resetsAt : Int
  deriving DecidableEq

/-- The calendar month (UTC) containing `now`, its start and when the count starts again. -/
def quotaMonth (now : Int) : QuotaMonth :=
  let month := Month.ofDay (now / 86400000)
  ⟨month, month.firstDay * 86400000, month.next.firstDay * 86400000⟩

/-! ## The rows -/

structure QuotaExam where
  id : Nat
  status : ExamStatus
  deriving DecidableEq

structure QuotaCandidate where
  id : Nat
  externalId : Option String := none
  deriving DecidableEq

structure QuotaSession where
  examId : Nat
  candidateId : Nat
  createdAt : Int
  /-- Its status is terminal. -/
  ended : Bool := false
  deriving DecidableEq

/-- The organisation's rows. -/
structure QuotaDb where
  org : OrgLimits := {}
  exams : Table QuotaExam.id := Table.empty
  candidates : Table QuotaCandidate.id := Table.empty
  sessions : List QuotaSession := []
  /-- `org_usage.sessions_created`, by month. -/
  orgUsage : Month → Option Nat := fun _ => none

namespace QuotaDb

/-- Exams that count against the limit: every exam that is not archived. -/
def examsInUse (db : QuotaDb) : Nat :=
  db.exams.rows.countP fun e => decide (e.status ≠ .archived)

def candidatesInUse (db : QuotaDb) : Nat := db.candidates.rows.length

/-- Exam sessions counted for the calendar month. -/
def sessionsCreated (db : QuotaDb) (month : Month) : Nat := (db.orgUsage month).getD 0

def sessionsCreatedThisMonth (db : QuotaDb) (now : Int) : Nat :=
  db.sessionsCreated (quotaMonth now).month

/-- What is counted against a quota (the last argument of `assertRoom`). -/
def used (db : QuotaDb) (now : Int) : QuotaKind → Nat
  | .exams => db.examsInUse
  | .candidates => db.candidatesInUse
  | .sessionsPerMonth => db.sessionsCreatedThisMonth now

end QuotaDb

/-! ## Transactions -/

/-- The details of a `quota_exceeded` answer. -/
structure QuotaExceededDetails where
  quota : QuotaKind
  limit : Nat
  used : Nat
  requested : Nat
  resetsAt : Option Int
  kind : OrgKind
  deriving DecidableEq

/-- Why a request is refused. -/
inductive QuotaError
  | http (e : HttpError)
  | quotaExceeded (details : QuotaExceededDetails)
  deriving DecidableEq

/-- The requests that create something; a new row gets the identifier `id`. -/
inductive QuotaRequest
  /-- `POST /exams` and `POST /exams/import`. -/
  | createExam (id : Nat)
  /-- `POST /exams/:id/publish` and `POST /exams/:id/archive`. -/
  | setStatus (examId : Nat) (status : ExamStatus)
  /-- `POST /candidates` of the staff application. -/
  | createCandidate (id : Nat) (externalId : Option String)
  /-- `POST /candidates` of the integration API. -/
  | upsertCandidate (id : Nat) (externalId : Option String)
  /-- `POST /exams/:id/assignments`, of both. -/
  | assign (examId : Nat) (candidateIds : List Nat)
  deriving DecidableEq

/-- What a transaction creates once there is room for it. -/
inductive Creation
  | exam (id : Nat)
  /-- The new status of an exam whose status is `cur`. -/
  | status (examId : Nat) (cur status : ExamStatus)
  | candidate (id : Nat) (externalId : Option String)
  /-- Sessions for the candidates in `todo`, after `created` others. -/
  | sessions (examId : Nat) (todo : List Nat) (created : Nat)
  deriving DecidableEq

namespace Creation

/-- The quota that the route asserts. -/
def quota : Creation → QuotaKind
  | .exam _ => .exams
  | .status _ _ _ => .exams
  | .candidate _ _ => .candidates
  | .sessions _ _ _ => .sessionsPerMonth

/-- How much of it the route asks for.  An archived exam does not count against the limit; bringing
it back does. -/
def requested : Creation → Nat
  | .exam _ => 1
  | .status _ cur _ => if cur = .archived then 1 else 0
  | .candidate _ _ => 1
  | .sessions _ todo created => todo.length + created

end Creation

/-- How far a transaction has come. -/
inductive QuotaPhase
  | opened
  /-- The exam's row is locked, and published. -/
  | examLocked (examId : Nat) (candidateIds : List Nat)
  /-- The candidates were found. -/
  | candidatesFound (examId : Nat) (candidateIds : List Nat)
  /-- In `assertRoom`, before the limits are loaded. -/
  | asserting (c : Creation)
  | limitLoaded (c : Creation) (limit : Nat)
  | quotaLocked (c : Creation) (limit : Nat)
  | creating (c : Creation)
  | finished
  deriving DecidableEq

/-- What a transaction has written and not yet committed. -/
structure QuotaWrites where
  exam : Option QuotaExam := none
  /-- An exam's new status; the audit record keeps the one it had. -/
  status : Option (Nat × ExamStatus × ExamStatus) := none
  candidate : Option QuotaCandidate := none
  sessions : List QuotaSession := []
  usage : Option (Month × Nat) := none
  deriving DecidableEq

/-- A transaction of a request that read the clock at `now`. -/
structure QuotaTx where
  request : QuotaRequest
  now : Int
  phase : QuotaPhase := .opened
  writes : QuotaWrites := {}
  deriving DecidableEq

/-- What a transaction may hold until it ends. -/
inductive LockKey
  /-- The row of an exam (`SELECT … FOR UPDATE`). -/
  | exam (id : Nat)
  /-- The advisory lock of a quota (`lockQuota`). -/
  | quota (q : QuotaKind)
  /-- The row of `org_usage` for a month. -/
  | usage (m : Month)
  deriving DecidableEq

/-- The first statement of `assertRoom`; nothing is checked when nothing is requested. -/
def assertRoom (c : Creation) : QuotaPhase :=
  if c.requested = 0 then .creating c else .asserting c

namespace QuotaDb

def hasExternalId (db : QuotaDb) (externalId : Option String) : Bool :=
  match externalId with
  | none => false
  | some x => x ≠ "" ∧ ∃ c ∈ db.candidates.rows, c.externalId = some x

/-- The candidate has a session for the exam that has not ended. -/
def hasOpenSession (db : QuotaDb) (examId candidateId : Nat) : Bool :=
  db.sessions.any fun s =>
    decide (s.examId = examId ∧ s.candidateId = candidateId) && !s.ended

/-- The statements of a route before it asserts its quota. -/
def openRequest (db : QuotaDb) : QuotaRequest → Except QuotaError QuotaPhase
  | .createExam id => .ok (assertRoom (.exam id))
  | .setStatus examId status =>
    match db.exams.find? examId with
    | none => .error (.http (notFound "Exam not found" "exam_not_found"))
    | some cur =>
      .ok (if cur.status = status then .finished else assertRoom (.status examId cur.status status))
  | .createCandidate id externalId =>
    if db.hasExternalId externalId then
      .error (.http (conflict "duplicate_external_id"
        "Another candidate already has this external ID."))
    else .ok (assertRoom (.candidate id externalId))
  | .upsertCandidate id externalId =>
    -- an existing candidate is updated in place
    .ok (if db.hasExternalId externalId then .finished else assertRoom (.candidate id externalId))
  | .assign examId candidateIds =>
    match db.exams.find? examId with
    | none => .error (.http (notFound "Exam not found" "exam_not_found"))
    | some exam =>
      if exam.status = .published then .ok (.examLocked examId candidateIds.eraseDups)
      else .error (.http (conflict "exam_not_published" (if exam.status = .archived then
        "This exam is archived; candidates can no longer be assigned."
        else "Publish the exam before assigning candidates.")))

end QuotaDb

/-- `quotaExceeded` of `assertRoom`. -/
def quotaExceeded (db : QuotaDb) (now : Int) (c : Creation) (limit : Nat) : QuotaError :=
  .quotaExceeded {
    quota := c.quota
    limit := limit
    used := db.used now c.quota
    requested := c.requested
    resetsAt := if c.quota = .sessionsPerMonth then some (quotaMonth now).resetsAt else none
    kind := db.org.kind }

namespace QuotaTx

/-- The lock that the next statement waits for. -/
def waitsFor (t : QuotaTx) : Option LockKey :=
  match t.phase, t.request with
  | .opened, .setStatus examId _ => some (.exam examId)
  | .opened, .assign examId _ => some (.exam examId)
  | .limitLoaded c _, _ => some (.quota c.quota)
  | .creating (.sessions _ [] (_ + 1)), _ => some (.usage (quotaMonth t.now).month)
  | _, _ => none

/-- The next statement that writes. -/
def create (db : QuotaDb) (clock : Int) (t : QuotaTx) : Creation → QuotaTx
  | .exam id => { t with writes.exam := some ⟨id, .draft⟩, phase := .finished }
  | .status examId cur status =>
    { t with writes.status := some (examId, cur, status), phase := .finished }
  | .candidate id externalId =>
    { t with writes.candidate := some { id, externalId }, phase := .finished }
  | .sessions examId (candidateId :: todo) created =>
    -- `createExamSession` reads the clock itself
    let sessions := t.writes.sessions ++ [{ examId, candidateId, createdAt := clock }]
    { t with writes.sessions := sessions, phase := .creating (.sessions examId todo (created + 1)) }
  | .sessions _ [] created =>
    -- `recordSessionsCreated` counts for the month of the request
    if created = 0 then { t with phase := .finished }
    else
      let month := (quotaMonth t.now).month
      { t with writes.usage := some (month, db.sessionsCreated month + created), phase := .finished }

/-- The next statement of the transaction, on what is committed. -/
def advance (db : QuotaDb) (clock : Int) (t : QuotaTx) : Except QuotaError QuotaTx :=
  match t.phase with
  | .opened => (db.openRequest t.request).map fun phase => { t with phase }
  | .examLocked examId candidateIds =>
    if candidateIds.all fun c => (db.candidates.find? c).isSome then
      .ok { t with phase := .candidatesFound examId candidateIds }
    else .error (.http (validationFailed "Some candidates were not found"))
  | .candidatesFound examId candidateIds =>
    let todo := candidateIds.filter fun c => !db.hasOpenSession examId c
    .ok { t with phase := assertRoom (.sessions examId todo 0) }
  | .asserting c =>
    match effectiveQuotas db.org c.quota with
    | none => .ok { t with phase := .creating c }
    | some limit => .ok { t with phase := .limitLoaded c limit }
  | .limitLoaded c limit => .ok { t with phase := .quotaLocked c limit }
  | .quotaLocked c limit =>
    if limit < db.used t.now c.quota + c.requested then .error (quotaExceeded db t.now c limit)
    else .ok { t with phase := .creating c }
  | .creating c => .ok (t.create db clock c)
  | .finished => .ok t

end QuotaTx

/-! ## The server -/

/-- The committed rows, the locks and the clock. -/
structure QuotaServer where
  db : QuotaDb := {}
  clock : Int := 0
  /-- The connection that holds a lock. -/
  locks : LockKey → Option Nat := fun _ => none
  /-- When the sessions of committed transactions were created (also those deleted since). -/
  created : List Int := []

/-- A connection to the database. -/
inductive QuotaConnection
  | idle
  | tx (t : QuotaTx)
  /-- The last transaction was refused, and rolled back. -/
  | failed (e : QuotaError)

abbrev QuotaState := Processes QuotaServer Nat QuotaConnection

namespace QuotaServer

def acquire (s : QuotaServer) (conn : Nat) (k : LockKey) : QuotaServer :=
  { s with locks := Function.update s.locks k (some conn) }

/-- The locks of a transaction that ends. -/
def release (s : QuotaServer) (conn : Nat) : QuotaServer :=
  { s with locks := fun k => if s.locks k = some conn then none else s.locks k }

/-- One statement; one that fails rolls the transaction back. -/
def proceed (s : QuotaServer) (conn : Nat) (t : QuotaTx) : QuotaServer × QuotaConnection :=
  let s := t.waitsFor.elim s (s.acquire conn)
  match t.advance s.db s.clock with
  | .ok t => (s, .tx t)
  | .error e => (s.release conn, .failed e)

/-- The writes of a transaction, committed. -/
def commitWrites (db : QuotaDb) (w : QuotaWrites) : QuotaDb :=
  let exams := match w.status with
    | some (examId, _, status) =>
      db.exams.modify (fun e => decide (e.id = examId)) (fun e => { e with status }) fun _ => rfl
    | none => db.exams
  { db with
    exams := w.exam.elim exams exams.insert
    candidates := w.candidate.elim db.candidates db.candidates.insert
    sessions := db.sessions ++ w.sessions
    orgUsage := w.usage.elim db.orgUsage fun u => Function.update db.orgUsage u.1 (some u.2) }

def commit (s : QuotaServer) (conn : Nat) (t : QuotaTx) : QuotaServer :=
  let s := { s with
    db := commitWrites s.db t.writes
    created := s.created ++ t.writes.sessions.map QuotaSession.createdAt }
  s.release conn

/-- A session ends (any of the ways it may). -/
def endSession (s : QuotaServer) (examId candidateId : Nat) : QuotaServer :=
  let sessions := s.db.sessions.map fun x =>
    if x.examId = examId ∧ x.candidateId = candidateId then { x with ended := true } else x
  { s with db := { s.db with sessions } }

/-- A session is deleted (the sandbox clean-up). -/
def deleteSession (s : QuotaServer) (examId candidateId : Nat) : QuotaServer :=
  let sessions := s.db.sessions.filter fun x =>
    !decide (x.examId = examId ∧ x.candidateId = candidateId)
  { s with db := { s.db with sessions } }

/-- A candidate is deleted, with their sessions. -/
def deleteCandidate (s : QuotaServer) (id : Nat) : QuotaServer :=
  let db := { s.db with
    candidates := s.db.candidates.filter fun c => decide (c.id ≠ id)
    sessions := s.db.sessions.filter fun x => decide (x.candidateId ≠ id) }
  { s with db }

end QuotaServer

inductive QuotaInput
  /-- A request begins its transaction. -/
  | request (conn : Nat) (r : QuotaRequest)
  | proceed (conn : Nat)
  | commit (conn : Nat)
  /-- The transaction fails for a reason of its own. -/
  | rollback (conn : Nat)
  | tick (ms : Nat)
  | endSession (examId candidateId : Nat)
  | deleteSession (examId candidateId : Nat)
  | deleteCandidate (id : Nat)
  deriving DecidableEq

def quotaStep (i : QuotaInput) (s : QuotaState) : QuotaState :=
  match i with
  | .request conn r => s.move conn (s.shared, .tx { request := r, now := s.shared.clock })
  | .proceed conn =>
    match s.loc conn with
    | .tx t => s.move conn (s.shared.proceed conn t)
    | _ => s
  | .commit conn =>
    match s.loc conn with
    | .tx t => s.move conn (s.shared.commit conn t, .idle)
    | _ => s
  | .rollback conn => s.move conn (s.shared.release conn, .idle)
  | .tick ms => s.setShared { s.shared with clock := s.shared.clock + ms }
  | .endSession examId candidateId => s.setShared (s.shared.endSession examId candidateId)
  | .deleteSession examId candidateId => s.setShared (s.shared.deleteSession examId candidateId)
  | .deleteCandidate id => s.setShared (s.shared.deleteCandidate id)

/-- A statement that waits for a lock is taken once the lock is free; a transaction commits after
its last statement. -/
def quotaEnabled : QuotaInput → QuotaState → Bool
  | .request conn _, s => match s.loc conn with
    | .tx _ => false
    | _ => true
  | .proceed conn, s => match s.loc conn with
    | .tx t => decide (t.phase ≠ .finished) &&
        t.waitsFor.all fun k => s.shared.locks k = none ∨ s.shared.locks k = some conn
    | _ => false
  | .commit conn, s => match s.loc conn with
    | .tx t => decide (t.phase = .finished)
    | _ => false
  | .rollback conn, s => match s.loc conn with
    | .tx _ => true
    | _ => false
  | _, _ => true

namespace QuotaServer

/-- The sessions of committed transactions that were created in the month. -/
def sessionsIn (s : QuotaServer) (m : Month) : Nat :=
  s.created.countP fun at' => decide ((quotaMonth at').month = m)

/-- The monthly counter is the number of sessions created in the month. -/
def Counted (s : QuotaServer) : Prop := ∀ m, s.db.sessionsCreated m = s.sessionsIn m

end QuotaServer

/-- No transaction is open, and the counters are right. -/
def QuotaState.Quiet (s : QuotaState) : Prop :=
  (∀ conn, s.loc conn = .idle) ∧ (∀ k, s.shared.locks k = none) ∧ s.shared.Counted

/-- Any number of connections create exams, candidates and sessions of one organisation. -/
def quotaMachine : Machine QuotaState QuotaInput where
  init := QuotaState.Quiet
  step := quotaStep
  enabled i s := quotaEnabled i s = true

instance (i : QuotaInput) (s : QuotaState) : Decidable (quotaMachine.enabled i s) :=
  inferInstanceAs (Decidable (quotaEnabled i s = true))

end SmartProctoring
