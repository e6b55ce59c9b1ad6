import SmartProctoring.Lib.Run
import SmartProctoring.Lib.Table

/-!
# Live updates

`LiveNotifier` of `realtime/notifier.ts`: changes of exam sessions become summaries on the
dashboards of an organisation, at most one per session and interval.  A changed session is marked
due or waits for its timer; a flush, one at a time, publishes the events and checks that came in,
takes the due sessions, looks up the organisations it does not know, and loads and publishes the
summaries in chunks.  What arrives while a flush waits for the database goes into the next one.

The version of a session counts its visible changes while its organisation is observed; a summary
has the version at which its loading began.
-/

set_option autoImplicit false

namespace SmartProctoring

structure LiveNotifierOptions where
  sessionIntervalMs : Nat
  keepaliveMs : Nat
  batchMs : Nat

/-- How long the summary of a session is held back after the last one. -/
def LiveNotifierOptions.intervalMs (cfg : LiveNotifierOptions) (visible : Bool) : Nat :=
  if visible then cfg.sessionIntervalMs else cfg.keepaliveMs

def LIVE_DEFAULTS : LiveNotifierOptions where
  sessionIntervalMs := 2000
  keepaliveMs := 10000
  batchMs := 50

/-- How many rows are loaded with one query. -/
def LIVE_CHUNK : Nat := 200

/-- From this many sessions on, those unseen for ten minutes are forgotten. -/
def LIVE_PRUNE_SIZE : Nat := 5000

def LIVE_PRUNE_MS : Nat := 600000

def TIMEOUT_MAX : Nat := 2147483647

/-- The delay of `setTimeout`: one that does not fit counts as 1. -/
def timeoutMs (ms : Nat) : Nat := if ms = 0 ∨ TIMEOUT_MAX < ms then 1 else ms

/-- What the database says: which sessions there are, and whose; the sessions of events and
checks. -/
structure LiveData where
  found : Nat → Bool
  orgOf : Nat → Nat
  sessionOf : Nat → Nat
  sessionOfCheck : Nat → Nat

structure LiveSession where
  lastSentAt : Nat
  /-- When the timer fires. -/
  timer : Option Nat
  orgId : Option Nat

/-- A check that was recorded, with its session and, if the caller knew it, the organisation. -/
structure DueCheck where
  checkId : Nat
  sessionId : Nat
  orgId : Option Nat

/-- Where a flush waits. -/
inductive FlushPhase
  /-- Before the next chunk of events (`ids`). -/
  | events (ids : List Nat) (checks : List DueCheck)
  /-- The rows of the wanted events of a chunk are being loaded. -/
  | eventRows (wanted ids : List Nat) (checks : List DueCheck)
  /-- The organisations of the checks' sessions are being looked up. -/
  | checkOrgs (checks : List DueCheck)
  /-- The rows of the next chunk of checks are being loaded. -/
  | checkRows (checks : List DueCheck)
  | takeSessions
  /-- The organisations of the next chunk of `unknown` sessions are being looked up. -/
  | sessionOrgs (list : List Nat) (unknown : List Nat) (byOrg : List (Nat × List Nat))
  /-- Before the next organisation. -/
  | orgs (byOrg : List (Nat × List Nat))
  /-- The summaries of a chunk are being loaded: the sessions with the versions at the start. -/
  | loading (orgId : Nat) (summaries : List (Nat × Nat)) (rest : List Nat) (byOrg : List (Nat × List Nat))

/-- A session was marked due: when, and whether a visible change (or its timer) did it. -/
structure LiveMark where
  time : Nat
  visible : Bool
  deriving DecidableEq

structure LiveNotifier where
  now : Nat
  sessions : Table (Prod.fst : Nat × LiveSession → Nat)
  dueSessions : Table (Prod.fst : Nat × Option Nat → Nat)
  dueEvents : List Nat
  dueChecks : Table DueCheck.checkId
  flushTimer : Option Nat
  /-- Flushes that wait for the one before. -/
  waiting : Nat
  running : Option FlushPhase
  hasSubscribers : Nat → Bool
  version : Nat → Nat
  /-- The version of the summary published last. -/
  covered : Nat → Nat
  /-- The marks of a session since its organisation was observed, newest first. -/
  marks : Nat → List LiveMark
  /-- The sessions of which a summary was published. -/
  published : List Nat

namespace LiveNotifier

variable (cfg : LiveNotifierOptions) (data : LiveData)

/-- False only when the organisation is known and nobody can receive its messages. -/
def observed (orgId : Option Nat) (s : LiveNotifier) : Bool :=
  match orgId with
  | none => true
  | some o => s.hasSubscribers o

def scheduleFlush (s : LiveNotifier) : LiveNotifier :=
  match s.flushTimer with
  | some _ => s
  | none => { s with flushTimer := some (s.now + timeoutMs cfg.batchMs) }

def session? (sessionId : Nat) (s : LiveNotifier) : Option LiveSession :=
  (s.sessions.find? sessionId).map (·.2)

def setSession (sessionId : Nat) (st : LiveSession) (s : LiveNotifier) : LiveNotifier :=
  { s with sessions := s.sessions.upsert (sessionId, st) }

def markSessionDue (sessionId : Nat) (st : LiveSession) (visible : Bool) (s : LiveNotifier) :
    LiveNotifier :=
  scheduleFlush cfg
    { s.setSession sessionId { st with lastSentAt := s.now } with
      dueSessions := s.dueSessions.upsert (sessionId, st.orgId)
      marks := Function.update s.marks sessionId (⟨s.now, visible⟩ :: s.marks sessionId) }

def prune (s : LiveNotifier) : LiveNotifier :=
  { s with
    sessions := s.sessions.filter fun e => e.2.timer.isSome ||
      decide (s.now ≤ e.2.lastSentAt + LIVE_PRUNE_MS) }

/-- The state of a session, made if there is none. -/
def ensureSession (sessionId : Nat) (orgId : Option Nat) (s : LiveNotifier) : LiveNotifier :=
  match s.session? sessionId with
  | some _ => s
  | none =>
    let s := if LIVE_PRUNE_SIZE ≤ s.sessions.rows.length then s.prune else s
    s.setSession sessionId ⟨0, none, orgId⟩

/-- Session summary changed; coalesced.  `orgId` is what the caller knows. -/
def sessionChanged (sessionId : Nat) (orgId : Option Nat) (visible : Bool) (s : LiveNotifier) :
    LiveNotifier :=
  let orgId := orgId.or ((s.session? sessionId).bind fun st => st.orgId)
  if ¬ s.observed orgId then s
  else
    let s := s.ensureSession sessionId orgId
    match s.session? sessionId with
    | none => s
    | some st =>
      let st := { st with orgId := orgId.or st.orgId }
      let s := s.setSession sessionId st
      if st.timer.isSome ∨ (s.dueSessions.find? sessionId).isSome then s
      else
        let due := st.lastSentAt + cfg.intervalMs visible
        if due ≤ s.now then s.markSessionDue cfg sessionId st visible
        else if visible then
          s.setSession sessionId { st with timer := some (s.now + timeoutMs (due - s.now)) }
        else s

/-- A session's timer fires. -/
def timerFired (sessionId : Nat) (s : LiveNotifier) : LiveNotifier :=
  match s.session? sessionId with
  | some st => s.markSessionDue cfg sessionId { st with timer := none } true
  | none => s

def eventChanged (eventId : Nat) (orgId : Option Nat) (s : LiveNotifier) : LiveNotifier :=
  if ¬ s.observed orgId then s
  else scheduleFlush cfg { s with dueEvents := s.dueEvents.insert eventId }

def identityCheck (c : DueCheck) (s : LiveNotifier) : LiveNotifier :=
  if ¬ s.observed c.orgId then s
  else scheduleFlush cfg { s with dueChecks := s.dueChecks.upsert c }

/-! ## Flushing -/

/-- A flush begins: it takes the events and the checks. -/
def beginFlush (s : LiveNotifier) : LiveNotifier :=
  { s with running := some (.events s.dueEvents s.dueChecks.rows), dueEvents := [], dueChecks := .empty }

/-- The flush timer fires: one batch at a time. -/
def flushTimerFired (s : LiveNotifier) : LiveNotifier :=
  let s := { s with flushTimer := none }
  if s.running.isSome ∨ 0 < s.waiting then { s with waiting := s.waiting + 1 } else s.beginFlush

def endFlush (s : LiveNotifier) : LiveNotifier := { s with running := none }

/-- After a flush the next one that waits begins. -/
def beginWaiting (s : LiveNotifier) : LiveNotifier :=
  if 0 < s.waiting then { s with waiting := s.waiting - 1 }.beginFlush else s

/-- Forget that a summary was sent (none was). -/
def unthrottle (sessionId : Nat) (s : LiveNotifier) : LiveNotifier :=
  match s.session? sessionId with
  | some st => s.setSession sessionId { st with lastSentAt := 0 }
  | none => s

def unthrottleAll (ids : List Nat) (s : LiveNotifier) : LiveNotifier :=
  ids.foldl (fun s id => s.unthrottle id) s

/-- A looked-up organisation is remembered. -/
def learnOrg (sessionId orgId : Nat) (s : LiveNotifier) : LiveNotifier :=
  match s.session? sessionId with
  | some st => s.setSession sessionId { st with orgId := some orgId }
  | none => s

def addToOrg (orgId id : Nat) : List (Nat × List Nat) → List (Nat × List Nat)
  | [] => [(orgId, [id])]
  | (o, ids) :: rest => if o = orgId then (o, ids ++ [id]) :: rest else (o, ids) :: addToOrg orgId id rest

/-- The sessions of known organisations, and those to look up. -/
def knownOrgs (list : List (Nat × Option Nat)) : List (Nat × List Nat) :=
  list.foldl (fun byOrg e => match e.2 with
    | some o => addToOrg o e.1 byOrg
    | none => byOrg) []

theorem knownOrgs_eq_foldl (orgOf : Nat → Nat) {list : List (Nat × Option Nat)}
    (h : ∀ e ∈ list, ∀ o ∈ e.2, o = orgOf e.1) :
    knownOrgs list = ((list.filter fun e => e.2.isSome).map (·.1)).foldl
      (fun byOrg id => addToOrg (orgOf id) id byOrg) [] := by
  rw [knownOrgs]
  generalize ([] : List (Nat × List Nat)) = byOrg
  induction list generalizing byOrg with
  | nil => rfl
  | cons e list ih =>
    have hlist : ∀ e ∈ list, ∀ o ∈ e.2, o = orgOf e.1 := fun e' he' => h e' (List.mem_cons_of_mem e he')
    rw [List.foldl_cons, ih hlist]
    rcases hsome : e.2 with _ | o
    · simp [hsome]
    · obtain rfl := h e List.mem_cons_self o hsome
      simp [hsome]

def unknownOrgs (list : List (Nat × Option Nat)) : List Nat :=
  (list.filter fun e => e.2.isNone).map (·.1)

def goTo (phase : FlushPhase) (s : LiveNotifier) : LiveNotifier := { s with running := some phase }

/-- The next chunk of an organisation begins to load; after the last one comes the next
organisation. -/
def loadChunk (orgId : Nat) (ids : List Nat) (byOrg : List (Nat × List Nat)) (s : LiveNotifier) :
    LiveNotifier :=
  if ids = [] then s.goTo (.orgs byOrg)
  else
    s.goTo (.loading orgId
      (((ids.take LIVE_CHUNK).filter fun id => data.found id ∧ data.orgOf id = orgId).map fun id =>
        (id, s.version id))
      (ids.drop LIVE_CHUNK) byOrg)

/-- The summaries of a chunk are published. -/
def publish (summaries : List (Nat × Nat)) (s : LiveNotifier) : LiveNotifier :=
  { s with
    covered := summaries.foldl (fun covered e => Function.update covered e.1 e.2) s.covered
    published := s.published ++ summaries.map (·.1) }

end LiveNotifier

open LiveNotifier in
/-- What the running flush does when its query has been answered. -/
def FlushPhase.step (cfg : LiveNotifierOptions) (data : LiveData) (p : FlushPhase)
    (s : LiveNotifier) : LiveNotifier :=
  match p with
  | .events ids checks =>
    if ids = [] then s.goTo (if checks = [] then .takeSessions else .checkOrgs checks)
    else
      let wanted := (ids.take LIVE_CHUNK).filter fun e =>
        data.found (data.sessionOf e) ∧ s.hasSubscribers (data.orgOf (data.sessionOf e))
      s.goTo (if wanted = [] then .events (ids.drop LIVE_CHUNK) checks
        else .eventRows wanted (ids.drop LIVE_CHUNK) checks)
  | .eventRows wanted ids checks =>
    (wanted.foldl (fun s e => s.sessionChanged cfg (data.sessionOf e)
      (some (data.orgOf (data.sessionOf e))) true)
      s).goTo (.events ids checks)
  | .checkOrgs checks =>
    s.goTo (.checkRows (checks.filter fun c =>
      (c.orgId.isSome ∨ data.found c.sessionId) ∧ s.hasSubscribers (c.orgId.getD (data.orgOf c.sessionId))))
  | .checkRows checks =>
    if checks = [] then s.goTo .takeSessions
    else
      ((checks.take LIVE_CHUNK).foldl
        (fun s c => s.sessionChanged cfg c.sessionId (some (c.orgId.getD (data.orgOf c.sessionId))) true) s).goTo
          (.checkRows (checks.drop LIVE_CHUNK))
  | .takeSessions =>
    let list := s.dueSessions.rows
    let s := { s with dueSessions := .empty }
    if list = [] then s.endFlush
    else s.goTo (.sessionOrgs (list.map (·.1)) (unknownOrgs list) (knownOrgs list))
  | .sessionOrgs list unknown byOrg =>
    if unknown = [] then
      (s.unthrottleAll (list.filter fun id => id ∉ byOrg.flatMap (·.2))).goTo (.orgs byOrg)
    else
      let rows := (unknown.take LIVE_CHUNK).filter fun id => data.found id
      (rows.foldl (fun s id => s.learnOrg id (data.orgOf id)) s).goTo
        (.sessionOrgs list (unknown.drop LIVE_CHUNK)
          (rows.foldl (fun byOrg id => addToOrg (data.orgOf id) id byOrg) byOrg))
  | .orgs [] => s.endFlush
  | .orgs ((orgId, ids) :: byOrg) =>
    if s.hasSubscribers orgId then s.loadChunk data orgId ids byOrg
      else (s.unthrottleAll ids).goTo (.orgs byOrg)
  | .loading orgId summaries rest byOrg => (s.publish summaries).loadChunk data orgId rest byOrg

/-- The running flush goes on, or the next one begins. -/
def LiveNotifier.flushStep (cfg : LiveNotifierOptions) (data : LiveData) (s : LiveNotifier) :
    LiveNotifier :=
  match s.running with
  | none => s.beginWaiting
  | some p => p.step cfg data s

/-! ## Runs -/

inductive LiveInput
  | tick (ms : Nat)
  /-- `known`: the caller knows the organisation. -/
  | sessionChanged (sessionId : Nat) (known visible : Bool)
  | eventChanged (eventId : Nat) (known : Bool)
  | identityCheck (checkId : Nat) (known : Bool)
  | timerFired (sessionId : Nat)
  | flushTimerFired
  | flushStep
  /-- The first dashboard of an organisation opens, or the last one closes. -/
  | subscribers (orgId : Nat) (any : Bool)

namespace LiveNotifier

variable (cfg : LiveNotifierOptions) (data : LiveData)

/-- What the caller says about the organisation. -/
def knownOrg (known : Bool) (sessionId : Nat) : Option Nat :=
  if known then some (data.orgOf sessionId) else none

/-- A visible change, committed before the call. -/
def bump (sessionId : Nat) (s : LiveNotifier) : LiveNotifier :=
  if s.hasSubscribers (data.orgOf sessionId) then
    { s with version := Function.update s.version sessionId (s.version sessionId + 1) }
  else s

/-- Whoever opens a dashboard loads everything; what is counted begins anew. -/
def setSubscribers (orgId : Nat) (any : Bool) (s : LiveNotifier) : LiveNotifier :=
  { s with
    hasSubscribers := Function.update s.hasSubscribers orgId any
    covered := fun id => if data.orgOf id = orgId then s.version id else s.covered id
    marks := fun id => if data.orgOf id = orgId then [] else s.marks id }

end LiveNotifier

def LiveInput.step (cfg : LiveNotifierOptions) (data : LiveData) (i : LiveInput)
    (s : LiveNotifier) : LiveNotifier :=
  match i with
  | .tick ms => { s with now := s.now + ms }
  | .sessionChanged id known visible =>
    let s := s.sessionChanged cfg id (LiveNotifier.knownOrg data known id) visible
    if visible then s.bump data id else s
  | .eventChanged e known =>
    (s.eventChanged cfg e (LiveNotifier.knownOrg data known (data.sessionOf e))).bump data (data.sessionOf e)
  | .identityCheck c known =>
    (s.identityCheck cfg ⟨c, data.sessionOfCheck c,
      LiveNotifier.knownOrg data known (data.sessionOfCheck c)⟩).bump
      data (data.sessionOfCheck c)
  | .timerFired id => s.timerFired cfg id
  | .flushTimerFired => s.flushTimerFired
  | .flushStep => s.flushStep cfg data
  | .subscribers orgId any => s.setSubscribers data orgId any

/-- Timers fire at their time or later. -/
def LiveInput.enabled (i : LiveInput) (s : LiveNotifier) : Prop :=
  match i with
  | .timerFired id => ∃ st ∈ s.session? id, ∃ t ∈ st.timer, t ≤ s.now
  | .flushTimerFired => ∃ t ∈ s.flushTimer, t ≤ s.now
  | .flushStep => s.running.isSome ∨ 0 < s.waiting
  | _ => True

instance LiveInput.decidableEnabled (i : LiveInput) (s : LiveNotifier) :
    Decidable (i.enabled s) := by
  unfold LiveInput.enabled
  split <;> infer_instance

def LiveNotifier.start (now : Nat) : LiveNotifier where
  now := now
  sessions := .empty
  dueSessions := .empty
  dueEvents := []
  dueChecks := .empty
  flushTimer := none
  waiting := 0
  running := none
  hasSubscribers := fun _ => false
  version := fun _ => 0
  covered := fun _ => 0
  marks := fun _ => []
  published := []

/-- A notifier from its start on. -/
def liveMachine (cfg : LiveNotifierOptions) (data : LiveData) : Machine LiveNotifier LiveInput where
  init s := ∃ now, s = .start now
  step := LiveInput.step cfg data
  enabled := LiveInput.enabled

theorem LiveNotifier.start_init (cfg : LiveNotifierOptions) (data : LiveData) (now : Nat) :
    (liveMachine cfg data).init (start now) := ⟨now, rfl⟩

instance liveMachine.decidableEnabled (cfg : LiveNotifierOptions) (data : LiveData) (i : LiveInput)
    (s : LiveNotifier) : Decidable ((liveMachine cfg data).enabled i s) :=
  inferInstanceAs (Decidable (i.enabled s))

end SmartProctoring
