import SmartProctoring.Lib.Processes
import SmartProctoring.Server.Keyring

/-!
# `Idempotency-Key`

`idempotencyGuard`, `storeIdempotentResponse` and `purgeIdempotencyKeys` of
`services/idempotency.ts`, for the requests that carry one key of one organisation.  The unique
index on (organisation, key) leaves at most one row, so the table is the row, if there is one.

Every statement the code sends to the database is one step, and reading the clock is one: between
any two of them other requests move and time passes.  A request inserts at most one row, so the
row's generated id is named by the request that inserted it.
-/

set_option autoImplicit false

namespace SmartProctoring

open Option

def IDEMPOTENCY_TTL_MS : Int := 24 * 3600000
def IDEMPOTENCY_IN_PROGRESS_TIMEOUT_MS : Int := 60 * 1000

/-- What the guard reads of a request: its method, its path and the hash of method, path, query and
canonical body. -/
structure IdempotentRequest where
  method : String
  path : String
  hash : Nat

/-- A row of `api_idempotency_keys`. -/
structure IdempotencyRow (ι : Type) where
  id : ι
  method : String
  path : String
  requestHash : Nat
  createdAt : Int
  /-- Status and sealed body of the stored response; absent while the request is in progress. -/
  response : Option (Nat × Ciphertext ι String) := none

/-- What the handler's reply is when it reaches the `onSend` hook. -/
structure Reply where
  statusCode : Nat
  /-- The serialised body; absent when it is not a string. -/
  payload : Option String
  deriving DecidableEq

def Reply.ok (r : Reply) : Bool := decide (200 ≤ r.statusCode ∧ r.statusCode < 300)

/-- How a request is answered. -/
inductive IdempotencyAnswer
  /-- By its own handler. -/
  | own (reply : Reply)
  /-- By the stored response of an earlier request. -/
  | replayed (statusCode : Nat) (body : String)
  | refused (err : HttpError)
  deriving DecidableEq

def inUse : HttpError :=
  conflict "idempotency_key_in_use"
    "A request with this Idempotency-Key is still being processed. Retry in a moment."

def reused (method path : String) : HttpError :=
  ⟨422, "idempotency_key_reused",
    s!"This Idempotency-Key was already used for a different request ({method} {path}, " ++
      "or another body) in the last 24 hours. Use a new key for a new request."⟩

/-- Where a request is. -/
inductive RequestStep (ι : Type)
  | idle
  /-- At the top of the guard's loop. -/
  | trying (attempt : Nat)
  /-- The clock was read; the `INSERT ... ON CONFLICT DO NOTHING` is next. -/
  | inserting (attempt : Nat) (now : Int)
  /-- The key is taken; the row is read next. -/
  | selecting (attempt : Nat) (now : Int)
  /-- The row read was expired or abandoned; it is deleted by its id next. -/
  | removing (attempt : Nat) (row : ι)
  /-- Owns the row; the handler runs. -/
  | running
  /-- The handler replied; the result is recorded next. -/
  | replying (reply : Reply)
  | answered (answer : IdempotencyAnswer)
  deriving DecidableEq

/-- What happened to the key, as an observer of all requests would write it down. -/
inductive IdempotencyEvent (ι : Type)
  | arrived (request : ι)
  /-- The request's handler started. -/
  | ran (request : ι)
  /-- The request's handler completed successfully. -/
  | succeeded (request : ι)
  | stored (request : ι) (statusCode : Nat) (body : String)
  | released (request : ι)
  | answered (request : ι) (answer : IdempotencyAnswer)
  deriving DecidableEq

/-- The row, the time, and the history (newest first). -/
structure IdempotencyStore (ι : Type) where
  row : Option (IdempotencyRow ι) := none
  clock : Int
  log : List (IdempotencyEvent ι) := []

section Steps

variable {ι : Type} [DecidableEq ι]

/-- What the guard makes of the row it found. -/
def judgeRow (keyring : Keyring) (q : IdempotentRequest) (attempt : Nat) (now : Int)
    (row : IdempotencyRow ι) : RequestStep ι :=
  let age := now - row.createdAt
  if IDEMPOTENCY_TTL_MS ≤ age ∨
      (row.response = none ∧ IDEMPOTENCY_IN_PROGRESS_TIMEOUT_MS ≤ age) then
    .removing attempt row.id
  else if row.requestHash ≠ q.hash then .answered (.refused (reused row.method row.path))
  else
    match row.response with
    | none => .answered (.refused inUse)
    | some (statusCode, responseEnc) =>
      match keyring.decrypt responseEnc row.id with
      | some body => .answered (.replayed statusCode body)
      | none => .answered (.refused ⟨500, "internal_error", "Internal server error"⟩)

/-- Moves to a local state, noting an answer in the history. -/
def arriveAt (i : ι) (store : IdempotencyStore ι) :
    RequestStep ι → IdempotencyStore ι × RequestStep ι
  | .answered a => ({ store with log := .answered i a :: store.log }, .answered a)
  | p => (store, p)

/-- `idempotencyGuard`, one statement. -/
def guardStep (keyring : Keyring) (q : IdempotentRequest) (i : ι) (store : IdempotencyStore ι) :
    RequestStep ι → IdempotencyStore ι × RequestStep ι
  | .idle => ({ store with log := .arrived i :: store.log }, .trying 0)
  | .trying attempt =>
    if attempt < 3 then (store, .inserting attempt store.clock)
    else arriveAt i store (.answered (.refused inUse))
  | .inserting attempt now =>
    match store.row with
    | none =>
      ({ store with
          row := some
            { id := i, method := q.method, path := q.path, requestHash := q.hash, createdAt := now }
          log := .ran i :: store.log }, .running)
    | some _ => (store, .selecting attempt now)
  | .selecting attempt now =>
    match store.row with
    | none => (store, .trying (attempt + 1))
    | some row => arriveAt i store (judgeRow keyring q attempt now row)
  | .removing attempt id =>
    ({ store with row := store.row.filter fun r => r.id ≠ id }, .trying (attempt + 1))
  | p => (store, p)

/-- The handler replies. -/
def handlerStep (reply : Reply) (i : ι) (store : IdempotencyStore ι) :
    IdempotencyStore ι × RequestStep ι :=
  (if reply.ok then { store with log := .succeeded i :: store.log } else store, .replying reply)

/-- `storeIdempotentResponse`: a successful response is stored, the key is released otherwise. -/
def recordStep (keyring : Keyring) (reply : Reply) (i : ι) (store : IdempotencyStore ι) :
    IdempotencyStore ι × RequestStep ι :=
  match reply.ok, reply.payload with
  | true, some body =>
    arriveAt i
      { store with
        row := store.row.map fun r =>
          if r.id = i then { r with response := some (reply.statusCode, keyring.encrypt body i) }
          else r
        log := .stored i reply.statusCode body :: store.log }
      (.answered (.own reply))
  | _, _ =>
    arriveAt i
      { store with
        row := store.row.filter fun r => r.id ≠ i
        log := .released i :: store.log }
      (.answered (.own reply))

/-- `purgeIdempotencyKeys`. -/
def purgeIdempotencyKeys (store : IdempotencyStore ι) : IdempotencyStore ι :=
  { store with row := store.row.filter fun r => ¬r.createdAt ≤ store.clock - IDEMPOTENCY_TTL_MS }

inductive IdempotencyInput (ι : Type)
  /-- The next statement of a request's guard. -/
  | guard (i : ι)
  | handler (i : ι) (reply : Reply)
  /-- The `onSend` hook; `recorded` is whether its statement succeeded. -/
  | record (i : ι) (recorded : Bool)
  | purge
  | tick (ms : Nat)

/-- All requests with the key, over its row. -/
abbrev IdempotencyState (ι : Type) := Processes (IdempotencyStore ι) ι (RequestStep ι)

def idempotencyStep (keyring : Keyring) (q : ι → IdempotentRequest) :
    IdempotencyInput ι → IdempotencyState ι → IdempotencyState ι
  | .guard i, s => s.move i (guardStep keyring (q i) i s.shared (s.loc i))
  | .handler i reply, s => s.move i (handlerStep reply i s.shared)
  | .record i recorded, s =>
    match s.loc i with
    | .replying reply =>
      if recorded then s.move i (recordStep keyring reply i s.shared)
      else s.move i (arriveAt i s.shared (.answered (.own reply)))
    | _ => s
  | .purge, s => s.setShared (purgeIdempotencyKeys s.shared)
  | .tick ms, s => s.setShared { s.shared with clock := s.shared.clock + ms }

/-- A handler replies while it runs and its reply is recorded once; the rest may happen any time. -/
def idempotencyEnabled : IdempotencyInput ι → IdempotencyState ι → Prop
  | .handler i _, s => s.loc i = .running
  | .record i _, s => ∃ reply, s.loc i = .replying reply
  | _, _ => True

/-- The requests `q`, in any interleaving. -/
def idempotencyMachine (keyring : Keyring) (q : ι → IdempotentRequest) :
    Machine (IdempotencyState ι) (IdempotencyInput ι) where
  init s := s.shared.row = none ∧ s.shared.log = [] ∧ ∀ i, s.loc i = .idle
  step := idempotencyStep keyring q
  enabled := idempotencyEnabled

instance (x : IdempotencyInput ι) (s : IdempotencyState ι) : Decidable (idempotencyEnabled x s) :=
  match x with
  | .guard _ | .purge | .tick _ => .isTrue trivial
  | .handler i _ => inferInstanceAs (Decidable (s.loc i = .running))
  | .record i _ =>
    match h : s.loc i with
    | .replying reply => .isTrue ⟨reply, h⟩
    | .idle | .trying _ | .inserting _ _ | .selecting _ _ | .removing _ _ | .running | .answered _ =>
      .isFalse (by rintro ⟨reply, hr⟩; rw [h] at hr; cases hr)

end Steps

namespace Idempotency

variable {ι : Type} [DecidableEq ι]

/-! ## What the history must look like -/

/-- The request that holds the key: the last that ran, unless it released it. -/
def holder : List (IdempotencyEvent ι) → Option ι
  | [] => none
  | .ran i :: _ => some i
  | .released _ :: _ => none
  | .arrived _ :: log | .succeeded _ :: log | .stored _ _ _ :: log | .answered _ _ :: log => holder log

/-- `j` has held the key since before `i` arrived. -/
def HeldSince (i j : ι) : List (IdempotencyEvent ι) → Prop
  | [] => False
  | e :: log =>
    if e = .arrived i then holder log = some j
    else (∀ k, e ≠ .released k) ∧ HeldSince i j log

/-- `j`'s response was stored before `i` arrived. -/
def StoredBefore (i j : ι) (statusCode : Nat) (body : String) (log : List (IdempotencyEvent ι)) :
    Prop :=
  ∃ l₁ l₂, log = l₁ ++ .arrived i :: l₂ ∧ .stored j statusCode body ∈ l₂

/-- What each event may follow: a handler starts only while the key is free and nothing is stored,
one handler succeeds, what is stored is the first response, of the holder, whose handler succeeded,
and an answer is the stored response or the refusal that the holder's request calls for, or, when it
is the successful reply of the request itself, what was stored. -/
def EventOk (q : ι → IdempotentRequest) :
    IdempotencyEvent ι → List (IdempotencyEvent ι) → Prop
  | .ran _, log => holder log = none ∧ ∀ j c b, .stored j c b ∉ log
  | .succeeded _, log => ∀ j, .succeeded j ∉ log
  | .released i, log => holder log = some i ∧ .succeeded i ∉ log
  | .stored i _ _, log =>
    holder log = some i ∧ .succeeded i ∈ log ∧ ∀ j c b, .stored j c b ∉ log
  | .answered i a, log =>
    (∀ j, HeldSince i j log → (q i).hash ≠ (q j).hash →
      a = .refused (reused (q j).method (q j).path)) ∧
    (∀ j c b, StoredBefore i j c b log → (q i).hash = (q j).hash → a = .replayed c b) ∧
    ∀ reply, a = .own reply → reply.ok = true →
      ∃ body ∈ reply.payload, .stored i reply.statusCode body ∈ log
  | .arrived _, _ => True

def HistoryOk (q : ι → IdempotentRequest) : List (IdempotencyEvent ι) → Prop
  | [] => True
  | e :: log => EventOk q e log ∧ HistoryOk q log

variable {q : ι → IdempotentRequest}

theorem HistoryOk.holder_of_heldSince {i j : ι} :
    ∀ {log : List (IdempotencyEvent ι)}, HistoryOk q log → HeldSince i j log →
      holder log = some j
  | [], _, h => h.elim
  | e :: log, hok, h => by
    by_cases he : e = .arrived i
    · subst he
      simpa [HeldSince, holder] using h
    · rw [HeldSince, if_neg he] at h
      have ih := hok.2.holder_of_heldSince h.2
      cases e with
      | ran k => simp [hok.1.1] at ih
      | released k => exact absurd rfl (h.1 k)
      | arrived _ | succeeded _ | stored _ _ _ | answered _ _ => exact ih

omit [DecidableEq ι] in
theorem StoredBefore.mem {i j : ι} {c : Nat} {b : String} {log : List (IdempotencyEvent ι)}
    (h : StoredBefore i j c b log) : .stored j c b ∈ log := by
  obtain ⟨l₁, l₂, rfl, hj⟩ := h
  exact List.mem_append_right _ (List.mem_cons_of_mem _ hj)

/-- The key was free at some moment since `i` arrived, with nothing stored before. -/
def Passed (i : ι) (log : List (IdempotencyEvent ι)) : Prop :=
  (∀ j, ¬HeldSince i j log) ∧ ∀ j c b, ¬StoredBefore i j c b log

variable {i : ι} {log : List (IdempotencyEvent ι)}

theorem Passed.cons (h : Passed i log)
    {e : IdempotencyEvent ι} (he : e ≠ .arrived i) : Passed i (e :: log) := by
  refine ⟨fun j hj => ?_, fun j c b hj => ?_⟩
  · rw [HeldSince, if_neg he] at hj
    exact h.1 j hj.2
  · obtain ⟨l₁, l₂, heq, hmem⟩ := hj
    cases l₁ with
    | nil => exact he (List.cons.inj heq).1
    | cons e' l₁ => exact h.2 j c b ⟨l₁, l₂, (List.cons.inj heq).2, hmem⟩

/-! ## Runs within the lease -/

/-- Nothing in progress is older than the lease, and no row older than the retention time. -/
def WithinLease (store : IdempotencyStore ι) : Prop :=
  ∀ r ∈ store.row, store.clock < r.createdAt + IDEMPOTENCY_TTL_MS ∧
    (r.response = none → store.clock < r.createdAt + IDEMPOTENCY_IN_PROGRESS_TIMEOUT_MS)
  deriving Decidable

/-- Handlers keep to the lease, successful ones answer with a body, and recording succeeds. -/
def recorded (keyring : Keyring) (q : ι → IdempotentRequest) (x : IdempotencyInput ι)
    (s : IdempotencyState ι) : Prop :=
  WithinLease (idempotencyStep keyring q x s).shared ∧
    match x with
    | .handler _ reply => reply.ok = true → reply.payload.isSome = true
    | .record _ recorded => recorded = true
    | _ => True

instance (keyring : Keyring) (q : ι → IdempotentRequest) (x : IdempotencyInput ι)
    (s : IdempotencyState ι) : Decidable (recorded keyring q x s) := by
  unfold recorded
  cases x <;> infer_instance

def leasedMachine (keyring : Keyring) (q : ι → IdempotentRequest) :
    Machine (IdempotencyState ι) (IdempotencyInput ι) :=
  (idempotencyMachine keyring q).restrict (recorded keyring q)

instance (keyring : Keyring) (q : ι → IdempotentRequest) (x : IdempotencyInput ι)
    (s : IdempotencyState ι) : Decidable ((leasedMachine keyring q).enabled x s) :=
  inferInstanceAs (Decidable (idempotencyEnabled x s ∧ recorded keyring q x s))

/-! ## The outline -/

/-- What holds of the row and the history. -/
structure KeyOk (keyring : Keyring) (q : ι → IdempotentRequest)
    (s : IdempotencyStore ι) : Prop where
  holder : holder s.log = s.row.map IdempotencyRow.id
  request : ∀ r ∈ s.row, r.method = (q r.id).method ∧ r.path = (q r.id).path ∧
    r.requestHash = (q r.id).hash
  stored : ∀ j c b, .stored j c b ∈ s.log →
    ∃ r ∈ s.row, r.id = j ∧ r.response = some (c, keyring.encrypt b j)
  sealed : ∀ r ∈ s.row, ∀ c enc, r.response = some (c, enc) → ∃ b, enc = keyring.encrypt b r.id
  succeeded : ∀ j, .succeeded j ∈ s.log → ∃ r ∈ s.row, r.id = j
  history : HistoryOk q s.log
  leased : WithinLease s

/-- `i` owns the row and its result is not recorded yet. -/
def Owns (i : ι) (s : IdempotencyStore ι) : Prop :=
  (∃ r ∈ s.row, r.id = i ∧ r.response = none) ∧ Passed i s.log

/-- What each request may rely on. -/
def RequestOk (i : ι) (s : IdempotencyStore ι) : RequestStep ι → Prop
  | .idle => .arrived i ∉ s.log
  | .trying attempt => 0 < attempt → Passed i s.log
  | .inserting attempt now | .selecting attempt now =>
    attempt < 3 ∧ now ≤ s.clock ∧ (0 < attempt → Passed i s.log)
  | .removing _ _ => False
  | .running => Owns i s ∧ .succeeded i ∉ s.log
  | .replying reply =>
    Owns i s ∧ (reply.ok = false → .succeeded i ∉ s.log) ∧
      (reply.ok = true → reply.payload.isSome = true ∧ .succeeded i ∈ s.log)
  | .answered _ => True

/-- What the steps of others may do between two looks of `j`. -/
structure Later (j : ι) (s s' : IdempotencyStore ι) : Prop where
  clock : s.clock ≤ s'.clock
  log : ∃ es, s'.log = es ++ s.log ∧ ∀ e ∈ es, e ≠ .arrived j ∧ e ≠ .succeeded j
  row : ∀ r ∈ s.row, r.id = j → r ∈ s'.row

theorem Passed.append {log es : List (IdempotencyEvent ι)} (h : Passed i log)
    (hes : ∀ e ∈ es, e ≠ .arrived i) : Passed i (es ++ log) := by
  induction es with
  | nil => exact h
  | cons e es ih =>
    exact (ih fun e he => hes e (List.mem_cons_of_mem _ he)).cons (hes e List.mem_cons_self)

variable {s s' : IdempotencyStore ι}

theorem Later.passed (h : Later i s s') (hp : Passed i s.log) : Passed i s'.log := by
  obtain ⟨es, hlog, hes⟩ := h.log
  rw [hlog]
  exact hp.append fun e he => (hes e he).1

theorem Later.owns (h : Later i s s') (ho : Owns i s) :
    Owns i s' := by
  obtain ⟨⟨r, hr, hid, hres⟩, hp⟩ := ho
  exact ⟨⟨r, h.row r hr hid, hid, hres⟩, h.passed hp⟩

omit [DecidableEq ι] in
theorem Later.not_succeeded (h : Later i s s')
    (hi : .succeeded i ∉ s.log) : .succeeded i ∉ s'.log := by
  obtain ⟨es, hlog, hes⟩ := h.log
  rw [hlog, List.mem_append]
  rintro (he | he)
  exacts [(hes _ he).2 rfl, hi he]

omit [DecidableEq ι] in
theorem Later.not_arrived (h : Later i s s') (hi : .arrived i ∉ s.log) : .arrived i ∉ s'.log := by
  obtain ⟨es, hlog, hes⟩ := h.log
  rw [hlog, List.mem_append]
  rintro (he | he)
  exacts [(hes _ he).1 rfl, hi he]

omit [DecidableEq ι] in
theorem Later.mem (h : Later i s s') {e : IdempotencyEvent ι} (he : e ∈ s.log) : e ∈ s'.log := by
  obtain ⟨es, hlog, -⟩ := h.log
  exact hlog ▸ List.mem_append_right _ he

variable {p : RequestStep ι}

/-- Non-interference. -/
theorem RequestOk.later (h : Later i s s') (hp : RequestOk i s p) : RequestOk i s' p := by
  cases p with
  | idle => exact h.not_arrived hp
  | trying => exact fun hk => h.passed (hp hk)
  | inserting | selecting =>
    exact ⟨hp.1, hp.2.1.trans h.clock, fun hk => h.passed (hp.2.2 hk)⟩
  | removing => exact hp
  | running => exact ⟨h.owns hp.1, h.not_succeeded hp.2⟩
  | replying =>
    exact ⟨h.owns hp.1, fun hk => h.not_succeeded (hp.2.1 hk),
      fun hk => ⟨(hp.2.2 hk).1, h.mem (hp.2.2 hk).2⟩⟩
  | answered => trivial

omit [DecidableEq ι] in
theorem Later.note {j : ι} {e : IdempotencyEvent ι}
    (he : e ≠ .arrived j ∧ e ≠ .succeeded j) : Later j s { s with log := e :: s.log } :=
  ⟨le_rfl, ⟨[e], rfl, by simpa using he⟩, fun _ hr _ => hr⟩

variable {keyring : Keyring}

theorem KeyOk.free (h : KeyOk keyring q s) (hrow : s.row = none) (i : ι) :
    (∀ j c b, .stored j c b ∉ s.log) ∧ (∀ j, .succeeded j ∉ s.log) ∧ Passed i s.log := by
  have hstored : ∀ j c b, .stored j c b ∉ s.log := by
    intro j c b hj
    obtain ⟨r, hr, -⟩ := h.stored j c b hj
    rw [hrow] at hr
    cases hr
  refine ⟨hstored, fun j hj => ?_, fun j hj => ?_, ?_⟩
  · obtain ⟨r, hr, -⟩ := h.succeeded j hj
    rw [hrow] at hr
    cases hr
  · have hheld := h.history.holder_of_heldSince hj
    rw [h.holder, hrow] at hheld
    cases hheld
  · rintro j c b ⟨l₁, l₂, hlog, hj⟩
    exact hstored j c b (by rw [hlog]; simp [hj])

theorem KeyOk.answer (h : KeyOk keyring q s) {a : IdempotencyAnswer}
    (ha : EventOk q (.answered i a) s.log) :
    KeyOk keyring q { s with log := .answered i a :: s.log } where
  __ := h
  stored j c b hj := h.stored j c b (by simpa using hj)
  succeeded j hj := h.succeeded j (by simpa using hj)
  history := ⟨ha, h.history⟩

theorem Passed.answer (h : Passed i log) {a : IdempotencyAnswer}
    (ha : ∀ reply, a = .own reply → reply.ok = true →
      ∃ body ∈ reply.payload, .stored i reply.statusCode body ∈ log) :
    EventOk q (.answered i a) log :=
  ⟨fun j hj => absurd hj (h.1 j), fun j c b hj => absurd hj (h.2 j c b), ha⟩

theorem KeyOk.judge (h : KeyOk keyring q s) {r : IdempotencyRow ι} (hr : r ∈ s.row) (attempt : Nat)
    {now : Int} (hnow : now ≤ s.clock) :
    ∃ a, judgeRow keyring (q i) attempt now r = .answered a ∧
      EventOk q (.answered i a) s.log ∧
      ∀ j c b, .stored j c b ∈ s.log → (q i).hash = (q j).hash → a = .replayed c b := by
  obtain ⟨httl, hlease⟩ := h.leased r hr
  obtain ⟨hmethod, hpath, hhash⟩ := h.request r hr
  have hyoung : ¬(IDEMPOTENCY_TTL_MS ≤ now - r.createdAt ∨
      (r.response = none ∧ IDEMPOTENCY_IN_PROGRESS_TIMEOUT_MS ≤ now - r.createdAt)) := by
    rintro (hold | ⟨hnone, hold⟩)
    · omega
    · have := hlease hnone
      omega
  have hheld : ∀ j, HeldSince i j s.log → j = r.id := by
    intro j hj
    have hholder := h.history.holder_of_heldSince hj
    rw [h.holder, mem_def.1 hr] at hholder
    exact (some.inj hholder).symm
  have hstored : ∀ j c b, .stored j c b ∈ s.log →
      j = r.id ∧ r.response = some (c, keyring.encrypt b r.id) := by
    intro j c b hj
    obtain ⟨r', hr', hid, hres⟩ := h.stored j c b hj
    obtain rfl : r' = r := mem_unique hr' hr
    subst hid
    exact ⟨rfl, hres⟩
  rw [judgeRow, if_neg hyoung]
  by_cases hreq : r.requestHash = (q i).hash
  · rw [if_neg (not_not.2 hreq)]
    have hsame : ∀ j, HeldSince i j s.log → (q i).hash = (q j).hash := by
      intro j hj
      rw [hheld j hj, ← hhash, hreq]
    cases hres : r.response with
    | none =>
      have hnone : ∀ j c b, .stored j c b ∉ s.log := by
        intro j c b hj
        rw [hres] at hstored
        cases (hstored j c b hj).2
      exact ⟨_, rfl, ⟨fun j hj hne => absurd (hsame j hj) hne,
        fun j c b hj => absurd hj.mem (hnone j c b), by simp⟩, fun j c b hj => absurd hj (hnone j c b)⟩
    | some cenc =>
      obtain ⟨c, enc⟩ := cenc
      obtain ⟨b, rfl⟩ := h.sealed r hr c enc hres
      have hreplayed : ∀ j c' b', .stored j c' b' ∈ s.log →
          IdempotencyAnswer.replayed c b = .replayed c' b' := by
        intro j c' b' hj
        have heq := (hstored j c' b' hj).2
        rw [hres] at heq
        simp only [some.injEq, Prod.mk.injEq, Keyring.encrypt, Ciphertext.mk.injEq] at heq
        rw [heq.1, heq.2.2.2]
      exact ⟨.replayed c b, by simp, ⟨fun j hj hne => absurd (hsame j hj) hne,
        fun j c' b' hj _ => hreplayed j c' b' hj.mem, by simp⟩, fun j c' b' hj _ => hreplayed j c' b' hj⟩
  · rw [if_pos hreq]
    have hother : ∀ j c b, .stored j c b ∈ s.log → (q i).hash ≠ (q j).hash := by
      intro j c b hj hsame
      rw [(hstored j c b hj).1, ← hhash] at hsame
      exact hreq hsame.symm
    refine ⟨_, rfl, ⟨fun j hj _ => ?_, fun j c b hj hsame => absurd hsame (hother j c b hj.mem), by simp⟩,
      fun j c b hj hsame => absurd hsame (hother j c b hj)⟩
    rw [hheld j hj, hmethod, hpath]

theorem guardStep_ok (h : KeyOk keyring q s) (hp : RequestOk i s p)
    (hleased : WithinLease (guardStep keyring (q i) i s p).1) :
    KeyOk keyring q (guardStep keyring (q i) i s p).1 ∧
      RequestOk i (guardStep keyring (q i) i s p).1 (guardStep keyring (q i) i s p).2 ∧
      ∀ j, j ≠ i → Later j s (guardStep keyring (q i) i s p).1 := by
  have hsame : ∀ j, Later j s s := fun j => ⟨le_rfl, ⟨[], rfl, by simp⟩, fun _ hr _ => hr⟩
  have hnote : ∀ a j, j ≠ i → Later j s { s with log := .answered i a :: s.log } :=
    fun a j _ => .note ⟨by simp, by simp⟩
  cases p with
  | idle =>
    refine ⟨{ h with
        stored := fun j c b hj => h.stored j c b (by simpa [guardStep] using hj)
        succeeded := fun j hj => h.succeeded j (by simpa [guardStep] using hj)
        history := ⟨trivial, h.history⟩ }, by simp [guardStep, RequestOk], fun j hj => .note ⟨?_, by simp⟩⟩
    simpa using hj.symm
  | trying attempt =>
    by_cases hlt : attempt < 3
    · rw [guardStep, if_pos hlt]
      exact ⟨h, ⟨hlt, le_rfl, hp⟩, fun j _ => hsame j⟩
    · rw [guardStep, if_neg hlt]
      exact ⟨h.answer ((hp (by omega)).answer (by simp)), trivial, hnote _⟩
  | inserting =>
    cases hrow : s.row with
    | some r =>
      simp only [guardStep, hrow]
      exact ⟨h, hp, fun j _ => hsame j⟩
    | none =>
      obtain ⟨hstored, hsucceeded, hpassed⟩ := h.free hrow i
      have hfree : holder s.log = none := by rw [h.holder, hrow]; rfl
      simp only [guardStep, hrow] at hleased ⊢
      refine ⟨⟨rfl, ?_, fun j c b hj => ?_, ?_, fun j hj => ?_, ⟨⟨hfree, hstored⟩, h.history⟩,
        hleased⟩, ⟨⟨⟨_, rfl, rfl, rfl⟩, hpassed.cons (by simp)⟩, by simp [hsucceeded]⟩,
        fun j hj => ⟨le_rfl, ⟨[.ran i], rfl, by simp⟩, ?_⟩⟩
      · rintro r ⟨⟩
        exact ⟨rfl, rfl, rfl⟩
      · exact absurd hj (by simp [hstored])
      · rintro r ⟨⟩ c enc hres
        cases hres
      · exact absurd hj (by simp [hsucceeded])
      · rw [hrow]
        rintro r ⟨⟩
  | selecting attempt now =>
    obtain ⟨row, clock, log⟩ := s
    cases row with
    | none => exact ⟨h, fun _ => (h.free rfl i).2.2, fun j _ => hsame j⟩
    | some r =>
      obtain ⟨a, ha, hok, -⟩ := h.judge (i := i) (r := r) rfl attempt hp.2.1
      simp only [guardStep, ha, arriveAt]
      exact ⟨h.answer hok, trivial, hnote _⟩
  | removing => exact hp.elim
  | running | replying | answered => exact ⟨h, hp, fun j _ => hsame j⟩

theorem handlerStep_ok (h : KeyOk keyring q s) (hp : RequestOk i s .running) {reply : Reply}
    (hpayload : reply.ok = true → reply.payload.isSome = true) :
    KeyOk keyring q (handlerStep reply i s).1 ∧
      RequestOk i (handlerStep reply i s).1 (handlerStep reply i s).2 ∧
      ∀ j, j ≠ i → Later j s (handlerStep reply i s).1 := by
  obtain ⟨⟨⟨r, hr, hid, hres⟩, hpassed⟩, hfirst⟩ := hp
  cases hok : reply.ok with
  | false =>
    simp only [handlerStep, hok, if_neg Bool.false_ne_true]
    exact ⟨h, ⟨⟨⟨r, hr, hid, hres⟩, hpassed⟩, fun _ => hfirst, by simp [hok]⟩,
      fun j _ => ⟨le_rfl, ⟨[], rfl, by simp⟩, fun _ hr _ => hr⟩⟩
  | true =>
    -- only the owner of the row can have succeeded
    have hnone : ∀ j, .succeeded j ∉ s.log := by
      intro j hj
      obtain ⟨r', hr', hid'⟩ := h.succeeded j hj
      obtain rfl : r' = r := mem_unique hr' hr
      exact hfirst (by rwa [← hid, hid'])
    simp only [handlerStep, hok, if_true]
    refine ⟨{ h with
        stored := fun j c b hj => h.stored j c b (by simpa using hj)
        succeeded := fun j hj => ?_
        history := ⟨hnone, h.history⟩ },
      ⟨⟨⟨r, hr, hid, hres⟩, hpassed.cons (by simp)⟩, by simp [hok],
        fun _ => ⟨hpayload hok, List.mem_cons_self⟩⟩,
      fun j hj => .note ⟨by simp, by simpa using hj.symm⟩⟩
    obtain rfl : j = i := by simpa [hnone] using hj
    exact ⟨r, hr, hid⟩

theorem recordStep_ok (h : KeyOk keyring q s) {reply : Reply}
    (hp : RequestOk i s (.replying reply))
    (hleased : WithinLease (recordStep keyring reply i s).1) :
    KeyOk keyring q (recordStep keyring reply i s).1 ∧
      RequestOk i (recordStep keyring reply i s).1 (recordStep keyring reply i s).2 ∧
      ∀ j, j ≠ i → Later j s (recordStep keyring reply i s).1 := by
  obtain ⟨⟨⟨r, hr, rfl, hres⟩, hpassed⟩, hfirst, hdone⟩ := hp
  obtain ⟨row, clock, log⟩ := s
  obtain rfl : row = some r := hr
  -- nothing is stored while the owner's result is not recorded
  have hstored : ∀ j c b, .stored j c b ∉ log := by
    intro j c b hj
    obtain ⟨r', hr', -, hres'⟩ := h.stored j c b hj
    cases hr'
    rw [hres] at hres'
    cases hres'
  cases hok : reply.ok with
  | false =>
    have hno : ∀ j, .succeeded j ∉ log := by
      intro j hj
      obtain ⟨r', hr', hid⟩ := h.succeeded j hj
      cases hr'
      exact hfirst hok (hid ▸ hj)
    have hstep : recordStep keyring reply r.id ⟨some r, clock, log⟩ =
        (⟨none, clock, .answered r.id (.own reply) :: .released r.id :: log⟩,
          .answered (.own reply)) := by
      simp [recordStep, hok, arriveAt]
    rw [hstep] at hleased ⊢
    refine ⟨⟨rfl, by simp, fun j c b hj => ?_, by simp, fun j hj => ?_,
      ⟨(hpassed.cons (by simp)).answer (by simp [hok]), ⟨h.holder, hno _⟩, h.history⟩, hleased⟩,
      trivial, fun j hj => ⟨le_rfl, ⟨[_, _], rfl, by simp⟩, ?_⟩⟩
    · exact absurd hj (by simp [hstored])
    · exact absurd hj (by simp [hno])
    · rintro r' ⟨⟩ hid
      exact absurd hid.symm hj
  | true =>
    obtain ⟨hpayload, hsucceeded⟩ := hdone hok
    obtain ⟨body, hbody⟩ := isSome_iff_exists.1 hpayload
    have hown : ∀ own, IdempotencyAnswer.own reply = .own own → own.ok = true →
        ∃ body' ∈ own.payload, .stored r.id own.statusCode body' ∈
          (.stored r.id reply.statusCode body :: log : List (IdempotencyEvent ι)) := by
      rintro _ ⟨⟩ -
      exact ⟨body, hbody, List.mem_cons_self⟩
    have hstep : recordStep keyring reply r.id ⟨some r, clock, log⟩ =
        (⟨some { r with response := some (reply.statusCode, keyring.encrypt body r.id) }, clock,
          .answered r.id (.own reply) :: .stored r.id reply.statusCode body :: log⟩,
          .answered (.own reply)) := by
      simp [recordStep, hok, hbody, arriveAt]
    rw [hstep] at hleased ⊢
    refine ⟨⟨h.holder, ?_, fun j c b hj => ?_, ?_, fun j hj => ?_,
      ⟨(hpassed.cons (by simp)).answer hown, ⟨h.holder, hsucceeded, hstored⟩, h.history⟩, hleased⟩,
      trivial,
      fun j hj => ⟨le_rfl, ⟨[_, _], rfl, by simp⟩, ?_⟩⟩
    · rintro r' ⟨⟩
      exact h.request r rfl
    · obtain ⟨rfl, rfl, rfl⟩ : j = r.id ∧ c = reply.statusCode ∧ b = body := by
        simpa [hstored] using hj
      exact ⟨_, rfl, rfl, rfl⟩
    · rintro r' ⟨⟩ c enc hcenc
      simp only [some.injEq, Prod.mk.injEq] at hcenc
      exact ⟨body, hcenc.2.symm⟩
    · obtain ⟨r', hr', hid⟩ := h.succeeded j (by simpa using hj)
      cases hr'
      exact ⟨_, rfl, hid⟩
    · rintro r' ⟨⟩ hid
      exact absurd hid.symm hj

/-! ## Every run -/

theorem outline (keyring : Keyring) (q : ι → IdempotentRequest) {s : IdempotencyState ι}
    (h : (leasedMachine keyring q).Reachable s) :
    Processes.Outline (KeyOk keyring q) RequestOk s := by
  refine h.invariant (I := Processes.Outline (KeyOk keyring q) RequestOk) ?_ ?_
  · rintro ⟨⟨row, clock, log⟩, loc⟩ ⟨rfl, rfl, hidle⟩
    refine ⟨⟨rfl, by simp, by simp, by simp, by simp, trivial, by simp [WithinLease]⟩, fun i => ?_⟩
    rw [hidle i]
    exact List.not_mem_nil
  · rintro s x - ⟨henabled, hleased, hguard⟩ hs
    cases x with
    | guard i =>
      obtain ⟨hshared, hown, hothers⟩ := guardStep_ok hs.shared (hs.loc i) hleased
      exact hs.move hshared hown fun j _ hj hq => hq.later (hothers j hj)
    | handler i reply =>
      have hrun := hs.loc i
      rw [henabled] at hrun
      obtain ⟨hshared, hown, hothers⟩ := handlerStep_ok hs.shared hrun hguard
      exact hs.move hshared hown fun j _ hj hq => hq.later (hothers j hj)
    | record i recorded =>
      obtain ⟨reply, hreply⟩ := henabled
      obtain rfl : recorded = true := hguard
      have hrun := hs.loc i
      rw [hreply] at hrun
      have hstep : idempotencyStep keyring q (.record i true) s =
          s.move i (recordStep keyring reply i s.shared) := by
        simp [idempotencyStep, hreply]
      change Processes.Outline _ _ (idempotencyStep keyring q (.record i true) s)
      rw [hstep] at hleased ⊢
      obtain ⟨hshared, hown, hothers⟩ := recordStep_ok hs.shared hrun hleased
      exact hs.move hshared hown fun j _ hj hq => hq.later (hothers j hj)
    | purge =>
      -- no row is as old as the retention time
      have hkeep : purgeIdempotencyKeys s.shared = s.shared := by
        have hrow : s.shared.row.filter
            (fun r => ¬r.createdAt ≤ s.shared.clock - IDEMPOTENCY_TTL_MS) = s.shared.row := by
          cases hrow : s.shared.row with
          | none => rfl
          | some r =>
            have := (hs.shared.leased r hrow).1
            rw [filter_some, if_pos]
            simp only [decide_not, Bool.not_eq_true', decide_eq_false_iff_not]
            omega
        rw [purgeIdempotencyKeys, hrow]
      change Processes.Outline _ _ (s.setShared (purgeIdempotencyKeys s.shared))
      rw [hkeep]
      exact hs
    | tick ms =>
      refine hs.setShared ⟨hs.shared.holder, hs.shared.request, hs.shared.stored, hs.shared.sealed,
        hs.shared.succeeded, hs.shared.history, hleased⟩ fun j p hp => hp.later ?_
      exact ⟨by simp, ⟨[], rfl, by simp⟩, fun _ hr _ => hr⟩

/-- How many statements of its guard a request may still need. -/
def stepsLeft : RequestStep ι → Nat
  | .idle => 14
  | .trying attempt => 4 * (3 - attempt) + 1
  | .inserting attempt _ => 4 * (3 - attempt)
  | .selecting attempt _ => 4 * (3 - attempt) - 1
  | .removing attempt _ => 4 * (3 - attempt) - 2
  | .running | .replying _ | .answered _ => 0

theorem guardStep_progress (h : KeyOk keyring q s) (hp : RequestOk i s p)
    (hleft : 0 < stepsLeft p) :
    stepsLeft (guardStep keyring (q i) i s p).2 < stepsLeft p := by
  cases p with
  | idle => simp [guardStep, stepsLeft]
  | trying attempt =>
    by_cases hlt : attempt < 3
    · simp [guardStep, stepsLeft, hlt]
    · simp [guardStep, stepsLeft, hlt, arriveAt]
  | inserting attempt now =>
    have hlt : attempt < 3 := hp.1
    cases hrow : s.row <;> simp only [guardStep, hrow, stepsLeft] <;> omega
  | selecting attempt now =>
    have hlt : attempt < 3 := hp.1
    obtain ⟨row, clock, log⟩ := s
    cases row with
    | none => simp only [guardStep, stepsLeft]; omega
    | some r =>
      obtain ⟨a, ha, -, -⟩ := h.judge (i := i) (r := r) rfl attempt hp.2.1
      simp only [guardStep, ha, arriveAt, stepsLeft]
      omega
  | removing => exact hp.elim
  | running | replying | answered => simp [stepsLeft] at hleft

end Idempotency

open Idempotency in
/-- **At most one success per key.**  In every interleaving of requests with one key whose handlers
keep to the lease and whose results are recorded, within the retention time: the history is that of
a cell written once, every guard comes to an end, a request that inserts while the key is free runs
its handler, a failed one leaves the key free, and a successful one leaves exactly its response in
its row, where it stays; whoever reads the row then, with the same hash, is answered with it. -/
theorem idempotencyKey_once {ι : Type} [DecidableEq ι] (keyring : Keyring)
    (q : ι → IdempotentRequest) {s : IdempotencyState ι}
    (h : (leasedMachine keyring q).Reachable s) :
    HistoryOk q s.shared.log ∧
    (∀ i, 0 < stepsLeft (s.loc i) →
      stepsLeft ((idempotencyStep keyring q (.guard i) s).loc i) < stepsLeft (s.loc i)) ∧
    (∀ i attempt now, s.loc i = .inserting attempt now → holder s.shared.log = none →
      (idempotencyStep keyring q (.guard i) s).loc i = .running) ∧
    (∀ i reply, s.loc i = .replying reply → reply.ok = false →
      holder (idempotencyStep keyring q (.record i true) s).shared.log = none) ∧
    (∀ i reply, s.loc i = .replying reply → reply.ok = true → ∃ row body,
      s.shared.row = some row ∧ row.id = i ∧ reply.payload = some body ∧
      (idempotencyStep keyring q (.record i true) s).shared.row =
        some { row with response := some (reply.statusCode, keyring.encrypt body i) } ∧
      .stored i reply.statusCode body ∈ (idempotencyStep keyring q (.record i true) s).shared.log) ∧
    (∀ j c b, .stored j c b ∈ s.shared.log →
      ∃ row ∈ s.shared.row, row.id = j ∧ row.response = some (c, keyring.encrypt b j)) ∧
    ∀ i attempt now j c b, s.loc i = .selecting attempt now → .stored j c b ∈ s.shared.log →
      (q i).hash = (q j).hash →
      (idempotencyStep keyring q (.guard i) s).loc i = .answered (.replayed c b) := by
  have hs := outline keyring q h
  refine ⟨hs.shared.history, fun i hleft => ?_, fun i attempt now hi hfree => ?_,
    fun i reply hi hfail => ?_, fun i reply hi hok => ?_, hs.shared.stored,
    fun i attempt now j c b hi hj hsame => ?_⟩
  · simpa [idempotencyStep] using guardStep_progress hs.shared (hs.loc i) hleft
  · have hrow : s.shared.row = none := by
      have := hs.shared.holder
      rw [hfree] at this
      exact map_eq_none_iff.1 this.symm
    simp [idempotencyStep, hi, guardStep, hrow]
  · simp [idempotencyStep, hi, recordStep, hfail, arriveAt, holder]
  · have hown := hs.loc i
    rw [hi] at hown
    obtain ⟨⟨⟨row, hrow, hid, -⟩, -⟩, -, hdone⟩ := hown
    obtain ⟨body, hbody⟩ := isSome_iff_exists.1 (hdone hok).1
    refine ⟨row, body, hrow, hid, hbody, ?_, ?_⟩ <;>
      simp [idempotencyStep, hi, recordStep, hok, hbody, arriveAt, mem_def.1 hrow, hid]
  · obtain ⟨row, hrow, -⟩ := hs.shared.stored j c b hj
    have hloc := hs.loc i
    rw [hi] at hloc
    obtain ⟨a, ha, -, hreplayed⟩ := hs.shared.judge (i := i) hrow attempt hloc.2.1
    obtain rfl := hreplayed j c b hj hsame
    simp [idempotencyStep, hi, guardStep, mem_def.1 hrow, ha, arriveAt]

/-- Two equal requests and a different one. -/
def threeRequests : Fin 3 → IdempotentRequest
  | 0 | 1 => ⟨"POST", "/api/v1/sessions", 7⟩
  | 2 => ⟨"POST", "/api/v1/sessions", 8⟩

/-- The first fails and releases the key; the second runs again and is stored; the third is
refused. -/
def threeRuns : List (IdempotencyInput (Fin 3)) :=
  [.guard 0, .guard 0, .guard 1, .guard 0, .guard 1, .tick 500, .handler 0 ⟨503, none⟩,
    .record 0 true, .guard 1, .handler 1 ⟨201, some "created"⟩, .record 1 true,
    .guard 2, .guard 2, .guard 2, .guard 2]

def threeStart : IdempotencyState (Fin 3) := ⟨{ clock := 0 }, fun _ => .idle⟩

open Idempotency in
theorem idempotencyKey_once_threeRuns :
    HistoryOk threeRequests
      ((leasedMachine ⟨⟨1⟩, []⟩ threeRequests).run threeStart threeRuns).shared.log := by
  have hinit : (leasedMachine ⟨⟨1⟩, []⟩ threeRequests).init threeStart := ⟨rfl, rfl, fun _ => rfl⟩
  exact (idempotencyKey_once _ threeRequests
    ((Machine.Reachable.init hinit).run (by decide : Machine.Admits _ _ threeRuns))).1

end SmartProctoring
