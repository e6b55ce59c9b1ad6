import Mathlib.Algebra.BigOperators.Group.List.Basic
import Mathlib.Algebra.GroupWithZero.Nat
import Mathlib.Data.List.Sort
import SmartProctoring.Lib.Passage
import SmartProctoring.Lib.Run
import SmartProctoring.Shared.Policy

/-!
# The recording queue

`RecordingQueue` of `monitoring/recordingQueue.ts`: finished segments of the exam recording are
stored on the device and uploaded oldest first, one at a time; above `maxBytes` the oldest ones are
dropped and reported.  The calls of `put`, the upload loop and `discardAll` run concurrently; what
one of them does between two awaits is one step.  Transactions of the store take effect in the order
in which they are begun, so an access counts from then on; a segment is in the store when `put` goes
on.

Timers and back-off only say when the upload loop is run again; here it may be run at any time.
What happened to each segment is logged, and so are the sizes of the queue at which a segment was
dropped for space and the uploads of segments that an earlier `discardAll` should have deleted.
-/

set_option autoImplicit false

namespace SmartProctoring

structure QueuedSegment where
  id : Nat
  stream : RecordingStream
  seq : Nat
  startedAt : Nat
  bytes : Nat
  deriving DecidableEq

inductive DropReason
  | deviceStorageFull | refused | missing
  deriving DecidableEq

/-- Oldest first by start time; a stream's own order by sequence number. -/
def QueuedSegment.order (a b : QueuedSegment) : Prop :=
  a.startedAt < b.startedAt ∨ a.startedAt = b.startedAt ∧ (a.seq < b.seq ∨ a.seq = b.seq ∧
    (a.stream = b.stream ∨ a.stream = .camera))

instance QueuedSegment.decidableOrder (a b : QueuedSegment) : Decidable (a.order b) := by
  unfold QueuedSegment.order
  infer_instance

/-- The size of a queue. -/
def queueBytes (index : List QueuedSegment) : Nat := (index.map fun s => s.bytes).sum

/-! ## Upload errors -/

inductive ApiErrorKind
  | network | invalidLink | superseded | notVerified | invalidState | rateLimited | server | client
  deriving DecidableEq

/-- What an upload was rejected with, if the server answered. -/
structure CandidateApiError where
  status : Nat
  code : String

def INVALID_LINK_CODES : List String :=
  ["invalid_token", "unauthorized", "invalid_link", "link_invalid", "link_expired", "link_revoked",
    "token_invalid",
    "token_expired", "session_not_found"]

def NOT_VERIFIED_CODES : List String :=
  ["not_verified", "instance_not_verified", "check_required", "unverified_instance"]

def classifyApiError (err : Option CandidateApiError) : ApiErrorKind :=
  match err with
  | none => .network
  | some e =>
    if e.status = 0 then .network
    else if e.code = "superseded" then .superseded
    else if e.code ∈ NOT_VERIFIED_CODES then .notVerified
    else if e.status = 401 ∨ e.code ∈ INVALID_LINK_CODES then .invalidLink
    else if e.code = "invalid_state" ∨ e.status = 423 then .invalidState
    else if e.status = 409 then .invalidState
    else if e.status = 429 then .rateLimited
    else if e.status = 408 ∨ 500 ≤ e.status then .server
    else .client

inductive Refusal
  | retry | wait | limit | drop | fatal
  deriving DecidableEq

/-- What a failed upload means. -/
def RecordingQueue.refusal (err : Option CandidateApiError) : Refusal :=
  let kind := classifyApiError err
  if kind = .invalidLink ∨ kind = .superseded then .fatal
  else if kind = .notVerified then .wait
  else if err.map (fun e => e.code) = some "recording_limit" then .limit
  else if kind = .client ∨ kind = .invalidState then .drop
  else .retry

/-! ## The queue -/

/-- Where a call of `put` waits: for the store, or for the removal of a segment it drops. -/
inductive PutPhase
  | storing
  | dropping (oldest : QueuedSegment) (total : Int)
  | done
  deriving DecidableEq

/-- `discards` counts the calls of `discardAll` before this one of `put`. -/
structure PutCall where
  seg : QueuedSegment
  discards : Nat
  phase : PutPhase

/-- Where the upload loop waits. -/
inductive DrainPhase
  | reading (seg : QueuedSegment) (found : Bool)
  | sending (seg : QueuedSegment)
  | removing
  | dropping (seg : QueuedSegment) (reason : DropReason)

/-- A call of `discardAll` waits for a removal, and `rest` is still to be removed. -/
inductive DiscardCall
  | removing (rest : List QueuedSegment)
  | returned
  deriving DecidableEq

inductive SegmentPlace
  | storing | queued | dropping (reason : DropReason)
  deriving DecidableEq

inductive SegmentExit
  | accepted | reported (reason : DropReason) | discarded
  deriving DecidableEq

structure RecordingQueue where
  maxBytes : Nat
  index : List QueuedSegment
  /-- The segments whose records are in the store, and those whose data are. -/
  segments : List Nat
  blobs : List Nat
  running : Bool
  /-- The upload loop. -/
  task : Option DrainPhase
  puts : List PutCall
  discards : List DiscardCall
  /-- How many calls of `discardAll` there were before the segment was handed over. -/
  handedAt : Nat → Nat
  log : List (Nat × Passage SegmentPlace SegmentExit)
  spaceDrops : List Nat
  lateUploads : List Nat

namespace RecordingQueue

def note (id : Nat) (e : Passage SegmentPlace SegmentExit) (q : RecordingQueue) : RecordingQueue :=
  { q with log := q.log ++ [(id, e)] }

/-- A segment leaves the index and the store. -/
def remove (id : Nat) (q : RecordingQueue) : RecordingQueue :=
  { q with
    index := q.index.filter fun s => s.id ≠ id
    segments := q.segments.filter fun i => i ≠ id
    blobs := q.blobs.filter fun i => i ≠ id }

/-- The first half of `drop`, until the removal is awaited. -/
def beginDrop (seg : QueuedSegment) (reason : DropReason) (q : RecordingQueue) : RecordingQueue :=
  (q.remove seg.id).note seg.id (.moved (.dropping reason))

/-- The second half: the segment is reported. -/
def onDropped (seg : QueuedSegment) (reason : DropReason) (q : RecordingQueue) : RecordingQueue :=
  q.note seg.id (.left (.reported reason))

/-- A `discardAll` called after the segment was handed over has returned. -/
def late (seg : QueuedSegment) (q : RecordingQueue) : Bool :=
  (q.discards.drop (q.handedAt seg.id)).any fun d => d = .returned

/-- The upload of a segment begins, or is accepted. -/
def noteUpload (seg : QueuedSegment) (q : RecordingQueue) : RecordingQueue :=
  if q.late seg then { q with lateUploads := q.lateUploads ++ [seg.id] } else q

/-! ### Putting -/

/-- The loop of `enforceLimit` of the `k`-th call of `put`, with the total that it remembers. -/
def enforceLimit (k : Nat) (p : PutCall) (total : Int) (q : RecordingQueue) : RecordingQueue :=
  match q.index with
  | oldest :: _ :: _ =>
    if (q.maxBytes : Int) < total then
      { q.beginDrop oldest .deviceStorageFull with
        puts := q.puts.set k { p with phase := .dropping oldest total }
        spaceDrops := q.spaceDrops ++ [queueBytes q.index] }
    else { q with puts := q.puts.set k { p with phase := .done } }
  | _ => { q with puts := q.puts.set k { p with phase := .done } }

/-- A segment joins the queue. -/
def push (seg : QueuedSegment) (q : RecordingQueue) : RecordingQueue :=
  { q with
    index := (q.index ++ [seg]).insertionSort QueuedSegment.order
    segments := q.segments ++ [seg.id]
    blobs := q.blobs ++ [seg.id]
    log := q.log ++ [(seg.id, .moved .queued)] }

/-- The store has taken the segment, or has not. -/
def stored (k : Nat) (p : PutCall) (ok : Bool) (q : RecordingQueue) : RecordingQueue :=
  if ok then (q.push p.seg).enforceLimit k p (queueBytes (q.push p.seg).index)
  else { q.onDropped p.seg .deviceStorageFull with puts := q.puts.set k { p with phase := .done } }

/-- The segment that a call of `put` drops has been removed. -/
def dropped (k : Nat) (p : PutCall) (oldest : QueuedSegment) (total : Int) (q : RecordingQueue) :
    RecordingQueue :=
  (q.onDropped oldest .deviceStorageFull).enforceLimit k p (total - oldest.bytes)

/-! ### Uploading -/

/-- The head of the upload loop; `gate` says whether this page may deliver now. -/
def drain (gate : Bool) (q : RecordingQueue) : RecordingQueue :=
  if ¬ q.running then { q with task := none }
  else
    match q.index with
    | [] => { q with task := none }
    | seg :: _ => if gate then { q with task := some (.reading seg (decide (seg.id ∈ q.blobs))) }
        else { q with task := none }

/-- The data of the segment have been read. -/
def read (seg : QueuedSegment) (found : Bool) (q : RecordingQueue) : RecordingQueue :=
  if found then { q.noteUpload seg with task := some (.sending seg) }
  else { q.beginDrop seg .missing with task := some (.dropping seg .missing) }

/-- The sender is done. -/
def sent (seg : QueuedSegment) (r : Except (Option CandidateApiError) Unit) (q : RecordingQueue) :
    RecordingQueue :=
  match r with
  | .ok _ =>
    { ((q.noteUpload seg).remove seg.id).note seg.id (.left .accepted) with task := some .removing }
  | .error err =>
    match refusal err with
    | .fatal => { q with running := false, task := none }
    | .drop => { q.beginDrop seg .refused with task := some (.dropping seg .refused) }
    | .limit => { q.beginDrop seg .refused with task := some (.dropping seg .refused) }
    | .wait => { q with task := none }
    | .retry => { q with task := none }

/-! ### Discarding -/

/-- The next removal of a `discardAll`, or its end. -/
def discardNext (j : Nat) (rest : List QueuedSegment) (q : RecordingQueue) : RecordingQueue :=
  match rest with
  | [] => { q with discards := q.discards.set j .returned }
  | s :: rest =>
    let q := if s.id ∈ q.index.map (fun s => s.id) then q.note s.id (.left .discarded) else q
    { q.remove s.id with discards := q.discards.set j (.removing rest) }

/-- `discardAll` takes the segments that are queued now. -/
def discardAll (q : RecordingQueue) : RecordingQueue :=
  { q with discards := q.discards ++ [DiscardCall.removing q.index] }.discardNext
    q.discards.length q.index

end RecordingQueue

/-! ## Runs -/

inductive RecordingInput
  | put (seg : QueuedSegment)
  | stored (k : Nat) (ok : Bool)
  | dropped (k : Nat)
  /-- The upload loop is run. -/
  | run (gate : Bool)
  | read
  | sent (r : Except (Option CandidateApiError) Unit)
  /-- A removal of the upload loop is done; `gate` is asked again. -/
  | removed (gate : Bool)
  | discardAll
  | discarded (j : Nat)
  | start
  | stop

def RecordingInput.step (i : RecordingInput) (q : RecordingQueue) : RecordingQueue :=
  match i with
  | .put seg =>
    { q.note seg.id (.entered .storing) with
      puts := q.puts ++ [⟨seg, q.discards.length, .storing⟩]
      handedAt := Function.update q.handedAt seg.id q.discards.length }
  | .stored k ok =>
    match q.puts[k]? with
    | some p => if p.phase = .storing then q.stored k p ok else q
    | none => q
  | .dropped k =>
    match q.puts[k]? with
    | some p =>
      match p.phase with
      | .storing => q
      | .dropping oldest total => q.dropped k p oldest total
      | .done => q
    | none => q
  | .run gate => if q.task = none then q.drain gate else q
  | .read =>
    match q.task with
    | some (.reading seg found) => q.read seg found
    | _ => q
  | .sent r =>
    match q.task with
    | some (.sending seg) => q.sent seg r
    | _ => q
  | .removed gate =>
    match q.task with
    | some .removing => q.drain gate
    | some (.dropping seg reason) => (q.onDropped seg reason).drain gate
    | _ => q
  | .discardAll => q.discardAll
  | .discarded j =>
    match q.discards[j]? with
    | some (.removing rest) => q.discardNext j rest
    | _ => q
  | .start => { q with running := true }
  | .stop => { q with running := false }

/-- A segment that is handed over has an id of its own. -/
def RecordingInput.enabled (i : RecordingInput) (q : RecordingQueue) : Prop :=
  match i with
  | .put seg => passages q.log seg.id = []
  | _ => True

/-- A queue as it is opened: what a page before this one has stored. -/
def RecordingQueue.open (maxBytes : Nat) (stored : List QueuedSegment) (blobs : List Nat) :
    RecordingQueue where
  maxBytes := maxBytes
  index := stored.insertionSort QueuedSegment.order
  segments := stored.map fun s => s.id
  blobs := blobs
  running := false
  task := none
  puts := []
  discards := []
  handedAt := fun _ => 0
  log := stored.map fun s => (s.id, .entered .queued)
  spaceDrops := []
  lateUploads := []

instance RecordingInput.decidableEnabled (i : RecordingInput) (q : RecordingQueue) :
    Decidable (i.enabled q) := by
  unfold RecordingInput.enabled
  split <;> infer_instance

/-- The store has one record for an id. -/
def recordingMachine : Machine RecordingQueue RecordingInput where
  init q := ∃ maxBytes stored blobs, (stored.map fun s => s.id).Nodup ∧
    q = .open maxBytes stored blobs
  step := RecordingInput.step
  enabled := RecordingInput.enabled

theorem RecordingQueue.open_init (maxBytes : Nat) : recordingMachine.init (.open maxBytes [] []) :=
  ⟨maxBytes, [], [], List.nodup_nil, rfl⟩

instance recordingMachine.decidableEnabled (i : RecordingInput) (q : RecordingQueue) :
    Decidable (recordingMachine.enabled i q) :=
  inferInstanceAs (Decidable (i.enabled q))

end SmartProctoring
