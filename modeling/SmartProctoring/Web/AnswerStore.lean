import SmartProctoring.Lib.Run
import SmartProctoring.Lib.Slots
import SmartProctoring.Server.Schema

/-!
# The candidate's answers in the browser

`AnswerStore` of `candidate/answers.ts` over the answer mirror of `candidate/outbox.ts`.  Edits are
shown at once, saved when their debounce timer fires, and written to the mirror one after the other;
a restore reads the mirror and merges it with the answers of the server, question by question,
waiting for each of its own writes.  A write takes effect some time after it was handed to the
mirror, which keeps the value with the highest `clientSeq` of a question.

The questions of a restore that need no write are handled one at a time here; the code handles them
together with the next one that needs one.
-/

set_option autoImplicit false

namespace SmartProctoring

/-- A record of the mirror, or a write to it. -/
structure AnswerRecord where
  questionId : Nat
  value : AnswerValue
  clientSeq : Nat
  /-- Not yet delivered to the server. -/
  pending : Bool
  deriving DecidableEq

/-- `CandidateAnswerDTO`. -/
structure ServerAnswer where
  questionId : Nat
  value : AnswerValue
  clientSeq : Nat

abbrev AnswerMirror := Table AnswerRecord.questionId

/-- The update of `putAnswer` and of `rememberDeliveredAnswer`: a lower or equal `clientSeq` is
ignored. -/
def writeAnswer (mirror : AnswerMirror) (w : AnswerRecord) : AnswerMirror :=
  match mirror.find? w.questionId with
  | some cur => if w.clientSeq ≤ cur.clientSeq then mirror else mirror.upsert w
  | none => mirror.upsert w

/-- A save: an edit that was persisted, or an answer that a restore queued again (with the
`clientSeq` it had before). -/
structure AnswerSave where
  questionId : Nat
  clientSeq : Nat
  requeuedFrom : Option Nat

/-- A shown value that a restore changed, and the questions edited since it had read the mirror. -/
structure ShownByRestore where
  questionId : Nat
  editedSince : List Nat

inductive RestorePhase
  /-- `reconcile` waits until as many saves have landed. -/
  | waiting (saves : Nat)
  | reading
  /-- `getAnswers` has read the mirror. -/
  | read
  | merging
  | writing (w : AnswerRecord)
  | finished
  deriving DecidableEq

def RestorePhase.awaited? : RestorePhase → Option Nat
  | .waiting saves => some saves
  | _ => none

structure Restore where
  phase : RestorePhase
  server : List ServerAnswer
  /-- `local`. -/
  mirror : AnswerMirror
  /-- The questions still to be handled, with the server's answers. -/
  items : List (Nat × Option ServerAnswer)
  /-- How many edits there were when the mirror was read. -/
  readAt : Nat
  /-- The questions of which a write was under way then, or was handed to the mirror since. -/
  overtaken : List Nat

/-- The write a restore waits for. -/
def Restore.write? (r : Restore) : Option AnswerRecord :=
  match r.phase with
  | .writing w => some w
  | _ => none

inductive NewerAnswer
  | mine (l : AnswerRecord)
  | theirs (a : ServerAnswer)
  | neither

/-- The higher `clientSeq` wins, and at a tie the server. -/
def newerAnswer : Option AnswerRecord → Option ServerAnswer → NewerAnswer
  | some l, some a => if a.clientSeq < l.clientSeq then .mine l else .theirs a
  | none, some a => .theirs a
  | some l, none => .mine l
  | none, none => .neither

structure AnswerStore where
  values : Nat → Option AnswerValue
  timers : List Nat
  dirty : Table (Prod.fst : Nat × AnswerValue → Nat)
  seq : Nat
  /-- The saves on their way to the mirror, in order (`writes`), and how many have landed. -/
  writes : List AnswerRecord
  landed : Nat
  restores : List Restore
  mirror : AnswerMirror
  /-- The questions edited in this page, an entry for each edit. -/
  edits : List Nat
  saves : List AnswerSave
  shown : List ShownByRestore

namespace AnswerStore

def load (mirror : AnswerMirror) : AnswerStore where
  values := fun _ => none
  timers := []
  dirty := .empty
  seq := 0
  writes := []
  landed := 0
  restores := []
  mirror := mirror
  edits := []
  saves := []
  shown := []

/-- A write is handed to the mirror. -/
def overtake (s : AnswerStore) (questionId : Nat) : AnswerStore :=
  { s with restores := s.restores.map fun r => { r with overtaken := questionId :: r.overtaken } }

/-- Update an answer; persistence is debounced. -/
def set (questionId : Nat) (value : AnswerValue) (s : AnswerStore) : AnswerStore :=
  { s with
    values := Function.update s.values questionId (some value)
    dirty := s.dirty.upsert (questionId, value)
    timers := s.timers.insert questionId
    edits := s.edits ++ [questionId] }

def persist (questionId : Nat) (s : AnswerStore) : AnswerStore :=
  match s.dirty.find? questionId with
  | none => s
  | some d =>
    { s.overtake questionId with
      dirty := s.dirty.erase questionId
      seq := s.seq + 1
      writes := s.writes ++ [⟨questionId, d.2, s.seq + 1, true⟩]
      saves := s.saves ++ [⟨questionId, s.seq + 1, none⟩] }

/-- The debounce timer of a question fires. -/
def fire (questionId : Nat) (s : AnswerStore) : AnswerStore :=
  persist questionId { s with timers := s.timers.erase questionId }

/-- Persist all debounced edits immediately. -/
def flushPending (s : AnswerStore) : AnswerStore :=
  (s.dirty.rows.map (·.1)).foldl (fun s q => s.persist q) { s with timers := [] }

/-- The first save of the chain takes effect. -/
def land (s : AnswerStore) : AnswerStore :=
  match s.writes with
  | [] => s
  | w :: writes => { s with writes := writes, landed := s.landed + 1, mirror := writeAnswer s.mirror w }

/-- The outbox has delivered the answer of a question. -/
def settle (questionId : Nat) (s : AnswerStore) : AnswerStore :=
  { s with
    mirror := s.mirror.modify (fun r => r.questionId = questionId) (fun r => { r with pending := false })
      fun _ => rfl }

/-! ## Restoring -/

def newRestore (phase : RestorePhase) (server : List ServerAnswer) : Restore where
  phase := phase
  server := server
  mirror := .empty
  items := []
  readAt := 0
  overtaken := []

def restore (server : List ServerAnswer) (s : AnswerStore) : AnswerStore :=
  { s with restores := s.restores ++ [newRestore .reading server] }

def reconcile (server : List ServerAnswer) (s : AnswerStore) : AnswerStore :=
  { s with restores := s.restores ++ [newRestore (.waiting (s.landed + s.writes.length)) server] }

/-- All writes that were handed to the mirror and have not taken effect. -/
def onTheWay (s : AnswerStore) : List AnswerRecord := s.writes ++ s.restores.filterMap (·.write?)

def setRestore (k : Nat) (r : Restore) (s : AnswerStore) : AnswerStore :=
  { s with restores := s.restores.set k r }

/-- `show`: an edit that is still debounced is not overwritten. -/
def showAnswer (readAt : Nat) (questionId : Nat) (value : AnswerValue) (s : AnswerStore) :
    AnswerStore :=
  if (s.dirty.find? questionId).isSome ∨ s.values questionId = some value then s
  else
    { s with
      values := Function.update s.values questionId (some value)
      shown := s.shown ++ [⟨questionId, s.edits.drop readAt⟩] }

/-- The `k`-th restore hands a write to the mirror and waits for it. -/
def handWrite (k : Nat) (r : Restore) (w : AnswerRecord) (s : AnswerStore) : AnswerStore :=
  (s.overtake w.questionId).setRestore k
    { r with phase := .writing w, overtaken := w.questionId :: r.overtaken }

/-- A question of the merge: the answer of the mirror is newer (or the server has none), or the
server's wins. -/
def mergeAnswer (k : Nat) (r : Restore) (questionId : Nat) (server : Option ServerAnswer)
    (s : AnswerStore) : AnswerStore :=
  match newerAnswer (r.mirror.find? questionId) server with
  | .mine l =>
    let s := s.showAnswer r.readAt questionId l.value
    if l.pending then s.setRestore k r
    else
      handWrite k r ⟨questionId, l.value, s.seq + 1, true⟩
        { s with seq := s.seq + 1, saves := s.saves ++ [⟨questionId, s.seq + 1, some l.clientSeq⟩] }
  | .theirs a =>
    handWrite k r ⟨questionId, a.value, a.clientSeq, false⟩ (s.showAnswer r.readAt questionId a.value)
  | .neither => s.setRestore k r

/-- The highest `clientSeq` known here, in the mirror and on the server. -/
def maxSeq (seq : Nat) (mirror : List AnswerRecord) (server : List ServerAnswer) : Nat :=
  (server.map (·.clientSeq)).foldl max ((mirror.map (·.clientSeq)).foldl max seq)

/-- The server's answers in order, and then those that only the mirror has. -/
def restoreItems (mirror : List AnswerRecord) (server : List ServerAnswer) :
    List (Nat × Option ServerAnswer) :=
  server.map (fun a => (a.questionId, some a)) ++
    (mirror.filter fun l => l.questionId ∉ server.map (·.questionId)).map fun l => (l.questionId, none)

/-- The next step of the `k`-th restore. -/
def advance (k : Nat) (s : AnswerStore) : AnswerStore :=
  match s.restores[k]? with
  | none => s
  | some r =>
    match r.phase with
    | .waiting _ => s.setRestore k { r with phase := .reading }
    | .reading =>
      s.setRestore k
        { r with
          phase := .read
          mirror := s.mirror
          readAt := s.edits.length
          overtaken := s.onTheWay.map (·.questionId) }
    | .read =>
      { s with seq := maxSeq s.seq r.mirror.rows r.server }.setRestore k
        { r with phase := .merging, items := restoreItems r.mirror.rows r.server }
    | .merging =>
      match r.items with
      | [] => s.setRestore k { r with phase := .finished }
      | (questionId, server) :: items => s.mergeAnswer k { r with items := items } questionId server
    | .writing w =>
      { s with mirror := writeAnswer s.mirror w }.setRestore k { r with phase := .merging }
    | .finished => s

end AnswerStore

inductive AnswerInput
  | set (questionId : Nat) (value : AnswerValue)
  | fire (questionId : Nat)
  | flushPending
  | land
  | settle (questionId : Nat)
  | restore (server : List ServerAnswer)
  | reconcile (server : List ServerAnswer)
  | advance (k : Nat)

def AnswerInput.step (i : AnswerInput) (s : AnswerStore) : AnswerStore :=
  match i with
  | .set questionId value => s.set questionId value
  | .fire questionId => s.fire questionId
  | .flushPending => s.flushPending
  | .land => s.land
  | .settle questionId => s.settle questionId
  | .restore server => s.restore server
  | .reconcile server => s.reconcile server
  | .advance k => s.advance k

/-- A timer fires while it is set; `reconcile` goes on when the saves before it have landed. -/
def AnswerInput.enabled (i : AnswerInput) (s : AnswerStore) : Prop :=
  match i with
  | .fire questionId => questionId ∈ s.timers
  | .advance k => ∀ r ∈ s.restores[k]?, ∀ n ∈ r.phase.awaited?, n ≤ s.landed
  | _ => True

/-- The answers of a page, from its loading on; the mirror may hold answers of an earlier page. -/
def answerMachine : Machine AnswerStore AnswerInput where
  init s := ∃ mirror, s = AnswerStore.load mirror
  step := AnswerInput.step
  enabled := AnswerInput.enabled

instance answerMachine.decidableEnabled (i : AnswerInput) (s : AnswerStore) :
    Decidable (answerMachine.enabled i s) := by
  change Decidable (i.enabled s)
  unfold AnswerInput.enabled
  split <;> infer_instance

end SmartProctoring
