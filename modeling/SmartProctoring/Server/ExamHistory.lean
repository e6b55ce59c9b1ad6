import Mathlib.Data.List.Chain
import SmartProctoring.Lib.Run
import SmartProctoring.Server.ExamVersions

/-!
# The version history of an exam

`services/exam-versions.ts` (`recordExamVersion`, `versionForStart`), `routes/admin/exams.ts` and
`services/exams.ts`: staff edit and publish the working copy of an exam, a published exam gets a new
version whenever its content differs from the current one, and an attempt pins a version when it
starts. Every writer holds the exam row lock, so an edit, a publication or a recorded start is one
step; a start that takes no lock reads the current version in one step and pins it in a later one.
-/

set_option autoImplicit false

namespace SmartProctoring

open Json (Value Number canonicalJson)
open List

universe u

inductive ExamVersionReason
  | published | edited | started | migrated
  deriving DecidableEq

/-- A question of the working copy. -/
structure Question where
  id : String
  position : Nat
  type : QuestionType
  prompt : String
  options : List QuestionOption
  correct : List String
  points : Number

/-- An exam row. -/
structure Exam where
  title : String
  description : String
  instructions : String
  durationSec : Number
  policy : List (String × Value)
  status : ExamStatus
  /-- `none` until the exam is first published. -/
  currentVersionId : Option Nat

/-- A row of `exam_versions`, with the hash `H` of its canonical text (`none`: written by the
upgrade migration). -/
structure ExamVersion (H : Type u) where
  id : Nat
  examId : Nat
  number : Nat
  snapshot : ExamSnapshot
  contentHash : Option H
  changes : ExamVersionChangesDTO
  reason : ExamVersionReason

structure ExamDb (H : Type u) where
  exams : Nat → Option Exam
  /-- The working copy of each exam. -/
  questions : Nat → List Question
  versions : List (ExamVersion H)
  /-- `exam_sessions.exam_version_id`, by session. -/
  pins : Nat → Option Nat
  /-- The version a start in progress has read, by session. -/
  starting : Nat → Option Nat

def Question.dto (q : Question) : ExamVersionQuestionDTO where
  id := q.id
  type := q.type
  prompt := q.prompt
  options := q.options
  correct := q.correct
  points := q.points

/-- The snapshot of an exam row and its working-copy questions. -/
def snapshotOf (exam : Exam) (qs : List Question) : ExamSnapshot where
  title := exam.title
  description := exam.description
  instructions := exam.instructions
  durationSec := exam.durationSec
  policy := exam.policy
  questions := (qs.insertionSort fun a b => a.position ≤ b.position).map (·.dto)

variable {H : Type u} (hash : List Char → H)

def snapshotHash (s : ExamSnapshot) : H := hash (canonicalJson s.value)

def loadVersion (db : ExamDb H) (id : Nat) : Option (ExamVersion H) :=
  db.versions.find? fun v => v.id = id

/-- The versions of an exam, oldest first. -/
def ExamDb.versionsOf (db : ExamDb H) (examId : Nat) : List (ExamVersion H) :=
  db.versions.filter fun v => v.examId = examId

/-- `max(number)` of the exam's versions, 0 where there is none. -/
def ExamDb.latest (db : ExamDb H) (examId : Nat) : Nat :=
  ((db.versionsOf examId).map (·.number)).foldl max 0

/-- What `recordExamVersion` returns, with the database it leaves. -/
structure Recorded (H : Type u) where
  db : ExamDb H
  version : ExamVersion H
  created : Bool

/-- The row a new version of the exam gets. -/
def newVersion (db : ExamDb H) (examId : Nat) (current : Option (ExamVersion H))
    (snap : ExamSnapshot) (reason : ExamVersionReason) : ExamVersion H where
  id := db.versions.length
  examId := examId
  number := db.latest examId + 1
  snapshot := snap
  contentHash := some (snapshotHash hash snap)
  changes := diffSnapshots (current.map (·.snapshot)) snap
  reason := reason

/-- A version inserted and made the current one of its exam. -/
def ExamDb.insertVersion (db : ExamDb H) (v : ExamVersion H) : ExamDb H :=
  { db with
    versions := db.versions ++ [v]
    exams := Function.update db.exams v.examId
      ((db.exams v.examId).map fun e => { e with currentVersionId := some v.id }) }

/-- The insert of `recordExamVersion`. -/
def insertRecorded (db : ExamDb H) (examId : Nat) (current : Option (ExamVersion H))
    (snap : ExamSnapshot) (reason : ExamVersionReason) : Recorded H where
  db := db.insertVersion (newVersion hash db examId current snap reason)
  version := newVersion hash db examId current snap reason
  created := true

/-- Write a new version of `exam` from its working copy (`qs`, in the order the database returns it)
when the content differs from the current version, else return the current one. -/
def recordExamVersion (db : ExamDb H) (examId : Nat) (exam : Exam) (qs : List Question)
    (reason : ExamVersionReason) : Recorded H :=
  match exam.currentVersionId.bind (loadVersion db) with
  | some v =>
    if isUnchanged (diffSnapshots (some v.snapshot) (snapshotOf exam qs)) then ⟨db, v, false⟩
    else insertRecorded hash db examId (some v) (snapshotOf exam qs) reason
  | none => insertRecorded hash db examId none (snapshotOf exam qs) reason

/-! ## Edits, publications and starts -/

/-- A question as staff send it. -/
structure QuestionInput where
  id : Option String
  type : QuestionType
  prompt : String
  options : List QuestionOption
  correct : List String
  points : Number

/-- The exam's own fields as staff send them. -/
structure ExamInput where
  title : String
  description : String
  instructions : String
  durationSec : Number
  policy : List (String × Value)

def QuestionInput.row (q : QuestionInput) (id : String) (position : Nat) : Question where
  id := id
  position := position
  type := q.type
  prompt := q.prompt
  options := q.options
  correct := q.correct
  points := q.points

/-- Whether an incoming question keeps the row of its id: it is there, and of the same type. -/
def keeps (existing : List Question) (q : QuestionInput) : Option String :=
  q.id.filter fun id => existing.any fun e => e.id = id ∧ e.type = q.type

/-- Apply a question list to an exam's working copy: a kept question keeps its id, any other gets a
new one (`newId`), positions follow the list, and what is not in the list is deleted. -/
def applyQuestions (existing : List Question) (incoming : List QuestionInput)
    (newId : Nat → String) : List Question :=
  incoming.zipIdx.map fun e => e.1.row ((keeps existing e.1).getD (newId e.2)) e.2

/-- The rows of a new exam (`questionRow`): a given id is used. -/
def createQuestions (incoming : List QuestionInput) (newId : Nat → String) : List Question :=
  incoming.zipIdx.map fun e => e.1.row (e.1.id.getD (newId e.2)) e.2

/-- The primary key of `questions`. -/
def KeysUnique (qs : List Question) : Prop := (qs.map (·.id)).Nodup

def ExamDb.setExam (db : ExamDb H) (examId : Nat) (exam : Exam) : ExamDb H :=
  { db with exams := Function.update db.exams examId (some exam) }

def ExamDb.setQuestions (db : ExamDb H) (examId : Nat) (qs : List Question) : ExamDb H :=
  { db with questions := Function.update db.questions examId qs }

/-- The row of an exam with the fields of an input. -/
def ExamInput.row (input : ExamInput) (status : ExamStatus)
    (currentVersionId : Option Nat) : Exam where
  title := input.title
  description := input.description
  instructions := input.instructions
  durationSec := input.durationSec
  policy := input.policy
  status := status
  currentVersionId := currentVersionId

inductive HistoryInput
  /-- `createExam`: a draft, or published at once. -/
  | create (examId : Nat) (input : ExamInput) (published : Bool) (incoming : List QuestionInput)
      (newId : Nat → String) (rows : List Question)
  /-- `PUT /exams/:id`. -/
  | edit (examId : Nat) (input : ExamInput) (incoming : List QuestionInput) (newId : Nat → String)
      (rows : List Question)
  /-- `POST /exams/:id/publish`. -/
  | publish (examId : Nat) (rows : List Question)
  /-- `POST /exams/:id/archive`. -/
  | archive (examId : Nat)
  /-- `startExam` finds the version of an attempt. -/
  | choose (session examId : Nat) (rows : List Question)
  /-- The start commits. -/
  | pin (session : Nat)

/-- `createExam`. -/
def createExam (db : ExamDb H) (examId : Nat) (input : ExamInput) (published : Bool)
    (incoming : List QuestionInput) (newId : Nat → String) (rows : List Question) : ExamDb H :=
  let exam := input.row (if published then .published else .draft) none
  let db := (db.setExam examId exam).setQuestions examId (createQuestions incoming newId)
  if published then (recordExamVersion hash db examId exam rows .published).db else db

/-- `PUT /exams/:id` on an exam that is not archived. -/
def editExam (db : ExamDb H) (examId : Nat) (cur : Exam) (input : ExamInput)
    (incoming : List QuestionInput) (newId : Nat → String) (rows : List Question) : ExamDb H :=
  let updated := input.row cur.status cur.currentVersionId
  let db := (db.setQuestions examId (applyQuestions (db.questions examId) incoming newId)).setExam
    examId updated
  if cur.status = .published then (recordExamVersion hash db examId updated rows .edited).db else db

/-- `setStatus('published')` on an exam that is not. -/
def publishExam (db : ExamDb H) (examId : Nat) (cur : Exam) (rows : List Question) : ExamDb H :=
  let updated := { cur with status := .published }
  (recordExamVersion hash (db.setExam examId updated) examId updated rows .published).db

/-- The version an attempt starting now is pinned to, with the database `recordExamVersion`
leaves. -/
def versionForStart (db : ExamDb H) (examId : Nat) (exam : Exam) (rows : List Question) :
    Recorded H :=
  match (exam.currentVersionId.filter fun _ => exam.status ≠ .draft).bind (loadVersion db) with
  | some v => ⟨db, v, false⟩
  | none => recordExamVersion hash db examId exam rows .started

/-- What a step does.  A request that is refused (no such exam, an archived exam edited, a status
the exam has already) changes nothing. -/
def historyStep (i : HistoryInput) (db : ExamDb H) : ExamDb H :=
  match i with
  | .create examId input published incoming newId rows =>
    if (db.exams examId).isSome then db else createExam hash db examId input published incoming newId rows
  | .edit examId input incoming newId rows =>
    match db.exams examId with
    | none => db
    | some cur =>
      if cur.status = .archived then db else editExam hash db examId cur input incoming newId rows
  | .publish examId rows =>
    match db.exams examId with
    | none => db
    | some cur => if cur.status = .published then db else publishExam hash db examId cur rows
  | .archive examId =>
    match db.exams examId with
    | none => db
    | some cur => db.setExam examId { cur with status := .archived }
  | .choose session examId rows =>
    match (db.pins session).bind (loadVersion db) with
    | some v => { db with starting := Function.update db.starting session (some v.id) }
    | none =>
      match db.exams examId with
      | none => db
      | some exam =>
        let r := versionForStart hash db examId exam rows
        { r.db with starting := Function.update r.db.starting session (some r.version.id) }
  | .pin session =>
    match db.starting session with
    | none => db
    | some v =>
      { db with
        pins := Function.update db.pins session (some v)
        starting := Function.update db.starting session none }

/-- The database returns the rows of the working copy in any order.  A list that repeats a question
id is refused (`validateQuestions`), and an insert that would repeat one fails. -/
def HistoryInput.enabled (i : HistoryInput) (db : ExamDb H) : Prop :=
  match i with
  | .create _ _ _ incoming newId rows =>
    KeysUnique (createQuestions incoming newId) ∧ rows.Perm (createQuestions incoming newId)
  | .edit examId _ incoming newId rows =>
    KeysUnique (applyQuestions (db.questions examId) incoming newId) ∧
      rows.Perm (applyQuestions (db.questions examId) incoming newId)
  | .publish examId rows => rows.Perm (db.questions examId)
  | .choose _ examId rows => rows.Perm (db.questions examId)
  | .archive _ | .pin _ => True

/-! ## The working copy -/

/-- Ids and positions of the working copy are unique. -/
structure Working (qs : List Question) : Prop where
  keys : KeysUnique qs
  positions : (qs.map (·.position)).Nodup

variable {qs rows : List Question}

theorem snapshotOf_perm (exam : Exam) (h : Working qs) (hp : rows.Perm qs) :
    snapshotOf exam rows = snapshotOf exam qs := by
  have hsort : rows.insertionSort (fun a b => a.position ≤ b.position) =
      qs.insertionSort (fun a b => a.position ≤ b.position) := by
    have hperm := ((perm_insertionSort (fun a b : Question => a.position ≤ b.position) rows).trans hp).trans
      (perm_insertionSort (fun a b : Question => a.position ≤ b.position) qs).symm
    refine List.Perm.eq_of_pairwise (fun a b ha hb hab hba => ?_) (pairwise_insertionSort _ rows)
      (pairwise_insertionSort _ qs) hperm
    rw [mem_insertionSort] at ha hb
    exact inj_on_of_nodup_map h.positions (hp.mem_iff.mp ha) hb (le_antisymm hab hba)
  rw [snapshotOf, snapshotOf, hsort]

theorem uniqueIds_snapshotOf (exam : Exam) (h : KeysUnique qs) :
    UniqueIds (snapshotOf exam qs).questions := by
  have hids : (snapshotOf exam qs).questions.map (·.id) =
      (qs.insertionSort fun a b => a.position ≤ b.position).map (·.id) := by
    rw [snapshotOf, map_map]
    rfl
  rw [UniqueIds, hids]
  have hperm := (perm_insertionSort (fun a b : Question => a.position ≤ b.position) qs).map
    fun q : Question => q.id
  exact hperm.nodup_iff.mpr h

theorem positions_nodup {α : Type} {l : List α} {f : α × Nat → Question}
    (hf : ∀ e, (f e).position = e.2) : ((l.zipIdx.map f).map (·.position)).Nodup := by
  have hpos : (l.zipIdx.map f).map (·.position) = range' 0 l.length := by
    rw [map_map, ← zipIdx_map_snd 0 l]
    exact map_congr_left fun e _ => hf e
  rw [hpos]
  exact nodup_range'

variable {incoming : List QuestionInput} {newId : Nat → String}

theorem working_createQuestions
    (h : KeysUnique (createQuestions incoming newId)) : Working (createQuestions incoming newId) :=
  ⟨h, positions_nodup fun _ => rfl⟩

theorem working_applyQuestions {existing : List Question}
    (h : KeysUnique (applyQuestions existing incoming newId)) :
    Working (applyQuestions existing incoming newId) :=
  ⟨h, positions_nodup fun _ => rfl⟩

/-! ## What a version is to the one before it -/

variable {hash}

/-- A version recorded after `a`: its content and its hash differ, and it says how. -/
structure Follows (hash : List Char → H) (a b : ExamVersion H) : Prop where
  content : ¬ a.snapshot.SameContent b.snapshot
  contentHash : b.contentHash = some (snapshotHash hash b.snapshot)
  changes : b.changes = diffSnapshots (some a.snapshot) b.snapshot

/-- The history of one exam: numbers from 1 on, each version following the one before it. -/
structure History (hash : List Char → H) (vs : List (ExamVersion H)) : Prop where
  numbers : vs.map (·.number) = List.range' 1 vs.length
  chain : vs.IsChain (Follows hash)

structure HistoryInv (hash : List Char → H) (db : ExamDb H) : Prop where
  ids : db.versions.map (·.id) = List.range db.versions.length
  working : ∀ examId, Working (db.questions examId)
  unique : ∀ v ∈ db.versions, UniqueIds v.snapshot.questions
  hashes : ∀ v ∈ db.versions, v.contentHash = none ∨
    v.contentHash = some (snapshotHash hash v.snapshot)
  history : ∀ examId, History hash (db.versionsOf examId)
  current : ∀ examId, ((db.exams examId).bind (·.currentVersionId)) =
    (db.versionsOf examId).getLast?.map (·.id)
  pinned : ∀ session v, db.pins session = some v → (loadVersion db v).isSome
  chosen : ∀ session v, db.starting session = some v → (loadVersion db v).isSome
  kept : ∀ session v w, db.pins session = some v → db.starting session = some w → w = v

variable {db : ExamDb H} {examId : Nat} {v : ExamVersion H}

theorem mem_versionsOf :
    v ∈ db.versionsOf examId ↔ v ∈ db.versions ∧ v.examId = examId := by
  simp [ExamDb.versionsOf]

theorem HistoryInv.load (h : HistoryInv hash db) (hv : v ∈ db.versions) :
    loadVersion db v.id = some v := by
  have hnodup : (db.versions.map (·.id)).Nodup := by
    rw [h.ids]
    exact nodup_range
  rcases he : loadVersion db v.id with _ | w
  · rw [loadVersion] at he
    simp at he
    exact absurd rfl (he v hv)
  · have hid : w.id = v.id := by simpa using find?_some he
    rw [inj_on_of_nodup_map hnodup (mem_of_find?_eq_some he) hv hid]

variable {exam : Exam}

theorem HistoryInv.load_current (h : HistoryInv hash db)
    (he : (db.exams examId).bind (·.currentVersionId) = exam.currentVersionId) :
    exam.currentVersionId.bind (loadVersion db) = (db.versionsOf examId).getLast? := by
  rw [← he, h.current]
  rcases hlast : (db.versionsOf examId).getLast? with _ | v
  · rfl
  · exact h.load (mem_versionsOf.mp (mem_of_getLast? hlast)).1

theorem History.latest (h : History hash (db.versionsOf examId)) :
    db.latest examId = (db.versionsOf examId).length := by
  have hmax : ∀ n, (range' 1 n).foldl max 0 = n := by
    intro n
    induction n with
    | zero => rfl
    | succ n ih => rw [range'_1_concat]; simp; omega
  rw [ExamDb.latest, h.numbers, hmax]

/-! ## Recording a version -/

theorem versionsOf_insertVersion (db : ExamDb H) (v : ExamVersion H) (examId : Nat) :
    (db.insertVersion v).versionsOf examId =
      if v.examId = examId then db.versionsOf examId ++ [v] else db.versionsOf examId := by
  by_cases h : v.examId = examId <;> simp [ExamDb.versionsOf, ExamDb.insertVersion,
    filter_append, h]

theorem loadVersion_insertVersion {id : Nat}
    (h : (loadVersion db id).isSome) : loadVersion (db.insertVersion v) id = loadVersion db id := by
  obtain ⟨w, hw⟩ := Option.isSome_iff_exists.mp h
  rw [loadVersion] at hw
  rw [loadVersion, loadVersion, ExamDb.insertVersion, find?_append, hw, Option.some_or]

theorem History.concat {vs : List (ExamVersion H)} (h : History hash vs)
    (hnumber : v.number = vs.length + 1) (hfollows : ∀ w ∈ vs.getLast?, Follows hash w v) :
    History hash (vs ++ [v]) where
  numbers := by
    rw [map_append, h.numbers, length_append, length_singleton, range'_1_concat, map_singleton,
      hnumber, Nat.add_comm]
  chain := by
    rw [isChain_append]
    refine ⟨h.chain, isChain_singleton v, fun w hw x hx => ?_⟩
    rw [head?_cons, Option.mem_some_iff] at hx
    exact hx ▸ hfollows w hw

theorem HistoryInv.insertVersion (h : HistoryInv hash db)
    (hid : v.id = db.versions.length) (hunique : UniqueIds v.snapshot.questions)
    (hhash : v.contentHash = some (snapshotHash hash v.snapshot))
    (hnumber : v.number = (db.versionsOf v.examId).length + 1)
    (hfollows : ∀ w ∈ (db.versionsOf v.examId).getLast?, Follows hash w v)
    (hexam : (db.exams v.examId).isSome) : HistoryInv hash (db.insertVersion v) where
  __ := h
  ids := by
    rw [ExamDb.insertVersion, map_append, h.ids, length_append, length_singleton,
      range_succ, map_singleton, hid]
  unique w hw := by
    rcases mem_snoc.1 hw with hw | hw
    · exact h.unique w hw
    · exact hw ▸ hunique
  hashes w hw := by
    rcases mem_snoc.1 hw with hw | hw
    · exact h.hashes w hw
    · exact hw ▸ .inr hhash
  history examId := by
    rw [versionsOf_insertVersion]
    split
    · rename_i he
      subst he
      exact (h.history _).concat hnumber hfollows
    · exact h.history examId
  current examId := by
    rw [versionsOf_insertVersion]
    by_cases he : v.examId = examId
    · subst he
      obtain ⟨e, hsome⟩ := Option.isSome_iff_exists.mp hexam
      simp [ExamDb.insertVersion, hsome]
    · rw [if_neg he, ← h.current]
      simp [ExamDb.insertVersion, Function.update_of_ne (Ne.symm he)]
  pinned session w hw := by
    rw [loadVersion_insertVersion (h.pinned session w hw)]
    exact h.pinned session w hw
  chosen session w hw := by
    rw [loadVersion_insertVersion (h.chosen session w hw)]
    exact h.chosen session w hw

theorem recordExamVersion_cases (h : HistoryInv hash db)
    (he : (db.exams examId).bind (·.currentVersionId) = exam.currentVersionId)
    (rows : List Question) (reason : ExamVersionReason) :
    (∃ v, (db.versionsOf examId).getLast? = some v ∧ v.snapshot.SameContent (snapshotOf exam rows) ∧
        recordExamVersion hash db examId exam rows reason = ⟨db, v, false⟩) ∨
      ((∀ v ∈ (db.versionsOf examId).getLast?, ¬ v.snapshot.SameContent (snapshotOf exam rows)) ∧
        recordExamVersion hash db examId exam rows reason =
          insertRecorded hash db examId (db.versionsOf examId).getLast? (snapshotOf exam rows) reason) := by
  rw [recordExamVersion, h.load_current he]
  rcases hlast : (db.versionsOf examId).getLast? with _ | v
  · exact .inr ⟨by simp, rfl⟩
  · have hunique := h.unique v (mem_versionsOf.mp (mem_of_getLast? hlast)).1
    by_cases hsame : v.snapshot.SameContent (snapshotOf exam rows)
    · exact .inl ⟨v, rfl, hsame, if_pos ((isUnchanged_iff hunique).mpr hsame)⟩
    · refine .inr ⟨fun w hw => ?_, if_neg fun hu => hsame ((isUnchanged_iff hunique).mp hu)⟩
      rw [Option.mem_some_iff] at hw
      exact hw ▸ hsame

/-- The rest of the database that a step of one history leaves alone. -/
structure Grows (db db' : ExamDb H) : Prop where
  load : ∀ id, (loadVersion db id).isSome → loadVersion db' id = loadVersion db id
  pins : ∀ session v, db.pins session = some v → db'.pins session = some v

theorem Grows.refl (db : ExamDb H) : Grows db db := ⟨fun _ _ => rfl, fun _ _ h => h⟩

theorem Grows.trans {a b c : ExamDb H} (hab : Grows a b) (hbc : Grows b c) : Grows a c where
  load id h := by
    rw [hbc.load id (by rw [hab.load id h]; exact h), hab.load id h]
  pins session v h := hbc.pins session v (hab.pins session v h)

theorem recordExamVersion_inv (h : HistoryInv hash db)
    (he : db.exams examId = some exam) (hrows : KeysUnique rows)
    (reason : ExamVersionReason) :
    HistoryInv hash (recordExamVersion hash db examId exam rows reason).db ∧
      Grows db (recordExamVersion hash db examId exam rows reason).db ∧
      (recordExamVersion hash db examId exam rows reason).db.pins = db.pins ∧
      (recordExamVersion hash db examId exam rows reason).db.starting = db.starting ∧
      loadVersion (recordExamVersion hash db examId exam rows reason).db
          (recordExamVersion hash db examId exam rows reason).version.id =
        some (recordExamVersion hash db examId exam rows reason).version := by
  rcases recordExamVersion_cases h (by rw [he]; rfl) rows reason with ⟨v, hlast, -, heq⟩ | ⟨hnew, heq⟩
  · rw [heq]
    exact ⟨h, .refl db, rfl, rfl, h.load (mem_versionsOf.mp (mem_of_getLast? hlast)).1⟩
  · have hinv : HistoryInv hash (insertRecorded hash db examId (db.versionsOf examId).getLast?
        (snapshotOf exam rows) reason).db := by
      refine h.insertVersion rfl (uniqueIds_snapshotOf exam hrows) rfl ?_ (fun w hw => ?_)
        (Option.isSome_iff_exists.mpr ⟨exam, he⟩)
      · show db.latest examId + 1 = _
        rw [(h.history examId).latest]
        rfl
      · refine ⟨hnew w hw, rfl, ?_⟩
        have hlast : (db.versionsOf examId).getLast? = some w := hw
        rw [hlast]
        rfl
    rw [heq]
    exact ⟨hinv, ⟨fun _ hsome => loadVersion_insertVersion hsome, fun _ _ hp => hp⟩, rfl, rfl,
      hinv.load (mem_append_right _ (mem_singleton_self _))⟩

/-! ## One step -/

theorem HistoryInv.setExam (h : HistoryInv hash db)
    (hcur : (db.exams examId).bind (·.currentVersionId) = exam.currentVersionId) :
    HistoryInv hash (db.setExam examId exam) :=
  { h with
    current := fun e => by
      show ((Function.update db.exams examId (some exam) e).bind _) = _
      by_cases he : e = examId
      · subst he
        rw [Function.update_self, Option.bind_some, ← hcur]
        exact h.current e
      · rw [Function.update_of_ne he]
        exact h.current e }

theorem HistoryInv.setQuestions (h : HistoryInv hash db)
    (hqs : Working qs) : HistoryInv hash (db.setQuestions examId qs) :=
  { h with
    working := fun e => by
      show Working (Function.update db.questions examId qs e)
      by_cases he : e = examId
      · subst he
        rw [Function.update_self]
        exact hqs
      · rw [Function.update_of_ne he]
        exact h.working e }

theorem HistoryInv.startWith (h : HistoryInv hash db) {session v : Nat}
    (hv : (loadVersion db v).isSome) (hkept : ∀ w, db.pins session = some w → v = w) :
    HistoryInv hash { db with starting := Function.update db.starting session (some v) } :=
  { h with
    chosen := fun s w hw => by
      replace hw : Function.update db.starting session (some v) s = some w := hw
      by_cases hs : s = session
      · subst hs
        rw [Function.update_self, Option.some.injEq] at hw
        exact hw ▸ hv
      · rw [Function.update_of_ne hs] at hw
        exact h.chosen s w hw
    kept := fun s w x hw hx => by
      replace hx : Function.update db.starting session (some v) s = some x := hx
      by_cases hs : s = session
      · subst hs
        rw [Function.update_self, Option.some.injEq] at hx
        exact hx ▸ hkept w hw
      · rw [Function.update_of_ne hs] at hx
        exact h.kept s w x hw hx }

theorem grows_rows (db : ExamDb H) (exams : Nat → Option Exam) (questions : Nat → List Question) :
    Grows db { db with exams := exams, questions := questions } :=
  ⟨fun _ _ => rfl, fun _ _ hp => hp⟩

theorem exams_setExam (db : ExamDb H) (examId : Nat) (exam : Exam) :
    (db.setExam examId exam).exams examId = some exam :=
  Function.update_self ..

theorem step_create (h : HistoryInv hash db) (input : ExamInput) (published : Bool)
    (hkeys : KeysUnique (createQuestions incoming newId))
    (hrows : rows.Perm (createQuestions incoming newId)) (hnone : db.exams examId = none) :
    HistoryInv hash (createExam hash db examId input published incoming newId rows) ∧
      Grows db (createExam hash db examId input published incoming newId rows) := by
  have hrow : ∀ status, HistoryInv hash
      ((db.setExam examId (input.row status none)).setQuestions examId (createQuestions incoming newId)) :=
    fun status => (h.setExam (by rw [hnone]; rfl)).setQuestions (working_createQuestions hkeys)
  rcases published with _ | _
  · exact ⟨hrow .draft, grows_rows db _ _⟩
  · obtain ⟨hinv, hgrows, -, -, -⟩ := recordExamVersion_inv (hrow .published)
      (exams_setExam db examId (input.row .published none))
      ((hrows.map fun q : Question => q.id).nodup_iff.mpr hkeys) .published
    exact ⟨hinv, .trans (grows_rows db _ _) hgrows⟩

theorem step_edit (h : HistoryInv hash db) {cur : Exam}
    (hcur : db.exams examId = some cur) (input : ExamInput)
        (hkeys : KeysUnique (applyQuestions (db.questions examId) incoming newId))
    (hrows : rows.Perm (applyQuestions (db.questions examId) incoming newId)) :
    HistoryInv hash (editExam hash db examId cur input incoming newId rows) ∧
      Grows db (editExam hash db examId cur input incoming newId rows) := by
  have hrow : HistoryInv hash
      ((db.setQuestions examId (applyQuestions (db.questions examId) incoming newId)).setExam examId
        (input.row cur.status cur.currentVersionId)) :=
    (h.setQuestions (working_applyQuestions hkeys)).setExam (by
      show (db.exams examId).bind _ = _
      rw [hcur]
      rfl)
  rw [editExam]
  by_cases hpub : cur.status = .published
  · obtain ⟨hinv, hgrows, -, -, -⟩ := recordExamVersion_inv hrow
      (exams_setExam _ examId (input.row cur.status cur.currentVersionId))
      ((hrows.map fun q : Question => q.id).nodup_iff.mpr hkeys) .edited
    simp only [hpub, if_true]
    rw [hpub] at hinv hgrows
    exact ⟨hinv, .trans (grows_rows db _ _) hgrows⟩
  · simp only [hpub, if_false]
    exact ⟨hrow, grows_rows db _ _⟩

theorem step_publish (h : HistoryInv hash db) {cur : Exam}
    (hcur : db.exams examId = some cur) (hrows : rows.Perm (db.questions examId)) :
    HistoryInv hash (publishExam hash db examId cur rows) ∧
    Grows db (publishExam hash db examId cur rows) := by
  have hrow : HistoryInv hash (db.setExam examId { cur with status := .published }) :=
    h.setExam (by rw [hcur]; rfl)
  obtain ⟨hinv, hgrows, -, -, -⟩ := recordExamVersion_inv hrow
    (exams_setExam db examId { cur with status := .published })
    ((hrows.map fun q : Question => q.id).nodup_iff.mpr (h.working examId).keys) .published
  exact ⟨hinv, .trans (grows_rows db _ _) hgrows⟩

theorem versionForStart_inv (h : HistoryInv hash db)
    (he : db.exams examId = some exam) (hrows : rows.Perm (db.questions examId)) :
    HistoryInv hash (versionForStart hash db examId exam rows).db ∧
      Grows db (versionForStart hash db examId exam rows).db ∧
      (versionForStart hash db examId exam rows).db.pins = db.pins ∧
      loadVersion (versionForStart hash db examId exam rows).db
          (versionForStart hash db examId exam rows).version.id =
        some (versionForStart hash db examId exam rows).version := by
  rw [versionForStart]
  split
  · rename_i v hv
    obtain ⟨id, -, hload⟩ := Option.bind_eq_some_iff.mp hv
    exact ⟨h, .refl db, rfl, h.load (mem_of_find?_eq_some hload)⟩
  · obtain ⟨hinv, hgrows, hpins, -, hload⟩ := recordExamVersion_inv h he
      ((hrows.map fun q : Question => q.id).nodup_iff.mpr (h.working examId).keys) .started
    exact ⟨hinv, hgrows, hpins, hload⟩

variable {session : Nat}

theorem step_choose (h : HistoryInv hash db) (hrows : rows.Perm (db.questions examId)) :
    HistoryInv hash (historyStep hash (.choose session examId rows) db) ∧
      Grows db (historyStep hash (.choose session examId rows) db) := by
  rw [historyStep]
  split
  · -- the attempt is pinned already
    rename_i v hv
    obtain ⟨id, hpin, hload⟩ := Option.bind_eq_some_iff.mp hv
    have hid : v.id = id := by simpa using find?_some hload
    refine ⟨h.startWith (by rw [hid, hload]; rfl) fun w hw => ?_, ⟨fun _ _ => rfl, fun _ _ hp => hp⟩⟩
    rw [hpin, Option.some.injEq] at hw
    rw [hid, hw]
  · rename_i hnone
    split
    · exact ⟨h, .refl db⟩
    · rename_i exam he
      obtain ⟨hinv, hgrows, hpins, hload⟩ := versionForStart_inv h he hrows
      refine ⟨hinv.startWith (by rw [hload]; rfl) fun w hw => ?_, ⟨hgrows.load, hgrows.pins⟩⟩
      rw [hpins] at hw
      rw [hw, Option.bind_some] at hnone
      have hsome := h.pinned session w hw
      rw [hnone] at hsome
      cases hsome

theorem HistoryInv.pin (h : HistoryInv hash db) {session v : Nat}
    (hv : db.starting session = some v) :
    HistoryInv hash
      { db with
        pins := Function.update db.pins session (some v)
        starting := Function.update db.starting session none } :=
  { h with
    pinned := fun s w hw => by
      replace hw : Function.update db.pins session (some v) s = some w := hw
      by_cases hs : s = session
      · subst hs
        rw [Function.update_self, Option.some.injEq] at hw
        exact hw ▸ h.chosen s v hv
      · rw [Function.update_of_ne hs] at hw
        exact h.pinned s w hw
    chosen := fun s w hw => by
      replace hw : Function.update db.starting session none s = some w := hw
      by_cases hs : s = session
      · simp [hs] at hw
      · rw [Function.update_of_ne hs] at hw
        exact h.chosen s w hw
    kept := fun s w x hw hx => by
      replace hw : Function.update db.pins session (some v) s = some w := hw
      replace hx : Function.update db.starting session none s = some x := hx
      by_cases hs : s = session
      · simp [hs] at hx
      · rw [Function.update_of_ne hs] at hw hx
        exact h.kept s w x hw hx }

theorem step_pin (h : HistoryInv hash db) (session : Nat) :
    HistoryInv hash (historyStep hash (.pin session) db) ∧
    Grows db (historyStep hash (.pin session) db) := by
  rw [historyStep]
  split
  · exact ⟨h, .refl db⟩
  · rename_i v hv
    refine ⟨h.pin hv, fun _ _ => rfl, fun s w hw => ?_⟩
    show Function.update db.pins session (some v) s = some w
    by_cases hs : s = session
    · subst hs
      rw [Function.update_self, h.kept s w v hw hv]
    · rw [Function.update_of_ne hs]
      exact hw

theorem historyStep_inv (h : HistoryInv hash db) {i : HistoryInput} (hi : i.enabled db) :
    HistoryInv hash (historyStep hash i db) ∧ Grows db (historyStep hash i db) := by
  cases i with
  | create examId input published =>
    rw [historyStep]
    split
    · exact ⟨h, .refl db⟩
    · rename_i hnone
      exact step_create h input published hi.1 hi.2 (by simpa using hnone)
  | edit examId input =>
    rw [historyStep]
    split
    · exact ⟨h, .refl db⟩
    · rename_i cur hcur
      split
      · exact ⟨h, .refl db⟩
      · exact step_edit h hcur input hi.1 hi.2
  | publish =>
    rw [historyStep]
    split
    · exact ⟨h, .refl db⟩
    · rename_i cur hcur
      split
      · exact ⟨h, .refl db⟩
      · exact step_publish h hcur hi
  | archive examId =>
    rw [historyStep]
    split
    · exact ⟨h, .refl db⟩
    · rename_i cur hcur
      exact ⟨h.setExam (by rw [hcur]; rfl), grows_rows db _ _⟩
  | choose => exact step_choose h hi
  | pin session => exact step_pin h session

/-! ## Every run -/

variable (hash)

/-- The database as the upgrade migration left it: an exam has no version, or one with its content
and no hash, and an attempt that had started is pinned to it. -/
structure Migrated (db : ExamDb H) : Prop where
  ids : db.versions.map (·.id) = List.range db.versions.length
  working : ∀ examId, Working (db.questions examId)
  unique : ∀ v ∈ db.versions, UniqueIds v.snapshot.questions ∧ v.contentHash = none
  versions : ∀ examId, (db.versionsOf examId = [] ∧
    (db.exams examId).bind (·.currentVersionId) = none) ∨
    ∃ v, db.versionsOf examId = [v] ∧ v.number = 1 ∧
      (db.exams examId).bind (·.currentVersionId) = some v.id
  pinned : ∀ session v, db.pins session = some v → (loadVersion db v).isSome
  starting : ∀ session, db.starting session = none

def examHistory : Machine (ExamDb H) HistoryInput where
  init := Migrated
  step := historyStep hash
  enabled := HistoryInput.enabled

variable {hash}

theorem Migrated.inv (h : Migrated db) : HistoryInv hash db where
  __ := h
  unique v hv := (h.unique v hv).1
  hashes v hv := .inl (h.unique v hv).2
  history examId := by
    rcases h.versions examId with ⟨hnil, -⟩ | ⟨v, hv, hnumber, -⟩
    · rw [hnil]
      exact ⟨rfl, .nil⟩
    · rw [hv]
      exact ⟨by simp [hnumber], .singleton v⟩
  current examId := by
    rcases h.versions examId with ⟨hnil, hcur⟩ | ⟨v, hv, -, hcur⟩
    · rw [hnil, hcur]
      rfl
    · rw [hv, hcur]
      rfl
  chosen session v hv := by simp [h.starting session] at hv
  kept session v w _ hw := by simp [h.starting session] at hw

theorem historyInv_of_reachable (h : (examHistory hash).Reachable db) : HistoryInv hash db :=
  Machine.Reachable.invariant (I := HistoryInv hash) (fun _ h0 => Migrated.inv h0)
    (fun _ _ _ hi hinv => (historyStep_inv hinv hi).1) h

theorem grows_of_steps {db db' : ExamDb H} (h : HistoryInv hash db)
    (hs : (examHistory hash).Steps db db') : Grows db db' :=
  (hs.rel (I := HistoryInv hash) (R := Grows) .refl .trans (fun _ _ hinv hi =>
    historyStep_inv hinv hi) h).2

/-- The content of an attempt that is pinned (`sessionExamContent`). -/
def sessionContent (db : ExamDb H) (session : Nat) : Option ExamSnapshot :=
  ((db.pins session).bind (loadVersion db)).map (·.snapshot)

/-- Two versions in a row have different content and different hashes, and the second one says what
changed. -/
def Successive (a b : ExamVersion H) : Prop :=
  ¬ a.snapshot.SameContent b.snapshot ∧ a.contentHash ≠ b.contentHash ∧
    b.changes = diffSnapshots (some a.snapshot) b.snapshot ∧
    ∀ id, id ∈ b.snapshot.questions.map (·.id) ↔
      (id ∈ a.snapshot.questions.map (·.id) ∧ id ∉ b.changes.removed) ∨ id ∈ b.changes.added

theorem Follows.successive (hfree : ∀ s t, hash s = hash t → s = t) {a b : ExamVersion H}
    (ha : a.contentHash = none ∨ a.contentHash = some (snapshotHash hash a.snapshot))
    (h : Follows hash a b) : Successive a b := by
  refine ⟨h.content, fun he => ?_, h.changes, fun id => ?_⟩
  · rw [h.contentHash] at he
    rcases ha with ha | ha
    · simp [ha] at he
    · rw [ha, Option.some.injEq] at he
      exact h.content (hfree _ _ he)
  · rw [h.changes]
    exact diffSnapshots_ids a.snapshot b.snapshot id

theorem record_unchanged (h : HistoryInv hash db)
    (he : db.exams examId = some exam) (hrows : rows.Perm (db.questions examId))
    (hv : (db.versionsOf examId).getLast? = some v)
    (hsame : v.snapshot.SameContent (snapshotOf exam (db.questions examId)))
    (reason : ExamVersionReason) :
    recordExamVersion hash db examId exam rows reason = ⟨db, v, false⟩ := by
  have hcur : (db.exams examId).bind (·.currentVersionId) = exam.currentVersionId := by rw [he]; rfl
  rcases recordExamVersion_cases h hcur rows reason with ⟨w, hw, -, heq⟩ | ⟨hnew, -⟩
  · rw [hv, Option.some.injEq] at hw
    rw [heq, hw]
  · rw [snapshotOf_perm exam (h.working examId) hrows] at hnew
    exact absurd hsame (hnew v hv)

theorem record_snapshot (h : HistoryInv hash db) (he : db.exams examId = some exam)
    (hrows : rows.Perm (db.questions examId)) (reason : ExamVersionReason) :
    (recordExamVersion hash db examId exam rows reason).version.snapshot.SameContent
        (snapshotOf exam (db.questions examId)) ∧
      ((recordExamVersion hash db examId exam rows reason).created = true →
        (recordExamVersion hash db examId exam rows reason).version.snapshot =
          snapshotOf exam (db.questions examId)) := by
  rw [← snapshotOf_perm exam (h.working examId) hrows]
  rcases recordExamVersion_cases h (by rw [he]; rfl) rows reason with
      ⟨w, -, hsame, heq⟩ | ⟨-, heq⟩ <;> rw [heq]
  · exact ⟨hsame, fun hcreated => by cases hcreated⟩
  · exact ⟨rfl, fun _ => rfl⟩

/-- **The version history is faithful.** -/
theorem exam_history (hash : List Char → H) (hfree : ∀ s t, hash s = hash t → s = t) :
    (∀ prev next : ExamSnapshot, UniqueIds prev.questions → UniqueIds next.questions →
      (isUnchanged (diffSnapshots (some prev) next) = true ↔ prev.SameContent next)) ∧
    ∀ db, (examHistory hash).Reachable db →
      (∀ examId, ((db.versionsOf examId).map (·.number)).Pairwise (· < ·)) ∧
      (∀ examId, (db.versionsOf examId).IsChain Successive) ∧
      (∀ v ∈ db.versions, UniqueIds v.snapshot.questions) ∧
      (∀ examId exam rows reason v, db.exams examId = some exam → rows.Perm (db.questions examId) →
        (db.versionsOf examId).getLast? = some v →
        v.snapshot.SameContent (snapshotOf exam (db.questions examId)) →
        recordExamVersion hash db examId exam rows reason = ⟨db, v, false⟩) ∧
      (∀ examId exam rows reason, db.exams examId = some exam → rows.Perm (db.questions examId) →
        (recordExamVersion hash db examId exam rows reason).version.snapshot.SameContent
            (snapshotOf exam (db.questions examId)) ∧
          ((recordExamVersion hash db examId exam rows reason).created = true →
            (recordExamVersion hash db examId exam rows reason).version.snapshot =
              snapshotOf exam (db.questions examId))) ∧
      ∀ db', (examHistory hash).Steps db db' → ∀ session v, db.pins session = some v →
        db'.pins session = some v ∧ (sessionContent db session).isSome ∧
          sessionContent db' session = sessionContent db session := by
  refine ⟨fun prev next hp _ => isUnchanged_iff hp, fun db hdb => ?_⟩
  have h := historyInv_of_reachable hdb
  refine ⟨fun examId => ?_, fun examId => ?_, h.unique,
    fun _ _ _ reason _ he hrows hv hsame => record_unchanged h he hrows hv hsame reason,
    fun _ _ _ reason he hrows => record_snapshot h he hrows reason,
    fun db' hsteps session v hpin => ?_⟩
  · rw [(h.history examId).numbers]
    exact pairwise_lt_range'
  · refine (h.history examId).chain.imp_of_mem_imp fun a b ha _ hab => ?_
    exact hab.successive hfree (h.hashes a (mem_versionsOf.mp ha).1)
  · have hgrows := grows_of_steps h hsteps
    have hpin' := hgrows.pins session v hpin
    have hsome := h.pinned session v hpin
    refine ⟨hpin', ?_, ?_⟩
    · rw [sessionContent, hpin, Option.isSome_map]
      exact hsome
    · rw [sessionContent, sessionContent, hpin, hpin', Option.bind_some, Option.bind_some,
        hgrows.load v hsome]

/-- A database without exams. -/
def noExams : ExamDb (List Char) where
  exams := fun _ => none
  questions := fun _ => []
  versions := []
  pins := fun _ => none
  starting := fun _ => none

/-- An exam of one hour with a title. -/
def titled (title : String) : ExamInput where
  title := title
  description := ""
  instructions := ""
  durationSec := ⟨"3600".toList, by decide, by simp [Json.numberChars]⟩
  policy := []

/-- A question with a text for an answer. -/
def asked (id : Option String) (prompt : String) : QuestionInput where
  id := id
  type := .shortText
  prompt := prompt
  options := []
  correct := ["4"]
  points := ⟨"1".toList, by decide, by simp [Json.numberChars]⟩

def firstQuestions : List Question :=
  createQuestions [asked none "2 + 2", asked none "2 * 2"] toString

/-- An exam published with two questions, and an attempt that has started. -/
def publishedAndStarted : ExamDb (List Char) :=
  (examHistory fun t => t).run noExams
    [.create 1 (titled "Algebra") true [asked none "2 + 2", asked none "2 * 2"] toString firstQuestions,
      .choose 5 1 firstQuestions, .pin 5]

/-- What staff make of the questions: the second one goes, another comes first. -/
def editedQuestions : List Question :=
  applyQuestions firstQuestions [asked none "3 + 1", asked (some "0") "2 + 2"] fun n =>
    toString (n + 7)

def questionsEdited : HistoryInput :=
  .edit 1 (titled "Algebra II") [asked none "3 + 1",
    asked (some "0") "2 + 2"] (fun n => toString (n + 7))
    editedQuestions

theorem reachable_publishedAndStarted :
    (examHistory (fun t : List Char => t)).Reachable publishedAndStarted := by
  have hnone : Migrated noExams :=
    ⟨rfl, fun _ => ⟨nodup_nil, nodup_nil⟩, by simp [noExams], fun _ => .inl ⟨rfl, rfl⟩,
      by simp [noExams], fun _ => rfl⟩
  exact (Machine.Reachable.init (M := examHistory fun t : List Char => t) hnone).run
    ⟨⟨by rw [KeysUnique]; decide +kernel, .refl _⟩, .refl _, trivial, trivial⟩

/-- The attempt keeps its questions when staff edit the exam. -/
theorem exam_history_edited :
    sessionContent ((examHistory fun t => t).step questionsEdited publishedAndStarted) 5 =
        sessionContent publishedAndStarted 5 ∧
      (((examHistory fun t => t).step questionsEdited publishedAndStarted).versionsOf 1).length = 2 ∧
      (((examHistory fun t => t).step questionsEdited publishedAndStarted).versionsOf 1).IsChain Successive := by
  have hedit : (examHistory fun t => t).enabled questionsEdited publishedAndStarted :=
    ⟨by rw [KeysUnique]; decide +kernel, .refl _⟩
  have hfaithful := (exam_history (fun t : List Char => t) (fun _ _ h => h)).2
  have hstarted := hfaithful publishedAndStarted reachable_publishedAndStarted
  have hpin : publishedAndStarted.pins 5 = some 0 := by decide +kernel
  exact ⟨(hstarted.2.2.2.2.2 _ (.tail (.refl _) questionsEdited hedit) 5 0 hpin).2.2, by decide +kernel,
    (hfaithful _ (reachable_publishedAndStarted.step questionsEdited hedit)).2.1 1⟩

end SmartProctoring
