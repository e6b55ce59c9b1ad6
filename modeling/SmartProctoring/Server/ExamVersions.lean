import SmartProctoring.Lib.Json
import SmartProctoring.Server.CandidateActions

/-!
# Exam versions

`services/exam-versions.ts`: the snapshot of an exam (`snapshotOf`), its canonical text, and what
one snapshot changes relative to another (`diffSnapshots`).  The diff shown to staff compares field
by field and question by question; it is empty exactly when the canonical texts agree.
-/

set_option autoImplicit false

namespace SmartProctoring

open Json (Value Number canonicalJson)
open List

structure QuestionOption where
  id : String
  text : String

/-- A question as a version keeps it. -/
structure ExamVersionQuestionDTO where
  id : String
  type : QuestionType
  prompt : String
  options : List QuestionOption
  correct : List String
  points : Number

structure ExamSnapshot where
  title : String
  description : String
  instructions : String
  durationSec : Number
  /-- The fields of the exam's own rules. -/
  policy : List (String × Value)
  questions : List ExamVersionQuestionDTO

/-! ## The canonical text -/

def QuestionType.name : QuestionType → String
  | .singleChoice => "single_choice"
  | .multipleChoice => "multiple_choice"
  | .shortText => "short_text"
  | .longText => "long_text"
  | .numeric => "numeric"

def QuestionOption.value (o : QuestionOption) : Value :=
  .obj [("id", .str o.id), ("text", .str o.text)]

def optionsValue (os : List QuestionOption) : Value := .arr (os.map (·.value))

def correctValue (cs : List String) : Value := .arr (cs.map .str)

def ExamVersionQuestionDTO.value (q : ExamVersionQuestionDTO) : Value :=
  .obj
    [("id", .str q.id), ("type", .str q.type.name), ("prompt", .str q.prompt),
      ("options", optionsValue q.options), ("correct", correctValue q.correct), ("points", .num q.points)]

def ExamSnapshot.value (s : ExamSnapshot) : Value :=
  .obj
    [("title", .str s.title), ("description", .str s.description), ("instructions", .str s.instructions),
      ("durationSec", .num s.durationSec), ("policy", .obj s.policy),
      ("questions", .arr (s.questions.map (·.value)))]

/-- Two snapshots with the same canonical text. -/
def ExamSnapshot.SameContent (a b : ExamSnapshot) : Prop :=
  canonicalJson a.value = canonicalJson b.value

theorem canonicalJson_question (q : ExamVersionQuestionDTO) :
    canonicalJson q.value =
      Json.object
        [("correct", canonicalJson (correctValue q.correct)), ("id", canonicalJson (.str q.id)),
          ("options", canonicalJson (optionsValue q.options)), ("points", canonicalJson (.num q.points)),
          ("prompt", canonicalJson (.str q.prompt)), ("type", canonicalJson (.str q.type.name))] := by
  have hfields : Json.canonicalFields
      [("id", .str q.id), ("type", .str q.type.name), ("prompt", .str q.prompt),
        ("options", optionsValue q.options), ("correct", correctValue q.correct), ("points", .num q.points)] =
      [("id", canonicalJson (.str q.id)), ("type", canonicalJson (.str q.type.name)),
        ("prompt", canonicalJson (.str q.prompt)), ("options", canonicalJson (optionsValue q.options)),
        ("correct", canonicalJson (correctValue q.correct)), ("points", canonicalJson (.num q.points))] := rfl
  rw [ExamVersionQuestionDTO.value, Json.canonicalJson_obj, hfields]
  simp +decide [Json.sortByKey, insertionSort, orderedInsert, Json.utf16]

theorem canonicalJson_snapshot (s : ExamSnapshot) :
    canonicalJson s.value =
      Json.object
        [("description", canonicalJson (.str s.description)),
          ("durationSec", canonicalJson (.num s.durationSec)),
          ("instructions", canonicalJson (.str s.instructions)), ("policy", canonicalJson (.obj s.policy)),
          ("questions", canonicalJson (.arr (s.questions.map (·.value)))),
          ("title", canonicalJson (.str s.title))] := by
  have hfields : Json.canonicalFields
      [("title", .str s.title), ("description", .str s.description), ("instructions", .str s.instructions),
        ("durationSec", .num s.durationSec), ("policy", .obj s.policy),
        ("questions", .arr (s.questions.map (·.value)))] =
      [("title", canonicalJson (.str s.title)), ("description", canonicalJson (.str s.description)),
        ("instructions", canonicalJson (.str s.instructions)),
        ("durationSec", canonicalJson (.num s.durationSec)), ("policy", canonicalJson (.obj s.policy)),
        ("questions", canonicalJson (.arr (s.questions.map (·.value))))] := rfl
  rw [ExamSnapshot.value, Json.canonicalJson_obj, hfields]
  simp +decide [Json.sortByKey, insertionSort, orderedInsert, Json.utf16]

theorem canonicalJson_question_inj {p q : ExamVersionQuestionDTO} :
    canonicalJson p.value = canonicalJson q.value ↔
      p.id = q.id ∧ p.type = q.type ∧ p.prompt = q.prompt ∧
        canonicalJson (optionsValue p.options) = canonicalJson (optionsValue q.options) ∧
        canonicalJson (correctValue p.correct) = canonicalJson (correctValue q.correct) ∧
        p.points = q.points := by
  have hname : p.type.name = q.type.name ↔ p.type = q.type := by
    rcases p.type <;> rcases q.type <;> decide
  rw [canonicalJson_question, canonicalJson_question]
  constructor
  · intro h
    have hfields := Json.object_inj (by simp [Json.jsonText_canonicalJson])
      (by simp [Json.jsonText_canonicalJson]) h
    simp only [cons.injEq, Prod.mk.injEq, true_and, and_true, Json.canonicalJson_str_inj,
      Json.canonicalJson_num_inj, hname] at hfields
    obtain ⟨hcorrect, hid, hoptions, hpoints, hprompt, htype⟩ := hfields
    exact ⟨hid, htype, hprompt, hoptions, hcorrect, hpoints⟩
  · rintro ⟨hid, htype, hprompt, hoptions, hcorrect, hpoints⟩
    rw [hid, htype, hprompt, hoptions, hcorrect, hpoints]

theorem ExamSnapshot.sameContent_iff {a b : ExamSnapshot} :
    a.SameContent b ↔
      a.title = b.title ∧ a.description = b.description ∧ a.instructions = b.instructions ∧
        a.durationSec = b.durationSec ∧ canonicalJson (.obj a.policy) = canonicalJson (.obj b.policy) ∧
        a.questions.map (fun q => canonicalJson q.value) = b.questions.map (fun q => canonicalJson q.value) := by
  rw [SameContent, canonicalJson_snapshot, canonicalJson_snapshot]
  constructor
  · intro h
    have hfields := Json.object_inj (by simp [Json.jsonText_canonicalJson])
      (by simp [Json.jsonText_canonicalJson]) h
    simp only [cons.injEq, Prod.mk.injEq, true_and, and_true, Json.canonicalJson_str_inj,
      Json.canonicalJson_num_inj, Json.canonicalJson_arr_inj, map_map] at hfields
    obtain ⟨hdescription, hduration, hinstructions, hpolicy, hquestions, htitle⟩ := hfields
    exact ⟨htitle, hdescription, hinstructions, hduration, hpolicy, hquestions⟩
  · rintro ⟨htitle, hdescription, hinstructions, hduration, hpolicy, hquestions⟩
    have harr : canonicalJson (.arr (a.questions.map (·.value))) =
        canonicalJson (.arr (b.questions.map (·.value))) := by
      rw [Json.canonicalJson_arr_inj, map_map, map_map]
      exact hquestions
    rw [htitle, hdescription, hinstructions, hduration, hpolicy, harr]

/-! ## The diff of two snapshots -/

inductive ExamVersionQuestionField
  | type | prompt | options | correct | points | position
  deriving DecidableEq

inductive ExamVersionExamField
  | title | description | instructions | durationSec | policy
  deriving DecidableEq

/-- What a version changed relative to the one before it. -/
structure ExamVersionChangesDTO where
  added : List String
  removed : List String
  /-- Question ids with the fields that changed. -/
  changed : List (String × List ExamVersionQuestionField)
  exam : List ExamVersionExamField

/-- `prevById.get(id)`: the question of an id with its index (the last one, where an id is there
twice). -/
def prevById (prev : List ExamVersionQuestionDTO) (id : String) :
    Option (ExamVersionQuestionDTO × Nat) :=
  prev.zipIdx.reverse.find? fun e => e.1.id = id

/-- The fields of a question that differ from what it was `before`. -/
def changedFields (before now : ExamVersionQuestionDTO × Nat) : List ExamVersionQuestionField :=
  (if before.1.type ≠ now.1.type then [.type] else []) ++
    (if before.1.prompt ≠ now.1.prompt then [.prompt] else []) ++
    (if canonicalJson (optionsValue before.1.options) ≠ canonicalJson (optionsValue now.1.options)
      then [.options] else []) ++
    (if canonicalJson (correctValue before.1.correct) ≠ canonicalJson (correctValue now.1.correct)
      then [.correct] else []) ++
    (if before.1.points ≠ now.1.points then [.points] else []) ++
    (if before.2 ≠ now.2 then [.position] else [])

/-- The exam's own fields that differ. -/
def changedExam (prev next : ExamSnapshot) : List ExamVersionExamField :=
  (if prev.title ≠ next.title then [.title] else []) ++
    (if prev.description ≠ next.description then [.description] else []) ++
    (if prev.instructions ≠ next.instructions then [.instructions] else []) ++
    (if prev.durationSec ≠ next.durationSec then [.durationSec] else []) ++
    (if canonicalJson (.obj prev.policy) ≠ canonicalJson (.obj next.policy) then [.policy] else [])

/-- What `next` changes relative to `prev` (`none`: the first version, every question added). -/
def diffSnapshots (prev : Option ExamSnapshot) (next : ExamSnapshot) : ExamVersionChangesDTO :=
  match prev with
  | none => { added := next.questions.map (·.id), removed := [], changed := [], exam := [] }
  | some prev =>
    { added := (next.questions.filter fun q => (prevById prev.questions q.id).isNone).map (·.id)
      removed := (prev.questions.filter fun q => q.id ∉ next.questions.map (·.id)).map (·.id)
      changed := next.questions.zipIdx.filterMap fun e =>
        (prevById prev.questions e.1.id).bind fun before =>
          if changedFields before e = [] then none else some (e.1.id, changedFields before e)
      exam := changedExam prev next }

def isUnchanged (c : ExamVersionChangesDTO) : Bool :=
  c.added.isEmpty && c.removed.isEmpty && c.changed.isEmpty && c.exam.isEmpty

/-- No two questions of a list have one id. -/
def UniqueIds (qs : List ExamVersionQuestionDTO) : Prop := (qs.map (·.id)).Nodup

theorem prevById_eq_some {prev : List ExamVersionQuestionDTO} {id : String}
    {e : ExamVersionQuestionDTO × Nat} (h : prevById prev id = some e) :
    prev[e.2]? = some e.1 ∧ e.1.id = id := by
  refine ⟨?_, by simpa using find?_some h⟩
  have hmem := mem_of_find?_eq_some h
  rw [mem_reverse] at hmem
  exact mk_mem_zipIdx_iff_getElem?.mp hmem

theorem prevById_eq_none {prev : List ExamVersionQuestionDTO} {id : String} :
    prevById prev id = none ↔ id ∉ prev.map (·.id) := by
  rw [prevById, find?_eq_none]
  constructor
  · intro h hid
    obtain ⟨q, hq, rfl⟩ := mem_map.mp hid
    obtain ⟨i, hi⟩ := mem_iff_getElem?.mp hq
    exact h (q, i) (mem_reverse.mpr (mk_mem_zipIdx_iff_getElem?.mpr hi)) (by simp)
  · intro h e he hid
    rw [mem_reverse] at he
    have hget := mk_mem_zipIdx_iff_getElem?.mp he
    exact h (mem_map.mpr ⟨e.1, mem_of_getElem? hget, by simpa using hid⟩)

theorem prevById_get {prev : List ExamVersionQuestionDTO} (hn : UniqueIds prev) {i : Nat}
    {q : ExamVersionQuestionDTO} (h : prev[i]? = some q) : prevById prev q.id = some (q, i) := by
  rcases he : prevById prev q.id with _ | e
  · rw [prevById_eq_none] at he
    exact absurd (mem_map.mpr ⟨q, mem_of_getElem? h, rfl⟩) he
  · obtain ⟨hget, hid⟩ := prevById_eq_some he
    have hi : (prev.map (·.id))[i]? = some q.id := by rw [List.getElem?_map, h]; rfl
    have hj : (prev.map (·.id))[e.2]? = some q.id := by rw [List.getElem?_map, hget, ← hid]; rfl
    have hlt : i < (prev.map (·.id)).length := (List.getElem?_eq_some_iff.mp hi).1
    have hij : e.2 = i := ((List.getElem?_inj hlt hn).mp (hi.trans hj.symm)).symm
    rw [hij, h, Option.some.injEq] at hget
    rw [← hij, hget]

theorem changedFields_eq_nil {before now : ExamVersionQuestionDTO × Nat}
    (hid : before.1.id = now.1.id) : changedFields before now = [] ↔
      canonicalJson before.1.value = canonicalJson now.1.value ∧ before.2 = now.2 := by
  rw [canonicalJson_question_inj]
  simp [changedFields, hid, and_assoc]

variable {prev next : ExamSnapshot}

theorem changedExam_eq_nil :
    changedExam prev next = [] ↔
      prev.title = next.title ∧ prev.description = next.description ∧
        prev.instructions = next.instructions ∧ prev.durationSec = next.durationSec ∧
        canonicalJson (.obj prev.policy) = canonicalJson (.obj next.policy) := by
  simp [changedExam]

theorem getElem?_of_map_eq {α β : Type} {f : α → β} {as bs : List α} (h : as.map f = bs.map f)
    {i : Nat} {b : α} (hb : bs[i]? = some b) : ∃ a, as[i]? = some a ∧ f a = f b := by
  have hi : (as.map f)[i]? = some (f b) := by rw [h, List.getElem?_map, hb]; rfl
  rw [List.getElem?_map, Option.map_eq_some_iff] at hi
  exact hi

theorem same_questions_iff (hp : UniqueIds prev.questions) :
    prev.questions.map (fun q => canonicalJson q.value) = next.questions.map (fun q =>
      canonicalJson q.value) ↔
      (diffSnapshots (some prev) next).added = [] ∧ (diffSnapshots (some prev) next).removed = [] ∧
        (diffSnapshots (some prev) next).changed = [] := by
  simp only [diffSnapshots, map_eq_nil_iff, filter_eq_nil_iff, filterMap_eq_nil_iff,
    decide_eq_true_eq, Decidable.not_not]
  constructor
  · intro h
    refine ⟨fun q hq => ?_, fun p hpq => ?_, fun e he => ?_⟩
    · obtain ⟨i, hi⟩ := mem_iff_getElem?.mp hq
      obtain ⟨p, hpq, htext⟩ := getElem?_of_map_eq h hi
      rw [← (canonicalJson_question_inj.mp htext).1, prevById_get hp hpq]
      simp
    · obtain ⟨i, hi⟩ := mem_iff_getElem?.mp hpq
      obtain ⟨q, hq, htext⟩ := getElem?_of_map_eq h.symm hi
      exact mem_map.mpr ⟨q, mem_of_getElem? hq, (canonicalJson_question_inj.mp htext).1⟩
    · obtain ⟨p, hpq, htext⟩ := getElem?_of_map_eq h (mk_mem_zipIdx_iff_getElem?.mp he)
      have hid : p.id = e.1.id := (canonicalJson_question_inj.mp htext).1
      have hfound : prevById prev.questions e.1.id = some (p, e.2) := hid ▸ prevById_get hp hpq
      have hnil : changedFields (p, e.2) e = [] := (changedFields_eq_nil hid).mpr ⟨htext, rfl⟩
      rw [hfound, Option.bind_some, if_pos hnil]
  · rintro ⟨hadded, hremoved, hchanged⟩
    -- each question of `next` stands at its index in `prev`, with the same text
    have hnext : ∀ (i : Nat) (q : ExamVersionQuestionDTO), next.questions[i]? = some q →
        ∃ p : ExamVersionQuestionDTO, prev.questions[i]? = some p ∧
        canonicalJson p.value = canonicalJson q.value ∧ p.id = q.id := by
      intro i q hq
      have hfound := hadded q (mem_of_getElem? hq)
      rcases he : prevById prev.questions q.id with _ | e
      · simp [he] at hfound
      · obtain ⟨hget, hid⟩ := prevById_eq_some he
        have hfields := hchanged (q, i) (mk_mem_zipIdx_iff_getElem?.mpr hq)
        rw [he, Option.bind_some] at hfields
        have hnil : changedFields e (q, i) = [] := by
          by_contra hne
          rw [if_neg hne] at hfields
          cases hfields
        obtain ⟨htext, hpos⟩ := (changedFields_eq_nil hid).mp hnil
        have hpos' : e.2 = i := hpos
        exact ⟨e.1, hpos' ▸ hget, htext, hid⟩
    refine ext_getElem? fun i => ?_
    rw [List.getElem?_map, List.getElem?_map]
    rcases hq : next.questions[i]? with _ | q
    · rcases hpq : prev.questions[i]? with _ | p
      · rfl
      · -- a question past the end of `next` is still one of it, so it stands elsewhere in `prev` as well
        obtain ⟨q, hmem, hid⟩ := mem_map.mp (hremoved p (mem_of_getElem? hpq))
        obtain ⟨j, hj⟩ := mem_iff_getElem?.mp hmem
        obtain ⟨p', hp', -, hid'⟩ := hnext j q hj
        have hsame := prevById_get hp hp'
        rw [hid', hid, prevById_get hp hpq, Option.some.injEq, Prod.mk.injEq] at hsame
        rw [← hsame.2, hq] at hj
        cases hj
    · obtain ⟨p, hpq, htext, -⟩ := hnext i q hq
      rw [hpq, Option.map_some, Option.map_some, htext]

/-- **The diff is empty exactly when the canonical texts agree.** -/
theorem isUnchanged_iff (hp : UniqueIds prev.questions) :
    isUnchanged (diffSnapshots (some prev) next) = true ↔ prev.SameContent next := by
  have hexam : (diffSnapshots (some prev) next).exam = changedExam prev next := rfl
  rw [ExamSnapshot.sameContent_iff, same_questions_iff hp, isUnchanged]
  simp only [Bool.and_eq_true, List.isEmpty_iff, hexam, changedExam_eq_nil]
  rw [and_comm]
  simp only [and_assoc]

theorem diffSnapshots_ids (prev next : ExamSnapshot) (id : String) :
    id ∈ next.questions.map (·.id) ↔
      (id ∈ prev.questions.map (·.id) ∧ id ∉ (diffSnapshots (some prev) next).removed) ∨
        id ∈ (diffSnapshots (some prev) next).added := by
  have hadded : id ∈ (diffSnapshots (some prev) next).added ↔
      id ∈ next.questions.map (·.id) ∧ id ∉ prev.questions.map (·.id) := by
    simp only [diffSnapshots, mem_map, mem_filter, Option.isNone_iff_eq_none, prevById_eq_none]
    constructor
    · rintro ⟨q, ⟨hq, hnone⟩, rfl⟩
      exact ⟨⟨q, hq, rfl⟩, hnone⟩
    · rintro ⟨⟨q, hq, rfl⟩, hnone⟩
      exact ⟨q, ⟨hq, hnone⟩, rfl⟩
  have hremoved : id ∈ (diffSnapshots (some prev) next).removed ↔
      id ∈ prev.questions.map (·.id) ∧ id ∉ next.questions.map (·.id) := by
    simp only [diffSnapshots, mem_map, mem_filter, decide_eq_true_eq]
    constructor
    · rintro ⟨q, ⟨hq, hnone⟩, rfl⟩
      exact ⟨⟨q, hq, rfl⟩, hnone⟩
    · rintro ⟨⟨q, hq, rfl⟩, hnone⟩
      exact ⟨q, ⟨hq, hnone⟩, rfl⟩
  rw [hremoved, hadded]
  constructor
  · intro hnext
    by_cases hprev : id ∈ prev.questions.map (·.id)
    · exact .inl ⟨hprev, fun h => h.2 hnext⟩
    · exact .inr ⟨hnext, hprev⟩
  · rintro (⟨hprev, hkept⟩ | ⟨hnext, -⟩)
    · exact not_not.1 fun hnext => hkept ⟨hprev, hnext⟩
    · exact hnext

end SmartProctoring
