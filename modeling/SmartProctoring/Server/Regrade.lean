import SmartProctoring.Server.ExamHistory
import SmartProctoring.Server.Grading

/-!
# Regrading

`services/regrade.ts`: the finished attempts on one version of an exam are scored again with the
keys and points of another.  A score is written only where it differs from the one there
(`scoreDiffers`), which is decided once for the preview and again under the attempt's lock.

* `regradeExam_ok` says what a request leaves: each attempt on the version regraded on its own.
* A regraded attempt has the result of the keys, whatever score it had before (`regradeSession_result`); so a sequence of
  regrades comes to its last one (`regrading_forgets`).
-/

set_option autoImplicit false

namespace SmartProctoring.Grading

open Json (Number canonicalJson)
open List

universe u

/-- Finished attempts that a regrade covers at most in one request. -/
def REGRADE_MAX_SESSIONS : Nat := 5000

/-! ## Questions -/

/-- `byId.get(id)`. -/
def keyById (keys : List ExamVersionQuestionDTO) (id : String) : Option ExamVersionQuestionDTO :=
  keys.reverse.find? fun k => k.id == id

structure ChangedQuestion where
  questionId : String
  prompt : String
  correctFrom : List String
  correctTo : List String
  pointsFrom : Number
  pointsTo : Number

/-- The question with the keys and points of the other version, where it is there with the same
type. -/
def regradeQuestion (keys : List ExamVersionQuestionDTO) (q : ExamVersionQuestionDTO) :
    ExamVersionQuestionDTO :=
  match keyById keys q.id with
  | none => q
  | some k => if k.type ≠ q.type then q else { q with correct := k.correct, points := k.points }

def changedQuestion (keys : List ExamVersionQuestionDTO) (q : ExamVersionQuestionDTO) :
    Option ChangedQuestion :=
  match keyById keys q.id with
  | none => none
  | some k =>
    if k.type ≠ q.type then none
    else if canonicalJson (correctValue k.correct) ≠ canonicalJson (correctValue q.correct) ∨
      k.points ≠ q.points then
      some
        { questionId := q.id, prompt := q.prompt, correctFrom := q.correct, correctTo := k.correct,
          pointsFrom := q.points, pointsTo := k.points }
    else none

def regradeQuestions (source keys : List ExamVersionQuestionDTO) :
    List ExamVersionQuestionDTO × List ChangedQuestion :=
  (source.map (regradeQuestion keys), source.filterMap (changedQuestion keys))

/-! ## Attempts -/

/-- `points` and `maxPoints` of a score. -/
structure Totals where
  points : Number
  maxPoints : Number

def SessionScore.totals (s : SessionScore) : Totals := ⟨s.points, s.maxPoints⟩

/-- `fmt`. -/
def fmt (t : Totals) : String := .ofList t.points.val ++ "/" ++ .ofList t.maxPoints.val

/-- The event `score_regraded`. -/
structure ScoreRegraded where
  atMs : Int
  source : EventSource
  observation : String
  keysFromVersion : Nat
  keysFromVersionId : Nat
  before : Totals
  after : Totals
  reason : String
  actor : StaffId

/-- The audit entry `session.regraded`. -/
structure SessionRegraded where
  atMs : Int
  actor : StaffId
  examId : Nat
  keysFromVersion : Nat
  before : Totals
  after : Totals

/-- An attempt, with what hangs off it. -/
structure Attempt where
  id : Nat
  candidateName : String
  examVersionId : Option Nat
  status : SessionStatus
  score : Option SessionScore
  /-- `sessionAnswerValues`. -/
  answerValues : String → AnswerValue
  events : List ScoreRegraded
  audits : List SessionRegraded

/-- `scoreDiffers`. -/
def scoreDiffers (a b : SessionScore) : Bool :=
  if a.points ≠ b.points ∨ a.maxPoints ≠ b.maxPoints ∨
    a.perQuestion.length ≠ b.perQuestion.length then true
  else
    b.perQuestion.any fun q =>
      match a.perQuestion.reverse.find? fun o => o.questionId == q.questionId with
      | none => true
      | some o => o.points != q.points || o.maxPoints != q.maxPoints || o.correct != q.correct

/-- The audit entry `exam.regraded`. -/
structure ExamRegraded where
  atMs : Int
  actor : StaffId
  examId : Nat
  sessionsOnVersion : Nat
  keysFromVersion : Nat
  sessions : Nat
  unchanged : Nat
  questions : List String
  reason : String

/-- What a regrade reads and writes.  Ids are the keys of their tables; the questions of a version
are rows of one table too. -/
structure GradingDb (H : Type u) where
  versions : List (ExamVersion H)
  /-- The organisation that an exam belongs to. -/
  orgOf : Nat → Nat
  attempts : List Attempt
  audits : List ExamRegraded
  attempts_nodup : (attempts.map (·.id)).Nodup
  unique : ∀ v ∈ versions, UniqueIds v.snapshot.questions

structure RegradeRequest where
  sessionsOnVersionId : Nat
  keysFromVersionId : Nat
  apply : Bool
  reason : String

/-- A request as it arrives: who makes it, for which exam, and when its parts run. -/
structure RegradeCall where
  actor : StaffId
  orgId : Nat
  examId : Nat
  req : RegradeRequest
  now : Int
  /-- `m.now`, when an attempt is locked. -/
  lockedAt : Nat → Int

structure RegradeSessionDTO where
  sessionId : Nat
  candidateName : String
  before : Totals
  after : Totals
  changed : Bool

structure RegradeResultDTO where
  applied : Bool
  changedQuestions : List ChangedQuestion
  sessions : List RegradeSessionDTO
  inProgress : Nat

section

variable (js : JsStrings) (ar : PointArithmetic) {H : Type u}

/-- What a regrade with these questions comes to for an attempt. -/
def rescore (questions : List ExamVersionQuestionDTO) (keysVersionId : Nat) (now : Int)
    (a : Attempt) : SessionScore :=
  scoreAnswers js ar questions a.answerValues now (some keysVersionId)

/-- An attempt in the list of sessions. -/
def previewSession (questions : List ExamVersionQuestionDTO) (keysVersionId : Nat) (now : Int)
    (a : Attempt) : Option RegradeSessionDTO :=
  a.score.map fun score =>
    let after := rescore js ar questions keysVersionId now a
    { sessionId := a.id, candidateName := a.candidateName, before := score.totals, after := after.totals,
      changed := scoreDiffers score after }

/-- What is done with an attempt under its lock. -/
def regradeSession (call : RegradeCall) (questions : List ExamVersionQuestionDTO)
    (keys : ExamVersion H) (a : Attempt) : Attempt :=
  match a.score with
  | none => a
  | some before =>
    let now := call.lockedAt a.id
    let after := rescore js ar questions keys.id now a
    let previous := before.totals
    if scoreDiffers before after then
      { a with
        score := some
          { after with
            regrades := before.regrades ++ [
              { atMs := now, actor := call.actor, reason := call.req.reason, keysFromVersionId := keys.id,
                keysFromVersion := keys.number, previous := (previous.points, previous.maxPoints) }] }
        events := a.events ++ [
          { atMs := now
            source := .staff
            observation := "An administrator regraded the exam with the answer keys of version " ++
              toString keys.number ++
              " (score " ++ fmt previous ++ " → " ++ fmt after.totals ++ ")."
            keysFromVersion := keys.number
            keysFromVersionId := keys.id
            before := previous
            after := after.totals
            reason := call.req.reason
            actor := call.actor }]
        audits := a.audits ++ [
          { atMs := now, actor := call.actor, examId := call.examId, keysFromVersion := keys.number,
            before := previous,
            after := after.totals }] }
    else a

/-- A finished attempt with a score, on the version. -/
def onVersion (versionId : Nat) (a : Attempt) : Bool :=
  a.examVersionId == some versionId && decide a.status.isTerminal && a.score.isSome

/-- `withSession`, for one attempt of the table. -/
def withSession (attempts : List Attempt) (id : Nat) (f : Attempt → Attempt) : List Attempt :=
  attempts.map fun a => if a.id = id then f a else a

/-- A version of the exam, in the actor's organisation. -/
def findVersion (db : GradingDb H) (call : RegradeCall) (id : Nat) (field : String) :
    Except HttpError { v : ExamVersion H // v ∈ db.versions } :=
  match h : db.versions.find? fun v => v.id = id with
  | some v =>
    if v.examId ≠ call.examId ∨ db.orgOf v.examId ≠ call.orgId then
      .error (notFound ("Exam version not found (" ++ field ++ ")") "exam_version_not_found")
    else .ok ⟨v, List.mem_of_find?_eq_some h⟩
  | none => .error (notFound ("Exam version not found (" ++ field ++ ")") "exam_version_not_found")

/-- The attempts after a regrade that writes these sessions, one transaction each. -/
def writeSessions (call : RegradeCall) (questions : List ExamVersionQuestionDTO)
    (keys : ExamVersion H) (ids : List Nat) (attempts : List Attempt) : List Attempt :=
  ids.foldl (fun attempts id => withSession attempts id (regradeSession js ar call questions keys))
    attempts

theorem regradeSession_id (call : RegradeCall) (questions : List ExamVersionQuestionDTO)
    (keys : ExamVersion H)
    (a : Attempt) : (regradeSession js ar call questions keys a).id = a.id := by
  rw [regradeSession]
  split
  · rfl
  · dsimp only
    split <;> rfl

theorem withSession_ids (attempts : List Attempt) (id : Nat) {f : Attempt → Attempt}
    (hf : ∀ a, (f a).id = a.id) : (withSession attempts id f).map (·.id) = attempts.map (·.id) := by
  rw [withSession, map_map]
  refine map_congr_left fun a _ => ?_
  rw [Function.comp_apply]
  split
  · exact hf a
  · rfl

theorem writeSessions_ids (call : RegradeCall) (questions : List ExamVersionQuestionDTO)
    (keys : ExamVersion H) (ids : List Nat) (attempts : List Attempt) :
    (writeSessions js ar call questions keys ids attempts).map (·.id) = attempts.map (·.id) := by
  induction ids generalizing attempts with
  | nil => rfl
  | cons id ids ih =>
    rw [writeSessions, foldl_cons, ← writeSessions, ih]
    exact withSession_ids attempts id (regradeSession_id js ar call questions keys)

/-- The attempts that `regradeExam` reads. -/
def regradeRows (db : GradingDb H) (versionId : Nat) : List Attempt :=
  (db.attempts.filter (onVersion versionId)).take (REGRADE_MAX_SESSIONS + 1)

/-- Attempts that have not ended yet. -/
def inProgress (db : GradingDb H) (versionId : Nat) : Nat :=
  (db.attempts.filter fun a => a.examVersionId == some versionId &&
    !decide a.status.isTerminal).length

def regradeExam (db : GradingDb H) (call : RegradeCall) :
    Except HttpError (GradingDb H × RegradeResultDTO) := do
  let source ← findVersion db call call.req.sessionsOnVersionId "sessionsOnVersionId"
  let keys ← findVersion db call call.req.keysFromVersionId "keysFromVersionId"
  let (questions, changed) := regradeQuestions source.1.snapshot.questions keys.1.snapshot.questions
  let rows := regradeRows db source.1.id
  if REGRADE_MAX_SESSIONS < rows.length then
    throw (validationFailed ("More than " ++ toString REGRADE_MAX_SESSIONS ++
      " attempts are pinned to this version; regrade is limited to that many at once."))
  let sessions := rows.filterMap (previewSession js ar questions keys.1.id call.now)
  let toWrite := sessions.filter (·.changed)
  let result : RegradeResultDTO :=
    { applied := false, changedQuestions := changed, sessions, inProgress := inProgress db source.1.id }
  if !call.req.apply || toWrite.isEmpty then return (db, result)
  return ({ db with
      attempts := writeSessions js ar call questions keys.1 (toWrite.map (·.sessionId)) db.attempts
      audits := db.audits ++ [
        { atMs := call.now
          actor := call.actor
          examId := call.examId
          sessionsOnVersion := source.1.number
          keysFromVersion := keys.1.number
          sessions := toWrite.length
          unchanged := rows.length - toWrite.length
          questions := changed.map (·.questionId)
          reason := call.req.reason }]
      attempts_nodup := by
        rw [writeSessions_ids]
        exact db.attempts_nodup }, { result with applied := true })

/-- A request that is refused changes nothing. -/
def regradeStep (db : GradingDb H) (call : RegradeCall) : GradingDb H :=
  match regradeExam js ar db call with
  | .ok (db', _) => db'
  | .error _ => db

def runRegrades (db : GradingDb H) (calls : List RegradeCall) : GradingDb H :=
  calls.foldl (regradeStep js ar) db

end

/-! ## Questions of two versions -/

theorem keyById_eq_some {keys : List ExamVersionQuestionDTO} (hkeys : UniqueIds keys) {id : String}
    {k : ExamVersionQuestionDTO} : keyById keys id = some k ↔ k ∈ keys ∧ k.id = id := by
  constructor
  · intro h
    exact ⟨mem_reverse.1 (mem_of_find?_eq_some h), by simpa using find?_some h⟩
  · rintro ⟨hk, rfl⟩
    cases hfind : keyById keys k.id with
    | none => exact absurd (find?_eq_none.1 hfind k (mem_reverse.2 hk)) (by simp)
    | some k' =>
      have hk' := mem_reverse.1 (mem_of_find?_eq_some hfind)
      have hid : k'.id = k.id := by simpa using find?_some hfind
      rw [inj_on_of_nodup_map hkeys hk' hk hid]

theorem regradeQuestion_spec {keys : List ExamVersionQuestionDTO} (hkeys : UniqueIds keys)
    (q : ExamVersionQuestionDTO) : (∀ k ∈ keys, k.id = q.id → k.type = q.type →
      regradeQuestion keys q = { q with correct := k.correct, points := k.points }) ∧
    ((∀ k ∈ keys, k.id = q.id → k.type ≠ q.type) → regradeQuestion keys q = q) := by
  constructor
  · intro k hk hid htype
    rw [regradeQuestion, (keyById_eq_some hkeys).2 ⟨hk, hid⟩]
    exact if_neg (not_not_intro htype)
  · intro hnone
    rw [regradeQuestion]
    split
    · rfl
    next k hfind =>
      obtain ⟨hk, hid⟩ := (keyById_eq_some hkeys).1 hfind
      exact if_pos (hnone k hk hid)

theorem regradeQuestion_id (keys : List ExamVersionQuestionDTO) (q : ExamVersionQuestionDTO) :
    (regradeQuestion keys q).id = q.id := by
  rw [regradeQuestion]
  split
  · rfl
  · split <;> rfl

/-! ## Results -/

theorem foldl_scoreQuestion (js : JsStrings) (ar : PointArithmetic)
    (answerValues : String → AnswerValue) (qs : List ExamVersionQuestionDTO) (s : ScoreState) :
    (qs.foldl (scoreQuestion js ar answerValues) s).perQuestion.map (·.questionId) =
      s.perQuestion.map (·.questionId) ++ qs.map (·.id) := by
  induction qs generalizing s with
  | nil => exact (append_nil _).symm
  | cons q qs ih =>
    rw [foldl_cons, ih, scoreQuestion]
    simp

theorem scoreAnswers_ids (js : JsStrings) (ar : PointArithmetic) (qs : List ExamVersionQuestionDTO)
    (answerValues : String → AnswerValue) (now : Int) (keysVersionId : Option Nat) :
    (scoreAnswers js ar qs answerValues now keysVersionId).perQuestion.map (·.questionId) =
    qs.map (·.id) :=
  foldl_scoreQuestion js ar answerValues qs _

/-- The same totals, and the same result for each question. -/
structure SameResult (a b : SessionScore) : Prop where
  points : a.points = b.points
  maxPoints : a.maxPoints = b.maxPoints
  perQuestion : a.perQuestion.Perm b.perQuestion

variable {a b : SessionScore}

theorem SameResult.symm (h : SameResult a b) : SameResult b a :=
  ⟨h.points.symm, h.maxPoints.symm, h.perQuestion.symm⟩

theorem SameResult.trans {a b c : SessionScore} (h : SameResult a b) (h' : SameResult b c) :
    SameResult a c :=
  ⟨h.points.trans h'.points, h.maxPoints.trans h'.maxPoints, h.perQuestion.trans h'.perQuestion⟩

theorem find_result {l : List QuestionScore} (hl : (l.map (·.questionId)).Nodup) {q : QuestionScore}
    (hq : q ∈ l) : l.reverse.find? (fun o => o.questionId == q.questionId) = some q := by
  cases hfind : l.reverse.find? fun o => o.questionId == q.questionId with
  | none => exact absurd (find?_eq_none.1 hfind q (mem_reverse.2 hq)) (by simp)
  | some o =>
    have ho := mem_reverse.1 (mem_of_find?_eq_some hfind)
    have hid : o.questionId = q.questionId := by simpa using find?_some hfind
    rw [inj_on_of_nodup_map hl ho hq hid]

theorem scoreDiffers_iff (hb : (b.perQuestion.map (·.questionId)).Nodup) :
    scoreDiffers a b = true ↔ ¬ SameResult a b := by
  constructor
  · intro hdiffers hsame
    have ha : (a.perQuestion.map (·.questionId)).Nodup := (hsame.perQuestion.map _).nodup_iff.2 hb
    rw [scoreDiffers, if_neg, any_eq_true] at hdiffers
    · obtain ⟨q, hq, hdiffers⟩ := hdiffers
      rw [find_result ha (hsame.perQuestion.mem_iff.2 hq)] at hdiffers
      simp at hdiffers
    · rintro (h | h | h)
      · exact h hsame.points
      · exact h hsame.maxPoints
      · exact h hsame.perQuestion.length_eq
  · intro hnot
    by_contra hsame
    rw [scoreDiffers] at hsame
    split at hsame
    · exact hsame rfl
    next heq =>
      simp only [ne_eq, not_or, not_not] at heq
      obtain ⟨hpoints, hmax, hlen⟩ := heq
      rw [Bool.not_eq_true, any_eq_false] at hsame
      have hsub : b.perQuestion ⊆ a.perQuestion := by
        intro q hq
        have := hsame q hq
        split at this
        · exact absurd rfl this
        next o hfind =>
          have hid : o.questionId = q.questionId := by simpa using find?_some hfind
          have ho := mem_reverse.1 (mem_of_find?_eq_some hfind)
          have heq : o = q := by
            cases o
            simp_all
          exact heq ▸ ho
      have hperm := (subperm_of_subset hb.of_map hsub).perm_of_length_le hlen.le
      exact hnot ⟨hpoints, hmax, hperm.symm⟩

/-! ## What a request does -/

section

variable (js : JsStrings) (ar : PointArithmetic) {H : Type u}

/-- The request is for two versions of the exam, and for few enough attempts. -/
structure Accepted (db : GradingDb H) (call : RegradeCall)
    (source keys : ExamVersion H) : Prop where
  source_found : db.versions.find? (fun v => v.id = call.req.sessionsOnVersionId) = some source
  keys_found : db.versions.find? (fun v => v.id = call.req.keysFromVersionId) = some keys
  source_exam : source.examId = call.examId ∧ db.orgOf source.examId = call.orgId
  keys_exam : keys.examId = call.examId ∧ db.orgOf keys.examId = call.orgId
  few : (db.attempts.filter (onVersion source.id)).length ≤ REGRADE_MAX_SESSIONS

variable {db : GradingDb H} {call : RegradeCall}

theorem findVersion_eq {id : Nat} {field : String} {v : ExamVersion H}
    (h : db.versions.find? (fun v => v.id = id) = some v)
    (hexam : v.examId = call.examId ∧ db.orgOf v.examId = call.orgId) :
    findVersion db call id field = .ok ⟨v, mem_of_find?_eq_some h⟩ := by
  rw [findVersion]
  split
  next v' hfind =>
    obtain rfl : v = v' := Option.some.inj (h.symm.trans hfind)
    exact if_neg (not_or.2 ⟨not_not_intro hexam.1, not_not_intro hexam.2⟩)
  next hfind =>
    rw [h] at hfind
    cases hfind

theorem findVersion_ok {id : Nat} {field : String}
    {v : { v : ExamVersion H // v ∈ db.versions }} (h : findVersion db call id field = .ok v) :
    db.versions.find? (fun v => v.id = id) = some v.1 ∧ v.1.examId = call.examId ∧
    db.orgOf v.1.examId = call.orgId := by
  rw [findVersion] at h
  split at h
  next v' hfind =>
    split at h
    · cases h
    next hexam =>
      obtain rfl := Except.ok.inj h
      rw [not_or, not_not, not_not] at hexam
      exact ⟨hfind, hexam⟩
  next => cases h

theorem withSession_eq {attempts : List Attempt} {ids : List Nat} (hids : ids.Nodup) {f : Attempt → Attempt}
    (hf : ∀ a, (f a).id = a.id) : ids.foldl (fun attempts id => withSession attempts id f) attempts =
      attempts.map fun a => if a.id ∈ ids then f a else a := by
  induction ids generalizing attempts with
  | nil => simp
  | cons id ids ih =>
    obtain ⟨hid, hids⟩ := nodup_cons.1 hids
    rw [foldl_cons, ih hids, withSession, map_map]
    refine map_congr_left fun a _ => ?_
    rw [Function.comp_apply]
    by_cases ha : a.id = id
    · have hout : (f a).id ∉ ids := by rwa [hf, ha]
      rw [if_pos ha, if_neg hout, if_pos (ha ▸ mem_cons_self ..)]
    · rw [if_neg ha]
      by_cases hmem : a.id ∈ ids
      · rw [if_pos hmem, if_pos (mem_cons_of_mem _ hmem)]
      · rw [if_neg hmem, if_neg fun h => (mem_cons.1 h).elim ha hmem]

/-- The questions that a regrade scores with. -/
def regradedQuestions (source keys : ExamVersion H) : List ExamVersionQuestionDTO :=
  source.snapshot.questions.map (regradeQuestion keys.snapshot.questions)

/-- What a regrade does to an attempt. -/
def regradeAttempt (call : RegradeCall) (source keys : ExamVersion H) (a : Attempt) : Attempt :=
  if onVersion source.id a = true then regradeSession js ar call (regradedQuestions source keys)
    keys a else a

/-- The preview. -/
def previewOf (db : GradingDb H) (call : RegradeCall) (source keys : ExamVersion H) :
    List RegradeSessionDTO :=
  (db.attempts.filter (onVersion source.id)).filterMap
    (previewSession js ar (regradedQuestions source keys) keys.id call.now)

variable {source keys : ExamVersion H} {d : RegradeSessionDTO}

theorem mem_previewOf :
    d ∈ previewOf js ar db call source keys ↔ ∃ a ∈ db.attempts, onVersion source.id a = true ∧
      previewSession js ar (regradedQuestions source keys) keys.id call.now a = some d := by
  simp [previewOf, and_assoc]

variable {a : Attempt}

theorem previewSession_id {questions : List ExamVersionQuestionDTO}
    {keysVersionId : Nat} {now : Int}
    (h : previewSession js ar questions keysVersionId now a = some d) : d.sessionId = a.id := by
  rw [previewSession, Option.map_eq_some_iff] at h
  obtain ⟨score, -, rfl⟩ := h
  rfl

theorem previewOf_nodup (db : GradingDb H) (call : RegradeCall) (source keys : ExamVersion H) :
    ((previewOf js ar db call source keys).map (·.sessionId)).Nodup := by
  have hids : ∀ l : List Attempt,
      ((l.filterMap (previewSession js ar (regradedQuestions source keys) keys.id call.now)).map
      (·.sessionId)).Sublist (l.map (·.id)) := by
    intro l
    induction l with
    | nil => exact .slnil
    | cons a l ih =>
      cases h : previewSession js ar (regradedQuestions source keys) keys.id call.now a with
      | none =>
        rw [filterMap_cons_none h]
        exact ih.cons _
      | some d =>
        rw [filterMap_cons_some h, map_cons, previewSession_id js ar h]
        exact ih.cons_cons _
  exact ((hids _).trans (filter_sublist.map _)).nodup db.attempts_nodup

theorem regradeSession_unchanged {questions : List ExamVersionQuestionDTO}
    {now : Int} (h : previewSession js ar questions keys.id now a = some d)
    (hd : d.changed = false) : regradeSession js ar call questions keys a = a := by
  rw [previewSession, Option.map_eq_some_iff] at h
  obtain ⟨before, hscore, rfl⟩ := h
  have hsame : scoreDiffers before (rescore js ar questions keys.id (call.lockedAt a.id) a) = false := hd
  rw [regradeSession, hscore]
  simp [hsame]

theorem writeSessions_eq (db : GradingDb H) (call : RegradeCall) (source keys : ExamVersion H) :
    writeSessions js ar call (regradedQuestions source keys) keys
      (((previewOf js ar db call source keys).filter (·.changed)).map (·.sessionId)) db.attempts =
      db.attempts.map (regradeAttempt js ar call source keys) := by
  have hnodup : (((previewOf js ar db call source keys).filter (·.changed)).map (·.sessionId)).Nodup :=
    (filter_sublist.map _).nodup (previewOf_nodup js ar db call source keys)
  rw [writeSessions, withSession_eq hnodup
    (regradeSession_id js ar call (regradedQuestions source keys) keys)]
  refine map_congr_left fun a ha => ?_
  split
  next hmem =>
    obtain ⟨d, hd, hid⟩ := mem_map.1 hmem
    obtain ⟨a', ha', hon, hpreview⟩ := (mem_previewOf js ar).1 (mem_filter.1 hd).1
    rw [previewSession_id js ar hpreview] at hid
    obtain rfl := inj_on_of_nodup_map db.attempts_nodup ha' ha hid
    rw [regradeAttempt, if_pos hon]
  next hmem =>
    rw [regradeAttempt]
    split
    next hon =>
      have hscore : a.score.isSome = true := by
        simp only [onVersion, Bool.and_eq_true] at hon
        exact hon.2
      obtain ⟨before, hbefore⟩ := Option.isSome_iff_exists.1 hscore
      obtain ⟨d, hpreview⟩ :
          ∃ d, previewSession js ar (regradedQuestions source keys) keys.id call.now a = some d :=
        ⟨_, by rw [previewSession, hbefore, Option.map_some]⟩
      have hsame : d.changed = false := by
        by_contra hchanged
        rw [Bool.not_eq_false] at hchanged
        exact hmem (mem_map.2 ⟨d, mem_filter.2 ⟨(mem_previewOf js ar).2 ⟨a, ha, hon, hpreview⟩, hchanged⟩,
          previewSession_id js ar hpreview⟩)
      exact (regradeSession_unchanged js ar hpreview hsame).symm
    next => rfl

theorem regradeExam_accepted
    (h : Accepted db call source keys) : ∃ db' r, regradeExam js ar db call = .ok (db', r) ∧
      r.sessions = previewOf js ar db call source keys ∧ db'.versions = db.versions ∧ db'.orgOf = db.orgOf ∧
      (call.req.apply = true → db'.attempts = db.attempts.map (regradeAttempt js ar call source keys)) ∧
      (call.req.apply = false → db' = db) ∧
      ((∀ d ∈ previewOf js ar db call source keys, d.changed = false) → db' = db) := by
  have hrows : regradeRows db source.id = db.attempts.filter (onVersion source.id) :=
    take_of_length_le (Nat.le_succ_of_le h.few)
  have hfew : ¬ REGRADE_MAX_SESSIONS < (db.attempts.filter (onVersion source.id)).length :=
    not_lt.2 h.few
  have hsessions : (db.attempts.filter (onVersion source.id)).filterMap (previewSession js ar
      (regradeQuestions source.snapshot.questions keys.snapshot.questions).1 keys.id call.now) =
      previewOf js ar db call source keys := rfl
  have hwrite := writeSessions_eq js ar db call source keys
  simp only [regradeExam, findVersion_eq h.source_found h.source_exam,
    findVersion_eq h.keys_found h.keys_exam, hrows,
    if_neg hfew, hsessions, bind, Except.bind, pure, Except.pure]
  split
  next hnone =>
    refine ⟨db, _, rfl, rfl, rfl, rfl, fun happly => ?_, fun _ => rfl, fun _ => rfl⟩
    rw [happly, Bool.not_true, Bool.false_or, List.isEmpty_iff] at hnone
    rw [← hwrite, hnone]
    rfl
  next hsome =>
    rw [Bool.not_eq_true, Bool.or_eq_false_iff, Bool.not_eq_false', isEmpty_eq_false_iff] at hsome
    refine ⟨_, _, rfl, rfl, rfl, rfl, fun _ => hwrite, fun happly => ?_, fun hsame => ?_⟩
    · rw [hsome.1] at happly
      cases happly
    · refine absurd (filter_eq_nil_iff.2 fun d hd => ?_) hsome.2
      rw [hsame d hd]
      exact Bool.false_ne_true

theorem accepted_of_ok {res : GradingDb H × RegradeResultDTO}
    (h : regradeExam js ar db call = .ok res) : ∃ source keys, Accepted db call source keys := by
  cases hsource : findVersion db call call.req.sessionsOnVersionId "sessionsOnVersionId" with
  | error e =>
    simp only [regradeExam, hsource, bind, Except.bind] at h
    cases h
  | ok source =>
    cases hkeys : findVersion db call call.req.keysFromVersionId "keysFromVersionId" with
    | error e =>
      simp only [regradeExam, hsource, hkeys, bind, Except.bind] at h
      cases h
    | ok keys =>
      obtain ⟨hs, hsexam⟩ := findVersion_ok hsource
      obtain ⟨hk, hkexam⟩ := findVersion_ok hkeys
      refine ⟨source.1, keys.1, hs, hk, hsexam, hkexam, ?_⟩
      by_contra hmany
      have hrows : REGRADE_MAX_SESSIONS < (regradeRows db source.1.id).length := by
        rw [regradeRows, length_take]
        omega
      simp only [regradeExam, hsource, hkeys, bind, Except.bind, if_pos hrows] at h
      cases h

theorem rescore_ids (source keys : ExamVersion H) (keysVersionId : Nat) (now : Int) (a : Attempt) :
    (rescore js ar (regradedQuestions source keys) keysVersionId now a).perQuestion.map
      (·.questionId) = source.snapshot.questions.map (·.id) := by
  rw [rescore, scoreAnswers_ids, regradedQuestions, map_map]
  exact map_congr_left fun q _ => regradeQuestion_id keys.snapshot.questions q

theorem rescore_time (questions : List ExamVersionQuestionDTO) (keysVersionId : Nat)
    (now now' : Int) (a : Attempt) :
    SameResult (rescore js ar questions keysVersionId now a)
      (rescore js ar questions keysVersionId now' a) :=
  ⟨rfl, rfl, .refl _⟩

/-- Score, history, event and audit entry of a regrade that is written. -/
structure Written (keys : ExamVersion H) (a : Attempt) (before after : SessionScore)
    (a' : Attempt) : Prop where
  score : ∃ s entry, a'.score = some s ∧ SameResult s after ∧ s.regrades = before.regrades ++
    [entry] ∧ entry.previous = (before.points, before.maxPoints) ∧ entry.keysFromVersionId = keys.id
  event : ∃ e, a'.events = a.events ++ [e] ∧ e.before = before.totals ∧ e.after = after.totals
  audit : ∃ e, a'.audits = a.audits ++ [e] ∧ e.before = before.totals ∧ e.after = after.totals

/-- What a regrade leaves alone. -/
structure Keeps (a a' : Attempt) : Prop where
  id : a'.id = a.id
  candidateName : a'.candidateName = a.candidateName
  examVersionId : a'.examVersionId = a.examVersionId
  status : a'.status = a.status
  answerValues : a'.answerValues = a.answerValues
  scored : a'.score.isSome = a.score.isSome

theorem Keeps.refl (a : Attempt) : Keeps a a := ⟨rfl, rfl, rfl, rfl, rfl, rfl⟩

theorem Keeps.trans {a b c : Attempt} (h : Keeps a b) (h' : Keeps b c) : Keeps a c :=
  ⟨h'.id.trans h.id, h'.candidateName.trans h.candidateName, h'.examVersionId.trans h.examVersionId,
    h'.status.trans h.status, h'.answerValues.trans h.answerValues, h'.scored.trans h.scored⟩

theorem Keeps.onVersion {a a' : Attempt} (h : Keeps a a') (versionId : Nat) :
    onVersion versionId a' = onVersion versionId a := by
  simp only [Grading.onVersion, h.examVersionId, h.status, h.scored]

section

variable {source : ExamVersion H} (hsource : UniqueIds source.snapshot.questions)
  (call : RegradeCall) (keys : ExamVersion H) {a : Attempt} {before : SessionScore}

theorem regradeAttempt_keeps (call : RegradeCall) (source keys : ExamVersion H) (a : Attempt) :
    Keeps a (regradeAttempt js ar call source keys a) := by
  rw [regradeAttempt]
  split
  · rw [regradeSession]
    split
    · exact .refl a
    next before hscore =>
      dsimp only
      split
      · exact ⟨rfl, rfl, rfl, rfl, rfl, by rw [hscore]; rfl⟩
      · exact .refl a
  · exact .refl a

include hsource in
theorem regradeAttempt_spec (hon : onVersion source.id a = true) (hscore : a.score = some before) :
    (SameResult before (rescore js ar (regradedQuestions source keys) keys.id (call.lockedAt a.id) a) →
      regradeAttempt js ar call source keys a = a) ∧
    (¬ SameResult before (rescore js ar (regradedQuestions source keys) keys.id (call.lockedAt a.id) a) →
      Written keys a before (rescore js ar (regradedQuestions source keys) keys.id (call.lockedAt a.id) a)
        (regradeAttempt js ar call source keys a)) := by
  have hdiffers := scoreDiffers_iff (a := before)
    (b := rescore js ar (regradedQuestions source keys) keys.id (call.lockedAt a.id) a)
    (by rwa [rescore_ids])
  rw [regradeAttempt, if_pos hon, regradeSession, hscore]
  dsimp only
  constructor
  · intro hsame
    rw [if_neg]
    rw [hdiffers, not_not]
    exact hsame
  · intro hnot
    rw [if_pos (hdiffers.2 hnot)]
    exact ⟨⟨_, _, rfl, ⟨rfl, rfl, .refl _⟩, rfl, rfl, rfl⟩, ⟨_, rfl, rfl, rfl⟩, ⟨_, rfl, rfl, rfl⟩⟩

include hsource in
theorem regradeAttempt_result (hon : onVersion source.id a = true) (now : Int) :
    ∃ s, (regradeAttempt js ar call source keys a).score = some s ∧
      SameResult s (rescore js ar (regradedQuestions source keys) keys.id now a) := by
  have hsome : a.score.isSome = true := by
    simp only [onVersion, Bool.and_eq_true] at hon
    exact hon.2
  obtain ⟨before, hscore⟩ := Option.isSome_iff_exists.1 hsome
  obtain ⟨hkept, hwritten⟩ := regradeAttempt_spec js ar hsource call keys hon hscore
  have htime := rescore_time js ar (regradedQuestions source keys) keys.id
      (call.lockedAt a.id) now a
  by_cases hsame :
    SameResult before (rescore js ar (regradedQuestions source keys) keys.id (call.lockedAt a.id) a)
  · rw [hkept hsame]
    exact ⟨before, hscore, hsame.trans htime⟩
  · obtain ⟨s, -, hs, hres, -⟩ := (hwritten hsame).score
    exact ⟨s, hs, hres.trans htime⟩

end

/-! ## Several requests -/

/-- Versions, and of each attempt all but its score and what is written beside it. -/
structure Kept (db db' : GradingDb H) : Prop where
  versions : db'.versions = db.versions
  orgOf : db'.orgOf = db.orgOf
  attempts : List.Forall₂ Keeps db.attempts db'.attempts

theorem Kept.refl (db : GradingDb H) : Kept db db := ⟨rfl, rfl, forall₂_same.2 fun a _ => .refl a⟩

theorem forall₂_keeps_trans {l₁ l₂ l₃ : List Attempt} (h : List.Forall₂ Keeps l₁ l₂)
    (h' : List.Forall₂ Keeps l₂ l₃) : List.Forall₂ Keeps l₁ l₃ := by
  induction h generalizing l₃ with
  | nil => exact h'
  | cons ha _ ih =>
    cases h' with
    | cons ha' h' => exact .cons (ha.trans ha') (ih h')

theorem Kept.trans {db db' db'' : GradingDb H} (h : Kept db db') (h' : Kept db' db'') :
    Kept db db'' :=
  ⟨h'.versions.trans h.versions, h'.orgOf.trans h.orgOf, forall₂_keeps_trans h.attempts h'.attempts⟩

theorem forall₂_keeps_filter {l l' : List Attempt} (h : List.Forall₂ Keeps l l') (versionId : Nat) :
    (l'.filter (onVersion versionId)).length = (l.filter (onVersion versionId)).length := by
  induction h with
  | nil => rfl
  | @cons a a' l l' ha _ ih =>
    rw [filter_cons, filter_cons, ha.onVersion]
    split
    · rw [length_cons, length_cons, ih]
    · exact ih

variable {db' : GradingDb H}

theorem Kept.accepted (h : Kept db db')
    (hc : Accepted db call source keys) : Accepted db' call source keys where
  source_found := by rw [h.versions, hc.source_found]
  keys_found := by rw [h.versions, hc.keys_found]
  source_exam := by
    rw [h.orgOf]
    exact hc.source_exam
  keys_exam := by
    rw [h.orgOf]
    exact hc.keys_exam
  few := by
    rw [forall₂_keeps_filter h.attempts]
    exact hc.few

variable {r : RegradeResultDTO}

theorem Accepted.kept
    (hc : Accepted db call source keys) (hok : regradeExam js ar db call = .ok (db', r)) :
      Kept db db' ∧ r.sessions = previewOf js ar db call source keys ∧
      (call.req.apply = true → db'.attempts = db.attempts.map
        (regradeAttempt js ar call source keys)) ∧
      (call.req.apply = false → db' = db) ∧
      ((∀ d ∈ previewOf js ar db call source keys, d.changed = false) → db' = db) := by
  obtain ⟨db₁, r₁, hok₁, hsessions, hversions, horg, happly, hpreview, hnone⟩ :=
    regradeExam_accepted js ar hc
  obtain ⟨rfl, rfl⟩ := Prod.mk.inj (Except.ok.inj (hok₁.symm.trans hok))
  refine ⟨⟨hversions, horg, ?_⟩, hsessions, happly, hpreview, hnone⟩
  cases hreq : call.req.apply with
  | true =>
    rw [happly hreq, forall₂_map_right_iff]
    exact forall₂_same.2 fun a _ => regradeAttempt_keeps js ar call source keys a
  | false =>
    rw [hpreview hreq]
    exact forall₂_same.2 fun a _ => .refl a

theorem kept_regradeStep (db : GradingDb H) (call : RegradeCall) :
    Kept db (regradeStep js ar db call) := by
  rw [regradeStep]
  split
  next db' r hok =>
    obtain ⟨source, keys, hc⟩ := accepted_of_ok js ar hok
    exact (hc.kept js ar hok).1
  next => exact .refl db

theorem kept_runRegrades (db : GradingDb H) (calls : List RegradeCall) :
    Kept db (runRegrades js ar db calls) := by
  induction calls generalizing db with
  | nil => exact .refl db
  | cons call calls ih => exact (kept_regradeStep js ar db call).trans (ih _)

theorem unique_source (hc : Accepted db call source keys) : UniqueIds source.snapshot.questions :=
  db.unique source (mem_of_find?_eq_some hc.source_found)

theorem regraded_result
    (hc : Accepted db call source keys) (hok : regradeExam js ar db call = .ok (db', r))
    (happly : call.req.apply = true)
    (ha : a ∈ db'.attempts) (hon : onVersion source.id a = true) (now : Int) :
    ∃ s, a.score = some s ∧
    SameResult s (rescore js ar (regradedQuestions source keys) keys.id now a) := by
  obtain ⟨-, -, hattempts, -⟩ := hc.kept js ar hok
  rw [hattempts happly] at ha
  obtain ⟨a₀, -, rfl⟩ := mem_map.1 ha
  have hkeeps := regradeAttempt_keeps js ar call source keys a₀
  rw [hkeeps.onVersion] at hon
  obtain ⟨s, hs, hres⟩ := regradeAttempt_result js ar (unique_source hc) call keys hon now
  refine ⟨s, hs, ?_⟩
  rwa [rescore, hkeeps.answerValues]

theorem preview_regraded {call again : RegradeCall}
    (hc : Accepted db call source keys) (hok : regradeExam js ar db call = .ok (db', r))
    (happly : call.req.apply = true) : ∀ d ∈ previewOf js ar db' again source keys,
    d.changed = false := by
  intro d hd
  obtain ⟨a, ha, hon, hpreview⟩ := (mem_previewOf js ar).1 hd
  obtain ⟨s, hs, hres⟩ := regraded_result js ar hc hok happly ha hon again.now
  rw [previewSession, hs] at hpreview
  obtain rfl := Option.some.inj hpreview
  have hunique : UniqueIds source.snapshot.questions := unique_source hc
  by_contra hchanged
  rw [Bool.not_eq_false] at hchanged
  exact (scoreDiffers_iff (by rwa [rescore_ids])).1 hchanged hres

/-- The same versions again, by whomever and whenever. -/
def SameVersions (call again : RegradeCall) : Prop :=
  again.orgId = call.orgId ∧ again.examId = call.examId ∧
    again.req.sessionsOnVersionId = call.req.sessionsOnVersionId ∧
    again.req.keysFromVersionId = call.req.keysFromVersionId

theorem SameVersions.accepted {call again : RegradeCall}
    (h : SameVersions call again) (hc : Accepted db call source keys) :
    Accepted db again source keys := by
  obtain ⟨horg, hexam, hs, hk⟩ := h
  exact ⟨by rw [hs, hc.source_found], by rw [hk, hc.keys_found], by rw [horg, hexam]; exact hc.source_exam,
    by rw [horg, hexam]; exact hc.keys_exam, hc.few⟩

theorem preview_changed (hc : Accepted db call source keys) {preview : RegradeCall} {id : Nat} :
    (∃ d ∈ previewOf js ar db preview source keys, d.sessionId = id ∧ d.changed = true) ↔
      ∃ a ∈ db.attempts, a.id = id ∧ onVersion source.id a = true ∧ ∃ before, a.score = some before ∧
        ¬ SameResult before (rescore js ar (regradedQuestions source keys) keys.id (call.lockedAt a.id) a) := by
  have hids : (source.snapshot.questions.map (·.id)).Nodup := unique_source hc
  have hdiffers : ∀ (a : Attempt) (before : SessionScore), scoreDiffers before
      (rescore js ar (regradedQuestions source keys) keys.id preview.now a) = true ↔
      ¬ SameResult before (rescore js ar (regradedQuestions source keys) keys.id
        (call.lockedAt a.id) a) := fun a before =>
    scoreDiffers_iff (b := rescore js ar (regradedQuestions source keys) keys.id
      (call.lockedAt a.id) a) (by rwa [rescore_ids])
  constructor
  · rintro ⟨d, hd, hid, hchanged⟩
    obtain ⟨a, ha, hon, hpreview⟩ := (mem_previewOf js ar).1 hd
    rw [previewSession_id js ar hpreview] at hid
    rw [previewSession, Option.map_eq_some_iff] at hpreview
    obtain ⟨before, hscore, rfl⟩ := hpreview
    exact ⟨a, ha, hid, hon, before, hscore, (hdiffers a before).1 hchanged⟩
  · rintro ⟨a, ha, hid, hon, before, hscore, hnot⟩
    have hpreview : previewSession js ar (regradedQuestions source keys) keys.id preview.now a = some
        { sessionId := a.id, candidateName := a.candidateName, before := before.totals
          after := (rescore js ar (regradedQuestions source keys) keys.id preview.now a).totals
          changed := scoreDiffers before (rescore js ar (regradedQuestions source keys) keys.id preview.now a) } := by
      rw [previewSession, hscore, Option.map_some]
    exact ⟨_, (mem_previewOf js ar).2 ⟨a, ha, hon, hpreview⟩, hid, (hdiffers a before).2 hnot⟩

/-- **Regrading.**  For an accepted regrade of the attempts on `source` with `keys`: the questions
of both versions with one type take over keys and points, and no others; an attempt is written, all
parts together, when its result changes and only then; the preview lists these attempts; a
repetition writes nothing; and after any requests before it, the attempts have the results that it
alone would give them. -/
theorem regrading_forgets {db db' : GradingDb H} {call : RegradeCall} {r : RegradeResultDTO}
    (hok : regradeExam js ar db call = .ok (db', r)) (happly : call.req.apply = true) :
    ∃ source keys, Accepted db call source keys ∧
    (∀ q ∈ source.snapshot.questions,
      (∀ k ∈ keys.snapshot.questions, k.id = q.id → k.type = q.type →
        regradeQuestion keys.snapshot.questions q = { q with correct := k.correct, points := k.points }) ∧
      ((∀ k ∈ keys.snapshot.questions, k.id = q.id → k.type ≠ q.type) → regradeQuestion keys.snapshot.questions q = q)) ∧
    List.Forall₂ (fun a a' =>
      (onVersion source.id a = false → a' = a) ∧
      ∀ before, onVersion source.id a = true → a.score = some before →
        let after := rescore js ar (regradedQuestions source keys) keys.id (call.lockedAt a.id) a
        (SameResult before after → a' = a) ∧ (¬ SameResult before after → Written keys a before after a'))
      db.attempts db'.attempts ∧
    (∀ now, ∃ preview, regradeExam js ar db { call with now, req := { call.req with apply := false } } = .ok (db, preview) ∧
      ∀ id, (∃ d ∈ preview.sessions, d.sessionId = id ∧ d.changed = true) ↔
        ∃ a ∈ db.attempts, a.id = id ∧ onVersion source.id a = true ∧ ∃ before, a.score = some before ∧
          ¬ SameResult before (rescore js ar (regradedQuestions source keys) keys.id (call.lockedAt a.id) a)) ∧
    (∀ again, SameVersions call again → ∃ r', regradeExam js ar db' again = .ok (db', r')) ∧
    ∀ calls, List.Forall₂ (fun a b => a.id = b.id ∧ (onVersion source.id b = true →
      ∃ s t, a.score = some s ∧ b.score = some t ∧ SameResult s t))
      (runRegrades js ar db (calls ++ [call])).attempts (runRegrades js ar db [call]).attempts := by
  obtain ⟨source, keys, hc⟩ := accepted_of_ok js ar hok
  have hsource := unique_source hc
  have hkeys : UniqueIds keys.snapshot.questions :=
    db.unique keys (mem_of_find?_eq_some hc.keys_found)
  obtain ⟨hkept, -, hattempts, -⟩ := hc.kept js ar hok
  refine ⟨source, keys, hc, fun q _ => regradeQuestion_spec hkeys q, ?_, fun now => ?_,
    fun again hsame => ?_, fun calls => ?_⟩
  · rw [hattempts happly, forall₂_map_right_iff]
    refine forall₂_same.2 fun a _ => ⟨fun hoff => ?_, fun before hon hscore => ?_⟩
    · rw [regradeAttempt, hoff]
      rfl
    · exact regradeAttempt_spec js ar hsource call keys hon hscore
  · have hc' : Accepted db { call with now, req := { call.req with apply := false } } source keys :=
      have hsame : SameVersions call { call with now, req := { call.req with apply := false } } :=
        ⟨rfl, rfl, rfl, rfl⟩
      hsame.accepted hc
    obtain ⟨db₁, preview, hok₁, hsessions, -, -, -, hsame, -⟩ := regradeExam_accepted js ar hc'
    rw [hsame rfl] at hok₁
    refine ⟨preview, hok₁, fun id => ?_⟩
    rw [hsessions]
    exact preview_changed js ar hc
  · have hc' := hsame.accepted (hkept.accepted hc)
    obtain ⟨db₂, r₂, hok₂, -⟩ := regradeExam_accepted js ar hc'
    obtain ⟨-, -, -, -, hnone⟩ := hc'.kept js ar hok₂
    rw [hnone (preview_regraded js ar hc hok happly)] at hok₂
    exact ⟨r₂, hok₂⟩
  · have hrun : Kept db (runRegrades js ar db calls) := kept_runRegrades js ar db calls
    obtain ⟨db₁, r₁, hok₁, -, -, -, hattempts₁, -⟩ := regradeExam_accepted js ar (hrun.accepted hc)
    have hfirst : runRegrades js ar db (calls ++ [call]) = db₁ := by
      rw [runRegrades, foldl_append]
      change regradeStep js ar (runRegrades js ar db calls) call = db₁
      rw [regradeStep, hok₁]
    have hlast : runRegrades js ar db [call] = db' := by
      rw [runRegrades, foldl_cons, foldl_nil, regradeStep, hok]
    rw [hfirst, hlast, hattempts₁ happly, hattempts happly, forall₂_map_left_iff, forall₂_map_right_iff]
    refine (hrun.attempts.imp fun a b hab => ?_).flip
    have hon := (regradeAttempt_keeps js ar call source keys a).onVersion source.id
    refine ⟨?_, fun h => ?_⟩
    · rw [(regradeAttempt_keeps js ar call source keys b).id,
        (regradeAttempt_keeps js ar call source keys a).id, hab.id]
    rw [hon] at h
    obtain ⟨t, ht, htres⟩ := regradeAttempt_result js ar hsource call keys h 0
    obtain ⟨s, hs, hsres⟩ := regradeAttempt_result js ar hsource call keys (a := b) (by rwa [hab.onVersion]) 0
    rw [rescore, hab.answerValues] at hsres
    exact ⟨s, t, hs, ht, hsres.trans htres.symm⟩

end

/-- A question for one point. -/
def pointFor (id : String) (type : QuestionType) (key : String) : ExamVersionQuestionDTO :=
  { id, type, prompt := "", options := [], correct := [key],
    points := ⟨['1'], by simp [Json.numberChars]⟩ }

/-- A version with a choice and a second question. -/
def keyVersion (id : Nat) (key : String) (second : ExamVersionQuestionDTO) (hne : second.id ≠ "q") :
    { v : ExamVersion Unit // UniqueIds v.snapshot.questions } :=
  ⟨{ id
     examId := 1
     number := id
     snapshot :=
       { title := "", description := "", instructions := "", durationSec := ⟨['9'], by simp [Json.numberChars]⟩
         policy := [], questions := [pointFor "q" .singleChoice key, second] }
     contentHash := none
     changes := ⟨[], [], [], []⟩
     reason := .published }, List.nodup_cons.2 ⟨by simpa [pointFor] using hne.symm, List.nodup_singleton _⟩⟩

/-- Version 1 has a wrong key for the choice; version 2 puts it right, and asks the second question
in another way. -/
def wrongKey := keyVersion 1 "a" (pointFor "r" .shortText "x") (by decide)
def rightKey := keyVersion 2 "b" (pointFor "r" .numeric "7") (by decide)
def thirdKey := keyVersion 3 "c" (pointFor "s" .shortText "y") (by decide)

def asciiStrings : JsStrings := ⟨id, id, fun _ => ""⟩

/-- Sums up to two. -/
def twoPoints : PointArithmetic where
  zero := ⟨['0'], by simp [Json.numberChars]⟩
  add a b :=
    if a.val = ['0'] then b else if b.val = ['0'] then a else ⟨['2'], by simp [Json.numberChars]⟩
  round := id

/-- An attempt on version 1, with the score that its keys give. -/
def attemptOn (id : Nat) (status : SessionStatus) (answers : String → AnswerValue) : Attempt where
  id := id
  candidateName := ""
  examVersionId := some 1
  status := status
  score := some (scoreAnswers asciiStrings twoPoints wrongKey.1.snapshot.questions
    answers 0 (some 1))
  answerValues := answers
  events := []
  audits := []

/-- Two attempts with the right choice, one with the wrong one, and one that has not ended. -/
def wrongKeyDb : GradingDb Unit where
  versions := [wrongKey.1, rightKey.1, thirdKey.1]
  orgOf _ := 1
  attempts :=
    [attemptOn 1 .submitted fun q => .text (if q = "q" then "b" else "x"),
      attemptOn 2 .terminated fun _ => .text "b",
      attemptOn 3 .submitted fun _ => .text "a", attemptOn 4 .active fun _ => .text "b"]
  audits := []
  attempts_nodup := by decide
  unique v hv := by
    simp only [List.mem_cons, List.not_mem_nil, or_false] at hv
    rcases hv with rfl | rfl | rfl
    exacts [wrongKey.2, rightKey.2, thirdKey.2]

def keyCall (keys : Nat) : RegradeCall where
  actor := ⟨1⟩
  orgId := 1
  examId := 1
  req := { sessionsOnVersionId := 1, keysFromVersionId := keys, apply := true, reason := "" }
  now := 0
  lockedAt _ := 0

/-- The attempts get what the right key gives them, whether or not version 3 came first, and the one
going on keeps its score. -/
theorem regrading_forgets_wrong_key :
    ∃ db' r, regradeExam asciiStrings twoPoints wrongKeyDb (keyCall 2) = .ok (db', r) ∧
      (db'.attempts.map fun a => a.score.map (·.points.val)) = [some ['2'], some ['1'], some ['0'],
        some ['0']] ∧
      (wrongKeyDb.attempts.map fun a => a.score.map (·.points.val)) = [some ['1'], some ['0'],
        some ['1'], some ['0']] ∧
      (∃ r', regradeExam asciiStrings twoPoints db' (keyCall 2) = .ok (db', r')) ∧
      List.Forall₂ (fun a b => a.id = b.id ∧ (onVersion 1 b = true →
          ∃ s t, a.score = some s ∧ b.score = some t ∧ SameResult s t))
        (runRegrades asciiStrings twoPoints wrongKeyDb [keyCall 3, keyCall 2]).attempts
        (runRegrades asciiStrings twoPoints wrongKeyDb [keyCall 2]).attempts := by
  have hc : Accepted wrongKeyDb (keyCall 2) wrongKey.1 rightKey.1 :=
    ⟨rfl, rfl, ⟨rfl, rfl⟩, ⟨rfl, rfl⟩, by decide⟩
  obtain ⟨db', r, hok, -, -, -, hattempts, -⟩ := regradeExam_accepted asciiStrings twoPoints hc
  obtain ⟨source, keys, hc', -, -, -, hagain, hlast⟩ := regrading_forgets asciiStrings twoPoints hok rfl
  obtain rfl : wrongKey.1 = source := Option.some.inj hc'.source_found
  refine ⟨db', r, hok, ?_, by decide +kernel, hagain (keyCall 2) ⟨rfl, rfl, rfl, rfl⟩, hlast [keyCall 3]⟩
  rw [hattempts rfl]
  decide +kernel

end SmartProctoring.Grading
