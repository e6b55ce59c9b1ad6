import SmartProctoring.Lib.JsChar
import SmartProctoring.Server.ExamVersions

/-!
# Grading

`services/grading.ts`: one answer against a question's keys (`isAnswerCorrect`), and the answers of
an attempt against the questions of a version (`scoreAnswers`).  Numbers are exact; the Unicode
functions of JavaScript's strings are parameters (`JsStrings`), as is the arithmetic of points
(`PointArithmetic`).
-/

set_option autoImplicit false

namespace SmartProctoring.Grading

open JsChar

/-- What is left open of JavaScript's strings. -/
structure JsStrings where
  /-- `normalize('NFKC')`. -/
  nfkc : List Char → List Char
  toLowerCase : List Char → List Char
  /-- `String(n)`. -/
  numberText : Rat → String

/-! ## Texts -/

/-- `s.replace(/\s+/g, ' ')`. -/
def collapseSpaces : List Char → List Char
  | [] => []
  | c :: s =>
    if isSpace c then if s.head?.any isSpace then collapseSpaces s else ' ' :: collapseSpaces s
      else c :: collapseSpaces s

def normalizeText (js : JsStrings) (s : List Char) : List Char :=
  js.toLowerCase (collapseSpaces (trim (js.nfkc s)))

/-! ## Numbers -/

/-- `\d`. -/
def isDigit (c : Char) : Bool := decide ('0' ≤ c) && decide (c ≤ '9')

/-- `\w`. -/
def isWord (c : Char) : Bool :=
  isDigit c || (decide ('a' ≤ c) && decide (c ≤ 'z')) ||
  (decide ('A' ≤ c) && decide (c ≤ 'Z')) || c == '_'

/-- `(?=\d{3}\b)`. -/
def groupAhead : List Char → Bool
  | a :: b :: c :: s => isDigit a && isDigit b && isDigit c && !s.head?.any isWord
  | _ => false

/-- `s.replace(/,(?=\d{3}\b)/g, '')`. -/
def withoutGrouping : List Char → List Char
  | [] => []
  | c :: s => if c = ',' ∧ groupAhead s = true then withoutGrouping s else c :: withoutGrouping s

/-- `s.replace(',', '.')`. -/
def commaToPoint : List Char → List Char
  | [] => []
  | c :: s => if c = ',' then '.' :: s else c :: commaToPoint s

/-- The digits at the beginning, and the rest. -/
def spanDigits (s : List Char) : List Char × List Char := (s.takeWhile isDigit, s.dropWhile isDigit)

/-- A sign at the beginning, if there is one. -/
def spanSign : List Char → Bool × List Char
  | '-' :: s => (true, s)
  | '+' :: s => (false, s)
  | s => (false, s)

def digitsValue (ds : List Char) : Nat := ds.foldl (fun n c => 10 * n + (c.toNat - '0'.toNat)) 0

/-- `([eE][+-]?\d+)?$`. -/
def exponentPart : List Char → Option Int
  | [] => some 0
  | c :: s =>
    if c = 'e' ∨ c = 'E' then
      let (negative, s) := spanSign s
      let (ds, s) := spanDigits s
      if ds = [] ∨ s ≠ [] then none else some (if negative then -(digitsValue ds : Int) else digitsValue ds)
    else none

/-- A number times a power of ten. -/
def scale10 (q : Rat) : Int → Rat
  | .ofNat n => q * 10 ^ n
  | .negSucc n => q / 10 ^ (n + 1)

/-- `Number(t)` where `/^[+-]?(\d+\.?\d*|\.\d+)([eE][+-]?\d+)?$/` accepts `t`. -/
def decimalNumber (t : List Char) : Option Rat :=
  let (negative, s) := spanSign t
  let (whole, s) := spanDigits s
  let (fraction, s) := if s.head? = some '.' then spanDigits s.tail else ([], s)
  if whole = [] ∧ fraction = [] then none
  else (exponentPart s).map fun e =>
    let n : Rat := scale10 (digitsValue (whole ++ fraction)) (e - fraction.length)
    if negative then -n else n

/-- `toNumber` of a string. -/
def textToNumber (v : List Char) : Option Rat :=
  decimalNumber (commaToPoint (withoutGrouping ((trim v).filter fun c => !isSpace c)))

/-- `toNumber`. -/
def toNumber : AnswerValue → Option Rat
  | .number q => some q
  | .text s => textToNumber s.toList
  | _ => none

/-! ## One answer -/

/-- The tolerance of a key: what it gives after `±` or `|`, else relative to the target. -/
def tolerance (target : Rat) (tolStr : Option (List Char)) : Rat :=
  match tolStr with
  | some t => (textToNumber t).getD 0
  | none => max (1 / 10 ^ 9) (1 / 10 ^ 6 * |target|)

/-- One key of a numeric question. -/
def numericKeyAccepts (v : Rat) (c : List Char) : Bool :=
  let parts := c.splitOnP fun c => c == '±' || c == '|'
  match textToNumber (parts.headD []) with
  | none => false
  | some target => decide (|v - target| ≤ |tolerance target parts[1]?| + 1 / 10 ^ 12)

/-- `isAnswerCorrect`; `none` where an answer is not graded automatically. -/
def isAnswerCorrect (js : JsStrings) (type : QuestionType) (correct : List String)
    (value : AnswerValue) : Option Bool :=
  if type = .longText then none
  else if correct = [] then none
  else if value = .null then some false
  else
    match type with
    | .singleChoice =>
      let v := match value with
        | .texts l => if l.length = 1 then l.head? else none
        | .text s => some s
        | .number q => some (js.numberText q)
        | .null => none
      some (v.any fun v => v == correct.headD "")
    | .multipleChoice =>
      let v := match value with
        | .texts l => l
        | .text s => [s]
        | .number q => [js.numberText q]
        | .null => []
      some (v.dedup.length == correct.dedup.length && v.all (· ∈ correct))
    | .shortText =>
      let text := match value with
        | .text s => some s
        | .number q => some (js.numberText q)
        | _ => none
      some (text.any fun s =>
        let v := normalizeText js s.toList
        !v.isEmpty && correct.any fun c => normalizeText js c.toList == v)
    | .numeric =>
      match toNumber value with
      | none => some false
      | some v => some (correct.any fun c => numericKeyAccepts v c.toList)
    | .longText => none

/-! ## An attempt -/

open Json (Number)

/-- The arithmetic of points. -/
structure PointArithmetic where
  zero : Number
  add : Number → Number → Number
  /-- `Math.round(x * 1000) / 1000`. -/
  round : Number → Number

structure QuestionScore where
  questionId : String
  points : Number
  maxPoints : Number
  correct : Option Bool

/-- A regrade in the history of a score, with the score before it. -/
structure RegradeEntry where
  atMs : Int
  actor : StaffId
  reason : String
  keysFromVersionId : Nat
  keysFromVersion : Nat
  previous : Number × Number

structure SessionScore where
  points : Number
  maxPoints : Number
  autoGraded : Bool
  gradedAt : Int
  perQuestion : List QuestionScore
  keysVersionId : Option Nat
  /-- Explicit regrades, oldest first. -/
  regrades : List RegradeEntry := []

/-- What the loop of `scoreAnswers` carries along. -/
structure ScoreState where
  points : Number
  maxPoints : Number
  autoGraded : Bool := true
  perQuestion : List QuestionScore := []

def scoreQuestion (js : JsStrings) (ar : PointArithmetic) (answerValues : String → AnswerValue)
    (s : ScoreState) (q : ExamVersionQuestionDTO) : ScoreState :=
  let correct := isAnswerCorrect js q.type q.correct (answerValues q.id)
  let p := if correct = some true then q.points else ar.zero
  { points := ar.add s.points p
    maxPoints := ar.add s.maxPoints q.points
    autoGraded := if correct = none then false else s.autoGraded
    perQuestion := s.perQuestion ++ [⟨q.id, p, q.points, correct⟩] }

def scoreAnswers (js : JsStrings) (ar : PointArithmetic) (qs : List ExamVersionQuestionDTO)
    (answerValues : String → AnswerValue) (now : Int) (keysVersionId : Option Nat) : SessionScore :=
  let s := qs.foldl (scoreQuestion js ar answerValues) { points := ar.zero, maxPoints := ar.zero }
  { points := ar.round s.points
    maxPoints := s.maxPoints
    autoGraded := s.autoGraded
    gradedAt := now
    perQuestion := s.perQuestion
    keysVersionId }

end SmartProctoring.Grading
