import SmartProctoring.Lib.Stringify

/-!
# The events of a session as CSV

`services/reports-csv.ts`.  A reader of RFC 4180 gets back the cells that were written, whatever is
in them, and none of them is a formula to a spreadsheet.  How a number is written, and the text of a
time, are parameters.
-/

set_option autoImplicit false

namespace SmartProctoring.ReportsCsv

open List JsText

def cr : CodeUnit := 13
def lf : CodeUnit := 10
def CSV_BOM : CodeUnit := 0xFEFF

def EVENTS_CSV_COLUMNS : List String :=
  ["id", "type", "category", "severity", "title", "observation", "startedAt", "endedAt",
    "durationSec",
    "confidence", "reviewStatus", "reviewedBy", "deliveredLate", "evidenceCount"]

inductive Cell (ν : Type)
  | string (s : Text)
  | number (value : ν)
  | boolean (b : Bool)
  | null

/-- `FORMULA_START`. -/
def formulaStart (s : Text) : Bool := s.head?.any (· ∈ ([61, 43, 45, 64, 9, 13] : List CodeUnit))

/-- What a reader has to tell apart from a field's text. -/
def special : List CodeUnit := [mark, comma, cr, lf]

/-- A text that a spreadsheet would take for a formula gets an apostrophe. -/
def guarded (s : Text) : Text := if formulaStart s then 39 :: s else s

def double (c : CodeUnit) : Text := if c = mark then [mark, mark] else [c]

def quoted (s : Text) : Text :=
  if s.any (· ∈ special) then mark :: (s.flatMap double ++ [mark]) else s

variable {ν : Type} (number : ν → Text)

/-- The text of a cell. -/
def Cell.text : Cell ν → Text
  | .null => []
  | .number value => number value
  | .boolean b => ascii (if b then "true" else "false")
  | .string s => guarded s

def csvCell : Cell ν → Text
  | .string s => quoted (guarded s)
  | cell => cell.text number

def csvRow (cells : List (Cell ν)) : Text := intercalate [comma] (cells.map (csvCell number))

/-- What the export reads of an event.  The numbers are as they are rounded. -/
structure EventDTO (ν : Type) where
  id : Text
  type : Text
  category : Text
  severity : Text
  title : Text
  observation : Text
  startedAt : Int
  endedAt : Option Int
  durationSec : Option ν
  confidence : Option ν
  reviewStatus : Text
  reviewByName : Option Text
  reviewBy : Option Text
  deliveredLate : Bool
  evidenceLength : ν

def eventCsvCells (iso : Int → Text) (e : EventDTO ν) : List (Cell ν) :=
  let text (s : Option Text) := s.elim .null Cell.string
  let num (v : Option ν) := v.elim .null Cell.number
  [.string e.id, .string e.type, .string e.category, .string e.severity, .string e.title,
    .string e.observation, .string (iso e.startedAt), text (e.endedAt.map iso), num e.durationSec,
    num e.confidence, .string e.reviewStatus, text (e.reviewByName <|> e.reviewBy),
    .boolean e.deliveredLate, .number e.evidenceLength]

def eventsToCsv (iso : Int → Text) (events : List (EventDTO ν)) : Text :=
  let lines := csvRow number (EVENTS_CSV_COLUMNS.map fun c => .string (ascii c)) ::
    events.map fun e => csvRow number (eventCsvCells iso e)
  CSV_BOM :: (intercalate [cr, lf] lines ++ [cr, lf])

/-! ## The reader -/

inductive Mode | start | bare | inQuotes | closed | lineEnd
  deriving DecidableEq

/-- The rows, the fields of the row so far, and the field so far. -/
structure Reader where
  rows : List (List Text) := []
  row : List Text := []
  field : Text := []
  mode : Mode := .start

def Reader.read (s : Reader) (c : CodeUnit) : Reader :=
  match s.mode with
  | .inQuotes => if c = mark then { s with mode := .closed } else { s with field := s.field ++ [c] }
  | .lineEnd => { s with mode := .start }
  | mode =>
    if c = comma then { s with row := s.row ++ [s.field], field := [], mode := .start }
    else if c = cr then ⟨s.rows ++ [s.row ++ [s.field]], [], [], .lineEnd⟩
    else if c = mark ∧ mode ≠ .bare then
      { s with field := if mode = .closed then s.field ++ [mark] else s.field, mode := .inQuotes }
    else { s with field := s.field ++ [c], mode := .bare }

/-- The rows of a document, as RFC 4180 has it. -/
def readCsv (document : Text) : List (List Text) :=
  ((if document.head? = some CSV_BOM then document.tail else document).foldl Reader.read {}).rows

variable (rows : List (List Text)) (row : List Text) (field : Text)

theorem read_double (t : Text) :
    (t.flatMap double).foldl Reader.read ⟨rows, row, field, .inQuotes⟩ =
      ⟨rows, row, field ++ t, .inQuotes⟩ := by
  induction t generalizing field with
  | nil => simp
  | cons c t ih =>
    rw [flatMap_cons, foldl_append, double]
    split
    next hc =>
      subst hc
      simpa [Reader.read, comma, cr, mark] using ih (field ++ [mark])
    next hc => simpa [Reader.read, hc] using ih (field ++ [c])

theorem read_bare {t : Text} (h : ∀ c ∈ t, c ∉ special) :
    t.foldl Reader.read ⟨rows, row, field, .bare⟩ = ⟨rows, row, field ++ t, .bare⟩ := by
  induction t generalizing field with
  | nil => simp
  | cons c t ih =>
    obtain ⟨hc, ht⟩ := forall_mem_cons.1 h
    simp only [special, mem_cons, not_or] at hc
    simpa [Reader.read, hc] using ih (field ++ [c]) ht

theorem read_quoted (t : Text) : ∃ mode, (mode = .start ∨ mode = .bare ∨ mode = .closed) ∧
    (quoted t).foldl Reader.read ⟨rows, row, [], .start⟩ = ⟨rows, row, t, mode⟩ := by
  rw [quoted]
  split
  · refine ⟨.closed, by simp, ?_⟩
    rw [foldl_cons, foldl_append]
    have hstart : Reader.read ⟨rows, row, [], .start⟩ mark = ⟨rows, row, [], .inQuotes⟩ := by
      simp [Reader.read, comma, cr, mark]
    rw [hstart, read_double]
    simp [Reader.read]
  next hplain =>
    cases t with
    | nil => exact ⟨.start, by simp, rfl⟩
    | cons c t =>
      simp only [any_eq_true, decide_eq_true_eq, not_exists, not_and] at hplain
      obtain ⟨hc, ht⟩ := forall_mem_cons.1 hplain
      simp only [special, mem_cons, not_or] at hc
      refine ⟨.bare, by simp, ?_⟩
      simpa [Reader.read, hc] using read_bare rows row [c] ht

theorem read_row (t : Text) (ts : List Text) :
    (intercalate [comma] ((t :: ts).map quoted) ++ [cr, lf]).foldl Reader.read ⟨rows, row, [], .start⟩ =
      ⟨rows ++ [row ++ t :: ts], [], [], .start⟩ := by
  induction ts generalizing t row with
  | nil =>
    obtain ⟨mode, hmode, hread⟩ := read_quoted rows row t
    rw [map_singleton, intercalate_singleton, foldl_append, hread]
    rcases hmode with rfl | rfl | rfl <;> simp [Reader.read, comma, cr]
  | cons u ts ih =>
    obtain ⟨mode, hmode, hread⟩ := read_quoted rows row t
    rw [map_cons, map_cons, intercalate_cons_cons, append_assoc, append_assoc, foldl_append, hread,
      foldl_append]
    have hnext : [comma].foldl Reader.read ⟨rows, row, t, mode⟩ = ⟨rows, row ++ [t], [], .start⟩ := by
      rcases hmode with rfl | rfl | rfl <;> simp [Reader.read]
    rw [hnext, ← map_cons, ih]
    simp

/-- What is used of `String(value)`: no text of a number needs quotes. -/
def PlainNumbers : Prop := ∀ v, ∀ c ∈ number v, c ∉ special

variable {number}

theorem csvCell_eq (hnumber : PlainNumbers number) (c : Cell ν) :
    csvCell number c = quoted (c.text number) := by
  cases c with
  | null | string => rfl
  | boolean b =>
    change ascii _ = quoted (ascii _)
    cases b <;> decide
  | number v =>
    change number v = quoted (number v)
    rw [quoted, if_neg (by simpa using hnumber v)]

theorem read_lines (hnumber : PlainNumbers number) (cells : List (Cell ν))
    (lines : List (List (Cell ν))) (h : ∀ l ∈ cells :: lines, l ≠ []) :
    (intercalate [cr, lf] ((cells :: lines).map (csvRow number)) ++ [cr, lf]).foldl Reader.read
        ⟨rows, [], [], .start⟩ =
      ⟨rows ++ (cells :: lines).map (·.map (Cell.text number)), [], [], .start⟩ := by
  have hrow : ∀ l : List (Cell ν), l ≠ [] → ∀ rows,
      (csvRow number l ++ [cr, lf]).foldl Reader.read ⟨rows, [], [], .start⟩ =
        ⟨rows ++ [l.map (Cell.text number)], [], [], .start⟩ := by
    intro l hl rows
    obtain ⟨c, cs, rfl⟩ := exists_cons_of_ne_nil hl
    have hcells : (c :: cs).map (csvCell number) = ((c :: cs).map (Cell.text number)).map quoted := by
      rw [map_map]
      exact map_congr_left fun c _ => csvCell_eq hnumber c
    rw [csvRow, hcells]
    exact read_row rows [] _ _
  induction lines generalizing cells rows with
  | nil => simpa using hrow cells (h _ mem_cons_self) rows
  | cons l lines ih =>
    obtain ⟨hcells, hlines⟩ := forall_mem_cons.1 h
    rw [map_cons, map_cons, intercalate_cons_cons, ← map_cons, append_assoc, foldl_append,
      hrow cells hcells, ih _ l hlines]
    simp

theorem formulaStart_guarded (s : Text) : ¬ formulaStart (guarded s) := by
  rw [guarded]
  split
  · exact Bool.false_ne_true
  next h => exact h

theorem guarded_cases (s : Text) : guarded s = s ∨ guarded s = 39 :: s := by
  rw [guarded]
  split
  · exact .inr rfl
  · exact .inl rfl

theorem guarded_eq {s t : Text} (h : guarded s = guarded t) :
    s = t ∨ s = 39 :: t ∨ t = 39 :: s := by
  rw [guarded, guarded] at h
  split at h <;> split at h
  · exact .inl (cons.inj h).2
  · exact .inr (.inr h.symm)
  · exact .inr (.inl h)
  · exact .inl h

theorem text_header : (EVENTS_CSV_COLUMNS.map fun c => (.string (ascii c) : Cell ν)).map
    (Cell.text number) = EVENTS_CSV_COLUMNS.map ascii := by
  rw [map_map]
  exact map_congr_left (by decide : ∀ c ∈ EVENTS_CSV_COLUMNS, guarded (ascii c) = ascii c)

/-- **The export reads back**: a reader of RFC 4180 gets the header and a row for each event, with
the texts of its cells as they are.  No text cell is a formula, and it is the text that was given,
up to one apostrophe in front. -/
theorem csv_reads_back (hnumber : PlainNumbers number) (iso : Int → Text)
    (events : List (EventDTO ν)) : readCsv (eventsToCsv number iso events) =
        EVENTS_CSV_COLUMNS.map ascii ::
          events.map (fun e => (eventCsvCells iso e).map (Cell.text number)) ∧
      (∀ s : Text, ¬ formulaStart (guarded s) ∧ (guarded s = s ∨ guarded s = 39 :: s)) ∧
      ∀ s t : Text, guarded s = guarded t → s = t ∨ s = 39 :: t ∨ t = 39 :: s := by
  refine ⟨?_, fun s => ⟨formulaStart_guarded s, guarded_cases s⟩, fun s t => guarded_eq⟩
  have hread := read_lines [] hnumber (EVENTS_CSV_COLUMNS.map fun c => .string (ascii c))
    (events.map (eventCsvCells iso)) (forall_mem_cons.2 ⟨nofun, forall_mem_map.2 fun _ _ => nofun⟩)
  rw [map_cons, map_cons, text_header, map_map, map_map] at hread
  exact congrArg Reader.rows hread

/-- An event with a formula and a line break in its texts. -/
def formulaEvent : EventDTO Unit :=
  ⟨ascii "e1", ascii "tabHidden", ascii "browser", ascii "low", ascii "=HYPERLINK(A1)",
    ascii "said \"no\",\r\nleft", 0, none, some (), none, ascii "pending", none, none, false, ()⟩

theorem csv_reads_back_formula :
    readCsv (eventsToCsv (fun _ => ascii "1.5") (fun _ => ascii "1970-01-01T00:00:00.000Z")
      [formulaEvent]) = [
      EVENTS_CSV_COLUMNS.map ascii,
      ["e1", "tabHidden", "browser", "low", "'=HYPERLINK(A1)", "said \"no\",\r\nleft",
        "1970-01-01T00:00:00.000Z", "", "1.5", "", "pending", "", "false", "1.5"].map ascii] :=
  (csv_reads_back (fun _ c hc => of_decide_eq_true
    (all_eq_true.1 (by decide : (ascii "1.5").all (· ∉ special) = true) c hc)) _ _).1.trans rfl

end SmartProctoring.ReportsCsv
