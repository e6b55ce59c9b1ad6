import SmartProctoring.Detection.Episodes
import SmartProctoring.Shared.Policy

/-!
# Signals of the exam page

`createBrowserSignalTracker` of `browser/tracker.ts`: that the page was hidden, lost the focus, left
the fullscreen mode, that something was copied or pasted, as episodes.  A loss of focus is reported
once it has lasted for `windowBlurMinSec`; one that is still pending when the page is hidden becomes
part of the time it is hidden.

A time that is not a finite number is `none`; `none` also stands for the `-Infinity` that `lastT`
starts with and for the `null` of what is not known yet.
-/

set_option autoImplicit false

namespace SmartProctoring

/-- `policy.browser` with the number it has beside its switches. -/
structure SignalPolicy extends BrowserPolicy where
  windowBlurMinSec : ℚ

/-- What a tracker is created with; `mergeGapSec` and `clipboardQuietSec` are 10 unless they are
given. -/
structure BrowserSettings where
  policy : SignalPolicy
  idFactory : Nat → String
  mergeGapSec : ℚ := 10
  clipboardQuietSec : ℚ := 10

namespace BrowserSettings

variable (c : BrowserSettings)

def maxSafeInteger : ℚ := 9007199254740991

def book : BookConfig where
  idFactory := c.idFactory
  mergeGapMs := c.mergeGapSec * 1000
  maxShots := 1
  periodicShotMs := maxSafeInteger
  minUpdateMs := 5000
  peakSpacingMs := maxSafeInteger

def quietMs : ℚ := max 1 c.clipboardQuietSec * 1000

def blurMinMs : ℚ := max 0 c.policy.windowBlurMinSec * 1000

end BrowserSettings

structure SpanStats where
  count : Nat
  totalMs : ℚ
  segStart : ℚ

inductive ClipAction where
  | copy | cut | paste
  deriving DecidableEq

def ClipAction.text : ClipAction → String
  | .copy => "copy"
  | .cut => "cut"
  | .paste => "paste"

structure Clip where
  copy : Nat
  cut : Nat
  paste : Nat
  lastAt : ℚ
  actions : List (ClipAction × ℚ)

namespace Clip

variable (clip : Clip)

def empty (lastAt : ℚ) : Clip := ⟨0, 0, 0, lastAt, []⟩

def count : ClipAction → Nat
  | .copy => clip.copy
  | .cut => clip.cut
  | .paste => clip.paste

def total : Nat := clip.copy + clip.cut + clip.paste

/-- One more attempt. -/
def add (action : ClipAction) (t : ℚ) : Clip :=
  let clip :=
    match action with
    | .copy => { clip with copy := clip.copy + 1 }
    | .cut => { clip with cut := clip.cut + 1 }
    | .paste => { clip with paste := clip.paste + 1 }
  { clip with lastAt := t, actions := clip.actions ++ [(action, t)] }

/-- The first of more than fifty attempts is dropped. -/
def bounded : Clip := if 50 < clip.actions.length then { clip with actions := clip.actions.tail }
    else clip

end Clip

inductive BrowserDetails where
  | span (count : Nat) (totalSec : ℚ)
  | clipboard (copy cut paste total : Nat) (blocked : Bool) (actions : List (ClipAction × ℚ))
  | displays (isExtended : Bool)

abbrev BrowserUpdate := EpisodeUpdate BrowserDetails

structure BrowserSignalTracker where
  book : EpisodeBook EventType
  hidden : Option Bool
  focused : Option Bool
  fs : Option Bool
  extended : Option Bool
  blurSince : Option ℚ
  lastT : Option ℚ
  stats : EventType → Option SpanStats
  clip : Clip

/-- A tracker in the middle of a call, with the updates the call will return. -/
structure BrowserRun extends BrowserSignalTracker where
  out : List BrowserUpdate

namespace BrowserRun

variable (c : BrowserSettings) (r : BrowserRun)

def describe (type : EventType) (st : SpanStats) (endedAt : Option ℚ) (t : ℚ) :
    EpisodeData BrowserDetails :=
  let running := if endedAt.isNone then t - st.segStart else 0
  let totalSec := round1 ((st.totalMs + running) / 1000)
  let times :=
    if 1 < st.count then " " ++ toString st.count ++ " times (" ++ dur totalSec ++ " in total)"
    else " for " ++ dur totalSec
  let first := endedAt.isNone && decide (st.count = 1)
  let observation :=
    match type with
    | .tabHidden =>
      if first then "The exam tab is hidden (another tab or application is in front, or the browser is minimised)."
      else "The exam tab was hidden" ++ times ++ "."
    | .windowUnfocused =>
      if first then "The exam window lost focus while remaining visible."
      else "The exam window lost focus while remaining visible" ++ times ++ "."
    | .fullscreenExited =>
      if first then "The exam is not in the required fullscreen mode."
      else "The exam was outside required fullscreen mode" ++ times ++ "."
    | _ => ""
  { confidence := 1, details := .span st.count totalSec, observation := observation }

/-- Long spans get a progress update once per elapsed minute. -/
def minutesKey (st : SpanStats) (t : ℚ) : String := toString ⌊(t - st.segStart) / 60000⌋

/-- The statistics of a span that starts: those of the span it goes on with, or new ones. -/
def spanStats (type : EventType) (startedAt : ℚ) : SpanStats :=
  let st := if r.book.wouldMerge type startedAt then (r.stats type).getD ⟨0, 0, startedAt⟩
    else ⟨0, 0, startedAt⟩
  { st with count := st.count + 1, segStart := startedAt }

def openSpan (type : EventType) (startedAt t : ℚ) : BrowserRun :=
  let st := r.spanStats type startedAt
  let (book, update, _) := r.book.begin type type startedAt t (describe type st none t)
    (minutesKey st t)
  { r with book := book, stats := Function.update r.stats type (some st), out := r.out ++ [update] }

def closeSpan (type : EventType) (endedAt t : ℚ) : BrowserRun :=
  match r.stats type with
  | none => r
  | some st =>
    if r.book.isOpen type then
      let st := { st with totalMs := st.totalMs + max 0 (endedAt - st.segStart) }
      let (book, u) := r.book.end type endedAt t (describe type st (some endedAt) t)
      { r with book := book, stats := Function.update r.stats type (some st), out := r.out ++ u.toList }
    else r

def clipData (closed : Bool) : EpisodeData BrowserDetails :=
  let clip := r.clip
  let parts := ([ClipAction.copy, .cut, .paste].filter fun k =>
    decide (0 < clip.count k)).map fun k =>
    toString (clip.count k) ++ " " ++ k.text
  { confidence := 1
    details := .clipboard clip.copy clip.cut clip.paste clip.total c.policy.blockClipboard
      (clip.actions.drop (clip.actions.length - 20))
    observation :=
      if clip.total = 1 then
        "A " ++ ((clip.actions.head?.map Prod.fst).getD ClipAction.copy).text ++
        " action was attempted on the exam page."
      else
        toString clip.total ++ " copy/cut/paste actions " ++ (if closed then "were" else "have been") ++
          " attempted on the exam page (" ++ ", ".intercalate parts ++ ")." }

/-- The loss of focus that is pending is reported once it has lasted long enough. -/
def reportBlur (t : ℚ) : BrowserRun :=
  match r.blurSince with
  | none => r
  | some since =>
    if r.hidden ≠ some true ∧ c.policy.flagWindowBlur = true ∧
        r.book.isOpen .windowUnfocused = false ∧ c.blurMinMs ≤ t - since then
      r.openSpan .windowUnfocused since t
    else r

/-- The attempts to copy and paste are over. -/
def closeClip (t : ℚ) : BrowserRun :=
  let (book, u) := r.book.end .clipboardAttempt r.clip.lastAt t (r.clipData c true)
  { r with book := book, out := r.out ++ u.toList }

/-- A progress update of a long span. -/
def progress (t : ℚ) (type : EventType) : BrowserRun :=
  match r.stats type with
  | none => r
  | some st =>
    if r.book.isOpen type then
      let (book, u) := r.book.touch type t (minutesKey st t) (describe type st none t) false
      { r with book := book, out := r.out ++ u.toList }
    else r

/-- What time itself brings about, before the call. -/
def advance (t : ℚ) : BrowserRun :=
  let r := r.reportBlur c t
  let r := if r.book.isOpen .clipboardAttempt ∧ c.quietMs ≤ t - r.clip.lastAt then r.closeClip c t
    else r
  ((r.progress t .tabHidden).progress t .windowUnfocused).progress t .fullscreenExited

/-- A span that is open is closed. -/
def closeOpen (type : EventType) (t : ℚ) : BrowserRun :=
  if r.book.isOpen type then r.closeSpan type t t else r

def hide (t : ℚ) : BrowserRun :=
  let start := if r.book.isOpen .windowUnfocused then t else r.blurSince.getD t
  let r := { r with hidden := some true }.closeOpen .windowUnfocused t
  let r := { r with blurSince := none }
  if c.policy.flagTabHidden then r.openSpan .tabHidden start t else r

def unhide (t : ℚ) : BrowserRun :=
  let was := r.hidden
  let r := { r with hidden := some false }
  let r := if was = some true then r.closeSpan .tabHidden t t else r
  if r.focused = some false then { r with blurSince := some t } else r

def visibility (isHidden : Bool) (t : ℚ) : BrowserRun :=
  if isHidden = true ∧ r.hidden ≠ some true then r.hide c t
  else if isHidden = false ∧ r.hidden ≠ some false then r.unhide t
  else r

def blur (t : ℚ) : BrowserRun :=
  let r := { r with focused := some false }
  if r.hidden ≠ some true then
    let r := { r with blurSince := some t }
    if c.blurMinMs = 0 ∧ c.policy.flagWindowBlur = true then r.openSpan .windowUnfocused t t else r
  else r

def refocus (t : ℚ) : BrowserRun :=
  { { r with focused := some true }.closeOpen .windowUnfocused t with blurSince := none }

def focus (isFocused : Bool) (t : ℚ) : BrowserRun :=
  if isFocused = false ∧ r.focused ≠ some false then r.blur c t
  else if isFocused = true ∧ r.focused ≠ some true then r.refocus t
  else r

def fullscreen (active : Bool) (t : ℚ) : BrowserRun :=
  if active = false ∧ r.fs ≠ some false then
    let r := { r with fs := some false }
    if c.policy.requireFullscreen then r.openSpan .fullscreenExited t t else r
  else if active = true ∧ r.fs ≠ some true then { r with
    fs := some true }.closeOpen .fullscreenExited t
  else r

def clipboard (action : ClipAction) (t : ℚ) : BrowserRun :=
  if r.book.isOpen .clipboardAttempt then
    let r := { r with clip := (r.clip.add action t).bounded }
    let (book, u) := r.book.touch .clipboardAttempt t (toString r.clip.total) (r.clipData c false) false
    { r with book := book, out := r.out ++ u.toList }
  else
    let clip := if r.book.wouldMerge .clipboardAttempt t then r.clip else .empty t
    let r := { r with clip := clip.add action t }
    let (book, update, _) :=
      r.book.begin .clipboardAttempt .clipboardAttempt t t (r.clipData c false) (toString r.clip.total)
    { r with book := book, out := r.out ++ [update] }

def displayData : EpisodeData BrowserDetails where
  confidence := 1
  details := .displays true
  observation :=
    "The browser reports that more than one display is connected. Activity on other displays cannot be observed."

def displays (isExtended : Option Bool) (t : ℚ) : BrowserRun :=
  if isExtended = some true ∧ r.extended ≠ some true then
    let (book, u) := r.book.marker .additionalDisplayDetected t displayData
    { r with book := book, out := r.out ++ [u], extended := isExtended }
  else { r with extended := isExtended }

def flush (t : ℚ) : BrowserRun :=
  let r := ((r.closeOpen .tabHidden t).closeOpen .windowUnfocused t).closeOpen .fullscreenExited t
  let r := if r.book.isOpen .clipboardAttempt then r.closeClip c t else r
  { r with
    book := r.book.forgetClosed, blurSince := none, hidden := none, focused := none, fs := none,
      extended := none }

end BrowserRun

inductive BrowserCall where
  | visibility (isHidden : Bool)
  | focus (isFocused : Bool)
  | fullscreen (active : Bool)
  | clipboard (action : ClipAction)
  | displays (isExtended : Option Bool)
  | tick
  | flush

namespace BrowserSignalTracker

variable (c : BrowserSettings) (b : BrowserSignalTracker)

def new : BrowserSignalTracker where
  book := .new c.book
  hidden := none
  focused := none
  fs := none
  extended := none
  blurSince := none
  lastT := none
  stats _ := none
  clip := .empty 0

/-- The time of a call: time does not go back. -/
def timeOf (t : Option ℚ) : Option ℚ :=
  match t with
  | some t => some (max t (b.lastT.getD t))
  | none => b.lastT

def body (r : BrowserRun) (t : ℚ) : BrowserCall → BrowserRun
  | .visibility isHidden => r.visibility c isHidden t
  | .focus isFocused => r.focus c isFocused t
  | .fullscreen active => r.fullscreen c active t
  | .clipboard action => r.clipboard c action t
  | .displays isExtended => r.displays isExtended t
  | .tick => r
  | .flush => r.flush c t

/-- A call at time `t`, with the updates it returns. -/
def run (call : BrowserCall) (t : Option ℚ) : BrowserSignalTracker × List BrowserUpdate :=
  match b.timeOf t with
  | none => (b, [])
  | some t =>
    let r := body c (BrowserRun.advance c { b with lastT := some t, out := [] } t) t call
    (r.toBrowserSignalTracker, r.out)

end BrowserSignalTracker

end SmartProctoring
