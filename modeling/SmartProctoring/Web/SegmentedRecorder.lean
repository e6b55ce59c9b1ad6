import Mathlib.Algebra.GroupWithZero.Nat
import Mathlib.Logic.Function.Basic
import SmartProctoring.Shared.Policy

/-!
# The segmented recorder

`SegmentedRecorder` of `monitoring/recorder.ts`.  All the recorders of one page are kept together,
with the segments they began, the page's counters of sequence numbers, and what was handed to the
upload queue.  A recorder and a segment are named by their place in the lists.

The rotation timer runs exactly while a recorder does.  Left out: the media types, the bit rates and
the clock.
-/

set_option autoImplicit false

namespace SmartProctoring

/-- `Running`: a segment with the `MediaRecorder` of its own. -/
structure Segment where
  recorder : Nat
  stream : RecordingStream
  seq : Nat
  /-- The sizes of the chunks; empty ones are not kept. -/
  chunks : List Nat
  stopping : Bool
  /-- Its stop event has come. -/
  done : Bool
  /-- Five seconds have passed since it was asked to stop. -/
  waited : Bool

/-- A recorder of a stream, made by a monitoring run. -/
structure SegmentedRecorder where
  stream : RecordingStream
  run : Nat
  nextSeq : Nat
  running : Bool
  current : Option Nat

/-- What is handed over with a segment's data, and the segment. -/
structure SegmentInfo where
  segment : Nat
  stream : RecordingStream
  seq : Nat
  durationMs : Nat
  bytes : Nat
  deriving DecidableEq

/-- The recorders of a page. -/
structure Recorders where
  /-- `sequence`, shared by every run of the page. -/
  sequence : RecordingStream → Nat
  recorders : List SegmentedRecorder
  segments : List Segment
  queued : List SegmentInfo

namespace Recorders

/-- `new SegmentedRecorder`, with `firstSeq` from the page's counter. -/
def construct (m : Recorders) (stream : RecordingStream) (run : Nat) : Recorders :=
  { m with recorders := m.recorders ++ [⟨stream, run, m.sequence stream, false, none⟩] }

/-- `begin`, where the browser makes and starts a `MediaRecorder`. -/
def begin (m : Recorders) (r : Nat) (rec : SegmentedRecorder) : Recorders :=
  { m with
    recorders := m.recorders.set r { rec with current := some m.segments.length, nextSeq := rec.nextSeq + 1 }
    segments := m.segments ++ [⟨r, rec.stream, rec.nextSeq, [], false, false, false⟩] }

def finish (m : Recorders) (k : Nat) : Recorders :=
  { m with segments := m.segments.modify k fun s => { s with stopping := true } }

def start (m : Recorders) (r : Nat) (begins : Bool) : Recorders :=
  match m.recorders[r]? with
  | some rec => if rec.running || !begins then m else m.begin r { rec with running := true }
  | none => m

/-- Not running any more; the current segment is asked to stop. -/
def halt (m : Recorders) (r : Nat) : Recorders :=
  match m.recorders[r]? with
  | some rec =>
    let m := { m with recorders := m.recorders.set r { rec with running := false, current := none } }
    match rec.current with
    | some k => m.finish k
    | none => m
  | none => m

/-- `rotate`: the next segment begins before the old one is asked to stop. -/
def rotate (m : Recorders) (r : Nat) (begins : Bool) : Recorders :=
  match m.recorders[r]? with
  | some rec =>
    match rec.current with
    | some old =>
      if !rec.running then m
      else if begins then (m.begin r rec).finish old
      else m.halt r
    | none => m
  | none => m

/-- `stop`, until it waits. -/
def stop (m : Recorders) (r : Nat) : Recorders := m.halt r

/-- What `stop` waits for: each segment that was asked to stop has, or its five seconds have
passed. -/
def settled (m : Recorders) (r : Nat) : Bool :=
  m.segments.all fun s => !(decide (s.recorder = r) && s.stopping) || s.done || s.waited

/-- The segment is the current one of its recorder, which is running. -/
def interrupts (m : Recorders) (k : Nat) : Bool :=
  match m.segments[k]? with
  | some s =>
    match m.recorders[s.recorder]? with
    | some rec => decide (rec.current = some k) && rec.running
    | none => false
  | none => false

def stopsByItself (m : Recorders) (k : Nat) : Bool :=
  (m.segments[k]?.any fun s => !s.stopping) && m.interrupts k

/-- `fail`, until `onError`. -/
def fail (m : Recorders) (k : Nat) : Recorders :=
  if m.interrupts k then
    match m.segments[k]? with
    | some s => m.halt s.recorder
    | none => m
  else m

/-- `ondataavailable`. -/
def data (m : Recorders) (k : Nat) (size : Nat) : Recorders :=
  if 0 < size then { m with segments := m.segments.modify k fun s =>
    { s with chunks := s.chunks ++ [size] } }
  else m

/-- The numbers up to `next` are used up. -/
def advance (m : Recorders) (stream : RecordingStream) (next : Nat) : Recorders :=
  { m with sequence := Function.update m.sequence stream (max (m.sequence stream) next) }

/-- `onSegment`. -/
def onSegment (m : Recorders) (info : SegmentInfo) : Recorders :=
  { m.advance info.stream (info.seq + 1) with queued := m.queued ++ [info] }

/-- `onstop`, until `fail`. -/
def onstop (m : Recorders) (k : Nat) (durationMs : Nat) : Recorders :=
  match m.segments[k]? with
  | some s =>
    let m := { m with segments := m.segments.modify k fun s => { s with done := true } }
    if s.chunks = [] then m else m.onSegment ⟨k, s.stream, s.seq, durationMs, s.chunks.sum⟩
  | none => m

/-- The five seconds of `finish` are over. -/
def wait (m : Recorders) (k : Nat) : Recorders :=
  { m with segments := m.segments.modify k fun s => { s with waited := true } }

/-- The sequence number the next segment of a recorder gets. -/
def nextSequence (m : Recorders) (r : Nat) : Nat :=
  match m.recorders[r]? with
  | some rec => rec.nextSeq
  | none => 0

end Recorders

end SmartProctoring
