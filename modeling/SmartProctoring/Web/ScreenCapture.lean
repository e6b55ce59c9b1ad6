import SmartProctoring.Lib.Run

/-!
# The screen capture

`monitoring/screen.ts`: the shared screen, from the ready screen to the end of the exam.  A request
waits for `getDisplayMedia`, once more for the bare minimum where the browser rejects the options,
and for `applyConstraints` where the picture is too large.  Streams are numbers, as for the camera.
`asked` says whether a request was made since the last `stop`; nothing reads it.
-/

set_option autoImplicit false

namespace SmartProctoring

inductive SurfaceKind
  | monitor | window | browser | unknown
  deriving DecidableEq

/-- The entire screen, or the browser does not say. -/
def surfaceAccepted (surface : SurfaceKind) : Bool :=
  decide (surface = .monitor ∨ surface = .unknown)

inductive ShareFailure
  | notEntireScreen | cancelled | unsupported | failed
  deriving DecidableEq

/-- The names of the errors of `getDisplayMedia`. -/
inductive ShareError
  | notAllowed | abort | permissionDenied | notSupported | type | other
  deriving DecidableEq

def shareFailureOf : ShareError → ShareFailure
  | .notAllowed => .cancelled
  | .abort => .cancelled
  | .permissionDenied => .cancelled
  | .notSupported => .unsupported
  | .type => .unsupported
  | .other => .failed

/-- Where a request waits. -/
inductive SharePhase
  | asking
  | askingBare
  | constraining (stream : Nat) (surface : SurfaceKind)
  deriving DecidableEq

/-- What was shared: whether there is a video track, what it shows, and whether it is larger than it
should be. -/
structure SharedMedia where
  hasVideo : Bool
  surface : SurfaceKind
  large : Bool

/-- The problem is the reason that `describeShareFailure` puts into words. -/
structure ScreenCapture where
  supported : Bool
  isLive : Bool
  stream : Option Nat
  surface : SurfaceKind
  generation : Nat
  problem : Option ShareFailure
  endedAt : Option Int
  requesting : Bool
  track : Option Nat
  poll : Bool
  requests : List SharePhase
  nextStream : Nat
  live : List Nat
  asked : Bool

namespace ScreenCapture

def release (s : ScreenCapture) : ScreenCapture :=
  { s with
    poll := false
    live := s.live.filter fun x => decide (s.track ≠ some x ∧ s.stream ≠ some x)
    track := none }

/-- `request`, until `getDisplayMedia` settles. -/
def request (s : ScreenCapture) : ScreenCapture :=
  if s.supported then { s with requesting := true, requests := s.requests ++ [.asking], asked := true }
  else { s with problem := some .unsupported, asked := true }

/-- The last part of `request`. -/
def publish (s : ScreenCapture) (stream : Nat) (surface : SurfaceKind) : ScreenCapture :=
  { s.release with
    track := some stream
    poll := true
    isLive := true
    stream := some stream
    surface
    generation := s.generation + 1
    problem := none
    endedAt := none
    requesting := false }

/-- `getDisplayMedia` has failed. -/
def shareFails (s : ScreenCapture) (k : Nat) (err : ShareError) : ScreenCapture :=
  match s.requests[k]? with
  | some .asking =>
    if err = .type then { s with requests := s.requests.set k .askingBare }
    else
      { s with requests := s.requests.eraseIdx k, requesting := false, problem := some (shareFailureOf err) }
  | some .askingBare =>
    { s with requests := s.requests.eraseIdx k, requesting := false, problem := some (shareFailureOf err) }
  | _ => s

/-- A screen is shared: a window or a tab is stopped again. -/
def shareGiven (s : ScreenCapture) (k : Nat) (media : SharedMedia) : ScreenCapture :=
  if !media.hasVideo || !surfaceAccepted media.surface then
    { s with
      requests := s.requests.eraseIdx k
      nextStream := s.nextStream + 1
      requesting := false
      problem := some (if media.hasVideo then .notEntireScreen else .failed) }
  else if media.large then
    { s with
      requests := s.requests.set k (.constraining s.nextStream media.surface)
      nextStream := s.nextStream + 1
      live := s.live ++ [s.nextStream] }
  else
    { s with
      requests := s.requests.eraseIdx k
      nextStream := s.nextStream + 1
      live := s.live ++ [s.nextStream] }.publish s.nextStream media.surface

/-- `getDisplayMedia` has given a stream. -/
def shared (s : ScreenCapture) (k : Nat) (media : SharedMedia) : ScreenCapture :=
  match s.requests[k]? with
  | some .asking => s.shareGiven k media
  | some .askingBare => s.shareGiven k media
  | _ => s

/-- `applyConstraints` has settled, one way or the other. -/
def constrained (s : ScreenCapture) (k : Nat) : ScreenCapture :=
  match s.requests[k]? with
  | some (.constraining stream surface) => { s with requests := s.requests.eraseIdx k }.publish stream surface
  | _ => s

/-- The capture of a stream ended outside our control. -/
def captureEnds (s : ScreenCapture) (stream : Nat) : ScreenCapture :=
  { s with live := s.live.filter fun x => decide (x ≠ stream) }

/-- The track's event, or the poll. -/
def onEnded (s : ScreenCapture) (now : Int) : ScreenCapture :=
  if s.isLive then { s.release with isLive := false, stream := none, endedAt := some now } else s

def stop (s : ScreenCapture) : ScreenCapture :=
  let wasLive := s.isLive || s.track.isSome
  let s := { s.release with asked := false }
  if wasLive || s.endedAt.isSome || s.problem.isSome then
    { s with isLive := false, stream := none, endedAt := none, problem := none, requesting := false }
  else s

/-! ## Runs -/

inductive Event
  | request
  | shareFails (k : Nat) (err : ShareError)
  | shared (k : Nat) (media : SharedMedia)
  | constrained (k : Nat)
  | captureEnds (stream : Nat)
  | ended (now : Int)
  | stop

def act (s : ScreenCapture) : Event → ScreenCapture
  | .request => s.request
  | .shareFails k err => s.shareFails k err
  | .shared k media => s.shared k media
  | .constrained k => s.constrained k
  | .captureEnds stream => s.captureEnds stream
  | .ended now => s.onEnded now
  | .stop => s.stop

/-- Nothing was shared yet. -/
def fresh (supported : Bool) : ScreenCapture :=
  ⟨supported, false, none, .unknown, 0, none, none, false, none, false, [], 0, [], false⟩

def machine : Machine ScreenCapture Event where
  init s := ∃ supported, s = fresh supported
  step e s := s.act e
  enabled _ _ := True

end ScreenCapture

end SmartProctoring
