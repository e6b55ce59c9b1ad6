import SmartProctoring.Lib.Run

/-!
# The camera manager

`monitoring/camera.ts`: it owns the webcam stream, and acquires it again when it is lost while the
camera is wanted.  An acquisition waits for `getUserMedia`, for `video.play`, for the first frames
and for a hash, and anything may happen meanwhile; what runs between two awaits is one step.  A
stream is a number here, as its one video track is; `live` are the streams obtained that were not
stopped and did not end.

Left out: the texts for the candidate, the size of the picture and how long a retry waits.
-/

set_option autoImplicit false

namespace SmartProctoring

inductive CameraState
  | live | muted | ended | noPermission | unavailable
  deriving DecidableEq

/-- The names of the errors of `getUserMedia`. -/
inductive MediaError
  | notAllowed | permissionDenied | security | notFound | devicesNotFound | overconstrained | notReadable
  | trackStart | abort | other
  deriving DecidableEq

/-- The state that an error leaves the camera in. -/
def describeCameraError : MediaError → CameraState
  | .notAllowed => .noPermission
  | .permissionDenied => .noPermission
  | .security => .noPermission
  | _ => .unavailable

/-- Where an acquisition waits; the stream it has obtained. -/
inductive AcquirePhase
  | media
  | play (stream : Nat)
  | frames (stream : Nat)
  | hash (stream : Nat)

def AcquirePhase.stream : AcquirePhase → Option Nat
  | .media => none
  | .play stream => some stream
  | .frames stream => some stream
  | .hash stream => some stream

/-- A call of `acquire`. -/
structure Acquisition where
  seq : Nat
  deviceId : Option String
  hd : Bool
  phase : AcquirePhase

structure CameraManager where
  /-- The browser has `getUserMedia`. -/
  supported : Bool
  state : CameraState
  wanted : Bool
  starting : Bool
  deviceId : Option String
  stream : Option Nat
  generation : Nat
  track : Option Nat
  preferredId : Option String
  /-- A retry is scheduled. -/
  retryTimer : Bool
  startSeq : Nat
  disposed : Bool
  acquisitions : List Acquisition
  /-- The lists of cameras that were asked for. -/
  listings : Nat
  nextStream : Nat
  live : List Nat

namespace CameraManager

def truthy (id : Option String) : Bool := id.any fun s => decide (s ≠ "")

def clearRetry (c : CameraManager) : CameraManager := { c with retryTimer := false }

def scheduleRetry (c : CameraManager) : CameraManager :=
  if !c.wanted || c.disposed then c else { c with retryTimer := true }

/-- The published stream is stopped, and the track, which may belong to one that is not published
yet. -/
def releaseTracks (c : CameraManager) : CameraManager :=
  { c with
    live := c.live.filter fun x => decide (c.stream ≠ some x ∧ c.track ≠ some x)
    track := none }

/-- `stream.getTracks().forEach((t) => t.stop())`. -/
def stopStream (c : CameraManager) (stream : Nat) : CameraManager :=
  { c with live := c.live.filter fun x => decide (x ≠ stream) }

/-- `acquire`, until `getUserMedia` settles. -/
def acquire (c : CameraManager) (deviceId : Option String) (hd : Bool) : CameraManager :=
  if c.supported then
    { c with
      startSeq := c.startSeq + 1
      starting := true
      acquisitions := c.acquisitions ++ [⟨c.startSeq + 1, deviceId, hd, .media⟩] }
  else { c with startSeq := c.startSeq + 1, state := .unavailable, starting := false }

def start (c : CameraManager) (deviceId : Option String) : CameraManager :=
  if c.disposed then c
  else
    let preferredId := if truthy deviceId then deviceId else c.preferredId
    { c.clearRetry with preferredId, wanted := true }.acquire (deviceId.or preferredId) true

/-- `getUserMedia` has failed. -/
def mediaFails (c : CameraManager) (k : Nat) (err : MediaError) : CameraManager :=
  match c.acquisitions[k]? with
  | some ⟨seq, deviceId, hd, .media⟩ =>
    let c := { c with acquisitions := c.acquisitions.eraseIdx k }
    if seq ≠ c.startSeq then c
    else if hd && decide (err ∈ [MediaError.overconstrained, .notReadable, .abort])
      then c.acquire deviceId false
    else if truthy deviceId && decide (err ∈ [MediaError.overconstrained, .notFound, .notReadable])
      then
      c.acquire none true
    else { c with state := describeCameraError err, starting := false }.scheduleRetry
  | _ => c

/-- `getUserMedia` has given a stream. -/
def mediaGiven (c : CameraManager) (k : Nat) (hasVideo : Bool) : CameraManager :=
  match c.acquisitions[k]? with
  | some ⟨seq, deviceId, hd, .media⟩ =>
    let others := { c with acquisitions := c.acquisitions.eraseIdx k, nextStream := c.nextStream + 1 }
    if seq ≠ c.startSeq ∨ c.wanted = false ∨ c.disposed = true then others
    else if !hasVideo then
      { others.releaseTracks with state := .unavailable, starting := false }.scheduleRetry
    else
      { c.releaseTracks with
        acquisitions := c.acquisitions.set k ⟨seq, deviceId, hd, .play c.nextStream⟩
        nextStream := c.nextStream + 1
        track := some c.nextStream
        live := c.releaseTracks.live ++ [c.nextStream] }
  | _ => c

/-- What an acquisition waits for after `getUserMedia` has settled.  `id`: the track's
`deviceId`. -/
def proceed (c : CameraManager) (k : Nat) (id : Option String) (muted : Bool) : CameraManager :=
  match c.acquisitions[k]? with
  | some ⟨seq, deviceId, hd, .play stream⟩ =>
    { c with acquisitions := c.acquisitions.set k ⟨seq, deviceId, hd, .frames stream⟩ }
  | some ⟨seq, deviceId, hd, .frames stream⟩ =>
    { c with
      acquisitions := c.acquisitions.set k ⟨seq, id.or deviceId, hd, .hash stream⟩
      preferredId := if truthy (id.or deviceId) then id.or deviceId else c.preferredId }
  | some ⟨seq, deviceId, _, .hash stream⟩ =>
    let c := { c with acquisitions := c.acquisitions.eraseIdx k }
    if seq ≠ c.startSeq then c.stopStream stream
    else
      { c with
        state := if muted then .muted else .live
        deviceId
        stream := some stream
        starting := false
        generation := c.generation + 1 }
  | _ => c

def stop (c : CameraManager) : CameraManager :=
  { c.clearRetry.releaseTracks with
    startSeq := c.startSeq + 1
    wanted := false
    starting := false
    stream := none
    state := .unavailable }

def dispose (c : CameraManager) : CameraManager := { c.stop with disposed := true }

/-- The track has ended, outside our control. -/
def onEnded (c : CameraManager) : CameraManager :=
  let c := { c with live := c.live.filter fun x => decide (c.track ≠ some x) }
  if c.wanted then { c with state := .ended }.scheduleRetry else c

def onMute (c : CameraManager) : CameraManager := if c.wanted then { c with state := .muted } else c

def onUnmute (c : CameraManager) : CameraManager :=
  if c.wanted then { c with state := .live } else c

def onDeviceChange (c : CameraManager) : CameraManager :=
  if !c.wanted || c.disposed then c
  else if c.state ≠ .live ∧ c.state ≠ .muted then c.clearRetry.acquire c.preferredId true
  else { c with listings := c.listings + 1 }

/-- The cameras are listed. -/
def camerasListed (c : CameraManager) (cameras : List String) : CameraManager :=
  if c.listings = 0 then c
  else
    let c := { c with listings := c.listings - 1 }
    if truthy c.deviceId && decide (cameras ≠ []) &&
        cameras.all (fun id => decide (id ≠ "" ∧ some id ≠ c.deviceId)) then
      { c with state := .ended }.scheduleRetry
    else c

/-- The permission for the camera changes. -/
def onPermission (c : CameraManager) (granted : Bool) : CameraManager :=
  if !c.wanted || c.disposed then c
  else if !granted then { c.releaseTracks with state := .noPermission, stream := none }.scheduleRetry
  else if c.state ≠ .live then c.clearRetry.acquire c.preferredId true
  else c

def retryFires (c : CameraManager) : CameraManager :=
  if c.retryTimer then
    let c := c.clearRetry
    if c.wanted ∧ c.state ≠ .live then c.acquire c.preferredId true else c
  else c

/-! ## Runs -/

inductive Event
  | start (deviceId : Option String)
  | mediaFails (k : Nat) (err : MediaError)
  | mediaGiven (k : Nat) (hasVideo : Bool)
  | proceed (k : Nat) (id : Option String) (muted : Bool)
  | stop
  | dispose
  | ended
  | mute
  | unmute
  | deviceChange
  | camerasListed (cameras : List String)
  | permission (granted : Bool)
  | retryFires

def act (c : CameraManager) : Event → CameraManager
  | .start deviceId => c.start deviceId
  | .mediaFails k err => c.mediaFails k err
  | .mediaGiven k hasVideo => c.mediaGiven k hasVideo
  | .proceed k id muted => c.proceed k id muted
  | .stop => c.stop
  | .dispose => c.dispose
  | .ended => c.onEnded
  | .mute => c.onMute
  | .unmute => c.onUnmute
  | .deviceChange => c.onDeviceChange
  | .camerasListed cameras => c.camerasListed cameras
  | .permission granted => c.onPermission granted
  | .retryFires => c.retryFires

/-- A new manager. -/
def fresh (supported : Bool) (preferredId : Option String) : CameraManager :=
  ⟨supported, .unavailable, false, false, none, none, 0, none, preferredId, false, 0, false,
    [], 0, 0, []⟩

def machine : Machine CameraManager Event where
  init c := ∃ supported preferredId, c = fresh supported preferredId
  step e c := c.act e
  enabled _ _ := True

end CameraManager

end SmartProctoring
