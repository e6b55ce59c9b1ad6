import SmartProctoring.Server.Schema

/-!
# Which browser may act, and what it has to do first

Errors (`lib/errors.ts`), the effective policy and the required check (`services/session-state.ts`),
and the control rules (`services/candidate-state.ts`): a browser instance may send exam data only
while it is both the active one (the latest to start a check) and the verified one (the latest to
pass one).
-/

set_option autoImplicit false

namespace SmartProctoring

/-! ## Errors -/

/-- An API error: the request is refused and its transaction rolled back. -/
structure HttpError where
  statusCode : Nat
  code : String
  message : String
  deriving DecidableEq

def badRequest (message : String) (code : String := "bad_request") : HttpError :=
  ⟨400, code, message⟩

def validationFailed (message : String) : HttpError := ⟨400, "validation_failed", message⟩

def notFound (message : String := "Not found") (code : String := "not_found") : HttpError :=
  ⟨404, code, message⟩

def conflict (code message : String) : HttpError := ⟨409, code, message⟩

def invalidState (message : String) : HttpError := ⟨409, "invalid_state", message⟩

/-! ## The effective policy -/

/-- The policy a session runs under: the exam's, already merged with the organisation default, with
the snapshot's accommodations applied (`withAccommodations`). -/
def withAccommodations (examPolicy : ProctoringPolicy) (snap : Option SessionAccommodations) :
    ProctoringPolicy :=
  match snap with
  | some acc => applyAccommodations examPolicy (acc.items.map (·.spec))
  | none => examPolicy

/-- The rules a session runs under: the snapshot taken at start; before that the exam's rules with
the session's approved accommodations applied. -/
def effectivePolicy (session : ExamSession) (examPolicy : ProctoringPolicy) : ProctoringPolicy :=
  match session.policy with
  | some p => p
  | none => withAccommodations examPolicy session.accommodations

/-! ## Control -/

def SUPERSEDED_MESSAGE : String :=
  "This exam is now open in another browser window or device. Continue there, or reload this page " ++
  "to take over (a camera and identity check is required)."

/-- This browser instance is the one allowed to send exam data. -/
def instanceInControl (s : ExamSession) (instanceId : InstanceId) : Bool :=
  s.activeInstanceId == some instanceId && s.verifiedInstanceId == some instanceId

theorem instanceInControl_iff {s : ExamSession} {i : InstanceId} :
    instanceInControl s i = true ↔
      s.activeInstanceId = some i ∧ s.verifiedInstanceId = some i := by
  simp [instanceInControl]

/-- Which check (if any) this browser instance must pass before continuing. -/
def requiredCheckFor (s : ExamSession) (instanceId : InstanceId) : Option CheckPurpose :=
  match s.status with
  | .invited => if s.consentAcceptedAt.isSome then some .initial else none
  | .ready | .active => if instanceInControl s instanceId then none else some .reconnect
  | .paused => some .resume
  | .onHold => if s.holdCanReverify then some .reverify else none
  | .submitted | .terminated => none

/-- Another instance took this session over. -/
def superseded (s : ExamSession) (instanceId : InstanceId) : Bool :=
  s.activeInstanceId.any fun a => decide (a ≠ instanceId)

/-- Refuses (409) unless this instance is in control. -/
def assertInControl (s : ExamSession) (instanceId : InstanceId) : Except HttpError Unit := do
  if superseded s instanceId then throw (conflict "superseded" SUPERSEDED_MESSAGE)
  if s.verifiedInstanceId ≠ some instanceId then
    throw (conflict "check_required"
      "Complete the camera and identity check in this browser before continuing.")

end SmartProctoring
