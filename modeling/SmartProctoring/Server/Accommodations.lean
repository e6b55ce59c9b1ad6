import SmartProctoring.Server.SessionState

/-!
# Accommodations of an unstarted session

`services/accommodations.ts`: until the exam starts, a session's snapshot and duration follow the
candidate's accommodation records; from then on they are part of the attempt.

A record counts if it was neither revoked nor has run out (`Accommodation.applies`).  The snapshot
holds the records that count and the extra time they add up to, which is part of the duration: a
refresh takes the old extra time out of the duration before it puts the new one in, so that what
staff have added stays (`baseDurationMs`, `refreshedSession`).
-/

set_option autoImplicit false

namespace SmartProctoring

/-- Statuses of sessions whose accommodations still follow the records (the exam has not
started). -/
def UNSTARTED : List SessionStatus := [.invited, .ready, .onHold]

/-- An accommodation granted to the candidate, for this exam or for every exam. -/
structure Accommodation where
  id : Nat
  spec : AccommodationSpec
  grantedAt : Int
  validUntil : Option Int := none
  revokedAt : Option Int := none

/-- `accommodationApplies`: neither revoked nor expired at `now`. -/
def Accommodation.applies (a : Accommodation) (now : Int) : Bool :=
  a.revokedAt.isNone && a.validUntil.all fun v => decide (now < v)

/-- The records that apply to the attempt now (oldest first, as `rows` is). -/
def applicableAccommodations (rows : List Accommodation) (now : Int) : List Accommodation :=
  rows.filter (·.applies now)

/-- A session's snapshot of the records that apply (`none`: none), for an exam of
`baseDurationMs`. -/
def sessionSnapshot (rows : List Accommodation) (baseDurationMs now : Int) :
    Option SessionAccommodations :=
  if rows.isEmpty then none
  else
    some
      { items := rows.map fun a => ⟨a.id, a.spec, a.grantedAt⟩
        extraTimeMs := accommodationExtraTimeMs baseDurationMs (rows.map (·.spec))
        atMs := now }

/-- The records in a snapshot. -/
def itemsOf (acc : Option SessionAccommodations) : List SessionAccommodationItem :=
  (acc.map (·.items)).getD []

/-- The extra time in a snapshot. -/
def extraTimeOf (acc : Option SessionAccommodations) : Int := (acc.map (·.extraTimeMs)).getD 0

theorem extraTimeOf_sessionSnapshot_nonneg (rows : List Accommodation) {baseDurationMs : Int}
    (h : 0 ≤ baseDurationMs) (now : Int) :
    0 ≤ extraTimeOf (sessionSnapshot rows baseDurationMs now) := by
  rw [sessionSnapshot]
  split
  · exact le_rfl
  · exact accommodationExtraTimeMs_nonneg h _

/-- The session's duration without accommodation extra time (staff extensions are kept). -/
def baseDurationMs (s : ExamSession) : Int := s.durationMs - extraTimeOf s.accommodations

/-- The snapshot an unstarted session should carry, and the duration that goes with it. -/
def refreshedSession (s : ExamSession) (rows : List Accommodation) (now : Int) : ExamSession :=
  let base := baseDurationMs s
  let next := sessionSnapshot (applicableAccommodations rows now) base now
  if itemsOf next = itemsOf s.accommodations ∧
    extraTimeOf next = extraTimeOf s.accommodations then s
  else { s with accommodations := next, durationMs := base + extraTimeOf next }

/-- Bring an unstarted session's snapshot and duration in line with the records. -/
def refreshSessionAccommodations (m : SessionMutation) (rows : List Accommodation) :
    SessionMutation :=
  if m.session.startedAt.isSome ∨ m.session.status ∉ UNSTARTED then m
  else m.set fun s => refreshedSession s rows m.now

theorem refreshedSession_eq (s : ExamSession) (rows : List Accommodation) (now : Int) :
    refreshedSession s rows now =
      { s with
        accommodations := (refreshedSession s rows now).accommodations
        durationMs := (refreshedSession s rows now).durationMs } := by
  rw [refreshedSession]
  split <;> rfl

end SmartProctoring
