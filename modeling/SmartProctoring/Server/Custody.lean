import SmartProctoring.Lib.Except
import SmartProctoring.Server.Operations

/-!
# How a session's identity is kept

What checks, references and identity samples are about, in one record: a `Custody` has the status
and what a hold allows, the checks and since when their attempts count, the references, the evidence
of the samples and the bursts being collected.  The timeline, the clock, the answers and the events
are left out.

* `SessionMutation.custody` is the view of a session; the lemmas after it say how each primitive of
  `SessionState` acts on the view, or that it does not.
* `Deed` names the kinds of transition, `Custody.Move` says what each does, and `Deeds D` is a few of
  them in a row, all of kinds that `D` allows.
-/

set_option autoImplicit false

namespace SmartProctoring

def CandidateCommand.isHold : CandidateCommand → Bool
  | .hold .. => true
  | _ => false

structure Custody where
  now : Int
  status : SessionStatus
  holdCanReverify : Bool
  reEnrollAuthorized : Bool
  reEnrollAuthorizedBy : Option StaffId
  checkAttemptsResetAt : Option Int
  checks : List Check
  nextId : Nat
  references : List IdentityReference
  /-- How many holds have been announced to the candidate's browser. -/
  holds : Nat
  /-- What the samples of the current period show. -/
  evidence : EvidenceAccumulator
  pendingBursts : List PendingBurst
  droppedBurstIds : List BurstId
  eraseAllUndecidedFrames : Bool

/-- The part of the session row that a custody has. -/
structure RowCustody where
  status : SessionStatus
  holdCanReverify : Bool
  reEnrollAuthorized : Bool
  reEnrollAuthorizedBy : Option StaffId
  checkAttemptsResetAt : Option Int
  evidence : EvidenceAccumulator
  pendingBursts : List PendingBurst

def ExamSession.custody (s : ExamSession) : RowCustody where
  status := s.status
  holdCanReverify := s.holdCanReverify
  reEnrollAuthorized := s.reEnrollAuthorized
  reEnrollAuthorizedBy := s.reEnrollAuthorizedBy
  checkAttemptsResetAt := s.checkAttemptsResetAt
  evidence := s.identityState.evidence
  pendingBursts := s.identityState.pendingBursts

namespace SessionMutation

def custody (m : SessionMutation) : Custody where
  now := m.now
  status := m.session.status
  holdCanReverify := m.session.holdCanReverify
  reEnrollAuthorized := m.session.reEnrollAuthorized
  reEnrollAuthorizedBy := m.session.reEnrollAuthorizedBy
  checkAttemptsResetAt := m.session.checkAttemptsResetAt
  checks := m.checks
  nextId := m.nextId
  references := m.references
  holds := m.commands.countP (·.command.isHold)
  evidence := m.session.identityState.evidence
  pendingBursts := m.session.identityState.pendingBursts
  droppedBurstIds := m.droppedBurstIds
  eraseAllUndecidedFrames := m.eraseAllUndecidedFrames

end SessionMutation

/-! ## What the operations do to it -/

namespace Custody

variable (c : Custody)

def withRow (r : RowCustody) : Custody :=
  { c with
    status := r.status
    holdCanReverify := r.holdCanReverify
    reEnrollAuthorized := r.reEnrollAuthorized
    reEnrollAuthorizedBy := r.reEnrollAuthorizedBy
    checkAttemptsResetAt := r.checkAttemptsResetAt
    evidence := r.evidence
    pendingBursts := r.pendingBursts }

def row : RowCustody where
  status := c.status
  holdCanReverify := c.holdCanReverify
  reEnrollAuthorized := c.reEnrollAuthorized
  reEnrollAuthorizedBy := c.reEnrollAuthorizedBy
  checkAttemptsResetAt := c.checkAttemptsResetAt
  evidence := c.evidence
  pendingBursts := c.pendingBursts

def mapRow (g : RowCustody → RowCustody) : Custody := c.withRow (g c.row)

/-- The evidence and the bursts being collected belong to the period that ends. -/
def dropBursts : Custody :=
  { c with
    evidence := {}
    pendingBursts := []
    droppedBurstIds := c.droppedBurstIds ++ c.pendingBursts.map (·.id) }

def hold : Custody :=
  { c.dropBursts with
    status := .onHold
    holdCanReverify := false
    reEnrollAuthorized := false
    reEnrollAuthorizedBy := none
    holds := c.holds + 1 }

/-- What a hold allowed ends with it. -/
def cleared : Custody :=
  { c with holdCanReverify := false, reEnrollAuthorized := false, reEnrollAuthorizedBy := none }

/-- The hold stays until the candidate passes a check. -/
def requireCheck (reEnroll : Bool) (actor : StaffId) : Custody :=
  { c with
    holdCanReverify := true
    reEnrollAuthorized := reEnroll
    reEnrollAuthorizedBy := if reEnroll then some actor else none
    checkAttemptsResetAt := some c.now }

def finish (st : SessionStatus) : Custody :=
  { c with
    status := st
    holdCanReverify := false
    pendingBursts := []
    eraseAllUndecidedFrames := true }

def reopenOnHold : Custody :=
  { c.dropBursts with
    status := .onHold
    holdCanReverify := true
    reEnrollAuthorized := false
    reEnrollAuthorizedBy := none
    checkAttemptsResetAt := some c.now }

/-- Attempts count from now on. -/
def resetAttempts : Custody := { c with checkAttemptsResetAt := some c.now }

def mapChecks (f : Check → Check) : Custody := { c with checks := c.checks.map f }

/-- The check that is issued takes the place of any other. -/
def issue (check : Check) : Custody :=
  { c with
    checks := c.checks.map (fun k => if k.status = .open then k.expire c.now else k) ++ [check]
    nextId := c.nextId + 1 }

/-- Record the outcome with the check. -/
def close (checkId : Nat) (out : CheckOutcome) : Custody :=
  c.mapChecks fun k =>
    if k.id = checkId then
      { k with status := out.status, completedAt := some c.now, qualityOnly := out.qualityOnly }
    else k

/-- A passed check: the hold it ends, if any, is over. -/
def resume (st : SessionStatus) : Custody :=
  let c := { (if c.status = .onHold then c.cleared else c) with status := st }
  if st = .active then c.dropBursts else c

def establish (check : Check) (authorizedBy : Option StaffId) : Custody :=
  { c with
    references :=
      (c.references.map fun r => { r with active := false }) ++
        [{ version := (c.references.map (·.version)).foldl max 0 + 1
           checkId := check.id
           authorizedBy }] }

/-- A check of this purpose may be required in the session's status. -/
def mayRequire : CheckPurpose → Prop
  | .initial => c.status = .invited
  | .resume => c.status = .paused
  | .reconnect => c.status = .ready ∨ c.status = .active
  | .reverify => c.status = .onHold ∧ c.holdCanReverify = true

end Custody

/-! ## The moves -/

/-- The kinds of transition of a custody. -/
inductive Deed
  | hold | pause | finish | start
  /-- The hold ends, or stays until the candidate passes a check, without re-enrolment. -/
  | release
  /-- A release that authorises re-enrolment. -/
  | authorise
  | reopen
  /-- A number is given to something that is no check. -/
  | number
  | issue
  /-- A check ends without a result. -/
  | expire
  /-- A check ends with a result. -/
  | close
  | pass | establish
  deriving DecidableEq

/-- One transition, with what the source has checked when it makes it. -/
inductive Custody.Move (c : Custody) : Deed → Custody → Prop
  | hold (hs : ¬ c.status.isTerminal) : Move c .hold c.hold
  | pause (hs : c.status = .active) :
      Move c .pause { c.dropBursts.resetAttempts with status := .paused }
  | finish (st : SessionStatus) (hs : ¬ c.status.isTerminal) (hst : st.isTerminal) :
      Move c .finish (c.finish st)
  | start (hs : c.status = .ready) : Move c .start { c.dropBursts with status := .active }
  | release (st : SessionStatus) (hs : c.status = .onHold) (hst : st = .invited ∨ st = .ready) :
      Move c .release { c.cleared.resetAttempts with status := st }
  | releaseActive (hs : c.status = .onHold) :
      Move c .release { c.cleared.resetAttempts.dropBursts with status := .active }
  | requireCheck (actor : StaffId) (hs : c.status = .onHold) :
      Move c .release (c.requireCheck false actor)
  | authorise (actor : StaffId) (hs : c.status = .onHold) :
      Move c .authorise (c.requireCheck true actor)
  | reopenOnHold (hs : c.status.isTerminal) : Move c .reopen c.reopenOnHold
  | reopenToCheckIn (hs : c.status.isTerminal) :
      Move c .reopen { c.cleared.resetAttempts with status := .invited }
  | number : Move c .number { c with nextId := c.nextId + 1 }
  | issue (check : Check) (hid : check.id = c.nextId) (hst : check.status = .open)
      (hat : check.issuedAt = c.now) (hreq : c.mayRequire check.purpose) :
      Move c .issue (c.issue check)
  | expire (sel : Check → Bool) :
      Move c .expire (c.mapChecks fun k => if k.status = .open ∧ sel k then k.expire c.now else k)
  | close (checkId : Nat) (out : CheckOutcome) : Move c .close (c.close checkId out)
  | ready (hs : c.status = .invited) : Move c .pass { c.resetAttempts with status := .ready }
  | verify (purpose : CheckPurpose) (h : c.mayRequire purpose) : Move c .pass c.resetAttempts
  | resume (purpose : CheckPurpose) (st : SessionStatus) (h : c.mayRequire purpose)
      (hp : purpose ≠ .initial) (hst : st = .ready ∧ c.status = .onHold ∨ st = .active) :
      Move c .pass (c.resume st)
  | establish (check : Check) (hs : c.status = .invited) :
      Move c .establish (c.establish check none)
  | reEnrol (check : Check) (h : c.mayRequire .reverify) (ha : c.reEnrollAuthorized = true) :
      Move c .establish
        { c.establish check c.reEnrollAuthorizedBy with
          reEnrollAuthorized := false
          reEnrollAuthorizedBy := none }

/-- A few moves in a row, of the kinds that `D` allows. -/
abbrev Deeds (D : Deed → Prop) : Custody → Custody → Prop :=
  Relation.ReflTransGen fun c c' => ∃ d, D d ∧ c.Move d c'

variable {D : Deed → Prop}

variable {c c' : Custody}

theorem Deeds.single {d : Deed} (hd : D d) (h : c.Move d c') : Deeds D c c' :=
  Relation.ReflTransGen.single ⟨d, hd, h⟩

theorem Deeds.of_eq (h : c' = c) : Deeds D c c' := h ▸ .refl

theorem Deeds.mono {D' : Deed → Prop} (hD : ∀ d, D d → D' d) (h : Deeds D c c') :
    Deeds D' c c' := by
  induction h with
  | refl => exact .refl
  | tail _ hm ih =>
    obtain ⟨d, hd, hm⟩ := hm
    exact ih.tail ⟨d, hD d hd, hm⟩

theorem Deeds.invariant {I : Custody → Prop}
    (hstep : ∀ {d c c'}, D d → I c → c.Move d c' → I c') (h : Deeds D c c')
    (hc : I c) : I c' := by
  induction h with
  | refl => exact hc
  | tail _ hm ih =>
    obtain ⟨d, hd, hm⟩ := hm
    exact hstep hd ih hm

/-! ## What each move leaves alone -/

namespace Custody

variable {c c' : Custody} {d : Deed}

theorem resume_eq (c : Custody) (st : SessionStatus) :
    c.resume st = { c with
      status := st
      holdCanReverify := (if c.status = .onHold then c.cleared else c).holdCanReverify
      reEnrollAuthorized := (if c.status = .onHold then c.cleared else c).reEnrollAuthorized
      reEnrollAuthorizedBy := (if c.status = .onHold then c.cleared else c).reEnrollAuthorizedBy
      evidence := if st = .active then {} else c.evidence
      pendingBursts := if st = .active then [] else c.pendingBursts
      droppedBurstIds := if st = .active then c.droppedBurstIds ++ c.pendingBursts.map (·.id)
        else c.droppedBurstIds } := by
  rw [resume]
  by_cases hs : c.status = .onHold <;> by_cases ha : st = .active <;>
    simp [hs, ha, dropBursts, cleared]

theorem Move.checks_eq (h : c.Move d c') (hi : d ≠ .issue) (he : d ≠ .expire) (hc : d ≠ .close) :
    c'.checks = c.checks := by
  cases h
  case issue => exact absurd rfl hi
  case expire => exact absurd rfl he
  case close => exact absurd rfl hc
  case resume => rw [resume_eq]
  all_goals rfl

theorem Move.references_eq (h : c.Move d c') (hd : d ≠ .establish) :
    c'.references = c.references := by
  cases h
  case establish | reEnrol => exact absurd rfl hd
  case resume => rw [resume_eq]
  all_goals rfl

end Custody

theorem Deeds.checks_eq (h : Deeds D c c')
    (hD : ∀ d, D d → d ≠ .issue ∧ d ≠ .expire ∧ d ≠ .close) : c'.checks = c.checks :=
  h.invariant (I := fun k => k.checks = c.checks)
    (fun hd hk hm => (hm.checks_eq (hD _ hd).1 (hD _ hd).2.1 (hD _ hd).2.2).trans hk) rfl

theorem Deeds.references_eq (h : Deeds D c c') (hD : ¬ D .establish) :
    c'.references = c.references :=
  h.invariant (I := fun k => k.references = c.references)
    (fun hd hk hm => (hm.references_eq fun he => hD (he ▸ hd)).trans hk) rfl

/-! ## The primitives -/

namespace SessionMutation

variable (m : SessionMutation)

theorem custody_set {f : ExamSession → ExamSession} (g : RowCustody → RowCustody)
    (h : ∀ s, (f s).custody = g s.custody) :
    (m.set f).custody = m.custody.mapRow g := by
  change m.custody.withRow (f m.session).custody = m.custody.withRow (g m.session.custody)
  rw [h]

/-- A change that does not show. -/
theorem custody_set_quiet {f : ExamSession → ExamSession} (h : ∀ s, (f s).custody = s.custody) :
    (m.set f).custody = m.custody :=
  custody_set m id h

@[simp] theorem custody_status : m.custody.status = m.session.status := rfl

@[simp] theorem custody_addEvent (input : ServerEventInput) :
    (m.addEvent input).custody = m.custody := rfl

@[simp] theorem custody_closeOpenEvents (atMs : Int) (reason : ClosedBy)
    (keep : List EventType) : (m.closeOpenEvents atMs reason keep).custody = m.custody := rfl

@[simp] theorem custody_clockStart (atMs : Int) : (m.clockStart atMs).custody = m.custody := rfl

@[simp] theorem custody_clockStop (atMs : Int) : (m.clockStop atMs).custody = m.custody := rfl

@[simp] theorem custody_closeOpenPeriod (atMs : Int) :
    (m.closeOpenPeriod atMs).custody = m.custody := by
  rw [closeOpenPeriod]
  split
  · rfl
  · split <;> rfl

@[simp] theorem custody_insertPeriod (kind : PeriodKind) (startedAt : Int) (endedAt : Option Int)
    (reason : PeriodReason) (metadata : PeriodMeta) :
    (m.insertPeriod kind startedAt endedAt reason metadata).custody = m.custody := by
  cases endedAt with
  | none => rfl
  | some e =>
    simp only [insertPeriod, Option.map_some]
    split <;> rfl

@[simp] theorem custody_switchPeriod (kind : PeriodKind) (atMs : Int) (reason : PeriodReason)
    (metadata : PeriodMeta) :
    (m.switchPeriod kind atMs reason metadata).custody = m.custody := by
  rw [switchPeriod, custody_insertPeriod, custody_closeOpenPeriod]

theorem custody_enqueueCommand (command : CandidateCommand) (target : Option InstanceId) :
    (m.enqueueCommand command target).custody =
      { m.custody with holds := m.custody.holds + if command.isHold then 1 else 0 } := by
  simp [custody, enqueueCommand, List.countP_append, List.countP_singleton]

theorem custody_enqueueCommand_quiet (command : CandidateCommand) (target : Option InstanceId)
    (h : command.isHold = false) : (m.enqueueCommand command target).custody = m.custody := by
  rw [custody_enqueueCommand, h]
  rfl

theorem custody_setIdentityState (state : IdentityEngineState) :
    (m.setIdentityState state).custody =
      { m.custody with evidence := state.evidence, pendingBursts := state.pendingBursts } := rfl

theorem custody_setIdentityState_quiet (state : IdentityEngineState)
    (hevidence : state.evidence = m.session.identityState.evidence)
    (hpending : state.pendingBursts = m.session.identityState.pendingBursts) :
    (m.setIdentityState state).custody = m.custody := by
  rw [custody_setIdentityState, hevidence, hpending]
  rfl

@[simp] theorem custody_resetIdentityCounters :
    m.resetIdentityCounters.custody = m.custody.dropBursts := rfl

end SessionMutation

end SmartProctoring
