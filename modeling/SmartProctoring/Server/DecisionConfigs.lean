import Mathlib.Data.Rat.Defs
import SmartProctoring.Lib.Run
import SmartProctoring.Server.CandidateState

/-!
# Decision configurations

`services/decision-configs.ts`: the identity thresholds of an organisation are versioned.  A change
is proposed and decided by somebody else; a rollback restores a former version as a new one.  The
active version is mirrored into the organisation settings, which is what the decision paths read.

`governance` is the machine of one organisation.  Proposals, decisions, rollbacks and changes of the
settings hold the lock of the organisation's row, so each is one step; only a decision is two, since
it counts the other approvers in between, in rows that it does not lock.  The page that lists the
configurations creates the first version without the lock, in a read and an insert.
-/

set_option autoImplicit false

namespace SmartProctoring

def forbidden (message : String) (code : String := "forbidden") : HttpError := ⟨403, code, message⟩

/-- What an unexpected exception is answered with. -/
def internalError : HttpError := ⟨500, "internal_error", "An unexpected error occurred"⟩

/-! ## Thresholds -/

structure DecisionThresholds where
  /-- From here on, the same person. -/
  matchAt : ℚ
  /-- Below, evidence of a different person. -/
  mismatch : ℚ
  idPhotoMatch : ℚ
  idPhotoMismatch : ℚ
  mismatchConfirmations : Int
  deriving DecidableEq

def DEFAULT_IDENTITY_THRESHOLDS : DecisionThresholds where
  matchAt := 45 / 100
  mismatch := 3 / 10
  idPhotoMatch := 42 / 100
  idPhotoMismatch := 24 / 100
  mismatchConfirmations := 2

/-- What the settings store; organisations from before versioned configurations may have some
only. -/
structure StoredThresholds where
  matchAt : Option ℚ := none
  mismatch : Option ℚ := none
  idPhotoMatch : Option ℚ := none
  idPhotoMismatch : Option ℚ := none
  mismatchConfirmations : Option Int := none

/-- `{ ...DEFAULT_IDENTITY_THRESHOLDS, ...stored }` -/
def StoredThresholds.filled (t : StoredThresholds) : DecisionThresholds where
  matchAt := t.matchAt.getD DEFAULT_IDENTITY_THRESHOLDS.matchAt
  mismatch := t.mismatch.getD DEFAULT_IDENTITY_THRESHOLDS.mismatch
  idPhotoMatch := t.idPhotoMatch.getD DEFAULT_IDENTITY_THRESHOLDS.idPhotoMatch
  idPhotoMismatch := t.idPhotoMismatch.getD DEFAULT_IDENTITY_THRESHOLDS.idPhotoMismatch
  mismatchConfirmations :=
    t.mismatchConfirmations.getD DEFAULT_IDENTITY_THRESHOLDS.mismatchConfirmations

def DecisionThresholds.stored (t : DecisionThresholds) : StoredThresholds where
  matchAt := some t.matchAt
  mismatch := some t.mismatch
  idPhotoMatch := some t.idPhotoMatch
  idPhotoMismatch := some t.idPhotoMismatch
  mismatchConfirmations := some t.mismatchConfirmations

/-- The organisation's settings: the mirror of the active version, and the rest, of any type `ω`. -/
structure OrgSettings (ω : Type) where
  identityThresholds : Option StoredThresholds := none
  decisionConfigVersion : Option Nat := none
  rest : ω

/-- The thresholds that `orgSettings` reads. -/
def OrgSettings.thresholds {ω : Type} (s : OrgSettings ω) : DecisionThresholds :=
  (s.identityThresholds.getD {}).filled

/-! ## Configurations and their approvers -/

inductive DecisionConfigStatus
  | proposed | active | retired | rejected | withdrawn
  deriving DecidableEq

/-- A row of `decision_configs`; without thresholds it follows the release defaults. -/
structure DecisionConfig where
  id : Nat
  version : Nat
  status : DecisionConfigStatus
  thresholds : Option DecisionThresholds
  note : String
  basedOnVersion : Option Nat := none
  rollbackOfVersion : Option Nat := none
  proposedBy : Option StaffId := none
  proposedAt : Int
  decidedBy : Option StaffId := none
  decidedAt : Option Int := none
  decisionNote : Option String := none
  /-- Approved by its proposer because the organisation had no other active administrator. -/
  selfApproved : Bool := false
  activatedAt : Option Int := none
  retiredAt : Option Int := none

/-- The thresholds a version applies (release defaults for a version without its own). -/
def effectiveThresholds (c : DecisionConfig) : DecisionThresholds :=
  c.thresholds.getD DEFAULT_IDENTITY_THRESHOLDS

inductive StaffRole
  | owner | admin | reviewer
  deriving DecidableEq

/-- The columns of a staff account that say whether it may approve. -/
structure Approver where
  id : StaffId
  role : StaffRole
  disabled : Bool := false

/-- The rows of one organisation, as they are committed.  Configurations are in the order of their
creation. -/
structure OrgRows (ω : Type) where
  settings : OrgSettings ω
  configs : List DecisionConfig := []
  staff : List Approver := []

/-- Other active administrators / owners who could approve instead of the proposer. -/
def otherApprovers (staff : List Approver) (exceptId : StaffId) : Nat :=
  staff.countP fun u => decide (u.role = .admin ∨ u.role = .owner) && !u.disabled &&
    decide (u.id ≠ exceptId)

namespace OrgRows

variable {ω : Type}

def activeConfig (o : OrgRows ω) : Option DecisionConfig :=
  o.configs.find? fun c => decide (c.status = .active)

def openProposal (o : OrgRows ω) : Option DecisionConfig :=
  o.configs.find? fun c => decide (c.status = .proposed)

/-- The thresholds that the first version takes over. -/
def custom (o : OrgRows ω) : Option DecisionThresholds :=
  o.settings.identityThresholds.map StoredThresholds.filled

def freshId (o : OrgRows ω) : Nat := o.configs.length

/-- Insert version 1; on a conflict with the version or the active one, do nothing. -/
def insertFirst (o : OrgRows ω) (custom : Option DecisionThresholds) (now : Int) : OrgRows ω :=
  if o.configs.any fun c => decide (c.version = 1) || decide (c.status = .active) then o
  else
    { o with
      configs := o.configs ++
        [{ id := o.freshId
           version := 1
           status := .active
           thresholds := custom
           note := if custom.isSome then "The thresholds in use before versioned configurations."
             else "The release defaults."
           proposedAt := now
           decidedAt := some now
           activatedAt := some now }] }

/-- Version 1 from what the organisation has, when it has no configuration yet, under the lock.
Returns the active version. -/
def ensureDecisionConfigs (o : OrgRows ω) (now : Int) : OrgRows ω × Option DecisionConfig :=
  match o.activeConfig with
  | some active => (o, some active)
  | none =>
    let o := o.insertFirst o.custom now
    (o, o.activeConfig)

def nextVersion (o : OrgRows ω) : Nat := (o.configs.map (·.version)).foldl max 0 + 1

/-- Make `row` the active version: retire the previous one and mirror it into the organisation
settings, as they were read under the lock. -/
def activate (o : OrgRows ω) (org : OrgSettings ω) (row : DecisionConfig) (now : Int) : OrgRows ω :=
  let retired := o.configs.map fun c =>
    if c.status = .active ∧ c.id ≠ row.id then { c with status := .retired, retiredAt := some now }
    else c
  { o with
    configs := retired.map fun c =>
      if c.id = row.id then { c with status := .active, activatedAt := some now } else c
    settings := { org with
      identityThresholds := row.thresholds.map DecisionThresholds.stored
      decisionConfigVersion := some row.version } }

def loadScoped (o : OrgRows ω) (id : Nat) : Except HttpError DecisionConfig :=
  match o.configs.find? fun c => decide (c.id = id) with
  | some row => .ok row
  | none => .error (notFound "Configuration not found" "decision_config_not_found")

/-- Propose new thresholds, with the reason. -/
def proposeDecisionConfig (o : OrgRows ω) (actor : StaffId) (thresholds : DecisionThresholds)
    (note : String) (now : Int) : Except HttpError (OrgRows ω) :=
  match o.ensureDecisionConfigs now with
  | (_, none) => .error internalError
  | (o, some active) =>
    match o.openProposal with
    | some row =>
      .error (conflict "proposal_open" ("Version " ++ toString row.version ++
        " is waiting for approval. Decide or withdraw it first."))
    | none =>
      if effectiveThresholds active = thresholds then
        .error (conflict "no_change" "These are the thresholds already in use.")
      else
        .ok { o with
          configs := o.configs ++
            [{ id := o.freshId
               version := o.nextVersion
               status := .proposed
               thresholds := some thresholds
               note
               basedOnVersion := some active.version
               proposedBy := some actor
               proposedAt := now }] }

inductive ConfigDecision
  | approve | reject | withdraw
  deriving DecidableEq

/-- A decision whose checks have passed: what was read under the lock, and what will be written. -/
structure Deciding (ω : Type) where
  org : OrgSettings ω
  row : DecisionConfig
  actor : StaffId
  decision : ConfigDecision
  note : Option String
  selfApproved : Bool
  now : Int

/-- The checks of `decideDecisionConfig`.  Four eyes: someone else decides, unless nobody else
could. -/
def decideDecisionConfig (o : OrgRows ω) (actor : StaffId) (id : Nat) (decision : ConfigDecision)
    (note : Option String) (now : Int) : Except HttpError (Deciding ω) := do
  let row ← o.loadScoped id
  if row.status ≠ .proposed then
    throw (conflict "not_proposed" ("Version " ++ toString row.version ++
      " is not waiting for approval."))
  let passed (selfApproved : Bool) : Deciding ω :=
    { org := o.settings, row, actor, decision, note, selfApproved, now }
  if decision = .withdraw then
    if row.proposedBy ≠ some actor then
      throw (forbidden "Only the person who proposed it can withdraw it" "not_proposer")
    pure (passed false)
  else if row.proposedBy = some actor then
    if decision = .reject ∨ 0 < otherApprovers o.staff actor then
      throw (forbidden "Another administrator must approve or reject a change you proposed"
        "four_eyes_required")
    pure (passed true)
  else pure (passed false)

def ConfigDecision.status : ConfigDecision → DecisionConfigStatus
  | approve => .proposed
  | reject => .rejected
  | withdraw => .withdrawn

/-- The writes of `decideDecisionConfig`. -/
def writeDecision (o : OrgRows ω) (d : Deciding ω) : OrgRows ω :=
  let decided : OrgRows ω :=
    { o with
      configs := o.configs.map fun c =>
        if c.id = d.row.id then
          { c with
            status := d.decision.status
            decidedBy := some d.actor
            decidedAt := some d.now
            decisionNote := d.note
            selfApproved := d.selfApproved }
        else c }
  match d.decision with
  | .approve => decided.activate d.org { d.row with decidedBy := some d.actor } d.now
  | _ => decided

/-- Restore an earlier version as a new active version, immediately.  A proposal waiting for
approval is withdrawn: it was made against the configuration being replaced. -/
def rollbackDecisionConfig (o : OrgRows ω) (actor : StaffId) (id : Nat) (note : String)
    (now : Int) : Except HttpError (OrgRows ω) := do
  let org := o.settings
  let target ← o.loadScoped id
  if target.status ≠ .retired then
    throw (conflict "not_retired" "Only an earlier, previously active version can be restored.")
  match o.ensureDecisionConfigs now with
  | (_, none) => throw internalError
  | (o, some active) =>
    let withdrawn : OrgRows ω :=
      { o with
        configs := o.configs.map fun c =>
          if c.status = .proposed then
            { c with
              status := .withdrawn
              decidedBy := some actor
              decidedAt := some now
              decisionNote := some ("Withdrawn: version " ++ toString target.version ++
                " was restored.") }
          else c }
    let row : DecisionConfig :=
      { id := withdrawn.freshId
        version := withdrawn.nextVersion
        status := .proposed
        thresholds := target.thresholds
        note
        basedOnVersion := some active.version
        rollbackOfVersion := some target.version
        proposedBy := some actor
        proposedAt := now
        decidedBy := some actor
        decidedAt := some now }
    let inserted : OrgRows ω := { withdrawn with configs := withdrawn.configs ++ [row] }
    pure (inserted.activate org row now)

end OrgRows

/-! ## The machine -/

open OrgRows (Deciding ConfigDecision)

/-- One organisation: its rows, the requests that saw no version and will create the first (with the
thresholds they read), and the decision that holds the lock. -/
structure Governance (ω : Type) where
  rows : OrgRows ω
  firstUse : List (Option DecisionThresholds) := []
  deciding : Option (Deciding ω) := none

inductive GovernanceInput (ω : Type)
  /-- A list request finds no active version. -/
  | readFirst
  /-- The `k`-th of these requests inserts. -/
  | insertFirst (k : Nat) (now : Int)
  | propose (actor : StaffId) (thresholds : DecisionThresholds) (note : String) (now : Int)
  | decide (actor : StaffId) (id : Nat) (decision : ConfigDecision) (note : Option String) (now : Int)
  | commitDecision
  /-- The connection is lost before the commit. -/
  | abortDecision
  | rollback (actor : StaffId) (id : Nat) (note : String) (now : Int)
  /-- The settings form: it never changes the thresholds. -/
  | putSettings (rest : ω)
  /-- An account is added, disabled, enabled or given another role. -/
  | putStaff (user : Approver)

variable {ω : Type}

def OrgRows.putStaff (o : OrgRows ω) (user : Approver) : OrgRows ω :=
  { o with staff := user :: o.staff.filter fun u => decide (u.id ≠ user.id) }

/-- A transaction that throws leaves the rows as they were. -/
def Governance.commit (s : Governance ω) (r : Except HttpError (OrgRows ω)) : Governance ω :=
  match r with
  | .ok rows => { s with rows }
  | .error _ => s

def governanceStep : GovernanceInput ω → Governance ω → Governance ω
  | .readFirst, s =>
    if s.rows.activeConfig.isSome then s
    else { s with firstUse := s.firstUse ++ [s.rows.custom] }
  | .insertFirst k now, s =>
    match s.firstUse[k]? with
    | some custom =>
      { s with rows := s.rows.insertFirst custom now, firstUse := s.firstUse.eraseIdx k }
    | none => s
  | .propose actor thresholds note now, s =>
    s.commit (s.rows.proposeDecisionConfig actor thresholds note now)
  | .decide actor id decision note now, s =>
    match s.rows.decideDecisionConfig actor id decision note now with
    | .ok d => { s with deciding := some d }
    | .error _ => s
  | .commitDecision, s =>
    match s.deciding with
    | some d => { s with rows := s.rows.writeDecision d, deciding := none }
    | none => s
  | .abortDecision, s => { s with deciding := none }
  | .rollback actor id note now, s => s.commit (s.rows.rollbackDecisionConfig actor id note now)
  | .putSettings rest, s =>
    { s with rows := { s.rows with settings := { s.rows.settings with rest } } }
  | .putStaff user, s => { s with rows := s.rows.putStaff user }

/-- The inputs that lock the organisation's row. -/
def GovernanceInput.locks : GovernanceInput ω → Bool
  | .propose .. | .decide .. | .rollback .. | .putSettings _ => true
  | _ => false

/-- An organisation from its first configuration on. -/
def governance (ω : Type) : Machine (Governance ω) (GovernanceInput ω) where
  init s := s.rows.configs = [] ∧ s.firstUse = [] ∧ s.deciding = none
  step := governanceStep
  enabled i s := i.locks = true → s.deciding = none

instance (i : GovernanceInput ω) (s : Governance ω) [DecidableEq ω] :
    Decidable ((governance ω).enabled i s) :=
  inferInstanceAs (Decidable (i.locks = true → s.deciding = none))

end SmartProctoring
