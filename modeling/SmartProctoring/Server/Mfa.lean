import SmartProctoring.Lib.Run

/-!
# Two-step sign-in

`services/mfa.ts` and `lib/totp.ts`: the authenticator secret and the recovery codes of one staff
account, and its sign-in challenges.  Requests verify codes on a copy of the user's row that was
loaded at any time before; what they write is one statement, or one transaction, at a time.

The one-time code of a secret and a step, and the digest of a recovery code, are parameters.
-/

set_option autoImplicit false

namespace SmartProctoring

def TOTP_STEP_SEC : Int := 30

/-- Steps accepted on either side of the current one. -/
def TOTP_WINDOW : Int := 1

def MFA_CHALLENGE_TTL_MS : Int := 5 * 60000
def MAX_CHALLENGE_ATTEMPTS : Nat := 5

/-- A secret being set up must be confirmed within this time. -/
def TOTP_SETUP_TTL_MS : Int := 15 * 60000

def totpStep (nowMs : Int) : Int := nowMs / 1000 / TOTP_STEP_SEC

/-- The one-time codes and the digest of recovery codes. -/
structure Codes (κ Code η : Type) where
  hotp : κ → Int → Code
  hashRecovery : Code → η

/-- The columns of `staff_users` that concern the second factor. -/
structure StaffUser (κ : Type) where
  totpSecret : Option κ := none
  totpLastStep : Option Int := none
  mfaEnabledAt : Option Int := none
  /-- The secret being set up, and since when. -/
  totpPending : Option (κ × Int) := none
  deriving DecidableEq

structure RecoveryCode (η : Type) where
  id : Nat
  codeHash : η
  usedAt : Option Int := none

structure LoginChallenge where
  id : Nat
  expiresAt : Int
  attempts : Nat := 0

/-- A set-up confirmation whose checks have passed and that has yet to commit. -/
structure ConfirmedSetup (κ : Type) where
  secret : κ
  step : Int

/-- An account's second factors, and the requests about it.  `accepted`, `consumed` and `checked`
are no columns: they list the steps that were accepted for the secret enrolled at that time, the
recovery codes that were accepted, and the challenges whose codes were checked. -/
structure SecondFactors (κ η : Type) where
  user : StaffUser κ := {}
  recoveryCodes : List (RecoveryCode η) := []
  challenges : List LoginChallenge := []
  nextId : Nat := 0
  /-- The user's row as it was at some time: a request may hold any of these. -/
  copies : List (StaffUser κ) := [{}]
  confirmed : List (ConfirmedSetup κ) := []
  /-- Challenges with an attempt taken whose code has yet to be checked. -/
  taken : List Nat := []
  accepted : List (κ × Int) := []
  consumed : List Nat := []
  checked : List Nat := []

/-- What the user typed: six digits are an authenticator code, anything else a recovery code. -/
inductive SecondFactor (Code : Type)
  | authenticator (code : Code)
  | recovery (code : Code)
  deriving DecidableEq

section Verification

variable {κ Code η : Type} [DecidableEq κ] [DecidableEq Code] [DecidableEq η]
variable (codes : Codes κ Code η)

/-- The step the code belongs to, unless it is wrong, outside the window or replayed. -/
def verifyTotp (secret : κ) (code : Code) (nowMs : Int) (lastUsedStep : Option Int) : Option Int :=
  let now := totpStep nowMs
  [now - TOTP_WINDOW, now, now + TOTP_WINDOW].find? fun step =>
    decide (codes.hotp secret step = code) && lastUsedStep.all fun last => decide (last < step)

namespace SecondFactors

variable (s : SecondFactors κ η)

def setUser (user : StaffUser κ) : SecondFactors κ η :=
  { s with user, copies := s.copies ++ [user] }

/-- The last accepted step moves forward to this one. -/
def acceptStep (secret : κ) (step : Int) : SecondFactors κ η :=
  { s.setUser { s.user with totpLastStep := some step } with
    accepted :=
      if s.user.totpSecret = some secret then s.accepted ++ [(secret, step)] else s.accepted }

/-- An authenticator code, verified on a copy of the user's row: the last accepted step is moved
forward with a compare-and-set. -/
def verifyTotpCode (copy : StaffUser κ) (code : Code) (now : Int) : SecondFactors κ η × Bool :=
  match copy.totpSecret with
  | none => (s, false)
  | some secret =>
    match verifyTotp codes secret code now copy.totpLastStep with
    | none => (s, false)
    | some step =>
      if s.user.totpLastStep.all fun last => decide (last < step) then
        (s.acceptStep secret step, true)
      else (s, false)

/-- The statement's condition: the code's digest, not used yet. -/
def unusedCode (code : Code) (c : RecoveryCode η) : Bool :=
  decide (c.codeHash = codes.hashRecovery code) && c.usedAt.isNone

/-- A recovery code, consumed atomically. -/
def consumeRecoveryCode (code : Code) (now : Int) : SecondFactors κ η × Bool :=
  let rows := s.recoveryCodes.filter (unusedCode codes code)
  let s : SecondFactors κ η := { s with
    recoveryCodes := s.recoveryCodes.map fun c =>
      if unusedCode codes code c then { c with usedAt := some now } else c }
  match rows with
  | [c] => ({ s with consumed := s.consumed ++ [c.id] }, true)
  | _ => (s, false)

/-- Either factor. -/
def verifySecondFactor (copy : StaffUser κ) (factor : SecondFactor Code) (now : Int) :
    SecondFactors κ η × Bool :=
  match factor with
  | .authenticator code => s.verifyTotpCode codes copy code now
  | .recovery code => s.consumeRecoveryCode codes code now

/-! ## Set-up -/

def beginTotpSetup (secret : κ) (now : Int) : SecondFactors κ η :=
  s.setUser { s.user with totpPending := some (secret, now) }

/-- The checks of `confirmTotpSetup`, on a copy of the user's row. -/
def confirmTotpSetup (copy : StaffUser κ) (code : Code) (currentCode : Option (SecondFactor Code))
    (now : Int) : SecondFactors κ η :=
  match copy.totpPending with
  | none => s
  | some (pending, pendingAt) =>
    if TOTP_SETUP_TTL_MS < now - pendingAt then s
    else
      match verifyTotp codes pending code now none with
      | none => s
      | some step =>
        let confirm (s : SecondFactors κ η) : SecondFactors κ η :=
          { s with confirmed := s.confirmed ++ [⟨pending, step⟩] }
        if copy.mfaEnabledAt.isSome then
          match currentCode with
          | none => s
          | some factor =>
            let (s, ok) := s.verifySecondFactor codes copy factor now
            if ok then confirm s else s
        else confirm s

/-- `replaceRecoveryCodes`, the second statement. -/
def insertRecoveryCodes (hashes : List η) : SecondFactors κ η :=
  { s with
    recoveryCodes := s.recoveryCodes ++
      hashes.zipIdx.map fun (codeHash, i) => { id := s.nextId + i, codeHash }
    nextId := s.nextId + hashes.length }

def deleteRecoveryCodes : SecondFactors κ η := { s with recoveryCodes := [] }

/-- The transaction of `confirmTotpSetup`: the secret is enrolled with the step of its code, and
gets new recovery codes. -/
def commitTotpSetup (c : ConfirmedSetup κ) (hashes : List η) (now : Int) : SecondFactors κ η :=
  let s := s.setUser
    { totpSecret := some c.secret
      totpLastStep := some c.step
      mfaEnabledAt := some now
      totpPending := none }
  ({ s with accepted := s.accepted ++
    [(c.secret, c.step)] }).deleteRecoveryCodes.insertRecoveryCodes
    hashes

/-- `disableMfa`, the first statement. -/
def disableMfa : SecondFactors κ η := s.setUser {}

/-! ## Challenges -/

/-- A new challenge replaces the user's others. -/
def createLoginChallenge (now : Int) : SecondFactors κ η :=
  { s with
    challenges := [{ id := s.nextId, expiresAt := now + MFA_CHALLENGE_TTL_MS }]
    nextId := s.nextId + 1 }

def deleteChallenge (id : Nat) : SecondFactors κ η :=
  { s with challenges := s.challenges.filter fun c => decide (c.id ≠ id) }

/-- The counting statement of `takeChallengeAttempt`, for a challenge that was read and had not
expired. The attempt is admitted while the new count is within the maximum. -/
def takeChallengeAttempt (id : Nat) : SecondFactors κ η :=
  let s : SecondFactors κ η := { s with
    challenges := s.challenges.map fun c =>
      if c.id = id then { c with attempts := c.attempts + 1 } else c }
  match s.challenges.find? fun c => c.id == id with
  | some c => if c.attempts ≤ MAX_CHALLENGE_ATTEMPTS then { s with taken := s.taken ++ [id] } else s
  | none => s

/-- The second step of a sign-in: the code of an attempt that was taken. -/
def signIn (id : Nat) (copy : StaffUser κ) (factor : SecondFactor Code) (now : Int) :
    SecondFactors κ η :=
  ({ s with taken := s.taken.erase id, checked := s.checked ++ [id] }).verifySecondFactor codes copy
    factor now |>.1

end SecondFactors

/-! ## Runs -/

/-- One statement or transaction of a request. -/
inductive FactorInput (κ Code η : Type)
  | beginSetup (secret : κ) (now : Int)
  | confirm (copy : StaffUser κ) (code : Code) (currentCode : Option (SecondFactor Code)) (now : Int)
  | commit (i : Nat) (hashes : List η) (now : Int)
  | reauth (copy : StaffUser κ) (factor : SecondFactor Code) (now : Int)
  | deleteRecoveryCodes
  | insertRecoveryCodes (hashes : List η)
  | disable
  | createChallenge (now : Int)
  | takeAttempt (id : Nat)
  | signIn (id : Nat) (copy : StaffUser κ) (factor : SecondFactor Code) (now : Int)
  | deleteChallenge (id : Nat)

def factorStep : FactorInput κ Code η → SecondFactors κ η → SecondFactors κ η
  | .beginSetup secret now, s => s.beginTotpSetup secret now
  | .confirm copy code currentCode now, s => s.confirmTotpSetup codes copy code currentCode now
  | .commit i hashes now, s =>
    match s.confirmed[i]? with
    | some c => ({ s with confirmed := s.confirmed.eraseIdx i }).commitTotpSetup c hashes now
    | none => s
  | .reauth copy factor now, s => (s.verifySecondFactor codes copy factor now).1
  | .deleteRecoveryCodes, s => s.deleteRecoveryCodes
  | .insertRecoveryCodes hashes, s => s.insertRecoveryCodes hashes
  | .disable, s => s.disableMfa
  | .createChallenge now, s => s.createLoginChallenge now
  | .takeAttempt id, s => s.takeChallengeAttempt id
  | .signIn id copy factor now, s => s.signIn codes id copy factor now
  | .deleteChallenge id, s => s.deleteChallenge id

/-- What a request holds: a copy of the user's row, and the attempt it has taken. -/
def FactorInput.enabled : FactorInput κ Code η → SecondFactors κ η → Prop
  | .confirm copy _ _ _, s => copy ∈ s.copies
  | .reauth copy _ _, s => copy ∈ s.copies
  | .signIn id copy _ _, s => id ∈ s.taken ∧ copy ∈ s.copies
  | _, _ => True

instance : ∀ (i : FactorInput κ Code η) (s : SecondFactors κ η), Decidable (i.enabled s)
  | .confirm copy _ _ _, s => inferInstanceAs (Decidable (copy ∈ s.copies))
  | .reauth copy _ _, s => inferInstanceAs (Decidable (copy ∈ s.copies))
  | .signIn id copy _ _, s => inferInstanceAs (Decidable (id ∈ s.taken ∧ copy ∈ s.copies))
  | .beginSetup .., _ | .commit .., _ | .deleteRecoveryCodes, _ | .insertRecoveryCodes _, _
  | .disable, _ | .createChallenge _, _ | .takeAttempt _, _ | .deleteChallenge _, _ => .isTrue trivial

/-- An account and its requests, in any order. -/
def secondFactors : Machine (SecondFactors κ η) (FactorInput κ Code η) where
  init s := s = {}
  step := factorStep codes
  enabled i s := i.enabled s

instance (i : FactorInput κ Code η) (s : SecondFactors κ η) :
    Decidable ((secondFactors codes).enabled i s) :=
  inferInstanceAs (Decidable (i.enabled s))

end Verification

end SmartProctoring
