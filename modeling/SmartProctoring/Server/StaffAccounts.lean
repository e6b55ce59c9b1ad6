import SmartProctoring.Lib.Processes
import SmartProctoring.Server.DecisionConfigs

/-!
# Staff accounts

The accounts of all organisations and who changes them: staff (`POST /users` and `PUT /users/:id` of
`routes/admin/org.ts`), the directory (`services/scim.ts`), and single sign-on (`resolveSsoUser` of
`services/sso/login.ts`).  Each statement of a transaction is a step, and what a transaction writes
is seen when it commits.  All but the creation by staff hold the organisation's advisory lock from
their first statement on.

An account is named by its place in the list: accounts are never removed.  Email addresses and roles
are taken as the requests' parsers leave them, trimmed and in lower case; an attribute that is no
usable text is `none`.  Left out: the end of the sessions of an account that was disabled, the audit
log, and the requests of the directory that only read.
-/

set_option autoImplicit false

namespace SmartProctoring

/-- `SSO_ASSIGNABLE_ROLES`: what the directory and the sign-on may give. -/
inductive SsoAssignableRole
  | reviewer | admin
  deriving DecidableEq

def SsoAssignableRole.toStaff : SsoAssignableRole → StaffRole
  | .reviewer => .reviewer
  | .admin => .admin

/-- A row of `staff_users`.  `password = none`: `NO_PASSWORD_HASH`. -/
@[ext]
structure StaffAccount where
  orgId : Nat
  email : String
  name : String
  role : StaffRole
  disabled : Bool
  password : Option Nat
  scimExternalId : Option String
  scimDeletedAt : Option Int
  lastLoginAt : Option Int
  deriving DecidableEq

/-- `PRIVILEGED`. -/
def StaffRole.privileged (role : StaffRole) : Bool := decide (role = .owner ∨ role = .admin)

/-- The columns that a statement sets. -/
structure AccountPatch where
  email : Option String
  name : Option String
  role : Option StaffRole
  disabled : Option Bool
  password : Option Nat
  scimExternalId : Option (Option String)
  scimDeletedAt : Option (Option Int)
  lastLoginAt : Option Int
  deriving DecidableEq

namespace AccountPatch

def empty : AccountPatch := ⟨none, none, none, none, none, none, none, none⟩

def apply (p : AccountPatch) (u : StaffAccount) : StaffAccount where
  orgId := u.orgId
  email := p.email.getD u.email
  name := p.name.getD u.name
  role := p.role.getD u.role
  disabled := p.disabled.getD u.disabled
  password := p.password.or u.password
  scimExternalId := p.scimExternalId.getD u.scimExternalId
  scimDeletedAt := p.scimDeletedAt.getD u.scimDeletedAt
  lastLoginAt := p.lastLoginAt.or u.lastLoginAt

end AccountPatch

/-! ## Requests -/

/-- The staff member a request was authenticated as. -/
structure StaffPrincipal where
  id : Nat
  orgId : Nat
  role : StaffRole
  deriving DecidableEq

structure UserCreate where
  email : String
  name : String
  role : StaffRole
  password : Nat
  deriving DecidableEq

structure UserUpdate where
  name : Option String
  role : Option StaffRole
  disabled : Option Bool
  password : Option Nat
  deriving DecidableEq

/-- An entry of the attribute `roles`; the value is `none` if it is no string. -/
structure RoleEntry where
  value : Option String
  primary : Bool
  deriving DecidableEq

/-- An attribute of a SCIM user, with the value given for it. -/
inductive ScimAttribute
  | userName (v : Option String)
  | displayName (v : Option String)
  | givenName (v : Option String)
  | familyName (v : Option String)
  | externalId (v : Option String)
  /-- `none`: neither true nor false. -/
  | active (v : Option Bool)
  | roles (entries : List RoleEntry)
  | emails (v : Option String)
  deriving DecidableEq

/-- The attributes SCIM can change, as parsed from a resource or a PATCH. -/
structure ScimUserChanges where
  email : Option String
  name : Option String
  givenName : Option String
  familyName : Option String
  externalId : Option (Option String)
  active : Option Bool
  role : Option SsoAssignableRole
  deriving DecidableEq

inductive ScimError
  | userNameNotEmail
  | userNameRequired
  | notBoolean
  | ownerRole
  | unknownRole
  deriving DecidableEq

namespace ScimUserChanges

def empty : ScimUserChanges := ⟨none, none, none, none, none, none, none⟩

/-- `role`: the primary entry, or the first. -/
def roleOf (entries : List RoleEntry) : Except ScimError SsoAssignableRole :=
  let picked := (entries.find? fun e => e.primary).or entries.head?
  let value := (picked.bind fun e => e.value).getD ""
  if value = "owner" then .error .ownerRole
  else if value = "reviewer" then .ok .reviewer
  else if value = "admin" then .ok .admin
  else .error .unknownRole

/-- Apply one attribute to the changes. -/
def applyAttribute (c : ScimUserChanges) (a : ScimAttribute) (remove : Bool) :
    Except ScimError ScimUserChanges :=
  match a with
  | .userName v =>
    match v with
    | some email => .ok { c with email := some email }
    | none => if remove then .ok c else .error .userNameNotEmail
  | .displayName v => .ok { c with name := v.or c.name }
  | .givenName v => .ok { c with givenName := some (v.getD "") }
  | .familyName v => .ok { c with familyName := some (v.getD "") }
  | .externalId v => .ok { c with externalId := some (if remove then none else v) }
  | .active v =>
    if remove then .ok { c with active := some false }
    else
      match v with
      | some b => .ok { c with active := some b }
      | none => .error .notBoolean
  | .roles entries =>
    if remove then .ok { c with role := some .reviewer }
    else if entries = [] then .ok c
    else do
      let role ← roleOf entries
      return { c with role := some role }
  | .emails v => .ok { c with email := c.email.or v }

def isEmails : ScimAttribute → Bool
  | .emails _ => true
  | _ => false

def emailsOf : ScimAttribute → Option String
  | .emails v => v
  | _ => none

/-- POST / PUT body → changes (userName required). -/
def parseScimUser (body : List ScimAttribute) : Except ScimError ScimUserChanges := do
  let c ← (body.filter fun a => !isEmails a).foldlM (fun c a => applyAttribute c a false) empty
  match c.email.or (body.findSome? emailsOf) with
  | some email => return { c with email := some email }
  | none => .error .userNameRequired

/-- PATCH body → changes; an operation removes or sets. -/
def parseScimPatch (operations : List (ScimAttribute × Bool)) : Except ScimError ScimUserChanges :=
  operations.foldlM (fun c op => applyAttribute c op.1 op.2) empty

def composedName (c : ScimUserChanges) : Option String :=
  match c.name with
  | some name => some name
  | none =>
    let parts := (c.givenName.toList ++ c.familyName.toList).filter fun part => decide (part ≠ "")
    if parts = [] then none else some (String.ofList ((" ".intercalate parts).toList.take 200))

end ScimUserChanges

/-- Whom a sign-on provider has vouched for. -/
structure SsoAttemptIdentity where
  subject : String
  /-- `none`: no email address that can be used. -/
  email : Option String
  emailVerified : Bool
  name : Option String
  groups : List String
  deriving DecidableEq

/-- `domains`: those of `sso_domains`.  `requireVerified`: an OpenID provider that asks for a
verified address. -/
structure IdentityProvider where
  id : Nat
  orgId : Nat
  domains : List String
  requireVerified : Bool
  jitEnabled : Bool
  jitDefaultRole : SsoAssignableRole
  roleMappings : List (String × SsoAssignableRole)
  deriving DecidableEq

def jitRole (provider : IdentityProvider) (groups : List String) : SsoAssignableRole :=
  let matched := (provider.roleMappings.filter fun m => decide (m.1 ∈ groups)).map fun m => m.2
  if SsoAssignableRole.admin ∈ matched then .admin
  else if SsoAssignableRole.reviewer ∈ matched then .reviewer
  else provider.jitDefaultRole

/-- What is before the first `@`. -/
def emailLocalPart (email : String) : String :=
  String.ofList (email.toList.takeWhile fun ch => decide (ch ≠ '@'))

/-- What is behind the last `@`. -/
def emailDomain (email : String) : String :=
  String.ofList (email.toList.reverse.takeWhile fun ch => decide (ch ≠ '@')).reverse

/-- A row of `staff_sso_identities`. -/
structure StaffSsoIdentity where
  staffUserId : Nat
  providerId : Nat
  subject : String
  deriving DecidableEq

/-! ## The rows -/

/-- The rows of all organisations, and which transaction holds the lock of an organisation. -/
structure StaffRows where
  users : List StaffAccount
  links : List StaffSsoIdentity
  lock : Nat → Option Nat

/-- What a transaction writes. -/
inductive AccountWrite
  /-- An account is updated, and linked to an identity if there is one. -/
  | patch (id : Nat) (p : AccountPatch) (link : Option StaffSsoIdentity)
  /-- A new account, linked to a provider's subject if there is one. -/
  | insert (u : StaffAccount) (link : Option (Nat × String))
  deriving DecidableEq

namespace StaffRows

variable (db : StaffRows)

def loadScopedUser (orgId id : Nat) : Option StaffAccount :=
  db.users[id]?.filter fun u => decide (u.orgId = orgId)

/-- An account of the organisation that the directory did not delete. -/
def loadVisible (orgId id : Nat) : Option StaffAccount :=
  (db.loadScopedUser orgId id).filter fun u => decide (u.scimDeletedAt = none)

def userByEmail (email : String) : Option (Nat × StaffAccount) := do
  let id ← db.users.findIdx? fun u => decide (u.email = email)
  let u ← db.users[id]?
  return (id, u)

def taken (email : String) : Bool := db.users.any fun u => decide (u.email = email)

/-- The enabled owners of an organisation other than an account. -/
def otherOwners (orgId id : Nat) : Nat :=
  (List.range db.users.length).countP fun k =>
    db.users[k]?.any fun u => decide (k ≠ id ∧ u.orgId = orgId ∧ u.role = .owner ∧ u.disabled = false)

def takeLock (orgId i : Nat) : StaffRows :=
  { db with lock := Function.update db.lock orgId (some i) }

/-- The end of transaction `i`, which lets its locks go. -/
def release (i : Nat) : StaffRows :=
  { db with lock := fun o => if db.lock o = some i then none else db.lock o }

def write : AccountWrite → StaffRows
  | .patch id p link => { db with users := db.users.modify id p.apply, links := db.links ++ link.toList }
  | .insert u link =>
    { db with
      users := db.users ++ [u]
      links := db.links ++ link.toList.map fun l => ⟨db.users.length, l.1, l.2⟩ }

end StaffRows

def StaffAccount.new (orgId : Nat) (email name : String) (role : StaffRole) : StaffAccount :=
  ⟨orgId, email, name, role, false, none, none, none, none⟩

/-! ## What an update does -/

namespace UserUpdate

variable (body : UserUpdate)

/-- What no one may do with their own account. -/
def refusedSelf (s : StaffPrincipal) (id : Nat) : Bool :=
  decide (id = s.id) && (body.password.isSome || decide (body.disabled = some true))

/-- What only an owner may do with an account. -/
def refused (s : StaffPrincipal) (id : Nat) (target : StaffAccount) : Bool :=
  decide (s.role ≠ .owner) &&
    ((target.role.privileged && decide (id ≠ s.id)) ||
      body.role.any fun role => decide (role ≠ target.role) && (role.privileged || decide (id = s.id)))

/-- `demotesOwner` or `disablesOwner`. -/
def endangers (target : StaffAccount) : Bool :=
  decide (target.role = .owner) &&
    ((body.role.any fun role => decide (role ≠ .owner)) ||
      (decide (body.disabled = some true) && !target.disabled))

/-- What `PUT /users/:id` sets. -/
def patch (target : StaffAccount) : AccountPatch where
  email := none
  name := body.name.filter fun name => decide (name ≠ target.name)
  role := body.role.filter fun role => decide (role ≠ target.role)
  disabled := body.disabled.filter fun b => decide (b ≠ target.disabled)
  password := body.password
  scimExternalId := none
  -- enabled again: the directory sees the account again
  scimDeletedAt := if body.disabled = some false ∧ target.disabled = true then some none else none
  lastLoginAt := none

end UserUpdate

/-- `applyChanges`: what the directory sets. -/
def ScimUserChanges.patch (c : ScimUserChanges) (user : StaffAccount) : AccountPatch :=
  { AccountPatch.empty with
    email := c.email.filter fun email => decide (email ≠ user.email)
    name := c.composedName.filter fun name => decide (name ≠ user.name)
    scimExternalId := c.externalId.filter fun x => decide (x ≠ user.scimExternalId)
    role := (c.role.map SsoAssignableRole.toStaff).filter fun role => decide (role ≠ user.role)
    disabled := (c.active.filter fun b => decide (b = user.disabled)).map fun b => !b }

/-! ## Transactions -/

/-- A transaction, at its next statement. -/
inductive AccountTask
  | done
  | create (s : StaffPrincipal) (body : UserCreate)
  | insertUser (s : StaffPrincipal) (body : UserCreate)
  | update (s : StaffPrincipal) (id : Nat) (body : UserUpdate)
  | lockUpdate (s : StaffPrincipal) (id : Nat) (body : UserUpdate)
  | loadTarget (s : StaffPrincipal) (id : Nat) (body : UserUpdate)
  | countOwners (s : StaffPrincipal) (id : Nat) (body : UserUpdate) (target : StaffAccount)
  | writeUpdate (s : StaffPrincipal) (id : Nat) (body : UserUpdate) (target : StaffAccount)
  | scimPost (orgId : Nat) (body : List ScimAttribute)
  | scimPut (orgId : Nat) (id : Nat) (body : List ScimAttribute)
  | scimPatch (orgId : Nat) (id : Nat) (operations : List (ScimAttribute × Bool))
  | scimDelete (orgId : Nat) (id : Nat)
  | lockScimCreate (orgId : Nat) (c : ScimUserChanges)
  | findExisting (orgId : Nat) (c : ScimUserChanges)
  | reviveUser (orgId : Nat) (c : ScimUserChanges) (id : Nat) (user : StaffAccount)
  | insertScimUser (orgId : Nat) (c : ScimUserChanges)
  | lockScimUpdate (orgId : Nat) (id : Nat) (c : ScimUserChanges)
  | loadUpdated (orgId : Nat) (id : Nat) (c : ScimUserChanges)
  | checkUserName (orgId : Nat) (id : Nat) (c : ScimUserChanges) (user : StaffAccount)
  | writeScimUser (orgId : Nat) (id : Nat) (c : ScimUserChanges) (user : StaffAccount)
  | lockScimDelete (orgId : Nat) (id : Nat)
  | loadDeleted (orgId : Nat) (id : Nat)
  | writeDeleted (orgId : Nat) (id : Nat) (user : StaffAccount)
  | sso (provider : IdentityProvider) (identity : SsoAttemptIdentity)
  | lockSso (provider : IdentityProvider) (identity : SsoAttemptIdentity) (email : String)
  | findLink (provider : IdentityProvider) (identity : SsoAttemptIdentity) (email : String)
  | findLinked (provider : IdentityProvider) (identity : SsoAttemptIdentity) (id : Nat)
  | findAccount (provider : IdentityProvider) (identity : SsoAttemptIdentity) (email : String)
  | findOther (provider : IdentityProvider) (identity : SsoAttemptIdentity) (id : Nat)
  | insertSsoUser (provider : IdentityProvider) (identity : SsoAttemptIdentity) (email : String)
  | signedIn (provider : IdentityProvider) (id : Nat) (link : Option StaffSsoIdentity)
  deriving DecidableEq

/-- What a statement comes to. -/
inductive AccountOutcome
  /-- It has read what it asked for. -/
  | next (t : AccountTask)
  /-- It waits for the lock of an organisation and has it then. -/
  | locked (orgId : Nat) (t : AccountTask)
  /-- The transaction ends, and nothing is written. -/
  | ends
  /-- The last statement: what was written is committed. -/
  | commit (w : AccountWrite)
  deriving DecidableEq

namespace AccountTask

/-- The next statement of a transaction, at the time `now`. -/
def statement (now : Int) (db : StaffRows) : AccountTask → AccountOutcome
  | done => .ends
  | create s body =>
    if body.role.privileged && decide (s.role ≠ .owner) then .ends
    else if db.taken body.email then .ends
    else .next (insertUser s body)
  | insertUser s body =>
    if db.taken body.email then .ends
    else
      .commit (.insert { StaffAccount.new s.orgId body.email body.name body.role with
        password := some body.password } none)
  | update s id body => if body.refusedSelf s id then .ends else .next (lockUpdate s id body)
  | lockUpdate s id body => .locked s.orgId (loadTarget s id body)
  | loadTarget s id body =>
    match db.loadScopedUser s.orgId id with
    | none => .ends
    | some target =>
      if body.refused s id target then .ends
      else if body.endangers target then .next (countOwners s id body target)
      else .next (writeUpdate s id body target)
  | countOwners s id body target =>
    if db.otherOwners s.orgId id = 0 then .ends else .next (writeUpdate s id body target)
  | writeUpdate _ id body target => .commit (.patch id (body.patch target) none)
  | scimPost orgId body =>
    match ScimUserChanges.parseScimUser body with
    | .ok c => .next (lockScimCreate orgId c)
    | .error _ => .ends
  | scimPut orgId id body =>
    match ScimUserChanges.parseScimUser body with
    | .ok c => .next (lockScimUpdate orgId id c)
    | .error _ => .ends
  | scimPatch orgId id operations =>
    match ScimUserChanges.parseScimPatch operations with
    | .ok c => .next (lockScimUpdate orgId id c)
    | .error _ => .ends
  | scimDelete orgId id => .next (lockScimDelete orgId id)
  | lockScimCreate orgId c => .locked orgId (findExisting orgId c)
  | findExisting orgId c =>
    match c.email.bind db.userByEmail with
    | some (id, user) =>
      -- An account deleted through SCIM comes back; anything else is a duplicate.
      if user.orgId ≠ orgId ∨ user.scimDeletedAt = none then .ends
      else if user.role = .owner then .ends
      else .next (reviveUser orgId c id user)
    | none => .next (insertScimUser orgId c)
  | reviveUser _ c id user =>
    let patch := ScimUserChanges.patch { c with active := some (c.active.getD true) } user
    .commit (.patch id { patch with scimDeletedAt := some none } none)
  | insertScimUser orgId c =>
    let email := c.email.getD ""
    if db.taken email then .ends
    else
      let role := (c.role.getD .reviewer).toStaff
      .commit (.insert { StaffAccount.new orgId email (c.composedName.getD (emailLocalPart email)) role with
        disabled := decide (c.active = some false)
        scimExternalId := c.externalId.getD none } none)
  | lockScimUpdate orgId id c => .locked orgId (loadUpdated orgId id c)
  | loadUpdated orgId id c =>
    match db.loadVisible orgId id with
    | none => .ends
    | some user =>
      if user.role = .owner then .ends
      else if (c.patch user).email.isSome then .next (checkUserName orgId id c user)
      else .next (writeScimUser orgId id c user)
  | checkUserName orgId id c user =>
    if (c.patch user).email.any db.taken then .ends else .next (writeScimUser orgId id c user)
  | writeScimUser _ id c user =>
    -- the unique index may still refuse the address
    if c.patch user = .empty ∨ (c.patch user).email.any db.taken = true then .ends
    else .commit (.patch id (c.patch user) none)
  | lockScimDelete orgId id => .locked orgId (loadDeleted orgId id)
  | loadDeleted orgId id =>
    match db.loadVisible orgId id with
    | none => .ends
    | some user => if user.role = .owner then .ends else .next (writeDeleted orgId id user)
  | writeDeleted _ id _ =>
    .commit (.patch id { AccountPatch.empty with disabled := some true, scimDeletedAt := some (some now) } none)
  | sso provider identity =>
    match identity.email with
    | some email => if identity.subject = "" then .ends else .next (lockSso provider identity email)
    | none => .ends
  | lockSso provider identity email => .locked provider.orgId (findLink provider identity email)
  | findLink provider identity email =>
    if emailDomain email ∉ provider.domains then .ends
    else if provider.requireVerified && !identity.emailVerified then .ends
    else
      match db.links.find? fun l => decide (l.providerId = provider.id ∧ l.subject = identity.subject) with
      | some l => .next (findLinked provider identity l.staffUserId)
      | none => .next (findAccount provider identity email)
  | findLinked provider _ id =>
    match db.loadScopedUser provider.orgId id with
    | none => .ends
    | some user => if user.disabled then .ends else .next (signedIn provider id none)
  | findAccount provider identity email =>
    match db.userByEmail email with
    | some (id, user) =>
      if user.orgId ≠ provider.orgId then .ends
      else if user.disabled then .ends
      else .next (findOther provider identity id)
    | none => if provider.jitEnabled then .next (insertSsoUser provider identity email) else .ends
  | findOther provider identity id =>
    if db.links.any fun l => decide (l.staffUserId = id ∧ l.providerId = provider.id) then .ends
    else .next (signedIn provider id (some ⟨id, provider.id, identity.subject⟩))
  | insertSsoUser provider identity email =>
    if db.taken email then .ends
    else
      let name := identity.name.getD (emailLocalPart email)
      let role := (jitRole provider identity.groups).toStaff
      .commit (.insert { StaffAccount.new provider.orgId email name role with lastLoginAt := some now }
        (some (provider.id, identity.subject)))
  | signedIn _ id link => .commit (.patch id { AccountPatch.empty with lastLoginAt := some now } link)

def isRequest : AccountTask → Bool
  | create .. => true
  | update .. => true
  | scimPost .. => true
  | scimPut .. => true
  | scimPatch .. => true
  | scimDelete .. => true
  | sso .. => true
  | _ => false

/-- The staff member who makes a request. -/
def principal? : AccountTask → Option StaffPrincipal
  | create s _ => some s
  | update s _ _ => some s
  | _ => none

end AccountTask

/-! ## The transactions together -/

/-- Process `i` begins a request, comes to its next statement, or fails and is rolled back. -/
inductive AccountAction
  | arrive (i : Nat) (t : AccountTask)
  | advance (i : Nat) (now : Int)
  | fail (i : Nat)
  deriving DecidableEq

abbrev StaffAccounts := Processes StaffRows Nat AccountTask

namespace StaffAccounts

/-- `requireStaff('admin')`: the session's account is enabled, and an owner's or an
administrator's. -/
def authenticated (db : StaffRows) (s : StaffPrincipal) : Prop :=
  s.role.privileged = true ∧ ∃ u ∈ db.users[s.id]?,
  u.orgId = s.orgId ∧ u.role = s.role ∧ u.disabled = false

/-- The organisation whose lock a statement waits for. -/
def waitsFor : AccountOutcome → Option Nat
  | .locked orgId _ => some orgId
  | _ => none

/-- What the rows and process `i` are after a statement. -/
def settle (i : Nat) (db : StaffRows) : AccountOutcome → StaffRows × AccountTask
  | .next t => (db, t)
  | .locked orgId t => (db.takeLock orgId i, t)
  | .ends => (db.release i, .done)
  | .commit w => ((db.write w).release i, .done)

def step (a : AccountAction) (s : StaffAccounts) : StaffAccounts :=
  match a with
  | .arrive i t => s.move i (s.shared, t)
  | .advance i now => s.move i (settle i s.shared ((s.loc i).statement now s.shared))
  | .fail i => s.move i (s.shared.release i, .done)

def enabled (a : AccountAction) (s : StaffAccounts) : Prop :=
  match a with
  | .arrive i t =>
    s.loc i = .done ∧ t.isRequest = true ∧ ∀ principal ∈ t.principal?, authenticated s.shared principal
  | .advance i now => ∀ orgId ∈ waitsFor ((s.loc i).statement now s.shared), s.shared.lock orgId = none
  | .fail _ => True

/-- Nothing is under way. -/
def machine : Machine StaffAccounts AccountAction where
  init s := s.shared.lock = (fun _ => none) ∧ s.loc = fun _ => .done
  step := step
  enabled := enabled

end StaffAccounts

end SmartProctoring
