import Mathlib.Data.List.Basic
import SmartProctoring.Server.StaffAccounts

/-!
# Owners are kept

Whoever updates an account holds the lock of its organisation from the statement that read the
account to the one that writes it.  So what the checks found still holds when the update is
committed (`AccountTask.Found`, kept by the statements of the others because they leave the accounts
of a locked organisation alone), and no organisation loses its last enabled owner.  Who may change
which account is `Permitted`; `StaffAccounts.owners_kept` has both.

The directory changes administrators as well as reviewers, by design: `directory_disables_admin`.
-/

set_option autoImplicit false

namespace SmartProctoring

open Option

/-! ## Who may change an account -/

/-- On whose behalf a transaction changes accounts. -/
inductive AccountActor
  | staff (s : StaffPrincipal)
  | scim (orgId : Nat)
  | sso (orgId : Nat)
  deriving DecidableEq

namespace StaffAccount

def ActiveOwner (u : StaffAccount) (orgId : Nat) : Prop :=
  u.orgId = orgId ∧ u.role = .owner ∧ u.disabled = false
  deriving Decidable

end StaffAccount

/-- An organisation has an enabled owner. -/
def HasOwner (users : List StaffAccount) (orgId : Nat) : Prop := ∃ u ∈ users, u.ActiveOwner orgId

/-- An organisation has an enabled owner other than an account. -/
def HasOtherOwner (users : List StaffAccount) (orgId id : Nat) : Prop :=
  ∃ (k : Nat) (u : StaffAccount), k ≠ id ∧ users[k]? = some u ∧ u.ActiveOwner orgId

/-- What staff may make of the account `id`, or of none.  Of an own account that is privileged, who
is no owner changes the name, and enables it where it was disabled. -/
def PermittedStaff (s : StaffPrincipal) (id : Nat) (before : Option StaffAccount)
    (after : StaffAccount) : Prop :=
  after.orgId = s.orgId ∧ (∀ u ∈ before, u.orgId = s.orgId) ∧
    (s.role = .owner ∨
      (after.role.privileged = false ∧ ∀ u ∈ before, u.role.privileged = false) ∨
      (id = s.id ∧ ∃ u ∈ before, after = { u with name := after.name } ∨
        (u.disabled = true ∧ after = { u with name := after.name, disabled := false, scimDeletedAt := none })))

/-- What the directory may make of an account, or of none. -/
def PermittedScim (orgId : Nat) (before : Option StaffAccount) (after : StaffAccount) : Prop :=
  after.orgId = orgId ∧ after.role ≠ .owner ∧ ∀ u ∈ before, u.orgId = orgId ∧ u.role ≠ .owner

/-- A sign-on may create an account, and note on one that there is when it was. -/
def PermittedSso (orgId : Nat) (before : Option StaffAccount) (after : StaffAccount) : Prop :=
  after.orgId = orgId ∧
    match before with
    | none => after.role ≠ .owner
    | some u => after = { u with lastLoginAt := after.lastLoginAt }

def Permitted (actor : AccountActor) (id : Nat) (before : Option StaffAccount)
    (after : StaffAccount) : Prop :=
  match actor with
  | .staff s => PermittedStaff s id before after
  | .scim orgId => PermittedScim orgId before after
  | .sso orgId => PermittedSso orgId before after

/-! ## What a transaction has found -/

/-- What `PUT /users/:id` has checked about the account it is to change. -/
structure UpdateChecked (users : List StaffAccount) (s : StaffPrincipal) (id : Nat)
    (body : UserUpdate) (target : StaffAccount) : Prop where
  self : body.refusedSelf s id = false
  allowed : body.refused s id target = false
  row : users[id]? = some target
  org : target.orgId = s.orgId

/-- An account that the directory may change. -/
structure ScimMayChange (users : List StaffAccount) (orgId id : Nat)
    (user : StaffAccount) : Prop where
  row : users[id]? = some user
  org : user.orgId = orgId
  notOwner : user.role ≠ .owner

namespace AccountTask

def actor? : AccountTask → Option AccountActor
  | done => none
  | create s _ => some (.staff s)
  | insertUser s _ => some (.staff s)
  | update s _ _ => some (.staff s)
  | lockUpdate s _ _ => some (.staff s)
  | loadTarget s _ _ => some (.staff s)
  | countOwners s _ _ _ => some (.staff s)
  | writeUpdate s _ _ _ => some (.staff s)
  | scimPost orgId _ => some (.scim orgId)
  | scimPut orgId _ _ => some (.scim orgId)
  | scimPatch orgId _ _ => some (.scim orgId)
  | scimDelete orgId _ => some (.scim orgId)
  | lockScimCreate orgId _ => some (.scim orgId)
  | findExisting orgId _ => some (.scim orgId)
  | reviveUser orgId _ _ _ => some (.scim orgId)
  | insertScimUser orgId _ => some (.scim orgId)
  | lockScimUpdate orgId _ _ => some (.scim orgId)
  | loadUpdated orgId _ _ => some (.scim orgId)
  | checkUserName orgId _ _ _ => some (.scim orgId)
  | writeScimUser orgId _ _ _ => some (.scim orgId)
  | lockScimDelete orgId _ => some (.scim orgId)
  | loadDeleted orgId _ => some (.scim orgId)
  | writeDeleted orgId _ _ => some (.scim orgId)
  | sso provider _ => some (.sso provider.orgId)
  | lockSso provider _ _ => some (.sso provider.orgId)
  | findLink provider _ _ => some (.sso provider.orgId)
  | findLinked provider _ _ => some (.sso provider.orgId)
  | findAccount provider _ _ => some (.sso provider.orgId)
  | findOther provider _ _ => some (.sso provider.orgId)
  | insertSsoUser provider _ _ => some (.sso provider.orgId)
  | signedIn provider _ _ => some (.sso provider.orgId)

/-- The organisation whose lock a transaction holds. -/
def holds : AccountTask → Option Nat
  | loadTarget s _ _ => some s.orgId
  | countOwners s _ _ _ => some s.orgId
  | writeUpdate s _ _ _ => some s.orgId
  | findExisting orgId _ => some orgId
  | reviveUser orgId _ _ _ => some orgId
  | insertScimUser orgId _ => some orgId
  | loadUpdated orgId _ _ => some orgId
  | checkUserName orgId _ _ _ => some orgId
  | writeScimUser orgId _ _ _ => some orgId
  | loadDeleted orgId _ => some orgId
  | writeDeleted orgId _ _ => some orgId
  | findLink provider _ _ => some provider.orgId
  | findLinked provider _ _ => some provider.orgId
  | findAccount provider _ _ => some provider.orgId
  | findOther provider _ _ => some provider.orgId
  | insertSsoUser provider _ _ => some provider.orgId
  | signedIn provider _ _ => some provider.orgId
  | _ => none

/-- What the statements before have found. -/
def Found (users : List StaffAccount) : AccountTask → Prop
  | insertUser s body => s.role = .owner ∨ body.role.privileged = false
  | lockUpdate s id body => body.refusedSelf s id = false
  | loadTarget s id body => body.refusedSelf s id = false
  | countOwners s id body target => UpdateChecked users s id body target
  | writeUpdate s id body target =>
    UpdateChecked users s id body target ∧
    (body.endangers target = true → HasOtherOwner users s.orgId id)
  | reviveUser orgId _ id user => ScimMayChange users orgId id user
  | checkUserName orgId id _ user => ScimMayChange users orgId id user
  | writeScimUser orgId id _ user => ScimMayChange users orgId id user
  | writeDeleted orgId id user => ScimMayChange users orgId id user
  | findOther provider _ id => ∃ u, users[id]? = some u ∧ u.orgId = provider.orgId
  | signedIn provider id _ => ∃ u, users[id]? = some u ∧ u.orgId = provider.orgId
  | _ => True

end AccountTask

/-- The accounts of an organisation are as they were; there may be new ones. -/
def LeavesOrg (orgId : Nat) (users users' : List StaffAccount) : Prop :=
  ∀ (id : Nat) (u : StaffAccount), u.orgId = orgId → users[id]? = some u → users'[id]? = some u

theorem LeavesOrg.refl (orgId : Nat) (users : List StaffAccount) : LeavesOrg orgId users users :=
  fun _ _ _ hu => hu

variable {users users' : List StaffAccount}

theorem HasOtherOwner.mono {orgId id : Nat} (h : HasOtherOwner users orgId id)
    (hleaves : LeavesOrg orgId users users') : HasOtherOwner users' orgId id := by
  obtain ⟨k, u, hne, hu, howner⟩ := h
  exact ⟨k, u, hne, hleaves k u howner.1 hu, howner⟩

variable {id : Nat}

theorem UpdateChecked.mono {s : StaffPrincipal} {body : UserUpdate}
    {target : StaffAccount} (h : UpdateChecked users s id body target)
    (hleaves : LeavesOrg s.orgId users users') : UpdateChecked users' s id body target :=
  { h with row := hleaves id target h.org h.row }

theorem ScimMayChange.mono {orgId id : Nat} {user : StaffAccount}
    (h : ScimMayChange users orgId id user) (hleaves : LeavesOrg orgId users users') :
    ScimMayChange users' orgId id user :=
  ⟨hleaves id user h.org h.row, h.org, h.notOwner⟩

theorem AccountTask.Found.mono {t : AccountTask} (h : t.Found users)
    (hleaves : ∀ orgId, t.holds = some orgId → LeavesOrg orgId users users') : t.Found users' := by
  cases t with
  | countOwners => exact UpdateChecked.mono h (hleaves _ rfl)
  | writeUpdate =>
    exact ⟨h.1.mono (hleaves _ rfl), fun hdanger => (h.2 hdanger).mono (hleaves _ rfl)⟩
  | reviveUser | checkUserName | writeScimUser
  | writeDeleted => exact ScimMayChange.mono h (hleaves _ rfl)
  | findOther provider identity id | signedIn provider id link =>
    obtain ⟨u, hu, horg⟩ := h
    exact ⟨u, hleaves _ rfl id u horg hu, horg⟩
  | _ => exact h

/-! ## What is read -/

section

variable {db : StaffRows} {orgId id : Nat} {u : StaffAccount}

theorem row_of_loadScopedUser (h : db.loadScopedUser orgId id = some u) :
    db.users[id]? = some u ∧ u.orgId = orgId := by
  have h' := filter_eq_some_iff.1 h
  exact ⟨h'.1, of_decide_eq_true h'.2⟩

theorem row_of_loadVisible (h : db.loadVisible orgId id = some u) :
    db.users[id]? = some u ∧ u.orgId = orgId :=
  row_of_loadScopedUser (filter_eq_some_iff.1 h).1

theorem row_of_userByEmail {email : String} (h : db.userByEmail email = some (id, u)) :
    db.users[id]? = some u := by
  obtain ⟨k, -, hk⟩ := bind_eq_some_iff.1 h
  obtain ⟨v, hv, he⟩ := bind_eq_some_iff.1 hk
  cases he
  exact hv

theorem hasOtherOwner_of_otherOwners (h : db.otherOwners orgId id ≠ 0) :
    HasOtherOwner db.users orgId id := by
  obtain ⟨k, -, hk⟩ := List.countP_pos_iff.1 (Nat.pos_of_ne_zero h)
  obtain ⟨v, hv, hp⟩ := (any_eq_true _ _).1 hk
  obtain ⟨hne, horg, hrole, hdisabled⟩ := of_decide_eq_true hp
  exact ⟨k, v, hne, hv, horg, hrole, hdisabled⟩

end

/-! ## What is written -/

section

variable {users : List StaffAccount} {id : Nat}

/-- A write that the one on whose behalf it is may make, and that leaves an owner. -/
def AccountWrite.Sound (users : List StaffAccount) (t : AccountTask) : AccountWrite → Prop
  | .patch id p _ => ∃ u actor, users[id]? = some u ∧ t.holds = some u.orgId ∧
      t.actor? = some actor ∧ Permitted actor id (some u) (p.apply u) ∧
      (u.ActiveOwner u.orgId → (p.apply u).ActiveOwner u.orgId ∨ HasOtherOwner users u.orgId id)
  | .insert u _ => ∃ actor, t.actor? = some actor ∧ Permitted actor users.length none u

theorem getD_filter_ne {α : Type} [DecidableEq α] (o : Option α) (a : α) :
    (o.filter fun b => decide (b ≠ a)).getD a = o.getD a := by
  cases o with
  | none => rfl
  | some b =>
    rw [filter_some]
    by_cases h : b = a
    · rw [if_neg (by simp [h]), h]
      rfl
    · rw [if_pos (by simp [h])]

section

variable {s : StaffPrincipal} {body : UserUpdate} {target : StaffAccount}

theorem UserUpdate.apply_role (body : UserUpdate) (target : StaffAccount) :
    ((body.patch target).apply target).role = body.role.getD target.role :=
  getD_filter_ne body.role target.role

theorem UserUpdate.apply_disabled (body : UserUpdate) (target : StaffAccount) :
    ((body.patch target).apply target).disabled = body.disabled.getD target.disabled :=
  getD_filter_ne body.disabled target.disabled

theorem UserUpdate.apply_self (hpassword : body.password = none)
    (hrole : ((body.patch target).apply target).role = target.role) :
    (body.patch target).apply target = { target with
      name := ((body.patch target).apply target).name
      disabled := body.disabled.getD target.disabled
      scimDeletedAt := if body.disabled = some false ∧ target.disabled = true then none
        else target.scimDeletedAt } := by
  rw [← UserUpdate.apply_disabled body target]
  refine StaffAccount.ext rfl rfl rfl hrole rfl ?_ rfl ?_ rfl
  · show body.password.or target.password = target.password
    rw [hpassword, none_or]
  · show (if body.disabled = some false ∧ target.disabled = true then some none else none).getD
      target.scimDeletedAt = _
    split <;> rfl

section

variable (h : UpdateChecked users s id body target) (hs : s.role ≠ .owner)
include h hs

theorem UpdateChecked.role_eq (hself : id = s.id) : body.role.getD target.role = target.role := by
  have hallowed := h.allowed
  cases hrole : body.role with
  | none => rfl
  | some role =>
    by_contra hne
    have hne' : role ≠ target.role := hne
    simp [UserUpdate.refused, hs, hrole, hself, hne'] at hallowed

theorem UpdateChecked.role_unprivileged
    (htarget : target.role.privileged = false) :
    (body.role.getD target.role).privileged = false := by
  have hallowed := h.allowed
  cases hrole : body.role with
  | none => exact htarget
  | some role =>
    by_cases hsame : role = target.role
    · rw [hsame]
      exact htarget
    · have hnone : role.privileged = false ∧ id ≠ s.id := by
        simpa [UserUpdate.refused, hs, hrole, htarget, hsame] using hallowed
      exact hnone.1

theorem UpdateChecked.own (htarget : target.role.privileged = true) : id = s.id := by
  have hallowed := h.allowed
  by_contra hne
  simp [UserUpdate.refused, hs, htarget, hne] at hallowed

end

theorem UpdateChecked.permitted (h : UpdateChecked users s id body target) :
    PermittedStaff s id (some target) ((body.patch target).apply target) := by
  refine ⟨h.org, fun u hu => by cases hu; exact h.org, ?_⟩
  by_cases hs : s.role = .owner
  · exact .inl hs
  · refine .inr ?_
    rw [UserUpdate.apply_role]
    by_cases htarget : target.role.privileged = true
    · have hself := h.own hs htarget
      have hkept : body.password = none ∧ body.disabled ≠ some true := by
        simpa [UserUpdate.refusedSelf, hself] using h.self
      have hrole : ((body.patch target).apply target).role = target.role :=
        (UserUpdate.apply_role body target).trans (h.role_eq hs hself)
      refine .inr ⟨hself, target, rfl, ?_⟩
      rw [UserUpdate.apply_self hkept.1 hrole]
      cases hb : body.disabled with
      | none => exact .inl rfl
      | some b =>
        obtain rfl : b = false := by
          cases b
          · rfl
          · exact absurd hb hkept.2
        cases hdisabled : target.disabled with
        | false => exact .inl (by simp)
        | true => exact .inr ⟨rfl, by simp⟩
    · have hplain := eq_false_of_ne_true htarget
      exact .inl ⟨h.role_unprivileged hs hplain, fun u hu => by cases hu; exact hplain⟩

theorem UserUpdate.activeOwner (hsafe : body.endangers target = false) {orgId : Nat}
    (h : target.ActiveOwner orgId) : ((body.patch target).apply target).ActiveOwner orgId := by
  obtain ⟨horg, hrole, hdisabled⟩ := h
  have hkept : (∀ role, body.role = some role → role = .owner) ∧ body.disabled ≠ some true := by
    simpa [UserUpdate.endangers, hrole, hdisabled, any_eq_false] using hsafe
  refine ⟨horg, ?_, ?_⟩
  · rw [UserUpdate.apply_role]
    cases hb : body.role with
    | none => exact hrole
    | some role => exact hkept.1 role hb
  · rw [UserUpdate.apply_disabled]
    cases hb : body.disabled with
    | none => exact hdisabled
    | some b =>
      cases b with
      | false => rfl
      | true => exact absurd hb hkept.2

theorem UpdateChecked.sound (h : UpdateChecked users s id body target)
    (hother : body.endangers target = true → HasOtherOwner users s.orgId id) :
    (AccountWrite.patch id (body.patch target) none).Sound users (.writeUpdate s id body target) := by
  refine ⟨target, .staff s, h.row, congrArg some h.org.symm, rfl, h.permitted, fun howner => ?_⟩
  cases hdanger : body.endangers target with
  | true =>
    rw [h.org]
    exact .inr (hother hdanger)
  | false => exact .inl (UserUpdate.activeOwner hdanger howner)

end

theorem SsoAssignableRole.toStaff_ne_owner (role : SsoAssignableRole) : role.toStaff ≠ .owner := by
  cases role <;> decide

theorem ScimMayChange.sound {orgId : Nat} {user : StaffAccount} {p : AccountPatch} {t : AccountTask}
    (h : ScimMayChange users orgId id user) (hp : p.role ≠ some .owner)
    (hactor : t.actor? = some (.scim orgId))
    (hholds : t.holds = some orgId) : (AccountWrite.patch id p none).Sound users t := by
  refine ⟨user, .scim orgId, h.row, ?_, hactor, ⟨h.org, ?_, ?_⟩,
    fun howner => absurd howner.2.1 h.notOwner⟩
  · rw [hholds, h.org]
  · show p.role.getD user.role ≠ .owner
    cases hrole : p.role with
    | none => exact h.notOwner
    | some role =>
      rintro (rfl : role = .owner)
      exact hp hrole
  · intro u hu
    cases hu
    exact ⟨h.org, h.notOwner⟩

theorem ScimUserChanges.patch_role (c : ScimUserChanges) (user : StaffAccount) :
    (c.patch user).role ≠ some .owner := by
  intro h
  obtain ⟨hrole, -⟩ := filter_eq_some_iff.1 h
  obtain ⟨role, -, hrole'⟩ := map_eq_some_iff.1 hrole
  exact role.toStaff_ne_owner hrole'

end

/-! ## What a statement comes to -/

/-- Transaction `t` may come to this: what it found is true, it holds the lock it should, and what
it commits is sound. -/
def AccountOutcome.Sound (users : List StaffAccount) (t : AccountTask) : AccountOutcome → Prop
  | .next t' => t'.Found users ∧ t'.holds = t.holds
  | .locked orgId t' => t'.Found users ∧ t'.holds = some orgId ∧ t.holds = none
  | .ends => True
  | .commit w => w.Sound users t

section

attribute [local simp] AccountTask.statement

variable (now : Int) {db : StaffRows}

/-! ### Staff -/

theorem create_sound (s : StaffPrincipal) (body : UserCreate) :
    ((AccountTask.create s body).statement now db).Sound db.users (.create s body) := by
  simp only [AccountTask.statement]
  split
  · trivial
  · rename_i hrole
    split
    · trivial
    · refine ⟨?_, rfl⟩
      by_cases hs : s.role = .owner
      · exact .inl hs
      · exact .inr (by simpa [hs] using hrole)

theorem insertUser_sound {s : StaffPrincipal} {body : UserCreate}
    (h : s.role = .owner ∨ body.role.privileged = false) :
    ((AccountTask.insertUser s body).statement now db).Sound db.users (.insertUser s body) := by
  simp only [AccountTask.statement]
  split
  · trivial
  · refine ⟨.staff s, rfl, rfl, by simp, ?_⟩
    exact h.imp id fun hplain => .inl ⟨hplain, by simp⟩

theorem loadTarget_sound {s : StaffPrincipal} {id : Nat} {body : UserUpdate}
    (h : body.refusedSelf s id = false) :
    ((AccountTask.loadTarget s id body).statement now db).Sound db.users
      (.loadTarget s id body) := by
  simp only [AccountTask.statement]
  split
  · trivial
  · rename_i target htarget
    obtain ⟨hrow, horg⟩ := row_of_loadScopedUser htarget
    split
    · trivial
    · rename_i hallowed
      have hchecked : UpdateChecked db.users s id body target := ⟨h, eq_false_of_ne_true hallowed, hrow, horg⟩
      split
      · exact ⟨hchecked, rfl⟩
      · rename_i hsafe
        exact ⟨⟨hchecked, fun hdanger => absurd hdanger hsafe⟩, rfl⟩

/-! ### The directory -/

theorem findExisting_sound (orgId : Nat) (c : ScimUserChanges) :
    ((AccountTask.findExisting orgId c).statement now db).Sound db.users (.findExisting orgId c) := by
  simp only [AccountTask.statement]
  split
  · rename_i id user hfound
    obtain ⟨email, -, hemail⟩ := bind_eq_some_iff.1 hfound
    split
    · trivial
    · rename_i hdeleted
      have horg : user.orgId = orgId := by
        by_contra hne
        exact hdeleted (.inl hne)
      split
      · trivial
      · rename_i hrole
        exact ⟨⟨row_of_userByEmail hemail, horg, hrole⟩, rfl⟩
  · exact ⟨trivial, rfl⟩

theorem loadUpdated_sound (orgId id : Nat) (c : ScimUserChanges) :
    ((AccountTask.loadUpdated orgId id c).statement now db).Sound db.users (.loadUpdated orgId id c) := by
  simp only [AccountTask.statement]
  split
  · trivial
  · rename_i user hvisible
    obtain ⟨hrow, horg⟩ := row_of_loadVisible hvisible
    split
    · trivial
    · rename_i hrole
      split
      · exact ⟨⟨hrow, horg, hrole⟩, rfl⟩
      · exact ⟨⟨hrow, horg, hrole⟩, rfl⟩

theorem loadDeleted_sound (orgId id : Nat) :
    ((AccountTask.loadDeleted orgId id).statement now db).Sound db.users (.loadDeleted orgId id) := by
  simp only [AccountTask.statement]
  split
  · trivial
  · rename_i user hvisible
    obtain ⟨hrow, horg⟩ := row_of_loadVisible hvisible
    split
    · trivial
    · rename_i hrole
      exact ⟨⟨hrow, horg, hrole⟩, rfl⟩

/-! ### Single sign-on -/

variable (provider : IdentityProvider) (identity : SsoAttemptIdentity)

theorem findLinked_sound (id : Nat) :
    ((AccountTask.findLinked provider identity id).statement now db).Sound db.users
      (.findLinked provider identity id) := by
  simp only [AccountTask.statement]
  split
  · trivial
  · rename_i user huser
    split
    · trivial
    · exact ⟨⟨user, row_of_loadScopedUser huser⟩, rfl⟩

theorem findAccount_sound (email : String) :
    ((AccountTask.findAccount provider identity email).statement now db).Sound db.users
      (.findAccount provider identity email) := by
  simp only [AccountTask.statement]
  split
  · rename_i id user huser
    split
    · trivial
    · rename_i horg
      split
      · trivial
      · exact ⟨⟨user, row_of_userByEmail huser, Decidable.not_not.1 horg⟩, rfl⟩
  · split
    · exact ⟨trivial, rfl⟩
    · trivial

end

theorem AccountTask.Found.sound (now : Int) {db : StaffRows} {t : AccountTask}
    (h : t.Found db.users) : (t.statement now db).Sound db.users t := by
  cases t with
  | done => trivial
  | create s body => exact create_sound now s body
  | insertUser => exact insertUser_sound now h
  | update =>
    simp only [AccountTask.statement]
    split
    · trivial
    · rename_i hself
      exact ⟨eq_false_of_ne_true hself, rfl⟩
  | lockUpdate => exact ⟨h, rfl, rfl⟩
  | loadTarget => exact loadTarget_sound now h
  | countOwners =>
    simp only [AccountTask.statement]
    split
    · trivial
    · rename_i hothers
      exact ⟨⟨h, fun _ => hasOtherOwner_of_otherOwners hothers⟩, rfl⟩
  | writeUpdate => exact h.1.sound h.2
  | scimPost | scimPut | scimPatch =>
    simp only [AccountTask.statement]
    split
    · exact ⟨trivial, rfl⟩
    · trivial
  | scimDelete => exact ⟨trivial, rfl⟩
  | lockScimCreate | lockScimUpdate | lockScimDelete | lockSso => exact ⟨trivial, rfl, rfl⟩
  | findExisting orgId c => exact findExisting_sound now orgId c
  | reviveUser orgId c id user => exact ScimMayChange.sound h (ScimUserChanges.patch_role _ user) rfl rfl
  | insertScimUser orgId c =>
    simp only [AccountTask.statement]
    split
    · trivial
    · exact ⟨.scim orgId, rfl, rfl, SsoAssignableRole.toStaff_ne_owner _, by simp⟩
  | loadUpdated orgId id c => exact loadUpdated_sound now orgId id c
  | checkUserName | findOther =>
    simp only [AccountTask.statement]
    split
    · trivial
    · exact ⟨h, rfl⟩
  | writeScimUser orgId id c user =>
    simp only [AccountTask.statement]
    split
    · trivial
    · exact ScimMayChange.sound h (c.patch_role user) rfl rfl
  | loadDeleted orgId id => exact loadDeleted_sound now orgId id
  | writeDeleted => exact ScimMayChange.sound h (by simp [AccountPatch.empty]) rfl rfl
  | sso =>
    simp only [AccountTask.statement]
    split
    · split
      · trivial
      · exact ⟨trivial, rfl⟩
    · trivial
  | findLink =>
    simp only [AccountTask.statement]
    split
    · trivial
    · split
      · trivial
      · split
        · exact ⟨trivial, rfl⟩
        · exact ⟨trivial, rfl⟩
  | findLinked provider identity id => exact findLinked_sound now provider identity id
  | findAccount provider identity email => exact findAccount_sound now provider identity email
  | insertSsoUser provider =>
    simp only [AccountTask.statement]
    split
    · trivial
    · exact ⟨.sso provider.orgId, rfl, rfl, SsoAssignableRole.toStaff_ne_owner _⟩
  | signedIn provider =>
    obtain ⟨u, hu, horg⟩ := h
    exact ⟨u, .sso provider.orgId, hu, congrArg some horg.symm, rfl, ⟨horg, rfl⟩, fun howner => .inl howner⟩

/-! ## What a write changes -/

section

variable {db : StaffRows} {t : AccountTask} {w : AccountWrite}

theorem StaffRows.write_patch_users (db : StaffRows) (id : Nat) (p : AccountPatch)
    (link : Option StaffSsoIdentity) (k : Nat) : (db.write (.patch id p link)).users[k]? =
      if k = id then db.users[k]?.map p.apply else db.users[k]? := by
  show (db.users.modify id p.apply)[k]? = _
  by_cases hk : id = k
  · simp [hk]
  · simp [hk, Ne.symm hk]

theorem AccountWrite.Sound.leaves (h : w.Sound db.users t) {orgId : Nat}
    (hfree : t.holds ≠ some orgId) : LeavesOrg orgId db.users (db.write w).users := by
  intro k u horg hu
  cases w with
  | patch id =>
    obtain ⟨u', actor, hu', hholds, -⟩ := h
    have hne : k ≠ id := by
      rintro rfl
      rw [hu'] at hu
      cases hu
      exact hfree (hholds.trans (congrArg some horg))
    rw [StaffRows.write_patch_users, if_neg hne]
    exact hu
  | insert v link =>
    show (db.users ++ [v])[k]? = some u
    rw [List.getElem?_append_left (List.getElem?_eq_some_iff.1 hu).1]
    exact hu

theorem AccountWrite.Sound.hasOwner (h : w.Sound db.users t) {orgId : Nat}
    (howner : HasOwner db.users orgId) : HasOwner (db.write w).users orgId := by
  obtain ⟨u, hu, hactive⟩ := howner
  cases w with
  | patch id p link =>
    obtain ⟨u', actor, hu', -, -, -, hkept⟩ := h
    obtain ⟨k, hk⟩ := List.mem_iff_getElem?.1 hu
    have hmem : ∀ {k : Nat} {v : StaffAccount}, k ≠ id → db.users[k]? = some v →
        v ∈ (db.write (.patch id p link)).users := by
      intro k v hne hv
      refine List.mem_iff_getElem?.2 ⟨k, ?_⟩
      rw [StaffRows.write_patch_users, if_neg hne, hv]
    by_cases hne : k = id
    · subst hne
      rw [hu'] at hk
      cases hk
      obtain rfl : u.orgId = orgId := hactive.1
      rcases hkept hactive with hstill | ⟨k', v, hne', hv, hactive'⟩
      · refine ⟨p.apply u, List.mem_iff_getElem?.2 ⟨k, ?_⟩, hstill⟩
        rw [StaffRows.write_patch_users, if_pos rfl, hu']
        rfl
      · exact ⟨v, hmem hne' hv, hactive'⟩
    · exact ⟨u, hmem hne hk, hactive⟩
  | insert => exact ⟨u, List.mem_append_left _ hu, hactive⟩

theorem AccountWrite.Sound.permitted (h : w.Sound db.users t) {k : Nat}
    (hne : (db.write w).users[k]? ≠ db.users[k]?) :
    ∃ after actor, (db.write w).users[k]? = some after ∧ t.actor? = some actor ∧
      Permitted actor k db.users[k]? after := by
  cases w with
  | patch id p link =>
    obtain ⟨u, actor, hu, -, hactor, hpermitted, -⟩ := h
    rw [StaffRows.write_patch_users] at hne ⊢
    by_cases hk : k = id
    · subst hk
      refine ⟨p.apply u, actor, ?_, hactor, hu ▸ hpermitted⟩
      rw [if_pos rfl, hu]
      rfl
    · exact absurd (if_neg hk) hne
  | insert v link =>
    obtain ⟨actor, hactor, hpermitted⟩ := h
    have happend : (db.write (.insert v link)).users = db.users ++ [v] := rfl
    rw [happend] at hne ⊢
    rcases Nat.lt_trichotomy k db.users.length with hlt | rfl | hgt
    · exact absurd (List.getElem?_append_left hlt) hne
    · refine ⟨v, actor, by simp, hactor, ?_⟩
      rw [List.getElem?_eq_none (Nat.le_refl _)]
      exact hpermitted
    · refine absurd ?_ hne
      rw [List.getElem?_eq_none (by simp; omega), List.getElem?_eq_none (by omega)]

end

/-! ## The run -/

namespace StaffAccounts

/-- What process `i` may rely on: the lock it holds, and what it found. -/
def Assertion (i : Nat) (db : StaffRows) (t : AccountTask) : Prop :=
  (∀ orgId, t.holds = some orgId → db.lock orgId = some i) ∧ t.Found db.users

variable {i j : Nat} {now : Int} {db db' : StaffRows} {t : AccountTask}

theorem Assertion.mono (h : Assertion i db t)
    (hlock : ∀ orgId, db.lock orgId = some i → db'.lock orgId = some i)
    (hleaves : ∀ orgId, db.lock orgId = some i → LeavesOrg orgId db.users db'.users) :
    Assertion i db' t :=
  ⟨fun orgId ho => hlock orgId (h.1 orgId ho), h.2.mono fun orgId ho =>
    hleaves orgId (h.1 orgId ho)⟩

theorem idle (i : Nat) (db : StaffRows) : Assertion i db .done := ⟨nofun, trivial⟩

theorem release_lock {orgId : Nat} (hne : j ≠ i) (h : db.lock orgId = some j) :
    (db.release i).lock orgId = some j := by
  show (if db.lock orgId = some i then none else db.lock orgId) = some j
  rw [h, if_neg (by simpa using hne)]

theorem Assertion.settle_own (h : Assertion i db t) :
    Assertion i (settle i db (t.statement now db)).1 (settle i db (t.statement now db)).2 := by
  have hsound := h.2.sound now
  cases hs : t.statement now db with
  | next t' =>
    rw [hs] at hsound
    exact ⟨fun orgId ho => h.1 orgId (hsound.2 ▸ ho), hsound.1⟩
  | locked =>
    rw [hs] at hsound
    obtain ⟨hfound, hholds, -⟩ := hsound
    refine ⟨fun o ho => ?_, hfound⟩
    cases hholds.symm.trans ho
    exact Function.update_self _ _ _
  | ends | commit w => exact idle i _

theorem Assertion.settle_other (h : Assertion i db t) (hne : j ≠ i)
    (hwait : ∀ orgId ∈ waitsFor (t.statement now db), db.lock orgId = none) {q : AccountTask}
    (hq : Assertion j db q) : Assertion j (settle i db (t.statement now db)).1 q := by
  have hsound := h.2.sound now
  cases hs : t.statement now db with
  | next t' => exact hq
  | locked orgId t' =>
    refine hq.mono (fun o ho => ?_) fun o _ => LeavesOrg.refl o _
    have hfree : db.lock orgId = none := hwait orgId (by rw [hs]; rfl)
    have ho' : o ≠ orgId := by
      rintro rfl
      rw [hfree] at ho
      cases ho
    exact (Function.update_of_ne ho' _ _).trans ho
  | ends => exact hq.mono (fun o ho => release_lock hne ho) fun o _ => LeavesOrg.refl o _
  | commit w =>
    rw [hs] at hsound
    refine hq.mono (fun o ho => release_lock hne ?_) fun o ho => ?_
    · cases w <;> exact ho
    · refine hsound.leaves fun hholds => hne ?_
      exact some.inj (ho.symm.trans (h.1 o hholds))

variable (now) in
theorem Assertion.settle_users (h : Assertion i db t) :
    (settle i db (t.statement now db)).1.users = db.users ∨
      ∃ w, w.Sound db.users t ∧ (settle i db (t.statement now db)).1.users = (db.write w).users := by
  have hsound := h.2.sound now
  cases hs : t.statement now db with
  | commit w =>
    rw [hs] at hsound
    exact .inr ⟨w, hsound, rfl⟩
  | _ => exact .inl rfl

theorem found_of_isRequest (h : t.isRequest = true) (i : Nat) (db : StaffRows) :
    Assertion i db t := by
  have hnothing : t.holds = none ∧ t.Found db.users := by
    cases t <;> first | exact ⟨rfl, trivial⟩ | cases h
  exact ⟨fun orgId ho => absurd (hnothing.1.symm.trans ho) (by simp), hnothing.2⟩

/-- The organisations that had an owner have one, and each process may rely on what it found. -/
def Kept (users₀ : List StaffAccount) : StaffAccounts → Prop :=
  Processes.Outline (fun db => ∀ orgId, HasOwner users₀ orgId → HasOwner db.users orgId) Assertion

theorem Kept.step {users₀ : List StaffAccount} {s : StaffAccounts} (h : Kept users₀ s)
    {a : AccountAction} (ha : machine.enabled a s) : Kept users₀ (machine.step a s) := by
  cases a with
  | arrive i t => exact h.move h.shared (found_of_isRequest ha.2.1 i _) fun j q _ hq => hq
  | advance i now =>
    refine h.move (fun orgId h₀ => ?_) (h.loc i).settle_own fun j q hj hq =>
      (h.loc i).settle_other hj ha hq
    rcases (h.loc i).settle_users now with heq | ⟨w, hw, heq⟩
    · rw [heq]
      exact h.shared orgId h₀
    · rw [heq]
      exact hw.hasOwner (h.shared orgId h₀)
  | fail i =>
    exact h.move h.shared (idle i _) fun j q hj hq =>
      hq.mono (fun o ho => release_lock hj ho) fun o _ => LeavesOrg.refl o _

theorem Kept.steps {s₀ s : StaffAccounts} (hinit : machine.init s₀) (hrun : machine.Steps s₀ s) :
    Kept s₀.shared.users s := by
  induction hrun with
  | refl => exact ⟨fun _ h₀ => h₀, fun i => by rw [hinit.2]; exact idle i _⟩
  | tail _ a ha ih => exact ih.step ha

end StaffAccounts

/-- The process whose step an action is. -/
def AccountAction.process : AccountAction → Nat
  | arrive i _ => i
  | advance i _ => i
  | fail i => i

/-- Each account that the action changes is one that it may change so. -/
def AccountAction.Permits (a : AccountAction) (s : StaffAccounts) : Prop :=
  ∀ id, (StaffAccounts.step a s).shared.users[id]? ≠ s.shared.users[id]? →
    ∃ after actor, (StaffAccounts.step a s).shared.users[id]? = some after ∧
      (s.loc a.process).actor? = some actor ∧ Permitted actor id s.shared.users[id]? after

/-- **An organisation does not lose its last owner, and no one changes more than they may.** -/
theorem StaffAccounts.owners_kept (s₀ s : StaffAccounts) (hinit : machine.init s₀)
    (hrun : machine.Steps s₀ s) :
    (∀ orgId, HasOwner s₀.shared.users orgId → HasOwner s.shared.users orgId) ∧
      ∀ a, machine.enabled a s → a.Permits s := by
  have hkept := Kept.steps hinit hrun
  refine ⟨hkept.shared, fun a ha id hne => ?_⟩
  cases a with
  | arrive i t => exact absurd rfl hne
  | advance i now =>
    have hown : Assertion i s.shared (s.loc i) := hkept.loc i
    have hshared : (StaffAccounts.step (.advance i now) s).shared =
      (settle i s.shared ((s.loc i).statement now s.shared)).1 := rfl
    rw [hshared] at hne ⊢
    rcases hown.settle_users now with heq | ⟨w, hw, heq⟩
    · exact absurd (by rw [heq]) hne
    · rw [heq] at hne ⊢
      exact hw.permitted hne
  | fail i => exact absurd rfl hne

namespace StaffAccounts

instance decidableAuthenticated (db : StaffRows) (s : StaffPrincipal) :
    Decidable (authenticated db s) :=
  inferInstanceAs (Decidable (_ ∧ _))

instance decidableEnabled (a : AccountAction) (s : StaffAccounts) :
    Decidable (machine.enabled a s) := by
  refine AccountAction.casesOn (motive := fun a =>
    Decidable (machine.enabled a s)) a (fun i t => ?_)
    (fun i now => ?_) fun i => ?_
  · exact inferInstanceAs (Decidable (s.loc i = .done ∧ t.isRequest = true ∧
      ∀ principal ∈ t.principal?, authenticated s.shared principal))
  · exact inferInstanceAs (Decidable (∀ orgId ∈ waitsFor ((s.loc i).statement now s.shared),
      s.shared.lock orgId = none))
  · exact .isTrue trivial

/-- Two owners and an administrator. -/
def threeAccounts : StaffAccounts where
  shared := ⟨[.new 0 "ada@exam.edu" "Ada" .owner, .new 0 "ben@exam.edu" "Ben" .owner,
    .new 0 "cho@exam.edu" "Cho" .admin], [], fun _ => none⟩
  loc _ := .done

/-- The two owners make each other reviewers, at the same time. -/
def mutualDemotion : List AccountAction :=
  [.arrive 0 (.update ⟨0, 0, .owner⟩ 1 ⟨none, some .reviewer, none, none⟩),
    .arrive 1 (.update ⟨1, 0, .owner⟩ 0 ⟨none, some .reviewer, none, none⟩),
    .advance 0 1, .advance 1 1, .advance 1 2, .advance 1 3, .advance 1 4, .advance 1 5,
    .advance 0 6, .advance 0 7, .advance 0 8]

/-- One of them is still an owner. -/
theorem owners_kept_mutualDemotion :
    HasOwner (machine.run threeAccounts mutualDemotion).shared.users 0 :=
  (owners_kept threeAccounts (machine.run threeAccounts mutualDemotion) ⟨rfl, rfl⟩
    ((Machine.Steps.refl _).run (by decide +kernel))).1 0 ⟨_, List.mem_cons_self, by decide⟩

/-- The directory reports that the administrator is not active any more. -/
def deactivation : List AccountAction :=
  [.arrive 0 (.scimPatch 0 2 [(.active (some false), false)]), .advance 0 1, .advance 0 2,
    .advance 0 3]

/-- An administrator's account is disabled by a request that no owner made. -/
theorem directory_disables_admin :
    ∃ s₀ s a u v, machine.init s₀ ∧ HasOwner s₀.shared.users 0 ∧ machine.Steps s₀ s ∧ machine.enabled a s ∧
      (s.loc a.process).actor? = some (.scim 0) ∧ s.shared.users[2]? = some u ∧ u.role = .admin ∧
      u.disabled = false ∧ (machine.step a s).shared.users[2]? = some v ∧ v.disabled = true :=
  ⟨threeAccounts, machine.run threeAccounts deactivation, .advance 0 4,
    .new 0 "cho@exam.edu" "Cho" .admin,
    { StaffAccount.new 0 "cho@exam.edu" "Cho" .admin with disabled := true },
    ⟨rfl, rfl⟩, ⟨_, List.mem_cons_self, by decide⟩, (Machine.Steps.refl _).run (by decide +kernel),
    by decide +kernel, by decide +kernel, by decide +kernel, rfl, rfl, by decide +kernel, rfl⟩

end StaffAccounts

end SmartProctoring
