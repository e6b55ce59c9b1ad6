import Mathlib.Data.List.DropRight
import SmartProctoring.Lib.Stringify
import SmartProctoring.Server.StaffAccounts

/-!
# The directory's changes of one account

`services/scim.ts`: what PUT and PATCH of `/scim/v2/Users/:id` read in their body, and what they
make of an account.

Bodies are the JSON values that the parser delivers: a text is a list of UTF-16 code units, and an
object the list of its entries in the order of `Object.entries`.  `String.prototype.toLowerCase` is
the parameter `lower`.  Left out: the times of an account, the end of its sessions, and the audit
log.
-/

set_option autoImplicit false

namespace SmartProctoring

namespace Scim

open JsText

abbrev Json := Value Number

/-! ## Texts -/

/-- White space and line ends, as `trim` and `\s` have them. -/
def isSpace (u : CodeUnit) : Bool :=
  decide (u.val ∈ [9, 10, 11, 12, 13, 32, 160, 5760, 8232, 8233, 8239, 8287, 12288, 65279]) ||
    decide (8192 ≤ u.val ∧ u.val ≤ 8202)

def trim (t : Text) : Text := (t.dropWhile isSpace).rdropWhile isSpace

/-- The text of a value as `String(value)` has it; `none` for `null`. -/
def stringReading : Reading Number (Option Text) where
  null := none
  bool b := some (if b then ascii "true" else ascii "false")
  num n := some n.val
  str s := some s
  arr items := some (Joined.joinWith comma (items.map fun t => t.getD []))
  obj _ := some (ascii "[object Object]")

/-- `String(value ?? '')`. -/
def stringOf (v : Option Json) : Text := (v.bind fun v => v.fold stringReading).getD []

/-- `EMAIL_RE`: `^[^\s@]+@[^\s@]+\.[^\s@]+$`. -/
def isEmail (t : Text) : Bool :=
  let localPart := t.takeWhile fun u => u ≠ 64
  let domain := (t.dropWhile fun u => u ≠ 64).drop 1
  t.all (fun u => !isSpace u) && decide (localPart ≠ []) && decide ((64 : CodeUnit) ∈ t) &&
    decide ((64 : CodeUnit) ∉ domain) &&
    ((domain.drop 1).dropLast.contains 46)

def isObj (v : Json) : Bool :=
  match v with
  | .obj _ => true
  | _ => false

def field (v : Json) (key : String) : Option Json :=
  match v with
  | .obj entries => (entries.find? fun e => e.1 = ascii key).map (·.2)
  | _ => none

def asText (v : Option Json) : Option Text :=
  match v with
  | some (.str s) => some s
  | _ => none

/-- A text that is not blank, without the blanks around it, cut at `max`. -/
def text (v : Option Json) (max : Nat) : Option Text :=
  ((asText v).filter fun s => trim s ≠ []).map fun s => (trim s).take max

/-! ## Errors -/

inductive ScimType
  | invalidFilter | tooMany | uniqueness | mutability | invalidSyntax | invalidPath | noTarget | invalidValue
  deriving DecidableEq

structure ScimError where
  status : Nat
  detail : Text
  scimType : Option ScimType

def invalidValue (detail : Text) : ScimError := ⟨400, detail, some .invalidValue⟩

def invalidSyntax (detail : Text) : ScimError := ⟨400, detail, some .invalidSyntax⟩

/-! ## Attributes -/

/-- What a path names, of what is stored. -/
inductive Attribute
  | userName | wholeName | givenName | familyName | name | externalId | active | roles | emails | emailValue
  deriving DecidableEq

/-- `SCIM_USER_SCHEMA` in lower case and a colon, as a regular expression. -/
def schemaPrefix : Text := ascii "urn:ietf:params:scim:schemas:core:2.0:user:"

/-- A code unit of a regular expression: a dot stands for all but the line ends. -/
def matchesUnit (pattern u : CodeUnit) : Bool :=
  decide (pattern = u) || (decide (pattern = 46) && decide (u.val ∉ [10, 13, 8232, 8233]))

def stripSchema (t : Text) : Text :=
  if schemaPrefix.length ≤ t.length ∧ (schemaPrefix.zip t).all (fun p =>
    matchesUnit p.1 p.2) = true then
    t.drop schemaPrefix.length
  else t

/-- The attributes' names, as `applyAttribute` compares them. -/
def attributeNames : List (String × Attribute) :=
  [("username", .userName), ("displayname", .wholeName), ("name.formatted", .wholeName),
    ("name.givenname", .givenName),
    ("name.familyname", .familyName), ("name", .name), ("externalid", .externalId),
    ("active", .active), ("roles", .roles),
    ("roles.value", .roles), ("roles[primary eq true].value", .roles),
    ("roles[primary eq \"true\"].value", .roles),
    ("emails", .emails), ("emails[type eq \"work\"].value", .emailValue),
      ("emails[primary eq true].value", .emailValue)]

section

variable (lower : Text → Text)

def attributeOf (path : Text) : Option Attribute :=
  let p := stripSchema (lower (trim path))
  (attributeNames.find? fun e => ascii e.1 = p).map (·.2)

/-! ## Values -/

/-- A letter of ASCII in lower case. -/
def asciiLower (u : CodeUnit) : CodeUnit :=
  if 65 ≤ u.val ∧ u.val ≤ 90 then Fin.ofNat 65536 (u.val + 32) else u

/-- `/^(true|false)$/i`. -/
def isBoolText (t : Text) : Bool :=
  let fold := t.map asciiLower
  decide (fold = ascii "true") || decide (fold = ascii "false")

def bool (v : Option Json) (attr : String) : Except ScimError Bool :=
  match v with
  | some (.bool b) => .ok b
  | some (.str s) =>
    if isBoolText (trim s) then .ok (decide (lower (trim s) = ascii "true"))
    else .error (invalidValue (ascii (attr ++ " must be true or false")))
  | _ => .error (invalidValue (ascii (attr ++ " must be true or false")))

def isPrimary (v : Json) : Bool :=
  match field v "primary" with
  | some (.bool b) => b
  | some (.str s) => decide (s = ascii "true")
  | _ => false

def roleEntry (v : Option Json) : Option Json × Bool :=
  match v with
  | some (.obj entries) => (field (.obj entries) "value", isPrimary (.obj entries))
  | v => (v, false)

def role (v : Option Json) : Except ScimError SsoAssignableRole :=
  let list :=
    match v with
    | some (.arr items) => items.map some
    | v => [v]
  let entries := list.map roleEntry
  let picked := (entries.find? (·.2)).or entries.head?
  let value := ((asText (picked.bind (·.1))).map fun s => lower (trim s)).getD []
  if value = ascii "owner" then
    .error (invalidValue
      (ascii "The owner role cannot be given through SCIM: owners are managed in SmartProctoring."))
  else if value = ascii "reviewer" then .ok .reviewer
  else if value = ascii "admin" then .ok .admin
  else
    .error (invalidValue (ascii "Unknown role \"" ++ stringOf (picked.bind (·.1)) ++
      ascii "\" (use reviewer or admin)"))

def primaryEmail (v : Option Json) : Option Text :=
  match v with
  | some (.arr all) =>
    let items := all.filter isObj
    let pick := ((items.find? isPrimary).or (items.find? fun e =>
      asText (field e "type") = some (ascii "work"))).or
      items.head?
    text (pick.bind fun e => field e "value") 254
  | _ => none

/-! ## Changes -/

/-- The attributes SCIM can change, as parsed from a resource or a PATCH. -/
structure ScimUserChanges where
  email : Option Text
  name : Option Text
  givenName : Option Text
  familyName : Option Text
  externalId : Option (Option Text)
  active : Option Bool
  role : Option SsoAssignableRole

def noChanges : ScimUserChanges := ⟨none, none, none, none, none, none, none⟩

/-- What an attribute of a request sets. -/
inductive Setting
  | userName (v : Text)
  | emails (v : Text)
  | name (v : Text)
  | givenName (v : Text)
  | familyName (v : Text)
  | externalId (v : Option Text)
  | active (b : Bool)
  | role (r : SsoAssignableRole)

def ScimUserChanges.set (c : ScimUserChanges) : Setting → ScimUserChanges
  | .userName v => { c with email := some v }
  -- an address that is already there is kept
  | .emails v => { c with email := c.email.or (some v) }
  | .name v => { c with name := some v }
  | .givenName v => { c with givenName := some v }
  | .familyName v => { c with familyName := some v }
  | .externalId v => { c with externalId := some v }
  | .active b => { c with active := some b }
  | .role r => { c with role := some r }

/-- One attribute but `name`. -/
def settingOf (a : Attribute) (value : Option Json) (remove : Bool) :
    Except ScimError (List Setting) :=
  match a with
  | .userName =>
    match (text value 254).filter isEmail with
    | some v => .ok [.userName (lower v)]
    | none => if remove then .ok [] else .error (invalidValue (ascii "userName must be an email address"))
  | .wholeName => .ok ((text value 200).map Setting.name).toList
  | .givenName => .ok [.givenName ((text value 100).getD [])]
  | .familyName => .ok [.familyName ((text value 100).getD [])]
  | .name => .ok []
  | .externalId => .ok [.externalId (if remove then none else text value 300)]
  | .active => if remove then .ok [.active false] else (bool lower value "active").map fun b => [.active b]
  | .roles =>
    if remove then .ok [.role .reviewer]
    else
      match value with
      | some (.arr []) => .ok []
      | value => (role lower value).map fun r => [.role r]
  | .emails => .ok (((primaryEmail value).filter isEmail).map fun v => Setting.emails (lower v)).toList
  | .emailValue => .ok (((text value 254).filter isEmail).map fun v => Setting.emails (lower v)).toList

/-- One attribute that is named by its path. -/
def pathSettings (path : Text) (value : Option Json) (remove : Bool) :
    Except ScimError (List Setting) :=
  match attributeOf lower path with
  | some a => settingOf lower a value remove
  | none => .ok []

/-- Each of the entries is an attribute, with `before` in front of its key. -/
def entrySettings (before : Text) (entries : List (Text × Json)) (remove : Bool) :
    Except ScimError (List Setting) :=
  (entries.mapM fun e => pathSettings lower (before ++ e.1) (some e.2) remove).map List.flatten

/-- What `applyAttribute` does; the parts of a `name` are never a `name`. -/
def attributeSettings (path : Text) (value : Option Json) (remove : Bool) :
    Except ScimError (List Setting) :=
  match attributeOf lower path, value with
  | some .name, some (.obj entries) => entrySettings lower (ascii "name.") entries remove
  | _, _ => pathSettings lower path value remove

/-- Apply one attribute (top-level or dotted path) to the changes. -/
def applyAttribute (c : ScimUserChanges) (path : Text) (value : Option Json) (remove : Bool) :
    Except ScimError ScimUserChanges := do
  let settings ← attributeSettings lower path value remove
  return settings.foldl ScimUserChanges.set c

/-- The keys of a resource that are not read as attributes. -/
def skippedKeys : List Text := [ascii "schemas", ascii "id", ascii "meta", ascii "password",
    ascii "groups", ascii "emails"]

/-- POST / PUT body → changes (userName required). -/
def parseScimUser (body : Json) : Except ScimError ScimUserChanges :=
  match body with
  | .obj entries => do
    let c ← (entries.filter fun e => e.1 ∉ skippedKeys).foldlM (fun c e =>
      applyAttribute lower c e.1 (some e.2) false)
      noChanges
    match c.email.or (((primaryEmail (field body "emails")).filter isEmail).map lower) with
    | some email => return { c with email := some email }
    | none => .error (invalidValue (ascii "userName (an email address) is required"))
  | _ => .error (invalidSyntax (ascii "The request body must be a SCIM User"))

/-- The settings of one operation of a PATCH. -/
def operationSettings (raw : Json) : Except ScimError (List Setting) :=
  if isObj raw = false then .error (invalidSyntax (ascii "Invalid operation"))
  else
    let op := lower (stringOf (field raw "op"))
    if op ≠ ascii "add" ∧ op ≠ ascii "replace" ∧ op ≠ ascii "remove" then
      .error (invalidSyntax (ascii "Unsupported operation \"" ++
        (((field raw "op").map fun v => (v.fold stringReading).getD (ascii "null")).getD (ascii "undefined")) ++
          ascii "\""))
    else
      let remove := decide (op = ascii "remove")
      let path := (asText (field raw "path")).getD []
      if path ≠ [] then attributeSettings lower path (field raw "value") remove
      else
        match field raw "value" with
        | some (.obj entries) =>
          (entries.mapM fun e => attributeSettings lower e.1 (some e.2) remove).map List.flatten
        | _ => .error (invalidSyntax (ascii "An operation without a path needs an object value"))

/-- PATCH body → changes. -/
def parseScimPatch (body : Json) : Except ScimError ScimUserChanges :=
  match field body "Operations" with
  | some (.arr ops) =>
    if 50 < ops.length then .error ⟨400, ascii "Too many operations", some .tooMany⟩
    else ops.foldlM (fun c raw => do
      let settings ← operationSettings lower raw
      return settings.foldl ScimUserChanges.set c) noChanges
  | _ => .error (invalidSyntax (ascii "A PATCH needs an Operations array"))

/-! ## The account -/

/-- What the directory reads and changes of a row of `staff_users`. -/
structure StaffUser where
  id : Text
  email : Text
  name : Text
  role : StaffRole
  disabled : Bool
  scimExternalId : Option Text
  deriving DecidableEq

inductive AccountField
  | email | name | externalId | role | disabled
  deriving DecidableEq

def ScimUserChanges.composedName (c : ScimUserChanges) : Option Text :=
  match c.name.filter (· ≠ []) with
  | some name => some name
  | none =>
    let parts := (c.givenName.toList ++ c.familyName.toList).filter (· ≠ [])
    if parts = [] then none else some ((Joined.joinWith 32 parts).take 200)

/-- Apply changes to an account: the account, and what was written of it.  `taken`: the addresses of
other accounts. -/
def applyChanges (taken : Text → Bool) (user : StaffUser) (c : ScimUserChanges) :
    Except ScimError (StaffUser × List AccountField) :=
  if user.role = .owner then
    .error ⟨403, ascii ("Owner accounts are managed in SmartProctoring only (break-glass access); SCIM cannot change " ++
      "them."), some .mutability⟩
  else
    let email := c.email.filter fun e => e ≠ [] ∧ e ≠ lower user.email
    if email.any taken then .error ⟨409, ascii "Another account already uses this userName", some .uniqueness⟩
    else
      let name := c.composedName.filter fun n => n ≠ [] ∧ n ≠ user.name
      let externalId := c.externalId.filter fun x => x ≠ user.scimExternalId
      let role := (c.role.map SsoAssignableRole.toStaff).filter fun r => r ≠ user.role
      let disabled := (c.active.filter fun b => b = user.disabled).map (!·)
      .ok ({ user with
          email := email.getD user.email
          name := name.getD user.name
          scimExternalId := externalId.getD user.scimExternalId
          role := role.getD user.role
          disabled := disabled.getD user.disabled },
        email.toList.map (fun _ => .email) ++ name.toList.map (fun _ => .name) ++
          externalId.toList.map (fun _ => .externalId) ++ role.toList.map (fun _ => .role) ++
          disabled.toList.map (fun _ => .disabled))

def roleText : StaffRole → Text
  | .owner => ascii "owner"
  | .admin => ascii "admin"
  | .reviewer => ascii "reviewer"

def SCIM_USER_SCHEMA : Text := ascii "urn:ietf:params:scim:schemas:core:2.0:User"

/-- The resource of an account; `metaData` is about its times and its place. -/
def toScimUser (metaData : Json) (u : StaffUser) : Json :=
  .obj ([(ascii "schemas", .arr [.str SCIM_USER_SCHEMA]), (ascii "id", .str u.id)] ++
    ((u.scimExternalId.filter (· ≠ [])).toList.map fun x => (ascii "externalId", Value.str x)) ++
    [(ascii "userName", .str u.email), (ascii "name", .obj [(ascii "formatted", .str u.name)]),
      (ascii "displayName", .str u.name),
      (ascii "emails", .arr [.obj [(ascii "value", .str u.email), (ascii "type", .str (ascii "work")),
        (ascii "primary", .bool true)]]),
      (ascii "active", .bool (!u.disabled)),
      (ascii "roles", .arr [.obj [(ascii "value", .str (roleText u.role)), (ascii "primary", .bool true)]]),
      (ascii "meta", metaData)])

/-- `PATCH /Users/:id`. -/
def patchScimUser (taken : Text → Bool) (user : StaffUser) (body : Json) :
    Except ScimError (StaffUser × List AccountField) := do
  let c ← parseScimPatch lower body
  applyChanges lower taken user c

/-- `PUT /Users/:id`. -/
def putScimUser (taken : Text → Bool) (user : StaffUser) (body : Json) :
    Except ScimError (StaffUser × List AccountField) := do
  let c ← parseScimUser lower body
  applyChanges lower taken user c

end

end Scim

end SmartProctoring
