import SmartProctoring.Lib.Except
import SmartProctoring.Lib.LastWrite
import SmartProctoring.Server.Scim

/-!
# One PATCH and its operations

A PATCH collects what its operations set in one change record and applies the record to the account.

* The record is a list of writes: a column holds what was written last, but an address of `emails` is kept only where there
  is none, and the name is composed of what was written of it.
* So one PATCH is the sequence of its operations (`patch_whole`) when no operation gives an address by `emails` alone after
  another that gives one, and none gives a part of the name alone after another that is about the name: `InOrder`.
* What no operation names keeps its value, and the resource of an account, put back, changes nothing.
-/

set_option autoImplicit false

namespace SmartProctoring

open List

namespace Scim

open JsText LastWrite

/-- What is used of `String.prototype.toLowerCase`. -/
structure ToLowerCase (lower : Text → Text) : Prop where
  ascii : ∀ t : Text, t.all (fun u => decide (u.val < 128)) = true → lower t = t.map asciiLower
  idem : ∀ t : Text, lower (lower t) = lower t
  ne_nil : ∀ t : Text, t ≠ [] → lower t ≠ []

/-! ## What a list of settings makes of the record -/

namespace Setting

def ofUserName : Setting → Option Text
  | .userName v => some v
  | _ => none

def ofEmails : Setting → Option Text
  | .emails v => some v
  | _ => none

def ofName : Setting → Option Text
  | .name v => some v
  | _ => none

def ofGivenName : Setting → Option Text
  | .givenName v => some v
  | _ => none

def ofFamilyName : Setting → Option Text
  | .familyName v => some v
  | _ => none

def ofExternalId : Setting → Option (Option Text)
  | .externalId v => some v
  | _ => none

def ofActive : Setting → Option Bool
  | .active b => some b
  | _ => none

def ofRole : Setting → Option SsoAssignableRole
  | .role r => some r
  | _ => none

def column : Setting → AccountField
  | .userName _ => .email
  | .emails _ => .email
  | .name _ => .name
  | .givenName _ => .name
  | .familyName _ => .name
  | .externalId _ => .externalId
  | .active _ => .disabled
  | .role _ => .role

end Setting

/-- What the settings make of a record without changes. -/
def changesOf (es : List Setting) : ScimUserChanges := es.foldl ScimUserChanges.set noChanges

section

variable (c : ScimUserChanges) (es : List Setting)

theorem foldl_email : (es.foldl ScimUserChanges.set c).email =
    (last Setting.ofUserName es).or (c.email.or (first Setting.ofEmails es)) := by
  refine foldl_first (fun c e => ?_) c es
  obtain ⟨email, _, _, _, _, _, _⟩ := c
  cases e <;> cases email <;> rfl

theorem foldl_name : (es.foldl ScimUserChanges.set c).name = (last Setting.ofName es).or c.name :=
  foldl_last (fun _ e => by cases e <;> rfl) c es

theorem foldl_givenName :
    (es.foldl ScimUserChanges.set c).givenName = (last Setting.ofGivenName es).or c.givenName :=
  foldl_last (fun _ e => by cases e <;> rfl) c es

theorem foldl_familyName :
    (es.foldl ScimUserChanges.set c).familyName = (last Setting.ofFamilyName es).or c.familyName :=
  foldl_last (fun _ e => by cases e <;> rfl) c es

theorem foldl_externalId :
    (es.foldl ScimUserChanges.set c).externalId = (last Setting.ofExternalId es).or c.externalId :=
  foldl_last (fun _ e => by cases e <;> rfl) c es

theorem foldl_active :
    (es.foldl ScimUserChanges.set c).active = (last Setting.ofActive es).or c.active :=
  foldl_last (fun _ e => by cases e <;> rfl) c es

theorem foldl_role : (es.foldl ScimUserChanges.set c).role = (last Setting.ofRole es).or c.role :=
  foldl_last (fun _ e => by cases e <;> rfl) c es

end

theorem changesOf_append (es es' : List Setting) :
    changesOf (es ++ es') = es'.foldl ScimUserChanges.set (changesOf es) :=
  foldl_append

/-! ## What the settings of a request are -/

/-- What a setting gives can be stored: an address in lower case, a name that is not empty. -/
def Setting.Sound (lower : Text → Text) : Setting → Prop
  | .userName v => v ≠ [] ∧ lower v = v
  | .emails v => v ≠ [] ∧ lower v = v
  | .name v => v ≠ []
  | _ => True

def Attribute.column : Attribute → AccountField
  | .userName => .email
  | .wholeName => .name
  | .givenName => .name
  | .familyName => .name
  | .name => .name
  | .externalId => .externalId
  | .active => .disabled
  | .roles => .role
  | .emails => .email
  | .emailValue => .email

section

variable (lower : Text → Text)

/-- The columns that a path names, with the parts of a name. -/
def pathColumns (path : Text) (value : Option Json) : List AccountField :=
  match attributeOf lower path, value with
  | some .name, some (.obj entries) =>
    AccountField.name :: entries.flatMap fun e =>
      ((attributeOf lower (ascii "name." ++ e.1)).map Attribute.column).toList
  | some a, _ => [a.column]
  | none, _ => []

/-- The columns that an operation names. -/
def namedColumns (raw : Json) : List AccountField :=
  let path := (asText (field raw "path")).getD []
  if path ≠ [] then pathColumns lower path (field raw "value")
  else
    match field raw "value" with
    | some (.obj entries) => entries.flatMap fun e => pathColumns lower e.1 (some e.2)
    | _ => []

/-- Sound settings of some columns. -/
def SoundIn (cols : List AccountField) (es : List Setting) : Prop :=
  ∀ e ∈ es, e.Sound lower ∧ e.column ∈ cols

end

section

variable {lower : Text → Text}

theorem SoundIn.nil (cols : List AccountField) : SoundIn lower cols [] :=
  fun _ h => absurd h not_mem_nil

variable {cols : List AccountField}

theorem SoundIn.one {e : Setting} (h : e.Sound lower) (hcol : e.column ∈ cols) :
    SoundIn lower cols [e] := by
  intro e' he'
  rw [mem_singleton.1 he']
  exact ⟨h, hcol⟩

theorem SoundIn.option {α : Type} {f : α → Setting} {o : Option α}
    (h : ∀ a, o = some a → (f a).Sound lower ∧ (f a).column ∈ cols) :
    SoundIn lower cols (o.map f).toList := by
  cases o with
  | none => exact .nil cols
  | some a => exact .one (h a rfl).1 (h a rfl).2

variable {t : Text}

theorem text_ne_nil {v : Option Json} {max : Nat} (hmax : 0 < max) (h : text v max = some t) :
    t ≠ [] := by
  obtain ⟨s, hs, rfl⟩ := Option.map_eq_some_iff.1 h
  have hne : trim s ≠ [] := by simpa using (Option.filter_eq_some_iff.1 hs).2
  intro hnil
  rcases take_eq_nil_iff.1 hnil with h | h
  · omega
  · exact hne h

theorem email_ne_nil (h : isEmail t = true) : t ≠ [] := by
  rintro rfl
  exact absurd h (by decide)

theorem lower_address {o : Option Text} (hlower : ToLowerCase lower)
    (h : o.filter isEmail = some t) : lower t ≠ [] ∧ lower (lower t) = lower t :=
  ⟨hlower.ne_nil t (email_ne_nil (Option.filter_eq_some_iff.1 h).2), hlower.idem t⟩

theorem settingOf_sound (hlower : ToLowerCase lower) (a : Attribute) (value : Option Json)
    (remove : Bool) : (settingOf lower a value remove).Yields (SoundIn lower [a.column]) := by
  cases a with
  | userName =>
    rw [settingOf]
    split
    · next v hv => exact .ok (.one (lower_address hlower hv) (mem_singleton_self _))
    · exact .ite (fun _ => .ok (.nil _)) fun _ => .error _
  | wholeName => exact .ok (.option fun t ht => ⟨text_ne_nil (by omega) ht, mem_singleton_self _⟩)
  | givenName | familyName => exact .ok (.one trivial (mem_singleton_self _))
  | name => exact .ok (.nil _)
  | externalId => exact .ok (.one trivial (mem_singleton_self _))
  | active =>
    refine .ite (fun _ => .ok (.one trivial (mem_singleton_self _))) fun _ => ?_
    exact Except.Yields.map fun b _ => .one trivial (mem_singleton_self _)
  | roles =>
    refine .ite (fun _ => .ok (.one trivial (mem_singleton_self _))) fun _ => ?_
    split
    · exact .ok (.nil _)
    · exact Except.Yields.map fun r _ => .one trivial (mem_singleton_self _)
  | emails
  | emailValue => exact .ok (.option fun t ht => ⟨lower_address hlower ht, mem_singleton_self _⟩)

theorem SoundIn.mono {cols cols' : List AccountField} {es : List Setting}
    (h : SoundIn lower cols es) (hsub : ∀ f ∈ cols, f ∈ cols') : SoundIn lower cols' es :=
  fun e he => ⟨(h e he).1, hsub _ (h e he).2⟩

theorem pathSettings_sound (hlower : ToLowerCase lower) (path : Text) (value : Option Json)
    (remove : Bool) : (pathSettings lower path value remove).Yields
      (SoundIn lower ((attributeOf lower path).map Attribute.column).toList) := by
  rw [pathSettings]
  split
  · next a ha =>
    rw [ha]
    exact settingOf_sound hlower a value remove
  · exact .ok (.nil _)

theorem flatten_sound {f : Text × Json → Except ScimError (List Setting)}
    (cols : Text × Json → List AccountField)
    {entries : List (Text × Json)} (h : ∀ e ∈ entries, (f e).Yields (SoundIn lower (cols e))) :
    ((entries.mapM f).map flatten).Yields (SoundIn lower (entries.flatMap cols)) := by
  refine Except.Yields.map ((Except.Yields.mapM h).mono fun ess hess => ?_)
  induction hess with
  | nil => exact .nil _
  | @cons entry es entries ess hes _ ih =>
    have ih := ih fun e he => h e (mem_cons_of_mem _ he)
    intro e he
    rcases mem_append.1 he with he | he
    · exact ⟨(hes e he).1, mem_append_left _ (hes e he).2⟩
    · exact ⟨(ih e he).1, mem_append_right _ (ih e he).2⟩

theorem attributeSettings_sound (hlower : ToLowerCase lower) (path : Text) (value : Option Json)
    (remove : Bool) :
    (attributeSettings lower path value remove).Yields
      (SoundIn lower (pathColumns lower path value)) := by
  unfold attributeSettings
  split
  · next entries hname =>
    refine (flatten_sound (fun e => ((attributeOf lower (ascii "name." ++ e.1)).map Attribute.column).toList)
      fun e _ => pathSettings_sound hlower _ _ _).mono fun es hes => hes.mono fun f hf => ?_
    unfold pathColumns
    rw [hname]
    exact mem_cons_of_mem _ hf
  · next hname =>
    refine (pathSettings_sound hlower path _ remove).mono fun es hes => hes.mono fun f hf => ?_
    cases ha : attributeOf lower path with
    | none => exact absurd (ha ▸ hf) not_mem_nil
    | some a =>
      rw [ha] at hf
      unfold pathColumns
      rw [ha]
      split
      · next entries hn =>
        cases hn
        exact absurd rfl (hname entries ha)
      · next heq _ =>
        cases heq
        exact hf
      · next heq => exact absurd heq (Option.some_ne_none a)

theorem operationSettings_sound (hlower : ToLowerCase lower) (raw : Json) :
    (operationSettings lower raw).Yields (SoundIn lower (namedColumns lower raw)) := by
  unfold operationSettings namedColumns
  refine .ite (fun _ => .error _) fun _ => ?_
  dsimp only
  refine .ite (fun _ => .error _) fun _ => ?_
  split
  · exact attributeSettings_sound hlower _ _ _
  · split
    · next entries hentries =>
      simpa only [hentries] using
        flatten_sound (fun e => pathColumns lower e.1 (some e.2)) fun e _ => attributeSettings_sound hlower _ _ _
    · exact .error _

end

/-! ## The columns of the account -/

/-- What can be stored of a record. -/
structure ScimUserChanges.Sound (lower : Text → Text) (c : ScimUserChanges) : Prop where
  email : ∀ e, c.email = some e → e ≠ [] ∧ lower e = e
  name : ∀ n, c.name = some n → n ≠ []

/-- The account with the columns that the record gives. -/
def updated (user : StaffUser) (c : ScimUserChanges) : StaffUser :=
  { user with
    email := c.email.getD user.email
    name := c.composedName.getD user.name
    role := (c.role.map SsoAssignableRole.toStaff).getD user.role
    disabled := (c.active.map (!·)).getD user.disabled
    scimExternalId := c.externalId.getD user.scimExternalId }

section

variable {lower : Text → Text} {taken : Text → Bool} {user : StaffUser} {c : ScimUserChanges}
    {es : List Setting}

theorem changesOf_sound {cols : List AccountField} (h : SoundIn lower cols es) :
    (changesOf es).Sound lower where
  email e he := by
    rw [changesOf, foldl_email] at he
    rcases Option.or_eq_some_iff.1 he with he | ⟨-, he⟩
    · obtain ⟨s, hs, hget⟩ := mem_of_last he
      have hsound := (h s hs).1
      cases s <;> cases hget
      exact hsound
    · obtain ⟨s, hs, hget⟩ := exists_of_findSome?_eq_some he
      have hsound := (h s hs).1
      cases s <;> cases hget
      exact hsound
  name n hn := by
    rw [changesOf, foldl_name, show noChanges.name = none from rfl, Option.or_none] at hn
    obtain ⟨s, hs, hget⟩ := mem_of_last hn
    have hsound := (h s hs).1
    cases s <;> cases hget
    exact hsound

theorem joinWith_ne_nil {sep : CodeUnit} {parts : List Text} (hne : parts ≠ [])
    (h : ∀ p ∈ parts, p ≠ []) : Joined.joinWith sep parts ≠ [] := by
  cases parts with
  | nil => exact absurd rfl hne
  | cons p ps =>
    have hp := h p mem_cons_self
    cases ps with
    | nil => exact hp
    | cons q qs => exact append_ne_nil_of_left_ne_nil hp _

theorem composedName_ne_nil {n : Text} (h : c.composedName = some n) : n ≠ [] := by
  rw [ScimUserChanges.composedName] at h
  split at h
  · next name hname =>
    cases h
    simpa using (Option.filter_eq_some_iff.1 hname).2
  · extract_lets parts at h
    split at h
    · exact absurd h.symm (Option.some_ne_none n)
    · next hparts =>
      cases h
      intro hnil
      rcases take_eq_nil_iff.1 hnil with hnil | hnil
      · omega
      · refine joinWith_ne_nil hparts (fun p hp => ?_) hnil
        simpa using (mem_filter.1 hp).2

theorem getD_filter_ne {α : Type} [DecidableEq α] (o : Option α) (a : α) :
    (o.filter fun x => x ≠ a).getD a = o.getD a := by
  cases o with
  | none => rfl
  | some b =>
    by_cases hb : b = a
    · simp [Option.filter, hb]
    · simp [Option.filter, hb]

theorem applyChanges_eq (hc : c.Sound lower) (howner : user.role ≠ .owner)
    (hemail : lower user.email = user.email) (hfree : ∀ e, c.email = some e → taken e = false) :
    (applyChanges lower taken user c).map Prod.fst = .ok (updated user c) := by
  unfold applyChanges
  rw [if_neg howner]
  extract_lets email name externalId role disabled
  have hfilter : email = c.email.filter fun e => e ≠ user.email := by
    simp only [email, hemail]
    cases he : c.email with
    | none => rfl
    | some e => simp [Option.filter, (hc.email e he).1]
  have hname : name = c.composedName.filter fun n => n ≠ user.name := by
    simp only [name]
    cases hn : c.composedName with
    | none => rfl
    | some n => simp [Option.filter, composedName_ne_nil hn]
  have hdisabled : disabled.getD user.disabled = (c.active.map (!·)).getD user.disabled := by
    simp only [disabled]
    cases c.active with
    | none => rfl
    | some b => cases b <;> cases user.disabled <;> rfl
  have hnot : ¬ email.any taken = true := by
    intro hany
    obtain ⟨e, he, htaken⟩ := (Option.any_eq_true _ _).1 hany
    exact absurd ((hfree e (Option.filter_eq_some_iff.1 he).1).symm.trans htaken) Bool.false_ne_true
  rw [if_neg hnot]
  refine congrArg Except.ok ?_
  simp only [updated, hfilter, hname, hdisabled, externalId, role, getD_filter_ne]

end

/-! ## One more operation -/

def givesAddress (es : List Setting) : Bool :=
  es.any (·.ofUserName.isSome) || es.any (·.ofEmails.isSome)

/-- An address is given, and by `emails` alone. -/
def byEmailsAlone (es : List Setting) : Bool :=
  es.any (·.ofEmails.isSome) && !es.any (·.ofUserName.isSome)

def givesPart (es : List Setting) : Bool :=
  es.any (·.ofGivenName.isSome) || es.any (·.ofFamilyName.isSome)

def isAboutName (es : List Setting) : Bool := es.any (·.ofName.isSome) || givesPart es

/-- Parts of the name are given, and no whole name. -/
def byPartsAlone (es : List Setting) : Bool := givesPart es && !es.any (·.ofName.isSome)

/-- Settings that come after others and may be read on their own. -/
def MayFollow (before after : List Setting) : Prop :=
  (givesAddress before = true → byEmailsAlone after = false) ∧
  (isAboutName before = true → byPartsAlone after = false)
  deriving Decidable

section

variable {es es' : List Setting}

theorem changesOf_email :
    (changesOf es).email = (last Setting.ofUserName es).or (first Setting.ofEmails es) := by
  rw [changesOf, foldl_email]
  rfl

theorem changesOf_name : (changesOf es).name = last Setting.ofName es := by
  rw [changesOf, foldl_name]
  exact Option.or_none

theorem changesOf_givenName : (changesOf es).givenName = last Setting.ofGivenName es := by
  rw [changesOf, foldl_givenName]
  exact Option.or_none

theorem changesOf_familyName : (changesOf es).familyName = last Setting.ofFamilyName es := by
  rw [changesOf, foldl_familyName]
  exact Option.or_none

theorem changesOf_externalId : (changesOf es).externalId = last Setting.ofExternalId es := by
  rw [changesOf, foldl_externalId]
  exact Option.or_none

theorem changesOf_active : (changesOf es).active = last Setting.ofActive es := by
  rw [changesOf, foldl_active]
  exact Option.or_none

theorem changesOf_role : (changesOf es).role = last Setting.ofRole es := by
  rw [changesOf, foldl_role]
  exact Option.or_none

theorem append_email (h : givesAddress es = true → byEmailsAlone es' = false) :
    (changesOf (es ++ es')).email = (changesOf es').email.or (changesOf es).email := by
  rw [changesOf_append, foldl_email, @changesOf_email es']
  cases hbefore : (changesOf es).email with
  | none => rw [Option.none_or, Option.or_none]
  | some x =>
    have hgives : givesAddress es = true := by
      rw [givesAddress, ← last_isSome Setting.ofUserName, ← first_isSome Setting.ofEmails, ← Option.isSome_or,
        ← changesOf_email, hbefore]
      rfl
    have halone := h hgives
    rw [byEmailsAlone, ← last_isSome Setting.ofUserName, ← first_isSome Setting.ofEmails] at halone
    cases huser : last Setting.ofUserName es' with
    | some v => rfl
    | none =>
      rw [huser, Option.isSome_none, Bool.not_false, Bool.and_true] at halone
      rw [Option.isNone_iff_eq_none.1 (Option.isSome_eq_false_iff.1 halone)]
      rfl

theorem append_name {lower : Text → Text} (hsound : (changesOf es').Sound lower)
    (h : isAboutName es = true → byPartsAlone es' = false) :
    (changesOf (es ++ es')).composedName = (changesOf es').composedName.or (changesOf es).composedName := by
  have hname : (changesOf (es ++ es')).name = (last Setting.ofName es').or (changesOf es).name := by
    rw [changesOf_append, foldl_name]
  have hgiven : (changesOf (es ++ es')).givenName =
      (last Setting.ofGivenName es').or (changesOf es).givenName := by
    rw [changesOf_append, foldl_givenName]
  have hfamily : (changesOf (es ++ es')).familyName =
      (last Setting.ofFamilyName es').or (changesOf es).familyName := by
    rw [changesOf_append, foldl_familyName]
  have hne := hsound.name
  rw [changesOf_name] at hne
  simp only [ScimUserChanges.composedName, hname, hgiven, hfamily, @changesOf_name es',
    @changesOf_givenName es',
    @changesOf_familyName es']
  cases hwhole : last Setting.ofName es' with
  | some n =>
    have hn := hne n hwhole
    simp [Option.filter, hn]
  | none =>
    cases hparts : givesPart es' with
    | false =>
      -- nothing of the name is given later
      rw [givesPart, ← last_isSome, ← last_isSome, Bool.or_eq_false_iff] at hparts
      rw [Option.isNone_iff_eq_none.1 (Option.isSome_eq_false_iff.1 hparts.1),
        Option.isNone_iff_eq_none.1 (Option.isSome_eq_false_iff.1 hparts.2)]
      rfl
    | true =>
      -- nothing of the name was given before
      have hbefore : isAboutName es = false := by
        by_contra hbefore
        have halone := h (by simpa using hbefore)
        rw [byPartsAlone, hparts, ← last_isSome, hwhole] at halone
        exact absurd halone (by decide)
      rw [isAboutName, givesPart, ← last_isSome, ← last_isSome, ← last_isSome, Bool.or_eq_false_iff,
        Bool.or_eq_false_iff, ← changesOf_name, ← changesOf_givenName, ← changesOf_familyName] at hbefore
      rw [Option.isNone_iff_eq_none.1 (Option.isSome_eq_false_iff.1 hbefore.1),
        Option.isNone_iff_eq_none.1 (Option.isSome_eq_false_iff.1 hbefore.2.1),
        Option.isNone_iff_eq_none.1 (Option.isSome_eq_false_iff.1 hbefore.2.2)]
      simp only [Option.or_none]
      exact Option.or_none.symm

theorem getD_or {α : Type} (o o' : Option α) (a : α) : (o.or o').getD a = o.getD (o'.getD a) := by
  cases o <;> rfl

theorem updated_append {lower : Text → Text} (user : StaffUser)
    (hsound : (changesOf es').Sound lower) (h : MayFollow es es') :
    updated user (changesOf (es ++ es')) = updated (updated user (changesOf es))
      (changesOf es') := by
  have hexternal : (changesOf (es ++ es')).externalId =
      (changesOf es').externalId.or (changesOf es).externalId := by
    rw [changesOf_append, foldl_externalId, @changesOf_externalId es']
  have hactive : (changesOf (es ++ es')).active = (changesOf es').active.or (changesOf es).active := by
    rw [changesOf_append, foldl_active, @changesOf_active es']
  have hrole : (changesOf (es ++ es')).role = (changesOf es').role.or (changesOf es).role := by
    rw [changesOf_append, foldl_role, @changesOf_role es']
  simp only [updated, append_email h.1, append_name hsound h.2, hexternal, hactive, hrole, getD_or,
    Option.map_or]

end

/-! ## One PATCH or one for each operation -/

def patchBody (ops : List Json) : Json := .obj [(ascii "Operations", .arr ops)]

section

variable (lower : Text → Text) (taken : Text → Bool)

/-- What an operation sets, if it is read. -/
def settingsOf (raw : Json) : List Setting :=
  match operationSettings lower raw with
  | .ok es => es
  | .error _ => []

/-- A PATCH with this operation alone is accepted. -/
def ValidOperation (raw : Json) : Prop :=
  ∃ c, parseScimPatch lower (patchBody [raw]) = .ok c ∧ ∀ e, c.email = some e → taken e = false

/-- No operation that gives an address by `emails` alone comes after one that gives an address, and
none that gives parts of the name alone after one that is about the name. -/
def InOrder (ops : List Json) : Prop :=
  ops.Pairwise fun before after => MayFollow (settingsOf lower before) (settingsOf lower after)
  deriving Decidable

/-- One PATCH for each operation. -/
def patchEach (user : StaffUser) (ops : List Json) : Except ScimError StaffUser :=
  ops.foldlM (fun user op => (patchScimUser lower taken user (patchBody [op])).map Prod.fst) user

end

section

variable {lower : Text → Text} {taken : Text → Bool} {user : StaffUser} {ops : List Json}

theorem settings_foldlM (hread : ∀ op ∈ ops, operationSettings lower op = .ok (settingsOf lower op))
    (c : ScimUserChanges) : (ops.foldlM (fun c raw => do
      let settings ← operationSettings lower raw
      return settings.foldl ScimUserChanges.set c) c) =
      .ok ((ops.flatMap (settingsOf lower)).foldl ScimUserChanges.set c) := by
  induction ops generalizing c with
  | nil => rfl
  | cons op ops ih =>
    rw [foldlM_cons, hread op mem_cons_self, flatMap_cons, foldl_append]
    exact ih (fun op hop => hread op (mem_cons_of_mem _ hop)) _

theorem parseScimPatch_eq (hlength : ops.length ≤ 50)
    (hread : ∀ op ∈ ops, operationSettings lower op = .ok (settingsOf lower op)) :
    parseScimPatch lower (patchBody ops) = .ok (changesOf (ops.flatMap (settingsOf lower))) := by
  have hfield : field (patchBody ops) "Operations" = some (.arr ops) := by
    simp only [field, patchBody, find?_cons, decide_true, Option.map_some]
  rw [parseScimPatch, hfield]
  dsimp only
  rw [if_neg (by omega)]
  exact settings_foldlM hread noChanges

variable {op : Json}

theorem parseScimPatch_one (hread : operationSettings lower op = .ok (settingsOf lower op)) :
    parseScimPatch lower (patchBody [op]) = .ok (changesOf (settingsOf lower op)) := by
  have hone : ∀ op' ∈ [op], operationSettings lower op' = .ok (settingsOf lower op') :=
    fun op' hop => by
    rw [mem_singleton.1 hop, hread]
  have hlength : [op].length ≤ 50 := by
    rw [length_singleton]
    omega
  rw [parseScimPatch_eq hlength hone, flatMap_singleton]

theorem ValidOperation.read (h : ValidOperation lower taken op) :
    operationSettings lower op = .ok (settingsOf lower op) := by
  obtain ⟨c, hc, -⟩ := h
  have hfield : field (patchBody [op]) "Operations" = some (.arr [op]) := by
    simp only [field, patchBody, find?_cons, decide_true, Option.map_some]
  rw [parseScimPatch, hfield] at hc
  rw [settingsOf]
  cases hs : operationSettings lower op with
  | ok es => rfl
  | error e =>
    simp only [length_singleton, foldlM_cons, hs] at hc
    cases hc

theorem ValidOperation.free (h : ValidOperation lower taken op) :
    ∀ e, (changesOf (settingsOf lower op)).email = some e → taken e = false := by
  obtain ⟨c, hc, hfree⟩ := h
  have hread : operationSettings lower op = .ok (settingsOf lower op) :=
    ValidOperation.read (show ValidOperation lower taken op from ⟨c, hc, hfree⟩)
  cases hc.symm.trans (parseScimPatch_one hread)
  exact hfree

theorem settingsOf_sound (hlower : ToLowerCase lower)
    (h : operationSettings lower op = .ok (settingsOf lower op)) :
    SoundIn lower (namedColumns lower op) (settingsOf lower op) :=
    operationSettings_sound hlower op _ h

theorem MayFollow.flatMap (h : ∀ before ∈ ops,
    MayFollow (settingsOf lower before) (settingsOf lower op)) :
    MayFollow (ops.flatMap (settingsOf lower)) (settingsOf lower op) := by
  constructor
  · intro hgives
    rw [givesAddress, Bool.or_eq_true, any_flatMap, any_flatMap] at hgives
    rcases hgives with hgives | hgives
    · obtain ⟨before, hbefore, hany⟩ := any_eq_true.1 hgives
      exact (h before hbefore).1 (by rw [givesAddress, hany, Bool.true_or])
    · obtain ⟨before, hbefore, hany⟩ := any_eq_true.1 hgives
      exact (h before hbefore).1 (by rw [givesAddress, hany, Bool.or_true])
  · intro habout
    rw [isAboutName, givesPart, Bool.or_eq_true, Bool.or_eq_true, any_flatMap, any_flatMap, any_flatMap]
      at habout
    rcases habout with habout | habout | habout
    · obtain ⟨before, hbefore, hany⟩ := any_eq_true.1 habout
      exact (h before hbefore).2 (by rw [isAboutName, hany, Bool.true_or])
    · obtain ⟨before, hbefore, hany⟩ := any_eq_true.1 habout
      exact (h before hbefore).2 (by rw [isAboutName, givesPart, hany, Bool.true_or, Bool.or_true])
    · obtain ⟨before, hbefore, hany⟩ := any_eq_true.1 habout
      exact (h before hbefore).2 (by rw [isAboutName, givesPart, hany, Bool.or_true, Bool.or_true])

variable {c : ScimUserChanges}

theorem updated_role (howner : user.role ≠ .owner) : (updated user c).role ≠ .owner := by
  rw [updated]
  cases c.role with
  | none => exact howner
  | some r => cases r <;> exact fun h => StaffRole.noConfusion h

theorem updated_email (hc : c.Sound lower) (hemail : lower user.email = user.email) :
    lower (updated user c).email = (updated user c).email := by
  rw [updated]
  cases he : c.email with
  | none => exact hemail
  | some e => exact (hc.email e he).2

theorem patch_one (hlower : ToLowerCase lower) (hvalid : ValidOperation lower taken op)
    (howner : user.role ≠ .owner) (hemail : lower user.email = user.email) :
    (patchScimUser lower taken user (patchBody [op])).map Prod.fst =
      .ok (updated user (changesOf (settingsOf lower op))) := by
  rw [patchScimUser, parseScimPatch_one hvalid.read]
  exact applyChanges_eq (changesOf_sound (settingsOf_sound hlower hvalid.read)) howner
    hemail hvalid.free

theorem patchEach_eq (hlower : ToLowerCase lower) (hvalid : ∀ op ∈ ops, ValidOperation lower taken op)
    (horder : InOrder lower ops) (howner : user.role ≠ .owner) (hemail : lower user.email = user.email) :
    patchEach lower taken user ops = .ok (updated user (changesOf (ops.flatMap (settingsOf lower)))) := by
  induction ops using reverseRecOn with
  | nil => rfl
  | append_singleton ops op ih =>
    have hbefore := fun op hop => hvalid op (mem_append_left [_] hop)
    have hop := hvalid op (mem_append_right _ (mem_singleton_self op))
    obtain ⟨hordered, -, hfollow⟩ := pairwise_append.1 horder
    have hsound := changesOf_sound (settingsOf_sound hlower hop.read)
    have hmay := MayFollow.flatMap fun before hb => hfollow before hb op (mem_singleton_self op)
    have hread : ∀ op ∈ ops, SoundIn lower (ops.flatMap (namedColumns lower))
        (settingsOf lower op) := fun op hop =>
      (settingsOf_sound hlower (hbefore op hop).read).mono fun f hf => mem_flatMap.2 ⟨op, hop, hf⟩
    have hall : SoundIn lower (ops.flatMap (namedColumns lower)) (ops.flatMap (settingsOf lower)) := by
      intro e he
      obtain ⟨op, hop, he⟩ := mem_flatMap.1 he
      exact hread op hop e he
    rw [patchEach, foldlM_append, flatMap_append, flatMap_singleton, updated_append user hsound hmay]
    change (patchEach lower taken user ops).bind _ = _
    rw [ih hbefore hordered]
    change ((patchScimUser lower taken _ (patchBody [op])).map Prod.fst).bind _ = _
    rw [patch_one hlower hop (updated_role howner) (updated_email (changesOf_sound hall) hemail)]
    rfl

theorem flatMap_sound (hlower : ToLowerCase lower)
    (hread : ∀ op ∈ ops, operationSettings lower op = .ok (settingsOf lower op)) :
    SoundIn lower (ops.flatMap (namedColumns lower)) (ops.flatMap (settingsOf lower)) := by
  intro e he
  obtain ⟨op, hop, he⟩ := mem_flatMap.1 he
  obtain ⟨hsound, hcol⟩ := settingsOf_sound hlower (hread op hop) e he
  exact ⟨hsound, mem_flatMap.2 ⟨op, hop, hcol⟩⟩

theorem whole_free (hvalid : ∀ op ∈ ops, ValidOperation lower taken op)
    (horder : InOrder lower ops) :
    ∀ e, (changesOf (ops.flatMap (settingsOf lower))).email = some e → taken e = false := by
  induction ops using reverseRecOn with
  | nil => exact fun e he => absurd he.symm (Option.some_ne_none e)
  | append_singleton ops op ih =>
    intro e he
    obtain ⟨hordered, -, hfollow⟩ := pairwise_append.1 horder
    have hmay := MayFollow.flatMap fun before hb => hfollow before hb op (mem_singleton_self op)
    rw [flatMap_append, flatMap_singleton, append_email hmay.1] at he
    rcases Option.or_eq_some_iff.1 he with he | ⟨-, he⟩
    · exact (hvalid op (mem_append_right _ (mem_singleton_self op))).free e he
    · exact ih (fun op hop => hvalid op (mem_append_left [_] hop)) hordered e he

theorem patch_whole (hlower : ToLowerCase lower) (hlength : ops.length ≤ 50)
    (hvalid : ∀ op ∈ ops, ValidOperation lower taken op) (horder : InOrder lower ops)
    (howner : user.role ≠ .owner) (hemail : lower user.email = user.email) :
    (patchScimUser lower taken user (patchBody ops)).map Prod.fst =
    patchEach lower taken user ops := by
  have hread := fun op hop => (hvalid op hop).read
  rw [patchEach_eq hlower hvalid horder howner hemail, patchScimUser,
    parseScimPatch_eq hlength hread]
  exact applyChanges_eq (changesOf_sound (flatMap_sound hlower hread)) howner hemail
    (whole_free hvalid horder)

/-! ## What is not named -/

def SameColumn : AccountField → StaffUser → StaffUser → Prop
  | .email, u, u' => u'.email = u.email
  | .name, u, u' => u'.name = u.name
  | .externalId, u, u' => u'.scimExternalId = u.scimExternalId
  | .role, u, u' => u'.role = u.role
  | .disabled, u, u' => u'.disabled = u.disabled

variable {es : List Setting} {f : AccountField}

theorem none_of_column {α : Type} (get : Setting → Option α) {cols : List AccountField}
    (hsound : SoundIn lower cols es) (hget : ∀ e a, get e = some a → e.column = f) (hf : f ∉ cols) :
    last get es = none ∧ first get es = none := by
  have hnone : ∀ e ∈ es, get e = none := fun e he =>
    Option.eq_none_iff_forall_ne_some.2 fun a ha => hf (hget e a ha ▸ (hsound e he).2)
  exact ⟨last_eq_none hnone, first_eq_none hnone⟩

theorem composedName_none (hname : c.name = none) (hgiven : c.givenName = none)
    (hfamily : c.familyName = none) : c.composedName = none := by
  rw [ScimUserChanges.composedName, hname, hgiven, hfamily]
  rfl

theorem applyChanges_same {cols : List AccountField} {user' : StaffUser}
    {fields : List AccountField}
    (hsound : SoundIn lower cols es)
    (h : applyChanges lower taken user (changesOf es) = .ok (user', fields))
    (hf : f ∉ cols) : SameColumn f user user' := by
  unfold applyChanges at h
  split at h
  · cases h
  · extract_lets email name externalId role disabled at h
    split at h
    · cases h
    · cases h
      cases f with
      | email =>
        have huser := none_of_column Setting.ofUserName hsound (by rintro ⟨⟩ _ ⟨⟩; rfl) hf
        have hemails := none_of_column Setting.ofEmails hsound (by rintro ⟨⟩ _ ⟨⟩; rfl) hf
        have hnone : (changesOf es).email = none := by
          rw [changesOf_email, huser.1, hemails.2]
          rfl
        simp only [SameColumn, email, hnone]
        rfl
      | name =>
        have hname := none_of_column Setting.ofName hsound (by rintro ⟨⟩ _ ⟨⟩; rfl) hf
        have hgiven := none_of_column Setting.ofGivenName hsound (by rintro ⟨⟩ _ ⟨⟩; rfl) hf
        have hfamily := none_of_column Setting.ofFamilyName hsound (by rintro ⟨⟩ _ ⟨⟩; rfl) hf
        have hnone : (changesOf es).composedName = none :=
          composedName_none (changesOf_name.trans hname.1) (changesOf_givenName.trans hgiven.1)
            (changesOf_familyName.trans hfamily.1)
        simp only [SameColumn, name, hnone]
        rfl
      | externalId =>
        have hlast := none_of_column Setting.ofExternalId hsound (by rintro ⟨⟩ _ ⟨⟩; rfl) hf
        simp only [SameColumn, externalId, changesOf_externalId, hlast.1]
        rfl
      | role =>
        have hlast := none_of_column Setting.ofRole hsound (by rintro ⟨⟩ _ ⟨⟩; rfl) hf
        simp only [SameColumn, role, changesOf_role, hlast.1]
        rfl
      | disabled =>
        have hlast := none_of_column Setting.ofActive hsound (by rintro ⟨⟩ _ ⟨⟩; rfl) hf
        simp only [SameColumn, disabled, changesOf_active, hlast.1]
        rfl

theorem settingsOf_of_ok (h : operationSettings lower op = .ok es) :
    operationSettings lower op = .ok (settingsOf lower op) := by
  rw [settingsOf, h]

theorem read_of_foldlM {c c' : ScimUserChanges}
    (h : (ops.foldlM (fun c raw => do
      let settings ← operationSettings lower raw
      return settings.foldl ScimUserChanges.set c) c) = .ok c') :
    ∀ op ∈ ops, operationSettings lower op = .ok (settingsOf lower op) := by
  induction ops generalizing c with
  | nil => exact fun op hop => absurd hop not_mem_nil
  | cons op ops ih =>
    rw [foldlM_cons] at h
    cases hs : operationSettings lower op with
    | error e =>
      rw [hs] at h
      cases h
    | ok es =>
      rw [hs] at h
      intro op' hop
      rcases mem_cons.1 hop with rfl | hop
      · exact settingsOf_of_ok hs
      · exact ih h op' hop

theorem read_of_parse (h : parseScimPatch lower (patchBody ops) = .ok c) :
    (∀ op ∈ ops, operationSettings lower op = .ok (settingsOf lower op)) ∧
      c = changesOf (ops.flatMap (settingsOf lower)) := by
  have hparse := h
  have hfield : field (patchBody ops) "Operations" = some (.arr ops) := by
    simp only [field, patchBody, find?_cons, decide_true, Option.map_some]
  rw [parseScimPatch, hfield] at h
  dsimp only at h
  split at h
  · cases h
  · next hlength =>
    have hread := read_of_foldlM h
    refine ⟨hread, ?_⟩
    rw [parseScimPatch_eq (by omega) hread] at hparse
    exact (Except.ok.inj hparse).symm

theorem unnamed_same (hlower : ToLowerCase lower) {user' : StaffUser} {fields : List AccountField}
    (h : patchScimUser lower taken user (patchBody ops) = .ok (user', fields))
    (hf : ∀ op ∈ ops, f ∉ namedColumns lower op) : SameColumn f user user' := by
  rw [patchScimUser] at h
  cases hparse : parseScimPatch lower (patchBody ops) with
  | error e =>
    rw [hparse] at h
    cases h
  | ok c =>
    rw [hparse] at h
    obtain ⟨hread, rfl⟩ := read_of_parse hparse
    refine applyChanges_same (flatMap_sound hlower hread) h fun hmem => ?_
    obtain ⟨op, hop, hcol⟩ := mem_flatMap.1 hmem
    exact hf op hop hcol

/-! ## Putting back what was read -/

/-- The texts of an account are as the directory would store them: without blanks around them, and
not too long. -/
structure Stored (user : StaffUser) : Prop where
  email : isEmail user.email = true
  emailTrim : trim user.email = user.email
  emailLength : user.email.length ≤ 254
  nameTrim : trim user.name = user.name
  nameLength : user.name.length ≤ 200
  externalIdTrim : ∀ x, user.scimExternalId = some x → trim x = x
  externalIdLength : ∀ x, user.scimExternalId = some x → x.length ≤ 300

theorem text_stored {t : Text} {max : Nat} (hne : t ≠ []) (htrim : trim t = t)
    (hlength : t.length ≤ max) : text (some (.str t)) max = some t := by
  have hfilter : (some t).filter (fun s => trim s ≠ []) = some t := by
    rw [Option.filter_eq_some_iff]
    exact ⟨rfl, by simpa [htrim] using hne⟩
  rw [text, asText, hfilter, Option.map_some, htrim, take_of_length_le hlength]

theorem attributeOf_ascii (hlower : ToLowerCase lower) (path : Text) (a : Attribute)
    (hascii : (trim path).all (fun u => decide (u.val < 128)) = true)
    (h : attributeOf (map asciiLower) path = some a) : attributeOf lower path = some a := by
  rw [attributeOf, hlower.ascii _ hascii]
  exact h

theorem attributeSettings_of {path : Text} {a : Attribute} (h : attributeOf lower path = some a)
    (ha : a ≠ .name) (value : Option Json) (remove : Bool) :
    attributeSettings lower path value remove = settingOf lower a value remove := by
  unfold attributeSettings
  split
  · next hname => exact absurd (Option.some.inj (h.symm.trans hname)) ha
  · rw [pathSettings, h]

theorem attributeSettings_ascii (hlower : ToLowerCase lower) (path : Text) (a : Attribute)
    (hascii : (trim path).all (fun u => decide (u.val < 128)) = true)
    (h : attributeOf (map asciiLower) path = some a) (ha : a ≠ .name) (value : Option Json)
    (remove : Bool) : attributeSettings lower path value remove = settingOf lower a value remove :=
  attributeSettings_of (attributeOf_ascii hlower path a hascii h) ha value remove

/-- What the whole name of an account sets. -/
def nameSettings (name : Text) : List Setting := if name = [] then [] else [.name name]

theorem wholeName_setting (hstored : Stored user) :
    settingOf lower .wholeName (some (.str user.name)) false = .ok (nameSettings user.name) := by
  rw [settingOf, nameSettings]
  split
  · next hnil => rw [hnil]; rfl
  · next hne => rw [text_stored hne hstored.nameTrim hstored.nameLength]; rfl

theorem userName_setting (hstored : Stored user) :
    settingOf lower .userName (some (.str user.email)) false =
    .ok [.userName (lower user.email)] := by
  have htext := text_stored (email_ne_nil hstored.email) hstored.emailTrim hstored.emailLength
  have hfilter : (text (some (.str user.email)) 254).filter isEmail = some user.email := by
    rw [htext, Option.filter_eq_some_iff]
    exact ⟨rfl, hstored.email⟩
  rw [settingOf, hfilter]

theorem externalId_setting (hstored : Stored user) {x : Text} (hx : user.scimExternalId = some x)
    (hne : x ≠ []) :
    settingOf lower .externalId (some (.str x)) false = .ok [.externalId user.scimExternalId] := by
  rw [settingOf, text_stored hne (hstored.externalIdTrim x hx) (hstored.externalIdLength x hx), hx]
  rfl

theorem roles_setting (hlower : ToLowerCase lower) (howner : user.role ≠ .owner) :
    ∃ r : SsoAssignableRole, r.toStaff = user.role ∧ settingOf lower .roles
      (some (.arr [.obj [(ascii "value", .str (roleText user.role)), (ascii "primary", .bool true)]])) false =
        .ok [.role r] := by
  have hadmin : lower (trim (ascii "admin")) = ascii "admin" := by
    rw [hlower.ascii _ (by decide +kernel)]
    decide +kernel
  have hreviewer : lower (trim (ascii "reviewer")) = ascii "reviewer" := by
    rw [hlower.ascii _ (by decide +kernel)]
    decide +kernel
  have hvalue : field (.obj [(ascii "value", .str (roleText user.role)),
      (ascii "primary", .bool true)]) "value" = some (.str (roleText user.role)) := by
    simp only [field, find?_cons, decide_true, Option.map_some]
  have hprimary : isPrimary (.obj [(ascii "value", .str (roleText user.role)),
      (ascii "primary", .bool true)]) = true := by
    have hkeys : decide (ascii "value" = ascii "primary") = false := by decide +kernel
    simp only [isPrimary, field, find?_cons, hkeys, decide_true, Option.map_some]
  have hrole : role lower (some (.arr [.obj [(ascii "value", .str (roleText user.role)), (ascii "primary", .bool true)]])) =
      role lower (some (.str (roleText user.role))) := by
    simp only [role, map_cons, map_nil, roleEntry, hvalue, hprimary, find?_cons, find?_nil,
      Option.some_or, Option.none_or, head?_cons, Option.bind_some, asText]
  have hread : ∀ r : SsoAssignableRole, r.toStaff = user.role →
      role lower (some (.str (roleText user.role))) = .ok r := by
    intro r hr
    rw [← hr]
    cases r with
    | admin =>
      simp only [role, SsoAssignableRole.toStaff, roleText, map_cons, map_nil, roleEntry, find?_cons,
        find?_nil, Option.none_or, head?_cons, Option.bind_some, asText, Option.map_some, hadmin, Option.getD_some]
      rw [if_neg (by decide +kernel), if_neg (by decide +kernel), if_pos trivial]
    | reviewer =>
      simp only [role, SsoAssignableRole.toStaff, roleText, map_cons, map_nil, roleEntry, find?_cons,
        find?_nil, Option.none_or, head?_cons, Option.bind_some, asText, Option.map_some, hreviewer,
        Option.getD_some]
      rw [if_neg (by decide +kernel), if_pos trivial]
  obtain ⟨r, hr⟩ : ∃ r : SsoAssignableRole, r.toStaff = user.role := by
    cases hu : user.role with
    | owner => exact absurd hu howner
    | admin => exact ⟨.admin, rfl⟩
    | reviewer => exact ⟨.reviewer, rfl⟩
  refine ⟨r, hr, ?_⟩
  unfold settingOf
  dsimp only
  rw [hrole, hread r hr]
  rfl

/-- What is set by the entries of an account's resource that are attributes. -/
def resourceSettings (user : StaffUser) (r : SsoAssignableRole) (email : Text) : List Setting :=
  ((user.scimExternalId.filter (· ≠ [])).toList.map fun _ =>
    Setting.externalId user.scimExternalId) ++
    [.userName email] ++ nameSettings user.name ++ nameSettings user.name ++
    [.active (!user.disabled), .role r]

theorem changesOf_resource (r : SsoAssignableRole) (email : Text) :
    changesOf (resourceSettings user r email) =
      ⟨some email, if user.name = [] then none else some user.name, none, none,
        (user.scimExternalId.filter (· ≠ [])).map fun _ => user.scimExternalId,
          some (!user.disabled), some r⟩ := by
  rw [resourceSettings, nameSettings]
  cases user.scimExternalId.filter (· ≠ []) <;> split <;> rfl

theorem applyAttribute_of {path : Text} {value : Option Json}
    (h : attributeSettings lower path value false = .ok es) :
    applyAttribute lower c path value false = .ok (es.foldl ScimUserChanges.set c) := by
  rw [applyAttribute, h]
  rfl

theorem parseScimUser_of {entries : List (Text × Json)} {email : Text}
    (h : (entries.filter fun e => e.1 ∉ skippedKeys).foldlM (fun c e =>
      applyAttribute lower c e.1 (some e.2) false)
      noChanges = .ok c) (hemail : c.email = some email) :
      parseScimUser lower (.obj entries) = .ok c := by
  rw [parseScimUser, h]
  obtain ⟨_, _, _, _, _, _, _⟩ := c
  cases hemail
  rfl

theorem parseScimUser_resource (hlower : ToLowerCase lower) (hstored : Stored user)
    (howner : user.role ≠ .owner) (metaData : Json) :
    ∃ r : SsoAssignableRole, r.toStaff = user.role ∧
      parseScimUser lower (toScimUser metaData user) =
      .ok (changesOf (resourceSettings user r (lower user.email))) := by
  obtain ⟨r, hr, hroles⟩ := roles_setting hlower howner
  refine ⟨r, hr, ?_⟩
  have hexternal : ∀ x, user.scimExternalId = some x → x ≠ [] →
      attributeSettings lower (ascii "externalId") (some (.str x)) false =
      .ok [.externalId user.scimExternalId] := by
    intro x hx hne
    rw [attributeSettings_ascii hlower _ .externalId (by decide +kernel) (by decide +kernel) (by decide),
      externalId_setting hstored hx hne]
  have huser : attributeSettings lower (ascii "userName") (some (.str user.email)) false =
      .ok [.userName (lower user.email)] := by
    rw [attributeSettings_ascii hlower _ .userName (by decide +kernel) (by decide +kernel) (by decide),
      userName_setting hstored]
  have hname : attributeSettings lower (ascii "name")
      (some (.obj [(ascii "formatted", .str user.name)])) false = .ok (nameSettings user.name) := by
    have hattr := attributeOf_ascii hlower (ascii "name") .name (by decide +kernel)
        (by decide +kernel)
    have hformatted := attributeOf_ascii hlower (ascii "name." ++
        ascii "formatted") .wholeName (by decide +kernel)
      (by decide +kernel)
    simp only [attributeSettings, hattr, entrySettings, mapM_cons, mapM_nil, pathSettings, hformatted,
      wholeName_setting hstored]
    exact congrArg Except.ok (append_nil _)
  have hdisplay : attributeSettings lower (ascii "displayName") (some (.str user.name)) false =
      .ok (nameSettings user.name) := by
    rw [attributeSettings_ascii hlower _ .wholeName (by decide +kernel) (by decide +kernel) (by decide),
      wholeName_setting hstored]
  have hactive : attributeSettings lower (ascii "active") (some (.bool (!user.disabled))) false =
      .ok [.active (!user.disabled)] := by
    rw [attributeSettings_ascii hlower _ .active (by decide +kernel) (by decide +kernel) (by decide)]
    rfl
  have hrole : attributeSettings lower (ascii "roles")
      (some (.arr [.obj [(ascii "value", .str (roleText user.role)), (ascii "primary", .bool true)]])) false =
        .ok [.role r] := by
    rw [attributeSettings_ascii hlower _ .roles (by decide +kernel) (by decide +kernel) (by decide),
      hroles]
  have hstep : ∀ (c : ScimUserChanges) (path : Text) (value : Json) (es : List Setting)
      (rest : List (Text × Json)), attributeSettings lower path (some value) false = .ok es →
      ((path, value) :: rest).foldlM (fun c e => applyAttribute lower c e.1 (some e.2) false) c =
        rest.foldlM (fun c e => applyAttribute lower c e.1 (some e.2) false) (es.foldl ScimUserChanges.set c) := by
    intro c path value es rest h
    rw [foldlM_cons, applyAttribute_of h]
    rfl
  have hrest : ∀ c : ScimUserChanges,
      ([(ascii "userName", .str user.email), (ascii "name", .obj [(ascii "formatted", .str user.name)]),
        (ascii "displayName", .str user.name), (ascii "active", .bool (!user.disabled)),
        (ascii "roles", .arr [.obj [(ascii "value", .str (roleText user.role)), (ascii "primary", .bool true)]])] :
          List (Text × Json)).foldlM (fun c e => applyAttribute lower c e.1 (some e.2) false) c =
        .ok (([Setting.userName (lower user.email)] ++ nameSettings user.name ++ nameSettings user.name ++
          [Setting.active (!user.disabled), Setting.role r]).foldl ScimUserChanges.set c) := by
    intro c
    rw [hstep _ _ _ _ _ huser, hstep _ _ _ _ _ hname, hstep _ _ _ _ _ hdisplay, hstep _ _ _ _ _ hactive,
      hstep _ _ _ _ _ hrole, foldl_append, foldl_append]
    rfl
  have hskipped : ∀ k ∈ [ascii "externalId", ascii "userName", ascii "name", ascii "displayName",
      ascii "active", ascii "roles"], decide (k ∉ skippedKeys) = true := by
    decide +kernel
  have hkept : ∀ k ∈ [ascii "schemas", ascii "id", ascii "emails", ascii "meta"],
      decide (k ∉ skippedKeys) = false := by
    decide +kernel
  have hemail : (changesOf (resourceSettings user r (lower user.email))).email = some (lower user.email) := by
    rw [changesOf_resource]
  refine parseScimUser_of ?_ hemail
  simp only [mem_cons, not_mem_nil, or_false, forall_eq_or_imp, forall_eq] at hskipped hkept
  cases hx : user.scimExternalId.filter (· ≠ []) with
  | none =>
    simp only [filter_append, filter_cons, filter_nil, hskipped, hkept, Option.toList_none, map_nil,
      Bool.false_eq_true, ↓reduceIte, nil_append, hrest, resourceSettings, hx, changesOf]
  | some x =>
    obtain ⟨hsome, hne⟩ := Option.filter_eq_some_iff.1 hx
    simp only [filter_cons, filter_nil, hskipped, hkept, Option.toList_some, map_cons, map_nil,
      Bool.false_eq_true, ↓reduceIte, nil_append, cons_append]
    rw [hstep _ _ _ _ _ (hexternal x hsome (by simpa using hne)), hrest, resourceSettings, hx]
    rfl

theorem filter_eq_none {α : Type} {o : Option α} {p : α → Bool}
    (h : ∀ a, o = some a → p a = false) : o.filter p = none := by
  cases o with
  | none => rfl
  | some a => rw [Option.filter_some, h a rfl]; rfl

theorem put_resource (hlower : ToLowerCase lower) (hstored : Stored user)
    (howner : user.role ≠ .owner) (metaData : Json) :
    putScimUser lower taken user (toScimUser metaData user) = .ok (user, []) := by
  obtain ⟨r, hr, hparse⟩ := parseScimUser_resource hlower hstored howner metaData
  rw [putScimUser, hparse, changesOf_resource]
  change applyChanges lower taken user _ = _
  unfold applyChanges
  rw [if_neg howner]
  extract_lets email name externalId role disabled
  have hemail : email = none := filter_eq_none fun e he => by
    cases he
    simp
  have hname : name = none := by
    refine filter_eq_none fun n hn => ?_
    by_cases hnil : user.name = []
    · rw [composedName_none (if_pos hnil) rfl rfl] at hn
      cases hn
    · simp only [ScimUserChanges.composedName, Option.filter_some, decide_not, hnil, decide_false,
        Bool.not_false, ↓reduceIte, Option.some.injEq] at hn
      simp [← hn]
  have hexternal : externalId = none := filter_eq_none fun x hx => by
    obtain ⟨-, -, rfl⟩ := Option.map_eq_some_iff.1 hx
    simp
  have hrole : role = none := filter_eq_none fun q hq => by
    cases hq
    simp [hr]
  have hdisabled : disabled = none := by
    simp only [disabled]
    cases user.disabled <;> rfl
  rw [hemail, hname, hexternal, hrole, hdisabled]
  rfl

/-- A PATCH of operations in order is the sequence of its operations, what they do not name keeps
its value, and an account's resource changes nothing when it is put back. -/
theorem patch_is_its_operations (lower : Text → Text) (hlower : ToLowerCase lower)
    (taken : Text → Bool) (user : StaffUser)
    (howner : user.role ≠ .owner) (hemail : lower user.email = user.email) :
    (∀ ops : List Json, ops.length ≤ 50 → (∀ op ∈ ops, ValidOperation lower taken op) → InOrder lower ops →
      (patchScimUser lower taken user (patchBody ops)).map Prod.fst = patchEach lower taken user ops) ∧
    (∀ (ops : List Json) (user' : StaffUser) (fields : List AccountField),
      patchScimUser lower taken user (patchBody ops) = .ok (user', fields) →
        ∀ f : AccountField, (∀ op ∈ ops, f ∉ namedColumns lower op) → SameColumn f user user') ∧
    (Stored user → ∀ metaData : Json,
      putScimUser lower taken user (toScimUser metaData user) = .ok (user, [])) :=
  ⟨fun _ hlength hvalid horder => patch_whole hlower hlength hvalid horder howner hemail,
    fun _ _ _ h _ hf => unnamed_same hlower h hf,
      fun hstored metaData => put_resource hlower hstored howner metaData⟩

theorem asciiLower_idem (u : CodeUnit) : asciiLower (asciiLower u) = asciiLower u := by
  by_cases hu : 65 ≤ u.val ∧ u.val ≤ 90
  · have hval : (asciiLower u).val = u.val + 32 := by
      rw [asciiLower, if_pos hu]
      exact Nat.mod_eq_of_lt (by omega)
    rw [asciiLower, if_neg (by omega)]
  · have hsame : asciiLower u = u := if_neg hu
    rw [hsame, hsame]

theorem toLowerCase_ascii : ToLowerCase (map asciiLower) where
  ascii _ _ := rfl
  idem t := by
    rw [map_map]
    exact map_congr_left fun u _ => asciiLower_idem u
  ne_nil _ ht h := ht (map_eq_nil_iff.1 h)

theorem ValidOperation.of_isOk (h : (parseScimPatch lower (patchBody [op])).isOk = true) :
    ValidOperation lower (fun _ => false) op := by
  cases hparse : parseScimPatch lower (patchBody [op]) with
  | ok c => exact ⟨c, hparse, fun _ _ => rfl⟩
  | error e =>
    rw [hparse] at h
    exact absurd h.symm Bool.false_ne_true.symm

/-- An operation that replaces what its path names. -/
def replaceOp (path value : String) : Json :=
  .obj [(ascii "op", .str (ascii "Replace")), (ascii "path", .str (ascii path)),
    (ascii "value", .str (ascii value))]

/-- A reviewer. -/
def ada : StaffUser := ⟨ascii "1", ascii "ada@x.org", ascii "Ada Lovelace", .reviewer, false, none⟩

theorem patch_is_its_operations_ada :
    (patchScimUser (List.map asciiLower) (fun _ => false) ada
        (patchBody [replaceOp "Active" "False", replaceOp "userName" "Ada@Y.org"])).map Prod.fst =
      patchEach (List.map asciiLower) (fun _ => false) ada
        [replaceOp "Active" "False", replaceOp "userName" "Ada@Y.org"] ∧
    (∀ user' fields, patchScimUser (List.map asciiLower) (fun _ =>
      false) ada (patchBody [replaceOp "active" "false"]) =
      .ok (user', fields) → user'.name = ada.name) ∧
    putScimUser (List.map asciiLower) (fun _ => false) ada (toScimUser .null ada) = .ok (ada, []) := by
  have h := patch_is_its_operations (map asciiLower) toLowerCase_ascii (fun _ => false) ada (by decide)
    (by decide +kernel)
  refine ⟨h.1 _ (by decide) (fun op hop => ?_) (by decide +kernel), fun user' fields hpatch => ?_,
    h.2.2 ?_ .null⟩
  · simp only [mem_cons, not_mem_nil, or_false] at hop
    rcases hop with rfl | rfl <;> exact .of_isOk (by decide +kernel)
  · refine h.2.1 _ user' fields hpatch .name fun op hop => ?_
    rw [mem_singleton.1 hop]
    decide +kernel
  · exact ⟨by decide +kernel, by decide +kernel, by decide +kernel, by decide +kernel, by decide +kernel,
      fun _ hx => absurd hx.symm (Option.some_ne_none _), fun _ hx => absurd hx.symm (Option.some_ne_none _)⟩

/-- One PATCH keeps the first address of `emails`, its operations one by one the last; parts of a
name make a name together, and a part alone drops the rest; 51 operations are too many; and a name
that was cut after a blank loses the blank when it is put back. -/
theorem patch_is_not_its_operations :
    (∃ ops, ((patchScimUser (List.map asciiLower) (fun _ => false) ada (patchBody ops)).toOption.map
      (·.1.email)) =
        some (ascii "a@x.org") ∧
      (patchEach (List.map asciiLower) (fun _ => false) ada ops).toOption.map (·.email) = some (ascii "b@x.org")) ∧
    (∃ ops, ((patchScimUser (List.map asciiLower) (fun _ => false) ada (patchBody ops)).toOption.map (·.1.name)) =
        some (ascii "Augusta King") ∧
      (patchEach (List.map asciiLower) (fun _ => false) ada ops).toOption.map (·.name) = some (ascii "King")) ∧
    (patchScimUser (List.map asciiLower) (fun _ => false) ada
        (patchBody (List.replicate 51 (replaceOp "active" "true")))).toOption = none ∧
    (∃ user : StaffUser, (patchScimUser (List.map asciiLower) (fun _ => false) ada
        (patchBody [replaceOp "displayName" (String.ofList (List.replicate 199 'a') ++
          " b")])).toOption.map (·.1) =
          some user ∧
      (putScimUser (List.map asciiLower) (fun _ => false) user (toScimUser .null user)).toOption.map (·.2) =
        some [AccountField.name]) := by
  refine ⟨⟨[replaceOp "emails[type eq \"work\"].value" "a@x.org",
    replaceOp "emails[type eq \"work\"].value" "b@x.org"],
    by decide +kernel⟩, ⟨[replaceOp "name.givenName" "Augusta",
      replaceOp "name.familyName" "King"], by decide +kernel⟩,
    by decide +kernel, ⟨{ ada with name := replicate 199 97 ++ [32] }, by decide +kernel⟩⟩

end

end Scim

end SmartProctoring
