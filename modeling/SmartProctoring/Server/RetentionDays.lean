import SmartProctoring.Server.SessionActions

/-!
# When evidence is due

`services/retention.ts`: how many days the evidence of an ended session is kept.  The rule is
written twice: `evidenceDaysFor` resolves the rules of the session and falls back to the
organisation's days, and `evidenceDaysSql`, the filter of the retention query, takes the first
number in the stored documents.

The two differ where the rules that apply set no number and a document that does not apply does:
`due_selected_iff` says when the filter hides a session that is due.
-/

set_option autoImplicit false

namespace SmartProctoring

/-- `evidenceRetentionDays` of `DEFAULT_ORG_SETTINGS`. -/
def DEFAULT_EVIDENCE_RETENTION_DAYS : Int := 30

/-- A number of days in a stored document. -/
inductive DaysField
  | unset | null
  | number (n : Int)

namespace DaysField

/-- The value of a nullable field; an unset one is null by default. -/
def value : DaysField → Option Int
  | number n => some n
  | _ => none

/-- `{ ...a, ...b }`: the field of `b` where it is set. -/
def override : DaysField → DaysField → DaysField
  | a, unset => a
  | _, b => b

/-- `z.number().int().min(1).max(3650).nullable()` -/
def valid : DaysField → Bool
  | number n => decide (1 ≤ n ∧ n ≤ 3650)
  | _ => true

end DaysField

/-- A stored policy: `retention.evidenceDays`, and the other settings. -/
structure PolicyDocument (σ : Type) where
  evidenceDays : DaysField := .unset
  others : σ

/-- The other settings of a policy: none set, merged, and accepted by the schema. -/
structure OtherSettings (σ : Type) where
  none : σ
  merge : σ → σ → σ
  valid : σ → Bool

/-- The settings of an organisation that retention reads. -/
structure RetentionSettings (σ : Type) where
  defaultPolicy : Option (PolicyDocument σ) := none
  evidenceRetentionDays : DaysField := .unset

section Days

variable {σ : Type} (S : OtherSettings σ)

def mergePolicy (orgDefault : Option (PolicyDocument σ)) (examPolicy : PolicyDocument σ) :
    PolicyDocument σ :=
  match orgDefault with
  | some p =>
    { evidenceDays := p.evidenceDays.override examPolicy.evidenceDays
      others := S.merge p.others examPolicy.others }
  | none => { examPolicy with others := S.merge S.none examPolicy.others }

/-- The document of the rules a session runs under: the snapshot taken at start, before that the
exam's rules merged with the organisation default.  Accommodations do not change retention. -/
def effectiveDocument (snapshot : Option (PolicyDocument σ)) (exam : PolicyDocument σ)
    (org : RetentionSettings σ) : PolicyDocument σ :=
  match snapshot with
  | some p => mergePolicy S none p
  | none => mergePolicy S org.defaultPolicy exam

/-- `resolvePolicy` accepts the document. -/
def PolicyDocument.valid (p : PolicyDocument σ) : Bool := p.evidenceDays.valid && S.valid p.others

def RetentionSettings.days (org : RetentionSettings σ) : Int :=
  org.evidenceRetentionDays.value.getD DEFAULT_EVIDENCE_RETENTION_DAYS

/-- Days after the session ends before its evidence is deleted. -/
def evidenceDaysFor (snapshot : Option (PolicyDocument σ)) (exam : PolicyDocument σ)
    (org : RetentionSettings σ) : Int :=
  let policy := effectiveDocument S snapshot exam org
  -- an invalid stored policy never blocks deletion: fall back to the org default
  let fromPolicy := if policy.valid S then policy.evidenceDays.value else none
  fromPolicy.getD org.days

/-- The first number among the snapshot, the exam's policy and the organisation's default policy. -/
def policyDaysSql (snapshot : Option (PolicyDocument σ)) (exam : PolicyDocument σ)
    (org : RetentionSettings σ) : Option Int :=
  (snapshot.bind (·.evidenceDays.value)).or
    (exam.evidenceDays.value.or (org.defaultPolicy.bind (·.evidenceDays.value)))

/-- SQL: evidence retention days for a session row. -/
def evidenceDaysSql (snapshot : Option (PolicyDocument σ)) (exam : PolicyDocument σ)
    (org : RetentionSettings σ) : Int :=
  ((policyDaysSql snapshot exam org).or org.evidenceRetentionDays.value).getD
    DEFAULT_EVIDENCE_RETENTION_DAYS

/-- The authoritative check. -/
def evidenceDue (endedAt now : Int) (snapshot : Option (PolicyDocument σ)) (exam : PolicyDocument σ)
    (org : RetentionSettings σ) : Prop :=
  endedAt + evidenceDaysFor S snapshot exam org * DAY_MS ≤ now
  deriving Decidable

/-- The filter of the retention query. -/
def evidenceDueSql (endedAt now : Int) (snapshot : Option (PolicyDocument σ))
    (exam : PolicyDocument σ) (org : RetentionSettings σ) : Prop :=
  endedAt + evidenceDaysSql snapshot exam org * DAY_MS ≤ now
  deriving Decidable

/-- The rules that apply are valid and set a number. -/
def RulesSetDays (snapshot : Option (PolicyDocument σ)) (exam : PolicyDocument σ)
    (org : RetentionSettings σ) : Prop :=
  (effectiveDocument S snapshot exam org).valid S = true ∧
    (effectiveDocument S snapshot exam org).evidenceDays.value ≠ none

variable {S} {snapshot : Option (PolicyDocument σ)} {exam : PolicyDocument σ}
  {org : RetentionSettings σ}

theorem evidenceDaysSql_eq :
    evidenceDaysSql snapshot exam org = (policyDaysSql snapshot exam org).getD org.days := by
  rw [evidenceDaysSql]
  cases policyDaysSql snapshot exam org with
  | none | some n => rfl

theorem override_unset (f : DaysField) : DaysField.unset.override f = f := by
  cases f <;> rfl

theorem value_or_of_override {a b : DaysField} {n : Int} (h : (a.override b).value = some n) :
    b.value.or a.value = some n := by
  cases b with
  | unset => exact h
  | null => cases h
  | number m => exact h

theorem evidenceDays_mergePolicy (d : Option (PolicyDocument σ)) (exam : PolicyDocument σ) :
    (mergePolicy S d exam).evidenceDays =
      (d.elim DaysField.unset (·.evidenceDays)).override exam.evidenceDays := by
  cases d with
  | none => exact (override_unset exam.evidenceDays).symm
  | some p => rfl

theorem policyDaysSql_of_value {n : Int}
    (h : (effectiveDocument S snapshot exam org).evidenceDays.value = some n) :
    policyDaysSql snapshot exam org = some n := by
  cases snapshot with
  | some p =>
    change (mergePolicy S none p).evidenceDays.value = some n at h
    rw [evidenceDays_mergePolicy] at h
    have hvalue : p.evidenceDays.value = some n := (override_unset p.evidenceDays) ▸ h
    show p.evidenceDays.value.or _ = some n
    rw [hvalue]
    rfl
  | none =>
    change (mergePolicy S org.defaultPolicy exam).evidenceDays.value = some n at h
    rw [evidenceDays_mergePolicy] at h
    show exam.evidenceDays.value.or _ = some n
    have hvalue := value_or_of_override h
    cases hdefault : org.defaultPolicy with
    | none | some p =>
      rw [hdefault] at hvalue
      exact hvalue

theorem evidenceDaysFor_of_rules (h : RulesSetDays S snapshot exam org) :
    evidenceDaysFor S snapshot exam org = evidenceDaysSql snapshot exam org := by
  obtain ⟨hvalid, hvalue⟩ := h
  obtain ⟨n, hn⟩ := Option.ne_none_iff_exists'.1 hvalue
  rw [evidenceDaysSql_eq, policyDaysSql_of_value hn, evidenceDaysFor, if_pos hvalid, hn]

theorem evidenceDaysFor_of_not_rules (h : ¬ RulesSetDays S snapshot exam org) :
    evidenceDaysFor S snapshot exam org = org.days := by
  rw [evidenceDaysFor]
  split
  next hvalid =>
    have hvalue : (effectiveDocument S snapshot exam org).evidenceDays.value = none := by
      by_contra hne
      exact h ⟨hvalid, hne⟩
    rw [hvalue]
    rfl
  · rfl

/-- **When no due session is hidden.**  Whenever the evidence of a session is due the filter selects
it, exactly when the rules that apply to the session set the days, or no document does, or the first
number in the documents is no more than the organisation's days. -/
theorem due_selected_iff (S : OtherSettings σ) (snapshot : Option (PolicyDocument σ))
    (exam : PolicyDocument σ) (org : RetentionSettings σ) (endedAt : Int) :
    (∀ now, evidenceDue S endedAt now snapshot exam org →
        evidenceDueSql endedAt now snapshot exam org) ↔
      RulesSetDays S snapshot exam org ∨
        ∀ n, policyDaysSql snapshot exam org = some n → n ≤ org.days := by
  have hdays : (∀ now, evidenceDue S endedAt now snapshot exam org →
      evidenceDueSql endedAt now snapshot exam org) ↔
        evidenceDaysSql snapshot exam org ≤ evidenceDaysFor S snapshot exam org := by
    constructor
    · intro h
      have hnow := h _ (Int.le_refl _)
      rw [evidenceDueSql, DAY_MS] at hnow
      omega
    · intro hle now hdue
      rw [evidenceDue, DAY_MS] at hdue
      rw [evidenceDueSql, DAY_MS]
      omega
  rw [hdays]
  by_cases hrules : RulesSetDays S snapshot exam org
  · rw [evidenceDaysFor_of_rules hrules]
    exact ⟨fun _ => .inl hrules, fun _ => Int.le_refl _⟩
  · rw [evidenceDaysFor_of_not_rules hrules, evidenceDaysSql_eq]
    cases policyDaysSql snapshot exam org with
    | none => exact ⟨fun _ => .inr nofun, fun _ => Int.le_refl _⟩
    | some n =>
      constructor
      · rintro hle
        refine .inr ?_
        rintro m ⟨⟩
        exact hle
      · rintro (h | h)
        · exact absurd h hrules
        · exact h n rfl

/-- A session that began under rules without a number, before its exam was set to keep evidence for
a year: it is due after the organisation's thirty days, and not selected. -/
theorem snapshot_hidden :
    ¬ ∀ (snapshot : Option (PolicyDocument Unit)) (exam : PolicyDocument Unit)
        (org : RetentionSettings Unit) (endedAt now : Int),
      evidenceDue { none := (), merge := fun _ b => b, valid := fun _ => true } endedAt now snapshot
        exam org → evidenceDueSql endedAt now snapshot exam org := by
  intro h
  have hlate := h (some { evidenceDays := .null, others := () })
    { evidenceDays := .number 365, others := () } {} 0 (31 * DAY_MS) (by decide)
  revert hlate
  decide

end Days

end SmartProctoring
