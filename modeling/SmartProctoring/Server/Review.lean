import SmartProctoring.Lib.Run
import SmartProctoring.Server.CandidateState

/-!
# Reviewers' decisions

`decideEvent` of `services/review.ts`, one decision or part of a bulk decision, on one event whose
row is locked.  Every decision is kept in `event_reviews`; changing another reviewer's is an
override, which needs a reason and is never part of a bulk decision.

Whose decision it is, the code reads from `reviewed_by`.  That column names the last reviewer who
wrote the row, also when they confirmed a decision with another note: from then on that reviewer may
change it without a reason (`TakesOver`).
-/

set_option autoImplicit false

namespace SmartProctoring

inductive ReviewStatus
  | unreviewed | reviewed | dismissed
  deriving DecidableEq

inductive ReviewResolution
  | concern | noConcern | accommodation | technical | inconclusive | falseDetection
  deriving DecidableEq

namespace RESOLUTION_INFO

def label : ReviewResolution → String
  | .concern => "Integrity concern"
  | .noConcern => "Accurate, no concern"
  | .accommodation => "Covered by an accommodation"
  | .technical => "Technical problem"
  | .inconclusive => "Inconclusive"
  | .falseDetection => "False detection"

/-- The review status a resolution implies. -/
def status : ReviewResolution → ReviewStatus
  | .falseDetection => .dismissed
  | _ => .reviewed

/-- Event categories a resolution is offered for. -/
def categories : ReviewResolution → List EventCategory
  | .concern => [.integrity, .uncertain]
  | _ => [.integrity, .uncertain, .technical]

end RESOLUTION_INFO

/-- The columns of an event that a review reads or writes.  Notes are of any type `ν`. -/
structure ReviewedEvent (ν : Type) where
  category : EventCategory
  severity : Severity
  reviewStatus : ReviewStatus := .unreviewed
  resolution : Option ReviewResolution := none
  reviewedBy : Option StaffId := none
  reviewedAt : Option Int := none
  reviewNote : Option ν := none

/-- A row of `event_reviews`. -/
structure EventReview (ν : Type) where
  reviewerId : StaffId
  status : ReviewStatus
  resolution : Option ReviewResolution
  note : Option ν
  previousStatus : ReviewStatus
  previousResolution : Option ReviewResolution
  previousReviewerId : Option StaffId
  overrides : Bool
  bulk : Bool
  atMs : Int

/-- What is decided: a resolution, or a plain status from older clients. -/
inductive Verdict
  | resolution (r : ReviewResolution)
  | status (s : ReviewStatus)

namespace Verdict

/-- The status and the resolution that the verdict leaves. -/
def value : Verdict → ReviewStatus × Option ReviewResolution
  | resolution r => (RESOLUTION_INFO.status r, some r)
  | status s => (s, none)

def label : Verdict → String
  | resolution r => RESOLUTION_INFO.label r
  | status _ => ""

def appliesTo : Verdict → EventCategory → Bool
  | resolution r, category => (RESOLUTION_INFO.categories r).contains category
  | status _, _ => true

end Verdict

structure Decision (ν : Type) where
  verdict : Verdict
  /-- The note, trimmed; absent when nothing is left of it. -/
  note : Option ν := none

inductive DecisionRefusal
  | resolutionNotApplicable | reasonRequired | unchanged
  deriving DecidableEq

inductive DecideOutcome (ν : Type)
  /-- A single decision that does not apply, or lacks its reason. -/
  | thrown (e : HttpError)
  /-- In a bulk decision, reported for the event. -/
  | refused (reason : DecisionRefusal)
  | unchanged
  | decided (event : ReviewedEvent ν) (review : EventReview ν)

section Decide

variable {ν : Type} [DecidableEq ν]

def ReviewedEvent.value (e : ReviewedEvent ν) : ReviewStatus × Option ReviewResolution :=
  (e.reviewStatus, e.resolution)

/-- Decide one event. -/
def decideEvent (staff : StaffId) (cur : ReviewedEvent ν) (d : Decision ν) (bulk : Bool)
    (atMs : Int) : DecideOutcome ν :=
  if !d.verdict.appliesTo cur.category then
    if bulk then .refused .resolutionNotApplicable
    else
      .thrown (badRequest ("“" ++ d.verdict.label ++ "” does not apply to this kind of event")
        "resolution_not_applicable")
  else
    let (status, resolution) := d.verdict.value
    let same := decide (cur.reviewStatus = status ∧ cur.resolution = resolution)
    if same ∧ cur.reviewNote = d.note then
      if bulk then .refused .unchanged else .unchanged
    else
      let overrides := decide (cur.reviewStatus ≠ .unreviewed) &&
        cur.reviewedBy.any (fun r => decide (r ≠ staff)) && !same
      if overrides ∧ (bulk ∨ d.note = none) then
        if bulk then .refused .reasonRequired
        else
          .thrown (badRequest
            "Another reviewer decided this event. Give a reason for changing their decision."
            "reason_required")
      else
        let unreview := decide (status = .unreviewed)
        .decided
          { cur with
            reviewStatus := status
            resolution
            reviewedBy := if unreview then none else some staff
            reviewedAt := if unreview then none else some atMs
            reviewNote := if unreview then none else d.note }
          { reviewerId := staff
            status
            resolution
            note := d.note
            previousStatus := cur.reviewStatus
            previousResolution := cur.resolution
            previousReviewerId := cur.reviewedBy
            overrides
            bulk
            atMs }

/-- Events that may be decided in bulk outside an incident. -/
def bulkReviewEligible (category : EventCategory) (severity : Severity) : Bool :=
  decide (category = .technical) || decide (severity = .low) || decide (severity = .info)

/-- How an event is decided: alone, with others, or with the other events of an incident (whether it
is one of them). -/
inductive DecisionMode
  | single | bulk | incident (member : Bool)
  deriving DecidableEq

/-- Whether `decideEventsBulk` decides the event at all. -/
def DecisionMode.allows : DecisionMode → ReviewedEvent ν → Bool
  | single, _ => true
  | bulk, e => isFlagCategory e.category && bulkReviewEligible e.category e.severity
  | incident member, _ => member

/-- An event and its reviews.  `givenBy` is no column: it names the reviewer who first gave the
decision that is stored now. -/
structure Reviewing (ν : Type) where
  event : ReviewedEvent ν
  reviews : List (EventReview ν) := []
  givenBy : Option StaffId := none

structure ReviewInput (ν : Type) where
  staff : StaffId
  decision : Decision ν
  mode : DecisionMode := .single
  atMs : Int

def reviewStep (i : ReviewInput ν) (s : Reviewing ν) : Reviewing ν :=
  if !i.mode.allows s.event then s
  else
    match decideEvent i.staff s.event i.decision (decide (i.mode ≠ .single)) i.atMs with
    | .decided event review =>
      { event
        reviews := s.reviews ++ [review]
        givenBy :=
          if event.reviewStatus = .unreviewed then none
          else if event.value = s.event.value then s.givenBy
          else some i.staff }
    | _ => s

/-- Decisions on an event that begins undecided. -/
def reviewing (ν : Type) [DecidableEq ν] : Machine (Reviewing ν) (ReviewInput ν) where
  init s := ∃ category severity, s = { event := { category, severity } }
  step := reviewStep
  enabled _ _ := True

end Decide

/-! ## Who may change a decision -/

section Governed

variable {ν : Type} [DecidableEq ν] {s : Reviewing ν} {i : ReviewInput ν}

/-- The decision has a giver and a last reviewer; an undecided event has neither. -/
structure ReviewOk (s : Reviewing ν) : Prop where
  undecided : s.event.reviewStatus = .unreviewed → s.event.resolution = none ∧ s.givenBy = none
  decided : s.event.reviewStatus ≠ .unreviewed → s.event.reviewedBy ≠ none

/-- When a decision changes from one that somebody else gave, the step is recorded as an override,
with a reason, and was no bulk decision. -/
def Governed (s : Reviewing ν) (i : ReviewInput ν) : Prop :=
  ∀ giver, s.givenBy = some giver → (reviewStep i s).event.value ≠ s.event.value → i.staff ≠ giver →
    ∃ review, (reviewStep i s).reviews = s.reviews ++ [review] ∧ review.reviewerId = i.staff ∧
      review.overrides = true ∧ review.note ≠ none ∧ review.bulk = false

/-- A reviewer changes a decision that somebody else gave and that they were the last to confirm. -/
def TakesOver (s : Reviewing ν) (i : ReviewInput ν) : Prop :=
  (∃ giver, s.givenBy = some giver ∧ i.staff ≠ giver) ∧ s.event.reviewedBy = some i.staff ∧
    i.mode.allows s.event = true ∧ i.decision.verdict.appliesTo s.event.category = true ∧
    i.decision.verdict.value ≠ s.event.value

instance (s : Reviewing ν) (i : ReviewInput ν) : Decidable (TakesOver s i) := by
  have hgiver : (s.givenBy.any fun giver => decide (i.staff ≠ giver)) = true ↔
      ∃ giver, s.givenBy = some giver ∧ i.staff ≠ giver := by
    rw [Option.any_eq_true]
    simp
  have : Decidable (∃ giver, s.givenBy = some giver ∧ i.staff ≠ giver) := decidable_of_iff _ hgiver
  exact inferInstanceAs (Decidable (_ ∧ _ ∧ _ ∧ _ ∧ _))

theorem reviewStep_cases (i : ReviewInput ν) (s : Reviewing ν) :
    reviewStep i s = s ∨
      i.mode.allows s.event = true ∧ i.decision.verdict.appliesTo s.event.category = true ∧
        ∃ event review, decideEvent i.staff s.event i.decision (decide (i.mode ≠ .single)) i.atMs =
            .decided event review ∧
          (reviewStep i s).event = event ∧ (reviewStep i s).reviews = s.reviews ++ [review] ∧
          (reviewStep i s).givenBy = (if event.reviewStatus = .unreviewed then none
            else if event.value = s.event.value then s.givenBy else some i.staff) := by
  rw [reviewStep]
  split
  next => exact .inl rfl
  next hallows =>
    split
    next event review hdecided =>
      refine .inr ⟨by simpa using hallows, ?_, event, review, hdecided, rfl, rfl, rfl⟩
      by_contra happlies
      rw [decideEvent, if_pos (by simpa using happlies)] at hdecided
      split at hdecided
      · cases hdecided
      · cases hdecided
    next => exact .inl rfl

theorem decideEvent_decided {staff : StaffId} {cur event : ReviewedEvent ν} {d : Decision ν}
    {bulk : Bool} {atMs : Int} {review : EventReview ν}
    (h : decideEvent staff cur d bulk atMs = .decided event review) :
    event.value = d.verdict.value ∧
      event.reviewedBy = (if d.verdict.value.1 = .unreviewed then none else some staff) ∧
      review.reviewerId = staff ∧ review.note = d.note ∧ review.bulk = bulk ∧
      review.overrides = (decide (cur.reviewStatus ≠ .unreviewed) &&
        cur.reviewedBy.any (fun r => decide (r ≠ staff)) &&
        !decide (cur.reviewStatus = d.verdict.value.1 ∧ cur.resolution = d.verdict.value.2)) ∧
      (review.overrides = true → bulk = false ∧ d.note ≠ none) := by
  rw [decideEvent] at h
  split at h
  · split at h
    · cases h
    · cases h
  · dsimp only at h
    split at h
    · split at h
      · cases h
      · cases h
    · split at h
      · split at h
        · cases h
        · cases h
      next hrecorded =>
        obtain ⟨rfl, rfl⟩ := DecideOutcome.decided.inj h
        refine ⟨rfl, ?_, rfl, rfl, rfl, rfl, fun hoverrides => ?_⟩
        · by_cases hu : d.verdict.value.1 = .unreviewed
          · rw [if_pos (decide_eq_true hu), if_pos hu]
          · rw [if_neg (by simpa using hu), if_neg hu]
        · rw [not_and_or, not_or] at hrecorded
          obtain hno | ⟨hbulk, hnote⟩ := hrecorded
          · exact absurd hoverrides hno
          · exact ⟨by simpa using hbulk, hnote⟩

theorem decideEvent_own {staff : StaffId} {cur : ReviewedEvent ν} {d : Decision ν} (bulk : Bool)
    (atMs : Int) (hby : cur.reviewedBy = some staff)
    (happlies : d.verdict.appliesTo cur.category = true) (hvalue : d.verdict.value ≠ cur.value) :
    ∃ event review, decideEvent staff cur d bulk atMs = .decided event review := by
  have hdiffers : ¬ (cur.reviewStatus = d.verdict.value.1 ∧ cur.resolution = d.verdict.value.2) := by
    rintro ⟨hst, hres⟩
    exact hvalue (Prod.ext hst.symm hres.symm)
  have hown : (cur.reviewedBy.any fun r => decide (r ≠ staff)) = false := by
    rw [hby]
    simp
  rw [decideEvent, happlies, if_neg (by simp)]
  dsimp only
  rw [decide_eq_false hdiffers, if_neg (by simp), hown, if_neg (by simp)]
  exact ⟨_, _, rfl⟩

theorem value_unreviewed (v : Verdict) (h : v.value.1 = .unreviewed) :
    v.value = (.unreviewed, none) := by
  cases v with
  | resolution r => cases r <;> cases h
  | status st =>
    change st = .unreviewed at h
    rw [h]
    rfl

theorem ReviewOk.step (h : ReviewOk s) (i : ReviewInput ν) : ReviewOk (reviewStep i s) := by
  obtain heq | ⟨-, -, event, review, hdecided, hevent, -, hgiven⟩ := reviewStep_cases i s
  · rw [heq]
    exact h
  · obtain ⟨hvalue, hby, -⟩ := decideEvent_decided hdecided
    have hstatus : event.reviewStatus = i.decision.verdict.value.1 := congrArg Prod.fst hvalue
    refine ⟨fun hu => ?_, fun hd => ?_⟩
    · rw [hevent] at hu
      rw [hevent, hgiven, if_pos hu]
      rw [hstatus] at hu
      have hnone := hvalue.trans (value_unreviewed _ hu)
      exact ⟨congrArg Prod.snd hnone, rfl⟩
    · rw [hevent] at hd ⊢
      rw [hby, if_neg (hstatus ▸ hd)]
      exact nofun

theorem reviewOk_reachable (h : (reviewing ν).Reachable s) : ReviewOk s := by
  refine h.invariant (I := ReviewOk) ?_ fun s i _ _ ih => ih.step i
  rintro _ ⟨category, severity, rfl⟩
  exact ⟨fun _ => ⟨rfl, rfl⟩, fun hd => absurd rfl hd⟩

theorem governed_iff (h : ReviewOk s) (i : ReviewInput ν) : Governed s i ↔ ¬ TakesOver s i := by
  obtain heq | ⟨hallows, happlies, event, review, hdecided, hevent, hreviews, -⟩ :=
    reviewStep_cases i s
  · constructor
    · rintro - ⟨⟨giver, hgiver, hne⟩, hby, hallows, happlies, hvalue⟩
      obtain ⟨event, review, hdecided⟩ := decideEvent_own (decide (i.mode ≠ .single)) i.atMs hby
        happlies hvalue
      have hstep : (reviewStep i s).event = event := by
        rw [reviewStep, hallows, hdecided]
        rfl
      rw [heq] at hstep
      exact hvalue (hstep ▸ (decideEvent_decided hdecided).1).symm
    · rintro - giver - hchange
      rw [heq] at hchange
      exact absurd rfl hchange
  · obtain ⟨hvalue, -, hreviewer, hnote, hbulk, hoverrides, hrecorded⟩ := decideEvent_decided hdecided
    constructor
    · rintro hgoverned ⟨⟨giver, hgiver, hne⟩, hby, -, -, hchange⟩
      obtain ⟨review', hreviews', -, hover, -⟩ := hgoverned giver hgiver
        (by rw [hevent, hvalue]; exact hchange) hne
      obtain rfl : review = review' := by
        have hsame := hreviews.symm.trans hreviews'
        exact List.singleton_inj.1 (List.append_cancel_left hsame)
      rw [hoverrides, hby] at hover
      simp at hover
    · intro htakes giver hgiver hchange hne
      refine ⟨review, hreviews, hreviewer, ?_⟩
      rw [hevent, hvalue] at hchange
      have hstatus : s.event.reviewStatus ≠ .unreviewed := by
        intro hu
        rw [(h.undecided hu).2] at hgiver
        cases hgiver
      obtain ⟨last, hlast⟩ := Option.ne_none_iff_exists'.1 (h.decided hstatus)
      have hother : last ≠ i.staff := by
        rintro rfl
        exact htakes ⟨⟨giver, hgiver, hne⟩, hlast, hallows, happlies, hchange⟩
      have hdiffers : ¬ (s.event.reviewStatus = i.decision.verdict.value.1 ∧
          s.event.resolution = i.decision.verdict.value.2) := by
        rintro ⟨hst, hres⟩
        exact hchange (Prod.ext hst.symm hres.symm)
      have hover : review.overrides = true := by
        rw [hoverrides, hlast, decide_eq_true hstatus, decide_eq_false hdiffers]
        simpa using hother
      obtain ⟨hsingle, hreason⟩ := hrecorded hover
      exact ⟨hover, hnote ▸ hreason, hbulk.trans hsingle⟩

/-- **When nobody's decision is changed unrecorded.**  Over any decisions on an event, every change
of somebody else's decision is recorded as an override with a reason exactly when no reviewer
changes a decision of somebody else's that they were the last to confirm. -/
theorem decisions_governed {s₀ : Reviewing ν} (h0 : (reviewing ν).init s₀)
    (is : List (ReviewInput ν)) :
    (reviewing ν).EachStep Governed s₀ is ↔
      (reviewing ν).EachStep (fun s i => ¬ TakesOver s i) s₀ is := by
  have hadmits : ∀ (is : List (ReviewInput ν)) (s : Reviewing ν), (reviewing ν).Admits s is := by
    intro is
    induction is with
    | nil => exact fun _ => trivial
    | cons i is ih => exact fun s => ⟨trivial, ih _⟩
  exact Machine.EachStep.congr (fun s i hs _ => governed_iff (reviewOk_reachable hs) i) (.init h0)
    (hadmits is s₀)

/-- An integrity event, undecided. -/
def undecidedEvent : Reviewing Nat := { event := { category := .integrity, severity := .high } }

/-- Reviewer 1 dismisses it, and reviewer 2 decides otherwise, with a reason. -/
def overruled : List (ReviewInput Nat) :=
  [⟨⟨1⟩, { verdict := .resolution .falseDetection }, .single, 1000⟩,
   ⟨⟨2⟩, { verdict := .resolution .concern, note := some 7 }, .single, 2000⟩]

theorem decisions_governed_overruled :
    ((reviewing Nat).run undecidedEvent overruled).reviews.map (·.overrides) = [false, true] ∧
      (reviewing Nat).EachStep Governed undecidedEvent overruled :=
  ⟨by decide, (decisions_governed ⟨.integrity, .high, rfl⟩ overruled).2 (by decide)⟩

/-- Reviewer 2 confirms the dismissal with a note, and then decides otherwise without one. -/
theorem confirmed_then_changed :
    ¬ ∀ is : List (ReviewInput Nat), (reviewing Nat).EachStep Governed undecidedEvent is := by
  intro h
  obtain ⟨-, -, hlast, -⟩ := h
    [⟨⟨1⟩, { verdict := .resolution .falseDetection }, .single, 1000⟩,
     ⟨⟨2⟩, { verdict := .resolution .falseDetection, note := some 7 }, .single, 2000⟩,
     ⟨⟨2⟩, { verdict := .resolution .concern }, .single, 3000⟩]
  obtain ⟨review, hreviews, -, hover, -⟩ := hlast ⟨1⟩ (by decide) (by decide) (by decide)
  have hreview := List.singleton_inj.1 (List.append_cancel_left hreviews)
  rw [← hreview] at hover
  revert hover
  decide

end Governed

end SmartProctoring
