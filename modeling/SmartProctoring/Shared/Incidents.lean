import Mathlib.Data.List.Sort
import SmartProctoring.Lib.Clusters
import SmartProctoring.Server.Review

/-!
# Incidents

`packages/shared/src/incidents.ts`: a session's flags grouped by time, so that a reviewer judges
what happened in one moment as a whole.  The staff app, the report and the server, which validates
bulk decisions, group the flags for themselves.

`groupIncidents` sorts the flags by their start and sweeps over them once; a flag extends its
incident by at most `chainMs` from its own start.  The incidents are the clusters of the clipped
spans (`incidents_are_components`).

Flags that start at the same instant are put in the order of `localeCompare` on their ids.  That is
a parameter: a consistent comparison, but not one that tells all texts apart, for it treats
canonically equivalent texts as equal.  Such ids leave the flags in the order in which they came
(`incidents_depend_on_order`).
-/

set_option autoImplicit false

namespace SmartProctoring

open List

/-- `EVENT_CATALOG[type].title`. -/
def EventType.title : EventType → String
  | .identityMismatch => "Possible different person"
  | .multiplePeople => "More than one person in view"
  | .candidateAbsent => "Candidate not visible"
  | .lookingAway => "Sustained looking away"
  | .repeatedLookingAway => "Repeated looking away"
  | .offscreenAttentionPattern => "Repeated attention to one off-screen direction"
  | .unusualMovement => "Unusual movement"
  | .phoneDetected => "Phone visible"
  | .unauthorizedObject => "Other device or material visible"
  | .cameraCovered => "Camera view blocked"
  | .cameraFeedSuspect => "Camera feed may be substituted"
  | .tabHidden => "Left the exam tab"
  | .windowUnfocused => "Exam window lost focus"
  | .fullscreenExited => "Left fullscreen"
  | .clipboardAttempt => "Copy/paste attempt"
  | .multipleInstances => "Exam opened in another browser"
  | .screenShareStopped => "Screen sharing stopped"
  | .identityUnverifiable => "Identity could not be verified"
  | .faceObstructed => "Face obstructed or unclear"
  | .lightingUnusable => "Lighting too poor to assess"
  | .cameraDisconnected => "Camera disconnected"
  | .cameraPermissionLost => "Camera permission lost"
  | .cameraFrozen => "Camera image frozen"
  | .reportingInterrupted => "Live reporting interrupted"
  | .monitoringDegraded => "Monitoring degraded"
  | .recordingInterrupted => "Recording interrupted"
  | .sessionStarted => "Exam started"
  | .checkinCompleted => "Readiness check passed"
  | .referenceCreated => "Identity reference established"
  | .idPhotoCompared => "Compared with approved ID photo"
  | .identityVerified => "Identity confirmed"
  | .pauseRequested => "Pause requested"
  | .pauseDenied => "Pause denied"
  | .sessionPaused => "Exam paused"
  | .sessionResumed => "Exam resumed"
  | .unobservedPeriod => "Unobserved period"
  | .cameraChanged => "Camera changed"
  | .environmentChanged => "Surroundings changed"
  | .additionalDisplayDetected => "Additional display connected"
  | .sessionHeld => "Exam on hold"
  | .holdReleased => "Hold released"
  | .sessionSubmitted => "Exam submitted"
  | .sessionExpired => "Time expired"
  | .sessionTerminated => "Exam terminated"
  | .timeExtended => "Time extended"
  | .scoreRegraded => "Score regraded"
  | .accommodationsApplied => "Accommodations applied"
  | .identityVerifiedByStaff => "Identity verified by staff"
  | .reviewCompleted => "Review completed"
  | .reviewReopened => "Review reopened"
  | .sessionRescheduled => "Exam rescheduled"
  | .sessionReopened => "Exam reopened for recovery"

namespace Incidents

open Clusters

/-- Flags further apart than this are separate incidents. -/
def INCIDENT_GAP_MS : Int := 30000

/-- How far past its start one flag can extend an incident. -/
def INCIDENT_CHAIN_MS : Int := 60000

structure IncidentEventInput where
  id : String
  type : EventType
  category : EventCategory
  severity : Severity
  startedAt : Int
  endedAt : Option Int
  review : ReviewStatus
  deriving DecidableEq

structure GroupOptions where
  now : Int
  gapMs : Option Int := none
  chainMs : Option Int := none

/-- Distinct types in order of first appearance, with counts. -/
structure TypeCount where
  type : EventType
  count : Nat
  deriving DecidableEq

structure Incident where
  /-- The id of its earliest event. -/
  id : String
  startedAt : Int
  /-- End of the latest event; `now` for an event still open. -/
  endedAt : Int
  isOpen : Bool
  /-- The most serious category among its events. -/
  category : EventCategory
  severity : Severity
  eventIds : List String
  types : List TypeCount
  title : String
  undecided : Nat
  deriving DecidableEq

def CATEGORY_RANK : EventCategory → Nat
  | .integrity => 3 | .uncertain => 2 | .technical => 1
  | _ => 0

def GroupOptions.gap (opts : GroupOptions) : Int := opts.gapMs.getD INCIDENT_GAP_MS

def GroupOptions.chain (opts : GroupOptions) : Int := opts.chainMs.getD INCIDENT_CHAIN_MS

/-- Where a flag's span ends, `now` if it is still open; never before it starts. -/
def spanEnd (opts : GroupOptions) (e : IncidentEventInput) : Int :=
  max e.startedAt (e.endedAt.getD opts.now)

/-- How far a flag extends its incident. -/
def clippedEnd (opts : GroupOptions) (e : IncidentEventInput) : Int := min (spanEnd opts e)
    (e.startedAt + opts.chain)

def isFlag (e : IncidentEventInput) : Bool := isFlagCategory e.category

/-- One more event of a type. -/
def addType (types : List TypeCount) (type : EventType) : List TypeCount :=
  if types.any fun t => t.type = type then
    types.map fun t => if t.type = type then { t with count := t.count + 1 } else t
  else types ++ [⟨type, 1⟩]

def titleOf (types : List TypeCount) : String :=
  " · ".intercalate (types.map fun t => t.type.title ++ if 1 < t.count then " ×" ++ toString t.count
    else "")

/-- The incident of a group of flags, the earliest first. -/
def toIncident (opts : GroupOptions) : List IncidentEventInput → Option Incident
  | [] => none
  | e :: more =>
    let types := (e :: more).foldl (fun types f => addType types f.type) []
    let top := more.foldl (fun a b => if CATEGORY_RANK a.category < CATEGORY_RANK b.category then b else a) e
    let sev := more.foldl (fun a b => if SEVERITY_RANK a.severity < SEVERITY_RANK b.severity then b else a) e
    some
      { id := e.id
        startedAt := e.startedAt
        endedAt := (more.map (spanEnd opts)).foldl max (spanEnd opts e)
        isOpen := (e :: more).any fun f => f.endedAt.isNone
        category := top.category
        severity := sev.severity
        eventIds := (e :: more).map (·.id)
        types
        title := titleOf types
        undecided := (e :: more).countP fun f => f.review = .unreviewed }

section

variable (localeCompare : String → String → Ordering)

/-- The order of the flags: by start, then by id. -/
def InOrder (a b : IncidentEventInput) : Prop :=
  a.startedAt < b.startedAt ∨ a.startedAt = b.startedAt ∧ (localeCompare a.id b.id).isLE = true

instance : DecidableRel (InOrder localeCompare) := fun a b =>
  inferInstanceAs (Decidable (a.startedAt < b.startedAt ∨ a.startedAt = b.startedAt ∧
    (localeCompare a.id b.id).isLE = true))

/-- The flags in their order; equal ones stay as they came. -/
def sortedFlags (events : List IncidentEventInput) : List IncidentEventInput :=
  (events.filter isFlag).insertionSort (InOrder localeCompare)

def groupIncidents (events : List IncidentEventInput) (opts : GroupOptions) : List Incident :=
  (clusters (·.startedAt) (clippedEnd opts) opts.gap (sortedFlags localeCompare events)).filterMap
    (toIncident opts)

end

/-! ## Incidents and clusters -/

/-- One incident holds both. -/
def SameIncident (incidents : List Incident) (e f : IncidentEventInput) : Prop :=
  ∃ i ∈ incidents, e.id ∈ i.eventIds ∧ f.id ∈ i.eventIds

/-- A chain of flags leads from one to the other, whose clipped spans overlap or lie within the
gap. -/
def LinkedFlags (events : List IncidentEventInput) (opts : GroupOptions) :
    IncidentEventInput → IncidentEventInput → Prop :=
  Linked (·.startedAt) (clippedEnd opts) opts.gap (events.filter isFlag)

/-- Flags that start together have ids that `localeCompare` tells apart. -/
def IdsSeparated (localeCompare : String → String → Ordering)
    (events : List IncidentEventInput) : Prop :=
  ∀ e ∈ events, ∀ f ∈ events, isFlag e = true → isFlag f = true → e.startedAt = f.startedAt →
    localeCompare e.id f.id = .eq → e.id = f.id

theorem startedAt_le_clippedEnd {opts : GroupOptions} (hchain : 0 ≤ opts.chain)
    (e : IncidentEventInput) : e.startedAt ≤ clippedEnd opts e :=
  le_min (le_max_left ..) (le_add_of_nonneg_right hchain)

theorem eventIds_toIncident {opts : GroupOptions} {g : List IncidentEventInput} {i : Incident}
    (h : toIncident opts g = some i) : i.eventIds = g.map (·.id) := by
  cases g with
  | nil => cases h
  | cons =>
    obtain rfl := Option.some_inj.1 h
    rfl

theorem toIncident_of_ne_nil (opts : GroupOptions) {g : List IncidentEventInput} (h : g ≠ []) :
    ∃ i, toIncident opts g = some i := by
  cases g with
  | nil => exact absurd rfl h
  | cons => exact ⟨_, rfl⟩

section

variable {localeCompare : String → String → Ordering} [Std.TransCmp localeCompare]

instance : Std.Total (InOrder localeCompare) where
  total a b := by
    rcases lt_trichotomy a.startedAt b.startedAt with h | h | h
    · exact .inl (.inl h)
    · rcases hc : localeCompare a.id b.id with _ | _ | _
      · exact .inl (.inr ⟨h, by rw [hc]; rfl⟩)
      · exact .inl (.inr ⟨h, by rw [hc]; rfl⟩)
      · exact .inr (.inr ⟨h.symm, by rw [Std.OrientedCmp.lt_of_gt hc]; rfl⟩)
    · exact .inr (.inl h)

instance : IsTrans IncidentEventInput (InOrder localeCompare) where
  trans a b c hab hbc := by
    rcases hab with hab | ⟨hab, hab'⟩ <;> rcases hbc with hbc | ⟨hbc, hbc'⟩
    · exact .inl (hab.trans hbc)
    · exact .inl (hbc ▸ hab)
    · exact .inl (hab ▸ hbc)
    · exact .inr ⟨hab.trans hbc, Std.TransCmp.isLE_trans hab' hbc'⟩

omit [Std.TransCmp localeCompare] in
theorem sortedFlags_perm (events : List IncidentEventInput) :
    (sortedFlags localeCompare events).Perm (events.filter isFlag) := perm_insertionSort ..

variable (localeCompare) in
theorem sortedFlags_sorted (events : List IncidentEventInput) :
    (sortedFlags localeCompare events).Pairwise fun e f => e.startedAt ≤ f.startedAt :=
  (pairwise_insertionSort (InOrder localeCompare) (events.filter isFlag)).imp fun h => by
    rcases h with h | ⟨h, -⟩
    · exact h.le
    · exact h.le

variable (localeCompare) in
omit [Std.TransCmp localeCompare] in
theorem mem_sortedFlags {events : List IncidentEventInput} {e : IncidentEventInput} :
    e ∈ sortedFlags localeCompare events ↔ e ∈ events.filter isFlag :=
    (sortedFlags_perm events).mem_iff

variable {events : List IncidentEventInput} {opts : GroupOptions}

omit [Std.TransCmp localeCompare] in
theorem mem_groupIncidents {i : Incident} :
    i ∈ groupIncidents localeCompare events opts ↔
      ∃ g ∈ clusters (·.startedAt) (clippedEnd opts) opts.gap (sortedFlags localeCompare events),
        toIncident opts g = some i := by
  rw [groupIncidents, mem_filterMap]

variable (hgap : 0 ≤ opts.gap) (hchain : 0 ≤ opts.chain)
include hgap hchain

theorem eventIds_groupIncidents :
    (groupIncidents localeCompare events opts).flatMap (·.eventIds) =
    (sortedFlags localeCompare events).map (·.id) := by
  have hflat := flatten_clusters hgap (startedAt_le_clippedEnd hchain)
      (sortedFlags_sorted localeCompare events)
  have hne := fun g => cluster_ne_nil hgap (startedAt_le_clippedEnd hchain)
    (sortedFlags_sorted localeCompare events) (g := g)
  rw [groupIncidents]
  generalize clusters (·.startedAt) (clippedEnd opts) opts.gap (sortedFlags localeCompare events) =
      groups at hflat hne
  rw [← hflat]
  clear hflat
  induction groups with
  | nil => rfl
  | cons g groups ih =>
    obtain ⟨i, hi⟩ := toIncident_of_ne_nil opts (hne g (mem_cons_self ..))
    rw [filterMap_cons, hi, flatMap_cons, ih fun g hg => hne g (mem_cons_of_mem _ hg),
      eventIds_toIncident hi, flatten_cons, map_append]

theorem mem_cluster {g : List IncidentEventInput}
    (hg : g ∈ clusters (·.startedAt) (clippedEnd opts) opts.gap (sortedFlags localeCompare events)) :
    ∀ f ∈ g, f ∈ events := by
  intro f hf
  have hmem : f ∈ sortedFlags localeCompare events := by
    rw [← flatten_clusters hgap (startedAt_le_clippedEnd hchain) (sortedFlags_sorted localeCompare events)]
    exact mem_flatten.2 ⟨g, hg, hf⟩
  exact mem_of_mem_filter ((mem_sortedFlags localeCompare).1 hmem)

variable (hids : (events.map (·.id)).Nodup)
include hids

omit hgap hchain [Std.TransCmp localeCompare] in
theorem mem_of_id_mem {g : List IncidentEventInput} (hg : ∀ f ∈ g, f ∈ events)
    {e : IncidentEventInput} (he : e ∈ events) (hid : e.id ∈ g.map (·.id)) : e ∈ g := by
  obtain ⟨f, hf, hfe⟩ := mem_map.1 hid
  rwa [← inj_on_of_nodup_map hids (hg f hf) he hfe]

theorem sameIncident_iff {e f : IncidentEventInput} (he : e ∈ events.filter isFlag)
    (hf : f ∈ events.filter isFlag) :
    SameIncident (groupIncidents localeCompare events opts) e f ↔ LinkedFlags events opts e f := by
  have hspan := startedAt_le_clippedEnd hchain
  have hsorted := sortedFlags_sorted localeCompare events
  rw [LinkedFlags, ← linked_congr fun e => mem_sortedFlags localeCompare,
    ← same_cluster_iff hgap hspan hsorted ((mem_sortedFlags localeCompare).2 he)]
  constructor
  · rintro ⟨i, hi, hei, hfi⟩
    obtain ⟨g, hg, hgi⟩ := mem_groupIncidents.1 hi
    have hmem := mem_cluster hgap hchain hg
    rw [eventIds_toIncident hgi] at hei hfi
    exact ⟨g, hg, mem_of_id_mem hids hmem (mem_of_mem_filter he) hei,
      mem_of_id_mem hids hmem (mem_of_mem_filter hf) hfi⟩
  · rintro ⟨g, hg, heg, hfg⟩
    obtain ⟨i, hi⟩ := toIncident_of_ne_nil opts (cluster_ne_nil hgap hspan hsorted hg)
    refine ⟨i, mem_groupIncidents.2 ⟨g, hg, hi⟩, ?_, ?_⟩ <;> rw [eventIds_toIncident hi]
    · exact mem_map_of_mem heg
    · exact mem_map_of_mem hfg

theorem incidents_apart {i j : Incident} (hi : i ∈ groupIncidents localeCompare events opts)
    (hj : j ∈ groupIncidents localeCompare events opts) (hij : i ≠ j) {e f : IncidentEventInput}
    (he : e ∈ events) (hf : f ∈ events) (hei : e.id ∈ i.eventIds) (hfj : f.id ∈ j.eventIds) :
    clippedEnd opts e + opts.gap < f.startedAt ∨ clippedEnd opts f + opts.gap < e.startedAt := by
  obtain ⟨g, hg, hgi⟩ := mem_groupIncidents.1 hi
  obtain ⟨h, hh, hhj⟩ := mem_groupIncidents.1 hj
  rw [eventIds_toIncident hgi] at hei
  rw [eventIds_toIncident hhj] at hfj
  have heg := mem_of_id_mem hids (mem_cluster hgap hchain hg) he hei
  have hfh := mem_of_id_mem hids (mem_cluster hgap hchain hh) hf hfj
  have hgh : g ≠ h := by
    rintro rfl
    exact hij (Option.some_inj.1 (hgi.symm.trans hhj))
  exact (before_or_before hgap (startedAt_le_clippedEnd hchain)
    (sortedFlags_sorted localeCompare events) hg hh hgh).imp
    (fun hb => hb e heg f hfh) fun hb => hb f hfh e heg

omit hgap hchain in
theorem sortedFlags_congr (hsep : IdsSeparated localeCompare events)
    {events' : List IncidentEventInput}
    (hperm : events.Perm events') :
    sortedFlags localeCompare events' = sortedFlags localeCompare events := by
  have hflags : (sortedFlags localeCompare events').Perm (sortedFlags localeCompare events) :=
    ((sortedFlags_perm events').trans (hperm.symm.filter isFlag)).trans (sortedFlags_perm events).symm
  refine hflags.eq_of_pairwise (fun e f he hf hef hfe => ?_)
    (pairwise_insertionSort (InOrder localeCompare) _)
    (pairwise_insertionSort (InOrder localeCompare) _)
  have he := (mem_sortedFlags localeCompare).1 (hflags.mem_iff.1 he)
  have hf := (mem_sortedFlags localeCompare).1 hf
  rw [mem_filter] at he hf
  -- each is at or before the other
  rcases hef with hlt | ⟨heq, hle⟩
  · rcases hfe with hlt' | ⟨heq', -⟩ <;> omega
  · rcases hfe with hlt' | ⟨-, hle'⟩
    · omega
    · have hsame : localeCompare e.id f.id = .eq := by
        rcases hc : localeCompare e.id f.id with _ | _ | _
        · rw [Std.OrientedCmp.gt_of_lt hc] at hle'
          exact absurd hle' (by decide)
        · rfl
        · rw [hc] at hle
          exact absurd hle (by decide)
      exact inj_on_of_nodup_map hids he.1 hf.1 (hsep e he.1 f hf.1 he.2 hf.2 heq hsame)

/-- **Incidents are the connected components of the flags.** -/
theorem incidents_are_components :
    ((groupIncidents localeCompare events opts).flatMap (·.eventIds)).Perm
    ((events.filter isFlag).map (·.id)) ∧ (∀ e ∈ events.filter isFlag, ∀ f ∈ events.filter isFlag,
      (SameIncident (groupIncidents localeCompare events opts) e f ↔ LinkedFlags events opts e f)) ∧
    (∀ events' : List IncidentEventInput, events.Perm events' →
      (IdsSeparated localeCompare events →
        groupIncidents localeCompare events' opts = groupIncidents localeCompare events opts) ∧
      ∀ e ∈ events.filter isFlag, ∀ f ∈ events.filter isFlag,
        (SameIncident (groupIncidents localeCompare events' opts) e f ↔
          SameIncident (groupIncidents localeCompare events opts) e f)) ∧
    (∀ i ∈ groupIncidents localeCompare events opts, ∀ j ∈ groupIncidents localeCompare events opts, i ≠ j →
      ∀ e ∈ events, ∀ f ∈ events, e.id ∈ i.eventIds → f.id ∈ j.eventIds →
        clippedEnd opts e + opts.gap < f.startedAt ∨ clippedEnd opts f + opts.gap < e.startedAt) ∧
    ∀ flag : IncidentEventInput, isFlag flag = true → flag.id ∉ events.map (·.id) →
      ∀ e ∈ events.filter isFlag, ∀ f ∈ events.filter isFlag,
        SameIncident (groupIncidents localeCompare events opts) e f →
        SameIncident (groupIncidents localeCompare (flag :: events) opts) e f := by
  refine ⟨?_, fun e he f hf => sameIncident_iff hgap hchain hids he hf,
    fun events' hperm => ⟨fun hsep => ?_, fun e he f hf => ?_⟩,
    fun i hi j hj hij e he f hf => incidents_apart hgap hchain hids hi hj hij he hf,
      fun flag hflag hnew e he f hf hsame => ?_⟩
  · rw [eventIds_groupIncidents hgap hchain]
    exact (sortedFlags_perm events).map _
  · rw [groupIncidents, groupIncidents, sortedFlags_congr hids hsep hperm]
  · have hmem : ∀ x, x ∈ events.filter isFlag ↔ x ∈ events'.filter isFlag :=
      fun x => (hperm.filter isFlag).mem_iff
    have hids' : (events'.map (·.id)).Nodup := (hperm.map _).nodup_iff.1 hids
    rw [sameIncident_iff hgap hchain hids he hf,
      sameIncident_iff hgap hchain hids' ((hmem e).1 he) ((hmem f).1 hf), LinkedFlags, LinkedFlags,
        linked_congr hmem]
  · have hids' : ((flag :: events).map (·.id)).Nodup := nodup_cons.2 ⟨hnew, hids⟩
    have hsub : ∀ x ∈ events.filter isFlag, x ∈ (flag :: events).filter isFlag := fun x hx => by
      rw [mem_filter] at hx ⊢
      exact ⟨mem_cons_of_mem _ hx.1, hx.2⟩
    rw [sameIncident_iff hgap hchain hids he hf] at hsame
    exact (sameIncident_iff hgap hchain hids' (hsub e he) (hsub f hf)).2 (Linked.mono hsub hsame)

end

/-- Canonical equivalence, as far as the letter é is concerned. -/
def decompose (s : String) : List Char :=
  s.toList.flatMap fun c => if c = '\u00e9' then ['e', '\u0301'] else [c]

/-- A comparison that treats canonically equivalent texts as equal, as `localeCompare` has to. -/
def canonicalCompare (a b : String) : Ordering := compare (decompose a) (decompose b)

instance : Std.TransCmp canonicalCompare where
  eq_swap := (inferInstance : Std.OrientedCmp (compare : List Char → List Char → Ordering)).eq_swap
  isLE_trans := (inferInstance : Std.TransCmp (compare : List Char → List Char →
    Ordering)).isLE_trans

/-- A flag of one second. -/
def phoneAt (id : String) (startedAt : Int) : IncidentEventInput :=
  { id, type := .phoneDetected, category := .integrity, severity := .high, startedAt,
    endedAt := some (startedAt + 1000),
    review := .unreviewed }

/-- Two flags in one moment, and one an hour later. -/
def phones : List IncidentEventInput := [phoneAt "b" 5000, phoneAt "c" 3600000, phoneAt "a" 0]

theorem incidents_are_components_phones :
    ((groupIncidents canonicalCompare phones { now := 0 }).flatMap (·.eventIds)).Perm ["b", "c",
      "a"] ∧
      groupIncidents canonicalCompare phones.reverse { now := 0 } =
      groupIncidents canonicalCompare phones { now := 0 } := by
  have hsep : IdsSeparated canonicalCompare phones := by
    unfold IdsSeparated
    decide
  have h := @incidents_are_components canonicalCompare _ phones { now := 0 } (by decide)
      (by decide) (by decide)
  exact ⟨h.1, (h.2.2.1 phones.reverse (reverse_perm phones).symm).1 hsep⟩

/-- Two flags that start together, with the same letter as their ids in its two spellings: they stay
as they came. -/
theorem incidents_depend_on_order :
    ([phoneAt "\u00e9" 0, phoneAt "e\u0301" 0].map (·.id)).Nodup ∧
      groupIncidents canonicalCompare [phoneAt "e\u0301" 0, phoneAt "\u00e9" 0] { now := 0 } ≠
        groupIncidents canonicalCompare [phoneAt "\u00e9" 0, phoneAt "e\u0301" 0] { now := 0 } := by
  decide

end Incidents

end SmartProctoring
