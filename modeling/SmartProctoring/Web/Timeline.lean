import SmartProctoring.Lib.Buckets
import SmartProctoring.Lib.Stringify

/-!
# The review timeline

`groupTimeline` (`admin/lib/timeline.ts`) puts the entries of a session's timeline into sections,
one for each period, with sections before, between and after them for what falls outside.  Its
comment says what a section is for: "every entry goes into the latest period that started at or
before it and had not ended before it".

The code looks at one period only, the last one to start at or before the entry.  If that one had
ended, the entry is shown outside every period, also when a period before it in the order still ran:
one that started at the same instant as an empty period, or one that overlaps it.  Exactly then an
entry is in the wrong section (`timeline_sections_iff`); the rest of what the sections promise holds
for all timelines.
-/

set_option autoImplicit false

namespace SmartProctoring.Timeline

open JsText Buckets
open List Option

structure PeriodDTO where
  id : Text
  startedAt : Int
  endedAt : Option Int

inductive EntryKind
  | event | identityCheck
  deriving DecidableEq

/-- An entry of the timeline that is no period. -/
structure TimelineEntry where
  kind : EntryKind
  id : Text
  atMs : Int

inductive TimelineItem
  | period (p : PeriodDTO)
  | entry (e : TimelineEntry)

inductive Position
  | period | before | between | after
  deriving DecidableEq

structure TimelineGroup where
  key : Text
  /-- `none` for entries that fall outside every period. -/
  period : Option PeriodDTO
  position : Position
  entries : List TimelineEntry

def EntryKind.rank : EntryKind → Nat
  | .event => 1
  | .identityCheck => 2

/-- `compareItems`: by time, then by kind. -/
def CompareItems (a b : TimelineEntry) : Prop :=
  a.atMs < b.atMs ∨ a.atMs = b.atMs ∧ a.kind.rank ≤ b.kind.rank

instance : DecidableRel CompareItems := fun a b =>
  inferInstanceAs (Decidable (a.atMs < b.atMs ∨ a.atMs = b.atMs ∧ a.kind.rank ≤ b.kind.rank))

/-- The order of the periods: by start, then by id. -/
def PeriodOrder (a b : PeriodDTO) : Prop :=
  a.startedAt < b.startedAt ∨ a.startedAt = b.startedAt ∧ a.id ≤ b.id

instance : DecidableRel PeriodOrder := fun a b =>
  inferInstanceAs (Decidable (a.startedAt < b.startedAt ∨ a.startedAt = b.startedAt ∧ a.id ≤ b.id))

/-! ## The sections -/

def periodsIn (items : List TimelineItem) : List PeriodDTO :=
  items.filterMap fun
    | .period p => some p
    | .entry _ => none

def entriesIn (items : List TimelineItem) : List TimelineEntry :=
  items.filterMap fun
    | .period _ => none
    | .entry e => some e

def sortedPeriods (items : List TimelineItem) : List PeriodDTO :=
  (periodsIn items).insertionSort PeriodOrder

def sortedEntries (items : List TimelineItem) : List TimelineEntry :=
  (entriesIn items).insertionSort CompareItems

/-- The index of the last of the first `n` periods that started at or before the instant. -/
def lastStarted (periods : List PeriodDTO) (atMs : Int) : Nat → Option Nat
  | 0 => none
  | n + 1 =>
    match periods[n]? with
    | some p => if p.startedAt ≤ atMs then some n else lastStarted periods atMs n
    | none => lastStarted periods atMs n

/-- `p.endedAt == null || at <= p.endedAt`. -/
def NotEnded (p : PeriodDTO) (atMs : Int) : Prop := ∀ e ∈ p.endedAt, atMs ≤ e
  deriving Decidable

/-- What the loop over the entries has filled in. -/
structure Sections where
  before : List TimelineEntry := []
  inPeriod : Nat → List TimelineEntry := fun _ => []
  gaps : Nat → List TimelineEntry := fun _ => []

/-- `f` with one more entry at `i`. -/
def push (f : Nat → List TimelineEntry) (i : Nat) (e : TimelineEntry) : Nat → List TimelineEntry :=
  fun k => if i = k then f k ++ [e] else f k

/-- One entry of the loop. -/
def placeEntry (periods : List PeriodDTO) (s : Sections) (entry : TimelineEntry) : Sections :=
  match lastStarted periods entry.atMs periods.length with
  | none => { s with before := s.before ++ [entry] }
  | some idx =>
    match periods[idx]? with
    | none => s
    | some p =>
      if NotEnded p entry.atMs then { s with inPeriod := push s.inPeriod idx entry }
      else { s with gaps := push s.gaps idx entry }

def gapKey (i : Nat) : Text := ascii ("gap:" ++ toString i)

/-- The section of a period, and what comes between it and the next. -/
def sectionsOf (s : Sections) (last : Nat) (i : Nat) (p : PeriodDTO) : List TimelineGroup :=
  ⟨ascii "p:" ++ p.id, some p, .period, s.inPeriod i⟩ ::
    if s.gaps i = [] then [] else [⟨gapKey i, none, if i = last then .after else .between, s.gaps i⟩]

/-- Group a merged timeline into period sections. -/
def groupTimeline (items : List TimelineItem) : List TimelineGroup :=
  let periods := sortedPeriods items
  let s := (sortedEntries items).foldl (placeEntry periods) {}
  (if s.before = [] then [] else [⟨ascii "before", none, .before, s.before⟩]) ++
    (periods.zipIdx.flatMap fun x => sectionsOf s (periods.length - 1) x.2 x.1)

/-! ## Where an entry belongs -/

/-- The period started at or before the instant and had not ended before it. -/
def Covers (p : PeriodDTO) (atMs : Int) : Prop := p.startedAt ≤ atMs ∧ NotEnded p atMs

/-- The section is the one of the latest-starting period that covers the entry, and one outside the
periods if there is none: before all of them, after all of them have started, or between. -/
def RightSection (periods : List PeriodDTO) (g : TimelineGroup) (e : TimelineEntry) : Prop :=
  match g.period with
  | some p => p ∈ periods ∧ Covers p e.atMs ∧ ∀ q ∈ periods, Covers q e.atMs → q.startedAt ≤ p.startedAt
  | none =>
    (∀ p ∈ periods, ¬ Covers p e.atMs) ∧
      (g.position = .before ↔ ∀ p ∈ periods, e.atMs < p.startedAt) ∧
      (g.position = .after ↔ periods ≠ [] ∧ ∀ p ∈ periods, p.startedAt ≤ e.atMs)

/-- No two periods have an instant in common, their ends apart. -/
def NoOverlap (periods : List PeriodDTO) : Prop :=
  periods.Pairwise fun p q => (∃ e ∈ p.endedAt, e ≤ q.startedAt) ∨ ∃ e ∈ q.endedAt, e ≤ p.startedAt

/-- What the sections of a timeline promise. -/
structure SectionsRight (items : List TimelineItem) (groups : List TimelineGroup) : Prop where
  /-- Every entry is in exactly one section. -/
  entries : (groups.flatMap (·.entries)).Perm (entriesIn items)
  /-- It is the right one. -/
  right : ∀ g ∈ groups, ∀ e ∈ g.entries, RightSection (periodsIn items) g e
  /-- Every period has exactly one section. -/
  periods : (groups.filterMap (·.period)).Perm (periodsIn items)
  /-- The entries come in the order of time. -/
  chronological : NoOverlap (periodsIn items) → (groups.flatMap (·.entries)).Pairwise fun a b =>
    a.atMs ≤ b.atMs

/-- Where an entry is covered at all, the last period in the order that started at or before it
covers it. -/
def LastStartedCovers (periods : List PeriodDTO) (e : TimelineEntry) : Prop :=
  (∃ p ∈ periods, Covers p e.atMs) →
    ∃ q ∈ periods, Covers q e.atMs ∧ ∀ p ∈ periods, p.startedAt ≤ e.atMs → PeriodOrder p q

/-! ## The loop puts the entries into buckets -/

/-- The number of an entry's section: `0` before the periods, then two for each period, its own and
the gap behind it. -/
def sectionNumber (periods : List PeriodDTO) (e : TimelineEntry) : Nat :=
  match lastStarted periods e.atMs periods.length with
  | none => 0
  | some i => if ∀ p ∈ periods[i]?, NotEnded p e.atMs then 2 * i + 1 else 2 * i + 2

variable {periods : List PeriodDTO}

theorem lastStarted_none {atMs : Int} {n : Nat} (h : lastStarted periods atMs n = none) :
    ∀ i < n, ∀ p ∈ periods[i]?, atMs < p.startedAt := by
  induction n with
  | zero => exact fun i hi => absurd hi (Nat.not_lt_zero i)
  | succ n ih =>
    rw [lastStarted] at h
    intro i hi p hp
    rcases Nat.lt_or_eq_of_le (Nat.le_of_lt_succ hi) with hlt | rfl
    · refine ih ?_ i hlt p hp
      split at h
      · split at h
        · cases h
        · exact h
      · exact h
    · split at h
      next q hq =>
        obtain rfl := some_inj.1 (hq.symm.trans hp)
        by_contra hstart
        rw [if_pos (by omega)] at h
        cases h
      next hq => exact absurd (hq.symm.trans hp) (by simp)

theorem lastStarted_some {atMs : Int} {n i : Nat} (h : lastStarted periods atMs n = some i) :
    i < n ∧ (∃ p, periods[i]? = some p ∧ p.startedAt ≤ atMs) ∧
      ∀ j < n, i < j → ∀ p ∈ periods[j]?, atMs < p.startedAt := by
  induction n with
  | zero => cases h
  | succ n ih =>
    rw [lastStarted] at h
    have hrest (h : lastStarted periods atMs n = some i) (hlast : ∀ p ∈ periods[n]?,
        atMs < p.startedAt) : i < n + 1 ∧ (∃ p, periods[i]? = some p ∧ p.startedAt ≤ atMs) ∧
          ∀ j < n + 1, i < j → ∀ p ∈ periods[j]?, atMs < p.startedAt := by
      obtain ⟨hlt, hp, hlater⟩ := ih h
      refine ⟨by omega, hp, fun j hj hij p hpj => ?_⟩
      rcases Nat.lt_or_eq_of_le (Nat.le_of_lt_succ hj) with hjn | rfl
      · exact hlater j hjn hij p hpj
      · exact hlast p hpj
    split at h
    next p hp =>
      split at h
      next hstart =>
        obtain rfl := some_inj.1 h
        exact ⟨Nat.lt_succ_self n, ⟨p, hp, hstart⟩, fun j hj hij => absurd hj (by omega)⟩
      next hstart =>
        refine hrest h fun q hq => ?_
        obtain rfl := some_inj.1 (hp.symm.trans hq)
        omega
    next hp => exact hrest h fun q hq => absurd (hp.symm.trans hq) (by simp)

variable {e : TimelineEntry}

theorem sectionNumber_of_none
    (h : lastStarted periods e.atMs periods.length = none) :
    sectionNumber periods e = 0 := by rw [sectionNumber, h]

variable {i : Nat}

theorem sectionNumber_of_some {p : PeriodDTO}
    (h : lastStarted periods e.atMs periods.length = some i) (hp : periods[i]? = some p) :
    sectionNumber periods e = if NotEnded p e.atMs then 2 * i + 1 else 2 * i + 2 := by
  rw [sectionNumber, h]
  simp only [hp, mem_def, some.injEq, forall_eq']

theorem push_bucket {rank : TimelineEntry → Nat} (l : List TimelineEntry) {f : Nat → Nat}
    (hf : ∀ k, f i = f k → i = k) (he : rank e = f i) :
    push (fun k => bucket rank l (f k)) i e = fun k => bucket rank (l ++ [e]) (f k) := by
  funext k
  rw [push, bucket_concat, he]
  by_cases hk : i = k
  · rw [if_pos hk, if_pos (congrArg f hk)]
  · rw [if_neg hk, if_neg fun h => hk (hf k h)]

theorem foldl_placeEntry (periods : List PeriodDTO) (l : List TimelineEntry) :
    l.foldl (placeEntry periods) {} =
      ⟨bucket (sectionNumber periods) l 0, fun i => bucket (sectionNumber periods) l (2 * i + 1),
        fun i => bucket (sectionNumber periods) l (2 * i + 2)⟩ := by
  induction l using reverseRecOn with
  | nil => rfl
  | append_singleton l e ih =>
    rw [foldl_append, ih, foldl_cons, foldl_nil, placeEntry]
    cases hlast : lastStarted periods e.atMs periods.length with
    | none =>
      have hnum := sectionNumber_of_none hlast
      simp [bucket_concat, hnum]
    | some i =>
      obtain ⟨-, ⟨p, hp, -⟩, -⟩ := lastStarted_some hlast
      have hnum := sectionNumber_of_some hlast hp
      simp only [hp]
      by_cases hcover : NotEnded p e.atMs
      · rw [if_pos hcover] at hnum
        rw [if_pos hcover, push_bucket (f := fun i => 2 * i + 1) l (fun k h => by omega) hnum]
        simp only [bucket_concat, hnum, show ∀ k, ¬ 2 * i + 1 = 2 * k + 2 by omega, Nat.succ_ne_zero, if_false]
      · rw [if_neg hcover] at hnum
        rw [if_neg hcover, push_bucket (f := fun i => 2 * i + 2) l (fun k h => by omega) hnum]
        simp only [bucket_concat, hnum, show ∀ k, ¬ 2 * i + 2 = 2 * k + 1 by omega, Nat.succ_ne_zero, if_false]

theorem sectionNumber_mono (periods : List PeriodDTO) {a b : TimelineEntry} (h : a.atMs ≤ b.atMs) :
    sectionNumber periods a ≤ sectionNumber periods b := by
  cases ha : lastStarted periods a.atMs periods.length with
  | none =>
    have hzero := sectionNumber_of_none ha
    omega
  | some i =>
    obtain ⟨hi, ⟨p, hp, hstart⟩, -⟩ := lastStarted_some ha
    cases hb : lastStarted periods b.atMs periods.length with
    | none =>
      have := lastStarted_none hb i hi p hp
      omega
    | some j =>
      obtain ⟨hj, ⟨q, hq, -⟩, hlater⟩ := lastStarted_some hb
      have hij : i ≤ j := by
        by_contra hlt
        have := hlater i hi (by omega) p hp
        omega
      rw [sectionNumber_of_some ha hp, sectionNumber_of_some hb hq]
      rcases Nat.lt_or_eq_of_le hij with hlt | rfl
      · split <;> split <;> omega
      · obtain rfl := some_inj.1 (hp.symm.trans hq)
        by_cases hcover : NotEnded p b.atMs
        · have hcover' : NotEnded p a.atMs := fun e he => h.trans (hcover e he)
          rw [if_pos hcover', if_pos hcover]
        · split <;> omega

theorem sectionNumber_lt (periods : List PeriodDTO) (e : TimelineEntry) :
    sectionNumber periods e < 2 * periods.length + 1 := by
  rw [sectionNumber]
  split
  · omega
  next i h =>
    have := (lastStarted_some h).1
    split <;> omega

/-! ## What the sections hold -/

instance : Std.Total CompareItems where
  total a b := by
    simp only [CompareItems]
    omega

instance : IsTrans TimelineEntry CompareItems where
  trans a b c hab hbc := by
    simp only [CompareItems] at *
    omega

instance : Std.Total PeriodOrder where
  total a b := by
    rcases lt_trichotomy a.startedAt b.startedAt with h | h | h
    · exact .inl (.inl h)
    · rcases le_total a.id b.id with hid | hid
      · exact .inl (.inr ⟨h, hid⟩)
      · exact .inr (.inr ⟨h.symm, hid⟩)
    · exact .inr (.inl h)

instance : IsTrans PeriodDTO PeriodOrder where
  trans a b c hab hbc := by
    rcases hab with hab | ⟨hab, hab'⟩ <;> rcases hbc with hbc | ⟨hbc, hbc'⟩
    · exact .inl (hab.trans hbc)
    · exact .inl (hbc ▸ hab)
    · exact .inl (hab ▸ hbc)
    · exact .inr ⟨hab.trans hbc, hab'.trans hbc'⟩

section

variable (items : List TimelineItem)

/-- The number of an entry's section in a timeline. -/
def numberIn (e : TimelineEntry) : Nat := sectionNumber (sortedPeriods items) e

/-- The entries of a section. -/
def held (k : Nat) : List TimelineEntry := bucket (numberIn items) (sortedEntries items) k

theorem sortedPeriods_perm : (sortedPeriods items).Perm (periodsIn items) := perm_insertionSort ..

theorem sortedEntries_perm : (sortedEntries items).Perm (entriesIn items) := perm_insertionSort ..

theorem sortedEntries_sorted : (sortedEntries items).Pairwise fun a b => a.atMs ≤ b.atMs :=
  (pairwise_insertionSort CompareItems (entriesIn items)).imp fun h => by
    simp only [CompareItems] at h
    omega

theorem mem_held {k : Nat} {e : TimelineEntry} :
    e ∈ held items k ↔ e ∈ entriesIn items ∧ numberIn items e = k := by
  rw [held, mem_bucket, (sortedEntries_perm items).mem_iff]

/-- The gap section behind a period, if it holds anything. -/
def gapSection (i : Nat) : List TimelineGroup :=
  if held items (2 * i + 2) = [] then []
  else [⟨gapKey i, none, if i = (sortedPeriods items).length - 1 then .after else .between,
    held items (2 * i + 2)⟩]

theorem groupTimeline_eq :
    groupTimeline items =
      (if held items 0 = [] then [] else [⟨ascii "before", none, .before, held items 0⟩]) ++
        (sortedPeriods items).zipIdx.flatMap fun x =>
          ⟨ascii "p:" ++ x.1.id, some x.1, .period, held items (2 * x.2 + 1)⟩ :: gapSection items x.2 := by
  rw [groupTimeline]
  simp only [foldl_placeEntry]
  rfl

theorem entries_groupTimeline :
    (groupTimeline items).flatMap (·.entries) = sortedEntries items := by
  have hbefore : (if held items 0 = [] then []
      else [(⟨ascii "before", none, .before, held items 0⟩ : TimelineGroup)]).flatMap
      (·.entries) = held items 0 := by
    split
    next h => rw [h]; rfl
    next => rw [flatMap_singleton]
  have hgap (i : Nat) : (gapSection items i).flatMap (·.entries) = held items (2 * i + 2) := by
    rw [gapSection]
    split
    next h => rw [h]; rfl
    next => rw [flatMap_singleton]
  have hpairs (n : Nat) : held items 0 ++ (range n).flatMap (fun i =>
      held items (2 * i + 1) ++ held items (2 * i + 2)) =
      (range (2 * n + 1)).flatMap (held items) := by
    induction n with
    | zero => simp
    | succ n ih =>
      rw [range_succ, flatMap_append, ← append_assoc, ih,
        show 2 * (n + 1) + 1 = 2 * n + 1 + 1 + 1 by omega,
        range_succ (n := 2 * n + 1 + 1), range_succ (n := 2 * n + 1), flatMap_append,
        flatMap_append, flatMap_singleton, flatMap_singleton, flatMap_singleton, append_assoc]
  have hsorted : (sortedEntries items).Pairwise fun a b => numberIn items a ≤ numberIn items b :=
    (sortedEntries_sorted items).imp fun h => sectionNumber_mono _ h
  calc (groupTimeline items).flatMap (·.entries)
      = held items 0 ++ (sortedPeriods items).zipIdx.flatMap
          (fun x => held items (2 * x.2 + 1) ++ held items (2 * x.2 + 2)) := by
        rw [groupTimeline_eq, flatMap_append, hbefore, flatMap_assoc]
        simp only [flatMap_cons, hgap]
    _ = held items 0 ++ (range (sortedPeriods items).length).flatMap
          (fun i => held items (2 * i + 1) ++ held items (2 * i + 2)) := by
        rw [range_eq_range', ← zipIdx_map_snd 0 (sortedPeriods items), flatMap_map]
    _ = (range (2 * (sortedPeriods items).length + 1)).flatMap (held items) := hpairs _
    _ = sortedEntries items := flatMap_buckets hsorted fun e _ => sectionNumber_lt _ e

theorem periods_groupTimeline :
    (groupTimeline items).filterMap (·.period) = sortedPeriods items := by
  have hgap (i : Nat) : (gapSection items i).filterMap (·.period) = [] := by
    rw [gapSection]
    split <;> rfl
  rw [groupTimeline_eq, filterMap_append]
  have hbefore : (if held items 0 = [] then []
      else [(⟨ascii "before", none, .before, held items 0⟩ : TimelineGroup)]).filterMap
      (·.period) = [] := by
    split <;> rfl
  rw [hbefore, nil_append, filterMap_flatMap]
  simp only [filterMap_cons, hgap]
  rw [← map_eq_flatMap, zipIdx_map_fst]

theorem mem_groupTimeline {g : TimelineGroup} {e : TimelineEntry} (he : e ∈ g.entries) :
    g ∈ groupTimeline items ↔
      g = ⟨ascii "before", none, .before, held items 0⟩ ∨
      ∃ i p, (sortedPeriods items)[i]? = some p ∧
        (g = ⟨ascii "p:" ++ p.id, some p, .period, held items (2 * i + 1)⟩ ∨
          g = ⟨gapKey i, none, if i = (sortedPeriods items).length - 1 then .after else .between,
            held items (2 * i + 2)⟩) := by
  have hfilled (key : Text) (position : Position) (l : List TimelineEntry) :
      (g ∈ if l = [] then [] else [⟨key, none, position, l⟩]) ↔ g = ⟨key, none, position, l⟩ := by
    split
    next h =>
      refine ⟨fun hg => absurd hg not_mem_nil, fun hg => ?_⟩
      rw [hg, h] at he
      exact absurd he not_mem_nil
    next => exact mem_singleton
  rw [groupTimeline_eq, mem_append, hfilled, mem_flatMap]
  refine or_congr Iff.rfl ⟨?_, ?_⟩
  · rintro ⟨⟨p, i⟩, hp, hg⟩
    rw [mk_mem_zipIdx_iff_getElem?] at hp
    rw [mem_cons, gapSection, hfilled] at hg
    exact ⟨i, p, hp, hg⟩
  · rintro ⟨i, p, hp, hg⟩
    refine ⟨(p, i), mk_mem_zipIdx_iff_getElem?.2 hp, ?_⟩
    rw [mem_cons, gapSection, hfilled]
    exact hg

/-- The period that decides about an entry: the last one in the order that started at or before
it. -/
structure Decides (e : TimelineEntry) (i : Nat) (p : PeriodDTO) : Prop where
  at_index : (sortedPeriods items)[i]? = some p
  started : p.startedAt ≤ e.atMs
  later : ∀ j, i < j → ∀ q ∈ (sortedPeriods items)[j]?, e.atMs < q.startedAt
  number : numberIn items e = if NotEnded p e.atMs then 2 * i + 1 else 2 * i + 2

theorem numberIn_cases (e : TimelineEntry) :
    (numberIn items e = 0 ∧ ∀ p ∈ periodsIn items, e.atMs < p.startedAt) ∨ ∃ i p,
    Decides items e i p := by
  cases hlast : lastStarted (sortedPeriods items) e.atMs (sortedPeriods items).length with
  | none =>
    refine .inl ⟨sectionNumber_of_none hlast, fun p hp => ?_⟩
    obtain ⟨i, hi, rfl⟩ := mem_iff_getElem.1 ((sortedPeriods_perm items).mem_iff.2 hp)
    exact lastStarted_none hlast i hi _ (List.getElem?_eq_getElem hi)
  | some i =>
    obtain ⟨-, ⟨p, hp, hstart⟩, hlater⟩ := lastStarted_some hlast
    refine .inr ⟨i, p, hp, hstart, fun j hij q hq => hlater j ?_ hij q hq, sectionNumber_of_some hlast hp⟩
    exact (List.getElem?_eq_some_iff.1 hq).1

variable {items} {e : TimelineEntry} {i : Nat} {p : PeriodDTO}

section

variable (h : Decides items e i p)
include h

theorem Decides.mem : p ∈ periodsIn items :=
  (sortedPeriods_perm items).mem_iff.1 (mem_of_getElem? h.at_index)

theorem Decides.order_getElem {j : Nat} (hj : j < (sortedPeriods items).length) (hji : j ≤ i) :
    PeriodOrder (sortedPeriods items)[j] p := by
  obtain ⟨hi, rfl⟩ := List.getElem?_eq_some_iff.1 h.at_index
  rcases Nat.lt_or_eq_of_le hji with hlt | rfl
  · exact pairwise_iff_getElem.1 (pairwise_insertionSort PeriodOrder (periodsIn items)) j i hj hi hlt
  · exact .inr ⟨rfl, le_rfl⟩

theorem Decides.order {q : PeriodDTO} (hq : q ∈ periodsIn items) (hstart : q.startedAt ≤ e.atMs) :
    PeriodOrder q p := by
  obtain ⟨j, hj, rfl⟩ := mem_iff_getElem.1 ((sortedPeriods_perm items).mem_iff.2 hq)
  refine h.order_getElem hj ?_
  by_contra hlt
  have := h.later j (by omega) _ (List.getElem?_eq_getElem hj)
  omega

theorem Decides.startedAt_le {q : PeriodDTO} (hq : q ∈ periodsIn items)
    (hstart : q.startedAt ≤ e.atMs) : q.startedAt ≤ p.startedAt := by
  rcases h.order hq hstart with hlt | ⟨heq, -⟩
  · exact hlt.le
  · exact heq.le

theorem Decides.last_iff :
    i = (sortedPeriods items).length - 1 ↔ periodsIn items ≠ [] ∧ ∀ q ∈ periodsIn items,
    q.startedAt ≤ e.atMs := by
  have hi := (List.getElem?_eq_some_iff.1 h.at_index).1
  constructor
  · intro hlast
    refine ⟨ne_nil_of_mem h.mem, fun q hq => ?_⟩
    obtain ⟨j, hj, rfl⟩ := mem_iff_getElem.1 ((sortedPeriods_perm items).mem_iff.2 hq)
    have hle : (sortedPeriods items)[j].startedAt ≤ p.startedAt := by
      rcases h.order_getElem hj (by omega) with hlt | ⟨heq, -⟩
      · exact hlt.le
      · exact heq.le
    exact hle.trans h.started
  · rintro ⟨-, hall⟩
    by_contra hne
    have hlast : (sortedPeriods items).length - 1 < (sortedPeriods items).length := by omega
    have hq := List.getElem?_eq_getElem hlast
    have := h.later _ (by omega) _ hq
    have := hall _ ((sortedPeriods_perm items).mem_iff.1 (getElem_mem hlast))
    omega

end

theorem Decides.lastStartedCovers_iff (hids : ((periodsIn items).map (·.id)).Nodup)
    (h : Decides items e i p) (hended : ¬ NotEnded p e.atMs) :
    LastStartedCovers (periodsIn items) e ↔ ∀ q ∈ periodsIn items, ¬ Covers q e.atMs := by
  constructor
  · intro hlast q hq hcover
    obtain ⟨r, hr, hrcover, hafter⟩ := hlast ⟨q, hq, hcover⟩
    have hid : r.id = p.id := by
      rcases h.order hr hrcover.1 with hlt | ⟨heq, hle⟩ <;>
          rcases hafter p h.mem h.started with hlt' | ⟨heq', hle'⟩
      · omega
      · omega
      · omega
      · exact le_antisymm hle hle'
    obtain rfl := inj_on_of_nodup_map hids hr h.mem hid
    exact hended hrcover.2
  · rintro hnone ⟨q, hq, hcover⟩
    exact absurd hcover (hnone q hq)

theorem right_iff (hids : ((periodsIn items).map (·.id)).Nodup) (he : e ∈ entriesIn items) :
    (∀ g ∈ groupTimeline items, e ∈ g.entries → RightSection (periodsIn items) g e) ↔
      LastStartedCovers (periodsIn items) e := by
  have hnumber {k : Nat} (hk : e ∈ held items k) : numberIn items e = k := ((mem_held items).1 hk).2
  rcases numberIn_cases items e with ⟨hzero, hnone⟩ | ⟨i, p, h⟩
  · -- no period has started: the section before them
    have hcovers : ∀ q ∈ periodsIn items, ¬ Covers q e.atMs := fun q hq hcover => by
      have := hnone q hq
      have := hcover.1
      omega
    refine iff_of_true (fun g hg heg => ?_) fun ⟨q, hq, hcover⟩ => absurd hcover (hcovers q hq)
    rcases (mem_groupTimeline items heg).1 hg with rfl | ⟨j, q, -, rfl | rfl⟩
    · refine ⟨hcovers, iff_of_true rfl hnone, iff_of_false (fun h => nomatch h) ?_⟩
      rintro ⟨hne, hall⟩
      obtain ⟨q, hq⟩ := exists_mem_of_ne_nil _ hne
      have := hnone q hq
      have := hall q hq
      omega
    · have := hnumber heg
      omega
    · have := hnumber heg
      omega
  · have hk := h.number
    by_cases hcover : NotEnded p e.atMs
    · -- the period that decides covers the entry
      rw [if_pos hcover] at hk
      refine iff_of_true (fun g hg heg => ?_) fun _ =>
        ⟨p, h.mem, ⟨h.started, hcover⟩, fun q hq hstart => h.order hq hstart⟩
      rcases (mem_groupTimeline items heg).1 hg with rfl | ⟨j, q, hq, rfl | rfl⟩
      · have := hnumber heg
        omega
      · obtain rfl : j = i := by
          have := hnumber heg
          omega
        obtain rfl := some_inj.1 (hq.symm.trans h.at_index)
        exact ⟨h.mem, ⟨h.started, hcover⟩, fun r hr hrcover => h.startedAt_le hr hrcover.1⟩
      · have := hnumber heg
        omega
    · -- it had ended: the section behind it
      rw [if_neg hcover] at hk
      rw [h.lastStartedCovers_iff hids hcover]
      constructor
      · intro hright
        have heg : e ∈ held items (2 * i + 2) := (mem_held items).2 ⟨he, hk⟩
        exact (hright _ ((mem_groupTimeline items heg).2 (.inr ⟨i, p, h.at_index, .inr rfl⟩)) heg).1
      · intro hnone g hg heg
        rcases (mem_groupTimeline items heg).1 hg with rfl | ⟨j, q, hq, rfl | rfl⟩
        · have := hnumber heg
          omega
        · have := hnumber heg
          omega
        · obtain rfl : j = i := by
            have := hnumber heg
            omega
          refine ⟨hnone, iff_of_false ?_ fun hall => ?_, ?_⟩
          · dsimp only
            split <;> decide
          · have := hall p h.mem
            have := h.started
            omega
          · rw [← h.last_iff]
            dsimp only
            split
            next hlast => exact iff_of_true rfl hlast
            next hlast => exact iff_of_false (by decide) hlast

/-- **Exactly when the sections of a timeline are right.** -/
theorem timeline_sections_iff (items : List TimelineItem)
    (hids : ((periodsIn items).map (·.id)).Nodup) :
    SectionsRight items (groupTimeline items) ↔ ∀ e ∈ entriesIn items,
    LastStartedCovers (periodsIn items) e := by
  constructor
  · exact fun h e he => (right_iff hids he).1 fun g hg => h.right g hg e
  · intro h
    have hentries := entries_groupTimeline items
    refine ⟨?_, fun g hg e heg => ?_, ?_, fun _ => ?_⟩
    · rw [hentries]
      exact sortedEntries_perm items
    · have he : e ∈ entriesIn items := by
        rw [← (sortedEntries_perm items).mem_iff, ← hentries]
        exact mem_flatMap.2 ⟨g, hg, heg⟩
      exact (right_iff hids he).2 (h e he) g hg heg
    · rw [periods_groupTimeline]
      exact sortedPeriods_perm items
    · rw [hentries]
      exact sortedEntries_sorted items

end

/-- An entry of a running exam. -/
def noticed : TimelineEntry := ⟨.event, ascii "e", 25⟩

/-- Check-in, then the exam, with an entry before them and one between. -/
def started : List TimelineItem :=
  [.entry noticed, .period ⟨ascii "2", 20, none⟩, .entry ⟨.identityCheck, ascii "b", 15⟩,
    .period ⟨ascii "1", 0, some 10⟩, .entry ⟨.event, ascii "a", -5⟩]

theorem timeline_sections_started :
    SectionsRight started (groupTimeline started) ∧
      (groupTimeline started).map (fun g => (g.position, g.entries.map (·.atMs))) =
        [(.before, [-5]), (.period, []), (.between, [15]), (.period, [25])] := by
  refine ⟨(timeline_sections_iff started (by decide)).2 fun e he hcover => ?_, by decide +kernel⟩
  have hperiods : periodsIn started = [⟨ascii "2", 20, none⟩, ⟨ascii "1", 0, some 10⟩] := rfl
  rw [hperiods] at hcover ⊢
  rw [show entriesIn started = [noticed, ⟨.identityCheck, ascii "b", 15⟩,
    ⟨.event, ascii "a", -5⟩] from rfl] at he
  simp only [mem_cons, not_mem_nil, or_false] at he hcover
  rcases he with rfl | rfl | rfl
  · refine ⟨⟨ascii "2", 20, none⟩, mem_cons_self ..,
      ⟨by decide, fun e he => absurd he (Option.not_mem_none e)⟩, fun q hq _ => ?_⟩
    simp only [mem_cons, not_mem_nil, or_false] at hq
    rcases hq with rfl | rfl
    · exact .inr ⟨rfl, le_rfl⟩
    · exact .inl (by decide)
  -- no period covers the other two
  · obtain ⟨p, rfl | rfl, hstart, hend⟩ := hcover
    · exact absurd hstart (by decide)
    · exact absurd (hend 10 rfl) (by decide)
  · obtain ⟨p, rfl | rfl, hstart, -⟩ := hcover
    · exact absurd hstart (by decide)
    · exact absurd hstart (by decide)

/-- The same exam with an empty period at the instant at which the exam begins. -/
def startedTwice : List TimelineItem :=
  started ++ [.period ⟨ascii "3", 20, some 20⟩]

/-- The periods do not overlap, and yet what happened during the exam is shown after the end. -/
theorem running_exam_shown_after :
    NoOverlap (periodsIn startedTwice) ∧ ((periodsIn startedTwice).map (·.id)).Nodup ∧
      ¬ SectionsRight startedTwice (groupTimeline startedTwice) := by
  have hids : ((periodsIn startedTwice).map (·.id)).Nodup := by decide
  refine ⟨?_, hids, fun h => ?_⟩
  · have hperiods : periodsIn startedTwice =
        [⟨ascii "2", 20, none⟩, ⟨ascii "1", 0, some 10⟩, ⟨ascii "3", 20, some 20⟩] := rfl
    rw [NoOverlap, hperiods]
    simp
  · have hlast := (right_iff hids (e := noticed) (mem_cons_self ..)).1 fun g hg => h.right g hg noticed
    have hperiods : periodsIn startedTwice =
        [⟨ascii "2", 20, none⟩, ⟨ascii "1", 0, some 10⟩, ⟨ascii "3", 20, some 20⟩] := rfl
    rw [hperiods] at hlast
    obtain ⟨q, hq, hcover, hafter⟩ := hlast ⟨⟨ascii "2", 20, none⟩, mem_cons_self .., by decide,
        fun e he => nomatch he⟩
    have hthird := hafter ⟨ascii "3", 20, some 20⟩ (by simp) (by decide)
    simp only [mem_cons, not_mem_nil, or_false] at hq
    rcases hq with rfl | rfl | rfl
    · exact absurd hthird (by decide)
    · exact absurd (hcover.2 10 rfl) (by decide)
    · exact absurd (hcover.2 20 rfl) (by decide)

end SmartProctoring.Timeline
