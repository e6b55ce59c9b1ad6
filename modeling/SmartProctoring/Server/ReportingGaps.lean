import SmartProctoring.Lib.Tiling
import SmartProctoring.Shared.Session

/-!
# Reporting outages that were never shown to have been observed

`services/reporting-gaps.ts`.  An outage says only that the server stopped hearing from the
candidate's browser.  It was observed all the same if the same browser came back, or if something
the browser captured meanwhile reached the server late; any other is *unobserved*.  The report shows
the unobserved outages as `disconnected` pieces cut out of the active periods
(`withUnobservedOutages`).

The cut-out pieces and what is left of a period join to exactly that period (`splitPeriod_joins`),
and up to the instant the report is made for, `endAt`, an instant of the period lies in a
`disconnected` piece exactly when an unobserved outage was going on (`splitPeriod_disconnected`).
Outages that are still going on are clipped to `endAt`; the piece that reaches it in a period that
is itself going on is left open, so past `endAt` the two differ.
-/

set_option autoImplicit false

namespace SmartProctoring

open List

/-- The only way an outage is closed by the same browser coming back. -/
def OUTAGE_RESUMED_BY : String := "heartbeat_resumed"

/-- Period reason of a materialised gap: the browser did not come back before the end. -/
def GAP_NOT_RETURNED : String := "browser_not_returned"

/-- Report-only reason: the browser stopped reporting and nothing from that time ever arrived. -/
def GAP_NOT_REPORTING : String := "browser_not_reporting"

/-! ## The outages -/

/-- What the browser captured that reached the server late, as a time span (its last instant
included). -/
structure LateCapture where
  start : Int
  stop : Int

structure OutageLike where
  id : String
  startedAt : Int
  endedAt : Option Int
  /-- `details.closedBy`, when it is a string. -/
  closedBy : Option String := none

structure UnobservedOutage where
  eventId : String
  start : Int
  /-- Clipped to `endAt` while the outage is still going on. -/
  stop : Int
  ongoing : Bool
  closedBy : Option String

/-- Late captures that happened inside the outage (after its start, not after its end). -/
def capturesWithin (late : List LateCapture) (start stop : Int) : List LateCapture :=
  late.filter fun l => decide (start < l.stop) && decide (l.start ≤ stop)

/-- The outage, if nothing shows it to have been observed. -/
def unobservedOutage (late : List LateCapture) (endAt : Int) (e : OutageLike) :
    Option UnobservedOutage :=
  if e.endedAt.isSome && e.closedBy == some OUTAGE_RESUMED_BY then none
  else
    let stop := min (e.endedAt.getD endAt) endAt
    if stop ≤ e.startedAt then none
    else if capturesWithin late e.startedAt stop ≠ [] then none
    else
      some
        { eventId := e.id, start := e.startedAt, stop, ongoing := e.endedAt.isNone
          closedBy := e.closedBy }

/-- The reporting outages nothing shows to have been observed.  `endAt`: end of the session, or
now. -/
def unobservedOutages (outages : List OutageLike) (late : List LateCapture) (endAt : Int) :
    List UnobservedOutage :=
  outages.filterMap (unobservedOutage late endAt)

/-! ## The periods -/

/-- A period's `meta`: what was stored with it, or the outage it was cut out for. -/
inductive PeriodMetaDTO
  | stored (json : String)
  | derived (eventId : String) (closedBy : Option String)
  deriving DecidableEq

structure PeriodDTO where
  id : String
  kind : PeriodKind
  observed : Bool
  startedAt : Int
  endedAt : Option Int
  reason : Option String := none
  metadata : PeriodMetaDTO := .stored "{}"
  deriving DecidableEq

/-- The time the period takes. -/
def PeriodDTO.span (p : PeriodDTO) : Span Int := ⟨p.startedAt, p.endedAt⟩

@[simp] theorem PeriodDTO.span_start (p : PeriodDTO) : p.span.start = p.startedAt := rfl
@[simp] theorem PeriodDTO.span_stop (p : PeriodDTO) : p.span.stop = p.endedAt := rfl

/-- What an outage takes of a period. -/
structure OutageCut where
  o : UnobservedOutage
  a : Int
  b : Int

/-- The overlap of the period with an outage. -/
def PeriodDTO.cut (p : PeriodDTO) (o : UnobservedOutage) : OutageCut where
  o
  a := max p.startedAt o.start
  b := p.endedAt.elim o.stop (min · o.stop)

/-- The parts of the period that lie in an outage, in the order they start. -/
def PeriodDTO.cuts (p : PeriodDTO) (outages : List UnobservedOutage) : List OutageCut :=
  ((outages.map p.cut).filter fun c => decide (c.a < c.b)).insertionSort fun x y => x.a ≤ y.a

/-- A part of the period that stays active; the first one keeps the period's id. -/
def PeriodDTO.activePiece (p : PeriodDTO) (pieces : Nat) (start : Int) (stop : Option Int) :
    PeriodDTO :=
  { p with
    id := if pieces = 0 then p.id else p.id ++ "~" ++ toString pieces
    startedAt := start
    endedAt := stop }

/-- The part of the period from `a` on that the outage takes. -/
def PeriodDTO.outagePiece (p : PeriodDTO) (c : OutageCut) (a : Int) (isOpen : Bool) :
    PeriodDTO where
  id := "outage:" ++ c.o.eventId ++ ":" ++ p.id
  kind := .disconnected
  observed := false
  startedAt := a
  endedAt := if isOpen then none else some c.b
  reason := some (if c.o.closedBy = some "session_end" then GAP_NOT_RETURNED else GAP_NOT_REPORTING)
  metadata := .derived c.o.eventId c.o.closedBy

/-- The pieces from `cursor` on; `pieces` active ones have been made so far. -/
def PeriodDTO.pieces (p : PeriodDTO) : List OutageCut → Int → Nat → List PeriodDTO
  | [], cursor, pieces =>
    if p.endedAt.all (decide <| cursor < ·) then [p.activePiece pieces cursor p.endedAt] else []
  | c :: cuts, cursor, pieces =>
    let a := max c.a cursor
    if c.b ≤ a then PeriodDTO.pieces p cuts cursor pieces
    else
      -- an ongoing outage that reaches the end of an open period stays open
      let isOpen := c.o.ongoing && p.endedAt.isNone && decide (c.o.stop ≤ c.b)
      let rest (pieces : Nat) : List PeriodDTO :=
        p.outagePiece c a isOpen :: if isOpen then [] else PeriodDTO.pieces p cuts c.b pieces
      if cursor < a then p.activePiece pieces cursor (some a) :: rest (pieces + 1) else rest pieces

/-- The period with the outages cut out, if it is an active one that meets any. -/
def splitPeriod (outages : List UnobservedOutage) (p : PeriodDTO) : List PeriodDTO :=
  if p.kind ≠ .active then [p]
  else
    match p.cuts outages with
    | [] => [p]
    | c :: cuts => p.pieces (c :: cuts) p.startedAt 0

/-- The periods with the unobserved outages cut out of the active ones. -/
def withUnobservedOutages (periods : List PeriodDTO) (outages : List UnobservedOutage) :
    List PeriodDTO :=
  if outages = [] then periods
  else (periods.flatMap (splitPeriod outages)).insertionSort fun p q => p.startedAt ≤ q.startedAt

/-! ## What an unobserved outage is -/

/-- At `t` an outage was going on that nothing shows to have been observed: not closed by the same
browser coming back, and nothing captured during it was delivered late. -/
def UnobservedAt (outages : List OutageLike) (late : List LateCapture) (endAt t : Int) : Prop :=
  ∃ e ∈ outages, e.startedAt ≤ t ∧ t < min (e.endedAt.getD endAt) endAt ∧
    ¬ (e.endedAt.isSome ∧ e.closedBy = some OUTAGE_RESUMED_BY) ∧
    ∀ l ∈ late, ¬ (e.startedAt < l.stop ∧ l.start ≤ min (e.endedAt.getD endAt) endAt)

variable {late : List LateCapture}

theorem capturesWithin_eq_nil {start stop : Int} :
    capturesWithin late start stop = [] ↔ ∀ l ∈ late, ¬ (start < l.stop ∧ l.start ≤ stop) := by
  simp [capturesWithin, filter_eq_nil_iff]

theorem mem_unobservedOutages {outages : List OutageLike} {endAt t : Int} :
    (∃ o ∈ unobservedOutages outages late endAt, o.start ≤ t ∧ t < o.stop) ↔
      UnobservedAt outages late endAt t := by
  simp only [unobservedOutages, mem_filterMap, UnobservedAt]
  constructor
  · rintro ⟨o, ⟨e, he, ho⟩, hstart, hstop⟩
    rw [unobservedOutage] at ho
    split at ho
    next => cases ho
    next hresumed =>
      dsimp only at ho
      split at ho
      next => cases ho
      next =>
        split at ho
        next => cases ho
        next hcap =>
          obtain rfl := Option.some.inj ho
          refine ⟨e, he, hstart, hstop, ?_, capturesWithin_eq_nil.mp (not_not.mp hcap)⟩
          simpa using hresumed
  · rintro ⟨e, he, hstart, hstop, hresumed, hcap⟩
    refine ⟨⟨e.id, e.startedAt, min (e.endedAt.getD endAt) endAt, e.endedAt.isNone, e.closedBy⟩,
      ⟨e, he, ?_⟩, hstart, hstop⟩
    rw [unobservedOutage, if_neg (by simpa using hresumed)]
    rw [if_neg (not_le.mpr (hstart.trans_lt hstop)), if_neg (not_not.mpr (capturesWithin_eq_nil.mpr hcap))]

theorem stop_le_endAt {outages : List OutageLike} {endAt : Int} {o : UnobservedOutage}
    (ho : o ∈ unobservedOutages outages late endAt) :
    o.stop ≤ endAt ∧ (o.ongoing = true → o.stop = endAt) := by
  obtain ⟨e, -, he⟩ := mem_filterMap.mp ho
  rw [unobservedOutage] at he
  split at he
  next => cases he
  next =>
    dsimp only at he
    split at he
    next => cases he
    next =>
      split at he
      next => cases he
      next =>
        obtain rfl := Option.some.inj he
        refine ⟨min_le_right _ _, fun h => ?_⟩
        have hnone : e.endedAt = none := by simpa using h
        simp [hnone]

/-! ## The pieces of a period -/

variable {p : PeriodDTO} {outages : List UnobservedOutage} {cuts : List OutageCut} {cursor t : Int}

theorem mem_cuts {c : OutageCut} :
    c ∈ p.cuts outages ↔ (∃ o ∈ outages, p.cut o = c) ∧ c.a < c.b := by
  simp [PeriodDTO.cuts, mem_insertionSort]

theorem cuts_sorted : (p.cuts outages).Pairwise fun x y => x.a ≤ y.a := by
  refine pairwise_insertionSort (fun x y : OutageCut => x.a ≤ y.a) _

theorem le_of_mem_cuts {c : OutageCut} (hc : c ∈ p.cuts outages) : ∀ e ∈ p.endedAt, c.b ≤ e := by
  obtain ⟨⟨o, -, rfl⟩, -⟩ := mem_cuts.mp hc
  intro e he
  rw [Option.mem_def] at he
  simp [PeriodDTO.cut, he]

theorem exists_cut_iff (ht : p.span.Covers t) :
    (∃ c ∈ p.cuts outages, c.a ≤ t ∧ t < c.b) ↔ ∃ o ∈ outages, o.start ≤ t ∧ t < o.stop := by
  have hcut (o : UnobservedOutage) :
      (p.cut o).a ≤ t ∧ t < (p.cut o).b ↔ o.start ≤ t ∧ t < o.stop := by
    obtain ⟨hst, hte⟩ := ht
    rw [PeriodDTO.span_start] at hst
    rcases he : p.endedAt with _ | e
    · simp [PeriodDTO.cut, he, hst]
    · have hlt : t < e := hte e he
      simp [PeriodDTO.cut, he, hst, hlt]
  constructor
  · rintro ⟨c, hc, hin⟩
    obtain ⟨⟨o, ho, rfl⟩, -⟩ := mem_cuts.mp hc
    exact ⟨o, ho, (hcut o).mp hin⟩
  · rintro ⟨o, ho, hin⟩
    have hin' := (hcut o).mpr hin
    exact ⟨p.cut o, mem_cuts.mpr ⟨⟨o, ho, rfl⟩, hin'.1.trans_lt hin'.2⟩, hin'⟩

theorem pieces_at_end (hend : p.endedAt = some cursor) (hb : ∀ c ∈ cuts, ∀ e ∈ p.endedAt, c.b ≤ e)
    (n : Nat) : p.pieces cuts cursor n = [] := by
  induction cuts with
  | nil => simp [PeriodDTO.pieces, hend]
  | cons c cuts ih =>
    have hle : c.b ≤ cursor := hb c mem_cons_self cursor hend
    rw [PeriodDTO.pieces, if_pos (hle.trans (le_max_right _ _))]
    exact ih fun c' hc' => hb c' (mem_cons_of_mem _ hc')

theorem pieces_joins (hb : ∀ c ∈ cuts, ∀ e ∈ p.endedAt, c.b ≤ e)
    (hcursor : ∀ e ∈ p.endedAt, cursor < e)
    (n : Nat) : Span.Joins ((p.pieces cuts cursor n).map PeriodDTO.span) ⟨cursor, p.endedAt⟩ := by
  induction cuts generalizing cursor n with
  | nil =>
    have hall : p.endedAt.all (decide <| cursor < ·) = true := by
      rw [Option.all_eq_true]
      exact fun e he => decide_eq_true (hcursor e he)
    rw [PeriodDTO.pieces, if_pos hall]
    exact .single fun e he => (hcursor e he).le
  | cons c cuts ih =>
    have hrest : ∀ c' ∈ cuts, ∀ e ∈ p.endedAt, c'.b ≤ e := fun c' hc' => hb c' (mem_cons_of_mem _ hc')
    rw [PeriodDTO.pieces]
    split
    next => exact ih hrest hcursor n
    next hab =>
      rw [not_le] at hab
      -- the outage's piece and what follows it make up the period from the piece on
      have hpiece (n : Nat) (isOpen : Bool) (hopen : isOpen = true → p.endedAt = none) :
          Span.Joins ((p.outagePiece c (max c.a cursor) isOpen ::
            if isOpen then [] else p.pieces cuts c.b n).map PeriodDTO.span)
            ⟨max c.a cursor, p.endedAt⟩ := by
        rcases isOpen with _ | _
        · by_cases hend : p.endedAt = some c.b
          · rw [pieces_at_end hend hrest, hend]
            exact .single fun e he => by
              obtain rfl := Option.some.inj he
              exact hab.le
          · refine .cons hab.le (ih hrest (fun e he => ?_) n)
            refine lt_of_le_of_ne (hb c mem_cons_self e he) fun heq => hend ?_
            rw [heq]
            exact he
        · rw [hopen rfl]
          exact .single nofun
      have hnone : (c.o.ongoing && p.endedAt.isNone && decide (c.o.stop ≤ c.b)) = true →
          p.endedAt = none := by
        simp +contextual
      split
      next hlt => exact .cons hlt.le (hpiece _ _ hnone)
      next hlt =>
        have hmax : max c.a cursor = cursor := max_eq_right (not_lt.mp hlt |> (le_max_left _ _).trans)
        have h := hpiece n _ hnone
        rwa [hmax] at h ⊢

theorem le_pieces_start (hb : ∀ c ∈ cuts, ∀ e ∈ p.endedAt, c.b ≤ e) {n : Nat}
    (hcursor : ∀ e ∈ p.endedAt, cursor ≤ e) : ∀ q ∈ p.pieces cuts cursor n,
    cursor ≤ q.startedAt := by
  intro q hq
  by_cases hend : p.endedAt = some cursor
  · rw [pieces_at_end hend hb] at hq
    cases hq
  · have hlt : ∀ e ∈ p.endedAt, cursor < e := by
      intro e he
      refine lt_of_le_of_ne (hcursor e he) fun heq => hend ?_
      rw [heq]
      exact he
    exact (pieces_joins hb hlt n).start_le _ (mem_map_of_mem hq)

theorem pieces_disconnected (hkind : p.kind = .active) (hb : ∀ c ∈ cuts, ∀ e ∈ p.endedAt, c.b ≤ e)
    (hab : ∀ c ∈ cuts, c.a < c.b) (hsorted : cuts.Pairwise fun x y => x.a ≤ y.a)
    (hcursor : ∀ e ∈ p.endedAt, cursor ≤ e) (hct : cursor ≤ t)
    (hopen : ∀ c ∈ cuts, c.o.ongoing = true → p.endedAt = none → c.o.stop ≤ c.b → t < c.b)
    (n : Nat) : (∃ q ∈ p.pieces cuts cursor n, q.kind = .disconnected ∧ q.span.Covers t) ↔
      ∃ c ∈ cuts, c.a ≤ t ∧ t < c.b := by
  have hactive (n : Nat) (start : Int) (stop : Option Int) :
      (p.activePiece n start stop).kind ≠ .disconnected := by
    rw [show (p.activePiece n start stop).kind = p.kind from rfl, hkind]
    exact nofun
  induction cuts generalizing cursor n with
  | nil =>
    rw [PeriodDTO.pieces]
    split <;> simp [hactive]
  | cons c cuts ih =>
    obtain ⟨hfirst, hsorted⟩ := pairwise_cons.mp hsorted
    have hbc := hb c mem_cons_self
    have habc := hab c mem_cons_self
    have hopenc := hopen c mem_cons_self
    have hb' : ∀ c' ∈ cuts, ∀ e ∈ p.endedAt, c'.b ≤ e := fun c' hc' => hb c' (mem_cons_of_mem _ hc')
    have ih' {cursor : Int} (hcursor : ∀ e ∈ p.endedAt, cursor ≤ e) (hct : cursor ≤ t) (n : Nat) :
        (∃ q ∈ p.pieces cuts cursor n, q.kind = .disconnected ∧ q.span.Covers t) ↔
          ∃ c ∈ cuts, c.a ≤ t ∧ t < c.b :=
      ih hb' (fun c' hc' => hab c' (mem_cons_of_mem _ hc')) hsorted hcursor hct
        (fun c' hc' => hopen c' (mem_cons_of_mem _ hc')) n
    rw [PeriodDTO.pieces, exists_mem_cons_iff]
    split
    next hle =>
      -- the outage lies behind the cursor
      have hcb : c.b ≤ cursor := by omega
      rw [ih' hcursor hct n]
      have hnot : ¬ (c.a ≤ t ∧ t < c.b) := fun h => absurd (hcb.trans hct) (not_le.mpr h.2)
      rw [or_iff_right hnot]
    next hle =>
      -- the piece made for `c`, and what follows it
      have hpiece (n : Nat) : (∃ q ∈ p.outagePiece c (max c.a cursor)
            (c.o.ongoing && p.endedAt.isNone && decide (c.o.stop ≤ c.b)) ::
          (if (c.o.ongoing && p.endedAt.isNone && decide (c.o.stop ≤ c.b)) = true then []
            else p.pieces cuts c.b n), q.kind = .disconnected ∧ q.span.Covers t) ↔
          (c.a ≤ t ∧ t < c.b) ∨ ∃ c' ∈ cuts, c'.a ≤ t ∧ t < c'.b := by
        rw [exists_mem_cons_iff]
        by_cases hgoes : (c.o.ongoing && p.endedAt.isNone && decide (c.o.stop ≤ c.b)) = true
        · have htb : t < c.b := by
            simp only [Bool.and_eq_true, Option.isNone_iff_eq_none, decide_eq_true_eq] at hgoes
            exact hopenc hgoes.1.1 hgoes.1.2 hgoes.2
          rw [hgoes]
          have hcov : (p.outagePiece c (max c.a cursor) true).span.Covers t ↔ c.a ≤ t := by
            simp [Span.Covers, PeriodDTO.outagePiece, hct]
          constructor
          · rintro (⟨-, h⟩ | ⟨q, hq, -⟩)
            · exact .inl ⟨hcov.mp h, htb⟩
            · cases hq
          · rintro (⟨h, -⟩ | ⟨c', hc', h, -⟩)
            · exact .inl ⟨rfl, hcov.mpr h⟩
            · exact .inl ⟨rfl, hcov.mpr ((hfirst c' hc').trans h)⟩
        · rw [Bool.not_eq_true] at hgoes
          rw [hgoes, if_neg Bool.false_ne_true]
          have hcov : (p.outagePiece c (max c.a cursor) false).span.Covers t ↔ c.a ≤ t ∧ t < c.b := by
            simp [Span.Covers, PeriodDTO.outagePiece, hct]
          rcases lt_or_ge t c.b with htb | hbt
          · -- what follows starts later
            have hlater : ¬ ∃ q ∈ p.pieces cuts c.b n, q.kind = .disconnected ∧ q.span.Covers t := by
              rintro ⟨q, hq, -, hcq⟩
              exact absurd ((le_pieces_start hb' hbc q hq).trans hcq.1) (not_le.mpr htb)
            constructor
            · rintro (⟨-, h⟩ | h)
              · exact .inl (hcov.mp h)
              · exact absurd h hlater
            · rintro (h | ⟨c', hc', h, -⟩)
              · exact .inl ⟨rfl, hcov.mpr h⟩
              · exact .inl ⟨rfl, hcov.mpr ⟨(hfirst c' hc').trans h, htb⟩⟩
          · rw [ih' hbc hbt n, hcov]
            simp [PeriodDTO.outagePiece]
      split
      next =>
        rw [exists_mem_cons_iff, hpiece]
        simp [hactive]
      next => exact hpiece n

/-! ## The report's periods -/

theorem splitPeriod_of_ne (h : p.kind ≠ .active) : splitPeriod outages p = [p] := by
  rw [splitPeriod, if_pos h]

theorem splitPeriod_joins (hp : p.span.Forward) :
    Span.Joins ((splitPeriod outages p).map PeriodDTO.span) p.span := by
  rw [splitPeriod]
  split
  next => exact .single hp
  next =>
    split
    next => exact .single hp
    next c cuts hcuts =>
      rw [← hcuts]
      refine pieces_joins (fun c hc => le_of_mem_cuts hc) (fun e he => ?_) 0
      have hc : c ∈ p.cuts outages := by
        rw [hcuts]
        exact mem_cons_self
      obtain ⟨⟨o, -, rfl⟩, hab⟩ := mem_cuts.mp hc
      exact ((le_max_left _ _).trans_lt hab).trans_le (le_of_mem_cuts hc e he)

theorem splitPeriod_disconnected (hkind : p.kind = .active) (ht : p.span.Covers t)
    (hopen : ∀ o ∈ outages, o.ongoing = true → t < o.stop) :
    (∃ q ∈ splitPeriod outages p, q.kind = .disconnected ∧ q.span.Covers t) ↔
      ∃ o ∈ outages, o.start ≤ t ∧ t < o.stop := by
  rw [← exists_cut_iff ht, splitPeriod, if_neg (not_not.mpr hkind)]
  split
  next hcuts =>
    rw [hcuts]
    simp [hkind]
  next c cuts hcuts =>
    rw [← hcuts]
    refine pieces_disconnected hkind (fun c hc => le_of_mem_cuts hc) (fun c hc => (mem_cuts.mp hc).2)
      cuts_sorted (fun e he => ht.1.trans (ht.2 e he).le) ht.1 (fun c hc hongoing hend _ => ?_) 0
    obtain ⟨⟨o, ho, rfl⟩, -⟩ := mem_cuts.mp hc
    simpa [PeriodDTO.cut, hend] using hopen o ho hongoing

theorem mem_pieces {q : PeriodDTO} {n : Nat} (hq : q ∈ p.pieces cuts cursor n) :
    (q.kind = p.kind ∨ q.kind = .disconnected) ∧
      ∀ m, cursor ≤ m → (∀ c ∈ cuts, c.b ≤ m) → q.startedAt ≤ m := by
  induction cuts generalizing cursor n with
  | nil =>
    rw [PeriodDTO.pieces] at hq
    split at hq
    · obtain rfl := mem_singleton.mp hq
      exact ⟨.inl rfl, fun m hm _ => hm⟩
    · cases hq
  | cons c cuts ih =>
    rw [PeriodDTO.pieces] at hq
    split at hq
    · exact ⟨(ih hq).1, fun m hm hb => (ih hq).2 m hm fun c hc => hb c (mem_cons_of_mem _ hc)⟩
    next hab =>
      -- the outage's piece, or one after it
      have hrest {n : Nat} {isOpen : Bool} (hq : q ∈ p.outagePiece c (max c.a cursor) isOpen ::
          if isOpen = true then [] else p.pieces cuts c.b n) :
          (q.kind = p.kind ∨ q.kind = .disconnected) ∧
            ∀ m, cursor ≤ m → (∀ c' ∈ c :: cuts, c'.b ≤ m) → q.startedAt ≤ m := by
        rcases mem_cons.mp hq with rfl | hq
        · exact ⟨.inr rfl, fun m _ hb => (not_le.mp hab).le.trans (hb c mem_cons_self)⟩
        · split at hq
          · cases hq
          · exact ⟨(ih hq).1, fun m _ hb =>
              (ih hq).2 m (hb c mem_cons_self) fun c' hc' => hb c' (mem_cons_of_mem _ hc')⟩
      split at hq
      · rcases mem_cons.mp hq with rfl | hq
        · exact ⟨.inl rfl, fun m hm _ => hm⟩
        · exact hrest hq
      · exact hrest hq

theorem splitPeriod_kind (hkind : p.kind = .active) :
    ∀ q ∈ splitPeriod outages p, q.kind = .active ∨ q.kind = .disconnected := by
  intro q hq
  rw [splitPeriod, if_neg (not_not.mpr hkind)] at hq
  split at hq
  · obtain rfl := mem_singleton.mp hq
    exact .inl hkind
  · exact hkind ▸ (mem_pieces hq).1

theorem splitPeriod_started (ht : p.startedAt ≤ t) (hover : ∀ o ∈ outages, o.stop ≤ t) :
    ∀ q ∈ splitPeriod outages p, q.startedAt ≤ t := by
  intro q hq
  rw [splitPeriod] at hq
  split at hq
  · rwa [mem_singleton.mp hq]
  · split at hq
    · rwa [mem_singleton.mp hq]
    next c cuts hcuts =>
      refine (mem_pieces hq).2 t ht fun c' hc' => ?_
      obtain ⟨⟨o, ho, rfl⟩, -⟩ := mem_cuts.mp (hcuts ▸ hc' : c' ∈ p.cuts outages)
      refine le_trans ?_ (hover o ho)
      cases he : p.endedAt with
      | none => simp [PeriodDTO.cut, he]
      | some e => simp [PeriodDTO.cut, he]

variable {periods : List PeriodDTO}

section

variable (hforward : ∀ p ∈ periods, p.span.Forward)
include hforward

theorem splitPeriods_inOrder (horder : periods.Pairwise fun p q => p.span.Before q.span) :
    (periods.flatMap (splitPeriod outages)).Pairwise fun p q => p.span.Before q.span :=
  Span.inOrder_flatMap horder fun p hp => splitPeriod_joins (hforward p hp)

theorem splitPeriods_forward : ∀ q ∈ periods.flatMap (splitPeriod outages), q.span.Forward := by
  intro q hq
  obtain ⟨p, hp, hq⟩ := mem_flatMap.mp hq
  exact (splitPeriod_joins (hforward p hp)).forward_of_mem _ (mem_map_of_mem hq)

theorem withUnobservedOutages_eq (horder : periods.Pairwise fun p q => p.span.Before q.span) :
    withUnobservedOutages periods outages = periods.flatMap (splitPeriod outages) := by
  rw [withUnobservedOutages]
  split
  next h =>
    have hsplit : splitPeriod outages = fun p => [p] := by
      funext p
      simp [splitPeriod, h, PeriodDTO.cuts]
    rw [hsplit, flatMap_singleton']
  next =>
    have horder' : (periods.flatMap (splitPeriod outages)).Pairwise fun p q => p.span.Before q.span :=
      splitPeriods_inOrder hforward horder
    have hsorted := horder'.imp_of_mem fun {p q} hp _ hpq => show p.startedAt ≤ q.startedAt by
      obtain ⟨e, he, hle⟩ := hpq
      exact (splitPeriods_forward hforward p hp e he).trans hle
    exact hsorted.insertionSort_eq

end

/-- The periods a report shows: the unobserved outages cut out of the active ones. -/
def reportPeriods (periods : List PeriodDTO) (outages : List OutageLike) (late : List LateCapture)
    (endAt : Int) : List PeriodDTO :=
  withUnobservedOutages periods (unobservedOutages outages late endAt)

/-- **The outages are cut out exactly.**  Of periods in order the report shows periods in order,
what it shows of each period making up that period: one that is not active is unchanged, and the
pieces of an active one, up to `endAt`, are `disconnected` exactly where an unobserved outage was
going on.  From `endAt` on the last piece continues a period that is going on. -/
theorem outages_split (periods : List PeriodDTO) (outages : List OutageLike)
    (late : List LateCapture) (endAt : Int) (hforward : ∀ p ∈ periods, p.span.Forward)
    (horder : periods.Pairwise fun p q => p.span.Before q.span) :
    (reportPeriods periods outages late endAt).Pairwise (fun p q => p.span.Before q.span) ∧
      (∀ q ∈ reportPeriods periods outages late endAt, q.span.Forward) ∧
      ∃ split : PeriodDTO → List PeriodDTO,
        reportPeriods periods outages late endAt = periods.flatMap split ∧
        ∀ p ∈ periods,
          (p.kind ≠ .active → split p = [p]) ∧
          (p.kind = .active →
            Span.Joins ((split p).map PeriodDTO.span) p.span ∧
            (p.endedAt ≠ none → ((split p).map fun q => q.span.length).sum = p.span.length) ∧
            (∃ q, (split p).getLast? = some q ∧ q.endedAt = p.endedAt) ∧
            (∀ q ∈ split p, q.kind = .active ∨ q.kind = .disconnected) ∧
            ∀ t, p.span.Covers t → t < endAt →
              ((∃ q ∈ split p, q.kind = .disconnected ∧ q.span.Covers t) ↔
                UnobservedAt outages late endAt t)) ∧
          (p.endedAt = none → ∀ t, p.startedAt ≤ t → endAt ≤ t →
            ∃ q, (split p).getLast? = some q ∧ q.span.Covers t) := by
  rw [reportPeriods, withUnobservedOutages_eq hforward horder]
  refine ⟨splitPeriods_inOrder hforward horder, splitPeriods_forward hforward,
    splitPeriod (unobservedOutages outages late endAt), rfl, fun p hp => ?_⟩
  have hjoins : Span.Joins ((splitPeriod (unobservedOutages outages late endAt) p).map PeriodDTO.span)
      p.span := splitPeriod_joins (hforward p hp)
  obtain ⟨last, hlast, hstop⟩ :
      ∃ q, (splitPeriod (unobservedOutages outages late endAt) p).getLast? = some q ∧
      q.endedAt = p.endedAt := by
    obtain ⟨q, hq, hstop⟩ := hjoins.getLast
    rw [getLast?_map, Option.map_eq_some_iff] at hq
    obtain ⟨q, hq, rfl⟩ := hq
    exact ⟨q, hq, hstop⟩
  refine ⟨splitPeriod_of_ne, fun hkind => ⟨hjoins, fun hend => ?_, ⟨last, hlast, hstop⟩,
    splitPeriod_kind hkind,
    fun t ht htEnd => ?_⟩, fun hnone t ht hpast => ⟨last, hlast, ?_, fun e he => ?_⟩⟩
  · have hsum := hjoins.sum_length hend
    rwa [map_map] at hsum
  · rw [splitPeriod_disconnected hkind ht fun o ho hongoing => by
      rwa [(stop_le_endAt ho).2 hongoing], mem_unobservedOutages]
  · exact splitPeriod_started ht (fun o ho => (stop_le_endAt ho).1.trans hpast) last (mem_of_getLast? hlast)
  · -- the last piece is open
    rw [PeriodDTO.span_stop, hstop, hnone] at he
    cases he

/-- An exam going on since 0. -/
def goingOn : PeriodDTO := { id := "p", kind := .active, observed := true, startedAt := 0, endedAt := none }

/-- The browser is gone since 10. -/
def goneSince : OutageLike := { id := "e", startedAt := 10, endedAt := none }

/-- An exam that went on from 0 to 100 and was then paused. -/
def pausedAfter : List PeriodDTO :=
  [{ goingOn with endedAt := some 100 }, { goingOn with id := "q", kind := .paused, startedAt := 100 }]

theorem pausedAfter_forward : ∀ p ∈ pausedAfter, p.span.Forward := by
  simp [pausedAfter, goingOn, Span.Forward]

theorem pausedAfter_inOrder : pausedAfter.Pairwise fun p q => p.span.Before q.span := by
  simp [pausedAfter, goingOn, Span.Before]

theorem outages_split_gone :
    ((∀ p ∈ pausedAfter, p.span.Forward) ∧ pausedAfter.Pairwise fun p q => p.span.Before q.span) ∧
      (reportPeriods pausedAfter [{ goneSince with endedAt := some 40 }] [] 200).Pairwise
        (fun p q => p.span.Before q.span) ∧
      (reportPeriods pausedAfter [{ goneSince with endedAt := some 40 }] [] 200).map (·.kind) =
        [.active, .disconnected, .active, .paused] :=
  ⟨⟨pausedAfter_forward, pausedAfter_inOrder⟩,
    (outages_split pausedAfter [{ goneSince with endedAt := some 40 }] [] 200 pausedAfter_forward
      pausedAfter_inOrder).1,
    by decide⟩

/-- Past `endAt` an open end decides, not the outage.  The browser is gone from 10 on and the report
is made at 100: the open `disconnected` piece holds 200, the outage, clipped to 100, does not.  If
another outage from 10 has ended just at 100, the piece ends with it, though the browser is still
gone. -/
theorem open_end_past_endAt :
    goingOn.span.Covers 200 ∧
      ¬ ((∃ q ∈ reportPeriods [goingOn] [goneSince] [] 100, q.kind = .disconnected ∧ q.span.Covers 200) ↔
        UnobservedAt [goneSince] [] 100 200) ∧
      (reportPeriods [goingOn] [{ goneSince with endedAt := some 100 }, { goneSince with startedAt := 20 }]
          [] 100).map (fun q => (q.kind, q.startedAt, q.endedAt)) =
        [(.active, 0, some 10), (.disconnected, 10, some 100), (.active, 100, none)] := by
  refine ⟨by simp [goingOn, Span.Covers], fun h => ?_, by decide⟩
  have hpieces : reportPeriods [goingOn] [goneSince] [] 100 =
      [{ goingOn with endedAt := some 10 },
        { goingOn with
          id := "outage:e:p", kind := .disconnected, observed := false, startedAt := 10
          reason := some GAP_NOT_REPORTING, metadata := .derived "e" none }] := by decide
  obtain ⟨e, -, -, hlt, -⟩ := h.mp ⟨_, by rw [hpieces]; exact mem_cons_of_mem _ mem_cons_self,
    rfl, by simp [goingOn, Span.Covers]⟩
  exact absurd (hlt.trans_le (min_le_right _ _)) (by decide)

end SmartProctoring
