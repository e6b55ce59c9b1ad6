import SmartProctoring.Lib.Span
import SmartProctoring.Server.Runs

/-!
# Periods partition the session's timeline

No instant belongs to two periods of a session, as long as no check and no reopening reaches back
behind the end of a completed period.  Most operations insert a period at the server's time, which
is after everything else.  Three do not: the end of an exam in a reporting gap splits the active
periods of the gap, a check inserts periods that began before it, and a reopening inserts one that
began at the old end.  The first stays inside the periods it splits; the other two do what
`GapClear` says.

The rules of `Lib.Span` carry the argument; `Periods.Sound` is the invariant of a list of periods
and `Lifecycle.Partitioned` that of a session.
-/

set_option autoImplicit false

namespace SmartProctoring

open List

/-- The half-open interval a period covers. -/
def SessionPeriod.span (p : SessionPeriod) : Span Int := ⟨p.startedAt, p.endedAt⟩

theorem SessionPeriod.containsInstant_iff {p : SessionPeriod} {t : Int} :
    p.containsInstant t = true ↔ p.span.Covers t := by
  cases h : p.endedAt <;> simp [containsInstant, Span.Covers, span, h]

theorem SessionPeriod.isOpen_iff {p : SessionPeriod} : p.isOpen = true ↔ p.endedAt = none := by
  rw [isOpen, Option.isNone_iff_eq_none]

namespace Periods

/-- The periods are apart, ordered in themselves, and not in the future. -/
structure Sound (now : Int) (ps : List SessionPeriod) : Prop where
  apart : PairwiseApart SessionPeriod.span ps
  past : ∀ p ∈ ps, p.startedAt ≤ now ∧ ∀ e ∈ p.endedAt, p.startedAt ≤ e ∧ e ≤ now

/-- No period is open. -/
def AllClosed (ps : List SessionPeriod) : Prop := ∀ p ∈ ps, p.isOpen = false

variable {now t : Int} {ps : List SessionPeriod} {p row : SessionPeriod}

theorem Sound.mono {now' : Int} (h : Sound now ps) (hn : now ≤ now') : Sound now' ps := by
  refine ⟨h.apart, fun p hp => ⟨(h.past p hp).1.trans hn, fun e he => ?_⟩⟩
  obtain ⟨hs, hle⟩ := (h.past p hp).2 e he
  exact ⟨hs, hle.trans hn⟩

theorem Sound.clearBy_now (h : Sound now ps) : ClearBy ps now :=
  fun p hp e he _ => ((h.past p hp).2 e he).2

/-! ## Closing -/

theorem modifyLast_eq_map {α : Type} {sel : α → Bool} {f : α → α} {l : List α}
    (h : l.Pairwise fun x y => ¬ (sel x = true ∧ sel y = true)) :
    modifyLast sel f l = l.map fun x => if sel x then f x else x := by
  induction l with
  | nil => rfl
  | cons x l ih =>
    rw [pairwise_cons] at h
    rw [modifyLast, map_cons, ih h.2]
    by_cases hx : sel x = true
    · have hno : l.any sel = false := by
        rw [any_eq_false]
        intro y hy hsel
        exact h.1 y hy ⟨hx, hsel⟩
      have hid : (l.map fun y => if sel y then f y else y) = l := by
        conv_rhs => rw [← map_id l]
        refine map_congr_left fun y hy => ?_
        rw [if_neg (any_eq_false.1 hno y hy), id]
      rw [if_pos (by simp [hx, hno]), if_pos hx, hid]
    · rw [if_neg (by simp [hx]), if_neg hx]

theorem Sound.at_most_one_open (h : Sound now ps) :
    ps.Pairwise fun p q => ¬ (p.isOpen = true ∧ q.isOpen = true) := by
  refine h.apart.at_most_one_open.imp fun {p q} hpq hopen => hpq ?_
  exact ⟨SessionPeriod.isOpen_iff.1 hopen.1, SessionPeriod.isOpen_iff.1 hopen.2⟩

theorem Sound.modifyLast_eq_map (h : Sound now ps) (f : SessionPeriod → SessionPeriod) :
    modifyLast (·.isOpen) f ps = ps.map fun p => if p.isOpen then f p else p :=
  Periods.modifyLast_eq_map h.at_most_one_open

theorem Sound.closeOpen_eq (h : Sound now ps) (atMs : Int) :
    closeOpen ps atMs = ps.map fun p => if p.isOpen then p.closeAt atMs else p :=
  h.modifyLast_eq_map _

theorem closeAt_within (p : SessionPeriod) (hp : p.isOpen = true) (atMs : Int) :
    (p.closeAt atMs).span.Within p.span := by
  rw [SessionPeriod.isOpen_iff] at hp
  exact Span.within_of_le le_rfl fun e he => by simp [SessionPeriod.span, hp] at he

theorem Sound.closeOpen (h : Sound now ps) {atMs : Int} (hat : atMs ≤ now) :
    Sound now (closeOpen ps atMs) := by
  rw [h.closeOpen_eq]
  refine ⟨h.apart.shrink fun p hp => ?_, fun p' hp' => ?_⟩
  · split
    next hopen => exact closeAt_within p hopen atMs
    next => exact Span.Within.refl _
  · obtain ⟨p, hp, rfl⟩ := mem_map.1 hp'
    obtain ⟨hs, he⟩ := h.past p hp
    split
    · refine ⟨hs, ?_⟩
      rintro e ⟨⟩
      exact ⟨le_max_left _ _, max_le hs hat⟩
    · exact ⟨hs, he⟩

theorem Sound.allClosed_closeOpen (h : Sound now ps) (atMs : Int) :
    AllClosed (Periods.closeOpen ps atMs) := by
  rw [h.closeOpen_eq]
  intro p' hp'
  obtain ⟨p, -, rfl⟩ := mem_map.1 hp'
  split
  · rfl
  next hopen => exact Bool.eq_false_iff.2 hopen

theorem Sound.clearBy_closeOpen (h : Sound now ps) (atMs : Int) (hclear : ClearBy ps t)
    (hat : ∀ p ∈ ps, p.isOpen = true → p.startedAt < atMs → atMs ≤ t) :
    ClearBy (Periods.closeOpen ps atMs) t := by
  rw [h.closeOpen_eq]
  intro p' hp' e he hlt
  obtain ⟨p, hp, rfl⟩ := mem_map.1 hp'
  by_cases hopen : p.isOpen = true
  · rw [if_pos hopen] at he hlt
    obtain rfl := Option.some.inj he
    have hlt : p.startedAt < max p.startedAt atMs := hlt
    have hcut : p.startedAt < atMs := by omega
    rw [max_eq_right hcut.le]
    exact hat p hp hopen hcut
  · rw [if_neg hopen] at he hlt
    exact hclear p hp e he hlt

/-! ## Inserting -/

theorem mem_insert {q : SessionPeriod} : q ∈ insert ps row ↔ q = row ∨ q ∈ ps := by
  rw [insert, mem_orderedInsert]

theorem Sound.insert (h : Sound now ps) (hs : row.startedAt ≤ now)
    (he : ∀ e ∈ row.endedAt, row.startedAt ≤ e ∧ e ≤ now)
    (hrow : ∀ q ∈ ps, row.span.Apart q.span) : Sound now (insert ps row) := by
  refine ⟨h.apart.insert _ hrow, fun q hq => ?_⟩
  obtain rfl | hq := mem_insert.1 hq
  · exact ⟨hs, he⟩
  · exact h.past q hq

theorem ClearBy.apart (h : ClearBy ps t) (hclosed : AllClosed ps) (ht : t ≤ row.startedAt) :
    ∀ q ∈ ps, row.span.Apart q.span := by
  intro q hq
  obtain ⟨e, he⟩ : ∃ e, q.endedAt = some e := by
    cases he : q.endedAt with
    | none =>
      have hq' := hclosed q hq
      rw [SessionPeriod.isOpen_iff.2 he] at hq'
      cases hq'
    | some e => exact ⟨e, rfl⟩
  by_cases hlt : q.startedAt < e
  · exact (Span.apart_of_stop_le he ((h q hq e he hlt).trans ht)).symm
  · exact (Span.apart_of_empty he (not_lt.1 hlt)).symm

theorem allClosed_insert (h : AllClosed ps) (hrow : row.isOpen = false) :
    AllClosed (insert ps row) := by
  intro q hq
  rcases mem_insert.1 hq with rfl | hq
  · exact hrow
  · exact h q hq

theorem Sound.insert_of_clear (h : Sound now ps) (hclosed : AllClosed ps)
    (hclear : ClearBy ps row.startedAt) (hs : row.startedAt ≤ now)
    (he : ∀ e ∈ row.endedAt, row.startedAt ≤ e ∧ e ≤ now) :
    Sound now (Periods.insert ps row) :=
  h.insert hs he (hclear.apart hclosed le_rfl)

theorem Sound.switch (h : Sound now ps) (hs : row.startedAt = now) (he : row.endedAt = none) :
    Sound now (switch ps row) := by
  have hc := h.closeOpen hs.le
  refine hc.insert_of_clear (h.allClosed_closeOpen _) (hs ▸ hc.clearBy_now) hs.le fun e hmem => ?_
  rw [he] at hmem
  cases hmem

theorem Sound.hold (h : Sound now ps) (reason : HoldReason) (prev : SessionStatus) :
    Sound now (Periods.hold ps now reason prev) := by
  rw [Periods.hold]
  split
  · rw [h.modifyLast_eq_map]
    have hspan : ∀ p : SessionPeriod, (if p.isOpen then { p with reason := PeriodReason.hold reason }
        else p).span = p.span := fun p => by split <;> rfl
    refine ⟨h.apart.shrink fun p _ => by rw [hspan]; exact Span.Within.refl _, fun q hq => ?_⟩
    obtain ⟨p, hp, rfl⟩ := mem_map.1 hq
    have hpast := h.past p hp
    split <;> exact hpast
  · exact h.switch rfl rfl

/-! ## The end in a reporting gap -/

section Carve

variable {gapStart stop : Int} {evId : EventId} {endReason : SessionEndReason}

/-- What ending `p` at `cut` does: `p` shrinks to end no later than that, and the others stay. -/
structure EndedAt (now cut : Int) (ps : List SessionPeriod) (p : SessionPeriod)
    (f : SessionPeriod → SessionPeriod) : Prop where
  others : ∀ q ∈ ps, q ≠ p → f q = q
  within : (f p).span.Within p.span
  start : (f p).startedAt = p.startedAt
  stop : ∃ e, (f p).endedAt = some e ∧ p.startedAt ≤ e ∧ e ≤ cut ∧ e ≤ now
  empty : (∃ e ∈ p.endedAt, e ≤ p.startedAt) → f p = p

theorem Sound.endAt (h : Sound now ps) (hp : p ∈ ps) {cut : Int} (hcut : p.startedAt ≤ cut)
    (hnow : cut ≤ now) : ∃ f, endAt ps p cut = ps.map f ∧ EndedAt now cut ps p f := by
  rw [Periods.endAt]
  split
  next hopen =>
    rw [← SessionPeriod.isOpen_iff] at hopen
    refine ⟨_, h.closeOpen_eq cut, fun q hq hqp => ?_, ?_, ?_, ⟨cut, ?_, hcut, le_rfl, hnow⟩, ?_⟩
    · -- only one period is open
      refine if_neg fun hqo => (h.apart.apart hq hp hqp).not_both_open ⟨?_, ?_⟩
      · exact SessionPeriod.isOpen_iff.1 hqo
      · exact SessionPeriod.isOpen_iff.1 hopen
    · rw [if_pos hopen]
      exact closeAt_within p hopen cut
    · rw [if_pos hopen]
      rfl
    · rw [if_pos hopen, SessionPeriod.closeAt, max_eq_right hcut]
    · rintro ⟨e, he, -⟩
      rw [SessionPeriod.isOpen_iff.1 hopen] at he
      cases he
  next e he =>
    obtain ⟨hse, hen⟩ := (h.past p hp).2 e he
    split
    next hlt =>
      refine ⟨_, rfl, fun q _ hqp => if_neg hqp, ?_, ?_, ⟨cut, ?_, hcut, le_rfl, hnow⟩, ?_⟩
      · rw [if_pos rfl]
        exact Span.within_of_le le_rfl fun e' he' => ⟨cut, rfl, by
          obtain rfl := Option.some.inj (he.symm.trans he')
          exact hlt.le⟩
      · rw [if_pos rfl]
      · rw [if_pos rfl]
      · rintro ⟨e', he', hempty⟩
        obtain rfl := Option.some.inj (he.symm.trans he')
        exact absurd (hlt.trans_le hempty) (not_lt.2 hcut)
    next hlt =>
      exact ⟨id, (map_id ps).symm, fun q _ _ => rfl, Span.Within.refl _, rfl,
        ⟨e, he, hse, not_lt.1 hlt, hen⟩, fun _ => rfl⟩

theorem Sound.map_endedAt (h : Sound now ps) {cut : Int} {f : SessionPeriod → SessionPeriod}
    (hf : EndedAt now cut ps p f) : Sound now (ps.map f) ∧
      ∀ q ∈ ps, (f q).span.Within q.span := by
  have hwithin : ∀ q ∈ ps, (f q).span.Within q.span := by
    intro q hq
    by_cases hqp : q = p
    · rw [hqp]
      exact hf.within
    · rw [hf.others q hq hqp]
      exact Span.Within.refl _
  refine ⟨⟨h.apart.shrink hwithin, fun q' hq' => ?_⟩, hwithin⟩
  obtain ⟨q, hq, rfl⟩ := mem_map.1 hq'
  by_cases hqp : q = p
  · rw [hqp] at hq ⊢
    obtain ⟨e, he, hse, -, hen⟩ := hf.stop
    rw [hf.start]
    refine ⟨(h.past p hq).1, fun e' he' => ?_⟩
    obtain rfl := Option.some.inj (he.symm.trans he')
    exact ⟨hse, hen⟩
  · rw [hf.others q hq hqp]
    exact h.past q hq

theorem Sound.cutActive (h : Sound now ps) (evId : EventId) (endReason : SessionEndReason)
    (hp : p ∈ ps) (hps : p.startedAt < stop)
    (hgap : gapStart < stop) (hstop : stop ≤ now) :
    Sound now (Periods.cutActive gapStart stop evId endReason ps p) ∧
      ∀ q ∈ ps, (q = p → ∃ e ∈ q.endedAt, e ≤ q.startedAt) →
        q ∈ Periods.cutActive gapStart stop evId endReason ps p := by
  have hcut : p.startedAt ≤ max p.startedAt gapStart := le_max_left _ _
  have hcutnow : max p.startedAt gapStart ≤ now := (max_lt hps hgap).le.trans hstop
  obtain ⟨f, hend, hf⟩ := h.endAt hp hcut hcutnow
  obtain ⟨hsound, hwithin⟩ := h.map_endedAt hf
  have hstay : ∀ q ∈ ps, (q = p → ∃ e ∈ q.endedAt, e ≤ q.startedAt) → q ∈ ps.map f := by
    intro q hq hempty
    refine mem_map.2 ⟨q, hq, ?_⟩
    by_cases hqp : q = p
    · rw [hqp]
      exact hf.empty (hqp ▸ hempty hqp)
    · exact hf.others q hq hqp
  rw [Periods.cutActive, hend]
  split
  next hlt =>
    have hto : min (p.endedAt.getD stop) stop ≤ stop := min_le_right _ _
    refine ⟨hsound.insert hcutnow ?_ ?_, fun q hq hempty => mem_insert.2 (.inr (hstay q hq hempty))⟩
    · rintro e ⟨⟩
      exact ⟨le_max_left _ _, max_le hcutnow (hto.trans hstop)⟩
    · refine PairwiseApart.split h.apart hp hwithin (Span.within_of_le hcut fun e he => ?_) ?_
      · refine ⟨_, rfl, ?_⟩
        have he' : p.endedAt = some e := he
        rw [he', Option.getD_some] at hlt ⊢
        omega
      · obtain ⟨e, he, -, hec, -⟩ := hf.stop
        exact Span.apart_of_stop_le he hec
  next => exact ⟨hsound, hstay⟩

theorem Sound.foldl_cutActive (hgap : gapStart < stop) (hstop : stop ≤ now)
    (active : List SessionPeriod) (hapart : PairwiseApart SessionPeriod.span active)
    (hactive : ∀ p ∈ active, p.startedAt < stop) :
    ∀ ps, Sound now ps → (∀ p ∈ active, p ∈ ps) →
      Sound now (active.foldl (Periods.cutActive gapStart stop evId endReason) ps) := by
  induction active with
  | nil => exact fun ps h _ => h
  | cons p active ih =>
    intro ps h hmem
    have hp := hmem p mem_cons_self
    obtain ⟨hsound, hstay⟩ := h.cutActive evId endReason hp (hactive p mem_cons_self) hgap hstop
    refine ih (List.Pairwise.of_cons hapart)
      (fun q hq => hactive q (mem_cons_of_mem _ hq)) _ hsound fun q hq => ?_
    refine hstay q (hmem q (mem_cons_of_mem _ hq)) ?_
    rintro rfl
    -- two entries of the same period are apart only if it is empty
    exact (rel_of_pairwise_cons hapart hq).empty_of_self

theorem Sound.carve (h : Sound now ps) (endReason : SessionEndReason)
    {gap : Option (Int × EventId)} (hstop : stop ≤ now) (hgap : ∀ g ∈ gap, g.1 < stop) :
    Sound now (Periods.carve ps gap stop endReason) := by
  rcases gap with _ | ⟨gapStart, evId⟩
  · exact h
  · have hlt : gapStart < stop := hgap _ rfl
    refine Sound.foldl_cutActive hlt hstop _ ?_ (fun p hp => ?_) _ h fun p hp => ?_
    · exact List.Pairwise.sublist filter_sublist h.apart
    · simp only [activeWithin, mem_filter, Bool.and_eq_true, decide_eq_true_eq] at hp
      exact hp.2.1.2
    · exact (mem_filter.1 hp).1

end Carve

/-! ## The gap before a check -/

theorem Sound.closeGap (h : Sound now ps) {check : Check} (instanceId : InstanceId) {gapStart : Int}
    (hissued : check.issuedAt ≤ now) (hg : gapStart ≤ check.issuedAt)
    (hclear : ClearBy ps (if check.purpose = .reconnect ∧
      (openRow ps).any (fun p => p.kind == .active) then gapStart else check.issuedAt)) :
    Sound now (Periods.closeGap ps now check instanceId gapStart) ∧
      AllClosed (Periods.closeGap ps now check instanceId gapStart) := by
  have hcheck : ∀ qs, Sound now qs → AllClosed qs → ClearBy qs check.issuedAt →
      Sound now (Periods.insert qs
        { kind := .resumeCheck
          startedAt := check.issuedAt
          endedAt := some (max check.issuedAt now)
          reason := .check check.purpose
          metadata := { checkId := some check.id } }) ∧
      AllClosed (Periods.insert qs
        { kind := .resumeCheck
          startedAt := check.issuedAt
          endedAt := some (max check.issuedAt now)
          reason := .check check.purpose
          metadata := { checkId := some check.id } }) := by
    intro qs hqs hclosed hclear
    refine ⟨hqs.insert_of_clear hclosed hclear hissued ?_, allClosed_insert hclosed rfl⟩
    rintro e ⟨⟩
    exact ⟨le_max_left _ _, max_le hissued le_rfl⟩
  rw [Periods.closeGap]
  cases hopen : openRow ps with
  | none =>
    -- nothing is open: only the check's own period is inserted
    rw [hopen] at hclear
    have hclosed : AllClosed ps := by
      rw [openRow, getLast?_eq_none_iff, filter_eq_nil_iff] at hopen
      exact fun p hp => Bool.eq_false_iff.2 (hopen p hp)
    exact hcheck ps h hclosed (by simpa using hclear)
  | some p =>
    have hp : p ∈ ps ∧ p.isOpen = true := mem_filter.1 (mem_of_getLast? hopen)
    have honly : ∀ q ∈ ps, q.isOpen = true → q = p := by
      intro q hq hqo
      by_contra hqp
      exact (h.apart.apart hq hp.1 hqp).not_both_open
        ⟨SessionPeriod.isOpen_iff.1 hqo, SessionPeriod.isOpen_iff.1 hp.2⟩
    rw [hopen] at hclear
    dsimp only
    by_cases hre : check.purpose = .reconnect ∧ p.kind = .active
    · rw [if_pos hre]
      rw [if_pos ⟨hre.1, by simp [hre.2]⟩] at hclear
      have hsound := h.closeOpen (hg.trans hissued)
      have hclosed := h.allClosed_closeOpen gapStart
      have hby := h.clearBy_closeOpen gapStart hclear fun _ _ _ _ => le_rfl
      by_cases hlt : gapStart < check.issuedAt
      · rw [if_pos hlt]
        refine hcheck _ (hsound.insert_of_clear hclosed hby (hg.trans hissued) ?_)
          (allClosed_insert hclosed rfl) ?_
        · rintro e ⟨⟩
          exact ⟨le_max_left _ _, max_le (hg.trans hissued) hissued⟩
        · intro q hq e he hqe
          rcases mem_insert.1 hq with rfl | hq
          · obtain rfl := Option.some.inj he
            exact max_le hg le_rfl
          · exact (hby q hq e he hqe).trans hg
      · rw [if_neg hlt]
        exact hcheck _ hsound hclosed fun q hq e he hqe => (hby q hq e he hqe).trans hg
    · rw [if_neg hre]
      rw [if_neg (by simpa using hre)] at hclear
      refine hcheck _ (h.closeOpen (max_le (h.past p hp.1).1 hissued)) (h.allClosed_closeOpen _) ?_
      refine h.clearBy_closeOpen _ hclear fun q hq hqo hlt => ?_
      rw [honly q hq hqo] at hlt
      omega

end Periods

/-! ## The invariant of a session -/

/-- The periods are sound, and none is open after the end. -/
structure Lifecycle.Partitioned (l : Lifecycle) : Prop where
  sound : Periods.Sound l.now l.periods
  closed : l.status.isTerminal → Periods.AllClosed l.periods

theorem Lifecycle.Partitioned.of_status {l : Lifecycle} (s : SessionStatus) (hl : l.status = s)
    (hs : ¬ s.isTerminal) (h : Periods.Sound l.now l.periods) : l.Partitioned :=
  ⟨h, fun ht => absurd (hl ▸ ht) hs⟩

/-- **A move keeps the periods apart.** -/
theorem Move.partitioned {G : Gate} (hgap : G.gap) {l l' : Lifecycle} (hm : Move G l l')
    (ht : l.Timely) (h : l.Partitioned) : l'.Partitioned := by
  have hclosed := h.sound.allClosed_closeOpen l.now
  have hnow := h.sound.closeOpen (le_refl l.now)
  cases hm
  case tick t hle => exact ⟨h.sound.mono hle, h.closed⟩
  case pause behavior reason _ _ =>
    cases behavior with
    | stop | «continue» => exact .of_status .paused rfl (by decide) (h.sound.switch rfl rfl)
  case hold reason _ => exact .of_status .onHold rfl (by decide) (h.sound.hold reason _)
  case finish endReason gap _ _ hlt _ =>
    have hend := Lifecycle.endInstant_le ht endReason
    have hcarve := h.sound.carve endReason hend hlt
    rw [Lifecycle.finish]
    split
    · exact ⟨hcarve.closeOpen hend, fun _ => hcarve.allClosed_closeOpen _⟩
    · exact ⟨hcarve.closeOpen hend, fun _ => hcarve.allClosed_closeOpen _⟩
  case start => exact .of_status .active rfl (by decide) (h.sound.switch rfl rfl)
  case release st _ hst =>
    exact .of_status st rfl (by rcases hst with rfl | rfl <;> decide) hnow
  case releaseActive =>
    refine .of_status .active rfl (by decide) ?_
    exact hnow.insert_of_clear hclosed hnow.clearBy_now le_rfl fun e he => by cases he
  case checkIn reason hs hp =>
    have hnone : Periods.AllClosed l.periods := by
      rw [Lifecycle.openPeriodRow, Periods.openRow, getLast?_eq_none_iff,
        filter_eq_nil_iff] at hp
      exact fun p hmem => Bool.eq_false_iff.2 (hp p hmem)
    refine .of_status .invited hs (by decide) ?_
    exact h.sound.insert_of_clear hnone h.sound.clearBy_now le_rfl fun e he => by cases he
  case ready => exact .of_status .ready rfl (by decide) hnow
  case gapHold check instanceId gapStart reason prev _ hok =>
    have hg := h.sound.closeGap instanceId (ht.checks _ hok.issued) hok.le (hok.clear hgap)
    exact .of_status .onHold rfl (by decide) (hg.1.hold reason prev)
  case gapContinue check instanceId gapStart reason _ hok =>
    have hg := h.sound.closeGap instanceId (ht.checks _ hok.issued) hok.le (hok.clear hgap)
    refine .of_status .active rfl (by decide) ?_
    exact hg.1.insert_of_clear hg.2 hg.1.clearBy_now le_rfl fun e he => by cases he
  case gapReady check instanceId gapStart _ hok =>
    have hg := h.sound.closeGap instanceId (ht.checks _ hok.issued) hok.le (hok.clear hgap)
    exact .of_status .ready rfl (by decide) hg.1
  case reopen addMs _ hs hclear _ =>
    rw [Lifecycle.reopen]
    split
    next hstarted =>
      have hold : l.endedAt.getD l.now ≤ l.now := by
        cases hend : l.endedAt with
        | none => exact le_rfl
        | some e => exact ht.ended e hend
      have hby : Periods.ClearBy l.periods (l.endedAt.getD l.now) := by
        cases hend : l.endedAt with
        | none => exact h.sound.clearBy_now
        | some e => exact hclear hgap hstarted e hend
      refine .of_status .onHold rfl (by decide) ?_
      exact h.sound.insert_of_clear (h.closed hs) hby hold fun e he => by cases he
    next => exact .of_status .invited rfl (by decide) h.sound
  all_goals exact ⟨h.sound, h.closed⟩

/-! ## Every reachable session -/

/-- The promise that checks and reopenings reach no further back than the completed periods
allow. -/
def Gate.gapClear : Gate := { Gate.free with gap := True }

theorem Gate.keeps_gapClear {m : SessionMutation} {op : Op} (h : GapClear m op) :
    Keeps gapClear m op :=
  { Gate.keeps_free m op with gap := fun _ => h }

theorem Lifecycle.partitioned_assigned (now durationMs extraMs : Int) :
    (assigned now durationMs extraMs).Partitioned :=
  ⟨⟨List.Pairwise.nil, fun _ hp => absurd hp not_mem_nil⟩,
    fun _ _ hp => absurd hp not_mem_nil⟩

/-- Where no check and no reopening reaches behind the end of a completed period, at most one period
is open and no instant belongs to two. -/
theorem periods_partition {m : SessionMutation} (h : (keeping GapClear).Reachable m) :
    (m.periods.Pairwise fun p q => ¬ (p.isOpen = true ∧ q.isOpen = true)) ∧
      m.periods.Pairwise fun p q =>
        ∀ t, ¬ (p.containsInstant t = true ∧ q.containsInstant t = true) := by
  obtain ⟨-, hpart⟩ := keeping_invariant (fun _ _ => Gate.keeps_gapClear)
    (fun now durationMs extraMs _ _ => Lifecycle.partitioned_assigned now durationMs extraMs)
    (fun _ _ ht hp hm => hm.partitioned trivial ht hp) h
  have hsound : Periods.Sound m.now m.periods := hpart.sound
  refine ⟨hsound.at_most_one_open, hsound.apart.imp fun {p q} hpq t ht => ?_⟩
  rw [SessionPeriod.containsInstant_iff, SessionPeriod.containsInstant_iff] at ht
  exact hpq t ht

/-- A started exam is such a session, and is still one after a hold and its release. -/
theorem periods_partition_released :
    let m := runRequests (startedExam {})
      [⟨20000, {}, .holdSession⟩, ⟨30000, {}, .releaseHold { requireCheck := false }⟩]
    (m.periods.Pairwise fun p q => ¬ (p.isOpen = true ∧ q.isOpen = true)) ∧
      m.periods.Pairwise fun p q =>
        ∀ t, ¬ (p.containsInstant t = true ∧ q.containsInstant t = true) :=
  periods_partition (keeping_started (by decide))

/-- An exam is put on hold at 20000, released at 30000 without a new check, and reopened in browser
2, whose reconnect check runs from 40000 to 41000.  Browser 1 was last heard from at 10000. -/
def releasedExam : List Request :=
  [⟨10000, {}, .heartbeat ⟨1⟩ { seq := 1 } none none⟩,
   ⟨20000, {}, .holdSession⟩,
   ⟨30000, {}, .releaseHold { requireCheck := false }⟩,
   ⟨40000, {}, .startCheck ⟨2⟩ { purpose := .reconnect }⟩,
   ⟨41000, {}, .completeCheck ⟨2⟩ 1 41000
     { policy := {}, aggregate := some { decision := .match } }⟩]

/-- The reconnect check dates the gap back to the last heartbeat of browser 1, across the hold: at
25000 the exam is both disconnected and on hold. -/
theorem periods_overlap :
    ¬ ∀ m, sessionMachine.Reachable m →
      (m.periods.Pairwise fun p q => ¬ (p.isOpen = true ∧ q.isOpen = true)) ∧
        m.periods.Pairwise fun p q =>
          ∀ t, ¬ (p.containsInstant t = true ∧ q.containsInstant t = true) := by
  intro h
  have hapart := pairwise_iff_getElem.1
    (h (runRequests (startedExam {}) releasedExam) (reachable_started (by decide))).2
  exact hapart 2 3 (by decide) (by decide) (by decide) 25000 ⟨by decide, by decide⟩

end SmartProctoring
