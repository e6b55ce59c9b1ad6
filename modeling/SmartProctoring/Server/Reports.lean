import SmartProctoring.Server.Runs

/-!
# Reported events and the timeline

What a browser reports is cut to fit the timeline when it is stored, and when monitoring stops the
open reports are closed.  Pauses and holds begin at the server's time, after all that is stored by
then, so this is enough, as long as what is reported is of the past and nothing is dated back behind
it: an exam that is found out of time ends at the instant that happened, and a reopened exam is on
hold from its old end on.

`Periods.Steady` is a property of periods that every operation keeps as long as it ends periods
early and adds no pause or hold; `EventRow.Respects` is the property of a pause or hold that a
report keeps clear of it.  All is about one event at a time: what is reported of the others is free.
-/

set_option autoImplicit false

namespace SmartProctoring

open List Option

/-! ## Properties of the periods that the operations keep -/

namespace Periods

/-- A property of past periods, kept when one ends earlier or changes its reason, that every past
period has in which the session is observed or disconnected. -/
structure Steady (now : Int) (Φ : SessionPeriod → Prop) : Prop where
  past : ∀ p, Φ p → p.startedAt ≤ now
  ended : ∀ p x, Φ p → p.startedAt ≤ x → x ≤ now → (∀ e ∈ p.endedAt, x ≤ e) →
    Φ { p with endedAt := some x }
  reason : ∀ p r, Φ p → Φ { p with reason := r }
  unblocked : ∀ p, p.blocking = false → p.startedAt ≤ now → (∀ e ∈ p.endedAt, e ≤ now) → Φ p

variable {now : Int} {Φ : SessionPeriod → Prop} {ps : List SessionPeriod} {row : SessionPeriod}

theorem forall_modifyLast {α : Type} {sel : α → Bool} {f : α → α} {Ψ : α → Prop} {l : List α}
    (h : ∀ x ∈ l, Ψ x) (hf : ∀ x, sel x = true → Ψ x → Ψ (f x)) :
    ∀ x ∈ modifyLast sel f l, Ψ x := by
  induction l with
  | nil => exact fun x hx => absurd hx not_mem_nil
  | cons y l ih =>
    have hl : ∀ x ∈ l, Ψ x := fun x hx => h x (mem_cons_of_mem _ hx)
    have hy := h y mem_cons_self
    rw [modifyLast]
    split
    next hsel =>
      intro x hx
      rcases mem_cons.1 hx with rfl | hx
      · exact hf y (Bool.and_eq_true_iff.1 hsel).1 hy
      · exact hl x hx
    next =>
      intro x hx
      rcases mem_cons.1 hx with rfl | hx
      · exact hy
      · exact ih hl x hx

theorem exists_modifyLast {α : Type} {sel : α → Bool} {f : α → α} {Ψ : α → Prop} {l : List α}
    (h : ∃ x ∈ l, Ψ x) (hf : ∀ x, Ψ x → Ψ (f x)) : ∃ x ∈ modifyLast sel f l, Ψ x := by
  induction l with
  | nil =>
    obtain ⟨x, hx, -⟩ := h
    cases hx
  | cons y l ih =>
    rw [modifyLast]
    obtain ⟨x, hx, hΨ⟩ := h
    split <;> rcases mem_cons.1 hx with rfl | hx
    · exact ⟨_, mem_cons_self, hf _ hΨ⟩
    · exact ⟨x, mem_cons_of_mem _ hx, hΨ⟩
    · exact ⟨_, mem_cons_self, hΨ⟩
    · obtain ⟨z, hz, hzΨ⟩ := ih ⟨x, hx, hΨ⟩
      exact ⟨z, mem_cons_of_mem _ hz, hzΨ⟩

theorem forall_insert : (∀ p ∈ insert ps row, Φ p) ↔ Φ row ∧ ∀ p ∈ ps, Φ p := by
  simp only [insert, mem_orderedInsert, forall_eq_or_imp]

namespace Steady

section

variable (hΦ : Steady now Φ) (h : ∀ p ∈ ps, Φ p)
include hΦ h

theorem closeOpen {atMs : Int} (hat : atMs ≤ now) : ∀ p ∈ Periods.closeOpen ps atMs, Φ p := by
  refine forall_modifyLast h fun p hp hpΦ => ?_
  refine hΦ.ended p _ hpΦ (le_max_left _ _) (max_le (hΦ.past p hpΦ) hat) fun e he => ?_
  rw [SessionPeriod.isOpen, isNone_iff_eq_none] at hp
  rw [hp] at he
  cases he

theorem switch (hrow : Φ row) (hs : row.startedAt ≤ now) : ∀ p ∈ Periods.switch ps row, Φ p :=
  forall_insert.2 ⟨hrow, hΦ.closeOpen h hs⟩

theorem hold (reason : HoldReason) (prev : SessionStatus)
    (hrow : ∀ row : SessionPeriod, row.startedAt = now → row.endedAt = none → Φ row) :
    ∀ p ∈ Periods.hold ps now reason prev, Φ p := by
  rw [Periods.hold]
  split
  · exact forall_modifyLast h fun p _ hpΦ => hΦ.reason p _ hpΦ
  · exact hΦ.switch h (hrow _ rfl rfl) le_rfl

theorem endAt (p : SessionPeriod) {cut : Int}
    (hp : p.startedAt ≤ cut) (hcut : cut ≤ now) : ∀ q ∈ Periods.endAt ps p cut, Φ q := by
  rw [Periods.endAt]
  split
  · exact hΦ.closeOpen h hcut
  next e he =>
    split
    next hlt =>
      intro q' hq'
      obtain ⟨q, hq, rfl⟩ := mem_map.1 hq'
      split
      next hqp =>
        subst hqp
        refine hΦ.ended q cut (h q hq) hp hcut fun e' he' => ?_
        obtain rfl := some.inj (he.symm.trans he')
        exact hlt.le
      next => exact h q hq
    next => exact h

end

theorem cutActive (hΦ : Steady now Φ) {gapStart stop : Int} (hgap : gapStart ≤ now)
    (hstop : stop ≤ now) (evId : EventId) (endReason : SessionEndReason) (h : ∀ p ∈ ps, Φ p)
    (p : SessionPeriod) (hp : p.startedAt ≤ now) :
    ∀ q ∈ Periods.cutActive gapStart stop evId endReason ps p, Φ q := by
  have hcut : max p.startedAt gapStart ≤ now := max_le hp hgap
  have hend := hΦ.endAt h p (le_max_left _ gapStart) hcut
  rw [Periods.cutActive]
  split
  next hlt =>
    refine forall_insert.2 ⟨hΦ.unblocked _ rfl hcut ?_, hend⟩
    rintro e ⟨⟩
    exact max_le hcut ((min_le_right _ _).trans hstop)
  next => exact hend

theorem carve (hΦ : Steady now Φ) (h : ∀ p ∈ ps, Φ p) {gap : Option (Int × EventId)} {stop : Int}
    (hstop : stop ≤ now) (hgap : ∀ g ∈ gap, g.1 < stop) (endReason : SessionEndReason) :
    ∀ p ∈ Periods.carve ps gap stop endReason, Φ p := by
  rcases gap with _ | ⟨gapStart, evId⟩
  · exact h
  · have hlt : gapStart < stop := hgap _ rfl
    have hactive : ∀ p ∈ activeWithin ps gapStart stop, p.startedAt ≤ now :=
      fun p hp => hΦ.past p (h p (mem_filter.1 hp).1)
    rw [Periods.carve]
    revert hactive
    generalize activeWithin ps gapStart stop = active
    induction active generalizing ps with
    | nil => exact fun _ => h
    | cons p active ih =>
      intro hactive
      refine ih ?_ fun q hq => hactive q (mem_cons_of_mem _ hq)
      exact hΦ.cutActive (hlt.le.trans hstop) hstop evId endReason h p (hactive p mem_cons_self)

theorem closeGap (hΦ : Steady now Φ) (h : ∀ p ∈ ps, Φ p) {check : Check} (instanceId : InstanceId)
    {gapStart : Int} (hissued : check.issuedAt ≤ now) (hg : gapStart ≤ check.issuedAt) :
    ∀ p ∈ Periods.closeGap ps now check instanceId gapStart, Φ p := by
  refine forall_insert.2 ⟨hΦ.unblocked _ rfl hissued ?_, ?_⟩
  · rintro e ⟨⟩
    exact max_le hissued le_rfl
  · split
    next => exact h
    next p hopen =>
      have hp := h p (mem_filter.1 (mem_of_getLast? hopen)).1
      split
      · split
        · refine forall_insert.2 ⟨hΦ.unblocked _ rfl (hg.trans hissued) ?_,
            hΦ.closeOpen h (hg.trans hissued)⟩
          rintro e ⟨⟩
          exact max_le (hg.trans hissued) hissued
        · exact hΦ.closeOpen h (hg.trans hissued)
      · exact hΦ.closeOpen h (max_le (hΦ.past p hp) hissued)

end Steady

end Periods

/-! ## A report and a period -/

/-- The report did not start in the pause or hold, and does not extend past the start of one that
began after it. -/
structure EventRow.Respects (e : EventRow) (p : SessionPeriod) : Prop where
  outside : p.blocking = true → p.containsInstant e.startedAt = false
  cut : p.blocking = true → e.startedAt < p.startedAt → ∃ x ∈ e.endedAt, x ≤ p.startedAt

/-- What is stored of a report by `now`. -/
structure EventRow.Kept (now : Int) (e : EventRow) : Prop where
  reportable : isClientReportable e.type = true
  started : e.startedAt < now
  received : e.receivedAt ≤ now
  open_iff : e.isOpen = true ↔ e.endedAt = none
  ordered : ∀ x ∈ e.endedAt, e.startedAt ≤ x ∧ x ≤ e.receivedAt

/-- `e'` is `e`, closed at most. -/
structure EventRow.ClosedTo (now : Int) (e e' : EventRow) : Prop where
  startedAt : e'.startedAt = e.startedAt
  endedAt : e.endedAt = none ∨ e'.endedAt = e.endedAt
  kept : e'.Kept now

namespace EventRow

variable {now : Int} {e e' e'' : EventRow} {p : SessionPeriod}

theorem Kept.mono {now' : Int} (h : e.Kept now) (hn : now ≤ now') : e.Kept now' :=
  { h with started := h.started.trans_le hn, received := h.received.trans hn }

theorem Kept.le_now (h : e.Kept now) : ∀ x ∈ e.endedAt, x ≤ now :=
  fun x hx => (h.ordered x hx).2.trans h.received

theorem ClosedTo.refl (h : e.Kept now) : ClosedTo now e e := ⟨rfl, .inr rfl, h⟩

theorem ClosedTo.trans (h : ClosedTo now e e') (h' : ClosedTo now e' e'') : ClosedTo now e e'' := by
  refine ⟨h'.startedAt.trans h.startedAt, ?_, h'.kept⟩
  rcases h.endedAt with hn | he
  · exact .inl hn
  · exact he ▸ h'.endedAt

theorem ClosedTo.ended (h : ClosedTo now e e') {x : Int} (hx : x ∈ e.endedAt) : x ∈ e'.endedAt := by
  rcases h.endedAt with hn | he
  · rw [hn] at hx
    cases hx
  · rwa [he]

theorem ClosedTo.respects (h : ClosedTo now e e') (hp : e.Respects p) : e'.Respects p := by
  refine ⟨fun hb => ?_, fun hb hlt => ?_⟩
  · rw [h.startedAt]
    exact hp.outside hb
  · rw [h.startedAt] at hlt
    obtain ⟨x, hx, hle⟩ := hp.cut hb hlt
    exact ⟨x, h.ended hx, hle⟩

/-- The period property that a report stands for: past, and respected by the report. -/
def Clears (now : Int) (e : EventRow) (p : SessionPeriod) : Prop :=
  (p.startedAt ≤ now ∧ ∀ x ∈ p.endedAt, x ≤ now) ∧ e.Respects p

theorem steady_past (now : Int) :
    Periods.Steady now fun p => p.startedAt ≤ now ∧ ∀ x ∈ p.endedAt, x ≤ now where
  past _ h := h.1
  ended _ _ h _ hx _ := ⟨h.1, fun _ hy => some.inj hy ▸ hx⟩
  reason _ _ h := h
  unblocked _ _ hs he := ⟨hs, he⟩

theorem steady_clears (now : Int) (e : EventRow) : Periods.Steady now (e.Clears now) where
  past _ h := h.1.1
  ended p x h _ hx hle := by
    refine ⟨(steady_past now).ended p x h.1 ‹_› hx hle, fun hb => ?_, h.2.cut⟩
    have hout := h.2.outside hb
    rw [SessionPeriod.containsInstant, Bool.and_eq_false_iff] at hout ⊢
    rcases hout with hs | he
    · exact .inl hs
    · cases hend : p.endedAt with
      | none => simp [hend] at he
      | some y =>
        have := hle y hend
        simp only [hend, all_some, decide_eq_false_iff_not] at he ⊢
        omega
  reason _ _ h := ⟨h.1, h.2.outside, h.2.cut⟩
  unblocked p hb hs he := by
    refine ⟨⟨hs, he⟩, fun hb' => ?_, fun hb' => ?_⟩ <;> rw [hb] at hb' <;> cases hb'

theorem clears_of_startedAt (hkept : e.Kept now) (hclosed : e.endedAt.isSome)
    (hs : p.startedAt = now) (he : p.endedAt = none) : e.Clears now p := by
  obtain ⟨x, hx⟩ := isSome_iff_exists.1 hclosed
  refine ⟨⟨hs.le, fun y hy => by rw [he] at hy; cases hy⟩, fun _ => ?_, fun _ _ => ⟨x, hx, ?_⟩⟩
  · have := hkept.started
    rw [SessionPeriod.containsInstant, Bool.and_eq_false_iff, decide_eq_false_iff_not]
    exact .inl (by omega)
  · exact hs ▸ hkept.le_now x hx

end EventRow

/-! ## Closing reports -/

namespace Lifecycle

/-- What is stored of the reports of an event. -/
def reportsOf (l : Lifecycle) (ev : EventId) : List EventRow := l.reports.filter (·.id = ev)

section Of

variable {l k : Lifecycle} {ev : EventId} {e : EventRow}

theorem mem_reportsOf : e ∈ l.reportsOf ev ↔ e ∈ l.reports ∧ e.id = ev := by
  rw [reportsOf, mem_filter, decide_eq_true_iff]

theorem reportsOf_eq (h : k.reports = l.reports) : k.reportsOf ev = l.reportsOf ev := by
  rw [reportsOf, reportsOf, h]

theorem mem_reportsOf_map {f : EventRow → EventRow} (h : k.reports = l.reports.map f)
    (hid : ∀ e, (f e).id = e.id) (he : e ∈ k.reportsOf ev) : ∃ e₀ ∈ l.reportsOf ev, f e₀ = e := by
  obtain ⟨hmem, hev⟩ := mem_reportsOf.1 he
  rw [h] at hmem
  obtain ⟨e₀, he₀, rfl⟩ := mem_map.1 hmem
  exact ⟨e₀, mem_reportsOf.2 ⟨he₀, (hid e₀).symm.trans hev⟩, rfl⟩

end Of

section Closing

variable {now atMs t : Int} {sel : EventRow → Bool} {note : EventDetails → EventDetails}
  {e e' : EventRow} {l l' : Lifecycle}

@[simp] theorem closeReport_id : (closeReport now sel atMs note e).id = e.id := by
  rw [closeReport]
  split <;> rfl

theorem closedTo_closeReport (h : e.Kept now) (hat : atMs ≤ now) :
    e.ClosedTo now (closeReport now sel atMs note e) := by
  rw [closeReport]
  split
  next hsel =>
    have hopen := h.open_iff.1 (Bool.and_eq_true_iff.1 hsel).1
    refine ⟨rfl, .inl hopen, h.reportable, h.started, le_rfl, by simp [EventRow.isOpen, EventRow.closeAt], ?_⟩
    rintro x ⟨⟩
    exact ⟨le_max_left _ _, max_le h.started.le hat⟩
  next => exact .refl h

theorem closeReport_closed (h : e.Kept now) (hsel : sel e = true) :
    (closeReport now sel atMs note e).endedAt.isSome := by
  rw [closeReport]
  split
  next => rfl
  next hno =>
    rw [hsel, Bool.and_true] at hno
    rw [isSome_iff_ne_none]
    exact fun hn => hno (h.open_iff.2 hn)

theorem closeReport_within (hat : atMs ≤ t) (h : e.startedAt ≤ t ∧ ∀ x ∈ e.endedAt, x ≤ t) :
    (closeReport now sel atMs note e).startedAt ≤ t ∧
      ∀ x ∈ (closeReport now sel atMs note e).endedAt, x ≤ t := by
  rw [closeReport]
  split
  · refine ⟨h.1, ?_⟩
    rintro x ⟨⟩
    exact max_le h.1 hat
  · exact h

theorem closes_of_reportable (h : isClientReportable e.type = true) :
    decide (e.type ∉ [EventType.reportingInterrupted]) = true := by
  rw [decide_eq_true_iff, mem_singleton]
  intro ht
  rw [ht] at h
  exact absurd h (by decide)

end Closing

/-! ## The invariant -/

/-- The reports of the event keep clear of the pauses and holds and of the end. -/
structure Observed (ev : EventId) (l : Lifecycle) : Prop where
  past : ∀ p ∈ l.periods, p.startedAt ≤ l.now ∧ ∀ x ∈ p.endedAt, x ≤ l.now
  /-- A pause or a hold has its period. -/
  blocked : l.status = .onHold ∨ l.status = .paused →
    ∃ p ∈ l.periods, p.blocking = true ∧ p.endedAt = none
  live : ¬ l.status.isTerminal → l.endedAt = none
  dead : l.status.isTerminal → l.endedAt.isSome
  kept : ∀ e ∈ l.reportsOf ev, e.Kept l.now
  respects : ∀ e ∈ l.reportsOf ev, ∀ p ∈ l.periods, e.Respects p
  ended : ∀ t ∈ l.endedAt, ∀ e ∈ l.reportsOf ev, e.startedAt ≤ t ∧ ∃ x ∈ e.endedAt, x ≤ t
  quiet : l.status = .onHold ∨ l.status = .paused → ∀ e ∈ l.reportsOf ev, e.endedAt.isSome

variable {ev : EventId}

theorem observed_assigned (now durationMs extraMs : Int) :
    (assigned now durationMs extraMs).Observed ev where
  past _ hp := absurd hp not_mem_nil
  blocked h := by rcases h with h | h <;> cases h
  live _ := rfl
  dead h := absurd h (by simp [assigned, SessionStatus.isTerminal_iff])
  kept _ he := absurd he not_mem_nil
  respects _ he := absurd he not_mem_nil
  ended _ ht := by cases ht
  quiet _ _ he := absurd he not_mem_nil

variable {l l' : Lifecycle}

/-- A change that only closes reports, in which every new pause or hold begins now, when all is
closed. -/
structure Evolves (ev : EventId) (l l' : Lifecycle) (F : Prop) : Prop where
  now : l'.now = l.now
  reports : ∀ e' ∈ l'.reportsOf ev, ∃ e ∈ l.reportsOf ev, e.ClosedTo l.now e'
  periods : ∀ Φ, Periods.Steady l.now Φ →
    (F → ∀ row : SessionPeriod, row.startedAt = l.now → row.endedAt = none → Φ row) →
    (∀ p ∈ l.periods, Φ p) → ∀ p ∈ l'.periods, Φ p
  quiet : F ∨ l'.status = .onHold ∨ l'.status = .paused → ∀ e ∈ l'.reportsOf ev, e.endedAt.isSome
  blocked : l'.status = .onHold ∨ l'.status = .paused →
    ∃ p ∈ l'.periods, p.blocking = true ∧ p.endedAt = none

theorem Observed.evolve {F : Prop} (h : l.Observed ev) (hev : Evolves ev l l' F)
    (hlive : ¬ l'.status.isTerminal → l'.endedAt = none)
    (hdead : l'.status.isTerminal → l'.endedAt.isSome)
    (hended : ∀ t ∈ l'.endedAt, ∀ e ∈ l'.reportsOf ev, e.startedAt ≤ t ∧ ∃ x ∈ e.endedAt, x ≤ t) :
    l'.Observed ev := by
  have hpast : ∀ p ∈ l.periods, p.startedAt ≤ l.now ∧ ∀ x ∈ p.endedAt, x ≤ l.now := h.past
  refine ⟨?_, hev.blocked, hlive, hdead, fun e' he' => ?_, fun e' he' p hp => ?_, hended,
    fun hs => hev.quiet (.inr hs)⟩
  · rw [hev.now]
    refine hev.periods _ (EventRow.steady_past l.now) (fun _ row hs he => ⟨hs.le, fun x hx => ?_⟩)
      hpast
    rw [he] at hx
    cases hx
  · obtain ⟨e, -, hclosed⟩ := hev.reports e' he'
    exact hev.now ▸ hclosed.kept
  · obtain ⟨e, he, hclosed⟩ := hev.reports e' he'
    have hclears := hev.periods (e'.Clears l.now) (EventRow.steady_clears l.now e')
      (fun hfresh row hs hn =>
        EventRow.clears_of_startedAt hclosed.kept (hev.quiet (.inl hfresh) e' he') hs hn)
      (fun p hp => ⟨h.past p hp, hclosed.respects (h.respects e he p hp)⟩)
    exact (hclears p hp).2

theorem Observed.evolve_live {F : Prop} (h : l.Observed ev) (hev : Evolves ev l l' F)
    (hs : ¬ l.status.isTerminal) (hs' : ¬ l'.status.isTerminal) (hend : l'.endedAt = l.endedAt) :
    l'.Observed ev := by
  have hnone : l'.endedAt = none := hend.trans (h.live hs)
  refine h.evolve hev (fun _ => hnone) (fun ht => absurd ht hs') fun t ht => ?_
  rw [hnone] at ht
  cases ht

section

variable (h : l.Observed ev)
include h

/-- Reports that stay as they are. -/
theorem Observed.same : ∀ e ∈ l.reportsOf ev, ∃ e₀ ∈ l.reportsOf ev, e₀.ClosedTo l.now e :=
  fun e he => ⟨e, he, .refl (h.kept e he)⟩

theorem Observed.closeReports {sel : EventRow → Bool} {atMs : Int}
    {note : EventDetails → EventDetails} (hat : atMs ≤ l.now) :
    ∀ e' ∈ (l.closeReports sel atMs note).reportsOf ev,
      ∃ e ∈ l.reportsOf ev, e.ClosedTo l.now e' := by
  intro e' he'
  obtain ⟨e, he, rfl⟩ := mem_reportsOf_map rfl (fun _ => closeReport_id) he'
  exact ⟨e, he, closedTo_closeReport (h.kept e he) hat⟩

theorem Observed.closeOpenReports_closed {atMs : Int} {reason : ClosedBy} :
    ∀ e ∈ (l.closeOpenReports atMs reason [.reportingInterrupted]).reportsOf ev,
    e.endedAt.isSome := by
  intro e' he'
  obtain ⟨e, he, rfl⟩ := mem_reportsOf_map rfl (fun _ => closeReport_id) he'
  exact closeReport_closed (h.kept e he) (closes_of_reportable (h.kept e he).reportable)

theorem Observed.hold {k : Lifecycle} (hs : ¬ l.status.isTerminal)
    (reason : HoldReason) (prev : SessionStatus) (hprev : prev = .onHold → l.status = .onHold)
    (hnow : k.now = l.now) (hend : k.endedAt = l.endedAt) (hreports : k.reports = l.reports)
    (hperiods : ∀ Φ, Periods.Steady l.now Φ → (∀ p ∈ l.periods, Φ p) → ∀ p ∈ k.periods, Φ p) :
    (k.hold reason prev).Observed ev := by
  have hclose : ∀ e' ∈ (k.hold reason prev).reportsOf ev,
      (∃ e ∈ l.reportsOf ev, e.ClosedTo l.now e') ∧ e'.endedAt.isSome := by
    intro e' he'
    by_cases hp : prev ≠ .onHold
    · have hmap : (k.hold reason prev).reports =
          (l.closeOpenReports l.now .hold [.reportingInterrupted]).reports := by
        rw [Lifecycle.hold, closeOpenReports, Lifecycle.closeReports, hnow, hreports]
        exact if_pos hp
      rw [reportsOf_eq hmap] at he'
      exact ⟨h.closeReports le_rfl e' he', h.closeOpenReports_closed e' he'⟩
    · have hsame : (k.hold reason prev).reports = l.reports := (if_neg hp).trans hreports
      rw [reportsOf_eq hsame] at he'
      exact ⟨h.same e' he', h.quiet (.inl (hprev (not_not.1 hp))) e' he'⟩
  refine h.evolve_live (F := True) ⟨hnow, fun e he => (hclose e he).1, fun Φ hΦ hnew hp => ?_,
    fun _ e he => (hclose e he).2, fun _ =>
      ?_⟩ hs (by simp [Lifecycle.hold, SessionStatus.isTerminal_iff]) hend
  · have hk := hperiods Φ hΦ hp
    change ∀ p ∈ Periods.hold k.periods k.now reason prev, Φ p
    rw [hnow]
    exact hΦ.hold hk reason prev (hnew trivial)
  · change ∃ p ∈ Periods.hold k.periods k.now reason prev, _
    rw [Periods.hold]
    split
    next hopen =>
      refine Periods.exists_modifyLast ?_ fun p hp => hp
      obtain ⟨p, hrow, hkind⟩ := any_eq_true _ _ |>.1 hopen
      have hp := mem_filter.1 (mem_of_getLast? hrow)
      refine ⟨p, hp.1, ?_, isNone_iff_eq_none.1 hp.2⟩
      rw [SessionPeriod.blocking, eq_of_beq hkind]
      rfl
    next => exact ⟨_, (mem_orderedInsert _).2 (.inl rfl), rfl, rfl⟩

theorem Observed.goOn (hs : ¬ l.status.isTerminal)
    (hs' : l'.status = .invited ∨ l'.status = .ready ∨ l'.status = .active) (hnow : l'.now = l.now)
    (hend : l'.endedAt = l.endedAt) (hreports : l'.reports = l.reports)
    (hperiods : ∀ Φ, Periods.Steady l.now Φ → (∀ p ∈ l.periods, Φ p) → ∀ p ∈ l'.periods, Φ p) :
    l'.Observed ev := by
  have hno : ¬ (l'.status = .onHold ∨ l'.status = .paused) := by
    rcases hs' with hs' | hs' | hs' <;> simp [hs']
  have hlive : ¬ l'.status.isTerminal := by
    rcases hs' with hs' | hs' | hs' <;> simp [hs', SessionStatus.isTerminal_iff]
  refine h.evolve_live (F := False) ⟨hnow, (reportsOf_eq hreports).symm ▸ h.same,
    fun Φ hΦ _ => hperiods Φ hΦ,
    fun hq => ?_, fun hq => absurd hq hno⟩ hs hlive hend
  exact absurd (hq.resolve_left id) hno

theorem Observed.finish (ht : l.Timely) (endReason : SessionEndReason)
    {gap : Option (Int × EventId)} (hgap : ∀ g ∈ gap, g.1 < l.endInstant endReason)
    (hbefore : l.endInstant endReason < l.now → l.ReportsBefore ev (l.endInstant endReason)) :
    (l.closeSession endReason gap (l.endInstant endReason)).Observed ev := by
  have hend := endInstant_le ht endReason
  have hwithin : ∀ e ∈ l.reportsOf ev, e.startedAt ≤ l.endInstant endReason ∧
      ∀ x ∈ e.endedAt, x ≤ l.endInstant endReason := by
    rcases hend.lt_or_eq with hlt | heq
    · exact fun e he => hbefore hlt e (mem_reportsOf.1 he).1 (mem_reportsOf.1 he).2
    · exact fun e he => heq ▸ ⟨(h.kept e he).started.le, (h.kept e he).le_now⟩
  have hcarve : ∀ e' ∈ (l.carveGap gap (l.endInstant endReason) endReason).reportsOf ev,
      (∃ e ∈ l.reportsOf ev, e.ClosedTo l.now e') ∧ e'.startedAt ≤ l.endInstant endReason ∧
        ∀ x ∈ e'.endedAt, x ≤ l.endInstant endReason := by
    have hsame : ∀ e' ∈ l.reportsOf ev, (∃ e ∈ l.reportsOf ev, e.ClosedTo l.now e') ∧
        e'.startedAt ≤ l.endInstant endReason ∧ ∀ x ∈ e'.endedAt, x ≤ l.endInstant endReason :=
      fun e he => ⟨h.same e he, hwithin e he⟩
    intro e' he'
    rcases gap with _ | ⟨gapStart, evId⟩
    · exact hsame e' he'
    · have hlt : gapStart < l.endInstant endReason := hgap _ rfl
      by_cases hnone : (activeWithin l.periods gapStart (l.endInstant endReason)).isEmpty = true
      · have heq : (l.carveGap (some (gapStart, evId)) (l.endInstant endReason) endReason).reports =
            l.reports := if_pos hnone
        rw [reportsOf_eq heq] at he'
        exact hsame e' he'
      · obtain ⟨e, he, rfl⟩ := mem_reportsOf_map (if_neg hnone) (fun _ => closeReport_id) he'
        exact ⟨⟨e, he, closedTo_closeReport (h.kept e he) (hlt.le.trans hend)⟩,
          closeReport_within hlt.le (hwithin e he)⟩
  have hall : ∀ e' ∈ (l.closeSession endReason gap (l.endInstant endReason)).reportsOf ev,
      (∃ e ∈ l.reportsOf ev, e.ClosedTo l.now e') ∧ e'.startedAt ≤ l.endInstant endReason ∧
        ∃ x ∈ e'.endedAt, x ≤ l.endInstant endReason := by
    intro e'' he''
    obtain ⟨e', he', rfl⟩ := mem_reportsOf_map
      (l := l.carveGap gap (l.endInstant endReason) endReason) rfl (fun _ => closeReport_id) he''
    obtain ⟨⟨e, he, hclosed⟩, hin⟩ := hcarve e' he'
    have hkept := hclosed.kept
    have hsome : (closeReport l.now (fun e => decide (e.type ∉ ([] : List EventType)))
        (l.endInstant endReason) (fun d => { d with closedBy := some .sessionEnd }) e').endedAt.isSome :=
      closeReport_closed hkept (by simp)
    obtain ⟨x, hx⟩ := isSome_iff_exists.1 hsome
    refine ⟨⟨e, he, hclosed.trans (closedTo_closeReport hkept hend)⟩, ?_, x, hx, ?_⟩
    · exact (closeReport_within le_rfl hin).1
    · exact (closeReport_within le_rfl hin).2 x hx
  refine h.evolve (F := False) ⟨rfl, fun e he => (hall e he).1, fun Φ hΦ _ hp => ?_,
    fun _ e he => ?_, fun hq => ?_⟩ (fun hn => absurd (endStatus_isTerminal endReason) hn)
    (fun _ => rfl) ?_
  · exact hΦ.closeOpen (hΦ.carve hp hend hgap endReason) hend
  · obtain ⟨x, hx, -⟩ := (hall e he).2.2
    exact isSome_of_mem hx
  · have hterminal := SessionStatus.isTerminal_iff.1 (endStatus_isTerminal endReason)
    have hstatus : (l.closeSession endReason gap (l.endInstant endReason)).status =
        endStatus endReason := rfl
    rw [hstatus] at hq
    rcases hterminal with hs | hs <;> simp [hs] at hq
  · rintro t ⟨⟩ e he
    exact (hall e he).2

theorem Observed.reopen (ht : l.Timely) {addMs : Int} (hs : l.status.isTerminal)
    (hafter : ∀ e ∈ l.reportsOf ev, l.startedAt.isSome → ∀ t ∈ l.endedAt, e.startedAt < t) :
    (l.reopen addMs).Observed ev := by
  obtain ⟨t, hend⟩ := isSome_iff_exists.1 (h.dead hs)
  rw [Lifecycle.reopen]
  split
  next hstarted =>
    have hrow : ∀ q : SessionPeriod, q.startedAt = t → q.endedAt = none → ∀ e ∈ l.reportsOf ev,
        e.Clears l.now q := by
      intro q hq hn e he
      obtain ⟨-, x, hx, hle⟩ := h.ended t hend e he
      refine ⟨⟨hq ▸ ht.ended t hend, fun y hy => ?_⟩, fun _ => ?_, fun _ _ => ⟨x, hx, hq ▸ hle⟩⟩
      · rw [hn] at hy
        cases hy
      · have := hafter e he hstarted t hend
        rw [SessionPeriod.containsInstant, Bool.and_eq_false_iff, decide_eq_false_iff_not]
        exact .inl (by omega)
    refine ⟨?_, fun _ => ⟨_, (mem_orderedInsert _).2 (.inl rfl), rfl, rfl⟩, fun _ => rfl,
      fun ht => ?_, h.kept, fun e he => ?_, fun t ht => (by cases ht), fun _ e he => ?_⟩
    · refine Periods.forall_insert.2 ⟨⟨?_, fun x hx => (by cases hx)⟩, h.past⟩
      rw [hend]
      exact ht.ended t hend
    · exact absurd ht (by simp [SessionStatus.isTerminal_iff])
    · refine Periods.forall_insert.2 ⟨?_, h.respects e he⟩
      exact (hrow _ (by rw [hend]; rfl) rfl e he).2
    · obtain ⟨-, x, hx, -⟩ := h.ended t hend e he
      exact isSome_of_mem hx
  next =>
    refine ⟨h.past, ?_, fun _ => rfl, fun ht => ?_, h.kept, h.respects, fun t ht => (by cases ht), ?_⟩
    · rintro (hq | hq) <;> cases hq
    · exact absurd ht (by simp [SessionStatus.isTerminal_iff])
    · rintro (hq | hq) <;> cases hq

/-- What ingest stores keeps clear too. -/
theorem Observed.ingest (ht : l.Timely) {reports : List EventRow}
    (hnew : ∀ e ∈ reports, e.id = ev → e ∈ l.reports ∨ l.Stored e ∧
      e.startedAt < l.now ∧ (l.Past ev → ∀ x ∈ e.endedAt, x ≤ l.now)) :
    ({ l with reports } : Lifecycle).Observed ev := by
  have hpast : l.Past ev :=
    ⟨h.past, ht.ended, fun e he hev => (h.kept e (mem_reportsOf.2 ⟨he, hev⟩)).le_now⟩
  have hnew : ∀ e ∈ ({ l with reports } : Lifecycle).reportsOf ev, e ∈ l.reportsOf ev ∨ l.Stored e ∧
      e.startedAt < l.now ∧ (l.Past ev → ∀ x ∈ e.endedAt, x ≤ l.now) := by
    intro e he
    obtain ⟨he, hev⟩ := mem_reportsOf.1 he
    exact (hnew e he hev).imp_left fun hmem => mem_reportsOf.2 ⟨hmem, hev⟩
  refine ⟨h.past, h.blocked, h.live, h.dead, fun e he => ?_, fun e he p hp => ?_,
    fun t hend e he => ?_,
    fun hq e he => ?_⟩ <;> rcases hnew e he with he | ⟨hst, hlt, hle⟩
  · exact h.kept e he
  · have hreceived : e.receivedAt = l.now := hst.receivedAt
    exact ⟨hst.reportable, hlt, hreceived.le, hst.open_iff,
      fun x hx => ⟨hst.ordered x hx, hreceived ▸ hle hpast x hx⟩⟩
  · exact h.respects e he p hp
  · exact ⟨hst.notBlocked p hp, hst.cut p hp⟩
  · exact h.ended t hend e he
  · exact hst.ended t hend
  · exact h.quiet hq e he
  · -- the open pause or hold began after the report did, and cuts it
    obtain ⟨p, hp, hb, hn⟩ := h.blocked hq
    have hout := hst.notBlocked p hp hb
    rw [SessionPeriod.containsInstant, hn, all_none, Bool.and_true,
      decide_eq_false_iff_not, not_le] at hout
    obtain ⟨x, hx, -⟩ := hst.cut p hp hb hout
    exact isSome_of_mem hx

end

end Lifecycle

/-- **A move keeps the reports clear of the pauses and holds and of the end**, if reports are of the
past and nothing is dated back behind them. -/
theorem Move.observed {G : Gate} {ev : EventId} (hG : G.reports ev) {l l' : Lifecycle}
    (hm : Move G l l') (ht : l.Timely) (h : l.Observed ev) : l'.Observed ev := by
  have hlive : ∀ {s : SessionStatus}, l.status = s → ¬ s.isTerminal → ¬ l.status.isTerminal :=
    fun hs hn => hs ▸ hn
  cases hm
  case tick t hle =>
    exact
      { h with
        past := fun p hp => ⟨(h.past p hp).1.trans hle, fun x hx => ((h.past p hp).2 x hx).trans hle⟩
        kept := fun e he => (h.kept e he).mono hle }
  case pause behavior reason hs _ =>
    have hev : ∀ k : Lifecycle, k.now = l.now → k.endedAt = l.endedAt → k.status = .paused →
        k.reports = (l.closeOpenReports l.now .pause [.reportingInterrupted]).reports →
        k.periods = Periods.switch l.periods
          { kind := .paused
            startedAt := l.now
            endedAt := none
            reason := .text reason
            metadata := { timerBehavior := some behavior } } → k.Observed ev := by
      intro k hnow hend hstatus hreports hperiods
      refine h.evolve_live (F := True) ⟨hnow, ?_, fun Φ hΦ hnew hp => ?_, fun _ => ?_, fun _ => ?_⟩
        (hlive hs (by decide)) (by simp [hstatus, SessionStatus.isTerminal_iff]) hend
      · rw [Lifecycle.reportsOf_eq hreports]
        exact h.closeReports le_rfl
      · rw [hperiods]
        exact hΦ.switch hp (hnew trivial _ rfl rfl) le_rfl
      · rw [Lifecycle.reportsOf_eq hreports]
        exact h.closeOpenReports_closed
      · rw [hperiods]
        exact ⟨_, (mem_orderedInsert _).2 (.inl rfl), rfl, rfl⟩
    cases behavior with
    | stop | «continue» => exact hev _ rfl rfl rfl rfl rfl
  case hold reason hs =>
    exact h.hold (k := l) hs reason l.status id rfl rfl rfl fun Φ _ hp => hp
  case finish endReason gap hs _ hgap hbefore =>
    have hfinish := h.finish ht endReason hgap (hbefore ev hG)
    rw [Lifecycle.finish]
    split
    · exact { hfinish with }
    · exact hfinish
  case start extraMs hs _ =>
    exact h.goOn (hlive hs (by decide)) (.inr (.inr rfl)) rfl rfl rfl fun Φ hΦ hp =>
      hΦ.switch hp (hΦ.unblocked _ rfl le_rfl fun x hx => (by cases hx)) le_rfl
  case release st hs hst =>
    exact h.goOn (hlive hs (by decide)) (hst.imp_right .inl) rfl rfl rfl fun Φ hΦ hp =>
      hΦ.closeOpen hp le_rfl
  case releaseActive reason hs _ =>
    exact h.goOn (hlive hs (by decide)) (.inr (.inr rfl)) rfl rfl rfl fun Φ hΦ hp =>
      Periods.forall_insert.2
        ⟨hΦ.unblocked _ rfl le_rfl fun x hx => (by cases hx), hΦ.closeOpen hp le_rfl⟩
  case checkIn reason hs _ =>
    exact h.goOn (hlive hs (by decide)) (.inl hs) rfl rfl rfl fun Φ hΦ hp =>
      Periods.forall_insert.2 ⟨hΦ.unblocked _ rfl le_rfl fun x hx => (by cases hx), hp⟩
  case ready hs =>
    exact h.goOn (hlive hs (by decide)) (.inr (.inl rfl)) rfl rfl rfl fun Φ hΦ hp =>
      hΦ.closeOpen hp le_rfl
  case closeReports sel atMs note hat =>
    have hle : atMs ≤ l.now := by
      rcases hat with hat | ⟨t, htc, hat⟩
      · exact hat
      · exact hat.trans (ht.checks t htc)
    have hclosed : ∀ e' ∈ (l.closeReports sel atMs note).reportsOf ev,
        ∃ e ∈ l.reportsOf ev, e.ClosedTo l.now e' := h.closeReports hle
    refine h.evolve (F := False) ⟨rfl, hclosed, fun Φ _ _ hp => hp, fun hq e' he' => ?_,
      h.blocked⟩ h.live h.dead fun t hend e' he' => ?_
    · obtain ⟨e, he, hto⟩ := hclosed e' he'
      obtain ⟨x, hx⟩ := isSome_iff_exists.1 (h.quiet (hq.resolve_left id) e he)
      exact isSome_of_mem (hto.ended hx)
    · obtain ⟨e, he, hto⟩ := hclosed e' he'
      obtain ⟨hs, x, hx, hxt⟩ := h.ended t hend e he
      exact ⟨hto.startedAt ▸ hs, x, hto.ended hx, hxt⟩
  case gapHold check instanceId gapStart reason prev hprev hok =>
    exact h.hold (k := l.closeGap check instanceId gapStart) hok.status reason prev
      hprev rfl rfl rfl fun Φ hΦ hp => hΦ.closeGap hp instanceId (ht.checks _ hok.issued) hok.le
  case gapContinue check instanceId gapStart reason _ hok =>
    exact h.goOn hok.status (.inr (.inr rfl)) rfl rfl rfl fun Φ hΦ hp =>
      Periods.forall_insert.2 ⟨hΦ.unblocked _ rfl le_rfl fun x hx => (by cases hx),
        hΦ.closeGap hp instanceId (ht.checks _ hok.issued) hok.le⟩
  case gapReady check instanceId gapStart hs hok =>
    exact h.goOn hok.status (.inr (.inl rfl)) rfl rfl rfl fun Φ hΦ hp =>
      hΦ.closeGap hp instanceId (ht.checks _ hok.issued) hok.le
  case reopen addMs _ hs _ hafter =>
    exact h.reopen ht hs fun e he =>
      hafter e (Lifecycle.mem_reportsOf.1 he).1 ((Lifecycle.mem_reportsOf.1 he).2.symm ▸ hG)
  case ingest reports hnew =>
    refine h.ingest ht fun e he hev => (hnew e he).imp_right fun hn => ⟨hn.1, ?_⟩
    subst hev
    exact hn.2 hG
  all_goals exact { h with }

/-! ## Every reachable session -/

/-- The promise that the reports of the event are of the past and nothing is dated back behind
them. -/
def Gate.reportsInTime (ev : EventId) : Gate := { Gate.free with reports := (· = ev) }

theorem Gate.keeps_reportsInTime {ev : EventId} {m : SessionMutation} {op : Op}
    (h : ReportsInTime ev m op) : Keeps (reportsInTime ev) m op :=
  { Gate.keeps_free m op with
    reports := by
      rintro ev' rfl
      exact h }

/-- A report is open or ends no earlier than it started. -/
def EventRow.Ordered (e : EventRow) : Prop :=
  (e.isOpen = true ↔ e.endedAt = none) ∧ ∀ x ∈ e.endedAt, e.startedAt ≤ x

theorem EventRow.Ordered.closeReport {e : EventRow} (h : e.Ordered) (now : Int)
    (sel : EventRow → Bool) (atMs : Int) (note : EventDetails → EventDetails) :
    (Lifecycle.closeReport now sel atMs note e).Ordered := by
  rw [Lifecycle.closeReport]
  split
  · refine ⟨by simp [EventRow.isOpen, EventRow.closeAt], ?_⟩
    rintro x ⟨⟩
    exact le_max_left _ _
  · exact h

theorem Move.ordered {G : Gate} {l l' : Lifecycle} (hm : Move G l l')
    (h : ∀ e ∈ l.reports, e.Ordered) : ∀ e ∈ l'.reports, e.Ordered := by
  have hclose : ∀ {k : Lifecycle}, (∀ e ∈ k.reports, e.Ordered) → ∀ sel atMs note,
      ∀ e ∈ (k.closeReports sel atMs note).reports, e.Ordered := by
    intro k hk sel atMs note
    exact forall_mem_map.2 fun e he => (hk e he).closeReport _ _ _ _
  have hhold : ∀ {k : Lifecycle}, (∀ e ∈ k.reports, e.Ordered) → ∀ reason prev,
      ∀ e ∈ (k.hold reason prev).reports, e.Ordered := by
    intro k hk reason prev
    rw [Lifecycle.hold]
    dsimp only
    split
    · exact hclose hk _ _ _
    · exact hk
  cases hm
  case pause behavior reason _ _ => exact hclose h _ _ _
  case hold reason _ => exact hhold h _ _
  case finish endReason gap _ _ _ _ =>
    have hcarve : ∀ e ∈ (l.carveGap gap (l.endInstant endReason) endReason).reports, e.Ordered := by
      rcases gap with _ | ⟨gapStart, evId⟩
      · exact h
      · rw [Lifecycle.carveGap]
        dsimp only
        split
        · exact h
        · exact hclose h _ _ _
    have hsession : ∀ e ∈ (l.closeSession endReason gap (l.endInstant endReason)).reports, e.Ordered :=
      hclose (k := l.carveGap gap (l.endInstant endReason) endReason) hcarve _ _ _
    rw [Lifecycle.finish]
    split <;> exact hsession
  case closeReports sel atMs note _ => exact hclose h _ _ _
  case gapHold check instanceId gapStart reason prev _ _ =>
    exact hhold (k := l.closeGap check instanceId gapStart) h reason prev
  case reopen addMs _ _ _ _ =>
    rw [Lifecycle.reopen]
    split <;> exact h
  case ingest reports hnew =>
    intro e he
    rcases hnew e he with he | ⟨hstored, -⟩
    · exact h e he
    · exact ⟨hstored.open_iff, hstored.ordered⟩
  all_goals exact h

/-- A stored report respects the timeline of its session: it is closed no earlier than it started
and no later than it was stored; it did not start in a pause or hold and does not extend past the
start of the next one; and it does not extend past the end of the session. -/
structure EventRow.InTimeline (e : EventRow) (m : SessionMutation) : Prop where
  closed : e.isOpen = false → ∃ x ∈ e.endedAt, e.startedAt ≤ x ∧ x ≤ e.receivedAt
  outside : ∀ p ∈ m.periods, p.blocking = true → p.containsInstant e.startedAt = false
  cut : ∀ p ∈ m.periods, p.blocking = true → e.startedAt < p.startedAt →
    ∃ x ∈ e.endedAt, x ≤ p.startedAt
  ended : ∀ t ∈ m.session.endedAt, e.startedAt ≤ t ∧ ∃ x ∈ e.endedAt, x ≤ t

/-- Whatever is reported, a stored report ends no earlier than it started.  And an event of which
every report is of the past when it arrives, and behind which neither an end for time nor a reopened
hold is dated, respects the timeline, whatever is reported of the others. -/
theorem reports_inTimeline (ev : EventId) :
    (∀ m, sessionMachine.Reachable m → ∀ e ∈ m.events.rows, e.fromClient = true → e.isOpen = false →
        ∃ x ∈ e.endedAt, e.startedAt ≤ x) ∧
      ∀ m, (keeping (ReportsInTime ev)).Reachable m →
        ∀ e ∈ m.events.rows, e.id = ev → e.fromClient = true → e.InTimeline m := by
  constructor
  · intro m h e he hclient hclosed
    have hfree : (keeping fun _ _ => True).Reachable m := h.restrict fun _ _ => trivial
    obtain ⟨-, hok⟩ := keeping_invariant (I := fun l => ∀ e ∈ l.reports,
        e.Ordered) (fun m op _ => Gate.keeps_free m op)
      (fun _ _ _ _ _ e he => absurd he not_mem_nil) (fun _ _ _ hl hm => hm.ordered hl) hfree
    obtain ⟨hopen, hordered⟩ := hok e (mem_filter.2 ⟨he, hclient⟩)
    cases hend : e.endedAt with
    | none =>
      rw [hopen.2 hend] at hclosed
      cases hclosed
    | some x => exact ⟨x, rfl, hordered x hend⟩
  · intro m h e he hev hclient
    obtain ⟨-, hok⟩ := keeping_invariant (fun _ _ => Gate.keeps_reportsInTime)
      (fun now durationMs extraMs _ _ => Lifecycle.observed_assigned now durationMs extraMs)
      (fun _ _ ht hl hm => hm.observed rfl ht hl) h
    have hmem : e ∈ m.lifecycle.reportsOf ev :=
      Lifecycle.mem_reportsOf.2 ⟨mem_filter.2 ⟨he, hclient⟩, hev⟩
    have hkept := hok.kept e hmem
    refine ⟨fun hclosed => ?_, fun p hp => (hok.respects e hmem p hp).outside,
      fun p hp => (hok.respects e hmem p hp).cut, fun t ht => hok.ended t ht e hmem⟩
    cases hend : e.endedAt with
    | none =>
      rw [hkept.open_iff.2 hend] at hclosed
      cases hclosed
    | some x => exact ⟨x, rfl, hkept.ordered x hend⟩

/-- A reported episode of a hidden tab. -/
def tabHidden (startedAt : Int) (endedAt : Option Int) (version : Nat) : EventUpsert :=
  { id := ⟨100⟩
    type := .tabHidden
    phase := if endedAt.isSome then .close else .open
    startedAt := some startedAt
    endedAt
    version }

/-- An episode is reported open, another as closed in the future, and the exam is put on hold. -/
theorem reports_inTimeline_held :
    let m := runRequests (startedExam {})
      [⟨10000, {}, .ingestEvents {} ⟨1⟩
          [tabHidden 9000 none 1, { tabHidden 9000 (some 99000) 1 with id := ⟨101⟩ }] fun _ => false⟩,
       ⟨20000, {}, .holdSession⟩]
    m.events.rows.any (fun e => e.id == ⟨100⟩ && e.endedAt == some 20000) = true ∧
      m.events.rows.any (fun e => e.id == ⟨101⟩ && e.endedAt == some 99000) = true ∧
      ∀ e ∈ m.events.rows, e.id = ⟨100⟩ → e.fromClient = true → e.InTimeline m :=
  ⟨by decide, by decide, (reports_inTimeline ⟨100⟩).2 _ (keeping_started (by decide))⟩

/-- An episode that a browser reports at 10000 as closed at 99000 is stored as that, and reaches
into the hold that begins at 20000. -/
theorem report_ends_in_future :
    ¬ ∀ m, sessionMachine.Reachable m →
      ∀ e ∈ m.events.rows, e.fromClient = true → e.InTimeline m := by
  intro h
  have hreport := h (runRequests (startedExam {})
      [⟨10000, {}, .ingestEvents {} ⟨1⟩ [tabHidden 9000 (some 99000) 1] fun _ => false⟩,
       ⟨20000, {}, .holdSession⟩])
    (reachable_started (by decide))
  have hstored : ∃ e ∈ (runRequests (startedExam {})
      [⟨10000, {}, .ingestEvents {} ⟨1⟩ [tabHidden 9000 (some 99000) 1] fun _ => false⟩,
       ⟨20000, {}, .holdSession⟩]).events.rows,
      e.fromClient = true ∧ e.startedAt = 9000 ∧ e.endedAt = some 99000 := by
    decide
  have hheld : ∃ p ∈ (runRequests (startedExam {})
      [⟨10000, {}, .ingestEvents {} ⟨1⟩ [tabHidden 9000 (some 99000) 1] fun _ => false⟩,
       ⟨20000, {}, .holdSession⟩]).periods, p.blocking = true ∧ p.startedAt = 20000 := by
    decide
  obtain ⟨e, he, hclient, hstart, hend⟩ := hstored
  obtain ⟨p, hp, hblocking, hheld⟩ := hheld
  obtain ⟨x, hx, hle⟩ := (hreport e he hclient).cut p hp hblocking (by omega)
  rw [hend, mem_some_iff] at hx
  omega

end SmartProctoring
