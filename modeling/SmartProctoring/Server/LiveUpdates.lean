import Mathlib.Order.Nat
import SmartProctoring.Server.LiveFlush

/-!
# No visible change is lost

Along every run of the live notifier a session of an observed organisation whose last visible change
is not in a published summary is awaited (`Awaited`): marked due with a flush to come, waiting for
its timer, with an event or check to be sent, or in the hands of the running flush, which began to
load it after the change if at all. So when nothing is pending, the summary published last has every
visible change.

The times at which a session is marked due are apart by the interval of the change (`MarksApart`):
the interval of visible changes for these and for the timers they set, the keepalive for routine
ones, and in any case no less than the time after which a state may be forgotten.
-/

set_option autoImplicit false

namespace SmartProctoring

open LiveNotifier
open List

/-! ## No session is forgotten -/

namespace LiveNotifier

variable (data : LiveData) (id : Nat) (s : LiveNotifier)

/-- A flush is scheduled, or waits for the running one. -/
def FlushComing : Prop := s.flushTimer.isSome ∨ 0 < s.waiting

/-- An event or a check of the session is to be sent. -/
def ItemDue : Prop := (∃ e ∈ s.dueEvents, data.sessionOf e = id) ∨ ∃ c ∈ s.dueChecks.rows,
    c.sessionId = id

/-- The session is queued, or an event or a check will queue it. -/
def Pending : Prop := s.Queued id ∨ s.ItemDue data id

/-- The session is marked due and a flush comes to take it, or its timer is armed, or a flush comes
to send its event or check, or the running flush serves it. -/
def Awaited : Prop :=
  (s.dueSessions.find? id).isSome ∧ (s.FlushComing ∨ ∃ p ∈ s.running, p.takes) ∨
    (s.timer? id).isSome ∨
    s.ItemDue data id ∧ s.FlushComing ∨ ∃ p ∈ s.running, p.Serves data s.version id

end LiveNotifier

/-- What holds throughout. -/
structure LiveInv (data : LiveData) (s : LiveNotifier) : Prop where
  orgs : OrgsKnown data s
  due : s.dueSessions.rows ≠ [] → s.FlushComing ∨ ∃ p ∈ s.running, p.takes
  items : s.dueEvents ≠ [] ∨ s.dueChecks.rows ≠ [] → s.FlushComing
  behind : ∀ id, data.found id = true → s.hasSubscribers (data.orgOf id) = true →
    s.covered id ≠ s.version id → s.Pending data id ∨ ∃ p ∈ s.running, p.Serves data s.version id
  loading : ∀ p ∈ s.running, ∀ e ∈ p.summaries, data.found e.1 = true ∧
    (e.2 = s.version e.1 ∨ s.Pending data e.1)
  published : ∀ id ∈ s.published, data.found id = true

section

variable {cfg : LiveNotifierOptions} {data : LiveData} {s s' : LiveNotifier} {p : FlushPhase}

theorem LiveExtends.pending (h : LiveExtends s s') {id : Nat} (hp : s.Pending data id) :
    s'.Pending data id := by
  refine hp.imp (h.queued id) fun hi => ?_
  rwa [ItemDue, h.dueEvents_eq, h.dueChecks_eq]

theorem LiveExtends.flushComing (h : LiveExtends s s') (hf : s.FlushComing) : s'.FlushComing :=
  hf.imp h.flush fun hw => by rwa [h.waiting_eq]

namespace LiveInv

theorem calls (hc : LiveCalls cfg data s s') (h : LiveInv data s) : LiveInv data s' where
  orgs := hc.orgsKnown h.orgs
  due hd := by
    rcases hc.extends.due hd with hd | hf
    · exact (h.due hd).imp hc.extends.flushComing fun hr => by rwa [hc.extends.running_eq]
    · exact .inl (.inl hf)
  items hi := by
    rw [hc.extends.dueEvents_eq, hc.extends.dueChecks_eq] at hi
    exact hc.extends.flushComing (h.items hi)
  behind id hfound hobs hne := by
    rw [hc.extends.hasSubscribers_eq] at hobs
    rw [hc.extends.covered_eq, hc.extends.version_eq] at hne
    rw [hc.extends.running_eq, hc.extends.version_eq]
    exact (h.behind id hfound hobs hne).imp_left hc.extends.pending
  loading p hp e he := by
    rw [hc.extends.running_eq] at hp
    rw [hc.extends.version_eq]
    exact (h.loading p hp e he).imp_right fun hv => hv.imp_right hc.extends.pending
  published := by
    rw [hc.extends.published_eq]
    exact h.published

/-- The next phase. -/
theorem goTo (h : LiveInv data s) {p' : FlushPhase} (hb : p'.Begun data s.version)
    (hdue : s.dueSessions.rows ≠ [] → s.FlushComing ∨ p'.takes)
    (hbehind : ∀ id, data.found id = true → s.hasSubscribers (data.orgOf id) = true →
      s.covered id ≠ s.version id →
      s.Pending data id ∨ p'.Serves data s.version id) : LiveInv data (s.goTo p') where
  __ := h
  orgs := ⟨⟨h.orgs.sessions, h.orgs.due⟩, h.orgs.checks, fun _ hp => Option.some.inj hp ▸ hb.orgs⟩
  due hd := (hdue hd).imp_right fun ht => ⟨p', rfl, ht⟩
  behind id hfound hobs hne := (hbehind id hfound hobs hne).imp_right fun hs => ⟨p', rfl, hs⟩
  loading p hp e he := by
    obtain rfl := Option.some.inj hp
    exact ⟨(hb.fresh e he).2, .inl (hb.fresh e he).1⟩

theorem beginFlush (h : LiveInv data s) (hrun : s.running = none) (timer : Option Nat)
    (waiting : Nat) :
    LiveInv data { s with flushTimer := timer, waiting := waiting }.beginFlush where
  orgs := ⟨⟨h.orgs.sessions, h.orgs.due⟩,
    fun c hc => by simp [LiveNotifier.beginFlush, Table.empty] at hc,
    fun p hp => Option.some.inj hp ▸ h.orgs.checks⟩
  due _ := .inr ⟨_, rfl, trivial⟩
  items hi := by simp [LiveNotifier.beginFlush, Table.empty] at hi
  behind id hfound hobs hne := by
    rcases h.behind id hfound hobs hne with (hq | hi) | ⟨p, hp, -⟩
    · exact .inl (.inl hq)
    · exact .inr ⟨_, rfl, hi⟩
    · simp [hrun] at hp
  loading p hp e he := by
    obtain rfl := Option.some.inj hp
    simp [FlushPhase.summaries] at he
  published := h.published

theorem bump (h : LiveInv data s) {id : Nat}
    (hp : s.hasSubscribers (data.orgOf id) = true → s.Pending data id) :
    LiveInv data (s.bump data id) := by
  unfold LiveNotifier.bump
  split
  next hobs =>
    have hpid := hp hobs
    refine ⟨⟨⟨h.orgs.sessions, h.orgs.due⟩, h.orgs.checks, h.orgs.running⟩, h.due, h.items,
      fun id' hfound hobs' hne => ?_,
      fun p hp e he => ?_, h.published⟩
    · by_cases hid : id' = id
      · exact .inl (hid ▸ hpid)
      · have hne' : s.covered id' ≠ s.version id' := by simpa [hid] using hne
        refine (h.behind id' hfound hobs' hne').imp_right ?_
        rintro ⟨p, hp, hs⟩
        refine ⟨p, hp, ?_⟩
        cases p with
        | loading => simpa [FlushPhase.Serves, hid] using hs
        | _ => exact hs
    · refine (h.loading p hp e he).imp_right fun hv => ?_
      by_cases hid : e.1 = id
      · exact .inr (hid ▸ hpid)
      · exact hv.imp_left fun hv => by simpa [hid] using hv
  next => exact h

theorem covered_publish (summaries : List (Nat × Nat)) (s : LiveNotifier) (id : Nat) :
    (id, (s.publish summaries).covered id) ∈ summaries ∨
      (∀ v, (id, v) ∉ summaries) ∧ (s.publish summaries).covered id = s.covered id := by
  show (id, summaries.foldl (fun covered e => Function.update covered e.1 e.2) s.covered id) ∈
    summaries ∨
    (∀ v, (id, v) ∉ summaries) ∧ summaries.foldl (fun covered e =>
      Function.update covered e.1 e.2) s.covered id =
      s.covered id
  generalize s.covered = covered
  induction summaries generalizing covered with
  | nil => exact .inr ⟨by simp, rfl⟩
  | cons e summaries ih =>
    rw [foldl_cons]
    rcases ih (Function.update covered e.1 e.2) with hmem | ⟨hno, heq⟩
    · exact .inl (mem_cons_of_mem e hmem)
    · by_cases hid : id = e.1
      · subst hid
        rw [heq, Function.update_self]
        exact .inl mem_cons_self
      · rw [heq, Function.update_of_ne hid]
        refine .inr ⟨fun v hv => ?_, rfl⟩
        rcases mem_cons.1 hv with he | hv
        · exact hid (congrArg Prod.fst he)
        · exact hno v hv

theorem pending_take (id : Nat) (h : s.Pending data id) :
    (s.dueSessions.find? id).isSome ∨ Pending data id { s with dueSessions := .empty } := by
  rcases h with (hd | ht) | hi
  · exact .inl hd
  · exact .inr (.inl (.inr ht))
  · exact .inr (.inr hi)

theorem phaseStep (h : LiveInv data s) (hrun : s.running = some p) :
    LiveInv data (p.step cfg data s) := by
  have hserves : ∀ id, data.found id = true → s.hasSubscribers (data.orgOf id) = true →
      s.covered id ≠ s.version id → s.Pending data id ∨ p.Serves data s.version id := by
    intro id hfound hobs hne
    refine (h.behind id hfound hobs hne).imp_right ?_
    rintro ⟨p', hp', hs⟩
    obtain rfl := Option.some.inj (hrun.symm.trans hp')
    exact hs
  have hdue : s.dueSessions.rows ≠ [] → s.FlushComing ∨ p.takes := by
    intro hd
    refine (h.due hd).imp_right ?_
    rintro ⟨p', hp', ht⟩
    obtain rfl := Option.some.inj (hrun.symm.trans hp')
    exact ht
  rcases FlushPhase.step_cases cfg (h.orgs.running p hrun) h.orgs.toSessionsKnown with
    ⟨s₁, p', hc, hstep, hb, htakes, -, hpass⟩ | ⟨rfl, hnil, hstep⟩ | ⟨rfl, p', hstep, hb, htaken⟩ |
    ⟨rfl, hstep⟩ | ⟨p', hstep, hb, hno, hpass⟩ <;> rw [hstep]
  · have hx := hc.extends
    refine (h.calls hc).goTo (by rwa [hx.version_eq]) (fun hd => ?_) fun id hfound hobs hne => ?_
    · rcases hx.due hd with hd | hf
      · exact (hdue hd).imp hx.flushComing htakes
      · exact .inl (.inl hf)
    · rw [hx.hasSubscribers_eq] at hobs
      rw [hx.covered_eq, hx.version_eq] at hne
      rw [hx.version_eq]
      rcases hserves id hfound hobs hne with hpend | hs
      · exact .inl (hx.pending hpend)
      · exact (hpass id hfound hobs hs).imp_left .inl
  · have hnone : ∀ id, s.dueSessions.find? id = none := fun id => Table.find?_eq_none.2 (by simp [hnil])
    refine ⟨⟨⟨h.orgs.sessions, by simp [Table.find?, Table.empty, endFlush]⟩, h.orgs.checks, by simp [endFlush]⟩,
      by simp [Table.empty, endFlush], h.items, fun id hfound hobs hne => ?_, by simp [endFlush], h.published⟩
    rcases hserves id hfound hobs hne with hpend | hs
    · rcases pending_take id hpend with hd | hpend
      · simp [hnone id] at hd
      · exact .inl hpend
    · exact hs.elim
  · have hempty : LiveInv data ({ s with dueSessions := .empty }.goTo p') := by
      refine ⟨⟨⟨h.orgs.sessions, by simp [Table.find?, Table.empty, LiveNotifier.goTo]⟩, h.orgs.checks,
        fun _ hp => Option.some.inj hp ▸ hb.orgs⟩, by simp [Table.empty, LiveNotifier.goTo], h.items,
        fun id hfound hobs hne => ?_, fun q hq e he => ?_, h.published⟩
      · rcases hserves id hfound hobs hne with hpend | hs
        · rcases pending_take id hpend with hd | hpend
          · exact .inr ⟨p', rfl, htaken id hd⟩
          · exact .inl hpend
        · exact hs.elim
      · obtain rfl := Option.some.inj hq
        exact ⟨(hb.fresh e he).2, .inl (hb.fresh e he).1⟩
    exact hempty
  · refine ⟨⟨⟨h.orgs.sessions, h.orgs.due⟩, h.orgs.checks, by simp [endFlush]⟩,
      fun hd => .inl ((hdue hd).resolve_right fun ht => ht), h.items, fun id hfound hobs hne => .inl ?_,
      by simp [endFlush], h.published⟩
    refine (hserves id hfound hobs hne).resolve_right fun hs => ?_
    simp [FlushPhase.Serves] at hs
  · have hpub : LiveInv data ((s.publish p.summaries).goTo p') := by
      refine ⟨⟨⟨h.orgs.sessions, h.orgs.due⟩, h.orgs.checks, fun _ hp => Option.some.inj hp ▸ hb.orgs⟩,
        fun hd => .inl ((hdue hd).resolve_right hno), h.items, fun id hfound hobs hne => ?_, fun q hq e he => ?_,
        fun id hid => ?_⟩
      · rcases covered_publish p.summaries s id with hmem | ⟨hnot, heq⟩
        · exact .inl ((h.loading p hrun _ hmem).2.resolve_left hne)
        · have hne' : s.covered id ≠ s.version id := fun he => hne (heq.trans he)
          rcases hserves id hfound hobs hne' with hpend | hs
          · exact .inl hpend
          · exact .inr ⟨p', rfl, (hpass id hfound hs).resolve_left (hnot _)⟩
      · obtain rfl := Option.some.inj hq
        exact ⟨(hb.fresh e he).2, .inl (hb.fresh e he).1⟩
      · rcases mem_append.1 hid with hid | hid
        · exact h.published id hid
        · obtain ⟨e, he, rfl⟩ := mem_map.1 hid
          exact (h.loading p hrun e he).1
    exact hpub

theorem flushStep (h : LiveInv data s) : LiveInv data (s.flushStep cfg data) := by
  unfold LiveNotifier.flushStep
  split
  next hrun =>
    unfold beginWaiting
    split
    · exact h.beginFlush hrun s.flushTimer _
    · exact h
  next p hrun => exact h.phaseStep hrun

theorem flushTimerFired (h : LiveInv data s) : LiveInv data s.flushTimerFired := by
  unfold LiveNotifier.flushTimerFired
  dsimp only
  split
  · have hcoming : ∀ {q : Prop}, q ∨ 0 < s.waiting + 1 := .inr (by omega)
    exact { h with
        orgs := ⟨⟨h.orgs.sessions, h.orgs.due⟩, h.orgs.checks, h.orgs.running⟩
        due := fun _ => .inl hcoming
        items := fun _ => hcoming }
  next hno =>
    have hrun : s.running = none := by
      rcases hr : s.running with _ | p
      · rfl
      · simp [hr] at hno
    exact h.beginFlush hrun none s.waiting

theorem addItem (h : LiveInv data s) {events : List Nat} {checks : Table DueCheck.checkId} {t : Nat}
    (hevents : s.dueEvents ⊆ events)
    (hchecks : ∀ c ∈ s.dueChecks.rows, ∃ c' ∈ checks.rows, c'.sessionId = c.sessionId)
    (hknown : ChecksKnown data checks.rows) :
    LiveInv data { s with dueEvents := events, dueChecks := checks, flushTimer := some t } := by
  have hpend : ∀ id, s.Pending data id →
      Pending data id { s with dueEvents := events, dueChecks := checks, flushTimer := some t } := by
    intro id hp
    refine hp.imp_right fun hi => hi.imp ?_ ?_
    · rintro ⟨e, he, hid⟩
      exact ⟨e, hevents he, hid⟩
    · rintro ⟨c, hc, rfl⟩
      exact hchecks c hc
  refine ⟨⟨⟨h.orgs.sessions, h.orgs.due⟩, hknown, h.orgs.running⟩, fun _ => .inl (.inl rfl),
    fun _ => .inl rfl, ?_,
    ?_, h.published⟩
  · intro id hfound hobs hne
    exact (h.behind id hfound hobs hne).imp_left (hpend id)
  · intro p hp e he
    exact (h.loading p hp e he).imp_right fun hv => hv.imp_right (hpend e.1)

theorem observed_knownOrg {known : Bool} {id : Nat} (h : s.hasSubscribers (data.orgOf id) = true) :
    s.observed (knownOrg data known id) = true := by
  cases known
  · rfl
  · exact h

section

variable (h : LiveInv data s)
include h

theorem eventChanged (e : Nat) (known : Bool) :
    LiveInv data ((s.eventChanged cfg e (knownOrg data known (data.sessionOf e))).bump data
      (data.sessionOf e)) := by
  unfold LiveNotifier.eventChanged
  split
  next hno => exact h.bump fun hobs => absurd (observed_knownOrg hobs) hno
  next =>
    obtain ⟨t, heq⟩ := scheduleFlush_eq cfg { s with dueEvents := s.dueEvents.insert e }
    rw [heq]
    refine (h.addItem (fun _ => mem_insert_of_mem) (fun c hc => ⟨c, hc, rfl⟩) h.orgs.checks).bump fun _ => ?_
    exact .inr (.inl ⟨e, mem_insert_self, rfl⟩)

theorem identityCheck (c : Nat) (known : Bool) : LiveInv data ((s.identityCheck cfg
      ⟨c, data.sessionOfCheck c, knownOrg data known (data.sessionOfCheck c)⟩).bump data
        (data.sessionOfCheck c)) := by
  unfold LiveNotifier.identityCheck
  split
  next hno => exact h.bump fun hobs => absurd (observed_knownOrg hobs) hno
  next =>
    obtain ⟨t, heq⟩ := scheduleFlush_eq cfg { s with
      dueChecks := s.dueChecks.upsert ⟨c, data.sessionOfCheck c, knownOrg data known (data.sessionOfCheck c)⟩ }
    rw [heq]
    refine (h.addItem (List.Subset.refl _) (fun c' hc' => ?_) fun c' hc' => ?_).bump fun _ => ?_
    · by_cases hk : c'.checkId = c
      · refine ⟨_, Table.mem_upsert.2 (.inl rfl), ?_⟩
        rw [(h.orgs.checks c' hc').1, hk]
      · exact ⟨c', Table.mem_upsert.2 (.inr ⟨hc', hk⟩), rfl⟩
    · rcases Table.mem_upsert.1 hc' with rfl | ⟨hc', -⟩
      · cases known <;> simp [knownOrg]
      · exact h.orgs.checks c' hc'
    · exact .inr (.inr ⟨_, Table.mem_upsert.2 (.inl rfl), rfl⟩)

theorem sessionChanged (id : Nat) (known visible : Bool) :
    LiveInv data ((LiveInput.sessionChanged id known visible).step cfg data s) := by
  have hc : LiveCalls cfg data s (s.sessionChanged cfg id (knownOrg data known id) visible) :=
    liveCalls_sessionChanged (by cases known <;> simp [knownOrg]) visible
  rcases visible with _ | _
  · exact h.calls hc
  · refine (h.calls hc).bump fun hobs => .inl (queued_sessionChanged ?_)
    rw [hc.extends.hasSubscribers_eq] at hobs
    rcases known with _ | _
    · rcases hs : s.session? id with _ | st
      · rfl
      · rcases ho : st.orgId with _ | o
        · simp [knownOrg, ho, observed]
        · obtain rfl := h.orgs.sessions id st hs o ho
          simpa [knownOrg, hs, ho, observed] using hobs
    · exact hobs

theorem setSubscribers (orgId : Nat) (any : Bool) :
    LiveInv data (s.setSubscribers data orgId any) := by
  refine { h with
      orgs := ⟨⟨h.orgs.sessions, h.orgs.due⟩, h.orgs.checks, h.orgs.running⟩
      behind := fun id hfound hobs hne => ?_ }
  by_cases ho : data.orgOf id = orgId
  · simp [LiveNotifier.setSubscribers, ho] at hne
  · simp only [LiveNotifier.setSubscribers, ho, if_false, Function.update_of_ne ho] at hne hobs
    exact h.behind id hfound hobs hne

theorem step {i : LiveInput} (hi : i.enabled s) : LiveInv data (i.step cfg data s) := by
  cases i with
  | tick ms => exact { h with
      orgs := ⟨⟨h.orgs.sessions, h.orgs.due⟩, h.orgs.checks, h.orgs.running⟩ }
  | sessionChanged id known visible => exact h.sessionChanged id known visible
  | eventChanged e known => exact h.eventChanged e known
  | identityCheck c known => exact h.identityCheck c known
  | timerFired id => exact h.calls (liveCalls_timerFired hi)
  | flushTimerFired => exact h.flushTimerFired
  | flushStep => exact h.flushStep
  | subscribers orgId any => exact h.setSubscribers orgId any

end

theorem reachable (h : (liveMachine cfg data).Reachable s) : LiveInv data s := by
  induction h with
  | init h =>
    obtain ⟨now, rfl⟩ := h
    refine ⟨⟨⟨?_, ?_⟩, ?_, ?_⟩, ?_, ?_, ?_, ?_, ?_⟩ <;>
      simp [start, Table.empty, Table.find?, session?, ChecksKnown]
  | step _ i hi ih => exact ih.step hi

end LiveInv

end

/-! ## The times between two marks -/

/-- A mark is later than those before by the interval of its change, or by the time after which
states may be forgotten. -/
def MarksApart (cfg : LiveNotifierOptions) (marks : List LiveMark) : Prop :=
  marks.Pairwise fun later earlier =>
    earlier.time + min (cfg.intervalMs later.visible) LIVE_PRUNE_MS ≤ later.time

/-- The state of a session remembers its marks until they are old enough. -/
structure SpacedInv (cfg : LiveNotifierOptions) (data : LiveData) (s : LiveNotifier) : Prop where
  lastSent : ∀ id st, s.session? id = some st → st.lastSentAt ≤ s.now
  timer : ∀ id st, s.session? id = some st → ∀ t ∈ st.timer,
    st.lastSentAt + cfg.sessionIntervalMs ≤ t
  marked : ∀ id, data.found id = true → s.hasSubscribers (data.orgOf id) = true → ∀ m ∈ s.marks id,
    (∃ st, s.session? id = some st ∧ m.time ≤ st.lastSentAt) ∨ m.time + LIVE_PRUNE_MS ≤ s.now
  apart : ∀ id, data.found id = true → s.hasSubscribers (data.orgOf id) = true →
    MarksApart cfg (s.marks id)

section

variable {cfg : LiveNotifierOptions} {data : LiveData} {s s' : LiveNotifier}

namespace SpacedInv

theorem congr (h : SpacedInv cfg data s) (hnow : s'.now = s.now)
    (hsessions : s'.sessions = s.sessions)
    (hmarks : s'.marks = s.marks) (hobs : s'.hasSubscribers = s.hasSubscribers) :
    SpacedInv cfg data s' := by
  have hsession : ∀ id, s'.session? id = s.session? id :=
    fun id => by rw [session?, hsessions, session?]
  constructor
  · simpa only [hsession, hnow] using h.lastSent
  · simpa only [hsession] using h.timer
  · simpa only [hsession, hnow, hmarks, hobs] using h.marked
  · simpa only [hmarks, hobs] using h.apart

variable {id : Nat}

theorem setSession (h : SpacedInv cfg data s) {st st' : LiveSession} (hst : s.session? id = some st)
    (hlast : st'.lastSentAt ≤ s.now) (htimer : ∀ t ∈ st'.timer,
      st'.lastSentAt + cfg.sessionIntervalMs ≤ t)
    (hmarked : data.found id = true → s.hasSubscribers (data.orgOf id) = true →
      st.lastSentAt ≤ st'.lastSentAt) :
    SpacedInv cfg data (s.setSession id st') := by
  refine ⟨fun id' st₁ hst₁ => ?_, fun id' st₁ hst₁ => ?_, fun id' hfound hobs m hm => ?_, h.apart⟩
  · rw [session?_setSession] at hst₁
    split at hst₁
    next => exact Option.some.inj hst₁ ▸ hlast
    next => exact h.lastSent id' st₁ hst₁
  · rw [session?_setSession] at hst₁
    split at hst₁
    next => exact Option.some.inj hst₁ ▸ htimer
    next => exact h.timer id' st₁ hst₁
  · refine (h.marked id' hfound hobs m hm).imp_left ?_
    rintro ⟨st₀, hst₀, hle⟩
    rw [session?_setSession]
    split
    next hid =>
      subst hid
      obtain rfl := Option.some.inj (hst.symm.trans hst₀)
      exact ⟨st', rfl, hle.trans (hmarked hfound hobs)⟩
    next => exact ⟨st₀, hst₀, hle⟩

variable {st : LiveSession}

theorem touch (h : SpacedInv cfg data s) {orgId : Option Nat}
    (ht : Touched id orgId st s s') : SpacedInv cfg data s' := by
  have hnow : s'.now = s.now := by rw [ht.rest]
  have hmarks : s'.marks = s.marks := by rw [ht.rest]
  have hobs' : s'.hasSubscribers = s.hasSubscribers := by rw [ht.rest]
  have hcases : ∀ id' st', s'.session? id' = some st' → s.session? id' = none ∧ st'.lastSentAt = 0 ∧
      st'.timer = none ∨
      ∃ st₀, s.session? id' = some st₀ ∧ st'.lastSentAt = st₀.lastSentAt ∧
      st'.timer = st₀.timer := by
    intro id' st' hst'
    by_cases hid : id' = id
    · subst hid
      obtain rfl := Option.some.inj (ht.self.symm.trans hst')
      rcases hs : s.session? id' with _ | st₀
      · exact .inl ⟨rfl, ht.sent_none hs, by rw [ht.timer, timer?, hs]; rfl⟩
      · exact .inr ⟨st₀, rfl, ht.sent st₀ hs, by rw [ht.timer, timer?, hs]; rfl⟩
    · rcases ht.others id' hid with heq | ⟨hnone, -⟩
      · exact .inr ⟨st', heq ▸ hst', rfl, rfl⟩
      · simp [hnone] at hst'
  refine ⟨fun id' st' hst' => ?_, fun id' st' hst' t hmem => ?_, fun id' hfound hobs m hm => ?_,
    by rw [hmarks, hobs']; exact h.apart⟩
  · rcases hcases id' st' hst' with ⟨-, hlast, -⟩ | ⟨st₀, hst₀, hlast, -⟩
    · omega
    · have := h.lastSent id' st₀ hst₀
      omega
  · rcases hcases id' st' hst' with ⟨-, -, htimer⟩ | ⟨st₀, hst₀, hlast, htimer⟩
    · simp [htimer] at hmem
    · rw [hlast]
      exact h.timer id' st₀ hst₀ t (htimer ▸ hmem)
  · rw [hobs'] at hobs
    rw [hmarks] at hm
    rw [hnow]
    rcases h.marked id' hfound hobs m hm with ⟨st₀, hst₀, hle⟩ | hold
    · by_cases hid : id' = id
      · subst hid
        exact .inl ⟨st, ht.self, hle.trans (ht.sent st₀ hst₀).ge⟩
      · rcases ht.others id' hid with heq | ⟨-, hpruned⟩
        · exact .inl ⟨st₀, heq.trans hst₀, hle⟩
        · have := (hpruned st₀ hst₀).2
          exact .inr (by omega)
    · exact .inr hold

theorem mark (h : SpacedInv cfg data s) (visible : Bool) (hst : s.session? id = some st)
    (hdue : st.lastSentAt + cfg.intervalMs visible ≤ s.now) :
    SpacedInv cfg data (s.markSessionDue cfg id { st with timer := none } visible) := by
  obtain ⟨t, heq⟩ := markSessionDue_eq cfg s id { st with timer := none } visible
  have hset : SpacedInv cfg data (s.setSession id { st with lastSentAt := s.now, timer := none }) :=
    h.setSession hst le_rfl (by simp) fun _ _ => h.lastSent id st hst
  rw [heq]
  refine ⟨hset.lastSent, hset.timer, fun id' hfound hobs m hm => ?_, fun id' hfound hobs => ?_⟩
  · by_cases hid : id' = id
    · subst hid
      simp only [Function.update_self, mem_cons] at hm
      rcases hm with rfl | hm
      · exact .inl ⟨_, (session?_setSession id').trans (if_pos rfl), le_rfl⟩
      · exact hset.marked id' hfound hobs m hm
    · simp only [Function.update_of_ne hid] at hm
      exact hset.marked id' hfound hobs m hm
  · by_cases hid : id' = id
    · subst hid
      simp only [Function.update_self]
      refine pairwise_cons.2 ⟨fun m hm => ?_, h.apart id' hfound hobs⟩
      show m.time + min (cfg.intervalMs visible) LIVE_PRUNE_MS ≤ s.now
      rcases h.marked id' hfound hobs m hm with ⟨st₀, hst₀, hle⟩ | hold
      · obtain rfl := Option.some.inj (hst.symm.trans hst₀)
        omega
      · omega
    · simp only [Function.update_of_ne hid]
      exact h.apart id' hfound hobs

section

variable (hcfg : cfg.sessionIntervalMs ≤ TIMEOUT_MAX)
include hcfg

theorem call (h : SpacedInv cfg data s) (hc : LiveCall cfg data s s') : SpacedInv cfg data s' := by
  cases hc with
  | touch ht _ => exact h.touch ht
  | @mark id st visible hst hdue =>
    refine h.mark visible hst ?_
    rcases hdue with ⟨-, hdue⟩ | ⟨rfl, t, ht, hnow⟩
    · exact hdue
    · exact (h.timer id st hst t ht).trans hnow
  | @arm id st hst =>
    have hlast := h.lastSent id st hst
    refine h.setSession hst hlast (fun t ht => ?_) fun _ _ => le_rfl
    have hms : timeoutMs (st.lastSentAt + cfg.sessionIntervalMs - s.now) =
        st.lastSentAt + cfg.sessionIntervalMs - s.now := if_neg (by omega)
    have := Option.some.inj ht
    dsimp only
    omega
  | learn id =>
    unfold learnOrg
    split
    next st hst => exact h.setSession hst (h.lastSent id st hst) (h.timer id st hst) fun _ _ => le_rfl
    next => exact h
  | @unthrottle id hno =>
    unfold LiveNotifier.unthrottle
    split
    next st hst =>
      refine h.setSession hst (Nat.zero_le _) (fun t ht => ?_) fun hfound hobs => ?_
      · have := h.timer id st hst t ht
        dsimp only
        omega
      · simp [hno hfound] at hobs
    next => exact h

theorem step (hinv : LiveInv data s) (h : SpacedInv cfg data s)
    {i : LiveInput} (hi : i.enabled s) : SpacedInv cfg data (i.step cfg data s) := by
  have hcalls : ∀ {s'}, LiveCalls cfg data s s' → SpacedInv cfg data s' := fun hc =>
    hc.keep (fun _ _ _ hc' ht => ht.call hcfg hc') h
  have hbump : ∀ {t : LiveNotifier} {id : Nat}, SpacedInv cfg data t →
      SpacedInv cfg data (t.bump data id) := by
    intro t id ht
    unfold bump
    split
    · exact ht.congr rfl rfl rfl rfl
    · exact ht
  cases i with
  | tick ms =>
    refine ⟨fun id st hst => ?_, h.timer, fun id hfound hobs m hm => ?_, h.apart⟩
    · exact (h.lastSent id st hst).trans (Nat.le_add_right _ ms)
    · exact (h.marked id hfound hobs m hm).imp_right fun hold => hold.trans (Nat.le_add_right _ ms)
  | sessionChanged id known visible =>
    have hc : SpacedInv cfg data (s.sessionChanged cfg id (knownOrg data known id) visible) :=
      hcalls (liveCalls_sessionChanged (by cases known <;> simp [knownOrg]) visible)
    rcases visible with _ | _
    · exact hc
    · exact hbump hc
  | eventChanged e known =>
    refine hbump ?_
    unfold LiveNotifier.eventChanged
    split
    · exact h
    · obtain ⟨t, heq⟩ := scheduleFlush_eq cfg { s with dueEvents := s.dueEvents.insert e }
      rw [heq]
      exact h.congr rfl rfl rfl rfl
  | identityCheck c known =>
    refine hbump ?_
    unfold LiveNotifier.identityCheck
    split
    · exact h
    · obtain ⟨t, heq⟩ := scheduleFlush_eq cfg { s with
        dueChecks := s.dueChecks.upsert ⟨c, data.sessionOfCheck c, knownOrg data known (data.sessionOfCheck c)⟩ }
      rw [heq]
      exact h.congr rfl rfl rfl rfl
  | timerFired id => exact hcalls (liveCalls_timerFired hi)
  | flushTimerFired =>
    dsimp only [LiveInput.step, flushTimerFired]
    split <;> exact h.congr rfl rfl rfl rfl
  | flushStep =>
    dsimp only [LiveInput.step, flushStep]
    split
    next =>
      unfold beginWaiting
      split <;> exact h.congr rfl rfl rfl rfl
    next p hrun =>
      rcases FlushPhase.step_cases cfg (hinv.orgs.running p hrun) hinv.orgs.toSessionsKnown with
        ⟨s₁, p', hc, hstep, -⟩ | ⟨-, -, hstep⟩ | ⟨-, p', hstep, -⟩ | ⟨-, hstep⟩ | ⟨p', hstep, -⟩ <;> rw [hstep]
      · exact (hcalls hc).congr rfl rfl rfl rfl
      · exact h.congr rfl rfl rfl rfl
      · exact h.congr rfl rfl rfl rfl
      · exact h.congr rfl rfl rfl rfl
      · exact h.congr rfl rfl rfl rfl
  | subscribers orgId any =>
    refine ⟨h.lastSent, h.timer, fun id hfound hobs m hm => ?_, fun id hfound hobs => ?_⟩
    · by_cases ho : data.orgOf id = orgId
      · simp [LiveInput.step, setSubscribers, ho] at hm
      · simp only [LiveInput.step, setSubscribers, ho, if_false, Function.update_of_ne ho] at hm hobs
        exact h.marked id hfound hobs m hm
    · by_cases ho : data.orgOf id = orgId
      · simp [LiveInput.step, setSubscribers, ho, MarksApart]
      · simp only [LiveInput.step, setSubscribers, ho, if_false, Function.update_of_ne ho] at hobs ⊢
        exact h.apart id hfound hobs

theorem reachable (h : (liveMachine cfg data).Reachable s) : SpacedInv cfg data s := by
  induction h with
  | init h =>
    obtain ⟨now, rfl⟩ := h
    refine ⟨?_, ?_, ?_, ?_⟩ <;> simp [start, Table.empty, Table.find?, session?, MarksApart]
  | step hr i hi ih => exact ih.step hcfg (.reachable hr) hi

end

end SpacedInv

theorem LiveInv.awaited (h : LiveInv data s) {id : Nat} (hfound : data.found id = true)
    (hobs : s.hasSubscribers (data.orgOf id) = true) (hne : s.covered id ≠ s.version id) :
    s.Awaited data id := by
  rcases h.behind id hfound hobs hne with ((hd | ht) | hi) | hs
  · obtain ⟨e, he⟩ := Option.isSome_iff_exists.1 hd
    have hrow : e ∈ s.dueSessions.rows := (Table.find?_eq_some.1 he).1
    exact .inl ⟨hd, h.due (ne_nil_of_mem hrow)⟩
  · exact .inr (.inl ht)
  · refine .inr (.inr (.inl ⟨hi, h.items (hi.imp ?_ ?_)⟩))
    · rintro ⟨e, he, -⟩
      exact ne_nil_of_mem he
    · rintro ⟨c, hc, -⟩
      exact ne_nil_of_mem hc
  · exact .inr (.inr (.inr hs))

/-- **Live updates lose no visible change.**  A session whose last visible change is in no summary
is awaited, so when nothing of it is queued and no flush is coming or running, the summary published
last has every change.  And the times at which a session is marked due are apart by the interval of
the change. -/
theorem live_updates (hcfg : cfg.sessionIntervalMs ≤ TIMEOUT_MAX)
    (h : (liveMachine cfg data).Reachable s) :
    (∀ id, data.found id = true → s.hasSubscribers (data.orgOf id) = true →
      (s.covered id ≠ s.version id → s.Awaited data id) ∧
      (s.timer? id = none → s.flushTimer = none → s.waiting = 0 → s.running = none → s.covered id = s.version id) ∧
      MarksApart cfg (s.marks id)) ∧
    ∀ id ∈ s.published, data.found id = true := by
  have hinv := LiveInv.reachable h
  refine ⟨fun id hfound hobs => ⟨hinv.awaited hfound hobs, fun htimer hflush hwaiting hrun => ?_,
    (SpacedInv.reachable hcfg h).apart id hfound hobs⟩, hinv.published⟩
  by_contra hne
  have hno : ¬ s.FlushComing := by simp [FlushComing, hflush, hwaiting]
  rcases hinv.awaited hfound hobs hne with ⟨-, hf | ⟨p, hp, -⟩⟩ | ht | ⟨-, hf⟩ | ⟨p, hp, -⟩
  · exact hno hf
  · simp [hrun] at hp
  · simp [htimer] at ht
  · exact hno hf
  · simp [hrun] at hp

end

/-- Every session is there, of one organisation. -/
def oneOrg : LiveData := ⟨fun _ => true, fun _ => 0, id, id⟩

/-- A change that is published, from the mark to the end of the flush. -/
def publishedChange : List LiveInput :=
  [.subscribers 0 true, .sessionChanged 1 true true, .tick 50, .flushTimerFired, .flushStep,
    .flushStep, .flushStep,
    .flushStep, .flushStep, .flushStep]

/-- A second change, half a second after the first one was published, waits for its timer. -/
def changedAgain : List LiveInput := publishedChange ++ [.tick 500, .sessionChanged 1 true true]

theorem changedAgain_admits :
    (liveMachine LIVE_DEFAULTS oneOrg).Admits (.start 100000) changedAgain := by
  decide +kernel

theorem live_updates_again :
    ((liveMachine LIVE_DEFAULTS oneOrg).run (.start 100000) changedAgain).covered 1 = 1 ∧
      ((liveMachine LIVE_DEFAULTS oneOrg).run (.start 100000) changedAgain).Awaited oneOrg 1 :=
  ⟨by decide +kernel,
    ((live_updates (by decide) (.run (.init (start_init _ _ _)) changedAgain_admits)).1 1 rfl
    (by decide +kernel)).1 (by decide +kernel)⟩

/-- An event leaves its session neither due nor waiting nor being loaded until a flush sends it.
And where routine changes are held back for less time than visible ones, a summary is sent and the
session is marked due again before the interval of visible changes is over. -/
theorem routine_mark_early :
    (∀ s, s = (liveMachine LIVE_DEFAULTS oneOrg).run (.start 100000) [.subscribers 0 true, .eventChanged 1 true] →
      s.version 1 = 1 ∧ s.covered 1 = 0 ∧ s.dueSessions.find? 1 = none ∧ s.timer? 1 = none ∧ s.running = none) ∧
    (liveMachine ⟨20000, 10000, 50⟩ oneOrg).Admits (.start 100000)
        (publishedChange ++ [.tick 9950, .sessionChanged 1 true false]) ∧
      ((liveMachine ⟨20000, 10000, 50⟩ oneOrg).run (.start 100000) publishedChange).published =
      [1] ∧
      ((liveMachine ⟨20000, 10000, 50⟩ oneOrg).run (.start 100000) publishedChange).marks 1 =
      [⟨100000, true⟩] ∧ ((liveMachine ⟨20000, 10000, 50⟩ oneOrg).run (.start 100000)
          (publishedChange ++ [.tick 9950, .sessionChanged 1 true false])).marks 1 =
        [⟨110000, false⟩, ⟨100000, true⟩] ∧
      ¬ 100000 + (⟨20000, 10000, 50⟩ : LiveNotifierOptions).sessionIntervalMs ≤ 110000 := by
  refine ⟨?_, by decide +kernel⟩
  rintro _ rfl
  decide +kernel

end SmartProctoring
