import SmartProctoring.Server.LiveNotifier

/-!
# What a call does to the live notifier

Whatever a caller or a flush does to the states of the sessions and the due set is a sequence of few
moves (`LiveCall`): a state is touched, marked due, given a timer, told its organisation, or
un-throttled.  No move takes a session out of the queue (`LiveExtends`).
-/

set_option autoImplicit false

namespace SmartProctoring

namespace LiveNotifier

variable {cfg : LiveNotifierOptions} {data : LiveData} {s s' s'' : LiveNotifier} {id : Nat}
    {st : LiveSession}

/-! ## The states of the sessions -/

@[simp] theorem session?_setSession (id' : Nat) :
    (s.setSession id st).session? id' = if id' = id then some st else s.session? id' := by
  unfold session? setSession
  simp only [Table.find?_upsert]
  split <;> rfl

theorem session?_prune (id' : Nat) :
    s.prune.session? id' =
      (s.session? id').filter fun st => st.timer.isSome ||
      decide (s.now ≤ st.lastSentAt + LIVE_PRUNE_MS) := by
  have h : ∀ r, s.prune.sessions.find? id' = some r ↔ s.sessions.find? id' = some r ∧
      (r.2.timer.isSome || decide (s.now ≤ r.2.lastSentAt + LIVE_PRUNE_MS)) = true :=
    fun r => Table.find?_filter
  unfold session?
  rcases hs : s.sessions.find? id' with _ | r
  · rcases hp : s.prune.sessions.find? id' with _ | r
    · rfl
    · rw [h, hs] at hp
      simp at hp
  · rcases hp : s.prune.sessions.find? id' with _ | r'
    · have hr := mt (h r).2 (by simp [hp])
      simp only [hs, true_and, Bool.not_eq_true] at hr
      simp [Option.filter, hr]
    · obtain ⟨hr', hsel⟩ := (h r').1 hp
      obtain rfl : r = r' := Option.some.inj (hs.symm.trans hr')
      simp only [Option.map_some, Option.filter, hsel, if_true]

/-- When the timer of a session fires. -/
def timer? (id : Nat) (s : LiveNotifier) : Option Nat := (s.session? id).bind fun st => st.timer

/-- A session is marked due, or waits for its timer. -/
def Queued (id : Nat) (s : LiveNotifier) : Prop :=
  (s.dueSessions.find? id).isSome ∨ (s.timer? id).isSome

/-- The state of `id` is there and knows the organisation; states that were unseen for long may be
gone. -/
structure Touched (id : Nat) (orgId : Option Nat) (st : LiveSession)
    (s s' : LiveNotifier) : Prop where
  rest : s' = { s with sessions := s'.sessions }
  self : s'.session? id = some st
  timer : st.timer = s.timer? id
  sent : ∀ st₀, s.session? id = some st₀ → st.lastSentAt = st₀.lastSentAt
  sent_none : s.session? id = none → st.lastSentAt = 0
  org : st.orgId = orgId.or ((s.session? id).bind fun st => st.orgId)
  others : ∀ id', id' ≠ id → s'.session? id' = s.session? id' ∨ s'.session? id' = none ∧
    ∀ st₀, s.session? id' = some st₀ → st₀.timer = none ∧ st₀.lastSentAt + LIVE_PRUNE_MS < s.now

theorem Touched.timer?_eq {orgId : Option Nat} (h : Touched id orgId st s s') (id' : Nat) :
    s'.timer? id' = s.timer? id' := by
  by_cases hid : id' = id
  · subst hid
    rw [timer?, h.self]
    exact h.timer
  · rcases h.others id' hid with heq | ⟨hnone, hold⟩
    · rw [timer?, heq, timer?]
    · rcases hs : s.session? id' with _ | st₀
      · simp [timer?, hnone, hs]
      · simp [timer?, hnone, hs, (hold st₀ hs).1]

theorem touched_ensure (id : Nat) (orgId : Option Nat) (s : LiveNotifier) :
    ∃ st₀ s₁, s.ensureSession id (orgId.or ((s.session? id).bind fun st => st.orgId)) = s₁ ∧
      s₁.session? id = some st₀ ∧
      Touched id orgId { st₀ with orgId := (orgId.or ((s.session? id).bind fun st => st.orgId)).or st₀.orgId } s
        (s₁.setSession id
          { st₀ with orgId := (orgId.or ((s.session? id).bind fun st => st.orgId)).or st₀.orgId }) := by
  unfold ensureSession
  rcases hs : s.session? id with _ | st₀
  · refine ⟨_, _, rfl, by rw [session?_setSession, if_pos rfl], ?_⟩
    have hrest : ∀ p : Prop, ∀ [Decidable p], ∀ id', id' ≠ id →
        (if p then s.prune else s).session? id' = s.session? id' ∨
        (if p then s.prune else s).session? id' = none ∧ ∀ st₀, s.session? id' = some st₀ →
          st₀.timer = none ∧ st₀.lastSentAt + LIVE_PRUNE_MS < s.now := by
      intro p _ id' _
      split
      · rw [session?_prune]
        rcases hs' : s.session? id' with _ | st₀
        · exact .inl rfl
        · rcases hsel : (st₀.timer.isSome || decide (s.now ≤ st₀.lastSentAt + LIVE_PRUNE_MS)) with _ | _
          · refine .inr ⟨by simp [Option.filter, hsel], fun st₁ hst₁ => ?_⟩
            obtain rfl : st₀ = st₁ := Option.some.inj hst₁
            simpa using hsel
          · exact .inl (by simp [Option.filter, hsel])
      · exact .inl rfl
    refine ⟨?_, by simp, by simp [timer?, hs], by simp [hs], by simp, by simp [hs], fun id' hid => ?_⟩
    · dsimp only [setSession]
      split <;> rfl
    · simp only [session?_setSession, if_neg hid]
      exact hrest _ id' hid
  · refine ⟨st₀, s, rfl, hs, rfl, by simp, by simp [timer?, hs], ?_, by simp [hs], ?_, fun id' hid => ?_⟩
    · rintro st₁ hst₁
      rw [hs] at hst₁
      rw [Option.some.inj hst₁]
    · rcases orgId with _ | o <;> simp [hs]
    · exact .inl (by simp [hid])

end LiveNotifier

/-! ## Moves -/

open LiveNotifier in
/-- What happens to the states and the due set, one thing at a time. -/
inductive LiveCall (cfg : LiveNotifierOptions) (data : LiveData) (s : LiveNotifier) :
    LiveNotifier → Prop
  | touch {id : Nat} {orgId : Option Nat} {st : LiveSession} {s' : LiveNotifier}
      (h : Touched id orgId st s s')
      (horg : ∀ o ∈ orgId, o = data.orgOf id) : LiveCall cfg data s s'
  | mark {id : Nat} {st : LiveSession} (visible : Bool) (hst : s.session? id = some st)
      (hdue : (st.timer = none ∧ st.lastSentAt + cfg.intervalMs visible ≤ s.now) ∨
        (visible = true ∧ ∃ t ∈ st.timer, t ≤ s.now)) :
      LiveCall cfg data s (s.markSessionDue cfg id { st with timer := none } visible)
  | arm {id : Nat} {st : LiveSession} (hst : s.session? id = some st) (htimer : st.timer = none)
      (hwait : s.now < st.lastSentAt + cfg.sessionIntervalMs) :
      LiveCall cfg data s (s.setSession id
        { st with timer := some (s.now + timeoutMs (st.lastSentAt + cfg.sessionIntervalMs - s.now)) })
  | learn (id : Nat) : LiveCall cfg data s (s.learnOrg id (data.orgOf id))
  | unthrottle {id : Nat} (h : data.found id = true → s.hasSubscribers (data.orgOf id) = false) :
      LiveCall cfg data s (s.unthrottle id)

/-- Several moves. -/
def LiveCalls (cfg : LiveNotifierOptions) (data : LiveData) : LiveNotifier → LiveNotifier → Prop :=
  Relation.ReflTransGen (LiveCall cfg data)

/-- What is queued stays queued, and what becomes due is flushed; the rest is left alone. -/
structure LiveExtends (s s' : LiveNotifier) : Prop where
  rest : s' = { s with
    sessions := s'.sessions, dueSessions := s'.dueSessions, flushTimer := s'.flushTimer, marks := s'.marks }
  queued : ∀ id, s.Queued id → s'.Queued id
  flush : s.flushTimer.isSome → s'.flushTimer.isSome
  due : s'.dueSessions.rows ≠ [] → s.dueSessions.rows ≠ [] ∨ s'.flushTimer.isSome

namespace LiveExtends

variable {s s' s'' : LiveNotifier}

theorem refl (s : LiveNotifier) : LiveExtends s s := ⟨rfl, fun _ h => h, fun h => h, .inl⟩

theorem trans (h : LiveExtends s s') (h' : LiveExtends s' s'') : LiveExtends s s'' where
  rest := h'.rest.trans (by rw [h.rest])
  queued id hq := h'.queued id (h.queued id hq)
  flush hf := h'.flush (h.flush hf)
  due hd := (h'.due hd).elim (fun hd' => (h.due hd').imp_right h'.flush) .inr

theorem waiting_eq (h : LiveExtends s s') : s'.waiting = s.waiting := by rw [h.rest]
theorem running_eq (h : LiveExtends s s') : s'.running = s.running := by rw [h.rest]
theorem dueEvents_eq (h : LiveExtends s s') : s'.dueEvents = s.dueEvents := by rw [h.rest]
theorem dueChecks_eq (h : LiveExtends s s') : s'.dueChecks = s.dueChecks := by rw [h.rest]
theorem hasSubscribers_eq (h : LiveExtends s s') :
    s'.hasSubscribers = s.hasSubscribers := by rw [h.rest]
theorem version_eq (h : LiveExtends s s') : s'.version = s.version := by rw [h.rest]
theorem covered_eq (h : LiveExtends s s') : s'.covered = s.covered := by rw [h.rest]
theorem published_eq (h : LiveExtends s s') : s'.published = s.published := by rw [h.rest]

end LiveExtends

namespace LiveNotifier

variable {cfg : LiveNotifierOptions} {data : LiveData} {s s' : LiveNotifier} {id : Nat}
    {st : LiveSession}

theorem timer?_setSession (id' : Nat) :
    (s.setSession id st).timer? id' = if id' = id then st.timer else s.timer? id' := by
  rw [timer?, session?_setSession]
  split <;> rfl

theorem extends_setSession (h : (s.timer? id).isSome → st.timer.isSome) :
    LiveExtends s (s.setSession id st) where
  rest := rfl
  queued id' hq := by
    refine hq.imp_right fun ht => ?_
    rw [timer?_setSession]
    split
    next hid => exact h (hid ▸ ht)
    next => exact ht
  flush hf := hf
  due := .inl

theorem scheduleFlush_eq (cfg : LiveNotifierOptions) (s : LiveNotifier) :
    ∃ t, s.scheduleFlush cfg = { s with flushTimer := some t } := by
  unfold scheduleFlush
  split
  next t ht => exact ⟨t, by rw [← ht]⟩
  next => exact ⟨_, rfl⟩

theorem markSessionDue_eq (cfg : LiveNotifierOptions) (s : LiveNotifier) (id : Nat)
    (st : LiveSession) (visible : Bool) : ∃ t, s.markSessionDue cfg id st visible =
      { s.setSession id { st with lastSentAt := s.now } with
        dueSessions := s.dueSessions.upsert (id, st.orgId)
        marks := Function.update s.marks id (⟨s.now, visible⟩ :: s.marks id)
        flushTimer := some t } := scheduleFlush_eq cfg _

theorem queued_markSessionDue (cfg : LiveNotifierOptions) (s : LiveNotifier) (id : Nat)
    (st : LiveSession) (visible : Bool) : (s.markSessionDue cfg id st visible).Queued id := by
  obtain ⟨t, h⟩ := markSessionDue_eq cfg s id st visible
  rw [h]
  exact .inl (by simp [Table.find?_upsert])

theorem extends_markSessionDue (visible : Bool) :
    LiveExtends s (s.markSessionDue cfg id st visible) := by
  have hself := queued_markSessionDue cfg s id st visible
  obtain ⟨t, h⟩ := markSessionDue_eq cfg s id st visible
  rw [h] at hself ⊢
  refine ⟨rfl, fun id' hq => ?_, fun _ => rfl, fun _ => .inr rfl⟩
  by_cases hid : id' = id
  · exact hid ▸ hself
  · refine hq.imp (fun hd => ?_) fun ht => ?_
    · simpa [Table.find?_upsert, hid] using hd
    · show (timer? id' (s.setSession id _)).isSome
      rwa [timer?_setSession, if_neg hid]

theorem extends_learnOrg (id orgId : Nat) (s : LiveNotifier) :
    LiveExtends s (s.learnOrg id orgId) := by
  unfold learnOrg
  split
  next st hst => exact extends_setSession (by simp [timer?, hst])
  next => exact .refl s

theorem extends_unthrottle (id : Nat) (s : LiveNotifier) : LiveExtends s (s.unthrottle id) := by
  unfold unthrottle
  split
  next st hst => exact extends_setSession (by simp [timer?, hst])
  next => exact .refl s

theorem Touched.extends {orgId : Option Nat} (h : Touched id orgId st s s') : LiveExtends s s' where
  rest := by
    rw [h.rest]
  queued id' hq := by
    refine hq.imp (fun hd => ?_) fun ht => (h.timer?_eq id').symm ▸ ht
    rw [h.rest]
    exact hd
  flush hf := by
    rw [h.rest]
    exact hf
  due hd := by
    rw [h.rest] at hd
    exact .inl hd

end LiveNotifier

open LiveNotifier

section

variable {cfg : LiveNotifierOptions} {data : LiveData} {s s' : LiveNotifier}

theorem LiveCall.extends (h : LiveCall cfg data s s') : LiveExtends s s' := by
  cases h with
  | touch h _ => exact h.extends
  | mark visible _ _ => exact extends_markSessionDue visible
  | arm _ _ _ => exact extends_setSession fun _ => rfl
  | learn id => exact extends_learnOrg id _ s
  | unthrottle _ => exact extends_unthrottle _ s

theorem LiveCalls.extends (h : LiveCalls cfg data s s') : LiveExtends s s' := by
  induction h with
  | refl => exact .refl s
  | tail _ hc ih => exact ih.trans hc.extends

theorem LiveCalls.keep {I : LiveNotifier → Prop} (h : LiveCalls cfg data s s')
    (hstep : ∀ t t', LiveExtends s t → LiveCall cfg data t t' → I t → I t') (hs : I s) : I s' := by
  suffices hboth : LiveExtends s s' ∧ I s' from hboth.2
  induction h with
  | refl => exact ⟨.refl s, hs⟩
  | tail _ hc ih => exact ⟨ih.1.trans hc.extends, hstep _ _ ih.1 hc ih.2⟩

/-- A list of calls. -/
theorem liveCalls_foldl {α : Type} {f : LiveNotifier → α → LiveNotifier} {as : List α}
    {P : α → Prop}
    (hf : ∀ t a, LiveExtends s t → P a → LiveCalls cfg data t (f t a)) (has : ∀ a ∈ as, P a) :
    LiveCalls cfg data s (as.foldl f s) := by
  suffices h : ∀ t, LiveCalls cfg data s t → LiveCalls cfg data s (as.foldl f t) from h s .refl
  induction as with
  | nil => exact fun t ht => ht
  | cons a as ih =>
    intro t ht
    refine ih (fun b hb => has b (List.mem_cons_of_mem a hb)) _ (ht.trans ?_)
    exact hf t a ht.extends (has a List.mem_cons_self)

/-! ## Calls as moves -/

theorem sessionChanged_cases (cfg : LiveNotifierOptions) (id : Nat) (orgId : Option Nat)
    (visible : Bool) (s : LiveNotifier) :
    (s.observed (orgId.or ((s.session? id).bind fun st => st.orgId)) = false ∧
        s.sessionChanged cfg id orgId visible = s) ∨
      ∃ st s₁, Touched id orgId st s s₁ ∧
        ((s₁.Queued id ∧ s.sessionChanged cfg id orgId visible = s₁) ∨
          (st.timer = none ∧ st.lastSentAt + cfg.intervalMs visible ≤ s₁.now ∧
            s.sessionChanged cfg id orgId visible = s₁.markSessionDue cfg id { st with timer := none } visible) ∨
          (st.timer = none ∧ s₁.now < st.lastSentAt + cfg.intervalMs visible ∧ visible = true ∧
            s.sessionChanged cfg id orgId visible = s₁.setSession id
              { st with timer := some (s₁.now + timeoutMs (st.lastSentAt + cfg.intervalMs visible - s₁.now)) }) ∨
          (visible = false ∧ s.sessionChanged cfg id orgId visible = s₁)) := by
  unfold sessionChanged
  dsimp only
  split
  next hobs => exact .inl ⟨by simpa using hobs, rfl⟩
  next =>
    obtain ⟨st₀, s₁, hs₁, hst₀, htouch⟩ := touched_ensure id orgId s
    rw [hs₁]
    simp only [hst₀]
    refine .inr ⟨_, _, htouch, ?_⟩
    split
    next hq =>
      refine .inl ⟨hq.symm.imp_right fun ht => ?_, rfl⟩
      rw [timer?_setSession, if_pos rfl]
      exact ht
    next hq =>
      have hnone : st₀.timer = none := by
        rw [not_or] at hq
        simpa using hq.1
      refine .inr ?_
      split
      next hdue =>
        refine .inl ⟨hnone, hdue, ?_⟩
        rw [hnone]
      next hdue =>
        rw [Nat.not_le] at hdue
        refine .inr ?_
        split
        next hv => exact .inl ⟨hnone, hdue, hv, rfl⟩
        next hv => exact .inr ⟨by simpa using hv, rfl⟩

variable {id : Nat}

theorem liveCalls_sessionChanged {orgId : Option Nat} (horg : ∀ o ∈ orgId, o = data.orgOf id)
    (visible : Bool) : LiveCalls cfg data s (s.sessionChanged cfg id orgId visible) := by
  rcases sessionChanged_cases cfg id orgId visible s with ⟨-, h⟩ | ⟨st, s₁, htouch, h⟩
  · rw [h]
    exact .refl
  · have htouched : LiveCalls cfg data s s₁ := .single (.touch htouch horg)
    rcases h with ⟨-, h⟩ | ⟨hnone, hdue, h⟩ | ⟨hnone, hwait, hv, h⟩ | ⟨-, h⟩ <;> rw [h]
    · exact htouched
    · exact htouched.tail (.mark visible htouch.self (.inl ⟨hnone, hdue⟩))
    · subst hv
      exact htouched.tail (.arm htouch.self hnone hwait)
    · exact htouched

theorem queued_sessionChanged {orgId : Option Nat}
    (hobs : s.observed (orgId.or ((s.session? id).bind fun st => st.orgId)) = true) :
    (s.sessionChanged cfg id orgId true).Queued id := by
  rcases sessionChanged_cases cfg id orgId true s with ⟨hno, -⟩ | ⟨st, s₁, htouch, h⟩
  · rw [hobs] at hno
    simp at hno
  · rcases h with ⟨hq, h⟩ | ⟨-, -, h⟩ | ⟨-, -, -, h⟩ | ⟨hv, -⟩
    · exact h ▸ hq
    · exact h ▸ queued_markSessionDue cfg s₁ id _ true
    · rw [h]
      exact .inr (by simp [timer?_setSession])
    · simp at hv

theorem liveCalls_unthrottleAll {ids : List Nat}
    (h : ∀ id ∈ ids, data.found id = true → s.hasSubscribers (data.orgOf id) = false) :
    LiveCalls cfg data s (s.unthrottleAll ids) :=
  liveCalls_foldl (P := fun id => data.found id = true → s.hasSubscribers (data.orgOf id) = false)
    (fun t id ht hid => .single (.unthrottle (by rwa [ht.hasSubscribers_eq]))) h

theorem liveCalls_timerFired (h : ∃ st ∈ s.session? id, ∃ t ∈ st.timer, t ≤ s.now) :
    LiveCalls cfg data s (s.timerFired cfg id) := by
  obtain ⟨st, hst, t, ht, hnow⟩ := h
  rw [timerFired, hst]
  exact .single (.mark true hst (.inr ⟨rfl, t, ht, hnow⟩))

end

end SmartProctoring
