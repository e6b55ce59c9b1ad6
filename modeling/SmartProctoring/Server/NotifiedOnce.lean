import SmartProctoring.Server.Notifications

/-!
# Notifications: once for each domain change

What a committed mutation makes due for a webhook is stated on the events before and after it: the
flags that are new, the spans it touched that are closed now, the session changes that are new.  The
code tells a new event by its `firstReceivedAt`, which can take an event of the same millisecond for
a new one; the unique key of the deliveries keeps it from being announced twice.
-/

set_option autoImplicit false

namespace SmartProctoring

open List

/-- What a webhook is to be told about a touched event, `created` saying whether it is new. -/
inductive Announces (h : Subscription) (ev : SessionEvent) (created : Prop) : DedupeKey → Prop
  | created (hnew : created) (hflag : isFlagCategory ev.type.category = true)
      (hsub : .eventCreated ∈ h.events)
      (hsev : SEVERITY_RANK h.minSeverity ≤ SEVERITY_RANK ev.type.severity) :
      Announces h ev created (.ofEvent .eventCreated ev.id)
  | closed (hflag : isFlagCategory ev.type.category = true) (hclosed : ev.status = .closed)
      (hspan : ev.type.span = true) (hsub : .eventClosed ∈ h.events)
      (hsev : SEVERITY_RANK h.minSeverity ≤ SEVERITY_RANK ev.type.severity) :
      Announces h ev created (.closed ev.id (ev.endedAt.getD ev.startedAt))
  | mismatch (hnew : created) (htype : ev.type = .identityMismatch)
      (hsub : .identityMismatch ∈ h.events) :
      Announces h ev created (.ofEvent .identityMismatch ev.id)
  | session (hnew : created) {type : WebhookEventType}
      (htype : SESSION_NOTIFICATIONS ev.type = some type) (hsub : type ∈ h.events) :
      Announces h ev created (.ofEvent type ev.id)

variable {h : Subscription} {ev : SessionEvent} {key : DedupeKey}

theorem Announces.mono {created created' : Prop}
    (ha : Announces h ev created key) (himp : created → created') :
    Announces h ev created' key := by
  cases ha with
  | created hnew hflag hsub hsev => exact .created (himp hnew) hflag hsub hsev
  | closed hflag hclosed hspan hsub hsev => exact .closed hflag hclosed hspan hsub hsev
  | mismatch hnew htype hsub => exact .mismatch (himp hnew) htype hsub
  | session hnew htype hsub => exact .session (himp hnew) htype hsub

theorem Announces.eventId {created : Prop}
    (ha : Announces h ev created key) : key.eventId = ev.id := by
  cases ha <;> rfl

/-- A committed mutation is to tell `h` about one of the events it touched. -/
def Due (m : Mutation) (w : Written) (h : Subscription) (created : SessionEvent → Prop)
    (key : DedupeKey) : Prop :=
  ∃ ev ∈ w.events.rows, ev.id ∈ w.touched ∧ ev.sessionId = m.sessionId ∧
    Announces h ev (created ev) key

/-- How many deliveries of a domain change there are for a webhook. -/
def OutboxState.enqueued (s : OutboxState) (webhookId : Nat) (key : DedupeKey) : Nat :=
  s.deliveries.rows.countP fun d => d.key = (webhookId, key)

/-- The inputs that delete no delivery of the webhook. -/
def Kept (webhookId : Nat) : OutboxInput → OutboxState → Prop
  | .deleteHook id, _ => id ≠ webhookId
  | .housekeep _, _ => False
  | _, _ => True

/-! ## The notifications of an event -/

theorem SessionEvent.mem_notifications {now : Int} (status : SessionStatus) :
    (∃ n ∈ ev.notifications now status, h.wants n = true ∧ n.dedupeKey = key) ↔
      Announces h ev (ev.firstReceivedAt = now) key := by
  have hwants : ∀ n : WebhookNotification, h.wants n = true ↔ n.type ∈ h.events ∧
      ∀ severity, n.severity = some severity →
        SEVERITY_RANK h.minSeverity ≤ SEVERITY_RANK severity := by
    intro n
    unfold Subscription.wants
    cases n.severity <;> simp
  simp only [SessionEvent.notifications, mem_append, mem_ite_nil_right, Bool.and_eq_true,
    decide_eq_true_iff, beq_iff_eq, hwants]
  constructor
  · rintro ⟨n, hn, ⟨hsub, hsev⟩, rfl⟩
    rcases hn with ((⟨⟨hflag, hnew⟩, hn⟩ | ⟨⟨⟨hflag, hclosed⟩, hspan⟩, hn⟩) | ⟨⟨⟨_, hnew⟩, htype⟩, hn⟩) | hn
    · obtain rfl := mem_singleton.1 hn
      exact .created hnew hflag hsub (hsev _ rfl)
    · obtain rfl := mem_singleton.1 hn
      exact .closed hflag hclosed hspan hsub (hsev _ rfl)
    · obtain rfl := mem_singleton.1 hn
      exact .mismatch hnew htype hsub
    · split at hn
      · rename_i type htype
        obtain ⟨hnew, htype⟩ : ev.firstReceivedAt = now ∧ SESSION_NOTIFICATIONS ev.type = some type := by
          simpa using htype
        obtain rfl := mem_singleton.1 hn
        exact .session hnew htype hsub
      · cases hn
  · intro ha
    cases ha with
    | created hnew hflag hsub hsev =>
      exact ⟨_, .inl (.inl (.inl ⟨⟨hflag, hnew⟩, mem_singleton_self _⟩)),
        ⟨hsub, fun severity hs => Option.some.inj hs ▸ hsev⟩, rfl⟩
    | closed hflag hclosed hspan hsub hsev =>
      exact ⟨_, .inl (.inl (.inr ⟨⟨⟨hflag, hclosed⟩, hspan⟩, mem_singleton_self _⟩)),
        ⟨hsub, fun severity hs => Option.some.inj hs ▸ hsev⟩, rfl⟩
    | mismatch hnew htype hsub =>
      exact ⟨_, .inl (.inr ⟨⟨⟨by rw [htype]; rfl, hnew⟩, htype⟩, mem_singleton_self _⟩),
        ⟨hsub, nofun⟩, rfl⟩
    | @session hnew type htype hsub =>
      refine ⟨⟨type, .ofEvent type ev.id, ev.sessionId, .session status ev.startedAt ev.id, none⟩,
        .inr ?_, ⟨hsub, nofun⟩, rfl⟩
      rw [if_pos hnew, htype]
      exact mem_singleton_self _

/-! ## What a mutation writes -/

/-- Every event in the table was there before with the same type, session and first receipt, or is
new: stamped with the mutation's clock, and touched. -/
structure Written.Ok (m : Mutation) (events : SessionEvents) (w : Written) : Prop where
  old : ∀ e ∈ w.events.rows, (events.find? e.id).isSome ∨
    e.firstReceivedAt = m.now ∧ e.sessionId = m.sessionId ∧ e.id ∈ w.touched
  kept : ∀ id, (events.find? id).isSome → (w.events.find? id).isSome

@[simp] theorem Written.touchEvent_events (w : Written) (id : EventId) :
    (w.touchEvent id).events = w.events := rfl

variable {w : Written}

theorem Written.mem_touchEvent {id id' : EventId} :
    id' ∈ (w.touchEvent id).touched ↔ id' ∈ w.touched ∨ id' = id := by
  simp only [Written.touchEvent]
  split
  next h => exact ⟨.inl, fun h' => h'.elim (fun h => h) fun he => he ▸ h⟩
  next h => rw [mem_append, mem_singleton]

variable {m : Mutation}

theorem EventWrite.run_ok {events : SessionEvents} {w w' : Written} {x : EventWrite}
    (h : w.Ok m events) (hw : x.run m w = some w') : w'.Ok m events := by
  cases x with
  | insert row =>
    simp only [EventWrite.run] at hw
    split at hw
    · cases hw
    · rename_i hnone
      obtain rfl := Option.some.inj hw
      refine ⟨fun e he => ?_, fun id hid => ?_⟩
      · rcases (Table.mem_insert_of_find?_eq_none hnone).1 he with he | rfl
        · exact (h.old e he).imp_right fun hold =>
            ⟨hold.1, hold.2.1, Written.mem_touchEvent.2 (.inl hold.2.2)⟩
        · exact .inr ⟨rfl, rfl, Written.mem_touchEvent.2 (.inr rfl)⟩
      · exact Table.isSome_find?_insert.2 (.inl (h.kept id hid))
  | update id patch =>
    simp only [EventWrite.run] at hw
    split at hw
    · obtain rfl := Option.some.inj hw
      exact h
    · split at hw
      · obtain rfl := Option.some.inj hw
        refine ⟨fun e he => ?_, fun id' hid => ?_⟩
        · -- the id, the type, the session and the first receipt stay as they were
          obtain ⟨e', he', rfl⟩ := mem_map.1 he
          have hold := (h.old e' he').imp_right fun hold =>
            (⟨hold.1, hold.2.1, Written.mem_touchEvent.2 (.inl hold.2.2)⟩ :
              e'.firstReceivedAt = m.now ∧ e'.sessionId = m.sessionId ∧
                e'.id ∈ (w.touchEvent id).touched)
          split <;> exact hold
        · have := h.kept id' hid
          rw [Option.isSome_iff_exists] at this
          obtain ⟨e, he⟩ := this
          rw [Written.touchEvent_events, Table.find?_modify, he]
          rfl
      · obtain rfl := Option.some.inj hw
        exact h

theorem Mutation.committed_ok {events : SessionEvents}
    (h : m.committed events = some w) : w.Ok m events := by
  have hrun : ∀ (xs : List EventWrite) (w₀ : Written), w₀.Ok m events →
      xs.foldlM (EventWrite.run m) w₀ = some w → w.Ok m events := by
    intro xs
    induction xs with
    | nil =>
      intro w₀ h₀ hw
      obtain rfl := Option.some.inj hw
      exact h₀
    | cons x xs ih =>
      intro w₀ h₀ hw
      obtain ⟨w₁, hw₁, hw⟩ := Option.bind_eq_some_iff.1 hw
      exact ih w₁ (EventWrite.run_ok h₀ hw₁) hw
  unfold Mutation.committed at h
  split at h
  · cases h
  · refine hrun _ _ ⟨fun e he => .inl ?_, fun id hid => hid⟩ h
    exact Option.isSome_iff_exists.2 ⟨e, Table.find?_eq_some.2 ⟨he, rfl⟩⟩

/-! ## What the outbox enqueues -/

theorem OutboxState.enqueued_eq (s : OutboxState) (webhookId : Nat) (key : DedupeKey) :
    s.enqueued webhookId key = if (s.deliveries.find? (webhookId, key)).isSome then 1 else 0 := by
  have hcount := nodup_iff_count_le_one.1 s.deliveries.nodup (webhookId, key)
  rw [count_eq_countP, countP_map] at hcount
  have heq : s.enqueued webhookId key =
      s.deliveries.rows.countP ((· == (webhookId, key)) ∘ OutboxDelivery.key) := by
    refine countP_congr fun d _ => ?_
    simp
  split
  · rename_i hsome
    obtain ⟨d, hd⟩ := Option.isSome_iff_exists.1 hsome
    obtain ⟨hd, hkey⟩ := Table.find?_eq_some.1 hd
    have hpos : 0 < s.enqueued webhookId key :=
      countP_pos_iff.2 ⟨d, hd, decide_eq_true hkey⟩
    omega
  · rename_i hnone
    refine countP_eq_zero.2 fun d hd hkey => hnone ?_
    exact Option.isSome_iff_exists.2 ⟨d, Table.find?_eq_some.2 ⟨hd, of_decide_eq_true hkey⟩⟩

theorem mem_deliveryRows {hooks : List Subscription} {notifications : List WebhookNotification}
    {now : Int} {id : Nat} :
    (∃ d ∈ deliveryRows hooks notifications now, d.key = (id, key)) ↔
      ∃ h ∈ hooks, h.id = id ∧ ∃ n ∈ notifications, h.wants n = true ∧ n.dedupeKey = key := by
  constructor
  · rintro ⟨d, hd, hkey⟩
    obtain ⟨h, hh, hd⟩ := mem_flatMap.1 hd
    obtain ⟨n, hn, rfl⟩ := mem_map.1 hd
    obtain ⟨hn, hwants⟩ := mem_filter.1 hn
    obtain ⟨hid, hkey⟩ := Prod.mk.inj hkey
    exact ⟨h, hh, hid, n, hn, hwants, hkey⟩
  · rintro ⟨h, hh, rfl, n, hn, hwants, rfl⟩
    exact ⟨_, mem_flatMap.2 ⟨h, hh, mem_map.2 ⟨n, mem_filter.2 ⟨hn, hwants⟩, rfl⟩⟩, rfl⟩

variable {s : OutboxState}

/-- **What the outbox enqueues**, for a webhook that is active. -/
theorem isSome_enqueue {status : SessionStatus}
    (hok : m.outboxFails = false) (hh : h ∈ s.hooks.rows) (hactive : h.active = true)
    :
    ((enqueueIntegrationNotifications s m w status).find? (h.id, key)).isSome ↔
      (s.deliveries.find? (h.id, key)).isSome ∨
        Due m w h (fun ev => ev.firstReceivedAt = m.now) key := by
  have hactive' : h ∈ s.hooks.rows.filter Subscription.active := mem_filter.2 ⟨hh, hactive⟩
  have hhooks : (s.hooks.rows.filter Subscription.active).isEmpty = false := by
    cases hf : s.hooks.rows.filter Subscription.active with
    | nil => simp [hf] at hactive'
    | cons => rfl
  simp only [enqueueIntegrationNotifications, hhooks, hok, Bool.or_false]
  by_cases htouched : w.touched.isEmpty = true
  · rw [if_pos htouched]
    refine ⟨.inl, fun hd => hd.resolve_right ?_⟩
    rintro ⟨ev, _, hev, _⟩
    rw [isEmpty_iff.1 htouched] at hev
    cases hev
  · rw [if_neg htouched, enqueueWebhookNotifications, Table.isSome_find?_foldl_insert,
      mem_deliveryRows]
    refine or_congr_right ?_
    constructor
    · rintro ⟨h', hh', hid, n, hn, hwants, rfl⟩
      obtain rfl : h' = h := Table.eq_of_mem (mem_filter.1 hh').1 hh hid
      obtain ⟨ev, hev, hn⟩ := mem_flatMap.1 hn
      obtain ⟨hev, hmine⟩ := mem_filter.1 hev
      rw [Bool.and_eq_true, contains_iff_mem, beq_iff_eq] at hmine
      exact ⟨ev, hev, hmine.1, hmine.2, (SessionEvent.mem_notifications status).1 ⟨n, hn, hwants, rfl⟩⟩
    · rintro ⟨ev, hev, htouched, hsession, ha⟩
      obtain ⟨n, hn, hwants, hkey⟩ := (ev.mem_notifications status).2 ha
      refine ⟨h, hactive', rfl, n, mem_flatMap.2 ⟨ev, mem_filter.2 ⟨hev, ?_⟩, hn⟩, hwants, hkey⟩
      rw [Bool.and_eq_true, contains_iff_mem, beq_iff_eq]
      exact ⟨htouched, hsession⟩

/-! ## Runs -/

/-- Nothing is enqueued about an event that is not there. -/
def OutboxState.Known (s : OutboxState) : Prop :=
  ∀ d ∈ s.deliveries.rows, (s.events.find? d.dedupeKey.eventId).isSome

theorem Mutation.step_of_committed (h : m.committed s.events = some w) :
    m.step s =
      { s with
        status := Function.update s.status m.sessionId (m.status.getD (s.status m.sessionId))
        events := w.events
        deliveries := enqueueIntegrationNotifications s m w (m.status.getD (s.status m.sessionId)) } := by
  rw [Mutation.step, h]

theorem mem_enqueue {status : SessionStatus}
    {d : OutboxDelivery} (hd : d ∈ (enqueueIntegrationNotifications s m w status).rows) :
    d ∈ s.deliveries.rows ∨ ∃ ev ∈ w.events.rows, d.dedupeKey.eventId = ev.id := by
  simp only [enqueueIntegrationNotifications] at hd
  split at hd
  · exact .inl hd
  · refine (Table.mem_of_mem_foldl_insert hd).imp_right fun hd => ?_
    obtain ⟨h, _, hd⟩ := mem_flatMap.1 hd
    obtain ⟨n, hn, rfl⟩ := mem_map.1 hd
    obtain ⟨hn, hwants⟩ := mem_filter.1 hn
    obtain ⟨ev, hev, hn⟩ := mem_flatMap.1 hn
    exact ⟨ev, (mem_filter.1 hev).1,
      ((SessionEvent.mem_notifications _).1 ⟨n, hn, hwants, rfl⟩).eventId⟩

theorem outbox_known (h : outbox.Reachable s) : s.Known := by
  refine h.invariant (I := OutboxState.Known) ?_ ?_
  · intro s hinit d hd
    rw [hinit] at hd
    cases hd
  · intro s x _ _ hs
    cases x with
    | mutate m =>
      show (m.step s).Known
      cases hw : m.committed s.events with
      | none =>
        rw [Mutation.step, hw]
        exact hs
      | some w =>
        rw [Mutation.step_of_committed hw]
        intro d hd
        rcases mem_enqueue hd with hold | ⟨ev, hev, hid⟩
        · exact (Mutation.committed_ok hw).kept _ (hs d hold)
        · exact Option.isSome_iff_exists.2 ⟨ev, Table.find?_eq_some.2 ⟨hev, hid.symm⟩⟩
    | saveHook h => exact hs
    | deleteHook id => exact fun d hd => hs d (mem_filter.1 hd).1
    | settle =>
      intro d hd
      obtain ⟨d', hd', rfl⟩ := mem_map.1 hd
      have := hs d' hd'
      split <;> exact this
    | housekeep now => exact fun d hd => hs d (mem_filter.1 hd).1

theorem outbox_kept {webhookId : Nat} {x : OutboxInput}
    (hx : Kept webhookId x s) (h : (s.deliveries.find? (webhookId, key)).isSome) :
    ((outbox.step x s).deliveries.find? (webhookId, key)).isSome := by
  cases x with
  | mutate m =>
    show ((m.step s).deliveries.find? (webhookId, key)).isSome
    cases hw : m.committed s.events with
    | none =>
      rw [Mutation.step, hw]
      exact h
    | some w =>
      rw [Mutation.step_of_committed hw]
      simp only [enqueueIntegrationNotifications]
      split
      · exact h
      · exact Table.isSome_find?_foldl_insert.2 (.inl h)
  | saveHook => exact h
  | deleteHook id =>
    obtain ⟨d, hd⟩ := Option.isSome_iff_exists.1 h
    have hid : d.webhookId = webhookId := congrArg Prod.fst (Table.find?_eq_some.1 hd).2
    refine Option.isSome_iff_exists.2 ⟨d, Table.find?_filter.2 ⟨hd, ?_⟩⟩
    rw [bne_iff_ne, hid]
    exact hx.symm
  | settle =>
    obtain ⟨d, hd⟩ := Option.isSome_iff_exists.1 h
    simp only [outbox]
    rw [Table.find?_modify, hd]
    rfl
  | housekeep => exact hx.elim

/-- **Notifications, once for each domain change.**  A mutation that is rolled back enqueues
nothing.  One that commits, and whose outbox does not fail, makes exactly one delivery for each
active webhook and each change due to it, and it is still the only one after any further mutations,
repeated ones among them, while its record is kept.  There was none before the event was there, and
what a mutation enqueues is due to the webhook: about an event it touched, new by the clock. -/
theorem notifications_enqueued_once {s : OutboxState} (hs : outbox.Reachable s) (m : Mutation) :
    (m.committed s.events = none → outbox.step (.mutate m) s = s) ∧
    ∀ w, m.committed s.events = some w → m.outboxFails = false →
      ∀ h ∈ s.hooks.rows, h.active = true → ∀ key,
        (Due m w h (fun ev => s.events.find? ev.id = none) key →
          ∀ t, (outbox.restrict (Kept h.id)).Steps (outbox.step (.mutate m) s) t →
            t.enqueued h.id key = 1) ∧
        (s.events.find? key.eventId = none → s.enqueued h.id key = 0) ∧
        (s.enqueued h.id key = 0 → (outbox.step (.mutate m) s).enqueued h.id key ≠ 0 →
          Due m w h (fun ev => ev.firstReceivedAt = m.now) key) := by
  constructor
  · intro hnone
    show m.step s = s
    rw [Mutation.step, hnone]
  · intro w hw hok h hh hactive key
    have hstep : ((outbox.step (.mutate m) s).deliveries.find? (h.id, key)).isSome ↔
        (s.deliveries.find? (h.id, key)).isSome ∨
          Due m w h (fun ev => ev.firstReceivedAt = m.now) key := by
      show ((m.step s).deliveries.find? (h.id, key)).isSome ↔ _
      rw [Mutation.step_of_committed hw]
      exact isSome_enqueue hok hh hactive
    refine ⟨fun hdue t ht => ?_, fun hnone => ?_, fun hbefore hafter => ?_⟩
    · have hdue' : Due m w h (fun ev => ev.firstReceivedAt = m.now) key := by
        obtain ⟨ev, hev, htouched, hsession, ha⟩ := hdue
        refine ⟨ev, hev, htouched, hsession, ha.mono fun hnew => ?_⟩
        rcases (Mutation.committed_ok hw).old ev hev with hold | hnow
        · rw [hnew] at hold
          cases hold
        · exact hnow.1
      have hkept : (t.deliveries.find? (h.id, key)).isSome := by
        induction ht with
        | refl => exact hstep.2 (.inr hdue')
        | tail _ x hx ih => exact outbox_kept hx.2 ih
      rw [OutboxState.enqueued_eq, if_pos hkept]
    · rw [OutboxState.enqueued_eq, if_neg]
      intro hsome
      obtain ⟨d, hd⟩ := Option.isSome_iff_exists.1 hsome
      obtain ⟨hd, hkey⟩ := Table.find?_eq_some.1 hd
      have := outbox_known hs d hd
      rw [show d.dedupeKey = key from congrArg Prod.snd hkey, hnone] at this
      cases this
    · rw [OutboxState.enqueued_eq] at hbefore hafter
      refine (hstep.1 ?_).resolve_left fun hsome => ?_
      · by_contra hno
        rw [if_neg hno] at hafter
        exact hafter rfl
      · rw [if_pos hsome] at hbefore
        cases hbefore

/-! ## One webhook, subscribed to everything -/

def subscribedToAll : Subscription :=
  ⟨1, true, [.eventCreated, .eventClosed, .identityMismatch, .sessionHeld, .sessionReleased,
    .sessionPauseRequested, .sessionSubmitted, .sessionRegraded, .sessionTerminated,
    .sessionReviewed, .sessionRescheduled, .sessionReopened], .info⟩

def oneSubscriber : OutboxState where
  status _ := .active
  events := .empty
  hooks := Table.empty.insert subscribedToAll
  deliveries := .empty

def phoneSeen : Mutation :=
  { sessionId := 1, now := 1000
    writes := [.insert
      { id := ⟨1⟩, type := .phoneDetected, source := .clientVision, status := .open, startedAt := 900
        endedAt := none, firstReceivedAt := 0, receivedAt := 0 }] }

def phoneGone : Mutation :=
  { sessionId := 1, now := 1000
    writes := [.update ⟨1⟩ { status := some .closed, endedAt := some (some 990) }] }

/-- A mutation that is repeated, and others in the same millisecond. -/
def repeatedMutations : List OutboxInput :=
  [.mutate phoneSeen, .mutate phoneGone, .mutate phoneGone, .mutate phoneSeen]

theorem notifications_enqueued_once_repeated :
    ((outbox.restrict (Kept 1)).run (outbox.step (.mutate phoneSeen) oneSubscriber)
      repeatedMutations).enqueued 1 (.ofEvent .eventCreated ⟨1⟩) = 1 := by
  have hreach : outbox.Reachable oneSubscriber := .init rfl
  obtain ⟨w, hw⟩ : ∃ w, phoneSeen.committed oneSubscriber.events = some w :=
    Option.isSome_iff_exists.1 (by decide)
  have hsub : subscribedToAll ∈ oneSubscriber.hooks.rows := mem_singleton_self _
  refine ((notifications_enqueued_once hreach phoneSeen).2 w hw rfl subscribedToAll hsub rfl
    (.ofEvent .eventCreated ⟨1⟩)).1 ?_ _ ((Machine.Steps.refl _).run ⟨⟨trivial, trivial⟩,
      ⟨trivial, trivial⟩, ⟨trivial, trivial⟩, ⟨trivial, trivial⟩, trivial⟩)
  obtain rfl := Option.some.inj hw
  exact ⟨_, mem_singleton_self _, mem_singleton_self _, rfl,
    .created rfl rfl (by decide) (by decide)⟩

/-- The candidate's exam is paused. -/
def examPaused : Mutation :=
  { sessionId := 1, now := 1000, status := some .paused
    writes := [.insert
      { id := ⟨1⟩, type := .sessionPaused, source := .serverSystem, status := .closed, startedAt := 1000
        endedAt := some 1000, firstReceivedAt := 0, receivedAt := 0 }] }

/-- A pause is a change of status that no webhook is told about. -/
theorem pause_not_notified :
    outbox.Reachable oneSubscriber ∧
    (outbox.step (.mutate examPaused) oneSubscriber).status 1 = .paused ∧
    oneSubscriber.status 1 = .active ∧
    (outbox.step (.mutate examPaused) oneSubscriber).deliveries.rows = [] :=
  ⟨.init rfl, by decide, by decide, by decide⟩

end SmartProctoring
