import Mathlib.Data.List.Nodup
import Mathlib.Data.List.MinMax
import SmartProctoring.Lib.Run

/-!
# Email alerts

`services/email-alerts.ts`: alert-worthy occurrences become rows of `email_alerts`; a run of the job
visits the sessions with due alerts and sends each of them one digest of all that is pending
(`sendSession`), at most once in five minutes.  A visit is one step here, with what it finds in the
settings and what the mail server answers; alerts may be enqueued between any two visits.  `sends`
records every digest handed to the mail server.  The texts of an alert, which only the message
contains, are left out.
-/

set_option autoImplicit false

namespace SmartProctoring

open List

/-- At most one email per session per this window. -/
def EMAIL_THROTTLE_MS : Int := 300000

/-- Wait after the n-th failed send (index n-1); the 5th failure is final. -/
def EMAIL_RETRY_MS : List Int := [60000, 300000, 900000, 1800000]

def EMAIL_MAX_ATTEMPTS : Nat := EMAIL_RETRY_MS.length + 1

inductive EmailAlertKind
  | hold | pauseRequest | highSeverity
  deriving DecidableEq

inductive EmailAlertStatus
  | pending | sent | failed | skipped
  deriving DecidableEq

structure EmailAlert where
  id : Nat
  sessionId : Nat
  kind : EmailAlertKind
  eventId : Nat
  status : EmailAlertStatus
  attempts : Nat
  nextAttemptAt : Int
  lastError : Option String
  sentAt : Option Int
  deriving DecidableEq

/-- A digest handed to the mail server: the alerts in it, whether it was accepted, and where it was
not, the time the next attempt was set to (`none`: the alerts were given up). -/
structure DigestSend where
  sessionId : Nat
  now : Int
  ids : List Nat
  ok : Bool
  retryAt : Option Int

structure AlertState where
  rows : List EmailAlert
  sends : List DigestSend
  /-- The time of the last visit. -/
  clock : Int

/-! ## Enqueueing -/

structure EmailAlertInput where
  kind : EmailAlertKind
  eventId : Nat
  sessionId : Nat

/-- The unique index on `(eventId, kind)`. -/
def EmailAlert.conflicts (r : EmailAlert) (i : EmailAlertInput) : Bool :=
  r.eventId = i.eventId ∧ r.kind = i.kind

/-- One row of the insert (`onConflictDoNothing`). -/
def enqueueOne (now : Int) (rows : List EmailAlert) (i : EmailAlertInput) : List EmailAlert :=
  if rows.any (·.conflicts i) then rows
  else
    rows ++
      [{ id := rows.length
         sessionId := i.sessionId
         kind := i.kind
         eventId := i.eventId
         status := .pending
         attempts := 0
         nextAttemptAt := now
         lastError := none
         sentAt := none }]

def enqueueEmailAlerts (now : Int) (items : List EmailAlertInput) (s : AlertState) : AlertState :=
  { s with rows := items.foldl (enqueueOne now) s.rows }

/-! ## Sending -/

/-- What a visit finds: the mailer, the organisation's settings, the session's names, and the answer
of the mail server. -/
structure AlertVisit where
  mailer : Bool
  hasOrg : Bool
  /-- `alertKindEnabled`. -/
  kindEnabled : EmailAlertKind → Bool
  hasRecipients : Bool
  hasInfo : Bool
  /-- The error of `mailer.send`, its first 500 characters. -/
  error : Option String

def markItems (rows : List EmailAlert) (ids : List Nat) (f : EmailAlert → EmailAlert) :
    List EmailAlert :=
  rows.map fun r => if r.id ∈ ids then f r else r

def EmailAlert.isPending (sessionId : Nat) (r : EmailAlert) : Bool :=
  r.sessionId = sessionId ∧ r.status = .pending

def pendingAlerts (rows : List EmailAlert) (sessionId : Nat) : List EmailAlert :=
  rows.filter (·.isPending sessionId)

/-- `max(sentAt)` of the session's sent alerts. -/
def lastSent (rows : List EmailAlert) (sessionId : Nat) : Option Int :=
  ((rows.filter fun r => r.sessionId = sessionId ∧ r.status = .sent).filterMap (·.sentAt)).max?

def EmailAlert.skip (error : String) (r : EmailAlert) : EmailAlert :=
  { r with status := .skipped, lastError := some error }

def EmailAlert.defer (t : Int) (r : EmailAlert) : EmailAlert := { r with nextAttemptAt := t }

def EmailAlert.markSent (now : Int) (attempts : Nat) (r : EmailAlert) : EmailAlert :=
  { r with status := .sent, sentAt := some now, attempts := attempts, lastError := none }

/-- A failed send: final, or tried again later. -/
def EmailAlert.markFailed (attempts : Nat) (error : String) (retryAt : Option Int)
    (r : EmailAlert) : EmailAlert :=
  match retryAt with
  | none => { r with status := .failed, attempts := attempts, lastError := some error }
  | some t => { r with attempts := attempts, lastError := some error, nextAttemptAt := t }

/-- `Math.max(...enabled.map((p) => p.attempts)) + 1`. -/
def nextAttempts (enabled : List EmailAlert) : Nat := (enabled.map (·.attempts)).foldl max 0 + 1

/-- The next attempt after the `attempts`-th failed send (`none`: that one was final). -/
def retryAfter (now : Int) (attempts : Nat) : Option Int :=
  if EMAIL_MAX_ATTEMPTS ≤ attempts then none else some (now + EMAIL_RETRY_MS.getD (attempts - 1) 0)

/-- The digest of the enabled alerts is sent. -/
def sendDigest (now : Int) (sessionId : Nat) (v : AlertVisit) (enabled : List EmailAlert)
    (s : AlertState) : AlertState :=
  let ids := enabled.map (·.id)
  let attempts := nextAttempts enabled
  match v.error with
  | none =>
    { s with
      rows := markItems s.rows ids (·.markSent now attempts)
      sends := s.sends ++ [⟨sessionId, now, ids, true, none⟩] }
  | some error =>
    { s with
      rows := markItems s.rows ids (·.markFailed attempts error (retryAfter now attempts))
      sends := s.sends ++ [⟨sessionId, now, ids, false, retryAfter now attempts⟩] }

/-- The visit once the window is open: alert types that are off are skipped, the rest is sent. -/
def sendEnabled (now : Int) (sessionId : Nat) (v : AlertVisit) (s : AlertState) : AlertState :=
  let pending := pendingAlerts s.rows sessionId
  let enabled := pending.filter fun p => v.kindEnabled p.kind
  let off := pending.filter fun p => ¬ v.kindEnabled p.kind
  let s := { s with rows := markItems s.rows (off.map (·.id)) (·.skip "This alert type was turned off") }
  if enabled = [] then s
  else if ¬ v.hasOrg ∨ ¬ v.hasRecipients then
    { s with
      rows := markItems s.rows (enabled.map (·.id)) (·.skip "No alert recipients are configured") }
  else if ¬ v.hasInfo then s
  else sendDigest now sessionId v enabled s

/-- The visit of one session in a run that began at `now`. -/
def sendSession (now : Int) (sessionId : Nat) (v : AlertVisit) (s : AlertState) : AlertState :=
  let ids := (pendingAlerts s.rows sessionId).map (·.id)
  if ids = [] then s
  else if ¬ v.mailer then
    { s with rows := markItems s.rows ids (·.skip "Email (SMTP) is not configured on the server") }
  else
    match lastSent s.rows sessionId with
    | some t =>
      if now - t < EMAIL_THROTTLE_MS then
        { s with rows := markItems s.rows ids (·.defer (t + EMAIL_THROTTLE_MS)) }
      else sendEnabled now sessionId v s
    | none => sendEnabled now sessionId v s

inductive AlertAction
  | enqueue (items : List EmailAlertInput) (now : Int)
  | visit (now : Int) (sessionId : Nat) (v : AlertVisit)

/-- A session is visited when one of its alerts is due; the runs' times do not go back. -/
def AlertAction.enabled (a : AlertAction) (s : AlertState) : Prop :=
  match a with
  | .enqueue _ _ => True
  | .visit now sessionId _ =>
    s.clock ≤ now ∧ ∃ r ∈ s.rows, r.isPending sessionId ∧ r.nextAttemptAt ≤ now

instance AlertAction.decidableEnabled (a : AlertAction) (s : AlertState) :
    Decidable (a.enabled s) :=
  match a with
  | .enqueue _ _ => .isTrue trivial
  | .visit now sessionId _ =>
    inferInstanceAs (Decidable (s.clock ≤ now ∧ ∃ r ∈ s.rows, r.isPending sessionId ∧ r.nextAttemptAt ≤ now))

def AlertAction.step (a : AlertAction) (s : AlertState) : AlertState :=
  match a with
  | .enqueue items now => enqueueEmailAlerts now items s
  | .visit now sessionId v => { sendSession now sessionId v s with clock := now }

/-- The alerts of all sessions, from an empty table on. -/
def emailAlertMachine : Machine AlertState AlertAction where
  init s := s.rows = [] ∧ s.sends = []
  step := AlertAction.step
  enabled := AlertAction.enabled

instance emailAlertMachine.decidableEnabled (a : AlertAction) (s : AlertState) :
    Decidable (emailAlertMachine.enabled a s) :=
  inferInstanceAs (Decidable (a.enabled s))

/-! ## What one visit does -/

/-- The session's pending alerts changed by `h`. -/
def onPending (sessionId : Nat) (h : EmailAlert → EmailAlert) (r : EmailAlert) : EmailAlert :=
  if r.isPending sessionId then h r else r

/-- Ids are unique. -/
def UniqueAlerts (rows : List EmailAlert) : Prop := (rows.map (·.id)).Nodup

variable {rows : List EmailAlert} {r : EmailAlert}

theorem mem_ids_filter (hn : UniqueAlerts rows) (q : EmailAlert → Bool)
    (hr : r ∈ rows) : r.id ∈ (rows.filter q).map (·.id) ↔ q r = true := by
  rw [mem_map]
  constructor
  · rintro ⟨r', hr', hid⟩
    rw [mem_filter] at hr'
    rw [← inj_on_of_nodup_map hn hr'.1 hr hid]
    exact hr'.2
  · exact fun hq => ⟨r, mem_filter.mpr ⟨hr, hq⟩, rfl⟩

theorem markItems_pending (hn : UniqueAlerts rows) (sessionId : Nat) (f : EmailAlert → EmailAlert) :
    markItems rows ((pendingAlerts rows sessionId).map (·.id)) f =
    rows.map (onPending sessionId f) := by
  refine map_congr_left fun r hr => ?_
  have hmem := mem_ids_filter hn (·.isPending sessionId) hr
  simp only [pendingAlerts, hmem, onPending]

/-- The alerts of a digest. -/
def digestOf (rows : List EmailAlert) (sessionId : Nat) (v : AlertVisit) : List EmailAlert :=
  (pendingAlerts rows sessionId).filter fun p => v.kindEnabled p.kind

/-- The alerts whose type is off are skipped, the others changed by `f`. -/
def offOr (v : AlertVisit) (f : EmailAlert → EmailAlert) (r : EmailAlert) : EmailAlert :=
  if v.kindEnabled r.kind then f r else r.skip "This alert type was turned off"

theorem markItems_off (hn : UniqueAlerts rows) (sessionId : Nat) (v : AlertVisit) :
    markItems rows (((pendingAlerts rows sessionId).filter fun p => ¬ v.kindEnabled p.kind).map (·.id))
        (·.skip "This alert type was turned off") =
      rows.map (onPending sessionId (offOr v fun r => r)) := by
  refine map_congr_left fun r hr => ?_
  rw [pendingAlerts, filter_filter]
  have hmem := mem_ids_filter hn (fun p => (decide ¬ v.kindEnabled p.kind) && p.isPending sessionId) hr
  rw [if_congr hmem rfl rfl]
  by_cases hp : r.isPending sessionId <;> by_cases hk : v.kindEnabled r.kind <;>
    simp [onPending, offOr, hp, hk]

theorem markItems_digest (hn : UniqueAlerts rows) (sessionId : Nat) (v : AlertVisit)
    (f : EmailAlert → EmailAlert) :
    markItems (rows.map (onPending sessionId (offOr v fun r => r)))
        ((digestOf rows sessionId v).map (·.id)) f =
      rows.map (onPending sessionId (offOr v f)) := by
  rw [markItems, map_map]
  refine map_congr_left fun r hr => ?_
  have hid : (onPending sessionId (offOr v fun r => r) r).id = r.id := by
    rw [onPending, offOr]
    split
    · split <;> rfl
    · rfl
  have hmem := mem_ids_filter hn (fun p => v.kindEnabled p.kind && p.isPending sessionId) hr
  rw [Function.comp, hid, digestOf, pendingAlerts, filter_filter, if_congr hmem rfl rfl]
  by_cases hp : r.isPending sessionId <;> by_cases hk : v.kindEnabled r.kind <;>
    simp [onPending, offOr, hp, hk]

/-- The window of the session is open. -/
def WindowOpen (rows : List EmailAlert) (sessionId : Nat) (now : Int) : Prop :=
  ∀ t ∈ lastSent rows sessionId, t + EMAIL_THROTTLE_MS ≤ now
  deriving Decidable

/-- Nothing keeps a visit from sending the digest (if there is any alert in it). -/
def WillSend (now : Int) (sessionId : Nat) (v : AlertVisit) (s : AlertState) : Prop :=
  v.mailer ∧ WindowOpen s.rows sessionId now ∧ v.hasOrg ∧ v.hasRecipients ∧ v.hasInfo
  deriving Decidable

/-- What a visit can do: skip alerts, put them off until the window opens, or send the digest, which
the mail server accepts or not. -/
inductive VisitOutcome (now : Int) (sessionId : Nat) (v : AlertVisit) (s : AlertState) :
    AlertState → Prop
  | quiet (h : EmailAlert → EmailAlert) (hh : ∀ r, h r = r ∨ ∃ e, h r = r.skip e) :
    VisitOutcome now sessionId v s { s with rows := s.rows.map (onPending sessionId h) }
  | deferred (t : Int) (ht : lastSent s.rows sessionId = some t)
    (hnow : now < t + EMAIL_THROTTLE_MS) : VisitOutcome now sessionId v s
      { s with rows := s.rows.map (onPending sessionId (·.defer (t + EMAIL_THROTTLE_MS))) }
  | sent (hwill : WillSend now sessionId v s) (herror : v.error = none)
    (hne : digestOf s.rows sessionId v ≠ []) :
    VisitOutcome now sessionId v s
      { s with
        rows := s.rows.map (onPending sessionId
          (offOr v (·.markSent now (nextAttempts (digestOf s.rows sessionId v)))))
        sends := s.sends ++ [⟨sessionId, now, (digestOf s.rows sessionId v).map (·.id), true, none⟩] }
  | failed (error : String) (hwill : WillSend now sessionId v s) (herror : v.error = some error)
    (hne : digestOf s.rows sessionId v ≠ []) :
    VisitOutcome now sessionId v s
      { s with
        rows := s.rows.map (onPending sessionId
          (offOr v (·.markFailed (nextAttempts (digestOf s.rows sessionId v)) error
            (retryAfter now (nextAttempts (digestOf s.rows sessionId v))))))
        sends := s.sends ++ [⟨sessionId, now, (digestOf s.rows sessionId v).map (·.id), false,
          retryAfter now (nextAttempts (digestOf s.rows sessionId v))⟩] }

theorem map_onPending_self (rows : List EmailAlert) (sessionId : Nat) :
    rows.map (onPending sessionId fun r => r) = rows := by
  refine (map_congr_left fun r _ => ?_).trans (map_id rows)
  simp [onPending]

variable {s : AlertState} {now : Int} {sessionId : Nat} {v : AlertVisit}

theorem sendEnabled_outcome (hn : UniqueAlerts s.rows)
    (hmailer : v.mailer) (hopen : WindowOpen s.rows sessionId now) :
    VisitOutcome now sessionId v s (sendEnabled now sessionId v s) := by
  have hdigest : ((pendingAlerts s.rows sessionId).filter fun p => v.kindEnabled p.kind) =
    digestOf s.rows sessionId v := rfl
  have hquiet : ∀ f : EmailAlert → EmailAlert, (∀ r, f r = r ∨ ∃ e, f r = r.skip e) →
      ∀ r, offOr v f r = r ∨ ∃ e, offOr v f r = r.skip e := by
    intro f hf r
    rw [offOr]
    split
    · exact hf r
    · exact .inr ⟨_, rfl⟩
  unfold sendEnabled
  simp only [hdigest, markItems_off hn, markItems_digest hn]
  split
  · exact .quiet _ (hquiet _ fun r => .inl rfl)
  · rename_i hne
    split
    · exact .quiet _ (hquiet _ fun r => .inr ⟨_, rfl⟩)
    · rename_i hreach
      split
      · exact .quiet _ (hquiet _ fun r => .inl rfl)
      · rename_i hinfo
        simp only [not_or, Decidable.not_not] at hreach hinfo
        have hwill : WillSend now sessionId v s := ⟨hmailer, hopen, hreach.1, hreach.2, hinfo⟩
        rw [sendDigest]
        split
        · rename_i herror
          rw [markItems_digest hn]
          exact .sent hwill herror hne
        · rename_i error herror
          rw [markItems_digest hn]
          exact .failed error hwill herror hne

theorem sendSession_outcome (hn : UniqueAlerts s.rows) (now : Int) (sessionId : Nat)
    (v : AlertVisit) : VisitOutcome now sessionId v s (sendSession now sessionId v s) := by
  unfold sendSession
  simp only [markItems_pending hn]
  split
  · have hself : VisitOutcome now sessionId v s
        { s with rows := s.rows.map (onPending sessionId fun r => r) } := .quiet _ fun r => .inl rfl
    rwa [map_onPending_self] at hself
  · split
    · exact .quiet _ fun r => .inr ⟨_, rfl⟩
    · rename_i hmailer
      rw [Decidable.not_not] at hmailer
      split
      · rename_i t ht
        split
        · exact .deferred t ht (by omega)
        · refine sendEnabled_outcome hn hmailer fun t' ht' => ?_
          rw [ht, Option.mem_some_iff] at ht'
          omega
      · rename_i hnone
        exact sendEnabled_outcome hn hmailer fun t ht => by simp [hnone] at ht

/-! ## What holds in every run -/

/-- No alert of an accepted digest is in a later one, and the next digest of the session comes a
window later. -/
def AfterSuccess (a b : DigestSend) : Prop :=
  a.ok = true → (∀ id ∈ a.ids, id ∉ b.ids) ∧
  (a.sessionId = b.sessionId → a.now + EMAIL_THROTTLE_MS ≤ b.now)

structure AlertInv (s : AlertState) : Prop where
  ids : s.rows.map (·.id) = List.range s.rows.length
  nonempty : ∀ d ∈ s.sends, d.ids ≠ []
  inTable : ∀ d ∈ s.sends, ∀ id ∈ d.ids, ∃ r ∈ s.rows, r.id = id ∧ r.sessionId = d.sessionId
  accepted : ∀ d ∈ s.sends, d.ok = true → ∀ r ∈ s.rows, r.id ∈ d.ids →
    r.status = .sent ∧ r.sentAt = some d.now
  spaced : s.sends.Pairwise AfterSuccess

theorem AlertInv.unique (h : AlertInv s) : UniqueAlerts s.rows := by
  rw [UniqueAlerts, h.ids]
  exact nodup_range

variable {f : EmailAlert → EmailAlert}

/-- The change keeps the ids and the sessions. -/
def KeepsIds (f : EmailAlert → EmailAlert) : Prop :=
  ∀ r, (f r).id = r.id ∧ (f r).sessionId = r.sessionId

theorem KeepsIds.onPending (h : KeepsIds f) (sessionId : Nat) :
    KeepsIds (onPending sessionId f) := by
  intro r
  rw [SmartProctoring.onPending]
  split
  · exact h r
  · exact ⟨rfl, rfl⟩

theorem KeepsIds.offOr (h : KeepsIds f) (v : AlertVisit) : KeepsIds (offOr v f) := by
  intro r
  rw [SmartProctoring.offOr]
  split
  · exact h r
  · exact ⟨rfl, rfl⟩

theorem keepsIds_quiet (hf : ∀ r, f r = r ∨ ∃ e, f r = r.skip e) : KeepsIds f := by
  intro r
  rcases hf r with he | ⟨e, he⟩ <;> simp [he, EmailAlert.skip]

theorem keepsIds_defer (t : Int) : KeepsIds (·.defer t) := fun _ => ⟨rfl, rfl⟩

theorem keepsIds_markSent (now : Int) (attempts : Nat) :
    KeepsIds (·.markSent now attempts) := fun _ =>
  ⟨rfl, rfl⟩

theorem keepsIds_markFailed (attempts : Nat) (error : String) (retryAt : Option Int) :
    KeepsIds (·.markFailed attempts error retryAt) := by
  intro r
  rcases retryAt with _ | t <;> exact ⟨rfl, rfl⟩

theorem AlertInv.mapPending (h : AlertInv s) (sessionId : Nat) (hf : KeepsIds f) (clock : Int) :
    AlertInv { s with rows := s.rows.map (onPending sessionId f), clock := clock } := by
  have hkeeps := hf.onPending sessionId
  refine ⟨?_, h.nonempty, fun d hd id hi => ?_, fun d hd hok r hr hi => ?_, h.spaced⟩
  · rw [map_map, length_map, ← h.ids]
    exact map_congr_left fun r _ => (hkeeps r).1
  · obtain ⟨r, hr, hri, hrs⟩ := h.inTable d hd id hi
    exact ⟨_, mem_map_of_mem hr, (hkeeps r).1.trans hri, (hkeeps r).2.trans hrs⟩
  · obtain ⟨r₀, hr₀, rfl⟩ := mem_map.mp hr
    rw [(hkeeps r₀).1] at hi
    have hsent := h.accepted d hd hok r₀ hr₀ hi
    rw [onPending, if_neg (by simp [EmailAlert.isPending, hsent.1])]
    exact hsent

variable {t : Int}

theorem le_lastSent (hr : r ∈ rows) (hs : r.status = .sent)
    (ht : r.sentAt = some t) : ∃ m, lastSent rows r.sessionId = some m ∧ t ≤ m := by
  have hmem : t ∈ (rows.filter fun q => q.sessionId = r.sessionId ∧ q.status = .sent).filterMap (·.sentAt) :=
    mem_filterMap.mpr ⟨r, mem_filter.mpr ⟨hr, by simp [hs]⟩, ht⟩
  rcases hm : lastSent rows r.sessionId with _ | m
  · rw [lastSent, List.max?_eq_none_iff] at hm
    rw [hm] at hmem
    cases hmem
  · rw [lastSent, List.max?_eq_some_iff] at hm
    exact ⟨m, rfl, hm.2 t hmem⟩

theorem mem_digestOf :
    r ∈ digestOf rows sessionId v ↔ r ∈ rows ∧ r.isPending sessionId ∧ v.kindEnabled r.kind := by
  rw [digestOf, pendingAlerts, mem_filter, mem_filter, and_assoc]

theorem mem_digest_ids (hn : UniqueAlerts rows) (hr : r ∈ rows) :
    r.id ∈ (digestOf rows sessionId v).map (·.id) ↔ r ∈ digestOf rows sessionId v := by
  refine ⟨fun hi => ?_, mem_map_of_mem⟩
  obtain ⟨r₁, hr₁, hri⟩ := mem_map.mp hi
  rwa [← inj_on_of_nodup_map hn (mem_digestOf.mp hr₁).1 hr hri]

theorem AlertInv.afterSuccess (h : AlertInv s)
    (hopen : WindowOpen s.rows sessionId now) (ok : Bool) (retryAt : Option Int) {a : DigestSend}
    (ha : a ∈ s.sends) :
    AfterSuccess a ⟨sessionId, now, (digestOf s.rows sessionId v).map (·.id), ok, retryAt⟩ := by
  refine fun hok => ⟨fun id hi hmem => ?_, fun hsession => ?_⟩
  · obtain ⟨r, hr, rfl⟩ := mem_map.mp hmem
    rw [mem_digestOf] at hr
    have hsent := (h.accepted a ha hok r hr.1 hi).1
    simp [EmailAlert.isPending, hsent] at hr
  · obtain ⟨id, hi⟩ := exists_mem_of_ne_nil _ (h.nonempty a ha)
    obtain ⟨r, hr, hri, hrs⟩ := h.inTable a ha id hi
    obtain ⟨hstatus, hat⟩ := h.accepted a ha hok r hr (hri ▸ hi)
    obtain ⟨m, hm, hle⟩ := le_lastSent hr hstatus hat
    have hs : a.sessionId = sessionId := hsession
    rw [hrs, hs] at hm
    have hwindow := hopen m hm
    show a.now + EMAIL_THROTTLE_MS ≤ now
    omega

theorem AlertInv.addSend (h : AlertInv s)
    (hopen : WindowOpen s.rows sessionId now) (hne : digestOf s.rows sessionId v ≠ [])
    (hf : KeepsIds f) (ok : Bool) (retryAt : Option Int)
    (hok : ok = true → ∀ r, v.kindEnabled r.kind → (f r).status = .sent ∧ (f r).sentAt = some now)
    (clock : Int) :
    AlertInv
      { rows := s.rows.map (onPending sessionId f)
        sends := s.sends ++ [⟨sessionId, now, (digestOf s.rows sessionId v).map (·.id), ok, retryAt⟩]
        clock := clock } := by
  have hmap := h.mapPending sessionId hf clock
  have hkeeps := hf.onPending sessionId
  refine ⟨hmap.ids, fun d hd => ?_, fun d hd id hi => ?_, fun d hd hdok r hr hi => ?_, ?_⟩
  · rcases mem_snoc.1 hd with hd | rfl
    · exact h.nonempty d hd
    · simpa using hne
  · rcases mem_snoc.1 hd with hd | rfl
    · exact hmap.inTable d hd id hi
    · obtain ⟨r, hr, rfl⟩ := mem_map.mp hi
      rw [mem_digestOf] at hr
      have hp : r.sessionId = sessionId ∧ r.status = .pending := by simpa [EmailAlert.isPending] using hr.2.1
      exact ⟨_, mem_map_of_mem hr.1, (hkeeps r).1, (hkeeps r).2.trans hp.1⟩
  · rcases mem_snoc.1 hd with hd | rfl
    · exact hmap.accepted d hd hdok r hr hi
    · obtain ⟨r₀, hr₀, rfl⟩ := mem_map.mp hr
      rw [(hkeeps r₀).1] at hi
      have hmem := (mem_digest_ids h.unique hr₀).mp hi
      rw [mem_digestOf] at hmem
      rw [onPending, if_pos hmem.2.1]
      exact hok hdok r₀ hmem.2.2
  · rw [pairwise_append]
    refine ⟨h.spaced, pairwise_singleton _ _, fun a ha b hb => ?_⟩
    rw [mem_singleton] at hb
    subst hb
    exact h.afterSuccess hopen ok retryAt ha

variable {s' : AlertState}

theorem AlertInv.visit (h : AlertInv s)
    (hv : VisitOutcome now sessionId v s s') : AlertInv { s' with clock := now } := by
  cases hv with
  | quiet f hf => exact h.mapPending sessionId (keepsIds_quiet hf) now
  | deferred t _ _ => exact h.mapPending sessionId (keepsIds_defer _) now
  | sent hwill _ hne =>
    refine h.addSend hwill.2.1 hne ((keepsIds_markSent _ _).offOr v) true none (fun _ r hr => ?_) now
    rw [offOr, if_pos hr]
    exact ⟨rfl, rfl⟩
  | failed error hwill _ hne =>
    exact h.addSend hwill.2.1 hne ((keepsIds_markFailed _ _ _).offOr v) false _ nofun now

theorem AlertInv.enqueueOne (h : AlertInv s) (now : Int) (i : EmailAlertInput) :
    AlertInv { s with rows := enqueueOne now s.rows i } := by
  rw [SmartProctoring.enqueueOne]
  split
  · exact h
  · refine ⟨?_, h.nonempty, fun d hd id hi => ?_, fun d hd hok r hr hi => ?_, h.spaced⟩
    · rw [map_append, h.ids, length_append, length_singleton, range_succ]
      rfl
    · obtain ⟨r, hr, hri⟩ := h.inTable d hd id hi
      exact ⟨r, mem_append_left _ hr, hri⟩
    · rcases mem_append.mp hr with hr | hr
      · exact h.accepted d hd hok r hr hi
      · -- the id of the new row is in no digest yet
        rw [mem_singleton] at hr
        subst hr
        obtain ⟨r, hr, hri, -⟩ := h.inTable d hd _ hi
        have hlt : r.id < s.rows.length := by
          rw [← mem_range, ← h.ids]
          exact mem_map_of_mem hr
        rw [hri] at hlt
        exact absurd hlt (lt_irrefl _)

theorem enqueue_induction {P : AlertState → Prop} (now : Int)
    (hstep : ∀ s i, P s → P { s with rows := enqueueOne now s.rows i })
    (items : List EmailAlertInput) (h : P s) : P (enqueueEmailAlerts now items s) := by
  induction items generalizing s with
  | nil => exact h
  | cons i items ih => exact ih (hstep s i h)

theorem alertInv_of_reachable (h : emailAlertMachine.Reachable s) : AlertInv s := by
  induction h with
  | init h0 =>
    refine ⟨?_, ?_, ?_, ?_, ?_⟩ <;> simp [h0.1, h0.2]
  | step _ a _ ih =>
    cases a with
    | enqueue items now => exact enqueue_induction now (fun _ i hs => hs.enqueueOne now i) items ih
    | visit now sessionId v => exact ih.visit (sendSession_outcome ih.unique now sessionId v)

/-! ## Alerts with counters of their own -/

/-- The failed sends that included an alert. -/
def failedSends (sends : List DigestSend) (id : Nat) : Nat :=
  sends.countP fun d => !d.ok && decide (id ∈ d.ids)

/-- The next send of an alert comes after the time its failure set. -/
def AfterFailure (a b : DigestSend) : Prop :=
  a.ok = false → ∀ id ∈ a.ids, id ∈ b.ids → ∀ t ∈ a.retryAt, t ≤ b.now

/-- A visit that sends a digest finds all alerts of earlier sends due, and where the mail server
does not accept it, all alerts with one attempt count. -/
def OwnCounters (a : AlertAction) (s : AlertState) : Prop :=
  match a with
  | .enqueue _ _ => True
  | .visit now sessionId v =>
    WillSend now sessionId v s →
      (∀ r ∈ digestOf s.rows sessionId v, 0 < r.attempts → r.nextAttemptAt ≤ now) ∧
        (v.error.isSome →
          ∀ r ∈ digestOf s.rows sessionId v, ∀ r' ∈ digestOf s.rows sessionId v, r.attempts = r'.attempts)

instance OwnCounters.decidable (a : AlertAction) (s : AlertState) : Decidable (OwnCounters a s) :=
  match a with
  | .enqueue _ _ => .isTrue trivial
  | .visit _ _ _ => inferInstanceAs (Decidable (_ → _))

structure CounterInv (s : AlertState) : Prop where
  base : AlertInv s
  counts : ∀ r ∈ s.rows, r.status = .pending → r.attempts = failedSends s.sends r.id
  givenUp : ∀ r ∈ s.rows, r.status = .failed → EMAIL_MAX_ATTEMPTS ≤ failedSends s.sends r.id
  waits : ∀ r ∈ s.rows, r.status = .pending → ∀ d ∈ s.sends, d.ok = false → r.id ∈ d.ids →
    ∀ t ∈ d.retryAt, t ≤ r.nextAttemptAt
  /-- Nothing of the session was accepted since, or a window before. -/
  quiet : ∀ r ∈ s.rows, r.status = .pending → ∀ d ∈ s.sends, d.ok = false → r.id ∈ d.ids →
    ∀ t ∈ lastSent s.rows r.sessionId, t + EMAIL_THROTTLE_MS ≤ d.now
  past : ∀ d ∈ s.sends, d.now ≤ s.clock
  respected : s.sends.Pairwise AfterFailure

theorem mem_map_onPending {r' : EmailAlert} (h : r' ∈ rows.map (onPending sessionId f)) :
    (r' ∈ rows ∧ ¬ r'.isPending sessionId) ∨ ∃ r ∈ rows, r.isPending sessionId ∧ r' = f r := by
  obtain ⟨r, hr, rfl⟩ := mem_map.mp h
  by_cases hp : r.isPending sessionId
  · exact .inr ⟨r, hr, hp, if_pos hp⟩
  · rw [onPending, if_neg hp]
    exact .inl ⟨hr, hp⟩

theorem isPending_iff :
    r.isPending sessionId ↔ r.sessionId = sessionId ∧ r.status = .pending := by
  simp [EmailAlert.isPending]

theorem mem_map_offOr {r' : EmailAlert} (h : r' ∈ rows.map (onPending sessionId (offOr v f)))
    (hstatus : r'.status = .pending ∨ r'.status = .failed) :
    (r' ∈ rows ∧ ¬ r'.isPending sessionId) ∨ ∃ r ∈ digestOf rows sessionId v, r' = f r := by
  refine (mem_map_onPending h).imp_right ?_
  rintro ⟨r, hr, hp, rfl⟩
  rw [offOr] at hstatus ⊢
  split at hstatus
  next hk => exact ⟨r, mem_digestOf.mpr ⟨hr, hp, hk⟩, if_pos hk⟩
  next => simp [EmailAlert.skip] at hstatus

theorem lastSent_onPending (rows : List EmailAlert) (sessionId x : Nat)
    (hkeeps : KeepsIds f) (hf : ∀ r, r.isPending sessionId → x = sessionId → (f r).status ≠ .sent) :
    lastSent (rows.map (onPending sessionId f)) x = lastSent rows x := by
  have hrows : (((rows.map (onPending sessionId f)).filter fun r => r.sessionId = x ∧ r.status = .sent).filterMap
      (·.sentAt)) = ((rows.filter fun r => r.sessionId = x ∧ r.status = .sent).filterMap (·.sentAt)) := by
    induction rows with
    | nil => rfl
    | cons r rows ih =>
      rw [map_cons]
      by_cases hp : r.isPending sessionId
      · have hpend := isPending_iff.mp hp
        have hnot : ¬ ((f r).sessionId = x ∧ (f r).status = .sent) := fun hx =>
          hf r hp (by rw [← hx.1, (hkeeps r).2, hpend.1]) hx.2
        rw [onPending, if_pos hp, filter_cons_of_neg (by simpa using hnot),
          filter_cons_of_neg (by simp [hpend.2]), ih]
      · rw [onPending, if_neg hp]
        by_cases hx : r.sessionId = x ∧ r.status = .sent
        · rw [filter_cons_of_pos (by simpa using hx), filter_cons_of_pos (by simpa using hx),
            filterMap_cons, filterMap_cons, ih]
        · rw [filter_cons_of_neg (by simpa using hx), filter_cons_of_neg (by simpa using hx), ih]
  rw [lastSent, lastSent, hrows]

theorem failedSends_append (sends : List DigestSend) (d : DigestSend) (id : Nat) :
    failedSends (sends ++ [d]) id = failedSends sends id + if d.ok = false ∧ id ∈ d.ids then 1
    else 0 := by
  rw [failedSends, failedSends]
  simp

theorem failedSends_eq_zero {sends : List DigestSend} {id : Nat} (h : ∀ d ∈ sends, id ∉ d.ids) :
    failedSends sends id = 0 := by
  rw [failedSends, countP_eq_zero]
  intro d hd
  simp [h d hd]

theorem retryMs_nonneg (n : Nat) : 0 ≤ EMAIL_RETRY_MS.getD n 0 := by
  have hall : ∀ ms ∈ EMAIL_RETRY_MS, 0 ≤ ms := by decide
  rw [getD_eq_getElem?_getD]
  rcases hms : EMAIL_RETRY_MS[n]? with _ | ms
  · exact le_refl _
  · exact hall ms (mem_of_getElem? hms)

theorem le_retryAfter {attempts : Nat} (h : retryAfter now attempts = some t) :
    now ≤ t := by
  rw [retryAfter] at h
  split at h
  · cases h
  · have hwait := retryMs_nonneg (attempts - 1)
    rw [Option.some.injEq] at h
    omega

theorem retryAfter_eq_none {attempts : Nat} (h : retryAfter now attempts = none) :
    EMAIL_MAX_ATTEMPTS ≤ attempts := by
  rw [retryAfter] at h
  split at h
  · assumption
  · cases h

theorem nextAttempts_eq {enabled : List EmailAlert}
    (heq : ∀ r ∈ enabled, ∀ r' ∈ enabled, r.attempts = r'.attempts) (hr : r ∈ enabled) :
    nextAttempts enabled = r.attempts + 1 := by
  have hall : ∀ n ∈ enabled.map (·.attempts), n = r.attempts := by
    intro n hn
    obtain ⟨r', hr', rfl⟩ := mem_map.mp hn
    exact heq r' hr' r hr
  have hfold : ∀ (l : List Nat) (m : Nat), m ≤ r.attempts → (∀ n ∈ l, n = r.attempts) →
      l ≠ [] ∨ m = r.attempts → l.foldl max m = r.attempts := by
    intro l
    induction l with
    | nil => exact fun m _ _ h => h.resolve_left fun hne => hne rfl
    | cons n l ih =>
      intro m hm hl _
      have hn := hl n mem_cons_self
      refine ih _ ?_ (fun k hk => hl k (mem_cons_of_mem _ hk)) (.inr ?_)
      all_goals rw [hn, max_eq_right hm]
  rw [nextAttempts, hfold _ 0 (Nat.zero_le _) hall (.inl ?_)]
  exact ne_nil_of_mem (mem_map_of_mem hr)

section

variable (h : CounterInv s)
include h

theorem CounterInv.keep (hbase : AlertInv s')
    (hrows : ∀ r ∈ s'.rows, r.status = .pending ∨ r.status = .failed → r ∈ s.rows)
    (hlast : ∀ r ∈ s'.rows, r.status = .pending → lastSent s'.rows r.sessionId = lastSent s.rows r.sessionId)
    (hsends : ∀ d ∈ s'.sends, d.ok = false → d ∈ s.sends)
    (hcount : ∀ id, failedSends s'.sends id = failedSends s.sends id)
    (hpast : ∀ d ∈ s'.sends, d.now ≤ s'.clock) (hrespected : s'.sends.Pairwise AfterFailure) :
    CounterInv s' where
  base := hbase
  counts r hr hp := by
    rw [hcount]
    exact h.counts r (hrows r hr (.inl hp)) hp
  givenUp r hr hf := by
    rw [hcount]
    exact h.givenUp r (hrows r hr (.inr hf)) hf
  waits r hr hp d hd hok hi := h.waits r (hrows r hr (.inl hp)) hp d (hsends d hd hok) hok hi
  quiet r hr hp d hd hok hi := by
    rw [hlast r hr hp]
    exact h.quiet r (hrows r hr (.inl hp)) hp d (hsends d hd hok) hok hi
  past := hpast
  respected := hrespected

theorem CounterInv.attempts_pos (hr : r ∈ s.rows)
    (hp : r.status = .pending) {d : DigestSend} (hd : d ∈ s.sends) (hok : d.ok = false)
    (hi : r.id ∈ d.ids) : 0 < r.attempts := by
  rw [h.counts r hr hp, failedSends, countP_pos_iff]
  exact ⟨d, hd, by simp [hok, hi]⟩

theorem CounterInv.respects
    (hdue : ∀ r ∈ digestOf s.rows sessionId v, 0 < r.attempts → r.nextAttemptAt ≤ now) (ok : Bool)
    (retryAt : Option Int) : List.Pairwise AfterFailure
      (s.sends ++ [⟨sessionId, now, (digestOf s.rows sessionId v).map (·.id), ok, retryAt⟩]) := by
  rw [pairwise_append]
  refine ⟨h.respected, pairwise_singleton _ _, fun a ha b hb => ?_⟩
  rw [mem_singleton] at hb
  subst hb
  intro hok id hi hmem t ht
  obtain ⟨r, hr, rfl⟩ := mem_map.mp hmem
  have hrow := mem_digestOf.mp hr
  have hpend := (isPending_iff.mp hrow.2.1).2
  have hwait := h.waits r hrow.1 hpend a ha hok hi t ht
  have hnow := hdue r hr (h.attempts_pos hrow.1 hpend ha hok hi)
  show t ≤ now
  omega

theorem CounterInv.past_append (hclock : s.clock ≤ now)
    {d : DigestSend} (hd : d.now = now) : ∀ a ∈ s.sends ++ [d], a.now ≤ now := by
  intro a ha
  rcases mem_snoc.1 ha with ha | ha
  · exact (h.past a ha).trans hclock
  · rw [ha, hd]

theorem CounterInv.quietVisit (hclock : s.clock ≤ now) (hf : ∀ r, f r = r ∨ ∃ e, f r = r.skip e)
    (hbase : AlertInv { s with rows := s.rows.map (onPending sessionId f), clock := now }) :
    CounterInv { s with rows := s.rows.map (onPending sessionId f), clock := now } := by
  refine h.keep hbase (fun r' hr' hstatus => ?_) (fun r' _ _ => ?_) (fun d hd _ =>
    hd) (fun _ => rfl)
    (fun d hd => (h.past d hd).trans hclock) h.respected
  · obtain ⟨hr, -⟩ | ⟨r, hr, -, rfl⟩ := mem_map_onPending hr'
    · exact hr
    · rcases hf r with he | ⟨e, he⟩
      · rwa [he]
      · rw [he] at hstatus
        simp [EmailAlert.skip] at hstatus
  · refine lastSent_onPending _ _ _ (keepsIds_quiet hf) fun r hp _ => ?_
    rcases hf r with he | ⟨e, he⟩ <;> simp [he, EmailAlert.skip, (isPending_iff.mp hp).2]

theorem CounterInv.deferredVisit (hclock : s.clock ≤ now)
    (ht : lastSent s.rows sessionId = some t) (hnow : now < t + EMAIL_THROTTLE_MS)
    (hbase : AlertInv
      { s with rows := s.rows.map (onPending sessionId (·.defer (t + EMAIL_THROTTLE_MS))), clock := now }) :
    CounterInv
      { s with rows := s.rows.map (onPending sessionId (·.defer (t + EMAIL_THROTTLE_MS))), clock := now } := by
  have hfresh : ∀ r ∈ s.rows, r.isPending sessionId → ∀ d ∈ s.sends, d.ok = false → r.id ∉ d.ids := by
    intro r hr hp d hd hok hi
    obtain ⟨hsession, hpend⟩ := isPending_iff.mp hp
    have hquiet := h.quiet r hr hpend d hd hok hi t (by rw [hsession, ht]; rfl)
    have hpast := h.past d hd
    omega
  have hlast : ∀ x, lastSent (s.rows.map (onPending sessionId (·.defer (t + EMAIL_THROTTLE_MS)))) x =
      lastSent s.rows x := fun x =>
    lastSent_onPending _ _ _ (keepsIds_defer _) fun r hp _ => by
      simp [EmailAlert.defer, (isPending_iff.mp hp).2]
  refine ⟨hbase, fun r' hr' hp => ?_, fun r' hr' hf => ?_, fun r' hr' hp => ?_, fun r' hr' hp => ?_,
    fun d hd => (h.past d hd).trans hclock, h.respected⟩
  · obtain ⟨hr, -⟩ | ⟨r, hr, hpend, rfl⟩ := mem_map_onPending hr'
    · exact h.counts r' hr hp
    · exact h.counts r hr (isPending_iff.mp hpend).2
  · obtain ⟨hr, -⟩ | ⟨r, hr, hpend, rfl⟩ := mem_map_onPending hr'
    · exact h.givenUp r' hr hf
    · simp [EmailAlert.defer, (isPending_iff.mp hpend).2] at hf
  · obtain ⟨hr, -⟩ | ⟨r, hr, hpend, rfl⟩ := mem_map_onPending hr'
    · exact h.waits r' hr hp
    · exact fun d hd hok hi => absurd hi (hfresh r hr hpend d hd hok)
  · obtain ⟨hr, -⟩ | ⟨r, hr, hpend, rfl⟩ := mem_map_onPending hr'
    · rw [hlast]
      exact h.quiet r' hr hp
    · exact fun d hd hok hi => absurd hi (hfresh r hr hpend d hd hok)

theorem CounterInv.sentVisit (hclock : s.clock ≤ now)
    (hdue : ∀ r ∈ digestOf s.rows sessionId v, 0 < r.attempts → r.nextAttemptAt ≤ now)
    (hbase : AlertInv s')
    (hrows : s'.rows = s.rows.map (onPending sessionId
      (offOr v (·.markSent now (nextAttempts (digestOf s.rows sessionId v))))))
    (hsends : s'.sends = s.sends ++ [⟨sessionId, now, (digestOf s.rows sessionId v).map (·.id), true, none⟩])
    (hnow : s'.clock = now) : CounterInv s' := by
  have hback : ∀ r' ∈ s'.rows, r'.status = .pending ∨ r'.status = .failed →
      r' ∈ s.rows ∧ ¬ r'.isPending sessionId := by
    intro r' hr' hstatus
    rw [hrows] at hr'
    obtain hr | ⟨r, -, rfl⟩ := mem_map_offOr hr' hstatus
    · exact hr
    · simp [EmailAlert.markSent] at hstatus
  refine h.keep hbase (fun r' hr' hstatus => (hback r' hr' hstatus).1) (fun r' hr' hp => ?_)
    (fun d hd hok => ?_) (fun id => ?_) ?_ ?_
  · rw [hrows]
    refine lastSent_onPending _ _ _ ((keepsIds_markSent _ _).offOr v) fun _ _ hs => ?_
    exact absurd (isPending_iff.mpr ⟨hs, hp⟩) (hback r' hr' (.inl hp)).2
  · rw [hsends] at hd
    rcases mem_snoc.1 hd with hd | hd
    · exact hd
    · simp [hd] at hok
  · rw [hsends, failedSends_append]
    simp
  · rw [hsends, hnow]
    exact h.past_append hclock rfl
  · rw [hsends]
    exact h.respects hdue true none

omit h in
theorem lastSent_markFailed (rows : List EmailAlert) (n : Nat) (error : String) (retryAt : Option Int)
    (x : Nat) : lastSent (rows.map (onPending sessionId (offOr v (·.markFailed n error retryAt)))) x =
      lastSent rows x := by
  refine lastSent_onPending _ _ _ ((keepsIds_markFailed _ _ _).offOr v) fun r hp _ => ?_
  have hpend := (isPending_iff.mp hp).2
  rw [offOr]
  split
  · rcases retryAt with _ | t <;> simp [EmailAlert.markFailed, hpend]
  · simp [EmailAlert.skip]

omit h in
theorem failedSends_digest (hn : UniqueAlerts rows) (hr : r ∈ rows) (sends : List DigestSend)
    (retryAt : Option Int) :
    failedSends (sends ++ [⟨sessionId, now, (digestOf rows sessionId v).map (·.id), false, retryAt⟩]) r.id =
      failedSends sends r.id + if r ∈ digestOf rows sessionId v then 1 else 0 := by
  rw [failedSends_append, if_congr (and_iff_right rfl) rfl rfl,
    if_congr (mem_digest_ids hn hr) rfl rfl]

theorem CounterInv.nextAttempts_eq
    (heq : ∀ r ∈ digestOf s.rows sessionId v, ∀ r' ∈ digestOf s.rows sessionId v, r.attempts = r'.attempts)
    (hr : r ∈ digestOf s.rows sessionId v) :
    nextAttempts (digestOf s.rows sessionId v) = failedSends s.sends r.id + 1 := by
  have hrow := mem_digestOf.mp hr
  rw [SmartProctoring.nextAttempts_eq heq hr, h.counts r hrow.1 (isPending_iff.mp hrow.2.1).2]

theorem CounterInv.failedVisit (hclock : s.clock ≤ now)
    {error : String} (hopen : WindowOpen s.rows sessionId now)
    (hdue : ∀ r ∈ digestOf s.rows sessionId v, 0 < r.attempts → r.nextAttemptAt ≤ now)
    (heq : ∀ r ∈ digestOf s.rows sessionId v, ∀ r' ∈ digestOf s.rows sessionId v, r.attempts = r'.attempts)
    (hbase : AlertInv s') {retryAt : Option Int}
    (hretry : retryAt = retryAfter now (nextAttempts (digestOf s.rows sessionId v)))
    (hrows : s'.rows = s.rows.map (onPending sessionId
      (offOr v (·.markFailed (nextAttempts (digestOf s.rows sessionId v)) error retryAt))))
    (hsends : s'.sends =
      s.sends ++ [⟨sessionId, now, (digestOf s.rows sessionId v).map (·.id), false, retryAt⟩])
    (hnow : s'.clock = now) : CounterInv s' := by
  have hn := h.base.unique
  have hnot : ∀ r, ¬ r.isPending sessionId → r ∉ digestOf s.rows sessionId v := fun r hp hr =>
    hp (mem_digestOf.mp hr).2.1
  -- an alert that was not in the digest has the counts it had, and one that was has one more
  have hcount : ∀ r ∈ s.rows, ¬ r.isPending sessionId →
      failedSends s'.sends r.id = failedSends s.sends r.id := by
    intro r hr hp
    rw [hsends, failedSends_digest hn hr, if_neg (hnot r hp), Nat.add_zero]
  have hnew : ∀ r ∈ digestOf s.rows sessionId v,
      nextAttempts (digestOf s.rows sessionId v) = failedSends s'.sends r.id := by
    intro r hr
    rw [h.nextAttempts_eq heq hr, hsends, failedSends_digest hn (mem_digestOf.mp hr).1, if_pos hr]
  have hback : ∀ r' ∈ s'.rows, r'.status = .pending ∨ r'.status = .failed →
      (r' ∈ s.rows ∧ ¬ r'.isPending sessionId) ∨
        ∃ r ∈ digestOf s.rows sessionId v,
          r' = r.markFailed (nextAttempts (digestOf s.rows sessionId v)) error retryAt := by
    intro r' hr' hstatus
    rw [hrows] at hr'
    exact mem_map_offOr hr' hstatus
  have hkeeps := keepsIds_markFailed (nextAttempts (digestOf s.rows sessionId v)) error retryAt
  refine ⟨hbase, fun r' hr' hp => ?_, fun r' hr' hf => ?_, fun r' hr' hp d hd hok hi => ?_,
    fun r' hr' hp d hd hok hi => ?_, ?_, ?_⟩
  · obtain ⟨hr, hout⟩ | ⟨r, hr, rfl⟩ := hback r' hr' (.inl hp)
    · rw [hcount r' hr hout, h.counts r' hr hp]
    · rw [(hkeeps r).1, ← hnew r hr]
      rcases retryAt with _ | t <;> rfl
  · obtain ⟨hr, hout⟩ | ⟨r, hr, rfl⟩ := hback r' hr' (.inr hf)
    · rw [hcount r' hr hout]
      exact h.givenUp r' hr hf
    · rcases retryAt with _ | t
      · rw [(hkeeps r).1, ← hnew r hr]
        exact retryAfter_eq_none hretry.symm
      · simp [EmailAlert.markFailed, (isPending_iff.mp (mem_digestOf.mp hr).2.1).2] at hf
  · rw [hsends] at hd
    obtain ⟨hr, hout⟩ | ⟨r, hr, rfl⟩ := hback r' hr' (.inl hp)
    · rcases mem_snoc.1 hd with hd | rfl
      · exact h.waits r' hr hp d hd hok hi
      · exact absurd ((mem_digest_ids hn hr).mp hi) (hnot r' hout)
    · have hrow := mem_digestOf.mp hr
      rcases hre : retryAt with _ | t
      · simp [hre, EmailAlert.markFailed] at hp
      · have hle := le_retryAfter (hre ▸ hretry).symm
        rw [hre] at hi
        intro t' ht'
        show t' ≤ t
        rcases mem_snoc.1 hd with hd | rfl
        · have hpend := (isPending_iff.mp hrow.2.1).2
          have hwait := h.waits r hrow.1 hpend d hd hok hi t' ht'
          have hnow' := hdue r hr (h.attempts_pos hrow.1 hpend hd hok hi)
          omega
        · rw [hre, Option.mem_some_iff] at ht'
          exact ht'.ge
  · rw [hrows, lastSent_markFailed]
    rw [hsends] at hd
    obtain ⟨hr, hout⟩ | ⟨r, hr, rfl⟩ := hback r' hr' (.inl hp)
    · rcases mem_snoc.1 hd with hd | rfl
      · exact h.quiet r' hr hp d hd hok hi
      · exact absurd ((mem_digest_ids hn hr).mp hi) (hnot r' hout)
    · have hrow := mem_digestOf.mp hr
      obtain ⟨hsession, hpend⟩ := isPending_iff.mp hrow.2.1
      rw [(hkeeps r).1] at hi
      rw [(hkeeps r).2]
      rcases mem_snoc.1 hd with hd | rfl
      · exact h.quiet r hrow.1 hpend d hd hok hi
      · rw [hsession]
        exact hopen
  · rw [hsends, hnow]
    exact h.past_append hclock rfl
  · rw [hsends]
    exact h.respects hdue false retryAt

theorem CounterInv.visit (hclock : s.clock ≤ now) (hown : OwnCounters (.visit now sessionId v) s)
    (hv : VisitOutcome now sessionId v s s') : CounterInv { s' with clock := now } := by
  have hbase := h.base.visit hv
  cases hv with
  | quiet f hf => exact h.quietVisit hclock hf hbase
  | deferred t ht hnow => exact h.deferredVisit hclock ht hnow hbase
  | sent hwill _ _ => exact h.sentVisit hclock (hown hwill).1 hbase rfl rfl rfl
  | failed error hwill herror _ =>
    obtain ⟨hdue, heq⟩ := hown hwill
    exact h.failedVisit hclock hwill.2.1 hdue (heq (by simp [herror])) hbase rfl rfl rfl rfl

theorem CounterInv.enqueueOne (now : Int) (i : EmailAlertInput) :
    CounterInv { s with rows := enqueueOne now s.rows i } := by
  have hbase := h.base.enqueueOne now i
  rw [SmartProctoring.enqueueOne] at hbase ⊢
  split at hbase
  · rwa [if_pos ‹_›]
  · rw [if_neg ‹_›]
    -- the new alert is in no digest yet
    have hfresh : ∀ d ∈ s.sends, s.rows.length ∉ d.ids := by
      intro d hd hi
      obtain ⟨r, hr, hri, -⟩ := h.base.inTable d hd _ hi
      have hlt : r.id < s.rows.length := by
        rw [← mem_range, ← h.base.ids]
        exact mem_map_of_mem hr
      omega
    have hlast : ∀ x (r : EmailAlert), r.status = .pending →
        lastSent (s.rows ++ [r]) x = lastSent s.rows x := by
      intro x r hr
      rw [lastSent, lastSent, filter_append, filter_cons_of_neg (by simp [hr]), filter_nil,
        append_nil]
    refine ⟨hbase, fun r hr hp => ?_, fun r hr hf => ?_, fun r hr hp d hd hok hi => ?_,
      fun r hr hp d hd hok hi => ?_, h.past, h.respected⟩
    all_goals rcases mem_append.mp hr with hr | hr
    · exact h.counts r hr hp
    · rw [mem_singleton] at hr
      subst hr
      exact (failedSends_eq_zero hfresh).symm
    · exact h.givenUp r hr hf
    · rw [mem_singleton] at hr
      simp [hr] at hf
    · exact h.waits r hr hp d hd hok hi
    · rw [mem_singleton] at hr
      subst hr
      exact absurd hi (hfresh d hd)
    · rw [hlast _ _ rfl]
      exact h.quiet r hr hp d hd hok hi
    · rw [mem_singleton] at hr
      subst hr
      exact absurd hi (hfresh d hd)

end

theorem counterInv_of_reachable (h : (emailAlertMachine.restrict OwnCounters).Reachable s) :
    CounterInv s := by
  induction h with
  | init h0 =>
    have hbase := alertInv_of_reachable (.init h0)
    refine ⟨hbase, ?_, ?_, ?_, ?_, ?_, ?_⟩ <;> simp [h0.1, h0.2]
  | step _ a ha ih =>
    cases a with
    | enqueue items now => exact enqueue_induction now (fun _ i hs => hs.enqueueOne now i) items ih
    | visit now sessionId v =>
      exact ih.visit ha.1.1 ha.2 (sendSession_outcome ih.base.unique now sessionId v)

/-- An alert is given up only after its own failed sends, each sent not before the one before
allowed, and no alert is in an email after an accepted one, nor is the next email of the session
within the window. -/
structure OwnRetries (s : AlertState) : Prop where
  givenUp : ∀ r ∈ s.rows, r.status = .failed → EMAIL_MAX_ATTEMPTS ≤ failedSends s.sends r.id
  respected : s.sends.Pairwise AfterFailure
  spaced : s.sends.Pairwise AfterSuccess

def noAlerts : AlertState := ⟨[], [], 0⟩

theorem noAlerts_init : emailAlertMachine.init noAlerts := ⟨rfl, rfl⟩

/-- A visit that finds everything in order but the mail server, which does not take the message. -/
def refusedVisit : AlertVisit := ⟨true, true, fun _ => true, true, true, some "451 try again later"⟩

/-- One alert, sent five times at the times its failures set. -/
def fiveRefusals : List AlertAction :=
  [.enqueue [⟨.hold, 1, 7⟩] 0, .visit 0 7 refusedVisit, .visit 60000 7 refusedVisit,
    .visit 360000 7 refusedVisit,
    .visit 1260000 7 refusedVisit, .visit 3060000 7 refusedVisit]

theorem fiveRefusals_admits : (emailAlertMachine.restrict OwnCounters).Admits noAlerts fiveRefusals := by decide

/-- The second alert joins after the fourth failure of the first, a minute after which the next
visit is due to it alone. -/
def joinedLate : List AlertAction :=
  [.enqueue [⟨.hold, 1, 7⟩] 0, .visit 0 7 refusedVisit, .visit 60000 7 refusedVisit,
    .visit 360000 7 refusedVisit,
    .visit 1260000 7 refusedVisit, .enqueue [⟨.highSeverity, 2, 7⟩] 1320000,
      .visit 1320000 7 refusedVisit]

end SmartProctoring
