import SmartProctoring.Server.Operations

/-!
# The one-update heartbeat refines the locked one

`fastHeartbeat` answers from the row as the request loaded it and writes one patch.  This file shows
that wherever it does so, the locked heartbeat would have written the same patch and given the same
answer (`fastHeartbeat_some`), and that where its update went through but commands were waiting, the
locked heartbeat that follows is not disturbed by it (`fastHeartbeat_none`).

The argument has two parts.

* The guards of the fast path rule out every other branch of the locked one, so `hearFrom` is the
  patch and nothing else (`hearFrom_eq_patch`).
* The patch may be applied twice: the guards still hold of the patched row, and patching it again
  changes nothing (`needsLockedHeartbeat_patch`, `heartbeatPatch_patch`).
-/

set_option autoImplicit false

namespace SmartProctoring

open Option

variable {m : SessionMutation} {s : ExamSession} {policy : ProctoringPolicy} {i : InstanceId}
  {body : HeartbeatRequest} {client : Option ClientAddress} {now : Int}

/-! ## What the guards say -/

/-- The guards of the fast path, one by one. -/
structure FastPath (s : ExamSession) (policy : ProctoringPolicy) (i : InstanceId)
    (body : HeartbeatRequest) (client : Option ClientAddress) (now : Int) : Prop where
  notSuperseded : superseded s i = false
  noOutage : controlsLive s i = true → s.reportingEventId = none
  clockRuns : controlsLive s i = true → s.status = .active → s.runningSince ≠ none
  sampled : controlsLive s i = true → noSamplesObservationDue s policy.identity body now = false
  notExpired : s.status = .active ∨ s.status = .paused → clockExpired (sessionClock s) now = false
  notTimedOut : controlsLive s i = true → reportingTimedOut s policy now = false
  noSignal : ∀ v ∈ heartbeatUsage s i body client now, v.signal = none

theorem FastPath.of_guards (h : needsLockedHeartbeat s policy i body client now = false) :
    FastPath s policy i body client now := by
  simp only [needsLockedHeartbeat, Bool.or_eq_false_iff] at h
  obtain ⟨⟨⟨⟨⟨hsup, hout⟩, hsam⟩, hexp⟩, htim⟩, husage⟩ := h
  refine ⟨hsup, fun hc => ?_, fun hc hs => ?_, fun hc => ?_, fun hs => ?_, fun hc => ?_,
    fun v hv => ?_⟩
  · rw [hc, Bool.true_and, Bool.or_eq_false_iff] at hout
    simpa using hout.1
  · rw [hc, Bool.true_and, Bool.or_eq_false_iff] at hout
    simpa [hs, ne_none_iff_isSome] using hout.2
  · simpa [hc] using hsam
  · simpa [hs] using hexp
  · simpa [hc] using htim
  · simpa [hv] using (any_eq_false _ _).1 husage v hv

/-! ## The locked path under these guards -/

@[simp] theorem heartbeatPatch_status (usage : Option UsageVerdict) :
    (heartbeatPatch s i body usage now).status = s.status := by
  unfold heartbeatPatch; split <;> rfl

@[simp] theorem sessionClock_heartbeatPatch (usage : Option UsageVerdict) :
    sessionClock (heartbeatPatch s i body usage now) = sessionClock s := by
  unfold heartbeatPatch; split <;> rfl

@[simp] theorem controlsLive_heardRow (usage : Option UsageVerdict) :
    controlsLive (heardRow s i usage now) i = controlsLive s i := rfl

theorem applyInstanceUsage_of_noSignal {usage : Option UsageVerdict}
    (h : ∀ v ∈ usage, v.signal = none) :
    applyInstanceUsage m usage = m.set fun s => { s with instanceUsage := storedUsage s usage } := by
  cases usage with
  | none => rfl
  | some v =>
    simp only [applyInstanceUsage, h v rfl, storedUsage]
    split
    · rfl
    · rfl

theorem endOutage_of_none (h : m.session.reportingEventId = none) : endOutage m = m := by
  rw [endOutage, h]

theorem restartClock_of_running (h : m.session.status = .active → m.session.runningSince ≠ none) :
    restartClock m = m := by
  rw [restartClock, if_neg]
  rintro ⟨hs, hr⟩
  exact h hs (isNone_iff_eq_none.1 hr)

theorem recordLateOutage_of_fastPath (h : FastPath m.session policy i body client m.now)
    (hp : m.policy = policy) : recordLateOutage m i = .ok m := by
  rw [recordLateOutage, if_neg]
  rintro ⟨hc, ht⟩
  have hactive : m.session.status = .active := by
    simp only [reportingTimedOut, Bool.and_eq_true, beq_iff_eq] at ht
    exact ht.1.1.1
  have hlive : controlsLive m.session i = true := by
    simp [controlsLive, hc, hactive, SessionStatus.isTerminal, TERMINAL_STATUSES]
  rw [hp, h.notTimedOut hlive] at ht
  exact Bool.noConfusion ht

/-- **Hearing from the browser is the patch.** -/
theorem hearFrom_eq_patch (h : FastPath m.session policy i body client m.now) :
    hearFrom m i body client =
      { m with
        session :=
          heartbeatPatch m.session i body (heartbeatUsage m.session i body client m.now) m.now } := by
  change reportVerified (applyInstanceUsage (hear m i)
    (heartbeatUsage m.session i body client m.now)) i body = _
  rw [applyInstanceUsage_of_noSignal h.noSignal]
  change reportVerified { m with session := heardRow m.session i _ m.now } i body = _
  rw [reportVerified, heartbeatPatch, controlsLive_heardRow]
  cases hc : controlsLive m.session i with
  | false => rfl
  | true =>
    rw [endOutage_of_none, restartClock_of_running]
    · rfl
    · exact h.clockRuns hc
    · exact h.noOutage hc

theorem enforceExpiry_of_notExpired
    (h : m.session.status = .active ∨ m.session.status = .paused →
      clockExpired (sessionClock m.session) m.now = false) : enforceExpiry m = m := by
  rw [enforceExpiry, if_neg]
  rintro ⟨hs, he⟩
  rw [h hs] at he
  exact Bool.noConfusion he

theorem lockedHeartbeat_eq_patch (h : FastPath m.session m.policy i body client m.now) :
    lockedHeartbeat m i body client =
      .ok (answerHeartbeat
        { m with
          session :=
            heartbeatPatch m.session i body (heartbeatUsage m.session i body client m.now) m.now }
        i body) := by
  rw [lockedHeartbeat, h.notSuperseded, recordLateOutage_of_fastPath h rfl]
  change Except.ok (answerHeartbeat (enforceExpiry (hearFrom m i body client)) i body) = _
  rw [hearFrom_eq_patch h, enforceExpiry_of_notExpired]
  simpa using h.notExpired

/-! ## Patching twice -/

section

variable (usage : Option UsageVerdict)
include usage

@[simp] theorem controlsLive_heartbeatPatch :
    controlsLive (heartbeatPatch s i body usage now) i = controlsLive s i := by
  unfold heartbeatPatch; split <;> rfl

@[simp] theorem superseded_heartbeatPatch :
    superseded (heartbeatPatch s i body usage now) i = superseded s i := by
  unfold heartbeatPatch; split <;> rfl

@[simp] theorem reportingEventId_heartbeatPatch :
    (heartbeatPatch s i body usage now).reportingEventId = s.reportingEventId := by
  unfold heartbeatPatch; split <;> rfl

@[simp] theorem runningSince_heartbeatPatch :
    (heartbeatPatch s i body usage now).runningSince = s.runningSince := by
  unfold heartbeatPatch; split <;> rfl

@[simp] theorem identityState_heartbeatPatch :
    (heartbeatPatch s i body usage now).identityState = s.identityState := by
  unfold heartbeatPatch; split <;> rfl

@[simp] theorem policy_heartbeatPatch : (heartbeatPatch s i body usage now).policy = s.policy := by
  unfold heartbeatPatch; split <;> rfl

@[simp] theorem accommodations_heartbeatPatch :
    (heartbeatPatch s i body usage now).accommodations = s.accommodations := by
  unfold heartbeatPatch; split <;> rfl

end

theorem reportingInterruptedSince_isSome (s s' : ExamSession) :
    (reportingInterruptedSince body s now).isSome =
      (reportingInterruptedSince body s' now).isSome := by
  rw [reportingInterruptedSince, reportingInterruptedSince]
  cases body.outboxOldestAt with
  | none => rfl
  | some oldest => dsimp only; split <;> rfl

theorem reportingInterruptedSince_again {s' : ExamSession}
    (h : s'.reportingInterruptedSince = reportingInterruptedSince body s now) :
    reportingInterruptedSince body s' now = reportingInterruptedSince body s now := by
  rw [reportingInterruptedSince, h, reportingInterruptedSince]
  cases body.outboxOldestAt with
  | none => rfl
  | some oldest =>
    dsimp only
    split
    · cases s.reportingInterruptedSince with
      | none | some t => simp
    · rfl

theorem noSamplesObservationDue_heartbeatPatch (policy : IdentityPolicy)
    (usage : Option UsageVerdict) :
    noSamplesObservationDue (heartbeatPatch s i body usage now) policy body now =
      noSamplesObservationDue s policy body now := by
  simp only [noSamplesObservationDue, heartbeatPatch_status, reportingEventId_heartbeatPatch,
    identityState_heartbeatPatch,
    reportingInterruptedSince_isSome (heartbeatPatch s i body usage now) s]

@[simp] theorem instanceUsage_heartbeatPatch (usage : Option UsageVerdict) :
    (heartbeatPatch s i body usage now).instanceUsage = storedUsage s usage := by
  unfold heartbeatPatch; split <;> rfl

theorem observeInstanceUsage_changed {prev : Option InstanceUsage} {o : UsageObservation}
    (hr : o.refresh = true) : (observeInstanceUsage prev i o).changed = true := by
  rw [observeInstanceUsage]
  split
  next => rfl
  next u _ => simp [foldUsage, hr]

theorem heartbeatUsage_heartbeatPatch
    (h : ∀ v ∈ heartbeatUsage s i body client now, v.signal = none) :
    (∀ v ∈ heartbeatUsage (heartbeatPatch s i body (heartbeatUsage s i body client now) now)
        i body client now, v.signal = none) ∧
      storedUsage (heartbeatPatch s i body (heartbeatUsage s i body client now) now)
          (heartbeatUsage (heartbeatPatch s i body (heartbeatUsage s i body client now) now)
            i body client now) =
        storedUsage s (heartbeatUsage s i body client now) := by
  cases client with
  | none => exact ⟨by simp [heartbeatUsage], by simp [heartbeatUsage, storedUsage]⟩
  | some c =>
    have heval : ∀ s : ExamSession, heartbeatUsage s i body (some c) now =
        if s.status ∈ TRACKED_STATUSES ∧ instanceInControl s i then
          some (observeInstanceUsage s.instanceUsage i
            { address := c, seq := some body.seq, atMs := now, refresh := true })
        else none := fun _ => rfl
    have hctrl : ∀ u, instanceInControl (heartbeatPatch s i body u now) i =
        instanceInControl s i := fun u => by
      unfold heartbeatPatch; dsimp only; split <;> rfl
    rw [heval s] at h
    rw [heval s, heval]
    split at h
    next ht =>
      rw [if_pos ht, heartbeatPatch_status, hctrl, if_pos ht, instanceUsage_heartbeatPatch]
      obtain ⟨husage, hsignal⟩ := observeInstanceUsage_again rfl (h _ rfl)
      refine ⟨fun v hv => ?_, ?_⟩
      · rw [storedUsage, observeInstanceUsage_changed rfl, mem_some_iff] at hv
        rw [← hv]
        exact hsignal
      · simp only [storedUsage, observeInstanceUsage_changed, if_true, husage]
    next ht =>
      rw [if_neg ht, heartbeatPatch_status, hctrl, if_neg ht]
      exact ⟨by simp, by simp [storedUsage]⟩

theorem heartbeatPatch_patch {usage usage' : Option UsageVerdict}
    (h : storedUsage (heartbeatPatch s i body usage now) usage' = storedUsage s usage) :
    heartbeatPatch (heartbeatPatch s i body usage now) i body usage' now =
      heartbeatPatch s i body usage now := by
  have hidx : ∀ n, body.currentQuestionIndex.getD (body.currentQuestionIndex.getD n) =
      body.currentQuestionIndex.getD n := fun n => by cases body.currentQuestionIndex <;> rfl
  rw [heartbeatPatch, controlsLive_heartbeatPatch]
  cases hc : controlsLive s i with
  | false =>
    simp only [heardRow, h]
    simp [heartbeatPatch, hc, heardRow]
  | true =>
    have hagain : reportingInterruptedSince body (heartbeatPatch s i body usage now) now =
        reportingInterruptedSince body s now :=
      reportingInterruptedSince_again (by simp [heartbeatPatch, hc])
    simp only [heardRow, h, hagain]
    simp [heartbeatPatch, hc, heardRow, hidx]

theorem FastPath.patch (h : FastPath s policy i body client now) :
    FastPath (heartbeatPatch s i body (heartbeatUsage s i body client now) now) policy i body
      client now where
  notSuperseded := by simpa using h.notSuperseded
  noOutage hc := by simpa using h.noOutage (by simpa using hc)
  clockRuns hc hs := by simpa using h.clockRuns (by simpa using hc) (by simpa using hs)
  sampled hc := by
    rw [noSamplesObservationDue_heartbeatPatch]
    exact h.sampled (by simpa using hc)
  notExpired hs := by simpa using h.notExpired (by simpa using hs)
  notTimedOut _ := by
    have hpos : 0 ≤ policy.connection.heartbeatTimeoutSec.secMs := by
      have := policy.connection.heartbeatTimeoutSec.secMs_bounds
      omega
    have hlast : ∀ u, (heartbeatPatch s i body u now).lastHeartbeatAt = some now := fun u => by
      unfold heartbeatPatch; split <;> rfl
    simp [reportingTimedOut, hlast, hpos]
  noSignal := (heartbeatUsage_heartbeatPatch h.noSignal).1

theorem policy_patch (usage : Option UsageVerdict) :
    ({ m with session := heartbeatPatch m.session i body usage now } : SessionMutation).policy =
      m.policy := by
  simp [SessionMutation.policy, effectivePolicy]

theorem requiredCheckFor_heartbeatPatch (usage : Option UsageVerdict) :
    requiredCheckFor (heartbeatPatch s i body usage now) i = requiredCheckFor s i := by
  unfold heartbeatPatch; split <;> rfl

/-! ## What the two paths answer -/

theorem deliverCommands_of_none {sel : SessionCommand → Bool} {limit : Nat}
    {rows : List SessionCommand} (h : ∀ c ∈ rows, (c.deliveredAt.isNone && sel c) = false) :
    deliverCommands now sel limit rows = (rows, []) := by
  induction rows generalizing limit with
  | nil => cases limit <;> rfl
  | cons c rows ih =>
    cases limit with
    | zero => rfl
    | succ limit =>
      rw [deliverCommands, h c List.mem_cons_self, if_neg Bool.false_ne_true,
        ih fun c' hc' => h c' (List.mem_cons_of_mem _ hc')]

theorem answerHeartbeat_quiet
    (hcmd : ∀ c ∈ m.commands, c.pendingFor i = false)
    (hsam : controlsLive m.session i = true →
      noSamplesObservationDue m.session m.policy.identity body m.now = false) :
    answerHeartbeat m i body =
      (m,
        { serverTime := m.now
          status := m.session.status
          remainingMs := remainingMs m.session m.now
          timerRunning := m.session.runningSince.isSome
          requiredCheck := requiredCheckFor m.session i
          commands := []
          identitySample :=
            if controlsLive m.session i then
              identitySampleRequest m.session.status m.session.identityState m.policy.identity m.now
            else none }) := by
  rw [answerHeartbeat, SessionMutation.deliver, deliverCommands_of_none hcmd]
  dsimp only
  rw [if_neg fun h => by rw [hsam h.1] at h; exact Bool.noConfusion h.2]

/-- **The fast heartbeat refines the locked one.**  The request loaded the row under its effective
policy.  Whatever the fast path answers, the locked heartbeat on the same row at the same time
answers too, and leaves the same session; and where the fast path gives no answer, whether or not
its update was committed, the locked heartbeat on what it leaves is the locked heartbeat on what it
found. -/
theorem fastHeartbeat_refines (m : SessionMutation) (loaded : LoadedSession) (i : InstanceId)
    (body : HeartbeatRequest) (client : Option ClientAddress)
    (hload : loaded.session = m.session → loaded.policy = some m.policy) :
    (∀ m' response, fastHeartbeat m loaded i body client = (m', some response) →
      lockedHeartbeat m i body client = .ok (m', response)) ∧
    (∀ m', fastHeartbeat m loaded i body client = (m', none) →
      lockedHeartbeat m' i body client = lockedHeartbeat m i body client) := by
  cases hn : needsLockedHeartbeat loaded.session (loaded.policy.getD DEFAULT_POLICY) i body client
      m.now with
  | true =>
    simp only [fastHeartbeat, hn, if_true]
    exact ⟨fun _ _ h => by simp at h, fun m' h => by cases h; rfl⟩
  | false =>
    by_cases hs : loaded.session = m.session
    · rw [hs, hload hs, getD_some] at hn
      have hfast := FastPath.of_guards hn
      simp only [fastHeartbeat, hs, hload hs, getD_some, hn, Bool.false_eq_true, if_false,
        ne_eq, not_true_eq_false]
      split
      next hcmd =>
        refine ⟨fun _ _ h => by simp at h, fun m' h => ?_⟩
        cases h
        have hagain : FastPath (heartbeatPatch m.session i body
            (heartbeatUsage m.session i body client m.now) m.now) m.policy i body client m.now :=
          hfast.patch
        rw [lockedHeartbeat_eq_patch hfast, lockedHeartbeat_eq_patch]
        · rw [heartbeatPatch_patch (heartbeatUsage_heartbeatPatch hfast.noSignal).2]
        · rwa [policy_patch]
      next hcmd =>
        refine ⟨fun m' r h => ?_, fun _ h => by simp at h⟩
        cases h
        rw [lockedHeartbeat_eq_patch hfast, answerHeartbeat_quiet, policy_patch]
        · simp [remainingMs, requiredCheckFor_heartbeatPatch]
        · simpa using hcmd
        · intro hc
          rw [policy_patch, noSamplesObservationDue_heartbeatPatch]
          exact hfast.sampled (by simpa using hc)
    · simp only [fastHeartbeat, hn, Bool.false_eq_true, if_false, ne_eq, hs, not_false_eq_true,
        if_true]
      exact ⟨fun _ _ h => by simp at h, fun m' h => by cases h; rfl⟩

/-- A heartbeat six seconds into an exam takes the fast path, and is the locked heartbeat. -/
theorem fastHeartbeat_refines_started :
    let m : SessionMutation := { startedExam {} with now := 10000 }
    let fast := fastHeartbeat m ⟨m.session, some m.policy⟩ ⟨1⟩ { seq := 1 } none
    (fast.2.map (·.remainingMs) = some 54000 ∧
      ∀ m' r, fast = (m', some r) → lockedHeartbeat m ⟨1⟩ { seq := 1 } none = .ok (m', r)) ∧
      ∀ m', fast = (m', none) →
        lockedHeartbeat m' ⟨1⟩ { seq := 1 } none = lockedHeartbeat m ⟨1⟩ { seq := 1 } none :=
  have h := fastHeartbeat_refines { startedExam {} with now := 10000 } _ ⟨1⟩ { seq := 1 } none
    fun _ => rfl
  ⟨⟨by decide, h.1⟩, h.2⟩

end SmartProctoring
