import SmartProctoring.Lib.Backoff
import SmartProctoring.Lib.Run

/-!
# The login throttle

`services/login-throttle.ts`: failed sign-ins of one address in one scope.  An attempt is charged,
before the password is checked, by one conditional upsert of the address's row; it is refused while
the row is locked.  A successful login deletes the row, so a run from no row is what happens between
two of them.

The delay is written twice, for the insert in TypeScript (`lockDelayMs`) and for the update in SQL
(`sqlLockedUntil`).
-/

set_option autoImplicit false

namespace SmartProctoring

open Option

def LOGIN_FAILURE_WINDOW_MS : Int := 15 * 60000
def LOGIN_FREE_FAILURES : Nat := 4
def LOGIN_LOCK_AFTER_FAILURES : Nat := LOGIN_FREE_FAILURES + 1
def LOGIN_BASE_DELAY_MS : Int := 30000
def LOGIN_MAX_DELAY_MS : Int := 15 * 60000

/-- Rows untouched for this long are deleted by the cleanup job. -/
def LOGIN_THROTTLE_RETENTION_MS : Int := 24 * 3600 * 1000

/-- Lock duration after the n-th consecutive failure (0 = no lock). -/
def lockDelayMs (failures : Nat) : Int :=
  if failures < LOGIN_LOCK_AFTER_FAILURES then 0
  else
    min LOGIN_MAX_DELAY_MS
      (LOGIN_BASE_DELAY_MS * 2 ^ min 30 (failures - LOGIN_LOCK_AFTER_FAILURES))

/-- A row of `login_throttle`. -/
structure LoginThrottle where
  failures : Nat
  lastFailureAt : Int
  lockedUntil : Option Int
  deriving DecidableEq

inductive LoginAdmission
  | admitted (failures : Nat) (lockedUntil : Option Int)
  | refused (retryAfterMs : Int)
  deriving DecidableEq

/-- `next` of the update: 1 after a quiet window, else one failure more. -/
def nextFailures (row : LoginThrottle) (now : Int) : Nat :=
  if row.lastFailureAt < now - LOGIN_FAILURE_WINDOW_MS then 1 else row.failures + 1

/-- `lockedUntil` of the update, in seconds as the statement has it. -/
def sqlLockedUntil (next : Nat) (now : Int) : Option Int :=
  let exp := min (30 : Int) (max 0 ((next : Int) - LOGIN_LOCK_AFTER_FAILURES))
  if LOGIN_LOCK_AFTER_FAILURES ≤ next then
    some (now + 1000 * min (LOGIN_MAX_DELAY_MS / 1000) (LOGIN_BASE_DELAY_MS / 1000 * 2 ^ exp.toNat))
  else none

/-- Charge one attempt: the address's row afterwards, and the answer. -/
def admitLoginAttempt (row : Option LoginThrottle) (now : Int) :
    Option LoginThrottle × LoginAdmission :=
  match row with
  | none =>
    let lockedUntil := if lockDelayMs 1 ≠ 0 then some (now + lockDelayMs 1) else none
    (some { failures := 1, lastFailureAt := now, lockedUntil }, .admitted 1 lockedUntil)
  | some r =>
    if r.lockedUntil.all fun until' => decide (until' ≤ now) then
      let next := nextFailures r now
      let lockedUntil := sqlLockedUntil next now
      (some { failures := next, lastFailureAt := now, lockedUntil }, .admitted next lockedUntil)
    else
      -- the row that refused is read again for the answer
      (some r, .refused (max 1000 (r.lockedUntil.getD (now + 1000) - now)))

/-- `purgeStaleLoginThrottles`, for the address's row. -/
def purgeStaleLoginThrottles (row : Option LoginThrottle) (now : Int) : Option LoginThrottle :=
  row.filter fun r =>
    !(decide (r.lastFailureAt < now - LOGIN_THROTTLE_RETENTION_MS) &&
      r.lockedUntil.all fun until' => decide (until' < now))

/-- One address in one scope.  `admitted` is no column: it lists the attempts that were admitted. -/
structure Guessing where
  now : Int
  row : Option LoginThrottle := none
  admitted : List Backoff.Attempt := []

inductive GuessingInput
  | attempt (now : Int)
  | purge (now : Int)
  deriving DecidableEq

namespace GuessingInput

def now : GuessingInput → Int
  | attempt now => now
  | purge now => now

end GuessingInput

def guessingStep : GuessingInput → Guessing → Guessing
  | .attempt now, s =>
    let (row, admission) := admitLoginAttempt s.row now
    match admission with
    | .admitted failures _ => { now, row, admitted := s.admitted ++ [⟨now, failures⟩] }
    | .refused _ => { s with now, row }
  | .purge now, s => { s with now, row := purgeStaleLoginThrottles s.row now }

/-- Attempts and clean-ups at non-decreasing server times, with no successful login between. -/
def guessing : Machine Guessing GuessingInput where
  init s := s.row = none ∧ s.admitted = []
  step := guessingStep
  enabled i s := s.now ≤ i.now

instance (i : GuessingInput) (s : Guessing) : Decidable (guessing.enabled i s) :=
  inferInstanceAs (Decidable (s.now ≤ i.now))

/-! ## The delay -/

/-- Where the lock ends after an attempt. -/
def lockEnd (failures : Nat) (now : Int) : Option Int :=
  if lockDelayMs failures = 0 then none else some (now + lockDelayMs failures)

theorem lockDelayMs_pos {failures : Nat} (h : LOGIN_LOCK_AFTER_FAILURES ≤ failures) :
    0 < lockDelayMs failures := by
  have hpow : (0 : Int) < 2 ^ min 30 (failures - LOGIN_LOCK_AFTER_FAILURES) := by positivity
  rw [lockDelayMs, LOGIN_MAX_DELAY_MS, LOGIN_BASE_DELAY_MS]
  omega

theorem lockDelayMs_nonneg (failures : Nat) : 0 ≤ lockDelayMs failures := by
  by_cases h : LOGIN_LOCK_AFTER_FAILURES ≤ failures
  · exact (lockDelayMs_pos h).le
  · rw [lockDelayMs, if_pos (by omega)]

theorem sqlLockedUntil_eq (next : Nat) (now : Int) :
    sqlLockedUntil next now = lockEnd next now := by
  rw [sqlLockedUntil, lockEnd]
  by_cases h : LOGIN_LOCK_AFTER_FAILURES ≤ next
  · have hpos := lockDelayMs_pos h
    rw [if_pos h, if_neg (by omega), lockDelayMs]
    have hexp : (min (30 : Int) (max 0 ((next : Int) - LOGIN_LOCK_AFTER_FAILURES))).toNat =
        min 30 (next - LOGIN_LOCK_AFTER_FAILURES) := by omega
    rw [hexp, LOGIN_MAX_DELAY_MS, LOGIN_BASE_DELAY_MS]
    congr 1
    omega
  · rw [if_neg h]
    rw [lockDelayMs, if_pos (by omega)]

theorem lockDelayMs_mono : Monotone lockDelayMs := by
  intro n n' h
  by_cases hn : n < LOGIN_LOCK_AFTER_FAILURES
  · rw [lockDelayMs, if_pos hn]
    exact lockDelayMs_nonneg n'
  · rw [lockDelayMs, lockDelayMs, if_neg (by omega)]
    have hpow : (2 : Int) ^ min 30 (n - LOGIN_LOCK_AFTER_FAILURES) ≤
        2 ^ min 30 (n' - LOGIN_LOCK_AFTER_FAILURES) :=
      pow_le_pow_right₀ (by norm_num) (by omega)
    rw [LOGIN_BASE_DELAY_MS]
    omega

theorem window_lt_delays :
    LOGIN_FAILURE_WINDOW_MS < Backoff.delaySum lockDelayMs 1 9 := by decide

/-! ## The invariant -/

/-- The attempts keep their distance, and the row is that of the last one, or was cleaned up long
after it. -/
structure ThrottleOk (s : Guessing) : Prop where
  chain : List.IsChain (Backoff.Follows lockDelayMs LOGIN_FAILURE_WINDOW_MS) s.admitted
  counts : ∀ a ∈ s.admitted, 1 ≤ a.count
  row : ∀ r, s.row = some r → s.admitted.getLast? = some ⟨r.lastFailureAt, r.failures⟩ ∧
    r.lockedUntil = lockEnd r.failures r.lastFailureAt
  past : ∀ a, s.admitted.getLast? = some a → a.time ≤ s.now
  cleaned : s.row = none → ∀ a, s.admitted.getLast? = some a →
    a.time + LOGIN_FAILURE_WINDOW_MS < s.now

theorem admit_cases (row : Option LoginThrottle) (now : Int) :
    (∃ failures, admitLoginAttempt row now =
        (some ⟨failures, now, lockEnd failures now⟩, .admitted failures (lockEnd failures now)) ∧
      (row = none ∧ failures = 1 ∨ ∃ r, row = some r ∧
        (∀ until', r.lockedUntil = some until' → until' ≤ now) ∧ failures = nextFailures r now)) ∨
    ∃ retry, admitLoginAttempt row now = (row, .refused retry) := by
  cases row with
  | none => exact .inl ⟨1, rfl, .inl ⟨rfl, rfl⟩⟩
  | some r =>
    rw [admitLoginAttempt]
    dsimp only
    split
    next h =>
      refine .inl ⟨nextFailures r now, ?_, .inr ⟨r, rfl, fun until' hu => ?_, rfl⟩⟩
      · rw [sqlLockedUntil_eq]
      · rw [hu] at h
        exact of_decide_eq_true h
    next => exact .inr ⟨_, rfl⟩

theorem guessingStep_attempt (s : Guessing) (now : Int) :
    (∃ failures, (admitLoginAttempt s.row now).2 = .admitted failures (lockEnd failures now) ∧
      guessingStep (.attempt now) s =
        { now, row := some ⟨failures, now, lockEnd failures now⟩,
          admitted := s.admitted ++ [⟨now, failures⟩] } ∧
      (s.row = none ∧ failures = 1 ∨ ∃ r, s.row = some r ∧
        (∀ until', r.lockedUntil = some until' → until' ≤ now) ∧ failures = nextFailures r now)) ∨
    ∃ retry, (admitLoginAttempt s.row now).2 = .refused retry ∧
      guessingStep (.attempt now) s = { s with now } := by
  rw [guessingStep]
  obtain ⟨failures, hallow, hrow⟩ | ⟨retry, hrefuse⟩ := admit_cases s.row now
  · rw [hallow]
    exact .inl ⟨failures, rfl, rfl, hrow⟩
  · rw [hrefuse]
    exact .inr ⟨retry, rfl, rfl⟩

variable {s : Guessing} {now : Int}

theorem throttleOk_append (h : ThrottleOk s) {failures : Nat} (hcount : 1 ≤ failures)
    (hfollows : ∀ a, s.admitted.getLast? = some a →
      Backoff.Follows lockDelayMs LOGIN_FAILURE_WINDOW_MS a ⟨now, failures⟩) :
    ThrottleOk { now, row := some ⟨failures, now, lockEnd failures now⟩,
                 admitted := s.admitted ++ [⟨now, failures⟩] } := by
  refine ⟨?_, fun a ha => ?_, fun r hr => ?_, fun a ha => ?_, nofun⟩
  · refine List.isChain_append.2 ⟨h.chain, List.isChain_singleton _, fun a ha b hb => ?_⟩
    obtain rfl : (⟨now, failures⟩ : Backoff.Attempt) = b := some.inj hb
    exact hfollows a ha
  · obtain ha | rfl := List.mem_snoc.1 ha
    · exact h.counts a ha
    · exact hcount
  · obtain rfl := some.inj hr
    exact ⟨List.getLast?_concat, rfl⟩
  · rw [List.getLast?_concat] at ha
    obtain rfl := some.inj ha
    exact le_refl _

theorem throttleOk_attempt (h : ThrottleOk s) (hnow : s.now ≤ now) :
    ThrottleOk (guessingStep (.attempt now) s) := by
  obtain ⟨failures, -, hstep, hrow⟩ | ⟨retry, -, hstep⟩ := guessingStep_attempt s now
  · rw [hstep]
    obtain ⟨hnone, rfl⟩ | ⟨r, hr, hunlocked, rfl⟩ := hrow
    · refine throttleOk_append h (le_refl 1) fun a ha => .inr ⟨rfl, ?_⟩
      have hrest := h.cleaned hnone a ha
      show a.time + LOGIN_FAILURE_WINDOW_MS < now
      omega
    · obtain ⟨hlast, hlock⟩ := h.row r hr
      rw [nextFailures]
      split
      next hquiet =>
        refine throttleOk_append h (le_refl 1) fun a ha => .inr ⟨rfl, ?_⟩
        obtain rfl := some.inj (hlast.symm.trans ha)
        show r.lastFailureAt + LOGIN_FAILURE_WINDOW_MS < now
        omega
      next =>
        refine throttleOk_append h (Nat.le_add_left 1 _) fun a ha => .inl ?_
        obtain rfl := some.inj (hlast.symm.trans ha)
        refine ⟨rfl, ?_⟩
        have hpast := h.past _ hlast
        rw [lockEnd] at hlock
        split at hlock
        next hfree =>
          rw [hfree, add_zero]
          exact hpast.trans hnow
        next => exact hunlocked _ hlock
  · rw [hstep]
    refine ⟨h.chain, h.counts, h.row, fun a ha => (h.past a ha).trans hnow, fun hnone a ha => ?_⟩
    exact (h.cleaned hnone a ha).trans_le hnow

theorem throttleOk_purge (h : ThrottleOk s) (hnow : s.now ≤ now) :
    ThrottleOk (guessingStep (.purge now) s) := by
  refine ⟨h.chain, h.counts, fun r hr => h.row r (filter_eq_some_iff.1 hr).1,
    fun a ha => (h.past a ha).trans hnow, fun hnone a ha => ?_⟩
  change purgeStaleLoginThrottles s.row now = none at hnone
  cases hrow : s.row with
  | none => exact (h.cleaned hrow a ha).trans_le hnow
  | some r =>
    have hlast := (h.row r hrow).1
    obtain rfl := some.inj (hlast.symm.trans ha)
    rw [hrow, purgeStaleLoginThrottles, filter_eq_none_iff] at hnone
    have hstale := hnone r rfl
    rw [Bool.not_eq_true', Bool.not_eq_false, Bool.and_eq_true, decide_eq_true_eq] at hstale
    have hold : r.lastFailureAt < now - 24 * 3600 * 1000 := hstale.1
    show r.lastFailureAt + 15 * 60000 < now
    omega

theorem throttleOk_reachable (h : guessing.Reachable s) : ThrottleOk s := by
  refine h.invariant (I := ThrottleOk) (fun s hs => ?_) fun s i _ hi ih => ?_
  · obtain ⟨hrow, haccepted⟩ := hs
    refine ⟨?_, ?_, ?_, ?_, ?_⟩
    · rw [haccepted]
      exact .nil
    · rw [haccepted]
      exact List.forall_mem_nil _
    · rw [hrow]
      exact nofun
    · rw [haccepted]
      exact nofun
    · rw [haccepted]
      exact nofun
  · cases i with
    | attempt now => exact throttleOk_attempt ih hi
    | purge now => exact throttleOk_purge ih hi

theorem lockDelayMs_le (failures : Nat) : lockDelayMs failures ≤ LOGIN_FAILURE_WINDOW_MS := by
  rw [lockDelayMs, LOGIN_FAILURE_WINDOW_MS]
  split
  · decide
  · exact min_le_left _ _

theorem lockEnd_all_le {failures : Nat} {last t : Int} (h : last + lockDelayMs failures ≤ t) :
    (lockEnd failures last).all (fun until' => decide (until' ≤ t)) = true := by
  rw [lockEnd]
  split
  · rfl
  · exact decide_eq_true h

/-- **Nobody is locked out for good.**  What is refused is an attempt during the lock of the last
admitted one; it is told how long to wait, and an attempt after that is admitted.  After a window
without admitted attempts the next one is admitted and counts as the first. -/
theorem lock_ends {s : Guessing} (h : guessing.Reachable s) (now : Int) :
    (∀ retry, (admitLoginAttempt s.row now).2 = .refused retry →
      (∃ a, s.admitted.getLast? = some a ∧ now < a.time + lockDelayMs a.count ∧
        retry = max 1000 (a.time + lockDelayMs a.count - now)) ∧
      ∀ later, now + retry ≤ later → ∀ r, (admitLoginAttempt s.row later).2 ≠ .refused r) ∧
    ∀ a, s.admitted.getLast? = some a → a.time + LOGIN_FAILURE_WINDOW_MS < now →
      (admitLoginAttempt s.row now).2 = .admitted 1 none := by
  have hok := throttleOk_reachable h
  cases hrow : s.row with
  | none => exact ⟨nofun, fun _ _ _ => rfl⟩
  | some r =>
    obtain ⟨hlast, hlock⟩ := hok.row r hrow
    have hunlocked : ∀ t, r.lastFailureAt + lockDelayMs r.failures ≤ t →
        r.lockedUntil.all (fun until' => decide (until' ≤ t)) = true := by
      intro t ht
      rw [hlock]
      exact lockEnd_all_le ht
    constructor
    · intro retry hretry
      rw [admitLoginAttempt] at hretry
      dsimp only at hretry
      split at hretry
      · cases hretry
      next hlocked =>
        have hnow : now < r.lastFailureAt + lockDelayMs r.failures := by
          by_contra hle
          exact hlocked (hunlocked now (not_lt.1 hle))
        have hdelay : lockDelayMs r.failures ≠ 0 := by
          intro hzero
          rw [hlock, lockEnd, if_pos hzero] at hlocked
          exact hlocked rfl
        rw [hlock, lockEnd, if_neg hdelay] at hretry
        injection hretry with hretry
        rw [getD_some] at hretry
        refine ⟨⟨_, hlast, hnow, hretry.symm⟩, fun later hlater r' => ?_⟩
        rw [admitLoginAttempt, if_pos (hunlocked later (by omega))]
        exact nofun
    · intro a ha hquiet
      obtain rfl := some.inj (hlast.symm.trans ha)
      have hmax := lockDelayMs_le r.failures
      rw [admitLoginAttempt, if_pos (hunlocked now (by dsimp only at hquiet; omega)), nextFailures,
        if_pos (by dsimp only at hquiet; omega)]
      rfl

theorem lock_ends_burst :
    let s := guessing.run { now := 0 } (List.replicate 6 (.attempt 1000))
    (admitLoginAttempt s.row 31000).2 ≠ .refused 1000 ∧
      (admitLoginAttempt s.row 901001).2 = .admitted 1 none := by
  have hinit : guessing.init { now := 0 } := ⟨rfl, rfl⟩
  have hreach := (Machine.Reachable.init hinit).run
    (by decide : guessing.Admits { now := 0 } (List.replicate 6 (.attempt 1000)))
  constructor
  · exact ((lock_ends hreach 1000).1 30000 (by decide)).2 31000 le_rfl 1000
  · exact (lock_ends hreach 901001).2 ⟨1000, 5⟩ rfl (by decide)

/-- **Password guessing is bounded.**  At most nine attempts are admitted in any window of 15
minutes; a refused attempt changes nothing; and an admitted one stores its count and the lock's
end. -/
theorem guessing_bounded {s : Guessing} (h : guessing.Reachable s) :
    (∀ start, (s.admitted.filter fun a =>
      decide (start ≤ a.time ∧ a.time ≤ start + LOGIN_FAILURE_WINDOW_MS)).length ≤ 9) ∧
    ∀ now, s.now ≤ now →
      (∃ failures, (admitLoginAttempt s.row now).2 = .admitted failures (lockEnd failures now) ∧
        guessingStep (.attempt now) s =
          { now, row := some ⟨failures, now, lockEnd failures now⟩,
            admitted := s.admitted ++ [⟨now, failures⟩] }) ∨
      ∃ retry, (admitLoginAttempt s.row now).2 = .refused retry ∧
        guessingStep (.attempt now) s = { s with now } := by
  have hok := throttleOk_reachable h
  refine ⟨fun start => ?_, fun now _ => ?_⟩
  · exact Backoff.length_window_le lockDelayMs_nonneg lockDelayMs_mono (by decide) hok.chain
      hok.counts window_lt_delays start
  · refine (guessingStep_attempt s now).imp ?_ id
    rintro ⟨failures, hallow, hstep, -⟩
    exact ⟨failures, hallow, hstep⟩

/-- Ten attempts at once: five are admitted, and the others refused until the lock of the fifth
ends. -/
theorem guessing_bounded_burst :
    let s := guessing.run { now := 0 } (List.replicate 10 (.attempt 1000))
    s.admitted.length = 5 ∧ s.row = some ⟨5, 1000, some 31000⟩ ∧
      (s.admitted.filter fun a => decide (0 ≤ a.time ∧ a.time ≤ 0 + LOGIN_FAILURE_WINDOW_MS)).length ≤
        9 := by
  refine ⟨by decide, by decide, ?_⟩
  have hinit : guessing.init { now := 0 } := ⟨rfl, rfl⟩
  exact (guessing_bounded ((Machine.Reachable.init hinit).run
    (by decide : guessing.Admits { now := 0 } (List.replicate 10 (.attempt 1000))))).1 0

end SmartProctoring
