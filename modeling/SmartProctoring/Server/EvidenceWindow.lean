import SmartProctoring.Server.Accumulator

/-!
# The window of evidence

What holds of the accumulator over any sequence of samples: its window is sorted, bounded and
recent, and the confirmed state is reached and left only as it may be (`evidence_invariant`).  A
late sample removes later evidence in three ways: through the bound on the window's size, because
that evidence was itself added beyond the maximum age, or because the window is emptied when the
evidence is settled.
-/

set_option autoImplicit false

namespace SmartProctoring

open List Option

/-- The bucket of a sample that counts. -/
def SampleObservation.usableBucket (obs : SampleObservation) : Option QualityBucket :=
  if obs.evidence.usable then obs.evidence.bucket else none

variable {prev acc : EvidenceAccumulator} {obs : SampleObservation} {bucket : QualityBucket}

/-! ## Times -/

theorem le_latest {instants : List (Option Int)} {t : Int} (h : some t ∈ instants) :
    ∃ k, latest instants = some k ∧ t ≤ k := by
  have ht : t ∈ instants.reduceOption := reduceOption_mem_iff.2 h
  rw [latest]
  cases hmax : instants.reduceOption.max? with
  | none =>
    rw [List.max?_eq_none_iff.1 hmax] at ht
    cases ht
  | some k => exact ⟨k, rfl, (List.max?_eq_some_iff.1 hmax).2 t ht⟩

theorem latest_mem {instants : List (Option Int)} {t : Int} (h : latest instants = some t) :
    some t ∈ instants :=
  reduceOption_mem_iff.1 (List.max?_eq_some_iff.1 h).1

namespace EvidenceAccumulator

variable {e : EvidenceEntry}

theorem le_newest (h : e ∈ prev.window) :
    ∃ t, prev.newest = some t ∧ e.atMs ≤ t :=
  le_latest (mem_map_of_mem h)

theorem newest_mem {t : Int} (h : prev.newest = some t) : ∃ e ∈ prev.window, e.atMs = t := by
  obtain ⟨e, he, heq⟩ := mem_map.1 (latest_mem h)
  exact ⟨e, he, some.inj heq⟩

theorem inOrder_iff : prev.inOrder obs = true ↔ ∀ e ∈ prev.window, e.atMs < obs.atMs := by
  rw [inOrder]
  constructor
  · intro h e he
    obtain ⟨t, ht, hle⟩ := le_newest he
    rw [ht] at h
    have hlt : t < obs.atMs := of_decide_eq_true h
    omega
  · intro h
    cases ht : prev.newest with
    | none => rfl
    | some t =>
      obtain ⟨e, he, rfl⟩ := newest_mem ht
      exact decide_eq_true (h e he)

theorem le_latestWith : obs.atMs ≤ prev.latestWith obs := by
  rw [latestWith]
  cases latest [prev.lastSampleAt, prev.newest] with
  | none => exact le_refl _
  | some t => exact le_max_left _ _

theorem le_latestWith_of_latest {t : Int} (h : some t ∈ [prev.lastSampleAt, prev.newest]) :
    t ≤ prev.latestWith obs := by
  obtain ⟨k, hk, hle⟩ := le_latest h
  rw [latestWith, hk]
  exact hle.trans (le_max_right _ _)

theorem window_le_latestWith (h : e ∈ prev.window) :
    e.atMs ≤ prev.latestWith obs := by
  obtain ⟨t, ht, hle⟩ := le_newest h
  exact hle.trans (le_latestWith_of_latest (by simp [ht]))

/-- The sample, as it enters the window. -/
def entry (prev : EvidenceAccumulator) (obs : SampleObservation) (bucket : QualityBucket) :
    EvidenceEntry :=
  ⟨obs.id, obs.atMs, prev.contribution obs, bucket, obs.trigger⟩

/-- The sample is older than something in the window. -/
def Late (prev : EvidenceAccumulator) (obs : SampleObservation) : Prop :=
  ∃ e ∈ prev.window, obs.atMs < e.atMs

theorem Late.not_inOrder (h : prev.Late obs) : prev.inOrder obs = false := by
  obtain ⟨e, he, hlt⟩ := h
  rw [← Bool.not_eq_true, inOrder_iff]
  intro hall
  have hgt := hall e he
  omega

/-! ## The window -/

/-- What the window holds before its size is bounded. -/
def sortedWith (prev : EvidenceAccumulator) (obs : SampleObservation) (bucket : QualityBucket) :
    List EvidenceEntry :=
  let window := prev.recent obs
  let window := if prev.discontinuity obs then window.filter fun e => decide (0 < e.llr) else window
  if prev.inOrder obs then window ++ [prev.entry obs bucket]
  else (window ++ [prev.entry obs bucket]).insertionSort fun a b => a.atMs ≤ b.atMs

theorem windowWith_eq : prev.windowWith obs bucket =
    (prev.sortedWith obs bucket).drop
      ((prev.sortedWith obs bucket).length - CALIBRATION.sprtMaxSamples) := rfl

theorem mem_sortedWith (h : e ∈ prev.sortedWith obs bucket) :
    e ∈ prev.recent obs ∨ e = prev.entry obs bucket := by
  have hkept : ∀ e, (e ∈ if prev.discontinuity obs then
      (prev.recent obs).filter fun e => decide (0 < e.llr) else prev.recent obs) →
      e ∈ prev.recent obs := by
    intro e he
    split at he
    · exact (mem_filter.1 he).1
    · exact he
  rw [sortedWith] at h
  split at h
  · rw [mem_append, mem_singleton] at h
    exact h.imp_left (hkept e)
  · rw [mem_insertionSort, mem_append, mem_singleton] at h
    exact h.imp_left (hkept e)

theorem mem_sortedWith_of_late (hlate : prev.Late obs)
    (h : e ∈ prev.recent obs) : e ∈ prev.sortedWith obs bucket := by
  have hdisc : prev.discontinuity obs = false := by
    rw [discontinuity, hlate.not_inOrder, Bool.and_false]
  rw [sortedWith, hdisc, hlate.not_inOrder]
  exact (mem_insertionSort _).2 (mem_append_left _ h)

theorem pairwise_sortedWith (h : prev.window.Pairwise fun a b => a.atMs ≤ b.atMs) :
    (prev.sortedWith obs bucket).Pairwise fun a b => a.atMs ≤ b.atMs := by
  have hkept := prev.kept_sublist obs
  rw [sortedWith]
  split
  next horder =>
    refine pairwise_append.2 ⟨h.sublist hkept, pairwise_singleton _ _, fun a ha b hb => ?_⟩
    rw [mem_singleton.1 hb]
    exact (inOrder_iff.1 horder a (hkept.subset ha)).le
  next =>
    exact pairwise_insertionSort _ _

theorem length_windowWith : (prev.windowWith obs bucket).length ≤ CALIBRATION.sprtMaxSamples := by
  rw [windowWith_eq, length_drop]
  omega

theorem mem_windowWith_iff (h : e ∈ prev.windowWith obs bucket) :
    e ∈ prev.recent obs ∨ e = prev.entry obs bucket :=
  mem_sortedWith (mem_of_mem_drop h)

theorem mem_windowWith_or (hsorted : prev.window.Pairwise fun a b => a.atMs ≤ b.atMs)
    (h : e ∈ prev.sortedWith obs bucket) :
    e ∈ prev.windowWith obs bucket ∨
      (prev.windowWith obs bucket).length = CALIBRATION.sprtMaxSamples ∧
        ∀ e' ∈ prev.windowWith obs bucket, e.atMs ≤ e'.atMs := by
  have hpair := @pairwise_sortedWith prev obs bucket hsorted
  rw [windowWith_eq]
  generalize prev.sortedWith obs bucket = l at h hpair ⊢
  rw [← take_append_drop (l.length - CALIBRATION.sprtMaxSamples) l] at h hpair
  rw [mem_append] at h
  refine h.symm.imp id fun htake => ?_
  have hlong : l.length - CALIBRATION.sprtMaxSamples ≠ 0 := by
    intro hzero
    rw [hzero] at htake
    cases htake
  refine ⟨?_, fun e' he' => (pairwise_append.1 hpair).2.2 e htake e' he'⟩
  rw [length_drop]
  omega

end EvidenceAccumulator

open EvidenceAccumulator

/-! ## One sample -/

theorem accumulate_unusable (h : obs.usableBucket = none) :
    (accumulate prev obs).acc = { prev with
      lastSampleAt := some (prev.latestWith obs)
      window := prev.recent obs
      unusableStreak := prev.unusableStreak + 1 } := by
  rw [accumulate.eq_def]
  split
  next hu hb => simp [SampleObservation.usableBucket, hu, hb] at h
  next => rfl

theorem accumulate_confirmed (h : obs.usableBucket = some bucket)
    (hs : prev.state = .confirmedMismatch) :
    (accumulate prev obs).acc =
        (judgeConfirmed (prev.added obs bucket) (prev.contribution obs)).1 ∧
      (accumulate prev obs).transition =
        (judgeConfirmed (prev.added obs bucket) (prev.contribution obs)).2 := by
  rw [accumulate.eq_def]
  split
  next b hu hb =>
    simp only [SampleObservation.usableBucket, hu, hb, if_true, some.injEq] at h
    rw [if_pos hs, h]
    exact ⟨rfl, rfl⟩
  next hno =>
    rw [SampleObservation.usableBucket] at h
    split at h
    next hu => exact absurd h (hno _ hu)
    next => cases h

theorem accumulate_judged (h : obs.usableBucket = some bucket)
    (hs : prev.state ≠ .confirmedMismatch) :
    (accumulate prev obs).acc =
        (judgeWindow (prev.added obs bucket) prev.state obs.atMs (prev.contribution obs)
          (windowSum (prev.windowWith obs bucket))).1 := by
  rw [accumulate.eq_def]
  split
  next b hu hb =>
    simp only [SampleObservation.usableBucket, hu, hb, if_true, some.injEq] at h
    rw [if_neg hs, h]
    rfl
  next hno =>
    rw [SampleObservation.usableBucket] at h
    split at h
    next hu => exact absurd h (hno _ hu)
    next => cases h

theorem judgeWindow_spec (acc : EvidenceAccumulator) (prevState : EvidenceStateName) (atMs : Int)
    (contribution sum : ℚ) :
    let r := (judgeWindow acc prevState atMs contribution sum).1
    r.lastSampleAt = acc.lastSampleAt ∧
      (r.window = acc.window ∨ r.window = [] ∧ sum ≤ CALIBRATION.sprtClear) ∧
      (r.state = .confirmedMismatch →
        CALIBRATION.sprtConfirm ≤ sum ∧ r.clearStreak = 0 ∧ r.window = acc.window) := by
  unfold judgeWindow
  split_ifs <;> simp_all

theorem judgeConfirmed_spec (acc : EvidenceAccumulator) (contribution : ℚ) :
    let r := judgeConfirmed acc contribution
    r.1.lastSampleAt = acc.lastSampleAt ∧
      (r.1.window = acc.window ∧ r.1.state = acc.state ∧ r.1.clearStreak < 2 ∧
          r.1.clearStreak = (if contribution ≤ CLEAR_MATCH_LLR then acc.clearStreak + 1 else 0) ∨
        r.1.window = [] ∧ r.2 = .recovered ∧ r.1.state = .consistent ∧
          contribution ≤ CLEAR_MATCH_LLR ∧ 1 ≤ acc.clearStreak) := by
  intro r
  have hr : r = judgeConfirmed acc contribution := rfl
  rw [judgeConfirmed] at hr
  generalize hstreak : (if contribution ≤ CLEAR_MATCH_LLR then acc.clearStreak + 1 else 0) = streak
    at hr ⊢
  split at hr
  next hclose =>
    rw [EVIDENCE.closeAfterClearSamples] at hclose
    rw [hr]
    refine ⟨rfl, .inr ⟨rfl, rfl, rfl, ?_, ?_⟩⟩
    · by_contra hclear
      rw [if_neg hclear] at hstreak
      omega
    · split at hstreak <;> omega
  next hopen =>
    rw [EVIDENCE.closeAfterClearSamples] at hopen
    rw [hr]
    refine ⟨rfl, .inl ⟨rfl, rfl, ?_, rfl⟩⟩
    show streak < 2
    omega

/-- Why the window is emptied: the evidence is settled for the candidate, or a confirmed mismatch
ends. -/
def SettlesEvidence (prev : EvidenceAccumulator) (obs : SampleObservation) : Prop :=
  (accumulate prev obs).transition = .recovered ∨
    ∃ bucket, obs.usableBucket = some bucket ∧ prev.state ≠ .confirmedMismatch ∧
      windowSum (prev.windowWith obs bucket) ≤ CALIBRATION.sprtClear

theorem window_accumulate (prev : EvidenceAccumulator) (obs : SampleObservation) :
    (accumulate prev obs).acc.lastSampleAt = some (prev.latestWith obs) ∧
      (obs.usableBucket = none ∧ (accumulate prev obs).acc.window = prev.recent obs ∨
        (∃ bucket, obs.usableBucket = some bucket ∧
          (accumulate prev obs).acc.window = prev.windowWith obs bucket) ∨
        (accumulate prev obs).acc.window = [] ∧ SettlesEvidence prev obs) := by
  cases hb : obs.usableBucket with
  | none =>
    rw [accumulate_unusable hb]
    exact ⟨rfl, .inl ⟨rfl, rfl⟩⟩
  | some bucket =>
    by_cases hs : prev.state = .confirmedMismatch
    · obtain ⟨hacc, htransition⟩ := @accumulate_confirmed prev obs bucket hb hs
      obtain ⟨hlast, hwindow⟩ := judgeConfirmed_spec (prev.added obs bucket) (prev.contribution obs)
      rw [hacc]
      refine ⟨hlast, .inr ?_⟩
      obtain ⟨hw, -⟩ | ⟨hw, hrec, -⟩ := hwindow
      · exact .inl ⟨bucket, rfl, hw⟩
      · exact .inr ⟨hw, .inl (htransition.trans hrec)⟩
    · have hacc := @accumulate_judged prev obs bucket hb hs
      obtain ⟨hlast, hwindow, -⟩ := judgeWindow_spec (prev.added obs bucket) prev.state obs.atMs
        (prev.contribution obs) (windowSum (prev.windowWith obs bucket))
      rw [hacc]
      refine ⟨hlast, .inr ?_⟩
      obtain hw | ⟨hw, hclear⟩ := hwindow
      · exact .inl ⟨bucket, rfl, hw⟩
      · exact .inr ⟨hw, .inr ⟨bucket, hb, hs, hclear⟩⟩

/-! ## The window over a run -/

/-- The window is sorted and bounded, and nothing in it is newer than the newest sample seen. -/
structure WindowOk (acc : EvidenceAccumulator) : Prop where
  sorted : acc.window.Pairwise fun a b => a.atMs ≤ b.atMs
  size : acc.window.length ≤ CALIBRATION.sprtMaxSamples
  seen : ∀ e ∈ acc.window, ∃ t, acc.lastSampleAt = some t ∧ e.atMs ≤ t

theorem mem_window_cases {e : EvidenceEntry} (h : e ∈ (accumulate prev obs).acc.window) :
    e ∈ prev.recent obs ∨ ∃ bucket, obs.usableBucket = some bucket ∧ e = prev.entry obs bucket := by
  obtain ⟨-, ⟨-, hw⟩ | ⟨bucket, hb, hw⟩ | ⟨hw, -⟩⟩ := window_accumulate prev obs
  · exact .inl (hw ▸ h)
  · exact (mem_windowWith_iff (hw ▸ h)).imp_right fun he => ⟨bucket, hb, he⟩
  · rw [hw] at h
    cases h

theorem WindowOk.step (h : WindowOk prev) (obs : SampleObservation) :
    WindowOk (accumulate prev obs).acc := by
  have hrecent : (prev.recent obs).Sublist prev.window := filter_sublist
  obtain ⟨hlast, hwindow⟩ := window_accumulate prev obs
  refine ⟨?_, ?_, fun e he => ⟨_, hlast, ?_⟩⟩
  · obtain ⟨-, hw⟩ | ⟨bucket, -, hw⟩ | ⟨hw, -⟩ := hwindow
    · rw [hw]
      exact h.sorted.sublist hrecent
    · rw [hw]
      exact (pairwise_sortedWith h.sorted).sublist (drop_sublist _ _)
    · rw [hw]
      exact .nil
  · obtain ⟨-, hw⟩ | ⟨bucket, -, hw⟩ | ⟨hw, -⟩ := hwindow
    · rw [hw]
      exact hrecent.length_le.trans h.size
    · rw [hw]
      exact length_windowWith
    · rw [hw]
      exact Nat.zero_le _
  · obtain he | ⟨bucket, -, rfl⟩ := mem_window_cases he
    · exact window_le_latestWith (hrecent.subset he)
    · exact le_latestWith

theorem windowOk_reachable (h : evidenceMachine.Reachable acc) : WindowOk acc := by
  refine h.invariant (I := WindowOk) ?_ fun acc obs _ _ ih => ih.step obs
  rintro _ rfl
  exact ⟨.nil, Nat.zero_le _, forall_mem_nil _⟩

/-- An entry within the maximum age of the newest sample seen. -/
def Recent (acc : EvidenceAccumulator) (e : EvidenceEntry) : Prop :=
  ∃ t, acc.lastSampleAt = some t ∧ t - e.atMs ≤ EVIDENCE.maxAgeMs

/-- The entry that a sample added late: it was older than the newest sample seen. -/
def AddedLate (prev : EvidenceAccumulator) (obs : SampleObservation) (e : EvidenceEntry) : Prop :=
  obs.atMs < prev.latestWith obs ∧ ∃ bucket, obs.usableBucket = some bucket ∧
  e = prev.entry obs bucket

theorem recent_or_addedLate {e : EvidenceEntry} (h : e ∈ (accumulate prev obs).acc.window) :
    Recent (accumulate prev obs).acc e ∨ AddedLate prev obs e := by
  have hlast := (window_accumulate prev obs).1
  obtain he | ⟨bucket, hb, rfl⟩ := mem_window_cases h
  · exact .inl ⟨_, hlast, of_decide_eq_true (mem_filter.1 he).2⟩
  · obtain heq | hlt := (@le_latestWith prev obs).eq_or_lt
    · refine .inl ⟨_, hlast, ?_⟩
      show prev.latestWith obs - obs.atMs ≤ 10 * 60000
      omega
    · exact .inr ⟨hlt, bucket, hb, rfl⟩

/-! ## A late sample -/

/-- How a sample may remove evidence of later samples: through the bound on the size, because it was
beyond the maximum age when it was added, or because the evidence is settled. -/
inductive Removes (prev : EvidenceAccumulator) (obs : SampleObservation) (g : EvidenceEntry) : Prop
  | size (hlen : (accumulate prev obs).acc.window.length = CALIBRATION.sprtMaxSamples)
      (hold : ∀ e ∈ (accumulate prev obs).acc.window, g.atMs ≤ e.atMs)
  | expired (h : ¬ Recent prev g)
  | settled (hw : (accumulate prev obs).acc.window = []) (h : SettlesEvidence prev obs)

theorem late_removes (h : WindowOk prev) (hlate : prev.Late obs) {g : EvidenceEntry}
    (hg : g ∈ prev.window) : g ∈ (accumulate prev obs).acc.window ∨ Removes prev obs g := by
  by_cases hrecent : g ∈ prev.recent obs
  · obtain ⟨-, ⟨-, hw⟩ | ⟨bucket, -, hw⟩ | ⟨hw, hset⟩⟩ := window_accumulate prev obs
    · exact .inl (hw ▸ hrecent)
    · rw [hw]
      obtain hin | ⟨hlen, hold⟩ := @mem_windowWith_or prev obs bucket _ h.sorted
        (mem_sortedWith_of_late hlate hrecent)
      · exact .inl hin
      · exact .inr (.size (hw ▸ hlen) (hw ▸ hold))
    · exact .inr (.settled hw hset)
  · refine .inr (.expired ?_)
    rintro ⟨t, ht, hage⟩
    refine hrecent (mem_filter.2 ⟨hg, decide_eq_true ?_⟩)
    -- a late sample is not the newest seen
    obtain ⟨e, he, hlt⟩ := hlate
    obtain ⟨t', ht', hle⟩ := h.seen e he
    obtain rfl : t = t' := some.inj (ht.symm.trans ht')
    have hlatest : prev.latestWith obs ≤ t := by
      rw [latestWith]
      cases hk : latest [prev.lastSampleAt, prev.newest] with
      | none =>
        show obs.atMs ≤ t
        omega
      | some k =>
        have hmem := latest_mem hk
        rw [mem_cons, mem_singleton] at hmem
        have hkt : k ≤ t := by
          obtain hk' | hk' := hmem
          · rw [ht] at hk'
            exact (some.inj hk').le
          · obtain ⟨e', he', rfl⟩ := newest_mem hk'.symm
            obtain ⟨t'', ht'', hle'⟩ := h.seen e' he'
            rw [ht] at ht''
            exact some.inj ht'' ▸ hle'
        show max obs.atMs k ≤ t
        omega
    omega

/-! ## Sums -/

theorem llrOf_filter_le (r p q : EvidenceEntry → Bool) (window : List EvidenceEntry)
    (hpq : ∀ e ∈ window, p e = true → q e = true)
    (hpos : ∀ e ∈ window, q e = true → p e = false → 0 ≤ e.llr) :
    llrOf r (window.filter p) ≤ llrOf r (window.filter q) := by
  induction window with
  | nil => exact le_refl _
  | cons e w ih =>
    have ih := ih (fun e he => hpq e (mem_cons_of_mem _ he))
      fun e he => hpos e (mem_cons_of_mem _ he)
    have hcons : ∀ s : EvidenceEntry → Bool, s e = true → llrOf r ((e :: w).filter s) =
        (if r e then e.llr else 0) + llrOf r (w.filter s) := by
      intro s hs
      rw [filter_cons_of_pos hs]
      by_cases hr : r e = true <;> simp [llrOf, hr]
    have hskip : ∀ s : EvidenceEntry → Bool, s e = false → llrOf r ((e :: w).filter s) =
        llrOf r (w.filter s) := by
      intro s hs
      rw [filter_cons_of_neg (by simp [hs])]
    cases hp : p e with
    | true =>
      rw [hcons p hp, hcons q (hpq e mem_cons_self hp)]
      exact add_le_add_right ih _
    | false =>
      rw [hskip p hp]
      cases hq : q e with
      | false =>
        rw [hskip q hq]
        exact ih
      | true =>
        have hllr := hpos e mem_cons_self hq hp
        rw [hcons q hq]
        refine le_add_of_nonneg_of_le ?_ ih
        split
        · exact hllr
        · exact le_refl _

theorem round4_mono {v w : ℚ} (h : v ≤ w) : round4 v ≤ round4 w := by
  have hfloor : ⌊v * 10000 + 1 / 2⌋ ≤ ⌊w * 10000 + 1 / 2⌋ := Int.floor_le_floor (by linarith)
  have hcast : (⌊v * 10000 + 1 / 2⌋ : ℚ) ≤ ⌊w * 10000 + 1 / 2⌋ := Int.cast_le.2 hfloor
  rw [round4, round4]
  linarith

theorem windowSum_filter_le (p q : EvidenceEntry → Bool) (window : List EvidenceEntry)
    (hpq : ∀ e ∈ window, p e = true → q e = true)
    (hpos : ∀ e ∈ window, q e = true → p e = false → 0 ≤ e.llr) :
    windowSum (window.filter p) ≤ windowSum (window.filter q) := by
  refine round4_mono ?_
  rw [windowEvidence_eq, windowEvidence_eq]
  have hlook := llrOf_filter_le EvidenceEntry.look p q window hpq hpos
  have hgenuine := llrOf_filter_le EvidenceEntry.genuine p q window hpq hpos
  have hpoor := llrOf_filter_le EvidenceEntry.poorPositive p q window hpq hpos
  have hmin := min_le_min_left CALIBRATION.sprtMaxPoorEvidence hpoor
  linarith

/-- The window without the genuine evidence that has expired. -/
def withoutExpiredGenuine (prev : EvidenceAccumulator) (obs : SampleObservation) :
    List EvidenceEntry :=
  prev.window.filter fun e =>
    decide (prev.latestWith obs - e.atMs ≤ EVIDENCE.maxAgeMs) || !e.genuine

theorem unusable_sum_le (h : obs.usableBucket = none) :
    windowSum (accumulate prev obs).acc.window ≤ windowSum (withoutExpiredGenuine prev obs) := by
  rw [accumulate_unusable h]
  refine windowSum_filter_le _ _ _ (fun e _ hp => ?_) fun e _ hq hp => ?_
  · exact Bool.or_eq_true_iff.2 (.inl hp)
  · have hgenuine : (!e.genuine) = true := by
      rw [Bool.or_eq_true, hp] at hq
      exact hq.resolve_left nofun
    have hllr : ¬ e.llr ≤ 0 := by simpa [EvidenceEntry.genuine] using hgenuine
    linarith

/-! ## How a mismatch is confirmed -/

variable {samples : List SampleObservation}

theorem evidence_run {P : SampleObservation → Prop} {I : EvidenceAccumulator → Prop} (h0 : I {})
    (hstep : ∀ acc obs, evidenceMachine.Reachable acc → P obs → I acc → I (accumulate acc obs).acc)
    (h : ∀ obs ∈ samples, P obs) :
    I (evidenceMachine.run {} samples) ∧
      evidenceMachine.Reachable (evidenceMachine.run {} samples) := by
  induction samples using reverseRecOn with
  | nil => exact ⟨h0, .init rfl⟩
  | append_singleton samples obs ih =>
    obtain ⟨hI, hr⟩ := ih fun o ho => h o (mem_append_left _ ho)
    rw [Machine.run_append]
    exact ⟨hstep _ obs hr (h obs (mem_append_right _ (mem_singleton_self _))) hI,
      hr.step obs trivial⟩

theorem accumulate_confirms (hs : prev.state ≠ .confirmedMismatch)
    (h : (accumulate prev obs).acc.state = .confirmedMismatch) :
    ∃ bucket, obs.usableBucket = some bucket ∧
      CALIBRATION.sprtConfirm ≤ windowSum (accumulate prev obs).acc.window ∧
      (accumulate prev obs).acc.clearStreak = 0 := by
  cases hb : obs.usableBucket with
  | none =>
    rw [accumulate_unusable hb] at h
    exact absurd h hs
  | some bucket =>
    have hacc := accumulate_judged hb hs
    rw [hacc] at h ⊢
    obtain ⟨hsum, hstreak, hw⟩ := (judgeWindow_spec (prev.added obs bucket) prev.state obs.atMs
      (prev.contribution obs) (windowSum (prev.windowWith obs bucket))).2.2 h
    rw [hw]
    exact ⟨bucket, rfl, hsum, hstreak⟩

theorem windowSum_window (h : evidenceMachine.Reachable acc) :
    windowSum acc.window = windowEvidence acc.window :=
  round4_of_quantised (.windowEvidence (quantised_reachable h))

theorem poor_never_confirms
    (h : ∀ obs ∈ samples, ∀ bucket, obs.usableBucket = some bucket → bucket = .poor) :
    (evidenceMachine.run {} samples).state ≠ .confirmedMismatch := by
  refine (evidence_run (I := fun acc => acc.state ≠ .confirmedMismatch ∧
    ∀ e ∈ acc.window, e.bucket = .poor) ⟨nofun, forall_mem_nil _⟩
    (fun acc obs hr hpoor hacc => ?_) h).1.1
  have hwindow : ∀ e ∈ (accumulate acc obs).acc.window, e.bucket = .poor := by
    intro e he
    obtain he | ⟨bucket, hb, rfl⟩ := mem_window_cases he
    · exact hacc.2 e (mem_filter.1 he).1
    · exact hpoor bucket hb
  refine ⟨fun hconfirmed => ?_, hwindow⟩
  obtain ⟨-, -, hsum, -⟩ := accumulate_confirms hacc.1 hconfirmed
  have hnext : evidenceMachine.Reachable (accumulate acc obs).acc := hr.step obs trivial
  rw [windowSum_window hnext, windowEvidence_eq] at hsum
  have hnolook : (accumulate acc obs).acc.window.filter EvidenceEntry.look = [] := by
    refine filter_eq_nil_iff.2 fun e he => ?_
    simp [EvidenceEntry.look, hwindow e he]
  have hcap := windowSum_of_no_look hnolook
  have hseven : CALIBRATION.sprtConfirm = 7 := rfl
  have hfour : CALIBRATION.sprtMaxPoorEvidence = 4 := rfl
  rw [hfour] at hsum
  linarith

/-- Evidence for a different person. -/
def EvidenceEntry.positive (e : EvidenceEntry) : Bool := decide (0 < e.llr)

theorem windowEvidence_le_positive (window : List EvidenceEntry) :
    windowEvidence window ≤ llrOf EvidenceEntry.positive window := by
  have hsplit : llrOf EvidenceEntry.look window + llrOf EvidenceEntry.poorPositive window =
      llrOf EvidenceEntry.positive window := by
    induction window with
    | nil => simp [llrOf]
    | cons e w ih =>
      by_cases hpoor : e.bucket = .poor <;> by_cases hpos : 0 < e.llr <;>
        simp only [llrOf, EvidenceEntry.look, EvidenceEntry.poorPositive, EvidenceEntry.positive,
          filter_cons, hpoor, hpos] at ih ⊢ <;> simp at ih ⊢ <;> linarith
  have hgenuine := llrOf_genuine_nonpos window
  have hmin := min_le_right CALIBRATION.sprtMaxPoorEvidence
    (llrOf EvidenceEntry.poorPositive window)
  rw [windowEvidence_eq]
  linarith

/-- The evidence of one frame is clamped. -/
def Clamped (obs : SampleObservation) : Prop := |obs.evidence.llr| ≤ CALIBRATION.llrClamp

theorem contribution_le (h : Clamped obs) : prev.contribution obs ≤ 25 / 4 := by
  have hfixed : round4 (25 / 4) = 25 / 4 := round4_of_quantised ⟨62500, by norm_num⟩
  have hllr : obs.evidence.llr ≤ 5 := (le_abs_self _).trans h
  rw [← hfixed]
  refine round4_mono ?_
  split
  · rw [EVIDENCE.discontinuityWeight]
    linarith
  · linarith

theorem confirmed_has_two (h : ∀ o ∈ samples, Clamped o) (hobs : Clamped obs)
    (hs : (evidenceMachine.run {} samples).state ≠ .confirmedMismatch)
    (hconfirmed : (accumulate (evidenceMachine.run {} samples) obs).acc.state = .confirmedMismatch) :
    2 ≤ ((accumulate (evidenceMachine.run {} samples) obs).acc.window.filter
      EvidenceEntry.positive).length := by
  have hbound : ∀ acc obs, Clamped obs → (∀ e ∈ acc.window, e.llr ≤ 25 / 4) →
      ∀ e ∈ (accumulate acc obs).acc.window, e.llr ≤ 25 / 4 := by
    intro acc obs hobs hacc e he
    obtain he | he := mem_window_accumulate he
    · exact hacc e he
    · rw [he]
      exact contribution_le hobs
  obtain ⟨hprev, hr⟩ := evidence_run (I := fun acc => ∀ e ∈ acc.window, e.llr ≤ 25 / 4)
    (forall_mem_nil _) (fun acc obs _ ho hacc => hbound acc obs ho hacc) h
  have hwindow := hbound _ obs hobs hprev
  obtain ⟨-, -, hsum, -⟩ := accumulate_confirms hs hconfirmed
  have hnext : evidenceMachine.Reachable
    (accumulate (evidenceMachine.run {} samples) obs).acc := hr.step obs trivial
  rw [windowSum_window hnext] at hsum
  have hpositive := hsum.trans (windowEvidence_le_positive _)
  have hseven : CALIBRATION.sprtConfirm = 7 := rfl
  rw [hseven, llrOf] at hpositive
  rcases hfilter : (accumulate (evidenceMachine.run {} samples) obs).acc.window.filter
    EvidenceEntry.positive with _ | ⟨e, _ | ⟨e', rest⟩⟩
  · rw [hfilter] at hpositive
    norm_num at hpositive
  · have he : e ∈ (accumulate (evidenceMachine.run {} samples) obs).acc.window :=
      (mem_filter.1 (hfilter ▸ mem_singleton_self e)).1
    have hle := hwindow e he
    rw [hfilter, map_singleton, sum_singleton] at hpositive
    linarith
  · simp

/-! ## How a confirmed mismatch ends -/

/-- A usable sample at or below the clear-match level. -/
def ClearMatch (prev : EvidenceAccumulator) (obs : SampleObservation) : Prop :=
  obs.usableBucket ≠ none ∧ prev.contribution obs ≤ CLEAR_MATCH_LLR

/-- The last usable sample was a clear match, and the mismatch was confirmed before it. -/
def AfterClearMatch (samples : List SampleObservation) : Prop :=
  ∃ before first skipped, samples = before ++ first :: skipped ∧
    (evidenceMachine.run {} before).state = .confirmedMismatch ∧
    ClearMatch (evidenceMachine.run {} before) first ∧ ∀ obs ∈ skipped, obs.usableBucket = none

theorem clearStreak_run (samples : List SampleObservation)
    (h : (evidenceMachine.run {} samples).state = .confirmedMismatch) :
    (evidenceMachine.run {} samples).clearStreak < 2 ∧
      ((evidenceMachine.run {} samples).clearStreak = 1 → AfterClearMatch samples) := by
  induction samples using reverseRecOn with
  | nil => cases h
  | append_singleton samples obs ih =>
    rw [Machine.run_append] at h ⊢
    change (accumulate (evidenceMachine.run {} samples) obs).acc.state = _ at h
    change (accumulate (evidenceMachine.run {} samples) obs).acc.clearStreak < 2 ∧
      ((accumulate (evidenceMachine.run {} samples) obs).acc.clearStreak = 1 → _)
    by_cases hs : (evidenceMachine.run {} samples).state = .confirmedMismatch
    · obtain ⟨hlt, hafter⟩ := ih hs
      cases hb : obs.usableBucket with
      | none =>
        rw [accumulate_unusable hb]
        refine ⟨hlt, fun hone => ?_⟩
        obtain ⟨before, first, skipped, rfl, hc, hclear, hskipped⟩ := hafter hone
        refine ⟨before, first, skipped ++ [obs], by simp, hc, hclear, fun o ho => ?_⟩
        obtain ho | rfl := mem_snoc.1 ho
        · exact hskipped o ho
        · exact hb
      | some bucket =>
        have hacc := (accumulate_confirmed hb hs).1
        rw [hacc] at h ⊢
        obtain ⟨-, ⟨-, -, hlt', hstreak⟩ | ⟨-, -, hended, -⟩⟩ := judgeConfirmed_spec
          ((evidenceMachine.run {} samples).added obs bucket)
          ((evidenceMachine.run {} samples).contribution obs)
        · refine ⟨hlt', fun hone => ⟨samples, obs, [], rfl, hs, ⟨by rw [hb]; exact nofun, ?_⟩,
            forall_mem_nil _⟩⟩
          by_contra hclear
          rw [hstreak, if_neg hclear] at hone
          omega
        · rw [hended] at h
          cases h
    · obtain ⟨-, -, -, hzero⟩ := accumulate_confirms hs h
      exact ⟨by omega, by omega⟩

theorem confirmed_left (samples : List SampleObservation)
    (hs : (evidenceMachine.run {} samples).state = .confirmedMismatch)
    (h : (accumulate (evidenceMachine.run {} samples) obs).acc.state ≠ .confirmedMismatch) :
    AfterClearMatch samples ∧ ClearMatch (evidenceMachine.run {} samples) obs := by
  obtain ⟨hlt, hafter⟩ := clearStreak_run samples hs
  cases hb : obs.usableBucket with
  | none =>
    rw [accumulate_unusable hb] at h
    exact absurd hs h
  | some bucket =>
    rw [(accumulate_confirmed hb hs).1] at h
    obtain ⟨-, ⟨-, hsame, -⟩ | ⟨-, -, -, hclear, hone⟩⟩ := judgeConfirmed_spec
      ((evidenceMachine.run {} samples).added obs bucket)
      ((evidenceMachine.run {} samples).contribution obs)
    · exact absurd (hsame.trans hs) h
    · have hstreak : 1 ≤ (evidenceMachine.run {} samples).clearStreak := hone
      exact ⟨hafter (by omega), by rw [hb]; exact nofun, hclear⟩

/-! ## The invariant -/

/-- **The evidence accumulator**, after any samples and one more. -/
theorem evidence_invariant (samples : List SampleObservation) (obs : SampleObservation) :
    let prev := evidenceMachine.run {} samples
    let next := (accumulate prev obs).acc
    (next.window.Pairwise (fun a b => a.atMs ≤ b.atMs) ∧
        next.window.length ≤ CALIBRATION.sprtMaxSamples ∧
        ∀ e ∈ next.window, Recent next e ∨ AddedLate prev obs e) ∧
      (prev.Late obs → ∀ g ∈ prev.window, g.genuine = true → obs.atMs < g.atMs →
        g ∈ next.window ∨ Removes prev obs g) ∧
      (obs.usableBucket = none → next.state = prev.state ∧
        windowSum next.window ≤ windowSum (withoutExpiredGenuine prev obs)) ∧
      ((∀ o ∈ samples ++ [obs], ∀ bucket, o.usableBucket = some bucket → bucket = .poor) →
        next.state ≠ .confirmedMismatch) ∧
      ((∀ o ∈ samples ++ [obs], Clamped o) → prev.state ≠ .confirmedMismatch →
        next.state = .confirmedMismatch →
        2 ≤ (next.window.filter EvidenceEntry.positive).length) ∧
      (prev.state = .confirmedMismatch → next.state ≠ .confirmedMismatch →
        AfterClearMatch samples ∧ ClearMatch prev obs) := by
  intro prev next
  have hreach : evidenceMachine.Reachable prev :=
    (evidence_run (P := fun _ => True) (I := fun _ => True) trivial (fun _ _ _ _ _ => trivial)
      fun _ _ => trivial).2
  have hprev := windowOk_reachable hreach
  have hnext := hprev.step obs
  refine ⟨⟨hnext.sorted, hnext.size, fun e he => recent_or_addedLate he⟩, ?_, ?_, ?_, ?_, ?_⟩
  · exact fun hlate g hg _ _ => late_removes hprev hlate hg
  · intro hb
    refine ⟨?_, unusable_sum_le hb⟩
    show (accumulate prev obs).acc.state = _
    rw [accumulate_unusable hb]
  · intro hpoor
    have hrun := poor_never_confirms hpoor
    rwa [Machine.run_append] at hrun
  · intro hclamped hs hconfirmed
    refine confirmed_has_two (fun o ho => hclamped o (mem_append_left _ ho)) ?_ hs hconfirmed
    exact hclamped obs (mem_append_right _ (mem_singleton_self _))
  · exact fun hs h => confirmed_left samples hs h

/-- Two clear matches, the second delivered late: it settles the evidence, and the window of one
sample is emptied, far from its bound. -/
theorem late_match_empties :
    ¬ ∀ (samples : List SampleObservation) (obs : SampleObservation),
      let prev := evidenceMachine.run {} samples
      let next := (accumulate prev obs).acc
      prev.Late obs → ∀ g ∈ prev.window, g.genuine = true → obs.atMs < g.atMs →
        g ∈ next.window ∨ CALIBRATION.sprtMaxSamples ≤ prev.window.length := by
  intro h
  have hremoved := h [⟨⟨1⟩, 10000, .periodic, ⟨true, some .good, -4⟩⟩]
    ⟨⟨2⟩, 5000, .periodic, ⟨true, some .good, -4⟩⟩
    ⟨⟨⟨1⟩, 10000, -4, .good, .periodic⟩, by decide +kernel, by decide⟩
    ⟨⟨1⟩, 10000, -4, .good, .periodic⟩ (by decide +kernel) (by decide +kernel) (by decide)
  revert hremoved
  decide +kernel

end SmartProctoring
