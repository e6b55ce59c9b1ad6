import Mathlib.Tactic.Positivity
import SmartProctoring.Detection.Attention
import SmartProctoring.Lib.Run

/-!
# How far learning goes

What holds of the attention model after any calls (`Inv`): its limits are bounded, and a sample in
its rings was admitted by the rule of its ring, which is about the tick that it was taken on
(`Origin`).

Each sample is admitted relative to a region that earlier ones moved, and the baseline may move in
small steps.  So what the samples have to do with the current camera and baseline, and with them the
centre of the screen (`Kept`), is lost on three occasions: a baseline is set that is near the last
one but not near the one that a sample is of, a first camera is named after samples were taken, and
typing or calm reading is learned far from the baseline.  It is kept by every run without these
(`Steady`).
-/

set_option autoImplicit false

namespace SmartProctoring

open List

namespace Attention

/-! ## Numbers -/

theorem le_clamp {v lo hi : ℚ} (h : lo ≤ hi) : lo ≤ clamp v lo hi := by
  rw [clamp]
  split
  · exact le_rfl
  · split
    · exact h
    · linarith

theorem clamp_le {v lo hi : ℚ} (h : lo ≤ hi) : clamp v lo hi ≤ hi := by
  rw [clamp]
  split
  · exact h
  · split
    · exact le_rfl
    · linarith

variable {lo hi : ℚ}

theorem quantile_bounds {l : List ℚ} (hne : l ≠ []) (h : ∀ x ∈ l, lo ≤ x ∧ x ≤ hi) (q : ℚ) :
    lo ≤ quantile l q ∧ quantile l q ≤ hi := by
  have hlen : 0 < l.length := length_pos_iff.mpr hne
  have hlast : (0 : ℚ) ≤ l.length - 1 := by
    have : (1 : ℚ) ≤ l.length := by exact_mod_cast hlen
    linarith
  have hget : ∀ i : ℤ, i ≤ l.length - 1 → lo ≤ l.getD i.toNat 0 ∧ l.getD i.toNat 0 ≤ hi := by
    intro i hi'
    have hlt : i.toNat < l.length := by omega
    rw [getD_eq_getElem?_getD, getElem?_eq_getElem hlt]
    exact h _ (getElem_mem hlt)
  rw [quantile]
  have hnonneg : 0 ≤ clamp (q * (l.length - 1)) 0 (l.length - 1) := le_clamp hlast
  have hle : clamp (q * (l.length - 1)) 0 (l.length - 1) ≤ l.length - 1 := clamp_le hlast
  generalize clamp (q * (l.length - 1)) 0 (l.length - 1) = idx at hnonneg hle
  have hle' : idx ≤ ((l.length - 1 : ℤ) : ℚ) := by exact_mod_cast hle
  obtain ⟨hlo, hlo'⟩ := hget ⌊idx⌋ (by exact_mod_cast (Int.floor_le idx).trans hle')
  obtain ⟨hhi, hhi'⟩ := hget ⌈idx⌉ (Int.ceil_le.mpr hle')
  have hfract : 0 ≤ idx - ⌊idx⌋ ∧ idx - ⌊idx⌋ ≤ 1 :=
    ⟨by linarith [Int.floor_le idx], by linarith [Int.lt_floor_add_one idx]⟩
  constructor <;> nlinarith

theorem sortedOf_bounds {l : List ℚ} (hne : l ≠ []) (h : ∀ x ∈ l, lo ≤ x ∧ x ≤ hi) (q : ℚ) :
    lo ≤ quantile (sortedOf l) q ∧ quantile (sortedOf l) q ≤ hi := by
  have hperm : (sortedOf l).Perm l := perm_insertionSort _ _
  refine quantile_bounds (fun hnil => hne ?_) (fun x hx => h x (hperm.mem_iff.mp hx)) q
  rw [hnil] at hperm
  exact hperm.symm.eq_nil

theorem mix_near {a b w r : ℚ} (hw : 0 ≤ w) (hw' : w ≤ 1)
    (h : |b - a| ≤ r) : |a + w * (b - a) - a| ≤ r := by
  have heq : a + w * (b - a) - a = w * (b - a) := by ring
  rw [heq, abs_mul, abs_of_nonneg hw]
  calc w * |b - a| ≤ 1 * |b - a| := mul_le_mul_of_nonneg_right hw' (abs_nonneg _)
    _ ≤ r := by linarith

/-! ## Limits -/

/-- No limit is below the policy's threshold, or far above it. -/
structure LimitsWithin (p : AttentionParams) (policy : AttentionPolicy)
    (l : AttentionLimits) : Prop where
  left : policy.lookAwayYawDeg ≤ l.left ∧
    l.left ≤ max policy.lookAwayYawDeg (p.maxExtent.side + p.marginDeg) + p.coldExtra.side
  right : policy.lookAwayYawDeg ≤ l.right ∧
    l.right ≤ max policy.lookAwayYawDeg (p.maxExtent.side + p.marginDeg) + p.coldExtra.side
  up : policy.lookUpPitchDeg ≤ l.up ∧
    l.up ≤ max policy.lookUpPitchDeg (p.maxExtent.up + p.marginDeg) + p.coldExtra.up
  down : policy.lookDownPitchDeg ≤ l.down ∧
    l.down ≤ max policy.lookDownPitchDeg (p.maxExtent.down + p.marginDeg) + p.coldExtra.down

structure ExtentWithin (p : AttentionParams) (e : AttentionLimits) : Prop where
  left : e.left ≤ p.maxExtent.side
  right : e.right ≤ p.maxExtent.side
  up : e.up ≤ p.maxExtent.up
  down : e.down ≤ p.maxExtent.down

/-- Parameters that fit together. -/
structure AttentionParams.Ordered (p : AttentionParams) : Prop where
  side : 0 ≤ p.minExtent.side ∧ p.minExtent.side ≤ p.maxExtent.side
  up : 0 ≤ p.minExtent.up ∧ p.minExtent.up ≤ p.maxExtent.up
  down : 0 ≤ p.minExtent.down ∧ p.minExtent.down ≤ p.maxExtent.down
  coldExtra : 0 ≤ p.coldExtra.side ∧ 0 ≤ p.coldExtra.up ∧ 0 ≤ p.coldExtra.down
  warmSamples : 0 < p.warmSamples

theorem attention_ordered : ATTENTION.Ordered := by
  constructor <;> norm_num [ATTENTION]

theorem limit_within {pol ext hi margin cold extra : ℚ} (hext : ext ≤ hi) (hcold : 0 ≤ cold)
    (hcold' : cold ≤ 1) (hextra : 0 ≤ extra) :
    pol ≤ max pol (ext + margin) + cold * extra ∧
      max pol (ext + margin) + cold * extra ≤ max pol (hi + margin) + extra := by
  have hmax : max pol (ext + margin) ≤ max pol (hi + margin) := max_le_max le_rfl (by linarith)
  have hpos : 0 ≤ cold * extra := mul_nonneg hcold hextra
  have hle : cold * extra ≤ extra := by
    calc cold * extra ≤ 1 * extra := mul_le_mul_of_nonneg_right hcold' hextra
      _ = extra := one_mul extra
  exact ⟨by linarith [le_max_left pol (ext + margin)], by linarith⟩

namespace AttentionModel

variable {p : AttentionParams} {policy : AttentionPolicy} {m : AttentionModel}

theorem warmthOf_bounds (hp : p.Ordered) (m : AttentionModel) :
    0 ≤ m.warmthOf p ∧ m.warmthOf p ≤ 1 := by
  refine ⟨le_min zero_le_one ?_, min_le_left ..⟩
  exact div_nonneg (Nat.cast_nonneg _) hp.warmSamples.le

theorem policyLimits_within (hp : p.Ordered) (policy : AttentionPolicy) :
    LimitsWithin p policy (policyLimits policy) := by
  obtain ⟨hs, hu, hd⟩ := hp.coldExtra
  constructor
  · exact ⟨le_rfl, by linarith [le_max_left policy.lookAwayYawDeg (p.maxExtent.side + p.marginDeg), hs,
      show (policyLimits policy).left = policy.lookAwayYawDeg from rfl]⟩
  · exact ⟨le_rfl, by linarith [le_max_left policy.lookAwayYawDeg (p.maxExtent.side + p.marginDeg), hs,
      show (policyLimits policy).right = policy.lookAwayYawDeg from rfl]⟩
  · exact ⟨le_rfl, by linarith [le_max_left policy.lookUpPitchDeg (p.maxExtent.up + p.marginDeg), hu,
      show (policyLimits policy).up = policy.lookUpPitchDeg from rfl]⟩
  · exact ⟨le_rfl, by linarith [le_max_left policy.lookDownPitchDeg (p.maxExtent.down + p.marginDeg), hd,
      show (policyLimits policy).down = policy.lookDownPitchDeg from rfl]⟩

theorem minExtents_within (hp : p.Ordered) : ExtentWithin p (minExtents p) :=
  ⟨hp.side.2, hp.side.2, hp.up.2, hp.down.2⟩

theorem extents_within (hp : p.Ordered) (policy : AttentionPolicy) (m : AttentionModel) :
    ExtentWithin p (m.extents p policy) := by
  rw [extents]
  split
  · exact ⟨clamp_le hp.side.2, clamp_le hp.side.2, clamp_le hp.up.2, clamp_le hp.down.2⟩
  · exact minExtents_within hp

/-- What a rebuild leaves as it is. -/
structure SameSamples (m m' : AttentionModel) : Prop where
  prior : m'.prior = m.prior
  cameraId : m'.cameraId = m.cameraId
  pointer : m'.pointer = m.pointer
  typed : m'.typed = m.typed
  calm : m'.calm = m.calm
  keyboard : m'.keyboard = m.keyboard
  kbPending : m'.kbPending = m.kbPending

namespace SameSamples

variable {m₁ m₂ m₃ : AttentionModel}

theorem refl (m : AttentionModel) : SameSamples m m := by constructor <;> rfl

theorem trans (h : SameSamples m₁ m₂) (h' : SameSamples m₂ m₃) : SameSamples m₁ m₃ :=
  ⟨h'.prior.trans h.prior, h'.cameraId.trans h.cameraId, h'.pointer.trans h.pointer,
    h'.typed.trans h.typed,
    h'.calm.trans h.calm, h'.keyboard.trans h.keyboard, h'.kbPending.trans h.kbPending⟩

end SameSamples

theorem recentre_same (m : AttentionModel) : SameSamples m (m.recentre p) := by
  rw [recentre]
  split
  · constructor <;> rfl
  · constructor <;> rfl

theorem relimit_same (m : AttentionModel) : SameSamples m (m.relimit p policy) :=
  by constructor <;> rfl

theorem recone_same (m : AttentionModel) : SameSamples m (m.recone p) := by
  rw [recone]
  split
  · constructor <;> rfl
  · constructor <;> rfl

/-- What a rebuild does: the limits are in their bounds again, and the centre is as near to the
baseline as the samples of the screen are. -/
structure Rebuilt (p : AttentionParams) (policy : AttentionPolicy)
    (m m' : AttentionModel) : Prop where
  same : SameSamples m m'
  limits : LimitsWithin p policy m'.lim
  extent : ExtentWithin p m'.extent
  yaw : ∀ r, 0 ≤ r → (∀ x ∈ m.screen, |x.face.yaw - m.prior.yaw| ≤ r) →
    |m'.centre.yaw - m.prior.yaw| ≤ r
  pitch : ∀ r, 0 ≤ r → (∀ x ∈ m.screen, |x.face.pitch - m.prior.pitch| ≤ r) →
    |m'.centre.pitch - m.prior.pitch| ≤ r
  force : m'.force = false

theorem column_near {f : FaceObservation → ℚ} {a r : ℚ} (hne : m.screen ≠ [])
    (h : ∀ x ∈ m.screen, |f x.face - a| ≤ r) (q : ℚ) : |quantile (m.column f) q - a| ≤ r := by
  have hbounds : ∀ y ∈ m.screen.map fun x => f x.face, a - r ≤ y ∧ y ≤ a + r := by
    refine forall_mem_map.mpr fun x hx => ?_
    have hx := abs_le.mp (h x hx)
    exact ⟨by linarith, by linarith⟩
  obtain ⟨hlo, hhi⟩ := sortedOf_bounds (by simpa using hne) hbounds q
  rw [column]
  exact abs_le.mpr ⟨by linarith, by linarith⟩

theorem recentre_near (hp : p.Ordered) (m : AttentionModel) :
    (∀ r, 0 ≤ r → (∀ x ∈ m.screen, |x.face.yaw - m.prior.yaw| ≤ r) →
        |(m.recentre p).centre.yaw - m.prior.yaw| ≤ r) ∧
      ∀ r, 0 ≤ r → (∀ x ∈ m.screen, |x.face.pitch - m.prior.pitch| ≤ r) →
        |(m.recentre p).centre.pitch - m.prior.pitch| ≤ r := by
  obtain ⟨hw, hw'⟩ := warmthOf_bounds hp m
  by_cases hn : 3 ≤ m.screen.length
  · have hne : m.screen ≠ [] := fun hnil => by
      rw [hnil] at hn
      exact absurd hn (by decide)
    have heq : (m.recentre p).centre =
        ⟨m.prior.yaw + m.warmthOf p * (quantile (m.column (·.yaw)) (1 / 2) - m.prior.yaw),
          m.prior.pitch + m.warmthOf p * (quantile (m.column (·.pitch)) (1 / 2) - m.prior.pitch)⟩ := by
      rw [recentre]
      rw [if_pos hn]
      rfl
    rw [heq]
    exact ⟨fun r _ h => mix_near hw hw' (column_near hne h (1 / 2)),
      fun r _ h => mix_near hw hw' (column_near hne h (1 / 2))⟩
  · have heq : (m.recentre p).centre = m.prior := by
      rw [recentre]
      rw [if_neg hn]
    rw [heq]
    exact ⟨fun r hr _ => by simpa using hr, fun r hr _ => by simpa using hr⟩

theorem recentre_warmth (m : AttentionModel) : (m.recentre p).warmth = m.warmthOf p := by
  rw [recentre]
  split <;> rfl

theorem recentre_force (m : AttentionModel) : (m.recentre p).force = m.force := by
  rw [recentre]
  split <;> rfl

theorem recone_region (m : AttentionModel) :
    (m.recone p).lim = m.lim ∧ (m.recone p).extent = m.extent ∧
    (m.recone p).centre = m.centre ∧ (m.recone p).force = m.force := by
  rw [recone]
  split
  · exact ⟨rfl, rfl, rfl, rfl⟩
  · exact ⟨rfl, rfl, rfl, rfl⟩

theorem relimit_within (hp : p.Ordered) (policy : AttentionPolicy) (hw : 0 ≤ m.warmth)
    (hw' : m.warmth ≤ 1) : LimitsWithin p policy (m.relimit p policy).lim := by
  obtain ⟨hs, hu, hd⟩ := hp.coldExtra
  have hext := extents_within hp policy m
  have hcold : 0 ≤ 1 - m.warmth := by linarith
  have hcold' : 1 - m.warmth ≤ 1 := by linarith
  exact ⟨limit_within hext.left hcold hcold' hs, limit_within hext.right hcold hcold' hs,
    limit_within hext.up hcold hcold' hu, limit_within hext.down hcold hcold' hd⟩

theorem rebuild_spec (hp : p.Ordered) (policy : AttentionPolicy) (m : AttentionModel) (t : ℚ) :
    Rebuilt p policy m (m.rebuild p policy t) := by
  have hstart : SameSamples m { m with lastRebuild := some t, dirty := false, force := false } :=
    by constructor <;> rfl
  rw [rebuild]
  split
  · obtain ⟨hyaw, hpitch⟩ := recentre_near hp { m with lastRebuild := some t, dirty := false, force := false }
    have hsame := recentre_same (p := p) { m with lastRebuild := some t, dirty := false, force := false }
    obtain ⟨hw, hw'⟩ := warmthOf_bounds hp { m with lastRebuild := some t, dirty := false, force := false }
    rw [← recentre_warmth] at hw hw'
    have hforce := recentre_force (p := p) { m with lastRebuild := some t, dirty := false, force := false }
    generalize recentre p { m with lastRebuild := some t, dirty := false, force := false } = m₁ at *
    obtain ⟨hlim, hext, hcentre, hforce'⟩ := recone_region (p := p) (m₁.relimit p policy)
    refine ⟨hstart.trans (hsame.trans ((relimit_same m₁).trans (recone_same _))), ?_, ?_, ?_, ?_, ?_⟩
    · rw [hlim]
      exact relimit_within hp policy hw hw'
    · rw [hext]
      exact extents_within hp policy m₁
    · rw [hcentre]
      exact hyaw
    · rw [hcentre]
      exact hpitch
    · rw [hforce']
      exact hforce
  · exact ⟨(by constructor <;> rfl), policyLimits_within hp policy, minExtents_within hp,
      fun r hr _ => by simpa using hr, fun r hr _ => by simpa using hr, rfl⟩

/-! ## Samples -/

/-- No more than `yaw` and `pitch` apart. -/
def Apart (yaw pitch : ℚ) (a b : HeadPose) :
  Prop := |b.yaw - a.yaw| ≤ yaw ∧ |b.pitch - a.pitch| ≤ pitch
  deriving Decidable

/-- The head's pose. -/
def pose (face : FaceObservation) : HeadPose := ⟨face.yaw, face.pitch⟩

/-- A pointer sample was close to the baseline. -/
def Pointed (p : AttentionParams) (x : Sample) : Prop :=
  x.origin.tick.isSome = true → Apart p.sanityYaw p.sanityPitch x.origin.prior (pose x.face)

/-- The sample was inside the region of its tick. -/
def Cored (p : AttentionParams) (x : Sample) : Prop :=
  ∀ t o e, x.origin.tick = some (t, o, e) →
    (o.h ≤ e.left ∧ -e.right ≤ o.h ∧ o.v ≤ e.up ∧ -e.down ≤ o.v) ∧ ExtentWithin p e

/-- Below the region, and in the cone that is known beforehand. -/
def Below (p : AttentionParams) (o : Offsets) (e : AttentionLimits) : Prop :=
  o.v < -e.down ∧ -p.kbPrior.x ≤ o.h ∧ o.h ≤ p.kbPrior.x ∧ p.kbPrior.bottom ≤ o.v

/-- A key followed soon on a keyboard sample. -/
def Keyed (p : AttentionParams) (x : Sample) : Prop :=
  ∀ t o e, x.origin.tick = some (t, o, e) → Below p o e ∧ ∃ k,
  x.origin.key = some k ∧ t < k ∧ k - t ≤ p.kbConfirmMs

/-- A keyboard sample that waits for a key. -/
def Waits (p : AttentionParams) (w : ℚ × Sample) : Prop :=
  ∃ o e, w.2.origin.tick = some (w.1, o, e) ∧ Below p o e

/-- The invariant: by which rule the samples of each ring were admitted. -/
structure Inv (p : AttentionParams) (policy : AttentionPolicy) (m : AttentionModel) : Prop where
  limits : LimitsWithin p policy m.lim
  extent : ExtentWithin p m.extent
  pointer : ∀ x ∈ m.pointer, Pointed p x
  core : ∀ x ∈ m.typed ++ m.calm, Cored p x
  keyboard : ∀ x ∈ m.keyboard, Keyed p x
  pending : ∀ w ∈ m.kbPending, Waits p w

/-- The region and what it is learned with are the same. -/
structure SameRegion (m m' : AttentionModel) : Prop where
  prior : m'.prior = m.prior
  cameraId : m'.cameraId = m.cameraId
  centre : m'.centre = m.centre
  lim : m'.lim = m.lim
  extent : m'.extent = m.extent
  force : m'.force = m.force

theorem SameRegion.trans {m₁ m₂ m₃ : AttentionModel} (h : SameRegion m₁ m₂)
    (h' : SameRegion m₂ m₃) : SameRegion m₁ m₃ :=
  ⟨h'.prior.trans h.prior, h'.cameraId.trans h.cameraId, h'.centre.trans h.centre,
    h'.lim.trans h.lim,
    h'.extent.trans h.extent, h'.force.trans h.force⟩

variable {m' : AttentionModel} {capacity : Nat}

theorem mem_push {ring : List Sample} {x y : Sample} (h : y ∈ push capacity ring x) :
    y ∈ ring ∨ y = x := by
  rw [push] at h
  split at h
  · simpa using h
  · rcases mem_append.mp h with h | h
    · exact .inl (mem_of_mem_tail h)
    · exact .inr (mem_singleton.mp h)

theorem Inv.same (h : Inv p policy m) (hs : SameSamples m m') (hlim : LimitsWithin p policy m'.lim)
    (hext : ExtentWithin p m'.extent) : Inv p policy m' := by
  constructor
  · exact hlim
  · exact hext
  · rw [hs.pointer]; exact h.pointer
  · rw [hs.typed, hs.calm]; exact h.core
  · rw [hs.keyboard]; exact h.keyboard
  · rw [hs.kbPending]; exact h.pending

/-! ### What a tick adds -/

/-- The tick is learned as typing or as calm reading, neither of which looks at the baseline. -/
def fromCore (p : AttentionParams) (policy : AttentionPolicy) (m : AttentionModel) (t : ℚ)
    (o : Offsets) (a : ActivityTiming) (keyAt : Option ℚ) : Bool :=
  let typing := within t keyAt p.engageMs
  let pointing := within t (latest [a.pointerAt, a.clickAt, a.scrollAt, a.answerAt]) p.engageMs
  !(pointing && !typing) && !decide (m.warmth < 1) && m.inCore o &&
    (typing || !within t keyAt (policy.typingExcuseSec * 1000) && !decide (m.recent.length < p.calmTicks) &&
      m.steady p && !m.calmToggle)

/-- The sample, confirmed by a key. -/
def confirmed (keyAt : Option ℚ) (x : Sample) : Sample :=
  { x with origin := { x.origin with key := keyAt } }

/-- At most the sample `x` of the tick is added, by the rule of its ring, and keyboard samples that
the key confirms. -/
structure Adds (p : AttentionParams) (m m' : AttentionModel) (t : ℚ) (o : Offsets)
    (keyAt : Option ℚ) (x : Sample) (core : Bool) : Prop where
  region : SameRegion m m'
  pointer : ∀ y ∈ m'.pointer, y ∈ m.pointer ∨ y = x ∧ m.sane p x.face = true
  core : ∀ y ∈ m'.typed ++ m'.calm, y ∈ m.typed ++ m.calm ∨ y = x ∧ core = true
  keyboard : ∀ y ∈ m'.keyboard, y ∈ m.keyboard ∨
    ∃ w ∈ m.kbPending, y = confirmed keyAt w.2 ∧ ∃ k,
    keyAt = some k ∧ w.1 < k ∧ k - w.1 ≤ p.kbConfirmMs
  pending : ∀ w ∈ m'.kbPending, w ∈ m.kbPending ∨ w = (t, x) ∧ m.overKeyboard p o = true

theorem Adds.none (p : AttentionParams) (t : ℚ) (o : Offsets) (keyAt : Option ℚ) (x : Sample)
    (core : Bool) (hr : SameRegion m m') (h : SameSamples m m') : Adds p m m' t o keyAt x core := by
  obtain ⟨-, -, hpointer, htyped, hcalm, hkeyboard, hpending⟩ := h
  refine ⟨hr, fun y hy => .inl ?_, fun y hy => .inl ?_, fun y hy => .inl ?_, fun w hw => .inl ?_⟩
  · exact hpointer ▸ hy
  · exact hcalm ▸ htyped ▸ hy
  · exact hkeyboard ▸ hy
  · exact hpending ▸ hw

theorem settle_adds (t : ℚ) (o : Offsets) (keyAt : Option ℚ) (x : Sample) (ws : List (ℚ × Sample))
    (m : AttentionModel) : Adds p { m with kbPending := ws }
    (settle p t keyAt ws m) t o keyAt x false := by
  induction ws generalizing m with
  | nil => exact .none p t o keyAt x false (by constructor <;> rfl) (by constructor <;> rfl)
  | cons w ws ih =>
    rw [settle]
    split
    next hkey =>
      obtain ⟨k, hk, hconfirms⟩ := (Option.any_eq_true _ _).1 hkey
      obtain ⟨hlt, hle⟩ := of_decide_eq_true hconfirms
      obtain ⟨hr, hpointer, hcore, hkeyboard, hpending⟩ :=
        ih { m with keyboard := push p.caps.keyboard m.keyboard (confirmed keyAt w.2), dirty := true }
      refine ⟨⟨hr.prior, hr.cameraId, hr.centre, hr.lim, hr.extent, hr.force⟩, hpointer, hcore, fun y hy => ?_,
        fun w' hw' => (hpending w' hw').imp_left (mem_cons_of_mem w)⟩
      rcases hkeyboard y hy with hy | ⟨w', hw', hy⟩
      · rcases mem_push hy with hy | rfl
        · exact .inl hy
        · exact .inr ⟨w, mem_cons_self, rfl, k, hk, hlt, hle⟩
      · exact .inr ⟨w', mem_cons_of_mem w hw', hy⟩
    · split
      · exact .none p t o keyAt x false (by constructor <;> rfl) (by constructor <;> rfl)
      · obtain ⟨hr, hpointer, hcore, hkeyboard, hpending⟩ := ih { m with dirty := true }
        refine ⟨⟨hr.prior, hr.cameraId, hr.centre, hr.lim, hr.extent, hr.force⟩, hpointer, hcore, fun y hy => ?_,
          fun w' hw' => (hpending w' hw').imp_left (mem_cons_of_mem w)⟩
        exact (hkeyboard y hy).imp_right fun ⟨w', hw', hy⟩ => ⟨w', mem_cons_of_mem w hw', hy⟩

variable (policy) in
theorem settle_fromCore (t : ℚ) (keyAt : Option ℚ) (ws : List (ℚ × Sample)) (m : AttentionModel) :
    fromCore p policy (settle p t keyAt ws m) = fromCore p policy m := by
  induction ws generalizing m with
  | nil => rfl
  | cons w ws ih =>
    rw [settle]
    split
    · exact ih _
    · split
      · rfl
      · exact ih _

section

variable (m : AttentionModel) (t : ℚ) (face : FaceObservation) (o : Offsets) (a : ActivityTiming)
    (keyAt : Option ℚ)

theorem take_keyboard : (m.take p policy t face o a keyAt).keyboard = m.keyboard := by
  rw [take]
  repeat' split
  all_goals rfl

variable (policy) in
theorem take_adds : Adds p m (m.take p policy t face o a keyAt) t o keyAt (m.taken t face o)
    (m.fromCore p policy t o a keyAt) := by
  have hsame : Adds p m m t o keyAt (m.taken t face o) (m.fromCore p policy t o a keyAt) :=
    .none p t o keyAt _ _ (by constructor <;> rfl) (.refl m)
  obtain ⟨hr, hpointer, hcore, hkeyboard, hpending⟩ := hsame
  rw [take]
  split
  · split
    next hsane =>
      exact ⟨by constructor <;> rfl, fun y hy => (mem_push hy).imp_right fun hy => ⟨hy, hsane⟩, hcore, hkeyboard,
        hpending⟩
    next => exact ⟨hr, hpointer, hcore, hkeyboard, hpending⟩
  next hpointing =>
    split
    · exact ⟨hr, hpointer, hcore, hkeyboard, hpending⟩
    next hwarm =>
      split
      next htyping =>
        split
        next hin =>
          refine ⟨by constructor <;> rfl, hpointer, fun y hy => ?_, hkeyboard, hpending⟩
          have hfrom : m.fromCore p policy t o a keyAt = true := by simp [fromCore, htyping, hwarm, hin]
          rcases mem_append.mp hy with hy | hy
          · exact (mem_push hy).imp (mem_append_left _) fun hy => ⟨hy, hfrom⟩
          · exact .inl (mem_append_right _ hy)
        next =>
          split
          next hover =>
            refine ⟨by constructor <;> rfl, hpointer, hcore, hkeyboard, fun w hw => ?_⟩
            exact (mem_append.mp hw).imp_right fun hw => ⟨mem_singleton.mp hw, hover⟩
          next => exact ⟨hr, hpointer, hcore, hkeyboard, hpending⟩
      next htyping =>
        split
        · exact ⟨hr, hpointer, hcore, hkeyboard, hpending⟩
        next hcalm =>
          split
          · exact ⟨hr, hpointer, hcore, hkeyboard, hpending⟩
          next hsteady =>
            split
            · exact ⟨by constructor <;> rfl, hpointer, hcore, hkeyboard, hpending⟩
            next htoggle =>
              refine ⟨by constructor <;> rfl, hpointer, fun y hy => ?_, hkeyboard, hpending⟩
              have hfrom : m.fromCore p policy t o a keyAt = true := by
                simp_all [fromCore]
              rcases mem_append.mp hy with hy | hy
              · exact .inl (mem_append_left _ hy)
              · exact (mem_push hy).imp (mem_append_right _) fun hy => ⟨hy, hfrom⟩

variable (policy) in
theorem sample_adds : Adds p m (m.sample p policy t face o a keyAt) t o keyAt (m.taken t face o)
    ((m.noteRecent p face).fromCore p policy t o a keyAt) := by
  obtain ⟨hr, hpointer, hcore, hkeyboard, hpending⟩ :=
    settle_adds (p := p) t o keyAt (m.taken t face o) m.kbPending (m.noteRecent p face)
  have hfrom := settle_fromCore (p := p) policy t keyAt m.kbPending (m.noteRecent p face)
  show Adds p m ((settle p t keyAt m.kbPending (m.noteRecent p face)).take p policy t face o a
    keyAt) t o keyAt _ _
  generalize settle p t keyAt m.kbPending (m.noteRecent p face) = m₁ at *
  have hr : SameRegion m m₁ := ⟨hr.prior, hr.cameraId, hr.centre, hr.lim, hr.extent, hr.force⟩
  have hadds := take_adds (p := p) policy m₁ t face o a keyAt
  have htaken : m₁.taken t face o = m.taken t face o := by
    rw [taken, taken, hr.cameraId, hr.prior, hr.extent]
  have hsane : m₁.sane p face = m.sane p face := by
    rw [sane, sane, hr.prior]
  have hover : m₁.overKeyboard p o = m.overKeyboard p o := by
    rw [overKeyboard, overKeyboard, hr.extent]
  rw [htaken, congrFun (congrFun (congrFun (congrFun hfrom t) o) a) keyAt] at hadds
  refine ⟨hr.trans hadds.region, fun y hy => ?_, fun y hy => ?_, fun y hy => ?_, fun w hw => ?_⟩
  · rcases hadds.pointer y hy with hy | ⟨hy, hs⟩
    · exact (hpointer y hy)
    · exact .inr ⟨hy, hsane.symm.trans hs⟩
  · rcases hadds.core y hy with hy | hy
    · exact (hcore y hy).imp_right fun hf => by cases hf.2
    · exact .inr hy
  · rw [take_keyboard] at hy
    exact hkeyboard y hy
  · rcases hadds.pending w hw with hw | ⟨hw, ho⟩
    · exact hpending w hw
    · exact .inr ⟨hw, hover.symm.trans ho⟩

end

theorem inCore_iff (m : AttentionModel) (o : Offsets) : m.inCore o = true ↔
    o.h ≤ m.extent.left ∧ -m.extent.right ≤ o.h ∧ o.v ≤ m.extent.up ∧ -m.extent.down ≤ o.v := by
  simp [inCore, and_assoc]

theorem overKeyboard_iff (m : AttentionModel) (o : Offsets) :
    m.overKeyboard p o = true ↔ Below p o m.extent := by
  simp [overKeyboard, Below, and_assoc]

theorem sane_iff (m : AttentionModel) (face : FaceObservation) :
    m.sane p face = true ↔ Apart p.sanityYaw p.sanityPitch m.prior (pose face) := by
  simp [sane, Apart, pose]

variable {t : ℚ} {face : FaceObservation} {o : Offsets} {keyAt : Option ℚ}

/-- What is added keeps the invariant. -/
theorem Inv.adds (h : Inv p policy m) {core : Bool} (hcore : core = true → m.inCore o = true)
    (ha : Adds p m m' t o keyAt (m.taken t face o) core) : Inv p policy m' := by
  refine ⟨ha.region.lim ▸ h.limits, ha.region.extent ▸ h.extent, fun y hy => ?_, fun y hy => ?_,
    fun y hy => ?_,
    fun w hw => ?_⟩
  · rcases ha.pointer y hy with hy | ⟨rfl, hsane⟩
    · exact h.pointer y hy
    · exact fun _ => (m.sane_iff face).mp hsane
  · rcases ha.core y hy with hy | ⟨rfl, hc⟩
    · exact h.core y hy
    · intro t' o' e' htick
      obtain ⟨rfl, rfl, rfl⟩ : t = t' ∧ o = o' ∧ m.extent = e' := by simpa [taken] using htick
      exact ⟨(m.inCore_iff o).mp (hcore hc), h.extent⟩
  · rcases ha.keyboard y hy with hy | ⟨w, hw, rfl, k, hk, hlt, hle⟩
    · exact h.keyboard y hy
    · obtain ⟨o', e', htick, hbelow⟩ := h.pending w hw
      intro t' o'' e'' htick'
      obtain ⟨rfl, rfl, rfl⟩ : w.1 = t' ∧ o' = o'' ∧ e' = e'' := by simpa using htick.symm.trans htick'
      exact ⟨hbelow, k, hk, hlt, hle⟩
  · rcases ha.pending w hw with hw | ⟨rfl, ho⟩
    · exact h.pending w hw
    · exact ⟨o, m.extent, rfl, (m.overKeyboard_iff o).mp ho⟩

/-! ### One call -/

theorem rebuild_inv (hp : p.Ordered) (h : Inv p policy m) (t : ℚ) :
    Inv p policy (m.rebuild p policy t) :=
  have hr := rebuild_spec hp policy m t
  h.same hr.same hr.limits hr.extent

theorem refreshed_cases (p : AttentionParams) (policy : AttentionPolicy)
    (m : AttentionModel) (t : ℚ) (activity : Option ActivityTiming) :
    (∃ m₁, SameSamples m m₁ ∧ m₁.lim = m.lim ∧ m₁.extent = m.extent ∧
        m.refreshed p policy t activity = m₁.rebuild p policy t) ∨
      m.force = false ∧ m.refreshed p policy t activity = m := by
  rw [refreshed]
  split
  · refine .inl ⟨{ m with adaptive := true, force := true }, ?_, rfl, rfl, ?_⟩
    · constructor <;> rfl
    · rw [if_pos (by rfl)]
  · split
    · exact .inl ⟨m, .refl m, rfl, rfl, rfl⟩
    next hno =>
      rw [Bool.or_eq_true, not_or] at hno
      exact .inr ⟨Bool.eq_false_iff.mpr hno.1, rfl⟩

theorem refreshed_inv (hp : p.Ordered) (h : Inv p policy m) (t : ℚ)
    (activity : Option ActivityTiming) : Inv p policy (m.refreshed p policy t activity) := by
  rcases refreshed_cases p policy m t activity with ⟨m₁, hsame, hlim, hext, heq⟩ | ⟨-, heq⟩
  · rw [heq]
    exact rebuild_inv hp (h.same hsame (hlim ▸ h.limits) (hext ▸ h.extent)) t
  · rw [heq]
    exact h

theorem refreshed_same (hp : p.Ordered) (m : AttentionModel) (t : ℚ)
    (activity : Option ActivityTiming) : SameSamples m (m.refreshed p policy t activity) := by
  rcases refreshed_cases p policy m t activity with ⟨m₁, hsame, -, -, heq⟩ | ⟨-, heq⟩
  · rw [heq]
    exact hsame.trans (rebuild_spec hp policy m₁ t).same
  · rw [heq]
    exact .refl m

/-- A sample of the tick is learned as typing or as calm reading. -/
def learnsCore (p : AttentionParams) (policy : AttentionPolicy) (m : AttentionModel) (t : ℚ)
    (face : FaceObservation) (activity : Option ActivityTiming) (learnable : Bool) : Bool :=
  let m := m.refreshed p policy t activity
  let r := m.judge p policy t face activity
  learnable && learns policy &&
    activity.any fun a => (m.noteRecent p face).fromCore p policy t r.offsets a r.lastKeyAt

theorem learnsCore_inCore (m : AttentionModel) (t : ℚ) (face : FaceObservation)
    (activity : Option ActivityTiming)
    (learnable : Bool) (h : m.learnsCore p policy t face activity learnable = true) :
    (m.refreshed p policy t activity).inCore
      ((m.refreshed p policy t activity).judge p policy t face activity).offsets = true := by
  obtain ⟨a, -, ha⟩ := (Option.any_eq_true _ _).mp (Bool.and_eq_true_iff.mp h).2
  simp only [fromCore, Bool.and_eq_true] at ha
  exact ha.1.2

theorem assess_adds (m : AttentionModel) (t : ℚ) (face : FaceObservation)
    (activity : Option ActivityTiming)
    (learnable : Bool) : let m₁ := m.refreshed p policy t activity
    let r := m₁.judge p policy t face activity
    Adds p m₁ (m.assess p policy t face activity learnable).1 t r.offsets r.lastKeyAt
      (m₁.taken t face r.offsets) (m.learnsCore p policy t face activity learnable) := by
  intro m₁ r
  have hsame : ∀ c, Adds p m₁ m₁ t r.offsets r.lastKeyAt (m₁.taken t face r.offsets) c :=
    fun c => .none p t _ _ _ c (by constructor <;> rfl) (.refl m₁)
  cases activity with
  | none => exact hsame _
  | some a =>
    simp only [assess]
    split
    next hlearn =>
      have hadds := sample_adds (p := p) policy m₁ t face r.offsets a r.lastKeyAt
      have heq : m.learnsCore p policy t face (some a) learnable =
          (m₁.noteRecent p face).fromCore p policy t r.offsets a r.lastKeyAt := by
        rw [learnsCore, hlearn]
        rfl
      rw [heq]
      exact hadds
    next => exact hsame _

theorem step_inv (hp : p.Ordered) (h : Inv p policy m) (a : AttentionAction) :
    Inv p policy (m.step p policy a) := by
  have hclear : Inv p policy m.clearSamples :=
    ⟨h.limits, h.extent, forall_mem_nil _, forall_mem_nil _, forall_mem_nil _, forall_mem_nil _⟩
  cases a with
  | setBaseline b =>
    cases b with
    | none => exact h
    | some b =>
      show Inv p policy (m.setBaseline p (some b))
      rw [setBaseline]
      split
      · exact { hclear with }
      · exact { h with }
  | setCamera id =>
    show Inv p policy (m.setCamera id)
    rw [setCamera]
    split
    · exact { hclear with }
    · exact { h with }
  | reset => exact hclear
  | info =>
    show Inv p policy (m.info p policy)
    rw [info]
    split
    · exact rebuild_inv hp h _
    · exact h
  | assess t face activity learnable =>
    exact (refreshed_inv hp h t activity).adds (m.learnsCore_inCore t face activity learnable)
      (m.assess_adds t face activity learnable)

theorem new_inv (hp : p.Ordered) (policy : AttentionPolicy) (state : Option AttentionState) :
    Inv p policy (new p policy state) := by
  have hlimits := policyLimits_within hp policy
  have hextent : ExtentWithin p ⟨0, 0, 0, 0⟩ :=
    ⟨hp.side.1.trans hp.side.2, hp.side.1.trans hp.side.2, hp.up.1.trans hp.up.2, hp.down.1.trans hp.down.2⟩
  cases state with
  | none => exact ⟨hlimits, hextent, forall_mem_nil _, forall_mem_nil _, forall_mem_nil _, forall_mem_nil _⟩
  | some s =>
    have himported : ∀ {origin : Origin} {capacity : Nat} {faces : List (Option FaceObservation)},
        origin.tick = none → ∀ x ∈ importRing capacity origin faces, x.origin.tick = none := by
      intro origin capacity faces htick x hx
      obtain ⟨face, -, rfl⟩ := mem_map.mp hx
      exact htick
    refine ⟨hlimits, hextent, fun x hx hsome => ?_, fun x hx t o e htick => ?_, fun x hx t o e htick => ?_,
      forall_mem_nil _⟩
    · rw [himported rfl x hx] at hsome
      cases hsome
    · rcases mem_append.mp hx with hx | hx
      · cases (himported rfl x hx).symm.trans htick
      · cases (himported rfl x hx).symm.trans htick
    · cases (himported rfl x hx).symm.trans htick

theorem run_inv (hp : p.Ordered) (policy : AttentionPolicy) (state : Option AttentionState)
    (as : List AttentionAction) : Inv p policy (run p policy state as) := by
  induction as using reverseRecOn with
  | nil => exact new_inv hp policy state
  | append_singleton as a ih =>
    rw [run, foldl_append]
    exact step_inv hp ih a

/-! ## The camera, the baseline and the centre -/

/-- All samples, also those that wait for a key. -/
def samples (m : AttentionModel) : List Sample := m.screen ++ m.keyboard ++ m.kbPending.map (·.2)

/-- The sample is of the current camera, and of a baseline that is near the current one. -/
structure Placed (p : AttentionParams) (m : AttentionModel) (x : Sample) : Prop where
  camera : x.origin.camera = m.cameraId
  baseline : Apart p.resetShiftDeg p.resetShiftDeg x.origin.prior m.prior

/-- The head is as near to the baseline as a sample that is taken by pointing. -/
def Near (p : AttentionParams) (b : HeadPose) (x : Sample) : Prop :=
  Apart p.sanityYaw p.sanityPitch b (pose x.face)
  deriving Decidable

/-- The region is to be rebuilt, or its centre is near the baseline. -/
def CentreNear (p : AttentionParams) (m : AttentionModel) : Prop :=
  m.force = true ∨ Apart p.sanityYaw p.sanityPitch m.prior m.centre

structure Kept (p : AttentionParams) (m : AttentionModel) : Prop where
  placed : ∀ x ∈ m.samples, Placed p m x
  near : ∀ x ∈ m.screen, Near p m.prior x
  centre : CentreNear p m

/-- What a call must meet: a baseline that resets nothing is near that of each sample and near the
samples of the screen; a first camera finds nothing learned; and typing and calm reading are learned
near the baseline only. -/
def Steady (p : AttentionParams) (policy : AttentionPolicy) (m : AttentionModel) :
    AttentionAction → Prop
  | .setBaseline (some b) => m.moved p b = true ∨
    (∀ x ∈ m.samples, Apart p.resetShiftDeg p.resetShiftDeg x.origin.prior b) ∧
    ∀ x ∈ m.screen, Near p b x
  | .setCamera _ => m.cameraId.isNone = true → m.samples.isEmpty = true
  | .assess t face activity learnable => m.learnsCore p policy t face activity learnable = true →
    (m.refreshed p policy t activity).sane p face = true
  | .setBaseline none | .reset | .info => True

instance (m : AttentionModel) : ∀ a, Decidable (Steady p policy m a)
  | .setBaseline (some b) => inferInstanceAs (Decidable (m.moved p b = true ∨
      (∀ x ∈ m.samples, Apart p.resetShiftDeg p.resetShiftDeg x.origin.prior b) ∧ ∀ x ∈ m.screen, Near p b x))
  | .setCamera _ => inferInstanceAs (Decidable (m.cameraId.isNone = true → m.samples.isEmpty = true))
  | .assess t face activity learnable => inferInstanceAs (Decidable
      (m.learnsCore p policy t face activity learnable = true →
        (m.refreshed p policy t activity).sane p face = true))
  | .setBaseline none | .reset | .info => .isTrue trivial

theorem rebuild_near (hp : p.Ordered) (hsane : 0 ≤ p.sanityYaw ∧ 0 ≤ p.sanityPitch)
    {m₁ : AttentionModel} (hs : SameSamples m m₁) (h : ∀ x ∈ m.screen, Near p m.prior x) (t : ℚ) :
    Apart p.sanityYaw p.sanityPitch m.prior (m₁.rebuild p policy t).centre := by
  have hr := rebuild_spec hp policy m₁ t
  have hscreen : m₁.screen = m.screen := by rw [screen, screen, hs.pointer, hs.typed, hs.calm]
  have hyaw := hr.yaw p.sanityYaw hsane.1
  have hpitch := hr.pitch p.sanityPitch hsane.2
  rw [hscreen, hs.prior] at hyaw hpitch
  exact ⟨hyaw fun x hx => (h x hx).1, hpitch fun x hx => (h x hx).2⟩

variable (policy) in
theorem info_near (hp : p.Ordered) (hsane : 0 ≤ p.sanityYaw ∧ 0 ≤ p.sanityPitch) (h : Kept p m) :
    Apart p.sanityYaw p.sanityPitch m.prior (m.info p policy).centre := by
  rw [info]
  split
  · exact rebuild_near hp hsane (.refl m) h.near _
  next hforce => exact h.centre.resolve_left hforce

theorem Kept.same (h : Kept p m) (hs : SameSamples m m') (hcentre : CentreNear p m') :
    Kept p m' := by
  have hscreen : m'.screen = m.screen := by rw [screen, screen, hs.pointer, hs.typed, hs.calm]
  refine ⟨fun x hx => ?_, fun x hx => ?_, hcentre⟩
  · rw [samples, hscreen, hs.keyboard, hs.kbPending] at hx
    obtain ⟨hcamera, hbaseline⟩ := h.placed x hx
    exact ⟨hcamera.trans hs.cameraId.symm, hs.prior ▸ hbaseline⟩
  · rw [hs.prior]
    exact h.near x (hscreen ▸ hx)

theorem Kept.adds (h : Kept p m) (hreset : 0 ≤ p.resetShiftDeg) {core : Bool}
    (hcore : core = true → m.sane p face = true)
    (ha : Adds p m m' t o keyAt (m.taken t face o) core) : Kept p m' := by
  have hr := ha.region
  have htaken : Placed p m (m.taken t face o) := ⟨rfl, by simpa [Apart, taken] using hreset⟩
  have hscreen : ∀ y ∈ m'.screen, y ∈ m.screen ∨ y = m.taken t face o ∧ m.sane p face = true := by
    intro y hy
    rw [screen, append_assoc] at hy ⊢
    rcases mem_append.mp hy with hy | hy
    · exact (ha.pointer y hy).imp_left (mem_append_left _)
    · exact (ha.core y hy).imp (mem_append_right _) fun ⟨hy, hc⟩ => ⟨hy, hcore hc⟩
  have hplaced : ∀ y ∈ m'.samples, Placed p m y := by
    intro y hy
    simp only [samples, mem_append, mem_map] at hy
    rcases hy with (hy | hy) | ⟨w, hw, rfl⟩
    · rcases hscreen y hy with hy | ⟨rfl, -⟩
      · exact h.placed y (mem_append_left _ (mem_append_left _ hy))
      · exact htaken
    · rcases ha.keyboard y hy with hy | ⟨w, hw, rfl, -⟩
      · exact h.placed y (mem_append_left _ (mem_append_right _ hy))
      · exact { h.placed w.2 (mem_append_right _ (mem_map_of_mem hw)) with }
    · rcases ha.pending w hw with hw | ⟨rfl, -⟩
      · exact h.placed w.2 (mem_append_right _ (mem_map_of_mem hw))
      · exact htaken
  refine ⟨fun y hy => ?_, fun y hy => ?_, ?_⟩
  · obtain ⟨hcamera, hbaseline⟩ := hplaced y hy
    exact ⟨hcamera.trans hr.cameraId.symm, hr.prior ▸ hbaseline⟩
  · rw [hr.prior]
    rcases hscreen y hy with hy | ⟨rfl, hsane⟩
    · exact h.near y hy
    · exact (m.sane_iff face).mp hsane
  · rw [CentreNear, hr.force, hr.prior, hr.centre]
    exact h.centre

/-- The parameters of what is kept. -/
structure AttentionParams.Sane (p : AttentionParams) : Prop where
  sanity : 0 ≤ p.sanityYaw ∧ 0 ≤ p.sanityPitch
  reset : 0 ≤ p.resetShiftDeg

theorem step_kept (hp : p.Ordered) (hsane : AttentionParams.Sane p) (h : Kept p m)
    {a : AttentionAction} (ha : Steady p policy m a) : Kept p (m.step p policy a) := by
  cases a with
  | setBaseline b =>
    cases b with
    | none => exact h
    | some b =>
      show Kept p (m.setBaseline p (some b))
      rw [setBaseline]
      split
      · exact ⟨forall_mem_nil _, forall_mem_nil _, .inl rfl⟩
      next hmoved =>
        obtain ⟨hplaced, hnear⟩ := ha.resolve_left hmoved
        exact ⟨fun x hx => ⟨(h.placed x hx).camera, hplaced x hx⟩, hnear, .inl rfl⟩
  | setCamera id =>
    show Kept p (m.setCamera id)
    rw [setCamera]
    split
    · exact ⟨forall_mem_nil _, forall_mem_nil _, .inl rfl⟩
    next hsame =>
      refine ⟨fun x hx => ⟨?_, (h.placed x hx).baseline⟩, h.near, h.centre⟩
      have hx : x ∈ m.samples := hx
      cases hid : m.cameraId with
      | none =>
        have hempty : m.samples.isEmpty = true := ha (by rw [hid]; rfl)
        rw [isEmpty_iff.mp hempty] at hx
        cases hx
      | some c =>
        have hcid : c = id := by simpa [hid] using hsame
        exact (h.placed x hx).camera.trans (hid.trans (congrArg some hcid))
  | reset => exact ⟨forall_mem_nil _, forall_mem_nil _, .inl rfl⟩
  | info =>
    have hnear := info_near policy hp hsane.sanity h
    show Kept p (m.info p policy)
    rw [info] at hnear ⊢
    split at hnear
    next hforce =>
      rw [if_pos hforce]
      have hs := (rebuild_spec hp policy m (m.lastRebuild.getD 0)).same
      exact h.same hs (.inr (hs.prior ▸ hnear))
    next hforce =>
      rw [if_neg hforce]
      exact h
  | assess t face activity learnable =>
    have hfresh : Kept p (m.refreshed p policy t activity) := by
      refine h.same (refreshed_same hp m t activity) ?_
      rcases refreshed_cases p policy m t activity with ⟨m₁, hs, -, -, heq⟩ | ⟨-, heq⟩
      · rw [heq, CentreNear, (rebuild_spec hp policy m₁ t).same.prior, hs.prior]
        exact .inr (rebuild_near hp hsane.sanity hs h.near t)
      · rw [heq]
        exact h.centre
    exact hfresh.adds hsane.reset ha (m.assess_adds t face activity learnable)

/-- The model under the calls of the engine. -/
def attentionMachine (p : AttentionParams) (policy : AttentionPolicy) :
    Machine AttentionModel AttentionAction where
  init m := ∃ state, m = new p policy state
  step a m := m.step p policy a
  enabled _ _ := True

theorem new_kept (policy : AttentionPolicy) (hreset : 0 ≤ p.resetShiftDeg)
    {state : Option AttentionState}
    (hstate : ∀ x ∈ (new p policy state).screen, Near p (new p policy state).prior x) :
    Kept p (new p policy state) := by
  refine ⟨fun x hx => ?_, hstate, ?_⟩
  · cases state with
    | none => cases hx
    | some s =>
      -- imported samples count as taken with the camera and the baseline of the state
      simp only [samples, screen, mem_append] at hx
      rcases hx with (((hx | hx) | hx) | hx) | hx
      on_goal 5 => cases hx
      all_goals
        obtain ⟨face, -, rfl⟩ := mem_map.mp hx
        exact ⟨rfl, by simpa [Apart, new, importState] using hreset⟩
  · cases state <;> exact .inl rfl

theorem run_kept (hp : p.Ordered) (hsane : AttentionParams.Sane p) {as : List AttentionAction}
    {state : Option AttentionState} (hstate : ∀ x ∈ (new p policy state).screen,
      Near p (new p policy state).prior x)
    (has : (attentionMachine p policy).EachStep (Steady p policy) (new p policy state) as) :
    Kept p (run p policy state as) := by
  induction as using reverseRecOn with
  | nil => exact new_kept policy hsane.reset hstate
  | append_singleton as a ih =>
    obtain ⟨has, ha⟩ := Machine.eachStep_concat.mp has
    rw [run, foldl_append]
    exact step_kept hp hsane (ih has) ha

/-! ## A look to the side -/

theorem judge_side (hlim : LimitsWithin p policy m.lim) (t : ℚ) (face : FaceObservation)
    (activity : Option ActivityTiming)
    (h : (if 0 ≤ (m.judge p policy t face activity).offsets.h then m.lim.left else m.lim.right) ≤
      |(m.judge p policy t face activity).offsets.h|) : (m.judge p policy t face activity).away = true := by
  have hleft : 0 < m.lim.left := policy.lookAwayYawDeg_pos.trans_le hlim.left.1
  have hright : 0 < m.lim.right := policy.lookAwayYawDeg_pos.trans_le hlim.right.1
  have hpos : 0 < if 0 ≤ (m.offsets p face m.lim).h then m.lim.left else m.lim.right := by
    split
    · exact hleft
    · exact hright
  have hside : 1 ≤ |(m.offsets p face m.lim).h| /
      (if 0 ≤ (m.offsets p face m.lim).h then m.lim.left else m.lim.right) := (one_le_div hpos).mpr h
  simp [judge, hside]

/-- By which rule the samples of each ring were admitted, and how far the limits go. -/
structure Bounded (p : AttentionParams) (policy : AttentionPolicy) (m : AttentionModel) : Prop where
  limits : LimitsWithin p policy m.lim
  pointer : ∀ x ∈ m.pointer, Pointed p x
  core : ∀ x ∈ m.typed ++ m.calm, Cored p x
  keyboard : ∀ x ∈ m.keyboard, Keyed p x
  side : ∀ t face activity learnable, let r := (m.assess p policy t face activity learnable).2
    (if 0 ≤ r.offsets.h then r.limits.left else r.limits.right) ≤ |r.offsets.h| → r.away = true

theorem Inv.bounded (hp : p.Ordered) (h : Inv p policy m) : Bounded p policy m := by
  refine ⟨h.limits, h.pointer, h.core, h.keyboard, ?_⟩
  intro t face activity learnable
  have hlim := (refreshed_inv hp h t activity).limits
  have hjudge : (m.assess p policy t face activity learnable).2 =
      (m.refreshed p policy t activity).judge p policy t face activity := by
    cases activity <;> rfl
  rw [hjudge]
  exact judge_side hlim t face activity

end AttentionModel

open AttentionModel

/-- **Learning stays in bounds**: whatever the calls, the limits are between the policy's thresholds
and fixed bounds, each sample was admitted by the rule of its ring, and a look beyond a side limit
is away; and if every call is `Steady`, each sample in the rings is of the current camera and of a
baseline near the current one, and the screen centre is near the baseline. -/
theorem attention_bounded (policy : AttentionPolicy) (state : Option AttentionState)
    (as : List AttentionAction) :
    let m := run ATTENTION policy state as
    Bounded ATTENTION policy m ∧
      let start := new ATTENTION policy state
      ((∀ x ∈ start.screen, Near ATTENTION start.prior x) →
        (attentionMachine ATTENTION policy).EachStep (Steady ATTENTION policy) start as →
          (∀ x ∈ m.pointer ++ m.typed ++ m.calm ++ m.keyboard, Placed ATTENTION m x) ∧
            Apart ATTENTION.sanityYaw ATTENTION.sanityPitch m.prior (m.info ATTENTION policy).centre) := by
  refine ⟨(run_inv attention_ordered policy state as).bounded attention_ordered, fun hstate has => ?_⟩
  have hsane : AttentionParams.Sane ATTENTION := by constructor <;> norm_num [ATTENTION]
  have hkept := run_kept attention_ordered hsane hstate has
  exact ⟨fun x hx => hkept.placed x (mem_append_left _ hx),
    info_near _ attention_ordered hsane.sanity hkept⟩

/-- The thresholds of a policy without settings of its own. -/
def defaultPolicy : AttentionPolicy where
  lookAwayYawDeg := 28
  lookUpPitchDeg := 35
  lookDownPitchDeg := 20
  typingExcuseSec := 3
  attentionReference := .learned
  lookAwayYawDeg_pos := by norm_num
  lookUpPitchDeg_pos := by norm_num
  lookDownPitchDeg_pos := by norm_num

/-- The pointer moves while the head is turned by `yaw`. -/
def pointing (yaw t : ℚ) : AttentionAction :=
  .assess t ⟨yaw, 0, 0, 0⟩ (some ⟨none, none, some t, none, none, none⟩) true

/-- A tick on the way to the side, a baseline nearer to it, and another tick. -/
def oneLook : List AttentionAction :=
  [.setCamera "a", .setBaseline (some ⟨0, 0⟩), pointing 30 0, .setBaseline (some ⟨10, 0⟩),
    pointing 20 2000]

/-- Twenty-five ticks far to the side, and two baselines that move a little to the other side. -/
def driftingBaselines : List AttentionAction :=
  [.setCamera "a", .setBaseline (some ⟨0, 0⟩)] ++
    (List.range 25).map (fun i => pointing 55 (200 * i)) ++
    [.setBaseline (some ⟨-15, 0⟩), .setBaseline (some ⟨-30, 0⟩)]

theorem attention_bounded_oneLook :
    let m := run ATTENTION defaultPolicy none oneLook
    Bounded ATTENTION defaultPolicy m ∧ m.pointer.length = 2 ∧
      (∀ x ∈ m.pointer ++ m.typed ++ m.calm ++ m.keyboard, Placed ATTENTION m x) ∧
      Apart ATTENTION.sanityYaw ATTENTION.sanityPitch m.prior (m.info ATTENTION defaultPolicy).centre := by
  obtain ⟨hbounded, hkept⟩ := attention_bounded defaultPolicy none oneLook
  exact ⟨hbounded, by decide +kernel, hkept (by decide +kernel) (by decide +kernel)⟩

/-- After two small moves of the baseline the samples are of one that is twice as far as what resets
them, and the centre is beyond what is sane; and a sample of the time before a camera was named is
kept when one is. -/
theorem drifting_centre :
    (∃ x ∈ (run ATTENTION defaultPolicy none driftingBaselines).pointer,
        ATTENTION.resetShiftDeg <
          |(run ATTENTION defaultPolicy none driftingBaselines).prior.yaw - x.origin.prior.yaw|) ∧
      ATTENTION.sanityYaw <
        |((run ATTENTION defaultPolicy none driftingBaselines).info ATTENTION defaultPolicy).centre.yaw -
          (run ATTENTION defaultPolicy none driftingBaselines).prior.yaw| ∧
      ∃ x ∈ (run ATTENTION defaultPolicy none [pointing 0 0, .setCamera "a"]).pointer,
      x.origin.camera = none := by
  decide +kernel

end Attention

end SmartProctoring
