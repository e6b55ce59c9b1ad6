import SmartProctoring.Detection.GazeLedger
import SmartProctoring.Lib.Run

/-!
# Patterns that are made, go on and close

What the operations on glances and patterns do beyond keeping the ledger.  A pattern that opens,
goes on or closes sends what its record says (`openPattern_ledger`, `touchPattern_ledger`,
`closePattern_ledger`).  Attributing glances changes none of their times, and closes no pattern
(`Attributes`).

The map of the patterns toward a spot is keyed by one of eight directions, and a pattern that is
made takes the place of the one under its direction.  As long as that one is not open, the map has
every open pattern toward a spot (`Mapped`); and then a glance that qualifies makes a pattern
exactly when no open one is near and there are enough glances (`attributeOffscreen_done`,
`qualify_done`).

A pattern that is made goes through four states within one call: it is made, entered in the map,
given its glances, and opened.  Only the last of them is balanced.  In between, the new pattern is
one that may be open besides those that are, and the ledger is followed with that one added
(`openOffscreen_done`, `openRepeated_done`).  The glances that are attributed are among those kept,
and none of them has the attribution it is given; so no glance is counted twice for the same kind of
pattern, and a pattern of looks in any direction is never in the map.
-/

set_option autoImplicit false

namespace SmartProctoring

open List Option

namespace GazeState

variable {cfg : GazeConfig} {s : GazeState}

/-! ## Patterns that open, go on and close -/

variable {p : Nat}

variable (cfg) in
theorem openPattern_ledger {live : Nat → Prop} (h : Ledger live s)
    (hlive : live = fun q => s.Opens q ∨ q = p) (type : EventType) (startedAt t : ℚ) :
    Balanced (s.openPattern cfg p type startedAt t) := by
  have hopens : (s.openPattern cfg p type startedAt t).Opens = fun q => s.Opens q ∨ q = p := by
    funext q
    have hpat : ∃ started, (s.openPattern cfg p type startedAt t).pattern q =
        if q = p then { s.pattern p with isOpen := true, startedAt := started } else s.pattern q :=
      ⟨_, Function.update_apply ..⟩
    obtain ⟨started, heq⟩ := hpat
    rw [Opens, heq]
    by_cases hq : q = p <;> simp [hq, Opens]
  have hself (started : ℚ) :
      (s.setPattern p { s.pattern p with isOpen := true, startedAt := started }).pattern p =
        { s.pattern p with isOpen := true, startedAt := started } := Function.update_self ..
  have hopened (started : ℚ) :
      Ledger live (s.setPattern p { s.pattern p with isOpen := true, startedAt := started }) :=
    h.setPattern rfl (fun _ => ⟨rfl, rfl⟩) (List.Subset.refl _)
  rw [Balanced, hopens, ← hlive]
  refine (hopened _).send (by rw [hlive]; exact .inr rfl) [_] (fun u hu => ?_) _
  obtain rfl := mem_singleton.mp hu
  rw [hself]
  exact congrArg GazeDetails.count (EpisodeBook.begin_details ..)

theorem touchPattern_ledger (h : Balanced s) (hp : (s.pattern p).isOpen = true) (t : ℚ)
    (peak : Bool) : Balanced (s.touchPattern cfg p t peak) := by
  refine h.send hp _ (fun u hu => ?_) _
  exact congrArg GazeDetails.count (EpisodeBook.touch_details _ _ _ _ _ _ u (mem_toList.mp hu))

theorem closePattern_ledger (h : Balanced s) (hp : (s.pattern p).isOpen = true) (t : ℚ)
    (closedBy : Option FlushReason) : Balanced (s.closePattern cfg p t closedBy) := by
  refine Ledger.close (h.send hp _ (fun u hu => ?_) _) p rfl
  exact congrArg GazeDetails.count (EpisodeBook.end_details _ _ _ _ _ u (mem_toList.mp hu))

theorem maybeClose_cases (cfg : GazeConfig) (s : GazeState) (p : Nat) (t afterMs : ℚ) :
    s.maybeClose cfg p t afterMs = s ∨
      s.maybeClose cfg p t afterMs = s.closePattern cfg p t none ∧
        ∃ g ∈ (s.pattern p).glances.getLast?, ∃ e ∈ (s.glance g).endedAt, afterMs ≤ t - e := by
  rw [maybeClose]
  cases hl : (s.pattern p).glances.getLast? with
  | none => exact .inl rfl
  | some g =>
    rw [bind_some]
    cases he : (s.glance g).endedAt with
    | none => exact .inl rfl
    | some e =>
      dsimp only
      split
      next hle => exact .inr ⟨rfl, g, rfl, e, he, hle⟩
      next => exact .inl rfl

theorem maybeClose_ledger (h : Balanced s) (hp : (s.pattern p).isOpen = true) (t afterMs : ℚ) :
    Balanced (s.maybeClose cfg p t afterMs) := by
  rcases s.maybeClose_cases cfg p t afterMs with heq | ⟨heq, -⟩
  · rw [heq]; exact h
  · rw [heq]; exact closePattern_ledger h hp t none

/-! ## Glances that qualify -/

/-- A pattern is near the spot: it is open, and toward the same spot. -/
def Near (s : GazeState) (spot : Spot) (p : Nat) : Prop :=
  (s.pattern p).isOpen = true ∧ sameSpot (s.pattern p).spot spot = true

theorem openOffscreenNear_spec (s : GazeState) (spot : Spot) :
    (∀ p ∈ s.openOffscreenNear spot, p ∈ s.tracked ∧ s.Near spot p) ∧
      (s.openOffscreenNear spot = none → ∀ p ∈ s.tracked, ¬ s.Near spot p) := by
  -- over the patterns still to be looked at, whatever the best one so far
  have hfold : ∀ (ps : List Nat) (best : Option (Nat × ℚ)),
      let found := ps.foldl (fun (best : Option (Nat × ℚ)) p =>
        let d := angleDiff (s.pattern p).spot.ang spot.ang
        if (s.pattern p).isOpen && sameSpot (s.pattern p).spot spot && best.all (d < ·.2) then some (p, d)
        else best) best
      (∀ e ∈ found, e ∈ best ∨ e.1 ∈ ps ∧ s.Near spot e.1) ∧
        (found = none → best = none ∧ ∀ p ∈ ps, ¬ s.Near spot p) := by
    intro ps
    induction ps with
    | nil => exact fun best => ⟨fun e he => .inl he, fun hnone => ⟨hnone, by simp⟩⟩
    | cons p ps ih =>
      intro best
      obtain ⟨hsome, hnone⟩ := ih (if (s.pattern p).isOpen && sameSpot (s.pattern p).spot spot &&
          best.all (angleDiff (s.pattern p).spot.ang spot.ang < ·.2) then
        some (p, angleDiff (s.pattern p).spot.ang spot.ang) else best)
      refine ⟨fun e he => ?_, fun heq => ?_⟩
      · rcases hsome e he with hbest | ⟨hmem, hnear⟩
        · split at hbest
          next hc =>
            obtain rfl := some_inj.mp hbest
            simp only [Bool.and_eq_true] at hc
            exact .inr ⟨mem_cons_self .., hc.1.1, hc.1.2⟩
          next => exact .inl hbest
        · exact .inr ⟨mem_cons_of_mem _ hmem, hnear⟩
      · obtain ⟨hbest, hrest⟩ := hnone heq
        split at hbest
        next => cases hbest
        next hc =>
          refine ⟨hbest, fun q hq hnear => ?_⟩
          rcases mem_cons.mp hq with rfl | hq
          · exact hc (by simp [hnear.1, hnear.2, hbest])
          · exact hrest q hq hnear
  obtain ⟨hsome, hnone⟩ := hfold s.tracked none
  constructor
  · intro p hp
    obtain ⟨e, he, rfl⟩ := map_eq_some_iff.mp hp
    rcases hsome e he with hc | hnear
    · cases hc
    · exact hnear
  · intro heq
    rw [openOffscreenNear, map_eq_none_iff] at heq
    exact (hnone heq).2

/-! ## What attributing glances leaves -/

/-- The glances are the same but for what they are attributed to. -/
structure Fixed (s s' : GazeState) : Prop where
  glances : s'.glances = s.glances
  qualified : s'.qualified = s.qualified
  nextGlance : s'.nextGlance = s.nextGlance
  glance : ∀ g, (s'.glance g).start = (s.glance g).start ∧
    (s'.glance g).endedAt = (s.glance g).endedAt

namespace Fixed

variable {s₁ s₂ s₃ : GazeState}

theorem refl (s : GazeState) : Fixed s s := ⟨rfl, rfl, rfl, fun _ => ⟨rfl, rfl⟩⟩

theorem trans (h : Fixed s₁ s₂) (h' : Fixed s₂ s₃) : Fixed s₁ s₃ :=
  ⟨h'.glances.trans h.glances, h'.qualified.trans h.qualified, h'.nextGlance.trans h.nextGlance,
    fun g => ⟨(h'.glance g).1.trans (h.glance g).1, (h'.glance g).2.trans (h.glance g).2⟩⟩

end Fixed

/-- Glances are attributed, and there may be new patterns: the old ones are open or closed as they
were. -/
structure Attributes (s s' : GazeState) : Prop where
  fixed : Fixed s s'
  next : s.nextPattern ≤ s'.nextPattern
  old : ∀ p < s.nextPattern, (s'.pattern p).key = (s.pattern p).key ∧
    (s'.pattern p).isOpen = (s.pattern p).isOpen

/-- A pattern toward a spot was made. -/
def Made (s s' : GazeState) : Prop :=
  ∃ p, s.nextPattern ≤ p ∧ p < s'.nextPattern ∧ s'.isOff p = true

theorem made_of_eq {s₁ s₂ : GazeState} (hnext : s₂.nextPattern = s₁.nextPattern) :
    ¬ Made s₁ s₂ := by
  rintro ⟨p, hp, hlt, -⟩
  omega

namespace Attributes

variable {s₁ s₂ s₃ : GazeState}

theorem refl (s : GazeState) : Attributes s s := ⟨.refl s, le_rfl, fun _ _ => ⟨rfl, rfl⟩⟩

theorem trans (h : Attributes s₁ s₂) (h' : Attributes s₂ s₃) : Attributes s₁ s₃ := by
  refine ⟨h.fixed.trans h'.fixed, h.next.trans h'.next, fun p hp => ?_⟩
  obtain ⟨hkey, hopen⟩ := h.old p hp
  obtain ⟨hkey', hopen'⟩ := h'.old p (hp.trans_le h.next)
  exact ⟨hkey'.trans hkey, hopen'.trans hopen⟩

theorem made_trans (h : Attributes s₁ s₂) (h' : Attributes s₂ s₃) :
    Made s₁ s₃ ↔ Made s₁ s₂ ∨ Made s₂ s₃ := by
  have hoff : ∀ p < s₂.nextPattern, s₃.isOff p = s₂.isOff p := fun p hp =>
    congrArg PatternKey.isOff (h'.old p hp).1
  constructor
  · rintro ⟨p, hp, hlt, ho⟩
    rcases Nat.lt_or_ge p s₂.nextPattern with hlt' | hge
    · exact .inl ⟨p, hp, hlt', (hoff p hlt').symm.trans ho⟩
    · exact .inr ⟨p, hge, hlt, ho⟩
  · rintro (⟨p, hp, hlt, ho⟩ | ⟨p, hp, hlt, ho⟩)
    · exact ⟨p, hp, hlt.trans_le h'.next, (hoff p hlt).trans ho⟩
    · exact ⟨p, h.next.trans hp, hlt, ho⟩

end Attributes

/-- The map of the patterns toward a spot has every open one. -/
def Mapped (s : GazeState) : Prop :=
  ∀ p, (s.pattern p).isOpen = true → s.isOff p = true → p ∈ s.tracked

/-- Nothing opens. -/
theorem Mapped.of_opens {s' : GazeState} (h : Mapped s) (hoff : s'.offscreen = s.offscreen)
    (hopen : ∀ p, (s'.pattern p).isOpen = true → (s.pattern p).isOpen = true)
    (hkey : ∀ p, (s'.pattern p).key = (s.pattern p).key) : Mapped s' := by
  intro p hp ho
  rw [isOff, hkey] at ho
  rw [tracked, hoff]
  exact h p (hopen p hp) ho

theorem attach_attributes (kind : PatternKind) (p g : Nat) (s : GazeState) :
    Attributes s (s.attach kind p g) := by
  refine ⟨⟨rfl, rfl, rfl, fun g' => ?_⟩, le_rfl, fun q _ => ?_⟩
  · rw [Ledger.glance_attach]
    split
    next h => rw [h]; exact ⟨rfl, rfl⟩
    next => exact ⟨rfl, rfl⟩
  · obtain ⟨hopen, hkey, -⟩ := Ledger.pattern_attach kind p g q s
    exact ⟨hkey, hopen⟩

theorem attachAll_frame (kind : PatternKind) (p : Nat) (gs : List Nat) (s : GazeState) :
    Attributes s (s.attachAll kind p gs) ∧ (s.attachAll kind p gs).nextPattern = s.nextPattern ∧
      (s.attachAll kind p gs).out = s.out ∧ (s.attachAll kind p gs).offscreen = s.offscreen ∧
      (s.attachAll kind p gs).Opens = s.Opens ∧ ∀ q, (s.attachAll kind p gs).isOff q = s.isOff q := by
  induction gs generalizing s with
  | nil => exact ⟨.refl s, rfl, rfl, rfl, rfl, fun _ => rfl⟩
  | cons g gs ih =>
    obtain ⟨hatt, hnext, hout, hmap, hopens, hoff⟩ := ih (s.attach kind p g)
    exact ⟨(attach_attributes kind p g s).trans hatt, hnext, hout, hmap,
      hopens.trans (Ledger.opens_attach ..),
      fun q => (hoff q).trans (Ledger.isOff_attach ..)⟩

theorem touchPattern_attributes (cfg : GazeConfig) (p : Nat) (t : ℚ) (peak : Bool) (s : GazeState) :
    Attributes s (s.touchPattern cfg p t peak) :=
  ⟨⟨rfl, rfl, rfl, fun _ => ⟨rfl, rfl⟩⟩, le_rfl, fun _ _ => ⟨rfl, rfl⟩⟩

theorem openPattern_attributes (cfg : GazeConfig) (type : EventType) (startedAt t : ℚ)
    {s₀ : GazeState}
    (h : Attributes s₀ s) (hp : s₀.nextPattern ≤ p) :
    Attributes s₀ (s.openPattern cfg p type startedAt t) := by
  refine ⟨⟨h.fixed.glances, h.fixed.qualified, h.fixed.nextGlance, h.fixed.glance⟩, h.next,
    fun q hq => ?_⟩
  have heq : (s.openPattern cfg p type startedAt t).pattern q = s.pattern q :=
    Function.update_of_ne (hq.trans_le hp).ne ..
  rw [heq]
  exact h.old q hq

theorem isOff_openPattern (cfg : GazeConfig) (type : EventType) (startedAt t : ℚ)
    (s : GazeState) (q : Nat) : (s.openPattern cfg p type startedAt t).isOff q = s.isOff q := by
  show (Function.update s.pattern p _ q).key.isOff = (s.pattern q).key.isOff
  rw [Function.update_apply]
  split
  next h => rw [h]
  next => rfl

theorem newPattern_attributes (pat : Pattern) (s : GazeState) :
    Attributes s (s.newPattern pat) := by
  refine ⟨⟨rfl, rfl, rfl, fun _ => ⟨rfl, rfl⟩⟩, Nat.le_succ _, fun q hq => ?_⟩
  have heq : (s.newPattern pat).pattern q = s.pattern q := Function.update_of_ne hq.ne ..
  rw [heq]
  exact ⟨rfl, rfl⟩

theorem mem_track (dir : GazeDirection) (p : Nat) (s : GazeState) :
    (dir, p) ∈ (s.track dir p).offscreen ∧
      (∀ e ∈ (s.track dir p).offscreen, e = (dir, p) ∨ e ∈ s.offscreen) ∧
      ∀ e ∈ s.offscreen, e ∈ (s.track dir p).offscreen ∨ e.1 = dir := by
  rw [track]
  split
  next hany =>
    obtain ⟨e₀, he₀, hdir⟩ := any_eq_true.mp hany
    refine ⟨mem_map.mpr ⟨e₀, he₀, if_pos (of_decide_eq_true hdir)⟩, fun e he => ?_, fun e he => ?_⟩
    · obtain ⟨e', he', rfl⟩ := mem_map.mp he
      split
      · exact .inl rfl
      · exact .inr he'
    · by_cases heq : e.1 = dir
      · exact .inr heq
      · exact .inl (mem_map.mpr ⟨e, he, if_neg heq⟩)
  next => exact ⟨by simp, fun e he => by simpa [or_comm] using he, fun e he => .inl (by simp [he])⟩

theorem track_eq (dir : GazeDirection) (p : Nat) (s : GazeState) :
    s.track dir p = { s with offscreen := (s.track dir p).offscreen } := by
  rw [track]
  split <;> rfl

theorem attr_attachAll (kind : PatternKind) (p : Nat) (gs : List Nat) (s : GazeState) (g : Nat) :
    ((s.attachAll kind p gs).glance g).attr = some kind ∨
      ((s.attachAll kind p gs).glance g).attr = (s.glance g).attr := by
  induction gs generalizing s with
  | nil => exact .inr rfl
  | cons x gs ih =>
    rcases ih (s.attach kind p x) with heq | heq
    · exact .inl heq
    · rw [Ledger.glance_attach] at heq
      split at heq
      · exact .inl heq
      · exact .inr heq

variable {live : Nat → Prop}

theorem Ledger.setOffscreen (h : Ledger live s) {map : List (GazeDirection × Nat)}
    (hmap : ∀ e ∈ map, e.2 < s.nextPattern ∧ (s.pattern e.2).key = .offscreen e.1) :
    Ledger live { s with offscreen := map } :=
  { h with offscreenKey := hmap }

theorem Ledger.setRepeated (h : Ledger live s) (hp : p < s.nextPattern)
    (hoff : s.isOff p = false) : Ledger live { s with repeated := p } :=
  { h with repeatedOff := ⟨hp, hoff⟩ }

/-! ## Patterns toward a spot -/

/-- The direction that a pattern of the glances is toward: the mean of theirs. -/
def dirOf (cfg : GazeConfig) (s : GazeState) (gs : List Nat) : GazeDirection :=
  directionOfAngle (cfg.meanAngle (gs.map fun x => (s.glance x).spot.ang))

/-- What becomes of a glance that may count toward its spot.  The map keeps all open patterns if no
open one has the direction of the pattern that is made. -/
structure OffDone (cfg : GazeConfig) (t : ℚ) (g : Nat) (s s' : GazeState) : Prop where
  ledger : Balanced s'
  attributes : Attributes s s'
  made : Made s s' ↔ s.openOffscreenNear (s.glance g).spot = none ∧
    cfg.policy.sameDirectionCount ≤ (s.sameDirection cfg t g).length
  mapped : Mapped s → (Made s s' → ∀ q, (s.pattern q).isOpen = true →
    (s.pattern q).key ≠ .offscreen (dirOf cfg s (s.sameDirection cfg t g))) → Mapped s'
  out : ∀ e ∈ s'.out, s'.isOff e.1 = true
  attr : (s'.glance g).attr = some .offscreen ∨ (s'.glance g).attr = (s.glance g).attr

theorem openOffscreen_done (cfg : GazeConfig) (h : Balanced s) (t : ℚ) {gs : List Nat}
    (hsub : List.Sublist gs s.glances)
    (hgs : ∀ g ∈ gs, (s.glance g).attr ≠ some .offscreen) (hout : s.out = []) :
    Balanced (s.openOffscreen cfg t gs) ∧ Attributes s (s.openOffscreen cfg t gs) ∧
      Made s (s.openOffscreen cfg t gs) ∧
      (Mapped s → (∀ q, (s.pattern q).isOpen = true → (s.pattern q).key ≠ .offscreen (dirOf cfg s gs)) →
        Mapped (s.openOffscreen cfg t gs)) ∧
      (∀ e ∈ (s.openOffscreen cfg t gs).out, (s.openOffscreen cfg t gs).isOff e.1 = true) ∧
      ∀ g, ((s.openOffscreen cfg t gs).glance g).attr = some .offscreen ∨
        ((s.openOffscreen cfg t gs).glance g).attr = (s.glance g).attr := by
  rw [openOffscreen, dirOf]
  generalize directionOfAngle (cfg.meanAngle (gs.map fun x => (s.glance x).spot.ang)) = dir
  generalize hpat :
    Pattern.new (.offscreen dir) (((gs.head?).map fun x => (s.glance x).start).getD 0)
    ⟨cfg.meanAngle (gs.map fun x => (s.glance x).spot.ang),
      gs.foldl (fun a x => a + (s.glance x).spot.radius) 0 / gs.length⟩ dir = pat
  generalize ((gs.head?).map fun x => (s.glance x).start).getD 0 = started at hpat ⊢
  have hself : (s.newPattern pat).pattern s.nextPattern = pat := Function.update_self ..
  have hkey : pat.key = .offscreen dir := by rw [← hpat]; rfl
  -- made, entered in the map, given its glances, opened
  have h₁ : Ledger (fun q => (s.newPattern pat).Opens q ∨ q = s.nextPattern) (s.newPattern pat) := by
    rw [← hpat]
    exact h.makePattern ..
  obtain ⟨htracked, hnew, hold⟩ := mem_track dir s.nextPattern (s.newPattern pat)
  rw [track_eq]
  generalize ((s.newPattern pat).track dir s.nextPattern).offscreen = map at htracked hnew hold ⊢
  have h₂ : Ledger (fun q => (s.newPattern pat).Opens q ∨
      q = s.nextPattern) { s.newPattern pat with offscreen := map } := by
    refine h₁.setOffscreen fun e he => ?_
    rcases hnew e he with rfl | he
    · exact ⟨Nat.lt_succ_self _, (congrArg Pattern.key hself).trans hkey⟩
    · exact h₁.offscreenKey e he
  have hatt₂ : Attributes s { s.newPattern pat with offscreen := map } := by
    obtain ⟨⟨e₁, e₂, e₃, e₄⟩, hnext, hpatterns⟩ := newPattern_attributes pat s
    exact ⟨⟨e₁, e₂, e₃, e₄⟩, hnext, hpatterns⟩
  have hoff₂ : ({ s.newPattern pat with offscreen := map } : GazeState).isOff s.nextPattern = true := by
    show ((s.newPattern pat).pattern s.nextPattern).key.isOff = true
    rw [hself, hkey]
    rfl
  have h₃ := h₂.attachAll .offscreen (p := s.nextPattern) (.inr rfl) hoff₂ (hsub.nodup h.keptNodup)
    (fun g hg => ⟨hsub.subset hg, .inr ⟨rfl, hgs g hg⟩⟩) (fun e he => (h.sent e he).1.ne)
  obtain ⟨hatt₃, hnext₃, hout₃, hmap₃, hopens₃, hoff₃⟩ :=
    attachAll_frame .offscreen s.nextPattern gs { s.newPattern pat with offscreen := map }
  have hattr := attr_attachAll .offscreen s.nextPattern gs { s.newPattern pat with
      offscreen := map }
  generalize attachAll { s.newPattern pat with offscreen := map } .offscreen s.nextPattern gs = s₃
    at h₃ hatt₃ hnext₃ hout₃ hmap₃ hopens₃ hoff₃ hattr ⊢
  have h₄ := openPattern_ledger cfg (p := s.nextPattern) h₃ (by rw [hopens₃]; rfl)
    .offscreenAttentionPattern started t
  have hatt₄ := openPattern_attributes cfg .offscreenAttentionPattern started t
      (hatt₂.trans hatt₃) le_rfl
  have hoff₄ := isOff_openPattern (p := s.nextPattern) cfg .offscreenAttentionPattern started t s₃
  have hself₄ := (hoff₄ s.nextPattern).trans ((hoff₃ _).trans hoff₂)
  have hnext₄ : (s₃.openPattern cfg s.nextPattern .offscreenAttentionPattern started t).nextPattern =
      s.nextPattern + 1 := hnext₃
  refine ⟨h₄, hatt₄, ⟨s.nextPattern, le_rfl, hnext₄ ▸ Nat.lt_succ_self _, hself₄⟩,
    fun hmapped hdir q hq ho => ?_,
    fun e he => ?_, hattr⟩
  · have hmem : ∀ e ∈ map,
      e.2 ∈ (s₃.openPattern cfg s.nextPattern .offscreenAttentionPattern started t).tracked := by
      intro e he
      exact mem_map.mpr ⟨e, hmap₃ ▸ he, rfl⟩
    rcases Nat.lt_succ_iff_lt_or_eq.mp (hnext₄ ▸ h₄.made q hq) with hlt | rfl
    · -- an old pattern: the map has it still, for the new one is of another direction
      obtain ⟨hkeyq, hopenq⟩ := hatt₄.old q hlt
      rw [hopenq] at hq
      rw [isOff, hkeyq] at ho
      obtain ⟨e, he, rfl⟩ := mem_map.mp (hmapped q hq ho)
      refine hmem e ((hold e he).resolve_right fun heq => hdir e.2 hq ?_)
      rw [← heq]
      exact (h.offscreenKey e he).2
    · exact hmem _ htracked
  · have hnil : s₃.out = [] := hout₃.trans hout
    rcases mem_snoc.1 he with he | rfl
    · rw [hnil] at he
      cases he
    · exact hself₄

variable {g : Nat}

theorem attributeOffscreen_done (cfg : GazeConfig) (h : Balanced s) (t : ℚ) (hg : g ∈ s.glances)
    (hattr : (s.glance g).attr = none) (hout : s.out = []) :
    OffDone cfg t g s (s.attributeOffscreen cfg t g) := by
  rw [attributeOffscreen]
  cases hnear : s.openOffscreenNear (s.glance g).spot with
  | some p =>
    obtain ⟨htracked, hopen, hspot⟩ := (s.openOffscreenNear_spec (s.glance g).spot).1 p hnear
    obtain ⟨e, he, rfl⟩ := mem_map.mp htracked
    have hoff : s.isOff e.2 = true := by rw [isOff, (h.offscreenKey e he).2]; rfl
    have h₁ := h.attach_open .offscreen hopen hoff hg (.inl hattr) (by rw [hout]; simp)
    have hpatterns := fun q => Ledger.pattern_attach .offscreen e.2 g q s
    refine ⟨touchPattern_ledger h₁ ((hpatterns _).1.trans hopen) t true,
      (attach_attributes ..).trans (touchPattern_attributes ..), ⟨fun hm => absurd hm (made_of_eq rfl),
      fun hc => absurd (hnear.symm.trans hc.1) (by simp)⟩, fun hm _ => ?_, fun x hx => ?_, .inl ?_⟩
    · exact hm.of_opens rfl (fun q hq => (hpatterns q).1.symm.trans hq) fun q => (hpatterns q).2.1
    · have heq : x.1 = e.2 := by
        rcases mem_append.mp hx with hx | hx
        · exact absurd hx (by rw [show (s.attach .offscreen e.2 g).out = [] from hout]; simp)
        · obtain ⟨u, -, rfl⟩ := mem_map.mp hx
          rfl
      rw [heq]
      exact (Ledger.isOff_attach ..).trans hoff
    · show ((s.attach .offscreen e.2 g).glance g).attr = _
      rw [Ledger.glance_attach, if_pos rfl]
  | none =>
    dsimp only
    split
    next hcount =>
      obtain ⟨hl, hatt, hmade, hmapped, hoff, hattr'⟩ := openOffscreen_done cfg h t
        (show (s.sameDirection cfg t g).Sublist s.glances from filter_sublist)
        (fun x hx => by simpa [inWindow] using (Bool.and_eq_true_iff.mp (Bool.and_eq_true_iff.mp
          (mem_filter.mp hx).2).1).2) hout
      exact ⟨hl, hatt, ⟨fun _ => ⟨hnear, hcount⟩, fun _ => hmade⟩, fun hm hdir => hmapped hm (hdir hmade), hoff,
        hattr' g⟩
    next hcount =>
      refine ⟨h, .refl s, ⟨fun hm => absurd hm (made_of_eq rfl), fun hc => absurd hc.2 hcount⟩, fun hm _ => hm, ?_,
        .inr rfl⟩
      rw [hout]
      simp

/-! ## Patterns of looks in any direction -/

theorem openRepeated_done (cfg : GazeConfig) (h : Balanced s) (t : ℚ) {gs : List Nat}
    (hsub : List.Sublist gs s.glances) (hgs : ∀ g ∈ gs, (s.glance g).attr = none) :
    Balanced (s.openRepeated cfg t gs) ∧ Attributes s (s.openRepeated cfg t gs) ∧
      ¬ Made s (s.openRepeated cfg t gs) ∧ (Mapped s → Mapped (s.openRepeated cfg t gs)) := by
  rw [openRepeated]
  generalize ((gs.head?).map fun x => (s.glance x).start).getD 0 = started
  dsimp only
  generalize hpat : Pattern.new .repeated started ⟨0, 0⟩ .left = pat
  have hself : (s.newPattern pat).pattern s.nextPattern = pat := Function.update_self ..
  have hoff : (s.newPattern pat).isOff s.nextPattern = false := by rw [isOff, hself, ← hpat]; rfl
  have h₁ : Ledger (fun q => (s.newPattern pat).Opens q ∨ q = s.nextPattern) (s.newPattern pat) := by
    rw [← hpat]
    exact h.makePattern ..
  have h₂ := h₁.setRepeated (Nat.lt_succ_self s.nextPattern) hoff
  have hatt₂ : Attributes s { s.newPattern pat with repeated := s.nextPattern } := by
    obtain ⟨⟨e₁, e₂, e₃, e₄⟩, hnext, hpatterns⟩ := newPattern_attributes pat s
    exact ⟨⟨e₁, e₂, e₃, e₄⟩, hnext, hpatterns⟩
  have h₃ := h₂.attachAll .repeated (p := s.nextPattern) (.inr rfl) hoff (hsub.nodup h.keptNodup)
    (fun g hg => ⟨hsub.subset hg, .inl (hgs g hg)⟩) (fun e he => (h.sent e he).1.ne)
  obtain ⟨hatt₃, hnext₃, -, hmap₃, hopens₃, hoff₃⟩ := attachAll_frame .repeated s.nextPattern gs
    { s.newPattern pat with repeated := s.nextPattern }
  generalize attachAll { s.newPattern pat with repeated := s.nextPattern } .repeated
    s.nextPattern gs = s₃ at h₃ hatt₃ hnext₃ hmap₃ hopens₃ hoff₃ ⊢
  have h₄ := openPattern_ledger cfg (p := s.nextPattern) h₃ (by rw [hopens₃]; rfl)
      .repeatedLookingAway started t
  have hatt₄ := openPattern_attributes cfg .repeatedLookingAway started t (hatt₂.trans hatt₃) le_rfl
  have hself₄ := (isOff_openPattern (p := s.nextPattern) cfg .repeatedLookingAway started t s₃
      s.nextPattern).trans
    ((hoff₃ _).trans hoff)
  have hnext₄ : (s₃.openPattern cfg s.nextPattern .repeatedLookingAway started t).nextPattern =
      s.nextPattern + 1 := hnext₃
  -- the only new pattern is the one of looks in any direction
  refine ⟨h₄, hatt₄, ?_, fun hmapped q hq ho => ?_⟩
  · rintro ⟨q, hq, hlt, ho⟩
    obtain rfl : q = s.nextPattern := by omega
    exact absurd (hself₄.symm.trans ho) (by decide)
  · rcases Nat.lt_succ_iff_lt_or_eq.mp (hnext₄ ▸ h₄.made q hq) with hlt | rfl
    · obtain ⟨hkeyq, hopenq⟩ := hatt₄.old q hlt
      rw [hopenq] at hq
      rw [isOff, hkeyq] at ho
      exact (congrArg (q ∈ map Prod.snd ·) hmap₃).mpr (hmapped q hq ho)
    · exact absurd (hself₄.symm.trans ho) (by decide)

theorem attributeRepeated_done (cfg : GazeConfig) (h : Balanced s) (t : ℚ) (hg : g ∈ s.glances)
    (hattr : (s.glance g).attr = none) (hout : ∀ e ∈ s.out, s.isOff e.1 = true) :
    Balanced (s.attributeRepeated cfg t g) ∧ Attributes s (s.attributeRepeated cfg t g) ∧
      ¬ Made s (s.attributeRepeated cfg t g) ∧ (Mapped s → Mapped (s.attributeRepeated cfg t g)) := by
  rw [attributeRepeated]
  split
  next hopen =>
    have hno : ∀ e ∈ s.out, e.1 ≠ s.repeated := by
      rintro e he heq
      exact absurd (h.repeatedOff.2.symm.trans (heq ▸ hout e he)) (by decide)
    have h₁ := h.attach_open .repeated hopen h.repeatedOff.2 hg (.inl hattr) hno
    have hpatterns := fun q => Ledger.pattern_attach .repeated s.repeated g q s
    exact ⟨touchPattern_ledger h₁ ((hpatterns _).1.trans hopen) t false,
      (attach_attributes ..).trans (touchPattern_attributes ..), made_of_eq rfl,
      fun hm => hm.of_opens rfl (fun q hq => (hpatterns q).1.symm.trans hq) fun q => (hpatterns q).2.1⟩
  next =>
    dsimp only
    split
    · refine openRepeated_done cfg h t filter_sublist fun x hx => ?_
      have hcond := (mem_filter.mp hx).2
      simp only [Bool.and_eq_true, decide_eq_true_eq] at hcond
      exact hcond.1.2
    · exact ⟨h, .refl s, made_of_eq rfl, id⟩

/-! ## A glance qualifies -/

theorem mem_trim (cfg : GazeConfig) (s : GazeState) (t : ℚ) (g : Nat) (l : List Nat) :
    g ∈ trim cfg s t g (l ++ [g]) := by
  induction l with
  | nil => simp [trim, MAX_GLANCES]
  | cons x xs ih =>
    rw [cons_append, trim]
    split
    · exact ih
    · simp

theorem glance_note (cfg : GazeConfig) (s : GazeState) (spot : Spot) (t : ℚ) (g g' : Nat) :
    (s.note cfg spot t g).glance g' = if g' = g then
      { s.glance g with qualified := true, spot := spot, dir := directionOfAngle spot.ang }
      else s.glance g' :=
  Function.update_apply ..

theorem qualify_done (cfg : GazeConfig) (h : Balanced s) (spot : Spot) (t : ℚ)
    (hg : g < s.nextGlance) (hqual : (s.glance g).qualified = false) (hout : s.out = []) :
    Balanced (s.qualify cfg spot t g) ∧ Attributes (s.note cfg spot t g) (s.qualify cfg spot t g) ∧
      (Made (s.note cfg spot t g) (s.qualify cfg spot t g) ↔ s.openOffscreenNear spot = none ∧
        cfg.policy.sameDirectionCount ≤ ((s.note cfg spot t g).sameDirection cfg t g).length) ∧
      (Mapped s → (Made (s.note cfg spot t g) (s.qualify cfg spot t g) → ∀ q, (s.pattern q).isOpen = true →
        (s.pattern q).key ≠ .offscreen (dirOf cfg (s.note cfg spot t g)
          ((s.note cfg spot t g).sameDirection cfg t g))) → Mapped (s.qualify cfg spot t g)) := by
  have hnote := h.note hg hqual cfg spot t
  have hkept : g ∈ (s.note cfg spot t g).glances := mem_trim cfg _ t g s.glances
  have hspot : ((s.note cfg spot t g).glance g).spot = spot := by rw [glance_note, if_pos rfl]
  have hattr : ((s.note cfg spot t g).glance g).attr = none := by
    -- only glances that had qualified are counted for a pattern
    rw [glance_note, if_pos rfl]
    exact (h.attr g).mpr fun p hp => absurd (hqual.symm.trans (h.known (p, g) hp).2.2) (by decide)
  have hoff := attributeOffscreen_done cfg hnote t hkept hattr hout
  have hnear : (s.note cfg spot t g).openOffscreenNear = s.openOffscreenNear := rfl
  have hmapped : Mapped (s.note cfg spot t g) ↔ Mapped s := Iff.rfl
  have hpattern : (s.note cfg spot t g).pattern = s.pattern := rfl
  rw [qualify]
  generalize s.note cfg spot t g = n at hoff hkept hspot hattr hnear hmapped hpattern ⊢
  have hkept₂ : g ∈ (n.attributeOffscreen cfg t g).glances := hoff.attributes.fixed.glances ▸ hkept
  have hmade := hoff.made
  rw [hspot, hnear] at hmade
  split
  · exact ⟨hoff.ledger, hoff.attributes, hmade, fun hm hdir => hoff.mapped (hmapped.mpr hm) (hpattern ▸ hdir)⟩
  next hne =>
    obtain ⟨h₃, hatt₃, hnot, hmapped₃⟩ := attributeRepeated_done cfg hoff.ledger t hkept₂
      ((hoff.attr.resolve_left hne).trans hattr) hoff.out
    have hmade₃ := hoff.attributes.made_trans hatt₃
    refine ⟨h₃, hoff.attributes.trans hatt₃, hmade₃.trans ((or_iff_left hnot).trans hmade), fun hm hdir => ?_⟩
    exact hmapped₃ (hoff.mapped (hmapped.mpr hm) fun hmade' => hpattern ▸ hdir (hmade₃.mpr (.inl hmade')))

end GazeState

end SmartProctoring
