import SmartProctoring.Detection.Gaze

/-!
# Who is attributed to which pattern

The ledger of the attributions.  A glance belongs to at most one pattern toward a spot and to at
most one of looks in any direction, and it is used up when its pattern is (`Log`); the count of a
pattern that is not over is the number of glances that were attributed to it, and what is sent says
so (`Patterns`).  Each operation on glances and patterns keeps the `Ledger`.

The ledger is about the patterns that are `live`: those that are open, and, while a pattern is made,
that one too, for its glances are attributed before it is open.
-/

set_option autoImplicit false

namespace SmartProctoring

open List

namespace GazeState

/-- A pattern toward a spot. -/
def isOff (s : GazeState) (p : Nat) : Bool := (s.pattern p).key.isOff

/-- How many glances were attributed to the pattern. -/
def entries (s : GazeState) (p : Nat) : Nat := s.attached.countP (·.1 = p)

/-- The glance that was attributed to the pattern last. -/
def lastEntry (s : GazeState) (p : Nat) : Option Nat :=
  ((s.attached.filter (·.1 = p)).getLast?).map (·.2)

/-- The open patterns. -/
def Opens (s : GazeState) (p : Nat) : Prop := (s.pattern p).isOpen = true

/-- What the glances have of the log. -/
structure Log (live : Nat → Prop) (s : GazeState) : Prop where
  known : ∀ e ∈ s.attached, e.1 < s.nextPattern ∧ e.2 < s.nextGlance ∧
    (s.glance e.2).qualified = true
  attr : ∀ g, (s.glance g).attr = none ↔ ∀ p, (p, g) ∉ s.attached
  attrOff : ∀ g, (s.glance g).attr = some .offscreen ↔ ∃ p, (p, g) ∈ s.attached ∧ s.isOff p = true
  once : ∀ p p' g, (p, g) ∈ s.attached → (p', g) ∈ s.attached → s.isOff p = s.isOff p' → p = p'
  nodup : s.attached.Nodup
  owned : ∀ g p, (s.glance g).owner = some p → (p, g) ∈ s.attached
  owner : ∀ g p, (s.glance g).attr ≠ some .offscreen → (p, g) ∈ s.attached →
    (s.glance g).owner = some p
  spent : ∀ g, (s.glance g).consumed = true → ∃ p, (p, g) ∈ s.attached ∧ ¬ live p
  used : ∀ g ∈ s.glances, (s.glance g).attr ≠ some .offscreen → ∀ p,
    (p, g) ∈ s.attached → ¬ live p → (s.glance g).consumed = true

/-- What the patterns have of the log. -/
structure Patterns (live : Nat → Prop) (s : GazeState) : Prop where
  count : ∀ p, live p → (s.pattern p).count = s.entries p
  last : ∀ p, live p → (s.pattern p).glances.getLast? = s.lastEntry p
  made : ∀ p, live p → p < s.nextPattern
  listed : ∀ p, ∀ g ∈ (s.pattern p).glances, (p, g) ∈ s.attached
  repeatedOff : s.repeated < s.nextPattern ∧ s.isOff s.repeated = false
  offscreenKey : ∀ e ∈ s.offscreen, e.2 < s.nextPattern ∧ (s.pattern e.2).key = .offscreen e.1
  sent : ∀ e ∈ s.out, e.1 < s.nextPattern ∧ e.2.details.count = s.entries e.1

structure Ledger (live : Nat → Prop) (s : GazeState) :
    Prop extends Log live s, Patterns live s where
  kept : ∀ g ∈ s.glances, g < s.nextGlance ∧ (s.glance g).qualified = true
  keptNodup : s.glances.Nodup
  current : ∀ g ∈ s.current, g < s.nextGlance

/-- The ledger of the open patterns. -/
abbrev Balanced (s : GazeState) : Prop := Ledger s.Opens s

/-- A glance is not used up: it is attributed to nothing, or to an open pattern of looks in any
direction. -/
def unattributed (s : GazeState) (g : Nat) : Bool :=
  s.attached.all fun e => e.2 ≠ g || (!s.isOff e.1 && (s.pattern e.1).isOpen)

namespace Ledger

variable {live : Nat → Prop} {s s' : GazeState} {g p : Nat}

theorem unattributed_iff (h : Balanced s) (hg : g ∈ s.glances) :
    s.unattributed g = true ↔ (s.glance g).consumed = false ∧
    (s.glance g).attr ≠ some .offscreen := by
  rw [unattributed, all_eq_true]
  constructor
  · intro hall
    have hfree : ∀ p, (p, g) ∈ s.attached → s.isOff p = false ∧ (s.pattern p).isOpen = true := by
      intro p hp
      simpa using hall (p, g) hp
    refine ⟨Bool.eq_false_iff.mpr fun hc => ?_, fun ha => ?_⟩
    · obtain ⟨p, hp, hlive⟩ := h.spent g hc
      exact hlive (hfree p hp).2
    · obtain ⟨p, hp, hoff⟩ := (h.attrOff g).mp ha
      exact absurd ((hfree p hp).1.symm.trans hoff) (by decide)
  · rintro ⟨hc, ha⟩ ⟨p, g'⟩ hp
    by_cases heq : g' = g
    · subst heq
      have hoff : s.isOff p = false := Bool.eq_false_iff.mpr fun ho => ha ((h.attrOff g').mpr ⟨p, hp, ho⟩)
      have hopen : (s.pattern p).isOpen = true := by
        by_contra hno
        exact absurd (hc.symm.trans (h.used g' hg ha p hp hno)) (by decide)
      simp [hoff, hopen]
    · simp [heq]

/-- What the ledger is about is the same; there may be new glances, which are attributed to
nothing. -/
structure Same (s s' : GazeState) : Prop where
  nextGlance : s.nextGlance ≤ s'.nextGlance
  glances : s'.glances = s.glances
  qualified : s'.qualified = s.qualified
  pattern : s'.pattern = s.pattern
  nextPattern : s'.nextPattern = s.nextPattern
  repeated : s'.repeated = s.repeated
  offscreen : s'.offscreen = s.offscreen
  attached : s'.attached = s.attached
  out : s'.out = s.out
  glance : ∀ g, ((s'.glance g).start = (s.glance g).start ∧ (s'.glance g).spot = (s.glance g).spot ∧
      (s'.glance g).qualified = (s.glance g).qualified ∧ (s'.glance g).attr = (s.glance g).attr ∧
      (s'.glance g).consumed = (s.glance g).consumed ∧ (s'.glance g).owner = (s.glance g).owner) ∨
    s.nextGlance ≤ g ∧ (s'.glance g).attr = none ∧ (s'.glance g).consumed = false ∧
    (s'.glance g).owner = none

namespace Same

theorem refl (s : GazeState) : Same s s :=
  ⟨le_rfl, rfl, rfl, rfl, rfl, rfl, rfl, rfl, rfl, fun _ => .inl ⟨rfl, rfl, rfl, rfl, rfl, rfl⟩⟩

theorem trans {s₁ s₂ s₃ : GazeState} (h : Same s₁ s₂) (h' : Same s₂ s₃) : Same s₁ s₃ := by
  refine ⟨h.nextGlance.trans h'.nextGlance, h'.glances.trans h.glances,
    h'.qualified.trans h.qualified,
    h'.pattern.trans h.pattern, h'.nextPattern.trans h.nextPattern, h'.repeated.trans h.repeated,
    h'.offscreen.trans h.offscreen, h'.attached.trans h.attached, h'.out.trans h.out, fun g => ?_⟩
  rcases h'.glance g with ⟨e₁, e₂, e₃, e₄, e₅, e₆⟩ | ⟨hge, hnew⟩
  · rw [e₁, e₂, e₃, e₄, e₅, e₆]
    exact h.glance g
  · exact .inr ⟨h.nextGlance.trans hge, hnew⟩

theorem old (h : Same s s') {g : Nat} (hg : g < s.nextGlance) :
    (s'.glance g).start = (s.glance g).start ∧
    (s'.glance g).spot = (s.glance g).spot ∧ (s'.glance g).qualified = (s.glance g).qualified ∧
    (s'.glance g).attr = (s.glance g).attr ∧ (s'.glance g).consumed = (s.glance g).consumed ∧
    (s'.glance g).owner = (s.glance g).owner :=
  (h.glance g).resolve_right fun hnew => absurd hnew.1 (Nat.not_le_of_lt hg)

/-- A glance's times change. -/
theorem setGlance (s : GazeState) (g : Nat) {x : Glance} (hstart : x.start = (s.glance g).start)
    (hspot : x.spot = (s.glance g).spot) (hqual : x.qualified = (s.glance g).qualified)
    (hattr : x.attr = (s.glance g).attr) (hcons : x.consumed = (s.glance g).consumed)
    (howner : x.owner = (s.glance g).owner) : Same s (s.setGlance g x) := by
  refine ⟨le_rfl, rfl, rfl, rfl, rfl, rfl, rfl, rfl, rfl, fun g' => .inl ?_⟩
  have heq : (s.setGlance g x).glance g' = if g' = g then x else s.glance g' :=
    Function.update_apply ..
  rw [heq]
  split
  next h => rw [h]; exact ⟨hstart, hspot, hqual, hattr, hcons, howner⟩
  next => exact ⟨rfl, rfl, rfl, rfl, rfl, rfl⟩

theorem eq (h : Same s s') : s' = { s with
    book := s'.book, glance := s'.glance, nextGlance := s'.nextGlance, current := s'.current
    lastScore := s'.lastScore } := by
  cases s'
  obtain ⟨-, rfl, rfl, rfl, rfl, rfl, rfl, rfl, rfl, -⟩ := h
  rfl

end Same

theorem same (h : Balanced s) (hs : Same s s') (hcurrent : ∀ g ∈ s'.current, g < s'.nextGlance) :
    Balanced s' := by
  have hopens : s'.Opens = s.Opens := by
    funext p
    rw [Opens, Opens, hs.pattern]
  have hold : ∀ {g}, g < s.nextGlance → _ := fun {g} hg => hs.old (g := g) hg
  have hnoentry : ∀ {g}, s.nextGlance ≤ g → ∀ p, (p, g) ∉ s.attached := fun hg p hp =>
    absurd (h.known _ hp).2.1 (Nat.not_lt_of_le hg)
  obtain ⟨hnext, -, -, -, -, -, -, -, -, hgl⟩ := id hs
  rw [Balanced, hopens, hs.eq]
  refine { h with
    known := fun e he => ?_, attr := fun g => ?_, attrOff := fun g => ?_, owned := fun g p hp => ?_
    owner := fun g p ha hp => ?_, spent := fun g hc => ?_, used := fun g hg ha => ?_, kept := fun g hg => ?_
    current := hcurrent }
  · obtain ⟨h₁, h₂, h₃⟩ := h.known e he
    exact ⟨h₁, h₂.trans_le hnext, (hold h₂).2.2.1.trans h₃⟩
  · rcases hgl g with ⟨-, -, -, heq, -⟩ | ⟨hge, heq, -⟩
    · exact (iff_of_eq (congrArg (· = none) heq)).trans (h.attr g)
    · exact ⟨fun _ => hnoentry hge, fun _ => heq⟩
  · rcases hgl g with ⟨-, -, -, heq, -⟩ | ⟨hge, heq, -⟩
    · exact (iff_of_eq (congrArg (· = some .offscreen) heq)).trans (h.attrOff g)
    · exact ⟨fun hc => absurd (heq.symm.trans hc) (by simp), fun ⟨p, hp, _⟩ => absurd hp (hnoentry hge p)⟩
  · rcases hgl g with ⟨-, -, -, -, -, heq⟩ | ⟨-, -, -, heq⟩
    · exact h.owned g p (heq.symm.trans hp)
    · exact absurd (heq.symm.trans hp) (by simp)
  · obtain ⟨-, -, -, heq, -, heq'⟩ := hold (h.known _ hp).2.1
    exact heq'.trans (h.owner g p (fun hc => ha (heq.trans hc)) hp)
  · rcases hgl g with ⟨-, -, -, -, heq, -⟩ | ⟨-, -, heq, -⟩
    · exact h.spent g (heq.symm.trans hc)
    · exact absurd (heq.symm.trans hc) (by decide)
  · obtain ⟨-, -, -, heq, heq', -⟩ := hold (h.kept g hg).1
    exact fun p hp hl => heq'.trans (h.used g hg (fun hc => ha (heq.trans hc)) p hp hl)
  · obtain ⟨hlt, hqual⟩ := h.kept g hg
    exact ⟨hlt.trans_le hnext, (hold hlt).2.2.1.trans hqual⟩

/-! ## Attributions -/

section

variable (kind : PatternKind)
include kind

theorem attached_attach (p g : Nat) (s : GazeState) :
    (s.attach kind p g).attached = s.attached ++ [(p, g)] := rfl

theorem mem_attach {p g : Nat} {s : GazeState} {e : Nat × Nat} :
    e ∈ (s.attach kind p g).attached ↔ e ∈ s.attached ∨ e = (p, g) := by
  rw [attached_attach, mem_append, mem_singleton]

theorem glance_attach (p g g' : Nat) (s : GazeState) : (s.attach kind p g).glance g' =
      if g' = g then { s.glance g with attr := some kind, owner := some p } else s.glance g' := by
  show Function.update s.glance g _ g' = _
  rw [Function.update_apply]

theorem pattern_attach (p g q : Nat) (s : GazeState) :
    ((s.attach kind p g).pattern q).isOpen = (s.pattern q).isOpen ∧
    ((s.attach kind p g).pattern q).key = (s.pattern q).key ∧
    ((s.attach kind p g).pattern q).count = if q = p then (s.pattern p).count + 1
    else (s.pattern q).count := by
  show (Function.update s.pattern p _ q).isOpen = _ ∧ (Function.update s.pattern p _ q).key = _ ∧
    (Function.update s.pattern p _ q).count = _
  rw [Function.update_apply]
  split
  next h => rw [h]; exact ⟨rfl, rfl, rfl⟩
  next => exact ⟨rfl, rfl, rfl⟩

theorem isOff_attach (p g q : Nat) (s : GazeState) : (s.attach kind p g).isOff q = s.isOff q := by
  rw [isOff, (pattern_attach kind p g q s).2.1, isOff]

theorem opens_attach (p g : Nat) (s : GazeState) : (s.attach kind p g).Opens = s.Opens :=
  funext fun q => congrArg (· = true) (pattern_attach kind p g q s).1

theorem glances_attach (p g q : Nat) (s : GazeState) : ((s.attach kind p g).pattern q).glances =
      if q = p then (if MAX_PATTERN_GLANCES < ((s.pattern p).glances ++ [g]).length
        then ((s.pattern p).glances ++ [g]).tail
        else (s.pattern p).glances ++ [g]) else (s.pattern q).glances := by
  show (Function.update s.pattern p _ q).glances = _
  rw [Function.update_apply]
  split <;> rfl

theorem last_attach (p g : Nat) (s : GazeState) :
    ((s.attach kind p g).pattern p).glances.getLast? = some g := by
  rw [glances_attach, if_pos rfl]
  split
  next hlong =>
    cases hgl : (s.pattern p).glances with
    | nil =>
      simp [hgl, MAX_PATTERN_GLANCES] at hlong
    | cons x xs =>
      exact getLast?_concat
  next => exact getLast?_concat

theorem lastEntry_attach (p g q : Nat) (s : GazeState) :
    (s.attach kind p g).lastEntry q = if q = p then some g else s.lastEntry q := by
  rw [lastEntry, attached_attach]
  by_cases h : p = q
  · simp [h]
  · simp [lastEntry, h, Ne.symm h]

theorem entries_attach (p g q : Nat) (s : GazeState) :
    (s.attach kind p g).entries q = if q = p then s.entries p + 1 else s.entries q := by
  rw [entries, attached_attach]
  by_cases h : p = q
  · simp [entries, h]
  · simp [entries, h, Ne.symm h]

end

theorem mem_glances_attach {kind : PatternKind} {p g q x : Nat} {s : GazeState}
    (h : x ∈ ((s.attach kind p g).pattern q).glances) :
    q = p ∧ x = g ∨ x ∈ (s.pattern q).glances := by
  rw [glances_attach] at h
  split at h
  next hq =>
    have hmem : x ∈ (s.pattern p).glances ++ [g] := by
      split at h
      · exact mem_of_mem_tail h
      · exact h
    rcases mem_append.mp hmem with hx | hx
    · exact .inr (hq ▸ hx)
    · exact .inl ⟨hq, mem_singleton.mp hx⟩
  next => exact .inr h

/-- The glance is attributed to no pattern of the kind, and to none at all if the kind is of looks
in any direction. -/
def Free (kind : PatternKind) (s : GazeState) (g : Nat) : Prop :=
  (s.glance g).attr = none ∨ kind = .offscreen ∧ (s.glance g).attr ≠ some .offscreen

section

variable {kind : PatternKind} (h : Log live s) (hfree : Free kind s g)
include h hfree

theorem no_entry (hk : some kind ≠ some .offscreen) (q : Nat) : (q, g) ∉ s.attached :=
  (h.attr g).mp (hfree.resolve_right fun hc => hk (congrArg some hc.1)) q

theorem no_kind (hkind : s.isOff p = decide (kind = .offscreen)) {q : Nat}
    (hq : (q, g) ∈ s.attached) : s.isOff q ≠ s.isOff p := by
  intro heq
  cases kind with
  | offscreen =>
    refine absurd ((h.attrOff g).mpr ⟨q, hq, heq.trans hkind⟩) ?_
    rcases hfree with hn | hn
    · rw [hn]; simp
    · exact hn.2
  | repeated => exact no_entry h hfree (by simp) q hq

end

theorem attach_log (h : Ledger live s) (kind : PatternKind) (hp : live p)
    (hkind : s.isOff p = decide (kind = .offscreen)) (hg : g ∈ s.glances) (hfree : Free kind s g) :
    Log live (s.attach kind p g) := by
  have hother : ∀ {q g'}, g' ≠ g → (q, g') ∈ (s.attach kind p g).attached → (q, g') ∈ s.attached :=
    fun hne hq =>
    ((mem_attach kind).mp hq).resolve_right fun heq => hne (Prod.mk.inj heq).2
  have hself : (p, g) ∈ (s.attach kind p g).attached := (mem_attach kind).mpr (.inr rfl)
  have hmono : ∀ {e}, e ∈ s.attached → e ∈ (s.attach kind p g).attached :=
    fun he => (mem_attach kind).mpr (.inl he)
  constructor
  · intro e he
    have hcase : e.1 < s.nextPattern ∧ e.2 < s.nextGlance ∧ (s.glance e.2).qualified = true := by
      rcases (mem_attach kind).mp he with he | rfl
      · exact h.known e he
      · exact ⟨h.made p hp, h.kept g hg⟩
    refine ⟨hcase.1, hcase.2.1, ?_⟩
    rw [glance_attach]
    split
    · exact (h.kept g hg).2
    · exact hcase.2.2
  · intro g'
    rw [glance_attach]
    split
    next hge =>
      subst hge
      exact ⟨fun hc => (by cases hc), fun hq => absurd hself (hq p)⟩
    next hge => exact (h.attr g').trans (forall_congr' fun q => not_congr ⟨hmono, hother hge⟩)
  · intro g'
    rw [glance_attach]
    simp only [isOff_attach]
    split
    next hge =>
      subst hge
      refine ⟨fun ha => ⟨p, hself, hkind.trans (decide_eq_true (Option.some_inj.mp ha))⟩, ?_⟩
      rintro ⟨q, hq, ho⟩
      have hpo : s.isOff p = true := by
        rcases (mem_attach kind).mp hq with hq | heq
        · cases hk : kind with
          | offscreen => rw [hkind, hk]; rfl
          | repeated => exact absurd hq (no_entry h.toLog hfree (by simp [hk]) q)
        · exact (Prod.mk.inj heq).1 ▸ ho
      exact congrArg some (of_decide_eq_true (hkind.symm.trans hpo))
    next hge => exact (h.attrOff g').trans (exists_congr fun q => and_congr_left fun _ => ⟨hmono, hother hge⟩)
  · intro q q' g' hq hq' heq
    rw [isOff_attach, isOff_attach] at heq
    rcases (mem_attach kind).mp hq with hold | hnew <;> rcases (mem_attach kind).mp hq' with hold' | hnew'
    · exact h.once q q' g' hold hold' heq
    · obtain ⟨rfl, rfl⟩ := Prod.mk.inj hnew'
      exact absurd heq (no_kind h.toLog hfree hkind hold)
    · obtain ⟨rfl, rfl⟩ := Prod.mk.inj hnew
      exact absurd heq.symm (no_kind h.toLog hfree hkind hold')
    · exact (Prod.mk.inj hnew).1.trans (Prod.mk.inj hnew').1.symm
  · refine List.Nodup.append h.nodup (nodup_singleton _) (disjoint_singleton.mpr fun hq => ?_)
    exact no_kind h.toLog hfree hkind hq rfl
  · intro g' q hq
    rw [glance_attach] at hq
    split at hq
    next hge => rw [hge, ← Option.some_inj.mp hq]; exact hself
    next => exact hmono (h.owned g' q hq)
  · intro g' q ha hq
    rw [glance_attach] at ha ⊢
    split at ha
    next hge =>
      rw [if_pos hge]
      rcases (mem_attach kind).mp hq with hq | heq
      · exact absurd (hge ▸ hq) (no_entry h.toLog hfree ha q)
      · rw [(Prod.mk.inj heq).1]
    next hge =>
      rw [if_neg hge]
      exact h.owner g' q ha (hother hge hq)
  · intro g' hc
    have hc : (s.glance g').consumed = true := by
      rw [glance_attach] at hc
      split at hc
      next hge => rw [hge]; exact hc
      next => exact hc
    obtain ⟨q, hq, hl⟩ := h.spent g' hc
    exact ⟨q, hmono hq, hl⟩
  · intro g' hg' ha q hq hl
    rw [glance_attach] at ha ⊢
    split at ha
    next hge =>
      rcases (mem_attach kind).mp hq with hq | heq
      · exact absurd (hge ▸ hq) (no_entry h.toLog hfree ha q)
      · exact absurd ((Prod.mk.inj heq).1 ▸ hp) hl
    next hge =>
      rw [if_neg hge]
      exact h.used g' hg' ha q (hother hge hq) hl

theorem attach_patterns (h : Patterns live s) (kind : PatternKind) (hp : live p)
    (hout : ∀ e ∈ s.out, e.1 ≠ p) : Patterns live (s.attach kind p g) := by
  constructor
  · intro q hq
    rw [(pattern_attach ..).2.2, entries_attach]
    split
    · rw [h.count p hp]
    · exact h.count q hq
  · intro q hq
    rw [lastEntry_attach]
    split
    next hqp => rw [hqp, last_attach]
    next hqp =>
      rw [glances_attach, if_neg hqp]
      exact h.last q hq
  · exact h.made
  · intro q x hx
    refine (mem_attach kind).mpr ?_
    rcases mem_glances_attach hx with ⟨rfl, rfl⟩ | hx
    · exact .inr rfl
    · exact .inl (h.listed q x hx)
  · rw [isOff_attach]; exact h.repeatedOff
  · intro e he
    rw [(pattern_attach ..).2.1]
    exact h.offscreenKey e he
  · intro e he
    rw [entries_attach, if_neg (hout e he)]
    exact h.sent e he

theorem attach (h : Ledger live s) (kind : PatternKind) (hp : live p)
    (hkind : s.isOff p = decide (kind = .offscreen)) (hg : g ∈ s.glances) (hfree : Free kind s g)
    (hout : ∀ e ∈ s.out, e.1 ≠ p) : Ledger live (s.attach kind p g) := by
  refine ⟨h.attach_log kind hp hkind hg hfree, attach_patterns h.toPatterns kind hp hout,
    fun g' hg' => ?_,
    h.keptNodup, h.current⟩
  obtain ⟨hlt, hqual⟩ := h.kept g' hg'
  refine ⟨hlt, ?_⟩
  rw [glance_attach]
  split
  · exact (h.kept g hg).2
  · exact hqual

theorem attach_open (h : Balanced s) (kind : PatternKind) (hp : (s.pattern p).isOpen = true)
    (hkind : s.isOff p = decide (kind = .offscreen)) (hg : g ∈ s.glances) (hfree : Free kind s g)
    (hout : ∀ e ∈ s.out, e.1 ≠ p) : Balanced (s.attach kind p g) := by
  rw [Balanced, opens_attach]
  exact h.attach kind hp hkind hg hfree hout

/-- The glances of a new pattern. -/
theorem attachAll (h : Ledger live s) (kind : PatternKind) {gs : List Nat} (hp : live p)
    (hkind : s.isOff p = decide (kind = .offscreen)) (hnodup : gs.Nodup)
    (hgs : ∀ g ∈ gs, g ∈ s.glances ∧ Free kind s g) (hout : ∀ e ∈ s.out, e.1 ≠ p) :
    Ledger live (s.attachAll kind p gs) := by
  induction gs generalizing s with
  | nil => exact h
  | cons g gs ih =>
    obtain ⟨hg, hnodup⟩ := nodup_cons.mp hnodup
    have hfirst := hgs g (mem_cons_self ..)
    refine ih (h.attach kind hp hkind hfirst.1 hfirst.2 hout) ((isOff_attach ..).trans hkind) hnodup
      (fun g' hg' => ?_) hout
    rw [Free, glance_attach, if_neg (by rintro rfl; exact hg hg')]
    exact hgs g' (mem_cons_of_mem _ hg')

/-! ## Patterns -/

/-- A new pattern, that is closed. -/
theorem newPattern (h : Ledger live s) (key : PatternKey) (startedAt : ℚ) (spot : Spot)
    (dir : GazeDirection) : Ledger live (s.newPattern (.new key startedAt spot dir)) := by
  have hpat : ∀ q < s.nextPattern, (s.newPattern (.new key startedAt spot dir)).pattern q =
      s.pattern q := fun q hq =>
    Function.update_of_ne hq.ne ..
  have hisOff : ∀ q < s.nextPattern,
      (s.newPattern (.new key startedAt spot dir)).isOff q = s.isOff q := fun q hq => by
    rw [isOff, hpat q hq, isOff]
  have hlt : ∀ {q g}, (q, g) ∈ s.attached → q < s.nextPattern := fun hq => (h.known _ hq).1
  refine { h with
    known := fun e he => ⟨Nat.lt_succ_of_lt (h.known e he).1, (h.known e he).2⟩, attrOff := fun g => ?_
    once := fun q q' g hq hq' heq => ?_, count := fun q hq => ?_, last := fun q hq => ?_
    made := fun q hq => Nat.lt_succ_of_lt (h.made q hq), listed := fun q g hg => ?_
    repeatedOff := ⟨Nat.lt_succ_of_lt h.repeatedOff.1, (hisOff _ h.repeatedOff.1).trans h.repeatedOff.2⟩
    offscreenKey := fun e he => ?_
    sent := fun e he => ⟨Nat.lt_succ_of_lt (h.sent e he).1, (h.sent e he).2⟩ }
  · exact (h.attrOff g).trans (exists_congr fun q => and_congr_right fun hq => by rw [hisOff q (hlt hq)])
  · rw [hisOff q (hlt hq), hisOff q' (hlt hq')] at heq
    exact h.once q q' g hq hq' heq
  · rw [hpat q (h.made q hq)]
    exact h.count q hq
  · rw [hpat q (h.made q hq)]
    exact h.last q hq
  · by_cases hqn : q = s.nextPattern
    · subst hqn
      rw [show (s.newPattern (.new key startedAt spot dir)).pattern s.nextPattern =
        .new key startedAt spot dir from
        Function.update_self ..] at hg
      cases hg
    · rw [show (s.newPattern (.new key startedAt spot dir)).pattern q = s.pattern q from
        Function.update_of_ne hqn ..] at hg
      exact h.listed q g hg
  · obtain ⟨hl, hkey⟩ := h.offscreenKey e he
    exact ⟨Nat.lt_succ_of_lt hl, (congrArg Pattern.key (hpat e.2 hl)).trans hkey⟩

theorem opens_newPattern (h : Balanced s) (key : PatternKey) (startedAt : ℚ) (spot : Spot)
    (dir : GazeDirection) : (s.newPattern (.new key startedAt spot dir)).Opens = s.Opens := by
  funext q
  show ((Function.update s.pattern s.nextPattern _ q).isOpen = true) = ((s.pattern q).isOpen = true)
  rw [Function.update_apply]
  split
  next heq =>
    have hno : ¬ (s.pattern q).isOpen = true := fun ho => absurd (h.made q ho) (heq ▸ lt_irrefl _)
    simp [Pattern.new, hno]
  next => rfl

/-- The new pattern is being made. -/
theorem makePattern (h : Balanced s) (key : PatternKey) (startedAt : ℚ) (spot : Spot)
    (dir : GazeDirection) :
    Ledger (fun q => (s.newPattern (.new key startedAt spot dir)).Opens q ∨ q = s.nextPattern)
      (s.newPattern (.new key startedAt spot dir)) := by
  rw [h.opens_newPattern]
  have hnew := h.newPattern key startedAt spot dir
  have hne : ∀ q g, (q, g) ∈ s.attached → q ≠ s.nextPattern := fun q g hq => (h.known _ hq).1.ne
  have hself : (s.newPattern (.new key startedAt spot dir)).pattern s.nextPattern =
      .new key startedAt spot dir :=
    Function.update_self ..
  refine { hnew with
    spent := fun g hc => ?_, used := fun g hg ha q hq hl => hnew.used g hg ha q hq fun hl' => hl (.inl hl')
    count := fun q hq => ?_, last := fun q hq => ?_
    made := fun q hq => hq.elim (hnew.made q) fun heq => heq ▸ Nat.lt_succ_self _ }
  · obtain ⟨q, hq, hl⟩ := hnew.spent g hc
    exact ⟨q, hq, fun hl' => hl (hl'.resolve_right (hne q g hq))⟩
  · rcases hq with hq | rfl
    · exact hnew.count q hq
    · rw [hself]
      exact (countP_eq_zero.mpr fun e he => by simpa using hne e.1 e.2 he).symm
  · rcases hq with hq | rfl
    · exact hnew.last q hq
    · have hnil : s.attached.filter (·.1 = s.nextPattern) = [] :=
        filter_eq_nil_iff.mpr fun e he => by simpa using hne e.1 e.2 he
      rw [hself]
      exact (congrArg (fun l : List (Nat × Nat) => l.getLast?.map (·.2)) hnil).symm

theorem setPattern (h : Ledger live s) {pat : Pattern} (hkey : pat.key = (s.pattern p).key)
    (hlive : live p → pat.glances = (s.pattern p).glances ∧ pat.count = (s.pattern p).count)
    (hgl : pat.glances ⊆ (s.pattern p).glances) : Ledger live (s.setPattern p pat) := by
  have hpat : ∀ q, (s.setPattern p pat).pattern q = if q = p then pat else s.pattern q := fun q =>
    Function.update_apply ..
  have hkeys : ∀ q, ((s.setPattern p pat).pattern q).key = (s.pattern q).key := by
    intro q
    rw [hpat]
    split
    next hq => rw [hkey, hq]
    next => rfl
  have hisOff : (s.setPattern p pat).isOff = s.isOff := by
    funext q
    rw [isOff, hkeys, isOff]
  refine { h with
    attrOff := by rw [hisOff]; exact h.attrOff, once := by rw [hisOff]; exact h.once
    count := fun q hq => ?_, last := fun q hq => ?_, listed := fun q g hg => ?_
    repeatedOff := by rw [hisOff]; exact h.repeatedOff
    offscreenKey := fun e he => ⟨(h.offscreenKey e he).1, (hkeys e.2).trans (h.offscreenKey e he).2⟩ }
  · rw [hpat]
    split
    next hqp => rw [(hlive (hqp ▸ hq)).2, ← hqp]; exact h.count q hq
    next => exact h.count q hq
  · rw [hpat]
    split
    next hqp => rw [(hlive (hqp ▸ hq)).1, ← hqp]; exact h.last q hq
    next => exact h.last q hq
  · rw [hpat] at hg
    split at hg
    next hqp => rw [hqp]; exact h.listed p g (hgl hg)
    next => exact h.listed q g hg

theorem send (h : Ledger live s) (hp : live p) (us : List GazeUpdate)
    (hus : ∀ u ∈ us, u.details.count = (s.pattern p).count) (book : EpisodeBook PatternKey) :
    Ledger live { s with book := book, out := s.out ++ us.map fun u => (p, u) } := by
  refine { h with sent := fun e he => ?_ }
  rcases mem_append.mp he with he | he
  · exact h.sent e he
  · obtain ⟨u, hu, rfl⟩ := mem_map.mp he
    exact ⟨h.made p hp, (hus u hu).trans (h.count p hp)⟩

theorem consume_cases (h : Ledger live s) (p g : Nat) : (s.consume p).glance g = s.glance g ∨
    (s.consume p).glance g = { s.glance g with consumed := true } ∧ (p, g) ∈ s.attached := by
  show (if _ then _ else _) = _ ∨ (if _ then _ else _) = _ ∧ _
  split
  next hc => exact .inr ⟨rfl, hc.elim (h.listed p g) fun hc => h.owned g p hc.2⟩
  next => exact .inl rfl

theorem consume (h : Ledger live s) (p : Nat) : Ledger (fun q => live q ∧ q ≠ p) (s.consume p) := by
  have hsame : ∀ g, ((s.consume p).glance g).qualified = (s.glance g).qualified ∧
      ((s.consume p).glance g).attr = (s.glance g).attr ∧
      ((s.consume p).glance g).owner = (s.glance g).owner := by
    intro g
    rcases h.consume_cases p g with heq | ⟨heq, -⟩ <;> rw [heq] <;> exact ⟨rfl, rfl, rfl⟩
  refine { h with
    known := fun e he => ?_, attr := fun g => ?_, attrOff := fun g => ?_, owned := fun g q hq => ?_
    owner := fun g q ha hq => ?_, spent := fun g hc => ?_, used := fun g hg ha q hq hl => ?_
    count := fun q hq => h.count q hq.1, last := fun q hq => h.last q hq.1, made := fun q hq => h.made q hq.1
    kept := fun g hg => ⟨(h.kept g hg).1, (hsame g).1.trans (h.kept g hg).2⟩ }
  · obtain ⟨h₁, h₂, h₃⟩ := h.known e he
    exact ⟨h₁, h₂, (hsame e.2).1.trans h₃⟩
  · exact (iff_of_eq (congrArg (· = none) (hsame g).2.1)).trans (h.attr g)
  · exact (iff_of_eq (congrArg (· = some .offscreen) (hsame g).2.1)).trans (h.attrOff g)
  · exact h.owned g q ((hsame g).2.2.symm.trans hq)
  · exact (hsame g).2.2.trans (h.owner g q (fun hc => ha ((hsame g).2.1.trans hc)) hq)
  · rcases h.consume_cases p g with heq | ⟨-, hentry⟩
    · obtain ⟨q, hq, hl⟩ := h.spent g ((congrArg Glance.consumed heq).symm.trans hc)
      exact ⟨q, hq, fun hl' => hl hl'.1⟩
    · exact ⟨p, hentry, fun hl => hl.2 rfl⟩
  · have ha : (s.glance g).attr ≠ some .offscreen := fun hc => ha ((hsame g).2.1.trans hc)
    by_cases hqp : q = p
    · show Glance.consumed (if _ then _ else _) = true
      rw [if_pos (.inr ⟨hg, hqp ▸ h.owner g q ha hq⟩)]
    · have hused := h.used g hg ha q hq fun hl' => hl ⟨hl', hqp⟩
      rcases h.consume_cases p g with heq | ⟨heq, -⟩ <;> rw [heq]
      exact hused

theorem close (h : Balanced s) (p : Nat) {closed : Pattern}
    (hclosed : closed = { s.pattern p with isOpen := false, glances := [], count := 0 }) :
    Balanced ((s.consume p).setPattern p closed) := by
  have hopens : ((s.consume p).setPattern p closed).Opens = fun q => s.Opens q ∧ q ≠ p := by
    funext q
    have hpat : ((s.consume p).setPattern p closed).pattern q = if q = p then closed else s.pattern q :=
      Function.update_apply ..
    rw [Opens, hpat]
    by_cases hq : q = p
    · simp [hq, hclosed]
    · simp [hq, Opens]
  rw [Balanced, hopens]
  refine (h.consume p).setPattern (by rw [hclosed]; rfl) (fun hl => absurd rfl hl.2) ?_
  rw [hclosed]
  exact nil_subset _

/-! ## A glance that qualifies -/

theorem trim_sublist (cfg : GazeConfig) (s : GazeState) (t : ℚ) (g : Nat) (l : List Nat) :
    List.Sublist (trim cfg s t g l) l := by
  induction l with
  | nil => exact .refl _
  | cons x xs ih =>
    rw [trim]
    split
    · exact ih.cons x
    · exact .refl _

theorem note (h : Balanced s) (hg : g < s.nextGlance) (hqual : (s.glance g).qualified = false)
    (cfg : GazeConfig) (spot : Spot) (t : ℚ) : Balanced (s.note cfg spot t g) := by
  have hnew : g ∉ s.glances := fun hk => absurd (hqual.symm.trans (h.kept g hk).2) (by decide)
  have hnone : ∀ p, (p, g) ∉ s.attached := fun p hp =>
    absurd (hqual.symm.trans (h.known (p, g) hp).2.2) (by decide)
  have hsame : ∀ g', ((s.note cfg spot t g).glance g').attr = (s.glance g').attr ∧
      ((s.note cfg spot t g).glance g').consumed = (s.glance g').consumed ∧
      ((s.note cfg spot t g).glance g').owner = (s.glance g').owner ∧
      ((s.glance g').qualified = true ∨ g' = g → ((s.note cfg spot t g).glance g').qualified = true) := by
    intro g'
    show (Function.update s.glance g _ g').attr = _ ∧ (Function.update s.glance g _ g').consumed = _ ∧
      (Function.update s.glance g _ g').owner = _ ∧ (_ → (Function.update s.glance g _ g').qualified = _)
    rw [Function.update_apply]
    split
    next heq => rw [heq]; exact ⟨rfl, rfl, rfl, fun _ => rfl⟩
    next heq => exact ⟨rfl, rfl, rfl, fun hq => hq.resolve_right heq⟩
  have hkept : List.Sublist (s.note cfg spot t g).glances (s.glances ++ [g]) := trim_sublist ..
  have hmem : ∀ g' ∈ (s.note cfg spot t g).glances, g' ∈ s.glances ∨ g' = g := fun g' hg' =>
    (mem_append.mp (hkept.subset hg')).imp id mem_singleton.mp
  refine { h with
    known := fun e he => ?_, attr := fun g' => ?_, attrOff := fun g' => ?_, owned := fun g' q hq => ?_
    owner := fun g' q ha hq => ?_, spent := fun g' hc => h.spent g' ((hsame g').2.1.symm.trans hc)
    used := fun g' hg' ha q hq hl => ?_, kept := fun g' hg' => ?_, keptNodup := ?_ }
  · obtain ⟨h₁, h₂, h₃⟩ := h.known e he
    exact ⟨h₁, h₂, (hsame e.2).2.2.2 (.inl h₃)⟩
  · rw [(hsame g').1]
    exact h.attr g'
  · rw [(hsame g').1]
    exact h.attrOff g'
  · exact h.owned g' q ((hsame g').2.2.1.symm.trans hq)
  · exact (hsame g').2.2.1.trans (h.owner g' q ((hsame g').1 ▸ ha) hq)
  · rw [(hsame g').2.1]
    rcases hmem g' hg' with hg' | rfl
    · exact h.used g' hg' ((hsame g').1 ▸ ha) q hq hl
    · exact absurd hq (hnone q)
  · rcases hmem g' hg' with hg' | rfl
    · exact ⟨(h.kept g' hg').1, (hsame g').2.2.2 (.inl (h.kept g' hg').2)⟩
    · exact ⟨hg, (hsame g').2.2.2 (.inr rfl)⟩
  · refine hkept.nodup (List.Nodup.append h.keptNodup (nodup_singleton g) ?_)
    exact disjoint_singleton.mpr hnew

end Ledger

end GazeState

end SmartProctoring
