import Mathlib.Data.List.Infix
import SmartProctoring.Detection.Episodes
import SmartProctoring.Lib.Run

/-!
# What a book has sent

The updates that a book of episodes has sent, in order.  Those of one episode carry the versions 1,
2, 3, …, whatever is sent of other episodes in between, and none ends before it starts (`BookLog`).
Each operation either sends nothing and leaves the slots, or sends one update of the slot it changes
(`Emitted`), and that keeps it so.

The ids that `idFactory` gives are taken to differ from one another, as those of `crypto.randomUUID`
do.
-/

set_option autoImplicit false

universe u v

namespace SmartProctoring

open List Option

variable {κ : Type v} {δ : Type u}

/-- The versions of the updates of an episode. -/
def versionsOf (log : List (EpisodeUpdate δ)) (id : String) : List Nat :=
  (log.filter (·.episodeId = id)).map (·.version)

theorem versionsOf_concat (log : List (EpisodeUpdate δ)) (u : EpisodeUpdate δ) (id : String) :
    versionsOf (log ++ [u]) id = if u.episodeId = id then versionsOf log id ++ [u.version]
    else versionsOf log id := by
  split
  next h => simp [versionsOf, h]
  next h => simp [versionsOf, h]

/-- The last update of the episode did not close it. -/
def isLive (log : List (EpisodeUpdate δ)) (id : String) : Bool :=
  ((log.filter (·.episodeId = id)).getLast?).any (·.phase ≠ .close)

theorem isLive_concat (log : List (EpisodeUpdate δ)) (u : EpisodeUpdate δ) (id : String) :
    isLive (log ++ [u]) id = if u.episodeId = id then decide (u.phase ≠ .close)
    else isLive log id := by
  rw [isLive]
  split
  next h => simp [h]
  next h => simp [isLive, h]

/-- The log of a book. -/
structure BookLog (b : EpisodeBook κ) (log : List (EpisodeUpdate δ)) : Prop where
  issued : ∀ u ∈ log, ∃ n < b.issued, u.episodeId = b.cfg.idFactory n
  slots : ∀ key s, b.slots key = some s →
    (∃ n < b.issued, s.id = b.cfg.idFactory n) ∧ versionsOf log s.id = List.range' 1 s.version
  apart : ∀ key key' s s', b.slots key = some s → b.slots key' = some s' → s.id = s'.id → key = key'
  versions : ∀ id, ∃ n, versionsOf log id = List.range' 1 n
  live : ∀ id, isLive log id = true → ∃ key s, b.slots key = some s ∧ s.id = id ∧ s.isOpen = true
  inOrder : ∀ u ∈ log, ∀ e ∈ u.endedAt, u.startedAt ≤ e

variable [DecidableEq κ]

/-- The update `u` is sent of the slot under `key`: of the episode that was there, or of a new
one. -/
inductive Emitted (b : EpisodeBook κ) (key : κ) (type : EventType) (u : EpisodeUpdate δ) :
    EpisodeBook κ → Prop
  | goesOn {s s' : EpisodeSlot} {data : EpisodeData δ} {phase : EpisodePhase}
      {shot : Option SnapshotKind}
      (hs : b.slots key = some s) (hid : s'.id = s.id) (hversion : s'.version = s.version + 1)
      (htype : s'.type = s.type) (hopen : s'.isOpen = decide (phase ≠ .close))
      (hu : u = s'.emit phase data shot) : Emitted b key type u (b.put key s')
  | starts {s' : EpisodeSlot} {data : EpisodeData δ} {phase : EpisodePhase}
      {shot : Option SnapshotKind}
      (hfree : b.isOpen key = false) (hid : s'.id = b.cfg.idFactory b.issued)
      (hversion : s'.version = 1)
      (htype : s'.type = type) (hopen : s'.isOpen = decide (phase ≠ .close))
      (hu : u = s'.emit phase data shot) :
      Emitted b key type u { b.put key s' with issued := b.issued + 1 }

namespace EpisodeBook

variable (b : EpisodeBook κ) (key : κ) (type : EventType)

theorem begin_emitted (startedAt t : ℚ) (data : EpisodeData δ) (material : String) :
    Emitted b key type (b.begin key type startedAt t data material).2.1
      (b.begin key type startedAt t data material).1 := by
  have hnew (hfree : b.isOpen key = false) :
      Emitted b key type (b.openNew key type startedAt t data material).2.1
      (b.openNew key type startedAt t data material).1 := .starts hfree rfl rfl rfl rfl rfl
  rw [begin]
  cases hs : b.slots key with
  | none => exact hnew (by simp [isOpen, hs])
  | some prev =>
    dsimp only
    split
    next hopen => exact .goesOn hs rfl rfl rfl (hopen.trans (by decide)) rfl
    next hopen =>
      split
      · exact .goesOn hs rfl rfl rfl rfl rfl
      · exact hnew (by simp [isOpen, hs, hopen])

theorem touch_emitted (t : ℚ) (material : String) (make : EpisodeData δ) (peak : Bool) :
    b.touch key t material make peak = (b, none) ∨
      ∃ u, (b.touch key t material make peak).2 = some u ∧ u.phase ≠ .close ∧
        Emitted b key type u (b.touch key t material make peak).1 := by
  rw [touch]
  cases hs : b.slots key with
  | none => exact .inl rfl
  | some s =>
    dsimp only
    split
    next hopen =>
      refine .inr ⟨_, rfl, by simp [EpisodeSlot.emit], .goesOn hs rfl rfl rfl ?_ rfl⟩
      exact (Bool.and_eq_true_iff.mp hopen).1
    next => exact .inl rfl

theorem end_emitted (endedAt t : ℚ) (data : EpisodeData δ) :
    b.isOpen key = false ∧ b.end key endedAt t data = (b, none) ∨
      ∃ u, (b.end key endedAt t data).2 = some u ∧ u.phase = .close ∧
        Emitted b key type u (b.end key endedAt t data).1 := by
  rw [EpisodeBook.end, isOpen]
  cases hs : b.slots key with
  | none => exact .inl ⟨rfl, rfl⟩
  | some s =>
    dsimp only
    split
    next hopen => exact .inr ⟨_, rfl, rfl, .goesOn hs rfl rfl rfl rfl rfl⟩
    next hopen => exact .inl ⟨by simpa using hopen, rfl⟩

end EpisodeBook

namespace Emitted

variable {b b' : EpisodeBook κ} {key key' : κ} {type : EventType} {u : EpisodeUpdate δ}

section

variable (h : Emitted b key type u b')
include h

theorem slots_other (hne : key' ≠ key) : b'.slots key' = b.slots key' := by
  cases h with
  | goesOn | starts => exact Function.update_of_ne hne ..

theorem isOpen_other (hne : key' ≠ key) : b'.isOpen key' = b.isOpen key' := by
  rw [EpisodeBook.isOpen, h.slots_other hne, EpisodeBook.isOpen]

theorem isOpen_self : b'.isOpen key = decide (u.phase ≠ .close) := by
  cases h with
  | goesOn hs hid hversion htype hopen hu =>
    rw [EpisodeBook.isOpen, EpisodeBook.slots_put, hu]
    exact hopen
  | starts hfree hid hversion htype hopen hu =>
    rw [hu]
    refine Eq.trans ?_ hopen
    exact congrArg (Option.any _) (EpisodeBook.slots_put b key _)

theorem slot :
    ∃ s', b'.slots key = some s' ∧ u.episodeId = s'.id ∧ u.type = s'.type ∧ u.version = s'.version ∧
      (s'.type = type ∨ ∃ s, b.slots key = some s ∧ s'.type = s.type) := by
  cases h with
  | goesOn hs hid hversion htype hopen hu =>
    subst hu
    exact ⟨_, EpisodeBook.slots_put .., rfl, rfl, rfl, .inr ⟨_, hs, htype⟩⟩
  | starts hfree hid hversion htype hopen hu =>
    subst hu
    exact ⟨_, EpisodeBook.slots_put b key _, rfl, rfl, rfl, .inl htype⟩

end

end Emitted

theorem emit_inOrder (s : EpisodeSlot) (phase : EpisodePhase) (data : EpisodeData δ)
    (shot : Option SnapshotKind) :
    ∀ e ∈ (s.emit phase data shot).endedAt, (s.emit phase data shot).startedAt ≤ e := by
  intro e he
  rw [EpisodeSlot.emit] at he
  split at he
  · cases he
  · exact s.started_le e he

namespace BookLog

variable {b b' : EpisodeBook κ} {key : κ} {type : EventType} {u : EpisodeUpdate δ}
    {log : List (EpisodeUpdate δ)}

omit [DecidableEq κ] in
theorem new (cfg : BookConfig) : BookLog (EpisodeBook.new cfg : EpisodeBook κ)
    ([] : List (EpisodeUpdate δ)) where
  issued u hu := by cases hu
  slots key s hs := by cases hs
  apart key key' s s' hs := by cases hs
  versions id := ⟨0, rfl⟩
  live id h := by cases h
  inOrder u hu := by cases hu

omit [DecidableEq κ] in
theorem versionsOf_fresh (h : BookLog b log) (hinj : Function.Injective b.cfg.idFactory) :
    versionsOf log (b.cfg.idFactory b.issued) = [] := by
  rw [versionsOf, map_eq_nil_iff, filter_eq_nil_iff]
  intro u hu heq
  obtain ⟨n, hn, hid⟩ := h.issued u hu
  have := hinj ((of_decide_eq_true heq).symm.trans hid)
  omega

theorem append (h : BookLog b log) {s' : EpisodeSlot} {data : EpisodeData δ} {phase : EpisodePhase}
    {shot : Option SnapshotKind} {issued : Nat} (hle : b.issued ≤ issued)
    (hissued : ∃ n < issued, s'.id = b.cfg.idFactory n)
    (hnext : versionsOf log s'.id ++ [s'.version] = range' 1 s'.version)
    (hother : ∀ k r, k ≠ key → b.slots k = some r → s'.id ≠ r.id)
    (hopen : s'.isOpen = decide (phase ≠ .close))
    (hself : ∀ r, b.slots key = some r → r.isOpen = true → s'.id = r.id) :
    BookLog { b.put key s' with issued := issued } (log ++ [s'.emit phase data shot]) := by
  have hslot : ∀ k r, (b.put key s').slots k = some r → k = key ∧ r = s' ∨ k ≠ key ∧ b.slots k = some r := by
    intro k r hr
    by_cases hk : k = key
    · subst hk
      exact .inl ⟨rfl, some_inj.mp ((EpisodeBook.slots_put ..).symm.trans hr).symm⟩
    · exact .inr ⟨hk, (Function.update_of_ne hk ..).symm.trans hr⟩
  have hversions : ∀ id, versionsOf (log ++ [s'.emit phase data shot]) id =
      if s'.id = id then range' 1 s'.version else versionsOf log id := by
    intro id
    rw [versionsOf_concat]
    by_cases heq : s'.id = id
    · rw [if_pos heq]
      subst heq
      exact (if_pos rfl).trans hnext
    · rw [if_neg heq]
      exact if_neg heq
  refine ⟨?_, ?_, ?_, ?_, ?_, ?_⟩
  · intro u hu
    rcases mem_snoc.1 hu with hu | rfl
    · obtain ⟨n, hn, hid⟩ := h.issued u hu
      exact ⟨n, hn.trans_le hle, hid⟩
    · exact hissued
  · intro k r hr
    rw [hversions]
    rcases hslot k r hr with ⟨rfl, rfl⟩ | ⟨hk, hr⟩
    · exact ⟨hissued, if_pos rfl⟩
    · obtain ⟨⟨n, hn, hid⟩, hv⟩ := h.slots k r hr
      exact ⟨⟨n, hn.trans_le hle, hid⟩, (if_neg (hother k r hk hr)).trans hv⟩
  · intro k k' r r' hr hr' heq
    rcases hslot k r hr with ⟨hk, hr₁⟩ | ⟨hk, hr₁⟩ <;> rcases hslot k' r' hr' with ⟨hk', hr₁'⟩ | ⟨hk', hr₁'⟩
    · exact hk.trans hk'.symm
    · exact absurd (hr₁ ▸ heq) (hother k' r' hk' hr₁')
    · exact absurd (hr₁' ▸ heq.symm) (hother k r hk hr₁)
    · exact h.apart k k' r r' hr₁ hr₁' heq
  · intro id
    rw [hversions]
    split
    · exact ⟨s'.version, rfl⟩
    · exact h.versions id
  · intro id hlive
    rw [isLive_concat] at hlive
    by_cases heq : s'.id = id
    · refine ⟨key, s', EpisodeBook.slots_put b key s', heq, hopen.trans ?_⟩
      exact (if_pos heq).symm.trans hlive
    · obtain ⟨k, r, hr, hid, ho⟩ := h.live id ((if_neg heq).symm.trans hlive)
      have hk : k ≠ key := by
        rintro rfl
        exact heq ((hself r hr ho).trans hid)
      exact ⟨k, r, (Function.update_of_ne hk ..).trans hr, hid, ho⟩
  · intro u hu
    rcases mem_snoc.1 hu with hu | rfl
    · exact h.inOrder u hu
    · exact emit_inOrder s' phase data shot

theorem emitted (h : BookLog b log) (hinj : Function.Injective b.cfg.idFactory)
    (he : Emitted b key type u b') : BookLog b' (log ++ [u]) := by
  cases he with
  | @goesOn s s' data phase shot hs hid hversion htype hopen hu =>
    obtain ⟨hissued, hversions⟩ := h.slots key s hs
    rw [hu]
    refine h.append le_rfl (hid ▸ hissued) ?_ (fun k r hk hr heq =>
      hk (h.apart k key r s hr hs (hid ▸ heq.symm)))
      hopen fun r hr _ => ?_
    · rw [hid, hversions, hversion, range'_1_concat, Nat.add_comm]
    · rw [hid, some_inj.mp (hs.symm.trans hr)]
  | @starts s' data phase shot hfree hid hversion htype hopen hu =>
    rw [hu]
    refine h.append (Nat.le_succ _) ⟨b.issued, Nat.lt_succ_self _, hid⟩ ?_ (fun k r hk hr heq => ?_) hopen
      fun r hr ho => ?_
    · rw [hid, h.versionsOf_fresh hinj, hversion]
      rfl
    · obtain ⟨n, hn, hrid⟩ := (h.slots k r hr).1
      have := hinj (hid.symm.trans (heq.trans hrid))
      omega
    · simp [EpisodeBook.isOpen, hr, ho] at hfree

omit [DecidableEq κ] in
theorem marker (h : BookLog b log) (hinj : Function.Injective b.cfg.idFactory)
    (type : EventType) (t : ℚ)
    (data : EpisodeData δ) :
    BookLog (b.marker type t data).1 (log ++ [(b.marker type t data).2]) := by
  have hfresh := h.versionsOf_fresh hinj
  refine ⟨?_, ?_, h.apart, ?_, fun id hlive => ?_, ?_⟩
  · intro u hu
    rcases mem_snoc.1 hu with hu | rfl
    · obtain ⟨n, hn, hid⟩ := h.issued u hu
      exact ⟨n, hn.trans (Nat.lt_succ_self _), hid⟩
    · exact ⟨b.issued, Nat.lt_succ_self _, rfl⟩
  · intro k r hr
    obtain ⟨⟨n, hn, hid⟩, hv⟩ := h.slots k r hr
    have hne : b.cfg.idFactory b.issued ≠ r.id := by
      intro heq
      have := hinj (heq.trans hid)
      omega
    rw [versionsOf_concat]
    exact ⟨⟨n, hn.trans (Nat.lt_succ_self _), hid⟩, (if_neg hne).trans hv⟩
  · intro id
    rw [versionsOf_concat]
    split
    next heq =>
      have heq : b.cfg.idFactory b.issued = id := heq
      exact ⟨1, by rw [← heq, hfresh]; rfl⟩
    next => exact h.versions id
  · rw [isLive_concat] at hlive
    split at hlive
    · cases hlive
    · exact h.live id hlive
  · intro u hu
    rcases mem_snoc.1 hu with hu | rfl
    · exact h.inOrder u hu
    · intro e he
      exact (some_inj.mp he).le

omit [DecidableEq κ] in
theorem forgetClosed (h : BookLog b log) : BookLog b.forgetClosed log := by
  have hslot : ∀ k r, b.forgetClosed.slots k = some r → b.slots k = some r := fun k r hr =>
    (filter_eq_some_iff.mp hr).1
  refine { h with
      slots := fun k r hr => h.slots k r (hslot k r hr)
      apart := fun k k' r r' hr hr' => h.apart k k' r r' (hslot k r hr) (hslot k' r' hr')
      live := fun id hlive => ?_ }
  obtain ⟨k, r, hr, hid, ho⟩ := h.live id hlive
  exact ⟨k, r, filter_eq_some_iff.mpr ⟨hr, ho⟩, hid, ho⟩

end BookLog

end SmartProctoring
