import Mathlib.Data.Rat.Floor
import Mathlib.Logic.Function.Basic
import SmartProctoring.Detection.Debounce
import SmartProctoring.Shared.Events

/-!
# The book of episodes

`engine/episodes.ts`, with `dur` of `engine/span.ts` and `round` of `util/math.ts`.  Every detector
reports what it saw as episodes, under a key of its own: an episode is opened, updated and closed,
and one that starts soon after the last one under its key ended goes on with it.  The book hands out
the versions, decides when an update is worth sending, and when it comes with a snapshot.

A slot's invariant is in its fields: an episode that is closed ended no earlier than it started.
-/

set_option autoImplicit false

universe u v

namespace SmartProctoring

/-- `round(v, 1)`. -/
def round1 (v : ℚ) : ℚ := ⌊v * 10 + 1 / 2⌋ / 10

def round3 (v : ℚ) : ℚ := ⌊v * 1000 + 1 / 2⌋ / 1000

/-- `String(n).padStart(2, '0')`. -/
def pad2 (n : Nat) : String := if n < 10 then "0" ++ toString n else toString n

/-- Duration phrase for observation sentences, such as "3 min 05 s". -/
def dur (sec : ℚ) : String :=
  let total := (max 0 ⌊sec + 1 / 2⌋).toNat
  let h := total / 3600
  let m := total % 3600 / 60
  let s := total % 60
  if 0 < h then toString h ++ " h " ++ pad2 m ++ " min"
  else if 0 < m then toString m ++ " min " ++ pad2 s ++ " s"
  else toString s ++ " s"

/-- The server's schema caps observations at 500 characters. -/
def clip (s : String) : String := if 480 < s.length then String.ofList (s.toList.take 477) ++ "…"
    else s

inductive FlushReason where
  | pause | submit | hold | stop
  deriving DecidableEq

inductive EpisodePhase where
  | open | update | close
  deriving DecidableEq

inductive SnapshotKind where
  | onset | peak | periodic
  deriving DecidableEq

structure EpisodeUpdate (δ : Type u) where
  episodeId : String
  type : EventType
  phase : EpisodePhase
  startedAt : ℚ
  endedAt : Option ℚ
  confidence : ℚ
  details : δ
  /-- `details.occurrences`; a marker has none. -/
  occurrences : Option Nat
  version : Nat
  observation : Option String
  captureSnapshot : Option SnapshotKind

structure EpisodeData (δ : Type u) where
  confidence : ℚ
  details : δ
  observation : String

structure BookConfig where
  /-- What the calls of `idFactory` give, one after the other. -/
  idFactory : Nat → String
  mergeGapMs : ℚ
  maxShots : Nat
  periodicShotMs : ℚ
  minUpdateMs : ℚ
  peakSpacingMs : ℚ

/-- The episode under a key, open or the last one that was. -/
structure EpisodeSlot where
  type : EventType
  id : String
  version : Nat
  startedAt : ℚ
  endedAt : Option ℚ
  isOpen : Bool
  shots : Nat
  lastShotAt : ℚ
  lastEmitAt : ℚ
  lastMaterial : String
  segments : Nat
  isOpen_eq : isOpen = endedAt.isNone
  started_le : ∀ e ∈ endedAt, startedAt ≤ e

namespace EpisodeSlot

variable {δ : Type u} (s : EpisodeSlot)

def emit (phase : EpisodePhase) (data : EpisodeData δ) (shot : Option SnapshotKind) :
    EpisodeUpdate δ where
  episodeId := s.id
  type := s.type
  phase := phase
  startedAt := s.startedAt
  endedAt := if s.isOpen then none else s.endedAt
  confidence := round3 (clamp01 data.confidence)
  details := data.details
  occurrences := some s.segments
  version := s.version
  observation := if data.observation = "" then none else some (clip data.observation)
  captureSnapshot := shot

/-- A new episode. -/
def opened (type : EventType) (id : String) (startedAt t : ℚ) (material : String) :
    EpisodeSlot where
  type := type
  id := id
  version := 1
  startedAt := startedAt
  endedAt := none
  isOpen := true
  shots := 1
  lastShotAt := t
  lastEmitAt := t
  lastMaterial := material
  segments := 1
  isOpen_eq := rfl
  started_le := by simp

/-- The closed episode goes on. -/
def reopened (cfg : BookConfig) (t : ℚ) (material : String) : EpisodeSlot :=
  { s with
    isOpen := true, endedAt := none, version := s.version + 1, segments := s.segments + 1, lastEmitAt := t
    lastMaterial := material
    shots := if s.shots < cfg.maxShots then s.shots + 1 else s.shots
    lastShotAt := if s.shots < cfg.maxShots then t else s.lastShotAt
    isOpen_eq := rfl
    started_le := by simp }

/-- An update of the episode is sent, with or without a snapshot. -/
def touched (t : ℚ) (material : String) (shot : Bool) : EpisodeSlot :=
  { s with
    version := s.version + 1, lastEmitAt := t, lastMaterial := material
    shots := if shot then s.shots + 1 else s.shots
    lastShotAt := if shot then t else s.lastShotAt }

/-- The episode ends. -/
def closed (endedAt t : ℚ) : EpisodeSlot :=
  { s with
    isOpen := false, endedAt := some (max s.startedAt (min endedAt t)), version := s.version + 1,
      lastEmitAt := t
    isOpen_eq := rfl
    started_le := by
      intro e he
      obtain rfl := Option.some_inj.mp he
      exact le_max_left _ _ }

end EpisodeSlot

structure EpisodeBook (κ : Type v) where
  cfg : BookConfig
  /-- How often `idFactory` was called. -/
  issued : Nat
  slots : κ → Option EpisodeSlot

namespace EpisodeBook

variable {κ : Type v} {δ : Type u} (b : EpisodeBook κ)

def new (cfg : BookConfig) : EpisodeBook κ := ⟨cfg, 0, fun _ => none⟩

def isOpen (key : κ) : Bool := (b.slots key).any (·.isOpen)

/-- Would an episode that starts at `startedAt` go on with the last one under the key? -/
def wouldMerge (key : κ) (startedAt : ℚ) : Bool :=
  (b.slots key).any fun s => !s.isOpen && s.endedAt.any (startedAt - · ≤ b.cfg.mergeGapMs)

variable [DecidableEq κ]

def put (key : κ) (s : EpisodeSlot) : EpisodeBook κ :=
  { b with slots := Function.update b.slots key (some s) }

/-- A new episode under the key. -/
def openNew (key : κ) (type : EventType) (startedAt t : ℚ) (data : EpisodeData δ)
    (material : String) : EpisodeBook κ × EpisodeUpdate δ × Bool :=
  let slot := EpisodeSlot.opened type (b.cfg.idFactory b.issued) startedAt t material
  ({ b.put key slot with issued := b.issued + 1 }, slot.emit .open data (some .onset), false)

/-- An episode starts: the update to send, and whether it goes on with the last one. -/
def begin (key : κ) (type : EventType) (startedAt t : ℚ) (data : EpisodeData δ)
    (material : String) : EpisodeBook κ × EpisodeUpdate δ × Bool :=
  match b.slots key with
  | none => b.openNew key type startedAt t data material
  | some prev =>
    if prev.isOpen then
      let slot := prev.touched t material false
      (b.put key slot, slot.emit .update data none, true)
    else if prev.type = type ∧ prev.endedAt.any (startedAt - · ≤ b.cfg.mergeGapMs) then
      let slot := prev.reopened b.cfg t material
      (b.put key slot, slot.emit .update data (if prev.shots < b.cfg.maxShots then some .peak else none), true)
    else b.openNew key type startedAt t data material

/-- An update of an open episode, when one is due. -/
def touch (key : κ) (t : ℚ) (material : String) (make : EpisodeData δ) (peak : Bool) :
    EpisodeBook κ × Option (EpisodeUpdate δ) :=
  match b.slots key with
  | none => (b, none)
  | some s =>
    let canShoot := decide (s.shots < b.cfg.maxShots)
    let peakDue := peak && canShoot && decide (b.cfg.peakSpacingMs ≤ t - s.lastShotAt)
    let periodicDue := canShoot && decide (b.cfg.periodicShotMs ≤ t - s.lastShotAt)
    let materialDue := decide (material ≠ s.lastMaterial) && decide (b.cfg.minUpdateMs ≤ t - s.lastEmitAt)
    if s.isOpen && (peakDue || periodicDue || materialDue) then
      let slot := s.touched t material (peakDue || periodicDue)
      (b.put key slot, some (slot.emit .update make
        (if peakDue then some .peak else if periodicDue then some .periodic else none)))
    else (b, none)

/-- The open episode ends. -/
def «end» (key : κ) (endedAt t : ℚ) (data : EpisodeData δ) :
    EpisodeBook κ × Option (EpisodeUpdate δ) :=
  match b.slots key with
  | none => (b, none)
  | some s =>
    if s.isOpen then
      let slot := s.closed endedAt t
      (b.put key slot, some (slot.emit .close data none))
    else (b, none)

/-- An instantaneous marker. -/
def marker (type : EventType) (t : ℚ) (data : EpisodeData δ) : EpisodeBook κ × EpisodeUpdate δ :=
  ({ b with issued := b.issued + 1 },
    { episodeId := b.cfg.idFactory b.issued, type := type, phase := .close, startedAt := t, endedAt := some t
      confidence := round3 (clamp01 data.confidence), details := data.details, occurrences := none, version := 1
      observation := if data.observation = "" then none else some (clip data.observation)
      captureSnapshot := none })

/-- Nothing goes on across a pause or a stop. -/
def forgetClosed : EpisodeBook κ := { b with slots := fun key => (b.slots key).filter (·.isOpen) }

/-! ## What the operations do to the slot -/

variable {b} {key : κ}

@[simp] theorem slots_put (b : EpisodeBook κ) (key : κ) (s : EpisodeSlot) :
    (b.put key s).slots key = some s :=
  Function.update_self ..

theorem begin_slot (b : EpisodeBook κ) (key : κ) (type : EventType) (startedAt t : ℚ)
    (data : EpisodeData δ) (material : String) :
    ∃ slot, (b.begin key type startedAt t data material).1.slots key = some slot ∧
      slot.endedAt.isNone = true ∧
      (b.begin key type startedAt t data material).2.1.startedAt = slot.startedAt ∧
      (b.begin key type startedAt t data material).2.1.phase ≠ .close ∧
      (slot.startedAt = startedAt ∨ ∃ prev, b.slots key = some prev ∧ slot.startedAt = prev.startedAt) := by
  have hnew : ∃ slot, (b.openNew key type startedAt t data material).1.slots key = some slot ∧
      slot.endedAt.isNone = true ∧ (b.openNew key type startedAt t data material).2.1.startedAt =
      slot.startedAt ∧ (b.openNew key type startedAt t data material).2.1.phase ≠ .close ∧
      (slot.startedAt = startedAt ∨ ∃ prev, b.slots key = some prev ∧
        slot.startedAt = prev.startedAt) :=
    ⟨_, slots_put b key _, rfl, rfl, by simp [openNew, EpisodeSlot.emit], .inl rfl⟩
  rw [begin]
  cases hs : b.slots key with
  | none => simpa only [hs] using hnew
  | some prev =>
    rw [hs] at hnew
    dsimp only
    split
    next hopen =>
      refine ⟨_, slots_put b key _, ?_, rfl, by simp [EpisodeSlot.emit], .inr ⟨prev, rfl, rfl⟩⟩
      exact prev.isOpen_eq.symm.trans hopen
    next =>
      split
      · exact ⟨_, slots_put b key _, rfl, rfl, by simp [EpisodeSlot.emit], .inr ⟨prev, rfl, rfl⟩⟩
      · exact hnew

theorem touch_slot {s : EpisodeSlot} (h : b.slots key = some s) (t : ℚ) (material : String)
    (make : EpisodeData δ) (peak : Bool) :
    (∃ slot, (b.touch key t material make peak).1.slots key = some slot ∧
      slot.startedAt = s.startedAt ∧
      slot.endedAt = s.endedAt) ∧ ∀ u ∈ (b.touch key t material make peak).2,
      u.phase = .update := by
  rw [touch, h]
  dsimp only
  split
  · refine ⟨⟨_, slots_put b key _, rfl, rfl⟩, fun u hu => ?_⟩
    obtain rfl := Option.some_inj.mp hu
    rfl
  · exact ⟨⟨s, h, rfl, rfl⟩, by simp⟩

theorem end_of_open {s : EpisodeSlot} (h : b.slots key = some s) (hopen : s.endedAt.isNone = true)
    (endedAt t : ℚ) (data : EpisodeData δ) :
    b.end key endedAt t data = (b.put key (s.closed endedAt t),
      some ((s.closed endedAt t).emit .close data none)) := by
  rw [EpisodeBook.end, h]
  exact if_pos (s.isOpen_eq.trans hopen)

theorem begin_details (b : EpisodeBook κ) (key : κ) (type : EventType) (startedAt t : ℚ)
    (data : EpisodeData δ)
    (material : String) : (b.begin key type startedAt t data material).2.1.details =
    data.details := by
  rw [begin]
  cases b.slots key with
  | none => rfl
  | some prev =>
    dsimp only
    split
    · rfl
    · split <;> rfl

theorem touch_details (b : EpisodeBook κ) (key : κ) (t : ℚ) (material : String)
    (make : EpisodeData δ) (peak : Bool) :
    ∀ u ∈ (b.touch key t material make peak).2, u.details = make.details := by
  intro u hu
  rw [touch] at hu
  cases hs : b.slots key with
  | none => simp [hs] at hu
  | some s =>
    rw [hs] at hu
    dsimp only at hu
    split at hu
    · rw [← Option.some_inj.mp hu]
      rfl
    · cases hu

theorem end_details (b : EpisodeBook κ) (key : κ) (endedAt t : ℚ) (data : EpisodeData δ) :
    ∀ u ∈ (b.end key endedAt t data).2, u.details = data.details := by
  intro u hu
  rw [EpisodeBook.end] at hu
  cases hs : b.slots key with
  | none => simp [hs] at hu
  | some s =>
    rw [hs] at hu
    dsimp only at hu
    split at hu
    · rw [← Option.some_inj.mp hu]
      rfl
    · cases hu

end EpisodeBook

end SmartProctoring
