import SmartProctoring.Server.EvidenceJobs

/-!
# Evidence under moves, re-encryption and purges

The place of a row only ever moves on: a move's new key is a digest of the old one and the target,
so as long as the keys made in a run are distinct no place is visited twice, and a job that finds
the row elsewhere than it read it knows that the row will not be back.  Hence a job that has lost
its conditional update may delete what it wrote.

A purge deletes the blob first and marks the row after, so that a blob that cannot be deleted keeps
its row; until then the row points to nothing.
-/

set_option autoImplicit false

namespace SmartProctoring

open Option

variable {δ η α ι : Type} [DecidableEq δ]

/-! ## Places -/

theorem EvidenceHosts.movedStorageKey_ne_stored (hosts : EvidenceHosts δ η α) (key : StorageKey δ)
    (target : LocationName) (random : Nat) : hosts.movedStorageKey key target ≠ .stored random := by
  unfold EvidenceHosts.movedStorageKey
  dsimp only
  split <;> simp

section Outline

variable (hosts : EvidenceHosts δ η α) (moves : Place δ → LocationName → Prop)
    (image : StoredImage α)

def StoredImage.place (image : StoredImage α) : Place δ := ⟨image.location, .stored image.random⟩

/-- The blob decrypts to the image under the key that its header names. -/
def Opens (b : EvidenceBlob α) : Prop :=
  b.keyId ∈ hosts.keys ∧ ∀ keyring : Keyring, b.keyId ∈ keyring.keys →
    keyring.decrypt b (evidenceAad image.id) = some image.data

namespace EvidenceHome

/-- The image has been purged, or a purge has begun. -/
def Doomed (home : EvidenceHome δ η α) : Prop := home.row.purgedAt ≠ none ∨ home.purging = true

/-- Neither the row's place nor one that a move under way can take it to. -/
def Left (home : EvidenceHome δ η α) (p : Place δ) : Prop :=
  p ≠ home.row.place ∧ ∀ target, moves home.row.place target →
  hosts.movedPlace home.row.place target ≠ p

/-- The row left the place of `row`, and not for the place that a move from there to `target` has
in mind. -/
def Passed (home : EvidenceHome δ η α) (row : EvidenceRow δ η) (target : LocationName) : Prop :=
  row.place ≠ home.row.place ∧ hosts.movedPlace row.place target ≠ home.row.place

/-- The row was once as `row` reads it. -/
structure ReadOk (home : EvidenceHome δ η α) (row : EvidenceRow δ η) : Prop where
  id : row.id = image.id
  sha256 : row.sha256 = hosts.sha256Hex image.data
  before : Before hosts.movedPlace moves image.place row.place home.row.place

structure Ok (home : EvidenceHome δ η α) : Prop where
  row : home.ReadOk hosts moves image home.row
  opens : ∀ p b, home.blobs p = some b → Opens hosts image b
  here : ¬ home.Doomed → (home.blobs home.row.place).isSome

/-- What any step does to the row and the blobs. -/
structure Onward (home home' : EvidenceHome δ η α) : Prop where
  place : home'.row.place = home.row.place ∨
    ∃ target, moves home.row.place target ∧ home'.row.place = hosts.movedPlace home.row.place target
  purged : home.row.purgedAt ≠ none → home'.row.purgedAt ≠ none
  purging : home.purging = true → home'.purging = true
  kept : ∀ p, (home.blobs p).isSome → (home'.blobs p).isSome ∨ home'.Doomed ∨
    home.Left hosts moves p

end EvidenceHome

/-! ### What each job relies on -/

def MovePhase.Ok (home : EvidenceHome δ η α) (row : EvidenceRow δ η) (target : LocationName) :
    MovePhase α → Prop
  | .reading => True
  | .putting blob => Opens hosts image blob
  | .checking blob | .updating blob =>
    Opens hosts image blob ∧ (home.Doomed ∨
      (home.blobs (hosts.movedPlace row.place target)).isSome ∨ home.Passed hosts row target)
  | .removing => home.Doomed ∨ home.Passed hosts row target
  | .rereading => home.row.purgedAt ≠ none ∨ row.place ≠ home.row.place
  | .dropping => home.row.purgedAt ≠ none ∨ home.Passed hosts row target
  | .clearing => row.place ≠ home.row.place

def RekeyPhase.Ok (home : EvidenceHome δ η α) (row : EvidenceRow δ η) : RekeyPhase α → Prop
  | .reading | .updating => True
  | .putting next => Opens hosts image next
  | .rereading | .dropping => home.row.purgedAt ≠ none ∨ row.place ≠ home.row.place

def PurgePhase.Ok (home : EvidenceHome δ η α) : PurgePhase δ → Prop
  | .deleting => True
  | .marking => home.purging = true
  | .deletingAgain _ | .deletingMoved _ => home.row.purgedAt ≠ none

def EvidenceJob.Ok (home : EvidenceHome δ η α) : EvidenceJob δ η α → Prop
  | .idle _ => True
  | .move _ row target phase =>
    (home.ReadOk hosts moves image row ∧ moves row.place target) ∧
    phase.Ok hosts image home row target
  | .rekey current row phase =>
    current ∈ hosts.keys ∧ home.ReadOk hosts moves image row ∧ phase.Ok hosts image home row
  | .purge _ _ phase => phase.Ok home

end Outline

section Interference

variable {hosts : EvidenceHosts δ η α} {moves : Place δ → LocationName → Prop}
  {image : StoredImage α} {home home' : EvidenceHome δ η α}
variable {row : EvidenceRow δ η} {target : LocationName}

namespace EvidenceHome

theorem Onward.doomed (ho : home.Onward hosts moves home') (h : home.Doomed) : home'.Doomed :=
  h.imp ho.purged ho.purging

theorem ReadOk.onward (h : home.ReadOk hosts moves image row) (ho : home.Onward hosts moves home') :
    home'.ReadOk hosts moves image row where
  id := h.id
  sha256 := h.sha256
  before := by
    rcases ho.place with hp | ⟨target, hmove, hp⟩
    · rw [hp]
      exact h.before
    · rw [hp]
      exact h.before.step hmove

variable (hdist : Distinct hosts.movedPlace moves image.place)
include hdist

section

variable (h : home.ReadOk hosts moves image row)
include h

theorem ReadOk.away (ho : home.Onward hosts moves home')
    (haway : row.place ≠ home.row.place) : row.place ≠ home'.row.place := by
  rcases ho.place with hp | ⟨target, hmove, hp⟩
  · rwa [hp]
  · rw [hp]
    exact h.before.ne_step hdist hmove

theorem ReadOk.passed (hmove : moves row.place target) (ho : home.Onward hosts moves home')
    (hpassed : home.Passed hosts row target) : home'.Passed hosts row target := by
  refine ⟨h.away hdist ho hpassed.1, ?_⟩
  rcases ho.place with hp | ⟨target', hmove', hp⟩
  · rw [hp]
    exact hpassed.2
  · rw [hp]
    exact Before.step_ne_step hdist hpassed.1 hmove hmove'

omit h in
theorem ReadOk.left_of_passed (hmove : moves row.place target)
    (hpassed : home.Passed hosts row target) :
    home.Left hosts moves (hosts.movedPlace row.place target) :=
  ⟨hpassed.2, fun _ hmove' => (Before.step_ne_step hdist hpassed.1 hmove hmove').symm⟩

theorem ReadOk.left_of_away (haway : row.place ≠ home.row.place) :
    home.Left hosts moves row.place :=
  ⟨haway, fun _ hmove => (h.before.ne_step hdist hmove).symm⟩

theorem ReadOk.kept (hmove : moves row.place target) (ho : home.Onward hosts moves home')
    (hcopy : home.Doomed ∨ (home.blobs (hosts.movedPlace row.place target)).isSome ∨
      home.Passed hosts row target) :
    home'.Doomed ∨ (home'.blobs (hosts.movedPlace row.place target)).isSome ∨
      home'.Passed hosts row target := by
  rcases hcopy with hd | hcopy | hp
  · exact .inl (ho.doomed hd)
  · rcases ho.kept _ hcopy with hcopy | hd | hleft
    · exact .inr (.inl hcopy)
    · exact .inl hd
    · -- the row was not at the place the move began from either: it would still be on its way
      have haway : row.place ≠ home.row.place := by
        intro heq
        exact hleft.2 target (heq ▸ hmove) (by rw [heq])
      exact .inr (.inr (h.passed hdist hmove ho ⟨haway, hleft.1⟩))
  · exact .inr (.inr (h.passed hdist hmove ho hp))

end

end EvidenceHome

variable (hdist : Distinct hosts.movedPlace moves image.place)
include hdist

/-- **Non-interference.**  What a job relies on survives the steps of the others. -/
theorem EvidenceJob.Ok.onward {job : EvidenceJob δ η α} (h : job.Ok hosts moves image home)
    (ho : home.Onward hosts moves home') : job.Ok hosts moves image home' := by
  cases job with
  | idle last => trivial
  | move current row target phase =>
    obtain ⟨⟨hrow, hmove⟩, hphase⟩ := h
    refine ⟨⟨hrow.onward ho, hmove⟩, ?_⟩
    cases phase with
    | reading | putting => exact hphase
    | checking | updating => exact ⟨hphase.1, hrow.kept hdist hmove ho hphase.2⟩
    | removing => exact hphase.imp ho.doomed (hrow.passed hdist hmove ho)
    | rereading => exact hphase.imp ho.purged (hrow.away hdist ho)
    | dropping => exact hphase.imp ho.purged (hrow.passed hdist hmove ho)
    | clearing => exact hrow.away hdist ho hphase
  | rekey current row phase =>
    obtain ⟨hcurrent, hrow, hphase⟩ := h
    refine ⟨hcurrent, hrow.onward ho, ?_⟩
    cases phase with
    | reading | putting | updating => exact hphase
    | rereading | dropping => exact hphase.imp ho.purged (hrow.away hdist ho)
  | purge now row phase =>
    cases phase with
    | deleting => trivial
    | marking => exact ho.purging h
    | deletingAgain | deletingMoved => exact ho.purged h

end Interference

/-! ### Steps -/

section Steps

variable {hosts : EvidenceHosts δ η α} {moves : Place δ → LocationName → Prop}
  {image : StoredImage α} {home : EvidenceHome δ η α}

namespace EvidenceHome

theorem Onward.refl : home.Onward hosts moves home :=
  ⟨.inl rfl, id, id, fun _ => .inl⟩

theorem Onward.put (p : Place δ) (b : EvidenceBlob α) : home.Onward hosts moves (home.put p b) where
  place := .inl rfl
  purged := id
  purging := id
  kept q hq := by
    left
    by_cases hqp : q = p
    · simp [EvidenceHome.put, hqp]
    · simpa [EvidenceHome.put, hqp] using hq

variable {p : Place δ}

theorem Onward.delete (hp : home.Doomed ∨ home.Left hosts moves p) :
    home.Onward hosts moves (home.delete p) where
  place := .inl rfl
  purged := id
  purging := id
  kept q hq := by
    by_cases hqp : q = p
    · rcases hp with hp | hp
      · exact .inr (.inl hp)
      · exact .inr (.inr (hqp ▸ hp))
    · exact .inl (by simpa [EvidenceHome.delete, hqp] using hq)

theorem Onward.setRow {row : EvidenceRow δ η}
    (hplace : row.place = home.row.place ∨
      ∃ target, moves home.row.place target ∧ row.place = hosts.movedPlace home.row.place target)
    (hpurged : home.row.purgedAt ≠ none → row.purgedAt ≠ none) :
    home.Onward hosts moves { home with row } :=
  ⟨hplace, hpurged, id, fun _ => .inl⟩

theorem Ok.put (h : home.Ok hosts moves image) {b : EvidenceBlob α}
    (hb : Opens hosts image b) : (home.put p b).Ok hosts moves image where
  row := h.row.onward (.put p b)
  opens q c hc := by
    by_cases hq : q = p
    · subst hq
      simp only [EvidenceHome.put, Function.update_self, some.injEq] at hc
      exact hc ▸ hb
    · simp only [EvidenceHome.put, Function.update_of_ne hq] at hc
      exact h.opens q c hc
  here hd := by
    have honward : home.Onward hosts moves (home.put p b) := .put p b
    rcases honward.kept _ (h.here hd) with hk | hk | hk
    exacts [hk, absurd hk hd, absurd rfl hk.1]

theorem Ok.delete (h : home.Ok hosts moves image)
    (hp : home.Doomed ∨ home.Left hosts moves p) : (home.delete p).Ok hosts moves image where
  row := h.row.onward (.delete hp)
  opens q c hc := by
    by_cases hq : q = p
    · simp [EvidenceHome.delete, hq] at hc
    · simp only [EvidenceHome.delete, Function.update_of_ne hq] at hc
      exact h.opens q c hc
  here hd := by
    rcases (Onward.delete hp).kept _ (h.here hd) with hk | hk | hk
    exacts [hk, absurd hk hd, absurd rfl hk.1]

end EvidenceHome

open EvidenceHome

variable {now row : EvidenceRow δ η}

theorem unchanged_iff :
    now.unchanged row = true ↔ row.place = now.place ∧ now.purgedAt = none := by
  simp only [EvidenceRow.unchanged, EvidenceRow.place, Place.mk.injEq, Bool.and_eq_true,
    decide_eq_true_iff]
  exact and_congr_left fun _ => and_comm.trans (and_congr eq_comm eq_comm)

theorem elsewhere_iff {p : Place δ} :
    now.elsewhere p = true ↔ now.purgedAt ≠ none ∨ p ≠ now.place := by
  obtain ⟨location, key⟩ := p
  simp only [EvidenceRow.elsewhere, EvidenceRow.place, isSome_iff_ne_none, ne_eq,
    Place.mk.injEq, Bool.or_eq_true, decide_eq_true_iff]
  rw [eq_comm (a := location), eq_comm (a := key), and_comm, not_and_or]
  exact or_assoc

theorem purged_or_away (h : now.unchanged row = false) :
    now.purgedAt ≠ none ∨ row.place ≠ now.place := by
  by_contra hno
  rw [not_or, not_not, not_not] at hno
  rw [unchanged_iff.2 ⟨hno.2, hno.1⟩] at h
  cases h

omit [DecidableEq δ] in
theorem Opens.decrypt {b : EvidenceBlob α} (h : Opens hosts image b) (current : KeyId) :
    (hosts.keyring current).decrypt b (evidenceAad image.id) = some image.data :=
  h.2 _ (List.mem_cons_of_mem _ h.1)

variable {current : KeyId}

omit [DecidableEq δ] in
theorem opens_encrypt (h : current ∈ hosts.keys) :
    Opens hosts image ((hosts.keyring current).encrypt image.data (evidenceAad image.id)) := by
  refine ⟨h, fun keyring hk => ?_⟩
  unfold Keyring.decrypt
  rw [if_pos ⟨hk, rfl⟩]
  rfl

variable [DecidableEq η] (hdist : Distinct hosts.movedPlace moves image.place)
include hdist

theorem moveOne_ok (h : home.Ok hosts moves image)
    {target : LocationName} (hrow : home.ReadOk hosts moves image row)
    (hmove : moves row.place target) (phase : MovePhase α)
    (hphase : phase.Ok hosts image home row target) :
    (moveOne hosts current row target phase home).1.Ok hosts moves image ∧
      (moveOne hosts current row target phase home).2.Ok hosts moves image
        (moveOne hosts current row target phase home).1 ∧
      home.Onward hosts moves (moveOne hosts current row target phase home).1 := by
  cases phase with
  | reading =>
    simp only [moveOne]
    cases hblob : home.blobs row.place with
    | none => exact ⟨h, trivial, .refl⟩
    | some blob => exact ⟨h, ⟨⟨hrow, hmove⟩, h.opens _ _ hblob⟩, .refl⟩
  | putting blob =>
    have ho : home.Onward hosts moves (home.put (hosts.movedPlace row.place target) blob) := .put _ _
    refine ⟨h.put hphase, ⟨⟨hrow.onward ho, hmove⟩, hphase, .inr (.inl ?_)⟩, ho⟩
    show (Function.update home.blobs _ (some blob) _).isSome = true
    rw [Function.update_self, isSome_some]
  | checking blob =>
    obtain ⟨hopens, hcopy⟩ := hphase
    refine ⟨h, ⟨⟨hrow, hmove⟩, ?_⟩, .refl⟩
    cases hback : home.blobs (hosts.movedPlace row.place target) with
    | none =>
      rw [hback] at hcopy
      exact hcopy.imp_right fun hp => hp.resolve_left Bool.false_ne_true
    | some back =>
      -- any copy there is decrypts to the image
      have hsum : ((home.blobs (hosts.movedPlace row.place target)).bind fun back =>
          ((hosts.keyring current).decrypt back (evidenceAad row.id)).map hosts.sha256Hex) =
          some row.sha256 := by
        rw [hback, bind_some, hrow.id, (h.opens _ _ hback).decrypt, map_some,
          hrow.sha256]
      rw [if_pos (by rw [← hback]; exact hsum)]
      exact ⟨hopens, hcopy⟩
  | removing =>
    have hleft := hphase.imp_right (ReadOk.left_of_passed hdist hmove)
    exact ⟨h.delete hleft, trivial, .delete hleft⟩
  | updating blob =>
    obtain ⟨hopens, hcopy⟩ := hphase
    simp only [moveOne]
    split
    · rename_i hunchanged
      obtain ⟨hplace, hlive⟩ := unchanged_iff.1 hunchanged
      have ho : home.Onward hosts moves { home with row := { home.row with
          storageLocation := (hosts.movedPlace row.place target).location
          storageKey := (hosts.movedPlace row.place target).key
          keyId := blob.keyId } } :=
        .setRow (.inr ⟨target, hplace ▸ hmove, by rw [← hplace]; rfl⟩) id
      refine ⟨⟨?_, h.opens, fun hd => ?_⟩, ⟨⟨hrow.onward ho, hmove⟩, ?_⟩, ho⟩
      · exact ⟨h.row.id, h.row.sha256, (h.row.onward ho).before.right_self⟩
      · -- the row was where the move began, so the copy is still there
        rcases hcopy with hdoomed | hcopy | hpassed
        exacts [absurd (ho.doomed hdoomed) hd, hcopy, absurd hplace hpassed.1]
      · have hne := hrow.before.ne_step hdist (hplace ▸ hmove)
        rw [← hplace] at hne
        exact hne
    · rename_i hchanged
      exact ⟨h, ⟨⟨hrow, hmove⟩, purged_or_away (by simpa using hchanged)⟩, .refl⟩
  | rereading =>
    simp only [moveOne]
    split
    · rename_i hgone
      refine ⟨h, ⟨⟨hrow, hmove⟩, ?_⟩, .refl⟩
      rcases elsewhere_iff.1 hgone with hpurged | hnew
      · exact .inl hpurged
      · exact hphase.imp_right fun haway => ⟨haway, hnew⟩
    · exact ⟨h, trivial, .refl⟩
  | dropping =>
    have hleft : home.Doomed ∨ home.Left hosts moves (hosts.movedPlace row.place target) :=
      hphase.imp .inl (ReadOk.left_of_passed hdist hmove)
    exact ⟨h.delete hleft, trivial, .delete hleft⟩
  | clearing =>
    have hleft : home.Doomed ∨ home.Left hosts moves row.place := .inr (hrow.left_of_away hdist hphase)
    exact ⟨h.delete hleft, trivial, .delete hleft⟩

omit [DecidableEq η] in
theorem rekeyEvidence_ok (h : home.Ok hosts moves image) (hcurrent : current ∈ hosts.keys)
    (hrow : home.ReadOk hosts moves image row) (phase : RekeyPhase α)
    (hphase : phase.Ok hosts image home row) :
    (rekeyEvidence hosts current row phase home).1.Ok hosts moves image ∧
      (rekeyEvidence hosts current row phase home).2.Ok hosts moves image
        (rekeyEvidence hosts current row phase home).1 ∧
      home.Onward hosts moves (rekeyEvidence hosts current row phase home).1 := by
  cases phase with
  | reading =>
    simp only [rekeyEvidence]
    cases hblob : home.blobs row.place with
    | none => exact ⟨h, trivial, .refl⟩
    | some blob =>
      dsimp only
      split
      · rw [hrow.id, (h.opens _ _ hblob).decrypt]
        exact ⟨h, ⟨hcurrent, hrow, opens_encrypt hcurrent⟩, .refl⟩
      · exact ⟨h, ⟨hcurrent, hrow, trivial⟩, .refl⟩
  | putting next =>
    have ho : home.Onward hosts moves (home.put row.place next) := .put _ _
    exact ⟨h.put hphase, ⟨hcurrent, hrow.onward ho, trivial⟩, ho⟩
  | updating =>
    simp only [rekeyEvidence]
    split
    · have ho : home.Onward hosts moves { home with row := { home.row with keyId := current } } :=
        .setRow (.inl rfl) id
      exact ⟨⟨⟨h.row.id, h.row.sha256, h.row.before⟩, h.opens, h.here⟩, trivial, ho⟩
    · rename_i hchanged
      exact ⟨h, ⟨hcurrent, hrow, purged_or_away (by simpa using hchanged)⟩, .refl⟩
  | rereading =>
    simp only [rekeyEvidence]
    split
    · exact ⟨h, ⟨hcurrent, hrow, hphase⟩, .refl⟩
    · exact ⟨h, trivial, .refl⟩
  | dropping =>
    have hleft : home.Doomed ∨ home.Left hosts moves row.place :=
      hphase.imp .inl (hrow.left_of_away hdist)
    exact ⟨h.delete hleft, trivial, .delete hleft⟩

omit hdist [DecidableEq η] in
theorem purgeEvidenceRows_ok (h : home.Ok hosts moves image) (now : Int) (row : EvidenceRow δ η)
    (phase : PurgePhase δ) (hphase : phase.Ok home) :
    (purgeEvidenceRows now row phase home).1.Ok hosts moves image ∧
      (purgeEvidenceRows now row phase home).2.Ok hosts moves image (purgeEvidenceRows now row phase home).1 ∧
      home.Onward hosts moves (purgeEvidenceRows now row phase home).1 := by
  cases phase with
  | deleting =>
    simp only [purgeEvidenceRows]
    split
    · exact ⟨h, trivial, .refl⟩
    · -- from here on the image is doomed: nothing is asked of its place any more
      refine ⟨⟨⟨h.row.id, h.row.sha256, h.row.before⟩, fun q c hc => ?_, fun hd => ?_⟩, rfl,
        .inl rfl, id, fun _ => rfl, fun _ _ => .inr (.inl (.inr rfl))⟩
      · by_cases hq : q = row.place
        · simp [EvidenceHome.delete, hq] at hc
        · simp only [EvidenceHome.delete, Function.update_of_ne hq] at hc
          exact h.opens q c hc
      · exact absurd (.inr rfl) hd
  | marking =>
    simp only [purgeEvidenceRows]
    split
    · rename_i hpurged
      exact ⟨h, by simpa [EvidenceJob.Ok, PurgePhase.Ok, isSome_iff_ne_none] using hpurged, .refl⟩
    · have ho : home.Onward hosts moves { home with row := { home.row with purgedAt := some now } } :=
        .setRow (.inl rfl) fun _ => by simp
      refine ⟨⟨⟨h.row.id, h.row.sha256, h.row.before⟩, h.opens, fun hd => ?_⟩, by
        simp [EvidenceJob.Ok, PurgePhase.Ok], ho⟩
      exact absurd (.inl (by simp)) hd
  | deletingAgain after =>
    have hleft : home.Doomed ∨ home.Left hosts moves row.place := .inl (.inl hphase)
    refine ⟨h.delete hleft, ?_, .delete hleft⟩
    simp only [purgeEvidenceRows]
    cases after with
    | none => trivial
    | some after =>
      dsimp only
      split
      exacts [trivial, hphase]
  | deletingMoved after =>
    have hleft : home.Doomed ∨ home.Left hosts moves after := .inl (.inl hphase)
    exact ⟨h.delete hleft, trivial, .delete hleft⟩

theorem EvidenceJob.step_ok (h : home.Ok hosts moves image) {job : EvidenceJob δ η α}
    (hjob : job.Ok hosts moves image home) :
    (job.step hosts home).1.Ok hosts moves image ∧
      (job.step hosts home).2.Ok hosts moves image (job.step hosts home).1 ∧
      home.Onward hosts moves (job.step hosts home).1 := by
  cases job with
  | idle last => exact ⟨h, trivial, .refl⟩
  | move current row target phase => exact moveOne_ok hdist h hjob.1.1 hjob.1.2 phase hjob.2
  | rekey current row phase => exact rekeyEvidence_ok hdist h hjob.1 hjob.2.1 phase hjob.2.2
  | purge now row phase => exact purgeEvidenceRows_ok h now row phase hjob

/-- The request is no move, or one of these. -/
def JobRequest.MovesIn (moves : Place δ → LocationName → Prop) (row : EvidenceRow δ η) :
    JobRequest → Prop
  | .move _ target => moves row.place target
  | .rekey _ | .purge _ => True

omit [DecidableEq η] hdist in
theorem JobRequest.job_ok (h : home.Ok hosts moves image) {request : JobRequest}
    (hselects : request.selects hosts home.row) (hmoves : request.MovesIn moves home.row) :
    (request.job home.row : EvidenceJob δ η α).Ok hosts moves image home := by
  cases request with
  | move => exact ⟨⟨h.row, hmoves⟩, trivial⟩
  | rekey current => exact ⟨hselects.1, h.row, trivial⟩
  | purge now => trivial

end Steps

/-! ## Who clears what up -/

/-- The places a job is yet to clear, or to find the row at. -/
def EvidenceJob.duty (hosts : EvidenceHosts δ η α) : EvidenceJob δ η α → Place δ → Prop
  | .idle _, _ => False
  | .move _ row target phase, p =>
    match phase with
    | .reading | .putting _ => False
    | .checking _ | .removing | .updating _ | .rereading | .dropping =>
      p = hosts.movedPlace row.place target
    | .clearing => p = row.place
  | .rekey _ row phase, p =>
    match phase with
    | .reading | .putting _ => False
    | .updating | .rereading | .dropping => p = row.place
  | .purge _ row phase, p =>
    match phase with
    | .deleting | .marking => False
    | .deletingAgain after => p = row.place ∨ after = some p
    | .deletingMoved after => p = after

/-- A purge has deleted the blob and is about to mark the row. -/
def EvidenceJob.marking : EvidenceJob δ η α → Prop
  | .purge _ _ .marking => True
  | _ => False

def EvidenceHome.Here (home : EvidenceHome δ η α) (p : Place δ) : Prop :=
  home.row.purgedAt = none ∧ p = home.row.place

/-- Every blob is the row's own or some job's to clear, and a purge that has begun is under way
until the row is marked. -/
structure Tidy (hosts : EvidenceHosts δ η α) (s : EvidenceState δ η α ι) : Prop where
  blobs : ∀ p, (s.shared.blobs p).isSome →
    s.shared.Here p ∨ ∃ k, (s.loc k).duty hosts p
  purging : s.shared.purging = true → s.shared.row.purgedAt ≠ none ∨ ∃ k, (s.loc k).marking

section Tidying

variable {hosts : EvidenceHosts δ η α} {home home' : EvidenceHome δ η α}
    {job job' : EvidenceJob δ η α}

variable {q p : Place δ}

theorem EvidenceHome.isSome_put {b : EvidenceBlob α}
    (h : ((home.put q b).blobs p).isSome) : p = q ∨ (home.blobs p).isSome := by
  by_cases hp : p = q
  · exact .inl hp
  · exact .inr (by simpa [EvidenceHome.put, hp] using h)

theorem EvidenceHome.isSome_delete
    (h : ((home.delete q).blobs p).isSome) : p ≠ q ∧ (home.blobs p).isSome := by
  by_cases hp : p = q
  · simp [EvidenceHome.delete, hp] at h
  · exact ⟨hp, by simpa [EvidenceHome.delete, hp] using h⟩

/-- A step leaves no blob behind: what was the row's or the job's is so still, or was handed from
one to the other. -/
structure Takes (hosts : EvidenceHosts δ η α) (home : EvidenceHome δ η α) (job : EvidenceJob δ η α)
    (next : EvidenceHome δ η α × EvidenceJob δ η α) : Prop where
  new : ∀ p, (next.1.blobs p).isSome → (home.blobs p).isSome ∨ next.2.duty hosts p
  here : ∀ p, (next.1.blobs p).isSome → home.Here p → next.1.Here p ∨ next.2.duty hosts p
  duty : ∀ p, (next.1.blobs p).isSome → job.duty hosts p → next.1.Here p ∨ next.2.duty hosts p

theorem Takes.put {b : EvidenceBlob α} (hq : job'.duty hosts q)
    (hduty : ∀ p, job.duty hosts p → job'.duty hosts p) :
    Takes hosts home job (home.put q b, job') where
  new _ hp := by
    rcases EvidenceHome.isSome_put hp with rfl | hp
    exacts [.inr hq, .inl hp]
  here _ _ hh := .inl hh
  duty p _ hd := .inr (hduty p hd)

theorem Takes.delete (hduty : ∀ p, p ≠ q → job.duty hosts p → job'.duty hosts p) :
    Takes hosts home job (home.delete q, job') where
  new _ hp := .inl (EvidenceHome.isSome_delete hp).2
  here _ _ hh := .inl hh
  duty p hp hd := .inr (hduty p (EvidenceHome.isSome_delete hp).1 hd)

theorem Takes.stay (hduty : ∀ p, job.duty hosts p → home.Here p ∨ job'.duty hosts p) :
    Takes hosts home job (home, job') where
  new _ hp := .inl hp
  here _ _ hh := .inl hh
  duty p _ hd := hduty p hd

theorem here_of_not_elsewhere (h : ¬ home.row.elsewhere p = true) : home.Here p := by
  rw [elsewhere_iff, not_or, not_not, not_not] at h
  exact h

variable [DecidableEq η]

theorem moveOne_takes (current : KeyId) (row : EvidenceRow δ η) (target : LocationName)
    (phase : MovePhase α) :
    Takes hosts home (.move current row target phase) (moveOne hosts current row target phase home) := by
  cases phase with
  | reading =>
    simp only [moveOne]
    cases home.blobs row.place with
    | none | some blob => exact .stay fun _ => False.elim
  | putting blob => exact .put rfl fun _ => False.elim
  | checking blob =>
    refine .stay fun p hp => .inr ?_
    split <;> exact hp
  | removing | dropping | clearing => exact .delete fun p hne hp => hne hp
  | updating blob =>
    simp only [moveOne]
    split
    · -- the old place passes from the row to the job, the new one from the job to the row
      rename_i hunchanged
      obtain ⟨hplace, hlive⟩ := unchanged_iff.1 hunchanged
      exact ⟨fun p hp => .inl hp, fun p _ hh => .inr (hh.2.trans hplace.symm),
        fun p _ hp => .inl ⟨hlive, hp⟩⟩
    · exact .stay fun p hp => .inr hp
  | rereading =>
    simp only [moveOne]
    split
    · exact .stay fun p hp => .inr hp
    · rename_i hsame
      refine .stay fun p hp => .inl ?_
      obtain rfl : p = hosts.movedPlace row.place target := hp
      exact here_of_not_elsewhere hsame

omit [DecidableEq η] in
theorem rekeyEvidence_takes (current : KeyId) (row : EvidenceRow δ η) (phase : RekeyPhase α) :
    Takes hosts home (.rekey current row phase) (rekeyEvidence hosts current row phase home) := by
  cases phase with
  | reading =>
    simp only [rekeyEvidence]
    cases home.blobs row.place with
    | none => exact .stay fun _ => False.elim
    | some blob =>
      dsimp only
      split
      · split <;> exact .stay fun _ => False.elim
      · exact .stay fun _ => False.elim
  | putting next => exact .put rfl fun _ => False.elim
  | updating =>
    simp only [rekeyEvidence]
    split
    · rename_i hunchanged
      obtain ⟨hplace, hlive⟩ := unchanged_iff.1 hunchanged
      exact ⟨fun p hp => .inl hp, fun p _ hh => .inl hh, fun p _ hp => .inl ⟨hlive, hp.trans hplace⟩⟩
    · exact .stay fun p hp => .inr hp
  | rereading =>
    simp only [rekeyEvidence]
    split
    · exact .stay fun p hp => .inr hp
    · rename_i hsame
      refine .stay fun p hp => .inl ?_
      obtain rfl : p = row.place := hp
      exact here_of_not_elsewhere hsame
  | dropping => exact .delete fun p hne hp => hne hp

omit [DecidableEq η] in
theorem purgeEvidenceRows_takes (now : Int) (row : EvidenceRow δ η) (phase : PurgePhase δ) :
    Takes hosts home (.purge now row phase) (purgeEvidenceRows now row phase home) := by
  cases phase with
  | deleting =>
    simp only [purgeEvidenceRows]
    split
    · exact .stay fun _ => False.elim
    · exact ⟨fun p hp => .inl (EvidenceHome.isSome_delete hp).2, fun _ _ hh => .inl hh,
        fun _ _ => False.elim⟩
  | marking =>
    simp only [purgeEvidenceRows]
    split
    · exact .stay fun _ => False.elim
    · -- the blob at the row's place becomes the purge's to delete
      exact ⟨fun p hp => .inl hp, fun p _ hh => .inr (.inr (congrArg some hh.2.symm)),
        fun _ _ => False.elim⟩
  | deletingAgain after =>
    refine .delete fun p hne hp => ?_
    obtain rfl : after = some p := hp.resolve_left hne
    simp only [if_neg hne]
    rfl
  | deletingMoved after => exact .delete fun p hne hp => hne hp

theorem EvidenceJob.step_takes (job : EvidenceJob δ η α) :
    Takes hosts home job (job.step hosts home) := by
  cases job with
  | idle last => exact .stay fun _ => False.elim
  | move current row target phase => exact moveOne_takes current row target phase
  | rekey current row phase => exact rekeyEvidence_takes current row phase
  | purge now row phase => exact purgeEvidenceRows_takes now row phase

theorem moveOne_purging (current : KeyId) (row : EvidenceRow δ η) (target : LocationName)
    (phase : MovePhase α) :
    (moveOne hosts current row target phase home).1.purging = home.purging := by
  cases phase <;> simp only [moveOne] <;> (try split) <;> rfl

omit [DecidableEq η] in
theorem rekeyEvidence_purging (current : KeyId) (row : EvidenceRow δ η) (phase : RekeyPhase α) :
    (rekeyEvidence hosts current row phase home).1.purging = home.purging := by
  cases phase with
  | reading =>
    simp only [rekeyEvidence]
    cases home.blobs row.place with
    | none => rfl
    | some blob =>
      dsimp only
      split
      · split <;> rfl
      · rfl
  | putting | dropping => rfl
  | updating | rereading =>
    simp only [rekeyEvidence]
    split <;> rfl

theorem EvidenceJob.step_purging (job : EvidenceJob δ η α)
    (h : (job.step hosts home).1.purging = true) :
    home.purging = true ∨ (job.step hosts home).2.marking := by
  cases job with
  | idle last => exact .inl h
  | move => exact .inl (by rwa [EvidenceJob.step, moveOne_purging] at h)
  | rekey => exact .inl (by rwa [EvidenceJob.step, rekeyEvidence_purging] at h)
  | purge now row phase =>
    cases phase with
    | deleting =>
      simp only [EvidenceJob.step, purgeEvidenceRows] at h ⊢
      split at h
      · exact .inl h
      · rename_i hrow
        rw [if_neg hrow]
        exact .inr trivial
    | marking =>
      simp only [EvidenceJob.step, purgeEvidenceRows] at h
      split at h <;> exact .inl h
    | deletingAgain | deletingMoved => exact .inl h

theorem EvidenceJob.step_marking {job : EvidenceJob δ η α} (h : job.marking) :
    (job.step hosts home).1.row.purgedAt ≠ none := by
  unfold EvidenceJob.marking at h
  split at h
  · simp only [EvidenceJob.step, purgeEvidenceRows]
    split
    · rename_i hpurged
      exact isSome_iff_ne_none.1 hpurged
    · simp
  · exact h.elim

end Tidying

/-! ## Runs -/

section Runs

variable [DecidableEq η] [DecidableEq ι] {hosts : EvidenceHosts δ η α} {image : StoredImage α}
  {moves : Place δ → LocationName → Prop}

variable {s : EvidenceState δ η α ι}

omit [DecidableEq η] in
theorem Tidy.start (h : Tidy hosts s) {k : ι}
    (hidle : (s.loc k).isIdle = true) {job : EvidenceJob δ η α} :
    Tidy hosts (s.move k (s.shared, job)) := by
  have hnone : ∀ p, ¬ (s.loc k).duty hosts p := by
    intro p hp
    cases hk : s.loc k <;> rw [hk] at hidle hp
    · exact hp
    all_goals cases hidle
  constructor
  · intro p hp
    rcases h.blobs p hp with hhere | he
    · exact .inl hhere
    · exact .inr (Processes.exists_loc_move (C := fun j : EvidenceJob δ η α =>
        j.duty hosts p) he fun hp => absurd hp (hnone p))
  · intro hp
    refine (h.purging hp).imp_right fun he => Processes.exists_loc_move he fun hp => ?_
    cases hk : s.loc k <;> rw [hk] at hidle hp
    · exact hp.elim
    all_goals cases hidle

theorem Tidy.step (h : Tidy hosts s) (k : ι)
    (honward : s.shared.Onward hosts moves ((s.loc k).step hosts s.shared).1) :
    Tidy hosts (s.move k ((s.loc k).step hosts s.shared)) := by
  have htakes : Takes hosts s.shared (s.loc k) ((s.loc k).step hosts s.shared) :=
    (s.loc k).step_takes
  constructor
  · intro p hp
    by_cases hown : ((s.loc k).step hosts s.shared).2.duty hosts p
    · exact .inr ⟨k, by rw [Processes.move_loc_self]; exact hown⟩
    · rcases htakes.new p hp with hold | hown'
      · rcases h.blobs p hold with hhere | he
        · exact .inl ((htakes.here p hp hhere).resolve_right hown)
        · by_cases hmine : (s.loc k).duty hosts p
          · exact .inl ((htakes.duty p hp hmine).resolve_right hown)
          · exact .inr (Processes.exists_loc_move (C := fun j : EvidenceJob δ η α =>
              j.duty hosts p) he fun hm => absurd hm hmine)
      · exact absurd hown' hown
  · intro hp
    rcases (s.loc k).step_purging hp with hold | hmarking
    · rcases h.purging hold with hpurged | he
      · exact .inl (honward.purged hpurged)
      · by_cases hmine : (s.loc k).marking
        · exact .inl (EvidenceJob.step_marking hmine)
        · exact .inr (Processes.exists_loc_move he fun hm => absurd hm hmine)
    · exact .inr ⟨k, by rw [Processes.move_loc_self]; exact hmarking⟩

omit [DecidableEq η] in
theorem StoredImage.home_ok (hkey : image.keyId ∈ hosts.keys) :
    (image.home hosts).Ok hosts moves image where
  row := ⟨rfl, rfl, .base_self⟩
  opens p b hb := by
    unfold StoredImage.home at hb
    dsimp only at hb
    rw [Function.update_apply] at hb
    split at hb
    · obtain rfl := some.inj hb
      refine ⟨hkey, fun keyring hk => ?_⟩
      rw [Keyring.decrypt, if_pos ⟨hk, rfl⟩]
    · cases hb
  here _ := by simp [StoredImage.home, EvidenceRow.place]

/-- The input starts no move, or one of these. -/
def JobInput.MovesIn (moves : Place δ → LocationName → Prop) (x : JobInput ι)
    (s : EvidenceState δ η α ι) : Prop :=
  match x with
  | .start _ request => request.MovesIn moves s.shared.row
  | .step _ => True

theorem evidenceJobs_ok (hdist : Distinct hosts.movedPlace moves image.place)
    (hkey : image.keyId ∈ hosts.keys)
    (h : ((evidenceJobs hosts image).restrict (JobInput.MovesIn moves)).Reachable s) :
    Processes.Outline (EvidenceHome.Ok hosts moves image)
      (fun (_ : ι) home job => EvidenceJob.Ok hosts moves image home job) s ∧ Tidy hosts s := by
  refine h.invariant (I := fun s => Processes.Outline (EvidenceHome.Ok hosts moves image)
    (fun (_ : ι) home job => EvidenceJob.Ok hosts moves image home job) s ∧ Tidy hosts s) ?_ ?_
  · rintro s rfl
    refine ⟨⟨image.home_ok hkey, fun _ => trivial⟩, fun p hp => .inl ⟨rfl, ?_⟩, nofun⟩
    by_contra hne
    have hne' : p ≠ ⟨image.location, .stored image.random⟩ := hne
    have hnone : (image.home hosts).blobs p = none := by
      unfold StoredImage.home
      dsimp only
      rw [Function.update_of_ne hne']
    rw [hnone] at hp
    cases hp
  · rintro s (⟨k, request⟩ | k) _ hen ⟨hok, htidy⟩
    · exact ⟨hok.move hok.shared (JobRequest.job_ok hok.shared hen.1.2 hen.2) fun _ _ _ hj => hj,
        htidy.start hen.1.1⟩
    · obtain ⟨hhome, hjob, honward⟩ := EvidenceJob.step_ok hdist hok.shared (hok.loc k)
      exact ⟨hok.move hhome hjob fun _ _ _ hj => hj.onward hdist honward, htidy.step k honward⟩

/-- The image as it was stored, and no job at work. -/
def StoredImage.start (image : StoredImage α) (hosts : EvidenceHosts δ η α) :
    EvidenceState δ η α ι :=
  ⟨image.home hosts, fun _ => .idle none⟩

/-- The moves that are begun in the course of a run: where the row is then, and the target. -/
def movesOf (hosts : EvidenceHosts δ η α) (image : StoredImage α) :
    EvidenceState δ η α ι → List (JobInput ι) → List (Place δ × LocationName)
  | _, [] => []
  | s, x :: is =>
    let rest := movesOf hosts image ((evidenceJobs hosts image).step x s) is
    match x with
    | .start _ (.move _ target) => (s.shared.row.place, target) :: rest
    | _ => rest

theorem admits_movesIn {is : List (JobInput ι)} (hmoves : ∀ a ∈ movesOf hosts image s is,
    moves a.1 a.2) (h : (evidenceJobs hosts image).Admits s is) :
    ((evidenceJobs hosts image).restrict (JobInput.MovesIn moves)).Admits s is := by
  induction is generalizing s with
  | nil => trivial
  | cons x is ih =>
    obtain ⟨hen, hrest⟩ := h
    rcases x with ⟨k, request⟩ | k
    · cases request with
      | move current target =>
        obtain ⟨hmove, hmoves⟩ := List.forall_mem_cons.1 hmoves
        exact ⟨⟨hen, hmove⟩, ih hmoves hrest⟩
      | rekey | purge => exact ⟨⟨hen, trivial⟩, ih hmoves hrest⟩
    · exact ⟨⟨hen, trivial⟩, ih hmoves hrest⟩

/-- **Evidence under moves, re-encryption and purges.**  Let the moves of a run make keys of their
own for the row.  Then a row that is not purged points to a blob that decrypts to the image, unless
a purge has deleted it and is about to mark the row.  When every job is done, a purged row has no
blob anywhere, and any other row has the one it points to. -/
theorem evidence_jobs_consistent {is : List (JobInput ι)}
    (hkeys : ∀ a ∈ movesOf hosts image (image.start hosts) is,
      ∀ b ∈ movesOf hosts image (image.start hosts) is,
        hosts.movedStorageKey a.1.key a.2 = hosts.movedStorageKey b.1.key b.2 → a = b)
    (hkey : image.keyId ∈ hosts.keys)
    (h : (evidenceJobs hosts image).Admits (image.start hosts) is) :
    let s := (evidenceJobs hosts image).run (image.start hosts) is
    (s.shared.row.purgedAt = none →
      (∃ b, s.shared.blobs s.shared.row.place = some b ∧ Opens hosts image b) ∨
        ∃ k, (s.loc k).marking) ∧
    ((∀ k, (s.loc k).isIdle = true) →
      (s.shared.row.purgedAt ≠ none → ∀ p, s.shared.blobs p = none) ∧
      (s.shared.row.purgedAt = none →
        (∃ b, s.shared.blobs s.shared.row.place = some b ∧ Opens hosts image b) ∧
        ∀ p, p ≠ s.shared.row.place → s.shared.blobs p = none)) := by
  have hdist : Distinct hosts.movedPlace
      (fun p target => (p, target) ∈ movesOf hosts image (image.start hosts) is) image.place := by
    constructor
    · intro p target p' target' hp hp' heq
      exact Prod.mk.inj (hkeys _ hp _ hp' (congrArg Place.key heq))
    · intro p target _ heq
      exact hosts.movedStorageKey_ne_stored p.key target image.random (congrArg Place.key heq)
  intro s
  have hreach : ((evidenceJobs hosts image).restrict (JobInput.MovesIn fun p target =>
      (p, target) ∈ movesOf hosts image (image.start hosts) is)).Reachable s :=
    (Machine.Reachable.init rfl).run (admits_movesIn (fun _ ha => ha) h)
  obtain ⟨hok, htidy⟩ := evidenceJobs_ok hdist hkey hreach
  have hlive : s.shared.row.purgedAt = none →
      (∃ b, s.shared.blobs s.shared.row.place = some b ∧ Opens hosts image b) ∨
        ∃ k, (s.loc k).marking := by
    intro hpurged
    cases hp : s.shared.purging with
    | true => exact .inr ((htidy.purging hp).resolve_left (not_not.2 hpurged))
    | false =>
      have hhere := hok.shared.here (by simp [EvidenceHome.Doomed, hpurged, hp])
      obtain ⟨b, hb⟩ := isSome_iff_exists.1 hhere
      exact .inl ⟨b, hb, hok.shared.opens _ b hb⟩
  refine ⟨hlive, fun hidle => ?_⟩
  have hduty : ∀ k p, ¬ (s.loc k).duty hosts p := by
    intro k p hd
    have hk := hidle k
    cases hj : s.loc k <;> rw [hj] at hd hk
    · exact hd
    all_goals cases hk
  have hblobs : ∀ p, (s.shared.blobs p).isSome → s.shared.Here p := fun p hp =>
    (htidy.blobs p hp).resolve_right fun ⟨k, hk⟩ => hduty k p hk
  constructor
  · intro hpurged p
    by_contra hp
    exact hpurged (hblobs p (isSome_iff_ne_none.2 hp)).1
  · intro hpurged
    refine ⟨(hlive hpurged).resolve_right ?_, fun p hp => ?_⟩
    · rintro ⟨k, hm⟩
      have hk := hidle k
      cases hj : s.loc k <;> rw [hj] at hm hk
      · exact hm
      all_goals cases hk
    · by_contra hb
      exact hp (hblobs p (isSome_iff_ne_none.2 hb)).2

end Runs

/-! ## A move, a re-encryption and a purge at once -/

/-- The first digits of the SHA-256 of the key that `storedImage` has (`o/o1/s/s1/7.0000002a.bin`)
and the targets `archive` and `eu`; nothing else is hashed. -/
def imageDigest (_ : StorageKey (Fin 16)) (target : LocationName) : List (Fin 16) :=
  if target = ⟨1⟩ then [13, 15, 6, 4, 4, 2, 3, 2, 11, 7, 6, 1, 10, 10, 11, 1, 11, 5, 9, 13]
  else [13, 3, 9, 14, 1, 7, 1, 5, 1, 1, 11, 12, 6, 4, 15, 9, 9, 1, 6, 13]

def twoKeys : EvidenceHosts (Fin 16) Nat Nat := ⟨[⟨1⟩, ⟨2⟩], imageDigest, id⟩

def storedImage : StoredImage Nat := ⟨7, 42, 5, none, ⟨1⟩⟩

/-- Two moves to different places, a re-encryption and a purge, step by step in turn. -/
def jobsInTurn : List (JobInput (Fin 4)) :=
  [.start 0 (.move ⟨1⟩ ⟨1⟩), .start 1 (.move ⟨1⟩ ⟨2⟩), .start 2 (.rekey ⟨2⟩),
    .start 3 (.purge 9)] ++
  (List.replicate 9 [.step 0, .step 1, .step 2, .step 3]).flatten

theorem evidence_jobs_consistent_inTurn :
    let s := (evidenceJobs (ι := Fin 4) twoKeys storedImage).run
      ⟨storedImage.home twoKeys, fun _ => .idle none⟩ jobsInTurn
    s.shared.row.purgedAt = some 9 ∧ ∀ p, s.shared.blobs p = none := by
  intro s
  have hpurged : s.shared.row.purgedAt = some 9 := by decide
  have hidle : ∀ k, (s.loc k).isIdle = true := by decide
  have hadmits : (evidenceJobs (ι := Fin 4) twoKeys storedImage).Admits (storedImage.start twoKeys)
      jobsInTurn := by decide
  have hconsistent := evidence_jobs_consistent (by decide) (by decide) hadmits
  exact ⟨hpurged, (hconsistent.2 hidle).1 fun hnone => by cases hpurged.symm.trans hnone⟩

/-- Between a purge's first delete and its mark the row points to nothing. -/
theorem purging_row_points_to_nothing :
    let inputs : List (JobInput (Fin 1)) := [.start 0 (.purge 9), .step 0]
    let s := (evidenceJobs twoKeys storedImage).run
      ⟨storedImage.home twoKeys, fun _ => .idle none⟩ inputs
    (evidenceJobs twoKeys storedImage).Reachable s ∧
      s.shared.row.purgedAt = none ∧ s.shared.blobs s.shared.row.place = none := by
  intro inputs s
  exact ⟨(Machine.Reachable.init rfl).run (by decide : Machine.Admits _ _ inputs), by decide,
    by decide⟩

end SmartProctoring
