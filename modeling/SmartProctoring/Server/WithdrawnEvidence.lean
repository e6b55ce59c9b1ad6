import SmartProctoring.Server.SessionEvidence

/-!
# What a withdrawal of consent leaves

The withdrawal ends the session in one transaction and purges its evidence in another, while uploads
are under way.  What is stored before the purge is purged by it; a screenshot or segment that is
stored later finds the session closed when its upload looks again, and a sample finds the exam
ended.  A check frame looks at its check only, which the end of the session leaves open: it stays if
it is stored after the purge (`withdrawal_purges_iff`).

An unpurged row of the withdrawn session is either awaited by the purge that is to follow, or by the
upload that has stored it and will look again (`Awaited`), until a check frame comes too late
(`Left`).
-/

set_option autoImplicit false

namespace SmartProctoring

open List Option

/-- A move of an upload or a withdrawal, with storage that deletes what it is asked to. -/
def EvidenceMove.ofWithdrawal : EvidenceMove → Bool
  | .store _ _ _ => true
  | .recheck run => decide (run.refused = [])
  | .purge run => decide (run.refused = [])
  | .finish => true
  | _ => false

/-- Anything but holds, retention, the purge of sandboxes and erasures. -/
def EvidenceInput.ofWithdrawal {ι : Type} : EvidenceInput ι → Bool
  | .session _ (.setLegalHold _) => false
  | .start _ (.upload _ _) => true
  | .start _ (.withdraw _) => true
  | .start _ _ => false
  | .next _ mv => mv.ofWithdrawal
  | _ => true

namespace EvidenceDb

variable {db : EvidenceDb} {sessionId : Nat}

/-- The candidate has withdrawn consent. -/
def Withdrawn (db : EvidenceDb) (sessionId : Nat) : Prop :=
  ∃ x ∈ db.sessions.rows, x.id = sessionId ∧ x.endReason = some .candidateWithdrew
  deriving Decidable

/-- A row of the session's evidence that is not purged. -/
def Unpurged (db : EvidenceDb) (sessionId : Nat) (r : EvidenceItem) : Prop :=
  r ∈ db.items.rows ∧ r.sessionId = some sessionId ∧ r.purgedAt = none

/-- No session is under hold, and one whose candidate withdrew has ended; the numbers of the rows
are below the next one. -/
structure Ordinary (db : EvidenceDb) : Prop where
  unheld : ∀ x ∈ db.sessions.rows, x.legalHold = false
  ended : ∀ x ∈ db.sessions.rows, x.endReason = some .candidateWithdrew → x.status.isTerminal
  below : ∀ r ∈ db.items.rows, r.id < db.nextId

/-! ## Storing and purging -/

theorem mem_storeEvidence (h : db.Ordinary) {candidateId : Nat} {clientId : Option Nat}
    {r : EvidenceItem} :
    r ∈ (db.storeEvidence sessionId candidateId clientId).items.rows ↔
      r ∈ db.items.rows ∨ r = db.newItem sessionId candidateId clientId := by
  refine Table.mem_insert_of_find?_eq_none (Table.find?_eq_none.2 fun x hx hid => ?_)
  have hlt := h.below x hx
  rw [hid] at hlt
  exact absurd hlt (Nat.lt_irrefl _)

theorem Ordinary.storeEvidence (h : db.Ordinary) (candidateId : Nat) (clientId : Option Nat) :
    (db.storeEvidence sessionId candidateId clientId).Ordinary where
  unheld := h.unheld
  ended := h.ended
  below r hr := by
    show r.id < db.nextId + 1
    rcases (mem_storeEvidence h).1 hr with hr | rfl
    · have hlt := h.below r hr
      omega
    · exact Nat.lt_succ_self _

theorem storeImages_spec (h : db.Ordinary) (sessionId candidateId n : Nat) :
    (storeImages sessionId candidateId n db).Ordinary ∧
    (storeImages sessionId candidateId n db).sessions = db.sessions ∧
    (∀ r ∈ db.items.rows, r ∈ (storeImages sessionId candidateId n db).items.rows) ∧
    (∀ r ∈ (storeImages sessionId candidateId n db).items.rows,
      r ∈ db.items.rows ∨ db.nextId ≤ r.id ∧ r.sessionId = some sessionId) ∧
    db.nextId ≤ (storeImages sessionId candidateId n db).nextId := by
  induction n generalizing db with
  | zero => exact ⟨h, rfl, fun _ hr => hr, fun _ hr => .inl hr, Nat.le_refl _⟩
  | succ n ih =>
    have hnext : (db.storeEvidence sessionId candidateId none).nextId = db.nextId + 1 := rfl
    obtain ⟨hord, hsess, hold, hnew, hle⟩ := ih (h.storeEvidence candidateId none)
    refine ⟨hord, hsess, fun r hr => hold r ((mem_storeEvidence h).2 (.inl hr)), fun r hr => ?_, ?_⟩
    · rcases hnew r hr with hr | ⟨hlo, hs⟩
      · rcases (mem_storeEvidence h).1 hr with hr | rfl
        · exact .inl hr
        · exact .inr ⟨Nat.le_refl _, rfl⟩
      · exact .inr ⟨by omega, hs⟩
    · show db.nextId ≤ (storeImages sessionId candidateId n _).nextId
      omega

theorem newItem_mem_storeImages (h : db.Ordinary) (candidateId n : Nat) :
    db.newItem sessionId candidateId none ∈
      (storeImages sessionId candidateId (1 + n) db).items.rows := by
  rw [Nat.add_comm]
  exact (storeImages_spec (h.storeEvidence candidateId none) sessionId candidateId n).2.2.1 _
    ((mem_storeEvidence h).2 (.inr rfl))

theorem unpurged_purgeEvidenceRows {rows : List EvidenceItem} {run : PurgeRun}
    {reason : EvidencePurgeReason} {now : Int} {r : EvidenceItem} :
    (db.purgeEvidenceRows rows run reason now).Unpurged sessionId r ↔
      db.Unpurged sessionId r ∧ r.id ∉ purgeable rows run := by
  constructor
  · rintro ⟨hr, hs, hp⟩
    obtain ⟨x, hx, rfl⟩ := mem_map.1 hr
    by_cases hsel : x.id ∈ purgeable rows run ∧ x.purgedAt = none
    · rw [if_pos (decide_eq_true hsel)] at hp
      cases hp
    · rw [if_neg (by simpa using hsel)] at hs hp ⊢
      exact ⟨⟨hx, hs, hp⟩, fun hmem => hsel ⟨hmem, hp⟩⟩
  · rintro ⟨⟨hr, hs, hp⟩, hmem⟩
    refine ⟨mem_map.2 ⟨r, hr, if_neg ?_⟩, hs, hp⟩
    simp [hmem]

theorem mem_purgeable {rows : List EvidenceItem} {run : PurgeRun} {b : Nat}
    (h : b ∈ purgeable rows run) : ∃ row ∈ rows, row.id = b := by
  obtain ⟨row, hrow, hid⟩ := mem_map.1 h
  exact ⟨row, (mem_filter.1 hrow).1, hid⟩

theorem Ordinary.purgeEvidenceRows (h : db.Ordinary) (rows : List EvidenceItem) (run : PurgeRun)
    (reason : EvidencePurgeReason) (now : Int) :
    (db.purgeEvidenceRows rows run reason now).Ordinary where
  unheld := h.unheld
  ended := h.ended
  below r' hr' := by
    obtain ⟨r, hr, rfl⟩ := mem_map.1 hr'
    have hlt := h.below r hr
    split <;> exact hlt

/-! ## The sessions -/

theorem withdrawn_iff_find? : db.Withdrawn sessionId ↔
    ∃ x, db.sessions.find? sessionId = some x ∧ x.endReason = some .candidateWithdrew := by
  constructor
  · rintro ⟨x, hx, hid, hw⟩
    exact ⟨x, Table.find?_eq_some.2 ⟨hx, hid⟩, hw⟩
  · rintro ⟨x, hx, hw⟩
    obtain ⟨hx, hid⟩ := Table.find?_eq_some.1 hx
    exact ⟨x, hx, hid, hw⟩

variable {f : EvidenceSession → EvidenceSession} {hf : ∀ s, (f s).id = s.id} {id : Nat}

theorem Ordinary.updateSession (h : db.Ordinary)
    (hhold : ∀ s, s.legalHold = false → (f s).legalHold = false)
    (hend : ∀ s, (s.endReason = some .candidateWithdrew → s.status.isTerminal) →
      (f s).endReason = some .candidateWithdrew → (f s).status.isTerminal) :
    (db.updateSession id f hf).Ordinary where
  unheld x' hx' := by
    obtain ⟨x, hx, rfl⟩ := mem_map.1 hx'
    split
    · exact hhold x (h.unheld x hx)
    · exact h.unheld x hx
  ended x' hx' := by
    obtain ⟨x, hx, rfl⟩ := mem_map.1 hx'
    split
    · exact hend x (h.ended x hx)
    · exact h.ended x hx
  below := h.below

theorem withdrawn_updateSession (hend : ∀ s ∈ db.sessions.rows, s.id = id → id = sessionId →
      ((f s).endReason = some .candidateWithdrew ↔ s.endReason = some .candidateWithdrew)) :
    (db.updateSession id f hf).Withdrawn sessionId ↔ db.Withdrawn sessionId := by
  constructor
  · rintro ⟨x', hx', hid, hw⟩
    obtain ⟨x, hx, rfl⟩ := mem_map.1 hx'
    by_cases hsel : x.id = id
    · rw [if_pos (decide_eq_true hsel)] at hid hw
      rw [hf x] at hid
      exact ⟨x, hx, hid, (hend x hx hsel (hsel.symm.trans hid)).1 hw⟩
    · rw [if_neg (by simpa using hsel)] at hid hw
      exact ⟨x, hx, hid, hw⟩
  · rintro ⟨x, hx, hid, hw⟩
    refine ⟨_, mem_map_of_mem hx, ?_, ?_⟩
    · split
      · rw [hf x, hid]
      · exact hid
    · split
      next hsel =>
        have hsel := of_decide_eq_true hsel
        exact (hend x hx hsel (hsel.symm.trans hid)).2 hw
      next => exact hw

end EvidenceDb

namespace EvidenceSession

variable {s : EvidenceSession} {now : Int} {c : SessionChange}

theorem change_ended (h : s.endReason = some .candidateWithdrew → s.status.isTerminal) :
    (s.change now c).endReason = some .candidateWithdrew → (s.change now c).status.isTerminal := by
  cases c with
  | acceptConsent =>
    simp only [change, acceptConsent]
    split <;> exact h
  | setStatus status =>
    simp only [change, setStatus]
    split
    · exact h
    next hs => exact fun hw => absurd (h hw) fun ht => hs (.inl ht)
  | finalize endReason endedAt =>
    simp only [change, finalizeSession]
    split
    · exact h
    · exact fun _ => endStatus_isTerminal endReason
  | reopen =>
    simp only [change, reopenSession]
    split
    · exact h
    · exact fun hw => by cases hw
  | setLegalHold enabled => exact h

theorem change_withdrew (h : s.endReason = some .candidateWithdrew → s.status.isTerminal)
    (hc : ∀ endedAt, c ≠ .finalize .candidateWithdrew endedAt) :
    (s.change now c).endReason = some .candidateWithdrew ↔
      s.endReason = some .candidateWithdrew := by
  cases c with
  | acceptConsent =>
    simp only [change, acceptConsent]
    split <;> rfl
  | setStatus status =>
    simp only [change, setStatus]
    split <;> rfl
  | finalize endReason endedAt =>
    simp only [change, finalizeSession]
    split
    · rfl
    next hs =>
      refine ⟨fun hw => absurd ?_ (hc endedAt), fun hw => absurd (h hw) hs⟩
      rw [some.inj hw]
  | reopen =>
    simp only [change, reopenSession]
    split
    · rfl
    next helig =>
      refine ⟨fun hw => (by cases hw), fun hw => absurd ?_ helig⟩
      simp [reopenEligibility, hw, h hw]
  | setLegalHold enabled => rfl

theorem change_unheld (hc : ∀ enabled, c ≠ .setLegalHold enabled) (h : s.legalHold = false) :
    (s.change now c).legalHold = false := by
  rw [Bool.eq_false_iff]
  intro ht
  rw [(change_keeps now c s).2.2 (hc true) ht] at h
  cases h

end EvidenceSession

namespace EvidenceDb

variable {db : EvidenceDb} {sessionId : Nat}

variable {id : Nat}

theorem Ordinary.changeSession (h : db.Ordinary) {c : SessionChange}
    (hc : ∀ enabled, c ≠ .setLegalHold enabled) : (db.changeSession id c).Ordinary :=
  Ordinary.updateSession h (fun _ => EvidenceSession.change_unheld hc) fun _ =>
    EvidenceSession.change_ended

theorem withdrawn_changeSession (h : db.Ordinary) {c : SessionChange}
    (hc : id = sessionId → ∀ endedAt, c ≠ .finalize .candidateWithdrew endedAt) :
    (db.changeSession id c).Withdrawn sessionId ↔ db.Withdrawn sessionId :=
  withdrawn_updateSession fun s hs _ hid => EvidenceSession.change_withdrew (h.ended s hs) (hc hid)

theorem Ordinary.markPurged (h : db.Ordinary) (id : Nat) (now : Int) :
    (db.markPurged id now).Ordinary :=
  Ordinary.updateSession h (fun _ => fun hh => hh) fun _ => fun hh => hh

theorem withdrawn_markPurged {now : Int} :
    (db.markPurged id now).Withdrawn sessionId ↔ db.Withdrawn sessionId :=
  withdrawn_updateSession fun _ _ _ _ => Iff.rfl

/-! ## The uploads and the withdrawal -/

/-- The process uploads or withdraws consent. -/
def TaskOk (db : EvidenceDb) : EvidenceProcess → Prop
  | .idle | .uploading _ | .withdrawing _ => True
  | .stored _ row => row.id < db.nextId
  | _ => False

/-- An image of a check frame is stored, its check being open. -/
def StoresFrame (db : EvidenceDb) (sessionId : Nat) (mv : EvidenceMove)
    (p : EvidenceProcess) : Prop :=
  ∃ frame crop late u checkId, mv = .store frame crop late ∧ p = .uploading u ∧
    u.kind = .checkFrame checkId ∧ u.sessionId = sessionId ∧ (checkId, sessionId) ∈ db.openChecks

/-- What one move of a process does to the evidence of a session. -/
structure Moved (sessionId : Nat) (mv : EvidenceMove) (db : EvidenceDb) (p : EvidenceProcess)
    (db' : EvidenceDb) (p' : EvidenceProcess) : Prop where
  ordinary : db'.Ordinary
  nextId : db.nextId ≤ db'.nextId
  task : db'.TaskOk p'
  withdrawn : db'.Withdrawn sessionId ↔ db.Withdrawn sessionId
  withdrawing : p' = .withdrawing sessionId → p = .withdrawing sessionId
  /-- A row that is unpurged after it was so before, and not what the process was to purge; or the
  process has stored it and will look again, or the exam had not ended, or it is of a check
  frame. -/
  unpurged (r : EvidenceItem) (hr : db'.Unpurged sessionId r) (hw : db.Withdrawn sessionId) :
    db.Unpurged sessionId r ∧ (p' = p ∨ p ≠ .withdrawing sessionId ∧
        ∀ row, p = .stored sessionId row → row.purgedAt = none → row.id ≠ r.id) ∨
      p' = .stored sessionId r ∨ StoresFrame db sessionId mv p
  /-- A row that no process is to purge stays. -/
  kept (r : EvidenceItem) (hr : db.Unpurged sessionId r) (hclient : r.clientId = none)
    (hp : p ≠ .withdrawing sessionId) (hrow : ∀ id row, p = .stored id row → row.id ≠ r.id) :
    db'.Unpurged sessionId r ∧ ∀ id row, p' = .stored id row → row.id ≠ r.id

variable {p : EvidenceProcess} {mv : EvidenceMove}

/-- Nothing happens. -/
theorem Moved.refl (h : db.Ordinary) (hp : db.TaskOk p) : Moved sessionId mv db p db p where
  ordinary := h
  nextId := Nat.le_refl _
  task := hp
  withdrawn := Iff.rfl
  withdrawing := id
  unpurged _ hr _ := .inl ⟨hr, .inl rfl⟩
  kept _ hr _ _ hrow := ⟨hr, hrow⟩

section

variable (h : db.Ordinary) (u : Upload)
include h u

theorem Moved.of_uploading {p' : EvidenceProcess} (hp' : db.TaskOk p')
    (hne : ∀ id, p' ≠ .withdrawing id)
    (hrow : ∀ id row, p' = .stored id row → row ∈ db.items.rows ∧ row.clientId ≠ none) :
    Moved sessionId mv db (.uploading u) db p' where
  ordinary := h
  nextId := Nat.le_refl _
  task := hp'
  withdrawn := Iff.rfl
  withdrawing hw := absurd hw (hne sessionId)
  unpurged r hr _ := .inl ⟨hr, .inr ⟨by simp, by simp⟩⟩
  kept r hr hclient _ _ := by
    refine ⟨hr, fun id row he hid => ?_⟩
    obtain ⟨hmem, hc⟩ := hrow id row he
    rw [Table.eq_of_mem hmem hr.1 hid] at hc
    exact hc hclient

theorem Moved.of_stored (clientId : Option Nat) :
    Moved sessionId mv db (.uploading u) (db.storeEvidence u.sessionId u.candidateId clientId)
      (.stored u.sessionId (db.newItem u.sessionId u.candidateId clientId)) where
  ordinary := h.storeEvidence _ _
  nextId := Nat.le_succ _
  task := Nat.lt_succ_self _
  withdrawn := Iff.rfl
  withdrawing hw := by cases hw
  unpurged r hr _ := by
    obtain ⟨hmem, hs, hp⟩ := hr
    rcases (mem_storeEvidence h).1 hmem with hmem | rfl
    · exact .inl ⟨⟨hmem, hs, hp⟩, .inr ⟨by simp, by simp⟩⟩
    · rw [some.inj hs]
      exact .inr (.inl rfl)
  kept r hr _ _ _ := by
    refine ⟨⟨(mem_storeEvidence h).2 (.inl hr.1), hr.2⟩, fun id row he hid => ?_⟩
    cases he
    have hlt := h.below r hr.1
    rw [← hid] at hlt
    exact absurd hlt (Nat.lt_irrefl _)

theorem Moved.of_images (n : Nat)
    (hu : u.sessionId = sessionId → db.Withdrawn sessionId → StoresFrame db sessionId mv (.uploading u)) :
    Moved sessionId mv db (.uploading u) (storeImages u.sessionId u.candidateId n db) .idle := by
  obtain ⟨hord, hsess, hold, hnew, hle⟩ := storeImages_spec h u.sessionId u.candidateId n
  refine ⟨hord, hle, trivial, ?_, fun hw => (by cases hw), fun r hr hw => ?_, fun r hr _ _ _ => ?_⟩
  · rw [Withdrawn, Withdrawn, hsess]
  · obtain ⟨hmem, hs, hp⟩ := hr
    rcases hnew r hmem with hmem | ⟨-, hs'⟩
    · exact .inl ⟨⟨hmem, hs, hp⟩, .inr ⟨by simp, by simp⟩⟩
    · exact .inr (.inr (hu (some.inj (hs'.symm.trans hs)) hw))
  · exact ⟨⟨hold r hr.1, hr.2⟩, fun id row he => by cases he⟩

theorem moved_storeUpload (frame crop late : Bool) :
    Moved sessionId (.store frame crop late) db (.uploading u) (db.storeUpload u frame crop late).1
      (db.storeUpload u frame crop late).2 := by
  unfold storeUpload
  split
  next clientId hkind =>
    split
    next row hrow =>
      have hmem := mem_of_find?_eq_some hrow
      have hclient : row.clientId = some clientId := by simpa using find?_some hrow
      refine .of_uploading h u (h.below row hmem) (fun id hne => by cases hne) fun id row' he => ?_
      cases he
      exact ⟨hmem, by rw [hclient]; exact some_ne_none _⟩
    · exact .of_stored h u _
  · exact .of_stored h u _
  next checkId hkind =>
    split
    next hopen =>
      refine .of_images h u _ fun hid _ => ?_
      exact ⟨frame, crop, late, u, checkId, rfl, rfl, hkind, hid, hid ▸ hopen⟩
    · exact .of_uploading h u trivial (fun id hne => by cases hne) fun id row he => by cases he
  · split
    · exact .of_uploading h u trivial (fun id hne => by cases hne) fun id row he => by cases he
    next x hx =>
      split
      next hstatus =>
        refine .of_images h u _ fun hid hw => ?_
        obtain ⟨y, hy, hwy⟩ := withdrawn_iff_find?.1 hw
        rw [hid, hy] at hx
        have hyx : y = x := some.inj hx
        have hterminal := h.ended y (Table.find?_eq_some.1 hy).1 hwy
        rw [hyx] at hterminal
        rcases hstatus with hstatus | ⟨-, hstatus⟩
        · rw [hstatus] at hterminal
          exact absurd hterminal (by decide)
        · simp only [mem_cons, not_mem_nil, or_false] at hstatus
          rcases hstatus with hstatus | hstatus <;> rw [hstatus] at hterminal <;>
            exact absurd hterminal (by decide)
      · exact .of_uploading h u trivial (fun id hne => by cases hne) fun id row he => by cases he

end

variable {run : PurgeRun}

theorem mem_purgeable_of_mem {rows : List EvidenceItem} (hrun : run.refused = [])
    {row : EvidenceItem} (hrow : row ∈ rows) (hp : row.purgedAt = none) :
    row.id ∈ purgeable rows run := by
  refine mem_map_of_mem (mem_filter.2 ⟨hrow, decide_eq_true ⟨hp, ?_⟩⟩)
  rw [hrun]
  exact not_mem_nil

theorem moved_recheckUpload (h : db.Ordinary) (id : Nat) (row : EvidenceItem)
    (hrun : run.refused = []) :
    Moved sessionId mv db (.stored id row) (db.recheckUpload id row run) .idle := by
  have hkeep (db' : EvidenceDb) (hdb : db' = db)
      (hclosed : ∀ x, db.sessions.find? id = some x → x.endReason ≠ some .candidateWithdrew) :
      Moved sessionId mv db (.stored id row) db' .idle := by
    subst hdb
    refine ⟨h, Nat.le_refl _, trivial, Iff.rfl, fun hw => (by cases hw), fun r hr hw => ?_,
      fun r hr _ _ _ => ⟨hr, fun _ _ he => (by cases he)⟩⟩
    refine .inl ⟨hr, .inr ⟨by simp, fun row' he _ => ?_⟩⟩
    cases he
    obtain ⟨x, hx, hwx⟩ := withdrawn_iff_find?.1 hw
    exact absurd hwx (hclosed x hx)
  unfold recheckUpload
  split
  next hnone =>
    refine hkeep _ rfl fun x hx => ?_
    rw [hx] at hnone
    cases hnone
  next x hx =>
    split
    · refine ⟨h.purgeEvidenceRows _ _ _ _, Nat.le_refl _, trivial, Iff.rfl, fun hw => (by cases hw),
        fun r hr _ => ?_, fun r hr _ _ hrow => ?_⟩
      · obtain ⟨hr, hmem⟩ := unpurged_purgeEvidenceRows.1 hr
        refine .inl ⟨hr, .inr ⟨by simp, fun row' he hp hid => ?_⟩⟩
        cases he
        rw [← hid] at hmem
        exact hmem (mem_purgeable_of_mem hrun mem_cons_self hp)
      · refine ⟨unpurged_purgeEvidenceRows.2 ⟨hr, fun hmem => ?_⟩, fun _ _ he => (by cases he)⟩
        obtain ⟨row', hrow', hid⟩ := mem_purgeable hmem
        rw [mem_singleton.1 hrow'] at hid
        exact hrow id row rfl hid
    next hopen =>
      refine hkeep _ rfl fun y hy hwy => hopen ?_
      rw [hx] at hy
      rw [EvidenceSession.evidenceClosed, some.inj hy, hwy]
      rfl

theorem moved_purgeWithdrawn (h : db.Ordinary) (id : Nat) (hrun : run.refused = []) :
    Moved sessionId mv db (.withdrawing id) (db.purgeWithdrawnSessionEvidence id run) .idle := by
  have hpurge (db' : EvidenceDb) (hord : db'.Ordinary) (hnext : db'.nextId = db.nextId)
      (hw : db'.Withdrawn sessionId ↔ db.Withdrawn sessionId)
      (hitems : ∀ r, db'.Unpurged sessionId r ↔
        db.Unpurged sessionId r ∧ r.id ∉ purgeable (db.liveItems id) run) :
      Moved sessionId mv db (.withdrawing id) db' .idle := by
    refine ⟨hord, Nat.le_of_eq hnext.symm, trivial, hw, fun hw => (by cases hw), fun r hr _ => ?_,
      fun r hr _ hp _ => ⟨(hitems r).2 ⟨hr, fun hmem => ?_⟩, fun _ _ he => (by cases he)⟩⟩
    · obtain ⟨hr, hmem⟩ := (hitems r).1 hr
      refine .inl ⟨hr, .inr ⟨fun he => ?_, by simp⟩⟩
      cases he
      refine hmem (mem_purgeable_of_mem hrun ?_ hr.2.2)
      exact mem_filter.2 ⟨hr.1, decide_eq_true hr.2⟩
    · obtain ⟨row, hrow, hid⟩ := mem_purgeable hmem
      obtain ⟨hrow, hs⟩ := mem_filter.1 hrow
      have hs := (of_decide_eq_true hs).1
      rw [Table.eq_of_mem hrow hr.1 hid, hr.2.1] at hs
      exact hp (by rw [some.inj hs])
  unfold purgeWithdrawnSessionEvidence
  split
  next hnone =>
    refine ⟨h, Nat.le_refl _, trivial, Iff.rfl, fun hw => (by cases hw), fun r hr hw => ?_,
      fun r hr _ _ _ => ⟨hr, fun _ _ he => (by cases he)⟩⟩
    refine .inl ⟨hr, .inr ⟨fun he => ?_, by simp⟩⟩
    cases he
    obtain ⟨x, hx, -⟩ := withdrawn_iff_find?.1 hw
    rw [hx] at hnone
    cases hnone
  next x hx =>
    split
    next hhold =>
      rw [h.unheld x (Table.find?_eq_some.1 hx).1] at hhold
      cases hhold
    next =>
      have hord : (db.purgeSessionEvidence id run .consentWithdrawn db.clock).Ordinary :=
        h.purgeEvidenceRows _ _ _ _
      show Moved _ _ _ _ (ite _ _ _) _
      split
      · exact hpurge _ hord rfl Iff.rfl fun r => unpurged_purgeEvidenceRows
      · exact hpurge _ (hord.markPurged _ _) rfl withdrawn_markPurged fun r =>
          unpurged_purgeEvidenceRows

theorem moved_nextMove (h : db.Ordinary) (hp : db.TaskOk p) (hmv : mv.ofWithdrawal = true) :
    Moved sessionId mv db p (db.nextMove mv p).1 (db.nextMove mv p).2 := by
  unfold nextMove
  split
  · exact moved_storeUpload h _ _ _ _
  · exact moved_recheckUpload h _ _ (of_decide_eq_true hmv)
  · exact moved_purgeWithdrawn h _ (of_decide_eq_true hmv)
  · exact hp.elim
  · exact hp.elim
  · exact hp.elim
  · exact hp.elim
  · exact hp.elim
  · exact hp.elim
  · exact hp.elim
  · exact .of_uploading h _ trivial (fun id hne => by cases hne) fun id row he => by cases he
  · exact hp.elim
  · exact hp.elim
  · exact .refl h hp

end EvidenceDb

/-! ## Runs -/

section

variable {ι : Type} [DecidableEq ι]

/-- Uploads and withdrawals of consent, any number of each, while sessions run, end and are
reopened. -/
def withdrawalMachine (ι : Type) [DecidableEq ι] : Machine (EvidenceServer ι) (EvidenceInput ι) :=
  (evidenceSystem ι).restrict fun i _ => i.ofWithdrawal = true

instance (i : EvidenceInput ι) (s : EvidenceServer ι) :
    Decidable ((withdrawalMachine ι).enabled i s) :=
  inferInstanceAs (Decidable (evidenceEnabled i s ∧ i.ofWithdrawal = true))

/-- No process runs, no session is under hold, and nobody has withdrawn consent yet. -/
structure BeforeWithdrawal (s : EvidenceServer ι) : Prop where
  idle : ∀ k, s.loc k = .idle
  rows : s.shared.Ordinary
  consent : ∀ sessionId, ¬ s.shared.Withdrawn sessionId

/-- The process uploads to the session, or withdraws consent for it. -/
def EvidenceProcess.concerns (sessionId : Nat) : EvidenceProcess → Bool
  | .uploading u => decide (u.sessionId = sessionId)
  | .stored id _ => decide (id = sessionId)
  | .withdrawing id => decide (id = sessionId)
  | _ => false

/-- The uploads of a session and its withdrawal have finished. -/
def Finished (sessionId : Nat) (s : EvidenceServer ι) : Prop :=
  ∀ k, (s.loc k).concerns sessionId = false

/-- The transaction of a check frame finds its check open when the purge of the withdrawal is
over. -/
def LateFrame (sessionId : Nat) (s : EvidenceServer ι) (i : EvidenceInput ι) : Prop :=
  ∃ k mv, i = .next k mv ∧ s.shared.StoresFrame sessionId mv (s.loc k) ∧
    s.shared.Withdrawn sessionId ∧ ∀ j, s.loc j ≠ .withdrawing sessionId

/-- Once consent is withdrawn, the purge is to follow, or every unpurged row is of an upload that
will look again. -/
def Awaited (sessionId : Nat) (s : EvidenceServer ι) : Prop :=
  s.shared.Withdrawn sessionId → (∃ k, s.loc k = .withdrawing sessionId) ∨
    ∀ r, s.shared.Unpurged sessionId r →
      ∃ k row, s.loc k = .stored sessionId row ∧ row.id = r.id ∧ row.purgedAt = none

/-- The purge is over, and a row is left that no upload will look at again. -/
def Left (sessionId : Nat) (s : EvidenceServer ι) : Prop :=
  s.shared.Withdrawn sessionId ∧ (∀ k, s.loc k ≠ .withdrawing sessionId) ∧
    ∃ r, s.shared.Unpurged sessionId r ∧ r.clientId = none ∧
      ∀ k id row, s.loc k = .stored id row → row.id ≠ r.id

/-- Sessions and rows are in order, and every process uploads or withdraws. -/
abbrev WithdrawalOutline : EvidenceServer ι → Prop :=
  Processes.Outline EvidenceDb.Ordinary fun _ db p => db.TaskOk p

variable {s : EvidenceServer ι} {i : EvidenceInput ι} {sessionId : Nat}

variable {db db' : EvidenceDb}

theorem EvidenceDb.TaskOk.mono {p : EvidenceProcess} (h : db.TaskOk p)
    (hle : db.nextId ≤ db'.nextId) : db'.TaskOk p := by
  cases p with
  | stored => exact Nat.lt_of_lt_of_le h hle
  | idle | uploading u | withdrawing id => trivial
  | retention | sandbox | erasureOpened candidateId | erasing e => exact h

/-! ### A move of one process -/

variable {p' : EvidenceProcess} {k : ι}

theorem Awaited.move {mv : EvidenceMove} (h : Awaited sessionId s)
    (hm : EvidenceDb.Moved sessionId mv s.shared (s.loc k) db' p')
    (hframe : ¬ LateFrame sessionId s (.next k mv)) : Awaited sessionId (s.move k (db', p')) := by
  intro hw'
  have hw : s.shared.Withdrawn sessionId := hm.withdrawn.1 hw'
  -- a purge that another process is to do is still to come
  have hother (j : ι) (hj : j ≠ k) (hloc : s.loc j = .withdrawing sessionId) :
      ∃ j, (s.move k (db', p')).loc j = .withdrawing sessionId :=
    ⟨j, by rw [Processes.move_loc_of_ne s hj]; exact hloc⟩
  by_cases hstores : s.shared.StoresFrame sessionId mv (s.loc k)
  · obtain ⟨j, hj⟩ : ∃ j, s.loc j = .withdrawing sessionId := by
      by_contra hnone
      exact hframe ⟨k, mv, rfl, hstores, hw, fun j hj => hnone ⟨j, hj⟩⟩
    refine .inl (hother j ?_ hj)
    rintro rfl
    obtain ⟨_, _, _, u, _, _, hu, _⟩ := hstores
    rw [hj] at hu
    cases hu
  by_cases hnew : ∃ j, (s.move k (db', p')).loc j = .withdrawing sessionId
  · exact .inl hnew
  refine .inr fun r hr => ?_
  rcases hm.unpurged r hr hw with ⟨hr, hown⟩ | hown | hown
  · rcases h hw with ⟨j, hj⟩ | hcovered
    · have hjk : j = k := by
        by_contra hjk
        exact hnew (hother j hjk hj)
      rw [hjk] at hj
      rcases hown with hown | ⟨hown, -⟩
      · exact absurd ⟨k, by rw [Processes.move_loc_self]; exact hown.trans hj⟩ hnew
      · exact absurd hj hown
    · obtain ⟨j, row, hj, hid, hp⟩ := hcovered r hr
      refine ⟨j, row, ?_, hid, hp⟩
      by_cases hjk : j = k
      · rw [hjk] at hj ⊢
        rw [Processes.move_loc_self]
        rcases hown with hown | ⟨-, hown⟩
        · exact hown.trans hj
        · exact absurd hid (hown row hj hp)
      · rw [Processes.move_loc_of_ne s hjk]
        exact hj
  · exact ⟨k, r, by rw [Processes.move_loc_self]; exact hown, rfl, hr.2.2⟩
  · exact absurd hown hstores

theorem Left.move {mv : EvidenceMove}
    (h : Left sessionId s) (hm : EvidenceDb.Moved sessionId mv s.shared (s.loc k) db' p') :
    Left sessionId (s.move k (db', p')) := by
  obtain ⟨hw, hnone, r, hr, hclient, hrow⟩ := h
  obtain ⟨hr', hrow'⟩ := hm.kept r hr hclient (hnone k) (hrow k)
  refine ⟨hm.withdrawn.2 hw, fun j => ?_, r, hr', hclient, fun j id row => ?_⟩
  · by_cases hj : j = k
    · rw [hj, Processes.move_loc_self]
      exact fun he => hnone k (hm.withdrawing he)
    · rw [Processes.move_loc_of_ne s hj]
      exact hnone j
  · by_cases hj : j = k
    · rw [hj, Processes.move_loc_self]
      exact hrow' id row
    · rw [Processes.move_loc_of_ne s hj]
      exact hrow j id row

/-- A frame that comes too late is left. -/
theorem LateFrame.left (hs : WithdrawalOutline s) (h : LateFrame sessionId s i) :
    Left sessionId (evidenceStep i s) := by
  obtain ⟨k, mv, rfl, ⟨frame, crop, late, u, checkId, rfl, hloc, hkind, hid, hopen⟩, hw, hnone⟩ := h
  have hmoved : s.shared.nextMove (.store frame crop late) (s.loc k) =
      (EvidenceDb.storeImages u.sessionId u.candidateId (1 + crop.toNat) s.shared, .idle) := by
    rw [hloc]
    show s.shared.storeUpload u frame crop late = _
    rw [EvidenceDb.storeUpload, hkind]
    exact if_pos (hid ▸ hopen)
  have hsess := (EvidenceDb.storeImages_spec hs.shared u.sessionId u.candidateId
    (1 + crop.toNat)).2.1
  rw [evidenceStep, hmoved]
  refine ⟨?_, fun j => ?_, s.shared.newItem u.sessionId u.candidateId none,
    ⟨EvidenceDb.newItem_mem_storeImages hs.shared _ _, congrArg some hid, rfl⟩, rfl, fun j id row => ?_⟩
  · rw [EvidenceDb.Withdrawn] at hw ⊢
    rw [Processes.move_shared, hsess]
    exact hw
  · by_cases hj : j = k
    · rw [hj, Processes.move_loc_self]
      exact fun he => by cases he
    · rw [Processes.move_loc_of_ne s hj]
      exact hnone j
  · by_cases hj : j = k
    · rw [hj, Processes.move_loc_self]
      exact fun he => by cases he
    · rw [Processes.move_loc_of_ne s hj]
      intro he hrid
      have hlt := hs.loc j
      rw [he] at hlt
      have hlt : row.id < s.shared.nextId := hlt
      rw [hrid] at hlt
      exact absurd hlt (Nat.lt_irrefl _)

/-! ### The beginning of a task -/

theorem EvidenceDb.withdrawConsent_ok {id : Nat} {next : EvidenceDb × Bool}
    (h : db.withdrawConsent id = .ok next) :
    ∃ x, db.sessions.find? id = some x ∧ ¬ x.status.isTerminal ∧
      next = (db.changeSession id (.finalize .candidateWithdrew db.clock), x.legalHold) := by
  unfold withdrawConsent at h
  split at h
  · cases h
  next x hx =>
    split at h
    · cases h
    next hterminal =>
      split at h
      · cases h
      · exact ⟨x, hx, hterminal, (Except.ok.inj h).symm⟩

/-- How an upload or a withdrawal begins. -/
structure EvidenceDb.Begun (sessionId : Nat) (db db' : EvidenceDb)
    (p' : EvidenceProcess) : Prop where
  ordinary : db'.Ordinary
  nextId : db'.nextId = db.nextId
  items : db'.items = db.items
  task : ∀ id row, p' ≠ .stored id row
  taskOk : db'.TaskOk p'
  withdrawn : db.Withdrawn sessionId → db'.Withdrawn sessionId ∧ p' ≠ .withdrawing sessionId
  began : db'.Withdrawn sessionId → db.Withdrawn sessionId ∨ p' = .withdrawing sessionId

theorem EvidenceDb.begun_upload (h : db.Ordinary) (id : Nat) (kind : UploadKind) :
    db.Begun sessionId db (db.receiveUpload id kind) := by
  have hp : db.receiveUpload id kind = .idle ∨ ∃ u, db.receiveUpload id kind = .uploading u := by
    unfold receiveUpload
    split
    · exact .inl rfl
    · split
      · exact .inr ⟨_, rfl⟩
      · exact .inl rfl
  refine ⟨h, rfl, rfl, fun id row he => ?_, ?_, fun hw => ⟨hw, fun he => ?_⟩, .inl⟩
  · rcases hp with hp | ⟨u, hp⟩ <;> rw [hp] at he <;> cases he
  · rcases hp with hp | ⟨u, hp⟩ <;> rw [hp] <;> trivial
  · rcases hp with hp | ⟨u, hp⟩ <;> rw [hp] at he <;> cases he

theorem EvidenceDb.begun_idle (h : db.Ordinary) : db.Begun sessionId db .idle :=
  ⟨h, rfl, rfl, fun _ _ he => (by cases he), trivial, fun hw => ⟨hw, fun he => by cases he⟩, .inl⟩

theorem EvidenceDb.begun_withdraw (h : db.Ordinary) (id : Nat) :
    db.Begun sessionId (db.startTask (.withdraw id)).1 (db.startTask (.withdraw id)).2 := by
  simp only [startTask]
  split
  · exact begun_idle h
  next next legalHold hok =>
    obtain ⟨x, hx, hterminal, hnext⟩ := withdrawConsent_ok hok
    obtain ⟨rfl, rfl⟩ := Prod.mk.inj hnext
    obtain ⟨hxmem, hxid⟩ := Table.find?_eq_some.1 hx
    rw [h.unheld x hxmem]
    have hother (hne : id ≠ sessionId) :
        (db.changeSession id (.finalize .candidateWithdrew db.clock)).Withdrawn sessionId ↔
          db.Withdrawn sessionId :=
      withdrawn_changeSession h fun he => absurd he hne
    refine ⟨h.changeSession fun _ he => (by cases he), rfl, rfl, fun _ _ he => (by cases he), trivial,
      fun hw => ?_, fun hw => ?_⟩
    · have hne : id ≠ sessionId := by
        rintro rfl
        obtain ⟨y, hy, hwy⟩ := withdrawn_iff_find?.1 hw
        rw [hx] at hy
        rw [← some.inj hy] at hwy
        exact hterminal (h.ended x hxmem hwy)
      exact ⟨(hother hne).2 hw, fun he => hne (by cases he; rfl)⟩
    · by_cases hid : id = sessionId
      · exact .inr (by rw [hid]; rfl)
      · exact .inl ((hother hid).1 hw)

theorem Awaited.start (h : Awaited sessionId s)
    (hk : s.loc k = .idle) (hb : s.shared.Begun sessionId db' p') :
    Awaited sessionId (s.move k (db', p')) := by
  intro hw'
  rcases hb.began hw' with hw | hp'
  · rcases h hw with hawait | hcovered
    · have hkept := @Processes.exists_loc_move _ ι _ _ k s (db', p')
        (fun p => p = EvidenceProcess.withdrawing sessionId) hawait
      refine .inl (hkept fun he => ?_)
      rw [hk] at he
      cases he
    · refine .inr fun r hr => ?_
      obtain ⟨hmem, hs⟩ := hr
      rw [Processes.move_shared, hb.items] at hmem
      obtain ⟨j, row, hj, hrow⟩ := hcovered r ⟨hmem, hs⟩
      refine ⟨j, row, ?_, hrow⟩
      rw [Processes.move_loc_of_ne s (fun hjk => ?_)]
      · exact hj
      · rw [hjk, hk] at hj
        cases hj
  · exact .inl ⟨k, by rw [Processes.move_loc_self]; exact hp'⟩

theorem Left.start (h : Left sessionId s)
    (hb : s.shared.Begun sessionId db' p') : Left sessionId (s.move k (db', p')) := by
  obtain ⟨hw, hnone, r, ⟨hmem, hr⟩, hclient, hrow⟩ := h
  obtain ⟨hw', hp'⟩ := hb.withdrawn hw
  refine ⟨hw', fun j => ?_, r, ⟨?_, hr⟩, hclient, fun j id row => ?_⟩
  · by_cases hj : j = k
    · rw [hj, Processes.move_loc_self]
      exact hp'
    · rw [Processes.move_loc_of_ne s hj]
      exact hnone j
  · rw [Processes.move_shared, hb.items]
    exact hmem
  · by_cases hj : j = k
    · rw [hj, Processes.move_loc_self]
      exact fun he => absurd he (hb.task id row)
    · rw [Processes.move_loc_of_ne s hj]
      exact hrow j id row

/-! ### Steps -/

/-- What a step of the environment leaves as it is. -/
structure EvidenceDb.Beside (sessionId : Nat) (db db' : EvidenceDb) : Prop where
  ordinary : db'.Ordinary
  nextId : db'.nextId = db.nextId
  items : db'.items = db.items
  withdrawn : db'.Withdrawn sessionId ↔ db.Withdrawn sessionId

theorem EvidenceDb.beside_checks (h : db.Ordinary) (openChecks : List (Nat × Nat))
    (clock : Int) : db.Beside sessionId { db with openChecks, clock } :=
  ⟨⟨h.unheld, h.ended, h.below⟩, rfl, rfl, Iff.rfl⟩

section

variable (hs : WithdrawalOutline s) (hi : (withdrawalMachine ι).enabled i s)
include hs hi

theorem withdrawal_step : (∃ k mv, i = .next k mv ∧ mv.ofWithdrawal = true) ∨
    (∃ k db' p', evidenceStep i s = s.move k (db', p') ∧ s.loc k = .idle ∧
      ∀ sessionId, s.shared.Begun sessionId db' p') ∨
    ∃ db', evidenceStep i s = s.setShared db' ∧ ∀ sessionId, s.shared.Beside sessionId db' := by
  obtain ⟨hi, hof⟩ := hi
  cases i with
  | next k mv => exact .inl ⟨k, mv, rfl, hof⟩
  | start k task =>
    refine .inr (.inl ⟨k, _, _, rfl, hi, fun sessionId => ?_⟩)
    cases task with
    | upload id kind => exact EvidenceDb.begun_upload hs.shared id kind
    | withdraw id => exact EvidenceDb.begun_withdraw hs.shared id
    | retention | sandboxPurge | erase candidateId => cases hof
  | tick d => exact .inr (.inr ⟨_, rfl, fun _ => EvidenceDb.beside_checks hs.shared _ _⟩)
  | openCheck | closeCheck checkId =>
    exact .inr (.inr ⟨_, rfl, fun _ => EvidenceDb.beside_checks hs.shared _ _⟩)
  | session id c =>
    have hc : ∀ enabled, c ≠ .setLegalHold enabled := by
      rintro enabled rfl
      cases hof
    refine .inr (.inr ⟨_, rfl, fun sessionId => ⟨hs.shared.changeSession hc, rfl, rfl,
      EvidenceDb.withdrawn_changeSession hs.shared fun _ endedAt he => ?_⟩⟩)
    rw [he] at hi
    exact hi.1 rfl

theorem withdrawalOutline_step : WithdrawalOutline (evidenceStep i s) := by
  rcases withdrawal_step hs hi with ⟨k, mv, rfl, hmv⟩ | ⟨k, db', p', hstep, -, hb⟩ | ⟨db', hstep, hb⟩
  · have hm : EvidenceDb.Moved 0 mv s.shared (s.loc k) (s.shared.nextMove mv (s.loc k)).1
        (s.shared.nextMove mv (s.loc k)).2 := EvidenceDb.moved_nextMove hs.shared (hs.loc k) hmv
    exact Processes.Outline.move hs hm.ordinary hm.task fun _ _ _ hq => hq.mono hm.nextId
  · rw [hstep]
    exact Processes.Outline.move hs (hb 0).ordinary (hb 0).taskOk fun _ _ _ hq =>
      hq.mono (Nat.le_of_eq (hb 0).nextId.symm)
  · rw [hstep]
    exact Processes.Outline.setShared hs (hb 0).ordinary fun _ _ hq =>
      hq.mono (Nat.le_of_eq (hb 0).nextId.symm)

theorem Awaited.step (h : Awaited sessionId s) (hframe : ¬ LateFrame sessionId s i) :
    Awaited sessionId (evidenceStep i s) := by
  rcases withdrawal_step hs hi with ⟨k, mv, rfl, hmv⟩ | ⟨k, db', p', hstep, hk, hb⟩ | ⟨db', hstep, hb⟩
  · exact h.move (EvidenceDb.moved_nextMove hs.shared (hs.loc k) hmv) hframe
  · rw [hstep]
    exact h.start hk (hb sessionId)
  · rw [hstep]
    intro hw
    refine (h ((hb sessionId).withdrawn.1 hw)).imp_right fun hcovered r hr => hcovered r ⟨?_, hr.2⟩
    have hmem := hr.1
    rw [Processes.setShared_shared, (hb sessionId).items] at hmem
    exact hmem

theorem Left.step (h : Left sessionId s) : Left sessionId (evidenceStep i s) := by
  rcases withdrawal_step hs hi with ⟨k, mv, rfl, hmv⟩ | ⟨k, db', p', hstep, -, hb⟩ | ⟨db', hstep, hb⟩
  · exact h.move (EvidenceDb.moved_nextMove hs.shared (hs.loc k) hmv)
  · rw [hstep]
    exact h.start (hb sessionId)
  · rw [hstep]
    obtain ⟨hw, hnone, r, ⟨hmem, hr⟩, hrow⟩ := h
    refine ⟨(hb sessionId).withdrawn.2 hw, hnone, r, ⟨?_, hr⟩, hrow⟩
    rw [Processes.setShared_shared, (hb sessionId).items]
    exact hmem

end

theorem awaited_or_left {s₀ : EvidenceServer ι} (h₀ : BeforeWithdrawal s₀)
    {is : List (EvidenceInput ι)} (his : (withdrawalMachine ι).Admits s₀ is) (sessionId : Nat) :
    WithdrawalOutline ((withdrawalMachine ι).run s₀ is) ∧
    ((withdrawalMachine ι).EachStep (fun s i => ¬ LateFrame sessionId s i) s₀ is →
      Awaited sessionId ((withdrawalMachine ι).run s₀ is)) ∧
    (¬ (withdrawalMachine ι).EachStep (fun s i => ¬ LateFrame sessionId s i) s₀ is →
      Left sessionId ((withdrawalMachine ι).run s₀ is)) := by
  refine Machine.run_invariant (I := fun is s => WithdrawalOutline s ∧
    ((withdrawalMachine ι).EachStep (fun s i => ¬ LateFrame sessionId s i) s₀ is →
      Awaited sessionId s) ∧
    (¬ (withdrawalMachine ι).EachStep (fun s i => ¬ LateFrame sessionId s i) s₀ is →
      Left sessionId s)) ?_ ?_ his
  · refine ⟨⟨h₀.rows, fun k => ?_⟩, fun _ hw => absurd hw (h₀.consent sessionId),
      fun hnot => absurd trivial hnot⟩
    rw [h₀.idle k]
    trivial
  · rintro is i - hi ⟨hs, hawaited, hleft⟩
    refine ⟨withdrawalOutline_step hs hi, fun heach => ?_, fun hnot => ?_⟩
    · obtain ⟨heach, hframe⟩ := Machine.eachStep_concat.1 heach
      exact (hawaited heach).step hs hi hframe
    · by_cases heach : (withdrawalMachine ι).EachStep (fun s i => ¬ LateFrame sessionId s i) s₀ is
      · have hframe : LateFrame sessionId ((withdrawalMachine ι).run s₀ is) i := by
          by_contra hframe
          exact hnot (Machine.eachStep_concat.2 ⟨heach, hframe⟩)
        exact hframe.left hs
      · exact (hleft heach).step hs hi

/-- **A withdrawal leaves no image or recording** exactly if no check frame is stored after its
purge. -/
theorem withdrawal_purges_iff {s₀ : EvidenceServer ι} (h₀ : BeforeWithdrawal s₀)
    {is : List (EvidenceInput ι)} (his : (withdrawalMachine ι).Admits s₀ is) {sessionId : Nat}
    (hw : ((withdrawalMachine ι).run s₀ is).shared.Withdrawn sessionId)
    (hfinished : Finished sessionId ((withdrawalMachine ι).run s₀ is)) :
    (∀ r ∈ ((withdrawalMachine ι).run s₀ is).shared.items.rows, r.sessionId = some sessionId →
      r.purgedAt ≠ none) ↔
    (withdrawalMachine ι).EachStep (fun s i => ¬ LateFrame sessionId s i) s₀ is := by
  obtain ⟨-, hawaited, hleft⟩ := awaited_or_left h₀ his sessionId
  constructor
  · intro hpurged
    by_contra hnot
    obtain ⟨-, -, r, ⟨hmem, hs, hp⟩, -⟩ := hleft hnot
    exact hpurged r hmem hs hp
  · intro heach r hmem hs hp
    rcases hawaited heach hw with ⟨k, hk⟩ | hcovered
    · have hk' := hfinished k
      rw [hk] at hk'
      simp [EvidenceProcess.concerns] at hk'
    · obtain ⟨k, row, hk, -⟩ := hcovered r ⟨hmem, hs, hp⟩
      have hk' := hfinished k
      rw [hk] at hk'
      simp [EvidenceProcess.concerns] at hk'

end

/-- A running exam with an open check and nothing stored, and two processes. -/
def openCheckDuringExam : EvidenceServer Bool where
  shared := {
    sessions := Table.empty.insert {
      id := 0, orgId := 0, candidateId := 0, status := .active, startedAt := some 0
      endedAt := none, endReason := none, consentAcceptedAt := some 0
      legalHold := false, evidencePurgedAt := none, evidenceDays := 30, eventDays := 30
      lastActivityAt := 0 }
    openChecks := [(0, 0)] }
  loc := fun _ => .idle

theorem openCheckDuringExam_before : BeforeWithdrawal openCheckDuringExam where
  idle _ := rfl
  rows := ⟨by decide, by decide, by decide⟩
  consent sessionId := by
    rintro ⟨x, hx, -, hw⟩
    have hnone : ∀ x ∈ openCheckDuringExam.shared.sessions.rows, x.endReason = none := by decide
    cases (hnone x hx).symm.trans hw

/-- A segment of the recording is stored after the purge; its upload deletes it. -/
def segmentAfterPurge : List (EvidenceInput Bool) :=
  [.start true (.upload 0 .recording), .start false (.withdraw 0), .next false (.purge {}),
    .next true (.store true false false), .next true (.recheck {})]

theorem withdrawal_purges_segment :
    Finished 0 ((withdrawalMachine Bool).run openCheckDuringExam segmentAfterPurge) ∧
    ∀ r ∈ ((withdrawalMachine Bool).run openCheckDuringExam segmentAfterPurge).shared.items.rows,
      r.sessionId = some 0 → r.purgedAt ≠ none := by
  have hfinished : Finished 0 ((withdrawalMachine Bool).run openCheckDuringExam segmentAfterPurge) := by
    unfold Finished
    decide
  refine ⟨hfinished, (withdrawal_purges_iff openCheckDuringExam_before (by decide) (by decide)
    hfinished).2 ⟨?_, ?_, ?_, ?_, ?_, trivial⟩⟩
  · rintro ⟨_, _, hi, -⟩
    cases hi
  · rintro ⟨_, _, hi, -⟩
    cases hi
  · rintro ⟨_, _, hi, ⟨_, _, _, _, _, rfl, -⟩, -⟩
    cases hi
  · rintro ⟨k, _, hi, ⟨_, _, _, u, _, -, hu, hkind, -⟩, -⟩
    cases hi
    have hloc : ((withdrawalMachine Bool).run openCheckDuringExam
        [.start true (.upload 0 .recording), .start false (.withdraw 0),
          .next false (.purge {})]).loc true = .uploading ⟨.recording, 0, 0⟩ := by decide
    cases hloc.symm.trans hu
    cases hkind
  · rintro ⟨_, _, hi, ⟨_, _, _, _, _, rfl, -⟩, -⟩
    cases hi

/-- A check frame whose analysis takes longer than the withdrawal and its purge. -/
def frameAfterPurge : List (EvidenceInput Bool) :=
  [.start true (.upload 0 (.checkFrame 0)), .start false (.withdraw 0), .next false (.purge {}),
    .next true (.store true true false)]

/-- **Two images of the candidate stay** after consent was withdrawn and everything has finished. -/
theorem frame_after_purge_stays : BeforeWithdrawal openCheckDuringExam ∧
    (withdrawalMachine Bool).Admits openCheckDuringExam frameAfterPurge ∧
    ((withdrawalMachine Bool).run openCheckDuringExam frameAfterPurge).shared.Withdrawn 0 ∧
    (∀ k, ((withdrawalMachine Bool).run openCheckDuringExam frameAfterPurge).loc k = .idle) ∧
    ((withdrawalMachine Bool).run openCheckDuringExam frameAfterPurge).shared.items.rows.map
      (fun r => (r.sessionId, r.purgedAt)) = [(some 0, none), (some 0, none)] :=
  ⟨openCheckDuringExam_before, by decide, by decide, by decide, by decide⟩

end SmartProctoring
