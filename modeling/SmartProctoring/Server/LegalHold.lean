import SmartProctoring.Server.SessionEvidence

/-!
# What may be deleted

The purges of a withdrawal, of retention and of sandboxes look at the legal hold again under the
session's row lock.  The erasure of a candidate looks at it once and then deletes one blob after
another, and retention does not look at the end of the session again, which may have been reopened
and ended since it was selected.  Where neither happens, no blob is deleted under a legal hold, and
retention deletes only what is due (`deletions_allowed`).

Every transaction leaves the sessions of the rows and of the candidates as they are
(`EvidenceDb.Later`); so what a process knows about them stays true while others run.
-/

set_option autoImplicit false

namespace SmartProctoring

open List Option

/-! ## What stays true -/

/-- A later state of the rows: no session is new or changes its candidate, a row of evidence is an
old one or has a new number, and a hold is new only on the sessions that satisfy `held`. -/
structure EvidenceDb.Later (held : Nat → Prop) (db db' : EvidenceDb) : Prop where
  sessions : ∀ x' ∈ db'.sessions.rows, ∃ x ∈ db.sessions.rows, x.id = x'.id ∧
    x.candidateId = x'.candidateId ∧ x.evidenceDays = x'.evidenceDays ∧
      (x'.legalHold = true → x.legalHold = true ∨ held x.id)
  items : ∀ r' ∈ db'.items.rows,
    (∃ r ∈ db.items.rows, r.id = r'.id ∧ r.sessionId = r'.sessionId ∧
      r.candidateId = r'.candidateId) ∨
    (db.nextId ≤ r'.id ∧ r'.id < db'.nextId ∧
      ∀ x' ∈ db'.sessions.rows, r'.sessionId = some x'.id → r'.candidateId = x'.candidateId)
  nextId : db.nextId ≤ db'.nextId
  clock : db.clock ≤ db'.clock

/-- No hold is placed. -/
abbrev unheld : Nat → Prop := fun _ => False

namespace EvidenceDb

variable {held : Nat → Prop} {db db' db'' : EvidenceDb}

theorem Later.refl (db : EvidenceDb) : db.Later held db where
  sessions x hx := ⟨x, hx, rfl, rfl, rfl, .inl⟩
  items r hr := .inl ⟨r, hr, rfl, rfl, rfl⟩
  nextId := Nat.le_refl _
  clock := Int.le_refl _

theorem Later.trans (h : db.Later unheld db') (h' : db'.Later unheld db'') :
    db.Later unheld db'' where
  sessions x'' hx'' := by
    obtain ⟨x', hx', hid', hc', hd', hh'⟩ := h'.sessions x'' hx''
    obtain ⟨x, hx, hid, hc, hd, hh⟩ := h.sessions x' hx'
    refine ⟨x, hx, hid.trans hid', hc.trans hc', hd.trans hd', fun hhold => ?_⟩
    exact (hh' hhold).elim hh False.elim
  items r'' hr'' := by
    have hnext := h.nextId
    have hnext' := h'.nextId
    rcases h'.items r'' hr'' with ⟨r', hr', hid', hs', hc'⟩ | ⟨hlo, hhi, hcand⟩
    · rcases h.items r' hr' with ⟨r, hr, hid, hs, hc⟩ | ⟨hlo, hhi, hcand⟩
      · exact .inl ⟨r, hr, hid.trans hid', hs.trans hs', hc.trans hc'⟩
      · refine .inr ⟨by omega, by omega, fun x'' hx'' hxs => ?_⟩
        obtain ⟨x', hx', hid, hc, -, -⟩ := h'.sessions x'' hx''
        rw [← hc', ← hc]
        exact hcand x' hx' (by rw [hs', hxs, hid])
    · exact .inr ⟨by omega, hhi, hcand⟩
  nextId := Nat.le_trans h.nextId h'.nextId
  clock := Int.le_trans h.clock h'.clock

theorem WellFormed.later (hw : db.WellFormed) (h : db.Later held db') : db'.WellFormed where
  below r' hr' := by
    have hnext := h.nextId
    rcases h.items r' hr' with ⟨r, hr, hid, -, -⟩ | ⟨-, hlt, -⟩
    · have hlt := hw.below r hr
      omega
    · exact hlt
  candidate r' hr' x' hx' hxs := by
    rcases h.items r' hr' with ⟨r, hr, -, hs, hc⟩ | ⟨-, -, hcand⟩
    · obtain ⟨x, hx, hid, hxc, -, -⟩ := h.sessions x' hx'
      rw [← hc, ← hxc]
      exact hw.candidate r hr x hx (by rw [hs, hxs, hid])
    · exact hcand x' hx' hxs

/-! ## What the operations change -/

variable {sessionId : Nat}

theorem later_updateSession {f : EvidenceSession → EvidenceSession}
    {hf : ∀ s, (f s).id = s.id} (hcand : ∀ s, (f s).candidateId = s.candidateId)
    (hdays : ∀ s, (f s).evidenceDays = s.evidenceDays)
    (hhold : ∀ s, s.id = sessionId → (f s).legalHold = true → s.legalHold = true ∨ held s.id) :
    db.Later held (db.updateSession sessionId f hf) where
  sessions x' hx' := by
    obtain ⟨x, hx, rfl⟩ := mem_map.1 hx'
    refine ⟨x, hx, ?_⟩
    split
    next h =>
      exact ⟨(hf x).symm, (hcand x).symm, (hdays x).symm, hhold x (of_decide_eq_true h)⟩
    next => exact ⟨rfl, rfl, rfl, .inl⟩
  items r hr := .inl ⟨r, hr, rfl, rfl, rfl⟩
  nextId := Nat.le_refl _
  clock := Int.le_refl _

theorem later_changeSession {c : SessionChange} (hc : c = .setLegalHold true → held sessionId) :
    db.Later held (db.changeSession sessionId c) := by
  refine later_updateSession (fun s => ?_) (fun s => ?_) (fun s hid hhold => ?_)
  · exact (EvidenceSession.change_keeps db.clock c s).1
  · exact (EvidenceSession.change_keeps db.clock c s).2.1
  · by_cases h : c = .setLegalHold true
    · exact .inr (hid ▸ hc h)
    · exact .inl ((EvidenceSession.change_keeps db.clock c s).2.2 h hhold)

theorem later_markPurged (sessionId : Nat) (now : Int) :
    db.Later held (db.markPurged sessionId now) :=
  later_updateSession (fun _ => rfl) (fun _ => rfl) fun _ _ => .inl

theorem later_purgeEvidenceRows (rows : List EvidenceItem) (run : PurgeRun)
    (reason : EvidencePurgeReason) (now : Int) :
    db.Later held (db.purgeEvidenceRows rows run reason now) where
  sessions x hx := ⟨x, hx, rfl, rfl, rfl, .inl⟩
  items r' hr' := by
    obtain ⟨r, hr, rfl⟩ := mem_map.1 hr'
    refine .inl ⟨r, hr, ?_⟩
    split <;> exact ⟨rfl, rfl, rfl⟩
  nextId := Nat.le_refl _
  clock := Int.le_refl _

theorem later_filter (sel : EvidenceItem → Bool) (sel' : EvidenceSession → Bool) :
    db.Later held { db with items := db.items.filter sel, sessions := db.sessions.filter sel' } where
  sessions x hx := ⟨x, (mem_filter.1 hx).1, rfl, rfl, rfl, .inl⟩
  items r hr := .inl ⟨r, (mem_filter.1 hr).1, rfl, rfl, rfl⟩
  nextId := Nat.le_refl _
  clock := Int.le_refl _

theorem later_filterItems (sel : EvidenceItem → Bool) :
    db.Later held { db with items := db.items.filter sel } where
  sessions x hx := ⟨x, hx, rfl, rfl, rfl, .inl⟩
  items r hr := .inl ⟨r, (mem_filter.1 hr).1, rfl, rfl, rfl⟩
  nextId := Nat.le_refl _
  clock := Int.le_refl _

theorem later_storeEvidence {sessionId candidateId : Nat} (clientId : Option Nat)
    (hu : ∀ x ∈ db.sessions.rows, x.id = sessionId → candidateId = x.candidateId) :
    db.Later held (db.storeEvidence sessionId candidateId clientId) where
  sessions x hx := ⟨x, hx, rfl, rfl, rfl, .inl⟩
  items r' hr' := by
    have hcases : r' ∈ db.items.rows ∨ r' ∈ [db.newItem sessionId candidateId clientId] :=
      Table.mem_of_mem_foldl_insert hr'
    rcases hcases with hr | hr
    · exact .inl ⟨r', hr, rfl, rfl, rfl⟩
    · rw [mem_singleton.1 hr]
      refine .inr ⟨Nat.le_refl _, Nat.lt_succ_self _, fun x hx hxs => ?_⟩
      exact hu x hx (some.inj hxs).symm
  nextId := Nat.le_succ _
  clock := Int.le_refl _

theorem later_storeImages {sessionId candidateId : Nat} (n : Nat)
    (hu : ∀ x ∈ db.sessions.rows, x.id = sessionId → candidateId = x.candidateId) :
    db.Later unheld (storeImages sessionId candidateId n db) := by
  induction n generalizing db with
  | zero => exact .refl db
  | succ n ih => exact (later_storeEvidence none hu).trans (ih hu)

theorem later_storeUpload {u : Upload} {frame crop late : Bool}
    (hu : ∀ x ∈ db.sessions.rows, x.id = u.sessionId → u.candidateId = x.candidateId) :
    db.Later unheld (db.storeUpload u frame crop late).1 := by
  unfold storeUpload
  split
  · split
    · exact .refl db
    · exact later_storeEvidence _ hu
  · exact later_storeEvidence _ hu
  · split
    · exact later_storeImages _ hu
    · exact .refl db
  · split
    · exact .refl db
    · split
      · exact later_storeImages _ hu
      · exact .refl db

theorem later_recheckUpload (sessionId : Nat) (row : EvidenceItem) (run : PurgeRun) :
    db.Later unheld (db.recheckUpload sessionId row run) := by
  unfold recheckUpload
  split
  · exact .refl db
  · split
    · exact later_purgeEvidenceRows _ _ _ _
    · exact .refl db

theorem later_withdrawConsent {next : EvidenceDb × Bool}
    (h : db.withdrawConsent sessionId = .ok next) : db.Later unheld next.1 := by
  unfold withdrawConsent at h
  split at h
  · cases h
  · split at h
    · cases h
    · split at h
      · cases h
      · cases h
        exact later_changeSession (by intro h; cases h)

theorem later_purgeWithdrawn (sessionId : Nat) (run : PurgeRun) :
    db.Later unheld (db.purgeWithdrawnSessionEvidence sessionId run) := by
  unfold purgeWithdrawnSessionEvidence
  split
  · exact .refl db
  · split
    · exact .refl db
    · have hpurge : db.Later unheld (db.purgeSessionEvidence sessionId run .consentWithdrawn db.clock) :=
        later_purgeEvidenceRows _ _ _ _
      show db.Later unheld (ite _ _ _)
      split
      · exact hpurge
      · exact hpurge.trans (later_markPurged _ _)

theorem later_purgeSessionEvidenceNow (sessionId : Nat) (now : Int) (run : PurgeRun) :
    db.Later unheld (db.purgeSessionEvidenceNow sessionId now run) := by
  unfold purgeSessionEvidenceNow
  split
  · exact .refl db
  · split
    · exact .refl db
    · have hpurge : db.Later unheld (db.purgeSessionEvidence sessionId run .retention now) :=
        later_purgeEvidenceRows _ _ _ _
      show db.Later unheld (ite _ _ _)
      split
      · exact hpurge
      · exact hpurge.trans (later_markPurged _ _)

theorem later_purgeEventMetadataNow (sessionId : Nat) (now : Int) :
    db.Later unheld (db.purgeEventMetadataNow sessionId now) := by
  unfold purgeEventMetadataNow
  split
  · exact .refl db
  · split
    · exact .refl db
    · split
      · exact .refl db
      · exact later_filterItems _

theorem later_deleteSession (orgId sessionId : Nat) (cutoff now : Int) (run : PurgeRun) :
    db.Later unheld (db.deleteSession orgId sessionId cutoff now run) := by
  unfold deleteSession
  split
  · exact .refl db
  · split
    · exact .refl db
    · split
      · exact .refl db
      · have hpurge : db.Later unheld (db.purgeSessionEvidence sessionId run .sandbox now) :=
          later_purgeEvidenceRows _ _ _ _
        show db.Later unheld (ite _ _ _)
        split
        · exact hpurge
        · exact hpurge.trans (later_filter _ _)

theorem later_deleteCandidate (orgId candidateId : Nat) (quiet : Bool) (now : Int) (run : PurgeRun) :
    db.Later unheld (db.deleteCandidate orgId candidateId quiet now run) := by
  unfold deleteCandidate
  split
  · exact .refl db
  · split
    · exact .refl db
    · have hpurge : db.Later unheld
          (db.purgeEvidenceRows (db.candidateItems candidateId) run .sandbox now) :=
        later_purgeEvidenceRows _ _ _ _
      show db.Later unheld (ite _ _ _)
      split
      · exact hpurge
      · exact hpurge.trans (later_filterItems _)

theorem later_erasureStep (e : Erasure) (run : PurgeRun) :
    db.Later unheld (db.erasureStep e run).1 := by
  unfold erasureStep
  split
  · exact later_purgeEvidenceRows _ _ _ _
  · exact .refl db
  · exact later_filter _ _

end EvidenceDb

/-! ## What a process knows -/

/-- An erasure in progress: no session of its candidate is under hold, and what it has still to
purge is of that candidate's sessions. -/
structure EvidenceDb.ErasureOk (db : EvidenceDb) (e : Erasure) : Prop where
  unheld : ∀ x ∈ db.sessions.rows, x.candidateId = e.candidateId → x.legalHold = false
  phases : ∀ id, ErasurePhase.session id ∈ e.phases → ∀ x ∈ db.sessions.rows, x.id = id →
    x.candidateId = e.candidateId
  rows : ∀ row ∈ e.rows, row.id < db.nextId ∧ ∀ r ∈ db.items.rows, r.id = row.id →
    ∀ x ∈ db.sessions.rows, r.sessionId = some x.id → x.candidateId = e.candidateId

namespace EvidenceDb

variable {held : Nat → Prop} {db db' : EvidenceDb} {p : EvidenceProcess}

/-- An upload knows the candidate of its session, and retention that the sessions on its list were
due when they were selected. -/
def ProcessOk (db : EvidenceDb) : EvidenceProcess → Prop
  | .uploading u => ∀ x ∈ db.sessions.rows, x.id = u.sessionId → u.candidateId = x.candidateId
  | .retention now due =>
    now ≤ db.clock ∧ ∀ d ∈ due, ∀ x ∈ db.sessions.rows, x.id = d.id → x.dueAt d.endedAt ≤ now
  | .erasing e => db.ErasureOk e
  | _ => True

variable {e : Erasure}

theorem ErasureOk.later (he : db.ErasureOk e) (h : db.Later held db')
    (hheld : ∀ x ∈ db.sessions.rows, held x.id → x.candidateId ≠ e.candidateId) :
    db'.ErasureOk e where
  unheld x' hx' hc' := by
    obtain ⟨x, hx, hid, hc, -, hhold⟩ := h.sessions x' hx'
    have hxc := hc.trans hc'
    rw [Bool.eq_false_iff]
    intro ht
    rcases hhold ht with ht | hheld'
    · rw [he.unheld x hx hxc] at ht
      cases ht
    · exact hheld x hx hheld' hxc
  phases id hid x' hx' hxid := by
    obtain ⟨x, hx, hxid', hc, -, -⟩ := h.sessions x' hx'
    rw [← hc]
    exact he.phases id hid x hx (hxid'.trans hxid)
  rows row hrow := by
    obtain ⟨hlt, hcand⟩ := he.rows row hrow
    have hnext := h.nextId
    refine ⟨by omega, fun r' hr' hrid x' hx' hxs => ?_⟩
    rcases h.items r' hr' with ⟨r, hr, hid, hs, -⟩ | ⟨hlo, -, -⟩
    · obtain ⟨x, hx, hxid, hc, -, -⟩ := h.sessions x' hx'
      rw [← hc]
      exact hcand r hr (hid.trans hrid) x hx (by rw [hs, hxs, hxid])
    · omega

/-- What a process knows stays true. -/
theorem ProcessOk.later (hp : db.ProcessOk p) (h : db.Later held db')
    (hheld : ∀ e, p = .erasing e → ∀ x ∈ db.sessions.rows, held x.id →
      x.candidateId ≠ e.candidateId) : db'.ProcessOk p := by
  cases p with
  | uploading u =>
    intro x' hx' hid
    obtain ⟨x, hx, hxid, hc, -, -⟩ := h.sessions x' hx'
    rw [← hc]
    exact hp x hx (hxid.trans hid)
  | retention =>
    refine ⟨Int.le_trans hp.1 h.clock, fun d hd x' hx' hid => ?_⟩
    obtain ⟨x, hx, hxid, -, hdays, -⟩ := h.sessions x' hx'
    have hdue := hp.2 d hd x hx (hxid.trans hid)
    rw [EvidenceSession.dueAt] at hdue ⊢
    rwa [← hdays]
  | erasing e => exact ErasureOk.later hp h (hheld e rfl)
  | idle | stored | withdrawing sessionId | sandbox | erasureOpened candidateId => trivial

variable {sessionId : Nat}

theorem find?_of_mem {x : EvidenceSession} (hx : x ∈ db.sessions.rows)
    (hid : x.id = sessionId) : db.sessions.find? sessionId = some x :=
  Table.find?_eq_some.2 ⟨hx, hid⟩

theorem processOk_receiveUpload (db : EvidenceDb) (sessionId : Nat) (kind : UploadKind) :
    db.ProcessOk (db.receiveUpload sessionId kind) := by
  unfold receiveUpload
  split
  · trivial
  next s hs =>
    split
    · intro x hx hid
      rw [find?_of_mem hx hid] at hs
      rw [some.inj hs]
    · trivial

theorem processOk_selectDue (db : EvidenceDb) {now : Int} (hnow : now ≤ db.clock) (ids : List Nat) :
    db.ProcessOk (.retention now (db.selectDue now ids)) := by
  refine ⟨hnow, fun d hd x hx hid => ?_⟩
  obtain ⟨s, hs, hsd⟩ := mem_filterMap.1 hd
  split at hsd
  · cases hsd
  next endedAt hend =>
    split at hsd
    next hdue =>
      cases hsd
      have hxs : x = s := Table.eq_of_mem hx hs hid
      rw [hxs]
      exact hdue.2.2.2
    next => cases hsd

variable {r : EvidenceItem}

theorem mem_liveItems :
    r ∈ db.liveItems sessionId ↔
      r ∈ db.items.rows ∧ r.sessionId = some sessionId ∧ r.purgedAt = none := by
  rw [liveItems, mem_filter, decide_eq_true_iff]

variable {candidateId : Nat}

theorem mem_candidateItems :
    r ∈ db.candidateItems candidateId ↔
      r ∈ db.items.rows ∧ r.candidateId = candidateId ∧ r.purgedAt = none := by
  rw [candidateItems, mem_filter, decide_eq_true_iff]

theorem erasureRows_candidate (hw : db.WellFormed) (he : db.ErasureOk e)
    {phase : ErasurePhase} (hphase : phase ∈ e.phases)
    (hr : r ∈ db.erasureRows e.candidateId phase) :
    r ∈ db.items.rows ∧ ∀ x ∈ db.sessions.rows, r.sessionId = some x.id →
      x.candidateId = e.candidateId := by
  have hcandidate : r ∈ db.candidateItems e.candidateId → r ∈ db.items.rows ∧
      ∀ x ∈ db.sessions.rows, r.sessionId = some x.id → x.candidateId = e.candidateId := by
    intro hr
    obtain ⟨hr, hc, -⟩ := mem_candidateItems.1 hr
    exact ⟨hr, fun x hx hxs => (hw.candidate r hr x hx hxs).symm.trans hc⟩
  cases phase with
  | session id =>
    obtain ⟨hr, hs, -⟩ := mem_liveItems.1 hr
    refine ⟨hr, fun x hx hxs => he.phases id hphase x hx ?_⟩
    rw [hs] at hxs
    exact (some.inj hxs).symm
  | idPhoto => exact hcandidate (mem_filter.1 hr).1
  | leftovers => exact hcandidate hr

theorem erasureOk_beginErasure (h : db.beginErasure candidateId = .ok e) : db.ErasureOk e := by
  simp only [beginErasure] at h
  split at h
  · cases h
  next hnone =>
    cases h
    have hunheld : ∀ x ∈ db.sessions.rows, x.candidateId = candidateId → x.legalHold = false := by
      intro x hx hc
      rw [Bool.eq_false_iff]
      intro hhold
      exact hnone (any_eq_true.2 ⟨x, mem_filter.2 ⟨hx, decide_eq_true hc⟩, hhold⟩)
    refine ⟨hunheld, fun id hid x hx hxid => ?_, by simp⟩
    obtain hmem | hmem := mem_append.1 hid
    · obtain ⟨id', hid', heq⟩ := mem_map.1 hmem
      obtain ⟨y, hy, hyid⟩ := mem_map.1 hid'
      obtain ⟨hy, hyc⟩ := mem_filter.1 hy
      cases heq
      rw [Table.eq_of_mem hx hy (hxid.trans hyid.symm)]
      exact of_decide_eq_true hyc
    · simp at hmem

theorem processOk_erasureStep (hw : db.WellFormed) (he : db.ErasureOk e)
    (run : PurgeRun) : (db.erasureStep e run).1.ProcessOk (db.erasureStep e run).2 := by
  unfold erasureStep
  split
  next row rows hrows =>
    have he' : db.ErasureOk { e with rows } := by
      refine ⟨he.unheld, he.phases, fun row' hrow' => he.rows row' ?_⟩
      rw [hrows]
      exact mem_cons_of_mem _ hrow'
    have hlater : db.Later unheld (db.purgeEvidenceRows [row] run .candidateDeleted db.clock) :=
      later_purgeEvidenceRows _ _ _ _
    exact he'.later hlater fun _ _ h => h.elim
  next phase phases hrows hphases =>
    have hphase : phase ∈ e.phases := by
      rw [hphases]
      exact mem_cons_self
    refine ⟨he.unheld, fun id hid => he.phases id ?_, fun row hrow => ?_⟩
    · rw [hphases]
      exact mem_cons_of_mem _ hid
    · obtain ⟨hmem, hcand⟩ := erasureRows_candidate hw he hphase hrow
      refine ⟨hw.below row hmem, fun r hr hid x hx hxs => hcand x hx ?_⟩
      rw [← Table.eq_of_mem hr hmem hid]
      exact hxs
  · trivial

theorem nextMove_ok (hw : db.WellFormed) (hp : db.ProcessOk p) (mv : EvidenceMove) :
    db.Later unheld (db.nextMove mv p).1 ∧
      (db.nextMove mv p).1.ProcessOk (db.nextMove mv p).2 := by
  unfold nextMove
  split
  · refine ⟨later_storeUpload hp, ?_⟩
    unfold storeUpload
    split
    · split <;> trivial
    · trivial
    · split <;> trivial
    · split
      · trivial
      · split <;> trivial
  · exact ⟨later_recheckUpload _ _ _, trivial⟩
  · exact ⟨later_purgeWithdrawn _ _, trivial⟩
  next run now d due =>
    have hlater : db.Later unheld (db.purgeSessionEvidenceNow d.id now run) :=
      later_purgeSessionEvidenceNow _ _ _
    have hdue : db.ProcessOk (.retention now due) :=
      ⟨hp.1, fun d hd => hp.2 d (mem_cons_of_mem _ hd)⟩
    exact ⟨hlater, hdue.later hlater nofun⟩
  · exact ⟨later_erasureStep _ _, processOk_erasureStep hw hp _⟩
  · exact ⟨.refl db, processOk_selectDue db hp.1 _⟩
  next sessionId now =>
    have hlater : db.Later unheld (db.purgeEventMetadataNow sessionId now) :=
      later_purgeEventMetadataNow _ _
    exact ⟨hlater, ProcessOk.later hp hlater nofun⟩
  · exact ⟨later_deleteSession _ _ _ _ _, trivial⟩
  · exact ⟨later_deleteCandidate _ _ _ _ _, trivial⟩
  · split
    · exact ⟨.refl db, trivial⟩
    next e he => exact ⟨.refl db, erasureOk_beginErasure he⟩
  · exact ⟨.refl db, trivial⟩
  · exact ⟨.refl db, trivial⟩
  · exact ⟨.refl db, trivial⟩
  · exact ⟨.refl db, hp⟩

theorem startTask_ok (db : EvidenceDb) (task : EvidenceTask) :
    db.Later unheld (db.startTask task).1 ∧
    (db.startTask task).1.ProcessOk (db.startTask task).2 := by
  cases task with
  | upload => exact ⟨.refl db, processOk_receiveUpload _ _ _⟩
  | withdraw sessionId =>
    simp only [startTask]
    split
    · exact ⟨.refl db, trivial⟩
    next h =>
      refine ⟨later_withdrawConsent h, ?_⟩
      split <;> trivial
  | retention => exact ⟨.refl db, Int.le_refl _, by simp⟩
  | sandboxPurge => exact ⟨.refl db, trivial⟩
  | erase candidateId =>
    simp only [startTask]
    split <;> exact ⟨.refl db, trivial⟩

/-! ## What is deleted -/

/-- No blob of a session under legal hold is deleted. -/
def HoldsKept (db db' : EvidenceDb) : Prop :=
  ∀ x ∈ db.sessions.rows, x.legalHold = true → ∀ r ∈ db.items.rows, r.sessionId = some x.id →
    r.id ∈ db.blobs → r.id ∈ db'.blobs

theorem HoldsKept.of_blobs (h : ∀ b ∈ db.blobs, b ∈ db'.blobs) : db.HoldsKept db' :=
  fun _ _ _ r _ _ hb => h r.id hb

theorem mem_blobs_purgeEvidenceRows {rows : List EvidenceItem} {run : PurgeRun}
    {reason : EvidencePurgeReason} {now : Int} {b : Nat} (hb : b ∈ db.blobs)
    (hrows : ∀ row ∈ rows, row.id ≠ b) : b ∈ (db.purgeEvidenceRows rows run reason now).blobs := by
  refine mem_filter.2 ⟨hb, decide_eq_true fun hmem => ?_⟩
  obtain ⟨row, hrow, hid⟩ := mem_map.1 hmem
  exact hrows row (mem_filter.1 hrow).1 hid

theorem holdsKept_purgeEvidenceRows {rows : List EvidenceItem} (run : PurgeRun)
    (reason : EvidencePurgeReason) (now : Int)
    (h : ∀ row ∈ rows, ∀ r ∈ db.items.rows, r.id = row.id → ∀ x ∈ db.sessions.rows,
      r.sessionId = some x.id → x.legalHold = false) :
    db.HoldsKept (db.purgeEvidenceRows rows run reason now) := by
  intro x hx hhold r hr hs hb
  refine mem_blobs_purgeEvidenceRows hb fun row hrow hid => ?_
  rw [h row hrow r hr hid.symm x hx hs] at hhold
  cases hhold

theorem holdsKept_purgeSessionEvidence {s : EvidenceSession}
    (hs : db.sessions.find? sessionId = some s) (hhold : s.legalHold = false) (run : PurgeRun)
    (reason : EvidencePurgeReason) (now : Int) :
    db.HoldsKept (db.purgeSessionEvidence sessionId run reason now) := by
  refine holdsKept_purgeEvidenceRows run reason now fun row hrow r hr hid x hx hxs => ?_
  obtain ⟨hrow, hrs, -⟩ := mem_liveItems.1 hrow
  rw [Table.eq_of_mem hr hrow hid, hrs] at hxs
  rw [find?_of_mem hx (some.inj hxs).symm] at hs
  rw [some.inj hs]
  exact hhold

theorem mem_blobs_storeImages {sessionId candidateId b : Nat} (n : Nat) (hb : b ∈ db.blobs) :
    b ∈ (storeImages sessionId candidateId n db).blobs := by
  induction n generalizing db with
  | zero => exact hb
  | succ n ih => exact ih (mem_cons_of_mem _ hb)

theorem holdsKept_storeUpload (u : Upload) (frame crop late : Bool) :
    db.HoldsKept (db.storeUpload u frame crop late).1 := by
  refine .of_blobs fun b hb => ?_
  unfold storeUpload
  split
  · split
    · exact hb
    · exact mem_cons_of_mem _ hb
  · exact mem_cons_of_mem _ hb
  · split
    · exact mem_blobs_storeImages _ hb
    · exact hb
  · split
    · exact hb
    · split
      · exact mem_blobs_storeImages _ hb
      · exact hb

theorem blobs_withdrawConsent {next : EvidenceDb × Bool}
    (h : db.withdrawConsent sessionId = .ok next) : next.1.blobs = db.blobs := by
  unfold withdrawConsent at h
  split at h
  · cases h
  · split at h
    · cases h
    · split at h
      · cases h
      · cases h
        rfl

theorem holdsKept_purgeWithdrawn (sessionId : Nat) (run : PurgeRun) :
    db.HoldsKept (db.purgeWithdrawnSessionEvidence sessionId run) := by
  unfold purgeWithdrawnSessionEvidence
  split
  · exact .of_blobs fun _ => id
  next s hs =>
    split
    · exact .of_blobs fun _ => id
    next hhold =>
      have hpurge := holdsKept_purgeSessionEvidence hs (Bool.eq_false_iff.2 hhold) run
        .consentWithdrawn db.clock
      show db.HoldsKept (ite _ _ _)
      split <;> exact hpurge

theorem holdsKept_purgeSessionEvidenceNow (sessionId : Nat) (now : Int) (run : PurgeRun) :
    db.HoldsKept (db.purgeSessionEvidenceNow sessionId now run) := by
  unfold purgeSessionEvidenceNow
  split
  · exact .of_blobs fun _ => id
  next s hs =>
    split
    · exact .of_blobs fun _ => id
    next h =>
      have hhold : s.legalHold = false := Bool.eq_false_iff.2 fun ht => h (.inr (.inl ht))
      have hpurge := holdsKept_purgeSessionEvidence hs hhold run .retention now
      show db.HoldsKept (ite _ _ _)
      split <;> exact hpurge

theorem holdsKept_deleteSession (orgId sessionId : Nat) (cutoff now : Int) (run : PurgeRun) :
    db.HoldsKept (db.deleteSession orgId sessionId cutoff now run) := by
  unfold deleteSession
  split
  · exact .of_blobs fun _ => id
  · split
    · exact .of_blobs fun _ => id
    next s hs =>
      split
      · exact .of_blobs fun _ => id
      next h =>
        have hhold : s.legalHold = false := Bool.eq_false_iff.2 fun ht => h (.inr (.inl ht))
        have hpurge := holdsKept_purgeSessionEvidence hs hhold run .sandbox now
        show db.HoldsKept (ite _ _ _)
        split <;> exact hpurge

theorem holdsKept_deleteCandidate (hw : db.WellFormed) (orgId candidateId : Nat) (quiet : Bool)
    (now : Int) (run : PurgeRun) :
    db.HoldsKept (db.deleteCandidate orgId candidateId quiet now run) := by
  unfold deleteCandidate
  split
  · exact .of_blobs fun _ => id
  · split
    · exact .of_blobs fun _ => id
    next hnone =>
      have hpurge : db.HoldsKept
          (db.purgeEvidenceRows (db.candidateItems candidateId) run .sandbox now) := by
        refine holdsKept_purgeEvidenceRows run .sandbox now fun row hrow r hr hid x hx hxs => ?_
        obtain ⟨hrow, hc, -⟩ := mem_candidateItems.1 hrow
        rw [Table.eq_of_mem hr hrow hid] at hxs
        have hxc := (hw.candidate row hrow x hx hxs).symm.trans hc
        exact absurd (any_eq_true.2 ⟨x, hx, decide_eq_true hxc⟩) hnone
      show db.HoldsKept (ite _ _ _)
      split <;> exact hpurge

theorem holdsKept_erasureStep (he : db.ErasureOk e) (run : PurgeRun) :
    db.HoldsKept (db.erasureStep e run).1 := by
  unfold erasureStep
  split
  next row rows hrows =>
    refine holdsKept_purgeEvidenceRows run _ _ fun row' hrow' r hr hid x hx hxs => ?_
    have hmem : row' ∈ e.rows := by
      rw [hrows, mem_singleton.1 hrow']
      exact mem_cons_self
    exact he.unheld x hx ((he.rows row' hmem).2 r hr hid x hx hxs)
  · exact .of_blobs fun _ => id
  · exact .of_blobs fun _ => id

theorem holdsKept_nextMove (hw : db.WellFormed) (hp : db.ProcessOk p) {mv : EvidenceMove}
    (hmv : mv.isRecheck = false) : db.HoldsKept (db.nextMove mv p).1 := by
  unfold nextMove
  split
  · exact holdsKept_storeUpload _ _ _ _
  · cases hmv
  · exact holdsKept_purgeWithdrawn _ _
  · exact holdsKept_purgeSessionEvidenceNow _ _ _
  · exact holdsKept_erasureStep hp _
  · exact .of_blobs fun _ => id
  next sessionId now =>
    unfold purgeEventMetadataNow
    refine .of_blobs fun b hb => ?_
    split
    · exact hb
    · split
      · exact hb
      · split <;> exact hb
  · exact holdsKept_deleteSession _ _ _ _ _
  · exact holdsKept_deleteCandidate hw _ _ _ _ _
  · split <;> exact .of_blobs fun _ => id
  · exact .of_blobs fun _ => id
  · exact .of_blobs fun _ => id
  · exact .of_blobs fun _ => id
  · exact .of_blobs fun _ => id

theorem holdsKept_startTask (task : EvidenceTask) : db.HoldsKept (db.startTask task).1 := by
  refine .of_blobs fun b hb => ?_
  cases task with
  | upload => exact hb
  | withdraw sessionId =>
    simp only [startTask]
    split
    · exact hb
    next next h => exact blobs_withdrawConsent h ▸ hb
  | retention | sandboxPurge => exact hb
  | erase candidateId =>
    simp only [startTask]
    split <;> exact hb

end EvidenceDb

/-! ## Runs -/

section

variable {ι : Type} [DecidableEq ι]

/-- Evidence is stored, and deleted by a withdrawal, retention, the purge of a sandbox or an
erasure; an upload does not look at its session a second time. -/
def deletionMachine (ι : Type) [DecidableEq ι] : Machine (EvidenceServer ι) (EvidenceInput ι) :=
  (evidenceSystem ι).restrict fun i _ => i.isRecheck = false

instance (i : EvidenceInput ι) (s : EvidenceServer ι) :
    Decidable ((deletionMachine ι).enabled i s) :=
  inferInstanceAs (Decidable (evidenceEnabled i s ∧ i.isRecheck = false))

/-- What retention deletes is the evidence of a session that has ended and whose retention period,
counted from its end, has elapsed. -/
def RetentionOnTime (s : EvidenceServer ι) (i : EvidenceInput ι) : Prop :=
  ∀ k run now due, i = .next k (.purge run) → s.loc k = .retention now due →
    ∀ r ∈ s.shared.items.rows, r.id ∈ s.shared.blobs → r.id ∉ (evidenceStep i s).shared.blobs →
      ∃ x ∈ s.shared.sessions.rows, r.sessionId = some x.id ∧
        ∃ endedAt, x.endedAt = some endedAt ∧ x.dueAt endedAt ≤ s.shared.clock

/-- The step deletes only what may be deleted. -/
def DeletesAllowed (s : EvidenceServer ι) (i : EvidenceInput ι) : Prop :=
  s.shared.HoldsKept (evidenceStep i s).shared ∧ RetentionOnTime s i

/-- A hold is placed on a session whose candidate is being erased. -/
def HoldDuringErasure (s : EvidenceServer ι) (i : EvidenceInput ι) : Prop :=
  ∃ sessionId, i = .session sessionId (.setLegalHold true) ∧ ∃ k e, s.loc k = .erasing e ∧
    ∃ x ∈ s.shared.sessions.rows, x.id = sessionId ∧ x.candidateId = e.candidateId

/-- Retention locks a session that it may purge and that has ended later than when it was
selected. -/
def EndedAgain (s : EvidenceServer ι) (i : EvidenceInput ι) : Prop :=
  ∃ k run now d due, i = .next k (.purge run) ∧ s.loc k = .retention now (d :: due) ∧
    ∃ x ∈ s.shared.sessions.rows, x.id = d.id ∧ x.legalHold = false ∧ x.evidencePurgedAt = none ∧
      ∃ endedAt, x.endedAt = some endedAt ∧ d.endedAt < endedAt

def Undisturbed (s : EvidenceServer ι) (i : EvidenceInput ι) : Prop :=
  ¬ HoldDuringErasure s i ∧ ¬ EndedAgain s i

/-- The rows are in order, and every process knows what it should. -/
abbrev EvidenceOutline : EvidenceServer ι → Prop :=
  Processes.Outline EvidenceDb.WellFormed fun _ db p => db.ProcessOk p

variable {s : EvidenceServer ι} {i : EvidenceInput ι}

omit [DecidableEq ι] in
theorem EvidenceOutline.setShared {held : Nat → Prop} {db : EvidenceDb} (h : EvidenceOutline s)
    (hlater : s.shared.Later held db)
    (hheld : ∀ k e, s.loc k = .erasing e → ∀ x ∈ s.shared.sessions.rows, held x.id →
      x.candidateId ≠ e.candidateId) : EvidenceOutline (s.setShared db) :=
  ⟨h.shared.later hlater, fun k => (h.loc k).later hlater (hheld k)⟩

omit [DecidableEq ι] in
theorem EvidenceOutline.environment (h : EvidenceOutline s) (openChecks : List (Nat × Nat))
    {clock : Int} (hclock : s.shared.clock ≤ clock) :
    EvidenceOutline (s.setShared { s.shared with openChecks, clock }) := by
  have hlater : s.shared.Later unheld { s.shared with openChecks, clock } :=
    ⟨fun x hx => ⟨x, hx, rfl, rfl, rfl, .inl⟩, fun r hr => .inl ⟨r, hr, rfl, rfl, rfl⟩,
      Nat.le_refl _, hclock⟩
  exact h.setShared hlater fun _ _ _ _ _ hheld => hheld.elim

theorem EvidenceOutline.move {k : ι} {next : EvidenceDb × EvidenceProcess} (h : EvidenceOutline s)
    (hlater : s.shared.Later unheld next.1) (hown : next.1.ProcessOk next.2) :
    EvidenceOutline (s.move k next) :=
  Processes.Outline.move h (h.shared.later hlater) hown fun _ _ _ hp =>
    hp.later hlater fun _ _ _ _ hheld => hheld.elim

theorem evidenceOutline_step (h : EvidenceOutline s) (hhold : ¬ HoldDuringErasure s i) :
    EvidenceOutline (evidenceStep i s) := by
  cases i with
  | tick d =>
    have hclock : s.shared.clock ≤ s.shared.clock + d := by omega
    exact h.environment s.shared.openChecks hclock
  | session sessionId c =>
    have hlater : s.shared.Later (fun id => id = sessionId ∧ c = .setLegalHold true)
        (s.shared.changeSession sessionId c) :=
      EvidenceDb.later_changeSession fun hc => ⟨rfl, hc⟩
    refine h.setShared hlater ?_
    rintro k e hk x hx ⟨hid, hc⟩ hcand
    exact hhold ⟨sessionId, by rw [hc], k, e, hk, x, hx, hid, hcand⟩
  | openCheck | closeCheck checkId => exact h.environment _ (Int.le_refl _)
  | start k task =>
    obtain ⟨hlater, hown⟩ := s.shared.startTask_ok task
    exact h.move hlater hown
  | next k mv =>
    obtain ⟨hlater, hown⟩ := EvidenceDb.nextMove_ok h.shared (h.loc k) mv
    exact h.move hlater hown

theorem holdsKept_step (h : EvidenceOutline s) (hi : i.isRecheck = false) :
    s.shared.HoldsKept (evidenceStep i s).shared := by
  cases i with
  | start k task => exact EvidenceDb.holdsKept_startTask task
  | next k mv => exact EvidenceDb.holdsKept_nextMove h.shared (h.loc k) hi
  | tick d | session | openCheck | closeCheck checkId => exact .of_blobs fun _ => id

theorem EvidenceDb.deleted_purgeSessionEvidenceNow {db : EvidenceDb} {sessionId : Nat} {now : Int}
    {run : PurgeRun} {r : EvidenceItem} (hr : r ∈ db.items.rows) (hb : r.id ∈ db.blobs)
    (hgone : r.id ∉ (db.purgeSessionEvidenceNow sessionId now run).blobs) :
    ∃ x ∈ db.sessions.rows, x.id = sessionId ∧ r.sessionId = some x.id ∧ x.endedAt ≠ none ∧
      x.legalHold = false ∧ x.evidencePurgedAt = none := by
  unfold purgeSessionEvidenceNow at hgone
  split at hgone
  · exact absurd hb hgone
  next x hx =>
    obtain ⟨hx, hid⟩ := Table.find?_eq_some.1 hx
    split at hgone
    · exact absurd hb hgone
    next h =>
      refine ⟨x, hx, hid, ?_, fun he => h (.inl he),
        Bool.eq_false_iff.2 fun ht => h (.inr (.inl ht)), ?_⟩
      · by_contra hs
        have hkept : r.id ∈ (db.purgeSessionEvidence sessionId run .retention now).blobs := by
          refine mem_blobs_purgeEvidenceRows hb fun row hrow hrid => hs ?_
          obtain ⟨hrow, hrs, -⟩ := mem_liveItems.1 hrow
          rw [← Table.eq_of_mem hrow hr hrid, hrs, hid]
        refine absurd hkept fun hkept => hgone ?_
        show r.id ∈ (ite _ _ _ : EvidenceDb).blobs
        split <;> exact hkept
      · by_contra hp
        exact h (.inr (.inr (isSome_iff_ne_none.2 hp)))

theorem retentionOnTime_step (h : EvidenceOutline s) (hagain : ¬ EndedAgain s i) :
    RetentionOnTime s i := by
  rintro k run now due rfl hk r hr hb hgone
  rw [evidenceStep, hk] at hgone
  cases due with
  | nil => exact absurd hb hgone
  | cons d due =>
    obtain ⟨x, hx, hid, hs, hended, hhold, hpurged⟩ :=
      EvidenceDb.deleted_purgeSessionEvidenceNow hr hb hgone
    obtain ⟨endedAt, hend⟩ := ne_none_iff_exists'.1 hended
    refine ⟨x, hx, hs, endedAt, hend, ?_⟩
    have hle : endedAt ≤ d.endedAt := by
      by_contra hlt
      exact hagain ⟨k, run, now, d, due, rfl, hk, x, hx, hid, hhold, hpurged, endedAt, hend,
        by omega⟩
    have hown := h.loc k
    rw [hk] at hown
    have hdue := hown.2 d mem_cons_self x hx hid
    have hclock := hown.1
    rw [EvidenceSession.dueAt] at hdue ⊢
    omega

/-- **Only what may be deleted is deleted**, in every run in which no hold is placed on a session
whose candidate is being erased and no session has ended again when retention locks it. -/
theorem deletions_allowed {s₀ : EvidenceServer ι} (h₀ : (deletionMachine ι).init s₀)
    {is : List (EvidenceInput ι)} (his : (deletionMachine ι).Admits s₀ is)
    (hundisturbed : (deletionMachine ι).EachStep Undisturbed s₀ is) :
    (deletionMachine ι).EachStep DeletesAllowed s₀ is := by
  have houtline : EvidenceOutline s₀ := by
    refine ⟨h₀.1, fun k => ?_⟩
    rw [h₀.2 k]
    trivial
  refine Machine.EachStep.imp_invariant (fun s i hs hi hu => ?_) houtline his hundisturbed
  exact ⟨⟨holdsKept_step hs hi.2, retentionOnTime_step hs hu.2⟩, evidenceOutline_step hs hu.1⟩

end

/-- A session that ended long ago, with one screenshot, and one process. -/
def endedLongAgo : EvidenceServer Unit where
  shared := {
    sessions := Table.empty.insert {
      id := 0, orgId := 0, candidateId := 0, status := .submitted, startedAt := some 0
      endedAt := some 1000, endReason := some .staffSubmitted, consentAcceptedAt := some 0
      legalHold := false, evidencePurgedAt := none, evidenceDays := 1, eventDays := 30
      lastActivityAt := 1000 }
    items := Table.empty.insert {
      id := 0, clientId := some 0, sessionId := some 0, candidateId := 0, idPhoto := false
      purgedAt := none, purgeReason := none }
    blobs := [0]
    nextId := 1
    clock := 10 * DAY_MS }
  loc := fun _ => .idle

theorem endedLongAgo_init : (deletionMachine Unit).init endedLongAgo :=
  ⟨⟨by decide, by decide⟩, fun _ => rfl⟩

/-- Retention selects the session and deletes the screenshot. -/
theorem deletions_allowed_retention : (deletionMachine Unit).EachStep DeletesAllowed endedLongAgo
    [.start () .retention, .next () (.select [0]), .next () (.purge {})] := by
  refine deletions_allowed endedLongAgo_init (by decide) ⟨⟨?_, ?_⟩, ⟨?_, ?_⟩, ⟨?_, ?_⟩, trivial⟩
  · rintro ⟨_, hi, -⟩
    cases hi
  · rintro ⟨_, _, _, _, _, hi, -⟩
    cases hi
  · rintro ⟨_, hi, -⟩
    cases hi
  · rintro ⟨_, _, _, _, _, hi, -⟩
    cases hi
  · rintro ⟨_, hi, -⟩
    cases hi
  · rintro ⟨k, run, now, d, due, -, hk, x, hx, -, -, -, endedAt, hend, hlt⟩
    have hloc : ((deletionMachine Unit).run endedLongAgo
        [.start () .retention, .next () (.select [0])]).loc () =
        .retention (10 * DAY_MS) [⟨0, 1000⟩] := by decide
    have hends : ∀ x ∈ ((deletionMachine Unit).run endedLongAgo
        [.start () .retention, .next () (.select [0])]).shared.sessions.rows,
        x.endedAt = some 1000 := by decide
    cases hloc.symm.trans hk
    cases (hends x hx).symm.trans hend
    exact absurd hlt (by decide)

/-- The session comes under hold after the erasure of its candidate has looked for holds; its
screenshot is deleted. -/
def holdAfterCheck : List (EvidenceInput Unit) :=
  [.start () (.erase 0), .next () .beginErasure, .session 0 (.setLegalHold true),
    .next () (.purge {})]

/-- The session is reopened and ends again after retention has selected it; its screenshot is
deleted at once. -/
def reopenedAfterSelect : List (EvidenceInput Unit) :=
  [.start () .retention, .next () (.select [0]), .session 0 (.reopen false true false),
    .session 0 (.finalize .staffSubmitted (10 * DAY_MS))]

/-- **Protected evidence is deleted**: a screenshot of a session under legal hold, and one of a
session that has just ended. -/
theorem protected_evidence_deleted :
    ((deletionMachine Unit).Admits endedLongAgo (holdAfterCheck ++ [.next () (.purge {})]) ∧
      ¬ (deletionMachine Unit).EachStep DeletesAllowed endedLongAgo
        (holdAfterCheck ++ [.next () (.purge {})])) ∧
    ((deletionMachine Unit).Admits endedLongAgo (reopenedAfterSelect ++ [.next () (.purge {})]) ∧
      ¬ (deletionMachine Unit).EachStep DeletesAllowed endedLongAgo
        (reopenedAfterSelect ++ [.next () (.purge {})])) := by
  refine ⟨⟨by decide, fun h => ?_⟩, ⟨by decide, fun h => ?_⟩⟩
  · have hkept := h.at_step.1
    have hgone : ¬ ∀ x ∈ ((deletionMachine Unit).run endedLongAgo holdAfterCheck).shared.sessions.rows,
        x.legalHold = true →
        ∀ r ∈ ((deletionMachine Unit).run endedLongAgo holdAfterCheck).shared.items.rows,
        r.sessionId = some x.id →
        r.id ∈ ((deletionMachine Unit).run endedLongAgo holdAfterCheck).shared.blobs →
        r.id ∈ ((deletionMachine Unit).run endedLongAgo
          (holdAfterCheck ++ [.next () (.purge {})])).shared.blobs := by decide
    exact hgone hkept
  · have hloc : ((deletionMachine Unit).run endedLongAgo reopenedAfterSelect).loc () =
        .retention (10 * DAY_MS) [⟨0, 1000⟩] := by decide
    have htime := h.at_step.2 () {} _ _ rfl hloc
    have hgone : ¬ ∀ r ∈ ((deletionMachine Unit).run endedLongAgo reopenedAfterSelect).shared.items.rows,
        r.id ∈ ((deletionMachine Unit).run endedLongAgo reopenedAfterSelect).shared.blobs →
        r.id ∉ ((deletionMachine Unit).run endedLongAgo
          (reopenedAfterSelect ++ [.next () (.purge {})])).shared.blobs →
        ∃ x ∈ ((deletionMachine Unit).run endedLongAgo reopenedAfterSelect).shared.sessions.rows,
          r.sessionId = some x.id ∧ ∃ endedAt ∈ x.endedAt, x.dueAt endedAt ≤
            ((deletionMachine Unit).run endedLongAgo reopenedAfterSelect).shared.clock := by decide
    exact hgone htime

end SmartProctoring
