import SmartProctoring.Server.Quotas

/-!
# Quotas are kept

Over any interleaving of statements a transaction that passed `assertRoom` still has the room it
found when it commits: whoever makes the number grow holds the quota's advisory lock (`TxOk`, kept
by the steps of the other connections because they leave alone what its locks cover, `Leaves`).

The monthly counter counts for the month in which the request read the clock, and the sessions are
created later; so it is right exactly while no transaction commits a session of another month
(`quotas_kept_iff`).
-/

set_option autoImplicit false

namespace SmartProctoring

open List

/-! ## What a transaction adds -/

namespace QuotaWrites

/-- How much of a quota is used once the writes are committed. -/
def growth (w : QuotaWrites) : QuotaKind → Nat
  | .exams => w.exam.elim 0 (fun _ => 1) +
      w.status.elim 0 fun u => if u.2.1 = .archived then 1 else 0
  | .candidates => w.candidate.elim 0 fun _ => 1
  | .sessionsPerMonth => w.sessions.length

/-- The writes rest on rows as they still are. -/
structure Current (w : QuotaWrites) (db : QuotaDb) : Prop where
  status (examId : Nat) (cur status : ExamStatus) (h : w.status = some (examId, cur, status)) :
    ∃ e, db.exams.find? examId = some e ∧ e.status = cur
  usage (m : Month) (n : Nat) (h : w.usage = some (m, n)) :
    n = db.sessionsCreated m + w.sessions.length
  uncounted (h : w.usage = none) : w.sessions = []

end QuotaWrites

open QuotaServer (commitWrites)

variable {db : QuotaDb} {w : QuotaWrites}

theorem sessionsCreated_commitWrites (h : w.Current db) (m : Month) :
    (commitWrites db w).sessionsCreated m =
      db.sessionsCreated m + if (w.usage.map (·.1)) = some m then w.sessions.length else 0 := by
  rw [QuotaDb.sessionsCreated, QuotaDb.sessionsCreated, commitWrites]
  cases hu : w.usage with
  | none => rfl
  | some u =>
    obtain ⟨m', n⟩ := u
    show (Function.update db.orgUsage m' (some n) m).getD 0 = _
    by_cases hm : m = m'
    · subst hm
      rw [Function.update_self, Option.map_some, if_pos rfl]
      exact h.usage m n hu
    · rw [Function.update_of_ne hm, Option.map_some,
        if_neg fun he => hm (Option.some.inj he).symm]
      omega

theorem examsInUse_commitWrites (h : w.Current db) :
    (commitWrites db w).examsInUse ≤ db.examsInUse + w.growth .exams := by
  have hinsert : ∀ t : Table QuotaExam.id, ∀ p : QuotaExam → Bool,
      (w.exam.elim t t.insert).rows.countP p ≤
        t.rows.countP p + w.exam.elim 0 fun _ => 1 := by
    intro t p
    cases w.exam with
    | none => exact Nat.le_refl _
    | some e => exact t.countP_insert_le e p
  refine Nat.le_trans (hinsert _ _) ?_
  rw [QuotaWrites.growth, QuotaDb.examsInUse]
  cases hs : w.status with
  | none =>
    show db.exams.rows.countP _ + _ ≤ _ + (_ + 0)
    omega
  | some u =>
    obtain ⟨examId, cur, status⟩ := u
    obtain ⟨e, he, rfl⟩ := h.status examId cur status hs
    have hcount := Table.countP_modify he (fun e => decide (e.status ≠ .archived))
      (f := fun e => { e with status }) fun _ => rfl
    show countP _ (Table.modify _ _ _ _).rows + _ ≤
      _ + (_ + if e.status = .archived then 1 else 0)
    have hone : (if decide (({ e with status } : QuotaExam).status ≠ .archived) = true
        then 1 else 0) ≤ 1 := by
      split <;> omega
    by_cases hcur : e.status = .archived
    · rw [if_pos hcur]
      omega
    · rw [if_pos (by simp [hcur])] at hcount
      omega

theorem candidatesInUse_commitWrites (db : QuotaDb) (w : QuotaWrites) :
    (commitWrites db w).candidatesInUse ≤ db.candidatesInUse + w.growth .candidates := by
  rw [QuotaWrites.growth, commitWrites]
  cases w.candidate with
  | none => exact Nat.le_refl _
  | some c => exact db.candidates.length_insert_le c

theorem used_commitWrites (h : w.Current db) (now : Int)
    (q : QuotaKind) : (commitWrites db w).used now q ≤ db.used now q + w.growth q := by
  cases q with
  | exams => exact examsInUse_commitWrites h
  | candidates => exact candidatesInUse_commitWrites db w
  | sessionsPerMonth =>
    show (commitWrites db w).sessionsCreated _ ≤ db.sessionsCreated _ + w.sessions.length
    rw [sessionsCreated_commitWrites h]
    split <;> omega

/-! ## What a transaction may rely on -/

section

variable {i j : Nat} {s s' : QuotaServer} {now : Int} {q : QuotaKind} {n : Nat}

/-- What the locks of connection `i` cover is as it was. -/
structure Leaves (i : Nat) (s s' : QuotaServer) : Prop where
  org : s'.db.org = s.db.org
  locks (k : LockKey) (h : s.locks k = some i) : s'.locks k = some i
  used (q : QuotaKind) (h : s.locks (.quota q) = some i) (limit : Nat)
    (hl : effectiveQuotas s.db.org q = some limit) (now : Int) :
    s'.db.used now q ≤ s.db.used now q
  exam (id : Nat) (h : s.locks (.exam id) = some i) (e : QuotaExam)
    (he : s.db.exams.find? id = some e) : s'.db.exams.find? id = some e
  usage (m : Month) (h : s.locks (.usage m) = some i) : s'.db.orgUsage m = s.db.orgUsage m

/-- There is room for `n` more: with them a limit is not passed, and nobody else can use the
room. -/
def RoomFor (i : Nat) (s : QuotaServer) (now : Int) (q : QuotaKind) (n : Nat) : Prop :=
  n = 0 ∨ ∀ limit, effectiveQuotas s.db.org q = some limit →
    s.locks (.quota q) = some i ∧ s.db.used now q + n ≤ limit

theorem RoomFor.mono (h : RoomFor i s now q n) (hs : Leaves i s s') : RoomFor i s' now q n := by
  refine h.imp_right fun hroom limit hl => ?_
  rw [hs.org] at hl
  obtain ⟨hlock, hle⟩ := hroom limit hl
  have hused := hs.used q hlock limit hl now
  exact ⟨hs.locks _ hlock, by omega⟩

/-- The exam is locked, and has the status that was read. -/
def ExamHeld (i : Nat) (s : QuotaServer) (examId : Nat) (cur : ExamStatus) : Prop :=
  s.locks (.exam examId) = some i ∧ ∃ e, s.db.exams.find? examId = some e ∧ e.status = cur

theorem ExamHeld.mono {examId : Nat} {cur : ExamStatus} (h : ExamHeld i s examId cur)
    (hs : Leaves i s s') : ExamHeld i s' examId cur := by
  obtain ⟨hlock, e, he, hcur⟩ := h
  exact ⟨hs.locks _ hlock, e, hs.exam examId hlock e he, hcur⟩

namespace Creation

/-- The row that is going to be changed is held. -/
def Held (i : Nat) (s : QuotaServer) : Creation → Prop
  | .status examId cur _ => ExamHeld i s examId cur
  | _ => True

/-- What has been written so far: the sessions. -/
def Begun (w : QuotaWrites) : Creation → Prop
  | .sessions _ _ created => w = { sessions := w.sessions } ∧ w.sessions.length = created
  | _ => w = {}

theorem Held.mono {c : Creation} (h : c.Held i s) (hs : Leaves i s s') : c.Held i s' := by
  cases c with
  | status => exact ExamHeld.mono h hs
  | exam id | candidate | sessions => trivial

end Creation

/-- What a transaction is going to commit: it rests on rows that are as they were, and there is
room. -/
structure WritesOk (i : Nat) (s : QuotaServer) (now : Int) (w : QuotaWrites) : Prop where
  status (examId : Nat) (cur status : ExamStatus) (h : w.status = some (examId, cur, status)) :
    ExamHeld i s examId cur
  usage (m : Month) (n : Nat) (h : w.usage = some (m, n)) :
    s.locks (.usage m) = some i ∧ m = (quotaMonth now).month ∧
      n = s.db.sessionsCreated m + w.sessions.length
  uncounted (h : w.usage = none) : w.sessions = []
  room (q : QuotaKind) : RoomFor i s now q (w.growth q)

variable {w : QuotaWrites}

theorem WritesOk.current (h : WritesOk i s now w) : w.Current s.db :=
  ⟨fun _ _ _ hs => (h.status _ _ _ hs).2, fun _ _ hu => (h.usage _ _ hu).2.2, h.uncounted⟩

theorem WritesOk.mono (h : WritesOk i s now w) (hs : Leaves i s s') :
    WritesOk i s' now w := by
  refine ⟨fun _ _ _ hw => (h.status _ _ _ hw).mono hs, fun m n hw => ?_, h.uncounted,
    fun q => (h.room q).mono hs⟩
  obtain ⟨hlock, hm, hn⟩ := h.usage m n hw
  refine ⟨hs.locks _ hlock, hm, ?_⟩
  rw [QuotaDb.sessionsCreated, hs.usage m hlock]
  exact hn

theorem writesOk_one (hu : w.usage = none) (hs : w.sessions = [])
    (hstatus : ∀ examId cur status, w.status = some (examId, cur, status) → ExamHeld i s examId cur)
    (hroom : ∀ q, RoomFor i s now q (w.growth q)) : WritesOk i s now w := by
  refine ⟨hstatus, fun m n h => ?_, fun _ => hs, hroom⟩
  rw [hu] at h
  cases h

theorem writesOk_empty (i : Nat) (s : QuotaServer) (now : Int) : WritesOk i s now {} := by
  refine writesOk_one rfl rfl (fun _ _ _ h => by cases h) fun q => .inl ?_
  cases q <;> rfl

/-- What holds of an open transaction of connection `i`, wherever it has come. -/
def TxOk (i : Nat) (s : QuotaServer) (t : QuotaTx) : Prop :=
  match t.phase with
  | .opened => t.writes = {}
  | .examLocked _ _ => t.writes = {}
  | .candidatesFound _ _ => t.writes = {}
  | .asserting c => t.writes = {} ∧ c.Begun {} ∧ c.Held i s
  | .limitLoaded c limit => (t.writes = {} ∧ c.Begun {} ∧ c.Held i s) ∧
      effectiveQuotas s.db.org c.quota = some limit
  | .quotaLocked c limit => (t.writes = {} ∧ c.Begun {} ∧ c.Held i s) ∧
      effectiveQuotas s.db.org c.quota = some limit ∧ s.locks (.quota c.quota) = some i
  | .creating c => c.Begun t.writes ∧ c.Held i s ∧ RoomFor i s t.now c.quota c.requested
  | .finished => WritesOk i s t.now t.writes

theorem TxOk.mono {t : QuotaTx} (h : TxOk i s t) (hs : Leaves i s s') : TxOk i s' t := by
  unfold TxOk at h ⊢
  cases hp : t.phase <;> rw [hp] at h
  case opened | examLocked | candidatesFound => exact h
  case asserting c => exact ⟨h.1, h.2.1, h.2.2.mono hs⟩
  case limitLoaded c limit => exact ⟨⟨h.1.1, h.1.2.1, h.1.2.2.mono hs⟩, hs.org.symm ▸ h.2⟩
  case quotaLocked c limit =>
    exact ⟨⟨h.1.1, h.1.2.1, h.1.2.2.mono hs⟩, hs.org.symm ▸ h.2.1, hs.locks _ h.2.2⟩
  case creating c => exact ⟨h.1, h.2.1.mono hs, h.2.2.mono hs⟩
  case finished => exact WritesOk.mono h hs

/-! ## The statements of a transaction -/

variable {t : QuotaTx}

theorem txOk_assertRoom {c : Creation} (hw : t.writes = {}) (hbegun : c.Begun {})
    (hheld : c.Held i s) : TxOk i s { t with phase := assertRoom c } := by
  rw [assertRoom]
  split
  next h0 => exact ⟨hw.symm ▸ hbegun, hheld, .inl h0⟩
  next => exact ⟨hw, hbegun, hheld⟩

theorem openRequest_ok {r : QuotaRequest} {phase : QuotaPhase} (hw : t.writes = {})
    (hlock : ∀ examId status, r = .setStatus examId status → s.locks (.exam examId) = some i)
    (h : s.db.openRequest r = .ok phase) : TxOk i s { t with phase } := by
  have hfinished : TxOk i s { t with phase := .finished } :=
    show WritesOk i s t.now t.writes from hw ▸ writesOk_empty i s t.now
  cases r with
  | createExam id =>
    obtain rfl := Except.ok.inj h
    exact txOk_assertRoom hw rfl trivial
  | setStatus examId status =>
    rw [QuotaDb.openRequest] at h
    cases hf : s.db.exams.find? examId with
    | none =>
      rw [hf] at h
      cases h
    | some cur =>
      rw [hf] at h
      obtain rfl := Except.ok.inj h
      split
      · exact hfinished
      · exact txOk_assertRoom hw rfl ⟨hlock examId status rfl, cur, hf, rfl⟩
  | createCandidate =>
    rw [QuotaDb.openRequest] at h
    split at h
    · cases h
    · obtain rfl := Except.ok.inj h
      exact txOk_assertRoom hw rfl trivial
  | upsertCandidate =>
    obtain rfl := Except.ok.inj h
    split
    · exact hfinished
    · exact txOk_assertRoom hw rfl trivial
  | assign examId candidateIds =>
    rw [QuotaDb.openRequest] at h
    cases hf : s.db.exams.find? examId with
    | none =>
      rw [hf] at h
      cases h
    | some exam =>
      rw [hf] at h
      dsimp only at h
      split at h
      · obtain rfl := Except.ok.inj h
        exact hw
      · cases h

theorem create_ok {c : Creation} (hbegun : c.Begun t.writes) (hheld : c.Held i s)
    (hroom : RoomFor i s t.now c.quota c.requested)
    (hlock : ∀ examId created, c = .sessions examId [] (created + 1) →
      s.locks (.usage (quotaMonth t.now).month) = some i) :
    TxOk i s (t.create s.db s.clock c) := by
  cases c with
  | exam id =>
    show WritesOk i s t.now { t.writes with exam := _ }
    rw [show t.writes = {} from hbegun]
    refine writesOk_one rfl rfl (fun _ _ _ h => by cases h) fun q => ?_
    cases q with
    | exams => exact hroom
    | candidates | sessionsPerMonth => exact .inl rfl
  | status examId cur status =>
    show WritesOk i s t.now { t.writes with status := some (examId, cur, status) }
    rw [show t.writes = {} from hbegun]
    refine writesOk_one rfl rfl (fun _ _ _ h => ?_) fun q => ?_
    · cases h
      exact hheld
    · cases q with
      | exams =>
        have hgrowth : QuotaWrites.growth { status := some (examId, cur, status) } .exams =
            (Creation.status examId cur status).requested := Nat.zero_add _
        exact hgrowth.symm ▸ hroom
      | candidates | sessionsPerMonth => exact .inl rfl
  | candidate =>
    show WritesOk i s t.now { t.writes with candidate := _ }
    rw [show t.writes = {} from hbegun]
    refine writesOk_one rfl rfl (fun _ _ _ h => by cases h) fun q => ?_
    cases q with
    | exams => exact .inl rfl
    | candidates => exact hroom
    | sessionsPerMonth => exact .inl rfl
  | sessions examId todo created =>
    obtain ⟨hw, hlen⟩ := hbegun
    cases todo with
    | cons candidateId todo =>
      refine ⟨⟨?_, ?_⟩, trivial, ?_⟩
      · show ({ t.writes with sessions := t.writes.sessions ++ _ } : QuotaWrites) =
          { sessions := t.writes.sessions ++ _ }
        rw [hw]
      · show (t.writes.sessions ++ [_]).length = created + 1
        rw [length_append, hlen]
        rfl
      · have hsame : (Creation.sessions examId todo (created + 1)).requested =
            (Creation.sessions examId (candidateId :: todo) created).requested := by
          show todo.length + (created + 1) = todo.length + 1 + created
          omega
        rw [hsame]
        exact hroom
    | nil =>
      rw [QuotaTx.create]
      split
      next h0 =>
        have hempty : t.writes = {} := by
          rw [hw, eq_nil_of_length_eq_zero (hlen.trans h0)]
        exact show WritesOk i s t.now t.writes from hempty ▸ writesOk_empty i s t.now
      next hne =>
        obtain ⟨k, rfl⟩ := Nat.exists_eq_succ_of_ne_zero hne
        refine ⟨fun _ _ _ h => ?_, fun m n h => ?_, fun h => ?_, fun q => ?_⟩
        · rw [hw] at h
          cases h
        · obtain ⟨rfl, rfl⟩ := Prod.mk.inj (Option.some.inj h)
          refine ⟨hlock examId k rfl, rfl, ?_⟩
          rw [hlen]
        · cases h
        · rw [hw]
          cases q with
          | exams | candidates => exact .inl rfl
          | sessionsPerMonth =>
            show RoomFor i s t.now _ t.writes.sessions.length
            have hall : (Creation.sessions examId [] (k + 1)).requested = t.writes.sessions.length :=
              (Nat.zero_add _).trans hlen.symm
            exact hall ▸ hroom

theorem advance_ok {t' : QuotaTx} (h : TxOk i s t)
    (hlock : ∀ k, t.waitsFor = some k → s.locks k = some i)
    (ht : t.advance s.db s.clock = .ok t') : TxOk i s t' := by
  unfold TxOk at h
  rw [QuotaTx.advance] at ht
  cases hp : t.phase <;> rw [hp] at h ht <;> dsimp only at h ht
  case opened =>
    cases ho : s.db.openRequest t.request with
    | error e =>
      rw [ho] at ht
      cases ht
    | ok phase =>
      rw [ho] at ht
      obtain rfl := Except.ok.inj ht
      refine openRequest_ok h (fun examId status hr => hlock _ ?_) ho
      rw [QuotaTx.waitsFor, hp, hr]
  case examLocked examId candidateIds =>
    split at ht
    · obtain rfl := Except.ok.inj ht
      exact h
    · cases ht
  case candidatesFound examId candidateIds =>
    obtain rfl := Except.ok.inj ht
    exact txOk_assertRoom h ⟨rfl, rfl⟩ trivial
  case asserting c =>
    obtain ⟨hw, hbegun, hheld⟩ := h
    cases hl : effectiveQuotas s.db.org c.quota with
    | none =>
      rw [hl] at ht
      obtain rfl := Except.ok.inj ht
      refine ⟨hw.symm ▸ hbegun, hheld, .inr fun limit hlimit => ?_⟩
      rw [hl] at hlimit
      cases hlimit
    | some limit =>
      rw [hl] at ht
      obtain rfl := Except.ok.inj ht
      exact ⟨⟨hw, hbegun, hheld⟩, hl⟩
  case limitLoaded c limit =>
    obtain rfl := Except.ok.inj ht
    refine ⟨h.1, h.2, hlock _ ?_⟩
    rw [QuotaTx.waitsFor, hp]
  case quotaLocked c limit =>
    obtain ⟨⟨hw, hbegun, hheld⟩, hl, hquota⟩ := h
    split at ht
    · cases ht
    next hroom =>
      obtain rfl := Except.ok.inj ht
      refine ⟨hw.symm ▸ hbegun, hheld, .inr fun limit' hlimit => ⟨hquota, ?_⟩⟩
      obtain rfl := Option.some.inj (hl.symm.trans hlimit)
      exact Nat.le_of_not_lt hroom
  case creating c =>
    obtain rfl := Except.ok.inj ht
    refine create_ok h.1 h.2.1 h.2.2 fun examId created hc => hlock _ ?_
    rw [QuotaTx.waitsFor, hp, hc]
  case finished =>
    obtain rfl := Except.ok.inj ht
    rw [TxOk, hp]
    exact h

/-! ## The other connections -/

theorem leaves_of_db (horg : s'.db.org = s.db.org) (hlocks : ∀ k, s.locks k = some j →
    s'.locks k = some j) (hexams : s'.db.exams = s.db.exams)
    (hcandidates : s'.db.candidatesInUse ≤ s.db.candidatesInUse)
    (husage : s'.db.orgUsage = s.db.orgUsage) : Leaves j s s' := by
  refine ⟨horg, hlocks, fun q _ _ _ now => ?_, fun _ _ _ he => hexams.symm ▸ he,
    fun _ _ => by rw [husage]⟩
  cases q with
  | exams =>
    show s'.db.examsInUse ≤ s.db.examsInUse
    rw [QuotaDb.examsInUse, QuotaDb.examsInUse, hexams]
  | candidates => exact hcandidates
  | sessionsPerMonth =>
    show s'.db.sessionsCreated _ ≤ s.db.sessionsCreated _
    rw [QuotaDb.sessionsCreated, QuotaDb.sessionsCreated, husage]

theorem leaves_acquire {k : LockKey} (h : s.locks k = none ∨ s.locks k = some i) (hij : i ≠ j) :
    Leaves j s (s.acquire i k) := by
  refine leaves_of_db rfl (fun k' hk' => ?_) rfl (Nat.le_refl _) rfl
  show Function.update s.locks k (some i) k' = _
  by_cases hk : k' = k
  · subst hk
    rw [hk'] at h
    obtain h | h := h
    · cases h
    · exact absurd (Option.some.inj h).symm hij
  · rw [Function.update_of_ne hk]
    exact hk'

theorem locks_release {k : LockKey} (hij : i ≠ j) (h : s.locks k = some j) :
    (s.release i).locks k = some j := by
  show (if s.locks k = some i then none else s.locks k) = some j
  rw [if_neg fun he => hij (Option.some.inj (he.symm.trans h)), h]

theorem leaves_release (hij : i ≠ j) : Leaves j s (s.release i) :=
  leaves_of_db rfl (fun _ hk => locks_release hij hk) rfl (Nat.le_refl _) rfl

theorem find?_commitWrites {db : QuotaDb} {examId : Nat} {e : QuotaExam}
    (he : db.exams.find? examId = some e)
    (hw : ∀ cur status, w.status ≠ some (examId, cur, status)) :
    (commitWrites db w).exams.find? examId = some e := by
  have hinsert : ∀ x : Table QuotaExam.id, x.find? examId = some e →
      (w.exam.elim x x.insert).find? examId = some e := by
    intro x hx
    cases w.exam with
    | none => exact hx
    | some e' => exact Table.find?_insert_of_some hx
  refine hinsert _ ?_
  split
  next examId' cur status hs =>
    have hne : e.id ≠ examId' := by
      intro heq
      rw [← heq, (Table.find?_eq_some.1 he).2] at hs
      exact hw cur status hs
    rw [Table.find?_modify, he, Option.map_some, if_neg (by simpa using hne)]
  next => exact he

theorem leaves_commit (hij : i ≠ j) (h : WritesOk i s t.now t.writes) :
    Leaves j s (s.commit i t) := by
  have hapart : ∀ k, s.locks k = some i → s.locks k ≠ some j := fun k hi hj =>
    hij (Option.some.inj (hi.symm.trans hj))
  refine ⟨rfl, fun k hk => locks_release hij hk, fun q hq limit hl now => ?_,
    fun examId hk e he => ?_, fun m hm => ?_⟩
  · have hle := used_commitWrites h.current now q
    obtain h0 | hroom := h.room q
    · rw [h0] at hle
      exact hle
    · exact absurd hq (hapart _ (hroom limit hl).1)
  · refine find?_commitWrites he fun cur status hs => ?_
    exact hapart _ (h.status _ _ _ hs).1 hk
  · show t.writes.usage.elim s.db.orgUsage _ m = _
    cases hu : t.writes.usage with
    | none => rfl
    | some u =>
      refine Function.update_of_ne (fun heq => ?_) _ _
      subst heq
      exact hapart _ (h.usage _ _ hu).1 hm

theorem proceed_ok (h : TxOk i s t)
    (hfree : ∀ k, t.waitsFor = some k → s.locks k = none ∨ s.locks k = some i) :
    (∀ t', (s.proceed i t).2 = .tx t' → TxOk i (s.proceed i t).1 t') ∧
      ∀ j, i ≠ j → Leaves j s (s.proceed i t).1 := by
  have hacquired : ∀ s₁, s₁ = t.waitsFor.elim s (s.acquire i) → s₁.db = s.db ∧ s₁.clock = s.clock ∧
      TxOk i s₁ t ∧ (∀ k, t.waitsFor = some k → s₁.locks k = some i) ∧
        ∀ j, i ≠ j → Leaves j s s₁ := by
    intro s₁ hs₁
    cases hw : t.waitsFor with
    | none =>
      rw [hw] at hs₁
      obtain rfl : s₁ = s := hs₁
      refine ⟨rfl, rfl, h, fun k hk => (by cases hk), fun j _ => ?_⟩
      exact leaves_of_db rfl (fun _ hk => hk) rfl (Nat.le_refl _) rfl
    | some k =>
      rw [hw] at hs₁
      obtain rfl : s₁ = s.acquire i k := hs₁
      refine ⟨rfl, rfl, h.mono ?_, fun k' hk' => ?_, fun j hij => leaves_acquire (hfree k hw) hij⟩
      · refine leaves_of_db rfl (fun k' hk' => ?_) rfl (Nat.le_refl _) rfl
        show Function.update s.locks k (some i) k' = _
        by_cases hk : k' = k
        · subst hk
          exact Function.update_self ..
        · rw [Function.update_of_ne hk]
          exact hk'
      · obtain rfl := Option.some.inj hk'
        exact Function.update_self ..
  obtain ⟨hdb, hclock, htx, hlock, hleaves⟩ := hacquired _ rfl
  rw [QuotaServer.proceed]
  generalize t.waitsFor.elim s (s.acquire i) = s₁ at hdb hclock htx hlock hleaves ⊢
  cases ht : t.advance s₁.db s₁.clock with
  | ok t₁ =>
    refine ⟨fun t' ht' => ?_, hleaves⟩
    obtain rfl := QuotaConnection.tx.inj ht'
    exact advance_ok htx hlock ht
  | error e =>
    refine ⟨fun t' ht' => (by cases ht'), fun j hij => ?_⟩
    have h₁ := hleaves j hij
    exact leaves_of_db h₁.org (fun k hk => locks_release hij (h₁.locks k hk))
      (congrArg QuotaDb.exams hdb) (Nat.le_of_eq (congrArg QuotaDb.candidatesInUse hdb))
      (congrArg QuotaDb.orgUsage hdb)

end

/-! ## Every run -/

/-- Each connection's transaction is where its locks allow it to be. -/
def QuotaOk (s : QuotaState) : Prop :=
  s.Outline (fun _ => True) fun i sh c => ∀ t, c = .tx t → TxOk i sh t

section

variable {s : QuotaState}

variable {sh : QuotaServer}

theorem QuotaOk.setShared (h : QuotaOk s) (hs : ∀ j, Leaves j s.shared sh) :
    QuotaOk (s.setShared sh) :=
  Processes.Outline.setShared h trivial fun j _ hq t ht => (hq t ht).mono (hs j)

theorem quotaOk_step (h : QuotaOk s) (i : QuotaInput) (hi : quotaMachine.enabled i s) :
    QuotaOk (quotaStep i s) := by
  have hi : quotaEnabled i s = true := hi
  cases i with
  | request =>
    refine Processes.Outline.move h trivial (fun t ht => ?_) fun _ _ _ hq => hq
    obtain rfl := QuotaConnection.tx.inj ht
    exact show ({} : QuotaWrites) = {} from rfl
  | proceed conn =>
    rw [quotaEnabled] at hi
    rw [quotaStep]
    cases hc : s.loc conn with
    | idle | failed e => exact h
    | tx t =>
      rw [hc] at hi
      obtain ⟨-, hfree⟩ := Bool.and_eq_true_iff.1 hi
      have hproceed := proceed_ok (h.loc conn t hc) fun k hk => by
        rw [hk] at hfree
        exact of_decide_eq_true hfree
      exact Processes.Outline.move h trivial hproceed.1 fun j _ hj hq t' ht' =>
        (hq t' ht').mono (hproceed.2 j (Ne.symm hj))
  | commit conn =>
    rw [quotaEnabled] at hi
    rw [quotaStep]
    cases hc : s.loc conn with
    | idle | failed e => exact h
    | tx t =>
      rw [hc] at hi
      have hw := h.loc conn t hc
      rw [TxOk, of_decide_eq_true hi] at hw
      exact Processes.Outline.move h trivial (fun _ ht => by cases ht) fun j _ hj hq t' ht' =>
        (hq t' ht').mono (leaves_commit (Ne.symm hj) hw)
  | rollback conn =>
    exact Processes.Outline.move h trivial (fun _ ht => by cases ht) fun j _ hj hq t' ht' =>
      (hq t' ht').mono (leaves_release (Ne.symm hj))
  | tick ms | endSession | deleteSession =>
    exact h.setShared fun _ => leaves_of_db rfl (fun _ hk => hk) rfl (Nat.le_refl _) rfl
  | deleteCandidate id =>
    exact h.setShared fun _ => leaves_of_db rfl (fun _ hk => hk) rfl (length_filter_le _ _) rfl

/-! ## The limits -/

/-- What is counted against a quota in a month. -/
def QuotaDb.usedIn (db : QuotaDb) (m : Month) : QuotaKind → Nat
  | .exams => db.examsInUse
  | .candidates => db.candidatesInUse
  | .sessionsPerMonth => db.sessionsCreated m

theorem usedIn_commit {conn : Nat} {t : QuotaTx}
    (h : WritesOk conn sh t.now t.writes) {q : QuotaKind} {limit : Nat}
    (hl : effectiveQuotas sh.db.org q = some limit) (m : Month) :
    (sh.commit conn t).db.usedIn m q ≤ max limit (sh.db.usedIn m q) := by
  have hnow : (sh.commit conn t).db.used t.now q ≤ max limit (sh.db.used t.now q) := by
    have hle : (commitWrites sh.db t.writes).used t.now q ≤ _ := used_commitWrites h.current t.now q
    show (commitWrites sh.db t.writes).used t.now q ≤ _
    obtain h0 | hroom := h.room q
    · omega
    · have := (hroom limit hl).2
      omega
  cases q with
  | exams | candidates => exact hnow
  | sessionsPerMonth =>
    by_cases hm : m = (quotaMonth t.now).month
    · rw [hm]
      exact hnow
    · show (commitWrites sh.db t.writes).sessionsCreated m ≤ max limit (sh.db.sessionsCreated m)
      rw [sessionsCreated_commitWrites h.current, if_neg]
      · omega
      · intro hu
        obtain ⟨u, hsome, rfl⟩ := Option.map_eq_some_iff.1 hu
        exact hm (h.usage u.1 u.2 hsome).2.1

theorem proceed_eq (sh : QuotaServer) (conn : Nat) (t : QuotaTx) :
    (sh.proceed conn t).1.db = sh.db ∧ (sh.proceed conn t).1.created = sh.created := by
  have hacquired : (t.waitsFor.elim sh (sh.acquire conn)).db = sh.db ∧
      (t.waitsFor.elim sh (sh.acquire conn)).created = sh.created := by
    cases t.waitsFor with
    | none | some k => exact ⟨rfl, rfl⟩
  rw [QuotaServer.proceed]
  split
  · exact hacquired
  · exact hacquired

theorem quotaStep_cases (h : QuotaOk s) (i : QuotaInput) (hi : quotaMachine.enabled i s) :
    (∃ conn t, i = .commit conn ∧ s.loc conn = .tx t ∧ WritesOk conn s.shared t.now t.writes ∧
        (quotaStep i s).shared = s.shared.commit conn t) ∨
      (∀ conn, i ≠ .commit conn) ∧ (quotaStep i s).shared.created = s.shared.created ∧
        (quotaStep i s).shared.db.orgUsage = s.shared.db.orgUsage ∧
          ∀ m q, (quotaStep i s).shared.db.usedIn m q ≤ s.shared.db.usedIn m q := by
  have hi : quotaEnabled i s = true := hi
  cases i with
  | commit conn =>
    rw [quotaEnabled] at hi
    cases hc : s.loc conn with
    | idle | failed e =>
      rw [hc] at hi
      cases hi
    | tx t =>
      rw [hc] at hi
      have hw := h.loc conn t hc
      rw [TxOk, of_decide_eq_true hi] at hw
      refine .inl ⟨conn, t, rfl, hc, hw, ?_⟩
      rw [quotaStep, hc]
      rfl
  | proceed conn =>
    refine .inr ⟨fun _ he => (by cases he), ?_⟩
    rw [quotaStep]
    cases hc : s.loc conn with
    | idle | failed e => exact ⟨rfl, rfl, fun _ _ => Nat.le_refl _⟩
    | tx t =>
      obtain ⟨hdb, hcreated⟩ := proceed_eq s.shared conn t
      refine ⟨hcreated, congrArg QuotaDb.orgUsage hdb, fun m q => ?_⟩
      show (s.shared.proceed conn t).1.db.usedIn m q ≤ _
      rw [hdb]
  | deleteCandidate id =>
    refine .inr ⟨fun _ he => (by cases he), rfl, rfl, fun m q => ?_⟩
    cases q with
    | exams => exact Nat.le_refl _
    | candidates => exact length_filter_le _ _
    | sessionsPerMonth => exact Nat.le_refl _
  | request | rollback conn
  | tick ms => exact .inr ⟨fun _ he => (by cases he), rfl, rfl, fun _ _ => Nat.le_refl _⟩
  | endSession | deleteSession =>
    refine .inr ⟨fun _ he => (by cases he), rfl, rfl, fun _ q => ?_⟩
    cases q <;> exact Nat.le_refl _

theorem usedIn_step (h : QuotaOk s) (i : QuotaInput) (hi : quotaMachine.enabled i s) {q : QuotaKind}
    {limit : Nat} (hl : effectiveQuotas s.shared.db.org q = some limit) (m : Month) :
    (quotaStep i s).shared.db.usedIn m q ≤ max limit (s.shared.db.usedIn m q) := by
  obtain ⟨conn, t, -, -, hw, hstep⟩ | ⟨-, -, -, hle⟩ := quotaStep_cases h i hi
  · rw [hstep]
    exact usedIn_commit hw hl m
  · have := hle m q
    omega

/-! ## The months -/

/-- A transaction that commits created its sessions in the month in which its request read the
clock. -/
def InItsMonth (s : QuotaState) : QuotaInput → Prop
  | .commit conn => match s.loc conn with
    | .tx t => ∀ x ∈ t.writes.sessions, (quotaMonth x.createdAt).month = (quotaMonth t.now).month
    | _ => True
  | _ => True

instance (s : QuotaState) (i : QuotaInput) : Decidable (InItsMonth s i) := by
  unfold InItsMonth
  split
  · split <;> infer_instance
  · infer_instance

theorem sessionsIn_commit (sh : QuotaServer) (conn : Nat) (t : QuotaTx) (m : Month) :
    (sh.commit conn t).sessionsIn m = sh.sessionsIn m +
      t.writes.sessions.countP fun x => decide ((quotaMonth x.createdAt).month = m) := by
  show (sh.created ++ t.writes.sessions.map QuotaSession.createdAt).countP _ = _
  rw [countP_append, countP_map]
  rfl

theorem counted_commit_iff {conn : Nat} {t : QuotaTx} (hc : sh.Counted)
    (h : WritesOk conn sh t.now t.writes) : (sh.commit conn t).Counted ↔
      ∀ x ∈ t.writes.sessions, (quotaMonth x.createdAt).month = (quotaMonth t.now).month := by
  have hcounter : ∀ m, (sh.commit conn t).db.sessionsCreated m = sh.sessionsIn m +
      if (t.writes.usage.map (·.1)) = some m then t.writes.sessions.length else 0 := fun m =>
    (sessionsCreated_commitWrites h.current m).trans (by rw [hc m])
  have hiff : (sh.commit conn t).Counted ↔ ∀ m,
      (if (t.writes.usage.map (·.1)) = some m then t.writes.sessions.length else 0) =
        t.writes.sessions.countP fun x => decide ((quotaMonth x.createdAt).month = m) :=
    forall_congr' fun m => by rw [hcounter, sessionsIn_commit, Nat.add_left_cancel_iff]
  rw [hiff]
  cases hu : t.writes.usage with
  | none =>
    rw [h.uncounted hu]
    exact ⟨fun _ => forall_mem_nil _, fun _ m => rfl⟩
  | some u =>
    obtain ⟨m₀, n⟩ := u
    obtain ⟨-, rfl, -⟩ := h.usage m₀ n hu
    constructor
    · intro hall x hx
      have hcount := hall (quotaMonth t.now).month
      rw [Option.map_some, if_pos rfl] at hcount
      exact of_decide_eq_true (countP_eq_length.1 hcount.symm x hx)
    · intro hall m
      rw [Option.map_some]
      split
      next hm =>
        obtain rfl := Option.some.inj hm
        exact (countP_eq_length.2 fun x hx => decide_eq_true (hall x hx)).symm
      next hm =>
        refine (countP_eq_zero.2 fun x hx he => hm ?_).symm
        rw [← hall x hx, of_decide_eq_true he]

/-! ## The quotas -/

/-- What is in use of a quota: the exams and the candidates there are, and the sessions created in
the month. -/
def QuotaServer.inUse (s : QuotaServer) (m : Month) : QuotaKind → Nat
  | .exams => s.db.examsInUse
  | .candidates => s.db.candidatesInUse
  | .sessionsPerMonth => s.sessionsIn m

/-- No limit is passed that was not passed before, and the monthly counters are right. -/
structure QuotasKept (s s' : QuotaServer) : Prop where
  limits (q : QuotaKind) (limit : Nat) (h : effectiveQuotas s.db.org q = some limit) (m : Month) :
    s'.inUse m q ≤ max limit (s.inUse m q)
  counted : s'.Counted

theorem inUse_eq (h : sh.Counted) (m : Month) (q : QuotaKind) :
    sh.inUse m q = sh.db.usedIn m q := by
  cases q with
  | exams | candidates => rfl
  | sessionsPerMonth => exact (h m).symm

theorem counted_step_iff (h : QuotaOk s) (hc : s.shared.Counted) (i : QuotaInput)
    (hi : quotaMachine.enabled i s) : (quotaStep i s).shared.Counted ↔ InItsMonth s i := by
  obtain ⟨conn, t, rfl, hloc, hw, hstep⟩ | ⟨hne, hcreated, husage, -⟩ := quotaStep_cases h i hi
  · rw [hstep, counted_commit_iff hc hw, InItsMonth, hloc]
  · constructor
    · intro _
      cases i with
      | commit conn => exact absurd rfl (hne conn)
      | _ => trivial
    · intro _ m
      rw [QuotaDb.sessionsCreated, QuotaServer.sessionsIn, husage, hcreated]
      exact hc m

theorem quotasKept_step_iff (h : QuotaOk s) (hc : s.shared.Counted) (i : QuotaInput)
    (hi : quotaMachine.enabled i s) :
    QuotasKept s.shared (quotaStep i s).shared ↔ InItsMonth s i := by
  rw [← counted_step_iff h hc i hi]
  refine ⟨QuotasKept.counted, fun hc' => ⟨fun q limit hl m => ?_, hc'⟩⟩
  rw [inUse_eq hc, inUse_eq hc']
  exact usedIn_step h i hi hl m

/-- **Quotas are kept** in a run, at every step, exactly when each transaction that commits created
its sessions in the month its request counted them for. -/
theorem quotas_kept_iff (hs : quotaMachine.init s) {is : List QuotaInput}
    (his : quotaMachine.Admits s is) :
    quotaMachine.EachStep (fun s i => QuotasKept s.shared (quotaStep i s).shared) s is ↔
      quotaMachine.EachStep InItsMonth s is := by
  obtain ⟨hidle, -, hc⟩ := hs
  have hok : QuotaOk s := ⟨trivial, fun i t ht => by rw [hidle i] at ht; cases ht⟩
  refine Machine.EachStep.congr_invariant (I := fun s => QuotaOk s ∧ s.shared.Counted)
    (fun s i h hi => quotasKept_step_iff h.1 h.2 i hi) (fun s i h hi hP => ?_) ⟨hok, hc⟩ his
  exact ⟨quotaOk_step h.1 i hi, hP.counted⟩

end

/-- An organisation that may create one session a month, with a published exam and two candidates;
the last millisecond of January 2026. -/
def endOfJanuary : QuotaState where
  shared :=
    { db :=
        { org := { quotas := fun _ => some (.number 1) }
          exams := ⟨[⟨0, .published⟩], by decide⟩
          candidates := ⟨[{ id := 0 }, { id := 1 }], by decide⟩ }
      clock := 1769903999999 }
  loc _ := .idle

/-- The statements of an assignment of one candidate, up to the check of the quota. -/
def assertedAssignment (conn candidateId : Nat) : List QuotaInput :=
  .request conn (.assign 0 [candidateId]) :: List.replicate 6 (.proceed conn)

/-- The statements that create the session and count it. -/
def createdAssignment (conn : Nat) : List QuotaInput :=
  [.proceed conn, .proceed conn, .commit conn]

theorem init_endOfJanuary : quotaMachine.init endOfJanuary :=
  ⟨fun _ => rfl, fun _ => rfl, fun _ => rfl⟩

/-- Two requests at once: the second waits for the exam's row, and is refused. -/
theorem quotas_kept_iff_concurrent :
    let is := assertedAssignment 0 0 ++ (assertedAssignment 1 1).take 1 ++ createdAssignment 0 ++
      replicate 6 (.proceed 1)
    quotaMachine.EachStep (fun s i => QuotasKept s.shared (quotaStep i s).shared) endOfJanuary is ∧
      (quotaMachine.run endOfJanuary is).shared.created = [1769903999999] := by
  intro is
  exact ⟨(@quotas_kept_iff endOfJanuary init_endOfJanuary is (by decide +kernel)).2
    (by decide +kernel), by decide +kernel⟩

/-- A request of January that creates its session in February, then one of February: two sessions of
a month that may have one. -/
theorem session_of_next_month :
    ¬ ∀ s is, quotaMachine.init s → quotaMachine.Admits s is →
      quotaMachine.EachStep (fun s i => QuotasKept s.shared (quotaStep i s).shared) s is := by
  intro h
  have hkept := (h endOfJanuary (assertedAssignment 0 0 ++ .tick 1 :: createdAssignment 0 ++
    assertedAssignment 1 1 ++ [.proceed 1, .proceed 1] ++ [.commit 1]) init_endOfJanuary
    (by decide +kernel)).at_step
  have htwo := hkept.limits .sessionsPerMonth 1 rfl ⟨2026, 2⟩
  exact absurd htwo (by decide +kernel)

end SmartProctoring
