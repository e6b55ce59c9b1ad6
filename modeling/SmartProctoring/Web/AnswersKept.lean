import SmartProctoring.Web.AnswerStore

/-!
# The answer shown is the answer kept

Of every question the mirror ends up with the version that has the highest `clientSeq`, whether it
is stored already or on its way.  An edit that is saved gets the highest of all.  A restore works on
what it read before: it can put an older value over a newer one only where a write of the question
was under way when it read the mirror, or was handed over since.
-/

set_option autoImplicit false

namespace SmartProctoring

open List

/-- What decides between two records: the value and its `clientSeq`. -/
def AnswerRecord.version (l : AnswerRecord) : AnswerValue × Nat := (l.value, l.clientSeq)

theorem find?_writeAnswer (mirror : AnswerMirror) (w : AnswerRecord) (q : Nat) :
    (writeAnswer mirror w).find? q = mirror.find? q ∨
      q = w.questionId ∧ (writeAnswer mirror w).find? q = some w ∧
        ∀ cur ∈ mirror.find? q, cur.clientSeq < w.clientSeq := by
  rw [writeAnswer]
  split
  · rename_i cur hcur
    split
    · exact .inl rfl
    · by_cases hq : q = w.questionId
      · refine .inr ⟨hq, by rw [Table.find?_upsert, if_pos hq], fun cur' hcur' => ?_⟩
        rw [hq, hcur, Option.mem_some_iff] at hcur'
        subst hcur'
        omega
      · exact .inl (by rw [Table.find?_upsert, if_neg hq])
  · rename_i hnone
    by_cases hq : q = w.questionId
    · refine .inr ⟨hq, by rw [Table.find?_upsert, if_pos hq], fun cur' hcur' => ?_⟩
      rw [hq, hnone] at hcur'
      simp at hcur'
    · exact .inl (by rw [Table.find?_upsert, if_neg hq])

theorem le_writeAnswer (mirror : AnswerMirror) (w : AnswerRecord) :
    ∃ l, (writeAnswer mirror w).find? w.questionId = some l ∧ w.clientSeq ≤ l.clientSeq := by
  rw [writeAnswer]
  split
  · rename_i cur hcur
    split
    · exact ⟨cur, hcur, ‹_›⟩
    · exact ⟨w, by rw [Table.find?_upsert, if_pos rfl], le_refl _⟩
  · exact ⟨w, by rw [Table.find?_upsert, if_pos rfl], le_refl _⟩

namespace AnswerStore

/-! ## Versions -/

/-- A version of the answer to a question that is stored, or on its way to the mirror. -/
def Version (s : AnswerStore) (q : Nat) (x : AnswerValue × Nat) : Prop :=
  (∃ l, s.mirror.find? q = some l ∧ l.version = x) ∨ ∃ w ∈ s.onTheWay,
  w.questionId = q ∧ w.version = x

/-- The shown value is the one that the mirror ends up with. -/
def ShownIsTop (s : AnswerStore) (q : Nat) : Prop :=
  ∃ x, s.Version q x ∧ s.values q = some x.1 ∧ ∀ y,
  s.Version q y → y.2 ≤ x.2 ∧ (y.2 = x.2 → y.1 = x.1)

/-- Writes have taken effect: the versions that are left are among those before, and the highest are
among them. -/
structure Settled (s s' : AnswerStore) : Prop where
  sub : ∀ q x, s'.Version q x → s.Version q x
  dom : ∀ q x, s.Version q x → ∃ y, s'.Version q y ∧ x.2 ≤ y.2

variable {s s' : AnswerStore}

theorem Settled.of_iff (h : ∀ q x, s'.Version q x ↔ s.Version q x) : Settled s s' :=
  ⟨fun q x hx => (h q x).mp hx, fun q x hx => ⟨x, (h q x).mpr hx, le_refl _⟩⟩

variable {w : AnswerRecord}

theorem settled_write (hmirror : s'.mirror = writeAnswer s.mirror w)
    (haway : ∀ w', w' ∈ s.onTheWay ↔ w' = w ∨ w' ∈ s'.onTheWay) : Settled s s' := by
  refine ⟨fun q x hx => ?_, fun q x hx => ?_⟩
  · rcases hx with ⟨l, hl, rfl⟩ | ⟨w', hw', hq, rfl⟩
    · rw [hmirror] at hl
      rcases find?_writeAnswer s.mirror w q with hsame | ⟨hq, hnew, -⟩
      · exact .inl ⟨l, hsame ▸ hl, rfl⟩
      · obtain rfl : w = l := Option.some.inj (hnew.symm.trans hl)
        exact .inr ⟨w, (haway w).mpr (.inl rfl), hq.symm, rfl⟩
    · exact .inr ⟨w', (haway w').mpr (.inr hw'), hq, rfl⟩
  · rcases hx with ⟨l, hl, rfl⟩ | ⟨w', hw', hq, rfl⟩
    · rcases find?_writeAnswer s.mirror w q with hsame | ⟨-, hnew, hlt⟩
      · exact ⟨l.version, .inl ⟨l, by rw [hmirror, hsame, hl], rfl⟩, le_refl _⟩
      · exact ⟨w.version, .inl ⟨w, by rw [hmirror, hnew], rfl⟩, (hlt l hl).le⟩
    · rcases (haway w').mp hw' with rfl | hw'
      · obtain ⟨l, hl, hle⟩ := le_writeAnswer s.mirror w'
        exact ⟨l.version, .inl ⟨l, by rw [hmirror, ← hq, hl], rfl⟩, hle⟩
      · exact ⟨w'.version, .inr ⟨w', hw', hq, rfl⟩, le_refl _⟩

theorem ShownIsTop.settled {q : Nat} (h : s.ShownIsTop q) (hs : Settled s s')
    (hvalues : s'.values q = s.values q) : s'.ShownIsTop q := by
  obtain ⟨x, hx, hshown, htop⟩ := h
  obtain ⟨y, hy, hle⟩ := hs.dom q x hx
  obtain ⟨hge, heq⟩ := htop y (hs.sub q y hy)
  have hsame : y.2 = x.2 := le_antisymm hge hle
  have hvalue := heq hsame
  refine ⟨y, hy, by rw [hvalues, hshown, hvalue], fun z hz => ?_⟩
  obtain ⟨hz1, hz2⟩ := htop z (hs.sub q z hz)
  rw [hsame, hvalue]
  exact ⟨hz1, hz2⟩

/-! ## The writes on their way -/

theorem writes_overtake (s : AnswerStore) (q : Nat) :
    (s.overtake q).restores.filterMap (·.write?) = s.restores.filterMap (·.write?) := by
  rw [overtake, filterMap_map]
  rfl

theorem mem_onTheWay_setRestore {k : Nat} {r r' : Restore} (h : s.restores[k]? = some r)
    (hr : r.write? = none) :
    w ∈ (s.setRestore k r').onTheWay ↔ w ∈ s.onTheWay ∨ r'.write? = some w := by
  rw [onTheWay, onTheWay, setRestore, mem_append, mem_append, mem_filterMap_set h,
    mem_filterMap_slot h, hr]
  simp only [reduceCtorEq, false_or]
  rw [or_assoc, or_comm (a := r'.write? = some w)]

theorem mem_onTheWay_written {k : Nat} {r r' : Restore} (h : s.restores[k]? = some r)
    {w₀ : AnswerRecord} (hr : r.write? = some w₀) (hr' : r'.write? = none) :
    w ∈ s.onTheWay ↔ w = w₀ ∨ w ∈ (s.setRestore k r').onTheWay := by
  rw [onTheWay, onTheWay, setRestore, mem_append, mem_append, mem_filterMap_set h,
    mem_filterMap_slot h, hr, hr', Option.some.injEq, eq_comm (a := w₀)]
  simp only [reduceCtorEq, false_or]
  rw [or_left_comm]

/-- A write that is handed to the mirror adds its version. -/
def Hands (w : AnswerRecord) (s s' : AnswerStore) : Prop :=
  ∀ q x, s'.Version q x ↔ s.Version q x ∨ q = w.questionId ∧ x = w.version

theorem hands_of_mem (hmirror : s'.mirror = s.mirror)
    (haway : ∀ w', w' ∈ s'.onTheWay ↔ w' ∈ s.onTheWay ∨ w' = w) : Hands w s s' := by
  intro q x
  rw [Version, Version, hmirror, or_assoc]
  refine or_congr_right ⟨?_, ?_⟩
  · rintro ⟨w', hw', hq, rfl⟩
    rcases (haway w').mp hw' with hw' | rfl
    · exact .inl ⟨w', hw', hq, rfl⟩
    · exact .inr ⟨hq.symm, rfl⟩
  · rintro (⟨w', hw', hq, rfl⟩ | ⟨rfl, rfl⟩)
    · exact ⟨w', (haway w').mpr (.inl hw'), hq, rfl⟩
    · exact ⟨w, (haway w).mpr (.inr rfl), rfl, rfl⟩

/-- A write to another question. -/
theorem ShownIsTop.hands (hw : Hands w s s') {q : Nat}
    (hq : q ≠ w.questionId) (hvalues : s'.values q = s.values q) (h : s.ShownIsTop q) :
    s'.ShownIsTop q := by
  have hiff : ∀ x, s'.Version q x ↔ s.Version q x := fun x => by simp [hw q x, hq]
  obtain ⟨x, hx, hshown, htop⟩ := h
  exact ⟨x, (hiff x).mpr hx, by rw [hvalues, hshown], fun y hy => htop y ((hiff y).mp hy)⟩

theorem shownIsTop_above (hw : Hands w s s') (hvalues : s'.values w.questionId = some w.value)
    (habove : ∀ y, s.Version w.questionId y → y.2 ≤ w.clientSeq ∧ (y.2 = w.clientSeq → y.1 = w.value)) :
    s'.ShownIsTop w.questionId := by
  refine ⟨w.version, (hw _ _).mpr (.inr ⟨rfl, rfl⟩), hvalues, fun y hy => ?_⟩
  rcases (hw _ y).mp hy with hy | ⟨-, rfl⟩
  · exact habove y hy
  · exact ⟨le_refl _, fun _ => rfl⟩

theorem ShownIsTop.hands_same (hw : Hands w s s')
    (hvalues : s'.values w.questionId = some w.value) (hsame : s.values w.questionId = some w.value)
    (h : s.ShownIsTop w.questionId) : s'.ShownIsTop w.questionId := by
  obtain ⟨x, hx, hshown, htop⟩ := h
  have hvalue : x.1 = w.value := Option.some.inj (hshown.symm.trans hsame)
  by_cases hle : w.clientSeq ≤ x.2
  · refine ⟨x, (hw _ x).mpr (.inl hx), by rw [hvalues, hvalue], fun y hy => ?_⟩
    rcases (hw _ y).mp hy with hy | ⟨-, rfl⟩
    · exact htop y hy
    · exact ⟨hle, fun _ => hvalue.symm⟩
  · refine shownIsTop_above hw hvalues fun y hy => ?_
    have hy2 := (htop y hy).1
    exact ⟨by omega, fun heq => by omega⟩

end AnswerStore

/-! ## What holds throughout -/

namespace Restore

/-- The mirror has been read, and the merge is not finished. -/
def hasRead (r : Restore) : Bool :=
  match r.phase with
  | .read | .merging | .writing _ => true
  | _ => false

/-- The counter is above all that was read. -/
def merges (r : Restore) : Bool :=
  match r.phase with
  | .merging | .writing _ => true
  | _ => false

variable {r : Restore}

theorem write?_of_phase {phase : RestorePhase} (h : r.phase = phase)
    (hne : ∀ w, phase ≠ .writing w) : r.write? = none := by
  rw [write?]
  split
  · rename_i w hw
    exact absurd (h.symm.trans hw) (hne w)
  · rfl

theorem hasRead_of_merges (h : r.merges) : r.hasRead := by
  rw [merges] at h
  rw [hasRead]
  split at h
  · rename_i hp
    rw [hp]
  · rename_i w hp
    rw [hp]
  · simp at h

/-- What was read is still what the mirror ends up with, of the questions not overtaken. -/
structure Current (r : Restore) (s : AnswerStore) : Prop where
  away : ∀ w ∈ s.onTheWay, w.questionId ∈ r.overtaken
  same : ∀ q ∉ r.overtaken, (s.mirror.find? q).map (·.version) = (r.mirror.find? q).map (·.version)
  edited : ∀ q ∈ s.edits.drop r.readAt, (s.dirty.find? q).isSome ∨ q ∈ r.overtaken

structure Seeded (r : Restore) (s : AnswerStore) : Prop where
  mirror : ∀ l ∈ r.mirror.rows, l.clientSeq ≤ s.seq
  items : ∀ it ∈ r.items, ∀ a ∈ it.2, a.clientSeq ≤ s.seq

theorem Current.mono {r r' : Restore} {s s' : AnswerStore} (h : r.Current s)
    (hmirror : r'.mirror = r.mirror)
    (hat : r'.readAt = r.readAt) (hsub : r.overtaken ⊆ r'.overtaken)
    (haway : ∀ w ∈ s'.onTheWay, w ∈ s.onTheWay ∨ w.questionId ∈ r'.overtaken)
    (hsame : ∀ q ∉ r'.overtaken, (s'.mirror.find? q).map (·.version) = (s.mirror.find? q).map (·.version))
    (hedits : ∀ q ∈ s'.edits.drop r.readAt, q ∈ s.edits.drop r.readAt ∨ (s'.dirty.find? q).isSome)
    (hdirty : ∀ q, (s.dirty.find? q).isSome → (s'.dirty.find? q).isSome ∨ q ∈ r'.overtaken) :
    r'.Current s' where
  away w hw := (haway w hw).elim (fun hw => hsub (h.away w hw)) id
  same q hq := by rw [hsame q hq, hmirror, h.same q fun hmem => hq (hsub hmem)]
  edited q hq := by
    rw [hat] at hq
    rcases hedits q hq with hq | hq
    · exact (h.edited q hq).elim (hdirty q) fun hq => .inr (hsub hq)
    · exact .inl hq

theorem Seeded.mono {r r' : Restore} {s s' : AnswerStore} (h : r.Seeded s)
    (hmirror : r'.mirror = r.mirror)
    (hitems : r'.items ⊆ r.items) (hseq : s.seq ≤ s'.seq) : r'.Seeded s' where
  mirror l hl := by
    rw [hmirror] at hl
    exact (h.mirror l hl).trans hseq
  items it hit a ha := (h.items it (hitems hit) a ha).trans hseq

variable {s : AnswerStore}

theorem Current.version (h : r.Current s) {q : Nat} (hq : q ∉ r.overtaken)
    {x : AnswerValue × Nat} : s.Version q x ↔ ∃ l, r.mirror.find? q = some l ∧ l.version = x := by
  have hsame := h.same q hq
  constructor
  · rintro (⟨l, hl, rfl⟩ | ⟨w, hw, rfl, -⟩)
    · rw [hl, Option.map_some, eq_comm, Option.map_eq_some_iff] at hsame
      exact hsame
    · exact absurd (h.away w hw) hq
  · rintro ⟨l, hl, rfl⟩
    rw [hl, Option.map_some, Option.map_eq_some_iff] at hsame
    exact .inl hsame

end Restore

/-! ## What a restore has read -/

variable {l : Option AnswerRecord} {server : Option ServerAnswer} {a : ServerAnswer}

theorem mem_of_theirs (h : newerAnswer l server = .theirs a) : a ∈ server := by
  rcases l with _ | l <;> rcases server with _ | b
  · simp [newerAnswer] at h
  · simpa [newerAnswer] using h
  · simp [newerAnswer] at h
  · rw [newerAnswer] at h
    split at h
    · simp at h
    · simpa using h

theorem mem_of_mine {m : AnswerRecord} (h : newerAnswer l server = .mine m) : l = some m := by
  rcases l with _ | l <;> rcases server with _ | b
  · simp [newerAnswer] at h
  · simp [newerAnswer] at h
  · simpa [newerAnswer] using h
  · rw [newerAnswer] at h
    split at h
    · simpa using h
    · simp at h

theorem le_of_theirs
    (h : newerAnswer l server = .theirs a) : ∀ m ∈ l, m.clientSeq ≤ a.clientSeq := by
  rintro m rfl
  rcases server with _ | b
  · simp [newerAnswer] at h
  · rw [newerAnswer] at h
    split at h
    · simp at h
    · obtain rfl : b = a := by simpa using h
      omega

theorem le_foldl_max (l : List Nat) (n : Nat) : n ≤ l.foldl max n ∧ ∀ m ∈ l, m ≤ l.foldl max n := by
  induction l generalizing n with
  | nil => simp
  | cons a l ih =>
    obtain ⟨hn, hl⟩ := ih (max n a)
    refine ⟨(le_max_left _ _).trans hn, fun m hm => ?_⟩
    rcases mem_cons.mp hm with rfl | hm
    · exact (le_max_right _ _).trans hn
    · exact hl m hm

theorem le_maxSeq (seq : Nat) (mirror : List AnswerRecord) (server : List ServerAnswer) :
    seq ≤ AnswerStore.maxSeq seq mirror server ∧
      (∀ l ∈ mirror, l.clientSeq ≤ AnswerStore.maxSeq seq mirror server) ∧
      ∀ a ∈ server, a.clientSeq ≤ AnswerStore.maxSeq seq mirror server := by
  obtain ⟨h1, h2⟩ := le_foldl_max (mirror.map (·.clientSeq)) seq
  obtain ⟨h3, h4⟩ := le_foldl_max (server.map (·.clientSeq)) ((mirror.map (·.clientSeq)).foldl max seq)
  exact ⟨h1.trans h3, fun l hl => (h2 _ (mem_map_of_mem hl)).trans h3,
    fun a ha => h4 _ (mem_map_of_mem ha)⟩

theorem mem_server_of_mem_restoreItems {mirror : List AnswerRecord} {server : List ServerAnswer}
    {it : Nat × Option ServerAnswer} (h : it ∈ AnswerStore.restoreItems mirror server)
    (ha : a ∈ it.2) : a ∈ server := by
  rcases mem_append.mp h with h | h
  · obtain ⟨b, hb, rfl⟩ := mem_map.mp h
    rwa [← Option.some.inj ha]
  · obtain ⟨l, -, rfl⟩ := mem_map.mp h
    simp at ha

structure AnswerInv (s : AnswerStore) : Prop where
  dirtyShown : ∀ q d, s.dirty.find? q = some d → s.values q = some d.2
  dirtyEdited : ∀ q d, s.dirty.find? q = some d → q ∈ s.edits
  away : ∀ w ∈ s.onTheWay, w.clientSeq ≤ s.seq
  saved : ∀ sv ∈ s.saves, sv.clientSeq ≤ s.seq
  kept : ∀ sv ∈ s.saves, ∃ x, s.Version sv.questionId x ∧ sv.clientSeq ≤ x.2
  editSaves : ∀ sv ∈ s.saves, sv.requeuedFrom = none → sv.questionId ∈ s.edits
  current : ∀ r ∈ s.restores, r.hasRead → r.Current s
  seeded : ∀ r ∈ s.restores, r.merges → r.Seeded s

namespace AnswerInv

variable {s : AnswerStore}

theorem set (h : AnswerInv s) (q : Nat) (value : AnswerValue) : AnswerInv (s.set q value) where
  __ := h
  dirtyShown q' d hd := by
    have hd' : (s.dirty.upsert (q, value)).find? q' = some d := hd
    rw [Table.find?_upsert] at hd'
    show Function.update s.values q (some value) q' = some d.2
    split at hd'
    · rename_i hq
      have hq' : q' = q := hq
      rw [hq', Function.update_self, ← Option.some.inj hd']
    · rename_i hq
      have hq' : q' ≠ q := hq
      rw [Function.update_of_ne hq', h.dirtyShown q' d hd']
  dirtyEdited q' d hd := by
    have hd' : (s.dirty.upsert (q, value)).find? q' = some d := hd
    rw [Table.find?_upsert] at hd'
    refine mem_append.mpr ?_
    split at hd'
    · exact .inr (mem_singleton.mpr ‹_›)
    · exact .inl (h.dirtyEdited q' d hd')
  editSaves sv hsv hnone := mem_append_left _ (h.editSaves sv hsv hnone)
  current r hr hread := by
    have hfind : ∀ q', ((s.dirty.upsert (q, value)).find? q').isSome ↔ q' = q ∨ (s.dirty.find? q').isSome := by
      intro q'
      rw [Table.find?_upsert]
      split
      · rename_i hq
        exact ⟨fun _ => .inl hq, fun _ => rfl⟩
      · rename_i hq
        exact ⟨.inr, fun h => h.resolve_left hq⟩
    refine (h.current r hr hread).mono rfl rfl (fun _ h => h) (fun w hw => .inl hw) (fun _ _ => rfl)
      (fun q' hq' => ?_) fun q' hq' => .inl ((hfind q').mpr (.inr hq'))
    have hq'' : q' ∈ (s.edits ++ [q]).drop r.readAt := hq'
    rw [drop_append] at hq''
    rcases mem_append.mp hq'' with hq'' | hq''
    · exact .inl hq''
    · exact .inr ((hfind q').mpr (.inl (mem_singleton.mp (mem_of_mem_drop hq''))))
  seeded r hr hm := (h.seeded r hr hm).mono rfl (fun _ h => h) (le_refl _)

variable {r r' : Restore} {w : AnswerRecord}

theorem current_hands {s s' : AnswerStore} (h : r.Current s)
    (hmirror : s'.mirror = s.mirror) (haway : ∀ w', w' ∈ s'.onTheWay → w' ∈ s.onTheWay ∨ w' = w)
    (hr : r'.mirror = r.mirror) (hat : r'.readAt = r.readAt)
    (hover : r'.overtaken = w.questionId :: r.overtaken) (hedits : s'.edits = s.edits)
    (hdirty : ∀ q ≠ w.questionId, s'.dirty.find? q = s.dirty.find? q) : r'.Current s' := by
  refine h.mono hr hat (fun q hq => ?_) (fun w' hw' => ?_) (fun q _ => by rw [hmirror])
    (fun q hq => .inl (by rwa [hedits] at hq)) fun q hq => ?_
  · rw [hover]
    exact mem_cons_of_mem _ hq
  · rcases haway w' hw' with hw' | rfl
    · exact .inl hw'
    · exact .inr (by rw [hover]; exact mem_cons_self)
  · by_cases hne : q = w.questionId
    · exact .inr (by rw [hover, hne]; exact mem_cons_self)
    · exact .inl (by rwa [hdirty q hne])

variable {q : Nat}

theorem persist_none (hd : s.dirty.find? q = none) : s.persist q = s := by
  rw [AnswerStore.persist, hd]

variable {d : Nat × AnswerValue}

theorem persist_some (hd : s.dirty.find? q = some d) :
    s.persist q =
      { s.overtake q with
        dirty := s.dirty.erase q
        seq := s.seq + 1
        writes := s.writes ++ [⟨q, d.2, s.seq + 1, true⟩]
        saves := s.saves ++ [⟨q, s.seq + 1, none⟩] } := by
  rw [AnswerStore.persist, hd]

theorem mem_onTheWay_persist (hd : s.dirty.find? q = some d) :
    w ∈ (s.persist q).onTheWay ↔ w ∈ s.onTheWay ∨ w = ⟨q, d.2, s.seq + 1, true⟩ := by
  rw [persist_some hd]
  show w ∈ (s.writes ++ [⟨q, d.2, s.seq + 1, true⟩]) ++
    (s.overtake q).restores.filterMap (·.write?) ↔
    w ∈ s.writes ++ s.restores.filterMap (·.write?) ∨ _
  rw [AnswerStore.writes_overtake]
  simp only [mem_append, mem_singleton]
  rw [or_right_comm]

theorem hands_persist (hd : s.dirty.find? q = some d) :
    AnswerStore.Hands ⟨q, d.2, s.seq + 1, true⟩ s (s.persist q) :=
  AnswerStore.hands_of_mem (by rw [persist_some hd]; rfl) fun _ => mem_onTheWay_persist hd

theorem persist (h : AnswerInv s) (q : Nat) : AnswerInv (s.persist q) := by
  rcases hd : s.dirty.find? q with _ | d
  · rwa [persist_none hd]
  have haway := fun w => mem_onTheWay_persist hd (w := w)
  have hhands := hands_persist hd
  rw [persist_some hd] at haway hhands ⊢
  have hdirty : ∀ q' d', (s.dirty.erase q).find? q' = some d' → s.dirty.find? q' = some d' := by
    intro q' d' hd'
    rw [Table.find?_erase] at hd'
    split at hd'
    · simp at hd'
    · exact hd'
  refine ⟨fun q' d' hd' => h.dirtyShown q' d' (hdirty q' d' hd'),
    fun q' d' hd' => h.dirtyEdited q' d' (hdirty q' d' hd'),
    fun w hw => ?_, fun sv hsv => ?_, fun sv hsv => ?_, fun sv hsv hnone => ?_,
      fun r' hr' hread => ?_,
    fun r' hr' hm => ?_⟩
  · rcases (haway w).mp hw with hw | rfl
    · exact (h.away w hw).trans (Nat.le_succ _)
    · exact le_refl _
  · rcases mem_append.mp hsv with hsv | hsv
    · exact (h.saved sv hsv).trans (Nat.le_succ _)
    · rw [mem_singleton.mp hsv]
  · rcases mem_snoc.1 hsv with hsv | rfl
    · obtain ⟨x, hx, hle⟩ := h.kept sv hsv
      exact ⟨x, (hhands _ x).mpr (.inl hx), hle⟩
    · exact ⟨(d.2, s.seq + 1), (hhands _ _).mpr (.inr ⟨rfl, rfl⟩), le_refl _⟩
  · rcases mem_snoc.1 hsv with hsv | rfl
    · exact h.editSaves sv hsv hnone
    · exact h.dirtyEdited q d hd
  · obtain ⟨r, hr, rfl⟩ := mem_map.mp hr'
    refine current_hands (h.current r hr hread) rfl (fun w hw =>
      (haway w).mp hw) rfl rfl rfl rfl fun q' hq' => ?_
    exact (Table.find?_erase _ _ _).trans (if_neg hq')
  · obtain ⟨r, hr, rfl⟩ := mem_map.mp hr'
    exact (h.seeded r hr hm).mono rfl (fun _ h => h) (Nat.le_succ _)

/-- Writes that take effect. -/
theorem settled (h : AnswerInv s) {s' : AnswerStore} (hset : AnswerStore.Settled s s')
    (haway : ∀ w ∈ s'.onTheWay, w ∈ s.onTheWay) (hvalues : s'.values = s.values)
    (hdirty : s'.dirty = s.dirty)
    (hseq : s'.seq = s.seq) (hedits : s'.edits = s.edits) (hsaves : s'.saves = s.saves)
    (hsame : ∀ r ∈ s.restores, r.hasRead → ∀ q ∉ r.overtaken,
      (s'.mirror.find? q).map (·.version) = (s.mirror.find? q).map (·.version))
    (hrestores : ∀ r' ∈ s'.restores, r'.hasRead → ∃ r ∈ s.restores, r.hasRead ∧ r'.mirror = r.mirror ∧
      r'.readAt = r.readAt ∧ r'.overtaken = r.overtaken ∧ r'.items = r.items ∧ (r'.merges → r.merges)) :
    AnswerInv s' where
  dirtyShown q d hd := by
    rw [hdirty] at hd
    rw [hvalues, h.dirtyShown q d hd]
  dirtyEdited q d hd := by
    rw [hdirty] at hd
    rw [hedits]
    exact h.dirtyEdited q d hd
  away w hw := by
    rw [hseq]
    exact h.away w (haway w hw)
  saved sv hsv := by
    rw [hsaves] at hsv
    rw [hseq]
    exact h.saved sv hsv
  kept sv hsv := by
    rw [hsaves] at hsv
    obtain ⟨x, hx, hle⟩ := h.kept sv hsv
    obtain ⟨y, hy, hle'⟩ := hset.dom _ x hx
    exact ⟨y, hy, hle.trans hle'⟩
  editSaves sv hsv hnone := by
    rw [hsaves] at hsv
    rw [hedits]
    exact h.editSaves sv hsv hnone
  current r' hr' hread := by
    obtain ⟨r, hr, hread', hm, hat, hover, -, -⟩ := hrestores r' hr' hread
    refine (h.current r hr hread').mono hm hat (fun q hq => by rwa [hover]) (fun w hw =>
      .inl (haway w hw))
      (fun q hq => hsame r hr hread' q (by rwa [← hover]))
      (fun q hq => .inl (by rwa [hedits] at hq)) fun q hq => .inl (by rwa [hdirty])
  seeded r' hr' hm := by
    have hread := Restore.hasRead_of_merges hm
    obtain ⟨r, hr, -, hmirror, -, -, hitems, hm'⟩ := hrestores r' hr' hread
    exact (h.seeded r hr (hm' hm)).mono hmirror (fun it hit => by rwa [← hitems]) hseq.ge

theorem same_writeAnswer (mirror : AnswerMirror) {overtaken : List Nat}
    (hw : w.questionId ∈ overtaken) : ∀ q ∉ overtaken,
      ((writeAnswer mirror w).find? q).map (·.version) = (mirror.find? q).map (·.version) := by
  intro q hq
  rcases find?_writeAnswer mirror w q with hsame | ⟨hq', -, -⟩
  · rw [hsame]
  · exact absurd (hq' ▸ hw) hq

theorem land_settled (s : AnswerStore) : AnswerStore.Settled s s.land := by
  rw [AnswerStore.land]
  split
  · exact .of_iff fun _ _ => Iff.rfl
  · rename_i w writes hw
    refine AnswerStore.settled_write (w := w) rfl fun w' => ?_
    show w' ∈ s.writes ++ _ ↔ w' = w ∨ w' ∈ writes ++ _
    rw [hw, cons_append, mem_cons]

theorem land (h : AnswerInv s) : AnswerInv s.land := by
  have hset := land_settled s
  rw [AnswerStore.land] at hset ⊢
  split at hset
  · exact h
  · rename_i w writes hw
    have hmem : w ∈ s.onTheWay := by
      rw [AnswerStore.onTheWay, hw]
      exact mem_cons_self
    refine h.settled hset (fun w' hw' => ?_) rfl rfl rfl rfl rfl
      (fun r hr hread => same_writeAnswer _ ((h.current r hr hread).away w hmem))
      fun r hr hread => ⟨r, hr, hread, rfl, rfl, rfl, rfl, id⟩
    rw [AnswerStore.onTheWay, hw]
    exact mem_cons_of_mem _ hw'

theorem find?_settle (s : AnswerStore) (q q' : Nat) :
    ((s.settle q).mirror.find? q').map (·.version) = (s.mirror.find? q').map (·.version) := by
  rw [AnswerStore.settle, Table.find?_modify, Option.map_map]
  refine congrArg (fun f => (s.mirror.find? q').map f) (funext fun r => ?_)
  simp only [Function.comp_apply]
  split <;> rfl

theorem settle_settled (s : AnswerStore) (q : Nat) : AnswerStore.Settled s (s.settle q) := by
  refine .of_iff fun q' x => or_congr_left ?_
  have hsame := find?_settle s q q'
  simp only [← Option.map_eq_some_iff, hsame]

theorem settle (h : AnswerInv s) (q : Nat) : AnswerInv (s.settle q) :=
  h.settled (settle_settled s q) (fun _ hw => hw) rfl rfl rfl rfl rfl (fun _ _ _ q' _ =>
    find?_settle s q q')
    fun r hr hread => ⟨r, hr, hread, rfl, rfl, rfl, rfl, id⟩

variable {k : Nat}

theorem version_setRestore (hr : s.restores[k]? = some r) (hw : r.write? = none)
    (hw' : r'.write? = none) (q : Nat) (x : AnswerValue × Nat) :
    (s.setRestore k r').Version q x ↔ s.Version q x := by
  simp only [AnswerStore.Version, AnswerStore.mem_onTheWay_setRestore hr hw, hw',
    reduceCtorEq, or_false]
  rfl

theorem setRestore (h : AnswerInv s) (hr : s.restores[k]? = some r)
    (hw : r.write? = none) (hw' : r'.write? = none) (hread : r'.hasRead → r'.Current s)
    (hm : r'.merges → r'.Seeded s) : AnswerInv (s.setRestore k r') := by
  have haway : ∀ w, w ∈ (s.setRestore k r').onTheWay ↔ w ∈ s.onTheWay := fun w => by
    rw [AnswerStore.mem_onTheWay_setRestore hr hw, hw']
    simp
  have hcurrent : ∀ r₁ : Restore, r₁.Current s → r₁.Current (s.setRestore k r') := fun r₁ h₁ =>
    ⟨fun w hw => h₁.away w ((haway w).mp hw), h₁.same, h₁.edited⟩
  refine { h with
      away := fun w hw => h.away w ((haway w).mp hw)
      kept := fun sv hsv => ?_
      current := fun r₁ hr₁ hread₁ => ?_
      seeded := fun r₁ hr₁ hm₁ => ?_ }
  · obtain ⟨x, hx, hle⟩ := h.kept sv hsv
    exact ⟨x, (version_setRestore hr hw hw' _ x).mpr hx, hle⟩
  · rcases mem_set_cases hr hr₁ with rfl | hr₁
    · exact hcurrent _ (hread hread₁)
    · exact hcurrent _ (h.current r₁ (mem_of_mem_eraseIdx hr₁) hread₁)
  · rcases mem_set_cases hr hr₁ with rfl | hr₁
    · exact ⟨(hm hm₁).mirror, (hm hm₁).items⟩
    · have hseeded := h.seeded r₁ (mem_of_mem_eraseIdx hr₁) hm₁
      exact ⟨hseeded.mirror, hseeded.items⟩

theorem onTheWay_start (s : AnswerStore) (hw : r.write? = none) :
    ({ s with restores := s.restores ++ [r] } : AnswerStore).onTheWay = s.onTheWay := by
  rw [AnswerStore.onTheWay, AnswerStore.onTheWay, filterMap_append, filterMap_cons_none hw,
    filterMap_nil, append_nil]

theorem start_settled (s : AnswerStore) (hw : r.write? = none) :
    AnswerStore.Settled s { s with restores := s.restores ++ [r] } :=
  .of_iff fun q x => by rw [AnswerStore.Version, AnswerStore.Version, onTheWay_start s hw]

/-- A restore that begins. -/
theorem start (h : AnswerInv s) (r : Restore) (hread : r.hasRead = false) (hw : r.write? = none) :
    AnswerInv { s with restores := s.restores ++ [r] } := by
  refine h.settled (start_settled s hw) (fun w hw' => onTheWay_start s hw ▸ hw') rfl rfl rfl rfl rfl
    (fun _ _ _ _ _ => rfl) fun r' hr' hread' => ?_
  rcases mem_snoc.1 hr' with hr' | rfl
  · exact ⟨r', hr', hread', rfl, rfl, rfl, rfl, id⟩
  · rw [hread] at hread'
    simp at hread'

/-- The counter goes up. -/
theorem raise (h : AnswerInv s) {n : Nat} (hn : s.seq ≤ n) : AnswerInv { s with seq := n } where
  __ := h
  away w hw := (h.away w hw).trans hn
  saved sv hsv := (h.saved sv hsv).trans hn
  current r hr hread := ⟨(h.current r hr hread).away, (h.current r hr hread).same,
    (h.current r hr hread).edited⟩
  seeded r hr hm := (h.seeded r hr hm).mono rfl (fun _ h => h) hn

theorem written_settled (hr : s.restores[k]? = some r)
    (hw : r.phase = .writing w) : AnswerStore.Settled s
      ({ s with mirror := writeAnswer s.mirror w }.setRestore k { r with phase := .merging }) :=
  AnswerStore.settled_write (w := w) rfl fun _ =>
    AnswerStore.mem_onTheWay_written hr (by rw [Restore.write?, hw]) rfl

theorem written (h : AnswerInv s) (hr : s.restores[k]? = some r) (hw : r.phase = .writing w) :
    AnswerInv ({ s with mirror := writeAnswer s.mirror w }.setRestore k { r with phase := .merging }) := by
  have hwrite : r.write? = some w := by rw [Restore.write?, hw]
  have hmem : r ∈ s.restores := mem_of_getElem? hr
  have haway : w ∈ s.onTheWay := mem_append_right _ (mem_filterMap.mpr ⟨r, hmem, hwrite⟩)
  have hreads : r.hasRead := by rw [Restore.hasRead, hw]
  have hmerges : r.merges := by rw [Restore.merges, hw]
  refine h.settled (written_settled hr hw)
    (fun w' hw' => (AnswerStore.mem_onTheWay_written hr hwrite rfl).mpr (.inr hw')) rfl rfl rfl rfl rfl
    (fun r₁ hr₁ hread₁ => same_writeAnswer _ ((h.current r₁ hr₁ hread₁).away w haway)) fun r' hr' hread' => ?_
  rcases mem_set_cases hr hr' with rfl | hr'
  · exact ⟨r, hmem, hreads, rfl, rfl, rfl, rfl, fun _ => hmerges⟩
  · exact ⟨r', mem_of_mem_eraseIdx hr', hread', rfl, rfl, rfl, rfl, id⟩

theorem showAnswer (h : AnswerInv s) (readAt q : Nat) (value : AnswerValue) :
    AnswerInv (s.showAnswer readAt q value) := by
  rw [AnswerStore.showAnswer]
  split
  · exact h
  · rename_i hchange
    refine { h with
        dirtyShown := fun q' d hd => ?_
        current := fun r hr hread => ?_
        seeded := fun r hr hm => ?_ }
    · have hd' : s.dirty.find? q' = some d := hd
      have hne : q' ≠ q := by
        rintro rfl
        simp [hd'] at hchange
      exact (Function.update_of_ne hne _ _).trans (h.dirtyShown q' d hd')
    · exact ⟨(h.current r hr hread).away, (h.current r hr hread).same, (h.current r hr hread).edited⟩
    · exact ⟨(h.seeded r hr hm).mirror, (h.seeded r hr hm).items⟩

variable {r₀ : Restore}

theorem mem_onTheWay_handWrite (hr : s.restores[k]? = some r₀)
    (hw : r₀.write? = none) {w w' : AnswerRecord} :
    w' ∈ (s.handWrite k r w).onTheWay ↔ w' ∈ s.onTheWay ∨ w' = w := by
  have hover : (s.overtake w.questionId).restores[k]? =
      some { r₀ with overtaken := w.questionId :: r₀.overtaken } := by
    rw [AnswerStore.overtake, getElem?_map, hr]
    rfl
  have haway : (s.overtake w.questionId).onTheWay = s.onTheWay := by
    rw [AnswerStore.onTheWay, AnswerStore.writes_overtake]
    rfl
  rw [AnswerStore.handWrite, AnswerStore.mem_onTheWay_setRestore hover hw, haway]
  simp only [Restore.write?, Option.some.injEq, eq_comm (a := w)]

theorem hands_handWrite (hr : s.restores[k]? = some r₀) (hw : r₀.write? = none)
    (w : AnswerRecord) : AnswerStore.Hands w s (s.handWrite k r w) :=
  AnswerStore.hands_of_mem rfl fun _ => mem_onTheWay_handWrite hr hw

section

variable (h : AnswerInv s) (hr : s.restores[k]? = some r₀) (hw : r₀.write? = none)
include h hr hw

theorem handWrite (hle : w.clientSeq ≤ s.seq) (hcurrent : r.Current s)
    (hseeded : r.Seeded s) : AnswerInv (s.handWrite k r w) := by
  have haway (w' : AnswerRecord) : w' ∈ (s.handWrite k r w).onTheWay ↔ w' ∈ s.onTheWay ∨ w' = w :=
    mem_onTheWay_handWrite hr hw
  have hhands := hands_handWrite hr hw (r := r) w
  have hslot : (s.restores.map fun r => { r with overtaken := w.questionId :: r.overtaken })[k]? =
      some { r₀ with overtaken := w.questionId :: r₀.overtaken } := by
    rw [getElem?_map, hr]
    rfl
  -- the other restores are as before, with the question overtaken
  have hothers : ∀ r' ∈ (s.handWrite k r w).restores,
      r' = { r with phase := .writing w, overtaken := w.questionId :: r.overtaken } ∨
        ∃ r₁ ∈ s.restores, r' = { r₁ with overtaken := w.questionId :: r₁.overtaken } := by
    intro r' hr'
    refine (mem_set_cases hslot hr').imp_right fun hr' => ?_
    obtain ⟨r₁, hr₁, he⟩ := mem_map.mp (mem_of_mem_eraseIdx hr')
    exact ⟨r₁, hr₁, he.symm⟩
  refine { h with
      away := fun w' hw' => ?_
      kept := fun sv hsv => ?_
      current := fun r' hr' hread => ?_
      seeded := fun r' hr' hm => ?_ }
  · rcases (haway w').mp hw' with hw' | rfl
    · exact h.away w' hw'
    · exact hle
  · obtain ⟨x, hx, hle'⟩ := h.kept sv hsv
    exact ⟨x, (hhands _ x).mpr (.inl hx), hle'⟩
  · rcases hothers r' hr' with rfl | ⟨r₁, hr₁, rfl⟩
    · exact current_hands hcurrent rfl (fun w' hw' => (haway w').mp hw') rfl rfl rfl rfl fun _ _ =>
        rfl
    · exact current_hands (h.current r₁ hr₁ hread) rfl (fun w' hw' =>
        (haway w').mp hw') rfl rfl rfl rfl fun _ _ => rfl
  · rcases hothers r' hr' with rfl | ⟨r₁, hr₁, rfl⟩
    · exact hseeded.mono rfl (fun _ h => h) (le_refl _)
    · exact (h.seeded r₁ hr₁ hm).mono rfl (fun _ h => h) (le_refl _)

theorem requeue (value : AnswerValue) (clientSeq : Nat) (hcurrent : r.Current s)
    (hseeded : r.Seeded s) :
    AnswerInv (AnswerStore.handWrite k r ⟨q, value, s.seq + 1, true⟩
      { s with seq := s.seq + 1, saves := s.saves ++ [⟨q, s.seq + 1, some clientSeq⟩] }) := by
  have hraised := h.raise (Nat.le_succ s.seq)
  have hwritten := hraised.handWrite (w := ⟨q, value, s.seq + 1, true⟩) hr hw (le_refl _)
    ⟨hcurrent.away, hcurrent.same, hcurrent.edited⟩ (hseeded.mono rfl (fun _ h => h) (Nat.le_succ _))
  refine ⟨hwritten.dirtyShown, hwritten.dirtyEdited, hwritten.away, fun sv hsv => ?_, fun sv hsv => ?_,
    fun sv hsv hnone => ?_, fun r' hr' hread => ?_, fun r' hr' hm => ?_⟩
  · rcases mem_snoc.1 hsv with hsv | rfl
    · exact hwritten.saved sv hsv
    · exact le_refl _
  · rcases mem_snoc.1 hsv with hsv | rfl
    · exact hwritten.kept sv hsv
    · exact ⟨(value, s.seq + 1), (hands_handWrite hr hw _ _ _).mpr (.inr ⟨rfl, rfl⟩), le_refl _⟩
  · rcases mem_append.mp hsv with hsv | hsv
    · exact hwritten.editSaves sv hsv hnone
    · rw [mem_singleton.mp hsv] at hnone
      simp at hnone
  · exact ⟨(hwritten.current r' hr' hread).away, (hwritten.current r' hr' hread).same,
      (hwritten.current r' hr' hread).edited⟩
  · exact ⟨(hwritten.seeded r' hr' hm).mirror, (hwritten.seeded r' hr' hm).items⟩

/-- One question of a merge. -/
theorem mergeAnswer (hwr : r.write? = none) (hcurrent : r.Current s) (hseeded : r.Seeded s)
    (q : Nat) {server : Option ServerAnswer} (hserver : ∀ a ∈ server, a.clientSeq ≤ s.seq) :
    AnswerInv (s.mergeAnswer k r q server) := by
  -- what is shown changes neither the restores nor what they know
  have hshow : ∀ value, (s.showAnswer r.readAt q value).restores[k]? = some r₀ ∧
      r.Current (s.showAnswer r.readAt q value) ∧ r.Seeded (s.showAnswer r.readAt q value) := by
    intro value
    rw [AnswerStore.showAnswer]
    split
    · exact ⟨hr, hcurrent, hseeded⟩
    · exact ⟨hr, ⟨hcurrent.away, hcurrent.same, hcurrent.edited⟩, ⟨hseeded.mirror, hseeded.items⟩⟩
  have hseq : ∀ value, (s.showAnswer r.readAt q value).seq = s.seq := fun value => by
    rw [AnswerStore.showAnswer]
    split <;> rfl
  unfold AnswerStore.mergeAnswer
  split
  · rename_i l _
    obtain ⟨hr', hc, hs⟩ := hshow l.value
    split
    · exact (h.showAnswer r.readAt q l.value).setRestore hr' hw hwr (fun _ => hc) fun _ => hs
    · exact (h.showAnswer r.readAt q l.value).requeue hr' hw l.value l.clientSeq hc hs
  · rename_i a hnewer
    obtain ⟨hr', hc, hs⟩ := hshow a.value
    have ha : a ∈ server := mem_of_theirs hnewer
    exact (h.showAnswer r.readAt q a.value).handWrite hr' hw ((hserver a ha).trans (hseq _).ge) hc hs
  · exact h.setRestore hr hw hwr (fun _ => hcurrent) fun _ => hseeded

end

theorem advance (h : AnswerInv s) (k : Nat) : AnswerInv (s.advance k) := by
  rw [AnswerStore.advance]
  split
  · exact h
  · rename_i r hr
    have hmem : r ∈ s.restores := mem_of_getElem? hr
    split
    · rename_i hp
      exact h.setRestore hr (Restore.write?_of_phase hp (by simp)) rfl
        (fun h => by simp [Restore.hasRead] at h) fun h => by simp [Restore.merges] at h
    · rename_i hp
      refine h.setRestore hr (Restore.write?_of_phase hp (by simp)) rfl (fun _ =>
        ?_) fun h => by simp [Restore.merges] at h
      exact ⟨fun w hw => mem_map_of_mem hw, fun _ _ => rfl, fun q hq => by simp at hq⟩
    · rename_i hp
      have hread : r.hasRead := by rw [Restore.hasRead, hp]
      have hcur := h.current r hmem hread
      obtain ⟨hseq, hmirror, hserver⟩ := le_maxSeq s.seq r.mirror.rows r.server
      refine (h.raise hseq).setRestore hr (Restore.write?_of_phase hp (by simp)) rfl
        (fun _ => ⟨hcur.away, hcur.same, hcur.edited⟩) fun _ => ⟨hmirror, fun it hit a ha => ?_⟩
      exact hserver a (mem_server_of_mem_restoreItems hit ha)
    · rename_i hp
      have hread : r.hasRead := by rw [Restore.hasRead, hp]
      have hmerges : r.merges := by rw [Restore.merges, hp]
      have hcur := h.current r hmem hread
      have hseed := h.seeded r hmem hmerges
      have hw := Restore.write?_of_phase hp (by simp)
      split
      · exact h.setRestore hr hw rfl (fun h => by simp [Restore.hasRead] at h)
          fun h => by simp [Restore.merges] at h
      · rename_i q server items hitems
        have hrest : Restore.Seeded { r with items := items } s :=
          ⟨hseed.mirror, fun it hit => hseed.items it (by rw [hitems]; exact mem_cons_of_mem _ hit)⟩
        refine h.mergeAnswer (r := { r with items := items }) hr hw ?_ ⟨hcur.away, hcur.same, hcur.edited⟩ hrest q
          fun a ha => hseed.items (q, server) (by rw [hitems]; exact mem_cons_self) a ha
        rw [Restore.write?, hp]
    · rename_i w hp
      exact h.written hr hp
    · exact h

theorem setTimers (h : AnswerInv s) (timers : List Nat) : AnswerInv { s with timers := timers } :=
  h.settled (.of_iff fun _ _ => Iff.rfl) (fun _ hw => hw) rfl rfl rfl rfl rfl (fun _ _ _ _ _ => rfl)
    fun r hr hread => ⟨r, hr, hread, rfl, rfl, rfl, rfl, id⟩

theorem flushPending (h : AnswerInv s) : AnswerInv s.flushPending := by
  have hfold : ∀ (qs : List Nat) {s : AnswerStore}, AnswerInv s →
      AnswerInv (qs.foldl (fun s q => s.persist q) s) := by
    intro qs
    induction qs with
    | nil => exact fun h => h
    | cons q qs ih => exact fun h => ih (h.persist q)
  exact hfold _ (h.setTimers [])

theorem fire (h : AnswerInv s) (q : Nat) : AnswerInv (s.fire q) := (h.setTimers _).persist q

theorem load (mirror : AnswerMirror) : AnswerInv (AnswerStore.load mirror) := by
  refine ⟨fun q d hd => ?_, fun q d hd => ?_, ?_, ?_, ?_, ?_, ?_, ?_⟩
  · simp [AnswerStore.load, Table.find?, Table.empty] at hd
  · simp [AnswerStore.load, Table.find?, Table.empty] at hd
  all_goals simp [AnswerStore.load, AnswerStore.onTheWay]

theorem step (h : AnswerInv s) (i : AnswerInput) : AnswerInv (i.step s) := by
  cases i with
  | set q value => exact h.set q value
  | fire q => exact h.fire q
  | flushPending => exact h.flushPending
  | land => exact h.land
  | settle q => exact h.settle q
  | restore server | reconcile server => exact h.start _ rfl rfl
  | advance k => exact h.advance k

end AnswerInv

/-! ## Runs in which nothing is overtaken -/

namespace AnswerStore

/-- The counter is at least the `clientSeq` the mirror has of a question. -/
def SeededFor (s : AnswerStore) (q : Nat) : Prop := ∀ l ∈ s.mirror.find? q, l.clientSeq ≤ s.seq
  deriving Decidable

/-- `show` would change what the candidate sees. -/
def ChangesShown (s : AnswerStore) (q : Nat) (value : AnswerValue) : Prop :=
  ¬ ((s.dirty.find? q).isSome ∨ s.values q = some value)
  deriving Decidable

/-- A question edited in this page is not overtaken when a restore changes what is shown, or queues
the mirror's answer again, and the server's answer is not another one with the same `clientSeq`. -/
def MergesInTime (s : AnswerStore) (r : Restore) (q : Nat) (server : Option ServerAnswer) : Prop :=
  q ∈ s.edits →
    match newerAnswer (r.mirror.find? q) server with
    | .mine l => s.ChangesShown q l.value ∨ l.pending = false → q ∉ r.overtaken
    | .theirs a =>
      s.ChangesShown q a.value →
        q ∉ r.overtaken ∧ ∀ l ∈ r.mirror.find? q, l.clientSeq = a.clientSeq → l.value = a.value
    | .neither => True

instance (s : AnswerStore) (r : Restore) (q : Nat) (server : Option ServerAnswer) :
    Decidable (s.MergesInTime r q server) := by
  unfold MergesInTime
  cases newerAnswer (r.mirror.find? q) server <;> exact inferInstanceAs (Decidable (_ → _))

end AnswerStore

/-- An edit is saved with the counter above what the mirror has of its question, and a restore
handles a question edited in this page only while no write of it was under way at its read or handed
over since. -/
def AnswerInput.InTime (i : AnswerInput) (s : AnswerStore) : Prop :=
  match i with
  | .fire q => s.SeededFor q
  | .flushPending => ∀ d ∈ s.dirty.rows, s.SeededFor d.1
  | .advance k =>
    ∀ r ∈ s.restores[k]?, r.phase = .merging → ∀ it ∈ r.items.head?, s.MergesInTime r it.1 it.2
  | _ => True

instance AnswerInput.decidableInTime (i : AnswerInput) (s : AnswerStore) :
    Decidable (i.InTime s) := by
  refine AnswerInput.casesOn (motive := fun i => Decidable (i.InTime s)) i ?_ ?_ ?_ ?_ ?_
    ?_ ?_ ?_ <;> intros <;> unfold AnswerInput.InTime <;> infer_instance

/-- No newer edit of the question has a lower `clientSeq` than an answer that was queued again. -/
def RequeuesBelow (saves : List AnswerSave) : Prop :=
  ∀ p ∈ saves, ∀ n, p.requeuedFrom = some n → ∀ e ∈ saves, e.requeuedFrom = none →
    e.questionId = p.questionId → n < e.clientSeq → p.clientSeq < e.clientSeq

structure SeenInv (s : AnswerStore) : Prop where
  top : ∀ q ∈ s.edits, s.dirty.find? q = none → s.ShownIsTop q
  shown : ∀ sh ∈ s.shown, sh.questionId ∉ sh.editedSince
  requeues : RequeuesBelow s.saves

namespace SeenInv

variable {s : AnswerStore}

theorem settled (h : SeenInv s) {s' : AnswerStore} (hset : AnswerStore.Settled s s')
    (hvalues : s'.values = s.values) (hdirty : s'.dirty = s.dirty) (hedits : s'.edits = s.edits)
    (hshown : s'.shown = s.shown) (hsaves : s'.saves = s.saves) : SeenInv s' where
  top q hq hd := by
    rw [hedits] at hq
    rw [hdirty] at hd
    exact (h.top q hq hd).settled hset (by rw [hvalues])
  shown := by
    rw [hshown]
    exact h.shown
  requeues := by
    rw [hsaves]
    exact h.requeues

theorem set (h : SeenInv s) (q : Nat) (value : AnswerValue) : SeenInv (s.set q value) := by
  refine ⟨fun q' hq' hd => ?_, h.shown, h.requeues⟩
  have hd' : (s.dirty.upsert (q, value)).find? q' = none := hd
  rw [Table.find?_upsert] at hd'
  split at hd'
  · simp at hd'
  · rename_i hne
    have hne' : q' ≠ q := hne
    have hedited : q' ∈ s.edits :=
      (mem_append.mp hq').resolve_right fun hmem => hne' (mem_singleton.mp hmem)
    exact (h.top q' hedited hd').settled (.of_iff fun _ _ => Iff.rfl) (Function.update_of_ne hne' _ _)

variable {q : Nat}

theorem persist (h : SeenInv s) (hinv : AnswerInv s) (hseeded : s.SeededFor q) :
    SeenInv (s.persist q) := by
  rcases hd : s.dirty.find? q with _ | d
  · rwa [AnswerInv.persist_none hd]
  have hhands := AnswerInv.hands_persist hd
  rw [AnswerInv.persist_some hd] at hhands ⊢
  refine ⟨fun q' hq' hd' => ?_, h.shown, fun p hp n hn e he hnone heq hlt => ?_⟩
  · by_cases hq : q' = q
    · subst hq
      refine AnswerStore.shownIsTop_above hhands (hinv.dirtyShown q' d hd) fun y hy => ?_
      have hy2 : y.2 ≤ s.seq := by
        rcases hy with ⟨l, hl, rfl⟩ | ⟨w, hw, -, rfl⟩
        · exact hseeded l hl
        · exact hinv.away w hw
      show y.2 ≤ s.seq + 1 ∧ (y.2 = s.seq + 1 → _)
      exact ⟨by omega, fun he => by omega⟩
    · have hsame : s.dirty.find? q' = none := by
        have hd'' : (s.dirty.erase q).find? q' = none := hd'
        rwa [Table.find?_erase, if_neg hq] at hd''
      exact (h.top q' hq' hsame).hands hhands hq rfl
  · rcases mem_append.mp hp with hp | hp
    · rcases mem_snoc.1 he with he | rfl
      · exact h.requeues p hp n hn e he hnone heq hlt
      · exact Nat.lt_succ_of_le (hinv.saved p hp)
    · rw [mem_singleton.mp hp] at hn
      simp at hn

theorem seededFor_persist (q : Nat) {q' : Nat} (h : s.SeededFor q') :
    (s.persist q).SeededFor q' := by
  rcases hd : s.dirty.find? q with _ | d
  · rwa [AnswerInv.persist_none hd]
  · rw [AnswerInv.persist_some hd]
    exact fun l hl => (h l hl).trans (Nat.le_succ _)

theorem flushPending (h : SeenInv s) (hinv : AnswerInv s)
    (hseeded : ∀ d ∈ s.dirty.rows, s.SeededFor d.1) : SeenInv s.flushPending := by
  -- the counter only goes up, and nothing is written while the edits are saved
  have hfold : ∀ (qs : List Nat) {s : AnswerStore}, SeenInv s → AnswerInv s →
      (∀ q ∈ qs, s.SeededFor q) → SeenInv (qs.foldl (fun s q => s.persist q) s) := by
    intro qs
    induction qs with
    | nil => exact fun h _ _ => h
    | cons q qs ih =>
      intro s h hinv hs
      refine ih (h.persist hinv (hs q mem_cons_self)) (hinv.persist q) fun q' hq' => ?_
      exact seededFor_persist q (hs q' (mem_cons_of_mem _ hq'))
  have htimers : SeenInv { s with timers := [] } := ⟨h.top, h.shown, h.requeues⟩
  refine hfold _ htimers (hinv.setTimers []) fun q hq => ?_
  obtain ⟨d, hd, rfl⟩ := mem_map.mp hq
  exact hseeded d hd

theorem showAnswer_eq (s : AnswerStore) (readAt q : Nat) (value : AnswerValue) :
    ∃ values shown, s.showAnswer readAt q value = { s with values := values, shown := shown } ∧
      (∀ q' ≠ q, values q' = s.values q') ∧ (s.dirty.find? q = none → values q = some value) ∧
      (¬ s.ChangesShown q value → values = s.values ∧ shown = s.shown) ∧
      (s.ChangesShown q value → shown = s.shown ++ [⟨q, s.edits.drop readAt⟩]) := by
  rw [AnswerStore.showAnswer]
  split
  · rename_i hkeep
    refine ⟨s.values, s.shown, rfl, fun _ _ => rfl, fun hd => ?_, fun _ => ⟨rfl, rfl⟩,
      fun hc => absurd hkeep hc⟩
    exact hkeep.resolve_left (by simp [hd])
  · rename_i hchange
    exact ⟨_, _, rfl, fun q' hq' => Function.update_of_ne hq' _ _, fun _ => Function.update_self _ _ _,
      fun hc => absurd hchange hc, fun _ => rfl⟩

variable {r : Restore}

theorem merged (h : SeenInv s) (hcurrent : r.Current s) {value : AnswerValue}
    (hover : q ∈ s.edits → s.ChangesShown q value → q ∉ r.overtaken) {s' : AnswerStore}
    (hedits : s'.edits = s.edits) (hdirty : s'.dirty = s.dirty)
    (hvalues : ∀ q' ≠ q, s'.values q' = s.values q')
    (hversions : ∀ q' ≠ q, ∀ x, s'.Version q' x ↔ s.Version q' x)
    (htop : q ∈ s.edits → s.dirty.find? q = none → s'.ShownIsTop q)
    (hkeep : ¬ s.ChangesShown q value → s'.shown = s.shown)
    (hshown : s.ChangesShown q value → s'.shown = s.shown ++ [⟨q, s.edits.drop r.readAt⟩])
    (hsaves : RequeuesBelow s'.saves) : SeenInv s' := by
  refine ⟨fun q' hq' hd => ?_, ?_, hsaves⟩
  · rw [hedits] at hq'
    rw [hdirty] at hd
    by_cases hq : q' = q
    · subst hq
      exact htop hq' hd
    · obtain ⟨x, hx, hs, hmax⟩ := h.top q' hq' hd
      exact ⟨x, (hversions q' hq x).mpr hx, by rw [hvalues q' hq, hs], fun y hy =>
        hmax y ((hversions q' hq y).mp hy)⟩
  · by_cases hc : s.ChangesShown q value
    · rw [hshown hc]
      intro sh hsh
      rcases mem_append.mp hsh with hsh | hsh
      · exact h.shown sh hsh
      · -- an edit since the read is debounced still, or has overtaken the restore
        rw [mem_singleton.mp hsh]
        intro hmem
        rcases hcurrent.edited q hmem with hd | hmem'
        · exact hc (.inl hd)
        · exact hover (mem_of_mem_drop hmem) hc hmem'
    · rw [hkeep hc]
      exact h.shown

variable {k : Nat} {r₀ : Restore}

section

variable (h : SeenInv s)
include h

theorem mergeMine (hr : s.restores[k]? = some r₀)
    (hw : r₀.write? = none) (hwr : r.write? = none) (hcurrent : r.Current s) {l : AnswerRecord}
    (hl : r.mirror.find? q = some l) (hover : q ∈ s.edits → s.ChangesShown q l.value → q ∉ r.overtaken) :
    SeenInv ((s.showAnswer r.readAt q l.value).setRestore k r) := by
  obtain ⟨values, shown, hs, hothers, hself, hkeep, hchange⟩ := showAnswer_eq s r.readAt q l.value
  rw [hs]
  have hversion : ∀ q' x,
      (AnswerStore.setRestore k r { s with values := values, shown := shown }).Version q' x ↔
      s.Version q' x :=
    AnswerInv.version_setRestore (s := { s with values := values, shown := shown }) hr hw hwr
  refine h.merged hcurrent hover rfl rfl hothers (fun q' _ => hversion q') (fun hq hd => ?_)
    (fun hc => (hkeep hc).2) hchange h.requeues
  by_cases hc : s.ChangesShown q l.value
  · have honly : ∀ x, s.Version q x ↔ ∃ l', r.mirror.find? q = some l' ∧ l'.version = x := fun x =>
      hcurrent.version (hover hq hc)
    refine ⟨l.version, (hversion q _).mpr ((honly _).mpr ⟨l, hl, rfl⟩), hself hd, fun y hy => ?_⟩
    obtain ⟨l', hl', rfl⟩ := (honly y).mp ((hversion q y).mp hy)
    obtain rfl : l = l' := Option.some.inj (hl.symm.trans hl')
    exact ⟨le_refl _, fun _ => rfl⟩
  · exact (h.top q hq hd).settled (.of_iff hversion) (congrFun (hkeep hc).1 q)

theorem mergeRequeue (hinv : AnswerInv s)
    (hr : s.restores[k]? = some r₀) (hw : r₀.write? = none) (hcurrent : r.Current s)
    (hseeded : r.Seeded s)
    {l : AnswerRecord} (hl : r.mirror.find? q = some l) (hover : q ∈ s.edits → q ∉ r.overtaken) :
    SeenInv (AnswerStore.handWrite k r ⟨q, l.value, (s.showAnswer r.readAt q l.value).seq + 1, true⟩
      { s.showAnswer r.readAt q l.value with
        seq := (s.showAnswer r.readAt q l.value).seq + 1
        saves := (s.showAnswer r.readAt q l.value).saves ++
          [⟨q, (s.showAnswer r.readAt q l.value).seq + 1, some l.clientSeq⟩] }) := by
  obtain ⟨values, shown, hs, hothers, hself, hkeep, hchange⟩ := showAnswer_eq s r.readAt q l.value
  rw [hs]
  have honly : q ∈ s.edits → ∀ x, s.Version q x → x = l.version := by
    intro hq x hx
    obtain ⟨l', hl', rfl⟩ := (hcurrent.version (hover hq)).mp hx
    rw [Option.some.inj (hl.symm.trans hl')]
  have hhands : AnswerStore.Hands ⟨q, l.value, s.seq + 1, true⟩ s _ :=
    AnswerInv.hands_handWrite (s := { s with
      values := values, shown := shown, seq := s.seq + 1
      saves := s.saves ++ [⟨q, s.seq + 1, some l.clientSeq⟩] }) (r := r) hr hw ⟨q, l.value, s.seq + 1, true⟩
  have hle : l.clientSeq ≤ s.seq := hseeded.mirror l (Table.find?_eq_some.mp hl).1
  refine h.merged hcurrent (fun hq _ => hover hq) rfl rfl hothers (fun q' hq' x =>
    ?_) (fun hq hd => ?_)
    (fun hc => (hkeep hc).2) hchange ?_
  · rw [hhands q' x]
    simp [hq']
  · refine AnswerStore.shownIsTop_above hhands (hself hd) fun y hy => ?_
    rw [honly hq y hy]
    show l.clientSeq ≤ s.seq + 1 ∧ (l.clientSeq = s.seq + 1 → _)
    exact ⟨by omega, fun he => by omega⟩
  · intro p hp n hn e he hnone heq hlt
    rcases mem_append.mp he with he | he
    · rcases mem_append.mp hp with hp | hp
      · exact h.requeues p hp n hn e he hnone heq hlt
      · -- every edit saved so far is in the mirror's answer
        rw [mem_singleton.mp hp] at hn heq
        have heq' : e.questionId = q := heq
        have hedited := hinv.editSaves e he hnone
        obtain ⟨x, hx, hxe⟩ := hinv.kept e he
        rw [heq'] at hedited hx
        have hx' : x = l.version := honly hedited x hx
        have hn' : l.clientSeq = n := Option.some.inj hn
        rw [hx'] at hxe
        have hxe' : e.clientSeq ≤ l.clientSeq := hxe
        omega
    · rw [mem_singleton.mp he] at hnone
      simp at hnone

theorem mergeTheirs (hr : s.restores[k]? = some r₀)
    (hw : r₀.write? = none) (hcurrent : r.Current s) {a : ServerAnswer}
    (hle : ∀ l ∈ r.mirror.find? q, l.clientSeq ≤ a.clientSeq)
    (hover : q ∈ s.edits → s.ChangesShown q a.value →
      q ∉ r.overtaken ∧ ∀ l ∈ r.mirror.find? q, l.clientSeq = a.clientSeq → l.value = a.value) :
    SeenInv (AnswerStore.handWrite k r ⟨q, a.value, a.clientSeq,
      false⟩ (s.showAnswer r.readAt q a.value)) := by
  obtain ⟨values, shown, hs, hothers, hself, hkeep, hchange⟩ := showAnswer_eq s r.readAt q a.value
  rw [hs]
  have hhands : AnswerStore.Hands ⟨q, a.value, a.clientSeq, false⟩ s _ :=
    AnswerInv.hands_handWrite (s := { s with values := values, shown := shown }) (r := r) hr hw
      ⟨q, a.value, a.clientSeq, false⟩
  refine h.merged hcurrent (fun hq hc => (hover hq hc).1) rfl rfl hothers (fun q' hq' x =>
    ?_) (fun hq hd => ?_)
    (fun hc => (hkeep hc).2) hchange h.requeues
  · rw [hhands q' x]
    simp [hq']
  · by_cases hc : s.ChangesShown q a.value
    · obtain ⟨hnot, htie⟩ := hover hq hc
      refine AnswerStore.shownIsTop_above hhands (hself hd) fun y hy => ?_
      obtain ⟨l, hl, rfl⟩ := (hcurrent.version hnot).mp hy
      exact ⟨hle l hl, htie l hl⟩
    · have hsame : s.values q = some a.value := by
        rw [AnswerStore.ChangesShown, Decidable.not_not] at hc
        exact hc.resolve_left (by simp [hd])
      exact (h.top q hq hd).hands_same hhands (hself hd) hsame

theorem mergeAnswer (hinv : AnswerInv s)
    (hr : s.restores[k]? = some r₀) (hw : r₀.write? = none) (hwr : r.write? = none)
    (hcurrent : r.Current s)
    (hseeded : r.Seeded s) {server : Option ServerAnswer} (hmerge : s.MergesInTime r q server) :
    SeenInv (s.mergeAnswer k r q server) := by
  unfold AnswerStore.mergeAnswer
  unfold AnswerStore.MergesInTime at hmerge
  split
  · rename_i l hnewer
    rw [hnewer] at hmerge
    split
    · exact h.mergeMine hr hw hwr hcurrent (mem_of_mine hnewer) fun hq hc => hmerge hq (.inl hc)
    · rename_i hpending
      exact h.mergeRequeue hinv hr hw hcurrent hseeded (mem_of_mine hnewer)
        fun hq => hmerge hq (.inr (by simpa using hpending))
  · rename_i a hnewer
    rw [hnewer] at hmerge
    exact h.mergeTheirs hr hw hcurrent (le_of_theirs hnewer) hmerge
  · exact h.settled (.of_iff (AnswerInv.version_setRestore hr hw hwr)) rfl rfl rfl rfl rfl

theorem advance (hinv : AnswerInv s) (hin : (AnswerInput.advance k).InTime s) :
    SeenInv (s.advance k) := by
  rw [AnswerStore.advance]
  split
  · exact h
  · rename_i r hr
    have hmem : r ∈ s.restores := mem_of_getElem? hr
    have hquiet : ∀ {r' : Restore} {n : Nat}, r.write? = none → r'.write? = none →
        SeenInv ({ s with seq := n }.setRestore k r') := fun {r' n} hw hw' =>
      h.settled (.of_iff (AnswerInv.version_setRestore (s := { s with seq := n }) hr hw hw')) rfl rfl rfl rfl rfl
    split
    · rename_i hp
      exact hquiet (Restore.write?_of_phase hp (by simp)) rfl
    · rename_i hp
      exact hquiet (Restore.write?_of_phase hp (by simp)) rfl
    · rename_i hp
      exact hquiet (Restore.write?_of_phase hp (by simp)) rfl
    · rename_i hp
      have hcur := hinv.current r hmem (by rw [Restore.hasRead, hp])
      have hseed := hinv.seeded r hmem (by rw [Restore.merges, hp])
      have hw := Restore.write?_of_phase hp (by simp)
      split
      · exact hquiet hw rfl
      · rename_i q server items hitems
        have hmerge := hin r hr hp (q, server) (by rw [hitems]; rfl)
        have hrest : Restore.Seeded { r with items := items } s :=
          ⟨hseed.mirror, fun it hit => hseed.items it (by rw [hitems]; exact mem_cons_of_mem _ hit)⟩
        exact h.mergeAnswer (r := { r with items := items }) hinv hr hw (by rw [Restore.write?, hp])
          ⟨hcur.away, hcur.same, hcur.edited⟩ hrest hmerge
    · rename_i w hp
      exact h.settled (AnswerInv.written_settled hr hp) rfl rfl rfl rfl rfl
    · exact h

theorem step (hinv : AnswerInv s) {i : AnswerInput} (hin : i.InTime s) : SeenInv (i.step s) := by
  cases i with
  | set q value => exact h.set q value
  | fire q =>
    have htimers : SeenInv { s with timers := s.timers.erase q } := ⟨h.top, h.shown, h.requeues⟩
    exact htimers.persist (hinv.setTimers _) hin
  | flushPending => exact h.flushPending hinv hin
  | land =>
    refine h.settled (AnswerInv.land_settled s) ?_ ?_ ?_ ?_ ?_
    all_goals
      simp only [AnswerInput.step, AnswerStore.land]
      split <;> rfl
  | settle q => exact h.settled (AnswerInv.settle_settled s q) rfl rfl rfl rfl rfl
  | restore server
  | reconcile server => exact h.settled (AnswerInv.start_settled s rfl) rfl rfl rfl rfl rfl
  | advance k => exact h.advance hinv hin

end

end SeenInv

/-! ## The result -/

/-- Nothing is on its way: no debounced edit, no save, no restore. -/
def AnswerStore.Quiet (s : AnswerStore) : Prop :=
  s.dirty.rows = [] ∧ s.writes = [] ∧ ∀ r ∈ s.restores, r.phase = .finished

structure AnswersKept (s : AnswerStore) : Prop where
  /-- No restore replaces what is shown of a question edited since it read the mirror. -/
  shown : ∀ sh ∈ s.shown, sh.questionId ∉ sh.editedSince
  requeues : RequeuesBelow s.saves
  /-- What the candidate sees of the edited questions is what the mirror keeps. -/
  kept : s.Quiet → ∀ q ∈ s.edits, ∃ value, s.values q = some value ∧ ∃ l,
    s.mirror.find? q = some l ∧ l.value = value

variable {s : AnswerStore}

theorem SeenInv.kept (h : SeenInv s) (hquiet : s.Quiet) :
    ∀ q ∈ s.edits, ∃ value, s.values q = some value ∧ ∃ l,
    s.mirror.find? q = some l ∧ l.value = value := by
  intro q hq
  obtain ⟨hdirty, hwrites, hrestores⟩ := hquiet
  have hd : s.dirty.find? q = none := by
    rw [Table.find?, hdirty]
    rfl
  obtain ⟨x, hx, hshown, -⟩ := h.top q hq hd
  rcases hx with ⟨l, hl, rfl⟩ | ⟨w, hw, -, -⟩
  · exact ⟨l.value, hshown, l, hl, rfl⟩
  · rw [AnswerStore.onTheWay, hwrites, nil_append, mem_filterMap] at hw
    obtain ⟨r, hr, hwr⟩ := hw
    rw [Restore.write?, hrestores r hr] at hwr
    simp at hwr

theorem seenInv_of_reachable (h : (answerMachine.restrict AnswerInput.InTime).Reachable s) :
    AnswerInv s ∧ SeenInv s := by
  induction h with
  | init h0 =>
    obtain ⟨mirror, rfl⟩ := h0
    exact ⟨.load mirror, ⟨by simp [AnswerStore.load], by simp [AnswerStore.load], by simp [RequeuesBelow, AnswerStore.load]⟩⟩
  | step _ i hi ih => exact ⟨ih.1.step i, ih.2.step ih.1 hi.2⟩

/-! ## The counter -/

def Increasing (saves : List AnswerSave) : Prop :=
  saves.Pairwise fun a b => a.clientSeq < b.clientSeq

theorem saves_advance (s : AnswerStore) (k : Nat) :
    (s.advance k).saves = s.saves ∨ ∃ sv, (s.advance k).saves = s.saves ++ [sv] ∧
    sv.clientSeq = s.seq + 1 := by
  rw [AnswerStore.advance]
  split
  · exact .inl rfl
  · rename_i r _
    split
    case h_4 =>
      split
      · exact .inl rfl
      · rename_i q server items _
        unfold AnswerStore.mergeAnswer
        split
        · rename_i l _
          obtain ⟨values, shown, hs, -⟩ := SeenInv.showAnswer_eq s r.readAt q l.value
          simp only [hs]
          split
          · exact .inl rfl
          · exact .inr ⟨_, rfl, rfl⟩
        · rename_i a _
          obtain ⟨values, shown, hs, -⟩ := SeenInv.showAnswer_eq s r.readAt q a.value
          rw [hs]
          exact .inl rfl
        · exact .inl rfl
    all_goals exact .inl rfl

namespace Increasing

variable {s : AnswerStore}

section

variable (h : Increasing s.saves) (hinv : AnswerInv s)
include h hinv

theorem append {sv : AnswerSave} (hsv : sv.clientSeq = s.seq + 1) :
    Increasing (s.saves ++ [sv]) := by
  refine pairwise_append.mpr ⟨h, pairwise_singleton _ _, fun a ha b hb => ?_⟩
  rw [mem_singleton.mp hb, hsv]
  exact Nat.lt_succ_of_le (hinv.saved a ha)

theorem persist (q : Nat) : Increasing (s.persist q).saves := by
  rcases hd : s.dirty.find? q with _ | d
  · rwa [AnswerInv.persist_none hd]
  · rw [AnswerInv.persist_some hd]
    exact h.append hinv rfl

theorem flushPending : Increasing s.flushPending.saves := by
  have hfold : ∀ (qs : List Nat) {s : AnswerStore}, Increasing s.saves → AnswerInv s →
      Increasing (qs.foldl (fun s q => s.persist q) s).saves := by
    intro qs
    induction qs with
    | nil => exact fun h _ => h
    | cons q qs ih => exact fun h hinv => ih (h.persist hinv q) (hinv.persist q)
  have htimers : Increasing ({ s with timers := [] } : AnswerStore).saves := h
  exact hfold _ htimers (hinv.setTimers [])

theorem step (i : AnswerInput) : Increasing (i.step s).saves := by
  cases i with
  | fire q =>
    have htimers : Increasing ({ s with timers := s.timers.erase q } : AnswerStore).saves := h
    exact htimers.persist (hinv.setTimers _) q
  | flushPending => exact h.flushPending hinv
  | land =>
    have hsaves : s.land.saves = s.saves := by
      rw [AnswerStore.land]
      split <;> rfl
    exact hsaves ▸ h
  | advance k =>
    show Increasing (s.advance k).saves
    rcases saves_advance s k with hs | ⟨sv, hs, hsv⟩
    · rwa [hs]
    · rw [hs]
      exact h.append hinv hsv
  | _ => exact h

end

end Increasing

theorem increasing_of_reachable (h : answerMachine.Reachable s) :
    AnswerInv s ∧ Increasing s.saves := by
  induction h with
  | init h0 =>
    obtain ⟨mirror, rfl⟩ := h0
    exact ⟨.load mirror, List.Pairwise.nil⟩
  | step _ i _ ih => exact ⟨ih.1.step i, ih.2.step ih.1 i⟩

/-- While no restore is overtaken, the answer the candidate sees is the one that is kept; no
`clientSeq` is used for two saves in any run. -/
theorem answers_kept (s : AnswerStore) :
    ((answerMachine.restrict AnswerInput.InTime).Reachable s → AnswersKept s) ∧
      (answerMachine.Reachable s → Increasing s.saves) := by
  refine ⟨fun h => ?_, fun h => (increasing_of_reachable h).2⟩
  obtain ⟨-, hseen⟩ := seenInv_of_reachable h
  exact ⟨hseen.shown, hseen.requeues, hseen.kept⟩

/-- A page loaded with one answer, which the server has. -/
def loadedPage : AnswerStore := AnswerStore.load (Table.insert .empty ⟨1, .text "old", 1, false⟩)

theorem loadedPage_init : answerMachine.init loadedPage := ⟨_, rfl⟩

/-- The restore at the start. -/
def resumed : List AnswerInput :=
  [.restore [⟨1, .text "old", 1⟩], .advance 0, .advance 0, .advance 0, .advance 0, .advance 0]

/-- An edit that is saved and lands before the exam is resumed. -/
def editedBefore : List AnswerInput :=
  resumed ++
    [.set 1 (.text "new"), .fire 1, .land, .reconcile [⟨1, .text "old", 1⟩], .advance 1,
      .advance 1, .advance 1,
      .advance 1, .advance 1, .advance 1]

theorem editedBefore_admits :
    (answerMachine.restrict AnswerInput.InTime).Admits loadedPage editedBefore := by
  decide +kernel

theorem answers_kept_edited :
    AnswersKept (answerMachine.run loadedPage editedBefore) ∧
      (answerMachine.run loadedPage editedBefore).values 1 = some (.text "new") :=
  ⟨(answers_kept _).1 (.run (.init (M := answerMachine.restrict AnswerInput.InTime) loadedPage_init)
    editedBefore_admits),
    by decide +kernel⟩

/-- An edit whose debounce timer fires after the reconcile has read the mirror. -/
def editedDuring : List AnswerInput :=
  resumed ++
    [.reconcile [⟨1, .text "old", 1⟩], .advance 1, .advance 1, .set 1 (.text "new"), .fire 1,
      .land, .advance 1,
      .advance 1, .advance 1, .advance 1]

/-- The candidate sees the old answer again, and the mirror keeps the new one. -/
theorem edit_reverted :
    (¬ ∀ s, answerMachine.Reachable s → AnswersKept s) ∧
      (answerMachine.run loadedPage editedDuring).values 1 = some (.text "old") ∧
      ((answerMachine.run loadedPage editedDuring).mirror.find? 1).map (·.value) = some (.text "new") := by
  refine ⟨fun h => ?_, by decide +kernel, by decide +kernel⟩
  have hadmits : answerMachine.Admits loadedPage editedDuring := by decide +kernel
  have hkept := h _ (.run (.init loadedPage_init) hadmits)
  have hshown : ¬ ∀ sh ∈ (answerMachine.run loadedPage editedDuring).shown,
      sh.questionId ∉ sh.editedSince := by
    decide +kernel
  exact hshown hkept.shown

end SmartProctoring
