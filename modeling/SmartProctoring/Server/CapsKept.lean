import Mathlib.Algebra.Order.Ring.Nat
import SmartProctoring.Server.StorageCaps

/-!
# The storage caps under concurrent uploads

Two uploads of a session that are both between the check of a cap and the insert do not see each
other.  For the recording one such upload is what "at most one segment over" allows for; a
screenshot's share is passed as soon as any image is stored in between.  The unique index keeps the
segments apart in every run.
-/

set_option autoImplicit false

namespace SmartProctoring

open List

variable {cfg : CapsConfig}

/-! ## The rows -/

theorem filter_purge (db : CapsDb) (ids : List Nat) {p : SessionEvidenceRow → Bool}
    (hp : ∀ r, p r → ¬ r.purged) :
    ((db.purgeEvidenceRows ids).rows.filter p).Sublist (db.rows.filter p) := by
  have hkeep : (db.purgeEvidenceRows ids).rows.filter p =
      (db.rows.filter fun r => decide (r.id ∉ ids)).filter p := by
    rw [CapsDb.purgeEvidenceRows]
    induction db.rows with
    | nil => rfl
    | cons r rows ih =>
      rw [map_cons]
      by_cases hid : r.id ∈ ids
      · have hnot : ¬ p { r with purged := true } := fun h => hp _ h rfl
        rw [if_pos hid, filter_cons_of_neg hnot, ih]
        simp [hid]
      · rw [filter_cons, ih]
        simp [filter_cons, hid]
  rw [hkeep]
  exact filter_sublist.filter p

theorem not_purged_of_isRecording (r : SessionEvidenceRow) (h : r.isRecording) : ¬ r.purged := by
  simp only [SessionEvidenceRow.isRecording, decide_eq_true_eq] at h
  exact h.2

theorem not_purged_of_isImage (r : SessionEvidenceRow) (h : r.isImage) : ¬ r.purged := by
  simp only [SessionEvidenceRow.isImage, decide_eq_true_eq] at h
  exact h.2

/-- A live screenshot. -/
def SessionEvidenceRow.isScreenshot (r : SessionEvidenceRow) : Bool :=
  r.kind = .eventScreenshot ∧ ¬ r.purged

theorem not_purged_of_isScreenshot (r : SessionEvidenceRow) (h : r.isScreenshot) : ¬ r.purged := by
  simp only [SessionEvidenceRow.isScreenshot, decide_eq_true_eq] at h
  exact h.2

/-- What `storeImages` changes. -/
theorem storeImages_eq (images : List (EvidenceKind × Nat)) (db : CapsDb) :
    ∃ added, db.storeImages images = { db with rows := db.rows ++ added } ∧
      ∀ r ∈ added, ∃ i ∈ images, r.kind = i.1 := by
  induction images generalizing db with
  | nil => exact ⟨[], by simp [CapsDb.storeImages], by simp⟩
  | cons i images ih =>
    obtain ⟨added, hdb, hadded⟩ := ih { db with rows := db.rows ++ [db.newRow none i.1 i.2 none] }
    refine ⟨db.newRow none i.1 i.2 none :: added, ?_, fun r hr => ?_⟩
    · rw [CapsDb.storeImages, foldl_cons]
      rw [CapsDb.storeImages] at hdb
      rw [hdb, append_assoc]
      rfl
    · rcases mem_cons.mp hr with rfl | hr
      · exact ⟨i, mem_cons_self, rfl⟩
      · obtain ⟨i', hi', hk⟩ := hadded r hr
        exact ⟨i', mem_cons_of_mem _ hi', hk⟩

/-- A usage no larger than another. -/
def SessionEvidenceUsage.Within (u : SessionEvidenceUsage) (items bytes : Nat) : Prop :=
  u.items ≤ items ∧ u.bytes ≤ bytes

/-- The part of the budget screenshots may fill. -/
def SessionEvidenceUsage.InShare (cfg : CapsConfig) (u : SessionEvidenceUsage) : Prop :=
  u.Within (cfg.maxEvidenceItems * EVENT_SCREENSHOT_SHARE / 10)
    (cfg.maxEvidenceBytes * EVENT_SCREENSHOT_SHARE / 10)
  deriving Decidable

/-- The usage by screenshots alone. -/
def screenshotUsage (rows : List SessionEvidenceRow) : SessionEvidenceUsage where
  items := (rows.filter (·.isScreenshot)).length
  bytes := ((rows.filter (·.isScreenshot)).map (·.byteSize)).sum

/-! ## In every run -/

structure CapsKept (cfg : CapsConfig) (db : CapsDb) : Prop where
  /-- At most one segment over. -/
  recording : sessionRecordingBytes db.rows ≤ cfg.maxSessionBytes ∨
    ∃ r ∈ db.rows, r.isRecording ∧ sessionRecordingBytes db.rows ≤ cfg.maxSessionBytes + r.byteSize
  /-- Every screenshot was stored while the images, with it, were within the share. -/
  shots : ∀ u ∈ db.shots, u.InShare cfg
  /-- The screenshots leave the rest of the budget to others. -/
  room : (screenshotUsage db.rows).InShare cfg
  once : (db.segments.map (·.key)).Nodup

/-- A segment passes the cap while at most one other is on its way to the commit, and no image is
stored while another upload's screenshot is on its way from its share to the insert. -/
def CapsUndisturbed (cfg : CapsConfig) (a : CapsAction) (s : CapsState) : Prop :=
  match a with
  | .advance k =>
    ∀ t ∈ s.tasks[k]?,
      (t.passesCap cfg s.db → ((s.tasks.eraseIdx k).filterMap (·.recordingBytes?)).length ≤ 1) ∧
      (t.storesImage cfg s.db → ∀ t' ∈ s.tasks.eraseIdx k, t'.screenshot? = none)
  | .keep images => images ≠ [] → ∀ t ∈ s.tasks, t.screenshot? = none
  | _ => True

instance CapsUndisturbed.decidable (a : CapsAction) (s : CapsState) :
    Decidable (CapsUndisturbed cfg a s) := by
  refine CapsAction.casesOn (motive := fun a => Decidable (CapsUndisturbed cfg a s)) a ?_ ?_ ?_
    ?_ ?_ ?_ <;> intros <;> unfold CapsUndisturbed <;> infer_instance

/-! ## Runs -/

variable {s : CapsState}

theorem uploads_induction {g : CapsAction → CapsState → Prop} {I : CapsDb → List UploadTask → Prop}
    (hperm : ∀ {db tasks tasks'}, tasks.Perm tasks' → I db tasks → I db tasks')
    (h0 : I ⟨[], [], false, []⟩ [])
    (harrive : ∀ {db tasks t}, t.HoldsNothing → I db tasks → I db (tasks ++ [t]))
    (hnext : ∀ {s k t}, s.tasks[k]? = some t → (∀ t' ∈ s.tasks.eraseIdx k, ¬ t.waitsFor t') →
      g (.advance k) s → I s.db (t :: s.tasks.eraseIdx k) →
      I (s.db.next cfg t).1 ((s.db.next cfg t).2 :: s.tasks.eraseIdx k))
    (hdone : ∀ {db t others}, I db (t :: others) → I db (.done :: others))
    (hkeep : ∀ {s images}, (∀ i ∈ images, i.1 ≠ .recording ∧ i.1 ≠ .eventScreenshot) → g (.keep images) s →
      I s.db s.tasks → I (s.db.storeImages images) s.tasks)
    (hpurge : ∀ {db tasks ids}, I db tasks → I (db.purgeEvidenceRows ids) tasks)
    (hclose : ∀ {db tasks}, I db tasks → I { db with closed := true } tasks)
    (h : ((uploadMachine cfg).restrict g).Reachable s) : I s.db s.tasks := by
  induction h with
  | init h0' =>
    rw [show _ = _ from h0']
    exact h0
  | @step s _ a ha ih =>
    obtain ⟨ha, hg⟩ := ha
    cases a with
    | arrive t =>
      refine harrive ?_ ih
      cases t <;> first | exact ⟨rfl, rfl, rfl⟩ | simp [uploadMachine, CapsAction.enabled,
        UploadTask.isRequest] at ha
    | advance k =>
      show I (CapsAction.step cfg (.advance k) s).db (CapsAction.step cfg (.advance k) s).tasks
      rw [CapsAction.step]
      split
      · rename_i t ht
        have hstep := hnext ht (ha t ht) hg (hperm (perm_eraseIdx_of_getElem? ht) ih)
        exact hperm (set_perm_eraseIdx ht _).symm hstep
      · exact ih
    | fail k =>
      show I s.db (s.tasks.set k .done)
      rcases ht : s.tasks[k]? with _ | t
      · rwa [set_eq_of_length_le (getElem?_eq_none_iff.mp ht)]
      · exact hperm (set_perm_eraseIdx ht _).symm (hdone (hperm (perm_eraseIdx_of_getElem? ht) ih))
    | keep images => exact hkeep ha hg ih
    | purge ids => exact hpurge ih
    | close => exact hclose ih

/-! ## The unique index -/

/-- The keys that are committed, or inserted by an open transaction, are different. -/
def KeysInv (db : CapsDb) (tasks : List UploadTask) : Prop :=
  (db.segments.map (·.key) ++ tasks.filterMap (·.insertedKey?)).Nodup

variable {db : CapsDb}

theorem KeysInv.perm {tasks tasks' : List UploadTask} (h : KeysInv db tasks)
    (hp : tasks.Perm tasks') : KeysInv db tasks' :=
  ((hp.filterMap _).append_left _).nodup h

variable {others : List UploadTask} {t t' : UploadTask}

theorem KeysInv.replace
    (h : KeysInv db (t :: others)) (hk : ∀ k ∈ t'.insertedKey?, t.insertedKey? = some k) :
    KeysInv db (t' :: others) := by
  refine List.Nodup.sublist ((List.Sublist.refl _).append ?_) h
  rcases hk' : t'.insertedKey? with _ | k
  · rw [filterMap_cons_none hk', filterMap_cons]
    split
    · exact List.Sublist.refl _
    · exact sublist_cons_self _ _
  · rw [filterMap_cons_some hk', filterMap_cons_some (hk k hk')]

theorem KeysInv.next (h : KeysInv db (t :: others))
    (hfree : ∀ t' ∈ others, ¬ t.waitsFor t') {r : CapsDb × UploadTask}
    (hr : NextOutcome cfg db t r) : KeysInv r.1 (r.2 :: others) := by
  cases hr with
  | quiet _ t' hmore => exact h.replace hmore.key
  | capPassed u _ | sharePassed u _ | purged id
  | shot u _ => exact h.replace fun k hk => by simp [UploadTask.insertedKey?] at hk
  | images _ images _ _ =>
    obtain ⟨added, hdb, -⟩ := storeImages_eq images db
    rw [hdb]
    exact h.replace fun k hk => by simp [UploadTask.insertedKey?] at hk
  | committed u =>
    rw [KeysInv, map_append, append_assoc]
    exact h
  | inserted u hfind =>
    have hothers : u.key ∉ others.filterMap (·.insertedKey?) := by
      intro hmem
      obtain ⟨t', ht', hkey⟩ := mem_filterMap.mp hmem
      refine hfree t' ht' ?_
      cases t' with
      | commitSegment v =>
        rw [UploadTask.insertedKey?, Option.some.injEq] at hkey
        simp [UploadTask.waitsFor, hkey]
      | _ => simp [UploadTask.insertedKey?] at hkey
    have hstored : u.key ∉ db.segments.map (·.key) := by
      intro hmem
      obtain ⟨g, hg, hkey⟩ := mem_map.mp hmem
      rw [CapsDb.findSegment, any_eq_false] at hfind
      exact hfind g hg (by simp [hkey])
    refine (perm_middle.nodup_iff).mpr (nodup_cons.mpr ⟨?_, h⟩)
    rw [mem_append, not_or]
    exact ⟨hstored, hothers⟩

theorem keysInv_of_reachable (h : (uploadMachine cfg).Reachable s) : KeysInv s.db s.tasks := by
  refine uploads_induction (g := fun _ _ => True) (fun hp h => h.perm hp) nodup_nil
    (fun {_ _ t} ht h => ?_) (fun _ hfree _ h => h.next hfree (CapsDb.next_outcome _ _ _))
    (fun h => h.replace fun k hk => by simp [UploadTask.insertedKey?] at hk)
    (fun {s images} _ _ h => ?_) (fun h => h) (fun h => h) (h.restrict fun _ _ => trivial)
  · rw [KeysInv, filterMap_append, filterMap_cons_none ht.key, filterMap_nil, append_nil]
    exact h
  · obtain ⟨added, hdb, -⟩ := storeImages_eq images s.db
    rw [hdb]
    exact h

/-! ## The caps -/

def stored (db : CapsDb) : Multiset Nat :=
  ((db.rows.filter (·.isRecording)).map (·.byteSize) : List Nat)

def underway (tasks : List UploadTask) : Multiset Nat :=
  (tasks.filterMap (·.recordingBytes?) : List Nat)

structure CapsInv (cfg : CapsConfig) (db : CapsDb) (tasks : List UploadTask) : Prop where
  recording : WithinBut cfg.maxSessionBytes 1 (stored db + underway tasks)
  fits : ∀ t ∈ tasks, ∀ u ∈ t.screenshot?,
    sessionHasEvidenceCapacity cfg db.rows 1 u.byteSize EVENT_SCREENSHOT_SHARE
  shots : ∀ u ∈ db.shots, u.InShare cfg
  room : (screenshotUsage db.rows).InShare cfg

theorem CapsInv.perm {tasks tasks' : List UploadTask} (hp : tasks.Perm tasks')
    (h : CapsInv cfg db tasks) : CapsInv cfg db tasks' := by
  refine ⟨?_, fun t ht => h.fits t (hp.symm.subset ht), h.shots, h.room⟩
  have hunder : underway tasks' = underway tasks := Multiset.coe_eq_coe.mpr (hp.filterMap _).symm
  rw [hunder]
  exact h.recording

theorem underway_cons_le (others : List UploadTask)
    (h : ∀ b ∈ t'.recordingBytes?, t.recordingBytes? = some b) :
    underway (t' :: others) ≤ underway (t :: others) := by
  rcases hb : t'.recordingBytes? with _ | b
  · rw [underway, filterMap_cons_none hb, underway, filterMap_cons]
    split
    · exact le_refl _
    · exact Multiset.coe_le.mpr (sublist_cons_self _ _).subperm
  · rw [underway, filterMap_cons_some hb, underway, filterMap_cons_some (h b hb)]

theorem CapsInv.replace
    (h : CapsInv cfg db (t :: others)) (hb : ∀ b ∈ t'.recordingBytes?, t.recordingBytes? = some b)
    (hs : ∀ u ∈ t'.screenshot?, t.screenshot? = some u) : CapsInv cfg db (t' :: others) := by
  refine ⟨h.recording.of_le ?_, fun t₁ ht₁ u hu => ?_, h.shots, h.room⟩
  · exact add_le_add_right (underway_cons_le others hb) _
  · rcases mem_cons.mp ht₁ with rfl | ht₁
    · exact h.fits t mem_cons_self u (hs u hu)
    · exact h.fits t₁ (mem_cons_of_mem _ ht₁) u hu

theorem filter_append_of_not {p : SessionEvidenceRow → Bool} {rows added : List SessionEvidenceRow}
    (h : ∀ r ∈ added, ¬ p r) : (rows ++ added).filter p = rows.filter p := by
  rw [filter_append, filter_eq_nil_iff.mpr h, append_nil]

variable {r : SessionEvidenceRow}

theorem isRecording_kind (h : r.isRecording) : r.kind = .recording := by
  simp only [SessionEvidenceRow.isRecording, decide_eq_true_eq] at h
  exact h.1

theorem isScreenshot_kind (h : r.isScreenshot) : r.kind = .eventScreenshot := by
  simp only [SessionEvidenceRow.isScreenshot, decide_eq_true_eq] at h
  exact h.1

theorem isImage_of_isScreenshot (h : r.isScreenshot) : r.isImage := by
  have hkind := isScreenshot_kind h
  have hlive := not_purged_of_isScreenshot r h
  simp [SessionEvidenceRow.isImage, hkind, hlive]

theorem screenshotUsage_le (rows : List SessionEvidenceRow) :
    (screenshotUsage rows).Within (sessionEvidenceUsage rows).items (sessionEvidenceUsage rows).bytes := by
  have hsub : (rows.filter (·.isScreenshot)).Sublist (rows.filter (·.isImage)) :=
    monotone_filter_right rows fun _ h => isImage_of_isScreenshot h
  exact ⟨hsub.length_le, (hsub.map _).sum_le_sum fun _ _ => Nat.zero_le _⟩

theorem SessionEvidenceUsage.Within.trans {u : SessionEvidenceUsage}
    {items bytes items' bytes' : Nat}
    (h : u.Within items bytes) (hi : items ≤ items') (hb : bytes ≤ bytes') :
    u.Within items' bytes' :=
  ⟨h.1.trans hi, h.2.trans hb⟩

variable {tasks : List UploadTask}

theorem CapsInv.storeImages {images : List (EvidenceKind × Nat)}
    (h : CapsInv cfg db tasks) (hk : ∀ i ∈ images, i.1 ≠ .recording ∧ i.1 ≠ .eventScreenshot)
    (hnone : images ≠ [] → ∀ t ∈ tasks, t.screenshot? = none) :
    CapsInv cfg (db.storeImages images) tasks := by
  by_cases hempty : images = []
  · rwa [hempty]
  obtain ⟨added, hdb, hadded⟩ := storeImages_eq images db
  rw [hdb]
  have hrecording : ∀ r ∈ added, ¬ r.isRecording := by
    intro r hr hrec
    obtain ⟨i, hi, hkind⟩ := hadded r hr
    exact (hk i hi).1 (hkind ▸ isRecording_kind hrec)
  have hshot : ∀ r ∈ added, ¬ r.isScreenshot := by
    intro r hr hs
    obtain ⟨i, hi, hkind⟩ := hadded r hr
    exact (hk i hi).2 (hkind ▸ isScreenshot_kind hs)
  refine ⟨?_, fun t ht u hu => ?_, h.shots, ?_⟩
  · rw [stored, filter_append_of_not hrecording]
    exact h.recording
  · rw [hnone hempty t ht] at hu
    simp at hu
  · rw [screenshotUsage, filter_append_of_not hshot]
    exact h.room

theorem CapsInv.purge (h : CapsInv cfg db tasks) (ids : List Nat) :
    CapsInv cfg (db.purgeEvidenceRows ids) tasks := by
  have hrecording := filter_purge db ids not_purged_of_isRecording
  have himages := filter_purge db ids not_purged_of_isImage
  have hshots := filter_purge db ids not_purged_of_isScreenshot
  refine ⟨h.recording.of_le (add_le_add_left ?_ _), fun t ht u hu => ?_, h.shots,
    h.room.1.trans' ?_, h.room.2.trans' ?_⟩
  · exact Multiset.coe_le.mpr (hrecording.map _).subperm
  · have hfits := h.fits t ht u hu
    rw [sessionHasEvidenceCapacity, decide_eq_true_eq] at hfits ⊢
    have hitems : (sessionEvidenceUsage (db.purgeEvidenceRows ids).rows).items ≤
        (sessionEvidenceUsage db.rows).items :=
      himages.length_le
    have hbytes : (sessionEvidenceUsage (db.purgeEvidenceRows ids).rows).bytes ≤
        (sessionEvidenceUsage db.rows).bytes :=
      (himages.map _).sum_le_sum fun _ _ => Nat.zero_le _
    omega
  · exact hshots.length_le
  · exact (hshots.map _).sum_le_sum fun _ _ => Nat.zero_le _

/-- A segment that passes the cap. -/
theorem CapsInv.capPassed {u : SegmentUpload} (h : CapsInv cfg db (.recordingCap u :: others))
    (hfits : sessionRecordingBytes db.rows + u.byteSize ≤ cfg.maxSessionBytes)
    (hone : (others.filterMap (·.recordingBytes?)).length ≤ 1) :
    CapsInv cfg db (.insertSegment u :: others) := by
  refine ⟨?_, fun t ht => ?_, h.shots, h.room⟩
  · have hcard : (underway others).card ≤ 1 := hone
    exact withinBut_admit hfits hcard
  · rcases mem_cons.mp ht with rfl | ht
    · simp [UploadTask.screenshot?]
    · exact h.fits t (mem_cons_of_mem _ ht)

theorem CapsInv.committed {u : SegmentUpload}
    (h : CapsInv cfg db (.commitSegment u :: others)) (segments : List SegmentRow) (id : Nat) :
    CapsInv cfg
      { db with rows := db.rows ++ [db.newRow none .recording u.byteSize none], segments := segments }
      (.recheck id :: others) := by
  have himage : ∀ r ∈ [db.newRow none .recording u.byteSize none], ¬ r.isImage := by
    intro r hr
    rw [mem_singleton] at hr
    simp [hr, SessionEvidenceRow.isImage, CapsDb.newRow]
  have hshot : ∀ r ∈ [db.newRow none .recording u.byteSize none], ¬ r.isScreenshot := fun r hr hs =>
    himage r hr (isImage_of_isScreenshot hs)
  refine ⟨?_, fun t ht v hv => ?_, h.shots, ?_⟩
  · have hstored : stored { db with
        rows := db.rows ++ [db.newRow none .recording u.byteSize none], segments := segments } =
        stored db + {u.byteSize} := by
      rw [stored, filter_append, map_append]
      rfl
    have hparts : stored db + {u.byteSize} + underway (.recheck id :: others) =
        stored db + underway (.commitSegment u :: others) := by
      rw [add_assoc]
      rfl
    rw [hstored, hparts]
    exact h.recording
  · rcases mem_cons.mp ht with rfl | ht
    · simp [UploadTask.screenshot?] at hv
    · have hfits := h.fits t (mem_cons_of_mem _ ht) v hv
      rw [sessionHasEvidenceCapacity, sessionEvidenceUsage] at hfits ⊢
      rwa [filter_append_of_not himage]
  · rw [screenshotUsage, filter_append_of_not hshot]
    exact h.room

theorem CapsInv.shot {u : ScreenshotUpload}
    (h : CapsInv cfg db (.insertEvidence u :: others))
    (hnone : ∀ t ∈ others, t.screenshot? = none) (id : Nat)
    {row : SessionEvidenceRow}
    (hrow : row = db.newRow (some u.id) .eventScreenshot u.byteSize u.eventId) : CapsInv cfg
      { db with rows := db.rows ++ [row], shots := db.shots ++
        [sessionEvidenceUsage (db.rows ++ [row])] }
      (.recheck id :: others) := by
  have hfits := h.fits _ mem_cons_self u rfl
  rw [sessionHasEvidenceCapacity, decide_eq_true_eq] at hfits
  have husage : (sessionEvidenceUsage (db.rows ++ [row])).InShare cfg := by
    have himage : row.isImage := by simp [hrow, SessionEvidenceRow.isImage, CapsDb.newRow]
    have hsize : row.byteSize = u.byteSize := by rw [hrow]; rfl
    rw [SessionEvidenceUsage.InShare, SessionEvidenceUsage.Within, sessionEvidenceUsage, filter_append,
      filter_cons_of_pos himage]
    simpa [hsize, sessionEvidenceUsage] using hfits
  have hrecording : ∀ r ∈ [row], ¬ r.isRecording := by
    intro r hr
    rw [mem_singleton] at hr
    simp [hr, hrow, SessionEvidenceRow.isRecording, CapsDb.newRow]
  refine ⟨?_, fun t ht v hv => ?_, fun v hv => ?_, ?_⟩
  · rw [stored, filter_append_of_not hrecording]
    exact h.recording
  · rcases mem_cons.mp ht with rfl | ht
    · simp [UploadTask.screenshot?] at hv
    · rw [hnone t ht] at hv
      simp at hv
  · rcases mem_snoc.1 hv with hv | hv
    · exact h.shots v hv
    · rwa [hv]
  · exact (screenshotUsage_le _).trans husage.1 husage.2

theorem CapsInv.next (h : CapsInv cfg db (t :: others))
    (hone : t.passesCap cfg db → (others.filterMap (·.recordingBytes?)).length ≤ 1)
    (hnone : t.storesImage cfg db → ∀ t' ∈ others, t'.screenshot? = none) {r : CapsDb × UploadTask}
    (hr : NextOutcome cfg db t r) : CapsInv cfg r.1 (r.2 :: others) := by
  cases hr with
  | quiet _ t' hmore => exact h.replace hmore.recording hmore.screenshot
  | capPassed u hfits => exact h.capPassed hfits (hone (decide_eq_true hfits))
  | inserted u _ => exact h.replace (fun _ hb => hb) fun _ hs => hs
  | committed u => exact h.committed _ _
  | sharePassed u hcap =>
    refine { h with fits := fun t ht v hv => ?_ }
    rcases mem_cons.mp ht with rfl | ht
    · obtain rfl : u = v := by simpa [UploadTask.screenshot?] using hv
      exact hcap
    · exact h.fits t (mem_cons_of_mem _ ht) v hv
  | shot u hfind => exact h.shot (hnone (by simp [UploadTask.storesImage, hfind])) _ rfl
  | images _ images ht hk =>
    have hdone : CapsInv cfg db (.done :: others) :=
      h.replace (by simp [UploadTask.recordingBytes?]) (by simp [UploadTask.screenshot?])
    refine hdone.storeImages hk fun _ t' ht' => ?_
    rcases mem_cons.mp ht' with rfl | ht'
    · rfl
    · exact hnone ht t' ht'
  | purged id =>
    have hdone : CapsInv cfg db (.done :: others) :=
      h.replace (by simp [UploadTask.recordingBytes?]) (by simp [UploadTask.screenshot?])
    exact hdone.purge [id]

theorem capsInv_of_reachable (h : ((uploadMachine cfg).restrict (CapsUndisturbed cfg)).Reachable
    s) :
    CapsInv cfg s.db s.tasks := by
  refine uploads_induction (fun hp h => h.perm hp) ?_ (fun {db tasks t} ht h => ?_)
    (fun {s k t} ht _ hg h => h.next (hg t ht).1 (hg t ht).2 (CapsDb.next_outcome _ _ _))
    (fun h => h.replace (by simp [UploadTask.recordingBytes?]) (by simp [UploadTask.screenshot?]))
    (fun hk hg h => h.storeImages hk hg) (fun h => h.purge _) (fun h => { h with }) h
  · refine ⟨withinBut_of_le 1 (Nat.zero_le _), ?_, ?_, ⟨Nat.zero_le _, Nat.zero_le _⟩⟩ <;> simp
  · refine ⟨?_, fun t' ht' u hu => ?_, h.shots, h.room⟩
    · have hunder : underway (tasks ++ [t]) = underway tasks := by
        rw [underway, filterMap_append, filterMap_cons_none ht.recording, filterMap_nil,
          append_nil, underway]
      rw [hunder]
      exact h.recording
    · rcases mem_snoc.1 ht' with ht' | ht'
      · exact h.fits t' ht' u hu
      · simp [ht', ht.screenshot] at hu

/-- While at most one other segment is under way when one passes the cap, and no image is stored
while a screenshot is, the caps hold; no segment is stored twice in any run. -/
theorem storage_caps (cfg : CapsConfig) :
    (∀ s, ((uploadMachine cfg).restrict (CapsUndisturbed cfg)).Reachable s → CapsKept cfg s.db) ∧
      ∀ s, (uploadMachine cfg).Reachable s → (s.db.segments.map (·.key)).Nodup := by
  have honce : ∀ s, (uploadMachine cfg).Reachable s → (s.db.segments.map (·.key)).Nodup := fun s h =>
    (keysInv_of_reachable h).of_append_left
  refine ⟨fun s h => ?_, honce⟩
  have hinv := capsInv_of_reachable h
  refine ⟨?_, hinv.shots, hinv.room, honce s h.of_restrict⟩
  have hrows := withinBut_one.mp (hinv.recording.of_le (Multiset.le_add_right _ _))
  refine hrows.imp_right fun ⟨b, hb, hsum⟩ => ?_
  obtain ⟨r, hr, rfl⟩ := mem_map.mp (Multiset.mem_coe.mp hb)
  exact ⟨r, mem_of_mem_filter hr, (mem_filter.mp hr).2, hsum⟩

def smallCaps : CapsConfig where
  maxEvidenceItems := 2
  maxEvidenceBytes := 1000
  maxSessionBytes := 100
  maxScreenshotsPerEvent := 3

def noUploads : CapsState := ⟨⟨[], [], false, []⟩, []⟩

def cameraSegment (seq : Nat) : UploadTask := .findSegment ⟨⟨.camera, 1, seq⟩, 60, true⟩

def screenshotUpload (id : Nat) : UploadTask := .findEvidence ⟨id, 10, none, true⟩

/-- `n` uploads that arrive together and take their `m` statements in turns. -/
def inTurns (tasks : List UploadTask) (m : Nat) : List CapsAction :=
  tasks.map .arrive ++ (List.replicate m ((List.range tasks.length).map .advance)).flatten

/-- Two segments at once, and a screenshot after them. -/
def twoSegments : List CapsAction :=
  inTurns [cameraSegment 0, cameraSegment 1] 5 ++
  .arrive (screenshotUpload 7) :: List.replicate 7 (.advance 2)

theorem twoSegments_admits :
    ((uploadMachine smallCaps).restrict (CapsUndisturbed smallCaps)).Admits noUploads twoSegments := by
  decide +kernel

theorem storage_caps_two :
    CapsKept smallCaps ((uploadMachine smallCaps).run noUploads twoSegments).db ∧
      sessionRecordingBytes ((uploadMachine smallCaps).run noUploads twoSegments).db.rows = 120 :=
  ⟨(storage_caps smallCaps).1 _
    (.run (.init (M := (uploadMachine smallCaps).restrict (CapsUndisturbed smallCaps)) rfl)
      twoSegments_admits),
    by decide +kernel⟩

/-- Three segments at once store 180 bytes of 100, and two screenshots at once both go into the one
place of their share. -/
theorem storage_caps_overrun :
    (∃ s, (uploadMachine smallCaps).Reachable s ∧ (∀ r ∈ s.db.rows, r.byteSize = 60) ∧
      smallCaps.maxSessionBytes + 60 < sessionRecordingBytes s.db.rows) ∧
      ∃ s, (uploadMachine smallCaps).Reachable s ∧ ¬ ∀ u ∈ s.db.shots, u.InShare smallCaps := by
  have hsegments : (uploadMachine smallCaps).Admits noUploads
      (inTurns [cameraSegment 0, cameraSegment 1, cameraSegment 2] 4) := by decide +kernel
  have hshots : (uploadMachine smallCaps).Admits noUploads
      (inTurns [screenshotUpload 7, screenshotUpload 8] 6) := by decide +kernel
  exact ⟨⟨_, .run (.init rfl) hsegments, by decide +kernel⟩,
    ⟨_, .run (.init rfl) hshots, by decide +kernel⟩⟩

end SmartProctoring
