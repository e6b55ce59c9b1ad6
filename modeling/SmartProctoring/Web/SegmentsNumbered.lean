import SmartProctoring.Server.StorageCaps
import SmartProctoring.Web.ExamRecording

/-!
# The numbers of the segments

A segment counts while it may still be handed over, and for ever once it was.  `Numbered`: the
segments of a stream that count have numbers in the order in which they began, below the next number
of the recorder that is running; and the page's counter is above those that were handed over.  Every
step keeps it, as long as the recorders that are made find the stream `fresh`.
-/

set_option autoImplicit false

namespace SmartProctoring

open List

def Segment.Counts (s : Segment) : Prop := s.done = false ∨ s.chunks ≠ []

/-- Not both of one stream and running. -/
def SegmentedRecorder.Apart (a b : SegmentedRecorder) : Prop :=
  a.running = true → b.running = true → a.stream ≠ b.stream

theorem SegmentedRecorder.Apart.symm {a b : SegmentedRecorder} (h : a.Apart b) : b.Apart a :=
  fun hb ha hab => h ha hb hab.symm

namespace Recorders

structure Numbered (m : Recorders) : Prop where
  handed : ∀ s ∈ m.segments, s.done = true → s.chunks ≠ [] → s.seq < m.sequence s.stream
  increasing : ∀ (i j : Nat) (a b : Segment), i < j → m.segments[i]? = some a →
    m.segments[j]? = some b → a.Counts → b.Counts → a.stream = b.stream → a.seq < b.seq
  running : ∀ rec ∈ m.recorders, rec.running = true → ∀ s ∈ m.segments,
    s.Counts → s.stream = rec.stream → s.seq < rec.nextSeq
  single : m.recorders.Pairwise SegmentedRecorder.Apart
  queued : ∀ q ∈ m.queued, ∃ s, m.segments[q.segment]? = some s ∧ s.done = true ∧ s.chunks ≠ [] ∧
    s.stream = q.stream ∧ s.seq = q.seq
  once : m.queued.Pairwise fun a b => a.segment ≠ b.segment

/-- Nothing of the stream is being recorded, and what was asked to stop and has not stopped yet has
a number below the page's counter. -/
def fresh (m : Recorders) (stream : RecordingStream) : Prop :=
  (∀ rec ∈ m.recorders, rec.stream = stream → rec.running = false) ∧
    ∀ s ∈ m.segments, s.stream = stream → s.done = false → s.seq < m.sequence stream

variable {m : Recorders} {r k : Nat} {rec : SegmentedRecorder} {s : Segment}

theorem numbered_nil (sequence : RecordingStream → Nat) : Numbered ⟨sequence, [], [], []⟩ := by
  constructor <;> simp

theorem Numbered.lt_sequence {stream : RecordingStream} (h : m.Numbered) (hf : m.fresh stream)
    (hs : s ∈ m.segments) (hc : s.Counts) (hst : s.stream = stream) :
    s.seq < m.sequence stream := by
  subst hst
  cases hd : s.done with
  | false => exact hf.2 s hs rfl hd
  | true =>
    rcases hc with hc | hc
    · rw [hd] at hc
      cases hc
    · exact h.handed s hs hd hc

theorem Numbered.distinct (h : m.Numbered) :
    m.queued.Pairwise fun a b => a.stream = b.stream → a.seq ≠ b.seq := by
  refine h.once.imp_of_mem ?_
  intro a b ha hb hab hst
  obtain ⟨s, hs, -, hsc, hsst, hsseq⟩ := h.queued a ha
  obtain ⟨t, ht, -, htc, htst, htseq⟩ := h.queued b hb
  have hst' : s.stream = t.stream := by rw [hsst, htst, hst]
  rcases Nat.lt_or_gt_of_ne hab with hlt | hlt
  · have := h.increasing _ _ s t hlt hs ht (.inr hsc) (.inr htc) hst'
    omega
  · have := h.increasing _ _ t s hlt ht hs (.inr htc) (.inr hsc) hst'.symm
    omega

/-! ## The counters -/

theorem le_advance (stream : RecordingStream) (next : Nat) (stream' : RecordingStream) :
    m.sequence stream' ≤ (m.advance stream next).sequence stream' := by
  unfold advance
  dsimp only
  rw [Function.update_apply]
  split
  next h =>
    subst h
    exact le_max_left _ _
  next => exact le_rfl

section

variable (h : m.Numbered)
include h

theorem Numbered.advance (stream : RecordingStream) (next : Nat) :
    (m.advance stream next).Numbered where
  __ := h
  handed s hs hd hc := (h.handed s hs hd hc).trans_le (le_advance stream next s.stream)

/-! ## One segment -/

theorem Numbered.modify {f : Segment → Segment}
    (hkept : ∀ s, (f s).stream = s.stream ∧ (f s).seq = s.seq)
    (hcounts : ∀ s, m.segments[k]? = some s → (f s).Counts → s.Counts)
    (hhanded : ∀ s, m.segments[k]? = some s → (f s).done = true → (f s).chunks ≠ [] →
      s.seq < m.sequence s.stream)
    (hdone : ∀ s, m.segments[k]? = some s → s.done = true → s.chunks ≠ [] →
      (f s).done = true ∧ (f s).chunks ≠ []) :
    Numbered { m with segments := m.segments.modify k f } := by
  have hold : ∀ (i : Nat) (a : Segment), (m.segments.modify k f)[i]? = some a → ∃ b,
      m.segments[i]? = some b ∧ a.stream = b.stream ∧ a.seq = b.seq ∧ (a.Counts → b.Counts) := by
    intro i a ha
    obtain ⟨b, hb, rfl | ⟨rfl, rfl⟩⟩ := List.getElem?_modify_cases ha
    · exact ⟨a, hb, rfl, rfl, id⟩
    · exact ⟨b, hb, (hkept b).1, (hkept b).2, hcounts b hb⟩
  have hmem : ∀ a ∈ m.segments.modify k f, ∃ i : Nat, (m.segments.modify k f)[i]? = some a :=
    fun a ha => mem_iff_getElem?.1 ha
  constructor
  · intro a ha hd hc
    obtain ⟨i, hi⟩ := hmem a ha
    obtain ⟨b, hb, rfl | ⟨rfl, rfl⟩⟩ := List.getElem?_modify_cases hi
    · exact h.handed a (mem_of_getElem? hb) hd hc
    · rw [(hkept b).1, (hkept b).2]
      exact hhanded b hb hd hc
  · intro i j a b hij ha hb hac hbc hst
    obtain ⟨a', ha', hast, haseq, hac'⟩ := hold i a ha
    obtain ⟨b', hb', hbst, hbseq, hbc'⟩ := hold j b hb
    rw [haseq, hbseq]
    exact h.increasing i j a' b' hij ha' hb' (hac' hac) (hbc' hbc) (by rw [← hast, ← hbst, hst])
  · intro rec hrec hrun a ha hac hst
    obtain ⟨i, hi⟩ := hmem a ha
    obtain ⟨b, hb, hbst, hbseq, hbc⟩ := hold i a hi
    rw [hbseq]
    exact h.running rec hrec hrun b (mem_of_getElem? hb) (hbc hac) (by rw [← hbst, hst])
  · exact h.single
  · intro q hq
    obtain ⟨s, hs, hd, hc, hst, hseq⟩ := h.queued q hq
    by_cases hk : q.segment = k
    · subst hk
      refine ⟨f s, by rw [List.getElem?_modify, hs]; simp, (hdone s hs hd hc).1, (hdone s hs hd hc).2, ?_, ?_⟩
      · rw [(hkept s).1, hst]
      · rw [(hkept s).2, hseq]
    · refine ⟨s, ?_, hd, hc, hst, hseq⟩
      rw [List.getElem?_modify, hs]
      simp [Ne.symm hk]
  · exact h.once

theorem Numbered.finish (k : Nat) : (m.finish k).Numbered :=
  h.modify (fun _ => ⟨rfl, rfl⟩) (fun _ _ hc => hc)
    (fun s hs hd hc => h.handed s (mem_of_getElem? hs) hd hc) (fun _ _ hd hc => ⟨hd, hc⟩)

theorem Numbered.wait (k : Nat) : (m.wait k).Numbered :=
  h.modify (fun _ => ⟨rfl, rfl⟩) (fun _ _ hc => hc)
    (fun s hs hd hc => h.handed s (mem_of_getElem? hs) hd hc) (fun _ _ hd hc => ⟨hd, hc⟩)

theorem Numbered.data (hk : ∃ s ∈ m.segments[k]?, s.done = false) (size : Nat) :
    (m.data k size).Numbered := by
  obtain ⟨s, hs, hd⟩ := hk
  unfold Recorders.data
  split
  · have hopen : ∀ t, m.segments[k]? = some t → t.done = false := by
      intro t ht
      obtain rfl : s = t := Option.some.inj (hs.symm.trans ht)
      exact hd
    refine h.modify (fun _ => ⟨rfl, rfl⟩) (fun t ht _ => .inl (hopen t ht)) ?_ ?_
    · intro t ht htd _
      rw [hopen t ht] at htd
      cases htd
    · intro t ht htd _
      rw [hopen t ht] at htd
      cases htd
  · exact h

/-! ## One recorder -/

theorem Numbered.setRecorder (hr : m.recorders[r]? = some rec) {rec' : SegmentedRecorder}
    (hrun : rec'.running = false) : Numbered { m with recorders := m.recorders.set r rec' } where
  __ := h
  running rec₁ hrec₁ hrun₁ := by
    rcases mem_set_cases hr hrec₁ with rfl | hrec₁
    · rw [hrun] at hrun₁
      cases hrun₁
    · exact h.running rec₁ (mem_of_mem_eraseIdx hrec₁) hrun₁
  single := by
    rw [(set_perm_eraseIdx hr rec').pairwise_iff (fun h => h.symm), pairwise_cons]
    refine ⟨fun _ _ hrun' => ?_, h.single.sublist (eraseIdx_sublist _ _)⟩
    rw [hrun] at hrun'
    cases hrun'

theorem Numbered.halt (r : Nat) : (m.halt r).Numbered := by
  unfold Recorders.halt
  split
  next rec hr =>
    have h' : Numbered { m with recorders := m.recorders.set r { rec with running := false, current := none } } :=
      h.setRecorder hr rfl
    split
    · exact h'.finish _
    · exact h'
  next => exact h

end

theorem Numbered.begin {old : SegmentedRecorder} (h : m.Numbered) (hr : m.recorders[r]? = some old)
    (hseq : ∀ s ∈ m.segments, s.Counts → s.stream = rec.stream → s.seq < rec.nextSeq)
    (hone : ∀ rec' ∈ m.recorders.eraseIdx r, rec'.running = true → rec'.stream ≠ rec.stream) :
    (m.begin r rec).Numbered := by
  unfold Recorders.begin
  constructor
  · intro s hs hd hc
    rcases mem_append.1 hs with hs | hs
    · exact h.handed s hs hd hc
    · rw [mem_singleton.1 hs] at hd
      cases hd
  · intro i j a b hij ha hb hac hbc hst
    have hj : j < (m.segments ++ [(⟨r, rec.stream, rec.nextSeq, [], false, false, false⟩ : Segment)]).length :=
      (List.getElem?_eq_some_iff.1 hb).1
    rw [length_append, length_singleton] at hj
    have hi : i < m.segments.length := by omega
    rw [List.getElem?_append_left hi] at ha
    rcases Nat.lt_or_ge j m.segments.length with hj' | hj'
    · rw [List.getElem?_append_left hj'] at hb
      exact h.increasing i j a b hij ha hb hac hbc hst
    · obtain rfl : j = m.segments.length := by omega
      rw [List.getElem?_concat_length, Option.some.injEq] at hb
      subst hb
      exact hseq a (mem_of_getElem? ha) hac hst
  · intro rec₁ hrec₁ hrun s hs hc hst
    rcases mem_set_cases hr hrec₁ with rfl | hrec₁
    · rcases mem_snoc.1 hs with hs | rfl
      · exact (hseq s hs hc hst).trans (Nat.lt_succ_self _)
      · exact Nat.lt_succ_self _
    · rcases mem_append.1 hs with hs | hs
      · exact h.running rec₁ (mem_of_mem_eraseIdx hrec₁) hrun s hs hc hst
      · rw [mem_singleton.1 hs] at hst
        exact absurd hst.symm (hone rec₁ hrec₁ hrun)
  · rw [(set_perm_eraseIdx hr _).pairwise_iff (fun h => h.symm), pairwise_cons]
    refine ⟨fun rec₁ hrec₁ _ hrun hst => hone rec₁ hrec₁ hrun hst.symm, ?_⟩
    exact h.single.sublist (eraseIdx_sublist _ _)
  · intro q hq
    obtain ⟨s, hs, hrest⟩ := h.queued q hq
    refine ⟨s, ?_, hrest⟩
    rwa [List.getElem?_append_left (List.getElem?_eq_some_iff.1 hs).1]
  · exact h.once

theorem Numbered.construct (h : m.Numbered) (stream : RecordingStream) (run : Nat) :
    (m.construct stream run).Numbered where
  __ := h
  running rec hrec hrun := by
    rcases mem_append.1 hrec with hrec | hrec
    · exact h.running rec hrec hrun
    · rw [mem_singleton.1 hrec] at hrun
      cases hrun
  single := by
    refine pairwise_append.2 ⟨h.single, pairwise_singleton _ _, ?_⟩
    intro a _ b hb _ hrun
    rw [mem_singleton.1 hb] at hrun
    cases hrun

theorem Numbered.start_construct {stream : RecordingStream} {run : Nat} {begins : Bool}
    (h : m.Numbered) (hf : begins = true → m.fresh stream) :
    ((m.construct stream run).start m.recorders.length begins).Numbered := by
  have h' := h.construct stream run
  have hr : (m.construct stream run).recorders[m.recorders.length]? =
      some ⟨stream, run, m.sequence stream, false, none⟩ := List.getElem?_concat_length
  rw [Recorders.start, hr]
  cases begins with
  | false => exact h'
  | true =>
    refine h'.begin hr (fun s hs hc hst => h.lt_sequence (hf rfl) hs hc hst) ?_
    intro rec hrec hrun hst
    have hmem : rec ∈ m.recorders := by
      have herase : (m.construct stream run).recorders.eraseIdx m.recorders.length = m.recorders := by
        simp [Recorders.construct, eraseIdx_append_of_length_le]
      rwa [herase] at hrec
    have := (hf rfl).1 rec hmem hst
    rw [this] at hrun
    cases hrun

theorem Numbered.rotate (h : m.Numbered) (r : Nat) (begins : Bool) :
    (m.rotate r begins).Numbered := by
  unfold Recorders.rotate
  split
  next rec hr =>
    split
    next old hcur =>
      split
      next => exact h
      next hrun =>
        split
        · have hrun' : rec.running = true := by simpa using hrun
          refine (h.begin hr (h.running rec (mem_of_getElem? hr) hrun') ?_).finish old
          intro rec₁ hrec₁ hrun₁
          have hsingle := ((perm_eraseIdx_of_getElem? hr).pairwise_iff
            (fun h => SegmentedRecorder.Apart.symm h)).1 h.single
          exact ((pairwise_cons.1 hsingle).1 rec₁ hrec₁).symm hrun₁ hrun'
        · exact h.halt r
    next => exact h
  next => exact h

theorem Numbered.fail (h : m.Numbered) (k : Nat) : (m.fail k).Numbered := by
  unfold Recorders.fail
  split
  · split
    · exact h.halt _
    · exact h
  · exact h

theorem Numbered.onstop (h : m.Numbered) (hk : ∃ s ∈ m.segments[k]?, s.done = false)
    (durationMs : Nat) : (m.onstop k durationMs).Numbered := by
  obtain ⟨s, hs, hd⟩ := hk
  have hthe : ∀ t, m.segments[k]? = some t → t = s := fun t ht => Option.some.inj (ht.symm.trans hs)
  rw [Recorders.onstop, hs]
  dsimp only
  split
  next hc =>
    refine h.modify (fun _ => ⟨rfl, rfl⟩) ?_ ?_ (fun _ _ _ hc => ⟨rfl, hc⟩)
    · intro t ht _
      exact .inl (by rw [hthe t ht, hd])
    · intro t ht _ htc
      rw [hthe t ht] at htc
      exact absurd hc htc
  next hc =>
    have hlt : s.seq < (m.advance s.stream (s.seq + 1)).sequence s.stream := by
      simp only [Recorders.advance, Function.update_self]
      omega
    have h' := (h.advance s.stream (s.seq + 1)).modify (k := k) (f := fun s => { s with done := true })
      (fun _ => ⟨rfl, rfl⟩) (fun t ht _ => .inl (by rw [hthe t ht, hd]))
      (fun t ht _ _ => by rwa [hthe t ht]) (fun _ _ _ hc => ⟨rfl, hc⟩)
    refine { h' with queued := ?_, once := ?_ }
    · intro q hq
      rcases mem_snoc.1 hq with hq | rfl
      · exact h'.queued q hq
      · refine ⟨{ s with done := true }, ?_, rfl, hc, rfl, rfl⟩
        show (m.segments.modify k _)[k]? = _
        rw [List.getElem?_modify, hs]
        simp
    · refine pairwise_append.2 ⟨h.once, pairwise_singleton _ _, ?_⟩
      intro a ha b hb hab
      rw [mem_singleton.1 hb] at hab
      obtain ⟨t, ht, htd, -⟩ := h.queued a ha
      rw [hab] at ht
      rw [hthe t ht, hd] at htd
      cases htd

end Recorders

/-! ## The steps of the page -/

namespace RecordingPage

/-- `startScreen` does not wait for a recorder. -/
def sharesNow (e : ExamRecording) : Bool :=
  (e.recs .screen).isNone && !e.stopped && !e.gaveUp .screen

def beginsShare (p : RecordingPage) (e : ExamRecording) : Bool := e.sees p.screen && sharesNow e

/-- The stream for which a step makes a recorder that begins a segment. -/
def begins (p : RecordingPage) (a : RecordingAction) : Option RecordingStream :=
  let share (n : Nat) (o : RecorderOutcome) (c : ExamRecording → Bool) : Option RecordingStream :=
    if o.begins && p.runs[n]?.any c then some .screen else none
  match a with
  | .start n o => share n o fun e => e.plan.screen && beginsShare p e
  | .micSettled n o => share n o fun e => e.plan.screen && beginsShare p e
  | .onScreen n o => share n o (beginsShare p)
  | .screenResumes n _ o => share n o fun e => !e.stopped && !e.gaveUp .screen
  | .retry n .screen o => share n o sharesNow
  | .videoReady _ o => if o.begins then some .camera else none
  | _ => none

/-- The recorders that a step makes find their stream fresh. -/
def Fresh (a : RecordingAction) (p : RecordingPage) : Prop :=
  ∀ stream ∈ p.begins a, p.media.fresh stream

variable {p : RecordingPage} {n : Nat} {e : ExamRecording} {o : RecorderOutcome}

section

variable (h : p.media.Numbered)
include h

theorem numbered_onRecorderError (n : Nat) (stream : RecordingStream) (ended : Bool) :
    (p.onRecorderError n stream ended).media.Numbered := by
  unfold onRecorderError
  split
  next e _ =>
    split
    · exact h
    · cases e.recs stream with
      | some r =>
        have h' := h.advance stream (p.media.nextSequence r)
        dsimp only
        split
        · exact h'
        · split
          · exact h'
          · exact h'
      | none =>
        dsimp only
        split
        · exact h
        · split
          · exact h
          · exact h
  next => exact h

theorem numbered_record {stream : RecordingStream}
    (hf : o.begins = true → p.media.fresh stream) : (p.record n e stream o).media.Numbered := by
  have h' := @Recorders.Numbered.start_construct _ stream n _ h hf
  unfold record
  split
  · exact h'
  · exact numbered_onRecorderError h' n stream o.ended

theorem numbered_screenFree
    (hf : o.begins = true → e.stopped = false → e.gaveUp .screen = false → p.media.fresh .screen) :
    (p.screenFree n e o).media.Numbered := by
  unfold screenFree
  split
  next => exact h
  next hc =>
    simp only [Bool.or_eq_true, not_or, Bool.not_eq_true] at hc
    exact numbered_record h fun hb => hf hb hc.1 hc.2

theorem numbered_startScreen (hf : o.begins = true → sharesNow e = true → p.media.fresh .screen) :
    (p.startScreen n e o).media.Numbered := by
  unfold startScreen
  split
  next old _ => exact h.halt old
  next hnone =>
    refine numbered_screenFree h fun hb hst hg => hf hb ?_
    simp [sharesNow, hnone, hst, hg]

theorem numbered_onScreen (hf : o.begins = true → beginsShare p e = true → p.media.fresh .screen) :
    (p.onScreen n e o).media.Numbered := by
  unfold onScreen
  split
  · exact h
  · split
    next hsees =>
      refine numbered_startScreen h fun hb hs => hf hb ?_
      rw [beginsShare, hsees]
      exact hs
    next =>
      split
      · split
        · exact h.halt _
        · exact h
      · exact h

theorem numbered_cameraFree : (p.cameraFree n e).media.Numbered := by
  unfold cameraFree
  split <;> exact h

theorem numbered_chainNext : (p.chainNext n e).media.Numbered := by
  unfold chainNext
  split
  · unfold startCamera
    split
    · exact h
    · split
      · exact h.halt _
      · exact numbered_cameraFree h
  · exact h.halt _
  · exact h

end

theorem onCamera_sees (e : ExamRecording) (s : CameraSnapshot) :
    (e.onCamera s).plan = e.plan ∧ (e.onCamera s).screenGen = e.screenGen ∧
      (e.onCamera s).recs .screen = e.recs .screen ∧
      (e.onCamera s).stopped = e.stopped ∧ (e.onCamera s).gaveUp = e.gaveUp := by
  unfold ExamRecording.onCamera
  split
  · exact ⟨rfl, rfl, rfl, rfl, rfl⟩
  · split
    · exact ⟨rfl, rfl, rfl, rfl, rfl⟩
    · split
      · split
        · exact ⟨rfl, rfl, rfl, rfl, rfl⟩
        · exact ⟨rfl, rfl, rfl, rfl, rfl⟩
      · exact ⟨rfl, rfl, rfl, rfl, rfl⟩

theorem numbered_begun (h : p.media.Numbered)
    (hf : o.begins = true → e.plan.screen = true → beginsShare p e = true → p.media.fresh .screen) :
    (p.begun n e o).media.Numbered := by
  unfold begun
  split
  · exact h
  · have hkept : ∀ e' : ExamRecording, e'.plan = e.plan → e'.screenGen = e.screenGen →
        e'.recs .screen = e.recs .screen → e'.stopped = e.stopped → e'.gaveUp = e.gaveUp →
        Recorders.Numbered (if e'.plan.screen = true then
          p.onScreen n { e' with subscribed := Function.update e'.subscribed .screen true } o
        else p.set n e').media := by
      intro e' hplan hgen hrec hst hgave
      split
      next hs =>
        refine numbered_onScreen h fun hb hbs => hf hb (by rw [← hplan, hs]) ?_
        rw [← hbs]
        simp only [beginsShare, ExamRecording.sees, sharesNow, hgen, hrec, hst, hgave]
      next => exact h
    cases hcam : e.plan.camera with
    | true =>
      obtain ⟨hplan, hgen, hrec, hst, hgave⟩ :=
        onCamera_sees { e with subscribed := Function.update e.subscribed .camera true } p.camera
      exact hkept _ hplan hgen hrec hst hgave
    | false => exact hkept e rfl rfl rfl rfl rfl

theorem numbered_fail (h : p.media.Numbered) (k : Nat) (o : RecorderOutcome) :
    (p.fail k o).media.Numbered := by
  unfold fail
  split
  · split
    · split
      · exact numbered_onRecorderError (h.fail k) _ _ _
      · exact h
    · exact h
  · exact h

theorem healthy_media (p : RecordingPage) (k durationMs : Nat) :
    (p.healthy k durationMs).media = p.media := by
  unfold healthy
  split
  · split
    · split
      · split <;> rfl
      · rfl
    · rfl
  · rfl

theorem numbered_onstop (h : p.media.Numbered) {k : Nat}
    (hk : ∃ s ∈ p.media.segments[k]?, s.done = false)
    (durationMs : Nat) (o : RecorderOutcome) : (p.onstop k durationMs o).media.Numbered := by
  have h' : ((p.healthy k durationMs).media.onstop k durationMs).Numbered := by
    rw [healthy_media]
    exact h.onstop hk durationMs
  unfold onstop
  dsimp only
  split
  · exact numbered_fail h' k o
  · exact h'

theorem numbered_withRun {f : ExamRecording → RecordingPage} (h : p.media.Numbered)
    (hf : ∀ e, p.runs[n]? = some e → (f e).media.Numbered) : (p.withRun n f).media.Numbered := by
  unfold withRun
  split
  next e he => exact hf e he
  next => exact h

theorem fresh_of_share {c : ExamRecording → Bool} (he : p.runs[n]? = some e)
    (hf : ∀ stream ∈ (if o.begins && p.runs[n]?.any c then some RecordingStream.screen else none),
      p.media.fresh stream) (hb : o.begins = true) (hc : c e = true) : p.media.fresh .screen :=
  hf .screen (by simp [he, hb, hc])

/-- One step keeps the numbers apart. -/
theorem Numbered.step (h : p.media.Numbered) (a : RecordingAction) (ha : enabled a p)
    (hf : Fresh a p) : (step a p).media.Numbered := by
  cases a with
  | camera | screen | construct => exact h
  | start n o =>
    refine numbered_withRun h fun e he => ?_
    unfold start
    split
    · exact h
    · dsimp only
      split
      · exact h
      · split
        · exact h
        · refine numbered_begun h fun hb hs hbs => fresh_of_share he hf hb ?_
          rw [hs]
          exact hbs
  | micOpened =>
    refine numbered_withRun h fun e _ => ?_
    unfold micOpened
    split <;> exact h
  | micSettled n o =>
    refine numbered_withRun h fun e he => ?_
    unfold micSettled
    split
    · refine numbered_begun h fun hb hs hbs => fresh_of_share he hf hb ?_
      rw [hs]
      exact hbs
    · exact h
  | micEnded =>
    refine numbered_withRun h fun e _ => ?_
    unfold micEnded
    split <;> exact h
  | onCamera => exact numbered_withRun h fun _ _ => h
  | onScreen n o => exact numbered_withRun h fun e he => numbered_onScreen h (fresh_of_share he hf)
  | chainNext => exact numbered_withRun h fun _ _ => numbered_chainNext h
  | chainResumes =>
    refine numbered_withRun h fun e _ => ?_
    unfold chainResumes
    split
    · exact numbered_cameraFree h
    · exact h
    · exact h
  | videoReady n o =>
    refine numbered_withRun h fun e _ => ?_
    unfold videoReady
    split
    · exact h
    · split
      · exact h
      · exact numbered_record h fun hb => hf .camera (by simp [begins, hb])
  | screenResumes n i o =>
    refine numbered_withRun h fun e he => numbered_screenFree h fun hb hst hg => fresh_of_share he hf hb ?_
    have hst : e.stopped = false := hst
    have hg : e.gaveUp .screen = false := hg
    simp [hst, hg]
  | retry n stream o =>
    refine numbered_withRun h fun e he => ?_
    unfold retry
    split
    · exact h
    · dsimp only
      split
      · exact h
      · cases stream with
        | camera => exact h
        | screen =>
          dsimp only
          split
          · exact numbered_startScreen h fun hb hs => fresh_of_share he hf hb hs
          · exact h
  | stop =>
    refine numbered_withRun h fun e _ => ?_
    unfold stop
    split <;> exact h
  | stopResumes =>
    refine numbered_withRun h fun e _ => ?_
    unfold stopResumes
    split
    · dsimp only
      split
      · split
        · exact (h.halt _).halt _
        · exact h.halt _
      · split
        · exact h.halt _
        · exact h
    · exact h
  | rotate r o =>
    show (p.rotate r o).media.Numbered
    unfold rotate
    split
    · split
      · exact numbered_onRecorderError (h.rotate r o.begins) _ _ _
      · exact h.rotate r o.begins
    · exact h
  | data k size => exact h.data ha size
  | stopEvent k durationMs o => exact numbered_onstop h ha durationMs o
  | errorEvent k o => exact numbered_fail h k o
  | wait k => exact h.wait k

theorem Numbered.reachable (h : (machine.restrict Fresh).Reachable p) : p.media.Numbered :=
  h.invariant (I := fun p => p.media.Numbered)
    (fun p h => by
      have hmedia : p.media = ⟨fun _ => 0, [], [], []⟩ := h.2
      rw [hmedia]
      exact Recorders.numbered_nil _)
    fun _ a _ ⟨ha, hf⟩ hinv => Numbered.step hinv a ha hf

end RecordingPage

end SmartProctoring
