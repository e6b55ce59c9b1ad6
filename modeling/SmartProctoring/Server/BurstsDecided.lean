import SmartProctoring.Server.BurstsOnce

/-!
# Every burst is decided or dropped

The sweeper decides what is overdue, or drops it when there is nothing left to compare with; it
throws nothing while the exam is active.  With what every transaction keeps, this gives the fate of
each burst: it leaves `pendingBursts` decided or dropped, and stays so (`bursts_decided_once`).
-/

set_option autoImplicit false

namespace SmartProctoring

open SessionMutation
open List

variable {m : SessionMutation} {κ ε : Type} {env : SampleEnv κ ε} {row : IdentityCheck}
variable {t : SampleMutation κ ε}

/-! ## Deciding throws nothing -/

theorem returns_confirmMismatch {startedAt : Int} (hs : ¬ m.custody.status.isTerminal) :
    (confirmMismatch m startedAt).Returns := by
  rw [confirmMismatch]
  generalize hn : SessionMutation.setIdentityState _ _ = n
  have hquiet : n.custody = m.custody := by
    rw [← hn]
    exact custody_setIdentityState_quiet _ _ rfl rfl
  have hstatus : ¬ n.session.status.isTerminal := by
    rw [show n.session.status = m.custody.status from congrArg Custody.status hquiet]
    exact hs
  refine .ite (fun _ => ?_) fun _ => .pure _
  have hheld : holdNow n { reason := .identityMismatch, source := .serverIdentity } = .ok _ :=
    holdNow_eq_ok.2 ⟨hstatus, rfl⟩
  rw [hheld]
  exact .pure _

theorem returns_judgeSwap {res : AccumulateResult} (hs : ¬ m.custody.status.isTerminal) :
    (judgeSwap m env row res).Returns := by
  rw [judgeSwap]
  split
  · refine .ite (fun _ => ?_) fun _ => .ok _
    split
    · exact returns_confirmMismatch hs
    · exact .ok _
    · exact .ok _
    · exact .ok _
  · exact .ite (fun _ => .ok _) fun _ => .ok _

theorem returns_applyEvidence {fe : FrameEvidence} (hs : ¬ m.custody.status.isTerminal) :
    (applyEvidence m env row fe).Returns := by
  rw [applyEvidence]
  have hfed : (noteFeed (noteSampleReceived m row) row).custody = m.custody :=
    custody_noteFeed.trans custody_noteSampleReceived
  generalize noteFeed (noteSampleReceived m row) row = n at hfed ⊢
  have hadd : (addEvidence n row fe).1.custody.status = m.custody.status := by
    rw [← hfed]
    rfl
  generalize addEvidence n row fe = r at hadd ⊢
  have husable : (noteUsable r.1 row fe r.2.acc).custody.status = m.custody.status :=
    (congrArg Custody.status custody_noteUsable).trans hadd
  have hswap : (judgeSwap (noteUsable r.1 row fe r.2.acc) env row r.2).Returns :=
    returns_judgeSwap (husable ▸ hs)
  have htrue : (judgeSwap (noteUsable r.1 row fe r.2.acc) env row r.2).Yields fun _ => True :=
    fun _ _ => trivial
  exact hswap.bind htrue fun _ _ => .ite (fun _ => .pure _) fun _ => .pure _

theorem returns_decideBurst {pending : PendingBurst} {completing : Option FrameId}
    {recordOnly : Bool} (hs : ¬ t.m.custody.status.isTerminal) :
    (decideBurst t env pending completing recordOnly).Returns := by
  have hdecided : (decideSample (t.unpend pending.id) env
      (burstInput t env pending completing recordOnly)).Returns := by
    refine .ite (fun _ => .pure _) fun _ => ?_
    have happly : (applyEvidence (t.unpend pending.id).m env
        (decidedRow (t.unpend pending.id) env (burstInput t env pending completing recordOnly))
        (sampleEvidence env (burstInput t env pending completing recordOnly)
          (t.unpend pending.id).m.session.identityState).1).Returns := returns_applyEvidence hs
    exact happly.bind (P := fun _ => True) (fun _ _ => trivial) fun _ _ => .pure _
  exact hdecided.bind (P := fun _ => True) (fun _ _ => trivial) fun _ _ => .pure _

theorem returns_decideStaleBursts (except : Option BurstId) :
    (decideStaleBursts t env except).Returns := by
  refine .foldlM _ (fun t b _ => .ite (fun _ => .ok _) fun hs => .map (returns_decideBurst ?_) _) t
  rw [show t.m.custody.status = .active from not_not.1 hs]
  decide

/-! ## The sweeper -/

/-- The burst is overdue for a sweep. -/
def Overdue (t : SampleMutation κ ε) (r : SampleTransaction κ ε) (b : BurstId) : Prop :=
  ∃ p ∈ t.m.session.identityState.pendingBursts, p.id = b ∧
    ∃ sweptAt env, r.op = .sweep sweptAt env ∧ sweptAt ≤ r.now ∧
      BURST_TIMEOUT_MS ≤ sweptAt - p.firstReceivedAt

theorem sweepBursts_removes (h : t.Ok) {p : PendingBurst}
    (hp : p ∈ t.m.session.identityState.pendingBursts) {sweptAt : Int} (hnow : sweptAt ≤ t.m.now)
    (hdue : BURST_TIMEOUT_MS ≤ sweptAt - p.firstReceivedAt) (env : Option (SampleEnv κ ε)) :
    ∃ t', sweepBursts t sweptAt env = .ok t' ∧ p.id ∉ t'.m.custody.pendingIds := by
  have hpending : p.id ∈ t.m.custody.pendingIds := mem_map_of_mem hp
  have hs : t.m.session.status = .active := by
    by_contra hs
    rw [Custody.pendingIds, h.collecting.inactive hs] at hpending
    cases hpending
  have hany : (t.m.session.identityState.pendingBursts.any fun b =>
      decide (BURST_TIMEOUT_MS ≤ sweptAt - b.firstReceivedAt)) = true :=
    any_eq_true.2 ⟨p, hp, decide_eq_true hdue⟩
  rw [sweepBursts.eq_def]
  rw [hany, if_neg (by simp [hs])]
  cases env with
  | none => exact ⟨_, rfl, not_mem_nil⟩
  | some env =>
    obtain ⟨t', ht'⟩ : (decideStaleBursts t env none).Returns := returns_decideStaleBursts none
    refine ⟨t', ht', fun hmem => ?_⟩
    have hstale := decideStaleBursts_ok h none t' ht'
    have hactive : t'.m.session.status = .active := by
      by_contra hs'
      rw [Custody.pendingIds, hstale.ok.collecting.inactive hs'] at hmem
      cases hmem
    rw [Custody.pendingIds, (hstale.pending hactive).2, mem_map] at hmem
    obtain ⟨p', hp', hid⟩ := hmem
    have hold : p ∈ staleBursts t none := by
      refine mem_filter.2 ⟨hp, ?_⟩
      have hdue' : BURST_TIMEOUT_MS ≤ t.m.now - p.firstReceivedAt := by omega
      simp [hdue']
    have hno := of_decide_eq_true (mem_filter.1 hp').2
    exact hno (hid ▸ mem_map_of_mem hold)

theorem sampleStep_overdue (h : t.Kept) {r : SampleTransaction κ ε} {b : BurstId}
    (hb : Overdue t r b) : b ∉ (sampleStep r t).m.custody.pendingIds := by
  obtain ⟨p, hp, rfl, sweptAt, env, hop, hnow, hdue⟩ := hb
  obtain ⟨hok, -, -⟩ := h.lock r
  obtain ⟨t', ht', hgone⟩ := sweepBursts_removes hok (p := p) hp hnow hdue env
  rw [sampleStep]
  have hrun : r.op.run (t.lock r) = .ok t' := by
    rw [hop]
    exact ht'
  rw [hrun]
  have hflush : ((t.lock r).m.flush t'.m).custody = t'.m.custody := custody_flush _ _
  show p.id ∉ ((t.lock r).m.flush t'.m).custody.pendingIds
  rw [hflush]
  exact hgone

/-! ## The fate of a burst -/

namespace SampleMutation

variable (t)

/-- One decision was made about the burst. -/
def Decided (b : BurstId) : Prop := t.Settled b ∧ ∃ k, t.decisions b = [k]

/-- Nothing of the burst was given to the evidence, and its embeddings are erased. -/
structure Dropped (b : BurstId) : Prop where
  settled : t.Settled b
  undecided : t.decisions b = []
  unused : ∀ f ∈ t.frames, f.burstId = b → f.sampleId ∉ t.contributedFrames
  erased : ∀ f ∈ t.frames, f.burstId = b → f.embedding = none

/-- Every sample, every frame and every burst counts at most once. -/
structure OnceEach : Prop where
  /-- Each sample id is stored once, as a frame or as a decided sample; when it is both, the frame
  completed its burst and the decided sample is that burst's. -/
  frames : (t.frames.map (·.sampleId)).Nodup
  checks : (t.identityChecks.map (·.sampleId)).Nodup
  completing : ∀ k ∈ t.identityChecks, ∀ f ∈ t.frames, k.sampleId = .frame f.sampleId →
    f.identityCheckId = some k.id ∧ k.burstId = some f.burstId
  /-- The evidence takes in each decided sample once, and each frame once. -/
  contributed : t.contributed.Nodup
  contributedFrames : t.contributedFrames.Nodup
  window : t.m.session.identityState.evidence.samples.Nodup
  windowContributed : t.m.session.identityState.evidence.samples ⊆ t.contributed
  decisions : ∀ b, (t.decisions b).length ≤ 1
  /-- Bursts are collected while the exam is active. -/
  inactive : t.m.session.status ≠ .active → t.m.session.identityState.pendingBursts = []
  embedded : ∀ f ∈ t.frames, f.embedding.isSome = true → f.burstId ∈ t.m.custody.pendingIds

end SampleMutation

open SampleMutation

theorem decisions_length (h : TablesOk t.frames t.identityChecks) (b : BurstId) :
    (t.decisions b).length ≤ 1 := by
  have hsub : ((t.decisions b).filterMap (·.burstId)).Sublist
      (t.identityChecks.filterMap (·.burstId)) := filter_sublist.filterMap _
  have hall : (t.decisions b).filterMap (·.burstId) = replicate (t.decisions b).length b := by
    rw [SampleMutation.decisions]
    induction t.identityChecks with
    | nil => rfl
    | cons k ks ih =>
      by_cases hk : k.burstId = some b
      · have hpos : decide (k.burstId = some b) = true := decide_eq_true hk
        rw [filter_cons, if_pos hpos, filterMap_cons_some hk, ih, length_cons,
          replicate_succ]
      · have hneg : ¬ decide (k.burstId = some b) = true := by simpa using hk
        rw [filter_cons, if_neg hneg]
        exact ih
  have hnodup := hsub.nodup h.once
  rw [hall] at hnodup
  exact nodup_replicate.1 hnodup

theorem SampleMutation.Kept.onceEach (h : t.Kept) : t.OnceEach := by
  have htables := h.ok.tables
  refine ⟨htables.frameIds, htables.keys, fun k hk f hf hkey => ?_, h.ok.evidence.nodup,
    h.ok.used.nodup, h.ok.evidence.window, h.ok.evidence.subset, decisions_length htables,
    h.ok.collecting.inactive, h.erased⟩
  have hown := htables.frameKey k hk f hf hkey
  refine ⟨hown, ?_⟩
  obtain ⟨k', hk', hid, hb⟩ := htables.decided f hf k.id hown
  have hids : (t.identityChecks.map (·.id)).Nodup := by
    rw [htables.ids]
    exact nodup_range.map fun _ _ heq => SampleId.mk.inj heq
  rwa [inj_on_of_nodup_map hids hk' hk hid] at hb

theorem SampleMutation.Kept.fate (h : t.Kept) {b : BurstId} (hb : t.Settled b) : Xor (t.Decided b)
    (t.Dropped b) := by
  have hone := decisions_length h.ok.tables b
  rcases hd : t.decisions b with _ | ⟨k, _ | ⟨k', ks⟩⟩
  · refine .inr ⟨⟨hb, hd, fun f hf hfb hused => ?_, fun f hf hfb => ?_⟩, ?_⟩
    · obtain ⟨g, hg, hid, hdec⟩ | ⟨hno, -⟩ := h.ok.used.decided f.sampleId hused
      · obtain rfl := inj_on_of_nodup_map h.ok.tables.frameIds hg hf hid
        obtain ⟨i, hi⟩ := Option.ne_none_iff_exists'.1 hdec
        obtain ⟨k, hk, -, hkb⟩ := h.ok.tables.decided g hg i hi
        have hmem : k ∈ t.decisions b :=
          mem_filter.2 ⟨hk, decide_eq_true (hkb.trans (congrArg some hfb))⟩
        rw [hd] at hmem
        cases hmem
      · exact hno (mem_map_of_mem hf)
    · by_contra hemb
      exact hb.2 (hfb ▸ h.erased f hf (Option.isSome_iff_ne_none.2 hemb))
    · rintro ⟨-, k, hk⟩
      rw [hd] at hk
      cases hk
  · refine .inl ⟨⟨hb, k, hd⟩, fun hdrop => ?_⟩
    rw [hdrop.undecided] at hd
    cases hd
  · rw [hd] at hone
    simp at hone

/-- **Identity bursts are decided exactly once.**  Every sample, frame and burst counts at most
once; a burst that is no longer collected was decided or dropped, not both; an overdue burst is
removed by the sweep; and a burst that is decided or dropped stays so, with the same decisions,
whatever follows. -/
theorem bursts_decided_once {t₀ : SampleMutation κ ε} {rs : List (SampleTransaction κ ε)}
    {r : SampleTransaction κ ε} (h0 : (sampling κ ε).init t₀)
    (h : (sampling κ ε).Admits t₀ (rs ++ [r])) :
    let t := (sampling κ ε).run t₀ rs
    let t' := sampleStep r t
    t'.OnceEach ∧
      (∀ b ∈ t.m.custody.pendingIds, b ∉ t'.m.custody.pendingIds →
        Xor (t'.Decided b) (t'.Dropped b)) ∧
      (∀ b, Overdue t r b → b ∉ t'.m.custody.pendingIds) ∧
      ∀ rs', (sampling κ ε).Admits t' rs' → ∀ b,
        (t'.Decided b → ((sampling κ ε).run t' rs').Decided b) ∧
        (t'.Dropped b → ((sampling κ ε).run t' rs').Dropped b) ∧
        (t'.Settled b → ((sampling κ ε).run t' rs').decisions b = t'.decisions b) := by
  intro t t'
  rw [Machine.admits_append] at h
  have ht : (sampling κ ε).Reachable t := (Machine.Reachable.init h0).run h.1
  have ht' : (sampling κ ε).Reachable t' := ht.step r h.2.1
  have hkept : t.Kept := kept ht
  have hlater : Later t t' := (sampleStep_kept hkept r).2
  refine ⟨(kept ht').onceEach, fun b hb hgone => ?_, fun b hb => sampleStep_overdue hkept hb,
    fun rs' hrs' b => ?_⟩
  · obtain ⟨f, hf, hfb⟩ := hkept.ok.collecting.known b hb
    obtain ⟨f', hf', -, hfb', -⟩ := hlater.frames f hf
    exact (kept ht').fate ⟨⟨f', hf', hfb'.trans hfb⟩, hgone⟩
  · have hlast := later_run ht' hrs'
    have hfinal := kept (ht'.run hrs')
    refine ⟨fun ⟨hset, k, hk⟩ => ?_, fun hdrop => ?_, fun hset => (hlast.settled b hset).2⟩
    · obtain ⟨hset', heq⟩ := hlast.settled b hset
      exact ⟨hset', k, heq.trans hk⟩
    · obtain ⟨hset', heq⟩ := hlast.settled b hdrop.settled
      refine (hfinal.fate hset').elim (fun hdec => ?_) And.left
      obtain ⟨-, k, hk⟩ := hdec.1
      rw [heq, hdrop.undecided] at hk
      cases hk

instance (r : SampleTransaction κ ε) (t : SampleMutation κ ε) :
    Decidable ((sampling κ ε).enabled r t) :=
  inferInstanceAs (Decidable (t.m.now ≤ r.now))

/-- Every image is a clear match. -/
def matching : SampleEnv Unit Unit where
  frameEvidence _ _ _ _ := ⟨true, some .good, -1⟩
  aggregateBurst _ _ _ := (⟨true, some .good, -1⟩, 0)
  sampleLabel _ _ := .match
  dhash _ := none

/-- One of three frames arrives, and the sweeper runs when it is overdue. -/
def abandonedBurst : List (SampleTransaction Unit Unit) :=
  ((startUp ⟨1⟩ {}).map fun r => ⟨r.now, r.examPolicy, .request r.op⟩) ++
    [⟨10000, {}, .sample matching ⟨1⟩
        { sampleId := ⟨1⟩, trigger := .periodic, capturedAt := some 10000, burstId := some ⟨7⟩,
          burstIndex := some 0, burstSize := some 3 } ⟨(), some ()⟩⟩]

/-- The burst is decided on that frame. -/
theorem bursts_decided_once_abandoned :
    let t₀ : SampleMutation Unit Unit := { m := createExamSession 0 {} ⟨60, by decide⟩ [] none }
    let r : SampleTransaction Unit Unit := ⟨14000, {}, .sweep 13500 (some matching)⟩
    let t := (sampling Unit Unit).run t₀ abandonedBurst
    t.m.custody.pendingIds = [⟨7⟩] ∧ (sampleStep r t).Decided ⟨7⟩ := by
  intro t₀ r t
  have hinit : (sampling Unit Unit).init t₀ :=
    ⟨_, ⟨0, {}, ⟨60, by decide⟩, [], none, rfl⟩, rfl⟩
  have hrun : (sampling Unit Unit).Admits t₀ (abandonedBurst ++ [r]) := by decide +kernel
  have hpending : t.m.custody.pendingIds = [⟨7⟩] := by decide +kernel
  obtain ⟨-, hfate, hoverdue, -⟩ := bursts_decided_once hinit hrun
  have hgone := hoverdue ⟨7⟩ ⟨⟨⟨7⟩, 3, .periodic, 10000, [0]⟩, by decide +kernel, rfl, 13500,
    some matching, rfl, by decide, by decide⟩
  refine ⟨hpending, (hfate ⟨7⟩ (hpending ▸ mem_singleton_self _) hgone).elim And.left ?_⟩
  rintro ⟨hdropped, -⟩
  exact absurd hdropped.undecided (by decide +kernel)

end SmartProctoring
