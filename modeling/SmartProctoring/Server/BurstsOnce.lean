import SmartProctoring.Server.Bursts

/-!
# Bursts are decided exactly once

A burst that is being collected leaves `pendingBursts` when it is decided or dropped, and in both
cases for good: a frame that still arrives belongs to a burst that is known, and is only recorded.
`SamplesOk` is what every transaction keeps, also halfway; `Later` is what it never takes back.
-/

set_option autoImplicit false

namespace SmartProctoring

open SessionMutation
open List

variable {κ ε : Type}

/-- The burst that a decided sample is the decision of. -/
def IdentityCheck.burstId (k : IdentityCheck) : Option BurstId := k.burst.map (·.id)

namespace Custody

def pendingIds (c : Custody) : List BurstId := c.pendingBursts.map (·.id)

/-- The embeddings of the burst's frames are erased when the transaction ends. -/
def Dooms (c : Custody) (b : BurstId) : Prop :=
  c.eraseAllUndecidedFrames = true ∨ b ∈ c.droppedBurstIds

def unpend (c : Custody) (b : BurstId) : Custody :=
  { c with pendingBursts := c.pendingBursts.filter fun p => decide (p.id ≠ b) }

theorem mem_pendingIds_unpend {c : Custody} {b b' : BurstId} :
    b' ∈ (c.unpend b).pendingIds ↔ b' ∈ c.pendingIds ∧ b' ≠ b := by
  simp only [pendingIds, unpend, mem_map, mem_filter, decide_eq_true_eq]
  constructor
  · rintro ⟨p, ⟨hp, hne⟩, rfl⟩
    exact ⟨⟨p, hp, rfl⟩, hne⟩
  · rintro ⟨⟨p, hp, rfl⟩, hne⟩
    exact ⟨p, ⟨hp, hne⟩, rfl⟩

end Custody

/-! ## The invariant -/

section Invariant

variable (c : Custody) (frames : List (IdentitySampleFrame κ ε)) (checks : List IdentityCheck)

/-- The tables: every sample is stored once, and a burst has at most one decision, which is also
that of its frames. -/
structure TablesOk : Prop where
  frameIds : (frames.map (·.sampleId)).Nodup
  keys : (checks.map (·.sampleId)).Nodup
  ids : checks.map (·.id) = (List.range checks.length).map SampleId.mk
  once : (checks.filterMap (·.burstId)).Nodup
  burstKey : ∀ k ∈ checks, ∀ b, k.sampleId = .burst b → k.burstId = some b
  frameKey : ∀ k ∈ checks, ∀ f ∈ frames, k.sampleId = .frame f.sampleId →
    f.identityCheckId = some k.id
  known : ∀ k ∈ checks, ∀ b, k.burstId = some b → ∃ f ∈ frames, f.burstId = b
  decided : ∀ f ∈ frames, ∀ id, f.identityCheckId = some id →
    ∃ k ∈ checks, k.id = id ∧ k.burstId = some f.burstId

/-- The bursts being collected are known and undecided, and only they have embeddings: others' are
erased when the transaction ends, at the latest. -/
structure CollectingOk : Prop where
  pending : c.pendingIds.Nodup
  inactive : c.status ≠ .active → c.pendingBursts = []
  known : ∀ b ∈ c.pendingIds, ∃ f ∈ frames, f.burstId = b
  undecided : ∀ b ∈ c.pendingIds, ∀ f ∈ frames, f.burstId = b → f.identityCheckId = none
  unjudged : ∀ b ∈ c.pendingIds, ∀ k ∈ checks, k.burstId ≠ some b
  embedded : ∀ f ∈ frames, f.embedding.isSome = true →
    f.identityCheckId = none ∧ (f.burstId ∈ c.pendingIds ∨ c.Dooms f.burstId)

/-- The evidence rests on samples that were given to it, each once. -/
structure EvidenceOk (contributed : List SampleId) : Prop where
  nodup : contributed.Nodup
  stored : ∀ id ∈ contributed, ∃ k ∈ checks, k.id = id ∧ k.recordOnly = false
  window : c.evidence.samples.Nodup
  subset : c.evidence.samples ⊆ contributed

/-- The frames given to the evidence are decided, each once: a frame of a burst by the decision its
row names, a single frame by the decision stored under its id. -/
structure UsedOk (used : List FrameId) : Prop where
  nodup : used.Nodup
  decided : ∀ q ∈ used, (∃ f ∈ frames, f.sampleId = q ∧ f.identityCheckId ≠ none) ∨
    q ∉ frames.map (·.sampleId) ∧ SampleKey.frame q ∈ checks.map (·.sampleId)

structure SamplesOk (contributed : List SampleId) (used : List FrameId) : Prop where
  tables : TablesOk frames checks
  collecting : CollectingOk c frames checks
  evidence : EvidenceOk c checks contributed
  used : UsedOk frames checks used

end Invariant

/-- `SamplesOk` of a transaction. -/
abbrev SampleMutation.Ok (t : SampleMutation κ ε) : Prop :=
  SamplesOk t.m.custody t.frames t.identityChecks t.contributed t.contributedFrames

namespace SampleMutation

variable (t : SampleMutation κ ε)

/-- A burst that was received and is not being collected: decided, dropped, or only recorded. -/
def Settled (b : BurstId) : Prop :=
  (∃ f ∈ t.frames, f.burstId = b) ∧ b ∉ t.m.custody.pendingIds

/-- The decisions of a burst. -/
def decisions (b : BurstId) : List IdentityCheck :=
  t.identityChecks.filter fun k => decide (k.burstId = some b)

end SampleMutation

/-- What no transaction takes back. -/
structure Later (t t' : SampleMutation κ ε) : Prop where
  frames : ∀ f ∈ t.frames, ∃ f' ∈ t'.frames, f'.sampleId = f.sampleId ∧ f'.burstId = f.burstId ∧
    ∀ id, f.identityCheckId = some id → f'.identityCheckId = some id
  settled : ∀ b, t.Settled b → t'.Settled b ∧ t'.decisions b = t.decisions b

theorem Later.refl (t : SampleMutation κ ε) : Later t t :=
  ⟨fun f hf => ⟨f, hf, rfl, rfl, fun _ => id⟩, fun _ hb => ⟨hb, rfl⟩⟩

theorem Later.trans {t t' t'' : SampleMutation κ ε} (h : Later t t') (h' : Later t' t'') :
    Later t t'' := by
  refine ⟨fun f hf => ?_, fun b hb => ?_⟩
  · obtain ⟨f', hf', hid, hburst, hdec⟩ := h.frames f hf
    obtain ⟨f'', hf'', hid', hburst', hdec'⟩ := h'.frames f' hf'
    exact ⟨f'', hf'', hid'.trans hid, hburst'.trans hburst, fun id hi => hdec' id (hdec id hi)⟩
  · obtain ⟨hb', heq⟩ := h.settled b hb
    obtain ⟨hb'', heq'⟩ := h'.settled b hb'
    exact ⟨hb'', heq'.trans heq⟩

/-! ## The tables -/

variable {c c' : Custody} {frames frames' : List (IdentitySampleFrame κ ε)}
variable {checks : List IdentityCheck} {contributed : List SampleId} {row : IdentityCheck}
variable {used : List FrameId} {b : BurstId}

theorem TablesOk.fresh (h : TablesOk frames checks) : ∀ k ∈ checks, k.id ≠ ⟨checks.length⟩ := by
  intro k hk heq
  have hmem : k.id ∈ checks.map (·.id) := mem_map_of_mem hk
  rw [h.ids, heq, mem_map] at hmem
  obtain ⟨i, hi, hraw⟩ := hmem
  rw [mem_range] at hi
  rw [SampleId.mk.injEq] at hraw
  omega

theorem ids_append (h : checks.map (·.id) = (range checks.length).map SampleId.mk)
    (hid : row.id = ⟨checks.length⟩) :
    (checks ++ [row]).map (·.id) = (range (checks ++ [row]).length).map SampleId.mk := by
  rw [map_append, h, length_append, length_singleton, range_succ,
    map_append, map_singleton, map_singleton, hid]

/-- A change to frames that keeps what they are and erases embeddings at most. -/
structure KeepsFrame (g : IdentitySampleFrame κ ε → IdentitySampleFrame κ ε) : Prop where
  sampleId : ∀ f, (g f).sampleId = f.sampleId
  burstId : ∀ f, (g f).burstId = f.burstId
  identityCheckId : ∀ f, (g f).identityCheckId = f.identityCheckId
  embedding : ∀ f, (g f).embedding.isSome = true → f.embedding.isSome = true

variable {g : IdentitySampleFrame κ ε → IdentitySampleFrame κ ε}

theorem KeepsFrame.map_sampleId (hg : KeepsFrame g) (frames : List (IdentitySampleFrame κ ε)) :
    (frames.map g).map (·.sampleId) = frames.map (·.sampleId) := by
  rw [map_map]
  exact map_congr_left fun f _ => hg.sampleId f

theorem TablesOk.mapFrames (h : TablesOk frames checks)
    (hg : KeepsFrame g) :
    TablesOk (frames.map g) checks := by
  refine ⟨?_, h.keys, h.ids, h.once, h.burstKey, ?_, ?_, ?_⟩
  · rw [hg.map_sampleId]
    exact h.frameIds
  · intro k hk f hf hkey
    obtain ⟨f₀, hf₀, rfl⟩ := mem_map.1 hf
    rw [hg.sampleId] at hkey
    rw [hg.identityCheckId]
    exact h.frameKey k hk f₀ hf₀ hkey
  · intro k hk b hb
    obtain ⟨f, hf, hfb⟩ := h.known k hk b hb
    exact ⟨g f, mem_map_of_mem hf, (hg.burstId f).trans hfb⟩
  · intro f hf id hid
    obtain ⟨f₀, hf₀, rfl⟩ := mem_map.1 hf
    rw [hg.identityCheckId] at hid
    rw [hg.burstId]
    exact h.decided f₀ hf₀ id hid

theorem CollectingOk.mapFrames (h : CollectingOk c frames checks)
    (hg : KeepsFrame g) :
    CollectingOk c (frames.map g) checks := by
  refine ⟨h.pending, h.inactive, ?_, ?_, h.unjudged, ?_⟩
  · intro b hb
    obtain ⟨f, hf, hfb⟩ := h.known b hb
    exact ⟨g f, mem_map_of_mem hf, (hg.burstId f).trans hfb⟩
  · intro b hb f hf hfb
    obtain ⟨f₀, hf₀, rfl⟩ := mem_map.1 hf
    rw [hg.burstId] at hfb
    rw [hg.identityCheckId]
    exact h.undecided b hb f₀ hf₀ hfb
  · intro f hf hemb
    obtain ⟨f₀, hf₀, rfl⟩ := mem_map.1 hf
    rw [hg.identityCheckId, hg.burstId]
    exact h.embedded f₀ hf₀ (hg.embedding f₀ hemb)

theorem UsedOk.mapFrames (h : UsedOk frames checks used)
    (hg : KeepsFrame g) :
    UsedOk (frames.map g) checks used := by
  refine ⟨h.nodup, fun q hq => (h.decided q hq).imp ?_ ?_⟩
  · rintro ⟨f, hf, hid, hdec⟩
    exact ⟨g f, mem_map_of_mem hf, (hg.sampleId f).trans hid, hg.identityCheckId f ▸ hdec⟩
  · rw [hg.map_sampleId]
    exact id

theorem UsedOk.mono (h : UsedOk frames checks used) (k : IdentityCheck) :
    UsedOk frames (checks ++ [k]) used := by
  refine ⟨h.nodup, fun q hq => (h.decided q hq).imp_right (And.imp_right fun hk => ?_)⟩
  rw [map_append]
  exact mem_append_left _ hk

theorem keepsFrame_erase (sel : IdentitySampleFrame κ ε → Bool) :
    KeepsFrame fun f : IdentitySampleFrame κ ε =>
      if f.identityCheckId = none ∧ sel f then { f with embedding := none } else f := by
  constructor <;> intro f <;> split <;> simp

/-! ## A burst is decided -/

theorem markDecided_eq (frames : List (IdentitySampleFrame κ ε)) (b : BurstId)
    (row : IdentityCheck) {f' : IdentitySampleFrame κ ε} (hf : f' ∈ markDecided frames b row) :
    ∃ f ∈ frames, f'.sampleId = f.sampleId ∧ f'.burstId = f.burstId ∧
      ((f.burstId = b ∧ f.identityCheckId = none) ∧ f'.identityCheckId = some row.id ∧
          f'.embedding = none ∨
        ¬ (f.burstId = b ∧ f.identityCheckId = none) ∧ f' = f) := by
  obtain ⟨f₀, hf₀, rfl⟩ := mem_map.1 hf
  refine ⟨f₀, hf₀, ?_⟩
  split
  next h => exact ⟨rfl, rfl, .inl ⟨h, rfl, rfl⟩⟩
  next h => exact ⟨rfl, rfl, .inr ⟨h, rfl⟩⟩

variable {f : IdentitySampleFrame κ ε}

theorem mem_markDecided (b : BurstId) (row : IdentityCheck) (hf : f ∈ frames) :
    ∃ f' ∈ markDecided frames b row, f'.sampleId = f.sampleId ∧ f'.burstId = f.burstId ∧
      ∀ id, f.identityCheckId = some id → f'.identityCheckId = some id := by
  refine ⟨_, mem_map_of_mem hf, ?_⟩
  split
  next h => exact ⟨rfl, rfl, fun id hid => by cases h.2.symm.trans hid⟩
  next => exact ⟨rfl, rfl, fun _ => id⟩

/-- Where the key of a burst's decision comes from: the burst, or the frame that completed it. -/
def KeyOf (frames : List (IdentitySampleFrame κ ε)) (checks : List IdentityCheck) (b : BurstId)
    (key : SampleKey) : Prop :=
  key = .burst b ∨ key ∉ checks.map (·.sampleId) ∧
    ∃ f ∈ frames, key = .frame f.sampleId ∧ f.burstId = b

theorem sampleIds_markDecided (frames : List (IdentitySampleFrame κ ε)) (b : BurstId)
    (row : IdentityCheck) :
    (markDecided frames b row).map (·.sampleId) = frames.map (·.sampleId) := by
  rw [markDecided, map_map]
  refine map_congr_left fun f _ => ?_
  show (if _ then _ else _ : IdentitySampleFrame κ ε).sampleId = _
  split <;> rfl

theorem TablesOk.decideBurst (h : TablesOk frames checks) (hc : CollectingOk c frames checks)
    (hb : b ∈ c.pendingIds) (hid : row.id = ⟨checks.length⟩) (hrow : row.burstId = some b)
    (hkey : KeyOf frames checks b row.sampleId) :
    TablesOk (markDecided frames b row) (checks ++ [row]) := by
  have hnew : row.sampleId ∉ checks.map (·.sampleId) := by
    obtain hkey | ⟨hkey, -⟩ := hkey
    · intro hmem
      obtain ⟨k, hk, hsame⟩ := mem_map.1 hmem
      exact hc.unjudged b hb k hk (h.burstKey k hk b (hsame.trans hkey))
    · exact hkey
  refine ⟨?_, ?_, ids_append h.ids hid, ?_, ?_, ?_, ?_, ?_⟩
  · rw [sampleIds_markDecided]
    exact h.frameIds
  · rw [map_append]
    exact nodup_append.2 ⟨h.keys, nodup_singleton _, fun x hx y hy => by
      rw [mem_singleton.1 hy]
      rintro rfl
      exact hnew hx⟩
  · rw [filterMap_append]
    refine nodup_append.2 ⟨h.once, ?_, fun x hx y hy => ?_⟩
    · simp [hrow]
    · have hy : y = b := by simpa [hrow] using hy
      rintro rfl
      obtain ⟨k, hk, hkb⟩ := mem_filterMap.1 hx
      exact hc.unjudged x (hy ▸ hb) k hk hkb
  · intro k hk b' hb'
    obtain hk | rfl := mem_snoc.1 hk
    · exact h.burstKey k hk b' hb'
    · obtain hkey | ⟨-, f, -, hkey, -⟩ := hkey
      · cases hkey.symm.trans hb'
        exact hrow
      · cases hkey.symm.trans hb'
  · intro k hk f' hf' hkf
    obtain ⟨f, hf, hfid, hfb, hmark⟩ := markDecided_eq frames b row hf'
    rw [hfid] at hkf
    obtain hk | rfl := mem_snoc.1 hk
    · have hdec := h.frameKey k hk f hf hkf
      obtain ⟨⟨-, hnone⟩, -⟩ | ⟨-, rfl⟩ := hmark
      · cases hnone.symm.trans hdec
      · exact hdec
    · obtain hkey | ⟨-, g, hg, hkey, hgb⟩ := hkey
      · cases hkey.symm.trans hkf
      · have hsame : f.sampleId = g.sampleId := SampleKey.frame.inj (hkf.symm.trans hkey)
        have hfg : f = g := inj_on_of_nodup_map h.frameIds hf hg hsame
        subst hfg
        obtain ⟨-, hset, -⟩ | ⟨hno, -⟩ := hmark
        · exact hset
        · exact absurd ⟨hgb, hc.undecided b hb f hf hgb⟩ hno
  · intro k hk b' hb'
    have hmarked : ∀ f ∈ frames, f.burstId = b' → ∃ f' ∈ markDecided frames b row, f'.burstId = b' := by
      intro f hf hfb
      obtain ⟨f', hf', -, hb'', -⟩ := mem_markDecided b row hf
      exact ⟨f', hf', hb''.trans hfb⟩
    obtain hk | rfl := mem_snoc.1 hk
    · obtain ⟨f, hf, hfb⟩ := h.known k hk b' hb'
      exact hmarked f hf hfb
    · obtain rfl : b = b' := Option.some.inj (hrow.symm.trans hb')
      obtain ⟨f, hf, hfb⟩ := hc.known b hb
      exact hmarked f hf hfb
  · intro f' hf' id hfid
    obtain ⟨f, hf, -, hfb, hmark⟩ := markDecided_eq frames b row hf'
    obtain ⟨⟨hfb', -⟩, hset, -⟩ | ⟨-, rfl⟩ := hmark
    · refine ⟨row, mem_append_right _ (mem_singleton_self _), ?_, ?_⟩
      · exact Option.some.inj (hset.symm.trans hfid)
      · rw [hrow, hfb, hfb']
    · obtain ⟨k, hk, hkid, hkb⟩ := h.decided f' hf id hfid
      exact ⟨k, mem_append_left _ hk, hkid, hkb⟩

theorem CollectingOk.decideBurst (h : CollectingOk c frames checks) (hrow : row.burstId = some b) :
    CollectingOk (c.unpend b) (markDecided frames b row) (checks ++ [row]) := by
  refine ⟨?_, ?_, ?_, ?_, ?_, ?_⟩
  · exact (filter_sublist.map _).nodup h.pending
  · intro hs
    show c.pendingBursts.filter _ = []
    rw [h.inactive hs, filter_nil]
  · intro b' hb'
    obtain ⟨f, hf, hfb⟩ := h.known b' (Custody.mem_pendingIds_unpend.1 hb').1
    obtain ⟨f', hf', -, hb'', -⟩ := mem_markDecided b row hf
    exact ⟨f', hf', hb''.trans hfb⟩
  · intro b' hb' f' hf' hfb
    obtain ⟨hb', hne⟩ := Custody.mem_pendingIds_unpend.1 hb'
    obtain ⟨f, hf, -, hfb', hmark⟩ := markDecided_eq frames b row hf'
    rw [hfb'] at hfb
    obtain ⟨⟨hfb'', -⟩, -⟩ | ⟨-, rfl⟩ := hmark
    · exact absurd (hfb.symm.trans hfb'') hne
    · exact h.undecided b' hb' f' hf hfb
  · intro b' hb' k hk
    obtain ⟨hb', hne⟩ := Custody.mem_pendingIds_unpend.1 hb'
    obtain hk | rfl := mem_snoc.1 hk
    · exact h.unjudged b' hb' k hk
    · rw [hrow]
      exact fun heq => hne (Option.some.inj heq).symm
  · intro f' hf' hemb
    obtain ⟨f, hf, -, hfb', hmark⟩ := markDecided_eq frames b row hf'
    obtain ⟨-, -, hnone⟩ | ⟨hno, rfl⟩ := hmark
    · simp [hnone] at hemb
    · obtain ⟨hundecided, hwhere⟩ := h.embedded f' hf hemb
      refine ⟨hundecided, hwhere.imp_left fun hpend => ?_⟩
      exact Custody.mem_pendingIds_unpend.2 ⟨hpend, fun heq => hno ⟨heq, hundecided⟩⟩

theorem UsedOk.marked (h : UsedOk frames checks used) (b : BurstId) (row : IdentityCheck) :
    UsedOk (markDecided frames b row) (checks ++ [row]) used := by
  have hmono := h.mono row
  refine ⟨h.nodup, fun q hq => (hmono.decided q hq).imp ?_ ?_⟩
  · rintro ⟨f, hf, hid, hdec⟩
    obtain ⟨f', hf', hid', -, hkept⟩ := mem_markDecided b row hf
    obtain ⟨i, hi⟩ := Option.ne_none_iff_exists'.1 hdec
    exact ⟨f', hf', hid'.trans hid, by rw [hkept i hi]; exact nofun⟩
  · rw [sampleIds_markDecided]
    exact id

theorem UsedOk.decideBurst (h : UsedOk frames checks used) (ht : TablesOk frames checks)
    {rows : List (IdentitySampleFrame κ ε)}
    (hrows : rows.Perm (frames.filter fun f => f.burstId == b && f.identityCheckId.isNone)) :
    UsedOk (markDecided frames b row) (checks ++ [row]) (used ++ rows.map (·.sampleId)) := by
  have hmem : ∀ f ∈ rows, f ∈ frames ∧ f.burstId = b ∧ f.identityCheckId = none := by
    intro f hf
    have hsel := mem_filter.1 (hrows.mem_iff.1 hf)
    rw [Bool.and_eq_true, beq_iff_eq, Option.isNone_iff_eq_none] at hsel
    exact hsel
  have hold := h.marked b row
  refine ⟨nodup_append.2 ⟨h.nodup, ?_, ?_⟩, fun q hq => ?_⟩
  · refine (hrows.map _).nodup_iff.2 ?_
    exact (filter_sublist.map _).nodup ht.frameIds
  · intro q hq q' hq' heq
    obtain ⟨f, hf, rfl⟩ := mem_map.1 hq'
    obtain ⟨hframe, -, hnone⟩ := hmem f hf
    obtain ⟨g, hg, hid, hdec⟩ | ⟨hno, -⟩ := h.decided q hq
    · have hsame := inj_on_of_nodup_map ht.frameIds hg hframe (hid.trans heq)
      exact hdec (hsame ▸ hnone)
    · exact hno (heq ▸ mem_map_of_mem hframe)
  · obtain hq | hq := mem_append.1 hq
    · exact hold.decided q hq
    · obtain ⟨f, hf, rfl⟩ := mem_map.1 hq
      obtain ⟨hframe, hb, hnone⟩ := hmem f hf
      refine .inl ⟨_, mem_map_of_mem hframe, ?_, ?_⟩
      · split <;> rfl
      · rw [if_pos ⟨hb, hnone⟩]
        exact nofun

/-! ## A single sample is decided -/

variable {q : FrameId}

theorem UsedOk.decideSingle (h : UsedOk frames checks used)
    (hkey : row.sampleId = .frame q) (hnew : SampleKey.frame q ∉ checks.map (·.sampleId))
    (hq : q ∉ frames.map (·.sampleId)) : UsedOk frames (checks ++ [row]) (used ++ [q]) := by
  refine ⟨nodup_append.2 ⟨h.nodup, nodup_singleton _, ?_⟩, fun q' hq' => ?_⟩
  · intro x hx y hy
    rw [mem_singleton.1 hy]
    rintro rfl
    obtain ⟨f, hf, rfl, -⟩ | ⟨-, hk⟩ := h.decided x hx
    · exact hq (mem_map_of_mem hf)
    · exact hnew hk
  · obtain hq' | rfl := mem_snoc.1 hq'
    · exact (h.mono row).decided q' hq'
    · refine .inr ⟨hq, ?_⟩
      rw [map_append, map_singleton, hkey]
      exact mem_append_right _ (mem_singleton_self _)

theorem TablesOk.decideSingle (h : TablesOk frames checks)
    (hid : row.id = ⟨checks.length⟩) (hrow : row.burstId = none) (hkey : row.sampleId = .frame q)
    (hnew : row.sampleId ∉ checks.map (·.sampleId)) (hq : q ∉ frames.map (·.sampleId)) :
    TablesOk frames (checks ++ [row]) := by
  refine ⟨h.frameIds, ?_, ids_append h.ids hid, ?_, ?_, ?_, ?_, ?_⟩
  · rw [map_append]
    exact nodup_append.2 ⟨h.keys, nodup_singleton _, fun x hx y hy => by
      rw [mem_singleton.1 hy]
      rintro rfl
      exact hnew hx⟩
  · simpa [hrow] using h.once
  · intro k hk b hb
    obtain hk | rfl := mem_snoc.1 hk
    · exact h.burstKey k hk b hb
    · rw [hkey] at hb
      cases hb
  · intro k hk f hf hkf
    obtain hk | rfl := mem_snoc.1 hk
    · exact h.frameKey k hk f hf hkf
    · rw [hkey] at hkf
      cases hkf
      exact absurd (mem_map_of_mem hf) hq
  · intro k hk b hb
    obtain hk | rfl := mem_snoc.1 hk
    · exact h.known k hk b hb
    · rw [hrow] at hb
      cases hb
  · intro f hf id hfid
    obtain ⟨k, hk, hkid, hkb⟩ := h.decided f hf id hfid
    exact ⟨k, mem_append_left _ hk, hkid, hkb⟩

theorem CollectingOk.decideSingle (h : CollectingOk c frames checks) (hrow : row.burstId = none) :
    CollectingOk c frames (checks ++ [row]) := by
  refine { h with unjudged := fun b hb k hk => ?_ }
  obtain hk | rfl := mem_snoc.1 hk
  · exact h.unjudged b hb k hk
  · rw [hrow]
    exact nofun

/-! ## A frame is stored -/

variable {f : IdentitySampleFrame κ ε}

theorem TablesOk.insertFrame (h : TablesOk frames checks)
    (hf : f.sampleId ∉ frames.map (·.sampleId))
    (hnew : SampleKey.frame f.sampleId ∉ checks.map (·.sampleId))
    (hnone : f.identityCheckId = none) : TablesOk (frames ++ [f]) checks := by
  refine ⟨?_, h.keys, h.ids, h.once, h.burstKey, ?_, ?_, ?_⟩
  · rw [map_append]
    exact nodup_append.2 ⟨h.frameIds, nodup_singleton _, fun x hx y hy => by
      rw [mem_singleton.1 hy]
      rintro rfl
      exact hf hx⟩
  · intro k hk g hg hkg
    obtain hg | hg := mem_append.1 hg
    · exact h.frameKey k hk g hg hkg
    · rw [mem_singleton.1 hg] at hkg
      exact absurd (hkg ▸ mem_map_of_mem hk) hnew
  · intro k hk b hb
    obtain ⟨g, hg, hgb⟩ := h.known k hk b hb
    exact ⟨g, mem_append_left _ hg, hgb⟩
  · intro g hg id hid
    obtain hg | rfl := mem_snoc.1 hg
    · exact h.decided g hg id hid
    · rw [hnone] at hid
      cases hid

theorem UsedOk.insertFrame (h : UsedOk frames checks used)
    (hnew : SampleKey.frame f.sampleId ∉ checks.map (·.sampleId)) :
    UsedOk (frames ++ [f]) checks used := by
  refine ⟨h.nodup, fun q hq => (h.decided q hq).imp ?_ ?_⟩
  · rintro ⟨g, hg, hid, hdec⟩
    exact ⟨g, mem_append_left _ hg, hid, hdec⟩
  · rintro ⟨hno, hk⟩
    rw [map_append, mem_append, map_singleton, mem_singleton, not_or]
    refine ⟨⟨hno, ?_⟩, hk⟩
    rintro rfl
    exact hnew hk

theorem CollectingOk.insertLate (h : CollectingOk c frames checks)
    (hnone : f.identityCheckId = none) (hemb : f.embedding = none) :
    CollectingOk c (frames ++ [f]) checks := by
  refine ⟨h.pending, h.inactive, ?_, ?_, h.unjudged, ?_⟩
  · intro b hb
    obtain ⟨g, hg, hgb⟩ := h.known b hb
    exact ⟨g, mem_append_left _ hg, hgb⟩
  · intro b hb g hg hgb
    obtain hg | rfl := mem_snoc.1 hg
    · exact h.undecided b hb g hg hgb
    · exact hnone
  · intro g hg hgemb
    obtain hg | rfl := mem_snoc.1 hg
    · exact h.embedded g hg hgemb
    · rw [hemb] at hgemb
      cases hgemb

theorem CollectingOk.insertPending (h : CollectingOk c frames checks) {bursts : List PendingBurst}
    (hs : c.status = .active) (hnone : f.identityCheckId = none)
    (hids : bursts.map (·.id) = c.pendingIds ∧ f.burstId ∈ c.pendingIds ∨
      bursts.map (·.id) = c.pendingIds ++ [f.burstId] ∧ (∀ g ∈ frames, g.burstId ≠ f.burstId) ∧
        ∀ k ∈ checks, k.burstId ≠ some f.burstId) :
    CollectingOk { c with pendingBursts := bursts } (frames ++ [f]) checks := by
  have hmem : ∀ b, b ∈ bursts.map (·.id) → b ∈ c.pendingIds ∨ b = f.burstId := by
    intro b hb
    obtain ⟨heq, -⟩ | ⟨heq, -⟩ := hids
    · exact .inl (heq ▸ hb)
    · rw [heq, mem_append, mem_singleton] at hb
      exact hb
  have hkeep : ∀ b, b ∈ c.pendingIds → b ∈ bursts.map (·.id) := by
    intro b hb
    obtain ⟨heq, -⟩ | ⟨heq, -⟩ := hids
    · exact heq ▸ hb
    · rw [heq]
      exact mem_append_left _ hb
  have hown : f.burstId ∈ bursts.map (·.id) := by
    obtain ⟨heq, hf⟩ | ⟨heq, -⟩ := hids
    · exact heq ▸ hf
    · rw [heq]
      exact mem_append_right _ (mem_singleton_self _)
  refine ⟨?_, fun hne => absurd hs hne, ?_, ?_, ?_, ?_⟩
  · show (bursts.map (·.id)).Nodup
    obtain ⟨heq, -⟩ | ⟨heq, hnew, -⟩ := hids
    · rw [heq]
      exact h.pending
    · rw [heq]
      refine nodup_append.2 ⟨h.pending, nodup_singleton _, fun x hx y hy => ?_⟩
      rw [mem_singleton.1 hy]
      rintro rfl
      obtain ⟨g, hg, hgb⟩ := h.known _ hx
      exact hnew g hg hgb
  · intro b hb
    obtain hb | rfl := hmem b hb
    · obtain ⟨g, hg, hgb⟩ := h.known b hb
      exact ⟨g, mem_append_left _ hg, hgb⟩
    · exact ⟨f, mem_append_right _ (mem_singleton_self _), rfl⟩
  · intro b hb g hg hgb
    obtain hg | rfl := mem_snoc.1 hg
    · obtain hb | rfl := hmem b hb
      · exact h.undecided b hb g hg hgb
      · obtain ⟨-, hf⟩ | ⟨-, hnew, -⟩ := hids
        · exact h.undecided _ hf g hg hgb
        · exact absurd hgb (hnew g hg)
    · exact hnone
  · intro b hb k hk
    obtain hb | rfl := hmem b hb
    · exact h.unjudged b hb k hk
    · obtain ⟨-, hf⟩ | ⟨-, -, hnew⟩ := hids
      · exact h.unjudged _ hf k hk
      · exact hnew k hk
  · intro g hg hemb
    obtain hg | rfl := mem_snoc.1 hg
    · obtain ⟨hundecided, hwhere⟩ := h.embedded g hg hemb
      exact ⟨hundecided, hwhere.imp_left (hkeep _)⟩
    · exact ⟨hnone, .inl hown⟩

/-! ## The session changes -/

/-- The bursts are kept, or all dropped. -/
structure Drops (c c' : Custody) : Prop where
  bursts : c'.pendingBursts = c.pendingBursts ∧ (c'.status ≠ .active → c'.pendingBursts = []) ∨
    c'.pendingBursts = []
  doomed : ∀ b, b ∈ c.pendingIds ∨ c.Dooms b → b ∈ c'.pendingIds ∨ c'.Dooms b

theorem CollectingOk.change (h : CollectingOk c frames checks) (hc : Drops c c') :
    CollectingOk c' frames checks := by
  have hsub : ∀ b, b ∈ c'.pendingIds → b ∈ c.pendingIds := by
    intro b hb
    obtain ⟨heq, -⟩ | heq := hc.bursts
    · rwa [Custody.pendingIds, heq] at hb
    · rw [Custody.pendingIds, heq] at hb
      cases hb
  refine ⟨?_, fun hs => hc.bursts.elim (fun hp => hp.2 hs) id, fun b hb => h.known b (hsub b hb),
    fun b hb => h.undecided b (hsub b hb), fun b hb => h.unjudged b (hsub b hb), fun f hf hemb => ?_⟩
  · obtain ⟨heq, -⟩ | heq := hc.bursts
    · rw [Custody.pendingIds, heq]
      exact h.pending
    · rw [Custody.pendingIds, heq]
      exact nodup_nil
  · obtain ⟨hundecided, hwhere⟩ := h.embedded f hf hemb
    exact ⟨hundecided, hc.doomed _ hwhere⟩

theorem drops_hold : Drops c c.hold := by
  refine ⟨.inr rfl, fun b hb => .inr ?_⟩
  obtain hb | hb | hb := hb
  · exact .inr (mem_append_right _ hb)
  · exact .inl hb
  · exact .inr (mem_append_left _ hb)

theorem CollectingOk.weighed (h : CollectingOk c frames checks) {samples : List SampleId}
    (hw : c.Weighed c' samples) : CollectingOk c' frames checks := by
  obtain ⟨acc, -, rfl⟩ | ⟨rfl, -⟩ := hw
  · exact h.change ⟨.inl ⟨rfl, h.inactive⟩, fun _ => id⟩
  · exact h.change drops_hold

theorem nodup_of_subperm {l l' : List SampleId} (h : l.Subperm l') (hl : l'.Nodup) : l.Nodup := by
  obtain ⟨k, hperm, hsub⟩ := h
  exact hperm.nodup_iff.1 (hsub.nodup hl)

theorem EvidenceOk.mono (h : EvidenceOk c checks contributed) (k : IdentityCheck) :
    EvidenceOk c (checks ++ [k]) contributed := by
  refine { h with stored := fun id hid => ?_ }
  obtain ⟨k', hk, hkid⟩ := h.stored id hid
  exact ⟨k', mem_append_left _ hk, hkid⟩

theorem EvidenceOk.change (h : EvidenceOk c checks contributed)
    (hsub : c'.evidence.samples.Subperm c.evidence.samples) :
    EvidenceOk c' checks contributed :=
  ⟨h.nodup, h.stored, nodup_of_subperm hsub h.window, fun _ hx => h.subset (hsub.subset hx)⟩

theorem EvidenceOk.weighed (h : EvidenceOk c checks contributed) {id : SampleId}
    (hid : id ∉ contributed) (hrow : ∃ k ∈ checks, k.id = id ∧ k.recordOnly = false)
    (hw : c.Weighed c' (id :: c.evidence.samples)) :
    EvidenceOk c' checks (contributed ++ [id]) := by
  have hnodup : (id :: c.evidence.samples).Nodup :=
    nodup_cons.2 ⟨fun hmem => hid (h.subset hmem), h.window⟩
  have hsub : c'.evidence.samples.Subperm (id :: c.evidence.samples) := by
    obtain ⟨acc, hacc, rfl⟩ | ⟨rfl, -⟩ := hw
    · exact hacc
    · exact nil_subperm
  refine ⟨?_, fun i hi => ?_, nodup_of_subperm hsub hnodup, fun i hi => ?_⟩
  · refine nodup_append.2 ⟨h.nodup, nodup_singleton _, fun x hx y hy => ?_⟩
    rw [mem_singleton.1 hy]
    rintro rfl
    exact hid hx
  · obtain hi | rfl := mem_snoc.1 hi
    · exact h.stored i hi
    · exact hrow
  · obtain rfl | hi := mem_cons.1 (hsub.subset hi)
    · exact mem_append_right _ (mem_singleton_self _)
    · exact mem_append_left _ (h.subset hi)

/-! ## The operations -/

variable {t : SampleMutation κ ε} {env : SampleEnv κ ε}

/-- What deciding a sample stores, and what it does to the session. -/
structure DecidedAs (t : SampleMutation κ ε) (d : DecideInput κ ε) (t' : SampleMutation κ ε)
    (row : IdentityCheck) : Prop where
  id : row.id = ⟨t.identityChecks.length⟩
  sampleId : row.sampleId = d.sampleId
  burst : row.burst = d.burst
  recordOnly : row.recordOnly = d.recordOnly
  frames : t'.frames = t.frames
  checks : t'.identityChecks = t.identityChecks ++ [row]
  effect : d.recordOnly = true ∧ t'.m.custody = t.m.custody ∧ t'.contributed = t.contributed ∨
    d.recordOnly = false ∧ t'.contributed = t.contributed ++ [row.id] ∧
      t.m.custody.Weighed t'.m.custody (row.id :: t.m.custody.evidence.samples)
  used : t'.contributedFrames = t.contributedFrames ∨
    t'.contributedFrames = t.contributedFrames ++ d.frames.map (·.sampleId)

theorem decideSample_decides (d : DecideInput κ ε) :
    (decideSample t env d).Yields fun r => DecidedAs t d r.1 r.2 := by
  refine .ite (fun hrec => .pure
    ⟨rfl, rfl, rfl, rfl, rfl, rfl, .inl ⟨hrec, rfl, rfl⟩, .inl rfl⟩) fun hrec => ?_
  rw [Bool.not_eq_true] at hrec
  refine weighed_applyEvidence.bind fun r hr => .pure ?_
  exact ⟨rfl, rfl, rfl, rfl, rfl, rfl, .inr ⟨hrec, rfl, hr⟩, .inr rfl⟩

variable {t' : SampleMutation κ ε} {d : DecideInput κ ε}

theorem SamplesOk.effect (hdec : DecidedAs t d t' row) {frames' : List (IdentitySampleFrame κ ε)}
    (hold : TablesOk frames t.identityChecks)
      (hcontributed : EvidenceOk t.m.custody t.identityChecks t.contributed)
    (htables : TablesOk frames' (t.identityChecks ++ [row]))
    (hcollecting : CollectingOk t.m.custody frames' (t.identityChecks ++ [row]))
    (hused : UsedOk frames' (t.identityChecks ++ [row]) t.contributedFrames)
    (hused' : UsedOk frames' (t.identityChecks ++ [row])
      (t.contributedFrames ++ d.frames.map (·.sampleId))) :
    SamplesOk t'.m.custody frames' (t.identityChecks ++ [row]) t'.contributed
      t'.contributedFrames := by
  have hevidence := hcontributed.mono row
  have hframes : UsedOk frames' (t.identityChecks ++ [row]) t'.contributedFrames := by
    obtain heq | heq := hdec.used
    · exact heq ▸ hused
    · exact heq ▸ hused'
  obtain ⟨-, hc, hcon⟩ | ⟨hrec, hcon, hw⟩ := hdec.effect
  · rw [hc, hcon]
    exact ⟨htables, hcollecting, hevidence, hframes⟩
  · rw [hcon]
    have hfresh : row.id ∉ t.contributed := by
      intro hmem
      obtain ⟨k, hk, hkid, -⟩ := hcontributed.stored _ hmem
      exact hold.fresh k hk (hkid.trans hdec.id)
    refine ⟨htables, hcollecting.weighed hw, hevidence.weighed hfresh ⟨row, ?_, rfl, ?_⟩ hw,
      hframes⟩
    · exact mem_append_right _ (mem_singleton_self _)
    · exact hdec.recordOnly.trans hrec

theorem pendingIds_weighed {c c' : Custody} {samples : List SampleId} (h : c.Weighed c' samples) :
    c'.pendingBursts = c.pendingBursts ∧ c'.status = c.status ∨
      c'.pendingBursts = [] ∧ c'.status ≠ .active := by
  obtain ⟨acc, -, rfl⟩ | ⟨rfl, -⟩ := h
  · exact .inl ⟨rfl, rfl⟩
  · exact .inr ⟨rfl, nofun⟩

theorem DecidedAs.pending (h : DecidedAs t d t' row) :
    t'.m.custody.pendingBursts = t.m.custody.pendingBursts ∧
        t'.m.custody.status = t.m.custody.status ∨
      t'.m.custody.pendingBursts = [] ∧ t'.m.custody.status ≠ .active := by
  obtain ⟨-, hc, -⟩ | ⟨-, -, hw⟩ := h.effect
  · rw [hc]
    exact .inl ⟨rfl, rfl⟩
  · exact pendingIds_weighed hw

theorem decisions_append
    (hchecks : t'.identityChecks = t.identityChecks ++ [row]) (hb : row.burstId ≠ some b) :
    t'.decisions b = t.decisions b := by
  rw [SampleMutation.decisions, hchecks, filter_append, filter_singleton,
    decide_eq_false hb]
  simp [SampleMutation.decisions]

theorem decideSample_ok (h : t.Ok) (hburst : d.burst = none)
    (hkey : d.sampleId = .frame q) (hframes : d.frames.map (·.sampleId) = [q])
    (hnew : SampleKey.frame q ∉ t.identityChecks.map (·.sampleId))
    (hq : q ∉ t.frames.map (·.sampleId)) :
    (decideSample t env d).Yields fun r => r.1.Ok ∧ Later t r.1 := by
  refine (decideSample_decides d).mono fun r hr => ?_
  have hrow : r.2.burstId = none := by rw [IdentityCheck.burstId, hr.burst, hburst, Option.map_none]
  have hrowKey : r.2.sampleId = .frame q := hr.sampleId.trans hkey
  have htables := h.tables.decideSingle hr.id hrow hrowKey (hrowKey ▸ hnew) hq
  refine ⟨?_, fun f hf => ⟨f, hr.frames ▸ hf, rfl, rfl, fun _ => id⟩, fun b hb => ⟨?_, ?_⟩⟩
  · show SamplesOk _ _ _ _ _
    rw [hr.frames, hr.checks]
    refine SamplesOk.effect hr h.tables h.evidence htables (h.collecting.decideSingle hrow)
      (h.used.mono _) ?_
    rw [hframes]
    exact h.used.decideSingle hrowKey hnew hq
  · refine ⟨hr.frames ▸ hb.1, ?_⟩
    obtain ⟨heq, -⟩ | ⟨heq, -⟩ := hr.pending
    · rw [Custody.pendingIds, heq]
      exact hb.2
    · rw [Custody.pendingIds, heq]
      exact not_mem_nil
  · exact decisions_append hr.checks (by rw [hrow]; exact nofun)

/-- Nothing is stored under the id yet. -/
structure SampleMutation.Unreceived (t : SampleMutation κ ε) (q : FrameId) : Prop where
  checks : SampleKey.frame q ∉ t.identityChecks.map (·.sampleId)
  frames : q ∉ t.frames.map (·.sampleId)

/-- What is left to collect once a burst is decided. -/
structure BurstDecided (t : SampleMutation κ ε) (b : BurstId) (completing : Option FrameId)
    (t' : SampleMutation κ ε) : Prop where
  ok : t'.Ok
  later : Later t t'
  unreceived : ∀ q, completing ≠ some q → t.Unreceived q → t'.Unreceived q
  pending : t'.m.custody.pendingBursts = (t.m.custody.unpend b).pendingBursts ∧
      t'.m.custody.status = t.m.custody.status ∨
    t'.m.custody.pendingBursts = [] ∧ t'.m.custody.status ≠ .active

theorem decideBurst_ok (h : t.Ok) (pending : PendingBurst) (completing : Option FrameId)
    (recordOnly : Bool) (hb : pending.id ∈ t.m.custody.pendingIds)
    (hkey : KeyOf t.frames t.identityChecks pending.id
      (completing.elim (.burst pending.id) .frame)) :
    (decideBurst t env pending completing recordOnly).Yields fun r =>
      BurstDecided t pending.id completing r.1 := by
  refine (decideSample_decides _).bind fun r hr => .pure ?_
  have hrow : r.2.burstId = some pending.id := by
    rw [IdentityCheck.burstId, hr.burst]
    rfl
  have hrowKey : KeyOf t.frames t.identityChecks pending.id r.2.sampleId := by
    rw [hr.sampleId]
    exact hkey
  have htables := h.tables.decideBurst h.collecting hb hr.id hrow hrowKey
  have hcollecting := h.collecting.decideBurst hrow
  have hframes : r.1.frames = t.frames := hr.frames
  have hchecks : r.1.identityChecks = t.identityChecks ++ [r.2] := hr.checks
  have hpending := hr.pending
  refine ⟨?_, ⟨fun f hf => ?_, fun b hset => ⟨?_, ?_⟩⟩, fun q hq hun => ?_, hpending⟩
  · rw [hframes, hchecks]
    have hevidence : EvidenceOk (t.m.custody.unpend pending.id) t.identityChecks t.contributed :=
      h.evidence.change (.refl _)
    refine SamplesOk.effect hr h.tables hevidence htables hcollecting (h.used.marked _ _) ?_
    have hperm : (undecidedFrames t pending.id).Perm _ := perm_insertionSort _ _
    have hinput : (burstInput t env pending completing recordOnly).frames.map (·.sampleId) =
        (undecidedFrames t pending.id).map (·.sampleId) := by
      rw [burstInput, map_map]
      rfl
    rw [hinput]
    exact h.used.decideBurst h.tables hperm
  · rw [hframes]
    exact mem_markDecided _ _ hf
  · refine ⟨?_, ?_⟩
    · obtain ⟨f, hf, hfb⟩ := hset.1
      rw [hframes]
      obtain ⟨f', hf', -, hfb', -⟩ := mem_markDecided pending.id r.2 hf
      exact ⟨f', hf', hfb'.trans hfb⟩
    · obtain ⟨heq, -⟩ | ⟨heq, -⟩ := hpending
      · rw [Custody.pendingIds, heq]
        exact fun hmem => hset.2 (Custody.mem_pendingIds_unpend.1 hmem).1
      · rw [Custody.pendingIds, heq]
        exact not_mem_nil
  · refine decisions_append hchecks ?_
    rw [hrow]
    rintro ⟨⟩
    exact hset.2 hb
  · refine ⟨?_, ?_⟩
    · rw [hchecks, map_append, mem_append, not_or]
      refine ⟨hun.checks, ?_⟩
      rw [map_singleton, mem_singleton, hr.sampleId]
      intro hsame
      cases completing with
      | none => cases hsame
      | some q' => exact hq (congrArg some (SampleKey.frame.inj hsame).symm)
    · rw [sampleIds_markDecided, hframes]
      exact hun.frames

/-- What is left to collect once several bursts are decided: the exam may be held before the
last. -/
structure StaleDecided (t : SampleMutation κ ε) (bs : List PendingBurst)
    (t' : SampleMutation κ ε) : Prop where
  ok : t'.Ok
  later : Later t t'
  unreceived : ∀ q, t.Unreceived q → t'.Unreceived q
  pending : t'.m.session.status = .active → t.m.session.status = .active ∧
    t'.m.custody.pendingBursts =
      t.m.custody.pendingBursts.filter fun p => decide (p.id ∉ bs.map (·.id))

theorem decideEach_ok (bs : List PendingBurst) (hbs : (bs.map (·.id)).Nodup) :
    ∀ t : SampleMutation κ ε, t.Ok →
      (t.m.session.status = .active → ∀ b ∈ bs, b.id ∈ t.m.custody.pendingIds) →
      (bs.foldlM (fun t b => if t.m.session.status ≠ .active then .ok t
        else (·.1) <$> decideBurst t env b none false) t :
          Except HttpError (SampleMutation κ ε)).Yields (StaleDecided t bs) := by
  induction bs with
  | nil =>
    refine fun t ht _ => .pure ⟨ht, .refl t, fun _ => id, fun hs => ⟨hs, ?_⟩⟩
    exact (filter_eq_self.2 fun p _ => by simp).symm
  | cons b bs ih =>
    intro t ht hmem
    rw [map_cons, nodup_cons] at hbs
    rw [foldlM_cons]
    by_cases hs : t.m.session.status = .active
    · rw [if_neg (not_not.2 hs)]
      have hdecided := (@decideBurst_ok _ _ t env ht b none false (hmem hs b mem_cons_self)
        (.inl rfl)).fst
      refine hdecided.bind fun t₁ h₁ => ?_
      have hrest : ∀ p ∈ bs, p.id ≠ b.id := fun p hp heq =>
        hbs.1 (heq ▸ mem_map_of_mem hp)
      refine (ih hbs.2 t₁ h₁.ok fun hs₁ p hp => ?_).mono fun t₂ h₂ => ?_
      · obtain ⟨heq, -⟩ | ⟨-, hne⟩ := h₁.pending
        · rw [Custody.pendingIds, heq]
          exact Custody.mem_pendingIds_unpend.2
            ⟨hmem hs p (mem_cons_of_mem _ hp), hrest p hp⟩
        · exact absurd hs₁ hne
      · refine ⟨h₂.ok, h₁.later.trans h₂.later,
          fun q hq => h₂.unreceived q (h₁.unreceived q nofun hq), fun hs₂ => ⟨hs, ?_⟩⟩
        obtain ⟨hs₁, heq₂⟩ := h₂.pending hs₂
        obtain ⟨heq, -⟩ | ⟨-, hne⟩ := h₁.pending
        · rw [heq₂, heq, Custody.unpend, filter_filter]
          refine filter_congr fun p _ => ?_
          rw [map_cons, ← Bool.decide_and]
          refine decide_eq_decide.2 ?_
          rw [mem_cons, not_or, and_comm]
        · exact absurd hs₁ hne
    · rw [if_pos hs]
      refine (ih hbs.2 t ht fun hs' => absurd hs' hs).mono fun t₂ h₂ => ?_
      exact { h₂ with pending := fun hs₂ => absurd (h₂.pending hs₂).1 hs }

theorem decideStaleBursts_ok (h : t.Ok) (except : Option BurstId) :
    (decideStaleBursts t env except).Yields (StaleDecided t (staleBursts t except)) := by
  have hsub : (staleBursts t except).Sublist t.m.custody.pendingBursts := filter_sublist
  refine decideEach_ok _ ((hsub.map _).nodup h.collecting.pending) t h fun _ b hb => ?_
  exact mem_map_of_mem (hsub.subset hb)

variable {m' : SessionMutation}

theorem ok_quiet (h : t.Ok) (hm : m'.custody = t.m.custody) :
    ({ t with m := m' } : SampleMutation κ ε).Ok := by
  show SamplesOk m'.custody _ _ _ _
  rw [hm]
  exact h

theorem later_quiet
    (hm : m'.custody.pendingBursts = t.m.custody.pendingBursts ∨ m'.custody.pendingBursts = []) :
    Later t { t with m := m' } := by
  refine ⟨(Later.refl t).frames, fun b hb => ⟨⟨hb.1, ?_⟩, rfl⟩⟩
  obtain hm | hm := hm
  · rw [Custody.pendingIds, hm]
    exact hb.2
  · rw [Custody.pendingIds, hm]
    exact not_mem_nil

theorem ok_eraseEmbeddings (h : t.Ok) (sel : IdentitySampleFrame κ ε → Bool) :
    ({ t with frames := eraseEmbeddings sel t.frames } : SampleMutation κ ε).Ok :=
  ⟨h.tables.mapFrames (keepsFrame_erase sel), h.collecting.mapFrames (keepsFrame_erase sel),
    h.evidence, h.used.mapFrames (keepsFrame_erase sel)⟩

theorem later_eraseEmbeddings (t : SampleMutation κ ε) (sel : IdentitySampleFrame κ ε → Bool) :
    Later t { t with frames := eraseEmbeddings sel t.frames } := by
  have hkeep := keepsFrame_erase sel
  refine ⟨fun f hf => ⟨_, mem_map_of_mem hf, hkeep.sampleId f, hkeep.burstId f, fun id hid => ?_⟩,
    fun b hb => ⟨⟨?_, hb.2⟩, rfl⟩⟩
  · exact (hkeep.identityCheckId f).trans hid
  · obtain ⟨f, hf, hfb⟩ := hb.1
    exact ⟨_, mem_map_of_mem hf, (hkeep.burstId f).trans hfb⟩

theorem unreceived_eraseEmbeddings (h : t.Unreceived q) (sel : IdentitySampleFrame κ ε → Bool) :
    ({ t with frames := eraseEmbeddings sel t.frames } : SampleMutation κ ε).Unreceived q := by
  refine ⟨h.checks, ?_⟩
  rw [eraseEmbeddings, (keepsFrame_erase sel).map_sampleId]
  exact h.frames

/-! ## A frame arrives -/

theorem later_insertFrame (t : SampleMutation κ ε) (f : IdentitySampleFrame κ ε) :
    Later t { t with frames := t.frames ++ [f] } := by
  refine ⟨fun g hg => ⟨g, mem_append_left _ hg, rfl, rfl, fun _ => id⟩,
    fun b hb => ⟨⟨?_, hb.2⟩, rfl⟩⟩
  obtain ⟨g, hg, hgb⟩ := hb.1
  exact ⟨g, mem_append_left _ hg, hgb⟩

theorem ok_insertLate (h : t.Ok) (hq : t.Unreceived f.sampleId)
    (hnone : f.identityCheckId = none) (hemb : f.embedding = none) :
    ({ t with frames := t.frames ++ [f] } : SampleMutation κ ε).Ok :=
  ⟨h.tables.insertFrame hq.frames hq.checks hnone, h.collecting.insertLate hnone hemb, h.evidence,
    h.used.insertFrame hq.checks⟩

theorem pendingIds_pend (t : SampleMutation κ ε) (p : PendingBurst) :
    (t.pend p).m.custody.pendingIds = t.m.custody.pendingIds ∧ p.id ∈ t.m.custody.pendingIds ∨
      (t.pend p).m.custody.pendingIds = t.m.custody.pendingIds ++ [p.id] ∧
        p.id ∉ t.m.custody.pendingIds := by
  have hany : (t.m.session.identityState.pendingBursts.any fun b => b.id == p.id) = true ↔
      p.id ∈ t.m.custody.pendingIds := by
    simp [Custody.pendingIds, SessionMutation.custody]
  by_cases hp : p.id ∈ t.m.custody.pendingIds
  · refine .inl ⟨?_, hp⟩
    show ((if _ then _ else _ : List PendingBurst).map _) = _
    rw [if_pos (hany.2 hp), map_map]
    refine map_congr_left fun b _ => ?_
    show (if _ then _ else _ : PendingBurst).id = _
    split
    next heq => exact heq.symm
    next => rfl
  · refine .inr ⟨?_, hp⟩
    show ((if _ then _ else _ : List PendingBurst).map _) = _
    rw [if_neg fun ha => hp (hany.1 ha), map_append]
    rfl

theorem ok_insertPending (h : t.Ok) {p : PendingBurst}
    (hq : t.Unreceived f.sampleId) (hs : t.m.session.status = .active)
    (hnone : f.identityCheckId = none) (hp : p.id = f.burstId)
    (hnew : p.id ∉ t.m.custody.pendingIds → ∀ g ∈ t.frames, g.burstId ≠ p.id) :
    (({ t with frames := t.frames ++ [f] } : SampleMutation κ ε).pend p).Ok ∧
      Later t (({ t with frames := t.frames ++ [f] } : SampleMutation κ ε).pend p) := by
  have hids := pendingIds_pend { t with frames := t.frames ++ [f] } p
  refine ⟨⟨h.tables.insertFrame hq.frames hq.checks hnone, ?_, h.evidence.change (.refl _),
    h.used.insertFrame hq.checks⟩, ?_⟩
  · refine h.collecting.insertPending hs hnone (hp ▸ hids.imp id fun hids => ⟨hids.1, hnew hids.2, ?_⟩)
    intro k hk hkb
    obtain ⟨g, hg, hgb⟩ := h.tables.known k hk _ hkb
    exact hnew hids.2 g hg hgb
  · have hlater := later_insertFrame t f
    refine ⟨hlater.frames, fun b hb => ⟨⟨(hlater.settled b hb).1.1, ?_⟩, rfl⟩⟩
    obtain ⟨heq, -⟩ | ⟨heq, hfresh⟩ := hids
    · rw [heq]
      exact hb.2
    · rw [heq, mem_append, mem_singleton, not_or]
      refine ⟨hb.2, ?_⟩
      rintro rfl
      obtain ⟨g, hg, hgb⟩ := hb.1
      exact hnew hfresh g hg hgb

theorem completeBurst_ok (h : t.Ok) {p : PendingBurst}
    {recordOnly : Bool} (hq : t.Unreceived f.sampleId) (hs : t.m.session.status = .active)
    (hnone : f.identityCheckId = none) (hp : p.id = f.burstId)
    (hnew : p.id ∉ t.m.custody.pendingIds → ∀ g ∈ t.frames, g.burstId ≠ p.id) :
    (decideBurst (({ t with frames := t.frames ++ [f] } : SampleMutation κ ε).pend p) env p
      (some f.sampleId) recordOnly).Yields fun r => r.1.Ok ∧ Later t r.1 := by
  obtain ⟨hok, hlater⟩ := ok_insertPending h hq hs hnone hp hnew
  have hmem : p.id ∈ (({ t with frames := t.frames ++ [f] } : SampleMutation κ ε).pend
      p).m.custody.pendingIds := by
    obtain ⟨heq, hold⟩ | ⟨heq, -⟩ := pendingIds_pend { t with frames := t.frames ++ [f] } p
    · rw [heq]
      exact hold
    · rw [heq]
      exact mem_append_right _ (mem_singleton_self _)
  have hown : f ∈ t.frames ++ [f] := mem_append_right _ (mem_singleton_self _)
  have hkey : KeyOf (t.frames ++ [f]) t.identityChecks p.id (.frame f.sampleId) :=
    .inr ⟨hq.checks, f, hown, rfl, hp.symm⟩
  exact (decideBurst_ok hok p (some f.sampleId) recordOnly hmem hkey).mono fun r hr =>
    ⟨hr.ok, hlater.trans hr.later⟩

theorem joinBurst_id (st : IdentityEngineState) (now : Int) (b : BurstId) (size index : Nat)
    (trigger : IdentityCheckTrigger) : (joinBurst st now b size index trigger).id = b := by
  have hfound : ((st.pendingBursts.find? fun p => p.id == b).getD
      { id := b, size, trigger, firstReceivedAt := now, indexes := [] }).id = b := by
    cases hf : st.pendingBursts.find? fun p => p.id == b with
    | none => rfl
    | some p => simpa using find?_some hf
  rw [joinBurst]
  split
  · exact hfound
  · exact hfound

theorem receiveFrame_ok {instanceId : InstanceId} {q : SampleInput} {image : AnalysedImage κ ε}
    {atMs : Int} {recordOnly : Bool} (h : t.Ok) (hq : t.Unreceived q.sampleId)
    (hrec : recordOnly = false → t.m.session.status = .active) :
    (receiveFrame t env instanceId q image atMs recordOnly b).Yields fun r =>
      r.1.Ok ∧ Later t r.1 := by
  have hpending : (t.m.session.identityState.pendingBursts.any fun p => p.id == b) = true ↔
      b ∈ t.m.custody.pendingIds := by
    simp [Custody.pendingIds, SessionMutation.custody]
  have hseen : (t.frames.any fun f => f.burstId == b) = true ↔ ∃ f ∈ t.frames, f.burstId = b := by
    simp
  refine .ite (fun hlate => .pure ⟨ok_insertLate h hq rfl (if_pos hlate), later_insertFrame t _⟩)
    fun hlate => ?_
  have hnew : b ∉ t.m.custody.pendingIds → recordOnly = false ∧ ∀ g ∈ t.frames, g.burstId ≠ b := by
    intro hb
    rw [Bool.and_eq_true, Bool.or_eq_true, hseen, Bool.not_eq_true', ← Bool.not_eq_true, hpending,
      not_and, not_or] at hlate
    obtain ⟨hnot, hunseen⟩ := hlate hb
    exact ⟨Bool.not_eq_true _ ▸ hnot, fun g hg hgb => hunseen ⟨g, hg, hgb⟩⟩
  have hs : t.m.session.status = .active := by
    by_cases hb : b ∈ t.m.custody.pendingIds
    · by_contra hs
      rw [Custody.pendingIds, h.collecting.inactive hs] at hb
      cases hb
    · exact hrec (hnew hb).1
  have hjoin := joinBurst_id t.m.session.identityState t.m.now b
    (max 1 (min 5 (q.burstSize.getD 1))).toNat
    (max 0 (min ((max 1 (min 5 (q.burstSize.getD 1))).toNat - 1 : Int) (q.burstIndex.getD 0))).toNat
    q.trigger
  generalize joinBurst _ _ _ _ _ _ = p at hjoin ⊢
  have hfresh : p.id ∉ t.m.custody.pendingIds → ∀ g ∈ t.frames, g.burstId ≠ p.id := by
    rw [hjoin]
    exact fun hb => (hnew hb).2
  refine .ite (fun _ => ?_) fun _ => .pure (ok_insertPending h hq hs rfl hjoin hfresh)
  exact (completeBurst_ok h hq hs rfl hjoin hfresh).bind fun r hr => .pure hr

theorem unreceived_of_findExisting (h : findExisting t q = none) :
    t.Unreceived q := by
  rw [findExisting] at h
  split at h
  · cases h
  next hchecks =>
    rw [Option.map_eq_none_iff] at h
    refine ⟨fun hmem => ?_, fun hmem => ?_⟩
    · obtain ⟨k, hk, hkey⟩ := mem_map.1 hmem
      have hno := find?_eq_none.1 hchecks k hk
      simp [hkey] at hno
    · obtain ⟨f, hf, hid⟩ := mem_map.1 hmem
      have hno := find?_eq_none.1 h f hf
      simp [hid] at hno

theorem processSample_ok {instanceId : InstanceId} {q : SampleInput} {image : AnalysedImage κ ε}
    (h : t.Ok) :
    (processSample t env instanceId q image).Yields fun r => r.1.Ok ∧ Later t r.1 := by
  rw [processSample]
  split
  next => exact .pure ⟨h, .refl t⟩
  next hnone =>
    have hq := unreceived_of_findExisting hnone
    have hheard : (noteHeard t.m).custody = t.m.custody := by
      rw [noteHeard]
      split
      · exact custody_setIdentityState_quiet _ _ rfl rfl
      · rfl
    have hok : ({ t with m := noteHeard t.m } : SampleMutation κ ε).Ok := ok_quiet h hheard
    have hlater : Later t { t with m := noteHeard t.m } := later_quiet (.inl (by rw [hheard]))
    refine Except.Yields.bind (P := fun _ => True) (fun _ _ => trivial) fun _ _ => ?_
    refine Except.Yields.bind (P := fun _ => True) (fun _ _ => trivial) fun recordOnly _ => ?_
    refine (decideStaleBursts_ok hok _).bind fun t₁ h₁ => ?_
    generalize isOrphan t₁.m.session.identityState.pendingBursts t₁.m.now = orphan
    have hok₂ := ok_eraseEmbeddings h₁.ok orphan
    have hlater₂ := (hlater.trans h₁.later).trans (later_eraseEmbeddings t₁ orphan)
    have hq₂ := unreceived_eraseEmbeddings (h₁.unreceived _ ⟨hq.checks, hq.frames⟩) orphan
    have hrec : (recordOnly || decide (t₁.m.session.status ≠ .active)) = false →
        t₁.m.session.status = .active := by
      simp
    split
    · exact (receiveFrame_ok hok₂ hq₂ hrec).mono fun r hr => ⟨hr.1, hlater₂.trans hr.2⟩
    · refine (decideSample_ok hok₂ rfl rfl rfl hq₂.checks hq₂.frames).bind fun r hr => .pure ?_
      exact ⟨hr.1, hlater₂.trans hr.2⟩

/-! ## The sweeper, the second opinion and the other requests -/

theorem sweepBursts_ok (h : t.Ok) {sweptAt : Int} {env : Option (SampleEnv κ ε)} :
    (sweepBursts t sweptAt env).Yields fun t' => t'.Ok ∧ Later t t' := by
  refine .ite (fun _ => .ok ⟨h, .refl t⟩) fun _ => ?_
  split
  · refine .ok ⟨⟨h.tables, h.collecting.change ⟨.inr rfl, fun _ _ => .inr (.inl rfl)⟩,
      h.evidence.change (.refl _), h.used⟩, later_quiet (.inr rfl)⟩
  · exact (decideStaleBursts_ok h none).mono fun t' ht => ⟨ht.ok, ht.later⟩

theorem ok_weighed (h : t.Ok) (hw : t.m.custody.Weighed m'.custody t.m.custody.evidence.samples) :
    ({ t with m := m' } : SampleMutation κ ε).Ok ∧ Later t { t with m := m' } := by
  have hsub : m'.custody.evidence.samples.Subperm t.m.custody.evidence.samples := by
    obtain ⟨acc, hacc, heq⟩ | ⟨heq, -⟩ := hw
    · rw [heq]
      exact hacc
    · rw [heq]
      exact nil_subperm
  refine ⟨⟨h.tables, h.collecting.weighed hw, h.evidence.change hsub, h.used⟩, later_quiet ?_⟩
  exact (pendingIds_weighed hw).imp And.left And.left

theorem drops_move {d : Deed} (hm : c.Move d c') {bs : List PendingBurst}
    (hinactive : c.status ≠ .active → c.pendingBursts = [])
    (h : c.pendingBursts = bs ∨ c.pendingBursts = [] ∧ ∀ p ∈ bs, c.Dooms p.id) :
    (c'.status ≠ .active → c'.pendingBursts = []) ∧
      (c'.pendingBursts = bs ∨ c'.pendingBursts = [] ∧ ∀ p ∈ bs, c'.Dooms p.id) ∧
      c'.evidence.samples.Subperm c.evidence.samples := by
  have hdropped : ∀ p ∈ bs, c.Dooms p.id ∨ p ∈ c.pendingBursts := by
    intro p hp
    obtain rfl | ⟨-, hd⟩ := h
    · exact .inr hp
    · exact .inl (hd p hp)
  have hdrop : ∀ p ∈ bs, c.dropBursts.Dooms p.id := by
    intro p hp
    obtain (he | hd) | hp := hdropped p hp
    · exact .inl he
    · exact .inr (mem_append_left _ hd)
    · exact .inr (mem_append_right _ (mem_map_of_mem hp))
  have hnil : ([] : List SampleId).Subperm c.evidence.samples := nil_subperm
  cases hm
  case hold | pause => exact ⟨fun _ => rfl, .inr ⟨rfl, hdrop⟩, hnil⟩
  case finish => exact ⟨fun _ => rfl, .inr ⟨rfl, fun _ _ => .inl rfl⟩, .refl _⟩
  case start | releaseActive => exact ⟨fun hs => absurd rfl hs, .inr ⟨rfl, hdrop⟩, hnil⟩
  case reopenOnHold => exact ⟨fun _ => rfl, .inr ⟨rfl, hdrop⟩, hnil⟩
  case release st hs hst => exact ⟨fun _ => hinactive (by rw [hs]; decide), h, .refl _⟩
  case reopenToCheckIn hs =>
    refine ⟨fun _ => hinactive ?_, h, .refl _⟩
    intro ha
    rw [ha] at hs
    exact absurd hs (by decide)
  case ready hs => exact ⟨fun _ => hinactive (by rw [hs]; decide), h, .refl _⟩
  case resume purpose st _ _ hst =>
    rw [Custody.resume_eq]
    obtain ⟨rfl, hs⟩ | rfl := hst
    · exact ⟨fun _ => hinactive (by rw [hs]; decide), h, .refl _⟩
    · exact ⟨fun hs => absurd rfl hs, .inr ⟨rfl, hdrop⟩, hnil⟩
  all_goals exact ⟨hinactive, h, .refl _⟩

theorem request_ok (h : t.Ok) (hfresh : ∀ b, ¬ t.m.custody.Dooms b) (op : Op) :
    (op.run t.m).Yields fun m' =>
      ({ t with m := m' } : SampleMutation κ ε).Ok ∧ Later t { t with m := m' } := by
  refine (deeds_run op).mono fun m' hdeeds => ?_
  obtain ⟨hinactive, hbursts, hsub⟩ := hdeeds.invariant
    (I := fun c => (c.status ≠ .active → c.pendingBursts = []) ∧
      (c.pendingBursts = t.m.custody.pendingBursts ∨
        c.pendingBursts = [] ∧ ∀ p ∈ t.m.custody.pendingBursts, c.Dooms p.id) ∧
      c.evidence.samples.Subperm t.m.custody.evidence.samples)
    (fun _ hc hm => by
      obtain ⟨hin, hb, hs⟩ := drops_move hm hc.1 hc.2.1
      exact ⟨hin, hb, hs.trans hc.2.2⟩)
    ⟨h.collecting.inactive, .inl rfl, .refl _⟩
  have hdrops : Drops t.m.custody m'.custody := by
    refine ⟨?_, fun b hb => ?_⟩
    · exact hbursts.imp (fun heq => ⟨heq, hinactive⟩) And.left
    · obtain ⟨p, hp, rfl⟩ := mem_map.1 (hb.resolve_right (hfresh b))
      obtain heq | ⟨-, hdoomed⟩ := hbursts
      · exact .inl (mem_map_of_mem (heq ▸ hp))
      · exact .inr (hdoomed p hp)
  exact ⟨⟨h.tables, h.collecting.change hdrops, h.evidence.change hsub, h.used⟩,
    later_quiet (hbursts.imp_right And.left)⟩

/-- What holds between transactions: only frames of bursts that are being collected have
embeddings. -/
structure SampleMutation.Kept (t : SampleMutation κ ε) : Prop where
  ok : t.Ok
  erased : ∀ f ∈ t.frames, f.embedding.isSome = true → f.burstId ∈ t.m.custody.pendingIds

theorem SampleMutation.Kept.lock (h : t.Kept) (r : SampleTransaction κ ε) :
    (t.lock r).Ok ∧ Later t (t.lock r) ∧ ∀ b, ¬ (t.lock r).m.custody.Dooms b := by
  refine ⟨⟨h.ok.tables, ?_, h.ok.evidence.change (.refl _), h.ok.used⟩, later_quiet (.inl rfl),
    fun b => ?_⟩
  · have hc := h.ok.collecting
    refine { hc with embedded := fun f hf hemb => ?_ }
    exact ⟨(hc.embedded f hf hemb).1, .inl (h.erased f hf hemb)⟩
  · rintro (he | hd)
    · cases he
    · cases hd

theorem run_ok (h : t.Ok) (hfresh : ∀ b, ¬ t.m.custody.Dooms b) (op : SampleOp κ ε) :
    (op.run t).Yields fun t' => t'.Ok ∧ Later t t' := by
  cases op with
  | request op => exact (request_ok h hfresh op).map
  | sample => exact (processSample_ok h).fst
  | sweep => exact sweepBursts_ok h
  | secondOpinion =>
    rw [SampleOp.run]
    split
    · exact (weighed_resolveSwapSecondOpinion.mono fun m' hm => ok_weighed h hm).map
    · exact .ok ⟨h, .refl t⟩
  | eraseOrphans => exact .ok ⟨ok_eraseEmbeddings h _, later_eraseEmbeddings t _⟩

theorem flush_kept (h : t.Ok) (before : SampleMutation κ ε) :
    (before.flush t).Kept ∧ Later t (before.flush t) := by
  have hflush : (before.m.flush t.m).custody = t.m.custody := custody_flush _ _
  generalize hsel : (fun f : IdentitySampleFrame κ ε => t.m.eraseAllUndecidedFrames ||
    decide (f.burstId ∈ t.m.droppedBurstIds)) = sel
  have hdoomed : ∀ f, t.m.custody.Dooms f.burstId → sel f = true := by
    rintro f (he | hd)
    · rw [← hsel]
      show (t.m.custody.eraseAllUndecidedFrames || _) = true
      rw [he, Bool.true_or]
    · rw [← hsel]
      show (_ || decide (f.burstId ∈ t.m.custody.droppedBurstIds)) = true
      rw [decide_eq_true hd, Bool.or_true]
  have hok := ok_eraseEmbeddings h sel
  have hlater := later_eraseEmbeddings t sel
  have heq : before.flush t =
      { t with m := before.m.flush t.m, frames := eraseEmbeddings sel t.frames } := by
    rw [SampleMutation.flush, hsel]
  rw [heq]
  refine ⟨⟨ok_quiet hok hflush, fun f hf hemb => ?_⟩,
    hlater.trans (later_quiet (.inl (by rw [hflush])))⟩
  rw [hflush]
  obtain ⟨f₀, hf₀, rfl⟩ := mem_map.1 hf
  have hkeep := keepsFrame_erase sel
  obtain ⟨hundecided, hwhere⟩ := h.collecting.embedded f₀ hf₀ (hkeep.embedding f₀ hemb)
  rw [hkeep.burstId]
  refine hwhere.resolve_right fun hd => ?_
  rw [if_pos ⟨hundecided, hdoomed f₀ hd⟩] at hemb
  cases hemb

/-- **What every transaction keeps.** -/
theorem sampleStep_kept (h : t.Kept) (r : SampleTransaction κ ε) :
    (sampleStep r t).Kept ∧ Later t (sampleStep r t) := by
  obtain ⟨hok, hlater, hfresh⟩ := h.lock r
  rw [sampleStep]
  split
  next t' ht =>
    obtain ⟨hok', hlater'⟩ := run_ok hok hfresh r.op t' ht
    obtain ⟨hkept, hflushed⟩ := flush_kept hok' (t.lock r)
    exact ⟨hkept, (hlater.trans hlater').trans hflushed⟩
  next =>
    refine ⟨⟨hok, fun f hf hemb => ?_⟩, hlater⟩
    exact h.erased f hf hemb

theorem samplesOk_nil (hb : c.pendingBursts = []) (he : c.evidence.samples = []) :
    SamplesOk c ([] : List (IdentitySampleFrame κ ε)) [] [] [] := by
  have hids : c.pendingIds = [] := by rw [Custody.pendingIds, hb, map_nil]
  refine ⟨⟨.nil, .nil, rfl, .nil, ?_, ?_, ?_, ?_⟩, ⟨?_, fun _ => hb, ?_, ?_, ?_, ?_⟩,
    ⟨.nil, ?_, ?_, ?_⟩,
    ⟨.nil, ?_⟩⟩
  any_goals exact forall_mem_nil _
  · rw [hids]
    exact .nil
  any_goals
    rw [hids]
    exact forall_mem_nil _
  · rw [he]
    exact .nil
  · rw [he]
    exact nil_subset _

theorem kept (h : (sampling κ ε).Reachable t) : t.Kept := by
  refine h.invariant (I := SampleMutation.Kept) (fun t ht => ?_) fun t r _ _ ht =>
    (sampleStep_kept ht r).1
  obtain ⟨m, ⟨now, rules, durationSec, records, window, rfl⟩, rfl⟩ := ht
  exact ⟨samplesOk_nil rfl rfl, forall_mem_nil _⟩

theorem later_run (h : (sampling κ ε).Reachable t) {rs : List (SampleTransaction κ ε)}
    (hrs : (sampling κ ε).Admits t rs) : Later t ((sampling κ ε).run t rs) := by
  induction rs generalizing t with
  | nil => exact .refl t
  | cons r rs ih =>
    exact (sampleStep_kept (kept h) r).2.trans (ih (h.step r hrs.1) hrs.2)

end SmartProctoring
