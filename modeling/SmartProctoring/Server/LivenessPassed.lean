import SmartProctoring.Server.Liveness

/-!
# What a passed liveness challenge shows

A challenge passes when no reason was collected against it and every result is set to passed.  From
the reasons follow the facts about all frames, the order and the images; from the results, that no
two steps share an index and that each has a qualifying frame.  Nothing is assumed of the square
root.
-/

set_option autoImplicit false

namespace SmartProctoring

open List

variable {K : Type} [Field K] [LinearOrder K] {sqrt : K → K}
  {spec : LivenessChallengeSpec K} {o : LivenessOptions K} {frames frontal : List (LivenessFrame K)}
  {template : Option (List K)} {s : LivenessStep}

/-! ## One step -/

/-- A frame of the window that shows one face in time, the person's, and the change `need`. -/
structure Reaches (sqrt : K → K) (spec : LivenessChallengeSpec K) (o : LivenessOptions K)
    (template : Option (List K)) (centre : Pose2 K) (action : LivenessAction) (need : K)
    (f : LivenessFrame K) : Prop where
  face : singleFace f.analysis = true
  inTime : inWindow spec o f = true
  same : identityOk sqrt o template f = .ok true
  change : need ≤ (stepDelta action f.pose centre).directional

/-- The head moved far enough in the frame: by the required change, or by the reduced one, which two
frames of the window reach. -/
def Turned (sqrt : K → K) (spec : LivenessChallengeSpec K) (o : LivenessOptions K)
    (template : Option (List K))
    (centre : Pose2 K) (window : List (LivenessFrame K)) (action : LivenessAction)
    (f : LivenessFrame K) : Prop :=
  requiredChange action spec o ≤ (stepDelta action f.pose centre).directional ∨
    ∃ need, need = min (requiredChange action spec o) (o.agreeingFractionOfTarget * targetOf action spec) ∧
      need ≤ (stepDelta action f.pose centre).directional ∧
      ∃ g g', [g, g'].Subperm window ∧ Reaches sqrt spec o template centre action need g ∧
        Reaches sqrt spec o template centre action need g'

/-- What is known of the frames of a step. -/
structure UsableOf (sqrt : K → K) (spec : LivenessChallengeSpec K) (o : LivenessOptions K)
    (template : Option (List K)) (window : List (LivenessFrame K))
    (usable : List (LivenessFrame K × Bool)) : Prop where
  frames : usable.map (·.1) = window.filter fun f => singleFace f.analysis && inWindow spec o f
  same : ∀ p ∈ usable, identityOk sqrt o template p.1 = .ok p.2

theorem usableOf_usableFrames {window : List (LivenessFrame K)} :
    (usableFrames sqrt spec o template window).Yields (UsableOf sqrt spec o template window) := by
  have hmap : (usableFrames sqrt spec o template window).Yields (List.Forall₂
      (fun f (p : LivenessFrame K × Bool) => p.1 = f ∧ identityOk sqrt o template f = .ok p.2)
      (window.filter fun f => singleFace f.analysis && inWindow spec o f)) := by
    refine Except.Yields.mapM fun f _ => ?_
    have hsame : (identityOk sqrt o template f).Yields fun b => identityOk sqrt o template f = .ok b :=
      fun b hb => hb
    exact hsame.bind fun b hb => Except.Yields.pure ⟨rfl, hb⟩
  refine hmap.mono fun usable h => ⟨?_, ?_⟩
  · generalize (window.filter fun f => singleFace f.analysis && inWindow spec o f) = l at h
    induction h with
    | nil => rfl
    | cons hp _ ih => rw [map_cons, ih, hp.1]
  · intro p hp
    generalize (window.filter fun f => singleFace f.analysis && inWindow spec o f) = l at h
    induction h with
    | nil => simp at hp
    | cons hq _ ih =>
      rcases mem_cons.1 hp with rfl | hp
      · rw [hq.1]
        exact hq.2
      · exact ih hp

section Usable

variable {window : List (LivenessFrame K)} {usable : List (LivenessFrame K × Bool)}
  {centre : Pose2 K} {action : LivenessAction}

theorem UsableOf.mem (h : UsableOf sqrt spec o template window usable) {p : LivenessFrame K × Bool}
    (hp : p ∈ usable) : p.1 ∈ window ∧ singleFace p.1.analysis = true ∧
    inWindow spec o p.1 = true := by
  have hmem : p.1 ∈ usable.map (·.1) := mem_map_of_mem hp
  rw [h.frames, mem_filter, Bool.and_eq_true] at hmem
  exact hmem

theorem mostCentred_mem {p : LivenessFrame K × Bool} (h : mostCentred centre usable = some p) :
    p ∈ usable := by
  suffices hfold : ∀ (l : List (LivenessFrame K × Bool)) (best : Option (LivenessFrame K × Bool)),
      l ⊆ usable → (∀ q ∈ best, q ∈ usable) → ∀ q ∈ l.foldl (fun best f =>
        if best.all fun b => decide (deviation centre f.1 < deviation centre b.1) then some f else best) best,
        q ∈ usable from
    hfold usable none (List.Subset.refl _) (by simp) p h
  intro l
  induction l with
  | nil => exact fun _ _ hbest => hbest
  | cons f l ih =>
    intro best hl hbest
    rw [cons_subset] at hl
    refine ih _ hl.2 fun q hq => ?_
    dsimp only at hq
    split at hq
    · obtain rfl := Option.some.inj hq
      exact hl.1
    · exact hbest q hq

theorem centreOutcome_passed (hp : (centreOutcome o centre usable).passed = true) :
    ∃ f, (centreOutcome o centre usable).qualifying = some f ∧ (f, true) ∈ usable := by
  rw [centreOutcome] at hp ⊢
  split at hp
  next => simp [StepOutcome.fail] at hp
  next f same hbest =>
    split at hp
    next hok =>
      rw [if_pos hok]
      refine ⟨f, rfl, ?_⟩
      have hmem := mostCentred_mem hbest
      rwa [hok.2] at hmem
    next => simp [StepOutcome.fail] at hp

theorem mem_measuredFrames {q : LivenessFrame K × StepDelta K}
    (h : q ∈ measuredFrames action centre usable) :
    (q.1, true) ∈ usable ∧ q.2 = stepDelta action q.1.pose centre := by
  rw [measuredFrames, mem_insertionSort, mem_map] at h
  obtain ⟨p, hp, rfl⟩ := h
  obtain ⟨hmem, htrue⟩ := mem_filter.1 hp
  refine ⟨?_, rfl⟩
  change (p.1, true) ∈ usable
  rwa [← htrue]

theorem measuredFrames_sorted :
    (measuredFrames action centre usable).Pairwise fun a b => b.2.directional ≤ a.2.directional := by
  exact pairwise_insertionSort _ _

variable (action centre) in
theorem measuredFrames_subperm (h : UsableOf sqrt spec o template window usable) :
    ((measuredFrames action centre usable).map (·.1)).Subperm window := by
  have hperm : ((measuredFrames action centre usable).map (·.1)).Perm ((usable.filter (·.2)).map (·.1)) := by
    rw [measuredFrames]
    refine ((perm_insertionSort _ _).map _).trans ?_
    rw [map_map]
    rfl
  have hsub : ((usable.filter (·.2)).map (·.1)).Sublist window :=
    (filter_sublist.map _).trans (h.frames ▸ filter_sublist)
  exact hperm.subperm.trans hsub.subperm

omit [Field K] in
theorem measured_le {m : List (LivenessFrame K × StepDelta K)} {i k : Nat}
    {p q : LivenessFrame K × StepDelta K}
    (hm : m.Pairwise fun a b => b.2.directional ≤ a.2.directional)
    (hq : m[i]? = some q) (hp : m[k]? = some p) (hik : i ≤ k) :
    p.2.directional ≤ q.2.directional := by
  obtain ⟨hi, rfl⟩ := List.getElem?_eq_some_iff.1 hq
  obtain ⟨hk, rfl⟩ := List.getElem?_eq_some_iff.1 hp
  rcases hik.lt_or_eq with hlt | rfl
  · exact pairwise_iff_getElem.1 hm i k hi hk hlt
  · exact le_rfl

variable [FloorRing K] {fr : Frontal K}

theorem two_of_agreeing {α : Type} {m : List α} (h : 2 ≤ agreeing o m.length) :
    ∃ a b rest, m = a :: b :: rest := by
  have hlen : 2 ≤ m.length := by
    rw [agreeing] at h
    omega
  match m, hlen with
  | a :: b :: rest, _ => exact ⟨a, b, rest, rfl⟩

theorem moveOutcome_passed (h : UsableOf sqrt spec o template window usable)
    (hp : (moveOutcome spec o fr action usable).passed = true) :
    ∃ f, (moveOutcome spec o fr action usable).qualifying = some f ∧ (f, true) ∈ usable ∧
      Turned sqrt spec o template fr.centre window action f := by
  set m := measuredFrames action fr.centre usable with hm
  cases hk : m[agreeing o m.length - 1]? with
  | none => simp [moveOutcome, ← hm, hk, StepOutcome.fail] at hp
  | some q =>
    obtain ⟨f, d⟩ := q
    simp only [moveOutcome, ← hm, hk] at hp ⊢
    split at hp
    next => simp [StepOutcome.fail] at hp
    next hneed =>
      rw [if_neg hneed]
      split at hp
      next => simp [StepOutcome.fail] at hp
      next hclient =>
        rw [if_neg hclient]
        obtain ⟨hmem, hd⟩ := mem_measuredFrames (mem_of_getElem? hk)
        dsimp only at hmem hd
        refine ⟨f, rfl, hmem, ?_⟩
        rw [hd, not_lt] at hneed
        by_cases htwo : 2 ≤ agreeing o m.length
        · rw [needOf, if_pos htwo] at hneed
          refine .inr ⟨_, rfl, hneed, ?_⟩
          have hreach : ∀ i q, m[i]? = some q → i ≤ agreeing o m.length - 1 →
              Reaches sqrt spec o template fr.centre action
                (min (requiredChange action spec o) (o.agreeingFractionOfTarget * targetOf action spec))
                q.1 := by
            intro i q hq hle
            obtain ⟨husable, hdelta⟩ := mem_measuredFrames (mem_of_getElem? hq)
            obtain ⟨-, hface, htime⟩ := h.mem husable
            refine ⟨hface, htime, h.same _ husable, hneed.trans ?_⟩
            rw [← hdelta, ← hd]
            exact measured_le measuredFrames_sorted hq hk hle
          obtain ⟨a, b, rest, hab⟩ : ∃ a b rest, m = a :: b :: rest := two_of_agreeing htwo
          refine ⟨a.1, b.1, ?_, hreach 0 a (by simp [hab]) (by omega), hreach 1 b (by simp [hab]) (by omega)⟩
          refine List.Subperm.trans ?_ (measuredFrames_subperm fr.centre action h)
          rw [← hm, hab]
          exact (List.Sublist.cons_cons _ (List.Sublist.cons_cons _ (nil_sublist _))).subperm
        · rw [needOf, if_neg htwo] at hneed
          exact .inl hneed

end Usable

section Steps

variable [FloorRing K]

/-- `f` qualifies for the step: it is one of the frames looked at, shows the action asked for, one
face and the person, and the head has moved far enough in it. -/
structure Qualifies (sqrt : K → K) (spec : LivenessChallengeSpec K) (o : LivenessOptions K)
    (frames : List (LivenessFrame K)) (template : Option (List K)) (centre : Pose2 K)
    (s : LivenessStep) (f : LivenessFrame K) : Prop where
  window : f ∈ stepFrames o frames s
  action : f.action = s.action
  face : singleFace f.analysis = true
  same : identityOk sqrt o template f = .ok true
  turned : ∀ a, s.action = .move a → Turned sqrt spec o template centre (stepFrames o frames s) a f

/-- **A step** that passes has a qualifying frame. -/
theorem verifyStep_passed : (verifyStep sqrt spec o frames frontal template s).Yields fun r =>
    r.1.passed = true → ∃ centre f, frontalCentre o frontal = some centre ∧
      r.1.qualifying = some f ∧ Qualifies sqrt spec o frames template centre s f := by
  have hfail : ∀ {m reason} {l : List LivenessReason}, (pure (StepOutcome.fail m reason, l) :
      Except EmbeddingError (StepOutcome K × List LivenessReason)).Yields fun r => r.1.passed = true →
        ∃ centre f, frontalCentre o frontal = some centre ∧ r.1.qualifying = some f ∧
          Qualifies sqrt spec o frames template centre s f := fun {m reason l} =>
    Except.Yields.pure fun h => by simp [StepOutcome.fail] at h
  refine Except.Yields.ite (fun _ => hfail) fun _ => ?_
  refine Except.Yields.ite (fun _ => hfail) fun haction => ?_
  refine usableOf_usableFrames.bind fun usable husable => ?_
  refine Except.Yields.ite (fun _ => hfail) fun _ => ?_
  have haction : ∀ f ∈ stepFrames o frames s, f.action = s.action := by simpa using haction
  have hqualifies : ∀ {f centre}, (f, true) ∈ usable →
      (∀ a, s.action = .move a → Turned sqrt spec o template centre (stepFrames o frames s) a f) →
      Qualifies sqrt spec o frames template centre s f := by
    intro f centre hf hturned
    obtain ⟨hwindow, hface, -⟩ := husable.mem hf
    exact ⟨hwindow, haction f hwindow, hface, husable.same _ hf, hturned⟩
  cases hcentre : frontalCentre o frontal with
  | none => exact Except.Yields.pure fun h => by simp [StepOutcome.fail] at h
  | some centre =>
    cases hs : s.action with
    | center =>
      refine Except.Yields.pure fun hp => ?_
      obtain ⟨f, hq, hf⟩ := centreOutcome_passed hp
      exact ⟨centre, f, rfl, hq, hqualifies hf fun a ha => by simp [hs] at ha⟩
    | move action =>
      refine Except.Yields.pure fun hp => ?_
      obtain ⟨f, hq, hf, hturned⟩ := moveOutcome_passed husable hp
      refine ⟨centre, f, rfl, hq, hqualifies hf fun a ha => ?_⟩
      obtain rfl : action = a := by simpa [hs] using ha
      exact hturned

/-! ## The results -/

/-- Of several results with an index only the first is ever set. -/
def FirstOnly (rs : List (StepResult K)) : Prop :=
  rs.Pairwise fun a b => b.index = a.index → b.passed = false

variable {index : Int} {passed : Bool} {measured : Option K} {reason : Option (StepReason K)}

theorem index_setStep (rs : List (StepResult K)) :
    (setStep index passed measured reason rs).map (·.index) = rs.map (·.index) := by
  induction rs with
  | nil => rfl
  | cons r rs ih =>
    rw [setStep]
    split
    · rfl
    · rw [map_cons, ih, map_cons]

variable {rs : List (StepResult K)}

theorem mem_setStep {r : StepResult K} (h : r ∈ setStep index passed measured reason rs) :
    r ∈ rs ∨ r.index = index ∧ r.passed = passed := by
  induction rs with
  | nil => simp [setStep] at h
  | cons x rs ih =>
    rw [setStep] at h
    split at h
    next hx =>
      rcases mem_cons.1 h with rfl | h
      · exact .inr ⟨hx, rfl⟩
      · exact .inl (mem_cons_of_mem _ h)
    next =>
      rcases mem_cons.1 h with rfl | h
      · exact .inl mem_cons_self
      · exact (ih h).imp_left (mem_cons_of_mem _)

theorem FirstOnly.setStep (h : FirstOnly rs) :
    FirstOnly (setStep index passed measured reason rs) := by
  induction rs with
  | nil => exact h
  | cons r rs ih =>
    rw [FirstOnly, pairwise_cons] at h
    rw [SmartProctoring.setStep]
    split
    next => exact pairwise_cons.2 ⟨h.1, h.2⟩
    next hne =>
      refine pairwise_cons.2 ⟨fun b hb heq => ?_, ih h.2⟩
      rcases mem_setStep hb with hb | ⟨hb, -⟩
      · exact h.1 b hb heq
      · exact absurd (heq.symm.trans hb) hne

/-- What is known of the results when some steps were looked at. -/
structure ResultsOf (steps : List LivenessStep) (looked : List (LivenessStep × StepOutcome K))
    (rs : List (StepResult K)) : Prop where
  index : rs.map (·.index) = steps.map (·.index)
  first : FirstOnly rs
  passed : ∀ r ∈ rs, r.passed = true → ∃ p ∈ looked, p.1.index = r.index ∧ p.2.passed = true

theorem resultsOf_stepResults (steps : List LivenessStep)
    (outcomes : List (LivenessStep × StepOutcome K)) :
    ResultsOf steps outcomes (stepResults steps outcomes) := by
  have hfold : ∀ (l looked : List (LivenessStep × StepOutcome K)) (rs : List (StepResult K)),
      ResultsOf steps looked rs → ResultsOf steps (looked ++ l)
        (l.foldl (fun rs p => setStep p.1.index p.2.passed p.2.measured p.2.reason rs) rs) := by
    intro l
    induction l with
    | nil => simp
    | cons p l ih =>
      intro looked rs h
      have hnext : ResultsOf steps (looked ++ [p]) (setStep p.1.index p.2.passed p.2.measured p.2.reason rs) := by
        refine ⟨(index_setStep rs).trans h.index, h.first.setStep, fun r hr hp => ?_⟩
        rcases mem_setStep hr with hr | ⟨hindex, hpassed⟩
        · obtain ⟨q, hq, hqr⟩ := h.passed r hr hp
          exact ⟨q, mem_append_left _ hq, hqr⟩
        · exact ⟨p, by simp, hindex.symm, hpassed ▸ hp⟩
      have := ih _ _ hnext
      rwa [append_assoc] at this
  refine hfold outcomes [] _ ⟨?_, ?_, fun r hr hp => ?_⟩
  · rw [map_map]
    rfl
  · refine pairwise_map.2 (pairwise_of_forall fun a b _ => rfl)
  · obtain ⟨s, -, rfl⟩ := mem_map.1 hr
    simp [initialResult] at hp

variable {steps : List LivenessStep}

omit [Field K] [LinearOrder K] [FloorRing K] in
theorem ResultsOf.nodup {looked : List (LivenessStep × StepOutcome K)}
    (h : ResultsOf steps looked rs) (hp : ∀ r ∈ rs, r.passed = true) :
    (steps.map (·.index)).Nodup := by
  rw [← h.index, List.Nodup, pairwise_map]
  refine List.Pairwise.imp_of_mem (fun {a b} _ hb hab heq => ?_) h.first
  rw [hp b hb] at hab
  simpa using hab heq.symm

omit [Field K] [LinearOrder K] [FloorRing K] in
theorem ResultsOf.outcome {looked : List (LivenessStep × StepOutcome K)}
    (h : ResultsOf steps looked rs) (hsteps : looked.map (·.1) = steps)
    (hp : ∀ r ∈ rs, r.passed = true) : ∀ p ∈ looked, p.2.passed = true := by
  intro p hpl
  have hnodup : (looked.map fun p => p.1.index).Nodup := by
    have := h.nodup hp
    rwa [← hsteps, map_map] at this
  have hindex : p.1.index ∈ rs.map (·.index) := by
    rw [h.index, ← hsteps]
    exact mem_map_of_mem (mem_map_of_mem hpl)
  obtain ⟨r, hr, hri⟩ := mem_map.1 hindex
  obtain ⟨q, hq, hqi, hqp⟩ := h.passed r hr (hp r hr)
  obtain rfl : p = q := inj_on_of_nodup_map hnodup hpl hq (hri.symm.trans hqi.symm)
  exact hqp

/-! ## The qualifying frames -/

theorem mapSet_of_fresh {κ α : Type} [DecidableEq κ] {k : κ} {x : α} {ps : List (κ × α)}
    (h : k ∉ ps.map (·.1)) : mapSet k x ps = ps ++ [(k, x)] := by
  induction ps with
  | nil => rfl
  | cons p ps ih =>
    rw [map_cons, mem_cons, not_or] at h
    rw [mapSet, if_neg (Ne.symm h.1), ih h.2, cons_append]

variable {q : List (LivenessStep × LivenessFrame K)}

omit [Field K] [LinearOrder K] [FloorRing K] in
theorem qualifyingFrames_eq {outcomes : List (LivenessStep × StepOutcome K)}
    (hnodup : (q.map fun p => p.1.index).Nodup)
    (h : List.Forall₂ (fun p c => p.1 = c.1 ∧ p.2.qualifying = some c.2) outcomes q) :
    qualifyingFrames outcomes = q.map fun p => (p.1.index, p.2) := by
  have hfold : ∀ (acc : List (Int × LivenessFrame K)),
      (acc.map (·.1) ++ q.map fun p => p.1.index).Nodup →
      outcomes.foldl (fun q p => p.2.qualifying.elim q fun f => mapSet p.1.index f q) acc =
        acc ++ q.map fun p => (p.1.index, p.2) := by
    clear hnodup
    induction h with
    | nil => simp
    | @cons p c outcomes q hpc _ ih =>
      intro acc hacc
      have hfresh : p.1.index ∉ acc.map (·.1) := by
        intro hmem
        rw [map_cons, nodup_append] at hacc
        exact hacc.2.2 _ hmem _ mem_cons_self (by rw [hpc.1])
      rw [foldl_cons, hpc.2, Option.elim_some, mapSet_of_fresh hfresh, ih]
      · rw [append_assoc, hpc.1]
        rfl
      · rw [map_append, append_assoc, hpc.1]
        simpa using hacc
  simpa [qualifyingFrames] using hfold [] (by simpa using hnodup)

omit [Field K] [LinearOrder K] [FloorRing K] in
theorem mapGet_map_of_nodup
    (hnodup : (q.map fun p => p.1.index).Nodup) {p : LivenessStep × LivenessFrame K} (hp : p ∈ q) :
    mapGet (q.map fun p => (p.1.index, p.2)) p.1.index = some p.2 := by
  induction q with
  | nil => simp at hp
  | cons c q ih =>
    rw [map_cons, nodup_cons] at hnodup
    rcases mem_cons.1 hp with rfl | hp
    · simp [mapGet]
    · have hne : c.1.index ≠ p.1.index := fun heq =>
        hnodup.1 (heq ▸ mem_map_of_mem hp)
      have := ih hnodup.2 hp
      rw [mapGet] at this ⊢
      rw [map_cons, find?_cons_of_neg (by simpa using hne)]
      exact this

/-! ## The order -/

/-- **The order check.**  If no step came too early, the results are as they were, and no qualifying
frame is older than one of an earlier step. -/
theorem orderStep_foldl {qualifying : List (Int × LivenessFrame K)} (steps : List LivenessStep)
    {p : OrderPass K} (h : (steps.foldl (orderStep qualifying) p).outOfOrder = false) :
    p.outOfOrder = false ∧ (steps.foldl (orderStep qualifying) p).results = p.results ∧
      (∀ t ∈ p.lastTime, ∀ f ∈ steps.filterMap fun s => mapGet qualifying s.index, t ≤ f.capturedAt) ∧
      (steps.filterMap fun s => mapGet qualifying s.index).Pairwise
        fun f g => f.capturedAt ≤ g.capturedAt := by
  induction steps generalizing p with
  | nil => exact ⟨h, rfl, by simp, List.Pairwise.nil⟩
  | cons s steps ih =>
    rw [foldl_cons] at h ⊢
    obtain ⟨hout, hres, htimes, hpair⟩ := ih h
    cases hq : mapGet qualifying s.index with
    | none =>
      have hstep : orderStep qualifying p s = p := by simp only [orderStep, hq]
      rw [hstep] at hout hres htimes ⊢
      simp only [filterMap_cons, hq]
      exact ⟨hout, hres, htimes, hpair⟩
    | some f =>
      have hlate : p.outOfOrder = false ∧ p.lastTime.any (fun t => decide (f.capturedAt < t)) = false := by
        simpa [orderStep, hq] using hout
      have hstep : orderStep qualifying p s =
          ⟨some (p.lastTime.elim f.capturedAt (max · f.capturedAt)), p.results, false⟩ := by
        simp only [orderStep, hq, hlate, Bool.false_eq_true, if_false, Bool.or_self]
      rw [hstep] at hres htimes ⊢
      simp only [filterMap_cons, hq]
      have hearlier : ∀ t ∈ p.lastTime, t ≤ f.capturedAt := by
        intro t ht
        have := hlate.2
        rw [Option.mem_def.1 ht] at this
        simpa using this
      have hlast : ∀ g ∈ steps.filterMap (fun s => mapGet qualifying s.index),
          p.lastTime.elim f.capturedAt (max · f.capturedAt) ≤ g.capturedAt := htimes _ rfl
      refine ⟨hlate.1, hres, fun t ht g hg => ?_, pairwise_cons.2 ⟨fun g hg => ?_, hpair⟩⟩
      · rcases mem_cons.1 hg with rfl | hg
        · exact hearlier t ht
        · have := hlast g hg
          rw [Option.mem_def.1 ht] at this
          exact (le_max_left _ _).trans this
      · refine le_trans ?_ (hlast g hg)
        cases p.lastTime with
        | none => exact le_rfl
        | some t => exact le_max_right _ _

/-! ## The images -/

theorem pairwise_of_anyPair {α : Type} {rel : α → α → Bool} {l : List α}
    (h : anyPair rel l = false) : l.Pairwise fun a b => rel a b = false := by
  induction l with
  | nil => exact List.Pairwise.nil
  | cons x xs ih =>
    rw [anyPair, Bool.or_eq_false_iff, any_eq_false] at h
    exact pairwise_cons.2 ⟨fun b hb => by simpa using h.1 b hb, ih h.2⟩

omit [Field K] [LinearOrder K] [FloorRing K] in
theorem comparedFrames_eq {rep : Option (LivenessFrame K)}
    (hnodup : (q.map fun p => p.1.index).Nodup) :
    comparedFrames (q.map (·.1)) (q.map fun p => (p.1.index, p.2)) rep =
      rep.toList ++ (q.filter fun p => decide (p.1.action ≠ .center)).map (·.2) := by
  have hfind : ∀ p ∈ q, (q.map (·.1)).find? (fun s => decide (s.index = p.1.index)) = some p.1 := by
    intro p hp
    have hstep : p.1 ∈ q.map (·.1) := mem_map_of_mem hp
    have hsteps : ((q.map (·.1)).map (·.index)).Nodup := by rwa [map_map]
    cases hf : (q.map (·.1)).find? (fun s => decide (s.index = p.1.index)) with
    | none => simpa using find?_eq_none.1 hf p.1 hstep
    | some s =>
      have hs : s.index = p.1.index := by simpa using find?_some hf
      rw [inj_on_of_nodup_map hsteps (mem_of_find?_eq_some hf) hstep hs]
  rw [comparedFrames, filter_map, map_map]
  congr 2
  refine filter_congr fun p hp => ?_
  simp only [Function.comp_apply]
  rw [hfind p hp]
  simp

/-! ## A passed challenge -/

/-- What a passed challenge shows.  The frames `q` qualify, one for each step in the order of the
steps. -/
structure ShownLive (sqrt : K → K) (spec : LivenessChallengeSpec K) (o : LivenessOptions K)
    (frames : List (LivenessFrame K)) (template : Option (List K)) (centre : Pose2 K)
    (q : List (LivenessStep × LivenessFrame K)) : Prop where
  steps : q.map (·.1) = sortedSteps spec
  qualifies : ∀ p ∈ q, Qualifies sqrt spec o frames template centre p.1 p.2
  order : q.Pairwise fun p p' => p.2.capturedAt ≤ p'.2.capturedAt
  images : ((frontalRep (frontalFrames frames) (some centre)).toList ++
      (q.filter fun p => decide (p.1.action ≠ .center)).map (·.2)).Pairwise fun f g =>
    o.minFrameHamming < (safeHamming f.analysis.dhash g.analysis.dhash : K)
  left : ∀ p ∈ q, p.1.action = .move .turnLeft → 0 < p.2.pose.yawDeg - centre.yawDeg
  right : ∀ p ∈ q, p.1.action = .move .turnRight → p.2.pose.yawDeg - centre.yawDeg < 0

/-- What a passed challenge shows of its spec and of the frames submitted. -/
structure Submitted (spec : LivenessChallengeSpec K) (o : LivenessOptions K)
    (frames : List (LivenessFrame K)) : Prop where
  left : ∃ s ∈ spec.steps, s.action = .move .turnLeft
  right : ∃ s ∈ spec.steps, s.action = .move .turnRight
  target : 0 < spec.targetYawDeg
  inTime : ∀ f ∈ frames, inWindow spec o f = true
  faces : ∀ f ∈ frames, severalFaces f.analysis = false ∧
    (isFrontalFrame f = false → singleFace f.analysis = true)

omit [Field K] [LinearOrder K] [FloorRing K] in
theorem finish_passed {results : List (StepResult K)} {reasons : List LivenessReason}
    (h : (finish results reasons).passed = true) : reasons = [] ∧ ∀ r ∈ results,
    r.passed = true := by
  simpa [finish] using h

omit [FloorRing K] in
theorem submitted_of_reasonsBefore {odd : List Bool}
    (h : reasonsBefore spec o frames frontal odd = []) : Submitted spec o frames := by
  simp only [reasonsBefore, append_eq_nil_iff] at h
  obtain ⟨⟨⟨⟨⟨hspec, htime⟩, hfaces⟩, -⟩, -⟩, -⟩ := h
  have hspec : goodSpec spec = true := by
    by_contra hne
    simp [hne] at hspec
  have htime : frames.all (inWindow spec o) = true := by
    by_contra hne
    simp [hne] at htime
  have hfaces : facesOk frames = true := by
    by_contra hne
    simp [hne] at hfaces
  simp only [goodSpec, sortedSteps, Bool.and_eq_true, any_eq_true, decide_eq_true_eq,
    mem_insertionSort] at hspec
  refine ⟨hspec.1.1, hspec.1.2, hspec.2, all_eq_true.1 htime, fun f hf => ?_⟩
  have := all_eq_true.1 hfaces f hf
  simp only [Bool.and_eq_true, Bool.not_eq_true', Bool.or_eq_true] at this
  exact ⟨this.1, fun hno => this.2.resolve_left (by simp [hno])⟩

omit [FloorRing K] in
theorem Turned.pos [IsStrictOrderedRing K] {centre : Pose2 K} {window : List (LivenessFrame K)}
    {action : LivenessAction} {f : LivenessFrame K}
    (h : Turned sqrt spec o template centre window action f)
    (hfraction : 0 < o.minFractionOfTarget) (hagreeing : 0 < o.agreeingFractionOfTarget)
    (htarget : 0 < targetOf action spec) : 0 < (stepDelta action f.pose centre).directional := by
  have hrequired : 0 < requiredChange action spec o := mul_pos hfraction htarget
  rcases h with h | ⟨need, rfl, hneed, -⟩
  · exact hrequired.trans_le h
  · exact (lt_min hrequired (mul_pos hagreeing htarget)).trans_le hneed

theorem exists_qualifying {frontal : List (LivenessFrame K)}
    {outcomes : List (LivenessStep × StepOutcome K × List LivenessReason)}
    (h : List.Forall₂ (fun s p => p.1 = s ∧ (p.2.1.passed = true → ∃ centre f,
      frontalCentre o frontal = some centre ∧ p.2.1.qualifying = some f ∧
        Qualifies sqrt spec o frames template centre s f)) steps outcomes)
    (hp : ∀ p ∈ outcomes, p.2.1.passed = true) :
    ∃ q : List (LivenessStep × LivenessFrame K), q.map (·.1) = steps ∧
      List.Forall₂ (fun p c => p.1 = c.1 ∧ p.2.qualifying = some c.2)
        (outcomes.map fun p => (p.1, p.2.1)) q ∧
      ∀ c ∈ q, ∃ centre, frontalCentre o frontal = some centre ∧
        Qualifies sqrt spec o frames template centre c.1 c.2 := by
  induction h with
  | nil => exact ⟨[], rfl, .nil, by simp⟩
  | @cons s p steps outcomes hsp _ ih =>
    obtain ⟨q, hsteps, hfor, hq⟩ := ih fun p hpo => hp p (mem_cons_of_mem _ hpo)
    obtain ⟨centre, f, hcentre, hf, hqualifies⟩ := hsp.2 (hp p mem_cons_self)
    refine ⟨(s, f) :: q, by rw [map_cons, hsteps], .cons ⟨hsp.1, hf⟩ hfor, ?_⟩
    rintro c hc
    rcases mem_cons.1 hc with rfl | hc
    · exact ⟨centre, hcentre, hqualifies⟩
    · exact hq c hc

theorem verdict_passed {rep : Option (LivenessFrame K)} {before : List LivenessReason}
    {outcomes : List (LivenessStep × StepOutcome K × List LivenessReason)}
    (hsteps : outcomes.map (·.1) = sortedSteps spec)
    (h : (verdict spec o rep before outcomes).passed = true) :
    before = [] ∧ ((sortedSteps spec).map (·.index)).Nodup ∧ (∀ p ∈ outcomes, p.2.1.passed = true) ∧
      ((sortedSteps spec).filterMap fun s => mapGet (qualifyingFrames (outcomes.map fun p => (p.1, p.2.1)))
        s.index).Pairwise (fun f g => f.capturedAt ≤ g.capturedAt) ∧
      (comparedFrames (sortedSteps spec) (qualifyingFrames (outcomes.map fun p => (p.1, p.2.1))) rep).Pairwise
        fun f g => sameImage o f g = false := by
  obtain ⟨hreasons, hall⟩ := finish_passed h
  simp only [append_eq_nil_iff] at hreasons
  obtain ⟨⟨hbefore, -⟩, ⟨-, hlate⟩, himages⟩ := hreasons
  set each := outcomes.map fun p => (p.1, p.2.1) with heach
  have horder : ((sortedSteps spec).foldl (orderStep (qualifyingFrames each))
      ⟨none, stepResults (sortedSteps spec) each, false⟩).outOfOrder = false := by
    by_contra hne
    simp [hne] at hlate
  obtain ⟨-, hresults, -, htimes⟩ := orderStep_foldl _ horder
  have hpairs : anyPair (sameImage o) (comparedFrames (sortedSteps spec)
      (qualifyingFrames each) rep) = false := by
    by_contra hne
    simp [hne] at himages
  rw [hresults] at hall
  have hof := resultsOf_stepResults (sortedSteps spec) each
  have hmap : each.map (·.1) = sortedSteps spec := by
    rw [map_map]
    exact hsteps
  refine ⟨hbefore, hof.nodup hall, fun p hp => ?_, htimes, pairwise_of_anyPair hpairs⟩
  exact hof.outcome hmap hall _ (mem_map_of_mem hp)

/-- **A passed challenge is sound.**  With positive fractions of the target, `verifyLiveness` passes
only a challenge with both turns and a target, whose frames are all in time and show one face, and
for each step of which there is a qualifying frame; these are in the order of the steps, are
different images, and show the turns in opposite directions. -/
theorem verifyLiveness_passed [IsStrictOrderedRing K] {r : LivenessResult K}
    (hfraction : 0 < o.minFractionOfTarget) (hagreeing : 0 < o.agreeingFractionOfTarget)
    (h : verifyLiveness sqrt spec frames o = .ok r) (hp : r.passed = true) :
    Submitted spec o frames ∧ ∃ centre template q,
      frontalCentre o (frontalFrames frames) = some centre ∧
      frontalTemplate sqrt (frontalFrames frames) = .ok template ∧
      ShownLive sqrt spec o frames template centre q := by
  suffices hyields : (verifyLiveness sqrt spec frames o).Yields fun r => r.passed = true →
      Submitted spec o frames ∧ ∃ centre template q,
        frontalCentre o (frontalFrames frames) = some centre ∧
        frontalTemplate sqrt (frontalFrames frames) = .ok template ∧
        ShownLive sqrt spec o frames template centre q from hyields r h hp
  refine Except.Yields.ite (fun _ => Except.Yields.pure fun hp => ?_) fun _ => ?_
  · simp [finish] at hp
  have hany : (frontalOdd sqrt o (frontalFrames frames)).Yields fun _ => True := fun _ _ => trivial
  have htemplate : (frontalTemplate sqrt (frontalFrames frames)).Yields fun t =>
      frontalTemplate sqrt (frontalFrames frames) = .ok t := fun _ ht => ht
  refine hany.bind fun odd _ => htemplate.bind fun template htemplate => ?_
  have hmap : ((sortedSteps spec).mapM fun s => do
      return (s, ← verifyStep sqrt spec o frames (frontalFrames frames) template s)).Yields
      (List.Forall₂ (fun s p => p.1 = s ∧ (p.2.1.passed = true → ∃ centre f,
        frontalCentre o (frontalFrames frames) = some centre ∧ p.2.1.qualifying = some f ∧
          Qualifies sqrt spec o frames template centre s f)) (sortedSteps spec)) :=
    Except.Yields.mapM fun s _ => verifyStep_passed.bind fun r hr => Except.Yields.pure ⟨rfl, hr⟩
  refine hmap.bind fun outcomes houtcomes => Except.Yields.pure fun hp => ?_
  have hsteps : outcomes.map (·.1) = sortedSteps spec := by
    have := forall₂_map_left_iff.2 (houtcomes.flip.imp fun p s hps => hps.1)
    exact forall₂_eq_eq_eq ▸ this
  obtain ⟨hbefore, hnodup, hpassed, htimes, himages⟩ := verdict_passed hsteps hp
  have hsubmitted := submitted_of_reasonsBefore hbefore
  obtain ⟨q, hq, hfor, hqualifies⟩ := exists_qualifying houtcomes hpassed
  have hnodup' : (q.map fun p => p.1.index).Nodup := by
    rw [← hq, map_map] at hnodup
    exact hnodup
  rw [qualifyingFrames_eq hnodup' hfor] at htimes himages
  obtain ⟨l, hl, -⟩ := hsubmitted.left
  have hmem : l ∈ q.map (·.1) := by
    rw [hq]
    exact (mem_insertionSort _).2 hl
  obtain ⟨p, hpq, -⟩ := mem_map.1 hmem
  obtain ⟨centre, hcentre, -⟩ := hqualifies p hpq
  have hall : ∀ p ∈ q, Qualifies sqrt spec o frames template centre p.1 p.2 := by
    intro p hp
    obtain ⟨c, hc, hqual⟩ := hqualifies p hp
    rw [hcentre, Option.some.injEq] at hc
    exact hc ▸ hqual
  have hturned : ∀ p ∈ q, ∀ a, p.1.action = .move a → 0 < targetOf a spec →
      0 < (stepDelta a p.2.pose centre).directional := fun p hp a ha htarget =>
    ((hall p hp).turned a ha).pos hfraction hagreeing htarget
  refine ⟨hsubmitted, centre, template, q, hcentre, htemplate, hq, hall, ?_, ?_, ?_, ?_⟩
  · rw [← hq, filterMap_map] at htimes
    have hget : q.filterMap ((fun s => mapGet (q.map fun p => (p.1.index, p.2)) s.index) ∘ (·.1)) =
        q.map (·.2) := by
      refine (filterMap_congr fun p hp => mapGet_map_of_nodup hnodup' hp).trans ?_
      simp
    rw [hget, pairwise_map] at htimes
    exact htimes
  · rw [← hq, comparedFrames_eq hnodup', hcentre] at himages
    exact himages.imp fun hdiff => by simpa [sameImage] using hdiff
  · intro p hp ha
    simpa [stepDelta] using hturned p hp _ ha hsubmitted.target
  · intro p hp ha
    simpa [stepDelta] using hturned p hp _ ha hsubmitted.target

end Steps

/-! ## A challenge that passes -/

/-- The square root of a square. -/
def rationalSqrt (x : ℚ) : ℚ := (Nat.sqrt x.num.toNat : ℚ) / Nat.sqrt x.den

def leftThenRight : LivenessChallengeSpec ℚ where
  steps := [⟨0, .move .turnLeft⟩, ⟨1, .move .turnRight⟩]
  issuedAt := 0
  expiresAt := 10000
  targetYawDeg := 20
  targetPitchDeg := 15

/-- A frame of one clear face. -/
def clearFrame (step : FrameStep) (action : StepAction) (capturedAt yawDeg : ℚ) (dhash : String) :
    LivenessFrame ℚ where
  step
  action
  capturedAt
  analysis :=
    { primary := true
      pose := some ⟨yawDeg, -10⟩
      quality :=
        { faceCount := 1, detectionScore := 9 / 10, interEyePx := 60, brightness := 120, contrast := 30
          sharpness := 200, yawDeg, pitchDeg := -10, issues := [], usable := true }
      embedding := some [1]
      dhash }

def headTurns : List (LivenessFrame ℚ) :=
  [clearFrame .frontal .center 1000 0 "0000000000000000",
    clearFrame (.step 0) (.move .turnLeft) 2000 15 "00000000000000ff",
    clearFrame (.step 1) (.move .turnRight) 3000 (-15) "000000000000ff00"]

/-- The challenge returns, and passes. -/
def passes {K : Type} (x : Except EmbeddingError (LivenessResult K)) : Bool :=
  match x with
  | .ok r => r.passed
  | .error _ => false

theorem exists_of_passes {K : Type} {x : Except EmbeddingError (LivenessResult K)}
    (h : passes x = true) : ∃ r, x = .ok r ∧ r.passed = true := by
  cases x with
  | error e => simp [passes] at h
  | ok r => exact ⟨r, rfl, h⟩

theorem headTurns_shown : Submitted leftThenRight LIVENESS_DEFAULTS headTurns ∧ ∃ centre template q,
    frontalCentre LIVENESS_DEFAULTS (frontalFrames headTurns) = some centre ∧
    frontalTemplate rationalSqrt (frontalFrames headTurns) = .ok template ∧
    ShownLive rationalSqrt leftThenRight LIVENESS_DEFAULTS headTurns template centre q := by
  have hpasses : passes (verifyLiveness rationalSqrt leftThenRight headTurns LIVENESS_DEFAULTS) = true := by
    decide +kernel
  obtain ⟨r, hr, hp⟩ := exists_of_passes hpasses
  exact verifyLiveness_passed (by norm_num [LIVENESS_DEFAULTS])
    (by norm_num [LIVENESS_DEFAULTS]) hr hp

/-- No frames of a step are asked for. -/
def noneAsked : LivenessOptions ℚ := { LIVENESS_DEFAULTS with maxFramesPerStep := 0 }

/-- One frame is looked at all the same. -/
theorem one_frame_at_least : ¬ ∀ (o : LivenessOptions ℚ) (r : LivenessResult ℚ),
    0 < o.minFractionOfTarget → 0 < o.agreeingFractionOfTarget →
    verifyLiveness rationalSqrt leftThenRight headTurns o = .ok r → r.passed = true →
    ∀ s ∈ leftThenRight.steps, ∃ f ∈ (headTurns.filter fun f => decide (f.step = .step s.index)).take
      ⌊o.maxFramesPerStep⌋.toNat, f.action = s.action := by
  intro h
  have hpasses : passes (verifyLiveness rationalSqrt leftThenRight headTurns noneAsked) = true := by
    decide +kernel
  obtain ⟨r, hr, hp⟩ := exists_of_passes hpasses
  obtain ⟨f, hf, -⟩ := h noneAsked r (by norm_num [noneAsked, LIVENESS_DEFAULTS])
    (by norm_num [noneAsked, LIVENESS_DEFAULTS]) hr hp ⟨0, .move .turnLeft⟩ (by simp [leftThenRight])
  simp [noneAsked] at hf

end SmartProctoring
