import Mathlib.Data.List.Nodup
import SmartProctoring.Server.Mfa

/-!
# Second factors are single-use

A recovery code is accepted once and a challenge admits five codes, over any interleaving.  The
steps of the enrolled secret are accepted once, in order, by the compare-and-set; but a confirmation
writes its step without one, so a confirmation that commits late moves the last step back
(`single_use` says when).
-/

set_option autoImplicit false

namespace SmartProctoring

open List

variable {κ Code η : Type} {s : SecondFactors κ η}

/-! ## The effect of a verification -/

namespace SecondFactors

/-- The codes that match are marked used; the one code that matches, if it is one, is accepted. -/
inductive Spends (s s' : SecondFactors κ η) : Prop
  | refused (used : RecoveryCode η → Bool) (now : Int)
      (h : s' = { s with
        recoveryCodes := s.recoveryCodes.map fun c => if used c then { c with usedAt := some now } else c })
  | accepted (used : RecoveryCode η → Bool) (now : Int) (c : RecoveryCode η)
      (hc : c ∈ s.recoveryCodes) (hused : used c = true) (hnew : c.usedAt = none)
      (h : s' = { s with
        recoveryCodes := s.recoveryCodes.map fun c => if used c then { c with usedAt := some now } else c
        consumed := s.consumed ++ [c.id] })

variable [DecidableEq κ] [DecidableEq Code] [DecidableEq η] (codes : Codes κ Code η)

omit [DecidableEq κ] [DecidableEq Code] in
theorem spends_consumeRecoveryCode (s : SecondFactors κ η) (code : Code) (now : Int) :
    s.Spends (s.consumeRecoveryCode codes code now).1 := by
  rw [consumeRecoveryCode]
  split
  next c hrows =>
    have hc : c ∈ s.recoveryCodes.filter (unusedCode codes code) := by
      rw [hrows]
      exact mem_singleton_self c
    obtain ⟨hmem, hsel⟩ := mem_filter.1 hc
    have hnew : c.usedAt = none := Option.isNone_iff_eq_none.1 (Bool.and_eq_true_iff.1 hsel).2
    exact .accepted (unusedCode codes code) now c hmem hsel hnew rfl
  next => exact .refused (unusedCode codes code) now rfl

theorem verifySecondFactor_cases (s : SecondFactors κ η) (copy : StaffUser κ)
    (factor : SecondFactor Code) (now : Int) :
    let s' := (s.verifySecondFactor codes copy factor now).1
    s' = s ∨
      (∃ secret step, (∀ last, s.user.totpLastStep = some last → last < step) ∧
        s' = s.acceptStep secret step) ∨
      s.Spends s' := by
  cases factor with
  | recovery code => exact .inr (.inr (spends_consumeRecoveryCode codes s code now))
  | authenticator code =>
    rw [verifySecondFactor, verifyTotpCode]
    split
    · exact .inl rfl
    next secret _ =>
      split
      · exact .inl rfl
      next step _ =>
        split
        next hforward =>
          refine .inr (.inl ⟨secret, step, fun last hlast => ?_, rfl⟩)
          rw [hlast] at hforward
          exact of_decide_eq_true hforward
        · exact .inl rfl

theorem confirmTotpSetup_cases (s : SecondFactors κ η) (copy : StaffUser κ) (code : Code)
    (currentCode : Option (SecondFactor Code)) (now : Int) :
    ∃ s' confirmed, s.confirmTotpSetup codes copy code currentCode now =
        ({ s' with confirmed } : SecondFactors κ η) ∧
      (s' = s ∨ ∃ factor, s' = (s.verifySecondFactor codes copy factor now).1) := by
  rw [confirmTotpSetup]
  split
  · exact ⟨s, s.confirmed, rfl, .inl rfl⟩
  · split
    · exact ⟨s, s.confirmed, rfl, .inl rfl⟩
    · split
      · exact ⟨s, s.confirmed, rfl, .inl rfl⟩
      · dsimp only
        split
        · split
          · exact ⟨s, s.confirmed, rfl, .inl rfl⟩
          next factor =>
            split
            · exact ⟨_, _, rfl, .inr ⟨factor, rfl⟩⟩
            · exact ⟨_, _, rfl, .inr ⟨factor, rfl⟩⟩
        · exact ⟨s, _, rfl, .inl rfl⟩

end SecondFactors

open SecondFactors

/-! ## Recovery codes -/

/-- An accepted code is used, and stays so. -/
structure CodesOk (rows : List (RecoveryCode η)) (consumed : List Nat) (nextId : Nat) : Prop where
  nodup : consumed.Nodup
  old : ∀ id ∈ consumed, id < nextId
  ids : (rows.map (·.id)).Nodup
  rows : ∀ c ∈ rows, c.id < nextId ∧ (c.usedAt = none → c.id ∉ consumed)

abbrev SecondFactors.CodesKept (s : SecondFactors κ η) : Prop :=
  CodesOk s.recoveryCodes s.consumed s.nextId

theorem ids_mark (rows : List (RecoveryCode η)) (used : RecoveryCode η → Bool) (now : Int) :
    (rows.map fun c => if used c then { c with usedAt := some now } else c).map (·.id) =
      rows.map (·.id) := by
  rw [map_map]
  refine map_congr_left fun c _ => ?_
  show (if used c then _ else _ : RecoveryCode η).id = c.id
  split <;> rfl

theorem CodesOk.mark {rows : List (RecoveryCode η)} {consumed : List Nat} {nextId : Nat}
    (h : CodesOk rows consumed nextId) (used : RecoveryCode η → Bool) (now : Int) :
    CodesOk (rows.map fun c => if used c then { c with usedAt := some now } else c) consumed
      nextId := by
  refine ⟨h.nodup, h.old, ids_mark rows used now ▸ h.ids, fun c hc => ?_⟩
  obtain ⟨c₀, hc₀, rfl⟩ := mem_map.1 hc
  split
  · exact ⟨(h.rows c₀ hc₀).1, nofun⟩
  · exact h.rows c₀ hc₀

theorem CodesOk.consume {rows : List (RecoveryCode η)} {consumed : List Nat} {nextId : Nat}
    (h : CodesOk rows consumed nextId) {used : RecoveryCode η → Bool} {now : Int}
    {c : RecoveryCode η} (hc : c ∈ rows) (hused : used c = true) (hnew : c.usedAt = none) :
    CodesOk (rows.map fun c => if used c then { c with usedAt := some now } else c)
      (consumed ++ [c.id]) nextId := by
  obtain ⟨hid, hunspent⟩ := h.rows c hc
  refine ⟨?_, fun id hmem => ?_, ids_mark rows used now ▸ h.ids, fun c' hc' => ?_⟩
  · refine nodup_append.2 ⟨h.nodup, nodup_singleton _, fun a ha b hb => ?_⟩
    rw [mem_singleton.1 hb]
    rintro rfl
    exact hunspent hnew ha
  · obtain hmem | rfl := mem_snoc.1 hmem
    · exact h.old id hmem
    · exact hid
  · obtain ⟨c₀, hc₀, rfl⟩ := mem_map.1 hc'
    split
    · exact ⟨(h.rows c₀ hc₀).1, nofun⟩
    next hunused =>
      refine ⟨(h.rows c₀ hc₀).1, fun hnone hmem => ?_⟩
      obtain hmem | hmem := mem_append.1 hmem
      · exact (h.rows c₀ hc₀).2 hnone hmem
      · have hsame := inj_on_of_nodup_map h.ids hc₀ hc (mem_singleton.1 hmem)
        exact hunused (hsame ▸ hused)

theorem codesKept_spends {s' : SecondFactors κ η} (h : s.CodesKept) (hs : s.Spends s') :
    s'.CodesKept := by
  obtain ⟨used, now, rfl⟩ | ⟨used, now, c, hc, hused, hnew, rfl⟩ := hs
  · exact h.mark used now
  · exact h.consume hc hused hnew

theorem codesKept_deleteRecoveryCodes (h : s.CodesKept) : s.deleteRecoveryCodes.CodesKept :=
  ⟨h.nodup, h.old, .nil, forall_mem_nil _⟩

theorem codesKept_insertRecoveryCodes (h : s.CodesKept) (hashes : List η) :
    (s.insertRecoveryCodes hashes).CodesKept := by
  have hids : (hashes.zipIdx.map fun (p : η × Nat) =>
      ({ id := s.nextId + p.2, codeHash := p.1 } : RecoveryCode η)).map (·.id) =
      (range hashes.length).map (s.nextId + ·) := by
    rw [map_map, range_eq_range', ← zipIdx_map_snd, map_map]
    rfl
  have hnew : ∀ c ∈ hashes.zipIdx.map fun (p : η × Nat) =>
      ({ id := s.nextId + p.2, codeHash := p.1 } : RecoveryCode η),
      s.nextId ≤ c.id ∧ c.id < s.nextId + hashes.length := by
    intro c hc
    have hmem := mem_map_of_mem (f := (·.id)) hc
    rw [hids, mem_map] at hmem
    obtain ⟨i, hi, heq⟩ := hmem
    rw [mem_range] at hi
    omega
  refine ⟨h.nodup, fun id hid => Nat.lt_add_right _ (h.old id hid), ?_, fun c hc => ?_⟩
  · show ((s.recoveryCodes ++ _).map (·.id)).Nodup
    rw [map_append, hids]
    refine nodup_append.2 ⟨h.ids, ?_, fun a ha b hb => ?_⟩
    · exact List.Nodup.map (fun a b hab => Nat.add_left_cancel hab) nodup_range
    · obtain ⟨c, hc, rfl⟩ := mem_map.1 ha
      obtain ⟨i, -, rfl⟩ := mem_map.1 hb
      have hlt := (h.rows c hc).1
      omega
  · obtain hc | hc := mem_append.1 hc
    · exact ⟨Nat.lt_add_right _ (h.rows c hc).1, (h.rows c hc).2⟩
    · obtain ⟨hge, hlt⟩ := hnew c hc
      refine ⟨hlt, fun _ hmem => ?_⟩
      have hold := h.old c.id hmem
      omega

section Steps

variable [DecidableEq κ] [DecidableEq Code] [DecidableEq η] (codes : Codes κ Code η)

theorem codesKept_verify (h : s.CodesKept) (copy : StaffUser κ) (factor : SecondFactor Code)
    (now : Int) : (s.verifySecondFactor codes copy factor now).1.CodesKept := by
  obtain heq | ⟨secret, step, -, heq⟩ | hspends := verifySecondFactor_cases codes s copy
    factor now
  · rw [heq]
    exact h
  · rw [heq]
    exact h
  · exact codesKept_spends h hspends

theorem factorStep_commit (s : SecondFactors κ η) (i : Nat) (hashes : List η) (now : Int) :
    s.confirmed[i]? = none ∧ factorStep codes (.commit i hashes now) s = s ∨
      ∃ c, s.confirmed[i]? = some c ∧ factorStep codes (.commit i hashes now) s =
        ({ s with confirmed := s.confirmed.eraseIdx i } : SecondFactors κ η).commitTotpSetup c hashes
          now := by
  cases hc : s.confirmed[i]? with
  | none => exact .inl ⟨rfl, by simp only [factorStep, hc]⟩
  | some c => exact .inr ⟨c, rfl, by simp only [factorStep, hc]⟩

theorem codesKept_step (h : s.CodesKept) (i : FactorInput κ Code η) :
    (factorStep codes i s).CodesKept := by
  cases i with
  | beginSetup => exact h
  | confirm copy code currentCode now =>
    obtain ⟨s', confirmed, heq, rfl | ⟨factor, rfl⟩⟩ := confirmTotpSetup_cases codes s copy
      code currentCode now
    · rw [factorStep, heq]
      exact h
    · rw [factorStep, heq]
      exact codesKept_verify codes h copy factor now
  | commit i hashes now =>
    obtain ⟨-, heq⟩ | ⟨c, -, heq⟩ := factorStep_commit codes s i hashes now
    · exact heq.symm ▸ h
    · rw [heq]
      exact codesKept_insertRecoveryCodes (codesKept_deleteRecoveryCodes h) hashes
  | reauth copy factor now => exact codesKept_verify codes h copy factor now
  | deleteRecoveryCodes => exact codesKept_deleteRecoveryCodes h
  | insertRecoveryCodes hashes => exact codesKept_insertRecoveryCodes h hashes
  | disable => exact h
  | createChallenge now =>
    refine ⟨h.nodup, fun id hid => Nat.lt_succ_of_lt (h.old id hid), h.ids, fun c hc => ?_⟩
    exact ⟨Nat.lt_succ_of_lt (h.rows c hc).1, (h.rows c hc).2⟩
  | takeAttempt id =>
    show (s.takeChallengeAttempt id).CodesKept
    rw [takeChallengeAttempt]
    split
    · split
      · exact h
      · exact h
    · exact h
  | signIn id copy factor now =>
    exact codesKept_verify codes
      (s := { s with taken := s.taken.erase id, checked := s.checked ++ [id] }) h copy factor now
  | deleteChallenge id => exact h

end Steps

/-! ## Challenges -/

/-- A challenge has counted every attempt that was admitted on it. -/
structure ChallengesOk (challenges : List LoginChallenge) (admitted : List Nat) (nextId : Nat) :
    Prop where
  bound : ∀ id, admitted.count id ≤ MAX_CHALLENGE_ATTEMPTS
  counted : ∀ c ∈ challenges, admitted.count c.id ≤ c.attempts ∧ c.id < nextId
  old : ∀ id ∈ admitted, id < nextId

abbrev SecondFactors.ChallengesKept (s : SecondFactors κ η) : Prop :=
  ChallengesOk s.challenges (s.taken ++ s.checked) s.nextId

theorem challenges_spends {s' : SecondFactors κ η} (hs : s.Spends s') :
    s'.challenges = s.challenges ∧ s'.taken = s.taken ∧ s'.checked = s.checked ∧
      s'.nextId = s.nextId := by
  obtain ⟨used, now, rfl⟩ | ⟨used, now, c, -, -, -, rfl⟩ := hs
  · exact ⟨rfl, rfl, rfl, rfl⟩
  · exact ⟨rfl, rfl, rfl, rfl⟩

theorem challengesKept_take (h : s.ChallengesKept) (id : Nat) :
    (s.takeChallengeAttempt id).ChallengesKept := by
  have hcounted : ∀ c ∈ s.challenges.map fun c =>
      if c.id = id then { c with attempts := c.attempts + 1 } else c,
      ((id :: (s.taken ++ s.checked)).count c.id ≤ c.attempts) ∧ c.id < s.nextId := by
    intro c hc
    obtain ⟨c₀, hc₀, rfl⟩ := mem_map.1 hc
    obtain ⟨hcount, hid⟩ := h.counted c₀ hc₀
    split
    next heq =>
      refine ⟨?_, hid⟩
      show (id :: (s.taken ++ s.checked)).count c₀.id ≤ c₀.attempts + 1
      rw [heq, count_cons_self, ← heq]
      omega
    next hne =>
      refine ⟨?_, hid⟩
      rw [count_cons_of_ne (Ne.symm hne)]
      exact hcount
  rw [takeChallengeAttempt]
  split
  next c hfound =>
    obtain rfl : c.id = id := by simpa using find?_some hfound
    obtain ⟨hcount, hid⟩ := hcounted c (mem_of_find?_eq_some hfound)
    split
    next hmax =>
      have hperm : (s.taken ++ [c.id] ++ s.checked).Perm (c.id :: (s.taken ++ s.checked)) := by
        rw [append_assoc]
        exact perm_middle
      refine ⟨fun i => ?_, fun c' hc' => ?_, fun i hi => ?_⟩
      · rw [hperm.count_eq]
        by_cases hi : i = c.id
        · rw [hi]
          exact Nat.le_trans hcount hmax
        · rw [count_cons_of_ne (Ne.symm hi)]
          exact h.bound i
      · rw [hperm.count_eq]
        exact hcounted c' hc'
      · obtain rfl | hi := mem_cons.1 (hperm.mem_iff.1 hi)
        · exact hid
        · exact h.old i hi
    next =>
      refine ⟨h.bound, fun c' hc' => ⟨?_, (hcounted c' hc').2⟩, h.old⟩
      exact Nat.le_trans count_le_count_cons (hcounted c' hc').1
  next =>
    refine ⟨h.bound, fun c' hc' => ⟨?_, (hcounted c' hc').2⟩, h.old⟩
    exact Nat.le_trans count_le_count_cons (hcounted c' hc').1

variable [DecidableEq κ] [DecidableEq Code] [DecidableEq η] (codes : Codes κ Code η)

theorem challengesKept_verify (h : s.ChallengesKept) (copy : StaffUser κ)
    (factor : SecondFactor Code) (now : Int) :
    (s.verifySecondFactor codes copy factor now).1.ChallengesKept := by
  obtain heq | ⟨secret, step, -, heq⟩ | hspends := verifySecondFactor_cases codes s copy
    factor now
  · rw [heq]
    exact h
  · rw [heq]
    exact h
  · obtain ⟨hc, ht, hk, hn⟩ := challenges_spends hspends
    rw [SecondFactors.ChallengesKept, hc, ht, hk, hn]
    exact h

theorem challengesKept_step (h : s.ChallengesKept) {i : FactorInput κ Code η} (hi : i.enabled s) :
    (factorStep codes i s).ChallengesKept := by
  have hgrow : ∀ n, ChallengesOk s.challenges (s.taken ++ s.checked) (s.nextId + n) := fun n =>
    ⟨h.bound, fun c hc => ⟨(h.counted c hc).1, Nat.lt_add_right n (h.counted c hc).2⟩,
      fun id hid => Nat.lt_add_right n (h.old id hid)⟩
  cases i with
  | beginSetup => exact h
  | confirm copy code currentCode now =>
    obtain ⟨s', confirmed, heq, rfl | ⟨factor, rfl⟩⟩ := confirmTotpSetup_cases codes s copy
      code currentCode now
    · rw [factorStep, heq]
      exact h
    · rw [factorStep, heq]
      exact challengesKept_verify codes h copy factor now
  | commit i hashes now =>
    obtain ⟨-, heq⟩ | ⟨c, -, heq⟩ := factorStep_commit codes s i hashes now
    · exact heq.symm ▸ h
    · rw [heq]
      exact hgrow hashes.length
  | reauth copy factor now => exact challengesKept_verify codes h copy factor now
  | deleteRecoveryCodes => exact h
  | insertRecoveryCodes hashes => exact hgrow hashes.length
  | disable => exact h
  | createChallenge now =>
    refine ⟨h.bound, fun c hc => ?_, (hgrow 1).old⟩
    obtain rfl := mem_singleton.1 hc
    refine ⟨?_, Nat.lt_succ_self _⟩
    have hfresh : (s.taken ++ s.checked).count s.nextId = 0 :=
      count_eq_zero.2 fun hmem => Nat.lt_irrefl _ (h.old _ hmem)
    show (s.taken ++ s.checked).count s.nextId ≤ 0
    omega
  | takeAttempt id => exact challengesKept_take h id
  | signIn id copy factor now =>
    have hperm : (s.taken.erase id ++ (s.checked ++ [id])).Perm (s.taken ++ s.checked) := by
      rw [← append_assoc]
      refine (perm_append_singleton _ _).trans ?_
      exact (perm_cons_erase hi.1).symm.append_right _
    refine challengesKept_verify codes (s := { s with taken := _, checked := _ }) ?_ copy factor now
    refine ⟨fun i => ?_, fun c hc => ?_, fun i hi => h.old i (hperm.mem_iff.1 hi)⟩
    · rw [hperm.count_eq]
      exact h.bound i
    · rw [hperm.count_eq]
      exact h.counted c hc
  | deleteChallenge id =>
    exact ⟨h.bound, fun c hc => h.counted c (mem_filter.1 hc).1, h.old⟩

/-! ## Steps -/

/-- The steps accepted for one secret increase. -/
def StepsIncrease (accepted : List (κ × Int)) : Prop :=
  accepted.Pairwise fun a b => a.1 = b.1 → a.2 < b.2

instance (accepted : List (κ × Int)) : Decidable (StepsIncrease accepted) :=
  inferInstanceAs (Decidable (accepted.Pairwise _))

/-- The last step bounds those of the enrolled secret. -/
def LastStepBounds (user : StaffUser κ) (accepted : List (κ × Int)) : Prop :=
  ∀ secret, user.totpSecret = some secret →
    ∃ last, user.totpLastStep = some last ∧ ∀ a ∈ accepted, a.1 = secret → a.2 ≤ last

/-- A confirmation commits the newest step that was accepted for its secret. -/
def CommitsNewest (s : SecondFactors κ η) (i : FactorInput κ Code η) : Prop :=
  match i with
  | .commit i _ _ => ∀ c, s.confirmed[i]? = some c → ∀ a ∈ s.accepted, a.1 = c.secret → a.2 < c.step
  | _ => True

omit [DecidableEq κ] in
theorem stepsIncrease_append {accepted : List (κ × Int)} {secret : κ} {step : Int} :
    StepsIncrease (accepted ++ [(secret, step)]) ↔
      StepsIncrease accepted ∧ ∀ a ∈ accepted, a.1 = secret → a.2 < step := by
  rw [StepsIncrease, pairwise_append]
  constructor
  · rintro ⟨h, -, hnew⟩
    exact ⟨h, fun a ha => hnew a ha (secret, step) (mem_singleton_self _)⟩
  · rintro ⟨h, hnew⟩
    refine ⟨h, pairwise_singleton _ _, fun a ha b hb => ?_⟩
    rw [mem_singleton.1 hb]
    exact hnew a ha

theorem steps_verify (s : SecondFactors κ η) (copy : StaffUser κ) (factor : SecondFactor Code)
    (now : Int) (h : LastStepBounds s.user s.accepted) :
    let s' := (s.verifySecondFactor codes copy factor now).1
    LastStepBounds s'.user s'.accepted ∧
    (StepsIncrease s'.accepted ↔ StepsIncrease s.accepted) := by
  intro s'
  obtain heq | ⟨secret, step, hforward, heq⟩ | hspends :=
    verifySecondFactor_cases codes s copy factor now
  · rw [show s' = s from heq]
    exact ⟨h, Iff.rfl⟩
  · rw [show s' = s.acceptStep secret step from heq]
    by_cases henrolled : s.user.totpSecret = some secret
    · have haccepted : (s.acceptStep secret step).accepted = s.accepted ++ [(secret, step)] :=
        if_pos henrolled
      obtain ⟨last, hlast, hbound⟩ := h secret henrolled
      have hlt := hforward last hlast
      rw [haccepted]
      refine ⟨fun secret' hsecret' => ⟨step, rfl, fun a ha hsame => ?_⟩, ?_⟩
      · obtain rfl : secret = secret' := Option.some.inj (henrolled.symm.trans hsecret')
        obtain ha | ha := mem_append.1 ha
        · have hle := hbound a ha hsame
          omega
        · exact mem_singleton.1 ha ▸ Int.le_refl _
      · rw [stepsIncrease_append]
        refine ⟨And.left, fun hinc => ⟨hinc, fun a ha hsame => ?_⟩⟩
        have hle := hbound a ha hsame
        omega
    · have haccepted : (s.acceptStep secret step).accepted = s.accepted := if_neg henrolled
      rw [haccepted]
      refine ⟨fun secret' hsecret' => ⟨step, rfl, fun a ha hsame => ?_⟩, Iff.rfl⟩
      obtain ⟨last, hlast, hbound⟩ := h secret' hsecret'
      have hle := hbound a ha hsame
      have hlt := hforward last hlast
      omega
  · have huser : s'.user = s.user ∧ s'.accepted = s.accepted := by
      obtain ⟨used, at', heq⟩ | ⟨used, at', c, -, -, -, heq⟩ := hspends
      · rw [show s' = _ from heq]
        exact ⟨rfl, rfl⟩
      · rw [show s' = _ from heq]
        exact ⟨rfl, rfl⟩
    rw [huser.1, huser.2]
    exact ⟨h, Iff.rfl⟩

theorem accepted_verify (s : SecondFactors κ η) (copy : StaffUser κ) (factor : SecondFactor Code)
    (now : Int) : s.accepted <+: (s.verifySecondFactor codes copy factor now).1.accepted := by
  obtain heq | ⟨secret, step, -, heq⟩ | hspends :=
    verifySecondFactor_cases codes s copy factor now
  · simp only [heq, prefix_refl]
  · rw [heq]
    show s.accepted <+: if s.user.totpSecret = some secret then _ else _
    split
    · exact prefix_append _ _
    · exact prefix_refl _
  · obtain ⟨used, at', heq⟩ | ⟨used, at', c, -, -, -, heq⟩ := hspends
    · exact heq ▸ prefix_refl _
    · exact heq ▸ prefix_refl _

theorem accepted_step (s : SecondFactors κ η) (i : FactorInput κ Code η) :
    s.accepted <+: (factorStep codes i s).accepted := by
  cases i with
  | confirm copy code currentCode now =>
    obtain ⟨s', confirmed, heq, rfl | ⟨factor, rfl⟩⟩ := confirmTotpSetup_cases codes s copy
      code currentCode now
    · rw [factorStep]
      exact heq ▸ prefix_refl _
    · rw [factorStep, heq]
      exact accepted_verify codes s copy factor now
  | commit i hashes now =>
    obtain ⟨-, heq⟩ | ⟨c, -, heq⟩ := factorStep_commit codes s i hashes now
    · simp only [heq, prefix_refl]
    · rw [heq]
      exact prefix_append _ _
  | reauth copy factor now => exact accepted_verify codes s copy factor now
  | signIn id copy factor now =>
    exact accepted_verify codes { s with taken := s.taken.erase id, checked := s.checked ++ [id] } copy
      factor now
  | takeAttempt id =>
    show s.accepted <+: (s.takeChallengeAttempt id).accepted
    rw [takeChallengeAttempt]
    split
    · split
      · exact prefix_refl _
      · exact prefix_refl _
    · exact prefix_refl _
  | beginSetup | deleteRecoveryCodes | insertRecoveryCodes | disable | createChallenge
  | deleteChallenge => exact prefix_refl _

theorem steps_step (h : LastStepBounds s.user s.accepted) (hinc : StepsIncrease s.accepted)
    (i : FactorInput κ Code η) :
    (CommitsNewest s i ↔ StepsIncrease (factorStep codes i s).accepted) ∧
      (CommitsNewest s i →
        LastStepBounds (factorStep codes i s).user (factorStep codes i s).accepted) := by
  have hverify : ∀ (s' : SecondFactors κ η) (copy : StaffUser κ) (factor : SecondFactor Code)
      (now : Int), s'.user = s.user → s'.accepted = s.accepted →
      (True ↔ StepsIncrease (s'.verifySecondFactor codes copy factor now).1.accepted) ∧
        (True → LastStepBounds (s'.verifySecondFactor codes copy factor now).1.user
          (s'.verifySecondFactor codes copy factor now).1.accepted) := by
    intro s' copy factor now huser haccepted
    rw [← huser, ← haccepted] at h
    rw [← haccepted] at hinc
    obtain ⟨hbounds, hiff⟩ := steps_verify codes s' copy factor now h
    exact ⟨⟨fun _ => hiff.2 hinc, fun _ => trivial⟩, fun _ => hbounds⟩
  have hsame : (True ↔ StepsIncrease s.accepted) ∧ (True → LastStepBounds s.user s.accepted) :=
    ⟨⟨fun _ => hinc, fun _ => trivial⟩, fun _ => h⟩
  cases i with
  | confirm copy code currentCode now =>
    obtain ⟨s', confirmed, heq, rfl | ⟨factor, rfl⟩⟩ := confirmTotpSetup_cases codes s copy
      code currentCode now
    · rw [factorStep, heq]
      exact hsame
    · rw [factorStep, heq]
      exact hverify s copy factor now rfl rfl
  | commit i hashes now =>
    obtain ⟨hc, heq⟩ | ⟨c, hc, heq⟩ := factorStep_commit codes s i hashes now
    · rw [heq]
      have hnewest : CommitsNewest s (.commit i hashes now : FactorInput κ Code η) := by
        intro c hc'
        rw [hc] at hc'
        cases hc'
      exact ⟨⟨fun _ => hinc, fun _ => hnewest⟩, fun _ => h⟩
    · have haccepted : (factorStep codes (.commit i hashes now) s).accepted =
          s.accepted ++ [(c.secret, c.step)] := by
        rw [heq]
        rfl
      have hsecret : (factorStep codes (.commit i hashes now) s).user.totpSecret = some c.secret := by
        rw [heq]
        rfl
      have hlast : (factorStep codes (.commit i hashes now) s).user.totpLastStep = some c.step := by
        rw [heq]
        rfl
      have hnewest : CommitsNewest s (.commit i hashes now : FactorInput κ Code η) ↔
          ∀ a ∈ s.accepted, a.1 = c.secret → a.2 < c.step := by
        constructor
        · exact fun hnew => hnew c hc
        · intro hnew c' hc'
          obtain rfl : c = c' := Option.some.inj (hc.symm.trans hc')
          exact hnew
      rw [haccepted, hnewest, stepsIncrease_append]
      refine ⟨⟨fun hnew => ⟨hinc, hnew⟩, And.right⟩, fun hnew secret hs => ⟨c.step, hlast, ?_⟩⟩
      obtain rfl : c.secret = secret := Option.some.inj (hsecret.symm.trans hs)
      intro a ha hsame
      obtain ha | ha := mem_append.1 ha
      · exact Int.le_of_lt (hnew a ha hsame)
      · exact mem_singleton.1 ha ▸ Int.le_refl _
  | reauth copy factor now => exact hverify s copy factor now rfl rfl
  | signIn id copy factor now =>
    exact hverify { s with taken := s.taken.erase id, checked := s.checked ++ [id] } copy factor now
      rfl rfl
  | takeAttempt id =>
    have hstep : (s.takeChallengeAttempt id).user = s.user ∧
        (s.takeChallengeAttempt id).accepted = s.accepted := by
      rw [takeChallengeAttempt]
      split
      · split
        · exact ⟨rfl, rfl⟩
        · exact ⟨rfl, rfl⟩
      · exact ⟨rfl, rfl⟩
    show (True ↔ StepsIncrease (s.takeChallengeAttempt id).accepted) ∧
      (True → LastStepBounds (s.takeChallengeAttempt id).user (s.takeChallengeAttempt id).accepted)
    rw [hstep.1, hstep.2]
    exact hsame
  | disable => exact ⟨hsame.1, fun _ => nofun⟩
  | beginSetup | deleteRecoveryCodes | insertRecoveryCodes | createChallenge | deleteChallenge =>
    exact hsame

theorem accepted_run (s : SecondFactors κ η) (is : List (FactorInput κ Code η)) :
    s.accepted <+: ((secondFactors codes).run s is).accepted := by
  induction is generalizing s with
  | nil => exact prefix_refl _
  | cons i is ih => exact (accepted_step codes s i).trans (ih _)

theorem steps_run (is : List (FactorInput κ Code η)) {s : SecondFactors κ η}
    (h : LastStepBounds s.user s.accepted) (hinc : StepsIncrease s.accepted) :
    StepsIncrease ((secondFactors codes).run s is).accepted ↔
      (secondFactors codes).EachStep CommitsNewest s is := by
  induction is generalizing s with
  | nil => exact ⟨fun _ => trivial, fun _ => hinc⟩
  | cons i is ih =>
    obtain ⟨hiff, hbounds⟩ := steps_step codes h hinc i
    constructor
    · intro hfinal
      have hnext : StepsIncrease (factorStep codes i s).accepted :=
        List.Pairwise.sublist (accepted_run codes (factorStep codes i s) is).sublist hfinal
      have hnewest := hiff.2 hnext
      exact ⟨hnewest, (ih (hbounds hnewest) hnext).1 hfinal⟩
    · rintro ⟨hnewest, hrest⟩
      exact (ih (hbounds hnewest) (hiff.1 hnewest)).2 hrest

/-! ## Single use -/

theorem codesKept_reachable (h : (secondFactors codes).Reachable s) : s.CodesKept := by
  refine h.invariant (I := SecondFactors.CodesKept) ?_ fun s i _ _ ih => codesKept_step codes ih i
  rintro _ rfl
  exact ⟨.nil, forall_mem_nil _, .nil, forall_mem_nil _⟩

theorem challengesKept_reachable (h : (secondFactors codes).Reachable s) : s.ChallengesKept := by
  refine h.invariant (I := SecondFactors.ChallengesKept) ?_ fun s i _ hi ih =>
    challengesKept_step codes ih hi
  rintro _ rfl
  exact ⟨fun _ => Nat.zero_le _, forall_mem_nil _, forall_mem_nil _⟩

/-- **When second factors are single-use.**  Over any interleaving a recovery code is accepted once
at most and a challenge has at most its maximum of codes checked; and the steps accepted for the
enrolled secret increase exactly when every confirmation commits the newest step of its secret. -/
theorem single_use {is : List (FactorInput κ Code η)} (h : (secondFactors codes).Admits {} is) :
    let s := (secondFactors codes).run {} is
    s.consumed.Nodup ∧
      (∀ id, s.checked.count id ≤ MAX_CHALLENGE_ATTEMPTS) ∧
      (StepsIncrease s.accepted ↔ (secondFactors codes).EachStep CommitsNewest {} is) := by
  intro s
  have hreach : (secondFactors codes).Reachable s := (Machine.Reachable.init rfl).run h
  refine ⟨(codesKept_reachable codes hreach).nodup, fun id => ?_, steps_run codes is nofun .nil⟩
  refine Nat.le_trans ?_ ((challengesKept_reachable codes hreach).bound id)
  rw [count_append]
  exact Nat.le_add_left _ _

/-- The code of a step is the step; a recovery code is its own digest. -/
def plainCodes : Codes Nat Int Int where
  hotp _ step := step
  hashRecovery code := code

/-- Secret 7 is set up, and its confirmation checked twice on the same copy, with the code of step
10. -/
def confirmedTwice : List (FactorInput Nat Int Int) :=
  let copy : StaffUser Nat := { totpPending := some (7, 0) }
  [.beginSetup 7 0, .confirm copy 10 none 300000, .confirm copy 10 none 300000]

/-- The first confirmation commits, and a recovery code and the code of step 11 are accepted. -/
def enrolled : List (FactorInput Nat Int Int) :=
  let copy : StaffUser Nat := ⟨some 7, some 10, some 300000, none⟩
  confirmedTwice ++ [.commit 0 [501, 502] 300000, .createChallenge 320000, .takeAttempt 2,
    .signIn 2 copy (.recovery 501) 330000, .reauth copy (.authenticator 11) 330000]

theorem single_use_enrolled :
    let s := (secondFactors plainCodes).run {} enrolled
    s.accepted = [(7, 10), (7, 11)] ∧ s.consumed = [0] ∧
      s.checked.count 2 ≤ MAX_CHALLENGE_ATTEMPTS ∧ (secondFactors plainCodes).EachStep CommitsNewest {} enrolled := by
  obtain ⟨-, hchecked, hsteps⟩ :=
    single_use plainCodes (by decide : (secondFactors plainCodes).Admits {} enrolled)
  exact ⟨by decide, by decide, hchecked 2, hsteps.1 (by decide)⟩

/-- The second confirmation commits after that, and the code of step 11 is accepted again. -/
theorem late_confirmation_replays :
    ¬ ∀ is : List (FactorInput Nat Int Int), (secondFactors plainCodes).Admits {} is →
      StepsIncrease ((secondFactors plainCodes).run {} is).accepted := by
  intro h
  have hreplayed := h (enrolled ++ [.commit 0 [] 335000,
    .reauth ⟨some 7, some 10, some 335000, none⟩ (.authenticator 11) 340000]) (by decide)
  revert hreplayed
  decide

end SmartProctoring
