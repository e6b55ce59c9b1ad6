import SmartProctoring.Server.DecisionConfigs

/-!
# Four-eyes governance of decision configurations

At every commit an organisation has at most one active and one proposed version, its versions are
numbered in the order of their creation, and the settings mirror the thresholds of the active one.
Every version that became active, the first one apart, was approved by somebody other than its
proposer, or by its proposer at a moment when nobody else could, or restores a version that had been
active (`four_eyes`).
-/

set_option autoImplicit false

namespace SmartProctoring

open OrgRows (Deciding ConfigDecision)
open List

variable {ω : Type} {P : DecisionConfig → Prop} {o : OrgRows ω}

/-! ## The rows -/

/-- What holds of the rows at every commit, `P` being what entitles a version to become active. -/
structure ConfigsOk (P : DecisionConfig → Prop) (o : OrgRows ω) : Prop where
  ids : o.configs.map (·.id) = List.range o.configs.length
  versions : ∀ c ∈ o.configs, c.version = c.id + 1
  active : ∀ c ∈ o.configs, ∀ c' ∈ o.configs, c.status = .active → c'.status = .active → c = c'
  proposed : ∀ c ∈ o.configs, ∀ c' ∈ o.configs, c.status = .proposed →
    c'.status = .proposed → c = c'
  current : o.configs ≠ [] → ∃ c ∈ o.configs, c.status = .active
  proposer : ∀ c ∈ o.configs, c.status = .proposed → c.proposedBy ≠ none
  entitled : ∀ c ∈ o.configs, c.status = .active ∨ c.status = .retired → c.version = 1 ∨ P c
  mirror : ∀ c ∈ o.configs, c.status = .active → o.settings.thresholds = effectiveThresholds c

namespace ConfigsOk

theorem mono {Q : DecisionConfig → Prop} (h : ConfigsOk P o) (hPQ : ∀ c, P c → Q c) :
    ConfigsOk Q o where
  __ := h
  entitled c hc hst := (h.entitled c hc hst).imp_right (hPQ c)

theorem eq_of_id (h : ConfigsOk P o) {c c' : DecisionConfig} (hc : c ∈ o.configs)
    (hc' : c' ∈ o.configs) (hid : c.id = c'.id) : c = c' := by
  have hnodup : (o.configs.map (·.id)).Nodup := by
    rw [h.ids]
    exact nodup_range
  exact inj_on_of_nodup_map hnodup hc hc' hid

theorem foldl_max_range (n : Nat) : ((range n).map (· + 1)).foldl max 0 = n := by
  induction n with
  | zero => rfl
  | succ n ih =>
    rw [range_succ, map_append, foldl_append, ih]
    show max n (n + 1) = n + 1
    omega

theorem nextVersion_eq (h : ConfigsOk P o) : o.nextVersion = o.configs.length + 1 := by
  have hversions : o.configs.map (·.version) = (range o.configs.length).map (· + 1) := by
    rw [← h.ids, map_map]
    exact map_congr_left h.versions
  rw [OrgRows.nextVersion, hversions, foldl_max_range]

theorem increasing (h : ConfigsOk P o) : (o.configs.map (·.version)).Pairwise (· < ·) := by
  have hversions : o.configs.map (·.version) = (range o.configs.length).map (· + 1) := by
    rw [← h.ids, map_map]
    exact map_congr_left h.versions
  rw [hversions, pairwise_map]
  exact pairwise_lt_range.imp fun hab => Nat.succ_lt_succ hab

theorem settings (h : ConfigsOk P o) (settings : OrgSettings ω) (staff : List Approver)
    (hset : settings.thresholds = o.settings.thresholds) :
    ConfigsOk P { o with settings, staff } where
  __ := h
  mirror c hc hst := hset.trans (h.mirror c hc hst)

end ConfigsOk

/-! ## The operations -/

theorem custom_getD (o : OrgRows ω) :
    o.custom.getD DEFAULT_IDENTITY_THRESHOLDS = o.settings.thresholds := by
  rw [OrgRows.custom, OrgSettings.thresholds]
  cases o.settings.identityThresholds with
  | none | some t => rfl

theorem insertFirst_of_ne_nil (h : ConfigsOk P o) (hne : o.configs ≠ [])
    (custom : Option DecisionThresholds) (now : Int) : o.insertFirst custom now = o := by
  obtain ⟨c, hc, hst⟩ := h.current hne
  refine if_pos (any_eq_true.2 ⟨c, hc, ?_⟩)
  rw [hst, decide_eq_true rfl, Bool.or_true]

theorem insertFirst_of_nil (hnil : o.configs = []) (custom : Option DecisionThresholds)
    (now : Int) :
    ∃ c : DecisionConfig, o.insertFirst custom now = { o with configs := [c] } ∧ c.id = 0 ∧
      c.version = 1 ∧ c.status = .active ∧ c.thresholds = custom := by
  rw [OrgRows.insertFirst, OrgRows.freshId, hnil]
  exact ⟨_, rfl, rfl, rfl, rfl, rfl⟩

theorem ConfigsOk.insertFirst (h : ConfigsOk P o) {custom : Option DecisionThresholds} (now : Int)
    (hcustom : o.configs = [] →
      custom.getD DEFAULT_IDENTITY_THRESHOLDS = o.settings.thresholds) :
    ConfigsOk P (o.insertFirst custom now) := by
  by_cases hnil : o.configs = []
  · obtain ⟨c, hrows, hid, hversion, hst, hth⟩ := insertFirst_of_nil hnil custom now
    have honly : ∀ x ∈ [c], x = c := fun x hx => mem_singleton.1 hx
    rw [hrows]
    refine ⟨?_, ?_, ?_, ?_, ?_, ?_, ?_, ?_⟩
    · show [c.id] = [0]
      rw [hid]
    · intro x hx
      rw [honly x hx, hversion, hid]
    · intro x hx x' hx' _ _
      rw [honly x hx, honly x' hx']
    · intro x hx x' hx' _ _
      rw [honly x hx, honly x' hx']
    · exact fun _ => ⟨c, mem_singleton_self c, hst⟩
    · intro x hx hpr
      rw [honly x hx, hst] at hpr
      cases hpr
    · intro x hx _
      rw [honly x hx]
      exact .inl hversion
    · intro x hx _
      rw [honly x hx, effectiveThresholds, hth, hcustom hnil]
  · rw [insertFirst_of_ne_nil h hnil]
    exact h

theorem ConfigsOk.ensure (h : ConfigsOk P o) (now : Int) :
    ∃ o' active, o.ensureDecisionConfigs now = (o', some active) ∧ ConfigsOk P o' ∧
      active ∈ o'.configs ∧ active.status = .active ∧
      (o.configs ≠ [] → o' = o) ∧ (∀ c ∈ o'.configs, c.status = .retired → c ∈ o.configs) := by
  rw [OrgRows.ensureDecisionConfigs]
  cases hactive : o.activeConfig with
  | some active =>
    have hst : active.status = .active := of_decide_eq_true (find?_some hactive :)
    exact ⟨o, active, rfl, h, mem_of_find?_eq_some hactive, hst, fun _ => rfl,
      fun c hc _ => hc⟩
  | none =>
    have hnil : o.configs = [] := by
      by_contra hne
      obtain ⟨c, hc, hst⟩ := h.current hne
      exact find?_eq_none.1 hactive c hc (decide_eq_true hst)
    have hok := h.insertFirst now fun _ => custom_getD o
    obtain ⟨c, hrows, -, -, hst, -⟩ := insertFirst_of_nil hnil o.custom now
    have hfound : (o.insertFirst o.custom now).activeConfig = some c := by
      rw [hrows]
      exact find?_cons_of_pos (decide_eq_true hst)
    refine ⟨_, c, congrArg _ hfound, hok, ?_, hst, fun hne => absurd hnil hne, fun x hx hret => ?_⟩
    · rw [hrows]
      exact mem_singleton_self c
    · rw [hrows] at hx
      rw [mem_singleton.1 hx, hst] at hret
      cases hret

/-- A new proposal, when none is open. -/
theorem ConfigsOk.append (h : ConfigsOk P o) (hne : o.configs ≠ [])
    (hopen : ∀ c ∈ o.configs, c.status ≠ .proposed) (row : DecisionConfig)
    (hid : row.id = o.freshId) (hversion : row.version = o.nextVersion)
    (hst : row.status = .proposed) (hby : row.proposedBy ≠ none) :
    ConfigsOk P { o with configs := o.configs ++ [row] } := by
  have hcases : ∀ {c}, c ∈ o.configs ++ [row] → c ∈ o.configs ∨ c = row := fun hc =>
    (mem_append.1 hc).imp_right mem_singleton.1
  have hidle : row.status ≠ .active ∧ row.status ≠ .retired := by
    rw [hst]
    exact ⟨nofun, nofun⟩
  refine ⟨?_, ?_, ?_, ?_, ?_, ?_, ?_, ?_⟩
  · rw [map_append, h.ids, length_append, length_singleton, range_succ,
      map_singleton, hid]
    rfl
  · intro c hc
    obtain hc | rfl := hcases hc
    · exact h.versions c hc
    · rw [hversion, h.nextVersion_eq, hid]
      rfl
  · intro c hc c' hc' hact hact'
    obtain hc | rfl := hcases hc
    · obtain hc' | rfl := hcases hc'
      · exact h.active c hc c' hc' hact hact'
      · exact absurd hact' hidle.1
    · exact absurd hact hidle.1
  · intro c hc c' hc' hpr hpr'
    obtain hc | rfl := hcases hc
    · exact absurd hpr (hopen c hc)
    · obtain hc' | rfl := hcases hc'
      · exact absurd hpr' (hopen c' hc')
      · rfl
  · intro _
    obtain ⟨c, hc, hact⟩ := h.current hne
    exact ⟨c, mem_append_left _ hc, hact⟩
  · intro c hc hpr
    obtain hc | rfl := hcases hc
    · exact h.proposer c hc hpr
    · exact hby
  · intro c hc hbecame
    obtain hc | rfl := hcases hc
    · exact h.entitled c hc hbecame
    · exact absurd hbecame (not_or.2 hidle)
  · intro c hc hact
    obtain hc | rfl := hcases hc
    · exact h.mirror c hc hact
    · exact absurd hact hidle.1

theorem ConfigsOk.modify (h : ConfigsOk P o) (sel : DecisionConfig → Prop) [DecidablePred sel]
    (f : DecisionConfig → DecisionConfig) (hsel : ∀ c ∈ o.configs, sel c → c.status = .proposed)
    (hid : ∀ c, (f c).id = c.id) (hversion : ∀ c, (f c).version = c.version)
    (hby : ∀ c, (f c).proposedBy = c.proposedBy)
    (hst : ∀ c, (f c).status ≠ .active ∧ (f c).status ≠ .retired) :
    ConfigsOk P { o with configs := o.configs.map fun c => if sel c then f c else c } := by
  have hcases : ∀ {c'}, c' ∈ (o.configs.map fun c => if sel c then f c else c) →
      c' ∈ o.configs ∨ ∃ c ∈ o.configs, c.status = .proposed ∧ c' = f c := by
    intro c' hc'
    obtain ⟨c, hc, rfl⟩ := mem_map.1 hc'
    by_cases hs : sel c
    · exact .inr ⟨c, hc, hsel c hc hs, if_pos hs⟩
    · rw [if_neg hs]
      exact .inl hc
  have hkept : ∀ c' ∈ (o.configs.map fun c => if sel c then f c else c),
      c'.status = .active ∨ c'.status = .retired → c' ∈ o.configs := by
    intro c' hc' hbecame
    obtain hc | ⟨c, -, -, rfl⟩ := hcases hc'
    · exact hc
    · exact absurd hbecame (not_or.2 (hst c))
  have hcols : ∀ c : DecisionConfig, (if sel c then f c else c).id = c.id := by
    intro c
    split
    · exact hid c
    · rfl
  refine ⟨?_, ?_, ?_, ?_, ?_, ?_, ?_, ?_⟩
  · rw [map_map, length_map, ← h.ids]
    exact map_congr_left fun c _ => hcols c
  · intro c' hc'
    obtain hc | ⟨c, hc, -, rfl⟩ := hcases hc'
    · exact h.versions c' hc
    · rw [hversion, hid]
      exact h.versions c hc
  · intro c hc c' hc' hact hact'
    exact h.active c (hkept c hc (.inl hact)) c' (hkept c' hc' (.inl hact')) hact hact'
  · intro x hx x' hx' hpr hpr'
    obtain ⟨c, hc, rfl⟩ := mem_map.1 hx
    obtain ⟨c', hc', rfl⟩ := mem_map.1 hx'
    have hwas : ∀ c ∈ o.configs, (if sel c then f c else c).status = .proposed →
        c.status = .proposed := by
      intro c hc hpr
      by_cases hs : sel c
      · exact hsel c hc hs
      · rwa [if_neg hs] at hpr
    rw [h.proposed c hc c' hc' (hwas c hc hpr) (hwas c' hc' hpr')]
  · intro hne
    have hne' : o.configs ≠ [] := fun hnil => hne (by rw [hnil]; rfl)
    obtain ⟨c, hc, hact⟩ := h.current hne'
    refine ⟨c, mem_map.2 ⟨c, hc, if_neg fun hs => ?_⟩, hact⟩
    rw [hsel c hc hs] at hact
    cases hact
  · intro c' hc' hpr
    obtain hc | ⟨c, hc, hprc, rfl⟩ := hcases hc'
    · exact h.proposer c' hc hpr
    · rw [hby]
      exact h.proposer c hc hprc
  · intro c hc hbecame
    exact h.entitled c (hkept c hc hbecame) hbecame
  · intro c hc hact
    exact h.mirror c (hkept c hc (.inl hact)) hact

variable {now : Int}

theorem mem_activate {org : OrgSettings ω} {row c' : DecisionConfig}
    (hc' : c' ∈ (o.activate org row now).configs) :
    (∃ c ∈ o.configs, c.id = row.id ∧
      c' = { c with status := .active, activatedAt := some now }) ∨
    (∃ c ∈ o.configs, c.status = .active ∧
      c' = { c with status := .retired, retiredAt := some now }) ∨
    (c' ∈ o.configs ∧ c'.id ≠ row.id ∧ c'.status ≠ .active) := by
  obtain ⟨x, hx, rfl⟩ := mem_map.1 hc'
  obtain ⟨c, hc, hxc⟩ := mem_map.1 hx
  by_cases hid : c.id = row.id
  · rw [if_neg fun hne => hne.2 hid] at hxc
    subst hxc
    exact .inl ⟨c, hc, hid, if_pos hid⟩
  · by_cases hact : c.status = .active
    · rw [if_pos ⟨hact, hid⟩] at hxc
      subst hxc
      exact .inr (.inl ⟨c, hc, hact, if_neg hid⟩)
    · rw [if_neg fun hne => hact hne.1] at hxc
      subst hxc
      rw [if_neg hid]
      exact .inr (.inr ⟨hc, hid, hact⟩)

/-- What entitles a version says nothing about when it was active. -/
def Lasting (P : DecisionConfig → Prop) : Prop :=
  ∀ (c : DecisionConfig) (status : DecisionConfigStatus) (activatedAt retiredAt : Option Int),
    P c → P { c with status, activatedAt, retiredAt }

theorem ConfigsOk.activate (h : ConfigsOk P o) (hP : Lasting P) (org : OrgSettings ω)
    {r row : DecisionConfig} (hr : r ∈ o.configs) (hid : r.id = row.id)
    (hth : r.thresholds = row.thresholds) (hst : r.status = .proposed) (hentitled : P r)
    (now : Int) : ConfigsOk P (o.activate org row now) := by
  have honly : ∀ c ∈ o.configs, c.id = row.id → c = r := fun c hc hcid =>
    h.eq_of_id hc hr (hcid.trans hid.symm)
  have hidle : ∀ c ∈ o.configs, c.id = row.id → c.status ≠ .active := by
    intro c hc hcid
    rw [honly c hc hcid, hst]
    exact nofun
  have hactive : ∀ {c'}, c' ∈ (o.activate org row now).configs → c'.status = .active →
      c' = { r with status := .active, activatedAt := some now } := by
    intro c' hc' hact
    obtain ⟨c, hc, hcid, rfl⟩ | ⟨c, -, -, rfl⟩ | ⟨-, -, hne⟩ := mem_activate hc'
    · rw [honly c hc hcid]
    · cases hact
    · exact absurd hact hne
  have hcols : (o.activate org row now).configs.map (·.id) = o.configs.map (·.id) := by
    show map _ (map _ (map _ o.configs)) = _
    rw [map_map, map_map]
    refine map_congr_left fun c _ => ?_
    simp only [Function.comp_apply]
    split <;> split <;> rfl
  have hlength : (o.activate org row now).configs.length = o.configs.length := by
    rw [← length_map (·.id), hcols, length_map]
  refine ⟨?_, ?_, ?_, ?_, ?_, ?_, ?_, ?_⟩
  · rw [hcols, hlength]
    exact h.ids
  · intro c' hc'
    obtain ⟨c, hc, -, rfl⟩ | ⟨c, hc, -, rfl⟩ | ⟨hc, -, -⟩ := mem_activate hc'
    · exact h.versions c hc
    · exact h.versions c hc
    · exact h.versions c' hc
  · intro c hc c' hc' hact hact'
    rw [hactive hc hact, hactive hc' hact']
  · have hwas : ∀ {c' : DecisionConfig}, c' ∈ (o.activate org row now).configs →
        c'.status = .proposed → c' ∈ o.configs := by
      intro c' hc' hpr
      obtain ⟨c, -, -, rfl⟩ | ⟨c, -, -, rfl⟩ | ⟨hc, -, -⟩ := mem_activate hc'
      · cases hpr
      · cases hpr
      · exact hc
    exact fun c hc c' hc' hpr hpr' => h.proposed c (hwas hc hpr) c' (hwas hc' hpr') hpr hpr'
  · intro _
    refine ⟨{ r with status := .active, activatedAt := some now }, ?_, rfl⟩
    refine mem_map.2 ⟨r, mem_map.2 ⟨r, hr, if_neg fun hne => ?_⟩, if_pos hid⟩
    exact hidle r hr hid hne.1
  · intro c' hc' hpr
    obtain ⟨c, -, -, rfl⟩ | ⟨c, -, -, rfl⟩ | ⟨hc, -, -⟩ := mem_activate hc'
    · cases hpr
    · cases hpr
    · exact h.proposer c' hc hpr
  · intro c' hc' hbecame
    obtain ⟨c, hc, hcid, rfl⟩ | ⟨c, hc, hact, rfl⟩ | ⟨hc, -, -⟩ := mem_activate hc'
    · rw [honly c hc hcid]
      exact .inr (hP r _ _ _ hentitled)
    · exact (h.entitled c hc (.inl hact)).imp_right (hP c _ _ _)
    · exact h.entitled c' hc hbecame
  · intro c' hc' hact
    rw [hactive hc' hact, hth]
    show OrgSettings.thresholds { org with identityThresholds := _, decisionConfigVersion := _ } = _
    cases row.thresholds with
    | none | some t => rfl

/-! ## One step of the rows -/

/-- The rows stay as they should be, none is deleted, and what retires was active. -/
structure Advance (P : DecisionConfig → Prop) (o o' : OrgRows ω) : Prop where
  ok : ConfigsOk P o'
  length : o.configs.length ≤ o'.configs.length
  retired : ∀ c' ∈ o'.configs, c'.status = .retired → ∃ c ∈ o.configs,
    (c.status = .active ∨ c.status = .retired) ∧ c.version = c'.version ∧
      c.thresholds = c'.thresholds

variable {o' : OrgRows ω}

theorem Advance.ne_nil (h : Advance P o o') (hne : o.configs ≠ []) :
    o'.configs ≠ [] := by
  intro hnil
  have hlength := h.length
  rw [hnil] at hlength
  exact hne (length_eq_zero_iff.1 (Nat.le_zero.1 hlength))

theorem Advance.of_mem (hok : ConfigsOk P o') (hlength : o.configs.length ≤ o'.configs.length)
    (h : ∀ c ∈ o'.configs, c.status = .retired → c ∈ o.configs) : Advance P o o' :=
  ⟨hok, hlength, fun c hc hret => ⟨c, h c hc hret, .inr hret, rfl, rfl⟩⟩

theorem Advance.activate {o₁ : OrgRows ω} (h : ConfigsOk P o₁) (hP : Lasting P)
    (org : OrgSettings ω) {r row : DecisionConfig} (hr : r ∈ o₁.configs) (hid : r.id = row.id)
    (hth : r.thresholds = row.thresholds) (hst : r.status = .proposed) (hentitled : P r) (now : Int)
    (hlength : o.configs.length ≤ o₁.configs.length)
    (hwas : ∀ c ∈ o₁.configs, c.status = .active ∨ c.status = .retired → c ∈ o.configs) :
    Advance P o (o₁.activate org row now) := by
  refine ⟨h.activate hP org hr hid hth hst hentitled now, ?_, fun c' hc' hret => ?_⟩
  · show _ ≤ (map _ (map _ o₁.configs)).length
    rwa [length_map, length_map]
  · obtain ⟨c, -, -, rfl⟩ | ⟨c, hc, hact, rfl⟩ | ⟨hc, -, -⟩ := mem_activate hc'
    · cases hret
    · exact ⟨c, hwas c hc (.inl hact), .inl hact, rfl, rfl⟩
    · exact ⟨c', hwas c' hc (.inr hret), .inr hret, rfl, rfl⟩

variable {row : DecisionConfig} {id : Nat}

theorem loadScoped_ok (h : o.loadScoped id = .ok row) :
    row ∈ o.configs ∧ row.id = id := by
  rw [OrgRows.loadScoped] at h
  split at h
  next c hfound =>
    obtain rfl := Except.ok.inj h
    exact ⟨mem_of_find?_eq_some hfound, of_decide_eq_true (find?_some hfound :)⟩
  · cases h

variable {actor : StaffId}

theorem ConfigsOk.propose (h : ConfigsOk P o) {thresholds : DecisionThresholds} {note : String}
    (hok : o.proposeDecisionConfig actor thresholds note now = .ok o') :
    Advance P o o' ∧ o'.configs ≠ [] := by
  obtain ⟨o₁, active, hensure, h₁, hmem, hst, hsame, hret⟩ := h.ensure now
  rw [OrgRows.proposeDecisionConfig, hensure] at hok
  dsimp only at hok
  split at hok
  · cases hok
  next hopen =>
    have hclosed : ∀ c ∈ o₁.configs, c.status ≠ .proposed := fun c hc hpr =>
      find?_eq_none.1 hopen c hc (decide_eq_true hpr)
    have hlength : o.configs.length ≤ o₁.configs.length := by
      by_cases hnil : o.configs = []
      · rw [hnil]
        exact Nat.zero_le _
      · rw [hsame hnil]
    split at hok
    · cases hok
    · obtain rfl := Except.ok.inj hok
      refine ⟨.of_mem (h₁.append (ne_nil_of_mem hmem) hclosed _ rfl rfl rfl nofun) ?_ ?_,
        append_ne_nil_of_left_ne_nil (ne_nil_of_mem hmem) _⟩
      · rw [length_append]
        omega
      · intro c hc hretired
        obtain hc | hc := mem_append.1 hc
        · exact hret c hc hretired
        · rw [mem_singleton.1 hc] at hretired
          cases hretired

theorem decideDecisionConfig_ok {decision : ConfigDecision} {note : Option String} {d : Deciding ω}
    (h : o.decideDecisionConfig actor id decision note now = .ok d) :
    d.row ∈ o.configs ∧ d.row.id = id ∧ d.row.status = .proposed ∧ d.actor = actor ∧
      d.decision = decision ∧
      (decision = .approve → d.row.proposedBy ≠ some actor ∨
        d.row.proposedBy = some actor ∧ d.selfApproved = true ∧ otherApprovers o.staff actor = 0) := by
  rw [OrgRows.decideDecisionConfig] at h
  cases hload : o.loadScoped id with
  | error e =>
    rw [hload] at h
    cases h
  | ok row =>
    obtain ⟨hmem, hid⟩ := loadScoped_ok hload
    rw [hload] at h
    change (if row.status ≠ .proposed then _ else _) = _ at h
    split at h
    · cases h
    next hst =>
      rw [not_not] at hst
      split at h
      next hwithdraw =>
        split at h
        · cases h
        · obtain rfl := Except.ok.inj h
          refine ⟨hmem, hid, hst, rfl, rfl, fun happ => ?_⟩
          rw [hwithdraw] at happ
          cases happ
      · split at h
        next hown =>
          split at h
          · cases h
          next halone =>
            obtain rfl := Except.ok.inj h
            refine ⟨hmem, hid, hst, rfl, rfl, fun _ => .inr ⟨hown, rfl, ?_⟩⟩
            exact Nat.eq_zero_of_not_pos fun hpos => halone (.inr hpos)
        next hother =>
          obtain rfl := Except.ok.inj h
          exact ⟨hmem, hid, hst, rfl, rfl, fun _ => .inl hother⟩

/-- A proposal after its decision. -/
def decided (d : Deciding ω) : DecisionConfig :=
  { d.row with
    status := d.decision.status
    decidedBy := some d.actor
    decidedAt := some d.now
    decisionNote := d.note
    selfApproved := d.selfApproved }

theorem ConfigsOk.writeDecision (h : ConfigsOk P o) (hP : Lasting P) {d : Deciding ω}
    (hrow : d.row ∈ o.configs) (hst : d.row.status = .proposed)
    (hentitled : d.decision = .approve → P (decided d)) : Advance P o (o.writeDecision d) := by
  let mark (c : DecisionConfig) : DecisionConfig :=
    { c with
      status := d.decision.status
      decidedBy := some d.actor
      decidedAt := some d.now
      decisionNote := d.note
      selfApproved := d.selfApproved }
  let marked : OrgRows ω :=
    { o with configs := o.configs.map fun c => if c.id = d.row.id then mark c else c }
  have honly : ∀ c ∈ o.configs, c.id = d.row.id → c.status = .proposed := by
    intro c hc hid
    rw [h.eq_of_id hc hrow hid, hst]
  have hidle : d.decision.status ≠ .active ∧ d.decision.status ≠ .retired := by
    cases d.decision <;> exact ⟨nofun, nofun⟩
  have hmarked : ConfigsOk P marked :=
    h.modify (fun c => c.id = d.row.id) mark honly (fun _ => rfl) (fun _ => rfl) (fun _ => rfl)
      fun _ => hidle
  have hlength : o.configs.length ≤ marked.configs.length := Nat.le_of_eq (length_map _).symm
  have hwas : ∀ c ∈ marked.configs, c.status = .active ∨ c.status = .retired → c ∈ o.configs := by
    intro c' hc' hbecame
    obtain ⟨c, hc, rfl⟩ := mem_map.1 hc'
    by_cases hid : c.id = d.row.id
    · rw [if_pos hid] at hbecame
      exact absurd hbecame (not_or.2 hidle)
    · rwa [if_neg hid]
  have hclosed : Advance P o marked := .of_mem hmarked hlength fun c hc hret => hwas c hc (.inr hret)
  cases hd : d.decision with
  | approve =>
    have hwrite : o.writeDecision d =
        marked.activate d.org { d.row with decidedBy := some d.actor } d.now := by
      rw [OrgRows.writeDecision]
      simp only [marked, mark, hd]
    have hmem : decided d ∈ marked.configs := mem_map.2 ⟨d.row, hrow, if_pos rfl⟩
    rw [hwrite]
    refine .activate hmarked hP d.org hmem rfl rfl ?_ (hentitled hd) d.now hlength hwas
    show d.decision.status = .proposed
    rw [hd]
    rfl
  | reject | withdraw =>
    have hwrite : o.writeDecision d = marked := by
      rw [OrgRows.writeDecision]
      simp only [marked, mark, hd]
    rw [hwrite]
    exact hclosed

theorem ConfigsOk.rollback (h : ConfigsOk P o) (hP : Lasting P) {note : String}
    (hok : o.rollbackDecisionConfig actor id note now = .ok o')
    (hentitled : ∀ target ∈ o.configs, target.status = .retired → ∀ c : DecisionConfig,
      c.rollbackOfVersion = some target.version → c.thresholds = target.thresholds →
      c.version = o.configs.length + 1 → P c) : Advance P o o' ∧ o'.configs ≠ [] := by
  rw [OrgRows.rollbackDecisionConfig] at hok
  cases hload : o.loadScoped id with
  | error e =>
    rw [hload] at hok
    cases hok
  | ok target =>
    obtain ⟨hmem, -⟩ := loadScoped_ok hload
    obtain ⟨o₁, active, hensure, -, -, -, hsame, -⟩ := h.ensure now
    obtain rfl := hsame (ne_nil_of_mem hmem)
    rw [hload] at hok
    change (if target.status ≠ .retired then _ else _) = _ at hok
    split at hok
    · cases hok
    next hret =>
      rw [not_not] at hret
      rw [hensure] at hok
      obtain rfl := Except.ok.inj hok
      let close (c : DecisionConfig) : DecisionConfig :=
        { c with
          status := .withdrawn
          decidedBy := some actor
          decidedAt := some now
          decisionNote := some ("Withdrawn: version " ++ toString target.version ++
            " was restored.") }
      let withdrawn : OrgRows ω :=
        { o₁ with configs := o₁.configs.map fun c => if c.status = .proposed then close c else c }
      have hwithdrawn : ConfigsOk P withdrawn :=
        h.modify (fun c => c.status = .proposed) close (fun _ _ hpr => hpr) (fun _ => rfl)
          (fun _ => rfl) (fun _ => rfl) fun _ => ⟨nofun, nofun⟩
      have hlength : withdrawn.configs.length = o₁.configs.length := length_map _
      have hclosed : ∀ c ∈ withdrawn.configs, c.status ≠ .proposed := by
        intro c' hc' hpr
        obtain ⟨c, hc, rfl⟩ := mem_map.1 hc'
        by_cases hpr' : c.status = .proposed
        · rw [if_pos hpr'] at hpr
          cases hpr
        · rw [if_neg hpr'] at hpr
          exact hpr' hpr
      have hne : withdrawn.configs ≠ [] := by
        intro hnil
        rw [hnil] at hlength
        exact ne_nil_of_mem hmem (length_eq_zero_iff.1 hlength.symm)
      have hwas : ∀ c ∈ withdrawn.configs, c.status = .active ∨ c.status = .retired →
          c ∈ o₁.configs := by
        intro c' hc' hbecame
        obtain ⟨c, hc, rfl⟩ := mem_map.1 hc'
        by_cases hpr : c.status = .proposed
        · rw [if_pos hpr] at hbecame
          obtain hact | hret := hbecame
          · cases hact
          · cases hret
        · rwa [if_neg hpr]
      have hinserted := hwithdrawn.append hne hclosed
        { id := withdrawn.freshId
          version := withdrawn.nextVersion
          status := .proposed
          thresholds := target.thresholds
          note
          basedOnVersion := some active.version
          rollbackOfVersion := some target.version
          proposedBy := some actor
          proposedAt := now
          decidedBy := some actor
          decidedAt := some now } rfl rfl rfl nofun
      suffices hadvance : Advance P o₁ _ from ⟨hadvance, hadvance.ne_nil (ne_nil_of_mem hmem)⟩
      refine .activate hinserted hP _ (mem_append_right _ (mem_singleton_self _)) rfl rfl rfl
        (hentitled target hmem hret _ rfl rfl ?_) now ?_ ?_
      · rw [hwithdrawn.nextVersion_eq, hlength]
      · rw [length_append]
        omega
      · intro c hc hbecame
        obtain hc | hc := mem_append.1 hc
        · exact hwas c hc hbecame
        · rw [mem_singleton.1 hc] at hbecame
          obtain hact | hret := hbecame
          · cases hact
          · cases hret

/-! ## Runs -/

section Runs

variable {s₀ : Governance ω} {is : List (GovernanceInput ω)} {i : GovernanceInput ω}
  {c : DecisionConfig} {n : Nat}

def ApprovedByOther (c : DecisionConfig) : Prop :=
  ∃ proposer approver, c.proposedBy = some proposer ∧ c.decidedBy = some approver ∧
    proposer ≠ approver

/-- Approved by its proposer, and marked so; at the moment of the check nobody else could. -/
def SelfApprovedAlone (s₀ : Governance ω) (is : List (GovernanceInput ω))
    (c : DecisionConfig) : Prop :=
  c.selfApproved = true ∧ ∃ actor, c.proposedBy = some actor ∧ c.decidedBy = some actor ∧
    ∃ pre note now post, is = pre ++ .decide actor c.id .approve note now :: post ∧
      otherApprovers ((governance ω).run s₀ pre).rows.staff actor = 0

/-- At some earlier commit, when there were `n` versions at most, the version with this number and
these thresholds was active. -/
def WasActive (s₀ : Governance ω) (is : List (GovernanceInput ω)) (n version : Nat)
    (thresholds : Option DecisionThresholds) : Prop :=
  ∃ pre, pre <+: is ∧ (∃ t ∈ ((governance ω).run s₀ pre).rows.configs, t.status = .active ∧
    t.version = version ∧ t.thresholds = thresholds) ∧
    ((governance ω).run s₀ pre).rows.configs.length ≤ n

/-- A rollback, with the thresholds of a version that was active before it was made. -/
def RestoresFormer (s₀ : Governance ω) (is : List (GovernanceInput ω))
    (c : DecisionConfig) : Prop :=
  ∃ n version, c.rollbackOfVersion = some version ∧ WasActive s₀ is n version c.thresholds ∧
    n < c.version

/-- What entitles a version to become active. -/
def Entitled (s₀ : Governance ω) (is : List (GovernanceInput ω)) (c : DecisionConfig) : Prop :=
  ApprovedByOther c ∨ SelfApprovedAlone s₀ is c ∨ RestoresFormer s₀ is c

theorem lasting_entitled (s₀ : Governance ω) (is : List (GovernanceInput ω)) :
    Lasting (Entitled s₀ is) := fun _ _ _ _ h => h

theorem WasActive.mono {version : Nat} {thresholds : Option DecisionThresholds} {m : Nat}
    (h : WasActive s₀ is n version thresholds) (hnm : n ≤ m) (js : List (GovernanceInput ω)) :
    WasActive s₀ (is ++ js) m version thresholds := by
  obtain ⟨pre, hpre, ht, hlength⟩ := h
  exact ⟨pre, hpre.trans (prefix_append is js), ht, Nat.le_trans hlength hnm⟩

theorem Entitled.mono (h : Entitled s₀ is c) (js : List (GovernanceInput ω)) :
    Entitled s₀ (is ++ js) c := by
  obtain h | ⟨hmark, actor, hby, hdecided, pre, note, now, post, rfl, halone⟩ |
    ⟨n, version, hback, hwas, hn⟩ := h
  · exact .inl h
  · exact .inr (.inl ⟨hmark, actor, hby, hdecided, pre, note, now, post ++ js, by simp, halone⟩)
  · exact .inr (.inr ⟨n, version, hback, hwas.mono (Nat.le_refl n) js, hn⟩)

/-- What holds after the inputs `is`. -/
structure GovernanceOk (s₀ : Governance ω) (is : List (GovernanceInput ω))
    (s : Governance ω) : Prop where
  rows : ConfigsOk (Entitled s₀ is) s.rows
  former : ∀ c ∈ s.rows.configs, c.status = .retired →
    WasActive s₀ is s.rows.configs.length c.version c.thresholds
  firstUse : ∀ custom ∈ s.firstUse, s.rows.configs = [] →
    custom.getD DEFAULT_IDENTITY_THRESHOLDS = s.rows.settings.thresholds
  deciding : ∀ d, s.deciding = some d → d.row ∈ s.rows.configs ∧ d.row.status = .proposed ∧
    (d.decision = .approve → Entitled s₀ is (decided d))

variable {s : Governance ω}

theorem GovernanceOk.advance (hs : (governance ω).run s₀ is = s) (h : GovernanceOk s₀ is s)
    {s' : Governance ω} (hadvance : Advance (Entitled s₀ (is ++ [i])) s.rows s'.rows)
    (hfirst : ∀ custom ∈ s'.firstUse, s'.rows.configs = [] →
      custom.getD DEFAULT_IDENTITY_THRESHOLDS = s'.rows.settings.thresholds)
    (hdeciding : ∀ d, s'.deciding = some d → d.row ∈ s'.rows.configs ∧ d.row.status = .proposed ∧
      (d.decision = .approve → Entitled s₀ (is ++ [i]) (decided d))) :
    GovernanceOk s₀ (is ++ [i]) s' := by
  subst hs
  refine ⟨hadvance.ok, fun c' hc' hret => ?_, hfirst, hdeciding⟩
  obtain ⟨c, hc, hbecame, hversion, hth⟩ := hadvance.retired c' hc' hret
  rw [← hversion, ← hth]
  obtain hact | hret := hbecame
  · exact ⟨is, prefix_append is [i], ⟨c, hc, hact, rfl, rfl⟩, hadvance.length⟩
  · exact (h.former c hc hret).mono hadvance.length [i]

theorem GovernanceOk.commit (hs : (governance ω).run s₀ is = s) (h : GovernanceOk s₀ is s)
    (hfree : s.deciding = none) (hsame : GovernanceOk s₀ (is ++ [i]) s)
    {r : Except HttpError (OrgRows ω)}
    (hadvance : ∀ o', r = .ok o' →
      Advance (Entitled s₀ (is ++ [i])) s.rows o' ∧ o'.configs ≠ []) :
    GovernanceOk s₀ (is ++ [i]) (s.commit r) := by
  cases r with
  | error e => exact hsame
  | ok o' =>
    obtain ⟨ho', hne⟩ := hadvance o' rfl
    refine h.advance hs ho' (fun _ _ hnil => absurd hnil hne) fun d hd => ?_
    rw [show (s.commit (.ok o')).deciding = s.deciding from rfl, hfree] at hd
    cases hd

theorem governanceOk_step (hs : (governance ω).run s₀ is = s) (hi : (governance ω).enabled i s)
    (h : GovernanceOk s₀ is s) : GovernanceOk s₀ (is ++ [i]) (governanceStep i s) := by
  have hrows := h.rows.mono fun c hc => hc.mono [i]
  have hidle : Advance (Entitled s₀ (is ++ [i])) s.rows s.rows :=
    .of_mem hrows (Nat.le_refl _) fun _ hc _ => hc
  have hdeciding : ∀ d, s.deciding = some d → d.row ∈ s.rows.configs ∧ d.row.status = .proposed ∧
      (d.decision = .approve → Entitled s₀ (is ++ [i]) (decided d)) := fun d hd =>
    (h.deciding d hd).imp_right fun hd => hd.imp_right fun hent happ => (hent happ).mono [i]
  have hsame := h.advance hs hidle h.firstUse hdeciding
  cases i with
  | readFirst =>
    rw [governanceStep]
    split
    · exact hsame
    · refine h.advance hs hidle (fun custom hcustom hnil => ?_) hdeciding
      obtain hcustom | rfl := mem_snoc.1 hcustom
      · exact h.firstUse custom hcustom hnil
      · exact custom_getD s.rows
  | insertFirst k now =>
    rw [governanceStep]
    split
    next custom hk =>
      have hcustom := h.firstUse custom (mem_of_getElem? hk)
      have hok := hrows.insertFirst now hcustom
      by_cases hnil : s.rows.configs = []
      · obtain ⟨c, hfirst, -, -, hst, -⟩ := insertFirst_of_nil hnil custom now
        rw [hfirst] at hok ⊢
        refine h.advance hs (.of_mem hok ?_ fun x hx hret => ?_) (fun _ _ hnil => ?_) fun d hd => ?_
        · rw [hnil]
          exact Nat.zero_le _
        · rw [mem_singleton.1 hx, hst] at hret
          cases hret
        · cases hnil
        · have hmem := (h.deciding d hd).1
          rw [hnil] at hmem
          cases hmem
      · rw [insertFirst_of_ne_nil hrows hnil]
        exact h.advance hs hidle (fun _ _ hnil' => absurd hnil' hnil) hdeciding
    · exact hsame
  | propose =>
    exact h.commit hs (hi rfl) hsame fun o' hok => hrows.propose hok
  | decide actor id decision note now =>
    rw [governanceStep]
    split
    next d hd =>
      obtain ⟨hmem, hid, hst, hactor, hdecision, happrove⟩ := decideDecisionConfig_ok hd
      refine h.advance hs hidle h.firstUse ?_
      rintro d' ⟨⟩
      refine ⟨hmem, hst, fun happ => ?_⟩
      rw [hdecision] at happ
      subst happ hactor hid
      obtain hother | ⟨hown, hself, halone⟩ := happrove rfl
      · obtain ⟨proposer, hproposer⟩ := Option.ne_none_iff_exists'.1 (hrows.proposer _ hmem hst)
        refine .inl ⟨proposer, d.actor, hproposer, rfl, ?_⟩
        rintro rfl
        exact hother hproposer
      · refine .inr (.inl ⟨hself, d.actor, hown, rfl, is, note, now, [], ?_, ?_⟩)
        · rfl
        · rw [hs]
          exact halone
    · exact hsame
  | commitDecision =>
    rw [governanceStep]
    split
    next d hd =>
      obtain ⟨hmem, hst, happrove⟩ := hdeciding d hd
      have hadvance := hrows.writeDecision (lasting_entitled _ _) hmem hst happrove
      have hne := hadvance.ne_nil (ne_nil_of_mem hmem)
      refine h.advance hs hadvance (fun _ _ hnil => absurd hnil hne) fun d' hd' => ?_
      cases hd'
    · exact hsame
  | abortDecision =>
    refine h.advance hs hidle h.firstUse fun d hd => ?_
    cases hd
  | rollback actor id note now =>
    refine h.commit hs (hi rfl) hsame fun o' hok =>
      hrows.rollback (lasting_entitled _ _) hok fun target hmem hret c hback hth hversion => ?_
    have hwas := (h.former target hmem hret).mono (Nat.le_refl _) [.rollback actor id note now]
    rw [← hth] at hwas
    refine .inr (.inr ⟨_, _, hback, hwas, ?_⟩)
    omega
  | putSettings rest =>
    have hset := hrows.settings { s.rows.settings with rest } s.rows.staff rfl
    exact h.advance hs (.of_mem hset (Nat.le_refl _) fun _ hc _ => hc) h.firstUse hdeciding
  | putStaff user =>
    have hset := hrows.settings s.rows.settings (s.rows.putStaff user).staff rfl
    exact h.advance hs (.of_mem hset (Nat.le_refl _) fun _ hc _ => hc) h.firstUse hdeciding

theorem governanceOk_run (h0 : (governance ω).init s₀) (his : (governance ω).Admits s₀ is) :
    GovernanceOk s₀ is ((governance ω).run s₀ is) := by
  refine Machine.run_invariant (I := GovernanceOk s₀) ?_
    (fun is i _ hi ih => governanceOk_step rfl hi ih) his
  obtain ⟨hconfigs, hfirst, hdeciding⟩ := h0
  have hnone : ∀ c : DecisionConfig, c ∉ s₀.rows.configs := by
    intro c hc
    rw [hconfigs] at hc
    cases hc
  refine ⟨⟨?_, ?_, ?_, ?_, ?_, ?_, ?_, ?_⟩, ?_, ?_, ?_⟩
  · rw [hconfigs]
    rfl
  · exact fun c hc => absurd hc (hnone c)
  · exact fun c hc => absurd hc (hnone c)
  · exact fun c hc => absurd hc (hnone c)
  · exact fun hne => absurd hconfigs hne
  · exact fun c hc => absurd hc (hnone c)
  · exact fun c hc => absurd hc (hnone c)
  · exact fun c hc => absurd hc (hnone c)
  · exact fun c hc => absurd hc (hnone c)
  · intro custom hcustom
    rw [hfirst] at hcustom
    cases hcustom
  · intro d hd
    rw [hdeciding] at hd
    cases hd

/-- **Four eyes.**  After any interleaving at most one version is active and at most one proposed,
version numbers increase in the order of creation, every version that became active, the first
apart, was approved by another or by its proposer alone or restores a former one, and the settings
mirror the active one. -/
theorem four_eyes (h0 : (governance ω).init s₀) (his : (governance ω).Admits s₀ is) :
    let o := ((governance ω).run s₀ is).rows
    (∀ c ∈ o.configs, ∀ c' ∈ o.configs, c.status = .active → c'.status = .active → c = c') ∧
      (∀ c ∈ o.configs, ∀ c' ∈ o.configs, c.status = .proposed → c'.status = .proposed → c = c') ∧
      (o.configs.map (·.version)).Pairwise (· < ·) ∧
      (∀ c ∈ o.configs, c.status = .active ∨ c.status = .retired → c.version = 1 ∨
        ApprovedByOther c ∨ SelfApprovedAlone s₀ is c ∨ RestoresFormer s₀ is c) ∧
      ∀ c ∈ o.configs, c.status = .active → o.settings.thresholds = effectiveThresholds c := by
  have hrows := (governanceOk_run h0 his).rows
  exact ⟨hrows.active, hrows.proposed, hrows.increasing, hrows.entitled, hrows.mirror⟩

/-- An owner and an administrator, before the first configuration. -/
def ungoverned : Governance Unit :=
  { rows :=
      { settings := { identityThresholds := some { mismatch := some (1 / 5) }, rest := () }
        staff := [{ id := ⟨1⟩, role := .owner }, { id := ⟨2⟩, role := .admin }] } }

/-- A stricter proposal is approved by the other, a second one by its proposer once the other is
disabled, and then the first version is restored. -/
def restored : List (GovernanceInput Unit) :=
  [.readFirst, .insertFirst 0 1000,
   .propose ⟨1⟩ { DEFAULT_IDENTITY_THRESHOLDS with matchAt := 1 / 2 } "fewer false matches" 2000,
   .decide ⟨1⟩ 1 .approve none 3000, .decide ⟨2⟩ 1 .approve none 4000, .commitDecision,
   .putStaff { id := ⟨2⟩, role := .admin, disabled := true },
   .propose ⟨1⟩ { DEFAULT_IDENTITY_THRESHOLDS with matchAt := 3 / 5 } "fewer false matches" 5000,
   .decide ⟨1⟩ 2 .approve none 6000, .commitDecision,
   .rollback ⟨1⟩ 0 "too many holds" 7000]

theorem four_eyes_restored :
    ((governance Unit).run ungoverned restored).rows.configs.map (·.status) =
        [.retired, .retired, .retired, .active] ∧
      ((governance Unit).run ungoverned restored).rows.settings.thresholds =
        { DEFAULT_IDENTITY_THRESHOLDS with mismatch := 1 / 5 } ∧
      ∀ c ∈ ((governance Unit).run ungoverned restored).rows.configs,
        c.status = .active ∨ c.status = .retired → c.version = 1 ∨
          ApprovedByOther c ∨ SelfApprovedAlone ungoverned restored c ∨
            RestoresFormer ungoverned restored c :=
  ⟨by decide +kernel, by decide +kernel,
    (four_eyes ⟨rfl, rfl, rfl⟩
      (by decide +kernel : (governance Unit).Admits ungoverned restored)).2.2.2.1⟩

end Runs

end SmartProctoring
