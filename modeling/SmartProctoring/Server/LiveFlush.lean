import SmartProctoring.Server.LiveCalls

/-!
# What a flush of live updates does

A flush knows the right organisations (`OrgsKnown`), so it drops no session of an observed one.
Whenever a query has been answered it does one of few things (`FlushPhase.step_cases`): it makes
moves and goes on, takes the sessions that are due, ends, or publishes the summaries it has loaded.
-/

set_option autoImplicit false

namespace SmartProctoring

open List

/-! ## Organisations -/

/-- The sessions of a group are the organisation's. -/
def Grouped (data : LiveData) (byOrg : List (Nat × List Nat)) : Prop :=
  ∀ g ∈ byOrg, ∀ id ∈ g.2, data.orgOf id = g.1

/-- What is known of the checks is right. -/
def ChecksKnown (data : LiveData) (checks : List DueCheck) : Prop :=
  ∀ c ∈ checks, c.sessionId = data.sessionOfCheck c.checkId ∧ ∀ o ∈ c.orgId,
  o = data.orgOf c.sessionId

/-- A flush knows the right organisations, and forgets no session. -/
def FlushPhase.OrgsKnown (data : LiveData) : FlushPhase → Prop
  | .events _ checks | .eventRows _ _ checks | .checkOrgs checks | .checkRows checks =>
      ChecksKnown data checks
  | .takeSessions => True
  | .sessionOrgs list unknown byOrg =>
    Grouped data byOrg ∧ ∀ id ∈ list, data.found id = true → id ∈ unknown ∨ id ∈ byOrg.flatMap (·.2)
  | .orgs byOrg => Grouped data byOrg
  | .loading orgId _ rest byOrg => (∀ id ∈ rest, data.orgOf id = orgId) ∧ Grouped data byOrg

namespace LiveNotifier

/-- What is known of the sessions' organisations is right. -/
structure SessionsKnown (data : LiveData) (s : LiveNotifier) : Prop where
  sessions : ∀ id st, s.session? id = some st → ∀ o ∈ st.orgId, o = data.orgOf id
  due : ∀ id e, s.dueSessions.find? id = some e → ∀ o ∈ e.2, o = data.orgOf id

structure OrgsKnown (data : LiveData) (s : LiveNotifier) : Prop extends SessionsKnown data s where
  checks : ChecksKnown data s.dueChecks.rows
  running : ∀ p ∈ s.running, p.OrgsKnown data

end LiveNotifier

open LiveNotifier

section

variable {cfg : LiveNotifierOptions} {data : LiveData} {s s' : LiveNotifier}

variable {byOrg : List (Nat × List Nat)}

theorem mem_addToOrg {orgId id id' : Nat} :
    id' ∈ (addToOrg orgId id byOrg).flatMap (·.2) ↔ id' = id ∨ id' ∈ byOrg.flatMap (·.2) := by
  induction byOrg with
  | nil => simp [addToOrg]
  | cons g byOrg ih =>
    rw [addToOrg]
    split
    · simp only [flatMap_cons, mem_append, mem_singleton]
      rw [or_assoc, or_left_comm]
    · simp only [flatMap_cons, mem_append, ih]
      rw [or_left_comm]

theorem Grouped.addToOrg (h : Grouped data byOrg) (id : Nat) :
    Grouped data (addToOrg (data.orgOf id) id byOrg) := by
  induction byOrg with
  | nil => simp [LiveNotifier.addToOrg, Grouped]
  | cons g byOrg ih =>
    have hrest : Grouped data byOrg := fun g' hg' => h g' (mem_cons_of_mem g hg')
    rw [LiveNotifier.addToOrg]
    split
    next hg =>
      rintro g' hg' id' hid'
      rcases mem_cons.1 hg' with rfl | hg'
      · rcases mem_snoc.1 hid' with hid' | rfl
        · exact h g mem_cons_self id' hid'
        · exact hg.symm
      · exact hrest g' hg' id' hid'
    next =>
      rintro g' hg' id' hid'
      rcases mem_cons.1 hg' with rfl | hg'
      · exact h g mem_cons_self id' hid'
      · exact ih hrest g' hg' id' hid'

theorem LiveCall.sessionsKnown (h : LiveCall cfg data s s') (hk : SessionsKnown data s) :
    SessionsKnown data s' := by
  have hset : ∀ id st, (∀ o ∈ st.orgId, o = data.orgOf id) →
      ∀ id' st', (s.setSession id st).session? id' = some st' → ∀ o ∈ st'.orgId, o = data.orgOf id' := by
    intro id st hst id' st' hst'
    rw [session?_setSession] at hst'
    split at hst'
    next hid =>
      rw [hid, ← Option.some.inj hst']
      exact hst
    next => exact hk.sessions id' st' hst'
  cases h with
  | @touch id orgId st _ h horg =>
    refine ⟨fun id' st' hst' => ?_, fun id' e he => hk.due id' e (by rwa [h.rest] at he)⟩
    by_cases hid : id' = id
    · subst hid
      rw [h.self] at hst'
      obtain rfl := Option.some.inj hst'
      rw [h.org]
      rcases orgId with _ | o
      · rcases hs : s.session? id' with _ | st₀
        · simp
        · simpa using hk.sessions id' st₀ hs
      · exact horg
    · rcases h.others id' hid with heq | ⟨hnone, -⟩
      · exact hk.sessions id' st' (heq ▸ hst')
      · rw [hnone] at hst'
        simp at hst'
  | @mark id st visible hst _ =>
    obtain ⟨t, h⟩ := markSessionDue_eq cfg s id { st with timer := none } visible
    rw [h]
    refine ⟨hset id _ (hk.sessions id st hst), fun id' e he => ?_⟩
    simp only [Table.find?_upsert] at he
    split at he
    next hid =>
      rw [hid, ← Option.some.inj he]
      exact hk.sessions id st hst
    next => exact hk.due id' e he
  | @arm id st hst _ _ => exact ⟨hset id _ (hk.sessions id st hst), hk.due⟩
  | learn id =>
    unfold learnOrg
    split
    next st hst => exact ⟨hset id _ (by simp), hk.due⟩
    next => exact hk
  | @unthrottle id _ =>
    unfold LiveNotifier.unthrottle
    split
    next st hst => exact ⟨hset id _ (hk.sessions id st hst), hk.due⟩
    next => exact hk

theorem LiveCalls.sessionsKnown (h : LiveCalls cfg data s s') (hk : SessionsKnown data s) :
    SessionsKnown data s' :=
  h.keep (fun _ _ _ hc hk => hc.sessionsKnown hk) hk

theorem LiveCalls.orgsKnown (h : LiveCalls cfg data s s') (hk : OrgsKnown data s) :
    OrgsKnown data s' where
  toSessionsKnown := h.sessionsKnown hk.toSessionsKnown
  checks := by
    rw [h.extends.dueChecks_eq]
    exact hk.checks
  running := by
    rw [h.extends.running_eq]
    exact hk.running

theorem mem_foldl_addToOrg {id' : Nat} {ids : List Nat} :
    id' ∈ (ids.foldl (fun byOrg id => addToOrg (data.orgOf id) id byOrg) byOrg).flatMap (·.2) ↔
      id' ∈ ids ∨ id' ∈ byOrg.flatMap (·.2) := by
  induction ids generalizing byOrg with
  | nil => simp
  | cons id ids ih =>
    rw [foldl_cons, ih, mem_addToOrg, mem_cons]
    rw [or_left_comm, or_assoc]

theorem Grouped.foldl_addToOrg {ids : List Nat} (h : Grouped data byOrg) :
    Grouped data (ids.foldl (fun byOrg id => LiveNotifier.addToOrg (data.orgOf id) id byOrg) byOrg) := by
  induction ids generalizing byOrg with
  | nil => exact h
  | cons id ids ih => exact ih (h.addToOrg id)

theorem grouped_knownOrgs {list : List (Nat × Option Nat)}
    (h : ∀ e ∈ list, ∀ o ∈ e.2, o = data.orgOf e.1) : Grouped data (knownOrgs list) ∧
      ∀ e ∈ list, e.1 ∈ unknownOrgs list ∨ e.1 ∈ (knownOrgs list).flatMap (·.2) := by
  rw [knownOrgs_eq_foldl data.orgOf h]
  refine ⟨Grouped.foldl_addToOrg (by simp [Grouped]), fun e he => ?_⟩
  rcases hsome : e.2 with _ | o
  · exact .inl (mem_map.2 ⟨e, mem_filter.2 ⟨he, by simp [hsome]⟩, rfl⟩)
  · exact .inr (mem_foldl_addToOrg.2 (.inl (mem_map.2 ⟨e, mem_filter.2 ⟨he, by simp [hsome]⟩, rfl⟩)))

theorem ChecksKnown.subset {checks checks' : List DueCheck} (h : ChecksKnown data checks)
    (hsub : checks' ⊆ checks) : ChecksKnown data checks' :=
  fun c hc => h c (hsub hc)

theorem ChecksKnown.getD {checks : List DueCheck} (h : ChecksKnown data checks) {c : DueCheck}
    (hc : c ∈ checks) : c.orgId.getD (data.orgOf c.sessionId) = data.orgOf c.sessionId := by
  rcases ho : c.orgId with _ | o
  · rfl
  · exact (h c hc).2 o ho

/-! ## What a flush does next -/

end

namespace FlushPhase

/-- The flush has still to take the sessions that are due. -/
def takes : FlushPhase → Prop
  | .events _ _ | .eventRows _ _ _ | .checkOrgs _ | .checkRows _ | .takeSessions => True
  | .sessionOrgs _ _ _ | .orgs _ | .loading _ _ _ _ => False

/-- The summaries being loaded. -/
def summaries : FlushPhase → List (Nat × Nat)
  | .loading _ summaries _ _ => summaries
  | _ => []

/-- The flush will mark the session due, begin to load its summary, or is loading it at this
version. -/
def Serves (data : LiveData) (version : Nat → Nat) (id : Nat) : FlushPhase → Prop
  | .events ids checks => (∃ e ∈ ids, data.sessionOf e = id) ∨ ∃ c ∈ checks, c.sessionId = id
  | .eventRows wanted ids checks =>
    (∃ e ∈ wanted, data.sessionOf e = id) ∨ (∃ e ∈ ids, data.sessionOf e = id) ∨ ∃ c ∈ checks,
    c.sessionId = id
  | .checkOrgs checks | .checkRows checks => ∃ c ∈ checks, c.sessionId = id
  | .takeSessions => False
  | .sessionOrgs list _ _ => id ∈ list
  | .orgs byOrg => id ∈ byOrg.flatMap (·.2)
  | .loading _ summaries rest byOrg => (id, version id) ∈ summaries ∨ id ∈ rest ∨ id ∈ byOrg.flatMap (·.2)

/-- A phase as it begins: what is loaded is what there is now. -/
structure Begun (data : LiveData) (version : Nat → Nat) (p : FlushPhase) : Prop where
  orgs : p.OrgsKnown data
  fresh : ∀ e ∈ p.summaries, e.2 = version e.1 ∧ data.found e.1 = true

end FlushPhase

section

variable {cfg : LiveNotifierOptions} {data : LiveData} {s s' : LiveNotifier} {p : FlushPhase}

theorem loadChunk_eq {orgId : Nat} {ids : List Nat} {byOrg : List (Nat × List Nat)}
    (hids : ∀ id ∈ ids, data.orgOf id = orgId) (hby : Grouped data byOrg) :
    ∃ p', s.loadChunk data orgId ids byOrg = s.goTo p' ∧ p'.Begun data s.version ∧
      ∀ id, data.found id = true → id ∈ ids ∨ id ∈ byOrg.flatMap (·.2) → p'.Serves data s.version id := by
  unfold loadChunk
  split
  next hnil =>
    refine ⟨_, rfl, ⟨hby, by simp [FlushPhase.summaries]⟩, fun id _ hid => hid.resolve_left ?_⟩
    simp [hnil]
  next =>
    refine ⟨_, rfl, ⟨⟨fun id hid => hids id (mem_of_mem_drop hid), hby⟩, ?_⟩, fun id hfound hid => ?_⟩
    · intro e he
      obtain ⟨id, hid, rfl⟩ := mem_map.1 he
      have hsel := of_decide_eq_true (mem_filter.1 hid).2
      exact ⟨rfl, hsel.1⟩
    · rcases hid with hid | hid
      · rw [← take_append_drop LIVE_CHUNK ids, mem_append] at hid
        rcases hid with htake | hdrop
        · refine .inl (mem_map.2 ⟨id, mem_filter.2 ⟨htake, ?_⟩, rfl⟩)
          simp [hfound, hids id (mem_of_mem_take htake)]
        · exact .inr (.inl hdrop)
      · exact .inr (.inr hid)

/-- The moves of a phase lead to the next one, and a session is passed on or queued. -/
def FlushPhase.PassesOn (data : LiveData) (p : FlushPhase) (s s₁ : LiveNotifier)
    (p' : FlushPhase) : Prop :=
  ∀ id, data.found id = true → s.hasSubscribers (data.orgOf id) = true →
    p.Serves data s.version id → s₁.Queued id ∨ p'.Serves data s.version id

theorem queued_foldl {α : Type} {f : LiveNotifier → α → LiveNotifier} {as : List α} {a : α}
    {id : Nat} (ha : a ∈ as)
    (hf : ∀ t, ∀ b ∈ as, LiveCalls cfg data t (f t b))
    (hq : ∀ t, LiveExtends s t → (f t a).Queued id) : (as.foldl f s).Queued id := by
  obtain ⟨l₁, l₂, rfl⟩ := append_of_mem ha
  rw [foldl_append]
  have h₁ : LiveCalls cfg data s (l₁.foldl f s) :=
    liveCalls_foldl (P := fun b => b ∈ l₁) (fun t b _ hb => hf t b (mem_append_left _ hb)) fun b hb => hb
  have h₂ : LiveCalls cfg data (f (l₁.foldl f s) a) (l₂.foldl f (f (l₁.foldl f s) a)) :=
    liveCalls_foldl (P := fun b => b ∈ l₂)
      (fun t b _ hb => hf t b (mem_append_right _ (mem_cons_of_mem a hb))) fun b hb => hb
  exact h₂.extends.queued id (hq _ h₁.extends)

/-- The phase makes calls and goes on to the next one. -/
def FlushPhase.Moves (cfg : LiveNotifierOptions) (data : LiveData) (p : FlushPhase)
    (s : LiveNotifier) : Prop :=
  ∃ s₁ p', LiveCalls cfg data s s₁ ∧ p.step cfg data s = s₁.goTo p' ∧ p'.Begun data s.version ∧
    (p.takes → p'.takes) ∧ p.summaries = [] ∧ p.PassesOn data s s₁ p'

namespace FlushPhase

theorem begun_of_nil (hnil : p.summaries = []) (hp : p.OrgsKnown data) : p.Begun data s.version :=
  ⟨hp, by simp [hnil]⟩

theorem moves_events {ids : List Nat} {checks : List DueCheck}
    (hp : (events ids checks).OrgsKnown data) : (events ids checks).Moves cfg data s := by
  refine ⟨s, ?_⟩
  dsimp only [FlushPhase.step]
  split
  next hnil =>
    refine ⟨_, .refl, rfl, ?_, fun _ => ?_, rfl, fun id _ _ hid => .inr ?_⟩
    · split
      · exact begun_of_nil rfl trivial
      · exact begun_of_nil rfl hp
    · split <;> exact trivial
    · rcases hid with ⟨e, he, -⟩ | ⟨c, hc, hid⟩
      · simp [hnil] at he
      · rw [if_neg (ne_nil_of_mem hc)]
        exact ⟨c, hc, hid⟩
  next =>
    refine ⟨_, .refl, rfl, ?_, fun _ => ?_, rfl, fun id hfound hobs hid => .inr ?_⟩
    · split <;> exact begun_of_nil rfl hp
    · split <;> exact trivial
    · rcases hid with ⟨e, he, hid⟩ | hc
      · rw [← take_append_drop LIVE_CHUNK ids, mem_append] at he
        rcases he with htake | hdrop
        · have hwanted : e ∈ (ids.take LIVE_CHUNK).filter fun e =>
              data.found (data.sessionOf e) ∧ s.hasSubscribers (data.orgOf (data.sessionOf e)) :=
            mem_filter.2 ⟨htake, by simp [hid, hfound, hobs]⟩
          rw [if_neg (ne_nil_of_mem hwanted)]
          exact .inl ⟨e, hwanted, hid⟩
        · split
          · exact .inl ⟨e, hdrop, hid⟩
          · exact .inr (.inl ⟨e, hdrop, hid⟩)
      · split
        · exact .inr hc
        · exact .inr (.inr hc)

theorem moves_eventRows {wanted ids : List Nat} {checks : List DueCheck}
    (hp : (eventRows wanted ids checks).OrgsKnown data) :
    (eventRows wanted ids checks).Moves cfg data s := by
  have hcall : ∀ t, ∀ e ∈ wanted, LiveCalls cfg data t
      (t.sessionChanged cfg (data.sessionOf e) (some (data.orgOf (data.sessionOf e))) true) :=
    fun t e _ => liveCalls_sessionChanged (by simp) true
  refine ⟨_, _, liveCalls_foldl (P := fun e => e ∈ wanted) (fun t e _ he =>
    hcall t e he) fun e he => he, rfl,
    begun_of_nil rfl hp, fun _ => trivial, rfl, fun id _ hobs hid => ?_⟩
  rcases hid with ⟨e, he, rfl⟩ | hid
  · exact .inl (queued_foldl he hcall fun t ht =>
      queued_sessionChanged (by simpa [observed, ht.hasSubscribers_eq] using hobs))
  · exact .inr hid

theorem moves_checkOrgs {checks : List DueCheck} (hp : (checkOrgs checks).OrgsKnown data) :
    (checkOrgs checks).Moves cfg data s := by
  refine ⟨s, _, .refl, rfl, begun_of_nil rfl (hp.subset fun c hc => mem_of_mem_filter hc),
    fun _ => trivial, rfl,
    fun id hfound hobs hid => .inr ?_⟩
  obtain ⟨c, hc, rfl⟩ := hid
  refine ⟨c, mem_filter.2 ⟨hc, ?_⟩, rfl⟩
  simp [hfound, hp.getD hc, hobs]

theorem moves_checkRows {checks : List DueCheck} (hp : (checkRows checks).OrgsKnown data) :
    (checkRows checks).Moves cfg data s := by
  unfold Moves
  dsimp only [FlushPhase.step]
  split
  next hnil =>
    refine ⟨s, _, .refl, rfl, begun_of_nil rfl trivial, fun _ => trivial, rfl, fun id _ _ hid => ?_⟩
    obtain ⟨c, hc, -⟩ := hid
    simp [hnil] at hc
  next =>
    have hcall : ∀ t, ∀ c ∈ checks, LiveCalls cfg data t
        (t.sessionChanged cfg c.sessionId (some (c.orgId.getD (data.orgOf c.sessionId))) true) := by
      intro t c hc
      rw [hp.getD hc]
      exact liveCalls_sessionChanged (by simp) true
    have hmem : ∀ c ∈ checks.take LIVE_CHUNK, c ∈ checks := fun c => mem_of_mem_take
    refine ⟨_, _, liveCalls_foldl (P := fun c => c ∈ checks) (fun t c _ hc => hcall t c hc) hmem, rfl,
      begun_of_nil rfl (hp.subset (drop_subset _ _)), fun _ => trivial, rfl, fun id _ hobs hid => ?_⟩
    obtain ⟨c, hc, rfl⟩ := hid
    rw [← take_append_drop LIVE_CHUNK checks, mem_append] at hc
    rcases hc with htake | hdrop
    · refine .inl (queued_foldl htake (fun t c hc => hcall t c (hmem c hc)) fun t ht => queued_sessionChanged ?_)
      simpa [observed, ht.hasSubscribers_eq, hp.getD (hmem c htake)] using hobs
    · exact .inr ⟨c, hdrop, rfl⟩

theorem moves_sessionOrgs {list unknown : List Nat} {byOrg : List (Nat × List Nat)}
    (hp : (sessionOrgs list unknown byOrg).OrgsKnown data) :
    (sessionOrgs list unknown byOrg).Moves cfg data s := by
  unfold Moves
  dsimp only [FlushPhase.step]
  split
  next hnil =>
    have hby : ∀ id ∈ list, data.found id = true → id ∈ byOrg.flatMap (·.2) := by
      intro id hid hfound
      refine (hp.2 id hid hfound).resolve_left ?_
      simp [hnil]
    refine ⟨_, _, liveCalls_unthrottleAll fun id hid hfound => ?_, rfl, begun_of_nil rfl hp.1,
      fun h => h, rfl,
      fun id hfound _ hid => .inr (hby id hid hfound)⟩
    obtain ⟨hlist, hno⟩ := mem_filter.1 hid
    simp [hby id hlist hfound] at hno
  next =>
    refine ⟨_, _, liveCalls_foldl (P := fun _ => True) (fun t id _ _ => .single (.learn id)) (by simp), rfl,
      begun_of_nil rfl ⟨hp.1.foldl_addToOrg, fun id hid hfound => ?_⟩, fun h => h, rfl, fun id _ _ hid => .inr hid⟩
    rw [mem_foldl_addToOrg]
    rcases hp.2 id hid hfound with hun | hby
    · rw [← take_append_drop LIVE_CHUNK unknown, mem_append] at hun
      rcases hun with htake | hdrop
      · exact .inr (.inl (mem_filter.2 ⟨htake, hfound⟩))
      · exact .inl hdrop
    · exact .inr (.inr hby)

theorem moves_orgs {orgId : Nat} {ids : List Nat} {byOrg : List (Nat × List Nat)}
    (hp : (orgs ((orgId, ids) :: byOrg)).OrgsKnown data) :
    (orgs ((orgId, ids) :: byOrg)).Moves cfg data s := by
  have hids : ∀ id ∈ ids, data.orgOf id = orgId := hp _ mem_cons_self
  have hby : Grouped data byOrg := fun g hg => hp g (mem_cons_of_mem _ hg)
  unfold Moves
  dsimp only [FlushPhase.step]
  split
  next =>
    obtain ⟨p', h, hbegun, hserves⟩ := loadChunk_eq (s := s) hids hby
    refine ⟨s, p', .refl, h, hbegun, fun h => h.elim, rfl, fun id hfound _ hid => .inr ?_⟩
    exact hserves id hfound (by simpa [FlushPhase.Serves] using hid)
  next hno =>
    refine ⟨_, _, liveCalls_unthrottleAll fun id hid _ => ?_, rfl, begun_of_nil rfl hby, fun h => h, rfl,
      fun id _ hobs hid => .inr ?_⟩
    · rw [hids id hid]
      simpa using hno
    · rw [FlushPhase.Serves, flatMap_cons, mem_append] at hid
      refine hid.resolve_left fun hid => hno ?_
      rwa [← hids id hid]

end FlushPhase

/-- **What a flush does next.**  It moves and goes on, takes the sessions that are due, ends, or
publishes the summaries it has loaded. -/
theorem FlushPhase.step_cases (cfg : LiveNotifierOptions) (hp : p.OrgsKnown data)
    (hk : SessionsKnown data s) : p.Moves cfg data s ∨
      (p = .takeSessions ∧ s.dueSessions.rows = [] ∧
        p.step cfg data s = { s with dueSessions := .empty }.endFlush) ∨
      (p = .takeSessions ∧ ∃ p', p.step cfg data s = { s with dueSessions := .empty }.goTo p' ∧
        p'.Begun data s.version ∧ ∀ id, (s.dueSessions.find? id).isSome → p'.Serves data s.version id) ∨
      (p = .orgs [] ∧ p.step cfg data s = s.endFlush) ∨
      (∃ p', p.step cfg data s = (s.publish p.summaries).goTo p' ∧ p'.Begun data s.version ∧ ¬ p.takes ∧
        ∀ id, data.found id = true → p.Serves data s.version id →
          (id, s.version id) ∈ p.summaries ∨ p'.Serves data s.version id) := by
  cases p with
  | events => exact .inl (moves_events hp)
  | eventRows => exact .inl (moves_eventRows hp)
  | checkOrgs => exact .inl (moves_checkOrgs hp)
  | checkRows => exact .inl (moves_checkRows hp)
  | takeSessions =>
    dsimp only [FlushPhase.step]
    split
    next hnil => exact .inr (.inl ⟨rfl, hnil, rfl⟩)
    next =>
      obtain ⟨hg, hmem⟩ := grouped_knownOrgs fun e he => hk.due e.1 e (Table.find?_eq_some.2 ⟨he, rfl⟩)
      refine .inr (.inr (.inl ⟨rfl, _, rfl, begun_of_nil rfl ⟨hg, ?_⟩, ?_⟩))
      · intro id hid _
        obtain ⟨e, he, rfl⟩ := mem_map.1 hid
        exact hmem e he
      · intro id hid
        obtain ⟨e, he⟩ := Option.isSome_iff_exists.1 hid
        obtain ⟨hrow, rfl⟩ := Table.find?_eq_some.1 he
        exact mem_map.2 ⟨e, hrow, rfl⟩
  | sessionOrgs => exact .inl (moves_sessionOrgs hp)
  | orgs byOrg =>
    cases byOrg with
    | nil => exact .inr (.inr (.inr (.inl ⟨rfl, rfl⟩)))
    | cons => exact .inl (moves_orgs hp)
  | loading orgId summaries =>
    obtain ⟨p', h, hbegun, hserves⟩ := loadChunk_eq (s := s.publish summaries) hp.1 hp.2
    exact .inr (.inr (.inr (.inr ⟨p', h, hbegun, fun h => h, fun id hfound hid =>
      hid.imp_right (hserves id hfound)⟩)))

end

end SmartProctoring
