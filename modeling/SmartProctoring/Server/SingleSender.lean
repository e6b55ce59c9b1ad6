import Mathlib.Data.List.Perm.Basic
import Mathlib.Data.List.Perm.Subperm
import SmartProctoring.Server.Webhooks

/-!
# Webhook delivery: one sender, and a final success

A sender *holds* the rows it has claimed and neither recorded nor given back.  While no two senders
hold the same row, a row is sent by one sender at a time, a recorded success stays, and no row is
attempted more often than it may be.

A run of the dispatcher claims due rows only, and the lease it takes keeps them from being due.  The
immediate path claims by id whatever is pending, leased or not: `ClaimsFree` is what it does not
check, with the one timing condition that an immediate delivery is done within its own lease.
-/

set_option autoImplicit false

namespace SmartProctoring

open List

namespace Sender

/-- The deliveries a sender has claimed and not settled. -/
def held : Sender → List WebhookDelivery
  | .idle => []
  | .claimed rows => rows
  | .pass queue active => (queue ++ active).flatMap Batch.list
  | .claimedNow d | .sendingNow d _ => [d]

/-- The deliveries whose request is on its way. -/
def sending : Sender → List WebhookDelivery
  | .pass _ active => active.flatMap fun b => if b.sending then b.list.take 1 else []
  | .sendingNow d _ => [d]
  | .idle | .claimed _ | .claimedNow _ => []

/-- The sender is a run of the dispatcher. -/
def dispatching : Sender → Bool
  | .claimed _ | .pass _ _ => true
  | .idle | .claimedNow _ | .sendingNow _ _ => false

theorem sending_sublist (p : Sender) : (sending p).Sublist (held p) := by
  cases p with
  | pass queue active =>
    rw [held, flatMap_append]
    refine List.Sublist.trans ?_ (sublist_append_right _ _)
    rw [sending, flatMap_def]
    induction active with
    | nil => exact .refl _
    | cons b active ih =>
      simp only [map_cons, flatten_cons]
      refine List.Sublist.append ?_ ih
      split
      · exact take_sublist _ _
      · exact nil_sublist _
  | idle | claimed | claimedNow => exact nil_sublist _
  | sendingNow => exact .refl _

end Sender

section Runs

variable {ι : Type}

/-- Single sending: no delivery is on its way twice, a recorded success stays in the
row and the row is no longer in any sender's hands, and attempts stay within the limit. -/
structure SingleSender (cfg : WebhookConfig) (s : WebhookState ι) : Prop where
  once (j k : ι) : ∀ d ∈ (s.loc j).sending, ∀ d' ∈ (s.loc k).sending, d.id = d'.id → j = k
  nodup (k : ι) : ((s.loc k).sending.map WebhookDelivery.id).Nodup
  final : ∀ id, ⟨id, true⟩ ∈ s.shared.recorded →
    (∀ r ∈ s.shared.deliveries.rows, r.id = id → r.status = .succeeded) ∧
      ∀ k, ∀ d ∈ (s.loc k).held, d.id ≠ id
  attempts : ∀ r ∈ s.shared.deliveries.rows, r.attempts ≤ cfg.limit r ∧
    r.attempts = s.shared.recorded.countP fun e => e.id = r.id

/-- The condition on the steps: an immediate delivery takes no row that another sender holds, and is
done within its lease when the dispatcher claims. -/
def ClaimsFree (x : WebhookInput ι) (s : WebhookState ι) : Prop :=
  match x with
  | .deliverNow k id _ => ∀ j, j ≠ k → ∀ d ∈ (s.loc j).held, d.id ≠ id
  | .claim _ _ => ∀ j, (s.loc j).dispatching = false →
      ∀ d ∈ (s.loc j).held, s.shared.clock < d.nextAttemptAt
  | _ => True

/-! ## The invariant -/

/-- What holds of a row in a sender's hands. -/
structure HeldOk (cfg : WebhookConfig) (st : WebhookStore ι) (d : WebhookDelivery) : Prop where
  more : d.attempts < cfg.limit d
  known : d.id < st.nextId
  open_ : ⟨d.id, true⟩ ∉ st.recorded
  row : ∀ r, st.deliveries.find? d.id = some r → r.ping = d.ping ∧ r.attempts = d.attempts ∧
    r.status ≠ .succeeded ∧ (r.status = .pending → r.nextAttemptAt = d.nextAttemptAt)

/-- What holds of a row of the table. -/
structure DeliveryOk (cfg : WebhookConfig) (st : WebhookStore ι) (r : WebhookDelivery) : Prop where
  known : r.id < st.nextId
  attempts : r.attempts = st.recorded.countP fun e => e.id = r.id
  limit : r.attempts ≤ cfg.limit r
  more : r.status = .pending → r.attempts < cfg.limit r
  final : ⟨r.id, true⟩ ∈ st.recorded → r.status = .succeeded

def RowsOk (cfg : WebhookConfig) (st : WebhookStore ι) : Prop :=
  ∀ id r, st.deliveries.find? id = some r → DeliveryOk cfg st r

structure SendersOk (cfg : WebhookConfig) (s : WebhookState ι) : Prop where
  row : RowsOk cfg s.shared
  held (k : ι) : ∀ d ∈ (s.loc k).held, HeldOk cfg s.shared d
  nodup (k : ι) : ((s.loc k).held.map WebhookDelivery.id).Nodup
  apart (j k : ι) : j ≠ k → ∀ d ∈ (s.loc j).held, ∀ d' ∈ (s.loc k).held, d.id ≠ d'.id
  locked (k : ι) : (s.loc k).dispatching = true → s.shared.lock = some k
  past : ∀ e ∈ s.shared.recorded, e.id < s.shared.nextId

variable {cfg : WebhookConfig} {s : WebhookState ι}

theorem SendersOk.singleSender (h : SendersOk cfg s) :
    SingleSender cfg s where
  once j k d hd d' hd' hid := by
    by_contra hne
    exact h.apart j k hne d ((s.loc j).sending_sublist.subset hd) d'
      ((s.loc k).sending_sublist.subset hd') hid
  nodup k := (h.nodup k).sublist ((s.loc k).sending_sublist.map _)
  final id hid := by
    refine ⟨fun r hr hrid => ?_, fun k d hd hdid => ?_⟩
    · exact (h.row id r (Table.find?_eq_some.2 ⟨hr, hrid⟩)).final (hrid ▸ hid)
    · exact (h.held k d hd).open_ (hdid ▸ hid)
  attempts r hr :=
    have hrow := h.row r.id r (Table.find?_eq_some.2 ⟨hr, rfl⟩)
    ⟨hrow.limit, hrow.attempts⟩

/-! ## Steps that settle rows of their own -/

/-- A sender's step changes the rows `ids`, which it held, and keeps some of the others. -/
structure Settles (st st' : WebhookStore ι) (ids : List Nat) : Prop where
  nextId : st'.nextId = st.nextId
  others : ∀ id, id ∉ ids → st'.deliveries.find? id = st.deliveries.find? id
  recorded : ∃ es, st'.recorded = es ++ st.recorded ∧ ∀ e ∈ es, e.id ∈ ids

theorem Settles.trans {st st' st'' : WebhookStore ι} {ids ids' : List Nat}
    (h : Settles st st' ids) (h' : Settles st' st'' ids') : Settles st st'' (ids ++ ids') := by
  obtain ⟨es, hes, hmem⟩ := h.recorded
  obtain ⟨es', hes', hmem'⟩ := h'.recorded
  refine ⟨h'.nextId.trans h.nextId, fun id hid => ?_, es' ++ es, by simp [hes, hes'], ?_⟩
  · rw [mem_append, not_or] at hid
    exact (h'.others id hid.2).trans (h.others id hid.1)
  · intro e he
    rcases mem_append.1 he with he | he
    · exact mem_append_right _ (hmem' e he)
    · exact mem_append_left _ (hmem e he)

variable {st st' : WebhookStore ι} {ids : List Nat} {id : Nat}

theorem Settles.not_mem (h : Settles st st' ids)
    (hid : id ∉ ids) {ok : Bool} (hrec : ⟨id, ok⟩ ∈ st'.recorded) :
    ⟨id, ok⟩ ∈ st.recorded := by
  obtain ⟨es, hes, hmem⟩ := h.recorded
  rw [hes, mem_append] at hrec
  exact hrec.resolve_left fun he => hid (hmem _ he)

variable {d : WebhookDelivery}

theorem Settles.heldOk (h : Settles st st' ids) (hid : d.id ∉ ids) (hd : HeldOk cfg st d) :
    HeldOk cfg st' d where
  more := hd.more
  known := by rw [h.nextId]; exact hd.known
  open_ hrec := hd.open_ (h.not_mem hid hrec)
  row r hr := hd.row r (by rwa [h.others _ hid] at hr)

variable {r : WebhookDelivery}

theorem Settles.rowOk (h : Settles st st' ids) (hid : r.id ∉ ids) (hr : DeliveryOk cfg st r) :
    DeliveryOk cfg st' r where
  __ := hr
  known := by rw [h.nextId]; exact hr.known
  attempts := by
    obtain ⟨es, hes, hmem⟩ := h.recorded
    have hzero : es.countP (fun e => decide (e.id = r.id)) = 0 := by
      rw [countP_eq_zero]
      intro e he heq
      exact hid (of_decide_eq_true heq ▸ hmem e he)
    rw [hes, countP_append, hzero, Nat.zero_add]
    exact hr.attempts
  final hrec := hr.final (h.not_mem hid hrec)

theorem DeliveryOk.congr
    (h : DeliveryOk cfg st r) (hnext : st'.nextId = st.nextId) (hrec : st'.recorded = st.recorded) :
    DeliveryOk cfg st' r :=
  ⟨by rw [hnext]; exact h.known, by rw [hrec]; exact h.attempts, h.limit, h.more,
    by rw [hrec]; exact h.final⟩

theorem Settles.rowsOk (h : Settles st st' ids) (hst : RowsOk cfg st)
    (hids : ∀ id ∈ ids, ∀ r, st'.deliveries.find? id = some r → DeliveryOk cfg st' r) :
    RowsOk cfg st' := by
  intro id r hr
  by_cases hmem : id ∈ ids
  · exact hids id hmem r hr
  · have hid := (Table.find?_eq_some.1 hr).2
    rw [h.others id hmem] at hr
    exact h.rowOk (hid ▸ hmem) (hst id r hr)

variable [DecidableEq ι]

variable {k : ι}

theorem SendersOk.settle (h : SendersOk cfg s)
    {next : WebhookStore ι × Sender} (settled : List WebhookDelivery)
    (hs : Settles s.shared next.1 (settled.map WebhookDelivery.id))
    (hrows : RowsOk cfg next.1)
    (hheld : (next.2.held ++ settled).Subperm (s.loc k).held)
    (hlock : next.2.dispatching = true → next.1.lock = some k)
    (hfree : ∀ j, j ≠ k → s.shared.lock = some j → next.1.lock = some j) :
    SendersOk cfg (s.move k next) := by
  have hsub : ∀ d ∈ next.2.held, d ∈ (s.loc k).held := fun d hd =>
    hheld.subset (mem_append_left _ hd)
  have hown : ∀ d ∈ settled, d ∈ (s.loc k).held := fun d hd =>
    hheld.subset (mem_append_right _ hd)
  have hnodup : (next.2.held.map WebhookDelivery.id ++ settled.map WebhookDelivery.id).Nodup := by
    obtain ⟨l, hperm, hl⟩ := hheld
    rw [← map_append, ← (hperm.map WebhookDelivery.id).nodup_iff]
    exact (h.nodup k).sublist (hl.map _)
  have hkept : ∀ d ∈ next.2.held, d.id ∉ settled.map WebhookDelivery.id := fun d hd hmem =>
    (nodup_append.1 hnodup).2.2 d.id (mem_map_of_mem hd) d.id hmem rfl
  have hother : ∀ j, j ≠ k → ∀ d ∈ (s.loc j).held, d.id ∉ settled.map WebhookDelivery.id := by
    intro j hj d hd hmem
    obtain ⟨d', hd', hid⟩ := mem_map.1 hmem
    exact h.apart j k hj d hd d' (hown d' hd') hid.symm
  refine ⟨hrows, fun j d hd => ?_, fun j => ?_, fun i j hij d hd d' hd' => ?_, fun j hj => ?_,
    fun e he => ?_⟩
  · by_cases hj : j = k
    · subst hj
      rw [Processes.move_loc_self] at hd
      exact hs.heldOk (hkept d hd) (h.held j d (hsub d hd))
    · rw [Processes.move_loc_of_ne _ hj] at hd
      exact hs.heldOk (hother j hj d hd) (h.held j d hd)
  · by_cases hj : j = k
    · subst hj
      rw [Processes.move_loc_self]
      exact (nodup_append.1 hnodup).1
    · rw [Processes.move_loc_of_ne _ hj]
      exact h.nodup j
  · by_cases hi : i = k
    · subst hi
      rw [Processes.move_loc_self] at hd
      rw [Processes.move_loc_of_ne _ (Ne.symm hij)] at hd'
      exact h.apart i j hij d (hsub d hd) d' hd'
    · rw [Processes.move_loc_of_ne _ hi] at hd
      by_cases hj : j = k
      · subst hj
        rw [Processes.move_loc_self] at hd'
        exact h.apart i j hij d hd d' (hsub d' hd')
      · rw [Processes.move_loc_of_ne _ hj] at hd'
        exact h.apart i j hij d hd d' hd'
  · by_cases hjk : j = k
    · subst hjk
      rw [Processes.move_loc_self] at hj
      exact hlock hj
    · rw [Processes.move_loc_of_ne _ hjk] at hj
      exact hfree j hjk (h.locked j hj)
  · rw [Processes.move_shared] at he ⊢
    obtain ⟨es, hes, hmem⟩ := hs.recorded
    rw [hes, mem_append] at he
    rw [hs.nextId]
    rcases he with he | he
    · obtain ⟨d, hd, hid⟩ := mem_map.1 (hmem e he)
      rw [← hid]
      exact (h.held k d (hown d hd)).known
    · exact h.past e he

/-! ## The statements -/

omit [DecidableEq ι] in
theorem settles_update (st : WebhookStore ι) (ids : List Nat) (f : WebhookDelivery →
    WebhookDelivery) (hf : ∀ d, (f d).id = d.id) : Settles st (st.update ids f hf) ids := by
  refine ⟨rfl, fun id hid => ?_, [], rfl, by simp⟩
  rw [WebhookStore.update, Table.find?_modify]
  cases hr : st.deliveries.find? id with
  | none => rfl
  | some r =>
    have hrid := (Table.find?_eq_some.1 hr).2
    simp [hrid, hid]

omit [DecidableEq ι] in
theorem find?_update {f : WebhookDelivery → WebhookDelivery}
    {hf : ∀ d, (f d).id = d.id} (hid : id ∈ ids)
    (hr : (st.update ids f hf).deliveries.find? id = some r) :
    ∃ r₀, st.deliveries.find? id = some r₀ ∧ r = f r₀ := by
  rw [WebhookStore.update, Table.find?_modify, Option.map_eq_some_iff] at hr
  obtain ⟨r₀, hr₀, rfl⟩ := hr
  have hrid := (Table.find?_eq_some.1 hr₀).2
  exact ⟨r₀, hr₀, by simp [hrid, hid]⟩

omit [DecidableEq ι] in
theorem release_rowsOk (h : RowsOk cfg st)
    (list : List WebhookDelivery) (delayMs : Int) : RowsOk cfg (release st list delayMs) := by
  refine (settles_update _ _ _ _).rowsOk h fun id hid r hr => ?_
  obtain ⟨r₀, hr₀, rfl⟩ := find?_update hid hr
  have hrow := h id r₀ hr₀
  by_cases hp : r₀.status = .pending
  · rw [if_pos hp]
    exact { hrow with }
  · rw [if_neg hp]
    exact { hrow with }

omit [DecidableEq ι] in
theorem settles_recordAttempt (cfg : WebhookConfig) (st : WebhookStore ι) (d : WebhookDelivery)
    (hook : Webhook) (r : PostResult) : Settles st (recordAttempt cfg st d hook r).1 [d.id] := by
  have h := settles_update st [d.id] (attempted cfg st.clock (d.attempts + 1) r)
    (attempted_id _ _ _ _)
  have h' : Settles st { st.update [d.id] (attempted cfg st.clock (d.attempts + 1) r)
      (attempted_id _ _ _ _) with recorded := ⟨d.id, r.ok⟩ :: st.recorded } [d.id] :=
    ⟨h.nextId, h.others, [⟨d.id, r.ok⟩], rfl, by simp⟩
  unfold recordAttempt
  split_ifs
  exacts [h', ⟨h'.nextId, h'.others, h'.recorded⟩, ⟨h'.nextId, h'.others, h'.recorded⟩]

omit [DecidableEq ι] in
theorem lock_recordAttempt (cfg : WebhookConfig) (st : WebhookStore ι) (d : WebhookDelivery)
    (hook : Webhook) (r : PostResult) : (recordAttempt cfg st d hook r).1.lock = st.lock := by
  unfold recordAttempt
  split_ifs <;> rfl

omit [DecidableEq ι] in
theorem recordAttempt_rowsOk (h : RowsOk cfg st)
    (hd : HeldOk cfg st d) (hook : Webhook) (r : PostResult) :
    RowsOk cfg (recordAttempt cfg st d hook r).1 := by
  refine (settles_recordAttempt cfg st d hook r).rowsOk h fun id hmem row hrow => ?_
  obtain rfl : id = d.id := by simpa using hmem
  have htable : (recordAttempt cfg st d hook r).1.deliveries =
      (st.update [d.id] (attempted cfg st.clock (d.attempts + 1) r)
        (attempted_id _ _ _ _)).deliveries := by
    unfold recordAttempt
    split_ifs <;> rfl
  have hrecorded : (recordAttempt cfg st d hook r).1.recorded = ⟨d.id, r.ok⟩ :: st.recorded := by
    unfold recordAttempt
    split_ifs <;> rfl
  rw [htable] at hrow
  obtain ⟨row₀, hrow₀, rfl⟩ := find?_update (mem_singleton_self _) hrow
  have hold := h d.id row₀ hrow₀
  obtain ⟨hping, hattempts, -, -⟩ := hd.row row₀ hrow₀
  have hid := (Table.find?_eq_some.1 hrow₀).2
  have hlimit : cfg.limit row₀ = cfg.limit d := by rw [WebhookConfig.limit, WebhookConfig.limit, hping]
  have hlimit' : cfg.limit (attempted cfg st.clock (d.attempts + 1) r row₀) = cfg.limit d := by
    rw [← hlimit]
    unfold attempted
    split <;> rfl
  have hmore := hd.more
  have hcount := hold.attempts
  refine ⟨?_, ?_, ?_, fun hpending => ?_, fun hfinal => ?_⟩
  · rw [attempted_id, (settles_recordAttempt cfg st d hook r).nextId]
    exact hold.known
  · rw [hrecorded, attempted_id, hid, countP_cons]
    rw [hid] at hcount
    have : (attempted cfg st.clock (d.attempts + 1) r row₀).attempts = d.attempts + 1 := by
      unfold attempted
      split <;> rfl
    simp [this, ← hcount, hattempts]
  · rw [hlimit']
    have : (attempted cfg st.clock (d.attempts + 1) r row₀).attempts = d.attempts + 1 := by
      unfold attempted
      split <;> rfl
    omega
  · rw [hlimit']
    unfold attempted at hpending ⊢
    split at hpending
    · cases hpending
    · rename_i hok
      simp only [hok, hlimit] at hpending ⊢
      split at hpending
      · cases hpending
      · simp only [Bool.false_eq_true, if_false]
        omega
  · rw [attempted_id, hid, hrecorded, mem_cons] at hfinal
    rcases hfinal with hfinal | hfinal
    · have hok : r.ok = true := by simpa using hfinal
      simp [attempted, hok]
    · exact absurd hfinal hd.open_

omit [DecidableEq ι] in
theorem byHook_perm (st : WebhookStore ι) (rows : List WebhookDelivery) :
    ((byHook st rows).flatMap Batch.list).Perm rows := by
  have hadd : ∀ (d : WebhookDelivery) (gs : List (Nat × List WebhookDelivery)),
      ((byHook.add d gs).flatMap Prod.snd).Perm (gs.flatMap Prod.snd ++ [d]) := by
    intro d gs
    induction gs with
    | nil => exact .refl _
    | cons g gs ih =>
      rw [byHook.add]
      split
      · simp only [flatMap_cons, append_assoc]
        exact perm_append_comm.append_left g.2 
      · simp only [flatMap_cons, append_assoc]
        exact ih.append_left g.2
  have hfold : ∀ (rows : List WebhookDelivery) (gs : List (Nat × List WebhookDelivery)),
      ((rows.foldl (fun gs d => byHook.add d gs) gs).flatMap Prod.snd).Perm
        (gs.flatMap Prod.snd ++ rows) := by
    intro rows
    induction rows with
    | nil => intro gs; simp
    | cons d rows ih =>
      intro gs
      rw [foldl_cons]
      refine (ih _).trans (((hadd d gs).append_right rows).trans ?_)
      simp
  refine List.Perm.trans ?_ (hfold rows [])
  rw [byHook]
  generalize rows.foldl (fun gs d => byHook.add d gs) [] = groups
  induction groups with
  | nil => exact .refl _
  | cons g groups ih =>
    simp only [map_cons, flatMap_cons]
    exact (perm_insertionSort _ _).append ih

variable {onlyIds : Option (List Nat)}

omit [DecidableEq ι] in
theorem mem_claimIds {limit : Nat} {skip : List Nat} (h : id ∈ claimIds st limit onlyIds skip) :
    ∃ r, st.deliveries.find? id = some r ∧ claimable st onlyIds r = true := by
  rw [claimIds, mem_map] at h
  obtain ⟨r, hr, hid⟩ := h
  have hr := mem_of_mem_take hr
  rw [mem_insertionSort, mem_filter, Bool.and_eq_true] at hr
  exact ⟨r, Table.find?_eq_some.2 ⟨hr.1, hid⟩, hr.2.2⟩

omit [DecidableEq ι] in
theorem claimable_pending (h : claimable st onlyIds r = true) : r.status = .pending := by
  unfold claimable at h
  split at h
  · cases h
  · split at h
    · rw [Bool.and_eq_true] at h
      exact of_decide_eq_true h.2
    · rw [Bool.and_eq_true, Bool.and_eq_true] at h
      exact of_decide_eq_true h.1.1

theorem SendersOk.claim (h : SendersOk cfg s) {limit : Nat} {skip : List Nat} {p : Sender}
    (hfree : ∀ j, j ≠ k → ∀ d ∈ (s.loc j).held, d.id ∉ claimIds s.shared limit onlyIds skip)
    (hheld : p.held.Sublist (claimDue cfg s.shared limit onlyIds skip).2)
    (hlock : p.dispatching = true → s.shared.lock = some k) :
    SendersOk cfg (s.move k ((claimDue cfg s.shared limit onlyIds skip).1, p)) := by
  have hst : (claimDue cfg s.shared limit onlyIds skip).1 =
      s.shared.update (claimIds s.shared limit onlyIds skip)
        (fun d => { d with nextAttemptAt := s.shared.clock + cfg.timeoutMs + LEASE_EXTRA_MS })
        fun _ => rfl := rfl
  generalize hids : claimIds s.shared limit onlyIds skip = ids at *
  have hs := settles_update s.shared ids
    (fun d => { d with nextAttemptAt := s.shared.clock + cfg.timeoutMs + LEASE_EXTRA_MS })
    fun _ => rfl
  rw [← hst] at hs
  have hrows : RowsOk cfg (claimDue cfg s.shared limit onlyIds skip).1 := by
    refine hs.rowsOk h.row fun id hid r hr => ?_
    rw [hst] at hr ⊢
    obtain ⟨r₀, hr₀, rfl⟩ := find?_update hid hr
    have hold := h.row id r₀ hr₀
    exact { hold with }
  have hnew : ∀ d ∈ (claimDue cfg s.shared limit onlyIds skip).2, d.id ∈ ids ∧
      HeldOk cfg (claimDue cfg s.shared limit onlyIds skip).1 d := by
    intro d hd
    have hd : d ∈ (claimDue cfg s.shared limit onlyIds skip).1.deliveries.rows ∧
        d.id ∈ ids := by
      rw [claimDue, hids, mem_filter] at hd
      rw [hst]
      exact ⟨hd.1, by simpa using hd.2⟩
    have hfind := Table.find?_eq_some.2 ⟨hd.1, rfl⟩
    have hrow := hrows d.id d hfind
    -- it was pending when it was selected, and still is
    have hpending : d.status = .pending := by
      rw [hst] at hfind
      obtain ⟨r₀, hr₀, hdr⟩ := find?_update hd.2 hfind
      obtain ⟨r, hr, hclaim⟩ := mem_claimIds (hids ▸ hd.2)
      obtain rfl : r₀ = r := Option.some.inj (hr₀.symm.trans hr)
      have := claimable_pending hclaim
      rw [hdr]
      exact this
    refine ⟨hd.2, hrow.more hpending, hrow.known, fun hfinal => ?_, fun r hr => ?_⟩
    · have := hrow.final hfinal
      rw [hpending] at this
      cases this
    · obtain rfl : d = r := Option.some.inj (hfind.symm.trans hr)
      exact ⟨rfl, rfl, by simp [hpending], fun _ => rfl⟩
  refine ⟨hrows, fun j d hd => ?_, fun j => ?_, fun i j hij d hd d' hd' => ?_, fun j hj => ?_,
    h.past⟩
  · by_cases hj : j = k
    · subst hj
      rw [Processes.move_loc_self] at hd
      exact (hnew d (hheld.subset hd)).2
    · rw [Processes.move_loc_of_ne _ hj] at hd
      exact hs.heldOk (hfree j hj d hd) (h.held j d hd)
  · by_cases hj : j = k
    · subst hj
      rw [Processes.move_loc_self]
      refine List.Nodup.sublist (hheld.map _) ?_
      exact (Table.nodup _).sublist (filter_sublist.map _)
    · rw [Processes.move_loc_of_ne _ hj]
      exact h.nodup j
  · by_cases hi : i = k
    · subst hi
      rw [Processes.move_loc_self] at hd
      rw [Processes.move_loc_of_ne _ (Ne.symm hij)] at hd'
      exact fun hid => hfree j (Ne.symm hij) d' hd' (hid ▸ (hnew d (hheld.subset hd)).1)
    · rw [Processes.move_loc_of_ne _ hi] at hd
      by_cases hj : j = k
      · subst hj
        rw [Processes.move_loc_self] at hd'
        exact fun hid => hfree i hi d hd (hid ▸ (hnew d' (hheld.subset hd')).1)
      · rw [Processes.move_loc_of_ne _ hj] at hd'
        exact h.apart i j hij d hd d' hd'
  · by_cases hjk : j = k
    · subst hjk
      rw [Processes.move_loc_self] at hj
      exact hlock hj
    · rw [Processes.move_loc_of_ne _ hjk] at hj
      exact h.locked j hj

/-! ## Every step -/

omit [DecidableEq ι] in
theorem Settles.of_tables (hnext : st'.nextId = st.nextId)
    (hrows : st'.deliveries = st.deliveries) (hrec : st'.recorded = st.recorded) :
    Settles st st' [] :=
  ⟨hnext, fun _ _ => by rw [hrows], [], by simp [hrec], by simp⟩

theorem SendersOk.quiet (h : SendersOk cfg s)
    {next : WebhookStore ι × Sender} (hnext : next.1.nextId = s.shared.nextId)
    (hrows : next.1.deliveries = s.shared.deliveries) (hrec : next.1.recorded = s.shared.recorded)
    (hheld : next.2.held.Subperm (s.loc k).held)
    (hlock : next.2.dispatching = true → next.1.lock = some k)
    (hfree : ∀ j, j ≠ k → s.shared.lock = some j → next.1.lock = some j) :
    SendersOk cfg (s.move k next) :=
  h.settle [] (.of_tables hnext hrows hrec) ((Settles.of_tables hnext hrows hrec).rowsOk h.row
    (by simp)) (by simpa using hheld) hlock hfree

variable {worker : Nat} {active : List Batch}

omit [DecidableEq ι] in
theorem held_pass_perm (queue : List Batch) {batch : Batch} (h : active[worker]? = some batch) :
    (Sender.pass queue active).held.Perm
      ((queue ++ active.eraseIdx worker).flatMap Batch.list ++ batch.list) := by
  obtain ⟨hlt, rfl⟩ := List.getElem?_eq_some_iff.1 h
  have hperm := (getElem_cons_eraseIdx_perm hlt).symm
  rw [Sender.held, flatMap_append, flatMap_append, append_assoc]
  refine List.Perm.append_left _ ((hperm.flatMap_right _).trans ?_)
  rw [flatMap_cons]
  exact perm_append_comm

theorem SendersOk.sendNext (h : SendersOk cfg s)
    {queue active : List Batch} (hk : s.loc k = .pass queue active) {batch : Batch}
    (hbatch : active[worker]? = some batch) :
    SendersOk cfg (s.move k ((sendNext s.shared batch (active.eraseIdx worker)).1,
      .pass queue (sendNext s.shared batch (active.eraseIdx worker)).2)) := by
  have hlock : s.shared.lock = some k := h.locked k (by rw [hk]; rfl)
  have hheld := held_pass_perm queue hbatch
  rw [← hk] at hheld
  have hrelease : SendersOk cfg (s.move k (release s.shared batch.list 0,
      .pass queue (active.eraseIdx worker))) :=
    h.settle batch.list (settles_update _ _ _ _) (release_rowsOk h.row _ _) hheld.symm.subperm
      (fun _ => hlock) fun _ _ hj => hj
  unfold SmartProctoring.sendNext
  split
  · split
    · refine h.quiet rfl rfl rfl (List.Perm.subperm ?_) (fun _ => hlock) fun _ _ hj => hj
      refine List.Perm.trans ?_ hheld.symm
      simp only [Sender.held, flatMap_append, flatMap_cons, append_assoc]
      exact perm_append_comm.append_left _
    · exact hrelease
  · exact hrelease

/-- A worker's result. -/
theorem SendersOk.sendDone (h : SendersOk cfg s)
    {queue active : List Batch} (hk : s.loc k = .pass queue active) {hook : Webhook}
    {rest : List WebhookDelivery}
    (hbatch : active[worker]? = some ⟨some hook, d :: rest, true⟩) (r : PostResult) :
    SendersOk cfg (s.move k
      ((sendDone cfg s.shared hook d rest r (active.eraseIdx worker)).1,
        .pass queue (sendDone cfg s.shared hook d rest r (active.eraseIdx worker)).2)) := by
  have hlock : s.shared.lock = some k := h.locked k (by rw [hk]; rfl)
  have hheld := held_pass_perm queue hbatch
  rw [← hk] at hheld
  have hd : HeldOk cfg s.shared d := h.held k d (hheld.symm.subset (by simp))
  have hs := settles_recordAttempt cfg s.shared d hook r
  have hrows := recordAttempt_rowsOk h.row hd hook r
  have hlock' := lock_recordAttempt cfg s.shared d hook r
  generalize hst : recordAttempt cfg s.shared d hook r = st at hs hrows hlock'
  unfold SmartProctoring.sendDone
  rw [hst]
  dsimp only
  split
  · rename_i hrest
    subst hrest
    exact h.settle [d] hs hrows hheld.symm.subperm (fun _ => hlock'.trans hlock)
      fun _ _ hj => hlock'.trans hj
  · split
    · have hgive := settles_update st.1 (rest.map WebhookDelivery.id) (fun d =>
        if d.status = .pending then
          { d with nextAttemptAt := st.1.clock + WEBHOOK_BACKOFF_MS.getD 0 0 } else d)
        fun d => by split <;> rfl
      exact h.settle (d :: rest) (hs.trans hgive) (release_rowsOk hrows _ _) hheld.symm.subperm
        (fun _ => hlock'.trans hlock) fun _ _ hj => hlock'.trans hj
    · refine h.settle [d] hs hrows (List.Perm.subperm ?_) (fun _ => hlock'.trans hlock)
        fun _ _ hj => hlock'.trans hj
      refine List.Perm.trans ?_ hheld.symm
      simp only [Sender.held, flatMap_append, flatMap_cons, append_assoc]
      refine List.Perm.append_left _ ?_
      refine List.Perm.trans ?_ perm_append_comm
      rw [← append_assoc]
      exact perm_append_comm

theorem senderStep_ok (h : SendersOk cfg s) {x : WebhookInput ι}
    (hclaim : ∀ k' skip, x = .claim k' skip → ∀ j, (s.loc j).dispatching = false →
      ∀ d ∈ (s.loc j).held, s.shared.clock < d.nextAttemptAt)
    (hnow : ∀ k' id skip, x = .deliverNow k' id skip →
      ∀ j, j ≠ k → ∀ d ∈ (s.loc j).held, d.id ≠ id) :
    SendersOk cfg (s.move k (senderStep cfg k s.shared x (s.loc k))) := by
  have hlocked := h.locked k
  generalize hk : s.loc k = p at hlocked
  have hstay : SendersOk cfg (s.move k (s.shared, p)) :=
    h.quiet rfl rfl rfl (by rw [hk]) hlocked fun _ _ hj => hj
  unfold senderStep
  split
  next =>
    cases hfree : s.shared.lock with
    | none =>
      exact h.quiet rfl rfl rfl nil_subperm (fun _ => rfl) fun j _ hj => by
        simp [hfree] at hj
    | some j => exact hstay
  next k' skip =>
    -- the other dispatcher runs do not have the lock, and what the rest hold is not due
    have hlock := hlocked rfl
    refine h.claim (p := .claimed _) (fun j hj d hd hmem => ?_) (.refl _) fun _ => hlock
    cases hdisp : (s.loc j).dispatching with
    | true => exact hj (Option.some.inj ((h.locked j hdisp).symm.trans hlock))
    | false =>
      obtain ⟨r, hr, hdue⟩ := mem_claimIds hmem
      have hlease := hclaim k' skip rfl j hdisp d hd
      have hrow := (h.held j d hd).row r hr
      rw [← hrow.2.2.2 (claimable_pending hdue)] at hlease
      unfold claimable at hdue
      split at hdue
      · cases hdue
      · rw [Bool.and_eq_true, Bool.and_eq_true] at hdue
        have := of_decide_eq_true hdue.1.2
        omega
  next k' rows =>
    refine h.quiet rfl rfl rfl (List.Perm.subperm ?_) hlocked fun _ _ hj => hj
    rw [hk]
    simpa [Sender.held] using byHook_perm s.shared rows
  next k' b queue active =>
    split
    · refine h.quiet rfl rfl rfl (List.Perm.subperm ?_) hlocked fun _ _ hj => hj
      rw [hk]
      exact List.Perm.flatMap_right _ perm_middle
    · exact hstay
  next k' worker queue active =>
    split
    · split
      · exact hstay
      · exact h.sendNext hk ‹_›
    · exact hstay
  next k' worker r queue active =>
    split
    · exact h.sendDone hk ‹_› r
    · exact hstay
  next =>
    refine h.quiet rfl rfl rfl (by rw [hk]; exact .refl _) (fun hd => by cases hd) fun j hj hlock => ?_
    exact absurd (Option.some.inj (hlock.symm.trans (hlocked rfl))) hj
  next k' id skip =>
    have hfree : ∀ j, j ≠ k → ∀ d ∈ (s.loc j).held,
        d.id ∉ claimIds s.shared 1 (some [id]) skip := by
      intro j hj d hd hmem
      obtain ⟨r, hr, hclaim⟩ := mem_claimIds hmem
      have hid := (Table.find?_eq_some.1 hr).2
      unfold claimable at hclaim
      split at hclaim
      · cases hclaim
      · rw [Bool.and_eq_true] at hclaim
        exact hnow k' id skip rfl j hj d hd (by rw [← hid]; simpa using hclaim.1)
    split <;> rename_i hclaimed
    · rename_i st d rest
      have := h.claim (k := k) (p := .claimedNow d) hfree
        (by rw [hclaimed]; exact List.Sublist.cons_cons _ (nil_sublist _)) (fun hd => by cases hd)
      rwa [hclaimed] at this
    · have := h.claim (k := k) (p := .idle) hfree (nil_sublist _) (fun hd => by cases hd)
      rwa [hclaimed] at this
  next k' d =>
    split
    · exact h.quiet rfl rfl rfl (by rw [hk]; exact .refl _) (fun hd => by cases hd) fun _ _ hj => hj
    · exact h.quiet rfl rfl rfl nil_subperm (fun hd => by cases hd) fun _ _ hj => hj
  next k' r d hook =>
    have hd : HeldOk cfg s.shared d := h.held k d (by rw [hk]; exact mem_singleton_self d)
    refine h.settle [d] (settles_recordAttempt cfg s.shared d hook r)
      (recordAttempt_rowsOk h.row hd hook r) (by rw [hk]; exact .refl _) (fun hd => by cases hd)
      fun j _ hj => ?_
    rw [lock_recordAttempt]
    exact hj
  next k' p' =>
    refine h.quiet rfl rfl rfl nil_subperm (fun hd => by cases hd) fun j hj hlock => ?_
    have hne : s.shared.lock ≠ some k := fun hk => hj (Option.some.inj (hlock.symm.trans hk))
    exact (if_neg hne).trans hlock
  next => exact hstay

omit [DecidableEq ι] in
theorem SendersOk.setShared (h : SendersOk cfg s) (hrows : RowsOk cfg st)
    (hheld : ∀ d, HeldOk cfg s.shared d → HeldOk cfg st d) (hlock : st.lock = s.shared.lock)
    (hpast : ∀ e ∈ st.recorded, e.id < st.nextId) : SendersOk cfg (s.setShared st) :=
  ⟨hrows, fun k d hd => hheld d (h.held k d hd), h.nodup, h.apart,
    fun k hk => hlock.trans (h.locked k hk), hpast⟩

theorem sendersOk (cfg : WebhookConfig)
    (h : ((webhookMachine cfg).restrict ClaimsFree).Reachable s) : SendersOk cfg s := by
  refine h.invariant (I := SendersOk cfg) ?_ ?_
  · rintro s ⟨hrows, hnext, hlock, hrec, hidle⟩
    have hnone : ∀ id, s.shared.deliveries.find? id = none := fun id => by
      rw [Table.find?_eq_none, hrows]
      simp
    refine ⟨fun id r hr => ?_, fun k => ?_, fun k => ?_, fun j k _ => ?_, fun k hk => ?_, ?_⟩
    · rw [hnone] at hr; cases hr
    · rw [hidle k]; simp [Sender.held]
    · rw [hidle k]; simp [Sender.held]
    · rw [hidle j]; simp [Sender.held]
    · rw [hidle k] at hk; cases hk
    · rw [hrec]; simp
  · rintro s x - ⟨-, hg⟩ hs
    have hsender : ∀ k, (∀ k' skip, x = .claim k' skip → ∀ j, (s.loc j).dispatching = false →
          ∀ d ∈ (s.loc j).held, s.shared.clock < d.nextAttemptAt) →
        (∀ k' id skip, x = .deliverNow k' id skip →
          ∀ j, j ≠ k → ∀ d ∈ (s.loc j).held, d.id ≠ id) →
        SendersOk cfg (s.move k (senderStep cfg k s.shared x (s.loc k))) :=
      fun k h₁ h₂ => senderStep_ok hs h₁ h₂
    cases x with
    | claim k skip => exact hsender k (fun _ _ _ => hg) (by simp)
    | deliverNow k =>
      refine hsender k (by simp) fun k' id' skip' hx => ?_
      cases hx
      exact hg
    | startPass k | loadHooks k | take k | send k | result k | endPass k | loadHookNow k
    | resultNow k | crash k => exact hsender k (by simp) (by simp)
    | enqueue =>
      have hfresh : s.shared.deliveries.find? s.shared.nextId = none := by
        cases hr : s.shared.deliveries.find? s.shared.nextId with
        | none => rfl
        | some r =>
          have hid := (Table.find?_eq_some.1 hr).2
          have := (hs.row _ r hr).known
          omega
      refine hs.setShared (fun id r hr => ?_) (fun d hd => ?_) rfl fun e he => ?_
      · rw [Table.find?_insert hfresh] at hr
        split at hr
        · cases hr
          have hzero : s.shared.recorded.countP (fun e => e.id = s.shared.nextId) = 0 := by
            rw [countP_eq_zero]
            intro e he heq
            have := hs.past e he
            have := of_decide_eq_true heq
            omega
          refine ⟨Nat.lt_succ_self _, hzero.symm, Nat.zero_le _, fun _ => ?_, fun hfinal => ?_⟩
          · rw [WebhookConfig.limit]
            split
            exacts [Nat.one_pos, cfg.oneAttempt]
          · exact absurd (hs.past _ hfinal) (Nat.lt_irrefl _)
        · have hold := hs.row id r hr
          exact { hold with known := hold.known.trans (Nat.lt_succ_self _) }
      · refine ⟨hd.more, hd.known.trans (Nat.lt_succ_self _), hd.open_, fun r hr => ?_⟩
        rw [Table.find?_insert hfresh] at hr
        have hne : d.id ≠ s.shared.nextId := Nat.ne_of_lt hd.known
        rw [if_neg hne] at hr
        exact hd.row r hr
      · exact (hs.past e he).trans (Nat.lt_succ_self _)
    | setActive =>
      exact hs.setShared (fun id r hr => (hs.row id r hr).congr rfl rfl)
        (fun d hd => { hd with }) rfl hs.past
    | expire =>
      have hfind : ∀ {id r}, s.shared.expire.deliveries.find? id = some r →
          ∃ r₀, s.shared.deliveries.find? id = some r₀ ∧
            (r = r₀ ∨ r = { r₀ with status := .failed, nextAttemptAt := s.shared.clock }) ∧
            (r₀.status ≠ .pending → r = r₀) := by
        intro id r hr
        rw [WebhookStore.expire, Table.find?_modify, Option.map_eq_some_iff] at hr
        obtain ⟨r₀, hr₀, rfl⟩ := hr
        refine ⟨r₀, hr₀, ?_, fun hne => by simp [hne]⟩
        split
        exacts [.inr rfl, .inl rfl]
      refine hs.setShared (fun id r hr => ?_) (fun d hd => { hd with row := fun r hr => ?_ }) rfl hs.past
      · obtain ⟨r₀, hr₀, hcase, hkeep⟩ := hfind hr
        have hold := hs.row id r₀ hr₀
        obtain rfl | rfl := hcase
        · exact hold.congr rfl rfl
        · refine { hold with more := (fun hp => by cases hp), final := fun hfinal => ?_ }
          have hdone := hold.final hfinal
          have := congrArg WebhookDelivery.status (hkeep (by rw [hdone]; exact fun h => by cases h))
          rw [this, hdone]
      · obtain ⟨r₀, hr₀, hcase, -⟩ := hfind hr
        have hold := hd.row r₀ hr₀
        obtain rfl | rfl := hcase
        · exact hold
        · exact ⟨hold.1, hold.2.1, (fun hp => by cases hp), (fun hp => by cases hp)⟩
    | deleteOld =>
      refine hs.setShared (fun id r hr => ?_) (fun d hd => { hd with
          row := fun r hr => hd.row r (Table.find?_filter.1 hr).1 }) rfl hs.past
      exact (hs.row id r (Table.find?_filter.1 hr).1).congr rfl rfl
    | tick ms =>
      exact hs.setShared (fun id r hr => (hs.row id r hr).congr rfl rfl)
        (fun d hd => { hd with }) rfl hs.past

/-- **One sender, and a final success.**  In every run in which no immediate delivery takes a row
that another sender holds and each is done within its lease, no delivery is on its way twice at a
time, a recorded success stays and is never sent again, and attempts stay within the limit. -/
theorem webhook_single_sender (cfg : WebhookConfig) {s : WebhookState ι}
    (h : ((webhookMachine cfg).restrict ClaimsFree).Reachable s) : SingleSender cfg s :=
  (sendersOk cfg h).singleSender

end Runs

/-! ## Runs of two senders -/

instance (x : WebhookInput (Fin 2)) (s : WebhookState (Fin 2)) : Decidable (ClaimsFree x s) :=
  match x with
  | .deliverNow k id _ =>
    inferInstanceAs (Decidable (∀ j : Fin 2, j ≠ k → ∀ d ∈ (s.loc j).held, d.id ≠ id))
  | .claim _ _ =>
    inferInstanceAs (Decidable (∀ j : Fin 2, (s.loc j).dispatching = false →
      ∀ d ∈ (s.loc j).held, s.shared.clock < d.nextAttemptAt))
  | .startPass _ | .loadHooks _ | .take _ | .send _ _ | .result _ _ _ | .endPass _ | .loadHookNow _
  | .resultNow _ _ | .crash _ | .enqueue _ _ | .setActive _ _ | .expire | .deleteOld | .tick _ =>
    .isTrue trivial

instance (cfg : WebhookConfig) (x : WebhookInput (Fin 2)) (s : WebhookState (Fin 2)) :
    Decidable (((webhookMachine cfg).restrict ClaimsFree).enabled x s) :=
  inferInstanceAs (Decidable (True ∧ ClaimsFree x s))

instance (cfg : WebhookConfig) (x : WebhookInput (Fin 2)) (s : WebhookState (Fin 2)) :
    Decidable ((webhookMachine cfg).enabled x s) := .isTrue trivial

def oneWebhook : WebhookState (Fin 2) :=
  ⟨{ deliveries := .empty, webhooks := [⟨0, true, 0, none⟩], nextId := 0, clock := 0 },
    fun _ => .idle⟩

/-- A delivery fails once; after the back-off it is delivered at once and recorded. -/
def retryRun : List (WebhookInput (Fin 2)) :=
  [.enqueue 0 false, .startPass 0, .claim 0 [], .loadHooks 0, .take 0, .send 0 0,
    .result 0 0 ⟨false, some 503⟩, .endPass 0, .tick 30000, .deliverNow 1 0 [], .loadHookNow 1,
    .resultNow 1 ⟨true, some 200⟩]

theorem webhook_single_sender_retry :
    SingleSender {} (((webhookMachine {}).restrict ClaimsFree).run oneWebhook retryRun) := by
  have hinit : ((webhookMachine {}).restrict (ClaimsFree (ι := Fin 2))).init oneWebhook :=
    ⟨rfl, rfl, rfl, rfl, fun _ => rfl⟩
  exact webhook_single_sender {}
    ((Machine.Reachable.init hinit).run (by decide : Machine.Admits _ _ retryRun))

/-- A test ping is enqueued and picked up by the dispatcher, and then delivered at once as well. -/
def pingTwice : List (WebhookInput (Fin 2)) :=
  [.enqueue 0 true, .startPass 0, .claim 0 [], .loadHooks 0, .take 0, .send 0 0,
    .deliverNow 1 0 [], .loadHookNow 1]

/-- The immediate delivery succeeds; the dispatcher's own request then times out. -/
def pingOverwritten : List (WebhookInput (Fin 2)) :=
  pingTwice ++ [.resultNow 1 ⟨true, some 200⟩, .result 0 0 ⟨false, none⟩]

theorem webhook_sent_twice :
    ((webhookMachine {}).Reachable ((webhookMachine {}).run oneWebhook pingTwice) ∧
      ¬SingleSender {} ((webhookMachine {}).run oneWebhook pingTwice)) ∧
    (webhookMachine {}).Reachable ((webhookMachine {}).run oneWebhook pingOverwritten) ∧
      ⟨0, true⟩ ∈ ((webhookMachine {}).run oneWebhook pingOverwritten).shared.recorded ∧
      ∃ r ∈ ((webhookMachine {}).run oneWebhook pingOverwritten).shared.deliveries.rows,
        r.id = 0 ∧ r.status = .failed := by
  have hinit : (webhookMachine {}).init oneWebhook := ⟨rfl, rfl, rfl, rfl, fun _ => rfl⟩
  refine ⟨⟨(Machine.Reachable.init hinit).run (by decide), fun h => ?_⟩,
    (Machine.Reachable.init hinit).run (by decide), by decide, by decide⟩
  have hsame := h.once 0 1 ⟨0, 0, true, .pending, 0, 70000, none, 0, none⟩ (by decide)
    ⟨0, 0, true, .pending, 0, 70000, none, 0, none⟩ (by decide) rfl
  exact absurd hsame (by decide)

end SmartProctoring
