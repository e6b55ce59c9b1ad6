import SmartProctoring.Server.InstanceUsage

/-!
# The heartbeats of one browser

A browser counts its heartbeats from 1, and a reload of the page starts the count again.  What one
browser sends from one network shows concurrent use exactly when a heartbeat passes over a sequence
that another page of the browser was counting in the last minute (`KeepsCount`): after a reload that
can be a heartbeat that follows lost ones, or one of the old page that arrives late.  Without a
reload nothing does, and folding a request in again changes nothing.
-/

set_option autoImplicit false

namespace SmartProctoring

open List Option

variable {st : SeqStreams} {seq atMs : Int} {i : InstanceId} {prev : Option InstanceUsage}
  {o : UsageObservation}

/-! ## The best stream -/

/-- A stream heard of within the window, below `seq`. -/
def Below (s : SeqStream) (seq atMs : Int) : Prop :=
  s.last < seq ∧ atMs - s.atMs ≤ CONCURRENT_USE_WINDOW_MS

/-- The choice among the streams seen so far: none is below `seq`, or it is the furthest of those
below. -/
structure Chosen (seq atMs : Int) (l : List (SeqStream × Nat)) (best : Option (Nat × SeqStream)) :
    Prop where
  mem : ∀ p ∈ best, (p.2, p.1) ∈ l ∧ Below p.2 seq atMs
  best : ∀ x ∈ l, Below x.1 seq atMs → ∃ p ∈ best, x.1.last ≤ p.2.last

/-- What the loop of `bestStream` does with one stream. -/
def considerStream (st : SeqStreams) (seq atMs : Int) (best : Option (Nat × SeqStream))
    (x : SeqStream × Nat) : Option (Nat × SeqStream) :=
  if decide (seq ≤ x.1.last) || decide (CONCURRENT_USE_WINDOW_MS < atMs - x.1.atMs) then best
  else if betterCandidate st best x.2 x.1 then some (x.2, x.1) else best

variable (st) in
theorem Chosen.consider {l : List (SeqStream × Nat)} {best : Option (Nat × SeqStream)}
    (h : Chosen seq atMs l best) (x : SeqStream × Nat) :
    Chosen seq atMs (l ++ [x]) (considerStream st seq atMs best x) := by
  have hmem : ∀ p ∈ best, (p.2, p.1) ∈ l ++ [x] ∧ Below p.2 seq atMs := fun p hp =>
    ⟨mem_append_left _ (h.mem p hp).1, (h.mem p hp).2⟩
  rw [considerStream]
  split
  next hout =>
    refine ⟨hmem, fun y hy hbelow => ?_⟩
    rcases mem_append.1 hy with hy | hy
    · exact h.best y hy hbelow
    · obtain rfl := mem_singleton.1 hy
      simp only [Bool.or_eq_true, decide_eq_true_eq] at hout
      have := hbelow.1
      have := hbelow.2
      omega
  next hin =>
    simp only [Bool.or_eq_true, decide_eq_true_eq, not_or, not_le, not_lt] at hin
    split
    next hbetter =>
      refine ⟨fun p hp => ?_, fun y hy hbelow => ⟨(x.2, x.1), rfl, ?_⟩⟩
      · obtain rfl := some.inj hp
        exact ⟨by simp, hin⟩
      · rcases mem_append.1 hy with hy | hy
        · obtain ⟨p, hp, hle⟩ := h.best y hy hbelow
          obtain rfl := mem_def.1 hp
          rw [betterCandidate] at hbetter
          simp only [Bool.or_eq_true, decide_eq_true_eq, Bool.and_eq_true, beq_iff_eq] at hbetter
          change y.1.last ≤ x.1.last
          omega
        · obtain rfl := mem_singleton.1 hy
          exact le_rfl
    next hworse =>
      refine ⟨hmem, fun y hy hbelow => ?_⟩
      rcases mem_append.1 hy with hy | hy
      · exact h.best y hy hbelow
      · obtain rfl := mem_singleton.1 hy
        cases best with
        | none => exact absurd rfl hworse
        | some p =>
          refine ⟨p, rfl, ?_⟩
          simp only [betterCandidate, Bool.or_eq_true, decide_eq_true_eq, not_or, not_lt] at hworse
          exact hworse.1

theorem chosen_bestStream : Chosen seq atMs st.streams.zipIdx (bestStream st seq atMs) := by
  suffices hfold : ∀ (l seen : List (SeqStream × Nat)) (best : Option (Nat × SeqStream)),
      Chosen seq atMs seen best →
        Chosen seq atMs (seen ++ l) (l.foldl (considerStream st seq atMs) best) by
    exact hfold _ [] none ⟨by simp, by simp⟩
  intro l
  induction l with
  | nil => simp
  | cons x l ih =>
    intro seen best h
    have := ih _ _ (h.consider st x)
    rwa [append_assoc] at this

theorem bestStream_below {j : Nat} {s : SeqStream} (h : bestStream st seq atMs = some (j, s)) :
    st.streams[j]? = some s ∧ Below s seq atMs :=
  ⟨bestStream_mem h, (chosen_bestStream.mem _ h).2⟩

theorem le_bestStream {j : Nat} {s : SeqStream} (hs : st.streams[j]? = some s)
    (hbelow : Below s seq atMs) : ∃ p, bestStream st seq atMs = some p ∧ s.last ≤ p.2.last :=
  chosen_bestStream.best (s, j) (mem_zipIdx_iff_getElem?.2 hs) hbelow

/-! ## What shows an interleaving -/

/-- A stream other than the current one, heard of in the last minute, from which `seq` could follow:
it is below `seq` and, if `seq` could follow from the current one too, further than that. -/
def Rival (st : SeqStreams) (cur : SeqStream) (seq atMs : Int) (j : Nat) (s : SeqStream) : Prop :=
  j ≠ st.cur ∧ st.streams[j]? = some s ∧ Below s seq atMs ∧ (cur.last < seq → cur.last < s.last)

/-- The heartbeat `seq` goes on with the current sequence, repeats a number of it or starts one: it
passes over no rival while the current sequence was heard of in the last minute. -/
def KeepsOn (st : SeqStreams) (seq atMs : Int) : Prop :=
  ∀ cur, st.streams[st.cur]? = some cur → atMs - cur.atMs ≤ CONCURRENT_USE_WINDOW_MS →
    cur.last < seq ∨ seq < cur.last - SEQ_REORDER_TOLERANCE → ∀ j s, ¬ Rival st cur seq atMs j s

/-- **One heartbeat** shows an interleaving exactly when it does not keep on. -/
theorem observeSeq_signal : (observeSeq st seq atMs).2 = none ↔ KeepsOn st seq atMs := by
  rw [observeSeq]
  cases hcur : st.streams[st.cur]? with
  | none => simp [KeepsOn, hcur]
  | some cur =>
    have hrival : ∀ {j : Nat} {s : SeqStream}, Rival st cur seq atMs j s →
        ∃ p, bestStream st seq atMs = some p ∧ p.1 ≠ st.cur ∧ (cur.last < seq → cur.last < p.2.last) := by
      rintro j s ⟨hj, hs, hbelow, hfar⟩
      obtain ⟨p, hp, hle⟩ := le_bestStream hs hbelow
      refine ⟨p, hp, fun hcp => ?_, fun hlt => (hfar hlt).trans_le hle⟩
      obtain ⟨hmem, hlt⟩ := bestStream_below hp
      rw [hcp, hcur, some.injEq] at hmem
      subst hmem
      have := hfar hlt.1
      omega
    dsimp only
    split
    next hforward =>
      simp only [Bool.and_eq_true, decide_eq_true_eq, Bool.not_eq_true'] at hforward
      refine iff_of_true rfl fun cur' hcur' _ _ j s hr => ?_
      rw [hcur, some.injEq] at hcur'
      subst hcur'
      obtain ⟨p, hp, hne, hlt⟩ := hrival hr
      simp [betterStream, hp, hne, hlt hforward.1] at hforward
    next hnot =>
      split
      next hnear =>
        simp only [Bool.and_eq_true, decide_eq_true_eq] at hnear
        refine iff_of_true rfl fun cur' hcur' _ hfar => ?_
        rw [hcur, some.injEq] at hcur'
        subst hcur'
        omega
      next hfar =>
        simp only [Bool.and_eq_true, decide_eq_true_eq, not_and, not_le] at hfar
        have houtside : cur.last < seq ∨ seq < cur.last - SEQ_REORDER_TOLERANCE := by
          rcases lt_or_ge cur.last seq with h | h
          · exact .inl h
          · exact .inr (hfar h)
        cases hbest : bestStream st seq atMs with
        | none =>
          refine iff_of_true rfl fun cur' hcur' _ _ j s hr => ?_
          rw [hcur, some.injEq] at hcur'
          subst hcur'
          obtain ⟨p, hp, -⟩ := hrival hr
          rw [hbest] at hp
          cases hp
        | some p =>
          obtain ⟨idx, s⟩ := p
          obtain ⟨hs, hbelow⟩ := bestStream_below hbest
          dsimp only
          split
          next hne =>
            have hr : Rival st cur seq atMs idx s := by
              refine ⟨hne, hs, hbelow, fun hlt => ?_⟩
              simpa [betterStream, hbest, hne, hlt] using hnot
            by_cases hactive : atMs - cur.atMs ≤ CONCURRENT_USE_WINDOW_MS
            · simp only [hactive, if_true, reduceCtorEq, false_iff]
              exact fun hkeeps => hkeeps cur hcur hactive houtside idx s hr
            · simp only [hactive, if_false, true_iff]
              intro cur' hcur' hactive'
              rw [hcur, some.injEq] at hcur'
              exact absurd (hcur' ▸ hactive') hactive
          next heq =>
            refine iff_of_true rfl fun cur' hcur' _ _ j s' hr => ?_
            rw [hcur, some.injEq] at hcur'
            subst hcur'
            obtain ⟨p, hp, hne, -⟩ := hrival hr
            rw [hbest, some.injEq] at hp
            subst hp
            exact heq hne

/-! ## The bounds of the record -/

theorem length_sliceLast_le {α : Type} (n : Nat) (l : List α) : (sliceLast n l).length ≤ n := by
  rw [sliceLast, length_drop]
  omega

/-- The record stays small. -/
structure InstanceUsage.Bounded (u : InstanceUsage) : Prop where
  nets : u.nets.length ≤ MAX_NETS
  ips : u.ipHashes.length ≤ MAX_IPS
  streams : ∀ st ∈ u.seq, st.streams.length ≤ MAX_STREAMS

theorem length_observeNetwork_le (nets : List NetRun) :
    (observeNetwork nets o).1.length ≤ MAX_NETS := by
  rw [observeNetwork]
  split
  · split <;> exact length_sliceLast_le _ _
  · exact length_sliceLast_le _ _

theorem length_observeSeq_le (h : st.streams.length ≤ MAX_STREAMS) :
    (observeSeq st seq atMs).1.streams.length ≤ MAX_STREAMS := by
  have hnew : (sliceLast MAX_STREAMS (st.streams ++ [⟨seq, atMs⟩])).length ≤ MAX_STREAMS :=
    length_sliceLast_le _ _
  rw [observeSeq]
  split
  · simp [MAX_STREAMS]
  · split
    · simpa using h
    · split
      · exact h
      · split
        · split
          · simpa using h
          · exact hnew
        · exact hnew

theorem bounded_observe (h : ∀ u ∈ prev, u.instanceId = i → u.Bounded) :
    (observeInstanceUsage prev i o).usage.Bounded := by
  rw [observeInstanceUsage]
  split
  · refine ⟨by simp [freshUsage, MAX_NETS], by simp [freshUsage, MAX_IPS], fun st hst => ?_⟩
    obtain ⟨q, -, rfl⟩ := map_eq_some_iff.1 hst
    exact length_observeSeq_le (by simp)
  next u hu =>
    obtain ⟨hprev, hid⟩ := filter_eq_some_iff.1 hu
    have hb := h u hprev (by simpa using hid)
    refine ⟨length_observeNetwork_le _, ?_, fun st hst => ?_⟩
    · dsimp only [foldUsage]
      split
      · exact length_sliceLast_le _ _
      · exact hb.ips
    · dsimp only [foldUsage] at hst
      cases hq : o.seq with
      | none =>
        rw [hq] at hst
        exact hb.streams st hst
      | some q =>
        rw [hq] at hst
        obtain rfl := some.inj hst
        refine length_observeSeq_le ?_
        cases hseq : u.seq with
        | none => simp
        | some st' => exact hb.streams st' hseq

/-! ## A request again -/

theorem observeNetwork_of_current (nets : List NetRun) {r : NetRun} (hnet : r.net = o.address.net)
    (h : o.atMs ≤ r.lastAt ∨ o.refresh = false ∧ o.atMs - r.lastAt < REFRESH_MS) :
    (observeNetwork (nets ++ [r]) o).1 = pruneNets o.atMs (nets ++ [r]) := by
  have hcur : ((nets ++ [r]).getLast?.filter fun cur => cur.net == o.address.net) = some r := by
    rw [getLast?_concat]
    exact filter_some_pos (by simpa using hnet)
  simp only [observeNetwork, hcur]
  split
  next hfresh =>
    rcases h with hle | ⟨hno, hlt⟩
    · rw [max_eq_left hle, dropLast_concat]
    · rw [hno, Bool.false_or, decide_eq_true_eq] at hfresh
      omega
  next => rfl

theorem observeNetwork_current_run (nets : List NetRun) :
    ∃ xs r, (observeNetwork nets o).1 = pruneNets o.atMs (xs ++ [r]) ∧ r.net = o.address.net ∧
      (o.atMs ≤ r.lastAt ∨ o.refresh = false ∧ o.atMs - r.lastAt < REFRESH_MS) := by
  rw [observeNetwork]
  split
  next cur hcur =>
    obtain ⟨hlast, hnet⟩ := filter_eq_some_iff.1 hcur
    split
    next => exact ⟨_, _, rfl, by simpa using hnet, .inl (le_max_right _ _)⟩
    next hno =>
      simp only [Bool.or_eq_true, decide_eq_true_eq, not_or, Bool.not_eq_true, not_le] at hno
      obtain ⟨xs, rfl⟩ := getLast?_eq_some_iff.1 hlast
      exact ⟨xs, cur, rfl, by simpa using hnet, .inr hno⟩
  next => exact ⟨_, _, rfl, rfl, .inl le_rfl⟩

theorem observeNetwork_twice (nets : List NetRun) :
    (observeNetwork (observeNetwork nets o).1 o).1 = (observeNetwork nets o).1 := by
  obtain ⟨xs, r, h, hnet, hlate⟩ := observeNetwork_current_run (o := o) nets
  have hprune := pruneNets_pruneNets o.atMs xs r
  rw [h, pruneNets_append_singleton] at *
  rw [observeNetwork_of_current _ hnet hlate, hprune]

theorem foldUsage_of_held {u : InstanceUsage} (hip : o.address.ipHash ∈ u.ipHashes)
    (hnet : (observeNetwork u.nets o).1 = u.nets)
    (hseq : ∀ q ∈ o.seq, ∃ st, u.seq = some st ∧ observeSeq st q o.atMs = (st, none)) :
    (foldUsage u o).usage = u := by
  obtain ⟨id, ua, nets, ips, seq⟩ := u
  cases hq : o.seq with
  | none => simp_all [foldUsage]
  | some q =>
    obtain ⟨st, hst, hobs⟩ := hseq q hq
    simp_all [foldUsage]

theorem observeInstanceUsage_self {u : InstanceUsage} (h : u.instanceId = i) :
    observeInstanceUsage (some u) i o = foldUsage u o := by
  have hself : (some u).filter (fun u => u.instanceId == i) = some u :=
    filter_some_pos (by simpa using h)
  simp only [observeInstanceUsage, hself]

/-- **Folding a request in again**, whatever it showed the first time, changes nothing. -/
theorem observe_twice :
    (observeInstanceUsage (some (observeInstanceUsage prev i o).usage) i o).usage =
      (observeInstanceUsage prev i o).usage := by
  generalize hv : observeInstanceUsage prev i o = v
  rw [observeInstanceUsage] at hv
  split at hv
  next =>
    subst hv
    have hid : (freshUsage i o).instanceId = i := rfl
    rw [observeInstanceUsage_self hid]
    refine foldUsage_of_held mem_cons_self ?_ fun q hq => ?_
    · exact observeNetwork_of_current [] (r := ⟨o.address.net, o.atMs, o.atMs⟩) rfl (.inl le_rfl)
    · rw [mem_def] at hq
      exact ⟨_, by simp only [freshUsage, hq]; rfl, observeSeq_again _ _ _⟩
  next u hu =>
    subst hv
    have hid : u.instanceId = i := by simpa using (filter_eq_some_iff.1 hu).2
    rw [observeInstanceUsage_self (u := (foldUsage u o).usage) hid]
    refine foldUsage_of_held ?_ (observeNetwork_twice _) fun q hq => ?_
    · by_cases h : o.address.ipHash ∈ u.ipHashes
      · simp [foldUsage, h]
      · simp only [foldUsage, h, not_false_eq_true, decide_true, if_true]
        rw [show MAX_IPS = 5 + 1 from rfl, sliceLast_append_singleton]
        exact mem_append_right _ mem_cons_self
    · rw [mem_def] at hq
      exact ⟨_, by simp only [foldUsage, hq]; rfl, observeSeq_again _ _ _⟩

/-! ## One browser -/

/-- A browser with one network and one user agent.  The `n`th heartbeat it sends has the number
`count n`: the count starts at 1, and a reload of the page starts it again. -/
structure Browser where
  net : NetHash
  ua : Nat
  count : Nat → Int
  start : count 0 = 1
  next : ∀ n, count (n + 1) = count n + 1 ∨ count (n + 1) = 1

/-- A request of the browser as it is delivered: the `n`th heartbeat sent, or another request. -/
structure Delivered where
  nth : Option Nat
  ip : Nat
  atMs : Int
  refresh : Bool

def Browser.observation (b : Browser) (d : Delivered) : UsageObservation where
  address := ⟨b.net, d.ip, b.ua⟩
  seq := d.nth.map b.count
  atMs := d.atMs
  refresh := d.refresh

/-- Which heartbeats are among the requests. -/
def heartbeats (ds : List Delivered) : List Nat := ds.filterMap (·.nth)

/-- The requests come in the order of their times, and no heartbeat comes after one sent more than
the tolerance after it. -/
structure Tolerated (ds : List Delivered) : Prop where
  times : ds.Pairwise fun d d' => d.atMs ≤ d'.atMs
  order : (heartbeats ds).Pairwise fun (n n' : Nat) => (n : Int) - SEQ_REORDER_TOLERANCE ≤ n'

/-- The signals that the requests show. -/
def signals (i : InstanceId) : Option InstanceUsage → List UsageObservation →
    List (Option ConcurrentUseSignal)
  | _, [] => []
  | prev, o :: os =>
    let v := observeInstanceUsage prev i o
    v.signal :: signals i (some v.usage) os

/-- The record after the requests. -/
def usageAfter (i : InstanceId) (prev : Option InstanceUsage) (os : List UsageObservation) :
    Option InstanceUsage :=
  os.foldl (fun prev o => some (observeInstanceUsage prev i o).usage) prev

/-- Every heartbeat keeps on with the sequences counted so far. -/
def KeepsCount (b : Browser) : SeqStreams → List Delivered → Prop
  | _, [] => True
  | st, d :: ds =>
    match d.nth with
    | none => KeepsCount b st ds
    | some n =>
      KeepsOn st (b.count n) d.atMs ∧ KeepsCount b (observeSeq st (b.count n) d.atMs).1 ds

variable {b : Browser} {d : Delivered} {ds : List Delivered} {u : InstanceUsage}

/-- The record shows the browser's user agent and, as the current one, its network. -/
structure ShowsOnly (b : Browser) (i : InstanceId) (u : InstanceUsage) : Prop where
  id : u.instanceId = i
  ua : u.uaHash = b.ua
  net : ∃ r, u.nets.getLast? = some r ∧ r.net = b.net

theorem heartbeats_cons_none (h : d.nth = none) : heartbeats (d :: ds) = heartbeats ds :=
  filterMap_cons_none h

theorem heartbeats_cons_some {n : Nat} (h : d.nth = some n) :
    heartbeats (d :: ds) = n :: heartbeats ds :=
  filterMap_cons_some h

theorem showsOnly_fresh : ShowsOnly b i (freshUsage i (b.observation d)) := ⟨rfl, rfl, _, rfl, rfl⟩

theorem ShowsOnly.foldUsage (h : ShowsOnly b i u) :
    ShowsOnly b i (foldUsage u (b.observation d)).usage := by
  refine ⟨h.id, h.ua, ?_⟩
  obtain ⟨xs, r, hr, hnet, -⟩ := observeNetwork_current_run (o := b.observation d) u.nets
  refine ⟨r, ?_, hnet⟩
  change (observeNetwork u.nets (b.observation d)).1.getLast? = some r
  rw [hr, pruneNets_append_singleton, getLast?_concat]

theorem ShowsOnly.signal (h : ShowsOnly b i u) :
    (SmartProctoring.foldUsage u (b.observation d)).signal = none ↔
      ∀ n ∈ d.nth, KeepsOn (u.seq.getD ⟨[], 0⟩) (b.count n) d.atMs := by
  obtain ⟨r, hr, hnet⟩ := h.net
  have hua : (u.uaHash != (b.observation d).address.uaHash) = false := by
    simpa [Browser.observation] using h.ua
  have hcur : (u.nets.getLast?.filter fun cur => cur.net == (b.observation d).address.net) = some r := by
    rw [hr]
    exact filter_some_pos (by simpa [Browser.observation] using hnet)
  have hnone : (observeNetwork u.nets (b.observation d)).2.2 = none := by
    simp only [observeNetwork, hcur]
    split <;> rfl
  simp only [SmartProctoring.foldUsage, hua, Bool.false_eq_true, if_false, hnone, orElse_none]
  cases hn : d.nth with
  | none => simp [Browser.observation, hn]
  | some n =>
    simp only [Browser.observation, hn, map_some, bind_some, mem_def,
      some.injEq, forall_eq']
    exact observeSeq_signal

theorem keepsOn_nil : KeepsOn ⟨[], 0⟩ seq atMs := by
  intro cur hcur
  simp at hcur

theorem ShowsOnly.signals_iff (h : ShowsOnly b i u) :
    (∀ x ∈ signals i (some u) (ds.map b.observation), x = none) ↔
      KeepsCount b (u.seq.getD ⟨[], 0⟩) ds := by
  induction ds generalizing u with
  | nil => simp [signals, KeepsCount]
  | cons d ds ih =>
    have hrest := ih (h.foldUsage (d := d))
    rw [map_cons, signals]
    simp only [forall_mem_cons, observeInstanceUsage_self h.id, hrest, h.signal]
    cases hn : d.nth with
    | none | some n => simp [KeepsCount, hn, SmartProctoring.foldUsage, Browser.observation]

theorem bounded_usageAfter (os : List UsageObservation)
    (h : ∀ u ∈ prev, u.instanceId = i → u.Bounded) :
    ∀ u ∈ usageAfter i prev os, u.instanceId = i → u.Bounded := by
  induction os generalizing prev with
  | nil => exact h
  | cons o os ih =>
    refine ih fun u hu _ => ?_
    obtain rfl := some.inj hu
    exact bounded_observe h

/-- **One browser.**  Of an instance first seen, the requests of one browser from one network show
nothing exactly when every heartbeat keeps on with the sequences counted so far.  Whatever the
requests, the record stays small, and folding the last one in again changes nothing. -/
theorem one_browser_signals_iff (b : Browser) (i : InstanceId) (prev : Option InstanceUsage) :
    (∀ ds, (∀ x ∈ signals i (prev.filter fun u => u.instanceId != i) (ds.map b.observation), x = none) ↔
      KeepsCount b ⟨[], 0⟩ ds) ∧
    (∀ o, (observeInstanceUsage (some (observeInstanceUsage prev i o).usage) i o).usage =
      (observeInstanceUsage prev i o).usage) ∧
    ∀ os, ∀ u ∈ usageAfter i (prev.filter fun u => u.instanceId != i) os,
      u.instanceId = i → u.Bounded := by
  refine ⟨fun ds => ?_, fun o => observe_twice, fun os => bounded_usageAfter os fun u hu hid => ?_⟩
  · have hfresh : ∀ o, observeInstanceUsage (prev.filter fun u => u.instanceId != i) i o =
        ⟨freshUsage i o, true, none, false⟩ := by
      intro o
      have hnone : (prev.filter fun u => u.instanceId != i).filter (fun u => u.instanceId == i) = none := by
        cases prev with
        | none => rfl
        | some u => by_cases hu : u.instanceId = i <;> simp
      simp only [observeInstanceUsage, hnone]
    cases ds with
    | nil => simp [signals, KeepsCount]
    | cons d ds =>
      rw [map_cons, signals, hfresh]
      simp only [forall_mem_cons, true_and, showsOnly_fresh.signals_iff]
      cases hn : d.nth with
      | none => simp [KeepsCount, hn, freshUsage, Browser.observation]
      | some n => simp [KeepsCount, hn, freshUsage, Browser.observation, keepsOn_nil]
  · exact absurd hid (by simpa using (filter_eq_some_iff.1 hu).2)

/-! ## What keeps on -/

theorem observeSeq_cases : ((observeSeq st seq atMs).1 = st ∧ ∃ cur,
      st.streams[st.cur]? = some cur ∧ seq ≤ cur.last ∧ cur.last - SEQ_REORDER_TOLERANCE ≤ seq) ∨
    ((observeSeq st seq atMs).1.streams[(observeSeq st seq atMs).1.cur]? = some ⟨seq, atMs⟩ ∧
      ∀ s ∈ (observeSeq st seq atMs).1.streams, s ∈ st.streams ∨ s = ⟨seq, atMs⟩) := by
  have hnew : (sliceLast MAX_STREAMS (st.streams ++ [⟨seq, atMs⟩]))[
        (sliceLast MAX_STREAMS (st.streams ++ [⟨seq, atMs⟩])).length - 1]? = some ⟨seq, atMs⟩ ∧
      ∀ s ∈ sliceLast MAX_STREAMS (st.streams ++ [⟨seq, atMs⟩]), s ∈ st.streams ∨ s = ⟨seq, atMs⟩ := by
    refine ⟨?_, fun s hs => ?_⟩
    · rw [show MAX_STREAMS = 3 + 1 from rfl, sliceLast_append_singleton]
      simp
    · simpa using (sliceLast_sublist _ _).subset hs
  have hset : ∀ {j : Nat} {s : SeqStream}, st.streams[j]? = some s →
      (st.streams.set j ⟨seq, atMs⟩)[j]? = some ⟨seq, atMs⟩ ∧
        ∀ s ∈ st.streams.set j ⟨seq, atMs⟩, s ∈ st.streams ∨ s = ⟨seq, atMs⟩ := by
    intro j s hj
    obtain ⟨hlt, -⟩ := List.getElem?_eq_some_iff.1 hj
    exact ⟨by simp [hlt], fun s hs => mem_or_eq_of_mem_set hs⟩
  rw [observeSeq]
  cases hcur : st.streams[st.cur]? with
  | none => exact .inr ⟨rfl, by simp⟩
  | some cur =>
    dsimp only
    split
    next => exact .inr (hset hcur)
    next =>
      split
      next hnear => exact .inl ⟨rfl, cur, rfl, by simpa using hnear⟩
      next =>
        cases hbest : bestStream st seq atMs with
        | none => exact .inr hnew
        | some p =>
          dsimp only
          split
          · exact .inr (hset (bestStream_mem hbest))
          · exact .inr hnew

/-- All that was counted is one sequence, up to `top`. -/
def OneSequence (st : SeqStreams) (top : Int) : Prop :=
  st.cur = 0 ∧ ∃ a, st.streams = [⟨top, a⟩]

variable (atMs) in
theorem OneSequence.observe {top : Int} (h : OneSequence st top)
    (hseq : top - SEQ_REORDER_TOLERANCE ≤ seq) :
    KeepsOn st seq atMs ∧ OneSequence (observeSeq st seq atMs).1 (max top seq) := by
  obtain ⟨streams, cur⟩ := st
  obtain ⟨hcur, a, hstreams⟩ := h
  dsimp only at hcur hstreams
  subst hcur hstreams
  have hbetter : betterStream ⟨[⟨top, a⟩], 0⟩ ⟨top, a⟩ seq atMs = false := by
    rw [betterStream]
    split
    next j s hbest =>
      have hj := (List.getElem?_eq_some_iff.1 (bestStream_mem hbest)).1
      have : j = 0 := by simpa using hj
      simp [this]
    next => rfl
  constructor
  · rintro cur - - - j s ⟨hj, hs, -⟩
    have hlt := (List.getElem?_eq_some_iff.1 hs).1
    exact hj (by simpa using hlt)
  · rcases lt_or_ge top seq with hlt | hle
    · rw [max_eq_right hlt.le]
      simp [OneSequence, observeSeq, hlt, hbetter]
    · rw [max_eq_left hle]
      simp [OneSequence, observeSeq, not_lt.2 hle, hle, hseq]

theorem count_of_no_reload (hcount : ∀ n, b.count (n + 1) = b.count n + 1) (n : Nat) :
    b.count n = n + 1 := by
  induction n with
  | zero => simpa using b.start
  | succ n ih => rw [hcount, ih, Nat.cast_succ]

theorem OneSequence.keepsCount {top : Int} (h : OneSequence st top)
    (hcount : ∀ n, b.count (n + 1) = b.count n + 1)
    (htop : ∀ n ∈ heartbeats ds, top - SEQ_REORDER_TOLERANCE ≤ b.count n)
    (horder : (heartbeats ds).Pairwise fun (n n' : Nat) => (n : Int) - SEQ_REORDER_TOLERANCE ≤ n') :
    KeepsCount b st ds := by
  have hn := count_of_no_reload hcount
  induction ds generalizing st top with
  | nil => trivial
  | cons d ds ih =>
    rw [KeepsCount]
    cases hd : d.nth with
    | none =>
      rw [heartbeats_cons_none hd] at htop horder
      exact ih h htop horder
    | some n =>
      rw [heartbeats_cons_some hd] at htop horder
      rw [pairwise_cons] at horder
      obtain ⟨hkeeps, hone⟩ := h.observe d.atMs (htop n mem_cons_self)
      refine ⟨hkeeps, ih hone (fun n' hn' => ?_) horder.2⟩
      have htop' := htop n' (mem_cons_of_mem _ hn')
      have horder' := horder.1 n' hn'
      rw [hn] at htop' ⊢
      rw [hn]
      omega

/-- **Without a reload** nothing is shown, whatever is lost, repeated or late within the
tolerance. -/
theorem keepsCount_of_no_reload (hcount : ∀ n, b.count (n + 1) = b.count n + 1) (h : Tolerated ds) :
    KeepsCount b ⟨[], 0⟩ ds := by
  induction ds with
  | nil => trivial
  | cons d ds ih =>
    have horder := h.order
    rw [KeepsCount]
    cases hd : d.nth with
    | none =>
      rw [heartbeats_cons_none hd] at horder
      exact ih ⟨(pairwise_cons.1 h.times).2, horder⟩
    | some n =>
      rw [heartbeats_cons_some hd, pairwise_cons] at horder
      have hone : OneSequence (observeSeq ⟨[], 0⟩ (b.count n) d.atMs).1 (b.count n) := ⟨rfl, _, rfl⟩
      refine ⟨keepsOn_nil, hone.keepsCount hcount (fun n' hn' => ?_) horder.2⟩
      have hle := horder.1 n' hn'
      rw [count_of_no_reload hcount, count_of_no_reload hcount]
      omega

/-- The last number counted is `c`: it is in the current sequence, at its end or, after a reload,
among its first three. -/
structure CountedTo (st : SeqStreams) (c : Int) : Prop where
  counted : ∀ s ∈ st.streams, 1 ≤ s.last
  current : ∃ cur, st.streams[st.cur]? = some cur ∧ c ≤ cur.last ∧ cur.last ≤ max c 3

variable (atMs) in
theorem CountedTo.observe {c : Int} (h : CountedTo st c) (hc : 1 ≤ c)
    (hseq : seq = c ∨ seq = c + 1 ∨ seq = 1) :
    KeepsOn st seq atMs ∧ CountedTo (observeSeq st seq atMs).1 seq := by
  obtain ⟨cur, hcur, hle, hmax⟩ := h.current
  have htol : SEQ_REORDER_TOLERANCE = 2 := rfl
  constructor
  · rintro cur' hcur' - hside j s ⟨-, hs, hbelow, hfar⟩
    rw [hcur, some.injEq] at hcur'
    subst hcur'
    have hone := h.counted s (mem_of_getElem? hs)
    have hlt := hbelow.1
    rcases hside with hside | hside
    · have := hfar hside
      omega
    · omega
  · rcases observeSeq_cases with ⟨hst, cur', hcur', hle', htol'⟩ | ⟨hnew, hmem⟩
    · rw [hcur, some.injEq] at hcur'
      subst hcur'
      rw [hst]
      exact ⟨h.counted, cur, hcur, hle', by omega⟩
    · refine ⟨fun s hs => ?_, _, hnew, le_rfl, le_max_left _ _⟩
      rcases hmem s hs with hs | rfl
      · exact h.counted s hs
      · change 1 ≤ seq
        omega

/-- **Without losses** nothing is shown, whenever the page is reloaded: every heartbeat is the next
one, or the last one again. -/
theorem keepsCount_of_no_loss (hfirst : ∀ n ∈ (heartbeats ds).head?, n = 0)
    (h : (heartbeats ds).IsChain fun n n' => n' = n ∨ n' = n + 1) :
    KeepsCount b ⟨[], 0⟩ ds := by
  have hpos : ∀ n, 1 ≤ b.count n := by
    intro n
    induction n with
    | zero => exact b.start.ge
    | succ n ih => rcases b.next n with hn | hn <;> omega
  have hrest : ∀ (ds : List Delivered) (st : SeqStreams) (n : Nat), CountedTo st (b.count n) →
      (n :: heartbeats ds).IsChain (fun n n' => n' = n ∨ n' = n + 1) → KeepsCount b st ds := by
    intro ds
    induction ds with
    | nil => exact fun _ _ _ _ => trivial
    | cons d ds ih =>
      intro st n hst hchain
      rw [KeepsCount]
      cases hd : d.nth with
      | none =>
        rw [heartbeats_cons_none hd] at hchain
        exact ih st n hst hchain
      | some n' =>
        rw [heartbeats_cons_some hd, isChain_cons_cons] at hchain
        have hseq : b.count n' = b.count n ∨ b.count n' = b.count n + 1 ∨ b.count n' = 1 := by
          rcases hchain.1 with rfl | rfl
          · exact .inl rfl
          · exact .inr (b.next n)
        obtain ⟨hkeeps, hcounted⟩ := hst.observe d.atMs (hpos n) hseq
        exact ⟨hkeeps, ih _ n' hcounted hchain.2⟩
  induction ds with
  | nil => trivial
  | cons d ds ih =>
    rw [KeepsCount]
    cases hd : d.nth with
    | none =>
      rw [heartbeats_cons_none hd] at hfirst h
      exact ih hfirst h
    | some n =>
      rw [heartbeats_cons_some hd] at h
      refine ⟨keepsOn_nil, hrest ds _ n ⟨fun s hs => ?_, _, rfl, le_rfl, le_max_left _ _⟩ h⟩
      obtain rfl : s = ⟨b.count n, d.atMs⟩ := by simpa [observeSeq] using hs
      exact hpos n

/-- **An honest browser is not accused.**  One browser on one network never shows concurrent use if
its page is not reloaded, whatever is lost, repeated or late within the tolerance, or if its
heartbeats come in order and none is lost, however often its page is reloaded. -/
theorem honest_browser (b : Browser) (i : InstanceId) (ds : List Delivered)
    (h : (∀ n, b.count (n + 1) = b.count n + 1) ∧ Tolerated ds ∨
      (∀ n ∈ (heartbeats ds).head?, n = 0) ∧
        (heartbeats ds).IsChain fun n n' => n' = n ∨ n' = n + 1) :
    ∀ x ∈ signals i none (ds.map b.observation), x = none := by
  have hkeeps : KeepsCount b ⟨[], 0⟩ ds := by
    rcases h with ⟨hcount, htol⟩ | ⟨hfirst, hchain⟩
    · exact keepsCount_of_no_reload hcount htol
    · exact keepsCount_of_no_loss hfirst hchain
  cases ds with
  | nil => exact nofun
  | cons d ds =>
    have hsignals : signals i none ((d :: ds).map b.observation) =
        none :: signals i (some (freshUsage i (b.observation d))) (ds.map b.observation) := rfl
    rw [hsignals, forall_mem_cons, and_iff_right rfl, showsOnly_fresh.signals_iff]
    cases hn : d.nth with
    | none => simpa [KeepsCount, hn, freshUsage, Browser.observation] using hkeeps
    | some n =>
      have hrest : KeepsOn ⟨[], 0⟩ (b.count n) d.atMs ∧
          KeepsCount b (observeSeq ⟨[], 0⟩ (b.count n) d.atMs).1 ds := by
        simpa [KeepsCount, hn] using hkeeps
      simpa [freshUsage, Browser.observation, hn] using hrest.2

/-- Its page is not reloaded. -/
def steady : Browser := ⟨⟨.v4, 1⟩, 1, fun n => n + 1, rfl, fun _ => .inl rfl⟩

/-- Heartbeats are lost, and one arrives twice and late. -/
theorem honest_browser_steady :
    signals ⟨1⟩ none (([(0, 0), (3, 1), (2, 2), (3, 3), (9, 4)].map fun p =>
      ⟨some p.1, 1, 5000 * p.2, true⟩ : List Delivered).map steady.observation) = replicate 5 none :=
  eq_replicate_iff.2 ⟨rfl, honest_browser steady ⟨1⟩ _
    (.inl ⟨fun _ => by simp [steady], by decide, by decide⟩)⟩

/-- A browser whose page is reloaded after four heartbeats. -/
def reloaded : Browser where
  net := ⟨.v4, 1⟩
  ua := 1
  count n := if n < 4 then n + 1 else n - 3
  start := rfl
  next n := by
    by_cases h : n = 3
    · exact .inr (by simp [h])
    · left
      split <;> split <;> omega

/-- Reloaded, but nothing is lost. -/
theorem reload_without_loss :
    ∀ x ∈ signals ⟨1⟩ none (([0, 1, 2, 3, 4, 5].map fun n => ⟨some n, 1, 5000 * n, true⟩ :
      List Delivered).map reloaded.observation), x = none :=
  ((one_browser_signals_iff reloaded ⟨1⟩ none).1 _).2
    (keepsCount_of_no_loss (by decide) (by decide))

/-- The heartbeats that arrive, one every five seconds: those of the old page, and of the new one
the first and, after three lost ones, the fifth. -/
def reloadedAndLost : List Delivered :=
  [0, 1, 2, 3, 4, 8].map fun n => ⟨some n, 1, 5000 * n, true⟩

/-- The fifth heartbeat of the new page passes over the four of the old one. -/
theorem reload_signals : Tolerated reloadedAndLost ∧
    signals ⟨1⟩ none (reloadedAndLost.map reloaded.observation) =
      [none, none, none, none, none, some .seqInterleaved] :=
  ⟨⟨by decide, by decide⟩, by decide⟩

end SmartProctoring
