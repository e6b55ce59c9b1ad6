import SmartProctoring.Server.CandidateState

/-!
# Concurrent use of a copied browser instance id

`services/instance-usage.ts`.  For the verified instance of a ready or active session the server
keeps where its requests come from: the user agent, runs of consecutive requests per network, and
the heartbeat sequences it counts.  `observeInstanceUsage` folds one request into that record and
says whether it shows the instance being used from two places at once.

Addresses and user agents arrive here already hashed (`networkOf` and the sha256 prefixes are the
caller's).
-/

set_option autoImplicit false

namespace SmartProctoring

open List Option

/-- Window in which two networks must alternate / two seq streams must interleave. -/
def CONCURRENT_USE_WINDOW_MS : Int := 60000

/-- Network transitions inside the window that make an alternation. -/
def ALTERNATION_MIN_SWITCHES : Nat := 3

/-- A heartbeat this far below the current stream's last seq is a duplicate or late delivery. -/
def SEQ_REORDER_TOLERANCE : Int := 2

def MAX_NETS : Nat := 12
def MAX_IPS : Nat := 6
def MAX_STREAMS : Nat := 4
def NET_HISTORY_MS : Int := 10 * 60000

/-- Non-heartbeat requests refresh the current network run at most this often. -/
def REFRESH_MS : Int := 15000

def TRACKED_STATUSES : List SessionStatus := [.ready, .active]

inductive ConcurrentUseSignal
  | uaChanged | seqInterleaved | ipAlternating
  deriving DecidableEq

/-- Where a request came from, hashed. -/
structure ClientAddress where
  net : NetHash
  ipHash : Nat
  uaHash : Nat

structure UsageObservation where
  address : ClientAddress
  /-- Heartbeat sequence number (heartbeats only). -/
  seq : Option Int := none
  atMs : Int
  /-- Always write the refreshed record (a heartbeat writes the session row anyway). -/
  refresh : Bool := false

structure UsageVerdict where
  usage : InstanceUsage
  /-- The record differs from the stored one and should be written. -/
  changed : Bool
  signal : Option ConcurrentUseSignal
  uaChanged : Bool

/-- `arr.slice(-n)`. -/
def sliceLast {α : Type} (n : Nat) (l : List α) : List α := l.drop (l.length - n)

/-! ## Networks -/

/-- Consecutive duplicates dropped: the networks in the order they took over from each other. -/
def networkSwitches : List NetHash → List NetHash
  | [] => []
  | [n] => [n]
  | n :: m :: rest => if n = m then networkSwitches (m :: rest) else n :: networkSwitches (m :: rest)

/-- Network transitions within one address family among the runs active in the window, and whether a
network repeats. -/
def alternation (nets : List NetRun) (family : IpFamily) (since : Int) : Nat × Bool :=
  let seq := networkSwitches
    ((nets.filter fun r => decide (since ≤ r.lastAt ∧ r.net.family = family)).map (·.net))
  (seq.length - 1, decide (¬ seq.Nodup))

/-- Runs that ended long ago are forgotten, the current one never, and only the last few are
kept. -/
def pruneNets (atMs : Int) (nets : List NetRun) : List NetRun :=
  sliceLast MAX_NETS
    ((nets.dropLast.filter fun r => decide (atMs - NET_HISTORY_MS ≤ r.lastAt)) ++
      nets.getLast?.toList)

/-- The network runs and the address signal after one more request of an instance already known. -/
def observeNetwork (nets : List NetRun) (o : UsageObservation) :
    List NetRun × Bool × Option ConcurrentUseSignal :=
  match nets.getLast?.filter (fun cur => cur.net == o.address.net) with
  | some cur =>
    if o.refresh || decide (REFRESH_MS ≤ o.atMs - cur.lastAt) then
      (pruneNets o.atMs (nets.dropLast ++ [{ cur with lastAt := max cur.lastAt o.atMs }]), true,
        none)
    else (pruneNets o.atMs nets, false, none)
  | none =>
    let nets := nets ++ [⟨o.address.net, o.atMs, o.atMs⟩]
    let (switches, repeats) :=
      alternation nets o.address.net.family (o.atMs - CONCURRENT_USE_WINDOW_MS)
    (pruneNets o.atMs nets, true,
      if repeats && decide (ALTERNATION_MIN_SWITCHES ≤ switches) then some .ipAlternating else none)

/-! ## Heartbeat sequences -/

/-- One candidate of `bestStream`: stream `i` replaces the best so far when its last seq is larger,
or equal and it is the current stream. -/
def betterCandidate (st : SeqStreams) (best : Option (Nat × SeqStream)) (i : Nat) (s : SeqStream) :
    Bool :=
  match best with
  | none => true
  | some (_, b) => decide (b.last < s.last) || (s.last == b.last && i == st.cur)

/-- Index of the active stream (seen within the window) with the largest last seq below `seq`. -/
def bestStream (st : SeqStreams) (seq : Int) (atMs : Int) : Option (Nat × SeqStream) :=
  st.streams.zipIdx.foldl (fun best (s, i) =>
    if decide (seq ≤ s.last) || decide (CONCURRENT_USE_WINDOW_MS < atMs - s.atMs) then best
    else if betterCandidate st best i s then some (i, s) else best) none

/-- `seq` continues another active stream better than the current one (interleaving). -/
def betterStream (st : SeqStreams) (cur : SeqStream) (seq : Int) (atMs : Int) : Bool :=
  match bestStream st seq atMs with
  | some (i, s) => i != st.cur && decide (cur.last < s.last)
  | none => false

/-- The heartbeat sequences after one more `seq`, and whether two of them interleave. -/
def observeSeq (st : SeqStreams) (seq : Int) (atMs : Int) :
    SeqStreams × Option ConcurrentUseSignal :=
  match st.streams[st.cur]? with
  | none => (⟨[⟨seq, atMs⟩], 0⟩, none)
  | some cur =>
    if decide (cur.last < seq) && !betterStream st cur seq atMs then
      ({ st with streams := st.streams.set st.cur ⟨seq, atMs⟩ }, none)
    else if decide (seq ≤ cur.last) && decide (cur.last - SEQ_REORDER_TOLERANCE ≤ seq) then
      -- duplicate or a late heartbeat of the current stream
      (st, none)
    else
      let startNew : SeqStreams × Option ConcurrentUseSignal :=
        let streams := sliceLast MAX_STREAMS (st.streams ++ [⟨seq, atMs⟩])
        (⟨streams, streams.length - 1⟩, none)
      match bestStream st seq atMs with
      | some (idx, _) =>
        if idx ≠ st.cur then
          (⟨st.streams.set idx ⟨seq, atMs⟩, idx⟩,
            if atMs - cur.atMs ≤ CONCURRENT_USE_WINDOW_MS then some .seqInterleaved else none)
        else startNew
      | none => startNew

/-! ## One request -/

/-- The record of an instance first seen with this request. -/
def freshUsage (instanceId : InstanceId) (o : UsageObservation) : InstanceUsage where
  instanceId := instanceId
  uaHash := o.address.uaHash
  nets := [⟨o.address.net, o.atMs, o.atMs⟩]
  ipHashes := [o.address.ipHash]
  seq := o.seq.map fun q => (observeSeq ⟨[], 0⟩ q o.atMs).1

/-- One more request of an instance already known; of several signals the user agent's comes first,
then the networks', then the sequences'. -/
def foldUsage (u : InstanceUsage) (o : UsageObservation) : UsageVerdict :=
  let uaChanged := u.uaHash != o.address.uaHash
  let newIp := decide (o.address.ipHash ∉ u.ipHashes)
  let net := observeNetwork u.nets o
  let seq := o.seq.map fun q => observeSeq (u.seq.getD ⟨[], 0⟩) q o.atMs
  { usage :=
      { u with
        ipHashes :=
          if newIp then sliceLast MAX_IPS (u.ipHashes ++ [o.address.ipHash]) else u.ipHashes
        nets := net.1
        seq := match seq with
          | some r => some r.1
          | none => u.seq }
    changed := o.refresh || newIp || net.2.1 || seq.isSome
    signal :=
      if uaChanged then some .uaChanged
      else net.2.2.orElse fun _ => seq.bind (·.2)
    uaChanged }

/-- Fold one request of `instanceId` into its usage record and decide whether it shows concurrent
use.  A record of another instance is replaced by a fresh one. -/
def observeInstanceUsage (prev : Option InstanceUsage) (instanceId : InstanceId)
    (o : UsageObservation) : UsageVerdict :=
  match prev.filter (fun u => u.instanceId == instanceId) with
  | none =>
    { usage := freshUsage instanceId o, changed := true, signal := none, uaChanged := false }
  | some u => foldUsage u o

/-- The verdict for a request of `instanceId` on this session, or `none` when the session or the
instance is not tracked. -/
def evaluateInstanceUsage (s : ExamSession) (instanceId : InstanceId) (o : UsageObservation) :
    Option UsageVerdict :=
  if s.status ∈ TRACKED_STATUSES ∧ instanceInControl s instanceId then
    some (observeInstanceUsage s.instanceUsage instanceId o)
  else none

def RECHECK_MESSAGE : String :=
  "Please complete a quick camera and identity check to continue your exam."

/-! ## Folding the same request in twice

A heartbeat whose update was committed but could not be answered is folded in once more by the
locked path.  The second time it finds its own traces: its network is the current one, its sequence
number the last of the current stream. -/

theorem sliceLast_append_singleton {α : Type} (n : Nat) (l : List α) (x : α) :
    sliceLast (n + 1) (l ++ [x]) = sliceLast n l ++ [x] := by
  rw [sliceLast, sliceLast, length_append, length_singleton, Nat.add_sub_add_right,
    drop_append_of_le_length (Nat.sub_le _ _)]

theorem sliceLast_sliceLast {α : Type} (n : Nat) (l : List α) :
    sliceLast n (sliceLast n l) = sliceLast n l := by
  have h : (sliceLast n l).length - n = 0 := by
    rw [sliceLast, length_drop]
    omega
  rw [sliceLast, h, drop_zero]

theorem sliceLast_sublist {α : Type} (n : Nat) (l : List α) : (sliceLast n l).Sublist l :=
  drop_sublist _ _

theorem pruneNets_append_singleton (atMs : Int) (nets : List NetRun) (r : NetRun) :
    pruneNets atMs (nets ++ [r]) =
      sliceLast 11 (nets.filter fun r => decide (atMs - NET_HISTORY_MS ≤ r.lastAt)) ++ [r] := by
  rw [pruneNets, dropLast_concat, getLast?_concat]
  exact sliceLast_append_singleton 11 _ r

theorem pruneNets_pruneNets (atMs : Int) (nets : List NetRun) (r : NetRun) :
    pruneNets atMs (pruneNets atMs (nets ++ [r])) = pruneNets atMs (nets ++ [r]) := by
  rw [pruneNets_append_singleton, pruneNets_append_singleton]
  rw [filter_eq_self.2 fun x hx => ?_, sliceLast_sliceLast]
  exact (mem_filter.1 ((sliceLast_sublist _ _).subset hx)).2

variable {o : UsageObservation}

theorem observeNetwork_current (nets : List NetRun) {r : NetRun}
    (hr : o.refresh = true) (hnet : r.net = o.address.net) (hat : o.atMs ≤ r.lastAt) :
    observeNetwork (nets ++ [r]) o = (pruneNets o.atMs (nets ++ [r]), true, none) := by
  have hcur : ((nets ++ [r]).getLast?.filter fun cur => cur.net == o.address.net) = some r := by
    rw [getLast?_concat]
    exact filter_some_pos (by simpa using hnet)
  have hmax : max r.lastAt o.atMs = r.lastAt := max_eq_left hat
  simp only [observeNetwork, hcur, hr, hmax, Bool.true_or, if_true, dropLast_concat]

theorem observeNetwork_fst (nets : List NetRun) (hr : o.refresh = true) :
    ∃ xs r, (observeNetwork nets o).1 = pruneNets o.atMs (xs ++ [r]) ∧
      r.net = o.address.net ∧ o.atMs ≤ r.lastAt := by
  rw [observeNetwork]
  split
  next cur hcur =>
    obtain ⟨-, hnet⟩ := filter_eq_some_iff.1 hcur
    rw [hr]
    exact ⟨_, _, rfl, by simpa using hnet, le_max_right _ _⟩
  next => exact ⟨_, _, rfl, rfl, le_rfl⟩

theorem observeNetwork_again {nets : List NetRun} (hr : o.refresh = true) :
    observeNetwork (observeNetwork nets o).1 o = ((observeNetwork nets o).1, true, none) := by
  obtain ⟨xs, r, h, hnet, hat⟩ := observeNetwork_fst nets hr
  have hprune := pruneNets_pruneNets o.atMs xs r
  rw [h, pruneNets_append_singleton] at *
  rw [observeNetwork_current _ hr hnet hat, hprune]

theorem bestStream_mem {st : SeqStreams} {seq atMs : Int} {i : Nat} {s : SeqStream}
    (h : bestStream st seq atMs = some (i, s)) : st.streams[i]? = some s := by
  suffices hfold : ∀ (l : List (SeqStream × Nat)) (best : Option (Nat × SeqStream)),
      (∀ p ∈ l, st.streams[p.2]? = some p.1) → (∀ p ∈ best, st.streams[p.1]? = some p.2) →
      ∀ p ∈ l.foldl (fun best (s, i) =>
        if decide (seq ≤ s.last) || decide (CONCURRENT_USE_WINDOW_MS < atMs - s.atMs) then best
        else if betterCandidate st best i s then some (i, s) else best) best,
        st.streams[p.1]? = some p.2 by
    refine hfold st.streams.zipIdx none (fun p hp => ?_) (by simp) (i, s) h
    exact mem_zipIdx_iff_getElem?.1 hp
  intro l
  induction l with
  | nil => exact fun best _ hbest => hbest
  | cons x l ih =>
    intro best hl hbest
    refine ih _ (fun p hp => hl p (mem_cons_of_mem _ hp)) ?_
    intro p hp
    dsimp only at hp
    split at hp
    · exact hbest p hp
    · split at hp
      · rw [mem_some_iff] at hp
        subst hp
        exact hl x mem_cons_self
      · exact hbest p hp

theorem observeSeq_current (st : SeqStreams) (seq atMs : Int) :
    ∃ c, (observeSeq st seq atMs).1.streams[(observeSeq st seq atMs).1.cur]? = some c ∧
      seq ≤ c.last ∧ c.last - SEQ_REORDER_TOLERANCE ≤ seq := by
  have hself : seq - SEQ_REORDER_TOLERANCE ≤ seq := by rw [SEQ_REORDER_TOLERANCE]; omega
  have hnew : ∃ c, (sliceLast MAX_STREAMS (st.streams ++ [⟨seq, atMs⟩]))[
      (sliceLast MAX_STREAMS (st.streams ++ [⟨seq, atMs⟩])).length - 1]? = some c ∧
      seq ≤ c.last ∧ c.last - SEQ_REORDER_TOLERANCE ≤ seq := by
    rw [show MAX_STREAMS = 3 + 1 from rfl, sliceLast_append_singleton]
    exact ⟨⟨seq, atMs⟩, by simp, le_rfl, hself⟩
  rw [observeSeq]
  split
  next => exact ⟨⟨seq, atMs⟩, rfl, le_rfl, hself⟩
  next cur hcur =>
    split
    · obtain ⟨hlt, -⟩ := List.getElem?_eq_some_iff.1 hcur
      exact ⟨⟨seq, atMs⟩, by simp [hlt], le_rfl, hself⟩
    · split
      next hdup =>
        rw [Bool.and_eq_true, decide_eq_true_iff, decide_eq_true_iff] at hdup
        exact ⟨cur, hcur, hdup⟩
      next =>
        cases hbest : bestStream st seq atMs with
        | none => exact hnew
        | some b =>
          dsimp only
          split
          · obtain ⟨hlt, -⟩ := List.getElem?_eq_some_iff.1 (bestStream_mem hbest)
            exact ⟨⟨seq, atMs⟩, by simp [hlt], le_rfl, hself⟩
          · exact hnew

theorem observeSeq_again (st : SeqStreams) (seq atMs : Int) :
    observeSeq (observeSeq st seq atMs).1 seq atMs = ((observeSeq st seq atMs).1, none) := by
  obtain ⟨c, hc, hle, htol⟩ := observeSeq_current st seq atMs
  generalize (observeSeq st seq atMs).1 = st' at *
  have hlt : ¬ c.last < seq := not_lt.2 hle
  simp [observeSeq, hc, hlt, hle, htol]

/-- The record shows the request already: its user agent, its address, its network's run as the
current one, its sequence number. -/
structure InstanceUsage.Shows (u : InstanceUsage) (o : UsageObservation) : Prop where
  ua : u.uaHash = o.address.uaHash
  ip : o.address.ipHash ∈ u.ipHashes
  net : observeNetwork u.nets o = (u.nets, true, none)
  seq : ∀ q ∈ o.seq, ∃ st, u.seq = some st ∧ observeSeq st q o.atMs = (st, none)

theorem InstanceUsage.Shows.foldUsage {u : InstanceUsage} (h : u.Shows o) :
    (foldUsage u o).usage = u ∧ (foldUsage u o).signal = none := by
  obtain ⟨hua, hip, hnet, hseq⟩ := h
  obtain ⟨i, ua, nets, ips, seq⟩ := u
  cases hq : o.seq with
  | none => simp_all [SmartProctoring.foldUsage]
  | some q =>
    obtain ⟨st, hst, hobs⟩ := hseq q hq
    simp_all [SmartProctoring.foldUsage]

theorem freshUsage_shows (i : InstanceId) (hr : o.refresh = true) :
    (freshUsage i o).Shows o where
  ua := rfl
  ip := mem_cons_self
  net := observeNetwork_current [] (r := ⟨o.address.net, o.atMs, o.atMs⟩) hr rfl le_rfl
  seq q hq := by
    exact ⟨_, by rw [freshUsage, hq]; rfl, observeSeq_again _ _ _⟩

theorem foldUsage_shows {u : InstanceUsage} (hr : o.refresh = true)
    (hs : (foldUsage u o).signal = none) : (foldUsage u o).usage.Shows o where
  ua := by
    by_contra hne
    simp [foldUsage, show u.uaHash ≠ o.address.uaHash from hne] at hs
  ip := by
    by_cases h : o.address.ipHash ∈ u.ipHashes
    · simp [foldUsage, h]
    · simp only [foldUsage, h, not_false_eq_true, decide_true, if_true]
      rw [show MAX_IPS = 5 + 1 from rfl, sliceLast_append_singleton]
      exact mem_append_right _ mem_cons_self
  net := observeNetwork_again hr
  seq q hq := by
    rw [mem_def] at hq
    exact ⟨_, by simp only [foldUsage, hq]; rfl, observeSeq_again _ _ _⟩

/-- **Folding a heartbeat in again changes nothing** and shows nothing new, provided it showed
nothing the first time. -/
theorem observeInstanceUsage_again {prev : Option InstanceUsage} {i : InstanceId}
    (hr : o.refresh = true)
    (hs : (observeInstanceUsage prev i o).signal = none) :
    (observeInstanceUsage (some (observeInstanceUsage prev i o).usage) i o).usage =
        (observeInstanceUsage prev i o).usage ∧
      (observeInstanceUsage (some (observeInstanceUsage prev i o).usage) i o).signal = none := by
  suffices h : ∀ u : InstanceUsage, u.instanceId = i → u.Shows o →
      (observeInstanceUsage (some u) i o).usage = u ∧
        (observeInstanceUsage (some u) i o).signal = none by
    generalize hv : observeInstanceUsage prev i o = v at hs ⊢
    rw [observeInstanceUsage] at hv
    split at hv
    next => exact hv ▸ h _ rfl (freshUsage_shows i hr)
    next u hu =>
      obtain ⟨-, hui⟩ := filter_eq_some_iff.1 hu
      subst hv
      exact h _ (by simpa [foldUsage] using hui) (foldUsage_shows hr hs)
  intro u hui hu
  have hself : (some u).filter (fun u => u.instanceId == i) = some u :=
    filter_some_pos (by simpa using hui)
  simp only [observeInstanceUsage, hself]
  exact hu.foldUsage

end SmartProctoring
