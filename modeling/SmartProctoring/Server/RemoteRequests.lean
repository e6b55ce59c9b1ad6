import Mathlib.Data.List.Rotate
import SmartProctoring.Lib.Slots
import SmartProctoring.Server.RemoteVision

/-!
# Remote requests are sent once

Whatever endpoints, calls and polls there are and however requests end: a call sends at most
`MAX_ATTEMPTS` requests, none after one that an endpoint took, and none to an endpoint that refused
it (`VisionCall.SentOnce`). The in-flight counters are the numbers of calls that wait
(`InFlightRight`), so nothing is left of calls that have ended.
-/

set_option autoImplicit false

namespace SmartProctoring

open List

variable {T : Type}

/-! ## What the end of a request means -/

namespace SendOutcome

/-- A kept-alive socket had been closed. -/
def staleSocket : SendOutcome T → Bool
  | .response _ => false
  | .error e connected responded reusedSocket => connected && reusedSocket && !responded && e.stale

/-- There was no connection. -/
def noConnection : SendOutcome T → Bool
  | .response _ => false
  | .error _ connected _ _ => !connected

/-- The answer says that nothing was taken. -/
def notTakenStatus : SendOutcome T → Bool
  | .response r => decide (r.status = 401 ∨ r.status = 502 ∨ r.status = 503)
  | .error _ _ _ _ => false

/-- The endpoint took the request, or may have. -/
def taken (o : SendOutcome T) : Prop :=
  o.staleSocket = false ∧ o.noConnection = false ∧ o.notTakenStatus = false

/-- The endpoint refused the request. -/
def refused (o : SendOutcome T) : Prop := o.noConnection = true ∨ o.notTakenStatus = true

theorem not_refused {o : SendOutcome T} (h : o.staleSocket = true) : ¬ o.refused := by
  rcases o with r | ⟨e, connected, responded, reusedSocket⟩
  · simp [staleSocket] at h
  · simp only [staleSocket, Bool.and_eq_true] at h
    simp [refused, noConnection, notTakenStatus, h.1.1.1]

end SendOutcome

/-! ## The parts of a call that a request changes -/

namespace RemoteVision

variable {s s' s'' : RemoteVision T} {c c' : VisionCall T} {e : Nat}

/-- Nothing but what is known about the workers changes. -/
structure Learns (s s' : RemoteVision T) : Prop where
  calls : s'.calls = s.calls
  inFlight : s'.inFlight = s.inFlight
  endpoint : ∀ e, (s'.endpoint e).inFlight = (s.endpoint e).inFlight
  sources : s'.sources = s.sources
  allocated : s'.allocated = s.allocated

theorem Learns.refl (s : RemoteVision T) : Learns s s := ⟨rfl, rfl, fun _ => rfl, rfl, rfl⟩

theorem Learns.trans (h : Learns s s') (h' : Learns s' s'') : Learns s s'' where
  calls := h'.calls.trans h.calls
  inFlight := h'.inFlight.trans h.inFlight
  endpoint e := (h'.endpoint e).trans (h.endpoint e)
  sources := h'.sources.trans h.sources
  allocated := h'.allocated.trans h.allocated

theorem learns_modify (e : Nat) {f : Endpoint → Endpoint} (hf : ∀ ep, (f ep).inFlight = ep.inFlight)
    (s : RemoteVision T) : Learns s (s.modify e f) := by
  refine ⟨rfl, rfl, fun e' => ?_, rfl, rfl⟩
  rcases eq_or_ne e' e with rfl | he
  · simp [modify, hf]
  · simp [modify, he]

theorem learns_report (e : Nat) (load : VisionLoad) (instanceId : Option String)
    (s : RemoteVision T) : Learns s (s.report e load instanceId) := by
  unfold report
  split
  · exact .refl s
  · exact learns_modify e (fun _ => by rfl) s

theorem learns_failed (e : Nat) (reason : RemoteFailureReason) (countIt : Bool)
    (s : RemoteVision T) : Learns s (s.failed e reason countIt) := by
  unfold failed
  dsimp only
  split
  · exact .refl s
  · split
    · exact .refl s
    · have hcount : Learns s (s.modify e fun ep => { ep with failures := ep.failures + 1 }) :=
        learns_modify e (fun _ => by rfl) s
      split
      · exact hcount.trans (learns_modify e (fun _ => by rfl) _)
      · exact hcount

theorem learns_takeLoad (e : Nat) (load : Option VisionLoad) (s : RemoteVision T) :
    Learns s (s.takeLoad e load) := by
  unfold takeLoad
  split
  · exact .refl s
  · exact learns_modify e (fun _ => by rfl) s

theorem learns_polled (e : Nat) (o : SendOutcome Unit) (s : RemoteVision T) :
    Learns s (s.polled e o) := by
  unfold polled
  refine Learns.trans ?_ (learns_modify e (fun _ => by rfl) _)
  split
  · split
    · exact learns_failed e _ _ s
    · split
      · exact learns_failed e _ _ s
      · split
        · exact learns_report e _ _ s
        · exact learns_failed e _ _ s
  · exact learns_failed e _ _ s

/-! ## Picking an endpoint -/

theorem activeAmong_subset (seen : List String) (es : List Nat) : s.activeAmong seen es ⊆ es := by
  induction es generalizing seen with
  | nil => simp [activeAmong]
  | cons e es ih =>
    have hskip : ∀ seen, s.activeAmong seen es ⊆ e :: es := fun seen _ hx =>
      mem_cons_of_mem e (ih seen hx)
    have htake : ∀ seen, e :: s.activeAmong seen es ⊆ e :: es := fun seen => cons_subset_cons e (ih seen)
    unfold activeAmong
    dsimp only
    split
    · exact hskip seen
    · split
      · exact htake seen
      · split
        · exact hskip seen
        · exact htake _

theorem mem_of_leastWait {priority : VisionPriority} {es : List Nat} {best : Option (Nat × ℚ)}
    (h : s.leastWait priority es best = some e) : e ∈ es ∨ best.map (·.1) = some e := by
  induction es generalizing best with
  | nil => exact .inr h
  | cons e' es ih =>
    rw [leastWait] at h
    split at h
    · split at h
      · rcases ih h with hmem | hbest
        · exact .inl (mem_cons_of_mem e' hmem)
        · obtain rfl : e' = e := by simpa using hbest
          exact .inl mem_cons_self
      · exact (ih h).imp_left (mem_cons_of_mem e')
    · exact (ih h).imp_left (mem_cons_of_mem e')
    · exact (ih h).imp_left (mem_cons_of_mem e')

theorem pick_spec (priority : VisionPriority) (exclude : List Nat) (s : RemoteVision T) :
    (∀ e, (s.pick priority exclude).1 = some e → e ∈ s.endpoints ∧ e ∉ exclude) ∧
      (s.pick priority exclude).2 = { s with rr := (s.pick priority exclude).2.rr } := by
  unfold pick
  dsimp only
  split
  · exact ⟨by simp, rfl⟩
  · refine ⟨fun e he => ?_, rfl⟩
    have hmem := (mem_of_leastWait he).resolve_right (by simp)
    rw [mem_rotate, mem_filter] at hmem
    exact ⟨activeAmong_subset [] _ hmem.1, by simpa using hmem.2⟩

theorem attempt_spec (c : VisionCall T) (s : RemoteVision T) :
    (∃ err, (s.attempt c).1 = finish c (.error err) ∧ Learns s (s.attempt c).2) ∨
      ∃ e, e ∈ s.endpoints ∧ e ∉ c.tried ∧ c.attempt < MAX_ATTEMPTS ∧
        (s.attempt c).1 = { c with tried := e :: c.tried, phase := .sending e, sends := ⟨e, none⟩ :: c.sends } ∧
        (s.attempt c).2.calls = s.calls ∧ (s.attempt c).2.inFlight = s.inFlight + 1 ∧
        (∀ e', ((s.attempt c).2.endpoint e').inFlight = (s.endpoint e').inFlight + if e' = e then 1 else 0) ∧
        (s.attempt c).2.sources = s.sources ∧ (s.attempt c).2.allocated = s.allocated := by
  obtain ⟨hmem, hrr⟩ := pick_spec c.priority c.tried s
  unfold attempt
  split
  next hlt =>
    split
    · exact .inl ⟨_, rfl, .refl s⟩
    · split
      next s₁ hpick =>
        rw [hpick] at hrr
        change s₁ = _ at hrr
        refine .inl ⟨_, rfl, ?_⟩
        rw [hrr]
        exact ⟨rfl, rfl, fun _ => rfl, rfl, rfl⟩
      next e s₁ hpick =>
        rw [hpick] at hrr hmem
        change s₁ = _ at hrr
        refine .inr ⟨e, (hmem e rfl).1, (hmem e rfl).2, hlt, rfl, ?_⟩
        rw [hrr]
        refine ⟨rfl, rfl, fun e' => ?_, rfl, rfl⟩
        rcases eq_or_ne e' e with rfl | he
        · simp [modify]
        · simp [modify, he]
  next => exact .inl ⟨_, rfl, .refl s⟩

/-! ## The end of a request -/

/-- The answer was a result. -/
def Decodes (o : SendOutcome T) (x : T) : Prop :=
  ∃ r a, o = .response r ∧ r.status = 200 ∧ r.decoded = .ok a ∧ a.result = x

/-- What a request's end leads to: the call ends, with a result only if there is one, or it goes on
after an outcome that says that nothing was taken. -/
inductive Leads (c : VisionCall T) (e : Nat) (o : SendOutcome T) (s : RemoteVision T) :
    VisionCall T × RemoteVision T → Prop
  | ended {s₁ : RemoteVision T} (h : Learns s s₁) (r : Except RemoteError T)
    (hr : ∀ x, r = .ok x → Decodes o x) : Leads c e o s (finish c r, s₁)
  | next {s₁ : RemoteVision T} (h : Learns s s₁) (ho : ¬ o.taken) (hstale : o.staleSocket = false)
    (busy : Option Int) : Leads c e o s (s₁.continue { c with busyAfterSec := busy })
  | again (ho : o.staleSocket = true) :
    Leads c e o s (s.continue { c with tried := c.tried.filter fun e' => e' ≠ e })

theorem responded_leads (c : VisionCall T) (e : Nat) (r : RawResponse T) (s : RemoteVision T) :
    Leads c e (.response r) s (s.responded c e r) := by
  have hnext : ∀ {s₁}, Learns s s₁ → r.status = 401 ∨ r.status = 502 ∨ r.status = 503 → ∀ busy,
      Leads c e (.response r) s (s₁.continue { c with busyAfterSec := busy }) := by
    intro s₁ h hstatus busy
    refine .next h (fun ht => ?_) rfl busy
    have hno := ht.2.2
    simp [SendOutcome.notTakenStatus, hstatus] at hno
  have hload := learns_takeLoad e (r.error.bind fun b => b.load) s
  unfold responded
  dsimp only
  split
  next h200 =>
    split
    next a ha => exact .ended (learns_report e _ _ s) _ fun x hx => ⟨r, a, rfl, h200, ha, Except.ok.inj hx⟩
    next => exact .ended (learns_failed e _ _ s) _ (by simp)
  next =>
    split
    next h => exact hnext hload (.inr (.inr h.1)) _
    next =>
      split
      next h =>
        exact hnext (hload.trans (learns_modify e (fun _ => by rfl) _)) (.inr (.inr h.1)) c.busyAfterSec
      next =>
        split
        next h => exact hnext (hload.trans (learns_failed e _ _ _)) (.inl h) c.busyAfterSec
        next =>
          split
          next h => exact hnext (hload.trans (learns_failed e _ _ _)) (.inr h) c.busyAfterSec
          next =>
            split
            · exact .ended hload _ (by simp)
            · split
              · exact .ended hload _ (by simp)
              · exact .ended (hload.trans (learns_failed e _ _ _)) _ (by simp)

/-- The counters without the request that has ended. -/
def release (e : Nat) (s : RemoteVision T) : RemoteVision T :=
  { s.modify e fun ep => { ep with inFlight := ep.inFlight - 1 } with inFlight := s.inFlight - 1 }

/-- The call, with the outcome of its last request. -/
def settle (c : VisionCall T) (o : SendOutcome T) : VisionCall T :=
  { c with sends := c.sends.modifyHead fun q => { q with outcome := some o } }

theorem classify_not_accepted {err : SocketError} {connected responded reusedSocket : Bool} :
    (classify err connected responded reusedSocket).accepted = false ↔
      (SendOutcome.error (T := T) err connected responded reusedSocket).noConnection = true ∨
        (SendOutcome.error (T := T) err connected responded reusedSocket).staleSocket = true := by
  unfold classify
  rcases connected <;> rcases responded <;> rcases reusedSocket <;> rcases hs : err.stale <;>
    simp [SendOutcome.staleSocket, SendOutcome.noConnection, hs] <;> split_ifs <;> rfl

theorem classify_stale {err : SocketError} {connected responded reusedSocket : Bool} :
    ((classify err connected responded reusedSocket).reason = .reset ∧
        (classify err connected responded reusedSocket).accepted = false) ↔
      (SendOutcome.error (T := T) err connected responded reusedSocket).staleSocket = true := by
  unfold classify
  rcases connected <;> rcases responded <;> rcases reusedSocket <;> rcases hs : err.stale <;>
    simp [SendOutcome.staleSocket, hs] <;> split_ifs <;> simp

theorem settled_leads (c : VisionCall T) (e : Nat) (o : SendOutcome T) (s : RemoteVision T) :
    Leads (settle c o) e o (s.release e) (s.settled c e o) := by
  cases o with
  | response r => exact responded_leads _ e r _
  | error err connected responded reusedSocket =>
    unfold settled
    dsimp only
    split
    next h => exact .again (classify_stale.1 ⟨h.1, by simpa using h.2⟩)
    next h =>
      split
      next hacc =>
        have hacc : (classify err connected responded reusedSocket).accepted = false := by simpa using hacc
        have hstale : (SendOutcome.error (T := T) err connected responded reusedSocket).staleSocket = false := by
          rw [Bool.eq_false_iff]
          exact fun hs => h ((classify_stale.2 hs).imp_right fun ha => by simp [ha])
        refine .next (learns_failed e _ _ _) (fun ht => ?_) hstale c.busyAfterSec
        rcases classify_not_accepted.1 hacc with hno | hs
        · rw [ht.2.1] at hno
          simp at hno
        · rw [hstale] at hs
          simp at hs
      next => exact .ended (learns_failed e _ _ _) _ (by simp)

end RemoteVision

open RemoteVision

/-! ## The requests of a call -/

/-- A later request is not sent to an endpoint that refused an earlier one. -/
def NotAskedAgain (sends : List (SentRequest T)) : Prop :=
  sends.Pairwise fun later earlier => ∀ o ∈ earlier.outcome,
  o.refused → later.endpoint ≠ earlier.endpoint

/-- The request has ended, and nothing was taken. -/
def SentRequest.NotTaken (q : SentRequest T) : Prop := ∃ o, q.outcome = some o ∧ ¬ o.taken

namespace VisionCall

/-- **The requests of a call.**  There are few; all but the last one were not taken; none went to an
endpoint that had refused one.  The call waits for the last one, or it has ended, with a result only
if the last one had it. -/
structure SentOnce (c : VisionCall T) : Prop where
  bound : c.sends.length ≤ MAX_ATTEMPTS
  once : ∀ q ∈ c.sends.tail, q.NotTaken
  again : NotAskedAgain c.sends
  phase : (∃ e rest, c.phase = .sending e ∧ c.sends = ⟨e, none⟩ :: rest) ∨
    ∃ r, c.phase = .ended r ∧ (∀ q ∈ c.sends, q.outcome.isSome) ∧
      ∀ x, r = .ok x → ∃ q ∈ c.sends.head?, ∃ o ∈ q.outcome, Decodes o x

/-- A call at the head of the loop. -/
structure Ready (c : VisionCall T) : Prop where
  length : c.sends.length = c.attempt
  bound : c.attempt ≤ MAX_ATTEMPTS
  once : ∀ q ∈ c.sends, q.NotTaken
  again : NotAskedAgain c.sends
  tried : ∀ q ∈ c.sends, ∀ o ∈ q.outcome, o.refused → q.endpoint ∈ c.tried

/-- A call that waits for the end of a request. -/
structure Waiting (c : VisionCall T) (e : Nat) (rest : List (SentRequest T)) : Prop where
  phase : c.phase = .sending e
  sends : c.sends = ⟨e, none⟩ :: rest
  length : rest.length = c.attempt
  bound : c.attempt < MAX_ATTEMPTS
  once : ∀ q ∈ rest, q.NotTaken
  again : NotAskedAgain c.sends
  tried : ∀ q ∈ rest, ∀ o ∈ q.outcome, o.refused → q.endpoint ∈ c.tried
  self : e ∈ c.tried

def Inv (c : VisionCall T) : Prop :=
  (∃ e rest, c.Waiting e rest) ∨ (∃ r, c.phase = .ended r) ∧ c.SentOnce

variable {c c' : VisionCall T} {e : Nat} {rest : List (SentRequest T)} {o : SendOutcome T}
  {s s' : RemoteVision T}

theorem Waiting.sentOnce (h : c.Waiting e rest) : c.SentOnce where
  bound := by
    have := h.length
    have := h.bound
    rw [h.sends, length_cons]
    omega
  once := by
    rw [h.sends]
    exact h.once
  again := h.again
  phase := .inl ⟨e, rest, h.phase, h.sends⟩

theorem Inv.sentOnce (h : c.Inv) : c.SentOnce := by
  rcases h with ⟨e, rest, h⟩ | ⟨-, h⟩
  · exact h.sentOnce
  · exact h

theorem Ready.finish (h : c.Ready) (err : RemoteError) : (finish c (.error err)).Inv := by
  have hbound := h.bound
  have hlength := h.length
  refine .inr ⟨⟨_, rfl⟩, ?_, fun q hq => h.once q (mem_of_mem_tail hq), h.again,
    .inr ⟨_, rfl, fun q hq => ?_, by simp⟩⟩
  · show c.sends.length ≤ MAX_ATTEMPTS
    omega
  · obtain ⟨o, ho, -⟩ := h.once q hq
    simp [ho]

/-- The head of the loop. -/
theorem Ready.attempt (h : c.Ready) (s : RemoteVision T) : (s.attempt c).1.Inv := by
  rcases attempt_spec c s with ⟨err, heq, -⟩ | ⟨e, -, hne, hlt, heq, -⟩ <;> rw [heq]
  · exact h.finish err
  · refine .inl ⟨e, c.sends, rfl, rfl, h.length, hlt, h.once, ?_, fun q hq o ho hr => ?_, mem_cons_self⟩
    · refine pairwise_cons.2 ⟨fun q hq o ho hr he => hne ?_, h.again⟩
      have hmem := h.tried q hq o ho hr
      rwa [← he] at hmem
    · exact mem_cons_of_mem e (h.tried q hq o ho hr)

theorem Waiting.settle_sends (h : c.Waiting e rest) (o : SendOutcome T) :
    (settle c o).sends = ⟨e, some o⟩ :: rest := by
  rw [settle, h.sends]
  rfl

theorem Waiting.settle_again (h : c.Waiting e rest) (o : SendOutcome T) :
    NotAskedAgain (settle c o).sends := by
  have hagain := h.again
  rw [h.sends] at hagain
  rw [h.settle_sends o]
  exact pairwise_cons.2 (pairwise_cons.1 hagain)

theorem Waiting.ready (h : c.Waiting e rest) (ho : ¬ o.taken) {tried : List Nat} {busy : Option Int}
    (htried : ∀ q ∈ (settle c o).sends, ∀ o' ∈ q.outcome, o'.refused → q.endpoint ∈ tried) :
    Ready { settle c o with tried := tried, busyAfterSec := busy, attempt := c.attempt + 1 } := by
  refine ⟨?_, h.bound, ?_, h.settle_again o, htried⟩
  · rw [h.settle_sends o, length_cons, h.length]
  · rw [h.settle_sends o]
    exact forall_mem_cons.2 ⟨⟨o, rfl, ho⟩, h.once⟩

/-- What the end of a request leads to. -/
theorem Waiting.leads (h : c.Waiting e rest) {p : VisionCall T × RemoteVision T}
    (hl : Leads (settle c o) e o s p) : p.1.Inv := by
  have hrest : ∀ q ∈ rest, ∀ o' ∈ q.outcome, o'.refused → e ≠ q.endpoint := by
    have hagain := h.again
    rw [h.sends] at hagain
    exact (pairwise_cons.1 hagain).1
  cases hl with
  | ended _ r hr =>
    have hsends : (finish (settle c o) r).sends = ⟨e, some o⟩ :: rest := h.settle_sends o
    refine .inr ⟨⟨r, rfl⟩, ?_, ?_, h.settle_again o, .inr ⟨r, rfl, ?_, fun x hx => ?_⟩⟩
    · have := h.length
      have := h.bound
      rw [hsends, length_cons]
      omega
    · rw [hsends]
      exact h.once
    · rw [hsends]
      refine forall_mem_cons.2 ⟨rfl, fun q hq => ?_⟩
      obtain ⟨o', ho', -⟩ := h.once q hq
      simp [ho']
    · rw [hsends]
      exact ⟨_, rfl, o, rfl, hr x hx⟩
  | next _ ho =>
    refine (h.ready ho ?_).attempt _
    rw [h.settle_sends o]
    exact forall_mem_cons.2 ⟨fun _ _ _ => h.self, h.tried⟩
  | again ho =>
    refine (h.ready (fun ht => ?_) ?_).attempt _
    · rw [ht.1] at ho
      simp at ho
    · rw [h.settle_sends o]
      refine forall_mem_cons.2 ⟨fun o' ho' hr => ?_, fun q hq o' ho' hr => ?_⟩
      · obtain rfl := Option.some.inj ho'
        exact absurd hr (SendOutcome.not_refused ho)
      · exact mem_filter.2 ⟨h.tried q hq o' ho' hr, by simpa using (hrest q hq o' ho' hr).symm⟩

end VisionCall

/-! ## The counters -/

namespace VisionCall

theorem phase_of_waits {c : VisionCall T} (h : c.waits = true) : ∃ e, c.phase = .sending e := by
  unfold waits at h
  split at h
  · simp at h
  · exact ⟨_, ‹_›⟩
  · simp at h

/-- The call waits for a request to the endpoint. -/
def waitsFor (e : Nat) (c : VisionCall T) : Bool :=
  match c.phase with
  | .starting => false
  | .sending e' => decide (e' = e)
  | .ended _ => false

end VisionCall

/-- Every call is as it should be, and the counters count the calls that wait. -/
structure InFlightRight (s : RemoteVision T) : Prop where
  calls : ∀ c ∈ s.calls, c.Inv
  total : s.inFlight = (s.calls.countP VisionCall.waits : Nat)
  each : ∀ e, (s.endpoint e).inFlight = (s.calls.countP (VisionCall.waitsFor e) : Nat)
  endpoints : ∀ e ∈ s.endpoints, e < s.allocated
  waiting : ∀ c ∈ s.calls, ∀ e, c.waitsFor e → e < s.allocated

/-- A call with its request counted in. -/
structure Counted (s : RemoteVision T) (p : VisionCall T × RemoteVision T) : Prop where
  calls : p.2.calls = s.calls
  total : p.2.inFlight = s.inFlight + if p.1.waits then 1 else 0
  each : ∀ e, (p.2.endpoint e).inFlight = (s.endpoint e).inFlight + if p.1.waitsFor e then 1 else 0
  sources : p.2.sources = s.sources
  allocated : p.2.allocated = s.allocated
  mem : ∀ e, p.1.waitsFor e → e ∈ s.endpoints

section

variable {c : VisionCall T} {e : Nat} {o : SendOutcome T} {s s' : RemoteVision T}
  {p : VisionCall T × RemoteVision T}

theorem Counted.learns (h : Learns s s') (hp : Counted s' p) : Counted s p where
  calls := hp.calls.trans h.calls
  total := by rw [hp.total, h.inFlight]
  each e := by rw [hp.each, h.endpoint]
  sources := hp.sources.trans h.sources
  allocated := hp.allocated.trans h.allocated
  mem e he := by
    have hmem := hp.mem e he
    rwa [endpoints, h.sources] at hmem

theorem counted_finish (h : Learns s s') (c : VisionCall T) (r : Except RemoteError T) :
    Counted s (finish c r, s') := by
  refine ⟨h.calls, ?_, fun e => ?_, h.sources, h.allocated, fun e he => ?_⟩
  · simp [h.inFlight, VisionCall.waits, finish]
  · simp [h.endpoint, VisionCall.waitsFor, finish]
  · simp [VisionCall.waitsFor, finish] at he

theorem counted_attempt (c : VisionCall T) (s : RemoteVision T) : Counted s (s.attempt c) := by
  rcases attempt_spec c s with ⟨err, heq, h⟩ | ⟨e, hmem, -, -, heq, hcalls, htotal, heach, hsources, halloc⟩
  · have hfin := counted_finish h c (.error err)
    rwa [← heq] at hfin
  · refine ⟨hcalls, ?_, fun e' => ?_, hsources, halloc, fun e' he' => ?_⟩ <;> rw [heq] at *
    · rw [htotal]
      rfl
    · rw [heach]
      rcases eq_or_ne e' e with rfl | he
      · simp [VisionCall.waitsFor]
      · simp [VisionCall.waitsFor, he, he.symm]
    · obtain rfl : e = e' := by simpa [VisionCall.waitsFor] using he'
      exact hmem

theorem counted_leads (h : Leads c e o s p) : Counted s p := by
  cases h with
  | ended h r _ => exact counted_finish h c r
  | next h => exact (counted_attempt _ _).learns h
  | again _ => exact counted_attempt _ s

namespace InFlightRight

theorem learns (h : Learns s s') (hs : InFlightRight s) : InFlightRight s' where
  calls := by
    rw [h.calls]
    exact hs.calls
  total := by rw [h.inFlight, h.calls, hs.total]
  each e := by rw [h.endpoint, h.calls, hs.each]
  endpoints := by
    rw [RemoteVision.endpoints, h.sources, h.allocated]
    exact hs.endpoints
  waiting := by
    rw [h.calls, h.allocated]
    exact hs.waiting

section

variable (hs : InFlightRight s)
include hs

/-- A new call. -/
theorem call (hp : Counted s p) (hc : p.1.Inv) :
    InFlightRight { p.2 with calls := p.2.calls ++ [p.1] } := by
  refine ⟨?_, ?_, fun e => ?_, ?_, ?_⟩
  · rw [hp.calls, forall_mem_append]
    exact ⟨hs.calls, forall_mem_singleton.2 hc⟩
  · rw [hp.calls, hp.total, hs.total, countP_append, countP_singleton]
    split <;> simp
  · rw [hp.calls, hp.each, hs.each, countP_append, countP_singleton]
    split <;> simp
  · show ∀ e ∈ p.2.sources.flatten, e < p.2.allocated
    rw [hp.sources, hp.allocated]
    exact hs.endpoints
  · rw [hp.calls, hp.allocated, forall_mem_append]
    exact ⟨hs.waiting, forall_mem_singleton.2 fun e he => hs.endpoints e (hp.mem e he)⟩

/-- A request of a call has ended. -/
theorem settled {k : Nat} (hk : s.calls[k]? = some c) (hphase : c.phase = .sending e)
    (hp : Counted (s.release e) p) (hc : p.1.Inv) :
    InFlightRight { p.2 with calls := p.2.calls.set k p.1 } := by
  have hcalls : p.2.calls = s.calls := hp.calls
  have hcount : ∀ f : VisionCall T → Bool, (s.calls.set k p.1).countP f + (if f c then 1 else 0) =
      s.calls.countP f + if f p.1 then 1 else 0 := by
    intro f
    rw [(set_perm_eraseIdx hk p.1).countP_eq, (perm_eraseIdx_of_getElem? hk).countP_eq,
      countP_cons, countP_cons]
    omega
  have hmem : ∀ c' ∈ s.calls.set k p.1, c' = p.1 ∨ c' ∈ s.calls := fun c' hc' =>
    (mem_set_cases hk hc').imp_right mem_of_mem_eraseIdx
  refine ⟨?_, ?_, fun e' => ?_, ?_, ?_⟩
  · rw [hcalls]
    intro c' hc'
    rcases hmem c' hc' with rfl | hc'
    · exact hc
    · exact hs.calls c' hc'
  · have htotal := hcount VisionCall.waits
    rw [hcalls, hp.total]
    show s.inFlight - 1 + _ = _
    rw [hs.total]
    have hwaits : c.waits = true := by rw [VisionCall.waits, hphase]
    rw [hwaits] at htotal
    rcases hb : p.1.waits <;> simp [hb] at htotal ⊢ <;> omega
  · have heach := hcount (VisionCall.waitsFor e')
    have hwaits : c.waitsFor e' = decide (e = e') := by rw [VisionCall.waitsFor, hphase]
    have hrelease : ((s.release e).endpoint e').inFlight = (s.endpoint e').inFlight - if e = e' then 1 else 0 := by
      rcases eq_or_ne e' e with rfl | he
      · simp [release, RemoteVision.modify]
      · simp [release, RemoteVision.modify, he, he.symm]
    rw [hcalls, hp.each, hrelease, hs.each]
    rw [hwaits] at heach
    rcases hb : p.1.waitsFor e' <;> by_cases he : e = e' <;> simp [hb, he] at heach ⊢ <;> omega
  · show ∀ e ∈ p.2.sources.flatten, e < p.2.allocated
    rw [hp.sources, hp.allocated]
    exact hs.endpoints
  · rw [hcalls, hp.allocated]
    intro c' hc' e' he'
    rcases hmem c' hc' with rfl | hc'
    · exact hs.endpoints e' (hp.mem e' he')
    · exact hs.waiting c' hc' e' he'

theorem addSource {keys : List String} {ids : List Nat} (hids : ∀ e ∈ ids, e < s.allocated) :
    InFlightRight (s.addSource keys ids).2 ∧ (s.addSource keys ids).2.sources = s.sources ∧
      ∀ e ∈ (s.addSource keys ids).1, e < (s.addSource keys ids).2.allocated := by
  unfold RemoteVision.addSource
  induction keys generalizing ids s with
  | nil => exact ⟨hs, rfl, hids⟩
  | cons key keys ih =>
    rw [foldl_cons]
    dsimp only
    split
    · exact ih hs hids
    · have hnew : InFlightRight { s with
          endpoint := Function.update s.endpoint s.allocated { key := key }
          allocated := s.allocated + 1 } := by
        refine ⟨hs.calls, hs.total, fun e => ?_, fun e he => ?_, fun c hc e he => ?_⟩
        · rcases eq_or_ne e s.allocated with rfl | he
          · have hzero : s.calls.countP (VisionCall.waitsFor s.allocated) = 0 :=
              countP_eq_zero.2 fun c hc hw => lt_irrefl _ (hs.waiting c hc _ hw)
            simp [hzero]
          · simpa [he] using hs.each e
        · exact Nat.lt_succ_of_lt (hs.endpoints e he)
        · exact Nat.lt_succ_of_lt (hs.waiting c hc e he)
      refine ih hnew fun e he => ?_
      rcases mem_snoc.1 he with he | rfl
      · exact Nat.lt_succ_of_lt (hids e he)
      · exact Nat.lt_succ_self _

theorem resolveSource (i : Nat) (keys : List String) : InFlightRight (s.resolveSource i keys) := by
  unfold RemoteVision.resolveSource
  split
  next => exact hs
  next ids hi =>
    have hmem : ids ∈ s.sources := mem_of_getElem? hi
    have hold : ∀ e ∈ ids, e < s.allocated := fun e he => hs.endpoints e (mem_flatten_of_mem hmem he)
    obtain ⟨hs', hsources, hids⟩ := @addSource _ s hs keys ids hold
    refine { hs' with endpoints := fun e he => ?_ }
    obtain ⟨l, hl, he⟩ := mem_flatten.1 he
    rcases mem_or_eq_of_mem_set hl with hl | rfl
    · exact hs'.endpoints e (mem_flatten_of_mem hl he)
    · exact hids e (mem_of_mem_filter he)

theorem step {i : RemoteInput T} (hi : i.enabled s) : InFlightRight (i.step s) := by
  cases i with
  | tick ms =>
    have h : Learns s { s with now := s.now + ms } := ⟨rfl, rfl, fun _ => rfl, rfl, rfl⟩
    exact hs.learns h
  | resolve i keys => exact hs.resolveSource i keys
  | poll e =>
    have h : Learns s (s.modify e fun ep => { ep with polling := true }) :=
      learns_modify e (fun _ => by rfl) s
    exact hs.learns h
  | polled e o => exact hs.learns (learns_polled e o s)
  | call priority =>
    have hready : (VisionCall.start (T := T) priority).Ready :=
      ⟨rfl, Nat.zero_le _, by simp [VisionCall.start], List.Pairwise.nil, by simp [VisionCall.start]⟩
    exact hs.call (counted_attempt (.start priority) s) (hready.attempt s)
  | settled k o =>
    obtain ⟨c, hk, hwaits⟩ := hi
    obtain ⟨e, hphase⟩ := VisionCall.phase_of_waits hwaits
    have hk : s.calls[k]? = some c := hk
    have hl := settled_leads c e o s
    dsimp only [RemoteInput.step]
    simp only [hk, hphase]
    refine hs.settled hk hphase (counted_leads hl) ?_
    rcases hs.calls c (mem_of_getElem? hk) with ⟨e', rest, hw⟩ | ⟨⟨r, hr⟩, -⟩
    · rw [hw.phase] at hphase
      obtain rfl : e' = e := CallPhase.sending.inj hphase
      exact hw.leads hl
    · rw [hr] at hphase
      simp at hphase
  | close =>
    have h : Learns s { s with closed := true } := ⟨rfl, rfl, fun _ => rfl, rfl, rfl⟩
    exact hs.learns h

end

theorem reachable (h : (remoteMachine T).Reachable s) : InFlightRight s := by
  induction h with
  | init h =>
    obtain ⟨hcalls, htotal, heach, hendpoints⟩ := h
    refine ⟨?_, ?_, fun e => ?_, hendpoints, ?_⟩ <;> simp [hcalls, htotal, heach]
  | step _ i hi ih => exact ih.step hi

end InFlightRight

/-! ## What ended stays ended -/

theorem calls_resolveSource (i : Nat) (keys : List String) (s : RemoteVision T) :
    (s.resolveSource i keys).calls = s.calls := by
  have hadd : ∀ (ids : List Nat), (s.addSource keys ids).2.calls = s.calls := by
    unfold RemoteVision.addSource
    induction keys generalizing s with
    | nil => exact fun _ => rfl
    | cons key keys ih =>
      intro ids
      rw [foldl_cons]
      dsimp only
      split
      · exact ih s ids
      · exact ih _ _
  unfold RemoteVision.resolveSource
  split
  · rfl
  · exact hadd _

theorem calls_step {i : RemoteInput T} (hi : i.enabled s) :
    (∃ cs, (i.step s).calls = s.calls ++ cs) ∨
      ∃ k c c', s.calls[k]? = some c ∧ c.waits = true ∧ (i.step s).calls = s.calls.set k c' := by
  have hsame : ∀ {s' : RemoteVision T}, Learns s s' → ∃ cs, s'.calls = s.calls ++ cs := fun h =>
    ⟨[], by rw [h.calls, append_nil]⟩
  cases i with
  | tick ms => exact .inl ⟨[], (append_nil _).symm⟩
  | resolve i keys =>
    refine .inl ⟨[], ?_⟩
    rw [append_nil]
    exact calls_resolveSource i keys s
  | poll e => exact .inl ⟨[], (append_nil _).symm⟩
  | polled e o => exact .inl (hsame (learns_polled e o s))
  | call priority => exact .inl ⟨_, congrArg (· ++ _) (counted_attempt (.start priority) s).calls⟩
  | settled k o =>
    obtain ⟨c, hk, hwaits⟩ := hi
    obtain ⟨e, hphase⟩ := VisionCall.phase_of_waits hwaits
    have hk : s.calls[k]? = some c := hk
    refine .inr ⟨k, c, (s.settled c e o).1, hk, hwaits, ?_⟩
    have hcalls : (s.settled c e o).2.calls = s.calls := (counted_leads (settled_leads c e o s)).calls
    dsimp only [RemoteInput.step]
    simp only [hk, hphase, hcalls]
  | close => exact .inl ⟨[], (append_nil _).symm⟩

theorem calls_stay {k : Nat} {c : VisionCall T} (hk : s.calls[k]? = some c) (hw : c.waits = false)
    (h : (remoteMachine T).Steps s s') : s'.calls[k]? = some c := by
  induction h with
  | refl => exact hk
  | @tail t _ i hi ih =>
    rcases calls_step hi with ⟨cs, h⟩ | ⟨k', c₁, c', hk', hw', h⟩
    · show (i.step t).calls[k]? = some c
      rw [h, List.getElem?_append_left (List.getElem?_eq_some_iff.1 ih).1]
      exact ih
    · show (i.step t).calls[k]? = some c
      rw [h, List.getElem?_set_ne, ih]
      rintro rfl
      obtain rfl : c₁ = c := Option.some.inj (hk'.symm.trans ih)
      rw [hw] at hw'
      simp at hw'

theorem settled_progress {k : Nat} {c : VisionCall T} (hk : s.calls[k]? = some c)
    (hw : c.waits = true) (o : SendOutcome T) :
    ∃ c', ((RemoteInput.settled k o).step s).calls[k]? = some c' ∧
      (c'.waits = false ∨ c'.sends.length = c.sends.length + 1) := by
  obtain ⟨e, hphase⟩ := VisionCall.phase_of_waits hw
  have hl := settled_leads c e o s
  have hlt : k < s.calls.length := (List.getElem?_eq_some_iff.1 hk).1
  have hcalls : (s.settled c e o).2.calls = s.calls := (counted_leads hl).calls
  refine ⟨(s.settled c e o).1, ?_, ?_⟩
  · dsimp only [RemoteInput.step]
    simp only [hk, hphase, hcalls]
    exact List.getElem?_set_self hlt
  · have hattempt : ∀ (c₁ : VisionCall T) (s₁ : RemoteVision T), c₁.sends.length = c.sends.length →
        (s₁.attempt c₁).1.waits = false ∨ (s₁.attempt c₁).1.sends.length = c.sends.length + 1 := by
      intro c₁ s₁ hlen
      rcases attempt_spec c₁ s₁ with ⟨err, heq, -⟩ | ⟨e, -, -, -, heq, -⟩ <;> rw [heq]
      · exact .inl rfl
      · exact .inr (congrArg (· + 1) hlen)
    have hlen : (settle c o).sends.length = c.sends.length := length_modifyHead
    generalize s.settled c e o = p at hl
    cases hl with
    | ended _ r _ => exact .inl rfl
    | next | again _ => exact hattempt _ _ hlen

/-- **Remote requests are sent once and leave nothing behind.**  Whatever endpoints there are and in
whatever states, however calls and polls run concurrently and however requests end: every call sends
its requests as `SentOnce` says; it ends when at most `MAX_ATTEMPTS` requests have ended, and stays
as it ended; and the counters count the calls that wait. -/
theorem remote_requests_once (h : (remoteMachine T).Reachable s) :
    (∀ c ∈ s.calls, c.SentOnce) ∧
      (∀ (k : Nat) (c : VisionCall T) (o : SendOutcome T), s.calls[k]? = some c → c.waits = true →
        ∃ c', ((RemoteInput.settled k o).step s).calls[k]? = some c' ∧
          (c'.waits = false ∨ c'.sends.length = c.sends.length + 1)) ∧
      (∀ (k : Nat) (c : VisionCall T), s.calls[k]? = some c → c.waits = false →
        ∀ s', (remoteMachine T).Steps s s' → s'.calls[k]? = some c) ∧
      s.inFlight = (s.calls.countP VisionCall.waits : Nat) ∧
      (∀ e, (s.endpoint e).inFlight = (s.calls.countP (VisionCall.waitsFor e) : Nat)) ∧
      ((∀ c ∈ s.calls, c.waits = false) → s.inFlight = 0 ∧ ∀ e, (s.endpoint e).inFlight = 0) := by
  have hs := InFlightRight.reachable h
  refine ⟨fun c hc => (hs.calls c hc).sentOnce, fun k c o hk hw => settled_progress hk hw o,
    fun k c hk hw s' hsteps => calls_stay hk hw hsteps, hs.total, hs.each, fun hended => ⟨?_, fun e => ?_⟩⟩
  · rw [hs.total, countP_eq_zero.2 fun c hc => by simp [hended c hc]]
    rfl
  · rw [hs.each, countP_eq_zero.2 fun c hc hw => ?_]
    · rfl
    · have hno := hended c hc
      unfold VisionCall.waits at hno
      unfold VisionCall.waitsFor at hw
      split at hw <;> simp_all

end

/-- Two idle workers. -/
def twoWorkers : RemoteVision Nat where
  now := 0
  closed := false
  failureThreshold := 3
  sources := [[0, 1]]
  endpoint e := { key := if e = 0 then "a:80" else "b:80", state := .up, snap := some ⟨1, some 100, some 0, some 0⟩ }
  allocated := 2
  inFlight := 0
  rr := 0
  calls := []

theorem twoWorkers_init : (remoteMachine Nat).init twoWorkers := ⟨rfl, rfl, fun _ => rfl, by decide⟩

/-- The queue of the first worker is full, and the second one answers. -/
def busyThenAnswered : List (RemoteInput Nat) :=
  [.call .interactive,
    .settled 0 (.response ⟨503, some 4, .error "no analysis",
      some ⟨"vision_busy", "full", none, none, none⟩⟩),
    .settled 0 (.response ⟨200, none, .ok ⟨7, ⟨1, some 100, some 0, some 0⟩, none⟩, none⟩)]

theorem busyThenAnswered_admits : (remoteMachine Nat).Admits twoWorkers busyThenAnswered := by
  decide +kernel

theorem remote_requests_once_busy :
    ((remoteMachine Nat).run twoWorkers busyThenAnswered).calls.map (fun c => c.sends.map fun q => q.endpoint) =
        [[1, 0]] ∧
      ((remoteMachine Nat).run twoWorkers busyThenAnswered).inFlight = 0 ∧
      ∀ e, (((remoteMachine Nat).run twoWorkers busyThenAnswered).endpoint e).inFlight = 0 :=
  ⟨by decide +kernel, (remote_requests_once (.run (.init twoWorkers_init) busyThenAnswered_admits)).2.2.2.2.2
    (by decide +kernel)⟩

end SmartProctoring
