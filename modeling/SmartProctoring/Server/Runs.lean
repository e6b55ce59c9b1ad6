import SmartProctoring.Server.Refinement.Requests

/-!
# Runs of a session

An invariant of the moves holds of every reachable session, as long as each request keeps the
promises of the gate (`keeping_invariant`).  The promises are stated about the session as the
request locks it; `keeping P` has the runs whose every request keeps the promise `P`.
-/

set_option autoImplicit false

namespace SmartProctoring

/-- Sessions whose every request keeps a promise. -/
def keeping (P : SessionMutation → Op → Prop) : Machine SessionMutation Request :=
  sessionMachine.restrict fun r m => P (m.lock r) r.op

instance (r : Request) (m : SessionMutation) : Decidable (sessionMachine.enabled r m) :=
  inferInstanceAs (Decidable (m.now ≤ r.now))

instance (P : SessionMutation → Op → Prop) [∀ m op, Decidable (P m op)] (r : Request)
    (m : SessionMutation) : Decidable ((keeping P).enabled r m) :=
  inferInstanceAs (Decidable (m.now ≤ r.now ∧ P (m.lock r) r.op))

/-- An exam in progress, taken further. -/
theorem keeping_started {P : SessionMutation → Op → Prop} {rules : ProctoringPolicy}
    {rs : List Request} (h : (keeping P).Admits (createExamSession 0 rules ⟨60, by decide⟩ [] none)
      (startUp ⟨1⟩ rules ++ rs)) :
    (keeping P).Reachable (runRequests (startedExam rules) rs) := by
  have hinit : (keeping P).init (createExamSession 0 rules ⟨60, by decide⟩ [] none) :=
    ⟨0, rules, ⟨60, by decide⟩, [], none, rfl⟩
  have hrun := (Machine.Reachable.init hinit).run h
  rwa [Machine.run, List.foldl_append] at hrun

theorem reachable_started {rules : ProctoringPolicy} {rs : List Request}
    (h : (keeping fun _ _ => True).Admits (createExamSession 0 rules ⟨60, by decide⟩ [] none)
      (startUp ⟨1⟩ rules ++ rs)) :
    sessionMachine.Reachable (runRequests (startedExam rules) rs) :=
  (keeping_started h).of_restrict

namespace Gate

/-- No promises. -/
def free : Gate where
  starts := True
  expires := True
  gap := False
  duration := False
  answers := False
  reports _ := False

theorem keeps_free (m : SessionMutation) (op : Op) : Keeps free m op :=
  ⟨fun _ => trivial, fun _ => trivial, False.elim, False.elim, False.elim, fun _ => False.elim⟩

end Gate

/-- A session as it is assigned. -/
def Lifecycle.assigned (now durationMs extraMs : Int) : Lifecycle where
  now
  status := .invited
  clock := { durationMs, usedMs := 0, runningSince := none }
  extraMs
  startedAt := none
  endedAt := none
  endReason := none
  lastHeartbeatAt := none
  checkStarts := []
  periods := []
  clockLog := []
  answers := []
  score := none
  reports := []

variable {m : SessionMutation}

theorem lifecycle_init (h : sessionMachine.init m) :
    ∃ now durationMs extraMs, 0 ≤ extraMs ∧ extraMs ≤ durationMs ∧
      m.lifecycle = .assigned now durationMs extraMs := by
  obtain ⟨now, rules, durationSec, records, window, rfl⟩ := h
  have hbase := durationSec.secMs_bounds
  have hextra := extraTimeOf_sessionSnapshot_nonneg (applicableAccommodations records now)
    (show 0 ≤ durationSec.secMs by omega) now
  exact ⟨now, _, _, hextra, Int.le_add_of_nonneg_left (by omega), rfl⟩

theorem Lifecycle.timely_assigned (now durationMs extraMs : Int) :
    (assigned now durationMs extraMs).Timely :=
  ⟨nofun, nofun, nofun, nofun, nofun⟩

/-- **The invariant rule for sessions.** -/
theorem keeping_invariant {P : SessionMutation → Op → Prop} {G : Gate} {I : Lifecycle → Prop}
    (hP : ∀ m op, P m op → Keeps G m op)
    (hinit : ∀ now durationMs extraMs, 0 ≤ extraMs → extraMs ≤ durationMs →
      I (.assigned now durationMs extraMs))
    (hmove : ∀ l l', l.Timely → I l → Move G l l' → I l') (h : (keeping P).Reachable m) :
    m.lifecycle.Timely ∧ I m.lifecycle := by
  refine h.invariant (I := fun m => m.lifecycle.Timely ∧ I m.lifecycle) (fun m hm => ?_)
    fun m r _ hr hinv => ?_
  · obtain ⟨now, durationMs, extraMs, hx, hd, hl⟩ := lifecycle_init hm
    rw [hl]
    exact ⟨Lifecycle.timely_assigned now durationMs extraMs, hinit now durationMs extraMs hx hd⟩
  · have hmoves := moves_sessionStep hr.1 (hP _ _ hr.2)
    refine hmoves.invariant (I := fun l => l.Timely ∧ I l) (fun hl hm => ?_) hinv
    exact ⟨hm.timely hl.1, hmove _ _ hl.1 hl.2 hm⟩

end SmartProctoring
