import Mathlib.Data.List.Nodup
import Mathlib.Order.Nat
import SmartProctoring.Lib.Slots
import SmartProctoring.Web.CameraManager
import SmartProctoring.Web.ScreenCapture

/-!
# No capture outlives its stop

The camera: only the track that the manager holds can be live, and it belongs to the published
stream or to an acquisition that is not superseded.  The screen: a live stream is published or about
to be; a request that is in flight at a stop is not told of it.
-/

set_option autoImplicit false

namespace SmartProctoring

open List Option

/-! ## The camera -/

namespace CameraManager

variable {c d : CameraManager}

structure CameraInv (c : CameraManager) : Prop where
  held : ∀ x ∈ c.live, c.track = some x
  /-- The stream that is held is published, or will be. -/
  owned : ∀ x ∈ c.live, c.stream = some x ∨ ∃ a ∈ c.acquisitions, a.phase.stream = some x
  seqs : (c.acquisitions.map (·.seq)).Nodup
  seq_le : ∀ a ∈ c.acquisitions, a.seq ≤ c.startSeq
  /-- The newest acquisition holds the track, unless it was released. -/
  newest : ∀ a ∈ c.acquisitions, a.seq = c.startSeq → ∀ x ∈ a.phase.stream, ∀ y ∈ c.track, y = x
  stopped : c.wanted = false → c.live = []

theorem cameraInv_fresh (supported : Bool) (preferredId : Option String) :
    (fresh supported preferredId).CameraInv := by
  constructor <;> simp [fresh]

section

variable (h : c.CameraInv)
include h

theorem CameraInv.congr (hlive : d.live = c.live) (htrack : d.track = c.track)
    (hstream : d.stream = c.stream) (hacq : d.acquisitions = c.acquisitions)
    (hseq : d.startSeq = c.startSeq) (hwanted : d.wanted = c.wanted) : d.CameraInv := by
  obtain ⟨held, owned, seqs, seq_le, newest, stopped⟩ := h
  constructor
  · rwa [hlive, htrack]
  · rwa [hlive, hstream, hacq]
  · rwa [hacq]
  · rwa [hacq, hseq]
  · rwa [hacq, hseq, htrack]
  · rwa [hwanted, hlive]

theorem CameraInv.scheduleRetry : c.scheduleRetry.CameraInv := by
  rw [CameraManager.scheduleRetry]
  split
  · exact h
  · exact h.congr rfl rfl rfl rfl rfl rfl

theorem live_releaseTracks : c.releaseTracks.live = [] := by
  refine filter_eq_nil_iff.2 fun x hx => ?_
  simp [h.held x hx]

theorem CameraInv.releaseTracks : c.releaseTracks.CameraInv := by
  have hlive := live_releaseTracks h
  refine ⟨?_, ?_, h.seqs, h.seq_le, ?_, fun _ => hlive⟩
  · simp [hlive]
  · simp [hlive]
  · simp [CameraManager.releaseTracks]

theorem CameraInv.filterLive (p : Nat → Bool) : { c with live := c.live.filter p }.CameraInv where
  __ := h
  held x hx := h.held x (mem_filter.1 hx).1
  owned x hx := h.owned x (mem_filter.1 hx).1
  stopped hw := by
    rw [h.stopped hw, filter_nil]

theorem CameraInv.acquire (deviceId : Option String) (hd : Bool) :
    (c.acquire deviceId hd).CameraInv := by
  have hnew : c.startSeq + 1 ∉ c.acquisitions.map (·.seq) := by
    intro hmem
    obtain ⟨a, ha, hseq⟩ := mem_map.1 hmem
    have := h.seq_le a ha
    omega
  rw [CameraManager.acquire]
  split
  · refine ⟨h.held, fun x hx => ?_, ?_, fun a ha => ?_, fun a ha hseq x hx => ?_, h.stopped⟩
    · refine (h.owned x hx).imp id ?_
      rintro ⟨a, ha, hax⟩
      exact ⟨a, mem_append_left _ ha, hax⟩
    · rw [map_append]
      exact nodup_append.2 ⟨h.seqs, nodup_singleton _, by simpa using hnew⟩
    · rcases mem_append.1 ha with ha | ha
      · exact (h.seq_le a ha).trans (Nat.le_succ _)
      · rw [mem_singleton.1 ha]
    · rcases mem_append.1 ha with ha | ha
      · have := h.seq_le a ha
        simp only at hseq
        omega
      · rw [mem_singleton.1 ha] at hx
        simp [AcquirePhase.stream] at hx
  · refine { h with
        seq_le := fun a ha => (h.seq_le a ha).trans (Nat.le_succ _)
        newest := fun a ha hseq => ?_ }
    have := h.seq_le a ha
    simp only at hseq
    omega

end

section Call

variable {k : Nat} {a b : Acquisition}

section

variable (h : c.CameraInv) (hk : c.acquisitions[k]? = some a)
include h hk

theorem CameraInv.forget (hown : ∀ x ∈ c.live, a.phase.stream = some x → c.stream = some x) :
    { c with acquisitions := c.acquisitions.eraseIdx k }.CameraInv where
  __ := h
  owned x hx := by
    rcases h.owned x hx with hx' | ⟨b, hb, hbx⟩
    · exact .inl hx'
    · rcases mem_cons.1 ((perm_eraseIdx_of_getElem? hk).subset hb) with rfl | hb
      · exact .inl (hown x hx hbx)
      · exact .inr ⟨b, hb, hbx⟩
  seqs := h.seqs.sublist ((eraseIdx_sublist _ _).map _)
  seq_le b hb := h.seq_le b (mem_of_mem_eraseIdx hb)
  newest b hb := h.newest b (mem_of_mem_eraseIdx hb)

theorem CameraInv.goOn (hseq : b.seq = a.seq) (hstream : b.phase.stream = a.phase.stream) :
    { c with acquisitions := c.acquisitions.set k b }.CameraInv := by
  have hmem : ∀ e ∈ c.acquisitions.set k b, ∃ e' ∈ c.acquisitions, e.seq = e'.seq ∧
      e.phase.stream = e'.phase.stream := by
    intro e he
    rcases mem_set_cases hk he with rfl | he
    · exact ⟨a, mem_of_getElem? hk, hseq, hstream⟩
    · exact ⟨e, mem_of_mem_eraseIdx he, rfl, rfl⟩
  refine ⟨h.held, fun x hx => ?_, ?_, fun e he => ?_, fun e he hseq' x hx => ?_, h.stopped⟩
  · refine (h.owned x hx).imp id ?_
    rintro ⟨e, he, hex⟩
    rcases mem_cons.1 ((perm_eraseIdx_of_getElem? hk).subset he) with rfl | he
    · exact ⟨b, (set_perm_eraseIdx hk b).symm.subset mem_cons_self, hstream.trans hex⟩
    · exact ⟨e, (set_perm_eraseIdx hk b).symm.subset (mem_cons_of_mem _ he), hex⟩
  · rw [map_set_of_eq hk hseq]
    exact h.seqs
  · obtain ⟨e', he', hs, -⟩ := hmem e he
    rw [hs]
    exact h.seq_le e' he'
  · obtain ⟨e', he', hs, hp⟩ := hmem e he
    exact h.newest e' he' (hs ▸ hseq') x (hp ▸ hx)

theorem CameraInv.obtain (hnewest : a.seq = c.startSeq)
    (hseq : b.seq = a.seq) {x : Nat} (hb : b.phase.stream = some x) (hwanted : c.wanted = true) :
    { c.releaseTracks with
      acquisitions := c.acquisitions.set k b
      nextStream := c.nextStream + 1
      track := some x
      live := c.releaseTracks.live ++ [x] }.CameraInv := by
  have hlive := live_releaseTracks h
  have hbmem : b ∈ c.acquisitions.set k b := (set_perm_eraseIdx hk b).symm.subset mem_cons_self
  refine ⟨?_, ?_, ?_, ?_, ?_, ?_⟩
  · simp [hlive]
  · intro y hy
    rw [hlive, nil_append, mem_singleton] at hy
    exact .inr ⟨b, hbmem, hy ▸ hb⟩
  · rw [map_set_of_eq hk hseq]
    exact h.seqs
  · intro e he
    rcases mem_set_cases hk he with rfl | he
    · exact (hseq.trans hnewest).le
    · exact h.seq_le e (mem_of_mem_eraseIdx he)
  · intro e he hseq' y hy z hz
    rcases mem_set_cases hk he with rfl | he
    · rw [mem_def, hb, some.injEq] at hy
      exact (some.inj hz).symm.trans hy
    · -- there is one newest call
      have hperm := (perm_eraseIdx_of_getElem? hk).map (·.seq)
      have hnodup := hperm.nodup_iff.1 h.seqs
      exact absurd (mem_map.2 ⟨e, he, hseq'.trans hnewest.symm⟩) (nodup_cons.1 hnodup).1
  · intro hw
    exact absurd (hw.symm.trans hwanted) (by simp)

end

end Call

theorem CameraInv.mediaFails (h : c.CameraInv) (k : Nat) (err : MediaError) :
    (c.mediaFails k err).CameraInv := by
  rw [CameraManager.mediaFails]
  split
  next seq deviceId hd hk =>
    have hforget := h.forget hk (fun x _ hx => by simp [AcquirePhase.stream] at hx)
    dsimp only
    split
    · exact hforget
    · split
      · exact hforget.acquire _ _
      · split
        · exact hforget.acquire _ _
        · refine CameraInv.scheduleRetry ?_
          exact hforget.congr rfl rfl rfl rfl rfl rfl
  next => exact h

theorem CameraInv.mediaGiven (h : c.CameraInv) (k : Nat) (hasVideo : Bool) : (c.mediaGiven k hasVideo).CameraInv := by
  rw [CameraManager.mediaGiven]
  split
  next seq deviceId hd hk =>
    have hforget := h.forget hk (fun x _ hx => by simp [AcquirePhase.stream] at hx)
    have hothers : { c with acquisitions := c.acquisitions.eraseIdx k, nextStream := c.nextStream + 1 }.CameraInv :=
      hforget.congr rfl rfl rfl rfl rfl rfl
    split
    · exact hothers
    next hnewest =>
      simp only [not_or, not_not, Bool.not_eq_false] at hnewest
      split
      · refine CameraInv.scheduleRetry ?_
        exact hothers.releaseTracks.congr rfl rfl rfl rfl rfl rfl
      · exact h.obtain (b := ⟨seq, deviceId, hd, .play c.nextStream⟩) hk hnewest.1 rfl rfl hnewest.2.1
  next => exact h

theorem CameraInv.proceed (h : c.CameraInv) (k : Nat) (id : Option String) (muted : Bool) :
    (c.proceed k id muted).CameraInv := by
  rw [CameraManager.proceed]
  split
  next hk => exact h.goOn hk rfl rfl
  next seq deviceId hd x hk =>
    have hgoOn := h.goOn (b := ⟨seq, id.or deviceId, hd, .hash x⟩) hk rfl rfl
    exact hgoOn.congr rfl rfl rfl rfl rfl rfl
  next seq deviceId hd x hk =>
    dsimp only
    split
    next =>
      have hstopped := h.filterLive fun y => decide (y ≠ x)
      refine hstopped.forget hk fun y hy hx => ?_
      have hyx : y ≠ x := by simpa using (mem_filter.1 hy).2
      exact absurd (some.inj hx).symm hyx
    next hseq =>
      -- what is live is the stream of the newest call
      have hx : ∀ y ∈ c.live, y = x := fun y hy =>
        h.newest _ (mem_of_getElem? hk) (not_not.1 hseq) x rfl y (h.held y hy)
      exact ⟨h.held, fun y hy => .inl (by rw [hx y hy]),
        h.seqs.sublist ((eraseIdx_sublist _ _).map _),
        fun e he => h.seq_le e (mem_of_mem_eraseIdx he),
        fun e he => h.newest e (mem_of_mem_eraseIdx he), h.stopped⟩
  next => exact h

theorem CameraInv.stop (h : c.CameraInv) : c.stop.CameraInv := by
  have hlive : c.stop.live = [] :=
    live_releaseTracks (h.congr (d := c.clearRetry) rfl rfl rfl rfl rfl rfl)
  refine ⟨?_, ?_, h.seqs, fun a ha => (h.seq_le a ha).trans (Nat.le_succ _), fun a ha hseq => ?_,
    fun _ => hlive⟩
  · simp [hlive]
  · simp [hlive]
  · have := h.seq_le a ha
    simp only [CameraManager.stop] at hseq
    omega

theorem CameraInv.act (h : c.CameraInv) (e : Event) : (c.act e).CameraInv := by
  cases e with
  | start deviceId =>
    rw [CameraManager.act, CameraManager.start]
    split
    · exact h
    · refine CameraInv.acquire ?_ _ _
      exact { h with stopped := fun hw => by simp at hw }
  | mediaFails k err => exact h.mediaFails k err
  | mediaGiven k hasVideo => exact h.mediaGiven k hasVideo
  | proceed k id muted => exact h.proceed k id muted
  | stop => exact h.stop
  | dispose => exact h.stop.congr rfl rfl rfl rfl rfl rfl
  | ended =>
    have hended := h.filterLive fun x => decide (c.track ≠ some x)
    rw [CameraManager.act, CameraManager.onEnded]
    split
    · refine CameraInv.scheduleRetry ?_
      exact hended.congr rfl rfl rfl rfl rfl rfl
    · exact hended
  | mute =>
    rw [CameraManager.act, CameraManager.onMute]
    split
    · exact h.congr rfl rfl rfl rfl rfl rfl
    · exact h
  | unmute =>
    rw [CameraManager.act, CameraManager.onUnmute]
    split
    · exact h.congr rfl rfl rfl rfl rfl rfl
    · exact h
  | deviceChange =>
    rw [CameraManager.act, CameraManager.onDeviceChange]
    split
    · exact h
    · split
      · exact (h.congr (d := c.clearRetry) rfl rfl rfl rfl rfl rfl).acquire _ _
      · exact h.congr rfl rfl rfl rfl rfl rfl
  | camerasListed cameras =>
    rw [CameraManager.act, CameraManager.camerasListed]
    split
    · exact h
    · dsimp only
      split
      · refine CameraInv.scheduleRetry ?_
        exact h.congr rfl rfl rfl rfl rfl rfl
      · exact h.congr rfl rfl rfl rfl rfl rfl
  | permission granted =>
    rw [CameraManager.act, CameraManager.onPermission]
    split
    · exact h
    · split
      · have hlive := live_releaseTracks h
        refine CameraInv.scheduleRetry ⟨?_, ?_, h.seqs, h.seq_le, ?_, fun _ => hlive⟩
        · simp [hlive]
        · simp [hlive]
        · simp [CameraManager.releaseTracks]
      · split
        · exact (h.congr (d := c.clearRetry) rfl rfl rfl rfl rfl rfl).acquire _ _
        · exact h
  | retryFires =>
    have hclear : c.clearRetry.CameraInv := h.congr rfl rfl rfl rfl rfl rfl
    rw [CameraManager.act, CameraManager.retryFires]
    split
    · dsimp only
      split
      · exact hclear.acquire _ _
      · exact hclear
    · exact h

theorem Reachable.cameraInv (h : machine.Reachable c) : c.CameraInv := by
  refine h.invariant ?_ fun c e _ _ hinv => hinv.act e
  rintro _ ⟨supported, preferredId, rfl⟩
  exact cameraInv_fresh supported preferredId

/-- Every stream is stopped, or published, or about to be; one at most is live; after a stop with no
later start none is. -/
structure CapturesKept (c : CameraManager) : Prop where
  owned : ∀ x ∈ c.live, c.stream = some x ∨ ∃ a ∈ c.acquisitions, a.phase.stream = some x
  one : ∀ x ∈ c.live, ∀ y ∈ c.live, x = y
  stopped : c.wanted = false → c.live = []

theorem CameraInv.capturesKept (h : c.CameraInv) : c.CapturesKept where
  owned := h.owned
  one x hx y hy := some.inj ((h.held x hx).symm.trans (h.held y hy))
  stopped := h.stopped

end CameraManager

/-! ## The screen -/

namespace ScreenCapture

variable {s t : ScreenCapture} {k : Nat} {x : Nat}

/-- The stream of a request that waits for `applyConstraints`. -/
def Constrains (rs : List SharePhase) (x : Nat) : Prop :=
  ∃ surface, SharePhase.constraining x surface ∈ rs

structure ScreenInv (s : ScreenCapture) : Prop where
  held : ∀ x ∈ s.live, s.track = some x ∨ Constrains s.requests x
  published : ∀ x ∈ s.track, s.stream = some x

variable {p : SharePhase}

theorem constrains_eraseIdx {rs : List SharePhase} (hk : rs[k]? = some p)
    (hp : ∀ surface, p ≠ .constraining x surface) (h : Constrains rs x) :
    Constrains (rs.eraseIdx k) x := by
  obtain ⟨surface, hmem⟩ := h
  rcases mem_cons.1 ((perm_eraseIdx_of_getElem? hk).subset hmem) with rfl | hmem
  · exact absurd rfl (hp surface)
  · exact ⟨surface, hmem⟩

theorem constrains_set {rs : List SharePhase} {p q : SharePhase} (hk : rs[k]? = some p)
    (hp : ∀ surface, p ≠ .constraining x surface) (h : Constrains rs x) :
    Constrains (rs.set k q) x := by
  obtain ⟨surface, hmem⟩ := constrains_eraseIdx hk hp h
  exact ⟨surface, (set_perm_eraseIdx hk q).symm.subset (mem_cons_of_mem _ hmem)⟩

theorem mem_release_live :
    x ∈ s.release.live ↔ x ∈ s.live ∧ s.track ≠ some x ∧ s.stream ≠ some x := by
  simp [release]

theorem ScreenInv.constrains_of_release (h : s.ScreenInv) (hx : x ∈ s.release.live) :
    Constrains s.requests x := by
  obtain ⟨hlive, htrack, -⟩ := mem_release_live.1 hx
  exact (h.held x hlive).resolve_left htrack

theorem screenInv_publish {surface : SurfaceKind}
    (h : ∀ y ∈ s.live, s.track ≠ some y → y = x ∨ Constrains s.requests y) :
    (s.publish x surface).ScreenInv where
  held y hy := by
    obtain ⟨hlive, htrack, -⟩ := mem_release_live.1 hy
    exact (h y hlive htrack).imp (fun hyx => by rw [hyx]; rfl) id
  published := fun y hy => hy

/-- An answer that a request waited for. -/
theorem ScreenInv.shareGiven (h : s.ScreenInv) (hk : s.requests[k]? = some p)
    (hp : ∀ x surface, p ≠ .constraining x surface) (media : SharedMedia) :
    (s.shareGiven k media).ScreenInv := by
  rw [ScreenCapture.shareGiven]
  split
  · exact ⟨fun y hy => (h.held y hy).imp id (constrains_eraseIdx hk (hp y)), h.published⟩
  · split
    · refine ⟨fun y hy => ?_, h.published⟩
      rcases mem_snoc.1 hy with hy | rfl
      · exact (h.held y hy).imp id (constrains_set hk (hp y))
      · exact .inr ⟨media.surface, (set_perm_eraseIdx hk _).symm.subset mem_cons_self⟩
    · refine screenInv_publish fun y hy htrack => ?_
      rcases mem_append.1 hy with hy | hy
      · exact .inr (constrains_eraseIdx hk (hp y) ((h.held y hy).resolve_left htrack))
      · exact .inl (mem_singleton.1 hy)

theorem ScreenInv.constrained (h : s.ScreenInv) (k : Nat) : (s.constrained k).ScreenInv := by
  rw [ScreenCapture.constrained]
  split
  next x surface hk =>
    refine screenInv_publish fun y hy htrack => ?_
    obtain ⟨surface', hmem⟩ := (h.held y hy).resolve_left htrack
    rcases mem_cons.1 ((perm_eraseIdx_of_getElem? hk).subset hmem) with heq | hmem
    · cases heq
      exact .inl rfl
    · exact .inr ⟨surface', hmem⟩
  next => exact h

theorem ScreenInv.shareFails (h : s.ScreenInv) (k : Nat) (err : ShareError) :
    (s.shareFails k err).ScreenInv := by
  rw [ScreenCapture.shareFails]
  split
  next hk =>
    split
    · exact ⟨fun y hy => (h.held y hy).imp id (constrains_set hk (by simp)), h.published⟩
    · exact ⟨fun y hy => (h.held y hy).imp id (constrains_eraseIdx hk (by simp)), h.published⟩
  next hk => exact ⟨fun y hy => (h.held y hy).imp id (constrains_eraseIdx hk (by simp)),
    h.published⟩
  next => exact h

theorem ScreenInv.stop (h : s.ScreenInv) : s.stop.ScreenInv := by
  rw [ScreenCapture.stop]
  split
  · exact ⟨fun y hy => .inr (h.constrains_of_release hy), fun y hy => by simp [release] at hy⟩
  · exact ⟨fun y hy => .inr (h.constrains_of_release hy), fun y hy => by simp [release] at hy⟩

theorem ScreenInv.act (h : s.ScreenInv) (e : Event) : (s.act e).ScreenInv := by
  cases e with
  | request =>
    rw [ScreenCapture.act, request]
    split
    · refine ⟨fun y hy => (h.held y hy).imp id ?_, h.published⟩
      rintro ⟨surface, hmem⟩
      exact ⟨surface, mem_append_left _ hmem⟩
    · exact ⟨h.held, h.published⟩
  | shareFails k err => exact h.shareFails k err
  | shared k media =>
    rw [ScreenCapture.act, shared]
    split
    next hk => exact h.shareGiven hk (by simp) media
    next hk => exact h.shareGiven hk (by simp) media
    next => exact h
  | constrained k => exact h.constrained k
  | captureEnds x => exact ⟨fun y hy => h.held y (mem_filter.1 hy).1, h.published⟩
  | ended now =>
    rw [ScreenCapture.act, onEnded]
    split
    · exact ⟨fun y hy => .inr (h.constrains_of_release hy), fun y hy => by simp [release] at hy⟩
    · exact h
  | stop => exact h.stop

theorem Reachable.screenInv (h : machine.Reachable s) : s.ScreenInv := by
  refine h.invariant ?_ fun s e _ _ hinv => hinv.act e
  rintro _ ⟨supported, rfl⟩
  exact ⟨by simp [fresh], by simp [fresh]⟩

/-- Every stream is stopped, or published, or about to be; one at most is live when no request is in
flight. -/
structure SharesKept (s : ScreenCapture) : Prop where
  owned : ∀ x ∈ s.live, s.stream = some x ∨ Constrains s.requests x
  one : s.requests = [] → ∀ x ∈ s.live, ∀ y ∈ s.live, x = y

theorem ScreenInv.sharesKept (h : s.ScreenInv) : s.SharesKept where
  owned x hx := (h.held x hx).imp (h.published x) id
  one hnil := by
    have hheld : ∀ z ∈ s.live, s.track = some z := fun z hz =>
      (h.held z hz).resolve_right (by simp [Constrains, hnil])
    exact fun x hx y hy => some.inj ((hheld x hx).symm.trans (hheld y hy))

/-- The step publishes a shared screen. -/
def grants (s : ScreenCapture) : Event → Bool
  | .shared k media =>
    decide (s.requests[k]? = some .asking ∨ s.requests[k]? = some .askingBare) && media.hasVideo &&
      surfaceAccepted media.surface && !media.large
  | .constrained k => (s.requests[k]?).any fun p =>
    match p with
    | .constraining .. => true
    | _ => false
  | _ => false

/-- A shared screen is published only when a request was made since the last stop. -/
def GrantsWhenAsked (e : Event) (s : ScreenCapture) : Prop := s.grants e = true → s.asked = true
  deriving Decidable

/-- Since the last stop, live streams are those of requests that are in flight. -/
def Idle (s : ScreenCapture) : Prop := s.asked = false → ∀ x ∈ s.live, Constrains s.requests x

theorem Idle.shareFails (h : s.Idle) (k : Nat) (err : ShareError) : (s.shareFails k err).Idle := by
  rw [ScreenCapture.shareFails]
  split
  next hk =>
    split
    · exact fun hasked y hy => constrains_set hk (by simp) (h hasked y hy)
    · exact fun hasked y hy => constrains_eraseIdx hk (by simp) (h hasked y hy)
  next hk => exact fun hasked y hy => constrains_eraseIdx hk (by simp) (h hasked y hy)
  next => exact h

theorem Idle.shareGiven (h : s.Idle) (hk : s.requests[k]? = some p)
    (hp : ∀ x surface, p ≠ .constraining x surface) {media : SharedMedia}
    (hgrants : media.hasVideo = true → surfaceAccepted media.surface = true → media.large = false →
      s.asked = true) : (s.shareGiven k media).Idle := by
  rw [ScreenCapture.shareGiven]
  split
  · exact fun hasked y hy => constrains_eraseIdx hk (hp y) (h hasked y hy)
  next haccepted =>
    simp only [Bool.or_eq_true, Bool.not_eq_true', not_or, Bool.not_eq_false] at haccepted
    split
    · intro hasked y hy
      rcases mem_snoc.1 hy with hy | rfl
      · exact constrains_set hk (hp y) (h hasked y hy)
      · exact ⟨media.surface, (set_perm_eraseIdx hk _).symm.subset mem_cons_self⟩
    next hlarge =>
      have hasked := hgrants haccepted.1 haccepted.2 (by simpa using hlarge)
      intro hnot
      exact absurd (hasked.symm.trans hnot) (by simp)

theorem Idle.act (h : s.Idle) (hinv : s.ScreenInv) {e : Event} (hgrants : GrantsWhenAsked e s) :
    (s.act e).Idle := by
  cases e with
  | request =>
    rw [ScreenCapture.act, request]
    split
    · exact fun hasked => by simp at hasked
    · exact fun hasked => by simp at hasked
  | shareFails k err => exact h.shareFails k err
  | shared =>
    rw [ScreenCapture.act, shared]
    split
    next hk =>
      exact h.shareGiven hk (by simp) fun hv ha hl => hgrants (by simp [grants, hk, hv, ha, hl])
    next hk =>
      exact h.shareGiven hk (by simp) fun hv ha hl => hgrants (by simp [grants, hk, hv, ha, hl])
    next => exact h
  | constrained k =>
    rw [ScreenCapture.act, ScreenCapture.constrained]
    split
    next x surface hk =>
      have hasked : s.asked = true := hgrants (by simp [grants, hk])
      intro hnot
      exact absurd (hasked.symm.trans hnot) (by simp)
    next => exact h
  | captureEnds x => exact fun hasked y hy => h hasked y (mem_filter.1 hy).1
  | ended now =>
    rw [ScreenCapture.act, onEnded]
    split
    · exact fun _ y hy => hinv.constrains_of_release hy
    · exact h
  | stop =>
    rw [ScreenCapture.act, ScreenCapture.stop]
    split
    · exact fun _ y hy => hinv.constrains_of_release hy
    · exact fun _ y hy => hinv.constrains_of_release hy

theorem Reachable.idle (h : (machine.restrict GrantsWhenAsked).Reachable s) : s.Idle := by
  have hboth : s.ScreenInv ∧ s.Idle := by
    refine h.invariant (I := fun s => s.ScreenInv ∧ s.Idle) ?_ ?_
    · rintro _ ⟨supported, rfl⟩
      exact ⟨⟨by simp [fresh], by simp [fresh]⟩, by simp [Idle, fresh]⟩
    · exact fun s e _ hen hinv => ⟨hinv.1.act e, hinv.2.act hinv.1 hen.2⟩
  exact hboth.2

end ScreenCapture

/-- **Captures are stopped.**  A camera stream never outlives its stop.  A shared screen does not as
long as none is published between a stop and the next request. -/
theorem captures_stopped (c : CameraManager) (s : ScreenCapture) :
    (CameraManager.machine.Reachable c → c.CapturesKept) ∧
    (ScreenCapture.machine.Reachable s → s.SharesKept) ∧
    ((ScreenCapture.machine.restrict ScreenCapture.GrantsWhenAsked).Reachable s →
      s.asked = false → s.requests = [] → s.live = []) := by
  refine ⟨fun h => (CameraManager.Reachable.cameraInv h).capturesKept,
    fun h => (ScreenCapture.Reachable.screenInv h).sharesKept, fun h hasked hnil => ?_⟩
  refine eq_nil_iff_forall_not_mem.2 fun x hx => ?_
  obtain ⟨surface, hmem⟩ := ScreenCapture.Reachable.idle h hasked x hx
  rw [hnil] at hmem
  cases hmem

/-- The camera starts twice at once and is stopped; a screen is shared and the sharing stopped. -/
theorem paused_stopped :
    (CameraManager.machine.run (CameraManager.fresh true none) [.start none, .start none,
      .mediaGiven 1 true, .stop,
      .mediaGiven 0 true, .proceed 0 none false]).CapturesKept ∧
    (ScreenCapture.machine.run (ScreenCapture.fresh true)
      [.request, .shared 0 ⟨true, .monitor, false⟩, .stop]).live = [] := by
  have hcamera : CameraManager.machine.Reachable (CameraManager.fresh true none) :=
    .init ⟨true, none, rfl⟩
  have hscreen : (ScreenCapture.machine.restrict ScreenCapture.GrantsWhenAsked).Reachable
      (ScreenCapture.fresh true) := .init ⟨true, rfl⟩
  refine ⟨(captures_stopped _ (ScreenCapture.fresh true)).1
    (hcamera.run ⟨trivial, trivial, trivial, trivial,
    trivial, trivial, trivial⟩), ?_⟩
  exact (captures_stopped (CameraManager.fresh true none) _).2.2 (hscreen.run ⟨⟨trivial, by decide⟩,
    ⟨trivial, by decide⟩, ⟨trivial, by decide⟩, trivial⟩) (by decide) (by decide)

/-- The exam is paused while the candidate picks the screen to share. -/
theorem shared_after_stop : ¬ ∀ s, ScreenCapture.machine.Reachable s → s.asked = false →
    s.requests = [] → s.live = [] := by
  intro h
  have hreach : ScreenCapture.machine.Reachable (ScreenCapture.fresh true) := .init ⟨true, rfl⟩
  have hrun : ScreenCapture.machine.Reachable (ScreenCapture.machine.run (ScreenCapture.fresh true)
      [.request, .stop, .shared 0 ⟨true, .monitor, false⟩]) := hreach.run ⟨trivial, trivial, trivial, trivial⟩
  have hlive := h _ hrun (by decide) (by decide)
  revert hlive
  decide

end SmartProctoring
