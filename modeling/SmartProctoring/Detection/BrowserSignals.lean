import SmartProctoring.Detection.Browser
import SmartProctoring.Detection.EpisodeLog

/-!
# The signals are well formed

For any order of calls: an episode of the hidden tab and one of the unfocused window are never open
together, the updates of an episode carry consecutive versions and no end before the start, a loss
of focus is reported only when it has lasted for `windowBlurMinSec`, and after a flush nothing is
open.

How long the window has been without focus while the page was not hidden is what an observer of the
calls notes (`Absence`), independently of what the tracker keeps.
-/

set_option autoImplicit false

namespace SmartProctoring

open List Option

/-- The last update of the type left its episode open. -/
def openIn (log : List BrowserUpdate) (type : EventType) : Bool :=
  ((log.filter (·.type = type)).getLast?).any (·.phase ≠ .close)

theorem openIn_concat (log : List BrowserUpdate) (u : BrowserUpdate) (type : EventType) :
    openIn (log ++ [u]) type = if u.type = type then decide (u.phase ≠ .close)
    else openIn log type := by
  rw [openIn]
  split
  next h => simp [h]
  next h => simp [openIn, h]

/-- The log of the tracker's book: an episode's type is its key. -/
structure SignalLog (b : EpisodeBook EventType) (log : List BrowserUpdate) : Prop where
  sent : BookLog b log
  typed : ∀ key s, b.slots key = some s → s.type = key
  opened : ∀ type ≠ EventType.additionalDisplayDetected, openIn log type = b.isOpen type
  apart : ∀ l, l <+: log → ¬ (openIn l .tabHidden = true ∧ openIn l .windowUnfocused = true)

namespace SignalLog

variable {b b' : EpisodeBook EventType} {log : List BrowserUpdate} {key : EventType}
    {u : BrowserUpdate}

theorem apart_concat (h : SignalLog b log)
    (hapart : ¬ (openIn (log ++ [u]) .tabHidden = true ∧ openIn (log ++ [u]) .windowUnfocused = true)) :
    ∀ l, l <+: log ++ [u] → ¬ (openIn l .tabHidden = true ∧ openIn l .windowUnfocused = true) := by
  intro l hl
  rcases prefix_concat_iff.mp hl with rfl | hl
  · exact hapart
  · exact h.apart l hl

theorem emitted (h : SignalLog b log) (hinj : Function.Injective b.cfg.idFactory)
    (he : Emitted b key key u b')
    (hapart : ¬ (b'.isOpen .tabHidden = true ∧ b'.isOpen .windowUnfocused = true))
    (hkey : key ≠ .additionalDisplayDetected) : SignalLog b' (log ++ [u]) := by
  obtain ⟨s', hs', -, htype, -, hcase⟩ := he.slot
  have hself : s'.type = key := by
    rcases hcase with heq | ⟨s, hs, heq⟩
    · exact heq
    · exact heq.trans (h.typed key s hs)
  have hopened : ∀ type ≠ EventType.additionalDisplayDetected, openIn (log ++ [u]) type = b'.isOpen type := by
    intro type hne
    rw [openIn_concat, htype, hself]
    split
    next heq =>
      subst heq
      exact he.isOpen_self.symm
    next hk => rw [he.isOpen_other (Ne.symm hk), h.opened type hne]
  refine ⟨h.sent.emitted hinj he, fun k s hs => ?_, hopened, h.apart_concat ?_⟩
  · by_cases hk : k = key
    · subst hk
      obtain rfl := some_inj.mp (hs'.symm.trans hs)
      exact hself
    · exact h.typed k s ((he.slots_other hk).symm.trans hs)
  · rw [hopened _ (by decide), hopened _ (by decide)]
    exact hapart

theorem marker (h : SignalLog b log) (hinj : Function.Injective b.cfg.idFactory) (t : ℚ)
    (data : EpisodeData BrowserDetails) :
    SignalLog (b.marker .additionalDisplayDetected t data).1
      (log ++ [(b.marker .additionalDisplayDetected t data).2]) := by
  have hother : ∀ type ≠ EventType.additionalDisplayDetected,
      openIn (log ++ [(b.marker .additionalDisplayDetected t data).2]) type = openIn log type := by
    intro type hne
    rw [openIn_concat]
    exact if_neg (Ne.symm hne)
  refine ⟨h.sent.marker hinj _ t data, h.typed, fun type hne =>
    (hother type hne).trans (h.opened type hne),
    h.apart_concat ?_⟩
  rw [hother _ (by decide), hother _ (by decide)]
  exact h.apart log prefix_rfl

theorem isOpen_forgetClosed (b : EpisodeBook EventType) (type : EventType) :
    b.forgetClosed.isOpen type = b.isOpen type := by
  rw [EpisodeBook.isOpen, EpisodeBook.isOpen, EpisodeBook.forgetClosed]
  cases hs : b.slots type with
  | none => simp [hs]
  | some s => cases ho : s.isOpen <;> simp [hs, ho]

theorem forgetClosed (h : SignalLog b log) : SignalLog b.forgetClosed log :=
  ⟨h.sent.forgetClosed, fun key s hs => h.typed key s (filter_eq_some_iff.mp hs).1,
    fun type hne => (h.opened type hne).trans (isOpen_forgetClosed b type).symm, h.apart⟩

end SignalLog

theorem Emitted.cfg {κ δ : Type} [DecidableEq κ] {b b' : EpisodeBook κ} {key : κ} {type : EventType}
    {u : EpisodeUpdate δ} (h : Emitted b key type u b') : b'.cfg = b.cfg := by
  cases h <;> rfl

/-! ## What a call has sent so far -/

variable {c : BrowserSettings} {log : List BrowserUpdate} {P : Prop} {r r' : BrowserRun}

/-- In the middle of a call, after `log`: what was sent of the unfocused window is covered by
`P`. -/
structure Sends (c : BrowserSettings) (log : List BrowserUpdate) (P : Prop)
    (r : BrowserRun) : Prop where
  cfg : r.book.cfg = c.book
  signals : SignalLog r.book (log ++ r.out)
  long : ∀ u ∈ r.out, u.type = .windowUnfocused → P

namespace Sends

theorem same (h : Sends c log P r) (hbook : r'.book = r.book) (hout : r'.out = r.out) :
    Sends c log P r' :=
  ⟨hbook ▸ h.cfg, by rw [hbook, hout]; exact h.signals, by rw [hout]; exact h.long⟩

theorem emit {key : EventType} {u : BrowserUpdate} (h : Sends c log P r)
    (hinj : Function.Injective c.idFactory)
    (he : Emitted r.book key key u r'.book) (hout : r'.out = r.out ++ [u])
    (hapart : ¬ (r'.book.isOpen .tabHidden = true ∧ r'.book.isOpen .windowUnfocused = true))
    (hkey : key ≠ .additionalDisplayDetected) (hlong : key = .windowUnfocused → P) :
    Sends c log P r' := by
  have hinj' : Function.Injective r.book.cfg.idFactory := by
    rw [h.cfg]
    exact hinj
  have hs := h.signals.emitted hinj' he hapart hkey
  rw [append_assoc] at hs
  refine ⟨he.cfg.trans h.cfg, hout ▸ hs, fun v hv htype => ?_⟩
  rw [hout] at hv
  rcases mem_snoc.1 hv with hv | rfl
  · exact h.long v hv htype
  · obtain ⟨s', -, -, hvt, -, hcase⟩ := he.slot
    refine hlong ?_
    rcases hcase with heq | ⟨s, hsl, heq⟩
    · exact heq.symm.trans (hvt.symm.trans htype)
    · exact (h.signals.typed key s hsl).symm.trans (heq.symm.trans (hvt.symm.trans htype))

end Sends

/-! ## What the operations send -/

/-- The operation sends one update of the episode under `key`, or nothing. -/
inductive Sent (key : EventType) (r r' : BrowserRun) : Prop
  | nothing (hbook : r'.book = r.book) (hout : r'.out = r.out)
  | update {u : BrowserUpdate} (he : Emitted r.book key key u r'.book) (hout : r'.out = r.out ++ [u])

/-- The operation leaves what is known of the page, and forgets no statistics. -/
structure PageKept (r r' : BrowserRun) : Prop where
  hidden : r'.hidden = r.hidden
  focused : r'.focused = r.focused
  blurSince : r'.blurSince = r.blurSince
  lastT : r'.lastT = r.lastT
  stats : ∀ type, (r.stats type).isSome = true → (r'.stats type).isSome = true

theorem PageKept.rfl' (r : BrowserRun) : PageKept r r := ⟨rfl, rfl, rfl, rfl, fun _ h => h⟩

theorem Sent.isOpen_other {key type : EventType} (h : Sent key r r') (hne : type ≠ key) :
    r'.book.isOpen type = r.book.isOpen type := by
  cases h with
  | nothing hbook => rw [hbook]
  | update he => exact he.isOpen_other hne

theorem stats_update (type : EventType) (st : SpanStats) (other : EventType)
    (h : (r.stats other).isSome = true) :
    (Function.update r.stats type (some st) other).isSome = true := by
  by_cases heq : other = type
  · rw [heq, Function.update_self]
    rfl
  · rw [Function.update_of_ne heq]
    exact h

namespace BrowserRun

variable (c) (r) (type : EventType) (t : ℚ)

theorem openSpan_spec (startedAt : ℚ) :
    Sent type r (r.openSpan type startedAt t) ∧ PageKept r (r.openSpan type startedAt t) ∧
      (r.openSpan type startedAt t).book.isOpen type = true ∧
      ((r.openSpan type startedAt t).stats type).isSome = true := by
  have he := r.book.begin_emitted type type startedAt t
    (describe type (r.spanStats type startedAt) none t) (minutesKey (r.spanStats type startedAt) t)
  obtain ⟨-, -, -, -, hphase, -⟩ := r.book.begin_slot type type startedAt t
    (describe type (r.spanStats type startedAt) none t) (minutesKey (r.spanStats type startedAt) t)
  refine ⟨.update he rfl, ⟨rfl, rfl, rfl, rfl, stats_update _ _⟩, ?_, ?_⟩
  · exact he.isOpen_self.trans (decide_eq_true hphase)
  · exact congrArg isSome (Function.update_self (f := r.stats) ..)

theorem sent_toList {book : EpisodeBook EventType} {u : Option BrowserUpdate} {key : EventType}
    (h : (book, u) = (r.book, none) ∨ ∃ v, u = some v ∧ Emitted r.book key key v book)
    (hbook : r'.book = book) (hout : r'.out = r.out ++ u.toList) : Sent key r r' := by
  rcases h with h | ⟨v, rfl, he⟩
  · obtain ⟨rfl, rfl⟩ := Prod.mk.inj h
    exact .nothing hbook (hout.trans (append_nil _))
  · exact .update (hbook ▸ he) hout

theorem closeSpan_spec (endedAt : ℚ) :
    Sent type r (r.closeSpan type endedAt t) ∧ PageKept r (r.closeSpan type endedAt t) ∧
      ((r.stats type).isSome = true → (r.closeSpan type endedAt t).book.isOpen type = false) := by
  rw [closeSpan]
  cases hst : r.stats type with
  | none => exact ⟨.nothing rfl rfl, .rfl' r, fun h => by simp at h⟩
  | some st =>
    dsimp only
    split
    next hopen =>
      rcases r.book.end_emitted type type endedAt t
        (describe type { st with totalMs := st.totalMs + max 0 (endedAt - st.segStart) } (some endedAt) t) with
        ⟨hclosed, -⟩ | ⟨u, hu, hphase, he⟩
      · exact absurd (hclosed.symm.trans hopen) (by decide)
      · refine ⟨.update he ?_, ⟨rfl, rfl, rfl, rfl, stats_update _ _⟩, fun _ => ?_⟩
        · exact congrArg (fun u => r.out ++ toList u) hu
        · exact he.isOpen_self.trans (by simp [hphase])
    next hopen => exact ⟨.nothing rfl rfl, .rfl' r, fun _ => by simpa using hopen⟩

theorem closeClip_spec :
    Sent .clipboardAttempt r (r.closeClip c t) ∧ PageKept r (r.closeClip c t) ∧
      (r.closeClip c t).book.isOpen .clipboardAttempt = false := by
  have hk : PageKept r (r.closeClip c t) := ⟨rfl, rfl, rfl, rfl, fun _ h => h⟩
  rcases r.book.end_emitted .clipboardAttempt .clipboardAttempt r.clip.lastAt t (r.clipData c true) with
    ⟨hclosed, heq⟩ | ⟨u, hu, hphase, he⟩
  · refine ⟨sent_toList r (.inl heq) rfl rfl, hk, ?_⟩
    have hbook : (r.closeClip c t).book = r.book := congrArg Prod.fst heq
    rw [hbook]
    exact hclosed
  · exact ⟨sent_toList r (.inr ⟨u, hu, he⟩) rfl rfl, hk, he.isOpen_self.trans (by simp [hphase])⟩

theorem progress_spec :
    Sent type r (r.progress t type) ∧ PageKept r (r.progress t type) ∧
      (r.progress t type).book.isOpen type = r.book.isOpen type := by
  rw [progress]
  cases hst : r.stats type with
  | none => exact ⟨.nothing rfl rfl, .rfl' r, rfl⟩
  | some st =>
    dsimp only
    split
    next hopen =>
      have hk : ∀ book out, PageKept r { r with book := book, out := out } :=
        fun _ _ => ⟨rfl, rfl, rfl, rfl, fun _ h => h⟩
      rcases r.book.touch_emitted type type t (minutesKey st t) (describe type st none t) false with
        heq | ⟨u, hu, hphase, he⟩
      · exact ⟨sent_toList r (.inl heq) rfl rfl, hk _ _, by rw [congrArg Prod.fst heq]⟩
      · refine ⟨sent_toList r (.inr ⟨u, hu, he⟩) rfl rfl, hk _ _, ?_⟩
        exact (he.isOpen_self.trans (decide_eq_true hphase)).trans hopen.symm
    next => exact ⟨.nothing rfl rfl, .rfl' r, rfl⟩

theorem clipboard_spec (action : ClipAction) :
    Sent .clipboardAttempt r (r.clipboard c action t) ∧ PageKept r (r.clipboard c action t) := by
  rw [clipboard]
  split
  · refine ⟨?_, ⟨rfl, rfl, rfl, rfl, fun _ h => h⟩⟩
    rcases r.book.touch_emitted .clipboardAttempt .clipboardAttempt t
      (toString (r.clip.add action t).bounded.total)
      (clipData c { r with clip := (r.clip.add action t).bounded } false) false with
      heq | ⟨u, hu, -, he⟩
    · exact sent_toList r (.inl heq) rfl rfl
    · exact sent_toList r (.inr ⟨u, hu, he⟩) rfl rfl
  · exact ⟨.update (r.book.begin_emitted ..) rfl, ⟨rfl, rfl, rfl, rfl, fun _ h => h⟩⟩

end BrowserRun

/-! ## An observer of the calls -/

/-- Since when the window has been without focus while the page was not hidden, as the calls say. -/
structure Absence where
  hidden : Bool
  lost : Bool
  since : Option ℚ

namespace Absence

def new : Absence := ⟨false, false, none⟩

def note (hidden lost : Bool) (t : ℚ) (o : Absence) : Absence where
  hidden := hidden
  lost := lost
  since := if lost && !hidden then some (o.since.getD t) else none

/-- What is known after a call at time `t`. -/
def after (o : Absence) (t : ℚ) : BrowserCall → Absence
  | .visibility isHidden => o.note isHidden o.lost t
  | .focus isFocused => o.note o.hidden (!isFocused) t
  | .flush => new
  | _ => o

/-- The window has been without focus for `ms`, and the page was not hidden. -/
def Lasts (o : Absence) (ms t : ℚ) : Prop := ∃ a ∈ o.since, ms ≤ t - a

end Absence

/-- The tracker in the middle of a call at time `t`, beside what the calls before said. -/
structure Stage (c : BrowserSettings) (log : List BrowserUpdate) (P : Prop) (o : Absence) (t : ℚ)
    (r : BrowserRun) : Prop where
  sends : Sends c log P r
  lastT : r.lastT = some t
  hidden : o.hidden = decide (r.hidden = some true)
  lost : o.lost = decide (r.focused = some false)
  since : ∀ a ∈ o.since, a ≤ t
  tab : r.book.isOpen .tabHidden = true → r.hidden = some true
  window : r.book.isOpen .windowUnfocused = true →
    r.hidden ≠ some true ∧ r.focused = some false ∧ o.Lasts c.blurMinMs t
  blur : ∀ s ∈ r.blurSince, r.hidden ≠ some true ∧ r.focused = some false ∧ ∃ a ∈ o.since, a ≤ s
  stats : ∀ type, r.book.isOpen type = true → type ≠ .clipboardAttempt →
    (r.stats type).isSome = true
  keys : ∀ type, r.book.isOpen type = true →
    type ∈ [EventType.tabHidden, .windowUnfocused, .fullscreenExited, .clipboardAttempt]

namespace Stage

variable {o : Absence} {t : ℚ} {key : EventType}

/-- One operation of a call. -/
theorem sent (h : Stage c log P o t r) (hinj : Function.Injective c.idFactory)
    (hP : o.Lasts c.blurMinMs t → P) (hs : Sent key r r') (hk : PageKept r r')
    (hkey : key ∈ [EventType.tabHidden, .windowUnfocused, .fullscreenExited, .clipboardAttempt])
    (htab : key = .tabHidden → r'.book.isOpen .tabHidden = true → r.hidden = some true)
    (hwindow : key = .windowUnfocused → r.hidden ≠ some true ∧ r.focused = some false ∧ o.Lasts c.blurMinMs t)
    (hstats : key ≠ .clipboardAttempt → r'.book.isOpen key = true → (r'.stats key).isSome = true) :
    Stage c log P o t r' := by
  have htab' : r'.book.isOpen .tabHidden = true → r.hidden = some true := by
    intro ho
    by_cases hne : EventType.tabHidden = key
    · exact htab hne.symm ho
    · exact h.tab ((hs.isOpen_other hne).symm.trans ho)
  have hwindow' : r'.book.isOpen .windowUnfocused = true →
      r.hidden ≠ some true ∧ r.focused = some false ∧ o.Lasts c.blurMinMs t := by
    intro ho
    by_cases hne : EventType.windowUnfocused = key
    · exact hwindow hne.symm
    · exact h.window ((hs.isOpen_other hne).symm.trans ho)
  refine ⟨?_, hk.lastT.trans h.lastT, by rw [hk.hidden]; exact h.hidden, by rw [hk.focused]; exact h.lost, h.since,
    by rw [hk.hidden]; exact htab', by rw [hk.hidden, hk.focused]; exact hwindow', ?_,
    fun type ho hne => ?_, fun type ho => ?_⟩
  · cases hs with
    | nothing hbook hout => exact h.sends.same hbook hout
    | update he hout =>
      refine h.sends.emit hinj he hout (fun hb => (hwindow' hb.2).1 (htab' hb.1)) ?_ fun heq =>
        hP (hwindow heq).2.2
      rintro rfl
      simp at hkey
  · rw [hk.blurSince, hk.hidden, hk.focused]
    exact h.blur
  · by_cases heq : type = key
    · subst heq
      exact hstats hne ho
    · exact hk.stats type (h.stats type ((hs.isOpen_other heq).symm.trans ho) hne)
  · by_cases heq : type = key
    · exact heq ▸ hkey
    · exact h.keys type ((hs.isOpen_other heq).symm.trans ho)

section

variable (key) (h : Stage c log P o t r) (hinj : Function.Injective c.idFactory)
  (hP : o.Lasts c.blurMinMs t → P)
  (hkey : key ∈ [EventType.tabHidden, .windowUnfocused, .fullscreenExited])
include key h hinj hP hkey

theorem closeSpan (hopen : r.book.isOpen key = true) (endedAt : ℚ) :
    Stage c log P o t (r.closeSpan key endedAt t) ∧
    (r.closeSpan key endedAt t).book.isOpen key = false := by
  obtain ⟨hs, hk, hclosed⟩ := r.closeSpan_spec key t endedAt
  have hne : key ≠ .clipboardAttempt := by
    rintro rfl
    simp at hkey
  have hoff := hclosed (h.stats key hopen hne)
  refine ⟨h.sent hinj hP hs hk ?_ ?_ ?_ ?_, hoff⟩
  · simp only [mem_cons] at hkey ⊢
    exact hkey.imp_right (.imp_right (.imp_right .inr))
  · rintro rfl ho
    exact absurd (hoff.symm.trans ho) (by decide)
  · rintro rfl
    exact h.window hopen
  · exact fun _ ho => absurd (hoff.symm.trans ho) (by decide)

theorem closeOpen :
    Stage c log P o t (r.closeOpen key t) ∧ (r.closeOpen key t).book.isOpen key = false := by
  rw [BrowserRun.closeOpen]
  split
  next hopen => exact h.closeSpan key hinj hP hkey hopen t
  next hopen => exact ⟨h, by simpa using hopen⟩

end

section

variable (h : Stage c log P o t r) (hinj : Function.Injective c.idFactory)
  (hP : o.Lasts c.blurMinMs t → P)
include h hinj hP

theorem progress (hkey : key ∈ [EventType.tabHidden, .windowUnfocused, .fullscreenExited]) :
    Stage c log P o t (r.progress t key) := by
  obtain ⟨hs, hk, hsame⟩ := r.progress_spec key t
  cases hopen : r.book.isOpen key with
  | false =>
    have hnone : r.progress t key = r := by
      rw [BrowserRun.progress]
      cases r.stats key with
      | none => rfl
      | some st => exact if_neg (by simp [hopen])
    rw [hnone]
    exact h
  | true =>
    refine h.sent hinj hP hs hk ?_ ?_ ?_ fun hne _ => hk.stats key (h.stats key hopen hne)
    · simp only [mem_cons] at hkey ⊢
      exact hkey.imp_right (.imp_right (.imp_right .inr))
    · rintro rfl -
      exact h.tab hopen
    · rintro rfl
      exact h.window hopen

theorem closeClip : Stage c log P o t (r.closeClip c t) := by
  obtain ⟨hs, hk, -⟩ := r.closeClip_spec c t
  exact h.sent hinj hP hs hk (by simp) (fun h => by cases h) (fun h => by cases h) fun h =>
    absurd rfl h

theorem reportBlur : Stage c log P o t (r.reportBlur c t) := by
  rw [BrowserRun.reportBlur]
  cases hb : r.blurSince with
  | none => exact h
  | some s =>
    dsimp only
    split
    next hc =>
      obtain ⟨hs, hk, -, hstats⟩ := r.openSpan_spec .windowUnfocused t s
      obtain ⟨hhid, hfoc, a, ha, has⟩ := h.blur s hb
      have hlasts : o.Lasts c.blurMinMs t := ⟨a, ha, by linarith [hc.2.2.2]⟩
      exact h.sent hinj hP hs hk (by simp) (fun h => by cases h) (fun _ => ⟨hhid, hfoc, hlasts⟩) fun _ _ => hstats
    next => exact h

theorem advance : Stage c log P o t (r.advance c t) := by
  have hblur := h.reportBlur hinj hP
  have hclip : Stage c log P o t
      (if (r.reportBlur c t).book.isOpen .clipboardAttempt = true ∧
        c.quietMs ≤ t - (r.reportBlur c t).clip.lastAt then
        (r.reportBlur c t).closeClip c t
      else r.reportBlur c t) := by
    split
    · exact hblur.closeClip hinj hP
    · exact hblur
  exact ((hclip.progress hinj hP (by simp)).progress hinj hP (by simp)).progress hinj hP (by simp)

end

theorem note (h : Stage c log P o t r) (hidden lost : Bool) (hidden' focused' : Option Bool)
    (blurSince' : Option ℚ)
    (hhidden : hidden = decide (hidden' = some true))
    (hlost : lost = decide (focused' = some false))
    (htab : r.book.isOpen .tabHidden = true → hidden' = some true)
    (hwindow : r.book.isOpen .windowUnfocused = true → hidden' ≠ some true ∧ focused' = some false)
    (hblur : ∀ s ∈ blurSince', hidden' ≠ some true ∧ focused' = some false ∧ (s ∈ r.blurSince ∨ s = t)) :
    Stage c log P (o.note hidden lost t) t
      { r with hidden := hidden', focused := focused', blurSince := blurSince' } := by
  have hle : o.since.getD t ≤ t := by
    cases hs : o.since with
    | none => exact le_rfl
    | some a => exact h.since a hs
  -- while the loss of focus goes on, it goes on since then
  have hsince : hidden' ≠ some true → focused' = some false →
      (o.note hidden lost t).since = some (o.since.getD t) := by
    intro hh hf
    simp [Absence.note, hhidden, hlost, hh, hf]
  refine ⟨h.sends.same rfl rfl, h.lastT, hhidden, hlost, fun a ha => ?_, htab, fun ho => ?_,
    fun s hs => ?_, h.stats,
    h.keys⟩
  · rw [Absence.note] at ha
    split at ha
    · obtain rfl := some_inj.mp ha
      exact hle
    · cases ha
  · obtain ⟨hh, hf⟩ := hwindow ho
    obtain ⟨-, -, a, ha, hlong⟩ := h.window ho
    refine ⟨hh, hf, a, ?_, hlong⟩
    rw [hsince hh hf, mem_def.mp ha]
    rfl
  · obtain ⟨hh, hf, hcase⟩ := hblur s hs
    refine ⟨hh, hf, o.since.getD t, hsince hh hf, ?_⟩
    rcases hcase with hold | rfl
    · obtain ⟨-, -, a, ha, has⟩ := h.blur s hold
      rw [mem_def.mp ha]
      exact has
    · exact hle

theorem note_same (h : Stage c log P o t r) {hidden lost : Bool}
    (hhidden : hidden = decide (r.hidden = some true))
    (hlost : lost = decide (r.focused = some false)) : Stage c log P (o.note hidden lost t) t r :=
  h.note _ _ _ _ _ hhidden hlost h.tab (fun ho => ⟨(h.window ho).1, (h.window ho).2.1⟩)
    fun s hs => ⟨(h.blur s hs).1, (h.blur s hs).2.1, .inl hs⟩

end Stage

theorem closeSpan_page (r : BrowserRun) (hidden focused : Option Bool) (type : EventType)
    (endedAt t : ℚ) :
    BrowserRun.closeSpan { r with hidden := hidden, focused := focused } type endedAt t =
      { r.closeSpan type endedAt t with hidden := hidden, focused := focused } := by
  rw [BrowserRun.closeSpan, BrowserRun.closeSpan]
  cases hs : r.stats type with
  | none => rfl
  | some st =>
    cases r.book.isOpen type <;> rfl

theorem closeOpen_page (r : BrowserRun) (hidden focused : Option Bool) (type : EventType) (t : ℚ) :
    BrowserRun.closeOpen { r with hidden := hidden, focused := focused } type t =
      { r.closeOpen type t with hidden := hidden, focused := focused } := by
  rw [BrowserRun.closeOpen, BrowserRun.closeOpen]
  cases r.book.isOpen type with
  | false => rfl
  | true => exact closeSpan_page r hidden focused type t t

theorem closeOpen_spec (r : BrowserRun) (type : EventType) (t : ℚ) :
    Sent type r (r.closeOpen type t) ∧ PageKept r (r.closeOpen type t) := by
  rw [BrowserRun.closeOpen]
  split
  · obtain ⟨hs, hk, -⟩ := r.closeSpan_spec type t t
    exact ⟨hs, hk⟩
  · exact ⟨.nothing rfl rfl, .rfl' r⟩

namespace Stage

variable {o : Absence} {t : ℚ} {key : EventType}

section

variable (h : Stage c log P o t r) (hinj : Function.Injective c.idFactory)
include h hinj

theorem openSpan (hP : o.Lasts c.blurMinMs t → P)
    (hkey : key ∈ [EventType.tabHidden, .windowUnfocused, .fullscreenExited])
    (htab : key = .tabHidden → r.hidden = some true)
    (hwindow : key = .windowUnfocused → r.hidden ≠ some true ∧ r.focused = some false ∧ o.Lasts c.blurMinMs t)
    (startedAt : ℚ) : Stage c log P o t (r.openSpan key startedAt t) := by
  obtain ⟨hs, hk, -, hstats⟩ := r.openSpan_spec key t startedAt
  refine h.sent hinj hP hs hk ?_ (fun heq _ => htab heq) hwindow fun _ _ => hstats
  simp only [mem_cons] at hkey ⊢
  exact hkey.imp_right (.imp_right (.imp_right .inr))

theorem hide (hP : o.Lasts c.blurMinMs t → P) :
    Stage c log P (o.note true o.lost t) t (r.hide c t) := by
  obtain ⟨hclosed, hoff⟩ := h.closeOpen .windowUnfocused hinj hP (by simp)
  have hnote := hclosed.note true o.lost (some true) r.focused none (by simp) h.lost (fun _ => rfl)
    (fun ho => absurd (hoff.symm.trans ho) (by decide)) (by simp)
  have hpage := closeOpen_page r (some true) r.focused .windowUnfocused t
  have hnone : (o.note true o.lost t).Lasts c.blurMinMs t → P := by
    rintro ⟨a, ha, -⟩
    simp [Absence.note] at ha
  rw [BrowserRun.hide, hpage]
  split
  · exact hnote.openSpan hinj hnone (by simp) (fun _ => rfl) (fun heq => by cases heq) _
  · exact hnote

theorem unhide (hP : o.Lasts c.blurMinMs t → P) :
    Stage c log P (o.note false o.lost t) t (r.unhide t) := by
  -- the hidden tab is closed, whether or not it was open
  have hclosed : ∃ r₁, (if r.hidden = some true then
        BrowserRun.closeSpan { r with hidden := some false } .tabHidden t t
      else { r with hidden := some false }) = { r₁ with hidden := some false, focused := r.focused } ∧
      Stage c log P o t r₁ ∧ PageKept r r₁ ∧ r₁.book.isOpen .tabHidden = false := by
    cases hopen : r.book.isOpen .tabHidden with
    | true =>
      have hhid := h.tab hopen
      obtain ⟨hstage, hoff⟩ := h.closeSpan .tabHidden hinj hP (by simp) hopen t
      rw [if_pos hhid]
      exact ⟨_, closeSpan_page r (some false) r.focused .tabHidden t t, hstage,
        (r.closeSpan_spec .tabHidden t t).2.1, hoff⟩
    | false =>
      split
      · have hnone : BrowserRun.closeSpan { r with hidden := some false } .tabHidden t t = { r with
          hidden := some false } := by
          rw [BrowserRun.closeSpan]
          cases r.stats .tabHidden with
          | none => rfl
          | some st => exact if_neg (by simp [hopen])
        exact ⟨r, hnone, h, .rfl' r, hopen⟩
      · exact ⟨r, rfl, h, .rfl' r, hopen⟩
  obtain ⟨r₁, heq, hstage, hk, hoff⟩ := hclosed
  rw [BrowserRun.unhide, heq]
  have hlost : o.lost = decide (r.focused = some false) := h.lost
  have hwindow : r₁.book.isOpen .windowUnfocused = true → some false ≠ some true ∧
      r.focused = some false := fun ho =>
    ⟨by simp, hk.focused ▸ (hstage.window ho).2.1⟩
  split
  next hfoc =>
    exact hstage.note _ _ _ _ _ (by simp) hlost (fun ho =>
      absurd (hoff.symm.trans ho) (by decide)) hwindow fun s hs =>
      ⟨by simp, hfoc, .inr (some_inj.mp hs).symm⟩
  next hfoc =>
    exact hstage.note _ _ _ _ _ (by simp) hlost (fun ho =>
      absurd (hoff.symm.trans ho) (by decide)) hwindow fun s hs =>
      absurd (hk.focused ▸ (hstage.blur s hs).2.1) hfoc

theorem visibility (hP : o.Lasts c.blurMinMs t → P)
    (isHidden : Bool) : Stage c log P (o.note isHidden o.lost t) t (r.visibility c isHidden t) := by
  rw [BrowserRun.visibility]
  split
  next hc =>
    rw [hc.1]
    exact h.hide hinj hP
  next hno =>
    split
    next hc =>
      rw [hc.1]
      exact h.unhide hinj hP
    next hno' =>
      refine h.note_same ?_ h.lost
      cases isHidden with
      | true => simp [not_not.mp fun hne => hno ⟨rfl, hne⟩]
      | false => simp [not_not.mp fun hne => hno' ⟨rfl, hne⟩]

theorem blurred (hP : (o.note o.hidden true t).Lasts c.blurMinMs t → P) :
    Stage c log P (o.note o.hidden true t) t (r.blur c t) := by
  rw [BrowserRun.blur]
  split
  next hhid =>
    have hnote := h.note o.hidden true r.hidden (some false) (some t) h.hidden (by simp) h.tab
      (fun _ => ⟨hhid, rfl⟩) fun s hs => ⟨hhid, rfl, .inr (some_inj.mp hs).symm⟩
    split
    next hc =>
      refine hnote.openSpan hinj hP (by simp) (fun heq => by cases heq) (fun _ => ?_) t
      obtain ⟨hh, hf, a, ha, hat⟩ := hnote.blur t rfl
      exact ⟨hh, hf, a, ha, by linarith⟩
    next => exact hnote
  next hhid =>
    have hhid : r.hidden = some true := not_not.mp hhid
    exact h.note _ _ _ _ _ h.hidden (by simp) h.tab (fun ho => absurd hhid (h.window ho).1)
      fun s hs => absurd hhid (h.blur s hs).1

theorem refocus (hP : o.Lasts c.blurMinMs t → P) :
    Stage c log P (o.note o.hidden false t) t (r.refocus t) := by
  obtain ⟨hclosed, hoff⟩ := h.closeOpen .windowUnfocused hinj hP (by simp)
  obtain ⟨-, hk⟩ := closeOpen_spec r .windowUnfocused t
  have hpage := closeOpen_page r r.hidden (some true) .windowUnfocused t
  rw [BrowserRun.refocus]
  have hpage' : BrowserRun.closeOpen { r with focused := some true } .windowUnfocused t =
      { r.closeOpen .windowUnfocused t with hidden := r.hidden, focused := some true } := hpage
  rw [hpage']
  refine hclosed.note _ _ _ _ _ h.hidden (by simp) (fun ho => ?_)
    (fun ho => absurd (hoff.symm.trans ho) (by decide)) (by simp)
  exact hk.hidden ▸ hclosed.tab ho

theorem focus (hP : o.Lasts c.blurMinMs t → P)
    (isFocused : Bool) (hP' : (o.note o.hidden (!isFocused) t).Lasts c.blurMinMs t → P) :
    Stage c log P (o.note o.hidden (!isFocused) t) t (r.focus c isFocused t) := by
  rw [BrowserRun.focus]
  split
  next hc =>
    obtain ⟨rfl, -⟩ := hc
    exact h.blurred hinj hP'
  next hno =>
    split
    next hc =>
      obtain ⟨rfl, -⟩ := hc
      exact h.refocus hinj hP
    next hno' =>
      refine h.note_same h.hidden ?_
      cases isFocused with
      | true => simp [not_not.mp fun hne => hno' ⟨rfl, hne⟩]
      | false => simp [not_not.mp fun hne => hno ⟨rfl, hne⟩]

theorem fullscreen
    (hP : o.Lasts c.blurMinMs t → P) (active : Bool) :
    Stage c log P o t (r.fullscreen c active t) := by
  have hset : ∀ fs, Stage c log P o t { r with fs := fs } := fun fs =>
    { h with sends := h.sends.same rfl rfl }
  rw [BrowserRun.fullscreen]
  split
  · split
    · exact (hset (some false)).openSpan hinj hP (by simp) (fun heq => by cases heq) (fun heq => by cases heq) t
    · exact hset (some false)
  · split
    · exact ((hset (some true)).closeOpen .fullscreenExited hinj hP (by simp)).1
    · exact h

theorem clipboard (hP : o.Lasts c.blurMinMs t → P)
    (action : ClipAction) : Stage c log P o t (r.clipboard c action t) := by
  obtain ⟨hs, hk⟩ := r.clipboard_spec c t action
  exact h.sent hinj hP hs hk (by simp) (fun h => by cases h) (fun h => by cases h) fun h =>
    absurd rfl h

theorem displays (isExtended : Option Bool) : Stage c log P o t (r.displays isExtended t) := by
  rw [BrowserRun.displays]
  split
  · have hinj' : Function.Injective r.book.cfg.idFactory := by
      rw [h.sends.cfg]
      exact hinj
    have hm := h.sends.signals.marker hinj' t BrowserRun.displayData
    rw [append_assoc] at hm
    refine { h with sends := ⟨h.sends.cfg, hm, fun u hu htype => ?_⟩ }
    rcases mem_snoc.1 hu with hu | rfl
    · exact h.sends.long u hu htype
    · cases htype
  · exact { h with sends := h.sends.same rfl rfl }

theorem flush (hP : o.Lasts c.blurMinMs t → P) :
    Stage c log P .new t (r.flush c t) ∧ ∀ type, (r.flush c t).book.isOpen type = false := by
  obtain ⟨h₁, htab⟩ := h.closeOpen .tabHidden hinj hP (by simp)
  obtain ⟨h₂, hwindow⟩ := h₁.closeOpen .windowUnfocused hinj hP (by simp)
  obtain ⟨h₃, hfs⟩ := h₂.closeOpen .fullscreenExited hinj hP (by simp)
  have hs₂ := (closeOpen_spec (r.closeOpen .tabHidden t) .windowUnfocused t).1
  have hs₃ := (closeOpen_spec ((r.closeOpen .tabHidden t).closeOpen .windowUnfocused t) .fullscreenExited t).1
  rw [BrowserRun.flush]
  generalize ((r.closeOpen .tabHidden t).closeOpen .windowUnfocused t).closeOpen .fullscreenExited
      t = r₃ at h₃ hfs hs₃ ⊢
  have hclip : ∃ r₄, (if r₃.book.isOpen .clipboardAttempt = true then r₃.closeClip c t
      else r₃) = r₄ ∧
      Stage c log P o t r₄ ∧ Sent .clipboardAttempt r₃ r₄ ∧
      r₄.book.isOpen .clipboardAttempt = false := by
    split
    · obtain ⟨hs, -, hoff⟩ := r₃.closeClip_spec c t
      exact ⟨_, rfl, h₃.closeClip hinj hP, hs, hoff⟩
    next hoff => exact ⟨_, rfl, h₃, .nothing rfl rfl, by simpa using hoff⟩
  obtain ⟨r₄, heq, h₄, hs₄, hclip⟩ := hclip
  rw [heq]
  -- what was closed stays closed
  have hall : ∀ type, r₄.book.isOpen type = false := by
    intro type
    refine Bool.eq_false_iff.mpr fun ho => ?_
    have hmem := h₄.keys type ho
    have hoff : r₄.book.isOpen type = false := by
      simp only [mem_cons, not_mem_nil, or_false] at hmem
      rcases hmem with rfl | rfl | rfl | rfl
      · rw [hs₄.isOpen_other (by decide), hs₃.isOpen_other (by decide), hs₂.isOpen_other (by decide), htab]
      · rw [hs₄.isOpen_other (by decide), hs₃.isOpen_other (by decide), hwindow]
      · rw [hs₄.isOpen_other (by decide), hfs]
      · exact hclip
    exact absurd (hoff.symm.trans ho) (by decide)
  have hforgot : ∀ type, r₄.book.forgetClosed.isOpen type = false := fun type =>
    (SignalLog.isOpen_forgetClosed r₄.book type).trans (hall type)
  have hnot : ∀ {type} {Q : Prop}, r₄.book.forgetClosed.isOpen type = true → Q := fun ho =>
    absurd ((hforgot _).symm.trans ho) (by decide)
  refine ⟨⟨⟨h₄.sends.cfg, h₄.sends.signals.forgetClosed, h₄.sends.long⟩, h₄.lastT, by simp [Absence.new],
    by simp [Absence.new], by simp [Absence.new], hnot, hnot, by simp, fun _ => hnot, fun _ => hnot⟩, hforgot⟩

/-- What a call does. -/
theorem body (call : BrowserCall)
    (hP : o.Lasts c.blurMinMs t → P) (hP' : (o.after t call).Lasts c.blurMinMs t → P) :
    Stage c log P (o.after t call) t (BrowserSignalTracker.body c r t call) := by
  cases call with
  | visibility isHidden => exact h.visibility hinj hP isHidden
  | focus isFocused => exact h.focus hinj hP isFocused hP'
  | fullscreen active => exact h.fullscreen hinj hP active
  | clipboard action => exact h.clipboard hinj hP action
  | displays isExtended => exact h.displays hinj isExtended
  | tick => exact h
  | flush => exact (h.flush hinj hP).1

end

end Stage

/-! ## A session of calls -/

theorem Absence.Lasts.mono {o : Absence} {ms t t' : ℚ} (h : o.Lasts ms t) (hle : t ≤ t') :
    o.Lasts ms t' := by
  obtain ⟨a, ha, hlong⟩ := h
  exact ⟨a, ha, by linarith⟩

/-- A tracker, what an observer of its calls notes, and all that was sent. -/
structure BrowserSession where
  tracker : BrowserSignalTracker
  absence : Absence
  sent : List BrowserUpdate

namespace BrowserSession

def start (c : BrowserSettings) : BrowserSession := ⟨.new c, .new, []⟩

def step (c : BrowserSettings) (s : BrowserSession) (call : BrowserCall) (t : Option ℚ) :
    BrowserSession where
  tracker := (s.tracker.run c call t).1
  absence := (s.tracker.timeOf t).elim s.absence (s.absence.after · call)
  sent := s.sent ++ (s.tracker.run c call t).2

/-- After the calls, in order. -/
def calls (c : BrowserSettings) (cs : List (BrowserCall × Option ℚ)) : BrowserSession :=
  cs.foldl (fun s call => s.step c call.1 call.2) (start c)

variable {s : BrowserSession}

/-- The tracker between two calls: the next call may start at any later time. -/
def Ready (c : BrowserSettings) (s : BrowserSession) : Prop :=
  ∀ t, (∀ l ∈ s.tracker.lastT, l ≤ t) → ∀ P,
  Stage c s.sent P s.absence t { s.tracker with lastT := some t, out := [] }

theorem start_ready (c : BrowserSettings) : Ready c (start c) := by
  intro t _ P
  have hnot : ∀ {type} {Q : Prop}, (EpisodeBook.new c.book : EpisodeBook EventType).isOpen type =
      true → Q := fun ho =>
    by cases ho
  have hlog : SignalLog (EpisodeBook.new c.book : EpisodeBook EventType) [] := by
    refine ⟨.new c.book, fun key s hs => (by cases hs), fun type _ => rfl, fun l hl => ?_⟩
    obtain rfl := prefix_nil.mp hl
    simp [openIn]
  exact ⟨⟨rfl, hlog, by simp⟩, rfl, rfl, rfl, by simp [start, Absence.new], hnot, hnot,
    by simp [start, BrowserSignalTracker.new], fun _ => hnot, fun _ => hnot⟩

theorem timeOf_ge {b : BrowserSignalTracker} {t : Option ℚ} {now : ℚ} (h : b.timeOf t = some now) :
    ∀ l ∈ b.lastT, l ≤ now := by
  intro l hl
  cases t with
  | none => exact (some_inj.mp (hl.symm.trans h)).le
  | some t =>
    rw [← some_inj.mp h, hl]
    exact le_max_right t l

/-- A call, when its time is known. -/
theorem Ready.run (h : Ready c s) (hinj : Function.Injective c.idFactory) (call : BrowserCall)
    {t : Option ℚ} {now : ℚ}
    (hnow : s.tracker.timeOf t = some now) (hP : s.absence.Lasts c.blurMinMs now → P)
    (hP' : (s.absence.after now call).Lasts c.blurMinMs now → P) :
    ∃ r, s.tracker.run c call t = (r.toBrowserSignalTracker, r.out) ∧
      Stage c s.sent P (s.absence.after now call) now r ∧
      (call = .flush → ∀ type, r.book.isOpen type = false) := by
  have hadv := (h now (timeOf_ge hnow) P).advance hinj hP
  refine ⟨_, ?_, hadv.body hinj call hP hP', ?_⟩
  · rw [BrowserSignalTracker.run, hnow]
  · rintro rfl
    exact (hadv.flush hinj hP).2

theorem Ready.step (h : Ready c s) (hinj : Function.Injective c.idFactory) (call : BrowserCall)
    (t : Option ℚ) : Ready c (s.step c call t) := by
  cases hnow : s.tracker.timeOf t with
  | none =>
    have hsame : s.step c call t = s := by
      rw [BrowserSession.step, BrowserSignalTracker.run, hnow]
      simp
    rw [hsame]
    exact h
  | some now =>
    obtain ⟨r, hrun, hr, -⟩ := h.run (P := True) hinj call hnow (fun _ => trivial) fun _ => trivial
    have hstep : s.step c call t =
        ⟨r.toBrowserSignalTracker, s.absence.after now call, s.sent ++ r.out⟩ := by
      rw [BrowserSession.step, hrun, hnow]
      rfl
    rw [hstep]
    intro t' ht' P
    have hle : now ≤ t' := ht' now hr.lastT
    refine { hr with
        sends := ⟨hr.sends.cfg, ?_, by simp⟩
        lastT := rfl
        since := fun a ha => (hr.since a ha).trans hle
        window := fun ho => ?_ }
    · rw [append_nil]
      exact hr.sends.signals
    · obtain ⟨hh, hf, hlasts⟩ := hr.window ho
      exact ⟨hh, hf, hlasts.mono hle⟩

theorem calls_ready (hinj : Function.Injective c.idFactory) (cs : List (BrowserCall × Option ℚ)) :
    Ready c (calls c cs) := by
  induction cs using reverseRecOn with
  | nil => exact start_ready c
  | append_singleton cs call ih =>
    rw [calls, foldl_append]
    exact Ready.step ih hinj call.1 call.2

end BrowserSession

/-- Whatever the calls: what is sent is well formed, a loss of focus is reported only once it has
lasted, and a flush leaves nothing open. -/
theorem browserSession_wellFormed (c : BrowserSettings) (hinj : Function.Injective c.idFactory)
    (cs : List (BrowserCall × Option ℚ)) :
    (∀ l, l <+: (BrowserSession.calls c cs).sent →
      ¬ (openIn l .tabHidden = true ∧ openIn l .windowUnfocused = true)) ∧
      (∀ id, ∃ n, versionsOf (BrowserSession.calls c cs).sent id = List.range' 1 n) ∧
      (∀ u ∈ (BrowserSession.calls c cs).sent, ∀ e ∈ u.endedAt, u.startedAt ≤ e) ∧
      (∀ call t now, (BrowserSession.calls c cs).tracker.timeOf t = some now →
        ∀ u ∈ ((BrowserSession.calls c cs).tracker.run c call t).2, u.type = .windowUnfocused →
          (BrowserSession.calls c cs).absence.Lasts c.blurMinMs now ∨
            ((BrowserSession.calls c cs).absence.after now call).Lasts c.blurMinMs now) ∧
      (∀ t now, (BrowserSession.calls c cs).tracker.timeOf t = some now →
        ∀ id, isLive ((BrowserSession.calls c cs).step c .flush t).sent id = false) := by
  have hready := BrowserSession.calls_ready hinj cs
  have hnow := hready ((BrowserSession.calls c cs).tracker.lastT.getD 0)
    (fun l hl => by rw [mem_def.mp hl]; rfl) True
  have hlog := hnow.sends.signals
  rw [append_nil] at hlog
  refine ⟨hlog.apart, hlog.sent.versions, hlog.sent.inOrder, fun call t now htime u hu htype => ?_,
    fun t now htime id => ?_⟩
  · obtain ⟨r, hrun, hr, -⟩ := hready.run hinj call htime Or.inl Or.inr
    rw [hrun] at hu
    exact hr.sends.long u hu htype
  · obtain ⟨r, hrun, hr, hoff⟩ := hready.run (P := True) hinj .flush htime (fun _ => trivial) fun _ => trivial
    refine Bool.eq_false_iff.mpr fun hlive => ?_
    rw [BrowserSession.step, hrun] at hlive
    obtain ⟨key, e, he, -, ho⟩ := hr.sends.signals.sent.live id hlive
    have hopen : r.book.isOpen key = true := by simp [EpisodeBook.isOpen, he, ho]
    exact absurd ((hoff rfl key).symm.trans hopen) (by decide)

/-- The settings of an exam that reports a loss of focus after three seconds. -/
def examSignals : BrowserSettings where
  policy := { windowBlurMinSec := 3 }
  idFactory n := String.ofList (List.replicate n 'e')

theorem examSignals_ids : Function.Injective examSignals.idFactory := by
  intro n m h
  have := congrArg length (String.ofList_injective h)
  simpa using this

/-- The window loses the focus, then the page is hidden, comes back and is left for good. -/
def awayTwice : List (BrowserCall × Option ℚ) :=
  [(.focus false, some 0), (.tick, some 3500), (.visibility true, some 4000),
    (.visibility false, some 6000),
    (.focus true, some 7000)]

theorem awayTwice_wellFormed :
    ((BrowserSession.calls examSignals awayTwice).sent.map fun u => (u.type, u.phase)) =
        [(.windowUnfocused, .open), (.windowUnfocused, .close), (.tabHidden, .open), (.tabHidden, .close)] ∧
      ∀ id, ∃ n, versionsOf (BrowserSession.calls examSignals awayTwice).sent id = List.range' 1 n :=
  ⟨by decide +kernel, (browserSession_wellFormed examSignals examSignals_ids awayTwice).2.1⟩

end SmartProctoring
