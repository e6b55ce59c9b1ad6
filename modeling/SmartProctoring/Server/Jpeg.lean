import Mathlib.Data.List.Induction
import Mathlib.Order.Nat

/-!
# The size a JPEG declares

`jpegDimensions` (`lib/crypto.ts`) reads the size of an image without decoding it, so that a small
file that declares a huge picture is refused before a decoder sees it.  It walks the marker segments
by index.

`frameHeaders` says what there is to find: it reads the bytes after the start of the image the way
libjpeg does and lists the frame headers it meets, up to the first scan.  The walk returns the
largest of them, and every byte that it reads lies in the buffer (`jpegDimensions_eq`): a read
outside would make the model fail.
-/

set_option autoImplicit false

namespace SmartProctoring.Jpeg

open List Option

/-- A frame size. -/
structure FrameSize where
  width : Nat
  height : Nat

def FrameSize.area (d : FrameSize) : Nat := d.width * d.height

/-! ## Markers -/

/-- End of the image, or start of a scan: the frame header must come first. -/
def endsHeaders (marker : UInt8) : Bool := marker == 0xd9 || marker == 0xda

/-- A stuffed zero, or a marker without a length field. -/
def standsAlone (marker : UInt8) : Bool :=
  marker == 0x00 || marker == 0x01 || (decide (0xd0 ≤ marker) && decide (marker ≤ 0xd8))

def isSof (marker : UInt8) : Bool :=
  decide (0xc0 ≤ marker) && decide (marker ≤ 0xcf) && marker != 0xc4 && marker != 0xc8 &&
    marker != 0xcc

/-- Two bytes as one number. -/
def be16 (hi lo : UInt8) : Nat := hi.toNat <<< 8 ||| lo.toNat

/-! ## The walk -/

variable (buf : List UInt8)

/-- The bytes before a marker. -/
def skipGarbage (i : Nat) : Option Nat :=
  if i < buf.length then do
    let b ← buf[i]?
    if b ≠ 0xff then skipGarbage (i + 1) else some i
  else some i
termination_by buf.length - i

/-- The `0xFF` fill bytes. -/
def skipFill (i : Nat) : Option Nat :=
  if i < buf.length then do
    let b ← buf[i]?
    if b = 0xff then skipFill (i + 1) else some i
  else some i
termination_by buf.length - i

/-- The larger of two sizes; the first one, when they are equally large. -/
def larger (best : Option FrameSize) (d : FrameSize) : Option FrameSize :=
  match best with
  | none => some d
  | some b => if b.area < d.area then some d else some b

/-- What one pass of the loop comes to. -/
inductive Pass
  | done
  | next (i : Nat) (best : Option FrameSize)

/-- One pass of the loop, at a position in the buffer; `none` is a read outside it. -/
def pass (i : Nat) (best : Option FrameSize) : Option Pass := do
  let i ← skipGarbage buf i
  let i ← skipFill buf i
  if buf.length ≤ i then return .done
  let marker ← buf[i]?
  let i := i + 1
  if endsHeaders marker then return .done
  if standsAlone marker then return .next i best
  if buf.length ≤ i + 1 then return .done
  let len := be16 (← buf[i]?) (← buf[i + 1]?)
  if len < 2 then return .done
  if isSof marker && decide (i + 6 < buf.length) then
    let height := be16 (← buf[i + 3]?) (← buf[i + 4]?)
    let width := be16 (← buf[i + 5]?) (← buf[i + 6]?)
    return .next (i + len) (larger best { width, height })
  return .next (i + len) best

/-! ## The frame headers of an image -/

/-- The length that a segment declares, its own field included; zero if the data ends within the
field. -/
def lengthOf : List UInt8 → Nat
  | hi :: lo :: _ => be16 hi lo
  | _ => 0

/-- The frame header of a segment, if the marker is one of a frame and the header is there up to the
width: the length, the sample precision, the height and the width. -/
def headerOf (marker : UInt8) : List UInt8 → List FrameSize
  | _ :: _ :: _ :: h₁ :: h₀ :: w₁ :: w₀ :: _ => if isSof marker then [⟨be16 w₁ w₀, be16 h₁ h₀⟩] else []
  | _ => []

/-- The complete frame headers that libjpeg meets before the first scan.  Bytes before a `0xFF` are
skipped, a `0xFF` before another one is fill, and a segment is as long as it declares; a length that
does not even cover its own field ends the walk, and so do the end of the image, a scan and the end
of the data. -/
def frameHeaders : List UInt8 → List FrameSize
  | [] => []
  | [_] => []
  | b :: marker :: rest =>
    if b ≠ 0xff ∨ marker = 0xff then frameHeaders (marker :: rest)
    else if endsHeaders marker then []
    else if standsAlone marker then frameHeaders rest
    else if lengthOf rest < 2 then []
    else headerOf marker rest ++ frameHeaders (rest.drop (lengthOf rest))
termination_by data => data.length
decreasing_by
  all_goals simp only [List.length_cons, List.length_drop]; omega

theorem frameHeaders_garbage {b : UInt8} (hb : b ≠ 0xff) (rest : List UInt8) :
    frameHeaders (b :: rest) = frameHeaders rest := by
  cases rest with
  | nil => rw [frameHeaders, frameHeaders]
  | cons => rw [frameHeaders, if_pos (.inl hb)]

theorem frameHeaders_fill (rest : List UInt8) :
    frameHeaders (0xff :: 0xff :: rest) = frameHeaders (0xff :: rest) := by
  rw [frameHeaders, if_pos (.inr rfl)]

theorem frameHeaders_marker {marker : UInt8} (hm : marker ≠ 0xff) (rest : List UInt8) :
    frameHeaders (0xff :: marker :: rest) =
      if endsHeaders marker then []
      else if standsAlone marker then frameHeaders rest
      else if lengthOf rest < 2 then []
      else headerOf marker rest ++ frameHeaders (rest.drop (lengthOf rest)) := by
  rw [frameHeaders, if_neg (by simp [hm])]

variable {buf}

variable {i : Nat}

theorem lengthOf_drop (h : i + 1 < buf.length) :
    lengthOf (buf.drop i) = be16 buf[i] buf[i + 1] := by
  rw [drop_eq_getElem_cons (by omega), drop_eq_getElem_cons h, lengthOf]

theorem lengthOf_short (h : buf.length ≤ i + 1) : lengthOf (buf.drop i) = 0 := by
  have hlen : (buf.drop i).length < 2 := by
    rw [length_drop]
    omega
  match buf.drop i, hlen with
  | [], _ => rfl
  | [_], _ => rfl

theorem headerOf_drop (h : i + 6 < buf.length) (marker : UInt8) :
    headerOf marker (buf.drop i) =
      if isSof marker then [⟨be16 buf[i + 5] buf[i + 6], be16 buf[i + 3] buf[i + 4]⟩] else [] := by
  iterate 7 rw [drop_eq_getElem_cons (by omega)]
  rfl

theorem headerOf_short (h : buf.length ≤ i + 6) (marker : UInt8) :
    headerOf marker (buf.drop i) = [] := by
  have hlen : (buf.drop i).length < 7 := by
    rw [length_drop]
    omega
  match buf.drop i, hlen with
  | [], _ | [_], _ | [_, _], _ | [_, _, _], _ | [_, _, _, _], _ | [_, _, _, _, _],
      _ | [_, _, _, _, _, _], _ => rfl

/-! ## The walk meets them -/

variable (buf)

theorem skipGarbage_spec (i : Nat) :
    ∃ j, skipGarbage buf i = some j ∧ i ≤ j ∧
      frameHeaders (buf.drop i) = frameHeaders (buf.drop j) ∧ ∀ b ∈ buf[j]?, b = 0xff := by
  induction hn : buf.length - i generalizing i with
  | zero =>
    refine ⟨i, ?_, le_rfl, rfl, ?_⟩
    · rw [skipGarbage, if_neg (by omega)]
    · rw [getElem?_eq_none (by omega)]
      exact fun b hb => absurd hb (not_mem_none b)
  | succ n ih =>
    have hi : i < buf.length := by omega
    rw [skipGarbage, if_pos hi, getElem?_eq_getElem hi]
    by_cases hb : buf[i] = 0xff
    · refine ⟨i, by simp [hb], le_rfl, rfl, ?_⟩
      rw [getElem?_eq_getElem hi]
      exact fun b h => (some_inj.1 h) ▸ hb
    · obtain ⟨j, hj, hij, hheaders, hff⟩ := ih (i + 1) (by omega)
      refine ⟨j, by simp [hb, hj], by omega, ?_, hff⟩
      rw [drop_eq_getElem_cons hi, frameHeaders_garbage hb, hheaders]

theorem skipFill_spec (i : Nat) :
    ∃ j, skipFill buf i = some j ∧ i ≤ j ∧
      frameHeaders (0xff :: buf.drop i) = frameHeaders (0xff :: buf.drop j) ∧ ∀ b ∈ buf[j]?, b ≠ 0xff := by
  induction hn : buf.length - i generalizing i with
  | zero =>
    refine ⟨i, ?_, le_rfl, rfl, ?_⟩
    · rw [skipFill, if_neg (by omega)]
    · rw [getElem?_eq_none (by omega)]
      exact fun b hb => absurd hb (not_mem_none b)
  | succ n ih =>
    have hi : i < buf.length := by omega
    rw [skipFill, if_pos hi, getElem?_eq_getElem hi]
    by_cases hb : buf[i] = 0xff
    · obtain ⟨j, hj, hij, hheaders, hff⟩ := ih (i + 1) (by omega)
      refine ⟨j, by simp [hb, hj], by omega, ?_, hff⟩
      rw [drop_eq_getElem_cons hi, hb, frameHeaders_fill, hheaders]
    · refine ⟨i, by simp [hb], le_rfl, rfl, ?_⟩
      rw [getElem?_eq_getElem hi]
      exact fun b h => (some_inj.1 h) ▸ hb

theorem toMarker_spec (i : Nat) :
    ∃ j k, skipGarbage buf i = some j ∧ skipFill buf j = some k ∧ i ≤ k ∧
      ((buf.length ≤ k ∧ frameHeaders (buf.drop i) = []) ∨
        ∃ hk : k < buf.length, i < k ∧ buf[k] ≠ 0xff ∧
          frameHeaders (buf.drop i) = frameHeaders (0xff :: buf[k] :: buf.drop (k + 1))) := by
  obtain ⟨j, hj, hij, hgarbage, hff⟩ := skipGarbage_spec buf i
  obtain ⟨k, hk, hjk, hfill, hnff⟩ := skipFill_spec buf j
  refine ⟨j, k, hj, hk, hij.trans hjk, ?_⟩
  rcases Nat.lt_or_ge j buf.length with hjl | hjl
  · have hb : buf[j] = 0xff := hff _ (by rw [getElem?_eq_getElem hjl]; rfl)
    have hne : j ≠ k := by
      rintro rfl
      exact hnff _ (by rw [getElem?_eq_getElem hjl]; rfl) hb
    have hstart : frameHeaders (buf.drop j) = frameHeaders (0xff :: buf.drop k) := by
      rw [← hfill, drop_eq_getElem_cons hjl, hb, frameHeaders_fill]
    rcases Nat.lt_or_ge k buf.length with hkl | hkl
    · refine .inr ⟨hkl, by omega, hnff _ (by rw [getElem?_eq_getElem hkl]; rfl), ?_⟩
      rw [hgarbage, hstart, drop_eq_getElem_cons hkl]
    · refine .inl ⟨hkl, ?_⟩
      rw [hgarbage, hstart, drop_eq_nil_of_le hkl, frameHeaders]
  · refine .inl ⟨hjl.trans hjk, ?_⟩
    rw [hgarbage, drop_eq_nil_of_le hjl, frameHeaders]

/-- **One pass**: it reads inside the buffer, and either nothing more is found, or it goes on behind
what it found. -/
theorem pass_spec (i : Nat) (best : Option FrameSize) :
    (pass buf i best = some .done ∧ frameHeaders (buf.drop i) = []) ∨
      ∃ j headers, i < j ∧ pass buf i best = some (.next j (headers.foldl larger best)) ∧
        frameHeaders (buf.drop i) = headers ++ frameHeaders (buf.drop j) := by
  obtain ⟨j, k, hj, hk, hik, hend | ⟨hkl, hlt, hm, hheaders⟩⟩ := toMarker_spec buf i
  · refine .inl ⟨?_, hend.2⟩
    simp [pass, hj, hk, hend.1]
  · rw [hheaders, frameHeaders_marker hm]
    -- the pass up to the marker
    have hpass : pass buf i best =
        if endsHeaders buf[k] then some .done
        else if standsAlone buf[k] then some (.next (k + 1) best)
        else if lengthOf (buf.drop (k + 1)) < 2 then some .done
        else some (.next (k + 1 + lengthOf (buf.drop (k + 1)))
          ((headerOf buf[k] (buf.drop (k + 1))).foldl larger best)) := by
      simp only [pass, hj, hk, bind_eq_bind, bind_some, if_neg (show ¬ buf.length ≤ k by omega),
        getElem?_eq_getElem hkl, Option.pure_def]
      rcases Nat.lt_or_ge (k + 1 + 1) buf.length with hfield | hfield
      · have h1 := getElem?_eq_getElem (show k + 1 < buf.length by omega)
        have h2 := getElem?_eq_getElem hfield
        rw [lengthOf_drop hfield]
        simp only [h1, h2, bind_some, if_neg (show ¬ buf.length ≤ k + 1 + 1 by omega)]
        rcases Nat.lt_or_ge (k + 1 + 6) buf.length with hhead | hhead
        · have h3 := getElem?_eq_getElem (show k + 1 + 3 < buf.length by omega)
          have h4 := getElem?_eq_getElem (show k + 1 + 4 < buf.length by omega)
          have h5 := getElem?_eq_getElem (show k + 1 + 5 < buf.length by omega)
          have h6 := getElem?_eq_getElem hhead
          rw [headerOf_drop hhead]
          simp only [h3, h4, h5, h6, bind_some, hhead, decide_true, Bool.and_true]
          cases isSof buf[k] <;> rfl
        · rw [headerOf_short hhead]
          simp only [show ¬ k + 1 + 6 < buf.length by omega, decide_false, Bool.and_false]
          rfl
      · rw [lengthOf_short hfield, if_pos hfield]
        rfl
    rw [hpass]
    split
    · exact .inl ⟨rfl, rfl⟩
    · split
      · exact .inr ⟨k + 1, [], by omega, rfl, rfl⟩
      · split
        · exact .inl ⟨rfl, rfl⟩
        · refine .inr ⟨k + 1 + lengthOf (buf.drop (k + 1)), _, by omega, rfl, ?_⟩
          rw [drop_drop]

/-- The loop, from a position on. -/
def walk (i : Nat) (best : Option FrameSize) : Option (Option FrameSize) :=
  if i < buf.length then
    match _h : pass buf i best with
    | none => none
    | some .done => some best
    | some (.next j best') => walk j best'
  else some best
termination_by buf.length - i
decreasing_by
  rcases pass_spec buf i best with ⟨hdone, -⟩ | ⟨j', headers, hlt, hnext, -⟩
  · rw [hdone] at _h
    cases _h
  · rw [hnext] at _h
    cases _h
    omega

/-- Frame size declared by a JPEG's frame header(s), read without decoding (largest if several), or
`none` when no frame header is found before the first scan.  The outer `none` is a read outside the
buffer. -/
def jpegDimensions : Option (Option FrameSize) := do
  if buf.length < 4 then return none
  if (← buf[0]?) ≠ 0xff ∨ (← buf[1]?) ≠ 0xd8 then return none
  walk buf 2 none

/-- What a JPEG's data holds: the frame headers after the start of the image; other data holds
none. -/
def imageHeaders : List UInt8 → List FrameSize
  | b₀ :: b₁ :: data => if b₀ = 0xff ∧ b₁ = 0xd8 then frameHeaders data else []
  | _ => []

variable {buf}

theorem walk_eq (i : Nat) (best : Option FrameSize) :
    walk buf i best = some ((frameHeaders (buf.drop i)).foldl larger best) := by
  induction hn : buf.length - i using Nat.strong_induction_on generalizing i best with
  | _ n ih =>
    rw [walk]
    split
    next hi =>
      rcases pass_spec buf i best with ⟨hdone, hnone⟩ | ⟨j, headers, hlt, hnext, hheaders⟩
      · split <;> simp_all
      · rw [hheaders, foldl_append]
        split
        next h => exact absurd (h.symm.trans hnext) (by simp)
        next h => exact absurd (h.symm.trans hnext) (by simp)
        next j' best' h =>
          obtain ⟨rfl, rfl⟩ : j' = j ∧ best' = headers.foldl larger best := by
            simpa using h.symm.trans hnext
          exact ih _ (by omega) j' _ rfl
    next hi => rw [drop_eq_nil_of_le (by omega), frameHeaders, foldl_nil]

theorem jpegDimensions_eq (buf : List UInt8) :
    jpegDimensions buf = some ((imageHeaders buf).foldl larger none) := by
  match buf with
  | [] => rfl
  | [_] => rfl
  | b₀ :: b₁ :: data =>
    have hread0 : (b₀ :: b₁ :: data)[0]? = some b₀ := rfl
    have hread1 : (b₀ :: b₁ :: data)[1]? = some b₁ := rfl
    simp only [jpegDimensions, imageHeaders, hread0, hread1, bind_eq_bind, bind_some, Option.pure_def]
    split
    next hshort =>
      -- too short for a frame header
      have hnone : frameHeaders data = [] := by
        match data, hshort with
        | [], _ => rw [frameHeaders]
        | [_], _ => rw [frameHeaders]
        | _ :: _ :: _, h => exact absurd h (by simp)
      rw [hnone, ite_self]
      rfl
    next hlong =>
      by_cases hstart : b₀ = 0xff ∧ b₁ = 0xd8
      · rw [if_pos hstart, if_neg (by simp [hstart]), walk_eq]
        rfl
      · rw [if_neg hstart, if_pos (not_and_or.1 hstart)]
        rfl

/-! ## The largest header -/

/-- One of the largest of the headers, or none if there is none. -/
def Largest (headers : List FrameSize) : Option FrameSize → Prop
  | none => headers = []
  | some d => d ∈ headers ∧ ∀ e ∈ headers, e.area ≤ d.area

theorem largest_foldl (headers : List FrameSize) : Largest headers (headers.foldl larger none) := by
  induction headers using reverseRecOn with
  | nil => rfl
  | append_singleton headers d ih =>
    rw [foldl_append, foldl_cons]
    cases hbest : headers.foldl larger none with
    | none =>
      rw [hbest] at ih
      rw [show headers = [] from ih]
      simp [larger, Largest]
    | some b =>
      rw [hbest] at ih
      obtain ⟨hmem, hmax⟩ := ih
      rw [larger]
      split
      next hlt =>
        refine ⟨mem_append_right _ (mem_singleton_self d), fun e he => ?_⟩
        rcases mem_append.1 he with he | he
        · exact (hmax e he).trans hlt.le
        · rw [mem_singleton.1 he]
      next hle =>
        refine ⟨mem_append_left _ hmem, fun e he => ?_⟩
        rcases mem_append.1 he with he | he
        · exact hmax e he
        · rw [mem_singleton.1 he]
          exact not_lt.1 hle

/-- **A JPEG cannot hide its size.** -/
theorem jpeg_size_found (buf : List UInt8) :
    ∃ best, jpegDimensions buf = some best ∧ Largest (imageHeaders buf) best :=
  ⟨_, jpegDimensions_eq buf, largest_foldl _⟩

end SmartProctoring.Jpeg
