import Mathlib.Tactic.NormNum
import SmartProctoring.Lib.ByteRecord
import SmartProctoring.Lib.Json

/-!
# ZIP archives

`lib/zip.ts`: the archive of a data export as a stream of bytes.  Each entry has a local header,
then its data; after the last one comes the central directory, then the end record.  Positions and
counts from `zip64At` on are escaped to ZIP64 fields.  What `node:zlib` computes is a parameter
(`Zlib`).

A number that does not fit its field is refused (`writeRecord`), and positions are added as
JavaScript's numbers (`toNumber`).  `zipStream_eq` says which bytes come out: those of `archive`,
where every position is exact.
-/

set_option autoImplicit false

namespace SmartProctoring.Zip

open ByteRecord
open List

def U16_MAX : Nat := 0xffff

def U32_MAX : Nat := 0xffffffff

/-- Largest single entry: its sizes are written in 32 bits. -/
def MAX_ENTRY_BYTES : Nat := U32_MAX - 1

inductive ZipError
  | error (message : String)
  /-- What a buffer throws for a number that does not fit. -/
  | outOfRange

/-- `node:zlib`. -/
structure Zlib where
  crc32 : List UInt8 → UInt32
  deflateRawSync : List UInt8 → List UInt8

/-- What the parts of a valid date are in UTC. -/
structure UtcTime where
  fullYear : Int
  month : Fin 12
  date : Fin 32
  hours : Fin 24
  minutes : Fin 60
  seconds : Fin 60

/-- `Date`; `none` is the invalid one. -/
abbrev JsDate := Option UtcTime

inductive EntryData
  | buffer (data : List UInt8)
  | text (data : String)

structure ZipEntry where
  name : String
  data : EntryData
  date : Option JsDate
  compress : Option Bool

structure Zip64At where
  offset : Option Rat := none
  entries : Option Rat := none

/-- What is noted of an entry for the central directory. -/
structure Written where
  name : List UInt8
  method : Nat
  date : Nat
  time : Nat
  crc : Nat
  csize : Nat
  usize : Nat
  offset : Nat

/-! ## Entries -/

/-- `Buffer.from(s, 'utf8')`. -/
def utf8 (s : String) : List UInt8 := s.toByteArray.data.toList

/-- The number nearest to an integer, the even one of two. -/
def toNumber (n : Nat) : Nat :=
  let unit := 2 ^ (n.log2 - 52)
  if 2 * (n % unit) < unit ∨ 2 * (n % unit) = unit ∧ n / unit % 2 = 0 then n / unit * unit
    else (n / unit + 1) * unit

/-- `STORED_EXT`. -/
def storedExt (name : String) : Bool :=
  ["jpg", "jpeg", "png", "gif", "webp", "zip", "gz", "webm", "mp4"].any fun ext =>
    ('.' :: ext.toList).isSuffixOf (name.toList.map Char.toLower)

def dosDateTime : JsDate → Nat × Nat
  -- every part of an invalid date is NaN, which is 0 in bit operations
  | none => (0, 0)
  | some d =>
    let year := (min 2107 (max 1980 d.fullYear)).toNat
    ((year - 1980) <<< 9 ||| (d.month.val + 1) <<< 5 ||| d.date.val,
      d.hours.val <<< 11 ||| d.minutes.val <<< 5 ||| d.seconds.val / 2)

def checkName (name : String) : Except ZipError (List UInt8) :=
  if name = "" ∨ name.toList.head? = some '/' ∨ '\\' ∈ name.toList ∨
      (name.toList.splitOn '/').any (fun p => p == ['.', '.'] || p == ['.'] || p == []) then
    .error (.error ("Invalid ZIP entry name: " ++ .ofList (Json.quote name)))
  else .ok (utf8 name)

def ZipEntry.raw (e : ZipEntry) : List UInt8 :=
  match e.data with
  | .buffer data => data
  | .text data => utf8 data

def ZipEntry.deflate (e : ZipEntry) : Bool := e.compress.getD (!storedExt e.name)

/-- What is stored of an entry. -/
def ZipEntry.body (z : Zlib) (e : ZipEntry) : List UInt8 :=
  if e.deflate then z.deflateRawSync e.raw else e.raw

def ZipEntry.written (z : Zlib) (now : JsDate) (offset : Nat) (e : ZipEntry) : Written where
  name := utf8 e.name
  method := if e.deflate then 8 else 0
  date := (dosDateTime (e.date.getD now)).1
  time := (dosDateTime (e.date.getD now)).2
  crc := (z.crc32 e.raw).toNat
  csize := (e.body z).length
  usize := e.raw.length
  offset

/-! ## Records -/

def u16 (value : Nat) : Field := ⟨2, value⟩

def u32 (value : Nat) : Field := ⟨4, value⟩

def u64 (value : Nat) : Field := ⟨8, value⟩

def writeRecord (fs : List Field) : Except ZipError (List UInt8) :=
  if ∀ f ∈ fs, f.Fits then .ok (bytes fs) else .error .outOfRange

/-- Records that are only put out in a ZIP64 archive. -/
def recordsIf (zip64 : Bool) (records : Except ZipError (List UInt8)) :
    Except ZipError (List UInt8) :=
  if zip64 then records else .ok []

def localHeader (w : Written) : List Field :=
  [u32 0x04034b50, u16 20, u16 0x0800, u16 w.method, u16 w.time, u16 w.date, u32 w.crc, u32 w.csize,
    u32 w.usize,
    u16 w.name.length, u16 0]

/-- The ZIP64 extended information of an entry: its offset. -/
def zip64Extra (w : Written) : List Field := [u16 0x0001, u16 8, u64 w.offset]

def centralHeader (w : Written) (zip64 : Bool) (extraLength : Nat) : List Field :=
  [u32 0x02014b50, u16 (if zip64 then 0x032d else 0x0314), u16 (if zip64 then 45 else 20),
    u16 0x0800, u16 w.method,
    u16 w.time, u16 w.date, u32 w.crc, u32 w.csize, u32 w.usize, u16 w.name.length, u16 extraLength,
    u16 0, u16 0, u16 0, u32 0x81a40000, u32 (if zip64 then U32_MAX else w.offset)]

def zip64EndRecord (entries cdSize cdStart : Nat) : List Field :=
  [u32 0x06064b50, u64 44, u16 0x032d, u16 45, u32 0, u32 0, u64 entries, u64 entries, u64 cdSize,
    u64 cdStart]

def zip64Locator (offset : Nat) : List Field := [u32 0x07064b50, u32 0, u64 offset, u32 1]

def endRecord (entries cdSize cdStart : Nat) : List Field :=
  [u32 0x06054b50, u16 0, u16 0, u16 entries, u16 entries, u32 cdSize, u32 cdStart, u16 0]

/-! ## The stream -/

section

variable (z : Zlib) (clock : Nat → JsDate) (opts : Zip64At)

def offsetLimit : Rat := min U32_MAX (opts.offset.getD U32_MAX)

def entryLimit : Rat := min U16_MAX (opts.entries.getD U16_MAX)

/-- What `generate` has put out and noted. -/
structure Generated where
  out : List UInt8 := []
  written : List Written := []
  seen : List String := []
  offset : Nat := 0

/-- One entry; `clock` says what `new Date()` is when it comes. -/
def writeEntry (g : Generated) (e : ZipEntry) : Except ZipError Generated := do
  if e.name ∈ g.seen then throw (.error ("Duplicate ZIP entry name: " ++ e.name))
  let name ← checkName e.name
  let w := e.written z (clock g.written.length) g.offset
  if MAX_ENTRY_BYTES < (e.body z).length ∨ MAX_ENTRY_BYTES < e.raw.length then
    throw (.error ("ZIP entry larger than 4 GiB: " ++ e.name))
  let h ← writeRecord (localHeader w)
  return { out := g.out ++ (h ++ name ++ e.body z), written := g.written ++ [w], seen := e.name :: g.seen,
           offset := toNumber (g.offset + (30 + name.length + (e.body z).length)) }

/-- An entry starts beyond the limit. -/
def startsBeyond (w : Written) : Bool := decide (offsetLimit opts ≤ w.offset)

/-- One entry of the central directory; what is put out, and where it ends. -/
def writeCentral (g : List UInt8 × Nat) (w : Written) : Except ZipError (List UInt8 × Nat) := do
  let zip64 := startsBeyond opts w
  let extra ← recordsIf zip64 (writeRecord (zip64Extra w))
  let c ← writeRecord (centralHeader w zip64 extra.length)
  return (g.1 ++ (c ++ w.name ++ extra), toNumber (g.2 + (46 + w.name.length + extra.length)))

/-- What follows the central directory, which ends at `offset`. -/
def writeEnd (entries cdStart offset : Nat) : Except ZipError (List UInt8) := do
  let cdSize := toNumber (offset - cdStart)
  let startBeyond := decide (offsetLimit opts ≤ cdStart)
  let sizeBeyond := decide (offsetLimit opts ≤ cdSize)
  let many := decide (entryLimit opts ≤ entries)
  let needZip64 := startBeyond || sizeBeyond || many
  let zip64 ← recordsIf needZip64 do
    let record ← writeRecord (zip64EndRecord entries cdSize cdStart)
    let loc ← writeRecord (zip64Locator offset)
    return record ++ loc
  let last ← writeRecord (endRecord (if needZip64 && many then U16_MAX else entries)
    (if needZip64 && sizeBeyond then U32_MAX else cdSize) (if needZip64 && startBeyond then U32_MAX
      else cdStart))
  return zip64 ++ last

def zipStream (entries : List ZipEntry) : Except ZipError (List UInt8) := do
  let g ← entries.foldlM (writeEntry z clock) {}
  let (out, offset) ← g.written.foldlM (writeCentral opts) (g.out, g.offset)
  let last ← writeEnd opts g.written.length g.offset offset
  return out ++ last

/-! ## The bytes of an archive -/

/-- The entries with what is noted of them, from a position on. -/
def placed : Nat → Nat → List ZipEntry → List (ZipEntry × Written)
  | _, _, [] => []
  | count, offset, e :: es =>
    (e, e.written z (clock count) offset) ::
      placed (count + 1) (offset + (30 + (utf8 e.name).length + (e.body z).length)) es

def localPart (p : ZipEntry × Written) : List UInt8 :=
  bytes (localHeader p.2) ++ p.2.name ++ p.1.body z

def extraPart (w : Written) : List UInt8 := if startsBeyond opts w then bytes (zip64Extra w) else []

def centralPart (w : Written) : List UInt8 :=
  bytes (centralHeader w (startsBeyond opts w) (extraPart opts w).length) ++ w.name ++
  extraPart opts w

def locals (entries : List ZipEntry) : List UInt8 :=
  (placed z clock 0 0 entries).flatMap (localPart z)

def zip64Part (entries cdStart offset : Nat) : List UInt8 :=
  bytes (zip64EndRecord entries (offset - cdStart) cdStart) ++ bytes (zip64Locator offset)

/-- A count or position as the end record has it. -/
def escaped (mark value : Nat) (beyond : Bool) : Nat := if beyond then mark else value

def startBeyond (cdStart : Nat) : Bool := decide (offsetLimit opts ≤ cdStart)

def many (entries : Nat) : Bool := decide (entryLimit opts ≤ entries)

def needZip64 (entries cdStart offset : Nat) : Bool :=
  startBeyond opts cdStart || startBeyond opts (offset - cdStart) || many opts entries

def endPart (entries cdStart offset : Nat) : List UInt8 :=
  (if needZip64 opts entries cdStart offset then zip64Part entries cdStart offset else []) ++
    bytes (endRecord (escaped U16_MAX entries (many opts entries))
      (escaped U32_MAX (offset - cdStart) (startBeyond opts (offset - cdStart)))
      (escaped U32_MAX cdStart (startBeyond opts cdStart)))

def directory (entries : List ZipEntry) : List UInt8 :=
  (placed z clock 0 0 entries).flatMap fun p => centralPart opts p.2

def archive (entries : List ZipEntry) : List UInt8 :=
  locals z clock entries ++ (directory z clock opts entries ++
    endPart opts entries.length (locals z clock entries).length
      ((locals z clock entries).length + (directory z clock opts entries).length))

end

/-! ## Numbers -/

theorem toNumber_exact {n : Nat} (h : n ≤ 2 ^ 53) : toNumber n = n := by
  rcases Nat.lt_or_eq_of_le h with hlt | rfl
  · have hunit : n.log2 - 52 = 0 := by
      rcases Nat.eq_zero_or_pos n with rfl | hpos
      · rfl
      · have := (Nat.log2_lt hpos.ne').2 hlt
        omega
    rw [toNumber, hunit]
    simp [Nat.mod_one]
  · decide +kernel

theorem dosDateTime_lt (d : JsDate) : (dosDateTime d).1 < 2 ^ 16 ∧ (dosDateTime d).2 < 2 ^ 16 := by
  cases d with
  | none => exact ⟨by decide, by decide⟩
  | some d =>
    constructor
    · refine Nat.or_lt_two_pow (Nat.or_lt_two_pow ?_ ?_) (by omega)
      · omega
      · omega
    · refine Nat.or_lt_two_pow (Nat.or_lt_two_pow ?_ ?_) (by omega)
      · omega
      · omega

/-! ## What is written -/

theorem writeRecord_eq {fs : List Field} (h : ∀ f ∈ fs, f.Fits) :
    writeRecord fs = .ok (bytes fs) := if_pos h

/-- What is noted of an entry fits its fields, the offset aside. -/
structure Written.Fits (w : Written) : Prop where
  name : w.name.length < 2 ^ 16
  method : w.method < 2 ^ 16
  date : w.date < 2 ^ 16
  time : w.time < 2 ^ 16
  crc : w.crc < 2 ^ 32
  csize : w.csize < U32_MAX
  usize : w.usize < U32_MAX

/-- What the writer asks of an entry, and what its name has to keep to. -/
structure ZipEntry.Accepted (z : Zlib) (e : ZipEntry) : Prop where
  name : checkName e.name = .ok (utf8 e.name)
  short : (utf8 e.name).length < 2 ^ 16
  raw : e.raw.length ≤ MAX_ENTRY_BYTES
  body : (e.body z).length ≤ MAX_ENTRY_BYTES

section

variable {z : Zlib} {clock : Nat → JsDate} {opts : Zip64At}

theorem ZipEntry.Accepted.fits {e : ZipEntry} (h : e.Accepted z) (now : JsDate) (offset : Nat) :
    (e.written z now offset).Fits where
  name := h.short
  method := by
    rw [ZipEntry.written]
    split <;> norm_num
  date := (dosDateTime_lt _).1
  time := (dosDateTime_lt _).2
  crc := (z.crc32 e.raw).toNat_lt
  csize := lt_of_le_of_lt h.body (by decide)
  usize := lt_of_le_of_lt h.raw (by decide)

variable {w : Written}

theorem Written.Fits.localHeader (h : w.Fits) : ∀ f ∈ localHeader w, f.Fits := by
  obtain ⟨hname, hmethod, hdate, htime, hcrc, hcsize, husize⟩ := h
  rw [U32_MAX] at hcsize husize
  simp only [Zip.localHeader, forall_mem_cons, Field.Fits, u16, u32]
  norm_num
  omega

theorem Written.Fits.centralHeader (h : w.Fits) {zip64 : Bool} {extraLength : Nat}
    (hoffset : zip64 = false → w.offset < U32_MAX) (hextra : extraLength ≤ 12) :
    ∀ f ∈ centralHeader w zip64 extraLength, f.Fits := by
  obtain ⟨hname, hmethod, hdate, htime, hcrc, hcsize, husize⟩ := h
  rw [U32_MAX] at hcsize husize hoffset
  simp only [Zip.centralHeader, forall_mem_cons, Field.Fits, u16, u32, U32_MAX]
  cases zip64 with
  | true =>
    norm_num
    omega
  | false =>
    have := hoffset rfl
    norm_num
    omega

theorem zip64Extra_fits (h : w.offset < 2 ^ 64) : ∀ f ∈ zip64Extra w, f.Fits := by
  simp only [zip64Extra, forall_mem_cons, Field.Fits, u16, u64]
  norm_num
  exact h

variable {offset : Nat}

theorem lt_of_not_beyond (h : ¬ offsetLimit opts ≤ offset) : offset < U32_MAX := by
  have hlt : (offset : Rat) < U32_MAX := lt_of_lt_of_le (not_le.1 h) (min_le_left _ _)
  exact_mod_cast hlt

variable {entries : Nat}

theorem lt_of_not_many (h : ¬ entryLimit opts ≤ entries) : entries < U16_MAX := by
  have hlt : (entries : Rat) < U16_MAX := lt_of_lt_of_le (not_le.1 h) (min_le_left _ _)
  exact_mod_cast hlt

variable (opts) in
theorem lt_of_startsBeyond (h : startsBeyond opts w = false) : w.offset < U32_MAX := by
  rw [startsBeyond, decide_eq_false_iff_not] at h
  exact lt_of_not_beyond h

theorem length_localPart (p : ZipEntry × Written) :
    (localPart z p).length = 30 + p.2.name.length + (p.1.body z).length := by
  simp [localPart, localHeader, u16, u32, add_assoc]

variable (opts) in
theorem length_extraPart_le (w : Written) : (extraPart opts w).length ≤ 12 := by
  rw [extraPart]
  split
  · simp [zip64Extra, u16, u64]
  · exact Nat.zero_le 12

theorem length_centralPart (w : Written) :
    (centralPart opts w).length = 46 + w.name.length + (extraPart opts w).length := by
  simp [centralPart, centralHeader, u16, u32, add_assoc]

/-- The state after an entry that is put out as it is laid out. -/
def Generated.add (z : Zlib) (clock : Nat → JsDate) (g : Generated) (e : ZipEntry) : Generated where
  out := g.out ++ localPart z (e, e.written z (clock g.written.length) g.offset)
  written := g.written ++ [e.written z (clock g.written.length) g.offset]
  seen := e.name :: g.seen
  offset := g.offset + (30 + (utf8 e.name).length + (e.body z).length)

theorem writeEntry_ok {g : Generated} {e : ZipEntry} (hnew : e.name ∉ g.seen) (he : e.Accepted z) :
    writeEntry z clock g e = .ok { g.add z clock e with
      offset := toNumber (g.offset + (30 + (utf8 e.name).length + (e.body z).length)) } := by
  have hsize : ¬ (MAX_ENTRY_BYTES < (e.body z).length ∨ MAX_ENTRY_BYTES < e.raw.length) :=
    not_or.2 ⟨not_lt.2 he.body, not_lt.2 he.raw⟩
  have hheader := writeRecord_eq (he.fits (clock g.written.length) g.offset).localHeader
  simp only [writeEntry, if_neg hnew, if_neg hsize, he.name, hheader, bind, Except.bind, pure, Except.pure]
  rfl

theorem writeEntry_eq {g : Generated} {e : ZipEntry} (hnew : e.name ∉ g.seen) (he : e.Accepted z)
    (hend : g.offset + (30 + (utf8 e.name).length + (e.body z).length) ≤ 2 ^ 53) :
    writeEntry z clock g e = .ok (g.add z clock e) := by
  rw [writeEntry_ok hnew he, toNumber_exact hend]
  rfl

theorem foldlM_writeEntry {es : List ZipEntry} {g : Generated} (hes : ∀ e ∈ es, e.Accepted z)
    (hnodup : (es.map (·.name)).Nodup) (hnew : ∀ e ∈ es, e.name ∉ g.seen)
    (hend : g.offset + ((placed z clock g.written.length g.offset es).flatMap
      (localPart z)).length ≤ 2 ^ 53) :
    ∃ seen, es.foldlM (writeEntry z clock) g = .ok
      { out := g.out ++ (placed z clock g.written.length g.offset es).flatMap (localPart z)
        written := g.written ++ (placed z clock g.written.length g.offset es).map (·.2)
        seen
        offset := g.offset + ((placed z clock g.written.length g.offset es).flatMap (localPart z)).length } := by
  induction es generalizing g with
  | nil => exact ⟨g.seen, by simp [placed, pure, Except.pure]⟩
  | cons e es ih =>
    rw [forall_mem_cons] at hes hnew
    rw [map_cons, nodup_cons] at hnodup
    rw [placed, flatMap_cons, length_append, length_localPart] at hend
    have hfirst : g.offset + (30 + (utf8 e.name).length + (e.body z).length) ≤ 2 ^ 53 := by
      refine le_trans (Nat.add_le_add_left ?_ _) hend
      exact Nat.le_add_right _ _
    have hstep : writeEntry z clock g e = .ok (g.add z clock e) := writeEntry_eq hnew.1 hes.1 hfirst
    have hfresh : ∀ e' ∈ es, e'.name ∉ e.name :: g.seen := by
      intro e' he' hmem
      rcases mem_cons.1 hmem with heq | hmem
      · exact hnodup.1 (heq ▸ mem_map_of_mem he')
      · exact hnew.2 e' he' hmem
    have hplaced : placed z clock (g.add z clock e).written.length (g.add z clock e).offset es =
        placed z clock (g.written.length + 1) (g.offset + (30 + (utf8 e.name).length + (e.body z).length)) es := by
      rw [Generated.add, length_append, length_singleton]
    obtain ⟨seen, hrest⟩ := ih (g := g.add z clock e) hes.2 hnodup.2 hfresh (by
      rw [hplaced, Generated.add, Nat.add_assoc]
      exact hend)
    refine ⟨seen, ?_⟩
    rw [foldlM_cons, hstep]
    refine hrest.trans ?_
    rw [hplaced, placed, flatMap_cons, length_append, length_localPart, Generated.add]
    simp only [append_assoc, singleton_append, Nat.add_assoc]
    rfl

theorem placed_spec {es : List ZipEntry} {count offset : Nat} {pre : List UInt8}
    (hpre : pre.length = offset)
    (rest : List UInt8) {p : ZipEntry × Written} (hp : p ∈ placed z clock count offset es) :
    p.1 ∈ es ∧ (∃ now, p.2 = p.1.written z now p.2.offset) ∧
      p.2.offset ≤ offset + ((placed z clock count offset es).flatMap (localPart z)).length ∧
      HoldsAt (pre ++ ((placed z clock count offset es).flatMap (localPart z) ++ rest)) p.2.offset
        (localPart z p) := by
  induction es generalizing count offset pre with
  | nil => exact absurd hp not_mem_nil
  | cons e es ih =>
    rw [placed] at hp ⊢
    rw [flatMap_cons, append_assoc]
    rcases mem_cons.1 hp with rfl | hp
    · refine ⟨mem_cons_self .., ⟨_, rfl⟩, Nat.le_add_right _ _, ?_⟩
      rw [← hpre]
      exact holdsAt_append pre _ _
    · have hlen : (pre ++ localPart z (e, e.written z (clock count) offset)).length =
          offset + (30 + (utf8 e.name).length + (e.body z).length) := by
        rw [length_append, length_localPart, hpre]
        rfl
      obtain ⟨hmem, hnow, hle, hholds⟩ := ih hlen hp
      refine ⟨mem_cons_of_mem _ hmem, hnow, ?_, ?_⟩
      · rw [length_append, length_localPart]
        refine le_trans hle (le_of_eq ?_)
        rw [Nat.add_assoc]
        rfl
      · rwa [append_assoc] at hholds

theorem map_fst_placed (es : List ZipEntry) (count offset : Nat) :
    (placed z clock count offset es).map (·.1) = es := by
  induction es generalizing count offset with
  | nil => rfl
  | cons e es ih => rw [placed, map_cons, ih]

theorem length_placed (es : List ZipEntry) (count offset : Nat) :
    (placed z clock count offset es).length = es.length := by
  rw [← length_map (fun p : ZipEntry × Written => p.1), map_fst_placed]

theorem length_le_flatMap (ps : List (ZipEntry × Written)) :
    ps.length ≤ (ps.flatMap (localPart z)).length := by
  induction ps with
  | nil => exact Nat.le_refl 0
  | cons =>
    rw [length_cons, flatMap_cons, length_append, length_localPart]
    omega

theorem writeCentral_eq (out : List UInt8) (hw : w.Fits) (hoffset : w.offset ≤ 2 ^ 53)
    (hend : offset + (centralPart opts w).length ≤ 2 ^ 53) :
    writeCentral opts (out, offset) w = .ok (out ++ centralPart opts w,
      offset + (centralPart opts w).length) := by
  have hfits := hw.centralHeader (lt_of_startsBeyond opts) (length_extraPart_le opts w)
  have hextra : recordsIf (startsBeyond opts w) (writeRecord (zip64Extra w)) = .ok (extraPart opts w) := by
    rw [extraPart, recordsIf]
    split
    · exact writeRecord_eq (zip64Extra_fits (lt_of_le_of_lt hoffset (by norm_num)))
    · rfl
  rw [length_centralPart] at hend ⊢
  simp only [writeCentral, hextra, writeRecord_eq hfits, toNumber_exact hend, bind, Except.bind,
    pure, Except.pure]
  rfl

theorem foldlM_writeCentral {ws : List Written} (out : List UInt8) (hws : ∀ w ∈ ws, w.Fits)
    (hoffsets : ∀ w ∈ ws, w.offset ≤ 2 ^ 53)
    (hend : offset + (ws.flatMap (centralPart opts)).length ≤ 2 ^ 53) :
    ws.foldlM (writeCentral opts) (out, offset) =
      .ok (out ++ ws.flatMap (centralPart opts), offset + (ws.flatMap (centralPart opts)).length) := by
  induction ws generalizing out offset with
  | nil => simp [pure, Except.pure]
  | cons w ws ih =>
    rw [forall_mem_cons] at hws hoffsets
    rw [flatMap_cons, length_append, ← Nat.add_assoc] at hend
    have hstep := writeCentral_eq out hws.1 hoffsets.1 (le_trans (Nat.le_add_right _ _) hend)
    rw [foldlM_cons, hstep]
    refine (ih _ hws.2 hoffsets.2 hend).trans ?_
    rw [flatMap_cons, length_append, append_assoc, Nat.add_assoc]

theorem zip64Part_fits {entries cdStart offset : Nat} (hentries : entries ≤ 2 ^ 53)
    (hle : cdStart ≤ offset) (hend : offset ≤ 2 ^ 53) :
    (∀ f ∈ zip64EndRecord entries (offset - cdStart) cdStart, f.Fits) ∧ ∀ f ∈ zip64Locator offset,
    f.Fits := by
  simp only [zip64EndRecord, zip64Locator, forall_mem_cons, Field.Fits, u16, u32, u64]
  norm_num
  omega

variable (opts) in
theorem endRecord_fits (entries cdSize cdStart : Nat) :
    ∀ f ∈ endRecord (escaped U16_MAX entries (many opts entries))
      (escaped U32_MAX cdSize (startBeyond opts cdSize))
      (escaped U32_MAX cdStart (startBeyond opts cdStart)), f.Fits := by
  have hcount : escaped U16_MAX entries (many opts entries) ≤ U16_MAX := by
    rw [escaped]
    split
    · exact le_rfl
    next h =>
      rw [many, decide_eq_true_eq] at h
      exact (lt_of_not_many h).le
  have hposition : ∀ position, escaped U32_MAX position (startBeyond opts position) ≤ U32_MAX := by
    intro position
    rw [escaped]
    split
    · exact le_rfl
    next h =>
      rw [startBeyond, decide_eq_true_eq] at h
      exact (lt_of_not_beyond h).le
  have hsize := hposition cdSize
  have hstart := hposition cdStart
  rw [U16_MAX] at hcount
  rw [U32_MAX] at hsize hstart
  simp only [endRecord, forall_mem_cons, Field.Fits, u16, u32, U16_MAX, U32_MAX]
  norm_num
  omega

variable (opts) in
theorem writeEnd_eq {entries cdStart offset : Nat} (hentries : entries ≤ 2 ^ 53)
    (hle : cdStart ≤ offset)
    (hend : offset ≤ 2 ^ 53) :
    writeEnd opts entries cdStart offset = .ok (endPart opts entries cdStart offset) := by
  obtain ⟨hrecord, hlocator⟩ := zip64Part_fits hentries hle hend
  have hlast := writeRecord_eq (endRecord_fits opts entries (offset - cdStart) cdStart)
  have hsize : toNumber (offset - cdStart) = offset - cdStart := toNumber_exact (by omega)
  have hzip64 : recordsIf (needZip64 opts entries cdStart offset) (do
      let record ← writeRecord (zip64EndRecord entries (offset - cdStart) cdStart)
      let loc ← writeRecord (zip64Locator offset)
      return record ++ loc) =
      .ok (if needZip64 opts entries cdStart offset then zip64Part entries cdStart offset else []) := by
    rw [writeRecord_eq hrecord, writeRecord_eq hlocator, recordsIf]
    split <;> rfl
  -- what is escaped in the end record makes a ZIP64 record needed
  have hmany : (needZip64 opts entries cdStart offset && many opts entries) = many opts entries := by
    rw [needZip64]
    cases many opts entries <;> simp
  have hsizeBeyond : (needZip64 opts entries cdStart offset &&
      startBeyond opts (offset - cdStart)) = startBeyond opts (offset - cdStart) := by
    rw [needZip64]
    cases startBeyond opts (offset - cdStart) <;> simp
  have hstartBeyond : (needZip64 opts entries cdStart offset && startBeyond opts cdStart) =
      startBeyond opts cdStart := by
    rw [needZip64]
    cases startBeyond opts cdStart <;> simp
  have hrun : writeEnd opts entries cdStart offset = (recordsIf (needZip64 opts entries cdStart offset) (do
      let record ← writeRecord (zip64EndRecord entries (offset - cdStart) cdStart)
      let loc ← writeRecord (zip64Locator offset)
      return record ++ loc) >>= fun zip64 => writeRecord (endRecord
        (escaped U16_MAX entries (needZip64 opts entries cdStart offset && many opts entries))
        (escaped U32_MAX (offset - cdStart)
          (needZip64 opts entries cdStart offset && startBeyond opts (offset - cdStart)))
        (escaped U32_MAX cdStart (needZip64 opts entries cdStart offset &&
          startBeyond opts cdStart))) >>= fun last =>
      pure (zip64 ++ last)) := by
    rw [writeEnd, hsize]
    rfl
  rw [hrun, hzip64, hmany, hsizeBeyond, hstartBeyond, hlast]
  rfl

theorem placed_locals {entries : List ZipEntry} {p : ZipEntry × Written}
    (hp : p ∈ placed z clock 0 0 entries)
    (rest : List UInt8) : p.1 ∈ entries ∧ (∃ now, p.2 = p.1.written z now p.2.offset) ∧
      p.2.offset ≤ (locals z clock entries).length ∧
      HoldsAt (locals z clock entries ++ rest) p.2.offset (localPart z p) := by
  obtain ⟨hmem, hnow, hle, hholds⟩ := placed_spec length_nil rest hp
  rw [Nat.zero_add] at hle
  exact ⟨hmem, hnow, hle, hholds⟩

theorem zipStream_eq {entries : List ZipEntry} (hes : ∀ e ∈ entries, e.Accepted z)
    (hnodup : (entries.map (·.name)).Nodup)
    (hend : (locals z clock entries).length + (directory z clock opts entries).length ≤ 2 ^ 53) :
    zipStream z clock opts entries = .ok (archive z clock opts entries) := by
  have hlocals : (locals z clock entries).length ≤ 2 ^ 53 := le_trans (Nat.le_add_right _ _) hend
  have hplaced : ∀ w ∈ (placed z clock 0 0 entries).map (·.2), w.Fits ∧ w.offset ≤ 2 ^ 53 := by
    intro w hw
    obtain ⟨p, hp, rfl⟩ := mem_map.1 hw
    obtain ⟨hmem, ⟨now, hnow⟩, hle, -⟩ := placed_locals hp []
    refine ⟨?_, le_trans hle hlocals⟩
    rw [hnow]
    exact (hes p.1 hmem).fits now p.2.offset
  have hdirectory : ((placed z clock 0 0 entries).map (·.2)).flatMap (centralPart opts) =
      directory z clock opts entries := flatMap_map ..
  have hwritten : ((placed z clock 0 0 entries).map (·.2)).length = entries.length := by
    rw [length_map, length_placed]
  have hcount : entries.length ≤ 2 ^ 53 := by
    rw [← hwritten, length_map]
    exact le_trans (length_le_flatMap _) hlocals
  obtain ⟨seen, hloop⟩ := foldlM_writeEntry (g := {}) hes hnodup (fun _ _ => not_mem_nil)
    (by rwa [Nat.zero_add])
  have hcentral := foldlM_writeCentral (locals z clock entries) (fun w hw => (hplaced w hw).1)
    (fun w hw => (hplaced w hw).2) (by rwa [hdirectory])
  have hlast := writeEnd_eq opts hcount (Nat.le_add_right _ _) hend
  rw [Nat.zero_add] at hloop
  rw [hdirectory] at hcentral
  rw [zipStream, hloop]
  change ((placed z clock 0 0 entries).map (·.2)).foldlM (writeCentral opts)
    (locals z clock entries, (locals z clock entries).length) >>= (fun r => writeEnd opts
      ((placed z clock 0 0 entries).map (·.2)).length (locals z clock entries).length r.2 >>= fun last =>
        pure (r.1 ++ last)) = _
  rw [hcentral, hwritten]
  change (writeEnd opts entries.length (locals z clock entries).length
    ((locals z clock entries).length + (directory z clock opts entries).length) >>= fun last =>
      pure (locals z clock entries ++ directory z clock opts entries ++ last)) = _
  rw [hlast, archive, ← append_assoc]
  rfl

end

end SmartProctoring.Zip
