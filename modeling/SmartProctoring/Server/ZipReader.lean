import SmartProctoring.Server.Zip

/-!
# Reading an archive

A reader of ZIP and ZIP64 archives, from the end record on: where a field of the end record or of
the directory is all ones, the ZIP64 field that belongs to it is taken.  `archive_reads_back` says
that it reads what `zipStream` puts out as what was put in; `largest_entry_refused` is an entry
below 4 GiB that is not put out at all, and an entry behind 2^53 bytes after which the position is
not that of the bytes.
-/

set_option autoImplicit false

namespace SmartProctoring.Zip

open ByteRecord
open List Option

/-! ## The reader -/

/-- A field, and the ZIP64 field that stands for it where it is all ones. -/
structure Escapable where
  raw : Nat
  zip64 : Option Nat

def Escapable.value (f : Escapable) : Nat := f.zip64.getD f.raw

/-- The field holds its value, or it is escaped and the ZIP64 field does. -/
def Escapable.Holds (f : Escapable) (mark value : Nat) : Prop :=
  (f = ⟨value, none⟩ ∧ value < mark) ∨ f = ⟨mark, some value⟩

/-- Where the central directory is. -/
structure Directory where
  count : Escapable
  size : Escapable
  start : Escapable

/-- An entry of the central directory. -/
structure CentralEntry where
  name : List UInt8
  method : Nat
  time : Nat
  date : Nat
  crc : Nat
  csize : Escapable
  usize : Escapable
  offset : Escapable

/-- An entry as it is read. -/
structure ReadEntry where
  name : String
  data : List UInt8
  central : CentralEntry

structure ReadArchive where
  directory : Directory
  entries : List ReadEntry

/-- The end record, if it is before a comment of this length at the end of the archive: its
position, count, size and start. -/
def endRecordBefore (zip : List UInt8) (comment : Nat) : Option (Nat × Nat × Nat × Nat) :=
  let position := zip.length - (22 + comment)
  match read [4, 2, 2, 2, 2, 4, 4, 2] (zip.drop position) with
  | some ([signature, disk, startDisk, count, total, size, start, commentLength], _) =>
    if signature = 0x06054b50 ∧ disk = 0 ∧ startDisk = 0 ∧ count = total ∧ commentLength = comment ∧
        22 + comment ≤ zip.length then
      some (position, count, size, start)
    else none
  | _ => none

def readEndRecord (zip : List UInt8) : Option (Nat × Nat × Nat × Nat) :=
  (List.range 65536).findSome? (endRecordBefore zip)

/-- The ZIP64 end record that the locator before the end record points to: its position, count, size
and start. -/
def readZip64EndRecord (zip : List UInt8) (position : Nat) : Option (Nat × Nat × Nat × Nat) :=
  if position < 20 then none
  else
    match read [4, 4, 8, 4] (zip.drop (position - 20)) with
    | some ([signature, disk, record, disks], _) =>
      if signature ≠ 0x07064b50 ∨ disk ≠ 0 ∨ disks ≠ 1 then none
      else
        match read [4, 8, 2, 2, 4, 4, 8, 8, 8, 8] (zip.drop record) with
        | some ([signature, length, _, _, disk, startDisk, count, total, size, start], _) =>
          if signature = 0x06064b50 ∧ length = 44 ∧ disk = 0 ∧ startDisk = 0 ∧ count = total then
            some (record, count, size, start)
          else none
        | _ => none
    | _ => none

def escapable (mark raw full : Nat) : Escapable := ⟨raw, if raw = mark then some full else none⟩

/-- The directory has to end where its end is described. -/
def readDirectory (zip : List UInt8) : Option Directory :=
  (readEndRecord zip).bind fun (position, count, size, start) =>
    if count = U16_MAX ∨ size = U32_MAX ∨ start = U32_MAX then
      (readZip64EndRecord zip position).bind fun (record, count', size', start') =>
        let d : Directory := ⟨escapable U16_MAX count count', escapable U32_MAX size size',
          escapable U32_MAX start start'⟩
        if d.count.value = count' ∧ d.size.value = size' ∧ d.start.value = start' ∧
          start' + size' = record then some d
        else none
    else if start + size = position then some ⟨⟨count, none⟩, ⟨size, none⟩, ⟨start, none⟩⟩
    else none

/-- The extra field of this id, if it is among the first ones. -/
def extraField (id : Nat) : Nat → List UInt8 → Option (List UInt8)
  | 0, _ => none
  | fuel + 1, bs =>
    match read [2, 2] bs with
    | some ([i, n], rest) =>
      if rest.length < n then none else if i = id then some (rest.take n) else extraField id fuel (rest.drop n)
    | _ => none

/-- A field of 32 bits, from the ZIP64 information if it is all ones. -/
def unescape (raw : Nat) (zip64 : List UInt8) : Option (Escapable × List UInt8) :=
  if raw = U32_MAX then
    match read [8] zip64 with
    | some ([value], rest) => some (⟨raw, some value⟩, rest)
    | _ => none
  else some (⟨raw, none⟩, zip64)

def readCentral (bs : List UInt8) : Option (CentralEntry × List UInt8) :=
  match read [4, 2, 2, 2, 2, 2, 2, 4, 4, 4, 2, 2, 2, 2, 2, 4, 4] bs with
  | some ([signature, _, _, flags, method, time, date, crc, csize, usize, nameLength, extraLength,
      commentLength, disk, _, _, offset], rest) =>
    if signature ≠ 0x02014b50 ∨ flags ≠ 0x0800 ∨ disk ≠ 0 ∨
      rest.length < nameLength + extraLength + commentLength then none
    else
      let extra := (rest.drop nameLength).take extraLength
      let zip64 := (extraField 0x0001 extra.length extra).getD []
      -- the order of the fields in the ZIP64 information
      (unescape usize zip64).bind fun (usize, zip64) =>
        (unescape csize zip64).bind fun (csize, zip64) =>
          (unescape offset zip64).map fun (offset, _) =>
            (⟨rest.take nameLength, method, time, date, crc, csize, usize, offset⟩,
              rest.drop (nameLength + extraLength + commentLength))
  | _ => none

section

variable (crc32 : List UInt8 → UInt32) (inflate : List UInt8 → Option (List UInt8))

/-- The data at the local header, which has to agree with the directory. -/
def readLocal (zip : List UInt8) (c : CentralEntry) : Option ReadEntry :=
  match read [4, 2, 2, 2, 2, 2, 4, 4, 4, 2, 2] (zip.drop c.offset.value) with
  | some ([signature, _, flags, method, time, date, crc, csize, usize, nameLength, extraLength], rest) =>
    let body := (rest.drop (nameLength + extraLength)).take csize
    if signature = 0x04034b50 ∧ flags = 0x0800 ∧ method = c.method ∧ time = c.time ∧ date = c.date ∧ crc = c.crc ∧
        csize = c.csize.value ∧ usize = c.usize.value ∧ rest.take nameLength = c.name ∧ body.length = csize then
      (if method = 0 then some body else if method = 8 then inflate body else none).bind fun data =>
        if data.length = usize ∧ (crc32 data).toNat = crc then
          (String.fromUTF8? ⟨c.name.toArray⟩).map fun name => ⟨name, data, c⟩
        else none
    else none
  | _ => none

def readZip (zip : List UInt8) : Option ReadArchive :=
  (readDirectory zip).bind fun d =>
    (readMany readCentral d.count.value (zip.drop d.start.value)).bind fun (cs, rest) =>
      if d.start.value + d.size.value + rest.length = zip.length then
        (cs.mapM (readLocal crc32 inflate zip)).map fun entries => ⟨d, entries⟩
      else none

end

/-! ## Reading what is written -/

theorem fromUTF8?_utf8 (s : String) : String.fromUTF8? ⟨(utf8 s).toArray⟩ = some s :=
  dif_pos s.isValidUTF8

section

variable {z : Zlib} {opts : Zip64At}

/-- An entry of the directory as it is read. -/
def central (opts : Zip64At) (w : Written) : CentralEntry where
  name := w.name
  method := w.method
  time := w.time
  date := w.date
  crc := w.crc
  csize := ⟨w.csize, none⟩
  usize := ⟨w.usize, none⟩
  offset := if startsBeyond opts w then ⟨U32_MAX, some w.offset⟩ else ⟨w.offset, none⟩

variable (opts) in
theorem central_offset (w : Written) : (central opts w).offset.Holds U32_MAX w.offset := by
  rw [central]
  split
  · exact .inr rfl
  next h => exact .inl ⟨rfl, lt_of_startsBeyond opts (Bool.not_eq_true _ ▸ h)⟩

theorem unescape_plain {raw : Nat} (h : raw < U32_MAX) (zip64 : List UInt8) :
    unescape raw zip64 = some (⟨raw, none⟩, zip64) := if_neg h.ne

theorem extraField_zip64Extra (w : Written) :
    extraField 1 12 (bytes (zip64Extra w)) = some (bytes [u64 w.offset]) := by
  have hfits : ∀ f ∈ [u16 0x0001, u16 8], f.Fits := by decide
  have hread : read [2, 2] (bytes (zip64Extra w)) = some ([1, 8], bytes [u64 w.offset]) :=
    read_bytes hfits (bytes [u64 w.offset])
  have hlen : (bytes [u64 w.offset]).length = 8 := length_bytes _
  rw [extraField, hread]
  dsimp only
  rw [hlen, if_neg (Nat.lt_irrefl 8), if_pos rfl, take_of_length_le hlen.le]

variable {w : Written}

theorem unescape_offset (h : w.offset < 2 ^ 64) :
    unescape U32_MAX (bytes [u64 w.offset]) = some (⟨U32_MAX, some w.offset⟩, []) := by
  have hfits : ∀ f ∈ [u64 w.offset], f.Fits := by
    rintro f hf
    rw [mem_singleton.1 hf]
    exact h
  have hread : read [8] (bytes [u64 w.offset] ++ []) = some ([w.offset], []) := read_bytes hfits []
  rw [append_nil] at hread
  rw [unescape, if_pos rfl, hread]

theorem readCentral_centralPart (hw : w.Fits) (hoffset : w.offset < 2 ^ 64) (rest : List UInt8) :
    readCentral (centralPart opts w ++ rest) = some (central opts w, rest) := by
  have hread : read [4, 2, 2, 2, 2, 2, 2, 4, 4, 4, 2, 2, 2, 2, 2, 4,
      4] (centralPart opts w ++ rest) = some
      ([0x02014b50, if startsBeyond opts w then 0x032d else 0x0314,
        if startsBeyond opts w then 45 else 20, 0x0800,
        w.method, w.time, w.date, w.crc, w.csize, w.usize, w.name.length, (extraPart opts w).length,
        0, 0, 0, 0x81a40000,
        if startsBeyond opts w then U32_MAX else w.offset],
          w.name ++ (extraPart opts w ++ rest)) := by
    rw [centralPart, append_assoc]
    exact read_bytes (hw.centralHeader (lt_of_startsBeyond opts) (length_extraPart_le opts w)) _
  have hextra : ((w.name ++ (extraPart opts w ++ rest)).drop w.name.length).take
      (extraPart opts w).length = extraPart opts w := by
    rw [drop_left, take_left]
  have hlong : ¬ (w.name ++ (extraPart opts w ++ rest)).length <
      w.name.length + (extraPart opts w).length + 0 := by
    rw [length_append, length_append]
    omega
  have hdrop : (w.name ++ (extraPart opts w ++ rest)).drop
      (w.name.length + (extraPart opts w).length + 0) = rest := by
    rw [Nat.add_zero, ← append_assoc, ← length_append, drop_left]
  have hvalid : ¬ (0x02014b50 ≠ 0x02014b50 ∨ 0x0800 ≠ 0x0800 ∨ 0 ≠ 0 ∨
      (w.name ++ (extraPart opts w ++ rest)).length < w.name.length + (extraPart opts w).length + 0) := by
    rintro (h | h | h | h)
    · exact h rfl
    · exact h rfl
    · exact h rfl
    · exact hlong h
  rw [readCentral, hread]
  dsimp only
  rw [if_neg hvalid, hextra, unescape_plain hw.usize, bind_some, unescape_plain hw.csize,
    bind_some, hdrop, take_left]
  cases hbeyond : startsBeyond opts w with
  | true =>
    have hpart : extraPart opts w = bytes (zip64Extra w) := by rw [extraPart, hbeyond, if_pos rfl]
    have hlen : (extraPart opts w).length = 12 := by rw [hpart]; rfl
    rw [hlen, hpart, extraField_zip64Extra, getD_some, if_pos rfl, unescape_offset hoffset,
      map_some, central, hbeyond, if_pos rfl]
  | false =>
    rw [if_neg Bool.false_ne_true, unescape_plain (lt_of_startsBeyond opts hbeyond), map_some,
      central, hbeyond,
      if_neg Bool.false_ne_true]

theorem readLocal_localPart {zip : List UInt8} {e : ZipEntry}
    {inflate : List UInt8 → Option (List UInt8)}
    (hinflate : ∀ data, inflate (z.deflateRawSync data) = some data) (he : e.Accepted z)
    {now : JsDate}
    (hw : w = e.written z now w.offset) (hzip : HoldsAt zip w.offset (localPart z (e, w))) :
    readLocal z.crc32 inflate zip (central opts w) = some ⟨e.name, e.raw, central opts w⟩ := by
  obtain ⟨rest, hrest⟩ := hzip
  have hfits : w.Fits := by
    rw [hw]
    exact he.fits now w.offset
  have hoffset : (central opts w).offset.value = w.offset := by
    rcases central_offset opts w with ⟨h, -⟩ | h
    · rw [h]
      rfl
    · rw [h]
      rfl
  have hcsize : (e.body z).length = w.csize := by
    rw [hw]
    rfl
  have hread : read [4, 2, 2, 2, 2, 2, 4, 4, 4, 2, 2] (zip.drop w.offset) = some
      ([0x04034b50, 20, 0x0800, w.method, w.time, w.date, w.crc, w.csize, w.usize, w.name.length, 0],
        w.name ++ (e.body z ++ rest)) := by
    rw [hrest, localPart, append_assoc]
    exact read_bytes hfits.localHeader _
  have hbody : ((w.name ++ (e.body z ++ rest)).drop (w.name.length + 0)).take w.csize = e.body z := by
    rw [Nat.add_zero, drop_left, take_left' hcsize]
  have hname : (w.name ++ (e.body z ++ rest)).take w.name.length = w.name := take_left
  have hdata : (if w.method = 0 then some (e.body z) else if w.method = 8 then inflate (e.body z)
      else none) = some e.raw := by
    have hmethod : w.method = if e.deflate then 8 else 0 := by rw [hw, ZipEntry.written]
    rw [hmethod, ZipEntry.body]
    by_cases hdeflate : e.deflate = true
    · rw [if_pos hdeflate, if_pos hdeflate]
      exact hinflate e.raw
    · rw [if_neg hdeflate, if_neg hdeflate]
      rfl
  have hcheck : e.raw.length = w.usize ∧ (z.crc32 e.raw).toNat = w.crc := by
    rw [hw]
    exact ⟨rfl, rfl⟩
  have hutf8 : String.fromUTF8? ⟨w.name.toArray⟩ = some e.name := by
    rw [hw]
    exact fromUTF8?_utf8 e.name
  rw [readLocal, hoffset, hread]
  dsimp only
  rw [hbody, hname, if_pos ⟨rfl, rfl, rfl, rfl, rfl, rfl, rfl, rfl, rfl, hcsize⟩, hdata, bind_some,
    if_pos hcheck]
  change (String.fromUTF8? ⟨w.name.toArray⟩).map _ = _
  rw [hutf8, map_some]

theorem findSome?_range {α : Type} {f : Nat → Option α} {x : α} (h : f 0 = some x) (n : Nat) :
    (range (n + 1)).findSome? f = some x := by
  rw [range_succ_eq_map, findSome?_cons, h]

theorem readEndRecord_append (pre : List UInt8) {count size start : Nat}
    (hfits : ∀ f ∈ endRecord count size start, f.Fits) :
    readEndRecord (pre ++ bytes (endRecord count size start)) = some (pre.length, count, size, start) := by
  have hlen : (pre ++ bytes (endRecord count size start)).length = pre.length + 22 := by
    rw [length_append]
    rfl
  have hread : read [4, 2, 2, 2, 2, 4, 4, 2] (bytes (endRecord count size start) ++ []) =
      some ([0x06054b50, 0, 0, count, count, size, start, 0], []) := read_bytes hfits []
  have hposition : pre.length + 22 - (22 + 0) = pre.length := by omega
  rw [append_nil] at hread
  refine findSome?_range ?_ 65535
  rw [endRecordBefore, hlen, hposition, drop_left, hread]
  exact if_pos ⟨rfl, rfl, rfl, rfl, rfl, by omega⟩

theorem readZip64EndRecord_append (pre rest : List UInt8) {count cdStart : Nat}
    (hcount : count ≤ 2 ^ 53) (hle : cdStart ≤ pre.length) (hend : pre.length ≤ 2 ^ 53) :
    readZip64EndRecord (pre ++ (zip64Part count cdStart pre.length ++ rest))
      (pre.length + (zip64Part count cdStart pre.length).length) =
      some (pre.length, count, pre.length - cdStart, cdStart) := by
  obtain ⟨hrecord, hlocator⟩ := zip64Part_fits hcount hle hend
  have hlen' : (bytes (zip64Locator pre.length)).length = 20 := length_bytes _
  have hposition : pre.length + (zip64Part count cdStart pre.length).length - 20 =
      (pre ++ bytes (zip64EndRecord count (pre.length - cdStart) cdStart)).length := by
    rw [zip64Part, length_append, length_append]
    omega
  have hlong : ¬ pre.length + (zip64Part count cdStart pre.length).length < 20 := by
    rw [zip64Part, length_append]
    omega
  have hread₁ : read [4, 4, 8, 4] ((pre ++ (zip64Part count cdStart pre.length ++ rest)).drop
      (pre.length + (zip64Part count cdStart pre.length).length - 20)) =
      some ([0x07064b50, 0, pre.length, 1], rest) := by
    rw [hposition, zip64Part, append_assoc, ← append_assoc pre, drop_left]
    exact read_bytes hlocator rest
  have hread₂ : read [4, 8, 2, 2, 4, 4, 8, 8, 8, 8] ((pre ++ (zip64Part count cdStart pre.length ++ rest)).drop
      pre.length) = some ([0x06064b50, 44, 0x032d, 45, 0, 0, count, count, pre.length - cdStart, cdStart],
        bytes (zip64Locator pre.length) ++ rest) := by
    rw [drop_left]
    exact read_bytes hrecord _
  rw [readZip64EndRecord, if_neg hlong, hread₁]
  dsimp only
  rw [if_neg (by decide), hread₂]
  exact if_pos ⟨rfl, rfl, rfl, rfl, rfl⟩

/-! ## The archive -/

theorem Escapable.Holds.value {f : Escapable} {mark value : Nat} (h : f.Holds mark value) :
    f.value = value := by
  rcases h with ⟨rfl, -⟩ | rfl
  · rfl
  · rfl

theorem escapable_escaped {mark value : Nat} {beyond : Bool} (h : beyond = false → value < mark) :
    (escapable mark (escaped mark value beyond) value).Holds mark value ∧
      (escaped mark value beyond = mark ↔ beyond = true) := by
  cases beyond with
  | true => exact ⟨.inr (by rw [escapable, escaped, if_pos rfl, if_pos rfl]), by simp [escaped]⟩
  | false =>
    have hlt := h rfl
    refine ⟨.inl ⟨?_, hlt⟩, ?_⟩
    · rw [escapable, escaped, if_neg Bool.false_ne_true, if_neg hlt.ne]
    · rw [escaped]
      simp [hlt.ne]

variable (opts) in
theorem startBeyond_lt (position : Nat) (h : startBeyond opts position = false) :
    position < U32_MAX := by
  rw [startBeyond, decide_eq_false_iff_not] at h
  exact lt_of_not_beyond h

variable (opts) in
theorem many_lt (entries : Nat) (h : many opts entries = false) : entries < U16_MAX := by
  rw [many, decide_eq_false_iff_not] at h
  exact lt_of_not_many h

variable (opts) in
theorem readDirectory_append (pre : List UInt8) {count cdStart : Nat} (hcount : count ≤ 2 ^ 53)
    (hle : cdStart ≤ pre.length) (hend : pre.length ≤ 2 ^ 53) :
    ∃ d, readDirectory (pre ++ endPart opts count cdStart pre.length) = some d ∧ d.count.Holds U16_MAX count ∧
      d.size.Holds U32_MAX (pre.length - cdStart) ∧ d.start.Holds U32_MAX cdStart := by
  obtain ⟨hcountHolds, hcountMark⟩ := escapable_escaped (many_lt opts count)
  obtain ⟨hsizeHolds, hsizeMark⟩ := escapable_escaped (startBeyond_lt opts (pre.length - cdStart))
  obtain ⟨hstartHolds, hstartMark⟩ := escapable_escaped (startBeyond_lt opts cdStart)
  have hfits := endRecord_fits opts count (pre.length - cdStart) cdStart
  have hmark : (escaped U16_MAX count (many opts count) = U16_MAX ∨
      escaped U32_MAX (pre.length - cdStart) (startBeyond opts (pre.length - cdStart)) = U32_MAX ∨
      escaped U32_MAX cdStart (startBeyond opts cdStart) = U32_MAX) ↔
      needZip64 opts count cdStart pre.length = true := by
    rw [hcountMark, hsizeMark, hstartMark, needZip64, Bool.or_eq_true, Bool.or_eq_true]
    constructor
    · rintro (hmany | hsize | hstart)
      exacts [.inr hmany, .inl (.inr hsize), .inl (.inl hstart)]
    · rintro ((hstart | hsize) | hmany)
      exacts [.inr (.inr hstart), .inr (.inl hsize), .inl hmany]
  cases hneed : needZip64 opts count cdStart pre.length with
  | true =>
    have hrecord := readEndRecord_append (pre ++ zip64Part count cdStart pre.length) hfits
    have hzip64 := readZip64EndRecord_append pre (bytes (endRecord (escaped U16_MAX count (many opts count))
      (escaped U32_MAX (pre.length - cdStart) (startBeyond opts (pre.length - cdStart)))
      (escaped U32_MAX cdStart (startBeyond opts cdStart)))) hcount hle hend
    rw [append_assoc, length_append] at hrecord
    refine ⟨⟨escapable U16_MAX (escaped U16_MAX count (many opts count)) count,
      escapable U32_MAX (escaped U32_MAX (pre.length - cdStart)
        (startBeyond opts (pre.length - cdStart)))
        (pre.length - cdStart),
          escapable U32_MAX (escaped U32_MAX cdStart (startBeyond opts cdStart)) cdStart⟩, ?_,
      hcountHolds, hsizeHolds, hstartHolds⟩
    rw [readDirectory, endPart, hneed, if_pos rfl, hrecord, bind_some]
    dsimp only
    rw [if_pos (hmark.2 hneed), hzip64, bind_some]
    exact if_pos ⟨hcountHolds.value, hsizeHolds.value, hstartHolds.value, Nat.add_sub_cancel' hle⟩
  | false =>
    have hrecord := readEndRecord_append pre hfits
    have hplain : ¬ needZip64 opts count cdStart pre.length = true := by
      rw [hneed]
      exact Bool.false_ne_true
    obtain ⟨hcountPlain, hsizePlain, hstartPlain⟩ :
        many opts count = false ∧ startBeyond opts (pre.length - cdStart) = false ∧
        startBeyond opts cdStart = false := by
      rw [needZip64, Bool.or_eq_false_iff, Bool.or_eq_false_iff] at hneed
      exact ⟨hneed.2, hneed.1.2, hneed.1.1⟩
    refine ⟨⟨⟨count, none⟩, ⟨pre.length - cdStart, none⟩, ⟨cdStart, none⟩⟩, ?_,
      .inl ⟨rfl, many_lt opts count hcountPlain⟩,
      .inl ⟨rfl, startBeyond_lt opts _ hsizePlain⟩, .inl ⟨rfl, startBeyond_lt opts _ hstartPlain⟩⟩
    rw [readDirectory, endPart, if_neg hplain, nil_append, hrecord, bind_some]
    dsimp only
    rw [if_neg (hmark.not.2 hplain), hcountPlain, hsizePlain, hstartPlain]
    exact if_pos (Nat.add_sub_cancel' hle)

/-- An entry as it was put in, with its local header where the directory says. -/
structure ReadsAs (z : Zlib) (zip : List UInt8) (e : ZipEntry) (r : ReadEntry) : Prop where
  name : r.name = e.name
  data : r.data = e.raw
  usize : r.central.usize.Holds U32_MAX e.raw.length
  csize : r.central.csize.Holds U32_MAX (e.body z).length
  crc : r.central.crc = (z.crc32 e.raw).toNat
  header : ∃ now offset, r.central.offset.Holds U32_MAX offset ∧
    (r.central.date, r.central.time) = dosDateTime (e.date.getD now) ∧
    (∀ f ∈ localHeader (e.written z now offset), f.Fits) ∧
    HoldsAt zip offset (bytes (localHeader (e.written z now offset)) ++ utf8 e.name ++ e.body z)

/-- An entry as it is read. -/
def readEntry (opts : Zip64At) (p : ZipEntry × Written) : ReadEntry :=
  ⟨p.1.name, p.1.raw, central opts p.2⟩

theorem readsAs_placed {zip : List UInt8} {e : ZipEntry} (he : e.Accepted z) {now : JsDate}
    (hw : w = e.written z now w.offset) (hzip : HoldsAt zip w.offset (localPart z (e, w))) :
    ReadsAs z zip e ⟨e.name, e.raw, central opts w⟩ := by
  have hfits := he.fits now w.offset
  refine ⟨rfl, rfl, .inl ⟨?_, hfits.usize⟩, .inl ⟨?_, hfits.csize⟩, ?_, now, w.offset,
    central_offset opts w, ?_,
    hfits.localHeader, ?_⟩
  · rw [hw]
    rfl
  · rw [hw]
    rfl
  · rw [hw]
    rfl
  · rw [hw]
    rfl
  · have hname : w.name = utf8 e.name := by
      rw [hw]
      rfl
    rw [localPart, hname] at hzip
    rw [← hw]
    exact hzip

end

theorem mapM_map_some {α β γ : Type} {l : List α} {value : α → β} {f : β → Option γ}
    {result : α → γ}
    (h : ∀ a ∈ l, f (value a) = some (result a)) : (l.map value).mapM f = some (l.map result) := by
  induction l with
  | nil => rfl
  | cons a l ih =>
    rw [forall_mem_cons] at h
    rw [map_cons, mapM_cons, h.1, ih h.2]
    rfl

section

variable {z : Zlib} {clock : Nat → JsDate} (opts : Zip64At) {entries : List ZipEntry}

theorem placed_archive (hes : ∀ e ∈ entries, e.Accepted z) {p : ZipEntry × Written}
    (hp : p ∈ placed z clock 0 0 entries) : p.1.Accepted z ∧
      (∃ now, p.2 = p.1.written z now p.2.offset) ∧ p.2.offset ≤ (locals z clock entries).length ∧
      HoldsAt (archive z clock opts entries) p.2.offset (localPart z p) := by
  obtain ⟨hmem, hnow, hle, hholds⟩ := placed_locals hp (directory z clock opts entries ++
    endPart opts entries.length (locals z clock entries).length
      ((locals z clock entries).length + (directory z clock opts entries).length))
  exact ⟨hes p.1 hmem, hnow, hle, hholds⟩

theorem readMany_directory (hes : ∀ e ∈ entries, e.Accepted z)
    (hend : (locals z clock entries).length ≤ 2 ^ 53)
    (rest : List UInt8) :
      readMany readCentral entries.length (directory z clock opts entries ++ rest) =
      some ((placed z clock 0 0 entries).map fun p => central opts p.2, rest) := by
  have hread : ∀ p ∈ placed z clock 0 0 entries, ∀ rest,
      readCentral (centralPart opts p.2 ++ rest) = some (central opts p.2, rest) := by
    intro p hp rest
    obtain ⟨he, ⟨now, hw⟩, hoffset, -⟩ := placed_archive opts hes hp
    refine readCentral_centralPart ?_ (lt_of_le_of_lt (le_trans hoffset hend) (by norm_num)) rest
    rw [hw]
    exact he.fits now p.2.offset
  have hmany := readMany_flatMap hread rest
  rwa [length_placed] at hmany

end

/-- **What is put out reads back.**  Entries of at most `MAX_ENTRY_BYTES`, under accepted names of
their own below 64 KiB, make an archive, whatever the thresholds of ZIP64, as long as positions are
exact numbers.  The reader gets the entries in their order, each with its local header where its
offset says; counts, sizes and positions are in their fields, or escaped to the ZIP64 fields. -/
theorem archive_reads_back (z : Zlib) (inflate : List UInt8 → Option (List UInt8))
    (hinflate : ∀ data, inflate (z.deflateRawSync data) = some data) (clock : Nat → JsDate)
    (opts : Zip64At)
    {entries : List ZipEntry} (hes : ∀ e ∈ entries, e.Accepted z)
    (hnodup : (entries.map (·.name)).Nodup)
    (hend : (locals z clock entries).length + (directory z clock opts entries).length ≤ 2 ^ 53) :
    ∃ zip r, zipStream z clock opts entries = .ok zip ∧ readZip z.crc32 inflate zip = some r ∧
      List.Forall₂ (ReadsAs z zip) entries r.entries ∧ ∃ before dir after, zip = before ++ (dir ++ after) ∧
        r.directory.count.Holds U16_MAX entries.length ∧ r.directory.start.Holds U32_MAX before.length ∧
        r.directory.size.Holds U32_MAX dir.length := by
  have hlocals : (locals z clock entries).length ≤ 2 ^ 53 := le_trans (Nat.le_add_right _ _) hend
  have hcount : entries.length ≤ 2 ^ 53 := by
    rw [← length_placed entries 0 0]
    exact le_trans (length_le_flatMap _) hlocals
  have hpre : (locals z clock entries ++ directory z clock opts entries).length =
      (locals z clock entries).length + (directory z clock opts entries).length := length_append
  have hle : (locals z clock entries).length ≤
      (locals z clock entries ++ directory z clock opts entries).length := by
    rw [hpre]
    exact Nat.le_add_right _ _
  obtain ⟨d, hd, hcountHolds, hsizeHolds, hstartHolds⟩ := readDirectory_append opts
    (locals z clock entries ++ directory z clock opts entries) hcount hle (by rwa [hpre])
  rw [hpre, Nat.add_sub_cancel_left] at hsizeHolds
  rw [hpre, append_assoc, ← archive] at hd
  have hlocal : ∀ p ∈ placed z clock 0 0 entries,
      readLocal z.crc32 inflate (archive z clock opts entries) (central opts p.2) =
      some (readEntry opts p) := by
    intro p hp
    obtain ⟨he, ⟨now, hw⟩, -, hholds⟩ := placed_archive opts hes hp
    exact readLocal_localPart hinflate he hw hholds
  refine ⟨archive z clock opts entries, ⟨d, (placed z clock 0 0 entries).map (readEntry opts)⟩,
    zipStream_eq hes hnodup hend, ?_, ?_, locals z clock entries, directory z clock opts entries, _,
    rfl, hcountHolds, hstartHolds, hsizeHolds⟩
  · have hdrop : (archive z clock opts entries).drop (locals z clock entries).length =
        directory z clock opts entries ++ endPart opts entries.length (locals z clock entries).length
          ((locals z clock entries).length + (directory z clock opts entries).length) := drop_left
    rw [readZip, hd, bind_some, hcountHolds.value, hstartHolds.value, hsizeHolds.value, hdrop,
      readMany_directory opts hes hlocals, bind_some]
    dsimp only
    rw [if_pos, mapM_map_some hlocal, map_some]
    rw [archive, length_append, length_append, Nat.add_assoc]
  · have hreads : List.Forall₂ (ReadsAs z (archive z clock opts entries)) ((placed z clock 0 0 entries).map (·.1))
        ((placed z clock 0 0 entries).map (readEntry opts)) := by
      rw [forall₂_map_left_iff, forall₂_map_right_iff]
      refine forall₂_same.2 fun p hp => ?_
      obtain ⟨he, ⟨now, hw⟩, -, hholds⟩ := placed_archive opts hes hp
      exact readsAs_placed he hw hholds
    rwa [map_fst_placed] at hreads

/-- An entry whose bytes are the letter `a`, stored. -/
def letterEntry (name : String) : ZipEntry := ⟨name, .text "a", none, some false⟩

/-- Two entries, with ZIP64 fields for all that can have them; the number is the CRC-32 of `a`. -/
theorem archive_reads_back_letters : ∃ zip r,
    zipStream ⟨fun _ => 0xe8b7be43, id⟩ (fun _ => none) ⟨some 0, some 0⟩ [letterEntry "a.txt",
      letterEntry "b/c.txt"] =
      .ok zip ∧ readZip (fun _ => 0xe8b7be43) some zip = some r ∧
      List.Forall₂ (ReadsAs ⟨fun _ => 0xe8b7be43, id⟩ zip) [letterEntry "a.txt",
        letterEntry "b/c.txt"] r.entries := by
  have haccepted : ∀ e ∈ [letterEntry "a.txt", letterEntry "b/c.txt"],
      e.Accepted ⟨fun _ => 0xe8b7be43, id⟩ := by
    rw [forall_mem_cons, forall_mem_singleton]
    exact ⟨⟨by rfl, by decide +kernel, by decide +kernel, by decide +kernel⟩,
      ⟨by rfl, by decide +kernel, by decide +kernel, by decide +kernel⟩⟩
  obtain ⟨zip, r, hzip, hread, hentries, -⟩ :=
    archive_reads_back ⟨fun _ => 0xe8b7be43, id⟩ some (fun _ => rfl)
    (fun _ => none) ⟨some 0, some 0⟩ haccepted (by decide) (by decide +kernel)
  exact ⟨zip, r, hzip, hread, hentries⟩

theorem writeEntry_large {z : Zlib} {clock : Nat → JsDate} {g : Generated} {e : ZipEntry}
    (hnew : e.name ∉ g.seen)
    (hname : checkName e.name = .ok (utf8 e.name)) (hlarge : MAX_ENTRY_BYTES < e.raw.length) :
    writeEntry z clock g e = .error (.error ("ZIP entry larger than 4 GiB: " ++ e.name)) := by
  simp only [writeEntry, if_neg hnew, hname, bind, Except.bind]
  exact if_pos (.inr hlarge)

theorem writeEntry_behind {z : Zlib} {clock : Nat → JsDate} {g : Generated}
    (hout : g.out.length = 2 ^ 53) (hoffset : g.offset = 2 ^ 53) (hnew : "b.text" ∉ g.seen) :
    ∃ g', writeEntry z clock g (letterEntry "b.text") = .ok g' ∧ g'.out.length = 2 ^ 53 + 37 ∧
      g'.offset = 2 ^ 53 + 36 := by
  have hbody : (letterEntry "b.text").body z = utf8 "a" := rfl
  have haccepted : (letterEntry "b.text").Accepted z :=
    ⟨by rfl, by decide +kernel, by decide +kernel, by rw [hbody]; decide +kernel⟩
  refine ⟨_, writeEntry_ok hnew haccepted, ?_, ?_⟩
  · rw [Generated.add, length_append, length_localPart, hout, hbody]
    show 2 ^ 53 + (30 + (utf8 "b.text").length + (utf8 "a").length) = _
    decide +kernel
  · rw [hoffset, hbody]
    show toNumber (2 ^ 53 + (30 + (utf8 "b.text").length + (utf8 "a").length)) = _
    decide +kernel

/-- A single byte less than 4 GiB is too much, whatever `node:zlib` does.  And behind 2^53 bytes the
writer is a byte short after an entry of 37. -/
theorem largest_entry_refused :
    (¬ ∃ (z : Zlib) (inflate : List UInt8 → Option (List UInt8)), ∀ (clock : Nat → JsDate) (opts : Zip64At)
      (entries : List ZipEntry), (entries.map (·.name)).Nodup →
      (∀ e ∈ entries, checkName e.name = .ok (utf8 e.name) ∧ (utf8 e.name).length < 2 ^ 16 ∧
        e.raw.length < 2 ^ 32) →
      ∃ zip r, zipStream z clock opts entries = .ok zip ∧ readZip z.crc32 inflate zip = some r ∧
        List.Forall₂ (ReadsAs z zip) entries r.entries) ∧
    ∀ (z : Zlib) (clock : Nat → JsDate) (g : Generated),
      g.out.length = 2 ^ 53 → g.offset = 2 ^ 53 → "b.text" ∉ g.seen →
      ∃ g', writeEntry z clock g (letterEntry "b.text") = .ok g' ∧ g'.out.length = 2 ^ 53 + 37 ∧
        g'.offset = 2 ^ 53 + 36 := by
  refine ⟨?_, fun z clock g hout hoffset hnew => writeEntry_behind hout hoffset hnew⟩
  rintro ⟨z, inflate, h⟩
  have hlen : (replicate (2 ^ 32 - 1) (0 : UInt8)).length = 2 ^ 32 - 1 := length_replicate
  obtain ⟨zip, -, hzip, -⟩ := h (fun _ => none) {}
    [⟨"a", .buffer (replicate (2 ^ 32 - 1) 0), none, some false⟩] (nodup_singleton _) (by
      rw [forall_mem_singleton]
      refine ⟨by rfl, by decide +kernel, ?_⟩
      rw [ZipEntry.raw]
      norm_num)
  rw [zipStream, foldlM_cons, writeEntry_large not_mem_nil (by rfl)] at hzip
  · cases hzip
  · rw [ZipEntry.raw]
    rw [hlen]
    decide

end SmartProctoring.Zip
