import Lazyd.Library.LittleEndian
import Mathlib.Data.List.TakeWhile

/-!
# Reading events from the fanotify group

`parse_events` and `parse_range` over the bytes of one read, as the kernel writes them on a
little-endian machine. An event is 24 bytes of metadata and the information records of the event;
a record is a header of 4 bytes and a body. `parse_events` keeps the permission events that have a
range record.

An out-of-bounds slice and the length assertion of `read_unaligned` panic, and the parsers are
functions into `Except Panic`. For the events of the kernel, `RawEvent` and `InfoRecord` carry the
bounds that make their lengths fit into the fields of the layout.

## Main definitions

* `Fanotify.parseEvents`, `Fanotify.parseRange` : the parsers.
* `Fanotify.RawEvent`, `Fanotify.InfoRecord` : the events of the kernel, and their bytes.
* `Fanotify.RawEvent.access` : what an event asks for.

## Main results

* `Fanotify.parseRange_encode` : `parse_range` finds the first range record.
* `Fanotify.parseEvents_encode` : `parse_events` reads up to the first event without records.

Source: `src/fanotify.rs`, lines 14–76 and 258–319.
-/

namespace Lazyd

namespace Fanotify

open LittleEndian

/-! ### The layout -/

/-- `FAN_PRE_ACCESS` -/
def fanPreAccess : UInt64 := 0x00100000

/-- `FAN_EVENT_INFO_TYPE_RANGE` -/
def fanEventInfoTypeRange : UInt8 := 6

/-- `DEFAULT_ZERO_COUNT_WINDOW` -/
def defaultZeroCountWindow : ℕ := 4 * 1024 * 1024

/-- `size_of::<FanotifyEventMetadata>()` -/
def metadataSize : ℕ := 24

/-- `size_of::<FanotifyEventInfoHeader>()` -/
def infoHeaderSize : ℕ := 4

/-- `size_of::<FanotifyEventInfoRange>()` -/
def infoRangeSize : ℕ := 24

structure FanotifyEventMetadata where
  eventLen : ℕ
  vers : UInt8
  reserved : UInt8
  metadataLen : ℕ
  mask : UInt64
  fd : Int32
  pid : Int32
  deriving DecidableEq, Repr

structure FanotifyEventInfoHeader where
  infoType : UInt8
  pad : UInt8
  len : ℕ
  deriving DecidableEq, Repr

structure FanotifyEventInfoRange where
  hdr : FanotifyEventInfoHeader
  pad : ℕ
  offset : ℕ
  count : ℕ
  deriving DecidableEq, Repr

structure FanotifyRange where
  offset : ℕ
  len : ℕ
  deriving DecidableEq, Repr

structure FanotifyEvent where
  fd : Int32
  range : FanotifyRange
  deriving DecidableEq, Repr

/-- Why the thread of the event loop would panic. -/
inductive Panic where
  /-- a slice with its bounds reversed or behind the end -/
  | slice
  /-- the length assertion of `read_unaligned` -/
  | assertion
  deriving DecidableEq, Repr

/-- `&bytes[start..stop]` -/
def slice (bytes : List UInt8) (start stop : ℕ) : Except Panic (List UInt8) :=
  if start ≤ stop ∧ stop ≤ bytes.length then .ok ((bytes.drop start).take (stop - start))
  else .error .slice

/-- `read_unaligned` of a type of `size` bytes. -/
def readUnaligned {α : Type} (size : ℕ) (read : List UInt8 → α) (bytes : List UInt8) :
    Except Panic α :=
  if size ≤ bytes.length then .ok (read bytes) else .error .assertion

def FanotifyEventMetadata.read (bytes : List UInt8) : FanotifyEventMetadata where
  eventLen := readLE bytes 0 4
  vers := .ofNat (readLE bytes 4 1)
  reserved := .ofNat (readLE bytes 5 1)
  metadataLen := readLE bytes 6 2
  mask := .ofNat (readLE bytes 8 8)
  fd := (UInt32.ofNat (readLE bytes 16 4)).toInt32
  pid := (UInt32.ofNat (readLE bytes 20 4)).toInt32

def FanotifyEventInfoHeader.read (bytes : List UInt8) : FanotifyEventInfoHeader where
  infoType := .ofNat (readLE bytes 0 1)
  pad := .ofNat (readLE bytes 1 1)
  len := readLE bytes 2 2

def FanotifyEventInfoRange.read (bytes : List UInt8) : FanotifyEventInfoRange where
  hdr := .read bytes
  pad := readLE bytes 4 4
  offset := readLE bytes 8 8
  count := readLE bytes 16 8

/-! ### The parsers -/

/-- The range that a range record asks for. -/
def FanotifyEventInfoRange.range (info : FanotifyEventInfoRange) : FanotifyRange where
  offset := info.offset
  len := if info.count = 0 then defaultZeroCountWindow else info.count

/-- The loop of `parse_range`. -/
def parseRangeFrom (event : List UInt8) (cursor : ℕ) : Except Panic (Option FanotifyRange) :=
  if _ : cursor + infoHeaderSize ≤ event.length then do
    let header ← readUnaligned infoHeaderSize FanotifyEventInfoHeader.read
      (← slice event cursor event.length)
    if _ : header.len < infoHeaderSize ∨ event.length < cursor + header.len then
      return none
    else if header.infoType = fanEventInfoTypeRange ∧ infoRangeSize ≤ header.len then
      let info ← readUnaligned infoRangeSize FanotifyEventInfoRange.read
        (← slice event cursor event.length)
      return some info.range
    else
      parseRangeFrom event (cursor + header.len)
  else
    return none
termination_by event.length - cursor
decreasing_by
  simp only [infoHeaderSize] at *
  omega

/-- `parse_range` -/
def parseRange (event : List UInt8) (metadataLen : ℕ) : Except Panic (Option FanotifyRange) :=
  parseRangeFrom event metadataLen

/-- The loop of `parse_events`; its result are the events from `cursor` on. -/
def parseEventsFrom (buf : List UInt8) (cursor : ℕ) : Except Panic (List FanotifyEvent) :=
  if _ : cursor + metadataSize ≤ buf.length then do
    let metadata ← readUnaligned metadataSize FanotifyEventMetadata.read
      (← slice buf cursor buf.length)
    if _ : buf.length - cursor < metadata.eventLen ∨ metadata.eventLen ≤ metadataSize then
      return []
    else
      let event ←
        if metadata.mask &&& fanPreAccess ≠ 0 then do
          let range ← parseRange (← slice buf cursor (cursor + metadata.eventLen))
            metadata.metadataLen
          pure (range.map fun range => { fd := metadata.fd, range })
        else pure none
      let events ← parseEventsFrom buf (cursor + metadata.eventLen)
      return event.toList ++ events
  else
    return []
termination_by buf.length - cursor
decreasing_by
  simp only [metadataSize] at *
  omega

/-- `parse_events` -/
def parseEvents (buf : List UInt8) : Except Panic (List FanotifyEvent) := parseEventsFrom buf 0

/-! ### The events of the kernel -/

/-- An information record. -/
structure InfoRecord where
  infoType : UInt8
  pad : UInt8
  body : List UInt8
  len_lt : infoHeaderSize + body.length < 256 ^ 2

/-- The fields of a range record behind its header, with any padding. -/
def infoRangeFields (pad : UInt32) (offset count : UInt64) : List Field :=
  [⟨4, pad.toNat, pad.toNat_lt⟩, ⟨8, offset.toNat, offset.toNat_lt⟩,
    ⟨8, count.toNat, count.toNat_lt⟩]

namespace InfoRecord

variable (record : InfoRecord)

/-- The length in the header of the record. -/
def len : ℕ := infoHeaderSize + record.body.length

def header : FanotifyEventInfoHeader := ⟨record.infoType, record.pad, record.len⟩

def encode : List UInt8 :=
  encodeFields [⟨1, record.infoType.toNat, record.infoType.toNat_lt⟩,
    ⟨1, record.pad.toNat, record.pad.toNat_lt⟩, ⟨2, record.len, record.len_lt⟩] ++ record.body

/-- A record that `parse_range` takes for a range record. -/
def IsRange : Prop := record.infoType = fanEventInfoTypeRange ∧ infoRangeSize ≤ record.len

instance : Decidable record.IsRange := inferInstanceAs (Decidable (_ ∧ _))

/-- The range in a range record. -/
def range : FanotifyRange := (FanotifyEventInfoRange.read record.encode).range

theorem length_encode : record.encode.length = record.len := by
  rw [encode, List.length_append, length_encodeFields]
  rfl

theorem infoHeaderSize_le_len : infoHeaderSize ≤ record.len := Nat.le_add_right _ _

theorem read_encode (rest : List UInt8) :
    FanotifyEventInfoHeader.read (record.encode ++ rest) = record.header := by
  rw [encode, List.append_assoc, FanotifyEventInfoHeader.read, header,
    FanotifyEventInfoHeader.mk.injEq]
  refine ⟨?_, ?_, readLE_encodeFields [_, _] _ _ _⟩
  · exact (congrArg _ (readLE_encodeFields [] _ _ _)).trans UInt8.ofNat_toNat
  · exact (congrArg _ (readLE_encodeFields [_] _ _ _)).trans UInt8.ofNat_toNat

theorem readRange_encode (rest : List UInt8) (h : record.IsRange) :
    (FanotifyEventInfoRange.read (record.encode ++ rest)).range = record.range := by
  have hfield {off w : ℕ} (hle : off + w ≤ infoRangeSize) :
      readLE (record.encode ++ rest) off w = readLE record.encode off w :=
    readLE_append (hle.trans (h.2.trans record.length_encode.ge))
  have hoffset : (FanotifyEventInfoRange.read (record.encode ++ rest)).offset =
      (FanotifyEventInfoRange.read record.encode).offset := hfield (by decide)
  have hcount : (FanotifyEventInfoRange.read (record.encode ++ rest)).count =
      (FanotifyEventInfoRange.read record.encode).count := hfield (by decide)
  rw [range, FanotifyEventInfoRange.range, FanotifyEventInfoRange.range, hoffset, hcount]

/-- The range in a range record, by its fields. -/
theorem range_of_body {record : InfoRecord} {pad : UInt32} {offset count : UInt64}
    {rest : List UInt8}
    (h : record.body = encodeFields (infoRangeFields pad offset count) ++ rest) :
    record.range =
      ⟨offset.toNat, if count.toNat = 0 then defaultZeroCountWindow else count.toNat⟩ := by
  let header : List Field := [⟨1, record.infoType.toNat, record.infoType.toNat_lt⟩,
    ⟨1, record.pad.toNat, record.pad.toNat_lt⟩, ⟨2, record.len, record.len_lt⟩]
  have hencode :
      record.encode = encodeFields (header ++ infoRangeFields pad offset count) ++ rest := by
    rw [encode, h, encodeFields_append, List.append_assoc]
  have hoffset : readLE record.encode 8 8 = offset.toNat := by
    rw [hencode]
    exact readLE_encodeFields (header ++ [⟨4, pad.toNat, pad.toNat_lt⟩])
      ⟨8, offset.toNat, offset.toNat_lt⟩ [⟨8, count.toNat, count.toNat_lt⟩] rest
  have hcount : readLE record.encode 16 8 = count.toNat := by
    rw [hencode]
    exact readLE_encodeFields
      (header ++ [⟨4, pad.toNat, pad.toNat_lt⟩, ⟨8, offset.toNat, offset.toNat_lt⟩])
      ⟨8, count.toNat, count.toNat_lt⟩ [] rest
  rw [range, FanotifyEventInfoRange.range, FanotifyEventInfoRange.read, hoffset, hcount]

end InfoRecord

/-- An event. -/
structure RawEvent where
  vers : UInt8
  reserved : UInt8
  mask : UInt64
  fd : Int32
  pid : Int32
  infos : List InfoRecord
  eventLen_lt : metadataSize + (infos.map InfoRecord.len).sum < 256 ^ 4

namespace RawEvent

variable (event : RawEvent)

def eventLen : ℕ := metadataSize + (event.infos.map InfoRecord.len).sum

def metadata : FanotifyEventMetadata where
  eventLen := event.eventLen
  vers := event.vers
  reserved := event.reserved
  metadataLen := metadataSize
  mask := event.mask
  fd := event.fd
  pid := event.pid

/-- The bytes of the metadata. -/
def encodeMetadata : List UInt8 :=
  encodeFields [⟨4, event.eventLen, event.eventLen_lt⟩,
    ⟨1, event.vers.toNat, event.vers.toNat_lt⟩, ⟨1, event.reserved.toNat, event.reserved.toNat_lt⟩,
    ⟨2, metadataSize, by decide⟩, ⟨8, event.mask.toNat, event.mask.toNat_lt⟩,
    ⟨4, event.fd.toUInt32.toNat, UInt32.toNat_lt _⟩,
    ⟨4, event.pid.toUInt32.toNat, UInt32.toNat_lt _⟩]

def encode : List UInt8 := event.encodeMetadata ++ event.infos.flatMap InfoRecord.encode

/-- An event that waits for an answer. -/
def IsPermission : Prop := event.mask &&& fanPreAccess ≠ 0

instance : Decidable event.IsPermission := inferInstanceAs (Decidable (¬_))

/-- The event has a range record. -/
def HasRange : Prop := ∃ record ∈ event.infos, record.IsRange

instance : Decidable event.HasRange := inferInstanceAs (Decidable (∃ record ∈ _, _))

/-- The first range record of the event. -/
def range : Option FanotifyRange :=
  (event.infos.find? fun record => record.IsRange).map InfoRecord.range

/-- What `parse_events` makes of the event. -/
def access : Option FanotifyEvent :=
  if event.IsPermission then event.range.map fun range => { fd := event.fd, range } else none

theorem metadataSize_le_eventLen : metadataSize ≤ event.eventLen := Nat.le_add_right _ _

theorem length_encodeMetadata : event.encodeMetadata.length = metadataSize :=
  length_encodeFields _

theorem length_encode : event.encode.length = event.eventLen := by
  have hinfos : (event.infos.flatMap InfoRecord.encode).length =
      (event.infos.map InfoRecord.len).sum := by
    rw [List.length_flatMap]
    exact congrArg List.sum (List.map_congr_left fun record _ => record.length_encode)
  rw [encode, List.length_append, event.length_encodeMetadata, hinfos, eventLen]

theorem read_encodeMetadata (rest : List UInt8) :
    FanotifyEventMetadata.read (event.encodeMetadata ++ rest) = event.metadata := by
  have hword (w : Int32) : (UInt32.ofNat w.toUInt32.toNat).toInt32 = w := by
    rw [UInt32.ofNat_toNat, Int32.toInt32_toUInt32]
  rw [encodeMetadata, FanotifyEventMetadata.read, metadata, FanotifyEventMetadata.mk.injEq]
  refine ⟨readLE_encodeFields [] _ _ _, ?_, ?_, readLE_encodeFields [_, _, _] _ _ _, ?_, ?_, ?_⟩
  · exact (congrArg _ (readLE_encodeFields [_] _ _ _)).trans UInt8.ofNat_toNat
  · exact (congrArg _ (readLE_encodeFields [_, _] _ _ _)).trans UInt8.ofNat_toNat
  · exact (congrArg _ (readLE_encodeFields [_, _, _, _] _ _ _)).trans UInt64.ofNat_toNat
  · exact (congrArg (fun n => (UInt32.ofNat n).toInt32)
      (readLE_encodeFields [_, _, _, _, _] _ _ _)).trans (hword event.fd)
  · exact (congrArg (fun n => (UInt32.ofNat n).toInt32)
      (readLE_encodeFields [_, _, _, _, _, _] _ _ _)).trans (hword event.pid)

theorem read_encode (rest : List UInt8) :
    FanotifyEventMetadata.read (event.encode ++ rest) = event.metadata := by
  rw [encode, List.append_assoc]
  exact event.read_encodeMetadata _

theorem eventLen_le_metadataSize_iff : event.eventLen ≤ metadataSize ↔ event.infos = [] := by
  rw [eventLen, add_le_iff_nonpos_right]
  cases hinfos : event.infos with
  | nil => simp
  | cons record records =>
    have hpos : 0 < record.len := lt_of_lt_of_le (by decide) record.infoHeaderSize_le_len
    simp only [List.map_cons, List.sum_cons, reduceCtorEq, iff_false, not_le]
    omega

end RawEvent

/-! ### Parsing the events of the kernel -/

theorem slice_append (before rest : List UInt8) :
    slice (before ++ rest) before.length (before ++ rest).length = .ok rest := by
  have hle : before.length ≤ (before ++ rest).length := by
    rw [List.length_append]
    exact Nat.le_add_right _ _
  rw [slice, if_pos ⟨hle, le_rfl⟩, List.drop_left, List.length_append, Nat.add_sub_cancel_left,
    List.take_length]

theorem slice_append_append (before bytes rest : List UInt8) :
    slice (before ++ (bytes ++ rest)) before.length (before.length + bytes.length) = .ok bytes := by
  have hle : before.length + bytes.length ≤ (before ++ (bytes ++ rest)).length := by
    rw [List.length_append, List.length_append]
    omega
  rw [slice, if_pos ⟨Nat.le_add_right _ _, hle⟩, List.drop_left, Nat.add_sub_cancel_left,
    List.take_left]

theorem readUnaligned_of_le {α : Type} {size : ℕ} {read : List UInt8 → α} {bytes : List UInt8}
    (h : size ≤ bytes.length) : readUnaligned size read bytes = .ok (read bytes) := if_pos h

theorem parseRangeFrom_encode (before : List UInt8) (records : List InfoRecord) :
    parseRangeFrom (before ++ records.flatMap InfoRecord.encode) before.length =
      .ok ((records.find? fun record => record.IsRange).map InfoRecord.range) := by
  induction records generalizing before with
  | nil =>
    rw [parseRangeFrom, dif_neg (by simp [infoHeaderSize])]
    rfl
  | cons record records ih =>
    rw [List.flatMap_cons]
    set rest := records.flatMap InfoRecord.encode
    have hle := record.infoHeaderSize_le_len
    have hlen : (record.encode ++ rest).length = record.len + rest.length := by
      rw [List.length_append, record.length_encode]
    have hfits : ¬(record.header.len < infoHeaderSize ∨
        (before ++ (record.encode ++ rest)).length < before.length + record.header.len) := by
      rw [List.length_append, hlen]
      change ¬(record.len < infoHeaderSize ∨ _ < before.length + record.len)
      omega
    rw [parseRangeFrom, dif_pos (by rw [List.length_append, hlen]; omega), slice_append]
    simp only [bind, Except.bind]
    rw [readUnaligned_of_le (by omega), record.read_encode]
    simp only
    rw [dif_neg hfits]
    by_cases hrange : record.IsRange
    · have hheader : record.header.infoType = fanEventInfoTypeRange ∧
          infoRangeSize ≤ record.header.len := hrange
      have hfind : (record :: records).find? (fun record => record.IsRange) = some record :=
        List.find?_cons_of_pos (decide_eq_true hrange)
      rw [if_pos hheader, hfind,
        readUnaligned_of_le (hlen ▸ hrange.2.trans (Nat.le_add_right _ _))]
      simp only [record.readRange_encode rest hrange]
      rfl
    · have hcursor : before.length + record.header.len = (before ++ record.encode).length := by
        rw [List.length_append, record.length_encode]
        rfl
      have hheader : ¬(record.header.infoType = fanEventInfoTypeRange ∧
          infoRangeSize ≤ record.header.len) := hrange
      have hfind : (record :: records).find? (fun record => record.IsRange) =
          records.find? fun record => record.IsRange :=
        List.find?_cons_of_neg (mt of_decide_eq_true hrange)
      rw [if_neg hheader, hfind, hcursor,
        ← List.append_assoc]
      exact ih _

/-- `parse_range` on the event of the kernel. -/
theorem parseRange_encode (event : RawEvent) :
    parseRange event.encode metadataSize = .ok event.range := by
  rw [parseRange, RawEvent.encode, ← event.length_encodeMetadata]
  exact parseRangeFrom_encode _ _

section ParseEvents

variable (before rest : List UInt8) (event : RawEvent)

theorem parseEventsFrom_stop (h : event.infos = []) :
    parseEventsFrom (before ++ (event.encode ++ rest)) before.length = .ok [] := by
  have hle := event.metadataSize_le_eventLen
  have hlen : (event.encode ++ rest).length = event.eventLen + rest.length := by
    rw [List.length_append, event.length_encode]
  have hstop : (before ++ (event.encode ++ rest)).length - before.length <
      event.metadata.eventLen ∨ event.metadata.eventLen ≤ metadataSize :=
    Or.inr (event.eventLen_le_metadataSize_iff.mpr h)
  rw [parseEventsFrom, dif_pos (by rw [List.length_append, hlen]; omega), slice_append]
  simp only [bind, Except.bind]
  rw [readUnaligned_of_le (by omega), event.read_encode]
  simp only
  rw [dif_pos hstop]
  rfl

/-- Past any other event the loop of `parse_events` goes on. -/
theorem parseEventsFrom_next (h : event.infos ≠ []) :
    parseEventsFrom (before ++ (event.encode ++ rest)) before.length =
      (event.access.toList ++ ·) <$>
        parseEventsFrom (before ++ event.encode ++ rest) (before ++ event.encode).length := by
  have hle := event.metadataSize_le_eventLen
  have hlen : (event.encode ++ rest).length = event.eventLen + rest.length := by
    rw [List.length_append, event.length_encode]
  have hfits : ¬((before ++ (event.encode ++ rest)).length - before.length <
      event.metadata.eventLen ∨ event.metadata.eventLen ≤ metadataSize) := by
    rw [List.length_append, hlen]
    refine not_or.mpr ⟨?_, mt event.eventLen_le_metadataSize_iff.mp h⟩
    change ¬_ < event.eventLen
    omega
  have hcursor : before.length + event.metadata.eventLen = (before ++ event.encode).length := by
    rw [List.length_append, event.length_encode]
    rfl
  have hslice : slice (before ++ (event.encode ++ rest)) before.length
      (before.length + event.metadata.eventLen) = .ok event.encode := by
    rw [hcursor, List.length_append]
    exact slice_append_append _ _ _
  rw [parseEventsFrom, dif_pos (by rw [List.length_append, hlen]; omega), slice_append]
  simp only [bind, Except.bind]
  rw [readUnaligned_of_le (by omega), event.read_encode]
  simp only
  rw [dif_neg hfits, hslice, hcursor, ← List.append_assoc]
  by_cases hmask : event.metadata.mask &&& fanPreAccess ≠ 0
  · have haccess : event.access = event.range.map fun range => { fd := event.fd, range } :=
      if_pos hmask
    have hrange : parseRange event.encode event.metadata.metadataLen = .ok event.range :=
      parseRange_encode event
    rw [if_pos hmask, haccess]
    simp only [hrange]
    cases parseEventsFrom (before ++ event.encode ++ rest) (before ++ event.encode).length <;> rfl
  · have haccess : event.access = none := if_neg hmask
    rw [if_neg hmask, haccess]
    cases parseEventsFrom (before ++ event.encode ++ rest) (before ++ event.encode).length <;> rfl

end ParseEvents

/-- **Reading the events of the kernel.** `parse_events` finds every access among the events before
the first one without records, in their order. -/
theorem parseEvents_encode (events : List RawEvent) :
    parseEvents (events.flatMap RawEvent.encode) =
      .ok ((events.takeWhile fun event => event.infos ≠ []).filterMap RawEvent.access) := by
  suffices hfrom : ∀ before : List UInt8,
      parseEventsFrom (before ++ events.flatMap RawEvent.encode) before.length =
        .ok ((events.takeWhile fun event => event.infos ≠ []).filterMap RawEvent.access) from
    hfrom []
  induction events with
  | nil =>
    intro before
    rw [parseEventsFrom, dif_neg (by simp [metadataSize])]
    rfl
  | cons event events ih =>
    intro before
    rw [List.flatMap_cons]
    by_cases hinfos : event.infos = []
    · rw [parseEventsFrom_stop before _ event hinfos,
        List.takeWhile_cons_of_neg (by simpa using hinfos)]
      rfl
    · rw [parseEventsFrom_next before _ event hinfos, ih,
        List.takeWhile_cons_of_pos (by simpa using hinfos)]
      cases haccess : event.access with
      | none => 
        rw [List.filterMap_cons_none haccess]
        rfl
      | some access => 
        rw [List.filterMap_cons_some haccess]
        rfl

end Fanotify

end Lazyd
