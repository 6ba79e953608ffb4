import Lazyd.Fanotify.Access

/-!
# Decoding inverts the layout, and is safe on any bytes

What `parse_events` returns for the bytes of any list of events is described by the events alone:
an event is an access when it waits for an answer and has a range record, and the fields of its
first range record say which range. An event whose bytes are cut off at the end of the buffer is not
seen. For any bytes at all, the two loops end without a panic, and each event that is returned comes
from a window of the buffer of its own.

## Main definitions

* `Fanotify.RawEvent.Asks` : what an event asks for.
* `Fanotify.Window`, `Fanotify.Window.Reads` : where a returned event has been read from.

## Main results

* `Fanotify.InfoRecord.range_of_body` : the fields of a range record.
* `Fanotify.parseEvents_inverts` : decoding inverts the layout.
* `Fanotify.parseEvents_safe` : decoding is safe on any bytes.

Source: `src/fanotify.rs`, lines 49–76 and 263–319.
-/

namespace Lazyd

namespace Fanotify

open LittleEndian

/-! ### The events of the kernel -/

theorem InfoRecord.exists_rangeFields {record : InfoRecord} (h : record.IsRange) :
    ∃ pad offset count rest,
      record.body = encodeFields (infoRangeFields pad offset count) ++ rest := by
  have hlen : 20 ≤ record.body.length := by
    have hle := h.2
    rw [InfoRecord.len, infoHeaderSize, infoRangeSize] at hle
    omega
  have hpad := @toBytesLE_readLE record.body 4 (by omega)
  have hoffset := @toBytesLE_readLE (record.body.drop 4) 8
    (by rw [List.length_drop]; omega)
  have hcount := @toBytesLE_readLE ((record.body.drop 4).drop 8) 8
    (by rw [List.length_drop, List.length_drop]; omega)
  have hword (bytes : List UInt8) : (UInt64.ofNat (readLE bytes 0 8)).toNat = readLE bytes 0 8 :=
    UInt64.toNat_ofNat_of_lt' (readLE_lt bytes 0 8)
  have hword' (bytes : List UInt8) : (UInt32.ofNat (readLE bytes 0 4)).toNat = readLE bytes 0 4 :=
    UInt32.toNat_ofNat_of_lt' (readLE_lt bytes 0 4)
  refine ⟨.ofNat (readLE record.body 0 4), .ofNat (readLE (record.body.drop 4) 0 8),
    .ofNat (readLE ((record.body.drop 4).drop 8) 0 8), ((record.body.drop 4).drop 8).drop 8, ?_⟩
  simp only [infoRangeFields, encodeFields, List.flatMap_cons, List.flatMap_nil, List.append_nil,
    hword, hword', List.append_assoc, hcount, hoffset, hpad]

/-- What an event asks for: nothing, unless it waits for an answer and has a range record; then the
range in the fields of the first one. -/
inductive RawEvent.Asks (event : RawEvent) : Option FanotifyEvent → Prop
  | nothing (h : ¬ (event.IsPermission ∧ event.HasRange)) : event.Asks none
  | range {before after : List InfoRecord} {record : InfoRecord} {pad : UInt32}
      {offset count : UInt64} {rest : List UInt8} (hpermission : event.IsPermission)
      (hinfos : event.infos = before ++ record :: after) (hbefore : ∀ r ∈ before, ¬ r.IsRange)
      (htype : record.infoType = fanEventInfoTypeRange)
      (hbody : record.body = encodeFields (infoRangeFields pad offset count) ++ rest) :
      event.Asks (some ⟨event.fd,
        ⟨offset.toNat, if count.toNat = 0 then 4 * 1024 * 1024 else count.toNat⟩⟩)

theorem RawEvent.asks_access (event : RawEvent) : event.Asks event.access := by
  by_cases h : event.IsPermission ∧ event.HasRange
  · obtain ⟨hpermission, hrange⟩ := h
    obtain ⟨record, hfind⟩ : ∃ record,
        event.infos.find? (fun record => record.IsRange) = some record := by
      obtain ⟨record, hmem, hrecord⟩ := hrange
      exact Option.isSome_iff_exists.mp
        (List.find?_isSome.mpr ⟨record, hmem, decide_eq_true hrecord⟩)
    obtain ⟨hrecord, before, after, hinfos, hbefore⟩ := List.find?_eq_some_iff_append.mp hfind
    have hisRange : record.IsRange := of_decide_eq_true hrecord
    obtain ⟨pad, offset, count, rest, hbody⟩ := InfoRecord.exists_rangeFields hisRange
    have haccess : event.access = some ⟨event.fd,
        ⟨offset.toNat, if count.toNat = 0 then 4 * 1024 * 1024 else count.toNat⟩⟩ := by
      rw [RawEvent.access, if_pos hpermission, RawEvent.range, hfind, Option.map_some,
        Option.map_some, InfoRecord.range_of_body hbody]
      rfl
    rw [haccess]
    refine .range hpermission hinfos (fun r hr hr' => ?_) hisRange.1 hbody
    exact absurd (hbefore r hr) (by simpa using hr')
  · have haccess : event.access = none := by
      rw [RawEvent.access]
      split_ifs with hpermission
      · have hnone : event.infos.find? (fun record => record.IsRange) = none := by
          rw [List.find?_eq_none]
          exact fun record hmem hrecord =>
            h ⟨hpermission, record, hmem, of_decide_eq_true hrecord⟩
        rw [RawEvent.range, hnone]
        rfl
      · rfl
    rw [haccess]
    exact .nothing h

theorem parseEventsFrom_truncated (before : List UInt8) (event : RawEvent) {n : ℕ}
    (h : n < event.eventLen) :
    parseEventsFrom (before ++ event.encode.take n) before.length = .ok [] := by
  have hlen : (event.encode.take n).length = n := by
    rw [List.length_take, event.length_encode]
    omega
  rw [parseEventsFrom, List.length_append, hlen]
  rcases lt_or_ge n metadataSize with hshort | hlong
  · rw [dif_neg (by omega)]
    rfl
  · have htake : event.encode.take n = event.encodeMetadata ++
        (event.infos.flatMap InfoRecord.encode).take (n - metadataSize) := by
      rw [RawEvent.encode, List.take_append, event.length_encodeMetadata,
        List.take_of_length_le (event.length_encodeMetadata.trans_le hlong)]
    have hslice := slice_append before (event.encode.take n)
    rw [List.length_append, hlen] at hslice
    have hstop : before.length + n - before.length < event.metadata.eventLen ∨
        event.metadata.eventLen ≤ metadataSize := by
      rw [Nat.add_sub_cancel_left]
      exact Or.inl h
    rw [dif_pos (by omega), hslice]
    simp only [bind, Except.bind]
    rw [readUnaligned_of_le (by omega), htake, event.read_encodeMetadata]
    simp only
    rw [dif_pos hstop]
    rfl

/-- The loop of `parse_events` over events with records, in front of anything that ends it. -/
theorem parseEventsFrom_append (before tail : List UInt8) (events : List RawEvent)
    (hinfos : ∀ event ∈ events, event.infos ≠ [])
    (htail : ∀ before : List UInt8, parseEventsFrom (before ++ tail) before.length = .ok []) :
    parseEventsFrom (before ++ (events.flatMap RawEvent.encode ++ tail)) before.length =
      .ok (events.filterMap RawEvent.access) := by
  induction events generalizing before with
  | nil => exact htail before
  | cons event events ih =>
    rw [List.flatMap_cons, List.append_assoc,
      parseEventsFrom_next before _ event (hinfos event List.mem_cons_self),
      ih _ fun event' hmem => hinfos event' (List.mem_cons_of_mem _ hmem)]
    cases haccess : event.access with
    | none =>
      rw [List.filterMap_cons_none haccess]
      rfl
    | some access =>
      rw [List.filterMap_cons_some haccess]
      rfl

/-- **Decoding inverts the layout.** For the bytes of any events that have information records,
`parse_events` returns in order what each of them asks for; a truncated event behind them adds
nothing and changes nothing. -/
theorem parseEvents_inverts (events : List RawEvent)
    (hinfos : ∀ event ∈ events, event.infos ≠ []) :
    ∃ asked, List.Forall₂ RawEvent.Asks events asked ∧
      parseEvents (events.flatMap RawEvent.encode) = .ok asked.reduceOption ∧
      ∀ (last : RawEvent) (n : ℕ), n < last.eventLen →
        parseEvents (events.flatMap RawEvent.encode ++ last.encode.take n) =
          .ok asked.reduceOption := by
  have hreduce : (events.map RawEvent.access).reduceOption = events.filterMap RawEvent.access := by
    change (events.map RawEvent.access).filterMap id = _
    rw [List.filterMap_map]
    rfl
  refine ⟨events.map RawEvent.access, ?_, ?_, fun last n hn => ?_⟩
  · rw [List.forall₂_map_right_iff, List.forall₂_same]
    exact fun event _ => event.asks_access
  · rw [hreduce]
    have hend (before : List UInt8) : parseEventsFrom (before ++ []) before.length = .ok [] := by
      rw [parseEventsFrom, dif_neg (by simp [metadataSize])]
      rfl
    have hparse := parseEventsFrom_append [] [] events hinfos hend
    rwa [List.append_nil] at hparse
  · rw [hreduce]
    exact parseEventsFrom_append [] _ events hinfos fun before =>
      parseEventsFrom_truncated before last hn

/-- An access, and another one that is cut off. -/
theorem parseEvents_inverts_accessEvent :
    ∃ asked, List.Forall₂ RawEvent.Asks [accessEvent 5 1 0 3] asked ∧
      parseEvents ([accessEvent 5 1 0 3].flatMap RawEvent.encode ++
        (accessEvent 6 1 0 3).encode.take 30) = .ok asked.reduceOption := by
  have hinfos : ∀ event ∈ [accessEvent 5 1 0 3], event.infos ≠ [] := by
    intro event hmem
    rw [List.mem_singleton.mp hmem]
    exact List.cons_ne_nil _ _
  obtain ⟨asked, hasks, -, htruncated⟩ := parseEvents_inverts [accessEvent 5 1 0 3] hinfos
  refine ⟨asked, hasks, htruncated (accessEvent 6 1 0 3) 30 ?_⟩
  rw [RawEvent.eventLen, accessEvent, List.map_singleton, List.sum_singleton, len_rangeRecord]
  decide

/-! ### Any bytes -/

theorem slice_drop {bytes : List UInt8} {start : ℕ} (h : start ≤ bytes.length) :
    slice bytes start bytes.length = .ok (bytes.drop start) := by
  rw [slice, if_pos ⟨h, le_rfl⟩, List.take_of_length_le (List.length_drop ..).le]

theorem FanotifyEventMetadata.read_take (bytes : List UInt8) :
    FanotifyEventMetadata.read (bytes.take metadataSize) = FanotifyEventMetadata.read bytes := by
  have hfield {off w : ℕ} (h : off + w ≤ metadataSize) :
      readLE (bytes.take metadataSize) off w = readLE bytes off w := readLE_take bytes h
  rw [FanotifyEventMetadata.read, FanotifyEventMetadata.read, FanotifyEventMetadata.mk.injEq]
  refine ⟨hfield (by decide), congrArg _ (hfield (by decide)), congrArg _ (hfield (by decide)),
    hfield (by decide), congrArg _ (hfield (by decide)), ?_, ?_⟩
  · exact congrArg (fun n => (UInt32.ofNat n).toInt32) (hfield (by decide))
  · exact congrArg (fun n => (UInt32.ofNat n).toInt32) (hfield (by decide))

theorem FanotifyEventInfoRange.read_take (bytes : List UInt8) :
    FanotifyEventInfoRange.read (bytes.take infoRangeSize) = FanotifyEventInfoRange.read bytes := by
  have hfield {off w : ℕ} (h : off + w ≤ infoRangeSize) :
      readLE (bytes.take infoRangeSize) off w = readLE bytes off w := readLE_take bytes h
  have hheader : FanotifyEventInfoHeader.read (bytes.take infoRangeSize) =
      FanotifyEventInfoHeader.read bytes := by
    rw [FanotifyEventInfoHeader.read, FanotifyEventInfoHeader.read,
      FanotifyEventInfoHeader.mk.injEq]
    exact ⟨congrArg _ (hfield (by decide)), congrArg _ (hfield (by decide)), hfield (by decide)⟩
  rw [FanotifyEventInfoRange.read, FanotifyEventInfoRange.read, FanotifyEventInfoRange.mk.injEq]
  exact ⟨hheader, hfield (by decide), hfield (by decide), hfield (by decide)⟩

/-- The 24 bytes of a range record are at the position: its header has the type of range records and
a length that fits into the event. -/
structure RecordAt (event : List UInt8) (record : ℕ) (info : FanotifyEventInfoRange) : Prop where
  read : info = FanotifyEventInfoRange.read ((event.drop record).take infoRangeSize)
  infoType : info.hdr.infoType = fanEventInfoTypeRange
  size_le : infoRangeSize ≤ info.hdr.len
  inside : record + info.hdr.len ≤ event.length

/-- **`parse_range` is safe.** It ends without a panic, and a range that it returns is read from the
24 bytes of a range record of the event, not in front of where it started. -/
theorem parseRangeFrom_safe (event : List UInt8) (cursor : ℕ) :
    ∃ found, parseRangeFrom event cursor = .ok found ∧ ∀ range, found = some range →
      ∃ record info, cursor ≤ record ∧ RecordAt event record info ∧ range = info.range := by
  induction hleft : event.length - cursor using Nat.strong_induction_on generalizing cursor with
  | h n ih =>
    rw [parseRangeFrom]
    split_ifs with hheader
    · have hdrop : (event.drop cursor).length = event.length - cursor := List.length_drop ..
      have hfits : infoHeaderSize ≤ (event.drop cursor).length := by omega
      rw [slice_drop (by omega)]
      simp only [bind, Except.bind]
      rw [readUnaligned_of_le hfits]
      simp only
      split_ifs with hstop hrange
      · exact ⟨none, rfl, fun range h => absurd h (by simp)⟩
      · obtain ⟨htype, hle⟩ := hrange
        rw [not_or, not_lt, not_lt] at hstop
        rw [readUnaligned_of_le (by omega)]
        refine ⟨_, rfl, fun range h => ⟨cursor, FanotifyEventInfoRange.read (event.drop cursor),
          le_rfl, ⟨?_, htype, hle, hstop.2⟩, (Option.some.inj h).symm⟩⟩
        rw [FanotifyEventInfoRange.read_take]
      · rw [not_or, not_lt, not_lt, infoHeaderSize] at hstop
        obtain ⟨found, hparse, hfound⟩ := ih _ (by omega)
          (cursor + (FanotifyEventInfoHeader.read (event.drop cursor)).len) rfl
        refine ⟨found, hparse, fun range h => ?_⟩
        obtain ⟨record, info, hcursor, hrecord, hread⟩ := hfound range h
        exact ⟨record, info, (Nat.le_add_right _ _).trans hcursor, hrecord, hread⟩
    · exact ⟨none, rfl, fun range h => absurd h (by simp)⟩

/-- The bytes `[start, start + len)` of an event in the buffer, and where its range record is. -/
structure Window where
  start : ℕ
  len : ℕ
  record : ℕ

/-- The event has been read from the window: the 24 bytes of its metadata are at the start of the
window, with the length of the window and the mask of a pre-access event in them, and its range
record, of the type and with the length of one, is inside. -/
structure Window.Reads (buf : List UInt8) (window : Window) (event : FanotifyEvent) : Prop where
  inside : window.start + window.len ≤ buf.length
  metadata_le : metadataSize ≤ window.len
  eventLen : (FanotifyEventMetadata.read ((buf.drop window.start).take metadataSize)).eventLen =
    window.len
  fd : event.fd = (FanotifyEventMetadata.read ((buf.drop window.start).take metadataSize)).fd
  preAccess : (FanotifyEventMetadata.read ((buf.drop window.start).take metadataSize)).mask &&&
    fanPreAccess ≠ 0
  start_le_record : window.start ≤ window.record
  record_le : window.record + infoRangeSize ≤ window.start + window.len
  record : ∃ info,
    info = FanotifyEventInfoRange.read ((buf.drop window.record).take infoRangeSize) ∧
    info.hdr.infoType = fanEventInfoTypeRange ∧ infoRangeSize ≤ info.hdr.len ∧
    window.record + info.hdr.len ≤ window.start + window.len ∧ event.range = info.range

/-- The loop of `parse_events` ends without a panic, and the events that it returns come from
windows behind the cursor, one after the other. -/
theorem parseEventsFrom_safe (buf : List UInt8) (cursor : ℕ) :
    ∃ events windows, parseEventsFrom buf cursor = .ok events ∧
      List.Forall₂ (Window.Reads buf) windows events ∧
      (windows.Pairwise fun window later => window.start + window.len ≤ later.start) ∧
      ∀ window ∈ windows, cursor ≤ window.start := by
  induction hleft : buf.length - cursor using Nat.strong_induction_on generalizing cursor with
  | h n ih =>
    have hnone : ∃ events windows, (Except.ok [] : Except Panic (List FanotifyEvent)) = .ok events ∧
        List.Forall₂ (Window.Reads buf) windows events ∧
        (windows.Pairwise fun window later => window.start + window.len ≤ later.start) ∧
        ∀ window ∈ windows, cursor ≤ window.start :=
      ⟨[], [], rfl, .nil, .nil, by simp⟩
    rw [parseEventsFrom]
    split_ifs with hheader
    · have hdrop : (buf.drop cursor).length = buf.length - cursor := List.length_drop ..
      have hfits : metadataSize ≤ (buf.drop cursor).length := by omega
      rw [slice_drop (by omega)]
      simp only [bind, Except.bind]
      rw [readUnaligned_of_le hfits]
      simp only
      set metadata := FanotifyEventMetadata.read (buf.drop cursor) with hmetadata
      split_ifs with hstop hmask
      · exact hnone
      · -- an event that waits for an answer
        rw [not_or, not_lt, not_le] at hstop
        obtain ⟨events, windows, hparse, hreads, hpairwise, hbehind⟩ := ih _
          (by rw [metadataSize] at hstop; omega) (cursor + metadata.eventLen) rfl
        have hbehind' (window : Window) (h : window ∈ windows) : cursor ≤ window.start :=
          (Nat.le_add_right _ _).trans (hbehind window h)
        have hslice : slice buf cursor (cursor + metadata.eventLen) =
            .ok ((buf.drop cursor).take metadata.eventLen) := by
          rw [slice, if_pos ⟨Nat.le_add_right _ _, by omega⟩, Nat.add_sub_cancel_left]
        have hlen : ((buf.drop cursor).take metadata.eventLen).length = metadata.eventLen := by
          rw [List.length_take, hdrop]
          omega
        obtain ⟨found, hrange, hfound⟩ := parseRangeFrom_safe
          ((buf.drop cursor).take metadata.eventLen) metadata.metadataLen
        rw [hslice]
        simp only [parseRange, hrange, hparse]
        cases found with
        | none => exact ⟨events, windows, rfl, hreads, hpairwise, hbehind'⟩
        | some range =>
          obtain ⟨record, info, -, hrecord, hread⟩ := hfound range rfl
          have hinside := hrecord.inside
          have hsize := hrecord.size_le
          rw [hlen] at hinside
          have hevent :
              (((buf.drop cursor).take metadata.eventLen).drop record).take infoRangeSize =
                (buf.drop (cursor + record)).take infoRangeSize := by
            rw [List.drop_take, List.take_take, min_eq_left (by omega), List.drop_drop]
          refine ⟨⟨metadata.fd, range⟩ :: events,
            ⟨cursor, metadata.eventLen, cursor + record⟩ :: windows,
            rfl, .cons ⟨by dsimp only; omega, hstop.2.le, ?_, ?_, ?_, Nat.le_add_right _ _,
              by dsimp only; omega, info, hevent ▸ hrecord.read, hrecord.infoType, hsize,
              by dsimp only; omega, hread⟩ hreads, List.pairwise_cons.mpr ⟨hbehind, hpairwise⟩, ?_⟩
          · rw [FanotifyEventMetadata.read_take]
          · rw [FanotifyEventMetadata.read_take]
          · rw [FanotifyEventMetadata.read_take]
            exact hmask
          · rintro window (_ | ⟨_, h⟩)
            · exact le_rfl
            · exact hbehind' window h
      · -- any other event
        rw [not_or, not_lt, not_le] at hstop
        obtain ⟨events, windows, hparse, hreads, hpairwise, hbehind⟩ := ih _
          (by rw [metadataSize] at hstop; omega) (cursor + metadata.eventLen) rfl
        simp only [pure, Except.pure, hparse]
        exact ⟨events, windows, rfl, hreads, hpairwise,
          fun window h => (Nat.le_add_right _ _).trans (hbehind window h)⟩
    · exact hnone

/-- **Decoding is safe on any bytes.** `parse_events` ends without a panic, whatever is in the
buffer. Each event that it returns has been read from a window of its own, and the windows are
disjoint and follow each other. -/
theorem parseEvents_safe (buf : List UInt8) :
    ∃ events windows, parseEvents buf = .ok events ∧
      List.Forall₂ (Window.Reads buf) windows events ∧
      windows.Pairwise fun window later => window.start + window.len ≤ later.start := by
  obtain ⟨events, windows, hparse, hreads, hpairwise, -⟩ := parseEventsFrom_safe buf 0
  exact ⟨events, windows, hparse, hreads, hpairwise⟩

end Fanotify

end Lazyd
