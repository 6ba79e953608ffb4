import Lazyd.RangeMap.Slots
import Lazyd.Library.JsonBytes

/-!
# The header of the bitmap file

The bitmap file starts with a header of `headerSize` bytes: a line of JSON that describes the blob
and the geometry of the map, ended by a newline and filled up with zeros. The slots follow. How the
description is written as JSON is the part of a library that is not here; what is used of it is in
`HeaderCodec`, and `headerJson` is the compact JSON of the fields in the order of the source.

## Main definitions

* `Header`, `HeaderCodec`, `headerJson`.
* `encodeHeader`, `parseHeader`, `readHeader`, `readSlots`.

## Main results

* `parseHeader_encodeHeader` : a header is read back from its encoding, whatever follows it.
* `readHeader_of_len_le`, `readSlots_of_len_le` : what is read from a file that is long enough.

Source: `src/range_map.rs`, lines 14–26 and 241–272.
-/

namespace Lazyd

def magic : String := "lazyd-range-map"

def version : UInt32 := 1

structure Header where
  magic : String
  version : UInt32
  unitBytes : UInt64
  blobDigest : String
  blobSize : UInt64
  slotCount : UInt64
  deriving DecidableEq, Repr

/-- A JSON encoding of headers: it is read back as it was written, and it has no raw newline or
zero byte. -/
structure HeaderCodec where
  encode : Header → List UInt8
  decode : List UInt8 → Except String Header
  decode_encode : ∀ h, decode (encode h) = .ok h
  encode_ne_nil : ∀ h, encode h ≠ []
  terminator_notMem : ∀ h, ∀ b ∈ encode h, b ≠ 10 ∧ b ≠ 0

/-! ### Reading and writing -/

section Codec

variable (codec : HeaderCodec)

/-- `encode_header`. -/
def encodeHeader (header : Header) : Except Error (List UInt8) :=
  let encoded := codec.encode header
  if headerSize < encoded.length + 1 then .error (.badRequest "range map header too large")
  else .ok (encoded ++ 10 :: List.replicate (headerSize - encoded.length - 1) 0)

/-- `read_header`, after the bytes of the header have been read. -/
def parseHeader (buf : List UInt8) : Except Error Header :=
  match buf.findIdx? fun byte => byte == 10 || byte == 0 with
  | none => .error (.badRequest "range map header terminator missing")
  | some fin =>
    if fin = 0 then .error (.badRequest "range map header is empty")
    else
      match codec.decode (buf.take fin) with
      | .error msg => .error (.json msg)
      | .ok header => .ok header

/-- `read_header`. -/
def readHeader (f : File) : Except Error Header :=
  match f.readExactAt 0 headerSize with
  | none => .error (.io (.unexpectedEof "failed to fill whole buffer"))
  | some buf => parseHeader codec buf

end Codec

/-- `read_slots`. -/
def readSlots (f : File) (slotCount : ℕ) : Except Error (List UInt8) :=
  if slotCount = 0 then .ok []
  else
    match f.readExactAt headerSize slotCount with
    | none => .error (.io (.unexpectedEof "failed to fill whole buffer"))
    | some slots => .ok slots

variable {codec : HeaderCodec}

theorem length_encodeHeader {header : Header} {buf : List UInt8}
    (h : encodeHeader codec header = .ok buf) : buf.length = headerSize := by
  rw [encodeHeader] at h
  split_ifs at h with hlen
  rw [← Except.ok.inj h, List.length_append, List.length_cons, List.length_replicate]
  omega

theorem exists_encodeHeader {header : Header}
    (h : (codec.encode header).length + 1 ≤ headerSize) :
    ∃ buf, encodeHeader codec header = .ok buf := by
  rw [encodeHeader, if_neg (not_lt.mpr h)]
  exact ⟨_, rfl⟩

/-- **The header reads back.** What stands behind the encoded header does not matter. -/
theorem parseHeader_encodeHeader {header : Header} {buf : List UInt8}
    (h : encodeHeader codec header = .ok buf) (rest : List UInt8) :
    parseHeader codec (buf ++ rest) = .ok header := by
  rw [encodeHeader] at h
  split_ifs at h with hlen
  obtain rfl := Except.ok.inj h
  have hfind (l : List UInt8) : (codec.encode header ++ 10 :: l).findIdx?
      (fun byte => byte == 10 || byte == 0) = some (codec.encode header).length := by
    rw [List.findIdx?_append, List.findIdx?_eq_none_iff.mpr, List.findIdx?_cons]
    · simp only [beq_self_eq_true, Bool.true_or, ↓reduceIte, Option.none_or, Option.map_some,
        Nat.zero_add]
    · intro b hb
      obtain ⟨h₁, h₂⟩ := codec.terminator_notMem header b hb
      rw [Bool.or_eq_false_iff, beq_eq_false_iff_ne, beq_eq_false_iff_ne]
      exact ⟨h₁, h₂⟩
  have hne : (codec.encode header).length ≠ 0 := fun hzero =>
    codec.encode_ne_nil header (List.length_eq_zero_iff.mp hzero)
  rw [parseHeader, List.append_assoc, List.cons_append, hfind]
  simp only [hne, ↓reduceIte, List.take_left, codec.decode_encode]

/-- The first bytes of a file. -/
def headerBytes (f : File) : List UInt8 := (List.range headerSize).map f.byte

theorem readHeader_of_len_le {f : File} (h : headerSize ≤ f.len) :
    readHeader codec f = parseHeader codec (headerBytes f) := by
  rw [readHeader, SparseFile.readExactAt, if_pos (Or.inr ((Nat.zero_add _).trans_le h))]
  simp only [Nat.zero_add, headerBytes]

theorem readSlots_of_len_le {f : File} {n : ℕ} (h : headerSize + n ≤ f.len) :
    readSlots f n = .ok ((List.range n).map fun k => f.byte (headerSize + k)) := by
  rw [readSlots, SparseFile.readExactAt, if_pos (Or.inr h)]
  split_ifs with hn
  · rw [hn]
    rfl
  · rfl

theorem length_readSlots {f : File} {n : ℕ} {slots : List UInt8} (h : readSlots f n = .ok slots) :
    slots.length = n := by
  rw [readSlots] at h
  split_ifs at h with hn
  · rw [hn, ← Except.ok.inj h, List.length_nil]
  · cases hread : f.readExactAt headerSize n with
    | none =>
      rw [hread] at h
      exact absurd h (by simp)
    | some bytes =>
      rw [hread] at h
      obtain ⟨-, hbytes⟩ := SparseFile.readExactAt_eq_some hread
      rw [← Except.ok.inj h, hbytes, List.length_map, List.length_range]

theorem len_le_of_readSlots {f : File} {n : ℕ} {slots : List UInt8} (h : readSlots f n = .ok slots)
    (hlen : headerSize ≤ f.len) : headerSize + n ≤ f.len := by
  rw [readSlots] at h
  split_ifs at h with hn
  · rwa [hn, Nat.add_zero]
  · cases hread : f.readExactAt headerSize n with
    | none =>
      rw [hread] at h
      exact absurd h (by simp)
    | some bytes => exact (SparseFile.readExactAt_eq_some hread).1.resolve_left hn

theorem readSlots_getD {f : File} {n : ℕ} {slots : List UInt8} (h : readSlots f n = .ok slots)
    {k : ℕ} (hk : k < n) : slots.getD k 0 = f.byte (headerSize + k) := by
  rw [readSlots, if_neg (by omega)] at h
  cases hread : f.readExactAt headerSize n with
  | none =>
    rw [hread] at h
    exact absurd h (by simp)
  | some bytes =>
    rw [hread] at h
    obtain ⟨-, hbytes⟩ := SparseFile.readExactAt_eq_some hread
    rw [← Except.ok.inj h, hbytes, List.getD_eq_getElem?_getD, List.getElem?_map,
      List.getElem?_range hk, Option.map_some, Option.getD_some]

/-! ### Compact JSON -/

namespace HeaderJson

open JsonBytes

/-- The key of a field, behind the opening brace or a comma. -/
def key (start : UInt8) (name : String) : List UInt8 := start :: 34 :: (utf8 name ++ [34, 58])

/-- The opening brace. -/
def brace : UInt8 := 123

def comma : UInt8 := 44

/-- The closing brace. -/
def close : List UInt8 := [125]

def write (h : Header) : List UInt8 :=
  key brace "magic" ++ (writeString (utf8 h.magic) ++ (key comma "version" ++
    (writeNat h.version.toNat ++ (key comma "unit_bytes" ++ (writeNat h.unitBytes.toNat ++
      (key comma "blob_digest" ++ (writeString (utf8 h.blobDigest) ++ (key comma "blob_size" ++
        (writeNat h.blobSize.toNat ++ (key comma "slot_count" ++
          (writeNat h.slotCount.toNat ++ close)))))))))))

def readText (bs : List UInt8) : Option (String × List UInt8) :=
  (readString bs).bind fun p => (String.fromUTF8? ⟨p.1.toArray⟩).map fun s => (s, p.2)

/-- A number below a bound. -/
def readUnsigned (size : ℕ) (bs : List UInt8) : Option (ℕ × List UInt8) :=
  (readNat bs).bind fun p => if p.1 < size then some p else none

def read (bs : List UInt8) : Option Header := do
  let bs ← readLit (key brace "magic") bs
  let (magic, bs) ← readText bs
  let bs ← readLit (key comma "version") bs
  let (version, bs) ← readUnsigned UInt32.size bs
  let bs ← readLit (key comma "unit_bytes") bs
  let (unitBytes, bs) ← readUnsigned UInt64.size bs
  let bs ← readLit (key comma "blob_digest") bs
  let (blobDigest, bs) ← readText bs
  let bs ← readLit (key comma "blob_size") bs
  let (blobSize, bs) ← readUnsigned UInt64.size bs
  let bs ← readLit (key comma "slot_count") bs
  let (slotCount, bs) ← readUnsigned UInt64.size bs
  if bs = close then
    some
      { magic, version := UInt32.ofNat version, unitBytes := UInt64.ofNat unitBytes, blobDigest,
        blobSize := UInt64.ofNat blobSize, slotCount := UInt64.ofNat slotCount }
  else none

theorem readText_writeString (s : String) (rest : List UInt8) :
    readText (writeString (utf8 s) ++ rest) = some (s, rest) := by
  have hbytes : (⟨(utf8 s).toArray⟩ : ByteArray) = s.toByteArray := rfl
  rw [readText, readString_writeString, Option.bind_some, hbytes, String.fromUTF8?,
    dif_pos s.isValidUTF8, Option.map_some]
  rfl

theorem readUnsigned_writeNat {n size : ℕ} (h : n < size) {rest : List UInt8}
    (hrest : ∀ b, rest.head? = some b → isDigit b = false) :
    readUnsigned size (writeNat n ++ rest) = some (n, rest) := by
  rw [readUnsigned, readNat_writeNat n hrest, Option.bind_some, if_pos h]

theorem isDigit_of_head? {start : UInt8} (hstart : isDigit start = false) (name : String)
    (rest : List UInt8) (b : UInt8) (hb : (key start name ++ rest).head? = some b) :
    isDigit b = false := by
  obtain rfl := Option.some.inj hb
  exact hstart

theorem read_write (h : Header) : read (write h) = some h := by
  have hcomma : isDigit comma = false := rfl
  have hclose (b : UInt8) (hb : close.head? = some b) : isDigit b = false := by
    obtain rfl := Option.some.inj hb
    rfl
  simp only [read, write, readLit_append, readText_writeString,
    readUnsigned_writeNat h.version.toNat_lt (isDigit_of_head? hcomma _ _),
    readUnsigned_writeNat h.unitBytes.toNat_lt (isDigit_of_head? hcomma _ _),
    readUnsigned_writeNat h.blobSize.toNat_lt (isDigit_of_head? hcomma _ _),
    readUnsigned_writeNat h.slotCount.toNat_lt hclose, Option.bind_eq_bind, Option.bind_some,
    ↓reduceIte, UInt32.ofNat_toNat, UInt64.ofNat_toNat]

theorem le_of_mem_write {h : Header} {b : UInt8} (hb : b ∈ write h) : 32 ≤ b.toNat := by
  have hkey : ∀ start ∈ [brace, comma], ∀ name ∈ ["magic", "version", "unit_bytes", "blob_digest",
      "blob_size", "slot_count"], ∀ b ∈ key start name, 32 ≤ b.toNat := by decide +kernel
  simp only [write, List.mem_append] at hb
  rcases hb with hb | hb | hb | hb | hb | hb | hb | hb | hb | hb | hb | hb | hb
  · exact hkey _ (by decide) _ (by decide) b hb
  · exact le_of_mem_writeString hb
  · exact hkey _ (by decide) _ (by decide) b hb
  · exact le_of_mem_writeNat hb
  · exact hkey _ (by decide) _ (by decide) b hb
  · exact le_of_mem_writeNat hb
  · exact hkey _ (by decide) _ (by decide) b hb
  · exact le_of_mem_writeString hb
  · exact hkey _ (by decide) _ (by decide) b hb
  · exact le_of_mem_writeNat hb
  · exact hkey _ (by decide) _ (by decide) b hb
  · exact le_of_mem_writeNat hb
  · rw [List.mem_singleton.mp hb]
    decide

end HeaderJson

/-- The compact JSON of the fields in the order of the source. -/
def headerJson : HeaderCodec where
  encode := HeaderJson.write
  decode bs := (HeaderJson.read bs).elim (.error "invalid header") .ok
  decode_encode h := by rw [HeaderJson.read_write, Option.elim_some]
  encode_ne_nil _ := List.cons_ne_nil _ _
  terminator_notMem h b hb := by
    have hle := HeaderJson.le_of_mem_write hb
    constructor
    · rintro rfl
      exact absurd hle (by decide)
    · rintro rfl
      exact absurd hle (by decide)

end Lazyd
