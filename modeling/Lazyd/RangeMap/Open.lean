import Lazyd.RangeMap.Header
import Lazyd.Remote.Basic

/-!
# Opening the bitmap file, and what is left of an interrupted reset

Opening a range map keeps the slots of a bitmap file whose header is the expected one and resets any
other file: it cuts the file to its new length, writes the header, zeroes the slots and syncs. The
header is in the file before the slots are zeroed, so a reset that ends early can leave slots of the
previous map behind a header that the next opening accepts.

A fault says at which step the file system fails, and how much of a write was done by then. The
contents of the file after a fault are also those after the process has died at that point.

## Main definitions

* `RangeMap.geometry`, `expectedHeader`, `initializeFile`, `openOrCreate`.
* `InitFaults`, `OpenFaults`.
* `ResetSucceeds` : the resets that succeed.
* `StaleSlots` : the interrupted resets that leave ready slots of the old file in use.

## Main results

* `initializeFile_ok_iff`, `initializeFile_success` : when a reset succeeds, and the file after it.
* `openOrCreate_of_ok`, `openOrCreate_of_ne` : the two ways of opening an existing file.
* `interrupted_reset_clears_iff` : when the opening after an interrupted reset starts with no ready
  slot.

Source: `src/range_map.rs`, lines 36–98 and 223–239.
-/

namespace Lazyd

/-- The checks and the numbers that a range map is opened with. -/
def RangeMap.geometry (file : FileKey) (blobSize unitBytes : UInt64) : Except Error RangeMap :=
  match hunit : validateFetchUnitBytes unitBytes.toNat with
  | .error err => .error err
  | .ok () =>
    match hcount : Lazyd.slotCount blobSize.toNat unitBytes.toNat with
    | .error err => .error err
    | .ok n =>
      .ok
        { file
          unitBytes := unitBytes.toNat
          blobSize := blobSize.toNat
          slotCount := n
          unitBytes_lt := unitBytes.toNat_lt
          validate := hunit
          slotCount_ok := hcount }

/-- The header of the map of a blob. -/
def expectedHeader (blob : BlobDescriptor) (unitBytes : UInt64) (slotCount : ℕ) : Header where
  magic := magic
  version := version
  unitBytes := unitBytes
  blobDigest := blob.digest
  blobSize := blob.size
  slotCount := UInt64.ofNat slotCount

/-- The faults of `initialize_file`; a write that fails may have written some bytes. -/
structure InitFaults where
  setLen : Option IoError := none
  header : Option (ℕ × IoError) := none
  slots : Option (ℕ × IoError) := none
  sync : Option IoError := none

/-- The faults of `open_or_create`. -/
structure OpenFaults where
  openFile : Option IoError := none
  readHeader : Option IoError := none
  readSlots : Option IoError := none
  init : InitFaults := {}

/-- What a step does unless the file system fails. -/
def unlessFault {α : Type*} (fault : Option IoError) (res : Except Error α) : Except Error α :=
  match fault with
  | some err => .error (.io err)
  | none => res

theorem unlessFault_eq_ok {α : Type*} {fault : Option IoError} {res : Except Error α} {a : α}
    (h : unlessFault fault res = .ok a) : res = .ok a := by
  cases fault with
  | none => exact h
  | some err => exact absurd h (by simp [unlessFault])

/-- The empty file that opening creates. -/
def newFile : File := .holes 4096 0 (Nat.succ_pos _)

structure OpenedRangeMap where
  rangeMap : RangeMap
  slots : List UInt8
  needsRecovery : Bool

section Open

variable (codec : HeaderCodec)

/-- `initialize_file`. -/
def initializeFile (f : File) (header : Header) (faults : InitFaults) : Except Error Unit × File :=
  match faults.setLen with
  | some err => (.error (.io err), f)
  | none =>
    let f : File := f.setLen (headerSize + header.slotCount.toNat)
    match encodeHeader codec header with
    | .error err => (.error err, f)
    | .ok buf =>
      match File.writeAll f 0 buf faults.header with
      | (.error err, f) => (.error err, f)
      | (.ok (), f) =>
        let zeros := List.replicate header.slotCount.toNat 0
        match if 0 < header.slotCount.toNat then File.writeAll f headerSize zeros faults.slots
          else (.ok (), f) with
        | (.error err, f) => (.error err, f)
        | (.ok (), f) => (unlessFault faults.sync (.ok ()), f)

/-- The branch of `open_or_create` that starts with no ready slot. -/
def openReset (m : RangeMap) (f : File) (header : Header) (faults : InitFaults) :
    Except Error OpenedRangeMap × File :=
  match initializeFile codec f header faults with
  | (.error err, f) => (.error err, f)
  | (.ok (), f) => (.ok ⟨m, List.replicate m.slotCount 0, false⟩, f)

/-- The part of `open_or_create` that looks at a file which existed before. -/
def openExisting (m : RangeMap) (f : File) (header : Header) (faults : OpenFaults) :
    Except Error OpenedRangeMap × File :=
  match unlessFault faults.readHeader (readHeader codec f) with
  | .error _ => openReset codec m f header faults.init
  | .ok found =>
    if found = header then
      match unlessFault faults.readSlots (readSlots f m.slotCount) with
      | .ok slots => (.ok ⟨m, slots, true⟩, f)
      | .error _ => openReset codec m f header faults.init
    else openReset codec m f header faults.init

/-- `RangeMap::open_or_create`, on the bitmap file at `key`, if there is one. -/
def openOrCreate (key : FileKey) (blob : BlobDescriptor) (unitBytes : UInt64) (faults : OpenFaults)
    (old : Option File) : Except Error OpenedRangeMap × Option File :=
  match RangeMap.geometry key blob.size unitBytes with
  | .error err => (.error err, old)
  | .ok m =>
    let expected := expectedHeader blob unitBytes m.slotCount
    match faults.openFile with
    | some err => (.error (.io err), old)
    | none =>
      match old with
      | some f => Prod.map id some (openExisting codec m f expected faults)
      | none => Prod.map id some (openReset codec m newFile expected faults.init)

end Open

/-! ### The geometry -/

theorem RangeMap.geometry_eq_ok {file : FileKey} {blobSize unitBytes : UInt64} {m : RangeMap}
    (h : geometry file blobSize unitBytes = .ok m) :
    m.file = file ∧ m.unitBytes = unitBytes.toNat ∧ m.blobSize = blobSize.toNat := by
  unfold geometry at h
  split at h
  · exact absurd h (by simp)
  · split at h
    · exact absurd h (by simp)
    · obtain rfl := Except.ok.inj h
      exact ⟨rfl, rfl, rfl⟩

theorem RangeMap.geometry_self (m : RangeMap) {blobSize unitBytes : UInt64}
    (hblob : m.blobSize = blobSize.toNat) (hunit : m.unitBytes = unitBytes.toNat) :
    geometry m.file blobSize unitBytes = .ok m := by
  have hvalidate : validateFetchUnitBytes unitBytes.toNat = .ok () := hunit ▸ m.validate
  have hcount : Lazyd.slotCount blobSize.toNat unitBytes.toNat = .ok m.slotCount :=
    hblob ▸ hunit ▸ m.slotCount_ok
  unfold geometry
  split
  · rename_i hno
    rw [hvalidate] at hno
    exact absurd hno (by simp)
  · split
    · rename_i hno
      rw [hcount] at hno
      exact absurd hno (by simp)
    · rename_i n hn
      rw [hcount] at hn
      rw [Except.ok.injEq]
      exact RangeMap.ext rfl hunit.symm hblob.symm (Except.ok.inj hn).symm

theorem RangeMap.slotCount_lt (m : RangeMap) : m.slotCount < U64.size := by
  refine lt_of_le_of_lt ?_ m.blobSize_lt
  rw [m.slotCount_eq, ceilDiv_le_iff_le_mul m.unitBytes_pos]
  exact Nat.le_mul_of_pos_left _ m.unitBytes_pos

theorem expectedHeader_slotCount (blob : BlobDescriptor) (unitBytes : UInt64) (m : RangeMap) :
    (expectedHeader blob unitBytes m.slotCount).slotCount.toNat = m.slotCount :=
  UInt64.toNat_ofNat_of_lt' m.slotCount_lt

/-! ### The file after a reset -/

/-- The number of header bytes that are written before a fault. -/
def InitFaults.headerWritten (faults : InitFaults) : ℕ :=
  match faults.header with
  | some (n, _) => n
  | none => headerSize

/-- The number of slots that are zeroed before a fault. -/
def InitFaults.slotsZeroed (faults : InitFaults) (slotCount : ℕ) : ℕ :=
  match faults.header with
  | some _ => 0
  | none =>
    match faults.slots with
    | some (n, _) => min n slotCount
    | none => slotCount

/-- The file after its length was set, `h` bytes of the header were written and `s` slots were
zeroed. -/
def resetFile (f : File) (slotCount : ℕ) (buf : List UInt8) (h s : ℕ) : File :=
  ((f.setLen (headerSize + slotCount)).writeAt 0 (buf.take h)).writeAt headerSize
    (List.replicate s 0)

section Reset

variable {codec : HeaderCodec}

theorem initializeFile_file {f : File} {header : Header} {faults : InitFaults} {buf : List UInt8}
    (hset : faults.setLen = none) (hbuf : encodeHeader codec header = .ok buf) :
    (initializeFile codec f header faults).2 =
      resetFile f header.slotCount.toNat buf faults.headerWritten
        (faults.slotsZeroed header.slotCount.toNat) := by
  have htake : buf.take headerSize = buf := by
    rw [← length_encodeHeader hbuf, List.take_length]
  rw [initializeFile, hset]
  simp only [hbuf, File.writeAll, InitFaults.headerWritten, InitFaults.slotsZeroed, resetFile]
  cases faults.header with
  | some fault => simp only [List.replicate_zero, SparseFile.writeAt_nil]
  | none =>
    simp only [htake]
    rcases Nat.eq_zero_or_pos header.slotCount.toNat with hzero | hpos
    · rw [hzero, if_neg (Nat.lt_irrefl 0)]
      cases faults.slots <;> simp
    · rw [if_pos hpos]
      cases faults.slots with
      | none => rfl
      | some fault => simp only [List.take_replicate]

/-- The reset meets no fault, and the header fits. -/
structure ResetSucceeds (codec : HeaderCodec) (header : Header) (faults : InitFaults) :
    Prop where
  setLen : faults.setLen = none
  headerWrite : faults.header = none
  slots : 0 < header.slotCount.toNat → faults.slots = none
  sync : faults.sync = none
  encodes : ∃ buf, encodeHeader codec header = .ok buf

/-- **A reset succeeds** under a condition on the header and the faults. -/
theorem initializeFile_ok_iff {f : File} {header : Header} {faults : InitFaults} :
    (initializeFile codec f header faults).1 = .ok () ↔ ResetSucceeds codec header faults := by
  constructor
  · intro hok
    unfold initializeFile at hok
    split at hok
    · exact absurd hok (by simp)
    · rename_i hset
      dsimp only at hok
      split at hok
      · exact absurd hok (by simp)
      · rename_i buf hbuf
        cases hheader : faults.header with
        | some fault => exact absurd hok (by simp [File.writeAll, hheader])
        | none =>
          simp only [File.writeAll, hheader] at hok
          have hslots : 0 < header.slotCount.toNat → faults.slots = none := by
            intro hpos
            cases hslots : faults.slots with
            | none => rfl
            | some fault => simp [hpos, hslots] at hok
          refine ⟨hset, hheader, hslots, ?_, buf, hbuf⟩
          cases hsync : faults.sync with
          | none => rfl
          | some err =>
            rcases Nat.eq_zero_or_pos header.slotCount.toNat with hzero | hpos
            · simp [hzero, hsync, unlessFault] at hok
            · simp [hpos, hslots hpos, hsync, unlessFault] at hok
  · rintro ⟨hset, hheader, hslots, hsync, buf, hbuf⟩
    simp only [initializeFile, hset, hbuf, File.writeAll, hheader, hsync]
    rcases Nat.eq_zero_or_pos header.slotCount.toNat with hzero | hpos
    · rw [hzero, if_neg (Nat.lt_irrefl 0)]
      rfl
    · rw [if_pos hpos, hslots hpos]
      rfl

theorem initializeFile_ok {f : File} {header : Header} {buf : List UInt8}
    (hbuf : encodeHeader codec header = .ok buf) :
    (initializeFile codec f header {}).1 = .ok () :=
  initializeFile_ok_iff.mpr ⟨rfl, rfl, fun _ => rfl, rfl, buf, hbuf⟩

/-- A reset that succeeds has written the header in full and zeroed all the slots. -/
theorem initializeFile_success {f f' : File} {header : Header} {faults : InitFaults}
    (h : initializeFile codec f header faults = (.ok (), f')) :
    ∃ buf, encodeHeader codec header = .ok buf ∧
      f' = resetFile f header.slotCount.toNat buf headerSize header.slotCount.toNat := by
  obtain ⟨hset, hheader, hslots, -, buf, hbuf⟩ := initializeFile_ok_iff.mp (congrArg Prod.fst h)
  have hwritten : faults.headerWritten = headerSize := by
    rw [InitFaults.headerWritten, hheader]
  have hzeroed : faults.slotsZeroed header.slotCount.toNat = header.slotCount.toNat := by
    rw [InitFaults.slotsZeroed, hheader]
    rcases Nat.eq_zero_or_pos header.slotCount.toNat with hzero | hpos
    · rw [hzero]
      cases faults.slots with
      | none => rfl
      | some fault => exact Nat.min_zero _
    · rw [hslots hpos]
  have hfile := initializeFile_file (f := f) hset hbuf
  rw [h, hwritten, hzeroed] at hfile
  exact ⟨buf, hbuf, hfile⟩

end Reset

section ResetFile

variable (f : File) {slotCount h s : ℕ} {buf : List UInt8}

theorem resetFile_len (hbuf : buf.length = headerSize) (hs : s ≤ slotCount) :
    (resetFile f slotCount buf h s).len = headerSize + slotCount := by
  have hheader : ((f.setLen (headerSize + slotCount)).writeAt 0 (buf.take h)).len =
      headerSize + slotCount := by
    refine SparseFile.writeAt_len_of_le _ _ _ ?_
    rw [List.length_take, hbuf, SparseFile.setLen_len]
    omega
  rw [resetFile, SparseFile.writeAt_len_of_le, hheader]
  rw [List.length_replicate, hheader]
  omega

theorem resetFile_slot (hbuf : buf.length = headerSize) {k : ℕ} (hk : k < slotCount) :
    (resetFile f slotCount buf h s).byte (headerSize + k) =
      if k < s then 0 else f.byte (headerSize + k) := by
  split_ifs with hks
  · rw [resetFile, SparseFile.writeAt_byte_of_mem _ _ _ (by rwa [List.length_replicate]),
      List.getD_eq_getElem?_getD, List.getElem?_replicate, if_pos hks, Option.getD_some]
  · rw [resetFile, SparseFile.writeAt_byte_of_notMem, SparseFile.writeAt_byte_of_notMem,
      SparseFile.setLen_byte, if_pos (Nat.add_lt_add_left hk _)]
    · rw [List.length_take, hbuf]
      omega
    · rw [List.length_replicate]
      omega

theorem headerBytes_resetFile (hbuf : buf.length = headerSize) :
    headerBytes (resetFile f slotCount buf h s) = buf.take h ++ (headerBytes f).drop h := by
  refine List.ext_getElem? fun i => ?_
  rcases lt_or_ge i headerSize with hi | hi
  · have hleft : (headerBytes (resetFile f slotCount buf h s))[i]? =
        some ((resetFile f slotCount buf h s).byte i) := by
      rw [headerBytes, List.getElem?_map, List.getElem?_range hi, Option.map_some]
    have hslots : (resetFile f slotCount buf h s).byte i =
        ((f.setLen (headerSize + slotCount)).writeAt 0 (buf.take h)).byte i :=
      SparseFile.writeAt_byte_of_notMem _ _ _ (by omega)
    rw [hleft, hslots]
    rcases lt_or_ge i h with hih | hih
    · have hlen : i < (buf.take h).length := by
        rw [List.length_take, hbuf]
        omega
      have hbyte := SparseFile.writeAt_byte_of_mem (f.setLen (headerSize + slotCount)) 0
        (buf.take h) hlen
      rw [Nat.zero_add] at hbyte
      rw [hbyte, List.getElem?_append_left hlen, List.getD_eq_getElem?_getD,
        List.getElem?_eq_getElem hlen, Option.getD_some]
    · have hlen : (buf.take h).length = h := by
        rw [List.length_take, hbuf]
        omega
      rw [SparseFile.writeAt_byte_of_notMem _ _ _ (by omega), SparseFile.setLen_byte,
        if_pos (by omega), List.getElem?_append_right (by omega), hlen, List.getElem?_drop,
        Nat.add_sub_cancel' hih, headerBytes, List.getElem?_map, List.getElem?_range hi,
        Option.map_some]
  · have hlength : (headerBytes f).length = headerSize := by
      rw [headerBytes, List.length_map, List.length_range]
    rw [List.getElem?_eq_none, List.getElem?_eq_none]
    · rw [List.length_append, List.length_take, List.length_drop, hlength, hbuf]
      omega
    · rw [headerBytes, List.length_map, List.length_range]
      exact hi

theorem headerBytes_writeAt {off : ℕ} (h : headerSize ≤ off) (bs : List UInt8) :
    headerBytes (f.writeAt off bs) = headerBytes f := by
  refine List.map_congr_left fun i hi => SparseFile.writeAt_byte_of_notMem _ _ _ ?_
  rw [List.mem_range] at hi
  omega

theorem headerBytes_resetFile_all (hbuf : buf.length = headerSize) :
    headerBytes (resetFile f slotCount buf headerSize s) = buf := by
  rw [headerBytes_resetFile f hbuf, List.take_of_length_le hbuf.le, List.drop_of_length_le,
    List.append_nil]
  rw [headerBytes, List.length_map, List.length_range]

end ResetFile

theorem initializeFile_slot {codec : HeaderCodec} {f f' : File} {header : Header}
    {faults : InitFaults} (h : initializeFile codec f header faults = (.ok (), f')) {k : ℕ}
    (hk : k < header.slotCount.toNat) : f'.byte (headerSize + k) = 0 := by
  obtain ⟨buf, hbuf, rfl⟩ := initializeFile_success h
  rw [resetFile_slot f (length_encodeHeader hbuf) hk, if_pos hk]

/-! ### Opening after a reset -/

section Opening

variable {codec : HeaderCodec} {key : FileKey} {blob : BlobDescriptor} {unitBytes : UInt64}
  {m : RangeMap} {buf : List UInt8}

theorem openReset_ok {f : File} {header : Header} (hbuf : encodeHeader codec header = .ok buf) :
    (openReset codec m f header {}).1 = .ok ⟨m, List.replicate m.slotCount 0, false⟩ := by
  have hok := initializeFile_ok (f := f) hbuf
  rw [openReset]
  split
  · rename_i heq
    rw [heq] at hok
    exact absurd hok (by simp)
  · rfl

theorem openReset_file (f : File) (header : Header) (faults : InitFaults) :
    (openReset codec m f header faults).2 = (initializeFile codec f header faults).2 := by
  rw [openReset]
  split <;> simp_all

/-- A file with the expected header is opened with its slots. -/
theorem openOrCreate_of_ok {f : File} (hm : RangeMap.geometry key blob.size unitBytes = .ok m)
    (hheader : readHeader codec f = .ok (expectedHeader blob unitBytes m.slotCount))
    {slots : List UInt8} (hslots : readSlots f m.slotCount = .ok slots) :
    openOrCreate codec key blob unitBytes {} (some f) = (.ok ⟨m, slots, true⟩, some f) := by
  simp only [openOrCreate, hm, openExisting, unlessFault, hheader, ↓reduceIte, hslots, Prod.map, id]

theorem readHeader_of_headerBytes {f : File} {header : Header}
    (hbuf : encodeHeader codec header = .ok buf) (hlen : headerSize ≤ f.len)
    (hheader : headerBytes f = buf) : readHeader codec f = .ok header := by
  have hparse := parseHeader_encodeHeader hbuf []
  rw [List.append_nil] at hparse
  rw [readHeader_of_len_le hlen, hheader, hparse]

/-- A file of the right length, with the header in full, is opened with its slots. -/
theorem openOrCreate_written {f : File} (hm : RangeMap.geometry key blob.size unitBytes = .ok m)
    (hbuf : encodeHeader codec (expectedHeader blob unitBytes m.slotCount) = .ok buf)
    (hlen : f.len = headerSize + m.slotCount) (hheader : headerBytes f = buf) :
    openOrCreate codec key blob unitBytes {} (some f) =
      (.ok ⟨m, (List.range m.slotCount).map fun k => f.byte (headerSize + k), true⟩, some f) :=
  openOrCreate_of_ok hm (readHeader_of_headerBytes hbuf (by omega) hheader)
    (readSlots_of_len_le hlen.ge)

/-- A file that was not there is created. -/
theorem openOrCreate_none (hm : RangeMap.geometry key blob.size unitBytes = .ok m)
    (hbuf : encodeHeader codec (expectedHeader blob unitBytes m.slotCount) = .ok buf) :
    openOrCreate codec key blob unitBytes {} none =
      (.ok ⟨m, List.replicate m.slotCount 0, false⟩,
        some (resetFile newFile m.slotCount buf headerSize m.slotCount)) := by
  have hopen : openOrCreate codec key blob unitBytes {} none = Prod.map id some
      (openReset codec m newFile (expectedHeader blob unitBytes m.slotCount) {}) := by
    simp only [openOrCreate, hm]
  have hfile := initializeFile_file (f := newFile) (rfl : ({} : InitFaults).setLen = none) hbuf
  rw [expectedHeader_slotCount] at hfile
  rw [hopen]
  exact Prod.ext (openReset_ok hbuf) (congrArg some ((openReset_file _ _ _).trans hfile))

/-- A file with another header, or with none, is reset. -/
theorem openOrCreate_of_ne {f : File} (faults : InitFaults)
    (hm : RangeMap.geometry key blob.size unitBytes = .ok m)
    (hheader : readHeader codec f ≠ .ok (expectedHeader blob unitBytes m.slotCount)) :
    openOrCreate codec key blob unitBytes { init := faults } (some f) =
      Prod.map id some
        (openReset codec m f (expectedHeader blob unitBytes m.slotCount) faults) := by
  simp only [openOrCreate, hm, openExisting, unlessFault]
  cases hread : readHeader codec f with
  | error err => rfl
  | ok found =>
    have hne : found ≠ expectedHeader blob unitBytes m.slotCount := by
      rintro rfl
      exact hheader hread
    simp only [hne, ↓reduceIte]

/-- A file with another header is reset to a file with no ready slot. -/
theorem openOrCreate_reset {f : File} (hm : RangeMap.geometry key blob.size unitBytes = .ok m)
    (hbuf : encodeHeader codec (expectedHeader blob unitBytes m.slotCount) = .ok buf)
    (hheader : readHeader codec f ≠ .ok (expectedHeader blob unitBytes m.slotCount)) :
    openOrCreate codec key blob unitBytes {} (some f) =
      (.ok ⟨m, List.replicate m.slotCount 0, false⟩,
        some (resetFile f m.slotCount buf headerSize m.slotCount)) := by
  have hfile := initializeFile_file (f := f) (rfl : ({} : InitFaults).setLen = none) hbuf
  rw [expectedHeader_slotCount] at hfile
  have hopen : openOrCreate codec key blob unitBytes {} (some f) = _ :=
    openOrCreate_of_ne {} hm hheader
  rw [hopen]
  exact Prod.ext (openReset_ok hbuf) (congrArg some ((openReset_file _ _ _).trans hfile))

/-- The slots that an opening starts with. -/
structure OpenedSlots (opened : OpenedRangeMap) (m : RangeMap) (f : File) : Prop where
  rangeMap_eq : opened.rangeMap = m
  length_slots : opened.slots.length = m.slotCount
  /-- they are those of the file -/
  slot : ∀ k < m.slotCount, f.byte (headerSize + k) = opened.slots.getD k 0
  /-- none is ready unless the file was there before -/
  clear : opened.needsRecovery = false → ∀ k, opened.slots.getD k 0 = 0

theorem openReset_slots {f f' : File} {faults : InitFaults} {opened : OpenedRangeMap}
    (h : openReset codec m f (expectedHeader blob unitBytes m.slotCount) faults =
      (.ok opened, f')) : OpenedSlots opened m f' := by
  have hzero (k : ℕ) : (List.replicate m.slotCount (0 : UInt8)).getD k 0 = 0 := by
    rw [List.getD_eq_getElem?_getD, List.getElem?_replicate]
    split_ifs <;> rfl
  rw [openReset] at h
  split at h
  · exact absurd (Prod.mk.inj h).1 (by simp)
  · rename_i hinit
    obtain ⟨hopened, rfl⟩ := Prod.mk.inj h
    obtain rfl := Except.ok.inj hopened
    refine ⟨rfl, List.length_replicate, fun k hk => ?_, fun _ => hzero⟩
    rw [hzero, initializeFile_slot hinit (by rwa [expectedHeader_slotCount])]

theorem openExisting_slots {f f' : File} {faults : OpenFaults} {opened : OpenedRangeMap}
    (h : openExisting codec m f (expectedHeader blob unitBytes m.slotCount) faults =
      (.ok opened, f')) : OpenedSlots opened m f' := by
  rw [openExisting] at h
  split at h
  · exact openReset_slots h
  · split_ifs at h
    · split at h
      · rename_i slots hread
        obtain ⟨hopened, rfl⟩ := Prod.mk.inj h
        obtain rfl := Except.ok.inj hopened
        have hslots : readSlots f m.slotCount = .ok slots := unlessFault_eq_ok hread
        refine ⟨rfl, length_readSlots hslots, fun k hk => ?_, fun hno => absurd hno (by simp)⟩
        exact (readSlots_getD hslots hk).symm
      · exact openReset_slots h
    · exact openReset_slots h

/-- **Opening.** Whatever faults it meets, an opening that succeeds starts with the slots of the
bitmap file that it leaves behind. -/
theorem openOrCreate_slots {faults : OpenFaults} {old file : Option File} {opened : OpenedRangeMap}
    (hm : RangeMap.geometry key blob.size unitBytes = .ok m)
    (h : openOrCreate codec key blob unitBytes faults old = (.ok opened, file)) :
    ∃ f, file = some f ∧ OpenedSlots opened m f := by
  simp only [openOrCreate, hm] at h
  split at h
  · exact absurd (Prod.mk.inj h).1 (by simp)
  · split at h
    · obtain ⟨hopened, rfl⟩ := Prod.mk.inj h
      exact ⟨_, rfl, openExisting_slots (Prod.ext hopened rfl)⟩
    · obtain ⟨hopened, rfl⟩ := Prod.mk.inj h
      exact ⟨_, rfl, openReset_slots (Prod.ext hopened rfl)⟩

/-- An open range map has the geometry of what it was opened for. -/
theorem openOrCreate_rangeMap {codec : HeaderCodec} {key : FileKey} {blob : BlobDescriptor}
    {unitBytes : UInt64} {faults : OpenFaults} {old file : Option File} {opened : OpenedRangeMap}
    (h : openOrCreate codec key blob unitBytes faults old = (.ok opened, file)) :
    RangeMap.geometry key blob.size unitBytes = .ok opened.rangeMap := by
  cases hm : RangeMap.geometry key blob.size unitBytes with
  | error err =>
    rw [openOrCreate, hm] at h
    exact absurd (Prod.mk.inj h).1 (by simp)
  | ok m =>
    obtain ⟨f, -, hslots⟩ := openOrCreate_slots hm h
    rw [hslots.rangeMap_eq]

variable (codec) in
/-- The reset got past its first step, the header in the file is the new one, written in full or
not, and a ready slot of the old file is within the new length and not zeroed. -/
def StaleSlots (old : File) (header : Header) (buf : List UInt8) (faults : InitFaults) : Prop :=
  faults.setLen = none ∧
    parseHeader codec (buf.take faults.headerWritten ++
      (headerBytes old).drop faults.headerWritten) = .ok header ∧
    ∃ k, faults.slotsZeroed header.slotCount.toNat ≤ k ∧ k < header.slotCount.toNat ∧
      old.byte (headerSize + k) ≠ 0

/-- Opening a file of the new length finds its slots ready exactly when it has the new header. -/
theorem openOrCreate_clear_iff {f : File}
    (hm : RangeMap.geometry key blob.size unitBytes = .ok m)
    (hbuf : encodeHeader codec (expectedHeader blob unitBytes m.slotCount) = .ok buf)
    (hlen : f.len = headerSize + m.slotCount) :
    (∃ opened f', openOrCreate codec key blob unitBytes {} (some f) = (.ok opened, f') ∧
      ∀ slot ∈ opened.slots, slot = 0) ↔
    (parseHeader codec (headerBytes f) = .ok (expectedHeader blob unitBytes m.slotCount) →
      ∀ k < m.slotCount, f.byte (headerSize + k) = 0) := by
  have hread : readHeader codec f = parseHeader codec (headerBytes f) :=
    readHeader_of_len_le (by omega)
  have hslots := readSlots_of_len_le (f := f) hlen.ge
  by_cases hheader : readHeader codec f = .ok (expectedHeader blob unitBytes m.slotCount)
  · rw [openOrCreate_of_ok hm hheader hslots, ← hread]
    constructor
    · rintro ⟨opened, f', heq, hzero⟩ - k hk
      obtain rfl := Except.ok.inj (Prod.mk.inj heq).1
      exact hzero _ (List.mem_map.mpr ⟨k, List.mem_range.mpr hk, rfl⟩)
    · intro hzero
      refine ⟨_, _, rfl, fun slot hslot => ?_⟩
      obtain ⟨k, hk, rfl⟩ := List.mem_map.mp hslot
      exact hzero hheader k (List.mem_range.mp hk)
  · refine iff_of_true ?_ fun hparse => absurd (hread.trans hparse) hheader
    have hreset := openReset_ok (m := m) (f := f) hbuf
    rw [openOrCreate_of_ne {} hm hheader]
    exact ⟨_, _, Prod.ext hreset rfl, fun slot hslot => List.eq_of_mem_replicate hslot⟩

/-- **Interrupted resets.** Let a bitmap file have another header than the expected one, or none.
Opening it resets it; let the reset meet any faults, or the process die there. The next opening
starts with no ready slot exactly when no ready slot of the old file is left behind the new
header. -/
theorem interrupted_reset_clears_iff {old : File} (faults : InitFaults)
    (hm : RangeMap.geometry key blob.size unitBytes = .ok m)
    (hbuf : encodeHeader codec (expectedHeader blob unitBytes m.slotCount) = .ok buf)
    (hold : readHeader codec old ≠ .ok (expectedHeader blob unitBytes m.slotCount)) :
    (∃ opened f', openOrCreate codec key blob unitBytes {}
        (openOrCreate codec key blob unitBytes { init := faults } (some old)).2 =
          (.ok opened, f') ∧ ∀ slot ∈ opened.slots, slot = 0) ↔
      ¬ StaleSlots codec old (expectedHeader blob unitBytes m.slotCount) buf faults := by
  have hcount := expectedHeader_slotCount blob unitBytes m
  have hlength := length_encodeHeader hbuf
  rw [openOrCreate_of_ne _ hm hold, Prod.map_snd, openReset_file, StaleSlots, hcount]
  cases hset : faults.setLen with
  | some err =>
    -- nothing was changed, and the next opening resets the file again
    have hfile : (initializeFile codec old (expectedHeader blob unitBytes m.slotCount) faults).2 =
        old := by
      rw [initializeFile, hset]
    rw [hfile, openOrCreate_of_ne _ hm hold]
    refine iff_of_true ⟨_, _, Prod.ext (openReset_ok hbuf) rfl, ?_⟩ fun hstale => ?_
    · exact fun slot hslot => List.eq_of_mem_replicate hslot
    · exact absurd hstale.1 (by simp)
  | none =>
    have hzeroed : faults.slotsZeroed m.slotCount ≤ m.slotCount := by
      rw [InitFaults.slotsZeroed]
      split
      · exact Nat.zero_le _
      · split
        · exact min_le_right _ _
        · exact le_rfl
    rw [initializeFile_file hset hbuf, hcount,
      openOrCreate_clear_iff hm hbuf (resetFile_len old hlength hzeroed),
      headerBytes_resetFile old hlength]
    simp only [true_and, not_and, not_exists, not_not]
    refine imp_congr_right fun _ => forall_congr' fun k => ?_
    constructor
    · intro h hle hk
      have hbyte := h hk
      rwa [resetFile_slot old hlength hk, if_neg (not_lt.mpr hle)] at hbyte
    · intro h hk
      rw [resetFile_slot old hlength hk]
      split_ifs with hlt
      · rfl
      · exact h (not_lt.mp hlt) hk

/-- A reset that ends between its header and its slots hands the old slots over. -/
theorem openOrCreate_after_header {old : File} (err : IoError)
    (hm : RangeMap.geometry key blob.size unitBytes = .ok m)
    (hbuf : encodeHeader codec (expectedHeader blob unitBytes m.slotCount) = .ok buf)
    (hold : readHeader codec old ≠ .ok (expectedHeader blob unitBytes m.slotCount)) :
    (openOrCreate codec key blob unitBytes {}
      (openOrCreate codec key blob unitBytes { init := { slots := some (0, err) } }
        (some old)).2).1 =
      .ok ⟨m, (List.range m.slotCount).map fun k => old.byte (headerSize + k), true⟩ := by
  have hlength := length_encodeHeader hbuf
  rw [openOrCreate_of_ne _ hm hold, Prod.map_snd, openReset_file, initializeFile_file rfl hbuf,
    expectedHeader_slotCount]
  have hzeroed : InitFaults.slotsZeroed { slots := some (0, err) } m.slotCount = 0 :=
    Nat.zero_min _
  have hwritten : InitFaults.headerWritten { slots := some (0, err) } = headerSize := rfl
  rw [hzeroed, hwritten]
  rw [openOrCreate_written hm hbuf (resetFile_len old hlength (Nat.zero_le m.slotCount))
    (headerBytes_resetFile_all old hlength)]
  have hslots : ((List.range m.slotCount).map fun k =>
      (resetFile old m.slotCount buf headerSize 0).byte (headerSize + k)) =
      (List.range m.slotCount).map fun k => old.byte (headerSize + k) := by
    refine List.map_congr_left fun k hk => ?_
    rw [resetFile_slot old hlength (List.mem_range.mp hk), if_neg (Nat.not_lt_zero k)]
  rw [hslots]

end Opening

/-! ### A stale slot -/

/-- The descriptors of two blobs of three bytes. -/
def oldBlob : BlobDescriptor := { digest := "sha256:old", size := 3, mediaType := none }

def newBlob : BlobDescriptor := { digest := "sha256:abc", size := 3, mediaType := none }

/-- The bitmap file of a blob whose one slot is ready. -/
def readyFile (buf : List UInt8) : File :=
  (resetFile newFile 1 buf headerSize 1).writeAt headerSize [1]

theorem readHeader_readyFile {codec : HeaderCodec} {header : Header} {buf : List UInt8}
    (hbuf : encodeHeader codec header = .ok buf) :
    readHeader codec (readyFile buf) = .ok header := by
  have hlength := length_encodeHeader hbuf
  have hlen := resetFile_len newFile hlength (Nat.le_refl 1) (h := headerSize)
  refine readHeader_of_headerBytes hbuf (le_trans ?_ (SparseFile.len_le_writeAt_len _ _ _)) ?_
  · omega
  · rw [readyFile, headerBytes_writeAt _ le_rfl, headerBytes_resetFile_all _ hlength]

theorem encodeHeader_small : ∀ blob ∈ [oldBlob, newBlob],
    (headerJson.encode (expectedHeader blob 1048576 1)).length + 1 ≤ headerSize := by
  decide +kernel

/-- The bitmap file of the old blob with its slot ready, about to be opened for the new blob. -/
theorem exists_readyFile : ∃ (old : File) (m : RangeMap) (buf : List UInt8),
    RangeMap.geometry ⟨1, 2⟩ newBlob.size 1048576 = .ok m ∧ m.slotCount = 1 ∧
    encodeHeader headerJson (expectedHeader newBlob 1048576 m.slotCount) = .ok buf ∧
    readHeader headerJson old ≠ .ok (expectedHeader newBlob 1048576 m.slotCount) ∧
    old.byte headerSize = 1 := by
  obtain ⟨oldBuf, hold⟩ := exists_encodeHeader (encodeHeader_small oldBlob (by decide))
  obtain ⟨newBuf, hnew⟩ := exists_encodeHeader (encodeHeader_small newBlob (by decide))
  obtain ⟨m, hm, hone⟩ : ∃ m, RangeMap.geometry ⟨1, 2⟩ newBlob.size 1048576 = .ok m ∧
      m.slotCount = 1 := ⟨_, rfl, rfl⟩
  have hother : readHeader headerJson (readyFile oldBuf) ≠
      .ok (expectedHeader newBlob 1048576 1) := by
    rw [readHeader_readyFile hold]
    intro hsame
    exact absurd (congrArg Header.blobDigest (Except.ok.inj hsame)) (by decide)
  rw [← hone] at hnew hother
  refine ⟨readyFile oldBuf, m, newBuf, hm, hone, hnew, hother, ?_⟩
  exact SparseFile.writeAt_byte_of_mem _ headerSize [1] (i := 0) Nat.one_pos

/-- The slot of the old blob is ready after the reset for the new one has failed behind its
header. -/
theorem interrupted_reset_keeps_ready_slot :
    ∃ old : File, readHeader headerJson old ≠ .ok (expectedHeader newBlob 1048576 1) ∧
      ∃ opened : OpenedRangeMap,
        (openOrCreate headerJson ⟨1, 2⟩ newBlob 1048576 {}
          (openOrCreate headerJson ⟨1, 2⟩ newBlob 1048576 { init := { slots := some (0, .os 5) } }
            (some old)).2).1 = .ok opened ∧ opened.slots = [1] := by
  obtain ⟨old, m, buf, hm, hone, hnew, hother, hbyte⟩ := exists_readyFile
  refine ⟨old, by rwa [hone] at hother, _,
    openOrCreate_after_header (.os 5) hm hnew hother, ?_⟩
  rw [hone]
  change [old.byte (headerSize + 0)] = [1]
  rw [Nat.add_zero, hbyte]

/-- The same reset, failing behind its slots, leaves no slot ready. -/
theorem interrupted_reset_clears_newBlob :
    ∃ old : File, old.byte headerSize = 1 ∧
      ∃ opened f', openOrCreate headerJson ⟨1, 2⟩ newBlob 1048576 {}
        (openOrCreate headerJson ⟨1, 2⟩ newBlob 1048576 { init := { sync := some (.os 5) } }
          (some old)).2 = (.ok opened, f') ∧ ∀ slot ∈ opened.slots, slot = 0 := by
  obtain ⟨old, m, buf, hm, hone, hnew, hother, hbyte⟩ := exists_readyFile
  refine ⟨old, hbyte, ?_⟩
  refine (interrupted_reset_clears_iff { sync := some (.os 5) } hm hnew hother).mpr ?_
  rintro ⟨-, -, k, hle, hlt, -⟩
  rw [expectedHeader_slotCount] at hle hlt
  exact absurd hlt (not_lt.mpr hle)

end Lazyd
