import Lazyd.RangeMap.Opened

/-!
# The bitmap file is the header and the slots in memory

`update_range` writes slots to the bitmap file first and then sets them in memory. As long as the
file system does not fail, the file is the encoded header followed by the slots in memory, from the
opening that has created or reset it and through all openings later. So an opening with the same
descriptor gets the slots back, and one with another descriptor starts over.

## Main definitions

* `RangeMap.updateRange`, `RangeMap.setRangeReady`, `RangeMap.clearRangeReady`.
* `BitmapRun` : the bitmap file and the slots in memory over any number of updates and openings.
* `Persisted` : the invariant.

## Main results

* `persisted_update` : an update keeps it.
* `bitmap_persists` : what is in the file, and what the next opening makes of it.

Source: `src/range_map.rs`, lines 42–98, 108–114, 135–148 and 230–272.
-/

namespace Lazyd

namespace RangeMap

variable (m : RangeMap)

/-- `RangeMap::update_range`, on the bitmap file and the slots in memory. -/
def updateRange (start len : ℕ) (value : UInt8) (fault : Option (ℕ × IoError)) (f : File)
    (slots : List UInt8) : Except Error Unit × File × List UInt8 :=
  match m.slotsForRange start len with
  | .error err => (.error err, f, slots)
  | .ok (slotStart, slotEnd) =>
    if slotStart = slotEnd then (.ok (), f, slots)
    else
      let bytes := List.replicate (slotEnd - slotStart) value
      match File.writeAll f (headerSize + slotStart) bytes fault with
      | (.error err, f) => (.error err, f, slots)
      | (.ok (), f) => (.ok (), f, fillSlots slots slotStart slotEnd value)

/-- `RangeMap::set_range_ready` -/
def setRangeReady (start len : ℕ) : Option (ℕ × IoError) → File → List UInt8 →
    Except Error Unit × File × List UInt8 := m.updateRange start len 1

/-- `RangeMap::clear_range_ready` -/
def clearRangeReady (start len : ℕ) : Option (ℕ × IoError) → File → List UInt8 →
    Except Error Unit × File × List UInt8 := m.updateRange start len 0

end RangeMap

section Persist

variable (codec : HeaderCodec) (key : FileKey)

/-- The bitmap file and the slots in memory of a range map that was created or reset at first, and
updated and opened again since then, with the same descriptor or another one. -/
inductive BitmapRun : BlobDescriptor → UInt64 → RangeMap → File → List UInt8 → Prop
  | opened {blob : BlobDescriptor} {unitBytes : UInt64} {old : Option File}
      {opened : OpenedRangeMap} {f : File}
      (hopen : openOrCreate codec key blob unitBytes {} old = (.ok opened, some f))
      (hclear : opened.needsRecovery = false) :
      BitmapRun blob unitBytes opened.rangeMap f opened.slots
  | set {blob : BlobDescriptor} {unitBytes : UInt64} {m : RangeMap} {f f' : File}
      {slots slots' : List UInt8} {res : Except Error Unit}
      (hrun : BitmapRun blob unitBytes m f slots) (start len : ℕ)
      (hset : m.setRangeReady start len none f slots = (res, f', slots')) :
      BitmapRun blob unitBytes m f' slots'
  | clear {blob : BlobDescriptor} {unitBytes : UInt64} {m : RangeMap} {f f' : File}
      {slots slots' : List UInt8} {res : Except Error Unit}
      (hrun : BitmapRun blob unitBytes m f slots) (start len : ℕ)
      (hclear : m.clearRangeReady start len none f slots = (res, f', slots')) :
      BitmapRun blob unitBytes m f' slots'
  | reopened {blob blob' : BlobDescriptor} {unitBytes unitBytes' : UInt64} {m : RangeMap}
      {f f' : File} {slots : List UInt8} {opened : OpenedRangeMap}
      (hrun : BitmapRun blob unitBytes m f slots)
      (hopen : openOrCreate codec key blob' unitBytes' {} (some f) = (.ok opened, some f')) :
      BitmapRun blob' unitBytes' opened.rangeMap f' opened.slots

/-- The file has the header of the descriptor in full, and the slots in memory. -/
structure Persisted (blob : BlobDescriptor) (unitBytes : UInt64) (m : RangeMap) (f : File)
    (slots : List UInt8) : Prop where
  geometry : RangeMap.geometry key blob.size unitBytes = .ok m
  written : Written codec (expectedHeader blob unitBytes m.slotCount) m.slotCount f
  slots_eq : slots = (List.range m.slotCount).map fun k => f.byte (headerSize + k)

variable {codec key} {blob blob' : BlobDescriptor} {unitBytes unitBytes' : UInt64} {m : RangeMap}
  {f : File} {slots : List UInt8}

/-! ### The contents of the file -/

theorem contents_eq {n : ℕ} (h : f.len = headerSize + n) :
    f.contents = headerBytes f ++ (List.range n).map fun k => f.byte (headerSize + k) := by
  rw [SparseFile.contents, h, List.range_add, List.map_append, List.map_map]
  rfl

theorem Persisted.contents (h : Persisted codec key blob unitBytes m f slots) :
    f.contents = headerBytes f ++ slots := by
  rw [contents_eq h.written.len_eq, h.slots_eq]

theorem Persisted.getElem?_slots (h : Persisted codec key blob unitBytes m f slots) (k : ℕ) :
    slots[k]? = if k < m.slotCount then some (f.byte (headerSize + k)) else none := by
  rw [h.slots_eq, List.getElem?_map]
  split_ifs with hk
  · rw [List.getElem?_range hk, Option.map_some]
  · rw [List.getElem?_eq_none (by rw [List.length_range]; omega), Option.map_none]

/-- A file with no slot set. -/
theorem persisted_of_written (hm : RangeMap.geometry key blob.size unitBytes = .ok m)
    (h : Written codec (expectedHeader blob unitBytes m.slotCount) m.slotCount f)
    (hzero : ∀ k < m.slotCount, f.byte (headerSize + k) = 0) :
    Persisted codec key blob unitBytes m f (List.replicate m.slotCount 0) := by
  refine ⟨hm, h, (List.eq_replicate_iff.mpr ⟨?_, fun b hb => ?_⟩).symm⟩
  · rw [List.length_map, List.length_range]
  · obtain ⟨k, hk, rfl⟩ := List.mem_map.mp hb
    exact hzero k (List.mem_range.mp hk)

/-! ### Updates -/

/-- A write of slots to the file and to the memory. -/
theorem Persisted.fill (h : Persisted codec key blob unitBytes m f slots) {slotStart slotEnd : ℕ}
    (hle : slotStart ≤ slotEnd) (hend : slotEnd ≤ m.slotCount) (value : UInt8) :
    Persisted codec key blob unitBytes m
      (f.writeAt (headerSize + slotStart) (List.replicate (slotEnd - slotStart) value))
      (fillSlots slots slotStart slotEnd value) := by
  have hlen : (f.writeAt (headerSize + slotStart)
      (List.replicate (slotEnd - slotStart) value)).len = f.len := by
    refine SparseFile.writeAt_len_of_le _ _ _ ?_
    rw [List.length_replicate, h.written.len_eq]
    omega
  refine ⟨h.geometry, ⟨hlen.trans h.written.len_eq, ?_⟩, List.ext_getElem? fun k => ?_⟩
  · rw [headerBytes_writeAt _ (Nat.le_add_right _ _)]
    exact h.written.header
  · rw [getElem?_fillSlots, h.getElem?_slots, List.getElem?_map]
    by_cases hk : k < m.slotCount
    · rw [if_pos hk, List.getElem?_range hk, Option.map_some, Option.map_some]
      congr 1
      split_ifs with hin
      · have hbyte := SparseFile.writeAt_byte_of_mem f (headerSize + slotStart)
          (List.replicate (slotEnd - slotStart) value) (i := k - slotStart)
          (by rw [List.length_replicate]; omega)
        rw [Nat.add_assoc, Nat.add_sub_cancel' hin.1] at hbyte
        rw [hbyte, List.getD_eq_getElem?_getD, List.getElem?_replicate, if_pos (by omega),
          Option.getD_some]
      · rw [SparseFile.writeAt_byte_of_notMem]
        rw [List.length_replicate]
        omega
    · rw [if_neg hk, List.getElem?_eq_none (by rw [List.length_range]; omega), Option.map_none,
        Option.map_none]

/-- **An update keeps the file and the memory together**, whatever its arguments are. -/
theorem persisted_update (h : Persisted codec key blob unitBytes m f slots) (start len : ℕ)
    (value : UInt8) {res : Except Error Unit} {f' : File} {slots' : List UInt8}
    (hupdate : m.updateRange start len value none f slots = (res, f', slots')) :
    Persisted codec key blob unitBytes m f' slots' := by
  rw [RangeMap.updateRange] at hupdate
  split at hupdate
  · obtain ⟨-, hsame⟩ := Prod.mk.inj hupdate
    obtain ⟨rfl, rfl⟩ := Prod.mk.inj hsame
    exact h
  · rename_i slotStart slotEnd hslots
    obtain ⟨hle, hend⟩ := RangeMap.slotsForRange_le hslots
    split_ifs at hupdate
    · obtain ⟨-, hsame⟩ := Prod.mk.inj hupdate
      obtain ⟨rfl, rfl⟩ := Prod.mk.inj hsame
      exact h
    · obtain ⟨-, hfill⟩ := Prod.mk.inj hupdate
      obtain ⟨rfl, rfl⟩ := Prod.mk.inj hfill
      exact h.fill hle hend value

/-! ### Openings -/

theorem expectedHeader_ne {n n' : ℕ} (h : blob'.digest ≠ blob.digest ∨ blob'.size ≠ blob.size ∨
    unitBytes' ≠ unitBytes) :
    expectedHeader blob unitBytes n ≠ expectedHeader blob' unitBytes' n' := by
  intro heq
  rcases h with h | h | h
  · exact h (congrArg Header.blobDigest heq).symm
  · exact h (congrArg Header.blobSize heq).symm
  · exact h (congrArg Header.unitBytes heq).symm

theorem Persisted.readHeader (h : Persisted codec key blob unitBytes m f slots) :
    readHeader codec f = .ok (expectedHeader blob unitBytes m.slotCount) := h.written.readHeader

theorem Persisted.openOrCreate_same (h : Persisted codec key blob unitBytes m f slots)
    (hdigest : blob'.digest = blob.digest) (hsize : blob'.size = blob.size) :
    openOrCreate codec key blob' unitBytes {} (some f) = (.ok ⟨m, slots, true⟩, some f) := by
  have hm : RangeMap.geometry key blob'.size unitBytes = .ok m := by
    rw [hsize]
    exact h.geometry
  have hbuf : encodeHeader codec (expectedHeader blob' unitBytes m.slotCount) =
      .ok (headerBytes f) := by
    rw [expectedHeader, hdigest, hsize]
    exact h.written.header
  rw [openOrCreate_written hm hbuf h.written.len_eq rfl, h.slots_eq]

/-- Another descriptor starts over. -/
theorem Persisted.openOrCreate_other (h : Persisted codec key blob unitBytes m f slots)
    {m' : RangeMap} {buf : List UInt8} (hm : RangeMap.geometry key blob'.size unitBytes' = .ok m')
    (hbuf : encodeHeader codec (expectedHeader blob' unitBytes' m'.slotCount) = .ok buf)
    (hne : blob'.digest ≠ blob.digest ∨ blob'.size ≠ blob.size ∨ unitBytes' ≠ unitBytes) :
    openOrCreate codec key blob' unitBytes' {} (some f) =
      (.ok ⟨m', List.replicate m'.slotCount 0, false⟩,
        some (resetFile f m'.slotCount buf headerSize m'.slotCount)) := by
  have hother : Lazyd.readHeader codec f ≠ .ok (expectedHeader blob' unitBytes' m'.slotCount) := by
    rw [h.readHeader]
    exact fun heq => expectedHeader_ne hne (Except.ok.inj heq)
  have hfile := initializeFile_file (f := f) (rfl : ({} : InitFaults).setLen = none) hbuf
  rw [expectedHeader_slotCount] at hfile
  have hopen := openOrCreate_of_ne {} hm hother
  rw [hopen]
  exact Prod.ext (openReset_ok hbuf) (congrArg some ((openReset_file _ _ _).trans hfile))

/-- What an opening without faults leaves of a file of a run, or of any file that it resets. -/
theorem persisted_open {old : Option File} {opened : OpenedRangeMap}
    (hopen : openOrCreate codec key blob unitBytes {} old = (.ok opened, some f))
    (hold : opened.needsRecovery = true →
      ∃ blob' unitBytes' m' slots', Persisted codec key blob' unitBytes' m' f slots') :
    Persisted codec key blob unitBytes opened.rangeMap f opened.slots := by
  cases OpensBitmap.of_openOrCreate hopen with
  | @kept m _ slots hm hkeeps =>
    obtain ⟨blob', unitBytes', m', slots', hpersisted⟩ := hold rfl
    have hheader := Except.ok.inj (hpersisted.readHeader.symm.trans hkeeps.1)
    have hcount : m'.slotCount = m.slotCount := by
      rw [← expectedHeader_slotCount blob' unitBytes' m', hheader, expectedHeader_slotCount]
    have hwritten := hpersisted.written
    rw [hheader, hcount] at hwritten
    refine ⟨hm, hwritten, ?_⟩
    have hslots := hkeeps.2
    rw [unlessFault, readSlots_of_len_le hwritten.len_eq.ge] at hslots
    exact (Except.ok.inj hslots).symm
  | cleared hm _ _ hinit =>
    obtain ⟨buf, hbuf, rfl⟩ := initializeFile_success hinit
    rw [expectedHeader_slotCount]
    refine persisted_of_written hm (written_resetFile _ hbuf) fun k hk => ?_
    rw [resetFile_slot _ (length_encodeHeader hbuf) hk, if_pos hk]

/-- The invariant holds in every run. -/
theorem persisted_run (h : BitmapRun codec key blob unitBytes m f slots) :
    Persisted codec key blob unitBytes m f slots := by
  induction h with
  | opened hopen hclear =>
    refine persisted_open hopen fun hrecovery => ?_
    rw [hclear] at hrecovery
    exact absurd hrecovery (by simp)
  | set _ start len hset ih => exact persisted_update ih start len 1 hset
  | clear _ start len hclear ih => exact persisted_update ih start len 0 hclear
  | @reopened blob blob' unitBytes unitBytes' m f f' slots opened _ hopen ih =>
    refine persisted_open hopen fun hrecovery => ?_
    cases OpensBitmap.of_openOrCreate hopen with
    | kept => exact ⟨_, _, _, _, ih⟩
    | cleared => exact absurd hrecovery (by simp)

/-- **Persistence.** Whatever was updated, the bitmap file is the encoded header of its descriptor
followed by the slots in memory. Opening it again for the same digest, size and unit returns these
slots, to be recovered. Opening it for another digest, size or unit, if this is accepted, returns no
slot set, with nothing to recover, and leaves a file of which all of this is true for the new
descriptor. -/
theorem bitmap_persists (h : BitmapRun codec key blob unitBytes m f slots) :
    (∃ buf, encodeHeader codec (expectedHeader blob unitBytes m.slotCount) = .ok buf ∧
      f.contents = buf ++ slots ∧ slots.length = m.slotCount) ∧
    (∀ blob' : BlobDescriptor, blob'.digest = blob.digest → blob'.size = blob.size →
      openOrCreate codec key blob' unitBytes {} (some f) = (.ok ⟨m, slots, true⟩, some f)) ∧
    ∀ (blob' : BlobDescriptor) unitBytes' m' buf,
      RangeMap.geometry key blob'.size unitBytes' = .ok m' →
      encodeHeader codec (expectedHeader blob' unitBytes' m'.slotCount) = .ok buf →
      (blob'.digest ≠ blob.digest ∨ blob'.size ≠ blob.size ∨ unitBytes' ≠ unitBytes) →
      ∃ f', openOrCreate codec key blob' unitBytes' {} (some f) =
          (.ok ⟨m', List.replicate m'.slotCount 0, false⟩, some f') ∧
        f'.contents = buf ++ List.replicate m'.slotCount 0 ∧
        BitmapRun codec key blob' unitBytes' m' f' (List.replicate m'.slotCount 0) := by
  have hpersisted := persisted_run h
  refine ⟨⟨_, hpersisted.written.header, hpersisted.contents, ?_⟩, ?_, ?_⟩
  · rw [hpersisted.slots_eq, List.length_map, List.length_range]
  · exact fun blob' hdigest hsize => hpersisted.openOrCreate_same hdigest hsize
  · intro blob' unitBytes' m' buf hm hbuf hne
    have hopen := hpersisted.openOrCreate_other hm hbuf hne
    have hrun : BitmapRun codec key blob' unitBytes' m' _ (List.replicate m'.slotCount 0) :=
      .reopened h hopen
    refine ⟨_, hopen, ?_, hrun⟩
    rw [(persisted_run hrun).contents, headerBytes_resetFile_all _ (length_encodeHeader hbuf)]

/-- The bitmap file of a new blob after its slot was set, opened for another blob. -/
theorem bitmap_persists_newBlob : ∃ m f, ∃ buf : List UInt8,
    BitmapRun headerJson ⟨1, 2⟩ newBlob 1048576 m f [1] ∧ f.contents = buf ++ [1] ∧
    ∃ f', openOrCreate headerJson ⟨1, 2⟩ oldBlob 1048576 {} (some f) =
      (.ok ⟨m, [0], false⟩, some f') := by
  obtain ⟨newBuf, hnew⟩ := exists_encodeHeader (encodeHeader_small newBlob (by decide))
  obtain ⟨oldBuf, hold⟩ := exists_encodeHeader (encodeHeader_small oldBlob (by decide))
  obtain ⟨m, hm, hone⟩ : ∃ m, RangeMap.geometry ⟨1, 2⟩ newBlob.size 1048576 = .ok m ∧
      m.slotCount = 1 := ⟨_, rfl, rfl⟩
  rw [← hone] at hnew hold
  have hopened : BitmapRun headerJson ⟨1, 2⟩ newBlob 1048576 m
      (resetFile newFile m.slotCount newBuf headerSize m.slotCount)
        (List.replicate m.slotCount 0) :=
    .opened (openOrCreate_none hm hnew) rfl
  have hslots : m.slotsForRange 0 1 = .ok (0, 1) := by
    obtain ⟨-, hunit, hsize⟩ := RangeMap.geometry_eq_ok hm
    rw [RangeMap.slotsForRange_ok Nat.one_pos (by rw [hsize]; decide), hunit]
    rfl
  obtain ⟨f, hset⟩ : ∃ f, m.setRangeReady 0 1 none
      (resetFile newFile m.slotCount newBuf headerSize m.slotCount) (List.replicate m.slotCount 0) =
        (.ok (), f, [1]) := by
    rw [hone, RangeMap.setRangeReady, RangeMap.updateRange, hslots]
    exact ⟨_, rfl⟩
  have hrun : BitmapRun headerJson ⟨1, 2⟩ newBlob 1048576 m f [1] := .set hopened 0 1 hset
  obtain ⟨⟨buf, -, hcontents, -⟩, -, hother⟩ := bitmap_persists hrun
  obtain ⟨f', hopen, -⟩ := hother oldBlob 1048576 m oldBuf hm hold (Or.inl (by decide))
  rw [hone] at hopen
  exact ⟨m, f, buf, hrun, hcontents, f', hopen⟩

end Persist

end Lazyd
