import Lazyd.RangeMap.Open

/-!
# What opening the bitmap file can do

An opening that gets to the bitmap file keeps it, if it has the expected header and its slots can be
read, or resets it. A reset that succeeds leaves the new header in full and no slot set; one that
fails leaves a part of it.

## Main definitions

* `Keeps` : the file is kept, with the given slots.
* `Written` : a file that has a header in full and the length that belongs to it.
* `ResetKeeps` : the resets that change nothing.

## Main results

* `OpensBitmap.of_openOrCreate` : everything that opening can do.
* `initializeFile_cases` : the file after a reset.
* `initializeFile_contents_iff` : when a reset leaves the contents as they are.

Source: `src/range_map.rs`, lines 42–98 and 230–272.
-/

namespace Lazyd

section Opened

variable (codec : HeaderCodec)

/-- The file has the expected header, and its slots are read. -/
def Keeps (m : RangeMap) (f : File) (header : Header) (faults : OpenFaults)
    (slots : List UInt8) : Prop :=
  unlessFault faults.readHeader (readHeader codec f) = .ok header ∧
    unlessFault faults.readSlots (readSlots f m.slotCount) = .ok slots

/-- The file is the one header, and as many slots as it says. -/
structure Written (header : Header) (slotCount : ℕ) (f : File) : Prop where
  len_eq : f.len = headerSize + slotCount
  header : encodeHeader codec header = .ok (headerBytes f)

/-- The results of `openOrCreate`, one constructor for each way through it. -/
inductive OpensBitmap (key : FileKey) (blob : BlobDescriptor) (unitBytes : UInt64)
    (faults : OpenFaults) : Option File → Except Error OpenedRangeMap → Option File → Prop
  /-- the geometry is refused, or the file cannot be opened -/
  | refused (err : Error) (old : Option File) :
      OpensBitmap key blob unitBytes faults old (.error err) old
  | kept {m : RangeMap} {f : File} {slots : List UInt8}
      (hm : RangeMap.geometry key blob.size unitBytes = .ok m)
      (hkeeps : Keeps codec m f (expectedHeader blob unitBytes m.slotCount) faults slots) :
      OpensBitmap key blob unitBytes faults (some f) (.ok ⟨m, slots, true⟩) (some f)
  | cleared {m : RangeMap} {old : Option File} {f' : File}
      (hm : RangeMap.geometry key blob.size unitBytes = .ok m) (hopen : faults.openFile = none)
      (hnot : ∀ f slots, old = some f →
        ¬Keeps codec m f (expectedHeader blob unitBytes m.slotCount) faults slots)
      (hinit : initializeFile codec (old.getD newFile) (expectedHeader blob unitBytes m.slotCount)
        faults.init = (.ok (), f')) :
      OpensBitmap key blob unitBytes faults old
        (.ok ⟨m, List.replicate m.slotCount 0, false⟩) (some f')
  | failed {m : RangeMap} {old : Option File} {err : Error} {f' : File}
      (hm : RangeMap.geometry key blob.size unitBytes = .ok m) (hopen : faults.openFile = none)
      (hnot : ∀ f slots, old = some f →
        ¬Keeps codec m f (expectedHeader blob unitBytes m.slotCount) faults slots)
      (hinit : initializeFile codec (old.getD newFile) (expectedHeader blob unitBytes m.slotCount)
        faults.init = (.error err, f')) :
      OpensBitmap key blob unitBytes faults old (.error err) (some f')

variable {codec} {m : RangeMap} {f : File} {header : Header} {faults : OpenFaults}

/-- An opening that resets the file ends as the reset does. -/
theorem OpensBitmap.of_openReset {key : FileKey} {blob : BlobDescriptor} {unitBytes : UInt64}
    {old : Option File} {res : Except Error OpenedRangeMap} {f' : File}
    (hm : RangeMap.geometry key blob.size unitBytes = .ok m) (hopen : faults.openFile = none)
    (hnot : ∀ f slots, old = some f →
      ¬Keeps codec m f (expectedHeader blob unitBytes m.slotCount) faults slots)
    (h : openReset codec m (old.getD newFile) (expectedHeader blob unitBytes m.slotCount)
      faults.init = (res, f')) :
    OpensBitmap codec key blob unitBytes faults old res (some f') := by
  rw [openReset] at h
  split at h
  · rename_i hinit
    obtain ⟨rfl, rfl⟩ := Prod.mk.inj h
    exact .failed hm hopen hnot hinit
  · rename_i hinit
    obtain ⟨rfl, rfl⟩ := Prod.mk.inj h
    exact .cleared hm hopen hnot hinit

theorem openExisting_of_keeps {slots : List UInt8} (h : Keeps codec m f header faults slots) :
    openExisting codec m f header faults = (.ok ⟨m, slots, true⟩, f) := by
  simp only [openExisting, h.1, ↓reduceIte, h.2]

theorem openExisting_of_not_keeps (h : ∀ slots, ¬Keeps codec m f header faults slots) :
    openExisting codec m f header faults = openReset codec m f header faults.init := by
  rw [openExisting]
  split
  · rfl
  · rename_i found hread
    split_ifs with hfound
    · subst hfound
      split
      · rename_i slots hslots
        exact absurd ⟨hread, hslots⟩ (h slots)
      · rfl
    · rfl

/-- **Opening inversion.** -/
theorem OpensBitmap.of_openOrCreate {key : FileKey} {blob : BlobDescriptor} {unitBytes : UInt64}
    {old file : Option File} {res : Except Error OpenedRangeMap}
    (h : openOrCreate codec key blob unitBytes faults old = (res, file)) :
    OpensBitmap codec key blob unitBytes faults old res file := by
  unfold openOrCreate at h
  split at h
  · obtain ⟨rfl, rfl⟩ := Prod.mk.inj h
    exact .refused _ _
  · rename_i m hm
    dsimp only at h
    split at h
    · obtain ⟨rfl, rfl⟩ := Prod.mk.inj h
      exact .refused _ _
    · rename_i hopen
      split at h
      · rename_i f
        by_cases hkeeps : ∃ slots, Keeps codec m f (expectedHeader blob unitBytes m.slotCount)
          faults slots
        · obtain ⟨slots, hkeeps⟩ := hkeeps
          rw [openExisting_of_keeps hkeeps] at h
          obtain ⟨rfl, rfl⟩ := Prod.mk.inj h
          exact .kept hm hkeeps
        · rw [not_exists] at hkeeps
          rw [openExisting_of_not_keeps hkeeps] at h
          obtain ⟨rfl, rfl⟩ := Prod.mk.inj h
          refine .of_openReset hm hopen (fun f' slots hf' => ?_) rfl
          obtain rfl := Option.some.inj hf'
          exact hkeeps slots
      · obtain ⟨rfl, rfl⟩ := Prod.mk.inj h
        exact .of_openReset hm hopen (fun f' slots hf' => absurd hf' (by simp)) rfl

/-! ### The header under writes behind it -/

theorem readHeader_eq_ok : readHeader codec f = .ok header ↔
    headerSize ≤ f.len ∧ parseHeader codec (headerBytes f) = .ok header := by
  by_cases hlen : headerSize ≤ f.len
  · rw [readHeader_of_len_le hlen, and_iff_right hlen]
  · refine iff_of_false ?_ fun h => hlen h.1
    rw [readHeader, SparseFile.readExactAt, if_neg (by rw [headerSize] at hlen ⊢; omega)]
    simp

theorem readHeader_writeAt {off : ℕ} (hoff : headerSize ≤ off) (bs : List UInt8)
    (h : readHeader codec f = .ok header) : readHeader codec (f.writeAt off bs) = .ok header := by
  rw [readHeader_eq_ok] at h ⊢
  refine ⟨h.1.trans (SparseFile.len_le_writeAt_len _ _ _), ?_⟩
  rw [headerBytes_writeAt f hoff]
  exact h.2

/-! ### The file after a reset -/

/-- The file after a reset, whatever faults it meets. -/
theorem initializeFile_cases {faults : InitFaults} {res : Except Error Unit} {f' : File}
    (h : initializeFile codec f header faults = (res, f')) :
    (faults.setLen ≠ none ∧ f' = f) ∨
    (faults.setLen = none ∧ (∃ err, encodeHeader codec header = .error err) ∧
      f' = f.setLen (headerSize + header.slotCount.toNat)) ∨
    (faults.setLen = none ∧ ∃ buf, encodeHeader codec header = .ok buf ∧
      f' = resetFile f header.slotCount.toNat buf faults.headerWritten
        (faults.slotsZeroed header.slotCount.toNat)) := by
  cases hset : faults.setLen with
  | some err =>
    rw [initializeFile, hset] at h
    exact Or.inl ⟨by simp, (Prod.mk.inj h).2.symm⟩
  | none =>
    cases hbuf : encodeHeader codec header with
    | error err =>
      rw [initializeFile, hset] at h
      dsimp only at h
      rw [hbuf] at h
      exact Or.inr (Or.inl ⟨rfl, ⟨err, rfl⟩, (Prod.mk.inj h).2.symm⟩)
    | ok buf =>
      refine Or.inr (Or.inr ⟨rfl, buf, rfl, ?_⟩)
      rw [← initializeFile_file hset hbuf, h]

theorem written_resetFile {buf : List UInt8} (f : File) {slotCount : ℕ}
    (hbuf : encodeHeader codec header = .ok buf) :
    Written codec header slotCount (resetFile f slotCount buf headerSize slotCount) := by
  have hlength := length_encodeHeader hbuf
  exact ⟨resetFile_len f hlength le_rfl, by rw [headerBytes_resetFile_all f hlength, hbuf]⟩

theorem Written.readHeader {slotCount : ℕ} (h : Written codec header slotCount f) :
    readHeader codec f = .ok header :=
  readHeader_of_headerBytes h.header (by rw [h.len_eq]; omega) rfl

/-- **An open range map has its header in the file**, and as many slots as it has to, in memory and
in the file. -/
theorem OpensBitmap.opened_header {key : FileKey} {blob : BlobDescriptor} {unitBytes : UInt64}
    {old file : Option File} {opened : OpenedRangeMap}
    (h : OpensBitmap codec key blob unitBytes faults old (.ok opened) file) :
    ∃ f, file = some f ∧ opened.slots.length = opened.rangeMap.slotCount ∧
      readHeader codec f = .ok (expectedHeader blob unitBytes opened.rangeMap.slotCount) ∧
      headerSize + opened.rangeMap.slotCount ≤ f.len := by
  cases h with
  | kept hm hkeeps =>
    have hheader := unlessFault_eq_ok hkeeps.1
    have hslots := unlessFault_eq_ok hkeeps.2
    exact ⟨_, rfl, length_readSlots hslots, hheader,
      len_le_of_readSlots hslots (readHeader_eq_ok.mp hheader).1⟩
  | @cleared m old f' hm hopen hnot hinit =>
    obtain ⟨buf, hbuf, rfl⟩ := initializeFile_success hinit
    rw [expectedHeader_slotCount]
    have hwritten : Written codec _ m.slotCount _ := written_resetFile (old.getD newFile) hbuf
    exact ⟨_, rfl, List.length_replicate, hwritten.readHeader, hwritten.len_eq.ge⟩

/-- What an opening starts with when it has reset the file. -/
theorem OpensBitmap.of_clear {key : FileKey} {blob : BlobDescriptor} {unitBytes : UInt64}
    {old file : Option File} {opened : OpenedRangeMap}
    (h : openOrCreate codec key blob unitBytes faults old = (.ok opened, file))
    (hclear : opened.needsRecovery = false) :
    ∃ f, file = some f ∧ opened.slots = List.replicate opened.rangeMap.slotCount 0 ∧
      Written codec (expectedHeader blob unitBytes opened.rangeMap.slotCount)
        opened.rangeMap.slotCount f ∧
      ∀ k < opened.rangeMap.slotCount, f.byte (headerSize + k) = 0 := by
  cases OpensBitmap.of_openOrCreate h with
  | kept => exact absurd hclear (by simp)
  | cleared hm hopen hnot hinit =>
    obtain ⟨buf, hbuf, rfl⟩ := initializeFile_success hinit
    rw [expectedHeader_slotCount]
    refine ⟨_, rfl, rfl, written_resetFile _ hbuf, fun k hk => ?_⟩
    rw [resetFile_slot _ (length_encodeHeader hbuf) hk, if_pos hk]

theorem getD_replicate_zero (n k : ℕ) : (List.replicate n (0 : UInt8)).getD k 0 = 0 := by
  rw [List.getD_eq_getElem?_getD, List.getElem?_replicate]
  split_ifs <;> rfl

/-- A slot that an opening starts with was ready before, under the same header. -/
theorem OpensBitmap.ready {key : FileKey} {blob : BlobDescriptor} {unitBytes : UInt64}
    {old file : Option File} {opened : OpenedRangeMap}
    (h : OpensBitmap codec key blob unitBytes faults old (.ok opened) file) {k : ℕ}
    (hk : opened.slots.getD k 0 ≠ 0) :
    ∃ f, old = some f ∧ f.byte (headerSize + k) ≠ 0 ∧
      readHeader codec f = .ok (expectedHeader blob unitBytes opened.rangeMap.slotCount) := by
  cases h with
  | @kept m f slots hm hkeeps =>
    have hslots := unlessFault_eq_ok hkeeps.2
    refine ⟨f, rfl, ?_, unlessFault_eq_ok hkeeps.1⟩
    have hlt : k < m.slotCount := length_readSlots hslots ▸ lt_length_of_getD_ne hk
    rwa [← readSlots_getD hslots hlt]
  | cleared => exact absurd (getD_replicate_zero _ k) hk

/-! ### Resets that change nothing -/

theorem length_headerBytes (f : File) : (headerBytes f).length = headerSize := by
  rw [headerBytes, List.length_map, List.length_range]

theorem InitFaults.slotsZeroed_le (faults : InitFaults) (slotCount : ℕ) :
    faults.slotsZeroed slotCount ≤ slotCount := by
  rw [InitFaults.slotsZeroed]
  split
  · exact Nat.zero_le _
  · split
    · exact min_le_right _ _
    · exact le_rfl

/-- A file keeps its contents in a reset that writes what is there. -/
theorem resetFile_contents_iff (f : File) {slotCount h s : ℕ} {buf : List UInt8}
    (hbuf : buf.length = headerSize) (hs : s ≤ slotCount) :
    (resetFile f slotCount buf h s).contents = f.contents ↔ f.len = headerSize + slotCount ∧
      (headerBytes f).take h = buf.take h ∧ ∀ k < s, f.byte (headerSize + k) = 0 := by
  have hheader : headerBytes (resetFile f slotCount buf h s) =
      buf.take h ++ (headerBytes f).drop h := headerBytes_resetFile f hbuf
  have hlength : ((headerBytes f).take h).length = (buf.take h).length := by
    rw [List.length_take, List.length_take, length_headerBytes, hbuf]
  rw [SparseFile.contents_eq_iff, resetFile_len f hbuf hs]
  constructor
  · rintro ⟨hlen, hbyte⟩
    refine ⟨hlen.symm, ?_, fun k hk => ?_⟩
    · have hsame : headerBytes (resetFile f slotCount buf h s) = headerBytes f :=
        List.map_congr_left fun p _ => hbyte p
      rw [hsame] at hheader
      nth_rewrite 1 [← List.take_append_drop h (headerBytes f)] at hheader
      exact (List.append_inj hheader hlength).1
    · rw [← hbyte, resetFile_slot f hbuf (hk.trans_le hs), if_pos hk]
  · rintro ⟨hlen, htake, hzero⟩
    refine ⟨hlen.symm, fun p => ?_⟩
    rcases lt_or_ge p headerSize with hp | hp
    · rw [← htake, List.take_append_drop] at hheader
      have hget := congrArg (fun bs : List UInt8 => bs[p]?) hheader
      simpa only [headerBytes, List.getElem?_map, List.getElem?_range, hp, Option.map_some,
        Option.some.injEq] using hget
    · obtain ⟨k, rfl⟩ := Nat.exists_eq_add_of_le hp
      rcases lt_or_ge k slotCount with hk | hk
      · rw [resetFile_slot f hbuf hk]
        split_ifs with hks
        · exact (hzero k hks).symm
        · rfl
      · rw [f.byte_of_len_le _ (by omega), SparseFile.byte_of_len_le]
        rw [resetFile_len f hbuf hs]
        omega

variable (codec header)

/-- The reset stops before it changes the file, or all that it writes is there already. -/
def ResetKeeps (f : File) (faults : InitFaults) : Prop :=
  faults.setLen ≠ none ∨ f.len = headerSize + header.slotCount.toNat ∧
    ∀ buf, encodeHeader codec header = .ok buf →
      (headerBytes f).take faults.headerWritten = buf.take faults.headerWritten ∧
      ∀ k < faults.slotsZeroed header.slotCount.toNat, f.byte (headerSize + k) = 0

variable {codec header}

/-- **A reset keeps the contents** under a condition on the file and the faults. -/
theorem initializeFile_contents_iff {faults : InitFaults} {res : Except Error Unit} {f' : File}
    (h : initializeFile codec f header faults = (res, f')) :
    f'.contents = f.contents ↔ ResetKeeps codec header f faults := by
  rcases initializeFile_cases h with
    ⟨hno, rfl⟩ | ⟨hset, ⟨err, herr⟩, rfl⟩ | ⟨hset, buf, hbuf, rfl⟩
  · exact iff_of_true rfl (Or.inl hno)
  · rw [ResetKeeps, or_iff_right (not_not.mpr hset), SparseFile.contents_eq_iff,
      SparseFile.setLen_len]
    constructor
    · rintro ⟨hlen, -⟩
      exact ⟨hlen.symm, fun buf hbuf => absurd (herr.symm.trans hbuf) (by simp)⟩
    · rintro ⟨hlen, -⟩
      refine ⟨hlen.symm, fun p => ?_⟩
      rw [SparseFile.setLen_byte]
      split_ifs with hp
      · rfl
      · exact (f.byte_of_len_le p (by omega)).symm
  · rw [ResetKeeps, or_iff_right (not_not.mpr hset),
      resetFile_contents_iff f (length_encodeHeader hbuf) (faults.slotsZeroed_le _)]
    refine and_congr_right fun _ => ⟨fun hkeep buf' hbuf' => ?_, fun hkeep => hkeep buf hbuf⟩
    obtain rfl := Except.ok.inj (hbuf.symm.trans hbuf')
    exact hkeep

end Opened

end Lazyd
