import Lazyd.RangeMap.Opened

/-!
# A bitmap file and the target that it is about

The header of a bitmap file says which blob the slots are about. A ready slot is sound if its range
of the target has the bytes of that blob, or is not all data: then recovery clears the slot before
anything relies on it. Opening a bitmap file either takes ready slots away under the same header, or
leaves no slot ready, unless a reset breaks off after it has begun to write.

## Main definitions

* `Header.SlotHolds`, `MapSound` : soundness of the slots of a bitmap file.
* `Clears`, `Blank` : a file with fewer ready slots, and one with none.
* `ResetInterrupted` : a reset that breaks off.
* `AfterOpening` : the bitmap file after an opening.

## Main results

* `openOrCreate_after` : what an opening leaves.
* `AfterOpening.mapSound`, `AfterOpening.readHeader` : what it keeps.

Source: `src/range_map.rs`, lines 42–98 and 230–272.
-/

namespace Lazyd

/-- The range of a slot. -/
def Header.slotStart (h : Header) (k : ℕ) : ℕ := k * h.unitBytes.toNat

def Header.slotEnd (h : Header) (k : ℕ) : ℕ :=
  min (k * h.unitBytes.toNat + h.unitBytes.toNat) h.blobSize.toNat

section MapSound

variable (codec : HeaderCodec) (bytes : String → ℕ → UInt8)

/-- The range of a slot has the bytes of the blob of the header. -/
def Header.SlotHolds (h : Header) (target : File) (k : ℕ) : Prop :=
  target.Holds (bytes h.blobDigest) (h.slotStart k) (h.slotEnd k)

/-- A ready slot whose range is data has the bytes of the blob that the header is about. -/
def MapSound (f target : File) : Prop :=
  ∀ h, readHeader codec f = .ok h → ∀ k, f.byte (headerSize + k) ≠ 0 →
    target.Allocated (h.slotStart k) (h.slotEnd k) → h.SlotHolds bytes target k

/-- The header is kept, and no slot gets ready. -/
structure Clears (f f' : File) : Prop where
  header : headerSize ≤ f.len → headerSize ≤ f'.len ∧ headerBytes f' = headerBytes f
  slot : ∀ k, f'.byte (headerSize + k) ≠ 0 → f.byte (headerSize + k) ≠ 0

/-- No slot is ready. -/
def Blank (f : File) : Prop := ∀ k, f.byte (headerSize + k) = 0

/-- A reset breaks off between its first write and its last one. -/
def ResetInterrupted (header : Header) (faults : InitFaults) : Prop :=
  faults.setLen = none ∧ (∃ buf, encodeHeader codec header = .ok buf) ∧
    ¬ (faults.header = none ∧ faults.slotsZeroed header.slotCount.toNat = header.slotCount.toNat)

/-- The bitmap file after an opening that has got to it; `unused` is what is known if a reset has
been interrupted. -/
inductive AfterOpening (header : Header) (unused : Prop) (old : Option File) : File → Prop
  | cleared {f f' : File} (hold : old = some f) (h : Clears f f') :
      AfterOpening header unused old f'
  | reset {f' : File} (hheader : readHeader codec f' = .ok header) (hblank : Blank f') :
      AfterOpening header unused old f'
  | partly {f' : File} (hold : old = none ∨ unused) (hblank : Blank f') :
      AfterOpening header unused old f'

variable {codec bytes} {f f' f'' target target' : File} {header : Header}

/-! ### Fewer ready slots -/

theorem clears_refl (f : File) : Clears f f := ⟨fun h => ⟨h, rfl⟩, fun _ h => h⟩

theorem Clears.trans (h : Clears f f') (h' : Clears f' f'') : Clears f f'' := by
  refine ⟨fun hlen => ?_, fun k hk => h.slot k (h'.slot k hk)⟩
  obtain ⟨hlen', heq⟩ := h.header hlen
  obtain ⟨hlen'', heq'⟩ := h'.header hlen'
  exact ⟨hlen'', heq'.trans heq⟩

theorem Clears.readHeader (h : Clears f f') (hf : readHeader codec f = .ok header) :
    readHeader codec f' = .ok header := by
  rw [readHeader_eq_ok] at hf ⊢
  obtain ⟨hlen, heq⟩ := h.header hf.1
  rw [heq]
  exact ⟨hlen, hf.2⟩

theorem blank_of_len_le (h : f.len ≤ headerSize) : Blank f :=
  fun _ => f.byte_of_len_le _ (h.trans (Nat.le_add_right _ _))

theorem Blank.mapSound (h : Blank f) : MapSound codec bytes f target :=
  fun _ _ k hk => absurd (h k) hk

theorem Clears.blank (h : Clears f f') (hf : Blank f) : Blank f' := by
  intro k
  by_contra hk
  exact h.slot k hk (hf k)

theorem Clears.mapSound (h : Clears f f') (hf : MapSound codec bytes f target) :
    MapSound codec bytes f' target := by
  rcases lt_or_ge f.len headerSize with hlt | hle
  · exact (h.blank (blank_of_len_le hlt.le)).mapSound
  · intro header hheader k hk hdata
    obtain ⟨-, heq⟩ := h.header hle
    refine hf header ?_ k (h.slot k hk) hdata
    rw [readHeader_eq_ok] at hheader ⊢
    rw [heq] at hheader
    exact ⟨hle, hheader.2⟩

theorem MapSound.extends (h : MapSound codec bytes f target) (htarget : target.Extends target') :
    MapSound codec bytes f target' :=
  fun header hheader k hk hall =>
    htarget.holds _ _ _ (h header hheader k hk (htarget.allocated _ _ hall))

theorem mapSound_of_holes (h : ∀ b, target.data b = false) : MapSound codec bytes f target := by
  intro header _ k _ hall p h₁ h₂
  have hdata := hall p h₁ h₂
  rw [SparseFile.isData, h] at hdata
  exact absurd hdata Bool.false_ne_true

theorem clears_setLen (f : File) (n : ℕ) : Clears f (f.setLen (headerSize + n)) := by
  refine ⟨fun _ => ⟨Nat.le_add_right _ _, List.map_congr_left fun p hp => ?_⟩, fun k hk => ?_⟩
  · rw [SparseFile.setLen_byte, if_pos]
    have hlt := List.mem_range.mp hp
    omega
  · rw [SparseFile.setLen_byte] at hk
    split_ifs at hk with hlt
    · exact hk
    · exact absurd rfl hk

theorem clears_writeAt (f : File) (off n : ℕ) :
    Clears f (f.writeAt (headerSize + off) (List.replicate n 0)) := by
  refine ⟨fun h => ⟨h.trans (SparseFile.len_le_writeAt_len _ _ _),
    headerBytes_writeAt f (Nat.le_add_right _ _) _⟩, fun k hk => ?_⟩
  by_cases hin : headerSize + off ≤ headerSize + k ∧
      headerSize + k < headerSize + off + (List.replicate n (0 : UInt8)).length
  · refine absurd ?_ hk
    rw [SparseFile.writeAt_byte, if_pos hin]
    exact getD_replicate_zero _ _
  · rwa [SparseFile.writeAt_byte_of_notMem _ _ _ hin] at hk

/-! ### Resets -/

theorem blank_resetFile (f : File) {buf : List UInt8} (hbuf : buf.length = headerSize) (n : ℕ) :
    Blank (resetFile f n buf headerSize n) := by
  intro k
  rcases lt_or_ge k n with hk | hk
  · rw [resetFile_slot f hbuf hk, if_pos hk]
  · refine SparseFile.byte_of_len_le _ _ ?_
    rw [resetFile_len f hbuf le_rfl]
    omega

theorem Blank.resetFile (h : Blank f) {buf : List UInt8} (hbuf : buf.length = headerSize)
    {n m s : ℕ} (hs : s ≤ n) : Blank (resetFile f n buf m s) := by
  intro k
  rcases lt_or_ge k n with hk | hk
  · rw [resetFile_slot f hbuf hk, h k, ite_self]
  · refine SparseFile.byte_of_len_le _ _ ?_
    rw [resetFile_len f hbuf hs]
    omega

theorem blank_newFile : Blank newFile := fun _ => rfl

/-! ### Openings -/

variable {unused : Prop} {old : Option File}

/-- **The file after a reset**, complete or not. -/
theorem initializeFile_after {faults : InitFaults} {res : Except Error Unit}
    (h : initializeFile codec (old.getD newFile) header faults = (res, f'))
    (hreset : ∀ f, old = some f → ResetInterrupted codec header faults → Blank f ∧ unused) :
    AfterOpening codec header unused old f' := by
  -- a file that was not there has no ready slot, whatever becomes of it
  have hclears (hclears : Clears (old.getD newFile) f') :
      AfterOpening codec header unused old f' := by
    cases hold : old with
    | none =>
      rw [hold] at hclears
      exact .partly (Or.inl rfl) (hclears.blank blank_newFile)
    | some f =>
      rw [hold] at hclears
      exact .cleared rfl hclears
  rcases initializeFile_cases h with ⟨-, rfl⟩ | ⟨-, -, rfl⟩ | ⟨hset, buf, hbuf, rfl⟩
  · exact hclears (clears_refl _)
  · exact hclears (clears_setLen _ _)
  · have hlength := length_encodeHeader hbuf
    by_cases hfull : faults.header = none ∧
        faults.slotsZeroed header.slotCount.toNat = header.slotCount.toNat
    · have hwritten : faults.headerWritten = headerSize := by
        rw [InitFaults.headerWritten, hfull.1]
      rw [hfull.2, hwritten]
      exact .reset (written_resetFile _ hbuf).readHeader (blank_resetFile _ hlength _)
    · have hzeroed := faults.slotsZeroed_le header.slotCount.toNat
      cases hold : old with
      | none => exact .partly (Or.inl rfl) (blank_newFile.resetFile hlength hzeroed)
      | some f =>
        obtain ⟨hblank, hunused⟩ := hreset f hold ⟨hset, ⟨buf, hbuf⟩, hfull⟩
        exact .partly (Or.inr hunused) (hblank.resetFile hlength hzeroed)

/-- **The bitmap file after an opening**: it is as it was, has fewer ready slots under the same
header, or has none. -/
theorem openOrCreate_after {key : FileKey} {blob : BlobDescriptor} {unitBytes : UInt64}
    {faults : OpenFaults} {file : Option File} {res : Except Error OpenedRangeMap}
    (h : openOrCreate codec key blob unitBytes faults old = (res, file))
    (hreset : ∀ m f, RangeMap.geometry key blob.size unitBytes = .ok m → faults.openFile = none →
      old = some f →
      (∀ slots, ¬Keeps codec m f (expectedHeader blob unitBytes m.slotCount) faults slots) →
      ResetInterrupted codec (expectedHeader blob unitBytes m.slotCount) faults.init →
      Blank f ∧ unused) :
    file = old ∨ ∃ m f', RangeMap.geometry key blob.size unitBytes = .ok m ∧ file = some f' ∧
      AfterOpening codec (expectedHeader blob unitBytes m.slotCount) unused old f' := by
  cases OpensBitmap.of_openOrCreate h with
  | refused | kept => exact Or.inl rfl
  | cleared hm hopen hnot hinit | failed hm hopen hnot hinit =>
    refine Or.inr ⟨_, _, hm, rfl, initializeFile_after hinit fun f hf => ?_⟩
    exact hreset _ f hm hopen hf fun slots => hnot f slots hf

/-- The slots stay sound. -/
theorem AfterOpening.mapSound (h : AfterOpening codec header unused old f')
    (hold : ∀ f, old = some f → MapSound codec bytes f target) :
    MapSound codec bytes f' target := by
  cases h with
  | cleared hf hclears => exact hclears.mapSound (hold _ hf)
  | reset hheader hblank => exact hblank.mapSound
  | partly hf hblank => exact hblank.mapSound

/-- A file in use keeps its header. -/
theorem AfterOpening.readHeader (h : AfterOpening codec header unused old f') (hused : ¬ unused)
    (hf : old = some f) (hheader : readHeader codec f = .ok header) :
    readHeader codec f' = .ok header := by
  cases h with
  | cleared hold hclears =>
    obtain rfl := Option.some.inj (hf.symm.trans hold)
    exact hclears.readHeader hheader
  | reset hheader' => exact hheader'
  | partly hold =>
    rcases hold with hnone | hunused
    · exact absurd (hf.symm.trans hnone) (by simp)
    · exact absurd hunused hused

theorem AfterOpening.slot (h : AfterOpening codec header unused old f') {k : ℕ}
    (hk : f'.byte (headerSize + k) ≠ 0) : ∃ f, old = some f ∧ f.byte (headerSize + k) ≠ 0 := by
  cases h with
  | cleared hold hclears => exact ⟨_, hold, hclears.slot k hk⟩
  | reset hheader hblank | partly hold hblank => exact absurd (hblank k) hk

theorem AfterOpening.trans (h : AfterOpening codec header unused old f') (h' : Clears f' f'') :
    AfterOpening codec header unused old f'' := by
  cases h with
  | cleared hold hclears => exact .cleared hold (hclears.trans h')
  | reset hheader hblank => exact .reset (h'.readHeader hheader) (h'.blank hblank)
  | partly hold hblank => exact .partly hold (h'.blank hblank)

end MapSound

end Lazyd
