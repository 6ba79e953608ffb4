import Lazyd.RangeMap.Persist

/-!
# A range map is a set of ready slots

The calls on a range map, as long as the file system does not fail, next to what they do to the set
of its ready slots. A call that updates a range inside the blob adds or removes the slots whose
bytes meet the range, and any other call changes nothing. So a slot is ready when the last call that
has written it made it ready.

## Main definitions

* `RangeMap.slotBytes` : the bytes of a slot.
* `MapState`, `MapCall`, `RangeMap.call`, `RangeMap.calls` : the calls on a range map.
* `MapCall.Writes`, `MapCall.apply`, `LastSet` : what they do to a set of slots.

## Main results

* `RangeMap.updateRange_inside`, `RangeMap.updateRange_outside` : the two results of an update.
* `readySet_calls` : the refinement.
* `range_map_refines_ready_set` : what the calls answer after any other calls.

Source: `src/range_map.rs`, lines 100–114, 135–166 and 223–228.
-/

namespace Lazyd

open UnitPartition

/-- The bitmap file and the slots in memory. -/
structure MapState where
  file : File
  slots : List UInt8

inductive MapCall where
  | setRangeReady (start len : ℕ)
  | clearRangeReady (start len : ℕ)
  | isRangeReady (start len : ℕ)
  deriving DecidableEq, Repr

inductive MapAnswer where
  | updated (res : Except Error Unit)
  | ready (b : Bool)

namespace RangeMap

variable (m : RangeMap)

/-- A call, when the file system does not fail. -/
def call (s : MapState) : MapCall → MapAnswer × MapState
  | .setRangeReady start len =>
    match m.setRangeReady start len none s.file s.slots with
    | (res, file, slots) => (.updated res, ⟨file, slots⟩)
  | .clearRangeReady start len =>
    match m.clearRangeReady start len none s.file s.slots with
    | (res, file, slots) => (.updated res, ⟨file, slots⟩)
  | .isRangeReady start len => (.ready (m.isRangeReady s.slots start len), s)

/-- The state after a list of calls. -/
def calls (s : MapState) (cs : List MapCall) : MapState := cs.foldl (fun s c => (m.call s c).2) s

/-- The bytes of a slot. -/
def slotBytes (k : ℕ) : Set ℕ :=
  match m.slotRange k with
  | .ok (offset, len) => Set.Ico offset (offset + len)
  | .error _ => ∅

variable {m}

theorem slotBytes_eq (k : ℕ) : m.slotBytes k = cell m.unitBytes m.blobSize k := by
  rcases lt_or_ge k m.slotCount with hk | hk
  · have hlt := m.slot_mul_lt hk
    have hle : k * m.unitBytes ≤ min (k * m.unitBytes + m.unitBytes) m.blobSize := by omega
    rw [slotBytes, m.slotRange_ok hk, cell]
    dsimp only
    rw [Nat.add_sub_cancel' hle]
  · rw [slotBytes, slotRange, if_pos hk]
    refine (Set.eq_empty_of_forall_notMem fun p hp => ?_).symm
    have hp' := lt_ceilDiv_of_mem_cell m.unitBytes_pos hp
    rw [← m.slotCount_eq] at hp'
    omega

theorem slotBytes_inter_iff {start len k : ℕ} (hlen : 0 < len) (h : start + len ≤ m.blobSize) :
    (m.slotBytes k ∩ Set.Ico start (start + len)).Nonempty ↔
      Touches m.unitBytes start (start + len) k := by
  rw [slotBytes_eq]
  exact inter_nonempty_iff m.unitBytes_pos (by omega) h

/-! ### One update -/

section Update

variable (start len : ℕ) (value : UInt8) (f : File) (slots : List UInt8)

theorem updateRange_zero : m.updateRange start 0 value none f slots = (.ok (), f, slots) := rfl

/-- An update inside the blob writes the slots that the range touches, in the file and in memory. -/
theorem updateRange_inside (hlen : 0 < len) (h : start + len ≤ m.blobSize) :
    m.updateRange start len value none f slots =
      (.ok (), f.writeAt (headerSize + start / m.unitBytes)
          (List.replicate ((start + len) ⌈/⌉ m.unitBytes - start / m.unitBytes) value),
        fillSlots slots (start / m.unitBytes) ((start + len) ⌈/⌉ m.unitBytes) value) := by
  have hlt : start / m.unitBytes < (start + len) ⌈/⌉ m.unitBytes :=
    (touches_left m.unitBytes_pos (by omega)).2
  simp only [updateRange, slotsForRange_ok hlen h, hlt.ne, ↓reduceIte, File.writeAll]

/-- Any other update of a nonempty range changes nothing. -/
theorem updateRange_outside (hlen : 0 < len) (h : m.blobSize < start + len) :
    ∃ err, m.updateRange start len value none f slots = (.error err, f, slots) := by
  obtain ⟨err, herr⟩ := m.slotsForRange_error hlen h
  exact ⟨err, by rw [updateRange, herr]⟩

end Update

/-- The map has as many slots as the geometry says, and the file has the same. -/
structure InSync (m : RangeMap) (s : MapState) : Prop where
  length_slots : s.slots.length = m.slotCount
  slot : ∀ k < m.slotCount, s.file.byte (headerSize + k) = s.slots.getD k 0

/-- Slots are written to the file and to the memory. -/
theorem InSync.fill {f : File} {slots : List UInt8} (h : m.InSync ⟨f, slots⟩)
    {slotStart slotEnd : ℕ} (hle : slotStart ≤ slotEnd) (value : UInt8) :
    m.InSync ⟨f.writeAt (headerSize + slotStart) (List.replicate (slotEnd - slotStart) value),
      fillSlots slots slotStart slotEnd value⟩ := by
  refine ⟨(length_fillSlots _ _ _ _).trans h.length_slots, fun k hk => ?_⟩
  have hslots : k < slots.length := hk.trans_eq h.length_slots.symm
  by_cases hin : slotStart ≤ k ∧ k < slotEnd
  · have hbyte := SparseFile.writeAt_byte_of_mem f (headerSize + slotStart)
      (List.replicate (slotEnd - slotStart) value) (i := k - slotStart)
      (by rw [List.length_replicate]; omega)
    rw [Nat.add_assoc, Nat.add_sub_cancel' hin.1] at hbyte
    rw [getD_fillSlots_of_mem value hslots hin.1 hin.2, hbyte, List.getD_eq_getElem?_getD,
      List.getElem?_replicate, if_pos (by omega), Option.getD_some]
  · rw [getD_fillSlots_of_notMem slots value hin, SparseFile.writeAt_byte_of_notMem]
    · exact h.slot k hk
    · rw [List.length_replicate]
      omega

/-- **One update.** It writes exactly the slots whose bytes meet the range. -/
theorem updateRange_slots {s : MapState} (hs : m.InSync s) (start len : ℕ) (value : UInt8)
    (h : start + len ≤ m.blobSize) : ∃ s' : MapState,
    m.updateRange start len value none s.file s.slots = (.ok (), s'.file, s'.slots) ∧
    m.InSync s' ∧ ∀ k,
      ((m.slotBytes k ∩ Set.Ico start (start + len)).Nonempty → s'.slots.getD k 0 = value) ∧
      (¬ (m.slotBytes k ∩ Set.Ico start (start + len)).Nonempty →
        s'.slots.getD k 0 = s.slots.getD k 0) := by
  rcases Nat.eq_zero_or_pos len with rfl | hlen
  · refine ⟨s, updateRange_zero start value s.file s.slots, hs,
      fun k => ⟨fun hmeets => ?_, fun _ => rfl⟩⟩
    rw [Nat.add_zero, Set.Ico_self, Set.inter_empty] at hmeets
    exact absurd hmeets Set.not_nonempty_empty
  · have hend : (start + len) ⌈/⌉ m.unitBytes ≤ m.slotCount := by
      rw [m.slotCount_eq]
      exact ceilDiv_mono m.unitBytes_pos h
    have hlt : start / m.unitBytes < (start + len) ⌈/⌉ m.unitBytes :=
      (touches_left m.unitBytes_pos (by omega)).2
    refine ⟨_, updateRange_inside start len value s.file s.slots hlen h, hs.fill hlt.le value,
      fun k => ⟨fun hmeets => ?_, fun hmeets => ?_⟩⟩
    · rw [slotBytes_inter_iff hlen h] at hmeets
      have hk : k < s.slots.length := by
        rw [hs.length_slots]
        exact hmeets.2.trans_le hend
      exact getD_fillSlots_of_mem value hk hmeets.1 hmeets.2
    · rw [slotBytes_inter_iff hlen h] at hmeets
      exact getD_fillSlots_of_notMem s.slots value hmeets

end RangeMap

/-! ### Calls -/

/-- The call updates the slot: its range is inside the blob and meets the bytes of the slot. -/
def MapCall.Writes (m : RangeMap) (k : ℕ) : MapCall → Prop
  | .setRangeReady start len | .clearRangeReady start len =>
    start + len ≤ m.blobSize ∧ (m.slotBytes k ∩ Set.Ico start (start + len)).Nonempty
  | .isRangeReady _ _ => False

/-- What a call does to a set of ready slots. -/
def MapCall.apply (m : RangeMap) (R : Set ℕ) : MapCall → Set ℕ
  | .setRangeReady start len => R ∪ {k | (MapCall.setRangeReady start len).Writes m k}
  | .clearRangeReady start len => R \ {k | (MapCall.clearRangeReady start len).Writes m k}
  | .isRangeReady _ _ => R

/-- The ready slots. -/
def readySet (slots : List UInt8) : Set ℕ := {k | slots.getD k 0 ≠ 0}

/-- The last call that has written the slot made it ready, or it was ready at first and no call has
written it. -/
def LastSet (m : RangeMap) (initially : Prop) (k : ℕ) (cs : List MapCall) : Prop :=
  (∃ before start len after, cs = before ++ .setRangeReady start len :: after ∧
    (MapCall.setRangeReady start len).Writes m k ∧ ∀ c ∈ after, ¬ c.Writes m k) ∨
  initially ∧ ∀ c ∈ cs, ¬ c.Writes m k

variable {m : RangeMap}

theorem apply_of_not_writes {c : MapCall} {k : ℕ} (h : ¬ c.Writes m k) (R : Set ℕ) :
    k ∈ c.apply m R ↔ k ∈ R := by
  cases c with
  | setRangeReady start len => exact or_iff_left h
  | clearRangeReady start len => exact and_iff_left h
  | isRangeReady start len => rfl

theorem mem_foldl_apply_iff (R : Set ℕ) (k : ℕ) (cs : List MapCall) :
    k ∈ cs.foldl (MapCall.apply m) R ↔ LastSet m (k ∈ R) k cs := by
  induction cs using List.reverseRecOn with
  | nil => simp [LastSet]
  | append_singleton cs c ih =>
    rw [List.foldl_append, List.foldl_cons, List.foldl_nil]
    by_cases hc : c.Writes m k
    · cases c with
      | setRangeReady start len =>
        exact iff_of_true (Or.inr hc) (Or.inl ⟨cs, start, len, [], rfl, hc, by simp⟩)
      | clearRangeReady start len =>
        refine iff_of_false (fun h => h.2 hc) ?_
        rintro (⟨before, start', len', after, heq, -, hafter⟩ | ⟨-, hnone⟩)
        · rcases List.eq_nil_or_concat after with rfl | ⟨after, c', rfl⟩
          · exact absurd (List.append_inj' heq rfl).2 (by simp)
          · rw [List.concat_eq_append, ← List.cons_append, ← List.append_assoc] at heq
            obtain rfl := (List.cons.inj (List.append_inj' heq rfl).2).1
            exact hafter _ (by simp) hc
        · exact hnone _ (by simp) hc
      | isRangeReady start len => exact absurd hc id
    · rw [apply_of_not_writes hc, ih]
      constructor
      · rintro (⟨before, start, len, after, rfl, hset, hafter⟩ | ⟨hinit, hnone⟩)
        · refine Or.inl ⟨before, start, len, after ++ [c], by simp, hset, fun c' hc' => ?_⟩
          rcases List.mem_append.mp hc' with hmem | hmem
          · exact hafter c' hmem
          · rwa [List.mem_singleton.mp hmem]
        · refine Or.inr ⟨hinit, fun c' hc' => ?_⟩
          rcases List.mem_append.mp hc' with hmem | hmem
          · exact hnone c' hmem
          · rwa [List.mem_singleton.mp hmem]
      · rintro (⟨before, start, len, after, heq, hset, hafter⟩ | ⟨hinit, hnone⟩)
        · rcases List.eq_nil_or_concat after with rfl | ⟨after, c', rfl⟩
          · obtain rfl := (List.cons.inj (List.append_inj' heq rfl).2).1
            exact absurd hset hc
          · rw [List.concat_eq_append, ← List.cons_append, ← List.append_assoc] at heq
            obtain ⟨rfl, -⟩ := List.append_inj' heq rfl
            exact Or.inl ⟨before, start, len, after, rfl, hset,
              fun c'' hc'' => hafter c'' (by simp [hc''])⟩
        · exact Or.inr ⟨hinit, fun c' hc' => hnone c' (by simp [hc'])⟩

/-- An update does to the ready slots what the call says. -/
theorem updateRange_readySet {s : MapState} (hs : m.InSync s) (start len : ℕ) (value : UInt8) :
    ∃ res, ∃ s' : MapState,
      m.updateRange start len value none s.file s.slots = (res, s'.file, s'.slots) ∧ m.InSync s' ∧
      ∀ k, (start + len ≤ m.blobSize ∧ (m.slotBytes k ∩ Set.Ico start (start + len)).Nonempty →
          s'.slots.getD k 0 = value) ∧
        (¬ (start + len ≤ m.blobSize ∧ (m.slotBytes k ∩ Set.Ico start (start + len)).Nonempty) →
          s'.slots.getD k 0 = s.slots.getD k 0) := by
  rcases le_or_gt (start + len) m.blobSize with hle | hgt
  · obtain ⟨s', hupdate, hs', hslots⟩ := m.updateRange_slots hs start len value hle
    refine ⟨_, s', hupdate, hs', fun k => ⟨fun h => (hslots k).1 h.2, fun h => (hslots k).2 ?_⟩⟩
    exact fun hmeets => h ⟨hle, hmeets⟩
  · rcases Nat.eq_zero_or_pos len with rfl | hlen
    · refine ⟨_, s, m.updateRange_zero start value s.file s.slots, hs, fun k =>
        ⟨fun h => absurd h.1 (not_le.mpr hgt), fun _ => rfl⟩⟩
    · obtain ⟨err, hupdate⟩ := m.updateRange_outside start len value s.file s.slots hlen hgt
      exact ⟨_, s, hupdate, hs, fun k => ⟨fun h => absurd h.1 (not_le.mpr hgt), fun _ => rfl⟩⟩

/-- **One call** does to the ready slots what it does to a set. -/
theorem call_refines {s : MapState} (hs : m.InSync s) (c : MapCall) :
    m.InSync (m.call s c).2 ∧ readySet (m.call s c).2.slots = c.apply m (readySet s.slots) := by
  cases c with
  | setRangeReady start len =>
    obtain ⟨res, s', hupdate, hs', hslots⟩ := updateRange_readySet hs start len 1
    simp only [RangeMap.call, RangeMap.setRangeReady, hupdate]
    refine ⟨hs', Set.ext fun k => ?_⟩
    by_cases hk : (MapCall.setRangeReady start len).Writes m k
    · refine iff_of_true ?_ (Or.inr hk)
      simp only [readySet, Set.mem_ofPred_eq, (hslots k).1 hk]
      decide
    · rw [apply_of_not_writes hk]
      simp only [readySet, Set.mem_ofPred_eq, (hslots k).2 hk]
  | clearRangeReady start len =>
    obtain ⟨res, s', hupdate, hs', hslots⟩ := updateRange_readySet hs start len 0
    simp only [RangeMap.call, RangeMap.clearRangeReady, hupdate]
    refine ⟨hs', Set.ext fun k => ?_⟩
    by_cases hk : (MapCall.clearRangeReady start len).Writes m k
    · refine iff_of_false ?_ (fun h => h.2 hk)
      simp only [readySet, Set.mem_ofPred_eq, (hslots k).1 hk, ne_eq, not_true_eq_false,
        not_false_eq_true]
    · rw [apply_of_not_writes hk]
      simp only [readySet, Set.mem_ofPred_eq, (hslots k).2 hk]
  | isRangeReady start len => exact ⟨hs, rfl⟩

/-- **Any calls** do to the ready slots what they do to a set. -/
theorem readySet_calls {s : MapState} (hs : m.InSync s) (cs : List MapCall) :
    m.InSync (m.calls s cs) ∧
      readySet (m.calls s cs).slots = cs.foldl (MapCall.apply m) (readySet s.slots) := by
  induction cs generalizing s with
  | nil => exact ⟨hs, rfl⟩
  | cons c cs ih =>
    obtain ⟨hs', hready⟩ := call_refines hs c
    obtain ⟨hsync, hcalls⟩ := ih hs'
    refine ⟨hsync, hcalls.trans ?_⟩
    rw [hready, List.foldl_cons]

theorem isRangeReady_iff_readySet {s : MapState} (hs : m.InSync s) (start len : ℕ) :
    m.isRangeReady s.slots start len = true ↔ len = 0 ∨ start + len ≤ m.blobSize ∧
      ∀ k, (m.slotBytes k ∩ Set.Ico start (start + len)).Nonempty → k ∈ readySet s.slots := by
  rw [RangeMap.isRangeReady_iff hs.length_slots]
  rcases Nat.eq_zero_or_pos len with rfl | hlen
  · simp only [true_or]
  · refine or_congr_right (and_congr_right fun hle => forall_congr' fun k => ?_)
    rw [RangeMap.slotBytes_inter_iff hlen hle]
    rfl

theorem slotsForRange_ne_slot_map (start len : ℕ) :
    m.slotsForRange start len ≠ .error (.badRequest "range exceeds slot map") := by
  rcases Nat.eq_zero_or_pos len with rfl | hlen
  · simp [RangeMap.slotsForRange_zero]
  · rcases le_or_gt (start + len) m.blobSize with hle | hgt
    · simp [RangeMap.slotsForRange_ok hlen hle]
    · by_cases hlt : start + len < U64.size
      · simp only [RangeMap.slotsForRange, hlen.ne', ↓reduceIte, U64.checkedAdd_of_lt hlt, hgt]
        decide
      · simp only [RangeMap.slotsForRange, hlen.ne', ↓reduceIte, U64.checkedAdd, hlt]
        decide

/-- **A range map is a set of ready slots.** After any calls on a range map that was opened, with
the file system not failing: an update fails exactly when its range is not empty and overflows or
ends behind the blob, and then changes nothing; any other update writes its value to exactly the
slots whose bytes meet the range. A range is ready exactly when it is empty, or inside the blob and
the last update of every slot that it meets made the slot ready, or there was none and the slot was
ready at first. The slots of a range are slots of the map, whatever the range is, and the check for
this never fails. -/
theorem range_map_refines_ready_set {codec : HeaderCodec} {key : FileKey} {blob : BlobDescriptor}
    {unitBytes : UInt64} {faults : OpenFaults} {old : Option File} {opened : OpenedRangeMap}
    {f : File} (hopen : openOrCreate codec key blob unitBytes faults old = (.ok opened, some f))
    (cs : List MapCall) (start len : ℕ) {s : MapState}
    (hs : opened.rangeMap.calls ⟨f, opened.slots⟩ cs = s) :
    (∀ value, ∃ res, ∃ s' : MapState,
      opened.rangeMap.updateRange start len value none s.file s.slots = (res, s'.file, s'.slots) ∧
      opened.rangeMap.InSync s' ∧
      ((∃ err, res = .error err) ↔
        0 < len ∧ (U64.size ≤ start + len ∨ opened.rangeMap.blobSize < start + len)) ∧
      ((∃ err, res = .error err) → s' = s) ∧
      (res = .ok () → ∀ k,
        ((opened.rangeMap.slotBytes k ∩ Set.Ico start (start + len)).Nonempty →
          s'.slots.getD k 0 = value) ∧
        (¬ (opened.rangeMap.slotBytes k ∩ Set.Ico start (start + len)).Nonempty →
          s'.slots.getD k 0 = s.slots.getD k 0))) ∧
    (opened.rangeMap.isRangeReady s.slots start len = true ↔
      len = 0 ∨ start + len ≤ opened.rangeMap.blobSize ∧
        ∀ k, (opened.rangeMap.slotBytes k ∩ Set.Ico start (start + len)).Nonempty →
          LastSet opened.rangeMap (opened.slots.getD k 0 ≠ 0) k cs) ∧
    (∀ slotStart slotEnd, opened.rangeMap.slotsForRange start len = .ok (slotStart, slotEnd) →
      slotStart ≤ slotEnd ∧ slotEnd ≤ s.slots.length) ∧
    opened.rangeMap.slotsForRange start len ≠ .error (.badRequest "range exceeds slot map") := by
  obtain ⟨f', heq, hopened⟩ := openOrCreate_slots (openOrCreate_rangeMap hopen) hopen
  obtain rfl := Option.some.inj heq
  have hstart : opened.rangeMap.InSync ⟨f, opened.slots⟩ := ⟨hopened.length_slots, hopened.slot⟩
  obtain ⟨hsync, hready⟩ := readySet_calls hstart cs
  rw [hs] at hsync hready
  refine ⟨fun value => ?_, ?_, ?_, slotsForRange_ne_slot_map start len⟩
  · have hsize := opened.rangeMap.blobSize_lt
    rcases le_or_gt (start + len) opened.rangeMap.blobSize with hle | hgt
    · obtain ⟨s', hupdate, hs', hslots⟩ :=
        opened.rangeMap.updateRange_slots hsync start len value hle
      refine ⟨_, s', hupdate, hs', iff_of_false (by simp) (by omega), fun h => absurd h (by simp),
        fun _ => hslots⟩
    · rcases Nat.eq_zero_or_pos len with rfl | hlen
      · refine ⟨_, s, opened.rangeMap.updateRange_zero start value s.file s.slots, hsync,
          iff_of_false (by simp) (by omega), fun h => absurd h (by simp),
          fun _ k => ⟨fun h => ?_, fun _ => rfl⟩⟩
        rw [Nat.add_zero, Set.Ico_self, Set.inter_empty] at h
        exact absurd h Set.not_nonempty_empty
      · obtain ⟨err, hupdate⟩ :=
          opened.rangeMap.updateRange_outside start len value s.file s.slots hlen hgt
        exact ⟨_, s, hupdate, hsync, iff_of_true ⟨err, rfl⟩ ⟨hlen, Or.inr hgt⟩, fun _ => rfl,
          fun h => absurd h (by simp)⟩
  · rw [isRangeReady_iff_readySet hsync, hready]
    simp only [mem_foldl_apply_iff]
    rfl
  · intro slotStart slotEnd hslots
    rw [hsync.length_slots]
    exact opened.rangeMap.slotsForRange_le hslots

/-- A blob of three bytes: one byte is set, an update behind the blob is refused, and all the bytes
are ready. -/
theorem range_map_refines_ready_set_newBlob : ∃ m f,
    openOrCreate headerJson ⟨1, 2⟩ newBlob 1048576 {} none = (.ok ⟨m, [0], false⟩, some f) ∧
    m.isRangeReady (m.calls ⟨f, [0]⟩ [.setRangeReady 1 1, .clearRangeReady 2 7]).slots 0 3 =
      true := by
  obtain ⟨buf, hbuf⟩ := exists_encodeHeader (encodeHeader_small newBlob (by decide))
  obtain ⟨m, hm, hone⟩ : ∃ m, RangeMap.geometry ⟨1, 2⟩ newBlob.size 1048576 = .ok m ∧
      m.slotCount = 1 := ⟨_, rfl, rfl⟩
  obtain ⟨-, hunit, hsize⟩ := RangeMap.geometry_eq_ok hm
  have hblob : m.blobSize = 3 := hsize
  have hopen := openOrCreate_none hm (hone ▸ hbuf)
  rw [hone] at hopen
  obtain ⟨-, hready, -⟩ := range_map_refines_ready_set hopen
    [.setRangeReady 1 1, .clearRangeReady 2 7] 0 3 rfl
  have hset (k : ℕ) (hk : (m.slotBytes k ∩ Set.Ico 0 (0 + 3)).Nonempty) :
      (m.slotBytes k ∩ Set.Ico 1 (1 + 1)).Nonempty := by
    rw [RangeMap.slotBytes_inter_iff (by decide) (by omega), hunit] at hk ⊢
    exact hk
  refine ⟨m, _, hopen, hready.mpr (Or.inr ⟨hblob.ge, fun k hk => Or.inl
    ⟨[], 1, 1, [.clearRangeReady 2 7], rfl, ⟨by change 1 + 1 ≤ m.blobSize; omega, hset k hk⟩,
      fun c hc => ?_⟩⟩)⟩
  rw [List.mem_singleton.mp hc]
  rintro ⟨hle, -⟩
  change 2 + 7 ≤ m.blobSize at hle
  omega

end Lazyd
