import Lazyd.Base

/-!
# The range map: slots and ranges

A range map keeps one byte for each fetch unit of a blob, nonzero when the unit is in the cache
file. This file has the arithmetic between byte ranges and slots, the readiness test and the update
of the slots in memory. The slot bytes change while the instance runs, so they are passed along;
what a `RangeMap` holds is fixed when the map is opened, together with the two checks that opening
it made.

The slots are related to the cells of `UnitPartition`: slot `k` stands for the cell `k` of the blob,
and a byte range has the slots of the cells that it touches.

## Main definitions

* `validateFetchUnitBytes`, `slotCount`, `RangeMap`.
* `RangeMap.slotsForRange`, `RangeMap.slotRange`, `RangeMap.isRangeReady`, `fillSlots`.

## Main results

* `RangeMap.slotsForRange_ok`, `RangeMap.slotsForRange_eq_ok` : the slots of a range.
* `RangeMap.slotRange_ok` : the range of a slot.
* `RangeMap.isRangeReady_iff` : a range is ready when every slot that it touches is.
* `readyCount_fillSlots` : filling slots never makes fewer of them ready.

Source: `src/range_map.rs`, lines 14–17, 28–34, 100–191 and 223–228.
-/

namespace Lazyd

/-- The granularity of fetch units. -/
def bitmapUnitBytes : ℕ := 2 ^ 20

/-- The size of the header in front of the slots in the bitmap file. -/
def headerSize : ℕ := 4096

def validateFetchUnitBytes (unitBytes : ℕ) : Except Error Unit :=
  if unitBytes < bitmapUnitBytes ∨ unitBytes % bitmapUnitBytes ≠ 0 then
    .error (.badRequest "fetch unit_bytes must be a multiple of 1MiB and no smaller than 1MiB")
  else .ok ()

def slotCount (blobSize unitBytes : ℕ) : Except Error ℕ :=
  match U64.checkedAdd blobSize (U64.sub unitBytes 1) with
  | some size => .ok (size / unitBytes)
  | none => .error (.badRequest "slot count overflows u64")

/-- What is fixed in an open range map: the bitmap file and the geometry of the blob, with the
checks that were made when it was opened. -/
@[ext]
structure RangeMap where
  file : FileKey
  unitBytes : ℕ
  blobSize : ℕ
  slotCount : ℕ
  unitBytes_lt : unitBytes < U64.size
  validate : validateFetchUnitBytes unitBytes = .ok ()
  slotCount_ok : Lazyd.slotCount blobSize unitBytes = .ok slotCount

theorem validateFetchUnitBytes_eq_ok {unitBytes : ℕ} :
    validateFetchUnitBytes unitBytes = .ok () ↔
      bitmapUnitBytes ≤ unitBytes ∧ bitmapUnitBytes ∣ unitBytes := by
  rw [validateFetchUnitBytes, Nat.dvd_iff_mod_eq_zero]
  split_ifs with h
  · simp only [false_iff, not_and_or, not_le]
    exact h
  · simp only [true_iff]
    omega

namespace RangeMap

variable (m : RangeMap)

theorem bitmapUnitBytes_le : bitmapUnitBytes ≤ m.unitBytes :=
  (validateFetchUnitBytes_eq_ok.mp m.validate).1

theorem bitmapUnitBytes_dvd : bitmapUnitBytes ∣ m.unitBytes :=
  (validateFetchUnitBytes_eq_ok.mp m.validate).2

theorem unitBytes_pos : 0 < m.unitBytes :=
  lt_of_lt_of_le (Nat.two_pow_pos 20) m.bitmapUnitBytes_le

theorem blobSize_add_lt : m.blobSize + (m.unitBytes - 1) < U64.size ∧
    m.slotCount = m.blobSize ⌈/⌉ m.unitBytes := by
  have hpos : 1 ≤ m.unitBytes := m.unitBytes_pos
  have hok := m.slotCount_ok
  rw [Lazyd.slotCount, U64.sub_eq hpos] at hok
  split at hok
  · rename_i size hadd
    obtain ⟨rfl, hlt⟩ := U64.checkedAdd_eq_some.mp hadd
    refine ⟨hlt, ?_⟩
    rw [Nat.ceilDiv_eq_add_pred_div, ← Except.ok.inj hok, Nat.add_sub_assoc hpos]
  · exact absurd hok (by simp)

theorem slotCount_eq : m.slotCount = m.blobSize ⌈/⌉ m.unitBytes := m.blobSize_add_lt.2

theorem blobSize_lt : m.blobSize < U64.size := by
  have h := m.blobSize_add_lt.1
  omega

theorem ceilDiv_mul_lt_size {b : ℕ} (hb : b ≤ m.blobSize) :
    b ⌈/⌉ m.unitBytes * m.unitBytes < U64.size := by
  have h₁ := UnitPartition.ceilDiv_mul_lt m.unitBytes_pos b
  have h₂ := m.blobSize_add_lt.1
  omega

/-! ### Slots of a range, range of a slot -/

/-- `RangeMap::slots_for_range`: the first slot and the slot behind the last one. -/
def slotsForRange (start len : ℕ) : Except Error (ℕ × ℕ) :=
  if len = 0 then .ok (0, 0)
  else
    match U64.checkedAdd start len with
    | none => .error (.badRequest "range overflows u64")
    | some fin =>
      if m.blobSize < fin then .error (.badRequest "range exceeds blob size")
      else
        let slotStart := start / m.unitBytes
        let slotEnd := U64.divCeil fin m.unitBytes
        if m.slotCount < slotEnd then .error (.badRequest "range exceeds slot map")
        else .ok (slotStart, slotEnd)

/-- `RangeMap::slot_range`: the offset and the length of a slot. -/
def slotRange (slot : ℕ) : Except Error (ℕ × ℕ) :=
  if m.slotCount ≤ slot then .error (.badRequest "slot exceeds range map")
  else
    match U64.checkedMul slot m.unitBytes with
    | none => .error (.badRequest "slot offset overflows u64")
    | some offset =>
      let fin := min (U64.add offset m.unitBytes) m.blobSize
      .ok (offset, U64.sub fin offset)

variable {m}

theorem slotsForRange_zero (start : ℕ) : m.slotsForRange start 0 = .ok (0, 0) := rfl

/-- A nonempty range inside the blob has the slots of the cells that it touches. -/
theorem slotsForRange_ok {start len : ℕ} (hlen : 0 < len) (h : start + len ≤ m.blobSize) :
    m.slotsForRange start len =
      .ok (start / m.unitBytes, (start + len) ⌈/⌉ m.unitBytes) := by
  have hlt : start + len < U64.size := lt_of_le_of_lt h m.blobSize_lt
  have hslots : ¬ m.slotCount < (start + len) ⌈/⌉ m.unitBytes := by
    rw [m.slotCount_eq, not_lt]
    exact UnitPartition.ceilDiv_mono m.unitBytes_pos h
  simp only [slotsForRange, hlen.ne', ↓reduceIte, U64.checkedAdd_of_lt hlt, not_lt.mpr h,
    U64.divCeil_eq_ceilDiv m.unitBytes_pos, hslots]

theorem slotsForRange_error {start len : ℕ} (hlen : 0 < len) (h : m.blobSize < start + len) :
    ∃ err, m.slotsForRange start len = .error err := by
  by_cases hlt : start + len < U64.size
  · simp only [slotsForRange, hlen.ne', ↓reduceIte, U64.checkedAdd_of_lt hlt, h, Except.error.injEq,
      exists_eq']
  · simp only [slotsForRange, hlen.ne', ↓reduceIte, U64.checkedAdd, hlt, Except.error.injEq,
      exists_eq']

theorem slotsForRange_eq_ok {start len s e : ℕ} (hlen : 0 < len)
    (h : m.slotsForRange start len = .ok (s, e)) :
    start + len ≤ m.blobSize ∧ s = start / m.unitBytes ∧ e = (start + len) ⌈/⌉ m.unitBytes := by
  rcases le_or_gt (start + len) m.blobSize with hle | hgt
  · rw [slotsForRange_ok hlen hle, Except.ok.injEq, Prod.mk.injEq] at h
    exact ⟨hle, h.1.symm, h.2.symm⟩
  · obtain ⟨err, herr⟩ := m.slotsForRange_error hlen hgt
    rw [herr] at h
    exact absurd h (by simp)

theorem slotsForRange_le {start len s e : ℕ} (h : m.slotsForRange start len = .ok (s, e)) :
    s ≤ e ∧ e ≤ m.slotCount := by
  rcases Nat.eq_zero_or_pos len with rfl | hlen
  · obtain ⟨rfl, rfl⟩ := Prod.mk.inj (Except.ok.inj h)
    exact ⟨le_rfl, Nat.zero_le _⟩
  · obtain ⟨hle, rfl, rfl⟩ := slotsForRange_eq_ok hlen h
    refine ⟨?_, ?_⟩
    · exact (UnitPartition.touches_left m.unitBytes_pos (by omega)).2.le
    · rw [m.slotCount_eq]
      exact UnitPartition.ceilDiv_mono m.unitBytes_pos hle

/-- The range of a slot is its cell of the blob. -/
theorem slotRange_ok {k : ℕ} (hk : k < m.slotCount) :
    m.slotRange k = .ok (k * m.unitBytes,
      min (k * m.unitBytes + m.unitBytes) m.blobSize - k * m.unitBytes) := by
  have hlt : k * m.unitBytes < m.blobSize :=
    (UnitPartition.lt_ceilDiv_iff m.unitBytes_pos).mp (m.slotCount_eq ▸ hk)
  have hsize := m.blobSize_lt
  have hadd := m.blobSize_add_lt.1
  have hmul : k * m.unitBytes < U64.size := hlt.trans hsize
  have hend : k * m.unitBytes + m.unitBytes < U64.size := by omega
  have hsub : U64.sub (min (k * m.unitBytes + m.unitBytes) m.blobSize) (k * m.unitBytes) =
      min (k * m.unitBytes + m.unitBytes) m.blobSize - k * m.unitBytes :=
    U64.sub_eq (by omega)
  simp only [slotRange, not_le.mpr hk, ↓reduceIte, U64.checkedMul_of_lt hmul, U64.add_eq hend, hsub]

theorem slot_mul_lt {k : ℕ} (hk : k < m.slotCount) : k * m.unitBytes < m.blobSize :=
  (UnitPartition.lt_ceilDiv_iff m.unitBytes_pos).mp (m.slotCount_eq ▸ hk)

theorem slotsForRange_slotRange {k offset len : ℕ} (h : m.slotRange k = .ok (offset, len)) :
    m.slotsForRange offset len = .ok (k, k + 1) := by
  have hk : k < m.slotCount := by
    by_contra hle
    rw [slotRange, if_pos (not_lt.mp hle)] at h
    exact absurd h (by simp)
  have hpos := m.unitBytes_pos
  have hlt := slot_mul_lt hk
  rw [slotRange_ok hk] at h
  obtain ⟨rfl, rfl⟩ := Prod.mk.inj (Except.ok.inj h)
  have hend : k * m.unitBytes + (min (k * m.unitBytes + m.unitBytes) m.blobSize -
      k * m.unitBytes) = min ((k + 1) * m.unitBytes) m.blobSize := by
    rw [Nat.add_mul, Nat.one_mul]
    omega
  rw [slotsForRange_ok (by omega) (by omega), hend, Nat.mul_div_cancel _ hpos]
  congr 2
  refine le_antisymm ?_ ?_
  · rw [ceilDiv_le_iff_le_mul hpos, mul_comm]
    exact min_le_left _ _
  · refine Nat.succ_le_of_lt ((UnitPartition.lt_ceilDiv_iff hpos).mpr ?_)
    rw [Nat.add_mul, Nat.one_mul]
    omega

variable (m)

/-! ### Readiness -/

/-- `RangeMap::is_range_ready`, with the slots under the mutex. -/
def isRangeReady (slots : List UInt8) (start len : ℕ) : Bool :=
  match m.slotsForRange start len with
  | .error _ => false
  | .ok (slotStart, slotEnd) => ((slots.drop slotStart).take (slotEnd - slotStart)).all (· != 0)

end RangeMap

/-- `slots[s..e].fill(value)`. -/
def fillSlots (slots : List UInt8) (s e : ℕ) (value : UInt8) : List UInt8 :=
  slots.mapIdx fun i slot => if s ≤ i ∧ i < e then value else slot

/-- The number of ready slots. -/
def readyCount (slots : List UInt8) : ℕ := slots.countP (· != 0)

@[simp] theorem length_fillSlots (slots : List UInt8) (s e : ℕ) (value : UInt8) :
    (fillSlots slots s e value).length = slots.length := List.length_mapIdx

theorem getElem?_fillSlots (slots : List UInt8) (s e : ℕ) (value : UInt8) (k : ℕ) :
    (fillSlots slots s e value)[k]? =
      slots[k]?.map fun slot => if s ≤ k ∧ k < e then value else slot := List.getElem?_mapIdx

theorem getD_fillSlots_of_mem {slots : List UInt8} {s e k : ℕ} (value : UInt8)
    (hk : k < slots.length) (hs : s ≤ k) (he : k < e) :
    (fillSlots slots s e value).getD k 0 = value := by
  rw [List.getD_eq_getElem?_getD, getElem?_fillSlots, List.getElem?_eq_getElem hk, Option.map_some,
    if_pos ⟨hs, he⟩, Option.getD_some]

theorem getD_fillSlots_of_notMem (slots : List UInt8) {s e k : ℕ} (value : UInt8)
    (hk : ¬ (s ≤ k ∧ k < e)) : (fillSlots slots s e value).getD k 0 = slots.getD k 0 := by
  simp only [List.getD_eq_getElem?_getD, getElem?_fillSlots, hk, ↓reduceIte, Option.map_id']

theorem lt_length_of_getD_ne {slots : List UInt8} {k : ℕ} (h : slots.getD k 0 ≠ 0) :
    k < slots.length := by
  by_contra hle
  rw [List.getD_eq_getElem?_getD, List.getElem?_eq_none (not_lt.mp hle)] at h
  exact h rfl

theorem fillSlots_cons (b : UInt8) (slots : List UInt8) (s e : ℕ) (value : UInt8) :
    fillSlots (b :: slots) s e value =
      (if s = 0 ∧ 0 < e then value else b) :: fillSlots slots (s - 1) (e - 1) value := by
  rw [fillSlots, List.mapIdx_cons, fillSlots]
  congr 1
  · simp only [Nat.le_zero]
  · congr 1
    funext i slot
    congr 1
    rw [eq_iff_iff]
    omega

/-- Filling slots with a nonzero value makes no slot unready, and makes at least one more ready
when a slot to be filled was not. -/
theorem readyCount_fillSlots (slots : List UInt8) (s e k : ℕ) {value : UInt8} (hv : value ≠ 0) :
    readyCount slots ≤ readyCount (fillSlots slots s e value) ∧
    (k < slots.length → s ≤ k → k < e → slots.getD k 0 = 0 →
      readyCount slots < readyCount (fillSlots slots s e value)) := by
  induction slots generalizing s e k with
  | nil => simp [fillSlots]
  | cons b slots ih =>
    rw [fillSlots_cons]
    simp only [readyCount, List.countP_cons] at ih ⊢
    have hhead : (if (b != 0) = true then 1 else 0) ≤
        if ((if s = 0 ∧ 0 < e then value else b) != 0) = true then 1 else 0 := by
      split_ifs <;> simp_all
    refine ⟨by have := (ih (s - 1) (e - 1) k).1; omega, ?_⟩
    intro hk hs he hzero
    cases k with
    | zero =>
      have hle := (ih (s - 1) (e - 1) 0).1
      have hb : b = 0 := hzero
      have hnew : (if s = 0 ∧ 0 < e then value else b) = value := if_pos ⟨by omega, he⟩
      rw [hnew, hb]
      simp only [bne_self_eq_false, Bool.false_eq_true, ↓reduceIte, bne_iff_ne, ne_eq, hv,
        not_false_eq_true]
      omega
    | succ k =>
      have hlt := (ih (s - 1) (e - 1) k).2 (by simpa using hk) (by omega)
        (by omega) hzero
      omega

theorem readyCount_le_length (slots : List UInt8) : readyCount slots ≤ slots.length :=
  List.countP_le_length

namespace RangeMap

variable {m : RangeMap}

theorem all_slice_iff {slots : List UInt8} {s e : ℕ} (he : e ≤ slots.length) :
    ((slots.drop s).take (e - s)).all (· != 0) = true ↔
      ∀ k, s ≤ k → k < e → slots.getD k 0 ≠ 0 := by
  rw [List.all_eq_true]
  constructor
  · intro hall k hs hk
    have hlt : k < slots.length := by omega
    have hmem : slots[k] ∈ (slots.drop s).take (e - s) := by
      rw [List.mem_take_iff_getElem]
      refine ⟨k - s, by rw [List.length_drop]; omega, ?_⟩
      rw [List.getElem_drop]
      congr 1
      omega
    have hne := hall _ hmem
    rw [List.getD_eq_getElem?_getD, List.getElem?_eq_getElem (by omega), Option.getD_some]
    simpa using hne
  · intro hall slot hslot
    rw [List.mem_take_iff_getElem] at hslot
    obtain ⟨i, hi, rfl⟩ := hslot
    rw [List.length_drop] at hi
    have hne := hall (s + i) (by omega) (by omega)
    rw [List.getD_eq_getElem?_getD, List.getElem?_eq_getElem (by omega), Option.getD_some] at hne
    rw [List.getElem_drop]
    simpa using hne

/-- **Readiness.** A range is ready when it is empty, or inside the blob with every slot that it
touches nonzero. -/
theorem isRangeReady_iff {slots : List UInt8} (hslots : slots.length = m.slotCount)
    (start len : ℕ) :
    m.isRangeReady slots start len = true ↔
      len = 0 ∨ start + len ≤ m.blobSize ∧
        ∀ k, UnitPartition.Touches m.unitBytes start (start + len) k → slots.getD k 0 ≠ 0 := by
  rcases Nat.eq_zero_or_pos len with rfl | hlen
  · simp [isRangeReady, slotsForRange_zero]
  · rcases le_or_gt (start + len) m.blobSize with hle | hgt
    · have hend : (start + len) ⌈/⌉ m.unitBytes ≤ slots.length := by
        rw [hslots, m.slotCount_eq]
        exact UnitPartition.ceilDiv_mono m.unitBytes_pos hle
      simp only [isRangeReady, slotsForRange_ok hlen hle, all_slice_iff hend, hlen.ne', false_or,
        hle, true_and, UnitPartition.Touches, and_imp]
    · obtain ⟨err, herr⟩ := m.slotsForRange_error hlen hgt
      simp only [isRangeReady, herr, Bool.false_eq_true, hlen.ne', false_or, not_le.mpr hgt,
        false_and]

/-- Making slots ready makes no range unready. -/
theorem isRangeReady_mono {slots slots' : List UInt8} (hslots : slots.length = m.slotCount)
    (hslots' : slots'.length = m.slotCount)
    (h : ∀ k, slots.getD k 0 ≠ 0 → slots'.getD k 0 ≠ 0) {start len : ℕ}
    (hready : m.isRangeReady slots start len = true) :
    m.isRangeReady slots' start len = true := by
  rw [isRangeReady_iff hslots] at hready
  rw [isRangeReady_iff hslots']
  exact hready.imp_right fun ⟨hle, hall⟩ => ⟨hle, fun k hk => h k (hall k hk)⟩

end RangeMap

end Lazyd
