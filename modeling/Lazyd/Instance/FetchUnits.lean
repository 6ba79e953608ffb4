import Lazyd.Instance.Config
import Lazyd.RangeMap.ReadySet

/-!
# Fetch units and slots are the same pieces of the blob

An instance rounds a request by multiplying back up and cutting off at the end of the blob; its
range map rounds it to the indices of slots. Both describe the same bytes, for the slots cut the
blob into consecutive nonempty pieces and the rounded request is the union of the pieces that the
request meets.

## Main results

* `RangeMap.slots_partition` : the slots are consecutive and fill the blob.
* `Instance.fetch_units_are_slots` : a rounded request is the union of its slots.

Source: `src/instance.rs`, lines 242–259 and 307–319; `src/range_map.rs`, lines 104–106 and 135–178.
-/

namespace Lazyd

open UnitPartition

namespace RangeMap

variable (m : RangeMap)

/-- The range of a slot, with where it starts and ends. -/
theorem slotRange_cases {k : ℕ} (hk : k < m.slotCount) :
    ∃ len, m.slotRange k = .ok (k * m.unitBytes, len) ∧ 0 < len ∧
      (k + 1 < m.slotCount → k * m.unitBytes + len = (k + 1) * m.unitBytes) ∧
      (k + 1 = m.slotCount → k * m.unitBytes + len = m.blobSize) := by
  have hpos := m.unitBytes_pos
  have hlt := m.slot_mul_lt hk
  have hsucc : (k + 1) * m.unitBytes = k * m.unitBytes + m.unitBytes := by
    rw [Nat.add_mul, Nat.one_mul]
  refine ⟨_, m.slotRange_ok hk, by omega, fun hnext => ?_, fun hlast => ?_⟩
  · have hlt' := m.slot_mul_lt hnext
    omega
  · have hceil := le_ceilDiv_mul hpos m.blobSize
    rw [← m.slotCount_eq, ← hlast] at hceil
    omega

theorem iUnion_slotBytes : ⋃ k ∈ Set.Iio m.slotCount, m.slotBytes k = Set.Ico 0 m.blobSize := by
  ext p
  simp only [Set.mem_iUnion, exists_prop, slotBytes_eq, mem_cell_iff m.unitBytes_pos, Set.mem_Iio,
    Set.mem_Ico, Nat.zero_le, true_and]
  constructor
  · rintro ⟨k, -, -, hp⟩
    exact hp
  · intro hp
    refine ⟨p / m.unitBytes, ?_, rfl, hp⟩
    rw [m.slotCount_eq]
    exact lt_ceilDiv_of_mem_cell m.unitBytes_pos ((mem_cell_iff m.unitBytes_pos).mpr ⟨rfl, hp⟩)

theorem disjoint_slotBytes {k l : ℕ} (h : k ≠ l) : Disjoint (m.slotBytes k) (m.slotBytes l) := by
  rw [slotBytes_eq, slotBytes_eq]
  exact disjoint_cell m.unitBytes_pos h

/-- The slots cut the blob into consecutive nonempty pieces: the first one starts at its beginning,
each starts where the one before ends, and the last one ends at its end. -/
theorem slots_partition :
    (∀ k < m.slotCount, ∃ offset len, m.slotRange k = .ok (offset, len) ∧ 0 < len ∧
      (k = 0 → offset = 0) ∧
      (k + 1 < m.slotCount → ∃ len', m.slotRange (k + 1) = .ok (offset + len, len')) ∧
      (k + 1 = m.slotCount → offset + len = m.blobSize)) ∧
    ⋃ k ∈ Set.Iio m.slotCount, m.slotBytes k = Set.Ico 0 m.blobSize ∧
    Pairwise fun k l => Disjoint (m.slotBytes k) (m.slotBytes l) := by
  refine ⟨fun k hk => ?_, m.iUnion_slotBytes, fun k l h => m.disjoint_slotBytes h⟩
  obtain ⟨len, hrange, hlen, hnext, hlast⟩ := m.slotRange_cases hk
  refine ⟨_, len, hrange, hlen, ?_, fun hk' => ?_, hlast⟩
  · rintro rfl
    exact Nat.zero_mul _
  · obtain ⟨len', hrange', -⟩ := m.slotRange_cases hk'
    exact ⟨len', by rw [hrange', hnext hk']⟩

end RangeMap

namespace Instance

variable (inst : Instance)

/-- A rounded request is the union of the slots of the request. -/
theorem positions_amplified_eq_iUnion {offset len : ℕ} (hlen : 0 < len)
    (h : offset + len ≤ inst.blobSize) : (inst.amplified offset len).positions =
      ⋃ k ∈ Set.Ico (offset / inst.unitBytes) ((offset + len) ⌈/⌉ inst.unitBytes),
        inst.rangeMap.slotBytes k := by
  have hslots (k : ℕ) : inst.rangeMap.slotBytes k = cell inst.unitBytes inst.blobSize k := by
    rw [RangeMap.slotBytes_eq, rangeMap_unitBytes, rangeMap_blobSize]
  simp only [positions_amplified hlen h, hslots]
  exact (iUnion_cell_eq_outward inst.unitBytes_pos offset (offset + len)).symm

theorem request_subset_amplified {offset len : ℕ} (hlen : 0 < len)
    (h : offset + len ≤ inst.blobSize) :
    Set.Ico offset (offset + len) ⊆ (inst.amplified offset len).positions := by
  rw [positions_amplified hlen h]
  exact Set.Ico_subset_Ico (Nat.div_mul_le_self _ _)
    (le_min (le_ceilDiv_mul inst.unitBytes_pos _) h)

/-- Marking a rounded request marks slots that are inside it, and all the slots of the request. -/
theorem setRangeReady_amplified {offset len : ℕ} (hlen : 0 < len)
    (h : offset + len ≤ inst.blobSize) {s : MapState} (hs : inst.rangeMap.InSync s) :
    ∃ s' : MapState, inst.rangeMap.setRangeReady (inst.amplified offset len).offset
        (inst.amplified offset len).len none s.file s.slots = (.ok (), s'.file, s'.slots) ∧
      (∀ k, s'.slots.getD k 0 ≠ s.slots.getD k 0 →
        inst.rangeMap.slotBytes k ⊆ (inst.amplified offset len).positions) ∧
      (∀ k ∈ Set.Ico (offset / inst.unitBytes) ((offset + len) ⌈/⌉ inst.unitBytes),
        s'.slots.getD k 0 = 1) ∧
      inst.rangeMap.isRangeReady s'.slots offset len = true := by
  obtain ⟨hpos, hend⟩ := amplified_bounds hlen h
  have hend' : (inst.amplified offset len).offset + (inst.amplified offset len).len ≤
      inst.rangeMap.blobSize := by rwa [rangeMap_blobSize]
  obtain ⟨s', hset, hs', hslots⟩ := inst.rangeMap.updateRange_slots hs
    (inst.amplified offset len).offset (inst.amplified offset len).len 1 hend'
  have hmeets (k : ℕ) : (inst.rangeMap.slotBytes k ∩ Set.Ico (inst.amplified offset len).offset
      ((inst.amplified offset len).offset + (inst.amplified offset len).len)).Nonempty ↔
        Touches inst.unitBytes offset (offset + len) k := by
    rw [RangeMap.slotBytes_inter_iff hpos hend', rangeMap_unitBytes, amplified_end hlen h]
    exact touches_outward inst.unitBytes_pos h
  have hmarked (k : ℕ) (hk : Touches inst.unitBytes offset (offset + len) k) :
      s'.slots.getD k 0 = 1 := (hslots k).1 ((hmeets k).mpr hk)
  refine ⟨s', hset, fun k hne => ?_, hmarked, ?_⟩
  · have hk : Touches inst.unitBytes offset (offset + len) k := by
      by_contra hk
      exact hne ((hslots k).2 fun hk' => hk ((hmeets k).mp hk'))
    rw [positions_amplified_eq_iUnion inst hlen h]
    exact Set.subset_biUnion_of_mem (show k ∈ Set.Ico _ _ from hk)
  · rw [RangeMap.isRangeReady_iff hs'.length_slots]
    refine Or.inr ⟨by rwa [rangeMap_blobSize], fun k hk => ?_⟩
    rw [rangeMap_unitBytes] at hk
    rw [hmarked k hk]
    decide

/-- **Fetch units are slots.** The range that is fetched for a request inside the blob is the union
of the slots of the request. It contains the request, is inside the blob and has the same slots; and
marking it makes ready only slots that are inside it, and all the slots that the readiness test of
the request looks at. The slots cut the blob into consecutive nonempty pieces. -/
theorem fetch_units_are_slots {offset len : ℕ} (hlen : 0 < len)
    (h : offset + len ≤ inst.blobSize) :
    (∃ range slotStart slotEnd, inst.amplifyToFetchUnit offset len = .ok range ∧
      inst.rangeMap.slotsForRange offset len = .ok (slotStart, slotEnd) ∧
      range.positions = ⋃ k ∈ Set.Ico slotStart slotEnd, inst.rangeMap.slotBytes k ∧
      Set.Ico offset (offset + len) ⊆ range.positions ∧
      range.positions ⊆ Set.Ico 0 inst.blobSize ∧
      inst.rangeMap.slotsForRange range.offset range.len = .ok (slotStart, slotEnd) ∧
      ∀ s, inst.rangeMap.InSync s → ∃ s' : MapState,
        inst.rangeMap.setRangeReady range.offset range.len none s.file s.slots =
          (.ok (), s'.file, s'.slots) ∧
        (∀ k, s'.slots.getD k 0 ≠ s.slots.getD k 0 →
          inst.rangeMap.slotBytes k ⊆ range.positions) ∧
        (∀ k ∈ Set.Ico slotStart slotEnd, s'.slots.getD k 0 = 1) ∧
        inst.rangeMap.isRangeReady s'.slots offset len = true) ∧
    (∀ k < inst.rangeMap.slotCount, ∃ offset len, inst.rangeMap.slotRange k = .ok (offset, len) ∧
      0 < len ∧ (k = 0 → offset = 0) ∧
      (k + 1 < inst.rangeMap.slotCount →
        ∃ len', inst.rangeMap.slotRange (k + 1) = .ok (offset + len, len')) ∧
      (k + 1 = inst.rangeMap.slotCount → offset + len = inst.blobSize)) ∧
    ⋃ k ∈ Set.Iio inst.rangeMap.slotCount, inst.rangeMap.slotBytes k =
      Set.Ico 0 inst.blobSize ∧
    Pairwise fun k l => Disjoint (inst.rangeMap.slotBytes k) (inst.rangeMap.slotBytes l) := by
  have hpartition := inst.rangeMap.slots_partition
  rw [rangeMap_blobSize] at hpartition
  have hslots : inst.rangeMap.slotsForRange offset len =
      .ok (offset / inst.unitBytes, (offset + len) ⌈/⌉ inst.unitBytes) := by
    rw [RangeMap.slotsForRange_ok hlen (by rwa [rangeMap_blobSize]), rangeMap_unitBytes]
  obtain ⟨-, hend⟩ := amplified_bounds hlen h
  exact ⟨⟨inst.amplified offset len, _, _, amplifyToFetchUnit_ok hlen h, hslots,
    inst.positions_amplified_eq_iUnion hlen h, inst.request_subset_amplified hlen h,
    Set.Ico_subset_Ico (Nat.zero_le _) hend, slotsForRange_amplified hlen h,
    fun s hs => inst.setRangeReady_amplified hlen h hs⟩, hpartition⟩

/-- One byte of the blob of `smallInstance`. -/
theorem fetch_units_are_slots_smallInstance :
    ∃ range, smallInstance.amplifyToFetchUnit 1 1 = .ok range ∧
      Set.Ico 1 (1 + 1) ⊆ range.positions ∧ range.positions ⊆ Set.Ico 0 smallInstance.blobSize := by
  obtain ⟨⟨range, _, _, hok, -, -, hsub, hblob, -⟩, -⟩ :=
    @fetch_units_are_slots smallInstance 1 1 (by decide) (by decide)
  exact ⟨range, hok, hsub, hblob⟩

end Instance

end Lazyd
