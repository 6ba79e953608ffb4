import Lazyd.Instance.Frame
import Lazyd.Instance.Recovery

/-!
# A marked slot is data

A call marks a slot in the bitmap file after it has written the range of the slot to the target. So
the blocks of the range are allocated when the slot becomes nonzero, whatever the remote has
answered, and they stay so: no call takes a block away. It is this order, and not the contents of
the blocks, that keeps a recovery which runs at the same time from clearing the slot.

## Main definitions

* `Instance.SlotAllocated`, `Instance.TaskAllocated`.

## Main results

* `Instance.allocated_step` : a step keeps what is allocated, and marks slots that are.
* `Instance.rangeIsPresent_of_slotAllocated` : recovery finds such a slot.

Source: `src/instance.rs`, lines 250–261; `src/range_map.rs`, lines 134–148 and 193–221.
-/

namespace Lazyd

namespace Instance

variable (inst : Instance)

/-- The range of the slot is data in the target. -/
def SlotAllocated (d : Disk) (k : ℕ) : Prop :=
  (d inst.target).Allocated (k * inst.unitBytes)
    (min (k * inst.unitBytes + inst.unitBytes) inst.blobSize)

/-- What a task has written of the range that it holds. -/
def TaskAllocated (d : Disk) : TaskState → Prop
  | .running _ _ _ (.holding range phase) =>
    match phase with
    | .writing _ written => (d inst.target).Allocated range.offset (range.offset + written)
    | .marking .. | .filling .. =>
      (d inst.target).Allocated range.offset (range.offset + range.len)
    | _ => True
  | _ => True

/-- What is data in the target goes on to be data. -/
def KeepsData (d d' : Disk) : Prop :=
  ∀ lo hi, (d inst.target).Allocated lo hi → (d' inst.target).Allocated lo hi

variable {inst} {d d' : Disk}

theorem keepsData_refl (d : Disk) : inst.KeepsData d d := fun _ _ h => h

theorem SlotAllocated.mono {k : ℕ} (h : inst.SlotAllocated d k) (hd : inst.KeepsData d d') :
    inst.SlotAllocated d' k := hd _ _ h

theorem TaskAllocated.mono {l : TaskState} (h : inst.TaskAllocated d l)
    (hd : inst.KeepsData d d') : inst.TaskAllocated d' l := by
  cases l with
  | idle | returned => trivial
  | running call offset len pc =>
    cases pc with
    | entered | reserving | cloning => trivial
    | holding range phase =>
      cases phase with
      | recheck | reading | releasing => trivial
      | writing | marking | filling => exact hd _ _ h

theorem taskAllocated_finish (call : Call) (offset len : ℕ) (out : Outcome) :
    inst.TaskAllocated d (finish call offset len out) := by
  rcases finish_ne_holding call offset len out with hf | ⟨-, hf⟩ <;>
  · rw [hf]
    trivial

theorem taskAllocated_afterWrite {call : Call} {offset len written : ℕ} {range : Range}
    {bytes : List UInt8} (hreq : inst.Requested offset len range)
    (hbytes : bytes.length = range.len)
    (h : (d inst.target).Allocated range.offset (range.offset + written)) :
    inst.TaskAllocated d (.running call offset len
      (.holding range (inst.afterWrite range bytes written))) := by
  rw [afterWrite]
  split_ifs with hwritten
  · exact h
  · rw [startMark_requested hreq]
    exact h.mono le_rfl (by omega)

theorem keepsData_step (hne : inst.target ≠ inst.rangeMap.file) {s s' : Shared} {l l' : TaskState}
    {e : Event} (hshape : inst.TaskShape l) (h : inst.step s l e = some (s', l')) :
    inst.KeepsData s.disk s'.disk := by
  have hwrites : ∃ off chunk, inst.WritesTarget s.disk s'.disk off chunk ∧
      (TaskAgrees (fun _ => 0) l → SparseFile.Agrees (fun _ => 0) off chunk) :=
    target_step hne hshape h
  obtain ⟨off, chunk, ⟨-, hwrite⟩, -⟩ := hwrites
  intro lo hi hdata
  rw [hwrite]
  exact hdata.writeAt off chunk

theorem taskAllocated_step (hne : inst.target ≠ inst.rangeMap.file) {s s' : Shared}
    {l l' : TaskState} {e : Event} (hshape : inst.TaskShape l) (hl : inst.TaskAllocated s.disk l)
    (h : inst.step s l e = some (s', l')) : inst.TaskAllocated s'.disk l' := by
  have hkeep := keepsData_step hne hshape h
  cases Effect.of_step h with
  | call call =>
    cases call with
    | ensureRange => trivial
    | prepareFetchRange offset len pageSize =>
      rw [enter]
      split <;> trivial
  | check call offset len =>
    rcases firstCheck_cases s.slots call offset len with ⟨err, hf⟩ | ⟨-, hf⟩ | ⟨-, -, hf⟩
    · rw [hf]
      exact taskAllocated_finish _ _ _ _
    · rw [hf]
      exact taskAllocated_finish _ _ _ _
    · rw [hf]
      trivial
  | recheck => split_ifs <;> trivial
  | reply call offset len range res =>
    cases res with
    | error err => trivial
    | ok bytes =>
      rw [received]
      split_ifs with hbytes
      · trivial
      · exact taskAllocated_afterWrite hshape.2.1 (not_not.mp hbytes)
          (SparseFile.allocated_of_le _ le_rfl)
  | wrote call offset len range bytes written n hn hle =>
    refine taskAllocated_afterWrite hshape.2.1 hshape.2.2.1 ((hkeep _ _ hl).append ?_)
    have hnew := SparseFile.allocated_writeAt (s.disk inst.target) (range.offset + written)
      ((bytes.drop written).take n)
    rw [List.length_take, List.length_drop, min_eq_left hle, Nat.add_assoc] at hnew
    rw [writeTarget_disk, Disk.write_self]
    exact hnew
  | markRetry => exact hl
  | marked call offset len range slotStart slotEnd done n hn hle =>
    rw [afterMark]
    split_ifs <;> exact hkeep _ _ hl
  | release => exact taskAllocated_finish _ _ _ _
  | _ => trivial

/-- **Data before bit.** A slot of the bitmap file that a step marks is data. -/
theorem allocated_step (hne : inst.target ≠ inst.rangeMap.file) {s s' : Shared} {l l' : TaskState}
    {e : Event} (hshape : inst.TaskShape l) (hl : inst.TaskAllocated s.disk l)
    (h : inst.step s l e = some (s', l')) {k : ℕ}
    (hk : (s'.disk inst.rangeMap.file).byte (headerSize + k) ≠ 0) :
    (s.disk inst.rangeMap.file).byte (headerSize + k) ≠ 0 ∨ inst.SlotAllocated s.disk k := by
  cases Effect.of_step h with
  | wrote =>
    rw [writeTarget_disk, Disk.write_of_ne _ _ _ hne.symm] at hk
    exact Or.inl hk
  | marked call offset len range slotStart slotEnd done n hn hle =>
    by_cases hin : slotStart + done ≤ k ∧ k < slotStart + done + n
    · obtain ⟨hlow, hhigh⟩ :=
        slot_le_requested (k := k) hshape.2.1 hshape.2.2.1 (by omega) (by omega)
      exact Or.inr (SparseFile.Allocated.mono hl hlow hhigh)
    · rw [writeMarks_disk, Disk.write_self, SparseFile.writeAt_byte_of_notMem] at hk
      · exact Or.inl hk
      · rw [List.length_replicate]
        omega
  | _ => exact Or.inl hk

/-- A range that recovery finds present is data. -/
theorem slotAllocated_of_present {slot offset len : ℕ} {dataFault holeFault : Option IoError}
    (hrange : inst.rangeMap.slotRange slot = .ok (offset, len))
    (h : rangeIsPresent (d inst.target) offset len dataFault holeFault = .ok true) :
    inst.SlotAllocated d slot := by
  obtain ⟨-, hoffset, hend⟩ := slotRange_bounds hrange
  intro p h₁ h₂
  rw [← hend] at h₂
  rw [← hoffset] at h₁
  exact (rangeIsPresent_ok_true h p h₁ h₂).2

/-- Recovery finds a slot that is data, in a file that is long enough. -/
theorem rangeIsPresent_of_slotAllocated {slot offset len : ℕ}
    (hrange : inst.rangeMap.slotRange slot = .ok (offset, len))
    (hsize : inst.blobSize ≤ (d inst.target).len) (hlen : (d inst.target).len < 2 ^ 63)
    (h : inst.SlotAllocated d slot) :
    rangeIsPresent (d inst.target) offset len none none = .ok true := by
  obtain ⟨-, hoffset, hend⟩ := slotRange_bounds hrange
  refine rangeIsPresent_of_allocated ?_ hlen ?_
  · rw [hend]
    exact (min_le_right _ _).trans hsize
  · rw [hend, hoffset]
    exact h

end Instance

end Lazyd
