import Lazyd.Instance.Shape

/-!
# A ready slot holds the bytes of the blob

Under an honest remote, every slot that is nonzero in memory or in the bitmap file has its whole
range in the target file equal to the blob, in every state that any number of interleaved calls can
reach, whatever fails on the way. The argument rests on two facts. Every write to the target writes
bytes of the blob at their own position, so no step undoes a range that already holds. And a slot is
marked by a task that has written the whole amplified range before, which contains the slot.

## Main definitions

* `Instance.SlotHolds`, `Instance.MemorySound`, `Instance.SlotsSound` : the invariants of the shared
  state.
* `Instance.TaskSound` : what a task knows about the target.
* `Instance.EnsureReturnedOk` : `ensure_range` has returned `Ok` to a task.

## Main results

* `Instance.memory_step`, `Instance.sound_step` : a step keeps the invariants and what its task
  knows, and no step undoes a range of the target that holds.
* `Instance.ensureRange_sound` : soundness of every run of interleaved calls.

Source: `src/instance.rs`, lines 229–261; `docs/external-range-api.md`, lines 54–60.
-/

namespace Lazyd

namespace Instance

open UnitPartition

variable (inst : Instance) (blob : ℕ → UInt8)

/-- The whole range of a slot is in the target. -/
def SlotHolds (d : Disk) (slot : ℕ) : Prop :=
  ∀ offset len, inst.rangeMap.slotRange slot = .ok (offset, len) →
    (d inst.target).Holds blob offset (offset + len)

/-- Every slot that is nonzero in memory has its whole range in the target. -/
structure MemorySound (s : Shared) : Prop where
  length_slots : s.slots.length = inst.rangeMap.slotCount
  memory : ∀ k, s.slots.getD k 0 ≠ 0 → inst.SlotHolds blob s.disk k

/-- Every slot that is nonzero in memory or in the bitmap file has its whole range in the target. -/
structure SlotsSound (s : Shared) : Prop where
  length_slots : s.slots.length = inst.rangeMap.slotCount
  memory : ∀ k, s.slots.getD k 0 ≠ 0 → inst.SlotHolds blob s.disk k
  file : ∀ k, (s.disk inst.rangeMap.file).byte (headerSize + k) ≠ 0 → inst.SlotHolds blob s.disk k

/-- What a task holding a reservation knows about the target. -/
def PhaseSound (d : Disk) (offset len : ℕ) (range : Range) : Phase → Prop
  | .recheck | .reading => True
  | .writing bytes written => SparseFile.Agrees blob range.offset bytes ∧
      (d inst.target).Holds blob range.offset (range.offset + written)
  | .marking .. | .filling .. =>
    (d inst.target).Holds blob range.offset (range.offset + range.len)
  | .releasing out => out = .ok → (d inst.target).Holds blob offset (offset + len)

/-- What a task knows about the target. -/
def TaskSound (d : Disk) : TaskState → Prop
  | .idle => True
  | .running _ offset len pc =>
    match pc with
    | .entered | .reserving _ => True
    | .holding range phase => inst.PhaseSound blob d offset len range phase
    | .cloning => (d inst.target).Holds blob offset (offset + len)
  | .returned call out => out = .ok → (d inst.target).Holds blob call.offset (call.endPos inst)

/-- Whatever holds in the target goes on to hold. -/
def KeepsTarget (d d' : Disk) : Prop :=
  ∀ lo hi, (d inst.target).Holds blob lo hi → (d' inst.target).Holds blob lo hi

/-- `ensure_range offset len` has returned `Ok`, to a caller of its own or to a fetch. -/
def EnsureReturnedOk (offset len : ℕ) : TaskState → Prop
  | .returned (.ensureRange offset' len') .ok => offset' = offset ∧ len' = len
  | .running _ offset' len' .cloning => offset' = offset ∧ len' = len
  | _ => False

variable {inst blob}

/-! ### Slots and the ranges that they stand for -/

theorem slotHolds_iff {d : Disk} {k : ℕ} (hk : k < inst.rangeMap.slotCount) :
    inst.SlotHolds blob d k ↔ (d inst.target).Holds blob (k * inst.unitBytes)
      (min (k * inst.unitBytes + inst.unitBytes) inst.blobSize) := by
  have hlt := RangeMap.slot_mul_lt hk
  rw [rangeMap_unitBytes, rangeMap_blobSize] at hlt
  have hpos := inst.unitBytes_pos
  have hrange := RangeMap.slotRange_ok hk
  rw [rangeMap_unitBytes, rangeMap_blobSize] at hrange
  constructor
  · intro h
    have hholds := h _ _ hrange
    rwa [Nat.add_sub_cancel' (by omega)] at hholds
  · intro h offset len hok
    obtain ⟨rfl, rfl⟩ := Prod.mk.inj (Except.ok.inj (hrange.symm.trans hok))
    rwa [Nat.add_sub_cancel' (by omega)]

/-- A slot that has a range, and the range by its bounds. -/
theorem slotRange_bounds {slot offset len : ℕ}
    (h : inst.rangeMap.slotRange slot = .ok (offset, len)) :
    slot < inst.rangeMap.slotCount ∧ offset = slot * inst.unitBytes ∧
      offset + len = min (slot * inst.unitBytes + inst.unitBytes) inst.blobSize := by
  have hslot : slot < inst.rangeMap.slotCount := by
    by_contra hle
    rw [RangeMap.slotRange, if_pos (not_lt.mp hle)] at h
    exact absurd h (by simp)
  have hlt := RangeMap.slot_mul_lt hslot
  rw [RangeMap.slotRange_ok hslot, rangeMap_unitBytes, rangeMap_blobSize] at h
  rw [rangeMap_unitBytes, rangeMap_blobSize] at hlt
  obtain ⟨rfl, rfl⟩ := Prod.mk.inj (Except.ok.inj h)
  exact ⟨hslot, rfl, by omega⟩

theorem slotHolds_of_le {d : Disk} {k : ℕ} (hk : inst.rangeMap.slotCount ≤ k) :
    inst.SlotHolds blob d k := by
  intro offset len h
  rw [RangeMap.slotRange, if_pos hk] at h
  exact absurd h (by simp)

/-- The amplified range contains the range of every slot of the request. -/
theorem slot_le_requested {offset len slotStart slotEnd k : ℕ} {range : Range}
    (hreq : inst.Requested offset len range)
    (hslots : inst.SlotBounds offset len slotStart slotEnd) (hs : slotStart ≤ k)
    (he : k < slotEnd) :
    range.offset ≤ k * inst.unitBytes ∧
      min (k * inst.unitBytes + inst.unitBytes) inst.blobSize ≤ range.offset + range.len := by
  obtain ⟨hlen, hle, rfl⟩ := hreq
  obtain ⟨rfl, rfl⟩ := hslots
  rw [amplified_end hlen hle]
  refine ⟨Nat.mul_le_mul_right _ hs, min_le_min ?_ le_rfl⟩
  calc k * inst.unitBytes + inst.unitBytes = (k + 1) * inst.unitBytes := by
        rw [Nat.add_mul, Nat.one_mul]
    _ ≤ (offset + len) ⌈/⌉ inst.unitBytes * inst.unitBytes := Nat.mul_le_mul_right _ he

theorem slotHolds_of_requested {d : Disk} {offset len slotStart slotEnd k : ℕ} {range : Range}
    (hreq : inst.Requested offset len range)
    (hslots : inst.SlotBounds offset len slotStart slotEnd)
    (hholds : (d inst.target).Holds blob range.offset (range.offset + range.len))
    (hs : slotStart ≤ k) (he : k < slotEnd) : inst.SlotHolds blob d k := by
  rcases lt_or_ge k inst.rangeMap.slotCount with hk | hk
  · obtain ⟨hlow, hhigh⟩ := slot_le_requested hreq hslots hs he
    rw [slotHolds_iff hk]
    exact hholds.mono hlow hhigh
  · exact slotHolds_of_le hk

/-- A range all of whose slots are ready is in the target. -/
theorem holds_of_ready {s : Shared} (hs : inst.MemorySound blob s) {offset len : ℕ}
    (h : len = 0 ∨ offset + len ≤ inst.blobSize ∧
      inst.rangeMap.isRangeReady s.slots offset len = true) :
    (s.disk inst.target).Holds blob offset (offset + len) := by
  rcases h with rfl | ⟨hle, hready⟩
  · exact SparseFile.holds_of_le _ _ le_rfl
  · rw [RangeMap.isRangeReady_iff hs.length_slots, rangeMap_unitBytes, rangeMap_blobSize] at hready
    rcases hready with rfl | ⟨-, hslots⟩
    · exact SparseFile.holds_of_le _ _ le_rfl
    · intro p h₁ h₂
      have htouch : Touches inst.unitBytes offset (offset + len) (p / inst.unitBytes) :=
        touches_of_mem inst.unitBytes_pos ⟨h₁, h₂⟩
      have hslot : p / inst.unitBytes < inst.rangeMap.slotCount :=
        touches_lt_slotCount hle htouch
      have hcell := (slotHolds_iff hslot).mp (hs.memory _ (hslots _ htouch))
      have hp : p ∈ cell inst.unitBytes inst.blobSize (p / inst.unitBytes) :=
        (mem_cell_iff inst.unitBytes_pos).mpr ⟨rfl, by omega⟩
      exact hcell p hp.1 hp.2

/-- The request is part of the amplified range. -/
theorem holds_request {f : File} {offset len : ℕ} {range : Range}
    (hreq : inst.Requested offset len range)
    (h : f.Holds blob range.offset (range.offset + range.len)) :
    f.Holds blob offset (offset + len) := by
  obtain ⟨hlen, hle, rfl⟩ := hreq
  rw [amplified_end hlen hle] at h
  exact h.mono (Nat.div_mul_le_self _ _) (le_min (le_ceilDiv_mul inst.unitBytes_pos _) hle)

/-! ### What keeps the invariant -/

theorem SlotHolds.mono {d d' : Disk} {k : ℕ} (h : inst.SlotHolds blob d k)
    (hd : inst.KeepsTarget blob d d') : inst.SlotHolds blob d' k :=
  fun offset len hrange => hd _ _ (h offset len hrange)

theorem keepsTarget_refl (d : Disk) : inst.KeepsTarget blob d d := fun _ _ h => h

theorem KeepsTarget.trans {d₁ d₂ d₃ : Disk} (h : inst.KeepsTarget blob d₁ d₂)
    (h' : inst.KeepsTarget blob d₂ d₃) : inst.KeepsTarget blob d₁ d₃ :=
  fun lo hi hh => h' lo hi (h lo hi hh)

theorem keepsTarget_write {d : Disk} {off : ℕ} {bs : List UInt8}
    (h : SparseFile.Agrees blob off bs) : inst.KeepsTarget blob d (d.write inst.target off bs) := by
  intro lo hi hh
  rw [Disk.write_self]
  exact hh.writeAt h

theorem keepsTarget_write_of_ne {d : Disk} {key : FileKey} (hne : inst.target ≠ key) (off : ℕ)
    (bs : List UInt8) : inst.KeepsTarget blob d (d.write key off bs) := by
  intro lo hi hh
  rwa [Disk.write_of_ne d off bs hne]

theorem TaskSound.mono {d d' : Disk} {l : TaskState} (hd : inst.KeepsTarget blob d d')
    (h : inst.TaskSound blob d l) : inst.TaskSound blob d' l := by
  cases l with
  | idle => trivial
  | running call offset len pc =>
    cases pc with
    | entered | reserving => trivial
    | cloning => exact hd _ _ h
    | holding range phase =>
      cases phase with
      | recheck | reading => trivial
      | writing => exact ⟨h.1, hd _ _ h.2⟩
      | marking | filling => exact hd _ _ h
      | releasing => exact fun hout => hd _ _ (h hout)
  | returned => exact fun hout => hd _ _ (h hout)

theorem taskSound_finish {d : Disk} {call : Call} {offset len : ℕ} {out : Outcome}
    (hargs : inst.CallArgs call offset len)
    (h : out = .ok → (d inst.target).Holds blob offset (offset + len)) :
    inst.TaskSound blob d (finish call offset len out) := by
  rcases finish_ne_holding call offset len out with hf | ⟨rfl, hf⟩
  · rw [hf]
    intro hout
    rw [← hargs.1, ← hargs.2]
    exact h hout
  · rw [hf]
    exact h rfl

theorem phaseSound_afterWrite {d : Disk} {offset len written : ℕ} {range : Range}
    {bytes : List UInt8} (hreq : inst.Requested offset len range)
    (hbytes : bytes.length = range.len) (hagree : SparseFile.Agrees blob range.offset bytes)
    (h : (d inst.target).Holds blob range.offset (range.offset + written)) :
    inst.PhaseSound blob d offset len range (inst.afterWrite range bytes written) := by
  rw [afterWrite]
  split_ifs with hwritten
  · exact ⟨hagree, h⟩
  · rw [startMark_requested hreq]
    exact h.mono le_rfl (by omega)

theorem SlotsSound.memorySound {s : Shared} (h : inst.SlotsSound blob s) :
    inst.MemorySound blob s := ⟨h.length_slots, h.memory⟩

/-- Only the slots in memory and what holds in the target matter to the invariant. -/
theorem MemorySound.mono {s s' : Shared} (h : inst.MemorySound blob s)
    (hd : inst.KeepsTarget blob s.disk s'.disk) (hslots : s'.slots = s.slots) :
    inst.MemorySound blob s' := by
  refine ⟨?_, fun k hk => ?_⟩
  · rw [hslots]
    exact h.length_slots
  · rw [hslots] at hk
    exact (h.memory k hk).mono hd

/-- Filling slots that hold keeps the invariant. -/
theorem MemorySound.fill {s : Shared} (h : inst.MemorySound blob s) {slotStart slotEnd : ℕ}
    (hholds : ∀ k, slotStart ≤ k → k < slotEnd → inst.SlotHolds blob s.disk k) (value : UInt8) :
    inst.MemorySound blob { s with slots := fillSlots s.slots slotStart slotEnd value } := by
  refine ⟨(length_fillSlots ..).trans h.length_slots, fun k hk => ?_⟩
  by_cases hin : slotStart ≤ k ∧ k < slotEnd
  · exact hholds k hin.1 hin.2
  · rw [getD_fillSlots_of_notMem _ _ hin] at hk
    exact h.memory k hk

/-! ### Steps and runs -/

/-- **The step lemma.** A step under an honest remote keeps the invariant of the slots in memory and
what its own task knows, and undoes no range of the target that holds. -/
theorem memory_step (hne : inst.target ≠ inst.rangeMap.file) {s s' : Shared} {l l' : TaskState}
    {e : Event} (hs : inst.MemorySound blob s) (hshape : inst.TaskShape l)
    (hl : inst.TaskSound blob s.disk l) (hok : Honest blob l e)
    (h : inst.step s l e = some (s', l')) :
    inst.MemorySound blob s' ∧ inst.TaskSound blob s'.disk l' ∧
      inst.KeepsTarget blob s.disk s'.disk := by
  cases Effect.of_step h with
  | call call =>
    refine ⟨hs, ?_, keepsTarget_refl _⟩
    cases call with
    | ensureRange => trivial
    | prepareFetchRange offset len pageSize =>
      rw [enter]
      split
      · exact fun hout => absurd hout (by simp)
      · trivial
  | check call offset len =>
    refine ⟨hs, ?_, keepsTarget_refl _⟩
    rcases firstCheck_cases s.slots call offset len with ⟨err, hf⟩ | ⟨hready, hf⟩ | ⟨-, -, hf⟩
    · rw [hf]
      exact taskSound_finish hshape.1 fun hout => absurd hout (by simp)
    · rw [hf]
      exact taskSound_finish hshape.1 fun _ => holds_of_ready hs hready
    · rw [hf]
      trivial
  | refused => exact ⟨hs, trivial, keepsTarget_refl _⟩
  | reserved => exact ⟨hs.mono (keepsTarget_refl _) rfl, trivial, keepsTarget_refl _⟩
  | cancelWaiting => exact ⟨hs, fun hout => absurd hout (by simp), keepsTarget_refl _⟩
  | recheck call offset len range =>
    refine ⟨hs, ?_, keepsTarget_refl _⟩
    split_ifs with hready
    · exact fun _ => holds_of_ready hs (Or.inr ⟨hshape.2.1.le_blobSize, hready⟩)
    · trivial
  | reply call offset len range res =>
    refine ⟨hs, ?_, keepsTarget_refl _⟩
    cases res with
    | error err => exact fun hout => absurd hout (by simp)
    | ok bytes =>
      change inst.PhaseSound blob s.disk offset len range (inst.received range (.ok bytes))
      rw [received]
      split_ifs with hbytes
      · exact fun hout => absurd hout (by simp)
      · rw [not_not] at hbytes
        exact phaseSound_afterWrite hshape.2.1 hbytes (hok hbytes)
          (SparseFile.holds_of_le _ _ le_rfl)
  | cancelReading => exact ⟨hs, fun hout => absurd hout (by simp), keepsTarget_refl _⟩
  | writeFailed => exact ⟨hs, fun hout => absurd hout (by simp), keepsTarget_refl _⟩
  | wrote call offset len range bytes written n hn hle =>
    obtain ⟨hagree, hheld⟩ := hl
    have hchunk : SparseFile.Agrees blob (range.offset + written) ((bytes.drop written).take n) :=
      (hagree.drop written).take n
    have hlength : ((bytes.drop written).take n).length = n := by
      rw [List.length_take, List.length_drop]
      exact min_eq_left hle
    have hkeep : inst.KeepsTarget blob s.disk (inst.writeTarget s range bytes written n).disk :=
      keepsTarget_write hchunk
    refine ⟨hs.mono hkeep rfl, ?_, hkeep⟩
    refine phaseSound_afterWrite hshape.2.1 hshape.2.2.1 hagree ?_
    rw [writeTarget_disk, Disk.write_self]
    refine (hheld.writeAt hchunk).append ?_
    have hnew := SparseFile.holds_writeAt (f := s.disk inst.target) hchunk
    rwa [hlength, Nat.add_assoc] at hnew
  | markRetry => exact ⟨hs, hl, keepsTarget_refl _⟩
  | markFailed => exact ⟨hs, fun hout => absurd hout (by simp), keepsTarget_refl _⟩
  | marked call offset len range slotStart slotEnd done n hn hle =>
    have hkeep : inst.KeepsTarget blob s.disk (inst.writeMarks s 1 slotStart done n).disk :=
      keepsTarget_write_of_ne hne _ _
    refine ⟨hs.mono hkeep rfl, ?_, hkeep⟩
    change inst.PhaseSound blob _ offset len range (afterMark slotStart slotEnd (done + n))
    rw [afterMark]
    split_ifs <;> exact hkeep _ _ hl
  | fill call offset len range slotStart slotEnd =>
    refine ⟨hs.fill (fun k => slotHolds_of_requested hshape.2.1 hshape.2.2 hl) 1, ?_,
      keepsTarget_refl _⟩
    exact fun _ => holds_request hshape.2.1 hl
  | release call offset len range out =>
    exact ⟨hs.mono (keepsTarget_refl _) rfl, taskSound_finish hshape.1 hl, keepsTarget_refl _⟩
  | clone call offset len res out hcancel hres =>
    refine ⟨hs, fun _ => ?_, keepsTarget_refl _⟩
    rw [← hshape.1.1, ← hshape.1.2]
    exact hl

/-- A slot of the bitmap file that a step marks holds. -/
theorem marked_step (hne : inst.target ≠ inst.rangeMap.file) {s s' : Shared} {l l' : TaskState}
    {e : Event} (hshape : inst.TaskShape l) (hl : inst.TaskSound blob s.disk l)
    (h : inst.step s l e = some (s', l')) {k : ℕ}
    (hk : (s'.disk inst.rangeMap.file).byte (headerSize + k) ≠ 0) :
    (s.disk inst.rangeMap.file).byte (headerSize + k) ≠ 0 ∨ inst.SlotHolds blob s.disk k := by
  cases Effect.of_step h with
  | wrote =>
    rw [writeTarget_disk, Disk.write_of_ne _ _ _ hne.symm] at hk
    exact Or.inl hk
  | marked call offset len range slotStart slotEnd done n hn hle =>
    by_cases hin : slotStart + done ≤ k ∧ k < slotStart + done + n
    · exact Or.inr (slotHolds_of_requested hshape.2.1 hshape.2.2.1 hl (by omega) (by omega))
    · rw [writeMarks_disk, Disk.write_self, SparseFile.writeAt_byte_of_notMem] at hk
      · exact Or.inl hk
      · rw [List.length_replicate]
        omega
  | _ => exact Or.inl hk

/-- A step under an honest remote keeps the invariant of the shared state, also in the bitmap
file. -/
theorem sound_step (hne : inst.target ≠ inst.rangeMap.file) {s s' : Shared} {l l' : TaskState}
    {e : Event} (hs : inst.SlotsSound blob s) (hshape : inst.TaskShape l)
    (hl : inst.TaskSound blob s.disk l) (hok : Honest blob l e)
    (h : inst.step s l e = some (s', l')) :
    inst.SlotsSound blob s' ∧ inst.TaskSound blob s'.disk l' ∧
      inst.KeepsTarget blob s.disk s'.disk := by
  obtain ⟨hs', hl', hkeep⟩ := memory_step hne hs.memorySound hshape hl hok h
  refine ⟨⟨hs'.length_slots, hs'.memory, fun k hk => ?_⟩, hl', hkeep⟩
  rcases marked_step hne hshape hl h hk with hold | hholds
  · exact (hs.file k hold).mono hkeep
  · exact hholds.mono hkeep

/-- In every run under an honest remote the slots in memory are sound, and so is what every task
knows. -/
theorem memory_run {τ : Type*} [DecidableEq τ] (hne : inst.target ≠ inst.rangeMap.file)
    {c₀ c : TaskSystem.Config Shared TaskState τ} {ls : List (τ × Event)}
    (hidle : ∀ t, c₀.task t = .idle) (hs : inst.MemorySound blob c₀.shared)
    (h : inst.tasks.Run (Honest blob) c₀ ls c) :
    inst.MemorySound blob c.shared ∧
      ∀ t, inst.TaskShape (c.task t) ∧ inst.TaskSound blob c.shared.disk (c.task t) := by
  refine h.rely (I := inst.MemorySound blob)
    (L := fun s l => inst.TaskShape l ∧ inst.TaskSound blob s.disk l)
    (R := fun s s' => inst.KeepsTarget blob s.disk s'.disk) hs (fun t => ?_) ?_ ?_
  · rw [hidle t]
    exact ⟨trivial, trivial⟩
  · intro s l e s' l' hs hl hok hstep
    obtain ⟨hs', hl', hkeep⟩ := memory_step hne hs hl.1 hl.2 hok hstep
    exact ⟨hs', ⟨taskShape_step hl.1 hstep, hl'⟩, hkeep⟩
  · intro s s' l hkeep hl
    exact ⟨hl.1, hl.2.mono hkeep⟩

/-- In every run under an honest remote the invariant holds, and with it what every task knows; and
what held in the target when the run began holds at its end. -/
theorem sound_run {τ : Type*} [DecidableEq τ] (hne : inst.target ≠ inst.rangeMap.file)
    {c₀ c : TaskSystem.Config Shared TaskState τ} {ls : List (τ × Event)}
    (hs : inst.SlotsSound blob c₀.shared)
    (hl : ∀ t, inst.TaskShape (c₀.task t) ∧ inst.TaskSound blob c₀.shared.disk (c₀.task t))
    (h : inst.tasks.Run (Honest blob) c₀ ls c) :
    (inst.SlotsSound blob c.shared ∧
      ∀ t, inst.TaskShape (c.task t) ∧ inst.TaskSound blob c.shared.disk (c.task t)) ∧
    inst.KeepsTarget blob c₀.shared.disk c.shared.disk := by
  refine h.rely_trans (I := inst.SlotsSound blob)
    (L := fun s l => inst.TaskShape l ∧ inst.TaskSound blob s.disk l)
    (R := fun s s' => inst.KeepsTarget blob s.disk s'.disk) (fun _ => keepsTarget_refl _)
    (fun _ _ _ => KeepsTarget.trans) hs hl ?_ ?_
  · intro s l e s' l' hs hl hok hstep
    obtain ⟨hs', hl', hkeep⟩ := sound_step hne hs hl.1 hl.2 hok hstep
    exact ⟨hs', ⟨taskShape_step hl.1 hstep, hl'⟩, hkeep⟩
  · intro s s' l hkeep hl
    exact ⟨hl.1, hl.2.mono hkeep⟩

theorem TaskSound.ensureReturnedOk {d : Disk} {l : TaskState} {offset len : ℕ}
    (hl : inst.TaskSound blob d l) (h : EnsureReturnedOk offset len l) :
    (d inst.target).Holds blob offset (offset + len) := by
  unfold EnsureReturnedOk at h
  split at h
  · obtain ⟨rfl, rfl⟩ := h
    exact hl rfl
  · obtain ⟨rfl, rfl⟩ := h
    exact hl
  · exact h.elim

/-- **Soundness of concurrent fetching.** Let an instance be opened on a target and a bitmap file
such that every slot that is nonzero in memory or in the bitmap file has its whole range in the
target. Under an honest remote, every state reached by any number of interleaved calls, with any
failures and cancellations, is again such a state; and once `ensure_range` has returned `Ok`, the
target holds the requested bytes then and in every later state. -/
theorem ensureRange_sound {τ : Type*} [DecidableEq τ] (hne : inst.target ≠ inst.rangeMap.file)
    {c₀ c : TaskSystem.Config Shared TaskState τ} {ls : List (τ × Event)}
    (hidle : ∀ t, c₀.task t = .idle) (hs : inst.SlotsSound blob c₀.shared)
    (hrun : inst.tasks.Run (Honest blob) c₀ ls c) :
    inst.SlotsSound blob c.shared ∧
      ∀ t offset len, EnsureReturnedOk offset len (c.task t) →
        ∀ ls' c', inst.tasks.Run (Honest blob) c ls' c' →
          (c'.shared.disk inst.target).Holds blob offset (offset + len) := by
  have hl₀ (t : τ) : inst.TaskShape (c₀.task t) ∧
      inst.TaskSound blob c₀.shared.disk (c₀.task t) := by
    rw [hidle t]
    exact ⟨trivial, trivial⟩
  obtain ⟨⟨hsound, htasks⟩, -⟩ := sound_run hne hs hl₀ hrun
  refine ⟨hsound, fun t offset len hret ls' c' hrun' => ?_⟩
  -- what holds in the target when the call returns is undone by no later step
  have hkeep := (sound_run hne hsound htasks hrun').2
  exact hkeep _ _ ((htasks t).2.ensureReturnedOk hret)

/-- A fetch of one byte of `smallInstance`, with a short write. -/
theorem ensureRange_sound_smallInstance :
    ∃ ls c, smallInstance.tasks.Run (Honest fun _ => 7) smallStart ls c ∧
      EnsureReturnedOk 1 1 (c.task 0) ∧
      (c.shared.disk smallInstance.target).Holds (fun _ => 7) 1 2 := by
  have hsound : smallInstance.SlotsSound (fun _ => 7) smallStart.shared := by
    refine ⟨rfl, fun k hk => absurd ?_ hk, fun k hk => absurd rfl hk⟩
    cases k <;> rfl
  obtain ⟨s, hs⟩ : ∃ s, smallInstance.tasks.solo smallStart.shared (smallStart.task 0)
      [.call (.ensureRange 1 1), .check, .reserve, .recheck, .reply (.ok [7, 7, 7]),
        .wrote (.ok 2), .wrote (.ok 1), .marked (.ok 1), .fill, .release] =
      some (s, .returned (.ensureRange 1 1) .ok) := ⟨_, rfl⟩
  have hrun := TaskSystem.Run.of_solo (soloOk_honest (b := 7) (by simp) _ _) hs
  have hret : EnsureReturnedOk 1 1 (Function.update smallStart.task 0
      (.returned (.ensureRange 1 1) .ok) 0) := ⟨rfl, rfl⟩
  exact ⟨_, _, hrun, hret,
    (ensureRange_sound (by decide) (fun _ => rfl) hsound hrun).2 0 1 1 hret [] _ .nil⟩

end Instance

end Lazyd
