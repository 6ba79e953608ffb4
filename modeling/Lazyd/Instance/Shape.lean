import Lazyd.Instance.EnsureRange

/-!
# What the local state of a task says by itself

The arguments and the range that a task carries along are determined by its call: a task that waits
for a reservation or holds one was called with a nonempty range inside the blob, its range is the
amplified request, and the slots that it marks are the slots of its request. These facts do not
depend on the shared state, so no other task can break them.

## Main definitions

* `Instance.TaskShape` and its parts `Instance.CallArgs`, `Instance.Requested`,
  `Instance.PhaseShape`.

## Main results

* `Instance.firstCheck_inside`, `Instance.firstCheck_outside` : what `ensure_range` does up to the
  reservation.
* `Instance.taskShape_step` : a step keeps the shape of its task.

Source: `src/instance.rs`, lines 229–305 and 337–351.
-/

namespace Lazyd

namespace Instance

open UnitPartition

variable (inst : Instance)

/-- The positions that a call asks for: the end of a fetch is cut off at the end of the blob. -/
def Call.endPos : Call → ℕ
  | .ensureRange offset len => offset + len
  | .prepareFetchRange offset len _ => min inst.blobSize (offset + len)

def Call.offset : Call → ℕ
  | .ensureRange offset _ => offset
  | .prepareFetchRange offset _ _ => offset

/-- The arguments of `ensure_range` are those of the call. -/
def CallArgs (call : Call) (offset len : ℕ) : Prop :=
  offset = call.offset ∧ offset + len = call.endPos inst

/-- The request is nonempty and inside the blob, and the range is its amplification. -/
structure Requested (offset len : ℕ) (range : Range) : Prop where
  len_pos : 0 < len
  le_blobSize : offset + len ≤ inst.blobSize
  range_eq : range = inst.amplified offset len

/-- The first slot of a request and the slot behind its last one. -/
def SlotBounds (offset len slotStart slotEnd : ℕ) : Prop :=
  slotStart = offset / inst.unitBytes ∧ slotEnd = (offset + len) ⌈/⌉ inst.unitBytes

/-- What a task holding a reservation carries along. -/
def PhaseShape (offset len : ℕ) (range : Range) : Phase → Prop
  | .writing bytes written => bytes.length = range.len ∧ written < bytes.length
  | .marking slotStart slotEnd done =>
    inst.SlotBounds offset len slotStart slotEnd ∧ done < slotEnd - slotStart
  | .filling slotStart slotEnd => inst.SlotBounds offset len slotStart slotEnd
  | .recheck | .reading | .releasing _ => True

/-- What the local state of a task says by itself. -/
def TaskShape : TaskState → Prop
  | .idle | .returned _ _ => True
  | .running call offset len pc => inst.CallArgs call offset len ∧
    match pc with
    | .entered | .cloning => True
    | .reserving range => inst.Requested offset len range
    | .holding range phase =>
      inst.Requested offset len range ∧ inst.PhaseShape offset len range phase

variable {inst}

/-! ### The pieces of `ensure_range` -/

/-- Inside the blob, `ensure_range` answers at once or goes on to reserve the amplified range. -/
theorem firstCheck_inside (slots : List UInt8) (call : Call) {offset len : ℕ} (hlen : 0 < len)
    (h : offset + len ≤ inst.blobSize) :
    inst.firstCheck slots call offset len =
      if inst.rangeMap.isRangeReady slots offset len then finish call offset len .ok
      else .running call offset len (.reserving (inst.amplified offset len)) := by
  have hlt : offset + len < U64.size := lt_of_le_of_lt h inst.blobSize_lt
  simp only [firstCheck, hlen.ne', ↓reduceIte, U64.checkedAdd_of_lt hlt, not_lt.mpr h,
    inst.trusted_eq, Bool.true_eq_false, amplifyToFetchUnit_ok hlen h]

/-- A nonempty request that is not inside the blob is an error. -/
theorem firstCheck_outside (slots : List UInt8) (call : Call) {offset len : ℕ} (hlen : 0 < len)
    (h : inst.blobSize < offset + len) :
    ∃ err, inst.firstCheck slots call offset len = finish call offset len (.err err) := by
  by_cases hlt : offset + len < U64.size
  · exact ⟨.badRequest "range exceeds blob size",
      by simp only [firstCheck, hlen.ne', ↓reduceIte, U64.checkedAdd_of_lt hlt, h]⟩
  · exact ⟨.badRequest "range overflows u64",
      by simp only [firstCheck, hlen.ne', ↓reduceIte, U64.checkedAdd, hlt]⟩

/-- The three ways in which the first check ends. -/
theorem firstCheck_cases (slots : List UInt8) (call : Call) (offset len : ℕ) :
    (∃ err, inst.firstCheck slots call offset len = finish call offset len (.err err)) ∨
    ((len = 0 ∨ offset + len ≤ inst.blobSize ∧
        inst.rangeMap.isRangeReady slots offset len = true) ∧
      inst.firstCheck slots call offset len = finish call offset len .ok) ∨
    (inst.Requested offset len (inst.amplified offset len) ∧
      inst.rangeMap.isRangeReady slots offset len = false ∧
      inst.firstCheck slots call offset len =
        .running call offset len (.reserving (inst.amplified offset len))) := by
  rcases Nat.eq_zero_or_pos len with rfl | hlen
  · exact Or.inr (Or.inl ⟨Or.inl rfl, rfl⟩)
  · rcases le_or_gt (offset + len) inst.blobSize with hle | hgt
    · rw [firstCheck_inside slots call hlen hle]
      split_ifs with hready
      · exact Or.inr (Or.inl ⟨Or.inr ⟨hle, hready⟩, rfl⟩)
      · exact Or.inr (Or.inr ⟨⟨hlen, hle, rfl⟩, Bool.eq_false_iff.mpr hready, rfl⟩)
    · exact Or.inl (firstCheck_outside slots call hlen hgt)

theorem slotBounds_lt {offset len slotStart slotEnd : ℕ} (hlen : 0 < len)
    (h : inst.SlotBounds offset len slotStart slotEnd) : slotStart < slotEnd := by
  obtain ⟨rfl, rfl⟩ := h
  exact (touches_left inst.unitBytes_pos (by omega)).2

/-- `set_range_ready` on the amplified range marks the slots of the request. -/
theorem startMark_requested {offset len : ℕ} {range : Range}
    (h : inst.Requested offset len range) :
    inst.startMark range =
      .marking (offset / inst.unitBytes) ((offset + len) ⌈/⌉ inst.unitBytes) 0 := by
  obtain ⟨hlen, hle, rfl⟩ := h
  have hlt : offset / inst.unitBytes < (offset + len) ⌈/⌉ inst.unitBytes :=
    slotBounds_lt hlen ⟨rfl, rfl⟩
  simp only [startMark, slotsForRange_amplified hlen hle, hlt.ne, ↓reduceIte]

theorem finish_ne_holding (call : Call) (offset len : ℕ) (out : Outcome) :
    finish call offset len out = .returned call out ∨
      (out = .ok ∧ finish call offset len out = .running call offset len .cloning) := by
  cases call <;> cases out <;> simp [finish]

theorem taskShape_finish {call : Call} {offset len : ℕ} (h : inst.CallArgs call offset len)
    (out : Outcome) : inst.TaskShape (finish call offset len out) := by
  rcases finish_ne_holding call offset len out with hf | ⟨-, hf⟩
  · rw [hf]
    trivial
  · rw [hf]
    exact ⟨h, trivial⟩

theorem taskShape_enter (call : Call) : inst.TaskShape (inst.enter call) := by
  cases call with
  | ensureRange offset len => exact ⟨⟨rfl, rfl⟩, trivial⟩
  | prepareFetchRange offset len pageSize =>
    rw [enter]
    cases hreal : inst.fetchRealLen offset len pageSize with
    | error err => trivial
    | ok realLen =>
      refine ⟨⟨rfl, ?_⟩, trivial⟩
      rw [fetchRealLen] at hreal
      split_ifs at hreal
      split at hreal
      · exact absurd hreal (by simp)
      · rename_i endPos hadd
        obtain ⟨rfl, -⟩ := U64.checkedAdd_eq_some.mp hadd
        dsimp only at hreal
        split_ifs at hreal with hbounds
        rw [not_or, not_le, not_lt] at hbounds
        rw [U64.sub_eq (by omega)] at hreal
        have hlen := Except.ok.inj hreal
        change offset + realLen = min inst.blobSize (offset + len)
        omega

theorem taskShape_firstCheck {call : Call} {offset len : ℕ} (slots : List UInt8)
    (h : inst.CallArgs call offset len) :
    inst.TaskShape (inst.firstCheck slots call offset len) := by
  rcases firstCheck_cases slots call offset len with ⟨err, hf⟩ | ⟨-, hf⟩ | ⟨hreq, -, hf⟩
  · rw [hf]
    exact taskShape_finish h _
  · rw [hf]
    exact taskShape_finish h _
  · rw [hf]
    exact ⟨h, hreq⟩

theorem phaseShape_afterWrite {offset len : ℕ} {range : Range} {bytes : List UInt8} (written : ℕ)
    (h : inst.Requested offset len range) (hbytes : bytes.length = range.len) :
    inst.PhaseShape offset len range (inst.afterWrite range bytes written) := by
  rw [afterWrite]
  split_ifs with hwritten
  · exact ⟨hbytes, hwritten⟩
  · rw [startMark_requested h]
    exact ⟨⟨rfl, rfl⟩, Nat.sub_pos_of_lt (slotBounds_lt h.len_pos ⟨rfl, rfl⟩)⟩

theorem phaseShape_received {offset len : ℕ} {range : Range} (res : Except Error (List UInt8))
    (h : inst.Requested offset len range) :
    inst.PhaseShape offset len range (inst.received range res) := by
  cases res with
  | error err => trivial
  | ok bytes =>
    rw [received]
    split_ifs with hbytes
    · trivial
    · exact phaseShape_afterWrite 0 h (not_not.mp hbytes)

/-- **A step keeps the shape of its task.** -/
theorem taskShape_step {s s' : Shared} {l l' : TaskState} {e : Event} (hl : inst.TaskShape l)
    (h : inst.step s l e = some (s', l')) : inst.TaskShape l' := by
  cases Effect.of_step h with
  | call call => exact taskShape_enter call
  | check call offset len => exact taskShape_firstCheck _ hl.1
  | refused call offset len range hany => exact hl
  | reserved call offset len range hany => exact ⟨hl.1, hl.2, trivial⟩
  | cancelWaiting => trivial
  | recheck call offset len range =>
    refine ⟨hl.1, hl.2.1, ?_⟩
    split_ifs <;> trivial
  | reply call offset len range res => exact ⟨hl.1, hl.2.1, phaseShape_received res hl.2.1⟩
  | cancelReading => exact ⟨hl.1, hl.2.1, trivial⟩
  | writeFailed => exact ⟨hl.1, hl.2.1, trivial⟩
  | wrote call offset len range bytes written n hn hle =>
    exact ⟨hl.1, hl.2.1, phaseShape_afterWrite _ hl.2.1 hl.2.2.1⟩
  | markRetry => exact hl
  | markFailed => exact ⟨hl.1, hl.2.1, trivial⟩
  | marked call offset len range slotStart slotEnd done n hn hle =>
    refine ⟨hl.1, hl.2.1, ?_⟩
    rw [afterMark]
    split_ifs with hdone
    · exact ⟨hl.2.2.1, hdone⟩
    · exact hl.2.2.1
  | fill => exact ⟨hl.1, hl.2.1, trivial⟩
  | release call offset len range out => exact taskShape_finish hl.1 out
  | clone => trivial

theorem step_ne_idle {s s' : Shared} {l l' : TaskState} {e : Event}
    (h : inst.step s l e = some (s', l')) : l' ≠ .idle := by
  have hfinish (call : Call) (offset len : ℕ) (out : Outcome) :
      finish call offset len out ≠ .idle := by
    rcases finish_ne_holding call offset len out with hf | ⟨-, hf⟩ <;> rw [hf] <;> simp
  cases Effect.of_step h with
  | call call =>
    cases call with
    | ensureRange => simp [enter]
    | prepareFetchRange offset len pageSize =>
      rw [enter]
      split <;> simp
  | check call offset len =>
    rcases firstCheck_cases s.slots call offset len with ⟨err, hf⟩ | ⟨-, hf⟩ | ⟨-, -, hf⟩
    · rw [hf]
      exact hfinish _ _ _ _
    · rw [hf]
      exact hfinish _ _ _ _
    · simp [hf]
  | release => exact hfinish _ _ _ _
  | _ => simp

/-! ### The call of a task -/

/-- The call that a task makes or has made. -/
def TaskState.callOf : TaskState → Option Call
  | .idle => none
  | .running call _ _ _ | .returned call _ => some call

theorem finish_callOf (call : Call) (offset len : ℕ) (out : Outcome) :
    (finish call offset len out).callOf = some call := by
  rcases finish_ne_holding call offset len out with hf | ⟨-, hf⟩ <;> rw [hf] <;> rfl

theorem callOf_step {s s' : Shared} {l l' : TaskState} {e : Event} {call : Call}
    (hl : l.callOf = some call) (h : inst.step s l e = some (s', l')) : l'.callOf = some call := by
  cases Effect.of_step h with
  | call => exact absurd hl (by simp [TaskState.callOf])
  | check call' offset len =>
    rcases firstCheck_cases s.slots call' offset len with ⟨err, hf⟩ | ⟨-, hf⟩ | ⟨-, -, hf⟩
    · rw [hf, finish_callOf]
      exact hl
    · rw [hf, finish_callOf]
      exact hl
    · rw [hf]
      exact hl
  | release =>
    rw [finish_callOf]
    exact hl
  | _ => exact hl

theorem callOf_enter (call : Call) : (inst.enter call).callOf = some call := by
  cases call with
  | ensureRange => rfl
  | prepareFetchRange offset len pageSize =>
    rw [enter]
    split <;> rfl

theorem callOf_solo {s s' : Shared} {l' : TaskState} {call : Call} {es : List Event}
    (h : inst.tasks.solo s .idle (.call call :: es) = some (s', l')) : l'.callOf = some call := by
  obtain ⟨s₁, l₁, hcall, hrest⟩ := TaskSystem.solo_cons_eq_some.mp h
  obtain ⟨-, rfl⟩ := Prod.mk.inj (Option.some.inj hcall)
  exact TaskSystem.solo_invariant (A := inst.tasks) (I := fun _ l => l.callOf = some call)
    (fun _ _ _ _ _ hl hstep => callOf_step hl hstep) (callOf_enter call) hrest

end Instance

end Lazyd
