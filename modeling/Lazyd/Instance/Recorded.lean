import Mathlib.Data.List.GetD
import Lazyd.Instance.Ready
import Lazyd.Instance.Recovery

/-!
# What is ready in memory is ready in the bitmap file

A call marks the slots of its range in the bitmap file before it sets them in memory, and recovery,
which clears a slot in the bitmap file first, goes on to clear it in memory or fails. So at every
point of a run a slot that is set in memory is set in the bitmap file: whoever stops the daemon
there leaves a bitmap file from which the slots can be read again.

## Main definitions

* `Instance.Recorded` : every slot that is set in memory is set in the bitmap file.
* `Instance.TaskRecorded` : the marks that a task has written.

## Main results

* `Instance.recorded_step`, `Instance.recorded_run` : in every interleaving of the calls.
* `Instance.recoveryRecorded_step` : a step of a recovery.
* `Instance.recorded_recovered` : after a recovery.

Source: `src/instance.rs`, lines 229–261; `src/range_map.rs`, lines 116–148 and 150–179.
-/

namespace Lazyd

namespace Instance

variable (inst : Instance)

/-- The slot is set in the bitmap file. -/
def SlotMarked (d : Disk) (k : ℕ) : Prop := (d inst.rangeMap.file).byte (headerSize + k) ≠ 0

/-- Every slot that is set in memory is set in the bitmap file. -/
def Recorded (s : Shared) : Prop := ∀ k, s.slots.getD k 0 ≠ 0 → inst.SlotMarked s.disk k

/-- No slot of the bitmap file has been cleared. -/
def KeepsMarks (d d' : Disk) : Prop := ∀ k, inst.SlotMarked d k → inst.SlotMarked d' k

/-- The marks that a task has written. -/
def TaskRecorded (d : Disk) : TaskState → Prop
  | .running _ _ _ (.holding _ (.marking slotStart _ done)) =>
    ∀ k, slotStart ≤ k → k < slotStart + done → inst.SlotMarked d k
  | .running _ _ _ (.holding _ (.filling slotStart slotEnd)) =>
    ∀ k, slotStart ≤ k → k < slotEnd → inst.SlotMarked d k
  | _ => True

variable {inst} {d d' : Disk}

theorem TaskRecorded.mono {l : TaskState} (h : inst.TaskRecorded d l)
    (hd : inst.KeepsMarks d d') : inst.TaskRecorded d' l := by
  cases l with
  | idle | returned => trivial
  | running call offset len pc =>
    cases pc with
    | entered | reserving | cloning => trivial
    | holding range phase =>
      cases phase with
      | recheck | reading | releasing | writing => trivial
      | marking | filling => exact fun k hlow hhigh => hd k (h k hlow hhigh)

theorem taskRecorded_finish (call : Call) (offset len : ℕ) (out : Outcome) :
    inst.TaskRecorded d (finish call offset len out) := by
  rcases finish_ne_holding call offset len out with hf | ⟨-, hf⟩ <;>
  · rw [hf]
    trivial

theorem taskRecorded_startMark (call : Call) (offset len : ℕ) (range : Range) :
    inst.TaskRecorded d (.running call offset len (.holding range (inst.startMark range))) := by
  rw [startMark]
  split
  · trivial
  · split_ifs
    · trivial
    · intro k hlow hhigh
      omega

theorem taskRecorded_afterWrite (call : Call) (offset len : ℕ) (range : Range)
    (bytes : List UInt8) (written : ℕ) :
    inst.TaskRecorded d (.running call offset len
      (.holding range (inst.afterWrite range bytes written))) := by
  rw [afterWrite]
  split_ifs
  · trivial
  · exact taskRecorded_startMark _ _ _ _

/-! ### The calls on the instance -/

theorem slotMarked_writeMarks (s : Shared) {slotStart done n k : ℕ}
    (hlow : slotStart + done ≤ k) (hhigh : k < slotStart + done + n) :
    inst.SlotMarked (inst.writeMarks s 1 slotStart done n).disk k := by
  rw [SlotMarked, writeMarks_disk, Disk.write_self, SparseFile.writeAt_byte,
    List.length_replicate, if_pos (by omega), List.getD_replicate _ (by omega)]
  decide

theorem keepsMarks_step (hne : inst.target ≠ inst.rangeMap.file) {s s' : Shared} {l l' : TaskState}
    {e : Event} (h : inst.step s l e = some (s', l')) : inst.KeepsMarks s.disk s'.disk := by
  obtain ⟨off, n, hbitmap⟩ := bitmap_step hne h
  intro k hk
  rw [SlotMarked, hbitmap, SparseFile.writeAt_byte]
  split_ifs with hin
  · rw [List.length_replicate] at hin
    rw [List.getD_replicate _ (by omega)]
    decide
  · exact hk

theorem taskRecorded_step (hne : inst.target ≠ inst.rangeMap.file) {s s' : Shared}
    {l l' : TaskState} {e : Event} (hl : inst.TaskRecorded s.disk l)
    (h : inst.step s l e = some (s', l')) : inst.TaskRecorded s'.disk l' := by
  have hkeep := keepsMarks_step hne h
  cases Effect.of_step h with
  | call call =>
    cases call with
    | ensureRange => trivial
    | prepareFetchRange offset len pageSize =>
      rw [enter]
      split <;> trivial
  | check call offset len =>
    rcases firstCheck_cases s.slots call offset len with ⟨err, hf⟩ | ⟨-, hf⟩ | ⟨-, -, hf⟩
    · rw [hf]
      exact taskRecorded_finish _ _ _ _
    · rw [hf]
      exact taskRecorded_finish _ _ _ _
    · rw [hf]
      trivial
  | recheck => split_ifs <;> trivial
  | reply call offset len range res =>
    cases res with
    | error err => trivial
    | ok bytes =>
      rw [received]
      split_ifs
      · trivial
      · exact taskRecorded_afterWrite _ _ _ _ _ _
  | wrote => exact taskRecorded_afterWrite _ _ _ _ _ _
  | markRetry => exact hl
  | marked call offset len range slotStart slotEnd done n hn hle =>
    -- what was marked stays, and what is written is marked
    have hmarked (k : ℕ) (hlow : slotStart ≤ k) (hhigh : k < slotStart + (done + n)) :
        inst.SlotMarked (inst.writeMarks s 1 slotStart done n).disk k := by
      rcases lt_or_ge k (slotStart + done) with hold | hnew
      · exact hkeep k (hl k hlow hold)
      · exact slotMarked_writeMarks s hnew (by omega)
    rw [afterMark]
    split_ifs
    · exact hmarked
    · exact fun k hlow hhigh => hmarked k hlow (by omega)
  | release => exact taskRecorded_finish _ _ _ _
  | _ => trivial

/-- **File before memory.** A slot that a step sets in memory is set in the bitmap file. -/
theorem recorded_step (hne : inst.target ≠ inst.rangeMap.file) {s s' : Shared} {l l' : TaskState}
    {e : Event} (hs : inst.Recorded s) (hl : inst.TaskRecorded s.disk l)
    (h : inst.step s l e = some (s', l')) : inst.Recorded s' := by
  have hkeep := keepsMarks_step hne h
  intro k hk
  cases Effect.of_step h with
  | fill call offset len range slotStart slotEnd =>
    by_cases hin : slotStart ≤ k ∧ k < slotEnd
    · exact hl k hin.1 hin.2
    · refine hs k ?_
      change (fillSlots s.slots slotStart slotEnd 1).getD k 0 ≠ 0 at hk
      rwa [getD_fillSlots_of_notMem _ _ hin] at hk
  | _ => exact hkeep k (hs k hk)

/-- **What is ready in memory is ready in the bitmap file**, in every interleaving of the calls. -/
theorem recorded_run {τ : Type*} [DecidableEq τ] (hne : inst.target ≠ inst.rangeMap.file)
    {ok : TaskState → Event → Prop} {c₀ c : TaskSystem.Config Shared TaskState τ}
    {ls : List (τ × Event)} (hrecorded : inst.Recorded c₀.shared)
    (hidle : ∀ t, c₀.task t = .idle) (h : inst.tasks.Run ok c₀ ls c) : inst.Recorded c.shared := by
  refine (h.rely (I := inst.Recorded) (L := fun s l => inst.TaskRecorded s.disk l)
    (R := fun s s' => inst.KeepsMarks s.disk s'.disk) hrecorded (fun t => ?_)
    (fun s l e s' l' hI hL _ hstep => ?_) fun s s' l hR hL => hL.mono hR).1
  · rw [hidle t]
    trivial
  · exact ⟨recorded_step hne hI hL hstep, taskRecorded_step hne hL hstep, keepsMarks_step hne hstep⟩

theorem length_slots_run {τ : Type*} [DecidableEq τ] {ok : TaskState → Event → Prop}
    {c₀ c : TaskSystem.Config Shared TaskState τ} {ls : List (τ × Event)}
    (h : inst.tasks.Run ok c₀ ls c) : c.shared.slots.length = c₀.shared.slots.length :=
  h.invariant (I := fun c => c.shared.slots.length = c₀.shared.slots.length) rfl
    fun _ _ _ _ hc _ hfire => (length_slots_step (TaskSystem.fire_step hfire)).trans hc

/-! ### Recovery -/

/-- The slots that recovery has cleared in the bitmap file and not in memory; when it has failed,
nothing is known. -/
def RecoveryState.Clears : RecoveryState → ℕ → Prop
  | .scanning _ _ (.clearing slotStart _ done), k => slotStart ≤ k ∧ k < slotStart + done
  | .scanning _ _ (.filling slotStart slotEnd), k => slotStart ≤ k ∧ k < slotEnd
  | .failed _, _ => True
  | _, _ => False

variable (inst)

/-- Every slot that is set in memory is set in the bitmap file, or about to be cleared. -/
def RecoveryRecorded (s : Shared) (l : RecoveryState) : Prop :=
  ∀ k, s.slots.getD k 0 ≠ 0 → l.Clears k ∨ inst.SlotMarked s.disk k

variable {inst}

theorem slotMarked_clear (s : Shared) {slotStart done n k : ℕ} (hk : inst.SlotMarked s.disk k)
    (hout : ¬(slotStart + done ≤ k ∧ k < slotStart + done + n)) :
    inst.SlotMarked (inst.writeMarks s 0 slotStart done n).disk k := by
  rw [SlotMarked, writeMarks_disk, Disk.write_self, SparseFile.writeAt_byte_of_notMem]
  · exact hk
  · rw [List.length_replicate]
    omega

/-- A step of recovery keeps what is recorded. -/
theorem recoveryRecorded_step {s s' : Shared} {l l' : RecoveryState} {e : RecoveryEvent}
    (h : inst.RecoveryRecorded s l) (hstep : inst.recoveryStep s l e = some (s', l')) :
    inst.RecoveryRecorded s' l' := by
  have hfailed (err : Error) : inst.RecoveryRecorded s (.failed err) := fun _ _ => Or.inl trivial
  have hslots (k : ℕ) (hk : s'.slots.getD k 0 ≠ 0) : s.slots.getD k 0 ≠ 0 :=
    recoveryStep_slots hstep hk
  unfold recoveryStep at hstep
  split at hstep
  · -- a probe
    rename_i slot todo dataFault holeFault
    have hnone {l : RecoveryState} : inst.RecoveryRecorded s l := by
      intro k hk
      exact (h k hk).imp_left False.elim
    split at hstep <;>
    · obtain ⟨rfl, rfl⟩ := Prod.mk.inj (Option.some.inj hstep)
      exact hnone
  · -- a write to the bitmap file
    rename_i slot todo slotStart slotEnd done res
    split at hstep
    · split_ifs at hstep
      · obtain ⟨rfl, rfl⟩ := Prod.mk.inj (Option.some.inj hstep)
        exact h
      · obtain ⟨rfl, rfl⟩ := Prod.mk.inj (Option.some.inj hstep)
        exact hfailed _
    · rename_i n
      have hwritten (k : ℕ) (hk : s.slots.getD k 0 ≠ 0) :
          slotStart ≤ k ∧ k < slotStart + (done + n) ∨
            inst.SlotMarked (inst.writeMarks s 0 slotStart done n).disk k := by
        by_cases hin : slotStart + done ≤ k ∧ k < slotStart + done + n
        · exact Or.inl ⟨by omega, by omega⟩
        · rcases h k hk with hcleared | hmarked
          · exact Or.inl ⟨hcleared.1, hcleared.2.trans_le (by omega)⟩
          · exact Or.inr (slotMarked_clear s hmarked hin)
      split_ifs at hstep with hle hzero hmore
      · obtain ⟨rfl, rfl⟩ := Prod.mk.inj (Option.some.inj hstep)
        exact hfailed _
      · obtain ⟨rfl, rfl⟩ := Prod.mk.inj (Option.some.inj hstep)
        exact hwritten
      · obtain ⟨rfl, rfl⟩ := Prod.mk.inj (Option.some.inj hstep)
        exact fun k hk => (hwritten k hk).imp_left fun hin => ⟨hin.1, by omega⟩
  · -- the update in memory
    rename_i slot todo slotStart slotEnd
    obtain ⟨rfl, rfl⟩ := Prod.mk.inj (Option.some.inj hstep)
    intro k hk
    have hset := hslots k hk
    rcases h k hset with hin | hmarked
    · change (fillSlots s.slots slotStart slotEnd 0).getD k 0 ≠ 0 at hk
      rw [getD_fillSlots_of_mem 0 (lt_length_of_getD_ne hset) hin.1 hin.2] at hk
      exact absurd rfl hk
    · exact Or.inr hmarked
  · exact absurd hstep (by simp)

/-- What is ready after a recovery is ready in the bitmap file. -/
theorem recorded_recovered {s s' : Shared} {l : RecoveryState} {es : List RecoveryEvent}
    (h : inst.RecoveryRecorded s l) (hsolo : inst.recovery.solo s l es = some (s', .recovered)) :
    inst.Recorded s' := by
  have hend := TaskSystem.solo_invariant (A := inst.recovery) (I := inst.RecoveryRecorded)
    (fun _ _ _ _ _ => recoveryRecorded_step) h hsolo
  exact fun k hk => (hend k hk).resolve_left id

end Instance

end Lazyd
