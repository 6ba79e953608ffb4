import Lazyd.Instance.Soundness

/-!
# What the calls on an instance write to the target

A step of a call changes the target at most by one write. The write lies inside the range that the
task holds, hence inside the blob; and under an honest remote it writes bytes of the blob at their
own position. So the part of the target behind the blob is never written, whatever the remote
answers.

## Main definitions

* `Instance.TaskAgrees` : the bytes that a task has received are those of the blob.
* `Instance.WritesTarget` : one write of the bytes of a range of the blob.

## Main results

* `Instance.target_step`, `Instance.agrees_step` : what a step writes to the target.
* `Instance.bitmap_step` : what a step writes to the bitmap file.
* `Instance.disk_run_of_ne` : no other file is written.
* `Instance.tail_run` : the part behind the blob in a run.

Source: `src/instance.rs`, lines 229–261 and 337–351.
-/

namespace Lazyd

namespace Instance

variable (inst : Instance) (blob : ℕ → UInt8)

/-- What a task writes to the target is from the blob. -/
def TaskAgrees : TaskState → Prop
  | .running _ _ _ (.holding range (.writing bytes _)) => SparseFile.Agrees blob range.offset bytes
  | _ => True

/-- One write to the target, possibly of nothing, inside the blob. -/
def WritesTarget (d d' : Disk) (off : ℕ) (chunk : List UInt8) : Prop :=
  off + chunk.length ≤ inst.blobSize ∧ d' inst.target = (d inst.target).writeAt off chunk

variable {inst blob}

theorem writesTarget_nil {d d' : Disk} (h : d' inst.target = d inst.target) :
    inst.WritesTarget d d' 0 [] := by
  refine ⟨Nat.zero_le _, ?_⟩
  rw [h, SparseFile.writeAt_nil]

theorem WritesTarget.byte_of_notMem {d d' : Disk} {off : ℕ} {chunk : List UInt8}
    (h : inst.WritesTarget d d' off chunk) {p : ℕ} (hp : ¬(off ≤ p ∧ p < off + chunk.length)) :
    (d' inst.target).byte p = (d inst.target).byte p := by
  rw [h.2, SparseFile.writeAt_byte_of_notMem _ _ _ hp]

/-- The chunk of one `write_at`. -/
theorem writesTarget_wrote (s : Shared) {offset len written n : ℕ} {range : Range}
    {bytes : List UInt8} (hreq : inst.Requested offset len range)
    (hbytes : bytes.length = range.len) (hwritten : written < bytes.length) :
    inst.WritesTarget s.disk (inst.writeTarget s range bytes written n).disk
      (range.offset + written) ((bytes.drop written).take n) := by
  obtain ⟨hlen, hle, rfl⟩ := hreq
  have hend := (amplified_bounds hlen hle).2
  refine ⟨?_, ?_⟩
  · rw [List.length_take, List.length_drop]
    omega
  · rw [writeTarget_disk, Disk.write_self]

/-- **A step writes inside the blob.** What it writes is part of what its task has received. -/
theorem target_step (hne : inst.target ≠ inst.rangeMap.file) {s s' : Shared} {l l' : TaskState}
    {e : Event} (hshape : inst.TaskShape l) (h : inst.step s l e = some (s', l')) :
    ∃ off chunk, inst.WritesTarget s.disk s'.disk off chunk ∧
      (TaskAgrees blob l → SparseFile.Agrees blob off chunk) := by
  have hsame (hd : s'.disk inst.target = s.disk inst.target) :
      ∃ off chunk, inst.WritesTarget s.disk s'.disk off chunk ∧
        (TaskAgrees blob l → SparseFile.Agrees blob off chunk) :=
    ⟨0, [], writesTarget_nil hd, fun _ _ hi => absurd hi (Nat.not_lt_zero _)⟩
  cases Effect.of_step h with
  | wrote call offset len range bytes written n hn hle =>
    exact ⟨_, _, writesTarget_wrote s hshape.2.1 hshape.2.2.1 hshape.2.2.2,
      fun hagree => (SparseFile.Agrees.drop hagree written).take n⟩
  | marked => exact hsame (Disk.write_of_ne _ _ _ hne)
  | _ => exact hsame rfl

/-- What a step writes to the bitmap file lies behind the header, and marks slots as ready. -/
theorem bitmap_step (hne : inst.target ≠ inst.rangeMap.file) {s s' : Shared} {l l' : TaskState}
    {e : Event} (h : inst.step s l e = some (s', l')) :
    ∃ off n, s'.disk inst.rangeMap.file =
      (s.disk inst.rangeMap.file).writeAt (headerSize + off) (List.replicate n 1) := by
  have hsame (hd : s'.disk inst.rangeMap.file = s.disk inst.rangeMap.file) :
      ∃ off n, s'.disk inst.rangeMap.file =
        (s.disk inst.rangeMap.file).writeAt (headerSize + off) (List.replicate n 1) := by
    refine ⟨0, 0, ?_⟩
    rw [hd, List.replicate_zero, SparseFile.writeAt_nil]
  cases Effect.of_step h with
  | wrote => exact hsame (Disk.write_of_ne _ _ _ hne.symm)
  | marked call offset len range slotStart slotEnd done n =>
    refine ⟨slotStart + done, n, ?_⟩
    rw [writeMarks_disk, Disk.write_self, Nat.add_assoc]
  | _ => exact hsame rfl

theorem disk_step_of_ne {key : FileKey} (htarget : key ≠ inst.target)
    (hfile : key ≠ inst.rangeMap.file) {s s' : Shared} {l l' : TaskState} {e : Event}
    (h : inst.step s l e = some (s', l')) : s'.disk key = s.disk key := by
  cases Effect.of_step h with
  | wrote => exact Disk.write_of_ne _ _ _ htarget
  | marked => exact Disk.write_of_ne _ _ _ hfile
  | _ => rfl

/-- A run changes no other file. -/
theorem disk_run_of_ne {τ : Type*} [DecidableEq τ] {ok : TaskState → Event → Prop} {key : FileKey}
    (htarget : key ≠ inst.target) (hfile : key ≠ inst.rangeMap.file)
    {c₀ c : TaskSystem.Config Shared TaskState τ} {ls : List (τ × Event)}
    (h : inst.tasks.Run ok c₀ ls c) : c.shared.disk key = c₀.shared.disk key := by
  refine h.invariant (I := fun c => c.shared.disk key = c₀.shared.disk key) rfl ?_
  intro c t e c' hc _ hfire
  exact (disk_step_of_ne htarget hfile (TaskSystem.fire_step hfire)).trans hc

theorem taskAgrees_finish (call : Call) (offset len : ℕ) (out : Outcome) :
    TaskAgrees blob (finish call offset len out) := by
  rcases finish_ne_holding call offset len out with hf | ⟨-, hf⟩ <;>
  · rw [hf]
    trivial

theorem taskAgrees_afterWrite {call : Call} {offset len written : ℕ} {range : Range}
    {bytes : List UInt8} (hreq : inst.Requested offset len range)
    (hagree : SparseFile.Agrees blob range.offset bytes) :
    TaskAgrees blob (.running call offset len
      (.holding range (inst.afterWrite range bytes written))) := by
  rw [afterWrite]
  split_ifs
  · exact hagree
  · rw [startMark_requested hreq]
    trivial

/-- An honest reply leaves a task that writes bytes of the blob. -/
theorem agrees_step {s s' : Shared} {l l' : TaskState} {e : Event} (hshape : inst.TaskShape l)
    (hl : TaskAgrees blob l) (hok : Honest blob l e) (h : inst.step s l e = some (s', l')) :
    TaskAgrees blob l' := by
  cases Effect.of_step h with
  | call call =>
    cases call with
    | ensureRange => trivial
    | prepareFetchRange offset len pageSize =>
      rw [enter]
      split <;> trivial
  | check call offset len =>
    rcases firstCheck_cases s.slots call offset len with ⟨err, hf⟩ | ⟨-, hf⟩ | ⟨-, -, hf⟩
    · rw [hf]
      exact taskAgrees_finish _ _ _ _
    · rw [hf]
      exact taskAgrees_finish _ _ _ _
    · rw [hf]
      trivial
  | recheck call offset len range =>
    split_ifs <;> trivial
  | reply call offset len range res =>
    cases res with
    | error err => trivial
    | ok bytes =>
      rw [received]
      split_ifs with hbytes
      · trivial
      · exact taskAgrees_afterWrite hshape.2.1 (hok (not_not.mp hbytes))
  | wrote call offset len range bytes written n hn hle => exact taskAgrees_afterWrite hshape.2.1 hl
  | marked call offset len range slotStart slotEnd done n hn hle =>
    rw [afterMark]
    split_ifs <;> trivial
  | release call offset len range out => exact taskAgrees_finish _ _ _ _
  | _ => trivial

/-- In every run under a remote that is honest to tasks of the right shape, every task that writes
writes bytes of the blob. -/
theorem agrees_run {τ : Type*} [DecidableEq τ] {ok : TaskState → Event → Prop}
    (hhonest : ∀ l e, inst.TaskShape l → ok l e → Honest blob l e)
    {c₀ c : TaskSystem.Config Shared TaskState τ} {ls : List (τ × Event)}
    (hidle : ∀ t, c₀.task t = .idle) (h : inst.tasks.Run ok c₀ ls c) (t : τ) :
    inst.TaskShape (c.task t) ∧ TaskAgrees blob (c.task t) := by
  refine (h.locals (I := fun _ => True) (L := fun l => inst.TaskShape l ∧ TaskAgrees blob l)
    trivial (fun u => ?_) ?_).2 t
  · rw [hidle u]
    exact ⟨trivial, trivial⟩
  · intro s l e s' l' _ hl hok hstep
    exact ⟨trivial, taskShape_step hl.1 hstep, agrees_step hl.1 hl.2 (hhonest l e hl.1 hok) hstep⟩

/-- **The tail is not written.** In every run the target keeps what it has behind the blob. -/
theorem tail_run {τ : Type*} [DecidableEq τ] {ok : TaskState → Event → Prop}
    (hne : inst.target ≠ inst.rangeMap.file) {c₀ c : TaskSystem.Config Shared TaskState τ}
    {ls : List (τ × Event)} (hshape : ∀ t, inst.TaskShape (c₀.task t))
    (h : inst.tasks.Run ok c₀ ls c) {p : ℕ} (hp : inst.blobSize ≤ p) :
    (c.shared.disk inst.target).byte p = (c₀.shared.disk inst.target).byte p := by
  refine (h.locals (I := fun s => (s.disk inst.target).byte p = (c₀.shared.disk inst.target).byte p)
    rfl hshape ?_).1
  intro s l e s' l' hs hl _ hstep
  have hwrites : ∃ off chunk, inst.WritesTarget s.disk s'.disk off chunk ∧
      (TaskAgrees (fun _ => 0) l → SparseFile.Agrees (fun _ => 0) off chunk) :=
    target_step hne hl hstep
  obtain ⟨off, chunk, hwrite, -⟩ := hwrites
  refine ⟨?_, taskShape_step hl hstep⟩
  rw [hwrite.byte_of_notMem, hs]
  have hend := hwrite.1
  omega

end Instance

end Lazyd
