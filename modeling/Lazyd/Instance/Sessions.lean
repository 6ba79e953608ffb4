import Lazyd.Instance.Recovery
import Lazyd.RangeMap.Open
import Mathlib.Logic.Relation

/-!
# Sessions and crashes

An instance is opened, serves calls, and at some point the machine crashes, in a recovery or between
any two steps of the calls; then it is opened again, any number of times. A crash leaves each block
of the target as it was last written or as it was at the previous crash or opening, independently of
the other blocks. Nothing is written in a fixed order to the two files, so after a crash the bitmap
file says nothing that could be relied on: here a crash may leave anything in it, and it may also be
missing.

What carries over is that an allocated block of the target has the bytes of the blob. The calls keep
this because the file system ends a short write at a block boundary, so that no block is ever partly
written; crashes keep it because they keep or lose whole blocks. With it, recovery leaves no slot
ready that is not in the target.

## Main definitions

* `Instance.Machine`, `Instance.Mode` : the files and what runs on them.
* `Instance.SessionStep` : openings, recoveries, calls, ends of sessions and crashes.
* `Instance.MachineSound` : the invariant.

## Main results

* `Instance.dataHolds_step` : a call allocates only blocks with the bytes of the blob.
* `Instance.machineSound_step` : the invariant is kept.
* `Instance.recovered_slots_sound` : soundness after any number of crashes.

Source: `src/instance.rs`, lines 172–194 and 229–261; `src/range_map.rs`, lines 42–148.
-/

namespace Lazyd

namespace Instance

/-- What runs on the files: nothing, a recovery, or calls on the open instance. -/
inductive Mode (τ : Type*) where
  | down (disk : Disk)
  | recovering (s : Shared) (l : RecoveryState)
  | up (c : TaskSystem.Config Shared TaskState τ)

/-- The files as they were last written. -/
def Mode.disk {τ : Type*} : Mode τ → Disk
  | .down disk => disk
  | .recovering s _ => s.disk
  | .up c => c.shared.disk

/-- The files as they were at the previous crash or opening, and what runs on them now. -/
structure Machine (τ : Type*) where
  stable : Disk
  mode : Mode τ

/-- A short write ends at a block boundary. -/
def Blockwise (block : ℕ) : TaskState → Event → Prop
  | .running _ _ _ (.holding range (.writing bytes written)), .wrote (.ok n) =>
    block ∣ range.offset + (written + n) ∨ written + n = bytes.length
  | _, _ => True

variable (inst : Instance) (codec : HeaderCodec) (blob : ℕ → UInt8)

/-- What `Instance::open` goes on with after `open_or_create`. -/
def afterOpen {τ : Type*} (disk : Disk) (res : Except Error OpenedRangeMap × Option File) :
    Mode τ :=
  let disk :=
    match res.2 with
    | none => disk
    | some f => Function.update disk inst.rangeMap.file f
  match res.1 with
  | .error _ => .down disk
  | .ok opened =>
    let s : Shared := { disk, slots := opened.slots, inflight := [] }
    if opened.needsRecovery then .recovering s (startRecovery opened.slots)
    else .up ⟨s, fun _ => .idle⟩

/-- A step of the machine. The file system may fail anywhere; the remote is honest. -/
inductive SessionStep {τ : Type*} [DecidableEq τ] : Machine τ → Machine τ → Prop
  | opened {stable stable' disk : Disk} (faults : OpenFaults) {old : Option File}
      (hold : old = none ∨ old = some (disk inst.rangeMap.file))
      (hstable : stable' = stable ∨ stable' = disk) :
      SessionStep ⟨stable, .down disk⟩ ⟨stable', inst.afterOpen disk
        (openOrCreate codec inst.rangeMap.file inst.config.blob inst.config.fetch.unitBytes faults
          old)⟩
  | recovery {stable : Disk} {s s' : Shared} {l l' : RecoveryState} {e : RecoveryEvent}
      (h : inst.recoveryStep s l e = some (s', l')) :
      SessionStep ⟨stable, .recovering s l⟩ ⟨stable, .recovering s' l'⟩
  | recovered {stable : Disk} {s : Shared} :
      SessionStep ⟨stable, .recovering s .recovered⟩ ⟨stable, .up ⟨s, fun _ => .idle⟩⟩
  | recoveryFailed {stable : Disk} {s : Shared} {err : Error} :
      SessionStep ⟨stable, .recovering s (.failed err)⟩ ⟨stable, .down s.disk⟩
  | task {stable : Disk} {c c' : TaskSystem.Config Shared TaskState τ} {t : τ} {e : Event}
      (hhonest : Honest blob (c.task t) e)
      (hblock : Blockwise (c.shared.disk inst.target).block (c.task t) e)
      (h : inst.tasks.fire c t e = some c') :
      SessionStep ⟨stable, .up c⟩ ⟨stable, .up c'⟩
  | closed {stable : Disk} {c : TaskSystem.Config Shared TaskState τ} :
      SessionStep ⟨stable, .up c⟩ ⟨stable, .down c.shared.disk⟩
  | crash {m : Machine τ} {disk : Disk}
      (h : SparseFile.Crashed (m.stable inst.target) (m.mode.disk inst.target)
        (disk inst.target)) :
      SessionStep m ⟨disk, .down disk⟩

/-- A task writes from a block boundary on. -/
def TaskAligned (block : ℕ) : TaskState → Prop
  | .running _ _ _ (.holding range (.writing _ written)) => block ∣ range.offset + written
  | _ => True

/-- The target has blocks of the given size, and those that are allocated have the bytes of the
blob. -/
structure TargetSound (block : ℕ) (d : Disk) : Prop where
  block_eq : (d inst.target).block = block
  dataHolds : (d inst.target).DataHolds blob inst.blobSize

/-- What holds of what runs on the files. -/
def ModeSound {τ : Type*} (block : ℕ) : Mode τ → Prop
  | .down _ => True
  | .recovering s l => inst.RecoverySound blob s l
  | .up c => inst.SlotsSound blob c.shared ∧ ∀ t, inst.TaskShape (c.task t) ∧
    inst.TaskSound blob c.shared.disk (c.task t) ∧ TaskAligned block (c.task t)

/-- The invariant of the machine. -/
structure MachineSound {τ : Type*} (block : ℕ) (m : Machine τ) : Prop where
  stable : inst.TargetSound blob block m.stable
  current : inst.TargetSound blob block m.mode.disk
  mode : inst.ModeSound blob block m.mode

variable {inst codec blob}

/-! ### The calls allocate whole blocks -/

/-- An amplified range starts at a block boundary, and it ends at one or at the end of the blob. -/
theorem range_aligned {block offset len : ℕ} {range : Range} (hblock : block ∣ bitmapUnitBytes)
    (h : inst.Requested offset len range) :
    block ∣ range.offset ∧
      (block ∣ range.offset + range.len ∨ inst.blobSize ≤ range.offset + range.len) := by
  obtain ⟨hlen, hle, rfl⟩ := h
  have hunit : block ∣ inst.unitBytes :=
    hblock.trans (inst.rangeMap_unitBytes ▸ inst.rangeMap.bitmapUnitBytes_dvd)
  refine ⟨hunit.trans (Nat.dvd_mul_left _ _), ?_⟩
  rw [amplified_end hlen hle]
  rcases le_total ((offset + len) ⌈/⌉ inst.unitBytes * inst.unitBytes) inst.blobSize with
      hmin | hmin
  · rw [min_eq_left hmin]
    exact Or.inl (hunit.trans (Nat.dvd_mul_left _ _))
  · rw [min_eq_right hmin]
    exact Or.inr le_rfl

/-- The write loop goes on from a block boundary. -/
theorem taskAligned_afterWrite {block offset len written : ℕ} {range : Range} {call : Call}
    {bytes : List UInt8} (hreq : inst.Requested offset len range)
    (h : written < bytes.length → block ∣ range.offset + written) :
    TaskAligned block (.running call offset len (.holding range
      (inst.afterWrite range bytes written))) := by
  rw [afterWrite]
  split_ifs with hwritten
  · exact h hwritten
  · rw [startMark_requested hreq]
    trivial

/-- **The calls allocate whole blocks.** A step that ends its write at a block boundary leaves no
allocated block with other bytes than those of the blob. -/
theorem dataHolds_step (hne : inst.target ≠ inst.rangeMap.file) {block : ℕ}
    (hblock : block ∣ bitmapUnitBytes) {s s' : Shared} {l l' : TaskState} {e : Event}
    (hd : inst.TargetSound blob block s.disk) (hshape : inst.TaskShape l)
    (hsound : inst.TaskSound blob s.disk l) (hl : TaskAligned block l) (hok : Blockwise block l e)
    (h : inst.step s l e = some (s', l')) :
    inst.TargetSound blob block s'.disk ∧ TaskAligned block l' := by
  cases Effect.of_step h with
  | call call =>
    refine ⟨hd, ?_⟩
    cases call with
    | ensureRange => trivial
    | prepareFetchRange offset len pageSize =>
      rw [enter]
      split <;> trivial
  | check call offset len =>
    refine ⟨hd, ?_⟩
    rcases firstCheck_cases s.slots call offset len with ⟨err, hf⟩ | ⟨-, hf⟩ | ⟨-, -, hf⟩
    · rw [hf]
      rcases finish_ne_holding call offset len (.err err) with hf | ⟨hno, -⟩
      · rw [hf]
        trivial
      · exact absurd hno (by simp)
    · rw [hf]
      rcases finish_ne_holding call offset len .ok with hf | ⟨-, hf⟩ <;> rw [hf] <;> trivial
    · rw [hf]
      trivial
  | recheck call offset len range =>
    refine ⟨hd, ?_⟩
    split_ifs <;> trivial
  | reply call offset len range res =>
    refine ⟨hd, ?_⟩
    cases res with
    | error err => trivial
    | ok bytes =>
      rw [received]
      split_ifs
      · trivial
      · exact taskAligned_afterWrite hshape.2.1 fun _ => (range_aligned hblock hshape.2.1).1
  | wrote call offset len range bytes written n hn hle =>
    have hlength : ((bytes.drop written).take n).length = n := by
      rw [List.length_take, List.length_drop]
      exact min_eq_left hle
    have hbytes : bytes.length = range.len := hshape.2.2.1
    refine ⟨⟨?_, ?_⟩, taskAligned_afterWrite hshape.2.1 fun hmore => ?_⟩
    · rw [writeTarget_disk, Disk.write_self, SparseFile.writeAt_block]
      exact hd.block_eq
    · rw [writeTarget_disk, Disk.write_self]
      refine hd.dataHolds.writeAt ((hsound.1.drop written).take n) ?_ ?_
      · rw [hd.block_eq]
        exact hl
      · rw [hlength, hd.block_eq, Nat.add_assoc]
        rcases hok with hdvd | hend
        · exact Or.inl hdvd
        · rw [hend, hbytes]
          exact (range_aligned hblock hshape.2.1).2
    · rcases hok with hdvd | hend
      · exact hdvd
      · omega
  | marked call offset len range slotStart slotEnd done n hn hle =>
    refine ⟨?_, ?_⟩
    · have htarget : (inst.writeMarks s 1 slotStart done n).disk inst.target =
          s.disk inst.target := Disk.write_of_ne _ _ _ hne
      exact ⟨by rw [htarget]; exact hd.block_eq, by rw [htarget]; exact hd.dataHolds⟩
    · rw [afterMark]
      split_ifs <;> trivial
  | release call offset len range out =>
    refine ⟨hd, ?_⟩
    rcases finish_ne_holding call offset len out with hf | ⟨-, hf⟩ <;> rw [hf] <;> trivial
  | refused | reserved | cancelWaiting | cancelReading | writeFailed | markRetry | markFailed
  | fill | clone => exact ⟨hd, trivial⟩

/-! ### The invariant -/

/-- Opening keeps the invariant. -/
theorem machineSound_afterOpen {τ : Type*} (hne : inst.target ≠ inst.rangeMap.file) {block : ℕ}
    {disk : Disk} (hd : inst.TargetSound blob block disk) (faults : OpenFaults)
    (old : Option File) {mode : Mode τ}
    (hmode : inst.afterOpen disk (openOrCreate codec inst.rangeMap.file inst.config.blob
      inst.config.fetch.unitBytes faults old) = mode) :
    inst.TargetSound blob block mode.disk ∧ inst.ModeSound blob block mode := by
  have hm := inst.rangeMap.geometry_self inst.blobSize_eq inst.unitBytes_eq
  have htarget (f : File) : Function.update disk inst.rangeMap.file f inst.target =
      disk inst.target := Function.update_of_ne hne _ _
  have hd' (f : File) :
      inst.TargetSound blob block (Function.update disk inst.rangeMap.file f) :=
    ⟨by rw [htarget]; exact hd.block_eq, by rw [htarget]; exact hd.dataHolds⟩
  subst hmode
  cases hopen : openOrCreate codec inst.rangeMap.file inst.config.blob
      inst.config.fetch.unitBytes faults old with
  | mk res file =>
    cases res with
    | error err =>
      cases file with
      | none => exact ⟨hd, trivial⟩
      | some f => exact ⟨hd' f, trivial⟩
    | ok opened =>
      obtain ⟨f, rfl, hslots⟩ := openOrCreate_slots hm hopen
      have hfile (k : ℕ) (hk : k < inst.rangeMap.slotCount)
          (hbyte : (Function.update disk inst.rangeMap.file f inst.rangeMap.file).byte
            (headerSize + k) ≠ 0) : opened.slots.getD k 0 ≠ 0 := by
        rwa [Function.update_self, hslots.slot k hk] at hbyte
      cases hrecovery : opened.needsRecovery with
      | true =>
        have hmode : inst.afterOpen disk (.ok opened, some f) = (.recovering
            { disk := Function.update disk inst.rangeMap.file f, slots := opened.slots,
              inflight := [] } (startRecovery opened.slots) : Mode τ) := by
          simp only [afterOpen, hrecovery, ↓reduceIte]
        rw [hmode]
        exact ⟨hd' f, RecoverySound.start (hd' f).dataHolds hslots.length_slots hfile⟩
      | false =>
        have hclear := hslots.clear hrecovery
        have hmode : inst.afterOpen disk (.ok opened, some f) = (.up
            ⟨{ disk := Function.update disk inst.rangeMap.file f, slots := opened.slots,
               inflight := [] }, fun _ => .idle⟩ : Mode τ) := by
          simp only [afterOpen, hrecovery, Bool.false_eq_true, ↓reduceIte]
        rw [hmode]
        refine ⟨hd' f, ⟨hslots.length_slots, fun k hk => absurd (hclear k) hk, fun k hk => ?_⟩,
          fun _ => ⟨trivial, trivial, trivial⟩⟩
        rcases lt_or_ge k inst.rangeMap.slotCount with hlt | hge
        · exact absurd (hclear k) (hfile k hlt hk)
        · exact slotHolds_of_le hge

/-- A step of a call keeps the invariant. -/
theorem modeSound_task {τ : Type*} [DecidableEq τ] (hne : inst.target ≠ inst.rangeMap.file)
    {block : ℕ} (hblock : block ∣ bitmapUnitBytes) {c c' : TaskSystem.Config Shared TaskState τ}
    {t : τ} {e : Event} (hd : inst.TargetSound blob block c.shared.disk)
    (hc : inst.ModeSound blob block (.up c)) (hhonest : Honest blob (c.task t) e)
    (hok : Blockwise block (c.task t) e) (h : inst.tasks.fire c t e = some c') :
    inst.TargetSound blob block c'.shared.disk ∧ inst.ModeSound blob block (.up c') := by
  obtain ⟨s', l', hstep, rfl⟩ := TaskSystem.fire_eq_some.mp h
  obtain ⟨hs, htasks⟩ := hc
  obtain ⟨hshape, hsound, haligned⟩ := htasks t
  obtain ⟨hs', hl', hkeep⟩ := sound_step hne hs hshape hsound hhonest hstep
  obtain ⟨hd', haligned'⟩ := dataHolds_step hne hblock hd hshape hsound haligned hok hstep
  refine ⟨hd', hs', fun u => ?_⟩
  change inst.TaskShape (Function.update c.task t l' u) ∧
    inst.TaskSound blob s'.disk (Function.update c.task t l' u) ∧
    TaskAligned block (Function.update c.task t l' u)
  by_cases hu : u = t
  · subst hu
    rw [Function.update_self]
    exact ⟨taskShape_step hshape hstep, hl', haligned'⟩
  · rw [Function.update_of_ne hu]
    obtain ⟨hshape', hsound', haligned'⟩ := htasks u
    exact ⟨hshape', hsound'.mono hkeep, haligned'⟩

/-- **A step keeps the invariant of the machine.** -/
theorem machineSound_step {τ : Type*} [DecidableEq τ] (hne : inst.target ≠ inst.rangeMap.file)
    {block : ℕ} (hblock : block ∣ bitmapUnitBytes) {m m' : Machine τ}
    (h : inst.MachineSound blob block m) (hstep : inst.SessionStep codec blob m m') :
    inst.MachineSound blob block m' := by
  obtain ⟨hstable, hcurrent, hmode⟩ := h
  cases hstep with
  | opened faults hold hstable' =>
    obtain ⟨hcurrent', hmode'⟩ := machineSound_afterOpen hne hcurrent faults _ rfl
    refine ⟨?_, hcurrent', hmode'⟩
    rcases hstable' with rfl | rfl
    · exact hstable
    · exact hcurrent
  | recovery hrec =>
    have htarget := recoveryStep_target hne hrec
    exact ⟨hstable, ⟨(congrArg SparseFile.block htarget).trans hcurrent.block_eq,
      (recoverySound_step hne hmode hrec).dataHolds⟩, recoverySound_step hne hmode hrec⟩
  | recovered => exact ⟨hstable, hcurrent, hmode.slotsSound, fun _ => ⟨trivial, trivial, trivial⟩⟩
  | recoveryFailed => exact ⟨hstable, hcurrent, trivial⟩
  | @task stable c c' t e hhonest hok hfire =>
    have hblockEq : (c.shared.disk inst.target).block = block := hcurrent.block_eq
    rw [hblockEq] at hok
    obtain ⟨hcurrent', hmode'⟩ := modeSound_task hne hblock hcurrent hmode hhonest hok hfire
    exact ⟨hstable, hcurrent', hmode'⟩
  | closed => exact ⟨hstable, hcurrent, trivial⟩
  | @crash m disk hcrash =>
    have hsame : (m.stable inst.target).block = (m.mode.disk inst.target).block :=
      hstable.block_eq.trans hcurrent.block_eq.symm
    have hsurvives : inst.TargetSound blob block disk :=
      ⟨hcrash.1.trans hcurrent.block_eq,
        hstable.dataHolds.crashed hcurrent.dataHolds hsame hcrash⟩
    exact ⟨hsurvives, hsurvives, trivial⟩

/-- The invariant holds in every run from a target of holes. -/
theorem machineSound_run {τ : Type*} [DecidableEq τ] (hne : inst.target ≠ inst.rangeMap.file)
    {disk : Disk} (hblock : (disk inst.target).block ∣ bitmapUnitBytes)
    (hholes : ∀ b, (disk inst.target).data b = false) {m : Machine τ}
    (hrun : Relation.ReflTransGen (inst.SessionStep codec blob) ⟨disk, .down disk⟩ m) :
    inst.MachineSound blob (disk inst.target).block m := by
  have hstart : inst.TargetSound blob (disk inst.target).block disk :=
    ⟨rfl, SparseFile.dataHolds_of_holes hholes blob inst.blobSize⟩
  induction hrun with
  | refl => exact ⟨hstart, hstart, trivial⟩
  | tail _ hstep ih => exact machineSound_step hne hblock ih hstep

/-- **Crash soundness of recovery.** Let the target start as all holes, with blocks whose size
divides 1 MiB. After any number of sessions and crashes, at whatever step these happen, every slot
that is ready while the instance is open has its whole range in the target. -/
theorem recovered_slots_sound {τ : Type*} [DecidableEq τ] (hne : inst.target ≠ inst.rangeMap.file)
    {disk : Disk} (hblock : (disk inst.target).block ∣ bitmapUnitBytes)
    (hholes : ∀ b, (disk inst.target).data b = false) {m : Machine τ}
    (hrun : Relation.ReflTransGen (inst.SessionStep codec blob) ⟨disk, .down disk⟩ m)
    {c : TaskSystem.Config Shared TaskState τ} (hup : m.mode = .up c) :
    inst.SlotsSound blob c.shared := by
  have hmode := (machineSound_run hne hblock hholes hrun).mode
  rw [hup] at hmode
  exact hmode.1

/-! ### A crash after a fetch -/

theorem step_block {s s' : Shared} {l l' : TaskState} {e : Event}
    (h : inst.step s l e = some (s', l')) :
    (s'.disk inst.target).block = (s.disk inst.target).block := by
  cases Effect.of_step h with
  | wrote => exact Disk.write_block _ _ _ _ _
  | marked => exact Disk.write_block _ _ _ _ _
  | _ => rfl

/-- The runs of the open instance are runs of the machine. -/
theorem sessionSteps_of_run {τ : Type*} [DecidableEq τ] {stable : Disk} {block : ℕ}
    {c c' : TaskSystem.Config Shared TaskState τ} {ls : List (τ × Event)}
    (hblock : (c.shared.disk inst.target).block = block)
    (h : inst.tasks.Run (fun l e => Honest blob l e ∧ Blockwise block l e) c ls c') :
    Relation.ReflTransGen (inst.SessionStep codec blob) ⟨stable, .up c⟩ ⟨stable, .up c'⟩ := by
  suffices hinv : (c'.shared.disk inst.target).block = block ∧
      Relation.ReflTransGen (inst.SessionStep codec blob) ⟨stable, .up c⟩ ⟨stable, .up c'⟩ from
    hinv.2
  induction h with
  | nil => exact ⟨hblock, .refl⟩
  | snoc _ hok hfire ih =>
    obtain ⟨hsame, hsteps⟩ := ih
    obtain ⟨s', l', hstep, rfl⟩ := TaskSystem.fire_eq_some.mp hfire
    rw [← hsame] at hok
    exact ⟨(step_block hstep).trans hsame, hsteps.tail (.task hok.1 hok.2 hfire)⟩

/-- Steps that are neither a reply with other bytes nor a write. -/
theorem soloOk_blockwise {b : UInt8} (block : ℕ) {es : List Event}
    (hreply : ∀ bytes, .reply (.ok bytes) ∈ es → bytes = List.replicate bytes.length b)
    (hwrote : ∀ n, .wrote (.ok n) ∉ es) (s : Shared) (l : TaskState) :
    inst.tasks.SoloOk (fun l e => Honest (fun _ => b) l e ∧ Blockwise block l e) s l es := by
  refine TaskSystem.soloOk_of_forall (fun e he l => ⟨?_, ?_⟩) s l
  · exact honest_of_replicate (fun bytes heq => hreply bytes (heq ▸ he)) l
  · unfold Blockwise
    split
    · exact absurd he (hwrote _)
    · trivial

/-- A target of three bytes and nothing else. -/
def smallDisk : Disk := fun _ => newFile.setLen 3

/-- The fetch of one byte of `smallInstance`, on any files. -/
theorem run_smallInstance (d : Disk) :
    ∃ ls, smallInstance.tasks.Run (fun l e => Honest (fun _ => 7) l e ∧ Blockwise 4096 l e)
      ⟨⟨d, [0], []⟩, fun _ : ℕ => .idle⟩ ls
      ⟨⟨(d.write ⟨1, 1⟩ 0 [7, 7, 7]).write ⟨1, 2⟩ headerSize [1], [1], []⟩,
        Function.update (fun _ => .idle) 0 (.returned (.ensureRange 1 1) .ok)⟩ := by
  have hread : smallInstance.tasks.solo ⟨d, [0], []⟩ .idle
      [.call (.ensureRange 1 1), .check, .reserve, .recheck, .reply (.ok [7, 7, 7])] =
      some (⟨d, [0], [⟨0, 3⟩]⟩,
        .running (.ensureRange 1 1) 1 1 (.holding ⟨0, 3⟩ (.writing [7, 7, 7] 0))) := rfl
  have hwrite : smallInstance.tasks.solo ⟨d, [0], [⟨0, 3⟩]⟩
      (.running (.ensureRange 1 1) 1 1 (.holding ⟨0, 3⟩ (.writing [7, 7, 7] 0))) [.wrote (.ok 3)] =
      some (⟨d.write ⟨1, 1⟩ 0 [7, 7, 7], [0], [⟨0, 3⟩]⟩,
        .running (.ensureRange 1 1) 1 1 (.holding ⟨0, 3⟩ (.marking 0 1 0))) := rfl
  have hmark : smallInstance.tasks.solo ⟨d.write ⟨1, 1⟩ 0 [7, 7, 7], [0], [⟨0, 3⟩]⟩
      (.running (.ensureRange 1 1) 1 1 (.holding ⟨0, 3⟩ (.marking 0 1 0)))
      [.marked (.ok 1), .fill, .release] =
      some (⟨(d.write ⟨1, 1⟩ 0 [7, 7, 7]).write ⟨1, 2⟩ headerSize [1], [1], []⟩,
        .returned (.ensureRange 1 1) .ok) := rfl
  let c : TaskSystem.Config Shared TaskState ℕ := ⟨⟨d, [0], []⟩, fun _ => .idle⟩
  have hrun := TaskSystem.Run.of_solo (c := c) (t := 0)
    (soloOk_blockwise (b := 7) 4096 (by simp) (by simp) _ _) hread
  have hok : smallInstance.tasks.SoloOk (fun l e => Honest (fun _ => 7) l e ∧ Blockwise 4096 l e)
      ⟨d, [0], [⟨0, 3⟩]⟩ (.running (.ensureRange 1 1) 1 1 (.holding ⟨0, 3⟩ (.writing [7, 7, 7] 0)))
      [.wrote (.ok 3)] := ⟨⟨trivial, Or.inr rfl⟩, fun _ _ _ => trivial⟩
  have hrun' := hrun.append (TaskSystem.Run.of_solo (t := 0) hok hwrite)
  have hrun'' := hrun'.append (TaskSystem.Run.of_solo (t := 0)
    (soloOk_blockwise (b := 7) 4096 (by simp) (by simp) _ _) hmark)
  rw [Function.update_idem, Function.update_idem] at hrun''
  exact ⟨_, hrun''⟩

/-- Recovery finds the fetched bytes of `smallInstance`. -/
theorem recoveryStep_smallInstance {d : Disk}
    (h : d smallInstance.target = (smallDisk smallInstance.target).writeAt 0 [7, 7, 7]) :
    smallInstance.recoveryStep ⟨d, [1], []⟩ (startRecovery [1]) (.probe none none) =
      some (⟨d, [1], []⟩, .recovered) := by
  have hslot : smallInstance.rangeMap.slotRange 0 = .ok (0, 3) := rfl
  have hpresent : rangeIsPresent (d smallInstance.target) 0 3 none none = .ok true := by
    rw [h]
    rfl
  have hstart : startRecovery [1] = .scanning 0 [] .probing := rfl
  simp only [hstart, recoveryStep, hslot, hpresent, probed, nextSlot]

/-- A fetch, a crash that loses nothing, and the recovery after it, which finds the slot ready. -/
theorem recovered_slots_sound_smallInstance :
    ∃ (m : Machine ℕ) (c : TaskSystem.Config Shared TaskState ℕ),
      Relation.ReflTransGen (smallInstance.SessionStep headerJson fun _ => 7)
        ⟨smallDisk, .down smallDisk⟩ m ∧
      m.mode = .up c ∧ c.shared.slots = [1] ∧
      (c.shared.disk smallInstance.target).Holds (fun _ => 7) 0 3 := by
  obtain ⟨buf, hbuf⟩ := exists_encodeHeader (encodeHeader_small newBlob (by decide))
  have hm := smallInstance.rangeMap.geometry_self smallInstance.blobSize_eq
    smallInstance.unitBytes_eq
  let d₁ : Disk := Function.update smallDisk ⟨1, 2⟩ (resetFile newFile 1 buf headerSize 1)
  let d₂ : Disk := (d₁.write ⟨1, 1⟩ 0 [7, 7, 7]).write ⟨1, 2⟩ headerSize [1]
  let d₃ : Disk := Function.update d₂ ⟨1, 2⟩ (readyFile buf)
  have hcreate : openOrCreate headerJson smallInstance.rangeMap.file smallInstance.config.blob
      smallInstance.config.fetch.unitBytes {} none =
        (.ok ⟨smallInstance.rangeMap, [0], false⟩, some (d₁ ⟨1, 2⟩)) := openOrCreate_none hm hbuf
  have hslots : readSlots (readyFile buf) 1 = .ok [1] := by
    have hlen : headerSize + 1 ≤ (readyFile buf).len := by
      refine le_trans ?_ (SparseFile.len_le_writeAt_len _ _ _)
      rw [resetFile_len newFile (length_encodeHeader hbuf) (Nat.le_refl 1)]
    rw [readSlots_of_len_le hlen]
    rfl
  have hopen : openOrCreate headerJson smallInstance.rangeMap.file smallInstance.config.blob
      smallInstance.config.fetch.unitBytes {} (some (d₂ smallInstance.rangeMap.file)) =
        (.ok ⟨smallInstance.rangeMap, [1], true⟩, some (readyFile buf)) :=
    openOrCreate_of_ok hm (readHeader_readyFile hbuf) hslots
  obtain ⟨ls, hrun⟩ := run_smallInstance d₁
  have hcreated : smallInstance.SessionStep headerJson (fun _ => 7)
      ⟨smallDisk, .down smallDisk⟩ ⟨smallDisk, .up ⟨⟨d₁, [0], []⟩, fun _ : ℕ => .idle⟩⟩ := by
    have hstep : smallInstance.SessionStep headerJson (fun _ => 7) ⟨smallDisk, .down smallDisk⟩
        (⟨smallDisk, smallInstance.afterOpen smallDisk _⟩ : Machine ℕ) :=
      .opened {} (Or.inl rfl) (Or.inl rfl)
    rwa [hcreate] at hstep
  have hcrash : smallInstance.SessionStep headerJson (fun _ => 7)
      ⟨smallDisk, .up ⟨⟨d₂, [1], []⟩, Function.update (fun _ : ℕ => .idle) 0
        (.returned (.ensureRange 1 1) .ok)⟩⟩ ⟨d₂, .down d₂⟩ :=
    .crash (SparseFile.crashed_refl _ _)
  have hopened : smallInstance.SessionStep headerJson (fun _ => 7) ⟨d₂, .down d₂⟩
      (⟨d₂, .recovering ⟨d₃, [1], []⟩ (startRecovery [1])⟩ : Machine ℕ) := by
    have hstep : smallInstance.SessionStep headerJson (fun _ => 7) ⟨d₂, .down d₂⟩
        (⟨d₂, smallInstance.afterOpen d₂ _⟩ : Machine ℕ) := .opened {} (Or.inr rfl) (Or.inl rfl)
    rwa [hopen] at hstep
  have hsteps : Relation.ReflTransGen (smallInstance.SessionStep headerJson fun _ => 7)
      ⟨smallDisk, .down smallDisk⟩ ⟨d₂, .up ⟨⟨d₃, [1], []⟩, fun _ : ℕ => .idle⟩⟩ :=
    (((((Relation.ReflTransGen.single hcreated).trans (sessionSteps_of_run rfl hrun)).tail
      hcrash).tail hopened).tail (.recovery (recoveryStep_smallInstance rfl))).tail .recovered
  have hsound := recovered_slots_sound (by decide) (by decide) (fun _ => rfl) hsteps rfl
  exact ⟨_, _, hsteps, rfl, rfl, hsound.memory 0 (by decide : (1 : UInt8) ≠ 0) 0 3 rfl⟩

end Instance

end Lazyd
