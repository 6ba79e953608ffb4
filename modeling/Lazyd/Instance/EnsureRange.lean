import Lazyd.Instance.Config
import Lazyd.Library.TaskSystem

/-!
# Fetching ranges: the tasks of one instance

`Instance::ensure_range` and `Instance::prepare_fetch_range` as a task system. A task is one call;
its local state says where in the source it stands. A step is what happens between two points where
another task may run: the readiness check, one attempt to reserve a range, the check after it, the
answer of the remote, each write to the target, each write to the bitmap file, the update of the
slots in memory, the release of the reservation. What the environment answers in a step is in the
event: the reply of the remote, the result of a write, a cancellation at an await.

## Main definitions

* `Instance.Shared`, `Instance.TaskState`, `Instance.Event`.
* `Instance.step`, `Instance.tasks` : the step of a task and the task system of an instance.
* `Instance.Honest` : the remote answers a read of the right length with the bytes of the blob.

## Main results

* `Instance.Effect.of_step` : everything that a step can do.

Source: `src/instance.rs`, lines 96–108, 229–305 and 321–352; `src/range_map.rs`, lines 104–148.
-/

namespace Lazyd

namespace Instance

/-- What the tasks of an instance share. -/
structure Shared where
  disk : Disk
  /-- the slot bytes of the range map in memory -/
  slots : List UInt8
  /-- the ranges being fetched -/
  inflight : List Range

/-- A call that a task makes. -/
inductive Call where
  | ensureRange (offset len : ℕ)
  | prepareFetchRange (offset len pageSize : ℕ)
  deriving DecidableEq, Repr

/-- How a call ends. -/
inductive Outcome where
  | ok
  | err (err : Error)
  | cancelled
  deriving DecidableEq, Repr

/-- Where `ensure_range` stands while its `InflightGuard` is alive. -/
inductive Phase where
  /-- before the second readiness check -/
  | recheck
  /-- awaiting the remote -/
  | reading
  /-- in the loop of `write_all_at` -/
  | writing (bytes : List UInt8) (written : ℕ)
  /-- in the write of `update_range` to the bitmap file -/
  | marking (slotStart slotEnd done : ℕ)
  /-- before the update of the slots in memory -/
  | filling (slotStart slotEnd : ℕ)
  /-- before the guard is dropped -/
  | releasing (out : Outcome)
  deriving DecidableEq, Repr

/-- Where `ensure_range` stands. -/
inductive Pc where
  | entered
  /-- in the loop of `reserve_inflight` -/
  | reserving (range : Range)
  | holding (range : Range) (phase : Phase)
  /-- before the target's handle is cloned for the answer to a fetch -/
  | cloning
  deriving DecidableEq, Repr

/-- The local state of a task: the call and the arguments of the `ensure_range` it makes. -/
inductive TaskState where
  | idle
  | running (call : Call) (offset len : ℕ) (pc : Pc)
  | returned (call : Call) (out : Outcome)
  deriving DecidableEq, Repr

/-- `FetchRange` -/
structure FetchRange where
  off : ℕ
  len : ℕ
  devOff : ℕ
  deriving DecidableEq, Repr

/-- The range that a successful `prepare_fetch_range` returns. -/
def TaskState.fetched : TaskState → Option FetchRange
  | .returned (.prepareFetchRange offset len _) .ok => some { off := offset, len, devOff := offset }
  | _ => none

/-- A step of a task, with the answer of the environment. -/
inductive Event where
  | call (call : Call)
  | check
  | reserve
  | recheck
  | reply (res : Except Error (List UInt8))
  /-- one `write_at` on the target -/
  | wrote (res : Except IoError ℕ)
  /-- one `write_at` on the bitmap file -/
  | marked (res : Except IoError ℕ)
  | fill
  | release
  /-- `try_clone` on the target -/
  | clone (res : Except IoError Unit)
  /-- the future is dropped at an await -/
  | cancel

variable (inst : Instance)

/-- The checks of `prepare_fetch_range`; the length of the range inside the blob. -/
def fetchRealLen (offset len pageSize : ℕ) : Except Error ℕ :=
  if pageSize = 0 then .error (.badRequest "page size must be greater than zero")
  else if len = 0 then .error (.badRequest "fetch len must be greater than zero")
  else if offset % pageSize ≠ 0 ∨ len % pageSize ≠ 0 then
    .error (.badRequest "fetch off and len must be page-aligned")
  else
    match U64.checkedAdd offset len with
    | none => .error (.badRequest "range overflows u64")
    | some endPos =>
      let blobPageEnd := U64.mul (U64.divCeil inst.blobSize pageSize) pageSize
      if inst.blobSize ≤ offset ∨ blobPageEnd < endPos then
        .error (.badRequest "fetch range exceeds lazy blob tail page")
      else .ok (U64.sub (min inst.blobSize endPos) offset)

/-- A call up to the entry of `ensure_range`. -/
def enter : Call → TaskState
  | .ensureRange offset len => .running (.ensureRange offset len) offset len .entered
  | .prepareFetchRange offset len pageSize =>
    match inst.fetchRealLen offset len pageSize with
    | .error err => .returned (.prepareFetchRange offset len pageSize) (.err err)
    | .ok realLen => .running (.prepareFetchRange offset len pageSize) offset realLen .entered

/-- `ensure_range` has ended; a successful fetch still clones the handle of the target. -/
def finish : Call → ℕ → ℕ → Outcome → TaskState
  | .prepareFetchRange off n pageSize, offset, len, .ok =>
    .running (.prepareFetchRange off n pageSize) offset len .cloning
  | call, _, _, out => .returned call out

/-- `ensure_range` up to the loop of `reserve_inflight`. -/
def firstCheck (slots : List UInt8) (call : Call) (offset len : ℕ) : TaskState :=
  if len = 0 then finish call offset len .ok
  else
    match U64.checkedAdd offset len with
    | none => finish call offset len (.err (.badRequest "range overflows u64"))
    | some endPos =>
      if inst.blobSize < endPos then
        finish call offset len (.err (.badRequest "range exceeds blob size"))
      else if inst.trusted = false then
        finish call offset len (.err (.remote "instance is not trusted"))
      else if inst.rangeMap.isRangeReady slots offset len then finish call offset len .ok
      else
        match inst.amplifyToFetchUnit offset len with
        | .error err => finish call offset len (.err err)
        | .ok range => .running call offset len (.reserving range)

/-- `set_range_ready` up to its write to the bitmap file. -/
def startMark (range : Range) : Phase :=
  match inst.rangeMap.slotsForRange range.offset range.len with
  | .error err => .releasing (.err err)
  | .ok (slotStart, slotEnd) =>
    if slotStart = slotEnd then .releasing .ok else .marking slotStart slotEnd 0

/-- The loop condition of `write_all_at` on the target. -/
def afterWrite (range : Range) (bytes : List UInt8) (written : ℕ) : Phase :=
  if written < bytes.length then .writing bytes written else inst.startMark range

/-- The remote has answered. -/
def received (range : Range) : Except Error (List UInt8) → Phase
  | .error err => .releasing (.err err)
  | .ok bytes =>
    if bytes.length ≠ range.len then
      .releasing (.err (.remote
        ("remote returned " ++ toString bytes.length ++ " bytes, expected " ++
          toString range.len)))
    else inst.afterWrite range bytes 0

/-- The loop condition of the write to the bitmap file. -/
def afterMark (slotStart slotEnd done : ℕ) : Phase :=
  if done < slotEnd - slotStart then .marking slotStart slotEnd done
  else .filling slotStart slotEnd

/-- One `write_at` of the loop of `write_all_at`, of `n` bytes. -/
def writeTarget (s : Shared) (range : Range) (bytes : List UInt8) (written n : ℕ) : Shared :=
  let chunk := (bytes.drop written).take n
  { s with disk := s.disk.write inst.target (range.offset + written) chunk }

/-- One `write_at` of the loop of `update_range` on the bitmap file, of `n` slots. -/
def writeMarks (s : Shared) (value : UInt8) (slotStart done n : ℕ) : Shared :=
  let marks := List.replicate n value
  { s with disk := s.disk.write inst.rangeMap.file (headerSize + slotStart + done) marks }

/-- One step of a task. -/
def step (s : Shared) : TaskState → Event → Option (Shared × TaskState)
  | .idle, .call call => some (s, inst.enter call)
  | .running call offset len .entered, .check =>
    some (s, inst.firstCheck s.slots call offset len)
  | .running call offset len (.reserving range), .reserve =>
    -- refused while an overlapping range is in flight: sleep and try again
    if s.inflight.any fun item => item.overlaps range then
      some (s, .running call offset len (.reserving range))
    else
      some ({ s with inflight := s.inflight ++ [range] },
        .running call offset len (.holding range .recheck))
  | .running call _ _ (.reserving _), .cancel => some (s, .returned call .cancelled)
  | .running call offset len (.holding range .recheck), .recheck =>
    some (s, .running call offset len (.holding range
      (if inst.rangeMap.isRangeReady s.slots offset len then .releasing .ok else .reading)))
  | .running call offset len (.holding range .reading), .reply res =>
    some (s, .running call offset len (.holding range (inst.received range res)))
  | .running call offset len (.holding range .reading), .cancel =>
    some (s, .running call offset len (.holding range (.releasing .cancelled)))
  | .running call offset len (.holding range (.writing bytes written)), .wrote res =>
    match res with
    | .error err =>
      some (s, .running call offset len (.holding range (.releasing (.err (.io err)))))
    | .ok n =>
      if bytes.length - written < n then none
      else if n = 0 then
        some (s, .running call offset len (.holding range
          (.releasing (.err (.io (.writeZero "failed to write target_path"))))))
      else
        some (inst.writeTarget s range bytes written n,
          .running call offset len (.holding range (inst.afterWrite range bytes (written + n))))
  | .running call offset len (.holding range (.marking slotStart slotEnd done)), .marked res =>
    match res with
    | .error err =>
      if err.isInterrupted then
        some (s, .running call offset len (.holding range (.marking slotStart slotEnd done)))
      else some (s, .running call offset len (.holding range (.releasing (.err (.io err)))))
    | .ok n =>
      if slotEnd - slotStart - done < n then none
      else if n = 0 then
        some (s, .running call offset len (.holding range
          (.releasing (.err (.io (.writeZero "failed to write whole buffer"))))))
      else
        some (inst.writeMarks s 1 slotStart done n,
          .running call offset len (.holding range (afterMark slotStart slotEnd (done + n))))
  | .running call offset len (.holding range (.filling slotStart slotEnd)), .fill =>
    some ({ s with slots := fillSlots s.slots slotStart slotEnd 1 },
      .running call offset len (.holding range (.releasing .ok)))
  | .running call offset len (.holding range (.releasing out)), .release =>
    some ({ s with inflight := s.inflight.filter fun item => item ≠ range },
      finish call offset len out)
  | .running call _ _ .cloning, .clone res =>
    match res with
    | .error err => some (s, .returned call (.err (.io err)))
    | .ok () => some (s, .returned call .ok)
  | _, _ => none

/-- The task system of the calls on one instance. -/
def tasks : TaskSystem Shared TaskState Event := ⟨inst.step⟩

/-- The remote answers a read of the right length with the bytes of the blob; it may also fail or
answer with another number of bytes. -/
def Honest (blob : ℕ → UInt8) : TaskState → Event → Prop
  | .running _ _ _ (.holding range .reading), .reply (.ok bytes) =>
    bytes.length = range.len → SparseFile.Agrees blob range.offset bytes
  | _, _ => True

section Writes

variable (s : Shared) (range : Range) (bytes : List UInt8) (value : UInt8)
  (written slotStart done n : ℕ)

theorem writeTarget_disk : (inst.writeTarget s range bytes written n).disk =
    s.disk.write inst.target (range.offset + written) ((bytes.drop written).take n) := rfl

theorem writeMarks_disk : (inst.writeMarks s value slotStart done n).disk =
    s.disk.write inst.rangeMap.file (headerSize + slotStart + done) (List.replicate n value) := rfl

end Writes

/-! ### What a step can do -/

/-- The effects of a step, one constructor for each branch of `step`. -/
inductive Effect (s : Shared) : TaskState → Event → Shared → TaskState → Prop
  | call (call : Call) : Effect s .idle (.call call) s (inst.enter call)
  | check (call : Call) (offset len : ℕ) :
      Effect s (.running call offset len .entered) .check s
        (inst.firstCheck s.slots call offset len)
  | refused (call : Call) (offset len : ℕ) (range : Range)
      (h : (s.inflight.any fun item => item.overlaps range) = true) :
      Effect s (.running call offset len (.reserving range)) .reserve s
        (.running call offset len (.reserving range))
  | reserved (call : Call) (offset len : ℕ) (range : Range)
      (h : (s.inflight.any fun item => item.overlaps range) = false) :
      Effect s (.running call offset len (.reserving range)) .reserve
        { s with inflight := s.inflight ++ [range] }
        (.running call offset len (.holding range .recheck))
  | cancelWaiting (call : Call) (offset len : ℕ) (range : Range) :
      Effect s (.running call offset len (.reserving range)) .cancel s (.returned call .cancelled)
  | recheck (call : Call) (offset len : ℕ) (range : Range) :
      Effect s (.running call offset len (.holding range .recheck)) .recheck s
        (.running call offset len (.holding range
          (if inst.rangeMap.isRangeReady s.slots offset len then .releasing .ok else .reading)))
  | reply (call : Call) (offset len : ℕ) (range : Range) (res : Except Error (List UInt8)) :
      Effect s (.running call offset len (.holding range .reading)) (.reply res) s
        (.running call offset len (.holding range (inst.received range res)))
  | cancelReading (call : Call) (offset len : ℕ) (range : Range) :
      Effect s (.running call offset len (.holding range .reading)) .cancel s
        (.running call offset len (.holding range (.releasing .cancelled)))
  | writeFailed (call : Call) (offset len : ℕ) (range : Range) (bytes : List UInt8) (written : ℕ)
      (res : Except IoError ℕ) (err : Error) (h : ∀ n, res = .ok n → n = 0) :
      Effect s (.running call offset len (.holding range (.writing bytes written))) (.wrote res) s
        (.running call offset len (.holding range (.releasing (.err err))))
  | wrote (call : Call) (offset len : ℕ) (range : Range) (bytes : List UInt8) (written n : ℕ)
      (hn : 0 < n) (hle : n ≤ bytes.length - written) :
      Effect s (.running call offset len (.holding range (.writing bytes written)))
        (.wrote (.ok n)) (inst.writeTarget s range bytes written n)
        (.running call offset len (.holding range (inst.afterWrite range bytes (written + n))))
  | markRetry (call : Call) (offset len : ℕ) (range : Range) (slotStart slotEnd done : ℕ)
      (err : IoError) (h : err.isInterrupted = true) :
      Effect s (.running call offset len (.holding range (.marking slotStart slotEnd done)))
        (.marked (.error err)) s
        (.running call offset len (.holding range (.marking slotStart slotEnd done)))
  | markFailed (call : Call) (offset len : ℕ) (range : Range) (slotStart slotEnd done : ℕ)
      (res : Except IoError ℕ) (err : Error) (h : ∀ n, res = .ok n → n = 0) :
      Effect s (.running call offset len (.holding range (.marking slotStart slotEnd done)))
        (.marked res) s
        (.running call offset len (.holding range (.releasing (.err err))))
  | marked (call : Call) (offset len : ℕ) (range : Range) (slotStart slotEnd done n : ℕ)
      (hn : 0 < n) (hle : n ≤ slotEnd - slotStart - done) :
      Effect s (.running call offset len (.holding range (.marking slotStart slotEnd done)))
        (.marked (.ok n)) (inst.writeMarks s 1 slotStart done n)
        (.running call offset len (.holding range (afterMark slotStart slotEnd (done + n))))
  | fill (call : Call) (offset len : ℕ) (range : Range) (slotStart slotEnd : ℕ) :
      Effect s (.running call offset len (.holding range (.filling slotStart slotEnd))) .fill
        { s with slots := fillSlots s.slots slotStart slotEnd 1 }
        (.running call offset len (.holding range (.releasing .ok)))
  | release (call : Call) (offset len : ℕ) (range : Range) (out : Outcome) :
      Effect s (.running call offset len (.holding range (.releasing out))) .release
        { s with inflight := s.inflight.filter fun item => item ≠ range }
        (finish call offset len out)
  | clone (call : Call) (offset len : ℕ) (res : Except IoError Unit) (out : Outcome)
      (h : out = .cancelled → False) (hok : out = .ok → res = .ok ()) :
      Effect s (.running call offset len .cloning) (.clone res) s (.returned call out)

variable {inst}

theorem honest_of_replicate {b : UInt8} {e : Event}
    (h : ∀ bytes, e = .reply (.ok bytes) → bytes = List.replicate bytes.length b) (l : TaskState) :
    Honest (fun _ => b) l e := by
  unfold Honest
  split
  · rename_i bytes
    intro _ i hi
    rw [h bytes rfl, List.getElem?_replicate, if_pos hi]
  · trivial

theorem soloOk_honest {b : UInt8} {es : List Event}
    (h : ∀ bytes, .reply (.ok bytes) ∈ es → bytes = List.replicate bytes.length b) (s : Shared)
    (l : TaskState) : inst.tasks.SoloOk (Honest fun _ => b) s l es :=
  TaskSystem.soloOk_of_forall
    (fun _ he l => honest_of_replicate (fun bytes heq => h bytes (heq ▸ he)) l) s l

/-- **Step inversion.** Every step is one of the effects. -/
theorem Effect.of_step {s s' : Shared} {l l' : TaskState} {e : Event}
    (h : inst.step s l e = some (s', l')) : inst.Effect s l e s' l' := by
  unfold step at h
  split at h
  · obtain ⟨rfl, rfl⟩ := Prod.mk.inj (Option.some.inj h)
    exact .call _
  · obtain ⟨rfl, rfl⟩ := Prod.mk.inj (Option.some.inj h)
    exact .check _ _ _
  · split_ifs at h with hany
    · obtain ⟨rfl, rfl⟩ := Prod.mk.inj (Option.some.inj h)
      exact .refused _ _ _ _ hany
    · obtain ⟨rfl, rfl⟩ := Prod.mk.inj (Option.some.inj h)
      exact .reserved _ _ _ _ (Bool.eq_false_iff.mpr hany)
  · obtain ⟨rfl, rfl⟩ := Prod.mk.inj (Option.some.inj h)
    exact .cancelWaiting _ _ _ _
  · obtain ⟨rfl, rfl⟩ := Prod.mk.inj (Option.some.inj h)
    exact .recheck _ _ _ _
  · obtain ⟨rfl, rfl⟩ := Prod.mk.inj (Option.some.inj h)
    exact .reply _ _ _ _ _
  · obtain ⟨rfl, rfl⟩ := Prod.mk.inj (Option.some.inj h)
    exact .cancelReading _ _ _ _
  · split at h
    · obtain ⟨rfl, rfl⟩ := Prod.mk.inj (Option.some.inj h)
      exact .writeFailed _ _ _ _ _ _ _ _ (by simp)
    · split_ifs at h with hle hzero
      · obtain ⟨rfl, rfl⟩ := Prod.mk.inj (Option.some.inj h)
        exact .writeFailed _ _ _ _ _ _ _ _ (by simp [hzero])
      · obtain ⟨rfl, rfl⟩ := Prod.mk.inj (Option.some.inj h)
        exact .wrote _ _ _ _ _ _ _ (Nat.pos_of_ne_zero hzero) (not_lt.mp hle)
  · split at h
    · split_ifs at h with hinterrupted
      · obtain ⟨rfl, rfl⟩ := Prod.mk.inj (Option.some.inj h)
        exact .markRetry _ _ _ _ _ _ _ _ hinterrupted
      · obtain ⟨rfl, rfl⟩ := Prod.mk.inj (Option.some.inj h)
        exact .markFailed _ _ _ _ _ _ _ _ _ (by simp)
    · split_ifs at h with hle hzero
      · obtain ⟨rfl, rfl⟩ := Prod.mk.inj (Option.some.inj h)
        exact .markFailed _ _ _ _ _ _ _ _ _ (by simp [hzero])
      · obtain ⟨rfl, rfl⟩ := Prod.mk.inj (Option.some.inj h)
        exact .marked _ _ _ _ _ _ _ _ (Nat.pos_of_ne_zero hzero) (not_lt.mp hle)
  · obtain ⟨rfl, rfl⟩ := Prod.mk.inj (Option.some.inj h)
    exact .fill _ _ _ _ _ _
  · obtain ⟨rfl, rfl⟩ := Prod.mk.inj (Option.some.inj h)
    exact .release _ _ _ _ _
  · split at h
    · obtain ⟨rfl, rfl⟩ := Prod.mk.inj (Option.some.inj h)
      exact .clone _ _ _ _ _ (by simp) (by simp)
    · obtain ⟨rfl, rfl⟩ := Prod.mk.inj (Option.some.inj h)
      exact .clone _ _ _ _ _ (by simp) (by simp)
  · exact absurd h (by simp)

/-- An empty cache of `smallInstance` and tasks that have not called yet. -/
def smallStart : TaskSystem.Config Shared TaskState ℕ where
  shared := { disk := fun _ => .holes 4096 4097 (by decide), slots := [0], inflight := [] }
  task _ := .idle

end Instance

end Lazyd
