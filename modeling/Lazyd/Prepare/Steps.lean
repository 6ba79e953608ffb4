import Lazyd.Prepare.Layers

/-!
# Preparing a layer step by step

The body of the loop of `prepare_cache_layers`, with a step for every call to the file system, next
to the tasks of an instance that is open on the same two files. Nothing locks the files: between two
steps of the preparation every task may write to the sparse file and mark slots in the bitmap file,
also while the slots are read. Whatever else the daemon does on other files may happen then too.

A reset of the bitmap file is one step here.

## Main definitions

* `Prepare.PrepareState`, `Prepare.PrepareEvent`, `Prepare.prepareStep`.
* `Prepare.Shared`, `Prepare.beside` : the tasks of an open instance, and preparations beside them.
* `Prepare.Clean` : a step that meets no fault of the file system.

Source: `src/prepare.rs`, lines 97–161; `src/range_map.rs`, lines 42–98 and 116–148.
-/

namespace Lazyd.Prepare

/-- Where the preparation of a layer stands: the call that comes next, with what the earlier ones
have answered. -/
inductive PrepareState where
  | idle
  | creatingDir (pmemSize : ℕ)
  /-- in `create_sparse_file`, before `exists` -/
  | looking (pmemSize : ℕ)
  | opening (pmemSize : ℕ) (existed : Bool)
  | sizing (pmemSize : ℕ) (existed : Bool)
  | lengthening (pmemSize : ℕ)
  | openingTarget
  /-- in `open_or_create`, before `exists` -/
  | lookingForMap (opened : Instance)
  | openingMap (opened : Instance) (existed : Bool)
  | readingHeader (opened : Instance)
  | readingSlots (opened : Instance) (got : List UInt8)
  | resetting (opened : Instance)
  | recovering (opened : Instance) (slots : List UInt8) (pc : Instance.RecoveryState)
  | prepared
  | failed (err : Error)

/-- A step of the preparation, with the answer of the file system. -/
inductive PrepareEvent where
  | next (fault : Option IoError)
  /-- one read of slots, of so many bytes -/
  | read (res : Except IoError ℕ)
  | reset (faults : InitFaults)
  | recovery (e : Instance.RecoveryEvent)

/-- Recovery ends where the preparation ends. -/
def recoveringState (opened : Instance) (slots : List UInt8) :
    Instance.RecoveryState → PrepareState
  | .recovered => .prepared
  | .failed err => .failed err
  | .scanning slot todo pc => .recovering opened slots (.scanning slot todo pc)

/-- `read_slots` with some of the slots read. -/
def afterSlots (opened : Instance) (got : List UInt8) : PrepareState :=
  if got.length < opened.rangeMap.slotCount then .readingSlots opened got
  else recoveringState opened got (Instance.startRecovery got)

variable (codec : HeaderCodec) (ino : String → FileKey) (cacheRoot : String)
  (request : PrepareImageRequest) (layer : PrepareLayerDescriptor)

/-- The file of a target or of a bitmap, created if it is not there. -/
def created (files : Files) (key : FileKey) : Files :=
  files.put key (some ((files.get key).getD newFile))

/-- The header that the bitmap file of the layer has to have. -/
def layerHeader (opened : Instance) : Header :=
  expectedHeader layer.blob request.fetch.unitBytes opened.rangeMap.slotCount

/-- `read_header`, and what follows from it. -/
def afterHeader (opened : Instance) : Except Error Header → PrepareState
  | .error _ => .resetting opened
  | .ok found =>
    if found = layerHeader request layer opened then afterSlots opened [] else .resetting opened

/-- One step of the preparation of a layer. -/
def prepareStep (files : Files) : PrepareState → PrepareEvent → Option (Files × PrepareState)
  | .idle, .next _ =>
    match validateFetchUnitBytes request.fetch.unitBytes.toNat with
    | .error err => some (files, .failed err)
    | .ok () =>
      match layerPmemSize request layer with
      | .error err => some (files, .failed err)
      | .ok pmemSize => some (files, .creatingDir pmemSize)
  | .creatingDir pmemSize, .next fault =>
    match fault with
    | some err => some (files, .failed (.io err))
    | none => some (files, .looking pmemSize)
  | .looking pmemSize, .next fault =>
    some (files, .opening pmemSize
      (fault.isNone && files.present (ino (sparsePath cacheRoot (cacheKey layer.digest)))))
  | .opening pmemSize existed, .next fault =>
    match fault with
    | some err => some (files, .failed (.io err))
    | none => some (created files (ino (sparsePath cacheRoot (cacheKey layer.digest))),
        .sizing pmemSize existed)
  | .sizing pmemSize existed, .next fault =>
    match metadataLen (files.disk (ino (sparsePath cacheRoot (cacheKey layer.digest)))) fault with
    | .error err => some (files, .failed err)
    | .ok current =>
      if existed = false ∨ current < pmemSize then some (files, .lengthening pmemSize)
      else if pmemSize < current then
        some (files, .failed (.conflict ("existing sparse cache " ++
          sparsePath cacheRoot (cacheKey layer.digest) ++ " is larger than expected")))
      else some (files, .openingTarget)
  | .lengthening pmemSize, .next fault =>
    let target := ino (sparsePath cacheRoot (cacheKey layer.digest))
    match setFileLen (files.disk target) pmemSize fault with
    | .error err => some (files, .failed err)
    | .ok f => some (files.put target (some f), .openingTarget)
  | .openingTarget, .next fault =>
    let config := layerConfig cacheRoot request layer
    match openTarget files (ino config.targetPath) fault with
    | .error err => some (files, .failed err)
    | .ok () =>
      match h : RangeMap.geometry (ino (bitmapPath config.targetPath)) config.blob.size
          config.fetch.unitBytes with
      | .error err => some (files, .failed err)
      | .ok m =>
        some (files, .lookingForMap (openedInstance config (ino config.targetPath) _ m h))
  | .lookingForMap opened, .next fault =>
    some (files, .openingMap opened (fault.isNone && files.present opened.rangeMap.file))
  | .openingMap opened existed, .next fault =>
    match fault with
    | some err => some (files, .failed (.io err))
    | none => some (created files opened.rangeMap.file,
        if existed then .readingHeader opened else .resetting opened)
  | .readingHeader opened, .next fault =>
    some (files, afterHeader request layer opened
      (unlessFault fault (readHeader codec (files.disk opened.rangeMap.file))))
  | .readingSlots opened got, .read res =>
    match res with
    | .error err =>
      if err.isInterrupted then some (files, .readingSlots opened got)
      else some (files, .resetting opened)
    | .ok n =>
      let f := files.disk opened.rangeMap.file
      if opened.rangeMap.slotCount - got.length < n then none
      else if n = 0 then
        -- nothing is read at the end of the file only
        if headerSize + got.length < f.len then none else some (files, .resetting opened)
      else if f.len < headerSize + got.length + n then none
      else some (files,
        afterSlots opened (got ++ SparseFile.slice f.byte (headerSize + got.length) n))
  | .resetting opened, .reset faults =>
    match initializeFile codec (files.disk opened.rangeMap.file) (layerHeader request layer opened)
        faults with
    | (.error err, f) => some (files.put opened.rangeMap.file (some f), .failed err)
    | (.ok (), f) => some (files.put opened.rangeMap.file (some f), .prepared)
  | .recovering opened slots pc, .recovery e =>
    match opened.recoveryStep ⟨files.disk, slots, []⟩ pc e with
    | none => none
    | some (s, pc) => some ({ files with disk := s.disk }, recoveringState opened s.slots pc)
  | _, _ => none

/-! ### Beside an open instance -/

/-- The files, and what an open instance has in memory. -/
structure Shared where
  files : Files
  slots : List UInt8
  inflight : List Range

/-- What the tasks of the instance see. -/
def Shared.ofInstance (s : Shared) : Instance.Shared where
  disk := s.files.disk
  slots := s.slots
  inflight := s.inflight

inductive TaskState where
  /-- a call on the open instance -/
  | ensure (l : Instance.TaskState)
  | prepare (p : PrepareState)
  /-- the rest of the daemon -/
  | elsewhere

inductive Event where
  | ensure (e : Instance.Event)
  | prepare (e : PrepareEvent)
  /-- a file is created or changed that is none of the two files of the instance -/
  | elsewhere (key : FileKey) (f : Option File)

variable (inst : Instance)

/-- One step of a task. -/
def besideStep (s : Shared) : TaskState → Event → Option (Shared × TaskState)
  | .ensure l, .ensure e =>
    match inst.step s.ofInstance l e with
    | none => none
    | some (t, l) => some (⟨{ s.files with disk := t.disk }, t.slots, t.inflight⟩, .ensure l)
  | .prepare p, .prepare e =>
    match prepareStep codec ino cacheRoot request layer s.files p e with
    | none => none
    | some (files, p) => some ({ s with files }, .prepare p)
  | .elsewhere, .elsewhere key f =>
    if key = inst.target ∨ key = inst.rangeMap.file then none
    else some ({ s with files := s.files.put key f }, .elsewhere)
  | _, _ => none

/-- The tasks of an open instance, preparations of a layer, and the rest of the daemon. -/
def beside : TaskSystem Shared TaskState Event :=
  ⟨besideStep codec ino cacheRoot request layer inst⟩

/-- A task that has not started. -/
def TaskState.IsFresh : TaskState → Prop
  | .ensure l => l = .idle
  | .prepare p => p = .idle
  | .elsewhere => True

/-- The file system answers a step of a preparation without a fault. -/
def PrepareEvent.IsClean : PrepareEvent → Prop
  | .next fault => fault = none
  | .read res => ∃ n, res = .ok n
  | .reset faults => faults = {}
  | .recovery e =>
    match e with
    | .probe dataFault holeFault => dataFault = none ∧ holeFault = none
    | .marked res => ∃ n, res = .ok n
    | .fill => True

/-- No preparation meets a fault of the file system. The tasks of the instance may. -/
def Clean : TaskState → Event → Prop
  | _, .prepare e => e.IsClean
  | _, _ => True

end Lazyd.Prepare
