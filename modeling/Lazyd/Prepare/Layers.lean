import Lazyd.Registry.Register

/-!
# Preparing the layers of an image

`prepare_cache_layers` makes a sparse file and a bitmap file for each layer of a request, one after
the other, and `ControlPlane::prepare_image` registers an instance for each of them then. The cache
entry of a layer is named by its digest, with what has no place in a file name replaced.

## Main definitions

* `PrepareImageRequest`, `PrepareLayerDescriptor`, `PreparedLayer`.
* `Prepare.cacheKey`, `Prepare.sparsePath`, `Prepare.alignUp`, `Prepare.createSparseFile`.
* `Prepare.prepareLayer`, `Prepare.prepareCacheLayers`, `Daemon.prepareImage`.

## Main results

* `Prepare.createSparseFile_ok` : the sparse file has the length that was asked for.
* `Prepare.PreparesLayer.of_prepareLayer` : everything that preparing a layer can do.

Source: `src/prepare.rs`, lines 11–194; `src/control.rs`, lines 136–164.
-/

namespace Lazyd

def erofsLayerMediaType : String := "application/vnd.erofs.layer.v1"

/-- The default fetch unit. -/
def defaultFetchUnitBytes : UInt64 := UInt64.ofNat bitmapUnitBytes

def defaultPmemAlignmentBytes : UInt64 := 2 * 1024 * 1024

structure PrepareLayerDescriptor where
  index : UInt32
  digest : String
  size : UInt64
  mediaType : String
  deriving DecidableEq, Repr

/-- `PrepareLayerDescriptor::blob` -/
def PrepareLayerDescriptor.blob (layer : PrepareLayerDescriptor) : BlobDescriptor where
  digest := layer.digest
  size := layer.size
  mediaType := some layer.mediaType

structure PrepareFetchConfig where
  unitBytes : UInt64 := defaultFetchUnitBytes
  deriving DecidableEq, Repr

structure PreparePmemConfig where
  alignmentBytes : UInt64 := defaultPmemAlignmentBytes
  deriving DecidableEq, Repr

structure PrepareImageRequest where
  imageRef : String
  hostsDir : Option String := none
  auth : Option AuthConfig := none
  layers : List PrepareLayerDescriptor := []
  fetch : PrepareFetchConfig := {}
  pmem : PreparePmemConfig := {}
  deriving DecidableEq, Repr

/-- A layer of the answer. -/
structure PreparedLayer where
  index : UInt32
  sparsePath : String
  bitmapPath : String
  blobDigest : String
  blobSize : UInt64
  pmemSize : ℕ
  mediaType : String
  instanceId : String
  deriving DecidableEq, Repr

namespace Prepare

/-! ### Names and sizes -/

/-- `align_up` -/
def alignUp (value alignment : ℕ) : Except Error ℕ :=
  if alignment = 0 then .error (.badRequest "pmem.alignment_bytes must be greater than zero")
  else
    match U64.checkedAdd value (alignment - 1) with
    | some value => .ok (U64.mul (value / alignment) alignment)
    | none => .error (.badRequest "pmem size overflows u64")

/-- `cache_key` -/
def cacheKey (digest : String) : String :=
  String.ofList (digest.toList.map fun ch =>
    if ch.isAlphanum || ch == '-' || ch == '_' then ch else '-')

/-- `instance_id` -/
def instanceId (cacheKey : String) : String := "erofs-" ++ cacheKey

/-- `Path::join` with a relative path. -/
def joinPath (path part : String) : String :=
  if path = "" ∨ path.toList.getLast? = some '/' then path ++ part else path ++ "/" ++ part

/-- The sparse file of a cache entry. -/
def sparsePath (cacheRoot cacheKey : String) : String :=
  joinPath (joinPath cacheRoot cacheKey) "layer.erofs"

/-- The configuration that `prepare_image` registers for a layer, up to its id. -/
def layerConfig (cacheRoot : String) (request : PrepareImageRequest)
    (layer : PrepareLayerDescriptor) : InstanceConfig where
  instanceId := ""
  targetPath := sparsePath cacheRoot (cacheKey layer.digest)
  blob := layer.blob
  source := .ociRegistry request.imageRef request.hostsDir
  auth := request.auth
  fetch := { unitBytes := request.fetch.unitBytes }
  triggerMode := .external

/-! ### The sparse file -/

/-- The faults of `create_sparse_file`. -/
structure SparseFaults where
  /-- of the `stat` of `Path::exists` -/
  stat : Option IoError := none
  openFile : Option IoError := none
  metadata : Option IoError := none
  setLen : Option IoError := none

/-- `File::metadata`, as far as the length goes; a length that is no `off_t` overflows. -/
def metadataLen (f : File) (fault : Option IoError) : Except Error ℕ :=
  unlessFault fault (if 2 ^ 63 ≤ f.len then .error (.io (.os 75)) else .ok f.len)

/-- `File::set_len`; a length that is no `off_t` is refused by the standard library. -/
def setFileLen (f : File) (len : ℕ) (fault : Option IoError) : Except Error File :=
  if 2 ^ 63 ≤ len then
    .error (.io (.invalidInput "out of range integral type conversion attempted"))
  else unlessFault fault (.ok (f.setLen len))

/-- `create_sparse_file` -/
def createSparseFile (path : String) (len : ℕ) (faults : SparseFaults) (old : Option File) :
    Except Error Unit × Option File :=
  let existed := faults.stat.isNone && old.isSome
  match faults.openFile with
  | some err => (.error (.io err), old)
  | none =>
    let file := old.getD newFile
    match metadataLen file faults.metadata with
    | .error err => (.error err, some file)
    | .ok current =>
      if existed = false ∨ current < len then
        match setFileLen file len faults.setLen with
        | .error err => (.error err, some file)
        | .ok file => (.ok (), some file)
      else if len < current then
        (.error (.conflict ("existing sparse cache " ++ path ++ " is larger than expected")),
          some file)
      else (.ok (), some file)

/-! ### The layers -/

/-- What the file system answers while a layer is prepared. -/
structure LayerAnswers where
  createDir : Option IoError := none
  sparse : SparseFaults := {}
  opening : OpenAnswers := {}

variable (codec : HeaderCodec) (ino : String → FileKey) (cacheRoot : String)
  (request : PrepareImageRequest)

/-- The checks that come before the file system is used; the length of the sparse file. -/
def layerPmemSize (layer : PrepareLayerDescriptor) : Except Error ℕ :=
  if layer.mediaType ≠ erofsLayerMediaType then
    .error (.badRequest ("layer " ++ toString layer.index ++ " media type " ++ layer.mediaType ++
      " is not native EROFS; convert rootfs to native EROFS and push first"))
  else if layer.size = 0 then
    .error
      (.badRequest ("layer " ++ toString layer.index ++ " blob size must be greater than zero"))
  else alignUp layer.size.toNat request.pmem.alignmentBytes.toNat

/-- The entry of the answer for a layer. -/
def preparedLayer (layer : PrepareLayerDescriptor) (pmemSize : ℕ) : PreparedLayer where
  index := layer.index
  sparsePath := sparsePath cacheRoot (cacheKey layer.digest)
  bitmapPath := bitmapPath (sparsePath cacheRoot (cacheKey layer.digest))
  blobDigest := layer.digest
  blobSize := layer.size
  pmemSize := pmemSize
  mediaType := layer.mediaType
  instanceId := instanceId (cacheKey layer.digest)

/-- The body of the loop of `prepare_cache_layers`. -/
def prepareLayer (layer : PrepareLayerDescriptor) (answers : LayerAnswers) (files : Files) :
    Option (Except Error PreparedLayer × Files) :=
  let config := layerConfig cacheRoot request layer
  let target := ino config.targetPath
  match layerPmemSize request layer with
  | .error err => some (.error err, files)
  | .ok pmemSize =>
    match answers.createDir with
    | some err => some (.error (.io err), files)
    | none =>
      match createSparseFile config.targetPath pmemSize answers.sparse (files.get target) with
      | (.error err, f) => some (.error err, files.put target f)
      | (.ok (), f) =>
        match openCache codec ino config answers.opening (files.put target f) with
        | none => none
        | some (.error err, files) => some (.error err, files)
        | some (.ok _, files) => some (.ok (preparedLayer cacheRoot layer pmemSize), files)

/-- The loop of `prepare_cache_layers`, with the answers for each layer. -/
def prepareLayers : List PrepareLayerDescriptor → List LayerAnswers → Files →
    Option (Except Error (List PreparedLayer) × Files)
  | [], _, files => some (.ok [], files)
  | layer :: layers, answers, files =>
    match prepareLayer codec ino cacheRoot request layer (answers.headD {}) files with
    | none => none
    | some (.error err, files) => some (.error err, files)
    | some (.ok prepared, files) =>
      match prepareLayers layers answers.tail files with
      | none => none
      | some (.error err, files) => some (.error err, files)
      | some (.ok rest, files) => some (.ok (prepared :: rest), files)

/-- `prepare_cache_layers` -/
def prepareCacheLayers (layers : List PrepareLayerDescriptor) (answers : List LayerAnswers)
    (files : Files) : Option (Except Error (List PreparedLayer) × Files) :=
  match validateFetchUnitBytes request.fetch.unitBytes.toNat with
  | .error err => some (.error err, files)
  | .ok () => prepareLayers codec ino cacheRoot request layers answers files

/-! ### What preparing can do -/

variable {codec ino cacheRoot request}

/-- The outcomes of `create_sparse_file`. -/
inductive CreatesSparse (len : ℕ) (faults : SparseFaults) (old : Option File) :
    Except Error Unit → Option File → Prop
  | closed (err : Error) : CreatesSparse len faults old (.error err) old
  | failed (err : Error) : CreatesSparse len faults old (.error err) (some (old.getD newFile))
  /-- the file is not known to be there, or it is shorter -/
  | resized (hlen : len < 2 ^ 63)
      (h : (faults.stat.isNone && old.isSome) = false ∨ (old.getD newFile).len < len) :
      CreatesSparse len faults old (.ok ()) (some ((old.getD newFile).setLen len))
  | kept (hlen : len < 2 ^ 63) (h : (old.getD newFile).len = len) :
      CreatesSparse len faults old (.ok ()) (some (old.getD newFile))

theorem CreatesSparse.of_createSparseFile {path : String} {len : ℕ} {faults : SparseFaults}
    {old f : Option File} {res : Except Error Unit}
    (h : createSparseFile path len faults old = (res, f)) : CreatesSparse len faults old res f := by
  unfold createSparseFile at h
  dsimp only at h
  split at h
  · obtain ⟨rfl, rfl⟩ := Prod.mk.inj h
    exact .closed _
  · split at h
    · obtain ⟨rfl, rfl⟩ := Prod.mk.inj h
      exact .failed _
    · rename_i current hcurrent
      have hcurrent := unlessFault_eq_ok hcurrent
      split_ifs at hcurrent with hbig
      obtain rfl := Except.ok.inj hcurrent
      split_ifs at h with hset hgt
      · split at h
        · obtain ⟨rfl, rfl⟩ := Prod.mk.inj h
          exact .failed _
        · rename_i file hfile
          rw [setFileLen] at hfile
          split_ifs at hfile with hlarge
          obtain rfl := Except.ok.inj (unlessFault_eq_ok hfile)
          obtain ⟨rfl, rfl⟩ := Prod.mk.inj h
          exact .resized (not_le.mp hlarge) hset
      · obtain ⟨rfl, rfl⟩ := Prod.mk.inj h
        exact .failed _
      · obtain ⟨rfl, rfl⟩ := Prod.mk.inj h
        rw [not_or] at hset
        have hlen : (old.getD newFile).len = len := by omega
        exact .kept (hlen ▸ not_le.mp hbig) hlen

/-- A sparse file that has been created has the length that was asked for. -/
theorem createSparseFile_ok {path : String} {len : ℕ} {faults : SparseFaults} {old f : Option File}
    (h : createSparseFile path len faults old = (.ok (), f)) :
    ∃ file, f = some file ∧ file.len = len ∧ len < 2 ^ 63 := by
  cases CreatesSparse.of_createSparseFile h with
  | resized hlen => exact ⟨_, rfl, rfl, hlen⟩
  | kept hlen hsame => exact ⟨_, rfl, hsame, hlen⟩

theorem createSparseFile_same {path : String} {file : File} (h : file.len < 2 ^ 63) :
    createSparseFile path file.len {} (some file) = (.ok (), some file) := by
  simp only [createSparseFile, Option.getD_some, metadataLen, unlessFault, if_neg (not_le.mpr h),
    Option.isNone_none, Option.isSome_some, Bool.and_self, Bool.true_eq_false, lt_irrefl, or_self,
    ↓reduceIte]

/-- The preparation of a layer that meets no error. -/
theorem prepareLayer_of_ok {layer : PrepareLayerDescriptor} {answers : LayerAnswers}
    {files files' : Files} {n : ℕ} {f : Option File} {live : Live}
    (hsize : layerPmemSize request layer = .ok n) (hdir : answers.createDir = none)
    (hsparse : createSparseFile (sparsePath cacheRoot (cacheKey layer.digest)) n answers.sparse
      (files.get (ino (sparsePath cacheRoot (cacheKey layer.digest)))) = (.ok (), f))
    (hcache : openCache codec ino (layerConfig cacheRoot request layer) answers.opening
      (files.put (ino (sparsePath cacheRoot (cacheKey layer.digest))) f) =
        some (.ok live, files')) :
    prepareLayer codec ino cacheRoot request layer answers files =
      some (.ok (preparedLayer cacheRoot layer n), files') := by
  have hpath : (layerConfig cacheRoot request layer).targetPath =
      sparsePath cacheRoot (cacheKey layer.digest) := rfl
  simp only [prepareLayer, hsize, hdir, hpath, hsparse, hcache]

/-- The results of `prepareLayer`, one constructor for each stage that it ends in. -/
inductive PreparesLayer (codec : HeaderCodec) (ino : String → FileKey) (cacheRoot : String)
    (request : PrepareImageRequest) (layer : PrepareLayerDescriptor) (answers : LayerAnswers)
    (files : Files) : Except Error PreparedLayer → Files → Prop
  /-- a check fails, or the directory is not created -/
  | refused (err : Error) :
      PreparesLayer codec ino cacheRoot request layer answers files (.error err) files
  | notCreated {pmemSize : ℕ} {err : Error} {f : Option File}
      (hsize : layerPmemSize request layer = .ok pmemSize)
      (hsparse : createSparseFile (sparsePath cacheRoot (cacheKey layer.digest)) pmemSize
        answers.sparse (files.get (ino (sparsePath cacheRoot (cacheKey layer.digest)))) =
          (.error err, f)) :
      PreparesLayer codec ino cacheRoot request layer answers files (.error err)
        (files.put (ino (sparsePath cacheRoot (cacheKey layer.digest))) f)
  | notOpened {pmemSize : ℕ} {err : Error} {f : Option File} {files' : Files}
      (hsize : layerPmemSize request layer = .ok pmemSize)
      (hsparse : createSparseFile (sparsePath cacheRoot (cacheKey layer.digest)) pmemSize
        answers.sparse (files.get (ino (sparsePath cacheRoot (cacheKey layer.digest)))) =
          (.ok (), f))
      (hcache : openCache codec ino (layerConfig cacheRoot request layer) answers.opening
        (files.put (ino (sparsePath cacheRoot (cacheKey layer.digest))) f) =
          some (.error err, files')) :
      PreparesLayer codec ino cacheRoot request layer answers files (.error err) files'
  | prepared {pmemSize : ℕ} {f : Option File} {live : Live} {files' : Files}
      (hsize : layerPmemSize request layer = .ok pmemSize)
      (hsparse : createSparseFile (sparsePath cacheRoot (cacheKey layer.digest)) pmemSize
        answers.sparse (files.get (ino (sparsePath cacheRoot (cacheKey layer.digest)))) =
          (.ok (), f))
      (hcache : openCache codec ino (layerConfig cacheRoot request layer) answers.opening
        (files.put (ino (sparsePath cacheRoot (cacheKey layer.digest))) f) =
          some (.ok live, files')) :
      PreparesLayer codec ino cacheRoot request layer answers files
        (.ok (preparedLayer cacheRoot layer pmemSize)) files'

/-- **Inversion of the preparation of a layer.** -/
theorem PreparesLayer.of_prepareLayer {layer : PrepareLayerDescriptor} {answers : LayerAnswers}
    {files files' : Files} {res : Except Error PreparedLayer}
    (h : prepareLayer codec ino cacheRoot request layer answers files = some (res, files')) :
    PreparesLayer codec ino cacheRoot request layer answers files res files' := by
  unfold prepareLayer at h
  dsimp only at h
  split at h
  · obtain ⟨rfl, rfl⟩ := Prod.mk.inj (Option.some.inj h)
    exact .refused _
  · rename_i hsize
    split at h
    · obtain ⟨rfl, rfl⟩ := Prod.mk.inj (Option.some.inj h)
      exact .refused _
    · split at h
      · rename_i hsparse
        obtain ⟨rfl, rfl⟩ := Prod.mk.inj (Option.some.inj h)
        exact .notCreated hsize hsparse
      · rename_i hsparse
        split at h
        · exact absurd h (by simp)
        · rename_i hcache
          obtain ⟨rfl, rfl⟩ := Prod.mk.inj (Option.some.inj h)
          exact .notOpened hsize hsparse hcache
        · rename_i hcache
          obtain ⟨rfl, rfl⟩ := Prod.mk.inj (Option.some.inj h)
          exact .prepared hsize hsparse hcache

end Prepare

namespace Daemon

variable (codec : HeaderCodec) (ino : String → FileKey) (cacheRoot : String)
  (request : PrepareImageRequest)

/-- The loop of `prepare_image`: the layers and their entries, one registered after the other. -/
def registerLayers : List (PrepareLayerDescriptor × PreparedLayer) → List RegisterAnswers → Daemon →
    Option (Except Error Unit × Daemon)
  | [], _, d => some (.ok (), d)
  | (layer, prepared) :: layers, answers, d =>
    match register codec ino d prepared.instanceId
      { Prepare.layerConfig cacheRoot request layer with targetPath := prepared.sparsePath }
      (answers.headD {}) with
    | none => none
    | some (.error err, d) => some (.error err, d)
    | some (.ok (), d) => registerLayers layers answers.tail d

/-- What the environment answers while an image is prepared. -/
structure ImageAnswers where
  layers : List Prepare.LayerAnswers := []
  registers : List RegisterAnswers := []

/-- `ControlPlane::prepare_image` -/
def prepareImage (answers : ImageAnswers) (d : Daemon) :
    Option (Except Error (List PreparedLayer) × Daemon) :=
  match Prepare.prepareCacheLayers codec ino cacheRoot request request.layers answers.layers
    d.files with
  | none => none
  | some (.error err, files) => some (.error err, { d with files })
  | some (.ok prepared, files) =>
    match registerLayers codec ino cacheRoot request (request.layers.zip prepared)
      answers.registers { d with files } with
    | none => none
    | some (.error err, d) => some (.error err, d)
    | some (.ok (), d) => some (.ok prepared, d)

end Daemon

end Lazyd
