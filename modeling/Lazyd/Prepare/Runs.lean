import Lazyd.Prepare.OnError
import Lazyd.Registry.TargetSound

/-!
# Runs of complete operations

Complete calls of `register`, `unregister`, `prepare_image` and `ensure_range`, one after the other,
with restarts between them. The files outlive a restart, and so do the ready slots in them: what an
instance relies on may have been written by one that was open on its target long ago, or still is.

Two instances may be open on one target at a time. If they are for different blobs, the second one
resets the bitmap file of the first, which goes on to rely on the slots that it has in memory, and
both write to the target.

## Main definitions

* `Daemon.Operation`, `Daemon.operate` : the operations.
* `Daemon.Operation.Allowed` : the operations whose openings are all allowed.
* `Daemon.OwnBytes` : `ensure_range` gives the bytes of the blob of the instance.

## Main results

* `Daemon.operate_sound` : an operation keeps the invariant of the targets.
* `Daemon.ownBytes_run` : the main theorem.
* `Daemon.other_bytes` : two instances on one target, and the wrong bytes.

Source: `src/instance.rs`, lines 128–194 and 229–261; `src/prepare.rs`, lines 92–161;
`src/control.rs`, lines 105–117 and 136–164.
-/

namespace Lazyd

namespace Prepare

variable (codec : HeaderCodec) (ino : String → FileKey) (paths : Set String) (cacheRoot : String)
  (request : PrepareImageRequest) (instances : String → Option Live)

/-- The preparation of a layer that makes no file shorter and whose opening is allowed. -/
structure LayerAllowed (layer : PrepareLayerDescriptor) (answers : LayerAnswers) (files : Files) :
    Prop where
  path : sparsePath cacheRoot (cacheKey layer.digest) ∈ paths
  length : ∀ n f, layerPmemSize request layer = .ok n → answers.sparse.stat ≠ none →
    files.get (ino (sparsePath cacheRoot (cacheKey layer.digest))) = some f → f.len ≤ n
  opening : ∀ n f, layerPmemSize request layer = .ok n →
    createSparseFile (sparsePath cacheRoot (cacheKey layer.digest)) n answers.sparse
      (files.get (ino (sparsePath cacheRoot (cacheKey layer.digest)))) = (.ok (), f) →
    OpeningAllowed codec ino paths instances (layerConfig cacheRoot request layer) answers.opening
      (files.put (ino (sparsePath cacheRoot (cacheKey layer.digest))) f)

variable {codec ino paths cacheRoot request instances}

/-- **Creating a sparse file** leaves it alone or makes it longer, unless the file is there and
`Path::exists` does not say so. -/
theorem createSparseFile_extends {path : String} {len : ℕ} {faults : SparseFaults}
    {old f : Option File} {res : Except Error Unit}
    (hstat : ∀ file, faults.stat ≠ none → old = some file → file.len ≤ len)
    (h : createSparseFile path len faults old = (res, f)) :
    f = old ∨ ∃ file, f = some file ∧ (old.getD newFile).Extends file := by
  cases CreatesSparse.of_createSparseFile h with
  | closed err => exact Or.inl rfl
  | failed err => exact Or.inr ⟨_, rfl, SparseFile.extends_refl _⟩
  | kept hlen hsame => exact Or.inr ⟨_, rfl, SparseFile.extends_refl _⟩
  | resized hlen hset =>
    refine Or.inr ⟨_, rfl, SparseFile.extends_setLen ?_⟩
    -- the file is not there, or it is shorter
    rcases hset with hnot | hlt
    · cases old with
      | none => exact Nat.zero_le _
      | some file =>
        refine hstat file (fun hnone => ?_) rfl
        rw [hnone] at hnot
        exact absurd hnot (by simp)
    · exact hlt.le

variable {bytes : String → ℕ → UInt8} {files files' : Files}

/-- The preparation of a layer keeps the invariant. -/
theorem prepareLayer_sound (hapart : PathsApart ino paths) {layer : PrepareLayerDescriptor}
    {answers : LayerAnswers} {res : Except Error PreparedLayer}
    (hallowed : LayerAllowed codec ino paths cacheRoot request instances layer answers files)
    (hsound : CacheSound codec ino bytes paths instances files)
    (h : prepareLayer codec ino cacheRoot request layer answers files = some (res, files')) :
    CacheSound codec ino bytes paths instances files' := by
  have hput {n : ℕ} {f : Option File} {res : Except Error Unit}
      (hsize : layerPmemSize request layer = .ok n)
      (hcreate : createSparseFile (sparsePath cacheRoot (cacheKey layer.digest)) n answers.sparse
        (files.get (ino (sparsePath cacheRoot (cacheKey layer.digest)))) = (res, f)) :
      CacheSound codec ino bytes paths instances
        (files.put (ino (sparsePath cacheRoot (cacheKey layer.digest))) f) := by
    have hlength (file : File) := hallowed.length n file hsize
    rcases createSparseFile_extends hlength hcreate with rfl | ⟨file, rfl, hext⟩
    · rw [Files.put_get]
      exact hsound
    · exact hsound.put hapart hallowed.path hext
  cases PreparesLayer.of_prepareLayer h with
  | refused => exact hsound
  | notCreated hsize hcreate => exact hput hsize hcreate
  | notOpened hsize hcreate hcache =>
    exact ((hput hsize hcreate).opened hapart (hallowed.opening _ _ hsize hcreate) hcache).1
  | prepared hsize hcreate hcache =>
    exact ((hput hsize hcreate).opened hapart (hallowed.opening _ _ hsize hcreate) hcache).1

end Prepare

namespace Daemon

open Prepare

/-! ### The operations -/

/-- A complete operation of the daemon, with the answers of the environment, or a restart. -/
inductive Operation where
  | register (instanceId : String) (config : InstanceConfig) (answers : RegisterAnswers)
  | unregister (instanceId : String) (faults : MarkFaults)
  | prepareImage (cacheRoot : String) (request : PrepareImageRequest) (answers : ImageAnswers)
  | ensureRange (instanceId : String) (offset len : ℕ) (es : List Instance.Event)
  /-- all files are kept -/
  | restart (fanotify : Option FanotifyBackend)

variable (codec : HeaderCodec) (ino : String → FileKey)

/-- `ensure_range` on the instance that is registered, with the steps that the call makes. -/
def ensureRange (d : Daemon) (instanceId : String) (offset len : ℕ) (es : List Instance.Event) :
    Option (Instance.Outcome × Daemon) :=
  match d.instances instanceId with
  | none => some (.err (.notFound "instance not found"), d)
  | some live =>
    match live.inst.tasks.solo (live.shared d.files.disk) .idle
      (.call (.ensureRange offset len) :: es) with
    | some (s, .returned _ out) =>
      some (out, { d with
        files := { d.files with disk := s.disk }
        instances := Function.update d.instances instanceId
          (some { live with slots := s.slots, inflight := s.inflight }) })
    | _ => none

/-- The state behind an operation. -/
def operate (d : Daemon) : Operation → Option Daemon
  | .register instanceId config answers =>
    (register codec ino d instanceId config answers).map Prod.snd
  | .unregister instanceId faults => some (unregister ino d instanceId faults).2
  | .prepareImage cacheRoot request answers =>
    (prepareImage codec ino cacheRoot request answers d).map Prod.snd
  | .ensureRange instanceId offset len es => (ensureRange d instanceId offset len es).map Prod.snd
  | .restart fanotify => some (start d.files fanotify)

/-- One operation after the other, under the condition `ok` on the state before it. -/
def OperationStep (ok : Operation → Daemon → Prop) (d d' : Daemon) : Prop :=
  ∃ op, ok op d ∧ operate codec ino d op = some d'

variable (paths : Set String)

/-- A registration whose opening is allowed, if it gets to it. -/
def RegistrationAllowed (instanceId : String) (config : InstanceConfig) (answers : RegisterAnswers)
    (d : Daemon) : Prop :=
  validateConfig config = .ok () → d.instances instanceId = none →
    OpeningAllowed codec ino paths d.instances { config with instanceId } answers.opening d.files

/-- An operation whose openings are all allowed. -/
def Operation.Allowed (d : Daemon) : Operation → Prop
  | .register instanceId config answers =>
    RegistrationAllowed codec ino paths instanceId config answers d
  | .prepareImage cacheRoot request answers =>
    (validateFetchUnitBytes request.fetch.unitBytes.toNat = .ok () →
      EachLayer codec ino cacheRoot request
        (LayerAllowed codec ino paths cacheRoot request d.instances) request.layers answers.layers
        d.files) ∧
    ∀ prepared files, prepareCacheLayers codec ino cacheRoot request request.layers answers.layers
        d.files = some (.ok prepared, files) →
      EachRegistration codec ino cacheRoot request
        (fun q => RegistrationAllowed codec ino paths q.2.instanceId
          (entryConfig cacheRoot request q)) (request.layers.zip prepared) answers.registers
        { d with files }
  | .unregister .. | .ensureRange .. | .restart _ => True

variable (bytes : String → ℕ → UInt8)

/-- The remote is honest about the blob of each digest. -/
def Operation.Honest (d : Daemon) : Operation → Prop
  | .ensureRange instanceId offset len es => ∀ live, d.instances instanceId = some live →
    live.inst.tasks.SoloOk (Instance.Honest (bytes live.inst.config.blob.digest))
      (live.shared d.files.disk) .idle (.call (.ensureRange offset len) :: es)
  | _ => True

/-- When `ensure_range` returns `Ok`, the target has the bytes of the blob of the instance. -/
def OwnBytes (d : Daemon) : Prop :=
  ∀ instanceId live offset len es d', d.instances instanceId = some live →
    Operation.Honest bytes d (.ensureRange instanceId offset len es) →
    ensureRange d instanceId offset len es = some (.ok, d') →
    (d'.files.disk live.inst.target).Holds (bytes live.inst.config.blob.digest) offset
      (offset + len)

/-- The targets that are there are all holes. -/
def FreshTargets (files : Files) : Prop :=
  ∀ p ∈ paths, ∀ f, files.get (ino p) = some f → ∀ b, f.data b = false

variable {codec ino paths bytes} {d d' : Daemon}

/-! ### The invariant -/

/-- A call that ends, by the solo run of its task. -/
theorem ensureRange_eq_some {instanceId : String} {offset len : ℕ} {es : List Instance.Event}
    {live : Live} {out : Instance.Outcome} (hlive : d.instances instanceId = some live)
    (h : ensureRange d instanceId offset len es = some (out, d')) :
    ∃ s call, live.inst.tasks.solo (live.shared d.files.disk) .idle
        (.call (.ensureRange offset len) :: es) = some (s, .returned call out) ∧
      d' = { d with
        files := { d.files with disk := s.disk }
        instances := Function.update d.instances instanceId
          (some { live with slots := s.slots, inflight := s.inflight }) } := by
  simp only [ensureRange, hlive] at h
  split at h
  · rename_i hsolo
    obtain ⟨rfl, rfl⟩ := Prod.mk.inj (Option.some.inj h)
    exact ⟨_, _, hsolo, rfl⟩
  · exact absurd h (by simp)

/-- A registration keeps the invariant. -/
theorem register_sound (hapart : PathsApart ino paths) {instanceId : String}
    {config : InstanceConfig} {answers : RegisterAnswers} {res : Except Error Unit}
    (hallowed : RegistrationAllowed codec ino paths instanceId config answers d)
    (hsound : CacheSound codec ino bytes paths d.instances d.files)
    (h : register codec ino d instanceId config answers = some (res, d')) :
    CacheSound codec ino bytes paths d'.instances d'.files := by
  cases hvalid : validateConfig config with
  | error err =>
    rw [register, hvalid] at h
    obtain ⟨-, rfl⟩ := Prod.mk.inj (Option.some.inj h)
    exact hsound
  | ok =>
    have hopened {res : Except Error Live} {files : Files} (hfree : d.instances instanceId = none)
        (hopen : openInstance codec ino { config with instanceId } answers.opening answers.remote
          d.files = some (res, files)) :
        CacheSound codec ino bytes paths d.instances files ∧
          ∀ live, res = .ok live → LiveSound codec ino bytes files live := by
      rw [openInstance_eq hvalid, Option.map_eq_some_iff] at hopen
      obtain ⟨⟨opened, files₁⟩, hcache, hres⟩ := hopen
      obtain ⟨hfiles, hlive⟩ := hsound.opened hapart (hallowed hvalid hfree) hcache
      cases opened with
      | error err =>
        obtain ⟨rfl, rfl⟩ := Prod.mk.inj hres
        exact ⟨hfiles, by simp⟩
      | ok live =>
        obtain ⟨rfl, rfl⟩ := Prod.mk.inj hres
        refine ⟨hfiles, fun live' hlive' => ?_⟩
        cases hremote : answers.remote with
        | error err => exact absurd hlive' (by simp [hremote, Except.map])
        | ok =>
          rw [hremote] at hlive'
          exact hlive live' (congrArg Except.ok (Except.ok.inj hlive'))
    cases Registers.of_register h with
    | unchanged => exact hsound
    | notOpened hfree hopen => exact (hopened hfree hopen).1
    | notMarked hfree hopen hmark =>
      rw [(markTarget_files hmark).1, (markTarget_files hmark).2]
      exact (hopened hfree hopen).1
    | @registered live files d₁ hfree hopen hmark =>
      obtain ⟨hfiles, hlive⟩ := hopened hfree hopen
      have hconfig := (openInstance_target hopen).1
      change CacheSound codec ino bytes paths
        (Function.update d₁.instances instanceId (some live)) d₁.files
      rw [(markTarget_files hmark).1, (markTarget_files hmark).2]
      refine hfiles.insert ?_ (hlive live rfl) instanceId
      rw [hconfig]
      exact (hallowed hvalid hfree).path

/-- **An operation keeps the invariant.** -/
theorem operate_sound (hapart : PathsApart ino paths) {op : Operation}
    (hallowed : op.Allowed codec ino paths d) (hhonest : op.Honest bytes d)
    (hsound : CacheSound codec ino bytes paths d.instances d.files)
    (h : operate codec ino d op = some d') :
    CacheSound codec ino bytes paths d'.instances d'.files := by
  cases op with
  | register instanceId config answers =>
    obtain ⟨⟨res, d₁⟩, hregister, rfl⟩ := Option.map_eq_some_iff.mp h
    exact register_sound hapart hallowed hsound hregister
  | unregister instanceId faults =>
    obtain rfl := Option.some.inj h
    rw [unregister]
    split
    · exact hsound
    · rename_i live hlive
      rw [(unmarkTarget_files _ _ _ _).1, (unmarkTarget_files _ _ _ _).2]
      refine hsound.forget fun id live' hlive' => ?_
      change Function.update d.instances instanceId none id = some live' at hlive'
      rw [Function.update_apply] at hlive'
      split_ifs at hlive'
      exact hlive'
  | prepareImage cacheRoot request answers =>
    obtain ⟨⟨res, d₁⟩, hprepare, rfl⟩ := Option.map_eq_some_iff.mp h
    obtain ⟨hlayers, hregisters⟩ := hallowed
    have hfiles {res : Except Error (List PreparedLayer)} {files : Files}
        (hfiles : prepareCacheLayers codec ino cacheRoot request request.layers answers.layers
          d.files = some (res, files)) :
        CacheSound codec ino bytes paths d.instances files := by
      rw [prepareCacheLayers] at hfiles
      split at hfiles
      · obtain ⟨-, rfl⟩ := Prod.mk.inj (Option.some.inj hfiles)
        exact hsound
      · rename_i hunit
        exact (hlayers hunit).invariant (I := CacheSound codec ino bytes paths d.instances)
          (fun _ _ _ _ _ hallowed hsound hturn => prepareLayer_sound hapart hallowed hsound hturn)
          hsound hfiles
    have hregistered {prepared : List PreparedLayer} {files : Files} {res : Except Error Unit}
        {d' : Daemon}
        (hok : prepareCacheLayers codec ino cacheRoot request request.layers answers.layers
          d.files = some (.ok prepared, files))
        (hregister : registerLayers codec ino cacheRoot request (request.layers.zip prepared)
          answers.registers { d with files } = some (res, d')) :
        CacheSound codec ino bytes paths d'.instances d'.files :=
      (hregisters prepared files hok).invariant
        (I := fun d => CacheSound codec ino bytes paths d.instances d.files)
        (fun _ _ _ _ _ hallowed hsound hturn => register_sound hapart hallowed hsound hturn)
        (hfiles hok) hregister
    rw [prepareImage] at hprepare
    split at hprepare
    · exact absurd hprepare (by simp)
    · rename_i hfailed
      obtain ⟨-, rfl⟩ := Prod.mk.inj (Option.some.inj hprepare)
      exact hfiles hfailed
    · rename_i hok
      split at hprepare
      · exact absurd hprepare (by simp)
      · rename_i hregister
        obtain ⟨-, rfl⟩ := Prod.mk.inj (Option.some.inj hprepare)
        exact hregistered hok hregister
      · rename_i hregister
        obtain ⟨-, rfl⟩ := Prod.mk.inj (Option.some.inj hprepare)
        exact hregistered hok hregister
  | ensureRange instanceId offset len es =>
    obtain ⟨⟨out, d₁⟩, hensure, rfl⟩ := Option.map_eq_some_iff.mp h
    cases hlive : d.instances instanceId with
    | none =>
      rw [ensureRange, hlive] at hensure
      obtain ⟨-, rfl⟩ := Prod.mk.inj (Option.some.inj hensure)
      exact hsound
    | some live =>
      obtain ⟨s, call, hsolo, rfl⟩ := ensureRange_eq_some hlive hensure
      exact (hsound.used hapart hlive (hhonest live hlive) hsolo).1
  | restart fanotify =>
    obtain rfl := Option.some.inj h
    exact hsound.forget fun id live hlive => absurd hlive (by simp [start])

/-- Nothing is open when the daemon is started, and the targets are all holes. -/
theorem cacheSound_start {files : Files} (hfresh : FreshTargets ino paths files)
    (fanotify : Option FanotifyBackend) :
    CacheSound codec ino bytes paths (start files fanotify).instances
      (start files fanotify).files where
  path _ _ hno := absurd hno (by simp [start])
  lives _ _ hno := absurd hno (by simp [start])
  maps p hp _ target _ htarget := mapSound_of_holes (hfresh p hp target htarget)

/-- The invariant holds in every run of allowed operations. -/
theorem cacheSound_run (hapart : PathsApart ino paths) {files : Files}
    (hfresh : FreshTargets ino paths files) {fanotify : Option FanotifyBackend}
    (hrun : Relation.ReflTransGen (OperationStep codec ino fun op d =>
      op.Allowed codec ino paths d ∧ op.Honest bytes d) (start files fanotify) d) :
    CacheSound codec ino bytes paths d.instances d.files := by
  induction hrun with
  | refl => exact cacheSound_start hfresh fanotify
  | tail _ hstep ih =>
    obtain ⟨op, ⟨hallowed, hhonest⟩, hop⟩ := hstep
    exact operate_sound hapart hallowed hhonest ih hop

/-- **The bytes of the own blob.** Let the targets and the bitmap files of a run go together one by
one, and let the targets be all holes at first. In every state of a run of complete operations and
restarts under honest remotes: when `ensure_range` returns `Ok`, the requested range of the target
has the bytes of the blob of the instance. For this, every opening that gets to the bitmap file has
to find on its target only open instances for the same digest, size and unit; no reset may break off
behind its first write, unless there was no ready slot and no open instance; and creating a sparse
file must not cut off what is there. -/
theorem ownBytes_run (hapart : PathsApart ino paths) {files : Files}
    (hfresh : FreshTargets ino paths files) {fanotify : Option FanotifyBackend}
    (hrun : Relation.ReflTransGen (OperationStep codec ino fun op d =>
      op.Allowed codec ino paths d ∧ op.Honest bytes d) (start files fanotify) d) :
    OwnBytes bytes d := by
  intro instanceId live offset len es d' hlive hhonest hensure
  have hsound := cacheSound_run hapart hfresh hrun
  obtain ⟨s, call, hsolo, rfl⟩ := ensureRange_eq_some hlive hensure
  have hknows := (hsound.used hapart hlive (hhonest live hlive) hsolo).2
  obtain rfl := Option.some.inj (Instance.callOf_solo hsolo)
  exact hknows rfl

/-! ### Two blobs on one target -/

/-- Two blobs, of equal bytes each. -/
def smallBytes (digest : String) (_ : ℕ) : UInt8 := if digest = newBlob.digest then 7 else 9

theorem smallBytes_newBlob : smallBytes newBlob.digest = fun _ => 7 := by
  funext p
  exact if_pos rfl

theorem smallBytes_oldBlob : smallBytes oldBlob.digest = fun _ => 9 := by
  funext p
  exact if_neg (by decide)

/-- A call that fetches the three bytes. -/
def smallEnsure (bytes : List UInt8) : List Instance.Event :=
  [.check, .reserve, .recheck] ++ smallFetch bytes

theorem newBlob_size : newBlob.size = 3 := rfl

theorem oldBlob_size : oldBlob.size = 3 := rfl

/-- The two instances on the target. -/
def newInstance : Instance := smallInstanceOf newBlob "a" newBlob_size

def oldInstance : Instance := smallInstanceOf oldBlob "b" oldBlob_size

theorem newInstance_fetches (disk : Disk) : newInstance.tasks.solo ⟨disk, [0], []⟩ .idle
      (.call (.ensureRange 0 3) :: smallEnsure [7, 7, 7]) =
    some (⟨smallFetched disk [7, 7, 7], [1], []⟩, .returned (.ensureRange 0 3) .ok) := rfl

theorem oldInstance_fetches (disk : Disk) : oldInstance.tasks.solo ⟨disk, [0], []⟩ .idle
      (.call (.ensureRange 0 3) :: smallEnsure [9, 9, 9]) =
    some (⟨smallFetched disk [9, 9, 9], [1], []⟩, .returned (.ensureRange 0 3) .ok) := rfl

theorem newInstance_ready (disk : Disk) : newInstance.tasks.solo ⟨disk, [1], []⟩ .idle
      [.call (.ensureRange 0 3), .check] =
    some (⟨disk, [1], []⟩, .returned (.ensureRange 0 3) .ok) := rfl

/-- A daemon after one of these calls. -/
theorem ensureRange_of_solo {live : Live} {instanceId : String} {es : List Instance.Event}
    {s : Instance.Shared} {call : Instance.Call} {out : Instance.Outcome}
    (hlive : d.instances instanceId = some live)
    (hsolo : live.inst.tasks.solo (live.shared d.files.disk) .idle
      (.call (.ensureRange 0 3) :: es) = some (s, .returned call out)) :
    ∃ d', ensureRange d instanceId 0 3 es = some (out, d') ∧
      d'.files.disk = s.disk ∧ d'.files.present = d.files.present ∧ d'.fanotify = d.fanotify ∧
      d'.instances = Function.update d.instances instanceId
        (some { live with slots := s.slots, inflight := s.inflight }) := by
  refine ⟨{ d with
    files := { d.files with disk := s.disk }
    instances := Function.update d.instances instanceId
      (some { live with slots := s.slots, inflight := s.inflight }) }, ?_, rfl, rfl, rfl, rfl⟩
  simp only [ensureRange, hlive, hsolo]

/-- The registration of a small instance, where nothing is marked. -/
theorem register_smallConfigOf {blob : BlobDescriptor} {instanceId : String} {live : Live}
    {files : Files} (hsize : blob.size = 3) (hfree : d.instances instanceId = none)
    (hfanotify : d.fanotify = none)
    (hopen : openInstance headerJson smallIno (smallConfigOf blob instanceId) {} (.ok ()) d.files =
      some (.ok live, files)) :
    operate headerJson smallIno d (.register instanceId (smallConfigOf blob instanceId) {}) =
      some { d with
        files, instances := Function.update d.instances instanceId (some live) } := by
  have hvalid : validateConfig (smallConfigOf blob instanceId) = .ok () := by
    have hpath : (smallConfigOf blob instanceId).targetPath ≠ "" :=
      (by decide : smallConfig.targetPath ≠ "")
    have hblob : (smallConfigOf blob instanceId).blob.size ≠ 0 := by
      rw [smallConfigOf, hsize]
      decide
    rw [validateConfig, if_neg hpath, if_neg hblob]
    exact (rfl : validateFetchUnitBytes smallConfig.fetch.unitBytes.toNat = .ok ())
  have hconfig : { smallConfigOf blob instanceId with instanceId := instanceId } =
      smallConfigOf blob instanceId := rfl
  have hmark : markTarget smallIno { d with files } instanceId (smallConfigOf blob instanceId) {} =
      (.ok (), { d with files }) := by
    have hmode : (smallConfigOf blob instanceId).triggerMode = .fanotify := rfl
    simp only [markTarget, hmode, hfanotify]
  simp only [operate, register, hvalid, hfree, hconfig, hopen, hmark, Option.map_some]

theorem pathsApart_small : PathsApart smallIno {smallConfig.targetPath} where
  target_ne_bitmap p hp q hq := by
    rw [Set.mem_singleton_iff.mp hp, Set.mem_singleton_iff.mp hq]
    decide
  same_iff p hp q hq := by
    rw [Set.mem_singleton_iff.mp hp, Set.mem_singleton_iff.mp hq]
    exact iff_of_true rfl rfl

theorem freshTargets_small (paths : Set String) : FreshTargets smallIno paths smallFiles := by
  intro p _ f hf b
  obtain ⟨-, rfl⟩ := (Files.get_eq_some _).mp hf
  rfl

/-- The instance of `newBlob` is registered first. -/
theorem register_newInstance : ∃ d f,
    operate headerJson smallIno (start smallFiles none)
      (.register "a" (smallConfigOf newBlob "a") {}) = some d ∧
    d.instances = Function.update (fun _ => none) "a" (some ⟨newInstance, [0], []⟩) ∧
    d.fanotify = none ∧ d.files = smallFiles.put ⟨1, 2⟩ (some f) ∧
    Persisted headerJson ⟨1, 2⟩ newBlob 1048576 smallInstance.rangeMap f [0] := by
  obtain ⟨buf, hbuf⟩ := exists_encodeHeader (encodeHeader_small newBlob (by decide))
  have hnone : smallFiles.get ⟨1, 2⟩ = none := if_neg (by decide)
  obtain ⟨f, hopen, hf⟩ := small_open "a" newBlob_size hbuf
    (rfl : smallFiles.present smallInstance.target = true) hnone
  exact ⟨_, f, register_smallConfigOf newBlob_size rfl rfl hopen, rfl, rfl, rfl, hf⟩

/-- Then that of `oldBlob`, on a bitmap file of `newBlob`. -/
theorem register_oldInstance {f : File} {slots : List UInt8} (hfree : d.instances "b" = none)
    (hfanotify : d.fanotify = none) (htarget : d.files.present smallInstance.target = true)
    (hget : d.files.get ⟨1, 2⟩ = some f)
    (hf : Persisted headerJson ⟨1, 2⟩ newBlob 1048576 smallInstance.rangeMap f slots) :
    ∃ d', operate headerJson smallIno d (.register "b" (smallConfigOf oldBlob "b") {}) = some d' ∧
      d'.instances = Function.update d.instances "b" (some ⟨oldInstance, [0], []⟩) := by
  obtain ⟨buf, hbuf⟩ := exists_encodeHeader (encodeHeader_small oldBlob (by decide))
  obtain ⟨f', hreopen, -⟩ := small_reopen "b" oldBlob_size hbuf htarget hget hf
    (by decide)
  exact ⟨_, register_smallConfigOf oldBlob_size hfree hfanotify hreopen, rfl⟩

/-- An honest fetch of equal bytes. -/
theorem honest_smallEnsure {instanceId : String} {live : Live} {b : UInt8}
    (hlive : d.instances instanceId = some live)
    (hbytes : smallBytes live.inst.config.blob.digest = fun _ => b) :
    Operation.Honest smallBytes d (.ensureRange instanceId 0 3 (smallEnsure [b, b, b])) := by
  intro live' hlive'
  obtain rfl := Option.some.inj (hlive.symm.trans hlive')
  rw [hbytes]
  refine Instance.soloOk_honest (fun bs hmem => ?_) _ _
  simp only [smallEnsure, smallFetch, List.cons_append, List.nil_append, List.mem_cons,
    Instance.Event.reply.injEq, Except.ok.injEq, List.not_mem_nil, reduceCtorEq, false_or,
    or_false] at hmem
  rw [hmem]
  rfl

/-- An instance is registered and fetches its blob. -/
theorem ownBytes_small : ∃ d d' live,
    Relation.ReflTransGen (OperationStep headerJson smallIno fun op d =>
      op.Allowed headerJson smallIno {smallConfig.targetPath} d ∧ op.Honest smallBytes d)
      (start smallFiles none) d ∧
    d.instances "a" = some live ∧ live.inst.config.blob = newBlob ∧
    ensureRange d "a" 0 3 (smallEnsure [7, 7, 7]) = some (.ok, d') ∧
    (d'.files.disk live.inst.target).Holds (smallBytes live.inst.config.blob.digest) 0 (0 + 3) := by
  obtain ⟨d, f, hregister, hinstances, -, -⟩ := register_newInstance
  have hallowed : Operation.Allowed headerJson smallIno {smallConfig.targetPath}
      (start smallFiles none) (.register "a" (smallConfigOf newBlob "a") {}) := by
    refine fun _ _ => ⟨Set.mem_singleton _, fun _ _ _ _ hno => ?_, fun _ _ _ hno => ?_⟩
    · exact absurd hno (by simp [start])
    · exact absurd ((smallFiles_get "a" newBlob).symm.trans hno) (by simp)
  have hrun : Relation.ReflTransGen (OperationStep headerJson smallIno fun op d =>
      op.Allowed headerJson smallIno {smallConfig.targetPath} d ∧ op.Honest smallBytes d)
      (start smallFiles none) d := .single ⟨_, ⟨hallowed, trivial⟩, hregister⟩
  have hlive : d.instances "a" = some ⟨newInstance, [0], []⟩ := by
    rw [hinstances, Function.update_self]
  obtain ⟨d', hensure, -⟩ := ensureRange_of_solo hlive (newInstance_fetches d.files.disk)
  exact ⟨d, d', _, hrun, hlive, rfl, hensure,
    ownBytes_run pathsApart_small (freshTargets_small _) hrun "a" _ 0 3 _ _ hlive
      (honest_smallEnsure hlive smallBytes_newBlob) hensure⟩

/-- **The bytes of another blob.** An instance has fetched its blob; another one is registered for
another blob on the same target and fetches that. Now the first one relies on its ready slot. -/
theorem other_bytes : FreshTargets smallIno Set.univ smallFiles ∧ ∃ d,
    Relation.ReflTransGen (OperationStep headerJson smallIno fun op d => op.Honest smallBytes d)
      (start smallFiles none) d ∧ ¬ OwnBytes smallBytes d := by
  refine ⟨freshTargets_small _, ?_⟩
  obtain ⟨d₁, f, hregister, hinstances, hfanotify, hfiles, hf⟩ := register_newInstance
  -- the first instance fetches its blob
  have hlive₁ : d₁.instances "a" = some ⟨newInstance, [0], []⟩ := by
    rw [hinstances, Function.update_self]
  obtain ⟨d₂, hensure₁, hdisk₂, hpresent₂, hfanotify₂, hinstances₂⟩ :=
    ensureRange_of_solo hlive₁ (newInstance_fetches d₁.files.disk)
  -- its bitmap file is reset for the second one
  have hget : d₂.files.get ⟨1, 2⟩ =
      some (f.writeAt (headerSize + 0) (List.replicate (1 - 0) 1)) := by
    refine (Files.get_eq_some _).mpr ⟨?_, ?_⟩
    · rw [hpresent₂, hfiles]
      exact Files.put_present_self _ _ _
    · have hput : (d₁.files.disk.write smallInstance.target 0 [7, 7, 7]) ⟨1, 2⟩ = f := by
        rw [Disk.write_of_ne _ _ _ (by decide), hfiles]
        exact Files.put_disk_self _ _ _
      rw [hdisk₂, ← hput]
      change smallFetched d₁.files.disk [7, 7, 7] ⟨1, 2⟩ = _
      exact Disk.write_self _ _ _ _
  have htarget : d₂.files.present smallInstance.target = true := by
    have hne : smallInstance.target ≠ ⟨1, 2⟩ := by decide
    rw [hpresent₂, hfiles]
    exact Files.put_present_of_ne _ _ hne
  have hfree : d₂.instances "b" = none := by
    rw [hinstances₂, hinstances, Function.update_of_ne (by decide),
      Function.update_of_ne (by decide)]
  obtain ⟨d₃, hagain, hinstances₃⟩ := register_oldInstance hfree (hfanotify₂.trans hfanotify)
    htarget hget (hf.fill (Nat.zero_le 1) le_rfl 1)
  -- the second instance fetches its blob
  have hlive₃ : d₃.instances "b" = some ⟨oldInstance, [0], []⟩ := by
    rw [hinstances₃, Function.update_self]
  obtain ⟨d₄, hensure₃, hdisk₄, -, -, hinstances₄⟩ :=
    ensureRange_of_solo hlive₃ (oldInstance_fetches d₃.files.disk)
  have hrun : Relation.ReflTransGen
      (OperationStep headerJson smallIno fun op d => op.Honest smallBytes d)
      (start smallFiles none) d₄ :=
    (((Relation.ReflTransGen.single
      ⟨.register "a" (smallConfigOf newBlob "a") {}, trivial, hregister⟩).tail
      ⟨.ensureRange "a" 0 3 (smallEnsure [7, 7, 7]), honest_smallEnsure hlive₁ smallBytes_newBlob,
        congrArg (Option.map Prod.snd) hensure₁⟩).tail
      ⟨.register "b" (smallConfigOf oldBlob "b") {}, trivial, hagain⟩).tail
      ⟨.ensureRange "b" 0 3 (smallEnsure [9, 9, 9]), honest_smallEnsure hlive₃ smallBytes_oldBlob,
        congrArg (Option.map Prod.snd) hensure₃⟩
  -- the first one relies on its ready slot
  have hlive₄ : d₄.instances "a" = some ⟨newInstance, [1], []⟩ := by
    rw [hinstances₄, Function.update_of_ne (by decide), hinstances₃,
      Function.update_of_ne (by decide), hinstances₂, Function.update_self]
  obtain ⟨d₅, hready, hdisk₅, -⟩ :=
    ensureRange_of_solo hlive₄ (newInstance_ready d₄.files.disk)
  have hhonest : Operation.Honest smallBytes d₄ (.ensureRange "a" 0 3 [.check]) := by
    intro live hlive
    refine TaskSystem.soloOk_of_forall (fun e he l => ?_) _ _
    simp only [List.mem_cons, List.not_mem_nil, or_false] at he
    rcases he with rfl | rfl <;> simp only [Instance.Honest]
  refine ⟨d₄, hrun, fun hown => ?_⟩
  have hbyte : (d₅.files.disk ⟨1, 1⟩).byte 0 = smallBytes newBlob.digest 0 :=
    (hown "a" _ 0 3 _ _ hlive₄ hhonest hready 0 le_rfl (by decide)).2
  have hother : (d₄.files.disk ⟨1, 1⟩).byte 0 = 9 := by
    rw [hdisk₄]
    change ((d₃.files.disk.write ⟨1, 1⟩ 0 [9, 9, 9]) ⟨1, 1⟩).byte 0 = 9
    rw [Disk.write_self]
    exact SparseFile.writeAt_byte_of_mem (d₃.files.disk ⟨1, 1⟩) 0 [9, 9, 9] (by decide : 0 < 3)
  have hsame : d₅.files.disk = d₄.files.disk := hdisk₅
  rw [hsame, hother, smallBytes_newBlob] at hbyte
  exact absurd hbyte (by decide)

end Daemon

end Lazyd
