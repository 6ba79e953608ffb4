import Lazyd.Fanotify.Backend
import Lazyd.RangeMap.Persist
import Lazyd.Registry.Open

/-!
# Registering and unregistering instances

`InstanceRegistry::register` and `InstanceRegistry::unregister` as complete calls on the state of
the daemon: the files, the registered instances and the fanotify backend, if there is one.

## Main definitions

* `Daemon`, `Daemon.start` : the state of the daemon, and a daemon that has just been started.
* `Daemon.register`, `Daemon.unregister`.

## Main results

* `Registers.of_register`, `Unregisters.of_unregister` : everything that the two calls can do.

Source: `src/instance.rs`, lines 56–64 and 110–169.
-/

namespace Lazyd

/-- The state of the daemon and its files. -/
structure Daemon where
  files : Files
  instances : String → Option Live
  fanotify : Option FanotifyBackend

namespace Daemon

/-- A daemon that has just been started on the given files. -/
def start (files : Files) (fanotify : Option FanotifyBackend) : Daemon where
  files := files
  instances _ := none
  fanotify := fanotify

/-- What the environment answers while an instance is registered. -/
structure RegisterAnswers where
  opening : OpenAnswers := {}
  /-- the result of `OciRemoteBackend::from_config` -/
  remote : Except Error Unit := .ok ()
  mark : MarkFaults := {}

variable (codec : HeaderCodec) (ino : String → FileKey) (d : Daemon)

/-- The checks of `register` that come first. -/
def validateConfig (config : InstanceConfig) : Except Error Unit :=
  if config.targetPath = "" then .error (.badRequest "target_path is required")
  else if config.blob.size = 0 then .error (.badRequest "blob size must be greater than zero")
  else validateFetchUnitBytes config.fetch.unitBytes.toNat

/-- The part of `register` that marks the target. -/
def markTarget (instanceId : String) (config : InstanceConfig) (faults : MarkFaults) :
    Except Error Unit × Daemon :=
  match config.triggerMode, d.fanotify with
  | .fanotify, some backend =>
    match backend.mark instanceId config.targetPath (ino config.targetPath) faults with
    | (res, backend) => (res, { d with fanotify := some backend })
  | _, _ => (.ok (), d)

/-- `InstanceRegistry::register` -/
def register (instanceId : String) (config : InstanceConfig) (answers : RegisterAnswers) :
    Option (Except Error Unit × Daemon) :=
  match validateConfig config with
  | .error err => some (.error err, d)
  | .ok () =>
    let config := { config with instanceId }
    match d.instances instanceId with
    | some existing =>
      if existing.inst.config.same config then some (.ok (), d)
      else some (.error (.conflict "instance already exists with different config"), d)
    | none =>
      match openInstance codec ino config answers.opening answers.remote d.files with
      | none => none
      | some (.error err, files) => some (.error err, { d with files })
      | some (.ok live, files) =>
        match markTarget ino { d with files } instanceId config answers.mark with
        | (.error err, d) => some (.error err, d)
        | (.ok (), d) =>
          some (.ok (), { d with instances := Function.update d.instances instanceId (some live) })

/-- The part of `unregister` that unmarks the target. -/
def unmarkTarget (config : InstanceConfig) (faults : MarkFaults) : Except Error Unit × Daemon :=
  match config.triggerMode, d.fanotify with
  | .fanotify, some backend =>
    match backend.unmark config.targetPath (ino config.targetPath) faults with
    | (res, backend) => (res, { d with fanotify := some backend })
  | _, _ => (.ok (), d)

/-- `InstanceRegistry::unregister` -/
def unregister (instanceId : String) (faults : MarkFaults) : Except Error Unit × Daemon :=
  match d.instances instanceId with
  | none => (.ok (), d)
  | some live =>
    let d := { d with instances := Function.update d.instances instanceId none }
    unmarkTarget ino d live.inst.config faults

/-! ### What the calls can do -/

/-- Marking changes the backend only. -/
theorem markTarget_files {ino : String → FileKey} {d d' : Daemon} {instanceId : String}
    {config : InstanceConfig} {faults : MarkFaults} {res : Except Error Unit}
    (h : markTarget ino d instanceId config faults = (res, d')) :
    d'.files = d.files ∧ d'.instances = d.instances := by
  unfold markTarget at h
  split at h <;> obtain ⟨-, rfl⟩ := Prod.mk.inj h <;> exact ⟨rfl, rfl⟩

theorem unmarkTarget_files (config : InstanceConfig) (faults : MarkFaults) :
    (unmarkTarget ino d config faults).2.files = d.files ∧
      (unmarkTarget ino d config faults).2.instances = d.instances := by
  unfold unmarkTarget
  split <;> exact ⟨rfl, rfl⟩

/-- The results of `register`, one constructor for each stage that it ends in. -/
inductive Registers (instanceId : String) (config : InstanceConfig) (answers : RegisterAnswers) :
    Except Error Unit → Daemon → Prop
  /-- the configuration is not valid, or the id is registered -/
  | unchanged (res : Except Error Unit) : Registers instanceId config answers res d
  | notOpened {err : Error} {files : Files} (hfree : d.instances instanceId = none)
      (hopen : openInstance codec ino { config with instanceId } answers.opening answers.remote
        d.files = some (.error err, files)) :
      Registers instanceId config answers (.error err) { d with files }
  | notMarked {live : Live} {err : Error} {files : Files} {d' : Daemon}
      (hfree : d.instances instanceId = none)
      (hopen : openInstance codec ino { config with instanceId } answers.opening answers.remote
        d.files = some (.ok live, files))
      (hmark : markTarget ino { d with files } instanceId { config with instanceId }
        answers.mark = (.error err, d')) :
      Registers instanceId config answers (.error err) d'
  | registered {live : Live} {files : Files} {d' : Daemon}
      (hfree : d.instances instanceId = none)
      (hopen : openInstance codec ino { config with instanceId } answers.opening answers.remote
        d.files = some (.ok live, files))
      (hmark : markTarget ino { d with files } instanceId { config with instanceId }
        answers.mark = (.ok (), d')) :
      Registers instanceId config answers (.ok ())
        { d' with instances := Function.update d'.instances instanceId (some live) }

variable {codec ino d}

/-- **Inversion of a registration.** -/
theorem Registers.of_register {instanceId : String} {config : InstanceConfig}
    {answers : RegisterAnswers} {res : Except Error Unit} {d' : Daemon}
    (h : register codec ino d instanceId config answers = some (res, d')) :
    Registers codec ino d instanceId config answers res d' := by
  unfold register at h
  split at h
  · obtain ⟨rfl, rfl⟩ := Prod.mk.inj (Option.some.inj h)
    exact .unchanged _
  · dsimp only at h
    split at h
    · split_ifs at h <;>
      · obtain ⟨rfl, rfl⟩ := Prod.mk.inj (Option.some.inj h)
        exact .unchanged _
    · rename_i hfree
      split at h
      · exact absurd h (by simp)
      · rename_i hopen
        obtain ⟨rfl, rfl⟩ := Prod.mk.inj (Option.some.inj h)
        exact .notOpened hfree hopen
      · rename_i hopen
        split at h
        · rename_i hmark
          obtain ⟨rfl, rfl⟩ := Prod.mk.inj (Option.some.inj h)
          exact .notMarked hfree hopen hmark
        · rename_i hmark
          obtain ⟨rfl, rfl⟩ := Prod.mk.inj (Option.some.inj h)
          exact .registered hfree hopen hmark

/-- A registration changes no file but the bitmap file. -/
theorem Registers.get_of_ne {instanceId : String} {config : InstanceConfig}
    {answers : RegisterAnswers} {res : Except Error Unit} {d' : Daemon}
    (h : Registers codec ino d instanceId config answers res d') {key : FileKey}
    (hkey : key ≠ ino (bitmapPath config.targetPath)) : d'.files.get key = d.files.get key := by
  have hopened {res : Except Error Live} {files : Files}
      (hopen : openInstance codec ino { config with instanceId } answers.opening answers.remote
        d.files = some (res, files)) : files.get key = d.files.get key := by
    rcases openInstance_cases hopen with ⟨err, rfl, rfl⟩ | ⟨res', hcache, -⟩
    · rfl
    · exact hcache.get_of_ne hkey
  cases h with
  | unchanged => rfl
  | notOpened hfree hopen => exact hopened hopen
  | notMarked hfree hopen hmark =>
    rw [(markTarget_files hmark).1]
    exact hopened hopen
  | registered hfree hopen hmark =>
    refine (congrArg (fun files : Files => files.get key) (markTarget_files hmark).1).trans ?_
    exact hopened hopen

/-- A registration that fails registers nothing. -/
theorem Registers.instances_of_error {instanceId : String} {config : InstanceConfig}
    {answers : RegisterAnswers} {err : Error} {d' : Daemon}
    (h : Registers codec ino d instanceId config answers (.error err) d') :
    d'.instances = d.instances := by
  cases h with
  | unchanged | notOpened => rfl
  | notMarked hfree hopen hmark => exact (markTarget_files hmark).2

/-- A registration registers no other id. -/
theorem Registers.instances_of_ne {instanceId : String} {config : InstanceConfig}
    {answers : RegisterAnswers} {res : Except Error Unit} {d' : Daemon}
    (h : Registers codec ino d instanceId config answers res d') {id : String}
    (hid : id ≠ instanceId) : d'.instances id = d.instances id := by
  cases h with
  | unchanged | notOpened => rfl
  | notMarked hfree hopen hmark => rw [(markTarget_files hmark).2]
  | registered hfree hopen hmark =>
    refine (Function.update_of_ne hid _ _).trans ?_
    rw [(markTarget_files hmark).2]

/-- An instance stays registered. -/
theorem Registers.instances_some {instanceId : String} {config : InstanceConfig}
    {answers : RegisterAnswers} {res : Except Error Unit} {d' : Daemon}
    (h : Registers codec ino d instanceId config answers res d') {id : String} {live : Live}
    (hid : d.instances id = some live) : d'.instances id = some live := by
  cases h with
  | unchanged | notOpened => exact hid
  | notMarked hfree hopen hmark =>
    rw [(markTarget_files hmark).2]
    exact hid
  | registered hfree hopen hmark =>
    have hne : id ≠ instanceId := by
      rintro rfl
      exact absurd (hid.symm.trans hfree) (by simp)
    refine (Function.update_of_ne hne _ _).trans ?_
    rw [(markTarget_files hmark).2]
    exact hid

/-- A registration that succeeds leaves an instance of the same configuration. -/
theorem register_ok_same {instanceId : String} {config : InstanceConfig} {answers : RegisterAnswers}
    {d' : Daemon} (h : register codec ino d instanceId config answers = some (.ok (), d')) :
    ∃ live, d'.instances instanceId = some live ∧
      live.inst.config.same { config with instanceId } = true := by
  unfold register at h
  split at h
  · exact absurd h (by simp)
  · dsimp only at h
    split at h
    · rename_i live hlive
      split_ifs at h with hsame
      · obtain ⟨-, rfl⟩ := Prod.mk.inj (Option.some.inj h)
        exact ⟨live, hlive, hsame⟩
      · exact absurd h (by simp)
    · split at h
      · exact absurd h (by simp)
      · exact absurd h (by simp)
      · rename_i hopen
        split at h
        · exact absurd h (by simp)
        · obtain ⟨-, rfl⟩ := Prod.mk.inj (Option.some.inj h)
          refine ⟨_, Function.update_self _ _ _, ?_⟩
          rw [(openInstance_target hopen).1, InstanceConfig.same_refl]

/-- A registration that meets no error. -/
theorem register_opened {instanceId : String} {config : InstanceConfig} {answers : RegisterAnswers}
    {live : Live} {files : Files} {d' : Daemon} (hvalid : validateConfig config = .ok ())
    (hfree : d.instances instanceId = none)
    (hcache : openCache codec ino { config with instanceId } answers.opening d.files =
      some (.ok live, files)) (hremote : answers.remote = .ok ())
    (hmark : markTarget ino { d with files } instanceId { config with instanceId } answers.mark =
      (.ok (), d')) :
    register codec ino d instanceId config answers =
      some (.ok (),
        { d' with instances := Function.update d'.instances instanceId (some live) }) := by
  have hunit : validateFetchUnitBytes config.fetch.unitBytes.toNat = .ok () := by
    rw [validateConfig] at hvalid
    split_ifs at hvalid
    exact hvalid
  simp only [register, hvalid, hfree, openInstance, hunit, hcache, hremote, hmark]

/-- An instance that is there is kept, and the call succeeds only with the same configuration. -/
theorem register_existing {instanceId : String} {config : InstanceConfig}
    {answers : RegisterAnswers} {live : Live} (hvalid : validateConfig config = .ok ())
    (hlive : d.instances instanceId = some live) :
    register codec ino d instanceId config answers =
      if live.inst.config.same { config with instanceId } then some (.ok (), d)
      else some (.error (.conflict "instance already exists with different config"), d) := by
  simp only [register, hvalid, hlive]

theorem register_conflict {instanceId : String} {config : InstanceConfig}
    {answers : RegisterAnswers} {live : Live} (hvalid : validateConfig config = .ok ())
    (hlive : d.instances instanceId = some live)
    (hsame : live.inst.config.same { config with instanceId } = false) :
    register codec ino d instanceId config answers =
      some (.error (.conflict "instance already exists with different config"), d) := by
  rw [register_existing hvalid hlive, hsame]
  rfl

/-! ### A small daemon -/

/-- The files that the path of `smallConfig` and its bitmap name. -/
def smallIno (path : String) : FileKey :=
  if path = smallConfig.targetPath then smallInstance.target else smallInstance.rangeMap.file

/-- `smallConfig` for another blob. -/
def smallConfigOf (blob : BlobDescriptor) (instanceId : String) : InstanceConfig :=
  { smallConfig with blob, instanceId }

theorem smallIno_bitmapPath : smallIno (bitmapPath smallConfig.targetPath) = ⟨1, 2⟩ :=
  if_neg (by decide)

/-- A target of three bytes and nothing else. -/
def smallFiles : Files where
  disk _ := newFile.setLen 3
  present key := key = smallInstance.target

theorem smallFiles_get (instanceId : String) (blob : BlobDescriptor) :
    smallFiles.get (smallIno (bitmapPath (smallConfigOf blob instanceId).targetPath)) = none := by
  rw [smallConfigOf, smallIno_bitmapPath]
  rfl

theorem smallIno_geometry (instanceId : String) {blob : BlobDescriptor} (h : blob.size = 3) :
    RangeMap.geometry (smallIno (bitmapPath (smallConfigOf blob instanceId).targetPath))
      (smallConfigOf blob instanceId).blob.size (smallConfigOf blob instanceId).fetch.unitBytes =
        .ok smallInstance.rangeMap := by
  rw [smallConfigOf, smallIno_bitmapPath, h]
  exact smallInstance.rangeMap.geometry_self smallInstance.blobSize_eq smallInstance.unitBytes_eq

/-- The instance of `smallConfigOf`, for a blob of three bytes. -/
def smallInstanceOf (blob : BlobDescriptor) (instanceId : String) (h : blob.size = 3) :
    Instance where
  config := smallConfigOf blob instanceId
  target := smallInstance.target
  rangeMap := smallInstance.rangeMap
  trusted := true
  blobSize_eq := (congrArg UInt64.toNat h).symm
  unitBytes_eq := rfl
  trusted_eq := rfl

theorem openInstance_smallConfigOf (blob : BlobDescriptor) (instanceId : String) (files : Files) :
    openInstance headerJson smallIno (smallConfigOf blob instanceId) {} (.ok ()) files =
      openCache headerJson smallIno (smallConfigOf blob instanceId) {} files := by
  have hvalid : validateFetchUnitBytes (smallConfigOf blob instanceId).fetch.unitBytes.toNat =
      .ok () := (rfl : validateFetchUnitBytes smallConfig.fetch.unitBytes.toNat = .ok ())
  simp only [openInstance, hvalid]
  split <;> simp_all

section SmallInstanceOf

variable {blob : BlobDescriptor} {buf : List UInt8} {files : Files} (instanceId : String)
  (h : blob.size = 3) (hbuf : encodeHeader headerJson (expectedHeader blob 1048576 1) = .ok buf)
  (htarget : files.present smallInstance.target = true)

include hbuf htarget in
/-- It is opened when there is no bitmap file yet. -/
theorem small_open (hbitmap : files.get ⟨1, 2⟩ = none) :
    ∃ f, openInstance headerJson smallIno (smallConfigOf blob instanceId) {} (.ok ()) files =
        some (.ok ⟨smallInstanceOf blob instanceId h, [0], []⟩, files.put ⟨1, 2⟩ (some f)) ∧
      Persisted headerJson ⟨1, 2⟩ blob 1048576 smallInstance.rangeMap f [0] := by
  have hm := smallIno_geometry instanceId h
  rw [← smallIno_bitmapPath] at hbitmap
  obtain ⟨live, hcache, hlive⟩ := openCache_new hm hbuf htarget hbitmap
  have heq : live = ⟨smallInstanceOf blob instanceId h, _, []⟩ := hlive.eq rfl rfl rfl
  have hlength := length_encodeHeader hbuf
  refine ⟨_, ?_, persisted_of_written ?_ (written_resetFile newFile hbuf) fun k hk => ?_⟩
  · rw [openInstance_smallConfigOf, hcache, heq, smallConfigOf, smallIno_bitmapPath]
    rfl
  · rw [← smallIno_bitmapPath]
    exact hm
  · rw [resetFile_slot newFile hlength hk, if_pos hk]

include hbuf htarget in
/-- It is opened on the bitmap file of another blob. -/
theorem small_reopen {other : BlobDescriptor} {f : File} {slots : List UInt8}
    (hbitmap : files.get ⟨1, 2⟩ = some f)
    (hf : Persisted headerJson ⟨1, 2⟩ other 1048576 smallInstance.rangeMap f slots)
    (hother : blob.digest ≠ other.digest) :
    ∃ f, openInstance headerJson smallIno (smallConfigOf blob instanceId) {} (.ok ()) files =
        some (.ok ⟨smallInstanceOf blob instanceId h, [0], []⟩, files.put ⟨1, 2⟩ (some f)) ∧
      Persisted headerJson ⟨1, 2⟩ blob 1048576 smallInstance.rangeMap f [0] := by
  have hm : RangeMap.geometry ⟨1, 2⟩ blob.size 1048576 = .ok smallInstance.rangeMap := by
    rw [← smallIno_bitmapPath]
    exact smallIno_geometry instanceId h
  have hlength := length_encodeHeader hbuf
  have hopen : openOrCreate headerJson
      (smallIno (bitmapPath (smallConfigOf blob instanceId).targetPath))
      (smallConfigOf blob instanceId).blob (smallConfigOf blob instanceId).fetch.unitBytes
      ({} : OpenAnswers).bitmap
      (files.get (smallIno (bitmapPath (smallConfigOf blob instanceId).targetPath))) =
        (.ok ⟨smallInstance.rangeMap, [0], false⟩, some (resetFile f 1 buf headerSize 1)) := by
    rw [smallConfigOf, smallIno_bitmapPath, hbitmap]
    exact hf.openOrCreate_other hm hbuf (Or.inl hother)
  have hcache := openCache_clear (openTarget_ok htarget) hopen rfl
  have hinst : openedInstance (smallConfigOf blob instanceId) smallInstance.target _
      smallInstance.rangeMap (openOrCreate_rangeMap hopen) = smallInstanceOf blob instanceId h :=
    Instance.eq_of rfl rfl rfl
  refine ⟨_, ?_, persisted_of_written hm (written_resetFile f hbuf) fun k hk => ?_⟩
  · have hkey : smallIno (bitmapPath (smallConfigOf blob instanceId).targetPath) = ⟨1, 2⟩ :=
      smallIno_bitmapPath
    rw [openInstance_smallConfigOf, ← hinst, ← hkey]
    exact hcache
  · rw [resetFile_slot f hlength hk, if_pos hk]

end SmallInstanceOf

/-- A fetch of the three bytes of the blob, after the readiness check has failed twice. -/
def smallFetch (bytes : List UInt8) : List Instance.Event :=
  [.reply (.ok bytes), .wrote (.ok 3), .marked (.ok 1), .fill, .release]

/-- The files after it. -/
def smallFetched (disk : Disk) (bytes : List UInt8) : Disk :=
  (disk.write smallInstance.target 0 bytes).write smallInstance.rangeMap.file headerSize [1]

/-- A bitmap file of `newBlob` with no ready slot. -/
def FreshBitmap (f : File) : Prop :=
  ∃ buf, encodeHeader headerJson (expectedHeader newBlob 1048576 1) = .ok buf ∧
    f.len = headerSize + 1 ∧ headerBytes f = buf ∧ ∀ k < 1, f.byte (headerSize + k) = 0

section NewBlob

variable {ino : String → FileKey} {config : InstanceConfig} {files : Files}

theorem geometry_newBlob (hblob : config.blob = newBlob) (hunit : config.fetch.unitBytes = 1048576)
    (file : FileKey) : RangeMap.geometry file config.blob.size config.fetch.unitBytes =
      .ok { smallInstance.rangeMap with file } := by
  rw [hblob, hunit]
  exact RangeMap.geometry_self { smallInstance.rangeMap with file } rfl rfl

/-- The header of the bitmap file of `newBlob`. -/
theorem encodeHeader_newBlob (hblob : config.blob = newBlob)
    (hunit : config.fetch.unitBytes = 1048576) {buf : List UInt8}
    (hbuf : encodeHeader headerJson (expectedHeader newBlob 1048576 1) = .ok buf) :
    encodeHeader headerJson (expectedHeader config.blob config.fetch.unitBytes 1) = .ok buf := by
  rw [hblob, hunit]
  exact hbuf

theorem validateFetchUnitBytes_mebibyte (hunit : config.fetch.unitBytes = 1048576) :
    validateFetchUnitBytes config.fetch.unitBytes.toNat = .ok () := by
  rw [hunit]
  rfl

/-- `newBlob` is opened on a target that is there, with no bitmap next to it. -/
theorem openInstance_newBlob (hblob : config.blob = newBlob)
    (hunit : config.fetch.unitBytes = 1048576)
    (htarget : files.present (ino config.targetPath) = true)
    (hbitmap : files.get (ino (bitmapPath config.targetPath)) = none) :
    ∃ live f, openInstance headerJson ino config {} (.ok ()) files =
        some (.ok live, files.put (ino (bitmapPath config.targetPath)) (some f)) ∧
      live.inst.config = config ∧ live.inst.target = ino config.targetPath ∧ FreshBitmap f := by
  obtain ⟨buf, hbuf⟩ := exists_encodeHeader (encodeHeader_small newBlob (by decide))
  have hlength := length_encodeHeader hbuf
  have hencode := encodeHeader_newBlob hblob hunit hbuf
  have hvalid := validateFetchUnitBytes_mebibyte hunit
  obtain ⟨live, hcache, hlive⟩ :=
    openCache_new (geometry_newBlob hblob hunit _) hencode htarget hbitmap
  refine ⟨live, resetFile newFile 1 buf headerSize 1, ?_, hlive.config_eq, hlive.target_eq,
    buf, hbuf, resetFile_len newFile hlength le_rfl, headerBytes_resetFile_all newFile hlength,
    fun k hk => ?_⟩
  · simp only [openInstance, hvalid, hcache]
    rfl
  · rw [resetFile_slot newFile hlength hk, if_pos hk]

/-- `newBlob` is opened again. -/
theorem openInstance_freshBitmap {f : File} (hblob : config.blob = newBlob)
    (hunit : config.fetch.unitBytes = 1048576)
    (htarget : files.present (ino config.targetPath) = true)
    (hbitmap : files.get (ino (bitmapPath config.targetPath)) = some f) (hf : FreshBitmap f) :
    ∃ live, openInstance headerJson ino config {} (.ok ()) files =
        some (.ok live, files.put (ino (bitmapPath config.targetPath)) (some f)) ∧
      live.inst.config = config ∧ live.inst.target = ino config.targetPath := by
  obtain ⟨buf, hbuf, hlen, hheader, hclear⟩ := hf
  have hencode := encodeHeader_newBlob hblob hunit hbuf
  have hvalid := validateFetchUnitBytes_mebibyte hunit
  obtain ⟨live, hcache, hlive⟩ := openCache_written (geometry_newBlob hblob hunit _) hencode htarget
    hbitmap hlen hheader hclear
  refine ⟨live, ?_, hlive.config_eq, hlive.target_eq⟩
  simp only [openInstance, hvalid, hcache]

end NewBlob

end Daemon

end Lazyd
