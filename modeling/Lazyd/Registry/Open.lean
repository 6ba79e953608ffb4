import Lazyd.Instance.Allocated
import Lazyd.RangeMap.Opened

/-!
# Opening an instance on the files

`Instance::open` and the part of `prepare_cache_layers` that does the same: the target is opened,
the range map next to it is opened or created, and the slots of a range map that was there before
are reconciled with the target.

What a path resolves to is fixed by a function from paths to files; several paths may name one file.
A complete opening meets certain answers of the file system. `none` stands for answers that do not
fit, since the recovery has not ended with them.

## Main definitions

* `Files`, `Live` : the files, and an open instance with its state in memory.
* `openCache`, `openInstance`.

## Main results

* `OpensCache.of_openCache` : everything that opening can do.

Source: `src/instance.rs`, lines 171–222; `src/range_map.rs`, lines 181–183; `src/prepare.rs`,
lines 117–125.
-/

namespace Lazyd

/-- The files that exist, and what is in them. -/
structure Files where
  disk : Disk
  present : FileKey → Bool

namespace Files

variable (files : Files)

/-- The file, if it exists. -/
def get (key : FileKey) : Option File := if files.present key then some (files.disk key) else none

/-- The files after one of them has been created or changed. -/
def put (key : FileKey) : Option File → Files
  | none => files
  | some f =>
    { disk := Function.update files.disk key f
      present := Function.update files.present key true }

theorem put_disk_of_ne {key key' : FileKey} (f : Option File) (h : key' ≠ key) :
    (files.put key f).disk key' = files.disk key' := by
  cases f with
  | none => rfl
  | some f => exact Function.update_of_ne h _ _

theorem put_disk_self (key : FileKey) (f : File) : (files.put key (some f)).disk key = f :=
  Function.update_self _ _ _

theorem put_present_of_ne {key key' : FileKey} (f : Option File) (h : key' ≠ key) :
    (files.put key f).present key' = files.present key' := by
  cases f with
  | none => rfl
  | some f => exact Function.update_of_ne h _ _

theorem put_present_self (key : FileKey) (f : File) :
    (files.put key (some f)).present key = true := Function.update_self _ _ _

theorem put_get_of_ne {key key' : FileKey} (f : Option File) (h : key' ≠ key) :
    (files.put key f).get key' = files.get key' := by
  rw [get, get, put_present_of_ne files f h, put_disk_of_ne files f h]

theorem put_get_self (key : FileKey) (f : File) : (files.put key (some f)).get key = some f := by
  rw [get, put_present_self, put_disk_self, if_pos rfl]

theorem put_of_get {key : FileKey} {f : File} (h : files.get key = some f) :
    files.put key (some f) = files := by
  rw [get] at h
  split_ifs at h with hpresent
  obtain rfl := Option.some.inj h
  rw [put, Function.update_eq_self, ← hpresent, Function.update_eq_self]

theorem get_eq_some {key : FileKey} {f : File} :
    files.get key = some f ↔ files.present key = true ∧ files.disk key = f := by
  rw [get]
  split_ifs with h <;> simp [h]

end Files

/-- `bitmap_path` -/
def bitmapPath (targetPath : String) : String := targetPath ++ ".bitmap"

/-- An open instance, with the slots and the ranges in flight that it has in memory. -/
structure Live where
  inst : Instance
  slots : List UInt8
  inflight : List Range

/-- What the tasks of an open instance share. -/
def Live.shared (live : Live) (disk : Disk) : Instance.Shared where
  disk := disk
  slots := live.slots
  inflight := live.inflight

/-- What the file system answers while an instance is opened. -/
structure OpenAnswers where
  target : Option IoError := none
  bitmap : OpenFaults := {}
  recovery : List Instance.RecoveryEvent := []

section Open

variable (codec : HeaderCodec) (ino : String → FileKey)

/-- The error that opening the target ends with: the one met, or that there is no such file. -/
def openTarget (files : Files) (key : FileKey) : Option IoError → Except Error Unit
  | some err => .error (.io err)
  | none => if files.present key then .ok () else .error (.io (.os 2))

theorem openTarget_ok {files : Files} {key : FileKey} (h : files.present key = true) :
    openTarget files key none = .ok () := if_pos h

/-- The instance of an open range map. -/
def openedInstance (config : InstanceConfig) (target file : FileKey) (m : RangeMap)
    (h : RangeMap.geometry file config.blob.size config.fetch.unitBytes = .ok m) : Instance where
  config := config
  target := target
  rangeMap := m
  trusted := true
  blobSize_eq := (RangeMap.geometry_eq_ok h).2.2
  unitBytes_eq := (RangeMap.geometry_eq_ok h).2.1
  trusted_eq := rfl

/-- The target and its range map are opened, and the range map is reconciled where it has to be. -/
def openCache (config : InstanceConfig) (answers : OpenAnswers) (files : Files) :
    Option (Except Error Live × Files) :=
  let target := ino config.targetPath
  let bitmap := ino (bitmapPath config.targetPath)
  match openTarget files target answers.target with
  | .error err => some (.error err, files)
  | .ok () =>
    match hopen : openOrCreate codec bitmap config.blob config.fetch.unitBytes answers.bitmap
        (files.get bitmap) with
    | (.error err, f) => some (.error err, files.put bitmap f)
    | (.ok opened, f) =>
      let files := files.put bitmap f
      let inst := openedInstance config target bitmap opened.rangeMap (openOrCreate_rangeMap hopen)
      if opened.needsRecovery then
        match inst.recovery.solo ⟨files.disk, opened.slots, []⟩
            (Instance.startRecovery opened.slots) answers.recovery with
        | some (s, .recovered) =>
          some (.ok ⟨inst, s.slots, s.inflight⟩, { files with disk := s.disk })
        | some (s, .failed err) => some (.error err, { files with disk := s.disk })
        | _ => none
      else some (.ok ⟨inst, opened.slots, []⟩, files)

/-- `Instance::open`; `remote` is the result of `OciRemoteBackend::from_config`. -/
def openInstance (config : InstanceConfig) (answers : OpenAnswers) (remote : Except Error Unit)
    (files : Files) : Option (Except Error Live × Files) :=
  match validateFetchUnitBytes config.fetch.unitBytes.toNat with
  | .error err => some (.error err, files)
  | .ok () =>
    match openCache codec ino config answers files with
    | none => none
    | some (.error err, files) => some (.error err, files)
    | some (.ok live, files) =>
      match remote with
      | .error err => some (.error err, files)
      | .ok () => some (.ok live, files)

/-! ### What opening can do -/

/-- The results of `openCache`, one constructor for each way through it. -/
inductive OpensCache (config : InstanceConfig) (answers : OpenAnswers) (files : Files) :
    Except Error Live → Files → Prop
  | target (err : Error) : OpensCache config answers files (.error err) files
  | failed {err : Error} {f : Option File}
      (hopen : openOrCreate codec (ino (bitmapPath config.targetPath)) config.blob
        config.fetch.unitBytes answers.bitmap (files.get (ino (bitmapPath config.targetPath))) =
          (.error err, f)) :
      OpensCache config answers files (.error err)
        (files.put (ino (bitmapPath config.targetPath)) f)
  | clear {opened : OpenedRangeMap} {f : Option File}
      (hopen : openOrCreate codec (ino (bitmapPath config.targetPath)) config.blob
        config.fetch.unitBytes answers.bitmap (files.get (ino (bitmapPath config.targetPath))) =
          (.ok opened, f)) (hrecovery : opened.needsRecovery = false) :
      OpensCache config answers files
        (.ok ⟨openedInstance config (ino config.targetPath) _ opened.rangeMap
          (openOrCreate_rangeMap hopen), opened.slots, []⟩)
        (files.put (ino (bitmapPath config.targetPath)) f)
  | recovered {opened : OpenedRangeMap} {f : Option File} {s : Instance.Shared}
      (hopen : openOrCreate codec (ino (bitmapPath config.targetPath)) config.blob
        config.fetch.unitBytes answers.bitmap (files.get (ino (bitmapPath config.targetPath))) =
          (.ok opened, f))
      (hsolo : (openedInstance config (ino config.targetPath) _ opened.rangeMap
          (openOrCreate_rangeMap hopen)).recovery.solo
        ⟨(files.put (ino (bitmapPath config.targetPath)) f).disk, opened.slots, []⟩
        (Instance.startRecovery opened.slots) answers.recovery = some (s, .recovered)) :
      OpensCache config answers files
        (.ok ⟨openedInstance config (ino config.targetPath) _ opened.rangeMap
          (openOrCreate_rangeMap hopen), s.slots, s.inflight⟩)
        { files.put (ino (bitmapPath config.targetPath)) f with disk := s.disk }
  | notRecovered {opened : OpenedRangeMap} {f : Option File} {s : Instance.Shared} {err : Error}
      (hopen : openOrCreate codec (ino (bitmapPath config.targetPath)) config.blob
        config.fetch.unitBytes answers.bitmap (files.get (ino (bitmapPath config.targetPath))) =
          (.ok opened, f))
      (hsolo : (openedInstance config (ino config.targetPath) _ opened.rangeMap
          (openOrCreate_rangeMap hopen)).recovery.solo
        ⟨(files.put (ino (bitmapPath config.targetPath)) f).disk, opened.slots, []⟩
        (Instance.startRecovery opened.slots) answers.recovery = some (s, .failed err)) :
      OpensCache config answers files (.error err)
        { files.put (ino (bitmapPath config.targetPath)) f with disk := s.disk }

variable {codec ino} {config : InstanceConfig} {answers : OpenAnswers} {files files' : Files}
  {res : Except Error Live}

/-- **Opening inversion.** -/
theorem OpensCache.of_openCache
    (h : openCache codec ino config answers files = some (res, files')) :
    OpensCache codec ino config answers files res files' := by
  unfold openCache at h
  dsimp only at h
  split at h
  · obtain ⟨rfl, rfl⟩ := Prod.mk.inj (Option.some.inj h)
    exact .target _
  · split at h
    · rename_i hopen
      obtain ⟨rfl, rfl⟩ := Prod.mk.inj (Option.some.inj h)
      exact .failed hopen
    · rename_i hopen
      split_ifs at h with hrecovery
      · split at h
        · rename_i hsolo
          obtain ⟨rfl, rfl⟩ := Prod.mk.inj (Option.some.inj h)
          exact .recovered hopen hsolo
        · rename_i hsolo
          obtain ⟨rfl, rfl⟩ := Prod.mk.inj (Option.some.inj h)
          exact .notRecovered hopen hsolo
        · exact absurd h (by simp)
      · obtain ⟨rfl, rfl⟩ := Prod.mk.inj (Option.some.inj h)
        exact .clear hopen (Bool.eq_false_iff.mpr hrecovery)

/-- An opening that finds nothing to reconcile. -/
theorem openCache_clear {opened : OpenedRangeMap} {f : Option File}
    (htarget : openTarget files (ino config.targetPath) answers.target = .ok ())
    (hopen : openOrCreate codec (ino (bitmapPath config.targetPath)) config.blob
      config.fetch.unitBytes answers.bitmap (files.get (ino (bitmapPath config.targetPath))) =
        (.ok opened, f)) (hrecovery : opened.needsRecovery = false) :
    openCache codec ino config answers files =
      some (.ok ⟨openedInstance config (ino config.targetPath) _ opened.rangeMap
        (openOrCreate_rangeMap hopen), opened.slots, []⟩,
        files.put (ino (bitmapPath config.targetPath)) f) := by
  simp only [openCache, htarget]
  split
  · rename_i hno
    exact absurd (Prod.mk.inj (hno.symm.trans hopen)).1 (by simp)
  · rename_i hopen'
    obtain ⟨hopened, rfl⟩ := Prod.mk.inj (hopen'.symm.trans hopen)
    obtain rfl := Except.ok.inj hopened
    rw [if_neg (by simp [hrecovery])]

/-- An opening that reconciles the slots. -/
theorem openCache_recovered {opened : OpenedRangeMap} {f : Option File} {s : Instance.Shared}
    (htarget : openTarget files (ino config.targetPath) answers.target = .ok ())
    (hopen : openOrCreate codec (ino (bitmapPath config.targetPath)) config.blob
      config.fetch.unitBytes answers.bitmap (files.get (ino (bitmapPath config.targetPath))) =
        (.ok opened, f)) (hrecovery : opened.needsRecovery = true)
    (hsolo : (openedInstance config (ino config.targetPath) _ opened.rangeMap
        (openOrCreate_rangeMap hopen)).recovery.solo
      ⟨(files.put (ino (bitmapPath config.targetPath)) f).disk, opened.slots, []⟩
      (Instance.startRecovery opened.slots) answers.recovery = some (s, .recovered)) :
    openCache codec ino config answers files =
      some (.ok ⟨openedInstance config (ino config.targetPath) _ opened.rangeMap
        (openOrCreate_rangeMap hopen), s.slots, s.inflight⟩,
        { files.put (ino (bitmapPath config.targetPath)) f with disk := s.disk }) := by
  simp only [openCache, htarget]
  split
  · rename_i hno
    exact absurd (Prod.mk.inj (hno.symm.trans hopen)).1 (by simp)
  · rename_i hopen'
    obtain ⟨hopened, rfl⟩ := Prod.mk.inj (hopen'.symm.trans hopen)
    obtain rfl := Except.ok.inj hopened
    rw [if_pos hrecovery]
    simp only [hsolo]

/-- An instance of the configuration, on the files that its paths name, with the given slots. -/
structure Opened (ino : String → FileKey) (config : InstanceConfig) (m : RangeMap)
    (slots : List UInt8) (live : Live) : Prop where
  config_eq : live.inst.config = config
  target_eq : live.inst.target = ino config.targetPath
  rangeMap_eq : live.inst.rangeMap = m
  slots_eq : live.slots = slots
  inflight_eq : live.inflight = []

/-- What has been opened is known. -/
theorem Opened.eq {inst : Instance} {m : RangeMap} {slots : List UInt8} {live : Live}
    (h : Opened ino config m slots live) (hconfig : inst.config = config)
    (htarget : inst.target = ino config.targetPath) (hmap : inst.rangeMap = m) :
    live = ⟨inst, slots, []⟩ := by
  obtain ⟨inst', slots', inflight⟩ := live
  obtain rfl : slots' = slots := h.slots_eq
  obtain rfl : inflight = [] := h.inflight_eq
  obtain rfl : inst' = inst := Instance.eq_of (h.config_eq.trans hconfig.symm)
    (h.target_eq.trans htarget.symm) (h.rangeMap_eq.trans hmap.symm)
  rfl

/-- A cache whose bitmap file is not there yet. -/
theorem openCache_new {m : RangeMap} {buf : List UInt8}
    (hm : RangeMap.geometry (ino (bitmapPath config.targetPath)) config.blob.size
      config.fetch.unitBytes = .ok m)
    (hbuf : encodeHeader codec (expectedHeader config.blob config.fetch.unitBytes m.slotCount) =
      .ok buf) (htarget : files.present (ino config.targetPath) = true)
    (hbitmap : files.get (ino (bitmapPath config.targetPath)) = none) :
    ∃ live, openCache codec ino config {} files = some (.ok live,
      files.put (ino (bitmapPath config.targetPath))
        (some (resetFile newFile m.slotCount buf headerSize m.slotCount))) ∧
      Opened ino config m (List.replicate m.slotCount 0) live := by
  have hopen : openOrCreate codec (ino (bitmapPath config.targetPath)) config.blob
      config.fetch.unitBytes ({} : OpenAnswers).bitmap
      (files.get (ino (bitmapPath config.targetPath))) =
        (.ok ⟨m, List.replicate m.slotCount 0, false⟩,
          some (resetFile newFile m.slotCount buf headerSize m.slotCount)) := by
    rw [hbitmap]
    exact openOrCreate_none hm hbuf
  exact ⟨_, openCache_clear (openTarget_ok htarget) hopen rfl, rfl, rfl, rfl, rfl, rfl⟩

/-- A cache whose bitmap file has the expected header and no ready slot. -/
theorem openCache_written {m : RangeMap} {buf : List UInt8} {f : File}
    (hm : RangeMap.geometry (ino (bitmapPath config.targetPath)) config.blob.size
      config.fetch.unitBytes = .ok m)
    (hbuf : encodeHeader codec (expectedHeader config.blob config.fetch.unitBytes m.slotCount) =
      .ok buf) (htarget : files.present (ino config.targetPath) = true)
    (hbitmap : files.get (ino (bitmapPath config.targetPath)) = some f)
    (hlen : f.len = headerSize + m.slotCount) (hheader : headerBytes f = buf)
    (hclear : ∀ k < m.slotCount, f.byte (headerSize + k) = 0) :
    ∃ live, openCache codec ino config {} files = some (.ok live,
      files.put (ino (bitmapPath config.targetPath)) (some f)) ∧
      Opened ino config m (List.replicate m.slotCount 0) live := by
  have hslots : ((List.range m.slotCount).map fun k => f.byte (headerSize + k)) =
      List.replicate m.slotCount 0 := by
    rw [List.eq_replicate_iff, List.length_map, List.length_range]
    refine ⟨rfl, fun b hb => ?_⟩
    obtain ⟨k, hk, rfl⟩ := List.mem_map.mp hb
    exact hclear k (List.mem_range.mp hk)
  have hready : Instance.startRecovery (List.replicate m.slotCount 0) = .recovered := by
    have hnone : Instance.readySlots (List.replicate m.slotCount 0) = [] := by
      rw [Instance.readySlots, List.filter_eq_nil_iff]
      intro k hk
      rw [List.mem_range, List.length_replicate] at hk
      simp [List.getD_eq_getElem?_getD, hk]
    rw [Instance.startRecovery, hnone]
    rfl
  have hopen : openOrCreate codec (ino (bitmapPath config.targetPath)) config.blob
      config.fetch.unitBytes ({} : OpenAnswers).bitmap
      (files.get (ino (bitmapPath config.targetPath))) =
        (.ok ⟨m, List.replicate m.slotCount 0, true⟩, some f) := by
    rw [hbitmap, ← hslots]
    exact openOrCreate_written hm hbuf hlen hheader
  have hcache := openCache_recovered (openTarget_ok htarget) hopen rfl
    (congrArg (fun l => some (_, l)) hready)
  exact ⟨_, hcache, rfl, rfl, rfl, rfl, rfl⟩

/-- What is opened is the instance of the configuration on the files that its paths name. -/
theorem OpensCache.inst_eq {live : Live}
    (h : OpensCache codec ino config answers files (.ok live) files') :
    live.inst.config = config ∧ live.inst.target = ino config.targetPath ∧
      live.inst.rangeMap.file = ino (bitmapPath config.targetPath) := by
  cases h with
  | clear hopen => exact ⟨rfl, rfl, (RangeMap.geometry_eq_ok (openOrCreate_rangeMap hopen)).1⟩
  | recovered hopen => exact ⟨rfl, rfl, (RangeMap.geometry_eq_ok (openOrCreate_rangeMap hopen)).1⟩

/-- What an open cache starts with, in memory and on the disk. -/
structure Started (codec : HeaderCodec) (live : Live) (disk : Disk) : Prop where
  length_slots : live.slots.length = live.inst.rangeMap.slotCount
  inflight_eq : live.inflight = []
  header : readHeader codec (disk live.inst.rangeMap.file) =
    .ok (expectedHeader live.inst.config.blob live.inst.config.fetch.unitBytes
      live.inst.rangeMap.slotCount)
  len : headerSize + live.inst.rangeMap.slotCount ≤ (disk live.inst.rangeMap.file).len

/-- A recovery keeps what an open cache starts with. -/
theorem started_recovery {inst : Instance} {s s' : Instance.Shared} {l l' : Instance.RecoveryState}
    {es : List Instance.RecoveryEvent} (h : Started codec ⟨inst, s.slots, s.inflight⟩ s.disk)
    (hsolo : inst.recovery.solo s l es = some (s', l')) :
    Started codec ⟨inst, s'.slots, s'.inflight⟩ s'.disk := by
  refine TaskSystem.solo_invariant (A := inst.recovery)
    (I := fun s _ => Started codec ⟨inst, s.slots, s.inflight⟩ s.disk)
    (fun s l e s' l' hs hstep => ?_) h hsolo
  rcases Instance.recoveryStep_cases hstep with
    rfl | ⟨slotStart, done, n, rfl⟩ | ⟨slotStart, slotEnd, rfl⟩
  · exact hs
  · refine ⟨hs.length_slots, hs.inflight_eq, ?_, ?_⟩ <;>
      rw [Instance.writeMarks_disk, Disk.write_self]
    · exact readHeader_writeAt (by omega) _ hs.header
    · exact hs.len.trans (SparseFile.len_le_writeAt_len _ _ _)
  · exact ⟨(length_fillSlots ..).trans hs.length_slots, hs.inflight_eq, hs.header, hs.len⟩

/-- **An open cache has its own header on the disk**, as many slots as its range map, and nothing in
flight. -/
theorem OpensCache.started {live : Live}
    (h : OpensCache codec ino config answers files (.ok live) files') :
    Started codec live files'.disk := by
  have hbitmap {opened : OpenedRangeMap} {f : Option File}
      (hopen : openOrCreate codec (ino (bitmapPath config.targetPath)) config.blob
        config.fetch.unitBytes answers.bitmap (files.get (ino (bitmapPath config.targetPath))) =
          (.ok opened, f)) :
      Started codec ⟨openedInstance config (ino config.targetPath) _ opened.rangeMap
        (openOrCreate_rangeMap hopen), opened.slots, []⟩
        (files.put (ino (bitmapPath config.targetPath)) f).disk := by
    have hfile := (RangeMap.geometry_eq_ok (openOrCreate_rangeMap hopen)).1
    obtain ⟨f', rfl, hlength, hheader, hlen⟩ := (OpensBitmap.of_openOrCreate hopen).opened_header
    have hput : (files.put (ino (bitmapPath config.targetPath)) (some f')).disk
        opened.rangeMap.file = f' := by
      rw [hfile]
      exact files.put_disk_self _ _
    rw [← hput] at hheader hlen
    exact ⟨hlength, rfl, hheader, hlen⟩
  cases h with
  | clear hopen => exact hbitmap hopen
  | recovered hopen hsolo => exact started_recovery (hbitmap hopen) hsolo

/-- Opening changes no file but the bitmap file. -/
theorem OpensCache.disk_of_ne (h : OpensCache codec ino config answers files res files')
    {key : FileKey} (hkey : key ≠ ino (bitmapPath config.targetPath)) :
    files'.disk key = files.disk key := by
  have hrecovery {opened : OpenedRangeMap} {f : Option File} {s : Instance.Shared}
      {l : Instance.RecoveryState}
      (hopen : openOrCreate codec (ino (bitmapPath config.targetPath)) config.blob
        config.fetch.unitBytes answers.bitmap (files.get (ino (bitmapPath config.targetPath))) =
          (.ok opened, f))
      (hsolo : (openedInstance config (ino config.targetPath) _ opened.rangeMap
          (openOrCreate_rangeMap hopen)).recovery.solo
        ⟨(files.put (ino (bitmapPath config.targetPath)) f).disk, opened.slots, []⟩
        (Instance.startRecovery opened.slots) answers.recovery = some (s, l)) :
      s.disk key = files.disk key := by
    have hfile := (RangeMap.geometry_eq_ok (openOrCreate_rangeMap hopen)).1
    rw [Instance.recovery_disk_of_ne (by rw [← hfile] at hkey; exact hkey) hsolo]
    exact files.put_disk_of_ne f hkey
  cases h with
  | target => rfl
  | failed | clear => exact files.put_disk_of_ne _ hkey
  | recovered hopen hsolo => exact hrecovery hopen hsolo
  | notRecovered hopen hsolo => exact hrecovery hopen hsolo

/-- Opening creates no file but the bitmap file. -/
theorem OpensCache.present_of_ne (h : OpensCache codec ino config answers files res files')
    {key : FileKey} (hkey : key ≠ ino (bitmapPath config.targetPath)) :
    files'.present key = files.present key := by
  cases h with
  | target => rfl
  | failed | clear => exact files.put_present_of_ne _ hkey
  | recovered | notRecovered => exact files.put_present_of_ne _ hkey

theorem OpensCache.get_of_ne (h : OpensCache codec ino config answers files res files')
    {key : FileKey} (hkey : key ≠ ino (bitmapPath config.targetPath)) :
    files'.get key = files.get key := by
  rw [Files.get, Files.get, h.present_of_ne hkey, h.disk_of_ne hkey]

theorem OpensCache.bitmap_present {live : Live}
    (h : OpensCache codec ino config answers files (.ok live) files') :
    files'.present (ino (bitmapPath config.targetPath)) = true := by
  have hput {opened : OpenedRangeMap} {f : Option File}
      (hopen : openOrCreate codec (ino (bitmapPath config.targetPath)) config.blob
        config.fetch.unitBytes answers.bitmap (files.get (ino (bitmapPath config.targetPath))) =
          (.ok opened, f)) :
      (files.put (ino (bitmapPath config.targetPath)) f).present
        (ino (bitmapPath config.targetPath)) = true := by
    obtain ⟨f', rfl, -⟩ := (OpensBitmap.of_openOrCreate hopen).opened_header
    exact files.put_present_self _ _
  cases h with
  | clear hopen => exact hput hopen
  | recovered hopen => exact hput hopen

/-- What a recovery has found out about the slots that it leaves. -/
theorem reconciling_recovered {opened : OpenedRangeMap} {f : Option File} {s : Instance.Shared}
    (hne : ino config.targetPath ≠ ino (bitmapPath config.targetPath))
    (hopen : openOrCreate codec (ino (bitmapPath config.targetPath)) config.blob
      config.fetch.unitBytes answers.bitmap (files.get (ino (bitmapPath config.targetPath))) =
        (.ok opened, f))
    (hsolo : (openedInstance config (ino config.targetPath) _ opened.rangeMap
        (openOrCreate_rangeMap hopen)).recovery.solo
      ⟨(files.put (ino (bitmapPath config.targetPath)) f).disk, opened.slots, []⟩
      (Instance.startRecovery opened.slots) answers.recovery = some (s, .recovered)) :
    (openedInstance config (ino config.targetPath) _ opened.rangeMap
      (openOrCreate_rangeMap hopen)).Reconciling
        ((openedInstance config (ino config.targetPath) _ opened.rangeMap
          (openOrCreate_rangeMap hopen)).SlotAllocated s.disk) s .recovered := by
  have hm := openOrCreate_rangeMap hopen
  have hfile := (RangeMap.geometry_eq_ok hm).1
  have hne' : (openedInstance config (ino config.targetPath) _ opened.rangeMap hm).target ≠
      (openedInstance config (ino config.targetPath) _ opened.rangeMap hm).rangeMap.file :=
    fun heq => hne (heq.trans hfile)
  obtain ⟨f', rfl, hslots⟩ := openOrCreate_slots hm hopen
  generalize hinst : openedInstance config (ino config.targetPath) _ opened.rangeMap hm = inst
    at hsolo hne' ⊢
  have hmap : inst.rangeMap = opened.rangeMap := by
    rw [← hinst]
    rfl
  let disk : Disk := (files.put (ino (bitmapPath config.targetPath)) (some f')).disk
  have hstart : inst.Reconciling (inst.SlotAllocated disk) ⟨disk, opened.slots, []⟩
      (Instance.startRecovery opened.slots) := by
    refine Instance.Reconciling.start ?_ fun k hk hbyte => ?_
    · rw [hmap]
      exact hslots.length_slots
    · rw [hmap] at hk
      have hput : disk (ino (bitmapPath config.targetPath)) = f' := files.put_disk_self _ _
      change (disk inst.rangeMap.file).byte _ ≠ 0 at hbyte
      rwa [hmap, hfile, hput, hslots.slot k hk] at hbyte
  have hend := TaskSystem.solo_invariant (A := inst.recovery)
    (I := fun s l => s.disk inst.target = disk inst.target ∧
      inst.Reconciling (inst.SlotAllocated disk) s l)
    (fun s l e s' l' hI hstep => ?_) ⟨rfl, hstart⟩ hsolo
  · refine hend.2.mono fun k hallocated => ?_
    change (s.disk inst.target).Allocated _ _
    rw [hend.1]
    exact hallocated
  · obtain ⟨htarget, hl⟩ := hI
    refine ⟨(Instance.recoveryStep_target hne' hstep).trans htarget, ?_⟩
    refine Instance.reconciling_step (fun slot offset len _ _ hrange hpresent => ?_) hl hstep
    rw [htarget] at hpresent
    exact Instance.slotAllocated_of_present hrange hpresent

/-- **A ready slot of an open cache is data.** -/
theorem OpensCache.allocated {live : Live} (hne : ino config.targetPath ≠
      ino (bitmapPath config.targetPath))
    (h : OpensCache codec ino config answers files (.ok live) files') {k : ℕ}
    (hk : k < live.inst.rangeMap.slotCount)
    (hbyte : (files'.disk live.inst.rangeMap.file).byte (headerSize + k) ≠ 0) :
    live.inst.SlotAllocated files'.disk k := by
  cases h with
  | @clear opened f hopen hrecovery =>
    have hfile := (RangeMap.geometry_eq_ok (openOrCreate_rangeMap hopen)).1
    obtain ⟨f, rfl, -, -, hclear⟩ := OpensBitmap.of_clear hopen hrecovery
    change ((files.put _ (some f)).disk opened.rangeMap.file).byte _ ≠ 0 at hbyte
    rw [hfile, Files.put_disk_self] at hbyte
    exact absurd (hclear k hk) hbyte
  | recovered hopen hsolo =>
    have hend := reconciling_recovered hne hopen hsolo
    exact hend.recovered (hend.file k hk hbyte)

/-- A slot that is ready in memory is data, and it was ready in the bitmap file before, under the
same header. -/
theorem OpensCache.ready {live : Live} (hne : ino config.targetPath ≠
      ino (bitmapPath config.targetPath))
    (h : OpensCache codec ino config answers files (.ok live) files') {k : ℕ}
    (hk : live.slots.getD k 0 ≠ 0) :
    live.inst.SlotAllocated files'.disk k ∧
      ∃ f, files.get (ino (bitmapPath config.targetPath)) = some f ∧
        f.byte (headerSize + k) ≠ 0 ∧ readHeader codec f = .ok (expectedHeader config.blob
          config.fetch.unitBytes live.inst.rangeMap.slotCount) := by
  cases h with
  | clear hopen hrecovery =>
    obtain ⟨f, -, hslots, -⟩ := OpensBitmap.of_clear hopen hrecovery
    refine absurd ?_ hk
    dsimp only
    rw [hslots]
    exact getD_replicate_zero _ k
  | recovered hopen hsolo =>
    exact ⟨(reconciling_recovered hne hopen hsolo).recovered hk,
      (OpensBitmap.of_openOrCreate hopen).ready (Instance.recovery_slots hsolo hk)⟩

/-- **A bitmap file with another header is reset**: the cache is opened with no ready slot. -/
theorem OpensCache.slots_of_header_ne {live : Live}
    (h : OpensCache codec ino config answers files (.ok live) files')
    (hother : ∀ f n, files.get (ino (bitmapPath config.targetPath)) = some f →
      readHeader codec f ≠ .ok (expectedHeader config.blob config.fetch.unitBytes n)) (k : ℕ) :
    live.slots.getD k 0 = 0 := by
  have hreset {opened : OpenedRangeMap} {f : Option File}
      (hopen : openOrCreate codec (ino (bitmapPath config.targetPath)) config.blob
        config.fetch.unitBytes answers.bitmap (files.get (ino (bitmapPath config.targetPath))) =
          (.ok opened, f)) : opened.slots.getD k 0 = 0 := by
    generalize hold : files.get (ino (bitmapPath config.targetPath)) = old at hopen
    cases OpensBitmap.of_openOrCreate hopen with
    | kept hm hkeeps => exact absurd (unlessFault_eq_ok hkeeps.1) (hother _ _ hold)
    | cleared =>
      exact getD_replicate_zero _ k
  cases h with
  | clear hopen => exact hreset hopen
  | recovered hopen hsolo =>
    by_contra hk
    exact Instance.recovery_slots hsolo hk (hreset hopen)

/-- `Instance::open` does what `openCache` does, and it may still fail then. -/
theorem openInstance_cases {remote : Except Error Unit}
    (h : openInstance codec ino config answers remote files = some (res, files')) :
    (∃ err, res = .error err ∧ files' = files) ∨
      ∃ res', OpensCache codec ino config answers files res' files' ∧
        ((∃ err, res = .error err) ∨ res = res') := by
  unfold openInstance at h
  split at h
  · obtain ⟨rfl, rfl⟩ := Prod.mk.inj (Option.some.inj h)
    exact Or.inl ⟨_, rfl, rfl⟩
  · split at h
    · exact absurd h (by simp)
    · rename_i hcache
      obtain ⟨rfl, rfl⟩ := Prod.mk.inj (Option.some.inj h)
      exact Or.inr ⟨_, .of_openCache hcache, Or.inr rfl⟩
    · rename_i hcache
      split at h
      · obtain ⟨rfl, rfl⟩ := Prod.mk.inj (Option.some.inj h)
        exact Or.inr ⟨_, .of_openCache hcache, Or.inl ⟨_, rfl⟩⟩
      · obtain ⟨rfl, rfl⟩ := Prod.mk.inj (Option.some.inj h)
        exact Or.inr ⟨_, .of_openCache hcache, Or.inr rfl⟩

theorem openInstance_ok {remote : Except Error Unit} {live : Live}
    (h : openInstance codec ino config answers remote files = some (.ok live, files')) :
    OpensCache codec ino config answers files (.ok live) files' := by
  rcases openInstance_cases h with ⟨err, hno, -⟩ | ⟨res, hcache, ⟨err, hno⟩ | rfl⟩
  · exact absurd hno (by simp)
  · exact absurd hno (by simp)
  · exact hcache

theorem openInstance_target {remote : Except Error Unit} {live : Live}
    (h : openInstance codec ino config answers remote files = some (.ok live, files')) :
    live.inst.config = config ∧ live.inst.target = ino config.targetPath := by
  obtain ⟨hconfig, htarget, -⟩ := (openInstance_ok h).inst_eq
  exact ⟨hconfig, htarget⟩

end Open

end Lazyd
