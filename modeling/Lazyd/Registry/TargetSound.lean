import Lazyd.Instance.Frame
import Lazyd.RangeMap.MapSound
import Lazyd.Registry.OnError

/-!
# Targets that several instances are opened on

Nothing ties a target to one blob: instances of different blobs may be opened on it one after the
other or at the same time, and its bitmap file goes from one to the next. What makes this work, as
far as it does, is the header: a bitmap file with the header of another blob is reset. So as long as
the instances that are open on a target at a time have one header, every ready slot, in memory and
in the bitmap file, stands for bytes of the blob that its header names.

## Main definitions

* `PathsApart` : target paths and bitmap files that go together one by one.
* `LiveSound`, `CacheSound` : the invariant.
* `OpeningAllowed` : an opening that finds no open instance with another header, and does not break
  off.

## Main results

* `CacheSound.opened` : an opening keeps the invariant.
* `CacheSound.put` : so does a target that is created or gets longer.
* `CacheSound.used` : so do the calls on an open instance.

Source: `src/instance.rs`, lines 128–194 and 229–261; `src/range_map.rs`, lines 42–148.
-/

namespace Lazyd

/-! ### The header of an instance -/

/-- The header that the bitmap file of an instance has to have. -/
def Instance.header (inst : Instance) : Header :=
  expectedHeader inst.config.blob inst.config.fetch.unitBytes inst.rangeMap.slotCount

theorem Instance.slotHolds_iff_header {inst : Instance} {bytes : String → ℕ → UInt8} {d : Disk}
    {k : ℕ} : inst.SlotHolds (bytes inst.config.blob.digest) d k ↔
      inst.header.SlotHolds bytes (d inst.target) k := by
  rcases lt_or_ge k inst.rangeMap.slotCount with hk | hk
  · exact slotHolds_iff hk
  · refine iff_of_true (slotHolds_of_le hk) (SparseFile.holds_of_le _ _ ?_)
    change min _ inst.blobSize ≤ k * inst.unitBytes
    rw [inst.slotCount_eq] at hk
    calc min _ inst.blobSize ≤ inst.blobSize := min_le_right _ _
      _ ≤ inst.blobSize ⌈/⌉ inst.unitBytes * inst.unitBytes :=
        UnitPartition.le_ceilDiv_mul inst.unitBytes_pos _
      _ ≤ k * inst.unitBytes := Nat.mul_le_mul_right _ hk

theorem Instance.slotAllocated_iff_header {inst : Instance} {d : Disk} {k : ℕ} :
    inst.SlotAllocated d k ↔
      (d inst.target).Allocated (inst.header.slotStart k) (inst.header.slotEnd k) := Iff.rfl

/-- The configurations are for one header. -/
structure InstanceConfig.SameHeader (a b : InstanceConfig) : Prop where
  digest : a.blob.digest = b.blob.digest
  size : a.blob.size = b.blob.size
  unitBytes : a.fetch.unitBytes = b.fetch.unitBytes

theorem Instance.header_eq_expected {inst : Instance} {config : InstanceConfig} {key : FileKey}
    {m : RangeMap} (h : inst.config.SameHeader config)
    (hm : RangeMap.geometry key config.blob.size config.fetch.unitBytes = .ok m) :
    inst.header = expectedHeader config.blob config.fetch.unitBytes m.slotCount := by
  obtain ⟨-, hunit, hsize⟩ := RangeMap.geometry_eq_ok hm
  have hcount : inst.rangeMap.slotCount = m.slotCount := by
    rw [inst.slotCount_eq, m.slotCount_eq, hunit, hsize, blobSize, unitBytes, h.size, h.unitBytes]
  rw [header, expectedHeader, expectedHeader, h.digest, h.size, h.unitBytes, hcount]

/-! ### What an opening leaves in the bitmap file -/

/-- A recovery takes ready slots away. -/
theorem Instance.recovery_clears {inst : Instance} {s s' : Instance.Shared}
    {l l' : Instance.RecoveryState} {es : List Instance.RecoveryEvent}
    (h : inst.recovery.solo s l es = some (s', l')) :
    Clears (s.disk inst.rangeMap.file) (s'.disk inst.rangeMap.file) := by
  refine TaskSystem.solo_rel (A := inst.recovery)
    (R := fun s s' => Clears (s.disk inst.rangeMap.file) (s'.disk inst.rangeMap.file))
    (fun _ => clears_refl _) (fun _ _ _ => Clears.trans) (fun s l e s' l' hstep => ?_) h
  rcases recoveryStep_cases hstep with rfl | ⟨slotStart, done, n, rfl⟩ | ⟨slotStart, slotEnd, rfl⟩
  · exact clears_refl _
  · rw [writeMarks_disk, Disk.write_self, Nat.add_assoc]
    exact clears_writeAt _ _ _
  · exact clears_refl _

section Opening

variable {codec : HeaderCodec} {ino : String → FileKey} {config : InstanceConfig}
  {answers : OpenAnswers} {files files' : Files} {res : Except Error Live} {m : RangeMap}
  {unused : Prop}

/-- **The bitmap file after an opening.** -/
theorem openCache_after (hreach : ReachesBitmap ino config answers files m)
    (hreset : ∀ f, files.get (ino (bitmapPath config.targetPath)) = some f →
      ¬ KeepsBitmap codec ino config answers files m →
      ResetInterrupted codec (expectedHeader config.blob config.fetch.unitBytes m.slotCount)
        answers.bitmap.init → Blank f ∧ unused)
    (h : openCache codec ino config answers files = some (res, files')) :
    files' = files ∨ ∃ f', files'.get (ino (bitmapPath config.targetPath)) = some f' ∧
      AfterOpening codec (expectedHeader config.blob config.fetch.unitBytes m.slotCount) unused
        (files.get (ino (bitmapPath config.targetPath))) f' := by
  have hbitmap {res : Except Error OpenedRangeMap} {file : Option File}
      (hopen : openOrCreate codec (ino (bitmapPath config.targetPath)) config.blob
        config.fetch.unitBytes answers.bitmap (files.get (ino (bitmapPath config.targetPath))) =
          (res, file)) :
      file = files.get (ino (bitmapPath config.targetPath)) ∨ ∃ f', file = some f' ∧
        AfterOpening codec (expectedHeader config.blob config.fetch.unitBytes m.slotCount) unused
          (files.get (ino (bitmapPath config.targetPath))) f' := by
    have hinterrupted (m' : RangeMap) (f : File)
        (hm' : RangeMap.geometry (ino (bitmapPath config.targetPath)) config.blob.size
          config.fetch.unitBytes = .ok m') (_ : answers.bitmap.openFile = none)
        (hf : files.get (ino (bitmapPath config.targetPath)) = some f)
        (hnot : ∀ slots, ¬ Keeps codec m' f
          (expectedHeader config.blob config.fetch.unitBytes m'.slotCount) answers.bitmap slots)
        (hreset' : ResetInterrupted codec
          (expectedHeader config.blob config.fetch.unitBytes m'.slotCount) answers.bitmap.init) :
        Blank f ∧ unused := by
      obtain rfl := Except.ok.inj (hreach.geometry.symm.trans hm')
      refine hreset f hf ?_ hreset'
      rintro ⟨f', slots, hf', hkeeps⟩
      obtain rfl := Option.some.inj (hf.symm.trans hf')
      exact hnot slots hkeeps
    rcases openOrCreate_after hopen hinterrupted with hold | ⟨m', f', hm', hfile, hafter⟩
    · exact Or.inl hold
    · obtain rfl := Except.ok.inj (hreach.geometry.symm.trans hm')
      exact Or.inr ⟨f', hfile, hafter⟩
  have hput {res : Except Error OpenedRangeMap} {file : Option File}
      (hopen : openOrCreate codec (ino (bitmapPath config.targetPath)) config.blob
        config.fetch.unitBytes answers.bitmap (files.get (ino (bitmapPath config.targetPath))) =
          (res, file)) :
      files.put (ino (bitmapPath config.targetPath)) file = files ∨ ∃ f',
        (files.put (ino (bitmapPath config.targetPath)) file).get
          (ino (bitmapPath config.targetPath)) = some f' ∧
        AfterOpening codec (expectedHeader config.blob config.fetch.unitBytes m.slotCount) unused
          (files.get (ino (bitmapPath config.targetPath))) f' := by
    rcases hbitmap hopen with rfl | ⟨f', rfl, hafter⟩
    · exact Or.inl (Files.put_get _)
    · exact Or.inr ⟨f', files.put_get_self _ _, hafter⟩
  have hrecovery {opened : OpenedRangeMap} {file : Option File} {s : Instance.Shared}
      {l : Instance.RecoveryState}
      (hopen : openOrCreate codec (ino (bitmapPath config.targetPath)) config.blob
        config.fetch.unitBytes answers.bitmap (files.get (ino (bitmapPath config.targetPath))) =
          (.ok opened, file))
      (hsolo : (openedInstance config (ino config.targetPath) _ opened.rangeMap
          (openOrCreate_rangeMap hopen)).recovery.solo
        ⟨(files.put (ino (bitmapPath config.targetPath)) file).disk, opened.slots, []⟩
        (Instance.startRecovery opened.slots) answers.recovery = some (s, l)) :
      ∃ f', Files.get { files.put (ino (bitmapPath config.targetPath)) file with disk := s.disk }
          (ino (bitmapPath config.targetPath)) = some f' ∧
        AfterOpening codec (expectedHeader config.blob config.fetch.unitBytes m.slotCount) unused
          (files.get (ino (bitmapPath config.targetPath))) f' := by
    have hfile := (RangeMap.geometry_eq_ok (openOrCreate_rangeMap hopen)).1
    obtain ⟨f, rfl, -⟩ := (OpensBitmap.of_openOrCreate hopen).opened_header
    have hclears := Instance.recovery_clears hsolo
    change Clears ((files.put _ (some f)).disk opened.rangeMap.file)
      (s.disk opened.rangeMap.file) at hclears
    rw [hfile, Files.put_disk_self] at hclears
    have hpresent := files.put_present_self (ino (bitmapPath config.targetPath)) f
    refine ⟨s.disk (ino (bitmapPath config.targetPath)), if_pos hpresent, ?_⟩
    rcases hbitmap hopen with hold | ⟨f', hf', hafter⟩
    · exact .cleared hold.symm hclears
    · obtain rfl := Option.some.inj hf'
      exact hafter.trans hclears
  cases OpensCache.of_openCache h with
  | target => exact Or.inl rfl
  | failed hopen => exact hput hopen
  | clear hopen => exact hput hopen
  | recovered hopen hsolo => exact Or.inr (hrecovery hopen hsolo)
  | notRecovered hopen hsolo => exact Or.inr (hrecovery hopen hsolo)

end Opening

/-! ### The invariant -/

/-- Target paths whose targets and bitmap files go together one by one; no target is a bitmap
file. -/
structure PathsApart (ino : String → FileKey) (paths : Set String) : Prop where
  target_ne_bitmap : ∀ p ∈ paths, ∀ q ∈ paths, ino p ≠ ino (bitmapPath q)
  same_iff : ∀ p ∈ paths, ∀ q ∈ paths, ino p = ino q ↔ ino (bitmapPath p) = ino (bitmapPath q)

section CacheSound

variable (codec : HeaderCodec) (ino : String → FileKey) (bytes : String → ℕ → UInt8)
  (paths : Set String)

/-- An open instance: its bitmap file has its header, and its slots are sound. -/
structure LiveSound (files : Files) (live : Live) : Prop where
  target_eq : live.inst.target = ino live.inst.config.targetPath
  file_eq : live.inst.rangeMap.file = ino (bitmapPath live.inst.config.targetPath)
  target_present : files.present live.inst.target = true
  file_present : files.present live.inst.rangeMap.file = true
  header : readHeader codec (files.disk live.inst.rangeMap.file) = .ok live.inst.header
  slots : live.inst.SlotsSound (bytes live.inst.config.blob.digest) (live.shared files.disk)

/-- Every open instance is sound, and so is every bitmap file that has a target. -/
structure CacheSound (instances : String → Option Live) (files : Files) : Prop where
  path : ∀ id live, instances id = some live → live.inst.config.targetPath ∈ paths
  lives : ∀ id live, instances id = some live → LiveSound codec ino bytes files live
  maps : ∀ p ∈ paths, ∀ f target, files.get (ino (bitmapPath p)) = some f →
    files.get (ino p) = some target → MapSound codec bytes f target

/-- An opening that may get to the bitmap file: the instances that are open on its target have its
header, and a reset that breaks off finds no ready slot and no open instance. -/
structure OpeningAllowed (instances : String → Option Live) (config : InstanceConfig)
    (answers : OpenAnswers) (files : Files) : Prop where
  path : config.targetPath ∈ paths
  same : ∀ m, ReachesBitmap ino config answers files m → ∀ id live, instances id = some live →
    live.inst.target = ino config.targetPath → live.inst.config.SameHeader config
  reset : ∀ m f, ReachesBitmap ino config answers files m →
    files.get (ino (bitmapPath config.targetPath)) = some f →
    ¬ KeepsBitmap codec ino config answers files m →
    ResetInterrupted codec (expectedHeader config.blob config.fetch.unitBytes m.slotCount)
      answers.bitmap.init →
    Blank f ∧ ∀ id live, instances id = some live → live.inst.target ≠ ino config.targetPath

variable {codec ino bytes paths} {instances : String → Option Live} {files files' : Files}
  {live : Live} {config : InstanceConfig} {answers : OpenAnswers} {res : Except Error Live}

theorem LiveSound.get_file (h : LiveSound codec ino bytes files live) :
    files.get (ino (bitmapPath live.inst.config.targetPath)) =
      some (files.disk live.inst.rangeMap.file) := by
  rw [← h.file_eq]
  exact if_pos h.file_present

/-- Only the files of an instance matter to it: the bitmap file may lose ready slots, and what holds
in the target has to go on to hold. -/
theorem LiveSound.mono (h : LiveSound codec ino bytes files live)
    (htarget : files'.present live.inst.target = true)
    (hkeep : live.inst.KeepsTarget (bytes live.inst.config.blob.digest) files.disk files'.disk)
    (hfile : files'.present live.inst.rangeMap.file = true)
    (hheader : readHeader codec (files'.disk live.inst.rangeMap.file) = .ok live.inst.header)
    (hslot : ∀ k, (files'.disk live.inst.rangeMap.file).byte (headerSize + k) ≠ 0 →
      (files.disk live.inst.rangeMap.file).byte (headerSize + k) ≠ 0) :
    LiveSound codec ino bytes files' live where
  target_eq := h.target_eq
  file_eq := h.file_eq
  target_present := htarget
  file_present := hfile
  header := hheader
  slots :=
    { length_slots := h.slots.length_slots
      memory := fun k hk => (h.slots.memory k hk).mono hkeep
      file := fun k hk => (h.slots.file k (hslot k hk)).mono hkeep }

/-- Nothing but its two files matters to an instance. -/
theorem LiveSound.frame (h : LiveSound codec ino bytes files live)
    (htarget : files'.get live.inst.target = files.get live.inst.target)
    (hfile : files'.get live.inst.rangeMap.file = files.get live.inst.rangeMap.file) :
    LiveSound codec ino bytes files' live := by
  obtain ⟨htargetPresent, htargetDisk⟩ :=
    files'.get_eq_some.mp (htarget.trans (if_pos h.target_present))
  obtain ⟨hfilePresent, hfileDisk⟩ := files'.get_eq_some.mp (hfile.trans (if_pos h.file_present))
  refine h.mono htargetPresent ?_ hfilePresent ?_ fun k hk => ?_
  · intro lo hi hholds
    rwa [htargetDisk]
  · rw [hfileDisk]
    exact h.header
  · rwa [hfileDisk] at hk

/-- Two instances on one target have one header. -/
theorem LiveSound.sameHeader (h : LiveSound codec ino bytes files live) {live' : Live}
    (h' : LiveSound codec ino bytes files live')
    (hfile : live'.inst.rangeMap.file = live.inst.rangeMap.file) :
    live'.inst.header = live.inst.header := by
  have hheader := h'.header
  rw [hfile, h.header] at hheader
  exact (Except.ok.inj hheader).symm

theorem openTarget_eq_ok {key : FileKey} {fault : Option IoError}
    (h : openTarget files key fault = .ok ()) : files.present key = true := by
  cases fault with
  | some err => exact absurd h (by simp [openTarget])
  | none =>
    rw [openTarget] at h
    split_ifs at h with hpresent
    exact hpresent

/-! ### Openings -/

/-- What is opened is sound. -/
theorem OpensCache.liveSound (hne : ino config.targetPath ≠ ino (bitmapPath config.targetPath))
    (h : OpensCache codec ino config answers files (.ok live) files')
    (htarget : files'.present (ino config.targetPath) = true)
    (hold : ∀ f, files.get (ino (bitmapPath config.targetPath)) = some f →
      MapSound codec bytes f (files'.disk (ino config.targetPath)))
    (hnew : ∀ f, files'.get (ino (bitmapPath config.targetPath)) = some f →
      MapSound codec bytes f (files'.disk (ino config.targetPath))) :
    LiveSound codec ino bytes files' live := by
  obtain ⟨hconfig, htargetEq, hfileEq⟩ := h.inst_eq
  have hstarted := h.started
  have hpresent := h.bitmap_present
  rw [← hfileEq] at hpresent
  have hholds {f : File} {k : ℕ} (hheader : readHeader codec f = .ok live.inst.header)
      (hmap : MapSound codec bytes f (files'.disk (ino config.targetPath)))
      (hk : f.byte (headerSize + k) ≠ 0) (hdata : live.inst.SlotAllocated files'.disk k) :
      live.inst.SlotHolds (bytes live.inst.config.blob.digest) files'.disk k := by
    rw [Instance.slotHolds_iff_header, htargetEq]
    refine hmap _ hheader k hk ?_
    rw [← htargetEq]
    exact live.inst.slotAllocated_iff_header.mp hdata
  refine ⟨?_, ?_, ?_, hpresent, hstarted.header, hstarted.length_slots, fun k hk => ?_,
    fun k hk => ?_⟩
  · rw [hconfig, htargetEq]
  · rw [hconfig, hfileEq]
  · rwa [htargetEq]
  · obtain ⟨hdata, f, hf, hbyte, hheader⟩ := h.ready hne hk
    rw [← hconfig] at hheader
    exact hholds hheader (hold f hf) hbyte hdata
  · rcases lt_or_ge k live.inst.rangeMap.slotCount with hlt | hle
    · refine hholds hstarted.header (hnew _ ?_) hk (h.allocated hne hlt hk)
      rw [← hfileEq]
      exact if_pos hpresent
    · exact Instance.slotHolds_of_le hle

/-- An open instance stays sound in an opening. If the opening is on its target, then the instance
has the header that the opening expects. -/
theorem LiveSound.opening (hapart : PathsApart ino paths)
    (h : LiveSound codec ino bytes files live) {id : String} (hlive : instances id = some live)
    (hlivePath : live.inst.config.targetPath ∈ paths)
    (hallowed : OpeningAllowed codec ino paths instances config answers files) {m : RangeMap}
    (hreach : ReachesBitmap ino config answers files m)
    (hopen : openCache codec ino config answers files = some (res, files')) :
    LiveSound codec ino bytes files' live := by
  have hcache := OpensCache.of_openCache hopen
  have hpath := hallowed.path
  have hne : live.inst.target ≠ ino (bitmapPath config.targetPath) := by
    rw [h.target_eq]
    exact hapart.target_ne_bitmap _ hlivePath _ hpath
  by_cases hfile : live.inst.rangeMap.file = ino (bitmapPath config.targetPath)
  · have hsame : live.inst.target = ino config.targetPath := by
      rw [h.target_eq, hapart.same_iff _ hlivePath _ hpath, ← h.file_eq, hfile]
    have hheader := Instance.header_eq_expected
      (hallowed.same m hreach id live hlive hsame) hreach.geometry
    have hold := h.get_file
    rw [← h.file_eq, hfile] at hold
    rcases openCache_after hreach
      (fun f hf hnot hinterrupted => hallowed.reset m f hreach hf hnot hinterrupted) hopen with
      rfl | ⟨f', hf', hafter⟩
    · exact h
    · have hused : ¬ ∀ id live, instances id = some live →
          live.inst.target ≠ ino config.targetPath := fun hno => hno id live hlive hsame
      obtain ⟨hpresent, hdisk⟩ := files'.get_eq_some.mp hf'
      have hread := h.header
      rw [hfile, hheader] at hread
      refine h.mono ?_ ?_ (hfile ▸ hpresent) ?_ fun k hk => ?_
      · rw [hcache.present_of_ne hne]
        exact h.target_present
      · intro lo hi hholds
        rwa [hcache.disk_of_ne hne]
      · rw [hfile, hdisk, hheader]
        exact hafter.readHeader hused hold hread
      · rw [hfile, hdisk] at hk
        obtain ⟨f₀, hf₀, hbyte⟩ := hafter.slot hk
        obtain rfl := Option.some.inj (hold.symm.trans hf₀)
        rwa [hfile]
  · exact h.frame (hcache.get_of_ne hne) (hcache.get_of_ne hfile)

/-- **An opening keeps the invariant**, and what it opens is sound. -/
theorem CacheSound.opened (hapart : PathsApart ino paths)
    (h : CacheSound codec ino bytes paths instances files)
    (hallowed : OpeningAllowed codec ino paths instances config answers files)
    (hopen : openCache codec ino config answers files = some (res, files')) :
    CacheSound codec ino bytes paths instances files' ∧
      ∀ live, res = .ok live → LiveSound codec ino bytes files' live := by
  have hcache := OpensCache.of_openCache hopen
  have hpath := hallowed.path
  have hne {p : String} (hp : p ∈ paths) : ino p ≠ ino (bitmapPath config.targetPath) :=
    hapart.target_ne_bitmap p hp _ hpath
  by_cases hreach : ∃ m, ReachesBitmap ino config answers files m
  · obtain ⟨m, hreach⟩ := hreach
    have htarget : files.present (ino config.targetPath) = true := openTarget_eq_ok hreach.target
    -- the bitmap file, and what stays sound of it
    have hafter := openCache_after hreach
      (fun f hf hnot hinterrupted => hallowed.reset m f hreach hf hnot hinterrupted) hopen
    have hmap {f : File} (hf : files'.get (ino (bitmapPath config.targetPath)) = some f)
        {target : File} (htarget : files.get (ino config.targetPath) = some target) :
        MapSound codec bytes f target := by
      rcases hafter with rfl | ⟨f', hf', hafter⟩
      · exact h.maps _ hpath f target hf htarget
      · obtain rfl := Option.some.inj (hf'.symm.trans hf)
        exact hafter.mapSound fun f₀ hf₀ => h.maps _ hpath f₀ target hf₀ htarget
    have hget : files.get (ino config.targetPath) = some (files'.disk (ino config.targetPath)) := by
      rw [hcache.disk_of_ne (hne hpath)]
      exact if_pos htarget
    refine ⟨⟨h.path, fun id live hlive => ?_, fun p hp f target hf htarget => ?_⟩, ?_⟩
    · exact (h.lives id live hlive).opening hapart hlive (h.path id live hlive) hallowed
        hreach hopen
    · rw [hcache.get_of_ne (hne hp)] at htarget
      by_cases hfile : ino (bitmapPath p) = ino (bitmapPath config.targetPath)
      · rw [hfile] at hf
        rw [(hapart.same_iff p hp _ hpath).mpr hfile] at htarget
        exact hmap hf htarget
      · rw [hcache.get_of_ne hfile] at hf
        exact h.maps p hp f target hf htarget
    · rintro live rfl
      refine hcache.liveSound (hne hpath) ?_ (fun f hf => h.maps _ hpath f _ hf hget)
        fun f hf => hmap hf hget
      rw [hcache.present_of_ne (hne hpath)]
      exact htarget
  · obtain ⟨rfl, hno⟩ := openCache_unreached (not_exists.mp hreach) hopen
    exact ⟨h, fun live hlive => absurd hlive (hno live)⟩

/-! ### Other changes -/

theorem LiveSound.apart (hapart : PathsApart ino paths) (h : LiveSound codec ino bytes files live)
    (hpath : live.inst.config.targetPath ∈ paths) : live.inst.target ≠ live.inst.rangeMap.file := by
  rw [h.target_eq, h.file_eq]
  exact hapart.target_ne_bitmap _ hpath _ hpath

/-- **A target that is created or gets longer.** -/
theorem CacheSound.put (hapart : PathsApart ino paths)
    (h : CacheSound codec ino bytes paths instances files) {path : String} (hpath : path ∈ paths)
    {target : File} (hext : ((files.get (ino path)).getD newFile).Extends target) :
    CacheSound codec ino bytes paths instances (files.put (ino path) (some target)) := by
  have hne {p : String} (hp : p ∈ paths) : ino (bitmapPath p) ≠ ino path :=
    (hapart.target_ne_bitmap _ hpath p hp).symm
  refine ⟨h.path, fun id live hlive => ?_, fun p hp f t hf ht => ?_⟩
  · have hsound := h.lives id live hlive
    have hfile : live.inst.rangeMap.file ≠ ino path := by
      rw [hsound.file_eq]
      exact hne (h.path id live hlive)
    have hdisk := files.put_disk_of_ne (some target) hfile
    refine hsound.mono ?_ ?_ ?_ ?_ fun k hk => ?_
    · by_cases htarget : live.inst.target = ino path
      · rw [htarget]
        exact files.put_present_self _ _
      · rw [files.put_present_of_ne _ htarget]
        exact hsound.target_present
    · intro lo hi hholds
      by_cases htarget : live.inst.target = ino path
      · have hget : files.get (ino path) = some (files.disk (ino path)) :=
          htarget ▸ if_pos hsound.target_present
        rw [hget, Option.getD_some] at hext
        rw [htarget] at hholds ⊢
        rw [files.put_disk_self]
        exact hext.holds _ _ _ hholds
      · rwa [files.put_disk_of_ne _ htarget]
    · rw [files.put_present_of_ne _ hfile]
      exact hsound.file_present
    · rw [hdisk]
      exact hsound.header
    · rwa [hdisk] at hk
  · rw [files.put_get_of_ne _ (hne hp)] at hf
    by_cases htarget : ino p = ino path
    · rw [htarget, files.put_get_self] at ht
      obtain rfl := Option.some.inj ht
      cases hold : files.get (ino path) with
      | none =>
        rw [hold] at hext
        exact (mapSound_of_holes fun _ => rfl).extends hext
      | some t =>
        rw [hold] at hext
        exact (h.maps p hp f t hf (htarget ▸ hold)).extends hext
    · rw [files.put_get_of_ne _ htarget] at ht
      exact h.maps p hp f t hf ht

/-- A registration that succeeds. -/
theorem CacheSound.insert (h : CacheSound codec ino bytes paths instances files)
    (hpath : live.inst.config.targetPath ∈ paths) (hlive : LiveSound codec ino bytes files live)
    (id : String) :
    CacheSound codec ino bytes paths (Function.update instances id (some live)) files := by
  refine ⟨fun id' live' hlive' => ?_, fun id' live' hlive' => ?_, h.maps⟩
  · rw [Function.update_apply] at hlive'
    split_ifs at hlive'
    · exact Option.some.inj hlive' ▸ hpath
    · exact h.path id' live' hlive'
  · rw [Function.update_apply] at hlive'
    split_ifs at hlive'
    · exact Option.some.inj hlive' ▸ hlive
    · exact h.lives id' live' hlive'

/-- Instances that are no longer open. -/
theorem CacheSound.forget (h : CacheSound codec ino bytes paths instances files)
    {instances' : String → Option Live}
    (hsub : ∀ id live, instances' id = some live → instances id = some live) :
    CacheSound codec ino bytes paths instances' files :=
  ⟨fun id live hlive => h.path id live (hsub id live hlive),
    fun id live hlive => h.lives id live (hsub id live hlive), h.maps⟩

/-! ### Calls on an open instance -/

/-- An open instance after a complete call under an honest remote, with what the call knows then. -/
theorem LiveSound.used (hne : live.inst.target ≠ live.inst.rangeMap.file)
    (h : LiveSound codec ino bytes files live) {s : Instance.Shared} {l : Instance.TaskState}
    {es : List Instance.Event}
    (hok : live.inst.tasks.SoloOk (Instance.Honest (bytes live.inst.config.blob.digest))
      (live.shared files.disk) .idle es)
    (hsolo : live.inst.tasks.solo (live.shared files.disk) .idle es = some (s, l)) :
    LiveSound codec ino bytes { files with disk := s.disk }
        { live with slots := s.slots, inflight := s.inflight } ∧
      live.inst.TaskSound (bytes live.inst.config.blob.digest) s.disk l ∧
      live.inst.KeepsTarget (bytes live.inst.config.blob.digest) files.disk s.disk ∧
      ∀ key, key ≠ live.inst.target → key ≠ live.inst.rangeMap.file →
        s.disk key = files.disk key := by
  have hidle : live.inst.TaskShape .idle ∧
      live.inst.TaskSound (bytes live.inst.config.blob.digest) files.disk .idle :=
    ⟨trivial, trivial⟩
  have hend := TaskSystem.solo_rely
    (I := fun s => live.inst.SlotsSound (bytes live.inst.config.blob.digest) s ∧
      readHeader codec (s.disk live.inst.rangeMap.file) = .ok live.inst.header)
    (L := fun s l => live.inst.TaskShape l ∧
      live.inst.TaskSound (bytes live.inst.config.blob.digest) s.disk l)
    (R := fun s s' => live.inst.KeepsTarget (bytes live.inst.config.blob.digest) s.disk s'.disk ∧
      ∀ key, key ≠ live.inst.target → key ≠ live.inst.rangeMap.file → s'.disk key = s.disk key)
    (fun s => ⟨Instance.keepsTarget_refl s.disk, fun _ _ _ => rfl⟩)
    (fun s₁ s₂ s₃ h₁ h₂ => ⟨h₁.1.trans h₂.1,
      fun key hkey hkey' => (h₂.2 key hkey hkey').trans (h₁.2 key hkey hkey')⟩)
    (fun s l e s' l' hs hl hok hstep => ?_) ⟨h.slots, h.header⟩ hidle hok hsolo
  · obtain ⟨⟨hslots, hheader⟩, ⟨-, hknows⟩, hkeep, hother⟩ := hend
    exact ⟨⟨h.target_eq, h.file_eq, h.target_present, h.file_present, hheader, hslots⟩, hknows,
      hkeep, hother⟩
  · obtain ⟨hslots, hknows, hkeep⟩ := Instance.sound_step hne hs.1 hl.1 hl.2 hok hstep
    obtain ⟨off, n, hwrite⟩ := Instance.bitmap_step hne hstep
    refine ⟨⟨hslots, ?_⟩, ⟨Instance.taskShape_step hl.1 hstep, hknows⟩, hkeep, ?_⟩
    · rw [hwrite]
      exact readHeader_writeAt (Nat.le_add_right _ _) _ hs.2
    · exact fun key hkey hkey' => Instance.disk_step_of_ne hkey hkey' hstep

/-- An open instance stays sound in a complete call on another one. If the two are on one target,
then they have one header, and what the call has marked is sound for both. -/
theorem LiveSound.beside (hapart : PathsApart ino paths)
    (h : LiveSound codec ino bytes files live) (hpath : live.inst.config.targetPath ∈ paths)
    {live' : Live} (h' : LiveSound codec ino bytes files live')
    (hpath' : live'.inst.config.targetPath ∈ paths) {s : Instance.Shared}
    (hused : LiveSound codec ino bytes { files with disk := s.disk }
      { live with slots := s.slots, inflight := s.inflight })
    (hkeep : live.inst.KeepsTarget (bytes live.inst.config.blob.digest) files.disk s.disk)
    (hother : ∀ key, key ≠ live.inst.target → key ≠ live.inst.rangeMap.file →
      s.disk key = files.disk key) :
    LiveSound codec ino bytes { files with disk := s.disk } live' := by
  have hne : live'.inst.target ≠ live.inst.rangeMap.file := by
    rw [h'.target_eq, h.file_eq]
    exact hapart.target_ne_bitmap _ hpath' _ hpath
  have hne' : live'.inst.rangeMap.file ≠ live.inst.target := by
    rw [h.target_eq, h'.file_eq]
    exact (hapart.target_ne_bitmap _ hpath _ hpath').symm
  have hsame : live'.inst.target = live.inst.target ↔
      live'.inst.rangeMap.file = live.inst.rangeMap.file := by
    rw [h'.target_eq, h.target_eq, h'.file_eq, h.file_eq]
    exact hapart.same_iff _ hpath' _ hpath
  by_cases hfile : live'.inst.rangeMap.file = live.inst.rangeMap.file
  · have htarget := hsame.mpr hfile
    have heq := h.sameHeader h' hfile
    have hdigest : live'.inst.config.blob.digest = live.inst.config.blob.digest :=
      congrArg Header.blobDigest heq
    have hkeep' : live'.inst.KeepsTarget (bytes live'.inst.config.blob.digest) files.disk
        s.disk := by
      intro lo hi hholds
      rw [htarget, hdigest] at hholds ⊢
      exact hkeep lo hi hholds
    refine ⟨h'.target_eq, h'.file_eq, h'.target_present, h'.file_present, ?_,
      h'.slots.length_slots, fun k hk => (h'.slots.memory k hk).mono hkeep', fun k hk => ?_⟩
    · rw [hfile, heq]
      exact hused.header
    · rw [Instance.slotHolds_iff_header, heq]
      change live.inst.header.SlotHolds bytes (s.disk live'.inst.target) k
      rw [htarget]
      rw [hfile] at hk
      exact Instance.slotHolds_iff_header.mp (hused.slots.file k hk)
  · have hget {key : FileKey} (htarget : key ≠ live.inst.target)
        (hfile : key ≠ live.inst.rangeMap.file) :
        Files.get { files with disk := s.disk } key = files.get key := by
      simp only [Files.get, hother key htarget hfile]
    exact h'.frame (hget (fun heq => hfile (hsame.mp heq)) hne) (hget hne' hfile)

/-- **A complete call keeps the invariant**: the other instances on its target have its header, so
what it marks is sound for them too. -/
theorem CacheSound.used (hapart : PathsApart ino paths)
    (h : CacheSound codec ino bytes paths instances files) {id : String}
    (hlive : instances id = some live) {s : Instance.Shared} {l : Instance.TaskState}
    {es : List Instance.Event}
    (hok : live.inst.tasks.SoloOk (Instance.Honest (bytes live.inst.config.blob.digest))
      (live.shared files.disk) .idle es)
    (hsolo : live.inst.tasks.solo (live.shared files.disk) .idle es = some (s, l)) :
    CacheSound codec ino bytes paths
        (Function.update instances id
          (some { live with slots := s.slots, inflight := s.inflight }))
        { files with disk := s.disk } ∧
      live.inst.TaskSound (bytes live.inst.config.blob.digest) s.disk l := by
  have hpath := h.path id live hlive
  have hsound := h.lives id live hlive
  obtain ⟨hused, hknows, hkeep, hother⟩ := hsound.used (hsound.apart hapart hpath) hok hsolo
  have hothers : CacheSound codec ino bytes paths instances { files with disk := s.disk } := by
    refine ⟨h.path, fun id' live' hlive' => ?_, fun p hp f t hf ht => ?_⟩
    · exact hsound.beside hapart hpath (h.lives id' live' hlive') (h.path id' live' hlive') hused
        hkeep hother
    · have hsame : ino p = live.inst.target ↔ ino (bitmapPath p) = live.inst.rangeMap.file := by
        rw [hsound.target_eq, hsound.file_eq]
        exact hapart.same_iff p hp _ hpath
      obtain ⟨hpresent, hdisk⟩ := (Files.get_eq_some _).mp hf
      obtain ⟨hpresent', hdisk'⟩ := (Files.get_eq_some _).mp ht
      by_cases hfile : ino (bitmapPath p) = live.inst.rangeMap.file
      · rw [← hdisk, ← hdisk', hfile, hsame.mpr hfile]
        intro header hread k hk _
        obtain rfl := Except.ok.inj (hused.header.symm.trans hread)
        exact Instance.slotHolds_iff_header.mp (hused.slots.file k hk)
      · have htarget : ino p ≠ live.inst.target := fun heq => hfile (hsame.mp heq)
        refine h.maps p hp f t ?_ ?_
        · refine files.get_eq_some.mpr ⟨hpresent, ?_⟩
          rw [← hdisk]
          refine (hother _ ?_ hfile).symm
          rw [hsound.target_eq]
          exact (hapart.target_ne_bitmap _ hpath p hp).symm
        · refine files.get_eq_some.mpr ⟨hpresent', ?_⟩
          rw [← hdisk']
          refine (hother _ htarget ?_).symm
          rw [hsound.file_eq]
          exact hapart.target_ne_bitmap p hp _ hpath
  refine ⟨hothers.insert ?_ hused id, hknows⟩
  exact hpath

end CacheSound

end Lazyd
