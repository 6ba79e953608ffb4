import Lazyd.Instance.RecoveryAnswers
import Lazyd.Registry.Marks

/-!
# Calls that return an error

`register` opens the target, resets or reconciles the bitmap file, parses the image reference, marks
the target and inserts the instance; it may fail after each of these steps and takes none of them
back. `unregister` removes the instance and then unmarks the target, which may fail. So a call that
returns an error may have changed the bitmap file, the marks or the registry, and it depends on what
it found and on the answers of the file system whether it has.

## Main definitions

* `ReachesBitmap`, `KeepsContents`, `OpeningSucceeds` : conditions on an opening.
* `Daemon.Unchanged` : nothing is different after a call.
* `Daemon.AtomicOnError` : the calls that change nothing when they fail.

## Main results

* `openCache_kept`, `openCache_reset`, `openCache_unreached` : openings, by what they find.
* `Daemon.unchanged_iff_of_error` : when a call that returns an error has changed nothing.
* `Daemon.error_changes_daemon` : an instance that is gone after its unregistration has failed.

Source: `src/instance.rs`, lines 128–194; `src/fanotify.rs`, lines 112–155; `src/range_map.rs`,
lines 42–98.
-/

namespace Lazyd

section Opening

variable (codec : HeaderCodec) (ino : String → FileKey) (config : InstanceConfig)
  (answers : OpenAnswers) (files : Files)

/-- Opening gets to the bitmap file. -/
structure ReachesBitmap (m : RangeMap) : Prop where
  target : openTarget files (ino config.targetPath) answers.target = .ok ()
  geometry : RangeMap.geometry (ino (bitmapPath config.targetPath)) config.blob.size
    config.fetch.unitBytes = .ok m
  openFile : answers.bitmap.openFile = none

/-- The bitmap file is there, and opening keeps it. -/
def KeepsBitmap (m : RangeMap) : Prop :=
  ∃ f slots, files.get (ino (bitmapPath config.targetPath)) = some f ∧
    Keeps codec m f (expectedHeader config.blob config.fetch.unitBytes m.slotCount)
      answers.bitmap slots

/-- A bitmap file that is there keeps its contents: the recovery gets no byte into it, or the reset
writes nothing new. -/
def KeepsContents : Prop :=
  ∀ m f, ReachesBitmap ino config answers files m →
    files.get (ino (bitmapPath config.targetPath)) = some f →
      (KeepsBitmap codec ino config answers files m → ∀ e ∈ answers.recovery, ¬ e.Writes) ∧
      (¬ KeepsBitmap codec ino config answers files m → ResetKeeps codec
        (expectedHeader config.blob config.fetch.unitBytes m.slotCount) f answers.bitmap.init)

/-- Opening ends with an instance: the last answer to the recovery is no error, or the reset meets
none; and the image reference is valid. -/
def OpeningSucceeds (remote : Except Error Unit) : Prop :=
  remote = .ok () ∧ ∃ m, ReachesBitmap ino config answers files m ∧
    (KeepsBitmap codec ino config answers files m →
      ∀ e, answers.recovery.getLast? = some e → ¬ e.Fails) ∧
    (¬ KeepsBitmap codec ino config answers files m → ResetSucceeds codec
      (expectedHeader config.blob config.fetch.unitBytes m.slotCount) answers.bitmap.init)

variable {codec ino config answers files} {files' : Files} {res : Except Error Live} {m : RangeMap}

/-! ### Opening, by what it finds -/

theorem ReachesBitmap.unique {m' : RangeMap} (h : ReachesBitmap ino config answers files m)
    (h' : ReachesBitmap ino config answers files m') : m' = m :=
  Except.ok.inj (h'.geometry.symm.trans h.geometry)

theorem Files.put_get (key : FileKey) : files.put key (files.get key) = files := by
  cases hf : files.get key with
  | none => rfl
  | some f => exact files.put_of_get hf

/-- The opening of a range map that fails. -/
theorem openCache_error {err : Error} {f : Option File}
    (htarget : openTarget files (ino config.targetPath) answers.target = .ok ())
    (hopen : openOrCreate codec (ino (bitmapPath config.targetPath)) config.blob
      config.fetch.unitBytes answers.bitmap (files.get (ino (bitmapPath config.targetPath))) =
        (.error err, f)) :
    openCache codec ino config answers files =
      some (.error err, files.put (ino (bitmapPath config.targetPath)) f) := by
  simp only [openCache, htarget]
  split
  · rename_i hopen'
    obtain ⟨herr, rfl⟩ := Prod.mk.inj (hopen'.symm.trans hopen)
    rw [Except.error.inj herr]
  · rename_i hopen'
    exact absurd (Prod.mk.inj (hopen'.symm.trans hopen)).1 (by simp)

/-- The opening of a range map that has to be reconciled ends as the recovery does. -/
theorem openCache_recovery {opened : OpenedRangeMap} {f : Option File}
    (htarget : openTarget files (ino config.targetPath) answers.target = .ok ())
    (hopen : openOrCreate codec (ino (bitmapPath config.targetPath)) config.blob
      config.fetch.unitBytes answers.bitmap (files.get (ino (bitmapPath config.targetPath))) =
        (.ok opened, f)) (hrecovery : opened.needsRecovery = true)
    (h : openCache codec ino config answers files = some (res, files')) :
    ∃ s l, (openedInstance config (ino config.targetPath) _ opened.rangeMap
        (openOrCreate_rangeMap hopen)).recovery.solo
      ⟨(files.put (ino (bitmapPath config.targetPath)) f).disk, opened.slots, []⟩
      (Instance.startRecovery opened.slots) answers.recovery = some (s, l) ∧
      files' = { files.put (ino (bitmapPath config.targetPath)) f with disk := s.disk } ∧
      (l = .recovered ∧ (∃ live, res = .ok live) ∨
        (∃ err, l = .failed err) ∧ ∀ live, res ≠ .ok live) := by
  simp only [openCache, htarget] at h
  split at h
  · rename_i hopen'
    exact absurd (Prod.mk.inj (hopen'.symm.trans hopen)).1 (by simp)
  · rename_i hopen'
    obtain ⟨hopened, rfl⟩ := Prod.mk.inj (hopen'.symm.trans hopen)
    obtain rfl := Except.ok.inj hopened
    rw [if_pos hrecovery] at h
    split at h
    · rename_i s hsolo
      obtain ⟨rfl, rfl⟩ := Prod.mk.inj (Option.some.inj h)
      exact ⟨s, _, hsolo, rfl, Or.inl ⟨rfl, _, rfl⟩⟩
    · rename_i s err hsolo
      obtain ⟨rfl, rfl⟩ := Prod.mk.inj (Option.some.inj h)
      exact ⟨s, _, hsolo, rfl, Or.inr ⟨⟨err, rfl⟩, by simp⟩⟩
    · exact absurd h (by simp)

/-- A bitmap file that is kept. -/
theorem openCache_kept {f : File} {slots : List UInt8}
    (hreach : ReachesBitmap ino config answers files m)
    (hf : files.get (ino (bitmapPath config.targetPath)) = some f)
    (hkeeps : Keeps codec m f (expectedHeader config.blob config.fetch.unitBytes m.slotCount)
      answers.bitmap slots)
    (h : openCache codec ino config answers files = some (res, files')) :
    ∃ f', files'.get (ino (bitmapPath config.targetPath)) = some f' ∧
      (f'.contents = f.contents ↔ ∀ e ∈ answers.recovery, ¬ e.Writes) ∧
      ((∃ live, res = .ok live) ↔ ∀ e, answers.recovery.getLast? = some e → ¬ e.Fails) := by
  have hopen : openOrCreate codec (ino (bitmapPath config.targetPath)) config.blob
      config.fetch.unitBytes answers.bitmap (files.get (ino (bitmapPath config.targetPath))) =
        (.ok ⟨m, slots, true⟩, some f) := by
    simp only [openOrCreate, hreach.geometry, hreach.openFile, hf, openExisting_of_keeps hkeeps,
      Prod.map, id]
  obtain ⟨s, l, hsolo, rfl, hend⟩ := openCache_recovery hreach.target hopen rfl h
  have hread := unlessFault_eq_ok hkeeps.2
  have hfile := (RangeMap.geometry_eq_ok hreach.geometry).1
  rw [Files.put_of_get files hf] at hsolo ⊢
  obtain ⟨hpresent, hdisk⟩ := files.get_eq_some.mp hf
  have hstart : (openedInstance config (ino config.targetPath) _ m
      (openOrCreate_rangeMap hopen)).Underway ⟨files.disk, slots, []⟩
      (Instance.startRecovery slots) := by
    refine Instance.Underway.start (length_readSlots hread) fun k hk => ?_
    change (files.disk m.file).byte (headerSize + k) = slots.getD k 0
    rw [hfile, hdisk]
    exact (readSlots_getD hread hk).symm
  refine ⟨s.disk (ino (bitmapPath config.targetPath)), if_pos hpresent, ?_, ?_⟩
  · constructor
    · intro hsame e he hwrites
      obtain ⟨k, hset, hzero⟩ := hstart.cleared ⟨e, he, hwrites⟩ hsolo
      change (files.disk m.file).byte (headerSize + k) ≠ 0 at hset
      change (s.disk m.file).byte (headerSize + k) = 0 at hzero
      rw [hfile, hdisk] at hset
      rw [hfile, (SparseFile.contents_eq_iff.mp hsame).2] at hzero
      exact hset hzero
    · intro hes
      rw [hstart.disk_eq hes hsolo]
      exact congrArg SparseFile.contents hdisk
  · have hiff := hstart.recovered_iff (fun err => Instance.nextSlot_ne_failed _ err) hsolo
      (hend.imp And.left And.left)
    rw [← hiff]
    rcases hend with ⟨rfl, hlive⟩ | ⟨⟨err, rfl⟩, hno⟩
    · exact iff_of_true hlive rfl
    · refine iff_of_false ?_ (by simp)
      rintro ⟨live, hlive⟩
      exact hno live hlive

/-- A bitmap file that is reset or created. -/
theorem openCache_reset (hreach : ReachesBitmap ino config answers files m)
    (hnot : ¬ KeepsBitmap codec ino config answers files m)
    (h : openCache codec ino config answers files = some (res, files')) :
    ∃ f', files'.get (ino (bitmapPath config.targetPath)) = some f' ∧
      (∀ f, files.get (ino (bitmapPath config.targetPath)) = some f →
        (f'.contents = f.contents ↔ ResetKeeps codec
          (expectedHeader config.blob config.fetch.unitBytes m.slotCount) f answers.bitmap.init)) ∧
      ((∃ live, res = .ok live) ↔ ResetSucceeds codec
        (expectedHeader config.blob config.fetch.unitBytes m.slotCount) answers.bitmap.init) := by
  generalize hexpected : expectedHeader config.blob config.fetch.unitBytes m.slotCount = expected
  obtain ⟨old, hold, hreset⟩ : ∃ old : File,
      (∀ f, files.get (ino (bitmapPath config.targetPath)) = some f → f = old) ∧
      openOrCreate codec (ino (bitmapPath config.targetPath)) config.blob config.fetch.unitBytes
        answers.bitmap (files.get (ino (bitmapPath config.targetPath))) =
        Prod.map id some (openReset codec m old expected answers.bitmap.init) := by
    cases hf : files.get (ino (bitmapPath config.targetPath)) with
    | none =>
      refine ⟨newFile, fun f hno => absurd hno (by simp), ?_⟩
      simp only [openOrCreate, hreach.geometry, hreach.openFile, hexpected]
    | some f =>
      have hkeeps (slots : List UInt8) : ¬ Keeps codec m f expected answers.bitmap slots :=
        fun hkeeps => hnot ⟨f, slots, hf, hexpected ▸ hkeeps⟩
      refine ⟨f, fun f' hf' => (Option.some.inj hf').symm, ?_⟩
      simp only [openOrCreate, hreach.geometry, hreach.openFile, hexpected,
        openExisting_of_not_keeps hkeeps]
  generalize hinit : initializeFile codec old expected answers.bitmap.init = init at hreset
  obtain ⟨result, f'⟩ := init
  have hcontents (f : File)
      (hf : files.get (ino (bitmapPath config.targetPath)) = some f) :
      f'.contents = f.contents ↔ ResetKeeps codec expected f answers.bitmap.init := by
    rw [hold f hf]
    exact initializeFile_contents_iff hinit
  have hok : result = .ok () ↔ ResetSucceeds codec expected answers.bitmap.init := by
    rw [← initializeFile_ok_iff (f := old), hinit]
  cases result with
  | error err =>
    rw [openReset, hinit] at hreset
    rw [openCache_error hreach.target hreset] at h
    obtain ⟨rfl, rfl⟩ := Prod.mk.inj (Option.some.inj h)
    refine ⟨f', files.put_get_self _ _, hcontents, iff_of_false (by simp) fun hsucceeds => ?_⟩
    exact absurd (hok.mpr hsucceeds) (by simp)
  | ok =>
    rw [openReset, hinit] at hreset
    rw [openCache_clear hreach.target hreset rfl] at h
    obtain ⟨rfl, rfl⟩ := Prod.mk.inj (Option.some.inj h)
    exact ⟨f', files.put_get_self _ _, hcontents, iff_of_true ⟨_, rfl⟩ (hok.mp rfl)⟩

/-- An opening that does not get to the bitmap file. -/
theorem openCache_unreached (hno : ∀ m, ¬ ReachesBitmap ino config answers files m)
    (h : openCache codec ino config answers files = some (res, files')) :
    files' = files ∧ ∀ live, res ≠ .ok live := by
  cases htarget : openTarget files (ino config.targetPath) answers.target with
  | error err =>
    simp only [openCache, htarget] at h
    obtain ⟨rfl, rfl⟩ := Prod.mk.inj (Option.some.inj h)
    exact ⟨rfl, by simp⟩
  | ok =>
    obtain ⟨err, hrefused⟩ : ∃ err, openOrCreate codec (ino (bitmapPath config.targetPath))
        config.blob config.fetch.unitBytes answers.bitmap
        (files.get (ino (bitmapPath config.targetPath))) =
          (.error err, files.get (ino (bitmapPath config.targetPath))) := by
      cases hm : RangeMap.geometry (ino (bitmapPath config.targetPath)) config.blob.size
        config.fetch.unitBytes with
      | error err => exact ⟨err, by simp only [openOrCreate, hm]⟩
      | ok m =>
        cases hopen : answers.bitmap.openFile with
        | some err => exact ⟨.io err, by simp only [openOrCreate, hm, hopen]⟩
        | none => exact absurd ⟨htarget, hm, hopen⟩ (hno m)
    rw [openCache_error htarget hrefused, Files.put_get] at h
    obtain ⟨rfl, rfl⟩ := Prod.mk.inj (Option.some.inj h)
    exact ⟨rfl, by simp⟩

/-- **When opening keeps the contents of the bitmap file.** -/
theorem openCache_contents_iff
    (h : openCache codec ino config answers files = some (res, files')) :
    (∀ f, files.get (ino (bitmapPath config.targetPath)) = some f →
      ∃ f', files'.get (ino (bitmapPath config.targetPath)) = some f' ∧ f'.contents = f.contents) ↔
    KeepsContents codec ino config answers files := by
  have hreached {m : RangeMap} {f : File}
      (hf : files.get (ino (bitmapPath config.targetPath)) = some f)
      (hreach : ReachesBitmap ino config answers files m) :
      ∃ f', files'.get (ino (bitmapPath config.targetPath)) = some f' ∧
        (f'.contents = f.contents ↔
          (KeepsBitmap codec ino config answers files m → ∀ e ∈ answers.recovery, ¬ e.Writes) ∧
          (¬ KeepsBitmap codec ino config answers files m → ResetKeeps codec
            (expectedHeader config.blob config.fetch.unitBytes m.slotCount) f
            answers.bitmap.init)) := by
    by_cases hkeeps : KeepsBitmap codec ino config answers files m
    · obtain ⟨f₁, slots, hf₁, hslots⟩ := id hkeeps
      obtain rfl := Option.some.inj (hf.symm.trans hf₁)
      obtain ⟨f', hf', hiff, -⟩ := openCache_kept hreach hf hslots h
      refine ⟨f', hf', hiff.trans ⟨fun hes => ⟨fun _ => hes, fun hno => absurd hkeeps hno⟩, ?_⟩⟩
      exact fun hboth => hboth.1 hkeeps
    · obtain ⟨f', hf', hiff, -⟩ := openCache_reset hreach hkeeps h
      refine ⟨f', hf', (hiff f hf).trans ⟨fun hreset => ⟨fun hyes => absurd hyes hkeeps,
        fun _ => hreset⟩, ?_⟩⟩
      exact fun hboth => hboth.2 hkeeps
  constructor
  · intro hsame m f hreach hf
    obtain ⟨f', hf', hcontents⟩ := hsame f hf
    obtain ⟨f₁, hf₁, hiff⟩ := hreached hf hreach
    obtain rfl := Option.some.inj (hf'.symm.trans hf₁)
    exact hiff.mp hcontents
  · intro hkeeps f hf
    by_cases hreach : ∃ m, ReachesBitmap ino config answers files m
    · obtain ⟨m, hreach⟩ := hreach
      obtain ⟨f', hf', hiff⟩ := hreached hf hreach
      exact ⟨f', hf', hiff.mpr (hkeeps m f hreach hf)⟩
    · obtain ⟨rfl, -⟩ := openCache_unreached (not_exists.mp hreach) h
      exact ⟨f, hf, rfl⟩

/-- **When opening ends with an open cache.** -/
theorem openCache_ok_iff (h : openCache codec ino config answers files = some (res, files')) :
    (∃ live, res = .ok live) ↔ OpeningSucceeds codec ino config answers files (.ok ()) := by
  rw [OpeningSucceeds, and_iff_right rfl]
  by_cases hreach : ∃ m, ReachesBitmap ino config answers files m
  · obtain ⟨m, hreach⟩ := hreach
    by_cases hkeeps : KeepsBitmap codec ino config answers files m
    · obtain ⟨f, slots, hf, hslots⟩ := id hkeeps
      obtain ⟨-, -, -, hiff⟩ := openCache_kept hreach hf hslots h
      refine hiff.trans ⟨fun hes => ⟨m, hreach, fun _ => hes, fun hno => absurd hkeeps hno⟩, ?_⟩
      rintro ⟨m', hreach', hes, -⟩
      obtain rfl := hreach.unique hreach'
      exact hes hkeeps
    · obtain ⟨-, -, -, hiff⟩ := openCache_reset hreach hkeeps h
      refine hiff.trans
        ⟨fun hreset => ⟨m, hreach, fun hyes => absurd hyes hkeeps, fun _ => hreset⟩, ?_⟩
      rintro ⟨m', hreach', -, hreset⟩
      obtain rfl := hreach.unique hreach'
      exact hreset hkeeps
  · rw [not_exists] at hreach
    obtain ⟨-, hno⟩ := openCache_unreached hreach h
    refine iff_of_false ?_ ?_
    · rintro ⟨live, hlive⟩
      exact hno live hlive
    · rintro ⟨m, hm, -⟩
      exact hreach m hm

end Opening

namespace Daemon

variable (codec : HeaderCodec) (ino : String → FileKey)

/-- The path of the target that a call is about. -/
def RegistryCall.targetPath (d : Daemon) : RegistryCall → Option String
  | .register _ config _ => some config.targetPath
  | .unregister instanceId _ => (d.instances instanceId).map (·.inst.config.targetPath)

/-- The registered instances, the table of marks, the marks in the kernel, and the contents of a
bitmap file that was there next to the target. -/
structure Unchanged (call : RegistryCall) (d d' : Daemon) : Prop where
  instances : d'.instances = d.instances
  fanotify : d'.fanotify = d.fanotify
  bitmap : ∀ path f, call.targetPath d = some path → d.files.get (ino (bitmapPath path)) = some f →
    ∃ f', d'.files.get (ino (bitmapPath path)) = some f' ∧ f'.contents = f.contents

/-- The target gets a mark in the kernel that it did not have, and no entry in the table. -/
def LeavesMark (d : Daemon) (config : InstanceConfig) (faults : MarkFaults) : Prop :=
  config.triggerMode = .fanotify ∧ '\x00' ∉ config.targetPath.toList ∧ faults.syscall = none ∧
    faults.metadata ≠ none ∧ ∃ backend, d.fanotify = some backend ∧
      backend.marked (ino config.targetPath) = false

/-- A registration that fails before it opens anything, or opens an instance without a change to the
bitmap file and then leaves no mark behind. No unregistration: it can only fail behind its change to
the registry. -/
def AtomicOnError (d : Daemon) : RegistryCall → Prop
  | .register instanceId config answers =>
    validateConfig config = .ok () → d.instances instanceId = none →
      KeepsContents codec ino { config with instanceId } answers.opening d.files ∧
        (OpeningSucceeds codec ino { config with instanceId } answers.opening d.files
          answers.remote → ¬ LeavesMark ino d config answers.mark)
  | .unregister _ _ => False

variable {codec ino} {d d' : Daemon} {instanceId : String} {config : InstanceConfig}

/-! ### Marking -/

theorem markTarget_unchanged_iff {faults : MarkFaults} {err : Error}
    (h : markTarget ino d instanceId config faults = (.error err, d')) :
    d'.fanotify = d.fanotify ↔ ¬ LeavesMark ino d config faults := by
  cases hfanotify : d.fanotify with
  | none =>
    rw [markTarget, hfanotify] at h
    cases hmode : config.triggerMode <;> rw [hmode] at h <;>
      exact absurd (Prod.mk.inj h).1 (by simp)
  | some backend =>
    rw [markTarget_eq hfanotify] at h
    split_ifs at h with hmode
    · have hleaves : LeavesMark ino d config faults ↔ '\x00' ∉ config.targetPath.toList ∧
          faults.syscall = none ∧ faults.metadata ≠ none ∧
          backend.marked (ino config.targetPath) = false := by
        rw [LeavesMark, and_iff_right hmode, hfanotify]
        simp only [Option.some.injEq, exists_eq_left']
      rw [hleaves]
      cases hpath : FanotifyBackend.cString config.targetPath with
      | error err =>
        simp only [FanotifyBackend.mark, hpath, Prod.map, id] at h
        obtain ⟨-, rfl⟩ := Prod.mk.inj h
        refine iff_of_true rfl fun hleaves => ?_
        rw [FanotifyBackend.cString, if_neg hleaves.1] at hpath
        exact absurd hpath (by simp)
      | ok =>
        have hnul : '\x00' ∉ config.targetPath.toList := by
          intro hmem
          rw [FanotifyBackend.cString, if_pos hmem] at hpath
          exact absurd hpath (by simp)
        cases hsyscall : faults.syscall with
        | some msg =>
          simp only [FanotifyBackend.mark, hpath, hsyscall, Prod.map, id] at h
          obtain ⟨-, rfl⟩ := Prod.mk.inj h
          exact iff_of_true rfl fun hleaves => absurd hleaves.2.1 (by simp)
        | none =>
          cases hmetadata : faults.metadata with
          | none =>
            simp only [FanotifyBackend.mark, hpath, hsyscall, hmetadata, Prod.map, id] at h
            exact absurd (Prod.mk.inj h).1 (by simp)
          | some ioErr =>
            simp only [FanotifyBackend.mark, hpath, hsyscall, hmetadata, Prod.map, id] at h
            obtain ⟨-, rfl⟩ := Prod.mk.inj h
            -- the kernel has the mark now, whether it had it before or not
            have hsame : some { backend with
                marked := Function.update backend.marked (ino config.targetPath) true } =
                some backend ↔ backend.marked (ino config.targetPath) = true := by
              constructor
              · intro heq
                have hmarked := congrArg FanotifyBackend.marked (Option.some.inj heq)
                rw [← hmarked]
                exact Function.update_self _ _ _
              · intro hmarked
                rw [← hmarked, Function.update_eq_self]
            refine hsame.trans ?_
            rw [← Bool.not_eq_false]
            exact not_congr ⟨fun hno => ⟨hnul, rfl, by simp, hno⟩, fun hleaves => hleaves.2.2.2⟩
    · exact absurd (Prod.mk.inj h).1 (by simp)

/-! ### Calls that return an error -/

/-- The checks of a registration include those of the opening. -/
theorem openInstance_eq {answers : OpenAnswers} {remote : Except Error Unit} {files : Files}
    (hvalid : validateConfig config = .ok ()) :
    openInstance codec ino { config with instanceId } answers remote files =
      (openCache codec ino { config with instanceId } answers files).map fun p =>
        match p with
        | (.error err, files) => (.error err, files)
        | (.ok live, files) => (remote.map fun _ => live, files) := by
  have hunit : validateFetchUnitBytes config.fetch.unitBytes.toNat = .ok () := by
    rw [validateConfig] at hvalid
    split_ifs at hvalid
    exact hvalid
  simp only [openInstance, hunit]
  cases openCache codec ino { config with instanceId } answers files with
  | none => rfl
  | some p =>
    obtain ⟨res, files'⟩ := p
    cases res with
    | error err => rfl
    | ok live => cases remote <;> rfl

/-- A bitmap file after the opening of a registration, and whether the opening succeeds. -/
theorem openInstance_spec {answers : OpenAnswers} {remote : Except Error Unit}
    {files files' : Files} {res : Except Error Live} (hvalid : validateConfig config = .ok ())
    (h : openInstance codec ino { config with instanceId } answers remote files =
      some (res, files')) :
    ((∀ f, files.get (ino (bitmapPath config.targetPath)) = some f →
      ∃ f', files'.get (ino (bitmapPath config.targetPath)) = some f' ∧ f'.contents = f.contents) ↔
        KeepsContents codec ino { config with instanceId } answers files) ∧
    ((∃ live, res = .ok live) ↔
      OpeningSucceeds codec ino { config with instanceId } answers files remote) := by
  rw [openInstance_eq hvalid, Option.map_eq_some_iff] at h
  obtain ⟨⟨opened, files''⟩, hcache, hres⟩ := h
  have hok := openCache_ok_iff hcache
  rw [OpeningSucceeds, and_iff_right rfl] at hok
  rw [OpeningSucceeds, ← hok]
  cases opened with
  | error err =>
    obtain ⟨rfl, rfl⟩ := Prod.mk.inj hres
    exact ⟨openCache_contents_iff hcache, by simp⟩
  | ok live =>
    obtain ⟨rfl, rfl⟩ := Prod.mk.inj hres
    refine ⟨openCache_contents_iff hcache, ?_⟩
    cases remote with
    | error err => exact iff_of_false (by simp [Except.map]) (by simp)
    | ok => exact iff_of_true ⟨live, rfl⟩ ⟨rfl, live, rfl⟩

/-- What a registration leaves unchanged. -/
theorem unchanged_register {answers : RegisterAnswers} :
    Unchanged ino (.register instanceId config answers) d d' ↔
      d'.instances = d.instances ∧ d'.fanotify = d.fanotify ∧
        ∀ f, d.files.get (ino (bitmapPath config.targetPath)) = some f → ∃ f',
          d'.files.get (ino (bitmapPath config.targetPath)) = some f' ∧
            f'.contents = f.contents := by
  constructor
  · exact fun hsame => ⟨hsame.instances, hsame.fanotify, fun f hf => hsame.bitmap _ f rfl hf⟩
  · rintro ⟨hinstances, hfanotify, hbitmap⟩
    refine ⟨hinstances, hfanotify, fun path f hpath hf => ?_⟩
    obtain rfl := Option.some.inj hpath
    exact hbitmap f hf

theorem not_unchanged_unregister {faults : MarkFaults} {err : Error}
    (h : unregister ino d instanceId faults = (.error err, d')) :
    ¬ Unchanged ino (.unregister instanceId faults) d d' := by
  intro hsame
  rw [unregister] at h
  split at h
  · exact absurd (Prod.mk.inj h).1 (by simp)
  · rename_i live hlive
    have hremoved : d'.instances instanceId = none := by
      rw [unmarkTarget] at h
      split at h <;> obtain ⟨-, rfl⟩ := Prod.mk.inj h <;> exact Function.update_self _ _ _
    rw [hsame.instances, hlive] at hremoved
    exact absurd hremoved (by simp)

/-- **Errors.** A call that returns an error has left the registered instances, the table of marks,
the marks in the kernel and the contents of the bitmap file as they were exactly when it is a
registration, and what it finds and the answers it gets are such that opening keeps the bitmap file
as it is and no mark is left without its entry. -/
theorem unchanged_iff_of_error {callMade : RegistryCall} {err : Error}
    (h : call codec ino d callMade = some (.error err, d')) :
    Unchanged ino callMade d d' ↔ AtomicOnError codec ino d callMade := by
  cases callMade with
  | unregister instanceId faults =>
    exact iff_of_false (not_unchanged_unregister (Option.some.inj h)) id
  | register instanceId config answers =>
    have hregister : register codec ino d instanceId config answers = some (.error err, d') := h
    rw [AtomicOnError]
    -- the exits before the opening
    cases hvalid : validateConfig config with
    | error err' =>
      rw [register, hvalid] at hregister
      obtain ⟨-, rfl⟩ := Prod.mk.inj (Option.some.inj hregister)
      exact iff_of_true ⟨rfl, rfl, fun _ f _ hf => ⟨f, hf, rfl⟩⟩ fun hno => absurd hno (by simp)
    | ok =>
      cases hfree : d.instances instanceId with
      | some live =>
        simp only [register, hvalid, hfree] at hregister
        split_ifs at hregister
        · exact absurd (Prod.mk.inj (Option.some.inj hregister)).1 (by simp)
        · obtain ⟨-, rfl⟩ := Prod.mk.inj (Option.some.inj hregister)
          exact iff_of_true ⟨rfl, rfl, fun _ f _ hf => ⟨f, hf, rfl⟩⟩
            fun _ hno => absurd hno (by simp)
      | none =>
        simp only [register, hvalid, hfree] at hregister
        split at hregister
        · exact absurd hregister (by simp)
        · -- the opening fails
          rename_i err' files' hopen
          obtain ⟨-, rfl⟩ := Prod.mk.inj (Option.some.inj hregister)
          obtain ⟨hcontents, hok⟩ := openInstance_spec hvalid hopen
          rw [unchanged_register]
          constructor
          · rintro ⟨-, -, hsame⟩ _ _
            refine ⟨hcontents.mp hsame, fun hsucceeds => ?_⟩
            obtain ⟨live, hlive⟩ := hok.mpr hsucceeds
            exact absurd hlive (by simp)
          · intro hatomic
            exact ⟨rfl, rfl, hcontents.mpr (hatomic rfl rfl).1⟩
        · rename_i live files' hopen
          obtain ⟨hcontents, hok⟩ := openInstance_spec hvalid hopen
          have hsucceeds := hok.mp ⟨live, rfl⟩
          split at hregister
          · -- the marking fails
            rename_i err' d'' hmark
            obtain ⟨-, rfl⟩ := Prod.mk.inj (Option.some.inj hregister)
            obtain ⟨hfiles, hinstances⟩ := markTarget_files hmark
            have hfanotify := markTarget_unchanged_iff hmark
            obtain rfl : d''.files = files' := hfiles
            rw [unchanged_register]
            constructor
            · rintro ⟨-, hmarks, hsame⟩ _ _
              exact ⟨hcontents.mp hsame, fun _ => hfanotify.mp hmarks⟩
            · intro hatomic
              obtain ⟨hkeeps, hmarks⟩ := hatomic rfl rfl
              exact ⟨hinstances, hfanotify.mpr (hmarks hsucceeds), hcontents.mpr hkeeps⟩
          · exact absurd (Prod.mk.inj (Option.some.inj hregister)).1 (by simp)

/-- The mark of a new instance is refused. The bitmap file has been created, and nothing that was
there before has changed. -/
theorem unchanged_small : ∃ d' : Daemon,
    call headerJson smallIno (start smallFiles (some .new))
        (.register "a" smallConfig { mark := { syscall := some "EPERM" } }) =
      some (.error (.fanotify "EPERM"), d') ∧
    Unchanged smallIno (.register "a" smallConfig { mark := { syscall := some "EPERM" } })
      (start smallFiles (some .new)) d' := by
  obtain ⟨buf, hbuf⟩ := exists_encodeHeader (encodeHeader_small newBlob (by decide))
  obtain ⟨f, hopen, -⟩ := small_open "a" (rfl : newBlob.size = 3) hbuf
    (rfl : smallFiles.present smallInstance.target = true) rfl
  have hcall : call headerJson smallIno (start smallFiles (some .new))
      (.register "a" smallConfig { mark := { syscall := some "EPERM" } }) =
        some (.error (.fanotify "EPERM"),
          start (smallFiles.put ⟨1, 2⟩ (some f)) (some .new)) := by
    have hvalid : validateConfig smallConfig = .ok () := rfl
    have hconfig : { smallConfig with instanceId := "a" } = smallConfigOf newBlob "a" := rfl
    have hpath : FanotifyBackend.cString (smallConfigOf newBlob "a").targetPath = .ok () :=
      if_neg smallConfig_path
    simp only [call, register, hvalid, start, hconfig, hopen]
    simp only [markTarget, FanotifyBackend.mark, hpath]
    rfl
  refine ⟨_, hcall, (unchanged_iff_of_error hcall).mpr fun _ _ => ⟨fun m f' _ hf => ?_, ?_⟩⟩
  · have hnone := smallFiles_get "a" newBlob
    exact absurd (hnone.symm.trans hf) (by simp)
  · rintro - ⟨-, -, hsyscall, -⟩
    exact absurd hsyscall (by simp)

/-- The target of a registered instance has been renamed, so that its path is gone and the
unregistration fails. The instance is gone all the same, and the mark on the inode stays. -/
theorem error_changes_daemon : ∃ (d d' : Daemon) (err : Error),
    call headerJson smallIno (start smallFiles (some .new)) (.register "a" smallConfig {}) =
      some (.ok (), d) ∧
    call headerJson smallIno d (.unregister "a" { metadata := some (.os 2) }) =
      some (.error err, d') ∧
    d.instances "a" ≠ none ∧ d'.instances "a" = none ∧ d'.fanotify = d.fanotify ∧
    ¬ Unchanged smallIno (.unregister "a" { metadata := some (.os 2) }) d d' := by
  obtain ⟨live, f, -, hfirst, hconfig, -⟩ := register_small_first "a"
  have hlive : (smallDaemon "a" live f).instances "a" = some live := by
    simp only [smallDaemon, Function.update_self]
  have hunregister : unregister smallIno (smallDaemon "a" live f) "a"
      { metadata := some (.os 2) } = (.error (.io (.os 2)),
        { smallDaemon "a" live f with
          instances := Function.update (smallDaemon "a" live f).instances "a" none }) := by
    have hmode : (smallConfigOf newBlob "a").triggerMode = .fanotify := rfl
    simp only [unregister, hlive, unmarkTarget, hconfig, hmode]
    rfl
  refine ⟨smallDaemon "a" live f, _, _, hfirst, congrArg some hunregister, ?_, ?_, rfl,
    not_unchanged_unregister hunregister⟩
  · rw [hlive]
    simp
  · simp only [Function.update_self]

end Daemon

end Lazyd
