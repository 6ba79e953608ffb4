import Lazyd.Registry.Register
import Mathlib.Logic.Relation

/-!
# Marks cover the registry

A file that a registered instance fills lazily has to be monitored: without a mark a read of it gets
the zeros of its holes. The registry, the table of marks and the marks in the kernel are three
stores with different keys. Registering an instance marks its target, so all is well as long as no
two instances share a target. If two do, unregistering one of them removes the mark of both.

## Main definitions

* `Daemon.MarksCover` : every registered instance is monitored and found through its file.
* `Daemon.KeepsMarks` : the calls that do not take a mark from an instance that stays.

## Main results

* `Daemon.covered_register`, `Daemon.covered_unregister_iff` : what the two calls do to the marks.
* `Daemon.marks_cover` : the marks cover the registry in every run of such calls.
* `Daemon.shared_target_unmarked` : two instances on one file.

Source: `src/instance.rs`, lines 128–169; `src/fanotify.rs`, lines 106–155 and 224–240.
-/

namespace Lazyd

namespace Daemon

variable (codec : HeaderCodec) (ino : String → FileKey)

/-- A registered instance that waits for permission events on its target. -/
structure Monitored (d : Daemon) (instanceId : String) (live : Live) : Prop where
  registered : d.instances instanceId = some live
  triggerMode : live.inst.config.triggerMode = .fanotify

/-- The target has a mark in the kernel, and the table maps it to a registered instance with this
target. -/
def TargetCovered (d : Daemon) (backend : FanotifyBackend) (target : FileKey) : Prop :=
  backend.marked target = true ∧ ∃ instanceId live, backend.marks target = some instanceId ∧
    d.instances instanceId = some live ∧ live.inst.target = target

/-- The target of every monitored instance is covered. -/
def MarksCover (d : Daemon) : Prop :=
  ∃ backend, d.fanotify = some backend ∧
    ∀ instanceId live, d.Monitored instanceId live → d.TargetCovered backend live.inst.target

/-- A call on the registry. -/
inductive RegistryCall where
  | register (instanceId : String) (config : InstanceConfig) (answers : RegisterAnswers)
  | unregister (instanceId : String) (faults : MarkFaults)

/-- A complete call. -/
def call (d : Daemon) : RegistryCall → Option (Except Error Unit × Daemon)
  | .register instanceId config answers => register codec ino d instanceId config answers
  | .unregister instanceId faults => some (unregister ino d instanceId faults)

/-- Where another monitored instance has the target of the one that is unregistered, unmarking the
target fails, and its entry in the table is not the one of the unregistered instance. -/
def KeepsMarks (d : Daemon) : RegistryCall → Prop
  | .register _ _ _ => True
  | .unregister instanceId faults =>
    ∀ live, d.Monitored instanceId live →
      ∀ other live', d.Monitored other live' → other ≠ instanceId →
        live'.inst.target = live.inst.target →
        FanotifyBackend.UnmarkFails live.inst.config.targetPath faults ∧
          ∀ backend, d.fanotify = some backend → backend.marks live.inst.target ≠ some instanceId

/-- The inductive invariant: the instance that the table names is itself monitored, and every
instance has the target that its path names. -/
structure Covered (d : Daemon) (backend : FanotifyBackend) : Prop where
  fanotify : d.fanotify = some backend
  target : ∀ instanceId live, d.instances instanceId = some live →
    live.inst.target = ino live.inst.config.targetPath
  marked : ∀ instanceId live, d.Monitored instanceId live → backend.marked live.inst.target = true
  mapped : ∀ instanceId live, d.Monitored instanceId live → ∃ instanceId' live',
    backend.marks live.inst.target = some instanceId' ∧ d.Monitored instanceId' live' ∧
      live'.inst.target = live.inst.target

variable {codec ino} {d : Daemon} {backend : FanotifyBackend}

theorem Covered.marksCover (h : Covered ino d backend) : MarksCover d := by
  refine ⟨backend, h.fanotify, fun instanceId live hlive => ⟨h.marked _ _ hlive, ?_⟩⟩
  obtain ⟨instanceId', live', hmap, hlive', htarget⟩ := h.mapped _ _ hlive
  exact ⟨instanceId', live', hmap, hlive'.registered, htarget⟩

/-! ### Registering -/

/-- More marks in the kernel do no harm. -/
theorem Covered.mono {d' : Daemon} {backend' : FanotifyBackend} (h : Covered ino d backend)
    (hinstances : d'.instances = d.instances) (hfanotify : d'.fanotify = some backend')
    (hmarks : backend'.marks = backend.marks)
    (hmarked : ∀ key, backend.marked key = true → backend'.marked key = true) :
    Covered ino d' backend' := by
  have hmonitored (instanceId : String) (live : Live) :
      d'.Monitored instanceId live ↔ d.Monitored instanceId live := by
    constructor <;> rintro ⟨hreg, hmode⟩
    · exact ⟨hinstances ▸ hreg, hmode⟩
    · exact ⟨hinstances ▸ hreg, hmode⟩
  refine ⟨hfanotify, fun id live hlive => h.target id live (hinstances ▸ hlive), ?_, ?_⟩
  · intro id live hlive
    exact hmarked _ (h.marked id live ((hmonitored id live).mp hlive))
  · intro id live hlive
    obtain ⟨id', live', hmap, hlive', htarget⟩ := h.mapped id live ((hmonitored id live).mp hlive)
    exact ⟨id', live', by rw [hmarks, hmap], (hmonitored id' live').mpr hlive', htarget⟩

/-- With a backend, `register` marks the targets of the instances with the fanotify trigger. -/
theorem markTarget_eq {instanceId : String} {config : InstanceConfig} {faults : MarkFaults}
    (h : d.fanotify = some backend) :
    markTarget ino d instanceId config faults =
      if config.triggerMode = .fanotify then
        Prod.map id (fun backend => { d with fanotify := some backend })
          (backend.mark instanceId config.targetPath (ino config.targetPath) faults)
      else (.ok (), d) := by
  rw [markTarget, h]
  cases config.triggerMode <;> rfl

/-- Marking without faults. -/
theorem markTarget_ok {instanceId : String} {config : InstanceConfig}
    (h : d.fanotify = some backend) (hmode : config.triggerMode = .fanotify)
    (hpath : '\x00' ∉ config.targetPath.toList) :
    markTarget ino d instanceId config {} =
      (.ok (),
        { d with fanotify := some (backend.insert (ino config.targetPath) instanceId) }) := by
  rw [markTarget_eq h, if_pos hmode, FanotifyBackend.mark, FanotifyBackend.cString, if_neg hpath]
  rfl

/-- A new instance is monitored if its trigger is fanotify, and the others as before. -/
theorem monitored_insert {d' : Daemon} {instanceId : String} {live : Live}
    (hfree : d.instances instanceId = none)
    (hinstances : d'.instances = Function.update d.instances instanceId (some live)) (id : String)
    (live' : Live) : d'.Monitored id live' ↔
      (id = instanceId ∧ live' = live ∧ live.inst.config.triggerMode = .fanotify) ∨
        d.Monitored id live' := by
  by_cases hid : id = instanceId
  · subst hid
    constructor
    · rintro ⟨hreg, hmode⟩
      rw [hinstances, Function.update_self] at hreg
      obtain rfl := Option.some.inj hreg
      exact Or.inl ⟨rfl, rfl, hmode⟩
    · rintro (⟨-, rfl, hmode⟩ | ⟨hreg, -⟩)
      · exact ⟨by rw [hinstances, Function.update_self], hmode⟩
      · rw [hfree] at hreg
        exact absurd hreg (by simp)
  · have hsame : d'.instances id = d.instances id := by
      rw [hinstances, Function.update_of_ne hid]
    constructor
    · rintro ⟨hreg, hmode⟩
      exact Or.inr ⟨hsame ▸ hreg, hmode⟩
    · rintro (⟨hno, -⟩ | ⟨hreg, hmode⟩)
      · exact absurd hno hid
      · exact ⟨hsame.trans hreg, hmode⟩

/-- A new instance whose target is marked for it, or whose trigger is not fanotify. -/
theorem Covered.insert {d' : Daemon} {instanceId : String} {live : Live} (h : Covered ino d backend)
    (hfree : d.instances instanceId = none)
    (hinstances : d'.instances = Function.update d.instances instanceId (some live))
    (htarget : live.inst.target = ino live.inst.config.targetPath)
    (hbackend : (live.inst.config.triggerMode ≠ .fanotify ∧ d'.fanotify = some backend) ∨
      (live.inst.config.triggerMode = .fanotify ∧
        d'.fanotify = some (backend.insert live.inst.target instanceId))) :
    ∃ backend', Covered ino d' backend' := by
  have hmonitored := monitored_insert (d := d) hfree hinstances
  have htargets (id : String) (live' : Live) (hlive' : d'.instances id = some live') :
      live'.inst.target = ino live'.inst.config.targetPath := by
    rw [hinstances] at hlive'
    by_cases hid : id = instanceId
    · rw [hid, Function.update_self] at hlive'
      exact Option.some.inj hlive' ▸ htarget
    · rw [Function.update_of_ne hid] at hlive'
      exact h.target id live' hlive'
  rcases hbackend with ⟨hmode, hfanotify⟩ | ⟨hmode, hfanotify⟩
  · refine ⟨backend, hfanotify, htargets, fun id live' hlive' => ?_, fun id live' hlive' => ?_⟩
    · rcases (hmonitored id live').mp hlive' with ⟨-, -, hno⟩ | hold
      · exact absurd hno hmode
      · exact h.marked id live' hold
    · rcases (hmonitored id live').mp hlive' with ⟨-, -, hno⟩ | hold
      · exact absurd hno hmode
      · obtain ⟨id', live'', hmap, hlive'', hsame⟩ := h.mapped id live' hold
        exact ⟨id', live'', hmap, (hmonitored id' live'').mpr (Or.inr hlive''), hsame⟩
  · have hnew : d'.Monitored instanceId live :=
      (hmonitored instanceId live).mpr (Or.inl ⟨rfl, rfl, hmode⟩)
    refine ⟨_, hfanotify, htargets, fun id live' hlive' => ?_, fun id live' hlive' => ?_⟩
    · by_cases hkey : live'.inst.target = live.inst.target
      · rw [hkey]
        exact Function.update_self _ _ _
      · rcases (hmonitored id live').mp hlive' with ⟨-, rfl, -⟩ | hold
        · exact absurd rfl hkey
        · exact (Function.update_of_ne hkey _ _).trans (h.marked id live' hold)
    · by_cases hkey : live'.inst.target = live.inst.target
      · refine ⟨instanceId, live, ?_, hnew, hkey.symm⟩
        rw [hkey]
        exact Function.update_self _ _ _
      · rcases (hmonitored id live').mp hlive' with ⟨-, rfl, -⟩ | hold
        · exact absurd rfl hkey
        · obtain ⟨id', live'', hmap, hlive'', hsame⟩ := h.mapped id live' hold
          refine ⟨id', live'', ?_, (hmonitored id' live'').mpr (Or.inr hlive''), hsame⟩
          exact (Function.update_of_ne hkey _ _).trans hmap

/-- **Registering keeps the marks.** -/
theorem covered_register {instanceId : String} {config : InstanceConfig}
    {answers : RegisterAnswers} {res : Except Error Unit} {d' : Daemon} (h : Covered ino d backend)
    (hregister : register codec ino d instanceId config answers = some (res, d')) :
    ∃ backend', Covered ino d' backend' := by
  cases Registers.of_register hregister with
  | unchanged => exact ⟨backend, h⟩
  | notOpened => exact ⟨backend, h.mono rfl h.fanotify rfl fun _ hkey => hkey⟩
  | @notMarked live err files d' hfree hopen hmark =>
    have hd : ({ d with files } : Daemon).fanotify = some backend := h.fanotify
    rw [markTarget_eq hd] at hmark
    split_ifs at hmark
    · obtain ⟨herr, rfl⟩ := Prod.mk.inj hmark
      rcases backend.mark_cases instanceId config.targetPath (ino config.targetPath)
        answers.mark with ⟨_, -, hmarks, hmarked⟩ | hok
      · exact ⟨_, h.mono rfl rfl hmarks hmarked⟩
      · exact absurd (herr.symm.trans (congrArg Prod.fst hok)) (by simp)
    · exact absurd (Prod.mk.inj hmark).1 (by simp)
  | @registered live files d' hfree hopen hmark =>
    obtain ⟨hconfig, htarget⟩ := openInstance_target hopen
    have hinstances := (markTarget_files hmark).2
    have hd : ({ d with files } : Daemon).fanotify = some backend := h.fanotify
    rw [markTarget_eq hd] at hmark
    refine h.insert hfree (by rw [hinstances]) (by rw [htarget, hconfig]) ?_
    rw [hconfig, htarget]
    split_ifs at hmark with hmode
    · obtain ⟨hok, rfl⟩ := Prod.mk.inj hmark
      rcases backend.mark_cases instanceId config.targetPath (ino config.targetPath)
        answers.mark with ⟨_, herr, -⟩ | hmarked
      · exact absurd (herr.symm.trans hok) (by simp)
      · exact Or.inr ⟨hmode, congrArg (fun p => some p.2) hmarked⟩
    · obtain ⟨-, rfl⟩ := Prod.mk.inj hmark
      exact Or.inl ⟨hmode, h.fanotify⟩

/-! ### Unregistering -/

/-- With a backend, `unregister` unmarks the target of an instance with the fanotify trigger. -/
theorem unmarkTarget_eq {config : InstanceConfig} {faults : MarkFaults}
    (h : d.fanotify = some backend) :
    unmarkTarget ino d config faults =
      if config.triggerMode = .fanotify then
        Prod.map id (fun backend => { d with fanotify := some backend })
          (backend.unmark config.targetPath (ino config.targetPath) faults)
      else (.ok (), d) := by
  rw [unmarkTarget, h]
  cases config.triggerMode <;> rfl

theorem monitored_remove {d' : Daemon} {instanceId : String}
    (hinstances : d'.instances = Function.update d.instances instanceId none) (id : String)
    (live : Live) : d'.Monitored id live ↔ id ≠ instanceId ∧ d.Monitored id live := by
  by_cases hid : id = instanceId
  · subst hid
    refine iff_of_false ?_ fun h => h.1 rfl
    rintro ⟨hreg, -⟩
    rw [hinstances, Function.update_self] at hreg
    exact absurd hreg (by simp)
  · have hsame : d'.instances id = d.instances id := by
      rw [hinstances, Function.update_of_ne hid]
    constructor
    · rintro ⟨hreg, hmode⟩
      exact ⟨hid, hsame ▸ hreg, hmode⟩
    · rintro ⟨-, hreg, hmode⟩
      exact ⟨hsame.trans hreg, hmode⟩

/-- An instance is removed, and the marks of the targets of the others stay. -/
theorem Covered.remove {d' : Daemon} {backend' : FanotifyBackend} {instanceId : String}
    (h : Covered ino d backend)
    (hinstances : d'.instances = Function.update d.instances instanceId none)
    (hfanotify : d'.fanotify = some backend')
    (hmarks : ∀ id live, d.Monitored id live → id ≠ instanceId →
      backend'.marked live.inst.target = backend.marked live.inst.target ∧
        backend'.marks live.inst.target = backend.marks live.inst.target ∧
          ∀ live', d.Monitored instanceId live' → live'.inst.target = live.inst.target →
            backend.marks live.inst.target ≠ some instanceId) :
    Covered ino d' backend' := by
  have hmonitored := monitored_remove (d := d) hinstances
  refine ⟨hfanotify, fun id live hlive => ?_, fun id live hlive => ?_, fun id live hlive => ?_⟩
  · rw [hinstances] at hlive
    by_cases hid : id = instanceId
    · rw [hid, Function.update_self] at hlive
      exact absurd hlive (by simp)
    · rw [Function.update_of_ne hid] at hlive
      exact h.target id live hlive
  · obtain ⟨hid, hold⟩ := (hmonitored id live).mp hlive
    rw [(hmarks id live hold hid).1]
    exact h.marked id live hold
  · obtain ⟨hid, hold⟩ := (hmonitored id live).mp hlive
    obtain ⟨-, hsame, hother⟩ := hmarks id live hold hid
    obtain ⟨id', live', hmap, hlive', htarget⟩ := h.mapped id live hold
    have hid' : id' ≠ instanceId := by
      rintro rfl
      exact hother live' hlive' htarget hmap
    exact ⟨id', live', hsame.trans hmap, (hmonitored id' live').mpr ⟨hid', hlive'⟩, htarget⟩

/-- **Unregistering keeps the marks** of the instances that stay, if the call is one that does. -/
theorem covered_unregister {instanceId : String} {faults : MarkFaults} (h : Covered ino d backend)
    (hkeep : KeepsMarks d (.unregister instanceId faults)) :
    ∃ backend', Covered ino (unregister ino d instanceId faults).2 backend' := by
  unfold unregister
  split
  · exact ⟨backend, h⟩
  · rename_i live hlive
    let d₁ : Daemon := { d with instances := Function.update d.instances instanceId none }
    have hd₁ : d₁.fanotify = some backend := h.fanotify
    change ∃ backend', Covered ino (unmarkTarget ino d₁ live.inst.config faults).2 backend'
    rw [unmarkTarget_eq hd₁]
    split_ifs with hmode
    · have hmonitored : d.Monitored instanceId live := ⟨hlive, hmode⟩
      by_cases hfails : FanotifyBackend.UnmarkFails live.inst.config.targetPath faults
      · obtain ⟨err, hunmark⟩ := backend.unmark_of_fails (ino live.inst.config.targetPath)
          hfails
        rw [hunmark]
        refine ⟨backend, h.remove rfl rfl ?_⟩
        intro id live' hother hid
        refine ⟨rfl, rfl, fun live'' hlive'' htarget => ?_⟩
        rw [← htarget]
        exact (hkeep live'' hlive'' id live' hother hid htarget.symm).2 backend h.fanotify
      · rw [FanotifyBackend.unmark_of_not_fails _ hfails]
        refine ⟨_, h.remove rfl rfl ?_⟩
        intro id live' hother hid
        have hkey : live'.inst.target ≠ ino live.inst.config.targetPath := by
          rw [← h.target instanceId live hlive]
          exact fun htarget => hfails (hkeep live hmonitored id live' hother hid htarget).1
        refine ⟨Function.update_of_ne hkey _ _, Function.update_of_ne hkey _ _, ?_⟩
        intro live'' hlive'' htarget
        exact absurd (hkeep live'' hlive'' id live' hother hid htarget.symm).1
          (Option.some.inj (hlive''.registered.symm.trans hlive) ▸ hfails)
    · refine ⟨backend, h.remove rfl hd₁ ?_⟩
      intro id live' hother hid
      refine ⟨rfl, rfl, fun live'' hlive'' => ?_⟩
      exact absurd hlive''.triggerMode
        (Option.some.inj (hlive''.registered.symm.trans hlive) ▸ hmode)

theorem keepsMarks_of_marksCover {instanceId : String} {faults : MarkFaults}
    (h : Covered ino d backend) (hafter : MarksCover (unregister ino d instanceId faults).2) :
    KeepsMarks d (.unregister instanceId faults) := by
  intro live hlive other live' hother hne htarget
  let d₁ : Daemon := { d with instances := Function.update d.instances instanceId none }
  have hd₁ : d₁.fanotify = some backend := h.fanotify
  have hunregister : unregister ino d instanceId faults =
      unmarkTarget ino d₁ live.inst.config faults := by
    rw [unregister, hlive.registered]
  rw [hunregister, unmarkTarget_eq hd₁, if_pos hlive.triggerMode] at hafter
  obtain ⟨backend', hfanotify, hcover⟩ := hafter
  have hcovered := hcover other live' ((monitored_remove rfl other live').mpr ⟨hne, hother⟩)
  rw [htarget] at hcovered
  by_cases hfails : FanotifyBackend.UnmarkFails live.inst.config.targetPath faults
  · obtain ⟨err, hunmark⟩ := backend.unmark_of_fails (ino live.inst.config.targetPath) hfails
    rw [hunmark] at hfanotify hcovered
    obtain rfl : backend = backend' := Option.some.inj hfanotify
    refine ⟨hfails, fun backend'' hbackend'' hmap => ?_⟩
    obtain rfl := Option.some.inj (h.fanotify.symm.trans hbackend'')
    obtain ⟨-, id', live'', hmap', hreg, -⟩ := hcovered
    obtain rfl := Option.some.inj (hmap.symm.trans hmap')
    exact absurd ((Function.update_self _ _ _).symm.trans hreg) (by simp)
  · rw [FanotifyBackend.unmark_of_not_fails _ hfails] at hfanotify
    obtain rfl := Option.some.inj hfanotify
    have hgone := hcovered.1
    rw [h.target instanceId live hlive.registered] at hgone
    exact absurd ((Function.update_self _ _ _).symm.trans hgone) (by simp)

/-! ### Runs -/

/-- One step of a run, under the condition `ok` on the calls. -/
def RegistryStep (codec : HeaderCodec) (ino : String → FileKey) (ok : Daemon → RegistryCall → Prop)
    (d d' : Daemon) : Prop :=
  ∃ c res, ok d c ∧ call codec ino d c = some (res, d')

theorem covered_start (files : Files) : Covered ino (start files (some .new)) .new :=
  ⟨rfl, fun _ _ h => absurd h (by simp [start]), fun _ _ h => absurd h.registered (by simp [start]),
    fun _ _ h => absurd h.registered (by simp [start])⟩

/-- A call that keeps the marks keeps the invariant. -/
theorem covered_step {d' : Daemon} (h : ∃ backend, Covered ino d backend)
    (hstep : RegistryStep codec ino KeepsMarks d d') : ∃ backend', Covered ino d' backend' := by
  obtain ⟨backend, hcovered⟩ := h
  obtain ⟨c, res, hkeep, hcall⟩ := hstep
  cases c with
  | register => exact covered_register hcovered hcall
  | unregister =>
    obtain ⟨-, rfl⟩ := Prod.mk.inj (Option.some.inj hcall)
    exact covered_unregister hcovered hkeep

/-- The invariant holds in every run. -/
theorem covered_run {files : Files}
    (h : Relation.ReflTransGen (RegistryStep codec ino KeepsMarks) (start files (some .new)) d) :
    ∃ backend, Covered ino d backend := by
  induction h with
  | refl => exact ⟨.new, covered_start files⟩
  | tail _ hstep ih => exact covered_step ih hstep

/-- **Marks cover the registry.** In every run of complete calls from an empty registry, in which
no instance is unregistered whose unmarking takes the mark from another one, every registered
instance with the fanotify trigger has a mark on its target and is found through its file. The
condition is exact: from a state that such a run reaches, any other call leaves an instance without
a mark or not found. -/
theorem marks_cover {files : Files}
    (h : Relation.ReflTransGen (RegistryStep codec ino KeepsMarks) (start files (some .new)) d) :
    MarksCover d ∧ ∀ instanceId faults, MarksCover (unregister ino d instanceId faults).2 ↔
      KeepsMarks d (.unregister instanceId faults) := by
  obtain ⟨backend, hcovered⟩ := covered_run h
  refine ⟨hcovered.marksCover, fun instanceId faults =>
    ⟨keepsMarks_of_marksCover hcovered, fun hkeep => ?_⟩⟩
  obtain ⟨backend', hcovered'⟩ := covered_unregister hcovered hkeep
  exact hcovered'.marksCover

/-! ### Two instances on one file -/

theorem smallConfig_path : '\x00' ∉ smallConfig.targetPath.toList := by
  decide

/-- The daemon after `smallConfig` has been registered. -/
def smallDaemon (instanceId : String) (live : Live) (f : File) : Daemon where
  files := smallFiles.put ⟨1, 2⟩ (some f)
  instances := Function.update (fun _ => none) instanceId (some live)
  fanotify := some (FanotifyBackend.new.insert ⟨1, 1⟩ instanceId)

/-- The first registration of `smallConfig`. -/
theorem register_small_first (instanceId : String) : ∃ (live : Live) (f : File) (buf : List UInt8),
    register headerJson smallIno (start smallFiles (some .new)) instanceId smallConfig {} =
      some (.ok (), smallDaemon instanceId live f) ∧
    live.inst.config = smallConfigOf newBlob instanceId ∧ live.inst.target = ⟨1, 1⟩ ∧
    encodeHeader headerJson (expectedHeader newBlob 1048576 1) = .ok buf ∧
    f.len = headerSize + 1 ∧ headerBytes f = buf ∧ ∀ k < 1, f.byte (headerSize + k) = 0 := by
  obtain ⟨buf, hbuf⟩ := exists_encodeHeader (encodeHeader_small newBlob (by decide))
  have hlength := length_encodeHeader hbuf
  obtain ⟨live, hcache, hlive⟩ := openCache_new (smallIno_geometry instanceId
    (rfl : newBlob.size = 3)) hbuf rfl (smallFiles_get instanceId newBlob)
  refine ⟨live, resetFile newFile 1 buf headerSize 1, buf, ?_, hlive.config_eq, hlive.target_eq,
    hbuf, resetFile_len newFile hlength le_rfl, headerBytes_resetFile_all newFile hlength,
    fun k hk => ?_⟩
  · have hregister : register headerJson smallIno (start smallFiles (some .new)) instanceId
        smallConfig {} = some (.ok (), _) :=
      register_opened rfl rfl hcache rfl (markTarget_ok rfl rfl smallConfig_path)
    rw [hregister, smallConfigOf, smallIno_bitmapPath]
    rfl
  · rw [resetFile_slot newFile hlength hk, if_pos hk]

/-- The registration of `smallConfig` under another id. -/
theorem register_small_again {a b : String} (live : Live) {f : File} {buf : List UInt8}
    (hne : b ≠ a) (hbuf : encodeHeader headerJson (expectedHeader newBlob 1048576 1) = .ok buf)
    (hlen : f.len = headerSize + 1) (hheader : headerBytes f = buf)
    (hclear : ∀ k < 1, f.byte (headerSize + k) = 0) :
    ∃ d live', register headerJson smallIno (smallDaemon a live f) b smallConfig {} =
        some (.ok (), d) ∧
      d.instances = Function.update (Function.update (fun _ => none) a (some live)) b (some live') ∧
      d.fanotify = some ((FanotifyBackend.new.insert ⟨1, 1⟩ a).insert ⟨1, 1⟩ b) ∧
      live'.inst.config = smallConfigOf newBlob b ∧ live'.inst.target = ⟨1, 1⟩ := by
  have hget : (smallDaemon a live f).files.get
      (smallIno (bitmapPath (smallConfigOf newBlob b).targetPath)) = some f := by
    rw [smallConfigOf, smallIno_bitmapPath]
    rfl
  have htarget : (smallDaemon a live f).files.present
      (smallIno (smallConfigOf newBlob b).targetPath) = true := rfl
  obtain ⟨live', hcache, hlive⟩ := openCache_written (smallIno_geometry b
    (rfl : newBlob.size = 3)) hbuf htarget hget hlen hheader hclear
  have hfree : (smallDaemon a live f).instances b = none := by
    simp only [smallDaemon]
    exact Function.update_of_ne hne _ _
  have hregister : register headerJson smallIno (smallDaemon a live f) b smallConfig {} =
      some (.ok (), _) :=
    register_opened rfl hfree hcache rfl (markTarget_ok rfl rfl smallConfig_path)
  exact ⟨_, live', hregister, rfl, rfl, hlive.config_eq, hlive.target_eq⟩

/-- `smallConfig` is registered under two ids. -/
theorem register_small_twice : ∃ (d₁ d₂ : Daemon) (a b : Live),
    register headerJson smallIno (start smallFiles (some .new)) "a" smallConfig {} =
      some (.ok (), d₁) ∧
    register headerJson smallIno d₁ "b" smallConfig {} = some (.ok (), d₂) ∧
    d₂.Monitored "a" a ∧ d₂.Monitored "b" b ∧ b.inst.target = a.inst.target ∧
    d₂.fanotify = some ((FanotifyBackend.new.insert ⟨1, 1⟩ "a").insert ⟨1, 1⟩ "b") ∧
    a.inst.config = smallConfigOf newBlob "a" ∧ a.inst.target = ⟨1, 1⟩ := by
  obtain ⟨a, f, buf, hfirst, hconfig, htarget, hbuf, hlen, hheader, hclear⟩ :=
    register_small_first "a"
  obtain ⟨d, b, hagain, hinstances, hfanotify, hconfig', htarget'⟩ :=
    register_small_again a (by decide : "b" ≠ "a") hbuf hlen hheader hclear
  refine ⟨_, d, a, b, hfirst, hagain, ⟨?_, ?_⟩, ⟨?_, ?_⟩, htarget'.trans htarget.symm, hfanotify,
    hconfig, htarget⟩
  · rw [hinstances, Function.update_of_ne (by decide), Function.update_self]
  · rw [hconfig]
    rfl
  · rw [hinstances, Function.update_self]
  · rw [hconfig']
    rfl

/-- Two instances with one target are registered, and one of them is unregistered: the other one is
left without a mark. -/
theorem shared_target_unmarked : ∃ d₁ d₂ : Daemon,
    register headerJson smallIno (start smallFiles (some .new)) "a" smallConfig {} =
      some (.ok (), d₁) ∧
    register headerJson smallIno d₁ "b" smallConfig {} = some (.ok (), d₂) ∧
    ¬MarksCover (unregister smallIno d₂ "a" {}).2 := by
  obtain ⟨d₁, d₂, a, b, hfirst, hagain, ha, hb, htarget, -, hconfig, -⟩ := register_small_twice
  obtain ⟨_, hcovered₁⟩ := covered_register (covered_start smallFiles) hfirst
  obtain ⟨_, hcovered₂⟩ := covered_register hcovered₁ hagain
  refine ⟨d₁, d₂, hfirst, hagain, fun hafter => ?_⟩
  have hkeep := keepsMarks_of_marksCover hcovered₂ hafter
  have hfails := (hkeep a ha "b" b hb (by decide) htarget).1
  rw [hconfig] at hfails
  rcases hfails with h | h | h
  · exact h rfl
  · exact smallConfig_path h
  · exact h rfl

/-- If the unmarking fails, the mark stays with the instance that was registered last. -/
theorem marks_cover_small : ∃ d d' : Daemon,
    Relation.ReflTransGen (RegistryStep headerJson smallIno KeepsMarks)
      (start smallFiles (some .new)) d ∧
    d' = (unregister smallIno d "a" { syscall := some "EIO" }).2 ∧ MarksCover d' ∧
    ¬MarksCover (unregister smallIno d "a" {}).2 := by
  obtain ⟨d₁, d₂, a, b, hfirst, hagain, ha, hb, htarget, hfanotify, hconfig, hkey⟩ :=
    register_small_twice
  have hrun : Relation.ReflTransGen (RegistryStep headerJson smallIno KeepsMarks)
      (start smallFiles (some .new)) d₂ :=
    (Relation.ReflTransGen.single ⟨.register "a" smallConfig {}, _, trivial, hfirst⟩).tail
      ⟨.register "b" smallConfig {}, _, trivial, hagain⟩
  have hiff := (marks_cover hrun).2
  refine ⟨d₂, _, hrun, rfl, (hiff _ _).mpr ?_, fun hafter => ?_⟩
  · intro live hlive other live' hother hne htarget'
    refine ⟨Or.inr (Or.inr (by simp)), fun backend hbackend => ?_⟩
    obtain rfl := Option.some.inj (hfanotify.symm.trans hbackend)
    obtain rfl := Option.some.inj (ha.registered.symm.trans hlive.registered)
    have hmap : ((FanotifyBackend.new.insert ⟨1, 1⟩ "a").insert ⟨1, 1⟩ "b").marks ⟨1, 1⟩ =
        some "b" := by
      simp only [FanotifyBackend.insert, Function.update_self]
    rw [hkey, hmap]
    decide
  · have hfails := ((hiff _ _).mp hafter a ha "b" b hb (by decide) htarget).1
    rw [hconfig] at hfails
    rcases hfails with h | h | h
    · exact h rfl
    · exact smallConfig_path h
    · exact h rfl

end Daemon

end Lazyd
