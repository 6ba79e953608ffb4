import Lazyd.Registry.Concurrent

/-!
# Complete calls as runs of steps

`Daemon.register` and `Daemon.unregister` are the calls as a whole. Each of them is one of the runs
of the step system: the one in which the call makes all its steps and the others stand still.

## Main definitions

* `Daemon.AnyStep` : a step of any of the calls, with no condition.
* `Daemon.twoIno`, `Daemon.twoFiles`, `Daemon.layerAt` : a small daemon for examples.

## Main results

* `Daemon.register_steps`, `Daemon.unregister_steps`.

Source: `src/instance.rs`, lines 124–169; `src/fanotify.rs`, lines 106–155.
-/

namespace Lazyd

namespace Daemon

variable {codec : HeaderCodec} {ino : String → FileKey} {τ : Type*} [DecidableEq τ]

variable {f : τ → CallState} {t : τ} {d d' : Daemon} {instanceId : String} {config : InstanceConfig}
  {arcs : Arcs}

/-- The calls, one step after the other, with no condition. -/
abbrev AnyStep (codec : HeaderCodec) (ino : String → FileKey) :
    CallConfig τ → CallConfig τ → Prop :=
  CallStep codec ino fun _ _ _ => True

theorem anySteps {ok : CallConfig τ → τ → Event → Prop} {c c' : CallConfig τ}
    (h : Relation.ReflTransGen (CallStep codec ino ok) c c') :
    Relation.ReflTransGen (AnyStep codec ino) c c' := by
  refine Relation.ReflTransGen.mono ?_ _ _ h
  rintro c c' ⟨t, e, -, hfire⟩
  exact ⟨t, e, trivial, hfire⟩

/-- The state behind the part of `register` that marks the target. -/
def afterMarking (f : τ → CallState) (t : τ) (instanceId : String) (live : Live) (d : Daemon)
    (arcs : Arcs) : Except Error Unit → CallConfig τ
  | .error err => ⟨⟨d, false, arcs⟩, Function.update f t (.returned (.error err))⟩
  | .ok () => ⟨⟨d, true, arcs⟩, Function.update f t (.inserting instanceId live)⟩

/-- `FanotifyBackend::mark` in `register`, step by step. -/
theorem mark_run {live : Live} {backend backend' : FanotifyBackend} {faults : MarkFaults}
    {res : Except Error Unit} (hbackend : d.fanotify = some backend)
    (h : backend.mark instanceId live.inst.config.targetPath (ino live.inst.config.targetPath)
      faults = (res, backend')) :
    Relation.ReflTransGen (AnyStep codec ino)
      ⟨⟨d, true, arcs⟩, Function.update f t (.marking instanceId live)⟩
      (afterMarking f t instanceId live { d with fanotify := some backend' } arcs res) := by
  obtain ⟨files, instances, fanotify⟩ := d
  subst hbackend
  unfold FanotifyBackend.mark at h
  split at h
  · rename_i err hpath
    obtain ⟨rfl, rfl⟩ := Prod.mk.inj h
    refine .single (CallStep.next (e := .mark none) ?_ trivial)
    simp only [step, fanotifyMark, hpath]
    rfl
  · rename_i hpath
    split at h
    · rename_i msg hsyscall
      obtain ⟨rfl, rfl⟩ := Prod.mk.inj h
      refine .single (CallStep.next (e := .mark (some msg)) ?_ trivial)
      simp only [step, fanotifyMark, hpath]
      rfl
    · have hmark : step codec ino ⟨⟨files, instances, some backend⟩, true, arcs⟩
          (.marking instanceId live) (.mark none) = some (⟨⟨files, instances,
            some (markKernel (ino live.inst.config.targetPath) true backend)⟩, true, arcs⟩,
              .statting instanceId live) := by
        simp only [step, fanotifyMark, hpath]
        rfl
      have hmarked : Relation.ReflTransGen (AnyStep codec ino) _ _ :=
        .single (CallStep.next (f := f) (t := t) hmark trivial)
      dsimp only at h
      split at h
      · rename_i err hmetadata
        obtain ⟨rfl, rfl⟩ := Prod.mk.inj h
        exact hmarked.tail (CallStep.next (e := .stat (some err)) rfl trivial)
      · obtain ⟨rfl, rfl⟩ := Prod.mk.inj h
        exact (hmarked.tail (CallStep.next (e := .stat none) rfl trivial)).tail
          (CallStep.next (e := .table) rfl trivial)

/-- The part of `register` that marks the target, step by step. -/
theorem markTarget_run {live : Live} {faults : MarkFaults} {res : Except Error Unit}
    (hconfig : live.inst.config = config)
    (h : markTarget ino d instanceId config faults = (res, d')) :
    Relation.ReflTransGen (AnyStep codec ino)
      ⟨⟨d, true, arcs⟩, Function.update f t (afterOpening d instanceId live)⟩
      (afterMarking f t instanceId live d' arcs res) := by
  subst hconfig
  unfold markTarget at h
  split at h
  · rename_i backend hmode hbackend
    have hafter : afterOpening d instanceId live = .marking instanceId live := by
      simp only [afterOpening, hmode, hbackend]
    obtain ⟨rfl, rfl⟩ := Prod.mk.inj h
    rw [hafter]
    exact mark_run (f := f) (t := t) hbackend rfl
  · rename_i hother
    obtain ⟨rfl, rfl⟩ := Prod.mk.inj h
    have hafter : afterOpening d instanceId live = .inserting instanceId live := by
      rw [afterOpening]
      split
      · rename_i hmode hbackend
        exact absurd hbackend (hother _ hmode)
      · rfl
    rw [hafter]
    rfl

/-- **The complete call of `register`** is what the steps of the call amount to while all other
calls stand still. -/
theorem register_steps {answers : RegisterAnswers} {res : Except Error Unit}
    (h : register codec ino d instanceId config answers = some (res, d')) :
    ∃ arcs', Relation.ReflTransGen (AnyStep codec ino) ⟨⟨d, false, arcs⟩, Function.update f t .idle⟩
      ⟨⟨d', false, arcs'⟩, Function.update f t (.returned res)⟩ := by
  have hcall : AnyStep codec ino ⟨⟨d, false, arcs⟩, Function.update f t .idle⟩
      ⟨⟨d, false, arcs⟩, Function.update f t (enterCall (.register instanceId config))⟩ :=
    CallStep.next (e := .call (.register instanceId config)) rfl trivial
  unfold register at h
  split at h
  · rename_i err hvalid
    obtain ⟨rfl, rfl⟩ := Prod.mk.inj (Option.some.inj h)
    rw [enterCall, hvalid] at hcall
    exact ⟨arcs, .single hcall⟩
  · rename_i hvalid
    rw [enterCall, hvalid] at hcall
    dsimp only at h
    split at h
    · rename_i existing hexisting
      refine ⟨arcs, .head hcall (.single (CallStep.next (e := .lock) ?_ trivial))⟩
      simp only [step, hexisting, Bool.false_eq_true, if_false]
      split_ifs at h ⊢ with hsame
      · obtain ⟨rfl, rfl⟩ := Prod.mk.inj (Option.some.inj h)
        rfl
      · obtain ⟨rfl, rfl⟩ := Prod.mk.inj (Option.some.inj h)
        rfl
    · rename_i hfree
      have hlock : step codec ino ⟨d, false, arcs⟩
          (.called (.register instanceId { config with instanceId })) .lock =
            some (⟨d, true, arcs⟩, .opening instanceId { config with instanceId }) := by
        simp only [step, hfree]
        rfl
      have hlocked := (Relation.ReflTransGen.single hcall).tail
        (CallStep.next (f := f) (t := t) hlock trivial)
      split at h
      · exact absurd h (by simp)
      · rename_i hopen
        obtain ⟨rfl, rfl⟩ := Prod.mk.inj (Option.some.inj h)
        refine ⟨arcs, hlocked.tail
          (CallStep.next (e := .open answers.opening answers.remote) ?_ trivial)⟩
        simp only [step, hopen]
        rfl
      · rename_i live files hopen
        have hopened : step codec ino ⟨d, true, arcs⟩
            (.opening instanceId { config with instanceId })
            (.open answers.opening answers.remote) =
              some (⟨{ d with files }, true, arcs⟩,
                afterOpening { d with files } instanceId live) := by
          simp only [step, hopen]
          rfl
        have hmarking := hlocked.tail (CallStep.next (f := f) (t := t) hopened trivial)
        have hconfig := (openInstance_target hopen).1
        split at h
        · rename_i hmark
          obtain ⟨rfl, rfl⟩ := Prod.mk.inj (Option.some.inj h)
          exact ⟨arcs, hmarking.trans (markTarget_run (f := f) (t := t) hconfig hmark)⟩
        · rename_i hmark
          obtain ⟨rfl, rfl⟩ := Prod.mk.inj (Option.some.inj h)
          exact ⟨arcs.add instanceId live,
            (hmarking.trans (markTarget_run (f := f) (t := t) hconfig hmark)).tail
              (CallStep.next (e := .insert) rfl trivial)⟩

/-- `FanotifyBackend::unmark` in `unregister`, step by step. -/
theorem unmark_run {live : Live} {backend backend' : FanotifyBackend} {faults : MarkFaults}
    {res : Except Error Unit} (hbackend : d.fanotify = some backend)
    (h : backend.unmark live.inst.config.targetPath (ino live.inst.config.targetPath) faults =
      (res, backend')) :
    Relation.ReflTransGen (AnyStep codec ino)
      ⟨⟨d, false, arcs⟩, Function.update f t (.unstatting live)⟩
      ⟨⟨{ d with fanotify := some backend' }, false, arcs⟩,
        Function.update f t (.returned res)⟩ := by
  obtain ⟨files, instances, fanotify⟩ := d
  subst hbackend
  unfold FanotifyBackend.unmark at h
  split at h
  · rename_i err hmetadata
    obtain ⟨rfl, rfl⟩ := Prod.mk.inj h
    exact .single (CallStep.next (e := .stat (some err)) rfl trivial)
  · refine .head (CallStep.next (e := .stat none) rfl trivial) ?_
    split at h
    · rename_i err hpath
      obtain ⟨rfl, rfl⟩ := Prod.mk.inj h
      refine .single (CallStep.next (e := .mark none) ?_ trivial)
      simp only [step, fanotifyMark, hpath]
    · rename_i hpath
      split at h
      · rename_i msg hsyscall
        obtain ⟨rfl, rfl⟩ := Prod.mk.inj h
        refine .single (CallStep.next (e := .mark (some msg)) ?_ trivial)
        simp only [step, fanotifyMark, hpath]
      · obtain ⟨rfl, rfl⟩ := Prod.mk.inj h
        have hmark : step codec ino ⟨⟨files, instances, some backend⟩, false, arcs⟩
            (.unmarking live) (.mark none) = some (⟨⟨files, instances,
              some (markKernel (ino live.inst.config.targetPath) false backend)⟩, false, arcs⟩,
                .untabling live) := by
          simp only [step, fanotifyMark, hpath]
          rfl
        exact .head (CallStep.next hmark trivial)
          (.single (CallStep.next (e := .table) rfl trivial))

/-- **The complete call of `unregister`** is what the steps of the call amount to while all other
calls stand still. -/
theorem unregister_steps (faults : MarkFaults) :
    Relation.ReflTransGen (AnyStep codec ino) ⟨⟨d, false, arcs⟩, Function.update f t .idle⟩
      ⟨⟨(unregister ino d instanceId faults).2, false, arcs⟩,
        Function.update f t (.returned (unregister ino d instanceId faults).1)⟩ := by
  refine .head (CallStep.next (e := .call (.unregister instanceId)) rfl trivial) ?_
  cases hlive : d.instances instanceId with
  | none =>
    rw [unregister, hlive]
    refine .single (CallStep.next (e := .remove) ?_ trivial)
    simp only [enterCall, step, hlive]
    rfl
  | some live =>
    rw [unregister, hlive]
    dsimp only
    have hremove : step codec ino ⟨d, false, arcs⟩ (.called (.unregister instanceId)) .remove =
        some (⟨{ d with instances := Function.update d.instances instanceId none }, false, arcs⟩,
          afterRemoving d live) := by
      simp only [step, hlive]
      rfl
    refine .head (CallStep.next hremove trivial) ?_
    unfold unmarkTarget
    split
    · rename_i backend hmode hbackend
      have hsome : d.fanotify = some backend := hbackend
      have hafter : afterRemoving d live = .unstatting live := by
        simp only [afterRemoving, hmode, hsome]
      rw [hafter]
      exact unmark_run (f := f) (t := t) hbackend rfl
    · rename_i hother
      have hafter : afterRemoving d live = .returned (.ok ()) := by
        rw [afterRemoving]
        split
        · rename_i hmode hbackend
          exact absurd hbackend (hother _ hmode)
        · rfl
      rw [hafter]

/-! ### A small daemon with two targets -/

/-- Two targets and their bitmaps. -/
def twoIno (path : String) : FileKey :=
  if path = "/cache/layer" then ⟨1, 1⟩
  else if path = "/cache/layer.bitmap" then ⟨1, 2⟩
  else if path = "/cache/other" then ⟨1, 3⟩
  else ⟨1, 4⟩

/-- The two targets are there. -/
def twoFiles : Files where
  disk _ := newFile.setLen 3
  present key := key = ⟨1, 1⟩ || key = ⟨1, 3⟩

/-- `smallConfig` on a path. -/
def layerAt (path : String) : InstanceConfig := { smallConfig with targetPath := path }

/-- `smallConfig` is opened on a path for the first time. -/
theorem layerAt_open (files : Files) (path : String) (htarget : files.present (twoIno path) = true)
    (hbitmap : files.present (twoIno (bitmapPath path)) = false) :
    ∃ live f, openInstance headerJson twoIno (layerAt path) {} (.ok ()) files =
        some (.ok live, files.put (twoIno (bitmapPath path)) (some f)) ∧
      live.inst.config = layerAt path ∧ live.inst.target = twoIno path ∧ FreshBitmap f := by
  have hget : files.get (twoIno (bitmapPath (layerAt path).targetPath)) = none := by
    rw [layerAt, Files.get, if_neg (by simp [hbitmap])]
  exact openInstance_newBlob rfl rfl htarget hget

/-- `smallConfig` is opened on a path again. -/
theorem layerAt_reopen (files : Files) (path : String) {f : File}
    (htarget : files.present (twoIno path) = true)
    (hbitmap : files.get (twoIno (bitmapPath path)) = some f) (hf : FreshBitmap f) :
    ∃ live, openInstance headerJson twoIno (layerAt path) {} (.ok ()) files =
        some (.ok live, files.put (twoIno (bitmapPath path)) (some f)) ∧
      live.inst.config = layerAt path ∧ live.inst.target = twoIno path :=
  have hget : files.get (twoIno (bitmapPath (layerAt path).targetPath)) = some f := hbitmap
  openInstance_freshBitmap rfl rfl htarget hget hf

/-- `smallConfig` is registered on a path, up to the insertion. -/
theorem layerAt_run {ok : CallConfig ℕ → ℕ → Event → Prop} {f : ℕ → CallState} {t : ℕ}
    {files files' : Files} {instances : String → Option Live} {backend : FanotifyBackend}
    {live : Live} {arcs : Arcs} (path : String)
    (hok : ∀ s l e, l.removing = false →
      e ∈ [.call (.register "layer" (layerAt path)), .lock, .open {} (.ok ()), .mark none,
        .stat none, .table] → ok ⟨s, Function.update f t l⟩ t e)
    (hvalid : path ≠ "" ∧ '\x00' ∉ path.toList) (hfree : instances "layer" = none)
    (hopen : openInstance headerJson twoIno (layerAt path) {} (.ok ()) files =
      some (.ok live, files')) :
    Relation.ReflTransGen (CallStep headerJson twoIno ok)
      ⟨⟨⟨files, instances, some backend⟩, false, arcs⟩, Function.update f t .idle⟩
      ⟨⟨⟨files', instances, some (backend.insert (twoIno path) "layer")⟩, true, arcs⟩,
        Function.update f t (.inserting "layer" live)⟩ := by
  have hsize : (layerAt path).blob.size ≠ 0 := (by decide : smallConfig.blob.size ≠ 0)
  have hconfig : validateConfig (layerAt path) = .ok () :=
    (if_neg hvalid.1).trans ((if_neg hsize).trans
      (rfl : validateFetchUnitBytes smallConfig.fetch.unitBytes.toNat = .ok ()))
  exact register_run hok hconfig hfree hopen rfl hvalid.2

end Daemon

end Lazyd
