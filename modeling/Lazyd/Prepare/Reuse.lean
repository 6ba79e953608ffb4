import Lazyd.Prepare.Cached
import Lazyd.Registry.OnError

/-!
# Preparing an image whose layers are in the cache

A second image shares all its layers with one that has been prepared, and the instances of the
layers may have been used since. Its preparation finds every file as it has to be, so that it
changes none. The instances are registered already; they are taken over if they have the
configuration of the second request, and that has in it the image reference, the directory of the
hosts files and the credentials.

## Main definitions

* `Daemon.BetweenStep` : what happens between the two preparations.
* `Daemon.ImageAnswers.IsClean` : the environment fails nowhere.
* `Daemon.SharesLayers`, `Daemon.SameSource` : how the two requests are related.
* `Daemon.Reused`, `Daemon.Reuses` : what the second preparation has to do.

## Main results

* `Daemon.between_cached` : the entries and the instances after what happens in between.
* `Daemon.prepareImage_again` : the second preparation.
* `Daemon.prepare_reuses_iff` : when it reuses the instances.

Source: `src/control.rs`, lines 136–164; `src/prepare.rs`, lines 92–161; `src/instance.rs`, lines
128–158.
-/

namespace Lazyd

/-! ### An environment that does not fail -/

/-- An answer to a recovery without an error. -/
def Instance.RecoveryEvent.IsClean : Instance.RecoveryEvent → Prop
  | .probe dataFault holeFault => dataFault = none ∧ holeFault = none
  | .marked res => ∃ n, res = .ok n
  | .fill => True

structure OpenAnswers.IsClean (answers : OpenAnswers) : Prop where
  target : answers.target = none
  bitmap : answers.bitmap = {}
  recovery : ∀ e ∈ answers.recovery, e.IsClean

structure Prepare.LayerAnswers.IsClean (answers : Prepare.LayerAnswers) : Prop where
  createDir : answers.createDir = none
  sparse : answers.sparse = {}
  opening : answers.opening.IsClean

/-- No error of the file system, and a valid image reference. -/
structure Daemon.RegisterAnswers.IsClean (answers : Daemon.RegisterAnswers) : Prop where
  opening : answers.opening.IsClean
  remote : answers.remote = .ok ()
  mark : answers.mark = {}

structure Daemon.ImageAnswers.IsClean (answers : Daemon.ImageAnswers) : Prop where
  layers : ∀ a ∈ answers.layers, a.IsClean
  registers : ∀ a ∈ answers.registers, a.IsClean

theorem Instance.RecoveryEvent.IsClean.unfaulted {e : Instance.RecoveryEvent} (h : e.IsClean) :
    Instance.Unfaulted e := by
  cases e with
  | probe => exact h
  | marked | fill => trivial

theorem Prepare.LayerAnswers.isClean_headD {answers : List Prepare.LayerAnswers}
    (h : ∀ a ∈ answers, a.IsClean) : (answers.headD {}).IsClean := by
  cases answers with
  | nil => exact ⟨rfl, rfl, rfl, rfl, fun e he => absurd he List.not_mem_nil⟩
  | cons a answers => exact h a List.mem_cons_self

namespace Prepare

variable {codec : HeaderCodec} {ino : String → FileKey} {cacheRoot : String}
  {request : PrepareImageRequest} {layer : PrepareLayerDescriptor} {inst : Instance} {len : ℕ}
  {files files' : Files}

/-! ### A layer that is in the cache -/

/-- An entry is that of every instance which is open on its files. -/
theorem Cached.of_same (h : Cached codec ino cacheRoot request layer inst len files)
    {inst' : Instance} (htarget : inst'.target = inst.target)
    (hmap : inst'.rangeMap = inst.rangeMap) :
    Cached codec ino cacheRoot request layer inst' len files := by
  have hunit : inst'.unitBytes = inst.unitBytes := by
    rw [← Instance.rangeMap_unitBytes, hmap, Instance.rangeMap_unitBytes]
  have hsize : inst'.blobSize = inst.blobSize := by
    rw [← Instance.rangeMap_blobSize, hmap, Instance.rangeMap_blobSize]
  have hon := h.on
  have hkept := h.kept
  refine ⟨h.size, ⟨?_, ?_, ?_, ?_, ?_, hon.pmemSize_le, ?_, hon.len_lt⟩, ⟨?_, ?_, ?_, rfl, ?_, ?_⟩⟩
  · rw [htarget, hon.target_eq]
  · rw [hmap, hon.file_eq]
  · rw [htarget, hmap]
    exact hon.target_ne
  · rw [hmap]
    exact hon.geometry
  · rw [hmap]
    exact hon.header
  · rw [hsize]
    exact hon.blobSize_le
  · rw [htarget]
    exact hkept.target_present
  · rw [hmap]
    exact hkept.bitmap_present
  · rw [htarget]
    exact hkept.target_len
  · rw [hmap]
    exact hkept.bitmap_len
  · intro k hk hbyte
    rw [hmap] at hk hbyte
    have hdata := hkept.allocated k hk hbyte
    rw [Instance.SlotAllocated] at hdata ⊢
    rwa [htarget, hunit, hsize]

/-- The ready slots of an entry are there. -/
theorem Cached.slotPresent (h : Cached codec ino cacheRoot request layer inst len files) {k : ℕ}
    (hk : k < inst.rangeMap.slotCount)
    (hbyte : (files.disk inst.rangeMap.file).byte (headerSize + k) ≠ 0) :
    inst.SlotPresent (files.disk inst.target) k := by
  obtain ⟨offset, n, hrange⟩ : ∃ offset n, inst.rangeMap.slotRange k = .ok (offset, n) :=
    ⟨_, _, RangeMap.slotRange_ok hk⟩
  obtain ⟨-, hoffset, hend⟩ := Instance.slotRange_bounds hrange
  refine ⟨offset, n, hrange, ?_, ?_⟩
  · rw [hend, h.kept.target_len]
    exact (min_le_right _ _).trans h.on.blobSize_le
  · rw [hend, hoffset]
    exact h.kept.allocated k hk hbyte

/-- The slots of an entry. -/
def entrySlots (inst : Instance) (files : Files) : List UInt8 :=
  (List.range inst.rangeMap.slotCount).map fun k =>
    (files.disk inst.rangeMap.file).byte (headerSize + k)

theorem Cached.present_of_ready (h : Cached codec ino cacheRoot request layer inst len files) :
    ∀ k ∈ Instance.readySlots (entrySlots inst files),
      inst.SlotPresent (files.disk inst.target) k := by
  intro k hk
  have hready := Instance.mem_readySlots_iff.mp hk
  have hlt := lt_length_of_getD_ne hready
  rw [entrySlots, List.length_map, List.length_range] at hlt
  rw [entrySlots, readSlots_getD (readSlots_of_len_le h.kept.bitmap_len) hlt] at hready
  exact h.slotPresent hlt hready

section OpenEntry

variable {config : InstanceConfig} (h : Cached codec ino cacheRoot request layer inst len files)
  (hpath : config.targetPath = sparsePath cacheRoot (cacheKey layer.digest))
  (hblob : config.blob = layer.blob) (hunit : config.fetch.unitBytes = request.fetch.unitBytes)

include h hpath

theorem Cached.openTarget_entry : openTarget files (ino config.targetPath) none = .ok () := by
  refine openTarget_ok ?_
  rw [hpath, h.on.target_eq]
  exact h.kept.target_present

theorem Cached.get_bitmap : files.get (ino (bitmapPath config.targetPath)) =
    some (files.disk inst.rangeMap.file) := by
  rw [hpath, h.on.file_eq]
  exact files.get_eq_some.mpr ⟨h.kept.bitmap_present, rfl⟩

include hblob hunit

/-- The bitmap file of an entry is kept. -/
theorem Cached.openOrCreate_entry :
    openOrCreate codec (ino (bitmapPath config.targetPath)) config.blob config.fetch.unitBytes {}
      (files.get (ino (bitmapPath config.targetPath))) =
        (.ok ⟨inst.rangeMap, entrySlots inst files, true⟩,
          some (files.disk inst.rangeMap.file)) := by
  have hgeometry : RangeMap.geometry (ino (bitmapPath config.targetPath)) config.blob.size
      config.fetch.unitBytes = .ok inst.rangeMap := by
    rw [hpath, h.on.file_eq, hblob, hunit]
    exact h.on.geometry
  have hheader : readHeader codec (files.disk inst.rangeMap.file) = .ok (expectedHeader config.blob
      config.fetch.unitBytes inst.rangeMap.slotCount) := by
    rw [hblob, hunit]
    exact readHeader_eq_ok.mpr ⟨(Nat.le_add_right _ _).trans h.kept.bitmap_len, h.on.header⟩
  rw [h.get_bitmap hpath]
  exact openOrCreate_of_ok hgeometry hheader (readSlots_of_len_le h.kept.bitmap_len)

theorem Cached.opened_entry : Cached codec ino cacheRoot request layer
    (openedInstance config (ino config.targetPath) _ inst.rangeMap
      (openOrCreate_rangeMap (h.openOrCreate_entry hpath hblob hunit))) len files := by
  refine h.of_same ?_ rfl
  change ino config.targetPath = inst.target
  rw [hpath, h.on.target_eq]

theorem Cached.exists_openCache : ∃ answers : OpenAnswers, answers.IsClean ∧ ∃ live,
    openCache codec ino config answers files = some (.ok live, files) := by
  have hopened := h.opened_entry hpath hblob hunit
  have hput : files.put (ino (bitmapPath config.targetPath))
      (some (files.disk inst.rangeMap.file)) = files := files.put_of_get (h.get_bitmap hpath)
  let opened := openedInstance config (ino config.targetPath) _ inst.rangeMap
    (openOrCreate_rangeMap (h.openOrCreate_entry hpath hblob hunit))
  have hsolo : opened.recovery.solo
      ⟨(files.put (ino (bitmapPath config.targetPath)) (some (files.disk inst.rangeMap.file))).disk,
        entrySlots inst files, []⟩
      (Instance.startRecovery (entrySlots inst files))
      ((Instance.readySlots (entrySlots inst files)).map fun _ => .probe none none) =
        some (⟨files.disk, entrySlots inst files, []⟩, .recovered) := by
    rw [hput]
    exact Instance.recovery_present_ends (hopened.kept.target_len.trans_lt hopened.on.len_lt)
      hopened.present_of_ready
  have hcache : openCache codec ino config
      { recovery := (Instance.readySlots (entrySlots inst files)).map fun _ => .probe none none }
      files = some (.ok _, _) :=
    openCache_recovered (h.openTarget_entry hpath) (h.openOrCreate_entry hpath hblob hunit)
      rfl hsolo
  rw [hput] at hcache
  refine ⟨_, ⟨rfl, rfl, fun e he => ?_⟩, _, hcache⟩
  obtain ⟨-, -, rfl⟩ := List.mem_map.mp he
  exact ⟨rfl, rfl⟩

/-- The opening of an entry changes no file and does not fail. -/
theorem Cached.openCache_keeps {answers : OpenAnswers} {res : Except Error Live}
    (hclean : answers.IsClean)
    (hcache : openCache codec ino config answers files = some (res, files')) :
    files' = files ∧ ∃ live, res = .ok live := by
  have hopened := h.opened_entry hpath hblob hunit
  have htarget := h.openTarget_entry hpath
  have hopen := h.openOrCreate_entry hpath hblob hunit
  rw [← hclean.target] at htarget
  rw [← hclean.bitmap] at hopen
  obtain ⟨s, l, hsolo, rfl, hend⟩ := openCache_recovery htarget hopen rfl hcache
  rw [files.put_of_get (h.get_bitmap hpath)] at hsolo ⊢
  obtain ⟨rfl, hfailed⟩ := Instance.recovery_of_present
    (hopened.kept.target_len.trans_lt hopened.on.len_lt) hopened.present_of_ready
    (fun e he => (hclean.recovery e he).unfaulted) hsolo
  rcases hend with ⟨-, hlive⟩ | ⟨⟨err, hno⟩, -⟩
  · exact ⟨rfl, hlive⟩
  · exact absurd hno (hfailed err)

end OpenEntry

/-- The sparse file of an entry has its length. -/
theorem Cached.createSparseFile_entry
    (h : Cached codec ino cacheRoot request layer inst len files) :
    createSparseFile (sparsePath cacheRoot (cacheKey layer.digest)) len {}
      (files.get (ino (sparsePath cacheRoot (cacheKey layer.digest)))) =
        (.ok (), some (files.disk inst.target)) := by
  have hget : files.get (ino (sparsePath cacheRoot (cacheKey layer.digest))) =
      some (files.disk inst.target) := by
    rw [h.on.target_eq]
    exact files.get_eq_some.mpr ⟨h.kept.target_present, rfl⟩
  have hlen := h.kept.target_len
  have hlt : (files.disk inst.target).len < 2 ^ 63 := hlen.trans_lt h.on.len_lt
  rw [hget, ← hlen]
  exact createSparseFile_same hlt

theorem Cached.put_sparse (h : Cached codec ino cacheRoot request layer inst len files) :
    files.put (ino (sparsePath cacheRoot (cacheKey layer.digest))) (some (files.disk inst.target)) =
      files := by
  rw [h.on.target_eq]
  exact files.put_of_get (files.get_eq_some.mpr ⟨h.kept.target_present, rfl⟩)

/-- The preparation of a layer that is in the cache can end well. -/
theorem Cached.exists_prepareLayer (h : Cached codec ino cacheRoot request layer inst len files) :
    ∃ answers : LayerAnswers, answers.IsClean ∧
      prepareLayer codec ino cacheRoot request layer answers files =
        some (.ok (preparedLayer cacheRoot layer len), files) := by
  obtain ⟨answers, hclean, live, hcache⟩ : ∃ answers : OpenAnswers, answers.IsClean ∧ ∃ live,
      openCache codec ino (layerConfig cacheRoot request layer) answers files =
        some (.ok live, files) := h.exists_openCache rfl rfl rfl
  have hput := h.put_sparse
  have hentry : openCache codec ino (layerConfig cacheRoot request layer) answers
      (files.put (ino (sparsePath cacheRoot (cacheKey layer.digest)))
        (some (files.disk inst.target))) =
        some (.ok live, files) := by
    rw [hput]
    exact hcache
  exact ⟨{ opening := answers }, ⟨rfl, rfl, hclean⟩,
    prepareLayer_of_ok h.size rfl h.createSparseFile_entry hentry⟩

/-- The preparation of a layer that is in the cache changes no file and does not fail. -/
theorem Cached.prepareLayer_keeps (h : Cached codec ino cacheRoot request layer inst len files)
    {answers : LayerAnswers} {res : Except Error PreparedLayer} (hclean : answers.IsClean)
    (hprepare : prepareLayer codec ino cacheRoot request layer answers files = some (res, files')) :
    files' = files ∧ res = .ok (preparedLayer cacheRoot layer len) := by
  have hpath : (layerConfig cacheRoot request layer).targetPath =
      sparsePath cacheRoot (cacheKey layer.digest) := rfl
  simp only [prepareLayer, h.size, hclean.createDir, hclean.sparse, hpath, h.createSparseFile_entry,
    h.put_sparse] at hprepare
  split at hprepare
  · exact absurd hprepare (by simp)
  · rename_i hcache
    obtain ⟨-, live, hno⟩ := h.openCache_keeps rfl rfl rfl hclean.opening hcache
    exact absurd hno (by simp)
  · rename_i hcache
    obtain ⟨rfl, rfl⟩ := Prod.mk.inj (Option.some.inj hprepare)
    exact ⟨(h.openCache_keeps rfl rfl rfl hclean.opening hcache).1, rfl⟩

/-- The preparation of layers that are in the cache can end well. -/
theorem exists_prepareLayers {layers : List PrepareLayerDescriptor}
    (h : ∀ layer ∈ layers, ∃ inst len, Cached codec ino cacheRoot request layer inst len files) :
    ∃ answers : List LayerAnswers, (∀ a ∈ answers, a.IsClean) ∧ ∃ prepared,
      prepareLayers codec ino cacheRoot request layers answers files =
        some (.ok prepared, files) := by
  induction layers with
  | nil => exact ⟨[], fun a ha => absurd ha List.not_mem_nil, [], rfl⟩
  | cons layer layers ih =>
    obtain ⟨answers, hclean, prepared, hrest⟩ := ih fun l hl => h l (List.mem_cons_of_mem _ hl)
    obtain ⟨inst, len, hcached⟩ := h layer List.mem_cons_self
    obtain ⟨a, ha, hlayer⟩ := hcached.exists_prepareLayer
    refine ⟨a :: answers, ?_, preparedLayer cacheRoot layer len :: prepared, ?_⟩
    · intro b hb
      rcases List.mem_cons.mp hb with rfl | hmem
      · exact ha
      · exact hclean b hmem
    · simp only [prepareLayers, List.headD_cons, hlayer, List.tail_cons, hrest]

/-- **The preparation of layers that are in the cache** changes no file and does not fail. -/
theorem prepareLayers_keeps {layers : List PrepareLayerDescriptor} {answers : List LayerAnswers}
    {res : Except Error (List PreparedLayer)}
    (h : ∀ layer ∈ layers, ∃ inst len, Cached codec ino cacheRoot request layer inst len files)
    (hclean : ∀ a ∈ answers, a.IsClean)
    (hprepare : prepareLayers codec ino cacheRoot request layers answers files =
      some (res, files')) :
    files' = files ∧ ∃ prepared, res = .ok prepared := by
  induction layers generalizing answers res files' with
  | nil =>
    obtain ⟨rfl, rfl⟩ := Prod.mk.inj (Option.some.inj hprepare)
    exact ⟨rfl, [], rfl⟩
  | cons layer layers ih =>
    obtain ⟨inst, len, hcached⟩ := h layer List.mem_cons_self
    rw [prepareLayers] at hprepare
    split at hprepare
    · exact absurd hprepare (by simp)
    · rename_i hlayer
      have hno := (hcached.prepareLayer_keeps (LayerAnswers.isClean_headD hclean) hlayer).2
      exact absurd hno (by simp)
    · rename_i hlayer
      obtain ⟨rfl, -⟩ := hcached.prepareLayer_keeps (LayerAnswers.isClean_headD hclean) hlayer
      have hrest {res : Except Error (List PreparedLayer)} {files' : Files}
          (hlayers : prepareLayers codec ino cacheRoot request layers answers.tail _ =
            some (res, files')) : files' = _ ∧ ∃ prepared, res = .ok prepared :=
        ih (fun l hl => h l (List.mem_cons_of_mem _ hl))
          (fun a ha => hclean a (List.mem_of_mem_tail ha)) hlayers
      split at hprepare
      · exact absurd hprepare (by simp)
      · rename_i hlayers
        obtain ⟨-, prepared, hno⟩ := hrest hlayers
        exact absurd hno (by simp)
      · rename_i hlayers
        obtain ⟨rfl, rfl⟩ := Prod.mk.inj (Option.some.inj hprepare)
        exact ⟨(hrest hlayers).1, _, rfl⟩

/-! ### Between the preparations -/

theorem Cached.tasks_run {τ : Type*} [DecidableEq τ]
    {ok : Instance.TaskState → Instance.Event → Prop}
    {c₀ c : TaskSystem.Config Instance.Shared Instance.TaskState τ} {ls : List (τ × Instance.Event)}
    (h : Cached codec ino cacheRoot request layer inst len { files with disk := c₀.shared.disk })
    (hidle : ∀ t, c₀.task t = .idle) (hrun : inst.tasks.Run ok c₀ ls c) :
    Cached codec ino cacheRoot request layer inst len { files with disk := c.shared.disk } := by
  have hkept : Kept inst len (headerBytes (c₀.shared.disk inst.rangeMap.file))
      { files with disk := c.shared.disk } := by
    refine (hrun.rely (I := fun s => Kept inst len
        (headerBytes (c₀.shared.disk inst.rangeMap.file)) { files with disk := s.disk })
      (L := fun s l => inst.TaskShape l ∧ inst.TaskAllocated s.disk l)
      (R := fun s s' => inst.KeepsData s.disk s'.disk) h.kept (fun t => ?_)
      (fun s l e s' l' hI hL _ hstep => ?_) fun s s' l hR hL => ⟨hL.1, hL.2.mono hR⟩).1
    · rw [hidle t]
      exact ⟨trivial, trivial⟩
    · obtain ⟨hkept', hloses⟩ := kept_ensure h.on hI hL.1 hL.2 hstep
      exact ⟨hkept', ⟨Instance.taskShape_step hL.1 hstep,
        Instance.taskAllocated_step h.on.target_ne hL.1 hL.2 hstep⟩, hloses.keepsData⟩
  refine ⟨h.size, ?_, hkept.target_present, hkept.bitmap_present, hkept.target_len, rfl,
    hkept.bitmap_len, hkept.allocated⟩
  have hheader : headerBytes (c.shared.disk inst.rangeMap.file) =
      headerBytes (c₀.shared.disk inst.rangeMap.file) := hkept.header
  change OnCache _ _ _ _ _ _ _ (headerBytes (c.shared.disk inst.rangeMap.file))
  rw [hheader]
  exact h.on

end Prepare

namespace Daemon

open Prepare

variable {codec : HeaderCodec} {ino : String → FileKey} {cacheRoot : String}
  {request again : PrepareImageRequest} {layer : PrepareLayerDescriptor} {d d' : Daemon}

/-- What may happen between the preparations: calls on the instance of a layer, any number of them
at a time and with any answers; and whatever touches neither the entries of the layers nor their
instances. -/
inductive BetweenStep (ino : String → FileKey) (cacheRoot : String)
    (request : PrepareImageRequest) (d : Daemon) : Daemon → Prop
  | use {layer : PrepareLayerDescriptor} {live : Live}
      {c : TaskSystem.Config Instance.Shared Instance.TaskState ℕ} {ls : List (ℕ × Instance.Event)}
      (hlayer : layer ∈ request.layers)
      (hlive : d.instances (instanceId (cacheKey layer.digest)) = some live)
      (htarget : live.inst.target = ino (sparsePath cacheRoot (cacheKey layer.digest)))
      (hfile : live.inst.rangeMap.file =
        ino (bitmapPath (sparsePath cacheRoot (cacheKey layer.digest))))
      (hrun : live.inst.tasks.Run (fun _ _ => True)
        ⟨live.shared d.files.disk, fun _ => .idle⟩ ls c) :
      BetweenStep ino cacheRoot request d
        { d with
          files := { d.files with disk := c.shared.disk }
          instances := Function.update d.instances (instanceId (cacheKey layer.digest))
            (some ⟨live.inst, c.shared.slots, c.shared.inflight⟩) }
  | elsewhere {d' : Daemon}
      (hfiles : ∀ layer ∈ request.layers,
        d'.files.get (ino (sparsePath cacheRoot (cacheKey layer.digest))) =
          d.files.get (ino (sparsePath cacheRoot (cacheKey layer.digest))) ∧
        d'.files.get (ino (bitmapPath (sparsePath cacheRoot (cacheKey layer.digest)))) =
          d.files.get (ino (bitmapPath (sparsePath cacheRoot (cacheKey layer.digest)))))
      (hinstances : ∀ layer ∈ request.layers,
        d'.instances (instanceId (cacheKey layer.digest)) =
          d.instances (instanceId (cacheKey layer.digest))) :
      BetweenStep ino cacheRoot request d d'

/-- The instance of a layer is open on the entry. -/
theorem cached_of_registered {live : Live} {inst : Instance} {len : ℕ} {files : Files}
    (hcached : Cached codec ino cacheRoot request layer inst len files)
    (hsame : live.inst.config.same (imageConfig cacheRoot request layer) = true)
    (htarget : live.inst.target = ino (sparsePath cacheRoot (cacheKey layer.digest)))
    (hfile : live.inst.rangeMap.file =
      ino (bitmapPath (sparsePath cacheRoot (cacheKey layer.digest)))) :
    Cached codec ino cacheRoot request layer live.inst len files := by
  obtain ⟨hblob, hfetch⟩ := InstanceConfig.same_blob_fetch hsame
  refine hcached.of_same (htarget.trans hcached.on.target_eq) ?_
  have hgeometry := RangeMap.geometry_self live.inst.rangeMap live.inst.blobSize_eq
    live.inst.unitBytes_eq
  rw [hblob, hfetch, hfile, hcached.on.file_eq] at hgeometry
  exact Except.ok.inj (hgeometry.symm.trans hcached.on.geometry)

/-- **What happens in between keeps the entries and the instances.** -/
theorem between_cached (hapart : CacheApart ino cacheRoot)
    (h : ImageCached codec ino cacheRoot request d)
    (hstep : BetweenStep ino cacheRoot request d d') :
    ImageCached codec ino cacheRoot request d' := by
  cases hstep with
  | elsewhere hfiles hinstances =>
    refine ⟨h.unit, h.oneBlob, fun layer hlayer => ?_, fun layer hlayer => ?_⟩
    · obtain ⟨live, hlive, hsame⟩ := h.registered layer hlayer
      exact ⟨live, (hinstances layer hlayer).trans hlive, hsame⟩
    · obtain ⟨inst, len, hcached⟩ := h.cached layer hlayer
      obtain ⟨htarget, hfile⟩ := hfiles layer hlayer
      rw [hcached.on.target_eq] at htarget
      rw [hcached.on.file_eq] at hfile
      exact ⟨inst, len, hcached.frame htarget hfile⟩
  | @use used live c ls hused hlive htarget hfile hrun =>
    refine ⟨h.unit, h.oneBlob, fun layer hlayer => ?_, fun layer hlayer => ?_⟩
    · obtain ⟨live', hlive', hsame⟩ := h.registered layer hlayer
      by_cases hid : instanceId (cacheKey layer.digest) = instanceId (cacheKey used.digest)
      · rw [hid] at hlive'
        obtain rfl := Option.some.inj (hlive.symm.trans hlive')
        refine ⟨⟨live.inst, c.shared.slots, c.shared.inflight⟩, ?_, hsame⟩
        rw [hid]
        exact Function.update_self _ _ _
      · exact ⟨live', (Function.update_of_ne hid _ _).trans hlive', hsame⟩
    · obtain ⟨inst, len, hcached⟩ := h.cached layer hlayer
      by_cases hkey : cacheKey layer.digest = cacheKey used.digest
      · have hblob := h.oneBlob layer hlayer used hused hkey.symm
        obtain ⟨live', hlive', hsame⟩ := h.registered used hused
        obtain rfl := Option.some.inj (hlive.symm.trans hlive')
        have hopen := cached_of_registered (hcached.sameLayer hblob rfl rfl) hsame htarget hfile
        have hafter := hopen.tasks_run (fun _ => rfl) hrun
        exact ⟨live.inst, len, hafter.sameLayer hblob.symm rfl rfl⟩
      · -- another entry is not touched
        obtain ⟨⟨h₁, h₂⟩, h₃, h₄⟩ := hcached.ne_of_cacheKey_ne hapart hkey
        rw [← htarget] at h₁ h₃
        rw [← hfile] at h₂ h₄
        have hget {key : FileKey} (htarget : key ≠ live.inst.target)
            (hfile : key ≠ live.inst.rangeMap.file) :
            Files.get { d.files with disk := c.shared.disk } key = d.files.get key := by
          have hdisk : c.shared.disk key = d.files.disk key :=
            Instance.disk_run_of_ne htarget hfile hrun
          simp only [Files.get, hdisk]
        exact ⟨inst, len, hcached.frame (hget h₁ h₂) (hget h₃ h₄)⟩

/-! ### The second preparation -/

/-- Layers whose instances are registered, with valid configurations: nothing changes, and it
succeeds exactly when all the instances have the configurations that are asked for. -/
theorem registerLayers_again {layers : List (PrepareLayerDescriptor × PreparedLayer)}
    (answers : List RegisterAnswers)
    (hvalid : ∀ q ∈ layers, validateConfig (entryConfig cacheRoot request q) = .ok ())
    (hregistered : ∀ q ∈ layers, ∃ live, d.instances q.2.instanceId = some live) :
    ∃ res, registerLayers codec ino cacheRoot request layers answers d = some (res, d) ∧
      (res = .ok () ↔ ∀ q ∈ layers, ∀ live, d.instances q.2.instanceId = some live →
        live.inst.config.same
          { entryConfig cacheRoot request q with instanceId := q.2.instanceId } = true) := by
  induction layers generalizing answers with
  | nil => exact ⟨.ok (), rfl, iff_of_true rfl fun q hq => absurd hq List.not_mem_nil⟩
  | cons q layers ih =>
    obtain ⟨res, hrest, hiff⟩ := ih answers.tail
      (fun q' hq' => hvalid q' (List.mem_cons_of_mem _ hq'))
      (fun q' hq' => hregistered q' (List.mem_cons_of_mem _ hq'))
    obtain ⟨live, hlive⟩ := hregistered q List.mem_cons_self
    have hfirst : register codec ino d q.2.instanceId (entryConfig cacheRoot request q)
        (answers.headD {}) = _ := register_existing (hvalid q List.mem_cons_self) hlive
    split_ifs at hfirst with hsame
    · refine ⟨res, (registerLayers_cons_ok hfirst).trans hrest, hiff.trans ?_⟩
      rw [List.forall_mem_cons]
      refine (and_iff_right fun live' hlive' => ?_).symm
      obtain rfl := Option.some.inj (hlive.symm.trans hlive')
      exact hsame
    · exact ⟨.error (.conflict "instance already exists with different config"),
        registerLayers_cons_error hfirst,
        iff_of_false (by simp) fun hall => hsame (hall q List.mem_cons_self live hlive)⟩

theorem imageConfig_eq_iff {layer' : PrepareLayerDescriptor} (hblob : layer'.blob = layer.blob)
    (hunit : again.fetch.unitBytes = request.fetch.unitBytes) :
    imageConfig cacheRoot request layer = imageConfig cacheRoot again layer' ↔
      again.imageRef = request.imageRef ∧ again.hostsDir = request.hostsDir ∧
        again.auth = request.auth := by
  have hdigest := (blob_eq_iff.mp hblob).1
  simp only [imageConfig, layerConfig, InstanceConfig.mk.injEq, RemoteSource.ociRegistry.injEq,
    hblob, hunit, hdigest, true_and, and_true]
  constructor
  · rintro ⟨⟨href, hhosts⟩, hauth⟩
    exact ⟨href.symm, hhosts.symm, hauth.symm⟩
  · rintro ⟨href, hhosts, hauth⟩
    exact ⟨⟨href.symm, hhosts.symm⟩, hauth.symm⟩

/-- The configuration of a layer passes the checks. -/
theorem validateConfig_entry {n : ℕ} (hsize : layerPmemSize request layer = .ok n)
    (hunit : validateFetchUnitBytes request.fetch.unitBytes.toNat = .ok ()) :
    validateConfig (entryConfig cacheRoot request (layer, preparedLayer cacheRoot layer n)) =
      .ok () := by
  have hpath : sparsePath cacheRoot (cacheKey layer.digest) ≠ "" := by
    intro hempty
    have hlast := getLast?_sparsePath cacheRoot (cacheKey layer.digest)
    rw [hempty] at hlast
    exact absurd hlast (by simp)
  have hnonzero : layer.size ≠ 0 := by
    rw [layerPmemSize] at hsize
    split_ifs at hsize with hmedia hzero
    exact hzero
  rw [validateConfig]
  change (if sparsePath cacheRoot (cacheKey layer.digest) = "" then _
    else if layer.size = 0 then _ else validateFetchUnitBytes request.fetch.unitBytes.toNat) = _
  rw [if_neg hpath, if_neg hnonzero]
  exact hunit

/-- The second request is for layers of the first, with its unit and its alignment. -/
structure SharesLayers (request again : PrepareImageRequest) : Prop where
  layers : ∀ layer' ∈ again.layers, ∃ layer ∈ request.layers, layer'.digest = layer.digest ∧
    layer'.size = layer.size ∧ layer'.mediaType = layer.mediaType
  unitBytes : again.fetch.unitBytes = request.fetch.unitBytes
  alignmentBytes : again.pmem.alignmentBytes = request.pmem.alignmentBytes

theorem SharesLayers.cached (h : SharesLayers request again)
    (hcached : ImageCached codec ino cacheRoot request d) :
    ∀ layer ∈ again.layers,
      ∃ inst len, Cached codec ino cacheRoot again layer inst len d.files := by
  intro layer' hlayer'
  obtain ⟨layer, hlayer, hblob⟩ := h.layers layer' hlayer'
  obtain ⟨inst, len, hentry⟩ := hcached.cached layer hlayer
  exact ⟨inst, len, hentry.sameLayer (blob_eq_iff.mpr hblob) h.unitBytes h.alignmentBytes⟩

/-- The second request has the reference, the hosts directory and the credentials of the first. -/
def SameSource (request again : PrepareImageRequest) : Prop :=
  again.imageRef = request.imageRef ∧ again.hostsDir = request.hostsDir ∧ again.auth = request.auth

/-- The registration of the layers of the second request. -/
theorem registerLayers_shared (hshares : SharesLayers request again)
    (hcached : ImageCached codec ino cacheRoot request d) {prepared : List PreparedLayer}
    (hprepared : List.Forall₂ (fun layer p => ∃ n, layerPmemSize again layer = .ok n ∧
      p = preparedLayer cacheRoot layer n) again.layers prepared) (answers : List RegisterAnswers) :
    ∃ res, registerLayers codec ino cacheRoot again (again.layers.zip prepared) answers d =
        some (res, d) ∧
      (res = .ok () ↔ again.layers = [] ∨ SameSource request again) := by
  have hzip : ∀ q ∈ again.layers.zip prepared, q.1 ∈ again.layers ∧
      ∃ n, layerPmemSize again q.1 = .ok n ∧ q.2 = preparedLayer cacheRoot q.1 n := by
    rintro ⟨layer, p⟩ hq
    exact ⟨(List.of_mem_zip hq).1, (List.forall₂_iff_zip.mp hprepared).2 hq⟩
  have hlive (layer' : PrepareLayerDescriptor) (hlayer' : layer' ∈ again.layers) :
      ∃ live, d.instances (instanceId (cacheKey layer'.digest)) = some live ∧
        (live.inst.config.same (imageConfig cacheRoot again layer') = true ↔
          SameSource request again) := by
    obtain ⟨layer, hlayer, hblob⟩ := hshares.layers layer' hlayer'
    obtain ⟨live, hlive, hsame⟩ := hcached.registered layer hlayer
    refine ⟨live, by rw [hblob.1]; exact hlive, ?_⟩
    have hpath : (imageConfig cacheRoot request layer).targetPath =
        (imageConfig cacheRoot again layer').targetPath := by
      change sparsePath _ _ = sparsePath _ _
      rw [hblob.1]
    rw [InstanceConfig.same_congr hsame hpath]
    exact imageConfig_eq_iff (blob_eq_iff.mpr hblob) hshares.unitBytes
  have hvalid : ∀ q ∈ again.layers.zip prepared,
      validateConfig (entryConfig cacheRoot again q) = .ok () := by
    intro q hq
    obtain ⟨-, n, hsize, hn⟩ := hzip q hq
    have hunit : validateFetchUnitBytes again.fetch.unitBytes.toNat = .ok () := by
      rw [hshares.unitBytes]
      exact hcached.unit
    have hentry : validateConfig (entryConfig cacheRoot again (q.1, q.2)) = .ok () := by
      rw [hn]
      exact validateConfig_entry hsize hunit
    exact hentry
  have hregistered : ∀ q ∈ again.layers.zip prepared,
      ∃ live, d.instances q.2.instanceId = some live := by
    intro q hq
    obtain ⟨hmem, n, -, hn⟩ := hzip q hq
    obtain ⟨live, hlive', -⟩ := hlive q.1 hmem
    rw [hn]
    exact ⟨live, hlive'⟩
  obtain ⟨res, hres, hiff⟩ := @registerLayers_again codec ino cacheRoot again d _ answers hvalid
    hregistered
  refine ⟨res, hres, hiff.trans ⟨fun hall => ?_, fun hsource q hq live hq' => ?_⟩⟩
  · rcases hlayers : again.layers with _ | ⟨layer', layers⟩
    · exact Or.inl rfl
    · right
      have hmem : layer' ∈ again.layers := by
        rw [hlayers]
        exact List.mem_cons_self
      obtain ⟨p, hp, n, -, rfl⟩ := exists_mem_zip hprepared hmem
      obtain ⟨live, hlive', hsame⟩ := hlive layer' hmem
      exact hsame.mp (hall _ hp live hlive')
  · obtain ⟨hmem, n, -, hn⟩ := hzip q hq
    rw [hn] at hq'
    obtain ⟨live', hlive', hsame⟩ := hlive q.1 hmem
    obtain rfl := Option.some.inj (hlive'.symm.trans hq')
    rw [entryConfig, hn]
    rcases hsource with hnil | hsource
    · rw [hnil] at hmem
      exact absurd hmem List.not_mem_nil
    · exact hsame.mpr hsource

/-! ### The image -/

section Again

variable (hshares : SharesLayers request again)
  (hcached : ImageCached codec ino cacheRoot request d)

include hshares hcached

theorem validateFetchUnitBytes_shared :
    validateFetchUnitBytes again.fetch.unitBytes.toNat = .ok () := by
  rw [hshares.unitBytes]
  exact hcached.unit

/-- **The second preparation** changes nothing. It succeeds exactly when the second request has the
source of the first. -/
theorem prepareImage_again {answers : ImageAnswers} {res : Except Error (List PreparedLayer)}
    (hclean : answers.IsClean)
    (h : prepareImage codec ino cacheRoot again answers d = some (res, d')) :
    d' = d ∧ ((∃ prepared, res = .ok prepared) ↔
      again.layers = [] ∨ SameSource request again) := by
  have hunit := validateFetchUnitBytes_shared hshares hcached
  rw [prepareImage, prepareCacheLayers, hunit] at h
  dsimp only at h
  split at h
  · exact absurd h (by simp)
  · rename_i hlayers
    obtain ⟨-, prepared, hno⟩ := prepareLayers_keeps (hshares.cached hcached) hclean.layers hlayers
    exact absurd hno (by simp)
  · rename_i prepared files hlayers
    obtain ⟨rfl, -⟩ := prepareLayers_keeps (hshares.cached hcached) hclean.layers hlayers
    obtain ⟨res', hregister, hiff⟩ := registerLayers_shared hshares hcached
      (prepareLayers_prepared hlayers) answers.registers
    rw [hregister] at h
    rw [← hiff]
    cases res' with
    | error err =>
      obtain ⟨rfl, rfl⟩ := Prod.mk.inj (Option.some.inj h)
      exact ⟨rfl, iff_of_false (by rintro ⟨prepared', hno⟩; exact absurd hno (by simp)) (by simp)⟩
    | ok =>
      obtain ⟨rfl, rfl⟩ := Prod.mk.inj (Option.some.inj h)
      exact ⟨rfl, iff_of_true ⟨prepared, rfl⟩ rfl⟩

theorem exists_prepareImage : ∃ answers : ImageAnswers, answers.IsClean ∧ ∃ res d',
    prepareImage codec ino cacheRoot again answers d = some (res, d') := by
  obtain ⟨answers, hclean, prepared, hlayers⟩ := exists_prepareLayers (hshares.cached hcached)
  obtain ⟨res, hregister, -⟩ := registerLayers_shared hshares hcached
    (prepareLayers_prepared hlayers) []
  have hunit := validateFetchUnitBytes_shared hshares hcached
  refine ⟨⟨answers, []⟩, ⟨hclean, fun a ha => absurd ha List.not_mem_nil⟩, ?_⟩
  rw [prepareImage, prepareCacheLayers, hunit]
  dsimp only
  rw [hlayers]
  dsimp only
  rw [hregister]
  cases res with
  | error err => exact ⟨_, _, rfl⟩
  | ok => exact ⟨_, _, rfl⟩

end Again

/-- What the second preparation has to keep: the paths and the ids of the layers, which instances
there are, and the slots that are ready. -/
structure Reused (ino : String → FileKey) (again : PrepareImageRequest)
    (prepared prepared' : List PreparedLayer) (d d' : Daemon) : Prop where
  layers : prepared'.map PreparedLayer.blobDigest = again.layers.map PrepareLayerDescriptor.digest
  entries : ∀ p' ∈ prepared', ∀ p ∈ prepared, p'.blobDigest = p.blobDigest →
    p'.sparsePath = p.sparsePath ∧ p'.bitmapPath = p.bitmapPath ∧ p'.instanceId = p.instanceId
  instances : ∀ id, (d'.instances id).isSome = (d.instances id).isSome
  ready : ∀ id live, d.instances id = some live → ∃ live', d'.instances id = some live' ∧
    ∀ k, live.slots.getD k 0 ≠ 0 → live'.slots.getD k 0 ≠ 0
  persisted : ∀ p ∈ prepared, ∀ k, (d.files.disk (ino p.bitmapPath)).byte (headerSize + k) ≠ 0 →
    (d'.files.disk (ino p.bitmapPath)).byte (headerSize + k) ≠ 0

/-- The second request succeeds where the file system does not fail, and reuses what the first one
has left. -/
def Reuses (codec : HeaderCodec) (ino : String → FileKey) (cacheRoot : String)
    (again : PrepareImageRequest) (prepared : List PreparedLayer) (d : Daemon) : Prop :=
  (∃ answers : ImageAnswers, answers.IsClean ∧ ∃ res d',
    prepareImage codec ino cacheRoot again answers d = some (res, d')) ∧
  ∀ (answers : ImageAnswers) res d', answers.IsClean →
    prepareImage codec ino cacheRoot again answers d = some (res, d') →
    ∃ prepared', res = .ok prepared' ∧ Reused ino again prepared prepared' d d'

/-- **When the layers of an image that has been prepared are reused.** A first request succeeds, the
instances of its layers are used, and a second request is for layers of the first. It reuses them
exactly when it has the image reference, the hosts directory and the credentials of the first, or no
layers. -/
theorem prepare_reuses_iff (hapart : CacheApart ino cacheRoot) {answers : ImageAnswers}
    {prepared : List PreparedLayer} {d₀ d₁ d₂ : Daemon}
    (hfirst : prepareImage codec ino cacheRoot request answers d₀ = some (.ok prepared, d₁))
    (hbetween : Relation.ReflTransGen (BetweenStep ino cacheRoot request) d₁ d₂)
    (hshares : SharesLayers request again) :
    Reuses codec ino cacheRoot again prepared d₂ ↔
      again.layers = [] ∨ SameSource request again := by
  obtain ⟨hcached₁, hprepared⟩ := prepareImage_cached hapart hfirst
  have hcached : ImageCached codec ino cacheRoot request d₂ := by
    induction hbetween with
    | refl => exact hcached₁
    | tail _ hstep ih => exact between_cached hapart ih hstep
  constructor
  · rintro ⟨⟨answers', hclean, res, d', hagain⟩, hreuses⟩
    obtain ⟨prepared', hres, -⟩ := hreuses answers' res d' hclean hagain
    exact (prepareImage_again hshares hcached hclean hagain).2.mp ⟨prepared', hres⟩
  · intro hsource
    refine ⟨exists_prepareImage hshares hcached, fun answers' res d' hclean hagain => ?_⟩
    obtain ⟨rfl, hiff⟩ := prepareImage_again hshares hcached hclean hagain
    obtain ⟨prepared', rfl⟩ := hiff.mpr hsource
    obtain ⟨-, hprepared'⟩ := prepareImage_cached hapart hagain
    refine ⟨prepared', rfl, ?_, ?_, fun _ => rfl, fun _ live hlive => ⟨live, hlive, fun _ hk => hk⟩,
      fun _ _ _ hk => hk⟩
    · refine (List.forall₂_eq_eq_eq ▸ List.forall₂_map_left_iff.mpr
        (List.forall₂_map_right_iff.mpr (hprepared'.flip.imp ?_)))
      rintro p layer ⟨n, -, rfl⟩
      rfl
    · -- the paths and the id are functions of the digest
      intro p' hp' p hp hdigest
      have hentry {r : PrepareImageRequest} {ps : List PreparedLayer}
          (hps : List.Forall₂ (fun layer p => ∃ n, layerPmemSize r layer = .ok n ∧
            p = preparedLayer cacheRoot layer n) r.layers ps) {q : PreparedLayer} (hq : q ∈ ps) :
          ∃ layer n, q = preparedLayer cacheRoot layer n := by
        obtain ⟨layer, -, n, -, hn⟩ := exists_mem_zip hps.flip hq
        exact ⟨layer, n, hn⟩
      obtain ⟨layer', n', rfl⟩ := hentry hprepared' hp'
      obtain ⟨layer, n, rfl⟩ := hentry hprepared hp
      have hkey : layer'.digest = layer.digest := hdigest
      simp only [preparedLayer, hkey, and_self]

/-! ### A second reference to a small image -/

section SmallImage

variable {ino : String → FileKey} (hne : smallSparse ino ≠ smallBitmap ino)

include hne

/-- `smallImage` is prepared, and its instance is registered. -/
theorem prepareImage_small : ∃ live f, FreshBitmap f ∧
    Opened ino smallLayerConfig (smallMap ino) (List.replicate (smallMap ino).slotCount 0) live ∧
    prepareImage headerJson ino "cache" smallImage {} emptyCache =
      some (.ok [preparedLayer "cache" smallLayer 4096],
        { emptyCache with
          files := smallCache ino f
          instances := Function.update emptyCache.instances smallId (some live) }) := by
  obtain ⟨f, hf, hprepare⟩ := prepareCacheLayers_small hne
  obtain ⟨live, hregister, hlive⟩ := register_smallLayer hne hf
  refine ⟨live, f, hf, hlive, ?_⟩
  have hloop : registerLayers headerJson ino "cache" smallImage
      (smallImage.layers.zip [preparedLayer "cache" smallLayer 4096]) []
      { emptyCache with files := smallCache ino f } =
        some (.ok (), { emptyCache with
          files := smallCache ino f
          instances := Function.update emptyCache.instances smallId (some live) }) :=
    registerLayers_cons_ok hregister
  have hprepare' : prepareCacheLayers headerJson ino "cache" smallImage smallImage.layers
      ({} : ImageAnswers).layers emptyCache.files =
        some (.ok [preparedLayer "cache" smallLayer 4096], smallCache ino f) := hprepare
  rw [prepareImage, hprepare']
  dsimp only
  rw [hloop]

/-- A layer of `smallImage` is prepared again, for a request with its alignment. -/
theorem prepareCacheLayers_smallCache {f : File} {live : Live} {files : Files}
    (hunit : validateFetchUnitBytes again.fetch.unitBytes.toNat = .ok ())
    (hsize : layerPmemSize again smallLayer = .ok 4096)
    (hcache :
      openCache headerJson ino (layerConfig "cache" again smallLayer) {} (smallCache ino f) =
        some (.ok live, files)) :
    prepareCacheLayers headerJson ino "cache" again [smallLayer] [] (smallCache ino f) =
      some (.ok [preparedLayer "cache" smallLayer 4096], files) := by
  have hget : (smallCache ino f).get (ino (sparsePath "cache" (cacheKey smallLayer.digest))) =
      some (newFile.setLen 4096) :=
    (Files.put_get_of_ne _ _ hne).trans (Files.put_get_self _ _ _)
  have hsparse : createSparseFile (sparsePath "cache" (cacheKey smallLayer.digest)) 4096 {}
      ((smallCache ino f).get (ino (sparsePath "cache" (cacheKey smallLayer.digest)))) =
        (.ok (), some (newFile.setLen 4096)) := by
    have hlen : (newFile.setLen 4096).len < 2 ^ 63 := by decide
    rw [hget]
    exact createSparseFile_same hlen
  have hput : (smallCache ino f).put (ino (sparsePath "cache" (cacheKey smallLayer.digest)))
      (some (newFile.setLen 4096)) = smallCache ino f := Files.put_of_get _ hget
  rw [← hput] at hcache
  have hlayer : prepareLayer headerJson ino "cache" again smallLayer {} (smallCache ino f) =
      some (.ok (preparedLayer "cache" smallLayer 4096), _) :=
    prepareLayer_of_ok hsize rfl hsparse hcache
  simp only [prepareCacheLayers, hunit, prepareLayers, List.headD_nil, hlayer]

end SmallImage

/-- The same layers under a second reference. -/
def secondImage : PrepareImageRequest := { smallImage with imageRef := "example.com/image:2" }

theorem sharesLayers_secondImage : SharesLayers smallImage secondImage where
  layers layer hlayer := ⟨layer, hlayer, rfl, rfl, rfl⟩
  unitBytes := rfl
  alignmentBytes := rfl

/-- `prepare_reuses_iff` for `smallImage`, prepared twice. -/
theorem smallImage_reused : ∃ prepared d,
    prepareImage headerJson pathIno "cache" smallImage {} emptyCache = some (.ok prepared, d) ∧
    Reuses headerJson pathIno "cache" smallImage prepared d := by
  have hapart : CacheApart pathIno "cache" := cacheApart_of_injective pathIno_injective "cache"
  obtain ⟨live, f, -, -, hfirst⟩ := prepareImage_small (hapart.sparse_ne_bitmap _ _)
  refine ⟨_, _, hfirst, ?_⟩
  exact (prepare_reuses_iff hapart hfirst .refl ⟨fun layer hlayer => ⟨layer, hlayer, rfl, rfl, rfl⟩,
    rfl, rfl⟩).mpr (Or.inr ⟨rfl, rfl, rfl⟩)

/-- A request for the layer of `smallImage` with another configuration is refused, once the layer
has been prepared. -/
theorem prepareImage_small_conflict {f : File} {live : Live} {files : Files}
    (hlayers : again.layers = [smallLayer])
    (hprepare : prepareCacheLayers headerJson pathIno "cache" again [smallLayer] []
      (smallCache pathIno f) = some (.ok [preparedLayer "cache" smallLayer 4096], files))
    (hvalid : validateConfig (entryConfig "cache" again
      (smallLayer, preparedLayer "cache" smallLayer 4096)) = .ok ())
    (hsame : live.inst.config.same
      { entryConfig "cache" again (smallLayer, preparedLayer "cache" smallLayer 4096) with
        instanceId := smallId } = false) :
    prepareImage headerJson pathIno "cache" again {}
        { emptyCache with
          files := smallCache pathIno f
          instances := Function.update emptyCache.instances smallId (some live) } =
      some (.error (.conflict "instance already exists with different config"),
        { emptyCache with
          files := files
          instances := Function.update emptyCache.instances smallId (some live) }) := by
  have hnew : Function.update emptyCache.instances smallId (some live) smallId = some live :=
    Function.update_self _ _ _
  have hregister := @register_conflict headerJson pathIno
    { emptyCache with
      files := files
      instances := Function.update emptyCache.instances smallId (some live) }
    smallId _ {} live hvalid hnew hsame
  have hloop : registerLayers headerJson pathIno "cache" again
      [(smallLayer, preparedLayer "cache" smallLayer 4096)] [] _ = some (.error _, _) :=
    registerLayers_cons_error hregister
  rw [← hlayers] at hprepare
  refine prepareImage_register_error hprepare ?_
  rw [hlayers]
  exact hloop

/-- A second reference to the layers of `smallImage` is refused. -/
theorem secondImage_conflict : ∃ prepared d,
    prepareImage headerJson pathIno "cache" smallImage {} emptyCache = some (.ok prepared, d) ∧
    SharesLayers smallImage secondImage ∧
    prepareImage headerJson pathIno "cache" secondImage {} d =
      some (.error (.conflict "instance already exists with different config"), d) := by
  have hapart : CacheApart pathIno "cache" := cacheApart_of_injective pathIno_injective "cache"
  have hne : smallSparse pathIno ≠ smallBitmap pathIno := hapart.sparse_ne_bitmap _ _
  obtain ⟨live, f, hf, hlive, hfirst⟩ := prepareImage_small hne
  obtain ⟨_, hcache, -⟩ := openCache_smallCache hne hf (layerConfig "cache" secondImage smallLayer)
    rfl rfl rfl
  refine ⟨_, _, hfirst, sharesLayers_secondImage, prepareImage_small_conflict rfl
    (prepareCacheLayers_smallCache hne rfl (by decide) hcache) (by decide) ?_⟩
  rw [hlive.config_eq]
  decide

end Daemon

end Lazyd
