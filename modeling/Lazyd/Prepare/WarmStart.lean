import Lazyd.Instance.Recorded
import Lazyd.Prepare.Keys
import Lazyd.Prepare.Reuse

/-!
# Preparing an image again after the daemon has been restarted

An image is prepared and its layers are used, until the daemon stops at some point, in the middle of
any number of calls. A new daemon on the same files knows of no instance. A preparation of the same
layers opens each of them on its entry, whose bitmap file has every slot that the old daemon had
ready: nothing has to be fetched again.

## Main definitions

* `Prepare.OpenOn` : an instance that is open on the entry of a layer, with its slots recorded
  there.
* `Prepare.Reopened` : an instance that has been opened on an entry.
* `Daemon.Restores` : what a preparation on a new daemon brings back.

## Main results

* `Daemon.prepareImage_open`, `Daemon.between_open` : the instances of the layers record their
  slots.
* `Daemon.registerLayers_restores` : the registration of the layers on a new daemon.
* `Daemon.restart_restores` : what was ready is ready again.

Source: `src/prepare.rs`, lines 92–161; `src/control.rs`, lines 136–164; `src/instance.rs`, lines
107–158 and 171–261; `src/range_map.rs`, lines 42–98 and 116–179.
-/

namespace Lazyd

/-- **The slots that an instance is opened with are ready in its bitmap file.** -/
theorem OpensCache.recorded {codec : HeaderCodec} {ino : String → FileKey} {config : InstanceConfig}
    {answers : OpenAnswers} {files files' : Files} {live : Live}
    (h : OpensCache codec ino config answers files (.ok live) files') :
    live.inst.Recorded (live.shared files'.disk) := by
  cases h with
  | clear hopen hrecovery =>
    obtain ⟨f, -, hslots, -⟩ := OpensBitmap.of_clear hopen hrecovery
    intro k hk
    change (_ : List UInt8).getD k 0 ≠ 0 at hk
    rw [Live.shared, hslots] at hk
    exact absurd (getD_replicate_zero _ k) hk
  | @recovered opened f s hopen hsolo =>
    refine Instance.recorded_recovered (fun k hk => Or.inr ?_) hsolo
    have hm := openOrCreate_rangeMap hopen
    obtain ⟨f', rfl, hslots⟩ := openOrCreate_slots hm hopen
    have hlt : k < opened.rangeMap.slotCount := by
      rw [← hslots.length_slots]
      exact lt_length_of_getD_ne hk
    change ((files.put _ (some f')).disk opened.rangeMap.file).byte (headerSize + k) ≠ 0
    rw [(RangeMap.geometry_eq_ok hm).1, files.put_disk_self, hslots.slot k hlt]
    exact hk

namespace Prepare

/-- The instance is open on the entry of the layer, and the slots that it has ready are ready in the
bitmap file of the entry. -/
structure OpenOn (ino : String → FileKey) (cacheRoot : String) (layer : PrepareLayerDescriptor)
    (live : Live) (files : Files) : Prop where
  target_eq : live.inst.target = ino (sparsePath cacheRoot (cacheKey layer.digest))
  file_eq : live.inst.rangeMap.file =
    ino (bitmapPath (sparsePath cacheRoot (cacheKey layer.digest)))
  length_slots : live.slots.length = live.inst.rangeMap.slotCount
  present : files.present live.inst.rangeMap.file = true
  recorded : live.inst.Recorded (live.shared files.disk)

/-- The instance has been opened on the entry of the layer, as it is in the files. -/
def Reopened (codec : HeaderCodec) (ino : String → FileKey) (cacheRoot : String)
    (request : PrepareImageRequest) (layer : PrepareLayerDescriptor) (files : Files)
    (live : Live) : Prop :=
  ∃ inst len, Cached codec ino cacheRoot request layer inst len files ∧
    Opened ino (Daemon.imageConfig cacheRoot request layer) inst.rangeMap
      (entrySlots inst files) live

variable {codec : HeaderCodec} {ino : String → FileKey} {cacheRoot : String}
  {request : PrepareImageRequest} {layer layer' : PrepareLayerDescriptor} {inst : Instance}
  {len : ℕ} {files files' : Files} {live : Live}

/-- The bitmap file has not been touched. -/
theorem OpenOn.frame (h : OpenOn ino cacheRoot layer live files)
    (hfile : files'.get (ino (bitmapPath (sparsePath cacheRoot (cacheKey layer.digest)))) =
      files.get (ino (bitmapPath (sparsePath cacheRoot (cacheKey layer.digest))))) :
    OpenOn ino cacheRoot layer live files' := by
  rw [← h.file_eq] at hfile
  obtain ⟨hpresent, hdisk⟩ := files'.get_eq_some.mp
    (hfile.trans (files.get_eq_some.mpr ⟨h.present, rfl⟩))
  refine ⟨h.target_eq, h.file_eq, h.length_slots, hpresent, fun k hk => ?_⟩
  change (files'.disk live.inst.rangeMap.file).byte _ ≠ 0
  rw [hdisk]
  exact h.recorded k hk

/-- An instance that is opened for a layer. -/
theorem OpenOn.of_opensCache {config : InstanceConfig} {answers : OpenAnswers}
    (h : OpensCache codec ino config answers files (.ok live) files')
    (hpath : config.targetPath = sparsePath cacheRoot (cacheKey layer.digest)) :
    OpenOn ino cacheRoot layer live files' := by
  obtain ⟨-, htarget, hfile⟩ := h.inst_eq
  have hpresent := h.bitmap_present
  rw [← hfile] at hpresent
  rw [hpath] at htarget hfile
  exact ⟨htarget, hfile, h.started.length_slots, hpresent, h.recorded⟩

/-- Calls on the instance. -/
theorem OpenOn.tasks_run {τ : Type*} [DecidableEq τ]
    {ok : Instance.TaskState → Instance.Event → Prop} {f : τ → Instance.TaskState}
    {c : TaskSystem.Config Instance.Shared Instance.TaskState τ} {ls : List (τ × Instance.Event)}
    (hapart : CacheApart ino cacheRoot) (h : OpenOn ino cacheRoot layer live files)
    (hidle : ∀ t, f t = .idle)
    (hrun : live.inst.tasks.Run ok ⟨live.shared files.disk, f⟩ ls c) :
    OpenOn ino cacheRoot layer ⟨live.inst, c.shared.slots, c.shared.inflight⟩
      { files with disk := c.shared.disk } := by
  have hne : live.inst.target ≠ live.inst.rangeMap.file := by
    rw [h.target_eq, h.file_eq]
    exact hapart.sparse_ne_bitmap _ _
  exact ⟨h.target_eq, h.file_eq, (Instance.length_slots_run hrun).trans h.length_slots, h.present,
    Instance.recorded_run hne h.recorded hidle hrun⟩

theorem length_entrySlots : (entrySlots inst files).length = inst.rangeMap.slotCount := by
  rw [entrySlots, List.length_map, List.length_range]

/-- **What is opened on an entry** has the slots of the entry. -/
theorem Cached.openCache_opened {config : InstanceConfig} {answers : OpenAnswers}
    (h : Cached codec ino cacheRoot request layer inst len files)
    (hpath : config.targetPath = sparsePath cacheRoot (cacheKey layer.digest))
    (hblob : config.blob = layer.blob) (hunit : config.fetch.unitBytes = request.fetch.unitBytes)
    (hclean : answers.IsClean)
    (hcache : openCache codec ino config answers files = some (.ok live, files')) :
    Opened ino config inst.rangeMap (entrySlots inst files) live := by
  have hopened := h.opened_entry hpath hblob hunit
  have hentry := h.openOrCreate_entry hpath hblob hunit
  rw [← hclean.bitmap] at hentry
  cases OpensCache.of_openCache hcache with
  | clear hopen hrecovery =>
    obtain ⟨heq, -⟩ := Prod.mk.inj (hopen.symm.trans hentry)
    obtain rfl := Except.ok.inj heq
    exact absurd hrecovery (by simp)
  | recovered hopen hsolo =>
    obtain ⟨heq, rfl⟩ := Prod.mk.inj (hopen.symm.trans hentry)
    obtain rfl := Except.ok.inj heq
    rw [files.put_of_get (h.get_bitmap hpath)] at hsolo
    obtain ⟨rfl, -⟩ := Instance.recovery_of_present
      (hopened.kept.target_len.trans_lt hopened.on.len_lt) hopened.present_of_ready
      (fun e he => (hclean.recovery e he).unfaulted) hsolo
    exact ⟨rfl, rfl, rfl, rfl, rfl⟩

theorem Reopened.sameLayer (h : Reopened codec ino cacheRoot request layer files live)
    (hblob : layer'.blob = layer.blob) :
    Reopened codec ino cacheRoot request layer' files live := by
  obtain ⟨inst, len, hcached, hopened⟩ := h
  have hconfig : Daemon.imageConfig cacheRoot request layer =
      Daemon.imageConfig cacheRoot request layer' :=
    (Daemon.imageConfig_eq_iff hblob rfl).mpr ⟨rfl, rfl, rfl⟩
  rw [hconfig] at hopened
  exact ⟨inst, len, hcached.sameLayer hblob rfl rfl, hopened⟩

/-- The entry of a layer has one geometry. -/
theorem Cached.rangeMap_eq {inst' : Instance} {len' : ℕ}
    (h : Cached codec ino cacheRoot request layer inst len files)
    (h' : Cached codec ino cacheRoot request layer inst' len' files') :
    inst.rangeMap = inst'.rangeMap := by
  have hgeometry := h.on.geometry
  rw [← h.on.file_eq, h'.on.file_eq, h'.on.geometry] at hgeometry
  exact (Except.ok.inj hgeometry).symm

/-- **What was ready in memory before is ready in memory again.** -/
theorem Reopened.has {live' : Live} (h : Reopened codec ino cacheRoot request layer files live')
    (hslots : live.slots.length = live.inst.rangeMap.slotCount)
    (hrecorded : live.inst.Recorded (live.shared files.disk))
    (hmap : live.inst.rangeMap = live'.inst.rangeMap) {offset n : ℕ}
    (hhas : live.inst.Has live.slots offset n) : live'.inst.Has live'.slots offset n := by
  obtain ⟨inst, len, hcached, hopened⟩ := h
  rcases hhas with hzero | ⟨hle, hready⟩
  · exact Or.inl hzero
  · rw [← Instance.rangeMap_blobSize, hmap, Instance.rangeMap_blobSize] at hle
    refine Or.inr ⟨hle, fun k hk => ?_⟩
    rw [← Instance.rangeMap_unitBytes, ← hmap, Instance.rangeMap_unitBytes] at hk
    have hset := hready k hk
    have hlt : k < inst.rangeMap.slotCount := by
      rw [← hopened.rangeMap_eq, ← hmap, ← hslots]
      exact lt_length_of_getD_ne hset
    have hentry : (entrySlots inst files).getD k 0 =
        (files.disk inst.rangeMap.file).byte (headerSize + k) :=
      readSlots_getD (readSlots_of_len_le hcached.kept.bitmap_len) hlt
    rw [hopened.slots_eq, hentry, ← hopened.rangeMap_eq, ← hmap]
    exact hrecorded k hset

end Prepare

namespace Daemon

open Prepare

variable {codec : HeaderCodec} {ino : String → FileKey} {cacheRoot : String}
  {request again : PrepareImageRequest} {layer : PrepareLayerDescriptor} {d d' : Daemon}

/-! ### Until the daemon stops -/

/-- The registered instances of the layers are open on the entries. -/
def ImageOpen (ino : String → FileKey) (cacheRoot : String) (request : PrepareImageRequest)
    (d : Daemon) : Prop :=
  ∀ layer ∈ request.layers, ∀ live, d.instances (instanceId (cacheKey layer.digest)) = some live →
    OpenOn ino cacheRoot layer live d.files

/-- The registration of a layer keeps the instances of the layers open on their entries. -/
theorem register_open {layer' : PrepareLayerDescriptor} {n : ℕ} {answers : RegisterAnswers}
    (hapart : CacheApart ino cacheRoot)
    (hopen : ∀ live, d.instances (instanceId (cacheKey layer.digest)) = some live →
      OpenOn ino cacheRoot layer live d.files)
    (h : register codec ino d (preparedLayer cacheRoot layer' n).instanceId
      (entryConfig cacheRoot request (layer', preparedLayer cacheRoot layer' n)) answers =
        some (.ok (), d')) {live : Live}
    (hlive : d'.instances (instanceId (cacheKey layer.digest)) = some live) :
    OpenOn ino cacheRoot layer live d'.files := by
  have hregisters := Registers.of_register h
  by_cases hkey : cacheKey layer.digest = cacheKey layer'.digest
  · cases hregisters with
    | unchanged => exact hopen live hlive
    | @registered live' files d₁ hfree hopened hmark =>
      obtain rfl : live' = live := by
        rw [hkey] at hlive
        change Function.update d₁.instances (instanceId (cacheKey layer'.digest)) (some live')
          (instanceId (cacheKey layer'.digest)) = some live at hlive
        rwa [Function.update_self, Option.some.injEq] at hlive
      change OpenOn ino cacheRoot layer live' d₁.files
      rw [(markTarget_files hmark).1]
      refine .of_opensCache (openInstance_ok hopened) ?_
      rw [hkey]
      rfl
  · have hid : instanceId (cacheKey layer.digest) ≠ (preparedLayer cacheRoot layer' n).instanceId :=
      fun heq => hkey (instanceId_inj heq)
    rw [hregisters.instances_of_ne hid] at hlive
    refine (hopen live hlive).frame (hregisters.get_of_ne ?_)
    exact fun heq => hkey (hapart.bitmap_inj _ _ heq)

theorem registerLayers_open {layers : List (PrepareLayerDescriptor × PreparedLayer)}
    {answers : List RegisterAnswers} (hapart : CacheApart ino cacheRoot)
    (hprepared : ∀ q ∈ layers, ∃ n, q.2 = preparedLayer cacheRoot q.1 n)
    (hopen : ∀ live, d.instances (instanceId (cacheKey layer.digest)) = some live →
      OpenOn ino cacheRoot layer live d.files)
    (h : registerLayers codec ino cacheRoot request layers answers d = some (.ok (), d'))
    {live : Live} (hlive : d'.instances (instanceId (cacheKey layer.digest)) = some live) :
    OpenOn ino cacheRoot layer live d'.files := by
  induction layers generalizing answers d with
  | nil =>
    obtain ⟨-, rfl⟩ := Prod.mk.inj (Option.some.inj h)
    exact hopen live hlive
  | cons first layers ih =>
    obtain ⟨res₁, d₁, hfirst, ⟨err, -, hno, -⟩ | ⟨rfl, hrest⟩⟩ := registerLayers_cons h
    · exact absurd hno (by simp)
    · obtain ⟨layer', p⟩ := first
      obtain ⟨n, rfl⟩ : ∃ n, p = preparedLayer cacheRoot layer' n :=
        hprepared (layer', p) List.mem_cons_self
      exact ih (fun q hq => hprepared q (List.mem_cons_of_mem _ hq))
        (fun live => register_open hapart hopen hfirst) hrest

/-- **The instances that a preparation registers** are open on the entries. -/
theorem prepareImage_open {answers : ImageAnswers} {prepared : List PreparedLayer}
    (hapart : CacheApart ino cacheRoot)
    (hfree : ∀ layer ∈ request.layers, d.instances (instanceId (cacheKey layer.digest)) = none)
    (h : prepareImage codec ino cacheRoot request answers d = some (.ok prepared, d')) :
    ImageOpen ino cacheRoot request d' := by
  have hall := (prepareImage_cached hapart h).2
  rw [prepareImage] at h
  split at h
  · exact absurd h (by simp)
  · exact absurd h (by simp)
  · rename_i prepared' files hprepare
    split at h
    · exact absurd h (by simp)
    · exact absurd h (by simp)
    · rename_i d₁ hregister
      obtain ⟨hprepared, rfl⟩ := Prod.mk.inj (Option.some.inj h)
      obtain rfl := Except.ok.inj hprepared
      intro layer hlayer live hlive
      refine registerLayers_open hapart ?_ (fun live hno => ?_) hregister hlive
      · rintro ⟨layer', p⟩ hq
        obtain ⟨n, -, hn⟩ := (List.forall₂_iff_zip.mp hall).2 hq
        exact ⟨n, hn⟩
      · exact absurd ((hfree layer hlayer).symm.trans hno) (by simp)

/-- **What happens in between** keeps the instances open on their entries. -/
theorem between_open (hapart : CacheApart ino cacheRoot) (h : ImageOpen ino cacheRoot request d)
    (hstep : BetweenStep ino cacheRoot request d d') : ImageOpen ino cacheRoot request d' := by
  intro layer hlayer live hlive
  cases hstep with
  | elsewhere hfiles hinstances =>
    rw [hinstances layer hlayer] at hlive
    exact (h layer hlayer live hlive).frame (hfiles layer hlayer).2
  | @use used live' c ls hused hlive' htarget hfile hrun =>
    by_cases hkey : cacheKey layer.digest = cacheKey used.digest
    · obtain rfl : ⟨live'.inst, c.shared.slots, c.shared.inflight⟩ = live := by
        dsimp only at hlive
        rwa [hkey, Function.update_self, Option.some.injEq] at hlive
      rw [← hkey] at hlive'
      exact (h layer hlayer live' hlive').tasks_run hapart (fun _ => rfl) hrun
    · -- another bitmap file is not touched
      have hid : instanceId (cacheKey layer.digest) ≠ instanceId (cacheKey used.digest) :=
        fun heq => hkey (instanceId_inj heq)
      have hlive₀ : d.instances (instanceId (cacheKey layer.digest)) = some live :=
        (Function.update_of_ne hid _ _).symm.trans hlive
      refine (h layer hlayer live hlive₀).frame ?_
      have hdisk : c.shared.disk (ino (bitmapPath (sparsePath cacheRoot (cacheKey layer.digest)))) =
          d.files.disk (ino (bitmapPath (sparsePath cacheRoot (cacheKey layer.digest)))) := by
        refine Instance.disk_run_of_ne ?_ ?_ hrun
        · rw [htarget]
          exact (hapart.sparse_ne_bitmap _ _).symm
        · rw [hfile]
          exact fun heq => hkey (hapart.bitmap_inj _ _ heq)
      simp only [Files.get, hdisk]

/-! ### The registration on a new daemon -/

/-- Layers whose entries are in the cache, with no instance or one that has been opened on the
entry. -/
structure Restorable (codec : HeaderCodec) (ino : String → FileKey) (cacheRoot : String)
    (request : PrepareImageRequest) (layers : List (PrepareLayerDescriptor × PreparedLayer))
    (d : Daemon) : Prop where
  oneBlob : ∀ q ∈ layers, ∀ q' ∈ layers, cacheKey q'.1.digest = cacheKey q.1.digest →
    q'.1.blob = q.1.blob
  prepared : ∀ q ∈ layers, ∃ n, layerPmemSize request q.1 = .ok n ∧
    q.2 = preparedLayer cacheRoot q.1 n
  cached : ∀ q ∈ layers, ∃ inst len, Cached codec ino cacheRoot request q.1 inst len d.files
  reopened : ∀ q ∈ layers, ∀ live, d.instances (instanceId (cacheKey q.1.digest)) = some live →
    Reopened codec ino cacheRoot request q.1 d.files live

theorem RegisterAnswers.isClean_default : ({} : RegisterAnswers).IsClean :=
  ⟨⟨rfl, rfl, fun _ he => absurd he List.not_mem_nil⟩, rfl, rfl⟩

theorem RegisterAnswers.isClean_headD {answers : List RegisterAnswers}
    (h : ∀ a ∈ answers, a.IsClean) : (answers.headD {}).IsClean := by
  cases answers with
  | nil => exact RegisterAnswers.isClean_default
  | cons a answers => exact h a List.mem_cons_self

section Restored

variable {q : PrepareLayerDescriptor × PreparedLayer}
  {layers : List (PrepareLayerDescriptor × PreparedLayer)}
  (hunit : validateFetchUnitBytes request.fetch.unitBytes.toNat = .ok ())
  (hlayers : Restorable codec ino cacheRoot request (q :: layers) d)

include hunit hlayers

theorem Restorable.first : ∃ n, q.2 = preparedLayer cacheRoot q.1 n ∧
    validateConfig (entryConfig cacheRoot request q) = .ok () ∧
    ∃ inst len, Cached codec ino cacheRoot request q.1 inst len d.files := by
  obtain ⟨n, hsize, hp⟩ := hlayers.prepared q List.mem_cons_self
  refine ⟨n, hp, ?_, hlayers.cached q List.mem_cons_self⟩
  have hentry :
      validateConfig (entryConfig cacheRoot request (q.1, preparedLayer cacheRoot q.1 n)) =
        .ok () := validateConfig_entry hsize hunit
  rwa [← hp] at hentry

theorem Restorable.exists_register : ∃ answers : RegisterAnswers, answers.IsClean ∧ ∃ res d',
    register codec ino d q.2.instanceId (entryConfig cacheRoot request q) answers =
      some (res, d') := by
  obtain ⟨layer, p⟩ := q
  obtain ⟨n, hp, hvalid, inst, len, hcached⟩ := hlayers.first hunit
  obtain rfl : p = preparedLayer cacheRoot layer n := hp
  cases hlive : d.instances (instanceId (cacheKey layer.digest)) with
  | some live =>
    have hregister := @register_existing codec ino d _ _ {} live hvalid hlive
    split_ifs at hregister <;> exact ⟨{}, RegisterAnswers.isClean_default, _, _, hregister⟩
  | none =>
    obtain ⟨opening, hclean, live, hcache⟩ : ∃ opening : OpenAnswers, opening.IsClean ∧ ∃ live,
        openCache codec ino (imageConfig cacheRoot request layer) opening d.files =
          some (.ok live, d.files) := hcached.exists_openCache rfl rfl rfl
    exact ⟨{ opening }, ⟨hclean, rfl, rfl⟩, _, _, register_opened hvalid hlive hcache rfl rfl⟩

/-- **The registration of a layer that is in the cache** changes no file and does not fail, and the
instance has the slots of the entry. -/
theorem Restorable.register_ok {answers : RegisterAnswers} {res : Except Error Unit}
    (hclean : answers.IsClean)
    (h : register codec ino d q.2.instanceId (entryConfig cacheRoot request q) answers =
      some (res, d')) :
    res = .ok () ∧ d'.files = d.files ∧ ∃ live,
      d'.instances (instanceId (cacheKey q.1.digest)) = some live ∧
        Reopened codec ino cacheRoot request q.1 d.files live := by
  obtain ⟨layer, p⟩ := q
  obtain ⟨n, hp, hvalid, inst, len, hcached⟩ := hlayers.first hunit
  obtain rfl : p = preparedLayer cacheRoot layer n := hp
  cases hlive : d.instances (instanceId (cacheKey layer.digest)) with
  | some live =>
    obtain ⟨inst', len', -, hopened⟩ := hlayers.reopened _ List.mem_cons_self live hlive
    have hsame : live.inst.config.same (imageConfig cacheRoot request layer) = true := by
      rw [hopened.config_eq, InstanceConfig.same_refl]
    have hregister := (@register_existing codec ino d _ _ answers live hvalid hlive).trans
      (if_pos hsame)
    obtain ⟨rfl, rfl⟩ := Prod.mk.inj (Option.some.inj (hregister.symm.trans h))
    exact ⟨rfl, rfl, live, hlive, hlayers.reopened _ List.mem_cons_self live hlive⟩
  | none =>
    cases hcache : openCache codec ino (imageConfig cacheRoot request layer) answers.opening
        d.files with
    | none =>
      have hno : register codec ino d (instanceId (cacheKey layer.digest))
          (entryConfig cacheRoot request (layer, preparedLayer cacheRoot layer n)) answers =
            none := by
        have hcache' : openCache codec ino
          { entryConfig cacheRoot request (layer, preparedLayer cacheRoot layer n) with
            instanceId := instanceId (cacheKey layer.digest) } answers.opening d.files = none :=
          hcache
        have hunit' : validateFetchUnitBytes (entryConfig cacheRoot request
            (layer, preparedLayer cacheRoot layer n)).fetch.unitBytes.toNat = .ok () := hunit
        simp only [register, hvalid, hlive, openInstance, hunit', hcache']
      exact absurd (hno.symm.trans h) (by simp)
    | some opened =>
      obtain ⟨res', files'⟩ := opened
      obtain ⟨rfl, live, rfl⟩ := hcached.openCache_keeps rfl rfl rfl hclean.opening hcache
      have hregister := register_opened hvalid hlive hcache hclean.remote rfl
      obtain ⟨rfl, rfl⟩ := Prod.mk.inj (Option.some.inj (hregister.symm.trans h))
      exact ⟨rfl, rfl, live, Function.update_self _ _ _, inst, len, hcached,
        hcached.openCache_opened rfl rfl rfl hclean.opening hcache⟩

/-- The layers that are left can be registered after the first one. -/
theorem Restorable.tail {answers : RegisterAnswers} {res : Except Error Unit}
    (hclean : answers.IsClean)
    (h : register codec ino d q.2.instanceId (entryConfig cacheRoot request q) answers =
      some (res, d')) :
    Restorable codec ino cacheRoot request layers d' := by
  obtain ⟨-, hfiles, live, hlive, hreopened⟩ := hlayers.register_ok hunit hclean h
  refine ⟨fun q' hq' q'' hq'' => hlayers.oneBlob q' (List.mem_cons_of_mem _ hq') q''
      (List.mem_cons_of_mem _ hq''), fun q' hq' => hlayers.prepared q' (List.mem_cons_of_mem _ hq'),
    fun q' hq' => ?_, fun q' hq' live' hlive' => ?_⟩
  · rw [hfiles]
    exact hlayers.cached q' (List.mem_cons_of_mem _ hq')
  · rw [hfiles]
    by_cases hkey : cacheKey q'.1.digest = cacheKey q.1.digest
    · rw [hkey] at hlive'
      obtain rfl := Option.some.inj (hlive.symm.trans hlive')
      exact hreopened.sameLayer
        (hlayers.oneBlob q List.mem_cons_self q' (List.mem_cons_of_mem _ hq') hkey)
    · obtain ⟨n, -, hp⟩ := hlayers.prepared q List.mem_cons_self
      have hid : instanceId (cacheKey q'.1.digest) ≠ q.2.instanceId := by
        rw [hp]
        exact fun heq => hkey (instanceId_inj heq)
      rw [(Registers.of_register h).instances_of_ne hid] at hlive'
      exact hlayers.reopened q' (List.mem_cons_of_mem _ hq') live' hlive'

end Restored

/-- The layers that are in the cache can be registered. -/
theorem Restorable.exists_registerLayers
    {layers : List (PrepareLayerDescriptor × PreparedLayer)}
    (hunit : validateFetchUnitBytes request.fetch.unitBytes.toNat = .ok ())
    (hlayers : Restorable codec ino cacheRoot request layers d) :
    ∃ answers : List RegisterAnswers, (∀ a ∈ answers, a.IsClean) ∧ ∃ d',
      registerLayers codec ino cacheRoot request layers answers d = some (.ok (), d') := by
  induction layers generalizing d with
  | nil => exact ⟨[], fun a ha => absurd ha List.not_mem_nil, d, rfl⟩
  | cons q layers ih =>
    obtain ⟨a, ha, res, d₁, hfirst⟩ := hlayers.exists_register hunit
    obtain ⟨rfl, -⟩ := hlayers.register_ok hunit ha hfirst
    obtain ⟨answers, hclean, d', hrest⟩ := ih (hlayers.tail hunit ha hfirst)
    refine ⟨a :: answers, ?_, d', (registerLayers_cons_ok hfirst).trans hrest⟩
    intro b hb
    rcases List.mem_cons.mp hb with rfl | hmem
    · exact ha
    · exact hclean b hmem

/-- **The registration of layers that are in the cache** changes no file and does not fail, and each
instance has the slots of its entry. -/
theorem registerLayers_restores {layers : List (PrepareLayerDescriptor × PreparedLayer)}
    {answers : List RegisterAnswers} {res : Except Error Unit}
    (hunit : validateFetchUnitBytes request.fetch.unitBytes.toNat = .ok ())
    (hlayers : Restorable codec ino cacheRoot request layers d)
    (hclean : ∀ a ∈ answers, a.IsClean)
    (h : registerLayers codec ino cacheRoot request layers answers d = some (res, d')) :
    res = .ok () ∧ d'.files = d.files ∧ ∀ q ∈ layers, ∃ live,
      d'.instances (instanceId (cacheKey q.1.digest)) = some live ∧
        Reopened codec ino cacheRoot request q.1 d.files live := by
  induction layers generalizing answers d with
  | nil =>
    obtain ⟨rfl, rfl⟩ := Prod.mk.inj (Option.some.inj h)
    exact ⟨rfl, rfl, fun q hq => absurd hq List.not_mem_nil⟩
  | cons q layers ih =>
    have ha := RegisterAnswers.isClean_headD hclean
    obtain ⟨res₁, d₁, hfirst, hrest⟩ := registerLayers_cons h
    obtain ⟨rfl, hfiles, live, hlive, hreopened⟩ := hlayers.register_ok hunit ha hfirst
    rcases hrest with ⟨err, hno, -⟩ | ⟨-, hrest⟩
    · exact absurd hno (by simp)
    · obtain ⟨hres, hfiles', hinstances⟩ := ih (hlayers.tail hunit ha hfirst)
        (fun a ha => hclean a (List.mem_of_mem_tail ha)) hrest
      refine ⟨hres, hfiles'.trans hfiles, fun q' hq' => ?_⟩
      rcases List.mem_cons.mp hq' with rfl | hmem
      · exact ⟨live, registerLayers_instances_some hrest hlive, hreopened⟩
      · rw [← hfiles]
        exact hinstances q' hmem

/-! ### The preparation on a new daemon -/

/-- What the old daemon had ready, the new one has ready: where the environment does not fail, the
preparation succeeds and changes no file, and a call for a range that the old instance of a layer
had in full returns `Ok` after its first check on the new one, and does nothing else. -/
def Restores (codec : HeaderCodec) (ino : String → FileKey) (cacheRoot : String)
    (again : PrepareImageRequest) (d d₀ : Daemon) : Prop :=
  (∃ answers : ImageAnswers, answers.IsClean ∧ ∃ res d',
    prepareImage codec ino cacheRoot again answers d₀ = some (res, d')) ∧
  ∀ (answers : ImageAnswers) res d', answers.IsClean →
    prepareImage codec ino cacheRoot again answers d₀ = some (res, d') →
    (∃ prepared, res = .ok prepared) ∧ d'.files = d.files ∧
    ∀ layer ∈ again.layers, ∃ live live',
      d.instances (instanceId (cacheKey layer.digest)) = some live ∧
      d'.instances (instanceId (cacheKey layer.digest)) = some live' ∧
      live'.inst.target = live.inst.target ∧
      ∀ offset len, live.inst.Has live.slots offset len →
        live'.inst.tasks.solo (live'.shared d'.files.disk) .idle
          [.call (.ensureRange offset len), .check] =
            some (live'.shared d'.files.disk, .returned (.ensureRange offset len) .ok) ∧
        ∀ es s' call out, live'.inst.tasks.solo (live'.shared d'.files.disk) .idle
            (.call (.ensureRange offset len) :: es) = some (s', .returned call out) →
          es = [.check] ∧ s' = live'.shared d'.files.disk ∧ out = .ok

/-- The layers can be registered on a new daemon. -/
theorem restorable_start (hshares : SharesLayers request again)
    (hcached : ImageCached codec ino cacheRoot request d) {prepared : List PreparedLayer}
    (hprepared : List.Forall₂ (fun layer p => ∃ n, layerPmemSize again layer = .ok n ∧
      p = preparedLayer cacheRoot layer n) again.layers prepared)
    (fanotify : Option FanotifyBackend) :
    Restorable codec ino cacheRoot again (again.layers.zip prepared) (start d.files fanotify) := by
  have hmem : ∀ q ∈ again.layers.zip prepared, q.1 ∈ again.layers :=
    fun q hq => (List.of_mem_zip hq).1
  refine ⟨fun q hq q' hq' hkey => ?_, ?_, fun q hq => hshares.cached hcached q.1 (hmem q hq),
    fun q hq live hno => absurd hno (by simp [start])⟩
  · obtain ⟨layer, hlayer, hblob⟩ := hshares.layers q.1 (hmem q hq)
    obtain ⟨layer', hlayer', hblob'⟩ := hshares.layers q'.1 (hmem q' hq')
    rw [hblob.1, hblob'.1] at hkey
    have hone := hcached.oneBlob layer hlayer layer' hlayer' hkey
    exact (blob_eq_iff.mpr hblob').trans (hone.trans (blob_eq_iff.mpr hblob).symm)
  · rintro ⟨layer, p⟩ hq
    exact (List.forall₂_iff_zip.mp hprepared).2 hq

/-- A layer of the second request, on the old daemon and on the new one. -/
theorem restored_layer (hshares : SharesLayers request again)
    (hcached : ImageCached codec ino cacheRoot request d)
    (hopen : ImageOpen ino cacheRoot request d)
    (hlayer : layer ∈ again.layers) {live' : Live}
    (hreopened : Reopened codec ino cacheRoot again layer d.files live') :
    ∃ live, d.instances (instanceId (cacheKey layer.digest)) = some live ∧
      live'.inst.target = live.inst.target ∧
      live'.slots.length = live'.inst.rangeMap.slotCount ∧
      ∀ offset len, live.inst.Has live.slots offset len →
        live'.inst.Has live'.slots offset len := by
  obtain ⟨layer₀, hlayer₀, hblob⟩ := hshares.layers layer hlayer
  obtain ⟨live, hlive, hsame⟩ := hcached.registered layer₀ hlayer₀
  have hon := hopen layer₀ hlayer₀ live hlive
  obtain ⟨inst₀, len₀, hentry₀⟩ := hcached.cached layer₀ hlayer₀
  have hentry : Cached codec ino cacheRoot again layer live.inst len₀ d.files :=
    (cached_of_registered hentry₀ hsame hon.target_eq hon.file_eq).sameLayer
      (blob_eq_iff.mpr hblob) hshares.unitBytes hshares.alignmentBytes
  obtain ⟨inst, len, hcached', hopened⟩ := id hreopened
  have hmap : live.inst.rangeMap = live'.inst.rangeMap := by
    rw [hopened.rangeMap_eq]
    exact hentry.rangeMap_eq hcached'
  refine ⟨live, by rw [hblob.1]; exact hlive, ?_, ?_, fun offset n hhas => ?_⟩
  · rw [hopened.target_eq, ← hentry.on.target_eq]
    rfl
  · rw [hopened.slots_eq, length_entrySlots, hopened.rangeMap_eq]
  · exact hreopened.has hon.length_slots hon.recorded hmap hhas

/-- **A restart loses nothing that was ready.** A request is served on a daemon where its layers are
not registered, the instances of the layers are used in any way, and the daemon stops, in the middle
of any number of calls. A second request for layers of the first, with any reference and any
credentials, on a new daemon with the files that are left finds everything that was ready. -/
theorem restart_restores (hapart : CacheApart ino cacheRoot) {answers : ImageAnswers}
    {prepared : List PreparedLayer} {d₀ d₁ d₂ : Daemon}
    (hfree : ∀ layer ∈ request.layers, d₀.instances (instanceId (cacheKey layer.digest)) = none)
    (hfirst : prepareImage codec ino cacheRoot request answers d₀ = some (.ok prepared, d₁))
    (hbetween : Relation.ReflTransGen (BetweenStep ino cacheRoot request) d₁ d₂)
    (hshares : SharesLayers request again) (fanotify : Option FanotifyBackend) :
    Restores codec ino cacheRoot again d₂ (start d₂.files fanotify) := by
  obtain ⟨hcached, hopen⟩ : ImageCached codec ino cacheRoot request d₂ ∧
      ImageOpen ino cacheRoot request d₂ := by
    induction hbetween with
    | refl => exact ⟨(prepareImage_cached hapart hfirst).1, prepareImage_open hapart hfree hfirst⟩
    | tail _ hstep ih => exact ⟨between_cached hapart ih.1 hstep, between_open hapart ih.2 hstep⟩
  have hunit := validateFetchUnitBytes_shared hshares hcached
  constructor
  · obtain ⟨layerAnswers, hclean, prepared', hlayers⟩ :=
      exists_prepareLayers (hshares.cached hcached)
    obtain ⟨registerAnswers, hclean', d', hregister⟩ :=
      (restorable_start hshares hcached (prepareLayers_prepared hlayers)
        fanotify).exists_registerLayers hunit
    refine ⟨⟨layerAnswers, registerAnswers⟩, ⟨hclean, hclean'⟩, .ok prepared', d', ?_⟩
    have hprepare : prepareCacheLayers codec ino cacheRoot again again.layers layerAnswers
        (start d₂.files fanotify).files = some (.ok prepared', d₂.files) := by
      rw [prepareCacheLayers, hunit]
      exact hlayers
    rw [prepareImage, hprepare]
    dsimp only
    exact hregister ▸ rfl
  · intro answers' res d' hclean h
    rw [prepareImage, prepareCacheLayers, hunit] at h
    dsimp only at h
    split at h
    · exact absurd h (by simp)
    · rename_i hlayers
      obtain ⟨-, prepared', hno⟩ :=
        prepareLayers_keeps (hshares.cached hcached) hclean.layers hlayers
      exact absurd hno (by simp)
    · rename_i prepared' files hlayers
      obtain ⟨rfl, -⟩ := prepareLayers_keeps (hshares.cached hcached) hclean.layers hlayers
      have hall := prepareLayers_prepared hlayers
      have hregisters {res : Except Error Unit} {d' : Daemon}
          (hregister : registerLayers codec ino cacheRoot again (again.layers.zip prepared')
            answers'.registers (start d₂.files fanotify) = some (res, d')) :=
        registerLayers_restores hunit (restorable_start hshares hcached hall fanotify)
          hclean.registers hregister
      split at h
      · exact absurd h (by simp)
      · rename_i hregister
        exact absurd (hregisters hregister).1 (by simp)
      · rename_i hregister
        obtain ⟨rfl, rfl⟩ := Prod.mk.inj (Option.some.inj h)
        obtain ⟨-, hfiles, hlive⟩ := hregisters hregister
        refine ⟨⟨prepared', rfl⟩, hfiles, fun layer hlayer => ?_⟩
        obtain ⟨p, hq, -⟩ := exists_mem_zip hall hlayer
        obtain ⟨live', hlive', hreopened⟩ := hlive (layer, p) hq
        obtain ⟨live, hlive, htarget, hslots, hhas⟩ :=
          restored_layer hshares hcached hopen hlayer hreopened
        refine ⟨live, live', hlive, hlive', htarget, fun offset len hready =>
          ⟨Instance.ensureRange_check (s := live'.shared _) hslots (hhas offset len hready), ?_⟩⟩
        intro es s' call out hsolo
        exact Instance.ensureRange_of_has (s := live'.shared _) hslots (hhas offset len hready)
          hsolo

/-- The instance of `smallLayer`. -/
def smallLayerInstance : Instance :=
  openedInstance smallLayerConfig (smallSparse pathIno) (smallBitmap pathIno) (smallMap pathIno)
    (smallLayer_geometry pathIno)

theorem smallLayerInstance_fetches (disk : Disk) : ∃ disk',
    smallLayerInstance.tasks.solo ⟨disk, [0], []⟩ .idle
      (.call (.ensureRange 0 3) :: [.check, .reserve, .recheck] ++ smallFetch [7, 7, 7]) =
        some (⟨disk', [1], []⟩, .returned (.ensureRange 0 3) .ok) := ⟨_, rfl⟩

theorem smallImage_used {d : Daemon}
    (hlive : d.instances smallId = some ⟨smallLayerInstance, [0], []⟩) :
    ∃ d', BetweenStep pathIno "cache" smallImage d d' ∧
      d'.instances smallId = some ⟨smallLayerInstance, [1], []⟩ := by
  obtain ⟨disk, hfetch⟩ := smallLayerInstance_fetches d.files.disk
  have hrun : ∃ f ls, smallLayerInstance.tasks.Run (fun _ _ => True)
      ⟨⟨d.files.disk, [0], []⟩, fun _ : ℕ => .idle⟩ ls ⟨⟨disk, [1], []⟩, f⟩ :=
    ⟨_, _, .of_solo (t := 0) (TaskSystem.soloOk_true _ _ _) hfetch⟩
  obtain ⟨f, ls, hrun⟩ := hrun
  have htarget : smallLayerInstance.target = smallSparse pathIno := rfl
  have hfile : smallLayerInstance.rangeMap.file = smallBitmap pathIno := rfl
  have hlayer : smallLayer ∈ smallImage.layers := List.mem_cons_self
  have hid : instanceId (cacheKey smallLayer.digest) = smallId := rfl
  exact ⟨_, .use hlayer hlive htarget hfile hrun, by simp only [hid, Function.update_self]⟩

/-- The blob of `smallImage` has been fetched, and it is there after a restart. -/
theorem restart_restores_smallImage : ∃ prepared d₁ d₂ live,
    prepareImage headerJson pathIno "cache" smallImage {} emptyCache = some (.ok prepared, d₁) ∧
    d₂.instances smallId = some live ∧ live.inst.Has live.slots 0 3 ∧
    Restores headerJson pathIno "cache" secondImage d₂ (start d₂.files none) := by
  have hapart : CacheApart pathIno "cache" := cacheApart_of_injective pathIno_injective "cache"
  obtain ⟨live, f, -, hlive, hfirst⟩ := prepareImage_small (hapart.sparse_ne_bitmap _ _)
  obtain rfl : live = ⟨smallLayerInstance, [0], []⟩ := hlive.eq rfl rfl rfl
  obtain ⟨d₂, hused, hlive₂⟩ := smallImage_used
    (d := { emptyCache with
      files := smallCache pathIno f
      instances := Function.update emptyCache.instances smallId
        (some ⟨smallLayerInstance, [0], []⟩) }) (by simp only [Function.update_self])
  exact ⟨_, _, d₂, _, hfirst, hlive₂, (Instance.has_iff_isRangeReady rfl 0 3).mpr rfl,
    restart_restores hapart (fun _ _ => rfl) hfirst (.single hused) sharesLayers_secondImage none⟩

end Daemon

end Lazyd
