import Lazyd.Prepare.Again

/-!
# The cache entries that a preparation leaves behind

A preparation that succeeds leaves for each of its layers a sparse file of the right length, and a
bitmap file with the right header whose ready slots are data. Layers with one cache key share an
entry; that the registration of both has succeeded says that they are of one blob.

## Main definitions

* `Prepare.Cached` : the entry of a layer.
* `Prepare.OneBlob` : layers with one cache key are of one blob.

## Main results

* `Daemon.prepareImage_cached` : the entries and the instances after a preparation that succeeds.

Source: `src/prepare.rs`, lines 92–161; `src/control.rs`, lines 136–164; `src/instance.rs`, lines
139–158.
-/

namespace Lazyd

namespace Prepare

/-- The cache entry of a layer, as it was prepared for the request. -/
structure Cached (codec : HeaderCodec) (ino : String → FileKey) (cacheRoot : String)
    (request : PrepareImageRequest) (layer : PrepareLayerDescriptor) (inst : Instance) (len : ℕ)
    (files : Files) : Prop where
  size : layerPmemSize request layer = .ok len
  on : OnCache codec ino cacheRoot request layer inst len
    (headerBytes (files.disk inst.rangeMap.file))
  kept : Kept inst len (headerBytes (files.disk inst.rangeMap.file)) files

/-- The layers with one cache key are of one blob. -/
def OneBlob (layers : List PrepareLayerDescriptor) : Prop :=
  ∀ layer ∈ layers, ∀ layer' ∈ layers, cacheKey layer'.digest = cacheKey layer.digest →
    layer'.blob = layer.blob

variable {codec : HeaderCodec} {ino : String → FileKey} {cacheRoot : String}
  {request again : PrepareImageRequest} {layer layer' : PrepareLayerDescriptor} {inst : Instance}
  {len : ℕ} {files files' : Files}

theorem blob_eq_iff : layer'.blob = layer.blob ↔
    layer'.digest = layer.digest ∧ layer'.size = layer.size ∧
    layer'.mediaType = layer.mediaType := by
  rw [PrepareLayerDescriptor.blob, PrepareLayerDescriptor.blob, BlobDescriptor.mk.injEq,
    Option.some.injEq]

/-- The size of the sparse file is that of the blob and the alignment. -/
theorem layerPmemSize_congr {n : ℕ} (h : layerPmemSize request layer = .ok n)
    (hblob : layer'.blob = layer.blob)
    (halign : again.pmem.alignmentBytes = request.pmem.alignmentBytes) :
    layerPmemSize again layer' = .ok n := by
  obtain ⟨-, hsize, hmedia⟩ := blob_eq_iff.mp hblob
  rw [layerPmemSize] at h ⊢
  split_ifs at h with hno hzero
  rw [hmedia, hsize, halign, if_neg hno, if_neg hzero]
  exact h

/-- An entry serves every request for the blob with the same unit and the same alignment. -/
theorem Cached.sameLayer (h : Cached codec ino cacheRoot request layer inst len files)
    (hblob : layer'.blob = layer.blob) (hunit : again.fetch.unitBytes = request.fetch.unitBytes)
    (halign : again.pmem.alignmentBytes = request.pmem.alignmentBytes) :
    Cached codec ino cacheRoot again layer' inst len files := by
  obtain ⟨hdigest, hsize, -⟩ := blob_eq_iff.mp hblob
  exact ⟨layerPmemSize_congr h.size hblob halign, h.on.sameLayer h.size hdigest hsize hunit halign,
    h.kept⟩

/-- An entry whose files have not been touched. -/
theorem Cached.frame (h : Cached codec ino cacheRoot request layer inst len files)
    (htarget : files'.get inst.target = files.get inst.target)
    (hfile : files'.get inst.rangeMap.file = files.get inst.rangeMap.file) :
    Cached codec ino cacheRoot request layer inst len files' := by
  obtain ⟨hpresent, hdisk⟩ := files'.get_eq_some.mp
    (htarget.trans (files.get_eq_some.mpr ⟨h.kept.target_present, rfl⟩))
  obtain ⟨hpresent', hdisk'⟩ := files'.get_eq_some.mp
    (hfile.trans (files.get_eq_some.mpr ⟨h.kept.bitmap_present, rfl⟩))
  refine ⟨h.size, hdisk' ▸ h.on, hpresent, hpresent', ?_, rfl, ?_, fun k hk hbyte => ?_⟩
  · rw [hdisk]
    exact h.kept.target_len
  · rw [hdisk']
    exact h.kept.bitmap_len
  · rw [hdisk'] at hbyte
    have hdata := h.kept.allocated k hk hbyte
    rw [Instance.SlotAllocated] at hdata ⊢
    rwa [hdisk]

/-- A cache that has been opened for a layer is its entry. -/
theorem Cached.of_opensCache {config : InstanceConfig} {answers : OpenAnswers} {live : Live} {n : ℕ}
    (hapart : ∀ k k', ino (sparsePath cacheRoot k) ≠ ino (bitmapPath (sparsePath cacheRoot k')))
    (hcache : OpensCache codec ino config answers files (.ok live) files')
    (hpath : config.targetPath = sparsePath cacheRoot (cacheKey layer.digest))
    (hblob : config.blob = layer.blob) (hunit : config.fetch.unitBytes = request.fetch.unitBytes)
    (hsize : layerPmemSize request layer = .ok n) {f : File}
    (hf : files.get (ino (sparsePath cacheRoot (cacheKey layer.digest))) = some f)
    (hlen : f.len = n) (hlt : n < 2 ^ 63) :
    Cached codec ino cacheRoot request layer live.inst n files' := by
  obtain ⟨hconfig, htarget, hfile⟩ := hcache.inst_eq
  have hne : ino (sparsePath cacheRoot (cacheKey layer.digest)) ≠
      ino (bitmapPath config.targetPath) := by
    rw [hpath]
    exact hapart _ _
  have hget := hcache.get_of_ne hne
  rw [hf] at hget
  obtain ⟨hpresent, hdisk⟩ := files'.get_eq_some.mp hget
  have hdisklen : (files'.disk live.inst.target).len = n := by
    rw [htarget, hpath, hdisk]
    exact hlen
  have hstarted := hcache.started
  have hon : OnCache codec ino cacheRoot request layer live.inst
      (files'.disk live.inst.target).len (headerBytes (files'.disk live.inst.rangeMap.file)) := by
    refine onCache_of_started hapart hstarted (by rw [hconfig, hblob]) (by rw [hconfig, hunit])
      (by rw [htarget, hpath]) (by rw [hfile, hpath]) hsize ?_
    rw [htarget, hpath, hget]
    exact ⟨f, rfl, hlen.ge, hlen.trans_lt hlt⟩
  rw [hdisklen] at hon
  refine ⟨hsize, hon, ?_, ?_, hdisklen, rfl, hstarted.len, fun k hk hbyte => ?_⟩
  · rw [htarget, hpath]
    exact hpresent
  · rw [hfile]
    exact hcache.bitmap_present
  · exact hcache.allocated (by rw [hpath]; exact hapart _ _) hk hbyte

/-! ### The loop over the layers -/

/-- The preparation of a layer touches the two files of its entry only. -/
theorem PreparesLayer.get_of_ne {answers : LayerAnswers} {res : Except Error PreparedLayer}
    (h : PreparesLayer codec ino cacheRoot request layer answers files res files') {key : FileKey}
    (hsparse : key ≠ ino (sparsePath cacheRoot (cacheKey layer.digest)))
    (hbitmap : key ≠ ino (bitmapPath (sparsePath cacheRoot (cacheKey layer.digest)))) :
    files'.get key = files.get key := by
  cases h with
  | refused => rfl
  | notCreated => exact Files.put_get_of_ne _ _ hsparse
  | notOpened hsize hcreate hcache =>
    rw [(OpensCache.of_openCache hcache).get_of_ne hbitmap, Files.put_get_of_ne _ _ hsparse]
  | prepared hsize hcreate hcache =>
    rw [(OpensCache.of_openCache hcache).get_of_ne hbitmap, Files.put_get_of_ne _ _ hsparse]

/-- A layer that has been prepared has its entry. -/
theorem PreparesLayer.cached {answers : LayerAnswers} {p : PreparedLayer}
    (hapart : ∀ k k', ino (sparsePath cacheRoot k) ≠ ino (bitmapPath (sparsePath cacheRoot k')))
    (h : PreparesLayer codec ino cacheRoot request layer answers files (.ok p) files') :
    ∃ inst len, Cached codec ino cacheRoot request layer inst len files' ∧
      p = preparedLayer cacheRoot layer len := by
  cases h with
  | @prepared pmemSize f live files' hsize hcreate hcache =>
    obtain ⟨file, rfl, hlen, hlt⟩ := createSparseFile_ok hcreate
    exact ⟨live.inst, pmemSize, .of_opensCache hapart (OpensCache.of_openCache hcache) rfl rfl rfl
      hsize (files.put_get_self _ _) hlen hlt, rfl⟩

/-- The files of an entry belong to no other one. -/
theorem Cached.ne_of_cacheKey_ne (hapart : CacheApart ino cacheRoot)
    (h : Cached codec ino cacheRoot request layer inst len files)
    (hne : cacheKey layer.digest ≠ cacheKey layer'.digest) :
    (inst.target ≠ ino (sparsePath cacheRoot (cacheKey layer'.digest)) ∧
      inst.target ≠ ino (bitmapPath (sparsePath cacheRoot (cacheKey layer'.digest)))) ∧
    inst.rangeMap.file ≠ ino (sparsePath cacheRoot (cacheKey layer'.digest)) ∧
      inst.rangeMap.file ≠ ino (bitmapPath (sparsePath cacheRoot (cacheKey layer'.digest))) := by
  rw [← h.on.target_eq, ← h.on.file_eq]
  refine ⟨⟨fun heq => hne (hapart.sparse_inj _ _ heq), hapart.sparse_ne_bitmap _ _⟩,
    (hapart.sparse_ne_bitmap _ _).symm, fun heq => hne (hapart.bitmap_inj _ _ heq)⟩

/-- **The entries of the layers**: for each layer, the entry is that of a layer with its key. -/
theorem prepareLayers_cached {layers : List PrepareLayerDescriptor} {answers : List LayerAnswers}
    {prepared : List PreparedLayer} (hapart : CacheApart ino cacheRoot)
    (h : prepareLayers codec ino cacheRoot request layers answers files =
      some (.ok prepared, files')) :
    (∀ layer ∈ layers, ∃ layer' ∈ layers, cacheKey layer'.digest = cacheKey layer.digest ∧
      ∃ inst len, Cached codec ino cacheRoot request layer' inst len files') ∧
    ∀ layer inst len, (∀ layer' ∈ layers, cacheKey layer.digest ≠ cacheKey layer'.digest) →
      Cached codec ino cacheRoot request layer inst len files →
      Cached codec ino cacheRoot request layer inst len files' := by
  induction layers generalizing answers files prepared with
  | nil =>
    obtain ⟨-, rfl⟩ := Prod.mk.inj (Option.some.inj h)
    exact ⟨fun layer hlayer => absurd hlayer List.not_mem_nil, fun _ _ _ _ hcached => hcached⟩
  | cons first layers ih =>
    obtain ⟨p, rest, files₁, rfl, hfirst, hrest⟩ := prepareLayers_cons h
    obtain ⟨hlayers, hframe⟩ := ih hrest
    constructor
    · intro layer hlayer
      by_cases hlater : ∃ layer' ∈ layers, cacheKey layer'.digest = cacheKey layer.digest
      · obtain ⟨layer₁, hmem₁, hkey₁⟩ := hlater
        obtain ⟨layer₂, hmem₂, hkey₂, hcached⟩ := hlayers layer₁ hmem₁
        exact ⟨layer₂, List.mem_cons_of_mem _ hmem₂, hkey₂.trans hkey₁, hcached⟩
      · -- the entry is not touched again
        have hlast : ∀ layer' ∈ layers, cacheKey layer.digest ≠ cacheKey layer'.digest :=
          fun layer' hmem heq => hlater ⟨layer', hmem, heq.symm⟩
        rcases List.mem_cons.mp hlayer with rfl | hmem
        · obtain ⟨inst, len, hcached, -⟩ := hfirst.cached hapart.sparse_ne_bitmap
          exact ⟨layer, List.mem_cons_self, rfl, inst, len, hframe layer inst len hlast hcached⟩
        · exact absurd rfl (hlast layer hmem)
    · intro layer inst len hlast hcached
      obtain ⟨htarget, hfile⟩ := hcached.ne_of_cacheKey_ne hapart (hlast first List.mem_cons_self)
      refine hframe layer inst len
        (fun layer' hmem => hlast layer' (List.mem_cons_of_mem _ hmem)) ?_
      exact hcached.frame (hfirst.get_of_ne htarget.1 htarget.2) (hfirst.get_of_ne hfile.1 hfile.2)

/-- The answers for the layers. -/
theorem prepareLayers_prepared {layers : List PrepareLayerDescriptor} {answers : List LayerAnswers}
    {prepared : List PreparedLayer}
    (h : prepareLayers codec ino cacheRoot request layers answers files =
      some (.ok prepared, files')) :
    List.Forall₂ (fun layer p => ∃ n, layerPmemSize request layer = .ok n ∧
      p = preparedLayer cacheRoot layer n) layers prepared := by
  induction layers generalizing answers files prepared with
  | nil =>
    obtain ⟨hprepared, -⟩ := Prod.mk.inj (Option.some.inj h)
    obtain rfl := Except.ok.inj hprepared
    exact .nil
  | cons first layers ih =>
    obtain ⟨p, rest, files₁, rfl, hfirst, hrest⟩ := prepareLayers_cons h
    refine .cons ?_ (ih hrest)
    cases hfirst with
    | prepared hsize => exact ⟨_, hsize, rfl⟩

theorem exists_mem_zip {α β : Type*} {R : α → β → Prop} {as : List α} {bs : List β}
    (h : List.Forall₂ R as bs) {a : α} (ha : a ∈ as) : ∃ b, (a, b) ∈ as.zip bs ∧ R a b := by
  induction h with
  | nil => exact absurd ha List.not_mem_nil
  | @cons a' b as bs hab _ ih =>
    rcases List.mem_cons.mp ha with rfl | hmem
    · exact ⟨b, List.mem_cons_self, hab⟩
    · obtain ⟨b', hb', hR⟩ := ih hmem
      exact ⟨b', List.mem_cons_of_mem _ hb', hR⟩

end Prepare

namespace Daemon

open Prepare

variable {codec : HeaderCodec} {ino : String → FileKey} {cacheRoot : String}
  {request : PrepareImageRequest} {layer : PrepareLayerDescriptor} {d d' : Daemon}

/-- The configuration of the instance of a layer. -/
def imageConfig (cacheRoot : String) (request : PrepareImageRequest)
    (layer : PrepareLayerDescriptor) : InstanceConfig :=
  { layerConfig cacheRoot request layer with instanceId := instanceId (cacheKey layer.digest) }

/-- The instance of a layer is registered, with the configuration of the request. -/
def RegisteredFor (cacheRoot : String) (request : PrepareImageRequest)
    (layer : PrepareLayerDescriptor) (d : Daemon) : Prop :=
  ∃ live, d.instances (instanceId (cacheKey layer.digest)) = some live ∧
    live.inst.config.same (imageConfig cacheRoot request layer) = true

/-! ### The registration of the layers -/

/-- Every layer that has been registered has its instance. -/
theorem registerLayers_registered {layers : List (PrepareLayerDescriptor × PreparedLayer)}
    {answers : List RegisterAnswers}
    (hprepared : ∀ q ∈ layers, ∃ n, q.2 = preparedLayer cacheRoot q.1 n)
    (h : registerLayers codec ino cacheRoot request layers answers d = some (.ok (), d')) :
    ∀ q ∈ layers, RegisteredFor cacheRoot request q.1 d' := by
  induction layers generalizing answers d with
  | nil => exact fun q hq => absurd hq List.not_mem_nil
  | cons first layers ih =>
    obtain ⟨res₁, d₁, hfirst, ⟨err, -, hno, -⟩ | ⟨rfl, hrest⟩⟩ := registerLayers_cons h
    · exact absurd hno (by simp)
    · intro q hq
      rcases List.mem_cons.mp hq with rfl | hmem
      · obtain ⟨n, hn⟩ := hprepared q List.mem_cons_self
        obtain ⟨live, hlive, hsame⟩ := register_ok_same hfirst
        rw [entryConfig, hn] at hsame
        rw [hn] at hlive
        exact ⟨live, registerLayers_instances_some hrest hlive, hsame⟩
      · exact ih (fun q hq => hprepared q (List.mem_cons_of_mem _ hq)) hrest q hmem

theorem oneBlob_of_registered {layers : List PrepareLayerDescriptor}
    (h : ∀ layer ∈ layers, RegisteredFor cacheRoot request layer d) : OneBlob layers := by
  intro layer hlayer layer' hlayer' hkey
  obtain ⟨live, hlive, hsame⟩ := h layer hlayer
  obtain ⟨live', hlive', hsame'⟩ := h layer' hlayer'
  rw [hkey] at hlive'
  obtain rfl := Option.some.inj (hlive.symm.trans hlive')
  have hblob := (InstanceConfig.same_blob_fetch hsame).1
  have hblob' := (InstanceConfig.same_blob_fetch hsame').1
  exact hblob'.symm.trans hblob

/-- The registration of a layer keeps the entries. -/
theorem register_cached {p : PreparedLayer} {layer' : PrepareLayerDescriptor}
    {answers : RegisterAnswers} (hapart : CacheApart ino cacheRoot)
    (hp : ∃ n, p = preparedLayer cacheRoot layer' n)
    (hblob : cacheKey layer'.digest = cacheKey layer.digest → layer'.blob = layer.blob)
    (hcached : ∃ inst len, Cached codec ino cacheRoot request layer inst len d.files)
    (h : register codec ino d p.instanceId (entryConfig cacheRoot request (layer', p)) answers =
      some (.ok (), d')) :
    ∃ inst len, Cached codec ino cacheRoot request layer inst len d'.files := by
  obtain ⟨inst, len, hcached⟩ := hcached
  obtain ⟨n, rfl⟩ := hp
  have hregisters := Registers.of_register h
  by_cases hkey : cacheKey layer.digest = cacheKey layer'.digest
  · have hblob := hblob hkey.symm
    cases hregisters with
    | unchanged => exact ⟨inst, len, hcached⟩
    | @registered live files d₁ hfree hopen hmark =>
      have hsize : layerPmemSize request layer' = .ok len :=
        layerPmemSize_congr hcached.size hblob rfl
      have hget : d.files.get (ino (sparsePath cacheRoot (cacheKey layer'.digest))) =
          some (d.files.disk inst.target) := by
        rw [← hkey, hcached.on.target_eq]
        exact d.files.get_eq_some.mpr ⟨hcached.kept.target_present, rfl⟩
      have hopened : Cached codec ino cacheRoot request layer' live.inst len files :=
        .of_opensCache hapart.sparse_ne_bitmap (openInstance_ok hopen) rfl rfl rfl hsize hget
          hcached.kept.target_len hcached.on.len_lt
      have hfiles : d₁.files = files := (markTarget_files hmark).1
      refine ⟨live.inst, len, ?_⟩
      change Cached codec ino cacheRoot request layer live.inst len d₁.files
      rw [hfiles]
      exact hopened.sameLayer hblob.symm rfl rfl
  · obtain ⟨htarget, hfile⟩ := hcached.ne_of_cacheKey_ne hapart hkey
    exact ⟨inst, len, hcached.frame (hregisters.get_of_ne htarget.2) (hregisters.get_of_ne hfile.2)⟩

theorem registerLayers_cached {layers : List (PrepareLayerDescriptor × PreparedLayer)}
    {answers : List RegisterAnswers} (hapart : CacheApart ino cacheRoot)
    (hprepared : ∀ q ∈ layers, ∃ n, q.2 = preparedLayer cacheRoot q.1 n)
    (hblob : ∀ q ∈ layers, cacheKey q.1.digest = cacheKey layer.digest → q.1.blob = layer.blob)
    (hcached : ∃ inst len, Cached codec ino cacheRoot request layer inst len d.files)
    (h : registerLayers codec ino cacheRoot request layers answers d = some (.ok (), d')) :
    ∃ inst len, Cached codec ino cacheRoot request layer inst len d'.files := by
  induction layers generalizing answers d with
  | nil =>
    obtain ⟨-, rfl⟩ := Prod.mk.inj (Option.some.inj h)
    exact hcached
  | cons first layers ih =>
    obtain ⟨res₁, d₁, hfirst, ⟨err, -, hno, -⟩ | ⟨rfl, hrest⟩⟩ := registerLayers_cons h
    · exact absurd hno (by simp)
    · have hkept : ∃ inst len, Cached codec ino cacheRoot request layer inst len d₁.files :=
        register_cached hapart (hprepared first List.mem_cons_self)
          (hblob first List.mem_cons_self) hcached hfirst
      exact ih (fun q hq => hprepared q (List.mem_cons_of_mem _ hq))
        (fun q hq => hblob q (List.mem_cons_of_mem _ hq)) hkept hrest

/-- What a preparation that succeeds leaves behind. -/
structure ImageCached (codec : HeaderCodec) (ino : String → FileKey) (cacheRoot : String)
    (request : PrepareImageRequest) (d : Daemon) : Prop where
  unit : validateFetchUnitBytes request.fetch.unitBytes.toNat = .ok ()
  oneBlob : OneBlob request.layers
  registered : ∀ layer ∈ request.layers, RegisteredFor cacheRoot request layer d
  cached : ∀ layer ∈ request.layers,
    ∃ inst len, Cached codec ino cacheRoot request layer inst len d.files

/-- **The layers after a preparation that succeeds.** -/
theorem prepareImage_cached {answers : ImageAnswers} {prepared : List PreparedLayer}
    (hapart : CacheApart ino cacheRoot)
    (h : prepareImage codec ino cacheRoot request answers d = some (.ok prepared, d')) :
    ImageCached codec ino cacheRoot request d' ∧
      List.Forall₂ (fun layer p => ∃ n, layerPmemSize request layer = .ok n ∧
        p = preparedLayer cacheRoot layer n) request.layers prepared := by
  rw [prepareImage] at h
  split at h
  · exact absurd h (by simp)
  · exact absurd h (by simp)
  · rename_i prepared' files hprepare
    split at h
    · exact absurd h (by simp)
    · exact absurd h (by simp)
    · rename_i d₁ hregister
      obtain ⟨hprepared, rfl⟩ := Prod.mk.inj (Option.some.inj h)
      obtain rfl := Except.ok.inj hprepared
      rw [prepareCacheLayers] at hprepare
      split at hprepare
      · exact absurd hprepare (by simp)
      · rename_i hunit
        have hall := prepareLayers_prepared hprepare
        have hzip : ∀ q ∈ request.layers.zip prepared',
            ∃ n, q.2 = preparedLayer cacheRoot q.1 n := by
          rintro ⟨layer, p⟩ hq
          obtain ⟨n, -, hn⟩ := (List.forall₂_iff_zip.mp hall).2 hq
          exact ⟨n, hn⟩
        have hregistered : ∀ layer ∈ request.layers, RegisteredFor cacheRoot request layer d₁ := by
          intro layer hlayer
          obtain ⟨p, hq, -⟩ := exists_mem_zip hall hlayer
          exact registerLayers_registered hzip hregister (layer, p) hq
        have honeBlob := oneBlob_of_registered hregistered
        refine ⟨⟨hunit, honeBlob, hregistered, fun layer hlayer => ?_⟩, hall⟩
        obtain ⟨layer', hlayer', hkey, inst, len, hcached⟩ :=
          (prepareLayers_cached hapart hprepare).1 layer hlayer
        have hblob := honeBlob layer' hlayer' layer hlayer hkey.symm
        refine registerLayers_cached hapart hzip (fun q hq hkey' => ?_)
          ⟨inst, len, hcached.sameLayer hblob rfl rfl⟩ hregister
        exact honeBlob layer hlayer q.1 (List.of_mem_zip hq).1 hkey'

end Daemon

end Lazyd
