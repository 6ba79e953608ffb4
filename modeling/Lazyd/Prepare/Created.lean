import Lazyd.Prepare.Paths

/-!
# The instances that `prepare_image` creates

`prepare_image` makes the sparse files of all the layers before it registers the first of them. When
an instance is registered, the sparse file of its layer is there with at least the length that was
computed for the layer: what has been done to other layers since has not made it shorter.

## Main definitions

* `Prepare.LongEnough` : a file of at least so many bytes, whose length is an `off_t`.
* `Daemon.InsertsLayer` : the point of `prepare_image` at which an instance has been created.

## Main results

* `Daemon.prepareImage_inserts` : every instance that `prepare_image` adds is created at such a
  point.
* `Daemon.InsertsLayer.created` : the files of the instance at that point.

Source: `src/prepare.rs`, lines 92–161; `src/control.rs`, lines 136–164.
-/

namespace Lazyd

namespace Prepare

/-- A file of at least `n` bytes, whose length is an `off_t`. -/
def LongEnough (n : ℕ) (f : Option File) : Prop := ∃ file ∈ f, n ≤ file.len ∧ file.len < 2 ^ 63

variable {codec : HeaderCodec} {ino : String → FileKey} {cacheRoot : String}
  {request : PrepareImageRequest}

theorem alignUp_ok {value alignment n : ℕ} (h : alignUp value alignment = .ok n) : value ≤ n := by
  rw [alignUp] at h
  split_ifs at h with hzero
  split at h
  · rename_i sum hsum
    obtain ⟨rfl, hlt⟩ := U64.checkedAdd_eq_some.mp hsum
    obtain rfl := Except.ok.inj h
    have hmod := Nat.div_add_mod (value + (alignment - 1)) alignment
    have hrest := Nat.mod_lt (value + (alignment - 1)) (Nat.pos_of_ne_zero hzero)
    rw [Nat.mul_comm] at hmod
    rw [U64.mul_eq (by omega)]
    omega
  · exact absurd h (by simp)

theorem layerPmemSize_ok {layer : PrepareLayerDescriptor} {n : ℕ}
    (h : layerPmemSize request layer = .ok n) :
    alignUp layer.size.toNat request.pmem.alignmentBytes.toNat = .ok n := by
  rw [layerPmemSize] at h
  split_ifs at h
  exact h

/-- Creating a sparse file does not make it shorter, if it finds out that the file is there. -/
theorem createSparseFile_longEnough {path : String} {len n : ℕ} {faults : SparseFaults}
    {old f : Option File} (hstat : faults.stat = none)
    (h : createSparseFile path len faults old = (.ok (), f)) (hold : LongEnough n old) :
    LongEnough n f := by
  obtain ⟨file, hfile, hle, -⟩ := hold
  obtain rfl := Option.mem_def.mp hfile
  cases CreatesSparse.of_createSparseFile h with
  | resized hlen hshort =>
    refine ⟨_, rfl, hle.trans ?_, hlen⟩
    rw [hstat] at hshort
    exact (hshort.resolve_left (by simp)).le
  | kept hlen hsame => exact ⟨_, rfl, hle, hsame.trans_lt hlen⟩

/-- What the preparation of a layer leaves of another layer's sparse file. -/
theorem PreparesLayer.longEnough {layer : PrepareLayerDescriptor} {answers : LayerAnswers}
    {files files' : Files} {p : PreparedLayer} (hstat : answers.sparse.stat = none)
    (h : PreparesLayer codec ino cacheRoot request layer answers files (.ok p) files')
    {key : FileKey} (hkey : ∀ k, key ≠ ino (bitmapPath (sparsePath cacheRoot k))) {n : ℕ}
    (hlong : LongEnough n (files.get key)) : LongEnough n (files'.get key) := by
  cases h with
  | @prepared pmemSize f live files' hsize hsparse hcache =>
    rw [(OpensCache.of_openCache hcache).get_of_ne (hkey _)]
    by_cases hsame : key = ino (sparsePath cacheRoot (cacheKey layer.digest))
    · subst hsame
      obtain ⟨file, rfl, -⟩ := createSparseFile_ok hsparse
      rw [Files.put_get_self]
      exact createSparseFile_longEnough hstat hsparse hlong
    · rw [Files.put_get_of_ne _ _ hsame]
      exact hlong

/-- A layer that has been prepared has its sparse file. -/
theorem PreparesLayer.longEnough_self {layer : PrepareLayerDescriptor} {answers : LayerAnswers}
    {files files' : Files} {p : PreparedLayer}
    (hapart : ∀ k k', ino (sparsePath cacheRoot k) ≠ ino (bitmapPath (sparsePath cacheRoot k')))
    (h : PreparesLayer codec ino cacheRoot request layer answers files (.ok p) files') :
    ∃ n, layerPmemSize request layer = .ok n ∧ p = preparedLayer cacheRoot layer n ∧
      LongEnough n (files'.get (ino (sparsePath cacheRoot (cacheKey layer.digest)))) := by
  cases h with
  | @prepared pmemSize f live files' hsize hsparse hcache =>
    refine ⟨pmemSize, hsize, rfl, ?_⟩
    obtain ⟨file, rfl, hlen, hlt⟩ := createSparseFile_ok hsparse
    rw [(OpensCache.of_openCache hcache).get_of_ne (hapart _ _), Files.put_get_self]
    exact ⟨file, rfl, hlen.ge, hlen.trans_lt hlt⟩

/-- The preparation of one layer after the other. -/
theorem prepareLayers_cons {layer : PrepareLayerDescriptor} {layers : List PrepareLayerDescriptor}
    {answers : List LayerAnswers} {files files' : Files} {prepared : List PreparedLayer}
    (h : prepareLayers codec ino cacheRoot request (layer :: layers) answers files =
      some (.ok prepared, files')) :
    ∃ p rest files₁, prepared = p :: rest ∧
      PreparesLayer codec ino cacheRoot request layer (answers.headD {}) files (.ok p) files₁ ∧
      prepareLayers codec ino cacheRoot request layers answers.tail files₁ =
        some (.ok rest, files') := by
  rw [prepareLayers] at h
  split at h
  · exact absurd h (by simp)
  · exact absurd h (by simp)
  · rename_i p files₁ hlayer
    split at h
    · exact absurd h (by simp)
    · exact absurd h (by simp)
    · rename_i rest files₂ hrest
      obtain ⟨hprepared, rfl⟩ := Prod.mk.inj (Option.some.inj h)
      exact ⟨p, rest, files₁, (Except.ok.inj hprepared).symm, .of_prepareLayer hlayer, hrest⟩

theorem headD_stat {answers : List LayerAnswers} (h : ∀ a ∈ answers, a.sparse.stat = none) :
    (answers.headD {}).sparse.stat = none := by
  cases answers with
  | nil => rfl
  | cons a answers => exact h a List.mem_cons_self

theorem prepareLayers_longEnough {layers : List PrepareLayerDescriptor}
    {answers : List LayerAnswers} {files files' : Files} {prepared : List PreparedLayer}
    (hstat : ∀ a ∈ answers, a.sparse.stat = none)
    (h : prepareLayers codec ino cacheRoot request layers answers files =
      some (.ok prepared, files'))
    {key : FileKey} (hkey : ∀ k, key ≠ ino (bitmapPath (sparsePath cacheRoot k))) {n : ℕ}
    (hlong : LongEnough n (files.get key)) : LongEnough n (files'.get key) := by
  induction layers generalizing answers files prepared with
  | nil =>
    obtain ⟨-, rfl⟩ := Prod.mk.inj (Option.some.inj h)
    exact hlong
  | cons layer layers ih =>
    obtain ⟨p, rest, files₁, rfl, hlayer, hrest⟩ := prepareLayers_cons h
    exact ih (fun a ha => hstat a (List.mem_of_mem_tail ha)) hrest
      (hlayer.longEnough (headD_stat hstat) hkey hlong)

/-- **The sparse files of the layers**, once all of them have been prepared. -/
theorem prepareLayers_sparse {layers : List PrepareLayerDescriptor} {answers : List LayerAnswers}
    {files files' : Files} {prepared : List PreparedLayer}
    (hapart : ∀ k k', ino (sparsePath cacheRoot k) ≠ ino (bitmapPath (sparsePath cacheRoot k')))
    (hstat : ∀ a ∈ answers, a.sparse.stat = none)
    (h : prepareLayers codec ino cacheRoot request layers answers files =
      some (.ok prepared, files')) :
    ∀ q ∈ layers.zip prepared, ∃ n, layerPmemSize request q.1 = .ok n ∧
      q.2 = preparedLayer cacheRoot q.1 n ∧
      LongEnough n (files'.get (ino (sparsePath cacheRoot (cacheKey q.1.digest)))) := by
  induction layers generalizing answers files prepared with
  | nil => exact fun q hq => absurd hq List.not_mem_nil
  | cons layer layers ih =>
    obtain ⟨p, rest, files₁, rfl, hlayer, hrest⟩ := prepareLayers_cons h
    have htail : ∀ a ∈ answers.tail, a.sparse.stat = none :=
      fun a ha => hstat a (List.mem_of_mem_tail ha)
    intro q hq
    rw [List.zip_cons_cons, List.mem_cons] at hq
    rcases hq with rfl | hq
    · obtain ⟨n, hsize, hp, hlong⟩ := hlayer.longEnough_self hapart
      exact ⟨n, hsize, hp, prepareLayers_longEnough htail hrest (hapart _) hlong⟩
    · exact ih htail hrest q hq

theorem createSparseFile_new {path : String} {len : ℕ} (h : len < 2 ^ 63) :
    createSparseFile path len {} none = (.ok (), some (newFile.setLen len)) := by
  have hnew : ¬ 2 ^ 63 ≤ newFile.len := by decide
  simp only [createSparseFile, Option.getD_none, metadataLen, setFileLen, unlessFault, if_neg hnew,
    if_neg (not_le.mpr h), Option.isSome_none, Bool.and_false, true_or, ↓reduceIte]

/-- A layer whose files are not there yet. -/
theorem prepareLayer_new {layer : PrepareLayerDescriptor} {files : Files} {n : ℕ} {m : RangeMap}
    {buf : List UInt8} (hsize : layerPmemSize request layer = .ok n) (hlt : n < 2 ^ 63)
    (hm : RangeMap.geometry (ino (bitmapPath (sparsePath cacheRoot (cacheKey layer.digest))))
      layer.blob.size request.fetch.unitBytes = .ok m)
    (hbuf : encodeHeader codec (expectedHeader layer.blob request.fetch.unitBytes m.slotCount) =
      .ok buf)
    (hne : ino (sparsePath cacheRoot (cacheKey layer.digest)) ≠
      ino (bitmapPath (sparsePath cacheRoot (cacheKey layer.digest))))
    (hsparse : files.get (ino (sparsePath cacheRoot (cacheKey layer.digest))) = none)
    (hbitmap : files.get (ino (bitmapPath (sparsePath cacheRoot (cacheKey layer.digest)))) = none) :
    prepareLayer codec ino cacheRoot request layer {} files =
      some (.ok (preparedLayer cacheRoot layer n),
        (files.put (ino (sparsePath cacheRoot (cacheKey layer.digest)))
          (some (newFile.setLen n))).put
          (ino (bitmapPath (sparsePath cacheRoot (cacheKey layer.digest))))
          (some (resetFile newFile m.slotCount buf headerSize m.slotCount))) := by
  have hcreate : createSparseFile (sparsePath cacheRoot (cacheKey layer.digest)) n
      ({} : LayerAnswers).sparse
      (files.get (ino (sparsePath cacheRoot (cacheKey layer.digest)))) =
        (.ok (), some (newFile.setLen n)) := by
    rw [hsparse]
    exact createSparseFile_new hlt
  obtain ⟨live, hcache, -⟩ := @openCache_new codec ino (layerConfig cacheRoot request layer)
    (files.put (ino (sparsePath cacheRoot (cacheKey layer.digest))) (some (newFile.setLen n))) m buf
    hm hbuf (Files.put_present_self _ _ _) ((Files.put_get_of_ne _ _ hne.symm).trans hbitmap)
  exact prepareLayer_of_ok hsize rfl hcreate hcache

end Prepare

namespace Daemon

variable {codec : HeaderCodec} {ino : String → FileKey} {cacheRoot : String}
  {request : PrepareImageRequest}

/-- The configuration that a layer is registered with. -/
def entryConfig (cacheRoot : String) (request : PrepareImageRequest)
    (q : PrepareLayerDescriptor × PreparedLayer) : InstanceConfig :=
  { Prepare.layerConfig cacheRoot request q.1 with targetPath := q.2.sparsePath }

/-- The point of `prepare_image` at which `live` has been created for a layer and registered: all
the layers have been prepared, and the ones before the layer have been registered. -/
inductive InsertsLayer (codec : HeaderCodec) (ino : String → FileKey) (cacheRoot : String)
    (request : PrepareImageRequest) (answers : ImageAnswers) (d : Daemon) :
    PrepareLayerDescriptor → Live → Daemon → Prop
  | intro {prepared : List PreparedLayer} {files : Files}
      {done rest : List (PrepareLayerDescriptor × PreparedLayer)}
      {q : PrepareLayerDescriptor × PreparedLayer} {d₁ d' : Daemon} {live : Live}
      (hprepare : Prepare.prepareCacheLayers codec ino cacheRoot request request.layers
        answers.layers d.files = some (.ok prepared, files))
      (hsplit : request.layers.zip prepared = done ++ q :: rest)
      (hdone : registerLayers codec ino cacheRoot request done answers.registers
        { d with files } = some (.ok (), d₁))
      (hfree : d₁.instances q.2.instanceId = none)
      (hregister : register codec ino d₁ q.2.instanceId (entryConfig cacheRoot request q)
        ((answers.registers.drop done.length).headD {}) = some (.ok (), d'))
      (hlive : d'.instances q.2.instanceId = some live) :
      InsertsLayer codec ino cacheRoot request answers d q.1 live d'

/-! ### Registering the layers -/

/-- Registering the first of the layers, and then the others. -/
theorem registerLayers_cons {q : PrepareLayerDescriptor × PreparedLayer}
    {layers : List (PrepareLayerDescriptor × PreparedLayer)} {answers : List RegisterAnswers}
    {d d' : Daemon} {res : Except Error Unit}
    (h : registerLayers codec ino cacheRoot request (q :: layers) answers d = some (res, d')) :
    ∃ res₁ d₁, register codec ino d q.2.instanceId (entryConfig cacheRoot request q)
        (answers.headD {}) = some (res₁, d₁) ∧
      ((∃ err, res₁ = .error err ∧ res = .error err ∧ d' = d₁) ∨
        res₁ = .ok () ∧
          registerLayers codec ino cacheRoot request layers answers.tail d₁ = some (res, d')) := by
  rw [registerLayers] at h
  split at h
  · exact absurd h (by simp)
  · rename_i hfirst
    obtain ⟨rfl, rfl⟩ := Prod.mk.inj (Option.some.inj h)
    exact ⟨_, _, hfirst, Or.inl ⟨_, rfl, rfl, rfl⟩⟩
  · rename_i hfirst
    exact ⟨_, _, hfirst, Or.inr ⟨rfl, h⟩⟩

theorem registerLayers_cons_ok {q : PrepareLayerDescriptor × PreparedLayer}
    {layers : List (PrepareLayerDescriptor × PreparedLayer)} {answers : List RegisterAnswers}
    {d d₁ : Daemon} (h : register codec ino d q.2.instanceId (entryConfig cacheRoot request q)
      (answers.headD {}) = some (.ok (), d₁)) :
    registerLayers codec ino cacheRoot request (q :: layers) answers d =
      registerLayers codec ino cacheRoot request layers answers.tail d₁ := by
  obtain ⟨layer, p⟩ := q
  have hfirst : register codec ino d p.instanceId
      { Prepare.layerConfig cacheRoot request layer with targetPath := p.sparsePath }
      (answers.headD {}) = some (.ok (), d₁) := h
  simp only [registerLayers, hfirst]

theorem registerLayers_cons_error {q : PrepareLayerDescriptor × PreparedLayer}
    {layers : List (PrepareLayerDescriptor × PreparedLayer)} {answers : List RegisterAnswers}
    {d d₁ : Daemon} {err : Error}
    (h : register codec ino d q.2.instanceId (entryConfig cacheRoot request q)
      (answers.headD {}) = some (.error err, d₁)) :
    registerLayers codec ino cacheRoot request (q :: layers) answers d =
      some (.error err, d₁) := by
  obtain ⟨layer, p⟩ := q
  have hfirst : register codec ino d p.instanceId
      { Prepare.layerConfig cacheRoot request layer with targetPath := p.sparsePath }
      (answers.headD {}) = some (.error err, d₁) := h
  simp only [registerLayers, hfirst]

/-- The preparation fails where a layer is not registered. -/
theorem prepareImage_register_error {d d' : Daemon} {answers : ImageAnswers}
    {prepared : List PreparedLayer} {files : Files} {err : Error}
    (hprepare : Prepare.prepareCacheLayers codec ino cacheRoot request request.layers answers.layers
      d.files = some (.ok prepared, files))
    (hregister : registerLayers codec ino cacheRoot request (request.layers.zip prepared)
      answers.registers { d with files } = some (.error err, d')) :
    prepareImage codec ino cacheRoot request answers d = some (.error err, d') := by
  simp only [prepareImage, hprepare, hregister]

theorem registerLayers_instances_some {layers : List (PrepareLayerDescriptor × PreparedLayer)}
    {answers : List RegisterAnswers} {d d' : Daemon} {res : Except Error Unit}
    (h : registerLayers codec ino cacheRoot request layers answers d = some (res, d')) {id : String}
    {live : Live} (hid : d.instances id = some live) : d'.instances id = some live := by
  induction layers generalizing answers d with
  | nil =>
    obtain ⟨-, rfl⟩ := Prod.mk.inj (Option.some.inj h)
    exact hid
  | cons q layers ih =>
    obtain ⟨res₁, d₁, hfirst, ⟨err, -, -, rfl⟩ | ⟨-, hrest⟩⟩ := registerLayers_cons h
    · exact (Registers.of_register hfirst).instances_some hid
    · exact ih hrest ((Registers.of_register hfirst).instances_some hid)

theorem registerLayers_get_of_ne {layers : List (PrepareLayerDescriptor × PreparedLayer)}
    {answers : List RegisterAnswers} {d d' : Daemon} {res : Except Error Unit}
    (h : registerLayers codec ino cacheRoot request layers answers d = some (res, d'))
    {key : FileKey} (hkey : ∀ q ∈ layers, key ≠ ino (bitmapPath q.2.sparsePath)) :
    d'.files.get key = d.files.get key := by
  induction layers generalizing answers d with
  | nil =>
    obtain ⟨-, rfl⟩ := Prod.mk.inj (Option.some.inj h)
    rfl
  | cons q layers ih =>
    obtain ⟨res₁, d₁, hfirst, hrest⟩ := registerLayers_cons h
    have hget : d₁.files.get key = d.files.get key :=
      (Registers.of_register hfirst).get_of_ne (hkey q List.mem_cons_self)
    rcases hrest with ⟨err, -, -, rfl⟩ | ⟨-, hrest⟩
    · exact hget
    · exact (ih hrest fun q hq => hkey q (List.mem_cons_of_mem _ hq)).trans hget

/-- An instance that has been registered with the layers has been registered with one of them. -/
theorem registerLayers_inserts {layers : List (PrepareLayerDescriptor × PreparedLayer)}
    {answers : List RegisterAnswers} {d d' : Daemon} {res : Except Error Unit}
    (h : registerLayers codec ino cacheRoot request layers answers d = some (res, d')) {id : String}
    {live : Live} (hfree : d.instances id = none) (hid : d'.instances id = some live) :
    ∃ done q rest d₁ d₂, layers = done ++ q :: rest ∧
      registerLayers codec ino cacheRoot request done answers d = some (.ok (), d₁) ∧
      q.2.instanceId = id ∧ d₁.instances id = none ∧
      register codec ino d₁ id (entryConfig cacheRoot request q)
        ((answers.drop done.length).headD {}) = some (.ok (), d₂) ∧
      d₂.instances id = some live := by
  induction layers generalizing answers d with
  | nil =>
    obtain ⟨-, rfl⟩ := Prod.mk.inj (Option.some.inj h)
    exact absurd (hid.symm.trans hfree) (by simp)
  | cons q layers ih =>
    obtain ⟨res₁, d₁, hfirst, ⟨err, rfl, -, rfl⟩ | ⟨rfl, hrest⟩⟩ := registerLayers_cons h
    · rw [(Registers.of_register hfirst).instances_of_error] at hid
      exact absurd (hid.symm.trans hfree) (by simp)
    · cases hnext : d₁.instances id with
      | none =>
        obtain ⟨done, q', rest, d₂, d₃, rfl, hdone, hq, hfree', hregister, hlive⟩ :=
          ih hrest hnext
        refine ⟨q :: done, q', rest, d₂, d₃, rfl, ?_, hq, hfree', ?_, hlive⟩
        · rw [registerLayers_cons_ok hfirst]
          exact hdone
        · rw [List.length_cons, ← List.drop_tail]
          exact hregister
      | some live₁ =>
        have hsame := registerLayers_instances_some hrest hnext
        obtain rfl : live = live₁ := Option.some.inj (hid.symm.trans hsame)
        have hq : q.2.instanceId = id := by
          by_contra hne
          have hkeep := (Registers.of_register hfirst).instances_of_ne (Ne.symm hne)
          exact absurd (hnext.symm.trans (hkeep.trans hfree)) (by simp)
        exact ⟨[], q, layers, d, d₁, rfl, rfl, hq, hfree, hq ▸ hfirst, hnext⟩

/-- **Every instance that `prepare_image` adds is created for one of the layers.** -/
theorem prepareImage_inserts {answers : ImageAnswers} {d d' : Daemon}
    {res : Except Error (List PreparedLayer)}
    (h : prepareImage codec ino cacheRoot request answers d = some (res, d')) {id : String}
    {live : Live} (hfree : d.instances id = none) (hid : d'.instances id = some live) :
    ∃ layer ∈ request.layers, ∃ d₁,
      InsertsLayer codec ino cacheRoot request answers d layer live d₁ := by
  have hfiles (files : Files) (hd : d' = { d with files }) : False := by
    rw [hd] at hid
    exact absurd (hid.symm.trans hfree) (by simp)
  unfold prepareImage at h
  split at h
  · exact absurd h (by simp)
  · exact (hfiles _ (Prod.mk.inj (Option.some.inj h)).2.symm).elim
  · rename_i prepared files hprepare
    have hregistered {res : Except Error Unit}
        (h : registerLayers codec ino cacheRoot request (request.layers.zip prepared)
          answers.registers { d with files } = some (res, d')) :
        ∃ layer ∈ request.layers, ∃ d₁,
          InsertsLayer codec ino cacheRoot request answers d layer live d₁ := by
      obtain ⟨done, q, rest, d₁, d₂, hsplit, hdone, rfl, hfree', hregister, hlive⟩ :=
        registerLayers_inserts h (d := { d with files }) hfree hid
      refine ⟨q.1, ?_, d₂, .intro hprepare hsplit hdone hfree' hregister hlive⟩
      have hmem : q ∈ request.layers.zip prepared :=
        hsplit ▸ List.mem_append_right _ List.mem_cons_self
      exact (List.of_mem_zip hmem).1
    split at h
    · exact absurd h (by simp)
    · rename_i hlayers
      obtain ⟨-, rfl⟩ := Prod.mk.inj (Option.some.inj h)
      exact hregistered hlayers
    · rename_i hlayers
      obtain ⟨-, rfl⟩ := Prod.mk.inj (Option.some.inj h)
      exact hregistered hlayers

/-! ### The files of a new instance -/

/-- The instance of a layer that has just been created, and its two files. -/
structure CreatedFor (codec : HeaderCodec) (ino : String → FileKey) (cacheRoot : String)
    (request : PrepareImageRequest) (layer : PrepareLayerDescriptor) (live : Live)
    (files : Files) : Prop where
  started : Started codec live files.disk
  config_eq : live.inst.config =
    { Prepare.layerConfig cacheRoot request layer with
      instanceId := Prepare.instanceId (Prepare.cacheKey layer.digest) }
  target_eq : live.inst.target = ino (Prepare.sparsePath cacheRoot (Prepare.cacheKey layer.digest))
  file_eq : live.inst.rangeMap.file =
    ino (bitmapPath (Prepare.sparsePath cacheRoot (Prepare.cacheKey layer.digest)))
  bitmap_present : files.present live.inst.rangeMap.file = true
  sparse : ∃ n, Prepare.layerPmemSize request layer = .ok n ∧
    Prepare.LongEnough n (files.get live.inst.target)
  allocated : ∀ k < live.inst.rangeMap.slotCount,
    (files.disk live.inst.rangeMap.file).byte (headerSize + k) ≠ 0 →
      live.inst.SlotAllocated files.disk k

/-- **The files of an instance that has just been created.** -/
theorem InsertsLayer.created {answers : ImageAnswers} {d d' : Daemon}
    {layer : PrepareLayerDescriptor} {live : Live}
    (hapart : ∀ k k', ino (Prepare.sparsePath cacheRoot k) ≠
      ino (bitmapPath (Prepare.sparsePath cacheRoot k')))
    (hstat : ∀ a ∈ answers.layers, a.sparse.stat = none)
    (h : InsertsLayer codec ino cacheRoot request answers d layer live d') :
    CreatedFor codec ino cacheRoot request layer live d'.files := by
  obtain @⟨prepared, files, done, rest, q, d₁, d', live, hprepare, hsplit, hdone, hfree, hregister,
    hlive⟩ := h
  have hlayers : Prepare.prepareLayers codec ino cacheRoot request request.layers answers.layers
      d.files = some (.ok prepared, files) := by
    rw [Prepare.prepareCacheLayers] at hprepare
    split at hprepare
    · exact absurd hprepare (by simp)
    · exact hprepare
  have hsparse := Prepare.prepareLayers_sparse hapart hstat hlayers
  rw [hsplit] at hsparse
  obtain ⟨n, hsize, hq, hlong⟩ := hsparse q (List.mem_append_right _ List.mem_cons_self)
  have hpath : q.2.sparsePath = Prepare.sparsePath cacheRoot (Prepare.cacheKey q.1.digest) := by
    rw [hq]
    rfl
  have hid : q.2.instanceId = Prepare.instanceId (Prepare.cacheKey q.1.digest) := by
    rw [hq]
    rfl
  have hregisters := Registers.of_register hregister
  have hget : d'.files.get (ino q.2.sparsePath) = files.get (ino q.2.sparsePath) := by
    have hne :
        ino q.2.sparsePath ≠ ino (bitmapPath (entryConfig cacheRoot request q).targetPath) := by
      change _ ≠ ino (bitmapPath q.2.sparsePath)
      rw [hpath]
      exact hapart _ _
    rw [hregisters.get_of_ne hne]
    refine registerLayers_get_of_ne hdone fun q' hq' => ?_
    obtain ⟨n', -, hq'', -⟩ := hsparse q' (List.mem_append_left _ hq')
    rw [hpath, hq'']
    exact hapart _ _
  rw [← hpath] at hlong
  rw [← hget] at hlong
  cases hregisters with
  | unchanged => exact absurd (hlive.symm.trans hfree) (by simp)
  | @registered live' files' d₂ hfree' hopen hmark =>
    obtain rfl : live' = live := by
      simpa only [Function.update_self, Option.some.injEq] using hlive
    have hfiles : d₂.files = files' := (markTarget_files hmark).1
    have hcache := openInstance_ok hopen
    obtain ⟨hconfig, htarget, hfile⟩ := hcache.inst_eq
    refine ⟨?_, ?_, ?_, ?_, ?_, ⟨n, hsize, ?_⟩, ?_⟩
    · change Started codec live' d₂.files.disk
      rw [hfiles]
      exact hcache.started
    · rw [hconfig, entryConfig, hpath, hid]
      rfl
    · rw [htarget, ← hpath]
      rfl
    · rw [hfile, ← hpath]
      rfl
    · change d₂.files.present live'.inst.rangeMap.file = true
      rw [hfiles, hfile]
      exact hcache.bitmap_present
    · rw [htarget]
      exact hlong
    · intro k hk hbyte
      change (d₂.files.disk live'.inst.rangeMap.file).byte _ ≠ 0 at hbyte
      change live'.inst.SlotAllocated d₂.files.disk k
      rw [hfiles] at hbyte ⊢
      refine hcache.allocated ?_ hk hbyte
      change ino q.2.sparsePath ≠ ino (bitmapPath q.2.sparsePath)
      rw [hpath]
      exact hapart _ _

/-! ### A small image -/

/-- A layer of three bytes. -/
def smallLayer : PrepareLayerDescriptor where
  index := 0
  digest := newBlob.digest
  size := 3
  mediaType := erofsLayerMediaType

def smallImage : PrepareImageRequest where
  imageRef := "example.com/image:1"
  layers := [smallLayer]
  fetch := { unitBytes := 1048576 }
  pmem := { alignmentBytes := 4096 }

/-- A daemon with an empty cache. -/
def emptyCache : Daemon := start ⟨fun _ => newFile, fun _ => false⟩ none

section SmallImage

variable (ino : String → FileKey)

/-- The sparse file and the bitmap file of `smallLayer`. -/
def smallSparse : FileKey := ino (Prepare.sparsePath "cache" (Prepare.cacheKey smallLayer.digest))

def smallBitmap : FileKey :=
  ino (bitmapPath (Prepare.sparsePath "cache" (Prepare.cacheKey smallLayer.digest)))

/-- The files of `smallLayer` once it has been prepared, with the given bitmap file. -/
def smallCache (f : File) : Files :=
  (emptyCache.files.put (smallSparse ino) (some (newFile.setLen 4096))).put
    (smallBitmap ino) (some f)

/-- The range map of `smallLayer`. -/
def smallMap : RangeMap := { smallInstance.rangeMap with file := smallBitmap ino }

theorem smallLayer_geometry :
    RangeMap.geometry (smallBitmap ino) smallLayer.blob.size smallImage.fetch.unitBytes =
      .ok (smallMap ino) :=
  (smallMap ino).geometry_self rfl rfl

variable {ino} (hne : smallSparse ino ≠ smallBitmap ino)

include hne

theorem prepareLayer_small : ∃ f, FreshBitmap f ∧
    Prepare.prepareLayer headerJson ino "cache" smallImage smallLayer {} emptyCache.files =
      some (.ok (Prepare.preparedLayer "cache" smallLayer 4096), smallCache ino f) := by
  obtain ⟨buf, hbuf⟩ := exists_encodeHeader (encodeHeader_small newBlob (by decide))
  have hlength := length_encodeHeader hbuf
  have hencode : encodeHeader headerJson
      (expectedHeader smallLayer.blob smallImage.fetch.unitBytes (smallMap ino).slotCount) =
        .ok buf := hbuf
  refine ⟨_, ⟨buf, hbuf, resetFile_len newFile hlength le_rfl,
    headerBytes_resetFile_all newFile hlength, fun k hk => ?_⟩,
    Prepare.prepareLayer_new (by decide) (by decide) (smallLayer_geometry ino) hencode hne rfl rfl⟩
  rw [resetFile_slot newFile hlength hk, if_pos hk]

/-- The first preparation of `smallImage`. -/
theorem prepareCacheLayers_small : ∃ f, FreshBitmap f ∧
    Prepare.prepareCacheLayers headerJson ino "cache" smallImage smallImage.layers []
      emptyCache.files =
        some (.ok [Prepare.preparedLayer "cache" smallLayer 4096], smallCache ino f) := by
  obtain ⟨f, hf, hlayer⟩ := prepareLayer_small hne
  refine ⟨f, hf, ?_⟩
  have hunit : validateFetchUnitBytes smallImage.fetch.unitBytes.toNat = .ok () := rfl
  have hlayers : smallImage.layers = [smallLayer] := rfl
  simp only [Prepare.prepareCacheLayers, hunit, hlayers, Prepare.prepareLayers, List.headD_nil,
    hlayer]

/-- The id of the instance of `smallLayer`. -/
def smallId : String := Prepare.instanceId (Prepare.cacheKey smallLayer.digest)

/-- The configuration of the instance of `smallLayer`. -/
def smallLayerConfig : InstanceConfig :=
  { Prepare.layerConfig "cache" smallImage smallLayer with instanceId := smallId }

/-- The bitmap file of `smallLayer` is opened again. -/
theorem openCache_smallCache {f : File} (hf : FreshBitmap f) (config : InstanceConfig)
    (hpath : config.targetPath = Prepare.sparsePath "cache" (Prepare.cacheKey smallLayer.digest))
    (hblob : config.blob = smallLayer.blob) (hunit : config.fetch.unitBytes = 1048576) :
    ∃ live, openCache headerJson ino config {} (smallCache ino f) =
        some (.ok live, smallCache ino f) ∧
      Opened ino config (smallMap ino) (List.replicate (smallMap ino).slotCount 0) live := by
  obtain ⟨buf, hbuf, hlen, hheader, hclear⟩ := hf
  have hencode : encodeHeader headerJson
      (expectedHeader smallLayer.blob smallImage.fetch.unitBytes (smallMap ino).slotCount) =
        .ok buf := hbuf
  have hm : RangeMap.geometry (ino (bitmapPath config.targetPath)) config.blob.size
      config.fetch.unitBytes = .ok (smallMap ino) := by
    rw [hpath, hblob, hunit]
    exact smallLayer_geometry ino
  have htarget : (smallCache ino f).present (ino config.targetPath) = true := by
    rw [hpath]
    refine (Files.put_present_of_ne _ _ hne).trans ?_
    exact Files.put_present_self _ _ _
  have hbitmap : (smallCache ino f).get (ino (bitmapPath config.targetPath)) = some f := by
    rw [hpath]
    exact Files.put_get_self _ _ _
  obtain ⟨live, hcache, hlive⟩ := openCache_written hm (by rw [hblob, hunit]; exact hencode) htarget
    hbitmap hlen hheader hclear
  refine ⟨live, ?_, hlive⟩
  rw [hcache, Files.put_of_get _ hbitmap]

theorem register_smallLayer {f : File} (hf : FreshBitmap f) :
    ∃ live, register headerJson ino { emptyCache with files := smallCache ino f } smallId
        (entryConfig "cache" smallImage (smallLayer, Prepare.preparedLayer "cache" smallLayer 4096))
        {} = some (.ok (), { emptyCache with
          files := smallCache ino f
          instances := Function.update emptyCache.instances smallId (some live) }) ∧
      Opened ino smallLayerConfig (smallMap ino)
        (List.replicate (smallMap ino).slotCount 0) live := by
  obtain ⟨live, hcache, hlive⟩ := openCache_smallCache hne hf smallLayerConfig rfl rfl rfl
  refine ⟨live, ?_, hlive⟩
  have hvalid : validateConfig (entryConfig "cache" smallImage
      (smallLayer, Prepare.preparedLayer "cache" smallLayer 4096)) = .ok () := by
    decide
  exact register_opened hvalid rfl hcache rfl rfl

/-- The point at which the instance of `smallLayer` has been created. -/
theorem smallImage_inserts : ∃ live f, FreshBitmap f ∧
    Opened ino smallLayerConfig (smallMap ino) (List.replicate (smallMap ino).slotCount 0) live ∧
    InsertsLayer headerJson ino "cache" smallImage {} emptyCache smallLayer live
      { emptyCache with
        files := smallCache ino f
        instances := Function.update emptyCache.instances smallId (some live) } := by
  obtain ⟨f, hf, hprepare⟩ := prepareCacheLayers_small hne
  obtain ⟨live, hregister, hlive⟩ := register_smallLayer hne hf
  refine ⟨live, f, hf, hlive, ?_⟩
  have hsplit : smallImage.layers.zip [Prepare.preparedLayer "cache" smallLayer 4096] =
      [] ++ (smallLayer, Prepare.preparedLayer "cache" smallLayer 4096) :: [] := rfl
  have hnew : Function.update emptyCache.instances smallId (some live) smallId = some live :=
    Function.update_self _ _ _
  exact .intro hprepare hsplit rfl rfl hregister hnew

end SmallImage

end Daemon

end Lazyd
