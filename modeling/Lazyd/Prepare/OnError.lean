import Lazyd.Prepare.Reuse

/-!
# Preparations that return an error

`prepare_image` prepares the files of all layers and then registers one layer after the other.
Either loop may end at any layer, and nothing is taken back: layers that have been registered stay
so, and a bitmap file that has been reset, for a layer of another size or with another unit, stays
reset also if the registration finds out that the instance on it is in use.

## Main definitions

* `Prepare.EachLayer`, `Daemon.EachRegistration` : what holds at each turn of the two loops.
* `Daemon.InsertsNothing`, `Daemon.KeepsFile` : the conditions on these turns.
* `Daemon.ImageUnchanged` : the instances and their bitmap files are as they were.

## Main results

* `Prepare.EachLayer.invariant`, `Daemon.EachRegistration.invariant` : what the turns of a loop
  keep.
* `Daemon.prepareImage_sameContents` : a file that no turn changes.
* `Daemon.prepareImage_error_unchanged` : a preparation that fails, and what it leaves unchanged.
* `Daemon.failed_prepare_resets_bitmap` : a bitmap file in use that a failing preparation resets.

Source: `src/control.rs`, lines 136–164; `src/prepare.rs`, lines 92–141; `src/range_map.rs`, lines
42–98.
-/

namespace Lazyd

/-- The contents of a file that was there are the same. -/
def Files.SameContents (key : FileKey) (files files' : Files) : Prop :=
  ∀ f, files.get key = some f → ∃ f', files'.get key = some f' ∧ f'.contents = f.contents

theorem Files.sameContents_of_get {key : FileKey} {files files' : Files}
    (h : files'.get key = files.get key) : files.SameContents key files' :=
  fun f hf => ⟨f, h.trans hf, rfl⟩

theorem Files.SameContents.trans {key : FileKey} {files files₁ files₂ : Files}
    (h : files.SameContents key files₁) (h' : files₁.SameContents key files₂) :
    files.SameContents key files₂ := by
  intro f hf
  obtain ⟨f₁, hf₁, heq₁⟩ := h f hf
  obtain ⟨f₂, hf₂, heq₂⟩ := h' f₁ hf₁
  exact ⟨f₂, hf₂, heq₂.trans heq₁⟩

namespace Prepare

variable (codec : HeaderCodec) (ino : String → FileKey) (cacheRoot : String)
  (request : PrepareImageRequest)

/-- What holds at each turn of the loop over the layers, with the files that the turn finds. -/
def EachLayer (P : PrepareLayerDescriptor → LayerAnswers → Files → Prop) :
    List PrepareLayerDescriptor → List LayerAnswers → Files → Prop
  | [], _, _ => True
  | layer :: layers, answers, files =>
    P layer (answers.headD {}) files ∧ ∀ p files',
      prepareLayer codec ino cacheRoot request layer (answers.headD {}) files =
        some (.ok p, files') → EachLayer P layers answers.tail files'

/-- `create_sparse_file` does not change the length of the file: it fails before that, or the file
has the length, or it is known to be longer. -/
def KeepsSparse (len : ℕ) (faults : SparseFaults) (f : File) : Prop :=
  faults.openFile ≠ none ∨ faults.metadata ≠ none ∨ faults.setLen ≠ none ∨ f.len = len ∨
    len < f.len ∧ faults.stat = none

/-- If the file is the sparse file of the layer and is created, then its length is kept; if it is
the bitmap file and gets opened, then the opening keeps its contents. -/
def LayerKeeps (key : FileKey) (layer : PrepareLayerDescriptor) (answers : LayerAnswers)
    (files : Files) : Prop :=
  (key = ino (sparsePath cacheRoot (cacheKey layer.digest)) →
    ∀ n f, layerPmemSize request layer = .ok n → answers.createDir = none →
      files.get key = some f → KeepsSparse n answers.sparse f) ∧
  (key = ino (bitmapPath (sparsePath cacheRoot (cacheKey layer.digest))) →
    ∀ n f, layerPmemSize request layer = .ok n → answers.createDir = none →
      createSparseFile (sparsePath cacheRoot (cacheKey layer.digest)) n answers.sparse
        (files.get (ino (sparsePath cacheRoot (cacheKey layer.digest)))) = (.ok (), f) →
      KeepsContents codec ino (layerConfig cacheRoot request layer) answers.opening
        (files.put (ino (sparsePath cacheRoot (cacheKey layer.digest))) f))

variable {codec ino cacheRoot request} {layer : PrepareLayerDescriptor} {key : FileKey}
  {files files' : Files}

theorem setLen_contents (f : File) : (f.setLen f.len).contents = f.contents := by
  refine SparseFile.contents_eq_iff.mpr ⟨rfl, fun p => ?_⟩
  rw [SparseFile.setLen_byte]
  split_ifs with hp
  · rfl
  · exact (f.byte_of_len_le p (not_lt.mp hp)).symm

/-- Only `set_len` changes the contents of a file that is there. -/
theorem createSparseFile_contents {path : String} {len : ℕ} {faults : SparseFaults} {f : File}
    {res : Except Error Unit} {f' : Option File} (hkeeps : KeepsSparse len faults f)
    (h : createSparseFile path len faults (some f) = (res, f')) :
    ∃ g, f' = some g ∧ g.contents = f.contents := by
  have hfault {fault : Option IoError} {α : Type} {res : Except Error α} {a : α}
      (hok : unlessFault fault res = .ok a) : fault = none := by
    cases fault with
    | none => rfl
    | some err => exact absurd hok (by simp [unlessFault])
  unfold createSparseFile at h
  dsimp only at h
  split at h
  · obtain ⟨-, rfl⟩ := Prod.mk.inj h
    exact ⟨f, rfl, rfl⟩
  · rename_i hopen
    split at h
    · obtain ⟨-, rfl⟩ := Prod.mk.inj h
      exact ⟨f, rfl, rfl⟩
    · rename_i current hcurrent
      have hmetadata := hfault hcurrent
      have hcurrent := unlessFault_eq_ok hcurrent
      split_ifs at hcurrent with hbig
      obtain rfl := Except.ok.inj hcurrent
      split_ifs at h with hset hgt
      · split at h
        · obtain ⟨-, rfl⟩ := Prod.mk.inj h
          exact ⟨f, rfl, rfl⟩
        · rename_i file hfile
          rw [setFileLen] at hfile
          split_ifs at hfile with hlarge
          have hsetLen := hfault hfile
          obtain rfl := Except.ok.inj (unlessFault_eq_ok hfile)
          obtain ⟨-, rfl⟩ := Prod.mk.inj h
          -- the length is set, so it is the one that the file has
          have hlen : f.len = len := by
            rcases hkeeps with hno | hno | hno | hlen | ⟨hlt, hstat⟩
            · exact absurd hopen hno
            · exact absurd hmetadata hno
            · exact absurd hsetLen hno
            · exact hlen
            · rw [hstat] at hset
              simp only [Option.isNone_none, Option.isSome_some, Bool.and_self,
                Bool.true_eq_false, Option.getD_some, false_or] at hset
              omega
          refine ⟨_, rfl, ?_⟩
          rw [← hlen]
          exact setLen_contents f
      · obtain ⟨-, rfl⟩ := Prod.mk.inj h
        exact ⟨f, rfl, rfl⟩
      · obtain ⟨-, rfl⟩ := Prod.mk.inj h
        exact ⟨f, rfl, rfl⟩

/-- A turn that keeps the contents of a file. -/
theorem prepareLayer_sameContents {answers : LayerAnswers} {res : Except Error PreparedLayer}
    (hkeeps : LayerKeeps codec ino cacheRoot request key layer answers files)
    (h : prepareLayer codec ino cacheRoot request layer answers files = some (res, files')) :
    files.SameContents key files' := by
  obtain ⟨hsparse, hbitmap⟩ := hkeeps
  have hput {n : ℕ} {f : Option File} {res : Except Error Unit}
      (hsize : layerPmemSize request layer = .ok n) (hdir : answers.createDir = none)
      (hcreate : createSparseFile (sparsePath cacheRoot (cacheKey layer.digest)) n answers.sparse
        (files.get (ino (sparsePath cacheRoot (cacheKey layer.digest)))) = (res, f)) :
      files.SameContents key
        (files.put (ino (sparsePath cacheRoot (cacheKey layer.digest))) f) := by
    by_cases hkey : key = ino (sparsePath cacheRoot (cacheKey layer.digest))
    · intro old hold
      rw [← hkey, hold] at hcreate
      obtain ⟨g, rfl, hcontents⟩ :=
        createSparseFile_contents (hsparse hkey n old hsize hdir hold) hcreate
      rw [← hkey]
      exact ⟨g, Files.put_get_self _ _ _, hcontents⟩
    · exact Files.sameContents_of_get (Files.put_get_of_ne _ _ hkey)
  have hopened {n : ℕ} {f : Option File} {res : Except Error Live}
      (hsize : layerPmemSize request layer = .ok n) (hdir : answers.createDir = none)
      (hcreate : createSparseFile (sparsePath cacheRoot (cacheKey layer.digest)) n answers.sparse
        (files.get (ino (sparsePath cacheRoot (cacheKey layer.digest)))) = (.ok (), f))
      (hcache : openCache codec ino (layerConfig cacheRoot request layer) answers.opening
        (files.put (ino (sparsePath cacheRoot (cacheKey layer.digest))) f) =
          some (res, files')) : files.SameContents key files' := by
    refine (hput hsize hdir hcreate).trans ?_
    by_cases hkey : key = ino (bitmapPath (sparsePath cacheRoot (cacheKey layer.digest)))
    · have hcontents := (openCache_contents_iff hcache).mpr (hbitmap hkey n f hsize hdir hcreate)
      rw [hkey]
      exact hcontents
    · exact Files.sameContents_of_get ((OpensCache.of_openCache hcache).get_of_ne hkey)
  unfold prepareLayer at h
  dsimp only at h
  split at h
  · obtain ⟨-, rfl⟩ := Prod.mk.inj (Option.some.inj h)
    exact Files.sameContents_of_get rfl
  · rename_i hsize
    split at h
    · obtain ⟨-, rfl⟩ := Prod.mk.inj (Option.some.inj h)
      exact Files.sameContents_of_get rfl
    · rename_i hdir
      split at h
      · rename_i hcreate
        obtain ⟨-, rfl⟩ := Prod.mk.inj (Option.some.inj h)
        exact hput hsize hdir hcreate
      · rename_i hcreate
        split at h
        · exact absurd h (by simp)
        · rename_i hcache
          obtain ⟨-, rfl⟩ := Prod.mk.inj (Option.some.inj h)
          exact hopened hsize hdir hcreate hcache
        · rename_i hcache
          obtain ⟨-, rfl⟩ := Prod.mk.inj (Option.some.inj h)
          exact hopened hsize hdir hcreate hcache

/-- **The loop over the layers, turn by turn**: what every turn keeps is kept by the loop. -/
theorem EachLayer.invariant {P : PrepareLayerDescriptor → LayerAnswers → Files → Prop}
    {I : Files → Prop}
    (hturn : ∀ layer answers files res files', P layer answers files → I files →
      prepareLayer codec ino cacheRoot request layer answers files = some (res, files') → I files')
    {layers : List PrepareLayerDescriptor} {answers : List LayerAnswers}
    {res : Except Error (List PreparedLayer)}
    (heach : EachLayer codec ino cacheRoot request P layers answers files) (hinit : I files)
    (h : prepareLayers codec ino cacheRoot request layers answers files = some (res, files')) :
    I files' := by
  induction layers generalizing answers files res with
  | nil =>
    obtain ⟨-, rfl⟩ := Prod.mk.inj (Option.some.inj h)
    exact hinit
  | cons layer layers ih =>
    rw [prepareLayers] at h
    split at h
    · exact absurd h (by simp)
    · rename_i hfirst
      obtain ⟨-, rfl⟩ := Prod.mk.inj (Option.some.inj h)
      exact hturn _ _ _ _ _ heach.1 hinit hfirst
    · rename_i p files₁ hfirst
      have hfiles₁ := hturn _ _ _ _ _ heach.1 hinit hfirst
      have hrest := heach.2 p files₁ hfirst
      split at h
      · exact absurd h (by simp)
      · rename_i hlayers
        obtain ⟨-, rfl⟩ := Prod.mk.inj (Option.some.inj h)
        exact ih hrest hfiles₁ hlayers
      · rename_i hlayers
        obtain ⟨-, rfl⟩ := Prod.mk.inj (Option.some.inj h)
        exact ih hrest hfiles₁ hlayers

theorem prepareLayers_sameContents {layers : List PrepareLayerDescriptor}
    {answers : List LayerAnswers} {res : Except Error (List PreparedLayer)}
    (hkeeps : EachLayer codec ino cacheRoot request
      (LayerKeeps codec ino cacheRoot request key) layers answers files)
    (h : prepareLayers codec ino cacheRoot request layers answers files = some (res, files')) :
    files.SameContents key files' := by
  refine hkeeps.invariant (I := files.SameContents key) (fun _ _ _ _ _ hkeeps hsame hturn => ?_)
    (Files.sameContents_of_get rfl) h
  exact hsame.trans (prepareLayer_sameContents hkeeps hturn)

end Prepare

namespace Daemon

open Prepare

variable (codec : HeaderCodec) (ino : String → FileKey) (cacheRoot : String)
  (request : PrepareImageRequest)

/-- What holds at each turn of the loop that registers the layers, with the daemon that the turn
finds. -/
def EachRegistration
    (P : PrepareLayerDescriptor × PreparedLayer → RegisterAnswers → Daemon → Prop) :
    List (PrepareLayerDescriptor × PreparedLayer) → List RegisterAnswers → Daemon → Prop
  | [], _, _ => True
  | q :: layers, answers, d =>
    P q (answers.headD {}) d ∧ ∀ d',
      register codec ino d q.2.instanceId (entryConfig cacheRoot request q) (answers.headD {}) =
        some (.ok (), d') → EachRegistration P layers answers.tail d'

/-- The instance is registered, or its opening fails. -/
def RegistrationInsertsNothing (q : PrepareLayerDescriptor × PreparedLayer)
    (answers : RegisterAnswers) (d : Daemon) : Prop :=
  d.instances q.2.instanceId = none →
    ¬ OpeningSucceeds codec ino
      { entryConfig cacheRoot request q with instanceId := q.2.instanceId }
      answers.opening d.files answers.remote

/-- The instance is registered, or its opening keeps the contents of the file. -/
def RegistrationKeeps (key : FileKey) (q : PrepareLayerDescriptor × PreparedLayer)
    (answers : RegisterAnswers) (d : Daemon) : Prop :=
  d.instances q.2.instanceId = none → key = ino (bitmapPath q.2.sparsePath) →
    KeepsContents codec ino { entryConfig cacheRoot request q with instanceId := q.2.instanceId }
      answers.opening d.files

/-- No turn of the second loop opens an instance that is not registered. -/
def InsertsNothing (answers : ImageAnswers) (d : Daemon) : Prop :=
  ∀ prepared files, prepareCacheLayers codec ino cacheRoot request request.layers answers.layers
      d.files = some (.ok prepared, files) →
    EachRegistration codec ino cacheRoot request
      (RegistrationInsertsNothing codec ino cacheRoot request) (request.layers.zip prepared)
      answers.registers { d with files }

/-- No turn of the two loops changes the contents of the file. -/
def KeepsFile (key : FileKey) (answers : ImageAnswers) (d : Daemon) : Prop :=
  (validateFetchUnitBytes request.fetch.unitBytes.toNat = .ok () →
    EachLayer codec ino cacheRoot request (LayerKeeps codec ino cacheRoot request key)
      request.layers answers.layers d.files) ∧
  ∀ prepared files, prepareCacheLayers codec ino cacheRoot request request.layers answers.layers
      d.files = some (.ok prepared, files) →
    EachRegistration codec ino cacheRoot request (RegistrationKeeps codec ino cacheRoot request key)
      (request.layers.zip prepared) answers.registers { d with files }

/-- The registered instances, and the contents of their bitmap files. -/
structure ImageUnchanged (d d' : Daemon) : Prop where
  instances : d'.instances = d.instances
  bitmaps : ∀ id live, d.instances id = some live →
    d.files.SameContents live.inst.rangeMap.file d'.files

variable {codec ino cacheRoot request} {d d' : Daemon} {key : FileKey}
  {q : PrepareLayerDescriptor × PreparedLayer}
  {layers : List (PrepareLayerDescriptor × PreparedLayer)}

/-! ### The loop that registers the layers -/

/-- An opening that keeps the contents of the bitmap file. -/
theorem openInstance_sameContents {config : InstanceConfig} {answers : OpenAnswers}
    {remote : Except Error Unit} {files files' : Files} {res : Except Error Live}
    (hkeeps : KeepsContents codec ino config answers files)
    (h : openInstance codec ino config answers remote files = some (res, files')) :
    files.SameContents (ino (bitmapPath config.targetPath)) files' := by
  rw [openInstance] at h
  split at h
  · obtain ⟨-, rfl⟩ := Prod.mk.inj (Option.some.inj h)
    exact Files.sameContents_of_get rfl
  · split at h
    · exact absurd h (by simp)
    · rename_i hcache
      obtain ⟨-, rfl⟩ := Prod.mk.inj (Option.some.inj h)
      exact (openCache_contents_iff hcache).mpr hkeeps
    · rename_i hcache
      have hsame := (openCache_contents_iff hcache).mpr hkeeps
      split at h <;> obtain ⟨-, rfl⟩ := Prod.mk.inj (Option.some.inj h) <;> exact hsame

/-- A turn that keeps the contents of a file. -/
theorem register_sameContents {answers : RegisterAnswers} {res : Except Error Unit}
    (hkeeps : RegistrationKeeps codec ino cacheRoot request key q answers d)
    (h : register codec ino d q.2.instanceId (entryConfig cacheRoot request q) answers =
      some (res, d')) : d.files.SameContents key d'.files := by
  have hregisters := Registers.of_register h
  by_cases hkey : key = ino (bitmapPath q.2.sparsePath)
  · rw [hkey]
    cases hregisters with
    | unchanged => exact Files.sameContents_of_get rfl
    | notOpened hfree hopen => exact openInstance_sameContents (hkeeps hfree hkey) hopen
    | notMarked hfree hopen hmark =>
      rw [(markTarget_files hmark).1]
      exact openInstance_sameContents (hkeeps hfree hkey) hopen
    | @registered live files d₁ hfree hopen hmark =>
      have hfiles : d₁.files = files := (markTarget_files hmark).1
      change d.files.SameContents _ d₁.files
      rw [hfiles]
      exact openInstance_sameContents (hkeeps hfree hkey) hopen
  · exact Files.sameContents_of_get (hregisters.get_of_ne hkey)

/-- **The loop that registers the layers, turn by turn**: what every turn keeps is kept by the
loop. -/
theorem EachRegistration.invariant
    {P : PrepareLayerDescriptor × PreparedLayer → RegisterAnswers → Daemon → Prop}
    {I : Daemon → Prop}
    (hturn : ∀ q answers d res d', P q answers d → I d →
      register codec ino d q.2.instanceId (entryConfig cacheRoot request q) answers =
        some (res, d') → I d')
    {answers : List RegisterAnswers} {res : Except Error Unit}
    (heach : EachRegistration codec ino cacheRoot request P layers answers d) (hinit : I d)
    (h : registerLayers codec ino cacheRoot request layers answers d = some (res, d')) : I d' := by
  induction layers generalizing answers d with
  | nil =>
    obtain ⟨-, rfl⟩ := Prod.mk.inj (Option.some.inj h)
    exact hinit
  | cons q layers ih =>
    obtain ⟨res₁, d₁, hfirst, hend⟩ := registerLayers_cons h
    have hd₁ := hturn _ _ _ _ _ heach.1 hinit hfirst
    rcases hend with ⟨err, -, -, rfl⟩ | ⟨rfl, hrest⟩
    · exact hd₁
    · exact ih (heach.2 d₁ hfirst) hd₁ hrest

theorem registerLayers_sameContents {answers : List RegisterAnswers} {res : Except Error Unit}
    (hkeeps : EachRegistration codec ino cacheRoot request
      (RegistrationKeeps codec ino cacheRoot request key) layers answers d)
    (h : registerLayers codec ino cacheRoot request layers answers d = some (res, d')) :
    d.files.SameContents key d'.files := by
  refine hkeeps.invariant (I := fun d' => d.files.SameContents key d'.files)
    (fun _ _ _ _ _ hkeeps hsame hturn => ?_) (Files.sameContents_of_get rfl) h
  exact hsame.trans (register_sameContents hkeeps hturn)

/-- **The registration of a layer that is not registered** inserts its instance exactly when the
opening succeeds: nothing is marked. -/
theorem register_free {answers : RegisterAnswers} {res : Except Error Unit}
    (hvalid : validateConfig (entryConfig cacheRoot request q) = .ok ())
    (hfree : d.instances q.2.instanceId = none)
    (h : register codec ino d q.2.instanceId (entryConfig cacheRoot request q) answers =
      some (res, d')) :
    OpeningSucceeds codec ino { entryConfig cacheRoot request q with instanceId := q.2.instanceId }
        answers.opening d.files answers.remote ∧
        (∃ live, d'.instances q.2.instanceId = some live) ∨
      ¬ OpeningSucceeds codec ino
          { entryConfig cacheRoot request q with instanceId := q.2.instanceId }
          answers.opening d.files answers.remote ∧ (∃ err, res = .error err) ∧
        d'.instances = d.instances := by
  simp only [register, hvalid, hfree] at h
  split at h
  · exact absurd h (by simp)
  · rename_i hopen
    obtain ⟨rfl, rfl⟩ := Prod.mk.inj (Option.some.inj h)
    refine Or.inr ⟨fun hsucceeds => ?_, ⟨_, rfl⟩, rfl⟩
    obtain ⟨live, hlive⟩ := (openInstance_spec hvalid hopen).2.mpr hsucceeds
    exact absurd hlive (by simp)
  · rename_i live files hopen
    have hsucceeds := (openInstance_spec hvalid hopen).2.mp ⟨live, rfl⟩
    have hmark : markTarget ino { d with files } q.2.instanceId
        { entryConfig cacheRoot request q with instanceId := q.2.instanceId } answers.mark =
          (.ok (), { d with files }) := rfl
    simp only [hmark] at h
    obtain ⟨-, rfl⟩ := Prod.mk.inj (Option.some.inj h)
    exact Or.inl ⟨hsucceeds, live, Function.update_self _ _ _⟩

/-- A layer that is registered changes nothing. -/
theorem register_taken {answers : RegisterAnswers} {res : Except Error Unit} {live : Live}
    (hlive : d.instances q.2.instanceId = some live)
    (h : register codec ino d q.2.instanceId (entryConfig cacheRoot request q) answers =
      some (res, d')) : d' = d := by
  cases Registers.of_register h with
  | unchanged => rfl
  | notOpened hfree | notMarked hfree | registered hfree =>
    exact absurd (hlive.symm.trans hfree) (by simp)

/-- A loop that fails leaves the instances as they were exactly when no turn opens one that is not
registered. -/
theorem registerLayers_instances_iff {answers : List RegisterAnswers} {err : Error}
    (hvalid : ∀ q ∈ layers, validateConfig (entryConfig cacheRoot request q) = .ok ())
    (h : registerLayers codec ino cacheRoot request layers answers d = some (.error err, d')) :
    d'.instances = d.instances ↔ EachRegistration codec ino cacheRoot request
      (RegistrationInsertsNothing codec ino cacheRoot request) layers answers d := by
  induction layers generalizing answers d with
  | nil => exact absurd h (by simp [registerLayers])
  | cons q layers ih =>
    have hq := hvalid q List.mem_cons_self
    obtain ⟨res₁, d₁, hfirst, hend⟩ := registerLayers_cons h
    rw [EachRegistration]
    cases hfree : d.instances q.2.instanceId with
    | some live =>
      obtain rfl := register_taken hfree hfirst
      rcases hend with ⟨err, rfl, -, rfl⟩ | ⟨rfl, hrest⟩
      · refine iff_of_true rfl ⟨fun hno => absurd (hfree.symm.trans hno) (by simp), ?_⟩
        exact fun d₂ hok => absurd (hfirst.symm.trans hok) (by simp)
      · rw [ih (fun q' hq' => hvalid q' (List.mem_cons_of_mem _ hq')) hrest]
        constructor
        · intro heach
          refine ⟨fun hno => absurd (hfree.symm.trans hno) (by simp), fun d₂ hok => ?_⟩
          obtain ⟨-, rfl⟩ := Prod.mk.inj (Option.some.inj (hfirst.symm.trans hok))
          exact heach
        · exact fun heach => heach.2 _ hfirst
    | none =>
      rcases register_free hq hfree hfirst with
          ⟨hsucceeds, live, hlive⟩ | ⟨hfails, ⟨err', rfl⟩, hsame⟩
      · -- the instance stays, whatever the later turns do
        have hkept : d'.instances q.2.instanceId = some live := by
          rcases hend with ⟨err', -, -, rfl⟩ | ⟨-, hrest⟩
          · exact hlive
          · exact registerLayers_instances_some hrest hlive
        refine iff_of_false (fun hsame => ?_) fun heach => heach.1 hfree hsucceeds
        rw [hsame, hfree] at hkept
        exact absurd hkept (by simp)
      · rcases hend with ⟨err'', -, -, rfl⟩ | ⟨hno, -⟩
        · refine iff_of_true hsame ⟨fun _ => hfails, fun d₂ hok => ?_⟩
          exact absurd (hfirst.symm.trans hok) (by simp)
        · exact absurd hno (by simp)

/-! ### The image -/

/-- **A file that no turn changes** has its contents after the preparation. -/
theorem prepareImage_sameContents {answers : ImageAnswers}
    {res : Except Error (List PreparedLayer)}
    (hkeeps : KeepsFile codec ino cacheRoot request key answers d)
    (h : prepareImage codec ino cacheRoot request answers d = some (res, d')) :
    d.files.SameContents key d'.files := by
  obtain ⟨hlayers, hregisters⟩ := hkeeps
  have hprepared {res : Except Error (List PreparedLayer)} {files : Files}
      (hprepare : prepareCacheLayers codec ino cacheRoot request request.layers answers.layers
        d.files = some (res, files)) : d.files.SameContents key files := by
    rw [prepareCacheLayers] at hprepare
    split at hprepare
    · obtain ⟨-, rfl⟩ := Prod.mk.inj (Option.some.inj hprepare)
      exact Files.sameContents_of_get rfl
    · rename_i hunit
      exact prepareLayers_sameContents (hlayers hunit) hprepare
  rw [prepareImage] at h
  split at h
  · exact absurd h (by simp)
  · rename_i hprepare
    obtain ⟨-, rfl⟩ := Prod.mk.inj (Option.some.inj h)
    exact hprepared hprepare
  · rename_i prepared files hprepare
    refine (hprepared hprepare).trans ?_
    have heach := hregisters prepared files hprepare
    split at h
    · exact absurd h (by simp)
    · rename_i hregister
      obtain ⟨-, rfl⟩ := Prod.mk.inj (Option.some.inj h)
      exact registerLayers_sameContents heach hregister
    · rename_i hregister
      obtain ⟨-, rfl⟩ := Prod.mk.inj (Option.some.inj h)
      exact registerLayers_sameContents heach hregister

/-- The configurations of the layers that have been prepared are valid. -/
theorem validateConfig_prepared {answers : List LayerAnswers} {prepared : List PreparedLayer}
    {files files' : Files}
    (h : prepareCacheLayers codec ino cacheRoot request request.layers answers files =
      some (.ok prepared, files')) :
    ∀ q ∈ request.layers.zip prepared,
      validateConfig (entryConfig cacheRoot request q) = .ok () := by
  rw [prepareCacheLayers] at h
  split at h
  · exact absurd h (by simp)
  · rename_i hunit
    rintro ⟨layer, p⟩ hq
    obtain ⟨n, hsize, rfl⟩ := (List.forall₂_iff_zip.mp (prepareLayers_prepared h)).2 hq
    exact validateConfig_entry hsize hunit

/-- **A preparation that fails.** The registered instances are the same exactly when no turn of the
second loop opens an instance that is not registered; if besides no turn of the two loops changes
the contents of the bitmap file of a registered instance, then nothing has changed. -/
theorem prepareImage_error_unchanged {answers : ImageAnswers} {err : Error}
    (h : prepareImage codec ino cacheRoot request answers d = some (.error err, d')) :
    (InsertsNothing codec ino cacheRoot request answers d ∧
      (∀ id live, d.instances id = some live →
        KeepsFile codec ino cacheRoot request live.inst.rangeMap.file answers d) →
      ImageUnchanged d d') ∧
    (ImageUnchanged d d' → InsertsNothing codec ino cacheRoot request answers d) := by
  have hinstances : d'.instances = d.instances ↔
      InsertsNothing codec ino cacheRoot request answers d := by
    rw [prepareImage] at h
    split at h
    · exact absurd h (by simp)
    · rename_i hprepare
      obtain ⟨-, rfl⟩ := Prod.mk.inj (Option.some.inj h)
      refine iff_of_true rfl fun prepared files hok => ?_
      exact absurd (hprepare.symm.trans hok) (by simp)
    · rename_i prepared files hprepare
      split at h
      · exact absurd h (by simp)
      · rename_i hregister
        obtain ⟨-, rfl⟩ := Prod.mk.inj (Option.some.inj h)
        refine (registerLayers_instances_iff (validateConfig_prepared hprepare) hregister).trans ?_
        constructor
        · intro heach prepared' files' hok
          obtain ⟨hprepared, rfl⟩ := Prod.mk.inj (Option.some.inj (hprepare.symm.trans hok))
          obtain rfl := Except.ok.inj hprepared
          exact heach
        · exact fun hinserts => hinserts prepared files hprepare
      · exact absurd (Prod.mk.inj (Option.some.inj h)).1 (by simp)
  refine ⟨?_, fun hsame => hinstances.mp hsame.instances⟩
  rintro ⟨hinserts, hkeeps⟩
  exact ⟨hinstances.mpr hinserts,
    fun id live hlive => prepareImage_sameContents (hkeeps id live hlive) h⟩

/-! ### A small image with another layer, and with another unit -/

/-- A layer that is no EROFS image. -/
def tarLayer : PrepareLayerDescriptor :=
  { smallLayer with mediaType := "application/vnd.oci.image.layer.v1.tar" }

/-- `smallImage` with `tarLayer` in the place of its layer. -/
def tarImage : PrepareImageRequest := { smallImage with layers := [tarLayer] }

theorem layerPmemSize_tarLayer : ∃ err, layerPmemSize tarImage tarLayer = .error err :=
  ⟨_, if_pos (by decide)⟩

/-- `prepareImage_error_unchanged` for a layer that is refused, beside an instance that is
registered. -/
theorem tarImage_unchanged : ∃ prepared d err d',
    prepareImage headerJson pathIno "cache" smallImage {} emptyCache = some (.ok prepared, d) ∧
    d.instances smallId ≠ none ∧
    prepareImage headerJson pathIno "cache" tarImage {} d = some (.error err, d') ∧
    ImageUnchanged d d' := by
  have hapart : CacheApart pathIno "cache" := cacheApart_of_injective pathIno_injective "cache"
  obtain ⟨live, f, -, hlive, hfirst⟩ := prepareImage_small (hapart.sparse_ne_bitmap _ _)
  obtain ⟨err, herr⟩ := layerPmemSize_tarLayer
  generalize hd : ({ emptyCache with
    files := smallCache pathIno f
    instances := Function.update emptyCache.instances smallId (some live) } : Daemon) = d at hfirst
  have hinstances : d.instances = Function.update emptyCache.instances smallId (some live) := by
    rw [← hd]
  have hlayer (answers : LayerAnswers) :
      prepareLayer headerJson pathIno "cache" tarImage tarLayer answers d.files =
        some (.error err, d.files) := by
    simp only [prepareLayer, herr]
  have hunit : validateFetchUnitBytes tarImage.fetch.unitBytes.toNat = .ok () := rfl
  have hlayers : tarImage.layers = [tarLayer] := rfl
  have hprepare (answers : List LayerAnswers) :
      prepareCacheLayers headerJson pathIno "cache" tarImage tarImage.layers answers d.files =
        some (.error err, d.files) := by
    simp only [prepareCacheLayers, hunit, hlayers, prepareLayers, hlayer]
  have hagain : prepareImage headerJson pathIno "cache" tarImage {} d =
      some (.error err, { d with files := d.files }) := by
    simp only [prepareImage, hprepare]
  refine ⟨_, d, err, _, hfirst, ?_, hagain, (prepareImage_error_unchanged hagain).1 ⟨?_, ?_⟩⟩
  · rw [hinstances, Function.update_self]
    simp
  · intro prepared files hno
    exact absurd ((hprepare _).symm.trans hno) (by simp)
  · intro id live' hlive'
    obtain rfl : live' = live := by
      rw [hinstances] at hlive'
      by_cases hid : id = smallId
      · rw [hid, Function.update_self] at hlive'
        exact (Option.some.inj hlive').symm
      · rw [Function.update_of_ne hid] at hlive'
        exact absurd hlive' (by simp [emptyCache, start])
    have hfile : live'.inst.rangeMap.file = smallBitmap pathIno := by
      rw [hlive.rangeMap_eq]
      rfl
    refine ⟨fun _ => ?_, fun prepared files hno => absurd ((hprepare _).symm.trans hno) (by simp)⟩
    rw [hlayers, hfile]
    refine ⟨⟨fun _ n f' hsize => ?_, fun _ n f' hsize => ?_⟩, fun p files hno => ?_⟩
    · exact absurd (herr.symm.trans hsize) (by simp)
    · exact absurd (herr.symm.trans hsize) (by simp)
    · exact absurd ((hlayer _).symm.trans hno) (by simp)

/-- `smallImage` with another unit. -/
def unitImage : PrepareImageRequest := { smallImage with fetch := { unitBytes := 2097152 } }

theorem encodeHeader_unitImage :
    (headerJson.encode (expectedHeader newBlob 2097152 1)).length + 1 ≤ headerSize := by
  decide +kernel

/-- The bitmap file of an instance is reset by a preparation that then refuses the other unit. -/
theorem failed_prepare_resets_bitmap : ∃ prepared d live d',
    prepareImage headerJson pathIno "cache" smallImage {} emptyCache = some (.ok prepared, d) ∧
    d.instances smallId = some live ∧
    prepareImage headerJson pathIno "cache" unitImage {} d =
      some (.error (.conflict "instance already exists with different config"), d') ∧
    ¬ d.files.SameContents live.inst.rangeMap.file d'.files ∧ ¬ ImageUnchanged d d' := by
  have hapart : CacheApart pathIno "cache" := cacheApart_of_injective pathIno_injective "cache"
  have hne : smallSparse pathIno ≠ smallBitmap pathIno := hapart.sparse_ne_bitmap _ _
  obtain ⟨live, f, ⟨buf, hbuf, hlen, hheader, -⟩, hlive, hfirst⟩ := prepareImage_small hne
  obtain ⟨buf', hbuf'⟩ := exists_encodeHeader encodeHeader_unitImage
  have hlength' := length_encodeHeader hbuf'
  have hfile : live.inst.rangeMap.file = smallBitmap pathIno := by
    rw [hlive.rangeMap_eq]
    rfl
  have hget : (smallCache pathIno f).get (smallBitmap pathIno) = some f := Files.put_get_self _ _ _
  have hsparse : (smallCache pathIno f).get (smallSparse pathIno) = some (newFile.setLen 4096) :=
    (Files.put_get_of_ne _ _ hne).trans (Files.put_get_self _ _ _)
  -- the headers differ in the unit
  have hread : readHeader headerJson f = .ok (expectedHeader newBlob 1048576 1) :=
    readHeader_of_headerBytes hbuf (hlen ▸ Nat.le_add_right _ _) hheader
  have hother : readHeader headerJson f ≠ .ok (expectedHeader newBlob 2097152 1) := by
    rw [hread]
    intro hsame
    exact absurd (congrArg Header.unitBytes (Except.ok.inj hsame)) (by decide)
  obtain ⟨m, hm, hone⟩ : ∃ m, RangeMap.geometry (smallBitmap pathIno) smallLayer.blob.size
      unitImage.fetch.unitBytes = .ok m ∧ m.slotCount = 1 := ⟨_, rfl, rfl⟩
  have hopen : openOrCreate headerJson (smallBitmap pathIno) smallLayer.blob
      unitImage.fetch.unitBytes {} ((smallCache pathIno f).get (smallBitmap pathIno)) =
        (.ok ⟨m, List.replicate m.slotCount 0, false⟩,
          some (resetFile f m.slotCount buf' headerSize m.slotCount)) := by
    rw [hget]
    refine openOrCreate_reset hm ?_ ?_ <;> rw [hone]
    · exact hbuf'
    · exact hother
  have hcache : openCache headerJson pathIno (layerConfig "cache" unitImage smallLayer) {}
      (smallCache pathIno f) = some (.ok _, _) :=
    openCache_clear (openTarget_ok ((smallCache pathIno f).get_eq_some.mp hsparse).1) hopen rfl
  have hsame : live.inst.config.same
      { entryConfig "cache" unitImage (smallLayer, preparedLayer "cache" smallLayer 4096) with
        instanceId := smallId } = false := by
    rw [hlive.config_eq]
    decide
  have hagain := prepareImage_small_conflict rfl
    (prepareCacheLayers_smallCache hne rfl (by decide) hcache) (by decide) hsame
  have hnew : Function.update emptyCache.instances smallId (some live) smallId = some live :=
    Function.update_self _ _ _
  have hchanged : ¬ (smallCache pathIno f).SameContents live.inst.rangeMap.file
      ((smallCache pathIno f).put (smallBitmap pathIno)
        (some (resetFile f m.slotCount buf' headerSize m.slotCount))) := by
    rw [hfile]
    intro hcontents
    obtain ⟨f', hf', heq⟩ := hcontents f hget
    obtain rfl := Option.some.inj ((Files.put_get_self _ _ _).symm.trans hf')
    have hbytes : headerBytes (resetFile f m.slotCount buf' headerSize m.slotCount) =
        headerBytes f := List.map_congr_left fun p _ => (SparseFile.contents_eq_iff.mp heq).2 p
    rw [headerBytes_resetFile_all f hlength', hheader] at hbytes
    rw [hbytes] at hbuf'
    have hparse := (parseHeader_encodeHeader hbuf []).symm.trans (parseHeader_encodeHeader hbuf' [])
    exact absurd (congrArg Header.unitBytes (Except.ok.inj hparse)) (by decide)
  exact ⟨_, _, live, _, hfirst, hnew, hagain, hchanged,
    fun hsame => hchanged (hsame.bitmaps smallId live hnew)⟩

end Daemon

end Lazyd
