import Lazyd.Prepare.OnError

/-!
# Layers with one cache key

`cache_key` keeps the letters, the digits and the underscores of a digest and puts a hyphen in the
place of everything else. So the digests `sha256:abc` and `sha256-abc` have one key, and with it the
layers with these digests have one sparse file, one bitmap file and one instance. Nothing that a
layer is checked for excludes such digests.

## Main definitions

* `Prepare.SameInKey` : two characters with one character in the key.
* `Prepare.PreparedApart` : two prepared layers that share nothing.

## Main results

* `Prepare.cacheKey_eq_iff` : the digests with one key.
* `Prepare.prepared_apart_iff` : the layers that share nothing.
* `Prepare.layers_share_cache` : two layers that are accepted and share their files.

Source: `src/prepare.rs`, lines 99–141 and 175–190; `docs/prepare-image-api.md`, lines 73–75.
-/

namespace Lazyd

namespace Prepare

/-! ### Keys -/

/-- A character that is a hyphen in the key. -/
def isHyphened (c : Char) : Bool := !(c.isAlphanum || c == '_')

/-- Two characters with one character in the key. -/
def SameInKey (a b : Char) : Prop := a = b ∨ isHyphened a = true ∧ isHyphened b = true

instance (a b : Char) : Decidable (SameInKey a b) := inferInstanceAs (Decidable (_ ∨ _))

/-- The character of a key for a character of a digest. -/
def keyChar (c : Char) : Char := if c.isAlphanum || c == '-' || c == '_' then c else '-'

theorem keyChar_of_isHyphened {c : Char} (h : isHyphened c = true) : keyChar c = '-' := by
  rw [isHyphened, Bool.not_eq_true', Bool.or_eq_false_iff] at h
  rw [keyChar]
  split_ifs with hkept
  · rw [h.1, h.2, Bool.false_or, Bool.or_false] at hkept
    exact eq_of_beq hkept
  · rfl

theorem keyChar_of_not_isHyphened {c : Char} (h : isHyphened c = false) : keyChar c = c := by
  rw [isHyphened, Bool.not_eq_false'] at h
  have hkept : (c.isAlphanum || c == '-' || c == '_') = true := by
    rcases Bool.or_eq_true_iff.mp h with h | h <;> simp [h]
  rw [keyChar, if_pos hkept]

theorem keyChar_eq_iff {a b : Char} : keyChar a = keyChar b ↔ SameInKey a b := by
  have hhyphen : isHyphened '-' = true := by decide
  constructor
  · intro h
    cases ha : isHyphened a with
    | true =>
      cases hb : isHyphened b with
      | true => exact Or.inr ⟨ha, hb⟩
      | false =>
        rw [keyChar_of_isHyphened ha, keyChar_of_not_isHyphened hb] at h
        exact absurd (h ▸ hhyphen) (by simp [hb])
    | false =>
      cases hb : isHyphened b with
      | true =>
        rw [keyChar_of_not_isHyphened ha, keyChar_of_isHyphened hb] at h
        exact absurd (h ▸ hhyphen) (by simp [ha])
      | false =>
        rw [keyChar_of_not_isHyphened ha, keyChar_of_not_isHyphened hb] at h
        exact Or.inl h
  · rintro (rfl | ⟨ha, hb⟩)
    · rfl
    · rw [keyChar_of_isHyphened ha, keyChar_of_isHyphened hb]

/-- **Digests with one key.** They are as long as each other, and at every place they have the same
character or two that are hyphens in the key. -/
theorem cacheKey_eq_iff (digest digest' : String) : cacheKey digest = cacheKey digest' ↔
    List.Forall₂ SameInKey digest.toList digest'.toList := by
  have hkeys : cacheKey digest = cacheKey digest' ↔
      digest.toList.map keyChar = digest'.toList.map keyChar := String.ofList_inj
  rw [hkeys, ← List.forall₂_eq_eq_eq, List.forall₂_map_left_iff, List.forall₂_map_right_iff]
  simp only [keyChar_eq_iff]

/-! ### Prepared layers -/

/-- Two prepared layers that share nothing. -/
structure PreparedApart (p p' : PreparedLayer) : Prop where
  sparsePath : p.sparsePath ≠ p'.sparsePath
  bitmapPath : p.bitmapPath ≠ p'.bitmapPath
  instanceId : p.instanceId ≠ p'.instanceId
  sparse_ne_bitmap : p.sparsePath ≠ p'.bitmapPath
  bitmap_ne_sparse : p.bitmapPath ≠ p'.sparsePath

section Apart

variable {codec : HeaderCodec} {ino : String → FileKey} {cacheRoot : String}
  {request request' : PrepareImageRequest} {layers layers' : List PrepareLayerDescriptor}
  {layer layer' : PrepareLayerDescriptor} {p p' : PreparedLayer}
  {answers answers' : List LayerAnswers} {files files' after after' : Files}
  {prepared prepared' : List PreparedLayer}

theorem instanceId_inj {key key' : String} (h : Prepare.instanceId key = Prepare.instanceId key') :
    key = key' := by
  have hid := congrArg String.toList h
  rw [Prepare.instanceId, Prepare.instanceId, String.toList_append, String.toList_append,
    List.append_right_inj] at hid
  exact String.toList_inj.mp hid

theorem preparedLayer_apart_iff (n n' : ℕ) :
    PreparedApart (preparedLayer cacheRoot layer n) (preparedLayer cacheRoot layer' n') ↔
      cacheKey layer.digest ≠ cacheKey layer'.digest := by
  constructor
  · intro h hkey
    exact h.instanceId (congrArg Prepare.instanceId hkey)
  · intro hkey
    exact {
      sparsePath := fun h => hkey (sparsePath_cacheKey_inj h)
      bitmapPath := fun h => hkey (sparsePath_cacheKey_inj (bitmapPath_inj h))
      instanceId := fun h => hkey (instanceId_inj h)
      sparse_ne_bitmap := sparsePath_ne_bitmapPath _ _ _
      bitmap_ne_sparse := (sparsePath_ne_bitmapPath _ _ _).symm }

/-- The answer for a layer that has been accepted. -/
theorem prepareCacheLayers_prepared
    (h : prepareCacheLayers codec ino cacheRoot request layers answers files =
      some (.ok prepared, after)) (hmem : (layer, p) ∈ layers.zip prepared) :
    ∃ n, p = preparedLayer cacheRoot layer n := by
  rw [prepareCacheLayers] at h
  split at h
  · exact absurd h (by simp)
  · obtain ⟨n, -, hp⟩ := List.forall₂_zip (prepareLayers_prepared h) hmem
    exact ⟨n, hp⟩

/-- **Layers that share nothing.** Let two layers be accepted under one cache root, in one request
or in two. They share neither a file nor an instance exactly when their digests differ in their
lengths or at a place where one of the two characters is a letter, a digit or an underscore. -/
theorem prepared_apart_iff
    (h : prepareCacheLayers codec ino cacheRoot request layers answers files =
      some (.ok prepared, after))
    (h' : prepareCacheLayers codec ino cacheRoot request' layers' answers' files' =
      some (.ok prepared', after'))
    (hmem : (layer, p) ∈ layers.zip prepared) (hmem' : (layer', p') ∈ layers'.zip prepared') :
    PreparedApart p p' ↔ ¬ List.Forall₂ SameInKey layer.digest.toList layer'.digest.toList := by
  obtain ⟨n, rfl⟩ := prepareCacheLayers_prepared h hmem
  obtain ⟨n', rfl⟩ := prepareCacheLayers_prepared h' hmem'
  rw [preparedLayer_apart_iff, ne_eq, cacheKey_eq_iff]

end Apart

end Prepare

/-! ### Two layers of a small image -/

namespace Daemon

open Prepare

/-- `smallLayer` with another digest. -/
def smallLayerOf (digest : String) : PrepareLayerDescriptor := { smallLayer with digest }

/-- A layer whose digest differs from that of `smallLayer` in a hyphen for the colon. -/
def hyphenLayer : PrepareLayerDescriptor := smallLayerOf "sha256-abc"

/-- A layer of another blob. -/
def oldLayer : PrepareLayerDescriptor := smallLayerOf oldBlob.digest

theorem cacheKey_hyphenLayer : cacheKey hyphenLayer.digest = cacheKey smallLayer.digest := by
  decide

theorem encodeHeader_hyphenLayer :
    (headerJson.encode (expectedHeader hyphenLayer.blob 1048576 1)).length + 1 ≤ headerSize := by
  decide +kernel

section Small

variable {ino : String → FileKey}

/-- A layer with the key of `smallLayer` is accepted after it: the bitmap file is reset. -/
theorem prepareLayer_hyphenLayer (hne : smallSparse ino ≠ smallBitmap ino) {f : File}
    (hf : FreshBitmap f) : ∃ files,
      prepareLayer headerJson ino "cache" smallImage hyphenLayer {} (smallCache ino f) =
        some (.ok (preparedLayer "cache" hyphenLayer 4096), files) := by
  obtain ⟨buf, hbuf, hlen, hheader, -⟩ := hf
  obtain ⟨buf', hbuf'⟩ := exists_encodeHeader encodeHeader_hyphenLayer
  have hsparse : (smallCache ino f).get (smallSparse ino) = some (newFile.setLen 4096) :=
    (Files.put_get_of_ne _ _ hne).trans (Files.put_get_self _ _ _)
  have hbitmap : (smallCache ino f).get (smallBitmap ino) = some f := Files.put_get_self _ _ _
  -- the headers differ in the digest
  have hother : readHeader headerJson f ≠ .ok (expectedHeader hyphenLayer.blob 1048576 1) := by
    rw [readHeader_of_headerBytes hbuf (hlen ▸ Nat.le_add_right _ _) hheader]
    intro hsame
    exact absurd (congrArg Header.blobDigest (Except.ok.inj hsame)) (by decide)
  have hcreate : createSparseFile (sparsePath "cache" (cacheKey hyphenLayer.digest)) 4096 {}
      ((smallCache ino f).get (smallSparse ino)) = (.ok (), some (newFile.setLen 4096)) := by
    have hlt : (newFile.setLen 4096).len < 2 ^ 63 := by decide
    rw [hsparse]
    exact createSparseFile_same hlt
  have hopen : openOrCreate headerJson (smallBitmap ino) hyphenLayer.blob
      smallImage.fetch.unitBytes {} ((smallCache ino f).get (smallBitmap ino)) =
        (.ok ⟨smallMap ino, List.replicate (smallMap ino).slotCount 0, false⟩,
          some (resetFile f 1 buf' headerSize 1)) := by
    rw [hbitmap]
    exact openOrCreate_reset (smallLayer_geometry ino) hbuf' hother
  have htarget : ino (sparsePath "cache" (cacheKey hyphenLayer.digest)) = smallSparse ino := by
    rw [cacheKey_hyphenLayer, smallSparse]
  have hfile : ino (bitmapPath (sparsePath "cache" (cacheKey hyphenLayer.digest))) =
      smallBitmap ino := by
    rw [cacheKey_hyphenLayer, smallBitmap]
  have hput : (smallCache ino f).put (smallSparse ino) (some (newFile.setLen 4096)) =
      smallCache ino f := Files.put_of_get _ hsparse
  rw [← hfile] at hopen
  obtain ⟨live, files, hcache⟩ : ∃ live files, openCache headerJson ino
      (layerConfig "cache" smallImage hyphenLayer) {} (smallCache ino f) =
        some (.ok live, files) := by
    have hpresent : (smallCache ino f).present
        (ino (layerConfig "cache" smallImage hyphenLayer).targetPath) = true :=
      htarget ▸ ((smallCache ino f).get_eq_some.mp hsparse).1
    exact ⟨_, _, openCache_clear (openTarget_ok hpresent) hopen rfl⟩
  rw [← hput] at hcache
  rw [← htarget] at hcreate hcache
  exact ⟨_, prepareLayer_of_ok (by decide) rfl hcreate hcache⟩

/-- Both layers are accepted in one request. -/
theorem prepareCacheLayers_hyphenLayer (hne : smallSparse ino ≠ smallBitmap ino) : ∃ files,
    prepareCacheLayers headerJson ino "cache" smallImage [smallLayer, hyphenLayer] []
      emptyCache.files = some (.ok [preparedLayer "cache" smallLayer 4096,
        preparedLayer "cache" hyphenLayer 4096], files) := by
  obtain ⟨f, hf, hfirst⟩ := prepareLayer_small hne
  obtain ⟨files, hsecond⟩ := prepareLayer_hyphenLayer hne hf
  have hunit : validateFetchUnitBytes smallImage.fetch.unitBytes.toNat = .ok () := rfl
  refine ⟨files, ?_⟩
  simp only [prepareCacheLayers, hunit, prepareLayers, List.headD_nil, List.tail_nil, hfirst,
    hsecond]

/-- A layer of three bytes is accepted in an empty cache. -/
theorem prepareCacheLayers_smallLayerOf {digest : String}
    (hheader :
      (headerJson.encode (expectedHeader (smallLayerOf digest).blob 1048576 1)).length + 1 ≤
        headerSize)
    (hne : ino (sparsePath "cache" (cacheKey digest)) ≠
      ino (bitmapPath (sparsePath "cache" (cacheKey digest)))) : ∃ files,
    prepareCacheLayers headerJson ino "cache" smallImage [smallLayerOf digest] [] emptyCache.files =
      some (.ok [preparedLayer "cache" (smallLayerOf digest) 4096], files) := by
  obtain ⟨buf, hbuf⟩ := exists_encodeHeader hheader
  let m : RangeMap := { smallInstance.rangeMap with
    file := ino (bitmapPath (sparsePath "cache" (cacheKey digest))) }
  have hm : RangeMap.geometry m.file smallLayer.blob.size smallImage.fetch.unitBytes = .ok m :=
    m.geometry_self rfl rfl
  have hencode : encodeHeader headerJson (expectedHeader (smallLayerOf digest).blob
      smallImage.fetch.unitBytes m.slotCount) = .ok buf := hbuf
  have hsize : layerPmemSize smallImage (smallLayerOf digest) = .ok 4096 := by
    have hsame : layerPmemSize smallImage (smallLayerOf digest) =
        layerPmemSize smallImage smallLayer := rfl
    rw [hsame]
    decide
  obtain ⟨files, hlayer⟩ : ∃ files, prepareLayer headerJson ino "cache" smallImage
      (smallLayerOf digest) {} emptyCache.files =
        some (.ok (preparedLayer "cache" (smallLayerOf digest) 4096), files) :=
    ⟨_, prepareLayer_new hsize (by decide) hm hencode hne rfl rfl⟩
  have hunit : validateFetchUnitBytes smallImage.fetch.unitBytes.toNat = .ok () := rfl
  refine ⟨files, ?_⟩
  simp only [prepareCacheLayers, hunit, prepareLayers, List.headD_nil, hlayer]

end Small

/-- The two layers have different digests and are accepted in one request, with one sparse file, one
bitmap file and one instance. -/
theorem layers_share_cache : ∃ p p' files,
    prepareCacheLayers headerJson pathIno "cache" smallImage [smallLayer, hyphenLayer] []
      emptyCache.files = some (.ok [p, p'], files) ∧
    smallLayer.digest ≠ hyphenLayer.digest ∧ p.sparsePath = p'.sparsePath ∧
    p.bitmapPath = p'.bitmapPath ∧ p.instanceId = p'.instanceId := by
  have hapart : CacheApart pathIno "cache" := cacheApart_of_injective pathIno_injective "cache"
  obtain ⟨files, hprepare⟩ := prepareCacheLayers_hyphenLayer (hapart.sparse_ne_bitmap _ _)
  refine ⟨_, _, files, hprepare, by decide, ?_⟩
  simp only [preparedLayer, cacheKey_hyphenLayer, and_self]

/-- `prepared_apart_iff` for `smallLayer` and a layer of another blob. -/
theorem prepared_apart_small : PreparedApart (preparedLayer "cache" smallLayer 4096)
    (preparedLayer "cache" oldLayer 4096) := by
  have hapart : CacheApart pathIno "cache" := cacheApart_of_injective pathIno_injective "cache"
  obtain ⟨f, -, hfirst⟩ := prepareCacheLayers_small (hapart.sparse_ne_bitmap _ _)
  obtain ⟨files, hsecond⟩ := prepareCacheLayers_smallLayerOf
    (encodeHeader_small oldBlob (by decide)) (hapart.sparse_ne_bitmap _ _)
  exact (prepared_apart_iff hfirst hsecond List.mem_cons_self List.mem_cons_self).mpr (by decide)

end Daemon

end Lazyd
