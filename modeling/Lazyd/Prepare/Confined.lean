import Lazyd.Control.Routes
import Lazyd.Remote.AuthParams
import Lazyd.Prepare.Keys

/-!
# Prepared layers stay in the cache

A client chooses the digests of the layers, and with them the directories that
`prepare_cache_layers` makes and the ids of the instances. Every key consists of letters, digits,
hyphens and underscores, whatever the digest is. So it is a name that leads down by one directory,
or no name at all where the digest is empty; and an id made from it is read back from the requests
that name it.

## Main definitions

* `Prepare.names` : the names in a path.
* `Prepare.Below` : a path that leads down from a directory.
* `Prepare.createDirAll` : the directories that `create_dir_all` makes.
* `Prepare.Confined` : the directory and the files of an entry are below the cache root.

## Main results

* `Prepare.isKeyChar_of_mem_cacheKey` : the characters of a key.
* `Prepare.names_rootPrefix` : the names in a path that has been joined.
* `Prepare.confined` : the entry of any digest.
* `Prepare.prepareLayers_get_of_ne` : the files that preparing changes.
* `Prepare.prepared_confined_addressable` : the main theorem.

Source: `src/prepare.rs`, lines 99–190; `src/control.rs`, lines 188–246.
-/

namespace Lazyd

namespace Prepare

open Oci (isKeyChar isKeyChar_ne)

/-! ### Paths that lead down -/

/-- The names in a path; empty ones do not matter. -/
def names (path : List Char) : List (List Char) := (path.splitOnP (· = '/')).filter (· ≠ [])

/-- A name of an entry of a directory: it is not the directory itself and not the one above. -/
structure IsName (name : List Char) : Prop where
  ne_nil : name ≠ []
  ne_dot : name ≠ ['.']
  ne_dots : name ≠ ['.', '.']
  slash : '/' ∉ name
  nul : Char.ofNat 0 ∉ name

/-- From the directory `root`, the path leads down through the names `rest`. -/
structure Below (root path : String) (rest : List (List Char)) : Prop where
  absolute : path.toList.head? = some '/' ↔ root.toList.head? = some '/'
  names_eq : names path.toList = names root.toList ++ rest
  isName : ∀ name ∈ rest, IsName name

/-- The directories that `std::fs::create_dir_all` makes for a path with the given names, the last
name first: the path itself and the ones above it, up to the first that is a directory already. -/
def createDirAll (isDir : List (List Char) → Bool) : List (List Char) → List (List (List Char))
  | [] => []
  | name :: above =>
    if isDir (name :: above) then [] else createDirAll isDir above ++ [name :: above]

theorem createDirAll_of_isDir {isDir : List (List Char) → Bool} {path : List (List Char)}
    (h : isDir path = true) : createDirAll isDir path = [] := by
  cases path with
  | nil => rfl
  | cons name above => rw [createDirAll, if_pos h]

theorem eq_of_mem_createDirAll {isDir : List (List Char) → Bool} {name : List Char}
    {above made : List (List Char)} (h : isDir above = true)
    (hmade : made ∈ createDirAll isDir (name :: above)) : made = name :: above := by
  rw [createDirAll, createDirAll_of_isDir h] at hmade
  split_ifs at hmade
  · exact absurd hmade List.not_mem_nil
  · exact List.mem_singleton.mp hmade

theorem names_slash (path rest : List Char) :
    names (path ++ '/' :: rest) = names path ++ names rest := by
  rw [names, List.splitOnP_append_cons _ _ (by decide), List.filter_append]
  rfl

theorem names_nil : names [] = [] := rfl

theorem names_of_slash_notMem {name : List Char} (h : '/' ∉ name) :
    names name = if name = [] then [] else [name] := by
  have hsplit : name.splitOnP (· = '/') = [name] :=
    List.splitOnP_eq_singleton fun c hc => decide_eq_false fun heq => h (heq ▸ hc)
  rw [names, hsplit]
  split_ifs with hname
  · rw [hname]
    rfl
  · exact List.filter_cons_of_pos (decide_eq_true hname)

/-- **The names in a path that has been joined.** -/
theorem names_rootPrefix (root : String) (rest : List Char) :
    names (rootPrefix root ++ rest) = names root.toList ++ names rest := by
  rw [rootPrefix]
  split_ifs with h
  · rcases h with rfl | h
    · rfl
    · -- the root ends with a slash
      obtain ⟨above, habove⟩ := List.getLast?_eq_some_iff.mp h
      rw [habove, List.append_assoc, List.singleton_append, names_slash, names_slash, names_nil,
        List.append_nil]
  · rw [List.append_assoc, List.singleton_append, names_slash]

/-- A path that has been joined from the root and a path that leads down. -/
theorem below_of_append {root path : String} {rest : List Char}
    (h : path.toList = rootPrefix root ++ rest) (hhead : rest.head? ≠ some '/')
    (hnames : ∀ name ∈ names rest, IsName name) : Below root path (names rest) where
  absolute := by
    rw [h, rootPrefix]
    split_ifs with hroot
    · cases hlist : root.toList with
      | nil => simpa using hhead
      | cons c cs => rfl
    · cases hlist : root.toList with
      | nil => exact absurd (Or.inl (String.toList_inj.mp hlist)) hroot
      | cons c cs => rfl
  names_eq := by rw [h, names_rootPrefix]
  isName := hnames

/-! ### The entry of a digest -/

/-- **The characters of a key**: letters, digits, hyphens and underscores. -/
theorem isKeyChar_of_mem_cacheKey {digest : String} :
    ∀ c ∈ (cacheKey digest).toList, isKeyChar c = true := by
  intro c hc
  rw [cacheKey, String.toList_ofList, List.mem_map] at hc
  obtain ⟨ch, -, rfl⟩ := hc
  split_ifs with hch
  · simpa [isKeyChar] using hch
  · decide

theorem isName_of_mem {name : List Char} {c : Char} (hmem : c ∈ name) (hc : c ≠ '.')
    (hslash : '/' ∉ name) (hnul : Char.ofNat 0 ∉ name) : IsName name where
  ne_nil := List.ne_nil_of_mem hmem
  ne_dot := by
    rintro rfl
    exact hc (List.mem_singleton.mp hmem)
  ne_dots := by
    rintro rfl
    simp only [List.mem_cons, List.not_mem_nil, or_false, or_self] at hmem
    exact hc hmem
  slash := hslash
  nul := hnul

theorem isName_cacheKey {digest : String} (h : (cacheKey digest).toList ≠ []) :
    IsName (cacheKey digest).toList := by
  obtain ⟨c, hmem⟩ := List.exists_mem_of_ne_nil _ h
  refine isName_of_mem hmem ?_ (slash_notMem_cacheKey digest) ?_
  · rintro rfl
    exact absurd (isKeyChar_of_mem_cacheKey _ hmem) (by decide)
  · intro hnul
    exact absurd (isKeyChar_of_mem_cacheKey _ hnul) (by decide)

/-- The names of the directory of an entry below the cache root: its key, if that is not empty. -/
def entryNames (digest : String) : List (List Char) := names (cacheKey digest).toList

theorem entryNames_eq (digest : String) : entryNames digest =
    if (cacheKey digest).toList = [] then [] else [(cacheKey digest).toList] :=
  names_of_slash_notMem (slash_notMem_cacheKey digest)

theorem isName_of_mem_entryNames {digest : String} : ∀ name ∈ entryNames digest, IsName name := by
  rw [entryNames_eq]
  split_ifs with hkey
  · simp
  · intro name hname
    rw [List.mem_singleton.mp hname]
    exact isName_cacheKey hkey

/-- The directory of an entry, as `prepare_cache_layers` joins it. -/
def layerDir (cacheRoot digest : String) : String := joinPath cacheRoot (cacheKey digest)

/-- **The entry of a digest is confined.** Its directory is the cache root or one below it, making
it makes no other directory where the cache root exists, and its two files are in it. -/
structure Confined (cacheRoot digest : String) (dir : List (List Char)) : Prop where
  length_le : dir.length ≤ 1
  dir_below : Below cacheRoot (layerDir cacheRoot digest) dir
  created : ∀ isDir : List (List Char) → Bool, isDir (names cacheRoot.toList).reverse = true →
    ∀ made ∈ createDirAll isDir (names (layerDir cacheRoot digest).toList).reverse,
      dir ≠ [] ∧ made = (names (layerDir cacheRoot digest).toList).reverse
  sparse_below : Below cacheRoot (sparsePath cacheRoot (cacheKey digest))
    (dir ++ ["layer.erofs".toList])
  bitmap_below : Below cacheRoot (bitmapPath (sparsePath cacheRoot (cacheKey digest)))
    (dir ++ ["layer.erofs.bitmap".toList])

/-- A file in the directory of an entry. -/
theorem below_entryFile {cacheRoot digest path : String} {name : List Char} (hname : IsName name)
    (h : path.toList = rootPrefix cacheRoot ++
      ((if (cacheKey digest).toList = [] then [] else (cacheKey digest).toList ++ ['/']) ++ name)) :
    Below cacheRoot path (entryNames digest ++ [name]) := by
  have hsingle : names name = [name] := by
    rw [names_of_slash_notMem hname.slash, if_neg hname.ne_nil]
  have hnames : names ((if (cacheKey digest).toList = [] then [] else
      (cacheKey digest).toList ++ ['/']) ++ name) = entryNames digest ++ [name] := by
    rw [entryNames_eq]
    split_ifs with hkey
    · exact hsingle
    · rw [List.append_assoc, List.singleton_append, names_slash,
        names_of_slash_notMem (slash_notMem_cacheKey digest), if_neg hkey, hsingle]
  rw [← hnames]
  refine below_of_append h ?_ ?_
  · intro hhead
    split_ifs at hhead with hkey
    · exact hname.slash (List.mem_of_mem_head? hhead)
    · obtain ⟨c, key, hcons⟩ := List.exists_cons_of_ne_nil hkey
      rw [hcons] at hhead
      exact slash_notMem_cacheKey digest (hcons ▸ Option.some.inj hhead ▸ List.mem_cons_self)
  · rw [hnames]
    intro name' hname'
    rcases List.mem_append.mp hname' with hmem | hmem
    · exact isName_of_mem_entryNames _ hmem
    · exact List.mem_singleton.mp hmem ▸ hname

theorem below_layerDir (cacheRoot digest : String) :
    Below cacheRoot (layerDir cacheRoot digest) (entryNames digest) := by
  refine below_of_append (toList_joinPath _ _) (fun hhead => ?_) isName_of_mem_entryNames
  exact slash_notMem_cacheKey digest (List.mem_of_mem_head? hhead)

/-- **The entry of any digest is confined.** -/
theorem confined (cacheRoot digest : String) :
    Confined cacheRoot digest (entryNames digest) where
  length_le := by
    rw [entryNames_eq]
    split_ifs <;> simp
  dir_below := below_layerDir cacheRoot digest
  created := by
    intro isDir hroot made hmade
    have hdir := (below_layerDir cacheRoot digest).names_eq
    rw [hdir] at hmade ⊢
    rw [entryNames_eq] at hmade ⊢
    split_ifs at hmade ⊢ with hkey
    · -- the directory is the cache root
      rw [List.append_nil, createDirAll_of_isDir hroot] at hmade
      exact absurd hmade List.not_mem_nil
    · rw [List.reverse_append, List.reverse_singleton, List.singleton_append] at hmade ⊢
      exact ⟨List.cons_ne_nil _ _, eq_of_mem_createDirAll hroot hmade⟩
  sparse_below := by
    have hname : IsName "layer.erofs".toList :=
      isName_of_mem (by decide : 'l' ∈ "layer.erofs".toList) (by decide) (by decide) (by decide)
    exact below_entryFile hname (toList_sparsePath cacheRoot digest)
  bitmap_below := by
    have hname : IsName "layer.erofs.bitmap".toList :=
      isName_of_mem (by decide : 'l' ∈ "layer.erofs.bitmap".toList) (by decide) (by decide)
        (by decide)
    have hjoin : "layer.erofs".toList ++ ".bitmap".toList = "layer.erofs.bitmap".toList := by decide
    refine below_entryFile hname ?_
    rw [bitmapPath, String.toList_append, toList_sparsePath, List.append_assoc, List.append_assoc,
      hjoin]

/-! ### The files that preparing changes -/

section Files

variable {codec : HeaderCodec} {ino : String → FileKey} {cacheRoot : String}
  {request : PrepareImageRequest} {layers : List PrepareLayerDescriptor}
  {answers : List LayerAnswers} {files after : Files}

/-- A file that is none of the files of the layers is left as it is. -/
theorem prepareLayers_get_of_ne {res : Except Error (List PreparedLayer)} {key : FileKey}
    (hne : ∀ layer ∈ layers, key ≠ ino (sparsePath cacheRoot (cacheKey layer.digest)) ∧
      key ≠ ino (bitmapPath (sparsePath cacheRoot (cacheKey layer.digest))))
    (h : prepareLayers codec ino cacheRoot request layers answers files = some (res, after)) :
    after.get key = files.get key := by
  induction layers generalizing answers files res with
  | nil =>
    obtain ⟨-, rfl⟩ := Prod.mk.inj (Option.some.inj h)
    rfl
  | cons layer layers ih =>
    obtain ⟨hsparse, hbitmap⟩ := hne layer List.mem_cons_self
    have hrest := fun layer' hmem => hne layer' (List.mem_cons_of_mem _ hmem)
    rw [prepareLayers] at h
    split at h
    · exact absurd h (by simp)
    · rename_i files₁ hlayer
      obtain ⟨-, rfl⟩ := Prod.mk.inj (Option.some.inj h)
      exact (PreparesLayer.of_prepareLayer hlayer).get_of_ne hsparse hbitmap
    · rename_i p files₁ hlayer
      rw [← (PreparesLayer.of_prepareLayer hlayer).get_of_ne hsparse hbitmap]
      split at h
      · exact absurd h (by simp)
      · rename_i err files₂ hlayers
        obtain ⟨-, rfl⟩ := Prod.mk.inj (Option.some.inj h)
        exact ih hrest hlayers
      · rename_i rest files₂ hlayers
        obtain ⟨-, rfl⟩ := Prod.mk.inj (Option.some.inj h)
        exact ih hrest hlayers

theorem addressable_instanceId (digest : String) :
    Http.Addressable (instanceId (cacheKey digest)) := by
  have hchars : ∀ c ∈ (instanceId (cacheKey digest)).toList, isKeyChar c = true := by
    have herofs : "erofs-".toList.all isKeyChar = true := by decide
    intro c hc
    rw [instanceId, String.toList_append, List.mem_append] at hc
    exact hc.elim (List.all_eq_true.mp herofs c) (isKeyChar_of_mem_cacheKey c)
  have hid : Http.IsId (instanceId (cacheKey digest)) := {
    ne_nil := by
      rw [instanceId, String.toList_append]
      exact List.append_ne_nil_of_left_ne_nil (by decide) _
    slash := fun hmem => absurd (hchars _ hmem) (by decide) }
  exact hid.addressable fun c hc => (isKeyChar_ne (hchars c hc)).1

/-- **Prepared layers are confined and addressable.** However layers with any digests are prepared,
and whatever comes of it: a file that changes is the sparse file or the bitmap file of a layer; the
directory and the files of every layer are below the cache root, by one directory at most; and the
ids in the answer can be named by requests. -/
theorem prepared_confined_addressable {res : Except Error (List PreparedLayer)}
    (h : prepareCacheLayers codec ino cacheRoot request layers answers files = some (res, after)) :
    (∀ key, after.get key ≠ files.get key → ∃ layer ∈ layers,
      key = ino (sparsePath cacheRoot (cacheKey layer.digest)) ∨
      key = ino (bitmapPath (sparsePath cacheRoot (cacheKey layer.digest)))) ∧
    (∀ layer ∈ layers, ∃ dir, Confined cacheRoot layer.digest dir) ∧
    ∀ prepared, res = .ok prepared → ∀ q ∈ layers.zip prepared,
      q.2.sparsePath = sparsePath cacheRoot (cacheKey q.1.digest) ∧
      q.2.bitmapPath = bitmapPath (sparsePath cacheRoot (cacheKey q.1.digest)) ∧
      Http.Addressable q.2.instanceId := by
  refine ⟨fun key hchanged => ?_, fun layer _ => ⟨_, confined cacheRoot layer.digest⟩, ?_⟩
  · by_contra hno
    simp only [not_exists, not_and, not_or] at hno
    rw [prepareCacheLayers] at h
    split at h
    · obtain ⟨-, rfl⟩ := Prod.mk.inj (Option.some.inj h)
      exact hchanged rfl
    · exact hchanged (prepareLayers_get_of_ne hno h)
  · rintro prepared rfl q hq
    obtain ⟨n, hp⟩ := prepareCacheLayers_prepared h hq
    rw [hp]
    exact ⟨rfl, rfl, addressable_instanceId q.1.digest⟩

end Files

end Prepare

/-! ### A digest that looks like a path -/

namespace Daemon

open Prepare

/-- A layer whose digest leads up, with a space, a null character and no ASCII letter in it. -/
def oddLayer : PrepareLayerDescriptor := smallLayerOf "../\x00 é"

example : cacheKey oddLayer.digest = "------" := by decide

theorem encodeHeader_oddLayer :
    (headerJson.encode (expectedHeader oddLayer.blob 1048576 1)).length + 1 ≤ headerSize := by
  decide +kernel

/-- `prepared_confined_addressable` for `oddLayer`. -/
theorem oddLayer_confined : ∃ p after,
    prepareCacheLayers headerJson pathIno "cache" smallImage [oddLayer] [] emptyCache.files =
      some (.ok [p], after) ∧
    (∃ dir, Confined "cache" oddLayer.digest dir) ∧ Http.Addressable p.instanceId := by
  have hapart : CacheApart pathIno "cache" := cacheApart_of_injective pathIno_injective "cache"
  obtain ⟨after, hprepare⟩ :=
    prepareCacheLayers_smallLayerOf encodeHeader_oddLayer (hapart.sparse_ne_bitmap _ _)
  obtain ⟨-, hconfined, haddressable⟩ := prepared_confined_addressable hprepare
  exact ⟨_, after, hprepare, hconfined oddLayer List.mem_cons_self,
    (haddressable _ rfl _ List.mem_cons_self).2.2⟩

end Daemon

end Lazyd
