import Mathlib.Logic.Equiv.List
import Lazyd.Prepare.Layers

/-!
# The paths of the cache

The cache entry of a key has a directory of its own below the cache root, with the sparse file and,
next to it, the bitmap file. So the paths of two entries differ, and no sparse file has the path of
a bitmap file. Where no links are put into the cache, two of these paths name two files.

## Main definitions

* `Prepare.CacheApart` : the paths of the cache name files of their own.
* `Prepare.pathIno` : a file for every path.

## Main results

* `Prepare.sparsePath_ne_bitmapPath`, `Prepare.sparsePath_cacheKey_inj`.
* `Prepare.cacheApart_of_injective`.

Source: `src/prepare.rs`, lines 113–118 and 172–194; `src/range_map.rs`, lines 181–183.
-/

namespace Lazyd.Prepare

/-- The sparse files and the bitmap files of the cache are files of their own. -/
structure CacheApart (ino : String → FileKey) (cacheRoot : String) : Prop where
  sparse_ne_bitmap : ∀ k k',
    ino (sparsePath cacheRoot k) ≠ ino (bitmapPath (sparsePath cacheRoot k'))
  sparse_inj : ∀ digest digest', ino (sparsePath cacheRoot (cacheKey digest)) =
    ino (sparsePath cacheRoot (cacheKey digest')) → cacheKey digest = cacheKey digest'
  bitmap_inj : ∀ digest digest', ino (bitmapPath (sparsePath cacheRoot (cacheKey digest))) =
    ino (bitmapPath (sparsePath cacheRoot (cacheKey digest'))) → cacheKey digest = cacheKey digest'

/-! ### The paths -/

theorem getLast?_sparsePath (cacheRoot k : String) :
    (sparsePath cacheRoot k).toList.getLast? = some 's' := by
  have hname : "layer.erofs".toList.getLast? = some 's' := rfl
  rw [sparsePath, joinPath]
  split_ifs <;> rw [String.toList_append, List.getLast?_append, hname, Option.some_or]

theorem getLast?_bitmapPath (path : String) : (bitmapPath path).toList.getLast? = some 'p' := by
  have hname : ".bitmap".toList.getLast? = some 'p' := rfl
  rw [bitmapPath, String.toList_append, List.getLast?_append, hname, Option.some_or]

/-- No sparse file has the path of a bitmap file. -/
theorem sparsePath_ne_bitmapPath (cacheRoot k k' : String) :
    sparsePath cacheRoot k ≠ bitmapPath (sparsePath cacheRoot k') := by
  intro h
  have hlast := getLast?_sparsePath cacheRoot k
  rw [h, getLast?_bitmapPath] at hlast
  exact absurd (Option.some.inj hlast) (by decide)

theorem bitmapPath_inj {path path' : String} (h : bitmapPath path = bitmapPath path') :
    path = path' := by
  have hpath := congrArg String.toList h
  rw [bitmapPath, bitmapPath, String.toList_append, String.toList_append,
    List.append_left_inj] at hpath
  exact String.toList_inj.mp hpath

theorem slash_notMem_cacheKey (digest : String) : '/' ∉ (cacheKey digest).toList := by
  rw [cacheKey, String.toList_ofList, List.mem_map]
  rintro ⟨ch, -, h⟩
  split_ifs at h with hch
  · rw [h] at hch
    exact absurd hch (by decide)
  · exact absurd h (by decide)

/-- What stands before the key in the path of an entry. -/
def rootPrefix (cacheRoot : String) : List Char :=
  if cacheRoot = "" ∨ cacheRoot.toList.getLast? = some '/' then cacheRoot.toList
  else cacheRoot.toList ++ ['/']

theorem rootPrefix_getLast? (cacheRoot : String) :
    rootPrefix cacheRoot = [] ∨ (rootPrefix cacheRoot).getLast? = some '/' := by
  rw [rootPrefix]
  split_ifs with h
  · rcases h with rfl | h
    · exact Or.inl rfl
    · exact Or.inr h
  · exact Or.inr (by rw [List.getLast?_append]; rfl)

theorem toList_joinPath (path part : String) :
    (joinPath path part).toList = rootPrefix path ++ part.toList := by
  rw [joinPath, rootPrefix]
  split_ifs with h
  · rw [String.toList_append]
  · rw [String.toList_append, String.toList_append]
    rfl

/-- The path of the sparse file of an entry. -/
theorem toList_sparsePath (cacheRoot digest : String) :
    (sparsePath cacheRoot (cacheKey digest)).toList = rootPrefix cacheRoot ++
      ((if (cacheKey digest).toList = [] then [] else (cacheKey digest).toList ++ ['/']) ++
        "layer.erofs".toList) := by
  have hdir := toList_joinPath cacheRoot (cacheKey digest)
  rw [sparsePath, toList_joinPath, ← List.append_assoc]
  congr 1
  rw [rootPrefix, hdir]
  have hempty : joinPath cacheRoot (cacheKey digest) = "" ↔
      rootPrefix cacheRoot ++ (cacheKey digest).toList = [] := by
    rw [← hdir, ← String.toList_inj]
    rfl
  simp only [hempty, List.getLast?_append]
  split_ifs with h hkey hkey
  · rw [hkey]
  · -- the key is not empty, so the directory does not end with a slash
    exfalso
    obtain ⟨ch, hch⟩ := Option.ne_none_iff_exists'.mp (mt List.getLast?_eq_none_iff.mp hkey)
    rcases h with h | h
    · exact hkey (List.append_eq_nil_iff.mp h).2
    · rw [hch, Option.some_or] at h
      have hmem := List.mem_of_getLast? hch
      rw [Option.some.inj h] at hmem
      exact slash_notMem_cacheKey digest hmem
  · exfalso
    rw [hkey, List.append_nil, List.getLast?_nil, Option.none_or, not_or] at h
    exact (rootPrefix_getLast? cacheRoot).elim h.1 h.2
  · rw [List.append_assoc]

/-- Entries of two keys have two paths. -/
theorem sparsePath_cacheKey_inj {cacheRoot digest digest' : String}
    (h : sparsePath cacheRoot (cacheKey digest) = sparsePath cacheRoot (cacheKey digest')) :
    cacheKey digest = cacheKey digest' := by
  have hlist := congrArg String.toList h
  rw [toList_sparsePath, toList_sparsePath, List.append_right_inj, List.append_left_inj] at hlist
  rw [← String.toList_inj]
  split_ifs at hlist with hkey hkey' hkey'
  · rw [hkey, hkey']
  · exact absurd hlist (by simp)
  · exact absurd hlist (by simp)
  · exact (List.append_left_inj _).mp hlist

/-- Where different paths name different files, those of the cache do. -/
theorem cacheApart_of_injective {ino : String → FileKey} (h : Function.Injective ino)
    (cacheRoot : String) : CacheApart ino cacheRoot where
  sparse_ne_bitmap k k' heq := sparsePath_ne_bitmapPath cacheRoot k k' (h heq)
  sparse_inj _ _ heq := sparsePath_cacheKey_inj (h heq)
  bitmap_inj _ _ heq := sparsePath_cacheKey_inj (bitmapPath_inj (h heq))

/-! ### A file for every path -/

/-- A file system without links: the inode is a code of the path. -/
def pathIno (path : String) : FileKey where
  dev := 1
  ino := Encodable.encode (path.toList.map Char.toNat)

theorem pathIno_injective : Function.Injective pathIno := by
  intro path path' h
  have hcode := Encodable.encode_injective (congrArg FileKey.ino h)
  have hchars := List.map_injective_iff.mpr (fun _ _ => Char.toNat_inj.mp) hcode
  exact String.toList_inj.mp hchars

-- no proof evaluates the code
attribute [irreducible] pathIno

end Lazyd.Prepare
