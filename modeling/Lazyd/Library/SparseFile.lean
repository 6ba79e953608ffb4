import Mathlib.Algebra.Order.Group.Nat
import Mathlib.Data.List.Basic

/-!
# Sparse files

A file of a file system that allocates blocks on their first write: a length, an element at every
position, and for every block whether it is allocated. What lies beyond the length or in a block
that is not allocated reads as the element `zero`, so a file with other contents there cannot be
built.

Positional reads and writes, truncation and the two probes `SEEK_DATA` and `SEEK_HOLE` are
described here, together with the assertion `SparseFile.Holds` that a file agrees with given
contents over a range, which is how a cache file is compared with what it caches.

## Main definitions

* `SparseFile`, `SparseFile.holes`.
* `SparseFile.readExactAt`, `SparseFile.contents`, `SparseFile.writeAt`, `SparseFile.setLen`.
* `SparseFile.seekData`, `SparseFile.seekHole`.
* `SparseFile.Holds`, `SparseFile.Agrees`, `SparseFile.DataHolds`.
* `SparseFile.Replaced` : a file with some elements in place of others.
* `SparseFile.Allocated` : a range of data.
* `SparseFile.Extends` : a longer file with no more data.
* `SparseFile.Crashed` : what a crash may leave of a file.

## Main results

* `SparseFile.writeAt_append` : two writes side by side are one.
* `SparseFile.replaced_writeAt` : a write replaces what it writes and nothing else.
* `SparseFile.holds_writeAt`, `SparseFile.Holds.writeAt` : a write of the right contents makes a
  range hold and leaves every other held range held.
* `SparseFile.seekData_eq_some_self_iff`, `SparseFile.le_seekHole_iff` : what the probes say about
  one range.
* `SparseFile.DataHolds.writeAt`, `SparseFile.DataHolds.crashed` : writes of whole blocks and
  crashes leave no allocated block with other contents.
-/

/-- A file whose blocks are allocated one by one; `zero` is what a hole reads as. -/
@[ext]
structure SparseFile {α : Type*} (zero : α) where
  /-- the size of a block -/
  block : ℕ
  len : ℕ
  byte : ℕ → α
  /-- which blocks are allocated -/
  data : ℕ → Bool
  block_pos : 0 < block
  byte_of_len_le : ∀ p, len ≤ p → byte p = zero
  byte_of_hole : ∀ p, data (p / block) = false → byte p = zero

namespace SparseFile

section Contents

variable {α : Type*}

/-- The elements `bs` are the contents `g` from `off` on. -/
def Agrees (g : ℕ → α) (off : ℕ) (bs : List α) : Prop :=
  ∀ i, i < bs.length → bs[i]? = some (g (off + i))

/-- The `n` elements of `g` from `off` on. -/
def slice (g : ℕ → α) (off n : ℕ) : List α := (List.range n).map fun i => g (off + i)

@[simp] theorem length_slice (g : ℕ → α) (off n : ℕ) : (slice g off n).length = n := by
  rw [slice, List.length_map, List.length_range]

theorem getD_slice (g : ℕ → α) (off : ℕ) {n i : ℕ} (a : α) (h : i < n) :
    (slice g off n).getD i a = g (off + i) := by
  rw [slice, List.getD_eq_getElem?_getD, List.getElem?_map, List.getElem?_range h, Option.map_some,
    Option.getD_some]

theorem agrees_slice (g : ℕ → α) (off n : ℕ) : Agrees g off (slice g off n) := by
  intro i hi
  rw [length_slice] at hi
  rw [slice, List.getElem?_map, List.getElem?_range hi, Option.map_some]

theorem Agrees.drop {g : ℕ → α} {off : ℕ} {bs : List α} (h : Agrees g off bs) (w : ℕ) :
    Agrees g (off + w) (bs.drop w) := by
  intro i hi
  rw [List.length_drop] at hi
  rw [List.getElem?_drop, h (w + i) (by omega), Nat.add_assoc]

theorem Agrees.take {g : ℕ → α} {off : ℕ} {bs : List α} (h : Agrees g off bs) (n : ℕ) :
    Agrees g off (bs.take n) := by
  intro i hi
  rw [List.length_take, lt_min_iff] at hi
  rw [List.getElem?_take_of_lt hi.1, h i hi.2]

end Contents

variable {α : Type*} {zero : α}

/-- A file of the given length with no block allocated. -/
def holes (block len : ℕ) (h : 0 < block) : SparseFile zero where
  block := block
  len := len
  byte _ := zero
  data _ := false
  block_pos := h
  byte_of_len_le _ _ := rfl
  byte_of_hole _ _ := rfl

/-- The element at a position inside the file. -/
def read (f : SparseFile zero) (p : ℕ) : Option α :=
  if p < f.len then some (f.byte p) else none

/-- Positional read of exactly `n` elements. -/
def readExactAt (f : SparseFile zero) (off n : ℕ) : Option (List α) :=
  if n = 0 ∨ off + n ≤ f.len then some ((List.range n).map fun i => f.byte (off + i)) else none

/-- Everything that is in the file. -/
def contents (f : SparseFile zero) : List α := (List.range f.len).map f.byte

/-- Positional write. A write of nothing changes nothing; a write behind the end leaves zeros in
between. -/
def writeAt (f : SparseFile zero) (off : ℕ) (bs : List α) : SparseFile zero where
  block := f.block
  len := if bs.length = 0 then f.len else max f.len (off + bs.length)
  byte p := if off ≤ p ∧ p < off + bs.length then bs.getD (p - off) zero else f.byte p
  data b := f.data b ||
    (decide (bs.length ≠ 0) && decide (off / f.block ≤ b) &&
      decide (b ≤ (off + bs.length - 1) / f.block))
  block_pos := f.block_pos
  byte_of_len_le p hp := by
    have hout : ¬ (off ≤ p ∧ p < off + bs.length) := by
      rintro ⟨h₁, h₂⟩
      rw [if_neg (by omega)] at hp
      omega
    rw [if_neg hout]
    refine f.byte_of_len_le p ?_
    split_ifs at hp <;> omega
  byte_of_hole p hp := by
    rw [Bool.or_eq_false_iff] at hp
    have hout : ¬ (off ≤ p ∧ p < off + bs.length) := by
      rintro ⟨h₁, h₂⟩
      have hlow : off / f.block ≤ p / f.block := Nat.div_le_div_right h₁
      have hhigh : p / f.block ≤ (off + bs.length - 1) / f.block :=
        Nat.div_le_div_right (by omega)
      have hne : bs.length ≠ 0 := by omega
      simp only [hlow, hhigh, hne, ne_eq, not_false_eq_true, decide_true, Bool.and_self,
        Bool.true_eq_false, and_false] at hp
    rw [if_neg hout]
    exact f.byte_of_hole p hp.1

/-- Truncation or extension to a length; truncation frees the blocks behind the new end. -/
def setLen (f : SparseFile zero) (n : ℕ) : SparseFile zero where
  block := f.block
  len := n
  byte p := if p < n then f.byte p else zero
  data b := f.data b && (decide (b * f.block < n) || decide (f.len ≤ n))
  block_pos := f.block_pos
  byte_of_len_le p hp := if_neg (not_lt.mpr hp)
  byte_of_hole p hp := by
    split_ifs with hpn
    · rw [Bool.and_eq_false_iff] at hp
      rcases hp with hp | hp
      · exact f.byte_of_hole p hp
      · have hlt : p / f.block * f.block < n :=
          lt_of_le_of_lt (Nat.div_mul_le_self p f.block) hpn
        simp only [hlt, decide_true, Bool.true_or, Bool.true_eq_false] at hp
    · rfl

/-- A position is reported as data when its block is allocated. -/
def isData (f : SparseFile zero) (p : ℕ) : Bool := f.data (p / f.block)

/-- `lseek` with `SEEK_DATA`: the first data position from `off` on, or `none` for `ENXIO`. -/
def seekData (f : SparseFile zero) (off : ℕ) : Option ℕ :=
  if off < f.len then (List.range' off (f.len - off)).find? fun p => f.isData p else none

/-- `lseek` with `SEEK_HOLE`: the first hole from `off` on, the end of the file counting as one,
or `none` for `ENXIO`. -/
def seekHole (f : SparseFile zero) (off : ℕ) : Option ℕ :=
  if off < f.len then
    some (((List.range' off (f.len - off)).find? fun p => !f.isData p).getD f.len)
  else none

/-! ### The basic operations, field by field -/

section Fields

variable (f : SparseFile zero) (off : ℕ) (bs : List α)

@[simp] theorem writeAt_block : (f.writeAt off bs).block = f.block := rfl

theorem writeAt_byte (p : ℕ) : (f.writeAt off bs).byte p =
    if off ≤ p ∧ p < off + bs.length then bs.getD (p - off) zero else f.byte p := rfl

theorem len_le_writeAt_len : f.len ≤ (f.writeAt off bs).len := by
  change f.len ≤ if bs.length = 0 then f.len else max f.len (off + bs.length)
  split_ifs <;> omega

theorem le_writeAt_len (h : bs.length ≠ 0) : off + bs.length ≤ (f.writeAt off bs).len := by
  change _ ≤ if bs.length = 0 then f.len else max f.len (off + bs.length)
  rw [if_neg h]
  exact le_max_right _ _

theorem writeAt_byte_of_notMem {p : ℕ} (h : ¬ (off ≤ p ∧ p < off + bs.length)) :
    (f.writeAt off bs).byte p = f.byte p := if_neg h

@[simp] theorem writeAt_nil : f.writeAt off [] = f := by
  ext
  · rfl
  · rfl
  · rw [writeAt_byte_of_notMem]
    rw [List.length_nil]
    omega
  · simp only [writeAt, List.length_nil, ne_eq, not_true_eq_false, decide_false, Bool.false_and,
      Bool.or_false]

theorem writeAt_len : (f.writeAt off bs).len =
    if bs.length = 0 then f.len else max f.len (off + bs.length) := rfl

theorem writeAt_len_of_le (h : off + bs.length ≤ f.len) : (f.writeAt off bs).len = f.len := by
  rw [writeAt_len]
  split_ifs
  · rfl
  · exact max_eq_left h

theorem writeAt_byte_of_mem {i : ℕ} (h : i < bs.length) :
    (f.writeAt off bs).byte (off + i) = bs.getD i zero := by
  rw [writeAt_byte, if_pos ⟨Nat.le_add_right _ _, Nat.add_lt_add_left h off⟩,
    Nat.add_sub_cancel_left]

@[simp] theorem setLen_len (n : ℕ) : (f.setLen n).len = n := rfl

theorem setLen_byte (n p : ℕ) : (f.setLen n).byte p = if p < n then f.byte p else zero := rfl

theorem writeAt_data (b : ℕ) : (f.writeAt off bs).data b = true ↔ f.data b = true ∨
    bs.length ≠ 0 ∧ off / f.block ≤ b ∧ b ≤ (off + bs.length - 1) / f.block := by
  change (f.data b || (decide (bs.length ≠ 0) && decide (off / f.block ≤ b) &&
    decide (b ≤ (off + bs.length - 1) / f.block))) = true ↔ _
  rw [Bool.or_eq_true, Bool.and_eq_true, Bool.and_eq_true, decide_eq_true_iff, decide_eq_true_iff,
    decide_eq_true_iff, and_assoc]

theorem isData_writeAt (p : ℕ) : (f.writeAt off bs).isData p = true ↔ f.isData p = true ∨
    bs.length ≠ 0 ∧ off / f.block ≤ p / f.block ∧ p / f.block ≤ (off + bs.length - 1) / f.block :=
  writeAt_data f off bs (p / f.block)

end Fields

theorem readExactAt_eq_some {f : SparseFile zero} {off n : ℕ} {bs : List α}
    (h : f.readExactAt off n = some bs) :
    (n = 0 ∨ off + n ≤ f.len) ∧ bs = (List.range n).map fun i => f.byte (off + i) := by
  rw [readExactAt] at h
  split_ifs at h with hn
  exact ⟨hn, (Option.some.inj h).symm⟩

theorem contents_eq_iff {f f' : SparseFile zero} :
    f'.contents = f.contents ↔ f'.len = f.len ∧ ∀ p, f'.byte p = f.byte p := by
  constructor
  · intro h
    have hlen : f'.len = f.len := by
      simpa only [contents, List.length_map, List.length_range] using congrArg List.length h
    refine ⟨hlen, fun p => ?_⟩
    rcases lt_or_ge p f.len with hp | hp
    · have hget := congrArg (fun bs : List α => bs[p]?) h
      simpa only [contents, List.getElem?_map, List.getElem?_range, hlen, hp, Option.map_some,
        Option.some.injEq] using hget
    · rw [f.byte_of_len_le p hp, f'.byte_of_len_le p (hlen.trans_le hp)]
  · rintro ⟨hlen, hbyte⟩
    rw [contents, contents, hlen]
    exact List.map_congr_left fun p _ => hbyte p

/-! ### Writes side by side -/

/-- Two writes, the second where the first ends, are one write of all the elements. -/
theorem writeAt_append (f : SparseFile zero) (off : ℕ) (xs ys : List α) :
    (f.writeAt off xs).writeAt (off + xs.length) ys = f.writeAt off (xs ++ ys) := by
  rcases eq_or_ne xs [] with rfl | hxs
  · rw [List.length_nil, Nat.add_zero, writeAt_nil, List.nil_append]
  rcases eq_or_ne ys [] with rfl | hys
  · rw [writeAt_nil, List.append_nil]
  have hx : 0 < xs.length := List.length_pos_of_ne_nil hxs
  have hy : 0 < ys.length := List.length_pos_of_ne_nil hys
  have hlen : (xs ++ ys).length = xs.length + ys.length := List.length_append
  refine SparseFile.ext rfl ?_ (funext fun p => ?_) (funext fun b => ?_)
  · simp only [writeAt_len, hlen]
    rw [if_neg (by omega), if_neg (by omega), if_neg (by omega)]
    omega
  · simp only [writeAt_byte, hlen, List.getD_eq_getElem?_getD]
    rcases lt_or_ge p (off + xs.length) with hp | hp
    · rw [if_neg (by omega), List.getElem?_append]
      refine ite_congr ?_ (fun hin => ?_) fun _ => rfl
      · exact propext (by omega)
      · rw [if_pos (by omega)]
    · have hout : ¬(off ≤ p ∧ p < off + xs.length) := by omega
      rw [if_neg hout, List.getElem?_append_right (by omega), Nat.sub_sub]
      refine ite_congr ?_ (fun _ => rfl) fun _ => rfl
      exact propext (by omega)
  · -- the blocks of the second write begin in or next to the last block of the first
    have hmid : (off + xs.length) / f.block ≤ (off + xs.length - 1) / f.block + 1 := by
      rw [← Nat.add_div_right _ f.block_pos]
      exact Nat.div_le_div_right (by have := f.block_pos; omega)
    have hfirst : off / f.block ≤ (off + xs.length - 1) / f.block :=
      Nat.div_le_div_right (by omega)
    have hsecond : off / f.block ≤ (off + xs.length) / f.block := Nat.div_le_div_right (by omega)
    have hlast : (off + xs.length - 1) / f.block ≤ (off + xs.length + ys.length - 1) / f.block :=
      Nat.div_le_div_right (by omega)
    rw [Bool.eq_iff_iff, writeAt_data, writeAt_data, writeAt_data, writeAt_block, hlen, or_assoc,
      ← Nat.add_assoc]
    exact or_congr_right (by omega)

/-- `f'` is `f` with the elements `bs` from `off` on in place of what was there. -/
structure Replaced (f : SparseFile zero) (off : ℕ) (bs : List α) (f' : SparseFile zero) : Prop where
  inside : ∀ i, i < bs.length → f'.read (off + i) = bs[i]?
  outside : ∀ p, p < off ∨ off + bs.length ≤ p → f'.byte p = f.byte p
  len : f'.len = if bs.length = 0 then f.len else max f.len (off + bs.length)

theorem replaced_writeAt (f : SparseFile zero) (off : ℕ) (bs : List α) :
    f.Replaced off bs (f.writeAt off bs) where
  inside i hi := by
    have hlen := le_writeAt_len f off bs (by omega)
    rw [read, if_pos (by omega), writeAt_byte_of_mem f off bs hi, List.getD_eq_getElem?_getD,
      List.getElem?_eq_getElem hi, Option.getD_some]
  outside p hp := writeAt_byte_of_notMem f off bs (by omega)
  len := writeAt_len f off bs

/-! ### Agreement with given contents -/

/-- The file holds the contents `g` over `[lo, hi)`. -/
def Holds (f : SparseFile zero) (g : ℕ → α) (lo hi : ℕ) : Prop :=
  ∀ p, lo ≤ p → p < hi → p < f.len ∧ f.byte p = g p

theorem Holds.mono {f : SparseFile zero} {g : ℕ → α} {lo hi lo' hi' : ℕ} (h : f.Holds g lo hi)
    (hlo : lo ≤ lo') (hhi : hi' ≤ hi) : f.Holds g lo' hi' :=
  fun p h₁ h₂ => h p (hlo.trans h₁) (h₂.trans_le hhi)

theorem Holds.append {f : SparseFile zero} {g : ℕ → α} {lo mid hi : ℕ} (h : f.Holds g lo mid)
    (h' : f.Holds g mid hi) : f.Holds g lo hi := by
  intro p h₁ h₂
  rcases lt_or_ge p mid with hp | hp
  · exact h p h₁ hp
  · exact h' p hp h₂

theorem holds_of_le (f : SparseFile zero) (g : ℕ → α) {lo hi : ℕ} (h : hi ≤ lo) : f.Holds g lo hi :=
  fun _ h₁ h₂ => absurd (h₁.trans_lt h₂) (not_lt.mpr h)

theorem writeAt_byte_of_agrees {f : SparseFile zero} {g : ℕ → α} {off : ℕ} {bs : List α}
    (h : Agrees g off bs) {p : ℕ} (h₁ : off ≤ p) (h₂ : p < off + bs.length) :
    (f.writeAt off bs).byte p = g p := by
  have hget := h (p - off) (by omega)
  rw [Nat.add_sub_cancel' h₁] at hget
  rw [writeAt_byte, if_pos ⟨h₁, h₂⟩, List.getD_eq_getElem?_getD, hget, Option.getD_some]

/-- A write of the contents `g` at their own position makes the written range hold. -/
theorem holds_writeAt {f : SparseFile zero} {g : ℕ → α} {off : ℕ} {bs : List α}
    (h : Agrees g off bs) : (f.writeAt off bs).Holds g off (off + bs.length) := by
  intro p h₁ h₂
  exact ⟨lt_of_lt_of_le h₂ (le_writeAt_len f off bs (by omega)), writeAt_byte_of_agrees h h₁ h₂⟩

/-- A write of the contents `g` at their own position keeps every range that holds. -/
theorem Holds.writeAt {f : SparseFile zero} {g : ℕ → α} {off lo hi : ℕ} {bs : List α}
    (h : f.Holds g lo hi) (hbs : Agrees g off bs) : (f.writeAt off bs).Holds g lo hi := by
  intro p h₁ h₂
  obtain ⟨hlen, hbyte⟩ := h p h₁ h₂
  refine ⟨hlen.trans_le (len_le_writeAt_len f off bs), ?_⟩
  by_cases hp : off ≤ p ∧ p < off + bs.length
  · exact writeAt_byte_of_agrees hbs hp.1 hp.2
  · rw [writeAt_byte_of_notMem f off bs hp, hbyte]

/-- Extending a file keeps every range that holds. -/
theorem Holds.setLen {f : SparseFile zero} {g : ℕ → α} {lo hi n : ℕ} (h : f.Holds g lo hi)
    (hn : f.len ≤ n) : (f.setLen n).Holds g lo hi := by
  intro p h₁ h₂
  obtain ⟨hlen, hbyte⟩ := h p h₁ h₂
  rw [setLen_len, setLen_byte, if_pos (hlen.trans_le hn)]
  exact ⟨hlen.trans_le hn, hbyte⟩

/-! ### The probes -/

/-- `SEEK_DATA` stays where it is exactly on a data position inside the file. -/
theorem seekData_eq_some_self_iff (f : SparseFile zero) (off : ℕ) :
    f.seekData off = some off ↔ off < f.len ∧ f.isData off = true := by
  rw [seekData]
  split_ifs with hlen
  · rw [List.find?_range'_eq_some, List.mem_range'_1]
    constructor
    · rintro ⟨hdata, -, -⟩
      exact ⟨hlen, hdata⟩
    · rintro ⟨-, hdata⟩
      exact ⟨hdata, ⟨le_rfl, by omega⟩, fun j h₁ h₂ => absurd (h₁.trans_lt h₂) (lt_irrefl _)⟩
  · simp only [false_iff, not_and]
    exact fun h => absurd h hlen

/-- `SEEK_HOLE` reaches `hi` exactly when the whole range is data inside the file. -/
theorem le_seekHole_iff {f : SparseFile zero} {off hi d : ℕ} (h : f.seekHole off = some d)
    (hlt : off < hi) :
    hi ≤ d ↔ ∀ p, off ≤ p → p < hi → p < f.len ∧ f.isData p = true := by
  rw [seekHole] at h
  split_ifs at h with hlen
  have hd := Option.some.inj h
  cases hfind : (List.range' off (f.len - off)).find? (fun p => !f.isData p) with
  | none =>
    rw [hfind, Option.getD_none] at hd
    rw [List.find?_range'_eq_none] at hfind
    constructor
    · intro hle p h₁ h₂
      have hp := hfind p h₁ (by omega)
      rw [Bool.not_not] at hp
      exact ⟨by omega, hp⟩
    · intro hall
      have hlast := (hall (hi - 1) (by omega) (by omega)).1
      omega
  | some x =>
    rw [hfind, Option.getD_some] at hd
    subst hd
    rw [List.find?_range'_eq_some, List.mem_range'_1] at hfind
    obtain ⟨hx, hxmem, hbefore⟩ := hfind
    constructor
    · intro hle p h₁ h₂
      have hp := hbefore p h₁ (by omega)
      rw [Bool.not_not] at hp
      exact ⟨by omega, hp⟩
    · intro hall
      by_contra hlt'
      have hxdata := (hall x hxmem.1 (by omega)).2
      rw [hxdata] at hx
      exact Bool.false_ne_true hx

theorem seekHole_eq_none_iff (f : SparseFile zero) (off : ℕ) :
    f.seekHole off = none ↔ f.len ≤ off := by
  rw [seekHole]
  split_ifs with h
  · simp only [false_iff, not_le, h]
  · simp only [true_iff]
    omega

/-! ### Ranges of data -/

/-- All of the range is data. -/
def Allocated (f : SparseFile zero) (lo hi : ℕ) : Prop :=
  ∀ p, lo ≤ p → p < hi → f.isData p = true

theorem allocated_of_le (f : SparseFile zero) {lo hi : ℕ} (h : hi ≤ lo) : f.Allocated lo hi :=
  fun _ h₁ h₂ => absurd (h₁.trans_lt (h₂.trans_le h)) (lt_irrefl _)

theorem Allocated.mono {f : SparseFile zero} {lo hi lo' hi' : ℕ} (h : f.Allocated lo hi)
    (hlo : lo ≤ lo') (hhi : hi' ≤ hi) : f.Allocated lo' hi' :=
  fun p h₁ h₂ => h p (hlo.trans h₁) (h₂.trans_le hhi)

theorem Allocated.append {f : SparseFile zero} {lo mid hi : ℕ} (h : f.Allocated lo mid)
    (h' : f.Allocated mid hi) : f.Allocated lo hi := by
  intro p h₁ h₂
  rcases lt_or_ge p mid with hp | hp
  · exact h p h₁ hp
  · exact h' p hp h₂

/-- A write takes no data away. -/
theorem Allocated.writeAt {f : SparseFile zero} {lo hi : ℕ} (h : f.Allocated lo hi) (off : ℕ)
    (bs : List α) : (f.writeAt off bs).Allocated lo hi :=
  fun p h₁ h₂ => (isData_writeAt f off bs p).mpr (Or.inl (h p h₁ h₂))

theorem allocated_writeAt (f : SparseFile zero) (off : ℕ) (bs : List α) :
    (f.writeAt off bs).Allocated off (off + bs.length) := by
  intro p h₁ h₂
  refine (isData_writeAt f off bs p).mpr (Or.inr ⟨by omega, ?_, ?_⟩)
  · exact Nat.div_le_div_right h₁
  · exact Nat.div_le_div_right (by omega)

/-- No new data, and nothing lost that holds. -/
structure Extends (f f' : SparseFile zero) : Prop where
  allocated : ∀ lo hi, f'.Allocated lo hi → f.Allocated lo hi
  holds : ∀ g lo hi, f.Holds g lo hi → f'.Holds g lo hi

theorem extends_refl (f : SparseFile zero) : f.Extends f := ⟨fun _ _ h => h, fun _ _ _ h => h⟩

theorem extends_setLen {f : SparseFile zero} {n : ℕ} (hn : f.len ≤ n) : f.Extends (f.setLen n) := by
  refine ⟨fun lo hi h p h₁ h₂ => ?_, fun g lo hi h => h.setLen hn⟩
  have hdata : (f.data (p / f.block) &&
      (decide (p / f.block * f.block < n) || decide (f.len ≤ n))) = true := h p h₁ h₂
  rw [Bool.and_eq_true] at hdata
  exact hdata.1

/-! ### Losing blocks -/

/-- The block `b` of `f` is the block `b` of `g`, and nothing of it is cut off. -/
def SameBlock (f g : SparseFile zero) (b : ℕ) : Prop :=
  f.data b = g.data b ∧ ∀ p, p / g.block = b →
    f.byte p = g.byte p ∧ (g.data b = true → p < g.len → p < f.len)

/-- What a crash may leave of a file: each block as it is in `cur` or as it was in `stable`,
independently of the others. -/
def Crashed (stable cur f : SparseFile zero) : Prop :=
  f.block = cur.block ∧ ∀ b, f.SameBlock cur b ∨ f.SameBlock stable b

/-- Every allocated block holds the contents `g` below `S`. -/
def DataHolds (f : SparseFile zero) (g : ℕ → α) (S : ℕ) : Prop :=
  ∀ p, p < S → f.isData p = true → p < f.len ∧ f.byte p = g p

theorem crashed_refl (stable cur : SparseFile zero) : Crashed stable cur cur :=
  ⟨rfl, fun _ => Or.inl ⟨rfl, fun _ _ => ⟨rfl, fun _ h => h⟩⟩⟩

theorem dataHolds_of_holes {f : SparseFile zero} (h : ∀ b, f.data b = false) (g : ℕ → α) (S : ℕ) :
    f.DataHolds g S := by
  intro p _ hdata
  rw [isData, h] at hdata
  exact absurd hdata Bool.false_ne_true

theorem DataHolds.holds {f : SparseFile zero} {g : ℕ → α} {S lo hi : ℕ} (h : f.DataHolds g S)
    (hhi : hi ≤ S) (hdata : ∀ p, lo ≤ p → p < hi → f.isData p = true) : f.Holds g lo hi :=
  fun p h₁ h₂ => h p (h₂.trans_le hhi) (hdata p h₁ h₂)

/-- A write of the contents `g` that covers its blocks up to `S`. -/
theorem DataHolds.writeAt {f : SparseFile zero} {g : ℕ → α} {S off : ℕ} {bs : List α}
    (h : f.DataHolds g S) (hbs : Agrees g off bs) (hleft : f.block ∣ off)
    (hright : f.block ∣ off + bs.length ∨ S ≤ off + bs.length) :
    (f.writeAt off bs).DataHolds g S := by
  intro p hp hdata
  by_cases hin : off ≤ p ∧ p < off + bs.length
  · exact holds_writeAt hbs p hin.1 hin.2
  · rw [writeAt_byte_of_notMem f off bs hin]
    suffices hold : f.isData p = true by
      obtain ⟨hlen, hbyte⟩ := h p hp hold
      exact ⟨hlen.trans_le (len_le_writeAt_len f off bs), hbyte⟩
    rcases (isData_writeAt f off bs p).mp hdata with hold | ⟨hne, hlow, hhigh⟩
    · exact hold
    · -- the blocks of the write are covered by it
      have hoff : off ≤ p := by
        obtain ⟨q, rfl⟩ := hleft
        rw [Nat.mul_div_cancel_left _ f.block_pos, Nat.le_div_iff_mul_le f.block_pos] at hlow
        rwa [Nat.mul_comm]
      refine absurd ⟨hoff, ?_⟩ hin
      rcases hright with ⟨q, hq⟩ | hS
      · rw [hq]
        rw [hq] at hhigh
        have hlast : (f.block * q - 1) / f.block < q := by
          rw [Nat.div_lt_iff_lt_mul f.block_pos, Nat.mul_comm q]
          omega
        rw [Nat.mul_comm, ← Nat.div_lt_iff_lt_mul f.block_pos]
        omega
      · omega

theorem DataHolds.crashed {stable cur f : SparseFile zero} {g : ℕ → α} {S : ℕ}
    (hstable : stable.DataHolds g S) (hcur : cur.DataHolds g S) (hblock : stable.block = cur.block)
    (h : Crashed stable cur f) : f.DataHolds g S := by
  intro p hp hdata
  obtain ⟨hfblock, hblocks⟩ := h
  have hsame (e : SparseFile zero) (he : e.DataHolds g S) (heblock : f.block = e.block)
      (hb : f.SameBlock e (p / f.block)) : p < f.len ∧ f.byte p = g p := by
    obtain ⟨hbit, hbytes⟩ := hb
    obtain ⟨hbyte, hlen⟩ := hbytes p (by rw [heblock])
    have hedata : e.isData p = true := by
      rw [isData, ← heblock, ← hbit]
      exact hdata
    obtain ⟨hplen, hpbyte⟩ := he p hp hedata
    rw [isData, ← heblock] at hedata
    exact ⟨hlen hedata hplen, hbyte.trans hpbyte⟩
  rcases hblocks (p / f.block) with hb | hb
  · exact hsame cur hcur hfblock hb
  · exact hsame stable hstable (hfblock.trans hblock.symm) hb

end SparseFile
