import Mathlib.Data.Nat.Digits.Defs

/-!
# Compact JSON, byte by byte

Strings, natural numbers and arrays in the compact encoding of JSON, as lists of bytes, with readers
that invert the writers. A string is written between quotes, with the quote, the backslash and the
control characters escaped and every other byte as it is, so UTF-8 passes through. A number is
written in decimal. The elements of an array are written between brackets, with commas between them.

## Main definitions

* `JsonBytes.writeString`, `JsonBytes.readString`.
* `JsonBytes.writeNat`, `JsonBytes.readNat`.
* `JsonBytes.writeArray`, `JsonBytes.readArray`.
* `JsonBytes.readLit` : the reader of a fixed text.

## Main results

* `JsonBytes.readString_writeString`, `JsonBytes.readNat_writeNat`, `JsonBytes.readLit_append`,
  `JsonBytes.readArray_writeArray` : the readers take exactly what was written.
* `JsonBytes.le_of_mem_writeString`, `JsonBytes.le_of_mem_writeNat` : no control character is
  written.
-/

namespace JsonBytes

/-- The UTF-8 bytes of a text. -/
def utf8 (s : String) : List UInt8 := s.toByteArray.data.toList

/-- The reader of a fixed text. -/
def readLit (lit bs : List UInt8) : Option (List UInt8) :=
  if bs.take lit.length = lit then some (bs.drop lit.length) else none

theorem readLit_append (lit rest : List UInt8) : readLit lit (lit ++ rest) = some rest := by
  rw [readLit, List.take_left, if_pos rfl, List.drop_left]

/-! ### Strings -/

/-- The escapes of one letter: the character and the letter. -/
def shortEscapes : List (UInt8 × UInt8) :=
  [(34, 34), (92, 92), (8, 98), (9, 116), (10, 110), (12, 102), (13, 114)]

/-- A hexadecimal digit, in lower case. -/
def hexDigit (n : ℕ) : UInt8 := UInt8.ofNat (if n < 10 then 48 + n else 87 + n)

/-- The value of a hexadecimal digit in lower case. -/
def hexValue (b : UInt8) : ℕ := if b.toNat < 58 then b.toNat - 48 else b.toNat - 87

/-- A byte of a string, as it is written. -/
def escape (b : UInt8) : List UInt8 :=
  match shortEscapes.find? fun p => p.1 = b with
  | some p => [92, p.2]
  | none =>
    if b.toNat < 32 then
      [92, 117, 48, 48, hexDigit (b.toNat / 16), hexDigit (b.toNat % 16)]
    else [b]

/-- A string between quotes. -/
def writeString (s : List UInt8) : List UInt8 := 34 :: (s.flatMap escape ++ [34])

/-- What follows a backslash. -/
def readEscape : List UInt8 → Option (UInt8 × List UInt8)
  | [] => none
  | c :: rest =>
    if c = 117 then
      match rest with
      | _ :: _ :: x :: y :: rest => some (UInt8.ofNat (hexValue x * 16 + hexValue y), rest)
      | _ => none
    else (shortEscapes.find? fun p => p.2 = c).map fun p => (p.1, rest)

/-- One character of a string. -/
def readChar : List UInt8 → Option (UInt8 × List UInt8)
  | [] => none
  | b :: rest => if b = 92 then readEscape rest else some (b, rest)

/-- A string up to its closing quote; `fuel` bounds the number of characters. -/
def readChars : ℕ → List UInt8 → Option (List UInt8 × List UInt8)
  | 0, _ => none
  | fuel + 1, bs =>
    if bs.head? = some 34 then some ([], bs.tail)
    else (readChar bs).bind fun p => (readChars fuel p.2).map fun q => (p.1 :: q.1, q.2)

def readString : List UInt8 → Option (List UInt8 × List UInt8)
  | [] => none
  | b :: rest => if b = 34 then readChars (rest.length + 1) rest else none

/-- A byte is written in one of three ways. -/
theorem escape_cases (b : UInt8) :
    (∃ p ∈ shortEscapes, p.1 = b ∧ escape b = [92, p.2]) ∨
    (b.toNat < 32 ∧
      escape b = [92, 117, 48, 48, hexDigit (b.toNat / 16), hexDigit (b.toNat % 16)]) ∨
    (32 ≤ b.toNat ∧ b ≠ 34 ∧ b ≠ 92 ∧ escape b = [b]) := by
  cases hfind : shortEscapes.find? (fun p => p.1 = b) with
  | some p =>
    have hp : p.1 = b := by simpa only [decide_eq_true_eq] using List.find?_some hfind
    refine Or.inl ⟨p, List.mem_of_find?_eq_some hfind, hp, ?_⟩
    rw [escape, hfind]
  | none =>
    by_cases hctl : b.toNat < 32
    · refine Or.inr (Or.inl ⟨hctl, ?_⟩)
      rw [escape, hfind, if_pos hctl]
    · rw [List.find?_eq_none] at hfind
      refine Or.inr (Or.inr ⟨not_lt.mp hctl, ?_, ?_, ?_⟩)
      · rintro rfl
        exact hfind (34, 34) (by decide) (by decide)
      · rintro rfl
        exact hfind (92, 92) (by decide) (by decide)
      · rw [escape, List.find?_eq_none.mpr hfind, if_neg hctl]

theorem readEscape_short {p : UInt8 × UInt8} (hp : p ∈ shortEscapes) (rest : List UInt8) :
    readEscape (p.2 :: rest) = some (p.1, rest) := by
  simp only [shortEscapes, List.mem_cons, List.not_mem_nil, or_false] at hp
  rcases hp with rfl | rfl | rfl | rfl | rfl | rfl | rfl <;> rfl

theorem hexDigit_spec : ∀ n < 16, hexValue (hexDigit n) = n ∧ 32 ≤ (hexDigit n).toNat := by
  decide

theorem readChar_escape (b : UInt8) (rest : List UInt8) :
    readChar (escape b ++ rest) = some (b, rest) := by
  rcases escape_cases b with ⟨p, hp, rfl, hesc⟩ | ⟨hlt, hesc⟩ | ⟨-, -, hne, hesc⟩
  · rw [hesc]
    exact readEscape_short hp rest
  · rw [hesc]
    have hval : hexValue (hexDigit (b.toNat / 16)) * 16 + hexValue (hexDigit (b.toNat % 16)) =
        b.toNat := by
      rw [(hexDigit_spec _ (by omega)).1, (hexDigit_spec _ (by omega)).1]
      omega
    change some (UInt8.ofNat _, rest) = some (b, rest)
    rw [hval, UInt8.ofNat_toNat]
  · rw [hesc]
    exact if_neg hne

theorem head?_escape (b : UInt8) (rest : List UInt8) :
    ∃ c, (escape b ++ rest).head? = some c ∧ c ≠ 34 := by
  rcases escape_cases b with ⟨p, -, rfl, hesc⟩ | ⟨-, hesc⟩ | ⟨-, hne, -, hesc⟩
  · exact ⟨92, by rw [hesc]; rfl, by decide⟩
  · exact ⟨92, by rw [hesc]; rfl, by decide⟩
  · exact ⟨b, by rw [hesc]; rfl, hne⟩

theorem readChars_escape (s rest : List UInt8) {fuel : ℕ} (hfuel : s.length < fuel) :
    readChars fuel (s.flatMap escape ++ 34 :: rest) = some (s, rest) := by
  induction s generalizing fuel with
  | nil =>
    obtain ⟨fuel, rfl⟩ := Nat.exists_eq_add_one_of_ne_zero (by omega : fuel ≠ 0)
    rfl
  | cons b s ih =>
    obtain ⟨fuel, rfl⟩ := Nat.exists_eq_add_one_of_ne_zero (by omega : fuel ≠ 0)
    rw [List.length_cons] at hfuel
    obtain ⟨c, hhead, hc⟩ := head?_escape b (s.flatMap escape ++ 34 :: rest)
    rw [List.flatMap_cons, List.append_assoc, readChars, hhead,
      if_neg (by simpa using hc), readChar_escape, Option.bind_some, ih (by omega), Option.map_some]

theorem length_le_flatMap_escape (s : List UInt8) : s.length ≤ (s.flatMap escape).length := by
  induction s with
  | nil => exact Nat.le_refl _
  | cons b s ih =>
    obtain ⟨c, hhead, -⟩ := head?_escape b []
    rw [List.append_nil] at hhead
    have hpos : 0 < (escape b).length := by
      cases hesc : escape b with
      | nil => simp [hesc] at hhead
      | cons => simp
    rw [List.flatMap_cons, List.length_append, List.length_cons]
    omega

/-- **Strings.** The reader takes the string that was written and leaves what follows it. -/
theorem readString_writeString (s rest : List UInt8) :
    readString (writeString s ++ rest) = some (s, rest) := by
  have hle := length_le_flatMap_escape s
  rw [writeString, List.cons_append, readString, if_pos rfl, List.append_assoc]
  refine readChars_escape s rest ?_
  rw [List.length_append]
  omega

theorem shortEscapes_spec : ∀ p ∈ shortEscapes, 32 ≤ p.2.toNat := by
  simp [shortEscapes]

/-- No control character is written. -/
theorem le_of_mem_writeString {s : List UInt8} {c : UInt8} (h : c ∈ writeString s) :
    32 ≤ c.toNat := by
  rw [writeString, List.mem_cons, List.mem_append, List.mem_singleton, List.mem_flatMap] at h
  rcases h with rfl | ⟨b, -, hc⟩ | rfl
  · decide
  · rcases escape_cases b with ⟨p, hp, -, hesc⟩ | ⟨hlt, hesc⟩ | ⟨hle, -, -, hesc⟩
    · rw [hesc, List.mem_cons, List.mem_singleton] at hc
      rcases hc with rfl | rfl
      · decide
      · exact shortEscapes_spec p hp
    · rw [hesc] at hc
      simp only [List.mem_cons, List.not_mem_nil, or_false] at hc
      rcases hc with rfl | rfl | rfl | rfl | rfl | rfl
      · decide
      · decide
      · decide
      · decide
      · exact (hexDigit_spec _ (by omega)).2
      · exact (hexDigit_spec _ (by omega)).2
    · rw [hesc, List.mem_singleton] at hc
      rwa [hc]
  · decide

/-! ### Numbers -/

/-- The decimal digits of a number, the most significant one first. -/
def decimal (n : ℕ) : List ℕ := if n = 0 then [0] else (Nat.digits 10 n).reverse

def writeNat (n : ℕ) : List UInt8 := (decimal n).map fun d => UInt8.ofNat (48 + d)

def isDigit (b : UInt8) : Bool := decide (48 ≤ b.toNat) && decide (b.toNat < 58)

def readNat (bs : List UInt8) : Option (ℕ × List UInt8) :=
  let ds := bs.takeWhile isDigit
  if ds = [] then none
  else some (Nat.ofDigits 10 (ds.map fun b => b.toNat - 48).reverse, bs.dropWhile isDigit)

theorem lt_of_mem_decimal {n d : ℕ} (h : d ∈ decimal n) : d < 10 := by
  rw [decimal] at h
  split_ifs at h with hn
  · rw [List.mem_singleton.mp h]
    decide
  · exact Nat.digits_lt_base (by decide) (List.mem_reverse.mp h)

theorem decimal_ne_nil (n : ℕ) : decimal n ≠ [] := by
  rw [decimal]
  split_ifs with hn
  · exact List.cons_ne_nil _ _
  · rwa [ne_eq, List.reverse_eq_nil_iff, Nat.digits_eq_nil_iff_eq_zero]

theorem ofDigits_reverse_decimal (n : ℕ) : Nat.ofDigits 10 (decimal n).reverse = n := by
  rw [decimal]
  split_ifs with hn
  · rw [hn]
    rfl
  · rw [List.reverse_reverse, Nat.ofDigits_digits]

theorem toNat_digit {d : ℕ} (h : d < 10) : (UInt8.ofNat (48 + d)).toNat = 48 + d :=
  UInt8.toNat_ofNat_of_lt' (lt_of_lt_of_le (Nat.add_lt_add_left h 48) (by decide))

theorem isDigit_of_mem_writeNat {n : ℕ} {b : UInt8} (h : b ∈ writeNat n) : isDigit b = true := by
  obtain ⟨d, hd, rfl⟩ := List.mem_map.mp h
  have hlt := lt_of_mem_decimal hd
  rw [isDigit, toNat_digit hlt, Bool.and_eq_true, decide_eq_true_iff, decide_eq_true_iff]
  omega

/-- **Numbers.** The reader takes the number that was written, if no digit follows it. -/
theorem readNat_writeNat (n : ℕ) {rest : List UInt8}
    (hrest : ∀ b, rest.head? = some b → isDigit b = false) :
    readNat (writeNat n ++ rest) = some (n, rest) := by
  have hstop : rest.takeWhile isDigit = [] ∧ rest.dropWhile isDigit = rest := by
    cases rest with
    | nil => exact ⟨rfl, rfl⟩
    | cons b rest =>
      have hb := hrest b rfl
      exact ⟨by rw [List.takeWhile_cons, hb]; rfl, by rw [List.dropWhile_cons, hb]; rfl⟩
  have hmap : (writeNat n).map (fun b => b.toNat - 48) = decimal n := by
    rw [writeNat, List.map_map]
    refine (List.map_congr_left fun d hd => ?_).trans (List.map_id _)
    rw [Function.comp_apply, toNat_digit (lt_of_mem_decimal hd), Nat.add_sub_cancel_left, id_eq]
  have hne : writeNat n ≠ [] := by
    rw [writeNat, ne_eq, List.map_eq_nil_iff]
    exact decimal_ne_nil n
  rw [readNat, List.takeWhile_append_of_pos fun b hb => isDigit_of_mem_writeNat hb,
    List.dropWhile_append_of_pos fun b hb => isDigit_of_mem_writeNat hb, hstop.1, hstop.2,
    List.append_nil]
  simp only [hne, ↓reduceIte, hmap, ofDigits_reverse_decimal]

theorem le_of_mem_writeNat {n : ℕ} {b : UInt8} (h : b ∈ writeNat n) : 32 ≤ b.toNat := by
  have hdigit := isDigit_of_mem_writeNat h
  rw [isDigit, Bool.and_eq_true, decide_eq_true_iff] at hdigit
  omega

/-! ### Arrays -/

variable {α : Type*}

/-- The encoded elements between brackets. -/
def writeArray (items : List (List UInt8)) : List UInt8 := 91 :: ([44].intercalate items ++ [93])

/-- The elements up to the closing bracket, of which there is one at least; `fuel` bounds their
number. -/
def readItems (item : List UInt8 → Option (α × List UInt8)) :
    ℕ → List UInt8 → Option (List α × List UInt8)
  | 0, _ => none
  | fuel + 1, bs =>
    match item bs with
    | some (a, 44 :: bs) => (readItems item fuel bs).map fun p => (a :: p.1, p.2)
    | some (a, 93 :: bs) => some ([a], bs)
    | _ => none

def readArray (item : List UInt8 → Option (α × List UInt8)) :
    List UInt8 → Option (List α × List UInt8)
  | 91 :: bs => if bs.head? = some 93 then some ([], bs.tail) else readItems item bs.length bs
  | _ => none

theorem intercalate_cons_cons (sep item item' : List UInt8) (items : List (List UInt8)) :
    sep.intercalate (item :: item' :: items) =
      item ++ (sep ++ sep.intercalate (item' :: items)) := by
  rw [List.intercalate, List.intersperse_cons_cons, List.flatten_cons, List.flatten_cons]
  rfl

theorem intercalate_singleton (sep item : List UInt8) : sep.intercalate [item] = item := by
  rw [List.intercalate, List.intersperse_singleton, List.flatten_singleton]

/-- The elements are read one after the other. -/
theorem readItems_writeItems {item : List UInt8 → Option (α × List UInt8)} {write : α → List UInt8}
    (hread : ∀ a rest, item (write a ++ rest) = some (a, rest)) (a : α) (as : List α)
    (rest : List UInt8) {fuel : ℕ} (hfuel : as.length < fuel) :
    readItems item fuel ([44].intercalate ((a :: as).map write) ++ 93 :: rest) =
      some (a :: as, rest) := by
  induction as generalizing a fuel with
  | nil =>
    obtain ⟨fuel, rfl⟩ := Nat.exists_eq_add_one_of_ne_zero (by omega : fuel ≠ 0)
    rw [List.map_singleton, intercalate_singleton, readItems, hread]
    rfl
  | cons a' as ih =>
    obtain ⟨fuel, rfl⟩ := Nat.exists_eq_add_one_of_ne_zero (by omega : fuel ≠ 0)
    have hrest := ih a' (Nat.lt_of_succ_lt_succ hfuel)
    rw [List.map_cons, List.map_cons, intercalate_cons_cons, List.append_assoc, List.append_assoc,
      readItems, hread, ← List.map_cons, List.singleton_append]
    simp only
    rw [hrest, Option.map_some]

/-- **Arrays.** The reader takes the elements that were written, if it takes each of them and none
is written with a closing bracket at its start. -/
theorem readArray_writeArray {item : List UInt8 → Option (α × List UInt8)} {write : α → List UInt8}
    (hread : ∀ a rest, item (write a ++ rest) = some (a, rest))
    (hhead : ∀ a, ∃ b bs, write a = b :: bs ∧ b ≠ 93) (as : List α) (rest : List UInt8) :
    readArray item (writeArray (as.map write) ++ rest) = some (as, rest) := by
  rw [writeArray, List.cons_append, List.append_assoc, readArray, List.singleton_append]
  cases as with
  | nil => rfl
  | cons a as =>
    have hlen (a : α) (as : List α) :
        as.length < ([44].intercalate ((a :: as).map write)).length := by
      induction as generalizing a with
      | nil =>
        obtain ⟨b, bs, hwrite, -⟩ := hhead a
        rw [List.map_singleton, intercalate_singleton, hwrite]
        exact Nat.succ_pos _
      | cons a' as ih =>
        have hrest := ih a'
        rw [List.map_cons, List.map_cons, intercalate_cons_cons, ← List.map_cons,
          List.length_append, List.length_append, List.length_cons]
        change as.length + 1 < _ + (1 + _)
        omega
    obtain ⟨b, bs, hwrite, hb⟩ := hhead a
    have hfirst : ([44].intercalate ((a :: as).map write) ++ 93 :: rest).head? = some b := by
      cases as with
      | nil =>
        rw [List.map_singleton, intercalate_singleton, hwrite, List.cons_append, List.head?_cons]
      | cons a' as =>
        rw [List.map_cons, List.map_cons, intercalate_cons_cons, hwrite, List.cons_append,
          List.cons_append, List.head?_cons]
    rw [if_neg (by rw [hfirst]; exact fun h => hb (Option.some.inj h))]
    refine readItems_writeItems hread a as rest ?_
    rw [List.length_append]
    exact Nat.lt_of_lt_of_le (hlen a as) (Nat.le_add_right _ _)

end JsonBytes
