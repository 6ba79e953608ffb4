import Mathlib.Data.Nat.Digits.Lemmas

/-!
# Little-endian fields

Records of fixed-width numbers in memory, least significant byte first: the bytes of a number, the
number of some bytes, the bytes of a record that is a list of fields, and the number at a position
of a record.

## Main definitions

* `LittleEndian.toBytesLE`, `LittleEndian.ofBytesLE`, `LittleEndian.readLE`.
* `LittleEndian.Field`, `LittleEndian.encodeFields` : a field with its number, and a record of them.

## Main results

* `LittleEndian.readLE_encodeFields` : every field is found behind the fields before it.
-/

namespace LittleEndian

/-- The bytes of a number in a field of `w` bytes. -/
def toBytesLE (w n : ℕ) : List UInt8 := (Nat.digitsAppend 256 w n).map UInt8.ofNat

/-- The number with the given bytes. -/
def ofBytesLE (bytes : List UInt8) : ℕ := Nat.ofDigits 256 (bytes.map UInt8.toNat)

/-- The number in the field of `w` bytes at `off`. -/
def readLE (bytes : List UInt8) (off w : ℕ) : ℕ := ofBytesLE ((bytes.drop off).take w)

theorem length_toBytesLE {w n : ℕ} (h : n < 256 ^ w) : (toBytesLE w n).length = w := by
  rw [toBytesLE, List.length_map, Nat.length_digitsAppend (by decide) w h]

theorem ofBytesLE_toBytesLE {w n : ℕ} (h : n < 256 ^ w) : ofBytesLE (toBytesLE w n) = n := by
  have hdigit : ∀ d ∈ Nat.digitsAppend 256 w n, (UInt8.toNat ∘ UInt8.ofNat) d = id d := by
    intro d hd
    exact Nat.mod_eq_of_lt (Nat.lt_of_mem_digitsAppend (by decide) w d hd)
  rw [ofBytesLE, toBytesLE, List.map_map, List.map_congr_left hdigit, List.map_id]
  exact (Nat.setInvOn_digitsAppend_ofDigits (by decide) w).2 h

theorem toBytesLE_ofBytesLE (bytes : List UInt8) :
    toBytesLE bytes.length (ofBytesLE bytes) = bytes := by
  have hdigits : bytes.map UInt8.toNat ∈
      {digits : List ℕ | digits.length = bytes.length ∧ ∀ d ∈ digits, d < 256} := by
    refine ⟨List.length_map _, fun d hd => ?_⟩
    obtain ⟨b, -, rfl⟩ := List.mem_map.mp hd
    exact b.toNat_lt
  have hbyte : ∀ b ∈ bytes, (UInt8.ofNat ∘ UInt8.toNat) b = id b :=
    fun b _ => UInt8.ofNat_toNat
  rw [toBytesLE, ofBytesLE, (Nat.setInvOn_digitsAppend_ofDigits (by decide) _).1 hdigits,
    List.map_map, List.map_congr_left hbyte, List.map_id]

theorem toBytesLE_readLE {bytes : List UInt8} {w : ℕ} (h : w ≤ bytes.length) :
    toBytesLE w (readLE bytes 0 w) ++ bytes.drop w = bytes := by
  have hfield := toBytesLE_ofBytesLE (bytes.take w)
  rw [List.length_take_of_le h] at hfield
  rw [readLE, List.drop_zero, hfield, List.take_append_drop]

theorem readLE_lt (bytes : List UInt8) (off w : ℕ) : readLE bytes off w < 256 ^ w := by
  have hdigit : ∀ d ∈ ((bytes.drop off).take w).map UInt8.toNat, d < 256 := by
    intro d hd
    obtain ⟨b, -, rfl⟩ := List.mem_map.mp hd
    exact b.toNat_lt
  have hlt := Nat.ofDigits_lt_base_pow_length (by decide : 1 < 256) hdigit
  refine lt_of_lt_of_le hlt (Nat.pow_le_pow_right (by decide) ?_)
  rw [List.length_map]
  exact List.length_take_le _ _

theorem readLE_skip {skipped : List UInt8} {k : ℕ} (rest : List UInt8) (off w : ℕ)
    (h : skipped.length = k) : readLE (skipped ++ rest) (k + off) w = readLE rest off w := by
  rw [readLE, readLE, ← h, List.drop_append, List.drop_eq_nil_of_le (Nat.le_add_right _ _),
    Nat.add_sub_cancel_left, List.nil_append]

theorem readLE_append {bytes rest : List UInt8} {off w : ℕ} (h : off + w ≤ bytes.length) :
    readLE (bytes ++ rest) off w = readLE bytes off w := by
  rw [readLE, readLE, List.drop_append_of_le_length (by omega),
    List.take_append_of_le_length (by rw [List.length_drop]; omega)]

theorem readLE_take {off w n : ℕ} (bytes : List UInt8) (h : off + w ≤ n) :
    readLE (bytes.take n) off w = readLE bytes off w := by
  rw [readLE, readLE, List.drop_take, List.take_take, min_eq_left (by omega)]

/-! ### Records -/

/-- A number in a field that is wide enough. -/
structure Field where
  width : ℕ
  value : ℕ
  value_lt : value < 256 ^ width

/-- The bytes of a record. -/
def encodeFields (fields : List Field) : List UInt8 :=
  fields.flatMap fun field => toBytesLE field.width field.value

theorem length_encodeFields (fields : List Field) :
    (encodeFields fields).length = (fields.map Field.width).sum := by
  rw [encodeFields, List.length_flatMap]
  exact congrArg List.sum (List.map_congr_left fun field _ => length_toBytesLE field.value_lt)

theorem encodeFields_append (fields fields' : List Field) :
    encodeFields (fields ++ fields') = encodeFields fields ++ encodeFields fields' :=
  List.flatMap_append

/-- A field is found behind the fields before it, whatever follows it. -/
theorem readLE_encodeFields (before : List Field) (field : Field) (after : List Field)
    (rest : List UInt8) :
    readLE (encodeFields (before ++ field :: after) ++ rest) (before.map Field.width).sum
      field.width = field.value := by
  have hfield : encodeFields (before ++ field :: after) ++ rest = encodeFields before ++
      (toBytesLE field.width field.value ++ (encodeFields after ++ rest)) := by
    simp only [encodeFields, List.flatMap_append, List.flatMap_cons, List.append_assoc]
  rw [hfield]
  refine (readLE_skip _ 0 _ (length_encodeFields before)).trans ?_
  rw [readLE, List.drop_zero, List.take_append_of_le_length (length_toBytesLE field.value_lt).ge,
    List.take_of_length_le (length_toBytesLE field.value_lt).le, ofBytesLE_toBytesLE field.value_lt]

end LittleEndian
