import Mathlib.Data.List.Basic
import Mathlib.Tactic.SplitIfs

/-!
# Bytes of text

The UTF-8 encoding of characters as a list of bytes, its decoding, and what a decoder reports about
bytes that are no encoding: how many of them are valid, and how many of the next ones are wrong.

## Main definitions

* `Utf8.encode`, `Utf8.decode`.
* `Utf8Error`, `Utf8.firstError`, `Utf8.fromUtf8`.

## Main results

* `Utf8.fromUtf8_encode` : what has been encoded is decoded.
* `Utf8.eq_of_mem_encode` : only an ASCII character has an ASCII byte in its encoding.
-/

/-- Where bytes are not UTF-8. -/
structure Utf8Error where
  /-- how many bytes there are before the first wrong sequence -/
  validUpTo : ℕ
  /-- the length of the wrong sequence, unless the bytes end within it -/
  errorLen : Option ℕ
  deriving DecidableEq, Repr

namespace Utf8Error

/-- The error in words. -/
def text (err : Utf8Error) : String :=
  match err.errorLen with
  | some len =>
    "invalid utf-8 sequence of " ++ toString len ++ " bytes from index " ++ toString err.validUpTo
  | none => "incomplete utf-8 byte sequence from index " ++ toString err.validUpTo

end Utf8Error

namespace Utf8

/-! ### Encoding and decoding -/

/-- The bytes of characters. -/
def encode (chars : List Char) : List UInt8 := chars.flatMap String.utf8EncodeChar

/-- The characters of bytes. -/
def decode (bytes : List UInt8) : Option (List Char) :=
  bytes.toByteArray.utf8Decode?.map Array.toList

theorem encode_append (chars chars' : List Char) :
    encode (chars ++ chars') = encode chars ++ encode chars' := List.flatMap_append

theorem decode_encode (chars : List Char) : decode (encode chars) = some chars := by
  have h : (encode chars).toByteArray.utf8Decode? = some chars.toArray :=
    List.utf8Decode?_utf8Encode
  rw [decode, h, Option.map_some, List.toList_toArray]

theorem encode_injective : Function.Injective encode := by
  intro chars chars' h
  have hdecode := decode_encode chars
  rw [h, decode_encode] at hdecode
  exact (Option.some.inj hdecode).symm

theorem toNat_of_mem_utf8EncodeChar {c : Char} {b : UInt8} (h : b ∈ String.utf8EncodeChar c) :
    b.toNat = c.toNat ∨ 128 ≤ b.toNat := by
  have hcontinuation (n : ℕ) : 128 ≤ (UInt8.ofNat (n % 64 + 128)).toNat := by
    rw [UInt8.toNat_ofNat']
    omega
  have hfirst (n k w : ℕ) (hk : 0 < k) (hw : 128 ≤ w) (hle : k + w ≤ 256) :
      128 ≤ (UInt8.ofNat (n % k + w)).toNat := by
    have hlt := Nat.mod_lt n hk
    rw [UInt8.toNat_ofNat', Nat.mod_eq_of_lt (by omega)]
    omega
  rw [String.utf8EncodeChar] at h
  split_ifs at h with h1 h2 h3
  · obtain rfl := List.mem_singleton.mp h
    left
    rw [UInt8.toNat_ofNat', Nat.mod_eq_of_lt (by omega)]
    rfl
  · right
    rcases List.mem_cons.mp h with rfl | h
    · exact hfirst _ _ _ (by decide) (by decide) (by decide)
    · obtain rfl := List.mem_singleton.mp h
      exact hcontinuation _
  · right
    rcases List.mem_cons.mp h with rfl | h
    · exact hfirst _ _ _ (by decide) (by decide) (by decide)
    · rcases List.mem_pair.mp h with rfl | rfl
      · exact hcontinuation _
      · exact hcontinuation _
  · right
    rcases List.mem_cons.mp h with rfl | h
    · exact hfirst _ _ _ (by decide) (by decide) (by decide)
    · rcases List.mem_cons.mp h with rfl | h
      · exact hcontinuation _
      · rcases List.mem_pair.mp h with rfl | rfl
        · exact hcontinuation _
        · exact hcontinuation _

/-- Only an ASCII character has an ASCII byte in its encoding: itself. -/
theorem eq_of_mem_encode {chars : List Char} {b : UInt8} (h : b ∈ encode chars)
    (hb : b.toNat < 128) : ∃ c ∈ chars, c.toNat = b.toNat := by
  obtain ⟨c, hc, hmem⟩ := List.mem_flatMap.mp h
  exact ⟨c, hc, ((toNat_of_mem_utf8EncodeChar hmem).resolve_right (by omega)).symm⟩

theorem encode_eq_nil {chars : List Char} : encode chars = [] ↔ chars = [] := by
  constructor
  · intro h
    exact encode_injective h
  · rintro rfl
    rfl

/-! ### Errors -/

/-- A sequence of several bytes that a decoder is in: how many of them it has seen, how many are
missing, and from what range the next one is. -/
structure Pending where
  seen : ℕ
  missing : ℕ
  lo : UInt8
  hi : UInt8

/-- The sequence that a byte starts, unless it is no first byte of any. -/
def pendingOf (b : UInt8) : Option Pending :=
  if 0xc2 ≤ b ∧ b ≤ 0xdf then some ⟨1, 1, 0x80, 0xbf⟩
  else if b = 0xe0 then some ⟨1, 2, 0xa0, 0xbf⟩
  else if b = 0xed then some ⟨1, 2, 0x80, 0x9f⟩
  else if 0xe1 ≤ b ∧ b ≤ 0xef then some ⟨1, 2, 0x80, 0xbf⟩
  else if b = 0xf0 then some ⟨1, 3, 0x90, 0xbf⟩
  else if 0xf1 ≤ b ∧ b ≤ 0xf3 then some ⟨1, 3, 0x80, 0xbf⟩
  else if b = 0xf4 then some ⟨1, 3, 0x80, 0x8f⟩
  else none

/-- The first wrong sequence of the bytes; `index` bytes before them are valid and, if there is a
pending sequence, followed by what has been seen of it. Without a wrong sequence, it is the end. -/
def firstError (index : ℕ) : Option Pending → List UInt8 → Utf8Error
  | _, [] => ⟨index, none⟩
  | none, b :: bytes =>
    if b < 0x80 then firstError (index + 1) none bytes
    else match pendingOf b with
      | none => ⟨index, some 1⟩
      | some p => firstError index (some p) bytes
  | some p, b :: bytes =>
    if p.lo ≤ b ∧ b ≤ p.hi then
      if p.missing = 1 then firstError (index + p.seen + 1) none bytes
      else firstError index (some ⟨p.seen + 1, p.missing - 1, 0x80, 0xbf⟩) bytes
    else ⟨index, some p.seen⟩

/-- `str::from_utf8` -/
def fromUtf8 (bytes : List UInt8) : Except Utf8Error (List Char) :=
  match decode bytes with
  | some chars => .ok chars
  | none => .error (firstError 0 none bytes)

/-- What has been encoded is decoded. -/
theorem fromUtf8_encode (chars : List Char) : fromUtf8 (encode chars) = .ok chars := by
  rw [fromUtf8, decode_encode]

/-- A wrong second byte, and a sequence that is cut off. -/
example : fromUtf8 [0x61, 0xe2, 0x28, 0xa1] = .error ⟨1, some 1⟩ ∧
    fromUtf8 [0x61, 0xe2, 0x82] = .error ⟨1, none⟩ := by
  decide +kernel

end Utf8
