import Lazyd.Library.Decimal
import Lazyd.Remote.Basic
import Lazyd.Remote.Challenge

/-!
# Reading a range of a blob from a registry

`OciRemoteBackend::read_range` asks for a range of the blob with a `Range` header. A registry may
ignore the header and answer with the whole blob, and a proxy may cut the answer short. `read_range`
accepts both: the body must not be longer than what was asked for, and `ensure_range` compares its
length with that of the range afterwards. The two checks together let only the bytes of the range
pass.

## Main definitions

* `Oci.RangeResponse`, `Oci.readRange`.
* `Oci.parseByteRange` : how a server reads the header.
* `Oci.RangeAnswer`, `Oci.ServesRanges` : the servers.
* `Oci.Fits` : the responses that have the bytes of a range.

## Main results

* `Oci.parseByteRange_rangeHeader` : the header is read as it is meant.
* `Oci.readRange_fits`, `Oci.readRange_of_not_fits` : what the two checks let pass.

Source: `src/remote/oci.rs`, lines 180–213.
-/

namespace Lazyd

namespace Oci

/-- The answer to a range request, as far as `read_range` looks at it. -/
structure RangeResponse where
  status : ℕ
  /-- the status as a text -/
  statusText : String
  /-- what reading the body ends with -/
  bytes : Except Error (List UInt8)

/-- The value of the `Range` header for the bytes `first` to `last`. -/
def rangeHeader (first last : ℕ) : String := "bytes=" ++ toString first ++ "-" ++ toString last

/-- `OciRemoteBackend::read_range`; `get` is `registry_get` for the blob with the given `Range`
header. -/
def readRange (get : String → Except Error RangeResponse) (offset len : ℕ) :
    Except Error (List UInt8) :=
  if len = 0 then .ok []
  else
    match (U64.checkedAdd offset len).bind fun v => U64.checkedSub v 1 with
    | none => .error (.badRequest "range overflows u64")
    | some last =>
      match get (rangeHeader offset last) with
      | .error err => .error err
      | .ok response =>
        if response.status ≠ 206 ∧ response.status ≠ 200 then
          .error (.remote ("registry range read failed with status " ++ response.statusText))
        else
          match response.bytes with
          | .error err => .error err
          | .ok bytes =>
            if len < bytes.length then
              .error (.remote "registry returned more bytes than requested")
            else .ok bytes

/-! ### Servers -/

/-- A server reads the first and the last position off the value of a `Range` header. -/
def parseByteRange (header : String) : Option (ℕ × ℕ) := do
  let (unit, range) ← splitOnce '=' header.toList
  let (first, last) ← splitOnce '-' range
  let first ← Decimal.parse first
  let last ← Decimal.parse last
  if unit = "bytes".toList ∧ first ≤ last then some (first, last) else none

/-- **The header** of a range is read as that range. -/
theorem parseByteRange_rangeHeader {first last : ℕ} (hle : first ≤ last) :
    parseByteRange (rangeHeader first last) = some (first, last) := by
  have hlist : (rangeHeader first last).toList = "bytes".toList ++
      '=' :: ((toString first).toList ++ '-' :: (toString last).toList) := by
    simp only [rangeHeader, String.toList_append, List.append_assoc]
    rfl
  have hunit : '=' ∉ "bytes".toList := by decide
  have hbar : '-' ∉ (toString first).toList := Decimal.notMem_toString (by decide)
  simp only [parseByteRange, hlist, splitOnce_append_cons hunit, splitOnce_append_cons hbar,
    Decimal.parse_toString, Option.bind_eq_bind, Option.bind_some, true_and, if_pos hle]

/-- What a server may answer when it is asked for the bytes `first` to `last` of a blob of `size`
bytes. -/
inductive RangeAnswer (blob : ℕ → UInt8) (size first last : ℕ) : RangeResponse → Prop
  /-- the bytes, or a prefix of them -/
  | partialContent (statusText : String) {n : ℕ} (hn : n ≤ last + 1 - first) :
      RangeAnswer blob size first last ⟨206, statusText, .ok (SparseFile.slice blob first n)⟩
  /-- the server ignores the range -/
  | whole (statusText : String) :
      RangeAnswer blob size first last ⟨200, statusText, .ok (SparseFile.slice blob 0 size)⟩
  | other {status : ℕ} (statusText : String) (bytes : Except Error (List UInt8))
      (h : status ≠ 206 ∧ status ≠ 200) :
      RangeAnswer blob size first last ⟨status, statusText, bytes⟩
  /-- the body cannot be read -/
  | broken (status : ℕ) (statusText : String) (err : Error) :
      RangeAnswer blob size first last ⟨status, statusText, .error err⟩

/-- Every response to a request with a header that is read as a range is one of these answers. -/
def ServesRanges (blob : ℕ → UInt8) (size : ℕ) (get : String → Except Error RangeResponse) : Prop :=
  ∀ header first last response, parseByteRange header = some (first, last) → last < size →
    get header = .ok response → RangeAnswer blob size first last response

/-- The registry answers with content, of the length of the range. -/
def Fits (get : String → Except Error RangeResponse) (offset len : ℕ) : Prop :=
  ∃ response bytes, get (rangeHeader offset (offset + len - 1)) = .ok response ∧
    (response.status = 206 ∨ response.status = 200) ∧ response.bytes = .ok bytes ∧
      bytes.length = len

variable {get : String → Except Error RangeResponse} {offset len : ℕ}

/-- Without an overflow, `read_range` asks for the bytes up to the last one. -/
theorem readRange_eq (hlen : 0 < len) (hlt : offset + len < U64.size) :
    readRange get offset len =
      match get (rangeHeader offset (offset + len - 1)) with
      | .error err => .error err
      | .ok response =>
        if response.status ≠ 206 ∧ response.status ≠ 200 then
          .error (.remote ("registry range read failed with status " ++ response.statusText))
        else
          match response.bytes with
          | .error err => .error err
          | .ok bytes =>
            if len < bytes.length then
              .error (.remote "registry returned more bytes than requested")
            else .ok bytes := by
  have hsub : U64.checkedSub (offset + len) 1 = some (offset + len - 1) :=
    U64.checkedSub_of_le (by omega)
  simp only [readRange, hlen.ne', ↓reduceIte, U64.checkedAdd_of_lt hlt, Option.bind_some, hsub]

theorem fits_of_readRange (hlen : 0 < len) (hlt : offset + len < U64.size) {bytes : List UInt8}
    (h : readRange get offset len = .ok bytes) (hbytes : bytes.length = len) :
    Fits get offset len := by
  rw [readRange_eq hlen hlt] at h
  split at h
  · exact absurd h (by simp)
  · rename_i response hget
    split_ifs at h with hstatus
    split at h
    · exact absurd h (by simp)
    · rename_i body hbody
      split_ifs at h
      obtain rfl := Except.ok.inj h
      exact ⟨response, body, hget, by omega, hbody, hbytes⟩

/-- The content of an answer is the range, if it has the length of the range. A blob that has this
length as a whole starts with the range, which is the whole blob then. -/
theorem RangeAnswer.bytes_eq {blob : ℕ → UInt8} {size : ℕ} {response : RangeResponse}
    {bytes : List UInt8} (h : RangeAnswer blob size offset (offset + len - 1) response)
    (hle : offset + len ≤ size) (hstatus : response.status = 206 ∨ response.status = 200)
    (hbody : response.bytes = .ok bytes) (hbytes : bytes.length = len) :
    bytes = SparseFile.slice blob offset len := by
  cases h with
  | @partialContent _ n hn =>
    obtain rfl := Except.ok.inj hbody
    rw [SparseFile.length_slice] at hbytes
    rw [hbytes]
  | whole =>
    obtain rfl := Except.ok.inj hbody
    rw [SparseFile.length_slice] at hbytes
    obtain rfl : offset = 0 := by omega
    rw [hbytes]
  | other _ _ h =>
    rcases hstatus with hstatus | hstatus
    · exact absurd hstatus h.1
    · exact absurd hstatus h.2
  | broken => exact absurd hbody (by simp)

/-- **A response that fits is the range.** A blob that fits as a whole has the length of the range,
which then starts with it. -/
theorem readRange_fits {blob : ℕ → UInt8} {size : ℕ} (hserves : ServesRanges blob size get)
    (hlen : 0 < len) (hle : offset + len ≤ size) (hlt : offset + len < U64.size)
    (hfits : Fits get offset len) :
    readRange get offset len = .ok (SparseFile.slice blob offset len) := by
  obtain ⟨response, bytes, hget, hstatus, hbody, hbytes⟩ := hfits
  have hslice := (hserves _ offset (offset + len - 1) response
    (parseByteRange_rangeHeader (by omega)) (by omega) hget).bytes_eq hle hstatus hbody hbytes
  rw [readRange_eq hlen hlt, hget]
  have hstatus' : ¬(response.status ≠ 206 ∧ response.status ≠ 200) := by omega
  simp only [hstatus', ↓reduceIte, hbody, hslice, SparseFile.length_slice, lt_self_iff_false]

/-- Any other response ends in an error, or in a number of bytes that is not that of the range. -/
theorem readRange_of_not_fits (hlen : 0 < len) (hlt : offset + len < U64.size)
    (h : ¬Fits get offset len) :
    ∀ bytes, readRange get offset len = .ok bytes → bytes.length ≠ len :=
  fun _ hread hbytes => h (fits_of_readRange hlen hlt hread hbytes)

end Oci

end Lazyd
