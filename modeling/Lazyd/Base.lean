import Lazyd.Library.SparseFile
import Lazyd.Library.UnitPartition

/-!
# Machine words, errors and files

The words, errors and file handles that every module of the daemon shares. A `u64` is a natural
number; a checked operation fails from `2 ^ 64` on and an unchecked one wraps around, as it does in
a release build. `usize` is `u64`, the daemon being built for 64-bit Linux.

A file handle is the identity of the file that it was opened on, and `Disk` gives the contents of
every file. What a path resolves to is left to the modules that open paths.

## Main definitions

* `U64.checkedAdd`, `U64.checkedSub`, `U64.checkedMul`, `U64.add`, `U64.sub`, `U64.mul`,
  `U64.divCeil`.
* `IoError`, `Error`, `Error.statusCode`.
* `FileKey`, `File`, `Disk`, `File.writeAll`, `Disk.write`, `Disk.setLen`.

Source: `src/error.rs`; `FileKey` is from `src/fanotify.rs`.
-/

namespace Lazyd

/-! ### Words -/

namespace U64

/-- The number of values of a `u64`. -/
def size : ℕ := 2 ^ 64

/-- `u64::checked_add`. -/
def checkedAdd (a b : ℕ) : Option ℕ := if a + b < size then some (a + b) else none

/-- `u64::checked_sub`. -/
def checkedSub (a b : ℕ) : Option ℕ := if b ≤ a then some (a - b) else none

/-- `u64::checked_mul`. -/
def checkedMul (a b : ℕ) : Option ℕ := if a * b < size then some (a * b) else none

/-- Unchecked addition. -/
def add (a b : ℕ) : ℕ := (a + b) % size

/-- Unchecked subtraction. -/
def sub (a b : ℕ) : ℕ := if b ≤ a then a - b else a + size - b

/-- Unchecked multiplication. -/
def mul (a b : ℕ) : ℕ := (a * b) % size

/-- `u64::div_ceil`. -/
def divCeil (a b : ℕ) : ℕ := a / b + if 0 < a % b then 1 else 0

theorem add_eq {a b : ℕ} (h : a + b < size) : add a b = a + b := Nat.mod_eq_of_lt h

theorem mul_eq {a b : ℕ} (h : a * b < size) : mul a b = a * b := Nat.mod_eq_of_lt h

theorem sub_eq {a b : ℕ} (h : b ≤ a) : sub a b = a - b := if_pos h

theorem checkedAdd_eq_some {a b c : ℕ} : checkedAdd a b = some c ↔ c = a + b ∧ a + b < size := by
  rw [checkedAdd]
  split_ifs with h
  · rw [Option.some.injEq, eq_comm]
    exact (and_iff_left h).symm
  · simp only [false_iff, not_and]
    exact fun _ h' => h h'

theorem checkedAdd_of_lt {a b : ℕ} (h : a + b < size) : checkedAdd a b = some (a + b) := if_pos h

theorem checkedSub_of_le {a b : ℕ} (h : b ≤ a) : checkedSub a b = some (a - b) := if_pos h

theorem checkedMul_of_lt {a b : ℕ} (h : a * b < size) : checkedMul a b = some (a * b) := if_pos h

theorem divCeil_eq_ceilDiv {a b : ℕ} (hb : 0 < b) : divCeil a b = a ⌈/⌉ b := by
  rw [divCeil, Nat.ceilDiv_eq_add_pred_div]
  have hmod := Nat.div_add_mod a b
  have hlt := Nat.mod_lt a hb
  split_ifs with h
  · refine (Nat.div_eq_of_lt_le ?_ ?_).symm
    · rw [Nat.add_mul, Nat.one_mul, Nat.mul_comm]
      omega
    · rw [Nat.add_mul, Nat.add_mul, Nat.one_mul, Nat.mul_comm]
      omega
  · refine (Nat.div_eq_of_lt_le ?_ ?_).symm
    · rw [Nat.add_zero, Nat.mul_comm]
      omega
    · rw [Nat.add_zero, Nat.add_mul, Nat.one_mul, Nat.mul_comm]
      omega

end U64

/-! ### Errors -/

/-- The errors of the standard library's file operations that the daemon meets. -/
inductive IoError where
  /-- an error number of the operating system -/
  | os (errno : ℕ)
  | writeZero (msg : String)
  | unexpectedEof (msg : String)
  | invalidInput (msg : String)
  deriving DecidableEq, Repr

namespace IoError

/-- `EINTR`; the positional write loop of the standard library retries on it. -/
def isInterrupted : IoError → Bool
  | .os errno => errno == 4
  | _ => false

end IoError

/-- The daemon's error type. -/
inductive Error where
  | badRequest (msg : String)
  | conflict (msg : String)
  | notFound (msg : String)
  | io (err : IoError)
  | json (msg : String)
  | http (msg : String)
  | remote (msg : String)
  | fanotify (msg : String)
  deriving DecidableEq, Repr

/-- `Error::status_code`. -/
def Error.statusCode : Error → ℕ
  | .badRequest _ => 400
  | .notFound _ => 404
  | .conflict _ => 409
  | .io _ | .json _ | .http _ | .remote _ | .fanotify _ => 500

/-! ### Files -/

/-- The identity of a file. -/
structure FileKey where
  dev : ℕ
  ino : ℕ
  deriving DecidableEq, Repr

/-- The contents of a file. -/
abbrev File := SparseFile (0 : UInt8)

/-- A write of all the bytes. The short writes of the loop and their retries amount to one write,
cut off where an error ends the loop. -/
def File.writeAll (f : File) (off : ℕ) (bs : List UInt8) (fault : Option (ℕ × IoError)) :
    Except Error Unit × File :=
  match fault with
  | none => (.ok (), f.writeAt off bs)
  | some (n, err) => (.error (.io err), f.writeAt off (bs.take n))

/-- The contents of every file. -/
abbrev Disk := FileKey → File

namespace Disk

/-- `write_at` on an open file. -/
def write (d : Disk) (key : FileKey) (off : ℕ) (bs : List UInt8) : Disk :=
  Function.update d key ((d key).writeAt off bs)

/-- `File::set_len`. -/
def setLen (d : Disk) (key : FileKey) (n : ℕ) : Disk :=
  Function.update d key ((d key).setLen n)

theorem write_self (d : Disk) (key : FileKey) (off : ℕ) (bs : List UInt8) :
    d.write key off bs key = (d key).writeAt off bs := Function.update_self ..

theorem write_of_ne (d : Disk) {key key' : FileKey} (off : ℕ) (bs : List UInt8) (h : key' ≠ key) :
    d.write key off bs key' = d key' := Function.update_of_ne h ..

theorem write_block (d : Disk) (key : FileKey) (off : ℕ) (bs : List UInt8) (key' : FileKey) :
    (d.write key off bs key').block = (d key').block := by
  by_cases h : key' = key
  · rw [h, write_self, SparseFile.writeAt_block]
  · rw [write_of_ne d off bs h]

end Disk

end Lazyd
