import Lazyd.Instance.EnsureRange

/-!
# Writing what the remote has answered: the loop of `write_all_at`

`Instance::write_all_at` calls `write_at` on the target until all bytes are written. A call may
write fewer bytes than it is given, write none or fail, and after each call the loop moves on in the
bytes and in the target by what the call says it has written. Whatever the calls answer, the loop
ends, and what it leaves in the target is one write of the bytes, cut off where an error ends it.

The loop is the phase `Phase.writing` of a task: a task that runs alone through that phase does what
the loop does.

## Main definitions

* `Instance.WriteResults` : what the calls of `write_at` answer.
* `Instance.writeLoop`, `Instance.writeAllAt`.
* `Instance.WriteLoop.Prefix` : the invariant of the loop.

## Main results

* `Instance.writeLoop_returns` : the loop ends, with a prefix of the bytes in the target.
* `Instance.writeAllAt_eq_writeAll` : the loop amounts to one write.
* `Instance.writeAllAt_exact` : what the loop does to every position of the target.
* `Instance.solo_writeAllAt` : the loop in the task system of an instance.

Source: `src/instance.rs`, lines 250–260 and 337–351.
-/

namespace Lazyd

namespace Instance

/-- What the calls of `write_at` on the target answer. The call with the given index and with so
many bytes to write fails, or it says how many of them it has written. -/
structure WriteResults where
  result : ℕ → ℕ → Except IoError ℕ
  le_left : ∀ i left n, result i left = .ok n → n ≤ left

/-- The target and the counters of the loop. -/
structure WriteLoop where
  target : File
  /-- how many calls have been made -/
  calls : ℕ
  written : ℕ
  offset : ℕ

/-- A call of `write_at` that writes `n` bytes, and the counters after it. -/
def WriteLoop.advance (bytes : List UInt8) (s : WriteLoop) (n : ℕ) : WriteLoop where
  target := s.target.writeAt s.offset ((bytes.drop s.written).take n)
  calls := s.calls + 1
  written := s.written + n
  offset := U64.add s.offset n

/-- The loop of `write_all_at`, or `none` if it goes round more often than `fuel` allows. -/
def writeLoop (results : WriteResults) (bytes : List UInt8) :
    ℕ → WriteLoop → Option (Except Error Unit × WriteLoop)
  | 0, _ => none
  | fuel + 1, s =>
    if s.written < bytes.length then
      match results.result s.calls (bytes.length - s.written) with
      | .error err => some (.error (.io err), s)
      | .ok n =>
        if n = 0 then some (.error (.io (.writeZero "failed to write target_path")), s)
        else writeLoop results bytes fuel (s.advance bytes n)
    else some (.ok (), s)

/-- `Instance::write_all_at`. -/
def writeAllAt (results : WriteResults) (bytes : List UInt8) (offset fuel : ℕ) (target : File) :
    Option (Except Error Unit × File) :=
  (writeLoop results bytes fuel ⟨target, 0, 0, offset⟩).map fun p => (p.1, p.2.target)

/-- The invariant of the loop: the target is the file `f` with the bytes counted as written in it
from `offset` on, and the two counters agree. -/
structure WriteLoop.Prefix (f : File) (offset : ℕ) (bytes : List UInt8) (s : WriteLoop) : Prop where
  written_le : s.written ≤ bytes.length
  offset_eq : s.offset = offset + s.written
  target_eq : s.target = f.writeAt offset (bytes.take s.written)

variable {results : WriteResults} {f : File} {offset : ℕ} {bytes : List UInt8} {s : WriteLoop}

theorem WriteLoop.prefix_init (f : File) (offset : ℕ) (bytes : List UInt8) :
    WriteLoop.Prefix f offset bytes ⟨f, 0, 0, offset⟩ where
  written_le := Nat.zero_le _
  offset_eq := rfl
  target_eq := by rw [List.take_zero, SparseFile.writeAt_nil]

/-- A write of some of the bytes that are left keeps the invariant. -/
theorem WriteLoop.Prefix.advance (h : s.Prefix f offset bytes)
    (hend : offset + bytes.length < U64.size) {n : ℕ} (hn : n ≤ bytes.length - s.written) :
    (s.advance bytes n).Prefix f offset bytes := by
  have hle := h.written_le
  have hoff := h.offset_eq
  refine ⟨?_, ?_, ?_⟩
  · change s.written + n ≤ bytes.length
    omega
  · change U64.add s.offset n = offset + (s.written + n)
    rw [U64.add_eq (by omega), hoff, Nat.add_assoc]
  · change s.target.writeAt s.offset ((bytes.drop s.written).take n) =
      f.writeAt offset (bytes.take (s.written + n))
    -- the first write ends where the second begins
    have hlen : offset + s.written = offset + (bytes.take s.written).length := by
      rw [List.length_take_of_le hle]
    rw [h.target_eq, hoff, hlen, SparseFile.writeAt_append, List.take_add]

/-- **The loop ends.** Each call that does not end it makes at least one byte fewer to write, so
that it goes round at most once for each byte. At its end a prefix of the bytes is in the target,
all of them unless there was an error. -/
theorem writeLoop_returns (results : WriteResults) (hend : offset + bytes.length < U64.size)
    {fuel : ℕ} (h : s.Prefix f offset bytes) (hfuel : bytes.length - s.written < fuel) :
    ∃ res s', writeLoop results bytes fuel s = some (res, s') ∧ s'.Prefix f offset bytes ∧
      (res = .ok () ∧ s'.written = bytes.length ∨
        ∃ err, res = .error (.io err) ∧ s'.written < bytes.length) := by
  induction fuel generalizing s with
  | zero => exact absurd hfuel (Nat.not_lt_zero _)
  | succ fuel ih =>
    rw [writeLoop]
    by_cases hmore : s.written < bytes.length
    · rw [if_pos hmore]
      cases hres : results.result s.calls (bytes.length - s.written) with
      | error err => exact ⟨_, s, rfl, h, Or.inr ⟨err, rfl, hmore⟩⟩
      | ok n =>
        have hn := results.le_left _ _ _ hres
        rcases Nat.eq_zero_or_pos n with rfl | hpos
        · exact ⟨_, s, rfl, h, Or.inr ⟨_, rfl, hmore⟩⟩
        · simp only [if_neg hpos.ne']
          refine ih (h.advance hend hn) ?_
          change bytes.length - (s.written + n) < fuel
          omega
    · rw [if_neg hmore]
      exact ⟨_, s, rfl, h, Or.inl ⟨rfl, le_antisymm h.written_le (not_lt.mp hmore)⟩⟩

theorem writeLoop_mono {fuel fuel' : ℕ} {p : Except Error Unit × WriteLoop} (hle : fuel ≤ fuel')
    (h : writeLoop results bytes fuel s = some p) : writeLoop results bytes fuel' s = some p := by
  induction fuel generalizing fuel' s with
  | zero => exact absurd h (Option.some_ne_none p).symm
  | succ fuel ih =>
    obtain ⟨fuel', rfl⟩ : ∃ k, fuel' = k + 1 := ⟨fuel' - 1, by omega⟩
    rw [writeLoop] at h ⊢
    split_ifs at h ⊢ with hmore
    · cases hres : results.result s.calls (bytes.length - s.written) with
      | error err => simpa only [hres] using h
      | ok n =>
        simp only [hres] at h ⊢
        split_ifs at h ⊢ with hzero
        · exact h
        · exact ih (by omega) h
    · exact h

/-- **The loop amounts to one write**, cut off where an error ends it before the last byte. -/
theorem writeAllAt_eq_writeAll (results : WriteResults) (target : File)
    (hend : offset + bytes.length < U64.size) :
    ∃ fault : Option (ℕ × IoError), (∀ p ∈ fault, p.1 < bytes.length) ∧
      ∀ fuel, bytes.length < fuel →
        writeAllAt results bytes offset fuel target =
          some (target.writeAll offset bytes fault) := by
  obtain ⟨res, s', hloop, hpre, hends⟩ := writeLoop_returns results hend
    (WriteLoop.prefix_init target offset bytes) (Nat.lt_succ_self bytes.length)
  have hall (fuel : ℕ) (hfuel : bytes.length < fuel) :
      writeAllAt results bytes offset fuel target = some (res, s'.target) := by
    rw [writeAllAt, writeLoop_mono hfuel hloop, Option.map_some]
  have htarget := hpre.target_eq
  rcases hends with ⟨rfl, hw⟩ | ⟨err, rfl, hw⟩
  · rw [hw, List.take_length] at htarget
    refine ⟨none, fun p hp => absurd hp (Option.not_mem_none p), fun fuel hfuel => ?_⟩
    rw [hall fuel hfuel, htarget]
    rfl
  · refine ⟨some (s'.written, err), ?_, fun fuel hfuel => ?_⟩
    · rintro p ⟨⟩
      exact hw
    · rw [hall fuel hfuel, htarget]
      rfl

/-- **`write_all_at` is exact under short writes.** Whatever `write_at` answers, the loop ends. If
it ends well, then the bytes are in the target in place of what was there from `offset` on, and
nothing else has changed; if it ends with an error, then the same holds of a proper prefix of
them. -/
theorem writeAllAt_exact (results : WriteResults) (bytes : List UInt8) (offset : ℕ) (target : File)
    (hend : offset + bytes.length < U64.size) :
    ∃ res target', (∀ fuel, bytes.length < fuel →
        writeAllAt results bytes offset fuel target = some (res, target')) ∧
      (res = .ok () → target.Replaced offset bytes target') ∧
      ∀ err, res = .error err →
        ∃ k, k < bytes.length ∧ target.Replaced offset (bytes.take k) target' := by
  obtain ⟨fault, hfault, hall⟩ := writeAllAt_eq_writeAll results target hend
  refine ⟨_, _, hall, ?_⟩
  cases fault with
  | none =>
    refine ⟨fun _ => SparseFile.replaced_writeAt target offset bytes, fun err herr => ?_⟩
    cases herr
  | some p =>
    refine ⟨fun hok => ?_, fun err _ => ?_⟩
    · cases hok
    · exact ⟨p.1, hfault p rfl, SparseFile.replaced_writeAt target offset _⟩

/-- Calls that write up to two bytes each, and the third of which fails. -/
def twoBytes : WriteResults where
  result i left := if i = 2 then .error (.os 28) else .ok (min 2 left)
  le_left i left n h := by
    split_ifs at h
    have hn : min 2 left = n := Except.ok.inj h
    omega

theorem writeAllAt_exact_twoBytes : ∃ res target', (∀ fuel, 5 < fuel →
      writeAllAt twoBytes [1, 2, 3, 4, 5] 3 fuel (SparseFile.holes 4096 16 (by decide)) =
        some (res, target')) ∧
    (res = .ok () →
      (SparseFile.holes 4096 16 (by decide)).Replaced 3 [1, 2, 3, 4, 5] target') ∧
    ∀ err, res = .error err → ∃ k, k < 5 ∧
      (SparseFile.holes 4096 16 (by decide)).Replaced 3 (([1, 2, 3, 4, 5] : List UInt8).take k)
        target' :=
  writeAllAt_exact twoBytes [1, 2, 3, 4, 5] 3 (SparseFile.holes 4096 16 (by decide)) (by decide)

example : (writeAllAt twoBytes [1, 2, 3, 4, 5] 3 6 (SparseFile.holes 4096 8 (by decide))).map
    (fun p => (p.1, p.2.contents)) =
      some (.error (.io (.os 28)), [0, 0, 0, 1, 2, 3, 4, 0]) := by decide

/-! ### The loop in the task system -/

section Solo

variable (inst : Instance) (call : Call) (requestOffset requestLen : ℕ) (range : Range)

/-- Where a task goes on when the loop has ended. -/
def afterWriteAll : Except Error Unit → Phase
  | .error err => .releasing (.err err)
  | .ok () => inst.startMark range

theorem step_wrote_zero (shared : Shared) (bytes : List UInt8) (written : ℕ) :
    inst.step shared (.running call requestOffset requestLen
        (.holding range (.writing bytes written))) (.wrote (.ok 0)) =
      some (shared, .running call requestOffset requestLen (.holding range
        (.releasing (.err (.io (.writeZero "failed to write target_path")))))) := by
  simp only [step, Nat.not_lt_zero, if_false, if_true]

theorem step_wrote (shared : Shared) {written n : ℕ} (hpos : n ≠ 0)
    (hn : n ≤ bytes.length - written) :
    inst.step shared (.running call requestOffset requestLen
        (.holding range (.writing bytes written))) (.wrote (.ok n)) =
      some (inst.writeTarget shared range bytes written n,
        .running call requestOffset requestLen
          (.holding range (inst.afterWrite range bytes (written + n)))) := by
  simp only [step, if_neg (not_lt.mpr hn), if_neg hpos]

/-- A task alone in the loop makes the steps of the loop. -/
theorem solo_writeLoop (hend : range.offset + bytes.length < U64.size) {fuel : ℕ} {s' : WriteLoop}
    {res : Except Error Unit} (h : writeLoop results bytes fuel s = some (res, s'))
    (hoff : s.offset = range.offset + s.written) (shared : Shared)
    (hdisk : shared.disk inst.target = s.target) :
    ∃ es, inst.tasks.solo shared (.running call requestOffset requestLen
        (.holding range (inst.afterWrite range bytes s.written))) es =
      some ({ shared with disk := Function.update shared.disk inst.target s'.target },
        .running call requestOffset requestLen
          (.holding range (inst.afterWriteAll range res))) := by
  induction fuel generalizing s shared with
  | zero => exact absurd h.symm (Option.some_ne_none _)
  | succ fuel ih =>
    have hkeep : { shared with disk := Function.update shared.disk inst.target s.target } =
        shared := by
      rw [← hdisk, Function.update_eq_self]
    rw [writeLoop] at h
    rw [afterWrite]
    by_cases hmore : s.written < bytes.length
    · rw [if_pos hmore] at h ⊢
      cases hres : results.result s.calls (bytes.length - s.written) with
      | error err =>
        simp only [hres] at h
        obtain ⟨rfl, rfl⟩ := Prod.mk.inj (Option.some.inj h)
        refine ⟨[.wrote (.error err)], ?_⟩
        rw [hkeep]
        rfl
      | ok n =>
        have hn := results.le_left _ _ _ hres
        simp only [hres] at h
        split_ifs at h with hzero
        · obtain ⟨rfl, rfl⟩ := Prod.mk.inj (Option.some.inj h)
          refine ⟨[.wrote (.ok 0)], ?_⟩
          rw [hkeep]
          exact TaskSystem.solo_cons_eq_some.mpr ⟨_, _, inst.step_wrote_zero call requestOffset
            requestLen range shared bytes s.written, rfl⟩
        · -- the write of this step, and the loop from there
          have hdisk' : (inst.writeTarget shared range bytes s.written n).disk inst.target =
              (s.advance bytes n).target := by
            rw [writeTarget_disk, Disk.write_self, hdisk, ← hoff]
            rfl
          have hoff' : (s.advance bytes n).offset = range.offset + (s.advance bytes n).written := by
            change U64.add s.offset n = range.offset + (s.written + n)
            rw [U64.add_eq (by omega), hoff, Nat.add_assoc]
          obtain ⟨es, hes⟩ := ih h hoff' _ hdisk'
          refine ⟨.wrote (.ok n) :: es, ?_⟩
          refine TaskSystem.solo_cons_eq_some.mpr ⟨_, _, inst.step_wrote call requestOffset
            requestLen range shared hzero hn, hes.trans ?_⟩
          rw [writeTarget_disk, Disk.write, Function.update_idem]
          rfl
    · rw [if_neg hmore] at h ⊢
      obtain ⟨rfl, rfl⟩ := Prod.mk.inj (Option.some.inj h)
      refine ⟨[], ?_⟩
      rw [hkeep]
      rfl

/-- **The loop in the task system.** A task that has received the bytes and runs alone leaves in the
target what `write_all_at` leaves there, nothing else changes, and it goes on as the result of
`write_all_at` says. -/
theorem solo_writeAllAt (hend : range.offset + bytes.length < U64.size)
    (hlen : bytes.length = range.len) (shared : Shared) {fuel : ℕ} {res : Except Error Unit}
    {target' : File}
    (h : writeAllAt results bytes range.offset fuel (shared.disk inst.target) =
      some (res, target')) :
    ∃ es, inst.tasks.solo shared (.running call requestOffset requestLen
        (.holding range (inst.received range (.ok bytes)))) es =
      some ({ shared with disk := Function.update shared.disk inst.target target' },
        .running call requestOffset requestLen
          (.holding range (inst.afterWriteAll range res))) := by
  obtain ⟨⟨res', s'⟩, hloop, hp⟩ := Option.map_eq_some_iff.mp h
  obtain ⟨rfl, rfl⟩ := Prod.mk.inj hp
  have hreceived : inst.received range (.ok bytes) = inst.afterWrite range bytes 0 :=
    if_neg (not_not.mpr hlen)
  rw [hreceived]
  exact inst.solo_writeLoop call requestOffset requestLen range hend hloop rfl shared rfl

end Solo

end Instance

end Lazyd
