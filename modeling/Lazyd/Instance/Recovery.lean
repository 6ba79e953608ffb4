import Lazyd.Instance.Soundness

/-!
# Recovery: clearing the slots whose data is not there

A bitmap file that was there before is not trusted. `recovery_reconcile` goes through the slots that
are ready and asks the file system whether the range of each is data; where it is not, the slot is
cleared, first in the bitmap file and then in memory. As with the calls on an instance, a step is
what happens between two points at which the process may die.

If every allocated block of the target has the bytes of the blob, the slots that are left ready are
in the target.

## Main definitions

* `rangeIsPresent` : the probe.
* `Instance.RecoveryState`, `Instance.recovery` : the steps of a recovery.
* `Instance.Reconciling`, `Instance.RecoverySound` : its invariants.

## Main results

* `rangeIsPresent_ok_true`, `rangeIsPresent_of_allocated` : a range is present when it is data.
* `Instance.reconciling_step`, `Instance.recoverySound_step` : a step keeps the invariants.
* `Instance.RecoverySound.slotsSound` : what has been recovered is sound.

Source: `src/range_map.rs`, lines 116–148 and 193–221.
-/

namespace Lazyd

/-- `lseek` with one of the probes; a negative `off_t` is an invalid argument. -/
def lseek (probe : ℕ → Option ℕ) (offset : ℕ) (fault : Option IoError) : Except IoError ℕ :=
  match fault with
  | some err => .error err
  | none =>
    if 2 ^ 63 ≤ offset then .error (.os 22)
    else
      match probe offset with
      | none => .error (.os 6)
      | some pos => .ok pos

/-- The answer to a probe that fails: behind the end of the file there is no data. -/
def probeFailed (err : IoError) : Except Error Bool :=
  if err = .os 6 ∨ err = .os 22 then .ok false else .error (.io err)

/-- `range_is_present`. -/
def rangeIsPresent (f : File) (offset len : ℕ) (dataFault holeFault : Option IoError) :
    Except Error Bool :=
  if len = 0 then .ok true
  else
    match U64.checkedAdd offset len with
    | none => .error (.badRequest "range overflows u64")
    | some fin =>
      match lseek f.seekData offset dataFault with
      | .error err => probeFailed err
      | .ok data =>
        if offset < data then .ok false
        else
          match lseek f.seekHole offset holeFault with
          | .error err => probeFailed err
          | .ok hole => .ok (decide (fin ≤ hole))

theorem probeFailed_ne_ok_true (err : IoError) : probeFailed err ≠ .ok true := by
  rw [probeFailed]
  split_ifs <;> simp

theorem lseek_eq_ok {probe : ℕ → Option ℕ} {offset pos : ℕ} {fault : Option IoError}
    (h : lseek probe offset fault = .ok pos) : probe offset = some pos := by
  unfold lseek at h
  split at h
  · exact absurd h (by simp)
  · split_ifs at h
    split at h
    · exact absurd h (by simp)
    · rename_i heq
      rw [heq, Except.ok.inj h]

/-- **Presence.** A range that is present is data inside the file. -/
theorem rangeIsPresent_ok_true {f : File} {offset len : ℕ} {dataFault holeFault : Option IoError}
    (h : rangeIsPresent f offset len dataFault holeFault = .ok true) :
    ∀ p, offset ≤ p → p < offset + len → p < f.len ∧ f.isData p = true := by
  unfold rangeIsPresent at h
  split_ifs at h with hlen
  · intro p h₁ h₂
    omega
  · split at h
    · exact absurd h (by simp)
    · rename_i fin hadd
      obtain ⟨rfl, -⟩ := U64.checkedAdd_eq_some.mp hadd
      split at h
      · exact absurd h (probeFailed_ne_ok_true _)
      · split_ifs at h
        · exact absurd h (by simp)
        split at h
        · exact absurd h (probeFailed_ne_ok_true _)
        · rename_i hole hseek
          have hle : offset + len ≤ hole := of_decide_eq_true (Except.ok.inj h)
          exact (SparseFile.le_seekHole_iff (lseek_eq_ok hseek) (by omega)).mp hle

/-- A range that is data inside the file is present. -/
theorem rangeIsPresent_of_allocated {f : File} {offset len : ℕ}
    (hend : offset + len ≤ f.len) (hlen : f.len < 2 ^ 63)
    (h : f.Allocated offset (offset + len)) :
    rangeIsPresent f offset len none none = .ok true := by
  rw [rangeIsPresent]
  split_ifs with hzero
  · rfl
  · have hadd : U64.checkedAdd offset len = some (offset + len) := by
      refine U64.checkedAdd_of_lt (lt_of_le_of_lt hend (hlen.trans ?_))
      decide
    have hoffset : ¬2 ^ 63 ≤ offset := by omega
    have hdata : f.seekData offset = some offset :=
      (SparseFile.seekData_eq_some_self_iff f offset).mpr ⟨by omega, h offset le_rfl (by omega)⟩
    simp only [hadd, lseek, if_neg hoffset, hdata, lt_irrefl, ↓reduceIte]
    cases hseek : f.seekHole offset with
    | none =>
      have hle := (SparseFile.seekHole_eq_none_iff f offset).mp hseek
      omega
    | some hole =>
      have hhole : offset + len ≤ hole :=
        (SparseFile.le_seekHole_iff hseek (by omega)).mpr fun p h₁ h₂ => ⟨by omega, h p h₁ h₂⟩
      simp only [hhole, decide_true]

namespace Instance

/-- Where recovery stands with the first of the slots that it still has to look at. -/
inductive RecoveryPc where
  | probing
  /-- in the write of `clear_range_ready` to the bitmap file -/
  | clearing (slotStart slotEnd done : ℕ)
  /-- before the update of the slots in memory -/
  | filling (slotStart slotEnd : ℕ)
  deriving DecidableEq, Repr

inductive RecoveryState where
  | scanning (slot : ℕ) (todo : List ℕ) (pc : RecoveryPc)
  | recovered
  | failed (err : Error)
  deriving DecidableEq, Repr

/-- A step of recovery, with the answer of the file system. -/
inductive RecoveryEvent where
  | probe (dataFault holeFault : Option IoError)
  /-- one `write_at` on the bitmap file -/
  | marked (res : Except IoError ℕ)
  | fill

/-- The slots that are ready when recovery starts. -/
def readySlots (slots : List UInt8) : List ℕ :=
  (List.range slots.length).filter fun k => slots.getD k 0 ≠ 0

/-- The loop of `recovery_reconcile`. -/
def nextSlot : List ℕ → RecoveryState
  | [] => .recovered
  | slot :: todo => .scanning slot todo .probing

/-- `recovery_reconcile` before its first probe. -/
def startRecovery (slots : List UInt8) : RecoveryState := nextSlot (readySlots slots)

variable (inst : Instance)

/-- `recovery_reconcile` after the answer to the probe of a slot. -/
def probed (slot : ℕ) (todo : List ℕ) (offset len : ℕ) : Except Error Bool → RecoveryState
  | .error err => .failed err
  | .ok true => nextSlot todo
  | .ok false =>
    match inst.rangeMap.slotsForRange offset len with
    | .error err => .failed err
    | .ok (slotStart, slotEnd) =>
      if slotStart = slotEnd then nextSlot todo
      else .scanning slot todo (.clearing slotStart slotEnd 0)

/-- One step of recovery. -/
def recoveryStep (s : Shared) :
    RecoveryState → RecoveryEvent → Option (Shared × RecoveryState)
  | .scanning slot todo .probing, .probe dataFault holeFault =>
    match inst.rangeMap.slotRange slot with
    | .error err => some (s, .failed err)
    | .ok (offset, len) => some (s, inst.probed slot todo offset len
        (rangeIsPresent (s.disk inst.target) offset len dataFault holeFault))
  | .scanning slot todo (.clearing slotStart slotEnd done), .marked res =>
    match res with
    | .error err =>
      if err.isInterrupted then some (s, .scanning slot todo (.clearing slotStart slotEnd done))
      else some (s, .failed (.io err))
    | .ok n =>
      if slotEnd - slotStart - done < n then none
      else if n = 0 then some (s, .failed (.io (.writeZero "failed to write whole buffer")))
      else
        some (inst.writeMarks s 0 slotStart done n, .scanning slot todo
          (if done + n < slotEnd - slotStart then .clearing slotStart slotEnd (done + n)
            else .filling slotStart slotEnd))
  | .scanning _ todo (.filling slotStart slotEnd), .fill =>
    some ({ s with slots := fillSlots s.slots slotStart slotEnd 0 }, nextSlot todo)
  | _, _ => none

/-- The steps of a recovery, as a task that runs alone. -/
def recovery : TaskSystem Shared RecoveryState RecoveryEvent := ⟨inst.recoveryStep⟩

/-! ### The invariant -/

/-- The slots that recovery has still to look at. -/
def RecoveryState.todo : RecoveryState → List ℕ
  | .scanning slot todo _ => slot :: todo
  | .recovered | .failed _ => []

/-- What recovery knows while it clears a slot. -/
def ClearingSound (s : Shared) : RecoveryState → Prop
  | .scanning slot _ (.clearing slotStart slotEnd done) =>
    slot = slotStart ∧ slot + 1 = slotEnd ∧ 0 = done
  | .scanning slot _ (.filling slotStart slotEnd) => slot = slotStart ∧ slot + 1 = slotEnd ∧
    (s.disk inst.rangeMap.file).byte (headerSize + slot) = 0
  | _ => True

/-- Every ready slot is present or still has to be looked at, and the bitmap file has no slot that
is not ready in memory. -/
structure Reconciling (present : ℕ → Prop) (s : Shared) (l : RecoveryState) : Prop where
  length_slots : s.slots.length = inst.rangeMap.slotCount
  file : ∀ k < inst.rangeMap.slotCount,
    (s.disk inst.rangeMap.file).byte (headerSize + k) ≠ 0 → s.slots.getD k 0 ≠ 0
  memory : (∀ err, l ≠ .failed err) → ∀ k, s.slots.getD k 0 ≠ 0 → k ∈ l.todo ∨ present k
  clearing : inst.ClearingSound s l

/-- Every ready slot is in the target or still has to be looked at, and the bitmap file has no slot
that is not ready in memory. -/
structure RecoverySound (blob : ℕ → UInt8) (s : Shared) (l : RecoveryState) : Prop where
  dataHolds : (s.disk inst.target).DataHolds blob inst.blobSize
  length_slots : s.slots.length = inst.rangeMap.slotCount
  file : ∀ k < inst.rangeMap.slotCount,
    (s.disk inst.rangeMap.file).byte (headerSize + k) ≠ 0 → s.slots.getD k 0 ≠ 0
  memory : (∀ err, l ≠ .failed err) → ∀ k, s.slots.getD k 0 ≠ 0 →
    k ∈ l.todo ∨ inst.SlotHolds blob s.disk k
  clearing : inst.ClearingSound s l

variable {inst} {blob : ℕ → UInt8}

theorem todo_nextSlot (todo : List ℕ) : (nextSlot todo).todo = todo := by
  cases todo <;> rfl

theorem clearingSound_nextSlot (s : Shared) (todo : List ℕ) :
    inst.ClearingSound s (nextSlot todo) := by
  cases todo <;> trivial

theorem mem_readySlots {slots : List UInt8} {k : ℕ} (h : slots.getD k 0 ≠ 0) :
    k ∈ readySlots slots := by
  rw [readySlots, List.mem_filter, List.mem_range]
  exact ⟨lt_length_of_getD_ne h, decide_eq_true h⟩

/-- What a step of recovery does to the shared state: nothing, one write of zeros to the slots of
the bitmap file, or the same in memory. -/
theorem recoveryStep_cases {s s' : Shared} {l l' : RecoveryState} {e : RecoveryEvent}
    (h : inst.recoveryStep s l e = some (s', l')) :
    s' = s ∨ (∃ slotStart done n, s' = inst.writeMarks s 0 slotStart done n) ∨
      ∃ slotStart slotEnd, s' = { s with slots := fillSlots s.slots slotStart slotEnd 0 } := by
  unfold recoveryStep at h
  split at h
  · split at h <;> exact Or.inl (Prod.mk.inj (Option.some.inj h)).1.symm
  · split at h
    · split_ifs at h <;> exact Or.inl (Prod.mk.inj (Option.some.inj h)).1.symm
    · split_ifs at h
      · exact Or.inl (Prod.mk.inj (Option.some.inj h)).1.symm
      · exact Or.inr (Or.inl ⟨_, _, _, (Prod.mk.inj (Option.some.inj h)).1.symm⟩)
      · exact Or.inr (Or.inl ⟨_, _, _, (Prod.mk.inj (Option.some.inj h)).1.symm⟩)
  · exact Or.inr (Or.inr ⟨_, _, (Prod.mk.inj (Option.some.inj h)).1.symm⟩)
  · exact absurd h (by simp)

theorem recoveryStep_target (hne : inst.target ≠ inst.rangeMap.file) {s s' : Shared}
    {l l' : RecoveryState} {e : RecoveryEvent} (h : inst.recoveryStep s l e = some (s', l')) :
    s'.disk inst.target = s.disk inst.target := by
  rcases recoveryStep_cases h with rfl | ⟨slotStart, done, n, rfl⟩ | ⟨slotStart, slotEnd, rfl⟩
  · rfl
  · rw [writeMarks_disk, Disk.write_of_ne _ _ _ hne]
  · rfl

theorem recoveryStep_slots {s s' : Shared} {l l' : RecoveryState} {e : RecoveryEvent}
    (h : inst.recoveryStep s l e = some (s', l')) {k : ℕ} (hk : s'.slots.getD k 0 ≠ 0) :
    s.slots.getD k 0 ≠ 0 := by
  rcases recoveryStep_cases h with rfl | ⟨slotStart, done, n, rfl⟩ | ⟨slotStart, slotEnd, rfl⟩
  · exact hk
  · exact hk
  · by_cases hin : slotStart ≤ k ∧ k < slotEnd
    · by_cases hlt : k < s.slots.length
      · exact absurd (getD_fillSlots_of_mem 0 hlt hin.1 hin.2) hk
      · refine absurd (lt_length_of_getD_ne hk) ?_
        rw [length_fillSlots]
        exact hlt
    · rwa [getD_fillSlots_of_notMem _ _ hin] at hk

theorem recovery_slots {s s' : Shared} {l l' : RecoveryState} {es : List RecoveryEvent}
    (h : inst.recovery.solo s l es = some (s', l')) {k : ℕ} (hk : s'.slots.getD k 0 ≠ 0) :
    s.slots.getD k 0 ≠ 0 := by
  refine TaskSystem.solo_rel (A := inst.recovery)
    (R := fun s s' : Shared => s'.slots.getD k 0 ≠ 0 → s.slots.getD k 0 ≠ 0) ?_ ?_ ?_ h hk
  · exact fun _ hk => hk
  · exact fun _ _ _ h₁ h₂ hk => h₁ (h₂ hk)
  · exact fun _ _ _ _ _ hstep => recoveryStep_slots hstep

/-- Recovery changes no file but the bitmap file. -/
theorem recovery_disk_of_ne {key : FileKey} (hkey : key ≠ inst.rangeMap.file) {s s' : Shared}
    {l l' : RecoveryState} {es : List RecoveryEvent}
    (h : inst.recovery.solo s l es = some (s', l')) : s'.disk key = s.disk key := by
  refine TaskSystem.solo_rel (A := inst.recovery)
    (R := fun s s' : Shared => s'.disk key = s.disk key) ?_ ?_ ?_ h
  · exact fun _ => rfl
  · exact fun _ _ _ h₁ h₂ => h₂.trans h₁
  · intro s l e s' l' hstep
    rcases recoveryStep_cases hstep with rfl | ⟨slotStart, done, n, rfl⟩ | ⟨slotStart, slotEnd, rfl⟩
    · rfl
    · rw [writeMarks_disk, Disk.write_of_ne _ _ _ hkey]
    · rfl

variable {present : ℕ → Prop}

/-- The start of a recovery. -/
theorem Reconciling.start {s : Shared} (hlength : s.slots.length = inst.rangeMap.slotCount)
    (hfile : ∀ k < inst.rangeMap.slotCount,
      (s.disk inst.rangeMap.file).byte (headerSize + k) ≠ 0 → s.slots.getD k 0 ≠ 0) :
    inst.Reconciling present s (startRecovery s.slots) := by
  refine ⟨hlength, hfile, fun _ k hk => Or.inl ?_, clearingSound_nextSlot _ _⟩
  rw [startRecovery, todo_nextSlot]
  exact mem_readySlots hk

theorem Reconciling.recovered {s : Shared} (h : inst.Reconciling present s .recovered) {k : ℕ}
    (hk : s.slots.getD k 0 ≠ 0) : present k := by
  rcases h.memory (by simp) k hk with hnil | hpresent
  · exact absurd hnil List.not_mem_nil
  · exact hpresent

theorem Reconciling.mono {present' : ℕ → Prop} {s : Shared} {l : RecoveryState}
    (h : inst.Reconciling present s l) (hle : ∀ k, present k → present' k) :
    inst.Reconciling present' s l :=
  ⟨h.length_slots, h.file, fun hok k hk => (h.memory hok k hk).imp_right (hle k), h.clearing⟩

/-- The answer to a probe keeps the invariant. -/
theorem reconciling_probed {s : Shared} {slot : ℕ} {todo : List ℕ} {offset len : ℕ}
    {dataFault holeFault : Option IoError}
    (h : inst.Reconciling present s (.scanning slot todo .probing))
    (hrange : inst.rangeMap.slotRange slot = .ok (offset, len))
    (hprobe : rangeIsPresent (s.disk inst.target) offset len dataFault holeFault = .ok true →
      present slot) :
    inst.Reconciling present s (inst.probed slot todo offset len
      (rangeIsPresent (s.disk inst.target) offset len dataFault holeFault)) := by
  have hmem := h.memory (by simp)
  cases hpresent : rangeIsPresent (s.disk inst.target) offset len dataFault holeFault with
  | error err => exact ⟨h.length_slots, h.file, fun hne => absurd rfl (hne err), trivial⟩
  | ok found =>
    cases found with
    | true =>
      refine ⟨h.length_slots, h.file, fun _ k hk => ?_, clearingSound_nextSlot _ _⟩
      change k ∈ (nextSlot todo).todo ∨ _
      rw [todo_nextSlot]
      rcases hmem k hk with htodo | hheld
      · rcases List.mem_cons.mp htodo with rfl | hrest
        · exact Or.inr (hprobe hpresent)
        · exact Or.inl hrest
      · exact Or.inr hheld
    | false =>
      rw [probed, RangeMap.slotsForRange_slotRange hrange]
      dsimp only
      rw [if_neg (Nat.ne_of_lt (Nat.lt_succ_self slot))]
      exact ⟨h.length_slots, h.file, fun _ => hmem, rfl, rfl, rfl⟩

/-- A step of recovery keeps the invariant, if a range that the probe finds is present. -/
theorem reconciling_step {s s' : Shared} {l l' : RecoveryState} {e : RecoveryEvent}
    (hprobe : ∀ slot offset len dataFault holeFault,
      inst.rangeMap.slotRange slot = .ok (offset, len) →
      rangeIsPresent (s.disk inst.target) offset len dataFault holeFault = .ok true → present slot)
    (h : inst.Reconciling present s l) (hstep : inst.recoveryStep s l e = some (s', l')) :
    inst.Reconciling present s' l' := by
  have hfailed (err : Error) : inst.Reconciling present s (.failed err) :=
    ⟨h.length_slots, h.file, fun hne => absurd rfl (hne err), trivial⟩
  unfold recoveryStep at hstep
  split at hstep
  · -- a probe
    split at hstep
    · obtain ⟨rfl, rfl⟩ := Prod.mk.inj (Option.some.inj hstep)
      exact hfailed _
    · rename_i hrange
      obtain ⟨rfl, rfl⟩ := Prod.mk.inj (Option.some.inj hstep)
      exact reconciling_probed h hrange (hprobe _ _ _ _ _ hrange)
  · -- a write to the bitmap file
    rename_i slot todo slotStart slotEnd done res
    split at hstep
    · split_ifs at hstep
      · obtain ⟨rfl, rfl⟩ := Prod.mk.inj (Option.some.inj hstep)
        exact h
      · obtain ⟨rfl, rfl⟩ := Prod.mk.inj (Option.some.inj hstep)
        exact hfailed _
    · rename_i n
      obtain ⟨rfl, rfl, rfl⟩ := h.clearing
      split_ifs at hstep with hle hzero hmore
      · obtain ⟨rfl, rfl⟩ := Prod.mk.inj (Option.some.inj hstep)
        exact hfailed _
      · omega
      · obtain rfl : n = 1 := by omega
        obtain ⟨rfl, rfl⟩ := Prod.mk.inj (Option.some.inj hstep)
        have hcleared : ((inst.writeMarks s 0 slot 0 1).disk inst.rangeMap.file).byte
            (headerSize + slot) = 0 := by
          rw [writeMarks_disk, Disk.write_self]
          exact SparseFile.writeAt_byte_of_mem _ _ [0] (i := 0) Nat.one_pos
        refine ⟨h.length_slots, fun k hk hbyte => ?_, fun _ => h.memory (by simp), rfl, rfl,
          hcleared⟩
        by_cases hslot : k = slot
        · rw [hslot, hcleared] at hbyte
          exact absurd rfl hbyte
        · refine h.file k hk ?_
          rwa [writeMarks_disk, Disk.write_self, SparseFile.writeAt_byte_of_notMem] at hbyte
          rw [List.length_replicate]
          omega
  · -- the update in memory
    rename_i slot todo slotStart slotEnd
    obtain ⟨rfl, rfl⟩ := Prod.mk.inj (Option.some.inj hstep)
    obtain ⟨rfl, rfl, hcleared⟩ := h.clearing
    have hother {k : ℕ} (hk : k ≠ slot) :
        (fillSlots s.slots slot (slot + 1) 0).getD k 0 = s.slots.getD k 0 :=
      getD_fillSlots_of_notMem _ _ (by omega)
    refine ⟨(length_fillSlots ..).trans h.length_slots, fun k hk hbyte => ?_,
      fun _ k hk => ?_, clearingSound_nextSlot _ _⟩
    · have hslot : k ≠ slot := by
        rintro rfl
        exact hbyte hcleared
      change (fillSlots s.slots slot (slot + 1) 0).getD k 0 ≠ 0
      rw [hother hslot]
      exact h.file k hk hbyte
    · change (fillSlots s.slots slot (slot + 1) 0).getD k 0 ≠ 0 at hk
      rw [todo_nextSlot]
      by_cases hslot : k = slot
      · have hlt := lt_length_of_getD_ne hk
        rw [length_fillSlots] at hlt
        rw [getD_fillSlots_of_mem 0 hlt hslot.ge (by omega)] at hk
        exact absurd rfl hk
      · rw [hother hslot] at hk
        rcases h.memory (by simp) k hk with htodo | hheld
        · rcases List.mem_cons.mp htodo with rfl | hrest
          · exact absurd rfl hslot
          · exact Or.inl hrest
        · exact Or.inr hheld
  · exact absurd hstep (by simp)

/-! ### Soundness -/

theorem RecoverySound.reconciling {s : Shared} {l : RecoveryState}
    (h : inst.RecoverySound blob s l) : inst.Reconciling (inst.SlotHolds blob s.disk) s l :=
  ⟨h.length_slots, h.file, h.memory, h.clearing⟩

theorem Reconciling.recoverySound {s : Shared} {l : RecoveryState}
    (h : inst.Reconciling (inst.SlotHolds blob s.disk) s l)
    (hdata : (s.disk inst.target).DataHolds blob inst.blobSize) : inst.RecoverySound blob s l :=
  ⟨hdata, h.length_slots, h.file, h.memory, h.clearing⟩

/-- The start of a recovery. -/
theorem RecoverySound.start {s : Shared}
    (hdata : (s.disk inst.target).DataHolds blob inst.blobSize)
    (hlength : s.slots.length = inst.rangeMap.slotCount)
    (hfile : ∀ k < inst.rangeMap.slotCount,
      (s.disk inst.rangeMap.file).byte (headerSize + k) ≠ 0 → s.slots.getD k 0 ≠ 0) :
    inst.RecoverySound blob s (startRecovery s.slots) :=
  (Reconciling.start hlength hfile).recoverySound hdata

/-- What has been recovered is sound. -/
theorem RecoverySound.slotsSound {s : Shared} (h : inst.RecoverySound blob s .recovered) :
    inst.SlotsSound blob s := by
  have hmem (k : ℕ) (hk : s.slots.getD k 0 ≠ 0) : inst.SlotHolds blob s.disk k :=
    h.reconciling.recovered hk
  refine ⟨h.length_slots, hmem, fun k hk => ?_⟩
  rcases lt_or_ge k inst.rangeMap.slotCount with hlt | hge
  · exact hmem k (h.file k hlt hk)
  · exact slotHolds_of_le hge

/-- A slot whose range is present is in the target. -/
theorem slotHolds_of_present {d : Disk} {slot offset len : ℕ} {dataFault holeFault : Option IoError}
    (hdata : (d inst.target).DataHolds blob inst.blobSize)
    (hrange : inst.rangeMap.slotRange slot = .ok (offset, len))
    (h : rangeIsPresent (d inst.target) offset len dataFault holeFault = .ok true) :
    inst.SlotHolds blob d slot := by
  obtain ⟨-, -, hend⟩ := slotRange_bounds hrange
  intro offset' len' hrange'
  obtain ⟨rfl, rfl⟩ := Prod.mk.inj (Except.ok.inj (hrange.symm.trans hrange'))
  exact hdata.holds (hend.trans_le (min_le_right _ _))
    fun p h₁ h₂ => (rangeIsPresent_ok_true h p h₁ h₂).2

/-- **A step of recovery keeps the invariant.** -/
theorem recoverySound_step (hne : inst.target ≠ inst.rangeMap.file) {s s' : Shared}
    {l l' : RecoveryState} {e : RecoveryEvent} (h : inst.RecoverySound blob s l)
    (hstep : inst.recoveryStep s l e = some (s', l')) : inst.RecoverySound blob s' l' := by
  have htarget := recoveryStep_target hne hstep
  have hkeep : inst.KeepsTarget blob s.disk s'.disk := by
    intro lo hi hholds
    rwa [htarget]
  refine ((reconciling_step ?_ h.reconciling hstep).mono fun k hk => hk.mono hkeep).recoverySound ?_
  · exact fun _ _ _ _ _ => slotHolds_of_present h.dataHolds
  · rw [htarget]
    exact h.dataHolds

end Instance

end Lazyd
