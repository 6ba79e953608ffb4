import Lazyd.Instance.Recovery

/-!
# Recovery clears exactly the slots whose data is not there

As long as the probes meet no error, the answer for a slot is exact: its range is present when it
ends within the file and has no hole. So a recovery that succeeds clears the ready slots that are
not present, each with a write of its own byte, and leaves every other slot byte alone. A second
recovery finds nothing to clear.

## Main definitions

* `Instance.SlotPresent`, `Instance.Gone` : the slots that are there, and those that are cleared.
* `ClearedAt` : some bytes have been cleared, and no other has changed.
* `Instance.RecoveryExact` : the invariant.

## Main results

* `rangeIsPresent_unfaulted`, `Instance.slotPresent_iff` : the probes are exact.
* `Instance.recoveryExact_step` : a step keeps the invariant.
* `Instance.recovery_exact` : what a recovery does, and that it ends.

Source: `src/range_map.rs`, lines 116–178 and 193–221.
-/

namespace Lazyd

/-! ### The probes -/

theorem probeFailed_of_lseek {probe : ℕ → Option ℕ} {offset : ℕ} {err : IoError}
    (h : lseek probe offset none = .error err) : probeFailed err = .ok false := by
  unfold lseek at h
  dsimp only at h
  split_ifs at h
  · obtain rfl := Except.error.inj h
    rfl
  · split at h
    · obtain rfl := Except.error.inj h
      rfl
    · exact absurd h (by simp)

/-- Probes that meet no error have an answer. -/
theorem rangeIsPresent_unfaulted (f : File) {offset len : ℕ} (h : offset + len < U64.size) :
    ∃ found, rangeIsPresent f offset len none none = .ok found := by
  rw [rangeIsPresent]
  split_ifs with hzero
  · exact ⟨true, rfl⟩
  · rw [U64.checkedAdd_of_lt h]
    dsimp only
    split
    · rename_i hdata
      exact ⟨false, probeFailed_of_lseek hdata⟩
    · split_ifs
      · exact ⟨false, rfl⟩
      · split
        · rename_i hhole
          exact ⟨false, probeFailed_of_lseek hhole⟩
        · exact ⟨_, rfl⟩

/-- Some bytes have been cleared, and no other has changed. -/
def ClearedAt (P : ℕ → Prop) (g₀ g : ℕ → UInt8) : Prop :=
  ∀ k, (P k → g k = 0) ∧ (¬ P k → g k = g₀ k)

namespace ClearedAt

variable {P Q : ℕ → Prop} {g₀ g g' : ℕ → UInt8}

theorem refl (h : ∀ k, ¬ P k) : ClearedAt P g g :=
  fun k => ⟨fun hk => absurd hk (h k), fun _ => rfl⟩

theorem congr (h : ClearedAt P g₀ g) (hiff : ∀ k, Q k ↔ P k) : ClearedAt Q g₀ g :=
  fun k => ⟨fun hk => (h k).1 ((hiff k).mp hk), fun hk => (h k).2 fun hk' => hk ((hiff k).mpr hk')⟩

theorem clear (h : ClearedAt P g₀ g) {i : ℕ} (hi : g' i = 0)
    (hother : ∀ k, k ≠ i → g' k = g k) (hiff : ∀ k, Q k ↔ P k ∨ k = i) :
    ClearedAt Q g₀ g' := by
  intro k
  by_cases hk : k = i
  · subst hk
    exact ⟨fun _ => hi, fun hno => absurd ((hiff k).mpr (Or.inr rfl)) hno⟩
  · rw [hother k hk, hiff k, or_iff_left hk]
    exact h k

end ClearedAt

namespace Instance

variable (inst : Instance)

/-- All of the range of a slot is data inside the file. -/
def SlotPresent (f : File) (k : ℕ) : Prop :=
  ∃ offset len, inst.rangeMap.slotRange k = .ok (offset, len) ∧ offset + len ≤ f.len ∧
    f.Allocated offset (offset + len)

/-- The slot is ready and its data is not there. -/
def Gone (f : File) (slots : List UInt8) (k : ℕ) : Prop :=
  slots.getD k 0 ≠ 0 ∧ ¬ inst.SlotPresent f k

/-- The probes meet no error of the file system. -/
def Unfaulted : RecoveryEvent → Prop
  | .probe dataFault holeFault => dataFault = none ∧ holeFault = none
  | _ => True

/-- The slots whose bytes in the bitmap file recovery has still to look at. -/
def RecoveryState.fileTodo : RecoveryState → List ℕ
  | .scanning _ todo (.filling _ _) => todo
  | l => l.todo

/-- What recovery knows of the slot that it clears. -/
def ClearingExact (gone : ℕ → Prop) : RecoveryState → Prop
  | .scanning slot _ (.clearing slotStart slotEnd done) =>
    slot = slotStart ∧ slot + 1 = slotEnd ∧ 0 = done ∧ gone slot
  | .scanning slot _ (.filling slotStart slotEnd) =>
    slot = slotStart ∧ slot + 1 = slotEnd ∧ gone slot
  | _ => True

/-- The slots that recovery has looked at are cleared where their data is not there, and nothing
else has changed. -/
structure RecoveryExact (s₀ s : Shared) (l : RecoveryState) : Prop where
  target : s.disk inst.target = s₀.disk inst.target
  length_slots : s.slots.length = s₀.slots.length
  todo_nodup : l.todo.Nodup
  todo_ready : ∀ k ∈ l.todo, s₀.slots.getD k 0 ≠ 0
  memory : ClearedAt (fun k => inst.Gone (s₀.disk inst.target) s₀.slots k ∧ k ∉ l.todo)
    (fun k => s₀.slots.getD k 0) fun k => s.slots.getD k 0
  file : ClearedAt (fun k => inst.Gone (s₀.disk inst.target) s₀.slots k ∧ k ∉ l.fileTodo)
    (fun k => (s₀.disk inst.rangeMap.file).byte (headerSize + k))
    fun k => (s.disk inst.rangeMap.file).byte (headerSize + k)
  clearing : ClearingExact (inst.Gone (s₀.disk inst.target) s₀.slots) l

variable {inst}

theorem slotRange_len_pos {slot offset len : ℕ}
    (hrange : inst.rangeMap.slotRange slot = .ok (offset, len)) : 0 < len := by
  obtain ⟨hslot, hoffset, hend⟩ := slotRange_bounds hrange
  have hlt := RangeMap.slot_mul_lt hslot
  have hunit := inst.unitBytes_pos
  rw [rangeMap_unitBytes, rangeMap_blobSize] at hlt
  omega

/-- **The probes are exact.** -/
theorem slotPresent_iff {f : File} (hlen : f.len < 2 ^ 63) {slot offset len : ℕ}
    (hrange : inst.rangeMap.slotRange slot = .ok (offset, len)) : ∃ found,
    rangeIsPresent f offset len none none = .ok found ∧
    (found = true ↔ inst.SlotPresent f slot) := by
  have hpos := slotRange_len_pos hrange
  have hend := (slotRange_bounds hrange).2.2
  have hsize := inst.blobSize_lt
  obtain ⟨found, hfound⟩ := rangeIsPresent_unfaulted f (show offset + len < U64.size by omega)
  refine ⟨found, hfound, fun hyes => ?_, ?_⟩
  · subst hyes
    have hdata := rangeIsPresent_ok_true hfound
    have hlast := (hdata (offset + len - 1) (by omega) (by omega)).1
    exact ⟨offset, len, hrange, by omega, fun p h₁ h₂ => (hdata p h₁ h₂).2⟩
  · rintro ⟨offset', len', hrange', hle, hdata⟩
    obtain ⟨rfl, rfl⟩ := Prod.mk.inj (Except.ok.inj (hrange.symm.trans hrange'))
    rw [rangeIsPresent_of_allocated hle hlen hdata] at hfound
    exact (Except.ok.inj hfound).symm

theorem fileTodo_nextSlot (todo : List ℕ) : (nextSlot todo).fileTodo = todo := by
  cases todo <;> rfl

theorem clearingExact_nextSlot (gone : ℕ → Prop) (todo : List ℕ) :
    ClearingExact gone (nextSlot todo) := by
  cases todo <;> trivial

theorem mem_readySlots_iff {slots : List UInt8} {k : ℕ} :
    k ∈ readySlots slots ↔ slots.getD k 0 ≠ 0 := by
  refine ⟨fun h => ?_, mem_readySlots⟩
  rw [readySlots, List.mem_filter] at h
  exact of_decide_eq_true h.2

theorem nextSlot_ne_failed (todo : List ℕ) (err : Error) : nextSlot todo ≠ .failed err := by
  cases todo <;> simp [nextSlot]

theorem RecoveryExact.start (s : Shared) : inst.RecoveryExact s s (startRecovery s.slots) := by
  have hmem {k : ℕ} : ¬ (inst.Gone (s.disk inst.target) s.slots k ∧ k ∉ readySlots s.slots) :=
    fun h => h.2 (mem_readySlots h.1.1)
  refine ⟨rfl, rfl, ?_, ?_, ?_, ?_, clearingExact_nextSlot _ _⟩
  · rw [startRecovery, todo_nextSlot]
    exact List.nodup_range.filter _
  · rw [startRecovery, todo_nextSlot]
    exact fun k hk => mem_readySlots_iff.mp hk
  · rw [startRecovery, todo_nextSlot]
    exact ClearedAt.refl fun k => hmem
  · rw [startRecovery, fileTodo_nextSlot]
    exact ClearedAt.refl fun k => hmem

/-- The answer to a probe without errors keeps the invariant. -/
theorem recoveryExact_probed {s₀ s : Shared} (hlen : (s₀.disk inst.target).len < 2 ^ 63) {slot : ℕ}
    {todo : List ℕ} {offset len : ℕ} (h : inst.RecoveryExact s₀ s (.scanning slot todo .probing))
    (hrange : inst.rangeMap.slotRange slot = .ok (offset, len)) :
    inst.RecoveryExact s₀ s (inst.probed slot todo offset len
      (rangeIsPresent (s.disk inst.target) offset len none none)) := by
  obtain ⟨found, hfound, hiff⟩ := slotPresent_iff hlen hrange
  rw [h.target, hfound]
  cases found with
  | true =>
    have hpresent : inst.SlotPresent (s₀.disk inst.target) slot := hiff.mp rfl
    have hgone (k : ℕ) : inst.Gone (s₀.disk inst.target) s₀.slots k ∧ k ∉ todo ↔
        inst.Gone (s₀.disk inst.target) s₀.slots k ∧ k ∉ slot :: todo := by
      refine and_congr_right fun hk => ?_
      have hne : k ≠ slot := by
        rintro rfl
        exact hk.2 hpresent
      rw [List.mem_cons, not_or]
      exact (and_iff_right hne).symm
    refine ⟨h.target, h.length_slots, ?_, ?_, ?_, ?_, clearingExact_nextSlot _ _⟩
    · rw [probed, todo_nextSlot]
      exact (List.nodup_cons.mp h.todo_nodup).2
    · rw [probed, todo_nextSlot]
      exact fun k hk => h.todo_ready k (List.mem_cons_of_mem _ hk)
    · rw [probed, todo_nextSlot]
      exact h.memory.congr hgone
    · rw [probed, fileTodo_nextSlot]
      exact h.file.congr hgone
  | false =>
    have hgone : inst.Gone (s₀.disk inst.target) s₀.slots slot :=
      ⟨h.todo_ready slot List.mem_cons_self, fun hpresent => absurd (hiff.mpr hpresent) (by simp)⟩
    rw [probed, RangeMap.slotsForRange_slotRange hrange]
    dsimp only
    rw [if_neg (Nat.ne_of_lt (Nat.lt_succ_self slot))]
    exact ⟨h.target, h.length_slots, h.todo_nodup, h.todo_ready, h.memory, h.file, rfl, rfl, rfl,
      hgone⟩

/-- **A step of recovery keeps the invariant**, unless the recovery fails. -/
theorem recoveryExact_step (hne : inst.target ≠ inst.rangeMap.file) {s₀ s s' : Shared}
    {l l' : RecoveryState} {e : RecoveryEvent} (hlen : (s₀.disk inst.target).len < 2 ^ 63)
    (he : Unfaulted e) (h : inst.RecoveryExact s₀ s l)
    (hstep : inst.recoveryStep s l e = some (s', l')) (hok : ∀ err, l' ≠ .failed err) :
    inst.RecoveryExact s₀ s' l' := by
  have htarget := (recoveryStep_target hne hstep).trans h.target
  unfold recoveryStep at hstep
  split at hstep
  · -- a probe
    obtain ⟨rfl, rfl⟩ := he
    split at hstep
    · obtain ⟨rfl, rfl⟩ := Prod.mk.inj (Option.some.inj hstep)
      exact absurd rfl (hok _)
    · rename_i hrange
      obtain ⟨rfl, rfl⟩ := Prod.mk.inj (Option.some.inj hstep)
      exact recoveryExact_probed hlen h hrange
  · -- a write to the bitmap file
    rename_i slot todo slotStart slotEnd done res
    split at hstep
    · split_ifs at hstep
      · obtain ⟨rfl, rfl⟩ := Prod.mk.inj (Option.some.inj hstep)
        exact h
      · obtain ⟨rfl, rfl⟩ := Prod.mk.inj (Option.some.inj hstep)
        exact absurd rfl (hok _)
    · rename_i n
      obtain ⟨rfl, rfl, rfl, hgone⟩ := h.clearing
      split_ifs at hstep with hle hzero hmore
      · obtain ⟨rfl, rfl⟩ := Prod.mk.inj (Option.some.inj hstep)
        exact absurd rfl (hok _)
      · omega
      · obtain rfl : n = 1 := by omega
        obtain ⟨rfl, rfl⟩ := Prod.mk.inj (Option.some.inj hstep)
        have hnotin := (List.nodup_cons.mp h.todo_nodup).1
        refine ⟨htarget, h.length_slots, h.todo_nodup, h.todo_ready, h.memory, ?_, rfl, rfl, hgone⟩
        refine h.file.clear (i := slot) ?_ (fun k hk => ?_) fun k => ?_
        · rw [writeMarks_disk, Disk.write_self]
          exact SparseFile.writeAt_byte_of_mem _ _ [0] (i := 0) Nat.one_pos
        · rw [writeMarks_disk, Disk.write_self, SparseFile.writeAt_byte_of_notMem]
          rw [List.length_replicate]
          omega
        · by_cases hk : k = slot
          · subst hk
            exact iff_of_true ⟨hgone, hnotin⟩ (Or.inr rfl)
          · change inst.Gone _ _ k ∧ k ∉ todo ↔ (inst.Gone _ _ k ∧ k ∉ slot :: todo) ∨ k = slot
            rw [List.mem_cons, not_or, and_iff_right hk, or_iff_left hk]
  · -- the update in memory
    rename_i slot todo slotStart slotEnd
    obtain ⟨rfl, rfl⟩ := Prod.mk.inj (Option.some.inj hstep)
    obtain ⟨rfl, rfl, hgone⟩ := h.clearing
    obtain ⟨hnotin, hnodup⟩ := List.nodup_cons.mp h.todo_nodup
    refine ⟨htarget, (length_fillSlots ..).trans h.length_slots, ?_, ?_, ?_, ?_,
      clearingExact_nextSlot _ _⟩
    · rwa [todo_nextSlot]
    · rw [todo_nextSlot]
      exact fun k hk => h.todo_ready k (List.mem_cons_of_mem _ hk)
    · rw [todo_nextSlot]
      refine h.memory.clear (i := slot) ?_ (fun k hk => ?_) fun k => ?_
      · have hslot : slot < s.slots.length := by
          rw [h.length_slots]
          exact lt_length_of_getD_ne hgone.1
        exact getD_fillSlots_of_mem 0 hslot le_rfl (Nat.lt_succ_self slot)
      · exact getD_fillSlots_of_notMem s.slots 0 (by omega)
      · by_cases hk : k = slot
        · subst hk
          exact iff_of_true ⟨hgone, hnotin⟩ (Or.inr rfl)
        · change inst.Gone _ _ k ∧ k ∉ todo ↔ (inst.Gone _ _ k ∧ k ∉ slot :: todo) ∨ k = slot
          rw [List.mem_cons, not_or, and_iff_right hk, or_iff_left hk]
    · rw [fileTodo_nextSlot]
      exact h.file
  · exact absurd hstep (by simp)

/-- **A run of recovery keeps the invariant**, unless the recovery fails. -/
theorem recoveryExact_solo (hne : inst.target ≠ inst.rangeMap.file) {s₀ s s' : Shared}
    {l l' : RecoveryState} {es : List RecoveryEvent} (hlen : (s₀.disk inst.target).len < 2 ^ 63)
    (hes : ∀ e ∈ es, Unfaulted e) (h : inst.RecoveryExact s₀ s l)
    (hrun : inst.recovery.solo s l es = some (s', l')) (hok : ∀ err, l' ≠ .failed err) :
    inst.RecoveryExact s₀ s' l' := by
  induction es generalizing s l with
  | nil =>
    obtain ⟨rfl, rfl⟩ := Prod.mk.inj (Option.some.inj hrun)
    exact h
  | cons e es ih =>
    obtain ⟨s₁, l₁, hstep, hrest⟩ := TaskSystem.solo_cons_eq_some.mp hrun
    refine ih (fun e' he' => hes e' (List.mem_cons_of_mem e he'))
      (recoveryExact_step hne hlen (hes e List.mem_cons_self) h hstep ?_) hrest
    -- a recovery that has failed makes no further step
    rintro err rfl
    cases es with
    | nil => exact hok err (Prod.mk.inj (Option.some.inj hrest)).2.symm
    | cons e' es' =>
      obtain ⟨s₂, l₂, hstep', -⟩ := TaskSystem.solo_cons_eq_some.mp hrest
      exact absurd hstep' (by simp [recovery, recoveryStep])

/-! ### A recovery ends -/

/-- The probe of a slot that is present goes on to the next slot. -/
theorem recoveryStep_present {s : Shared} (hlen : (s.disk inst.target).len < 2 ^ 63) {slot : ℕ}
    (todo : List ℕ) (h : inst.SlotPresent (s.disk inst.target) slot) :
    inst.recoveryStep s (.scanning slot todo .probing) (.probe none none) =
      some (s, nextSlot todo) := by
  obtain ⟨offset, len, hrange, -⟩ := id h
  obtain ⟨found, hfound, hiff⟩ := slotPresent_iff hlen hrange
  obtain rfl := hiff.mpr h
  simp only [recoveryStep, hrange, hfound, probed]

/-- A slot that is not present is cleared in three steps. -/
theorem recovery_absent {s : Shared} (hlen : (s.disk inst.target).len < 2 ^ 63) {slot : ℕ}
    (todo : List ℕ) (hslot : slot < inst.rangeMap.slotCount)
    (h : ¬ inst.SlotPresent (s.disk inst.target) slot) :
    inst.recovery.solo s (.scanning slot todo .probing)
        [.probe none none, .marked (.ok 1), .fill] =
      some ({ inst.writeMarks s 0 slot 0 1 with slots := fillSlots s.slots slot (slot + 1) 0 },
        nextSlot todo) := by
  have hrange := RangeMap.slotRange_ok hslot
  obtain ⟨found, hfound, hiff⟩ := slotPresent_iff hlen hrange
  obtain rfl : found = false := Bool.eq_false_iff.mpr fun hyes => h (hiff.mp hyes)
  have hprobed : inst.recoveryStep s (.scanning slot todo .probing) (.probe none none) =
      some (s, .scanning slot todo (.clearing slot (slot + 1) 0)) := by
    simp only [recoveryStep, hrange, hfound, probed, RangeMap.slotsForRange_slotRange hrange,
      (Nat.lt_succ_self slot).ne, ↓reduceIte]
  refine TaskSystem.solo_cons_eq_some.mpr ⟨_, _, hprobed, ?_⟩
  have hone : slot + 1 - slot = 1 := Nat.add_sub_cancel_left slot 1
  have hmarked : inst.recoveryStep s (.scanning slot todo (.clearing slot (slot + 1) 0))
      (.marked (.ok 1)) =
        some (inst.writeMarks s 0 slot 0 1, .scanning slot todo (.filling slot (slot + 1))) := by
    simp only [recoveryStep, hone]
    rfl
  exact TaskSystem.solo_cons_eq_some.mpr ⟨_, _, hmarked, rfl⟩

/-- Recovery of slots that are all present changes nothing and does not fail. -/
theorem recovery_of_present {s s' : Shared} {l : RecoveryState} {es : List RecoveryEvent}
    {todo : List ℕ} (hlen : (s.disk inst.target).len < 2 ^ 63)
    (h : ∀ k ∈ todo, inst.SlotPresent (s.disk inst.target) k) (hes : ∀ e ∈ es, Unfaulted e)
    (hrun : inst.recovery.solo s (nextSlot todo) es = some (s', l)) :
    s' = s ∧ ∀ err, l ≠ .failed err := by
  induction es generalizing todo with
  | nil =>
    obtain ⟨rfl, rfl⟩ := Prod.mk.inj (Option.some.inj hrun)
    exact ⟨rfl, nextSlot_ne_failed todo⟩
  | cons e es ih =>
    obtain ⟨s₁, l₁, hstep, hrest⟩ := TaskSystem.solo_cons_eq_some.mp hrun
    cases todo with
    | nil => exact absurd hstep (by simp [nextSlot, recovery, recoveryStep])
    | cons slot todo =>
      have he := hes e List.mem_cons_self
      cases e with
      | probe dataFault holeFault =>
        obtain ⟨rfl, rfl⟩ := he
        have hpresent := recoveryStep_present hlen todo (h slot List.mem_cons_self)
        obtain ⟨rfl, rfl⟩ := Prod.mk.inj (Option.some.inj (hpresent.symm.trans hstep))
        exact ih (fun k hk => h k (List.mem_cons_of_mem _ hk))
          (fun e' he' => hes e' (List.mem_cons_of_mem _ he')) hrest
      | marked res => exact absurd hstep (by simp [nextSlot, recovery, recoveryStep])
      | fill => exact absurd hstep (by simp [nextSlot, recovery, recoveryStep])

/-- Slots that are all present are looked at one by one. -/
theorem recovery_present_ends {s : Shared} {todo : List ℕ}
    (hlen : (s.disk inst.target).len < 2 ^ 63)
    (h : ∀ k ∈ todo, inst.SlotPresent (s.disk inst.target) k) :
    inst.recovery.solo s (nextSlot todo) (todo.map fun _ => .probe none none) =
      some (s, .recovered) := by
  induction todo with
  | nil => rfl
  | cons slot todo ih =>
    have hpresent := recoveryStep_present hlen todo (h slot List.mem_cons_self)
    exact TaskSystem.solo_cons_eq_some.mpr
      ⟨s, nextSlot todo, hpresent, ih fun k hk => h k (List.mem_cons_of_mem _ hk)⟩

/-- When the file system does not fail, recovery ends. -/
theorem recovery_ends (hne : inst.target ≠ inst.rangeMap.file) (s : Shared) (todo : List ℕ)
    (hlen : (s.disk inst.target).len < 2 ^ 63) (htodo : ∀ k ∈ todo, k < inst.rangeMap.slotCount) :
    ∃ es s', (∀ e ∈ es, Unfaulted e) ∧
      inst.recovery.solo s (nextSlot todo) es = some (s', .recovered) := by
  induction todo generalizing s with
  | nil => exact ⟨[], s, by simp, rfl⟩
  | cons slot todo ih =>
    have hrest : ∀ k ∈ todo, k < inst.rangeMap.slotCount :=
      fun k hk => htodo k (List.mem_cons_of_mem _ hk)
    by_cases hpresent : inst.SlotPresent (s.disk inst.target) slot
    · obtain ⟨es, s', hes, hrun⟩ := ih s hlen hrest
      refine ⟨.probe none none :: es, s', ?_,
        TaskSystem.solo_cons_eq_some.mpr ⟨_, _, recoveryStep_present hlen todo hpresent, hrun⟩⟩
      rintro e (_ | ⟨_, he⟩)
      · exact ⟨rfl, rfl⟩
      · exact hes e he
    · have hclear := recovery_absent hlen todo (htodo slot List.mem_cons_self) hpresent
      have htarget := recovery_disk_of_ne hne hclear
      obtain ⟨es, s', hes, hrun⟩ := ih _ (by rwa [htarget]) hrest
      refine ⟨[.probe none none, .marked (.ok 1), .fill] ++ es, s', ?_, ?_⟩
      · intro e he
        rcases List.mem_append.mp he with he | he
        · simp only [List.mem_cons, List.not_mem_nil, or_false] at he
          rcases he with rfl | rfl | rfl
          · exact ⟨rfl, rfl⟩
          · trivial
          · trivial
        · exact hes e he
      · change inst.recovery.solo s (.scanning slot todo .probing) _ = _
        rw [TaskSystem.solo_append, hclear]
        exact hrun

/-- **Recovery is exact.** Let the target be a file of its own, and let the bitmap file have the
slots that are in memory. Probes without errors report the layout of the target, and its length is
an `off_t`. Then recovery can end; and whenever it does, a slot is ready, in memory and in the
bitmap file, exactly when it was ready before and its range ends within the target and has no hole.
Every other slot byte is as before. A second recovery changes nothing, and it can end too. -/
theorem recovery_exact (hne : inst.target ≠ inst.rangeMap.file) {s : Shared}
    (hlen : (s.disk inst.target).len < 2 ^ 63)
    (hslots : s.slots.length = inst.rangeMap.slotCount)
    (hfile : ∀ k < inst.rangeMap.slotCount,
      (s.disk inst.rangeMap.file).byte (headerSize + k) = s.slots.getD k 0) :
    (∃ es s', (∀ e ∈ es, Unfaulted e) ∧
      inst.recovery.solo s (startRecovery s.slots) es = some (s', .recovered)) ∧
    ∀ es s', (∀ e ∈ es, Unfaulted e) →
      inst.recovery.solo s (startRecovery s.slots) es = some (s', .recovered) →
      (∀ k < inst.rangeMap.slotCount,
        (s'.slots.getD k 0 ≠ 0 ↔
          s.slots.getD k 0 ≠ 0 ∧ inst.SlotPresent (s.disk inst.target) k) ∧
        ((s'.disk inst.rangeMap.file).byte (headerSize + k) ≠ 0 ↔
          s.slots.getD k 0 ≠ 0 ∧ inst.SlotPresent (s.disk inst.target) k)) ∧
      (∀ k, ¬ inst.Gone (s.disk inst.target) s.slots k →
        s'.slots.getD k 0 = s.slots.getD k 0 ∧
        (s'.disk inst.rangeMap.file).byte (headerSize + k) =
          (s.disk inst.rangeMap.file).byte (headerSize + k)) ∧
      (∀ es' s'' l, (∀ e ∈ es', Unfaulted e) →
        inst.recovery.solo s' (startRecovery s'.slots) es' = some (s'', l) → s'' = s') ∧
      ∃ es', (∀ e ∈ es', Unfaulted e) ∧
        inst.recovery.solo s' (startRecovery s'.slots) es' = some (s', .recovered) := by
  have hends (s : Shared) (hlen : (s.disk inst.target).len < 2 ^ 63)
      (hslots : s.slots.length = inst.rangeMap.slotCount) : ∃ es s', (∀ e ∈ es, Unfaulted e) ∧
        inst.recovery.solo s (startRecovery s.slots) es = some (s', .recovered) :=
    recovery_ends hne s _ hlen fun k hk =>
      hslots ▸ lt_length_of_getD_ne (mem_readySlots_iff.mp hk)
  refine ⟨hends s hlen hslots, fun es s' hes hrun => ?_⟩
  have hexact := recoveryExact_solo hne hlen hes (RecoveryExact.start s) hrun (by simp)
  have hmemory := hexact.memory
  have hbitmap := hexact.file
  simp only [RecoveryState.todo, RecoveryState.fileTodo, List.not_mem_nil, not_false_eq_true,
    and_true] at hmemory hbitmap
  -- a byte is left nonzero exactly when it was and its slot is there
  have hready {v₀ v : UInt8} {k : ℕ} (hv₀ : v₀ = s.slots.getD k 0)
      (hgone : inst.Gone (s.disk inst.target) s.slots k → v = 0)
      (hkept : ¬ inst.Gone (s.disk inst.target) s.slots k → v = v₀) :
      v ≠ 0 ↔ s.slots.getD k 0 ≠ 0 ∧ inst.SlotPresent (s.disk inst.target) k := by
    by_cases hk : inst.Gone (s.disk inst.target) s.slots k
    · exact iff_of_false (fun h => h (hgone hk)) fun h => hk.2 h.2
    · rw [hkept hk, hv₀]
      refine ⟨fun h => ⟨h, ?_⟩, And.left⟩
      by_contra habsent
      exact hk ⟨h, habsent⟩
  have hpresent : ∀ k ∈ readySlots s'.slots, inst.SlotPresent (s'.disk inst.target) k := by
    intro k hk
    rw [hexact.target]
    exact ((hready rfl (hmemory k).1 (hmemory k).2).mp (mem_readySlots_iff.mp hk)).2
  have hlen' : (s'.disk inst.target).len < 2 ^ 63 := by rwa [hexact.target]
  refine ⟨fun k hk => ⟨hready rfl (hmemory k).1 (hmemory k).2,
    hready (hfile k hk) (hbitmap k).1 (hbitmap k).2⟩,
    fun k hk => ⟨(hmemory k).2 hk, (hbitmap k).2 hk⟩, ?_, ?_⟩
  · exact fun es' s'' l hes' hrun' => (recovery_of_present hlen' hpresent hes' hrun').1
  · obtain ⟨es', s'', hes', hrun'⟩ := hends s' hlen' (hexact.length_slots.trans hslots)
    obtain ⟨rfl, -⟩ := recovery_of_present hlen' hpresent hes' hrun'
    exact ⟨es', hes', hrun'⟩

/-- The one slot of `smallInstance` is ready, and its target is a hole: the slot is cleared. -/
theorem recovery_exact_smallInstance : ∃ s : Shared, s.slots = [1] ∧ ∃ es s',
    smallInstance.recovery.solo s (startRecovery s.slots) es = some (s', .recovered) ∧
    s'.slots.getD 0 0 = 0 ∧
    ∃ es', smallInstance.recovery.solo s' (startRecovery s'.slots) es' = some (s', .recovered) := by
  have hne : smallInstance.target ≠ smallInstance.rangeMap.file := by decide
  let disk : Disk := smallStart.shared.disk.write smallInstance.rangeMap.file headerSize [1]
  let s : Shared := ⟨disk, [1], []⟩
  have htarget : disk smallInstance.target = smallStart.shared.disk smallInstance.target :=
    Disk.write_of_ne _ _ _ hne
  have hlen : (s.disk smallInstance.target).len < 2 ^ 63 := by
    change (disk smallInstance.target).len < 2 ^ 63
    rw [htarget]
    decide
  have hfile : ∀ k < smallInstance.rangeMap.slotCount,
      (s.disk smallInstance.rangeMap.file).byte (headerSize + k) = s.slots.getD k 0 := by
    intro k hk
    obtain rfl := Nat.lt_one_iff.mp hk
    have hwrite : disk smallInstance.rangeMap.file =
        (smallStart.shared.disk smallInstance.rangeMap.file).writeAt headerSize [1] :=
      Disk.write_self _ _ _ _
    change (disk smallInstance.rangeMap.file).byte (headerSize + 0) = 1
    rw [hwrite]
    exact SparseFile.writeAt_byte_of_mem _ _ [1] (i := 0) Nat.one_pos
  obtain ⟨⟨es, s', hes, hrun⟩, hexact⟩ := recovery_exact hne hlen rfl hfile
  obtain ⟨hready, -, -, es', -, hrun'⟩ := hexact es s' hes hrun
  refine ⟨s, rfl, es, s', hrun, ?_, es', hrun'⟩
  by_contra hzero
  obtain ⟨-, offset, len, hrange, -, hdata⟩ := ((hready 0 Nat.one_pos).1).mp hzero
  obtain ⟨rfl, rfl⟩ := Prod.mk.inj (Except.ok.inj hrange)
  have hhole := hdata 0 le_rfl (by decide)
  change (disk smallInstance.target).isData 0 = true at hhole
  rw [htarget] at hhole
  exact absurd hhole (by decide)

end Instance

end Lazyd
