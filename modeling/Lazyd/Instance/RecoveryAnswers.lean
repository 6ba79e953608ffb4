import Lazyd.Instance.Reconcile

/-!
# What the answers say about a recovery

A recovery asks the file system one thing after the other and stops at the first error. So once it
is over, its answers tell how it went: it failed exactly when its last answer is an error, and it
changed the bitmap file exactly when one of its writes got a byte into it.

## Main definitions

* `Instance.RecoveryEvent.Writes`, `Instance.RecoveryEvent.Fails` : the two kinds of answers.
* `Instance.Underway` : what a recovery has still to look at.

## Main results

* `Instance.underway_step` : one step, by its answer.
* `Instance.Underway.disk_eq`, `Instance.Underway.cleared` : the bitmap file.
* `Instance.Underway.recovered_iff` : the end.

Source: `src/range_map.rs`, lines 116–178 and 193–221.
-/

namespace Lazyd

namespace Instance

/-- An answer that says that a byte is in the bitmap file. -/
def RecoveryEvent.Writes : RecoveryEvent → Prop
  | .marked (.ok n) => n ≠ 0
  | _ => False

/-- An answer with which a recovery can only end badly. -/
def RecoveryEvent.Fails : RecoveryEvent → Prop
  | .probe dataFault holeFault => dataFault ≠ none ∨ holeFault ≠ none
  | .marked _ => True
  | .fill => False

/-- The write under way is that of the slot which recovery looks at. -/
def ClearingSlot : RecoveryState → Prop
  | .scanning slot _ (.clearing slotStart slotEnd done) =>
    slotStart = slot ∧ slotEnd = slot + 1 ∧ done = 0
  | _ => True

variable (inst : Instance)

/-- The slots that recovery has still to look at are slots of the blob, each of them once, and their
bytes in the bitmap file are set. -/
structure Underway (s : Shared) (l : RecoveryState) : Prop where
  todo_lt : ∀ k ∈ l.todo, k < inst.rangeMap.slotCount
  todo_nodup : l.todo.Nodup
  ready : ∀ k ∈ l.fileTodo, (s.disk inst.rangeMap.file).byte (headerSize + k) ≠ 0
  clearing : ClearingSlot l

/-- What a step of recovery does, by its answer. -/
structure StepAnswer (s : Shared) (e : RecoveryEvent) (s' : Shared) (l' : RecoveryState) :
    Prop where
  underway : inst.Underway s' l'
  disk_eq : ¬ e.Writes → s'.disk = s.disk
  cleared : e.Writes → ∃ k, (s.disk inst.rangeMap.file).byte (headerSize + k) ≠ 0 ∧
    (s'.disk inst.rangeMap.file).byte (headerSize + k) = 0
  failed : ∀ err, l' = .failed err → e.Fails
  recovered : l' = .recovered → ¬ e.Fails

variable {inst} {s s' : Shared} {l l' : RecoveryState} {e : RecoveryEvent} {es : List RecoveryEvent}

/-! ### One step -/

theorem Underway.failed (s : Shared) (err : Error) : inst.Underway s (.failed err) :=
  ⟨fun _ hk => absurd hk List.not_mem_nil, List.nodup_nil, fun _ hk => absurd hk List.not_mem_nil,
    trivial⟩

/-- The slots left once one has been looked at. -/
theorem Underway.next {slot : ℕ} {todo : List ℕ} {pc : RecoveryPc}
    (h : inst.Underway s (.scanning slot todo pc))
    (hready : ∀ k ∈ todo, (s'.disk inst.rangeMap.file).byte (headerSize + k) ≠ 0) :
    inst.Underway s' (nextSlot todo) := by
  refine ⟨?_, ?_, ?_, by cases todo <;> trivial⟩
  · rw [todo_nextSlot]
    exact fun k hk => h.todo_lt k (List.mem_cons_of_mem _ hk)
  · rw [todo_nextSlot]
    exact (List.nodup_cons.mp h.todo_nodup).2
  · rw [fileTodo_nextSlot]
    exact hready

theorem unfaulted_of_present {f : File} {offset len : ℕ} {dataFault holeFault : Option IoError}
    (hlen : len ≠ 0) (h : rangeIsPresent f offset len dataFault holeFault = .ok true) :
    dataFault = none ∧ holeFault = none := by
  rw [rangeIsPresent, if_neg hlen] at h
  split at h
  · exact absurd h (by simp)
  · cases dataFault with
    | some err => exact absurd h (probeFailed_ne_ok_true err)
    | none =>
      refine ⟨rfl, ?_⟩
      split at h
      · exact absurd h (probeFailed_ne_ok_true _)
      · split_ifs at h
        · exact absurd h (by simp)
        cases holeFault with
        | some err => exact absurd h (probeFailed_ne_ok_true err)
        | none => rfl

/-- The answer to a probe. -/
theorem underway_probed {slot : ℕ} {todo : List ℕ} {dataFault holeFault : Option IoError}
    (h : inst.Underway s (.scanning slot todo .probing))
    (hstep : inst.recoveryStep s (.scanning slot todo .probing) (.probe dataFault holeFault) =
      some (s', l')) : inst.StepAnswer s (.probe dataFault holeFault) s' l' := by
  have hslot : slot < inst.rangeMap.slotCount := h.todo_lt slot List.mem_cons_self
  obtain ⟨offset, len, hrange⟩ : ∃ offset len, inst.rangeMap.slotRange slot = .ok (offset, len) :=
    ⟨_, _, RangeMap.slotRange_ok hslot⟩
  have hpos := slotRange_len_pos hrange
  have hend := (slotRange_bounds hrange).2.2
  have hsize := inst.blobSize_lt
  have hcleared : (RecoveryEvent.probe dataFault holeFault).Writes →
      ∃ k, (s.disk inst.rangeMap.file).byte (headerSize + k) ≠ 0 ∧
        (s'.disk inst.rangeMap.file).byte (headerSize + k) = 0 := False.elim
  simp only [recoveryStep, hrange] at hstep
  obtain ⟨rfl, rfl⟩ := Prod.mk.inj (Option.some.inj hstep)
  cases hprobe : rangeIsPresent (s.disk inst.target) offset len dataFault
    holeFault with
  | error err =>
    refine ⟨.failed _ _, fun _ => rfl, hcleared, fun _ _ => ?_,
      fun hno => absurd hno (by simp [probed])⟩
    -- without a fault the probe has an answer
    by_contra hfault
    obtain ⟨hdata, hhole⟩ := not_or.mp hfault
    obtain ⟨found, hfound⟩ := rangeIsPresent_unfaulted (s.disk inst.target)
      (show offset + len < U64.size by omega)
    rw [not_not.mp hdata, not_not.mp hhole, hfound] at hprobe
    exact absurd hprobe (by simp)
  | ok found =>
    cases found with
    | true =>
      obtain ⟨hdata, hhole⟩ := unfaulted_of_present hpos.ne' hprobe
      refine ⟨h.next fun k hk => h.ready k (List.mem_cons_of_mem _ hk), fun _ => rfl, hcleared,
        fun err hno => absurd hno (nextSlot_ne_failed _ _), fun _ hfails => ?_⟩
      exact hfails.elim (absurd hdata) (absurd hhole)
    | false =>
      have hclear : inst.probed slot todo offset len (.ok false) =
          .scanning slot todo (.clearing slot (slot + 1) 0) := by
        rw [probed, RangeMap.slotsForRange_slotRange hrange]
        dsimp only
        rw [if_neg (Nat.ne_of_lt (Nat.lt_succ_self slot))]
      rw [hclear]
      exact ⟨⟨h.todo_lt, h.todo_nodup, h.ready, rfl, rfl, rfl⟩, fun _ => rfl, hcleared,
        fun _ hno => absurd hno (by simp), fun hno => absurd hno (by simp)⟩

/-- The answer to a write of the bitmap file. -/
theorem underway_marked {slot slotStart slotEnd done : ℕ} {todo : List ℕ} {res : Except IoError ℕ}
    (h : inst.Underway s (.scanning slot todo (.clearing slotStart slotEnd done)))
    (hstep : inst.recoveryStep s (.scanning slot todo (.clearing slotStart slotEnd done))
      (.marked res) = some (s', l')) : inst.StepAnswer s (.marked res) s' l' := by
  obtain ⟨rfl, rfl, rfl⟩ := h.clearing
  cases res with
  | error err =>
    simp only [recoveryStep] at hstep
    split_ifs at hstep with hagain
    · obtain ⟨rfl, rfl⟩ := Prod.mk.inj (Option.some.inj hstep)
      exact ⟨h, fun _ => rfl, False.elim, fun _ _ => trivial, fun hno => absurd hno (by simp)⟩
    · obtain ⟨rfl, rfl⟩ := Prod.mk.inj (Option.some.inj hstep)
      exact ⟨.failed _ _, fun _ => rfl, False.elim, fun _ _ => trivial,
        fun hno => absurd hno (by simp)⟩
  | ok n =>
    simp only [recoveryStep] at hstep
    split_ifs at hstep with hle hzero hmore
    · obtain ⟨rfl, rfl⟩ := Prod.mk.inj (Option.some.inj hstep)
      exact ⟨.failed _ _, fun _ => rfl, fun hn => absurd hzero hn, fun _ _ => trivial,
        fun hno => absurd hno (by simp)⟩
    · omega
    · obtain rfl : n = 1 := by omega
      obtain ⟨rfl, rfl⟩ := Prod.mk.inj (Option.some.inj hstep)
      have hnotin := (List.nodup_cons.mp h.todo_nodup).1
      refine ⟨⟨h.todo_lt, h.todo_nodup, fun k hk => ?_, trivial⟩, fun hno => absurd one_ne_zero hno,
        fun _ => ⟨slotStart, h.ready _ List.mem_cons_self, ?_⟩, fun _ hno => absurd hno (by simp),
        fun hno => absurd hno (by simp)⟩
      · -- the write leaves the bytes of the other slots alone
        have hne : k ≠ slotStart := fun heq => hnotin (heq ▸ hk)
        rw [writeMarks_disk, Disk.write_self, SparseFile.writeAt_byte_of_notMem]
        · exact h.ready k (List.mem_cons_of_mem _ hk)
        · rw [List.length_replicate]
          omega
      · rw [writeMarks_disk, Disk.write_self]
        exact SparseFile.writeAt_byte_of_mem _ _ [0] (i := 0) Nat.one_pos

/-- **A step of recovery, by its answer.** -/
theorem underway_step (h : inst.Underway s l) (hstep : inst.recoveryStep s l e = some (s', l')) :
    inst.StepAnswer s e s' l' := by
  cases l with
  | recovered | failed => exact absurd hstep (by simp [recoveryStep])
  | scanning slot todo pc =>
    cases pc with
    | probing =>
      cases e with
      | probe dataFault holeFault => exact underway_probed h hstep
      | marked | fill => exact absurd hstep (by simp [recoveryStep])
    | clearing slotStart slotEnd done =>
      cases e with
      | marked res => exact underway_marked h hstep
      | probe | fill => exact absurd hstep (by simp [recoveryStep])
    | filling slotStart slotEnd =>
      cases e with
      | fill =>
        obtain ⟨rfl, rfl⟩ := Prod.mk.inj (Option.some.inj hstep)
        exact ⟨h.next h.ready, fun _ => rfl, False.elim,
          fun err hno => absurd hno (nextSlot_ne_failed _ _), fun _ => id⟩
      | probe | marked => exact absurd hstep (by simp [recoveryStep])

/-! ### A whole recovery -/

/-- The slots of a bitmap file that has been read are underway. -/
theorem Underway.start (hlength : s.slots.length = inst.rangeMap.slotCount)
    (hfile : ∀ k < inst.rangeMap.slotCount,
      (s.disk inst.rangeMap.file).byte (headerSize + k) = s.slots.getD k 0) :
    inst.Underway s (startRecovery s.slots) := by
  have hlt (k : ℕ) (hk : k ∈ readySlots s.slots) : k < inst.rangeMap.slotCount :=
    hlength ▸ lt_length_of_getD_ne (mem_readySlots_iff.mp hk)
  refine ⟨?_, ?_, ?_, ?_⟩
  · rw [startRecovery, todo_nextSlot]
    exact hlt
  · rw [startRecovery, todo_nextSlot]
    exact List.nodup_range.filter _
  · rw [startRecovery, fileTodo_nextSlot]
    intro k hk
    rw [hfile k (hlt k hk)]
    exact mem_readySlots_iff.mp hk
  · rw [startRecovery]
    cases readySlots s.slots <;> trivial

theorem recovery_byte_zero (h : inst.recovery.solo s l es = some (s', l')) {k : ℕ}
    (hk : (s.disk inst.rangeMap.file).byte (headerSize + k) = 0) :
    (s'.disk inst.rangeMap.file).byte (headerSize + k) = 0 := by
  refine TaskSystem.solo_invariant (A := inst.recovery)
    (I := fun s _ => (s.disk inst.rangeMap.file).byte (headerSize + k) = 0)
    (fun s l e s' l' hk hstep => ?_) hk h
  rcases recoveryStep_cases hstep with rfl | ⟨slotStart, done, n, rfl⟩ | ⟨slotStart, slotEnd, rfl⟩
  · exact hk
  · rw [writeMarks_disk, Disk.write_self, SparseFile.writeAt_byte]
    split_ifs
    · rw [List.getD_eq_getElem?_getD, List.getElem?_replicate]
      split_ifs <;> rfl
    · exact hk
  · exact hk

/-- A recovery that gets no byte into the bitmap file changes nothing. -/
theorem Underway.disk_eq (h : inst.Underway s l) (hes : ∀ e ∈ es, ¬ e.Writes)
    (hrun : inst.recovery.solo s l es = some (s', l')) : s'.disk = s.disk := by
  induction es generalizing s l with
  | nil => exact congrArg Shared.disk (Prod.mk.inj (Option.some.inj hrun)).1.symm
  | cons e es ih =>
    obtain ⟨s₁, l₁, hstep, hrest⟩ := TaskSystem.solo_cons_eq_some.mp hrun
    have hanswer := underway_step h hstep
    rw [ih hanswer.underway (fun e' he' => hes e' (List.mem_cons_of_mem _ he')) hrest]
    exact hanswer.disk_eq (hes e List.mem_cons_self)

/-- A recovery that gets a byte into the bitmap file has cleared one that was set. -/
theorem Underway.cleared (h : inst.Underway s l) (hes : ∃ e ∈ es, e.Writes)
    (hrun : inst.recovery.solo s l es = some (s', l')) :
    ∃ k, (s.disk inst.rangeMap.file).byte (headerSize + k) ≠ 0 ∧
      (s'.disk inst.rangeMap.file).byte (headerSize + k) = 0 := by
  induction es generalizing s l with
  | nil =>
    obtain ⟨e, he, -⟩ := hes
    exact absurd he List.not_mem_nil
  | cons e es ih =>
    obtain ⟨s₁, l₁, hstep, hrest⟩ := TaskSystem.solo_cons_eq_some.mp hrun
    have hanswer := underway_step h hstep
    by_cases he : e.Writes
    · obtain ⟨k, hset, hzero⟩ := hanswer.cleared he
      exact ⟨k, hset, recovery_byte_zero hrest hzero⟩
    · rw [← hanswer.disk_eq he]
      refine ih hanswer.underway ?_ hrest
      obtain ⟨e', he', hwrites⟩ := hes
      rcases List.mem_cons.mp he' with rfl | hmem
      · exact absurd hwrites he
      · exact ⟨e', hmem, hwrites⟩

/-- **The end of a recovery.** It has failed exactly when its last answer is an error. -/
theorem Underway.recovered_iff (h : inst.Underway s l) (hl : ∀ err, l ≠ .failed err)
    (hrun : inst.recovery.solo s l es = some (s', l'))
    (hend : l' = .recovered ∨ ∃ err, l' = .failed err) :
    l' = .recovered ↔ ∀ e, es.getLast? = some e → ¬ e.Fails := by
  induction es generalizing s l with
  | nil =>
    obtain ⟨-, rfl⟩ := Prod.mk.inj (Option.some.inj hrun)
    refine iff_of_true (hend.resolve_right ?_) fun e he => absurd he (by simp)
    rintro ⟨err, rfl⟩
    exact hl err rfl
  | cons e es ih =>
    obtain ⟨s₁, l₁, hstep, hrest⟩ := TaskSystem.solo_cons_eq_some.mp hrun
    have hanswer := underway_step h hstep
    cases es with
    | nil =>
      obtain ⟨-, rfl⟩ := Prod.mk.inj (Option.some.inj hrest)
      constructor
      · intro hrecovered e' he'
        obtain rfl := Option.some.inj he'
        exact hanswer.recovered hrecovered
      · refine fun hfails => hend.resolve_right ?_
        rintro ⟨err, hfailed⟩
        exact hfails e rfl (hanswer.failed err hfailed)
    | cons e' es =>
      rw [List.getLast?_cons_cons]
      refine ih hanswer.underway ?_ hrest
      -- a recovery that has failed makes no further step
      rintro err rfl
      obtain ⟨s₂, l₂, hstep', -⟩ := TaskSystem.solo_cons_eq_some.mp hrest
      exact absurd hstep' (by simp [recovery, recoveryStep])

end Instance

end Lazyd
