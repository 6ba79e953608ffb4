import Lazyd.Instance.Downloads

/-!
# Calls in an environment that answers

The remote answers every read of the blob with the bytes asked for, and every write makes progress.
In such an environment a request inside the blob cannot fail, and a request that is not inside it
does. No call is stuck either: a task that holds a guard can always go on alone and drop it, so
whatever a waiting task waits for can be dropped, and then the task itself can finish.

## Main definitions

* `Instance.Answers` : the environment.
* `Instance.Answered` : what a task of `ensure_range` knows about the slots.

## Main results

* `Instance.ensureRange_answered` : how `ensure_range` ends.
* `Instance.exists_run_returned` : `ensure_range` can always be finished.
* `Instance.exists_solo_ok` : a call for a range inside the blob can succeed.

Source: `src/instance.rs`, lines 229–261 and 321–335.
-/

namespace Lazyd

namespace Instance

def Call.IsFetch : Call → Prop
  | .ensureRange .. => False
  | .prepareFetchRange .. => True

/-- The remote answers with the bytes asked for, every write succeeds at least in part, and only
fetches are cancelled. -/
def Answers (blob : ℕ → UInt8) : TaskState → Event → Prop
  | .running _ _ _ (.holding range .reading), .reply res =>
    ∃ bytes, res = .ok bytes ∧ bytes.length = range.len ∧ SparseFile.Agrees blob range.offset bytes
  | _, .wrote res | _, .marked res => ∃ n, res = .ok n ∧ 0 < n
  | .running call _ _ _, .cancel => call.IsFetch
  | _, _ => True

variable (inst : Instance)

/-- What a task of `ensure_range` knows about the slots in memory. -/
def Answered (slots : List UInt8) : TaskState → Prop
  | .running (.ensureRange _ _) offset len (.holding _ (.releasing out)) =>
    out = .ok ∧ inst.rangeMap.isRangeReady slots offset len = true
  | .running (.ensureRange _ _) _ _ .cloning => False
  | .returned (.ensureRange offset len) out =>
    (offset + len ≤ inst.blobSize →
      out = .ok ∧ inst.rangeMap.isRangeReady slots offset len = true) ∧
    (0 < len → inst.blobSize < offset + len → out ≠ .ok)
  | _ => True

/-- Whatever range is ready stays ready. -/
def KeepsReady (slots slots' : List UInt8) : Prop :=
  ∀ offset len, inst.rangeMap.isRangeReady slots offset len = true →
    inst.rangeMap.isRangeReady slots' offset len = true

variable {inst} {blob : ℕ → UInt8}

/-! ### How a call ends -/

theorem Answered.mono {slots slots' : List UInt8} {l : TaskState} (h : inst.KeepsReady slots slots')
    (hl : inst.Answered slots l) : inst.Answered slots' l := by
  unfold Answered at hl ⊢
  split at hl
  · exact ⟨hl.1, h _ _ hl.2⟩
  · exact hl
  · exact ⟨fun hle => ⟨(hl.1 hle).1, h _ _ (hl.1 hle).2⟩, hl.2⟩
  · trivial

/-- A call of `ensure_range` that ends with success on a ready range. -/
theorem answered_finish_ok {slots : List UInt8} {call : Call} {offset len : ℕ}
    (hargs : inst.CallArgs call offset len)
    (hslots : slots.length = inst.rangeMap.slotCount)
    (hready : inst.rangeMap.isRangeReady slots offset len = true) :
    inst.Answered slots (finish call offset len .ok) := by
  cases call with
  | prepareFetchRange => trivial
  | ensureRange offset' len' =>
    obtain ⟨rfl, hend⟩ := hargs
    obtain rfl : len = len' := Nat.add_left_cancel hend
    refine ⟨fun _ => ⟨rfl, hready⟩, fun hlen hlt _ => ?_⟩
    rw [RangeMap.isRangeReady_iff hslots, rangeMap_blobSize] at hready
    rcases hready with hzero | ⟨hle, -⟩
    · exact hlen.ne' hzero
    · exact absurd hle (not_le.mpr hlt)

theorem answered_finish_error {slots : List UInt8} {call : Call} {offset len : ℕ} {err : Error}
    (hargs : inst.CallArgs call offset len) (h : inst.blobSize < offset + len) :
    inst.Answered slots (finish call offset len (.err err)) := by
  cases call with
  | prepareFetchRange => trivial
  | ensureRange offset' len' =>
    obtain ⟨rfl, hend⟩ := hargs
    obtain rfl : len = len' := Nat.add_left_cancel hend
    exact ⟨fun hle => absurd hle (not_le.mpr h), fun _ _ => by simp⟩

theorem answered_of_cancelled {slots : List UInt8} {call : Call} {offset len : ℕ} {pc : Pc}
    (h : call.IsFetch) : inst.Answered slots (.running call offset len pc) := by
  cases call with
  | ensureRange => exact h.elim
  | prepareFetchRange => trivial

/-- The slots of a request that has been marked are ready. -/
theorem isRangeReady_fillSlots {slots : List UInt8} {offset len slotStart slotEnd : ℕ}
    {range : Range} (hslots : slots.length = inst.rangeMap.slotCount)
    (hreq : inst.Requested offset len range)
    (hbounds : inst.SlotBounds offset len slotStart slotEnd) :
    inst.rangeMap.isRangeReady (fillSlots slots slotStart slotEnd 1) offset len = true := by
  obtain ⟨rfl, rfl⟩ := hbounds
  rw [RangeMap.isRangeReady_iff ((length_fillSlots ..).trans hslots), rangeMap_blobSize,
    rangeMap_unitBytes]
  refine Or.inr ⟨hreq.le_blobSize, fun k hk => ?_⟩
  rw [getD_fillSlots_of_mem 1 _ hk.1 hk.2]
  · decide
  · rw [hslots]
    exact touches_lt_slotCount hreq.le_blobSize hk

/-- **The step lemma.** In an environment that answers, a step keeps what its task knows, and it
makes no range unready. -/
theorem answered_step {s s' : Shared} {l l' : TaskState} {e : Event}
    (hslots : s.slots.length = inst.rangeMap.slotCount) (hshape : inst.TaskShape l)
    (hl : inst.Answered s.slots l) (hok : Answers blob l e)
    (h : inst.step s l e = some (s', l')) :
    s'.slots.length = inst.rangeMap.slotCount ∧ inst.Answered s'.slots l' ∧
      inst.KeepsReady s.slots s'.slots := by
  cases Effect.of_step h with
  | call call =>
    refine ⟨hslots, ?_, fun _ _ hr => hr⟩
    cases call with
    | ensureRange => trivial
    | prepareFetchRange =>
      rw [enter]
      split <;> trivial
  | check call offset len =>
    refine ⟨hslots, ?_, fun _ _ hr => hr⟩
    rcases Nat.eq_zero_or_pos len with rfl | hlen
    · exact answered_finish_ok hshape.1 hslots
        ((RangeMap.isRangeReady_iff hslots _ _).mpr (Or.inl rfl))
    · rcases le_or_gt (offset + len) inst.blobSize with hle | hgt
      · rw [firstCheck_inside s.slots call hlen hle]
        split_ifs with hready
        · exact answered_finish_ok hshape.1 hslots hready
        · cases call <;> trivial
      · obtain ⟨err, herr⟩ := firstCheck_outside s.slots call hlen hgt
        rw [herr]
        exact answered_finish_error hshape.1 hgt
  | refused => exact ⟨hslots, hl, fun _ _ hr => hr⟩
  | reserved call =>
    refine ⟨hslots, ?_, fun _ _ hr => hr⟩
    cases call <;> trivial
  | cancelWaiting call =>
    refine ⟨hslots, ?_, fun _ _ hr => hr⟩
    cases call with
    | ensureRange => exact hok.elim
    | prepareFetchRange => trivial
  | recheck call offset len range =>
    refine ⟨hslots, ?_, fun _ _ hr => hr⟩
    split_ifs with hready
    · cases call with
      | ensureRange => exact ⟨rfl, hready⟩
      | prepareFetchRange => trivial
    · cases call <;> trivial
  | reply call offset len range res =>
    refine ⟨hslots, ?_, fun _ _ hr => hr⟩
    obtain ⟨bytes, rfl, hlength, -⟩ := hok
    rw [received, if_neg (not_not.mpr hlength), afterWrite]
    split_ifs
    · cases call <;> trivial
    · rw [startMark_requested hshape.2.1]
      cases call <;> trivial
  | cancelReading => exact ⟨hslots, answered_of_cancelled hok, fun _ _ hr => hr⟩
  | writeFailed call offset len range bytes written res err hres =>
    obtain ⟨n, hn, hpos⟩ := hok
    exact absurd (hres n hn) hpos.ne'
  | wrote call offset len range bytes written n hn hle =>
    refine ⟨hslots, ?_, fun _ _ hr => hr⟩
    rw [afterWrite]
    split_ifs
    · cases call <;> trivial
    · rw [startMark_requested hshape.2.1]
      cases call <;> trivial
  | markRetry => exact ⟨hslots, hl, fun _ _ hr => hr⟩
  | markFailed call offset len range slotStart slotEnd done res err hres =>
    obtain ⟨n, hn, hpos⟩ := hok
    exact absurd (hres n hn) hpos.ne'
  | marked call offset len range slotStart slotEnd done n hn hle =>
    refine ⟨hslots, ?_, fun _ _ hr => hr⟩
    rw [afterMark]
    split_ifs <;> cases call <;> trivial
  | fill call offset len range slotStart slotEnd =>
    have hlength : (fillSlots s.slots slotStart slotEnd 1).length = inst.rangeMap.slotCount :=
      (length_fillSlots ..).trans hslots
    refine ⟨hlength, ?_, fun _ _ => RangeMap.isRangeReady_mono hslots hlength fun k hk => ?_⟩
    · cases call with
      | ensureRange => exact ⟨rfl, isRangeReady_fillSlots hslots hshape.2.1 hshape.2.2⟩
      | prepareFetchRange => trivial
    · by_cases hmem : slotStart ≤ k ∧ k < slotEnd
      · rw [getD_fillSlots_of_mem 1 (lt_length_of_getD_ne hk) hmem.1 hmem.2]
        decide
      · rwa [getD_fillSlots_of_notMem _ _ hmem]
  | release call offset len range out =>
    refine ⟨hslots, ?_, fun _ _ hr => hr⟩
    cases call with
    | ensureRange =>
      obtain ⟨rfl, hready⟩ := hl
      exact answered_finish_ok hshape.1 hslots hready
    | prepareFetchRange => cases out <;> trivial
  | clone call =>
    refine ⟨hslots, ?_, fun _ _ hr => hr⟩
    cases call with
    | ensureRange => exact hl.elim
    | prepareFetchRange => trivial

section Runs

variable {τ : Type*} [DecidableEq τ] {c₀ c : TaskSystem.Config Shared TaskState τ}
  {ls : List (τ × Event)}

/-- **How `ensure_range` ends.** In every run in an environment that answers, a request inside the
blob that has returned was successful, and its range is ready then and in every later state; a
nonempty request that is not inside the blob was not. -/
theorem ensureRange_answered (hidle : ∀ t, c₀.task t = .idle)
    (hslots : c₀.shared.slots.length = inst.rangeMap.slotCount)
    (hrun : inst.tasks.Run (Answers blob) c₀ ls c) {t : τ} {offset len : ℕ} {out : Outcome}
    (hret : c.task t = .returned (.ensureRange offset len) out) :
    (offset + len ≤ inst.blobSize →
      out = .ok ∧ inst.rangeMap.isRangeReady c.shared.slots offset len = true) ∧
    (0 < len → inst.blobSize < offset + len → out ≠ .ok) := by
  have h := hrun.rely (I := fun s => s.slots.length = inst.rangeMap.slotCount)
    (L := fun s l => inst.TaskShape l ∧ inst.Answered s.slots l)
    (R := fun s s' => inst.KeepsReady s.slots s'.slots) hslots
    (fun u => by rw [hidle u]; exact ⟨trivial, trivial⟩)
    (fun s l e s' l' hI hL hok hstep => by
      obtain ⟨hI', hl', hkeep⟩ := answered_step hI hL.1 hL.2 hok hstep
      exact ⟨hI', ⟨taskShape_step hL.1 hstep, hl'⟩, hkeep⟩)
    (fun s s' l hkeep hL => ⟨hL.1, hL.2.mono hkeep⟩)
  have hanswered := (h.2 t).2
  rwa [hret] at hanswered

end Runs

/-! ### No call is stuck -/

/-- The task goes on alone, in an environment that answers, until it has dropped its guard. -/
def Finishes (inst : Instance) (blob : ℕ → UInt8) (call : Call) (offset len : ℕ) (range : Range)
    (s : Shared) (l : TaskState) : Prop :=
  ∃ es s' out, inst.tasks.SoloOk (Answers blob) s l es ∧
    inst.tasks.solo s l es = some (s', finish call offset len out) ∧
    s'.inflight = s.inflight.filter fun item => item ≠ range

theorem Finishes.step {call : Call} {offset len : ℕ} {range : Range} {s s₁ : Shared}
    {l l₁ : TaskState} {e : Event} (h : inst.Finishes blob call offset len range s₁ l₁)
    (hstep : inst.step s l e = some (s₁, l₁)) (hok : Answers blob l e)
    (hinflight : s₁.inflight = s.inflight) :
    inst.Finishes blob call offset len range s l := by
  obtain ⟨es, s', out, hsolo, hend, hlist⟩ := h
  exact ⟨e :: es, s', out, hsolo.cons hok hstep,
    TaskSystem.solo_cons_eq_some.mpr ⟨s₁, l₁, hstep, hend⟩, hinflight ▸ hlist⟩

variable (blob) in
/-- A task that holds a guard can go on alone. The phases come in the order in which the task
reaches the end. -/
theorem finishes_of_holding {call : Call} {offset len : ℕ} {range : Range} {phase : Phase}
    (hl : inst.TaskShape (.running call offset len (.holding range phase))) (s : Shared) :
    inst.Finishes blob call offset len range s
      (.running call offset len (.holding range phase)) := by
  obtain ⟨-, hreq, hphase⟩ := hl
  have hreleasing (s : Shared) (out : Outcome) : inst.Finishes blob call offset len range s
      (.running call offset len (.holding range (.releasing out))) :=
    ⟨[.release], _, out, ⟨trivial, fun _ _ _ => trivial⟩, rfl, rfl⟩
  have hfilling (s : Shared) (slotStart slotEnd : ℕ) :
      inst.Finishes blob call offset len range s
        (.running call offset len (.holding range (.filling slotStart slotEnd))) :=
    (hreleasing _ .ok).step (e := .fill) rfl trivial rfl
  have hmarking (s : Shared) (slotStart slotEnd done : ℕ) (hdone : done < slotEnd - slotStart) :
      inst.Finishes blob call offset len range s
        (.running call offset len (.holding range (.marking slotStart slotEnd done))) := by
    refine (hfilling (inst.writeMarks s 1 slotStart done (slotEnd - slotStart - done)) slotStart
      slotEnd).step (e := .marked (.ok (slotEnd - slotStart - done))) ?_
      ⟨_, rfl, Nat.sub_pos_of_lt hdone⟩ rfl
    have hall : ¬done + (slotEnd - slotStart - done) < slotEnd - slotStart := by omega
    rw [step, if_neg (lt_irrefl _), if_neg (Nat.sub_pos_of_lt hdone).ne', afterMark, if_neg hall]
  have hwritten (s : Shared) (bytes : List UInt8) (written : ℕ) (hall : bytes.length ≤ written) :
      inst.Finishes blob call offset len range s
        (.running call offset len (.holding range (inst.afterWrite range bytes written))) := by
    rw [afterWrite, if_neg (not_lt.mpr hall), startMark_requested hreq]
    exact hmarking s _ _ 0 (Nat.sub_pos_of_lt (slotBounds_lt hreq.len_pos ⟨rfl, rfl⟩))
  have hwriting (s : Shared) (bytes : List UInt8) (written : ℕ) (hlt : written < bytes.length) :
      inst.Finishes blob call offset len range s
        (.running call offset len (.holding range (.writing bytes written))) := by
    refine (hwritten (inst.writeTarget s range bytes written (bytes.length - written)) bytes
      (written + (bytes.length - written)) (by omega)).step
      (e := .wrote (.ok (bytes.length - written))) ?_ ⟨_, rfl, Nat.sub_pos_of_lt hlt⟩ rfl
    rw [step, if_neg (lt_irrefl _), if_neg (Nat.sub_pos_of_lt hlt).ne']
  have hreading (s : Shared) : inst.Finishes blob call offset len range s
      (.running call offset len (.holding range .reading)) := by
    have hlength := SparseFile.length_slice blob range.offset range.len
    have hpos : 0 < range.len := by
      rw [hreq.range_eq]
      exact (amplified_bounds hreq.len_pos hreq.le_blobSize).1
    have hpos' : 0 < (SparseFile.slice blob range.offset range.len).length := by rwa [hlength]
    refine (hwriting s (SparseFile.slice blob range.offset range.len) 0 hpos').step
      (e := .reply (.ok (SparseFile.slice blob range.offset range.len))) ?_
      ⟨_, rfl, hlength, SparseFile.agrees_slice _ _ _⟩ rfl
    rw [step, received, if_neg (not_not.mpr hlength), afterWrite, if_pos hpos']
  cases phase with
  | releasing out => exact hreleasing s out
  | filling slotStart slotEnd => exact hfilling s slotStart slotEnd
  | marking slotStart slotEnd done => exact hmarking s slotStart slotEnd done hphase.2
  | writing bytes written => exact hwriting s bytes written hphase.2
  | reading => exact hreading s
  | recheck =>
    by_cases hready : inst.rangeMap.isRangeReady s.slots offset len = true
    · refine (hreleasing s .ok).step (e := .recheck) ?_ trivial rfl
      rw [Instance.step, if_pos hready]
    · refine (hreading s).step (e := .recheck) ?_ trivial rfl
      rw [Instance.step, if_neg hready]

section Runs

variable {τ : Type*} [DecidableEq τ] {c : TaskSystem.Config Shared TaskState τ}

theorem Exclusive.run {ok : TaskState → Event → Prop} {ls : List (τ × Event)}
    {c' : TaskSystem.Config Shared TaskState τ} (h : inst.Exclusive c)
    (hrun : inst.tasks.Run ok c ls c') : inst.Exclusive c' :=
  hrun.invariant (I := inst.Exclusive) h fun _ _ _ _ h _ hfire => h.fire hfire

theorem heldRange_eq_some {l : TaskState} {range : Range} (h : heldRange l = some range) :
    ∃ call offset len phase, l = .running call offset len (.holding range phase) := by
  unfold heldRange at h
  split at h
  · obtain rfl := Option.some.inj h
    exact ⟨_, _, _, _, rfl⟩
  · exact absurd h (by simp)

variable (blob) in
theorem exists_run_drained (h : inst.Exclusive c) {t : τ} (ht : heldRange (c.task t) = none) :
    ∃ ls c', inst.tasks.Run (Answers blob) c ls c' ∧ c'.shared.inflight = [] ∧
      c'.task t = c.task t := by
  induction hn : c.shared.inflight.length using Nat.strong_induction_on generalizing c with
  | _ n ih =>
    cases hlist : c.shared.inflight with
    | nil => exact ⟨[], c, .nil, hlist, rfl⟩
    | cons range rest =>
      have hmem : range ∈ c.shared.inflight := hlist ▸ List.mem_cons_self
      obtain ⟨u, hu⟩ := h.lists.mem_iff.mp hmem
      have htu : t ≠ u := by
        rintro rfl
        rw [ht] at hu
        exact absurd hu (by simp)
      obtain ⟨call, offset, len, phase, hholding⟩ := heldRange_eq_some hu
      obtain ⟨es, s', out, hsolo, hend, hinflight⟩ :=
        finishes_of_holding blob (hholding ▸ h.shape u) c.shared
      rw [← hholding] at hsolo hend
      have hrun := TaskSystem.Run.of_solo hsolo hend
      have hshorter : s'.inflight.length < n := by
        rw [hinflight, ← hn]
        exact List.length_filter_lt_length_iff_exists.mpr ⟨range, hmem, by simp⟩
      have hsame : Function.update c.task u (finish call offset len out) t = c.task t :=
        Function.update_of_ne htu _ _
      obtain ⟨ls, c', hrun', hempty, htask⟩ := ih _ hshorter (h.run hrun)
        ((congrArg heldRange hsame).trans ht) rfl
      exact ⟨_, c', hrun.append hrun', hempty, htask.trans hsame⟩

theorem fire_of_step {t : τ} {e : Event} {s' : Shared} {l' : TaskState}
    (hstep : inst.step c.shared (c.task t) e = some (s', l')) :
    inst.tasks.fire c t e = some ⟨s', Function.update c.task t l'⟩ :=
  TaskSystem.fire_eq_some.mpr ⟨s', l', hstep, rfl⟩

theorem finish_ensureRange (o l offset len : ℕ) (out : Outcome) :
    finish (.ensureRange o l) offset len out = .returned (.ensureRange o l) out := by
  cases out <;> rfl

/-- A step of the task, after which it can return, in a run. -/
theorem exists_returned_of_step {t : τ} {call : Call} {e : Event} {s' : Shared} {l' : TaskState}
    (hstep : inst.step c.shared (c.task t) e = some (s', l')) (hok : Answers blob (c.task t) e)
    (h : ∃ ls c' out, inst.tasks.Run (Answers blob) ⟨s', Function.update c.task t l'⟩ ls c' ∧
      c'.task t = .returned call out) :
    ∃ ls c' out, inst.tasks.Run (Answers blob) c ls c' ∧ c'.task t = .returned call out := by
  obtain ⟨ls, c', out, hrun, hret⟩ := h
  exact ⟨_, c', out, (TaskSystem.Run.nil.snoc hok (fire_of_step hstep)).append hrun, hret⟩

variable (blob) in
/-- **No call is stuck.** In every state of a run, a task that is in `ensure_range` can still be
brought to its end in an environment that answers. -/
theorem exists_run_returned (h : inst.Exclusive c) {t : τ} {o l offset len : ℕ} {pc : Pc}
    (ht : c.task t = .running (.ensureRange o l) offset len pc) :
    ∃ ls c' out, inst.tasks.Run (Answers blob) c ls c' ∧
      c'.task t = .returned (.ensureRange o l) out := by
  have hholding {c : TaskSystem.Config Shared TaskState τ} (h : inst.Exclusive c) {range : Range}
      {phase : Phase} (ht : c.task t = .running (.ensureRange o l) offset len
        (.holding range phase)) :
      ∃ ls c' out, inst.tasks.Run (Answers blob) c ls c' ∧
        c'.task t = .returned (.ensureRange o l) out := by
    obtain ⟨es, s', out, hsolo, hend, -⟩ :=
      finishes_of_holding blob (ht ▸ h.shape t) c.shared
    rw [← ht] at hsolo hend
    refine ⟨_, _, out, TaskSystem.Run.of_solo hsolo hend, ?_⟩
    exact (Function.update_self _ _ _).trans (finish_ensureRange ..)
  have hreserving {c : TaskSystem.Config Shared TaskState τ} (h : inst.Exclusive c) {range : Range}
      (ht : c.task t = .running (.ensureRange o l) offset len (.reserving range)) :
      ∃ ls c' out, inst.tasks.Run (Answers blob) c ls c' ∧
        c'.task t = .returned (.ensureRange o l) out := by
    obtain ⟨ls, c₁, hrun, hempty, hsame⟩ := exists_run_drained blob h (by rw [ht]; rfl)
    have hstep : inst.step c₁.shared (c₁.task t) .reserve =
        some ({ c₁.shared with inflight := c₁.shared.inflight ++ [range] },
          .running (.ensureRange o l) offset len (.holding range .recheck)) := by
      rw [hsame, ht, step, hempty]
      rfl
    obtain ⟨ls', c', out, hrun', hret⟩ := exists_returned_of_step hstep
      (by rw [hsame, ht]; trivial)
      (hholding ((h.run hrun).fire (fire_of_step hstep)) (Function.update_self _ _ _))
    exact ⟨_, c', out, hrun.append hrun', hret⟩
  cases pc with
  | holding range phase => exact hholding h ht
  | reserving range => exact hreserving h ht
  | cloning =>
    refine exists_returned_of_step (e := .clone (.ok ())) (by rw [ht]; rfl) (by rw [ht]; trivial)
      ⟨[], _, .ok, .nil, Function.update_self _ _ _⟩
  | entered =>
    have hstep : inst.step c.shared (c.task t) .check =
        some (c.shared, inst.firstCheck c.shared.slots (.ensureRange o l) offset len) := by
      rw [ht]
      rfl
    refine exists_returned_of_step hstep (by rw [ht]; trivial) ?_
    rcases firstCheck_cases c.shared.slots (.ensureRange o l) offset len with
      ⟨err, hf⟩ | ⟨-, hf⟩ | ⟨-, -, hf⟩
    · exact ⟨[], _, .err err, .nil, (Function.update_self _ _ _).trans hf⟩
    · exact ⟨[], _, .ok, .nil, (Function.update_self _ _ _).trans hf⟩
    · exact hreserving (h.fire (fire_of_step hstep)) ((Function.update_self _ _ _).trans hf)

end Runs

/-! ### A call alone -/

variable (inst) in
/-- **A call alone can succeed.** On an instance with nothing in flight, a call of `ensure_range`
for a range inside the blob has a run of its own steps that ends with success. -/
theorem exists_solo_ok {s : Shared} {offset len : ℕ}
    (hslots : s.slots.length = inst.rangeMap.slotCount) (hinflight : s.inflight = [])
    (h : len = 0 ∨ offset + len ≤ inst.blobSize) :
    ∃ es s', inst.tasks.solo s (.running (.ensureRange offset len) offset len .entered) es =
      some (s', .returned (.ensureRange offset len) .ok) := by
  have hchecked (hf : inst.firstCheck s.slots (.ensureRange offset len) offset len =
      .returned (.ensureRange offset len) .ok) :
      inst.tasks.solo s (.running (.ensureRange offset len) offset len .entered) [.check] =
        some (s, .returned (.ensureRange offset len) .ok) := by
    rw [← hf]
    rfl
  rcases Nat.eq_zero_or_pos len with rfl | hlen
  · exact ⟨[.check], s, hchecked (if_pos rfl)⟩
  · have hle : offset + len ≤ inst.blobSize := h.resolve_left hlen.ne'
    by_cases hready : inst.rangeMap.isRangeReady s.slots offset len = true
    · refine ⟨[.check], s, hchecked ?_⟩
      rw [firstCheck_inside s.slots _ hlen hle, if_pos hready]
      rfl
    · -- the reservation is free, and whoever holds it can go on alone
      have hcheck : inst.step s (.running (.ensureRange offset len) offset len .entered) .check =
          some (s, .running (.ensureRange offset len) offset len
            (.reserving (inst.amplified offset len))) := by
        rw [step, firstCheck_inside s.slots _ hlen hle, if_neg hready]
      have hreserve : inst.step s (.running (.ensureRange offset len) offset len
          (.reserving (inst.amplified offset len))) .reserve =
            some ({ s with inflight := s.inflight ++ [inst.amplified offset len] },
              .running (.ensureRange offset len) offset len
                (.holding (inst.amplified offset len) .recheck)) := by
        rw [step, hinflight]
        rfl
      have hshape : inst.TaskShape (.running (.ensureRange offset len) offset len
          (.holding (inst.amplified offset len) .recheck)) :=
        ⟨⟨rfl, rfl⟩, ⟨hlen, hle, rfl⟩, trivial⟩
      obtain ⟨es, s', out, hok, hsolo, -⟩ := finishes_of_holding (fun _ => 0) hshape
        { s with inflight := s.inflight ++ [inst.amplified offset len] }
      rw [finish_ensureRange] at hsolo
      obtain ⟨-, ⟨-, hanswered⟩, -⟩ := TaskSystem.solo_rely
        (I := fun s => s.slots.length = inst.rangeMap.slotCount)
        (L := fun s l => inst.TaskShape l ∧ inst.Answered s.slots l) (R := fun _ _ => True)
        (fun _ => trivial) (fun _ _ _ _ _ => trivial)
        (fun _ _ _ _ _ hI hL hok hstep => by
          obtain ⟨hI', hl', -⟩ := answered_step hI hL.1 hL.2 hok hstep
          exact ⟨hI', ⟨taskShape_step hL.1 hstep, hl'⟩, trivial⟩)
        hslots ⟨hshape, trivial⟩ hok hsolo
      obtain ⟨rfl, -⟩ := hanswered.1 hle
      exact ⟨.check :: .reserve :: es, s', TaskSystem.solo_cons_eq_some.mpr ⟨_, _, hcheck,
        TaskSystem.solo_cons_eq_some.mpr ⟨_, _, hreserve, hsolo⟩⟩⟩

end Instance

end Lazyd
