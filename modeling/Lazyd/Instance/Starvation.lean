import Mathlib.Order.Filter.AtTopBot.Basic
import Mathlib.Order.Filter.Finite
import Lazyd.Library.FairSchedule
import Lazyd.Instance.Answered

/-!
# No call waits forever

A call of `ensure_range` that finds its range reserved by another one sleeps and tries again, and it
may be refused any number of times: nothing orders the calls that wait. It does not wait forever all
the same, however many calls keep coming, where the remote answers, the writes make progress and no
call is cancelled. Every fetch that succeeds makes a slot ready, so the fetches end; from then on a
call that is new finds its slots ready and reserves nothing, or it waits; and the finitely many
calls that were under way drop their guards.

## Main definitions

* `Instance.Prompt` : the environment.
* `Instance.holdingRank`, `Instance.freeRank` : how far a task is from dropping its guard, and from
  its end while nothing is in flight.
* `Instance.Unready` : the tasks that have found a slot not ready.

## Main results

* `Instance.fetches_end`, `Instance.guards_end` : what ends in a fair schedule.
* `Instance.calls_return` : every call returns.

Source: `src/instance.rs`, lines 229–261 and 321–351.
-/

namespace Lazyd

namespace Instance

open UnitPartition

/-- The remote answers, every write makes progress, and no call is cancelled. -/
def Prompt (blob : ℕ → UInt8) (l : TaskState) (e : Event) : Prop := Answers blob l e ∧ e ≠ .cancel

/-- The call has started and has not returned. -/
def TaskState.IsRunning : TaskState → Prop
  | .running .. => True
  | .idle | .returned .. => False

/-- The call has dropped its guard, or it has returned. -/
def TaskState.IsPast : TaskState → Prop
  | .running _ _ _ .cloning | .returned .. => True
  | _ => False

variable (inst : Instance)

/-- How far a task is from dropping its guard. -/
def holdingRank : TaskState → ℕ
  | .running _ _ _ (.holding range phase) =>
    match phase with
    | .recheck => range.len + inst.rangeMap.slotCount + 4
    | .reading => range.len + inst.rangeMap.slotCount + 3
    | .writing bytes written => bytes.length - written + inst.rangeMap.slotCount + 2
    | .marking slotStart slotEnd done => slotEnd - slotStart - done + 1
    | .filling .. => 1
    | .releasing _ => 0
  | _ => 0

/-- How far a task is from its end while nothing is in flight. -/
def freeRank : TaskState → ℕ
  | .running _ _ _ .entered => 3
  | .running _ _ _ (.reserving _) => 2
  | .running _ _ _ .cloning => 1
  | _ => 0

/-- A task that waits, or has its guard and has not looked again, has found a slot not ready. -/
def Unready (slots : List UInt8) : TaskState → Prop
  | .running _ offset len (.reserving _) => inst.rangeMap.isRangeReady slots offset len = false
  | .running _ offset len (.holding _ phase) =>
    phase = .recheck ∧ inst.rangeMap.isRangeReady slots offset len = false
  | _ => True

variable {inst} {blob : ℕ → UInt8} {s s' : Shared} {l l' : TaskState} {e : Event}

/-! ### One step -/

theorem isRunning_of_held {range : Range} (h : heldRange l = some range) : l.IsRunning := by
  obtain ⟨call, offset, len, phase, rfl⟩ := heldRange_eq_some h
  trivial

theorem slotEnd_le {offset len slotStart slotEnd : ℕ} (hle : offset + len ≤ inst.blobSize)
    (h : inst.SlotBounds offset len slotStart slotEnd) : slotEnd ≤ inst.rangeMap.slotCount := by
  rw [h.2, inst.slotCount_eq]
  exact ceilDiv_mono inst.unitBytes_pos hle

/-- The rank after the loop condition of the writes to the target. -/
theorem holdingRank_afterWrite (call : Call) {offset len : ℕ} {range : Range}
    (hreq : inst.Requested offset len range) (bytes : List UInt8) (written : ℕ) :
    inst.holdingRank
      (.running call offset len (.holding range (inst.afterWrite range bytes written)))
      ≤ bytes.length - written + inst.rangeMap.slotCount + 2 := by
  rw [afterWrite]
  split_ifs
  · exact le_rfl
  · rw [startMark_requested hreq]
    have hslots : (offset + len) ⌈/⌉ inst.unitBytes ≤ inst.rangeMap.slotCount :=
      slotEnd_le hreq.le_blobSize ⟨rfl, rfl⟩
    have hfew := Nat.sub_le ((offset + len) ⌈/⌉ inst.unitBytes) (offset / inst.unitBytes)
    change (offset + len) ⌈/⌉ inst.unitBytes - offset / inst.unitBytes - 0 + 1 ≤ _
    omega

/-- **A task with a guard comes nearer to dropping it** with each step. -/
theorem holdingRank_step (hl : inst.TaskShape l) (hok : Prompt blob l e)
    (h : inst.step s l e = some (s', l')) (hheld : (heldRange l).isSome = true)
    (hheld' : (heldRange l').isSome = true) : inst.holdingRank l' < inst.holdingRank l := by
  cases Effect.of_step h with
  | call | check | refused | reserved | cancelWaiting | clone =>
    exact absurd hheld (by simp [heldRange])
  | release call offset len range out =>
    rw [heldRange_finish] at hheld'
    exact absurd hheld' (by simp)
  | recheck => split_ifs <;> simp [holdingRank]
  | reply call offset len range res =>
    obtain ⟨bytes, rfl, hlength, -⟩ := hok.1
    have hrank := holdingRank_afterWrite call hl.2.1 bytes 0
    rw [received, if_neg (not_not.mpr hlength)]
    refine hrank.trans_lt ?_
    simp only [holdingRank]
    omega
  | cancelReading => exact absurd rfl hok.2
  | writeFailed => simp [holdingRank]
  | wrote call offset len range bytes written n hn hle =>
    have hrank := holdingRank_afterWrite call hl.2.1 bytes (written + n)
    refine hrank.trans_lt ?_
    simp only [holdingRank]
    omega
  | markRetry call offset len range slotStart slotEnd done err =>
    obtain ⟨n, hno, -⟩ := hok.1
    exact absurd hno (by simp)
  | markFailed => simp [holdingRank]
  | marked call offset len range slotStart slotEnd done n hn hle =>
    rw [afterMark]
    split_ifs <;> simp only [holdingRank] <;> omega
  | fill => simp [holdingRank]

theorem isPast_of_dropped (h : inst.step s l e = some (s', l'))
    (hheld : (heldRange l).isSome = true) (hdropped : heldRange l' = none) : l'.IsPast := by
  cases Effect.of_step h with
  | call | check | refused | reserved | cancelWaiting | clone =>
    exact absurd hheld (by simp [heldRange])
  | release call offset len range out =>
    rcases finish_ne_holding call offset len out with hf | ⟨-, hf⟩ <;>
    · rw [hf]
      trivial
  | _ => exact absurd hdropped (by simp [heldRange])

theorem isPast_step (hl : l.IsPast) (h : inst.step s l e = some (s', l')) : l'.IsPast := by
  cases Effect.of_step h with
  | clone => trivial
  | _ => exact hl.elim

theorem held_of_isPast (hl : l.IsPast) : heldRange l = none := by
  unfold TaskState.IsPast at hl
  split at hl
  · rfl
  · rfl
  · exact hl.elim

/-- A task that fetches goes on fetching until it marks its slots. -/
theorem fetching_or_fill (hl : inst.TaskShape l) (hok : Prompt blob l e)
    (hf : (fetching l).isSome = true) (h : inst.step s l e = some (s', l')) :
    (fetching l').isSome = true ∨ e.isFill = true := by
  have hwritten {call : Call} {offset len written : ℕ} {range : Range} {bytes : List UInt8}
      (hreq : inst.Requested offset len range) : (fetching (.running call offset len
        (.holding range (inst.afterWrite range bytes written)))).isSome = true := by
    rw [afterWrite]
    split_ifs
    · rfl
    · rw [startMark_requested hreq]
      rfl
  cases Effect.of_step h with
  | fill => exact Or.inr rfl
  | reply call offset len range res =>
    obtain ⟨bytes, rfl, hlength, -⟩ := hok.1
    rw [received, if_neg (not_not.mpr hlength)]
    exact Or.inl (hwritten hl.2.1)
  | wrote => exact Or.inl (hwritten hl.2.1)
  | marked =>
    rw [afterMark]
    split_ifs <;> exact Or.inl rfl
  | markRetry => exact Or.inl hf
  | writeFailed call offset len range bytes written res err hres =>
    obtain ⟨n, hn, hpos⟩ := hok.1
    exact absurd (hres n hn) hpos.ne'
  | markFailed call offset len range slotStart slotEnd done res err hres =>
    obtain ⟨n, hn, hpos⟩ := hok.1
    exact absurd (hres n hn) hpos.ne'
  | cancelReading => exact absurd rfl hok.2
  | call | check | refused | reserved | cancelWaiting | recheck | release | clone =>
    exact absurd hf (by simp [fetching, Phase.isFetching])

theorem unready_step (hl : inst.Unready s.slots l) (h : inst.step s l e = some (s', l'))
    (hf : fetching l' = none) : inst.Unready s.slots l' := by
  have hfinish (call : Call) (offset len : ℕ) (out : Outcome) :
      inst.Unready s.slots (finish call offset len out) := by
    rcases finish_ne_holding call offset len out with hf | ⟨-, hf⟩ <;>
    · rw [hf]
      trivial
  cases Effect.of_step h with
  | call call =>
    cases call with
    | ensureRange => trivial
    | prepareFetchRange =>
      rw [enter]
      split <;> trivial
  | check call offset len =>
    rcases firstCheck_cases s.slots call offset len with ⟨err, hf⟩ | ⟨-, hf⟩ | ⟨-, hready, hf⟩
    · rw [hf]
      exact hfinish _ _ _ _
    · rw [hf]
      exact hfinish _ _ _ _
    · rw [hf]
      exact hready
  | refused => exact hl
  | reserved => exact ⟨rfl, hl⟩
  | cancelWaiting => trivial
  | recheck call offset len range =>
    rw [if_neg (Bool.eq_false_iff.mp hl.2)] at hf
    exact absurd hf (by simp [fetching, Phase.isFetching])
  | release => exact hfinish _ _ _ _
  | clone => trivial
  | reply | cancelReading | writeFailed | wrote | markRetry | markFailed | marked | fill =>
    exact absurd hl.1 (by simp)

theorem freeRank_step (hfree : s.inflight = []) (hl : heldRange l = none)
    (hl' : heldRange l' = none) (hrunning : l.IsRunning) (hrunning' : l'.IsRunning)
    (h : inst.step s l e = some (s', l')) : freeRank l' < freeRank l := by
  cases Effect.of_step h with
  | call => exact hrunning.elim
  | check call offset len =>
    have hfinish (out : Outcome) : freeRank (finish call offset len out) <
        freeRank (.running call offset len .entered) := by
      rcases finish_ne_holding call offset len out with hf | ⟨-, hf⟩ <;>
      · rw [hf]
        simp [freeRank]
    rcases firstCheck_cases s.slots call offset len with ⟨err, hf⟩ | ⟨-, hf⟩ | ⟨-, -, hf⟩
    · rw [hf]
      exact hfinish _
    · rw [hf]
      exact hfinish _
    · rw [hf]
      simp [freeRank]
  | refused call offset len range hany =>
    rw [hfree] at hany
    exact absurd hany (by simp)
  | reserved => exact absurd hl' (by simp [heldRange])
  | cancelWaiting | clone => exact hrunning'.elim
  | recheck | reply | cancelReading | writeFailed | wrote | markRetry | markFailed | marked | fill
  | release =>
    exact absurd hl (by simp [heldRange])

theorem returned_of_callOf {call : Call} (hl : l.callOf = some call) (hended : ¬l.IsRunning) :
    ∃ out, l = .returned call out := by
  cases l with
  | idle => exact absurd hl (by simp [TaskState.callOf])
  | running => exact absurd trivial hended
  | returned call' out =>
    obtain rfl := Option.some.inj hl
    exact ⟨out, rfl⟩

/-! ### Fair schedules -/

section Schedules

variable {τ : Type*} [DecidableEq τ] {S : inst.tasks.Schedule (Prompt blob) τ} {t : τ} {n N : ℕ}

/-- The fetches that succeed end, since each of them makes one more slot ready. -/
theorem fills_end (hwanted : ∀ n, inst.Wanted (S.config n)) :
    ∃ N, ∀ n t e, N ≤ n → S.move n = some (t, e) → ¬e.isFill = true := by
  have hmono (n : ℕ) :
      readyCount (S.config n).shared.slots ≤ readyCount (S.config (n + 1)).shared.slots := by
    cases hmove : S.move n with
    | none => rw [TaskSystem.Schedule.config_of_none hmove]
    | some p =>
      have hfire := (TaskSystem.Schedule.fire_of_move hmove).2
      exact ((hwanted n).readyCount_fire hfire).1
  have hup (n : ℕ) (t : τ) (e : Event) (hmove : S.move n = some (t, e)) (hfill : e.isFill = true) :
      readyCount (S.config n).shared.slots < readyCount (S.config (n + 1)).shared.slots := by
    have hfire := (TaskSystem.Schedule.fire_of_move hmove).2
    exact ((hwanted n).readyCount_fire hfire).2 hfill
  have hbound (n : ℕ) : readyCount (S.config n).shared.slots ≤ inst.rangeMap.slotCount := by
    have hle := readyCount_le_length (S.config n).shared.slots
    rwa [(hwanted n).length_slots] at hle
  exact TaskSystem.Schedule.ends hmono hup hbound

theorem slots_eq_of_no_fill (hwanted : ∀ n, inst.Wanted (S.config n))
    (hno : ∀ n t e, N ≤ n → S.move n = some (t, e) → ¬e.isFill = true) (hn : N ≤ n) :
    (S.config n).shared.slots = (S.config N).shared.slots := by
  induction n, hn using Nat.le_induction with
  | base => rfl
  | succ n hn ih =>
    cases hmove : S.move n with
    | none => rw [TaskSystem.Schedule.config_of_none hmove, ih]
    | some p =>
      obtain ⟨t, e⟩ := p
      rcases slots_step ((hwanted n).exclusive.shape t)
        (TaskSystem.Schedule.step_of_move hmove).2 with ⟨hslots, -⟩ | ⟨_, _, -, hfill, -⟩
      · rw [hslots, ih]
      · exact absurd hfill (hno n t e hn hmove)

theorem drops_guard (hfair : S.Fair TaskState.IsRunning) (hwanted : ∀ n, inst.Wanted (S.config n))
    (hheld : (heldRange ((S.config n).task t)).isSome = true) :
    ∃ m, n ≤ m ∧ ((S.config m).task t).IsPast := by
  have hdown (i : ℕ) (e : Event) (_ : n ≤ i) (hmove : S.move i = some (t, e))
      (hheld : (heldRange ((S.config i).task t)).isSome = true)
      (hheld' : (heldRange ((S.config (i + 1)).task t)).isSome = true) :
      inst.holdingRank ((S.config (i + 1)).task t) < inst.holdingRank ((S.config i).task t) := by
    obtain ⟨hok, hstep⟩ := TaskSystem.Schedule.step_of_move hmove
    exact holdingRank_step ((hwanted i).exclusive.shape t) hok hstep hheld hheld'
  have hactive (l : TaskState) (hl : (heldRange l).isSome = true) : l.IsRunning := by
    obtain ⟨range, hrange⟩ := Option.isSome_iff_exists.mp hl
    exact isRunning_of_held hrange
  obtain ⟨m, e, hle, hmove, hlast, hdropped⟩ :=
    hfair.leaves (P := fun l => (heldRange l).isSome = true) hactive hdown hheld
  exact ⟨m + 1, by omega, isPast_of_dropped (TaskSystem.Schedule.step_of_move hmove).2 hlast
    (Option.not_isSome_iff_eq_none.mp hdropped)⟩

theorem exists_guard_end (hfair : S.Fair TaskState.IsRunning)
    (hwanted : ∀ n, inst.Wanted (S.config n)) (t : τ) :
    ∃ M, ∀ n, M ≤ n → heldRange ((S.config n).task t) = none := by
  by_cases hever : ∃ n, (heldRange ((S.config n).task t)).isSome = true
  · obtain ⟨n, hheld⟩ := hever
    obtain ⟨M, -, hpast⟩ := drops_guard hfair hwanted hheld
    refine ⟨M, fun n hn => held_of_isPast ?_⟩
    exact TaskSystem.Schedule.stays (fun i e _ hmove hl =>
      isPast_step hl (TaskSystem.Schedule.step_of_move hmove).2) hpast hn
  · exact ⟨0, fun n _ => Option.not_isSome_iff_eq_none.mp (not_exists.mp hever n)⟩

/-- A task that fetches succeeds, so that without successful fetches there are no others. -/
theorem fetches_end (hfair : S.Fair TaskState.IsRunning) (hwanted : ∀ n, inst.Wanted (S.config n))
    (hno : ∀ n t e, N ≤ n → S.move n = some (t, e) → ¬e.isFill = true) (hn : N ≤ n) (t : τ) :
    fetching ((S.config n).task t) = none := by
  by_contra hf
  -- the task goes on fetching with every step, although it drops its guard
  have hstays (m : ℕ) (hm : n ≤ m) : (fetching ((S.config m).task t)).isSome = true := by
    refine TaskSystem.Schedule.stays (P := fun l => (fetching l).isSome = true)
      (fun i e hi hmove hl => ?_) (Option.isSome_iff_ne_none.mpr hf) hm
    obtain ⟨hok, hstep⟩ := TaskSystem.Schedule.step_of_move hmove
    exact (fetching_or_fill ((hwanted i).exclusive.shape t) hok hl hstep).resolve_right
      (hno i t e (hn.trans hi) hmove)
  obtain ⟨M, hM⟩ := exists_guard_end hfair hwanted t
  have hlate := hstays (max n M) (le_max_left n M)
  rw [fetching_of_not_holding (hM _ (le_max_right n M))] at hlate
  exact absurd hlate (by simp)

/-- A task that has not looked at the slots before they stay as they are takes no guard. -/
theorem late_not_held (hfair : S.Fair TaskState.IsRunning)
    (hwanted : ∀ n, inst.Wanted (S.config n))
    (hno : ∀ n t e, N ≤ n → S.move n = some (t, e) → ¬e.isFill = true)
    (hidle : (S.config N).task t = .idle) (hn : N ≤ n) :
    heldRange ((S.config n).task t) = none := by
  have hunready (m : ℕ) (hm : N ≤ m) :
      inst.Unready (S.config N).shared.slots ((S.config m).task t) := by
    refine TaskSystem.Schedule.stays (fun i e hi hmove hl => ?_)
      (by rw [hidle]; trivial : inst.Unready _ _) hm
    have hslots := slots_eq_of_no_fill hwanted hno hi
    rw [← hslots] at hl ⊢
    exact unready_step hl (TaskSystem.Schedule.step_of_move hmove).2
      (fetches_end hfair hwanted hno (by omega) t)
  by_contra hheld
  obtain ⟨range, hrange⟩ := Option.ne_none_iff_exists'.mp hheld
  obtain ⟨call, offset, len, phase, htask⟩ := heldRange_eq_some hrange
  -- the next step of the task is its second look, after which it reads from the remote
  obtain ⟨m, e, hm, hmove, hsame⟩ := hfair.next (isRunning_of_held hrange)
  have hlook := hunready m (hn.trans hm)
  have hstep := (TaskSystem.Schedule.step_of_move hmove).2
  rw [hsame, htask] at hlook hstep
  obtain ⟨rfl, hready⟩ := hlook
  rw [← slots_eq_of_no_fill hwanted hno (hn.trans hm)] at hready
  have hdone := fetches_end hfair hwanted hno (show N ≤ m + 1 by omega) t
  generalize (S.config (m + 1)).shared = s', (S.config (m + 1)).task t = l' at hstep hdone
  cases Effect.of_step hstep with
  | recheck =>
    rw [if_neg (Bool.eq_false_iff.mp hready)] at hdone
    exact absurd hdone (by simp [fetching, Phase.isFetching])

/-- **From some time on nothing is in flight.** -/
theorem guards_end (hfair : S.Fair TaskState.IsRunning) (hwanted : ∀ n, inst.Wanted (S.config n))
    (hidle : ∀ t, (S.config 0).task t = .idle) :
    ∃ M, ∀ n, M ≤ n → (S.config n).shared.inflight = [] := by
  obtain ⟨N, hno⟩ := fills_end hwanted
  obtain ⟨ls, hrun⟩ := S.run (Nat.zero_le N)
  -- only finitely many calls were made before the slots stayed as they are
  have hall : ∀ᶠ M in Filter.atTop, ∀ t ∈ {t | (S.config N).task t ≠ (S.config 0).task t},
      ∀ n, M ≤ n → heldRange ((S.config n).task t) = none := by
    refine (Filter.eventually_all_finite hrun.finite_moved).mpr fun t _ => ?_
    obtain ⟨M, hM⟩ := exists_guard_end hfair hwanted t
    exact Filter.eventually_atTop.mpr ⟨M, fun M' hM' n hn => hM n (hM'.trans hn)⟩
  obtain ⟨M, hM⟩ := Filter.eventually_atTop.mp hall
  refine ⟨max M N, fun n hn => List.eq_nil_iff_forall_not_mem.mpr fun range hmem => ?_⟩
  obtain ⟨t, ht⟩ := (hwanted n).exclusive.lists.mem_iff.mp hmem
  have hnone : heldRange ((S.config n).task t) = none := by
    by_cases hmoved : (S.config N).task t = (S.config 0).task t
    · exact late_not_held hfair hwanted hno (hmoved.trans (hidle t)) (by omega)
    · exact hM M le_rfl t hmoved n (by omega)
  exact absurd (ht.symm.trans hnone) (by simp)

/-- A call that is under way while nothing is in flight any more returns. -/
theorem returns_of_free (hfair : S.Fair TaskState.IsRunning)
    (hwanted : ∀ n, inst.Wanted (S.config n))
    (hfree : ∀ i, n ≤ i → (S.config i).shared.inflight = [])
    (hrunning : ((S.config n).task t).IsRunning) :
    ∃ m, n ≤ m ∧ ¬((S.config m).task t).IsRunning := by
  have hnone (i : ℕ) (hi : n ≤ i) : heldRange ((S.config i).task t) = none := by
    by_contra hheld
    obtain ⟨range, hrange⟩ := Option.ne_none_iff_exists'.mp hheld
    have hmem := (hwanted i).exclusive.lists.mem_iff.mpr ⟨t, hrange⟩
    rw [hfree i hi] at hmem
    exact absurd hmem (by simp)
  have hdown (i : ℕ) (e : Event) (hi : n ≤ i) (hmove : S.move i = some (t, e))
      (hrunning : ((S.config i).task t).IsRunning)
      (hrunning' : ((S.config (i + 1)).task t).IsRunning) :
      freeRank ((S.config (i + 1)).task t) < freeRank ((S.config i).task t) :=
    freeRank_step (hfree i hi) (hnone i hi) (hnone (i + 1) (by omega)) hrunning hrunning'
      (TaskSystem.Schedule.step_of_move hmove).2
  obtain ⟨m, e, hle, -, -, hreturned⟩ :=
    hfair.leaves (P := TaskState.IsRunning) (fun _ hl => hl) hdown hrunning
  exact ⟨m + 1, by omega, hreturned⟩

/-- **Every call returns.** In every fair schedule of an instance that starts with nothing in
flight, where the remote answers, the writes make progress and no call is cancelled: a call that is
under way returns, however many calls are made and in whatever order they are refused. A call of
`ensure_range` for a range inside the blob returns with success, and its range is ready from then
on. -/
theorem calls_return (hfair : S.Fair TaskState.IsRunning)
    (hidle : ∀ t, (S.config 0).task t = .idle) (hempty : (S.config 0).shared.inflight = [])
    (hslots : (S.config 0).shared.slots.length = inst.rangeMap.slotCount)
    {call : Call} {offset len : ℕ} {pc : Pc}
    (ht : (S.config n).task t = .running call offset len pc) :
    ∃ m out, n ≤ m ∧ (∀ k, m ≤ k → (S.config k).task t = .returned call out) ∧
      ∀ o l, call = .ensureRange o l → o + l ≤ inst.blobSize → out = .ok ∧
        ∀ k, m ≤ k → inst.rangeMap.isRangeReady (S.config k).shared.slots o l = true := by
  have hwanted (n : ℕ) : inst.Wanted (S.config n) := by
    obtain ⟨ls, hrun⟩ := S.run (Nat.zero_le n)
    exact wanted_run hidle hempty hslots hrun
  have hcall (k : ℕ) (hk : n ≤ k) : ((S.config k).task t).callOf = some call :=
    TaskSystem.Schedule.stays (P := fun l => TaskState.callOf l = some call) (fun i e _ hmove hl =>
      callOf_step hl (TaskSystem.Schedule.step_of_move hmove).2) (by rw [ht]; rfl) hk
  obtain ⟨M, hfree⟩ := guards_end hfair hwanted hidle
  obtain ⟨m, hm, hended⟩ : ∃ m, n ≤ m ∧ ¬((S.config m).task t).IsRunning := by
    by_cases hrunning : ((S.config (max n M)).task t).IsRunning
    · obtain ⟨m, hm, hended⟩ :=
        returns_of_free hfair hwanted (fun i hi => hfree i (by omega)) hrunning
      exact ⟨m, by omega, hended⟩
    · exact ⟨max n M, by omega, hrunning⟩
  obtain ⟨out, hreturned⟩ := returned_of_callOf (hcall m hm) hended
  have hstays (k : ℕ) (hk : m ≤ k) : (S.config k).task t = .returned call out := by
    refine TaskSystem.Schedule.stays (S := S) (P := fun l => l = .returned call out)
      (fun i e _ hmove hl => ?_) hreturned hk
    have hstep : inst.step _ _ _ = some _ := (TaskSystem.Schedule.step_of_move hmove).2
    rw [hl] at hstep
    exact nomatch Effect.of_step hstep
  refine ⟨m, out, hm, hstays, ?_⟩
  rintro o l rfl hle
  have hanswered (k : ℕ) (hk : m ≤ k) : out = .ok ∧
      inst.rangeMap.isRangeReady (S.config k).shared.slots o l = true := by
    obtain ⟨ls, hrun⟩ := S.run (Nat.zero_le k)
    exact (ensureRange_answered hidle hslots (hrun.mono fun _ _ h => h.1) (hstays k hk)).1 hle
  exact ⟨(hanswered m le_rfl).1, fun k hk => (hanswered k hk).2⟩

end Schedules

/-- Two tasks of `smallInstance` ask for bytes of its one unit. The second one is refused, both
return, and then nothing happens. -/
theorem calls_return_smallInstance :
    ∃ (S : smallInstance.tasks.Schedule (Prompt fun _ => 7) ℕ) (n m : ℕ) (out : Outcome),
      S.Fair TaskState.IsRunning ∧ waitingRange ((S.config n).task 1) = some ⟨0, 3⟩ ∧
      (S.config n).shared.inflight = [⟨0, 3⟩] ∧
      ∀ k, m ≤ k → (S.config k).task 1 = .returned (.ensureRange 0 3) out := by
  let reading : TaskState := .running (.ensureRange 1 1) 1 1 (.holding ⟨0, 3⟩ .reading)
  let refused : TaskState := .running (.ensureRange 0 3) 0 3 (.reserving ⟨0, 3⟩)
  obtain ⟨d, hd⟩ : ∃ d : Disk, d = smallStart.shared.disk := ⟨_, rfl⟩
  obtain ⟨ls₁, hfirst⟩ : ∃ ls, smallInstance.tasks.Run (Prompt fun _ => 7) smallStart ls
      ⟨⟨d, [0], [⟨0, 3⟩]⟩, Function.update smallStart.task 0 reading⟩ := by
    refine ⟨[.call (.ensureRange 1 1), .check, .reserve, .recheck].map fun e => (0, e),
      TaskSystem.Run.of_solo ?_ (hd ▸ rfl)⟩
    exact .cons ⟨trivial, by simp⟩ rfl (.cons ⟨trivial, by simp⟩ rfl
      (.cons ⟨trivial, by simp⟩ rfl (.cons ⟨trivial, by simp⟩ rfl trivial)))
  obtain ⟨ls₂, hsecond⟩ : ∃ ls, smallInstance.tasks.Run (Prompt fun _ => 7)
      ⟨⟨d, [0], [⟨0, 3⟩]⟩, Function.update smallStart.task 0 reading⟩ ls
      ⟨⟨d, [0], [⟨0, 3⟩]⟩,
        Function.update (Function.update smallStart.task 0 reading) 1 refused⟩ := by
    refine ⟨[.call (.ensureRange 0 3), .check, .reserve].map fun e => (1, e),
      TaskSystem.Run.of_solo ?_ rfl⟩
    exact .cons ⟨trivial, by simp⟩ rfl (.cons ⟨trivial, by simp⟩ rfl
      (.cons ⟨trivial, by simp⟩ rfl trivial))
  obtain ⟨d', ls₃, hthird⟩ : ∃ d' ls, smallInstance.tasks.Run (Prompt fun _ => 7)
      ⟨⟨d, [0], [⟨0, 3⟩]⟩,
        Function.update (Function.update smallStart.task 0 reading) 1 refused⟩ ls
      ⟨⟨d', [1], []⟩, Function.update (Function.update
        (Function.update smallStart.task 0 reading) 1 refused) 0
          (.returned (.ensureRange 1 1) .ok)⟩ := by
    refine ⟨_, [.reply (.ok [7, 7, 7]), .wrote (.ok 2), .wrote (.ok 1), .marked (.ok 1), .fill,
      .release].map fun e => (0, e), TaskSystem.Run.of_solo ?_ rfl⟩
    exact .cons ⟨⟨_, rfl, rfl, SparseFile.agrees_slice (fun _ => 7) 0 3⟩, by simp⟩ rfl
      (.cons ⟨⟨_, rfl, by decide⟩, by simp⟩ rfl (.cons ⟨⟨_, rfl, by decide⟩, by simp⟩ rfl
        (.cons ⟨⟨_, rfl, by decide⟩, by simp⟩ rfl (.cons ⟨trivial, by simp⟩ rfl
          (.cons ⟨trivial, by simp⟩ rfl trivial)))))
  obtain ⟨ls₄, hfourth⟩ : ∃ ls, smallInstance.tasks.Run (Prompt fun _ => 7)
      ⟨⟨d', [1], []⟩, Function.update (Function.update
        (Function.update smallStart.task 0 reading) 1 refused) 0
          (.returned (.ensureRange 1 1) .ok)⟩ ls
      ⟨⟨d', [1], []⟩, Function.update (Function.update (Function.update
        (Function.update smallStart.task 0 reading) 1 refused) 0
          (.returned (.ensureRange 1 1) .ok)) 1 (.returned (.ensureRange 0 3) .ok)⟩ := by
    refine ⟨[.reserve, .recheck, .release].map fun e => (1, e), TaskSystem.Run.of_solo ?_ rfl⟩
    exact .cons ⟨trivial, by simp⟩ rfl (.cons ⟨trivial, by simp⟩ rfl
      (.cons ⟨trivial, by simp⟩ rfl trivial))
  obtain ⟨S, hstart, hmoves, hend⟩ :=
    (((hfirst.append hsecond).append hthird).append hfourth).exists_schedule
  have hmiddle := TaskSystem.Schedule.config_of_run (hfirst.append hsecond) hstart fun i hi => by
    rw [hmoves, List.append_assoc, List.getElem?_append_left hi]
  have hfair : S.Fair TaskState.IsRunning := by
    generalize (ls₁ ++ ls₂ ++ ls₃ ++ ls₄).length = N at hend
    refine TaskSystem.Schedule.Fair.of_inactive fun t n => ⟨max n N, le_max_left n N, ?_⟩
    rw [hend _ (le_max_right n N)]
    rcases t with _ | _ | t <;> exact id
  obtain ⟨m, out, -, hreturned, -⟩ := calls_return hfair (fun t => by rw [hstart]; rfl)
    (by rw [hstart]; rfl) (by rw [hstart]; rfl) (n := (ls₁ ++ ls₂).length) (t := 1)
    (by rw [hmiddle]; rfl)
  exact ⟨S, _, m, out, hfair, by rw [hmiddle]; rfl, by rw [hmiddle], hreturned⟩

end Instance

end Lazyd
