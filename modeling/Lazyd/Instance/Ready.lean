import Lazyd.Instance.Downloads
import Lazyd.Instance.Settled
import Lazyd.Instance.Soundness

/-!
# What is fetched stays fetched

When `ensure_range` returns `Ok`, to a caller of its own or to a fetch, the slots of the range are
set in memory, and no step of any call on the instance clears a slot. So any later call for a part
of the range ends at its first check, without a request to the remote and without a write.

## Main definitions

* `Instance.Has` : a range whose slots are set.
* `Instance.Grows` : no slot has been cleared.

## Main results

* `Instance.taskReady_step` : a step sets the slots of a range before its call returns `Ok`.
* `Instance.firstCheck_of_has` : a call for a range that is there ends at its first check.
* `Instance.ready_stays` : what has been answered stays ready, in every interleaving.
* `Instance.ready_solo` : the same for a call that runs alone.

Source: `src/instance.rs`, lines 229–305; `src/range_map.rs`, lines 100–110.
-/

namespace Lazyd

namespace Instance

open UnitPartition

variable (inst : Instance)

/-- The range is empty, or it is inside the blob and its slots are set. -/
def Has (slots : List UInt8) (offset len : ℕ) : Prop :=
  len = 0 ∨ offset + len ≤ inst.blobSize ∧
    ∀ k, Touches inst.unitBytes offset (offset + len) k → slots.getD k 0 ≠ 0

/-- No slot has been cleared. -/
def Grows (slots slots' : List UInt8) : Prop := ∀ k, slots.getD k 0 ≠ 0 → slots'.getD k 0 ≠ 0

/-- What a task knows about the slots in memory. -/
def TaskReady (slots : List UInt8) : TaskState → Prop
  | .running _ offset len (.holding _ (.releasing out)) => out = .ok → inst.Has slots offset len
  | .running _ offset len .cloning => inst.Has slots offset len
  | .returned call out =>
    out = .ok → inst.Has slots call.offset (call.endPos inst - call.offset)
  | _ => True

variable {inst} {slots slots' : List UInt8}

theorem grows_refl (slots : List UInt8) : Grows slots slots := fun _ h => h

theorem Grows.trans {slots'' : List UInt8} (h : Grows slots slots') (h' : Grows slots' slots'') :
    Grows slots slots'' := fun k hk => h' k (h k hk)

theorem has_iff_isRangeReady (hslots : slots.length = inst.rangeMap.slotCount) (offset len : ℕ) :
    inst.Has slots offset len ↔ inst.rangeMap.isRangeReady slots offset len = true := by
  rw [RangeMap.isRangeReady_iff hslots, rangeMap_blobSize, rangeMap_unitBytes]
  rfl

theorem Has.mono {offset len : ℕ} (h : inst.Has slots offset len) (hgrows : Grows slots slots') :
    inst.Has slots' offset len := by
  rcases h with hzero | ⟨hle, hslots⟩
  · exact Or.inl hzero
  · exact Or.inr ⟨hle, fun k hk => hgrows k (hslots k hk)⟩

theorem Has.part {offset len offset' len' : ℕ} (h : inst.Has slots offset len)
    (hoffset : offset ≤ offset') (hend : offset' + len' ≤ offset + len) :
    inst.Has slots offset' len' := by
  rcases h with rfl | ⟨hle, hslots⟩
  · exact Or.inl (by omega)
  · refine Or.inr ⟨hend.trans hle, fun k hk => hslots k ?_⟩
    exact ⟨(Nat.div_le_div_right hoffset).trans hk.1,
      hk.2.trans_le (ceilDiv_mono inst.unitBytes_pos hend)⟩

theorem TaskReady.mono {l : TaskState} (h : inst.TaskReady slots l) (hgrows : Grows slots slots') :
    inst.TaskReady slots' l := by
  cases l with
  | idle => trivial
  | running call offset len pc =>
    cases pc with
    | entered | reserving => trivial
    | cloning => exact Has.mono h hgrows
    | holding range phase =>
      cases phase with
      | releasing out => exact fun hout => (h hout).mono hgrows
      | _ => trivial
  | returned call out => exact fun hout => (h hout).mono hgrows

/-! ### Steps -/

theorem taskReady_finish {call : Call} {offset len : ℕ} {out : Outcome}
    (hargs : inst.CallArgs call offset len) (h : out = .ok → inst.Has slots offset len) :
    inst.TaskReady slots (finish call offset len out) := by
  obtain ⟨rfl, hend⟩ := hargs
  rcases finish_ne_holding call call.offset len out with hf | ⟨hok, hf⟩
  · rw [hf]
    intro hok
    have hlen : call.endPos inst - call.offset = len := by omega
    rw [hlen]
    exact h hok
  · rw [hf]
    exact h hok

theorem grows_step {s s' : Shared} {l l' : TaskState} {e : Event}
    (h : inst.step s l e = some (s', l')) : Grows s.slots s'.slots := by
  intro k hk
  rcases fills_step h with ⟨hsame, -⟩ | ⟨slotStart, slotEnd, hfill, -⟩
  · rwa [hsame]
  · rw [hfill]
    exact getD_fillSlots_ne hk

/-- **The step lemma.** The slots of a range are set before its call returns `Ok`. -/
theorem taskReady_step {s s' : Shared} {l l' : TaskState} {e : Event}
    (hslots : s.slots.length = inst.rangeMap.slotCount) (hshape : inst.TaskShape l)
    (hl : inst.TaskReady s.slots l) (h : inst.step s l e = some (s', l')) :
    inst.TaskReady s'.slots l' := by
  cases Effect.of_step h with
  | call call =>
    cases call with
    | ensureRange => trivial
    | prepareFetchRange offset len pageSize =>
      rw [enter]
      split
      · exact fun hout => absurd hout (by simp)
      · trivial
  | check call offset len =>
    rcases firstCheck_cases s.slots call offset len with ⟨err, hf⟩ | ⟨hready, hf⟩ | ⟨-, -, hf⟩
    · rw [hf]
      exact taskReady_finish hshape.1 fun hout => absurd hout (by simp)
    · rw [hf]
      refine taskReady_finish hshape.1 fun _ => ?_
      rw [has_iff_isRangeReady hslots]
      rcases hready with rfl | ⟨-, hready⟩
      · exact (RangeMap.isRangeReady_iff hslots _ _).mpr (Or.inl rfl)
      · exact hready
    · rw [hf]
      trivial
  | refused | reserved => trivial
  | cancelWaiting => exact fun hout => absurd hout (by simp)
  | recheck call offset len range =>
    split_ifs with hready
    · exact fun _ => (has_iff_isRangeReady hslots _ _).mpr hready
    · trivial
  | reply call offset len range res =>
    cases res with
    | error err => exact fun hout => absurd hout (by simp)
    | ok bytes =>
      rw [received]
      split_ifs with hbytes
      · exact fun hout => absurd hout (by simp)
      · rw [afterWrite]
        split_ifs
        · trivial
        · rw [startMark_requested hshape.2.1]
          trivial
  | cancelReading => exact fun hout => absurd hout (by simp)
  | writeFailed => exact fun hout => absurd hout (by simp)
  | wrote call offset len range bytes written n hn hle =>
    rw [afterWrite]
    split_ifs
    · trivial
    · rw [startMark_requested hshape.2.1]
      trivial
  | markRetry => trivial
  | markFailed => exact fun hout => absurd hout (by simp)
  | marked call offset len range slotStart slotEnd done n hn hle =>
    rw [afterMark]
    split_ifs <;> trivial
  | fill call offset len range slotStart slotEnd =>
    -- the slots that are set are those of the request
    obtain ⟨-, hreq, hbounds⟩ := hshape
    obtain ⟨rfl, rfl⟩ := hbounds
    refine fun _ => Or.inr ⟨hreq.le_blobSize, fun k hk => ?_⟩
    have hlt : k < s.slots.length := by
      rw [hslots]
      exact touches_lt_slotCount hreq.le_blobSize hk
    change (fillSlots s.slots _ _ 1).getD k 0 ≠ 0
    rw [getD_fillSlots_of_mem 1 hlt hk.1 hk.2]
    decide
  | release call offset len range out => exact taskReady_finish hshape.1 hl
  | clone call offset len res out hcancel hok =>
    obtain ⟨⟨hoffset, hend⟩, -⟩ := hshape
    intro _
    have hlen : call.endPos inst - call.offset = len := by omega
    rw [hlen, ← hoffset]
    exact hl

/-- A call for a range that is there ends at its first check. -/
theorem firstCheck_of_has (hslots : slots.length = inst.rangeMap.slotCount) (call : Call)
    {offset len : ℕ} (h : inst.Has slots offset len) :
    inst.firstCheck slots call offset len = finish call offset len .ok := by
  rcases Nat.eq_zero_or_pos len with rfl | hlen
  · exact if_pos rfl
  · have hle : offset + len ≤ inst.blobSize := by
      rcases h with hzero | ⟨hle, -⟩
      · exact absurd hzero hlen.ne'
      · exact hle
    rw [firstCheck_inside slots call hlen hle, if_pos ((has_iff_isRangeReady hslots _ _).mp h)]

/-! ### Runs -/

/-- Nobody clears a slot, and every task knows what it knows. -/
theorem ready_run {τ : Type*} [DecidableEq τ] {ok : TaskState → Event → Prop}
    {c₀ c : TaskSystem.Config Shared TaskState τ} {ls : List (τ × Event)}
    (hslots : c₀.shared.slots.length = inst.rangeMap.slotCount)
    (hready : ∀ t, inst.TaskShape (c₀.task t) ∧ inst.TaskReady c₀.shared.slots (c₀.task t))
    (h : inst.tasks.Run ok c₀ ls c) :
    (c.shared.slots.length = inst.rangeMap.slotCount ∧
      ∀ t, inst.TaskShape (c.task t) ∧ inst.TaskReady c.shared.slots (c.task t)) ∧
    Grows c₀.shared.slots c.shared.slots :=
  h.rely_trans (I := fun s => s.slots.length = inst.rangeMap.slotCount)
    (L := fun s l => inst.TaskShape l ∧ inst.TaskReady s.slots l)
    (R := fun s s' => Grows s.slots s'.slots) (fun s => grows_refl s.slots)
    (fun _ _ _ => Grows.trans) hslots hready
    (fun _ _ _ _ _ hI hL _ hstep => ⟨(length_slots_step hstep).trans hI,
      ⟨taskShape_step hL.1 hstep, taskReady_step hI hL.1 hL.2 hstep⟩, grows_step hstep⟩)
    (fun _ _ _ hgrows hL => ⟨hL.1, hL.2.mono hgrows⟩)

/-- **What has been answered stays ready.** Any number of calls run on an instance, interleaved in
any way, with any failures and cancellations. Once `ensure_range` has returned `Ok` for a range, to
a caller of its own or to a fetch, any call that enters `ensure_range` for a part of that range
later does nothing but its first check, which succeeds: nothing is asked of the remote, nothing is
written, and the call does not wait for another one. -/
theorem ready_stays {τ : Type*} [DecidableEq τ] {ok ok' : TaskState → Event → Prop}
    {c₀ c c' : TaskSystem.Config Shared TaskState τ} {ls ls' : List (τ × Event)}
    (hslots : c₀.shared.slots.length = inst.rangeMap.slotCount) (hidle : ∀ t, c₀.task t = .idle)
    (h : inst.tasks.Run ok c₀ ls c) (h' : inst.tasks.Run ok' c ls' c') {t u : τ} {call : Call}
    {o l offset len : ℕ} (hret : EnsureReturnedOk o l (c.task t))
    (hcall : c'.task u = .running call offset len .entered) (hoffset : o ≤ offset)
    (hend : offset + len ≤ o + l) :
    ∀ e s' l', inst.step c'.shared (c'.task u) e = some (s', l') →
      e = .check ∧ s' = c'.shared ∧ l' = finish call offset len .ok := by
  obtain ⟨⟨hlength, htasks⟩, -⟩ := ready_run hslots
    (fun v => by rw [hidle v]; exact ⟨trivial, trivial⟩) h
  obtain ⟨⟨hlength', -⟩, hgrows⟩ := ready_run hlength htasks h'
  -- the slots of the range are set when the call returns
  have hhas : inst.Has c.shared.slots o l := by
    have hready := (htasks t).2
    unfold EnsureReturnedOk at hret
    split at hret
    · rename_i hreturned
      obtain ⟨rfl, rfl⟩ := hret
      rw [hreturned] at hready
      have hhas := hready rfl
      rwa [Call.offset, Call.endPos, Nat.add_sub_cancel_left] at hhas
    · rename_i hcloning
      obtain ⟨rfl, rfl⟩ := hret
      rw [hcloning] at hready
      exact hready
    · exact hret.elim
  have hpart := (hhas.part hoffset hend).mono hgrows
  intro e s' l' hstep
  rw [hcall] at hstep
  cases Effect.of_step hstep with
  | check => exact ⟨rfl, rfl, firstCheck_of_has hlength' call hpart⟩

/-- The range of a fetch is there, and it is fetched again: the remote is not asked. -/
theorem ready_stays_smallInstance : ∃ c c' ls ls',
    smallInstance.tasks.Run (Honest fun _ => 7) smallStart ls c ∧
    smallInstance.tasks.Run (Honest fun _ => 7) c ls' c' ∧
    EnsureReturnedOk 0 3 (c.task 0) ∧
    ∀ e s' l', smallInstance.step c'.shared (c'.task 1) e = some (s', l') →
      e = .check ∧ s' = c'.shared ∧ l' = .returned (.ensureRange 1 2) .ok := by
  obtain ⟨s, hs⟩ : ∃ s, smallInstance.tasks.solo smallStart.shared (smallStart.task 0)
      [.call (.prepareFetchRange 0 4096 4096), .check, .reserve, .recheck, .reply (.ok [7, 7, 7]),
        .wrote (.ok 3), .marked (.ok 1), .fill, .release] =
      some (s, .running (.prepareFetchRange 0 4096 4096) 0 3 .cloning) := ⟨_, rfl⟩
  obtain ⟨c, ls, hrun, hret, hidle⟩ : ∃ c ls, smallInstance.tasks.Run (Honest fun _ => 7) smallStart
      ls c ∧ c.task 0 = .running (.prepareFetchRange 0 4096 4096) 0 3 .cloning ∧
      c.task 1 = .idle := by
    refine ⟨_, _, .of_solo (soloOk_honest (b := 7) (by simp) _ _) hs, ?_, ?_⟩
    · simp only [Function.update_self]
    · simp only [ne_eq, one_ne_zero, not_false_eq_true, Function.update_of_ne, smallStart]
  have hok : smallInstance.tasks.SoloOk (Honest fun _ => 7) c.shared (c.task 1)
      [.call (.ensureRange 1 2)] := soloOk_honest (by simp) _ _
  have hagain : smallInstance.tasks.solo c.shared (c.task 1) [.call (.ensureRange 1 2)] =
      some (c.shared, .running (.ensureRange 1 2) 1 2 .entered) := by
    rw [hidle]
    rfl
  have hreturned : EnsureReturnedOk 0 3 (c.task 0) := by
    rw [hret]
    exact ⟨rfl, rfl⟩
  have hrun' := TaskSystem.Run.of_solo hok hagain
  exact ⟨c, _, ls, _, hrun, hrun', hreturned, ready_stays rfl (fun _ => rfl) hrun hrun' hreturned
    (Function.update_self _ _ _) (by decide) (by decide)⟩

/-! ### A call alone -/

/-- A call that runs alone clears no slot, and the slots of its range are set when it returns
`Ok`. -/
theorem ready_solo {s s' : Shared} {call : Call} {out : Outcome} {es : List Event}
    (hslots : s.slots.length = inst.rangeMap.slotCount)
    (h : inst.tasks.solo s .idle es = some (s', .returned call out)) :
    s'.slots.length = inst.rangeMap.slotCount ∧ Grows s.slots s'.slots ∧
      (out = .ok → inst.Has s'.slots call.offset (call.endPos inst - call.offset)) := by
  obtain ⟨hlength, ⟨-, hready⟩, hgrows⟩ := TaskSystem.solo_rely
    (I := fun s => s.slots.length = inst.rangeMap.slotCount)
    (L := fun s l => inst.TaskShape l ∧ inst.TaskReady s.slots l)
    (R := fun s s' => Grows s.slots s'.slots) (fun s => grows_refl s.slots)
    (fun _ _ _ => Grows.trans)
    (fun _ _ _ _ _ hI hL _ hstep => ⟨(length_slots_step hstep).trans hI,
      ⟨taskShape_step hL.1 hstep, taskReady_step hI hL.1 hL.2 hstep⟩, grows_step hstep⟩)
    hslots (⟨trivial, trivial⟩ : inst.TaskShape TaskState.idle ∧
      inst.TaskReady s.slots TaskState.idle) (TaskSystem.soloOk_true s TaskState.idle es) h
  exact ⟨hlength, hgrows, hready⟩

theorem solo_returned {s s' : Shared} {call : Call} {out : Outcome} {l' : TaskState}
    {es : List Event} (h : inst.tasks.solo s (.returned call out) es = some (s', l')) :
    es = [] ∧ s' = s ∧ l' = .returned call out := by
  cases es with
  | nil =>
    obtain ⟨rfl, rfl⟩ := Prod.mk.inj (Option.some.inj h)
    exact ⟨rfl, rfl, rfl⟩
  | cons e es =>
    obtain ⟨s₁, l₁, hstep, -⟩ := TaskSystem.solo_cons_eq_some.mp h
    exact absurd hstep (by simp [tasks, step])

/-- A call of `ensure_range` for a range that is there returns after its first check. -/
theorem ensureRange_check {s : Shared} {offset len : ℕ}
    (hslots : s.slots.length = inst.rangeMap.slotCount) (hhas : inst.Has s.slots offset len) :
    inst.tasks.solo s .idle [.call (.ensureRange offset len), .check] =
      some (s, .returned (.ensureRange offset len) .ok) := by
  refine TaskSystem.solo_cons_eq_some.mpr ⟨s, _, rfl, TaskSystem.solo_cons_eq_some.mpr
    ⟨s, inst.firstCheck s.slots (.ensureRange offset len) offset len, rfl, ?_⟩⟩
  rw [firstCheck_of_has hslots _ hhas]
  rfl

/-- It does nothing else. -/
theorem ensureRange_of_has {s s' : Shared} {call : Call} {out : Outcome} {es : List Event}
    {offset len : ℕ} (hslots : s.slots.length = inst.rangeMap.slotCount)
    (hhas : inst.Has s.slots offset len)
    (h : inst.tasks.solo s .idle (.call (.ensureRange offset len) :: es) =
      some (s', .returned call out)) : es = [.check] ∧ s' = s ∧ out = .ok := by
  obtain ⟨s₁, l₁, hcall, hrest⟩ := TaskSystem.solo_cons_eq_some.mp h
  obtain ⟨rfl, rfl⟩ := Prod.mk.inj (Option.some.inj hcall)
  cases es with
  | nil => exact absurd hrest (by simp [TaskSystem.solo, enter])
  | cons e es =>
    obtain ⟨s₂, l₂, hcheck, hend⟩ := TaskSystem.solo_cons_eq_some.mp hrest
    cases Effect.of_step hcheck with
    | check =>
      rw [firstCheck_of_has hslots _ hhas] at hend
      obtain ⟨rfl, rfl, hout⟩ := solo_returned hend
      exact ⟨rfl, rfl, (TaskState.returned.inj hout).2⟩

end Instance

end Lazyd
