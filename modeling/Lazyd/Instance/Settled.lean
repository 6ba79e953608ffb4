import Lazyd.Instance.Inflight
import Lazyd.Instance.Frame

/-!
# Outstanding calls that have nothing left to write

A call of `ensure_range` that is under way does not write any more if it is past its write to the
bitmap file, or if every slot that its request touches is set or about to be set by a call that is
past its write to the bitmap file. The second check after the reservation finds such a request
ready, since the ranges in flight are disjoint. So the calls are settled for good once all of them
are, if no new ones come.

## Main definitions

* `Instance.Covered` : a slot that is set, or about to be set.
* `Instance.Done`, `Instance.Settled` : no outstanding call has anything left to write.

## Main results

* `Instance.covered_fire` : a covered slot stays covered.
* `Instance.settled_fire` : a step of settled calls writes nothing and leaves them settled.

Source: `src/instance.rs`, lines 229–261 and 321–335.
-/

namespace Lazyd

namespace Instance

open UnitPartition

/-- The call is in a write to the target or to the bitmap file. -/
def Writing : TaskState → Prop
  | .running _ _ _ (.holding _ (.writing _ _))
  | .running _ _ _ (.holding _ (.marking _ _ _)) => True
  | _ => False

/-- The call is about to set the slot in memory. -/
def FillsSlot (k : ℕ) : TaskState → Prop
  | .running _ _ _ (.holding _ (.filling slotStart slotEnd)) => slotStart ≤ k ∧ k < slotEnd
  | _ => False

variable (inst : Instance) {τ : Type*}

/-- The slot is set in memory, or a call is about to set it. -/
def Covered (c : TaskSystem.Config Shared TaskState τ) (k : ℕ) : Prop :=
  c.shared.slots.getD k 0 ≠ 0 ∨ ∃ t, FillsSlot k (c.task t)

/-- All slots that a request touches are covered. -/
def RequestCovered (c : TaskSystem.Config Shared TaskState τ) (offset len : ℕ) : Prop :=
  ∀ k, Touches inst.unitBytes offset (offset + len) k → Covered c k

/-- The call has nothing left to write to the target or to the bitmap file. -/
def Done (c : TaskSystem.Config Shared TaskState τ) : TaskState → Prop
  | .running _ offset len .entered =>
    0 < len → offset + len ≤ inst.blobSize → inst.RequestCovered c offset len
  | .running _ offset len (.reserving _) => inst.RequestCovered c offset len
  | .running _ offset len (.holding _ phase) =>
    match phase with
    | .recheck => inst.RequestCovered c offset len
    | .reading | .writing _ _ | .marking _ _ _ => False
    | .filling _ _ | .releasing _ => True
  | _ => True

/-- No outstanding call has anything left to write. -/
def Settled (c : TaskSystem.Config Shared TaskState τ) : Prop := ∀ t, inst.Done c (c.task t)

variable {inst} {c c' : TaskSystem.Config Shared TaskState τ} {t : τ} {e : Event}

/-! ### Covered slots -/

theorem lt_slotCount_of_fills {l : TaskState} {k : ℕ} (hl : inst.TaskShape l)
    (h : FillsSlot k l) : k < inst.rangeMap.slotCount := by
  unfold FillsSlot at h
  split at h
  · obtain ⟨-, ⟨hlen, hle, -⟩, rfl, rfl⟩ := hl
    exact touches_lt_slotCount hle h
  · exact h.elim

/-- A step sets slots or leaves them alone. -/
theorem fills_step {s s' : Shared} {l l' : TaskState} (h : inst.step s l e = some (s', l')) :
    (s'.slots = s.slots ∧ ∀ k, ¬FillsSlot k l) ∨
      ∃ slotStart slotEnd, s'.slots = fillSlots s.slots slotStart slotEnd 1 ∧
        ∀ k, FillsSlot k l ↔ slotStart ≤ k ∧ k < slotEnd := by
  cases Effect.of_step h with
  | fill => exact Or.inr ⟨_, _, rfl, fun _ => Iff.rfl⟩
  | _ => exact Or.inl ⟨rfl, fun _ hno => hno⟩

theorem getD_fillSlots_ne {slots : List UInt8} {slotStart slotEnd k : ℕ}
    (h : slots.getD k 0 ≠ 0) : (fillSlots slots slotStart slotEnd 1).getD k 0 ≠ 0 := by
  by_cases hin : slotStart ≤ k ∧ k < slotEnd
  · rw [getD_fillSlots_of_mem 1 (lt_length_of_getD_ne h) hin.1 hin.2]
    decide
  · rwa [getD_fillSlots_of_notMem _ _ hin]

/-- **A covered slot stays covered.** -/
theorem covered_fire [DecidableEq τ] (hshape : ∀ t, inst.TaskShape (c.task t))
    (hslots : c.shared.slots.length = inst.rangeMap.slotCount)
    (hfire : inst.tasks.fire c t e = some c') {k : ℕ} (h : Covered c k) : Covered c' k := by
  have hstep := TaskSystem.fire_step hfire
  rcases h with hset | ⟨u, hu⟩
  · rcases fills_step hstep with ⟨hsame, -⟩ | ⟨slotStart, slotEnd, hfill, -⟩
    · exact Or.inl (hsame ▸ hset)
    · rw [Covered, hfill]
      exact Or.inl (getD_fillSlots_ne hset)
  · by_cases hut : u = t
    · rw [hut] at hu
      rcases fills_step hstep with ⟨-, hno⟩ | ⟨slotStart, slotEnd, hfill, hfills⟩
      · exact absurd hu (hno k)
      · obtain ⟨hs, he⟩ := (hfills k).mp hu
        have hlt : k < c.shared.slots.length := by
          rw [hslots]
          exact lt_slotCount_of_fills (hshape t) hu
        rw [Covered, hfill, getD_fillSlots_of_mem 1 hlt hs he]
        exact Or.inl (by decide)
    · refine Or.inr ⟨u, ?_⟩
      rw [TaskSystem.fire_task_of_ne hfire hut]
      exact hu

theorem RequestCovered.mono {offset len : ℕ} (hcov : ∀ k, Covered c k → Covered c' k)
    (h : inst.RequestCovered c offset len) : inst.RequestCovered c' offset len :=
  fun k hk => hcov k (h k hk)

theorem Done.mono {l : TaskState} (hcov : ∀ k, Covered c k → Covered c' k)
    (h : inst.Done c l) : inst.Done c' l := by
  cases l with
  | idle | returned => trivial
  | running call offset len pc =>
    cases pc with
    | entered => exact fun hlen hle => (h hlen hle).mono hcov
    | reserving => exact RequestCovered.mono hcov h
    | cloning => trivial
    | holding range phase =>
      cases phase with
      | recheck => exact RequestCovered.mono hcov h
      | reading | writing | marking => exact h
      | filling | releasing => trivial

/-! ### Settled calls -/

/-- At the second check, a covered request is ready: a call that is about to set one of its slots
would have a range in flight that overlaps. -/
theorem isRangeReady_of_covered (hex : inst.Exclusive c)
    (hslots : c.shared.slots.length = inst.rangeMap.slotCount) {call : Call} {offset len : ℕ}
    {range : Range} (ht : c.task t = .running call offset len (.holding range .recheck))
    (h : inst.RequestCovered c offset len) :
    inst.rangeMap.isRangeReady c.shared.slots offset len = true := by
  have hshape := hex.shape t
  rw [ht] at hshape
  obtain ⟨-, ⟨hlen, hle, hrange⟩, -⟩ := hshape
  rw [RangeMap.isRangeReady_iff hslots, rangeMap_unitBytes, rangeMap_blobSize]
  refine Or.inr ⟨hle, fun k hk => ?_⟩
  rcases h k hk with hset | ⟨u, hu⟩
  · exact hset
  · exfalso
    have hut : t ≠ u := by
      rintro rfl
      rw [ht] at hu
      exact hu
    have hushape := hex.shape u
    unfold FillsSlot at hu
    split at hu
    · rename_i call' offset' len' range' slotStart slotEnd hl
      rw [hl] at hushape
      obtain ⟨-, ⟨hlen', hle', hrange'⟩, rfl, rfl⟩ := hushape
      have hdisj := hex.held_disjoint hut (r := range) (q := range') (by rw [ht]; rfl)
        (by rw [hl]; rfl)
      rw [hrange, hrange', positions_amplified hlen hle, positions_amplified hlen' hle'] at hdisj
      exact not_touches_of_disjoint inst.unitBytes_pos hle hdisj hk hu
    · exact hu

theorem done_finish (call : Call) (offset len : ℕ) (out : Outcome) :
    inst.Done c (finish call offset len out) := by
  rcases finish_ne_holding call offset len out with hf | ⟨-, hf⟩ <;>
  · rw [hf]
    trivial

/-- A step of a call that is done, with the call being done afterwards. -/
theorem done_step [DecidableEq τ] (hex : inst.Exclusive c)
    (hslots : c.shared.slots.length = inst.rangeMap.slotCount)
    (h : inst.Done c (c.task t)) (hidle : c.task t ≠ .idle)
    (hfire : inst.tasks.fire c t e = some c') :
    inst.Done c (c'.task t) ∧ c'.shared.disk = c.shared.disk := by
  have hshape := hex.shape t
  have hready {call : Call} {offset len : ℕ} {range : Range}
      (ht : c.task t = .running call offset len (.holding range .recheck)) :=
    isRangeReady_of_covered hex hslots ht
  have hstep : inst.Effect c.shared (c.task t) e c'.shared (c'.task t) :=
    Effect.of_step (TaskSystem.fire_step hfire)
  generalize c.task t = l at h hidle hshape hready hstep
  generalize c'.task t = l', c'.shared = s' at hstep
  cases hstep with
  | call => exact absurd rfl hidle
  | check call offset len =>
    refine ⟨?_, rfl⟩
    rcases firstCheck_cases c.shared.slots call offset len with
      ⟨err, hf⟩ | ⟨-, hf⟩ | ⟨hreq, -, hf⟩
    · rw [hf]
      exact done_finish _ _ _ _
    · rw [hf]
      exact done_finish _ _ _ _
    · rw [hf]
      exact h hreq.len_pos hreq.le_blobSize
  | refused | reserved => exact ⟨h, rfl⟩
  | recheck =>
    refine ⟨?_, rfl⟩
    rw [if_pos (hready rfl h)]
    trivial
  | reply | cancelReading | writeFailed | wrote | markRetry | markFailed | marked => exact h.elim
  | release => exact ⟨done_finish _ _ _ _, rfl⟩
  | cancelWaiting | fill | clone => exact ⟨trivial, rfl⟩

/-- **Settled calls stay settled**, and their steps write nothing, as long as no call is new. -/
theorem settled_fire [DecidableEq τ] (hex : inst.Exclusive c)
    (hslots : c.shared.slots.length = inst.rangeMap.slotCount) (h : inst.Settled c)
    (hidle : c.task t ≠ .idle) (hfire : inst.tasks.fire c t e = some c') :
    inst.Settled c' ∧ c'.shared.disk = c.shared.disk := by
  obtain ⟨hown, hdisk⟩ := done_step hex hslots (h t) hidle hfire
  refine ⟨fun u => ?_, hdisk⟩
  by_cases hu : u = t
  · rw [hu]
    exact hown.mono fun k => covered_fire hex.shape hslots hfire
  · rw [TaskSystem.fire_task_of_ne hfire hu]
    exact (h u).mono fun k => covered_fire hex.shape hslots hfire

theorem Settled.congr (h : inst.Settled c) (hslots : c'.shared.slots = c.shared.slots)
    (htask : c'.task = c.task) : inst.Settled c' := by
  intro u
  rw [htask]
  refine (h u).mono fun k hk => ?_
  rwa [Covered, hslots, htask]

theorem Done.not_writing {l : TaskState} (h : inst.Done c l) : ¬Writing l := by
  intro hl
  unfold Writing at hl
  split at hl
  · exact h
  · exact h
  · exact hl

theorem length_slots_step {s s' : Shared} {l l' : TaskState}
    (h : inst.step s l e = some (s', l')) : s'.slots.length = s.slots.length := by
  rcases fills_step h with ⟨hsame, -⟩ | ⟨slotStart, slotEnd, hfill, -⟩
  · rw [hsame]
  · rw [hfill, length_fillSlots]

end Instance

end Lazyd
