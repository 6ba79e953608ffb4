import Lazyd.Instance.Inflight

/-!
# Every successful fetch makes a slot ready

A task reads from the remote only after it has found, with its reservation in hand, a slot of its
request that is not ready. No other task can mark that slot before it: it would need a reservation
that contains the slot, and reservations are disjoint. So the slot is not ready until the task marks
it itself, and every fetch that succeeds makes at least one more slot ready. The number of slots
bounds the number of fetches.

## Main definitions

* `Instance.fetching` : the request of a task that reads, writes or marks.
* `Instance.Event.isFill` : the step with which a fetch succeeds.
* `Instance.Wanted` : the invariant.

## Main results

* `Instance.unready_fire` : a slot inside a reserved range is marked by the holder alone.
* `Instance.wanted_run` : every task that fetches has a slot that is not ready.
* `Instance.downloads_bounded` : the number of successful fetches.

Source: `src/instance.rs`, lines 245–261; `src/range_map.rs`, lines 100–148.
-/

namespace Lazyd

namespace Instance

open UnitPartition

/-- Between the decision to read from the remote and the update of the slots. -/
def Phase.isFetching : Phase → Bool
  | .reading | .writing .. | .marking .. | .filling .. => true
  | .recheck | .releasing _ => false

/-- The request of a task that fetches. -/
def fetching : TaskState → Option (ℕ × ℕ)
  | .running _ offset len (.holding _ phase) =>
    if phase.isFetching then some (offset, len) else none
  | _ => none

/-- The guard is about to be dropped with success. -/
def succeeded : TaskState → Bool
  | .running _ _ _ (.holding _ phase) => decide (phase = .releasing .ok)
  | _ => false

/-- The step with which a fetch succeeds. -/
def Event.isFill : Event → Bool
  | .fill => true
  | _ => false

/-- The step that drops a guard. -/
def Event.isRelease : Event → Bool
  | .release => true
  | _ => false

variable {inst : Instance}

/-! ### Facts about one task -/

theorem fetching_eq_some {l : TaskState} {offset len : ℕ} (h : fetching l = some (offset, len)) :
    ∃ call range phase, l = .running call offset len (.holding range phase) ∧
      phase.isFetching = true := by
  unfold fetching at h
  split at h
  · split_ifs at h with hphase
    obtain ⟨rfl, rfl⟩ := Prod.mk.inj (Option.some.inj h)
    exact ⟨_, _, _, rfl, hphase⟩
  · exact absurd h (by simp)

theorem fetching_of_not_holding {l : TaskState} (h : heldRange l = none) : fetching l = none := by
  unfold fetching
  split
  · exact absurd h (by simp [heldRange])
  · rfl

/-- A task that goes on to fetch was fetching before, or it has just found a slot that is not
ready. -/
theorem fetching_step {s s' : Shared} {l l' : TaskState} {e : Event} {offset len : ℕ}
    (h : inst.step s l e = some (s', l')) (hf : fetching l' = some (offset, len)) :
    s'.slots = s.slots ∧ (fetching l = some (offset, len) ∨
      inst.rangeMap.isRangeReady s.slots offset len = false) := by
  cases Effect.of_step h with
  | call call =>
    rw [fetching_of_not_holding (heldRange_enter call)] at hf
    exact absurd hf (by simp)
  | check call offset len =>
    rw [fetching_of_not_holding (heldRange_firstCheck _ _ _ _)] at hf
    exact absurd hf (by simp)
  | release call offset len range out =>
    rw [fetching_of_not_holding (heldRange_finish call offset len out)] at hf
    exact absurd hf (by simp)
  | recheck call offset len range =>
    obtain ⟨call', range', phase, heq, hphase⟩ := fetching_eq_some hf
    obtain ⟨rfl, rfl, rfl, hpc⟩ := TaskState.running.inj heq
    obtain ⟨rfl, rfl⟩ := Pc.holding.inj hpc
    split_ifs at hphase with hready
    · exact absurd hphase (by simp [Phase.isFetching])
    · exact ⟨rfl, Or.inr (Bool.eq_false_iff.mpr hready)⟩
  | reply call offset len range res =>
    obtain ⟨call', range', phase, heq, -⟩ := fetching_eq_some hf
    obtain ⟨rfl, rfl, rfl, -⟩ := TaskState.running.inj heq
    exact ⟨rfl, Or.inl rfl⟩
  | wrote call offset len range bytes written n hn hle =>
    obtain ⟨call', range', phase, heq, -⟩ := fetching_eq_some hf
    obtain ⟨rfl, rfl, rfl, -⟩ := TaskState.running.inj heq
    exact ⟨rfl, Or.inl rfl⟩
  | markRetry => exact ⟨rfl, Or.inl hf⟩
  | marked call offset len range slotStart slotEnd done n hn hle =>
    obtain ⟨call', range', phase, heq, -⟩ := fetching_eq_some hf
    obtain ⟨rfl, rfl, rfl, -⟩ := TaskState.running.inj heq
    exact ⟨rfl, Or.inl rfl⟩
  | refused => exact absurd hf (by simp [fetching])
  | reserved => exact absurd hf (by simp [fetching, Phase.isFetching])
  | cancelWaiting => exact absurd hf (by simp [fetching])
  | cancelReading => exact absurd hf (by simp [fetching, Phase.isFetching])
  | writeFailed => exact absurd hf (by simp [fetching, Phase.isFetching])
  | markFailed => exact absurd hf (by simp [fetching, Phase.isFetching])
  | fill => exact absurd hf (by simp [fetching, Phase.isFetching])
  | clone => exact absurd hf (by simp [fetching])

/-- Only filling changes the slots in memory: those of the task's own request. -/
theorem slots_step {s s' : Shared} {l l' : TaskState} {e : Event} (hl : inst.TaskShape l)
    (h : inst.step s l e = some (s', l')) :
    (s'.slots = s.slots ∧ e.isFill = false) ∨
    ∃ offset len, fetching l = some (offset, len) ∧ e.isFill = true ∧
      inst.Requested offset len (inst.amplified offset len) ∧
      heldRange l = some (inst.amplified offset len) ∧
      s'.slots = fillSlots s.slots (offset / inst.unitBytes) ((offset + len) ⌈/⌉ inst.unitBytes)
        1 := by
  cases Effect.of_step h with
  | fill call offset len range slotStart slotEnd =>
    obtain ⟨-, ⟨hlen, hle, rfl⟩, rfl, rfl⟩ := hl
    exact Or.inr ⟨offset, len, rfl, rfl, ⟨hlen, hle, rfl⟩, rfl, rfl⟩
  | _ => exact Or.inl ⟨rfl, rfl⟩

theorem afterWrite_ne_ok {offset len : ℕ} {range : Range} (h : inst.Requested offset len range)
    (bytes : List UInt8) (written : ℕ) :
    inst.afterWrite range bytes written ≠ .releasing .ok := by
  rw [afterWrite]
  split_ifs
  · simp
  · rw [startMark_requested h]
    simp

theorem fill_of_succeeded {s s' : Shared} {l l' : TaskState} {e : Event} (hl : inst.TaskShape l)
    (hf : (fetching l).isSome = true) (h : inst.step s l e = some (s', l'))
    (hok : succeeded l' = true) : e.isFill = true := by
  cases Effect.of_step h with
  | fill => rfl
  | reply call offset len range res =>
    have hphase : inst.received range res = .releasing .ok := of_decide_eq_true hok
    cases res with
    | error err => exact absurd hphase (by simp [received])
    | ok bytes =>
      rw [received] at hphase
      split_ifs at hphase with hlen
      · exact absurd hphase (by simp)
      · exact absurd hphase (afterWrite_ne_ok hl.2.1 bytes 0)
  | wrote call offset len range bytes written n hn hle =>
    exact absurd (of_decide_eq_true hok) (afterWrite_ne_ok hl.2.1 bytes _)
  | marked call offset len range slotStart slotEnd done n hn hle =>
    have hphase : afterMark slotStart slotEnd (done + n) = .releasing .ok := of_decide_eq_true hok
    rw [afterMark] at hphase
    split_ifs at hphase
  | markRetry | markFailed | writeFailed | cancelReading =>
    exact absurd hok (by simp [succeeded])
  | call | check | refused | reserved | cancelWaiting | recheck | release | clone =>
    exact absurd hf (by simp [fetching, Phase.isFetching])

/-- A range that is not ready touches a slot that is not. -/
theorem exists_unready {slots : List UInt8} (hslots : slots.length = inst.rangeMap.slotCount)
    {offset len : ℕ} (h : offset + len ≤ inst.blobSize)
    (hready : inst.rangeMap.isRangeReady slots offset len = false) :
    ∃ k, Touches inst.unitBytes offset (offset + len) k ∧ slots.getD k 0 = 0 := by
  rw [← Bool.not_eq_true, RangeMap.isRangeReady_iff hslots, rangeMap_blobSize, rangeMap_unitBytes,
    not_or, not_and] at hready
  have hall := hready.2 h
  push Not at hall
  exact hall

/-- The start of a slot of a request is in the amplified range. -/
theorem start_mem_amplified {offset len k : ℕ} {range : Range}
    (h : inst.Requested offset len range)
    (hk : Touches inst.unitBytes offset (offset + len) k) :
    k * inst.unitBytes ∈ range.positions := by
  obtain ⟨hlen, hle, rfl⟩ := h
  rw [positions_amplified hlen hle, mem_outward_iff inst.unitBytes_pos,
    Nat.mul_div_cancel _ inst.unitBytes_pos]
  exact ⟨hk, lt_of_lt_of_le ((lt_ceilDiv_iff inst.unitBytes_pos).mp hk.2) hle⟩

theorem held_of_fetching {l : TaskState} {offset len : ℕ} (hl : inst.TaskShape l)
    (hf : fetching l = some (offset, len)) :
    ∃ range, heldRange l = some range ∧ inst.Requested offset len range := by
  obtain ⟨call, range, phase, rfl, -⟩ := fetching_eq_some hf
  exact ⟨range, rfl, hl.2.1⟩

/-! ### The invariant -/

section Runs

variable {τ : Type*} [DecidableEq τ]

variable (inst) in
/-- Every task that fetches wants a slot that is not ready. -/
structure Wanted (c : TaskSystem.Config Shared TaskState τ) : Prop where
  exclusive : inst.Exclusive c
  length_slots : c.shared.slots.length = inst.rangeMap.slotCount
  unready : ∀ t offset len, fetching (c.task t) = some (offset, len) →
    ∃ k, Touches inst.unitBytes offset (offset + len) k ∧ c.shared.slots.getD k 0 = 0

variable {ok : TaskState → Event → Prop} {c₀ c c' : TaskSystem.Config Shared TaskState τ}
  {ls : List (τ × Event)}

/-- A slot that starts in the range of a guard is marked by the holder of the guard alone. -/
theorem unready_fire (h : inst.Exclusive c) {t u : τ} {e : Event} {r : Range} {k : ℕ}
    (ht : heldRange (c.task t) = some r) (hk : k * inst.unitBytes ∈ r.positions)
    (hzero : c.shared.slots.getD k 0 = 0) (hfire : inst.tasks.fire c u e = some c')
    (hother : u = t → e.isFill = false) : c'.shared.slots.getD k 0 = 0 := by
  obtain ⟨s', l', hstep, rfl⟩ := TaskSystem.fire_eq_some.mp hfire
  change s'.slots.getD k 0 = 0
  rcases slots_step (h.shape u) hstep with
    ⟨hslots, -⟩ | ⟨offset, len, -, hfill, hreq, hu, hslots⟩
  · rwa [hslots]
  · have hut : u ≠ t := fun hut => absurd (hother hut) (by rw [hfill]; simp)
    rw [hslots, getD_fillSlots_of_notMem _ _ ?_]
    · exact hzero
    · intro htouch
      exact Set.disjoint_left.mp (h.held_disjoint hut hu ht) (start_mem_amplified hreq htouch) hk

theorem Wanted.fire (h : inst.Wanted c) {t : τ} {e : Event}
    (hfire : inst.tasks.fire c t e = some c') : inst.Wanted c' := by
  have hfire₀ := hfire
  obtain ⟨s', l', hstep, rfl⟩ := TaskSystem.fire_eq_some.mp hfire
  refine ⟨h.exclusive.fire hfire, ?_, fun u offset len hf => ?_⟩
  · change s'.slots.length = _
    rcases slots_step (h.exclusive.shape t) hstep with ⟨hslots, -⟩ | ⟨_, _, -, -, -, -, hslots⟩
    · rw [hslots, h.length_slots]
    · rw [hslots, length_fillSlots, h.length_slots]
  · change fetching (Function.update c.task t l' u) = some (offset, len) at hf
    by_cases hu : u = t
    · -- the task's own step: it fetched before, or its second check has just failed
      subst hu
      rw [Function.update_self] at hf
      obtain ⟨hslots, hold | hready⟩ := fetching_step hstep hf
      · obtain ⟨k, hk, hzero⟩ := h.unready u offset len hold
        exact ⟨k, hk, (congrArg (fun slots => slots.getD k 0) hslots).trans hzero⟩
      · obtain ⟨range, -, hreq⟩ := held_of_fetching
          (taskShape_step (h.exclusive.shape u) hstep) hf
        obtain ⟨k, hk, hzero⟩ := exists_unready h.length_slots hreq.le_blobSize hready
        exact ⟨k, hk, (congrArg (fun slots => slots.getD k 0) hslots).trans hzero⟩
    · -- the step of another task: it marks no slot inside the range of `u`
      rw [Function.update_of_ne hu] at hf
      obtain ⟨k, hk, hzero⟩ := h.unready u offset len hf
      obtain ⟨range, hheld, hreq⟩ := held_of_fetching (h.exclusive.shape u) hf
      exact ⟨k, hk, unready_fire h.exclusive hheld (start_mem_amplified hreq hk) hzero hfire₀
        fun htu => absurd htu.symm hu⟩

theorem wanted_run (hidle : ∀ t, c₀.task t = .idle) (hempty : c₀.shared.inflight = [])
    (hslots : c₀.shared.slots.length = inst.rangeMap.slotCount)
    (hrun : inst.tasks.Run ok c₀ ls c) : inst.Wanted c := by
  refine hrun.invariant (I := inst.Wanted) ⟨?_, hslots, ?_⟩ fun c t e c' h _ hfire => h.fire hfire
  · exact exclusive_run hidle hempty (.nil : inst.tasks.Run ok c₀ [] c₀)
  · intro t offset len hf
    rw [hidle t] at hf
    exact absurd hf (by simp [fetching])

/-- Filling makes at least one more slot ready, and no step makes a slot unready. -/
theorem Wanted.readyCount_fire (h : inst.Wanted c) {t : τ} {e : Event}
    (hfire : inst.tasks.fire c t e = some c') :
    readyCount c.shared.slots ≤ readyCount c'.shared.slots ∧
      (e.isFill = true → readyCount c.shared.slots < readyCount c'.shared.slots) := by
  obtain ⟨s', l', hstep, rfl⟩ := TaskSystem.fire_eq_some.mp hfire
  change readyCount c.shared.slots ≤ readyCount s'.slots ∧
    (e.isFill = true → readyCount c.shared.slots < readyCount s'.slots)
  rcases slots_step (h.exclusive.shape t) hstep with
    ⟨hslots, hfill⟩ | ⟨offset, len, hf, -, hreq, -, hslots⟩
  · rw [hslots, hfill]
    exact ⟨le_rfl, fun hfalse => absurd hfalse Bool.false_ne_true⟩
  · obtain ⟨k, hk, hzero⟩ := h.unready t offset len hf
    have hlt : k < c.shared.slots.length :=
      h.length_slots.symm ▸ touches_lt_slotCount hreq.le_blobSize hk
    obtain ⟨hle, hincr⟩ := readyCount_fillSlots c.shared.slots (offset / inst.unitBytes)
      ((offset + len) ⌈/⌉ inst.unitBytes) k (by decide : (1 : UInt8) ≠ 0)
    rw [hslots]
    exact ⟨hle, fun _ => hincr hlt hk.1 hk.2 hzero⟩

/-- A slot that starts in the range of a guard stays as it is until the holder of the guard marks
its slots or drops the guard. -/
theorem unready_run (h : inst.Exclusive c) (hrun : inst.tasks.Run ok c ls c') {t : τ} {r : Range}
    {k : ℕ} (ht : heldRange (c.task t) = some r) (hk : k * inst.unitBytes ∈ r.positions)
    (hzero : c.shared.slots.getD k 0 = 0)
    (hown : ∀ p ∈ ls, p.1 = t → p.2.isFill = false ∧ p.2.isRelease = false) :
    c'.shared.slots.getD k 0 = 0 := by
  suffices hinv : inst.Exclusive c' ∧ heldRange (c'.task t) = some r ∧
      c'.shared.slots.getD k 0 = 0 from hinv.2.2
  induction hrun with
  | nil => exact ⟨h, ht, hzero⟩
  | @snoc ls c₁ u e c₂ hrun hok hfire ih =>
    obtain ⟨hex, hheld, hz⟩ := ih fun p hp => hown p (List.mem_append_left _ hp)
    have hlast := hown (u, e) (List.mem_append_right _ (List.mem_singleton_self _))
    refine ⟨hex.fire hfire, ?_, unready_fire hex hheld hk hz hfire fun hut => (hlast hut).1⟩
    obtain ⟨s', l', hstep, rfl⟩ := TaskSystem.fire_eq_some.mp hfire
    change heldRange (Function.update c₁.task u l' t) = some r
    by_cases hut : u = t
    · subst hut
      rw [Function.update_self]
      rcases inflight_step hstep with ⟨-, hl, -⟩ | ⟨q, hw, -⟩ | ⟨q, -, -, -, rfl⟩
      · rw [hl, hheld]
      · rw [heldRange_of_waiting hw] at hheld
        exact absurd hheld (by simp)
      · exact absurd (hlast rfl).2 (by simp [Event.isRelease])
    · rw [Function.update_of_ne (Ne.symm hut)]
      exact hheld

/-- **No redundant downloads.** In every state of every run of an instance that starts with nothing
in flight: a task that fetches has a slot of its own request that is not ready and stays so until
the task marks its slots or drops its guard; a fetch succeeds by marking its slots, which makes at
least one more slot ready; and the number of successful fetches is at most the number of slots less
those that were ready at the start. -/
theorem downloads_bounded (hidle : ∀ t, c₀.task t = .idle) (hempty : c₀.shared.inflight = [])
    (hslots : c₀.shared.slots.length = inst.rangeMap.slotCount)
    (hrun : inst.tasks.Run ok c₀ ls c) :
    (∀ t offset len, fetching (c.task t) = some (offset, len) →
      ∃ k, Touches inst.unitBytes offset (offset + len) k ∧ k < inst.rangeMap.slotCount ∧
        ∀ ls' c', inst.tasks.Run ok c ls' c' →
          (∀ p ∈ ls', p.1 = t → p.2.isFill = false ∧ p.2.isRelease = false) →
          c'.shared.slots.getD k 0 = 0) ∧
    (∀ t e c', inst.tasks.fire c t e = some c' →
      ((fetching (c.task t)).isSome = true → succeeded (c'.task t) = true → e.isFill = true) ∧
      (e.isFill = true → (fetching (c.task t)).isSome = true ∧
        readyCount c.shared.slots < readyCount c'.shared.slots)) ∧
    (ls.countP fun p => p.2.isFill) ≤ inst.rangeMap.slotCount - readyCount c₀.shared.slots := by
  have h : inst.Wanted c := wanted_run hidle hempty hslots hrun
  refine ⟨fun t offset len hf => ?_, fun t e c' hfire => ⟨fun hf hok => ?_, fun hfill => ⟨?_, ?_⟩⟩,
    ?_⟩
  · obtain ⟨k, hk, hzero⟩ := h.unready t offset len hf
    obtain ⟨range, hheld, hreq⟩ := held_of_fetching (h.exclusive.shape t) hf
    exact ⟨k, hk, touches_lt_slotCount hreq.le_blobSize hk, fun ls' c' hrun' hown =>
      unready_run h.exclusive hrun' hheld (start_mem_amplified hreq hk) hzero hown⟩
  · obtain ⟨s', l', hstep, rfl⟩ := TaskSystem.fire_eq_some.mp hfire
    refine fill_of_succeeded (h.exclusive.shape t) hf hstep ?_
    change succeeded (Function.update c.task t l' t) = true at hok
    rwa [Function.update_self] at hok
  · obtain ⟨s', l', hstep, rfl⟩ := TaskSystem.fire_eq_some.mp hfire
    rcases slots_step (h.exclusive.shape t) hstep with ⟨-, hno⟩ | ⟨_, _, hf, -⟩
    · exact absurd hfill (by rw [hno]; simp)
    · rw [hf, Option.isSome_some]
  · exact (h.readyCount_fire hfire).2 hfill
  · have hcount := hrun.potential (I := inst.Wanted) (Φ := fun c => readyCount c.shared.slots)
      (p := Event.isFill) (wanted_run hidle hempty hslots (.nil : inst.tasks.Run ok c₀ [] c₀))
      (fun c t e c' h _ hfire => h.fire hfire) (fun c t e c' h hfire => h.readyCount_fire hfire)
    have hle := readyCount_le_length c.shared.slots
    rw [h.length_slots] at hle
    omega

end Runs

/-- One fetch of `smallInstance`, whose one slot is not ready at the start. -/
theorem downloads_bounded_smallInstance :
    ∃ ls c, smallInstance.tasks.Run (fun _ _ => True) smallStart ls c ∧
      (ls.countP fun p => p.2.isFill) = 1 ∧
      (ls.countP fun p => p.2.isFill) ≤
        smallInstance.rangeMap.slotCount - readyCount smallStart.shared.slots := by
  obtain ⟨s, hs⟩ : ∃ s, smallInstance.tasks.solo smallStart.shared (smallStart.task 0)
      [.call (.ensureRange 1 1), .check, .reserve, .recheck, .reply (.ok [7, 7, 7]),
        .wrote (.ok 2), .wrote (.ok 1), .marked (.ok 1), .fill, .release] =
      some (s, .returned (.ensureRange 1 1) .ok) := ⟨_, rfl⟩
  have hrun := TaskSystem.Run.of_solo (TaskSystem.soloOk_true _ _ _) hs
  exact ⟨_, _, hrun, rfl, (downloads_bounded (fun _ => rfl) rfl rfl hrun).2.2⟩

end Instance

end Lazyd
