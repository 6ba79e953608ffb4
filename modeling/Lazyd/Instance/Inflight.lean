import Lazyd.Instance.Shape
import Lazyd.Library.Reservations

/-!
# The ranges in flight

The list of ranges in flight has one entry for each task that holds a reservation, and these ranges
are nonempty, inside the blob and pairwise disjoint. Three places of the source depend on it. The
guard removes its entry by value, which would remove the entries of other tasks if two were equal.
The overlap test answers no when an end overflows. And a task that is refused sleeps until another
task lets go, which must not be waiting itself.

## Main definitions

* `Instance.heldRange`, `Instance.waitingRange`, `Instance.outstanding` : what a task has reserved,
  what it waits for, and the range that its remote read or its target write is about.
* `Instance.Exclusive` : the invariant.

## Main results

* `Instance.inflight_step` : what a step does to the list of ranges in flight.
* `Instance.exclusive_run` : the invariant holds in every run.
* `Instance.inflight_exclusion` : exclusion of overlapping fetches.

Source: `src/instance.rs`, lines 76–108, 245–261 and 321–335.
-/

namespace Lazyd

namespace Instance

/-- The range of the guard that a task holds. -/
def heldRange : TaskState → Option Range
  | .running _ _ _ (.holding range _) => some range
  | _ => none

/-- The range that a task in `reserve_inflight` waits for. -/
def waitingRange : TaskState → Option Range
  | .running _ _ _ (.reserving range) => some range
  | _ => none

/-- The range of the remote read or of the target write that a task is in. -/
def outstanding : TaskState → Option Range
  | .running _ _ _ (.holding range .reading) => some range
  | .running _ _ _ (.holding range (.writing bytes written)) =>
    some { offset := range.offset + written, len := bytes.length - written }
  | _ => none

variable {inst : Instance}

/-! ### Facts about one task -/

theorem heldRange_finish (call : Call) (offset len : ℕ) (out : Outcome) :
    heldRange (finish call offset len out) = none := by
  rcases finish_ne_holding call offset len out with hf | ⟨-, hf⟩ <;> rw [hf] <;> rfl

theorem heldRange_enter (call : Call) : heldRange (inst.enter call) = none := by
  cases call with
  | ensureRange => rfl
  | prepareFetchRange offset len pageSize =>
    rw [enter]
    split <;> rfl

theorem heldRange_firstCheck (slots : List UInt8) (call : Call) (offset len : ℕ) :
    heldRange (inst.firstCheck slots call offset len) = none := by
  rcases inst.firstCheck_cases slots call offset len with ⟨err, hf⟩ | ⟨-, hf⟩ | ⟨-, -, hf⟩
  · rw [hf, heldRange_finish]
  · rw [hf, heldRange_finish]
  · rw [hf]
    rfl

theorem heldRange_of_waiting {l : TaskState} {r : Range} (h : waitingRange l = some r) :
    heldRange l = none := by
  unfold waitingRange at h
  split at h
  · rfl
  · exact absurd h (by simp)

theorem held_bounds {l : TaskState} {r : Range} (hl : inst.TaskShape l)
    (h : heldRange l = some r) : 0 < r.len ∧ r.offset + r.len ≤ inst.blobSize := by
  unfold heldRange at h
  split at h
  · obtain rfl := Option.some.inj h
    obtain ⟨-, ⟨hlen, hle, rfl⟩, -⟩ := hl
    exact amplified_bounds hlen hle
  · exact absurd h (by simp)

theorem waiting_bounds {l : TaskState} {r : Range} (hl : inst.TaskShape l)
    (h : waitingRange l = some r) : 0 < r.len ∧ r.offset + r.len ≤ inst.blobSize := by
  unfold waitingRange at h
  split at h
  · obtain rfl := Option.some.inj h
    obtain ⟨-, hlen, hle, rfl⟩ := hl
    exact amplified_bounds hlen hle
  · exact absurd h (by simp)

theorem outstanding_subset {l : TaskState} {r : Range} (hl : inst.TaskShape l)
    (h : outstanding l = some r) : ∃ q, heldRange l = some q ∧ r.positions ⊆ q.positions := by
  unfold outstanding at h
  split at h
  · obtain rfl := Option.some.inj h
    exact ⟨_, rfl, subset_rfl⟩
  · rename_i range bytes written
    obtain rfl := Option.some.inj h
    obtain ⟨-, -, hbytes, hwritten⟩ := hl
    refine ⟨range, rfl, Set.Ico_subset_Ico ?_ ?_⟩
    · exact Nat.le_add_right _ _
    · change range.offset + written + (bytes.length - written) ≤ range.offset + range.len
      omega
  · exact absurd h (by simp)

theorem overlaps_eq_false {r q : Range} (hr : 0 < r.len ∧ r.offset + r.len ≤ inst.blobSize)
    (hq : 0 < q.len ∧ q.offset + q.len ≤ inst.blobSize) :
    r.overlaps q = false ↔ Disjoint r.positions q.positions :=
  Range.overlaps_eq_false_iff (hr.2.trans_lt inst.blobSize_lt) (hq.2.trans_lt inst.blobSize_lt)
    hr.1 hq.1

theorem positions_nonempty {r : Range} (h : 0 < r.len) : r.positions.Nonempty :=
  ⟨r.offset, le_rfl, Nat.lt_add_of_pos_right h⟩

/-! ### What a step does to the list -/

/-- A step leaves the list and what its task holds alone, or it takes the range that its task waits
for when nothing overlaps it, or it drops the guard. -/
theorem inflight_step {s s' : Shared} {l l' : TaskState} {e : Event}
    (h : inst.step s l e = some (s', l')) :
    (s'.inflight = s.inflight ∧ heldRange l' = heldRange l ∧ e ≠ .release) ∨
    (∃ r, waitingRange l = some r ∧ heldRange l' = some r ∧
      (s.inflight.any fun item => item.overlaps r) = false ∧
      s'.inflight = s.inflight ++ [r] ∧ e ≠ .release) ∨
    (∃ r, heldRange l = some r ∧ heldRange l' = none ∧
      s'.inflight = (s.inflight.filter fun item => item ≠ r) ∧ e = .release) := by
  cases Effect.of_step h with
  | call call => exact Or.inl ⟨rfl, heldRange_enter call, by simp⟩
  | check call offset len => exact Or.inl ⟨rfl, heldRange_firstCheck _ _ _ _, by simp⟩
  | reserved call offset len range hany =>
    exact Or.inr (Or.inl ⟨range, rfl, rfl, hany, rfl, by simp⟩)
  | release call offset len range out =>
    exact Or.inr (Or.inr ⟨range, rfl, heldRange_finish call offset len out, rfl, rfl⟩)
  | refused => exact Or.inl ⟨rfl, rfl, by simp⟩
  | cancelWaiting => exact Or.inl ⟨rfl, rfl, by simp⟩
  | recheck => exact Or.inl ⟨rfl, rfl, by simp⟩
  | reply => exact Or.inl ⟨rfl, rfl, by simp⟩
  | cancelReading => exact Or.inl ⟨rfl, rfl, by simp⟩
  | writeFailed => exact Or.inl ⟨rfl, rfl, by simp⟩
  | wrote => exact Or.inl ⟨rfl, rfl, by simp⟩
  | markRetry => exact Or.inl ⟨rfl, rfl, by simp⟩
  | markFailed => exact Or.inl ⟨rfl, rfl, by simp⟩
  | marked => exact Or.inl ⟨rfl, rfl, by simp⟩
  | fill => exact Or.inl ⟨rfl, rfl, by simp⟩
  | clone => exact Or.inl ⟨rfl, rfl, by simp⟩

theorem refused_step {s s' : Shared} {l l' : TaskState} {r : Range} (hw : waitingRange l = some r)
    (h : inst.step s l .reserve = some (s', l')) (hw' : waitingRange l' = some r) :
    (s.inflight.any fun item => item.overlaps r) = true := by
  cases Effect.of_step h with
  | refused call offset len range hany =>
    obtain rfl := Option.some.inj hw
    exact hany
  | reserved => exact absurd hw' (by simp [waitingRange])

/-! ### The invariant -/

section Runs

variable {τ : Type*}

variable (inst) in
/-- The list has the ranges of the tasks that hold a guard, and these are disjoint. -/
structure Exclusive (c : TaskSystem.Config Shared TaskState τ) : Prop where
  shape : ∀ t, inst.TaskShape (c.task t)
  lists : ListsHeld (fun t => heldRange (c.task t)) c.shared.inflight
  disjoint : c.shared.inflight.Pairwise fun r q => Disjoint r.positions q.positions

namespace Exclusive

variable {c : TaskSystem.Config Shared TaskState τ}

theorem bounds (h : inst.Exclusive c) {r : Range} (hr : r ∈ c.shared.inflight) :
    0 < r.len ∧ r.offset + r.len ≤ inst.blobSize := by
  obtain ⟨t, ht⟩ := h.lists.mem_iff.mp hr
  exact held_bounds (h.shape t) ht

theorem held_disjoint (h : inst.Exclusive c) {t u : τ} {r q : Range} (htu : t ≠ u)
    (ht : heldRange (c.task t) = some r) (hu : heldRange (c.task u) = some q) :
    Disjoint r.positions q.positions :=
  h.lists.pairwise (fun _ _ hrq => hrq.symm) h.disjoint htu ht hu

theorem held_ne (h : inst.Exclusive c) {t u : τ} {r : Range} (ht : heldRange (c.task t) = some r)
    (hut : u ≠ t) : heldRange (c.task u) ≠ some r := by
  intro hu
  have hdisj := h.held_disjoint hut hu ht
  obtain ⟨p, hp⟩ := positions_nonempty (held_bounds (h.shape t) ht).1
  exact Set.disjoint_left.mp hdisj hp hp

theorem nodup (h : inst.Exclusive c) : c.shared.inflight.Nodup := by
  refine h.disjoint.imp_of_mem fun {r q} hr _ hdisj hrq => ?_
  obtain ⟨p, hp⟩ := positions_nonempty (h.bounds hr).1
  exact Set.disjoint_left.mp hdisj hp (hrq ▸ hp)

/-- The invariant is about the list and the tasks only. -/
theorem congr (h : inst.Exclusive c) {c' : TaskSystem.Config Shared TaskState τ}
    (hinflight : c'.shared.inflight = c.shared.inflight) (htask : c'.task = c.task) :
    inst.Exclusive c' := by
  refine ⟨fun t => ?_, ?_, ?_⟩
  · rw [htask]
    exact h.shape t
  · rw [hinflight, htask]
    exact h.lists
  · rw [hinflight]
    exact h.disjoint

variable [DecidableEq τ]

/-- **A step keeps the invariant.** -/
theorem fire (h : inst.Exclusive c) {t : τ} {e : Event}
    {c' : TaskSystem.Config Shared TaskState τ} (hfire : inst.tasks.fire c t e = some c') :
    inst.Exclusive c' := by
  obtain ⟨s', l', hstep, rfl⟩ := TaskSystem.fire_eq_some.mp hfire
  have hshape (u : τ) : inst.TaskShape (Function.update c.task t l' u) := by
    by_cases hu : u = t
    · subst hu
      rw [Function.update_self]
      exact taskShape_step (h.shape u) hstep
    · rw [Function.update_of_ne hu]
      exact h.shape u
  have hheld : (fun u => heldRange (Function.update c.task t l' u)) =
      Function.update (fun u => heldRange (c.task u)) t (heldRange l') :=
    funext fun u => Function.apply_update (fun _ => heldRange) c.task t l' u
  rcases inflight_step hstep with ⟨hl, hr, -⟩ | ⟨r, hw, hr, hany, hl, -⟩ | ⟨r, ht, hr, hl, -⟩
  · refine ⟨hshape, ?_, ?_⟩
    · change ListsHeld _ s'.inflight
      rw [hheld, hr, Function.update_eq_self, hl]
      exact h.lists
    · change s'.inflight.Pairwise _
      rw [hl]
      exact h.disjoint
  · refine ⟨hshape, ?_, ?_⟩
    · change ListsHeld _ s'.inflight
      rw [hheld, hr, hl]
      exact h.lists.push (heldRange_of_waiting hw) r
    · change s'.inflight.Pairwise _
      rw [hl, List.pairwise_append]
      refine ⟨h.disjoint, List.pairwise_singleton _ _, fun q hq r' hr' => ?_⟩
      obtain rfl := List.mem_singleton.mp hr'
      rw [List.any_eq_false] at hany
      exact (overlaps_eq_false (h.bounds hq) (waiting_bounds (h.shape t) hw)).mp
        (Bool.eq_false_iff.mpr (hany q hq))
  · refine ⟨hshape, ?_, ?_⟩
    · change ListsHeld _ s'.inflight
      rw [hheld, hr, hl]
      exact h.lists.remove ht fun u hu => h.held_ne ht hu
    · change s'.inflight.Pairwise _
      rw [hl]
      exact h.disjoint.filter _

end Exclusive

variable [DecidableEq τ] {ok : TaskState → Event → Prop}
  {c₀ c : TaskSystem.Config Shared TaskState τ} {ls : List (τ × Event)}

/-- The invariant holds in every run from idle tasks with nothing in flight. -/
theorem exclusive_run (hidle : ∀ t, c₀.task t = .idle) (hempty : c₀.shared.inflight = [])
    (hrun : inst.tasks.Run ok c₀ ls c) : inst.Exclusive c := by
  refine hrun.invariant (I := inst.Exclusive) ⟨?_, ?_, ?_⟩ fun c t e c' h _ hfire => h.fire hfire
  · intro t
    rw [hidle t]
    trivial
  · rw [hempty]
    refine ListsHeld.of_none fun t => ?_
    rw [hidle t]
    rfl
  · rw [hempty]
    exact List.Pairwise.nil

/-- **In-flight exclusion.** In every state of every run of an instance that starts with nothing in
flight: the list of ranges in flight has one entry for each task that holds a guard; its ranges are
nonempty, inside the blob and pairwise disjoint, so the remote reads and target writes of two tasks
are; dropping a guard removes its own entry alone; a task that waits holds no entry, and when it is
refused, an entry that overlaps its range is held by a task that does not wait. -/
theorem inflight_exclusion (hidle : ∀ t, c₀.task t = .idle) (hempty : c₀.shared.inflight = [])
    (hrun : inst.tasks.Run ok c₀ ls c) :
    (∃ holders : List τ, holders.Nodup ∧
      (∀ t, t ∈ holders ↔ (heldRange (c.task t)).isSome = true) ∧
      c.shared.inflight = holders.filterMap fun t => heldRange (c.task t)) ∧
    ((∀ r ∈ c.shared.inflight, 0 < r.len ∧ r.offset + r.len ≤ inst.blobSize) ∧
      (c.shared.inflight.Pairwise fun r q => Disjoint r.positions q.positions) ∧
      ∀ t u r q, t ≠ u → outstanding (c.task t) = some r → outstanding (c.task u) = some q →
        Disjoint r.positions q.positions) ∧
    (∀ t c', inst.tasks.fire c t .release = some c' →
      ∃ r, heldRange (c.task t) = some r ∧ c.shared.inflight.count r = 1 ∧
        c'.shared.inflight = c.shared.inflight.erase r) ∧
    ∀ t r, waitingRange (c.task t) = some r → heldRange (c.task t) = none ∧
      ∀ c', inst.tasks.fire c t .reserve = some c' → waitingRange (c'.task t) = some r →
        ∃ u q, heldRange (c.task u) = some q ∧ waitingRange (c.task u) = none ∧
          q.overlaps r = true := by
  have h : inst.Exclusive c := exclusive_run hidle hempty hrun
  refine ⟨h.lists, ⟨fun r => h.bounds, h.disjoint, ?_⟩, ?_, ?_⟩
  · intro t u r q htu ht hu
    obtain ⟨r', hr', hsubr⟩ := outstanding_subset (h.shape t) ht
    obtain ⟨q', hq', hsubq⟩ := outstanding_subset (h.shape u) hu
    exact (h.held_disjoint htu hr' hq').mono hsubr hsubq
  · intro t c' hfire
    obtain ⟨s', l', hstep, rfl⟩ := TaskSystem.fire_eq_some.mp hfire
    rcases inflight_step hstep with ⟨-, -, he⟩ | ⟨r, -, -, -, -, he⟩ | ⟨r, ht, -, hl, -⟩
    · exact absurd rfl he
    · exact absurd rfl he
    · refine ⟨r, ht, List.count_eq_one_of_mem h.nodup (h.lists.mem_iff.mpr ⟨t, ht⟩), ?_⟩
      change s'.inflight = _
      rw [hl, h.nodup.erase_eq_filter]
      refine List.filter_congr fun q _ => ?_
      rw [Bool.eq_iff_iff, decide_eq_true_iff, bne_iff_ne]
  · intro t r hw
    refine ⟨heldRange_of_waiting hw, fun c' hfire hw' => ?_⟩
    obtain ⟨s', l', hstep, rfl⟩ := TaskSystem.fire_eq_some.mp hfire
    change waitingRange (Function.update c.task t l' t) = some r at hw'
    rw [Function.update_self] at hw'
    obtain ⟨q, hq, hoverlap⟩ := List.any_eq_true.mp (refused_step hw hstep hw')
    obtain ⟨u, hu⟩ := h.lists.mem_iff.mp hq
    refine ⟨u, q, hu, ?_, hoverlap⟩
    cases hwu : waitingRange (c.task u) with
    | none => rfl
    | some r' =>
      rw [heldRange_of_waiting hwu] at hu
      exact absurd hu (by simp)

end Runs

/-- Two tasks ask for bytes of the one unit of `smallInstance`; the second one is refused while the
first one reads. -/
theorem inflight_exclusion_smallInstance :
    ∃ ls c, smallInstance.tasks.Run (fun _ _ => True) smallStart ls c ∧
      outstanding (c.task 0) = some ⟨0, 3⟩ ∧ waitingRange (c.task 1) = some ⟨0, 3⟩ ∧
      ∃ u q, heldRange (c.task u) = some q ∧ waitingRange (c.task u) = none ∧
        q.overlaps ⟨0, 3⟩ = true := by
  obtain ⟨s, hs⟩ : ∃ s, smallInstance.tasks.solo smallStart.shared (smallStart.task 0)
      [.call (.ensureRange 1 1), .check, .reserve, .recheck] =
      some (⟨s, [0], [⟨0, 3⟩]⟩, .running (.ensureRange 1 1) 1 1 (.holding ⟨0, 3⟩ .reading)) :=
    ⟨_, rfl⟩
  have hfirst := TaskSystem.Run.of_solo (TaskSystem.soloOk_true _ _ _) hs
  let c : TaskSystem.Config Shared TaskState ℕ := ⟨⟨s, [0], [⟨0, 3⟩]⟩,
    Function.update smallStart.task 0
      (.running (.ensureRange 1 1) 1 1 (.holding ⟨0, 3⟩ .reading))⟩
  have hs' : smallInstance.tasks.solo c.shared (c.task 1)
      [.call (.prepareFetchRange 0 4096 4096), .check, .reserve] =
      some (c.shared, .running (.prepareFetchRange 0 4096 4096) 0 3 (.reserving ⟨0, 3⟩)) := rfl
  have hsecond := TaskSystem.Run.of_solo (TaskSystem.soloOk_true _ _ _) hs'
  have hrun := hfirst.append hsecond
  refine ⟨_, _, hrun, rfl, rfl, ?_⟩
  exact ((inflight_exclusion (fun _ => rfl) rfl hrun).2.2.2 1 ⟨0, 3⟩ rfl).2 _ rfl rfl

end Instance

end Lazyd
