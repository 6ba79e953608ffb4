import Lazyd.Instance.Frame

/-!
# Fetching whole pages

`prepare_fetch_range` is asked for whole pages, and the last page of a blob may cross its end. It
accepts the pages that start inside the blob and end at most at the last one, and it asks
`ensure_range` for the part inside the blob. With a page that is no larger than the fetch unit, none
of its operations wraps around, since opening has checked that there is room for a unit behind the
blob.

## Main definitions

* `Instance.FetchPages` : the requests that pass.
* `Instance.Accepted` : a call that has passed the checks and has not been refused.

## Main results

* `Instance.fetchRealLen_ok`, `Instance.fetchPages_of_ok` : what the checks let pass.
* `Instance.accepted_run` : an accepted call is not refused later.
* `Instance.prepareFetchRange_exact` : fetching up to the last page and its tail.

Source: `src/instance.rs`, lines 229–305; `docs/fetch-data-api.md`, lines 77–82.
-/

namespace Lazyd

namespace Instance

open UnitPartition

variable (inst : Instance)

/-- A nonempty range of whole pages that starts inside the blob and ends at most with its last
page. -/
structure FetchPages (offset len pageSize : ℕ) : Prop where
  dvd_offset : pageSize ∣ offset
  dvd_len : pageSize ∣ len
  len_pos : 0 < len
  no_overflow : offset + len < U64.size
  offset_lt : offset < inst.blobSize
  end_le : offset + len ≤ inst.blobSize ⌈/⌉ pageSize * pageSize

/-- The call has not been refused as a bad request. -/
def NotRefused (out : Outcome) : Prop := ∀ msg, out ≠ .err (.badRequest msg)

/-- A call of `ensure_range` for a nonempty range inside the blob that has not been refused. -/
def Accepted : TaskState → Prop
  | .idle => False
  | .running _ offset len pc => 0 < len ∧ offset + len ≤ inst.blobSize ∧
    match pc with
    | .holding _ (.releasing out) => NotRefused out
    | _ => True
  | .returned _ out => NotRefused out

/-- The remote does not answer that its request is bad. -/
def NoBadRequest (_ : TaskState) (e : Event) : Prop := ∀ msg, e ≠ .reply (.error (.badRequest msg))

variable {inst} {offset len pageSize : ℕ}

/-! ### The checks -/

theorem blobPageEnd_eq (hpage : 0 < pageSize) (hunit : pageSize ≤ inst.unitBytes) :
    U64.mul (U64.divCeil inst.blobSize pageSize) pageSize =
      inst.blobSize ⌈/⌉ pageSize * pageSize := by
  have hend := ceilDiv_mul_lt hpage inst.blobSize
  have hroom := inst.rangeMap.blobSize_add_lt.1
  rw [rangeMap_blobSize, rangeMap_unitBytes] at hroom
  rw [U64.divCeil_eq_ceilDiv hpage, U64.mul_eq]
  omega

/-- **What passes.** The range that is left is nonempty and ends with the range or with the blob. -/
theorem fetchRealLen_ok (hunit : pageSize ≤ inst.unitBytes) (hpage : 0 < pageSize)
    (h : inst.FetchPages offset len pageSize) :
    inst.fetchRealLen offset len pageSize =
      .ok (min inst.blobSize (offset + len) - offset) := by
  have hoffset : offset % pageSize = 0 := Nat.mod_eq_zero_of_dvd h.dvd_offset
  have hlen : len % pageSize = 0 := Nat.mod_eq_zero_of_dvd h.dvd_len
  have hinside :
      ¬(inst.blobSize ≤ offset ∨ inst.blobSize ⌈/⌉ pageSize * pageSize < offset + len) := by
    have hlt := h.offset_lt
    have hend := h.end_le
    omega
  have hsub : U64.sub (min inst.blobSize (offset + len)) offset =
      min inst.blobSize (offset + len) - offset := by
    have hlt := h.offset_lt
    exact U64.sub_eq (by omega)
  simp only [fetchRealLen, hpage.ne', h.len_pos.ne', hoffset, hlen, ne_eq, not_true_eq_false,
    or_self, ↓reduceIte, U64.checkedAdd_of_lt h.no_overflow, blobPageEnd_eq hpage hunit, hinside,
    hsub]

/-- Nothing else passes. -/
theorem fetchPages_of_ok (hpage : 0 < pageSize) (hunit : pageSize ≤ inst.unitBytes) {realLen : ℕ}
    (h : inst.fetchRealLen offset len pageSize = .ok realLen) :
    inst.FetchPages offset len pageSize := by
  rw [fetchRealLen] at h
  split_ifs at h with hzero hlen haligned
  rw [not_or, not_not, not_not] at haligned
  split at h
  · exact absurd h (by simp)
  · rename_i endPos hadd
    obtain ⟨rfl, hlt⟩ := U64.checkedAdd_eq_some.mp hadd
    dsimp only at h
    rw [blobPageEnd_eq hpage hunit] at h
    split_ifs at h with hinside
    rw [not_or, not_le, not_lt] at hinside
    exact ⟨Nat.dvd_of_mod_eq_zero haligned.1, Nat.dvd_of_mod_eq_zero haligned.2,
      Nat.pos_of_ne_zero hlen, hlt, hinside.1, hinside.2⟩

/-! ### What happens to an accepted call -/

theorem accepted_finish {call : Call} {out : Outcome} (hlen : 0 < len)
    (hle : offset + len ≤ inst.blobSize) (h : NotRefused out) :
    inst.Accepted (finish call offset len out) := by
  rcases finish_ne_holding call offset len out with hf | ⟨-, hf⟩
  · rw [hf]
    exact h
  · rw [hf]
    exact ⟨hlen, hle, trivial⟩

theorem notRefused_io (err : IoError) : NotRefused (.err (.io err)) := by
  intro msg
  simp

theorem accepted_afterWrite {call : Call} {range : Range} (bytes : List UInt8) (written : ℕ)
    (hreq : inst.Requested offset len range) : inst.Accepted (.running call offset len
      (.holding range (inst.afterWrite range bytes written))) := by
  refine ⟨hreq.len_pos, hreq.le_blobSize, ?_⟩
  rw [afterWrite]
  split_ifs
  · trivial
  · rw [startMark_requested hreq]
    trivial

/-- **A step does not refuse an accepted call.** -/
theorem accepted_step {s s' : Shared} {l l' : TaskState} {e : Event} (hshape : inst.TaskShape l)
    (hl : inst.Accepted l) (hok : NoBadRequest l e) (h : inst.step s l e = some (s', l')) :
    inst.Accepted l' := by
  unfold step at h
  split at h
  · exact hl.elim
  · -- the first check
    rename_i call offset len
    obtain ⟨rfl, rfl⟩ := Prod.mk.inj (Option.some.inj h)
    rw [firstCheck_inside s.slots call hl.1 hl.2.1]
    split_ifs
    · exact accepted_finish hl.1 hl.2.1 (by simp [NotRefused])
    · exact ⟨hl.1, hl.2.1, trivial⟩
  · split_ifs at h
    · obtain ⟨rfl, rfl⟩ := Prod.mk.inj (Option.some.inj h)
      exact hl
    · obtain ⟨rfl, rfl⟩ := Prod.mk.inj (Option.some.inj h)
      exact ⟨hl.1, hl.2.1, trivial⟩
  · obtain ⟨rfl, rfl⟩ := Prod.mk.inj (Option.some.inj h)
    exact fun msg => by simp
  · obtain ⟨rfl, rfl⟩ := Prod.mk.inj (Option.some.inj h)
    refine ⟨hl.1, hl.2.1, ?_⟩
    split_ifs
    · exact fun msg => by simp
    · trivial
  · -- the reply of the remote
    rename_i call offset len range res
    obtain ⟨rfl, rfl⟩ := Prod.mk.inj (Option.some.inj h)
    cases res with
    | error err =>
      refine ⟨hl.1, hl.2.1, fun msg heq => hok msg ?_⟩
      rw [Outcome.err.inj heq]
    | ok bytes =>
      rw [received]
      split_ifs
      · exact ⟨hl.1, hl.2.1, fun msg => by simp⟩
      · exact accepted_afterWrite bytes 0 hshape.2.1
  · obtain ⟨rfl, rfl⟩ := Prod.mk.inj (Option.some.inj h)
    exact ⟨hl.1, hl.2.1, fun msg => by simp⟩
  · split at h
    · obtain ⟨rfl, rfl⟩ := Prod.mk.inj (Option.some.inj h)
      exact ⟨hl.1, hl.2.1, notRefused_io _⟩
    · split_ifs at h
      · obtain ⟨rfl, rfl⟩ := Prod.mk.inj (Option.some.inj h)
        exact ⟨hl.1, hl.2.1, notRefused_io _⟩
      · obtain ⟨rfl, rfl⟩ := Prod.mk.inj (Option.some.inj h)
        exact accepted_afterWrite _ _ hshape.2.1
  · split at h
    · split_ifs at h
      · obtain ⟨rfl, rfl⟩ := Prod.mk.inj (Option.some.inj h)
        exact hl
      · obtain ⟨rfl, rfl⟩ := Prod.mk.inj (Option.some.inj h)
        exact ⟨hl.1, hl.2.1, notRefused_io _⟩
    · split_ifs at h
      · obtain ⟨rfl, rfl⟩ := Prod.mk.inj (Option.some.inj h)
        exact ⟨hl.1, hl.2.1, notRefused_io _⟩
      · obtain ⟨rfl, rfl⟩ := Prod.mk.inj (Option.some.inj h)
        refine ⟨hl.1, hl.2.1, ?_⟩
        rw [afterMark]
        split_ifs <;> trivial
  · obtain ⟨rfl, rfl⟩ := Prod.mk.inj (Option.some.inj h)
    exact ⟨hl.1, hl.2.1, fun msg => by simp⟩
  · obtain ⟨rfl, rfl⟩ := Prod.mk.inj (Option.some.inj h)
    exact accepted_finish hl.1 hl.2.1 hl.2.2
  · split at h
    · obtain ⟨rfl, rfl⟩ := Prod.mk.inj (Option.some.inj h)
      exact notRefused_io _
    · obtain ⟨rfl, rfl⟩ := Prod.mk.inj (Option.some.inj h)
      exact fun msg => by simp
  · exact absurd h (by simp)

/-- An accepted call is not refused in any run. -/
theorem accepted_run {τ : Type*} [DecidableEq τ] {c c' : TaskSystem.Config Shared TaskState τ}
    {ls : List (τ × Event)} {t : τ} (hshape : inst.TaskShape (c.task t))
    (h : inst.Accepted (c.task t)) (hrun : inst.tasks.Run NoBadRequest c ls c') :
    inst.Accepted (c'.task t) := by
  refine (hrun.invariant (I := fun c => inst.TaskShape (c.task t) ∧ inst.Accepted (c.task t))
    ⟨hshape, h⟩ ?_).2
  intro c u e c' hc hok hfire
  by_cases hu : t = u
  · subst hu
    obtain ⟨s', l', hstep, rfl⟩ := TaskSystem.fire_eq_some.mp hfire
    simp only [Function.update_self]
    exact ⟨taskShape_step hc.1 hstep, accepted_step hc.1 hc.2 hok hstep⟩
  · rw [TaskSystem.fire_task_of_ne hfire hu]
    exact hc

theorem accepted_enter {realLen : ℕ} (hpage : 0 < pageSize) (hunit : pageSize ≤ inst.unitBytes)
    (h : inst.fetchRealLen offset len pageSize = .ok realLen) :
    inst.Accepted (inst.enter (.prepareFetchRange offset len pageSize)) := by
  have hpages := fetchPages_of_ok hpage hunit h
  have hlt := hpages.offset_lt
  have hpos := hpages.len_pos
  rw [fetchRealLen_ok hunit hpage hpages] at h
  obtain rfl := Except.ok.inj h
  rw [enter, fetchRealLen_ok hunit hpage hpages]
  exact ⟨by omega, by omega, trivial⟩

/-! ### The result -/

/-- **Fetching is exact, and the tail stays zero.** Let the page be no larger than the fetch unit.
The checks let exactly the ranges of whole pages of the blob pass. For such a range `ensure_range`
is called with its nonempty part inside the blob, and this call is never refused as a bad request.
No call changes a byte of the target behind the blob. Under an honest remote, and if every slot that
was ready when the instance was opened is in the target, a fetch that has returned `Ok` has returned
the range that was asked for, and the part of it inside the blob is in the target. -/
theorem prepareFetchRange_exact {τ : Type*} [DecidableEq τ] {blob : ℕ → UInt8}
    (hne : inst.target ≠ inst.rangeMap.file) (hpage : 0 < pageSize)
    (hunit : pageSize ≤ inst.unitBytes) (offset len : ℕ) :
    ((∃ realLen, inst.fetchRealLen offset len pageSize = .ok realLen) ↔
      inst.FetchPages offset len pageSize) ∧
    (∀ realLen, inst.fetchRealLen offset len pageSize = .ok realLen →
      0 < realLen ∧ offset + realLen = min inst.blobSize (offset + len) ∧
        ∀ (c c' : TaskSystem.Config Shared TaskState τ) ls t,
          c.task t = inst.enter (.prepareFetchRange offset len pageSize) →
          inst.tasks.Run NoBadRequest c ls c' →
          ∀ call msg, c'.task t ≠ .returned call (.err (.badRequest msg))) ∧
    ∀ (c₀ c : TaskSystem.Config Shared TaskState τ) ls, (∀ t, c₀.task t = .idle) →
      (inst.tasks.Run (fun _ _ => True) c₀ ls c → ∀ p, inst.blobSize ≤ p →
        (c.shared.disk inst.target).byte p = (c₀.shared.disk inst.target).byte p) ∧
      (inst.MemorySound blob c₀.shared → inst.tasks.Run (Honest blob) c₀ ls c →
        ∀ t, c.task t = .returned (.prepareFetchRange offset len pageSize) .ok →
          ∃ range, (c.task t).fetched = some range ∧ range.off = offset ∧ range.len = len ∧
            range.devOff = range.off ∧ (c.shared.disk inst.target).Holds blob range.devOff
              (min inst.blobSize (range.devOff + range.len))) := by
  refine ⟨⟨?_, fun h => ⟨_, fetchRealLen_ok hunit hpage h⟩⟩, fun realLen hreal => ?_, ?_⟩
  · rintro ⟨realLen, hreal⟩
    exact fetchPages_of_ok hpage hunit hreal
  · have hpages := fetchPages_of_ok hpage hunit hreal
    have hlt := hpages.offset_lt
    have hpos := hpages.len_pos
    have hsame := Except.ok.inj (hreal.symm.trans (fetchRealLen_ok hunit hpage hpages))
    refine ⟨by omega, by omega, fun c c' ls t htask hrun call msg hret => ?_⟩
    have hshape : inst.TaskShape (c.task t) := by
      rw [htask]
      exact taskShape_enter _
    have haccepted : inst.Accepted (c.task t) := by
      rw [htask]
      exact accepted_enter hpage hunit hreal
    have hend := accepted_run hshape haccepted hrun
    rw [hret] at hend
    exact hend msg rfl
  · intro c₀ c ls hidle
    refine ⟨fun hrun p hp => tail_run hne (fun t => ?_) hrun hp, fun hs hrun t hret => ?_⟩
    · rw [hidle t]
      trivial
    · have hsound := ((memory_run hne hidle hs hrun).2 t).2
      rw [hret] at hsound
      refine ⟨⟨offset, len, offset⟩, ?_, rfl, rfl, rfl, hsound rfl⟩
      rw [hret]
      rfl

/-- The last page of `smallInstance` is fetched on a sparse file that is longer than the blob. -/
theorem prepareFetchRange_exact_smallInstance : ∃ ls c,
    smallInstance.tasks.Run (Honest fun _ => 7) smallStart ls c ∧
    c.task 0 = .returned (.prepareFetchRange 0 4096 4096) .ok ∧
    smallInstance.FetchPages 0 4096 4096 ∧
    ∃ range, (c.task 0).fetched = some range ∧ range.off = 0 ∧ range.len = 4096 ∧
      range.devOff = range.off ∧ (c.shared.disk smallInstance.target).Holds (fun _ => 7)
        range.devOff (min 3 (range.devOff + range.len)) := by
  have hsound : smallInstance.MemorySound (fun _ => 7) smallStart.shared := by
    refine ⟨rfl, fun k hk => absurd ?_ hk⟩
    cases k <;> rfl
  obtain ⟨s, hs⟩ : ∃ s, smallInstance.tasks.solo smallStart.shared (smallStart.task 0)
      [.call (.prepareFetchRange 0 4096 4096), .check, .reserve, .recheck, .reply (.ok [7, 7, 7]),
        .wrote (.ok 3), .marked (.ok 1), .fill, .release, .clone (.ok ())] =
      some (s, .returned (.prepareFetchRange 0 4096 4096) .ok) := ⟨_, rfl⟩
  have hrun := TaskSystem.Run.of_solo (soloOk_honest (b := 7) (by simp) _ _) hs
  obtain ⟨hiff, -, hruns⟩ := @prepareFetchRange_exact smallInstance 4096 ℕ _ (fun _ => 7)
    (by decide) (by decide) (by decide) 0 4096
  have hret : (Function.update smallStart.task 0
      (.returned (.prepareFetchRange 0 4096 4096) .ok)) 0 =
        .returned (.prepareFetchRange 0 4096 4096) .ok := Function.update_self _ _ _
  exact ⟨_, _, hrun, hret, hiff.mp ⟨3, rfl⟩,
    (hruns _ _ _ fun _ => rfl).2 hsound hrun 0 hret⟩

end Instance

end Lazyd
