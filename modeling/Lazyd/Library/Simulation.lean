import Lazyd.Library.TaskSystem

/-!
# One task system inside another

A task system with more detail than another one does what the other does: it has what the other
shares and what the other knows of a task, and each of its steps is a step of the other or changes
nothing that the other has. Its runs are then runs of the other, and what is known about those holds
of it.

## Main definitions

* `TaskSystem.Simulation` : the steps of one system as steps of another.
* `TaskSystem.Simulation.project` : a state of the first system as one of the second.

## Main results

* `TaskSystem.Simulation.run` : every run of the first system is one of the second.
-/

namespace TaskSystem

variable {σ σ' Λ Λ' ε ε' τ : Type*}

/-- The steps of `A` under `ok`, of tasks that are as `L` says, are steps of `B` under `ok'` or
leave everything that `B` has as it is. -/
structure Simulation (A : TaskSystem σ Λ ε) (ok : Λ → ε → Prop) (B : TaskSystem σ' Λ' ε')
    (ok' : Λ' → ε' → Prop) (L : Λ → Prop) where
  shared : σ → σ'
  task : Λ → Λ'
  /-- the step of `B` that a step of `A` is, if any -/
  event : Λ → ε → Option ε'
  keeps : ∀ s l e s₁ l₁, L l → ok l e → A.step s l e = some (s₁, l₁) → L l₁
  stutters : ∀ s l e s₁ l₁, L l → ok l e → A.step s l e = some (s₁, l₁) → event l e = none →
    shared s₁ = shared s ∧ task l₁ = task l
  steps : ∀ s l e s₁ l₁ e', L l → ok l e → A.step s l e = some (s₁, l₁) → event l e = some e' →
    ok' (task l) e' ∧ B.step (shared s) (task l) e' = some (shared s₁, task l₁)

namespace Simulation

variable [DecidableEq τ] {A : TaskSystem σ Λ ε} {ok : Λ → ε → Prop} {B : TaskSystem σ' Λ' ε'}
  {ok' : Λ' → ε' → Prop} {L : Λ → Prop} (h : Simulation A ok B ok' L)

/-- What `B` has of a state of `A`. -/
def project (c : Config σ Λ τ) : Config σ' Λ' τ := ⟨h.shared c.shared, fun t => h.task (c.task t)⟩

variable {c₀ c c' : Config σ Λ τ} {ls : List (τ × ε)} {t : τ} {e : ε}

theorem project_fire (hfire : A.fire c t e = some c') :
    h.project c' = ⟨h.shared c'.shared,
      Function.update (h.project c).task t (h.task (c'.task t))⟩ := by
  obtain ⟨s', l', -, rfl⟩ := fire_eq_some.mp hfire
  have htask : (fun u => h.task (Function.update c.task t l' u)) =
      Function.update (fun u => h.task (c.task u)) t (h.task l') :=
    funext fun u => Function.apply_update (fun _ => h.task) c.task t l' u
  simp only [project, htask, Function.update_self]

/-- **Runs.** Every run of `A` is a run of `B`, and the tasks are as `L` says in the end. -/
theorem run (hL : ∀ t, L (c₀.task t)) (hrun : A.Run ok c₀ ls c) :
    (∀ t, L (c.task t)) ∧ ∃ ls', B.Run ok' (h.project c₀) ls' (h.project c) := by
  induction hrun with
  | nil => exact ⟨hL, [], .nil⟩
  | @snoc ls c t e c' _ hok hfire ih =>
    obtain ⟨hL, ls', hrun'⟩ := ih
    have hstep := fire_step hfire
    have hproject := h.project_fire hfire
    refine ⟨fun u => ?_, ?_⟩
    · by_cases hu : u = t
      · rw [hu]
        exact h.keeps _ _ _ _ _ (hL t) hok hstep
      · rw [fire_task_of_ne hfire hu]
        exact hL u
    · cases hevent : h.event (c.task t) e with
      | none =>
        obtain ⟨hshared, htask⟩ := h.stutters _ _ _ _ _ (hL t) hok hstep hevent
        rw [hshared, htask] at hproject
        have hsame : h.project c' = h.project c :=
          hproject.trans (congrArg (Config.mk _) (Function.update_eq_self t _))
        exact ⟨ls', hsame ▸ hrun'⟩
      | some e' =>
        obtain ⟨hok', hstep'⟩ := h.steps _ _ _ _ _ _ (hL t) hok hstep hevent
        have hfire' : B.fire (h.project c) t e' = some (h.project c') :=
          fire_eq_some.mpr ⟨_, _, hstep', hproject⟩
        exact ⟨_, hrun'.snoc hok' hfire'⟩

end Simulation

end TaskSystem
