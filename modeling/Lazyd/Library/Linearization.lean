import Lazyd.Library.TaskSystem

/-!
# Linearization points

An operation of a task takes effect at one of its steps, its *point*. When every step that is a
point does to the shared state what an atomic operation does, and every other step does nothing to
it, the points of a run, in their order, are a history of the atomic operations. Time is respected:
a run and the steps after it have the points of the run first.

## Main definitions

* `TaskSystem.points` : the points of a run, with their tasks.
* `TaskSystem.Replay` : a history of atomic operations.

## Main results

* `TaskSystem.Run.points_append` : points come in the order of the steps.
* `TaskSystem.Run.replay` : the points of a run are a history.
* `TaskSystem.Run.points_filter` : the steps and the points of one task.
-/

namespace TaskSystem

variable {σ Λ ε τ α β : Type*} [DecidableEq τ]

section Points

variable (A : TaskSystem σ Λ ε) (point : Λ → ε → Λ → Option α)

/-- The points of the given steps from `c` on; a step `e` from the local state `l` to `l'` is the
point of `point l e l'`. -/
def points : Config σ Λ τ → List (τ × ε) → List (τ × α)
  | _, [] => []
  | c, (t, e) :: ls =>
    match A.fire c t e with
    | none => []
    | some c' => ((point (c.task t) e (c'.task t)).toList.map fun a => (t, a)) ++ points c' ls

end Points

/-- The histories of atomic operations from one abstract state to another. -/
inductive Replay (spec : β → α → β → Prop) (b₀ : β) : List α → β → Prop
  | nil : Replay spec b₀ [] b₀
  | snoc {as b a b'} (h : Replay spec b₀ as b) (ha : spec b a b') : Replay spec b₀ (as ++ [a]) b'

variable {A : TaskSystem σ Λ ε} {point : Λ → ε → Λ → Option α} {ok : Λ → ε → Prop}
  {c₀ c c' : Config σ Λ τ} {ls : List (τ × ε)} {t : τ} {e : ε}

theorem points_cons (h : A.fire c t e = some c') (ls : List (τ × ε)) :
    A.points point c ((t, e) :: ls) =
      ((point (c.task t) e (c'.task t)).toList.map fun a => (t, a)) ++ A.points point c' ls := by
  rw [points, h]

namespace Run

/-- **Points come in the order of the steps.** -/
theorem points_append (h : A.Run ok c₀ ls c) (ls' : List (τ × ε)) :
    A.points point c₀ (ls ++ ls') = A.points point c₀ ls ++ A.points point c ls' := by
  induction h generalizing ls' with
  | nil => rfl
  | snoc _ _ hfire ih =>
    rw [List.append_assoc, List.singleton_append, ih, ih, points_cons hfire, points_cons hfire,
      points, List.append_nil, List.append_assoc]

theorem points_snoc (h : A.Run ok c₀ ls c) (hfire : A.fire c t e = some c') :
    A.points point c₀ (ls ++ [(t, e)]) = A.points point c₀ ls ++
      (point (c.task t) e (c'.task t)).toList.map fun a => (t, a) := by
  rw [h.points_append, points_cons hfire, points, List.append_nil]

/-- **The history of a run.** If every point is an atomic operation on what `abs` shows of the
shared state, and no other step changes that, then the points of a run are a history of what `abs`
shows. -/
theorem replay {I : Config σ Λ τ → Prop} {spec : β → α → β → Prop} (abs : σ → β)
    (hinit : I c₀)
    (hstep : ∀ c t e c', I c → ok (c.task t) e → A.fire c t e = some c' → I c')
    (hnone : ∀ c t e c', I c → A.fire c t e = some c' → point (c.task t) e (c'.task t) = none →
      abs c'.shared = abs c.shared)
    (hsome : ∀ c t e c' a, I c → A.fire c t e = some c' →
      point (c.task t) e (c'.task t) = some a → spec (abs c.shared) a (abs c'.shared))
    (h : A.Run ok c₀ ls c) :
    Replay spec (abs c₀.shared) ((A.points point c₀ ls).map Prod.snd) (abs c.shared) := by
  induction h with
  | nil => exact .nil
  | @snoc ls c t e c' hrun hok hfire ih =>
    have hI := hrun.invariant hinit hstep
    rw [hrun.points_snoc hfire, List.map_append, List.map_map]
    cases hpoint : point (c.task t) e (c'.task t) with
    | none =>
      rw [hnone c t e c' hI hfire hpoint, Option.toList_none, List.map_nil, List.append_nil]
      exact ih
    | some a =>
      rw [Option.toList_some]
      exact ih.snoc (hsome c t e c' a hI hfire hpoint)

/-- The steps and the points of one task. What relates them to its local state at first, and is kept
by every step of the task, relates them in every state of a run. -/
theorem points_filter {P : List ε → List α → Λ → Prop} (hinit : ∀ t, P [] [] (c₀.task t))
    (hstep : ∀ s l e s' l' es as, A.step s l e = some (s', l') → P es as l →
      P (es ++ [e]) (as ++ (point l e l').toList) l')
    (h : A.Run ok c₀ ls c) (t : τ) :
    P ((ls.filter fun p => p.1 = t).map Prod.snd)
      (((A.points point c₀ ls).filter fun p => p.1 = t).map Prod.snd) (c.task t) := by
  induction h with
  | nil => exact hinit t
  | @snoc ls c u e c' hrun hok hfire ih =>
    rw [hrun.points_snoc hfire, List.filter_append, List.map_append, List.filter_append,
      List.map_append]
    by_cases hu : t = u
    · subst hu
      have hown : (((point (c.task t) e (c'.task t)).toList.map fun a => (t, a)).filter
          fun p => p.1 = t).map Prod.snd = (point (c.task t) e (c'.task t)).toList := by
        cases point (c.task t) e (c'.task t) <;> simp
      have hlast : (([(t, e)] : List (τ × ε)).filter fun p => p.1 = t).map Prod.snd = [e] := by simp
      rw [hown, hlast]
      exact hstep _ _ _ _ _ _ _ (fire_step hfire) ih
    · have hother : (((point (c.task u) e (c'.task u)).toList.map fun a => (u, a)).filter
          fun p => p.1 = t).map Prod.snd = [] := by
        cases point (c.task u) e (c'.task u) <;> simp [Ne.symm hu]
      have hlast : (([(u, e)] : List (τ × ε)).filter fun p => p.1 = t).map Prod.snd = [] := by
        simp [Ne.symm hu]
      rw [hother, hlast, List.append_nil, List.append_nil, fire_task_of_ne hfire hu]
      exact ih

end Run

end TaskSystem
