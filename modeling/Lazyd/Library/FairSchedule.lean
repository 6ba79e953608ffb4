import Mathlib.Data.Set.Finite.Basic
import Lazyd.Library.TaskSystem

/-!
# Fair schedules

A *schedule* of a task system is an infinite run: at each time one task makes a step, or nobody
does. It is fair to the tasks whose local state is active if each of them makes a step at some later
time. Since only its own steps change the local state of a task, this is weak fairness where an
active task can always make a step.

What a fair schedule makes happen is found with three rules. A task leaves a set of local states if
its own steps in the set lower a rank. A kind of step ends if it raises a bounded potential that no
step lowers. And what the own steps of a task keep is kept for good.

## Main definitions

* `TaskSystem.Follows`, `TaskSystem.Schedule`, `TaskSystem.Schedule.Fair`.

## Main results

* `TaskSystem.Schedule.run` : any part of a schedule is a run.
* `TaskSystem.Schedule.Fair.next` : the next step of an active task finds it as it was.
* `TaskSystem.Schedule.Fair.leaves` : the rank rule.
* `TaskSystem.Schedule.ends` : the potential rule.
* `TaskSystem.Schedule.stays` : the rule for what a task keeps.
* `TaskSystem.Run.exists_schedule` : a run goes on to a schedule.
-/

namespace TaskSystem

variable {σ Λ ε τ : Type*} [DecidableEq τ] {A : TaskSystem σ Λ ε} {ok : Λ → ε → Prop}

/-- What happens at one time: a step of one task, or nothing. -/
def Follows (A : TaskSystem σ Λ ε) (ok : Λ → ε → Prop) (c : Config σ Λ τ) :
    Option (τ × ε) → Config σ Λ τ → Prop
  | none, c' => c' = c
  | some (t, e), c' => ok (c.task t) e ∧ A.fire c t e = some c'

/-- An infinite run under an environment restricted by `ok`. -/
structure Schedule (A : TaskSystem σ Λ ε) (ok : Λ → ε → Prop) (τ : Type*) [DecidableEq τ] where
  config : ℕ → Config σ Λ τ
  move : ℕ → Option (τ × ε)
  follows : ∀ n, A.Follows ok (config n) (move n) (config (n + 1))

theorem Run.finite_moved {c₀ c : Config σ Λ τ} {ls : List (τ × ε)} (h : A.Run ok c₀ ls c) :
    {t | c.task t ≠ c₀.task t}.Finite := by
  induction h with
  | nil => simp
  | @snoc ls c t e c' _ _ hfire ih =>
    refine (ih.insert t).subset fun u hu => ?_
    by_cases hut : u = t
    · exact Or.inl hut
    · refine Or.inr fun hsame => hu ?_
      rw [fire_task_of_ne hfire hut, hsame]

namespace Schedule

variable (S : A.Schedule ok τ)

/-- Each task that is active makes a step at some later time. -/
def Fair (active : Λ → Prop) : Prop :=
  ∀ t n, active ((S.config n).task t) → ∃ m e, n ≤ m ∧ S.move m = some (t, e)

variable {S} {t : τ} {e : ε} {m n : ℕ}

theorem config_of_none (h : S.move n = none) : S.config (n + 1) = S.config n := by
  have hfollows := S.follows n
  rwa [h] at hfollows

theorem fire_of_move (h : S.move n = some (t, e)) :
    ok ((S.config n).task t) e ∧ A.fire (S.config n) t e = some (S.config (n + 1)) := by
  have hfollows := S.follows n
  rwa [h] at hfollows

theorem step_of_move (h : S.move n = some (t, e)) :
    ok ((S.config n).task t) e ∧ A.step (S.config n).shared ((S.config n).task t) e =
      some ((S.config (n + 1)).shared, (S.config (n + 1)).task t) :=
  ⟨(fire_of_move h).1, fire_step (fire_of_move h).2⟩

variable (S) in
/-- Any part of a schedule is a run. -/
theorem run (h : m ≤ n) : ∃ ls, A.Run ok (S.config m) ls (S.config n) := by
  induction n, h using Nat.le_induction with
  | base => exact ⟨[], .nil⟩
  | succ n _ ih =>
    obtain ⟨ls, hrun⟩ := ih
    cases hmove : S.move n with
    | none => exact ⟨ls, config_of_none hmove ▸ hrun⟩
    | some p =>
      obtain ⟨t, e⟩ := p
      obtain ⟨hok, hfire⟩ := fire_of_move hmove
      exact ⟨_, hrun.snoc hok hfire⟩

theorem task_of_not_moved (h : ∀ e, S.move n ≠ some (t, e)) :
    (S.config (n + 1)).task t = (S.config n).task t := by
  cases hmove : S.move n with
  | none => rw [config_of_none hmove]
  | some p =>
    obtain ⟨u, e⟩ := p
    refine fire_task_of_ne (fire_of_move hmove).2 ?_
    rintro rfl
    exact h e hmove

/-- **What the own steps of a task keep** is kept for good. -/
theorem stays {P : Λ → Prop}
    (hstep : ∀ i e, n ≤ i → S.move i = some (t, e) → P ((S.config i).task t) →
      P ((S.config (i + 1)).task t))
    (hP : P ((S.config n).task t)) (hle : n ≤ m) : P ((S.config m).task t) := by
  induction m, hle using Nat.le_induction with
  | base => exact hP
  | succ i hi ih =>
    by_cases hmoved : ∃ e, S.move i = some (t, e)
    · obtain ⟨e, hmove⟩ := hmoved
      exact hstep i e hi hmove ih
    · rw [task_of_not_moved (not_exists.mp hmoved)]
      exact ih

/-- The next step of an active task finds it as it was. -/
theorem Fair.next {active : Λ → Prop} (h : S.Fair active) (hactive : active ((S.config n).task t)) :
    ∃ m e, n ≤ m ∧ S.move m = some (t, e) ∧ (S.config m).task t = (S.config n).task t := by
  classical
  obtain ⟨i, hi⟩ : ∃ i, ∃ e, S.move (n + i) = some (t, e) := by
    obtain ⟨m, e, hle, hmove⟩ := h t n hactive
    exact ⟨m - n, e, by rwa [Nat.add_sub_cancel' hle]⟩
  -- the first of the later steps of the task
  have hfirst : ∃ i, ∃ e, S.move (n + i) = some (t, e) := ⟨i, hi⟩
  obtain ⟨e, hmove⟩ := Nat.find_spec hfirst
  refine ⟨n + Nat.find hfirst, e, Nat.le_add_right _ _, hmove, ?_⟩
  have hsame (j : ℕ) (hj : j ≤ Nat.find hfirst) :
      (S.config (n + j)).task t = (S.config n).task t := by
    induction j with
    | zero => rfl
    | succ j ih =>
      have hnot := Nat.find_min hfirst (Nat.lt_of_succ_le hj)
      rw [← Nat.add_assoc, task_of_not_moved (not_exists.mp hnot)]
      exact ih (by omega)
  exact hsame _ le_rfl

/-- **The rank rule.** A task whose own steps in a set of active states lower a rank leaves the set,
with a step of its own. -/
theorem Fair.leaves {active P : Λ → Prop} {rank : Λ → ℕ} (h : S.Fair active)
    (hactive : ∀ l, P l → active l)
    (hdown : ∀ i e, n ≤ i → S.move i = some (t, e) → P ((S.config i).task t) →
      P ((S.config (i + 1)).task t) →
        rank ((S.config (i + 1)).task t) < rank ((S.config i).task t))
    (hP : P ((S.config n).task t)) :
    ∃ m e, n ≤ m ∧ S.move m = some (t, e) ∧ P ((S.config m).task t) ∧
      ¬P ((S.config (m + 1)).task t) := by
  induction hrank : rank ((S.config n).task t) using Nat.strong_induction_on generalizing n with
  | _ r ih =>
    obtain ⟨m, e, hle, hmove, hsame⟩ := h.next (hactive _ hP)
    rw [← hsame] at hP hrank
    by_cases hstay : P ((S.config (m + 1)).task t)
    · have hlt := hdown m e hle hmove hP hstay
      obtain ⟨m', e', hle', hleaves⟩ := ih _ (hrank ▸ hlt)
        (fun i e hi => hdown i e (by omega)) hstay rfl
      exact ⟨m', e', by omega, hleaves⟩
    · exact ⟨m, e, hle, hmove, hP, hstay⟩

/-- **The potential rule.** If no step lowers a bounded potential, the steps that raise it end. -/
theorem ends {Φ : ℕ → ℕ} {p : ε → Prop} {bound : ℕ} (hmono : ∀ n, Φ n ≤ Φ (n + 1))
    (hup : ∀ n t e, S.move n = some (t, e) → p e → Φ n < Φ (n + 1)) (hbound : ∀ n, Φ n ≤ bound) :
    ∃ N, ∀ n t e, N ≤ n → S.move n = some (t, e) → ¬p e := by
  -- from any time on, by induction on what is left up to the bound
  suffices hfrom : ∀ k n, bound - Φ n ≤ k →
      ∃ N, ∀ m t e, N ≤ m → S.move m = some (t, e) → ¬p e from hfrom _ 0 le_rfl
  intro k
  induction k with
  | zero =>
    intro n hk
    refine ⟨n, fun m t e hle hmove hp => ?_⟩
    have hrest : Φ n ≤ Φ m := monotone_nat_of_le_succ hmono hle
    have hlt := hup m t e hmove hp
    have hlast := hbound (m + 1)
    omega
  | succ k ih =>
    intro n hk
    by_cases hlater : ∃ m t e, n ≤ m ∧ S.move m = some (t, e) ∧ p e
    · obtain ⟨m, t, e, hle, hmove, hp⟩ := hlater
      have hrest : Φ n ≤ Φ m := monotone_nat_of_le_succ hmono hle
      have hlt := hup m t e hmove hp
      exact ih (m + 1) (by omega)
    · exact ⟨n, fun m t e hle hmove hp => hlater ⟨m, t, e, hle, hmove, hp⟩⟩

theorem Fair.of_inactive {active : Λ → Prop}
    (h : ∀ t n, ∃ m, n ≤ m ∧ ¬active ((S.config m).task t)) : S.Fair active := by
  intro t n hactive
  by_contra hnever
  obtain ⟨m, hle, hinactive⟩ := h t n
  refine hinactive (stays (fun i e hi hmove _ => ?_) hactive hle)
  exact absurd ⟨i, e, hi, hmove⟩ hnever

theorem config_of_run {c₀ c : Config σ Λ τ} {ls : List (τ × ε)} (h : A.Run ok c₀ ls c)
    (hstart : S.config 0 = c₀) (hmoves : ∀ i, i < ls.length → S.move i = ls[i]?) :
    S.config ls.length = c := by
  induction h with
  | nil => exact hstart
  | @snoc ls c t e c' _ _ hfire ih =>
    have hlength : (ls ++ [(t, e)]).length = ls.length + 1 := List.length_append
    have hlast : S.move ls.length = some (t, e) := by
      rw [hmoves _ (by omega), List.getElem?_concat_length]
    have hfire' := (fire_of_move hlast).2
    rw [ih fun i hi => by rw [hmoves i (by omega), List.getElem?_append_left hi]] at hfire'
    rw [hlength]
    exact Option.some.inj (hfire'.symm.trans hfire)

end Schedule

/-- A run goes on to a schedule in which nobody makes a step any more. -/
theorem Run.exists_schedule {c₀ c : Config σ Λ τ} {ls : List (τ × ε)} (h : A.Run ok c₀ ls c) :
    ∃ S : A.Schedule ok τ, S.config 0 = c₀ ∧ (∀ i, S.move i = ls[i]?) ∧
      ∀ i, ls.length ≤ i → S.config i = c := by
  induction h with
  | nil => exact ⟨⟨fun _ => c₀, fun _ => none, fun _ => rfl⟩, rfl, fun _ => rfl, fun _ _ => rfl⟩
  | @snoc ls c t e c' _ hok hfire ih =>
    obtain ⟨S, hstart, hmoves, hend⟩ := ih
    refine ⟨⟨fun i => if i ≤ ls.length then S.config i else c', fun i => (ls ++ [(t, e)])[i]?,
      fun i => ?_⟩, ?_, fun _ => rfl, fun i hi => ?_⟩
    · have hfollows := S.follows i
      rw [hmoves i] at hfollows
      rcases lt_trichotomy i ls.length with hlt | rfl | hgt
      · rwa [if_pos hlt.le, if_pos (Nat.succ_le_of_lt hlt), List.getElem?_append_left hlt]
      · rw [if_pos le_rfl, if_neg (Nat.not_succ_le_self _), hend _ le_rfl,
          List.getElem?_concat_length]
        exact ⟨hok, hfire⟩
      · rw [if_neg hgt.not_ge, if_neg (by omega),
          List.getElem?_eq_none (List.length_append.trans_le hgt)]
        rfl
    · change (if 0 ≤ ls.length then S.config 0 else c') = c₀
      rw [if_pos (Nat.zero_le _), hstart]
    · rw [List.length_append, List.length_singleton] at hi
      exact if_neg (Nat.not_le_of_lt hi)

end TaskSystem
