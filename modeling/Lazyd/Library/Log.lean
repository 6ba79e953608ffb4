import Mathlib.Data.List.Basic

/-!
# Logs

A *log* has the steps that have been made, in their order, each with what can be seen of it. The
step is any relation between a state, an entry of the log, and the next state.

## Main definitions

* `Logged` : the states that are reached with a log.

## Main results

* `Logged.stays` : the invariant rule, for entries that satisfy a condition.
* `Logged.split` : the state at an entry of the log.
* `Logged.since` : what an entry brings about and the entries behind it keep.
-/

/-- The states that are reached from `s₀` by the steps of a log. -/
inductive Logged {σ ℓ : Type*} (step : σ → ℓ → σ → Prop) (s₀ : σ) : List ℓ → σ → Prop
  | nil : Logged step s₀ [] s₀
  | snoc {log : List ℓ} {s s' : σ} {x : ℓ} (hrun : Logged step s₀ log s) (hstep : step s x s') :
    Logged step s₀ (log ++ [x]) s'

namespace Logged

variable {σ ℓ : Type*} {step : σ → ℓ → σ → Prop} {s₀ s : σ} {log : List ℓ}

/-- **The invariant rule.** What holds at first, and is kept by every step whose entry satisfies
`P`, holds after a log with such entries. -/
theorem stays {I : σ → Prop} {P : ℓ → Prop} (h : Logged step s₀ log s) (hlog : ∀ x ∈ log, P x)
    (hinit : I s₀) (hstep : ∀ s x s', I s → P x → step s x s' → I s') : I s := by
  induction h with
  | nil => exact hinit
  | @snoc log s s' x _ hx ih =>
    refine hstep s x s' (ih fun y hy => hlog y (List.mem_append_left _ hy)) (hlog x ?_) hx
    exact List.mem_append_right _ (List.mem_singleton_self x)

/-- The invariant rule without a condition on the entries. -/
theorem invariant {I : σ → Prop} (h : Logged step s₀ log s) (hinit : I s₀)
    (hstep : ∀ s x s', I s → step s x s' → I s') : I s :=
  h.stays (P := fun _ => True) (fun _ _ => trivial) hinit fun s x s' hI _ => hstep s x s' hI

/-- The steps up to an entry, its own step, and the steps behind it. -/
theorem split {before after : List ℓ} {x : ℓ} (h : Logged step s₀ log s)
    (hlog : log = before ++ x :: after) :
    ∃ s₁ s₂, Logged step s₀ before s₁ ∧ step s₁ x s₂ ∧ Logged step s₂ after s := by
  induction h generalizing after with
  | nil => exact absurd hlog (by simp)
  | @snoc log s s' y hrun hy ih =>
    rcases List.eq_nil_or_concat after with rfl | ⟨after, last, rfl⟩
    · obtain ⟨rfl, hlast⟩ := List.append_inj' hlog rfl
      obtain rfl := (List.cons.inj hlast).1
      exact ⟨s, s', hrun, hy, .nil⟩
    · rw [List.concat_eq_append] at hlog ⊢
      rw [← List.cons_append, ← List.append_assoc] at hlog
      obtain ⟨hlog, hlast⟩ := List.append_inj' hlog rfl
      obtain ⟨s₁, s₂, hbefore, hx, hafter⟩ := ih hlog
      obtain rfl := (List.cons.inj hlast).1
      exact ⟨s₁, s₂, hbefore, hx, hafter.snoc hy⟩

/-- **Once, and from then on.** What the step of an entry brings about, and the steps behind it keep
if their entries satisfy `P`, holds in the end. -/
theorem since {I : σ → Prop} {P : ℓ → Prop} {before after : List ℓ} {x : ℓ}
    (h : Logged step s₀ log s) (hlog : log = before ++ x :: after)
    (hx : ∀ s₁ s₂, Logged step s₀ before s₁ → step s₁ x s₂ → I s₂) (hafter : ∀ y ∈ after, P y)
    (hstep : ∀ s y s', I s → P y → step s y s' → I s') : I s := by
  obtain ⟨s₁, s₂, hbefore, hstep₁, hrest⟩ := h.split hlog
  exact hrest.stays hafter (hx s₁ s₂ hbefore hstep₁) hstep

end Logged
