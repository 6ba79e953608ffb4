import Mathlib.Logic.Function.Basic
import Mathlib.Data.List.Basic

/-!
# Tasks interleaved over a shared state

A *task system* says what one atomic step of a task does to the state that all tasks share and to
the local state of the task. Any number of tasks run over one shared state, in any order of steps.
What the environment may answer in a step is restricted by a predicate on the local state of the
stepping task and its event; a run that respects it is a `TaskSystem.Run`.

## Main definitions

* `TaskSystem`, `TaskSystem.Config`, `TaskSystem.fire` : the interleaved step.
* `TaskSystem.Run` : the runs of any number of tasks under a restricted environment.
* `TaskSystem.observe` : what the steps of a run show.
* `TaskSystem.solo`, `TaskSystem.SoloOk` : one task running alone.

## Main results

* `TaskSystem.Run.invariant` : the invariant rule.
* `TaskSystem.Run.potential` : the potential rule, for counting steps.
* `TaskSystem.Run.rely` : the rely rule; assertions of a task survive what the others do.
* `TaskSystem.Run.locals` : the rely rule for assertions that name only local states.
* `TaskSystem.Run.rely_trans` : what any number of steps may do.
* `TaskSystem.Run.observed` : a run under the environment that does only what the run shows.
* `TaskSystem.solo_rely`, `TaskSystem.solo_invariant`, `TaskSystem.solo_rel` : the rules for one
  task running alone.
* `TaskSystem.Run.of_solo` : a task running alone is one of the runs.
-/

/-- One atomic step of a task: from the shared state and the local state of the task, and for an
event that says what the environment answers, the two states after the step. -/
structure TaskSystem (σ Λ ε : Type*) where
  step : σ → Λ → ε → Option (σ × Λ)

namespace TaskSystem

variable {σ Λ ε τ α : Type*}

/-- The shared state and the local state of every task. -/
structure Config (σ Λ τ : Type*) where
  shared : σ
  task : τ → Λ

variable [DecidableEq τ] (A : TaskSystem σ Λ ε) (ok : Λ → ε → Prop)

/-- The task `t` makes the step `e`. -/
def fire (c : Config σ Λ τ) (t : τ) (e : ε) : Option (Config σ Λ τ) :=
  (A.step c.shared (c.task t) e).map fun p => ⟨p.1, Function.update c.task t p.2⟩

/-- The runs from `c₀`, with the steps made, under an environment restricted by `ok`. -/
inductive Run (c₀ : Config σ Λ τ) : List (τ × ε) → Config σ Λ τ → Prop
  | nil : Run c₀ [] c₀
  | snoc {ls c t e c'} (hrun : Run c₀ ls c) (hok : ok (c.task t) e)
      (hfire : A.fire c t e = some c') : Run c₀ (ls ++ [(t, e)]) c'

/-- What the given steps show from `c` on, a step `e` at the local state `l` showing `f l e`. -/
def observe (f : Λ → ε → List α) : Config σ Λ τ → List (τ × ε) → List α
  | _, [] => []
  | c, (t, e) :: ls =>
    f (c.task t) e ++ match A.fire c t e with
      | none => []
      | some c' => observe f c' ls

variable {A ok}

theorem fire_eq_some {c c' : Config σ Λ τ} {t : τ} {e : ε} :
    A.fire c t e = some c' ↔ ∃ s' l', A.step c.shared (c.task t) e = some (s', l') ∧
      c' = ⟨s', Function.update c.task t l'⟩ := by
  rw [fire, Option.map_eq_some_iff]
  constructor
  · rintro ⟨⟨s', l'⟩, hstep, rfl⟩
    exact ⟨s', l', hstep, rfl⟩
  · rintro ⟨s', l', hstep, rfl⟩
    exact ⟨(s', l'), hstep, rfl⟩

theorem fire_step {c c' : Config σ Λ τ} {t : τ} {e : ε} (h : A.fire c t e = some c') :
    A.step c.shared (c.task t) e = some (c'.shared, c'.task t) := by
  obtain ⟨s', l', hstep, rfl⟩ := fire_eq_some.mp h
  rw [hstep]
  simp only [Function.update_self]

theorem fire_task_of_ne {c c' : Config σ Λ τ} {t u : τ} {e : ε} (h : A.fire c t e = some c')
    (hu : u ≠ t) : c'.task u = c.task u := by
  obtain ⟨s', l', -, rfl⟩ := fire_eq_some.mp h
  exact Function.update_of_ne hu _ _

theorem fire_update {s s' : σ} {l l' : Λ} {f : τ → Λ} {t : τ} {e : ε}
    (h : A.step s l e = some (s', l')) :
    A.fire ⟨s, Function.update f t l⟩ t e = some ⟨s', Function.update f t l'⟩ := by
  refine fire_eq_some.mpr ⟨s', l', ?_, ?_⟩
  · simpa only [Function.update_self] using h
  · simp only [Function.update_idem]

namespace Run

variable {c₀ c c' : Config σ Λ τ} {ls ls' : List (τ × ε)}

theorem append (h : A.Run ok c₀ ls c) (h' : A.Run ok c ls' c') : A.Run ok c₀ (ls ++ ls') c' := by
  induction h' with
  | nil => simpa only [List.append_nil] using h
  | snoc _ hok hfire ih =>
    rw [← List.append_assoc]
    exact ih.snoc hok hfire

theorem mono {ok' : Λ → ε → Prop} (hok : ∀ l e, ok l e → ok' l e) (h : A.Run ok c₀ ls c) :
    A.Run ok' c₀ ls c := by
  induction h with
  | nil => exact .nil
  | snoc _ h hfire ih => exact ih.snoc (hok _ _ h) hfire

/-- **The invariant rule.** What holds initially and is kept by every step holds in every state
of a run. -/
theorem invariant {I : Config σ Λ τ → Prop} (hinit : I c₀)
    (hstep : ∀ c t e c', I c → ok (c.task t) e → A.fire c t e = some c' → I c')
    (h : A.Run ok c₀ ls c) : I c := by
  induction h with
  | nil => exact hinit
  | snoc _ hok hfire ih => exact hstep _ _ _ _ ih hok hfire

/-- **The rely rule.** Let `I` be an invariant of the shared state and `L` an assertion about the
shared state and the local state of one task. If every step keeps `I` and the assertion of its own
task and changes the shared state only as `R` allows, and what `R` allows breaks no assertion, then
`I` and the assertions of all tasks hold in every state of a run. -/
theorem rely {I : σ → Prop} {L : σ → Λ → Prop} {R : σ → σ → Prop} (hinit : I c₀.shared)
    (hlocal : ∀ t, L c₀.shared (c₀.task t))
    (hstep : ∀ s l e s' l', I s → L s l → ok l e → A.step s l e = some (s', l') →
      I s' ∧ L s' l' ∧ R s s')
    (hstable : ∀ s s' l, R s s' → L s l → L s' l) (h : A.Run ok c₀ ls c) :
    I c.shared ∧ ∀ t, L c.shared (c.task t) := by
  refine h.invariant (I := fun c => I c.shared ∧ ∀ t, L c.shared (c.task t)) ⟨hinit, hlocal⟩ ?_
  intro c t e c' hc hok hfire
  obtain ⟨s', l', hst, rfl⟩ := fire_eq_some.mp hfire
  obtain ⟨hI, hL, hR⟩ := hstep _ _ _ _ _ hc.1 (hc.2 t) hok hst
  refine ⟨hI, fun u => ?_⟩
  by_cases hu : u = t
  · subst hu
    simpa only [Function.update_self] using hL
  · simpa only [Function.update_of_ne hu] using hstable _ _ _ hR (hc.2 u)

/-- The rely rule for an assertion about the local state of a task alone, which the steps of other
tasks cannot break. -/
theorem locals {I : σ → Prop} {L : Λ → Prop} (hinit : I c₀.shared) (hlocal : ∀ t, L (c₀.task t))
    (hstep : ∀ s l e s' l', I s → L l → ok l e → A.step s l e = some (s', l') → I s' ∧ L l')
    (h : A.Run ok c₀ ls c) : I c.shared ∧ ∀ t, L (c.task t) := by
  refine h.rely (L := fun _ => L) (R := fun _ _ => True) hinit hlocal ?_ fun _ _ _ _ hl => hl
  intro s l e s' l' hs hl hok hst
  obtain ⟨hs', hl'⟩ := hstep s l e s' l' hs hl hok hst
  exact ⟨hs', hl', trivial⟩

/-- The rely rule with what it says about the first and the last shared state, if `R` is a
preorder. -/
theorem rely_trans {I : σ → Prop} {L : σ → Λ → Prop} {R : σ → σ → Prop} (hrefl : ∀ s, R s s)
    (htrans : ∀ s₁ s₂ s₃, R s₁ s₂ → R s₂ s₃ → R s₁ s₃) (hinit : I c₀.shared)
    (hlocal : ∀ t, L c₀.shared (c₀.task t))
    (hstep : ∀ s l e s' l', I s → L s l → ok l e → A.step s l e = some (s', l') →
      I s' ∧ L s' l' ∧ R s s')
    (hstable : ∀ s s' l, R s s' → L s l → L s' l) (h : A.Run ok c₀ ls c) :
    (I c.shared ∧ ∀ t, L c.shared (c.task t)) ∧ R c₀.shared c.shared := by
  refine ⟨h.rely hinit hlocal hstep hstable, ?_⟩
  induction h with
  | nil => exact hrefl _
  | @snoc ls c t e c' hrun hok hfire ih =>
    obtain ⟨hI, hL⟩ := hrun.rely hinit hlocal hstep hstable
    exact htrans _ _ _ ih (hstep _ _ _ _ _ hI (hL t) hok (fire_step hfire)).2.2

/-- **The potential rule.** If no step decreases `Φ` and every step with `p` increases it, then `Φ`
bounds the number of steps with `p`. -/
theorem potential {I : Config σ Λ τ → Prop} {Φ : Config σ Λ τ → ℕ} {p : ε → Bool} (hinit : I c₀)
    (hstep : ∀ c t e c', I c → ok (c.task t) e → A.fire c t e = some c' → I c')
    (hΦ : ∀ c t e c', I c → A.fire c t e = some c' → Φ c ≤ Φ c' ∧ (p e = true → Φ c < Φ c'))
    (h : A.Run ok c₀ ls c) : (ls.countP fun q => p q.2) + Φ c₀ ≤ Φ c := by
  induction h with
  | nil => exact Nat.le_of_eq (Nat.zero_add _)
  | @snoc ls c t e c' hrun hok hfire ih =>
    obtain ⟨hle, hlt⟩ := hΦ c t e c' (hrun.invariant hinit hstep) hfire
    rw [List.countP_append, List.countP_singleton]
    split_ifs with hp
    · have hlt := hlt hp
      omega
    · omega

theorem observe_append (f : Λ → ε → List α) (h : A.Run ok c₀ ls c) (ls' : List (τ × ε)) :
    A.observe f c₀ (ls ++ ls') = A.observe f c₀ ls ++ A.observe f c ls' := by
  induction h generalizing ls' with
  | nil => rfl
  | @snoc ls c t e c' _ _ hfire ih =>
    have hcons (ls' : List (τ × ε)) :
        A.observe f c ((t, e) :: ls') = f (c.task t) e ++ A.observe f c' ls' := by
      rw [observe, hfire]
    rw [List.append_assoc, List.singleton_append, ih, ih, hcons, hcons, observe, List.append_nil,
      List.append_assoc]

theorem observe_snoc (f : Λ → ε → List α) {t : τ} {e : ε} (h : A.Run ok c₀ ls c)
    (hfire : A.fire c t e = some c') :
    A.observe f c₀ (ls ++ [(t, e)]) = A.observe f c₀ ls ++ f (c.task t) e := by
  simp only [h.observe_append, observe, hfire, List.append_nil]

/-- A run is also one under the environment that does only what the run shows. -/
theorem observed (f : Λ → ε → List α) (h : A.Run ok c₀ ls c) :
    A.Run (fun l e => ok l e ∧ ∀ x ∈ f l e, x ∈ A.observe f c₀ ls) c₀ ls c := by
  induction h with
  | nil => exact .nil
  | @snoc ls c t e c' hrun hok hfire ih =>
    have hsnoc := hrun.observe_snoc f hfire
    have hmore : ∀ x ∈ A.observe f c₀ ls, x ∈ A.observe f c₀ (ls ++ [(t, e)]) := by
      intro x hx
      rw [hsnoc]
      exact List.mem_append_left _ hx
    refine (ih.mono fun l e h => ⟨h.1, fun x hx => hmore x (h.2 x hx)⟩).snoc ⟨hok, ?_⟩ hfire
    intro x hx
    rw [hsnoc]
    exact List.mem_append_right _ hx

end Run

/-! ### One task alone -/

variable (A ok)

/-- One task making the given steps with nobody else running. -/
def solo : σ → Λ → List ε → Option (σ × Λ)
  | s, l, [] => some (s, l)
  | s, l, e :: es => (A.step s l e).bind fun p => solo p.1 p.2 es

/-- The environment respects `ok` in every step of a task running alone. -/
def SoloOk : σ → Λ → List ε → Prop
  | _, _, [] => True
  | s, l, e :: es => ok l e ∧ ∀ s' l', A.step s l e = some (s', l') → SoloOk s' l' es

variable {A ok}

theorem solo_cons_eq_some {s s' : σ} {l l' : Λ} {e : ε} {es : List ε} :
    A.solo s l (e :: es) = some (s', l') ↔
      ∃ s₁ l₁, A.step s l e = some (s₁, l₁) ∧ A.solo s₁ l₁ es = some (s', l') := by
  simp only [solo, Option.bind_eq_some_iff, Prod.exists]

theorem solo_append (s : σ) (l : Λ) (es es' : List ε) :
    A.solo s l (es ++ es') = (A.solo s l es).bind fun p => A.solo p.1 p.2 es' := by
  induction es generalizing s l with
  | nil => rfl
  | cons e es ih => simp only [List.cons_append, solo, ih, Option.bind_assoc]

/-- The rely rule for one task alone; `R` is transitive here, so that it also relates the first
and the last shared state. -/
theorem solo_rely {I : σ → Prop} {L : σ → Λ → Prop} {R : σ → σ → Prop} (hrefl : ∀ s, R s s)
    (htrans : ∀ s₁ s₂ s₃, R s₁ s₂ → R s₂ s₃ → R s₁ s₃)
    (hstep : ∀ s l e s' l', I s → L s l → ok l e → A.step s l e = some (s', l') →
      I s' ∧ L s' l' ∧ R s s')
    {s s' : σ} {l l' : Λ} {es : List ε} (hI : I s) (hL : L s l) (hok : A.SoloOk ok s l es)
    (h : A.solo s l es = some (s', l')) : I s' ∧ L s' l' ∧ R s s' := by
  induction es generalizing s l with
  | nil =>
    obtain ⟨rfl, rfl⟩ := Prod.mk.inj (Option.some.inj h)
    exact ⟨hI, hL, hrefl s⟩
  | cons e es ih =>
    obtain ⟨s₁, l₁, hst, hrest⟩ := solo_cons_eq_some.mp h
    obtain ⟨hI₁, hL₁, hR₁⟩ := hstep _ _ _ _ _ hI hL hok.1 hst
    obtain ⟨hI', hL', hR'⟩ := ih hI₁ hL₁ (hok.2 _ _ hst) hrest
    exact ⟨hI', hL', htrans _ _ _ hR₁ hR'⟩

/-- An environment that respects `ok` whatever the local state is. -/
theorem soloOk_of_forall {es : List ε} (h : ∀ e ∈ es, ∀ l, ok l e) (s : σ) (l : Λ) :
    A.SoloOk ok s l es := by
  induction es generalizing s l with
  | nil => trivial
  | cons e es ih =>
    exact ⟨h e List.mem_cons_self l,
      fun s' l' _ => ih (fun e' he' => h e' (List.mem_cons_of_mem e he')) s' l'⟩

theorem SoloOk.cons {s s' : σ} {l l' : Λ} {e : ε} {es : List ε} (hok : ok l e)
    (hstep : A.step s l e = some (s', l')) (h : A.SoloOk ok s' l' es) :
    A.SoloOk ok s l (e :: es) := by
  refine ⟨hok, fun s₁ l₁ hstep₁ => ?_⟩
  obtain ⟨rfl, rfl⟩ := Prod.mk.inj (Option.some.inj (hstep.symm.trans hstep₁))
  exact h

theorem soloOk_true (s : σ) (l : Λ) (es : List ε) : A.SoloOk (fun _ _ => True) s l es :=
  soloOk_of_forall (fun _ _ _ => trivial) s l

/-- The invariant rule for one task alone. -/
theorem solo_invariant {I : σ → Λ → Prop}
    (hstep : ∀ s l e s' l', I s l → A.step s l e = some (s', l') → I s' l')
    {s s' : σ} {l l' : Λ} {es : List ε} (hI : I s l) (h : A.solo s l es = some (s', l')) :
    I s' l' := by
  refine (solo_rely (I := fun _ => True) (R := fun _ _ => True) (fun _ => trivial)
    (fun _ _ _ _ _ => trivial) ?_ trivial hI (soloOk_true s l es) h).2.1
  intro s l e s' l' _ hl _ hst
  exact ⟨trivial, hstep s l e s' l' hl hst, trivial⟩

/-- What relates the shared states of every step relates the first and the last one, if it is a
preorder. -/
theorem solo_rel {R : σ → σ → Prop} (hrefl : ∀ s, R s s)
    (htrans : ∀ s₁ s₂ s₃, R s₁ s₂ → R s₂ s₃ → R s₁ s₃)
    (hstep : ∀ s l e s' l', A.step s l e = some (s', l') → R s s')
    {s s' : σ} {l l' : Λ} {es : List ε} (h : A.solo s l es = some (s', l')) : R s s' := by
  refine (solo_rely (I := fun _ => True) (L := fun _ _ => True) hrefl htrans ?_ trivial trivial
    (soloOk_true s l es) h).2.2
  intro s l e s' l' _ _ _ hst
  exact ⟨trivial, trivial, hstep s l e s' l' hst⟩

/-- A task running alone is one of the runs. -/
theorem Run.of_solo {c : Config σ Λ τ} {t : τ} {s' : σ} {l' : Λ} {es : List ε}
    (hok : A.SoloOk ok c.shared (c.task t) es)
    (h : A.solo c.shared (c.task t) es = some (s', l')) :
    A.Run ok c (es.map fun e => (t, e)) ⟨s', Function.update c.task t l'⟩ := by
  induction es generalizing c with
  | nil =>
    obtain ⟨rfl, rfl⟩ := Prod.mk.inj (Option.some.inj h)
    rw [Function.update_eq_self]
    exact .nil
  | cons e es ih =>
    obtain ⟨s₁, l₁, hst, hrest⟩ := solo_cons_eq_some.mp h
    have hfire : A.fire c t e = some ⟨s₁, Function.update c.task t l₁⟩ :=
      fire_eq_some.mpr ⟨s₁, l₁, hst, rfl⟩
    have hrun := ih (c := ⟨s₁, Function.update c.task t l₁⟩)
      (by simpa only [Function.update_self] using hok.2 _ _ hst)
      (by simpa only [Function.update_self] using hrest)
    rw [Function.update_idem] at hrun
    exact (Run.nil.snoc hok.1 hfire).append hrun

end TaskSystem
