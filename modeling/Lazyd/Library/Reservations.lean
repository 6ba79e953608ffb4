import Mathlib.Data.List.Nodup
import Mathlib.Data.List.Pairwise
import Mathlib.Logic.Function.Basic

/-!
# A list of what is held

Parties hold at most one item each, and a shared list is meant to have exactly the items that are
held, one entry for each holder. A party appends its item when it takes it, and removes it by value
when it lets go of it, which is right only as long as no two parties hold equal items.

## Main definitions

* `ListsHeld held l` : the list `l` has one entry for each party that holds an item.

## Main results

* `ListsHeld.push`, `ListsHeld.remove` : taking an item and letting go of it.
* `ListsHeld.mem_iff`, `ListsHeld.pairwise` : what the list says about the holders.
-/

variable {τ ρ : Type*}

/-- The list has the items that are held, one entry for each holder. -/
def ListsHeld (held : τ → Option ρ) (l : List ρ) : Prop :=
  ∃ holders : List τ, holders.Nodup ∧ (∀ t, t ∈ holders ↔ (held t).isSome = true) ∧
    l = holders.filterMap held

namespace ListsHeld

variable {held : τ → Option ρ} {l : List ρ}

theorem of_none (h : ∀ t, held t = none) : ListsHeld held [] := by
  refine ⟨[], List.nodup_nil, fun t => ?_, rfl⟩
  simp only [List.not_mem_nil, h t, Option.isSome_none, Bool.false_eq_true]

theorem mem_iff (h : ListsHeld held l) {r : ρ} : r ∈ l ↔ ∃ t, held t = some r := by
  obtain ⟨holders, -, hmem, rfl⟩ := h
  rw [List.mem_filterMap]
  constructor
  · rintro ⟨t, -, ht⟩
    exact ⟨t, ht⟩
  · rintro ⟨t, ht⟩
    refine ⟨t, (hmem t).mpr ?_, ht⟩
    rw [ht, Option.isSome_some]

/-- A relation between any two entries relates the items of any two holders. -/
theorem pairwise {R : ρ → ρ → Prop} (hsymm : ∀ r q, R r q → R q r) (h : ListsHeld held l)
    (hl : l.Pairwise R) {t u : τ} {r q : ρ} (htu : t ≠ u) (ht : held t = some r)
    (hu : held u = some q) : R r q := by
  obtain ⟨holders, -, hmem, rfl⟩ := h
  rw [List.pairwise_filterMap] at hl
  have : Std.Symm fun a b => ∀ r, held a = some r → ∀ q, held b = some q → R r q :=
    ⟨fun a b hab q hq r hr => hsymm _ _ (hab r hr q hq)⟩
  have htmem : t ∈ holders := (hmem t).mpr (by rw [ht, Option.isSome_some])
  have humem : u ∈ holders := (hmem u).mpr (by rw [hu, Option.isSome_some])
  exact hl.forall htmem humem htu r ht q hu

variable [DecidableEq τ]

/-- A party that holds nothing appends its item. -/
theorem push (h : ListsHeld held l) {t : τ} (ht : held t = none) (r : ρ) :
    ListsHeld (Function.update held t (some r)) (l ++ [r]) := by
  obtain ⟨holders, hnodup, hmem, rfl⟩ := h
  have hnew : t ∉ holders := by
    rw [hmem t, ht, Option.isSome_none]
    exact Bool.false_ne_true
  refine ⟨holders ++ [t], ?_, fun u => ?_, ?_⟩
  · rw [List.nodup_append]
    refine ⟨hnodup, List.nodup_singleton t, fun a ha b hb hab => hnew ?_⟩
    rwa [← List.mem_singleton.mp hb, ← hab]
  · rw [List.mem_append, List.mem_singleton, hmem u]
    by_cases hu : u = t
    · simp only [hu, or_true, Function.update_self, Option.isSome_some]
    · simp only [hu, or_false, ne_eq, not_false_eq_true, Function.update_of_ne]
  · have hold : holders.filterMap held = holders.filterMap (Function.update held t (some r)) := by
      refine List.filterMap_congr fun u hu => (Function.update_of_ne ?_ _ _).symm
      rintro rfl
      exact hnew hu
    rw [List.filterMap_append, ← hold, List.filterMap_cons, Function.update_self,
      List.filterMap_nil]

/-- A party removes its item by value; no other party holds an equal one. -/
theorem remove [DecidableEq ρ] (h : ListsHeld held l) {t : τ} {r : ρ} (ht : held t = some r)
    (hother : ∀ u, u ≠ t → held u ≠ some r) :
    ListsHeld (Function.update held t none) (l.filter fun item => item ≠ r) := by
  obtain ⟨holders, hnodup, hmem, rfl⟩ := h
  refine ⟨holders.filter fun u => u ≠ t, hnodup.filter _, fun u => ?_, ?_⟩
  · rw [List.mem_filter, hmem u]
    by_cases hu : u = t
    · simp only [hu, ne_eq, not_true_eq_false, decide_false, Bool.false_eq_true, and_false,
        Function.update_self, Option.isSome_none]
    · simp only [hu, ne_eq, not_false_eq_true, decide_true, and_true, Function.update_of_ne]
  · rw [List.filter_filterMap, List.filterMap_filter]
    refine List.filterMap_congr fun u _ => ?_
    by_cases hu : u = t
    · subst hu
      simp [ht]
    · have hne := hother u hu
      cases hheld : held u with
      | none => simp [hu, hheld]
      | some q =>
        have hq : q ≠ r := fun hqr => hne (by rw [hheld, hqr])
        simp [hu, hheld, hq]

end ListsHeld
