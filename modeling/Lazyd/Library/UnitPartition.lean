import Mathlib.Algebra.Order.Floor.Div
import Mathlib.Order.Interval.Set.Basic
import Mathlib.Data.Set.Lattice
import Mathlib.Order.CompletePartialOrder

/-!
# Partition of an initial segment into units

The segment `[0, S)` of the natural numbers is cut into consecutive cells of `u` elements, the
last one being cut off at `S`. A range `[a, b)` rounded outward consists of the cells
`a / u ≤ k < b ⌈/⌉ u`. This file describes the cells and the rounded ranges by membership, from
which containment, disjointness and the effect of rounding twice follow.

## Main definitions

* `UnitPartition.cell` : the `k`-th cell.
* `UnitPartition.Touches` : the cells that a range rounded outward consists of.

## Main results

* `UnitPartition.mem_cell_iff` : an element below `S` lies in exactly the cell of its quotient.
* `UnitPartition.mem_outward_iff`, `UnitPartition.iUnion_cell_eq_outward` : a range rounded
  outward is the union of the cells that it touches.
* `UnitPartition.inter_nonempty_iff` : a range meets the cells that it touches.
* `UnitPartition.touches_outward` : rounding outward twice touches the same cells.
-/

namespace UnitPartition

variable {u S : ℕ}

/-- The `k`-th cell of `u` elements of `[0, S)`. -/
def cell (u S k : ℕ) : Set ℕ := Set.Ico (k * u) (min (k * u + u) S)

/-- The cells of a range `[a, b)` rounded outward. -/
def Touches (u a b k : ℕ) : Prop := a / u ≤ k ∧ k < b ⌈/⌉ u

instance (u a b k : ℕ) : Decidable (Touches u a b k) :=
  inferInstanceAs (Decidable (_ ∧ _))

theorem lt_ceilDiv_iff (hu : 0 < u) {b k : ℕ} : k < b ⌈/⌉ u ↔ k * u < b := by
  rw [← not_le, ceilDiv_le_iff_le_mul hu, not_le, mul_comm]

theorem le_ceilDiv_mul (hu : 0 < u) (b : ℕ) : b ≤ b ⌈/⌉ u * u := by
  rw [mul_comm]
  exact (ceilDiv_le_iff_le_mul hu).mp le_rfl

theorem ceilDiv_mul_lt (hu : 0 < u) (b : ℕ) : b ⌈/⌉ u * u < b + u := by
  rcases Nat.eq_zero_or_pos (b ⌈/⌉ u) with h | h
  · rw [h, Nat.zero_mul]
    omega
  · have hlast : b ⌈/⌉ u - 1 < b ⌈/⌉ u := by omega
    have hb : (b ⌈/⌉ u - 1) * u < b := (lt_ceilDiv_iff hu).mp hlast
    have hsucc : b ⌈/⌉ u * u = (b ⌈/⌉ u - 1) * u + u := by
      rw [← Nat.succ_mul, Nat.succ_eq_add_one, Nat.sub_add_cancel h]
    omega

theorem ceilDiv_mono (hu : 0 < u) {a b : ℕ} (h : a ≤ b) : a ⌈/⌉ u ≤ b ⌈/⌉ u :=
  (ceilDiv_le_iff_le_mul hu).mpr (h.trans ((le_ceilDiv_mul hu b).trans (mul_comm _ _).le))

/-- An element below `S` lies in the cell of its quotient, and in no other. -/
theorem mem_cell_iff (hu : 0 < u) {k p : ℕ} : p ∈ cell u S k ↔ p / u = k ∧ p < S := by
  have hdiv : p / u = k ↔ k * u ≤ p ∧ p < k * u + u := by
    rw [Nat.div_eq_iff hu]
    omega
  rw [cell, Set.mem_Ico, lt_min_iff, hdiv, and_assoc]

theorem disjoint_cell (hu : 0 < u) {k l : ℕ} (h : k ≠ l) : Disjoint (cell u S k) (cell u S l) := by
  rw [Set.disjoint_left]
  intro p hk hl
  exact h (((mem_cell_iff hu).mp hk).1.symm.trans ((mem_cell_iff hu).mp hl).1)

theorem lt_ceilDiv_of_mem_cell (hu : 0 < u) {k p : ℕ} (h : p ∈ cell u S k) : k < S ⌈/⌉ u := by
  rw [lt_ceilDiv_iff hu]
  exact lt_of_le_of_lt h.1 (lt_of_lt_of_le h.2 (min_le_right _ _))

/-- The range `[a, b)` rounded outward and cut off at `S`, by membership. -/
theorem mem_outward_iff (hu : 0 < u) {a b p : ℕ} :
    p ∈ Set.Ico (a / u * u) (min (b ⌈/⌉ u * u) S) ↔ Touches u a b (p / u) ∧ p < S := by
  rw [Set.mem_Ico, lt_min_iff, Touches, Nat.le_div_iff_mul_le hu, Nat.div_lt_iff_lt_mul hu,
    and_assoc]

theorem cell_subset_outward (hu : 0 < u) {a b k : ℕ} (h : Touches u a b k) :
    cell u S k ⊆ Set.Ico (a / u * u) (min (b ⌈/⌉ u * u) S) := by
  intro p hp
  obtain ⟨rfl, hS⟩ := (mem_cell_iff hu).mp hp
  exact (mem_outward_iff hu).mpr ⟨h, hS⟩

/-- A range rounded outward is the union of the cells that it touches. -/
theorem iUnion_cell_eq_outward (hu : 0 < u) (a b : ℕ) :
    ⋃ k ∈ {k | Touches u a b k}, cell u S k = Set.Ico (a / u * u) (min (b ⌈/⌉ u * u) S) := by
  ext p
  simp only [Set.mem_iUnion, Set.mem_ofPred_eq, exists_prop, mem_cell_iff hu, mem_outward_iff hu]
  constructor
  · rintro ⟨k, hk, rfl, hS⟩
    exact ⟨hk, hS⟩
  · rintro ⟨hk, hS⟩
    exact ⟨p / u, hk, rfl, hS⟩

theorem touches_of_mem (hu : 0 < u) {a b p : ℕ} (h : p ∈ Set.Ico a b) : Touches u a b (p / u) :=
  ⟨Nat.div_le_div_right h.1, (lt_ceilDiv_iff hu).mpr (lt_of_le_of_lt (Nat.div_mul_le_self p u) h.2)⟩

theorem touches_left (hu : 0 < u) {a b : ℕ} (h : a < b) : Touches u a b (a / u) :=
  touches_of_mem hu ⟨le_rfl, h⟩

/-- The cells that a range inside `[0, S)` touches are those that it meets. -/
theorem inter_nonempty_iff (hu : 0 < u) {a b k : ℕ} (hab : a < b) (hb : b ≤ S) :
    (cell u S k ∩ Set.Ico a b).Nonempty ↔ Touches u a b k := by
  constructor
  · rintro ⟨p, hp, hab⟩
    obtain ⟨rfl, -⟩ := (mem_cell_iff hu).mp hp
    exact touches_of_mem hu hab
  · rintro ⟨hleft, hright⟩
    have hlt : k * u < b := (lt_ceilDiv_iff hu).mp hright
    rcases le_total a (k * u) with hle | hle
    · exact ⟨k * u, (mem_cell_iff hu).mpr ⟨Nat.mul_div_cancel k hu, hlt.trans_le hb⟩, hle, hlt⟩
    · have hquot : a / u = k := le_antisymm hleft ((Nat.le_div_iff_mul_le hu).mpr hle)
      exact ⟨a, (mem_cell_iff hu).mpr ⟨hquot, hab.trans_le hb⟩, le_rfl, hab⟩

theorem outward_left_lt_right (hu : 0 < u) {a b : ℕ} (h : a < b) (hb : b ≤ S) :
    a / u * u < min (b ⌈/⌉ u * u) S :=
  lt_of_le_of_lt (Nat.div_mul_le_self a u)
    (lt_min (lt_of_lt_of_le h (le_ceilDiv_mul hu b)) (lt_of_lt_of_le h hb))

theorem ceilDiv_outward (hu : 0 < u) {b : ℕ} (hb : b ≤ S) :
    min (b ⌈/⌉ u * u) S ⌈/⌉ u = b ⌈/⌉ u := by
  apply le_antisymm
  · exact (ceilDiv_le_iff_le_mul hu).mpr ((min_le_left _ _).trans (mul_comm _ _).le)
  · exact ceilDiv_mono hu (le_min (le_ceilDiv_mul hu b) hb)

/-- Rounding outward twice touches the same cells as rounding once. -/
theorem touches_outward (hu : 0 < u) {a b : ℕ} (hb : b ≤ S) {k : ℕ} :
    Touches u (a / u * u) (min (b ⌈/⌉ u * u) S) k ↔ Touches u a b k := by
  rw [Touches, Touches, Nat.mul_div_cancel _ hu, ceilDiv_outward hu hb]

/-- Two ranges inside `[0, S)` whose outward roundings are disjoint touch no common cell. -/
theorem not_touches_of_disjoint (hu : 0 < u) {a b c d k : ℕ} (hb : b ≤ S)
    (hdisj : Disjoint (Set.Ico (a / u * u) (min (b ⌈/⌉ u * u) S))
      (Set.Ico (c / u * u) (min (d ⌈/⌉ u * u) S)))
    (hk : Touches u a b k) : ¬ Touches u c d k := by
  intro hk'
  have hmem : k * u ∈ cell u S k :=
    (mem_cell_iff hu).mpr ⟨Nat.mul_div_cancel k hu,
      lt_of_lt_of_le ((lt_ceilDiv_iff hu).mp hk.2) hb⟩
  exact Set.disjoint_left.mp hdisj (cell_subset_outward hu hk hmem)
    (cell_subset_outward hu hk' hmem)

end UnitPartition
