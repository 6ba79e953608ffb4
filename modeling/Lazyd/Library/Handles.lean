import Mathlib.Data.Finset.Card

/-!
# Open handles

A table has the handles that are open. A handle is opened by taking one that is not in the table,
and closed by taking it out. Where several are opened at once, as many are open afterwards as have
not been closed. Where several owners hold handles of one table, each handle that is held is open
until its owner closes it, and nobody else holds it, however the numbers are used again.

## Main definitions

* `HandleSource` : where new handles come from.
* `HandleSource.openMany` : several handles, opened one after the other.
* `HandleSource.lowest` : the lowest number that is not open.
* `Owned` : the owners of the handles in a table.

## Main results

* `HandleSource.mem_openMany` : what is open then.
* `HandleSource.notMem_of_mem_openMany`, `HandleSource.nodup_openMany` : the handles are new, and
  different from each other.
* `Owned.grow`, `Owned.drop`, `Owned.take`, `Owned.release` : what the owners and others may do.
* `Labels.filter_grow`, `Labels.filter_insert`, `Labels.filter_erase`, `Labels.card_grow` : the
  handles with a label.
-/

/-- For every table a handle that is not open. -/
structure HandleSource (α : Type*) where
  next : Finset α → α
  next_notMem : ∀ table, next table ∉ table

namespace HandleSource

variable {α : Type*} [DecidableEq α] (A : HandleSource α)

/-- The handles that are opened one after the other, and the table with them. -/
def openMany : ℕ → Finset α → List α × Finset α
  | 0, table => ([], table)
  | n + 1, table =>
    (A.next table :: (openMany n (insert (A.next table) table)).1,
      (openMany n (insert (A.next table) table)).2)

theorem length_openMany (n : ℕ) (table : Finset α) : (A.openMany n table).1.length = n := by
  induction n generalizing table with
  | zero => rfl
  | succ n ih => rw [openMany, List.length_cons, ih]

/-- What is open then: what was open before, and the new handles. -/
theorem mem_openMany {n : ℕ} {table : Finset α} {handle : α} :
    handle ∈ (A.openMany n table).2 ↔ handle ∈ table ∨ handle ∈ (A.openMany n table).1 := by
  induction n generalizing table with
  | zero => simp only [openMany, List.not_mem_nil, or_false]
  | succ n ih =>
    rw [openMany, ih, Finset.mem_insert, List.mem_cons]
    tauto

/-- The new handles were not open before. -/
theorem notMem_of_mem_openMany {n : ℕ} {table : Finset α} {handle : α}
    (h : handle ∈ (A.openMany n table).1) : handle ∉ table := by
  induction n generalizing table with
  | zero => exact absurd h List.not_mem_nil
  | succ n ih =>
    rw [openMany, List.mem_cons] at h
    rcases h with rfl | h
    · exact A.next_notMem table
    · exact fun hmem => ih h (Finset.mem_insert_of_mem hmem)

/-- The new handles are different from each other. -/
theorem nodup_openMany (n : ℕ) (table : Finset α) : (A.openMany n table).1.Nodup := by
  induction n generalizing table with
  | zero => exact List.nodup_nil
  | succ n ih =>
    rw [openMany, List.nodup_cons]
    exact ⟨fun h => A.notMem_of_mem_openMany h (Finset.mem_insert_self _ _), ih _⟩

theorem exists_notMem_of_le_card (table : Finset ℕ) : ∃ n ≤ table.card, n ∉ table := by
  obtain ⟨n, hn, hmem⟩ := Finset.exists_mem_notMem_of_card_lt_card
    (s := table) (t := Finset.range (table.card + 1)) (by rw [Finset.card_range]; omega)
  exact ⟨n, Nat.lt_succ_iff.mp (Finset.mem_range.mp hn), hmem⟩

/-- The lowest number that is not open. -/
def lowest : HandleSource ℕ where
  next table := ((List.range (table.card + 1)).find? (· ∉ table)).getD 0
  next_notMem table := by
    obtain ⟨n, hle, hn⟩ := exists_notMem_of_le_card table
    cases hfind : (List.range (table.card + 1)).find? (· ∉ table) with
    | none =>
      have hall := List.find?_eq_none.mp hfind n (List.mem_range.mpr (Nat.lt_succ_of_le hle))
      exact absurd (decide_eq_true hn) hall
    | some found =>
      have hfound := List.find?_some hfind
      exact of_decide_eq_true hfound

end HandleSource

/-! ### Owners -/

/-- **Owners.** Every handle is labelled; some labels are `free`, and nobody holds a handle with one
of these. What an owner holds is open, has the label that the owner thinks it has, and is held by
nobody else; and somebody holds every open handle whose label is not free. -/
structure Owned {α β τ : Type*} (free : β → Prop) (table : Finset α) (label : α → β)
    (holds : τ → Option (α × β)) : Prop where
  mem : ∀ {t a b}, holds t = some (a, b) → a ∈ table ∧ label a = b ∧ ¬ free b
  unique : ∀ {t u a b c}, holds t = some (a, b) → holds u = some (a, c) → t = u
  owner : ∀ {a}, a ∈ table → ¬ free (label a) → ∃ t, holds t = some (a, label a)

namespace Owned

variable {α β τ : Type*} {free : β → Prop} {table table' : Finset α} {label label' : α → β}
  {holds : τ → Option (α × β)} {t : τ} {a : α} {b : β}

/-- Handles are opened that nobody holds. -/
theorem grow (h : Owned free table label holds)
    (hold : ∀ a ∈ table, a ∈ table' ∧ label' a = label a)
    (hnew : ∀ a ∈ table', a ∉ table → free (label' a)) : Owned free table' label' holds where
  mem hu := by
    obtain ⟨hmem, hlabel, hb⟩ := h.mem hu
    exact ⟨(hold _ hmem).1, (hold _ hmem).2.trans hlabel, hb⟩
  unique := h.unique
  owner {a} ha hlabel := by
    by_cases hmem : a ∈ table
    · rw [(hold a hmem).2] at hlabel ⊢
      exact h.owner hmem hlabel
    · exact absurd (hnew a ha hmem) hlabel

variable [DecidableEq α]

/-- A handle is closed that nobody holds. -/
theorem drop (h : Owned free table label holds) (ha : free (label a)) :
    Owned free (table.erase a) label holds where
  mem hu := by
    obtain ⟨hmem, hlabel, hb⟩ := h.mem hu
    refine ⟨Finset.mem_erase.mpr ⟨?_, hmem⟩, hlabel, hb⟩
    rintro rfl
    exact hb (hlabel ▸ ha)
  unique := h.unique
  owner hmem hlabel := h.owner (Finset.mem_of_mem_erase hmem) hlabel

section Owners

variable [DecidableEq τ]

/-- A handle is opened, and is held from then on. -/
theorem take (h : Owned free table label holds) (hnone : holds t = none) (hfresh : a ∉ table)
    (hb : ¬ free b) : Owned free (insert a table) (Function.update label a b)
      (Function.update holds t (some (a, b))) := by
  -- what the others hold is older
  have hother {u : τ} (hu : u ≠ t) {a' : α} {b' : β}
      (hheld : Function.update holds t (some (a, b)) u = some (a', b')) :
      holds u = some (a', b') ∧ a' ≠ a := by
    rw [Function.update_of_ne hu] at hheld
    refine ⟨hheld, ?_⟩
    rintro rfl
    exact hfresh (h.mem hheld).1
  have hself {a' : α} {b' : β}
      (hheld : Function.update holds t (some (a, b)) t = some (a', b')) : a = a' ∧ b = b' := by
    rw [Function.update_self] at hheld
    exact Prod.mk.inj (Option.some.inj hheld)
  refine ⟨?_, ?_, ?_⟩
  · intro u a' b' hheld
    by_cases hu : u = t
    · subst hu
      obtain ⟨rfl, rfl⟩ := hself hheld
      exact ⟨Finset.mem_insert_self _ _, Function.update_self _ _ _, hb⟩
    · obtain ⟨hheld, hne⟩ := hother hu hheld
      obtain ⟨hmem, hlabel, hb'⟩ := h.mem hheld
      exact ⟨Finset.mem_insert_of_mem hmem, (Function.update_of_ne hne _ _).trans hlabel, hb'⟩
  · intro u v a' b' c' hu hv
    by_cases hut : u = t
    · subst hut
      by_cases hvt : v = u
      · exact hvt.symm
      · exact absurd (hself hu).1.symm (hother hvt hv).2
    · obtain ⟨hu, hne⟩ := hother hut hu
      by_cases hvt : v = t
      · subst hvt
        exact absurd (hself hv).1.symm hne
      · exact h.unique hu (hother hvt hv).1
  · intro a' hmem hlabel
    by_cases ha : a' = a
    · subst ha
      exact ⟨t, by rw [Function.update_self, Function.update_self]⟩
    · rw [Function.update_of_ne ha] at hlabel ⊢
      obtain ⟨u, hu⟩ := h.owner (Finset.mem_of_mem_insert_of_ne hmem ha) hlabel
      have hut : u ≠ t := by
        rintro rfl
        exact absurd (hu.symm.trans hnone) (by simp)
      exact ⟨u, (Function.update_of_ne hut _ _).trans hu⟩

/-- A handle is closed by its owner. -/
theorem release (h : Owned free table label holds) (ht : holds t = some (a, b)) :
    Owned free (table.erase a) label (Function.update holds t none) := by
  have hother {u : τ} {a' : α} {b' : β}
      (hheld : Function.update holds t none u = some (a', b')) :
      holds u = some (a', b') ∧ a' ≠ a := by
    have hu : u ≠ t := by
      rintro rfl
      rw [Function.update_self] at hheld
      exact absurd hheld (by simp)
    rw [Function.update_of_ne hu] at hheld
    refine ⟨hheld, ?_⟩
    rintro rfl
    exact hu (h.unique hheld ht)
  refine ⟨?_, ?_, ?_⟩
  · intro u a' b' hheld
    obtain ⟨hheld, hne⟩ := hother hheld
    obtain ⟨hmem, hlabel⟩ := h.mem hheld
    exact ⟨Finset.mem_erase.mpr ⟨hne, hmem⟩, hlabel⟩
  · intro u v a' b' c' hu hv
    exact h.unique (hother hu).1 (hother hv).1
  · intro a' hmem hlabel
    obtain ⟨hne, hmem⟩ := Finset.mem_erase.mp hmem
    obtain ⟨u, hu⟩ := h.owner hmem hlabel
    have hut : u ≠ t := by
      rintro rfl
      exact hne (Prod.mk.inj (Option.some.inj (hu.symm.trans ht))).1
    exact ⟨u, (Function.update_of_ne hut _ _).trans hu⟩

end Owners

end Owned

/-! ### Labels -/

namespace Labels

variable {α β : Type*} [DecidableEq β] {table table' : Finset α} {label label' : α → β} {a : α}
  {b c : β}

/-- Handles with other labels are opened. -/
theorem filter_grow (hold : ∀ a ∈ table, a ∈ table' ∧ label' a = label a)
    (hnew : ∀ a ∈ table', a ∉ table → label' a ≠ c) :
    (table'.filter fun a => label' a = c) = table.filter fun a => label a = c := by
  ext a
  rw [Finset.mem_filter, Finset.mem_filter]
  by_cases ha : a ∈ table
  · rw [(hold a ha).2]
    exact and_congr_left fun _ => iff_of_true (hold a ha).1 ha
  · exact iff_of_false (fun hno => hnew a hno.1 ha hno.2) (fun hno => ha hno.1)

/-- Every handle with the label that is opened is one more. -/
theorem card_grow (hold : ∀ a ∈ table, a ∈ table' ∧ label' a = label a)
    (hnew : ∀ a ∈ table', a ∉ table → label' a = c) {n : ℕ} (hcard : table'.card = table.card + n) :
    (table'.filter fun a => label' a = c).card = (table.filter fun a => label a = c).card + n := by
  have hsame : (table'.filter fun a => label' a ≠ c) = table.filter fun a => label a ≠ c := by
    ext a
    rw [Finset.mem_filter, Finset.mem_filter]
    by_cases ha : a ∈ table
    · rw [(hold a ha).2]
      exact and_congr_left fun _ => iff_of_true (hold a ha).1 ha
    · exact iff_of_false (fun hno => hno.2 (hnew a hno.1 ha)) (fun hno => ha hno.1)
  have hsplit := Finset.card_filter_add_card_filter_not (s := table) fun a => label a = c
  have hsplit' := Finset.card_filter_add_card_filter_not (s := table') fun a => label' a = c
  have hcards : (table'.filter fun a => ¬ label' a = c).card =
      (table.filter fun a => ¬ label a = c).card := congrArg Finset.card hsame
  omega

variable [DecidableEq α]

/-- A handle is opened, with a label. -/
theorem filter_insert (hfresh : a ∉ table) :
    ((insert a table).filter fun a' => Function.update label a b a' = c) =
      if b = c then insert a (table.filter fun a => label a = c)
      else table.filter fun a => label a = c := by
  ext a'
  by_cases ha : a' = a
  · subst ha
    split_ifs with hb
    · simp [hb]
    · simp [hb, hfresh]
  · split_ifs <;> simp [ha]

/-- A handle with another label is closed. -/
theorem filter_erase (label : α → β) {a : α} (h : label a ≠ c) :
    ((table.erase a).filter fun a => label a = c) = table.filter fun a => label a = c := by
  rw [Finset.filter_erase]
  exact Finset.erase_eq_of_notMem fun hno => h (Finset.mem_filter.mp hno).2

end Labels
