import Lazyd.Base

/-!
# Marks of the fanotify group

`FanotifyBackend::mark` and `FanotifyBackend::unmark`. The kernel keeps the set of files that are
marked in the group; adding a mark twice changes nothing, and removing it clears it. The backend
keeps a table from files to the instances they are marked for.

## Main definitions

* `FanotifyBackend`, `FanotifyBackend.mark`, `FanotifyBackend.unmark`.

## Main results

* `FanotifyBackend.mark_cases` : what marking can do.
* `FanotifyBackend.unmark_of_fails`, `FanotifyBackend.unmark_of_not_fails` : unmarking removes
  nothing or both marks.

Source: `src/fanotify.rs`, lines 33–41 and 106–155.
-/

namespace Lazyd

/-- The fanotify group and the table of the backend. -/
structure FanotifyBackend where
  /-- the files with a mark in the kernel -/
  marked : FileKey → Bool
  marks : FileKey → Option String

/-- The faults of `mark` and `unmark`. -/
structure MarkFaults where
  metadata : Option IoError := none
  /-- the text of the error of `fanotify_mark` -/
  syscall : Option String := none

namespace FanotifyBackend

/-- `FanotifyBackend::new` -/
def new : FanotifyBackend where
  marked _ := false
  marks _ := none

variable (backend : FanotifyBackend)

/-- Both marks of a file are set. -/
def insert (key : FileKey) (instanceId : String) : FanotifyBackend where
  marked := Function.update backend.marked key true
  marks := Function.update backend.marks key (some instanceId)

/-- Both marks of a file are removed. -/
def erase (key : FileKey) : FanotifyBackend where
  marked := Function.update backend.marked key false
  marks := Function.update backend.marks key none

/-- `CString::new` -/
def cString (path : String) : Except Error Unit :=
  if '\x00' ∈ path.toList then .error (.badRequest "target_path contains nul byte") else .ok ()

/-- `FanotifyBackend::mark`, on a path that names the file `key`. -/
def mark (instanceId path : String) (key : FileKey) (faults : MarkFaults) :
    Except Error Unit × FanotifyBackend :=
  match cString path with
  | .error err => (.error err, backend)
  | .ok () =>
    match faults.syscall with
    | some msg => (.error (.fanotify msg), backend)
    | none =>
      let backend := { backend with marked := Function.update backend.marked key true }
      match faults.metadata with
      | some err => (.error (.io err), backend)
      | none =>
        (.ok (), { backend with marks := Function.update backend.marks key (some instanceId) })

/-- `FanotifyBackend::unmark`, on a path that names the file `key`. -/
def unmark (path : String) (key : FileKey) (faults : MarkFaults) :
    Except Error Unit × FanotifyBackend :=
  match faults.metadata with
  | some err => (.error (.io err), backend)
  | none =>
    match cString path with
    | .error err => (.error err, backend)
    | .ok () =>
      match faults.syscall with
      | some msg => (.error (.fanotify msg), backend)
      | none => (.ok (), backend.erase key)

/-- Something keeps `unmark` from its end. -/
def UnmarkFails (path : String) (faults : MarkFaults) : Prop :=
  faults.metadata ≠ none ∨ '\x00' ∈ path.toList ∨ faults.syscall ≠ none

variable {backend}

/-- The kernel's mark and the entry of the table, or less if it fails. -/
theorem mark_cases (instanceId path : String) (key : FileKey) (faults : MarkFaults) :
    (∃ err, (backend.mark instanceId path key faults).1 = .error err ∧
        (backend.mark instanceId path key faults).2.marks = backend.marks ∧
        ∀ k, backend.marked k = true →
          (backend.mark instanceId path key faults).2.marked k = true) ∨
      backend.mark instanceId path key faults = (.ok (), backend.insert key instanceId) := by
  unfold mark
  split
  · exact Or.inl ⟨_, rfl, rfl, fun _ h => h⟩
  · split
    · exact Or.inl ⟨_, rfl, rfl, fun _ h => h⟩
    · split
      · refine Or.inl ⟨_, rfl, rfl, fun k h => ?_⟩
        by_cases hk : k = key
        · rw [hk]
          exact Function.update_self _ _ _
        · exact (Function.update_of_ne hk _ _).trans h
      · exact Or.inr rfl

/-- If it fails, `unmark` removes nothing. -/
theorem unmark_of_fails {path : String} (key : FileKey) {faults : MarkFaults}
    (h : UnmarkFails path faults) :
    ∃ err, backend.unmark path key faults = (.error err, backend) := by
  unfold unmark
  split
  · exact ⟨_, rfl⟩
  · rename_i hmetadata
    split
    · exact ⟨_, rfl⟩
    · rename_i hpath
      split
      · exact ⟨_, rfl⟩
      · rename_i hsyscall
        have hnul : '\x00' ∉ path.toList := by
          intro hmem
          rw [cString, if_pos hmem] at hpath
          exact absurd hpath (by simp)
        rcases h with h | h | h
        · exact absurd hmetadata h
        · exact absurd h hnul
        · exact absurd hsyscall h

/-- Otherwise it removes both marks. -/
theorem unmark_of_not_fails {path : String} (key : FileKey) {faults : MarkFaults}
    (h : ¬UnmarkFails path faults) :
    backend.unmark path key faults = (.ok (), backend.erase key) := by
  obtain ⟨hmetadata, hrest⟩ := not_or.mp h
  obtain ⟨hnul, hsyscall⟩ := not_or.mp hrest
  rw [unmark, not_not.mp hmetadata, not_not.mp hsyscall, cString, if_neg hnul]

end FanotifyBackend

end Lazyd
