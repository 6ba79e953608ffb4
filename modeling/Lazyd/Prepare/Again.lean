import Mathlib.Data.List.GetD
import Lazyd.Prepare.Created
import Lazyd.Prepare.Steps

/-!
# Preparing a live layer again

A preparation of the layer that an open instance is on finds the sparse file with its length, the
bitmap file with its header, and every slot that it reads ready in the bitmap file is data in the
sparse file: a task marks a slot after it has written it. So the preparation has nothing to
lengthen, to reset or to clear, whatever the tasks do in between.

## Main definitions

* `Prepare.Kept` : what holds of the two files.
* `Prepare.PrepareKnows` : what a preparation has found out.
* `Prepare.OnCache` : the layer that is prepared is the one that the instance is on.
* `Prepare.Finishes` : the preparation can be finished.

## Main results

* `Prepare.prepareStep_keeps` : a step of the preparation changes nothing.
* `Prepare.kept_run` : the two files in every run.
* `Prepare.exists_run_prepared` : a preparation of a live layer can be finished.

Source: `src/prepare.rs`, lines 97–161; `src/range_map.rs`, lines 42–98 and 116–148;
`src/instance.rs`, lines 250–261.
-/

namespace Lazyd.Prepare

/-! ### The invariant -/

/-- The two files of an instance: the sparse file has the given length, the bitmap file the given
header, and a slot that is ready is data. -/
structure Kept (inst : Instance) (len : ℕ) (header : List UInt8) (files : Files) : Prop where
  target_present : files.present inst.target = true
  bitmap_present : files.present inst.rangeMap.file = true
  target_len : (files.disk inst.target).len = len
  header : headerBytes (files.disk inst.rangeMap.file) = header
  bitmap_len : headerSize + inst.rangeMap.slotCount ≤ (files.disk inst.rangeMap.file).len
  allocated : ∀ k < inst.rangeMap.slotCount,
    (files.disk inst.rangeMap.file).byte (headerSize + k) ≠ 0 → inst.SlotAllocated files.disk k

/-- The preparation has opened the files of the instance. -/
structure SameMap (inst opened : Instance) : Prop where
  target_eq : opened.target = inst.target
  rangeMap_eq : opened.rangeMap = inst.rangeMap

/-- What a preparation has found out about the two files. -/
def PrepareKnows (inst : Instance) (len : ℕ) (d : Disk) : PrepareState → Prop
  | .creatingDir pmemSize | .looking pmemSize => pmemSize ≤ len
  | .opening pmemSize existed | .sizing pmemSize existed => pmemSize ≤ len ∧ existed = true
  | .lengthening _ | .resetting _ => False
  | .lookingForMap opened | .readingHeader opened => SameMap inst opened
  | .openingMap opened existed => SameMap inst opened ∧ existed = true
  | .readingSlots opened got => SameMap inst opened ∧ got.length < inst.rangeMap.slotCount ∧
      ∀ k, got.getD k 0 ≠ 0 → inst.SlotAllocated d k
  | .recovering opened _ pc =>
    match pc with
    | .scanning slot todo .probing =>
      SameMap inst opened ∧ ∀ k ∈ slot :: todo, inst.SlotAllocated d k
    | _ => False
  | .idle | .openingTarget | .prepared | .failed _ => True

/-- The layer is the one that the instance is on, and its sparse file is long enough. -/
structure OnCache (codec : HeaderCodec) (ino : String → FileKey) (cacheRoot : String)
    (request : PrepareImageRequest) (layer : PrepareLayerDescriptor) (inst : Instance) (len : ℕ)
    (header : List UInt8) : Prop where
  target_eq : ino (sparsePath cacheRoot (cacheKey layer.digest)) = inst.target
  file_eq : ino (bitmapPath (sparsePath cacheRoot (cacheKey layer.digest))) = inst.rangeMap.file
  target_ne : inst.target ≠ inst.rangeMap.file
  geometry : RangeMap.geometry inst.rangeMap.file layer.size request.fetch.unitBytes =
    .ok inst.rangeMap
  header : parseHeader codec header =
    .ok (expectedHeader layer.blob request.fetch.unitBytes inst.rangeMap.slotCount)
  pmemSize_le : ∀ pmemSize, layerPmemSize request layer = .ok pmemSize → pmemSize ≤ len
  blobSize_le : inst.blobSize ≤ len
  len_lt : len < 2 ^ 63

/-- What a task of an open instance, or a preparation beside it, knows. -/
def TaskKnows (inst : Instance) (len : ℕ) (s : Shared) : TaskState → Prop
  | .ensure l => inst.TaskShape l ∧ inst.TaskAllocated s.files.disk l
  | .prepare p => PrepareKnows inst len s.files.disk p
  | .elsewhere => True

variable {codec : HeaderCodec} {ino : String → FileKey} {cacheRoot : String}
  {request : PrepareImageRequest} {layer : PrepareLayerDescriptor} {inst opened : Instance}
  {len : ℕ} {header : List UInt8} {files files' : Files}

theorem PrepareKnows.mono {d d' : Disk} {p : PrepareState} (h : PrepareKnows inst len d p)
    (hd : inst.KeepsData d d') : PrepareKnows inst len d' p := by
  cases p with
  | readingSlots opened got => exact ⟨h.1, h.2.1, fun k hk => (h.2.2 k hk).mono hd⟩
  | recovering opened slots pc =>
    rcases pc with ⟨slot, todo, pc⟩ | _ | _
    · cases pc with
      | probing => exact ⟨h.1, fun k hk => (h.2 k hk).mono hd⟩
      | clearing | filling => exact h
    · exact h
    · exact h
  | _ => exact h

theorem TaskKnows.mono {s s' : Shared} {l : TaskState} (h : TaskKnows inst len s l)
    (hd : inst.KeepsData s.files.disk s'.files.disk) : TaskKnows inst len s' l := by
  cases l with
  | ensure l => exact ⟨h.1, h.2.mono hd⟩
  | prepare p => exact PrepareKnows.mono h hd
  | elsewhere => trivial

/-! ### The preparation -/

theorem prepareKnows_nextSlot {d : Disk} {slots : List UInt8} {todo : List ℕ}
    (hsame : SameMap inst opened) (h : ∀ k ∈ todo, inst.SlotAllocated d k) :
    PrepareKnows inst len d (recoveringState opened slots (Instance.nextSlot todo)) := by
  cases todo with
  | nil => trivial
  | cons slot todo => exact ⟨hsame, h⟩

theorem prepareKnows_afterSlots {d : Disk} {got : List UInt8} (hsame : SameMap inst opened)
    (h : ∀ k, got.getD k 0 ≠ 0 → inst.SlotAllocated d k) :
    PrepareKnows inst len d (afterSlots opened got) := by
  rw [afterSlots, hsame.rangeMap_eq]
  split_ifs with hmore
  · exact ⟨hsame, hmore, h⟩
  · refine prepareKnows_nextSlot hsame fun k hk => h k ?_
    rw [Instance.readySlots, List.mem_filter] at hk
    exact of_decide_eq_true hk.2

theorem created_of_present {key : FileKey} (h : files.present key = true) :
    created files key = files := by
  have hget : files.get key = some (files.disk key) := files.get_eq_some.mpr ⟨h, rfl⟩
  rw [created, hget, Option.getD_some, Files.put_of_get files hget]

/-- A slot that is read ready from the bitmap file is data. -/
theorem slotAllocated_of_read (hkept : Kept inst len header files) {got : List UInt8} {n : ℕ}
    (hgot : ∀ k, got.getD k 0 ≠ 0 → inst.SlotAllocated files.disk k)
    (hn : got.length + n ≤ inst.rangeMap.slotCount) {k : ℕ}
    (hk : (got ++ SparseFile.slice (files.disk inst.rangeMap.file).byte
      (headerSize + got.length) n).getD k 0 ≠ 0) : inst.SlotAllocated files.disk k := by
  have hlt := lt_length_of_getD_ne hk
  rw [List.length_append, SparseFile.length_slice] at hlt
  rcases lt_or_ge k got.length with hold | hnew
  · rw [List.getD_append _ _ _ _ hold] at hk
    exact hgot k hk
  · rw [List.getD_append_right _ _ _ _ hnew, SparseFile.getD_slice _ _ _ (by omega),
      Nat.add_assoc, Nat.add_sub_cancel' hnew] at hk
    exact hkept.allocated k (by omega) hk

/-- A slot that is data is found by the probe. -/
theorem recoveryStep_keeps (hon : OnCache codec ino cacheRoot request layer inst len header)
    (hkept : Kept inst len header files) {slots : List UInt8} {pc pc' : Instance.RecoveryState}
    {e : Instance.RecoveryEvent} {s : Instance.Shared}
    (hknows : PrepareKnows inst len files.disk (.recovering opened slots pc))
    (hclean : (PrepareEvent.recovery e).IsClean)
    (hstep : opened.recoveryStep ⟨files.disk, slots, []⟩ pc e = some (s, pc')) :
    s.disk = files.disk ∧
    PrepareKnows inst len files.disk (recoveringState opened s.slots pc') := by
  rcases pc with ⟨slot, todo, pc⟩ | _ | _
  case recovered => exact absurd hknows id
  case failed => exact absurd hknows id
  cases pc with
  | clearing => exact absurd hknows id
  | filling => exact absurd hknows id
  | probing =>
    obtain ⟨hsame, htodo⟩ := hknows
    cases e with
    | marked => exact absurd hstep (by simp [Instance.recoveryStep])
    | fill => exact absurd hstep (by simp [Instance.recoveryStep])
    | probe dataFault holeFault =>
      obtain ⟨rfl, rfl⟩ := hclean
      rw [Instance.recoveryStep, hsame.rangeMap_eq, hsame.target_eq] at hstep
      split at hstep
      · obtain ⟨rfl, rfl⟩ := Prod.mk.inj (Option.some.inj hstep)
        exact ⟨rfl, trivial⟩
      · rename_i offset len' hrange
        have hpresent := Instance.rangeIsPresent_of_slotAllocated hrange
          (hon.blobSize_le.trans hkept.target_len.ge) (hkept.target_len.trans_lt hon.len_lt)
          (htodo slot List.mem_cons_self)
        rw [hpresent] at hstep
        obtain ⟨rfl, rfl⟩ := Prod.mk.inj (Option.some.inj hstep)
        exact ⟨rfl, prepareKnows_nextSlot hsame fun k hk => htodo k (List.mem_cons_of_mem _ hk)⟩

/-- **A preparation of the layer changes no file.** -/
theorem prepareStep_keeps (hon : OnCache codec ino cacheRoot request layer inst len header)
    (hkept : Kept inst len header files) {p p' : PrepareState} {e : PrepareEvent}
    (hknows : PrepareKnows inst len files.disk p) (hclean : e.IsClean)
    (hstep : prepareStep codec ino cacheRoot request layer files p e = some (files', p')) :
    files' = files ∧ PrepareKnows inst len files.disk p' := by
  have hstay {p₁ : PrepareState} (h : some (files, p₁) = some (files', p'))
      (hp : PrepareKnows inst len files.disk p₁) :
      files' = files ∧ PrepareKnows inst len files.disk p' := by
    obtain ⟨rfl, rfl⟩ := Prod.mk.inj (Option.some.inj h)
    exact ⟨rfl, hp⟩
  unfold prepareStep at hstep
  split at hstep
  · -- the checks
    split at hstep
    · exact hstay hstep trivial
    · split at hstep
      · exact hstay hstep trivial
      · rename_i hsize
        exact hstay hstep (hon.pmemSize_le _ hsize)
  · obtain rfl := hclean
    exact hstay hstep hknows
  · obtain rfl := hclean
    refine hstay hstep ⟨hknows, ?_⟩
    rw [hon.target_eq, hkept.target_present]
    rfl
  · obtain rfl := hclean
    simp only [hon.target_eq, created_of_present hkept.target_present] at hstep
    exact hstay hstep hknows
  · -- the length
    obtain rfl := hclean
    obtain ⟨hle, rfl⟩ := hknows
    rw [hon.target_eq, metadataLen, unlessFault, hkept.target_len,
      if_neg (not_le.mpr hon.len_lt)] at hstep
    dsimp only at hstep
    rw [if_neg (by simp [hle])] at hstep
    split_ifs at hstep <;> exact hstay hstep trivial
  · exact absurd hknows id
  · -- the sparse file is opened, and the slots are counted
    dsimp only at hstep
    split at hstep
    · exact hstay hstep trivial
    · split at hstep
      · exact hstay hstep trivial
      · rename_i m hm
        refine hstay hstep ?_
        change RangeMap.geometry (ino (bitmapPath (sparsePath cacheRoot (cacheKey layer.digest))))
          layer.size request.fetch.unitBytes = .ok m at hm
        rw [hon.file_eq, hon.geometry] at hm
        exact ⟨hon.target_eq, (Except.ok.inj hm).symm⟩
  · obtain rfl := hclean
    refine hstay hstep ⟨hknows, ?_⟩
    rw [hknows.rangeMap_eq, hkept.bitmap_present]
    rfl
  · obtain rfl := hclean
    obtain ⟨hsame, rfl⟩ := hknows
    simp only [hsame.rangeMap_eq, created_of_present hkept.bitmap_present, ↓reduceIte] at hstep
    exact hstay hstep hsame
  · -- the header
    obtain rfl := hclean
    refine hstay hstep ?_
    have hread : readHeader codec (files.disk inst.rangeMap.file) =
        .ok (expectedHeader layer.blob request.fetch.unitBytes inst.rangeMap.slotCount) :=
      readHeader_eq_ok.mpr
        ⟨(Nat.le_add_right _ _).trans hkept.bitmap_len, hkept.header.symm ▸ hon.header⟩
    rw [unlessFault, hknows.rangeMap_eq, hread, afterHeader, layerHeader, hknows.rangeMap_eq,
      if_pos rfl]
    exact prepareKnows_afterSlots hknows fun k hk => absurd rfl hk
  · -- the slots
    rename_i res
    obtain ⟨n, rfl⟩ := hclean
    obtain ⟨hsame, hmore, hgot⟩ := hknows
    simp only [hsame.rangeMap_eq] at hstep
    have hlen := hkept.bitmap_len
    split_ifs at hstep with hle hzero hend hshort
    · omega
    · refine hstay hstep (prepareKnows_afterSlots hsame fun k hk => ?_)
      exact slotAllocated_of_read hkept hgot (by omega) hk
  · exact absurd hknows id
  · split at hstep
    · exact absurd hstep (by simp)
    · rename_i hrec
      obtain ⟨hdisk, hp⟩ := recoveryStep_keeps hon hkept hknows hclean hrec
      rw [hdisk] at hstep
      exact hstay hstep hp
  · exact absurd hstep (by simp)

/-! ### Beside the tasks of the instance -/

/-- What the steps may do to the two files: data remains data, and a ready slot of the bitmap file
remains ready. -/
structure LosesNothing (inst : Instance) (d d' : Disk) : Prop where
  keepsData : inst.KeepsData d d'
  slots : ∀ k, (d inst.rangeMap.file).byte (headerSize + k) ≠ 0 →
    (d' inst.rangeMap.file).byte (headerSize + k) ≠ 0

theorem losesNothing_refl (d : Disk) : LosesNothing inst d d :=
  ⟨Instance.keepsData_refl d, fun _ h => h⟩

theorem LosesNothing.trans {d₁ d₂ d₃ : Disk} (h : LosesNothing inst d₁ d₂)
    (h' : LosesNothing inst d₂ d₃) : LosesNothing inst d₁ d₃ :=
  ⟨fun lo hi hd => h'.keepsData lo hi (h.keepsData lo hi hd), fun k hk => h'.slots k (h.slots k hk)⟩

theorem kept_ensure (hon : OnCache codec ino cacheRoot request layer inst len header)
    {s s' : Instance.Shared} {l l' : Instance.TaskState} {e : Instance.Event}
    (hkept : Kept inst len header { files with disk := s.disk }) (hshape : inst.TaskShape l)
    (hl : inst.TaskAllocated s.disk l) (hstep : inst.step s l e = some (s', l')) :
    Kept inst len header { files with disk := s'.disk } ∧ LosesNothing inst s.disk s'.disk := by
  have hkeeps := Instance.keepsData_step hon.target_ne hshape hstep
  obtain ⟨off, n, hbitmap⟩ := Instance.bitmap_step hon.target_ne hstep
  have hwrites : ∃ off chunk, inst.WritesTarget s.disk s'.disk off chunk ∧
      (Instance.TaskAgrees (fun _ => 0) l → SparseFile.Agrees (fun _ => 0) off chunk) :=
    Instance.target_step hon.target_ne hshape hstep
  obtain ⟨toff, chunk, ⟨hinside, htarget⟩, -⟩ := hwrites
  refine ⟨⟨hkept.target_present, hkept.bitmap_present, ?_, ?_, ?_, fun k hk hbyte => ?_⟩,
    hkeeps, fun k hk => ?_⟩
  · have hlen : (s.disk inst.target).len = len := hkept.target_len
    change (s'.disk inst.target).len = len
    rw [htarget, SparseFile.writeAt_len_of_le, hlen]
    exact hinside.trans (hon.blobSize_le.trans hlen.ge)
  · change headerBytes (s'.disk inst.rangeMap.file) = header
    rw [hbitmap, headerBytes_writeAt _ (Nat.le_add_right _ _)]
    exact hkept.header
  · change _ ≤ (s'.disk inst.rangeMap.file).len
    rw [hbitmap]
    exact hkept.bitmap_len.trans (SparseFile.len_le_writeAt_len _ _ _)
  · rcases Instance.allocated_step hon.target_ne hshape hl hstep hbyte with hold | hnew
    · exact (hkept.allocated k hk hold).mono hkeeps
    · exact hnew.mono hkeeps
  · rw [hbitmap, SparseFile.writeAt_byte]
    split_ifs with hin
    · rw [List.length_replicate] at hin
      rw [List.getD_replicate _ (by omega)]
      decide
    · exact hk

/-- The rest of the daemon does not touch the two files. -/
theorem kept_elsewhere (hkept : Kept inst len header files) {key : FileKey} (f : Option File)
    (htarget : inst.target ≠ key) (hfile : inst.rangeMap.file ≠ key) :
    Kept inst len header (files.put key f) ∧
      LosesNothing inst files.disk (files.put key f).disk := by
  have hdisk := files.put_disk_of_ne f htarget
  have hbitmap := files.put_disk_of_ne f hfile
  have hpresent {key' : FileKey} (hne : key' ≠ key) (h : files.present key' = true) :
      (files.put key f).present key' = true := by
    cases f with
    | none => exact h
    | some f => exact (Function.update_of_ne hne _ _).trans h
  have hkeeps : inst.KeepsData files.disk (files.put key f).disk := by
    intro lo hi h
    rwa [hdisk]
  refine ⟨⟨hpresent htarget hkept.target_present, hpresent hfile hkept.bitmap_present, ?_, ?_, ?_,
    fun k hk hbyte => ?_⟩, hkeeps, fun k hk => ?_⟩
  · rw [hdisk]
    exact hkept.target_len
  · rw [hbitmap]
    exact hkept.header
  · rw [hbitmap]
    exact hkept.bitmap_len
  · rw [hbitmap] at hbyte
    exact (hkept.allocated k hk hbyte).mono hkeeps
  · rwa [hbitmap]

/-- **A step keeps the two files as they have to be**, and its task with what it knows. -/
theorem kept_step (hon : OnCache codec ino cacheRoot request layer inst len header)
    {s s' : Shared} {l l' : TaskState} {e : Event} (hkept : Kept inst len header s.files)
    (hl : TaskKnows inst len s l) (hclean : Clean l e)
    (hstep : (beside codec ino cacheRoot request layer inst).step s l e = some (s', l')) :
    Kept inst len header s'.files ∧ TaskKnows inst len s' l' ∧
      LosesNothing inst s.files.disk s'.files.disk := by
  change besideStep codec ino cacheRoot request layer inst s l e = some (s', l') at hstep
  unfold besideStep at hstep
  split at hstep
  · split at hstep
    · exact absurd hstep (by simp)
    · rename_i hensure
      obtain ⟨rfl, rfl⟩ := Prod.mk.inj (Option.some.inj hstep)
      obtain ⟨hkept', hloses⟩ := kept_ensure (s := s.ofInstance) hon hkept hl.1 hl.2 hensure
      exact ⟨hkept', ⟨Instance.taskShape_step hl.1 hensure,
        Instance.taskAllocated_step hon.target_ne hl.1 hl.2 hensure⟩, hloses⟩
  · split at hstep
    · exact absurd hstep (by simp)
    · rename_i hprepare
      obtain ⟨rfl, hknows⟩ := prepareStep_keeps hon hkept hl hclean hprepare
      obtain ⟨rfl, rfl⟩ := Prod.mk.inj (Option.some.inj hstep)
      exact ⟨hkept, hknows, losesNothing_refl _⟩
  · split_ifs at hstep with hkey
    obtain ⟨rfl, rfl⟩ := Prod.mk.inj (Option.some.inj hstep)
    rw [not_or] at hkey
    obtain ⟨hkept', hloses⟩ := kept_elsewhere hkept _ (Ne.symm hkey.1) (Ne.symm hkey.2)
    exact ⟨hkept', trivial, hloses⟩
  · exact absurd hstep (by simp)

theorem TaskState.IsFresh.knows {s : Shared} {l : TaskState} (h : l.IsFresh) :
    TaskKnows inst len s l := by
  cases l with
  | ensure l =>
    obtain rfl : l = .idle := h
    exact ⟨trivial, trivial⟩
  | prepare p =>
    obtain rfl : p = .idle := h
    trivial
  | elsewhere => trivial

section Run

variable {τ : Type*} [DecidableEq τ] {c₀ c : TaskSystem.Config Shared TaskState τ}
  {ls : List (τ × Event)}

/-- **The two files in every run.** -/
theorem kept_run (hon : OnCache codec ino cacheRoot request layer inst len header)
    (hkept : Kept inst len header c₀.shared.files)
    (hknows : ∀ t, TaskKnows inst len c₀.shared (c₀.task t))
    (hrun : (beside codec ino cacheRoot request layer inst).Run Clean c₀ ls c) :
    (Kept inst len header c.shared.files ∧ ∀ t, TaskKnows inst len c.shared (c.task t)) ∧
      LosesNothing inst c₀.shared.files.disk c.shared.files.disk := by
  refine hrun.rely_trans (I := fun s => Kept inst len header s.files) (L := TaskKnows inst len)
    (R := fun s s' => LosesNothing inst s.files.disk s'.files.disk)
    (fun s => losesNothing_refl s.files.disk) (fun _ _ _ h h' => h.trans h') hkept hknows ?_ ?_
  · exact fun s l e s' l' hI hL hok hstep => kept_step hon hI hL hok hstep
  · exact fun s s' l hR hL => hL.mono hR.keepsData

/-- A step of a preparation leaves everything as it is. -/
theorem shared_of_prepare (hon : OnCache codec ino cacheRoot request layer inst len header)
    (hkept : Kept inst len header c₀.shared.files)
    (hknows : ∀ t, TaskKnows inst len c₀.shared (c₀.task t))
    (hrun : (beside codec ino cacheRoot request layer inst).Run Clean c₀ ls c) {t : τ}
    {e : PrepareEvent} {c' : TaskSystem.Config Shared TaskState τ} (hclean : e.IsClean)
    (hfire : (beside codec ino cacheRoot request layer inst).fire c t (.prepare e) = some c') :
    c'.shared = c.shared := by
  obtain ⟨⟨hkept', hknows'⟩, -⟩ := kept_run hon hkept hknows hrun
  have hstep := TaskSystem.fire_step hfire
  have hl := hknows' t
  change besideStep codec ino cacheRoot request layer inst c.shared (c.task t) (.prepare e) = _
    at hstep
  generalize c.task t = l at hstep hl
  unfold besideStep at hstep
  split at hstep
  · rename_i heq
    exact absurd heq (by simp)
  · rename_i heq
    obtain rfl := Event.prepare.inj heq
    split at hstep
    · exact absurd hstep (by simp)
    · rename_i hprepare
      obtain ⟨rfl, -⟩ := prepareStep_keeps hon hkept' hl hclean hprepare
      exact (Prod.mk.inj (Option.some.inj hstep)).1.symm
  · rename_i heq
    exact absurd heq (by simp)
  · exact absurd hstep (by simp)

end Run

/-! ### A preparation can be finished -/

/-- A call of the instance, next to the preparations. -/
theorem solo_ensure {s s' : Instance.Shared} {l l' : Instance.TaskState} {es : List Instance.Event}
    (h : inst.tasks.solo s l es = some (s', l')) (present : FileKey → Bool) :
    (beside codec ino cacheRoot request layer inst).solo
        ⟨⟨s.disk, present⟩, s.slots, s.inflight⟩ (.ensure l) (es.map .ensure) =
      some (⟨⟨s'.disk, present⟩, s'.slots, s'.inflight⟩, .ensure l') := by
  induction es generalizing s l with
  | nil =>
    obtain ⟨rfl, rfl⟩ := Prod.mk.inj (Option.some.inj h)
    rfl
  | cons e es ih =>
    obtain ⟨s₁, l₁, hstep, hrest⟩ := TaskSystem.solo_cons_eq_some.mp h
    refine TaskSystem.solo_cons_eq_some.mpr ⟨_, _, ?_, ih hrest⟩
    change inst.step s l e = some (s₁, l₁) at hstep
    change besideStep codec ino cacheRoot request layer inst _ (.ensure l) (.ensure e) = _
    simp only [besideStep, Shared.ofInstance, hstep]

section Finishes

variable (codec ino cacheRoot request layer inst) in
/-- The preparation can be finished from here, with everything left as it is. -/
def Finishes (s : Shared) (p : PrepareState) : Prop :=
  ∃ es : List PrepareEvent, (∀ e ∈ es, e.IsClean) ∧
    (beside codec ino cacheRoot request layer inst).solo s (.prepare p) (es.map .prepare) =
      some (s, .prepare .prepared)

variable {s : Shared}

theorem Finishes.step {p : PrepareState} (e : PrepareEvent) (p' : PrepareState) (hclean : e.IsClean)
    (hstep : prepareStep codec ino cacheRoot request layer s.files p e = some (s.files, p'))
    (h : Finishes codec ino cacheRoot request layer inst s p') :
    Finishes codec ino cacheRoot request layer inst s p := by
  obtain ⟨es, hes, hsolo⟩ := h
  refine ⟨e :: es, ?_, TaskSystem.solo_cons_eq_some.mpr ⟨s, .prepare p', ?_, hsolo⟩⟩
  · rintro e' (_ | ⟨_, hmem⟩)
    · exact hclean
    · exact hes e' hmem
  · change besideStep codec ino cacheRoot request layer inst s (.prepare p) (.prepare e) = _
    rw [besideStep, hstep]

variable (hon : OnCache codec ino cacheRoot request layer inst len header)
  (hkept : Kept inst len header s.files) (hsame : SameMap inst opened)

include hon hkept hsame

/-- Slots that are data are looked at one by one. -/
theorem finishes_recovering {slots : List UInt8} {todo : List ℕ}
    (htodo : ∀ k ∈ todo, k < inst.rangeMap.slotCount ∧ inst.SlotAllocated s.files.disk k) :
    Finishes codec ino cacheRoot request layer inst s
      (recoveringState opened slots (Instance.nextSlot todo)) := by
  induction todo with
  | nil => exact ⟨[], by simp, rfl⟩
  | cons slot todo ih =>
    obtain ⟨hslot, hallocated⟩ := htodo slot List.mem_cons_self
    have hrange := inst.rangeMap.slotRange_ok hslot
    have hpresent := Instance.rangeIsPresent_of_slotAllocated hrange
      (hon.blobSize_le.trans hkept.target_len.ge) (hkept.target_len.trans_lt hon.len_lt) hallocated
    have hrec : opened.recoveryStep ⟨s.files.disk, slots, []⟩ (.scanning slot todo .probing)
        (.probe none none) = some (⟨s.files.disk, slots, []⟩, Instance.nextSlot todo) := by
      simp only [Instance.recoveryStep, hsame.rangeMap_eq, hsame.target_eq, hrange, hpresent,
        Instance.probed]
    refine .step (.recovery (.probe none none)) _ ⟨rfl, rfl⟩ ?_
      (ih fun k hk => htodo k (List.mem_cons_of_mem _ hk))
    simp only [Instance.nextSlot, recoveringState, prepareStep, hrec]

theorem finishes_afterSlots {got : List UInt8} (hlen : got.length = inst.rangeMap.slotCount)
    (hgot : ∀ k, got.getD k 0 ≠ 0 → inst.SlotAllocated s.files.disk k) :
    Finishes codec ino cacheRoot request layer inst s (afterSlots opened got) := by
  rw [afterSlots, hsame.rangeMap_eq, if_neg hlen.not_lt, Instance.startRecovery]
  refine finishes_recovering hon hkept hsame fun k hk => ?_
  rw [Instance.readySlots, List.mem_filter, List.mem_range, hlen] at hk
  exact ⟨hk.1, hgot k (of_decide_eq_true hk.2)⟩

/-- The slots are read in one go. -/
theorem finishes_readingHeader :
    Finishes codec ino cacheRoot request layer inst s (.readingHeader opened) := by
  have hread : readHeader codec (s.files.disk inst.rangeMap.file) =
      .ok (expectedHeader layer.blob request.fetch.unitBytes inst.rangeMap.slotCount) :=
    readHeader_eq_ok.mpr
      ⟨(Nat.le_add_right _ _).trans hkept.bitmap_len, hkept.header.symm ▸ hon.header⟩
  have hheader : afterHeader request layer opened
      (unlessFault none (readHeader codec (s.files.disk opened.rangeMap.file))) =
        afterSlots opened [] := by
    rw [unlessFault, hsame.rangeMap_eq, hread, afterHeader, layerHeader, hsame.rangeMap_eq,
      if_pos rfl]
  refine .step (.next none) (afterSlots opened []) rfl ?_ ?_
  · rw [prepareStep, hheader]
  · rcases Nat.eq_zero_or_pos inst.rangeMap.slotCount with hzero | hpos
    · exact finishes_afterSlots hon hkept hsame hzero.symm fun k hk => absurd rfl hk
    · rw [afterSlots, hsame.rangeMap_eq, List.length_nil, if_pos hpos]
      have hlen := hkept.bitmap_len
      refine .step (.read (.ok inst.rangeMap.slotCount)) (afterSlots opened
        ([] ++ SparseFile.slice (s.files.disk inst.rangeMap.file).byte (headerSize + 0)
          inst.rangeMap.slotCount)) ⟨_, rfl⟩ ?_
        (finishes_afterSlots hon hkept hsame ?_ fun k hk => ?_)
      · simp only [prepareStep, hsame.rangeMap_eq, List.length_nil]
        rw [if_neg (by omega), if_neg hpos.ne', if_neg (by omega)]
      · rw [List.nil_append, SparseFile.length_slice]
      · have hnone : ∀ k, ([] : List UInt8).getD k 0 ≠ 0 → inst.SlotAllocated s.files.disk k :=
          fun _ h => absurd rfl h
        exact slotAllocated_of_read hkept hnone (by rw [List.length_nil, Nat.zero_add]) hk

omit hsame

/-- The sparse file is opened, and the slots are counted as they were. -/
theorem prepareStep_openingTarget : ∃ opened, SameMap inst opened ∧
    prepareStep codec ino cacheRoot request layer s.files .openingTarget (.next none) =
      some (s.files, .lookingForMap opened) := by
  have htarget : openTarget s.files (ino (layerConfig cacheRoot request layer).targetPath) none =
      .ok () := by
    refine openTarget_ok ?_
    change s.files.present (ino (sparsePath cacheRoot (cacheKey layer.digest))) = true
    rw [hon.target_eq]
    exact hkept.target_present
  have hgeometry : RangeMap.geometry
      (ino (bitmapPath (layerConfig cacheRoot request layer).targetPath))
      (layerConfig cacheRoot request layer).blob.size
      (layerConfig cacheRoot request layer).fetch.unitBytes = .ok inst.rangeMap := by
    rw [← hon.geometry, ← hon.file_eq]
    rfl
  simp only [prepareStep, htarget]
  split
  · rename_i err herr
    exact absurd (herr.symm.trans hgeometry) (by simp)
  · rename_i m hm
    exact ⟨_, ⟨hon.target_eq, Except.ok.inj (hm.symm.trans hgeometry)⟩, rfl⟩

/-- **A preparation of the layer can be finished**, if its sparse file has the length that the
layer has to have. -/
theorem finishes_idle (hunit : validateFetchUnitBytes request.fetch.unitBytes.toNat = .ok ())
    (hsize : layerPmemSize request layer = .ok len) :
    Finishes codec ino cacheRoot request layer inst s .idle := by
  have hpresent := hkept.target_present
  refine .step (.next none) (.creatingDir len) rfl ?_
    (.step (.next none) (.looking len) rfl rfl
      (.step (.next none) (.opening len true) rfl ?_
        (.step (.next none) (.sizing len true) rfl ?_
          (.step (.next none) (.openingTarget) rfl ?_ ?_))))
  · simp only [prepareStep, hunit, hsize]
  · simp only [prepareStep, hon.target_eq, hpresent, Option.isNone_none, Bool.and_self]
  · simp only [prepareStep, hon.target_eq, created_of_present hpresent]
  · simp only [prepareStep, hon.target_eq, metadataLen, unlessFault, hkept.target_len,
      if_neg (not_le.mpr hon.len_lt), Bool.true_eq_false, lt_irrefl, or_self, if_false]
  · obtain ⟨opened, hsame, hstep⟩ := prepareStep_openingTarget hon hkept
    refine .step (.next none) _ rfl hstep
      (.step (.next none) (.openingMap opened true) rfl ?_
        (.step (.next none) (.readingHeader opened) rfl ?_
          (finishes_readingHeader hon hkept hsame)))
    · simp only [prepareStep, hsame.rangeMap_eq, hkept.bitmap_present, Option.isNone_none,
        Bool.and_self]
    · simp only [prepareStep, hsame.rangeMap_eq, created_of_present hkept.bitmap_present, if_true]

/-- The same, next to the tasks of the instance. -/
theorem exists_run_prepared {τ : Type*} [DecidableEq τ] {c : TaskSystem.Config Shared TaskState τ}
    {t : τ} (hc : c.shared = s) (htask : c.task t = .prepare .idle)
    (hunit : validateFetchUnitBytes request.fetch.unitBytes.toNat = .ok ())
    (hsize : layerPmemSize request layer = .ok len) :
    ∃ ls, (beside codec ino cacheRoot request layer inst).Run Clean c ls
      ⟨c.shared, Function.update c.task t (.prepare .prepared)⟩ := by
  subst hc
  obtain ⟨es, hes, hsolo⟩ := finishes_idle hon hkept hunit hsize
  rw [← htask] at hsolo
  refine ⟨_, .of_solo (TaskSystem.soloOk_of_forall (fun e he l => ?_) _ _) hsolo⟩
  obtain ⟨e, hmem, rfl⟩ := List.mem_map.mp he
  exact hes e hmem

end Finishes

/-! ### The instances that `prepare_image` creates -/

section Created

variable {live : Live} {again : PrepareImageRequest} {layer' : PrepareLayerDescriptor}

/-- A cache that has been opened for a layer is on the layer. -/
theorem onCache_of_started {n : ℕ}
    (hapart : ∀ k k', ino (sparsePath cacheRoot k) ≠ ino (bitmapPath (sparsePath cacheRoot k')))
    (hstarted : Started codec live files.disk) (hblob : live.inst.config.blob = layer.blob)
    (hunit : live.inst.config.fetch.unitBytes = request.fetch.unitBytes)
    (htarget : live.inst.target = ino (sparsePath cacheRoot (cacheKey layer.digest)))
    (hfile : live.inst.rangeMap.file =
      ino (bitmapPath (sparsePath cacheRoot (cacheKey layer.digest))))
    (hsize : layerPmemSize request layer = .ok n)
    (hlong : LongEnough n (files.get live.inst.target)) :
    OnCache codec ino cacheRoot request layer live.inst (files.disk live.inst.target).len
      (headerBytes (files.disk live.inst.rangeMap.file)) := by
  obtain ⟨f, hf, hle, hlt⟩ := hlong
  obtain ⟨-, hget⟩ := (files.get_eq_some).mp hf
  have hpmem := layerPmemSize_ok hsize
  have hblobSize : live.inst.blobSize = layer.size.toNat := by
    rw [Instance.blobSize, hblob]
    rfl
  refine ⟨htarget.symm, hfile.symm, ?_, ?_, ?_, fun m hm => ?_, ?_, ?_⟩
  · rw [htarget, hfile]
    exact hapart _ _
  · refine RangeMap.geometry_self live.inst.rangeMap ?_ ?_
    · rw [Instance.rangeMap_blobSize, hblobSize]
    · rw [Instance.rangeMap_unitBytes, Instance.unitBytes, hunit]
  · rw [← hblob, ← hunit]
    exact (readHeader_eq_ok.mp hstarted.header).2
  · rw [hget, Except.ok.inj (hm.symm.trans hsize)]
    exact hle
  · rw [hget, hblobSize]
    exact (alignUp_ok hpmem).trans hle
  · rw [hget]
    exact hlt

/-- Another request has the same layer, with the same unit and the same alignment. -/
theorem OnCache.sameLayer {n : ℕ} (h : OnCache codec ino cacheRoot request layer inst len header)
    (hlayer : layerPmemSize request layer = .ok n) (hdigest : layer'.digest = layer.digest)
    (hsize : layer'.size = layer.size) (hunit : again.fetch.unitBytes = request.fetch.unitBytes)
    (halign : again.pmem.alignmentBytes = request.pmem.alignmentBytes) :
    OnCache codec ino cacheRoot again layer' inst len header := by
  refine ⟨?_, ?_, h.target_ne, ?_, ?_, fun m hm => ?_, h.blobSize_le, h.len_lt⟩
  · rw [hdigest, h.target_eq]
  · rw [hdigest, h.file_eq]
  · rw [hsize, hunit, h.geometry]
  · rw [h.header, hunit]
    simp only [expectedHeader, PrepareLayerDescriptor.blob, hdigest, hsize]
  · have hm' := layerPmemSize_ok hm
    rw [hsize, halign, layerPmemSize_ok hlayer] at hm'
    rw [← Except.ok.inj hm']
    exact h.pmemSize_le n hlayer

/-- The layer of an instance, prepared again with the same unit and the same alignment. -/
theorem onCache_of_created (h : Daemon.CreatedFor codec ino cacheRoot request layer live files)
    (hapart : ∀ k k', ino (sparsePath cacheRoot k) ≠ ino (bitmapPath (sparsePath cacheRoot k')))
    (hdigest : layer'.digest = layer.digest) (hsize : layer'.size = layer.size)
    (hunit : again.fetch.unitBytes = request.fetch.unitBytes)
    (halign : again.pmem.alignmentBytes = request.pmem.alignmentBytes) :
    OnCache codec ino cacheRoot again layer' live.inst (files.disk live.inst.target).len
      (headerBytes (files.disk live.inst.rangeMap.file)) := by
  obtain ⟨n, hlayer, hlong⟩ := h.sparse
  have hblob : live.inst.config.blob = layer.blob := by
    rw [h.config_eq]
    rfl
  have hfetch : live.inst.config.fetch.unitBytes = request.fetch.unitBytes := by
    rw [h.config_eq]
    rfl
  have hon := onCache_of_started hapart h.started hblob hfetch h.target_eq h.file_eq hlayer hlong
  exact hon.sameLayer hlayer hdigest hsize hunit halign

theorem kept_of_created (h : Daemon.CreatedFor codec ino cacheRoot request layer live files) :
    Kept live.inst (files.disk live.inst.target).len
      (headerBytes (files.disk live.inst.rangeMap.file)) files := by
  obtain ⟨n, -, f, hf, -⟩ := h.sparse
  exact ⟨(files.get_eq_some.mp hf).1, h.bitmap_present, rfl, rfl, h.started.len, h.allocated⟩

variable {τ : Type*} [DecidableEq τ] {c₀ c c' : TaskSystem.Config Shared TaskState τ}
  {ls ls' : List (τ × Event)} {answers : Daemon.ImageAnswers} {d d' : Daemon}

/-- **Preparing a live layer again loses nothing.** Let an instance be created by `prepare_image`,
and its layer be prepared again, any number of times, while calls on the instance are under way.
From any point of the run to any later one the header of the bitmap file and the length of the
sparse file do not change and no slot of the bitmap file is cleared; and no step of a preparation
changes a file or the slots of the instance. -/
theorem prepareAgain_loses_nothing
    (hapart : ∀ k k', ino (sparsePath cacheRoot k) ≠ ino (bitmapPath (sparsePath cacheRoot k')))
    (hstat : ∀ a ∈ answers.layers, a.sparse.stat = none)
    (hcreated : Daemon.InsertsLayer codec ino cacheRoot request answers d layer live d')
    (hdigest : layer'.digest = layer.digest) (hsize : layer'.size = layer.size)
    (hunit : again.fetch.unitBytes = request.fetch.unitBytes)
    (halign : again.pmem.alignmentBytes = request.pmem.alignmentBytes)
    (hstart : c₀.shared = ⟨d'.files, live.slots, live.inflight⟩) (hfresh : ∀ t, (c₀.task t).IsFresh)
    (hrun : (beside codec ino cacheRoot again layer' live.inst).Run Clean c₀ ls c)
    (hrun' : (beside codec ino cacheRoot again layer' live.inst).Run Clean c ls' c') :
    headerBytes (c'.shared.files.disk live.inst.rangeMap.file) =
        headerBytes (c.shared.files.disk live.inst.rangeMap.file) ∧
      (∀ k, (c.shared.files.disk live.inst.rangeMap.file).byte (headerSize + k) ≠ 0 →
        (c'.shared.files.disk live.inst.rangeMap.file).byte (headerSize + k) ≠ 0) ∧
      (c'.shared.files.disk live.inst.target).len = (c.shared.files.disk live.inst.target).len ∧
      ∀ t e c'', e.IsClean →
        (beside codec ino cacheRoot again layer' live.inst).fire c' t (.prepare e) = some c'' →
          c''.shared = c'.shared := by
  have hcreatedFor := hcreated.created hapart hstat
  have hon := onCache_of_created hcreatedFor hapart hdigest hsize hunit halign
  have hkept := kept_of_created hcreatedFor
  have hfiles : c₀.shared.files = d'.files := congrArg Shared.files hstart
  rw [← hfiles] at hon hkept
  obtain ⟨⟨hkeptc, hknows⟩, -⟩ := kept_run hon hkept (fun t => (hfresh t).knows) hrun
  obtain ⟨⟨hkeptc', -⟩, hloses⟩ := kept_run hon hkeptc hknows hrun'
  refine ⟨hkeptc'.header.trans hkeptc.header.symm, hloses.slots,
    hkeptc'.target_len.trans hkeptc.target_len.symm, fun t e c'' hclean hfire => ?_⟩
  exact shared_of_prepare hon hkeptc hknows hrun' hclean hfire

/-- One call on the instance, and a preparation. -/
def smallTasks (t : ℕ) : TaskState := if t = 0 then .ensure .idle else .prepare .idle

/-- The instance of `smallLayer`. -/
def smallLayerInstance : Instance where
  config := Daemon.smallLayerConfig
  target := Daemon.smallSparse pathIno
  rangeMap := Daemon.smallMap pathIno
  trusted := true
  blobSize_eq := rfl
  unitBytes_eq := rfl
  trusted_eq := rfl

/-- A call up to its mark in the bitmap file. -/
def smallCall : List Instance.Event :=
  [.call (.ensureRange 0 3), .check, .reserve, .recheck, .reply (.ok [7, 7, 7]), .wrote (.ok 3),
    .marked (.ok 1)]

theorem smallCall_solo (disk : Disk) : ∃ marked : Disk,
    (marked smallLayerInstance.rangeMap.file).byte headerSize = 1 ∧
      smallLayerInstance.tasks.solo ⟨disk, [0], []⟩ .idle smallCall =
        some (⟨marked, [0], [⟨0, 3⟩]⟩, .running (.ensureRange 0 3) 0 3
          (.holding ⟨0, 3⟩ (.filling 0 1))) := by
  refine ⟨(disk.write smallLayerInstance.target 0 [7, 7, 7]).write smallLayerInstance.rangeMap.file
    headerSize [1], ?_, rfl⟩
  rw [Disk.write_self, SparseFile.writeAt_byte, if_pos ⟨le_rfl, Nat.lt_succ_self _⟩, Nat.sub_self]
  rfl

/-- `smallLayer` is prepared again between the mark of its slot in the bitmap file and the end of
the call that has made it. -/
theorem prepareAgain_loses_nothing_smallImage :
    ∃ (inst : Instance) (c₀ c c' : TaskSystem.Config Shared TaskState ℕ)
      (ls ls' : List (ℕ × Event)),
      (beside headerJson pathIno "cache" Daemon.smallImage Daemon.smallLayer inst).Run Clean
        c₀ ls c ∧
      (beside headerJson pathIno "cache" Daemon.smallImage Daemon.smallLayer inst).Run Clean c ls'
        c' ∧
      (c.shared.files.disk inst.rangeMap.file).byte headerSize = 1 ∧
      c'.task 1 = .prepare .prepared ∧
      headerBytes (c'.shared.files.disk inst.rangeMap.file) =
        headerBytes (c.shared.files.disk inst.rangeMap.file) ∧
      (c'.shared.files.disk inst.rangeMap.file).byte headerSize ≠ 0 := by
  have hapart := (cacheApart_of_injective pathIno_injective "cache").sparse_ne_bitmap
  obtain ⟨live, f, -, hopened, hinserts⟩ := Daemon.smallImage_inserts (hapart _ _)
  obtain rfl : live = ⟨smallLayerInstance, [0], []⟩ := hopened.eq rfl rfl rfl
  have hcreated := hinserts.created hapart fun a ha => absurd ha List.not_mem_nil
  have hon : OnCache headerJson pathIno "cache" Daemon.smallImage Daemon.smallLayer
      smallLayerInstance _ _ := onCache_of_created hcreated hapart rfl rfl rfl rfl
  have hkept := kept_of_created hcreated
  let files := Daemon.smallCache pathIno f
  have hfresh (t : ℕ) : (smallTasks t).IsFresh := by
    rw [smallTasks]
    split_ifs <;> rfl
  have hclean : (beside headerJson pathIno "cache" Daemon.smallImage Daemon.smallLayer
      smallLayerInstance).SoloOk Clean ⟨files, [0], []⟩ (.ensure .idle)
        (smallCall.map .ensure) := by
    refine TaskSystem.soloOk_of_forall (fun e he l => ?_) _ _
    obtain ⟨e, -, rfl⟩ := List.mem_map.mp he
    trivial
  obtain ⟨marked, hmarked, hsolo⟩ := smallCall_solo files.disk
  have hcall : (beside headerJson pathIno "cache" Daemon.smallImage Daemon.smallLayer
      smallLayerInstance).Run Clean ⟨⟨files, [0], []⟩, smallTasks⟩ _ _ :=
    .of_solo (t := 0) hclean (solo_ensure hsolo files.present)
  obtain ⟨⟨hkept', -⟩, -⟩ := kept_run hon hkept (fun t => (hfresh t).knows) hcall
  have hsize : layerPmemSize Daemon.smallImage Daemon.smallLayer =
      .ok (files.disk smallLayerInstance.target).len := by
    have hsparse : files.disk smallLayerInstance.target = newFile.setLen 4096 :=
      (Files.put_disk_of_ne _ _ (hapart _ _)).trans (Files.put_disk_self _ _ _)
    rw [hsparse]
    rfl
  obtain ⟨ls', hprepare⟩ := exists_run_prepared (t := 1) hon hkept' rfl rfl rfl hsize
  have hloses := prepareAgain_loses_nothing hapart (fun a ha => absurd ha List.not_mem_nil) hinserts
    rfl rfl rfl rfl rfl hfresh hcall hprepare
  refine ⟨smallLayerInstance, _, _, _, _, ls', hcall, hprepare, hmarked, ?_, hloses.1,
    hloses.2.1 0 ?_⟩
  · simp only [Function.update_self]
  · exact hmarked.trans_ne (by decide)

end Created

end Lazyd.Prepare
