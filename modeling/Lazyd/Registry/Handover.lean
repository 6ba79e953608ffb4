import Lazyd.Instance.Settled
import Lazyd.Registry.Register
import Mathlib.Logic.Relation

/-!
# From one instance to the next one on the same target

`InstanceRegistry::get` hands out a reference to the instance, so the calls that are under way when
an instance is unregistered go on with it, on the file handles and the list of ranges in flight that
are its own. If the id is then registered for another blob on the same target, the two instances do
not know of each other.

Here, the calls on the first instance, `unregister`, one later `register` and the calls on the
second instance run in any order of steps. A call is on the instance that is registered when it is
made. The opening of the second instance is one step: as long as the calls on the first one write
nothing, their steps commute with those of the opening.

## Main definitions

* `Handover.Stage`, `Handover.step`, `Handover.Step` : the system.
* `Handover.Quiesces` : `unregister` returns when no call has anything left to write.

## Main results

* `Handover.handing_step`, `Handover.renewed_step` : the invariants.
* `Handover.unregister_quiesces` : the main theorem.
* `Handover.late_write` : a call that overwrites what the second instance has fetched.

Source: `src/instance.rs`, lines 110–126, 128–194 and 229–261; `src/control.rs`, lines 105–131.
-/

namespace Lazyd

namespace Handover

/-- Where the registry stands with the id. -/
inductive Stage where
  | registered
  /-- `unregister` has taken the instance out -/
  | removed
  /-- `unregister` has returned -/
  | unregistered
  /-- `register` has been called again, and has inserted the instance or failed -/
  | again (second : Option Live)

/-- The files, and what the instances have in memory. -/
structure Shared where
  files : Files
  /-- the slots of the first instance -/
  slots : List UInt8
  /-- the ranges in flight of the first instance -/
  inflight : List Range
  stage : Stage

/-- A call, on the instance that it is made on. -/
inductive TaskState where
  | idle
  | first (l : Instance.TaskState)
  | second (l : Instance.TaskState)
  | unregistering
  | returned

inductive Event where
  /-- `InstanceRegistry::get` and a call on what it finds -/
  | start (call : Instance.Call)
  | step (e : Instance.Event)
  | remove
  /-- `unregister` returns -/
  | returns
  /-- `register`, with the result of marking the target -/
  | register (answers : OpenAnswers) (remote mark : Except Error Unit)

/-- What the calls on the first instance share. -/
def Shared.first (s : Shared) : Instance.Shared := ⟨s.files.disk, s.slots, s.inflight⟩

/-- After a step on the first instance. -/
def Shared.setFirst (s : Shared) (s₁ : Instance.Shared) : Shared :=
  { s with files := { s.files with disk := s₁.disk }, slots := s₁.slots, inflight := s₁.inflight }

/-- After a step on the second instance. -/
def Shared.setSecond (s : Shared) (live : Live) (s₂ : Instance.Shared) : Shared :=
  { s with
    files := { s.files with disk := s₂.disk }
    stage := .again (some { live with slots := s₂.slots, inflight := s₂.inflight }) }

theorem setSecond_self {s : Shared} {live : Live} (h : s.stage = .again (some live)) :
    s.setSecond live (live.shared s.files.disk) = s := by
  obtain ⟨files, slots, inflight, stage⟩ := s
  obtain rfl : stage = _ := h
  rfl

variable (codec : HeaderCodec) (ino : String → FileKey) (inst : Instance) (config : InstanceConfig)

/-- One step; `inst` is the first instance and `config` the configuration of the second one. -/
def step (s : Shared) : TaskState → Event → Option (Shared × TaskState)
  | .idle, .start call =>
    match s.stage with
    | .registered => some (s, .first (inst.enter call))
    | .again (some live) => some (s, .second (live.inst.enter call))
    | _ => some (s, .returned)
  | .first l, .step e =>
    if l = .idle then none
    else
      match inst.step s.first l e with
      | none => none
      | some (s₁, l) => some (s.setFirst s₁, .first l)
  | .second l, .step e =>
    match s.stage with
    | .again (some live) =>
      match live.inst.step (live.shared s.files.disk) l e with
      | none => none
      | some (s₂, l) => some (s.setSecond live s₂, .second l)
    | _ => none
  | .idle, .remove =>
    match s.stage with
    | .registered => some ({ s with stage := .removed }, .unregistering)
    | _ => none
  | .unregistering, .returns =>
    match s.stage with
    | .removed => some ({ s with stage := .unregistered }, .returned)
    | _ => none
  | .idle, .register answers remote mark =>
    match s.stage with
    | .unregistered =>
      match openInstance codec ino config answers remote s.files with
      | none => none
      | some (.error _, files) => some ({ s with files, stage := .again none }, .returned)
      | some (.ok live, files) =>
        match mark with
        | .error _ => some ({ s with files, stage := .again none }, .returned)
        | .ok () => some ({ s with files, stage := .again (some live) }, .returned)
    | _ => none
  | _, _ => none

/-- The calls as a task system. -/
def tasks : TaskSystem Shared TaskState Event := ⟨step codec ino inst config⟩

abbrev Config (τ : Type*) := TaskSystem.Config Shared TaskState τ

/-- One step of any of the calls, under the condition `ok` on the state before it. -/
def Step {τ : Type*} [DecidableEq τ] (ok : Config τ → τ → Event → Prop) (c c' : Config τ) : Prop :=
  ∃ t e, ok c t e ∧ (tasks codec ino inst config).fire c t e = some c'

/-- The first instance has just been registered. -/
def start (τ : Type*) (live : Live) (files : Files) : Config τ where
  shared := ⟨files, live.slots, live.inflight, .registered⟩
  task _ := .idle

/-- `unregister` has returned. -/
def Stage.Over : Stage → Prop
  | .registered | .removed => False
  | .unregistered | .again _ => True

/-- The state of a call on the first instance. -/
def TaskState.onFirst : TaskState → Instance.TaskState
  | .first l => l
  | _ => .idle

/-- The first instance and the calls on it. -/
def firstConfig {τ : Type*} (c : Config τ) :
    TaskSystem.Config Instance.Shared Instance.TaskState τ :=
  ⟨c.shared.first, fun t => (c.task t).onFirst⟩

/-- When `unregister` returns, no call on the instance has anything left to write. -/
def Quiesces {τ : Type*} (c : Config τ) (_ : τ) : Event → Prop
  | .returns => inst.Settled (firstConfig c)
  | _ => True

/-- The remote of the first or of the second instance is honest about the blob. -/
def HonestOn {τ : Type*} (side : Instance.TaskState → TaskState) (blob : ℕ → UInt8) (c : Config τ)
    (t : τ) : Event → Prop
  | .step e => ∀ l, c.task t = side l → Instance.Honest blob l e
  | _ => True

/-! ### What a step can do -/

/-- The effects of a step. -/
inductive Effect (s : Shared) : TaskState → Event → Shared → TaskState → Prop
  | startFirst (call : Instance.Call) (h : s.stage = .registered) :
      Effect s .idle (.start call) s (.first (inst.enter call))
  | startSecond (call : Instance.Call) {live : Live} (h : s.stage = .again (some live)) :
      Effect s .idle (.start call) s (.second (live.inst.enter call))
  | notFound (call : Instance.Call) : Effect s .idle (.start call) s .returned
  | first {l l' : Instance.TaskState} {e : Instance.Event} {s₁ : Instance.Shared}
      (hidle : l ≠ .idle) (h : inst.step s.first l e = some (s₁, l')) :
      Effect s (.first l) (.step e) (s.setFirst s₁) (.first l')
  | second {live : Live} {l l' : Instance.TaskState} {e : Instance.Event} {s₂ : Instance.Shared}
      (hstage : s.stage = .again (some live))
      (h : live.inst.step (live.shared s.files.disk) l e = some (s₂, l')) :
      Effect s (.second l) (.step e) (s.setSecond live s₂) (.second l')
  | remove (h : s.stage = .registered) :
      Effect s .idle .remove { s with stage := .removed } .unregistering
  | returns (h : s.stage = .removed) :
      Effect s .unregistering .returns { s with stage := .unregistered } .returned
  | register (answers : OpenAnswers) (remote mark : Except Error Unit) {second : Option Live}
      {res : Except Error Live} {files : Files} (h : s.stage = .unregistered)
      (hopen : openInstance codec ino config answers remote s.files = some (res, files))
      (hsecond : ∀ live, second = some live → res = .ok live) :
      Effect s .idle (.register answers remote mark) { s with files, stage := .again second }
        .returned

variable {codec ino inst config}

/-- **Step inversion.** -/
theorem Effect.of_step {s s' : Shared} {l l' : TaskState} {e : Event}
    (h : step codec ino inst config s l e = some (s', l')) :
    Effect codec ino inst config s l e s' l' := by
  unfold step at h
  split at h
  · split at h
    · rename_i hstage
      obtain ⟨rfl, rfl⟩ := Prod.mk.inj (Option.some.inj h)
      exact .startFirst _ hstage
    · rename_i hstage
      obtain ⟨rfl, rfl⟩ := Prod.mk.inj (Option.some.inj h)
      exact .startSecond _ hstage
    · obtain ⟨rfl, rfl⟩ := Prod.mk.inj (Option.some.inj h)
      exact .notFound _
  · split_ifs at h with hidle
    split at h
    · exact absurd h (by simp)
    · rename_i hstep
      obtain ⟨rfl, rfl⟩ := Prod.mk.inj (Option.some.inj h)
      exact .first hidle hstep
  · split at h
    · rename_i hstage
      split at h
      · exact absurd h (by simp)
      · rename_i hstep
        obtain ⟨rfl, rfl⟩ := Prod.mk.inj (Option.some.inj h)
        exact .second hstage hstep
    · exact absurd h (by simp)
  · split at h
    · rename_i hstage
      obtain ⟨rfl, rfl⟩ := Prod.mk.inj (Option.some.inj h)
      exact .remove hstage
    · exact absurd h (by simp)
  · split at h
    · rename_i hstage
      obtain ⟨rfl, rfl⟩ := Prod.mk.inj (Option.some.inj h)
      exact .returns hstage
    · exact absurd h (by simp)
  · split at h
    · rename_i hstage
      split at h
      · exact absurd h (by simp)
      · rename_i hopen
        obtain ⟨rfl, rfl⟩ := Prod.mk.inj (Option.some.inj h)
        exact .register _ _ _ hstage hopen (by simp)
      · rename_i hopen
        split at h
        · obtain ⟨rfl, rfl⟩ := Prod.mk.inj (Option.some.inj h)
          exact .register _ _ _ hstage hopen (by simp)
        · obtain ⟨rfl, rfl⟩ := Prod.mk.inj (Option.some.inj h)
          exact .register _ _ _ hstage hopen (by simp)
    · exact absurd h (by simp)
  · exact absurd h (by simp)

variable {τ : Type*} [DecidableEq τ] {c c' : Config τ} {t : τ} {e : Event}

theorem Effect.of_fire (h : (tasks codec ino inst config).fire c t e = some c') :
    Effect codec ino inst config c.shared (c.task t) e c'.shared (c'.task t) :=
  .of_step (TaskSystem.fire_step h)

/-! ### The calls on the first instance -/

/-- A step of a task that is not on the first instance, before or after it, leaves the others as
they are there. -/
theorem onFirst_fire (h : (tasks codec ino inst config).fire c t e = some c')
    (ht : (c'.task t).onFirst = (c.task t).onFirst) :
    (firstConfig c').task = (firstConfig c).task := by
  funext u
  by_cases hu : u = t
  · rw [hu]
    exact ht
  · exact congrArg TaskState.onFirst (TaskSystem.fire_task_of_ne h hu)

/-- A step on the first instance is one of its task system. -/
theorem firstConfig_fire (h : (tasks codec ino inst config).fire c t e = some c')
    {e₁ : Instance.Event} (hstep : inst.step c.shared.first (c.task t).onFirst e₁ =
      some (c'.shared.first, (c'.task t).onFirst)) :
    inst.tasks.fire (firstConfig c) t e₁ = some (firstConfig c') := by
  refine TaskSystem.fire_eq_some.mpr ⟨_, _, hstep, ?_⟩
  have htask : (firstConfig c').task =
      Function.update (firstConfig c).task t (c'.task t).onFirst := by
    refine (Function.eq_update_iff).mpr ⟨rfl, fun u hu => ?_⟩
    exact congrArg TaskState.onFirst (TaskSystem.fire_task_of_ne h hu)
  rw [← htask]
  rfl

/-- A step of a call on the first instance. -/
theorem first_fire (h : (tasks codec ino inst config).fire c t e = some c')
    {l : Instance.TaskState} (hl : c.task t = .first l) :
    ∃ e₁, inst.tasks.fire (firstConfig c) t e₁ = some (firstConfig c') ∧
      (firstConfig c).task t ≠ .idle ∧ c'.shared = c.shared.setFirst c'.shared.first := by
  have heff := Effect.of_fire h
  rw [hl] at heff
  generalize hl' : c'.task t = l', hs' : c'.shared = s' at heff
  cases heff with
  | @first _ l' e₁ s₁ hidle hstep =>
    refine ⟨e₁, firstConfig_fire h ?_, ?_, rfl⟩
    · rw [hl, hl', hs']
      exact hstep
    · change (c.task t).onFirst ≠ _
      rw [hl]
      exact hidle

/-- A step is one on the first instance, or it leaves what is of it in memory alone. -/
theorem first_cases (h : (tasks codec ino inst config).fire c t e = some c') :
    (∃ e₁, inst.tasks.fire (firstConfig c) t e₁ = some (firstConfig c') ∧
      c'.shared.stage = c.shared.stage ∧
      (c.shared.stage.Over → (firstConfig c).task t ≠ .idle)) ∨
    (c'.shared.slots = c.shared.slots ∧ c'.shared.inflight = c.shared.inflight ∧
      (firstConfig c').task = (firstConfig c).task) := by
  have heff := Effect.of_fire h
  generalize hl : c.task t = l, hl' : c'.task t = l', hs' : c'.shared = s' at heff
  cases heff with
  | startFirst call hstage =>
    refine Or.inl ⟨.call call, firstConfig_fire h ?_, rfl, fun hover => ?_⟩
    · rw [hl, hl', hs']
      rfl
    · rw [hstage] at hover
      exact hover.elim
  | first =>
    obtain ⟨e₁, hfirst, hidle, -⟩ := first_fire h hl
    exact Or.inl ⟨e₁, hfirst, rfl, fun _ => hidle⟩
  | _ =>
    refine Or.inr ⟨rfl, rfl, onFirst_fire h ?_⟩
    rw [hl, hl']
    rfl

theorem over_fire (h : (tasks codec ino inst config).fire c t e = some c')
    (hover : c'.shared.stage.Over) : c.shared.stage.Over ∨ e = .returns := by
  have heff := Effect.of_fire h
  generalize c.task t = l, c'.task t = l', c'.shared = s' at heff hover
  cases heff with
  | startFirst | startSecond | notFound | first => exact Or.inl hover
  | second hstage => exact Or.inl (by rw [hstage]; trivial)
  | remove => exact hover.elim
  | returns => exact Or.inr rfl
  | register _ _ _ hstage => exact Or.inl (by rw [hstage]; trivial)

variable (inst) in
/-- What holds of the calls on the first instance. -/
structure Handing (c : Config τ) : Prop where
  exclusive : inst.Exclusive (firstConfig c)
  length_slots : c.shared.slots.length = inst.rangeMap.slotCount
  settled : c.shared.stage.Over → inst.Settled (firstConfig c)

theorem handing_start {live : Live} {files : Files} (h : Started codec live files.disk) :
    Handing live.inst (start τ live files) := by
  refine ⟨?_, h.length_slots, fun hover => hover.elim⟩
  have hrun : live.inst.tasks.Run (fun _ _ => True) (firstConfig (start τ live files)) []
      (firstConfig (start τ live files)) := .nil
  exact Instance.exclusive_run (fun _ => rfl) h.inflight_eq hrun

/-- **A step keeps it**, and once `unregister` has returned, the first instance writes nothing. -/
theorem handing_step (h : Handing inst c) (hok : Quiesces inst c t e)
    (hfire : (tasks codec ino inst config).fire c t e = some c') : Handing inst c' := by
  rcases first_cases hfire with ⟨e₁, hfirst, hstage, hidle⟩ | ⟨hslots, hinflight, htask⟩
  · refine ⟨h.exclusive.fire hfirst, ?_, fun hover => ?_⟩
    · have hlength := Instance.length_slots_step (TaskSystem.fire_step hfirst)
      exact hlength.trans h.length_slots
    · rw [hstage] at hover
      exact (Instance.settled_fire h.exclusive h.length_slots (h.settled hover) (hidle hover)
        hfirst).1
  · refine ⟨h.exclusive.congr hinflight htask, hslots ▸ h.length_slots, fun hover => ?_⟩
    refine Instance.Settled.congr (c := firstConfig c) ?_ hslots htask
    rcases over_fire hfire hover with hover | rfl
    · exact h.settled hover
    · exact hok

theorem handing_run {c₀ : Config τ} (h : Handing inst c₀)
    (hrun : Relation.ReflTransGen (Step codec ino inst config (Quiesces inst)) c₀ c) :
    Handing inst c := by
  induction hrun with
  | refl => exact h
  | tail _ hstep ih =>
    obtain ⟨t, e, hok, hfire⟩ := hstep
    exact handing_step ih hok hfire

/-- **Once `unregister` has returned, the first instance writes nothing.** -/
theorem Handing.quiet (h : Handing inst c) (hover : c.shared.stage.Over) :
    (∀ u l, c.task u = .first l → ¬Instance.Writing l) ∧
      ∀ u l e' c', c.task u = .first l → (tasks codec ino inst config).fire c u e' = some c' →
        c'.shared.files = c.shared.files := by
  have hsettled := h.settled hover
  refine ⟨fun u l hl => ?_, fun u l e' c' hl hfire => ?_⟩
  · have hdone := hsettled u
    change inst.Done _ (c.task u).onFirst at hdone
    rw [hl] at hdone
    exact hdone.not_writing
  · obtain ⟨e₁, hfirst, hidle, hshared⟩ := first_fire hfire hl
    have hdisk : c'.shared.files.disk = c.shared.files.disk :=
      (Instance.settled_fire h.exclusive h.length_slots hsettled hidle hfirst).2
    rw [hshared]
    change { c.shared.files with disk := c'.shared.files.disk } = c.shared.files
    rw [hdisk]

/-! ### The second instance -/

variable (inst) in
/-- The header that the first instance expects is in the bitmap file until the second one is opened.
The slots of the second instance hold in the target, and so does what the calls on it know. -/
structure Renewed (codec : HeaderCodec) (blob : ℕ → UInt8) (header : Header) (c : Config τ) :
    Prop where
  handing : Handing inst c
  header : (∀ second, c.shared.stage ≠ .again second) →
    readHeader codec (c.shared.files.disk inst.rangeMap.file) = .ok header
  onSecond : ∀ u l, c.task u = .second l → ∃ live, c.shared.stage = .again (some live)
  second : ∀ live, c.shared.stage = .again (some live) →
    live.inst.target ≠ live.inst.rangeMap.file ∧
    live.inst.MemorySound blob (live.shared c.shared.files.disk) ∧
    ∀ u l, c.task u = .second l →
      live.inst.TaskShape l ∧ live.inst.TaskSound blob c.shared.files.disk l

variable {blob : ℕ → UInt8} {header : Header}

theorem renewed_start {live : Live} {files : Files} (h : Started codec live files.disk) :
    Renewed live.inst codec blob (expectedHeader live.inst.config.blob
      live.inst.config.fetch.unitBytes live.inst.rangeMap.slotCount) (start τ live files) where
  handing := handing_start h
  header _ := h.header
  onSecond _ _ hno := absurd hno (by simp [start])
  second _ hno := absurd hno (by simp [start])

omit [DecidableEq τ] in
/-- A step that is not on the second instance. -/
theorem Renewed.of_same (h : Renewed inst codec blob header c) (hhanding : Handing inst c')
    (hstage : ∀ second, c'.shared.stage = .again second ↔ c.shared.stage = .again second)
    (hheader : readHeader codec (c.shared.files.disk inst.rangeMap.file) = .ok header →
      readHeader codec (c'.shared.files.disk inst.rangeMap.file) = .ok header)
    (hdisk : ∀ second, c.shared.stage = .again second →
      c'.shared.files.disk = c.shared.files.disk)
    (htask : ∀ u l, c'.task u = .second l → c.task u = .second l) :
    Renewed inst codec blob header c' where
  handing := hhanding
  header hno := hheader (h.header fun second hsecond => hno second ((hstage second).mpr hsecond))
  onSecond u l hu := by
    obtain ⟨live, hlive⟩ := h.onSecond u l (htask u l hu)
    exact ⟨live, (hstage _).mpr hlive⟩
  second live hlive := by
    have hlive' := (hstage _).mp hlive
    obtain ⟨hne, hsound, htasks⟩ := h.second live hlive'
    rw [hdisk _ hlive']
    exact ⟨hne, hsound, fun u l hu => htasks u l (htask u l hu)⟩

theorem onSecond_of_fire (h : (tasks codec ino inst config).fire c t e = some c')
    (hno : ∀ l, c'.task t ≠ .second l) (u : τ) (l : Instance.TaskState)
    (hu : c'.task u = .second l) : c.task u = .second l := by
  by_cases hut : u = t
  · rw [hut] at hu
    exact absurd hu (hno l)
  · rwa [← TaskSystem.fire_task_of_ne h hut]

/-- A step on the second instance, from the task's state there. -/
theorem Renewed.second_step (h : Renewed inst codec blob header c) (hhanding : Handing inst c')
    (hfire : (tasks codec ino inst config).fire c t e = some c') {live : Live}
    {l l' : Instance.TaskState} {e₂ : Instance.Event} {s₂ : Instance.Shared}
    (hstage : c.shared.stage = .again (some live))
    (hl : live.inst.TaskShape l ∧ live.inst.TaskSound blob c.shared.files.disk l)
    (hok : Instance.Honest blob l e₂)
    (hstep : live.inst.step (live.shared c.shared.files.disk) l e₂ = some (s₂, l'))
    (hshared : c'.shared = c.shared.setSecond live s₂) (hl' : c'.task t = .second l') :
    Renewed inst codec blob header c' := by
  obtain ⟨hne, hsound, htasks⟩ := h.second live hstage
  obtain ⟨hsound', hlocal, hkeep⟩ := Instance.memory_step hne hsound hl.1 hl.2 hok hstep
  have hstage' : c'.shared.stage =
      .again (some { live with slots := s₂.slots, inflight := s₂.inflight }) := by
    rw [hshared]
    rfl
  have hdisk : c'.shared.files.disk = s₂.disk := by
    rw [hshared]
    rfl
  refine ⟨hhanding, fun hno => absurd hstage' (hno _), fun _ _ _ => ⟨_, hstage'⟩,
    fun live' hlive' => ?_⟩
  rw [hstage'] at hlive'
  obtain rfl := Option.some.inj (Stage.again.inj hlive')
  rw [hdisk]
  refine ⟨hne, hsound', fun u l₂ hu => ?_⟩
  by_cases hut : u = t
  · rw [hut, hl'] at hu
    obtain rfl := TaskState.second.inj hu
    exact ⟨Instance.taskShape_step hl.1 hstep, hlocal⟩
  · rw [TaskSystem.fire_task_of_ne hfire hut] at hu
    obtain ⟨hshape, hknows⟩ := htasks u l₂ hu
    exact ⟨hshape, hknows.mono hkeep⟩

/-- **A step keeps it** under an honest remote. -/
theorem renewed_step (hne : inst.target ≠ inst.rangeMap.file)
    (hfile : ino (bitmapPath config.targetPath) = inst.rangeMap.file)
    (hne' : ino config.targetPath ≠ ino (bitmapPath config.targetPath))
    (hheader : ∀ n, header ≠ expectedHeader config.blob config.fetch.unitBytes n)
    (h : Renewed inst codec blob header c) (hok : Quiesces inst c t e)
    (hhonest : HonestOn .second blob c t e)
    (hfire : (tasks codec ino inst config).fire c t e = some c') :
    Renewed inst codec blob header c' := by
  have hhanding := handing_step h.handing hok hfire
  have heff := Effect.of_fire hfire
  generalize hl : c.task t = l, hl' : c'.task t = l', hs' : c'.shared = s' at heff
  cases heff with
  | startFirst | notFound =>
    refine h.of_same hhanding ?_ ?_ ?_ (onSecond_of_fire hfire (by simp [hl']))
    · exact fun _ => by rw [hs']
    · exact fun hread => by rwa [hs']
    · exact fun _ _ => by rw [hs']
  | @startSecond call live hstage =>
    have hcall : live.inst.step (live.shared c.shared.files.disk) .idle (.call call) =
        some (live.shared c.shared.files.disk, live.inst.enter call) := rfl
    have hidle : live.inst.TaskShape .idle ∧
        live.inst.TaskSound blob c.shared.files.disk .idle := ⟨trivial, trivial⟩
    refine h.second_step hhanding hfire hstage hidle trivial hcall ?_ hl'
    rw [hs']
    exact (setSecond_self hstage).symm
  | @first l l' e₁ s₁ hidle hstep =>
    refine h.of_same hhanding ?_ ?_ ?_ (onSecond_of_fire hfire (by simp [hl']))
    · exact fun _ => by rw [hs']; rfl
    · intro hread
      obtain ⟨off, n, hwrite⟩ := Instance.bitmap_step hne hstep
      rw [hs']
      change readHeader codec (s₁.disk inst.rangeMap.file) = _
      rw [hwrite]
      exact readHeader_writeAt (Nat.le_add_right _ _) _ hread
    · intro second hsecond
      have hover : c.shared.stage.Over := by
        rw [hsecond]
        trivial
      rw [(h.handing.quiet hover).2 t l _ c' hl hfire]
  | second hstage hstep =>
    obtain ⟨-, -, htasks⟩ := h.second _ hstage
    exact h.second_step hhanding hfire hstage (htasks t _ hl) (hhonest _ hl) hstep hs' hl'
  | remove hstage | returns hstage =>
    refine h.of_same hhanding ?_ ?_ ?_ (onSecond_of_fire hfire (by simp [hl']))
    · exact fun _ => by rw [hs', hstage]; simp
    · exact fun hread => by rwa [hs']
    · exact fun _ _ => by rw [hs']
  | register answers remote mark hstage hopen hsecond =>
    have hno : ∀ second, c.shared.stage ≠ .again second := by
      rw [hstage]
      simp
    have htasks (u : τ) (l : Instance.TaskState) : c'.task u ≠ .second l := by
      intro hu
      obtain ⟨live, hlive⟩ := h.onSecond u l (onSecond_of_fire hfire (by simp [hl']) u l hu)
      exact hno _ hlive
    refine ⟨hhanding, fun hno' => absurd (by rw [hs']) (hno' _), fun u l hu =>
      absurd hu (htasks u l), fun live hlive => ?_⟩
    rw [hs'] at hlive ⊢
    obtain rfl := hsecond live (Stage.again.inj hlive)
    have hcache := openInstance_ok hopen
    obtain ⟨-, htarget, hbitmap⟩ := hcache.inst_eq
    refine ⟨by rw [htarget, hbitmap]; exact hne', ⟨hcache.started.length_slots, fun k hk => ?_⟩,
      fun u l hu => absurd hu (htasks u l)⟩
    refine absurd (hcache.slots_of_header_ne (fun f n hf hread => ?_) k) hk
    rw [hfile, Files.get] at hf
    split_ifs at hf
    rw [← Option.some.inj hf, h.header hno] at hread
    exact hheader n (Except.ok.inj hread)

theorem renewed_run (hne : inst.target ≠ inst.rangeMap.file)
    (hfile : ino (bitmapPath config.targetPath) = inst.rangeMap.file)
    (hne' : ino config.targetPath ≠ ino (bitmapPath config.targetPath))
    (hheader : ∀ n, header ≠ expectedHeader config.blob config.fetch.unitBytes n) {c₀ : Config τ}
    (h : Renewed inst codec blob header c₀)
    (hrun : Relation.ReflTransGen (Step codec ino inst config
      fun c t e => Quiesces inst c t e ∧ HonestOn .second blob c t e) c₀ c) :
    Renewed inst codec blob header c := by
  induction hrun with
  | refl => exact h
  | tail _ hstep ih =>
    obtain ⟨t, e, ⟨hok, hhonest⟩, hfire⟩ := hstep
    exact renewed_step hne hfile hne' hheader ih hok hhonest hfire

/-! ### The main theorem -/

/-- **Unregistering quiesces an instance**, if `unregister` returns when no call on the instance has
anything left to write. In every state of such a run in which it has returned: no call on the first
instance is in a write, and no step of such a call changes a file. If the second instance is on the
same target with another blob, and its remote is honest, then each of its ready slots has the bytes
of that blob in the target. -/
theorem unregister_quiesces {config₁ : InstanceConfig} {answers : OpenAnswers}
    {remote : Except Error Unit} {files₀ files : Files} {live : Live}
    (hopen : openInstance codec ino config₁ answers remote files₀ = some (.ok live, files)) :
    (∀ c, Relation.ReflTransGen (Step codec ino live.inst config (Quiesces live.inst))
        (start τ live files) c → c.shared.stage.Over →
      (∀ t l, c.task t = .first l → ¬Instance.Writing l) ∧
      ∀ t l e c', c.task t = .first l → (tasks codec ino live.inst config).fire c t e = some c' →
        c'.shared.files = c.shared.files) ∧
    ∀ blob, config.targetPath = config₁.targetPath →
      ino config₁.targetPath ≠ ino (bitmapPath config₁.targetPath) →
      config.blob.digest ≠ config₁.blob.digest ∨ config.blob.size ≠ config₁.blob.size →
      ∀ c, Relation.ReflTransGen (Step codec ino live.inst config
          fun c t e => Quiesces live.inst c t e ∧ HonestOn .second blob c t e)
        (start τ live files) c →
      ∀ second, c.shared.stage = .again (some second) → ∀ k, second.slots.getD k 0 ≠ 0 →
        second.inst.SlotHolds blob c.shared.files.disk k := by
  have hcache := openInstance_ok hopen
  obtain ⟨hconfig, htarget, hbitmap⟩ := hcache.inst_eq
  refine ⟨fun c hrun hover => ?_, fun blob hpath hne hblob c hrun second hsecond => ?_⟩
  · exact (handing_run (handing_start hcache.started) hrun).quiet hover
  · have hrenewed := renewed_run (by rwa [htarget, hbitmap]) (by rw [hpath, hbitmap])
      (by rwa [hpath]) (fun n => expectedHeader_ne ?_) (renewed_start hcache.started) hrun
    · exact (hrenewed.second second hsecond).2.1.memory
    · rw [hconfig]
      exact hblob.imp_right Or.inl

/-! ### A call that overwrites what another instance has fetched -/

section Solo

variable {ok : Config τ → τ → Event → Prop}

theorem Step.of_step {s' : Shared} {l l' : TaskState} (hl : c.task t = l)
    (hstep : step codec ino inst config c.shared l e = some (s', l')) (hok : ok c t e) :
    Step codec ino inst config ok c ⟨s', Function.update c.task t l'⟩ := by
  refine ⟨t, e, hok, TaskSystem.fire_eq_some.mpr ⟨s', l', ?_, rfl⟩⟩
  rw [hl]
  exact hstep

/-- A call on the first instance running alone. -/
theorem first_solo {s₁ : Instance.Shared} {l l' : Instance.TaskState} {es : List Instance.Event}
    (hok : ∀ c e l, c.task t = .first l → Instance.Honest blob l e → ok c t (.step e))
    (hl : c.task t = .first l) (hidle : l ≠ .idle)
    (hhonest : inst.tasks.SoloOk (Instance.Honest blob) c.shared.first l es)
    (h : inst.tasks.solo c.shared.first l es = some (s₁, l')) :
    Relation.ReflTransGen (Step codec ino inst config ok) c
      ⟨c.shared.setFirst s₁, Function.update c.task t (.first l')⟩ := by
  induction es generalizing c l with
  | nil =>
    obtain ⟨rfl, rfl⟩ := Prod.mk.inj (Option.some.inj h)
    rw [← hl, Function.update_eq_self]
    exact .refl
  | cons e es ih =>
    obtain ⟨s₂, l₂, hstep, hrest⟩ := TaskSystem.solo_cons_eq_some.mp h
    have hnext : step codec ino inst config c.shared (.first l) (.step e) =
        some (c.shared.setFirst s₂, .first l₂) := by
      have hstep' : inst.step c.shared.first l e = some (s₂, l₂) := hstep
      simp only [step, if_neg hidle, hstep']
    have hrun := ih (c := ⟨c.shared.setFirst s₂, Function.update c.task t (.first l₂)⟩)
      (Function.update_self _ _ _) (Instance.step_ne_idle hstep) (hhonest.2 _ _ hstep) hrest
    rw [Function.update_idem] at hrun
    exact .head (Step.of_step hl hnext (hok c e l hl hhonest.1)) hrun

/-- A call on the second instance running alone. -/
theorem second_solo {live : Live} {s₂ : Instance.Shared} {l l' : Instance.TaskState}
    {es : List Instance.Event}
    (hok : ∀ c e l, c.task t = .second l → Instance.Honest blob l e → ok c t (.step e))
    (hl : c.task t = .second l) (hstage : c.shared.stage = .again (some live))
    (hhonest : live.inst.tasks.SoloOk (Instance.Honest blob) (live.shared c.shared.files.disk) l es)
    (h : live.inst.tasks.solo (live.shared c.shared.files.disk) l es = some (s₂, l')) :
    Relation.ReflTransGen (Step codec ino inst config ok) c
      ⟨c.shared.setSecond live s₂, Function.update c.task t (.second l')⟩ := by
  induction es generalizing c live l with
  | nil =>
    obtain ⟨rfl, rfl⟩ := Prod.mk.inj (Option.some.inj h)
    rw [setSecond_self hstage, ← hl, Function.update_eq_self]
  | cons e es ih =>
    obtain ⟨s₃, l₃, hstep, hrest⟩ := TaskSystem.solo_cons_eq_some.mp h
    have hnext : step codec ino inst config c.shared (.second l) (.step e) =
        some (c.shared.setSecond live s₃, .second l₃) := by
      have hstep' : live.inst.step (live.shared c.shared.files.disk) l e = some (s₃, l₃) := hstep
      simp only [step, hstage, hstep']
    let next : Live := { live with slots := s₃.slots, inflight := s₃.inflight }
    have hstage' : (c.shared.setSecond live s₃).stage = .again (some next) := rfl
    have hrun := ih (c := ⟨c.shared.setSecond live s₃, Function.update c.task t (.second l₃)⟩)
      (Function.update_self _ _ _) hstage' (hhonest.2 _ _ hstep) hrest
    rw [Function.update_idem] at hrun
    exact .head (Step.of_step hl hnext (hok c e l hl hhonest.1)) hrun

/-- The instance is unregistered and registered again, by two calls that meet no error. -/
theorem register_again {c : Config ℕ} {answers : OpenAnswers} {files : Files} {live : Live}
    {ok : Config ℕ → ℕ → Event → Prop} (hstage : c.shared.stage = .registered)
    (hfirst : c.task 1 = .idle) (hsecond : c.task 2 = .idle)
    (hopen : openInstance codec ino config answers (.ok ()) c.shared.files = some (.ok live, files))
    (hok : ∀ c t e, (∀ e', e ≠ .step e') → e ≠ .returns → ok c t e)
    (hreturns : ok ⟨{ c.shared with stage := .removed }, Function.update c.task 1 .unregistering⟩ 1
      .returns) :
    Relation.ReflTransGen (Step codec ino inst config ok) c
      ⟨{ c.shared with files, stage := .again (some live) },
        Function.update (Function.update c.task 1 .returned) 2 .returned⟩ := by
  have hremove : step codec ino inst config c.shared .idle .remove =
      some ({ c.shared with stage := .removed }, .unregistering) := by
    simp only [step, hstage]
  have hrun := Relation.ReflTransGen.single
    (Step.of_step hfirst hremove (hok c 1 .remove (by simp) (by simp)))
  have hreturn : Step codec ino inst config ok
      ⟨{ c.shared with stage := .removed }, Function.update c.task 1 .unregistering⟩
      ⟨{ c.shared with stage := .unregistered },
        Function.update (Function.update c.task 1 .unregistering) 1 .returned⟩ :=
    Step.of_step (l := .unregistering) (by simp only [Function.update_self]) rfl hreturns
  rw [Function.update_idem] at hreturn
  have hregister : step codec ino inst config { c.shared with stage := .unregistered } .idle
      (.register answers (.ok ()) (.ok ())) =
        some ({ c.shared with files, stage := .again (some live) }, .returned) := by
    simp only [step, hopen]
  have hidle : Function.update c.task 1 TaskState.returned 2 = .idle := by
    rw [Function.update_of_ne (by decide)]
    exact hsecond
  exact (hrun.tail hreturn).tail
    (Step.of_step hidle hregister (hok _ 2 _ (by simp) (by simp)))

end Solo

omit [DecidableEq τ] in
theorem honestOn_first {blob' : ℕ → UInt8} {l : Instance.TaskState} {e : Instance.Event}
    (hl : c.task t = .first l) (h : Instance.Honest blob l e) :
    HonestOn .first blob c t (.step e) ∧ HonestOn .second blob' c t (.step e) := by
  refine ⟨fun l' hl' => ?_, fun l' hl' => ?_⟩
  · rw [hl] at hl'
    exact TaskState.first.inj hl' ▸ h
  · rw [hl] at hl'
    exact absurd hl' (by simp)

omit [DecidableEq τ] in
theorem honestOn_second {blob' : ℕ → UInt8} {l : Instance.TaskState} {e : Instance.Event}
    (hl : c.task t = .second l) (h : Instance.Honest blob l e) :
    HonestOn .first blob' c t (.step e) ∧ HonestOn .second blob c t (.step e) := by
  refine ⟨fun l' hl' => ?_, fun l' hl' => ?_⟩
  · rw [hl] at hl'
    exact absurd hl' (by simp)
  · rw [hl] at hl'
    exact TaskState.second.inj hl' ▸ h

omit [DecidableEq τ] in
theorem quiesces_of_ne (h : e ≠ .returns) : Quiesces inst c t e := by
  cases e with
  | returns => exact absurd rfl h
  | _ => trivial

omit [DecidableEq τ] in
theorem honestOn_of_ne {side : Instance.TaskState → TaskState} (h : ∀ e', e ≠ .step e') :
    HonestOn side blob c t e := by
  cases e with
  | step e => exact absurd rfl (h e)
  | _ => trivial

open Daemon (smallIno smallFiles smallConfigOf smallInstanceOf small_open small_reopen smallFetch
  smallFetched)

/-- The first instance, its blob being read, and the second one. -/
def firstInstance : Instance := smallInstanceOf newBlob "layer" rfl

def secondInstance : Instance := smallInstanceOf oldBlob "layer" rfl

/-- A call in its remote read. -/
def smallReading : Instance.TaskState :=
  .running (.ensureRange 0 3) 0 3 (.holding ⟨0, 3⟩ .reading)

theorem first_reading (disk : Disk) : firstInstance.tasks.solo ⟨disk, [0], []⟩
    (firstInstance.enter (.ensureRange 0 3)) [.check, .reserve, .recheck] =
      some (⟨disk, [0], [⟨0, 3⟩]⟩, smallReading) := rfl

theorem first_writes (disk : Disk) : firstInstance.tasks.solo ⟨disk, [0], [⟨0, 3⟩]⟩ smallReading
    [.reply (.ok [7, 7, 7]), .wrote (.ok 3)] =
      some (⟨disk.write ⟨1, 1⟩ 0 [7, 7, 7], [0], [⟨0, 3⟩]⟩,
        .running (.ensureRange 0 3) 0 3 (.holding ⟨0, 3⟩ (.marking 0 1 0))) := rfl

theorem first_fetches (disk : Disk) : firstInstance.tasks.solo ⟨disk, [0], [⟨0, 3⟩]⟩ smallReading
    (smallFetch [7, 7, 7]) =
      some (⟨smallFetched disk [7, 7, 7], [1], []⟩, .returned (.ensureRange 0 3) .ok) := rfl

theorem second_fetches (disk : Disk) : secondInstance.tasks.solo ⟨disk, [0], []⟩
    (secondInstance.enter (.ensureRange 0 3))
    ([.check, .reserve, .recheck] ++ smallFetch [9, 9, 9]) =
      some (⟨smallFetched disk [9, 9, 9], [1], []⟩, .returned (.ensureRange 0 3) .ok) := rfl

theorem second_slotHolds {disk : Disk} (h : secondInstance.SlotHolds (fun _ => 9) disk 0) :
    (disk ⟨1, 1⟩).byte 0 = 9 :=
  ((Instance.slotHolds_iff (by decide)).mp h 0 (by decide) (by decide)).2

section SmallRuns

variable {ok : Config ℕ → ℕ → Event → Prop} {c : Config ℕ}
  (hok : ∀ c t e, (∀ e', e ≠ .step e') → e ≠ .returns → ok c t e)

include hok in
/-- A call on the first instance gets to its remote read. -/
theorem reading_run (hfirst : ∀ c t e l, c.task t = .first l →
      Instance.Honest (fun _ => 7) l e → ok c t (.step e)) (files : Files) :
    Relation.ReflTransGen
      (Step headerJson smallIno firstInstance (smallConfigOf oldBlob "layer") ok)
      (start ℕ ⟨firstInstance, [0], []⟩ files)
      ⟨⟨files, [0], [⟨0, 3⟩], .registered⟩,
        Function.update (fun _ => .idle) 0 (.first smallReading)⟩ := by
  have hstart : Step headerJson smallIno firstInstance (smallConfigOf oldBlob "layer") ok
      (start ℕ ⟨firstInstance, [0], []⟩ files)
      ⟨⟨files, [0], [], .registered⟩, Function.update (fun _ => .idle) 0
        (.first (firstInstance.enter (.ensureRange 0 3)))⟩ :=
    Step.of_step rfl rfl (hok _ 0 (.start (.ensureRange 0 3)) (by simp) (by simp))
  have hread : Relation.ReflTransGen
      (Step headerJson smallIno firstInstance (smallConfigOf oldBlob "layer") ok)
      ⟨⟨files, [0], [], .registered⟩, Function.update (fun _ => .idle) 0
        (.first (firstInstance.enter (.ensureRange 0 3)))⟩ _ :=
    first_solo (fun c e l => hfirst c 0 e l) (by simp only [Function.update_self])
      (by simp [Instance.enter]) (Instance.soloOk_honest (b := 7) (by simp) _ _)
      (first_reading files.disk)
  rw [Function.update_idem] at hread
  exact .head hstart hread

include hok in
/-- A call on the second instance fetches its blob. -/
theorem second_run (hsecond : ∀ c t e l, c.task t = .second l →
      Instance.Honest (fun _ => 9) l e → ok c t (.step e)) (hidle : c.task 3 = .idle)
    (hstage : c.shared.stage = .again (some ⟨secondInstance, [0], []⟩)) :
    Relation.ReflTransGen
      (Step headerJson smallIno firstInstance (smallConfigOf oldBlob "layer") ok) c
      ⟨c.shared.setSecond ⟨secondInstance, [0], []⟩
          ⟨smallFetched c.shared.files.disk [9, 9, 9], [1], []⟩,
        Function.update c.task 3 (.second (.returned (.ensureRange 0 3) .ok))⟩ := by
  have hstart : Step headerJson smallIno firstInstance (smallConfigOf oldBlob "layer") ok c
      ⟨c.shared, Function.update c.task 3
        (.second (secondInstance.enter (.ensureRange 0 3)))⟩ := by
    refine Step.of_step hidle ?_ (hok c 3 (.start (.ensureRange 0 3)) (by simp) (by simp))
    simp only [step, hstage]
  have hfetch : Relation.ReflTransGen
      (Step headerJson smallIno firstInstance (smallConfigOf oldBlob "layer") ok)
      ⟨c.shared, Function.update c.task 3
        (.second (secondInstance.enter (.ensureRange 0 3)))⟩ _ :=
    second_solo (fun c e l => hsecond c 3 e l) (by simp only [Function.update_self]) hstage
      (Instance.soloOk_honest (b := 9) (by simp [smallFetch]) _ _)
      (second_fetches c.shared.files.disk)
  rw [Function.update_idem] at hfetch
  exact .head hstart hfetch

end SmallRuns

/-- A fetch that has returned before the instance is unregistered, and a fetch of the second
instance. -/
theorem unregister_quiesces_small : ∃ live files c second,
    Relation.ReflTransGen (Step headerJson smallIno live.inst (smallConfigOf oldBlob "layer")
        fun c t e => Quiesces live.inst c t e ∧ HonestOn .second (fun _ => 9) c t e)
      (start ℕ live files) c ∧
    c.shared.stage = .again (some second) ∧ second.slots.getD 0 0 ≠ 0 ∧
    second.inst.SlotHolds (fun _ => 9) c.shared.files.disk 0 := by
  obtain ⟨newBuf, hnew⟩ := exists_encodeHeader (encodeHeader_small newBlob (by decide))
  obtain ⟨oldBuf, hold⟩ := exists_encodeHeader (encodeHeader_small oldBlob (by decide))
  have hnone : smallFiles.get ⟨1, 2⟩ = none := if_neg (by decide)
  obtain ⟨f, hopen, hf⟩ := small_open "layer" (rfl : newBlob.size = 3) hnew
    (rfl : smallFiles.present smallInstance.target = true) hnone
  let files : Files := smallFiles.put ⟨1, 2⟩ (some f)
  let ok : Config ℕ → ℕ → Event → Prop := fun c t e =>
    Quiesces firstInstance c t e ∧ HonestOn .second (fun _ => 9) c t e
  have hok (c : Config ℕ) (t : ℕ) (e : Event) (he : ∀ e', e ≠ .step e') (hne : e ≠ .returns) :
      ok c t e := ⟨quiesces_of_ne hne, honestOn_of_ne he⟩
  have hfirst (c : Config ℕ) (t : ℕ) (e : Instance.Event) (l : Instance.TaskState)
      (hl : c.task t = .first l) (h : Instance.Honest (fun _ => 7) l e) : ok c t (.step e) :=
    ⟨quiesces_of_ne (by simp), (honestOn_first hl h).2⟩
  have hsecond (c : Config ℕ) (t : ℕ) (e : Instance.Event) (l : Instance.TaskState)
      (hl : c.task t = .second l) (h : Instance.Honest (fun _ => 9) l e) : ok c t (.step e) :=
    ⟨quiesces_of_ne (by simp), (honestOn_second hl h : HonestOn .first (fun _ => 7) _ _ _ ∧ _).2⟩
  let steps := Relation.ReflTransGen
    (Step headerJson smallIno firstInstance (smallConfigOf oldBlob "layer") ok)
  let c₁ : Config ℕ := ⟨⟨files, [0], [⟨0, 3⟩], .registered⟩,
    Function.update (fun _ => .idle) 0 (.first smallReading)⟩
  have hread : steps (start ℕ ⟨firstInstance, [0], []⟩ files) c₁ := reading_run hok hfirst files
  let disk₂ : Disk := smallFetched files.disk [7, 7, 7]
  let c₂ : Config ℕ := ⟨c₁.shared.setFirst ⟨disk₂, [1], []⟩,
    Function.update c₁.task 0 (.first (.returned (.ensureRange 0 3) .ok))⟩
  have hfetch : steps c₁ c₂ :=
    first_solo (fun c => hfirst c 0) rfl (by simp [smallReading])
      (Instance.soloOk_honest (b := 7) (by simp [smallFetch]) _ _) (first_fetches files.disk)
  have hput : c₂.shared.files.get ⟨1, 2⟩ = some (disk₂ ⟨1, 2⟩) := if_pos rfl
  have hmarked : Persisted headerJson ⟨1, 2⟩ newBlob 1048576 smallInstance.rangeMap
      (disk₂ ⟨1, 2⟩) [1] := by
    have hbitmap : disk₂ ⟨1, 2⟩ = f.writeAt (headerSize + 0) (List.replicate (1 - 0) 1) := by
      rw [← smallFiles.put_disk_self ⟨1, 2⟩ f]
      exact Disk.write_self _ _ _ _
    rw [hbitmap]
    exact hf.fill (Nat.zero_le 1) le_rfl 1
  obtain ⟨f', hreopen, -⟩ := small_reopen "layer" (rfl : oldBlob.size = 3) hold
    (rfl : c₂.shared.files.present smallInstance.target = true) hput hmarked (by decide)
  let c₃ : Config ℕ := ⟨⟨c₂.shared.files.put ⟨1, 2⟩ (some f'), [1], [],
      .again (some ⟨secondInstance, [0], []⟩)⟩,
    Function.update (Function.update c₂.task 1 .returned) 2 .returned⟩
  have hagain : steps c₂ c₃ := by
    refine register_again rfl rfl rfl hreopen hok ⟨fun t => ?_, trivial⟩
    change firstInstance.Done _ (Function.update c₂.task 1 .unregistering t).onFirst
    by_cases hone : t = 1
    · rw [hone, Function.update_self]
      trivial
    · rw [Function.update_of_ne hone]
      by_cases hzero : t = 0
      · rw [hzero]
        trivial
      · simp only [c₂, c₁, Function.update_of_ne hzero]
        trivial
  let disk₄ : Disk := smallFetched c₃.shared.files.disk [9, 9, 9]
  let c₄ : Config ℕ := ⟨c₃.shared.setSecond ⟨secondInstance, [0], []⟩ ⟨disk₄, [1], []⟩,
    Function.update c₃.task 3 (.second (.returned (.ensureRange 0 3) .ok))⟩
  have hrun : steps (start ℕ ⟨firstInstance, [0], []⟩ files) c₄ :=
    ((hread.trans hfetch).trans hagain).trans (second_run hok hsecond rfl rfl)
  refine ⟨⟨firstInstance, [0], []⟩, files, c₄, _, hrun, rfl,
    (by decide : ([1] : List UInt8).getD 0 0 ≠ 0), ?_⟩
  have hpaths : smallIno (smallConfigOf newBlob "layer").targetPath ≠
      smallIno (bitmapPath (smallConfigOf newBlob "layer").targetPath) := by decide
  have hpath : (smallConfigOf oldBlob "layer").targetPath =
      (smallConfigOf newBlob "layer").targetPath := rfl
  have hblob : oldBlob.digest ≠ newBlob.digest := by decide
  exact (unregister_quiesces hopen).2 (fun _ => 9) hpath hpaths (Or.inl hblob) c₄ hrun _ rfl 0
    (by decide : ([1] : List UInt8).getD 0 0 ≠ 0)

/-- **A call on an unregistered instance writes.** It overwrites what the second instance on the
same target has fetched and marked as ready. -/
theorem late_write : ∃ live files,
    openInstance headerJson smallIno (smallConfigOf newBlob "layer") {} (.ok ()) smallFiles =
      some (.ok live, files) ∧
    ∃ c, Relation.ReflTransGen (Step headerJson smallIno live.inst (smallConfigOf oldBlob "layer")
        fun c t e => HonestOn .first (fun _ => 7) c t e ∧ HonestOn .second (fun _ => 9) c t e)
      (start ℕ live files) c ∧
    ∃ second, c.shared.stage = .again (some second) ∧ second.slots.getD 0 0 ≠ 0 ∧
      ¬second.inst.SlotHolds (fun _ => 9) c.shared.files.disk 0 := by
  obtain ⟨newBuf, hnew⟩ := exists_encodeHeader (encodeHeader_small newBlob (by decide))
  obtain ⟨oldBuf, hold⟩ := exists_encodeHeader (encodeHeader_small oldBlob (by decide))
  have hnone : smallFiles.get ⟨1, 2⟩ = none := if_neg (by decide)
  obtain ⟨f, hopen, hf⟩ := small_open "layer" (rfl : newBlob.size = 3) hnew
    (rfl : smallFiles.present smallInstance.target = true) hnone
  let files : Files := smallFiles.put ⟨1, 2⟩ (some f)
  have hput : files.get ⟨1, 2⟩ = some (files.disk ⟨1, 2⟩) := if_pos rfl
  rw [Files.put_disk_self] at hput
  obtain ⟨f', hreopen, -⟩ := small_reopen "layer" (rfl : oldBlob.size = 3) hold
    (rfl : files.present smallInstance.target = true) hput hf (by decide)
  refine ⟨_, _, hopen, ?_⟩
  let ok : Config ℕ → ℕ → Event → Prop := fun c t e =>
    HonestOn .first (fun _ => 7) c t e ∧ HonestOn .second (fun _ => 9) c t e
  have hok (c : Config ℕ) (t : ℕ) (e : Event) (he : ∀ e', e ≠ .step e') : ok c t e :=
    ⟨honestOn_of_ne he, honestOn_of_ne he⟩
  let steps := Relation.ReflTransGen
    (Step headerJson smallIno firstInstance (smallConfigOf oldBlob "layer") ok)
  -- the call is in its remote read when `unregister` returns
  let c₁ : Config ℕ := ⟨⟨files, [0], [⟨0, 3⟩], .registered⟩,
    Function.update (fun _ => .idle) 0 (.first smallReading)⟩
  have hread : steps (start ℕ ⟨firstInstance, [0], []⟩ files) c₁ :=
    reading_run (fun c t e he _ => hok c t e he) (fun _ _ _ _ => honestOn_first) files
  let c₂ : Config ℕ := ⟨⟨files.put ⟨1, 2⟩ (some f'), [0], [⟨0, 3⟩],
      .again (some ⟨secondInstance, [0], []⟩)⟩,
    Function.update (Function.update c₁.task 1 .returned) 2 .returned⟩
  have hagain : steps c₁ c₂ :=
    register_again rfl rfl rfl hreopen (fun c t e he _ => hok c t e he) (hok _ 1 .returns (by simp))
  let disk : Disk := smallFetched c₂.shared.files.disk [9, 9, 9]
  let c₃ : Config ℕ := ⟨c₂.shared.setSecond ⟨secondInstance, [0], []⟩ ⟨disk, [1], []⟩,
    Function.update c₂.task 3 (.second (.returned (.ensureRange 0 3) .ok))⟩
  have hfetch : steps c₂ c₃ :=
    second_run (fun c t e he _ => hok c t e he) (fun _ _ _ _ => honestOn_second) rfl rfl
  -- now its remote answers
  have hwrite : steps c₃ ⟨c₃.shared.setFirst ⟨disk.write ⟨1, 1⟩ 0 [7, 7, 7], [0], [⟨0, 3⟩]⟩,
      Function.update c₃.task 0 _⟩ :=
    first_solo (fun _ _ _ => honestOn_first) rfl (by simp [smallReading])
      (Instance.soloOk_honest (b := 7) (by simp) _ _) (first_writes disk)
  refine ⟨_, ((hread.trans hagain).trans hfetch).trans hwrite, _, rfl,
    (by decide : ([1] : List UInt8).getD 0 0 ≠ 0), fun hholds => ?_⟩
  have hbyte : ((disk.write ⟨1, 1⟩ 0 [7, 7, 7]) ⟨1, 1⟩).byte 0 = 9 := second_slotHolds hholds
  have hlate := SparseFile.writeAt_byte_of_mem (disk ⟨1, 1⟩) 0 [7, 7, 7] (by decide : 0 < 3)
  rw [Disk.write_self] at hbyte
  exact absurd (hbyte.symm.trans hlate) (by decide)

end Handover

end Lazyd
