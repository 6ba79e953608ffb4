import Lazyd.Instance.Answered
import Lazyd.Registry.CompleteCalls

/-!
# What the users of an instance know

Whoever has found an instance in the registry keeps an `Arc` on it. The instance stays in memory,
also after it has been taken out of the registry, and no step of anybody clears a slot of it. So
what a call of `ensure_range` has found ready is ready from then on. And on an instance that has
just been inserted a call for a range inside the blob can succeed.

## Main definitions

* `Daemon.Shared.Holds`, `Daemon.Shared.Keeps` : instances in memory.
* `Daemon.CallState.Knows` : what a call knows about the instance that it uses or registers.
* `Daemon.Known` : the inductive invariant.

## Main results

* `Daemon.known_step` : a step of any call keeps the invariant.
* `Daemon.calling_run` : the steps of a call on an instance are steps of the daemon.
* `Daemon.allowed_run` : an access whose id has been found can be allowed.

Source: `src/instance.rs`, lines 88–169 and 229–261; `src/fanotify.rs`, lines 183–217.
-/

namespace Lazyd

/-- An instance as it has been opened. -/
structure Live.Fresh (live : Live) : Prop where
  length_slots : live.slots.length = live.inst.rangeMap.slotCount
  inflight_eq : live.inflight = []
  size_ne : live.inst.config.blob.size ≠ 0

namespace Daemon

/-- The instance is in memory, with a byte for each slot. -/
def Shared.Holds (s : Shared) (arc : Arc) : Prop :=
  arc.number < s.arcs.count ∧
    (s.arcs.memory arc.number).slots.length = arc.inst.rangeMap.slotCount

/-- What is in memory stays there, and no slot is cleared. -/
def Shared.Keeps (s s' : Shared) : Prop :=
  s.arcs.count ≤ s'.arcs.count ∧ ∀ n < s.arcs.count,
    (s'.arcs.memory n).slots.length = (s.arcs.memory n).slots.length ∧
      Instance.Grows (s.arcs.memory n).slots (s'.arcs.memory n).slots

/-- What a call knows about the instance that it uses or registers. -/
def CallState.Knows (s : Shared) : CallState → Prop
  | .called (.register _ config) | .opening _ config => config.blob.size ≠ 0
  | .marking _ live | .statting _ live | .tabling _ live | .inserting _ live => live.Fresh
  | .calling user _ arc l => s.Holds arc ∧ arc.inst.TaskShape l ∧
      arc.inst.TaskReady (s.arcs.memory arc.number).slots l ∧ l.callOf = some user.call
  | .answered _ offset len _ asked _ => ∀ arc, asked = some (arc, .ok) →
      s.Holds arc ∧ arc.inst.Has (s.arcs.memory arc.number).slots offset len
  | _ => True

variable {τ : Type*}

/-- The inductive invariant: the instances that are registered are in memory, and every call knows
what it knows. -/
structure Known (c : CallConfig τ) : Prop where
  registered : ∀ id live, c.shared.daemon.instances id = some live →
    c.shared.Holds ⟨live.inst, c.shared.arcs.number id⟩
  task : ∀ t, (c.task t).Knows c.shared

theorem Shared.Keeps.refl (s : Shared) : s.Keeps s :=
  ⟨le_rfl, fun _ _ => ⟨rfl, Instance.grows_refl _⟩⟩

variable {s s' : Shared} {l l' : CallState} {e : Event}

theorem Shared.Keeps.holds (h : s.Keeps s') {arc : Arc} (harc : s.Holds arc) : s'.Holds arc :=
  ⟨harc.1.trans_le h.1, (h.2 arc.number harc.1).1.trans harc.2⟩

theorem CallState.Knows.mono (hl : l.Knows s) (h : s.Keeps s') : l.Knows s' := by
  cases l with
  | called call => cases call <;> exact hl
  | calling user id arc task =>
    obtain ⟨harc, hshape, hready, hcall⟩ := hl
    exact ⟨h.holds harc, hshape, hready.mono (h.2 arc.number harc.1).2, hcall⟩
  | answered key offset len entry asked response =>
    intro arc hasked
    obtain ⟨harc, hhas⟩ := hl arc hasked
    exact ⟨h.holds harc, hhas.mono (h.2 arc.number harc.1).2⟩
  | _ => exact hl

/-! ### Steps -/

theorem keeps_addArc (s : Shared) (instanceId : String) (live : Live) :
    s.Keeps (s.addArc instanceId live) := by
  refine ⟨Nat.le_succ _, fun n hn => ?_⟩
  have hsame : ((s.addArc instanceId live).arcs.memory n) = s.arcs.memory n :=
    Function.update_of_ne hn.ne _ _
  rw [hsame]
  exact ⟨rfl, Instance.grows_refl _⟩

/-- A step of a call on an instance clears no slot. -/
theorem keeps_setShared {inst : Instance} {number : ℕ} {task task' : Instance.TaskState}
    {e : Instance.Event} {shared : Instance.Shared}
    (h : inst.step (s.instance number) task e = some (shared, task')) :
    s.Keeps (s.setShared number shared) := by
  refine ⟨le_rfl, fun n _ => ?_⟩
  by_cases hn : n = number
  · subst hn
    have hmemory : (s.setShared n shared).arcs.memory n = ⟨shared.slots, shared.inflight⟩ :=
      Function.update_self _ _ _
    rw [hmemory]
    exact ⟨Instance.length_slots_step h, Instance.grows_step h⟩
  · have hsame : (s.setShared number shared).arcs.memory n = s.arcs.memory n :=
      Function.update_of_ne hn _ _
    rw [hsame]
    exact ⟨rfl, Instance.grows_refl _⟩

variable {codec : HeaderCodec} {ino : String → FileKey}

/-- What is in memory stays there, whatever the step is. -/
theorem Effect.keeps (h : Effect codec ino s l e s' l') : s.Keeps s' := by
  cases h with
  | inserted id live => exact keeps_addArc _ id live
  | stepped user id arc task e shared task' hstep => exact keeps_setShared hstep
  | _ => exact .refl _

theorem knows_enterCall (call : Call) (s : Shared) : (enterCall call).Knows s := by
  cases call with
  | register instanceId config =>
    rw [enterCall]
    split
    · trivial
    · rename_i hvalid
      intro hzero
      rw [validateConfig] at hvalid
      split_ifs at hvalid
  | unregister | use | access => trivial

/-- **The step lemma.** A step keeps what its call knows. -/
theorem Effect.knows (h : Effect codec ino s l e s' l')
    (hregistered : ∀ id live, s.daemon.instances id = some live →
      s.Holds ⟨live.inst, s.arcs.number id⟩) (hl : l.Knows s) : l'.Knows s' := by
  cases h with
  | call call => exact knows_enterCall call s
  | opened id config answers remote live files hopen =>
    have hfresh : live.Fresh := by
      have hstarted := (openInstance_ok hopen).started
      refine ⟨hstarted.length_slots, hstarted.inflight_eq, ?_⟩
      rw [(openInstance_target hopen).1]
      exact hl
    rw [afterOpening]
    split <;> exact hfresh
  | removed =>
    rw [afterRemoving]
    split <;> trivial
  | lock | marked | statted | tabled => exact hl
  | unknown => exact fun _ hno => absurd hno (by simp)
  | gone user =>
    cases user with
    | client => trivial
    | access => exact fun _ hno => absurd hno (by simp)
  | got user id live hlive =>
    refine ⟨hregistered id live hlive, Instance.taskShape_enter _, ?_, Instance.callOf_enter _⟩
    cases hcall : user.call with
    | ensureRange => trivial
    | prepareFetchRange offset len pageSize =>
      rw [Instance.enter]
      split
      · exact fun hno => absurd hno (by simp)
      · trivial
  | stepped user id arc task e shared task' hstep =>
    obtain ⟨harc, hshape, hready, hcall⟩ := hl
    refine ⟨(keeps_setShared hstep).holds harc, Instance.taskShape_step hshape hstep, ?_,
      Instance.callOf_step hcall hstep⟩
    have hmemory : (s.setShared arc.number shared).arcs.memory arc.number =
        ⟨shared.slots, shared.inflight⟩ := Function.update_self _ _ _
    rw [hmemory]
    exact Instance.taskReady_step harc.2 hshape hready hstep
  | finished user id arc call out =>
    obtain ⟨harc, -, hready, hcall⟩ := hl
    cases user with
    | client => trivial
    | access key offset len =>
      intro arc' hasked
      obtain ⟨rfl, rfl⟩ := Prod.mk.inj (Option.some.inj hasked)
      obtain rfl : call = .ensureRange offset len := Option.some.inj hcall
      have hhas := hready rfl
      rw [Instance.Call.offset, Instance.Call.endPos, Nat.add_sub_cancel_left] at hhas
      exact ⟨harc, hhas⟩
  | _ => trivial

/-- The instances that are registered after a step are in memory. -/
theorem Effect.registered (h : Effect codec ino s l e s' l')
    (hregistered : ∀ id live, s.daemon.instances id = some live →
      s.Holds ⟨live.inst, s.arcs.number id⟩) (hl : l.Knows s) {id : String} {live : Live}
    (hlive : s'.daemon.instances id = some live) : s'.Holds ⟨live.inst, s'.arcs.number id⟩ := by
  have hold (hnumber : s'.arcs.number id = s.arcs.number id)
      (hreg : s.daemon.instances id = some live) :
      s'.Holds ⟨live.inst, s'.arcs.number id⟩ :=
    h.keeps.holds (hnumber.symm ▸ hregistered id live hreg)
  cases h with
  | inserted id' live' =>
    by_cases hid : id = id'
    · subst hid
      rw [Shared.unlock_daemon, Shared.addArc_daemon, Shared.setInstance_instances,
        Function.update_self] at hlive
      obtain rfl := Option.some.inj hlive
      have hnumber : (s.arcs.add id live').number id = s.arcs.count := Function.update_self _ _ _
      have hmemory : (s.arcs.add id live').memory s.arcs.count = ⟨live'.slots, live'.inflight⟩ :=
        Function.update_self _ _ _
      change (s.arcs.add id live').number id < s.arcs.count + 1 ∧
        ((s.arcs.add id live').memory ((s.arcs.add id live').number id)).slots.length = _
      rw [hnumber, hmemory]
      exact ⟨Nat.lt_succ_self _, hl.length_slots⟩
    · rw [Shared.unlock_daemon, Shared.addArc_daemon, Shared.setInstance_instances,
        Function.update_of_ne hid] at hlive
      exact hold (Function.update_of_ne hid _ _) hlive
  | removed id' =>
    by_cases hid : id = id'
    · rw [hid, Shared.setInstance_instances, Function.update_self] at hlive
      exact absurd hlive (by simp)
    · rw [Shared.setInstance_instances, Function.update_of_ne hid] at hlive
      exact hold rfl hlive
  | _ => exact hold rfl hlive

theorem known_start (files : Files) (fanotify : Option FanotifyBackend) :
    Known (startCalls τ files fanotify) :=
  ⟨fun _ _ h => absurd h (by simp [startCalls, start]), fun _ => trivial⟩

variable [DecidableEq τ] {c c' : CallConfig τ}

/-- **A step of any call keeps the invariant.** -/
theorem known_step {t : τ} {e : Event} (h : Known c)
    (hfire : (calls codec ino).fire c t e = some c') : Known c' := by
  have heffect := Effect.of_fire hfire
  refine ⟨fun id live hlive => heffect.registered h.registered (h.task t) hlive, fun u => ?_⟩
  by_cases hu : u = t
  · rw [hu]
    exact heffect.knows h.registered (h.task t)
  · rw [TaskSystem.fire_task_of_ne hfire hu]
    exact (h.task u).mono heffect.keeps

/-! ### Runs -/

variable {ok : CallConfig τ → τ → Event → Prop} {f : τ → CallState} {u : τ}

/-- The invariant holds in every run. -/
theorem known_run {files : Files} {fanotify : Option FanotifyBackend}
    (h : Relation.ReflTransGen (CallStep codec ino ok) (startCalls τ files fanotify) c) :
    Known c := by
  induction h with
  | refl => exact known_start files fanotify
  | tail _ hstep ih =>
    obtain ⟨t, e, -, hfire⟩ := hstep
    exact known_step ih hfire

variable (codec ino) in
/-- **The steps of a call on an instance are steps of the daemon**, while all other calls stand
still. -/
theorem calling_run {s : Shared} (user : User) (id : String) (arc : Arc)
    {task task' : Instance.TaskState} {shared : Instance.Shared} {es : List Instance.Event}
    (hok : ∀ s l e, ok ⟨s, Function.update f u l⟩ u (.step e))
    (h : arc.inst.tasks.solo (s.instance arc.number) task es = some (shared, task')) :
    Relation.ReflTransGen (CallStep codec ino ok)
      ⟨s, Function.update f u (.calling user id arc task)⟩
      ⟨s.setShared arc.number shared, Function.update f u (.calling user id arc task')⟩ := by
  induction es generalizing s task with
  | nil =>
    obtain ⟨rfl, rfl⟩ := Prod.mk.inj (Option.some.inj h)
    rw [Shared.setShared_instance]
  | cons e es ih =>
    obtain ⟨shared₁, task₁, hstep, hrest⟩ := TaskSystem.solo_cons_eq_some.mp h
    have hcalling : step codec ino s (.calling user id arc task) (.step e) =
        some (s.setShared arc.number shared₁, .calling user id arc task₁) := by
      have hstep : arc.inst.step (s.instance arc.number) task e = some (shared₁, task₁) := hstep
      simp only [step, hstep]
    rw [← Shared.instance_setShared s arc.number shared₁] at hrest
    have hlater := ih hrest
    rw [Shared.setShared_setShared] at hlater
    exact .head (CallStep.next hcalling (hok _ _ _)) hlater

/-- What the insertion of an instance leaves behind: it is registered and in memory, with nothing in
flight. -/
structure Inserted (s s' : Shared) (id : String) (live : Live) : Prop where
  size_ne : live.inst.config.blob.size ≠ 0
  locked : s'.locked = false
  instances : s'.daemon.instances id = some live
  fanotify : s'.daemon.fanotify = s.daemon.fanotify
  holds : s'.Holds ⟨live.inst, s'.arcs.number id⟩
  inflight : (s'.arcs.memory (s'.arcs.number id)).inflight = []

theorem inserted_of_fire {t : τ} {id : String} {live : Live} (h : Known c)
    (hfire : (calls codec ino).fire c t .insert = some c') (ht : c.task t = .inserting id live) :
    Inserted c.shared c'.shared id live := by
  have hfresh : live.Fresh := by
    have hknows := h.task t
    rwa [ht] at hknows
  have hlive := (known_step h hfire).registered id live
  have hstep : step codec ino c.shared (c.task t) .insert = some (c'.shared, c'.task t) :=
    TaskSystem.fire_step hfire
  rw [ht] at hstep
  obtain ⟨hshared, -⟩ := Prod.mk.inj (Option.some.inj hstep)
  rw [← hshared] at hlive ⊢
  have hinstances :
      (((c.shared.setInstance id (some live)).addArc id live).unlock).daemon.instances id =
        some live := Function.update_self _ _ _
  refine ⟨hfresh.size_ne, rfl, hinstances, rfl, hlive hinstances, ?_⟩
  have hnumber : (c.shared.arcs.add id live).number id = c.shared.arcs.count :=
    Function.update_self _ _ _
  have hmemory : (c.shared.arcs.add id live).memory c.shared.arcs.count =
      ⟨live.slots, live.inflight⟩ := Function.update_self _ _ _
  change ((c.shared.arcs.add id live).memory ((c.shared.arcs.add id live).number id)).inflight = _
  rw [hnumber, hmemory]
  exact hfresh.inflight_eq

variable (codec ino) in
/-- **An access can be allowed.** When its id has been found, the instance has just been inserted
and the range is inside the blob, then `ensure_range` can succeed, and the event loop allows the
access. -/
theorem allowed_run (key : FileKey) {s₀ s : Shared} {id : String} {offset len : ℕ} {live : Live}
    (hok : ∀ s l e, e ≠ .insert → ok ⟨s, Function.update f u l⟩ u e) (h : Inserted s₀ s id live)
    (hrange : len = 0 ∨ offset + len ≤ live.inst.blobSize) :
    ∃ s', Relation.ReflTransGen (CallStep codec ino ok)
      ⟨s, Function.update f u (.getting (.access key offset len) id)⟩
      ⟨s', Function.update f u (.answered (some key) offset len (some id)
        (some (⟨live.inst, s.arcs.number id⟩, .ok)) Fanotify.fanAllow)⟩ := by
  have hget : step codec ino s (.getting (.access key offset len) id) .get =
      some (s, .calling (.access key offset len) id ⟨live.inst, s.arcs.number id⟩
        (live.inst.enter (.ensureRange offset len))) := by
    simp only [step, h.locked, h.instances]
    rfl
  obtain ⟨es, shared, hsolo⟩ := live.inst.exists_solo_ok (s := s.instance (s.arcs.number id))
    h.holds.2 h.inflight hrange
  have hcalling := calling_run codec ino (.access key offset len) id
    ⟨live.inst, s.arcs.number id⟩ (fun s l e => hok s l _ (by simp)) hsolo
  exact ⟨_, (Relation.ReflTransGen.head (CallStep.next hget (hok _ _ _ (by simp))) hcalling).tail
    (CallStep.next (e := .ended) rfl (hok _ _ _ (by simp)))⟩

end Daemon

end Lazyd
