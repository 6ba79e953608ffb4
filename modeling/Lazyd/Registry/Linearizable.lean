import Lazyd.Library.Linearization
import Lazyd.Registry.Concurrent

/-!
# The registry as an atomic object

To its users the registry is a directory: the configuration of each id that is registered. However
the steps of `register`, of `unregister`, of the uses of instances and of the accesses of the event
loop are interleaved, the calls are those of one sequential history on the directory. Each call
takes effect at one of its steps, so what has ended before another call is made comes before it in
the history.

## Main definitions

* `Daemon.directory` : the registered configurations.
* `Daemon.Op`, `Daemon.Atomic` : the operations on a directory.
* `Daemon.point` : the step at which a call takes effect.
* `Daemon.history` : the operations of a run, in the order in which they take effect.
* `Daemon.CallState.EndedWith` : the operations that a call should have when it has ended.

## Main results

* `Daemon.atomic_of_step` : a step is an operation on the directory at its point, and nothing else.
* `Daemon.registry_linearizable` : the main theorem.

Source: `src/instance.rs`, lines 120–169; `src/fanotify.rs`, lines 162–240.
-/

namespace Lazyd

/-- The registered configurations. -/
abbrev Directory := String → Option InstanceConfig

namespace Daemon

def directory (d : Daemon) : Directory :=
  fun id => (d.instances id).map fun live => live.inst.config

theorem directory_eq_some {d : Daemon} {id : String} {config : InstanceConfig} :
    d.directory id = some config ↔ ∃ live, d.instances id = some live ∧ live.inst.config = config :=
  Option.map_eq_some_iff

theorem directory_eq_none {d : Daemon} {id : String} :
    d.directory id = none ↔ d.instances id = none := Option.map_eq_none_iff

/-! ### The atomic object -/

/-- An operation on a directory, with its result. -/
inductive Op where
  | register (instanceId : String) (config : InstanceConfig) (res : Except Error Unit)
  | unregister (instanceId : String)
  | get (instanceId : String) (found : Option InstanceConfig)

/-- The operations from one directory to another. A registration of a free id may fail, where the
files, the remote or the kernel refuse. -/
inductive Atomic (dir : Directory) : Op → Directory → Prop
  | invalid {id : String} {config : InstanceConfig} {err : Error}
      (h : validateConfig config = .error err) : Atomic dir (.register id config (.error err)) dir
  | kept {id : String} {config config' : InstanceConfig} (h : dir id = some config')
      (hsame : config'.same config = true) : Atomic dir (.register id config (.ok ())) dir
  | conflict {id : String} {config config' : InstanceConfig} (h : dir id = some config')
      (hsame : config'.same config = false) :
      Atomic dir (.register id config
        (.error (.conflict "instance already exists with different config"))) dir
  | failed {id : String} {config : InstanceConfig} (h : dir id = none) (err : Error) :
      Atomic dir (.register id config (.error err)) dir
  | registered {id : String} {config : InstanceConfig} (h : dir id = none) :
      Atomic dir (.register id config (.ok ())) (Function.update dir id (some config))
  | unregister (id : String) : Atomic dir (.unregister id) (Function.update dir id none)
  | get (id : String) : Atomic dir (.get id (dir id)) dir

/-- The operation that takes effect at a step. -/
def point : CallState → Event → CallState → Option Op
  | .idle, .call (.register instanceId config), .returned res =>
    some (.register instanceId { config with instanceId } res)
  | .called (.register instanceId config), .lock, .returned res =>
    some (.register instanceId config res)
  | .opening instanceId config, .open _ _, .returned res => some (.register instanceId config res)
  | .marking instanceId live, .mark _, .returned res =>
    some (.register instanceId live.inst.config res)
  | .statting instanceId live, .stat _, .returned res =>
    some (.register instanceId live.inst.config res)
  | .inserting instanceId live, .insert, .returned res =>
    some (.register instanceId live.inst.config res)
  | .called (.unregister instanceId), .remove, _ => some (.unregister instanceId)
  | .getting _ instanceId, .get, .calling _ _ arc _ =>
    some (.get instanceId (some arc.inst.config))
  | .getting _ instanceId, .get, _ => some (.get instanceId none)
  | _, _, _ => none

/-- An operation of the call. What an access looks up is in the table of marks. -/
def Op.IsOf : Op → Call → Prop
  | .register id config _, .register id' config' =>
    id = id' ∧ config = { config' with instanceId := id' }
  | .unregister id, .unregister id' => id = id'
  | .get id _, .use id' _ => id = id'
  | .get _ _, .access _ _ _ => True
  | _, _ => False

/-- The call has ended. -/
def CallState.hasEnded : CallState → Bool
  | .returned _ | .used .. | .answered .. => true
  | _ => false

/-- The configuration of the instance that has been found. -/
def foundConfig (asked : Option (Arc × Instance.Outcome)) : Option InstanceConfig :=
  asked.map fun p => p.1.inst.config

/-- The operations that a call should have when it has ended. `register` has one with its result;
the result of `unregister` tells only whether the target has been unmarked. A user of an instance
has looked it up, and has gone on with what it has found; so has the event loop, if it has found an
id. -/
inductive CallState.EndedWith : CallState → Call → List Op → Prop
  | register (id : String) (config : InstanceConfig) (res : Except Error Unit) :
      EndedWith (.returned res) (.register id config)
        [.register id { config with instanceId := id } res]
  | unregister (id : String) (res : Except Error Unit) :
      EndedWith (.returned res) (.unregister id) [.unregister id]
  | use (id : String) (call : Instance.Call) (asked : Option (Arc × Instance.Outcome)) :
      EndedWith (.used call id asked) (.use id call) [.get id (foundConfig asked)]
  | access (key : Option FileKey) (offset len : ℕ) (id : String)
      (asked : Option (Arc × Instance.Outcome)) (response : UInt32) :
      EndedWith (.answered key offset len (some id) asked response) (.access key offset len)
        [.get id (foundConfig asked)]
  | unknown (key : Option FileKey) (offset len : ℕ) (response : UInt32) :
      EndedWith (.answered key offset len none none response) (.access key offset len) []

variable {codec : HeaderCodec} {ino : String → FileKey} {s s' : Shared} {l l' : CallState}
  {e : Event}

theorem CallState.EndedWith.unique {call : Call} {ops ops' : List Op} (h : l.EndedWith call ops)
    (h' : l.EndedWith call ops') : ops = ops' := by
  cases h <;> cases h' <;> rfl

/-! ### The points -/

/-- `register` finds the id taken. -/
theorem step_refused {instanceId : String} {config : InstanceConfig} {res : Except Error Unit}
    (h : step codec ino s (.called (.register instanceId config)) .lock =
      some (s', .returned res)) :
    s' = s ∧ ∃ live, s.daemon.instances instanceId = some live ∧
      res = if live.inst.config.same config then .ok ()
        else .error (.conflict "instance already exists with different config") := by
  simp only [step] at h
  split_ifs at h
  split at h
  · rename_i live hlive
    split_ifs at h with hsame
    · obtain ⟨rfl, hres⟩ := Prod.mk.inj (Option.some.inj h)
      exact ⟨rfl, live, hlive, (CallState.returned.inj hres).symm.trans (if_pos hsame).symm⟩
    · obtain ⟨rfl, hres⟩ := Prod.mk.inj (Option.some.inj h)
      exact ⟨rfl, live, hlive, (CallState.returned.inj hres).symm.trans (if_neg hsame).symm⟩
  · obtain ⟨-, hno⟩ := Prod.mk.inj (Option.some.inj h)
    exact absurd hno (by simp)

theorem directory_setInstance (s : Shared) (instanceId : String) (live : Option Live) :
    (s.setInstance instanceId live).daemon.directory =
      Function.update s.daemon.directory instanceId (live.map fun live => live.inst.config) := by
  funext id
  rw [directory, Shared.setInstance_instances, Function.update_apply, Function.update_apply]
  split_ifs <;> rfl

/-- A registration that is not entered because its configuration is not valid. -/
theorem enterCall_register (instanceId : String) (config : InstanceConfig) :
    (∃ err, validateConfig config = .error err ∧
      enterCall (.register instanceId config) = .returned (.error err)) ∨
    enterCall (.register instanceId config) =
      .called (.register instanceId { config with instanceId }) := by
  rw [enterCall]
  split
  · rename_i err hvalid
    exact Or.inl ⟨err, hvalid, rfl⟩
  · exact Or.inr rfl

/-- **A step is an operation at its point, and nothing else.** -/
theorem atomic_of_step (hfree : ∀ id, l.holds = some id → s.daemon.instances id = none)
    (h : step codec ino s l e = some (s', l')) :
    (point l e l' = none ∧ s'.daemon.directory = s.daemon.directory) ∨
    ∃ op, point l e l' = some op ∧ Atomic s.daemon.directory op s'.daemon.directory := by
  have hnone {id : String} (hid : l.holds = some id) : s.daemon.directory id = none :=
    directory_eq_none.mpr (hfree id hid)
  cases Effect.of_step h with
  | call call =>
    cases call with
    | register instanceId config =>
      rcases enterCall_register instanceId config with ⟨err, hvalid, hcall⟩ | hcall
      · rw [hcall]
        exact Or.inr ⟨_, rfl, .invalid hvalid⟩
      · rw [hcall]
        exact Or.inl ⟨rfl, rfl⟩
    | unregister | use | access => exact Or.inl ⟨rfl, rfl⟩
  | refused instanceId config existing res =>
    obtain ⟨-, live, hlive, rfl⟩ := step_refused h
    have hid := directory_eq_some.mpr ⟨live, hlive, rfl⟩
    refine Or.inr ⟨_, rfl, ?_⟩
    split_ifs with hsame
    · exact .kept hid hsame
    · exact .conflict hid (Bool.eq_false_iff.mpr hsame)
  | notOpened instanceId config answers remote err files =>
    exact Or.inr ⟨_, rfl, .failed (hnone rfl) err⟩
  | notMarked instanceId live fault err => exact Or.inr ⟨_, rfl, .failed (hnone rfl) err⟩
  | notStatted instanceId live err => exact Or.inr ⟨_, rfl, .failed (hnone rfl) _⟩
  | inserted instanceId live =>
    refine Or.inr ⟨_, rfl, ?_⟩
    rw [Shared.unlock_daemon, Shared.addArc_daemon, directory_setInstance]
    exact .registered (hnone rfl)
  | absent instanceId habsent =>
    refine Or.inr ⟨_, rfl, ?_⟩
    have hsame : Function.update s.daemon.directory instanceId none = s.daemon.directory := by
      rw [← directory_eq_none.mpr habsent, Function.update_eq_self]
    have hatomic : Atomic s.daemon.directory (.unregister instanceId) _ :=
      .unregister instanceId
    rwa [hsame] at hatomic
  | removed instanceId live =>
    refine Or.inr ⟨_, rfl, ?_⟩
    rw [directory_setInstance]
    exact .unregister instanceId
  | gone user instanceId habsent =>
    have hget : Atomic s.daemon.directory (.get instanceId none) s.daemon.directory := by
      rw [← directory_eq_none.mpr habsent]
      exact .get instanceId
    cases user <;> exact Or.inr ⟨_, rfl, hget⟩
  | got user instanceId live hlive =>
    refine Or.inr ⟨_, rfl, ?_⟩
    rw [← directory_eq_some.mpr ⟨live, hlive, rfl⟩]
    exact .get instanceId
  | opened instanceId config answers remote live files =>
    refine Or.inl ⟨?_, rfl⟩
    rw [afterOpening]
    split <;> rfl
  | _ => exact Or.inl ⟨rfl, rfl⟩

/-! ### What a call knows of its point -/

/-- The call that a task has made first, as it waits for the registry. -/
def Asked (es : List Event) (call : Call) : Prop :=
  ∃ call', es.head? = some (.call call') ∧ enterCall call' = .called call

/-- The call of a user of an instance. -/
def User.made (instanceId : String) : User → Call
  | .client call => .use instanceId call
  | .access key offset len => .access (some key) offset len

/-- The steps of a task, its operations and where it stands: up to the point of its call there is no
operation, after it there is one of the call, and when the call has ended it is the one that it
should be. -/
def CallKnows (es : List Event) (ops : List Op) : CallState → Prop
  | .idle => es = [] ∧ ops = []
  | .called call => Asked es call ∧ ops = []
  | .opening instanceId config => Asked es (.register instanceId config) ∧ ops = []
  | .marking instanceId live | .statting instanceId live | .tabling instanceId live
  | .inserting instanceId live => Asked es (.register instanceId live.inst.config) ∧ ops = []
  | .unstatting _ | .unmarking _ | .untabling _ =>
    ∃ instanceId, Asked es (.unregister instanceId) ∧ ops = [.unregister instanceId]
  | .getting user instanceId => es.head? = some (.call (user.made instanceId)) ∧ ops = []
  | .calling user instanceId arc _ => es.head? = some (.call (user.made instanceId)) ∧
      ops = [.get instanceId (some arc.inst.config)]
  | .returned res =>
    ∃ call, es.head? = some (.call call) ∧ (CallState.returned res).EndedWith call ops
  | .used call instanceId asked => ∃ call', es.head? = some (.call call') ∧
      (CallState.used call instanceId asked).EndedWith call' ops
  | .answered key offset len entry asked response => ∃ call, es.head? = some (.call call) ∧
      (CallState.answered key offset len entry asked response).EndedWith call ops

theorem head?_snoc {es : List Event} {e e' : Event} (h : es.head? = some e) :
    (es ++ [e']).head? = some e := by
  cases es with
  | nil => exact absurd h (by simp)
  | cons => exact h

theorem Asked.snoc {es : List Event} {call : Call} (h : Asked es call) (e : Event) :
    Asked (es ++ [e]) call := by
  obtain ⟨call', hhead, hcalled⟩ := h
  exact ⟨call', head?_snoc hhead, hcalled⟩

/-- A registration that has been entered. -/
theorem Asked.registration {es : List Event} {instanceId : String} {config : InstanceConfig}
    (h : Asked es (.register instanceId config)) : ∃ config',
      es.head? = some (.call (.register instanceId config')) ∧
        config = { config' with instanceId := instanceId } := by
  obtain ⟨call, hhead, hcalled⟩ := h
  cases call with
  | register instanceId' config' =>
    rcases enterCall_register instanceId' config' with ⟨err, -, hcall⟩ | hcall
    · exact absurd (hcall.symm.trans hcalled) (by simp)
    · obtain ⟨rfl, rfl⟩ := Call.register.inj (CallState.called.inj (hcalled.symm.trans hcall))
      exact ⟨config', hhead, rfl⟩
  | use => exact absurd hcalled (by simp [enterCall])
  | unregister | access => exact absurd (CallState.called.inj hcalled) (by simp)

theorem Asked.removal {es : List Event} {instanceId : String}
    (h : Asked es (.unregister instanceId)) : es.head? = some (.call (.unregister instanceId)) := by
  obtain ⟨call, hhead, hcalled⟩ := h
  cases call with
  | register instanceId' config' =>
    rcases enterCall_register instanceId' config' with ⟨err, -, hcall⟩ | hcall
    · exact absurd (hcall.symm.trans hcalled) (by simp)
    · exact absurd (CallState.called.inj (hcall.symm.trans hcalled)) (by simp)
  | unregister =>
    obtain rfl := Call.unregister.inj (CallState.called.inj hcalled)
    exact hhead
  | use => exact absurd hcalled (by simp [enterCall])
  | access => exact absurd (CallState.called.inj hcalled) (by simp)

theorem Asked.accessed {es : List Event} {key : Option FileKey} {offset len : ℕ}
    (h : Asked es (.access key offset len)) : es.head? = some (.call (.access key offset len)) := by
  obtain ⟨call, hhead, hcalled⟩ := h
  cases call with
  | register instanceId' config' =>
    rcases enterCall_register instanceId' config' with ⟨err, -, hcall⟩ | hcall
    · exact absurd (hcall.symm.trans hcalled) (by simp)
    · exact absurd (CallState.called.inj (hcall.symm.trans hcalled)) (by simp)
  | access =>
    obtain ⟨rfl, rfl, rfl⟩ := Call.access.inj (CallState.called.inj hcalled)
    exact hhead
  | use => exact absurd hcalled (by simp [enterCall])
  | unregister => exact absurd (CallState.called.inj hcalled) (by simp)

theorem Asked.returned {es : List Event} {instanceId : String} {config : InstanceConfig}
    (h : Asked es (.register instanceId config)) (res : Except Error Unit) :
    CallKnows es [.register instanceId config res] (.returned res) := by
  obtain ⟨config', hhead, rfl⟩ := h.registration
  exact ⟨_, hhead, .register ..⟩

theorem Asked.removed {es : List Event} {instanceId : String}
    (h : Asked es (.unregister instanceId)) (res : Except Error Unit) :
    CallKnows es [.unregister instanceId] (.returned res) :=
  ⟨_, h.removal, .unregister ..⟩

/-- The user of an instance has ended. -/
theorem callKnows_finished {es : List Event} {instanceId : String} {user : User}
    (h : es.head? = some (.call (user.made instanceId)))
    (asked : Option (Arc × Instance.Outcome)) :
    CallKnows es [.get instanceId (foundConfig asked)] (user.finished instanceId asked) := by
  cases user with
  | client => exact ⟨_, h, .use ..⟩
  | access => exact ⟨_, h, .access ..⟩

/-- **A step keeps what a call knows.** -/
theorem callKnows_step {es : List Event} {ops : List Op} (h : step codec ino s l e = some (s', l'))
    (hl : CallKnows es ops l) : CallKnows (es ++ [e]) (ops ++ (point l e l').toList) l' := by
  have hpoint {l l' : CallState} (hknows : CallKnows (es ++ [e]) ops l')
      (hnone : point l e l' = none) : CallKnows (es ++ [e]) (ops ++ (point l e l').toList) l' := by
    rwa [hnone, Option.toList_none, List.append_nil]
  cases Effect.of_step h with
  | call call =>
    obtain ⟨rfl, rfl⟩ := hl
    cases call with
    | register instanceId config =>
      rcases enterCall_register instanceId config with ⟨err, -, hcall⟩ | hcall
      · rw [hcall]
        exact ⟨_, rfl, .register ..⟩
      · rw [hcall]
        exact ⟨⟨_, rfl, hcall⟩, rfl⟩
    | unregister | access => exact ⟨⟨_, rfl, rfl⟩, rfl⟩
    | use => exact ⟨rfl, rfl⟩
  | refused | notOpened | notMarked | notStatted | inserted =>
    obtain ⟨hasked, rfl⟩ := hl
    exact (hasked.snoc _).returned _
  | absent =>
    obtain ⟨hasked, rfl⟩ := hl
    exact (hasked.snoc _).removed _
  | removed instanceId live =>
    obtain ⟨hasked, rfl⟩ := hl
    rw [afterRemoving]
    split
    · exact ⟨instanceId, hasked.snoc _, rfl⟩
    · exact (hasked.snoc _).removed _
  | opened instanceId config answers remote live files hopen =>
    obtain ⟨hasked, rfl⟩ := hl
    rw [← (openInstance_target hopen).1] at hasked
    rw [afterOpening]
    split <;> exact ⟨hasked.snoc _, rfl⟩
  | lock | marked | statted | tabled =>
    exact hpoint ⟨hl.1.snoc _, hl.2⟩ rfl
  | unstatted | unmarked =>
    obtain ⟨instanceId, hasked, rfl⟩ := hl
    exact ⟨instanceId, hasked.snoc _, rfl⟩
  | notUnstatted | notUnmarked | untabled =>
    obtain ⟨instanceId, hasked, rfl⟩ := hl
    exact (hasked.snoc _).removed _
  | unknown =>
    obtain ⟨hasked, rfl⟩ := hl
    exact ⟨_, (hasked.snoc _).accessed, .unknown ..⟩
  | resolved =>
    obtain ⟨hasked, rfl⟩ := hl
    exact ⟨(hasked.snoc _).accessed, rfl⟩
  | gone user =>
    obtain ⟨hhead, rfl⟩ := hl
    have hhead' : (es ++ [Event.get]).head? = _ := head?_snoc hhead
    have hknows := callKnows_finished hhead' none
    cases user <;> exact hknows
  | got =>
    obtain ⟨hhead, rfl⟩ := hl
    exact ⟨head?_snoc hhead, rfl⟩
  | stepped => exact hpoint ⟨head?_snoc hl.1, hl.2⟩ rfl
  | finished user instanceId arc call out =>
    obtain ⟨hhead, rfl⟩ := hl
    exact hpoint (callKnows_finished (head?_snoc hhead) (some (arc, out))) rfl

theorem CallKnows.endedWith {es : List Event} {ops : List Op} (h : CallKnows es ops l)
    (hended : l.hasEnded = true) : ∃ call, es.head? = some (.call call) ∧ l.EndedWith call ops := by
  cases l with
  | returned | used | answered => exact h
  | _ => exact absurd hended (by simp [CallState.hasEnded])

theorem CallKnows.isOf {es : List Event} {ops : List Op} {op : Op} (h : CallKnows es ops l)
    (hop : op ∈ ops) : ops = [op] ∧ ∃ call, es.head? = some (.call call) ∧ op.IsOf call := by
  have hended {l : CallState} {call : Call} (h : l.EndedWith call ops) :
      ops = [op] ∧ op.IsOf call := by
    cases h with
    | register | unregister | use | access =>
      obtain rfl := List.mem_singleton.mp hop
      simp [Op.IsOf]
    | unknown => exact absurd hop List.not_mem_nil
  cases l with
  | idle | called | opening | marking | statting | tabling | inserting | getting =>
    rw [h.2] at hop
    exact absurd hop List.not_mem_nil
  | unstatting | unmarking | untabling =>
    obtain ⟨instanceId, hasked, rfl⟩ := h
    obtain rfl := List.mem_singleton.mp hop
    exact ⟨rfl, _, hasked.removal, rfl⟩
  | calling user instanceId =>
    obtain ⟨hhead, rfl⟩ := h
    obtain rfl := List.mem_singleton.mp hop
    refine ⟨rfl, _, hhead, ?_⟩
    cases user with
    | client => rfl
    | access => trivial
  | returned | used | answered =>
    obtain ⟨call, hhead, hwith⟩ := h
    exact ⟨(hended hwith).1, call, hhead, (hended hwith).2⟩

/-! ### Runs -/

section Runs

variable {τ : Type*} [DecidableEq τ] (codec ino)

/-- The operations of a run, in the order in which they take effect, each with its task. -/
def history (c₀ : CallConfig τ) (ls : List (τ × Event)) : List (τ × Op) :=
  (calls codec ino).points point c₀ ls

/-- The operations of one task. -/
def opsOf (t : τ) (log : List (τ × Op)) : List Op := (log.filter fun p => p.1 = t).map Prod.snd

variable {codec ino} {ok : CallState → Event → Prop} {files : Files}
  {fanotify : Option FanotifyBackend} {ls ls' : List (τ × Event)} {c c' : CallConfig τ}

/-- The history of a run is one of the directory. -/
theorem history_replay (h : (calls codec ino).Run ok (startCalls τ files fanotify) ls c) :
    TaskSystem.Replay Atomic (fun _ => none)
      ((history codec ino (startCalls τ files fanotify) ls).map Prod.snd)
      c.shared.daemon.directory := by
  refine h.replay (I := Locked) (fun s : Shared => s.daemon.directory)
    (locked_start files fanotify) (fun _ _ _ _ hlocked _ hfire => locked_step hlocked hfire) ?_ ?_
  · intro c t e c' hlocked hfire hpoint
    rcases atomic_of_step (fun id hid => hlocked.free t id hid) (TaskSystem.fire_step hfire) with
      ⟨-, hsame⟩ | ⟨op, hop, -⟩
    · exact hsame
    · exact absurd (hpoint.symm.trans hop) (by simp)
  · intro c t e c' op hlocked hfire hpoint
    rcases atomic_of_step (fun id hid => hlocked.free t id hid) (TaskSystem.fire_step hfire) with
      ⟨hnone, -⟩ | ⟨op', hop, hatomic⟩
    · exact absurd (hnone.symm.trans hpoint) (by simp)
    · obtain rfl := Option.some.inj (hop.symm.trans hpoint)
      exact hatomic

theorem callKnows_run (h : (calls codec ino).Run ok (startCalls τ files fanotify) ls c) (t : τ) :
    CallKnows ((ls.filter fun p => p.1 = t).map Prod.snd)
      (opsOf t (history codec ino (startCalls τ files fanotify) ls)) (c.task t) := by
  have hidle : CallKnows [] [] .idle := ⟨rfl, rfl⟩
  exact h.points_filter (fun _ => hidle)
    (fun _ _ _ _ _ _ _ hstep hl => callKnows_step hstep hl) t

theorem ended_stays {t : τ} (hended : (c.task t).hasEnded = true)
    (h : (calls codec ino).Run ok c ls c') : c'.task t = c.task t := by
  refine h.invariant (I := fun c' => c'.task t = c.task t) rfl ?_
  intro c₁ u e c₂ hc _ hfire
  by_cases hu : t = u
  · subst hu
    have hstep := TaskSystem.fire_step hfire
    rw [hc] at hstep
    cases hl : c.task t with
    | returned | used | answered =>
      rw [hl] at hstep
      exact absurd hstep (by simp [calls, step])
    | _ =>
      rw [hl] at hended
      exact absurd hended (by simp [CallState.hasEnded])
  · rw [TaskSystem.fire_task_of_ne hfire hu, hc]

theorem mem_of_head? {t : τ} {e : Event}
    (h : ((ls.filter fun p => p.1 = t).map Prod.snd).head? = some e) : (t, e) ∈ ls := by
  obtain ⟨⟨u, e'⟩, hu, rfl⟩ := List.mem_map.mp (List.mem_of_mem_head? (Option.mem_def.mpr h))
  obtain ⟨hmade, htask⟩ := List.mem_filter.mp hu
  obtain rfl : u = t := of_decide_eq_true htask
  exact hmade

/-- **The registry is linearizable.** Let some calls run on a daemon that has just been started, and
then others or the same ones go on. There is a sequential history of operations on the directory
that leads to what is registered in the end. Each call that has ended has the operations in it that
it should, with the result that it has got. Each operation is one of a call that has been made,
which has no other. And the operations of the first part come before the others: so a call that has
ended by then comes before one that has not been made yet. -/
theorem registry_linearizable
    (h : (calls codec ino).Run ok (startCalls τ files fanotify) ls c)
    (h' : (calls codec ino).Run ok c ls' c') : ∃ before after : List (τ × Op),
    TaskSystem.Replay Atomic (fun _ => none) ((before ++ after).map Prod.snd)
      c'.shared.daemon.directory ∧
    (∀ t, (c'.task t).hasEnded = true → ∃ call, (t, .call call) ∈ ls ++ ls' ∧
      (c'.task t).EndedWith call (opsOf t (before ++ after))) ∧
    (∀ t op, (t, op) ∈ before ++ after → ∃ call, (t, .call call) ∈ ls ++ ls' ∧ op.IsOf call ∧
      opsOf t (before ++ after) = [op]) ∧
    (∀ t, (c.task t).hasEnded = true → ∀ op, (t, op) ∉ after) ∧
    ∀ t, c.task t = .idle → ∀ op, (t, op) ∉ before := by
  have hall := h.append h'
  have hsplit : history codec ino (startCalls τ files fanotify) (ls ++ ls') =
      history codec ino (startCalls τ files fanotify) ls ++ history codec ino c ls' :=
    h.points_append ls'
  have hops (t : τ) (log : List (τ × Op)) (op : Op) : (t, op) ∈ log ↔ op ∈ opsOf t log := by
    simp [opsOf]
  refine ⟨history codec ino (startCalls τ files fanotify) ls, history codec ino c ls', ?_, ?_, ?_,
    ?_, ?_⟩
  · rw [← hsplit]
    exact history_replay hall
  · intro t hended
    obtain ⟨call, hhead, hwith⟩ := (callKnows_run hall t).endedWith hended
    rw [← hsplit]
    exact ⟨call, mem_of_head? hhead, hwith⟩
  · intro t op hop
    rw [← hsplit] at hop ⊢
    obtain ⟨hone, call, hhead, hcall⟩ := (callKnows_run hall t).isOf ((hops t _ op).mp hop)
    exact ⟨call, mem_of_head? hhead, hcall, hone⟩
  · intro t hended op hop
    obtain ⟨call, hhead, hwith⟩ := (callKnows_run h t).endedWith hended
    have hstays := ended_stays hended h'
    obtain ⟨call', hhead', hwith'⟩ := (callKnows_run hall t).endedWith (hstays ▸ hended)
    -- the call has the same operations at both times
    have hcall : call' = call := by
      have hsame : ((ls ++ ls').filter fun p => p.1 = t).map Prod.snd =
          (ls.filter fun p => p.1 = t).map Prod.snd ++
            (ls'.filter fun p => p.1 = t).map Prod.snd := by
        rw [List.filter_append, List.map_append]
      rw [hsame, List.head?_append, hhead, Option.some_or] at hhead'
      exact (Event.call.inj (Option.some.inj hhead')).symm
    rw [hstays, hcall] at hwith'
    have hsame := hwith'.unique hwith
    rw [hsplit, opsOf, List.filter_append, List.map_append] at hsame
    have hlater := (hops t _ op).mp hop
    rw [opsOf, List.append_right_eq_self.mp hsame] at hlater
    exact absurd hlater List.not_mem_nil
  · intro t hidle op hop
    have hfirst := callKnows_run h t
    rw [hidle] at hfirst
    rw [hops, hfirst.2] at hop
    exact absurd hop List.not_mem_nil

end Runs

/-! ### Two registrations of one id -/

/-- A registration that meets no error, on a daemon without a fanotify backend. -/
theorem solo_register (arcs : Arcs) {d : Daemon} {instanceId : String} {config : InstanceConfig}
    {answers : OpenAnswers} {live : Live} {files : Files}
    (hvalid : validateConfig config = .ok ())
    (hfanotify : d.fanotify = none) (hfree : d.instances instanceId = none)
    (hopen : openInstance codec ino { config with instanceId } answers (.ok ()) d.files =
      some (.ok live, files)) :
    (calls codec ino).solo ⟨d, false, arcs⟩ .idle
        [.call (.register instanceId config), .lock, .open answers (.ok ()), .insert] =
      some (⟨{ d with files, instances := Function.update d.instances instanceId (some live) },
        false, arcs.add instanceId live⟩, .returned (.ok ())) := by
  have hcall : enterCall (.register instanceId config) =
      .called (.register instanceId { config with instanceId }) := by
    simp only [enterCall, hvalid]
  have hopened : afterOpening d instanceId live = .inserting instanceId live := by
    rw [afterOpening, hfanotify]
    split
    · rename_i hno
      exact absurd hno (by simp)
    · rfl
  simp only [TaskSystem.solo, calls, step, hcall, hfree, hopen, hopened, Option.bind_some,
    Bool.false_eq_true, if_false]
  rfl

/-- A registration of an id that is taken. -/
theorem solo_conflict {d : Daemon} {instanceId : String} {config : InstanceConfig} {live : Live}
    {arcs : Arcs} (hvalid : validateConfig config = .ok ())
    (hlive : d.instances instanceId = some live)
    (hsame : live.inst.config.same { config with instanceId } = false) :
    (calls codec ino).solo ⟨d, false, arcs⟩ .idle [.call (.register instanceId config), .lock] =
      some (⟨d, false, arcs⟩,
        .returned (.error (.conflict "instance already exists with different config"))) := by
  have hcall : enterCall (.register instanceId config) =
      .called (.register instanceId { config with instanceId }) := by
    simp only [enterCall, hvalid]
  simp only [TaskSystem.solo, calls, step, hcall, hlive, hsame, Option.bind_some,
    Bool.false_eq_true, if_false]

/-- A call of `ensure_range` for nothing, on an instance that is registered. -/
theorem solo_use {s : Shared} {instanceId : String} {live : Live} (offset : ℕ)
    (hlocked : s.locked = false) (hlive : s.daemon.instances instanceId = some live) :
    (calls codec ino).solo s .idle
        [.call (.use instanceId (.ensureRange offset 0)), .get, .step .check, .ended] =
      some (s, .used (.ensureRange offset 0) instanceId
        (some (⟨live.inst, s.arcs.number instanceId⟩, .ok))) := by
  have hcheck : live.inst.step (s.instance (s.arcs.number instanceId))
      (live.inst.enter (.ensureRange offset 0)) .check =
        some (s.instance (s.arcs.number instanceId), .returned (.ensureRange offset 0) .ok) := rfl
  simp only [TaskSystem.solo, calls, step, enterCall, hlocked, hlive, User.call, hcheck,
    Shared.setShared_instance, Option.bind_some, Bool.false_eq_true, if_false, User.finished]

/-- Two clients register one id with the blobs that they have, and a third one uses the instance.
The second one comes later and is refused, and the history says so, and which instance the third one
has found. -/
theorem registry_linearizable_small : ∃ before after : List (ℕ × Op),
    ∃ c' : CallConfig ℕ,
    TaskSystem.Replay Atomic (fun _ => none) ((before ++ after).map Prod.snd)
      c'.shared.daemon.directory ∧
    c'.task 1 = .returned (.error (.conflict "instance already exists with different config")) ∧
    opsOf 2 (before ++ after) = [.get "a" (some (smallConfigOf newBlob "a"))] ∧
    (∀ op, (0, op) ∉ after) ∧ ∀ op, (1, op) ∉ before := by
  have hnew : newBlob.size = 3 := rfl
  have hvalid (blob : BlobDescriptor) (h : blob.size = 3) :
      validateConfig (smallConfigOf blob "a") = .ok () := by
    have hpath : (smallConfigOf blob "a").targetPath ≠ "" :=
      (by decide : smallConfig.targetPath ≠ "")
    have hblob : (smallConfigOf blob "a").blob.size ≠ 0 := by
      rw [smallConfigOf, h]
      decide
    rw [validateConfig, if_neg hpath, if_neg hblob]
    exact (rfl : validateFetchUnitBytes smallConfig.fetch.unitBytes.toNat = .ok ())
  obtain ⟨buf, hbuf⟩ := exists_encodeHeader (encodeHeader_small newBlob (by decide))
  have hnone : smallFiles.get ⟨1, 2⟩ = none := if_neg (by decide)
  obtain ⟨f, hopen, -⟩ := small_open "a" hnew hbuf
    (rfl : smallFiles.present smallInstance.target = true) hnone
  have hfirst := solo_register .none (hvalid newBlob hnew)
    (rfl : (start smallFiles none).fanotify = none) rfl hopen
  have hrun :
      (calls headerJson smallIno).Run (fun _ _ => True) (startCalls ℕ smallFiles none) _ _ :=
    .of_solo (t := 0) (TaskSystem.soloOk_true _ _ _) hfirst
  -- the instance is there now
  generalize hd : ({ start smallFiles none with
    files := smallFiles.put ⟨1, 2⟩ (some f)
    instances := Function.update (start smallFiles none).instances "a"
      (some ⟨smallInstanceOf newBlob "a" hnew, [0], []⟩) } : Daemon) = d at hrun
  generalize Arcs.none.add "a" ⟨smallInstanceOf newBlob "a" hnew, [0], []⟩ = arcs at hrun
  have hlive : d.instances "a" = some ⟨smallInstanceOf newBlob "a" hnew, [0], []⟩ := by
    rw [← hd]
    change Function.update (fun _ => none) "a" (some _) "a" = _
    rw [Function.update_self]
  let f₁ : ℕ → CallState := Function.update (fun _ => .idle) 0 (.returned (.ok ()))
  let f₂ : ℕ → CallState := Function.update f₁ 1
    (.returned (.error (.conflict "instance already exists with different config")))
  have hsame : (smallConfigOf newBlob "a").same (smallConfigOf oldBlob "a") = false := by
    decide +kernel
  have hidle : f₁ 1 = .idle := Function.update_of_ne (by decide) _ _
  have hsecond : (calls headerJson smallIno).solo ⟨d, false, arcs⟩ (f₁ 1) _ = _ :=
    hidle ▸ solo_conflict (hvalid oldBlob rfl) hlive hsame
  have hidle₂ : f₂ 2 = .idle := rfl
  have hthird : (calls headerJson smallIno).solo ⟨d, false, arcs⟩ (f₂ 2) _ = _ :=
    hidle₂ ▸ solo_use 0 rfl hlive
  have hrun₂ : (calls headerJson smallIno).Run (fun _ _ => True) ⟨⟨d, false, arcs⟩, f₁⟩ _ _ :=
    .of_solo (t := 1) (TaskSystem.soloOk_true _ _ _) hsecond
  have hrun₃ : (calls headerJson smallIno).Run (fun _ _ => True) ⟨⟨d, false, arcs⟩, f₂⟩ _ _ :=
    .of_solo (t := 2) (TaskSystem.soloOk_true _ _ _) hthird
  obtain ⟨before, after, hreplay, hended, -, hfirst, hlast⟩ :=
    registry_linearizable hrun (hrun₂.append hrun₃)
  obtain ⟨call, -, hwith⟩ := hended 2 rfl
  have hops : opsOf 2 (before ++ after) = [.get "a" (some (smallConfigOf newBlob "a"))] := by
    generalize opsOf 2 (before ++ after) = ops at hwith
    cases hwith with
    | use => rfl
  exact ⟨before, after, _, hreplay, rfl, hops, hfirst 0 rfl, hlast 1 hidle⟩

end Daemon

end Lazyd
