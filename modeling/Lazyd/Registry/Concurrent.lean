import Lazyd.Fanotify.EventLoop
import Lazyd.Instance.Ready
import Lazyd.Registry.Register

/-!
# Registering, unregistering and using instances, step by step

`register` works under the write lock of the registry from its look at the registry to the
insertion. `unregister` takes the instance out under the lock, and unmarks its target after it has
released it. The event loop looks up the file of an event in the table of marks and then the
instance in the registry, and calls `ensure_range` on it; the control and data planes look up an
instance by its id and call it. So all of them can overlap. Each is a task here; a step is one
critical section, one system call, the opening of the instance, or one step of the call on an
instance.

Who has found an instance keeps an `Arc` on it, so it lives on after it has been taken out.

## Main definitions

* `Daemon.Arcs`, `Daemon.Arc` : the instances that are in memory.
* `Daemon.Call`, `Daemon.User`, `Daemon.CallState`, `Daemon.Event` : the calls and where they stand.
* `Daemon.step`, `Daemon.calls` : the task system.
* `Daemon.CallStep` : one step of any of the calls, under a condition.
* `Daemon.Locked` : the write lock has at most one holder.

## Main results

* `Daemon.Effect.of_step` : everything that a step can do.
* `Daemon.Effect.lock_cases`, `Daemon.Effect.instances`, `Daemon.Effect.marks` : what a step does to
  the lock, the registry and the table of marks.
* `Daemon.locked_step` : the write lock is exclusive.
* `Daemon.register_run` : a call of `register` that meets no error, up to the insertion.

Source: `src/instance.rs`, lines 88–169 and 229–305; `src/fanotify.rs`, lines 106–155 and 162–240.
-/

namespace Lazyd

namespace Daemon

/-- What an instance has in memory. -/
structure Memory where
  slots : List UInt8
  inflight : List Range

/-- The instances that have been inserted into the registry, numbered in their order. The registry
keeps an instance as it was opened; what it has in memory now is kept here. -/
structure Arcs where
  count : ℕ
  /-- the instance that was last inserted for an id -/
  number : String → ℕ
  memory : ℕ → Memory

/-- No instance has been inserted. -/
def Arcs.none : Arcs := ⟨0, fun _ => 0, fun _ => ⟨[], []⟩⟩

/-- The next instance is inserted. -/
def Arcs.add (arcs : Arcs) (instanceId : String) (live : Live) : Arcs where
  count := arcs.count + 1
  number := Function.update arcs.number instanceId arcs.count
  memory := Function.update arcs.memory arcs.count ⟨live.slots, live.inflight⟩

/-- An `Arc` on an instance that has been inserted. -/
structure Arc where
  inst : Instance
  number : ℕ

/-- The daemon, whether a call holds the write lock of the registry, and the instances in memory. -/
structure Shared where
  daemon : Daemon
  locked : Bool
  arcs : Arcs

/-- What the calls on an instance share. -/
def Shared.instance (s : Shared) (number : ℕ) : Instance.Shared where
  disk := s.daemon.files.disk
  slots := (s.arcs.memory number).slots
  inflight := (s.arcs.memory number).inflight

/-- The daemon after a step of a call on an instance. -/
def Shared.setShared (s : Shared) (number : ℕ) (shared : Instance.Shared) : Shared :=
  { s with
    daemon := { s.daemon with files := { s.daemon.files with disk := shared.disk } }
    arcs := { s.arcs with
      memory := Function.update s.arcs.memory number ⟨shared.slots, shared.inflight⟩ } }

inductive Call where
  | register (instanceId : String) (config : InstanceConfig)
  | unregister (instanceId : String)
  /-- the control plane or the data plane calls an instance -/
  | use (instanceId : String) (call : Instance.Call)
  /-- the event loop handles an event; the file of its descriptor is what `fstat` finds -/
  | access (key : Option FileKey) (offset len : ℕ)

/-- Who looks up an instance: the control plane or the data plane for a client, or the event loop
for an access to a file. -/
inductive User where
  | client (call : Instance.Call)
  | access (key : FileKey) (offset len : ℕ)

/-- The call on the instance. -/
def User.call : User → Instance.Call
  | .client call => call
  | .access _ offset len => .ensureRange offset len

/-- Where a call stands. -/
inductive CallState where
  | idle
  | called (call : Call)
  /-- `register` holds the write lock, and the id is free -/
  | opening (instanceId : String) (config : InstanceConfig)
  /-- `register` before `fanotify_mark` -/
  | marking (instanceId : String) (live : Live)
  /-- `register` before it asks for the metadata of the target -/
  | statting (instanceId : String) (live : Live)
  /-- `register` before the insertion into the table of marks -/
  | tabling (instanceId : String) (live : Live)
  /-- `register` before the insertion into the registry -/
  | inserting (instanceId : String) (live : Live)
  /-- `unregister` before it asks for the metadata of the target -/
  | unstatting (live : Live)
  /-- `unregister` before `fanotify_mark` -/
  | unmarking (live : Live)
  /-- `unregister` before the removal from the table of marks -/
  | untabling (live : Live)
  /-- before `InstanceRegistry::get` -/
  | getting (user : User) (instanceId : String)
  /-- in a call on the instance -/
  | calling (user : User) (instanceId : String) (arc : Arc) (l : Instance.TaskState)
  /-- a client has its answer: the instance that was found, if any, and how the call on it ended -/
  | used (call : Instance.Call) (instanceId : String) (asked : Option (Arc × Instance.Outcome))
  /-- the event loop has written its response to an access: the id in the table of marks, and what
  the lookup and the call on the instance came to -/
  | answered (key : Option FileKey) (offset len : ℕ) (instanceId : Option String)
      (asked : Option (Arc × Instance.Outcome)) (response : UInt32)
  | returned (res : Except Error Unit)

/-- A step of a call, with the answer of the environment. -/
inductive Event where
  | call (call : Call)
  /-- `register` takes the write lock -/
  | lock
  | open (answers : OpenAnswers) (remote : Except Error Unit)
  /-- `fanotify_mark`, with the text of its error -/
  | mark (fault : Option String)
  | stat (fault : Option IoError)
  /-- an update of the table of marks -/
  | table
  | insert
  /-- `unregister` takes the instance out of the registry -/
  | remove
  /-- `instance_id_for_fd` -/
  | lookup
  /-- `InstanceRegistry::get` -/
  | get
  /-- a step of the call on the instance -/
  | step (e : Instance.Event)
  /-- the call on the instance has ended, and its user goes on -/
  | ended

variable (codec : HeaderCodec) (ino : String → FileKey)

/-- A call up to the point where it waits for the lock. -/
def enterCall : Call → CallState
  | .register instanceId config =>
    match validateConfig config with
    | .error err => .returned (.error err)
    | .ok () => .called (.register instanceId { config with instanceId })
  | .use instanceId call => .getting (.client call) instanceId
  | call => .called call

/-- The response of the event loop. -/
def responseTo : Option (Arc × Instance.Outcome) → UInt32
  | some (_, .ok) => Fanotify.fanAllow
  | _ => Fanotify.fanDeny

/-- The user of an instance goes on after the lookup has failed or its call has ended. -/
def User.finished (instanceId : String) (asked : Option (Arc × Instance.Outcome)) : User → CallState
  | .client call => .used call instanceId asked
  | .access key offset len =>
    .answered (some key) offset len (some instanceId) asked (responseTo asked)

/-- `register` has opened the instance. -/
def afterOpening (d : Daemon) (instanceId : String) (live : Live) : CallState :=
  match live.inst.config.triggerMode, d.fanotify with
  | .fanotify, some _ => .marking instanceId live
  | _, _ => .inserting instanceId live

/-- `unregister` has taken the instance out. -/
def afterRemoving (d : Daemon) (live : Live) : CallState :=
  match live.inst.config.triggerMode, d.fanotify with
  | .fanotify, some _ => .unstatting live
  | _, _ => .returned (.ok ())

/-- The daemon after a change of its backend. -/
def mapBackend (d : Daemon) (f : FanotifyBackend → FanotifyBackend) : Daemon :=
  { d with fanotify := d.fanotify.map f }

/-- A change of the backend, whoever holds the lock. -/
def Shared.mapBackend (s : Shared) (f : FanotifyBackend → FanotifyBackend) : Shared :=
  { s with daemon := s.daemon.mapBackend f }

/-- A change of the registry, by the holder of the lock or in a critical section of its own. -/
def Shared.setInstance (s : Shared) (instanceId : String) (live : Option Live) : Shared :=
  { s with
    daemon := { s.daemon with
      instances := Function.update s.daemon.instances instanceId live } }

/-- The files after an opening. -/
def Shared.setFiles (s : Shared) (files : Files) : Shared :=
  { s with daemon := { s.daemon with files } }

/-- The instance that is inserted is the next one in memory. -/
def Shared.addArc (s : Shared) (instanceId : String) (live : Live) : Shared :=
  { s with arcs := s.arcs.add instanceId live }

/-- The end of a critical section. -/
def Shared.unlock (s : Shared) : Shared := { s with locked := false }

section Updates

variable (s : Shared)

@[simp]
theorem Shared.mapBackend_fanotify (f : FanotifyBackend → FanotifyBackend) :
    (s.mapBackend f).daemon.fanotify = s.daemon.fanotify.map f := rfl

@[simp]
theorem Shared.setInstance_instances (instanceId : String) (live : Option Live) :
    (s.setInstance instanceId live).daemon.instances =
      Function.update s.daemon.instances instanceId live := rfl

@[simp]
theorem Shared.setInstance_fanotify (instanceId : String) (live : Option Live) :
    (s.setInstance instanceId live).daemon.fanotify = s.daemon.fanotify := rfl

@[simp]
theorem Shared.addArc_daemon (instanceId : String) (live : Live) :
    (s.addArc instanceId live).daemon = s.daemon := rfl

@[simp]
theorem Shared.unlock_daemon : s.unlock.daemon = s.daemon := rfl

@[simp]
theorem Shared.setShared_instances (number : ℕ) (shared : Instance.Shared) :
    (s.setShared number shared).daemon.instances = s.daemon.instances := rfl

@[simp]
theorem Shared.setShared_fanotify (number : ℕ) (shared : Instance.Shared) :
    (s.setShared number shared).daemon.fanotify = s.daemon.fanotify := rfl

theorem Shared.setShared_instance (number : ℕ) : s.setShared number (s.instance number) = s := by
  obtain ⟨⟨⟨disk, present⟩, instances, fanotify⟩, locked, count, numbers, memory⟩ := s
  simp only [Shared.setShared, Shared.instance, Function.update_eq_self]

theorem Shared.instance_setShared (number : ℕ) (shared : Instance.Shared) :
    (s.setShared number shared).instance number = shared := by
  simp only [Shared.setShared, Shared.instance, Function.update_self]

theorem Shared.setShared_setShared (number : ℕ) (shared shared' : Instance.Shared) :
    (s.setShared number shared).setShared number shared' = s.setShared number shared' := by
  simp only [Shared.setShared, Function.update_idem]

end Updates

/-- The kernel's mark of the file. -/
def markKernel (key : FileKey) (on : Bool) (backend : FanotifyBackend) : FanotifyBackend :=
  { backend with marked := Function.update backend.marked key on }

/-- The entry of the file in the table. -/
def setEntry (key : FileKey) (entry : Option String) (backend : FanotifyBackend) :
    FanotifyBackend :=
  { backend with marks := Function.update backend.marks key entry }

section Marks

variable (key : FileKey) (backend : FanotifyBackend)

@[simp]
theorem markKernel_marked (on : Bool) :
    (markKernel key on backend).marked = Function.update backend.marked key on := rfl

@[simp]
theorem markKernel_marks (on : Bool) : (markKernel key on backend).marks = backend.marks := rfl

@[simp]
theorem setEntry_marked (entry : Option String) :
    (setEntry key entry backend).marked = backend.marked := rfl

@[simp]
theorem setEntry_marks (entry : Option String) :
    (setEntry key entry backend).marks = Function.update backend.marks key entry := rfl

end Marks

/-- `fanotify_mark` on a path, with the text of its error. -/
def fanotifyMark (path : String) (fault : Option String) : Except Error Unit :=
  match FanotifyBackend.cString path with
  | .error err => .error err
  | .ok () =>
    match fault with
    | some msg => .error (.fanotify msg)
    | none => .ok ()

/-- One step of a call. -/
def step (s : Shared) : CallState → Event → Option (Shared × CallState)
  | .idle, .call call => some (s, enterCall call)
  | .called (.register instanceId config), .lock =>
    if s.locked then none
    else
      match s.daemon.instances instanceId with
      | some existing =>
        if existing.inst.config.same config then some (s, .returned (.ok ()))
        else
          some (s, .returned
            (.error (.conflict "instance already exists with different config")))
      | none => some ({ s with locked := true }, .opening instanceId config)
  | .opening instanceId config, .open answers remote =>
    match openInstance codec ino config answers remote s.daemon.files with
    | none => none
    | some (.error err, files) =>
      some ((s.setFiles files).unlock, .returned (.error err))
    | some (.ok live, files) =>
      some (s.setFiles files, afterOpening s.daemon instanceId live)
  | .marking instanceId live, .mark fault =>
    match fanotifyMark live.inst.config.targetPath fault with
    | .error err => some (s.unlock, .returned (.error err))
    | .ok () =>
      some (s.mapBackend (markKernel (ino live.inst.config.targetPath) true),
        .statting instanceId live)
  | .statting instanceId live, .stat fault =>
    match fault with
    | some err => some (s.unlock, .returned (.error (.io err)))
    | none => some (s, .tabling instanceId live)
  | .tabling instanceId live, .table =>
    some (s.mapBackend (setEntry (ino live.inst.config.targetPath) (some instanceId)),
      .inserting instanceId live)
  | .inserting instanceId live, .insert =>
    some (((s.setInstance instanceId (some live)).addArc instanceId live).unlock,
      .returned (.ok ()))
  | .called (.unregister instanceId), .remove =>
    if s.locked then none
    else
      match s.daemon.instances instanceId with
      | none => some (s, .returned (.ok ()))
      | some live =>
        some (s.setInstance instanceId none, afterRemoving s.daemon live)
  | .unstatting live, .stat fault =>
    match fault with
    | some err => some (s, .returned (.error (.io err)))
    | none => some (s, .unmarking live)
  | .unmarking live, .mark fault =>
    match fanotifyMark live.inst.config.targetPath fault with
    | .error err => some (s, .returned (.error err))
    | .ok () =>
      some (s.mapBackend (markKernel (ino live.inst.config.targetPath) false), .untabling live)
  | .untabling live, .table =>
    some (s.mapBackend (setEntry (ino live.inst.config.targetPath) none), .returned (.ok ()))
  | .called (.access key offset len), .lookup =>
    match s.daemon.fanotify with
    | none => none
    | some backend =>
      match key with
      | none => some (s, .answered key offset len none none Fanotify.fanDeny)
      | some file =>
        match backend.marks file with
        | none => some (s, .answered key offset len none none Fanotify.fanDeny)
        | some instanceId => some (s, .getting (.access file offset len) instanceId)
  | .getting user instanceId, .get =>
    if s.locked then none
    else
      match s.daemon.instances instanceId with
      | none => some (s, user.finished instanceId none)
      | some live =>
        some (s, .calling user instanceId ⟨live.inst, s.arcs.number instanceId⟩
          (live.inst.enter user.call))
  | .calling user instanceId arc l, .step e =>
    match arc.inst.step (s.instance arc.number) l e with
    | none => none
    | some (shared, l') => some (s.setShared arc.number shared, .calling user instanceId arc l')
  | .calling user instanceId arc (.returned _ out), .ended =>
    some (s, user.finished instanceId (some (arc, out)))
  | _, _ => none

/-- The calls as a task system. -/
def calls : TaskSystem Shared CallState Event := ⟨step codec ino⟩

/-- The state of the daemon and of all its calls. -/
abbrev CallConfig (τ : Type*) := TaskSystem.Config Shared CallState τ

/-- One step of any of the calls, under the condition `ok` on the state before it. -/
def CallStep {τ : Type*} [DecidableEq τ] (ok : CallConfig τ → τ → Event → Prop)
    (c c' : CallConfig τ) : Prop := ∃ t e, ok c t e ∧ (calls codec ino).fire c t e = some c'

/-- A daemon that has just been started, with no calls yet. -/
def startCalls (τ : Type*) (files : Files) (fanotify : Option FanotifyBackend) : CallConfig τ where
  shared := ⟨start files fanotify, false, .none⟩
  task _ := .idle

/-- The id that a call holds the write lock for. -/
def CallState.holds : CallState → Option String
  | .opening instanceId _ | .marking instanceId _ | .statting instanceId _
  | .tabling instanceId _ | .inserting instanceId _ => some instanceId
  | _ => none

/-- The event loop is past its lookup in the table of marks. -/
def CallState.accessing : CallState → Bool
  | .getting (.access ..) _ | .calling (.access ..) .. | .answered .. => true
  | _ => false

/-! ### What a step can do -/

/-- The effects of a step. -/
inductive Effect (s : Shared) : CallState → Event → Shared → CallState → Prop
  | call (call : Call) : Effect s .idle (.call call) s (enterCall call)
  | refused (instanceId : String) (config : InstanceConfig) (existing : Live)
      (res : Except Error Unit) (h : s.daemon.instances instanceId = some existing) :
      Effect s (.called (.register instanceId config)) .lock s (.returned res)
  | lock (instanceId : String) (config : InstanceConfig) (hlocked : s.locked = false)
      (hfree : s.daemon.instances instanceId = none) :
      Effect s (.called (.register instanceId config)) .lock { s with locked := true }
        (.opening instanceId config)
  | notOpened (instanceId : String) (config : InstanceConfig) (answers : OpenAnswers)
      (remote : Except Error Unit) (err : Error) (files : Files)
      (h : openInstance codec ino config answers remote s.daemon.files = some (.error err, files)) :
      Effect s (.opening instanceId config) (.open answers remote)
        (s.setFiles files).unlock (.returned (.error err))
  | opened (instanceId : String) (config : InstanceConfig) (answers : OpenAnswers)
      (remote : Except Error Unit) (live : Live) (files : Files)
      (h : openInstance codec ino config answers remote s.daemon.files = some (.ok live, files)) :
      Effect s (.opening instanceId config) (.open answers remote)
        (s.setFiles files) (afterOpening s.daemon instanceId live)
  | notMarked (instanceId : String) (live : Live) (fault : Option String) (err : Error)
      (h : fanotifyMark live.inst.config.targetPath fault = .error err) :
      Effect s (.marking instanceId live) (.mark fault) s.unlock
        (.returned (.error err))
  | marked (instanceId : String) (live : Live) (fault : Option String)
      (h : fanotifyMark live.inst.config.targetPath fault = .ok ()) :
      Effect s (.marking instanceId live) (.mark fault)
        (s.mapBackend (markKernel (ino live.inst.config.targetPath) true))
        (.statting instanceId live)
  | notStatted (instanceId : String) (live : Live) (err : IoError) :
      Effect s (.statting instanceId live) (.stat (some err)) s.unlock
        (.returned (.error (.io err)))
  | statted (instanceId : String) (live : Live) :
      Effect s (.statting instanceId live) (.stat none) s (.tabling instanceId live)
  | tabled (instanceId : String) (live : Live) :
      Effect s (.tabling instanceId live) .table
        (s.mapBackend (setEntry (ino live.inst.config.targetPath) (some instanceId)))
        (.inserting instanceId live)
  | inserted (instanceId : String) (live : Live) :
      Effect s (.inserting instanceId live) .insert
        ((s.setInstance instanceId (some live)).addArc instanceId live).unlock (.returned (.ok ()))
  | absent (instanceId : String) (h : s.daemon.instances instanceId = none) :
      Effect s (.called (.unregister instanceId)) .remove s (.returned (.ok ()))
  | removed (instanceId : String) (live : Live) (hlocked : s.locked = false)
      (h : s.daemon.instances instanceId = some live) :
      Effect s (.called (.unregister instanceId)) .remove
        (s.setInstance instanceId none) (afterRemoving s.daemon live)
  | notUnstatted (live : Live) (err : IoError) :
      Effect s (.unstatting live) (.stat (some err)) s (.returned (.error (.io err)))
  | unstatted (live : Live) : Effect s (.unstatting live) (.stat none) s (.unmarking live)
  | notUnmarked (live : Live) (fault : Option String) (err : Error)
      (h : fanotifyMark live.inst.config.targetPath fault = .error err) :
      Effect s (.unmarking live) (.mark fault) s (.returned (.error err))
  | unmarked (live : Live) (fault : Option String)
      (h : fanotifyMark live.inst.config.targetPath fault = .ok ()) :
      Effect s (.unmarking live) (.mark fault)
        (s.mapBackend (markKernel (ino live.inst.config.targetPath) false)) (.untabling live)
  | untabled (live : Live) :
      Effect s (.untabling live) .table
        (s.mapBackend (setEntry (ino live.inst.config.targetPath) none)) (.returned (.ok ()))
  | unknown (key : Option FileKey) (offset len : ℕ) :
      Effect s (.called (.access key offset len)) .lookup s
        (.answered key offset len none none Fanotify.fanDeny)
  | resolved (key : FileKey) (offset len : ℕ) (instanceId : String) (backend : FanotifyBackend)
      (hbackend : s.daemon.fanotify = some backend) (h : backend.marks key = some instanceId) :
      Effect s (.called (.access (some key) offset len)) .lookup s
        (.getting (.access key offset len) instanceId)
  | gone (user : User) (instanceId : String) (h : s.daemon.instances instanceId = none) :
      Effect s (.getting user instanceId) .get s (user.finished instanceId none)
  | got (user : User) (instanceId : String) (live : Live)
      (h : s.daemon.instances instanceId = some live) :
      Effect s (.getting user instanceId) .get s (.calling user instanceId
        ⟨live.inst, s.arcs.number instanceId⟩ (live.inst.enter user.call))
  | stepped (user : User) (instanceId : String) (arc : Arc) (l : Instance.TaskState)
      (e : Instance.Event) (shared : Instance.Shared) (l' : Instance.TaskState)
      (h : arc.inst.step (s.instance arc.number) l e = some (shared, l')) :
      Effect s (.calling user instanceId arc l) (.step e) (s.setShared arc.number shared)
        (.calling user instanceId arc l')
  | finished (user : User) (instanceId : String) (arc : Arc) (call : Instance.Call)
      (out : Instance.Outcome) :
      Effect s (.calling user instanceId arc (.returned call out)) .ended s
        (user.finished instanceId (some (arc, out)))

variable {codec ino}

theorem CallState.ne_of_accessing {l l' : CallState} (h : l.accessing = false)
    (h' : l'.accessing = true) : l ≠ l' := by
  rintro rfl
  exact Bool.false_ne_true (h.symm.trans h')

theorem accessing_enterCall (call : Call) : (enterCall call).accessing = false := by
  cases call with
  | register => rw [enterCall]; split <;> rfl
  | unregister | use | access => rfl

theorem accessing_afterOpening (d : Daemon) (id : String) (live : Live) :
    (afterOpening d id live).accessing = false := by
  rw [afterOpening]
  split <;> rfl

theorem accessing_afterRemoving (d : Daemon) (live : Live) :
    (afterRemoving d live).accessing = false := by
  rw [afterRemoving]
  split <;> rfl

/-- **Step inversion.** Every step is one of the effects. -/
theorem Effect.of_step {s s' : Shared} {l l' : CallState} {e : Event}
    (h : step codec ino s l e = some (s', l')) : Effect codec ino s l e s' l' := by
  unfold step at h
  split at h
  · obtain ⟨rfl, rfl⟩ := Prod.mk.inj (Option.some.inj h)
    exact .call _
  · split_ifs at h with hlocked
    rw [Bool.not_eq_true] at hlocked
    split at h
    · rename_i hexisting
      split_ifs at h <;>
      · obtain ⟨rfl, rfl⟩ := Prod.mk.inj (Option.some.inj h)
        exact .refused _ _ _ _ hexisting
    · rename_i hfree
      obtain ⟨rfl, rfl⟩ := Prod.mk.inj (Option.some.inj h)
      exact .lock _ _ hlocked hfree
  · split at h
    · exact absurd h (by simp)
    · rename_i hopen
      obtain ⟨rfl, rfl⟩ := Prod.mk.inj (Option.some.inj h)
      exact .notOpened _ _ _ _ _ _ hopen
    · rename_i hopen
      obtain ⟨rfl, rfl⟩ := Prod.mk.inj (Option.some.inj h)
      exact .opened _ _ _ _ _ _ hopen
  · split at h
    · rename_i hmark
      obtain ⟨rfl, rfl⟩ := Prod.mk.inj (Option.some.inj h)
      exact .notMarked _ _ _ _ hmark
    · rename_i hmark
      obtain ⟨rfl, rfl⟩ := Prod.mk.inj (Option.some.inj h)
      exact .marked _ _ _ hmark
  · split at h
    · obtain ⟨rfl, rfl⟩ := Prod.mk.inj (Option.some.inj h)
      exact .notStatted _ _ _
    · obtain ⟨rfl, rfl⟩ := Prod.mk.inj (Option.some.inj h)
      exact .statted _ _
  · obtain ⟨rfl, rfl⟩ := Prod.mk.inj (Option.some.inj h)
    exact .tabled _ _
  · obtain ⟨rfl, rfl⟩ := Prod.mk.inj (Option.some.inj h)
    exact .inserted _ _
  · split_ifs at h with hlocked
    rw [Bool.not_eq_true] at hlocked
    split at h
    · rename_i habsent
      obtain ⟨rfl, rfl⟩ := Prod.mk.inj (Option.some.inj h)
      exact .absent _ habsent
    · rename_i hlive
      obtain ⟨rfl, rfl⟩ := Prod.mk.inj (Option.some.inj h)
      exact .removed _ _ hlocked hlive
  · split at h
    · obtain ⟨rfl, rfl⟩ := Prod.mk.inj (Option.some.inj h)
      exact .notUnstatted _ _
    · obtain ⟨rfl, rfl⟩ := Prod.mk.inj (Option.some.inj h)
      exact .unstatted _
  · split at h
    · rename_i hmark
      obtain ⟨rfl, rfl⟩ := Prod.mk.inj (Option.some.inj h)
      exact .notUnmarked _ _ _ hmark
    · rename_i hmark
      obtain ⟨rfl, rfl⟩ := Prod.mk.inj (Option.some.inj h)
      exact .unmarked _ _ hmark
  · obtain ⟨rfl, rfl⟩ := Prod.mk.inj (Option.some.inj h)
    exact .untabled _
  · split at h
    · exact absurd h (by simp)
    · rename_i hbackend
      split at h
      · obtain ⟨rfl, rfl⟩ := Prod.mk.inj (Option.some.inj h)
        exact .unknown _ _ _
      · split at h
        · obtain ⟨rfl, rfl⟩ := Prod.mk.inj (Option.some.inj h)
          exact .unknown _ _ _
        · rename_i hmarks
          obtain ⟨rfl, rfl⟩ := Prod.mk.inj (Option.some.inj h)
          exact .resolved _ _ _ _ _ hbackend hmarks
  · split_ifs at h
    split at h
    · rename_i hnone
      obtain ⟨rfl, rfl⟩ := Prod.mk.inj (Option.some.inj h)
      exact .gone _ _ hnone
    · rename_i hlive
      obtain ⟨rfl, rfl⟩ := Prod.mk.inj (Option.some.inj h)
      exact .got _ _ _ hlive
  · split at h
    · exact absurd h (by simp)
    · rename_i hstep
      obtain ⟨rfl, rfl⟩ := Prod.mk.inj (Option.some.inj h)
      exact .stepped _ _ _ _ _ _ _ hstep
  · obtain ⟨rfl, rfl⟩ := Prod.mk.inj (Option.some.inj h)
    exact .finished _ _ _ _ _
  · exact absurd h (by simp)

/-- A step leaves the write lock and its holder alone, or it takes the lock for an id that is free,
or it releases the lock. -/
theorem Effect.lock_cases {s s' : Shared} {l l' : CallState} {e : Event}
    (h : Effect codec ino s l e s' l') :
    (l'.holds = l.holds ∧ s'.locked = s.locked) ∨
      (s.locked = false ∧ s'.locked = true ∧
        ∃ id, l'.holds = some id ∧ s.daemon.instances id = none) ∨
      (l.holds ≠ none ∧ l'.holds = none ∧ s'.locked = false) := by
  cases h with
  | call call =>
    refine Or.inl ⟨?_, rfl⟩
    cases call with
    | register => rw [enterCall]; split <;> rfl
    | unregister | use | access => rfl
  | lock id _ hlocked hfree => exact Or.inr (Or.inl ⟨hlocked, rfl, id, rfl, hfree⟩)
  | notOpened | notMarked | notStatted | inserted =>
    exact Or.inr (Or.inr ⟨Option.some_ne_none _, rfl, rfl⟩)
  | opened =>
    refine Or.inl ⟨?_, rfl⟩
    rw [afterOpening]
    split <;> rfl
  | removed =>
    refine Or.inl ⟨?_, rfl⟩
    rw [afterRemoving]
    split <;> rfl
  | gone user | finished user => exact Or.inl ⟨by cases user <;> rfl, rfl⟩
  | _ => exact Or.inl ⟨rfl, rfl⟩

/-- An instance enters the registry by the insertion of `register` only. -/
theorem Effect.instances {s s' : Shared} {l l' : CallState} {e : Event}
    (h : Effect codec ino s l e s' l') {id : String} {live : Live}
    (hlive : s'.daemon.instances id = some live) :
    s.daemon.instances id = some live ∨ (e = .insert ∧ l = .inserting id live) := by
  cases h with
  | inserted id' live' =>
    by_cases hid : id = id'
    · subst hid
      rw [Shared.unlock_daemon, Shared.addArc_daemon, Shared.setInstance_instances,
        Function.update_self] at hlive
      exact Or.inr ⟨rfl, by rw [Option.some.inj hlive]⟩
    · rw [Shared.unlock_daemon, Shared.addArc_daemon, Shared.setInstance_instances,
        Function.update_of_ne hid] at hlive
      exact Or.inl hlive
  | removed id' =>
    by_cases hid : id = id'
    · rw [hid, Shared.setInstance_instances, Function.update_self] at hlive
      exact absurd hlive (by simp)
    · rw [Shared.setInstance_instances, Function.update_of_ne hid] at hlive
      exact Or.inl hlive
  | _ => exact Or.inl hlive

theorem Effect.holds_insert {s s' : Shared} {l l' : CallState}
    (h : Effect codec ino s l .insert s' l') : l'.holds = none := by
  cases h
  rfl

/-- A file is entered in the table of marks by `register` only, and the table is that of the one
backend. -/
theorem Effect.marks {s s' : Shared} {l l' : CallState} {e : Event}
    (h : Effect codec ino s l e s' l') {backend' : FanotifyBackend}
    (hbackend : s'.daemon.fanotify = some backend') :
    ∃ backend, s.daemon.fanotify = some backend ∧ ∀ key id, backend'.marks key = some id →
      backend.marks key = some id ∨
        ∃ live, l = .tabling id live ∧ key = ino live.inst.config.targetPath := by
  have hmap {f : FanotifyBackend → FanotifyBackend}
      (hf : (s.daemon.fanotify.map f) = some backend') :
      ∃ backend, s.daemon.fanotify = some backend ∧ backend' = f backend := by
    obtain ⟨backend, hsome, rfl⟩ := Option.map_eq_some_iff.mp hf
    exact ⟨backend, hsome, rfl⟩
  cases h with
  | marked | unmarked =>
    obtain ⟨backend, hsome, rfl⟩ := hmap hbackend
    exact ⟨backend, hsome, fun _ _ hkey => Or.inl hkey⟩
  | tabled id' live =>
    obtain ⟨backend, hsome, rfl⟩ := hmap hbackend
    refine ⟨backend, hsome, fun key id hkey => ?_⟩
    by_cases hk : key = ino live.inst.config.targetPath
    · rw [setEntry_marks, hk, Function.update_self] at hkey
      exact Or.inr ⟨live, by rw [Option.some.inj hkey], hk⟩
    · rw [setEntry_marks, Function.update_of_ne hk] at hkey
      exact Or.inl hkey
  | untabled live =>
    obtain ⟨backend, hsome, rfl⟩ := hmap hbackend
    refine ⟨backend, hsome, fun key id hkey => ?_⟩
    by_cases hk : key = ino live.inst.config.targetPath
    · rw [setEntry_marks, hk, Function.update_self] at hkey
      exact absurd hkey (by simp)
    · rw [setEntry_marks, Function.update_of_ne hk] at hkey
      exact Or.inl hkey
  | _ => exact ⟨backend', hbackend, fun _ _ hkey => Or.inl hkey⟩

/-- The event loop has found an id by the entry of the file. -/
theorem Effect.getting_inv {s s' : Shared} {l l' : CallState} {e : Event}
    (h : Effect codec ino s l e s' l') {id : String} {key : FileKey} {offset len : ℕ}
    (hl' : l' = .getting (.access key offset len) id) :
    ∃ backend, s.daemon.fanotify = some backend ∧ backend.marks key = some id ∧ s' = s := by
  cases h with
  | resolved key' offset' len' id' backend hbackend hmarks =>
    obtain ⟨huser, rfl⟩ := CallState.getting.inj hl'
    obtain ⟨rfl, -, -⟩ := User.access.inj huser
    exact ⟨backend, hbackend, hmarks, rfl⟩
  | call call =>
    exact absurd hl' (CallState.ne_of_accessing (accessing_enterCall call) rfl)
  | opened =>
    exact absurd hl' (CallState.ne_of_accessing (accessing_afterOpening _ _ _) rfl)
  | removed =>
    exact absurd hl' (CallState.ne_of_accessing (accessing_afterRemoving _ _) rfl)
  | gone user | finished user => cases user <;> exact absurd hl' (by simp [User.finished])
  | _ => exact absurd hl' (by simp)

/-- The event loop has found an instance by the id, or its call makes a step. -/
theorem Effect.calling_inv {s s' : Shared} {l l' : CallState} {e : Event}
    (h : Effect codec ino s l e s' l') {user : User} {id : String} {arc : Arc}
    {task : Instance.TaskState} (hl' : l' = .calling user id arc task) :
    (s' = s ∧ l = .getting user id ∧ arc.number = s.arcs.number id ∧
      task = arc.inst.enter user.call ∧
      ∃ live, s.daemon.instances id = some live ∧ live.inst = arc.inst) ∨
    ∃ task' e' shared, l = .calling user id arc task' ∧ s' = s.setShared arc.number shared ∧
      arc.inst.step (s.instance arc.number) task' e' = some (shared, task) := by
  cases h with
  | got user' id' live hlive =>
    obtain ⟨rfl, rfl, rfl, rfl⟩ := CallState.calling.inj hl'
    exact Or.inl ⟨rfl, rfl, rfl, rfl, live, hlive, rfl⟩
  | stepped user' id' arc' task' e' shared task'' hstep =>
    obtain ⟨rfl, rfl, rfl, rfl⟩ := CallState.calling.inj hl'
    exact Or.inr ⟨task', e', shared, rfl, rfl, hstep⟩
  | call call =>
    cases call with
    | register =>
      rw [enterCall] at hl'
      split at hl' <;> exact absurd hl' (by simp)
    | unregister | use | access => exact absurd hl' (by simp [enterCall])
  | opened =>
    rw [afterOpening] at hl'
    split at hl' <;> exact absurd hl' (by simp)
  | removed =>
    rw [afterRemoving] at hl'
    split at hl' <;> exact absurd hl' (by simp)
  | gone user' | finished user' => cases user' <;> exact absurd hl' (by simp [User.finished])
  | _ => exact absurd hl' (by simp)

/-- An access is allowed after a call on an instance that has succeeded. -/
theorem Effect.answered_inv {s s' : Shared} {l l' : CallState} {e : Event}
    (h : Effect codec ino s l e s' l') {key : Option FileKey} {offset len : ℕ}
    {entry : Option String} {asked : Option (Arc × Instance.Outcome)}
    (hl' : l' = .answered key offset len entry asked Fanotify.fanAllow) :
    ∃ file id arc call, l = .calling (.access file offset len) id arc (.returned call .ok) ∧
      key = some file ∧ asked = some (arc, .ok) ∧ s' = s := by
  have hdeny : Fanotify.fanDeny ≠ Fanotify.fanAllow := by decide
  cases h with
  | finished user id arc call out =>
    cases user with
    | client => exact absurd hl' (by simp [User.finished])
    | access file offset' len' =>
      obtain ⟨rfl, rfl, rfl, -, rfl, hresponse⟩ := CallState.answered.inj hl'
      cases out with
      | ok => exact ⟨file, id, arc, call, rfl, rfl, rfl, rfl⟩
      | err | cancelled => exact absurd hresponse hdeny
  | gone user id =>
    cases user with
    | client => exact absurd hl' (by simp [User.finished])
    | access file offset' len' => exact absurd (CallState.answered.inj hl').2.2.2.2.2 hdeny
  | unknown => exact absurd (CallState.answered.inj hl').2.2.2.2.2 hdeny
  | call call =>
    exact absurd hl' (CallState.ne_of_accessing (accessing_enterCall call) rfl)
  | opened =>
    exact absurd hl' (CallState.ne_of_accessing (accessing_afterOpening _ _ _) rfl)
  | removed =>
    exact absurd hl' (CallState.ne_of_accessing (accessing_afterRemoving _ _) rfl)
  | _ => exact absurd hl' (by simp)

/-! ### The write lock -/

/-- At most one call holds the write lock, and the id that it holds it for is free. -/
structure Locked {τ : Type*} (c : CallConfig τ) : Prop where
  locked : ∀ t, (c.task t).holds ≠ none → c.shared.locked = true
  unique : ∀ t u, (c.task t).holds ≠ none → (c.task u).holds ≠ none → t = u
  free : ∀ t id, (c.task t).holds = some id → c.shared.daemon.instances id = none

variable {τ : Type*}

theorem locked_start (files : Files) (fanotify : Option FanotifyBackend) :
    Locked (startCalls τ files fanotify) :=
  ⟨fun _ h => absurd rfl h, fun _ _ h => absurd rfl h, fun _ _ _ => rfl⟩

variable [DecidableEq τ] {c c' : CallConfig τ}

theorem Effect.of_fire {t : τ} {e : Event} (h : (calls codec ino).fire c t e = some c') :
    Effect codec ino c.shared (c.task t) e c'.shared (c'.task t) :=
  .of_step (TaskSystem.fire_step h)

/-- An id that no call inserts stays free. -/
theorem instances_none_of_fire {t : τ} {e : Event} {id : String}
    (hfire : (calls codec ino).fire c t e = some c') (hnone : c.shared.daemon.instances id = none)
    (h : ∀ live, e = .insert → c.task t ≠ .inserting id live) :
    c'.shared.daemon.instances id = none := by
  by_contra hsome
  obtain ⟨live, hlive⟩ := Option.ne_none_iff_exists'.mp hsome
  rcases (Effect.of_fire hfire).instances hlive with hold | ⟨he, hl⟩
  · rw [hnone] at hold
    exact absurd hold (by simp)
  · exact h live he hl

/-- **The write lock is exclusive**, whatever the calls do. -/
theorem locked_step {t : τ} {e : Event} (h : Locked c)
    (hfire : (calls codec ino).fire c t e = some c') : Locked c' := by
  have heffect := Effect.of_fire hfire
  have hother {u : τ} (hu : u ≠ t) : c'.task u = c.task u := TaskSystem.fire_task_of_ne hfire hu
  rcases heffect.lock_cases with ⟨hl, hlocked⟩ | ⟨hlocked, hnow, id, hid, hnone⟩ | ⟨hl, hl', -⟩
  · have hholds (u : τ) : (c'.task u).holds = (c.task u).holds := by
      by_cases hu : u = t
      · rw [hu, hl]
      · rw [hother hu]
    refine ⟨fun u hu => ?_, fun u v hu hv => ?_, fun u id hid => ?_⟩
    · exact hlocked.trans (h.locked u (hholds u ▸ hu))
    · exact h.unique u v (hholds u ▸ hu) (hholds v ▸ hv)
    · -- only the holder inserts, and it does not hold the lock afterwards
      rw [hholds] at hid
      refine instances_none_of_fire hfire (h.free u id hid) fun live he hinserting => ?_
      subst he
      rw [heffect.holds_insert, hinserting] at hl
      exact absurd hl (by simp [CallState.holds])
  · have hnobody (u : τ) : (c.task u).holds = none := by
      by_contra hu
      rw [h.locked u hu] at hlocked
      exact absurd hlocked (by simp)
    have honly {u : τ} (hu : (c'.task u).holds ≠ none) : u = t := by
      by_contra hne
      rw [hother hne] at hu
      exact hu (hnobody u)
    refine ⟨fun _ _ => hnow, fun u v hu hv => (honly hu).trans (honly hv).symm,
      fun u id' hid' => ?_⟩
    obtain rfl := honly (by rw [hid']; exact Option.some_ne_none _)
    obtain rfl := Option.some.inj (hid.symm.trans hid')
    refine instances_none_of_fire hfire hnone fun live _ hinserting => ?_
    exact absurd (hnobody u) (by simp [hinserting, CallState.holds])
  · have hnobody (u : τ) : (c'.task u).holds = none := by
      by_cases hu : u = t
      · rw [hu, hl']
      · rw [hother hu]
        by_contra hholds
        exact hu (h.unique u t hholds hl)
    exact ⟨fun u hu => absurd (hnobody u) hu, fun u _ hu => absurd (hnobody u) hu,
      fun u id hid => absurd (hid.symm.trans (hnobody u)) (by simp)⟩

/-! ### Runs of one call -/

theorem update_task (f : τ → CallState) (t : τ) (l : CallState) (h : f t = l) :
    Function.update f t l = f := by
  rw [← h, Function.update_eq_self]

variable {ok : CallConfig τ → τ → Event → Prop} {f : τ → CallState} {t : τ}

theorem CallStep.next {s s' : Shared} {l l' : CallState} {e : Event}
    (h : step codec ino s l e = some (s', l')) (hok : ok ⟨s, Function.update f t l⟩ t e) :
    CallStep codec ino ok ⟨s, Function.update f t l⟩ ⟨s', Function.update f t l'⟩ :=
  ⟨t, e, hok, TaskSystem.fire_update h⟩

/-- The call is one of `unregister` that has taken the instance out. -/
def CallState.removing : CallState → Bool
  | .unstatting _ | .unmarking _ | .untabling _ => true
  | _ => false

/-- A call of `register` that meets no error, up to the insertion. -/
theorem register_run {files files' : Files} {instances : String → Option Live}
    {backend : FanotifyBackend} {instanceId : String} {config : InstanceConfig}
    {answers : OpenAnswers} {remote : Except Error Unit} {live : Live} {arcs : Arcs}
    (hok : ∀ s l e, l.removing = false →
      e ∈ [.call (.register instanceId config), .lock, .open answers remote, .mark none, .stat none,
        .table] → ok ⟨s, Function.update f t l⟩ t e)
    (hvalid : validateConfig config = .ok ()) (hfree : instances instanceId = none)
    (hopen : openInstance codec ino { config with instanceId } answers remote files =
      some (.ok live, files')) (hmode : config.triggerMode = .fanotify)
    (hpath : '\x00' ∉ config.targetPath.toList) :
    Relation.ReflTransGen (CallStep codec ino ok)
      ⟨⟨⟨files, instances, some backend⟩, false, arcs⟩, Function.update f t .idle⟩
      ⟨⟨⟨files', instances, some (backend.insert (ino config.targetPath) instanceId)⟩, true, arcs⟩,
        Function.update f t (.inserting instanceId live)⟩ := by
  have hconfig := (openInstance_target hopen).1
  have hmark : fanotifyMark live.inst.config.targetPath none = .ok () := by
    rw [fanotifyMark, FanotifyBackend.cString, hconfig, if_neg hpath]
  have hcalled : enterCall (.register instanceId config) =
      .called (.register instanceId { config with instanceId }) := by
    simp only [enterCall, hvalid]
  have hopened : afterOpening ⟨files, instances, some backend⟩ instanceId live =
      .marking instanceId live := by
    simp only [afterOpening, hconfig, hmode]
  have hkey : ino live.inst.config.targetPath = ino config.targetPath := by rw [hconfig]
  have hcall : step codec ino ⟨⟨files, instances, some backend⟩, false, arcs⟩ .idle
      (.call (.register instanceId config)) = some (⟨⟨files, instances, some backend⟩, false, arcs⟩,
        .called (.register instanceId { config with instanceId })) := by
    rw [step, hcalled]
  have hlock : step codec ino ⟨⟨files, instances, some backend⟩, false, arcs⟩
      (.called (.register instanceId { config with instanceId })) .lock =
        some (⟨⟨files, instances, some backend⟩, true, arcs⟩,
          .opening instanceId { config with instanceId }) := by
    simp only [step, hfree]
    rfl
  have hopening : step codec ino ⟨⟨files, instances, some backend⟩, true, arcs⟩
      (.opening instanceId { config with instanceId }) (.open answers remote) =
        some (⟨⟨files', instances, some backend⟩, true, arcs⟩, .marking instanceId live) := by
    simp only [step, hopen, hopened]
    rfl
  have hmarking : step codec ino ⟨⟨files', instances, some backend⟩, true, arcs⟩
      (.marking instanceId live) (.mark none) = some (⟨⟨files', instances,
        some (markKernel (ino config.targetPath) true backend)⟩, true, arcs⟩,
          .statting instanceId live) := by
    simp only [step, hmark, hkey]
    rfl
  have htabling : step codec ino ⟨⟨files', instances,
      some (markKernel (ino config.targetPath) true backend)⟩, true, arcs⟩
        (.tabling instanceId live) .table =
          some (⟨⟨files', instances, some (backend.insert (ino config.targetPath) instanceId)⟩,
            true, arcs⟩, .inserting instanceId live) := by
    simp only [step, hkey]
    rfl
  exact (((((Relation.ReflTransGen.single (CallStep.next hcall (hok _ _ _ rfl (by simp)))).tail
    (CallStep.next hlock (hok _ _ _ rfl (by simp)))).tail
    (CallStep.next hopening (hok _ _ _ rfl (by simp)))).tail
    (CallStep.next hmarking (hok _ _ _ rfl (by simp)))).tail
    (CallStep.next (rfl : step codec ino _ _ (.stat none) = _) (hok _ _ _ rfl (by simp)))).tail
    (CallStep.next htabling (hok _ _ _ rfl (by simp)))

end Daemon

end Lazyd
