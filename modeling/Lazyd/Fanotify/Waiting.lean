import Lazyd.Fanotify.Access
import Lazyd.Library.Log

/-!
# Processes that wait for the event loop

A process that accesses a marked file waits until the daemon has answered. The kernel queues the
accesses. When the daemon reads from the fanotify group, it reports some of them, and opens a
descriptor of the daemon for the file of each one; it takes a response for the access that was
reported with the descriptor in it. The loop closes each descriptor behind its response, so the same
numbers are used again and again, and other accesses arrive all the time. No access gets the answer
of another one all the same: the accesses are answered in the order in which they were made, each
with the result for its own file and range.

## Main definitions

* `Fanotify.Access`, `Fanotify.Stores.verdict` : an access, and the answer to it.
* `Fanotify.AccessQueue` : accesses that are answered in their order.
* `Fanotify.Group`, `Fanotify.Group.Step` : the fanotify group, and the loop that reads from it.

## Main results

* `Fanotify.Group.read_eq` : what the loop makes of a read.
* `Fanotify.Group.Tracks.step` : a step of the group is one of the queue.
* `Fanotify.Group.Tracks.exists_finished` : the loop can finish its turn.
* `Fanotify.accesses_answered` : every access is answered in its turn.

Source: `src/fanotify.rs`, lines 162–256 and 263–326.
-/

namespace Lazyd

namespace Fanotify

open Instance

/-- An access to a marked file. -/
structure Access where
  file : FileKey
  pid : Int32
  offset : UInt64
  count : UInt64

namespace Access

/-- The range that the access asks for. -/
def range (access : Access) : FanotifyRange where
  offset := access.offset.toNat
  len := if access.count.toNat = 0 then defaultZeroCountWindow else access.count.toNat

/-- The access, as it is reported with a descriptor. -/
def event (access : Access) (fd : Int32) : RawEvent :=
  accessEvent fd access.pid access.offset access.count

end Access

/-! ### The answer to an access -/

/-- What the loop finds in the stores while it handles an event. -/
structure Stores where
  /-- the table of marks of the backend -/
  marks : FileKey → Option String
  /-- `InstanceRegistry::get` -/
  get : String → Option Instance
  /-- how `ensure_range` ends -/
  ensureRange : Instance → ℕ → ℕ → Outcome

namespace Stores

/-- What the loop finds, with the files of the descriptors. -/
def lookups (stores : Stores) (fileOf : Int32 → Option FileKey) : Lookups where
  fstat := fileOf
  marks := stores.marks
  get := stores.get
  ensureRange := stores.ensureRange

/-- An access is allowed if `ensure_range` for its range succeeds on the instance of its file. -/
def verdict (stores : Stores) (access : Access) : UInt32 :=
  match (stores.marks access.file).bind stores.get with
  | none => fanDeny
  | some inst =>
    if stores.ensureRange inst access.range.offset access.range.len = .ok then fanAllow else fanDeny

end Stores

/-- An answer that is due: the descriptor of the access, and the response. -/
structure Due where
  fd : Int32
  access : Access
  response : UInt32

namespace Due

/-- The operations that give the answer. -/
def ops (due : Due) : List FdOp := [.respond due.fd due.response, .close due.fd]

/-- The access, as it has been reported. -/
def report (due : Due) : Int32 × Access := (due.fd, due.access)

/-- The access with its answer. -/
def answer (due : Due) : Access × UInt32 := (due.access, due.response)

end Due

/-- What the loop does on an event depends on its descriptor through the file only. -/
theorem handleEvent_access (stores : Stores) {fileOf : Int32 → Option FileKey} {fd : Int32}
    {access : Access} (h : fileOf fd = some access.file) :
    handleEvent (stores.lookups fileOf) ⟨fd, access.range⟩ =
      Due.ops ⟨fd, access, stores.verdict access⟩ := by
  have hid : instanceIdForFd (stores.lookups fileOf) fd = stores.marks access.file := by
    simp only [instanceIdForFd, Stores.lookups, h]
  rw [handleEvent, hid, Due.ops, Stores.verdict]
  cases stores.marks access.file with
  | none => rfl
  | some instanceId =>
    rw [Option.bind_some]
    cases hget : stores.get instanceId with
    | none => simp [Stores.lookups, hget]
    | some inst =>
      by_cases hout : stores.ensureRange inst access.range.offset access.range.len = .ok <;>
        simp [Stores.lookups, hget, hout]

/-! ### The answers to the accesses of a read -/

/-- The file behind a descriptor. -/
def fileOf (reported : List (Int32 × Access)) (fd : Int32) : Option FileKey :=
  (reported.find? fun p => p.1 = fd).map fun p => p.2.file

theorem fileOf_of_mem {reported : List (Int32 × Access)} (h : (reported.map Prod.fst).Nodup)
    {p : Int32 × Access} (hp : p ∈ reported) : fileOf reported p.1 = some p.2.file := by
  induction reported with
  | nil => exact absurd hp List.not_mem_nil
  | cons q reported ih =>
    obtain ⟨hq, hnodup⟩ := List.nodup_cons.mp h
    rcases List.mem_cons.mp hp with rfl | hmem
    · simp [fileOf]
    · have hne : q.1 ≠ p.1 := fun heq => hq (heq ▸ List.mem_map_of_mem hmem)
      rw [fileOf, List.find?_cons_of_neg (by simpa using hne)]
      exact ih hnodup hmem

/-- The answers to reported accesses, with the stores at each of them. -/
def dues (stores : ℕ → Stores) (reported : List (Int32 × Access)) : List Due :=
  reported.mapIdx fun k p => ⟨p.1, p.2, (stores k).verdict p.2⟩

theorem map_report_dues (stores : ℕ → Stores) (reported : List (Int32 × Access)) :
    (dues stores reported).map Due.report = reported := by
  refine List.ext_getElem? fun k => ?_
  rw [dues, List.getElem?_map, List.getElem?_mapIdx, Option.map_map]
  exact Option.map_id'

/-- What is written into the buffer of the read. -/
def buffer (reported : List (Int32 × Access)) : List UInt8 :=
  reported.flatMap fun p => (p.2.event p.1).encode

theorem parseEvents_buffer (reported : List (Int32 × Access)) :
    parseEvents (buffer reported) = .ok (reported.map fun p => ⟨p.1, p.2.range⟩) := by
  have hall : ∀ event ∈ reported.map fun p => p.2.event p.1,
      decide (event.infos ≠ []) = true := by
    intro event hevent
    obtain ⟨p, -, rfl⟩ := List.mem_map.mp hevent
    exact decide_eq_true (List.cons_ne_nil _ _)
  have hparse := parseEvents_encode (reported.map fun p => p.2.event p.1)
  rw [List.flatMap_map, List.takeWhile_eq_self_iff.mpr hall, List.filterMap_map] at hparse
  rw [buffer, hparse]
  refine congrArg Except.ok ?_
  rw [← List.filterMap_eq_map]
  refine List.filterMap_congr fun p _ => ?_
  exact access_accessEvent p.1 p.2.pid p.2.offset p.2.count

theorem handleEvents_access (stores : ℕ → Stores) {files : Int32 → Option FileKey}
    {reported : List (Int32 × Access)} (h : ∀ p ∈ reported, files p.1 = some p.2.file) :
    handleEvents (fun k => (stores k).lookups files) (reported.map fun p => ⟨p.1, p.2.range⟩) =
      (dues stores reported).flatMap Due.ops := by
  induction reported generalizing stores with
  | nil => rfl
  | cons p reported ih =>
    have hrest := ih (fun k => stores (k + 1)) fun q hq => h q (List.mem_cons_of_mem p hq)
    rw [List.map_cons, handleEvents, handleEvent_access _ (h p List.mem_cons_self), hrest,
      dues.eq_def stores, List.mapIdx_cons, List.flatMap_cons, dues]

/-! ### Accesses in a queue -/

/-- Accesses that wait, and those that have been answered, both in their order. -/
structure AccessQueue where
  waiting : List Access
  answered : List (Access × UInt32)

/-- What happens at a fanotify group. -/
inductive Act where
  /-- a process accesses a marked file -/
  | arrive (access : Access)
  /-- the daemon reads accesses, with the stores at each of them and the descriptors it is given -/
  | read (stores : ℕ → Stores) (fds : List Int32)
  /-- the daemon carries out the next operation of its turn -/
  | carryOut

/-- The access that is made. -/
def Act.access? : Act → Option Access
  | .arrive access => some access
  | _ => none

/-- The answers to accesses, with the stores at each of them. -/
def verdicts (stores : ℕ → Stores) (accesses : List Access) : List (Access × UInt32) :=
  accesses.mapIdx fun k access => (access, (stores k).verdict access)

theorem map_fst_verdicts (stores : ℕ → Stores) (accesses : List Access) :
    (verdicts stores accesses).map Prod.fst = accesses := by
  refine List.ext_getElem? fun k => ?_
  rw [verdicts, List.getElem?_map, List.getElem?_mapIdx, Option.map_map]
  exact Option.map_id'

theorem map_answer_dues (stores : ℕ → Stores) (reported : List (Int32 × Access)) :
    (dues stores reported).map Due.answer = verdicts stores (reported.map Prod.snd) := by
  refine List.ext_getElem? fun k => ?_
  rw [dues, verdicts, List.getElem?_map, List.getElem?_mapIdx, List.getElem?_mapIdx,
    List.getElem?_map, Option.map_map, Option.map_map]
  rfl

namespace AccessQueue

/-- The accesses of a read are answered at once. -/
def act (q : AccessQueue) : Act → AccessQueue
  | .arrive access => { q with waiting := q.waiting ++ [access] }
  | .read stores fds =>
    { waiting := q.waiting.drop fds.length
      answered := q.answered ++ verdicts stores (q.waiting.take fds.length) }
  | .carryOut => q

/-- The queue after a log. -/
def after (log : List Act) : AccessQueue := log.foldl act ⟨[], []⟩

theorem after_snoc (log : List Act) (x : Act) : after (log ++ [x]) = (after log).act x := by
  rw [after, List.foldl_append]
  rfl

theorem accesses_after (log : List Act) :
    (after log).answered.map Prod.fst ++ (after log).waiting = log.filterMap Act.access? := by
  induction log using List.reverseRecOn with
  | nil => rfl
  | append_singleton log x ih =>
    rw [after_snoc, List.filterMap_append, ← ih]
    cases x with
    | arrive access => exact (List.append_assoc _ _ _).symm
    | read stores fds =>
      have hnone : [Act.read stores fds].filterMap Act.access? = [] := rfl
      rw [hnone, List.append_nil, act, List.map_append, map_fst_verdicts, List.append_assoc,
        List.take_append_drop]
    | carryOut => exact (List.append_nil _).symm

end AccessQueue

/-! ### The fanotify group -/

/-- A fanotify group, with the loop that reads from it. -/
structure Group where
  /-- the accesses that have not been reported -/
  waiting : List Access
  /-- the accesses that have been reported and wait for a response -/
  reported : List (Int32 × Access)
  /-- the descriptors that have been opened for events -/
  opened : List Int32
  /-- what the loop has still to do before it reads again -/
  todo : List FdOp
  answered : List (Access × UInt32)

namespace Group

def start : Group := ⟨[], [], [], [], []⟩

/-- The kernel takes a response for the access with the descriptor in it. -/
def take (g : Group) : FdOp → Group
  | .respond fd response =>
    match g.reported.find? fun p => p.1 = fd with
    | none => g
    | some p =>
      { g with
        reported := g.reported.eraseP fun p => p.1 = fd
        answered := g.answered ++ [(p.2, response)] }
  | .close fd => { g with opened := g.opened.erase fd }

theorem todo_take (g : Group) (op : FdOp) : (g.take op).todo = g.todo := by
  cases op with
  | respond fd response =>
    rw [take]
    split <;> rfl
  | close fd => rfl

/-- The descriptors that the kernel opens for a read. -/
structure Offers (g : Group) (fds : List Int32) : Prop where
  length_le : fds.length ≤ g.waiting.length
  nodup : fds.Nodup
  fresh : ∀ fd ∈ fds, fd ∉ g.opened

/-- A read that reports an access with each of the descriptors. -/
def read (stores : ℕ → Stores) (fds : List Int32) (g : Group) : Except Panic Group := do
  let reported := g.reported ++ fds.zip g.waiting
  let todo ← runEventLoopOnce (fun k => (stores k).lookups (fileOf reported))
    (buffer (fds.zip g.waiting))
  return { g with
    waiting := g.waiting.drop fds.length
    reported := reported
    opened := g.opened ++ fds
    todo := todo }

/-- The steps of the group. The loop reads when it has done what the last read has left to it. -/
inductive Step (g : Group) : Act → Group → Prop
  | arrive (access : Access) :
    Step g (.arrive access) { g with waiting := g.waiting ++ [access] }
  | read {stores : ℕ → Stores} {fds : List Int32} {g' : Group} (hidle : g.todo = [])
    (hoffers : g.Offers fds) (hread : read stores fds g = .ok g') : Step g (.read stores fds) g'
  | carryOut {op : FdOp} {rest : List FdOp} (htodo : g.todo = op :: rest) :
    Step g .carryOut (take { g with todo := rest } op)

theorem Offers.map_snd_zip {g : Group} {fds : List Int32} (h : g.Offers fds) :
    (fds.zip g.waiting).map Prod.snd = g.waiting.take fds.length := by
  rw [List.zip_eq_zip_take_min, min_eq_left h.length_le, List.take_length,
    List.map_snd_zip (List.length_take_le _ _)]

/-- **A read.** The loop has an answer for each access of the read, in their order. -/
theorem read_eq {g : Group} (hreported : g.reported = []) {fds : List Int32}
    (hoffers : g.Offers fds) (stores : ℕ → Stores) :
    read stores fds g = .ok { g with
      waiting := g.waiting.drop fds.length
      reported := fds.zip g.waiting
      opened := g.opened ++ fds
      todo := (dues stores (fds.zip g.waiting)).flatMap Due.ops } := by
  have hnodup : ((fds.zip g.waiting).map Prod.fst).Nodup := by
    rw [List.map_fst_zip hoffers.length_le]
    exact hoffers.nodup
  have hhandle := handleEvents_access stores fun p => fileOf_of_mem hnodup (p := p)
  rw [read, hreported, List.nil_append, runEventLoopOnce, parseEvents_buffer]
  exact congrArg (fun todo => Except.ok (Group.mk _ _ _ todo _)) hhandle

/-! ### The group and the queue -/

/-- The group is where the queue is, but for the answers that are due. Between a response and the
close behind it, one more descriptor is open. -/
structure Tracks (g : Group) (q : AccessQueue) (due : List Due) : Prop where
  waiting : g.waiting = q.waiting
  answered : g.answered ++ due.map Due.answer = q.answered
  reported : g.reported = due.map Due.report
  todo : (g.todo = due.flatMap Due.ops ∧ g.opened = due.map Due.fd) ∨
    ∃ fd, g.todo = .close fd :: due.flatMap Due.ops ∧ g.opened = fd :: due.map Due.fd

namespace Tracks

variable {g g' : Group} {q : AccessQueue} {due : List Due}

/-- When the loop has nothing to do, every access that was reported has been answered, and every
descriptor is closed. -/
theorem of_idle (h : g.Tracks q due) (hidle : g.todo = []) : due = [] ∧ g.opened = [] := by
  rcases h.todo with ⟨htodo, hopened⟩ | ⟨fd, htodo, -⟩
  · cases due with
    | nil => exact ⟨rfl, hopened⟩
    | cons d due => exact absurd (htodo.symm.trans hidle) (List.cons_ne_nil _ _)
  · exact absurd (htodo.symm.trans hidle) (List.cons_ne_nil _ _)

theorem reported_of_idle (h : g.Tracks q due) (hidle : g.todo = []) : g.reported = [] := by
  rw [h.reported, (h.of_idle hidle).1, List.map_nil]

theorem of_read (h : g.Tracks q due) (hidle : g.todo = []) {fds : List Int32}
    (hoffers : g.Offers fds) {stores : ℕ → Stores} (hread : read stores fds g = .ok g') :
    g'.Tracks (q.act (.read stores fds)) (dues stores (fds.zip g.waiting)) := by
  obtain ⟨rfl, hopened⟩ := h.of_idle hidle
  have hanswered : g.answered = q.answered := by simpa using h.answered
  rw [read_eq (h.reported_of_idle hidle) hoffers, Except.ok.injEq] at hread
  have hreport := map_report_dues stores (fds.zip g.waiting)
  subst hread
  constructor
  · rw [AccessQueue.act, h.waiting]
  · rw [map_answer_dues, hoffers.map_snd_zip, AccessQueue.act, h.waiting, hanswered]
  · exact hreport.symm
  · refine Or.inl ⟨rfl, ?_⟩
    have hfst := congrArg (List.map Prod.fst) hreport
    rw [List.map_map, List.map_fst_zip hoffers.length_le] at hfst
    exact (congrArg (· ++ fds) hopened).trans hfst.symm

theorem of_carryOut (h : g.Tracks q due) {op : FdOp} {rest : List FdOp}
    (hop : g.todo = op :: rest) : ∃ due', (take { g with todo := rest } op).Tracks q due' := by
  rcases h.todo with ⟨htodo, hopened⟩ | ⟨fd, htodo, hopened⟩
  · cases due with
    | nil => exact absurd (hop.symm.trans htodo) (List.cons_ne_nil _ _)
    | cons d due =>
      obtain ⟨rfl, rfl⟩ := List.cons.inj (hop.symm.trans htodo)
      have hfind : g.reported.find? (fun p => p.1 = d.fd) = some (d.fd, d.access) := by
        rw [h.reported]
        exact List.find?_cons_of_pos (decide_eq_true rfl)
      have herase : g.reported.eraseP (fun p => p.1 = d.fd) = due.map Due.report := by
        rw [h.reported]
        exact List.eraseP_cons_of_pos (decide_eq_true rfl)
      refine ⟨due, ?_⟩
      simp only [take, hfind, herase]
      refine ⟨h.waiting, ?_, rfl, Or.inr ⟨d.fd, rfl, hopened⟩⟩
      rw [List.append_assoc]
      exact h.answered
  · obtain ⟨rfl, rfl⟩ := List.cons.inj (hop.symm.trans htodo)
    refine ⟨due, h.waiting, h.answered, h.reported, Or.inl ⟨rfl, ?_⟩⟩
    change g.opened.erase fd = _
    rw [hopened, List.erase_cons_head]

/-- **A step of the group is a step of the queue.** -/
theorem step (h : g.Tracks q due) {x : Act} (hstep : g.Step x g') :
    ∃ due', g'.Tracks (q.act x) due' := by
  cases hstep with
  | arrive access =>
    exact ⟨due, congrArg (· ++ [access]) h.waiting, h.answered, h.reported, h.todo⟩
  | read hidle hoffers hread => exact ⟨_, h.of_read hidle hoffers hread⟩
  | carryOut htodo => exact h.of_carryOut htodo

end Tracks

theorem exists_tracks {log : List Act} {g : Group} (h : Logged Step start log g) :
    ∃ due, g.Tracks (AccessQueue.after log) due := by
  induction h with
  | nil => exact ⟨[], rfl, rfl, rfl, Or.inl ⟨rfl, rfl⟩⟩
  | snoc _ hstep ih =>
    obtain ⟨due, htracks⟩ := ih
    rw [AccessQueue.after_snoc]
    exact htracks.step hstep

theorem exists_carriedOut (g : Group) {n : ℕ} (hn : n ≤ g.todo.length) :
    ∃ g', Logged Step g (List.replicate n .carryOut) g' ∧ g'.todo = g.todo.drop n := by
  induction n with
  | zero => exact ⟨g, .nil, rfl⟩
  | succ n ih =>
    obtain ⟨g', hrun, htodo⟩ := ih (Nat.le_of_succ_le hn)
    rw [List.drop_eq_getElem_cons hn] at htodo
    refine ⟨take { g' with todo := g.todo.drop (n + 1) } g.todo[n], ?_, todo_take _ _⟩
    rw [List.replicate_succ']
    exact hrun.snoc (.carryOut htodo)

/-- The loop can finish its turn, and has then given the answers that were due. -/
theorem Tracks.exists_finished {g : Group} {q : AccessQueue} {due : List Due}
    (h : g.Tracks q due) :
    ∃ g', Logged Step g (List.replicate g.todo.length .carryOut) g' ∧ g'.todo = [] ∧
      g'.answered = q.answered ∧ g'.reported = [] ∧ g'.opened = [] := by
  obtain ⟨g', hrun, htodo⟩ := g.exists_carriedOut le_rfl
  rw [List.drop_length] at htodo
  -- carrying out operations leaves the queue where it is
  have hkeep : ∀ g x g', (∃ due, Tracks g q due) → x = Act.carryOut → g.Step x g' →
      ∃ due, Tracks g' q due := by
    rintro g _ g' ⟨due, htracks⟩ rfl hstep
    exact htracks.step hstep
  obtain ⟨due', htracks⟩ := hrun.stays (fun x hx => List.eq_of_mem_replicate hx) ⟨due, h⟩ hkeep
  obtain ⟨rfl, hopened⟩ := htracks.of_idle htodo
  have hanswered : g'.answered ++ [] = q.answered := htracks.answered
  rw [List.append_nil] at hanswered
  exact ⟨g', hrun, htodo, hanswered, htracks.reported, hopened⟩

end Group

/-! ### Every access is answered in its turn -/

/-- **The event loop serves the accesses in their order.** Let processes access marked files while
the loop reads from the group and answers. At any time, the accesses that have been answered, then
those of the last read, then those that wait are the accesses that were made, in this order, and the
answers are those of the queue. The loop can finish its turn; then each access of the last read has
got its answer, and no descriptor is left open. And whenever the turn is finished the loop can read
again, whichever descriptors it is given. -/
theorem accesses_answered {log : List Act} {g : Group} (h : Logged Group.Step .start log g) :
    ∃ due : List (Access × UInt32),
      g.answered ++ due = (AccessQueue.after log).answered ∧
      g.reported.map Prod.snd = due.map Prod.fst ∧
      (g.answered ++ due).map Prod.fst ++ g.waiting = log.filterMap Act.access? ∧
      (∃ g', Logged Group.Step g (List.replicate g.todo.length .carryOut) g' ∧ g'.todo = [] ∧
        g'.answered = g.answered ++ due ∧ g'.reported = [] ∧ g'.opened = []) ∧
      (g.todo = [] → ∀ stores fds, g.Offers fds → ∃ g', g.Step (.read stores fds) g') := by
  obtain ⟨due, htracks⟩ := Group.exists_tracks h
  refine ⟨due.map Due.answer, htracks.answered, ?_, ?_, ?_, ?_⟩
  · rw [htracks.reported, List.map_map, List.map_map]
    rfl
  · rw [htracks.answered, htracks.waiting, AccessQueue.accesses_after]
  · rw [htracks.answered]
    exact htracks.exists_finished
  · intro hidle stores fds hoffers
    exact ⟨_, .read hidle hoffers (Group.read_eq (htracks.reported_of_idle hidle) hoffers stores)⟩

/-- Stores with one instance, of three bytes. -/
def smallStores : Stores where
  marks := (smallLookups .ok).marks
  get := (smallLookups .ok).get
  ensureRange _ offset len :=
    if offset + len ≤ 3 then .ok else .err (.badRequest "range exceeds blob size")

/-- An access to the first bytes of the instance. -/
def smallAccess (count : UInt64) : Access := ⟨smallInstance.target, 1, 0, count⟩

/-- Two accesses are read at once. One has been allowed, and the other one is going to be denied. -/
theorem accesses_answered_small : ∃ g g', Logged Group.Step .start
    [.arrive (smallAccess 3), .arrive (smallAccess 4096), .read (fun _ => smallStores) [5, 6],
      .carryOut] g ∧
    g.answered = [(smallAccess 3, fanAllow)] ∧ g.opened = [5, 6] ∧
    Logged Group.Step g (List.replicate 3 .carryOut) g' ∧
    g'.answered = [(smallAccess 3, fanAllow), (smallAccess 4096, fanDeny)] ∧ g'.opened = [] := by
  let g₂ : Group := { Group.start with waiting := [smallAccess 3, smallAccess 4096] }
  have hoffers : g₂.Offers [5, 6] := ⟨by decide, by decide, fun _ _ => List.not_mem_nil⟩
  have hlog : Logged Group.Step .start [.arrive (smallAccess 3), .arrive (smallAccess 4096)] g₂ :=
    (Logged.nil.snoc (.arrive _)).snoc (.arrive _)
  have hrun := (hlog.snoc (.read rfl hoffers
    (Group.read_eq rfl hoffers fun _ => smallStores))).snoc (.carryOut rfl)
  obtain ⟨due, hqueue, -, -, ⟨g', hfinish, -, hanswered, -, hopened⟩, -⟩ := accesses_answered hrun
  exact ⟨_, g', hrun, rfl, rfl, hfinish, hanswered.trans hqueue, hopened⟩

end Fanotify

end Lazyd
