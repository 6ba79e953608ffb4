import Lazyd.Fanotify.Events
import Lazyd.Instance.EnsureRange

/-!
# The event loop

One iteration of `run_event_loop`: the events of one read are parsed and handled one after the
other. For each of them the instance is looked up, `ensure_range` is awaited on it, the answer is
written to the fanotify group and the descriptor of the event is closed. The lookups and the result
of `ensure_range` are parameters of the iteration, one of each for every event, since other tasks
may change the stores between two events.

A reading process is blocked until the permission event of its access is answered. An event that
`parse_events` does not return is never answered: a permission event without a range record, and
every event behind one without records.

## Main definitions

* `Fanotify.handleEvent`, `Fanotify.runEventLoopOnce` : an iteration of the loop.
* `Fanotify.AnswersEvery` : every permission event is answered and its descriptor closed.
* `Fanotify.Readable` : the sequences of events whose permission events are all returned.

## Main results

* `Fanotify.answersEvery_iff_readable` : these are the sequences that are fully answered.

Source: `src/fanotify.rs`, lines 162–256.
-/

namespace Lazyd

namespace Fanotify

/-! ### One iteration of the loop -/

/-- `FAN_ALLOW` -/
def fanAllow : UInt32 := 1

/-- `FAN_DENY` -/
def fanDeny : UInt32 := 2

/-- What the loop does with the descriptor of an event. -/
inductive FdOp where
  /-- the response written to the fanotify group -/
  | respond (fd : Int32) (response : UInt32)
  | close (fd : Int32)
  deriving DecidableEq, Repr

/-- What the loop finds while it handles an event. -/
structure Lookups where
  fstat : Int32 → Option FileKey
  /-- the table of marks of the backend -/
  marks : FileKey → Option String
  /-- `InstanceRegistry::get` -/
  get : String → Option Instance
  /-- how `ensure_range` ends -/
  ensureRange : Instance → ℕ → ℕ → Instance.Outcome

/-- `instance_id_for_fd` -/
def instanceIdForFd (lookups : Lookups) (fd : Int32) : Option String :=
  match lookups.fstat fd with
  | none => none
  | some key => lookups.marks key

/-- The body of the loop over the events. -/
def handleEvent (lookups : Lookups) (event : FanotifyEvent) : List FdOp :=
  match instanceIdForFd lookups event.fd with
  | none => [.respond event.fd fanDeny, .close event.fd]
  | some instanceId =>
    let allowed : Bool :=
      match lookups.get instanceId with
      | none => false
      | some inst => lookups.ensureRange inst event.range.offset event.range.len = .ok
    let response := if allowed then fanAllow else fanDeny
    [.respond event.fd response, .close event.fd]

/-- The loop over the events. -/
def handleEvents : (ℕ → Lookups) → List FanotifyEvent → List FdOp
  | _, [] => []
  | lookups, event :: events =>
    handleEvent (lookups 0) event ++ handleEvents (fun n => lookups (n + 1)) events

/-- One iteration of `run_event_loop` after a read that returned `buf`. -/
def runEventLoopOnce (lookups : ℕ → Lookups) (buf : List UInt8) : Except Panic (List FdOp) := do
  let events ← parseEvents buf
  return handleEvents lookups events

/-! ### Answering every permission event -/

/-- A response to the event with the given descriptor. -/
def FdOp.isResponse (fd : Int32) : FdOp → Bool
  | .respond fd' _ => fd' == fd
  | .close _ => false

/-- The number of permission events with the given descriptor. -/
def permissionCount (events : List RawEvent) (fd : Int32) : ℕ :=
  events.countP fun event => event.IsPermission ∧ event.fd = fd

/-- Every permission event with a descriptor is answered once, with `FAN_ALLOW` or `FAN_DENY`, and
its descriptor is closed once. -/
structure AnswersEvery (events : List RawEvent) (ops : List FdOp) : Prop where
  answered : ∀ fd : Int32, 0 ≤ fd → ops.countP (FdOp.isResponse fd) = permissionCount events fd
  closed : ∀ fd : Int32, 0 ≤ fd → ops.count (.close fd) = permissionCount events fd
  response : ∀ fd response, .respond fd response ∈ ops → response = fanAllow ∨ response = fanDeny

/-- Every permission event with a descriptor has a range record, and every event before it has some
record. -/
def Readable (events : List RawEvent) : Prop :=
  ∀ before event after, events = before ++ event :: after → event.IsPermission → 0 ≤ event.fd →
    event.HasRange ∧ ∀ earlier ∈ before, earlier.infos ≠ []

theorem handleEvent_eq (lookups : Lookups) (event : FanotifyEvent) :
    ∃ response, (response = fanAllow ∨ response = fanDeny) ∧
      handleEvent lookups event = [.respond event.fd response, .close event.fd] := by
  rw [handleEvent]
  split
  · exact ⟨fanDeny, Or.inr rfl, rfl⟩
  · refine ⟨_, ?_, rfl⟩
    split_ifs
    · exact Or.inl rfl
    · exact Or.inr rfl

/-- The loop answers the events it is given, each once. -/
theorem handleEvents_counts (lookups : ℕ → Lookups) (events : List FanotifyEvent) (fd : Int32) :
    (handleEvents lookups events).countP (FdOp.isResponse fd) =
        (events.map FanotifyEvent.fd).count fd ∧
      (handleEvents lookups events).count (.close fd) = (events.map FanotifyEvent.fd).count fd := by
  induction events generalizing lookups with
  | nil => exact ⟨rfl, rfl⟩
  | cons event events ih =>
    obtain ⟨response, -, hevent⟩ := handleEvent_eq (lookups 0) event
    obtain ⟨hresponse, hclose⟩ := ih fun n => lookups (n + 1)
    have hone : [FdOp.respond event.fd response, .close event.fd].countP (FdOp.isResponse fd) =
        (if event.fd == fd then 1 else 0) ∧
        [FdOp.respond event.fd response, .close event.fd].count (.close fd) =
          if event.fd == fd then 1 else 0 := by
      by_cases hfd : event.fd = fd <;>
        simp [FdOp.isResponse, hfd]
    rw [handleEvents, hevent, List.map_cons, List.count_cons, List.countP_append, List.count_append,
      hone.1, hone.2, hresponse, hclose, Nat.add_comm]
    exact ⟨rfl, rfl⟩

theorem handleEvents_response (lookups : ℕ → Lookups) (events : List FanotifyEvent) :
    ∀ fd response, .respond fd response ∈ handleEvents lookups events →
      response = fanAllow ∨ response = fanDeny := by
  induction events generalizing lookups with
  | nil => simp [handleEvents]
  | cons event events ih =>
    intro fd response hmem
    obtain ⟨response', hresponse', hevent⟩ := handleEvent_eq (lookups 0) event
    rw [handleEvents, hevent] at hmem
    rcases List.mem_append.mp hmem with hmem | hmem
    · simp only [List.mem_cons, FdOp.respond.injEq, reduceCtorEq, List.not_mem_nil,
        or_false] at hmem
      rw [hmem.2]
      exact hresponse'
    · exact ih _ fd response hmem

/-! ### Which events are answered -/

/-- The descriptors that the loop answers. -/
def answeredFds (events : List RawEvent) : List Int32 :=
  ((events.takeWhile fun event => event.infos ≠ []).filterMap RawEvent.access).map FanotifyEvent.fd

variable {event : RawEvent} {events : List RawEvent}

theorem access_fd : event.access.map FanotifyEvent.fd =
    if event.IsPermission ∧ event.HasRange then some event.fd else none := by
  rw [RawEvent.access, RawEvent.range]
  by_cases hmask : event.IsPermission
  · rw [if_pos hmask]
    cases hfind : event.infos.find? fun record => record.IsRange with
    | none =>
      have hnone : ¬event.HasRange := by
        simpa [RawEvent.HasRange] using hfind
      rw [if_neg fun h => hnone h.2]
      rfl
    | some record =>
      have hrange : record.IsRange := by
        simpa using List.find?_some hfind
      rw [if_pos ⟨hmask, record, List.mem_of_find?_eq_some hfind, hrange⟩]
      rfl
  · rw [if_neg hmask, if_neg fun h => hmask h.1]
    rfl

theorem answeredFds_of_nil (h : event.infos = []) : answeredFds (event :: events) = [] := by
  rw [answeredFds, List.takeWhile_cons_of_neg (by simpa using h)]
  rfl

theorem count_answeredFds_of_ne_nil (h : event.infos ≠ []) (fd : Int32) :
    (answeredFds (event :: events)).count fd = (answeredFds events).count fd +
      if event.IsPermission ∧ event.HasRange ∧ event.fd = fd then 1 else 0 := by
  have hcons : answeredFds (event :: events) = (event.access.map FanotifyEvent.fd).toList ++
      answeredFds events := by
    rw [answeredFds, List.takeWhile_cons_of_pos (by simpa using h)]
    cases haccess : event.access with
    | none =>
      rw [List.filterMap_cons_none haccess]
      rfl
    | some access =>
      rw [List.filterMap_cons_some haccess]
      rfl
  rw [hcons, access_fd, List.count_append, Nat.add_comm]
  by_cases hrange : event.IsPermission ∧ event.HasRange
  · simp [hrange, List.count_singleton]
  · rw [if_neg hrange, if_neg fun h => hrange ⟨h.1, h.2.1⟩]
    rfl

theorem permissionCount_cons (fd : Int32) : permissionCount (event :: events) fd =
    permissionCount events fd + if event.IsPermission ∧ event.fd = fd then 1 else 0 := by
  rw [permissionCount, List.countP_cons, permissionCount]
  simp only [decide_eq_true_eq]

theorem permissionCount_eq_zero_iff {fd : Int32} :
    permissionCount events fd = 0 ↔ ∀ event ∈ events, event.IsPermission → event.fd ≠ fd := by
  simp [permissionCount, List.countP_eq_zero]

theorem count_answeredFds_le (events : List RawEvent) (fd : Int32) :
    (answeredFds events).count fd ≤ permissionCount events fd := by
  induction events with
  | nil => exact le_rfl
  | cons event events ih =>
    by_cases hinfos : event.infos = []
    · rw [answeredFds_of_nil hinfos]
      exact Nat.zero_le _
    · rw [count_answeredFds_of_ne_nil hinfos, permissionCount_cons]
      refine Nat.add_le_add ih ?_
      split_ifs with hanswered hcounted
      · exact le_rfl
      · exact absurd ⟨hanswered.1, hanswered.2.2⟩ hcounted
      · exact Nat.zero_le _
      · exact le_rfl

theorem readable_cons : Readable (event :: events) ↔
    (event.IsPermission → 0 ≤ event.fd → event.HasRange) ∧
      (event.infos = [] → ∀ later ∈ events, later.IsPermission → ¬0 ≤ later.fd) ∧
        Readable events := by
  constructor
  · intro h
    refine ⟨fun hmask hfd => (h [] event events rfl hmask hfd).1, ?_, ?_⟩
    · intro hinfos later hlater hmask hfd
      obtain ⟨before, after, rfl⟩ := List.append_of_mem hlater
      exact (h (event :: before) later after rfl hmask hfd).2 event List.mem_cons_self hinfos
    · rintro before later after rfl hmask hfd
      obtain ⟨hrange, hbefore⟩ := h (event :: before) later after rfl hmask hfd
      exact ⟨hrange, fun earlier hmem => hbefore earlier (List.mem_cons_of_mem _ hmem)⟩
  · rintro ⟨hevent, hstop, hrest⟩ before later after heq hmask hfd
    cases before with
    | nil =>
      obtain ⟨rfl, -⟩ := List.cons.inj heq
      exact ⟨hevent hmask hfd, by simp⟩
    | cons first before =>
      obtain ⟨rfl, rfl⟩ := List.cons.inj heq
      obtain ⟨hrange, hbefore⟩ := hrest before later after rfl hmask hfd
      have hfirst : event.infos ≠ [] := fun hinfos =>
        hstop hinfos later (List.mem_append_right _ List.mem_cons_self) hmask hfd
      exact ⟨hrange, List.forall_mem_cons.mpr ⟨hfirst, hbefore⟩⟩

/-- Behind an event without records nothing is answered. -/
theorem count_eq_iff_of_nil (h : event.infos = []) :
    (∀ fd : Int32, 0 ≤ fd →
        (answeredFds (event :: events)).count fd = permissionCount (event :: events) fd) ↔
      ∀ later ∈ event :: events, later.IsPermission → ¬0 ≤ later.fd := by
  rw [answeredFds_of_nil h]
  constructor
  · intro hcount later hlater hmask hfd
    exact permissionCount_eq_zero_iff.mp (hcount later.fd hfd).symm later hlater hmask rfl
  · intro hnone fd hfd
    refine (permissionCount_eq_zero_iff.mpr ?_).symm
    rintro later hlater hmask rfl
    exact hnone later hlater hmask hfd

/-- Both counts grow by at most one with an event that has records, and the answers never overtake
the events. -/
theorem count_eq_iff_of_ne_nil (h : event.infos ≠ []) (fd : Int32) :
    (answeredFds (event :: events)).count fd = permissionCount (event :: events) fd ↔
      (event.IsPermission → event.fd = fd → event.HasRange) ∧
        (answeredFds events).count fd = permissionCount events fd := by
  have hle := count_answeredFds_le events fd
  rw [count_answeredFds_of_ne_nil h, permissionCount_cons]
  by_cases hcounted : event.IsPermission ∧ event.fd = fd
  · rw [if_pos hcounted]
    by_cases hrange : event.HasRange
    · rw [if_pos ⟨hcounted.1, hrange, hcounted.2⟩, Nat.add_right_cancel_iff]
      exact (and_iff_right fun _ _ => hrange).symm
    · rw [if_neg fun h => hrange h.2.1]
      refine iff_of_false ?_ fun h => hrange (h.1 hcounted.1 hcounted.2)
      omega
  · rw [if_neg hcounted, if_neg fun h => hcounted ⟨h.1, h.2.2⟩]
    exact (and_iff_right fun hmask hfd => absurd ⟨hmask, hfd⟩ hcounted).symm

theorem count_answeredFds_eq_iff (events : List RawEvent) :
    (∀ fd : Int32, 0 ≤ fd → (answeredFds events).count fd = permissionCount events fd) ↔
      Readable events := by
  induction events with
  | nil =>
    refine iff_of_true (fun _ _ => rfl) ?_
    intro before event after heq
    simp at heq
  | cons event events ih =>
    rw [readable_cons]
    by_cases hinfos : event.infos = []
    · have hrange : ¬event.HasRange := by
        simp [RawEvent.HasRange, hinfos]
      rw [count_eq_iff_of_nil hinfos, List.forall_mem_cons, ← ih]
      constructor
      · rintro ⟨hevent, hlater⟩
        refine ⟨fun hmask hfd => absurd hfd (hevent hmask), fun _ => hlater, fun fd hfd => ?_⟩
        have hzero : permissionCount events fd = 0 :=
          permissionCount_eq_zero_iff.mpr fun later hmem hmask heq =>
            hlater later hmem hmask (heq ▸ hfd)
        have hle := count_answeredFds_le events fd
        omega
      · rintro ⟨hevent, hlater, -⟩
        exact ⟨fun hmask hfd => hrange (hevent hmask hfd), hlater hinfos⟩
    · simp only [count_eq_iff_of_ne_nil hinfos]
      constructor
      · intro h
        exact ⟨fun hmask hfd => (h _ hfd).1 hmask rfl, fun hnil => absurd hnil hinfos,
          ih.mp fun fd hfd => (h fd hfd).2⟩
      · rintro ⟨hevent, -, hrest⟩ fd hfd
        refine ⟨?_, ih.mpr hrest fd hfd⟩
        rintro hmask rfl
        exact hevent hmask hfd

/-- **No permission event is lost exactly when all are readable.** An iteration over the events of
the kernel answers every permission event that carries a descriptor, and closes this, if and only
if each of them has a range record and stands behind no event without records. -/
theorem answersEvery_iff_readable (lookups : ℕ → Lookups) (events : List RawEvent) :
    ∃ ops, runEventLoopOnce lookups (events.flatMap RawEvent.encode) = .ok ops ∧
      (AnswersEvery events ops ↔ Readable events) := by
  refine ⟨_, by rw [runEventLoopOnce, parseEvents_encode]; rfl, ?_⟩
  rw [← count_answeredFds_eq_iff]
  constructor
  · intro h fd hfd
    rw [← h.closed fd hfd]
    exact (handleEvents_counts lookups _ fd).2.symm
  · intro h
    refine ⟨fun fd hfd => ?_, fun fd hfd => ?_, handleEvents_response lookups _⟩
    · exact (handleEvents_counts lookups _ fd).1.trans (h fd hfd)
    · exact (handleEvents_counts lookups _ fd).2.trans (h fd hfd)

/-- A queue overflow, which has no descriptor and no records, before an access. -/
def overflowThenAccess : List RawEvent :=
  [{ vers := 3, reserved := 0, mask := 0x4000, fd := -1, pid := 0, infos := [],
     eventLen_lt := by decide },
   { vers := 3, reserved := 0, mask := fanPreAccess, fd := 5, pid := 1,
     infos := [{ infoType := fanEventInfoTypeRange, pad := 0, body := List.replicate 20 0,
                 len_lt := by decide }],
     eventLen_lt := by decide }]

/-- The access behind the queue overflow is not answered. -/
theorem overflow_loses_access :
    runEventLoopOnce (fun _ => ⟨fun _ => none, fun _ => none, fun _ => none, fun _ _ _ => .ok⟩)
        (overflowThenAccess.flatMap RawEvent.encode) = .ok [] ∧
      ¬AnswersEvery overflowThenAccess [] := by
  constructor
  · rw [runEventLoopOnce, parseEvents_encode]
    rfl
  · intro h
    have hcount := h.answered 5 (by decide)
    revert hcount
    decide

end Fanotify

end Lazyd
