import Lazyd.Fanotify.EventLoop
import Lazyd.Instance.Answered

/-!
# Accesses answered by the event loop

An access of a process arrives as an event with the offset and the length that the kernel wants to
read. The event loop passes both on to `ensure_range` as they are, and `ensure_range` refuses a
range that is not inside the blob. `prepare_fetch_range`, the other caller, cuts the range off at
the end of the blob first. So the two agree inside the blob, and at its end they do not: the last
page of a blob can be fetched, and an access to it is denied.

## Main definitions

* `Fanotify.Resolves` : the descriptor of an event leads to the instance of the file.
* `Fanotify.AllowedAndReady` : the access is allowed and finds its bytes.
* `Fanotify.accessEvent` : an access, as the kernel writes it.

## Main results

* `Fanotify.access_allowed_iff` : the accesses that are allowed and ready.
* `Fanotify.tail_page_denied` : the last page of a blob.

Source: `src/fanotify.rs`, lines 183–240 and 289–314; `src/instance.rs`, lines 229–305.
-/

namespace Lazyd

namespace Fanotify

open Instance LittleEndian

/-! ### The answer to one event -/

/-- The descriptor of the event leads to a registered instance that fills the file lazily. -/
structure Resolves (lookups : Lookups) (event : FanotifyEvent) (inst : Instance) : Prop where
  fstat : lookups.fstat event.fd = some inst.target
  get : ∃ instanceId, lookups.marks inst.target = some instanceId ∧
    lookups.get instanceId = some inst
  triggerMode : inst.config.triggerMode = .fanotify

/-- The event gets the answer of `ensure_range` on its instance. -/
theorem handleEvent_resolved {lookups : Lookups} {event : FanotifyEvent} {inst : Instance}
    (h : Resolves lookups event inst) :
    handleEvent lookups event =
      [.respond event.fd (if lookups.ensureRange inst event.range.offset event.range.len = .ok then
          fanAllow else fanDeny), .close event.fd] := by
  obtain ⟨instanceId, hmarks, hget⟩ := h.get
  simp only [handleEvent, instanceIdForFd, h.fstat, hmarks, hget, decide_eq_true_eq]

theorem getElem?_handleEvents (lookups : ℕ → Lookups) {events : List FanotifyEvent} {k : ℕ}
    {event : FanotifyEvent} (h : events[k]? = some event) :
    (handleEvents lookups events)[2 * k]? = (handleEvent (lookups k) event)[0]? := by
  induction events generalizing lookups k with
  | nil => simp at h
  | cons first events ih =>
    obtain ⟨response, -, hfirst⟩ := handleEvent_eq (lookups 0) first
    cases k with
    | zero =>
      obtain rfl : first = event := by simpa using h
      rw [handleEvents, hfirst]
      rfl
    | succ k =>
      have hk := ih (fun n => lookups (n + 1)) (by simpa using h)
      rw [handleEvents, hfirst, Nat.mul_succ]
      exact hk

/-! ### Accesses inside the blob and behind its end -/

/-- The `k`th event is allowed, and the part of its range inside the blob is ready. -/
def AllowedAndReady (inst : Instance) (s : Shared) (ops : List FdOp) (k : ℕ)
    (event : FanotifyEvent) : Prop :=
  ops[2 * k]? = some (.respond event.fd fanAllow) ∧
    inst.rangeMap.isRangeReady s.slots event.range.offset
      (min (event.range.offset + event.range.len) inst.blobSize - event.range.offset) = true

variable {τ : Type*} [DecidableEq τ] {inst : Instance} {blob : ℕ → UInt8}
  {c₀ c : TaskSystem.Config Shared TaskState τ} {ls : List (τ × Event)}

/-- **Which accesses are served.** Let the calls on an instance run in an environment that answers,
and let the event loop take up an access to the blob. Its call of `ensure_range` can always be
finished; and once it has returned, the event has been allowed with its bytes ready, then and in
every later state, if and only if its range does not end behind the blob. -/
theorem access_allowed_iff (hidle : ∀ t, c₀.task t = .idle) (hempty : c₀.shared.inflight = [])
    (hslots : c₀.shared.slots.length = inst.rangeMap.slotCount)
    (hrun : inst.tasks.Run (Answers blob) c₀ ls c) {t : τ} (ht : c.task t = .idle)
    {buf : List UInt8} {events : List FanotifyEvent} (hparse : parseEvents buf = .ok events)
    {k : ℕ} {event : FanotifyEvent} (hk : events[k]? = some event) (lookups : ℕ → Lookups)
    (hresolves : Resolves (lookups k) event inst) (hoffset : event.range.offset < inst.blobSize) :
    (∃ ls' c' out, inst.tasks.Run (Answers blob) c
      ((t, .call (.ensureRange event.range.offset event.range.len)) :: ls') c' ∧
        c'.task t = .returned (.ensureRange event.range.offset event.range.len) out) ∧
    ∀ ls' c' out, inst.tasks.Run (Answers blob) c ls' c' →
      c'.task t = .returned (.ensureRange event.range.offset event.range.len) out →
      (lookups k).ensureRange inst event.range.offset event.range.len = out →
      ∃ ops, runEventLoopOnce lookups buf = .ok ops ∧
        (AllowedAndReady inst c'.shared ops k event ↔
          event.range.offset + event.range.len ≤ inst.blobSize) := by
  constructor
  · have hstep : inst.step c.shared (c.task t)
        (.call (.ensureRange event.range.offset event.range.len)) = some (c.shared,
          inst.enter (.ensureRange event.range.offset event.range.len)) := by
      rw [ht]
      rfl
    have hfire := fire_of_step hstep
    have hexclusive : inst.Exclusive c := exclusive_run hidle hempty hrun
    obtain ⟨ls', c', out, hrun', hret⟩ := exists_run_returned blob (hexclusive.fire hfire)
      (Function.update_self _ _ _)
    refine ⟨ls', c', out, ?_, hret⟩
    exact (TaskSystem.Run.nil.snoc (by rw [ht]; trivial) hfire).append hrun'
  · intro ls' c' out hrun' hret hout
    obtain ⟨hinside, houtside⟩ := ensureRange_answered hidle hslots (hrun.append hrun') hret
    refine ⟨handleEvents lookups events, by rw [runEventLoopOnce, hparse]; rfl, ?_⟩
    rw [AllowedAndReady, getElem?_handleEvents lookups hk, handleEvent_resolved hresolves, hout]
    constructor
    · rintro ⟨hallowed, -⟩
      by_contra hbehind
      have hdenied : out ≠ .ok := houtside (by omega) (not_le.mp hbehind)
      rw [if_neg hdenied] at hallowed
      exact absurd (FdOp.respond.inj (Option.some.inj hallowed)).2 (by decide)
    · intro hle
      obtain ⟨rfl, hready⟩ := hinside hle
      refine ⟨by rw [if_pos rfl]; rfl, ?_⟩
      rwa [min_eq_left hle, Nat.add_sub_cancel_left]

/-! ### The last page of a blob -/

/-- The fields of a range record behind its header. -/
def rangeFields (offset count : UInt64) : List Field :=
  [⟨4, 0, by decide⟩, ⟨8, offset.toNat, offset.toNat_lt⟩, ⟨8, count.toNat, count.toNat_lt⟩]

theorem length_rangeFields (offset count : UInt64) :
    (encodeFields (rangeFields offset count)).length = 20 := length_encodeFields _

/-- A range record, as the kernel writes it. -/
def rangeRecord (offset count : UInt64) : InfoRecord where
  infoType := fanEventInfoTypeRange
  pad := 0
  body := encodeFields (rangeFields offset count)
  len_lt := by
    rw [length_rangeFields]
    decide

theorem len_rangeRecord (offset count : UInt64) : (rangeRecord offset count).len = infoRangeSize :=
  congrArg (infoHeaderSize + ·) (length_rangeFields offset count)

theorem range_rangeRecord (offset count : UInt64) : (rangeRecord offset count).range =
    ⟨offset.toNat, if count.toNat = 0 then defaultZeroCountWindow else count.toNat⟩ := by
  have hbody : (rangeRecord offset count).body =
      encodeFields (infoRangeFields 0 offset count) ++ [] := (List.append_nil _).symm
  exact InfoRecord.range_of_body hbody

/-- An access, as the kernel writes it. -/
def accessEvent (fd pid : Int32) (offset count : UInt64) : RawEvent where
  vers := 3
  reserved := 0
  mask := fanPreAccess
  fd := fd
  pid := pid
  infos := [rangeRecord offset count]
  eventLen_lt := by
    rw [List.map_singleton, List.sum_singleton, len_rangeRecord]
    decide

theorem access_accessEvent (fd pid : Int32) (offset count : UInt64) :
    (accessEvent fd pid offset count).access = some ⟨fd,
      ⟨offset.toNat, if count.toNat = 0 then defaultZeroCountWindow else count.toNat⟩⟩ := by
  have hmask : (accessEvent fd pid offset count).IsPermission := by
    change fanPreAccess &&& fanPreAccess ≠ 0
    decide
  have hfind : (accessEvent fd pid offset count).infos.find? (fun record => record.IsRange) =
      some (rangeRecord offset count) :=
    List.find?_cons_of_pos (decide_eq_true ⟨rfl, (len_rangeRecord offset count).ge⟩)
  rw [RawEvent.access, if_pos hmask, RawEvent.range, hfind, Option.map_some, Option.map_some,
    range_rangeRecord]
  rfl

theorem parseEvents_accessEvent (fd pid : Int32) (offset count : UInt64) :
    parseEvents (accessEvent fd pid offset count).encode = .ok [⟨fd,
      ⟨offset.toNat, if count.toNat = 0 then defaultZeroCountWindow else count.toNat⟩⟩] := by
  have hinfos : (accessEvent fd pid offset count).infos ≠ [] := List.cons_ne_nil _ _
  have hparse := parseEvents_encode [accessEvent fd pid offset count]
  rw [List.flatMap_singleton] at hparse
  rw [hparse, List.takeWhile_cons_of_pos (by simpa using hinfos), List.takeWhile_nil,
    List.filterMap_cons_some (access_accessEvent fd pid offset count), List.filterMap_nil]

/-- What the loop finds on an event for `smallInstance`, with the result of its `ensure_range`. -/
def smallLookups (out : Outcome) : Lookups where
  fstat _ := some smallInstance.target
  marks _ := some smallConfig.instanceId
  get _ := some smallInstance
  ensureRange _ _ _ := out

theorem resolves_smallLookups (out : Outcome) (event : FanotifyEvent) :
    Resolves (smallLookups out) event smallInstance := ⟨rfl, ⟨_, rfl, rfl⟩, rfl⟩

/-- An access to the three bytes of `smallInstance` is allowed. -/
theorem access_allowed_small : ∃ ls c out ops,
    smallInstance.tasks.Run (Answers fun _ => 7) smallStart ls c ∧
    c.task 0 = .returned (.ensureRange 0 3) out ∧
    runEventLoopOnce (fun _ => smallLookups out) (accessEvent 5 1 0 3).encode = .ok ops ∧
    AllowedAndReady smallInstance c.shared ops 0 ⟨5, ⟨0, 3⟩⟩ := by
  have hparse : parseEvents (accessEvent 5 1 0 3).encode = .ok [⟨5, ⟨0, 3⟩⟩] :=
    parseEvents_accessEvent 5 1 0 3
  have haccess (out : Outcome) := access_allowed_iff (fun _ => rfl) rfl rfl
    (.nil : smallInstance.tasks.Run (Answers fun _ => 7) smallStart [] smallStart)
    (rfl : smallStart.task 0 = .idle) hparse (k := 0) rfl (fun _ => smallLookups out)
    (resolves_smallLookups out ⟨5, ⟨0, 3⟩⟩) (by decide)
  obtain ⟨ls, c, out, hrun, hret⟩ := (haccess .ok).1
  obtain ⟨ops, hops, hiff⟩ := (haccess out).2 _ c out hrun hret rfl
  exact ⟨_, c, out, ops, hrun, hret, hops, hiff.mpr (by decide)⟩

/-- The last page of `smallInstance` is fetched by `prepare_fetch_range`, and an access to the same
page is denied afterwards. -/
theorem tail_page_denied : ∃ s : Shared,
    smallInstance.tasks.solo smallStart.shared .idle
      [.call (.prepareFetchRange 0 4096 4096), .check, .reserve, .recheck, .reply (.ok [7, 7, 7]),
        .wrote (.ok 3), .marked (.ok 1), .fill, .release, .clone (.ok ())] =
      some (s, .returned (.prepareFetchRange 0 4096 4096) .ok) ∧
    smallInstance.tasks.solo s .idle [.call (.ensureRange 0 4096), .check] = some (s,
      .returned (.ensureRange 0 4096) (.err (.badRequest "range exceeds blob size"))) ∧
    runEventLoopOnce (fun _ => smallLookups (.err (.badRequest "range exceeds blob size")))
      (accessEvent 5 1 0 4096).encode = .ok [.respond 5 fanDeny, .close 5] := by
  refine ⟨_, rfl, rfl, ?_⟩
  rw [runEventLoopOnce, parseEvents_accessEvent]
  rfl

end Fanotify

end Lazyd
