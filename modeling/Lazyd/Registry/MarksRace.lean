import Lazyd.Registry.CompleteCalls

/-!
# The marks of one instance under concurrent calls

`register` sets the mark of the target and its entry in the table under the write lock of the
registry, `unregister` removes them after it has released the lock. If no other call comes between,
then the target is marked exactly while the instance is registered. This module says what must not
come between, for any number of calls for one id with one configuration, none of which meets a
fault.

## Main definitions

* `Daemon.Faultless` : the calls are for the one id, and no system call fails.
* `Daemon.Orderly` : no removal of a mark or an entry that a later registration has set.
* `Daemon.Agrees` : the inductive invariant.

## Main results

* `Daemon.agrees_step`, `Daemon.agrees_calls` : the invariant.
* `Daemon.marks_agree` : the main theorem.
* `Daemon.late_unmark` : a registered instance without a mark.

Source: `src/instance.rs`, lines 124–169; `src/fanotify.rs`, lines 106–155.
-/

namespace Lazyd

namespace Daemon

/-! ### Where the calls stand -/

/-- `register` has set the mark in the kernel, and has not inserted the instance yet. -/
def CallState.hasMarked : CallState → Bool
  | .statting _ _ | .tabling _ _ | .inserting _ _ => true
  | _ => false

/-- `register` has made the entry in the table, and has not inserted the instance yet. -/
def CallState.hasEntered : CallState → Bool
  | .inserting _ _ => true
  | _ => false

/-- `unregister` still has to remove the mark in the kernel. -/
def CallState.unmarks : CallState → Bool
  | .unstatting _ | .unmarking _ => true
  | _ => false

/-- The data that a call works with are those of the one instance. -/
def CallState.Serves (id : String) (config : InstanceConfig) : CallState → Prop
  | .idle | .returned _ => True
  | .called (.register id' config') => id' = id ∧ config' = config
  | .called (.unregister id') => id' = id
  | .opening id' config' => id' = id ∧ config' = config
  | .marking id' live | .statting id' live | .tabling id' live | .inserting id' live =>
    id' = id ∧ live.inst.config = config
  | .unstatting live | .unmarking live | .untabling live => live.inst.config = config
  | _ => False

variable {τ : Type*}

/-- Some call stands at a place of the given kind. -/
def Somewhere (c : CallConfig τ) (place : CallState → Bool) : Prop := ∃ t, place (c.task t) = true

/-- No call is in progress. -/
def Quiet (c : CallConfig τ) : Prop :=
  ∀ t, c.task t = .idle ∨ ∃ res, c.task t = .returned res

/-! ### The marks and the registry -/

/-- The mark of the file in the kernel. -/
def Marked (d : Daemon) (key : FileKey) : Prop :=
  ∃ backend, d.fanotify = some backend ∧ backend.marked key = true

/-- The file is entered in the table for the id. -/
def Entered (d : Daemon) (key : FileKey) (id : String) : Prop :=
  ∃ backend, d.fanotify = some backend ∧ backend.marks key = some id

/-- The id is registered. -/
def Registered (d : Daemon) (id : String) : Prop := d.instances id ≠ none

/-- The calls are `register` and `unregister` of the one id, with the one configuration, and
`fanotify_mark` and `metadata` do not fail. -/
def Faultless (id : String) (config : InstanceConfig) : Event → Prop
  | .call call => call = .register id config ∨ call = .unregister id
  | .mark fault => fault = none
  | .stat fault => fault = none
  | _ => True

/-- What `unregister` must not meet: before it removes the mark, a registration of the id that has
set its mark, and before it removes the entry, one that has made its entry. -/
def KeepsNew (d : Daemon) (id : String) (some : (CallState → Bool) → Prop) : CallState → Prop
  | .unmarking _ => ¬Registered d id ∧ ¬some CallState.hasMarked
  | .untabling _ => ¬Registered d id ∧ ¬some CallState.hasEntered
  | _ => True

/-- No mark and no entry is removed that a registration has set after the removal of the
instance. -/
def Orderly (id : String) (config : InstanceConfig) (c : CallConfig τ) (t : τ) (e : Event) : Prop :=
  Faultless id config e ∧ KeepsNew c.shared.daemon id (Somewhere c) (c.task t)

/-- The marks, accounted for by the registry and the places where calls stand. -/
structure Accounts (d : Daemon) (key : FileKey) (id path : String)
    (some : (CallState → Bool) → Prop) : Prop where
  path : Registered d id ∨ some CallState.hasMarked ∨ some CallState.unmarks →
    '\x00' ∉ path.toList
  marked : Registered d id ∨ some CallState.hasMarked → Marked d key
  entered : Registered d id ∨ some CallState.hasEntered → Entered d key id
  unmarked : Marked d key → Registered d id ∨ some CallState.hasMarked ∨ some CallState.unmarks
  unentered : Entered d key id → Registered d id ∨ some CallState.hasEntered ∨
    some CallState.removing

/-- The inductive invariant. -/
structure Agrees (ino : String → FileKey) (id : String) (config : InstanceConfig)
    (c : CallConfig τ) : Prop where
  locked : Locked c
  backend : c.shared.daemon.fanotify ≠ none
  serves : ∀ t, (c.task t).Serves id { config with instanceId := id }
  configs : ∀ live, c.shared.daemon.instances id = some live →
    live.inst.config = { config with instanceId := id }
  accounts : Accounts c.shared.daemon (ino config.targetPath) id config.targetPath (Somewhere c)

/-! ### What a step does to the marks -/

section Updates

variable {d : Daemon} {key : FileKey} {id : String}

theorem marked_markKernel (on : Bool) (hbackend : d.fanotify ≠ none) :
    Marked (d.mapBackend (markKernel key on)) key ↔ on = true := by
  obtain ⟨backend, hsome⟩ := Option.ne_none_iff_exists'.mp hbackend
  simp [Marked, mapBackend, hsome]

theorem entered_markKernel (on : Bool) :
    Entered (d.mapBackend (markKernel key on)) key id ↔ Entered d key id := by
  simp [Entered, mapBackend]

theorem marked_setEntry (entry : Option String) :
    Marked (d.mapBackend (setEntry key entry)) key ↔ Marked d key := by
  simp [Marked, mapBackend]

theorem entered_setEntry (entry : Option String) (hbackend : d.fanotify ≠ none) :
    Entered (d.mapBackend (setEntry key entry)) key id ↔ entry = some id := by
  obtain ⟨backend, hsome⟩ := Option.ne_none_iff_exists'.mp hbackend
  simp [Entered, mapBackend, hsome]

theorem fanotifyMark_none (path : String) :
    fanotifyMark path none = .ok () ↔ '\x00' ∉ path.toList := by
  rw [fanotifyMark, FanotifyBackend.cString]
  split_ifs with h
  · simp [h]
  · simp [h]

end Updates

/-! ### The invariant -/

variable {codec : HeaderCodec} {ino : String → FileKey} {id : String} {config : InstanceConfig}

/-- What the places where calls stand amount to, for a step of one call at `l` and with `others`
for the calls that stand still. -/
def withOthers (others : (CallState → Bool) → Prop) (l : CallState) (place : CallState → Bool) :
    Prop :=
  place l = true ∨ others place

/-- **The marks after a step.** The lock keeps other registrations away from the removal of the
instance, and the order that `Orderly` asks for keeps them away from the removal of its marks. -/
theorem accounts_effect {s s' : Shared} {l l' : CallState} {e : Event}
    {others : (CallState → Bool) → Prop} (h : Effect codec ino s l e s' l')
    (hmode : config.triggerMode = .fanotify) (hbackend : s.daemon.fanotify ≠ none)
    (hserves : l.Serves id { config with instanceId := id })
    (hconfig : ∀ live, s.daemon.instances id = some live →
      live.inst.config = { config with instanceId := id })
    (hfaultless : Faultless id config e)
    (hlock : s.locked = false → ¬others CallState.hasMarked ∧ ¬others CallState.hasEntered)
    (horder : KeepsNew s.daemon id others l)
    (hacc : Accounts s.daemon (ino config.targetPath) id config.targetPath (withOthers others l)) :
    Accounts s'.daemon (ino config.targetPath) id config.targetPath (withOthers others l') := by
  cases h with
  | refused | lock | notOpened | absent | notMarked | statted | unstatted =>
    exact ⟨hacc.path, hacc.marked, hacc.entered, hacc.unmarked, hacc.unentered⟩
  | call call =>
    rcases hfaultless with rfl | rfl
    · rw [enterCall]
      split <;> exact ⟨hacc.path, hacc.marked, hacc.entered, hacc.unmarked, hacc.unentered⟩
    · exact ⟨hacc.path, hacc.marked, hacc.entered, hacc.unmarked, hacc.unentered⟩
  | notStatted | notUnstatted => exact absurd hfaultless (by simp [Faultless])
  | unknown | resolved | gone | got | stepped | finished => exact hserves.elim
  | opened id' _ _ _ live _ hopen =>
    obtain ⟨rfl, rfl⟩ := hserves
    have hafter : afterOpening s.daemon id' live = .marking id' live := by
      obtain ⟨backend, hsome⟩ := Option.ne_none_iff_exists'.mp hbackend
      simp only [afterOpening, (openInstance_target hopen).1, hmode, hsome]
    rw [hafter]
    exact ⟨hacc.path, hacc.marked, hacc.entered, hacc.unmarked, hacc.unentered⟩
  | marked id' live fault hmark =>
    obtain ⟨rfl, hlive⟩ := hserves
    obtain rfl : fault = none := hfaultless
    have hpath := (fanotifyMark_none _).mp hmark
    rw [hlive] at hpath ⊢
    refine ⟨fun _ => hpath, fun _ => (marked_markKernel true hbackend).mpr rfl, fun h => ?_,
      fun _ => Or.inr (Or.inl (Or.inl rfl)), fun h => ?_⟩
    · exact (entered_markKernel true).mpr (hacc.entered h)
    · exact hacc.unentered ((entered_markKernel true).mp h)
  | tabled id' live =>
    obtain ⟨rfl, hlive⟩ := hserves
    rw [hlive]
    refine ⟨hacc.path, fun h => ?_, fun _ => (entered_setEntry _ hbackend).mpr rfl, fun h => ?_,
      fun _ => Or.inr (Or.inl (Or.inl rfl))⟩
    · exact (marked_setEntry _).mpr (hacc.marked h)
    · exact hacc.unmarked ((marked_setEntry _).mp h)
  | inserted id' live =>
    obtain ⟨rfl, -⟩ := hserves
    have hreg : Registered ((s.setInstance id' (some live)).addArc id' live).unlock.daemon id' := by
      simp [Registered]
    exact ⟨fun _ => hacc.path (Or.inr (Or.inl (Or.inl rfl))),
      fun _ => hacc.marked (Or.inr (Or.inl rfl)), fun _ => hacc.entered (Or.inr (Or.inl rfl)),
      fun _ => Or.inl hreg, fun _ => Or.inl hreg⟩
  | removed id' live hlocked hlive =>
    obtain rfl : id' = id := hserves
    have hreg : Registered s.daemon id' := by simp [Registered, hlive]
    have hno : ¬Registered (s.setInstance id' none).daemon id' := by simp [Registered]
    have hafter : afterRemoving s.daemon live = .unstatting live := by
      obtain ⟨backend, hsome⟩ := Option.ne_none_iff_exists'.mp hbackend
      simp only [afterRemoving, hconfig live hlive, hmode, hsome]
    rw [hafter]
    -- nobody else holds the lock, so no registration is under way
    refine ⟨fun _ => hacc.path (Or.inl hreg), fun h => ?_, fun h => ?_,
      fun _ => Or.inr (Or.inr (Or.inl rfl)), fun _ => Or.inr (Or.inr (Or.inl rfl))⟩
    · rcases h with h | h | h
      · exact absurd h hno
      · exact absurd h (by simp [CallState.hasMarked])
      · exact absurd h (hlock hlocked).1
    · rcases h with h | h | h
      · exact absurd h hno
      · exact absurd h (by simp [CallState.hasEntered])
      · exact absurd h (hlock hlocked).2
  | notUnmarked live fault err hmark =>
    have hlive : live.inst.config = _ := hserves
    obtain rfl : fault = none := hfaultless
    have hpath := hacc.path (Or.inr (Or.inr (Or.inl rfl)))
    rw [hlive, (fanotifyMark_none _).mpr hpath] at hmark
    exact absurd hmark (by simp)
  | unmarked live fault hmark =>
    have hlive : live.inst.config = _ := hserves
    have hpath := hacc.path (Or.inr (Or.inr (Or.inl rfl)))
    rw [hlive]
    refine ⟨fun _ => hpath, fun h => ?_, fun h => ?_, fun h => ?_, fun h => ?_⟩
    · rcases h with h | h | h
      · exact absurd h horder.1
      · exact absurd h (by simp [CallState.hasMarked])
      · exact absurd h horder.2
    · exact (entered_markKernel false).mpr (hacc.entered h)
    · exact absurd ((marked_markKernel false hbackend).mp h) (by simp)
    · exact hacc.unentered ((entered_markKernel false).mp h)
  | untabled live =>
    have hlive : live.inst.config = _ := hserves
    rw [hlive]
    refine ⟨hacc.path, fun h => ?_, fun h => ?_, fun h => ?_, fun h => ?_⟩
    · exact (marked_setEntry none).mpr (hacc.marked h)
    · rcases h with h | h | h
      · exact absurd h horder.1
      · exact absurd h (by simp [CallState.hasEntered])
      · exact absurd h horder.2
    · exact hacc.unmarked ((marked_setEntry none).mp h)
    · exact absurd ((entered_setEntry none hbackend).mp h) (by simp)

theorem serves_effect {s s' : Shared} {l l' : CallState} {e : Event}
    (h : Effect codec ino s l e s' l') (hserves : l.Serves id { config with instanceId := id })
    (hconfig : ∀ live, s.daemon.instances id = some live →
      live.inst.config = { config with instanceId := id })
    (hfaultless : Faultless id config e) : l'.Serves id { config with instanceId := id } := by
  cases h with
  | refused | notOpened | absent | notMarked | inserted | notStatted | notUnstatted | notUnmarked
  | untabled => trivial
  | lock | statted | unstatted | tabled | marked | unmarked => exact hserves
  | unknown | resolved | gone | got | stepped | finished => exact hserves.elim
  | call call =>
    rcases hfaultless with rfl | rfl
    · rw [enterCall]
      split
      · trivial
      · exact ⟨rfl, rfl⟩
    · exact rfl
  | opened id' config' _ _ live _ hopen =>
    obtain ⟨rfl, rfl⟩ := hserves
    have hlive := (openInstance_target hopen).1
    rw [afterOpening]
    split <;> exact ⟨rfl, hlive⟩
  | removed id' live _ hlive =>
    obtain rfl : id' = id := hserves
    rw [afterRemoving]
    split
    · exact hconfig live hlive
    · trivial

variable [DecidableEq τ] {c c' : CallConfig τ}

theorem somewhere_iff (c : CallConfig τ) (t : τ) (place : CallState → Bool) :
    Somewhere c place ↔
      withOthers (fun place => ∃ u, u ≠ t ∧ place (c.task u) = true) (c.task t) place := by
  constructor
  · rintro ⟨u, hu⟩
    by_cases hut : u = t
    · exact Or.inl (hut ▸ hu)
    · exact Or.inr ⟨u, hut, hu⟩
  · rintro (ht | ⟨u, -, hu⟩)
    · exact ⟨t, ht⟩
    · exact ⟨u, hu⟩

theorem keepsNew_mono {d : Daemon} {some some' : (CallState → Bool) → Prop} {l : CallState}
    (hsome : ∀ place, some' place → some place) (h : KeepsNew d id some l) :
    KeepsNew d id some' l := by
  cases l with
  | unmarking | untabling => exact ⟨h.1, fun hplace => h.2 (hsome _ hplace)⟩
  | _ => trivial

omit [DecidableEq τ] in
theorem agrees_start (files : Files) : Agrees ino id config (startCalls τ files (some .new)) := by
  have hnowhere {place : CallState → Bool} (hidle : place .idle = false) :
      ¬Somewhere (startCalls τ files (some .new)) place := by
    rintro ⟨_, ht⟩
    exact absurd (hidle.symm.trans ht) Bool.false_ne_true
  refine ⟨locked_start files _, Option.some_ne_none _, fun _ => trivial,
    fun _ hlive => absurd hlive (by simp [startCalls, start]), ?_, ?_, ?_, ?_, ?_⟩
  · rintro (h | h | h)
    · exact absurd rfl h
    · exact absurd h (hnowhere rfl)
    · exact absurd h (hnowhere rfl)
  · rintro (h | h)
    · exact absurd rfl h
    · exact absurd h (hnowhere rfl)
  · rintro (h | h)
    · exact absurd rfl h
    · exact absurd h (hnowhere rfl)
  · rintro ⟨backend, hbackend, hmarked⟩
    obtain rfl := Option.some.inj hbackend
    exact absurd hmarked Bool.false_ne_true
  · rintro ⟨backend, hbackend, hmarks⟩
    obtain rfl := Option.some.inj hbackend
    exact absurd hmarks (by simp [FanotifyBackend.new])

theorem holds_of_hasMarked {l : CallState} (h : l.hasMarked = true) : l.holds ≠ none := by
  cases l <;> simp_all [CallState.hasMarked, CallState.holds]

theorem holds_of_hasEntered {l : CallState} (h : l.hasEntered = true) : l.holds ≠ none := by
  cases l <;> simp_all [CallState.hasEntered, CallState.holds]

theorem Effect.fanotify_ne_none {s s' : Shared} {l l' : CallState} {e : Event}
    (h : Effect codec ino s l e s' l') (hbackend : s.daemon.fanotify ≠ none) :
    s'.daemon.fanotify ≠ none := by
  cases h with
  | marked | tabled | unmarked | untabled =>
    rw [Shared.mapBackend_fanotify]
    simpa using hbackend
  | _ => exact hbackend

/-- **One step keeps the invariant**, if it is orderly. -/
theorem agrees_step {t : τ} {e : Event} (hmode : config.triggerMode = .fanotify)
    (h : Agrees ino id config c) (hok : Orderly id config c t e)
    (hfire : (calls codec ino).fire c t e = some c') : Agrees ino id config c' := by
  have heffect := Effect.of_fire hfire
  have hother {u : τ} (hu : u ≠ t) : c'.task u = c.task u := TaskSystem.fire_task_of_ne hfire hu
  let others : (CallState → Bool) → Prop := fun place => ∃ u, u ≠ t ∧ place (c.task u) = true
  have hothers : (fun place => ∃ u, u ≠ t ∧ place (c'.task u) = true) = others := by
    funext place
    refine propext (exists_congr fun u => and_congr_right fun hu => ?_)
    rw [hother hu]
  have hplaces : Somewhere c = withOthers others (c.task t) :=
    funext fun place => propext (somewhere_iff c t place)
  have hplaces' : Somewhere c' = withOthers others (c'.task t) := by
    funext place
    rw [propext (somewhere_iff c' t place), hothers]
  refine ⟨locked_step h.locked hfire, heffect.fanotify_ne_none h.backend, fun u => ?_,
    fun live hlive => ?_, ?_⟩
  · by_cases hu : u = t
    · exact hu ▸ serves_effect heffect (h.serves t) h.configs hok.1
    · exact hother hu ▸ h.serves u
  · rcases heffect.instances hlive with hold | ⟨-, hinserting⟩
    · exact h.configs live hold
    · have := h.serves t
      rw [hinserting] at this
      exact this.2
  · rw [hplaces']
    refine accounts_effect heffect hmode h.backend (h.serves t) h.configs hok.1 (fun hfree => ?_) ?_
      (hplaces ▸ h.accounts)
    · -- whoever is past its mark holds the lock
      have hnobody (u : τ) : (c.task u).holds = none := by
        by_contra hu
        rw [h.locked.locked u hu] at hfree
        exact absurd hfree (by simp)
      exact ⟨fun ⟨u, _, hu⟩ => holds_of_hasMarked hu (hnobody u),
        fun ⟨u, _, hu⟩ => holds_of_hasEntered hu (hnobody u)⟩
    · refine keepsNew_mono (fun place hplace => ?_) hok.2
      exact (somewhere_iff c t place).mpr (Or.inr hplace)

/-- The invariant holds in every run. -/
theorem agrees_calls {files : Files} (hmode : config.triggerMode = .fanotify)
    (h : Relation.ReflTransGen (CallStep codec ino (Orderly id config))
      (startCalls τ files (some .new)) c) : Agrees ino id config c := by
  induction h with
  | refl => exact agrees_start files
  | tail _ hstep ih =>
    obtain ⟨t, e, hok, hfire⟩ := hstep
    exact agrees_step hmode ih hok hfire

/-- **Marks agree with the registry.** In every run of calls of `register` and `unregister` for one
id and one configuration with the fanotify trigger, in which no system call fails and no
`unregister` removes a mark or an entry that a later `register` has set: whenever no call is in
progress, the target has a mark and is entered for the id exactly if the id is registered. -/
theorem marks_agree {files : Files} (hmode : config.triggerMode = .fanotify)
    (h : Relation.ReflTransGen (CallStep codec ino (Orderly id config))
      (startCalls τ files (some .new)) c) (hquiet : Quiet c) :
    (Marked c.shared.daemon (ino config.targetPath) ∧
        Entered c.shared.daemon (ino config.targetPath) id ↔ Registered c.shared.daemon id) ∧
      (Marked c.shared.daemon (ino config.targetPath) ∨
        Entered c.shared.daemon (ino config.targetPath) id → Registered c.shared.daemon id) := by
  have hacc := (agrees_calls hmode h).accounts
  have hnowhere {place : CallState → Bool} (hidle : place .idle = false)
      (hreturned : ∀ res, place (.returned res) = false) : ¬Somewhere c place := by
    rintro ⟨t, ht⟩
    rcases hquiet t with hl | ⟨res, hl⟩
    · rw [hl, hidle] at ht
      exact absurd ht (by simp)
    · rw [hl, hreturned res] at ht
      exact absurd ht (by simp)
  have hmarked (hm : Marked c.shared.daemon (ino config.targetPath)) :
      Registered c.shared.daemon id := by
    rcases hacc.unmarked hm with hreg | hno | hno
    · exact hreg
    · exact absurd hno (hnowhere rfl fun _ => rfl)
    · exact absurd hno (hnowhere rfl fun _ => rfl)
  have hentered (he : Entered c.shared.daemon (ino config.targetPath) id) :
      Registered c.shared.daemon id := by
    rcases hacc.unentered he with hreg | hno | hno
    · exact hreg
    · exact absurd hno (hnowhere rfl fun _ => rfl)
    · exact absurd hno (hnowhere rfl fun _ => rfl)
  exact ⟨⟨fun h => hmarked h.1, fun h => ⟨hacc.marked (Or.inl h), hacc.entered (Or.inl h)⟩⟩,
    fun h => h.elim hmarked hentered⟩

/-! ### A registration between the removal and the unmarking -/

theorem Quiet.update {s : Shared} {f : τ → CallState} (h : Quiet (⟨s, f⟩ : CallConfig τ))
    (s' : Shared) (t : τ) (res : Except Error Unit) :
    Quiet (⟨s', Function.update f t (.returned res)⟩ : CallConfig τ) := by
  intro u
  change Function.update f t _ u = _ ∨ ∃ res, Function.update f t _ u = _
  by_cases hu : u = t
  · rw [hu, Function.update_self]
    exact Or.inr ⟨res, rfl⟩
  · rw [Function.update_of_ne hu]
    exact h u

theorem orderly_update {s : Shared} {f : τ → CallState} {t : τ} {l : CallState} {e : Event}
    (hl : l.removing = false) (he : Faultless id config e) :
    Orderly id config ⟨s, Function.update f t l⟩ t e := by
  refine ⟨he, ?_⟩
  change KeepsNew s.daemon id _ (Function.update f t l t)
  rw [Function.update_self]
  cases l with
  | unmarking | untabling => exact absurd hl (by simp [CallState.removing])
  | _ => trivial

/-- The instance of `layerAt` on the first target is registered and inserted, by a call that starts
with the given files. -/
theorem layer_registered {ok : CallConfig ℕ → ℕ → Event → Prop} {f : ℕ → CallState} {t : ℕ}
    {files files' : Files} {instances : String → Option Live} {backend : FanotifyBackend}
    {live : Live} {arcs : Arcs}
    (hok : ∀ s l e, l.removing = false → Faultless "layer" (layerAt "/cache/layer") e →
      ok ⟨s, Function.update f t l⟩ t e)
    (hfree : instances "layer" = none)
    (hopen : openInstance headerJson twoIno (layerAt "/cache/layer") {} (.ok ()) files =
      some (.ok live, files')) :
    Relation.ReflTransGen (CallStep headerJson twoIno ok)
      ⟨⟨⟨files, instances, some backend⟩, false, arcs⟩, Function.update f t .idle⟩
      ⟨⟨⟨files', Function.update instances "layer" (some live),
        some (backend.insert ⟨1, 1⟩ "layer")⟩, false, arcs.add "layer" live⟩,
        Function.update f t (.returned (.ok ()))⟩ := by
  have hrun : Relation.ReflTransGen (CallStep headerJson twoIno ok)
      ⟨⟨⟨files, instances, some backend⟩, false, arcs⟩, Function.update f t .idle⟩
      ⟨⟨⟨files', instances, some (backend.insert ⟨1, 1⟩ "layer")⟩, true, arcs⟩,
        Function.update f t (.inserting "layer" live)⟩ := by
    refine layerAt_run "/cache/layer" (fun s l e hl he => hok s l e hl ?_) (by decide) hfree hopen
    simp only [List.mem_cons, List.not_mem_nil, or_false] at he
    rcases he with rfl | rfl | rfl | rfl | rfl | rfl
    · exact Or.inl rfl
    all_goals trivial
  exact hrun.tail (CallStep.next (e := .insert) rfl (hok _ _ _ rfl trivial))

/-- A registered instance has its mark. -/
theorem marks_agree_small : ∃ c : CallConfig ℕ,
    Relation.ReflTransGen (CallStep headerJson twoIno (Orderly "layer" (layerAt "/cache/layer")))
      (startCalls ℕ twoFiles (some .new)) c ∧ Quiet c ∧ Registered c.shared.daemon "layer" ∧
    Marked c.shared.daemon ⟨1, 1⟩ ∧ Entered c.shared.daemon ⟨1, 1⟩ "layer" := by
  let f₀ : ℕ → CallState := fun _ => .idle
  let free : String → Option Live := fun _ => none
  obtain ⟨live, g, hopen, -, -, -⟩ := layerAt_open twoFiles "/cache/layer"
    (by decide) (by decide)
  have hrun : Relation.ReflTransGen
      (CallStep headerJson twoIno (Orderly "layer" (layerAt "/cache/layer")))
      ⟨⟨⟨twoFiles, free, some .new⟩, false, .none⟩, Function.update f₀ 0 .idle⟩ _ :=
    layer_registered (fun s l e hl he => orderly_update hl he) rfl hopen
  rw [update_task f₀ 0 .idle rfl] at hrun
  have hquiet := Quiet.update
    (fun _ => Or.inl rfl :
      Quiet (⟨⟨⟨twoFiles, free, some .new⟩, false, .none⟩, f₀⟩ : CallConfig ℕ))
    ⟨⟨twoFiles.put ⟨1, 2⟩ (some g), Function.update free "layer" (some live),
      some (FanotifyBackend.new.insert ⟨1, 1⟩ "layer")⟩, false, Arcs.none.add "layer" live⟩
    0 (.ok ())
  have hreg : Registered (⟨twoFiles.put ⟨1, 2⟩ (some g), Function.update free "layer" (some live),
      some (FanotifyBackend.new.insert ⟨1, 1⟩ "layer")⟩ : Daemon) "layer" := by
    simp [Registered]
  exact ⟨_, hrun, hquiet, hreg, (marks_agree rfl hrun hquiet).1.mpr hreg⟩

/-- One call takes the instance out, another one registers it again, and then the first one removes
the mark: the instance is registered and its target is not marked, with no call in progress and
nothing having failed. -/
theorem late_unmark : ∃ c : CallConfig ℕ,
    Relation.ReflTransGen (CallStep headerJson twoIno
      fun _ _ e => Faultless "layer" (layerAt "/cache/layer") e)
      (startCalls ℕ twoFiles (some .new)) c ∧ Quiet c ∧
    ¬(Marked c.shared.daemon ⟨1, 1⟩ ∧ Entered c.shared.daemon ⟨1, 1⟩ "layer" ↔
      Registered c.shared.daemon "layer") := by
  let ok : CallConfig ℕ → ℕ → Event → Prop :=
    fun _ _ e => Faultless "layer" (layerAt "/cache/layer") e
  let free : String → Option Live := fun _ => none
  let backend₁ : FanotifyBackend := FanotifyBackend.new.insert ⟨1, 1⟩ "layer"
  let backend₂ : FanotifyBackend := backend₁.insert ⟨1, 1⟩ "layer"
  let backend₃ : FanotifyBackend := markKernel ⟨1, 1⟩ false backend₂
  let backend₄ : FanotifyBackend := setEntry ⟨1, 1⟩ none backend₃
  obtain ⟨live₁, g, hopen₁, hconfig, htarget, hfresh⟩ := layerAt_open twoFiles
    "/cache/layer" (by decide) (by decide)
  let files₁ : Files := twoFiles.put ⟨1, 2⟩ (some g)
  let taken₁ : String → Option Live := Function.update free "layer" (some live₁)
  let free₁ : String → Option Live := Function.update taken₁ "layer" none
  obtain ⟨live₂, hopen₂, -, -⟩ := layerAt_reopen files₁ "/cache/layer" rfl rfl hfresh
  let files₂ : Files := files₁.put ⟨1, 2⟩ (some g)
  let taken₂ : String → Option Live := Function.update free₁ "layer" (some live₂)
  let arcs₁ : Arcs := Arcs.none.add "layer" live₁
  let arcs₂ : Arcs := arcs₁.add "layer" live₂
  let f₀ : ℕ → CallState := fun _ => .idle
  let f₁ : ℕ → CallState := Function.update f₀ 0 (.returned (.ok ()))
  let f₂ : ℕ → CallState := Function.update f₁ 1 (.unstatting live₁)
  let f₃ : ℕ → CallState := Function.update f₂ 2 (.returned (.ok ()))
  let f₄ : ℕ → CallState := Function.update f₃ 1 (.returned (.ok ()))
  have hfirst : Relation.ReflTransGen (CallStep headerJson twoIno ok)
      ⟨⟨⟨twoFiles, free, some .new⟩, false, .none⟩, Function.update f₀ 0 .idle⟩
      ⟨⟨⟨files₁, taken₁, some backend₁⟩, false, arcs₁⟩, f₁⟩ :=
    layer_registered (fun _ _ _ _ he => he) rfl hopen₁
  -- the instance is taken out
  have hremoved : afterRemoving ⟨files₁, taken₁, some backend₁⟩ live₁ = .unstatting live₁ := by
    rw [afterRemoving, hconfig]
    rfl
  have hremove : step headerJson twoIno ⟨⟨files₁, taken₁, some backend₁⟩, false, arcs₁⟩
      (.called (.unregister "layer")) .remove =
        some (⟨⟨files₁, free₁, some backend₁⟩, false, arcs₁⟩, .unstatting live₁) := by
    rw [← hremoved]
    rfl
  have hunregister : Relation.ReflTransGen (CallStep headerJson twoIno ok)
      ⟨⟨⟨files₁, taken₁, some backend₁⟩, false, arcs₁⟩, Function.update f₁ 1 .idle⟩
      ⟨⟨⟨files₁, free₁, some backend₁⟩, false, arcs₁⟩, f₂⟩ :=
    (Relation.ReflTransGen.single (CallStep.next (e := .call (.unregister "layer")) rfl
      (Or.inr rfl))).tail (CallStep.next hremove trivial)
  -- it is registered again
  have hsecond : Relation.ReflTransGen (CallStep headerJson twoIno ok)
      ⟨⟨⟨files₁, free₁, some backend₁⟩, false, arcs₁⟩, Function.update f₂ 2 .idle⟩
      ⟨⟨⟨files₂, taken₂, some backend₂⟩, false, arcs₂⟩, f₃⟩ :=
    layer_registered (fun _ _ _ _ he => he) (Function.update_self _ _ _) hopen₂
  -- the first call goes on
  have hpath : '\x00' ∉ live₁.inst.config.targetPath.toList := by
    rw [hconfig]
    decide
  have hkey : twoIno live₁.inst.config.targetPath = ⟨1, 1⟩ := by
    rw [hconfig]
    decide
  have hmark : step headerJson twoIno ⟨⟨files₂, taken₂, some backend₂⟩, false, arcs₂⟩
      (.unmarking live₁) (.mark none) =
        some (⟨⟨files₂, taken₂, some backend₃⟩, false, arcs₂⟩, .untabling live₁) := by
    simp only [step, (fanotifyMark_none _).mpr hpath, hkey]
    rfl
  have htable : step headerJson twoIno ⟨⟨files₂, taken₂, some backend₃⟩, false, arcs₂⟩
      (.untabling live₁) .table =
        some (⟨⟨files₂, taken₂, some backend₄⟩, false, arcs₂⟩, .returned (.ok ())) := by
    simp only [step, hkey]
    rfl
  have hunmark : Relation.ReflTransGen (CallStep headerJson twoIno ok)
      ⟨⟨⟨files₂, taken₂, some backend₂⟩, false, arcs₂⟩, Function.update f₃ 1 (.unstatting live₁)⟩
      ⟨⟨⟨files₂, taken₂, some backend₄⟩, false, arcs₂⟩, f₄⟩ :=
    ((Relation.ReflTransGen.single (CallStep.next (e := .stat none) rfl rfl)).tail
      (CallStep.next hmark rfl)).tail (CallStep.next htable trivial)
  rw [update_task f₀ 0 .idle rfl] at hfirst
  rw [update_task f₁ 1 .idle rfl] at hunregister
  rw [update_task f₂ 2 .idle rfl] at hsecond
  rw [update_task f₃ 1 (.unstatting live₁) rfl] at hunmark
  refine ⟨_, ((hfirst.trans hunregister).trans hsecond).trans hunmark, fun t => ?_, fun hiff => ?_⟩
  · change f₄ t = _ ∨ ∃ res, f₄ t = _
    by_cases h₁ : t = 1
    · rw [h₁]
      exact Or.inr ⟨_, rfl⟩
    · have hsame : f₄ t = Function.update f₁ 2 (.returned (.ok ())) t := by
        simp only [f₄, f₃, f₂, Function.update_apply, h₁, if_false]
      rw [hsame]
      exact Quiet.update (Quiet.update (fun _ => Or.inl rfl : Quiet (⟨⟨⟨twoFiles, free, none⟩,
        false, .none⟩, f₀⟩ : CallConfig ℕ)) ⟨⟨twoFiles, free, none⟩, false, .none⟩ 0 (.ok ()))
        ⟨⟨twoFiles, free, none⟩, false, .none⟩ 2 (.ok ()) t
  · have hreg : Registered (⟨files₂, taken₂, some backend₄⟩ : Daemon) "layer" := by
      simp [Registered, taken₂]
    obtain ⟨backend, hbackend, hmarked⟩ := (hiff.mpr hreg).1
    obtain rfl := Option.some.inj hbackend
    exact absurd hmarked (by decide)

end Daemon

end Lazyd
