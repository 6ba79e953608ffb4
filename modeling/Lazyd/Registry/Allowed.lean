import Lazyd.Registry.Uses

/-!
# The file of an allowed access

The event loop finds the id of an event by the file of its descriptor, then the instance by the id,
and allows the access if `ensure_range` of the instance succeeds for the range of the event. Between
these steps, and after an `unregister` whose unmarking fails, the table can name an id that has been
taken out, and the id can be registered again for another target. This module says from which
registrations on an access to one file can be allowed after a fetch into another one.

## Main definitions

* `Daemon.AllowsTargets` : every access that has been allowed is on the target of the instance on
  which `ensure_range` has succeeded, and its range is ready there.
* `Daemon.KeepsTargets` : an insertion for which the table and the event loop agree with the target.
* `Daemon.Routed` : the inductive invariant.

## Main results

* `Daemon.routed_step`, `Daemon.routed_run` : the invariant.
* `Daemon.allowed_targets` : the main theorem.
* `Daemon.stale_mark_allows` : an access that is allowed after a fetch into another file.

Source: `src/fanotify.rs`, lines 183–240; `src/instance.rs`, lines 124–169 and 229–261.
-/

namespace Lazyd

namespace Daemon

variable {τ : Type*}

/-- The event loop has allowed an access only after `ensure_range` has succeeded for the range of
the access on the instance whose target is its file, and the range is ready there. -/
def AllowsTargets (c : CallConfig τ) : Prop :=
  ∀ t key offset len entry asked,
    c.task t = .answered key offset len entry asked Fanotify.fanAllow →
    ∃ arc, asked = some (arc, .ok) ∧ key = some arc.inst.target ∧
      arc.inst.rangeMap.isRangeReady (c.shared.arcs.memory arc.number).slots offset len = true

/-- The table of marks enters the id for the given target only. -/
def TableNames (d : Daemon) (id : String) (target : FileKey) : Prop :=
  ∀ backend key, d.fanotify = some backend → backend.marks key = some id → key = target

/-- `ensure_range` can succeed for the range: it is empty or inside the blob. -/
def InBlob (inst : Instance) (offset len : ℕ) : Prop := len = 0 ∨ offset + len ≤ inst.blobSize

/-- If the step is the insertion of an instance, then the table enters its id for its target only,
and so do the lookups of the event loop that are under way for a range of its blob. -/
def KeepsTargets (c : CallConfig τ) (t : τ) : Event → Prop
  | .insert => ∀ id live, c.task t = .inserting id live →
      TableNames c.shared.daemon id live.inst.target ∧
        ∀ u key offset len, c.task u = .getting (.access key offset len) id →
          InBlob live.inst offset len → key = live.inst.target
  | _ => True

/-- The inductive invariant: the ids of the registered instances are entered for their targets, and
every access that can be allowed is on its way to the instance of its file. -/
structure Routed (c : CallConfig τ) : Prop where
  table : ∀ id live, c.shared.daemon.instances id = some live →
    TableNames c.shared.daemon id live.inst.target
  getting : ∀ t id key offset len live, c.task t = .getting (.access key offset len) id →
    c.shared.daemon.instances id = some live → InBlob live.inst offset len →
    key = live.inst.target
  calling : ∀ t id key offset len arc l, c.task t = .calling (.access key offset len) id arc l →
    InBlob arc.inst offset len → key = arc.inst.target
  answered : AllowsTargets c

variable {codec : HeaderCodec} {ino : String → FileKey}

theorem routed_start (files : Files) (fanotify : Option FanotifyBackend) :
    Routed (startCalls τ files fanotify) :=
  ⟨fun _ _ h => absurd h (by simp [startCalls, start]),
    fun _ _ _ _ _ _ h => absurd h (by simp [startCalls]),
    fun _ _ _ _ _ _ _ h => absurd h (by simp [startCalls]),
    fun _ _ _ _ _ _ h => absurd h (by simp [startCalls])⟩

variable [DecidableEq τ] {c c' : CallConfig τ}

/-- The table after a step, for an instance that is registered then. -/
theorem tableNames_step {t : τ} {e : Event} (h : Routed c) (hlock : Locked c)
    (hok : KeepsTargets c t e) (hfire : (calls codec ino).fire c t e = some c') {id : String}
    {live : Live} (hlive : c'.shared.daemon.instances id = some live) :
    TableNames c'.shared.daemon id live.inst.target := by
  have heffect := Effect.of_fire hfire
  intro backend' key hbackend' hkey
  obtain ⟨backend, hbackend, hmarks⟩ := heffect.marks hbackend'
  rcases hmarks key id hkey with hold | ⟨live', htabling, -⟩
  · rcases heffect.instances hlive with hreg | ⟨rfl, hinserting⟩
    · exact h.table id live hreg backend key hbackend hold
    · exact (hok id live hinserting).1 backend key hbackend hold
  · -- an id that is being entered is not registered, neither before nor after the step
    have hfree := hlock.free t id (by rw [htabling]; rfl)
    rcases heffect.instances hlive with hreg | ⟨-, hinserting⟩
    · rw [hfree] at hreg
      exact absurd hreg (by simp)
    · rw [htabling] at hinserting
      exact absurd hinserting (by simp)

/-- **One step keeps the invariant**, if it is no insertion against the table. -/
theorem routed_step {t : τ} {e : Event} (h : Routed c) (hlock : Locked c) (hknown : Known c)
    (hok : KeepsTargets c t e) (hfire : (calls codec ino).fire c t e = some c') : Routed c' := by
  have heffect := Effect.of_fire hfire
  have hother {u : τ} (hu : u ≠ t) : c'.task u = c.task u := TaskSystem.fire_task_of_ne hfire hu
  refine ⟨fun id live hlive => tableNames_step h hlock hok hfire hlive, ?_, ?_, ?_⟩
  · intro u id key offset len live hu hlive hrange
    by_cases hut : u = t
    · rw [hut] at hu
      obtain ⟨backend, hbackend, hkey, hshared⟩ := heffect.getting_inv hu
      rw [hshared] at hlive
      exact h.table id live hlive backend key hbackend hkey
    · rw [hother hut] at hu
      rcases heffect.instances hlive with hreg | ⟨rfl, hinserting⟩
      · exact h.getting u id key offset len live hu hreg hrange
      · exact (hok id live hinserting).2 u key offset len hu hrange
  · intro u id key offset len arc l hu hrange
    by_cases hut : u = t
    · rw [hut] at hu
      rcases heffect.calling_inv hu with
        ⟨-, hgetting, -, -, live, hlive, hinst⟩ | ⟨l', e', shared, hcalling, -⟩
      · rw [← hinst] at hrange ⊢
        exact h.getting t id key offset len live hgetting hlive hrange
      · exact h.calling t id key offset len arc l' hcalling hrange
    · exact h.calling u id key offset len arc l (hother hut ▸ hu) hrange
  · intro u key offset len entry asked hu
    have hknows := (known_step hknown hfire).task u
    rw [hu] at hknows
    by_cases hut : u = t
    · rw [hut] at hu
      obtain ⟨file, id, arc, call, hcalling, rfl, rfl, -⟩ := heffect.answered_inv hu
      obtain ⟨hholds, hhas⟩ := hknows arc rfl
      refine ⟨arc, rfl, ?_, (Instance.has_iff_isRangeReady hholds.2 offset len).mp hhas⟩
      rw [h.calling t id file offset len arc _ hcalling (hhas.imp_right And.left)]
    · obtain ⟨arc, rfl, rfl, -⟩ := h.answered u key offset len entry asked (hother hut ▸ hu)
      obtain ⟨hholds, hhas⟩ := hknows arc rfl
      exact ⟨arc, rfl, rfl, (Instance.has_iff_isRangeReady hholds.2 offset len).mp hhas⟩

/-- The invariants hold in every run. -/
theorem routed_run {files : Files} {fanotify : Option FanotifyBackend}
    (h : Relation.ReflTransGen (CallStep codec ino KeepsTargets) (startCalls τ files fanotify) c) :
    Routed c ∧ Locked c := by
  induction h with
  | refl => exact ⟨routed_start files fanotify, locked_start files fanotify⟩
  | tail hrun hstep ih =>
    obtain ⟨t, e, hok, hfire⟩ := hstep
    exact ⟨routed_step ih.1 ih.2 (known_run hrun) hok hfire, locked_step ih.2 hfire⟩

omit [DecidableEq τ] in
theorem keepsTargets_of_ne {t : τ} {e : Event} (h : e ≠ .insert) : KeepsTargets c t e := by
  cases e with
  | insert => exact absurd rfl h
  | _ => trivial

/-! ### The condition is exact -/

variable (codec ino) in
/-- After the insertion of an instance, an access to a file that is entered for its id can be
allowed, for the first byte of the blob. -/
theorem access_run {s₀ s : Shared} {f : τ → CallState} {u : τ} {id : String} {key : FileKey}
    {live : Live} {backend : FanotifyBackend} (h : Inserted s₀ s id live)
    (hbackend : s₀.daemon.fanotify = some backend) (hkey : backend.marks key = some id) :
    ∃ s', Relation.ReflTransGen (CallStep codec ino KeepsTargets) ⟨s, Function.update f u .idle⟩
      ⟨s', Function.update f u (.answered (some key) 0 1 (some id)
        (some (⟨live.inst, s.arcs.number id⟩, .ok)) Fanotify.fanAllow)⟩ := by
  have hcall : step codec ino s .idle (.call (.access (some key) 0 1)) =
      some (s, .called (.access (some key) 0 1)) := rfl
  have hlookup : step codec ino s (.called (.access (some key) 0 1)) .lookup =
      some (s, .getting (.access key 0 1) id) := by
    simp only [step, h.fanotify, hbackend, hkey]
  have hrange : 0 + 1 ≤ live.inst.blobSize := by
    rw [Instance.blobSize]
    exact Nat.pos_of_ne_zero fun hzero => h.size_ne (UInt64.toNat_inj.mp hzero)
  obtain ⟨s', hrun⟩ := allowed_run codec ino key (f := f) (u := u)
    (fun _ _ _ he => keepsTargets_of_ne he) h (Or.inr hrange)
  exact ⟨s', ((Relation.ReflTransGen.single (CallStep.next hcall trivial)).tail
    (CallStep.next hlookup trivial)).trans hrun⟩

/-- An access that has been allowed by an instance with another target. -/
theorem not_allowsTargets {s : Shared} {f : τ → CallState} {u : τ} {key : FileKey} {offset len : ℕ}
    {entry : Option String} {arc : Arc} (h : key ≠ arc.inst.target) : ¬AllowsTargets
      ⟨s, Function.update f u
        (.answered (some key) offset len entry (some (arc, .ok)) Fanotify.fanAllow)⟩ := by
  intro hallows
  obtain ⟨arc', harc, hkey, -⟩ := hallows u (some key) offset len entry (some (arc, .ok))
    (Function.update_self _ _ _)
  obtain ⟨rfl, -⟩ := Prod.mk.inj (Option.some.inj harc)
  exact h (Option.some.inj hkey)

/-- An insertion against the table or the lookups leads to an access that is allowed after a fetch
into another file. -/
theorem allows_wrongly {t u : τ} (hknown : Known c)
    (hfire : (calls codec ino).fire c t .insert = some c') (hbreaks : ¬KeepsTargets c t .insert)
    (hu : c'.task u = .idle) :
    ∃ c'', Relation.ReflTransGen (CallStep codec ino KeepsTargets) c' c'' ∧ ¬AllowsTargets c'' := by
  simp only [KeepsTargets, not_forall] at hbreaks
  obtain ⟨id, live, hinserting, hbreaks⟩ := hbreaks
  have hinserted := inserted_of_fire hknown hfire hinserting
  have hset {v : τ} {l : CallState} (hv : c'.task v = l) :
      c' = ⟨c'.shared, Function.update c'.task v l⟩ := by
    rw [← hv, Function.update_eq_self]
  rcases not_and_or.mp hbreaks with hnames | hresolved
  · simp only [TableNames, not_forall] at hnames
    obtain ⟨backend, key, hbackend, hkey, hne⟩ := hnames
    obtain ⟨s', hrun⟩ := access_run codec ino (f := c'.task) (u := u) hinserted hbackend hkey
    rw [hset hu]
    exact ⟨_, hrun, not_allowsTargets hne⟩
  · simp only [not_forall] at hresolved
    obtain ⟨v, key, offset, len, hv, hrange, hne⟩ := hresolved
    have hvt : v ≠ t := by
      rintro rfl
      rw [hinserting] at hv
      exact absurd hv (by simp)
    obtain ⟨s', hrun⟩ := allowed_run codec ino key (f := c'.task) (u := v)
      (fun _ _ _ he => keepsTargets_of_ne he) hinserted hrange
    rw [hset ((TaskSystem.fire_task_of_ne hfire hvt).trans hv)]
    exact ⟨_, hrun, not_allowsTargets hne⟩

/-- **Allowed accesses.** In every run of `register`, `unregister`, calls on instances and accesses,
whatever fails in it, in which no instance is inserted against the table of marks or a lookup of the
event loop, every access that is allowed is on the target of the instance on which `ensure_range`
has succeeded for its range, and the range is ready there, then and later. The condition is exact:
after any other insertion, an access can be allowed after a fetch into another file. -/
theorem allowed_targets {files : Files} {fanotify : Option FanotifyBackend}
    (h : Relation.ReflTransGen (CallStep codec ino KeepsTargets) (startCalls τ files fanotify) c) :
    AllowsTargets c ∧ ∀ t c', (calls codec ino).fire c t .insert = some c' →
      ¬KeepsTargets c t .insert → ∀ u, c'.task u = .idle →
        ∃ c'', Relation.ReflTransGen (CallStep codec ino KeepsTargets) c' c'' ∧
          ¬AllowsTargets c'' := by
  exact ⟨(routed_run h).1.answered,
    fun _ _ hfire hbreaks _ hu => allows_wrongly (known_run h) hfire hbreaks hu⟩

/-! ### A mark that is left behind -/

/-- An access to the target of an instance that has been registered. -/
theorem allowed_targets_small : ∃ c arc,
    Relation.ReflTransGen (CallStep headerJson twoIno KeepsTargets)
      (startCalls ℕ twoFiles (some .new)) c ∧
    c.task 1 = .answered (some ⟨1, 1⟩) 0 1 (some "layer") (some (arc, .ok)) Fanotify.fanAllow ∧
    AllowsTargets c := by
  let f₀ : ℕ → CallState := fun _ => .idle
  let f₁ : ℕ → CallState := Function.update f₀ 0 (.returned (.ok ()))
  let backend : FanotifyBackend := FanotifyBackend.new.insert ⟨1, 1⟩ "layer"
  let instances : String → Option Live := fun _ => none
  obtain ⟨live, f, hopen, -, htarget, -⟩ := layerAt_open twoFiles "/cache/layer"
    (by decide) (by decide)
  let files : Files := twoFiles.put ⟨1, 2⟩ (some f)
  let c₁ : CallConfig ℕ := ⟨⟨⟨files, instances, some backend⟩, true, .none⟩,
    Function.update f₀ 0 (.inserting "layer" live)⟩
  let c₂ : CallConfig ℕ := ⟨⟨⟨files, Function.update instances "layer" (some live), some backend⟩,
    false, Arcs.none.add "layer" live⟩, f₁⟩
  have hrun : Relation.ReflTransGen (CallStep headerJson twoIno KeepsTargets)
      ⟨⟨⟨twoFiles, instances, some .new⟩, false, .none⟩, Function.update f₀ 0 .idle⟩ c₁ :=
    layerAt_run "/cache/layer"
      (fun s l e _ he => keepsTargets_of_ne (by rintro rfl; simp at he)) (by decide) rfl hopen
  have hfire : (calls headerJson twoIno).fire c₁ 0 .insert = some c₂ := TaskSystem.fire_update rfl
  have hkeeps : KeepsTargets c₁ 0 .insert := by
    intro id live' hinserting
    obtain ⟨rfl, rfl⟩ := CallState.inserting.inj hinserting
    refine ⟨fun backend' key hbackend hkey => ?_, fun u key offset len hu => ?_⟩
    · obtain rfl := Option.some.inj hbackend
      by_contra hne
      rw [htarget] at hne
      have hnone : (FanotifyBackend.new.insert ⟨1, 1⟩ "layer").marks key = none :=
        Function.update_of_ne hne _ _
      exact absurd (hkey.symm.trans hnone) (by simp)
    · by_cases h : u = 0
      · simp [c₁, h] at hu
      · simp [c₁, Function.update_of_ne h, f₀] at hu
  rw [update_task f₀ 0 .idle rfl] at hrun
  have hinserted := inserted_of_fire (known_run hrun) hfire
    (Function.update_self 0 _ f₀ : c₁.task 0 = .inserting "layer" live)
  obtain ⟨s, haccess⟩ := access_run headerJson twoIno (f := f₁) (u := 1) hinserted rfl
    (rfl : backend.marks ⟨1, 1⟩ = some "layer")
  rw [update_task f₁ 1 .idle rfl] at haccess
  have hall : Relation.ReflTransGen (CallStep headerJson twoIno KeepsTargets)
      (startCalls ℕ twoFiles (some .new)) _ := (hrun.tail ⟨0, .insert, hkeeps, hfire⟩).trans haccess
  exact ⟨_, _, hall, Function.update_self 1 _ f₁, (allowed_targets hall).1⟩

/-- `unregister` fails to unmark the target of the instance that it has taken out. Its id is
registered for another target, and an access to the first target is allowed by the instance with
the second one. -/
theorem stale_mark_allows : ∃ c arc,
    Relation.ReflTransGen (AnyStep headerJson twoIno)
      (startCalls ℕ twoFiles (some .new)) c ∧
    c.task 3 = .answered (some ⟨1, 1⟩) 0 1 (some "layer") (some (arc, .ok)) Fanotify.fanAllow ∧
    arc.inst.target = ⟨1, 3⟩ ∧ ¬AllowsTargets c := by
  let f₀ : ℕ → CallState := fun _ => .idle
  let f₁ : ℕ → CallState := Function.update f₀ 0 (.returned (.ok ()))
  let f₂ : ℕ → CallState := Function.update f₁ 1 (.returned (.error (.io (.os 5))))
  let f₃ : ℕ → CallState := Function.update f₂ 2 (.returned (.ok ()))
  let backend₁ : FanotifyBackend := FanotifyBackend.new.insert ⟨1, 1⟩ "layer"
  let backend₂ : FanotifyBackend := backend₁.insert ⟨1, 3⟩ "layer"
  let free : String → Option Live := fun _ => none
  obtain ⟨live₁, g₁, hopen₁, hconfig, -, -⟩ := layerAt_open twoFiles "/cache/layer"
    (by decide) (by decide)
  let files₁ : Files := twoFiles.put ⟨1, 2⟩ (some g₁)
  let arcs₁ : Arcs := Arcs.none.add "layer" live₁
  have hfirst : Relation.ReflTransGen (AnyStep headerJson twoIno)
      ⟨⟨⟨twoFiles, free, some .new⟩, false, .none⟩, Function.update f₀ 0 .idle⟩
      ⟨⟨⟨files₁, free, some backend₁⟩, true, .none⟩,
        Function.update f₀ 0 (.inserting "layer" live₁)⟩ :=
    layerAt_run "/cache/layer" (fun _ _ _ _ _ => trivial) (by decide) rfl hopen₁
  let taken₁ : String → Option Live := Function.update free "layer" (some live₁)
  let free₁ : String → Option Live := Function.update taken₁ "layer" none
  have hfree₁ : free₁ "layer" = none := Function.update_self _ _ _
  have hpresent : Function.update twoFiles.present ⟨1, 2⟩ true (twoIno "/cache/other") = true := by
    decide
  have hbitmap : Function.update twoFiles.present ⟨1, 2⟩ true
      (twoIno (bitmapPath "/cache/other")) = false := by decide
  obtain ⟨live₂, g₂, hopen₂, -, htarget, -⟩ :=
    layerAt_open files₁ "/cache/other" hpresent hbitmap
  let files₂ : Files := files₁.put ⟨1, 4⟩ (some g₂)
  let c₁ : CallConfig ℕ := ⟨⟨⟨files₂, free₁, some backend₂⟩, true, arcs₁⟩,
    Function.update f₂ 2 (.inserting "layer" live₂)⟩
  let c₂ : CallConfig ℕ := ⟨⟨⟨files₂, Function.update free₁ "layer" (some live₂), some backend₂⟩,
    false, arcs₁.add "layer" live₂⟩, f₃⟩
  have hsecond : Relation.ReflTransGen (AnyStep headerJson twoIno)
      ⟨⟨⟨files₁, free₁, some backend₁⟩, false, arcs₁⟩, Function.update f₂ 2 .idle⟩ c₁ :=
    layerAt_run "/cache/other" (fun _ _ _ _ _ => trivial) (by decide) hfree₁ hopen₂
  -- the first registration ends
  have hinsert₁ : AnyStep headerJson twoIno
      ⟨⟨⟨files₁, free, some backend₁⟩, true, .none⟩,
        Function.update f₀ 0 (.inserting "layer" live₁)⟩
      ⟨⟨⟨files₁, taken₁, some backend₁⟩, false, arcs₁⟩, f₁⟩ :=
    CallStep.next (e := .insert) rfl trivial
  -- the instance is taken out, and `metadata` fails
  have hremoved : afterRemoving ⟨files₁, taken₁, some backend₁⟩ live₁ = .unstatting live₁ := by
    rw [afterRemoving, hconfig]
    rfl
  have hremove : step headerJson twoIno ⟨⟨files₁, taken₁, some backend₁⟩, false, arcs₁⟩
      (.called (.unregister "layer")) .remove =
        some (⟨⟨files₁, free₁, some backend₁⟩, false, arcs₁⟩, .unstatting live₁) := by
    rw [← hremoved]
    rfl
  have hunregister : Relation.ReflTransGen (AnyStep headerJson twoIno)
      ⟨⟨⟨files₁, taken₁, some backend₁⟩, false, arcs₁⟩, Function.update f₁ 1 .idle⟩
      ⟨⟨⟨files₁, free₁, some backend₁⟩, false, arcs₁⟩, f₂⟩ :=
    ((Relation.ReflTransGen.single
      (CallStep.next (e := .call (.unregister "layer")) rfl trivial)).tail
      (CallStep.next hremove trivial)).tail
      (CallStep.next (e := .stat (some (.os 5))) rfl trivial)
  rw [update_task f₀ 0 .idle rfl] at hfirst
  rw [update_task f₁ 1 .idle rfl] at hunregister
  rw [update_task f₂ 2 .idle rfl] at hsecond
  have hregistered : Relation.ReflTransGen (AnyStep headerJson twoIno)
      (startCalls ℕ twoFiles (some .new)) c₁ :=
    ((hfirst.tail hinsert₁).trans hunregister).trans hsecond
  -- the second registration ends, and then there is an access to the first target
  have hfire : (calls headerJson twoIno).fire c₁ 2 .insert = some c₂ := TaskSystem.fire_update rfl
  have hinserted := inserted_of_fire (known_run hregistered) hfire
    (Function.update_self 2 _ f₂ : c₁.task 2 = .inserting "layer" live₂)
  obtain ⟨s, haccess⟩ := access_run headerJson twoIno (f := f₃) (u := 3) hinserted rfl
    (by decide : backend₂.marks ⟨1, 1⟩ = some "layer")
  rw [update_task f₃ 3 .idle rfl] at haccess
  have hne : (⟨1, 1⟩ : FileKey) ≠ live₂.inst.target := by
    rw [htarget]
    decide
  exact ⟨_, _, (hregistered.tail ⟨2, .insert, trivial, hfire⟩).trans (anySteps haccess),
    Function.update_self 3 _ f₃, htarget, not_allowsTargets hne⟩

end Daemon

end Lazyd
