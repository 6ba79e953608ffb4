import Lazyd.Instance.Frame
import Lazyd.Remote.ReadRange

/-!
# A registry that ignores ranges

`ensure_range` on top of `read_range`: what the server answers is written to the target only if it
is exactly the range that was asked for. This does not depend on what is in the target or in the
bitmap file before.

## Main definitions

* `Instance.ServedRanges` : the remote is `read_range` on a server that has the blob.

## Main results

* `Instance.reply_step` : a reply is the range, or it ends the call with an error.
* `Instance.ranges_cannot_corrupt` : what is written to the target in any run.

Source: `src/instance.rs`, lines 229–261; `src/remote/oci.rs`, lines 180–213.
-/

namespace Lazyd

namespace Instance

/-- Every reply is the result of `read_range` on a server that has the blob. -/
def ServedRanges (blob : ℕ → UInt8) (size : ℕ) : TaskState → Event → Prop
  | .running _ _ _ (.holding range .reading), .reply res =>
    ∃ get, Oci.ServesRanges blob size get ∧ res = Oci.readRange get range.offset range.len
  | _, _ => True

variable {inst : Instance} {blob : ℕ → UInt8}

theorem Requested.bounds {offset len : ℕ} {range : Range} (h : inst.Requested offset len range) :
    0 < range.len ∧ range.offset + range.len ≤ inst.blobSize ∧
      range.offset + range.len < U64.size := by
  obtain ⟨hlen, hle, rfl⟩ := h
  obtain ⟨hpos, hend⟩ := amplified_bounds hlen hle
  exact ⟨hpos, hend, hend.trans_lt inst.blobSize_lt⟩

theorem honest_of_servedRanges {l : TaskState} {e : Event} (hshape : inst.TaskShape l)
    (h : ServedRanges blob inst.blobSize l e) : Honest blob l e := by
  unfold Honest
  split
  · rename_i range bytes
    obtain ⟨get, hserves, hread⟩ := h
    obtain ⟨hlen, hle, hlt⟩ := hshape.2.1.bounds
    intro hbytes
    have hfits := Oci.fits_of_readRange hlen hlt hread.symm hbytes
    have hslice := Oci.readRange_fits hserves hlen hle hlt hfits
    obtain rfl := Except.ok.inj (hread.trans hslice)
    exact SparseFile.agrees_slice _ _ _
  · trivial

/-- **A reply fits or is rejected.** The step that takes a reply changes nothing; a response that
fits is going to be written, and any other one ends the call with an error. -/
theorem reply_step {get : String → Except Error Oci.RangeResponse} {s s' : Shared} {l' : TaskState}
    {call : Call} {offset len : ℕ} {range : Range}
    (hserves : Oci.ServesRanges blob inst.blobSize get) (hreq : inst.Requested offset len range)
    (h : inst.step s (.running call offset len (.holding range .reading))
      (.reply (Oci.readRange get range.offset range.len)) = some (s', l')) :
    s' = s ∧
      (Oci.Fits get range.offset range.len → l' = .running call offset len (.holding range
        (.writing (SparseFile.slice blob range.offset range.len) 0))) ∧
      (¬Oci.Fits get range.offset range.len →
        ∃ err, l' = .running call offset len (.holding range (.releasing (.err err)))) := by
  obtain ⟨hlen, hle, hlt⟩ := hreq.bounds
  cases Effect.of_step h
  refine ⟨rfl, fun hfits => ?_, fun hfits => ?_⟩
  · rw [Oci.readRange_fits hserves hlen hle hlt hfits, received, SparseFile.length_slice,
      if_neg (not_not.mpr rfl), afterWrite, SparseFile.length_slice, if_pos hlen]
  · cases hread : Oci.readRange get range.offset range.len with
    | error err => exact ⟨err, rfl⟩
    | ok bytes =>
      rw [received, if_pos (Oci.readRange_of_not_fits hlen hlt hfits bytes hread)]
      exact ⟨_, rfl⟩

/-- In every run on a server of ranges, a task that writes writes bytes of the blob. -/
theorem servedRanges_run {τ : Type*} [DecidableEq τ] {c₀ c : TaskSystem.Config Shared TaskState τ}
    {ls : List (τ × Event)} (hidle : ∀ t, c₀.task t = .idle)
    (h : inst.tasks.Run (ServedRanges blob inst.blobSize) c₀ ls c) (t : τ) :
    inst.TaskShape (c.task t) ∧ TaskAgrees blob (c.task t) :=
  agrees_run (fun _ _ hl hok => honest_of_servedRanges hl hok) hidle h t

/-- **A server that ignores ranges cannot corrupt the cache.** In every run of interleaved calls on
an instance whose declared size is that of the blob, each step writes to the target, if anything,
bytes of the blob at their own position; and a call that has got a response which does not fit ends
with an error, with nothing written. -/
theorem ranges_cannot_corrupt {τ : Type*} [DecidableEq τ] (hne : inst.target ≠ inst.rangeMap.file)
    {c₀ c : TaskSystem.Config Shared TaskState τ} {ls : List (τ × Event)}
    (hidle : ∀ t, c₀.task t = .idle)
    (hrun : inst.tasks.Run (ServedRanges blob inst.blobSize) c₀ ls c) :
    (∀ t e c', inst.tasks.fire c t e = some c' →
      ∃ off chunk, inst.WritesTarget c.shared.disk c'.shared.disk off chunk ∧
        SparseFile.Agrees blob off chunk) ∧
    ∀ t call offset len range get c',
      c.task t = .running call offset len (.holding range .reading) →
      Oci.ServesRanges blob inst.blobSize get →
      inst.tasks.fire c t (.reply (Oci.readRange get range.offset range.len)) = some c' →
      c'.shared = c.shared ∧
        (Oci.Fits get range.offset range.len →
          c'.task t = .running call offset len (.holding range
            (.writing (SparseFile.slice blob range.offset range.len) 0))) ∧
        (¬Oci.Fits get range.offset range.len →
          ∃ err,
            c'.task t = .running call offset len (.holding range (.releasing (.err err)))) := by
  constructor
  · intro t e c' hfire
    obtain ⟨s', l', hstep, rfl⟩ := TaskSystem.fire_eq_some.mp hfire
    obtain ⟨hshape, hagree⟩ := servedRanges_run hidle hrun t
    obtain ⟨off, chunk, hwrite, hchunk⟩ := target_step hne hshape hstep
    exact ⟨off, chunk, hwrite, hchunk hagree⟩
  · intro t call offset len range get c' htask hserves hfire
    obtain ⟨s', l', hstep, rfl⟩ := TaskSystem.fire_eq_some.mp hfire
    obtain ⟨hshape, -⟩ := servedRanges_run hidle hrun t
    rw [htask] at hshape hstep
    have hreply := reply_step hserves hshape.2.1 hstep
    rwa [← Function.update_self (f := c.task) t l'] at hreply

/-- A server that answers every request with the three bytes of its blob. -/
def wholeServer (_ : String) : Except Error Oci.RangeResponse := .ok ⟨200, "200 OK", .ok [7, 7, 7]⟩

theorem servesRanges_wholeServer : Oci.ServesRanges (fun _ => 7) 3 wholeServer := by
  intro header first last response _ _ hget
  obtain rfl := Except.ok.inj hget
  exact .whole "200 OK"

theorem servedRanges_of_ne {blob : ℕ → UInt8} {size : ℕ} {e : Event} (h : ∀ res, e ≠ .reply res)
    (l : TaskState) : ServedRanges blob size l e := by
  unfold ServedRanges
  split
  · exact absurd rfl (h _)
  · trivial

/-- The whole blob is what a request for one byte of `smallInstance` asks for, and it is written. -/
theorem ranges_cannot_corrupt_smallInstance : ∃ ls c c',
    smallInstance.tasks.Run (ServedRanges (fun _ => 7) 3) smallStart ls c ∧
    smallInstance.tasks.fire c 0 (.wrote (.ok 3)) = some c' ∧
    (c'.shared.disk smallInstance.target).byte 2 = 7 ∧
    ∃ off chunk, smallInstance.WritesTarget c.shared.disk c'.shared.disk off chunk ∧
      SparseFile.Agrees (fun _ => 7) off chunk := by
  obtain ⟨s, hs⟩ : ∃ s, smallInstance.tasks.solo smallStart.shared (smallStart.task 0)
      [.call (.ensureRange 1 1), .check, .reserve, .recheck] =
      some (s, .running (.ensureRange 1 1) 1 1 (.holding ⟨0, 3⟩ .reading)) := ⟨_, rfl⟩
  have hok : smallInstance.tasks.SoloOk (ServedRanges (fun _ => 7) 3) smallStart.shared
      (smallStart.task 0) [.call (.ensureRange 1 1), .check, .reserve, .recheck] := by
    refine TaskSystem.soloOk_of_forall (fun e he l => servedRanges_of_ne (fun res hres => ?_) l) _ _
    rw [hres] at he
    simp at he
  have hrun := TaskSystem.Run.of_solo hok hs
  obtain ⟨c, hc, htask⟩ : ∃ c, smallInstance.tasks.fire
      ⟨s, Function.update smallStart.task 0
        (.running (.ensureRange 1 1) 1 1 (.holding ⟨0, 3⟩ .reading))⟩ 0
      (.reply (Oci.readRange wholeServer 0 3)) = some c ∧
      c.task 0 = .running (.ensureRange 1 1) 1 1 (.holding ⟨0, 3⟩ (.writing [7, 7, 7] 0)) :=
    ⟨_, rfl, rfl⟩
  have hserved : ServedRanges (fun _ => 7) 3
      (.running (.ensureRange 1 1) 1 1 (.holding ⟨0, 3⟩ .reading))
      (.reply (Oci.readRange wholeServer 0 3)) := ⟨wholeServer, servesRanges_wholeServer, rfl⟩
  have hrun' := hrun.snoc (t := 0) hserved hc
  obtain ⟨c', hc', hbyte⟩ : ∃ c', smallInstance.tasks.fire c 0 (.wrote (.ok 3)) = some c' ∧
      (c'.shared.disk smallInstance.target).byte 2 = 7 := by
    refine ⟨_, TaskSystem.fire_eq_some.mpr ⟨_, _, by rw [htask]; rfl, rfl⟩, ?_⟩
    rw [writeTarget_disk, Disk.write_self]
    rfl
  exact ⟨_, c, c', hrun', hc', hbyte,
    (ranges_cannot_corrupt (by decide) (fun _ => rfl) hrun').1 0 _ c' hc'⟩

end Instance

end Lazyd
