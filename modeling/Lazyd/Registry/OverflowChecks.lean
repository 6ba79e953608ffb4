import Lazyd.Instance.Inflight
import Lazyd.Registry.Register

/-!
# The unchecked arithmetic, in a build with overflow checks

A release build wraps around where an unchecked operation overflows; a build with overflow checks
panics there. The functions with unchecked operations are written down once more for such a build,
with `none` for a panic. None of them panics on an instance that was opened: the one addition that
is checked when the number of slots is computed bounds the end of every unit of the blob, and the
functions look at the end of a range before they compute with it.

## Main definitions

* `RangeMap.slotRangeTrapping`, `RangeMap.updateRangeTrapping`,
  `Instance.amplifyToFetchUnitTrapping`, `Instance.firstCheckTrapping`,
  `Instance.fetchRealLenTrapping`.
* `RangeMap.NeverPanics`, `Instance.NeverPanics`.

## Main results

* `RangeMap.neverPanics`, `Instance.neverPanics` : the two builds compute the same.
* `Daemon.arithmetic_never_overflows` : this holds of everything that is opened or registered.

Source: `src/range_map.rs`, lines 108–178 and 223–239; `src/instance.rs`, lines 82–94 and 229–319.
-/

namespace Lazyd

namespace RangeMap

variable (m : RangeMap)

/-- `RangeMap::slot_range` -/
def slotRangeTrapping (slot : ℕ) : Option (Except Error (ℕ × ℕ)) :=
  if m.slotCount ≤ slot then some (.error (.badRequest "slot exceeds range map"))
  else
    match U64.checkedMul slot m.unitBytes with
    | none => some (.error (.badRequest "slot offset overflows u64"))
    | some offset => do
      let fin := min (← U64.checkedAdd offset m.unitBytes) m.blobSize
      let len ← U64.checkedSub fin offset
      some (.ok (offset, len))

/-- `RangeMap::update_range` -/
def updateRangeTrapping (start len : ℕ) (value : UInt8) (fault : Option (ℕ × IoError)) (f : File)
    (slots : List UInt8) : Option (Except Error Unit × File × List UInt8) :=
  match m.slotsForRange start len with
  | .error err => some (.error err, f, slots)
  | .ok (slotStart, slotEnd) =>
    if slotStart = slotEnd then some (.ok (), f, slots)
    else do
      let bytes := List.replicate (← U64.checkedSub slotEnd slotStart) value
      match File.writeAll f (← U64.checkedAdd headerSize slotStart) bytes fault with
      | (.error err, f) => some (.error err, f, slots)
      | (.ok (), f) => some (.ok (), f, fillSlots slots slotStart slotEnd value)

/-- No operation on the range map overflows, and neither does the length of its file. -/
structure NeverPanics : Prop where
  slotRange : ∀ slot, m.slotRangeTrapping slot = some (m.slotRange slot)
  updateRange : ∀ start len value fault f slots,
    m.updateRangeTrapping start len value fault f slots =
      some (m.updateRange start len value fault f slots)
  fileLen : U64.checkedAdd headerSize m.slotCount = some (headerSize + m.slotCount)

theorem headerSize_add_slotCount_lt : headerSize + m.slotCount < U64.size := by
  have hcount : m.slotCount * m.unitBytes < U64.size := by
    rw [m.slotCount_eq]
    exact m.ceilDiv_mul_lt_size le_rfl
  have hunit : m.slotCount * 2 ^ 20 ≤ m.slotCount * m.unitBytes :=
    Nat.mul_le_mul_left _ m.bitmapUnitBytes_le
  rw [U64.size] at hcount ⊢
  rw [headerSize]
  omega

theorem slotRangeTrapping_eq (slot : ℕ) : m.slotRangeTrapping slot = some (m.slotRange slot) := by
  rcases lt_or_ge slot m.slotCount with hk | hk
  · have hlt := m.slot_mul_lt hk
    have hadd := m.blobSize_add_lt.1
    have hpos := m.unitBytes_pos
    have hmul : slot * m.unitBytes < U64.size := hlt.trans m.blobSize_lt
    have hend : slot * m.unitBytes + m.unitBytes < U64.size := by omega
    have hle : slot * m.unitBytes ≤ min (slot * m.unitBytes + m.unitBytes) m.blobSize := by omega
    rw [m.slotRange_ok hk]
    simp only [slotRangeTrapping, not_le.mpr hk, ↓reduceIte, U64.checkedMul_of_lt hmul,
      U64.checkedAdd_of_lt hend, U64.checkedSub_of_le hle, bind, Option.bind_some]
  · rw [slotRangeTrapping, slotRange, if_pos hk, if_pos hk]

theorem updateRangeTrapping_eq (start len : ℕ) (value : UInt8) (fault : Option (ℕ × IoError))
    (f : File) (slots : List UInt8) : m.updateRangeTrapping start len value fault f slots =
      some (m.updateRange start len value fault f slots) := by
  rw [updateRangeTrapping, updateRange]
  cases hslots : m.slotsForRange start len with
  | error err => rfl
  | ok bounds =>
    obtain ⟨slotStart, slotEnd⟩ := bounds
    obtain ⟨hle, hend⟩ := m.slotsForRange_le hslots
    have hsize := m.headerSize_add_slotCount_lt
    have hadd : headerSize + slotStart < U64.size := by omega
    dsimp only
    split_ifs with hempty
    · rfl
    · simp only [U64.checkedSub_of_le hle, U64.checkedAdd_of_lt hadd, bind, Option.bind_some]
      cases File.writeAll f (headerSize + slotStart)
          (List.replicate (slotEnd - slotStart) value) fault with
      | mk res f' => cases res <;> rfl

/-- The two builds compute the same with a range map. -/
theorem neverPanics : m.NeverPanics where
  slotRange := m.slotRangeTrapping_eq
  updateRange := m.updateRangeTrapping_eq
  fileLen := U64.checkedAdd_of_lt m.headerSize_add_slotCount_lt

end RangeMap

namespace Instance

variable (inst : Instance)

/-- `Instance::amplify_to_fetch_unit` -/
def amplifyToFetchUnitTrapping (offset len : ℕ) : Option (Except Error Range) :=
  let unit := inst.unitBytes
  match U64.checkedAdd offset len with
  | none => some (.error (.badRequest "range overflows u64"))
  | some fin => do
    let fetchOffset ← U64.checkedMul (offset / unit) unit
    let fetchEnd ← U64.checkedMul (U64.divCeil fin unit) unit
    let fetchEnd := min fetchEnd inst.blobSize
    let len ← U64.checkedSub fetchEnd fetchOffset
    some (.ok { offset := fetchOffset, len })

/-- `Instance::ensure_range` up to the loop of `reserve_inflight`. -/
def firstCheckTrapping (slots : List UInt8) (call : Call) (offset len : ℕ) : Option TaskState :=
  if len = 0 then some (finish call offset len .ok)
  else
    match U64.checkedAdd offset len with
    | none => some (finish call offset len (.err (.badRequest "range overflows u64")))
    | some endPos =>
      if inst.blobSize < endPos then
        some (finish call offset len (.err (.badRequest "range exceeds blob size")))
      else if inst.trusted = false then
        some (finish call offset len (.err (.remote "instance is not trusted")))
      else if inst.rangeMap.isRangeReady slots offset len then some (finish call offset len .ok)
      else
        match inst.amplifyToFetchUnitTrapping offset len with
        | none => none
        | some (.error err) => some (finish call offset len (.err err))
        | some (.ok range) => some (.running call offset len (.reserving range))

/-- The checks of `Instance::prepare_fetch_range`. -/
def fetchRealLenTrapping (offset len pageSize : ℕ) : Option (Except Error ℕ) :=
  if pageSize = 0 then some (.error (.badRequest "page size must be greater than zero"))
  else if len = 0 then some (.error (.badRequest "fetch len must be greater than zero"))
  else if offset % pageSize ≠ 0 ∨ len % pageSize ≠ 0 then
    some (.error (.badRequest "fetch off and len must be page-aligned"))
  else
    match U64.checkedAdd offset len with
    | none => some (.error (.badRequest "range overflows u64"))
    | some endPos => do
      let blobPageEnd ← U64.checkedMul (U64.divCeil inst.blobSize pageSize) pageSize
      if inst.blobSize ≤ offset ∨ blobPageEnd < endPos then
        some (.error (.badRequest "fetch range exceeds lazy blob tail page"))
      else
        let realLen ← U64.checkedSub (min inst.blobSize endPos) offset
        some (.ok realLen)

/-- No operation of the calls on the instance overflows, as long as a page is no larger than a
unit. -/
structure NeverPanics : Prop where
  rangeMap : inst.rangeMap.NeverPanics
  firstCheck : ∀ slots call offset len, inst.firstCheckTrapping slots call offset len =
    some (inst.firstCheck slots call offset len)
  fetchRealLen : ∀ offset len pageSize, pageSize ≤ inst.unitBytes →
    inst.fetchRealLenTrapping offset len pageSize = some (inst.fetchRealLen offset len pageSize)

variable {inst}

theorem amplifyToFetchUnitTrapping_eq {offset len : ℕ} (hlen : 0 < len)
    (h : offset + len ≤ inst.blobSize) : inst.amplifyToFetchUnitTrapping offset len =
      some (inst.amplifyToFetchUnit offset len) := by
  have hpos := inst.unitBytes_pos
  have hlt : offset + len < U64.size := lt_of_le_of_lt h inst.blobSize_lt
  have hlow : offset / inst.unitBytes * inst.unitBytes < U64.size :=
    lt_of_le_of_lt (Nat.div_mul_le_self offset inst.unitBytes) (by omega)
  have hhigh := inst.roundedEnd_lt_size h
  have hle := UnitPartition.outward_left_lt_right hpos (S := inst.blobSize)
    (a := offset) (b := offset + len) (by omega) h
  rw [amplifyToFetchUnit_ok hlen h]
  simp only [amplifyToFetchUnitTrapping, U64.checkedAdd_of_lt hlt, U64.divCeil_eq_ceilDiv hpos,
    U64.checkedMul_of_lt hlow, U64.checkedMul_of_lt hhigh, U64.checkedSub_of_le hle.le, bind,
    Option.bind_some, amplified]

theorem firstCheckTrapping_eq (slots : List UInt8) (call : Call) (offset len : ℕ) :
    inst.firstCheckTrapping slots call offset len =
      some (inst.firstCheck slots call offset len) := by
  rcases Nat.eq_zero_or_pos len with rfl | hlen
  · rfl
  · simp only [firstCheckTrapping, firstCheck, hlen.ne', ↓reduceIte]
    cases hadd : U64.checkedAdd offset len with
    | none => rfl
    | some endPos =>
      obtain ⟨rfl, -⟩ := U64.checkedAdd_eq_some.mp hadd
      dsimp only
      split_ifs with hend htrusted hready
      · rfl
      · rfl
      · rfl
      · rw [amplifyToFetchUnitTrapping_eq hlen (not_lt.mp hend)]
        cases inst.amplifyToFetchUnit offset len with
        | error err => rfl
        | ok range => rfl

theorem ceilDiv_page_lt_size {pageSize : ℕ} (hpos : 0 < pageSize)
    (hle : pageSize ≤ inst.unitBytes) : inst.blobSize ⌈/⌉ pageSize * pageSize < U64.size := by
  have hround := UnitPartition.ceilDiv_mul_lt hpos inst.blobSize
  have hadd := inst.rangeMap.blobSize_add_lt.1
  rw [rangeMap_blobSize, rangeMap_unitBytes] at hadd
  omega

theorem fetchRealLenTrapping_eq (offset len : ℕ) {pageSize : ℕ} (hle : pageSize ≤ inst.unitBytes) :
    inst.fetchRealLenTrapping offset len pageSize =
      some (inst.fetchRealLen offset len pageSize) := by
  unfold fetchRealLenTrapping fetchRealLen
  split_ifs with hpage hzero halign
  · rfl
  · rfl
  · rfl
  · have hpos := Nat.pos_of_ne_zero hpage
    have hlt := ceilDiv_page_lt_size hpos hle
    cases hadd : U64.checkedAdd offset len with
    | none => rfl
    | some endPos =>
      obtain ⟨rfl, -⟩ := U64.checkedAdd_eq_some.mp hadd
      simp only [U64.divCeil_eq_ceilDiv hpos, U64.checkedMul_of_lt hlt, U64.mul_eq hlt, bind,
        Option.bind_some]
      split_ifs with hbounds
      · rfl
      · have hsub : offset ≤ min inst.blobSize (offset + len) := by omega
        rw [U64.checkedSub_of_le hsub, U64.sub_eq hsub]
        rfl

variable (inst) in
/-- The two builds compute the same with an instance. -/
theorem neverPanics : inst.NeverPanics where
  rangeMap := inst.rangeMap.neverPanics
  firstCheck := firstCheckTrapping_eq
  fetchRealLen offset len _ hle := fetchRealLenTrapping_eq offset len hle

/-- The ranges in flight have representable ends, in every run. -/
theorem inflight_endPos {τ : Type*} [DecidableEq τ] {ok : TaskState → Event → Prop}
    {c₀ c : TaskSystem.Config Shared TaskState τ} {ls : List (τ × Event)}
    (hidle : ∀ t, c₀.task t = .idle) (hempty : c₀.shared.inflight = [])
    (hrun : inst.tasks.Run ok c₀ ls c) {r : Range} (hr : r ∈ c.shared.inflight) :
    r.endPos = some (r.offset + r.len) :=
  Range.endPos_of_lt (((exclusive_run hidle hempty hrun).bounds hr).2.trans_lt inst.blobSize_lt)

end Instance

namespace Daemon

variable {codec : HeaderCodec} {ino : String → FileKey} {d d' : Daemon}

/-- The registered instance is one of the blob and the unit that were asked for. -/
theorem register_ok_blob_fetch {instanceId : String} {config : InstanceConfig}
    {answers : RegisterAnswers} {live : Live}
    (h : register codec ino d instanceId config answers = some (.ok (), d'))
    (hlive : d'.instances instanceId = some live) :
    live.inst.blobSize = config.blob.size.toNat ∧
      live.inst.unitBytes = config.fetch.unitBytes.toNat := by
  obtain ⟨live', hlive', hsame⟩ := register_ok_same h
  obtain rfl := Option.some.inj (hlive.symm.trans hlive')
  have hconfig := InstanceConfig.same_blob_fetch hsame
  rw [Instance.blobSize, Instance.unitBytes, hconfig.1, hconfig.2]
  exact ⟨rfl, rfl⟩

/-- **No unchecked operation wraps around.** On a range map that was opened for a blob, and on an
instance that was registered for it, a build with overflow checks panics nowhere and computes what a
release build computes, whatever it is called with, as long as a page is no larger than a unit.
Every range in flight has a representable end. -/
theorem arithmetic_never_overflows :
    (∀ key blob unitBytes faults old opened file,
      openOrCreate codec key blob unitBytes faults old = (.ok opened, file) →
        opened.rangeMap.blobSize = blob.size.toNat ∧
        opened.rangeMap.unitBytes = unitBytes.toNat ∧ opened.rangeMap.NeverPanics) ∧
    ∀ instanceId config answers live,
      register codec ino d instanceId config answers = some (.ok (), d') →
      d'.instances instanceId = some live →
        (live.inst.blobSize = config.blob.size.toNat ∧
          live.inst.unitBytes = config.fetch.unitBytes.toNat ∧ live.inst.NeverPanics) ∧
        ∀ (τ : Type) [DecidableEq τ] (ok : Instance.TaskState → Instance.Event → Prop)
          (c₀ c : TaskSystem.Config Instance.Shared Instance.TaskState τ) ls,
          (∀ t, c₀.task t = .idle) → c₀.shared.inflight = [] →
          live.inst.tasks.Run ok c₀ ls c →
          ∀ r ∈ c.shared.inflight, r.endPos = some (r.offset + r.len) := by
  refine ⟨fun key blob unitBytes faults old opened file hopen => ?_, ?_⟩
  · obtain ⟨-, hunit, hsize⟩ := RangeMap.geometry_eq_ok (openOrCreate_rangeMap hopen)
    exact ⟨hsize, hunit, opened.rangeMap.neverPanics⟩
  · intro instanceId config answers live hregister hlive
    obtain ⟨hsize, hunit⟩ := register_ok_blob_fetch hregister hlive
    exact ⟨⟨hsize, hunit, live.inst.neverPanics⟩, fun τ _ ok c₀ c ls hidle hempty hrun r hr =>
      Instance.inflight_endPos hidle hempty hrun hr⟩

/-- The blob of three bytes is opened and registered, and a task reserves its one unit. -/
theorem arithmetic_never_overflows_newBlob : ∃ m d' live ls c,
    openOrCreate headerJson ⟨1, 2⟩ newBlob 1048576 {} none = (.ok ⟨m, [0], false⟩,
      d'.files.get ⟨1, 2⟩) ∧ m.NeverPanics ∧
    register headerJson smallIno (start smallFiles none) "a" smallConfig {} = some (.ok (), d') ∧
    d'.instances "a" = some live ∧ live.inst.NeverPanics ∧
    live.inst.tasks.Run (fun _ _ => True) Instance.smallStart ls c ∧
    c.shared.inflight = [⟨0, 3⟩] ∧ ∀ r ∈ c.shared.inflight, r.endPos = some 3 := by
  obtain ⟨buf, hbuf⟩ := exists_encodeHeader (encodeHeader_small newBlob (by decide))
  have hm : RangeMap.geometry ⟨1, 2⟩ newBlob.size 1048576 = .ok smallInstance.rangeMap :=
    smallInstance.rangeMap.geometry_self rfl rfl
  have hopen := openOrCreate_none hm hbuf
  have hget :
      smallFiles.get (smallIno (bitmapPath (smallConfigOf newBlob "a").targetPath)) = none :=
    smallFiles_get "a" newBlob
  obtain ⟨live, hcache, hlive⟩ := openCache_new (smallIno_geometry "a" (rfl : newBlob.size = 3))
    hbuf (rfl : smallFiles.present smallInstance.target = true) hget
  have heq : live = ⟨smallInstanceOf newBlob "a" rfl, _, []⟩ := hlive.eq rfl rfl rfl
  have hregister : register headerJson smallIno (start smallFiles none) "a" smallConfig {} =
      some (.ok (), _) := register_opened rfl rfl hcache rfl rfl
  have hlive' : Function.update (start smallFiles none).instances "a" (some live) "a" = some live :=
    Function.update_self _ _ _
  obtain ⟨hmaps, hinstances⟩ := @arithmetic_never_overflows headerJson smallIno
    (start smallFiles none) _
  obtain ⟨⟨-, -, hpanics⟩, hflight⟩ := hinstances _ _ _ live hregister hlive'
  have hfile : (smallFiles.put (smallIno (bitmapPath (smallConfigOf newBlob "a").targetPath))
      (some (resetFile newFile 1 buf headerSize 1))).get ⟨1, 2⟩ =
        some (resetFile newFile 1 buf headerSize 1) := by
    rw [smallConfigOf, smallIno_bitmapPath]
    exact smallFiles.put_get_self ⟨1, 2⟩ _
  obtain ⟨s, hs⟩ : ∃ s, (smallInstanceOf newBlob "a" rfl).tasks.solo
      Instance.smallStart.shared (Instance.smallStart.task 0)
      [.call (.ensureRange 1 1), .check, .reserve] = some (⟨s, [0], [⟨0, 3⟩]⟩,
        .running (.ensureRange 1 1) 1 1 (.holding ⟨0, 3⟩ .recheck)) := ⟨_, rfl⟩
  have hrun := TaskSystem.Run.of_solo (TaskSystem.soloOk_true _ _ _) hs
  subst heq
  have hopen' : openOrCreate headerJson ⟨1, 2⟩ newBlob 1048576 {} none =
      (.ok ⟨smallInstance.rangeMap, [0], false⟩, _) := hopen
  refine ⟨_, _, _, _, _, ?_, (hmaps _ _ _ _ _ _ _ hopen').2.2, hregister, hlive', hpanics, hrun,
    rfl, ?_⟩
  · rw [hopen']
    exact congrArg _ hfile.symm
  · intro r hr
    have hend := hflight ℕ _ _ _ _ (fun _ => rfl) rfl hrun r hr
    obtain rfl := List.mem_singleton.mp hr
    exact hend

end Daemon

end Lazyd
