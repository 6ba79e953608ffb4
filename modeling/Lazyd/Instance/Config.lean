import Lazyd.RangeMap.Slots
import Lazyd.Remote.Basic
import Mathlib.Order.Interval.Set.Disjoint

/-!
# Instances: configuration and byte ranges

The configuration of an instance, the open instance that is made from it, the byte ranges that it
fetches and the rounding of a request to fetch units. An `Instance` holds what is fixed once it is
open; the slots in memory, the list of ranges in flight and the files are state.

## Main definitions

* `InstanceConfig`, `InstanceConfig.same`.
* `Instance` : an open instance, with what opening it established.
* `Range`, `Range.overlaps`, `Instance.amplifyToFetchUnit`.

## Main results

* `Instance.amplifyToFetchUnit_ok` : a request inside the blob is rounded outward to units.
* `Instance.positions_amplified`, `Instance.slotsForRange_amplified` : the positions and the slots
  of a rounded request.

Source: `src/instance.rs`, lines 16–94 and 307–319.
-/

namespace Lazyd

structure FetchConfig where
  unitBytes : UInt64
  deriving DecidableEq, Repr

inductive TriggerMode where
  | fanotify
  | external
  deriving DecidableEq, Repr

structure InstanceConfig where
  instanceId : String
  targetPath : String
  blob : BlobDescriptor
  source : RemoteSource
  auth : Option AuthConfig
  fetch : FetchConfig
  triggerMode : TriggerMode
  deriving DecidableEq, Repr

/-- The components of a path: repeated separators and `.` components do not count, except for a
leading `.`; the root is a component. -/
def pathComponents (path : String) : List String :=
  let parts := (path.toList.splitOn '/').map String.ofList
  let head := if path.toList.head? = some '/' then ["/"]
    else if parts.head? = some "." then ["."] else []
  head ++ parts.filter fun part => part ≠ "" ∧ part ≠ "."

/-- Equality of two configurations, as the source derives it; paths compare by components. -/
def InstanceConfig.same (a b : InstanceConfig) : Bool :=
  decide ({ a with targetPath := "" } = { b with targetPath := "" }) &&
    decide (pathComponents a.targetPath = pathComponents b.targetPath)

@[simp] theorem InstanceConfig.same_refl (config : InstanceConfig) : config.same config = true := by
  simp only [same, decide_true, Bool.and_self]

theorem InstanceConfig.same_blob_fetch {a b : InstanceConfig} (h : a.same b = true) :
    a.blob = b.blob ∧ a.fetch = b.fetch := by
  rw [InstanceConfig.same, Bool.and_eq_true, decide_eq_true_iff] at h
  have hblob := congrArg InstanceConfig.blob h.1
  have hfetch := congrArg InstanceConfig.fetch h.1
  exact ⟨hblob, hfetch⟩

theorem InstanceConfig.same_congr {a b c : InstanceConfig} (h : a.same b = true)
    (hpath : b.targetPath = c.targetPath) : a.same c = true ↔ b = c := by
  rw [same, Bool.and_eq_true, decide_eq_true_iff, decide_eq_true_iff] at h
  constructor
  · intro hsame
    rw [same, Bool.and_eq_true, decide_eq_true_iff] at hsame
    have heq := h.1.symm.trans hsame.1
    obtain ⟨id, path, blob, source, auth, fetch, trigger⟩ := b
    obtain ⟨id', path', blob', source', auth', fetch', trigger'⟩ := c
    obtain rfl : path = path' := hpath
    simpa only [mk.injEq, true_and] using heq
  · rintro rfl
    rw [same, Bool.and_eq_true, decide_eq_true_iff, decide_eq_true_iff]
    exact h

/-- A byte range of a blob. -/
structure Range where
  offset : ℕ
  len : ℕ
  deriving DecidableEq, Repr

namespace Range

/-- `Range::end`. -/
def endPos (r : Range) : Option ℕ := U64.checkedAdd r.offset r.len

/-- `Range::overlaps`. -/
def overlaps (r other : Range) : Bool :=
  match r.endPos with
  | none => false
  | some fin =>
    match other.endPos with
    | none => false
    | some otherFin => decide (r.offset < otherFin) && decide (other.offset < fin)

/-- The positions of a range. -/
def positions (r : Range) : Set ℕ := Set.Ico r.offset (r.offset + r.len)

theorem endPos_of_lt {r : Range} (h : r.offset + r.len < U64.size) :
    r.endPos = some (r.offset + r.len) :=
  U64.checkedAdd_of_lt h

theorem overlaps_eq_false_iff {r q : Range} (hr : r.offset + r.len < U64.size)
    (hq : q.offset + q.len < U64.size) (hrl : 0 < r.len) (hql : 0 < q.len) :
    r.overlaps q = false ↔ Disjoint r.positions q.positions := by
  simp only [overlaps, endPos_of_lt hr, endPos_of_lt hq, Bool.and_eq_false_iff,
    decide_eq_false_iff_not, not_lt]
  rw [positions, positions, Set.Ico_disjoint_Ico]
  omega

end Range

/-- An open instance: its configuration, its two open files and the geometry of its range map, with
what opening it established. -/
structure Instance where
  config : InstanceConfig
  target : FileKey
  rangeMap : RangeMap
  trusted : Bool
  blobSize_eq : rangeMap.blobSize = config.blob.size.toNat
  unitBytes_eq : rangeMap.unitBytes = config.fetch.unitBytes.toNat
  trusted_eq : trusted = true

namespace Instance

variable (inst : Instance)

theorem eq_of {a b : Instance} (hconfig : a.config = b.config) (htarget : a.target = b.target)
    (hmap : a.rangeMap = b.rangeMap) : a = b := by
  obtain ⟨config, target, rangeMap, trusted, hsize, hunit, rfl⟩ := a
  obtain ⟨config', target', rangeMap', trusted', hsize', hunit', rfl⟩ := b
  obtain rfl : config = config' := hconfig
  obtain rfl : target = target' := htarget
  obtain rfl : rangeMap = rangeMap' := hmap
  rfl

/-- The size of the blob. -/
def blobSize : ℕ := inst.config.blob.size.toNat

/-- The size of a fetch unit. -/
def unitBytes : ℕ := inst.config.fetch.unitBytes.toNat

@[simp] theorem rangeMap_blobSize : inst.rangeMap.blobSize = inst.blobSize := inst.blobSize_eq

@[simp] theorem rangeMap_unitBytes : inst.rangeMap.unitBytes = inst.unitBytes := inst.unitBytes_eq

theorem unitBytes_pos : 0 < inst.unitBytes := inst.rangeMap_unitBytes ▸ inst.rangeMap.unitBytes_pos

theorem blobSize_lt : inst.blobSize < U64.size :=
  inst.rangeMap_blobSize ▸ inst.rangeMap.blobSize_lt

theorem slotCount_eq : inst.rangeMap.slotCount = inst.blobSize ⌈/⌉ inst.unitBytes := by
  rw [inst.rangeMap.slotCount_eq, rangeMap_blobSize, rangeMap_unitBytes]

/-- `Instance::amplify_to_fetch_unit`. -/
def amplifyToFetchUnit (offset len : ℕ) : Except Error Range :=
  let unit := inst.unitBytes
  match U64.checkedAdd offset len with
  | none => .error (.badRequest "range overflows u64")
  | some fin =>
    let fetchOffset := U64.mul (offset / unit) unit
    let fetchEnd := U64.mul (U64.divCeil fin unit) unit
    let fetchEnd := min fetchEnd inst.blobSize
    .ok { offset := fetchOffset, len := U64.sub fetchEnd fetchOffset }

/-- A request inside the blob, rounded outward to fetch units and cut off at the end of the blob. -/
def amplified (offset len : ℕ) : Range where
  offset := offset / inst.unitBytes * inst.unitBytes
  len := min ((offset + len) ⌈/⌉ inst.unitBytes * inst.unitBytes) inst.blobSize -
    offset / inst.unitBytes * inst.unitBytes

variable {inst}

theorem roundedEnd_lt_size {offset len : ℕ} (h : offset + len ≤ inst.blobSize) :
    (offset + len) ⌈/⌉ inst.unitBytes * inst.unitBytes < U64.size := by
  have hm := inst.rangeMap.ceilDiv_mul_lt_size (b := offset + len)
  rw [rangeMap_blobSize, rangeMap_unitBytes] at hm
  exact hm h

/-- **Amplification.** No operation of the rounding wraps around for a request inside the blob. -/
theorem amplifyToFetchUnit_ok {offset len : ℕ} (hlen : 0 < len)
    (h : offset + len ≤ inst.blobSize) :
    inst.amplifyToFetchUnit offset len = .ok (inst.amplified offset len) := by
  have hpos := inst.unitBytes_pos
  have hlt : offset + len < U64.size := lt_of_le_of_lt h inst.blobSize_lt
  have hlow : offset / inst.unitBytes * inst.unitBytes ≤ offset :=
    Nat.div_mul_le_self offset inst.unitBytes
  have hhigh := inst.roundedEnd_lt_size h
  have hle := UnitPartition.outward_left_lt_right hpos (S := inst.blobSize)
    (a := offset) (b := offset + len) (by omega) h
  simp only [amplifyToFetchUnit, U64.checkedAdd_of_lt hlt, U64.divCeil_eq_ceilDiv hpos,
    U64.mul_eq hhigh, U64.mul_eq (lt_of_le_of_lt hlow (by omega : offset < U64.size)),
    U64.sub_eq hle.le, amplified]

theorem amplified_end {offset len : ℕ} (hlen : 0 < len) (h : offset + len ≤ inst.blobSize) :
    (inst.amplified offset len).offset + (inst.amplified offset len).len =
      min ((offset + len) ⌈/⌉ inst.unitBytes * inst.unitBytes) inst.blobSize := by
  have hle := UnitPartition.outward_left_lt_right inst.unitBytes_pos (S := inst.blobSize)
    (a := offset) (b := offset + len) (by omega) h
  exact Nat.add_sub_cancel' hle.le

theorem amplified_bounds {offset len : ℕ} (hlen : 0 < len) (h : offset + len ≤ inst.blobSize) :
    0 < (inst.amplified offset len).len ∧
      (inst.amplified offset len).offset + (inst.amplified offset len).len ≤ inst.blobSize := by
  have hle := UnitPartition.outward_left_lt_right inst.unitBytes_pos (S := inst.blobSize)
    (a := offset) (b := offset + len) (by omega) h
  exact ⟨Nat.sub_pos_of_lt hle, (amplified_end hlen h).trans_le (min_le_right _ _)⟩

theorem positions_amplified {offset len : ℕ} (hlen : 0 < len) (h : offset + len ≤ inst.blobSize) :
    (inst.amplified offset len).positions =
      Set.Ico (offset / inst.unitBytes * inst.unitBytes)
        (min ((offset + len) ⌈/⌉ inst.unitBytes * inst.unitBytes) inst.blobSize) := by
  rw [Range.positions, amplified_end hlen h]
  rfl

theorem touches_lt_slotCount {offset len k : ℕ} (h : offset + len ≤ inst.blobSize)
    (hk : UnitPartition.Touches inst.unitBytes offset (offset + len) k) :
    k < inst.rangeMap.slotCount := by
  rw [inst.slotCount_eq]
  exact lt_of_lt_of_le hk.2 (UnitPartition.ceilDiv_mono inst.unitBytes_pos h)

/-- The amplified range has the slots of the request. -/
theorem slotsForRange_amplified {offset len : ℕ} (hlen : 0 < len)
    (h : offset + len ≤ inst.blobSize) :
    inst.rangeMap.slotsForRange (inst.amplified offset len).offset
        (inst.amplified offset len).len =
      .ok (offset / inst.unitBytes, (offset + len) ⌈/⌉ inst.unitBytes) := by
  obtain ⟨hpos, hend⟩ := amplified_bounds hlen h
  rw [RangeMap.slotsForRange_ok hpos (by rwa [rangeMap_blobSize]), rangeMap_unitBytes,
    amplified_end hlen h, UnitPartition.ceilDiv_outward inst.unitBytes_pos h]
  congr 2
  exact Nat.mul_div_cancel _ inst.unitBytes_pos

end Instance

/-! ### A small instance -/

/-- The configuration of a layer of three bytes with the default fetch unit. -/
def smallConfig : InstanceConfig where
  instanceId := "layer"
  targetPath := "/cache/layer"
  blob := { digest := "sha256:abc", size := 3, mediaType := none }
  source := .ociRegistry "registry.example.com/ns/image:tag" none
  auth := none
  fetch := { unitBytes := 1048576 }
  triggerMode := .fanotify

/-- An instance of `smallConfig`; it has one slot. -/
def smallInstance : Instance where
  config := smallConfig
  target := { dev := 1, ino := 1 }
  rangeMap :=
    { file := { dev := 1, ino := 2 }
      unitBytes := 1048576
      blobSize := 3
      slotCount := 1
      unitBytes_lt := by decide
      validate := rfl
      slotCount_ok := rfl }
  trusted := true
  blobSize_eq := rfl
  unitBytes_eq := rfl
  trusted_eq := rfl

end Lazyd
