import Lazyd.Control.Requests

/-!
# Where requests go

The control socket takes a request to the daemon, to the preparation of an image or to an instance,
by its method and its path. The paths of an instance are its id between a prefix and, for ranges, a
suffix. An id is not empty and has no slash, so a path has at most one id in it, and no path is that
of an instance and of its ranges.

## Main definitions

* `Http.instanceId`, `Http.ensureRangeInstanceId` : the id in a path.
* `Http.Endpoint`, `Http.endpoint` : where a request goes.
* `Http.instancePath`, `Http.ensureRangePath` : the paths of an instance.
* `Http.Message.withPath` : a message with another path.
* `Http.Addressable` : an id that requests can name.

## Main results

* `Http.instanceId_eq_some`, `Http.ensureRangeInstanceId_eq_some` : the paths with an id.
* `Http.instancePath_ne_ensureRangePath` : no path is of both kinds.
* `Http.Message.parseRequest_bytes` : a message is parsed as it was written.
* `Http.IsId.addressable` : the ids that requests can name.

Source: `src/control.rs`, lines 86–134 and 188–246.
-/

namespace Lazyd

namespace Http

open Utf8

/-! ### The routes -/

/-- `str::strip_prefix` -/
def stripPrefix (pre input : List Char) : Option (List Char) :=
  if pre <+: input then some (input.drop pre.length) else none

/-- `str::strip_suffix` -/
def stripSuffix (suffix input : List Char) : Option (List Char) :=
  if suffix <:+ input then some (input.take (input.length - suffix.length)) else none

/-- An id that is not empty and has no slash. -/
def nonemptySegment (id : List Char) : Option String :=
  if id ≠ [] ∧ '/' ∉ id then some (String.ofList id) else none

def instancesPrefix : String := "/api/v1/instances/"

def ensureRangeSuffix : String := "/ranges/ensure"

/-- `instance_id` -/
def instanceId (path : String) : Option String :=
  (stripPrefix instancesPrefix.toList path.toList).bind nonemptySegment

/-- `ensure_range_instance_id` -/
def ensureRangeInstanceId (path : String) : Option String :=
  ((stripPrefix instancesPrefix.toList path.toList).bind
    (stripSuffix ensureRangeSuffix.toList)).bind nonemptySegment

/-- Where a request goes. -/
inductive Endpoint where
  | daemonInfo
  | prepareImage
  | ensureRange (instanceId : String)
  | register (instanceId : String)
  | unregister (instanceId : String)
  deriving DecidableEq, Repr

/-- The branches of `ControlPlane::handle_request`. -/
def endpoint (method path : String) : Except Error Endpoint :=
  let instanceOr (id : Option String) (found : String → Endpoint) : Except Error Endpoint :=
    match id with
    | some id => .ok (found id)
    | none => .error (.notFound "unknown endpoint")
  if method = "GET" ∧ path = "/api/v1/daemon" then .ok .daemonInfo
  else if method = "POST" ∧ path = "/api/v1/images/prepare" then .ok .prepareImage
  else if method = "POST" then instanceOr (ensureRangeInstanceId path) .ensureRange
  else if method = "PUT" then instanceOr (instanceId path) .register
  else if method = "DELETE" then instanceOr (instanceId path) .unregister
  else .error (.notFound "unknown endpoint")

/-! ### The paths with an id -/

theorem stripPrefix_eq_some {pre input rest : List Char} :
    stripPrefix pre input = some rest ↔ input = pre ++ rest := by
  rw [stripPrefix]
  split_ifs with h
  · obtain ⟨rest', rfl⟩ := h
    rw [List.drop_left, Option.some.injEq, List.append_right_inj, eq_comm]
  · refine iff_of_false (by simp) ?_
    rintro rfl
    exact h (List.prefix_append _ _)

theorem stripSuffix_eq_some {suffix input rest : List Char} :
    stripSuffix suffix input = some rest ↔ input = rest ++ suffix := by
  rw [stripSuffix]
  split_ifs with h
  · obtain ⟨rest', rfl⟩ := h
    rw [List.length_append, Nat.add_sub_cancel, List.take_left, Option.some.injEq,
      List.append_left_inj, eq_comm]
  · refine iff_of_false (by simp) ?_
    rintro rfl
    exact h (List.suffix_append _ _)

/-- A text that is the id of an instance in a path. -/
structure IsId (id : String) : Prop where
  ne_nil : id.toList ≠ []
  slash : '/' ∉ id.toList

theorem nonemptySegment_eq_some {input : List Char} {id : String} :
    nonemptySegment input = some id ↔ input = id.toList ∧ IsId id := by
  rw [nonemptySegment]
  split_ifs with h
  · rw [Option.some.injEq]
    constructor
    · rintro rfl
      rw [← String.toList_ofList (l := input)] at h
      exact ⟨String.toList_ofList.symm, h.1, h.2⟩
    · rintro ⟨rfl, -⟩
      exact String.ofList_toList
  · refine iff_of_false (by simp) ?_
    rintro ⟨rfl, hid⟩
    exact h ⟨hid.ne_nil, hid.slash⟩

/-- The path of an instance. -/
def instancePath (id : String) : String := instancesPrefix ++ id

/-- The path for the ranges of an instance. -/
def ensureRangePath (id : String) : String := instancesPrefix ++ id ++ ensureRangeSuffix

/-- **The paths of instances.** -/
theorem instanceId_eq_some {path id : String} :
    instanceId path = some id ↔ path = instancePath id ∧ IsId id := by
  rw [instanceId, Option.bind_eq_some_iff, instancePath, ← String.toList_inj, String.toList_append]
  constructor
  · rintro ⟨rest, hrest, hsegment⟩
    obtain ⟨rfl, hid⟩ := nonemptySegment_eq_some.mp hsegment
    exact ⟨stripPrefix_eq_some.mp hrest, hid⟩
  · rintro ⟨hpath, hid⟩
    exact ⟨id.toList, stripPrefix_eq_some.mpr hpath, nonemptySegment_eq_some.mpr ⟨rfl, hid⟩⟩

/-- **The paths for the ranges of instances.** -/
theorem ensureRangeInstanceId_eq_some {path id : String} :
    ensureRangeInstanceId path = some id ↔ path = ensureRangePath id ∧ IsId id := by
  rw [ensureRangeInstanceId, Option.bind_eq_some_iff, ensureRangePath, ← String.toList_inj,
    String.toList_append, String.toList_append, List.append_assoc]
  constructor
  · rintro ⟨segment, hstrip, hsegment⟩
    obtain ⟨rfl, hid⟩ := nonemptySegment_eq_some.mp hsegment
    obtain ⟨rest, hrest, hsuffix⟩ := Option.bind_eq_some_iff.mp hstrip
    rw [← stripSuffix_eq_some.mp hsuffix]
    exact ⟨stripPrefix_eq_some.mp hrest, hid⟩
  · rintro ⟨hpath, hid⟩
    exact ⟨id.toList, Option.bind_eq_some_iff.mpr ⟨_, stripPrefix_eq_some.mpr hpath,
      stripSuffix_eq_some.mpr rfl⟩, nonemptySegment_eq_some.mpr ⟨rfl, hid⟩⟩

/-- The path of an instance is not one for the ranges of another. -/
theorem instancePath_ne_ensureRangePath {id : String} (h : IsId id) (id' : String) :
    instancePath id ≠ ensureRangePath id' := by
  intro heq
  have hlist := congrArg String.toList heq
  rw [instancePath, ensureRangePath, String.toList_append, String.toList_append,
    String.toList_append, List.append_assoc, List.append_right_inj] at hlist
  have hslash : '/' ∈ ensureRangeSuffix.toList := by decide
  exact h.slash (hlist ▸ List.mem_append_right _ hslash)

/-- A path with an id at its end or before its suffix has it for one route only. -/
theorem IsId.routes {id : String} (h : IsId id) :
    (instanceId (instancePath id) = some id ∧ ensureRangeInstanceId (instancePath id) = none) ∧
    ensureRangeInstanceId (ensureRangePath id) = some id ∧
      instanceId (ensureRangePath id) = none := by
  refine ⟨⟨instanceId_eq_some.mpr ⟨rfl, h⟩, ?_⟩, ensureRangeInstanceId_eq_some.mpr ⟨rfl, h⟩, ?_⟩
  · rw [Option.eq_none_iff_forall_ne_some]
    intro id' hid'
    exact instancePath_ne_ensureRangePath h id' (ensureRangeInstanceId_eq_some.mp hid').1
  · rw [Option.eq_none_iff_forall_ne_some]
    intro id' hid'
    obtain ⟨hpath, hid⟩ := instanceId_eq_some.mp hid'
    exact instancePath_ne_ensureRangePath hid id hpath.symm

theorem ensureRangePath_ne_prepare (id : String) :
    ensureRangePath id ≠ "/api/v1/images/prepare" := by
  intro heq
  have hlist := congrArg (fun path : String => path.toList.take 10) heq
  have hlen : 10 ≤ instancesPrefix.toList.length := by decide
  simp only [ensureRangePath, String.toList_append, List.append_assoc,
    List.take_append_of_le_length hlen] at hlist
  exact absurd hlist (by decide)

/-- The three requests with the id of an instance go to the instance. -/
theorem IsId.endpoint {id : String} (h : IsId id) :
    endpoint "PUT" (instancePath id) = .ok (.register id) ∧
    endpoint "DELETE" (instancePath id) = .ok (.unregister id) ∧
    endpoint "POST" (ensureRangePath id) = .ok (.ensureRange id) := by
  obtain ⟨⟨hinstance, -⟩, hrange, -⟩ := h.routes
  refine ⟨?_, ?_, ?_⟩
  · simp [Http.endpoint, hinstance]
  · simp [Http.endpoint, hinstance]
  · simp [Http.endpoint, hrange, ensureRangePath_ne_prepare]

/-! ### Messages with a path -/

/-- The message with another path. -/
def Message.withPath (m : Message) (path : String) (hne : path.toList ≠ [])
    (hword : IsWord path.toList) : Message :=
  { m with path := path, path_ne := hne, path_word := hword }

/-- The bytes of a message are parsed as it was written. -/
theorem Message.parseRequest_bytes (m : Message) :
    parseRequest m.bytes = .ok { method := m.method, path := m.path, body := m.body } := by
  have hhead : fromUtf8 (m.bytes.take (m.head.length - 4)) = .ok (joinLines m.lines) := by
    rw [m.take_bytes, fromUtf8_encode]
  simp only [parseRequest, m.findHeaderEnd_bytes, hhead, m.requestLine_lines]
  rw [Message.bytes, List.drop_left]

theorem Message.bytes_ne_nil (m : Message) : m.bytes ≠ [] := by
  intro hnil
  have hend := m.findHeaderEnd_bytes
  rw [hnil] at hend
  exact absurd hend (by simp [findHeaderEnd])

/-- A message that is sent in one piece. -/
def Message.oneRead (m : Message) (h : m.bytes.length ≤ 4096) : Stream where
  chunks := [⟨m.bytes, m.bytes_ne_nil, h⟩]
  failure := none

theorem Message.readRequest_oneRead (m : Message) (h : m.bytes.length ≤ 4096) :
    readRequest (m.oneRead h) =
      .ok ({ method := m.method, path := m.path, body := m.body }, []) := by
  have hlen : m.head.length + m.body.length = m.bytes.length := List.length_append.symm
  have hadd : U64.add m.head.length m.body.length = m.bytes.length := by
    rw [U64.add_eq (by rw [hlen]; exact lt_of_le_of_lt h (by decide)), hlen]
  have hhead : readHead none [] [⟨m.bytes, m.bytes_ne_nil, h⟩] =
      .ok (some (m.head.length, m.body.length), m.bytes, []) := by
    simp only [readHead, List.nil_append, m.parseHeaders_bytes]
  have hbody : readBody none m.bytes.length m.bytes [] = .ok (m.bytes, []) := by
    rw [readBody, if_neg (lt_irrefl _)]
  simp only [readRequest, Message.oneRead, hhead, bind, Except.bind, hadd, hbody,
    m.parseRequest_bytes, pure, Except.pure]

theorem instancePath_ne_nil (id : String) : (instancePath id).toList ≠ [] := by
  rw [instancePath, String.toList_append]
  exact List.append_ne_nil_of_left_ne_nil (by decide) _

theorem ensureRangePath_ne_nil (id : String) : (ensureRangePath id).toList ≠ [] := by
  rw [ensureRangePath, String.toList_append]
  exact List.append_ne_nil_of_left_ne_nil (instancePath_ne_nil id) _

/-- **An id that requests can name.** In any message, the path of the instance and the path for its
ranges are read as they were written, and each has the id for its own route and none for the other
one. -/
structure Addressable (id : String) : Prop where
  instance_word : IsWord (instancePath id).toList
  range_word : IsWord (ensureRangePath id).toList
  instance_parsed (m : Message) :
    parseRequest (m.withPath (instancePath id) (instancePath_ne_nil id) instance_word).bytes =
      .ok { method := m.method, path := instancePath id, body := m.body }
  range_parsed (m : Message) :
    parseRequest (m.withPath (ensureRangePath id) (ensureRangePath_ne_nil id) range_word).bytes =
      .ok { method := m.method, path := ensureRangePath id, body := m.body }
  instance_route : instanceId (instancePath id) = some id ∧
    ensureRangeInstanceId (instancePath id) = none
  range_route : ensureRangeInstanceId (ensureRangePath id) = some id ∧
    instanceId (ensureRangePath id) = none
  put : endpoint "PUT" (instancePath id) = .ok (.register id)
  delete : endpoint "DELETE" (instancePath id) = .ok (.unregister id)
  post : endpoint "POST" (ensureRangePath id) = .ok (.ensureRange id)

/-- An id without slashes and white space can be named. -/
theorem IsId.addressable {id : String} (h : IsId id) (hword : IsWord id.toList) :
    Addressable id := by
  have hinstances : IsWord instancesPrefix.toList := by decide
  have hsuffix : IsWord ensureRangeSuffix.toList := by decide
  have hinstance : IsWord (instancePath id).toList := by
    intro c hc
    rw [instancePath, String.toList_append, List.mem_append] at hc
    exact hc.elim (hinstances c) (hword c)
  have hrange : IsWord (ensureRangePath id).toList := by
    intro c hc
    rw [ensureRangePath, String.toList_append, List.mem_append] at hc
    exact hc.elim (hinstance c) (hsuffix c)
  exact {
    instance_word := hinstance
    range_word := hrange
    instance_parsed := fun m => Message.parseRequest_bytes _
    range_parsed := fun m => Message.parseRequest_bytes _
    instance_route := h.routes.1
    range_route := h.routes.2
    put := h.endpoint.1
    delete := h.endpoint.2.1
    post := h.endpoint.2.2 }

end Http

end Lazyd
