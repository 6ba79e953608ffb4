import Lazyd.Control.Responses
import Lazyd.Control.Routes
import Lazyd.Prepare.Runs
import Lazyd.Registry.Linearizable

/-!
# The control plane

A connection to the control socket is one request and one response. The request is decoded to an
action, the action is performed on the daemon, and its result is sent back. Bodies of requests are
decoded by the JSON library, which is not part of the daemon.

To its clients the daemon is a directory, as `Daemon.directory` has it. An action changes the
directory at the ids that it names only.

## Main definitions

* `Action`, `ControlPlane.decode` : what a request asks for.
* `Daemon.perform` : an action on the daemon.
* `ControlPlane`, `ControlPlane.handleRequest`, `ControlPlane.handleStream`.

## Main results

* `Daemon.perform_directory_of_notMem` : what an action does not name does not change.
* `Daemon.perform_grows` : only an `unregister` takes a configuration out.
* `ControlPlane.handleStream_cases` : everything that a connection can do.

Source: `src/control.rs`, lines 14–191.
-/

namespace Lazyd

open JsonBytes
open HeaderJson (key brace comma close isDigit_of_head?)

/-! ### Bodies -/

structure EnsureRangeRequest where
  offset : UInt64
  len : UInt64
  deriving DecidableEq, Repr

/-- `serde_json` on bodies: `from_slice` on those of requests, where an error is its text, `to_vec`
on those of responses, and how a client reads them. -/
structure BodyCodec where
  config : List UInt8 → Except String InstanceConfig
  prepare : List UInt8 → Except String PrepareImageRequest
  range : List UInt8 → Except String EnsureRangeRequest
  error : Http.ErrorCodec
  /-- a `DaemonInfo`, by its number of instances -/
  daemonInfo : ℕ → List UInt8
  instances : List UInt8 → Option ℕ
  instances_daemonInfo : ∀ n, instances (daemonInfo n) = some n
  prepareImageResponse : List PreparedLayer → List UInt8

/-- The compact encoding of a `DaemonInfo`. -/
def daemonInfo (instances : ℕ) : List UInt8 :=
  key brace "state" ++ (writeString (utf8 "running") ++ (key comma "instances" ++
    (writeNat instances ++ (key comma "io_backends" ++
      (writeArray ((["fanotify", "external"].map utf8).map writeString) ++
        (key comma "remote_backend" ++ (writeString (utf8 "oci-registry") ++ close)))))))

/-- The number of instances in a `DaemonInfo`. -/
def readDaemonInfo (bs : List UInt8) : Option ℕ := do
  let bs ← readLit (key brace "state") bs
  let bs ← readLit (writeString (utf8 "running")) bs
  let bs ← readLit (key comma "instances") bs
  let (instances, _) ← readNat bs
  some instances

theorem readDaemonInfo_daemonInfo (instances : ℕ) :
    readDaemonInfo (daemonInfo instances) = some instances := by
  have hcomma : isDigit comma = false := rfl
  simp only [readDaemonInfo, daemonInfo, readLit_append, Option.bind_eq_bind, Option.bind_some,
    readNat_writeNat instances (isDigit_of_head? hcomma _ _)]

/-- A layer of a `PrepareImageResponse`. -/
def writeLayer (layer : PreparedLayer) : List UInt8 :=
  key brace "index" ++ (writeNat layer.index.toNat ++ (key comma "sparse_path" ++
    (writeString (utf8 layer.sparsePath) ++ (key comma "bitmap_path" ++
      (writeString (utf8 layer.bitmapPath) ++ (key comma "blob_digest" ++
        (writeString (utf8 layer.blobDigest) ++ (key comma "blob_size" ++
          (writeNat layer.blobSize.toNat ++ (key comma "pmem_size" ++ (writeNat layer.pmemSize ++
            (key comma "media_type" ++ (writeString (utf8 layer.mediaType) ++
              (key comma "instance_id" ++
                (writeString (utf8 layer.instanceId) ++ close)))))))))))))))

/-- The compact encoding of a `PrepareImageResponse`. -/
def prepareImageResponse (layers : List PreparedLayer) : List UInt8 :=
  key brace "layers" ++ (writeArray (layers.map writeLayer) ++ close)

/-- `validate_prepare_request` -/
def validatePrepareRequest (request : PrepareImageRequest) : Except Error Unit :=
  if Oci.trim request.imageRef.toList = [] then .error (.badRequest "image_ref is required")
  else if request.layers = [] then .error (.badRequest "layers is required")
  else if request.fetch.unitBytes = 0 then
    .error (.badRequest "fetch.unit_bytes must be greater than zero")
  else if request.pmem.alignmentBytes = 0 then
    .error (.badRequest "pmem.alignment_bytes must be greater than zero")
  else .ok ()

/-! ### Actions -/

/-- What a request asks for. -/
inductive Action where
  | daemonInfo
  | prepareImage (request : PrepareImageRequest)
  | ensureRange (instanceId : String) (range : EnsureRangeRequest)
  | register (instanceId : String) (config : InstanceConfig)
  | unregister (instanceId : String)
  deriving DecidableEq, Repr

/-- The part of `handle_request` before it uses the registry. -/
def ControlPlane.decode (bodies : BodyCodec) (request : Http.Request) : Except Error Action :=
  match Http.endpoint request.method request.path with
  | .error err => .error err
  | .ok .daemonInfo => .ok .daemonInfo
  | .ok .prepareImage =>
    match bodies.prepare request.body with
    | .error msg => .error (.json msg)
    | .ok prepare => (validatePrepareRequest prepare).map fun _ => .prepareImage prepare
  | .ok (.ensureRange instanceId) =>
    match bodies.range request.body with
    | .error msg => .error (.json msg)
    | .ok range => .ok (.ensureRange instanceId range)
  | .ok (.register instanceId) =>
    match bodies.config request.body with
    | .error msg => .error (.json msg)
    | .ok config => .ok (.register instanceId { config with instanceId })
  | .ok (.unregister instanceId) => .ok (.unregister instanceId)

/-- What the environment answers while a connection is served. -/
structure RequestAnswers where
  register : Daemon.RegisterAnswers := {}
  unregister : MarkFaults := {}
  prepare : Daemon.ImageAnswers := {}
  ensure : List Instance.Event := []
  /-- where the write of the response ends, and its error -/
  write : Option (ℕ × IoError) := none

/-- The id that `prepare_image` registers for a layer. -/
def PrepareLayerDescriptor.instanceId (layer : PrepareLayerDescriptor) : String :=
  Prepare.instanceId (Prepare.cacheKey layer.digest)

/-- The ids that an action names. -/
def Action.ids : Action → Finset String
  | .daemonInfo | .ensureRange .. => ∅
  | .prepareImage request => (request.layers.map PrepareLayerDescriptor.instanceId).toFinset
  | .register instanceId _ => {instanceId}
  | .unregister instanceId => {instanceId}

namespace Daemon

variable (codec : HeaderCodec) (ino : String → FileKey) (bodies : BodyCodec)

/-- The part of `handle_request` that uses the registry, which has `count` instances. The task of a
connection is not cancelled. -/
def perform (imageCacheDir : String) (count : ℕ) (answers : RequestAnswers) (d : Daemon) :
    Action → Option (Except Error Http.Response × Daemon)
  | .daemonInfo => some (.ok (.json 200 (bodies.daemonInfo count)), d)
  | .prepareImage request =>
    match prepareImage codec ino imageCacheDir request answers.prepare d with
    | none => none
    | some (res, d) =>
      some (res.map fun layers => .json 200 (bodies.prepareImageResponse layers), d)
  | .ensureRange instanceId range =>
    match ensureRange d instanceId range.offset.toNat range.len.toNat answers.ensure with
    | some (.ok, d) => some (.ok (.empty 204), d)
    | some (.err err, d) => some (.error err, d)
    | some (.cancelled, _) | none => none
  | .register instanceId config =>
    match register codec ino d instanceId config answers.register with
    | none => none
    | some (res, d) => some (res.map fun _ => .empty 204, d)
  | .unregister instanceId =>
    let removed := unregister ino d instanceId answers.unregister
    some (removed.1.map fun _ => .empty 204, removed.2)

variable {codec ino bodies} {d d' : Daemon} {imageCacheDir : String} {count : ℕ}
  {answers : RequestAnswers} {action : Action} {res : Except Error Http.Response}

/-! ### What an action does to the directory -/

/-- The daemon after a call on an instance. -/
def used (d : Daemon) (instanceId : String) (live : Live) (s : Instance.Shared) : Daemon :=
  { d with
    files := { d.files with disk := s.disk }
    instances := Function.update d.instances instanceId
      (some { live with slots := s.slots, inflight := s.inflight }) }

theorem used_directory {instanceId : String} {live : Live}
    (hlive : d.instances instanceId = some live) (s : Instance.Shared) :
    (d.used instanceId live s).directory = d.directory := by
  funext id
  change (Function.update d.instances instanceId
    (some { live with slots := s.slots, inflight := s.inflight }) id).map _ = _
  rw [directory, Function.update_apply]
  split_ifs with hid
  · rw [hid, hlive]
    rfl
  · rfl

theorem ensureRange_directory {instanceId : String} {offset len : ℕ} {es : List Instance.Event}
    {out : Instance.Outcome} (h : ensureRange d instanceId offset len es = some (out, d')) :
    d'.directory = d.directory := by
  cases hlive : d.instances instanceId with
  | none =>
    simp only [ensureRange, hlive, Option.some.injEq, Prod.mk.injEq] at h
    rw [h.2]
  | some live =>
    obtain ⟨s, call, -, rfl⟩ := ensureRange_eq_some hlive h
    exact used_directory hlive s

/-- A registration registers the configuration that it is given. -/
theorem Registers.config_of_new {instanceId : String} {config : InstanceConfig}
    {answers : RegisterAnswers} {res : Except Error Unit}
    (h : Registers codec ino d instanceId config answers res d') {live : Live}
    (hfree : d.instances instanceId = none) (hlive : d'.instances instanceId = some live) :
    live.inst.config = { config with instanceId } := by
  cases h with
  | unchanged | notOpened => exact absurd (hlive.symm.trans hfree) (by simp)
  | notMarked _ hopen hmark =>
    rw [(markTarget_files hmark).2] at hlive
    exact absurd (hlive.symm.trans hfree) (by simp)
  | @registered live' _ d₃ _ hopen hmark =>
    change Function.update d₃.instances instanceId (some live') instanceId = some live at hlive
    rw [Function.update_self, Option.some.injEq] at hlive
    rw [← hlive, (openInstance_target hopen).1]

/-- `prepare_image` registers an instance for each layer, and no other one. -/
theorem prepareImage_instances {cacheRoot : String} {request : PrepareImageRequest}
    {answers : ImageAnswers} {res : Except Error (List PreparedLayer)}
    (h : prepareImage codec ino cacheRoot request answers d = some (res, d')) :
    (∀ id live, d.instances id = some live → d'.instances id = some live) ∧
    (∀ id live, d.instances id = none → d'.instances id = some live →
      ∃ layer ∈ request.layers, layer.instanceId = id ∧ live.inst.config =
        imageConfig cacheRoot request layer) ∧
    ∀ layers, res = .ok layers →
      ∀ layer ∈ request.layers, RegisteredFor cacheRoot request layer d' := by
  unfold prepareImage at h
  split at h
  · exact absurd h (by simp)
  · obtain ⟨rfl, rfl⟩ := Prod.mk.inj (Option.some.inj h)
    refine ⟨fun _ _ hlive => hlive, fun id live hfree hlive => ?_, by simp⟩
    exact absurd (hlive.symm.trans hfree) (by simp)
  · rename_i prepared files hprepare
    have hall : List.Forall₂ (fun layer p => ∃ n, Prepare.layerPmemSize request layer = .ok n ∧
        p = Prepare.preparedLayer cacheRoot layer n) request.layers prepared := by
      rw [Prepare.prepareCacheLayers] at hprepare
      split at hprepare
      · exact absurd hprepare (by simp)
      · exact Prepare.prepareLayers_prepared hprepare
    have hzip : ∀ q ∈ request.layers.zip prepared,
        ∃ n, q.2 = Prepare.preparedLayer cacheRoot q.1 n := by
      rintro ⟨layer, p⟩ hq
      obtain ⟨n, -, hn⟩ := (List.forall₂_iff_zip.mp hall).2 hq
      exact ⟨n, hn⟩
    -- the files have changed by now, and the registry has not
    have hregistered {res : Except Error Unit}
        (hregister : registerLayers codec ino cacheRoot request (request.layers.zip prepared)
          answers.registers { d with files } = some (res, d')) :
        (∀ id live, d.instances id = some live → d'.instances id = some live) ∧
        ∀ id live, d.instances id = none → d'.instances id = some live →
          ∃ layer ∈ request.layers, layer.instanceId = id ∧ live.inst.config =
            imageConfig cacheRoot request layer := by
      refine ⟨fun id live hlive => registerLayers_instances_some hregister hlive,
        fun id live hfree hlive => ?_⟩
      obtain ⟨done, q, rest, d₁, d₂, hsplit, -, hid, hfree₁, hfirst, hlive₂⟩ :=
        registerLayers_inserts hregister hfree hlive
      have hq : q ∈ request.layers.zip prepared :=
        hsplit ▸ List.mem_append_right _ List.mem_cons_self
      obtain ⟨n, hn⟩ := hzip q hq
      have hname : q.2.instanceId = q.1.instanceId := by
        rw [hn]
        rfl
      refine ⟨q.1, (List.of_mem_zip hq).1, hname.symm.trans hid, ?_⟩
      rw [(Registers.of_register hfirst).config_of_new hfree₁ hlive₂, imageConfig, entryConfig, hn,
        ← hid, hname]
      rfl
    split at h
    · exact absurd h (by simp)
    · rename_i hregister
      obtain ⟨rfl, rfl⟩ := Prod.mk.inj (Option.some.inj h)
      exact ⟨(hregistered hregister).1, (hregistered hregister).2, by simp⟩
    · rename_i hregister
      obtain ⟨rfl, rfl⟩ := Prod.mk.inj (Option.some.inj h)
      refine ⟨(hregistered hregister).1, (hregistered hregister).2, fun _ _ layer hlayer => ?_⟩
      obtain ⟨p, hq, -⟩ := Prepare.exists_mem_zip hall hlayer
      exact registerLayers_registered hzip hregister (layer, p) hq

/-- An `unregister` takes the id out, whatever it returns. -/
theorem unregister_instances (instanceId : String) (faults : MarkFaults) :
    (unregister ino d instanceId faults).2.instances =
      Function.update d.instances instanceId none := by
  unfold unregister
  split
  · rename_i hnone
    exact (hnone ▸ (Function.update_eq_self instanceId d.instances)).symm
  · rw [(unmarkTarget_files _ _ _ _).2]

/-- **What an action does not name does not change.** -/
theorem perform_directory_of_notMem
    (h : perform codec ino bodies imageCacheDir count answers d action = some (res, d'))
    {id : String} (hid : id ∉ action.ids) : d'.directory id = d.directory id := by
  cases action with
  | daemonInfo =>
    obtain ⟨-, rfl⟩ := Prod.mk.inj (Option.some.inj h)
    rfl
  | prepareImage request =>
    simp only [perform] at h
    split at h
    · exact absurd h (by simp)
    · rename_i hprepare
      obtain ⟨-, rfl⟩ := Prod.mk.inj (Option.some.inj h)
      obtain ⟨hkept, hnew, -⟩ := prepareImage_instances hprepare
      rw [Action.ids, List.mem_toFinset, List.mem_map] at hid
      rw [directory, directory]
      refine congrArg _ ?_
      cases hlive : d.instances id with
      | some live => exact hkept id live hlive
      | none =>
        rw [Option.eq_none_iff_forall_ne_some]
        intro live hlive'
        obtain ⟨layer, hlayer, hname, -⟩ := hnew id live hlive hlive'
        exact hid ⟨layer, hlayer, hname⟩
  | ensureRange instanceId range =>
    simp only [perform] at h
    split at h
    · rename_i hensure
      obtain ⟨-, rfl⟩ := Prod.mk.inj (Option.some.inj h)
      rw [ensureRange_directory hensure]
    · rename_i hensure
      obtain ⟨-, rfl⟩ := Prod.mk.inj (Option.some.inj h)
      rw [ensureRange_directory hensure]
    · exact absurd h (by simp)
    · exact absurd h (by simp)
  | register instanceId config =>
    simp only [perform] at h
    split at h
    · exact absurd h (by simp)
    · rename_i hregister
      obtain ⟨-, rfl⟩ := Prod.mk.inj (Option.some.inj h)
      rw [Action.ids, Finset.mem_singleton] at hid
      rw [directory, directory, (Registers.of_register hregister).instances_of_ne hid]
  | unregister instanceId =>
    have hd : (unregister ino d instanceId answers.unregister).2 = d' :=
      (Prod.mk.inj (Option.some.inj h)).2
    rw [Action.ids, Finset.mem_singleton] at hid
    rw [← hd, directory, directory, unregister_instances, Function.update_of_ne hid]

theorem unregister_directory (instanceId : String) (faults : MarkFaults) :
    (unregister ino d instanceId faults).2.directory instanceId = none := by
  rw [directory, unregister_instances, Function.update_self, Option.map_none]

/-- **Only an `unregister` takes a configuration out.** -/
theorem perform_grows
    (h : perform codec ino bodies imageCacheDir count answers d action = some (res, d'))
    {id : String} {config : InstanceConfig} (hid : d.directory id = some config)
    (haction : action ≠ .unregister id) : d'.directory id = some config := by
  by_cases hmem : id ∈ action.ids
  · obtain ⟨live, hlive, hconfig⟩ := directory_eq_some.mp hid
    refine directory_eq_some.mpr ⟨live, ?_, hconfig⟩
    cases action with
    | daemonInfo | ensureRange => exact absurd hmem (Finset.notMem_empty _)
    | prepareImage request =>
      simp only [perform] at h
      split at h
      · exact absurd h (by simp)
      · rename_i hprepare
        obtain ⟨-, rfl⟩ := Prod.mk.inj (Option.some.inj h)
        exact (prepareImage_instances hprepare).1 id live hlive
    | register instanceId config' =>
      simp only [perform] at h
      split at h
      · exact absurd h (by simp)
      · rename_i hregister
        obtain ⟨-, rfl⟩ := Prod.mk.inj (Option.some.inj h)
        exact (Registers.of_register hregister).instances_some hlive
    | unregister instanceId =>
      rw [Action.ids, Finset.mem_singleton] at hmem
      exact absurd (congrArg Action.unregister hmem.symm) haction
  · rw [perform_directory_of_notMem h hmem, hid]

end Daemon

/-! ### The control plane -/

/-- `ControlPlane`, with the ids that are registered. -/
structure ControlPlane where
  daemon : Daemon
  ids : Finset String
  imageCacheDir : String := "/var/lib/lazyd/images"
  mem_ids : ∀ id, id ∈ ids ↔ (daemon.directory id).isSome

namespace ControlPlane

/-- The control plane of a daemon that has just been started. -/
def start (files : Files) (fanotify : Option FanotifyBackend) (imageCacheDir : String) :
    ControlPlane where
  daemon := Daemon.start files fanotify
  ids := ∅
  imageCacheDir := imageCacheDir
  mem_ids id := iff_of_false (Finset.notMem_empty id) (by simp [Daemon.start, Daemon.directory])

/-- The control plane after a change of the daemon at some ids. -/
def after (cp : ControlPlane) (ids : Finset String) (d : Daemon)
    (h : ∀ id ∉ ids, d.directory id = cp.daemon.directory id) : ControlPlane where
  daemon := d
  ids := (cp.ids ∪ ids).filter fun id => (d.directory id).isSome
  imageCacheDir := cp.imageCacheDir
  mem_ids id := by
    rw [Finset.mem_filter, Finset.mem_union]
    refine and_iff_right_of_imp fun hsome => ?_
    by_cases hid : id ∈ ids
    · exact Or.inr hid
    · rw [h id hid] at hsome
      exact Or.inl ((cp.mem_ids id).mpr hsome)

variable (codec : HeaderCodec) (ino : String → FileKey) (bodies : BodyCodec)
  (ioText : IoError → String) (cp : ControlPlane)

/-- `ControlPlane::handle_request` -/
def handleRequest (request : Http.Request) (answers : RequestAnswers) :
    Option (Except Error Http.Response × ControlPlane) :=
  match decode bodies request with
  | .error err => some (.error err, cp)
  | .ok action =>
    match h : cp.daemon.perform codec ino bodies cp.imageCacheDir cp.ids.card answers action with
    | none => none
    | some (res, d) =>
      some (res, cp.after action.ids d fun _ hid => Daemon.perform_directory_of_notMem h hid)

/-- `ControlPlane::handle_stream`, with the bytes that are sent. -/
def handleStream (stream : Http.Stream) (answers : RequestAnswers) :
    Option (Except Error Unit × List UInt8 × ControlPlane) :=
  match Http.readRequest stream with
  | .error err => some (.error err, [], cp)
  | .ok (request, _) =>
    match cp.handleRequest codec ino bodies request answers with
    | none => none
    | some (response, cp) =>
      match answers.write with
      | none => some (.ok (), Http.renderResponse bodies.error ioText response, cp)
      | some (n, err) =>
        some (.error (.io err), (Http.renderResponse bodies.error ioText response).take n, cp)

/-! ### What a connection can do -/

variable {codec ino bodies ioText cp} {cp' : ControlPlane} {answers : RequestAnswers}

/-- **Everything that a request can do.** It is refused before the registry is used, or its action
is performed. -/
theorem handleRequest_cases {request : Http.Request} {res : Except Error Http.Response}
    (h : cp.handleRequest codec ino bodies request answers = some (res, cp')) :
    (∃ err, decode bodies request = .error err ∧ res = .error err ∧ cp' = cp) ∨
    ∃ action, decode bodies request = .ok action ∧
      cp.daemon.perform codec ino bodies cp.imageCacheDir cp.ids.card answers action =
        some (res, cp'.daemon) ∧ cp'.imageCacheDir = cp.imageCacheDir := by
  unfold handleRequest at h
  split at h
  · rename_i hdecode
    obtain ⟨rfl, rfl⟩ := Prod.mk.inj (Option.some.inj h)
    exact Or.inl ⟨_, hdecode, rfl, rfl⟩
  · rename_i action hdecode
    split at h
    · exact absurd h (by simp)
    · rename_i hperform
      obtain ⟨rfl, rfl⟩ := Prod.mk.inj (Option.some.inj h)
      exact Or.inr ⟨action, hdecode, hperform, rfl⟩

/-- A response with success is one of `Response::empty` or of `Response::json`. -/
theorem perform_plain {d d' : Daemon} {imageCacheDir : String} {count : ℕ} {action : Action}
    {res : Except Error Http.Response}
    (h : d.perform codec ino bodies imageCacheDir count answers action = some (res, d')) :
    (Http.responseOf bodies.error ioText res).Plain := by
  have hsuccess {α : Type} {out : Except Error α} {make : α → Http.Response}
      (hmake : ∀ a, (make a).Plain) :
      (Http.responseOf bodies.error ioText (out.map make)).Plain := by
    cases out with
    | error err => exact Http.plain_responseOf_error bodies.error ioText err
    | ok a => exact hmake a
  have hempty : (Http.Response.empty 204).Plain := Http.plain_empty (by decide)
  cases action with
  | daemonInfo =>
    obtain ⟨rfl, -⟩ := Prod.mk.inj (Option.some.inj h)
    exact Http.plain_json (by decide) _
  | prepareImage request =>
    simp only [Daemon.perform] at h
    split at h
    · exact absurd h (by simp)
    · obtain ⟨rfl, -⟩ := Prod.mk.inj (Option.some.inj h)
      exact hsuccess fun layers => Http.plain_json (by decide) _
  | ensureRange instanceId range =>
    simp only [Daemon.perform] at h
    split at h
    · obtain ⟨rfl, -⟩ := Prod.mk.inj (Option.some.inj h)
      exact hempty
    · obtain ⟨rfl, -⟩ := Prod.mk.inj (Option.some.inj h)
      exact Http.plain_responseOf_error bodies.error ioText _
    · exact absurd h (by simp)
    · exact absurd h (by simp)
  | register instanceId config =>
    simp only [Daemon.perform] at h
    split at h
    · exact absurd h (by simp)
    · obtain ⟨rfl, -⟩ := Prod.mk.inj (Option.some.inj h)
      exact hsuccess fun _ => hempty
  | unregister instanceId =>
    obtain ⟨rfl, -⟩ := Prod.mk.inj (Option.some.inj h)
    exact hsuccess fun _ => hempty

theorem handleRequest_plain {request : Http.Request} {res : Except Error Http.Response}
    (h : cp.handleRequest codec ino bodies request answers = some (res, cp')) :
    (Http.responseOf bodies.error ioText res).Plain := by
  rcases handleRequest_cases h with ⟨err, -, rfl, -⟩ | ⟨action, -, hperform, -⟩
  · exact Http.plain_responseOf_error bodies.error ioText err
  · exact perform_plain hperform

/-- **Everything that a connection can do.** A request that cannot be read changes nothing and gets
no response; for any other one, as much of its response is sent as is written before an error. -/
theorem handleStream_cases {stream : Http.Stream} {res : Except Error Unit} {sent : List UInt8}
    (h : cp.handleStream codec ino bodies ioText stream answers = some (res, sent, cp')) :
    (∃ err, Http.readRequest stream = .error err ∧ sent = [] ∧ cp' = cp) ∨
    ∃ request rest response n, Http.readRequest stream = .ok (request, rest) ∧
      cp.handleRequest codec ino bodies request answers = some (response, cp') ∧
      sent = (Http.renderResponse bodies.error ioText response).take n := by
  unfold handleStream at h
  split at h
  · rename_i err hread
    obtain ⟨-, hrest⟩ := Prod.mk.inj (Option.some.inj h)
    obtain ⟨rfl, rfl⟩ := Prod.mk.inj hrest
    exact Or.inl ⟨err, hread, rfl, rfl⟩
  · rename_i request rest hread
    split at h
    · exact absurd h (by simp)
    · rename_i response cp₁ hhandle
      split at h
      · obtain ⟨-, hrest⟩ := Prod.mk.inj (Option.some.inj h)
        obtain ⟨rfl, rfl⟩ := Prod.mk.inj hrest
        exact Or.inr ⟨request, rest, response, _, hread, hhandle, List.take_length.symm⟩
      · rename_i n err _
        obtain ⟨-, hrest⟩ := Prod.mk.inj (Option.some.inj h)
        obtain ⟨rfl, rfl⟩ := Prod.mk.inj hrest
        exact Or.inr ⟨request, rest, response, n, hread, hhandle, rfl⟩

end ControlPlane

end Lazyd
