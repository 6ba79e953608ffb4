import Lazyd.Control.ControlPlane
import Lazyd.Library.Log

/-!
# What clients of the control socket can rely on

`serve` spawns a task for each connection. This module is about runs in which the connections are
taken one at a time. A client knows what it has sent and what it has read off the bytes that were
sent back, maybe none. From this it can tell what is registered: a registration that is acknowledged
stays until the id is unregistered, and nothing is registered that no client has asked for since
then.

## Main definitions

* `ControlPlane.Served`, `ControlPlane.Serves` : a connection that has been served.
* `Action.Wants`, `Action.success` : what an action registers, and the status that acknowledges it.
* `ControlPlane.Acknowledged`, `ControlPlane.Wanted` : what the clients know of a configuration.

## Main results

* `ControlPlane.acknowledged_stays`, `ControlPlane.registered_wanted`,
  `ControlPlane.daemonInfo_counts`.

Source: `src/control.rs`, lines 80–191 and 344–348.
-/

namespace Lazyd

/-- The instances that an action registers, with their configurations. -/
def Action.Wants (imageCacheDir : String) (id : String) (config : InstanceConfig) : Action → Prop
  | .register instanceId config' => instanceId = id ∧ config = { config' with instanceId }
  | .prepareImage request => ∃ layer ∈ request.layers, layer.instanceId = id ∧
      config = Daemon.imageConfig imageCacheDir request layer
  | .daemonInfo | .ensureRange .. | .unregister _ => False

/-- The status of an action that succeeds. -/
def Action.success : Action → ℕ
  | .daemonInfo | .prepareImage _ => 200
  | .ensureRange .. | .register .. | .unregister _ => 204

namespace Daemon

variable {codec : HeaderCodec} {ino : String → FileKey} {d d' : Daemon} {imageCacheDir : String}
  {count : ℕ} {answers : RequestAnswers} {action : Action} {res : Except Error Http.Response}

/-- **An action that succeeds has registered what it wants.** -/
theorem perform_wants {response : Http.Response}
    (h : perform codec ino bodies imageCacheDir count answers d action = some (.ok response, d'))
    {id : String} {config : InstanceConfig} (hwants : action.Wants imageCacheDir id config) :
    ∃ config', d'.directory id = some config' ∧ config'.same config = true := by
  cases action with
  | daemonInfo | ensureRange | unregister => exact hwants.elim
  | prepareImage request =>
    obtain ⟨layer, hlayer, rfl, rfl⟩ := hwants
    simp only [perform] at h
    split at h
    · exact absurd h (by simp)
    · rename_i out d₁ hprepare
      cases out with
      | error err => exact absurd h (by simp [Except.map])
      | ok layers =>
        obtain ⟨-, rfl⟩ := Prod.mk.inj (Option.some.inj h)
        obtain ⟨live, hlive, hsame⟩ := (prepareImage_instances hprepare).2.2 layers rfl layer hlayer
        exact ⟨_, directory_eq_some.mpr ⟨live, hlive, rfl⟩, hsame⟩
  | register instanceId config' =>
    obtain ⟨rfl, rfl⟩ := hwants
    simp only [perform] at h
    split at h
    · exact absurd h (by simp)
    · rename_i out d₁ hregister
      cases out with
      | error err => exact absurd h (by simp [Except.map])
      | ok =>
        obtain ⟨-, rfl⟩ := Prod.mk.inj (Option.some.inj h)
        obtain ⟨live, hlive, hsame⟩ := register_ok_same hregister
        exact ⟨_, directory_eq_some.mpr ⟨live, hlive, rfl⟩, hsame⟩

/-- **A new configuration is one that the action wants.** -/
theorem perform_new
    (h : perform codec ino bodies imageCacheDir count answers d action = some (res, d'))
    {id : String} {config : InstanceConfig} (hfree : d.directory id = none)
    (hid : d'.directory id = some config) : action.Wants imageCacheDir id config := by
  obtain ⟨live, hlive, rfl⟩ := directory_eq_some.mp hid
  have hnone : d.instances id = none := Option.map_eq_none_iff.mp hfree
  cases action with
  | daemonInfo | ensureRange =>
    rw [perform_directory_of_notMem h (Finset.notMem_empty id), hfree] at hid
    exact absurd hid (by simp)
  | prepareImage request =>
    simp only [perform] at h
    split at h
    · exact absurd h (by simp)
    · rename_i hprepare
      obtain ⟨-, rfl⟩ := Prod.mk.inj (Option.some.inj h)
      obtain ⟨layer, hlayer, hname, hconfig⟩ :=
        (prepareImage_instances hprepare).2.1 id live hnone hlive
      exact ⟨layer, hlayer, hname, hconfig⟩
  | register instanceId config =>
    by_cases hname : id ∈ ({instanceId} : Finset String)
    · obtain rfl := Finset.mem_singleton.mp hname
      simp only [perform] at h
      split at h
      · exact absurd h (by simp)
      · rename_i hregister
        obtain ⟨-, rfl⟩ := Prod.mk.inj (Option.some.inj h)
        exact ⟨rfl, (Registers.of_register hregister).config_of_new hnone hlive⟩
    · rw [perform_directory_of_notMem h hname, hfree] at hid
      exact absurd hid (by simp)
  | unregister instanceId =>
    have hd : (unregister ino d instanceId answers.unregister).2 = d' :=
      (Prod.mk.inj (Option.some.inj h)).2
    rw [← hd, unregister_instances] at hlive
    by_cases hname : id = instanceId
    · rw [hname, Function.update_self] at hlive
      exact absurd hlive (by simp)
    · rw [Function.update_of_ne hname, hnone] at hlive
      exact absurd hlive (by simp)

theorem success_ne_statusCode (action : Action) (err : Error) :
    err.statusCode ≠ action.success := by
  have hsuccess : action.success < 400 := by
    cases action <;> simp [Action.success]
  have herr : 400 ≤ err.statusCode := by
    cases err <;> simp [Error.statusCode]
  omega

end Daemon

namespace ControlPlane

variable (codec : HeaderCodec) (ino : String → FileKey) (bodies : BodyCodec)
  (ioText : IoError → String)

/-! ### Connections -/

/-- A connection that has been served, as its client sees it. -/
structure Served where
  stream : Http.Stream
  sent : List UInt8

/-- The action that the client has asked for. -/
def Served.action (served : Served) : Option Action :=
  match Http.readRequest served.stream with
  | .error _ => none
  | .ok (request, _) => (decode bodies request).toOption

/-- What the client reads. -/
def Served.reply (served : Served) : Option Http.Reply := Http.readReply served.sent

/-- A connection is served. -/
def Serves (cp : ControlPlane) (served : Served) (cp' : ControlPlane) : Prop :=
  ∃ answers res, cp.handleStream codec ino bodies ioText served.stream answers =
    some (res, served.sent, cp')

variable {codec ino bodies ioText} {cp₀ cp cp' : ControlPlane} {answers : RequestAnswers}

/-- A connection without an action changes nothing, and one with an action performs it. -/
theorem handleStream_action {stream : Http.Stream} {res : Except Error Unit} {sent : List UInt8}
    (h : cp.handleStream codec ino bodies ioText stream answers = some (res, sent, cp')) :
    cp'.imageCacheDir = cp.imageCacheDir ∧
    ((Served.action bodies ⟨stream, sent⟩ = none ∧ cp' = cp) ∨
    ∃ action response, Served.action bodies ⟨stream, sent⟩ = some action ∧
      cp.daemon.perform codec ino bodies cp.imageCacheDir cp.ids.card answers action =
        some (response, cp'.daemon) ∧
      ∀ reply, Served.reply ⟨stream, sent⟩ = some reply →
        reply.status = (Http.responseOf bodies.error ioText response).status ∧
          reply.body = (Http.responseOf bodies.error ioText response).body) := by
  rcases handleStream_cases h with ⟨err, hread, rfl, rfl⟩ |
    ⟨request, rest, response, n, hread, hhandle, rfl⟩
  · refine ⟨rfl, Or.inl ⟨?_, rfl⟩⟩
    simp only [Served.action, hread]
  · have hplain : (Http.responseOf bodies.error ioText response).Plain :=
      handleRequest_plain hhandle
    rcases handleRequest_cases hhandle with
        ⟨err, hdecode, -, rfl⟩ | ⟨action, hdecode, hperform, hdir⟩
    · refine ⟨rfl, Or.inl ⟨?_, rfl⟩⟩
      simp only [Served.action, hread, hdecode, Except.toOption]
    · refine ⟨hdir, Or.inr ⟨action, response, ?_, hperform, fun reply hreply => ?_⟩⟩
      · simp only [Served.action, hread, hdecode, Except.toOption]
      · have htake := hplain.readReply_take [] n
        rw [List.append_nil] at htake
        have hread : Http.readReply ((Http.renderResponse bodies.error ioText response).take n) =
            some reply := hreply
        rw [Http.renderResponse, htake] at hread
        split_ifs at hread
        obtain rfl := Option.some.inj hread
        exact ⟨rfl, rfl⟩

theorem imageCacheDir_served {log : List Served}
    (h : Logged (Serves codec ino bodies ioText) cp₀ log cp) :
    cp.imageCacheDir = cp₀.imageCacheDir := by
  refine h.invariant (I := fun cp => cp.imageCacheDir = cp₀.imageCacheDir) rfl ?_
  rintro cp served cp' ih ⟨answers, res, hserve⟩
  exact (handleStream_action hserve).1.trans ih

/-- What is registered stays, if the id is not unregistered. -/
theorem Serves.directory_some {served : Served} (h : Serves codec ino bodies ioText cp served cp')
    {id : String} {config : InstanceConfig} (hid : cp.daemon.directory id = some config)
    (hserved : served.action bodies ≠ some (.unregister id)) :
    cp'.daemon.directory id = some config := by
  obtain ⟨answers, res, hserve⟩ := h
  rcases (handleStream_action hserve).2 with ⟨-, rfl⟩ | ⟨action, response, haction, hperform, -⟩
  · exact hid
  · refine Daemon.perform_grows hperform hid ?_
    rintro rfl
    exact hserved haction

/-! ### What the clients know -/

/-- A client has read that its request for the configuration has succeeded, and no client has asked
to unregister the id since then. -/
def Acknowledged (bodies : BodyCodec) (imageCacheDir : String) (log : List Served) (id : String)
    (config : InstanceConfig) : Prop :=
  ∃ before served after action reply, log = before ++ served :: after ∧
    served.action bodies = some action ∧ served.reply = some reply ∧ reply.status = action.success ∧
    action.Wants imageCacheDir id config ∧
    ∀ later ∈ after, later.action bodies ≠ some (.unregister id)

/-- A client has asked for the configuration, and no client has asked to unregister the id since
then. -/
def Wanted (bodies : BodyCodec) (imageCacheDir : String) (log : List Served) (id : String)
    (config : InstanceConfig) : Prop :=
  ∃ before served after action, log = before ++ served :: after ∧
    served.action bodies = some action ∧ action.Wants imageCacheDir id config ∧
    ∀ later ∈ after, later.action bodies ≠ some (.unregister id)

theorem Acknowledged.registered {log : List Served} {id : String} {config : InstanceConfig}
    (h : Acknowledged bodies cp₀.imageCacheDir log id config)
    (hrun : Logged (Serves codec ino bodies ioText) cp₀ log cp) :
    ∃ config', cp.daemon.directory id = some config' ∧ config'.same config = true := by
  obtain ⟨before, served, after, action, reply, hlog, haction, hreply, hstatus, hwants, hafter⟩ := h
  refine hrun.since (I := fun cp => ∃ config', cp.daemon.directory id = some config' ∧
    config'.same config = true) hlog ?_ hafter ?_
  · rintro cp₁ cp₂ hbefore ⟨answers, res, hserve⟩
    obtain ⟨-, ⟨hnone, -⟩ | ⟨action', response, haction', hperform, hread⟩⟩ :=
      handleStream_action hserve
    · exact absurd (haction.symm.trans hnone) (by simp)
    · obtain rfl := Option.some.inj (haction.symm.trans haction')
      rw [imageCacheDir_served hbefore] at hperform
      cases response with
      | error err =>
        have hcode : err.statusCode = action.success := (hread reply hreply).1.symm.trans hstatus
        exact absurd hcode (Daemon.success_ne_statusCode action err)
      | ok response => exact Daemon.perform_wants hperform hwants
  · rintro cp later cp' ⟨config', hconfig', hsame⟩ hlater hserves
    exact ⟨config', hserves.directory_some hconfig' hlater, hsame⟩

theorem Wanted.snoc {log : List Served} {last : Served} {dir id : String} {config : InstanceConfig}
    (h : Wanted bodies dir log id config) (hlast : last.action bodies ≠ some (.unregister id)) :
    Wanted bodies dir (log ++ [last]) id config := by
  obtain ⟨before, served, after, action, rfl, haction, hwants, hafter⟩ := h
  refine ⟨before, served, after ++ [last], action, ?_, haction, hwants, ?_⟩
  · rw [List.append_assoc, List.cons_append]
  · intro later hlater
    rcases List.mem_append.mp hlater with hlater | hlater
    · exact hafter later hlater
    · rw [List.mem_singleton.mp hlater]
      exact hlast

variable {files : Files} {fanotify : Option FanotifyBackend} {dir : String}

theorem wanted_of_registered {log : List Served}
    (hrun : Logged (Serves codec ino bodies ioText) (start files fanotify dir) log cp) {id : String}
    {config : InstanceConfig} (hid : cp.daemon.directory id = some config) :
    Wanted bodies dir log id config := by
  induction hrun with
  | nil => exact absurd hid (by simp [start, Daemon.start, Daemon.directory])
  | @snoc log cp cp' last hrun hserve ih =>
    have hdir : cp.imageCacheDir = dir := imageCacheDir_served hrun
    obtain ⟨answers, res, hserve⟩ := hserve
    obtain ⟨-, ⟨hnone, rfl⟩ | ⟨action, response, haction, hperform, -⟩⟩ :=
      handleStream_action hserve
    · exact (ih hid).snoc (by rw [hnone]; simp)
    · rw [hdir] at hperform
      cases hbefore : cp.daemon.directory id with
      | none =>
        exact ⟨log, last, [], action, rfl, haction,
          Daemon.perform_new hperform hbefore hid, by simp⟩
      | some config' =>
        by_cases hunregister : action = .unregister id
        · subst hunregister
          have hd := (Prod.mk.inj (Option.some.inj hperform)).2
          rw [← hd, Daemon.unregister_directory] at hid
          exact absurd hid (by simp)
        · have hsame := Daemon.perform_grows hperform hbefore hunregister
          obtain rfl := Option.some.inj (hsame.symm.trans hid)
          refine (ih hbefore).snoc fun hno => hunregister ?_
          exact Option.some.inj (haction.symm.trans hno)

/-- What a connection for `GET /api/v1/daemon` reads and leaves behind. -/
theorem Serves.daemonInfo {served : Served} {reply : Http.Reply}
    (h : Serves codec ino bodies ioText cp served cp')
    (haction : served.action bodies = some .daemonInfo)
    (hreply : served.reply = some reply) :
    reply.status = 200 ∧ bodies.instances reply.body = some cp.ids.card ∧
    cp'.daemon = cp.daemon := by
  obtain ⟨answers, res, hserve⟩ := h
  obtain ⟨-, ⟨hnone, -⟩ | ⟨action', response, haction', hperform, hread⟩⟩ :=
    handleStream_action hserve
  · exact absurd (haction.symm.trans hnone) (by simp)
  · obtain rfl := Option.some.inj (haction.symm.trans haction')
    obtain ⟨rfl, hd⟩ := Prod.mk.inj (Option.some.inj hperform)
    obtain ⟨hstatus, hbody⟩ := hread reply hreply
    refine ⟨hstatus, ?_, hd.symm⟩
    rw [hbody]
    exact bodies.instances_daemonInfo _

/-- **Acknowledged registrations stay.** When a client has read that its registration has succeeded,
or its preparation of an image, each instance that it has asked for is registered with its
configuration, and stays so as long as no client asks to unregister the id. -/
theorem acknowledged_stays {log before after : List Served} {served : Served} {action : Action}
    {reply : Http.Reply} {id : String} {config : InstanceConfig}
    (hrun : Logged (Serves codec ino bodies ioText) cp₀ log cp)
    (hlog : log = before ++ served :: after)
    (haction : served.action bodies = some action) (hreply : served.reply = some reply)
    (hstatus : reply.status = action.success)
    (hwants : action.Wants cp₀.imageCacheDir id config)
    (hafter : ∀ later ∈ after, later.action bodies ≠ some (.unregister id)) :
    ∃ config', cp.daemon.directory id = some config' ∧ config'.same config = true :=
  Acknowledged.registered
    ⟨before, served, after, action, reply, hlog, haction, hreply, hstatus, hwants, hafter⟩ hrun

/-- **What is registered has been asked for.** On a daemon that has just been started, each
configuration that is registered is one that a client has asked for, and no client has asked to
unregister the id since then. -/
theorem registered_wanted {log : List Served}
    (hrun : Logged (Serves codec ino bodies ioText) (start files fanotify dir) log cp) {id : String}
    {config : InstanceConfig} (hid : cp.daemon.directory id = some config) :
    ∃ before served after action, log = before ++ served :: after ∧
      served.action bodies = some action ∧ action.Wants dir id config ∧
      ∀ later ∈ after, later.action bodies ≠ some (.unregister id) :=
  wanted_of_registered hrun hid

/-- **The number of instances.** In every run from the start of the daemon through a connection for
`GET /api/v1/daemon` to whatever is served after it, what its client reads is the number of the ids
that are registered in the state in which it is served, and the connection changes none of them. It
is at least the number of the ids that have been acknowledged so far and at most that of the ids
that have been asked for, and each id that is counted stays, with its configuration, unless a client
asks later to unregister it. -/
theorem daemonInfo_counts {before after : List Served} {served : Served} {reply : Http.Reply}
    {cp₁ cp₂ : ControlPlane}
    (hbefore : Logged (Serves codec ino bodies ioText) (start files fanotify dir) before cp₁)
    (hserve : Serves codec ino bodies ioText cp₁ served cp₂)
    (hafter : Logged (Serves codec ino bodies ioText) cp₂ after cp)
    (haction : served.action bodies = some .daemonInfo) (hreply : served.reply = some reply) :
    reply.status = 200 ∧ ∃ n, bodies.instances reply.body = some n ∧
      (∃ ids : Finset String, n = ids.card ∧
        ∀ id, id ∈ ids ↔ ∃ config, cp₁.daemon.directory id = some config) ∧
      cp₂.daemon = cp₁.daemon ∧
      (∀ acknowledged : Finset String,
        (∀ id ∈ acknowledged, ∃ config, Acknowledged bodies dir before id config) →
          acknowledged.card ≤ n) ∧
      (∀ wanted : Finset String, (∀ id config, Wanted bodies dir before id config → id ∈ wanted) →
        n ≤ wanted.card) ∧
      ∀ id config, cp₁.daemon.directory id = some config →
        (∀ later ∈ after, later.action bodies ≠ some (.unregister id)) →
          cp.daemon.directory id = some config := by
  obtain ⟨hstatus, hread, hsame⟩ := hserve.daemonInfo haction hreply
  have hids (id : String) : id ∈ cp₁.ids ↔ ∃ config, cp₁.daemon.directory id = some config := by
    rw [cp₁.mem_ids, Option.isSome_iff_exists]
  refine ⟨hstatus, cp₁.ids.card, hread, ⟨cp₁.ids, rfl, hids⟩, hsame, fun acknowledged hall => ?_,
    fun wanted hall => ?_, fun id config hid hlater => ?_⟩
  · refine Finset.card_le_card fun id hid => (hids id).mpr ?_
    obtain ⟨config, hconfig⟩ := hall id hid
    obtain ⟨config', hconfig', -⟩ := hconfig.registered hbefore
    exact ⟨config', hconfig'⟩
  · refine Finset.card_le_card fun id hid => ?_
    obtain ⟨config, hconfig⟩ := (hids id).mp hid
    exact hall id config (wanted_of_registered hbefore hconfig)
  · refine hafter.stays (I := fun cp => cp.daemon.directory id = some config) hlater
      (hsame ▸ hid) ?_
    rintro cp later cp' hold hlater hserves
    exact hserves.directory_some hold hlater

/-! ### A small control plane -/

/-- A request that is performed. -/
theorem handleStream_of_perform {stream : Http.Stream} {request : Http.Request}
    {rest : List Http.Chunk} {action : Action} {res : Except Error Http.Response} {d : Daemon}
    (hread : Http.readRequest stream = .ok (request, rest))
    (hdecode : decode bodies request = .ok action) (hwrite : answers.write = none)
    (hperform : cp.daemon.perform codec ino bodies cp.imageCacheDir cp.ids.card answers action =
      some (res, d)) :
    ∃ cp', cp.handleStream codec ino bodies ioText stream answers =
      some (.ok (), Http.renderResponse bodies.error ioText res, cp') ∧ cp'.daemon = d := by
  have hrequest : ∃ cp', cp.handleRequest codec ino bodies request answers = some (res, cp') ∧
      cp'.daemon = d := by
    simp only [handleRequest, hdecode]
    split
    · rename_i hno
      exact absurd (hno.symm.trans hperform) (by simp)
    · rename_i hagain
      obtain ⟨rfl, rfl⟩ := Prod.mk.inj (Option.some.inj (hagain.symm.trans hperform))
      exact ⟨_, rfl, rfl⟩
  obtain ⟨cp', hhandle, hd⟩ := hrequest
  refine ⟨cp', ?_, hd⟩
  simp only [handleStream, hread, hhandle, hwrite]

/-- The description of `newBlob` on the target of the small daemon, as a client sends it. -/
def smallBody : String :=
  "\x7b\"target_path\":\"/cache/layer\",\"blob\":\x7b\"digest\":\"sha256:abc\",\"size\":3\x7d,\"source\":\x7b\"type\":\"oci-registry\",\"image_ref\":\"registry.example.com/ns/image:tag\"\x7d\x7d"

/-- The range of the three bytes of the blob. -/
def smallRangeBody : String := "\x7b\"offset\":0,\"len\":3\x7d"

/-- The JSON library, on these two. -/
def smallBodies : BodyCodec where
  config body :=
    if body = JsonBytes.utf8 smallBody then .ok (Daemon.smallConfigOf newBlob "")
    else .error "expected value at line 1 column 1"
  prepare _ := .error "expected value at line 1 column 1"
  range body :=
    if body = JsonBytes.utf8 smallRangeBody then .ok ⟨0, 3⟩
    else .error "expected value at line 1 column 1"
  error := Http.errorJson
  daemonInfo := daemonInfo
  instances := readDaemonInfo
  instances_daemonInfo := readDaemonInfo_daemonInfo
  prepareImageResponse := prepareImageResponse

/-- A registration. -/
def smallPut : Http.Message where
  method := "PUT"
  path := "/api/v1/instances/a"
  version := "HTTP/1.1"
  headers := ["Content-Length: 151"]
  body := JsonBytes.utf8 smallBody
  method_ne := Http.smallMessage.method_ne
  path_ne := by decide
  method_word := Http.smallMessage.method_word
  path_word := by decide
  version_line := Http.smallMessage.version_line
  headers_line := by decide
  body_length := by decide +kernel

/-- A question for the number of instances. -/
def smallGet : Http.Message where
  method := "GET"
  path := "/api/v1/daemon"
  version := "HTTP/1.1"
  headers := []
  body := []
  method_ne := by decide
  path_ne := by decide
  method_word := by decide
  path_word := by decide
  version_line := Http.smallMessage.version_line
  headers_line := by decide
  body_length := rfl

theorem length_smallPut : smallPut.bytes.length ≤ 4096 := by decide +kernel

theorem length_smallGet : smallGet.bytes.length ≤ 4096 := by decide +kernel

/-- The two connections, as their clients see them. -/
def servedPut : Served :=
  ⟨smallPut.oneRead length_smallPut,
    Http.renderResponse Http.errorJson (fun _ => "I/O error") (.ok (.empty 204))⟩

def servedGet : Served :=
  ⟨smallGet.oneRead length_smallGet,
    Http.renderResponse Http.errorJson (fun _ => "I/O error") (.ok (.json 200 (daemonInfo 1)))⟩

/-- The registration of the small daemon. -/
theorem perform_smallPut : ∃ d,
    (Daemon.start Daemon.smallFiles none).perform headerJson Daemon.smallIno smallBodies
      "/var/lib/lazyd/images" 0 {} (.register "a" (Daemon.smallConfigOf newBlob "a")) =
        some (.ok (.empty 204), d) ∧
    d.instances "a" = some ⟨Daemon.newInstance, [0], []⟩ := by
  obtain ⟨d, f, hregister, hinstances, -⟩ := Daemon.register_newInstance
  rw [Daemon.operate] at hregister
  obtain ⟨⟨res, d'⟩, hcall, hd⟩ := Option.map_eq_some_iff.mp hregister
  have hsome : d'.instances "a" = some ⟨Daemon.newInstance, [0], []⟩ := by
    rw [show d' = d from hd, hinstances, Function.update_self]
  cases res with
  | error err =>
    rw [(Daemon.Registers.of_register hcall).instances_of_error] at hsome
    exact absurd hsome (by simp [Daemon.start])
  | ok =>
    refine ⟨d', ?_, hsome⟩
    simp only [Daemon.perform, hcall, Except.map]

theorem decode_smallPut :
    decode smallBodies ⟨smallPut.method, smallPut.path, smallPut.body⟩ =
      .ok (.register "a" (Daemon.smallConfigOf newBlob "a")) := by
  have hendpoint : Http.endpoint smallPut.method smallPut.path = .ok (.register "a") := by
    decide +kernel
  have hconfig : smallBodies.config smallPut.body =
      .ok (Daemon.smallConfigOf newBlob "") := by
    simp only [smallBodies, smallPut, ↓reduceIte]
  simp only [decode, hendpoint, hconfig]
  rfl

theorem decode_smallGet :
    decode smallBodies ⟨smallGet.method, smallGet.path, smallGet.body⟩ = .ok .daemonInfo := by
  have hendpoint : Http.endpoint smallGet.method smallGet.path = .ok .daemonInfo := by
    decide +kernel
  simp only [decode, hendpoint]

/-- The two connections are served. -/
theorem smallLog_serves : ∃ cp,
    Logged (Serves headerJson Daemon.smallIno smallBodies fun _ => "I/O error")
      (start Daemon.smallFiles none "/var/lib/lazyd/images") [servedPut, servedGet] cp ∧
    cp.daemon.directory "a" = some (Daemon.smallConfigOf newBlob "a") := by
  obtain ⟨d, hput, hlive⟩ := perform_smallPut
  have hdirectory : d.directory "a" = some (Daemon.smallConfigOf newBlob "a") :=
    Daemon.directory_eq_some.mpr ⟨_, hlive, rfl⟩
  have hserved : ∃ cp, (start Daemon.smallFiles none "/var/lib/lazyd/images").handleStream
      headerJson Daemon.smallIno smallBodies (fun _ => "I/O error") servedPut.stream {} =
        some (.ok (), servedPut.sent, cp) ∧ cp.daemon = d :=
    handleStream_of_perform (smallPut.readRequest_oneRead length_smallPut) decode_smallPut rfl hput
  obtain ⟨cp₁, hserve₁, rfl⟩ := hserved
  have hids : cp₁.ids = {"a"} := by
    ext id
    rw [cp₁.mem_ids, Finset.mem_singleton]
    by_cases hid : id = "a"
    · rw [hid, hdirectory]
      exact iff_of_true rfl rfl
    · have hother := Daemon.perform_directory_of_notMem hput
        (fun hmem => hid (Finset.mem_singleton.mp hmem))
      rw [hother]
      exact iff_of_false (by simp [Daemon.start, Daemon.directory]) hid
  have hget : cp₁.daemon.perform headerJson Daemon.smallIno smallBodies cp₁.imageCacheDir
      cp₁.ids.card {} .daemonInfo = some (.ok (.json 200 (daemonInfo 1)), cp₁.daemon) := by
    rw [hids]
    rfl
  have hserved : ∃ cp, cp₁.handleStream headerJson Daemon.smallIno smallBodies
      (fun _ => "I/O error") servedGet.stream {} =
        some (.ok (), servedGet.sent, cp) ∧ cp.daemon = cp₁.daemon :=
    handleStream_of_perform (smallGet.readRequest_oneRead length_smallGet) decode_smallGet rfl hget
  obtain ⟨cp₂, hserve₂, hd⟩ := hserved
  exact ⟨cp₂, (Logged.nil.snoc ⟨_, _, hserve₁⟩).snoc ⟨_, _, hserve₂⟩, hd ▸ hdirectory⟩

theorem action_servedPut : servedPut.action smallBodies =
    some (.register "a" (Daemon.smallConfigOf newBlob "a")) := by
  simp only [Served.action, servedPut, smallPut.readRequest_oneRead length_smallPut,
    decode_smallPut, Except.toOption]

theorem action_servedGet : servedGet.action smallBodies = some .daemonInfo := by
  simp only [Served.action, servedGet, smallGet.readRequest_oneRead length_smallGet,
    decode_smallGet, Except.toOption]

/-- The registration is acknowledged, and the instance is still there after the next connection. -/
theorem acknowledged_stays_small : ∃ cp,
    Logged (Serves headerJson Daemon.smallIno smallBodies fun _ => "I/O error")
      (start Daemon.smallFiles none "/var/lib/lazyd/images") [servedPut, servedGet] cp ∧
    ∃ config, cp.daemon.directory "a" = some config ∧
      config.same (Daemon.smallConfigOf newBlob "a") = true := by
  obtain ⟨cp, hserves, -⟩ := smallLog_serves
  have hreply : servedPut.reply = some ⟨204, none, []⟩ :=
    (Http.plain_empty (by decide)).readReply_self (by decide)
  have hlog : [servedPut, servedGet] = [] ++ servedPut :: [servedGet] := rfl
  refine ⟨cp, hserves, acknowledged_stays hserves hlog action_servedPut hreply rfl ⟨rfl, rfl⟩
    fun later hlater => ?_⟩
  rw [List.mem_singleton.mp hlater, action_servedGet]
  simp

/-- The instance that is registered is the one that has been asked for. -/
theorem registered_wanted_small : ∃ before served after action,
    [servedPut, servedGet] = before ++ served :: after ∧ served.action smallBodies = some action ∧
    action.Wants "/var/lib/lazyd/images" "a" (Daemon.smallConfigOf newBlob "a") ∧
    ∀ later ∈ after, later.action smallBodies ≠ some (.unregister "a") := by
  obtain ⟨cp, hserves, hdirectory⟩ := smallLog_serves
  exact registered_wanted hserves hdirectory

/-- The second connection reads that there is one instance. -/
theorem daemonInfo_counts_small : ∃ cp₁ cp₂,
    Logged (Serves headerJson Daemon.smallIno smallBodies fun _ => "I/O error")
      (start Daemon.smallFiles none "/var/lib/lazyd/images") [servedPut] cp₁ ∧
    Serves headerJson Daemon.smallIno smallBodies (fun _ => "I/O error") cp₁ servedGet cp₂ ∧
    ∃ n, readDaemonInfo (daemonInfo 1) = some n ∧ ∃ ids : Finset String, n = ids.card ∧
      ∀ id, id ∈ ids ↔ ∃ config, cp₁.daemon.directory id = some config := by
  obtain ⟨cp, hserves, -⟩ := smallLog_serves
  have hreply : servedGet.reply = some ⟨200, some "application/json", daemonInfo 1⟩ :=
    (Http.plain_json (by decide) _).readReply_self (by decide +kernel)
  have hlog : [servedPut, servedGet] = [servedPut] ++ servedGet :: [] := rfl
  obtain ⟨cp₁, cp₂, hbefore, hserve, hafter⟩ := hserves.split hlog
  obtain ⟨-, n, hread, hids, -⟩ := daemonInfo_counts hbefore hserve hafter action_servedGet hreply
  exact ⟨cp₁, cp₂, hbefore, hserve, n, hread, hids⟩

end ControlPlane

end Lazyd
