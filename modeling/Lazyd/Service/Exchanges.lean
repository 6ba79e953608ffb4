import Lazyd.Control.Served
import Lazyd.Data.Session
import Lazyd.Instance.Ready

/-!
# The daemon behind its two sockets

The control socket and the data socket serve one registry. A connection to the control socket is one
of the operations of the registry, or none; a packet on the data socket is a call of
`prepare_fetch_range` on the instance that it names. Connections and packets are taken one after the
other here, with restarts between them.

## Main definitions

* `Daemon.fetchRange`, `Daemon.handlePacket` : a packet, handled by the daemon.
* `Action.operation` : the operation that a request is.
* `ServiceEvent`, `ControlPlane.serve` : what happens to the daemon.

## Main results

* `Daemon.handlePacket_eq` : the daemon handles a packet as the data plane does, with the instances
  that it has.
* `Daemon.perform_operate` : a request that is performed is its operation.
* `ControlPlane.serve_keeps` : an instance stays, and its slots are not cleared, until it is
  unregistered or the daemon is restarted.

Source: `src/control.rs`, lines 62–164; `src/data.rs`, lines 76–147; `src/instance.rs`, lines
263–305.
-/

namespace Lazyd

/-! ### Packets -/

namespace Daemon

open DataPlane (Fd FetchRange FetchRequest DataResponse PacketCodec OwnedFile Socket Packet Env
  parseFetchRequest recvPacket sendPacket sendPacketWithFd protocolVersion)

/-- What the environment answers while a packet is handled: the page size of the host, the steps of
the call, and the descriptor of the clone of the target. -/
structure PacketAnswers where
  pageSize : ℤ
  lastOsError : IoError := .os 0
  fetch : List Instance.Event
  fd : Fd

/-- The fetch in `handle_fetch`. The task of a stream is not cancelled. -/
def fetchRange (d : Daemon) (request : FetchRequest) (answers : PacketAnswers) :
    Option (Except Error (FetchRange × OwnedFile) × Daemon) :=
  if answers.pageSize ≤ 0 then some (.error (.io answers.lastOsError), d)
  else
    match d.instances request.instanceId with
    | none => some (.error (.notFound "instance not found"), d)
    | some live =>
      match live.inst.tasks.solo (live.shared d.files.disk) .idle
        (.call (.prepareFetchRange request.pos.toNat request.len.toNat answers.pageSize.toNat) ::
          answers.fetch) with
      | some (s, .returned _ .ok) =>
        some (.ok (⟨request.pos, request.len, request.pos⟩, ⟨answers.fd, live.inst.target⟩),
          d.used request.instanceId live s)
      | some (s, .returned _ (.err err)) => some (.error err, d.used request.instanceId live s)
      | _ => none

variable (codec : PacketCodec) (ioText : IoError → String)

/-- `handle_packet` -/
def handlePacket (d : Daemon) (packet : List UInt8) (answers : PacketAnswers) :
    Option (Except DataResponse (DataResponse × OwnedFile) × Daemon) :=
  match parseFetchRequest codec packet with
  | .error response => some (.error response, d)
  | .ok request =>
    match d.fetchRange request answers with
    | none => none
    | some (.ok (range, file), d) =>
      some (.ok (.fetchOk protocolVersion request.requestId [range], file), d)
    | some (.error err, d) =>
      some
        (.error (.error protocolVersion request.requestId err.statusCode (err.message ioText)), d)

/-- `handle_stream_once`, with the packets that are sent. -/
def handleStreamOnce (d : Daemon) (socket : Socket) (answers : PacketAnswers) :
    Option (Except Error Unit × List Packet × Daemon) :=
  match recvPacket socket with
  | .error err => some (.error err, [], d)
  | .ok packet =>
    match d.handlePacket codec ioText packet answers with
    | none => none
    | some (.ok (response, file), d) =>
      let sent := sendPacketWithFd socket (codec.encode response) file.fd
      some (sent.1, sent.2, d)
    | some (.error response, d) =>
      let sent := sendPacket socket (codec.encode response)
      some (sent.1, sent.2, d)

variable {codec ioText} {d d' : Daemon} {request : FetchRequest} {answers : PacketAnswers}
  {res : Except Error (FetchRange × OwnedFile)}

/-- **Everything that a fetch can do.** It is refused, or it is a call on the instance. -/
theorem fetchRange_cases (h : d.fetchRange request answers = some (res, d')) :
    ((∃ err, res = .error err) ∧ d' = d) ∨
    ∃ live s call out, d.instances request.instanceId = some live ∧
      live.inst.tasks.solo (live.shared d.files.disk) .idle
        (.call (.prepareFetchRange request.pos.toNat request.len.toNat answers.pageSize.toNat) ::
          answers.fetch) = some (s, .returned call out) ∧
      d' = d.used request.instanceId live s ∧
      ∀ range file, res = .ok (range, file) →
        out = .ok ∧ range = ⟨request.pos, request.len, request.pos⟩ ∧
          file = ⟨answers.fd, live.inst.target⟩ := by
  rw [fetchRange] at h
  split_ifs at h with hpage
  · obtain ⟨rfl, rfl⟩ := Prod.mk.inj (Option.some.inj h)
    exact Or.inl ⟨⟨_, rfl⟩, rfl⟩
  · split at h
    · obtain ⟨rfl, rfl⟩ := Prod.mk.inj (Option.some.inj h)
      exact Or.inl ⟨⟨_, rfl⟩, rfl⟩
    · rename_i live hlive
      split at h
      · rename_i s call hsolo
        obtain ⟨rfl, rfl⟩ := Prod.mk.inj (Option.some.inj h)
        refine Or.inr ⟨live, s, call, .ok, hlive, hsolo, rfl, fun range file hok => ⟨rfl, ?_⟩⟩
        obtain ⟨rfl, rfl⟩ := Prod.mk.inj (Except.ok.inj hok)
        exact ⟨rfl, rfl⟩
      · rename_i s call err hsolo
        obtain ⟨rfl, rfl⟩ := Prod.mk.inj (Option.some.inj h)
        exact Or.inr ⟨live, s, call, .err err, hlive, hsolo, rfl, by simp⟩
      · exact absurd h (by simp)

theorem fetchRange_directory (h : d.fetchRange request answers = some (res, d')) :
    d'.directory = d.directory := by
  rcases fetchRange_cases h with ⟨-, rfl⟩ | ⟨live, s, call, out, hlive, -, rfl, -⟩
  · rfl
  · exact used_directory hlive s

/-- The surroundings of a fetch with the given result: the page size, and the instances of the
daemon. -/
def fetchEnv (d : Daemon) (answers : PacketAnswers) (res : Except Error (FetchRange × OwnedFile)) :
    Env where
  pageSize := answers.pageSize
  lastOsError := answers.lastOsError
  registryGet id := (d.instances id).map fun live =>
    { target := live.inst.target
      fetch := fun _ _ _ => res.map fun result => (result.1, result.2.fd) }

/-- **The fetch of the daemon** is that of the data plane, with the instances of the daemon. -/
theorem fetchRange_eq (h : d.fetchRange request answers = some (res, d')) :
    DataPlane.fetchRange (d.fetchEnv answers res) request = res := by
  have hfetch := h
  rw [fetchRange] at h
  rw [DataPlane.fetchRange, DataPlane.hostPageSize, fetchEnv]
  simp only [bind, Except.bind]
  split_ifs at h ⊢ with hpage
  · exact (Prod.mk.inj (Option.some.inj h)).1
  · cases hlive : d.instances request.instanceId with
    | none =>
      rw [hlive] at h
      exact (Prod.mk.inj (Option.some.inj h)).1
    | some live =>
      simp only [Option.map_some, DataPlane.RegisteredInstance.prepareFetchRange, bind, Except.bind]
      cases res with
      | error err => rfl
      | ok result =>
        rcases fetchRange_cases hfetch with
            ⟨⟨err, hno⟩, -⟩ | ⟨live', s, call, out, hlive', -, -, hok⟩
        · exact absurd hno (by simp)
        · obtain rfl := Option.some.inj (hlive.symm.trans hlive')
          obtain ⟨-, -, hfile⟩ := hok result.1 result.2 rfl
          obtain ⟨range, file⟩ := result
          obtain rfl : file = _ := hfile
          rfl

/-- **The daemon handles a packet as the data plane does**, in the surroundings of the fetch of the
packet: the instances that are registered there are those of the daemon, with their targets. -/
theorem handlePacket_eq {packet : List UInt8} {out : Except DataResponse (DataResponse × OwnedFile)}
    (h : d.handlePacket codec ioText packet answers = some (out, d')) :
    ∃ env, DataPlane.handlePacket codec ioText env packet = out ∧
      env.pageSize = answers.pageSize ∧
      (∀ id, (env.registryGet id).map (·.target) = (d.instances id).map (·.inst.target)) ∧
      ∀ request, parseFetchRequest codec packet = .ok request →
        d.fetchRange request answers = some (DataPlane.fetchRange env request, d') := by
  have htargets (res : Except Error (FetchRange × OwnedFile)) (id : String) :
      ((d.fetchEnv answers res).registryGet id).map (·.target) =
        (d.instances id).map (·.inst.target) := Option.map_map ..
  rw [handlePacket] at h
  cases hparse : parseFetchRequest codec packet with
  | error response =>
    rw [hparse] at h
    obtain ⟨rfl, rfl⟩ := Prod.mk.inj (Option.some.inj h)
    refine ⟨d.fetchEnv answers (.error (.io answers.lastOsError)), ?_, rfl, htargets _, by simp⟩
    rw [DataPlane.handlePacket, hparse]
  | ok request =>
    rw [hparse] at h
    simp only at h
    cases hfetch : d.fetchRange request answers with
    | none => exact absurd h (by simp [hfetch])
    | some result =>
      obtain ⟨res, d₁⟩ := result
      have henv := fetchRange_eq hfetch
      rw [hfetch] at h
      refine ⟨d.fetchEnv answers res, ?_, rfl, htargets res, ?_⟩
      · rw [DataPlane.handlePacket, hparse]
        simp only [DataPlane.handleFetch, henv]
        cases res with
        | error err => exact (Prod.mk.inj (Option.some.inj h)).1
        | ok result => exact (Prod.mk.inj (Option.some.inj h)).1
      · intro request' hrequest
        obtain rfl := Except.ok.inj hrequest
        rw [henv, hfetch]
        cases res with
        | error err => rw [(Prod.mk.inj (Option.some.inj h)).2]
        | ok result => rw [(Prod.mk.inj (Option.some.inj h)).2]

theorem send_fd (socket : Socket) (bytes : List UInt8) (fd : Option Fd) :
    ∀ p ∈ (DataPlane.send socket bytes fd).2, p.fd = fd := by
  intro p hp
  rw [DataPlane.send] at hp
  split_ifs at hp
  · exact absurd hp (by simp)
  · cases hsend : socket.send bytes.length with
    | error err => exact absurd hp (by simp [hsend])
    | ok n =>
      simp only [hsend] at hp
      split_ifs at hp
      · rw [List.mem_singleton.mp hp]
      · rw [List.mem_singleton.mp hp]

/-- **Everything that a packet can do.** Nothing happens to the daemon, or there is a fetch. Only
what has been fetched is sent with a descriptor. -/
theorem handleStreamOnce_cases {socket : Socket} {out : Except Error Unit} {sent : List Packet}
    (h : d.handleStreamOnce codec ioText socket answers = some (out, sent, d')) :
    ((∀ p ∈ sent, p.fd = none) ∧ d' = d) ∨
    ∃ packet request res, recvPacket socket = .ok packet ∧
      parseFetchRequest codec packet = .ok request ∧
      d.fetchRange request answers = some (res, d') ∧
      ((∀ p ∈ sent, p.fd = none) ∨
        ∃ range file, res = .ok (range, file) ∧ sent = (DataPlane.send socket (codec.encode
          (.fetchOk protocolVersion request.requestId [range])) (some file.fd)).2) := by
  rw [handleStreamOnce] at h
  cases hrecv : recvPacket socket with
  | error err =>
    rw [hrecv] at h
    obtain ⟨rfl, rfl⟩ := Prod.mk.inj (Prod.mk.inj (Option.some.inj h)).2
    exact Or.inl ⟨by simp, rfl⟩
  | ok packet =>
    simp only [hrecv, handlePacket] at h
    cases hparse : parseFetchRequest codec packet with
    | error response =>
      simp only [hparse] at h
      obtain ⟨rfl, rfl⟩ := Prod.mk.inj (Prod.mk.inj (Option.some.inj h)).2
      exact Or.inl ⟨send_fd socket _ none, rfl⟩
    | ok request =>
      simp only [hparse] at h
      cases hfetch : d.fetchRange request answers with
      | none => exact absurd h (by simp [hfetch])
      | some result =>
        obtain ⟨res, d₁⟩ := result
        rw [hfetch] at h
        cases res with
        | error err =>
          obtain ⟨rfl, rfl⟩ := Prod.mk.inj (Prod.mk.inj (Option.some.inj h)).2
          exact Or.inr ⟨packet, request, _, rfl, hparse, hfetch, Or.inl (send_fd socket _ none)⟩
        | ok result =>
          obtain ⟨range, file⟩ := result
          obtain ⟨rfl, rfl⟩ := Prod.mk.inj (Prod.mk.inj (Option.some.inj h)).2
          exact Or.inr ⟨packet, request, _, rfl, hparse, hfetch, Or.inr ⟨range, file, rfl, rfl⟩⟩

theorem handleStreamOnce_directory {socket : Socket} {out : Except Error Unit} {sent : List Packet}
    (h : d.handleStreamOnce codec ioText socket answers = some (out, sent, d')) :
    d'.directory = d.directory := by
  rcases handleStreamOnce_cases h with ⟨-, rfl⟩ | ⟨packet, request, res, -, -, hfetch, -⟩
  · rfl
  · exact fetchRange_directory hfetch

end Daemon

/-! ### Operations -/

/-- The operation of the registry that an action is. -/
def Action.operation (imageCacheDir : String) (answers : RequestAnswers) :
    Action → Option Daemon.Operation
  | .daemonInfo => none
  | .prepareImage request => some (.prepareImage imageCacheDir request answers.prepare)
  | .ensureRange instanceId range =>
    some (.ensureRange instanceId range.offset.toNat range.len.toNat answers.ensure)
  | .register instanceId config => some (.register instanceId config answers.register)
  | .unregister instanceId => some (.unregister instanceId answers.unregister)

namespace Daemon

variable {codec : HeaderCodec} {ino : String → FileKey} {d d' : Daemon} {imageCacheDir : String}
  {count : ℕ} {answers : RequestAnswers} {action : Action} {res : Except Error Http.Response}

/-- **An action that is performed is its operation.** -/
theorem perform_operate
    (h : perform codec ino bodies imageCacheDir count answers d action = some (res, d')) :
    (action.operation imageCacheDir answers = none ∧ d' = d) ∨
    ∃ op, action.operation imageCacheDir answers = some op ∧ operate codec ino d op = some d' := by
  cases action with
  | daemonInfo => exact Or.inl ⟨rfl, (Prod.mk.inj (Option.some.inj h)).2.symm⟩
  | prepareImage request =>
    simp only [perform] at h
    split at h
    · exact absurd h (by simp)
    · rename_i hprepare
      refine Or.inr ⟨_, rfl, ?_⟩
      rw [operate, hprepare, Option.map_some, (Prod.mk.inj (Option.some.inj h)).2]
  | ensureRange instanceId range =>
    refine Or.inr ⟨_, rfl, ?_⟩
    simp only [perform] at h
    split at h
    · rename_i hensure
      rw [operate, hensure, Option.map_some, (Prod.mk.inj (Option.some.inj h)).2]
    · rename_i hensure
      rw [operate, hensure, Option.map_some, (Prod.mk.inj (Option.some.inj h)).2]
    · exact absurd h (by simp)
    · exact absurd h (by simp)
  | register instanceId config =>
    simp only [perform] at h
    split at h
    · exact absurd h (by simp)
    · rename_i hregister
      refine Or.inr ⟨_, rfl, ?_⟩
      rw [operate, hregister, Option.map_some, (Prod.mk.inj (Option.some.inj h)).2]
  | unregister instanceId =>
    exact Or.inr ⟨_, rfl, congrArg some (Prod.mk.inj (Option.some.inj h)).2⟩

/-! ### What stays -/

/-- The instance of the id is the same one, and none of its slots has been cleared. -/
def Keeps (d d' : Daemon) (id : String) : Prop :=
  ∀ live, d.instances id = some live → ∃ live', d'.instances id = some live' ∧
    live'.inst = live.inst ∧ Instance.Grows live.slots live'.slots

theorem keeps_of_some {id : String}
    (h : ∀ live, d.instances id = some live → d'.instances id = some live) : Keeps d d' id :=
  fun live hlive => ⟨live, h live hlive, rfl, Instance.grows_refl live.slots⟩

/-- A call on any instance. -/
theorem used_keeps {instanceId : String} {live : Live} {es : List Instance.Event}
    {s : Instance.Shared} {l l' : Instance.TaskState} (hlive : d.instances instanceId = some live)
    (hsolo : live.inst.tasks.solo (live.shared d.files.disk) l es = some (s, l')) (id : String) :
    Keeps d (d.used instanceId live s) id := by
  have hgrows : Instance.Grows live.slots s.slots :=
    TaskSystem.solo_rel (R := fun s s' => Instance.Grows s.slots s'.slots)
      (fun s => Instance.grows_refl s.slots) (fun _ _ _ => Instance.Grows.trans)
      (fun _ _ _ _ _ hstep => Instance.grows_step hstep) hsolo
  by_cases hid : id = instanceId
  · subst hid
    intro live' hlive'
    obtain rfl := Option.some.inj (hlive.symm.trans hlive')
    exact ⟨_, Function.update_self _ _ _, rfl, hgrows⟩
  · refine keeps_of_some fun live' hlive' => ?_
    rw [used]
    simp only
    rw [Function.update_of_ne hid, hlive']

/-- **An operation keeps an instance**, unless it takes the id out. -/
theorem operate_keeps {op : Operation} (h : operate codec ino d op = some d') {id : String}
    (hid : ∀ faults, op ≠ .unregister id faults) (hrestart : ∀ fanotify, op ≠ .restart fanotify) :
    Keeps d d' id := by
  cases op with
  | register instanceId config answers =>
    obtain ⟨⟨res, d₁⟩, hregister, rfl⟩ := Option.map_eq_some_iff.mp h
    exact keeps_of_some fun live hlive => (Registers.of_register hregister).instances_some hlive
  | unregister instanceId faults =>
    obtain rfl := Option.some.inj h
    refine keeps_of_some fun live hlive => ?_
    have hne : id ≠ instanceId := by
      rintro rfl
      exact hid faults rfl
    rw [unregister_instances, Function.update_of_ne hne, hlive]
  | prepareImage cacheRoot request answers =>
    obtain ⟨⟨res, d₁⟩, hprepare, rfl⟩ := Option.map_eq_some_iff.mp h
    exact keeps_of_some fun live hlive => (prepareImage_instances hprepare).1 id live hlive
  | ensureRange instanceId offset len es =>
    obtain ⟨⟨out, d₁⟩, hensure, rfl⟩ := Option.map_eq_some_iff.mp h
    cases hlive : d.instances instanceId with
    | none =>
      rw [ensureRange, hlive] at hensure
      obtain ⟨-, rfl⟩ := Prod.mk.inj (Option.some.inj hensure)
      exact keeps_of_some fun live hlive => hlive
    | some live =>
      obtain ⟨s, call, hsolo, rfl⟩ := ensureRange_eq_some hlive hensure
      exact used_keeps hlive hsolo id
  | restart fanotify => exact absurd rfl (hrestart fanotify)

end Daemon

/-! ### The service -/

/-- What the daemon is built on: the header of bitmap files, the file system, the encodings of
requests and responses, and the texts of errors. -/
structure Platform where
  codec : HeaderCodec
  ino : String → FileKey
  bodies : BodyCodec
  packets : DataPlane.PacketCodec
  ioText : IoError → String

/-- What happens to the daemon. -/
inductive ServiceEvent where
  /-- a connection to the control socket -/
  | control (stream : Http.Stream) (answers : RequestAnswers)
  /-- a packet on the data socket -/
  | data (socket : DataPlane.Socket) (answers : Daemon.PacketAnswers)
  /-- all files are kept -/
  | restart (fanotify : Option FanotifyBackend)

/-- What is sent back. -/
inductive ServiceReply where
  | http (sent : List UInt8)
  | packets (sent : List DataPlane.Packet)
  | nothing

/-- The action of a connection. -/
def ServiceEvent.action (P : Platform) : ServiceEvent → Option Action
  | .control stream _ => ControlPlane.Served.action P.bodies ⟨stream, []⟩
  | _ => none

/-- The event takes the instance out: it is unregistered, or the daemon is restarted. -/
def ServiceEvent.TakesOut (P : Platform) (id : String) (event : ServiceEvent) : Prop :=
  event.action P = some (.unregister id) ∨ ∃ fanotify, event = .restart fanotify

namespace ControlPlane

variable (P : Platform)

/-- One event. -/
def serve (cp : ControlPlane) : ServiceEvent → Option (ServiceReply × ControlPlane)
  | .control stream answers =>
    (cp.handleStream P.codec P.ino P.bodies P.ioText stream answers).map fun result =>
      (.http result.2.1, result.2.2)
  | .data socket answers =>
    match h : cp.daemon.handleStreamOnce P.packets P.ioText socket answers with
    | none => none
    | some (_, sent, d) =>
      some (.packets sent,
        cp.after ∅ d fun id _ => congrFun (Daemon.handleStreamOnce_directory h) id)
  | .restart fanotify => some (.nothing, start cp.daemon.files fanotify cp.imageCacheDir)

variable {P} {cp cp' : ControlPlane} {reply : ServiceReply}

theorem serve_control {stream : Http.Stream} {answers : RequestAnswers}
    (h : cp.serve P (.control stream answers) = some (reply, cp')) :
    ∃ res sent, reply = .http sent ∧
      cp.handleStream P.codec P.ino P.bodies P.ioText stream answers = some (res, sent, cp') := by
  obtain ⟨⟨res, sent, cp₁⟩, hserve, hreply⟩ := Option.map_eq_some_iff.mp h
  obtain ⟨rfl, rfl⟩ := Prod.mk.inj hreply
  exact ⟨res, sent, rfl, hserve⟩

theorem serve_data {socket : DataPlane.Socket} {answers : Daemon.PacketAnswers}
    (h : cp.serve P (.data socket answers) = some (reply, cp')) :
    ∃ res sent, reply = .packets sent ∧ cp'.imageCacheDir = cp.imageCacheDir ∧
      cp.daemon.handleStreamOnce P.packets P.ioText socket answers =
        some (res, sent, cp'.daemon) := by
  simp only [serve] at h
  split at h
  · exact absurd h (by simp)
  · rename_i res sent d hserve
    obtain ⟨rfl, rfl⟩ := Prod.mk.inj (Option.some.inj h)
    exact ⟨res, sent, rfl, rfl, hserve⟩

/-- **An instance stays**, and its slots are not cleared, until it is unregistered or the daemon is
restarted. -/
theorem serve_keeps {event : ServiceEvent} (h : cp.serve P event = some (reply, cp')) {id : String}
    (hid : ¬ event.TakesOut P id) : cp.daemon.Keeps cp'.daemon id := by
  have hself : cp.daemon.Keeps cp.daemon id := Daemon.keeps_of_some fun _ hlive => hlive
  cases event with
  | control stream answers =>
    obtain ⟨res, sent, rfl, hserve⟩ := serve_control h
    rcases (handleStream_action hserve).2 with ⟨-, rfl⟩ | ⟨action, response, haction, hperform, -⟩
    · exact hself
    · rcases Daemon.perform_operate hperform with ⟨-, hsame⟩ | ⟨op, hop, hoperate⟩
      · rw [hsame]
        exact hself
      · refine Daemon.operate_keeps hoperate (fun faults hno => ?_) fun fanotify hno => ?_
        · subst hno
          refine hid (Or.inl (haction.trans (congrArg some ?_)))
          cases action <;> simp [Action.operation] at hop
          rw [hop.1]
        · subst hno
          cases action <;> simp [Action.operation] at hop
  | data socket answers =>
    obtain ⟨res, sent, rfl, -, hserve⟩ := serve_data h
    rcases Daemon.handleStreamOnce_cases hserve with ⟨-, hsame⟩ |
      ⟨packet, request, res, -, -, hfetch, -⟩
    · rw [hsame]
      exact hself
    · rcases Daemon.fetchRange_cases hfetch with ⟨-, hsame⟩ |
        ⟨live, s, call, out, hlive, hsolo, hused, -⟩
      · rw [hsame]
        exact hself
      · rw [hused]
        exact Daemon.used_keeps hlive hsolo id
  | restart fanotify => exact absurd (Or.inr ⟨fanotify, rfl⟩) hid

end ControlPlane

end Lazyd
