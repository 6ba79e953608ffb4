import Lazyd.Service.Exchanges

/-!
# What has been acknowledged is in the target

A client of the control socket reads `204` when the daemon has fetched the range that it has asked
for, and a client of the data socket a range with the descriptor of the target. From then on the
bytes of the range are in the target, until the instance is unregistered or the daemon is restarted,
whatever other clients do, and the daemon does not fetch them again.

## Main definitions

* `ServiceEvent.Allowed` : the openings of the event are allowed, and the remote is honest.
* `ControlPlane.Serving` : an event of a log.
* `Acknowledges` : what is sent back acknowledges a range.

## Main results

* `ControlPlane.serve_sound` : an event keeps the invariant of the targets.
* `ControlPlane.acknowledges_has` : the slots of a range are set when it is acknowledged.
* `ControlPlane.acknowledged_bytes` : the main theorem.

Source: `src/control.rs`, lines 62–164; `src/data.rs`, lines 76–147; `src/instance.rs`, lines
229–305.
-/

namespace Lazyd

open DataPlane (recvPacket parseFetchRequest)

/-- What is sent is a whole response: it is the response that the daemon has encoded. -/
theorem DataPlane.send_eq_encode {codec : PacketCodec} {socket : Socket}
    {response response' : DataResponse} {fd fd' : Option Fd} (hfits : response.CodeFits)
    (hfits' : response'.CodeFits)
    (h : (send socket (codec.encode response) fd).2 = [⟨codec.encode response', fd'⟩]) :
    response' = response ∧ fd' = fd := by
  have hread := codec.read_encode hfits
  rcases send_cases socket (codec.encode response) fd with ⟨hsend, -⟩ | ⟨err, cut, hsend, hcut⟩
  · rw [hsend] at h
    obtain ⟨hbytes, rfl⟩ := Packet.mk.inj (List.cons.inj h).1
    rw [hbytes, codec.read_encode hfits', Option.some.injEq] at hread
    exact ⟨hread, rfl⟩
  · rw [hsend] at h
    rcases hcut with rfl | ⟨n, rfl⟩
    · exact absurd h (by simp)
    · obtain ⟨hbytes, rfl⟩ := Packet.mk.inj (List.cons.inj h).1
      -- nothing may follow a response
      rw [← List.take_append_drop n (codec.encode response), hbytes,
        codec.read_append _ _ hfits'] at hread
      split_ifs at hread
      exact ⟨Option.some.inj hread, rfl⟩

theorem DataPlane.parseFetchRequest_eq_ok {codec : PacketCodec} {packet : List UInt8}
    {request : FetchRequest} (h : parseFetchRequest codec packet = .ok request) :
    codec.decode packet = .ok request := by
  rw [parseFetchRequest] at h
  cases hdecode : codec.decode packet with
  | error msg => exact absurd h (by simp [hdecode])
  | ok request' =>
    simp only [hdecode] at h
    split_ifs at h
    exact congrArg Except.ok (Except.ok.inj h)

section Allowed

variable (P : Platform) (bytes : String → ℕ → UInt8) (paths : Set String)

/-- An event whose openings are allowed, under a remote that is honest about the blob of each
digest. -/
def ServiceEvent.Allowed (cp : ControlPlane) : ServiceEvent → Prop
  | .control stream answers => ∀ action op,
    (ServiceEvent.control stream answers).action P = some action →
    action.operation cp.imageCacheDir answers = some op →
    op.Allowed P.codec P.ino paths cp.daemon ∧ op.Honest bytes cp.daemon
  | .data socket answers => ∀ packet request live, recvPacket socket = .ok packet →
    parseFetchRequest P.packets packet = .ok request →
    cp.daemon.instances request.instanceId = some live →
    live.inst.tasks.SoloOk (Instance.Honest (bytes live.inst.config.blob.digest))
      (live.shared cp.daemon.files.disk) .idle
      (.call (.prepareFetchRange request.pos.toNat request.len.toNat answers.pageSize.toNat) ::
        answers.fetch)
  | .restart _ => True

/-- What is sent back acknowledges the range: a `204` to a request for it, or the range with a
descriptor. -/
def Acknowledges (id : String) (offset len : ℕ) : ServiceEvent → ServiceReply → Prop
  | .control stream _, .http sent => ∃ range reply,
    ControlPlane.Served.action P.bodies ⟨stream, sent⟩ = some (.ensureRange id range) ∧
    ControlPlane.Served.reply ⟨stream, sent⟩ = some reply ∧ reply.status = 204 ∧
    range.offset.toNat = offset ∧ range.len.toNat = len
  | .data socket _, .packets sent => ∃ packet request version requestId range fd,
    recvPacket socket = .ok packet ∧ P.packets.decode packet = .ok request ∧
    request.instanceId = id ∧
    sent = [⟨P.packets.encode (.fetchOk version requestId [range]), some fd⟩] ∧
    range.devOff.toNat = offset ∧ range.len.toNat = len
  | _, _ => False

namespace ControlPlane

/-- An allowed event, with what is sent back. -/
def Serving (cp : ControlPlane) (entry : ServiceEvent × ServiceReply) (cp' : ControlPlane) : Prop :=
  entry.1.Allowed P bytes paths cp ∧ cp.serve P entry.1 = some (entry.2, cp')

variable {P bytes paths} {cp cp' : ControlPlane} {event : ServiceEvent} {reply : ServiceReply}

/-- The open instances and the bitmap files are sound. -/
def Sound (P : Platform) (bytes : String → ℕ → UInt8) (paths : Set String) (cp : ControlPlane) :
    Prop :=
  CacheSound P.codec P.ino bytes paths cp.daemon.instances cp.daemon.files

/-- **An event keeps the invariant.** -/
theorem serve_sound (hapart : PathsApart P.ino paths) (hsound : cp.Sound P bytes paths)
    (hallowed : event.Allowed P bytes paths cp) (h : cp.serve P event = some (reply, cp')) :
    cp'.Sound P bytes paths := by
  cases event with
  | control stream answers =>
    obtain ⟨res, sent, rfl, hserve⟩ := serve_control h
    rcases (handleStream_action hserve).2 with ⟨-, rfl⟩ | ⟨action, response, haction, hperform, -⟩
    · exact hsound
    · rcases Daemon.perform_operate hperform with ⟨-, hsame⟩ | ⟨op, hop, hoperate⟩
      · rwa [Sound, hsame]
      · obtain ⟨hopening, hhonest⟩ := hallowed action op haction hop
        exact Daemon.operate_sound hapart hopening hhonest hsound hoperate
  | data socket answers =>
    obtain ⟨res, sent, rfl, -, hserve⟩ := serve_data h
    rcases Daemon.handleStreamOnce_cases hserve with ⟨-, hsame⟩ |
      ⟨packet, request, res, hrecv, hparse, hfetch, -⟩
    · rwa [Sound, hsame]
    · rcases Daemon.fetchRange_cases hfetch with ⟨-, hsame⟩ |
        ⟨live, s, call, out, hlive, hsolo, hused, -⟩
      · rwa [Sound, hsame]
      · rw [Sound, hused]
        exact (hsound.used hapart hlive (hallowed packet request live hrecv hparse hlive) hsolo).1
  | restart fanotify =>
    obtain ⟨-, rfl⟩ := Prod.mk.inj (Option.some.inj h)
    exact CacheSound.forget hsound fun id live hno => absurd hno (by simp [start, Daemon.start])

/-- The range is there, as far as it is inside the blob. -/
def HasRange (cp : ControlPlane) (id : String) (offset len : ℕ) : Prop :=
  ∃ live, cp.daemon.instances id = some live ∧
    live.inst.Has live.slots offset (min live.inst.blobSize (offset + len) - offset)

theorem HasRange.keeps {id : String} {offset len : ℕ} (h : cp.HasRange id offset len)
    (hkeeps : cp.daemon.Keeps cp'.daemon id) : cp'.HasRange id offset len := by
  obtain ⟨live, hlive, hhas⟩ := h
  obtain ⟨live', hlive', hinst, hgrows⟩ := hkeeps live hlive
  refine ⟨live', hlive', ?_⟩
  rw [hinst]
  exact hhas.mono hgrows

/-- A call that has returned `Ok` leaves its range there. -/
theorem hasRange_used {d : Daemon} {id : String} {live : Live} {call : Instance.Call}
    {es : List Instance.Event} {s : Instance.Shared} {call' : Instance.Call} {offset len : ℕ}
    (hslots : live.slots.length = live.inst.rangeMap.slotCount)
    (hsolo : live.inst.tasks.solo (live.shared d.files.disk) .idle (.call call :: es) =
      some (s, .returned call' .ok)) (hcp : cp.daemon = d.used id live s)
    (hoffset : call.offset = offset)
    (hend : min live.inst.blobSize (offset + len) ≤ call.endPos live.inst) :
    cp.HasRange id offset len := by
  obtain rfl := Option.some.inj (Instance.callOf_solo hsolo)
  obtain ⟨-, -, hhas⟩ := Instance.ready_solo hslots hsolo
  subst hoffset
  have hpart : live.inst.Has s.slots call'.offset
      (min live.inst.blobSize (call'.offset + len) - call'.offset) :=
    (hhas rfl).part le_rfl (by omega)
  refine ⟨{ live with slots := s.slots, inflight := s.inflight }, ?_, hpart⟩
  rw [hcp]
  exact Function.update_self _ _ _

/-- **The slots of a range are set when it is acknowledged.** -/
theorem acknowledges_has (hsound : cp.Sound P bytes paths)
    (h : cp.serve P event = some (reply, cp')) {id : String} {offset len : ℕ}
    (hack : Acknowledges P id offset len event reply) : cp'.HasRange id offset len := by
  cases event with
  | control stream answers =>
    obtain ⟨res, sent, rfl, hserve⟩ := serve_control h
    obtain ⟨range, httpReply, haction, hreply, hstatus, rfl, rfl⟩ := hack
    obtain ⟨-, ⟨hnone, -⟩ | ⟨action, response, haction', hperform, hread⟩⟩ :=
      handleStream_action hserve
    · exact absurd (haction.symm.trans hnone) (by simp)
    · obtain rfl := Option.some.inj (haction.symm.trans haction')
      have hcode := (hread httpReply hreply).1.symm.trans hstatus
      simp only [Daemon.perform] at hperform
      split at hperform
      · rename_i d hensure
        obtain ⟨-, rfl⟩ := Prod.mk.inj (Option.some.inj hperform)
        cases hlive : cp.daemon.instances id with
        | none =>
          rw [Daemon.ensureRange, hlive] at hensure
          exact absurd (Prod.mk.inj (Option.some.inj hensure)).1 (by simp)
        | some live =>
          obtain ⟨s, call, hsolo, hused⟩ := Daemon.ensureRange_eq_some hlive hensure
          exact hasRange_used (hsound.lives id live hlive).slots.length_slots hsolo hused rfl
            (min_le_right _ _)
      · rename_i err d hensure
        obtain ⟨rfl, -⟩ := Prod.mk.inj (Option.some.inj hperform)
        exact absurd hcode (Daemon.success_ne_statusCode (.ensureRange id range) err)
      · exact absurd hperform (by simp)
      · exact absurd hperform (by simp)
  | data socket answers =>
    obtain ⟨res, sent, rfl, -, hserve⟩ := serve_data h
    obtain ⟨packet, request, version, requestId, range, fd, hrecv, hdecode, rfl, hsent, rfl, rfl⟩ :=
      hack
    have hno (hnone : ∀ p ∈ sent, p.fd = none) : False := by
      rw [hsent] at hnone
      exact absurd (hnone _ (List.mem_singleton_self _)) (by simp)
    rcases Daemon.handleStreamOnce_cases hserve with ⟨hnone, -⟩ |
      ⟨packet', request', res, hrecv', hparse, hfetch, hnone | ⟨range', file, rfl, hsend⟩⟩
    · exact (hno hnone).elim
    · exact (hno hnone).elim
    · have hfits (version : UInt32) (requestId : String) (range : DataPlane.FetchRange) :
          (DataPlane.DataResponse.fetchOk version requestId [range]).CodeFits := trivial
      obtain ⟨hresponse, -⟩ :=
        DataPlane.send_eq_encode (hfits _ _ _) (hfits _ _ _) (hsend.symm.trans hsent)
      obtain ⟨-, -, hranges⟩ := DataPlane.DataResponse.fetchOk.inj hresponse
      obtain rfl := (List.cons.inj hranges).1
      obtain rfl := Except.ok.inj (hrecv.symm.trans hrecv')
      obtain rfl := Except.ok.inj (hdecode.symm.trans (DataPlane.parseFetchRequest_eq_ok hparse))
      rcases Daemon.fetchRange_cases hfetch with ⟨⟨err, hno⟩, -⟩ |
        ⟨live, s, call, out, hlive, hsolo, hused, hok⟩
      · exact absurd hno (by simp)
      · obtain ⟨rfl, rfl, -⟩ := hok _ _ rfl
        exact hasRange_used (hsound.lives _ live hlive).slots.length_slots hsolo hused rfl le_rfl
  | restart fanotify => exact hack.elim

/-! ### Runs -/

/-- The invariant holds in every run. -/
theorem sound_run (hapart : PathsApart P.ino paths) {files : Files}
    (hfresh : Daemon.FreshTargets P.ino paths files) {fanotify : Option FanotifyBackend}
    {dir : String} {log : List (ServiceEvent × ServiceReply)}
    (hrun : Logged (Serving P bytes paths) (start files fanotify dir) log cp) :
    cp.Sound P bytes paths :=
  hrun.invariant (I := fun cp => cp.Sound P bytes paths)
    (Daemon.cacheSound_start hfresh fanotify)
    fun _ _ _ hsound hserving => serve_sound hapart hsound hserving.1 hserving.2

/-- A range that is there is not fetched again. -/
theorem Sound.ensureRange_of_has (hsound : cp.Sound P bytes paths) {id : String} {live : Live}
    (hlive : cp.daemon.instances id = some live) {offset len : ℕ}
    (hhas : live.inst.Has live.slots offset len) :
    cp.daemon.ensureRange id offset len [.check] = some (.ok, cp.daemon) ∧
      ∀ es out d, cp.daemon.ensureRange id offset len es = some (out, d) →
        es = [.check] ∧ out = .ok ∧ d = cp.daemon := by
  have hslots : (live.shared cp.daemon.files.disk).slots.length = live.inst.rangeMap.slotCount :=
    (hsound.lives id live hlive).slots.length_slots
  have hsame : cp.daemon.used id live (live.shared cp.daemon.files.disk) = cp.daemon := by
    have hinstances : Function.update cp.daemon.instances id (some live) = cp.daemon.instances := by
      rw [← hlive, Function.update_eq_self]
    change { cp.daemon with instances := Function.update cp.daemon.instances id (some live) } = _
    rw [hinstances]
  constructor
  · have hcheck := Instance.ensureRange_check hslots hhas
    rw [Daemon.ensureRange, hlive]
    dsimp only
    rw [hcheck]
    exact congrArg (fun d => some (Instance.Outcome.ok, d)) hsame
  · intro es out d h
    obtain ⟨s, call, hsolo, rfl⟩ := Daemon.ensureRange_eq_some hlive h
    obtain ⟨hes, rfl, hout⟩ := Instance.ensureRange_of_has hslots hhas hsolo
    exact ⟨hes, hout, hsame⟩

/-- The bytes of a range that is there are in the target. -/
theorem Sound.holds_of_has (hsound : cp.Sound P bytes paths) {id : String} {live : Live}
    (hlive : cp.daemon.instances id = some live) {offset len : ℕ}
    (hhas : live.inst.Has live.slots offset len) :
    (cp.daemon.files.disk live.inst.target).Holds (bytes live.inst.config.blob.digest) offset
      (offset + len) := by
  have hslots := (hsound.lives id live hlive).slots
  have hmemory : live.inst.MemorySound (bytes live.inst.config.blob.digest)
      (live.shared cp.daemon.files.disk) := ⟨hslots.length_slots, hslots.memory⟩
  refine Instance.holds_of_ready hmemory (Or.imp_right (fun h => ⟨h.1, ?_⟩) hhas)
  exact (Instance.has_iff_isRangeReady hslots.length_slots _ _).mp hhas

/-- **What has been acknowledged is in the target.** Clients connect to the two sockets and the
daemon is restarted, in any order, under the conditions of `ownBytes_run`. When a client has been
told that a range is there, over either socket, and since then the instance has not been
unregistered and the daemon not restarted: the instance is registered, the target has the bytes of
its blob in the part of the range that is inside the blob, and a call of `ensure_range` for any of
it returns `Ok` after its first check, changes nothing, and does nothing else. -/
theorem acknowledged_bytes (hapart : PathsApart P.ino paths) {files : Files}
    (hfresh : Daemon.FreshTargets P.ino paths files) {fanotify : Option FanotifyBackend}
    {dir : String} {log before after : List (ServiceEvent × ServiceReply)}
    (hrun : Logged (Serving P bytes paths) (start files fanotify dir) log cp)
    (hlog : log = before ++ (event, reply) :: after) {id : String} {offset len : ℕ}
    (hack : Acknowledges P id offset len event reply)
    (hafter : ∀ entry ∈ after, ¬ entry.1.TakesOut P id) :
    ∃ live, cp.daemon.instances id = some live ∧
      (cp.daemon.files.disk live.inst.target).Holds (bytes live.inst.config.blob.digest) offset
        (min live.inst.blobSize (offset + len)) ∧
      ∀ o l, offset ≤ o → o + l ≤ min live.inst.blobSize (offset + len) →
        cp.daemon.ensureRange id o l [.check] = some (.ok, cp.daemon) ∧
        ∀ es out d, cp.daemon.ensureRange id o l es = some (out, d) →
          es = [.check] ∧ out = .ok ∧ d = cp.daemon := by
  have hsound := sound_run hapart hfresh hrun
  have hrange : cp.HasRange id offset len := by
    refine hrun.since (I := fun cp => cp.HasRange id offset len) hlog ?_ hafter ?_
    · rintro cp₁ cp₂ hbefore ⟨-, hserve⟩
      exact acknowledges_has (sound_run hapart hfresh hbefore) hserve hack
    · rintro cp₁ entry cp₂ hrange hstays ⟨-, hserve⟩
      exact hrange.keeps (serve_keeps hserve hstays)
  obtain ⟨live, hlive, hhas⟩ := hrange
  refine ⟨live, hlive, (hsound.holds_of_has hlive hhas).mono le_rfl (by omega), ?_⟩
  intro o l hoffset hend
  exact hsound.ensureRange_of_has hlive (hhas.part hoffset (by omega))

end ControlPlane

end Allowed

/-! ### A small service -/

namespace ControlPlane

/-- A request for the three bytes of the blob. -/
def smallPost : Http.Message where
  method := "POST"
  path := "/api/v1/instances/a/ranges/ensure"
  version := "HTTP/1.1"
  headers := ["Content-Length: 20"]
  body := JsonBytes.utf8 smallRangeBody
  method_ne := by decide
  path_ne := by decide
  method_word := by decide
  path_word := by decide
  version_line := Http.smallMessage.version_line
  headers_line := by decide
  body_length := by decide +kernel

theorem length_smallPost : smallPost.bytes.length ≤ 4096 := by decide +kernel

def smallPlatform : Platform where
  codec := headerJson
  ino := Daemon.smallIno
  bodies := smallBodies
  packets := DataPlane.packetJson
  ioText := fun _ => "I/O error"

/-- The instance is registered, and then its blob is fetched. -/
def putEvent : ServiceEvent := .control servedPut.stream {}

def postEvent : ServiceEvent :=
  .control (smallPost.oneRead length_smallPost) { ensure := Daemon.smallEnsure [7, 7, 7] }

/-- What is sent back in both cases. -/
def smallReply : ServiceReply :=
  .http (Http.renderResponse Http.errorJson (fun _ => "I/O error") (.ok (.empty 204)))

/-- A fetch of the page of the blob, on the data socket. -/
def pageRequest : DataPlane.FetchRequest := { DataPlane.smallRequest with instanceId := "a" }

def pageAnswers : Daemon.PacketAnswers where
  pageSize := 4096
  fetch := [.check, .clone (.ok ())]
  fd := 7

def fetchEvent : ServiceEvent :=
  .data (DataPlane.received (DataPlane.writeRequest pageRequest)) pageAnswers

def fetchReply : ServiceReply :=
  .packets [⟨DataPlane.writeResponse (.fetchOk DataPlane.protocolVersion "req-1" [⟨0, 4096, 0⟩]),
    some 7⟩]

theorem decode_smallPost :
    decode smallBodies ⟨smallPost.method, smallPost.path, smallPost.body⟩ =
      .ok (.ensureRange "a" ⟨0, 3⟩) := by
  have hendpoint : Http.endpoint smallPost.method smallPost.path = .ok (.ensureRange "a") := by
    decide +kernel
  have hrange : smallBodies.range smallPost.body = .ok ⟨0, 3⟩ := by
    simp only [smallBodies, smallPost, ↓reduceIte]
  simp only [decode, hendpoint, hrange]

theorem action_postEvent : postEvent.action smallPlatform = some (.ensureRange "a" ⟨0, 3⟩) := by
  simp only [postEvent, ServiceEvent.action, Served.action,
    smallPost.readRequest_oneRead length_smallPost, smallPlatform, decode_smallPost,
    Except.toOption]

theorem action_putEvent : putEvent.action smallPlatform =
    some (.register "a" (Daemon.smallConfigOf newBlob "a")) := by
  simp only [putEvent, ServiceEvent.action, Served.action, servedPut,
    smallPut.readRequest_oneRead length_smallPut, smallPlatform, decode_smallPut, Except.toOption]

theorem allowed_putEvent : putEvent.Allowed smallPlatform Daemon.smallBytes
    {smallConfig.targetPath} (start Daemon.smallFiles none "/var/lib/lazyd/images") := by
  intro action op haction hop
  rw [← putEvent, action_putEvent, Option.some.injEq] at haction
  subst haction
  obtain rfl := Option.some.inj hop
  refine ⟨fun _ _ => ⟨Set.mem_singleton _, fun _ _ _ _ hno => ?_, fun _ _ _ hno => ?_⟩, trivial⟩
  · exact absurd hno (by simp [start, Daemon.start])
  · exact absurd ((Daemon.smallFiles_get "a" newBlob).symm.trans hno) (by simp)

theorem allowed_postEvent {cp : ControlPlane}
    (hlive : cp.daemon.instances "a" = some ⟨Daemon.newInstance, [0], []⟩) :
    postEvent.Allowed smallPlatform Daemon.smallBytes {smallConfig.targetPath} cp := by
  intro action op haction hop
  rw [← postEvent, action_postEvent, Option.some.injEq] at haction
  subst haction
  obtain rfl := Option.some.inj hop
  exact ⟨trivial, Daemon.honest_smallEnsure hlive Daemon.smallBytes_newBlob⟩

theorem recvPacket_pageRequest :
    recvPacket (DataPlane.received (DataPlane.writeRequest pageRequest)) =
      .ok (DataPlane.writeRequest pageRequest) :=
  DataPlane.recvPacket_received (DataPlane.writeRequest_ne_nil _) (by decide +kernel)

theorem parse_pageRequest :
    parseFetchRequest DataPlane.packetJson (DataPlane.writeRequest pageRequest) =
      .ok pageRequest := by
  rw [parseFetchRequest, DataPlane.packetJson_writeRequest]
  rfl

theorem newInstance_page (disk : Disk) : Daemon.newInstance.tasks.solo ⟨disk, [1], []⟩ .idle
      (.call (.prepareFetchRange 0 4096 4096) :: pageAnswers.fetch) =
    some (⟨disk, [1], []⟩, .returned (.prepareFetchRange 0 4096 4096) .ok) := rfl

theorem allowed_fetchEvent {cp : ControlPlane} :
    fetchEvent.Allowed smallPlatform Daemon.smallBytes {smallConfig.targetPath} cp := by
  intro packet request live hrecv hparse hlive
  refine TaskSystem.soloOk_of_forall (fun e he l => ?_) _ _
  simp only [pageAnswers, List.mem_cons, List.not_mem_nil, or_false] at he
  rcases he with rfl | rfl | rfl <;> simp [Instance.Honest]

theorem serve_fetchEvent {cp : ControlPlane}
    (hlive : cp.daemon.instances "a" = some ⟨Daemon.newInstance, [1], []⟩) :
    ∃ cp', cp.serve smallPlatform fetchEvent = some (fetchReply, cp') := by
  have hfetch : ∃ d, cp.daemon.fetchRange pageRequest pageAnswers =
      some (.ok (⟨0, 4096, 0⟩, ⟨7, Daemon.newInstance.target⟩), d) := by
    have hpage : ¬ pageAnswers.pageSize ≤ 0 := by decide
    have hinstance : cp.daemon.instances pageRequest.instanceId =
        some ⟨Daemon.newInstance, [1], []⟩ := hlive
    have hsolo := newInstance_page cp.daemon.files.disk
    have hcall : Instance.Call.prepareFetchRange pageRequest.pos.toNat pageRequest.len.toNat
        pageAnswers.pageSize.toNat = .prepareFetchRange 0 4096 4096 := rfl
    refine ⟨cp.daemon.used "a" ⟨Daemon.newInstance, [1], []⟩ ⟨cp.daemon.files.disk, [1], []⟩, ?_⟩
    rw [Daemon.fetchRange, if_neg hpage, hinstance, hcall]
    dsimp only [Live.shared]
    rw [hsolo]
    rfl
  obtain ⟨d, hfetch⟩ := hfetch
  have honce : cp.daemon.handleStreamOnce DataPlane.packetJson (fun _ => "I/O error")
      (DataPlane.received (DataPlane.writeRequest pageRequest)) pageAnswers =
        some (.ok (), [⟨DataPlane.packetJson.encode (.fetchOk DataPlane.protocolVersion "req-1"
          [⟨0, 4096, 0⟩]), some 7⟩], d) := by
    have hfits : ¬ DataPlane.maxPacketBytes < (DataPlane.packetJson.encode (.fetchOk
        DataPlane.protocolVersion "req-1" [⟨0, 4096, 0⟩])).length := by decide +kernel
    have hid : pageRequest.requestId = "req-1" := rfl
    rw [Daemon.handleStreamOnce, recvPacket_pageRequest]
    simp only [Daemon.handlePacket, parse_pageRequest, hfetch, DataPlane.sendPacketWithFd, hid,
      DataPlane.send, if_neg hfits, DataPlane.received, ne_eq, not_true_eq_false, if_false]
  simp only [fetchEvent, serve]
  split
  · rename_i hnone
    exact absurd (hnone.symm.trans honce) (by simp)
  · rename_i hsome
    obtain ⟨-, hrest⟩ := Prod.mk.inj (Option.some.inj (hsome.symm.trans honce))
    obtain ⟨rfl, -⟩ := Prod.mk.inj hrest
    exact ⟨_, rfl⟩

theorem serve_control_of {P : Platform} {cp cp' : ControlPlane} {stream : Http.Stream}
    {answers : RequestAnswers} {res : Except Error Unit} {sent : List UInt8}
    (h : cp.handleStream P.codec P.ino P.bodies P.ioText stream answers = some (res, sent, cp')) :
    cp.serve P (.control stream answers) = some (.http sent, cp') := by
  rw [serve, h, Option.map_some]

/-- The three events, in a run. -/
theorem smallService_run : ∃ cp,
    Logged (Serving smallPlatform Daemon.smallBytes {smallConfig.targetPath})
      (start Daemon.smallFiles none "/var/lib/lazyd/images")
      [(putEvent, smallReply), (postEvent, smallReply), (fetchEvent, fetchReply)] cp := by
  obtain ⟨d, hput, hlive⟩ := perform_smallPut
  have hserved : ∃ cp, (start Daemon.smallFiles none "/var/lib/lazyd/images").handleStream
      headerJson Daemon.smallIno smallBodies (fun _ => "I/O error") servedPut.stream {} =
        some (.ok (), servedPut.sent, cp) ∧ cp.daemon = d :=
    handleStream_of_perform (smallPut.readRequest_oneRead length_smallPut) decode_smallPut rfl hput
  obtain ⟨cp₁, hserve₁, rfl⟩ := hserved
  obtain ⟨d, hensure, -, -, -, hinstances⟩ := Daemon.ensureRange_of_solo hlive
    (Daemon.newInstance_fetches cp₁.daemon.files.disk)
  have hpost : cp₁.daemon.perform headerJson Daemon.smallIno smallBodies cp₁.imageCacheDir
      cp₁.ids.card { ensure := Daemon.smallEnsure [7, 7, 7] } (.ensureRange "a" ⟨0, 3⟩) =
        some (.ok (.empty 204), d) := by
    have hrange : cp₁.daemon.ensureRange "a" (0 : UInt64).toNat (3 : UInt64).toNat
        (Daemon.smallEnsure [7, 7, 7]) = some (.ok, d) := hensure
    simp only [Daemon.perform, hrange]
  have hserved : ∃ cp, cp₁.handleStream headerJson Daemon.smallIno smallBodies
      (fun _ => "I/O error") (smallPost.oneRead length_smallPost)
      { ensure := Daemon.smallEnsure [7, 7, 7] } =
        some (.ok (), Http.renderResponse Http.errorJson (fun _ => "I/O error") (.ok (.empty 204)),
          cp) ∧
      cp.daemon = d :=
    handleStream_of_perform (smallPost.readRequest_oneRead length_smallPost) decode_smallPost rfl
      hpost
  obtain ⟨cp₂, hserve₂, rfl⟩ := hserved
  have hready : cp₂.daemon.instances "a" = some ⟨Daemon.newInstance, [1], []⟩ := by
    rw [hinstances, Function.update_self]
  obtain ⟨cp₃, hserve₃⟩ := serve_fetchEvent hready
  exact ⟨cp₃, ((Logged.nil.snoc
    ⟨allowed_putEvent, serve_control_of (P := smallPlatform) hserve₁⟩).snoc
    ⟨allowed_postEvent hlive, serve_control_of (P := smallPlatform) hserve₂⟩).snoc
    ⟨allowed_fetchEvent, hserve₃⟩⟩

/-- Clients have been told that the three bytes are there, one on each socket, and they are. -/
theorem acknowledged_bytes_small : ∃ cp live live',
    Logged (Serving smallPlatform Daemon.smallBytes {smallConfig.targetPath})
      (start Daemon.smallFiles none "/var/lib/lazyd/images")
      [(putEvent, smallReply), (postEvent, smallReply), (fetchEvent, fetchReply)] cp ∧
    cp.daemon.instances "a" = some live ∧
    (cp.daemon.files.disk live.inst.target).Holds (Daemon.smallBytes live.inst.config.blob.digest) 0
      (min live.inst.blobSize (0 + 3)) ∧
    cp.daemon.instances "a" = some live' ∧
    (cp.daemon.files.disk live'.inst.target).Holds (Daemon.smallBytes live'.inst.config.blob.digest)
      0 (min live'.inst.blobSize (0 + 4096)) := by
  obtain ⟨cp, hrun⟩ := smallService_run
  have hpost : [(putEvent, smallReply), (postEvent, smallReply), (fetchEvent, fetchReply)] =
      [(putEvent, smallReply)] ++ (postEvent, smallReply) :: [(fetchEvent, fetchReply)] := rfl
  have hfetch : [(putEvent, smallReply), (postEvent, smallReply), (fetchEvent, fetchReply)] =
      [(putEvent, smallReply), (postEvent, smallReply)] ++ (fetchEvent, fetchReply) :: [] := rfl
  have hreply : Served.reply ⟨smallPost.oneRead length_smallPost,
      Http.renderResponse Http.errorJson (fun _ => "I/O error") (.ok (.empty 204))⟩ =
        some ⟨204, none, []⟩ :=
    (Http.plain_empty (by decide)).readReply_self (by decide)
  have hposted : Acknowledges smallPlatform "a" 0 3 postEvent smallReply :=
    ⟨⟨0, 3⟩, ⟨204, none, []⟩, action_postEvent, hreply, rfl, rfl, rfl⟩
  have hfetched : Acknowledges smallPlatform "a" 0 4096 fetchEvent fetchReply :=
    ⟨_, pageRequest, _, _, ⟨0, 4096, 0⟩, 7, recvPacket_pageRequest,
      DataPlane.packetJson_writeRequest pageRequest, rfl, rfl, rfl, rfl⟩
  have hstays : ∀ entry ∈ [(fetchEvent, fetchReply)], ¬ entry.1.TakesOut smallPlatform "a" := by
    intro entry hentry
    obtain rfl := List.mem_singleton.mp hentry
    rintro (hno | ⟨fanotify, hno⟩)
    · exact absurd hno (by simp [fetchEvent, ServiceEvent.action])
    · exact absurd hno (by simp [fetchEvent])
  obtain ⟨live, hlive, hholds, -⟩ := acknowledged_bytes Daemon.pathsApart_small
    (Daemon.freshTargets_small _) hrun hpost hposted hstays
  obtain ⟨live', hlive', hholds', -⟩ := acknowledged_bytes Daemon.pathsApart_small
    (Daemon.freshTargets_small _) hrun hfetch hfetched (by simp)
  exact ⟨cp, live, live', hrun, hlive, hholds, hlive', hholds'⟩

end ControlPlane

end Lazyd
