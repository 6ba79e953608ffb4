import Lazyd.Data.Packets

/-!
# Every packet is answered, if the answer fits

A packet that has been received should be answered once: with the range and the descriptor if the
fetch succeeds, with an error otherwise, and with the id of the request in both cases. A response
echoes texts that the client chose, and it has more around them than a request has, but it is sent
under the same limit. So a packet is answered if and only if its answer fits; how long the answer is
depends on the request id, on the text of the error and on the numbers of the range alone.

## Main definitions

* `DataPlane.Answer` : what is answered to a packet.
* `DataPlane.AnsweredOnce` : the packet is answered as it should be.
* `DataPlane.AnswerFits` : the bound on the texts.

## Main results

* `DataPlane.answered_once_iff` : a packet is answered if and only if its answer fits.
* `DataPlane.not_answered` : otherwise nothing is sent, and the stream is closed.

Source: `src/data.rs`, lines 92–174 and 248–272.
-/

namespace Lazyd

namespace DataPlane

open JsonBytes

variable (codec : PacketCodec) (ioText : IoError → String) (env : Env)
  (socket : Socket) (packet : List UInt8)

/-! ### Answers -/

/-- What is answered to a packet, and the file whose descriptor is sent with it. -/
inductive Answer : DataResponse → Option OwnedFile → Prop
  | undecoded {msg : String} (h : codec.decode packet = .error msg) :
    Answer (.error protocolVersion "" 400 msg) none
  | version {request : FetchRequest} (h : codec.decode packet = .ok request)
    (hversion : request.protocolVersion ≠ protocolVersion) :
    Answer (.error protocolVersion request.requestId 400 "unsupported protocol_version") none
  | noId {request : FetchRequest} (h : codec.decode packet = .ok request)
    (hversion : request.protocolVersion = protocolVersion) (hid : request.requestId = "") :
    Answer (.error protocolVersion "" 400 "request_id is required") none
  | failed {request : FetchRequest} {err : Error} (h : codec.decode packet = .ok request)
    (hversion : request.protocolVersion = protocolVersion) (hid : request.requestId ≠ "")
    (hfetch : fetchRange env request = .error err) :
    Answer (.error protocolVersion request.requestId err.statusCode (err.message ioText)) none
  | fetched {request : FetchRequest} {range : FetchRange} {file : OwnedFile}
    (h : codec.decode packet = .ok request) (hversion : request.protocolVersion = protocolVersion)
    (hid : request.requestId ≠ "") (hfetch : fetchRange env request = .ok (range, file)) :
    Answer (.fetchOk protocolVersion request.requestId [range]) (some file)

/-- The packet is a request whose fetch succeeds. -/
def Fetched (range : FetchRange) (file : OwnedFile) : Prop :=
  ∃ request, codec.decode packet = .ok request ∧ request.protocolVersion = protocolVersion ∧
    request.requestId ≠ "" ∧ fetchRange env request = .ok (range, file)

/-- **A packet is answered as it should be.** One response is sent, which fits into a packet and has
the id of the request: a range with its descriptor if the fetch has succeeded, and an error without
a descriptor otherwise. -/
def AnsweredOnce : Prop :=
  ∃ response fd,
    handleStreamOnce codec ioText env socket = (.ok (), [⟨codec.encode response, fd⟩]) ∧
    (codec.encode response).length ≤ maxPacketBytes ∧
    (∀ request, codec.decode packet = .ok request → response.requestId = request.requestId) ∧
    ((∃ range file, Fetched codec env packet range file ∧
        (∃ requestId, response = .fetchOk protocolVersion requestId [range]) ∧
        fd = some file.fd) ∨
      (¬ ∃ range file, Fetched codec env packet range file) ∧
        (∃ requestId code msg, response = .error protocolVersion requestId code msg) ∧ fd = none)

/-- **The answer to a packet fits**: the request id, and the text of the error or the numbers of the
range, are short enough. -/
def AnswerFits : Prop :=
  match codec.decode packet with
  | .error msg => 64 + quoted "" + digits 400 + quoted msg ≤ maxPacketBytes
  | .ok request =>
    if request.protocolVersion ≠ protocolVersion then
      64 + quoted request.requestId + digits 400 + quoted "unsupported protocol_version" ≤
        maxPacketBytes
    else if request.requestId = "" then True
    else
      match fetchRange env request with
      | .error err =>
        64 + quoted request.requestId + digits err.statusCode + quoted (err.message ioText) ≤
          maxPacketBytes
      | .ok (range, _) =>
        90 + quoted request.requestId + digits range.off.toNat + digits range.len.toNat +
          digits range.devOff.toNat ≤ maxPacketBytes

variable {codec ioText env socket packet}

variable (codec ioText env packet) in
/-- Every packet has an answer. -/
theorem handlePacket_answer : ∃ response file, Answer codec ioText env packet response file ∧
    handlePacket codec ioText env packet =
      match file with
      | none => .error response
      | some file => .ok (response, file) := by
  rw [handlePacket, parseFetchRequest]
  cases hdecode : codec.decode packet with
  | error msg => exact ⟨_, none, .undecoded hdecode, rfl⟩
  | ok request =>
    simp only
    split_ifs with hversion hid
    · exact ⟨_, none, .version hdecode hversion, rfl⟩
    · refine ⟨_, none, .noId hdecode (not_not.mp hversion) hid, ?_⟩
      rw [hid]
    · cases hfetch : fetchRange env request with
      | error err =>
        have hhandle : handleFetch env request = .error err := by
          simp only [handleFetch, hfetch, bind, Except.bind]
        refine ⟨_, none, .failed hdecode (not_not.mp hversion) hid hfetch, ?_⟩
        simp only [hhandle]
      | ok result =>
        have hhandle : handleFetch env request =
            .ok (.fetchOk protocolVersion request.requestId [result.1], result.2) := by
          simp only [handleFetch, hfetch, bind, Except.bind, pure, Except.pure]
        refine ⟨_, some result.2, .fetched hdecode (not_not.mp hversion) hid hfetch, ?_⟩
        simp only [hhandle]

/-- A packet that has been received is answered. -/
theorem exists_answer (hrecv : recvPacket socket = .ok packet) :
    ∃ response file, Answer codec ioText env packet response file ∧
      handleStreamOnce codec ioText env socket =
        send socket (codec.encode response) (file.map (·.fd)) := by
  obtain ⟨response, file, hanswer, hhandle⟩ := handlePacket_answer codec ioText env packet
  refine ⟨response, file, hanswer, ?_⟩
  rw [handleStreamOnce, hrecv]
  simp only
  rw [hhandle]
  cases file <;> rfl

theorem Answer.requestId_eq {response : DataResponse} {file : Option OwnedFile}
    (h : Answer codec ioText env packet response file) {request : FetchRequest}
    (hdecode : codec.decode packet = .ok request) : response.requestId = request.requestId := by
  cases h with
  | undecoded h => exact nomatch h.symm.trans hdecode
  | version h hversion =>
    obtain rfl := Except.ok.inj (h.symm.trans hdecode)
    rfl
  | noId h hversion hid =>
    obtain rfl := Except.ok.inj (h.symm.trans hdecode)
    exact hid.symm
  | failed h hversion hid hfetch =>
    obtain rfl := Except.ok.inj (h.symm.trans hdecode)
    rfl
  | fetched h hversion hid hfetch =>
    obtain rfl := Except.ok.inj (h.symm.trans hdecode)
    rfl

/-- An answer is a range with a file if the fetch has succeeded, and an error otherwise. -/
theorem Answer.fetched_or_error {response : DataResponse} {file : Option OwnedFile}
    (h : Answer codec ioText env packet response file) :
    (∃ range cloned, Fetched codec env packet range cloned ∧
        (∃ requestId, response = .fetchOk protocolVersion requestId [range]) ∧ file = some cloned) ∨
      (¬ ∃ range cloned, Fetched codec env packet range cloned) ∧
        (∃ requestId code msg, response = .error protocolVersion requestId code msg) ∧
        file = none := by
  cases h with
  | undecoded h =>
    refine Or.inr ⟨?_, ⟨_, _, _, rfl⟩, rfl⟩
    rintro ⟨range, file, request, hdecode, -⟩
    exact nomatch h.symm.trans hdecode
  | version h hversion =>
    refine Or.inr ⟨?_, ⟨_, _, _, rfl⟩, rfl⟩
    rintro ⟨range, file, request, hdecode, hversion', -⟩
    obtain rfl := Except.ok.inj (h.symm.trans hdecode)
    exact hversion hversion'
  | noId h hversion hid =>
    refine Or.inr ⟨?_, ⟨_, _, _, rfl⟩, rfl⟩
    rintro ⟨range, file, request, hdecode, -, hid', -⟩
    obtain rfl := Except.ok.inj (h.symm.trans hdecode)
    exact hid' hid
  | failed h hversion hid hfetch =>
    refine Or.inr ⟨?_, ⟨_, _, _, rfl⟩, rfl⟩
    rintro ⟨range, file, request, hdecode, -, -, hfetch'⟩
    obtain rfl := Except.ok.inj (h.symm.trans hdecode)
    exact nomatch hfetch.symm.trans hfetch'
  | fetched h hversion hid hfetch =>
    exact Or.inl ⟨_, _, ⟨_, h, hversion, hid, hfetch⟩, ⟨_, rfl⟩, rfl⟩

theorem Answer.length_le_iff {response : DataResponse} {file : Option OwnedFile}
    (h : Answer codec ioText env packet response file) :
    (codec.encode response).length ≤ maxPacketBytes ↔ AnswerFits codec ioText env packet := by
  cases h with
  | undecoded h => rw [codec.length_error, AnswerFits, h]
  | version h hversion =>
    rw [codec.length_error, AnswerFits, h]
    simp only
    rw [if_pos hversion]
  | noId h hversion hid =>
    have hsmall :
        64 + quoted "" + digits 400 + quoted "request_id is required" ≤ maxPacketBytes := by
      decide +kernel
    rw [codec.length_error, AnswerFits, h]
    simp only
    rw [if_neg (not_not.mpr hversion), if_pos hid]
    exact iff_of_true hsmall trivial
  | failed h hversion hid hfetch =>
    rw [codec.length_error, AnswerFits, h]
    simp only
    rw [if_neg (not_not.mpr hversion), if_neg hid, hfetch]
  | fetched h hversion hid hfetch =>
    rw [codec.length_fetchOk, AnswerFits, h]
    simp only
    rw [if_neg (not_not.mpr hversion), if_neg hid, hfetch]

/-- An answer that does not fit is not sent, and the stream is closed. -/
theorem not_answered (hrecv : recvPacket socket = .ok packet)
    (hlarge : ¬ AnswerFits codec ioText env packet) :
    handleStreamOnce codec ioText env socket =
      (.error (.badRequest "data packet too large"), []) := by
  obtain ⟨response, file, hanswer, heq⟩ := @exists_answer codec ioText env socket packet hrecv
  rw [heq, send, if_pos (not_le.mp fun hle => hlarge (hanswer.length_le_iff.mp hle))]

/-- **Every packet is answered once, if its answer fits.** For every packet that is received over a
socket that does not fail, whatever it decodes to and whatever the fetch gives, the packet is
answered as it should be if and only if the answer fits. -/
theorem answered_once_iff (hrecv : recvPacket socket = .ok packet)
    (hsend : ∀ n, socket.send n = .ok n) :
    AnsweredOnce codec ioText env socket packet ↔ AnswerFits codec ioText env packet := by
  constructor
  · rintro ⟨response, fd, hsent, -⟩
    by_contra hlarge
    rw [not_answered hrecv hlarge] at hsent
    exact nomatch congrArg Prod.fst hsent
  · intro hfits
    obtain ⟨response, file, hanswer, heq⟩ := exists_answer hrecv
    have hle := hanswer.length_le_iff.mpr hfits
    refine ⟨response, file.map (·.fd), ?_, hle, fun request h => hanswer.requestId_eq h, ?_⟩
    · rw [heq, send, if_neg (not_lt.mpr hle), hsend]
      simp
    · rcases hanswer.fetched_or_error with
        ⟨range, cloned, hfetched, hresponse, rfl⟩ | ⟨hno, hresponse, rfl⟩
      · exact Or.inl ⟨range, cloned, hfetched, hresponse, rfl⟩
      · exact Or.inr ⟨hno, hresponse, rfl⟩

/-! ### Packets of a client -/

/-- A socket over which one packet is received, and everything is sent. -/
def received (packet : List UInt8) : Socket where
  recvmsg := .ok { bytes := packet, controlTruncated := false }
  send n := .ok n

theorem recvPacket_received {packet : List UInt8} (hne : packet ≠ [])
    (hle : packet.length ≤ maxPacketBytes) : recvPacket (received packet) = .ok packet := by
  rw [recvPacket, received]
  simp only [Bool.false_eq_true, if_false]
  rw [if_neg hne, List.take_of_length_le hle]

theorem writeRequest_ne_nil (request : FetchRequest) : writeRequest request ≠ [] :=
  List.cons_ne_nil _ _

/-- The instance `x` has been registered, and its pages can be fetched. -/
def smallEnv : Env where
  pageSize := 4096
  lastOsError := .os 0
  registryGet id := if id = "x" then
    some
      { target := ⟨1, 30⟩
        fetch := fun pos len _ => .ok (⟨.ofNat pos, .ofNat len, .ofNat pos⟩, 7) }
    else none

/-- A request for a page of the instance `x`. -/
def smallRequest : FetchRequest where
  protocolVersion := protocolVersion
  requestId := "req-1"
  op := .fetch
  instanceId := "x"
  pos := 0
  len := 4096

/-- The small request is answered. -/
theorem answered_once_smallRequest :
    AnsweredOnce packetJson (fun _ => "I/O error") smallEnv (received (writeRequest smallRequest))
      (writeRequest smallRequest) := by
  have hrecv := recvPacket_received (writeRequest_ne_nil smallRequest) (by decide +kernel)
  have hversion : ¬ smallRequest.protocolVersion ≠ protocolVersion := not_not.mpr rfl
  have hfetch : fetchRange smallEnv smallRequest = .ok (⟨0, 4096, 0⟩, ⟨7, ⟨1, 30⟩⟩) := rfl
  refine (answered_once_iff hrecv fun n => rfl).mpr ?_
  rw [AnswerFits, packetJson_writeRequest]
  simp only
  rw [if_neg hversion, if_neg (by decide), hfetch]
  decide +kernel

/-- A request with a long id, for an instance that has not been registered. -/
def longRequest : FetchRequest where
  protocolVersion := protocolVersion
  requestId := String.ofList (List.replicate 65448 'a')
  op := .fetch
  instanceId := "y"
  pos := 0
  len := 1

/-- The packet of the long request is received and decoded, but not answered. -/
theorem long_request_not_answered :
    (writeRequest longRequest).length ≤ maxPacketBytes ∧
    packetJson.decode (writeRequest longRequest) = .ok longRequest ∧
    recvPacket (received (writeRequest longRequest)) = .ok (writeRequest longRequest) ∧
    handleStreamOnce packetJson (fun _ => "I/O error") smallEnv
        (received (writeRequest longRequest)) =
      (.error (.badRequest "data packet too large"), []) ∧
    ¬ AnsweredOnce packetJson (fun _ => "I/O error") smallEnv
        (received (writeRequest longRequest)) (writeRequest longRequest) := by
  have hid : quoted longRequest.requestId = 65450 := quoted_replicate 65448
  have hlen : (writeRequest longRequest).length ≤ maxPacketBytes := by
    have hdigits : digits longRequest.protocolVersion.toNat + quoted longRequest.instanceId +
        digits longRequest.pos.toNat + digits longRequest.len.toNat = 6 := by decide +kernel
    rw [length_writeRequest, hid, maxPacketBytes]
    omega
  have hrecv := recvPacket_received (writeRequest_ne_nil longRequest) hlen
  have hlarge : ¬ AnswerFits packetJson (fun _ => "I/O error") smallEnv
      (writeRequest longRequest) := by
    have hne : longRequest.requestId ≠ "" := by
      intro h
      rw [h] at hid
      exact absurd hid (by decide +kernel)
    have hversion : ¬ longRequest.protocolVersion ≠ protocolVersion := not_not.mpr rfl
    have hfetch : fetchRange smallEnv longRequest = .error (.notFound "instance not found") := rfl
    have htexts : digits 404 + quoted "instance not found" = 23 := by decide +kernel
    rw [AnswerFits, packetJson_writeRequest]
    simp only
    rw [if_neg hversion, if_neg hne, hfetch, hid, maxPacketBytes]
    simp only [Error.statusCode, Error.message]
    omega
  refine ⟨hlen, packetJson_writeRequest longRequest, hrecv, not_answered hrecv hlarge, ?_⟩
  rintro ⟨response, fd, hsent, -⟩
  rw [not_answered hrecv hlarge] at hsent
  exact nomatch congrArg Prod.fst hsent

end DataPlane

end Lazyd
