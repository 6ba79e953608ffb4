import Lazyd.Library.Utf8
import Lazyd.RangeMap.Header

/-!
# Packets on the data socket

What the daemon does with a packet of a client: it decodes a request, fetches the pages that the
request asks for, and sends a response. Requests are decoded by the JSON library, which is not part
of the daemon, and responses are encoded by it: they are as long as in the compact encoding, and
they are read back. What a fetch gives, and what the socket does, are given from outside.

## Main definitions

* `DataPlane.FetchRequest`, `DataPlane.DataResponse`.
* `DataPlane.PacketCodec`, `DataPlane.packetJson` : the JSON library, and the compact encoding.
* `DataPlane.OwnedFile`, `DataPlane.RegisteredInstance` : files, and the instances that are fetched
  from.
* `DataPlane.Env`, `DataPlane.Socket` : the daemon's surroundings.
* `DataPlane.parseFetchRequest`, `DataPlane.handleFetch`, `DataPlane.handlePacket`.
* `DataPlane.recvPacket`, `DataPlane.sendPacket`, `DataPlane.handleStreamOnce`.
* `DataPlane.writeRequest`, `DataPlane.readRequest` : the compact encoding of requests.

## Main results

* `DataPlane.PacketCodec.length_error`, `DataPlane.PacketCodec.length_fetchOk` : how long responses
  are.
* `DataPlane.readRequest_writeRequest` : a request is read back from its compact encoding.
* `DataPlane.fetchRange_eq_ok` : a fetch gives a range and a clone of the target of the instance.

Source: `src/data.rs`, lines 11–53, 92–182, 248–272 and 330–384; `src/error.rs`, lines 28–46.
-/

namespace Lazyd

/-- `Error::message`; `ioText` is how an I/O error of the standard library is displayed. -/
def Error.message (ioText : IoError → String) : Error → String
  | .badRequest msg | .conflict msg | .notFound msg | .remote msg | .fanotify msg => msg
  | .io err => ioText err
  | .json msg | .http msg => msg

namespace DataPlane

open JsonBytes
open HeaderJson (key brace comma close readText readUnsigned readText_writeString
  readUnsigned_writeNat isDigit_of_head?)

/-! ### Requests and responses -/

/-- `PROTOCOL_VERSION` -/
def protocolVersion : UInt32 := 1

/-- `MAX_PACKET_BYTES` -/
def maxPacketBytes : ℕ := 64 * 1024

inductive FetchOp where
  | fetch
  deriving DecidableEq, Repr

structure FetchRequest where
  protocolVersion : UInt32
  requestId : String
  op : FetchOp
  instanceId : String
  pos : UInt64
  len : UInt64
  deriving DecidableEq, Repr

structure FetchRange where
  off : UInt64
  len : UInt64
  devOff : UInt64
  deriving DecidableEq, Repr

inductive DataResponse where
  | fetchOk (protocolVersion : UInt32) (requestId : String) (ranges : List FetchRange)
  | error (protocolVersion : UInt32) (requestId : String) (code : ℕ) (msg : String)
  deriving DecidableEq, Repr

/-- The request id in a response. -/
def DataResponse.requestId : DataResponse → String
  | fetchOk _ requestId _ => requestId
  | error _ requestId _ _ => requestId

/-! ### The compact encoding -/

def writeRange (range : FetchRange) : List UInt8 :=
  key brace "off" ++ (writeNat range.off.toNat ++ (key comma "len" ++ (writeNat range.len.toNat ++
    (key comma "dev_off" ++ (writeNat range.devOff.toNat ++ close)))))

/-- An array, between brackets and with commas between its elements. -/
def writeRanges (ranges : List FetchRange) : List UInt8 :=
  91 :: ([comma].intercalate (ranges.map writeRange) ++ [93])

/-- The compact encoding of a response. -/
def writeResponse : DataResponse → List UInt8
  | .fetchOk protocolVersion requestId ranges =>
    key brace "op" ++ (writeString (utf8 "fetch_ok") ++ (key comma "protocol_version" ++
      (writeNat protocolVersion.toNat ++ (key comma "request_id" ++
        (writeString (utf8 requestId) ++ (key comma "ranges" ++
          (writeRanges ranges ++ close)))))))
  | .error protocolVersion requestId code msg =>
    key brace "op" ++ (writeString (utf8 "error") ++ (key comma "protocol_version" ++
      (writeNat protocolVersion.toNat ++ (key comma "request_id" ++
        (writeString (utf8 requestId) ++ (key comma "code" ++ (writeNat code ++
          (key comma "msg" ++ (writeString (utf8 msg) ++ close)))))))))

/-- The compact encoding of a request. -/
def writeRequest (request : FetchRequest) : List UInt8 :=
  key brace "protocol_version" ++ (writeNat request.protocolVersion.toNat ++
    (key comma "request_id" ++ (writeString (utf8 request.requestId) ++ (key comma "op" ++
      (writeString (utf8 "fetch") ++ (key comma "instance_id" ++
        (writeString (utf8 request.instanceId) ++ (key comma "pos" ++
          (writeNat request.pos.toNat ++ (key comma "len" ++
            (writeNat request.len.toNat ++ close)))))))))))

/-- The request in a compact encoding. -/
def readRequest (bs : List UInt8) : Option FetchRequest := do
  let bs ← readLit (key brace "protocol_version") bs
  let (protocolVersion, bs) ← readUnsigned UInt32.size bs
  let bs ← readLit (key comma "request_id") bs
  let (requestId, bs) ← readText bs
  let bs ← readLit (key comma "op") bs
  let bs ← readLit (writeString (utf8 "fetch")) bs
  let bs ← readLit (key comma "instance_id") bs
  let (instanceId, bs) ← readText bs
  let bs ← readLit (key comma "pos") bs
  let (pos, bs) ← readUnsigned UInt64.size bs
  let bs ← readLit (key comma "len") bs
  let (len, bs) ← readUnsigned UInt64.size bs
  if bs = close then
    some
      { protocolVersion := UInt32.ofNat protocolVersion, requestId, op := .fetch, instanceId,
        pos := UInt64.ofNat pos, len := UInt64.ofNat len }
  else none

theorem readRequest_writeRequest (request : FetchRequest) :
    readRequest (writeRequest request) = some request := by
  have hcomma : isDigit comma = false := rfl
  have hclose (b : UInt8) (hb : close.head? = some b) : isDigit b = false := by
    obtain rfl := Option.some.inj hb
    rfl
  simp only [readRequest, writeRequest, readLit_append, readText_writeString,
    readUnsigned_writeNat request.protocolVersion.toNat_lt (isDigit_of_head? hcomma _ _),
    readUnsigned_writeNat request.pos.toNat_lt (isDigit_of_head? hcomma _ _),
    readUnsigned_writeNat request.len.toNat_lt hclose, Option.bind_eq_bind, Option.bind_some,
    ↓reduceIte, UInt32.ofNat_toNat, UInt64.ofNat_toNat]

def readRange (bs : List UInt8) : Option (FetchRange × List UInt8) := do
  let bs ← readLit (key brace "off") bs
  let (off, bs) ← readUnsigned UInt64.size bs
  let bs ← readLit (key comma "len") bs
  let (len, bs) ← readUnsigned UInt64.size bs
  let bs ← readLit (key comma "dev_off") bs
  let (devOff, bs) ← readUnsigned UInt64.size bs
  let bs ← readLit close bs
  some ({ off := UInt64.ofNat off, len := UInt64.ofNat len, devOff := UInt64.ofNat devOff }, bs)

/-- The response in a packet. -/
def readResponse (bs : List UInt8) : Option DataResponse := do
  let bs ← readLit (key brace "op") bs
  let (op, bs) ← readText bs
  let bs ← readLit (key comma "protocol_version") bs
  let (protocolVersion, bs) ← readUnsigned UInt32.size bs
  let bs ← readLit (key comma "request_id") bs
  let (requestId, bs) ← readText bs
  if op = "fetch_ok" then do
    let bs ← readLit (key comma "ranges") bs
    let (ranges, bs) ← readArray readRange bs
    if bs = close then some (.fetchOk (UInt32.ofNat protocolVersion) requestId ranges) else none
  else if op = "error" then do
    let bs ← readLit (key comma "code") bs
    let (code, bs) ← readUnsigned UInt16.size bs
    let bs ← readLit (key comma "msg") bs
    let (msg, bs) ← readText bs
    if bs = close then some (.error (UInt32.ofNat protocolVersion) requestId code msg) else none
  else none

theorem readRange_writeRange (range : FetchRange) (rest : List UInt8) :
    readRange (writeRange range ++ rest) = some (range, rest) := by
  have hcomma : isDigit comma = false := rfl
  have hclose (b : UInt8) (hb : (close ++ rest).head? = some b) : isDigit b = false := by
    obtain rfl := Option.some.inj hb
    rfl
  simp only [readRange, writeRange, List.append_assoc, readLit_append,
    readUnsigned_writeNat range.off.toNat_lt (isDigit_of_head? hcomma _ _),
    readUnsigned_writeNat range.len.toNat_lt (isDigit_of_head? hcomma _ _),
    readUnsigned_writeNat range.devOff.toNat_lt hclose, Option.bind_eq_bind, Option.bind_some,
    UInt64.ofNat_toNat]

theorem readArray_writeRanges (ranges : List FetchRange) (rest : List UInt8) :
    readArray readRange (writeRanges ranges ++ rest) = some (ranges, rest) := by
  refine @readArray_writeArray _ readRange writeRange readRange_writeRange (fun range => ?_)
    ranges rest
  exact ⟨brace, _, rfl, by decide⟩

/-- The code of a response is a `u16`. -/
def DataResponse.CodeFits : DataResponse → Prop
  | fetchOk .. => True
  | error _ _ code _ => code < UInt16.size

theorem readResponse_append {response : DataResponse} (h : response.CodeFits)
    (tail : List UInt8) :
    readResponse (writeResponse response ++ tail) = if tail = [] then some response else none := by
  have hcomma : isDigit comma = false := rfl
  have hne : ("error" : String) ≠ "fetch_ok" := by decide
  cases response with
  | fetchOk protocolVersion requestId ranges =>
    simp only [readResponse, writeResponse, List.append_assoc, readLit_append, readText_writeString,
      readArray_writeRanges,
      readUnsigned_writeNat protocolVersion.toNat_lt (isDigit_of_head? hcomma _ _),
      Option.bind_eq_bind, Option.bind_some, ↓reduceIte, UInt32.ofNat_toNat,
      List.append_right_eq_self]
  | error protocolVersion requestId code msg =>
    simp only [readResponse, writeResponse, List.append_assoc, readLit_append, readText_writeString,
      if_neg hne,
      readUnsigned_writeNat protocolVersion.toNat_lt (isDigit_of_head? hcomma _ _),
      readUnsigned_writeNat h (isDigit_of_head? hcomma _ _), Option.bind_eq_bind, Option.bind_some,
      ↓reduceIte, UInt32.ofNat_toNat, List.append_right_eq_self]

/-- The number of bytes of a text as a JSON string. -/
def quoted (text : String) : ℕ := (writeString (utf8 text)).length

/-- The number of digits of a number. -/
def digits (n : ℕ) : ℕ := (writeNat n).length

theorem utf8_ofList (chars : List Char) : utf8 (String.ofList chars) = Utf8.encode chars := by
  rw [utf8, String.toByteArray_ofList]
  exact List.toList_data_toByteArray

theorem quoted_replicate (n : ℕ) : quoted (String.ofList (List.replicate n 'a')) = n + 2 := by
  have hbytes : Utf8.encode (List.replicate n 'a') = List.replicate n 97 := by
    rw [Utf8.encode, List.flatMap_replicate]
    exact List.flatten_replicate_singleton
  have hescape : (List.replicate n (97 : UInt8)).flatMap escape = List.replicate n 97 := by
    rw [List.flatMap_replicate]
    exact List.flatten_replicate_singleton
  rw [quoted, utf8_ofList, hbytes, writeString, hescape, List.length_cons, List.length_append,
    List.length_replicate, List.length_singleton]

theorem length_writeRequest (request : FetchRequest) : (writeRequest request).length =
    77 + digits request.protocolVersion.toNat + quoted request.requestId +
      quoted request.instanceId + digits request.pos.toNat + digits request.len.toNat := by
  have hop : (key comma "op" ++ writeString (utf8 "fetch")).length = 13 := by decide +kernel
  have hkeys : (key brace "protocol_version").length + (key comma "request_id").length +
      (key comma "instance_id").length + (key comma "pos").length + (key comma "len").length +
      close.length = 64 := by decide +kernel
  rw [List.length_append] at hop
  simp only [writeRequest, List.length_append, quoted, digits]
  omega

/-- The length of an error response. -/
theorem length_writeResponse_error (requestId : String) (code : ℕ) (msg : String) :
    (writeResponse (.error protocolVersion requestId code msg)).length =
      64 + quoted requestId + digits code + quoted msg := by
  have hop : (key brace "op" ++ writeString (utf8 "error")).length = 13 := by decide +kernel
  have hversion : (key comma "protocol_version" ++ writeNat protocolVersion.toNat).length = 21 := by
    decide +kernel
  have hkeys : (key comma "request_id").length + (key comma "code").length +
      (key comma "msg").length + close.length = 30 := by decide +kernel
  rw [List.length_append] at hop hversion
  simp only [writeResponse, List.length_append, quoted, digits]
  omega

/-- The length of a response to a fetch. -/
theorem length_writeResponse_fetchOk (requestId : String) (range : FetchRange) :
    (writeResponse (.fetchOk protocolVersion requestId [range])).length =
      90 + quoted requestId + digits range.off.toNat + digits range.len.toNat +
        digits range.devOff.toNat := by
  have hop : (key brace "op" ++ writeString (utf8 "fetch_ok")).length = 16 := by decide +kernel
  have hversion : (key comma "protocol_version" ++ writeNat protocolVersion.toNat).length = 21 := by
    decide +kernel
  have hkeys : (key comma "request_id").length + (key comma "ranges").length +
      (key brace "off").length + (key comma "len").length + (key comma "dev_off").length +
      close.length + close.length = 51 := by decide +kernel
  rw [List.length_append] at hop hversion
  simp only [writeResponse, writeRanges, List.map_cons, List.map_nil, List.intercalate_singleton,
    writeRange, List.length_append, List.length_cons, List.length_nil, quoted, digits]
  omega

/-! ### The JSON library -/

/-- `serde_json` on packets. -/
structure PacketCodec where
  /-- `serde_json::from_slice` on a request, with the error in words -/
  decode : List UInt8 → Except String FetchRequest
  /-- `serde_json::to_vec` on a response -/
  encode : DataResponse → List UInt8
  /-- how a client reads a response -/
  read : List UInt8 → Option DataResponse
  length_encode : ∀ response, (encode response).length = (writeResponse response).length
  read_append : ∀ response tail, response.CodeFits →
    read (encode response ++ tail) = if tail = [] then some response else none

namespace PacketCodec

variable (codec : PacketCodec)

theorem length_error (requestId : String) (code : ℕ) (msg : String) :
    (codec.encode (.error protocolVersion requestId code msg)).length =
      64 + quoted requestId + digits code + quoted msg :=
  (codec.length_encode _).trans (length_writeResponse_error requestId code msg)

theorem length_fetchOk (requestId : String) (range : FetchRange) :
    (codec.encode (.fetchOk protocolVersion requestId [range])).length =
      90 + quoted requestId + digits range.off.toNat + digits range.len.toNat +
        digits range.devOff.toNat :=
  (codec.length_encode _).trans (length_writeResponse_fetchOk requestId range)

/-- **Responses are read back.** -/
theorem read_encode {response : DataResponse} (h : response.CodeFits) :
    codec.read (codec.encode response) = some response := by
  rw [← List.append_nil (codec.encode response), codec.read_append _ _ h, if_pos rfl]

end PacketCodec

/-- The compact encodings. -/
def packetJson : PacketCodec where
  decode packet := (readRequest packet).elim (.error "expected value at line 1 column 1") .ok
  encode := writeResponse
  read := readResponse
  length_encode _ := rfl
  read_append _ tail h := readResponse_append h tail

theorem packetJson_writeRequest (request : FetchRequest) :
    packetJson.decode (writeRequest request) = .ok request := by
  simp only [packetJson, readRequest_writeRequest, Option.elim_some]

/-! ### Handling a packet -/

/-- A file descriptor. -/
abbrev Fd := ℕ

/-- A `File` of the daemon: its descriptor, and the file that it is open on. -/
structure OwnedFile where
  fd : Fd
  key : FileKey
  deriving DecidableEq, Repr

/-- A registered instance, as far as a fetch depends on it. -/
structure RegisteredInstance where
  /-- the file that `target` is open on -/
  target : FileKey
  /-- the outcome of the checks and of `ensure_range`, with the range, and the descriptor that
  `try_clone` gives -/
  fetch : ℕ → ℕ → ℕ → Except Error (FetchRange × Fd)

/-- `Instance::prepare_fetch_range`; a clone of the target is open on the file of the target. -/
def RegisteredInstance.prepareFetchRange (inst : RegisteredInstance) (offset len pageSize : ℕ) :
    Except Error (FetchRange × OwnedFile) := do
  let (range, fd) ← inst.fetch offset len pageSize
  return (range, { fd, key := inst.target })

/-- The surroundings of the daemon that a fetch depends on. -/
structure Env where
  /-- `sysconf(_SC_PAGESIZE)`, and the last error of the operating system -/
  pageSize : ℤ
  lastOsError : IoError
  /-- the instances that are registered at that time -/
  registryGet : String → Option RegisteredInstance

variable (codec : PacketCodec) (ioText : IoError → String) (env : Env)

/-- `host_page_size` -/
def hostPageSize : Except Error ℕ :=
  if env.pageSize ≤ 0 then .error (.io env.lastOsError) else .ok env.pageSize.toNat

/-- `parse_fetch_request` -/
def parseFetchRequest (packet : List UInt8) : Except DataResponse FetchRequest :=
  match codec.decode packet with
  | .error msg => .error (.error protocolVersion "" 400 msg)
  | .ok request =>
    if request.protocolVersion ≠ protocolVersion then
      .error (.error protocolVersion request.requestId 400 "unsupported protocol_version")
    else if request.requestId = "" then
      .error (.error protocolVersion request.requestId 400 "request_id is required")
    else .ok request

/-- The fetch in `handle_fetch`. -/
def fetchRange (request : FetchRequest) : Except Error (FetchRange × OwnedFile) := do
  let pageSize ← hostPageSize env
  match env.registryGet request.instanceId with
  | none => .error (.notFound "instance not found")
  | some inst => inst.prepareFetchRange request.pos.toNat request.len.toNat pageSize

variable {env} in
/-- **What a fetch gives** is what the registered instance gives: its range, and a clone of its
target. -/
theorem fetchRange_eq_ok {request : FetchRequest} {range : FetchRange} {file : OwnedFile}
    (h : fetchRange env request = .ok (range, file)) :
    ∃ inst, env.registryGet request.instanceId = some inst ∧ file.key = inst.target ∧
      inst.fetch request.pos.toNat request.len.toNat env.pageSize.toNat = .ok (range, file.fd) := by
  simp only [fetchRange, hostPageSize, bind, Except.bind] at h
  by_cases hpage : env.pageSize ≤ 0
  · rw [if_pos hpage] at h
    exact nomatch h
  · rw [if_neg hpage] at h
    cases hget : env.registryGet request.instanceId with
    | none =>
      simp only [hget] at h
      exact nomatch h
    | some inst =>
      simp only [hget, RegisteredInstance.prepareFetchRange, bind, Except.bind] at h
      cases hfetch : inst.fetch request.pos.toNat request.len.toNat env.pageSize.toNat with
      | error err =>
        rw [hfetch] at h
        exact nomatch h
      | ok result =>
        rw [hfetch] at h
        obtain ⟨rfl, rfl⟩ := Prod.mk.inj (Except.ok.inj h)
        exact ⟨inst, rfl, rfl, hfetch⟩

/-- `handle_fetch` -/
def handleFetch (request : FetchRequest) : Except Error (DataResponse × OwnedFile) := do
  let (range, file) ← fetchRange env request
  return (.fetchOk protocolVersion request.requestId [range], file)

/-- `handle_packet` -/
def handlePacket (packet : List UInt8) : Except DataResponse (DataResponse × OwnedFile) :=
  match parseFetchRequest codec packet with
  | .error response => .error response
  | .ok request =>
    match handleFetch env request with
    | .ok response => .ok response
    | .error err =>
      .error (.error protocolVersion request.requestId err.statusCode (err.message ioText))

/-! ### The socket -/

/-- What `recvmsg` returns. -/
structure Datagram where
  bytes : List UInt8
  /-- `MSG_CTRUNC` -/
  controlTruncated : Bool

/-- What the socket does during one call. -/
structure Socket where
  recvmsg : Except IoError Datagram
  /-- how many of some number of bytes are sent -/
  send : ℕ → Except IoError ℕ

variable (socket : Socket)

/-- `SeqpacketStream::recv_packet`; only what fits into the buffer is received. -/
def recvPacket : Except Error (List UInt8) :=
  match socket.recvmsg with
  | .error err => .error (.io err)
  | .ok datagram =>
    if datagram.controlTruncated then .error (.remote "truncated fd control message")
    else if datagram.bytes = [] then .error (.remote "data peer closed")
    else .ok (datagram.bytes.take maxPacketBytes)

/-- A packet that has been sent, and the descriptor in its control message. -/
structure Packet where
  bytes : List UInt8
  fd : Option Fd
  deriving DecidableEq, Repr

/-- Sending a packet: the result, and the packets that have been sent. -/
def send (bytes : List UInt8) (fd : Option Fd) : Except Error Unit × List Packet :=
  if maxPacketBytes < bytes.length then (.error (.badRequest "data packet too large"), [])
  else
    match socket.send bytes.length with
    | .error err => (.error (.io err), [])
    | .ok sent =>
      if sent ≠ bytes.length then
        (.error (.remote "short seqpacket send"), [⟨bytes.take sent, fd⟩])
      else (.ok (), [⟨bytes, fd⟩])

/-- `SeqpacketStream::send_packet` -/
def sendPacket (bytes : List UInt8) : Except Error Unit × List Packet := send socket bytes none

/-- `SeqpacketStream::send_packet_with_fd` -/
def sendPacketWithFd (bytes : List UInt8) (fd : Fd) : Except Error Unit × List Packet :=
  send socket bytes (some fd)

/-- `handle_stream_once`: the result, and the packets that have been sent. -/
def handleStreamOnce : Except Error Unit × List Packet :=
  match recvPacket socket with
  | .error err => (.error err, [])
  | .ok packet =>
    match handlePacket codec ioText env packet with
    | .ok (response, file) => sendPacketWithFd socket (codec.encode response) file.fd
    | .error response => sendPacket socket (codec.encode response)

end DataPlane

end Lazyd
