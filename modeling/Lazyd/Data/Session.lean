import Lazyd.Data.Answers
import Lazyd.Data.Descriptors
import Lazyd.Library.TaskSystem

/-!
# Sessions on the data socket

Any number of clients are connected to the data socket. A client sends packets whenever it likes,
and need not wait for the answer to the one before. The daemon accepts a stream, handles the packets
of one stream one after the other, and those of different streams in any order. It clones the target
of an instance for a fetch that succeeds, sends the descriptor of the clone with the response, and
closes it. All streams share one table of descriptors with the rest of the daemon, so a number that
one stream has closed is soon another file of somebody else. Still a client gets the answers to its
packets in their order, each with a clone of the target of the instance that the packet has asked
for; no stream closes what it does not hold; and nothing but what the clients themselves have
attached stays open.

A client that hangs up is one that sends an empty packet: there is nothing more to receive then.

## Main definitions

* `DataPlane.OpenFile`, `DataPlane.Descriptors` : the open descriptors of the daemon, and their
  files.
* `DataPlane.ClientStream`, `DataPlane.StreamEvent`, `DataPlane.streams` : the streams.
* `DataPlane.Connection.holds` : the descriptors that a stream holds.
* `DataPlane.Exchange` : a packet with its answer.

## Main results

* `DataPlane.handleStreamOnce_eq` : the steps for one packet are `handle_stream_once`.
* `DataPlane.streamStep_cases` : everything that a step can do.
* `DataPlane.answers_in_order` : the answers come in the order of the packets.
* `DataPlane.descriptors_accounted` : the descriptors that are open.

Source: `src/data.rs`, lines 11–53, 76–174, 237–272 and 313–367; `src/instance.rs`, lines 295–305.
-/

namespace Lazyd

namespace DataPlane

open JsonBytes
open HeaderJson (key brace comma close readText readUnsigned readText_writeString
  readUnsigned_writeNat isDigit_of_head?)

/-! ### Streams -/

/-- What a descriptor of the daemon is open on. -/
inductive OpenFile where
  /-- a clone of a target, for a response -/
  | clone (target : FileKey)
  /-- a stream that has been accepted -/
  | stream
  /-- whatever a client has attached to a packet -/
  | attached
  /-- a file of the rest of the daemon -/
  | daemon
  deriving DecidableEq, Repr

/-- The open descriptors of the daemon, and what they are open on. -/
structure Descriptors where
  table : Finset Fd
  file : Fd → OpenFile

namespace Descriptors

/-- Descriptors have come with a packet, or have been closed. -/
def receive (d : Descriptors) (table : Finset Fd) : Descriptors where
  table := table
  file fd := if fd ∈ d.table then d.file fd else .attached

/-- A file has been opened. -/
def opened (d : Descriptors) (fd : Fd) (file : OpenFile) : Descriptors where
  table := insert fd d.table
  file := Function.update d.file fd file

def close (d : Descriptors) (fd : Fd) : Descriptors := { d with table := d.table.erase fd }

/-- The file of a response is dropped. -/
def closeFile (d : Descriptors) : Option OwnedFile → Descriptors
  | none => d
  | some file => d.close file.fd

end Descriptors

/-- What a client receives: the bytes, and what its own descriptor is open on. -/
structure Delivered where
  bytes : List UInt8
  file : Option OpenFile
  deriving DecidableEq, Repr

/-- Where `handle_stream` is: in `recv_packet`, in `handle_packet`, or in sending the response. -/
inductive Phase where
  | waiting
  | handling (packet : List UInt8)
  | replying (packet : List UInt8) (response : DataResponse) (file : Option OwnedFile)

/-- A stream, on the side of the daemon: it has not been accepted yet, it is handled, or it has been
dropped. -/
inductive Connection where
  | connecting
  | accepted (stream : Fd) (phase : Phase)
  | closed

/-- A client and its stream: what the client has sent, what the daemon has not received yet, and
what the daemon has sent. -/
structure ClientStream where
  sent : List ClientPacket
  inbox : List ClientPacket
  replies : List Delivered
  conn : Connection

/-- The steps: the client sends a packet; the daemon accepts the stream, receives the packet,
fetches, and sends the response; and the rest of the daemon opens and closes files. -/
inductive StreamEvent where
  | send (packet : ClientPacket)
  | accept (fd : Fd)
  | recv (A : HandleSource Fd) (fault : Option IoError)
  | fetch (env : Env)
  | reply (socket : Socket)
  | opens (fd : Fd)
  | closes (fd : Fd)

variable (codec : PacketCodec) (ioText : IoError → String)

/-- One step of a stream. The stream is dropped when `handle_stream_once` fails, and the file of a
response is dropped when it has been sent, or could not be sent. A descriptor that is opened was not
open before. -/
def streamStep (d : Descriptors) (s : ClientStream) :
    StreamEvent → Option (Descriptors × ClientStream)
  | .send packet =>
    match s.conn with
    | .closed => none
    | _ => some (d, { s with sent := s.sent ++ [packet], inbox := s.inbox ++ [packet] })
  | .accept fd =>
    match s.conn with
    | .connecting =>
      if fd ∈ d.table then none
      else some (d.opened fd .stream, { s with conn := .accepted fd .waiting })
    | _ => none
  | .recv A fault =>
    match s.conn, fault, s.inbox with
    | .accepted stream .waiting, some _, _ => some (d.close stream, { s with conn := .closed })
    | .accepted stream .waiting, none, packet :: inbox =>
      match SeqpacketStream.recvPacket A none packet d.table with
      | (.error _, table) =>
        some ((d.receive table).close stream, { s with inbox, conn := .closed })
      | (.ok bytes, table) =>
        some (d.receive table, { s with inbox, conn := .accepted stream (.handling bytes) })
    | _, _, _ => none
  | .fetch env =>
    match s.conn with
    | .accepted stream (.handling packet) =>
      match handlePacket codec ioText env packet with
      | .error response =>
        some (d, { s with conn := .accepted stream (.replying packet response none) })
      | .ok (response, file) =>
        if file.fd ∈ d.table then none
        else
          some (d.opened file.fd (.clone file.key),
            { s with conn := .accepted stream (.replying packet response (some file)) })
    | _ => none
  | .reply socket =>
    match s.conn with
    | .accepted stream (.replying _ response file) =>
      let result := DataPlane.send socket (codec.encode response) (file.map (·.fd))
      -- the client receives a descriptor for what the descriptor is open on at that time
      let replies := s.replies ++ result.2.map fun packet => ⟨packet.bytes, packet.fd.map d.file⟩
      match result.1 with
      | .ok () => some (d.closeFile file, { s with replies, conn := .accepted stream .waiting })
      | .error _ => some ((d.closeFile file).close stream, { s with replies, conn := .closed })
    | _ => none
  -- the rest of the daemon, whichever stream the event is listed for
  | .opens fd => if fd ∈ d.table then none else some (d.opened fd .daemon, s)
  | .closes fd => if fd ∈ d.table ∧ d.file fd = .daemon then some (d.close fd, s) else none

/-- The streams of all clients. -/
def streams : TaskSystem Descriptors ClientStream StreamEvent where
  step := streamStep codec ioText

/-- No stream has been accepted yet. -/
def startStreams (τ : Type*) (table : Finset Fd) :
    TaskSystem.Config Descriptors ClientStream τ where
  shared := { table, file := fun _ => .daemon }
  task _ := { sent := [], inbox := [], replies := [], conn := .connecting }

/-! ### What a step can do -/

section Steps

variable {codec ioText} {d d' : Descriptors} {s s' : ClientStream}

/-- **Everything that a step can do.** -/
inductive Stepped (codec : PacketCodec) (ioText : IoError → String)
    (d : Descriptors) (s : ClientStream) : StreamEvent → Descriptors → ClientStream → Prop
  | sent (packet : ClientPacket) (hconn : s.conn ≠ .closed) :
    Stepped codec ioText d s (.send packet) d
      { s with sent := s.sent ++ [packet], inbox := s.inbox ++ [packet] }
  | accepted {fd : Fd} (hconn : s.conn = .connecting) (hnew : fd ∉ d.table) :
    Stepped codec ioText d s (.accept fd) (d.opened fd .stream)
      { s with conn := .accepted fd .waiting }
  | faulted (A : HandleSource Fd) (err : IoError) {stream : Fd}
    (hconn : s.conn = .accepted stream .waiting) :
    Stepped codec ioText d s (.recv A (some err)) (d.close stream) { s with conn := .closed }
  | refused (A : HandleSource Fd) {stream : Fd} {packet : ClientPacket} {inbox : List ClientPacket}
    {err : Error} (hconn : s.conn = .accepted stream .waiting) (hinbox : s.inbox = packet :: inbox)
    (hrecv : (SeqpacketStream.recvPacket A none packet d.table).1 = .error err) :
    Stepped codec ioText d s (.recv A none)
      ((d.receive (SeqpacketStream.recvPacket A none packet d.table).2).close stream)
      { s with inbox, conn := .closed }
  | received (A : HandleSource Fd) {stream : Fd} {packet : ClientPacket}
    {inbox : List ClientPacket} {bytes : List UInt8} (hconn : s.conn = .accepted stream .waiting)
    (hinbox : s.inbox = packet :: inbox)
    (hrecv : (SeqpacketStream.recvPacket A none packet d.table).1 = .ok bytes) :
    Stepped codec ioText d s (.recv A none)
      (d.receive (SeqpacketStream.recvPacket A none packet d.table).2)
      { s with inbox, conn := .accepted stream (.handling bytes) }
  | notFetched (env : Env) {stream : Fd} {packet : List UInt8} {response : DataResponse}
    (hconn : s.conn = .accepted stream (.handling packet))
    (hanswer : Answer codec ioText env packet response none) :
    Stepped codec ioText d s (.fetch env) d
      { s with conn := .accepted stream (.replying packet response none) }
  | fetched (env : Env) {stream : Fd} {packet : List UInt8} {response : DataResponse}
    {file : OwnedFile} (hconn : s.conn = .accepted stream (.handling packet))
    (hanswer : Answer codec ioText env packet response (some file)) (hnew : file.fd ∉ d.table) :
    Stepped codec ioText d s (.fetch env) (d.opened file.fd (.clone file.key))
      { s with conn := .accepted stream (.replying packet response (some file)) }
  | replied (socket : Socket) {stream : Fd} {packet : List UInt8} {response : DataResponse}
    {file : Option OwnedFile} (hconn : s.conn = .accepted stream (.replying packet response file))
    (hfits : (codec.encode response).length ≤ maxPacketBytes) :
    Stepped codec ioText d s (.reply socket) (d.closeFile file)
      { s with
        replies := s.replies ++ [⟨codec.encode response, file.map fun file => d.file file.fd⟩]
        conn := .accepted stream .waiting }
  | failed (socket : Socket) {stream : Fd} {packet : List UInt8} {response : DataResponse}
    {file : Option OwnedFile} (hconn : s.conn = .accepted stream (.replying packet response file))
    {cut : List Delivered}
    (hcut : cut = [] ∨
      ∃ n, cut = [⟨(codec.encode response).take n, file.map fun file => d.file file.fd⟩]) :
    Stepped codec ioText d s (.reply socket) ((d.closeFile file).close stream)
      { s with replies := s.replies ++ cut, conn := .closed }
  | opened {fd : Fd} (hnew : fd ∉ d.table) :
    Stepped codec ioText d s (.opens fd) (d.opened fd .daemon) s
  | closed {fd : Fd} (hmem : fd ∈ d.table) (hfile : d.file fd = .daemon) :
    Stepped codec ioText d s (.closes fd) (d.close fd) s

/-- A response that is sent is sent as a whole; otherwise at most the first part of it is sent. -/
theorem send_cases (socket : Socket) (bytes : List UInt8) (fd : Option Fd) :
    (DataPlane.send socket bytes fd = (.ok (), [⟨bytes, fd⟩]) ∧ bytes.length ≤ maxPacketBytes) ∨
    ∃ err cut, DataPlane.send socket bytes fd = (.error err, cut) ∧
      (cut = [] ∨ ∃ n, cut = [⟨bytes.take n, fd⟩]) := by
  rw [DataPlane.send]
  split_ifs with hlarge
  · exact Or.inr ⟨_, [], rfl, Or.inl rfl⟩
  · cases hsend : socket.send bytes.length with
    | error err => exact Or.inr ⟨_, [], rfl, Or.inl rfl⟩
    | ok n =>
      simp only
      split_ifs with hshort
      · exact Or.inr ⟨_, _, rfl, Or.inr ⟨n, rfl⟩⟩
      · exact Or.inl ⟨rfl, not_lt.mp hlarge⟩

theorem streamStep_cases {e : StreamEvent} (h : streamStep codec ioText d s e = some (d', s')) :
    Stepped codec ioText d s e d' s' := by
  cases e with
  | send packet =>
    simp only [streamStep] at h
    split at h
    · exact absurd h (by simp)
    · rename_i hconn
      obtain ⟨rfl, rfl⟩ := Prod.mk.inj (Option.some.inj h)
      exact .sent packet hconn
  | accept fd =>
    simp only [streamStep] at h
    split at h
    · rename_i hconn
      split_ifs at h with hopen
      obtain ⟨rfl, rfl⟩ := Prod.mk.inj (Option.some.inj h)
      exact .accepted hconn hopen
    · exact absurd h (by simp)
  | recv A fault =>
    simp only [streamStep] at h
    split at h
    · rename_i stream err hconn
      obtain ⟨rfl, rfl⟩ := Prod.mk.inj (Option.some.inj h)
      exact .faulted A err hconn
    · rename_i stream packet inbox hconn hinbox
      split at h
      · rename_i err table hrecv
        obtain ⟨rfl, rfl⟩ := Prod.mk.inj (Option.some.inj h)
        have hrefused : Stepped codec ioText d s _ _ _ :=
          .refused A hconn hinbox (congrArg Prod.fst hrecv)
        rwa [hrecv] at hrefused
      · rename_i bytes table hrecv
        obtain ⟨rfl, rfl⟩ := Prod.mk.inj (Option.some.inj h)
        have hreceived : Stepped codec ioText d s _ _ _ :=
          .received A hconn hinbox (congrArg Prod.fst hrecv)
        rwa [hrecv] at hreceived
    · exact absurd h (by simp)
  | fetch env =>
    simp only [streamStep] at h
    split at h
    · rename_i stream packet hconn
      obtain ⟨response, file, hanswer, hhandle⟩ :=
        handlePacket_answer codec ioText env packet
      rw [hhandle] at h
      cases file with
      | none =>
        obtain ⟨rfl, rfl⟩ := Prod.mk.inj (Option.some.inj h)
        exact .notFetched env hconn hanswer
      | some file =>
        simp only at h
        split_ifs at h with hopen
        obtain ⟨rfl, rfl⟩ := Prod.mk.inj (Option.some.inj h)
        exact .fetched env hconn hanswer hopen
    · exact absurd h (by simp)
  | reply socket =>
    simp only [streamStep] at h
    split at h
    · rename_i stream packet response file hconn
      have hmap : (file.map (·.fd)).map d.file = file.map fun file => d.file file.fd :=
        Option.map_map ..
      rcases send_cases socket (codec.encode response) (file.map (·.fd)) with
        ⟨hsent, hfits⟩ | ⟨err, cut, hsent, hcut⟩
      · rw [hsent] at h
        obtain ⟨rfl, rfl⟩ := Prod.mk.inj (Option.some.inj h)
        rw [List.map_singleton, hmap]
        exact .replied socket hconn hfits
      · rw [hsent] at h
        obtain ⟨rfl, rfl⟩ := Prod.mk.inj (Option.some.inj h)
        refine .failed socket hconn ?_
        rcases hcut with rfl | ⟨n, rfl⟩
        · exact Or.inl rfl
        · exact Or.inr ⟨n, by rw [List.map_singleton, hmap]⟩
    · exact absurd h (by simp)
  | opens fd =>
    simp only [streamStep] at h
    split_ifs at h with hopen
    obtain ⟨rfl, rfl⟩ := Prod.mk.inj (Option.some.inj h)
    exact .opened hopen
  | closes fd =>
    simp only [streamStep] at h
    split_ifs at h with hopen
    obtain ⟨rfl, rfl⟩ := Prod.mk.inj (Option.some.inj h)
    exact .closed hopen.1 hopen.2

/-- **The steps for one packet are `handle_stream_once`.** If the packet cannot be received, the
stream is dropped. Otherwise the three steps of the daemon send what `handle_stream_once` sends,
with the file that the fetch has given, and the stream stays if and only if that succeeds. -/
theorem handleStreamOnce_eq (A : HandleSource Fd) (env : Env) (sendmsg : ℕ → Except IoError ℕ)
    {stream : Fd} {packet : ClientPacket} {inbox : List ClientPacket}
    (hconn : s.conn = .accepted stream .waiting) (hinbox : s.inbox = packet :: inbox)
    (hnew : ∀ bytes response file, handlePacket codec ioText env bytes = .ok (response, file) →
      file.fd ∉ (SeqpacketStream.recvPacket A none packet d.table).2) :
    let socket : Socket := ⟨.ok ⟨packet.bytes, 2 < packet.attached⟩, sendmsg⟩
    let once := handleStreamOnce codec ioText env socket
    ((∃ err, once = (.error err, [])) ∧
      ∃ d', streamStep codec ioText d s (.recv A none) =
        some (d', { s with inbox, conn := .closed })) ∨
    ∃ bytes file d' conn, recvPacket socket = .ok bytes ∧
      file = (handlePacket codec ioText env bytes).toOption.map Prod.snd ∧
      (∀ sent ∈ once.2, sent.fd = file.map (·.fd)) ∧
      (streams codec ioText).solo d s [.recv A none, .fetch env, .reply socket] =
        some (d', { s with
          inbox, conn
          replies := s.replies ++ once.2.map fun sent =>
            ⟨sent.bytes, file.map fun file => .clone file.key⟩ }) ∧
      (conn = .accepted stream .waiting ∧ once.1 = .ok () ∨
        conn = .closed ∧ ∃ err, once.1 = .error err) := by
  intro socket once
  have hfst : recvPacket socket = (SeqpacketStream.recvPacket A none packet d.table).1 :=
    (recvPacket_fst A none packet d.table).symm
  generalize hrecv : SeqpacketStream.recvPacket A none packet d.table = recv at hfst hnew
  obtain ⟨res, table⟩ := recv
  cases res with
  | error err =>
    refine Or.inl ⟨⟨err, ?_⟩, (d.receive table).close stream, ?_⟩
    · simp only [once, handleStreamOnce, hfst]
    · simp only [streamStep, hconn, hinbox, hrecv]
  | ok bytes =>
    obtain ⟨response, file, -, hhandle⟩ := handlePacket_answer codec ioText env bytes
    have hfile : file = (handlePacket codec ioText env bytes).toOption.map Prod.snd := by
      rw [hhandle]
      cases file <;> rfl
    have honce : once = DataPlane.send socket (codec.encode response) (file.map (·.fd)) := by
      simp only [once, handleStreamOnce, hfst, hhandle]
      cases file <;> rfl
    have hreceived : streamStep codec ioText d s (.recv A none) =
        some (d.receive table, { s with inbox, conn := .accepted stream (.handling bytes) }) := by
      simp only [streamStep, hconn, hinbox, hrecv]
    -- the descriptor of the response is open on the clone until the response has been sent
    obtain ⟨d₁, hfetch, hlabel⟩ : ∃ d₁, streamStep codec ioText (d.receive table)
        { s with inbox, conn := .accepted stream (.handling bytes) } (.fetch env) =
          some (d₁, { s with inbox, conn := .accepted stream (.replying bytes response file) }) ∧
        (file.map (·.fd)).map d₁.file = file.map fun file => .clone file.key := by
      simp only [streamStep, hhandle]
      cases file with
      | none => exact ⟨_, rfl, rfl⟩
      | some file =>
        refine ⟨_, if_neg (hnew bytes response file hhandle), ?_⟩
        exact congrArg some (Function.update_self _ _ _)
    have hfds (cut : List Packet)
        (hcut : cut = [] ∨ ∃ n, cut = [⟨(codec.encode response).take n, file.map (·.fd)⟩]) :
        (∀ sent ∈ cut, sent.fd = file.map (·.fd)) ∧
        (cut.map fun packet => (⟨packet.bytes, packet.fd.map d₁.file⟩ : Delivered)) =
          cut.map fun packet => ⟨packet.bytes, file.map fun file => .clone file.key⟩ := by
      rcases hcut with rfl | ⟨n, rfl⟩
      · exact ⟨by simp, rfl⟩
      · rw [List.map_singleton, List.map_singleton, hlabel]
        exact ⟨by simp, rfl⟩
    rcases send_cases socket (codec.encode response) (file.map (·.fd)) with
      ⟨hsent, -⟩ | ⟨err, cut, hsent, hcut⟩
    · obtain ⟨hfd, hall⟩ := hfds [⟨codec.encode response, file.map (·.fd)⟩]
        (Or.inr ⟨_, by rw [List.take_of_length_le (Nat.le_refl _)]⟩)
      refine Or.inr ⟨bytes, file, d₁.closeFile file, .accepted stream .waiting, hfst, hfile, ?_,
        TaskSystem.solo_cons_eq_some.mpr ⟨_, _, hreceived,
          TaskSystem.solo_cons_eq_some.mpr ⟨_, _, hfetch, ?_⟩⟩, Or.inl ⟨rfl, ?_⟩⟩
      · rw [honce, hsent]
        exact hfd
      · simp only [TaskSystem.solo, streams, streamStep, hsent, hall, honce, Option.bind_some]
      · rw [honce, hsent]
    · obtain ⟨hfd, hall⟩ := hfds cut hcut
      refine Or.inr ⟨bytes, file, (d₁.closeFile file).close stream, .closed, hfst, hfile, ?_,
        TaskSystem.solo_cons_eq_some.mpr ⟨_, _, hreceived,
          TaskSystem.solo_cons_eq_some.mpr ⟨_, _, hfetch, ?_⟩⟩, Or.inr ⟨rfl, err, ?_⟩⟩
      · rw [honce, hsent]
        exact hfd
      · simp only [TaskSystem.solo, streams, streamStep, hsent, hall, honce, Option.bind_some]
      · rw [honce, hsent]

end Steps

/-! ### Descriptors that are held -/

/-- The descriptors that a stream holds: its own, and the one that goes out with a response. -/
inductive StreamHandle where
  | own
  | response
  deriving DecidableEq, Repr

/-- What a stream holds, with what it is open on. -/
def Connection.holds : Connection → StreamHandle → Option (Fd × OpenFile)
  | .accepted stream _, .own => some (stream, .stream)
  | .accepted _ (.replying _ _ file), .response =>
    file.map fun file => (file.fd, .clone file.key)
  | _, _ => none

/-- No stream holds what clients have attached, or what the rest of the daemon has opened. -/
def OpenFile.Free : OpenFile → Prop
  | .clone _ | .stream => False
  | .attached | .daemon => True

/-- How many descriptors clients have attached that stay open, in one step. -/
def attachedLeak (s : ClientStream) : StreamEvent → List ℕ
  | .recv _ none => (s.inbox.take 1).map fun packet => leakedCount packet.attached
  | _ => []

/-- The files of the rest of the daemon after a step. -/
def StreamEvent.elsewhere (rest : Finset Fd) : StreamEvent → Finset Fd
  | .opens fd => insert fd rest
  | .closes fd => rest.erase fd
  | _ => rest

section Held

/-- **What a stream may do** to the descriptors and to those that it holds: `n` descriptors come
with a packet, one is opened, or one that it holds is closed. -/
inductive HeldStep : Descriptors → (StreamHandle → Option (Fd × OpenFile)) → ℕ → Descriptors →
    (StreamHandle → Option (Fd × OpenFile)) → Prop
  | refl (d : Descriptors) (held : StreamHandle → Option (Fd × OpenFile)) :
    HeldStep d held 0 d held
  | receive {d d' : Descriptors} {n : ℕ} (held : StreamHandle → Option (Fd × OpenFile))
    (hold : ∀ fd ∈ d.table, fd ∈ d'.table ∧ d'.file fd = d.file fd)
    (hnew : ∀ fd ∈ d'.table, fd ∉ d.table → d'.file fd = .attached)
    (hcard : d'.table.card = d.table.card + n) : HeldStep d held n d' held
  | take {d : Descriptors} {held : StreamHandle → Option (Fd × OpenFile)} {handle : StreamHandle}
    {fd : Fd} {file : OpenFile} (hnone : held handle = none)
    (hfile : ¬ file.Free) (hnew : fd ∉ d.table) :
    HeldStep d held 0 (d.opened fd file) (Function.update held handle (some (fd, file)))
  | release {d : Descriptors} {held : StreamHandle → Option (Fd × OpenFile)}
    {handle : StreamHandle} {fd : Fd} {file : OpenFile}
    (hheld : held handle = some (fd, file)) :
    HeldStep d held 0 (d.close fd) (Function.update held handle none)
  | trans {d d₁ d' : Descriptors} {held held₁ held' : StreamHandle → Option (Fd × OpenFile)}
    {n m : ℕ} (h₁ : HeldStep d held n d₁ held₁) (h₂ : HeldStep d₁ held₁ m d' held') :
    HeldStep d held (n + m) d' held'

variable {codec ioText} {d d' : Descriptors} {s s' : ClientStream}

/-- A packet is received. -/
theorem HeldStep.recvPacket (A : HandleSource Fd) {packet : ClientPacket}
    {inbox : List ClientPacket} (hinbox : s.inbox = packet :: inbox)
    (held : StreamHandle → Option (Fd × OpenFile)) :
    HeldStep d held (attachedLeak s (.recv A none)).sum
      (d.receive (SeqpacketStream.recvPacket A none packet d.table).2) held := by
  refine .receive held (fun fd hfd => ⟨?_, if_pos hfd⟩) (fun _ _ hfd => if_neg hfd) ?_
  · exact (mem_recvPacket_snd A none packet d.table).mpr (Or.inl hfd)
  · simp only [Descriptors.receive, card_recvPacket, attachedLeak, hinbox, List.take_succ_cons,
      List.take_zero, List.map_singleton, List.sum_singleton]

theorem HeldStep.closeStream (stream : Fd) :
    HeldStep d (Connection.accepted stream .waiting).holds 0 (d.close stream)
      Connection.closed.holds := by
  have hclosed : Connection.closed.holds =
      Function.update (Connection.accepted stream .waiting).holds .own none := by
    funext handle
    cases handle with
    | own => rw [Function.update_self]; rfl
    | response => rw [Function.update_of_ne StreamHandle.noConfusion]; rfl
  rw [hclosed]
  exact .release rfl

/-- The file of the response is dropped. -/
theorem HeldStep.closeFile (stream : Fd) (packet : List UInt8) (response : DataResponse)
    (file : Option OwnedFile) :
    HeldStep d (Connection.accepted stream (.replying packet response file)).holds 0
      (d.closeFile file) (Connection.accepted stream .waiting).holds := by
  have hwaiting : (Connection.accepted stream .waiting).holds = Function.update
      (Connection.accepted stream (.replying packet response file)).holds .response none := by
    funext handle
    cases handle with
    | own => rw [Function.update_of_ne StreamHandle.noConfusion]; rfl
    | response => rw [Function.update_self]; rfl
  cases file with
  | none =>
    have hnone : (Connection.accepted stream (.replying packet response none)).holds .response =
        none := rfl
    rw [hwaiting, ← hnone, Function.update_eq_self]
    exact .refl d _
  | some file =>
    rw [hwaiting]
    exact .release rfl

/-- **A step is one of a stream**, or one of the rest of the daemon. -/
theorem Stepped.heldStep {e : StreamEvent} (h : Stepped codec ioText d s e d' s') :
    (HeldStep d s.conn.holds (attachedLeak s e).sum d' s'.conn.holds ∧
        ∀ rest, e.elsewhere rest = rest) ∨
    s' = s ∧ attachedLeak s e = [] ∧ ∃ fd,
      (e = .opens fd ∧ fd ∉ d.table ∧ d' = d.opened fd .daemon) ∨
      e = .closes fd ∧ d.file fd = .daemon ∧ d' = d.close fd := by
  cases h with
  | sent packet hconn => exact Or.inl ⟨.refl d _, fun _ => rfl⟩
  | @accepted fd hconn hnew =>
    have hheld : (Connection.accepted fd .waiting).holds =
        Function.update Connection.connecting.holds .own (some (fd, .stream)) := by
      funext handle
      cases handle <;> rfl
    refine Or.inl ⟨?_, fun _ => rfl⟩
    simp only [hconn, hheld]
    exact .take rfl not_false hnew
  | faulted A err hconn =>
    refine Or.inl ⟨?_, fun _ => rfl⟩
    rw [hconn]
    exact .closeStream _
  | refused A hconn hinbox hrecv =>
    refine Or.inl ⟨?_, fun _ => rfl⟩
    rw [hconn]
    exact (HeldStep.recvPacket A hinbox _).trans (.closeStream _)
  | @received A stream packet inbox bytes hconn hinbox hrecv =>
    have hheld : (Connection.accepted stream (.handling bytes)).holds =
        (Connection.accepted stream .waiting).holds := by
      funext handle
      cases handle <;> rfl
    refine Or.inl ⟨?_, fun _ => rfl⟩
    simp only [hconn, hheld]
    exact .recvPacket A hinbox _
  | @notFetched env stream packet response hconn hanswer =>
    have hheld : (Connection.accepted stream (.replying packet response none)).holds =
        (Connection.accepted stream (.handling packet)).holds := by
      funext handle
      cases handle <;> rfl
    refine Or.inl ⟨?_, fun _ => rfl⟩
    simp only [hconn, hheld]
    exact .refl d _
  | @fetched env stream packet response file hconn hanswer hnew =>
    have hheld : (Connection.accepted stream (.replying packet response (some file))).holds =
        Function.update (Connection.accepted stream (.handling packet)).holds .response
          (some (file.fd, .clone file.key)) := by
      funext handle
      cases handle <;> rfl
    refine Or.inl ⟨?_, fun _ => rfl⟩
    simp only [hconn, hheld]
    exact .take rfl not_false hnew
  | replied socket hconn hfits =>
    refine Or.inl ⟨?_, fun _ => rfl⟩
    rw [hconn]
    exact .closeFile ..
  | failed socket hconn hcut =>
    refine Or.inl ⟨?_, fun _ => rfl⟩
    rw [hconn]
    exact (HeldStep.closeFile ..).trans (.closeStream _)
  | @opened fd hnew => exact Or.inr ⟨rfl, rfl, fd, Or.inl ⟨rfl, hnew, rfl⟩⟩
  | @closed fd hmem hfile => exact Or.inr ⟨rfl, rfl, fd, Or.inr ⟨rfl, hfile, rfl⟩⟩

end Held

/-! ### Accounting -/

section Accounting

variable {codec ioText} {τ : Type*} [DecidableEq τ]

/-- **The descriptors are accounted for.** Each is held by a stream, or has been attached by a
client, or is one of the rest of the daemon. -/
structure Accounted (rest : Finset Fd) (leaks : ℕ) (d : Descriptors)
    (holds : τ × StreamHandle → Option (Fd × OpenFile)) : Prop where
  owned : Owned OpenFile.Free d.table d.file holds
  rest : (d.table.filter fun fd => d.file fd = .daemon) = rest
  leaks : (d.table.filter fun fd => d.file fd = .attached).card = leaks

/-- What is held if one stream holds something else. -/
def heldWith (holds : τ × StreamHandle → Option (Fd × OpenFile)) (t : τ)
    (held : StreamHandle → Option (Fd × OpenFile)) :
    τ × StreamHandle → Option (Fd × OpenFile) :=
  fun owner => if owner.1 = t then held owner.2 else holds owner

variable {rest : Finset Fd} {leaks n : ℕ} {d d' : Descriptors}
  {holds : τ × StreamHandle → Option (Fd × OpenFile)} {t : τ}
  {held held' : StreamHandle → Option (Fd × OpenFile)}

theorem heldWith_self (handle : StreamHandle) : heldWith holds t held (t, handle) = held handle :=
  if_pos rfl

theorem heldWith_update (handle : StreamHandle) (h : Option (Fd × OpenFile)) :
    heldWith holds t (Function.update held handle h) =
      Function.update (heldWith holds t held) (t, handle) h := by
  funext owner
  obtain ⟨u, other⟩ := owner
  by_cases hu : u = t
  · subst hu
    by_cases hother : other = handle
    · subst hother
      rw [heldWith_self, Function.update_self, Function.update_self]
    · have hne : (u, other) ≠ (u, handle) := fun hno => hother (Prod.mk.inj hno).2
      rw [heldWith_self, Function.update_of_ne hother, Function.update_of_ne hne, heldWith_self]
  · have hne : (u, other) ≠ (t, handle) := fun hno => hu (Prod.mk.inj hno).1
    rw [Function.update_of_ne hne, heldWith, heldWith, if_neg hu, if_neg hu]

/-- **What a stream does keeps the accounting**, but for what its client has attached. -/
theorem HeldStep.accounted (h : HeldStep d held n d' held') :
    ∀ {leaks : ℕ}, Accounted rest leaks d (heldWith holds t held) →
      Accounted rest (leaks + n) d' (heldWith holds t held') := by
  induction h with
  | refl d held => exact fun hall => hall
  | receive held hold hnew hcard =>
    intro leaks hall
    refine ⟨hall.owned.grow hold fun fd hfd hno => ?_, ?_, ?_⟩
    · rw [hnew fd hfd hno]
      trivial
    · rw [Labels.filter_grow hold fun fd hfd hno => by rw [hnew fd hfd hno]; exact nofun]
      exact hall.rest
    · rw [Labels.card_grow hold hnew hcard, hall.leaks]
  | @take d held handle fd file hnone hfile hnew =>
    intro leaks hall
    have hne (other : OpenFile) (hfree : other.Free) : file ≠ other := by
      rintro rfl
      exact hfile hfree
    rw [heldWith_update]
    refine ⟨hall.owned.take ((heldWith_self handle).trans hnone) hnew hfile, ?_, ?_⟩
    · rw [Descriptors.opened, Labels.filter_insert hnew, if_neg (hne .daemon trivial)]
      exact hall.rest
    · rw [Descriptors.opened, Labels.filter_insert hnew, if_neg (hne .attached trivial)]
      exact hall.leaks
  | @release d held handle fd file hheld =>
    intro leaks hall
    have howner : heldWith holds t held (t, handle) = some (fd, file) :=
      (heldWith_self handle).trans hheld
    obtain ⟨-, hlabel, hfile⟩ := hall.owned.mem howner
    have hne (other : OpenFile) (hfree : other.Free) : d.file fd ≠ other := by
      rintro rfl
      exact hfile (hlabel ▸ hfree)
    rw [heldWith_update]
    refine ⟨hall.owned.release howner, ?_, ?_⟩
    · rw [Descriptors.close, Labels.filter_erase d.file (hne .daemon trivial)]
      exact hall.rest
    · rw [Descriptors.close, Labels.filter_erase d.file (hne .attached trivial)]
      exact hall.leaks
  | trans h₁ h₂ ih₁ ih₂ =>
    intro leaks hall
    rw [← Nat.add_assoc]
    exact ih₂ (ih₁ hall)

omit [DecidableEq τ] in
theorem Accounted.opened (hall : Accounted rest leaks d holds) {fd : Fd} (hnew : fd ∉ d.table) :
    Accounted (insert fd rest) leaks (d.opened fd .daemon) holds where
  owned := by
    refine hall.owned.grow (fun other hother => ⟨Finset.mem_insert_of_mem hother, ?_⟩)
      fun other hother hno => ?_
    · exact Function.update_of_ne (ne_of_mem_of_not_mem hother hnew) _ _
    · obtain rfl := (Finset.mem_insert.mp hother).resolve_right hno
      have hlabel : (d.opened other .daemon).file other = .daemon := Function.update_self ..
      rw [hlabel]
      trivial
  rest := by rw [Descriptors.opened, Labels.filter_insert hnew, if_pos rfl, hall.rest]
  leaks := by
    rw [Descriptors.opened, Labels.filter_insert hnew, if_neg OpenFile.noConfusion]
    exact hall.leaks

omit [DecidableEq τ] in
theorem Accounted.closed (hall : Accounted rest leaks d holds) {fd : Fd}
    (hfile : d.file fd = .daemon) : Accounted (rest.erase fd) leaks (d.close fd) holds where
  owned := hall.owned.drop (by rw [hfile]; trivial)
  rest := by rw [Descriptors.close, Finset.filter_erase, hall.rest]
  leaks := by
    rw [Descriptors.close, Labels.filter_erase d.file (by rw [hfile]; exact nofun)]
    exact hall.leaks

variable {c c' : TaskSystem.Config Descriptors ClientStream τ} {e : StreamEvent}

/-- What the streams hold. -/
def heldBy (c : TaskSystem.Config Descriptors ClientStream τ) :
    τ × StreamHandle → Option (Fd × OpenFile) :=
  fun owner => (c.task owner.1).conn.holds owner.2

omit [DecidableEq τ] in
theorem accounted_start (table : Finset Fd) :
    Accounted table 0 (startStreams τ table).shared (heldBy (startStreams τ table)) where
  owned :=
    { mem := fun h => absurd h (by simp [heldBy, startStreams, Connection.holds])
      unique := fun h => absurd h (by simp [heldBy, startStreams, Connection.holds])
      owner := fun _ h => absurd trivial h }
  rest := Finset.filter_true_of_mem fun _ _ => rfl
  leaks := by
    rw [Finset.card_eq_zero]
    exact Finset.filter_false_of_mem fun _ _ => OpenFile.noConfusion

theorem Accounted.fire (hall : Accounted rest leaks c.shared (heldBy c))
    (h : (streams codec ioText).fire c t e = some c') :
    Accounted (e.elsewhere rest) (leaks + (attachedLeak (c.task t) e).sum) c'.shared
      (heldBy c') := by
  have hbefore : heldBy c = heldWith (heldBy c) t (c.task t).conn.holds := by
    funext owner
    rw [heldWith]
    split_ifs with howner
    · rw [← howner]; rfl
    · rfl
  have hafter : heldBy c' = heldWith (heldBy c) t (c'.task t).conn.holds := by
    funext owner
    rw [heldWith]
    split_ifs with howner
    · rw [← howner]; rfl
    · rw [heldBy, TaskSystem.fire_task_of_ne h howner]; rfl
  rcases (streamStep_cases (TaskSystem.fire_step h)).heldStep with
    ⟨hstep, hrest⟩ | ⟨hsame, hleak, fd, ⟨rfl, hnew, hd⟩ | ⟨rfl, hfile, hd⟩⟩
  · rw [hrest, hafter]
    rw [hbefore] at hall
    exact hstep.accounted hall
  · rw [hsame, ← hbefore] at hafter
    rw [hafter, hd, hleak]
    exact hall.opened hnew
  · rw [hsame, ← hbefore] at hafter
    rw [hafter, hd, hleak]
    exact hall.closed hfile

end Accounting

/-! ### Answers in order -/

/-- What the daemon receives of a packet. -/
def ClientPacket.received (packet : ClientPacket) : List UInt8 := packet.bytes.take maxPacketBytes

/-- A packet with its answer, the surroundings in which it has been fetched, and the file that comes
with the answer. -/
structure Exchange where
  packet : ClientPacket
  env : Env
  response : DataResponse
  file : Option OpenFile

/-- An answer as the client receives it. -/
def Exchange.delivered (exchange : Exchange) : Delivered :=
  ⟨codec.encode exchange.response, exchange.file⟩

/-- The answer is a range that the registered instance has given, with a clone of its target. -/
def Exchange.Fetched (exchange : Exchange) (request : FetchRequest) : Prop :=
  ∃ inst range fd, exchange.env.registryGet request.instanceId = some inst ∧
    inst.fetch request.pos.toNat request.len.toNat exchange.env.pageSize.toNat = .ok (range, fd) ∧
    exchange.response = .fetchOk protocolVersion request.requestId [range] ∧
    exchange.file = some (.clone inst.target)

/-- The fetch of a step. -/
def StreamEvent.fetches : StreamEvent → List Env
  | .fetch env => [env]
  | _ => []

section Order

/-- The answer is the one to the packet, and the file that comes with it is the one that the fetch
has cloned. -/
def Exchange.Correct (exchange : Exchange) : Prop :=
  ∃ file, Answer codec ioText exchange.env exchange.packet.received exchange.response file ∧
    exchange.file = file.map fun file => .clone file.key

/-- What `handle_stream` is doing about a packet that has no answer yet, with the surroundings if it
has been fetched, and what has been sent of a response that could not be sent as a whole. -/
def Connection.Pending : Connection → Option ClientPacket → Option Env → List Delivered → Prop
  | .connecting, pending, fetched, cut | .accepted _ .waiting, pending, fetched, cut =>
    pending = none ∧ fetched = none ∧ cut = []
  | .accepted _ (.handling bytes), pending, fetched, cut =>
    (∃ packet, pending = some packet ∧ packet.received = bytes) ∧ fetched = none ∧ cut = []
  | .accepted _ (.replying bytes response file), pending, fetched, cut =>
    (∃ packet env, pending = some packet ∧ fetched = some env ∧ packet.received = bytes ∧
      Answer codec ioText env bytes response file) ∧ cut = []
  | .closed, pending, fetched, cut =>
    fetched = none ∧ cut = [] ∨ ∃ packet env response file, pending = some packet ∧
      fetched = some env ∧ Answer codec ioText env packet.received response file ∧
      (cut = [] ∨
        ∃ n, cut = [⟨(codec.encode response).take n, file.map fun file => .clone file.key⟩])

/-- **The answers of a stream are in order.** What the client has sent is what has been answered,
then at most one packet, then what has not been received; and the fetches are those of the answers,
then at most one. -/
structure InOrder (s : ClientStream) (envs : List Env) (exchanges : List Exchange)
    (pending : Option ClientPacket) (fetched : Option Env) (cut : List Delivered) : Prop where
  sent : s.sent = exchanges.map (·.packet) ++ (pending.toList ++ s.inbox)
  fetches : envs = exchanges.map (·.env) ++ fetched.toList
  replies : s.replies = exchanges.map (Exchange.delivered codec) ++ cut
  correct : ∀ exchange ∈ exchanges, exchange.Correct codec ioText
  pending : s.conn.Pending codec ioText pending fetched cut

variable {codec ioText} {d d' : Descriptors} {s s' : ClientStream}

theorem received_of_recvPacket {A : HandleSource Fd} {packet : ClientPacket} {table : Finset Fd}
    {bytes : List UInt8} (h : (SeqpacketStream.recvPacket A none packet table).1 = .ok bytes) :
    packet.received = bytes := by
  rcases Nat.lt_or_ge 2 packet.attached with hattached | hattached
  · rw [recvPacket_of_lt A packet table hattached] at h
    exact absurd h (by simp)
  · rw [recvPacket_of_le A packet table hattached] at h
    simp only at h
    split_ifs at h
    exact Except.ok.inj h

/-- **A step keeps the order.** The file that is delivered is the one that the fetch has cloned,
since its descriptor is still open on it. -/
theorem Stepped.inOrder {e : StreamEvent} {envs : List Env} {exchanges : List Exchange}
    {pending : Option ClientPacket} {fetched : Option Env} {cut : List Delivered}
    (h : Stepped codec ioText d s e d' s')
    (hheld : ∀ stream packet response file,
      s.conn = .accepted stream (.replying packet response (some file)) →
        d.file file.fd = .clone file.key)
    (hs : InOrder codec ioText s envs exchanges pending fetched cut) :
    ∃ exchanges pending fetched cut,
      InOrder codec ioText s' (envs ++ e.fetches) exchanges pending fetched cut := by
  have hfile {stream : Fd} {packet : List UInt8} {response : DataResponse}
      {file : Option OwnedFile}
      (hconn : s.conn = .accepted stream (.replying packet response file)) :
      (file.map fun file => d.file file.fd) = file.map fun file => .clone file.key := by
    cases file with
    | none => rfl
    | some file => exact congrArg some (hheld _ _ _ _ hconn)
  have hpending := hs.pending
  cases h with
  | sent packet hconn =>
    refine ⟨exchanges, pending, fetched, cut, ?_, ?_, hs.replies, hs.correct, hpending⟩
    · simp only [hs.sent, List.append_assoc]
    · exact (List.append_nil _).trans hs.fetches
  | accepted hconn hnew =>
    rw [hconn] at hpending
    exact ⟨exchanges, pending, fetched, cut, hs.sent, (List.append_nil _).trans hs.fetches,
      hs.replies, hs.correct, hpending⟩
  | faulted A err hconn =>
    rw [hconn] at hpending
    exact ⟨exchanges, pending, fetched, cut, hs.sent, (List.append_nil _).trans hs.fetches,
      hs.replies, hs.correct, Or.inl hpending.2⟩
  | @refused A stream packet inbox err hconn hinbox hrecv =>
    rw [hconn] at hpending
    obtain ⟨rfl, rfl, rfl⟩ := hpending
    refine ⟨exchanges, some packet, none, [], ?_, (List.append_nil _).trans hs.fetches, hs.replies,
      hs.correct, Or.inl ⟨rfl, rfl⟩⟩
    rw [hs.sent, hinbox]
    rfl
  | @received A stream packet inbox bytes hconn hinbox hrecv =>
    rw [hconn] at hpending
    obtain ⟨rfl, rfl, rfl⟩ := hpending
    refine ⟨exchanges, some packet, none, [], ?_, (List.append_nil _).trans hs.fetches, hs.replies,
      hs.correct, ⟨packet, rfl, received_of_recvPacket hrecv⟩, rfl, rfl⟩
    rw [hs.sent, hinbox]
    rfl
  | @notFetched env stream bytes response hconn hanswer =>
    rw [hconn] at hpending
    obtain ⟨⟨packet, rfl, hbytes⟩, rfl, rfl⟩ := hpending
    refine ⟨exchanges, some packet, some env, [], hs.sent, ?_, hs.replies, hs.correct,
      ⟨packet, env, rfl, rfl, hbytes, hanswer⟩, rfl⟩
    rw [hs.fetches, Option.toList_none, List.append_nil]
    rfl
  | @fetched env stream bytes response file hconn hanswer hnew =>
    rw [hconn] at hpending
    obtain ⟨⟨packet, rfl, hbytes⟩, rfl, rfl⟩ := hpending
    refine ⟨exchanges, some packet, some env, [], hs.sent, ?_, hs.replies, hs.correct,
      ⟨packet, env, rfl, rfl, hbytes, hanswer⟩, rfl⟩
    rw [hs.fetches, Option.toList_none, List.append_nil]
    rfl
  | @replied socket stream bytes response file hconn hfits =>
    rw [hconn] at hpending
    obtain ⟨⟨packet, env, rfl, rfl, rfl, hanswer⟩, rfl⟩ := hpending
    refine ⟨exchanges ++ [⟨packet, env, response, file.map fun file => d.file file.fd⟩], none, none,
      [], ?_, ?_, ?_, ?_, rfl, rfl, rfl⟩
    · simp only [hs.sent, List.map_append, List.map_singleton, List.append_assoc,
        Option.toList_some, Option.toList_none, List.nil_append]
    · simp only [hs.fetches, List.map_append, List.map_singleton, StreamEvent.fetches,
        Option.toList_some, Option.toList_none, List.append_nil]
    · simp only [hs.replies, List.append_nil, List.map_append, List.map_singleton,
        Exchange.delivered]
    · intro exchange hexchange
      rcases List.mem_append.mp hexchange with hold | hnew
      · exact hs.correct exchange hold
      · obtain rfl := List.mem_singleton.mp hnew
        exact ⟨file, hanswer, hfile hconn⟩
  | @failed socket stream bytes response file hconn cut' hcut =>
    rw [hconn] at hpending
    obtain ⟨⟨packet, env, rfl, rfl, rfl, hanswer⟩, rfl⟩ := hpending
    refine ⟨exchanges, some packet, some env, cut', hs.sent, (List.append_nil _).trans hs.fetches,
      ?_, hs.correct, Or.inr ⟨packet, env, response, file, rfl, rfl, hanswer, ?_⟩⟩
    · rw [hs.replies, List.append_nil]
    · rwa [hfile hconn] at hcut
  | opened | closed =>
    exact ⟨exchanges, pending, fetched, cut, hs.sent, (List.append_nil _).trans hs.fetches,
      hs.replies, hs.correct, hpending⟩

theorem Answer.codeFits {env : Env} {packet : List UInt8} {response : DataResponse}
    {file : Option OwnedFile} (h : Answer codec ioText env packet response file) :
    response.CodeFits := by
  cases h with
  | undecoded | version | noId => exact (by decide : 400 < UInt16.size)
  | @failed request err hdecode hversion hid hfetch =>
    have hcode : err.statusCode < UInt16.size := by
      cases err <;> simp [Error.statusCode, UInt16.size]
    exact hcode
  | fetched => exact trivial

/-- What the client reads in an answer to a request. -/
theorem Exchange.Correct.request {exchange : Exchange} (h : exchange.Correct codec ioText)
    {request : FetchRequest} (hdecode : codec.decode exchange.packet.received = .ok request) :
    exchange.response.requestId = request.requestId ∧
    (exchange.Fetched request ∨
      (∃ code msg, exchange.response = .error protocolVersion request.requestId code msg) ∧
        exchange.file = none) := by
  obtain ⟨file, hanswer, hfile⟩ := h
  have hid := hanswer.requestId_eq hdecode
  refine ⟨hid, ?_⟩
  rcases hanswer.fetched_or_error with ⟨range, cloned, ⟨request', hdecode', -, -, hfetch⟩,
    ⟨requestId, hresponse⟩, rfl⟩ | ⟨-, ⟨requestId, code, msg, hresponse⟩, rfl⟩
  · obtain rfl := Except.ok.inj (hdecode.symm.trans hdecode')
    obtain ⟨inst, hinst, hkey, hrange⟩ := fetchRange_eq_ok hfetch
    rw [hresponse] at hid
    refine Or.inl ⟨inst, range, cloned.fd, hinst, hrange, ?_, ?_⟩
    · rw [hresponse, ← hid]
      rfl
    · rw [hfile, Option.map_some, hkey]
  · rw [hresponse] at hid
    refine Or.inr ⟨⟨code, msg, ?_⟩, hfile⟩
    rw [hresponse, ← hid]
    rfl

end Order

/-! ### Runs -/

section Runs

variable {codec ioText} {τ : Type*} [DecidableEq τ] {table : Finset Fd}
  {ok : ClientStream → StreamEvent → Prop} {ls : List (τ × StreamEvent)}
  {c : TaskSystem.Config Descriptors ClientStream τ}

/-- The fetches of a stream. -/
def fetches (t : τ) (ls : List (τ × StreamEvent)) : List Env :=
  ls.flatMap fun l => if l.1 = t then l.2.fetches else []

theorem accounted_run (h : (streams codec ioText).Run ok (startStreams τ table) ls c) :
    Accounted (ls.foldl (fun rest l => l.2.elsewhere rest) table)
      ((streams codec ioText).observe attachedLeak (startStreams τ table) ls).sum c.shared
      (heldBy c) := by
  induction h with
  | nil => exact accounted_start table
  | snoc hrun hok hfire ih =>
    rw [List.foldl_concat, hrun.observe_snoc attachedLeak hfire, List.sum_append]
    exact ih.fire hfire

theorem inOrder_run (h : (streams codec ioText).Run ok (startStreams τ table) ls c) (t : τ) :
    ∃ exchanges pending fetched cut, InOrder codec ioText (c.task t) (fetches t ls) exchanges
      pending fetched cut := by
  induction h with
  | nil => exact ⟨[], none, none, [], rfl, rfl, rfl, by simp, rfl, rfl, rfl⟩
  | @snoc ls c u e c' hrun hok hfire ih =>
    obtain ⟨exchanges, pending, fetched, cut, hs⟩ := ih
    rw [fetches, List.flatMap_append, List.flatMap_singleton]
    by_cases hu : u = t
    · subst hu
      rw [if_pos rfl]
      refine (streamStep_cases (TaskSystem.fire_step hfire)).inOrder
        (fun stream packet response file hconn => ?_) hs
      have hheld : heldBy c (u, .response) = some (file.fd, .clone file.key) := by
        rw [heldBy, hconn]
        rfl
      exact ((accounted_run hrun).owned.mem hheld).2.1
    · rw [if_neg hu, List.append_nil, TaskSystem.fire_task_of_ne hfire fun hno => hu hno.symm]
      exact ⟨exchanges, pending, fetched, cut, hs⟩

/-- **Answers come in order.** Let any number of clients send packets to the daemon, whenever they
like. Each client gets the answers to its packets in the order of the packets, as long as its stream
is open, and at most one packet is unanswered of those that have been received; the fetches of its
stream are those of the answers, in this order, and at most one more. The client can read each
answer; it has the id of the request, and is the range that the instance of the request has given at
the fetch, with a clone of the target of this instance, or an error without a file. -/
theorem answers_in_order (h : (streams codec ioText).Run ok (startStreams τ table) ls c) (t : τ) :
    ∃ exchanges pending fetched cut,
      InOrder codec ioText (c.task t) (fetches t ls) exchanges pending fetched cut ∧
      ∀ exchange ∈ exchanges, codec.read (exchange.delivered codec).bytes = some exchange.response ∧
        ∀ request, codec.decode exchange.packet.received = .ok request →
          exchange.response.requestId = request.requestId ∧
          (exchange.Fetched request ∨
            (∃ code msg, exchange.response = .error protocolVersion request.requestId code msg) ∧
              exchange.file = none) := by
  obtain ⟨exchanges, pending, fetched, cut, hs⟩ := inOrder_run h t
  refine ⟨exchanges, pending, fetched, cut, hs, fun exchange hexchange => ?_⟩
  have hcorrect := hs.correct exchange hexchange
  refine ⟨?_, fun request hdecode => hcorrect.request hdecode⟩
  obtain ⟨file, hanswer, -⟩ := hcorrect
  exact codec.read_encode hanswer.codeFits

/-- **Descriptors are accounted for.** In every run, a descriptor that a stream holds, its own or
that of a response, is open on what it should be, and no other stream holds it, nor does the stream
hold it twice. Every other open descriptor has been attached by a client or is one of the rest of
the daemon. The file of a response is a clone of the target of the instance that the last fetch of
the stream has found. As many attached descriptors are open as clients have attached that stay open,
and those of the rest of the daemon are the ones that it has opened and not closed. -/
theorem descriptors_accounted (h : (streams codec ioText).Run ok (startStreams τ table) ls c) :
    (∀ t handle fd file, (c.task t).conn.holds handle = some (fd, file) →
      fd ∈ c.shared.table ∧ c.shared.file fd = file ∧
      ∀ u other file', (c.task u).conn.holds other = some (fd, file') → u = t ∧ other = handle) ∧
    (∀ fd ∈ c.shared.table,
      (∃ t handle, (c.task t).conn.holds handle = some (fd, c.shared.file fd)) ∨
      c.shared.file fd = .attached ∨ c.shared.file fd = .daemon) ∧
    (∀ t stream packet response file,
      (c.task t).conn = .accepted stream (.replying packet response (some file)) →
      ∃ env request inst, (fetches t ls).getLast? = some env ∧ codec.decode packet = .ok request ∧
        env.registryGet request.instanceId = some inst ∧ file.key = inst.target) ∧
    (c.shared.table.filter fun fd => c.shared.file fd = .attached).card =
      ((streams codec ioText).observe attachedLeak (startStreams τ table) ls).sum ∧
    (c.shared.table.filter fun fd => c.shared.file fd = .daemon) =
      ls.foldl (fun rest l => l.2.elsewhere rest) table := by
  have hall := accounted_run h
  refine ⟨fun t handle fd file hheld => ?_, fun fd hfd => ?_,
    fun t stream packet response file hconn => ?_, hall.leaks, hall.rest⟩
  · have howner : heldBy c (t, handle) = some (fd, file) := hheld
    obtain ⟨hmem, hfile, -⟩ := hall.owned.mem howner
    refine ⟨hmem, hfile, fun u other file' hother => ?_⟩
    have hother : heldBy c (u, other) = some (fd, file') := hother
    exact Prod.mk.inj (hall.owned.unique hother howner)
  · have howner (hfree : ¬ (c.shared.file fd).Free) :
        ∃ t handle, (c.task t).conn.holds handle = some (fd, c.shared.file fd) := by
      obtain ⟨⟨t, handle⟩, hheld⟩ := hall.owned.owner hfd hfree
      exact ⟨t, handle, hheld⟩
    cases hfile : c.shared.file fd with
    | clone | stream =>
      rw [hfile] at howner
      exact Or.inl (howner not_false)
    | attached => exact Or.inr (Or.inl rfl)
    | daemon => exact Or.inr (Or.inr rfl)
  · obtain ⟨exchanges, pending, fetched, cut, hs⟩ := inOrder_run h t
    have hpending := hs.pending
    rw [hconn] at hpending
    obtain ⟨⟨sent, env, -, rfl, rfl, hanswer⟩, -⟩ := hpending
    rcases hanswer.fetched_or_error with
      ⟨range, cloned, ⟨request, hdecode, -, -, hfetch⟩, -, hcloned⟩ | ⟨-, -, hno⟩
    · obtain rfl := Option.some.inj hcloned
      obtain ⟨inst, hinst, hkey, -⟩ := fetchRange_eq_ok hfetch
      refine ⟨env, request, inst, ?_, hdecode, hinst, hkey⟩
      rw [hs.fetches, Option.toList_some, List.getLast?_concat]
    · exact nomatch hno

end Runs

/-! ### A small session -/

/-- The small request, with two descriptors attached to it. -/
def smallPacket : ClientPacket := ⟨writeRequest smallRequest, 2⟩

/-- The client sends the request twice before it reads; the daemon has answered once. -/
def smallEvents : List StreamEvent :=
  [.send smallPacket, .accept 3, .send smallPacket, .recv .lowest none, .fetch smallEnv,
    .reply (received [])]

def smallDelivered : Delivered :=
  ⟨writeResponse (.fetchOk protocolVersion "req-1" [⟨0, 4096, 0⟩]), some (.clone ⟨1, 30⟩)⟩

/-- The session of the small request. -/
theorem smallEvents_run : ∃ c, (streams packetJson fun _ => "I/O error").Run (fun _ _ => True)
      (startStreams ℕ {0, 1, 2}) (smallEvents.map fun e => (0, e)) c ∧
    (c.task 0).sent = [smallPacket, smallPacket] ∧ (c.task 0).inbox = [smallPacket] ∧
    (c.task 0).replies = [smallDelivered] ∧ (c.task 0).conn = .accepted 3 .waiting ∧
    c.shared.table = {0, 1, 2, 3, 5} := by
  have hne : smallPacket.bytes.length ≠ 0 := fun hno =>
    writeRequest_ne_nil smallRequest (List.length_eq_zero_iff.mp hno)
  have hle : smallPacket.bytes.length ≤ maxPacketBytes := by decide +kernel
  have hrecv : SeqpacketStream.recvPacket .lowest none smallPacket {3, 0, 1, 2} =
      (.ok (writeRequest smallRequest), {0, 1, 2, 3, 5}) := by
    rw [recvPacket_of_le _ _ _ (by decide), if_neg hne, List.take_of_length_le hle]
    exact congrArg (Prod.mk _) (by decide)
  have hhandle : handlePacket packetJson (fun _ => "I/O error") smallEnv
      (writeRequest smallRequest) =
        .ok (.fetchOk protocolVersion "req-1" [⟨0, 4096, 0⟩], ⟨7, ⟨1, 30⟩⟩) := by
    simp only [handlePacket, parseFetchRequest, packetJson_writeRequest]
    rfl
  have hfits : ¬ maxPacketBytes <
      (packetJson.encode (.fetchOk protocolVersion "req-1" [⟨0, 4096, 0⟩])).length := by
    decide +kernel
  let d : Descriptors := (⟨{0, 1, 2}, fun _ => .daemon⟩ : Descriptors).opened 3 .stream
  let d₁ : Descriptors := d.receive {0, 1, 2, 3, 5}
  let d₂ : Descriptors := d₁.opened 7 (.clone ⟨1, 30⟩)
  let s : ClientStream := ⟨[smallPacket, smallPacket], [smallPacket], [], .connecting⟩
  have hreceived : streamStep packetJson (fun _ => "I/O error") d
      { s with inbox := [smallPacket, smallPacket], conn := .accepted 3 .waiting }
      (.recv .lowest none) =
        some (d₁, { s with conn := .accepted 3 (.handling (writeRequest smallRequest)) }) := by
    have htable : d.table = {3, 0, 1, 2} := rfl
    simp only [streamStep, htable, hrecv, d₁, s]
  have hfetched : streamStep packetJson (fun _ => "I/O error") d₁
      { s with conn := .accepted 3 (.handling (writeRequest smallRequest)) } (.fetch smallEnv) =
        some (d₂, { s with conn := .accepted 3 (.replying (writeRequest smallRequest)
          (.fetchOk protocolVersion "req-1" [⟨0, 4096, 0⟩]) (some ⟨7, ⟨1, 30⟩⟩)) }) := by
    simp only [streamStep, hhandle]
    exact if_neg (by decide)
  have hreplied : streamStep packetJson (fun _ => "I/O error") d₂
      { s with conn := .accepted 3 (.replying (writeRequest smallRequest)
        (.fetchOk protocolVersion "req-1" [⟨0, 4096, 0⟩]) (some ⟨7, ⟨1, 30⟩⟩)) }
      (.reply (received [])) =
        some (d₂.close 7,
          { s with replies := [smallDelivered], conn := .accepted 3 .waiting }) := by
    simp only [streamStep, DataPlane.send, if_neg hfits, received, ne_eq, not_true_eq_false,
      if_false]
    rfl
  have hsolo : (streams packetJson fun _ => "I/O error").solo
      (startStreams ℕ {0, 1, 2}).shared ((startStreams ℕ {0, 1, 2}).task 0) smallEvents =
        some (_, _) :=
    TaskSystem.solo_cons_eq_some.mpr ⟨_, _, rfl, TaskSystem.solo_cons_eq_some.mpr ⟨_, _, rfl,
      TaskSystem.solo_cons_eq_some.mpr ⟨_, _, rfl, TaskSystem.solo_cons_eq_some.mpr ⟨_, _,
        hreceived, TaskSystem.solo_cons_eq_some.mpr ⟨_, _, hfetched,
          TaskSystem.solo_cons_eq_some.mpr ⟨_, _, hreplied, rfl⟩⟩⟩⟩⟩⟩
  exact ⟨_, .of_solo (TaskSystem.soloOk_true _ _ _) hsolo, rfl, rfl, rfl, rfl, by decide⟩

/-- The client has one answer, which it reads as the range of its request, with a clone of the
target of the instance `x`. -/
theorem answers_in_order_small : ∃ c exchanges pending fetched cut,
    InOrder packetJson (fun _ => "I/O error") (c.task 0)
      (fetches (0 : ℕ) (smallEvents.map fun e => (0, e))) exchanges pending fetched cut ∧
    (c : TaskSystem.Config Descriptors ClientStream ℕ).shared.table = {0, 1, 2, 3, 5} ∧
    exchanges.map (Exchange.delivered packetJson) ++ cut = [smallDelivered] ∧
    exchanges.map (·.packet) ++ pending.toList = [smallPacket] := by
  obtain ⟨c, hrun, hsent, hinbox, hreplies, -, htable⟩ := smallEvents_run
  obtain ⟨exchanges, pending, fetched, cut, hs, -⟩ := answers_in_order hrun 0
  refine ⟨c, exchanges, pending, fetched, cut, hs, htable, hs.replies.symm.trans hreplies, ?_⟩
  have hall := hs.sent
  rw [hsent, hinbox, ← List.append_assoc] at hall
  exact (List.append_cancel_right (show [smallPacket] ++ [smallPacket] = _ from hall)).symm

/-- The second descriptor that was attached is open beside that of the stream, and the one of the
response is not. -/
theorem descriptors_accounted_small :
    ∃ (c : TaskSystem.Config Descriptors ClientStream ℕ) (ls : List (ℕ × StreamEvent)),
    (streams packetJson fun _ => "I/O error").Run (fun _ _ => True) 
      (startStreams ℕ {0, 1, 2}) ls c ∧
    c.shared.table = {0, 1, 2, 3, 5} ∧ c.shared.file 3 = .stream ∧
    (c.shared.table.filter fun fd => c.shared.file fd = .attached).card = ((streams packetJson
      fun _ => "I/O error").observe attachedLeak (startStreams ℕ {0, 1, 2}) ls).sum ∧
    (c.shared.table.filter fun fd => c.shared.file fd = .daemon) = {0, 1, 2} := by
  obtain ⟨c, hrun, -, -, -, hconn, htable⟩ := smallEvents_run
  obtain ⟨hheld, -, -, hleaks, hrest⟩ := descriptors_accounted hrun
  have hstream := hheld 0 .own 3 .stream (by rw [hconn]; rfl)
  exact ⟨c, _, hrun, htable, hstream.2.1, hleaks, hrest⟩

end DataPlane

end Lazyd
