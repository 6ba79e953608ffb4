import Lazyd.Library.Handles
import Lazyd.Data.Packets

/-!
# Descriptors that come with packets

A client may attach descriptors to a packet. The kernel installs as many of them in the daemon as
fit into the control buffer. The buffer is made for one descriptor, but it is as long as a multiple
of eight bytes, so two fit. The daemon takes the first one out of the buffer and closes it. The
second one stays open, and where there are more than two, the daemon returns before it takes any,
and both stay open.

## Main definitions

* `DataPlane.cmsgSpace`, `DataPlane.cmsgLen` : the sizes of control messages.
* `DataPlane.ClientPacket`, `DataPlane.recvmsg` : what the kernel does.
* `DataPlane.SeqpacketStream.recvPacketWithFd`, `DataPlane.SeqpacketStream.recvPacket`.
* `DataPlane.leaked` : the descriptors that stay open.

## Main results

* `DataPlane.recvPacket_fst` : the result is the one of `DataPlane.recvPacket`.
* `DataPlane.mem_recvPacket_snd` : what is open afterwards.
* `DataPlane.no_leak_iff` : no descriptor stays open if and only if at most one was attached.
* `DataPlane.card_recvPackets` : what a client can make the daemon hold open.

Source: `src/data.rs`, lines 313–367.
-/

namespace Lazyd

namespace DataPlane

/-! ### Control messages -/

/-- `size_of::<libc::cmsghdr>()`, where a `usize` has 64 bits. -/
def cmsghdrBytes : ℕ := 16

/-- `size_of::<RawFd>()` -/
def rawFdBytes : ℕ := 4

/-- The next multiple of the size of a `usize`. -/
def cmsgAlign (len : ℕ) : ℕ := (len + 7) / 8 * 8

/-- `libc::CMSG_SPACE` -/
def cmsgSpace (len : ℕ) : ℕ := cmsgAlign len + cmsgAlign cmsghdrBytes

/-- `libc::CMSG_LEN` -/
def cmsgLen (len : ℕ) : ℕ := cmsgAlign cmsghdrBytes + len

def solSocket : ℤ := 1

def scmRights : ℤ := 1

/-- A control message: its header, and the descriptors in its data. -/
structure Cmsg where
  level : ℤ
  type : ℤ
  len : ℕ
  data : List ℤ
  deriving DecidableEq, Repr

/-! ### The kernel -/

/-- A packet as a client sends it: its bytes, and how many descriptors are attached. -/
structure ClientPacket where
  bytes : List UInt8
  attached : ℕ
  deriving DecidableEq, Repr

/-- What `recvmsg` leaves in the message header and the buffers. -/
structure Msghdr where
  bytes : List UInt8
  /-- `CMSG_FIRSTHDR` -/
  control : Option Cmsg
  /-- `MSG_CTRUNC` -/
  controlTruncated : Bool
  deriving DecidableEq, Repr

/-- How many descriptors fit into a control buffer, after the header. -/
def fitting (controlLen : ℕ) : ℕ := (controlLen - cmsghdrBytes) / rawFdBytes

/-- The control message with the descriptors that have been installed. -/
def rightsCmsg (fds : List Fd) : Option Cmsg :=
  if fds = [] then none
  else some
    { level := solSocket, type := scmRights, len := cmsgLen (fds.length * rawFdBytes),
      data := fds.map Int.ofNat }

/-- `recvmsg` with buffers of the given lengths: what it leaves, and the descriptors that are open
in the daemon then. As many of the attached descriptors are installed as fit. -/
def recvmsg (A : HandleSource Fd) (iovLen controlLen : ℕ) (packet : ClientPacket)
    (table : Finset Fd) : Msghdr × Finset Fd :=
  let installed := A.openMany (min packet.attached (fitting controlLen)) table
  ({ bytes := packet.bytes.take iovLen, control := rightsCmsg installed.1,
     controlTruncated := fitting controlLen < packet.attached }, installed.2)

/-! ### The daemon -/

/-- The descriptor that `recv_packet_with_fd` takes out of the control buffer. -/
def firstFd : Option Cmsg → Option Fd
  | none => none
  | some cmsg =>
    if cmsg.level = solSocket ∧ cmsg.type = scmRights ∧ cmsgLen rawFdBytes ≤ cmsg.len then
      let fd := cmsg.data.headD (-1)
      if 0 ≤ fd then some fd.toNat else none
    else none

/-- Dropping an `Option<OwnedFd>` closes the descriptor. -/
def dropFd (fd : Option Fd) (table : Finset Fd) : Finset Fd :=
  match fd with
  | none => table
  | some fd => table.erase fd

/-- `SeqpacketStream::recv_packet_with_fd`, and the descriptors that are open then. -/
def SeqpacketStream.recvPacketWithFd (A : HandleSource Fd) (fault : Option IoError)
    (packet : ClientPacket) (table : Finset Fd) :
    Except Error (List UInt8 × Option Fd) × Finset Fd :=
  match fault with
  | some err => (.error (.io err), table)
  | none =>
    let (msg, table) := recvmsg A maxPacketBytes (cmsgSpace rawFdBytes) packet table
    if msg.controlTruncated then (.error (.remote "truncated fd control message"), table)
    else
      let fd := firstFd msg.control
      if msg.bytes.length = 0 then (.error (.remote "data peer closed"), dropFd fd table)
      else (.ok (msg.bytes, fd), table)

/-- `SeqpacketStream::recv_packet`, and the descriptors that are open then. -/
def SeqpacketStream.recvPacket (A : HandleSource Fd) (fault : Option IoError)
    (packet : ClientPacket) (table : Finset Fd) : Except Error (List UInt8) × Finset Fd :=
  match SeqpacketStream.recvPacketWithFd A fault packet table with
  | (.error err, table) => (.error err, table)
  | (.ok (packet, fd), table) => (.ok packet, dropFd fd table)

/-- The descriptors that the kernel installs for a packet. -/
def installed (A : HandleSource Fd) (fault : Option IoError) (packet : ClientPacket)
    (table : Finset Fd) : List Fd :=
  match fault with
  | some _ => []
  | none => (A.openMany (min packet.attached (fitting (cmsgSpace rawFdBytes))) table).1

/-! ### What stays open -/

section Leak

variable (A : HandleSource Fd) (fault : Option IoError) (packet : ClientPacket) (table : Finset Fd)

theorem fitting_cmsgSpace : fitting (cmsgSpace rawFdBytes) = 2 := rfl

theorem firstFd_rightsCmsg (fds : List Fd) : firstFd (rightsCmsg fds) = fds.head? := by
  cases fds with
  | nil => rfl
  | cons fd fds =>
    have hlen : cmsgLen rawFdBytes ≤ cmsgLen ((fd :: fds).length * rawFdBytes) := by
      simp only [cmsgLen, rawFdBytes, List.length_cons]
      omega
    simp only [rightsCmsg, firstFd, reduceCtorEq, if_false, true_and, if_pos hlen, List.map_cons,
      List.headD_cons, List.head?_cons]
    rfl

/-- The descriptors that are installed for a packet and not closed. -/
def leaked : List Fd :=
  if packet.attached ≤ 2 then (installed A fault packet table).tail
  else installed A fault packet table

theorem recvmsg_of_le (h : packet.attached ≤ 2) :
    recvmsg A maxPacketBytes (cmsgSpace rawFdBytes) packet table =
      ({ bytes := packet.bytes.take maxPacketBytes
         control := rightsCmsg (A.openMany packet.attached table).1
         controlTruncated := false }, (A.openMany packet.attached table).2) := by
  have htruncated : decide (fitting (cmsgSpace rawFdBytes) < packet.attached) = false :=
    decide_eq_false (not_lt.mpr h)
  rw [recvmsg, htruncated, fitting_cmsgSpace, min_eq_left h]

theorem recvmsg_of_lt (h : 2 < packet.attached) :
    recvmsg A maxPacketBytes (cmsgSpace rawFdBytes) packet table =
      ({ bytes := packet.bytes.take maxPacketBytes
         control := rightsCmsg (A.openMany 2 table).1
         controlTruncated := true }, (A.openMany 2 table).2) := by
  have htruncated : decide (fitting (cmsgSpace rawFdBytes) < packet.attached) = true :=
    decide_eq_true h
  rw [recvmsg, htruncated, fitting_cmsgSpace, min_eq_right (Nat.le_of_lt h)]

/-- A packet with at most two descriptors: the first of them is closed, with or without a result. -/
theorem recvPacket_of_le (h : packet.attached ≤ 2) :
    SeqpacketStream.recvPacket A none packet table =
      (if packet.bytes.length = 0 then .error (.remote "data peer closed")
        else .ok (packet.bytes.take maxPacketBytes),
        dropFd (A.openMany packet.attached table).1.head?
          (A.openMany packet.attached table).2) := by
  have hlength : (packet.bytes.take maxPacketBytes).length = 0 ↔ packet.bytes.length = 0 := by
    rw [List.length_take, maxPacketBytes]
    omega
  simp only [SeqpacketStream.recvPacket, SeqpacketStream.recvPacketWithFd,
    recvmsg_of_le A packet table h, firstFd_rightsCmsg, Bool.false_eq_true, if_false, hlength]
  split_ifs <;> rfl

theorem recvPacket_of_lt (h : 2 < packet.attached) :
    SeqpacketStream.recvPacket A none packet table =
      (.error (.remote "truncated fd control message"), (A.openMany 2 table).2) := by
  simp only [SeqpacketStream.recvPacket, SeqpacketStream.recvPacketWithFd,
    recvmsg_of_lt A packet table h, if_true]

/-- The result is the one of the packet without its descriptors. -/
theorem recvPacket_fst : (SeqpacketStream.recvPacket A fault packet table).1 =
    recvPacket {
      recvmsg := match fault with
        | some err => .error err
        | none => .ok { bytes := packet.bytes, controlTruncated := 2 < packet.attached }
      send := fun n => .ok n } := by
  cases fault with
  | some err => rfl
  | none =>
    rcases Nat.lt_or_ge 2 packet.attached with h | h
    · rw [recvPacket_of_lt A packet table h]
      simp only [recvPacket, decide_eq_true h, if_true]
    · have htruncated : decide (2 < packet.attached) = false := decide_eq_false (not_lt.mpr h)
      rw [recvPacket_of_le A packet table h]
      simp only [recvPacket, htruncated, Bool.false_eq_true, if_false, List.length_eq_zero_iff]

/-- **What is open afterwards**: what was open before, and what has been leaked. -/
theorem mem_recvPacket_snd {fd : Fd} : fd ∈ (SeqpacketStream.recvPacket A fault packet table).2 ↔
    fd ∈ table ∨ fd ∈ leaked A fault packet table := by
  cases fault with
  | some err =>
    simp only [SeqpacketStream.recvPacket, SeqpacketStream.recvPacketWithFd, leaked, installed,
      List.tail_nil, ite_self, List.not_mem_nil, or_false]
  | none =>
    rcases Nat.lt_or_ge 2 packet.attached with h | h
    · rw [recvPacket_of_lt A packet table h, leaked, if_neg (not_le.mpr h), installed,
        fitting_cmsgSpace, min_eq_right (Nat.le_of_lt h)]
      exact A.mem_openMany
    · rw [recvPacket_of_le A packet table h, leaked, if_pos h, installed, fitting_cmsgSpace,
        min_eq_left h]
      have hopen : fd ∈ (A.openMany packet.attached table).2 ↔
          fd ∈ table ∨ fd ∈ (A.openMany packet.attached table).1 := A.mem_openMany
      have hnew := A.nodup_openMany packet.attached table
      have hnot (fd : Fd) (hfd : fd ∈ (A.openMany packet.attached table).1) : fd ∉ table :=
        A.notMem_of_mem_openMany hfd
      cases hfds : (A.openMany packet.attached table).1 with
      | nil =>
        rw [hfds] at hopen
        exact hopen
      | cons first rest =>
        rw [hfds] at hopen hnew hnot
        change fd ∈ (A.openMany packet.attached table).2.erase first ↔ fd ∈ table ∨ fd ∈ rest
        rw [Finset.mem_erase, hopen, List.mem_cons]
        constructor
        · rintro ⟨hne, hold | rfl | hrest⟩
          · exact Or.inl hold
          · exact absurd rfl hne
          · exact Or.inr hrest
        · rintro (hold | hrest)
          · refine ⟨?_, Or.inl hold⟩
            rintro rfl
            exact hnot fd List.mem_cons_self hold
          · refine ⟨?_, Or.inr (Or.inr hrest)⟩
            rintro rfl
            exact (List.nodup_cons.mp hnew).1 hrest

/-- How many descriptors are leaked for a packet with the given number of them. -/
def leakedCount (attached : ℕ) : ℕ :=
  if attached ≤ 1 then 0 else if attached = 2 then 1 else 2

theorem length_leaked : (leaked A none packet table).length = leakedCount packet.attached := by
  rw [leaked, leakedCount, installed, fitting_cmsgSpace]
  split_ifs with h2 h1 h1 h h
  all_goals
    try rw [List.length_tail]
    rw [A.length_openMany]
    omega

theorem mem_installed_of_mem_leaked {fd : Fd} (h : fd ∈ leaked A fault packet table) :
    fd ∈ installed A fault packet table := by
  rw [leaked] at h
  split_ifs at h
  · exact List.mem_of_mem_tail h
  · exact h

/-- **Descriptors that stay open.** No descriptor that the kernel has installed for a packet is open
when `recv_packet` returns, with or without a result, if and only if there is no packet or at most
one descriptor is attached to it. -/
theorem no_leak_iff :
    (∀ fd ∈ installed A fault packet table,
      fd ∉ (SeqpacketStream.recvPacket A fault packet table).2) ↔
      fault ≠ none ∨ packet.attached ≤ 1 := by
  cases fault with
  | some err => exact iff_of_true (fun fd h => absurd h List.not_mem_nil) (Or.inl (by simp))
  | none =>
    have hnew (fd : Fd) (h : fd ∈ installed A none packet table) : fd ∉ table :=
      A.notMem_of_mem_openMany h
    have hcount := length_leaked A packet table
    constructor
    · intro hclosed
      -- nothing is leaked
      have hnil : leaked A none packet table = [] := by
        refine List.eq_nil_iff_forall_not_mem.mpr fun fd hfd => ?_
        have hinstalled := mem_installed_of_mem_leaked A none packet table hfd
        exact hclosed fd hinstalled ((mem_recvPacket_snd A none packet table).mpr (Or.inr hfd))
      rw [hnil, List.length_nil, leakedCount] at hcount
      split_ifs at hcount with hone
      · exact Or.inr hone
    · rintro (hfault | hone) fd hfd hopen
      · exact hfault rfl
      · rw [leakedCount, if_pos hone, List.length_eq_zero_iff] at hcount
        rcases (mem_recvPacket_snd A none packet table).mp hopen with hold | hleaked
        · exact hnew fd hfd hold
        · rw [hcount] at hleaked
          exact absurd hleaked List.not_mem_nil

/-! ### Many packets -/

/-- The descriptors that are open after some packets have been received, one after the other. -/
def recvPackets : List ClientPacket → Finset Fd → Finset Fd
  | [], table => table
  | packet :: packets, table =>
    recvPackets packets (SeqpacketStream.recvPacket A none packet table).2

theorem card_recvPacket : (SeqpacketStream.recvPacket A none packet table).2.card =
    table.card + leakedCount packet.attached := by
  have hunion : (SeqpacketStream.recvPacket A none packet table).2 =
      table ∪ (leaked A none packet table).toFinset := by
    ext fd
    rw [mem_recvPacket_snd, Finset.mem_union, List.mem_toFinset]
  have hdisjoint : Disjoint table (leaked A none packet table).toFinset := by
    refine Finset.disjoint_right.mpr fun fd hfd => ?_
    exact A.notMem_of_mem_openMany
      (mem_installed_of_mem_leaked A none packet table (List.mem_toFinset.mp hfd))
  have hnodup : (leaked A none packet table).Nodup := by
    have hinstalled : (installed A none packet table).Nodup := A.nodup_openMany _ _
    rw [leaked]
    split_ifs
    · exact hinstalled.tail
    · exact hinstalled
  rw [hunion, Finset.card_union_of_disjoint hdisjoint, List.toFinset_card_of_nodup hnodup,
    length_leaked]

/-- **What a client can make the daemon hold open**: with every packet the descriptors that are
leaked for it, for as long as the daemon runs. -/
theorem card_recvPackets (packets : List ClientPacket) :
    (recvPackets A packets table).card =
      table.card + (packets.map fun packet => leakedCount packet.attached).sum := by
  induction packets generalizing table with
  | nil => rfl
  | cons packet packets ih =>
    rw [recvPackets, ih, card_recvPacket, List.map_cons, List.sum_cons, Nat.add_assoc]

end Leak

/-- A packet with two descriptors is received, and the second one stays open; so do the two that are
installed for a packet with three. -/
theorem second_descriptor_leaks :
    installed .lowest none ⟨[1], 2⟩ {0, 1, 2} = [3, 4] ∧
    SeqpacketStream.recvPacket .lowest none ⟨[1], 2⟩ {0, 1, 2} = (.ok [1], {0, 1, 2, 4}) ∧
    SeqpacketStream.recvPacket .lowest none ⟨[], 3⟩ {0, 1, 2} =
      (.error (.remote "truncated fd control message"), {0, 1, 2, 3, 4}) := by
  decide

end DataPlane

end Lazyd
