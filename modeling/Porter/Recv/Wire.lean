import Porter.Recv.Close
import Porter.Seal

namespace Porter

-- thread_recv_check_src_addr. A UNICAST_BIDIR sender cannot be opened without a dst_addr.
def Env.checkSrcAddr (e : Env) (sender : Endpoint) : Bool :=
  if e.isMultiPeer then e.srcPort = 0 || hton16 sender.port = e.srcPort
  else if e.type = .unicastBidir ∧ e.role = .sender then
    (Slot.openPaths e).any fun i => sender.address = e.dstAddrResolved i
  else !e.srcAddrGiven || (Slot.openPaths e).any fun i => sender.address = e.srcAddrResolved i

-- A packet whose tag, or the lack of one, does not pass thread_recv_authenticate_packet.
def Packet.Unauthentic (e : Env) (buf : Bytes) : Prop :=
  ∃ pkt, parse buf = some pkt ∧ pkt.authenticate e (buf.take PACKET_HEADER_SIZE) = none

-- What recvfrom leaves of a datagram in the receive buffer.
def Env.recvBuf (e : Env) (datagram : Bytes) : Bytes :=
  datagram.take (PACKET_HEADER_SIZE + e.maxPayload)

-- recv_thread_func of a 1:1 service, for one datagram
def Slot.recvDatagram (e : Env) (slot : Slot) (path : Path) (sender : Endpoint)
    (datagram : Bytes) : Slot :=
  let buf := e.recvBuf datagram
  match Packet.parse buf with
  | none => slot
  | some pkt =>
      if pkt.serviceId ≠ e.serviceId then slot
      else if !e.checkSrcAddr sender then slot
      else
        match pkt.authenticate e (buf.take PACKET_HEADER_SIZE) with
        | none => slot
        | some pkt => slot.step e (.packet path sender pkt)

-- recv_thread_func of an N:1 service; n1_handle_packet starts with the authentication.
def Ctx.recvDatagram (e : Env) (ctx : Ctx) (path : Path) (sender : Endpoint)
    (datagram : Bytes) : Ctx :=
  let buf := e.recvBuf datagram
  match Packet.parse buf with
  | none => ctx
  | some pkt =>
      if pkt.serviceId ≠ e.serviceId then ctx
      else if !e.checkSrcAddr sender then ctx
      else
        match pkt.authenticate e (buf.take PACKET_HEADER_SIZE) with
        | none => ctx
        | some pkt => ctx.step e (.packet path sender pkt)

-- What can be read off a stream: not enough yet, a length that ends the connection, or one
-- packet and what follows it.
inductive TcpRead where
  | more
  | oversized
  | packet (buf rest : Bytes)
  deriving DecidableEq, Repr

-- The reads of tcp_recv_thread_func and of thread_connect_read_first_packet.
def tcpRead (e : Env) (stream : Bytes) : TcpRead :=
  if stream.length < PACKET_HEADER_SIZE then .more
  else
    let wirePayloadLen := Packet.field stream 34 2
    if e.maxPayload < wirePayloadLen then .oversized
    else if stream.length < PACKET_HEADER_SIZE + wirePayloadLen then .more
    else .packet (stream.take (PACKET_HEADER_SIZE + wirePayloadLen))
      (stream.drop (PACKET_HEADER_SIZE + wirePayloadLen))

namespace Closing

-- tcp_handle_packet for the bytes of one packet. A packet that cannot be parsed ends the
-- receive thread.
def tcpHandleBytes (e : Env) (c : Closing) (path : Path) (buf : Bytes) : Closing :=
  match Packet.parse buf with
  | none => c.step e (.exit path)
  | some pkt =>
      if pkt.serviceId ≠ e.serviceId then c
      else
        match pkt.authenticate e (buf.take PACKET_HEADER_SIZE) with
        | none => c
        | some pkt => c.step e (.packet path pkt)

-- One round of tcp_recv_thread_func on the unread bytes of its connection.
def recvRound (e : Env) (c : Closing) (path : Path) (stream : Bytes) : Closing × Bytes :=
  match tcpRead e stream with
  | .more => (c, stream)
  | .oversized => (c.step e (.exit path), stream)
  | .packet buf rest => (c.tcpHandleBytes e path buf, rest)

-- receiver_accept_loop for a new connection and the bytes that come on it. A connection that is
-- not taken is closed.
def acceptRound (e : Env) (c : Closing) (path : Path) (stream : Bytes) : Closing :=
  match tcpRead e stream with
  | .packet buf _ =>
      match Packet.parse buf with
      | none => c
      | some pkt =>
          if pkt.serviceId ≠ e.serviceId then c
          else
            match pkt.authenticate e (buf.take PACKET_HEADER_SIZE) with
            | none => c
            | some pkt => c.step e (.accept path pkt)
  | _ => c

end Closing

section

variable {e : Env} {buf rest : Bytes}

theorem Slot.recvDatagram_unauthentic {datagram : Bytes}
    (h : Packet.Unauthentic e (e.recvBuf datagram)) (slot : Slot) (path : Path) (sender : Endpoint) :
    slot.recvDatagram e path sender datagram = slot := by
  obtain ⟨pkt, hparse, hauth⟩ := h
  unfold recvDatagram
  simp only [hparse, hauth, ite_self]

theorem Ctx.recvDatagram_unauthentic {datagram : Bytes}
    (h : Packet.Unauthentic e (e.recvBuf datagram)) (ctx : Ctx) (path : Path) (sender : Endpoint) :
    ctx.recvDatagram e path sender datagram = ctx := by
  obtain ⟨pkt, hparse, hauth⟩ := h
  unfold recvDatagram
  simp only [hparse, hauth, ite_self]

theorem Closing.recvRound_unauthentic {stream : Bytes} (hread : tcpRead e stream = .packet buf rest)
    (h : Packet.Unauthentic e buf) (c : Closing) (path : Path) :
    c.recvRound e path stream = (c, rest) := by
  obtain ⟨pkt, hparse, hauth⟩ := h
  unfold recvRound tcpHandleBytes
  simp only [hread, hparse, hauth, ite_self]

theorem Closing.acceptRound_unauthentic {stream : Bytes}
    (hread : tcpRead e stream = .packet buf rest) (h : Packet.Unauthentic e buf) (c : Closing)
    (path : Path) : c.acceptRound e path stream = c := by
  obtain ⟨pkt, hparse, hauth⟩ := h
  unfold acceptRound
  simp only [hread, hparse, hauth, ite_self]

theorem tcpRead_wire {pkt : Packet} (hlen : pkt.payload.length ≤ e.maxPayload) (rest : Bytes) :
    tcpRead e (pkt.wire ++ rest) = .packet pkt.wire rest := by
  have hmax := e.bounds.2.1
  have hfield : Packet.field (pkt.wire ++ rest) 34 2 = pkt.payload.length := by
    unfold Packet.wire
    rw [List.append_assoc, (Packet.header_fields pkt _ _).2.2.2.2.2.2.2.1]
    simp only [MAX_PAYLOAD] at hmax
    exact Nat.mod_eq_of_lt (by omega)
  have htotal : PACKET_HEADER_SIZE + pkt.payload.length = pkt.wire.length :=
    (Packet.length_wire pkt).symm
  unfold tcpRead
  simp only [hfield, htotal, List.length_append]
  rw [if_neg (by omega), if_neg (by omega), if_neg (by omega), List.take_left, List.drop_left]

end

end Porter
