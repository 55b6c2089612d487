import Porter.Lib.Buffer
import Porter.Lib.Framing
import Porter.Recv.Connect

namespace Porter

open Buffer

namespace Packet

-- payload_len at offset 34 of a header
def wirePayloadLen (buf : Bytes) : Nat := field buf 34 2

theorem wirePayloadLen_take (buf : Bytes) :
    wirePayloadLen (buf.take PACKET_HEADER_SIZE) = wirePayloadLen buf := by
  unfold wirePayloadLen field
  rw [List.drop_take, List.take_take]
  rfl

-- The checks that the accept thread and tcp_handle_packet make on the bytes of a packet.
def vetted (e : Env) (buf : Bytes) : Option Packet := do
  let pkt ← parse buf
  if pkt.serviceId = e.serviceId then pkt.authenticate e (buf.take PACKET_HEADER_SIZE) else none

end Packet

-- The packets of a TCP stream.
def Env.format (e : Env) : Framing.Format UInt8 where
  header := PACKET_HEADER_SIZE
  len := Packet.wirePayloadLen
  limit := e.maxPayload
  ok := fun buf => (Packet.parse buf).isSome
  header_pos := by decide
  len_take := fun buf _ => Packet.wirePayloadLen_take buf

-- How cplat_socket_recv_all ends: with what there is, or broken after some bytes.
inductive Transfer where
  | whole
  | broken (after : Nat)
  deriving DecidableEq, Repr

-- How cplat_socket_wait_readable ends.
inductive Readiness where
  | ready
  | idle
  | failed
  deriving DecidableEq, Repr

-- Where the accept thread stands before a connection is registered.
inductive Acceptor where
  | listening
  | greeting (fd : Nat)
  -- the first header is in tcp_first_pkt_buf
  | sized (fd payloadLen : Nat)
  -- the first packet is in tcp_first_pkt_buf
  | filled (fd pktLen : Nat)
  deriving DecidableEq, Repr

-- Where the receive thread stands in its loop.
inductive Reader where
  | ended
  | entry
  -- `running` was set
  | checked
  -- tcp_conn_fd is read
  | fetched (fd : Nat)
  | polling (fd : Nat)
  | reading (fd : Nat)
  -- the header is in tcp_recv_buf
  | sized (fd wirePayloadLen : Nat)
  -- the packet is in tcp_recv_buf
  | filled (wirePayloadLen : Nat)
  deriving DecidableEq, Repr

def Acceptor.fd : Acceptor → Option Nat
  | greeting fd | sized fd _ | filled fd _ => some fd
  | listening => none

-- The descriptor the thread is about to use.
def Reader.fd : Reader → Option Nat
  | fetched fd | polling fd | reading fd | sized fd _ => some fd
  | ended | entry | checked | filled _ => none

-- What the threads of one path keep.
structure Port where
  -- the value of tcp_conn_fd while it is valid
  connFd : Nat
  tcpFirstPktBuf : Nat → UInt8
  tcpFirstPktLen : Nat
  tcpRecvBuf : Nat → UInt8
  acceptor : Acceptor
  reader : Reader
  -- the connection the path works on, not in the source
  serves : Option Nat

-- A connection: all the bytes that arrive on it, and those that nobody has read. The other fields
-- are records.
structure Wire where
  stream : Bytes
  unread : Bytes
  -- the first packet as the accept thread has admitted it
  admitted : Option Packet
  -- what tcp_handle_packet was called with
  handed : List Bytes
  -- closed at this end before the receive thread has ended
  cutOff : Bool
  -- once the receive thread has ended: whether the connection was cut off or broken before
  outcome : Option Bool

-- A TCP service with the bytes its receiver reads. Connections are numbered as they are accepted;
-- a descriptor is a number the platform gives to one open connection at a time.
structure TcpStreams extends TcpService where
  ports : Path → Port
  wires : Nat → Wire
  connections : Nat
  descriptors : Nat → Option Nat
  -- for each read, the connection it is made for and the one it reads from
  reads : List (Nat × Nat)

namespace TcpStreams

def opened (e : Env) (sessionId : UInt32) (sessionTs : Timespec) (destAddr : Path → Endpoint) :
    TcpStreams where
  toTcpService := TcpService.opened e sessionId sessionTs destAddr
  ports := fun _ => ⟨0, fun _ => 0, 0, fun _ => 0, .listening, .ended, none⟩
  wires := fun _ => ⟨[], [], none, [], false, none⟩
  connections := 0
  descriptors := fun _ => none
  reads := []

def setPort (s : TcpStreams) (path : Path) (port : Port) : TcpStreams :=
  { s with ports := Function.update s.ports path port }

def setWire (s : TcpStreams) (conn : Nat) (wire : Wire) : TcpStreams :=
  { s with wires := Function.update s.wires conn wire }

-- A record in the connection that a path works on.
def note (s : TcpStreams) (path : Path) (f : Wire → Wire) : TcpStreams :=
  match (s.ports path).serves with
  | some conn => s.setWire conn (f (s.wires conn))
  | none => s

def goto (s : TcpStreams) (path : Path) (reader : Reader) : TcpStreams :=
  s.setPort path { s.ports path with reader := reader }

-- cplat_socket_recv_all
def recvAll (s : TcpStreams) (path : Path) (fd n : Nat) (transfer : Transfer) :
    Option Bytes × TcpStreams :=
  match s.descriptors fd with
  | none => (none, s)
  | some conn =>
      let wire := s.wires conn
      let s := { s with reads := s.reads ++ ((s.ports path).serves.map (·, conn)).toList }
      match transfer with
      | .whole =>
          if n ≤ wire.unread.length then
            (some (wire.unread.take n), s.setWire conn { wire with unread := wire.unread.drop n })
          else (none, s.setWire conn { wire with unread := [] })
      | .broken after => (none, s.setWire conn { wire with unread := wire.unread.drop after })

-- A step of the service. close_tcp_conn closes the descriptor, and a receive thread that is started
-- is at the beginning of its loop.
def advance (e : Env) (s : TcpStreams) (input : TcpService.Input) : TcpStreams :=
  let service := s.toTcpService.step e input
  let closes := fun k => s.tcpConnFd k && !service.tcpConnFd k
  { s with
    toTcpService := service
    ports := fun k =>
      if service.thread k && !s.thread k then { s.ports k with reader := .entry } else s.ports k
    wires := fun conn =>
      if ∃ k, closes k = true ∧ (s.ports k).serves = some conn then
        { s.wires conn with cutOff := true }
      else s.wires conn
    descriptors := fun fd =>
      if ∃ k, closes k = true ∧ (s.ports k).connFd = fd then none else s.descriptors fd }

-- receiver_accept_loop and thread_connect_read_first_packet

def greeted (s : TcpStreams) (path : Path) (fd : Nat) (stream : Bytes) : TcpStreams :=
  let port := s.ports path
  let wire := s.wires s.connections
  { s with
    ports := Function.update s.ports path
      { port with acceptor := .greeting fd, serves := some s.connections }
    wires := Function.update s.wires s.connections { wire with stream := stream, unread := stream }
    connections := s.connections + 1
    descriptors := Function.update s.descriptors fd (some s.connections) }

def accept (e : Env) (s : TcpStreams) (path : Path) (fd : Nat) (stream : Bytes) : TcpStreams :=
  if e.role = .receiver ∧ path.val < e.nPath ∧ s.phase path = .waiting ∧
      (s.ports path).acceptor = .listening ∧ s.descriptors fd = none then
    s.greeted path fd stream
  else s

-- The connection is closed, and the loop goes on with the next one.
def turnAway (s : TcpStreams) (path : Path) (fd : Nat) : TcpStreams :=
  let s := s.setPort path { s.ports path with acceptor := .listening, serves := none }
  { s with descriptors := Function.update s.descriptors fd none }

def fillFirst (s : TcpStreams) (path : Path) (offset : Nat) (bytes : Bytes) (acceptor : Acceptor) :
    TcpStreams :=
  let port := s.ports path
  s.setPort path
    { port with tcpFirstPktBuf := copyIn port.tcpFirstPktBuf offset bytes, acceptor := acceptor }

-- The session is checked and the connection registered under session_establish_mutex.
def establish (e : Env) (s : TcpStreams) (path : Path) (fd pktLen : Nat) : TcpStreams :=
  match Packet.vetted e (copyOut (s.ports path).tcpFirstPktBuf 0 pktLen) with
  | none => s.turnAway path fd
  | some pkt =>
      if s.sessionCompare e pkt = .old then s.turnAway path fd
      else
        let s := s.advance e (.accept path pkt)
        let s := s.note path fun wire => { wire with admitted := some pkt }
        s.setPort path { s.ports path with
          connFd := fd, tcpFirstPktLen := pktLen, acceptor := .listening }

def greet (e : Env) (s : TcpStreams) (path : Path) (transfer : Transfer) : TcpStreams :=
  match (s.ports path).acceptor with
  | .listening => s
  | .greeting fd =>
      match s.recvAll path fd PACKET_HEADER_SIZE transfer with
      | (none, s) => s.turnAway path fd
      | (some header, s) =>
          let len := Packet.wirePayloadLen header
          let s := s.fillFirst path 0 header (.sized fd len)
          if PACKET_HEADER_SIZE + e.maxPayload < PACKET_HEADER_SIZE + len then s.turnAway path fd
          else s
  | .sized fd len =>
      if len = 0 then s.fillFirst path 0 [] (.filled fd PACKET_HEADER_SIZE)
      else match s.recvAll path fd len transfer with
        | (none, s) => s.turnAway path fd
        | (some payload, s) =>
            s.fillFirst path PACKET_HEADER_SIZE payload (.filled fd (PACKET_HEADER_SIZE + len))
  | .filled fd pktLen => s.establish e path fd pktLen

-- tcp_recv_thread_func

-- The thread leaves its loop.
def exit (e : Env) (s : TcpStreams) (path : Path) (broken : Bool) : TcpStreams :=
  let s := s.note path fun wire => { wire with outcome := some (broken || wire.cutOff) }
  (s.advance e (.exit path)).goto path .ended

def fillRecv (s : TcpStreams) (path : Path) (offset : Nat) (bytes : Bytes) (reader : Reader) :
    TcpStreams :=
  let port := s.ports path
  s.setPort path { port with tcpRecvBuf := copyIn port.tcpRecvBuf offset bytes, reader := reader }

-- The packet that the accept thread has read, if it is still there.
def takeFirst (e : Env) (s : TcpStreams) (path : Path) (fd : Nat) : TcpStreams :=
  let port := s.ports path
  if 0 < port.tcpFirstPktLen then
    let first := copyOut port.tcpFirstPktBuf 0 port.tcpFirstPktLen
    s.setPort path { port with
      tcpRecvBuf := copyIn port.tcpRecvBuf 0 first
      tcpFirstPktLen := 0
      reader := .filled (Packet.wirePayloadLen first) }
  else if 0 < e.healthIntervalMs ∧ 0 < e.healthTimeoutMs then s.goto path (.polling fd)
  else s.goto path (.reading fd)

-- The wait for the socket and the check of the PING timeout.
def poll (e : Env) (s : TcpStreams) (path : Path) (fd : Nat) : Readiness → TcpStreams
  | .ready => if s.running path then s.goto path (.reading fd) else s.exit e path false
  | .failed => s.exit e path true
  | .idle =>
      if !s.running path then s.exit e path false
      else
        let s := s.advance e (.pollTimeout path)
        if s.running path then s.goto path .entry else s.exit e path true

-- tcp_handle_packet under tcp_recv_mutex
def handle (e : Env) (s : TcpStreams) (path : Path) (wirePayloadLen : Nat) : TcpStreams :=
  if !s.running path then s.exit e path false
  else
    let buf := copyOut (s.ports path).tcpRecvBuf 0 (PACKET_HEADER_SIZE + wirePayloadLen)
    let s := s.note path fun wire => { wire with handed := wire.handed ++ [buf] }
    match Packet.parse buf with
    | none => s.exit e path false
    | some _ =>
        match Packet.vetted e buf with
        | none => s.goto path .entry
        | some pkt => (s.goto path .entry).advance e (.packet path pkt)

def receive (e : Env) (s : TcpStreams) (path : Path) (readiness : Readiness) (transfer : Transfer) :
    TcpStreams :=
  match (s.ports path).reader with
  | .ended => s
  | .entry => if s.running path then s.goto path .checked else s.exit e path false
  | .checked =>
      if s.tcpConnFd path then s.goto path (.fetched (s.ports path).connFd)
      else s.exit e path false
  | .fetched fd => s.takeFirst e path fd
  | .polling fd => s.poll e path fd readiness
  | .reading fd =>
      match s.recvAll path fd PACKET_HEADER_SIZE transfer with
      | (none, s) => s.exit e path (transfer ≠ .whole)
      | (some header, s) =>
          let len := Packet.wirePayloadLen header
          let s := s.fillRecv path 0 header (.sized fd len)
          if e.maxPayload < len then s.exit e path false else s
  | .sized fd len =>
      if len = 0 then s.goto path (.filled 0)
      else match s.recvAll path fd len transfer with
        | (none, s) => s.exit e path (transfer ≠ .whole)
        | (some payload, s) => s.fillRecv path PACKET_HEADER_SIZE payload (.filled len)
  | .filled len => s.handle e path len

-- What the accept thread does with a registered connection, potr_close_service and the health
-- threads.
def control (e : Env) (s : TcpStreams) : TcpService.Input → TcpStreams
  | .start path outcome => s.advance e (.start path outcome)
  | .boot path ok => s.advance e (.boot path ok)
  | .join path => s.advance e (.join path)
  | .leave path =>
      if s.phase path = .joined then
        let s := s.advance e (.leave path)
        s.setPort path { s.ports path with tcpFirstPktLen := 0 }
      else s
  | .release path => s.advance e (.release path)
  | .finish path =>
      match s.phase path with
      | .released _ failed =>
          let s := s.advance e (.finish path)
          let port := s.ports path
          s.setPort path { port with
            tcpFirstPktLen := if failed then 0 else port.tcpFirstPktLen
            serves := none }
      | _ => s
  | .close path => s.advance e (.close path)
  | .health path seqNum => s.advance e (.health path seqNum)
  | .connect _ | .accept .. | .packet .. | .pollTimeout _ | .exit _ => s

inductive Action where
  -- the platform accepts a connection
  | accept (path : Path) (fd : Nat) (stream : Bytes)
  | greet (path : Path) (transfer : Transfer)
  | receive (path : Path) (readiness : Readiness) (transfer : Transfer)
  | control (input : TcpService.Input)

def step (e : Env) (s : TcpStreams) : Action → TcpStreams
  | .accept path fd stream => s.accept e path fd stream
  | .greet path transfer => s.greet e path transfer
  | .receive path readiness transfer => s.receive e path readiness transfer
  | .control input => s.control e input

def run (e : Env) (s : TcpStreams) (actions : List Action) : TcpStreams := actions.foldl (step e) s

end TcpStreams

end Porter
