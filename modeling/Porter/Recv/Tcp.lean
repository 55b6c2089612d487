import Porter.Recv.Dispatch

namespace Porter

-- The part of potr_context a TCP service works on: the slot that all its paths share and what
-- their connect, accept and receive threads keep.
structure TcpCtx extends Slot where
  tcpActivePaths : Nat
  -- tcp_accepted_session_id and tcp_accepted_session_ts while tcp_accepted_session_known
  tcpAcceptedSession : Option SessionHdr
  tcpLastPingRecvMs : Path → Nat
  running : Path → Bool

namespace TcpCtx

def opened (e : Env) (sessionId : UInt32) (sessionTs : Timespec) (destAddr : Path → Endpoint) :
    TcpCtx :=
  { Slot.opened e sessionId sessionTs destAddr with
    tcpActivePaths := 0
    tcpAcceptedSession := none
    tcpLastPingRecvMs := fun _ => 0
    running := fun _ => false }

-- potr_recv_thread.c

-- Whether a receiver that has accepted a session drops the packets of this one.
def refuses (e : Env) (ctx : TcpCtx) (pkt : Packet) : Bool :=
  match ctx.tcpAcceptedSession with
  | none => false
  | some session => e.role = .receiver &&
      (pkt.sessionId != session.id || e.plat.timespecCmp pkt.sessionTs session.ts != 0)

def handlePing (e : Env) (ctx : TcpCtx) (pkt : Packet) (path : Path) : TcpCtx :=
  let slot := ctx.toSlot.tickOnce.setPathPingState path PING_STATE_NORMAL
  let slot := if MAX_PATH ≤ pkt.payload.length then slot.applyRemotePathPingState pkt.payload
    else slot
  { ctx with
    toSlot := slot.syncPathState e
    tcpLastPingRecvMs := Function.update ctx.tcpLastPingRecvMs path (e.plat.clockMs ctx.tick) }

-- The drain loop is that of slot_drain_recv_window, since no PING is in the window.
def acceptData (e : Env) (slot : Slot) (pkt : Packet) : Slot :=
  let (slot, adopted) := slot.sessionAdopt e pkt
  if !adopted then slot
  else
    let (slot, pushed) := slot.pushRecvWindow pkt
    if !pushed then slot else (slot.slotDrainRecvWindow e).1

-- tcp_handle_packet after authentication. A FIN_ACK only concerns a close that waits for it.
def tcpHandlePacket (e : Env) (ctx : TcpCtx) (pkt : Packet) (path : Path) : TcpCtx :=
  if ctx.refuses e pkt then ctx
  else if pkt.has FLAG_FIN_ACK then ctx
  else if pkt.has FLAG_FIN then { ctx with toSlot := ctx.toSlot.dispatchFin e pkt }
  else if pkt.has FLAG_PING then ctx.handlePing e pkt path
  else if pkt.has FLAG_DATA then { ctx with toSlot := acceptData e ctx.toSlot pkt }
  else ctx

-- The check of tcp_recv_thread_func when nothing arrives. The thread ends on a timeout.
def checkPingTimeout (e : Env) (ctx : TcpCtx) (path : Path) : TcpCtx :=
  if e.healthIntervalMs = 0 ∨ e.healthTimeoutMs = 0 then ctx
  else
    let last := ctx.tcpLastPingRecvMs path
    let elapsed := (e.plat.clockMs ctx.tick + 2 ^ 64 - last) % 2 ^ 64
    let slot := ctx.toSlot.tickOnce
    if 0 < last ∧ e.healthTimeoutMs < elapsed then
      { ctx with
        toSlot := (slot.setPathPingState path PING_STATE_ABNORMAL).syncPathState e
        running := Function.update ctx.running path false }
    else { ctx with toSlot := slot }

-- potr_connect_thread.c

def closeTcpConn (ctx : TcpCtx) (path : Path) : TcpCtx :=
  { ctx with tcpConnFd := Function.update ctx.tcpConnFd path false }

def resetConnectionState (ctx : TcpCtx) : TcpCtx :=
  { ctx with
    peerSessionKnown := false
    fragBuf := []
    fragCompressed := false
    pendingFin := false }

-- The send window starts over, but the own session stays.
def resetAllPathsDisconnected (ctx : TcpCtx) : TcpCtx :=
  if ctx.tcpActivePaths ≠ 0 then ctx
  else
    { ctx.resetConnectionState with
      sendWindow := { ctx.sendWindow with
        slots := fun _ => none, nextSeq := 0, baseSeq := 0, baseIndex := 0 }
      sendHasData := false
      remotePathPingState := fun _ => PING_STATE_UNDEFINED
      pathLogicalAlive := fun _ => false
      healthAlive := false
      tcpAcceptedSession := none }

-- Both loops publish a new connection in this way.
def publish (e : Env) (ctx : TcpCtx) (path : Path) : TcpCtx :=
  { ctx with
    tcpActivePaths := ctx.tcpActivePaths + 1
    tcpConnFd := Function.update ctx.tcpConnFd path true
    tcpLastPingRecvMs := Function.update ctx.tcpLastPingRecvMs path (e.plat.clockMs ctx.tick)
    tick := ctx.tick + 1 }

-- sender_connect_loop once connect has succeeded
def senderConnect (e : Env) (ctx : TcpCtx) (path : Path) : TcpCtx :=
  let ctx := if ctx.tcpActivePaths = 0 then ctx.resetConnectionState else ctx
  ctx.publish e path

inductive SessionResult where
  | new
  | same
  | old
  deriving DecidableEq, Repr

-- thread_connect_session_compare
def sessionCompare (e : Env) (ctx : TcpCtx) (pkt : Packet) : SessionResult :=
  match ctx.tcpAcceptedSession with
  | none => .new
  | some session =>
      let tsCmp := e.plat.timespecCmp pkt.sessionTs session.ts
      if 0 < tsCmp then .new
      else if tsCmp < 0 then .old
      else if session.id < pkt.sessionId then .new
      else if pkt.sessionId < session.id then .old
      else .same

-- A new session ends the connections of the other paths.
def closeOthers (e : Env) (ctx : TcpCtx) (path : Path) : TcpCtx :=
  ((Slot.openPaths e).filter fun k => k ≠ path && ctx.tcpConnFd k).foldl
    (fun ctx k => closeTcpConn { ctx with running := Function.update ctx.running k false } k) ctx

-- receiver_accept_loop for a connection whose first packet was authenticated
def receiverAccept (e : Env) (ctx : TcpCtx) (path : Path) (pkt : Packet) : TcpCtx :=
  match ctx.sessionCompare e pkt with
  | .old => ctx
  | .same => ctx.publish e path
  | .new =>
      let ctx := (ctx.closeOthers e path).resetConnectionState
      publish e { ctx with tcpAcceptedSession := some pkt.session } path

-- The critical sections of the threads of a TCP service, each of which is one step. The bodies
-- of tcp_handle_packet and of the two loops run under tcp_recv_mutex.
inductive Input where
  | packet (path : Path) (pkt : Packet)
  | pollTimeout (path : Path)
  | connect (path : Path)
  | accept (path : Path) (pkt : Packet)
  -- start_connected_threads up to the start of the receive thread
  | start (path : Path)
  -- the receive thread ends
  | exit (path : Path)
  | close (path : Path)
  -- what follows once the receive thread of a path is joined
  | leave (path : Path)
  | release
  | resetAll

def step (e : Env) (ctx : TcpCtx) : Input → TcpCtx
  | .packet path pkt =>
      if ctx.running path then
        tcpHandlePacket e { ctx with toSlot := ctx.toSlot.emit (.recv pkt) } pkt path
      else ctx
  | .pollTimeout path =>
      if ctx.running path then
        checkPingTimeout e { ctx with toSlot := ctx.toSlot.emit .poll } path
      else ctx
  | .connect path => if e.role = .sender then ctx.senderConnect e path else ctx
  | .accept path pkt => if e.role = .receiver then ctx.receiverAccept e path pkt else ctx
  | .start path =>
      { ctx with
        toSlot := ctx.toSlot.setPathPingState path PING_STATE_UNDEFINED
        running := Function.update ctx.running path true }
  | .exit path => { ctx with running := Function.update ctx.running path false }
  | .close path => ctx.closeTcpConn path
  | .leave path =>
      { ctx with
        toSlot := (ctx.toSlot.setPathPingState path PING_STATE_UNDEFINED).syncPathState e }
  | .release => { ctx with tcpActivePaths := ctx.tcpActivePaths - 1 }
  | .resetAll => ctx.resetAllPathsDisconnected

def run (e : Env) (ctx : TcpCtx) (inputs : List Input) : TcpCtx := inputs.foldl (step e) ctx

end TcpCtx

end Porter
