import Porter.Recv.Tcp
import Porter.Seal

namespace Porter

-- potr_connect_thread.c and potr_connected_threads.c

-- Where the connect or accept thread of a path stands in its loop.
inductive ConnPhase where
  | waiting
  -- the connection is registered
  | published
  -- the receive thread is started
  | starting
  -- start_connected_threads has succeeded, and join_recv_thread waits
  | serving
  -- start_connected_threads rolls back after the start of the receive thread
  | aborting
  -- start_connected_threads has failed
  | failed
  -- the receive thread of an established connection is joined
  | joined
  -- the path is reported as disconnected
  | left
  -- tcp_active_paths is decremented: whether to 0, and whether after a failed start
  | released (last failed : Bool)
  deriving DecidableEq, Repr

-- Whether tcp_active_paths counts the path.
def ConnPhase.counted : ConnPhase → Bool
  | waiting | released .. => false
  | published | starting | serving | aborting | failed | joined | left => true

-- A TCP service with the threads of its paths.
structure TcpService extends TcpCtx where
  phase : Path → ConnPhase
  -- whether the receive thread of a path runs
  thread : Path → Bool

namespace TcpService

def opened (e : Env) (sessionId : UInt32) (sessionTs : Timespec) (destAddr : Path → Endpoint) :
    TcpService where
  toTcpCtx := TcpCtx.opened e sessionId sessionTs destAddr
  phase := fun _ => .waiting
  thread := fun _ => false

-- How start_connected_threads gets on up to the start of the receive thread.
inductive Start where
  | sendFailed
  | recvFailed
  | started
  deriving DecidableEq, Repr

-- The critical sections of the threads. Those of one path are ordered by its phase.
inductive Input where
  | connect (path : Path)
  | accept (path : Path) (pkt : Packet)
  | start (path : Path) (outcome : Start)
  -- the bootstrap PING and the start of the health thread
  | boot (path : Path) (ok : Bool)
  | join (path : Path)
  | leave (path : Path)
  | release (path : Path)
  | finish (path : Path)
  | packet (path : Path) (pkt : Packet)
  | pollTimeout (path : Path)
  | exit (path : Path)
  -- potr_close_service closes the connections under the threads
  | close (path : Path)
  -- tcp_send_ping_packet, which has read the number before
  | health (path : Path) (seqNum : UInt32)

-- The path on which a new connection is registered.
def registers (e : Env) (s : TcpService) : Input → Option Path
  | .connect path =>
      if e.role = .sender ∧ path.val < e.nPath ∧ s.phase path = .waiting then some path else none
  | .accept path pkt =>
      if e.role = .receiver ∧ path.val < e.nPath ∧ s.phase path = .waiting ∧
        s.sessionCompare e pkt ≠ .old then some path else none
  | _ => none

def enter (s : TcpService) (path : Path) (phase : ConnPhase) (ctx : TcpCtx) : TcpService :=
  { s with toTcpCtx := ctx, phase := Function.update s.phase path phase }

-- The connection is registered, and start_connected_threads follows.
def register (e : Env) (s : TcpService) (input : Input) (ctx : TcpCtx) : TcpService :=
  match s.registers e input with
  | some path => s.enter path .published ctx
  | none => s

def startThreads (e : Env) (s : TcpService) (path : Path) : Start → TcpService
  | .sendFailed =>
      if path = 0 ∧ (e.role = .sender ∨ e.type = .tcpBidir) then s.enter path .failed s.toTcpCtx
      else s
  | .recvFailed =>
      s.enter path .failed (((s.toTcpCtx.step e (.start path)).step e (.exit path)).step e (.close path))
  | .started =>
      { s.enter path .starting (s.toTcpCtx.step e (.start path)) with
        thread := Function.update s.thread path true }

def step (e : Env) (s : TcpService) : Input → TcpService
  | .connect path => s.register e (.connect path) (s.toTcpCtx.step e (.connect path))
  | .accept path pkt => s.register e (.accept path pkt) (s.toTcpCtx.step e (.accept path pkt))
  | .start path outcome => if s.phase path = .published then s.startThreads e path outcome else s
  | .boot path ok =>
      if s.phase path ≠ .starting then s
      else if ok then s.enter path .serving s.toTcpCtx
      else s.enter path .aborting ((s.toTcpCtx.step e (.exit path)).step e (.close path))
  | .join path =>
      if s.thread path then s
      else match s.phase path with
        | .serving => s.enter path .joined (s.toTcpCtx.step e (.close path))
        | .aborting => s.enter path .failed s.toTcpCtx
        | _ => s
  | .leave path =>
      if s.phase path = .joined then s.enter path .left (s.toTcpCtx.step e (.leave path)) else s
  | .release path =>
      match s.phase path with
      | .left => s.enter path (.released (s.tcpActivePaths = 1) false) (s.toTcpCtx.step e .release)
      | .failed => s.enter path (.released (s.tcpActivePaths = 1) true) (s.toTcpCtx.step e .release)
      | _ => s
  | .finish path =>
      match s.phase path with
      | .released last failed =>
          let ctx := if last then s.toTcpCtx.step e .resetAll else s.toTcpCtx
          s.enter path .waiting
            (if failed ∧ e.role = .receiver then ctx.step e (.close path) else ctx)
      | _ => s
  | .packet path pkt =>
      if s.thread path then { s with toTcpCtx := s.toTcpCtx.step e (.packet path pkt) } else s
  -- The thread has read `running` before it takes the lock.
  | .pollTimeout path =>
      if s.thread path then
        { s with
          toTcpCtx := TcpCtx.checkPingTimeout e { s with toSlot := s.toSlot.emit .poll } path }
      else s
  | .exit path =>
      if s.thread path then
        { s with
          toTcpCtx := s.toTcpCtx.step e (.exit path)
          thread := Function.update s.thread path false }
      else s
  | .close path => { s with toTcpCtx := s.toTcpCtx.step e (.close path) }
  | .health path seqNum =>
      if s.tcpConnFd path then
        let states := List.ofFn s.pathPingState
        match (Packet.buildPing (s.ownSessionHdr e) seqNum states).sealData e with
        | some ping => { s with toSlot := s.toSlot.emit (.sendTcp ping) }
        | none => s
      else s

def run (e : Env) (s : TcpService) (inputs : List Input) : TcpService := inputs.foldl (step e) s

section

variable {e : Env} {s : TcpService} {path k : Path} {pkt : Packet}

theorem registers_connect (h : s.registers e (.connect path) = some k) :
    k = path ∧ s.phase k = .waiting ∧
      s.toTcpCtx.step e (.connect path) = s.toTcpCtx.senderConnect e k := by
  simp only [registers] at h
  split at h
  · rename_i hguard
    cases h
    exact ⟨rfl, hguard.2.2, if_pos hguard.1⟩
  · cases h

theorem registers_accept (h : s.registers e (.accept path pkt) = some k) :
    k = path ∧ s.phase k = .waiting ∧ s.sessionCompare e pkt ≠ .old ∧
      s.toTcpCtx.step e (.accept path pkt) = s.toTcpCtx.receiverAccept e k pkt := by
  simp only [registers] at h
  split at h
  · rename_i hguard
    cases h
    exact ⟨rfl, hguard.2.2.1, hguard.2.2.2, if_pos hguard.1⟩
  · cases h

end

end TcpService

end Porter
