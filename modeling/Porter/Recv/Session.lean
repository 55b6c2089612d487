import Porter.Packet
import Porter.Slot

namespace Porter.Slot

-- potr_path_event.c

def anyPathAlive (states : Path → Bool) : Bool := paths.any states

def pathStateIsNormal (state : UInt8) : Bool := state = PING_STATE_NORMAL

-- The four copy functions: which own and remote PING states make a path connected.
def copyOnewayPathStates (slot : Slot) : Path → Bool :=
  fun k => pathStateIsNormal (slot.pathPingState k)

def copyBidirPathStates (slot : Slot) : Path → Bool :=
  fun k => pathStateIsNormal (slot.pathPingState k) && pathStateIsNormal (slot.remotePathPingState k)

def copyTcpPathStates (slot : Slot) : Path → Bool :=
  fun k => slot.tcpConnFd k && slot.copyBidirPathStates k

-- The path events in ascending path order, then the session event of a change of health_alive.
def preparedPathEvents (slot : Slot) (nextStates : Path → Bool) : List Event :=
  (paths.filter fun k => slot.pathLogicalAlive k != nextStates k).map
    (fun k => if nextStates k then .pathConnected k nextStates else .pathDisconnected k nextStates) ++
  (if slot.healthAlive = anyPathAlive nextStates then []
   else if anyPathAlive nextStates then [.connected] else [.disconnected])

-- potr_internal_sync_*_path_state_locked followed by potr_internal_emit_*_path_events_locked
def syncPathStateLocked (e : Env) (slot : Slot) (nextStates : Path → Bool) : Slot :=
  callbackEmits e
    { slot with pathLogicalAlive := nextStates, healthAlive := anyPathAlive nextStates }
    (slot.preparedPathEvents nextStates)

-- thread_recv_session.c

-- The writes shared by the two adopting branches of thread_recv_session_adopt.
def adoptSession (e : Env) (slot : Slot) (pkt : Packet) : Slot :=
  emit
    { slot with
      peerSessionId := pkt.sessionId
      peerSessionTs := pkt.sessionTs
      peerSessionKnown := true
      reorderPending := false
      pendingFin := false
      finTargetSeq := 0
      recvWindow := Window.init pkt.seqNum e.windowSize }
    (.adopt pkt.session pkt.seqNum)

def sessionAdopt (e : Env) (slot : Slot) (pkt : Packet) : Slot × Bool :=
  if slot.peerSessionKnown = false then (adoptSession e slot pkt, true)
  else
    let tsCmp := e.plat.timespecCmp pkt.sessionTs slot.peerSessionTs
    if 0 < tsCmp then (adoptSession e slot pkt, true)
    else if tsCmp < 0 then (slot, false)
    else if slot.peerSessionId < pkt.sessionId then (adoptSession e slot pkt, true)
    else if pkt.sessionId = slot.peerSessionId then (slot, true)
    else (slot, false)

def setPathPingState (slot : Slot) (path : Path) (nextState : UInt8) : Slot :=
  { slot with pathPingState := Function.update slot.pathPingState path nextState }

-- thread_recv_set_all_path_ping_states with the memset of the remote states that always
-- stands next to it
def clearPathPingStates (slot : Slot) : Slot :=
  { slot with
    pathPingState := fun _ => PING_STATE_UNDEFINED
    remotePathPingState := fun _ => PING_STATE_UNDEFINED }

-- thread_recv_disconnect_service_all_paths and thread_recv_disconnect_peer_all_paths
def disconnectAllPaths (e : Env) (slot : Slot) : Slot := syncPathStateLocked e slot fun _ => false

def updatePathHealth (e : Env) (slot : Slot) (path : Path) : Slot :=
  let nowTs := slot.now e
  setPathPingState
    { slot.tickOnce with
      lastRecvTs := nowTs
      pathLastRecvTs := Function.update slot.pathLastRecvTs path nowTs }
    path PING_STATE_NORMAL

def nextPathStates (e : Env) (slot : Slot) : Path → Bool :=
  if slot.peer.isSome then slot.copyBidirPathStates
  else if e.type.isTcpType then slot.copyTcpPathStates
  else if e.type = .unicastBidir then slot.copyBidirPathStates
  else slot.copyOnewayPathStates

def syncPathState (e : Env) (slot : Slot) : Slot :=
  syncPathStateLocked e slot (slot.nextPathStates e)

def learnSenderPath (e : Env) (slot : Slot) (path : Path) (sender : Endpoint) : Slot :=
  let dest := slot.destAddr path
  if slot.peer.isSome then
    if !dest.isUnset then
      { slot with destAddr := Function.update slot.destAddr path { dest with port := sender.port } }
    else
      { slot with
        destAddr := Function.update slot.destAddr path sender
        nPaths := slot.nPaths + 1 }
  else
    let slot := { slot with peerPort := Function.update slot.peerPort path sender.port }
    if e.type = .unicastBidir then
      let dest := if !e.srcAddrGiven && dest.address = 0 then { dest with address := sender.address }
        else dest
      let dest := if dest.port = 0 then { dest with port := sender.port } else dest
      { slot with destAddr := Function.update slot.destAddr path dest }
    else slot

-- thread_recv_fin.c

inductive FinAction where
  | ignored
  | pending
  | fire
  deriving DecidableEq, Repr

def finOnPacket (slot : Slot) (pkt : Packet) : Slot × FinAction :=
  if !pkt.has FLAG_FIN then (slot, .ignored)
  else if pkt.has FLAG_FIN_TARGET_VALID && slot.recvWindow.nextSeq != pkt.ackNum then
    ({ slot with pendingFin := true, finTargetSeq := pkt.ackNum }, .pending)
  else (slot, .fire)

def finPendingReached (slot : Slot) : Bool :=
  slot.pendingFin && slot.recvWindow.nextSeq = slot.finTargetSeq

-- fill_own_session_hdr
def ownSessionHdr (e : Env) (slot : Slot) : PacketSessionHdr where
  serviceId := e.serviceId
  sessionId := slot.sessionId
  sessionTvSec := slot.sessionTs.tvSec
  sessionTvNsec := slot.sessionTs.tvNsec.toInt32

-- potr_internal_peer_free. The disposed windows are not read before the slot is reused.
def peerFree (slot : Slot) : Slot :=
  if slot.active then { slot with active := false, nPeers := slot.nPeers - 1 } else slot

-- The session reset shared by FIN and the health and reorder timeouts.
def forgetSession (e : Env) (slot : Slot) : Slot :=
  emit
    { slot with
      peerSessionKnown := false
      lastRecvTs := { slot.lastRecvTs with tvSec := 0 }
      recvWindow := Window.init 0 e.windowSize }
    .forget

def finFire (e : Env) (slot : Slot) (finTargetSeq : UInt32) : Slot :=
  if slot.peer.isSome then
    let slot := slot.disconnectAllPaths e
    peerFree { slot with pendingFin := false, finTargetSeq := 0 }
  else
    let slot :=
      if e.type.isTcpType then
        slot.emit (.sendTcp (Packet.buildFinAck (slot.ownSessionHdr e) finTargetSeq))
      else slot
    let slot := slot.clearPathPingStates.disconnectAllPaths e
    forgetSession e
      { slot with pendingFin := false, finTargetSeq := 0, reorderPending := false }

end Porter.Slot
