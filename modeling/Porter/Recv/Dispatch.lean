import Porter.Recv.Window

namespace Porter.Slot

-- thread_recv_dispatch.c

def applyRemotePathPingState (slot : Slot) (src : Bytes) : Slot :=
  { slot with
    remotePathPingState := fun k =>
      let state := src.getD k.val PING_STATE_UNDEFINED
      if state ≠ PING_STATE_UNDEFINED then state else slot.remotePathPingState k }

def dispatchFin (e : Env) (slot : Slot) (pkt : Packet) : Slot :=
  let (slot, adopted) := if slot.peer.isNone then slot.sessionAdopt e pkt else (slot, true)
  if !adopted then slot
  else
    let (slot, action) := slot.finOnPacket pkt
    if action = .fire then slot.finFire e pkt.ackNum else slot

def dispatchPing (e : Env) (slot : Slot) (pkt : Packet) (path : Path) : Slot :=
  let slot := slot.updatePathHealth e path
  let slot := if MAX_PATH ≤ pkt.payload.length then slot.applyRemotePathPingState pkt.payload
    else slot
  if e.type.isRawType then (slot.scanPingGap e pkt).syncPathState e
  else (slot.syncPathState e).scanPingGap e pkt

-- The slot with the path and the payload of a PING noted.
def pinged (e : Env) (slot : Slot) (pkt : Packet) (path : Path) : Slot :=
  if MAX_PATH ≤ pkt.payload.length then
    (slot.updatePathHealth e path).applyRemotePathPingState pkt.payload
  else slot.updatePathHealth e path

theorem dispatchPing_eq (e : Env) (slot : Slot) (pkt : Packet) (path : Path) :
    slot.dispatchPing e pkt path =
      if e.type.isRawType = true then ((slot.pinged e pkt path).scanPingGap e pkt).syncPathState e
      else ((slot.pinged e pkt path).syncPathState e).scanPingGap e pkt := (rfl)

def dispatchPacket (e : Env) (slot : Slot) (pkt : Packet) (path : Path) (sender : Endpoint) :
    Slot :=
  if pkt.has FLAG_FIN then slot.dispatchFin e pkt
  else if pkt.has FLAG_NACK then if slot.peer.isSome then slot.onNack e pkt else slot
  else if pkt.has FLAG_REJECT then slot.onReject e pkt path sender
  else if !pkt.has (FLAG_DATA ||| FLAG_PING) then slot
  else
    let (slot, adopted) := slot.sessionAdopt e pkt
    if !adopted then slot
    else
      let slot := slot.learnSenderPath e path sender
      if pkt.has FLAG_PING then slot.dispatchPing e pkt path
      else slot.acceptOuter e pkt path

-- thread_recv_health.c

def pathTimedOut (e : Env) (nowTs lastTs : Timespec) : Bool :=
  lastTs.tvSec ≠ 0 && (e.healthTimeoutMs : Int) ≤ e.plat.timespecDiffMs nowTs lastTs

-- What the per-path loop of a 1:1 service does to a path that timed out.
def servicePathTimeout (e : Env) (slot : Slot) (i : Path) : Slot :=
  let dest := slot.destAddr i
  let dest := if e.type = .unicastBidir && !e.srcAddrGiven then { dest with address := 0 } else dest
  let dest := if e.type = .unicastBidir && e.srcPort = 0 then { dest with port := 0 } else dest
  { slot.setPathPingState i PING_STATE_ABNORMAL with
    peerPort := Function.update slot.peerPort i 0
    pathLastRecvTs := Function.update slot.pathLastRecvTs i
      { slot.pathLastRecvTs i with tvSec := 0 }
    destAddr := Function.update slot.destAddr i dest }

-- One round of that loop; the flag collects whether a path_ping_state changed.
def servicePathLoop (e : Env) (nowTs : Timespec) (acc : Slot × Bool) (i : Path) : Slot × Bool :=
  if pathTimedOut e nowTs (acc.1.pathLastRecvTs i) then
    (acc.1.servicePathTimeout e i, acc.2 || acc.1.pathPingState i != PING_STATE_ABNORMAL)
  else acc

-- The session reset at the end of thread_recv_health_check_service.
def serviceTimeout (e : Env) (slot : Slot) : Slot :=
  let slot := { slot with pendingFin := false, finTargetSeq := 0, reorderPending := false }
  (slot.clearPathPingStates.disconnectAllPaths e).forgetSession e

def healthCheckService (e : Env) (slot : Slot) : Slot :=
  if e.healthTimeoutMs = 0 then slot
  else
    let nowTs := slot.now e
    let (slot, changed) := (openPaths e).foldl (servicePathLoop e nowTs) (slot.tickOnce, false)
    let slot := if changed then slot.syncPathState e else slot
    if slot.healthAlive = false || slot.lastRecvTs.tvSec = 0 then slot
    else if (e.healthTimeoutMs : Int) ≤ e.plat.timespecDiffMs nowTs slot.lastRecvTs then
      slot.serviceTimeout e
    else slot

-- potr_internal_peer_path_clear for a used path
def peerPathClear (slot : Slot) (i : Path) : Slot :=
  { slot with
    destAddr := Function.update slot.destAddr i Endpoint.clear
    pathLastRecvTs := Function.update slot.pathLastRecvTs i ⟨0, 0⟩
    nPaths := slot.nPaths - 1 }

def peerPathLoop (e : Env) (nowTs : Timespec) (acc : Slot × Bool) (k : Path) : Slot × Bool :=
  if !(acc.1.destAddr k).isUnset && pathTimedOut e nowTs (acc.1.pathLastRecvTs k) then
    ((acc.1.setPathPingState k PING_STATE_ABNORMAL).peerPathClear k,
      acc.2 || acc.1.pathPingState k != PING_STATE_ABNORMAL)
  else acc

-- The body of the peer loop of thread_recv_health_check_peers.
def healthCheckPeer (e : Env) (nowTs : Timespec) (slot : Slot) : Slot :=
  if slot.active = false || slot.healthAlive = false then slot
  else
    let (slot, changed) := paths.foldl (peerPathLoop e nowTs) (slot, false)
    let slot := if changed then slot.syncPathState e else slot
    if slot.lastRecvTs.tvSec = 0 then slot
    else if (e.healthTimeoutMs : Int) ≤ e.plat.timespecDiffMs nowTs slot.lastRecvTs then
      peerFree (disconnectAllPaths e
        { slot with remotePathPingState := fun _ => PING_STATE_UNDEFINED })
    else slot

-- potr_recv_thread.c, 1:1 services

inductive Input where
  | packet (path : Path) (sender : Endpoint) (pkt : Packet)
  | pollTimeout

-- sender_handle_packet; the flag says whether the packet goes on to dispatch.
def senderHandlePacket (e : Env) (slot : Slot) (pkt : Packet) : Slot × Bool :=
  if e.type.isRawType then (slot, false)
  else (slot.onNack e pkt, e.type = .unicastBidir)

def onPollTimeout (e : Env) (slot : Slot) : Slot :=
  let slot := slot.emit .poll
  if e.role = .receiver ∨ e.type = .unicastBidir then
    let slot := slot.healthCheckService e
    if 0 < e.reorderTimeoutMs then slot.checkReorderTimeout e else slot
  else slot

-- One round of recv_thread_func for an authenticated packet or a poll timeout. The loop only
-- reads the sockets below n_path.
def step (e : Env) (slot : Slot) : Input → Slot
  | .packet path sender pkt =>
      if e.nPath ≤ path.val then slot
      else
        let slot := slot.emit (.recv pkt)
        if e.role = .sender then
          let (slot, goOn) := slot.senderHandlePacket e pkt
          if goOn then slot.dispatchPacket e pkt path sender else slot
        else slot.dispatchPacket e pkt path sender
  | .pollTimeout => slot.onPollTimeout e

def run (e : Env) (slot : Slot) (inputs : List Input) : Slot := inputs.foldl (step e) slot

-- api_open_paths.c

-- api_setup_dest_addr on the cleared destinations of a new context, with the parsed group and
-- broadcast addresses. `none` is POTR_ERR_INVALID_ARGUMENT.
def setupDestAddr (e : Env) (multicastGroup broadcastAddr : Option UInt32) :
    Option (Path → Endpoint) :=
  let assign (dest : Path → Endpoint) : Path → Endpoint :=
    fun i => if i.val < e.nPath then dest i else Endpoint.clear
  if e.role ≠ .sender ∧ e.type ≠ .unicastBidir then some fun _ => Endpoint.clear
  else
    match e.type.rawBaseType with
    | .unicastBidir | .unicastBidirN1 =>
        some (assign fun i =>
          if e.role = .sender then ⟨e.dstAddrResolved i, hton16 e.dstPort⟩
          else ⟨e.srcAddrResolved i, hton16 e.srcPort⟩)
    | .unicast => some (assign fun i => ⟨e.dstAddrResolved i, hton16 e.dstPort⟩)
    | .multicast => multicastGroup.map fun mcastIp => assign fun _ => ⟨mcastIp, hton16 e.dstPort⟩
    | .broadcast => broadcastAddr.map fun bcastIp => assign fun _ => ⟨bcastIp, hton16 e.dstPort⟩
    | _ => some fun _ => Endpoint.clear

-- api_open_paths_unicast_bidir asks for a dst_port before api_setup_dest_addr is called.
def openDestAddr (e : Env) (multicastGroup broadcastAddr : Option UInt32) :
    Option (Path → Endpoint) :=
  if e.type = .unicastBidir ∧ e.dstPort = 0 then none
  else setupDestAddr e multicastGroup broadcastAddr

-- The state potr_service_open leaves: cleared, with the own session and the destinations
-- that api_setup_dest_addr resolved.
def opened (e : Env) (sessionId : UInt32) (sessionTs : Timespec) (destAddr : Path → Endpoint) :
    Slot :=
  { PeerContext.empty e.windowSize with
    sessionId := sessionId
    sessionTs := sessionTs
    destAddr := destAddr
    tick := 0
    nPeers := 0
    log := [] }

end Porter.Slot
