import Porter.Recv.Session

namespace Porter.Slot

-- slot_send_wire_to_dests and slot_send_ctrl. The entries of the log hold the packet before
-- build_ctrl_pkt_wire turns it into bytes.
def sendToDests (e : Env) (slot : Slot) (pkt : Packet) : Slot :=
  if slot.peer.isSome then
    slot.emits ((paths.filter fun i => !(slot.destAddr i).isUnset).map
      fun i => .send i (slot.destAddr i) pkt)
  else slot.emits ((openPaths e).map fun i => .send i (slot.destAddr i) pkt)

-- Where a one-way receiver sends its NACKs on a path.
def nackDest (e : Env) (slot : Slot) (i : Path) : Endpoint where
  address := e.srcAddrResolved i
  port := if e.srcPort ≠ 0 then hton16 e.srcPort else slot.peerPort i

def slotSendNack (e : Env) (slot : Slot) (nackSeq : UInt32) : Slot :=
  let nackPkt := Packet.buildNack (slot.ownSessionHdr e) nackSeq
  let slot := slot.emit (.nack nackSeq slot.recvWindow)
  if slot.peer.isSome || e.type = .unicastBidir then slot.sendToDests e nackPkt
  else slot.emits (((openPaths e).filter fun i => (slot.nackDest e i).port != 0).map
    fun i => .send i (slot.nackDest e i) nackPkt)

def slotSendReject (e : Env) (slot : Slot) (seqNum : UInt32) : Slot :=
  slot.sendToDests e (Packet.buildReject (slot.ownSessionHdr e) seqNum)

-- The wait before a gap is acted on. MULTICAST and BROADCAST spread it over [ms, 2 * ms).
def effectiveMs (e : Env) (nowTs : Timespec) : Nat :=
  let ms := e.reorderTimeoutMs
  if e.type = .multicast ∨ e.type = .broadcast then
    (ms + nowTs.tvNsec.toUInt64.toNat % ms) % 4294967296
  else ms

def reorderGapReady (e : Env) (slot : Slot) (nackNum : UInt32) : Slot × Bool :=
  if e.reorderTimeoutMs = 0 then (slot, true)
  else
    let nowTs := slot.now e
    if !slot.reorderPending || slot.reorderNackNum != nackNum then
      ({ slot.tickOnce with
          reorderPending := true
          reorderNackNum := nackNum
          reorderDeadlineTs := e.plat.timespecAddMs nowTs (effectiveMs e nowTs) }, false)
    else if 0 ≤ e.plat.timespecCmp nowTs slot.reorderDeadlineTs then
      ({ slot.tickOnce with reorderPending := false }, true)
    else (slot.tickOnce, false)

-- N:1 peers have no reorder wait.
def slotGapReady (e : Env) (slot : Slot) (nackNum : UInt32) : Slot × Bool :=
  if slot.peer.isSome then (slot, true) else reorderGapReady e slot nackNum

def rawSessionDisconnect (e : Env) (slot : Slot) : Slot :=
  { slot.clearPathPingStates.disconnectAllPaths e with
    pendingFin := false
    finTargetSeq := 0
    fragBuf := []
    fragCompressed := false }

-- potr_internal_window_recv_reset
def resetRecvWindow (slot : Slot) (seq : UInt32) : Slot :=
  emit { slot with recvWindow := slot.recvWindow.recvReset seq } (.reset seq)

def pushed (slot : Slot) (pkt : Packet) (win : Window) : Slot :=
  emit { slot with recvWindow := win } (.push pkt)

-- potr_internal_window_recv_push, with whether it returned POTR_OK
def pushRecvWindow (slot : Slot) (pkt : Packet) : Slot × Bool :=
  match slot.recvWindow.recvPush pkt with
  | some win => (slot.pushed pkt win, true)
  | none => (slot, false)

-- potr_internal_window_recv_skip
def skipRecvWindow (slot : Slot) (seq : UInt32) : Slot :=
  if slot.recvWindow.nextSeq = seq then
    emit { slot with recvWindow := slot.recvWindow.recvSkip seq } (.skip seq)
  else slot

-- The body of the drain loop for one popped packet.
def deliverPacket (e : Env) (slot : Slot) (pkt : Packet) : Slot :=
  if pkt.has FLAG_PING then slot
  else (Packet.unpackAll pkt.payload).foldl (deliverPayloadElem e) slot

-- The drain loop. A window of n slots is empty after n pops.
def drainLoop (e : Env) : Nat → Slot → Slot
  | 0, slot => slot
  | fuel + 1, slot =>
      match slot.recvWindow.recvPop with
      | none => slot
      | some (pkt, win) =>
          drainLoop e fuel (deliverPacket e
            (emit { slot with recvWindow := win } (.pop pkt slot.healthAlive)) pkt)

-- `false` when a pending FIN released the peer.
def slotDrainRecvWindow (e : Env) (slot : Slot) : Slot × Bool :=
  let slot := drainLoop e slot.recvWindow.windowSize slot
  if slot.finPendingReached then (slot.finFire e slot.finTargetSeq, !slot.peer.isSome)
  else (slot, true)

def dedupEntryMatches (entry : NackDedupEntry) (ackNum : UInt32) (nowMs : Nat) : Bool :=
  entry.timeMs != 0 && entry.ackNum = ackNum &&
    (nowMs + 2 ^ 64 - entry.timeMs) % 2 ^ 64 < NACK_DEDUP_MS

def nackIsDuplicate (e : Env) (slot : Slot) (ackNum : UInt32) : Slot × Bool :=
  let nowMs := e.plat.clockMs slot.tick
  let slot := slot.tickOnce
  if (List.range NACK_DEDUP_SLOTS).any fun i =>
      dedupEntryMatches (slot.nackDedupBuf i) ackNum nowMs then (slot, true)
  else
    ({ slot with
        nackDedupBuf := Function.update slot.nackDedupBuf slot.nackDedupNext ⟨ackNum, nowMs⟩
        nackDedupNext := (slot.nackDedupNext + 1) % NACK_DEDUP_SLOTS }, false)

def slotRetransmitOrReject (e : Env) (slot : Slot) (ackNum : UInt32) : Slot :=
  match slot.sendWindow.sendGet ackNum with
  | some resendPkt => slot.sendToDests e resendPkt
  | none => slot.slotSendReject e ackNum

-- The reaction of a retransmitting receiver to the gap check, before and after the drain.
def nackGap (e : Env) (slot : Slot) (nackNum : UInt32) : Slot :=
  let (slot, ready) := slot.slotGapReady e nackNum
  if ready then slot.slotSendNack e nackNum else slot

def rawResync (e : Env) (slot : Slot) (pkt : Packet) : Slot × Bool :=
  ((slot.rawSessionDisconnect e).resetRecvWindow pkt.seqNum).pushRecvWindow pkt

-- The first part of thread_recv_window_accept_outer: the packet enters the window. `false`
-- when the function returns here.
def acceptPush (e : Env) (slot : Slot) (pkt : Packet) : Slot × Bool :=
  let (pushed, ok) := slot.pushRecvWindow pkt
  if ok then (pushed, true)
  else if e.type.isRawType then slot.rawResync e pkt
  else (slot, false)

-- The second part: the gap check before the drain.
def acceptGap (e : Env) (slot : Slot) (pkt : Packet) : Slot × Bool :=
  match slot.recvWindow.recvNeedsNack with
  | none => ({ slot with reorderPending := false }, true)
  | some nackNum =>
      if e.type.isRawType then
        let (slot, ready) := slot.reorderGapReady e nackNum
        if ready then slot.rawResync e pkt else (slot, true)
      else (slot.nackGap e nackNum, true)

-- One-way types take DATA as a sign of life.
def acceptHealth (e : Env) (slot : Slot) (pkt : Packet) (path : Path) : Slot :=
  if slot.peer.isNone && pkt.has FLAG_DATA && e.type ≠ .unicastBidir then
    (slot.updatePathHealth e path).syncPathState e
  else slot

def acceptPostDrain (e : Env) (slot : Slot) : Slot :=
  match slot.recvWindow.recvNeedsNack with
  | none => { slot with reorderPending := false }
  | some nackNum => if e.type.isRawType then slot else slot.nackGap e nackNum

-- thread_recv_window_accept_outer
def acceptOuter (e : Env) (slot : Slot) (pkt : Packet) (path : Path) : Slot :=
  let (slot, ok) := slot.acceptPush e pkt
  if !ok then slot
  else
    let (slot, ok) := slot.acceptGap e pkt
    if !ok then slot
    else
      let (slot, alive) := (slot.acceptHealth e pkt path).slotDrainRecvWindow e
      if alive then slot.acceptPostDrain e else slot

-- thread_recv_window_on_reject
def onReject (e : Env) (slot : Slot) (pkt : Packet) (path : Path) (sender : Endpoint) : Slot :=
  if e.type.isRawType then slot
  else
    let (slot, adopted) := slot.sessionAdopt e pkt
    if !adopted then slot
    else
      let slot := (slot.learnSenderPath e path sender).clearPathPingStates.disconnectAllPaths e
      let slot := skipRecvWindow { slot with reorderPending := false } pkt.ackNum
      (slot.slotDrainRecvWindow e).1

-- thread_recv_window_on_nack
def onNack (e : Env) (slot : Slot) (pkt : Packet) : Slot :=
  if !pkt.has FLAG_NACK || e.type.isRawType then slot
  else
    let (slot, duplicate) := slot.nackIsDuplicate e pkt.ackNum
    if duplicate then slot else slot.slotRetransmitOrReject e pkt.ackNum

-- The scan of a 1:1 retransmitting receiver from `scanSeq` up to the number of the PING. The
-- loop leaves the window after at most windowSize rounds.
def scanLoop (e : Env) (pkt : Packet) : Nat → Slot → UInt32 → Slot × UInt32
  | 0, slot, scanSeq => (slot, scanSeq)
  | fuel + 1, slot, scanSeq =>
      if scanSeq != pkt.seqNum &&
          seqnumInWindow scanSeq slot.recvWindow.baseSeq slot.recvWindow.windowSize then
        if slot.recvWindow.recvHasPacket scanSeq then scanLoop e pkt fuel slot (scanSeq + 1)
        else
          let (slot, ready) := slot.reorderGapReady e scanSeq
          if ready then scanLoop e pkt fuel (slot.slotSendNack e scanSeq) (scanSeq + 1)
          else (slot, scanSeq)
      else (slot, scanSeq)

-- The guard of the N:1 and RAW branches: the PING is ahead, but not beyond the window.
def pingAhead (slot : Slot) (pkt : Packet) : Bool :=
  pkt.seqNum != slot.recvWindow.nextSeq &&
    seqnumInWindow pkt.seqNum (slot.recvWindow.nextSeq + 1) slot.recvWindow.windowSize

-- thread_recv_window_scan_ping_gap
def scanPingGap (e : Env) (slot : Slot) (pkt : Packet) : Slot :=
  let nextSeq := slot.recvWindow.nextSeq
  if slot.peer.isSome then
    if slot.pingAhead pkt then slot.nackGap e nextSeq else slot
  else if e.type.isRawType then
    if slot.pingAhead pkt then
      let (slot, ready) := slot.reorderGapReady e nextSeq
      if ready then (slot.rawSessionDisconnect e).resetRecvWindow pkt.seqNum else slot
    else { slot with reorderPending := false }
  else
    let (slot, scanSeq) := scanLoop e pkt slot.recvWindow.windowSize slot nextSeq
    if scanSeq = pkt.seqNum then { slot with reorderPending := false } else slot

-- thread_recv_window_check_reorder_timeout
def checkReorderTimeout (e : Env) (slot : Slot) : Slot :=
  if slot.reorderPending = false then slot
  else
    let (slot, ready) := slot.reorderGapReady e slot.reorderNackNum
    if !ready then slot
    else if e.type.isRawType then (slot.rawSessionDisconnect e).forgetSession e
    else slot.slotSendNack e slot.reorderNackNum

end Porter.Slot
