import Porter.Moves.Tcp
import Porter.Packet.Lemmas
import Porter.Recv.Frame

namespace Porter

namespace Slot

-- The log grows by entries of the slot, and a path is told to be connected only where `up` holds.
def Announces (up : Path → Prop) (slot slot' : Slot) : Prop :=
  ∃ acts, slot'.log = (slot.emits acts).log ∧
    ∀ k states, Act.event (.pathConnected k states) ∈ acts → up k

-- What reception does to the paths of a TCP service besides PINGs: nothing, unless a FIN
-- disconnects them all.
structure Aside (e : Env) (slot slot' : Slot) : Prop where
  turns : Turns e slot slot'
  announces : slot.Announces (fun _ => False) slot'
  fd : slot'.tcpConnFd = slot.tcpConnFd
  paths : slot'.pathPingState = slot.pathPingState ∧
      slot'.remotePathPingState = slot.remotePathPingState ∧
      slot'.pathLogicalAlive = slot.pathLogicalAlive ∨
    (slot'.pathPingState = fun _ => PING_STATE_UNDEFINED) ∧
      (slot'.remotePathPingState = fun _ => PING_STATE_UNDEFINED) ∧
      slot'.pathLogicalAlive = fun _ => false

-- A sync of the paths after their states became `ping` and `remote`.
structure Resync (e : Env) (slot slot' : Slot) (ping remote : Path → UInt8) : Prop where
  turns : Turns e slot slot'
  announces : slot.Announces (fun k => slot'.pathLogicalAlive k = true) slot'
  fd : slot'.tcpConnFd = slot.tcpConnFd
  own : slot'.pathPingState = ping
  other : slot'.remotePathPingState = remote
  states : ∀ k, slot'.pathLogicalAlive k = true →
    slot'.tcpConnFd k = true ∧ ping k = PING_STATE_NORMAL ∧ remote k = PING_STATE_NORMAL

section

variable {e : Env} {slot slot' slot'' : Slot} {up : Path → Prop} {pkt : Packet}

theorem Silent.announces (h : slot.Silent slot') : slot.Announces up slot' := by
  obtain ⟨acts, hlog, hacts⟩ := h
  exact ⟨acts, hlog, fun k states hmem => absurd (hacts _ hmem) (by simp [Act.isEvent])⟩

theorem Announces.trans (hpeer : slot'.peer = slot.peer) (h : slot.Announces up slot')
    (h' : slot'.Announces up slot'') : slot.Announces up slot'' := by
  obtain ⟨acts, hlog, hacts⟩ := h
  obtain ⟨more, hlog', hmore⟩ := h'
  have hid : slot'.peerId = slot.peerId := congrArg (Option.getD · PEER_NA) hpeer
  refine ⟨acts ++ more, ?_, fun k states hmem => ?_⟩
  · simp [hlog', hlog, emits, hid]
  · exact (List.mem_append.mp hmem).elim (hacts k states) (hmore k states)

theorem Announces.mono {up' : Path → Prop} (h : slot.Announces up slot') (hup : ∀ k, up k → up' k) :
    slot.Announces up' slot' := by
  obtain ⟨acts, hlog, hacts⟩ := h
  exact ⟨acts, hlog, fun k states hmem => hup k (hacts k states hmem)⟩

theorem callbackEmits_announces {evs : List Event} (hlog : slot'.log = (slot.callbackEmits e evs).log)
    (hevs : ∀ k states, Event.pathConnected k states ∈ evs → up k) : slot.Announces up slot' := by
  unfold callbackEmits at hlog
  split at hlog
  · refine ⟨evs.map Act.event, hlog, fun k states hmem => ?_⟩
    obtain ⟨ev, hev, heq⟩ := List.mem_map.mp hmem
    cases heq
    exact hevs k states hev
  · exact ⟨[], by rw [hlog]; simp [emits], nofun⟩

theorem preparedPathEvents_connected {next states : Path → Bool} {k : Path}
    (h : Event.pathConnected k states ∈ slot.preparedPathEvents next) : next k = true := by
  rcases List.mem_append.mp h with h | h
  · obtain ⟨i, -, hi⟩ := List.mem_map.mp h
    split at hi
    · rename_i hnext
      cases hi
      exact hnext
    · cases hi
  · split at h
    · cases h
    · split at h <;> cases List.mem_singleton.mp h

theorem syncPathStateLocked_announces (slot : Slot) (next : Path → Bool) :
    slot.Announces (fun k => next k = true) (slot.syncPathStateLocked e next) := by
  have hlog : (slot.syncPathStateLocked e next).log =
      (slot.callbackEmits e (slot.preparedPathEvents next)).log := by
    unfold syncPathStateLocked callbackEmits
    split <;> rfl
  exact callbackEmits_announces hlog fun k states hmem => preparedPathEvents_connected hmem

theorem disconnectAllPaths_announces (slot : Slot) :
    slot.Announces (fun _ => False) (slot.disconnectAllPaths e) :=
  (syncPathStateLocked_announces slot fun _ => false).mono fun _ h => by cases h

theorem Beside.aside (h : slot.Beside slot') : Aside e slot slot' where
  turns := h.turns
  announces := h.silent.announces
  fd := congrArg Links.tcpConnFd h.links
  paths := .inl ⟨congrArg Links.pathPingState h.links, congrArg Links.remotePathPingState h.links,
    congrArg (fun l : Links => l.states) h.links⟩

theorem Aside.trans (h : Aside e slot slot') (h' : Aside e slot' slot'') : Aside e slot slot'' where
  turns := h.turns.trans h'.turns
  announces := h.announces.trans h.turns.peer_eq h'.announces
  fd := h'.fd.trans h.fd
  paths := by
    rcases h'.paths with ⟨hping, hremote, hstates⟩ | hcleared
    · rw [hping, hremote, hstates]
      exact h.paths
    · exact .inr hcleared

theorem drainLoop_aside (fuel : Nat) (slot : Slot) : Aside e slot (slot.drainLoop e fuel) := by
  refine drainLoop_induct fuel (fun s pkt win hs _ => ?_) (Beside.refl slot).aside
  have hpopped : s.Beside (emit { s with recvWindow := win } (.pop pkt s.healthAlive)) :=
    ⟨rfl, [.pop pkt s.healthAlive], rfl, by simp [Act.isEvent]⟩
  generalize emit { s with recvWindow := win } (.pop pkt s.healthAlive) = popped at hpopped ⊢
  refine (hs.trans hpopped.aside).trans ?_
  rcases deliverPacket_cases popped pkt with h | ⟨halive, out, frag, h⟩
  · rw [h]
    exact (Beside.refl popped).aside
  · have hlinks := deliverPacket_links (e := e) popped pkt
    have hlog : (deliverPacket e popped pkt).log =
        (popped.callbackEmits e (out.map Event.data)).log := by
      rw [h]
      rfl
    exact ⟨.single (.deliver _ _ out (congrArg Links.toConn hlinks) halive hlog),
      callbackEmits_announces hlog (fun k states hmem => by simp at hmem),
      congrArg Links.tcpConnFd hlinks,
      .inl ⟨congrArg Links.pathPingState hlinks, congrArg Links.remotePathPingState hlinks,
        congrArg (fun l : Links => l.states) hlinks⟩⟩

theorem nextPathStates_tcp (htcp : e.type.isTcpType = true) (hpeer : slot.peer = none) :
    slot.nextPathStates e = slot.copyTcpPathStates := by
  unfold nextPathStates
  rw [hpeer, htcp]
  rfl

theorem resync_of (htcp : e.type.isTcpType = true) (hpeer : slot.peer = none)
    (hconn : slot'.conn = slot.conn) (hsilent : slot.Silent slot')
    (hfd : slot'.tcpConnFd = slot.tcpConnFd) :
    Resync e slot (slot'.syncPathState e) slot'.pathPingState slot'.remotePathPingState := by
  have hpeer' : slot'.peer = none := (congrArg Conn.peer hconn).trans hpeer
  have hnext := nextPathStates_tcp htcp hpeer'
  have hfields : (slot'.syncPathState e).pathLogicalAlive = slot'.copyTcpPathStates ∧
      (slot'.syncPathState e).tcpConnFd = slot'.tcpConnFd ∧
      (slot'.syncPathState e).pathPingState = slot'.pathPingState ∧
      (slot'.syncPathState e).remotePathPingState = slot'.remotePathPingState := by
    unfold syncPathState syncPathStateLocked callbackEmits
    rw [hnext]
    split <;> exact ⟨rfl, rfl, rfl, rfl⟩
  obtain ⟨hstates, hfd', hping, hremote⟩ := hfields
  refine ⟨.head (.quiet _ _ hconn hsilent) (syncPathState_turns slot' (.inl hpeer')), ?_,
    hfd'.trans hfd, hping, hremote, fun k hk => ?_⟩
  · have hsync : slot'.Announces _ (slot'.syncPathState e) := syncPathStateLocked_announces slot' _
    refine hsilent.announces.trans (congrArg Conn.peer hconn) (hsync.mono fun k hk => ?_)
    rw [hstates, ← hnext]
    exact hk
  · rw [hstates] at hk
    rw [hfd']
    simpa [copyTcpPathStates, copyBidirPathStates, pathStateIsNormal] using hk

theorem disconnectAllPaths_fields (slot : Slot) :
    (slot.disconnectAllPaths e).pathPingState = slot.pathPingState ∧
      (slot.disconnectAllPaths e).remotePathPingState = slot.remotePathPingState ∧
      (slot.disconnectAllPaths e).tcpConnFd = slot.tcpConnFd := by
  unfold disconnectAllPaths syncPathStateLocked callbackEmits
  split <;> exact ⟨rfl, rfl, rfl⟩

theorem finFire_aside (target : UInt32) (hpeer : slot.peer = none) :
    Aside e slot (slot.finFire e target) := by
  have hturns := finFire_turns (e := e) slot target
  unfold finFire at hturns ⊢
  rw [hpeer] at hturns ⊢
  have hack : slot.Beside (if e.type.isTcpType = true then
      slot.emit (.sendTcp (Packet.buildFinAck (slot.ownSessionHdr e) target)) else slot) := by
    split
    · exact emit_beside slot rfl
    · exact .refl slot
  generalize (if e.type.isTcpType = true then
    slot.emit (.sendTcp (Packet.buildFinAck (slot.ownSessionHdr e) target)) else slot) = acked
    at hack hturns ⊢
  obtain ⟨hping, hremote, hfd⟩ := disconnectAllPaths_fields acked.clearPathPingStates
  refine ⟨hturns, ?_, hfd.trans (congrArg Links.tcpConnFd hack.links), .inr ⟨hping, hremote, ?_⟩⟩
  · have hclear : acked.Announces (fun _ => False) acked.clearPathPingStates :=
      (Silent.of_log rfl).announces
    have hdisc := disconnectAllPaths_announces (e := e) acked.clearPathPingStates
    have hpeer' : (acked.clearPathPingStates.disconnectAllPaths e).peer = acked.peer :=
      (disconnectAllPaths_turns acked.clearPathPingStates).peer_eq
    have hlast : (acked.clearPathPingStates.disconnectAllPaths e).Announces (fun _ => False)
        (forgetSession e { acked.clearPathPingStates.disconnectAllPaths e with
          pendingFin := false, finTargetSeq := 0, reorderPending := false }) :=
      ⟨[.forget], rfl, by simp⟩
    exact (hack.silent.announces.trans hack.peer ((hclear.trans rfl hdisc).trans hpeer' hlast))
  · exact disconnectAllPaths_states acked.clearPathPingStates

theorem slotDrainRecvWindow_aside (hpeer : slot.peer = none) :
    Aside e slot (slot.slotDrainRecvWindow e).1 := by
  have hdrain := drainLoop_aside (e := e) slot.recvWindow.windowSize slot
  rw [slotDrainRecvWindow_eq]
  split
  · exact hdrain.trans (finFire_aside _ (hdrain.turns.peer_eq.trans hpeer))
  · exact hdrain

theorem dispatchFin_aside (pkt : Packet) (hpeer : slot.peer = none) :
    Aside e slot (slot.dispatchFin e pkt) := by
  have hadopt := (sessionAdopt_beside (e := e) slot pkt).aside (e := e)
  rw [dispatchFin_eq, hpeer]
  simp only [Option.isNone_none, if_true]
  generalize slot.sessionAdopt e pkt = adopted at hadopt ⊢
  split
  · exact hadopt
  have hfin := hadopt.trans (finOnPacket_beside adopted.1 pkt).aside
  split
  · exact hfin.trans (finFire_aside _ (hfin.turns.peer_eq.trans hpeer))
  · exact hfin

end

end Slot

theorem undefined_ne_normal : PING_STATE_UNDEFINED ≠ PING_STATE_NORMAL := by decide

namespace TcpCtx

section

variable {e : Env} {ctx : TcpCtx} {slot : Slot} {pkt : Packet} {path : Path}

theorem closed_fd {k : Path} (h : (ctx.closeTcpConn path).tcpConnFd k = true) :
    ctx.tcpConnFd k = true := by
  by_cases heq : k = path
  · have hclosed : (ctx.closeTcpConn path).tcpConnFd path = false := Function.update_self ..
    rw [heq, hclosed] at h
    cases h
  · have hsame : (ctx.closeTcpConn path).tcpConnFd k = ctx.tcpConnFd k := Function.update_of_ne heq ..
    rwa [hsame] at h

theorem published_fd {k : Path} (h : (ctx.publish e path).tcpConnFd k = true) :
    ctx.tcpConnFd k = true ∨ k = path := by
  by_cases heq : k = path
  · exact .inr heq
  · have hsame : (ctx.publish e path).tcpConnFd k = ctx.tcpConnFd k := Function.update_of_ne heq ..
    exact .inl (by rwa [hsame] at h)

theorem acceptData_aside (pkt : Packet) (hpeer : slot.peer = none) :
    Slot.Aside e slot (acceptData e slot pkt) := by
  have hadopt := (Slot.sessionAdopt_beside (e := e) slot pkt).aside (e := e)
  rcases acceptData_cases slot pkt with ⟨-, heq⟩ | ⟨-, -, heq⟩ | ⟨win, -, -, heq⟩
  · rw [heq]
    exact hadopt
  · rw [heq]
    exact hadopt
  · rw [heq]
    have hheld : (slot.sessionAdopt e pkt).1.Beside ((slot.sessionAdopt e pkt).1.pushed pkt win) :=
      ⟨rfl, [.push pkt], rfl, by simp [Act.isEvent]⟩
    have hpushed := hadopt.trans (hheld.aside)
    exact hpushed.trans (Slot.slotDrainRecvWindow_aside (hpushed.turns.peer_eq.trans hpeer))

-- Without a FIN that waits for it, a DATA packet leaves the paths as they are.
theorem acceptData_links (hfin : slot.peerSessionKnown = true → slot.pendingFin = false)
    (pkt : Packet) : (acceptData e slot pkt).links = slot.links := by
  have hadopt := (Slot.sessionAdopt_beside (e := e) slot pkt).links
  rcases acceptData_cases slot pkt with ⟨-, heq⟩ | ⟨-, -, heq⟩ | ⟨win, hin, -, heq⟩
  · rw [heq, hadopt]
  · rw [heq, hadopt]
  · have hopen : ((slot.sessionAdopt e pkt).1.pushed pkt win).pendingFin = false := by
      revert hin
      unfold Slot.sessionAdopt
      simp only
      repeat' split
      all_goals first
        | exact fun _ => rfl
        | exact fun hno => absurd hno Bool.false_ne_true
        | exact fun _ => hfin (by simpa using ‹¬ slot.peerSessionKnown = false›)
    have hlinks : ((slot.sessionAdopt e pkt).1.pushed pkt win).links = slot.links := hadopt
    generalize (slot.sessionAdopt e pkt).1.pushed pkt win = pushed at heq hopen hlinks
    have hdrained : (pushed.drainLoop e pushed.recvWindow.windowSize).pendingFin = false :=
      Slot.drainLoop_preserves (P := fun v => v.pendingFin = false) _
        (fun v pkt win _ _ h => (View.popped_pendingFin ..).trans h) hopen
    have hkeep : (pushed.drainLoop e pushed.recvWindow.windowSize).finPendingReached = false := by
      unfold Slot.finPendingReached
      rw [hdrained, Bool.false_and]
    rw [heq, Slot.slotDrainRecvWindow_eq, hkeep]
    exact (Slot.drainLoop_links _ _).trans hlinks

theorem step_data_links (hfin : ctx.peerSessionKnown = true → ctx.pendingFin = false) (path : Path)
    {pkt : Packet} (hflags : pkt.flags = FLAG_DATA) :
    (ctx.step e (.packet path pkt)).links = ctx.links ∧
      (ctx.step e (.packet path pkt)).running = ctx.running := by
  by_cases hrunning : ctx.running path = true
  · rw [step_packet_eq ctx pkt hrunning]
    simp only [Packet.has_of_flags hflags]
    split
    · exact ⟨rfl, rfl⟩
    · have hopen : (ctx.toSlot.emit (.recv pkt)).peerSessionKnown = true →
          (ctx.toSlot.emit (.recv pkt)).pendingFin = false := hfin
      exact ⟨acceptData_links hopen pkt, rfl⟩
  · have hsame : ctx.step e (.packet path pkt) = ctx := if_neg hrunning
    rw [hsame]
    exact ⟨rfl, rfl⟩

-- The packets that are handled as PINGs.
def hears (e : Env) (ctx : TcpCtx) (path : Path) (pkt : Packet) : Bool :=
  ctx.running path && !ctx.refuses e pkt && !pkt.has FLAG_FIN_ACK && !pkt.has FLAG_FIN &&
    pkt.has FLAG_PING

-- What the other end says of the paths when `src` is the payload of its PING.
def merged (remote : Path → UInt8) (src : Bytes) : Path → UInt8 :=
  if MAX_PATH ≤ src.length then fun k =>
    if src.getD k.val PING_STATE_UNDEFINED ≠ PING_STATE_UNDEFINED then
      src.getD k.val PING_STATE_UNDEFINED
    else remote k
  else remote

theorem handlePing_resync (htcp : e.type.isTcpType = true) (ctx : TcpCtx) (pkt : Packet)
    (path : Path) (hpeer : ctx.peer = none) :
    Slot.Resync e ctx.toSlot (ctx.handlePing e pkt path).toSlot
      (Function.update ctx.pathPingState path PING_STATE_NORMAL)
      (merged ctx.remotePathPingState pkt.payload) := by
  unfold handlePing merged
  split
  · exact Slot.resync_of htcp hpeer rfl (.of_log rfl) rfl
  · exact Slot.resync_of htcp hpeer rfl (.of_log rfl) rfl

theorem step_packet_paths (ctx : TcpCtx) (path : Path) (pkt : Packet) (hpeer : ctx.peer = none) :
    (ctx.hears e path pkt = true ∧ ctx.step e (.packet path pkt) =
      handlePing e { ctx with toSlot := ctx.toSlot.emit (.recv pkt) } pkt path) ∨
    (ctx.hears e path pkt = false ∧
      Slot.Aside e ctx.toSlot (ctx.step e (.packet path pkt)).toSlot ∧
      (ctx.step e (.packet path pkt)).tcpActivePaths = ctx.tcpActivePaths) := by
  have hrecv := (Slot.emit_beside ctx.toSlot (rfl : (Act.recv pkt).isEvent = false)).aside (e := e)
  by_cases hrunning : ctx.running path = true
  · unfold hears
    rw [step_packet_eq ctx pkt hrunning, hrunning]
    split
    · rename_i hdrop
      refine .inr ⟨?_, hrecv, rfl⟩
      cases hrefuses : ctx.refuses e pkt with
      | true => simp
      | false =>
        rw [hrefuses, Bool.false_or] at hdrop
        simp [hdrop]
    rename_i hheard
    rw [Bool.or_eq_true, not_or, Bool.not_eq_true, Bool.not_eq_true] at hheard
    rw [hheard.1, hheard.2]
    split
    · rename_i hfin
      exact .inr ⟨by simp [hfin], hrecv.trans (Slot.dispatchFin_aside pkt hpeer), rfl⟩
    rename_i hfin
    split
    · rename_i hping
      exact .inl ⟨by simp [hfin, hping], rfl⟩
    rename_i hping
    split
    · exact .inr ⟨by simp [hping], hrecv.trans (acceptData_aside pkt hpeer), rfl⟩
    · exact .inr ⟨by simp [hping], hrecv, rfl⟩
  · have hstep : ctx.step e (.packet path pkt) = ctx := if_neg hrunning
    rw [hstep]
    exact .inr ⟨by simp [hears, hrunning], (Slot.Beside.refl _).aside, rfl⟩

theorem checkPingTimeout_paths (htcp : e.type.isTcpType = true) (ctx : TcpCtx) (path : Path)
    (hpeer : ctx.peer = none) :
    (Slot.Resync e ctx.toSlot (ctx.checkPingTimeout e path).toSlot
        (Function.update ctx.pathPingState path PING_STATE_ABNORMAL) ctx.remotePathPingState ∨
      Slot.Aside e ctx.toSlot (ctx.checkPingTimeout e path).toSlot) ∧
      (ctx.checkPingTimeout e path).tcpActivePaths = ctx.tcpActivePaths := by
  unfold checkPingTimeout
  split
  · exact ⟨.inr (Slot.Beside.refl _).aside, rfl⟩
  dsimp only
  split
  · exact ⟨.inl (Slot.resync_of htcp hpeer rfl (.of_log rfl) rfl), rfl⟩
  · have hticked : ctx.toSlot.Beside ctx.toSlot.tickOnce := .of_eq rfl rfl
    exact ⟨.inr hticked.aside, rfl⟩

theorem leave_resync (htcp : e.type.isTcpType = true) (ctx : TcpCtx) (path : Path)
    (hpeer : ctx.peer = none) :
    Slot.Resync e ctx.toSlot (ctx.step e (.leave path)).toSlot
      (Function.update ctx.pathPingState path PING_STATE_UNDEFINED) ctx.remotePathPingState :=
  Slot.resync_of htcp hpeer rfl (.of_log rfl) rfl

-- A change that neither touches what the paths report nor reports anything.
structure Kept (ctx ctx' : TcpCtx) : Prop where
  conn : ctx'.conn = ctx.conn
  log : ctx'.log = ctx.log
  ping : ctx'.pathPingState = ctx.pathPingState
  remote : ∀ k, ctx'.remotePathPingState k = PING_STATE_NORMAL →
    ctx.remotePathPingState k = PING_STATE_NORMAL

theorem Kept.of_eq {ctx' : TcpCtx} (hconn : ctx'.conn = ctx.conn) (hlog : ctx'.log = ctx.log)
    (hping : ctx'.pathPingState = ctx.pathPingState)
    (hremote : ctx'.remotePathPingState = ctx.remotePathPingState) : ctx.Kept ctx' :=
  ⟨hconn, hlog, hping, fun _ hk => by rwa [hremote] at hk⟩

theorem Kept.trans {ctx' ctx'' : TcpCtx} (h : ctx.Kept ctx') (h' : ctx'.Kept ctx'') :
    ctx.Kept ctx'' :=
  ⟨h'.conn.trans h.conn, h'.log.trans h.log, h'.ping.trans h.ping,
    fun k hk => h.remote k (h'.remote k hk)⟩

theorem connect_kept (ctx : TcpCtx) (path : Path) : ctx.Kept (ctx.senderConnect e path) := by
  unfold senderConnect
  split <;> exact .of_eq rfl rfl rfl rfl

theorem connect_active (ctx : TcpCtx) (path : Path) :
    (ctx.senderConnect e path).tcpActivePaths = ctx.tcpActivePaths + 1 := by
  unfold senderConnect
  split <;> rfl

theorem connect_fd (ctx : TcpCtx) {k : Path} (hk : (ctx.senderConnect e path).tcpConnFd k = true) :
    ctx.tcpConnFd k = true ∨ k = path := by
  unfold senderConnect at hk
  split at hk <;> exact published_fd (e := e) hk

theorem closeOthers_kept (ctx : TcpCtx) (path : Path) :
    ctx.Kept (ctx.closeOthers e path) ∧
      (ctx.closeOthers e path).tcpActivePaths = ctx.tcpActivePaths ∧
      ∀ k, (ctx.closeOthers e path).tcpConnFd k = true → ctx.tcpConnFd k = true := by
  refine Run.foldl_preserves (P := fun ctx' : TcpCtx => ctx.Kept ctx' ∧
    ctx'.tcpActivePaths = ctx.tcpActivePaths ∧ ∀ k, ctx'.tcpConnFd k = true → ctx.tcpConnFd k = true)
    (fun ctx' k h => ?_) ⟨.of_eq rfl rfl rfl rfl, rfl, fun _ hk => hk⟩ _
  exact ⟨h.1.trans (.of_eq rfl rfl rfl rfl), h.2.1, fun j hj => h.2.2 j (closed_fd hj)⟩

theorem accept_kept (ctx : TcpCtx) (path : Path) (pkt : Packet) :
    ctx.Kept (ctx.receiverAccept e path pkt) := by
  unfold receiverAccept
  split
  · exact .of_eq rfl rfl rfl rfl
  · exact .of_eq rfl rfl rfl rfl
  · exact (closeOthers_kept ctx path).1.trans (.of_eq rfl rfl rfl rfl)

theorem accept_active (ctx : TcpCtx) (path : Path) (hnew : ctx.sessionCompare e pkt ≠ .old) :
    (ctx.receiverAccept e path pkt).tcpActivePaths = ctx.tcpActivePaths + 1 := by
  unfold receiverAccept
  split
  · rename_i hold
    exact absurd hold hnew
  · rfl
  · exact congrArg (· + 1) (closeOthers_kept ctx path).2.1

theorem accept_fd (ctx : TcpCtx) {k : Path} (hk : (ctx.receiverAccept e path pkt).tcpConnFd k = true) :
    ctx.tcpConnFd k = true ∨ k = path := by
  unfold receiverAccept at hk
  split at hk
  · exact .inl hk
  · exact published_fd hk
  · exact (published_fd hk).imp_left ((closeOthers_kept ctx path).2.2 k)

end

end TcpCtx

end Porter
