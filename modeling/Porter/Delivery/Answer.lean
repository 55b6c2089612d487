import Porter.Connection.Destination
import Porter.Delivery.Gap
import Porter.Send
import Porter.Window.Send

namespace Porter

-- NACKs, as the dispatcher tells them from the other kinds.
def Packet.isNack (pkt : Packet) : Bool := pkt.has FLAG_NACK && !pkt.has FLAG_FIN

namespace Slot

-- The reply that a NACK for `seq` is due: the packet with that number, if it is retained.
def reply (e : Env) (slot : Slot) (retained : List Packet) (seq : UInt32) : Packet :=
  (retained.find? fun packet => packet.seqNum = seq).getD
    (Packet.buildReject (slot.ownSessionHdr e) seq)

-- The packet went to every destination of the slot, of which there is at least one.
def Answered (e : Env) (slot after : Slot) (pkt : Packet) : Prop :=
  slot.dests e ≠ [] ∧ ∀ d ∈ slot.dests e, slot.Logged after fun act => act = .send d.1 d.2 pkt

section

variable {e : Env} {slot after : Slot} {pkt : Packet} {sent : List Packet}

theorem slotRetransmitOrReject_eq (h : slot.sendWindow.Sent sent) (seq : UInt32) :
    slot.slotRetransmitOrReject e seq =
      slot.sendToDests e (slot.reply e (slot.sendWindow.retained sent) seq) := by
  unfold slotRetransmitOrReject reply
  cases hget : slot.sendWindow.sendGet seq with
  | some packet =>
    obtain ⟨hmem, hseq⟩ := h.sendGet_eq_some.mp hget
    cases hfind : (slot.sendWindow.retained sent).find? fun p => p.seqNum = seq with
    | none =>
      have hno := List.find?_eq_none.mp hfind packet hmem
      simp [hseq] at hno
    | some found =>
      have hfound : found.seqNum = seq := by simpa using List.find?_some hfind
      have hsame := h.sendGet_eq_some.mpr ⟨List.mem_of_find?_eq_some hfind, hfound⟩
      rw [hget] at hsame
      rw [Option.some.inj hsame, Option.getD_some]
  | none =>
    have hfind : (slot.sendWindow.retained sent).find? (fun p => p.seqNum = seq) = none := by
      refine List.find?_eq_none.mpr fun p hp => ?_
      intro hseq
      have hgot := h.sendGet_eq_some.mpr ⟨hp, by simpa using hseq⟩
      rw [hget] at hgot
      cases hgot
    rw [hfind]
    rfl

theorem onNack_answers (hraw : e.type.isRawType = false) (h : slot.sendWindow.Sent sent)
    (hnack : pkt.has FLAG_NACK = true) (hfresh : (slot.nackIsDuplicate e pkt.ackNum).2 = false)
    (hdests : slot.dests e ≠ []) :
    slot.Answered e (slot.onNack e pkt)
      (slot.reply e (slot.sendWindow.retained sent) pkt.ackNum) := by
  have hbeside := nackIsDuplicate_beside (e := e) slot pkt.ackNum
  have houtlet := hbeside.outlet
  have hlog : (slot.nackIsDuplicate e pkt.ackNum).1.log = slot.log := by
    unfold nackIsDuplicate
    dsimp only
    split <;> rfl
  have hanswer : slot.onNack e pkt =
      (slot.nackIsDuplicate e pkt.ackNum).1.slotRetransmitOrReject e pkt.ackNum := by
    unfold onNack
    rw [hnack, hraw]
    dsimp only
    rw [hfresh]
    rfl
  have hpeer := hbeside.peer
  rw [hanswer]
  generalize (slot.nackIsDuplicate e pkt.ackNum).1 = filtered at hpeer houtlet hlog ⊢
  have hwindow : filtered.sendWindow = slot.sendWindow := congrArg (fun o => o.toOwn.sendWindow) houtlet
  have hsame : filtered.dests e = slot.dests e := by
    unfold dests
    rw [hpeer, show filtered.destAddr = slot.destAddr from congrArg Outlet.destAddr houtlet]
  have hreply : filtered.reply e = slot.reply e := by
    unfold reply ownSessionHdr
    rw [show filtered.sessionId = slot.sessionId from congrArg (fun o => o.toOwn.sessionId) houtlet,
      show filtered.sessionTs = slot.sessionTs from congrArg (fun o => o.toOwn.sessionTs) houtlet]
  rw [← hwindow] at h
  rw [slotRetransmitOrReject_eq h, sendToDests_eq, hsame, hreply, hwindow]
  refine ⟨hdests, fun d hd => ⟨_, congrArg (· ++ _) hlog, _, ?_, rfl⟩⟩
  refine List.mem_map.mpr ⟨_, List.mem_map.mpr ⟨d, hd, rfl⟩, ?_⟩
  rw [show filtered.peerId = slot.peerId from congrArg (Option.getD · PEER_NA) hpeer]

theorem nackIsDuplicate_snd (slot : Slot) (seq : UInt32) :
    (slot.nackIsDuplicate e seq).2 = (List.range NACK_DEDUP_SLOTS).any fun i =>
      dedupEntryMatches (slot.nackDedupBuf i) seq (e.plat.clockMs slot.tick) := by
  unfold nackIsDuplicate
  dsimp only
  split
  · rename_i hfound
    exact hfound.symm
  · rename_i hnone
    exact (Bool.eq_false_iff.mpr hnone).symm

theorem nackIsDuplicate_emit (slot : Slot) (act : Act) (seq : UInt32) :
    ((slot.emit act).nackIsDuplicate e seq).2 = (slot.nackIsDuplicate e seq).2 := by
  rw [nackIsDuplicate_snd, nackIsDuplicate_snd]
  rfl

theorem Answered.of_recv {packet : Packet} (h : (slot.emit (.recv pkt)).Answered e after packet) :
    slot.Answered e after packet :=
  ⟨h.1, fun d hd => (h.2 d hd).prepend rfl ⟨_, rfl⟩⟩

theorem not_answered_of_recv (slot : Slot) (pkt packet : Packet) :
    ¬ slot.Answered e (slot.emit (.recv pkt)) packet := by
  rintro ⟨hdests, hall⟩
  obtain ⟨d, hd⟩ := List.exists_mem_of_ne_nil _ hdests
  obtain ⟨rest, hlog, act, hact, rfl⟩ := hall d hd
  have hrest : rest = [(slot.peerId, Act.recv pkt)] := (List.append_cancel_left hlog).symm
  rw [hrest, List.mem_singleton] at hact
  cases hact

theorem dispatchPacket_nack (hnack : pkt.isNack = true) (path : Path) (sender : Endpoint) :
    slot.dispatchPacket e pkt path sender =
      if slot.peer.isSome = true then slot.onNack e pkt else slot := by
  simp only [Packet.isNack, Bool.and_eq_true, Bool.not_eq_true'] at hnack
  rw [dispatchPacket_eq, hnack.1, hnack.2]
  rfl

theorem step_nack (hkind : e.type = .unicastBidir) (hpeer : slot.peer = none)
    (hnack : pkt.isNack = true) {path : Path} (hpath : path.val < e.nPath) (sender : Endpoint) :
    slot.step e (.packet path sender pkt) =
      if e.role = .sender then (slot.emit (.recv pkt)).onNack e pkt else slot.emit (.recv pkt) := by
  rw [step_packet_eq, if_neg (Nat.not_le.mpr hpath)]
  have hraw : e.type.isRawType = false := by
    rw [hkind]
    rfl
  have hhandle : (slot.emit (.recv pkt)).senderHandlePacket e pkt =
      ((slot.emit (.recv pkt)).onNack e pkt, true) := by
    unfold senderHandlePacket
    rw [hraw, hkind]
    rfl
  rw [hhandle]
  have hstill : ((slot.emit (.recv pkt)).onNack e pkt).peer = none :=
    (onNack_beside (slot.emit (.recv pkt)) pkt).peer.trans hpeer
  rw [dispatchPacket_nack hnack, dispatchPacket_nack hnack, hstill,
    show (slot.emit (.recv pkt)).peer = none from hpeer]
  rfl

theorem step_answered_iff (hkind : e.type = .unicastBidir) (hpeer : slot.peer = none)
    (h : slot.sendWindow.Sent sent) (hnack : pkt.isNack = true)
    (hfresh : (slot.nackIsDuplicate e pkt.ackNum).2 = false) {path : Path}
    (hpath : path.val < e.nPath) (sender : Endpoint) :
    slot.Answered e (slot.step e (.packet path sender pkt))
      (slot.reply e (slot.sendWindow.retained sent) pkt.ackNum) ↔ e.role = .sender := by
  rw [step_nack hkind hpeer hnack hpath]
  constructor
  · intro hanswered
    by_contra hrole
    rw [if_neg hrole] at hanswered
    exact not_answered_of_recv slot pkt _ hanswered
  · intro hrole
    rw [if_pos hrole]
    have hraw : e.type.isRawType = false := by
      rw [hkind]
      rfl
    have hbit : pkt.has FLAG_NACK = true := by
      simp only [Packet.isNack, Bool.and_eq_true] at hnack
      exact hnack.1
    have hdests : (slot.emit (.recv pkt)).dests e ≠ [] := by
      unfold dests
      rw [show (slot.emit (.recv pkt)).peer = none from hpeer]
      have hmem : path ∈ openPaths e := mem_openPaths.mpr hpath
      intro hnil
      rw [if_neg (by simp), List.map_eq_nil_iff] at hnil
      rw [hnil] at hmem
      cases hmem
    rw [← nackIsDuplicate_emit slot (.recv pkt)] at hfresh
    exact (onNack_answers hraw (by exact h) hbit hfresh hdests).of_recv

-- A peer in use can be reached

structure Hearing where
  destAddr : Path → Endpoint
  lastRecvTs : Timespec
  pathLastRecvTs : Path → Timespec

def hearing (slot : Slot) : Hearing := ⟨slot.destAddr, slot.lastRecvTs, slot.pathLastRecvTs⟩

theorem hearing_of_links {slot' : Slot} (h : slot'.links = slot.links) : slot'.hearing = slot.hearing :=
  congrArg (fun l : Links => (⟨l.destAddr, l.lastRecvTs, l.pathLastRecvTs⟩ : Hearing)) h

theorem syncPathStateLocked_hearing (slot : Slot) (states : Path → Bool) :
    (slot.syncPathStateLocked e states).hearing = slot.hearing := by
  unfold syncPathStateLocked callbackEmits
  split <;> rfl

theorem peerFree_hearing (slot : Slot) : slot.peerFree.hearing = slot.hearing := by
  unfold peerFree
  split <;> rfl

theorem finFire_hearing (hpeer : slot.peer.isSome = true) (target : UInt32) :
    (slot.finFire e target).hearing = slot.hearing := by
  unfold finFire
  rw [if_pos hpeer, peerFree_hearing]
  exact syncPathStateLocked_hearing slot _

theorem drainLoop_hearing (fuel : Nat) (slot : Slot) :
    (slot.drainLoop e fuel).hearing = slot.hearing := hearing_of_links (drainLoop_links fuel slot)

theorem slotDrainRecvWindow_hearing (hpeer : slot.peer.isSome = true) :
    (slot.slotDrainRecvWindow e).1.hearing = slot.hearing := by
  have hloop := drainLoop_hearing (e := e) slot.recvWindow.windowSize slot
  unfold slotDrainRecvWindow
  dsimp only
  split
  · refine (finFire_hearing ?_ _).trans hloop
    rw [(drainLoop_turns slot.recvWindow.windowSize slot).peer_eq]
    exact hpeer
  · exact hloop

-- The steps of thread_recv_window_accept_outer that touch neither the paths nor their times.
theorem acceptEntered_beside (hraw : e.type.isRawType = false) (slot : Slot) (pkt : Packet) :
    slot.Beside (slot.acceptPush e pkt).1 ∧
      slot.Beside ((slot.acceptPush e pkt).1.acceptGap e pkt).1 := by
  have hpush : slot.Beside (slot.acceptPush e pkt).1 := by
    unfold acceptPush
    dsimp only
    split
    · exact pushRecvWindow_beside slot pkt
    · rw [hraw]
      exact .refl slot
  refine ⟨hpush, hpush.trans ?_⟩
  unfold acceptGap
  split
  · exact .of_eq rfl rfl
  · rw [hraw]
    exact nackGap_beside _ _

theorem acceptOuter_hearing (hraw : e.type.isRawType = false) (hpeer : slot.peer.isSome = true)
    (pkt : Packet) (path : Path) : (slot.acceptOuter e pkt path).hearing = slot.hearing := by
  obtain ⟨hpush, hgap⟩ := acceptEntered_beside hraw slot pkt
  have hsome : ((slot.acceptPush e pkt).1.acceptGap e pkt).1.peer.isSome = true := by
    rw [hgap.peer]
    exact hpeer
  have hhealth : ((slot.acceptPush e pkt).1.acceptGap e pkt).1.acceptHealth e pkt path =
      ((slot.acceptPush e pkt).1.acceptGap e pkt).1 := by
    unfold acceptHealth
    rw [if_neg]
    rw [Option.isNone_eq_false_iff.mpr hsome]
    simp
  have hdrain := (slotDrainRecvWindow_hearing (e := e) hsome).trans (hearing_of_links hgap.links)
  unfold acceptOuter
  dsimp only
  rw [hhealth]
  split
  · exact hearing_of_links hpush.links
  split
  · exact hearing_of_links hgap.links
  split
  · exact (hearing_of_links (acceptPostDrain_beside _).links).trans hdrain
  · exact hdrain

-- A set destination has an address, and one of them was heard last or has no time yet.
structure Heard (slot : Slot) : Prop where
  clear : ∀ k, (slot.destAddr k).address = 0 → (slot.destAddr k).isUnset = true
  heard : ∃ k, (slot.destAddr k).address ≠ 0 ∧
    (slot.pathLastRecvTs k = slot.lastRecvTs ∨ (slot.pathLastRecvTs k).tvSec = 0)

theorem Heard.of_hearing {slot' : Slot} (h : slot.Heard) (hsame : slot'.hearing = slot.hearing) :
    slot'.Heard := by
  have hdest : slot'.destAddr = slot.destAddr := congrArg Hearing.destAddr hsame
  have hlast : slot'.lastRecvTs = slot.lastRecvTs := congrArg Hearing.lastRecvTs hsame
  have htimes : slot'.pathLastRecvTs = slot.pathLastRecvTs := congrArg Hearing.pathLastRecvTs hsame
  refine ⟨?_, ?_⟩
  · rw [hdest]
    exact h.clear
  · rw [hdest, hlast, htimes]
    exact h.heard

theorem Heard.dests_ne_nil (h : slot.Heard) (hpeer : slot.peer.isSome = true) : slot.dests e ≠ [] := by
  obtain ⟨k, haddr, -⟩ := h.heard
  unfold dests
  rw [if_pos hpeer]
  intro hnil
  rw [List.map_eq_nil_iff] at hnil
  have hmem : k ∈ paths.filter fun i => !(slot.destAddr i).isUnset := by
    refine List.mem_filter.mpr ⟨List.mem_finRange k, ?_⟩
    simp [Endpoint.isUnset, haddr]
  rw [hnil] at hmem
  cases hmem

theorem learnSenderPath_heard (h : slot.Heard) (hpeer : slot.peer.isSome = true) {path : Path}
    {sender : Endpoint} (haddr : sender.address ≠ 0) :
    (slot.learnSenderPath e path sender).Heard ∧
      ((slot.learnSenderPath e path sender).destAddr path).address ≠ 0 := by
  have hdest : ∃ dest : Endpoint, dest.address ≠ 0 ∧
      (slot.learnSenderPath e path sender).destAddr = Function.update slot.destAddr path dest ∧
      (slot.learnSenderPath e path sender).lastRecvTs = slot.lastRecvTs ∧
      (slot.learnSenderPath e path sender).pathLastRecvTs = slot.pathLastRecvTs := by
    unfold learnSenderPath
    rw [if_pos hpeer]
    split
    · rename_i hset
      refine ⟨{ slot.destAddr path with port := sender.port }, fun hzero => ?_, rfl, rfl, rfl⟩
      rw [h.clear path hzero] at hset
      cases hset
    · exact ⟨sender, haddr, rfl, rfl, rfl⟩
  obtain ⟨dest, hne, hupdate, hlast, htimes⟩ := hdest
  rw [hupdate, Function.update_self]
  refine ⟨⟨fun k hzero => ?_, ?_⟩, hne⟩
  · rw [hupdate] at hzero ⊢
    by_cases hk : k = path
    · subst hk
      rw [Function.update_self] at hzero
      exact absurd hzero hne
    · rw [Function.update_of_ne hk] at hzero ⊢
      exact h.clear k hzero
  · obtain ⟨k, hk, htime⟩ := h.heard
    rw [hupdate, hlast, htimes]
    refine ⟨k, ?_, htime⟩
    by_cases heq : k = path
    · subst heq
      rw [Function.update_self]
      exact hne
    · rw [Function.update_of_ne heq]
      exact hk

theorem dispatchPing_heard (hraw : e.type.isRawType = false) (h : slot.Heard)
    (hpeer : slot.peer.isSome = true) (pkt : Packet) {path : Path}
    (haddr : (slot.destAddr path).address ≠ 0) : (slot.dispatchPing e pkt path).Heard := by
  rw [dispatchPing_eq, hraw]
  have hfields : (slot.pinged e pkt path).destAddr = slot.destAddr ∧
      (slot.pinged e pkt path).peer = slot.peer ∧
      (slot.pinged e pkt path).pathLastRecvTs path = (slot.pinged e pkt path).lastRecvTs := by
    unfold pinged
    split <;> exact ⟨rfl, rfl, Function.update_self ..⟩
  generalize slot.pinged e pkt path = seen at hfields ⊢
  have hheard : seen.Heard := by
    refine ⟨?_, path, ?_, .inl hfields.2.2⟩
    · rw [hfields.1]
      exact h.clear
    · rw [hfields.1]
      exact haddr
  have hsynced := syncPathStateLocked_hearing (e := e) seen (seen.nextPathStates e)
  have hsome : (seen.syncPathState e).peer.isSome = true := by
    rw [show (seen.syncPathState e).peer = seen.peer by
      unfold syncPathState syncPathStateLocked callbackEmits
      split <;> rfl, hfields.2.1]
    exact hpeer
  refine hheard.of_hearing (Eq.trans ?_ hsynced)
  change ((seen.syncPathState e).scanPingGap e pkt).hearing = (seen.syncPathState e).hearing
  unfold scanPingGap
  rw [if_pos hsome]
  split
  · exact hearing_of_links (nackGap_beside _ _).links
  · rfl

theorem onReject_heard (hraw : e.type.isRawType = false) (h : slot.Heard)
    (hpeer : slot.peer.isSome = true) (pkt : Packet) (path : Path) {sender : Endpoint}
    (haddr : sender.address ≠ 0) : (slot.onReject e pkt path sender).Heard := by
  have hadopt := sessionAdopt_beside (e := e) slot pkt
  have hentered : (slot.sessionAdopt e pkt).1.Heard := h.of_hearing (hearing_of_links hadopt.links)
  have hsome : (slot.sessionAdopt e pkt).1.peer.isSome = true := by
    rw [hadopt.peer]
    exact hpeer
  have hlearned : ((slot.sessionAdopt e pkt).1.learnSenderPath e path sender).Heard :=
    (learnSenderPath_heard hentered hsome haddr).1
  have hknown : ((slot.sessionAdopt e pkt).1.learnSenderPath e path sender).peer.isSome = true := by
    rw [(learnSenderPath_turns (slot.sessionAdopt e pkt).1 path sender).peer_eq]
    exact hsome
  rw [onReject_eq, hraw, if_neg Bool.false_ne_true]
  split
  · exact hentered
  generalize (slot.sessionAdopt e pkt).1.learnSenderPath e path sender = learned at hlearned hknown ⊢
  have hcut : (learned.clearPathPingStates.disconnectAllPaths e).hearing = learned.hearing :=
    syncPathStateLocked_hearing learned.clearPathPingStates _
  have hcutPeer := (disconnectAllPaths_turns (e := e) learned.clearPathPingStates).peer_eq
  generalize learned.clearPathPingStates.disconnectAllPaths e = cut at hcut hcutPeer ⊢
  have hskip := skipRecvWindow_beside { cut with reorderPending := false } pkt.ackNum
  refine hlearned.of_hearing ((slotDrainRecvWindow_hearing ?_).trans
    ((hearing_of_links hskip.links).trans hcut))
  rw [hskip.peer]
  rw [hcutPeer]
  exact hknown

theorem dispatchPacket_heard (hraw : e.type.isRawType = false) (h : slot.Heard)
    (hpeer : slot.peer.isSome = true) (pkt : Packet) (path : Path) {sender : Endpoint}
    (haddr : sender.address ≠ 0) : (slot.dispatchPacket e pkt path sender).Heard := by
  have hadopt := sessionAdopt_beside (e := e) slot pkt
  have hentered : (slot.sessionAdopt e pkt).1.Heard := h.of_hearing (hearing_of_links hadopt.links)
  have hsome : (slot.sessionAdopt e pkt).1.peer.isSome = true := by
    rw [hadopt.peer]
    exact hpeer
  obtain ⟨hlearned, hset⟩ : ((slot.sessionAdopt e pkt).1.learnSenderPath e path sender).Heard ∧ _ :=
    learnSenderPath_heard hentered hsome haddr
  have hknown : ((slot.sessionAdopt e pkt).1.learnSenderPath e path sender).peer.isSome = true := by
    rw [(learnSenderPath_turns (slot.sessionAdopt e pkt).1 path sender).peer_eq]
    exact hsome
  rw [dispatchPacket_eq]
  split
  · unfold dispatchFin
    rw [if_neg (by simp [Option.isNone_eq_false_iff.mpr hpeer])]
    have hfin := finOnPacket_beside slot pkt
    dsimp only
    split
    · exact h
    split
    · refine h.of_hearing ((finFire_hearing ?_ _).trans (hearing_of_links hfin.links))
      rw [hfin.peer]
      exact hpeer
    · exact h.of_hearing (hearing_of_links hfin.links)
  split
  · exact h.of_hearing (hearing_of_links (onNack_beside slot pkt).links)
  split
  · exact onReject_heard hraw h hpeer pkt path haddr
  split
  · exact h
  split
  · exact hentered
  split
  · exact dispatchPing_heard hraw hlearned hknown pkt hset
  · exact hlearned.of_hearing (acceptOuter_hearing hraw hknown pkt path)

-- What the loop over the paths of a peer reads and writes of one of them.
def peerCell (slot : Slot) (k : Path) : Endpoint × Timespec := (slot.destAddr k, slot.pathLastRecvTs k)

def peerCellChecked (e : Env) (nowTs : Timespec) (cell : Endpoint × Timespec) : Endpoint × Timespec :=
  if !cell.1.isUnset && pathTimedOut e nowTs cell.2 then (Endpoint.clear, ⟨0, 0⟩) else cell

theorem peerPathLoop_cell_self (nowTs : Timespec) (acc : Slot × Bool) (i : Path) :
    (peerPathLoop e nowTs acc i).1.peerCell i = peerCellChecked e nowTs (acc.1.peerCell i) := by
  unfold peerPathLoop peerCellChecked
  by_cases hout : (!(acc.1.destAddr i).isUnset && pathTimedOut e nowTs (acc.1.pathLastRecvTs i)) = true
  · rw [if_pos hout]
    refine Eq.trans ?_ (if_pos hout).symm
    simp only [peerCell, peerPathClear, setPathPingState, Function.update_self]
  · rw [if_neg hout]
    exact (if_neg hout).symm

theorem peerPathLoop_cell_other (nowTs : Timespec) (acc : Slot × Bool) (i k : Path) (hk : k ≠ i) :
    (peerPathLoop e nowTs acc i).1.peerCell k = acc.1.peerCell k := by
  unfold peerPathLoop
  split
  · simp only [peerCell, peerPathClear, setPathPingState, Function.update_of_ne hk]
  · rfl

theorem peerPathLoops_cell (nowTs : Timespec) (acc : Slot × Bool) (k : Path) :
    (paths.foldl (peerPathLoop e nowTs) acc).1.peerCell k =
      peerCellChecked e nowTs (acc.1.peerCell k) :=
  Run.foldl_cell_of_mem (fun acc : Slot × Bool => acc.1.peerCell) (peerPathLoop_cell_self nowTs)
    (peerPathLoop_cell_other nowTs) (List.nodup_finRange MAX_PATH) (List.mem_finRange k) acc

theorem healthCheckPeer_heard (h : slot.Heard) (nowTs : Timespec) (hactive : slot.active = true)
    (hused : (slot.healthCheckPeer e nowTs).active = true) :
    (slot.healthCheckPeer e nowTs).Heard := by
  rw [healthCheckPeer_eq] at hused ⊢
  by_cases hoff : slot.healthAlive = false
  · rw [if_pos (by simp [hoff])]
    exact h
  rw [if_neg (by simp [hoff, hactive])] at hused ⊢
  unfold peerSynced peerLooped syncLooped at hused ⊢
  have hcell := peerPathLoops_cell (e := e) nowTs (slot, false)
  have hlast : (paths.foldl (peerPathLoop e nowTs) (slot, false)).1.lastRecvTs = slot.lastRecvTs :=
    Run.foldl_preserves (P := fun acc : Slot × Bool => acc.1.lastRecvTs = slot.lastRecvTs)
      (fun acc k hacc => by
        unfold peerPathLoop
        split <;> exact hacc) rfl paths
  generalize paths.foldl (peerPathLoop e nowTs) (slot, false) = looped at hused hcell hlast ⊢
  have hsynced : (if looped.2 then looped.1.syncPathState e else looped.1).hearing =
      looped.1.hearing := by
    split
    · exact syncPathStateLocked_hearing _ _
    · rfl
  generalize (if looped.2 then looped.1.syncPathState e else looped.1) = synced at hused hsynced ⊢
  have hsyncedLast : synced.lastRecvTs = slot.lastRecvTs :=
    (congrArg Hearing.lastRecvTs hsynced).trans hlast
  -- The path that was heard last is only taken away when the whole peer is released.
  have hpath : looped.1.Heard ∨ synced.lastRecvTs.tvSec ≠ 0 ∧
      (e.healthTimeoutMs : Int) ≤ e.plat.timespecDiffMs nowTs synced.lastRecvTs := by
    rw [hsyncedLast]
    obtain ⟨k, haddr, htime⟩ := h.heard
    by_cases hout : pathTimedOut e nowTs (slot.pathLastRecvTs k) = true
    · right
      simp only [pathTimedOut, ne_eq, Bool.and_eq_true, decide_eq_true_eq] at hout
      rw [← htime.resolve_right hout.1]
      exact hout
    · left
      have hkeep : ∀ j, looped.1.destAddr j = slot.destAddr j ∧
          looped.1.pathLastRecvTs j = slot.pathLastRecvTs j ∨
          looped.1.destAddr j = Endpoint.clear := by
        intro j
        have hj := hcell j
        unfold peerCellChecked at hj
        split at hj
        · exact .inr (congrArg Prod.fst hj)
        · exact .inl ⟨congrArg Prod.fst hj, congrArg Prod.snd hj⟩
      refine ⟨fun j hzero => ?_, k, ?_⟩
      · rcases hkeep j with hsame | hclear
        · rw [hsame.1] at hzero ⊢
          exact h.clear j hzero
        · rw [hclear]
          rfl
      · have hk := hcell k
        unfold peerCellChecked at hk
        rw [if_neg (by simp [peerCell, hout])] at hk
        rw [show looped.1.destAddr k = slot.destAddr k from congrArg Prod.fst hk,
          show looped.1.pathLastRecvTs k = slot.pathLastRecvTs k from congrArg Prod.snd hk, hlast]
        exact ⟨haddr, htime⟩
  split
  · rename_i hzero
    exact (hpath.resolve_right fun hout => hout.1 hzero).of_hearing hsynced
  rename_i hset
  rw [if_neg hset] at hused
  split
  · rename_i hout
    have hfree : (synced.peerTimeout e).active = false :=
      congrArg View.active (view_peerFree (e := e) _)
    rw [if_pos hout, hfree] at hused
    cases hused
  · rename_i hin
    exact (hpath.resolve_right fun hout => hin hout.2).of_hearing hsynced

-- The send window of a slot holds the last of the DATA packets sent.
structure Sends (e : Env) (slot : Slot) (sent : List Packet) : Prop where
  sent : slot.sendWindow.Sent sent
  size : slot.sendWindow.windowSize = e.windowSize

theorem Sends.of_own {slot' : Slot} (h : slot.Sends e sent) (hown : slot'.own = slot.own) :
    slot'.Sends e sent := by
  have hwindow : slot'.sendWindow = slot.sendWindow := congrArg Own.sendWindow hown
  refine ⟨?_, ?_⟩
  · rw [hwindow]
    exact h.sent
  · rw [hwindow]
    exact h.size

theorem sends_init (h : slot.sendWindow = Window.init 0 e.windowSize) : slot.Sends e [] := by
  refine ⟨?_, ?_⟩
  · rw [h]
    exact Window.init_sent e.windowSize_pos e.windowSize_le
  · rw [h]
    rfl

theorem flushPacked_own (slot : Slot) (packed : Bytes) :
    (slot.flushPacked e packed).own =
      match slot.packedContainer e packed with
      | none => slot.own
      | some outer => { slot.own with
          sendWindow := slot.sendWindow.sendPush outer, sendHasData := true } := by
  unfold flushPacked
  cases slot.packedContainer e packed with
  | none => rfl
  | some outer => exact own_of_outlet (sendToDests_beside _ outer).outlet

theorem flushPacked_peer (slot : Slot) (packed : Bytes) :
    (slot.flushPacked e packed).peer = slot.peer ∧
      (slot.flushPacked e packed).active = slot.active := by
  unfold flushPacked
  cases slot.packedContainer e packed with
  | none => exact ⟨rfl, rfl⟩
  | some outer =>
    have hsent := sendToDests_beside (e := e) { slot with
      sendWindow := slot.sendWindow.sendPush outer, sendHasData := true } outer
    exact ⟨hsent.peer, congrArg Conn.active hsent.conn⟩

theorem flushPacked_hearing (slot : Slot) (packed : Bytes) :
    (slot.flushPacked e packed).hearing = slot.hearing := by
  unfold flushPacked
  cases slot.packedContainer e packed with
  | none => rfl
  | some outer =>
    have hsame := hearing_of_links (sendToDests_beside (e := e) { slot with
      sendWindow := slot.sendWindow.sendPush outer, sendHasData := true } outer).links
    exact hsame

theorem flushPacked_sends (h : slot.Sends e sent) (packed : Bytes) :
    (slot.flushPacked e packed).Sends e (sent ++ (slot.packedContainer e packed).toList) := by
  have hown := flushPacked_own (e := e) slot packed
  cases hbuilt : slot.packedContainer e packed with
  | none =>
    rw [hbuilt] at hown
    rw [Option.toList_none, List.append_nil]
    exact h.of_own hown
  | some outer =>
    rw [hbuilt] at hown
    have hwindow : (slot.flushPacked e packed).sendWindow = slot.sendWindow.sendPush outer :=
      congrArg Own.sendWindow hown
    refine ⟨?_, ?_⟩
    · rw [hwindow]
      exact h.sent.sendPush (packedContainer_header hbuilt).1
    · rw [hwindow, Window.sendPush_windowSize]
      exact h.size

theorem sendPing_beside (slot : Slot) (healthStates : Bytes) :
    slot.Beside (slot.sendPing e healthStates) := by
  unfold sendPing
  split
  · exact .refl slot
  · exact sendToDests_beside slot _

end

end Slot

-- The DATA packets that a send window keeps for retransmission.
def Env.recent (e : Env) (sent : List Packet) : List Packet := sent.drop (sent.length - e.windowSize)

theorem Slot.Sends.retained_eq {e : Env} {slot : Slot} {sent : List Packet} (h : slot.Sends e sent) :
    slot.sendWindow.retained sent = e.recent sent := by
  unfold Window.retained Env.recent
  rw [h.size]

-- A 1:1 service that sends and receives: what its receive, send and health threads do, and the FIN
-- of its close. `sent` are the DATA packets that went into the send window.
structure Duplex where
  slot : Slot
  sent : List Packet

namespace Duplex

inductive Action where
  | recv (input : Slot.Input)
  | data (packed : Bytes)
  | ping (healthStates : Bytes)
  | fin

def opened (e : Env) (sessionId : UInt32) (sessionTs : Timespec) (destAddr : Path → Endpoint) :
    Duplex :=
  ⟨Slot.opened e sessionId sessionTs destAddr, []⟩

def act (e : Env) (duplex : Duplex) : Action → Duplex
  | .recv input => { duplex with slot := duplex.slot.step e input }
  | .data packed =>
      ⟨duplex.slot.flushPacked e packed,
        duplex.sent ++ (duplex.slot.packedContainer e packed).toList⟩
  | .ping healthStates => { duplex with slot := duplex.slot.sendPing e healthStates }
  | .fin => { duplex with slot := duplex.slot.sendFin e }

def Good (e : Env) (duplex : Duplex) : Prop :=
  duplex.slot.peer = none ∧ duplex.slot.Sends e duplex.sent

theorem act_good {e : Env} {duplex : Duplex} (h : duplex.Good e) (action : Action) :
    (duplex.act e action).Good e := by
  obtain ⟨hpeer, hsends⟩ := h
  cases action with
  | recv input =>
    exact ⟨(Slot.Turns.peer_eq (Slot.step_turns duplex.slot hpeer input)).trans hpeer,
      hsends.of_own (Slot.step_own duplex.slot input)⟩
  | data packed =>
    exact ⟨(Slot.flushPacked_peer duplex.slot packed).1.trans hpeer,
      Slot.flushPacked_sends hsends packed⟩
  | ping healthStates =>
    have hbeside := Slot.sendPing_beside (e := e) duplex.slot healthStates
    exact ⟨hbeside.peer.trans hpeer, hsends.of_own (Slot.own_of_outlet hbeside.outlet)⟩
  | fin =>
    have hbeside : duplex.slot.Beside (duplex.slot.sendFin e) := Slot.sendToDests_beside _ _
    exact ⟨hbeside.peer.trans hpeer, hsends.of_own (Slot.own_of_outlet hbeside.outlet)⟩

theorem acts_good {e : Env} (sessionId : UInt32) (sessionTs : Timespec) (destAddr : Path → Endpoint)
    (actions : List Action) :
    (actions.foldl (act e) (opened e sessionId sessionTs destAddr)).Good e :=
  Run.foldl_preserves (P := Good e) (fun _ action h => act_good h action)
    ⟨rfl, Slot.sends_init rfl⟩ actions

end Duplex

-- The same for the peers of an N:1 service. The send thread looks the peer up by its id.
structure Duplexes where
  ctx : Ctx
  sent : Nat → List Packet

namespace Duplexes

inductive Action where
  | table (action : Ctx.Action)
  | data (peerId : UInt32) (packed : Bytes)
  | ping (peerId : UInt32) (healthStates : Bytes)

def opened (e : Env) : Duplexes := ⟨Ctx.opened e, fun _ => []⟩

-- A slot that was free before starts with nothing sent.
def act (e : Env) (peers : Duplexes) : Action → Duplexes
  | .table action =>
      ⟨peers.ctx.act e action, fun i => if (peers.ctx.peers i).active then peers.sent i else []⟩
  | .data peerId packed =>
      match peers.ctx.findById e peerId with
      | none => peers
      | some i =>
          ⟨peers.ctx.store i ((peers.ctx.slotInitPeer i).flushPacked e packed),
            Function.update peers.sent i (peers.sent i ++
              ((peers.ctx.slotInitPeer i).packedContainer e packed).toList)⟩
  | .ping peerId healthStates =>
      match peers.ctx.findById e peerId with
      | none => peers
      | some i =>
          { peers with ctx := peers.ctx.store i ((peers.ctx.slotInitPeer i).sendPing e healthStates) }

def Action.Sourced : Action → Prop
  | .table (.recv (.packet _ sender _)) => sender.address ≠ 0
  | _ => True

-- `sourced` says that every datagram so far had a source address.
structure Good (e : Env) (sourced : Prop) (peers : Duplexes) : Prop where
  peer : ∀ i < e.maxPeers, (peers.ctx.peers i).active = true → (peers.ctx.peers i).peer.isSome = true
  sends : ∀ i < e.maxPeers, (peers.ctx.peers i).active = true →
    (peers.ctx.slotInitPeer i).Sends e (peers.sent i)
  heard : sourced → ∀ i < e.maxPeers, (peers.ctx.peers i).active = true →
    (peers.ctx.slotInitPeer i).Heard

section

variable {e : Env} {sourced : Prop} {peers : Duplexes}

theorem served_good (hkind : e.type = .unicastBidirN1) (h : peers.Good e sourced) {i : Nat}
    (hi : i < e.maxPeers) {action : Ctx.Action} {after : Slot}
    (hserved : Ctx.Becomes e peers.ctx i action after.toPeerContext)
    (hused : after.active = true) :
    after.peer.isSome = true ∧
      after.Sends e (if (peers.ctx.peers i).active then peers.sent i else []) ∧
      (sourced ∧ (Action.table action).Sourced → after.Heard) := by
  have hraw : e.type.isRawType = false := by
    rw [hkind]
    rfl
  generalize hpeer : after.toPeerContext = peer at hserved
  have hfields : ∀ slot : Slot, slot.toPeerContext = after.toPeerContext →
      slot.own = after.own ∧ slot.hearing = after.hearing := by
    intro slot hslot
    unfold Slot.own Slot.hearing
    rw [hslot]
    exact ⟨rfl, rfl⟩
  cases hserved with
  | kept =>
    have hactive : (peers.ctx.peers i).active = true := hpeer ▸ hused
    obtain ⟨hown, hhearing⟩ := hfields (peers.ctx.slotInitPeer i) hpeer.symm
    rw [if_pos hactive]
    exact ⟨h.peer i hi hactive, (h.sends i hi hactive).of_own hown.symm,
      fun hs => (h.heard hs.1 i hi hactive).of_hearing hhearing.symm⟩
  | unused _ _ _ hoff =>
    rw [hpeer, hoff] at hused
    cases hused
  | closed =>
    rw [hpeer, show ((((peers.ctx.slotInitPeer i).peerSendFin e).disconnectAllPaths e).peerFree).active =
      false from congrArg View.active (Slot.view_peerFree (e := e) _)] at hused
    cases hused
  | packet path sender pkt _ hactive =>
    obtain ⟨hown, hhearing⟩ := hfields _ hpeer.symm
    have hsome := h.peer i hi hactive
    have hlive : Slot.Live e ((peers.ctx.slotInitPeer i).emit (.recv pkt)) :=
      ⟨fun _ => hkind, .inr hactive⟩
    have hsame := (Slot.dispatchPacket_turns _ pkt path sender hlive).peer_eq
    rw [if_pos hactive, hsame]
    refine ⟨hsome, (h.sends i hi hactive).of_own (hown.symm.trans ?_), fun hs => ?_⟩
    · exact (Slot.own_stable e path sender _).dispatchPacket pkt rfl
    · refine Slot.Heard.of_hearing (Slot.dispatchPacket_heard hraw ?_ ?_ pkt path hs.2) hhearing.symm
      · exact (h.heard hs.1 i hi hactive).of_hearing rfl
      · exact hsome
  | checked slot hslot hactive =>
    obtain ⟨hown, hhearing⟩ := hfields _ hpeer.symm
    have hsome : slot.peer.isSome = true := by
      rw [hslot]
      exact h.peer i hi hactive
    have hstart : slot.own = (peers.ctx.slotInitPeer i).own ∧
        slot.hearing = (peers.ctx.slotInitPeer i).hearing := by
      unfold Slot.own Slot.hearing
      rw [hslot]
      exact ⟨rfl, rfl⟩
    have hon : slot.active = true := by
      rw [hslot]
      exact hactive
    rw [if_pos hactive, (Slot.healthCheckPeer_turns _ slot hsome).peer_eq]
    refine ⟨hsome, (h.sends i hi hactive).of_own (hown.symm.trans ?_), fun hs => ?_⟩
    · exact (Slot.own_stable e 0 ⟨0, 0⟩ _).healthCheckPeer _ hstart.1
    · refine Slot.Heard.of_hearing (Slot.healthCheckPeer_heard ?_ _ hon ?_) hhearing.symm
      · exact (h.heard hs.1 i hi hactive).of_hearing hstart.2
      · rw [← hpeer]
        exact hused
  | created path sender pkt hfree slot peerId sessionId sessionTs hslot =>
    obtain ⟨hown, hhearing⟩ := hfields _ hpeer.symm
    have hjoined : slot.Beside ((slot.emit (.recv pkt)).adoptSession e pkt) :=
      (Slot.emit_beside slot (rfl : (Act.recv pkt).isEvent = false)).trans
        (Slot.adoptSession_beside _ pkt)
    have hsome : ((slot.emit (.recv pkt)).adoptSession e pkt).peer.isSome = true := by
      rw [hjoined.peer, hslot]
      rfl
    have hlive : Slot.Live e ((slot.emit (.recv pkt)).adoptSession e pkt) := by
      refine ⟨fun _ => hkind, .inr ?_⟩
      rw [show ((slot.emit (.recv pkt)).adoptSession e pkt).active = slot.active from
        congrArg Conn.active hjoined.conn, hslot]
      rfl
    have hwindow : slot.sendWindow = Window.init 0 e.windowSize := by
      rw [hslot]
      rfl
    rw [hfree, if_neg Bool.false_ne_true,
      (Slot.dispatchPacket_turns _ pkt path sender hlive).peer_eq]
    refine ⟨hsome, (Slot.sends_init hwindow).of_own (hown.symm.trans ?_), fun hs => ?_⟩
    · exact (Slot.own_stable e path sender _).dispatchPacket pkt (Slot.own_of_outlet hjoined.outlet)
    · refine Slot.Heard.of_hearing (Slot.dispatchPacket_heard hraw ?_ hsome pkt path hs.2)
        hhearing.symm
      have hdest : slot.destAddr = Function.update (fun _ => Endpoint.clear) path sender := by
        rw [hslot]
        rfl
      refine Slot.Heard.of_hearing ⟨fun k hzero => ?_, path, ?_, .inr ?_⟩
        (Slot.hearing_of_links hjoined.links)
      · rw [hdest] at hzero ⊢
        by_cases hk : k = path
        · subst hk
          rw [Function.update_self] at hzero
          exact absurd hzero hs.2
        · rw [Function.update_of_ne hk]
          rfl
      · rw [hdest, Function.update_self]
        exact hs.2
      · rw [hslot]
        rfl

theorem Good.store (h : peers.Good e sourced) {i : Nat} {slot : Slot} {sent : List Packet}
    (hpeer : slot.peer = (peers.ctx.peers i).peer)
    (hactive : slot.active = (peers.ctx.peers i).active)
    (hsends : i < e.maxPeers → slot.active = true → slot.Sends e sent)
    (hhearing : slot.hearing = (peers.ctx.slotInitPeer i).hearing) :
    Good e sourced ⟨peers.ctx.store i slot, Function.update peers.sent i sent⟩ := by
  have hother : ∀ j, j ≠ i → (peers.ctx.store i slot).peers j = peers.ctx.peers j := fun j hj =>
    Ctx.store_peers_of_ne hj _
  refine ⟨fun j hj hon => ?_, fun j hj hon => ?_, fun hs j hj hon => ?_⟩
  · by_cases hji : j = i
    · subst hji
      rw [Ctx.store_peers_self] at hon ⊢
      rw [hpeer]
      exact h.peer j hj (hactive.symm.trans hon)
    · rw [hother j hji] at hon ⊢
      exact h.peer j hj hon
  · by_cases hji : j = i
    · subst hji
      dsimp only
      rw [Ctx.slotInitPeer_store_self, Function.update_self]
      rw [Ctx.store_peers_self] at hon
      exact hsends hj hon
    · rw [hother j hji] at hon
      have hsame : ((peers.ctx.store i slot).slotInitPeer j).own = (peers.ctx.slotInitPeer j).own := by
        unfold Slot.own Ctx.slotInitPeer
        rw [hother j hji]
      dsimp only
      rw [Function.update_of_ne hji]
      exact (h.sends j hj hon).of_own hsame
  · by_cases hji : j = i
    · subst hji
      rw [Ctx.slotInitPeer_store_self]
      rw [Ctx.store_peers_self] at hon
      exact (h.heard hs j hj (hactive.symm.trans hon)).of_hearing hhearing
    · rw [hother j hji] at hon
      have hsame : ((peers.ctx.store i slot).slotInitPeer j).hearing =
          (peers.ctx.slotInitPeer j).hearing := by
        unfold Slot.hearing Ctx.slotInitPeer
        rw [hother j hji]
      exact (h.heard hs j hj hon).of_hearing hsame

theorem act_good (hkind : e.type = .unicastBidirN1) (h : peers.Good e sourced) (action : Action) :
    (peers.act e action).Good e (sourced ∧ action.Sourced) := by
  cases action with
  | table action =>
    have hgood : ∀ i < e.maxPeers, ((peers.ctx.act e action).peers i).active = true → _ :=
      fun i hi hon => by
        have hserved : Ctx.Becomes e peers.ctx i action
            ((peers.ctx.act e action).slotInitPeer i).toPeerContext :=
          Ctx.act_becomes peers.ctx action hi
        exact served_good hkind h hi hserved hon
    exact ⟨fun i hi hon => (hgood i hi hon).1, fun i hi hon => (hgood i hi hon).2.1,
      fun hs i hi hon => (hgood i hi hon).2.2 hs⟩
  | data peerId packed =>
    have hweak : peers.Good e (sourced ∧ (Action.data peerId packed).Sourced) :=
      ⟨h.peer, h.sends, fun hs => h.heard hs.1⟩
    cases hfind : peers.ctx.findById e peerId with
    | none =>
      have hact : peers.act e (.data peerId packed) = peers := by simp only [act, hfind]
      rw [hact]
      exact hweak
    | some i =>
      have hact : peers.act e (.data peerId packed) =
          ⟨peers.ctx.store i ((peers.ctx.slotInitPeer i).flushPacked e packed),
            Function.update peers.sent i (peers.sent i ++
              ((peers.ctx.slotInitPeer i).packedContainer e packed).toList)⟩ := by
        simp only [act, hfind]
      rw [hact]
      have hflags := Slot.flushPacked_peer (e := e) (peers.ctx.slotInitPeer i) packed
      refine hweak.store hflags.1 hflags.2 (fun hi hon => ?_) (Slot.flushPacked_hearing _ packed)
      exact Slot.flushPacked_sends (h.sends i hi (hflags.2.symm.trans hon)) packed
  | ping peerId healthStates =>
    have hweak : peers.Good e (sourced ∧ (Action.ping peerId healthStates).Sourced) :=
      ⟨h.peer, h.sends, fun hs => h.heard hs.1⟩
    cases hfind : peers.ctx.findById e peerId with
    | none =>
      have hact : peers.act e (.ping peerId healthStates) = peers := by simp only [act, hfind]
      rw [hact]
      exact hweak
    | some i =>
      have hact : peers.act e (.ping peerId healthStates) = { peers with
          ctx := peers.ctx.store i ((peers.ctx.slotInitPeer i).sendPing e healthStates) } := by
        simp only [act, hfind]
      rw [hact]
      have hbeside := Slot.sendPing_beside (e := e) (peers.ctx.slotInitPeer i) healthStates
      have hactive : ((peers.ctx.slotInitPeer i).sendPing e healthStates).active =
          (peers.ctx.peers i).active := congrArg Conn.active hbeside.conn
      have hstored := hweak.store hbeside.peer hactive
        (fun hi hon => (h.sends i hi (hactive.symm.trans hon)).of_own
          (Slot.own_of_outlet hbeside.outlet)) (Slot.hearing_of_links hbeside.links)
      rw [Function.update_eq_self] at hstored
      exact hstored

theorem run_good (hkind : e.type = .unicastBidirN1) (h : peers.Good e sourced)
    (actions : List Action) :
    (actions.foldl (act e) peers).Good e (sourced ∧ ∀ action ∈ actions, action.Sourced) := by
  induction actions generalizing peers sourced with
  | nil => exact ⟨h.peer, h.sends, fun hs => h.heard hs.1⟩
  | cons action rest ih =>
    have hrun := ih (act_good hkind h action)
    refine ⟨hrun.peer, hrun.sends, fun hs => hrun.heard ⟨⟨hs.1, ?_⟩, fun a ha => ?_⟩⟩
    · exact hs.2 action List.mem_cons_self
    · exact hs.2 a (List.mem_cons_of_mem _ ha)

theorem acts_good (hkind : e.type = .unicastBidirN1) (actions : List Action) :
    (actions.foldl (act e) (opened e)).Good e (True ∧ ∀ action ∈ actions, action.Sourced) :=
  run_good hkind ⟨fun _ _ h => absurd h Bool.false_ne_true, fun _ _ h => absurd h Bool.false_ne_true,
    fun _ _ _ h => absurd h Bool.false_ne_true⟩ actions

end

end Duplexes

-- A NACK that the duplicate filter lets through is answered with the packet it asks for, or with
-- a REJECT where that packet is no longer retained. A bidirectional service does so in the
-- sender's role only, an N:1 service for every peer that has a destination.
theorem nack_answered_iff (e : Env) :
    (e.type = .unicastBidir → ∀ sessionId sessionTs destAddr actions path source pkt,
      path.val < e.nPath → pkt.isNack = true →
      let duplex := List.foldl (Duplex.act e) (Duplex.opened e sessionId sessionTs destAddr) actions
      (duplex.slot.nackIsDuplicate e pkt.ackNum).2 = false →
      (duplex.slot.Answered e (duplex.slot.step e (.packet path source pkt))
        (duplex.slot.reply e (e.recent duplex.sent) pkt.ackNum) ↔ e.role = .sender)) ∧
    (e.type = .unicastBidirN1 → ∀ actions i path source pkt, path.val < e.nPath → pkt.isNack = true →
      let peers := List.foldl (Duplexes.act e) (Duplexes.opened e) actions
      let slot := peers.ctx.slotInitPeer i
      peers.ctx.findBySession e pkt = some i →
      (slot.nackIsDuplicate e pkt.ackNum).2 = false →
      (slot.Answered e ((peers.ctx.step e (.packet path source pkt)).slotInitPeer i)
        (slot.reply e (e.recent (peers.sent i)) pkt.ackNum) ↔ slot.dests e ≠ []) ∧
      ((∀ action ∈ actions, action.Sourced) → slot.dests e ≠ [])) := by
  constructor
  · intro hkind sessionId sessionTs destAddr actions path source pkt hpath hnack duplex hfresh
    have h : duplex.Good e := Duplex.acts_good sessionId sessionTs destAddr actions
    rw [← h.2.retained_eq]
    exact Slot.step_answered_iff hkind h.1 h.2.sent hnack hfresh hpath source
  · intro hkind actions i path source pkt hpath hnack peers slot hfind hfresh
    have h : peers.Good e _ := Duplexes.acts_good hkind actions
    have hraw : e.type.isRawType = false := by
      rw [hkind]
      rfl
    have hi : i < e.maxPeers := List.mem_range.mp (List.mem_of_find?_eq_some hfind)
    have hactive : (peers.ctx.peers i).active = true := by
      have hfound := List.find?_some hfind
      simp only [Bool.and_eq_true] at hfound
      exact hfound.1.1
    have hpeer : slot.peer.isSome = true := h.peer i hi hactive
    have hsends : slot.Sends e (peers.sent i) := h.sends i hi hactive
    have hbit : pkt.has FLAG_NACK = true := by
      simp only [Packet.isNack, Bool.and_eq_true] at hnack
      exact hnack.1
    have hstep : (peers.ctx.step e (.packet path source pkt)).slotInitPeer i =
        (slot.emit (.recv pkt)).onNack e pkt := by
      have heq : peers.ctx.step e (.packet path source pkt) = peers.ctx.store i
          ((slot.emit (.recv pkt)).dispatchPacket e pkt path source) := by
        refine (if_neg (Nat.not_le.mpr hpath)).trans ?_
        unfold Ctx.n1HandlePacket
        rw [hfind]
      rw [heq, Ctx.slotInitPeer_store_self, Slot.dispatchPacket_nack hnack]
      exact if_pos hpeer
    constructor
    · rw [hstep, ← hsends.retained_eq]
      refine ⟨fun hanswered => hanswered.1, fun hdests => ?_⟩
      rw [← Slot.nackIsDuplicate_emit slot (.recv pkt)] at hfresh
      exact (Slot.onNack_answers hraw (by exact hsends.sent) hbit hfresh (by exact hdests)).of_recv
    · intro hsourced
      exact (h.heard ⟨trivial, hsourced⟩ i hi hactive).dests_ne_nil hpeer

-- One DATA packet was sent and is asked for again.
theorem nack_answered_iff_sample :
    (let e := Env.sampleSender .unicastBidir
      let nack := Packet.buildNack Packet.sampleSession 0
      let duplex := List.foldl (Duplex.act e) (Duplex.opened e 3 ⟨2, 0⟩ fun _ => .target)
        [.data (Elem.encode ⟨0, [1]⟩)]
      duplex.slot.Answered e (duplex.slot.step e (.sampleBack nack))
        (duplex.slot.reply e (e.recent duplex.sent) 0)) ∧
    (let e := Env.sample .unicastBidirN1
      let nack := Packet.buildNack Packet.sampleSession 0
      let peers := List.foldl (Duplexes.act e) (Duplexes.opened e)
        [.table (.recv (.sample (.samplePing 7))), .data 1 (Elem.encode ⟨0, [1]⟩)]
      let slot := peers.ctx.slotInitPeer 0
      slot.Answered e ((peers.ctx.step e (.sample nack)).slotInitPeer 0)
        (slot.reply e (e.recent (peers.sent 0)) 0)) := by
  constructor
  · exact ((nack_answered_iff (Env.sampleSender .unicastBidir)).1 rfl 3 ⟨2, 0⟩ (fun _ => .target)
      [.data (Elem.encode ⟨0, [1]⟩)] 0 .target (Packet.buildNack Packet.sampleSession 0) (by decide)
      rfl (by decide +kernel)).mpr rfl
  · have h := (nack_answered_iff (Env.sample .unicastBidirN1)).2 rfl
      [.table (.recv (.sample (.samplePing 7))), .data 1 (Elem.encode ⟨0, [1]⟩)] 0 0 .source
      (Packet.buildNack Packet.sampleSession 0) (by decide) rfl (by decide +kernel) (by decide +kernel)
    refine h.1.mpr (h.2 fun action hmem => ?_)
    simp only [List.mem_cons, List.not_mem_nil, or_false] at hmem
    rcases hmem with rfl | rfl
    · exact (by decide : (1 : UInt32) ≠ 0)
    · trivial

-- The other end of a bidirectional service holds the packet it is asked for and keeps silent.
theorem receiver_ignores_nack :
    let e := Env.sample .unicastBidir
    let nack := Packet.buildNack Packet.sampleSession 0
    let duplex := List.foldl (Duplex.act e) (Duplex.opened e 3 ⟨2, 0⟩ fun _ => .source)
      [.data (Elem.encode ⟨0, [1]⟩)]
    (duplex.slot.nackIsDuplicate e 0).2 = false ∧ (e.recent duplex.sent).map (·.seqNum) = [0] ∧
      ¬ duplex.slot.Answered e (duplex.slot.step e (.sample nack))
        (duplex.slot.reply e (e.recent duplex.sent) 0) := by
  intro e nack duplex
  refine ⟨by decide +kernel, by decide +kernel, ?_⟩
  have hnack : nack.isNack = true := by decide
  have hstep : duplex.slot.step e (.sample nack) = duplex.slot.emit (.recv nack) :=
    Slot.step_nack rfl (Duplex.acts_good 3 ⟨2, 0⟩ _ _).1 hnack (by decide) .source
  rw [hstep]
  exact Slot.not_answered_of_recv duplex.slot nack _

end Porter
