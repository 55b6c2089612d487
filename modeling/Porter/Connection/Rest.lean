import Porter.Moves.Phases
import Porter.Recv.Frame

namespace Porter.Slot

open View

-- What holds of the slot in use between two rounds, beside `Ok`: the connected paths are those
-- its PING states make so, only a tracked session is connected, and a pending FIN still waits.
structure Rest (e : Env) (slot : Slot) : Prop where
  settled : slot.pathLogicalAlive = slot.nextPathStates e
  known : slot.healthAlive = true → slot.peerSessionKnown = true
  fin : slot.pendingFin = true → slot.recvWindow.nextSeq ≠ slot.finTargetSeq

-- A slot of a 1:1 service or of a peer that has not been released.
def Used (slot : Slot) : Prop := slot.peer = none ∨ slot.active = true

section

variable {e : Env} {slot slot' : Slot}

theorem nextPathStates_of_links (h : slot'.links = slot.links) :
    slot'.nextPathStates e = slot.nextPathStates e := by
  have hpeer : slot'.peer = slot.peer := congrArg (fun l : Links => l.peer) h
  have hping : slot'.pathPingState = slot.pathPingState := congrArg Links.pathPingState h
  have hremote : slot'.remotePathPingState = slot.remotePathPingState :=
    congrArg Links.remotePathPingState h
  have htcp : slot'.tcpConnFd = slot.tcpConnFd := congrArg Links.tcpConnFd h
  unfold nextPathStates copyTcpPathStates copyBidirPathStates copyOnewayPathStates
  rw [hpeer, hping, hremote, htcp]

theorem Rest.of_links (h : Rest e slot) (hlinks : slot'.links = slot.links)
    (hknown : slot.peerSessionKnown = true → slot'.peerSessionKnown = true)
    (hfin : slot'.pendingFin = true → slot'.recvWindow.nextSeq ≠ slot'.finTargetSeq) :
    Rest e slot' where
  settled := by
    rw [nextPathStates_of_links hlinks, ← h.settled]
    exact congrArg (fun l : Links => l.states) hlinks
  known halive := hknown (h.known ((congrArg (fun l : Links => l.alive) hlinks).symm.trans halive))
  fin := hfin

theorem known_of_core (h : (slot'.view e).core = (slot.view e).core) :
    slot'.peerSessionKnown = slot.peerSessionKnown := congrArg Prod.fst h

theorem fin_of_core (h : (slot'.view e).core = (slot.view e).core)
    (hfin : slot.pendingFin = true → slot.recvWindow.nextSeq ≠ slot.finTargetSeq) :
    slot'.pendingFin = true → slot'.recvWindow.nextSeq ≠ slot'.finTargetSeq := by
  simp only [View.core, Prod.mk.injEq] at h
  obtain ⟨-, hwin, hpending, htarget⟩ := h
  rw [show slot'.pendingFin = slot.pendingFin from hpending,
    show slot'.recvWindow = slot.recvWindow from hwin,
    show slot'.finTargetSeq = slot.finTargetSeq from htarget]
  exact hfin

theorem Rest.of_core (h : Rest e slot) (hlinks : slot'.links = slot.links)
    (hcore : (slot'.view e).core = (slot.view e).core) : Rest e slot' :=
  h.of_links hlinks (fun hk => (known_of_core hcore).trans hk) (fin_of_core hcore h.fin)

private theorem syncPathStateLocked_links (slot : Slot) (states : Path → Bool) :
    (slot.syncPathStateLocked e states).links =
      { slot.links with states := states, alive := anyPathAlive states } := by
  unfold syncPathStateLocked
  rw [callbackEmits_links]
  rfl

theorem syncPathState_settled (slot : Slot) :
    (slot.syncPathState e).pathLogicalAlive = (slot.syncPathState e).nextPathStates e := by
  have hlinks := syncPathStateLocked_links (e := e) slot (slot.nextPathStates e)
  have hstates : (slot.syncPathState e).pathLogicalAlive = slot.nextPathStates e :=
    congrArg (fun l : Links => l.states) hlinks
  have hnext : (slot.syncPathState e).nextPathStates e = slot.nextPathStates e := by
    unfold syncPathState syncPathStateLocked callbackEmits
    split <;> rfl
  rw [hstates, hnext]

-- All paths are given up and nothing is left of their PING states.
def Cut (slot : Slot) : Prop :=
  (slot.pathPingState = fun _ => PING_STATE_UNDEFINED) ∧
    (slot.pathLogicalAlive = fun _ => false) ∧ slot.healthAlive = false

theorem Cut.of_links (h : slot.Cut) (hlinks : slot'.links = slot.links) : slot'.Cut :=
  ⟨(congrArg Links.pathPingState hlinks).trans h.1,
    (congrArg (fun l : Links => l.states) hlinks).trans h.2.1,
    (congrArg (fun l : Links => l.alive) hlinks).trans h.2.2⟩

theorem Cut.rest (h : slot.Cut)
    (hfin : slot.pendingFin = true → slot.recvWindow.nextSeq ≠ slot.finTargetSeq) : Rest e slot where
  settled := by
    rw [h.2.1]
    unfold nextPathStates copyTcpPathStates copyBidirPathStates copyOnewayPathStates
    rw [h.1]
    funext k
    split
    · rfl
    split
    · exact (Bool.and_false _).symm
    split <;> rfl
  known halive := by
    rw [h.2.2] at halive
    cases halive
  fin := hfin

theorem cut_disconnectAllPaths (slot : Slot) : (slot.clearPathPingStates.disconnectAllPaths e).Cut := by
  have hlinks := syncPathStateLocked_links (e := e) slot.clearPathPingStates fun _ => false
  exact ⟨congrArg Links.pathPingState hlinks, congrArg (fun l : Links => l.states) hlinks,
    (congrArg (fun l : Links => l.alive) hlinks).trans anyPathAlive_false⟩

theorem disconnectAllPaths_told (hcallback : e.callback = true) (halive : slot.healthAlive = true) :
    ∃ rest, (slot.disconnectAllPaths e).log = slot.log ++ rest ∧
      (slot.peerId, .event .disconnected) ∈ rest := by
  unfold disconnectAllPaths syncPathStateLocked callbackEmits
  rw [if_pos hcallback]
  refine ⟨_, rfl, ?_⟩
  rw [List.map_map]
  refine List.mem_map.mpr ⟨.disconnected, ?_, rfl⟩
  unfold preparedPathEvents
  rw [halive, anyPathAlive_false, if_neg Bool.noConfusion, if_neg Bool.noConfusion]
  exact List.mem_append_right _ List.mem_cons_self

theorem disconnectAllPaths_mute (hstates : slot.pathLogicalAlive = fun _ => false)
    (halive : slot.healthAlive = false) : (slot.disconnectAllPaths e).log = slot.log := by
  have hnone : slot.preparedPathEvents (fun _ => false) = [] := by
    unfold preparedPathEvents
    rw [hstates, halive, anyPathAlive_false]
    simp
  unfold disconnectAllPaths syncPathStateLocked callbackEmits
  rw [hnone]
  split
  · exact List.append_nil _
  · rfl

-- A drain of a window whose head is missing does nothing before a pending FIN is reached.
theorem slotDrainRecvWindow_still (hwf : slot.recvWindow.RecvWF) (hhead : slot.HeadEmpty)
    (hfin : slot.pendingFin = true → slot.recvWindow.nextSeq ≠ slot.finTargetSeq) :
    slot.slotDrainRecvWindow e = (slot, true) := by
  have hloop : slot.drainLoop e slot.recvWindow.windowSize = slot :=
    drainLoop_none _ ((Window.recvPop_eq_none hwf).mpr hhead)
  rw [slotDrainRecvWindow_eq, hloop, if_neg]
  intro hreached
  unfold finPendingReached at hreached
  rw [Bool.and_eq_true, decide_eq_true_eq] at hreached
  exact hfin hreached.1 hreached.2

theorem finFire_rest (slot : Slot) (target : UInt32) (hused : (slot.finFire e target).Used) :
    Rest e (slot.finFire e target) := by
  unfold finFire at hused ⊢
  by_cases hpeer : slot.peer.isSome = true
  · -- The peer is released.
    exfalso
    rw [if_pos hpeer] at hused
    have hview := view_peerFree (e := e)
      { slot.disconnectAllPaths e with pendingFin := false, finTargetSeq := 0 }
    rcases hused with hnone | hactive
    · have hkeep := (disconnectAllPaths_turns (e := e) slot).peer_eq
      have hpeer' := (congrArg View.peer hview).symm.trans hnone
      rw [show slot.peer = none from hkeep.symm.trans hpeer'] at hpeer
      cases hpeer
    · exact Bool.false_ne_true ((congrArg View.active hview).symm.trans hactive)
  · rw [if_neg hpeer] at hused ⊢
    generalize (if e.type.isTcpType = true then
      slot.emit (.sendTcp (Packet.buildFinAck (slot.ownSessionHdr e) target)) else slot) = acked
    obtain ⟨hping, hstates, halive⟩ := cut_disconnectAllPaths acked
    exact Cut.rest ⟨hping, hstates, halive⟩ fun hp => absurd hp Bool.false_ne_true

theorem slotDrainRecvWindow_rest (slot : Slot)
    (hsettled : slot.pathLogicalAlive = slot.nextPathStates e)
    (hknown : slot.healthAlive = true → slot.peerSessionKnown = true)
    (hused : (slot.slotDrainRecvWindow e).1.Used) : Rest e (slot.slotDrainRecvWindow e).1 := by
  rw [slotDrainRecvWindow_eq] at hused ⊢
  have hlinks := drainLoop_links (e := e) slot.recvWindow.windowSize slot
  have hsame : (slot.drainLoop e slot.recvWindow.windowSize).peerSessionKnown =
      slot.peerSessionKnown :=
    drainLoop_preserves (P := fun v : View => v.known = slot.peerSessionKnown)
      slot.recvWindow.windowSize (fun v pkt win _ _ hv => (popped_known pkt win).trans hv) rfl
  split at hused
  · rename_i hreached
    rw [if_pos hreached]
    exact finFire_rest _ _ hused
  · rename_i hreached
    rw [if_neg hreached]
    refine ⟨?_, fun halive => ?_, fun hpending hnext => hreached ?_⟩
    · rw [nextPathStates_of_links hlinks, ← hsettled]
      exact congrArg (fun l : Links => l.states) hlinks
    · rw [hsame]
      exact hknown ((congrArg (fun l : Links => l.alive) hlinks).symm.trans halive)
    · unfold finPendingReached
      rw [hpending, hnext]
      simp

-- Letting a packet in starts the session it names, or leaves everything as it is.
theorem sessionAdopt_rest (hlex : e.plat.CmpLex) (h : Rest e slot) (pkt : Packet) :
    Rest e (slot.sessionAdopt e pkt).1 ∧
      ((slot.sessionAdopt e pkt).2 = true → (slot.sessionAdopt e pkt).1.peerSessionKnown = true) := by
  rcases sessionAdopt_cases hlex slot pkt with heq | ⟨heq, hknown, -⟩ | ⟨heq, -⟩
  · rw [heq]
    exact ⟨h, fun hno => absurd hno Bool.false_ne_true⟩
  · rw [heq]
    exact ⟨h, fun _ => hknown⟩
  · rw [heq]
    refine ⟨h.of_links rfl (fun _ => rfl) fun hp => absurd hp Bool.false_ne_true, fun _ => rfl⟩

theorem learnSenderPath_rest (h : Rest e slot) (path : Path) (sender : Endpoint) :
    Rest e (slot.learnSenderPath e path sender) := by
  have hview := view_learnSenderPath (e := e) slot path sender
  have hnext : (slot.learnSenderPath e path sender).nextPathStates e = slot.nextPathStates e := by
    unfold learnSenderPath
    dsimp only
    split
    · split <;> rfl
    · split <;> rfl
  have hconn := learnSenderPath_conn (e := e) slot path sender
  refine ⟨?_, fun halive => ?_, ?_⟩
  · rw [hnext, ← h.settled]
    exact congrArg Conn.states hconn
  · rw [known_of_core (congrArg View.core hview)]
    exact h.known ((congrArg Conn.alive hconn).symm.trans halive)
  · exact fin_of_core (congrArg View.core hview) h.fin

theorem onReject_rest (hlex : e.plat.CmpLex) (h : Rest e slot) (pkt : Packet) (path : Path)
    (sender : Endpoint) (hused : (slot.onReject e pkt path sender).Used) :
    Rest e (slot.onReject e pkt path sender) := by
  rw [onReject_eq] at hused ⊢
  split at hused
  · rename_i hraw
    rw [if_pos hraw]
    exact h
  rename_i hraw
  rw [if_neg hraw]
  split at hused
  · rename_i hno
    rw [if_pos hno]
    exact (sessionAdopt_rest hlex h pkt).1
  rename_i hyes
  rw [if_neg hyes]
  have hcut := cut_disconnectAllPaths (e := e) ((slot.sessionAdopt e pkt).1.learnSenderPath e path sender)
  generalize ((slot.sessionAdopt e pkt).1.learnSenderPath e path
    sender).clearPathPingStates.disconnectAllPaths e = dead at hcut hused ⊢
  have hskip := hcut.of_links
    (skipRecvWindow_beside { dead with reorderPending := false } pkt.ackNum).links
  -- Only what comes before the drain matters here: nothing is connected.
  have hrest : Rest e { skipRecvWindow { dead with reorderPending := false } pkt.ackNum with
      pendingFin := false } :=
    Cut.rest hskip fun hp => absurd hp Bool.false_ne_true
  exact slotDrainRecvWindow_rest _ hrest.settled
    (fun halive => absurd (hskip.2.2.symm.trans halive) Bool.noConfusion) hused

theorem dispatchFin_rest (hlex : e.plat.CmpLex) (h : Rest e slot) (pkt : Packet)
    (hused : (slot.dispatchFin e pkt).Used) : Rest e (slot.dispatchFin e pkt) := by
  rw [dispatchFin_eq] at hused ⊢
  dsimp only at hused ⊢
  have hadopt : Rest e (if slot.peer.isNone then slot.sessionAdopt e pkt else (slot, true)).1 := by
    split
    · exact (sessionAdopt_rest hlex h pkt).1
    · exact h
  generalize (if slot.peer.isNone then slot.sessionAdopt e pkt else (slot, true)) = adopted
    at hadopt hused ⊢
  split at hused
  · rename_i hno
    rw [if_pos hno]
    exact hadopt
  rename_i hyes
  rw [if_neg hyes]
  split at hused
  · rename_i hfire
    rw [if_pos hfire]
    exact finFire_rest _ _ hused
  · rename_i hfire
    rw [if_neg hfire]
    unfold finOnPacket
    split
    · exact hadopt
    · split
      · rename_i htarget
        rw [Bool.and_eq_true, bne_iff_ne] at htarget
        exact hadopt.of_links rfl id fun _ => htarget.2
      · exact hadopt

private theorem scanLoop_keeps (pkt : Packet) (fuel : Nat) (slot : Slot) (scanSeq : UInt32) :
    ((scanLoop e pkt fuel slot scanSeq).1.view e).core = (slot.view e).core := by
  induction fuel generalizing slot scanSeq with
  | zero => rfl
  | succ fuel ih =>
    rw [scanLoop_succ]
    obtain ⟨pending, nackNum, hv⟩ := view_reorderGapReady slot scanSeq
    split
    · split
      · exact ih slot _
      · split
        · obtain ⟨dests, hn⟩ := view_slotSendNack (slot.reorderGapReady e scanSeq).1 scanSeq
          rw [hv] at hn
          exact (ih _ _).trans (congrArg View.core hn :)
        · exact (congrArg View.core hv :)
    · rfl

theorem scanPingGap_keeps (slot : Slot) (pkt : Packet)
    (hfin : slot.pendingFin = true → slot.recvWindow.nextSeq ≠ slot.finTargetSeq) :
    (slot.scanPingGap e pkt).peerSessionKnown = slot.peerSessionKnown ∧
      ((slot.scanPingGap e pkt).pendingFin = true →
        (slot.scanPingGap e pkt).recvWindow.nextSeq ≠ (slot.scanPingGap e pkt).finTargetSeq) := by
  have hsame : ∀ s : Slot, (s.view e).core = (slot.view e).core →
      s.peerSessionKnown = slot.peerSessionKnown ∧
        (s.pendingFin = true → s.recvWindow.nextSeq ≠ s.finTargetSeq) := fun s hcore =>
    ⟨known_of_core hcore, fin_of_core hcore hfin⟩
  rw [scanPingGap_eq]
  split
  · split
    · obtain ⟨pending, nackNum, acts, -, hv⟩ := view_nackGap slot slot.recvWindow.nextSeq
      exact hsame _ (congrArg View.core hv :)
    · exact ⟨rfl, hfin⟩
  split
  · split
    · obtain ⟨pending, nackNum, hv⟩ := view_reorderGapReady slot slot.recvWindow.nextSeq
      split
      · refine ⟨?_, fun hp => absurd hp Bool.false_ne_true⟩
        obtain ⟨evs, -, hr⟩ := view_rawSessionDisconnect (e := e)
          (slot.reorderGapReady e slot.recvWindow.nextSeq).1
        have hk := (congrArg View.known hr).trans (synced_known false evs)
        exact hk.trans (congrArg View.known hv)
      · exact hsame _ (congrArg View.core hv :)
    · exact ⟨rfl, hfin⟩
  · have hscan := scanLoop_keeps (e := e) pkt slot.recvWindow.windowSize slot
      slot.recvWindow.nextSeq
    split
    · exact hsame _ hscan
    · exact hsame _ hscan

theorem scanPingGap_links (slot : Slot) (pkt : Packet) (hraw : e.type.isRawType = false) :
    (slot.scanPingGap e pkt).links = slot.links := by
  rw [scanPingGap_eq, hraw]
  have hscan := (scanLoop_beside (e := e) pkt slot.recvWindow.windowSize slot
    slot.recvWindow.nextSeq).links
  split
  · split
    · exact (nackGap_beside slot _).links
    · rfl
  · rw [if_neg Bool.false_ne_true]
    split
    · exact hscan
    · exact hscan

theorem dispatchPing_rest (h : Rest e slot) (hknown : slot.peerSessionKnown = true) (pkt : Packet)
    (path : Path) : Rest e (slot.dispatchPing e pkt path) := by
  have hview := view_pinged (e := e) slot pkt path
  rw [dispatchPing_eq]
  generalize slot.pinged e pkt path = seen at hview ⊢
  have hseen : seen.peerSessionKnown = true := (congrArg View.known hview).trans hknown
  have hfin : seen.pendingFin = true → seen.recvWindow.nextSeq ≠ seen.finTargetSeq :=
    fin_of_core (congrArg View.core hview) h.fin
  have hsync : ∀ s : Slot, s.peerSessionKnown = true →
      (s.pendingFin = true → s.recvWindow.nextSeq ≠ s.finTargetSeq) → Rest e (s.syncPathState e) := by
    intro s hk hf
    obtain ⟨evs, -, hv⟩ := view_syncPathStateLocked (e := e) s (s.nextPathStates e)
    have hcore := (congrArg View.core hv).trans (synced_core _ evs)
    exact ⟨syncPathState_settled s, fun _ => (known_of_core hcore).trans hk, fin_of_core hcore hf⟩
  split
  · obtain ⟨hk, hf⟩ := scanPingGap_keeps seen pkt hfin
    exact hsync _ (hk.trans hseen) hf
  · rename_i hraw
    have hrest := hsync seen hseen hfin
    obtain ⟨hk, hf⟩ := scanPingGap_keeps (seen.syncPathState e) pkt hrest.fin
    exact hrest.of_links (scanPingGap_links _ pkt (by simpa using hraw)) (fun hon => hk.trans hon) hf

private theorem rawResync_known (slot : Slot) (pkt : Packet) :
    (slot.rawResync e pkt).1.peerSessionKnown = slot.peerSessionKnown := by
  obtain ⟨evs, -, hv⟩ := view_rawSessionDisconnect (e := e) slot
  have hk := (congrArg View.known hv).trans (synced_known false evs)
  unfold rawResync pushRecvWindow
  split
  · exact hk
  · exact hk

private theorem acceptPush_known (slot : Slot) (pkt : Packet) :
    (slot.acceptPush e pkt).1.peerSessionKnown = slot.peerSessionKnown := by
  cases hpush : slot.recvWindow.recvPush pkt with
  | some win =>
    rw [acceptPush_some hpush]
    rfl
  | none =>
    rw [acceptPush_none hpush]
    split
    · exact rawResync_known slot pkt
    · rfl

private theorem acceptGap_known (slot : Slot) (pkt : Packet) :
    (slot.acceptGap e pkt).1.peerSessionKnown = slot.peerSessionKnown := by
  cases hneeds : slot.recvWindow.recvNeedsNack with
  | none =>
    rw [acceptGap_none hneeds]
  | some seq =>
    by_cases hraw : e.type.isRawType = true
    · rw [acceptGap_raw hneeds hraw]
      obtain ⟨pending, nackNum, hv⟩ := view_reorderGapReady slot seq
      split
      · exact (rawResync_known _ pkt).trans (congrArg View.known hv)
      · exact congrArg View.known hv
    · obtain ⟨pending, nackNum, acts, -, hv⟩ := view_nackGap slot seq
      rw [acceptGap_nack hneeds (by simpa using hraw)]
      exact congrArg View.known hv

theorem acceptGap_beside (slot : Slot) (pkt : Packet) (hraw : e.type.isRawType = false) :
    slot.Beside (slot.acceptPush e pkt).1 ∧
      slot.Beside ((slot.acceptPush e pkt).1.acceptGap e pkt).1 := by
  have hpush : slot.Beside (slot.acceptPush e pkt).1 := by
    unfold acceptPush
    dsimp only
    split
    · exact pushRecvWindow_beside slot pkt
    · rw [if_neg (by rw [hraw]; exact Bool.false_ne_true)]
      exact .refl slot
  refine ⟨hpush, hpush.trans ?_⟩
  cases hneeds : (slot.acceptPush e pkt).1.recvWindow.recvNeedsNack with
  | none =>
    rw [acceptGap_none hneeds]
    exact .of_eq rfl rfl
  | some seq =>
    rw [acceptGap_nack hneeds hraw]
    exact nackGap_beside _ seq

theorem acceptHealth_settled (h : Rest e slot) {gapped : Slot} (hpeer : gapped.peer = slot.peer)
    (hkind : slot.peer ≠ none → e.type = .unicastBidirN1)
    (hlinks : e.type.isRawType = false → gapped.links = slot.links) {pkt : Packet}
    (hdata : pkt.has FLAG_DATA = true) (path : Path) :
    (gapped.acceptHealth e pkt path).pathLogicalAlive =
      (gapped.acceptHealth e pkt path).nextPathStates e := by
  unfold acceptHealth
  split
  · exact syncPathState_settled _
  · rename_i hguard
    have hraw : e.type.isRawType = false := by
      by_contra hraw
      have hnone : slot.peer = none := by
        by_contra hne
        simp [hkind hne, PotrType.isRawType] at hraw
      refine hguard ?_
      have hbidir : e.type ≠ .unicastBidir := fun htype => by simp [htype, PotrType.isRawType] at hraw
      simp [hpeer, hnone, hdata, hbidir]
    have hsame := hlinks hraw
    rw [nextPathStates_of_links hsame, ← h.settled]
    exact congrArg (fun l : Links => l.states) hsame

theorem acceptPostDrain_rest (h : Rest e slot) : Rest e (slot.acceptPostDrain e) := by
  obtain ⟨pending, nackNum, acts, hv⟩ : ∃ pending nackNum, ∃ acts : List Act,
      (slot.acceptPostDrain e).view e =
        View.emits { slot.view e with pending := pending, nackNum := nackNum } acts := by
    unfold acceptPostDrain
    split
    · exact ⟨false, slot.reorderNackNum, [], by rw [View.emits_nil]; rfl⟩
    · rename_i seq hneeds
      split
      · exact ⟨slot.reorderPending, slot.reorderNackNum, [], by rw [View.emits_nil]; rfl⟩
      · obtain ⟨pending, nackNum, acts, -, hv⟩ := view_nackGap slot seq
        exact ⟨pending, nackNum, acts, hv⟩
  exact h.of_core (acceptPostDrain_beside slot).links (congrArg View.core hv :)

theorem settle_rest (slot : Slot) (hsettled : slot.pathLogicalAlive = slot.nextPathStates e)
    (hknown : slot.healthAlive = true → slot.peerSessionKnown = true)
    (hused : (slot.settle e).Used) : Rest e (slot.settle e) := by
  unfold settle at hused ⊢
  split at hused
  · rename_i hgoes
    rw [if_pos hgoes]
    have hconn := (acceptPostDrain_beside (e := e) (slot.slotDrainRecvWindow e).1).conn
    have hdrained : (slot.slotDrainRecvWindow e).1.Used := by
      unfold Used at hused ⊢
      rw [show ((slot.slotDrainRecvWindow e).1.acceptPostDrain e).peer = _ from
        congrArg Conn.peer hconn, show ((slot.slotDrainRecvWindow e).1.acceptPostDrain e).active = _
        from congrArg Conn.active hconn] at hused
      exact hused
    exact acceptPostDrain_rest (slotDrainRecvWindow_rest slot hsettled hknown hdrained)
  · rename_i hstops
    rw [if_neg hstops]
    exact slotDrainRecvWindow_rest slot hsettled hknown hused

theorem acceptOuter_rest (h : Rest e slot) (hknown : slot.peerSessionKnown = true)
    (hinv : Inv e (slot.view e)) {pkt : Packet} (hdata : pkt.has FLAG_DATA = true) (path : Path)
    (hused : (slot.acceptOuter e pkt path).Used) : Rest e (slot.acceptOuter e pkt path) := by
  have hk := (acceptGap_known (e := e) (slot.acceptPush e pkt).1 pkt).trans (acceptPush_known slot pkt)
  have hlinks := fun hraw => (acceptGap_beside (e := e) slot pkt hraw).2.links
  rcases acceptGap_cases pkt hinv with ⟨-, -, hout⟩ | ⟨gapped, hok, hgap, hpeer, -, -⟩
  · rw [acceptOuter_eq, hout]
    exact h
  · rw [hgap] at hk hlinks
    have heq : slot.acceptOuter e pkt path = (gapped.acceptHealth e pkt path).settle e := by
      rw [acceptOuter_eq, hok, hgap]
      rfl
    rw [heq] at hused ⊢
    refine settle_rest _ (acceptHealth_settled h hpeer hinv.kind hlinks hdata path) (fun _ => ?_) hused
    exact ((acceptHealth_idle gapped pkt path).known.trans hk).trans hknown

private theorem sessionAdopt_inv (hlex : e.plat.CmpLex) (hinv : Inv e (slot.view e)) (pkt : Packet) :
    Inv e ((slot.sessionAdopt e pkt).1.view e) := by
  rcases sessionAdopt_cases hlex slot pkt with heq | ⟨heq, -, -⟩ | ⟨heq, -⟩
  · rw [heq]
    exact hinv
  · rw [heq]
    exact hinv
  · rw [heq]
    exact ⟨hinv.kind, Window.init_wf e.windowSize_pos e.windowSize_le, rfl, fun _ => rfl⟩

theorem onNack_rest (h : Rest e slot) (pkt : Packet) : Rest e (slot.onNack e pkt) := by
  refine h.of_core (onNack_beside slot pkt).links ?_
  rcases view_onNack slot pkt with hv | ⟨-, dests, hv⟩
  · exact (congrArg View.core hv :)
  · exact (congrArg View.core hv :)

theorem dispatchPacket_rest (hlex : e.plat.CmpLex) (h : Rest e slot) (hok : Ok e slot)
    (pkt : Packet) (path : Path) (sender : Endpoint)
    (hused : (slot.dispatchPacket e pkt path sender).Used) :
    Rest e (slot.dispatchPacket e pkt path sender) := by
  rw [dispatchPacket_eq] at hused ⊢
  split at hused
  · rename_i hfin
    rw [if_pos hfin]
    exact dispatchFin_rest hlex h pkt hused
  rename_i hfin
  rw [if_neg hfin]
  split at hused
  · rename_i hnack
    rw [if_pos hnack]
    split
    · exact onNack_rest h pkt
    · exact h
  rename_i hnack
  rw [if_neg hnack]
  split at hused
  · rename_i hreject
    rw [if_pos hreject]
    exact onReject_rest hlex h pkt path sender hused
  rename_i hreject
  rw [if_neg hreject]
  split at hused
  · rename_i hother
    rw [if_pos hother]
    exact h
  rename_i hother
  rw [if_neg hother]
  obtain ⟨hadopted, hknown⟩ := sessionAdopt_rest hlex h pkt
  split at hused
  · rename_i hno
    rw [if_pos hno]
    exact hadopted
  rename_i hyes
  rw [if_neg hyes]
  have hk := hknown (by simpa using hyes)
  have hlearned := learnSenderPath_rest hadopted path sender
  have hview := view_learnSenderPath (e := e) (slot.sessionAdopt e pkt).1 path sender
  have hinv := sessionAdopt_inv hlex hok.inv pkt
  rw [← hview] at hinv
  generalize (slot.sessionAdopt e pkt).1.learnSenderPath e path sender = learned
    at hlearned hview hinv hused ⊢
  have hk' : learned.peerSessionKnown = true := (congrArg View.known hview).trans hk
  split at hused
  · rename_i hping
    rw [if_pos hping]
    exact dispatchPing_rest hlearned hk' pkt path
  · rename_i hping
    rw [if_neg hping]
    have hdata : pkt.has FLAG_DATA = true := by
      simp only [has_or, Bool.not_eq_true, Bool.not_eq_false', Bool.or_eq_true] at hother hping
      exact hother.resolve_right (by rw [hping]; exact Bool.false_ne_true)
    exact acceptOuter_rest hlearned hk' hinv hdata path hused

-- The health check of a 1:1 service

-- A path that a health check finds silent.
def silentPath (e : Env) (slot : Slot) (nowTs : Timespec) (k : Path) : Bool :=
  k.val < e.nPath && pathTimedOut e nowTs (slot.pathLastRecvTs k)

-- What the loop over the paths reads and writes of one of them.
structure PathCell where
  last : Timespec
  ping : UInt8
  dest : Endpoint

def pathCell (slot : Slot) (k : Path) : PathCell :=
  ⟨slot.pathLastRecvTs k, slot.pathPingState k, slot.destAddr k⟩

-- The destination that a silent path is left with.
def silentDest (e : Env) (dest : Endpoint) : Endpoint :=
  let dest := if e.type = .unicastBidir && !e.srcAddrGiven then { dest with address := 0 } else dest
  if e.type = .unicastBidir && e.srcPort = 0 then { dest with port := 0 } else dest

def PathCell.checked (e : Env) (nowTs : Timespec) (cell : PathCell) : PathCell :=
  if pathTimedOut e nowTs cell.last then
    ⟨{ cell.last with tvSec := 0 }, PING_STATE_ABNORMAL, silentDest e cell.dest⟩
  else cell

theorem servicePathLoop_cell_self (nowTs : Timespec) (acc : Slot × Bool) (i : Path) :
    (servicePathLoop e nowTs acc i).1.pathCell i = (acc.1.pathCell i).checked e nowTs := by
  have hcell : (acc.1.servicePathTimeout e i).pathCell i =
      ⟨{ acc.1.pathLastRecvTs i with tvSec := 0 }, PING_STATE_ABNORMAL,
        silentDest e (acc.1.destAddr i)⟩ := by
    simp only [pathCell, servicePathTimeout, setPathPingState, Function.update_self]
    rfl
  unfold servicePathLoop PathCell.checked
  by_cases hout : pathTimedOut e nowTs (acc.1.pathLastRecvTs i) = true
  · rw [if_pos hout]
    exact hcell.trans (if_pos hout).symm
  · rw [if_neg hout]
    exact (if_neg hout).symm

theorem servicePathLoop_cell_other (nowTs : Timespec) (acc : Slot × Bool) (i k : Path) (hk : k ≠ i) :
    (servicePathLoop e nowTs acc i).1.pathCell k = acc.1.pathCell k := by
  unfold servicePathLoop
  split
  · simp only [pathCell, servicePathTimeout, setPathPingState, Function.update_of_ne hk]
  · rfl

-- What else the loop leaves: the flag is set if a path became ABNORMAL.
private structure Looped (acc acc' : Slot × Bool) : Prop where
  unchanged : acc'.2 = false → acc.2 = false ∧ acc'.1.pathPingState = acc.1.pathPingState
  remote : acc'.1.remotePathPingState = acc.1.remotePathPingState
  tcp : acc'.1.tcpConnFd = acc.1.tcpConnFd
  last : acc'.1.lastRecvTs = acc.1.lastRecvTs

private theorem servicePathLoop_looped (nowTs : Timespec) (acc : Slot × Bool) (i : Path) :
    Looped acc (servicePathLoop e nowTs acc i) := by
  unfold servicePathLoop
  split
  · refine ⟨fun hsame => ?_, rfl, rfl, rfl⟩
    obtain ⟨hacc, hstate⟩ := Bool.or_eq_false_iff.mp hsame
    have hwas : acc.1.pathPingState i = PING_STATE_ABNORMAL := by simpa using hstate
    refine ⟨hacc, ?_⟩
    change Function.update acc.1.pathPingState i PING_STATE_ABNORMAL = acc.1.pathPingState
    rw [← hwas]
    exact Function.update_eq_self ..
  · exact ⟨fun hsame => ⟨hsame, rfl⟩, rfl, rfl, rfl⟩

private theorem servicePathLoops_looped (nowTs : Timespec) (l : List Path) (acc : Slot × Bool) :
    Looped acc (l.foldl (servicePathLoop e nowTs) acc) := by
  apply Run.foldl_preserves (P := Looped acc) _ ⟨fun h => ⟨h, rfl⟩, rfl, rfl, rfl⟩
  intro mid i h
  have hstep := servicePathLoop_looped (e := e) nowTs mid i
  refine ⟨fun hsame => ?_, hstep.remote.trans h.remote, hstep.tcp.trans h.tcp,
    hstep.last.trans h.last⟩
  obtain ⟨hmid, hping⟩ := hstep.unchanged hsame
  exact ⟨(h.unchanged hmid).1, hping.trans (h.unchanged hmid).2⟩

private theorem openPaths_nodup : (openPaths e).Nodup := (List.nodup_finRange MAX_PATH).filter _

theorem mem_openPaths {k : Path} : k ∈ openPaths e ↔ k.val < e.nPath := by
  unfold openPaths paths
  rw [List.mem_filter]
  simp

private theorem healthLooped_conn (slot : Slot) : (slot.healthLooped e).1.conn = slot.conn :=
  (servicePathLoops_conn (slot.now e) (slot.tickOnce, false) (openPaths e)).1

theorem healthLooped_cell (slot : Slot) (k : Path) :
    (slot.healthLooped e).1.pathCell k =
      if k.val < e.nPath then (slot.pathCell k).checked e (slot.now e) else slot.pathCell k := by
  split
  · rename_i hk
    exact Run.foldl_cell_of_mem (fun acc : Slot × Bool => acc.1.pathCell)
      (servicePathLoop_cell_self (slot.now e)) (servicePathLoop_cell_other (slot.now e))
      openPaths_nodup (mem_openPaths.mpr hk) (slot.tickOnce, false)
  · rename_i hk
    exact Run.foldl_cell_of_not_mem (fun acc : Slot × Bool => acc.1.pathCell)
      (servicePathLoop_cell_other (slot.now e)) (fun hmem => hk (mem_openPaths.mp hmem))
      (slot.tickOnce, false)

theorem healthLooped_cell_silent (slot : Slot) (k : Path) :
    (slot.healthLooped e).1.pathCell k =
      if slot.silentPath e (slot.now e) k then
        ⟨{ slot.pathLastRecvTs k with tvSec := 0 }, PING_STATE_ABNORMAL, silentDest e (slot.destAddr k)⟩
      else slot.pathCell k := by
  rw [healthLooped_cell]
  unfold silentPath PathCell.checked
  by_cases hk : k.val < e.nPath
  · simp only [hk, if_true, decide_true, Bool.true_and]
    rfl
  · simp only [hk, if_false, decide_false, Bool.false_and, Bool.false_eq_true]

theorem nextPathStates_apply (slot : Slot) (k : Path) :
    slot.nextPathStates e k =
      if slot.peer.isSome then
        pathStateIsNormal (slot.pathPingState k) && pathStateIsNormal (slot.remotePathPingState k)
      else if e.type.isTcpType then slot.tcpConnFd k &&
        (pathStateIsNormal (slot.pathPingState k) && pathStateIsNormal (slot.remotePathPingState k))
      else if e.type = .unicastBidir then
        pathStateIsNormal (slot.pathPingState k) && pathStateIsNormal (slot.remotePathPingState k)
      else pathStateIsNormal (slot.pathPingState k) := by
  unfold nextPathStates
  split
  · rfl
  split
  · rfl
  split <;> rfl

theorem healthSynced_settled (h : Rest e slot) :
    (slot.healthSynced e).pathLogicalAlive = (slot.healthSynced e).nextPathStates e := by
  have hloop : Looped (slot.tickOnce, false) (slot.healthLooped e) :=
    servicePathLoops_looped (slot.now e) (openPaths e) (slot.tickOnce, false)
  have hconn := healthLooped_conn (e := e) slot
  unfold healthSynced syncLooped
  split
  · exact syncPathState_settled _
  · rename_i hflag
    have hpeer : (slot.healthLooped e).1.peer = slot.peer := congrArg Conn.peer hconn
    have hremote : (slot.healthLooped e).1.remotePathPingState = slot.remotePathPingState :=
      hloop.remote
    have htcp : (slot.healthLooped e).1.tcpConnFd = slot.tcpConnFd := hloop.tcp
    have hkept : (slot.healthLooped e).1.pathPingState = slot.pathPingState :=
      (hloop.unchanged (by simpa using hflag)).2
    have hsame : (slot.healthLooped e).1.nextPathStates e = slot.nextPathStates e := by
      funext k
      rw [nextPathStates_apply, nextPathStates_apply, hpeer, hremote, htcp, hkept]
    rw [hsame, ← h.settled]
    exact congrArg Conn.states hconn

theorem healthSynced_states (h : Rest e slot) (k : Path) :
    (slot.healthSynced e).pathLogicalAlive k =
      (slot.pathLogicalAlive k && !slot.silentPath e (slot.now e) k) := by
  have hloop : Looped (slot.tickOnce, false) (slot.healthLooped e) :=
    servicePathLoops_looped (slot.now e) (openPaths e) (slot.tickOnce, false)
  have hconn := healthLooped_conn (e := e) slot
  have hpeer : (slot.healthLooped e).1.peer = slot.peer := congrArg Conn.peer hconn
  have hremote : (slot.healthLooped e).1.remotePathPingState = slot.remotePathPingState := hloop.remote
  have htcp : (slot.healthLooped e).1.tcpConnFd = slot.tcpConnFd := hloop.tcp
  have hping : (slot.healthLooped e).1.pathPingState k =
      if slot.silentPath e (slot.now e) k then PING_STATE_ABNORMAL else slot.pathPingState k := by
    refine (congrArg PathCell.ping (healthLooped_cell_silent slot k)).trans ?_
    split <;> rfl
  have hnormal : pathStateIsNormal ((slot.healthLooped e).1.pathPingState k) =
      (pathStateIsNormal (slot.pathPingState k) && !slot.silentPath e (slot.now e) k) := by
    rw [hping]
    by_cases hs : slot.silentPath e (slot.now e) k = true
    · rw [if_pos hs, hs, Bool.not_true, Bool.and_false]
      rfl
    · rw [if_neg hs]
      simp [hs]
  -- The states that the PING states after the loop stand for.
  have hnext : (slot.healthLooped e).1.nextPathStates e k =
      (slot.nextPathStates e k && !slot.silentPath e (slot.now e) k) := by
    rw [nextPathStates_apply, nextPathStates_apply, hpeer, hremote, htcp, hnormal]
    generalize pathStateIsNormal (slot.pathPingState k) = a
    generalize pathStateIsNormal (slot.remotePathPingState k) = b
    generalize slot.silentPath e (slot.now e) k = c
    generalize slot.tcpConnFd k = d
    split
    · cases a <;> cases b <;> cases c <;> rfl
    split
    · cases a <;> cases b <;> cases c <;> cases d <;> rfl
    split
    · cases a <;> cases b <;> cases c <;> rfl
    · rfl
  rw [congrFun (healthSynced_settled h) k, congrFun h.settled k, ← hnext]
  unfold healthSynced syncLooped
  split
  · unfold syncPathState syncPathStateLocked callbackEmits
    split <;> rfl
  · rfl

theorem view_healthSynced (slot : Slot) :
    ∃ alive evs, (slot.healthSynced e).view e = (slot.view e).synced e alive evs ∧
      (slot.healthSynced e).lastRecvTs = slot.lastRecvTs ∧
      (slot.healthSynced e).healthAlive = alive := by
  have hview := view_healthLooped (e := e) slot
  have hlast : (slot.healthLooped e).1.lastRecvTs = slot.lastRecvTs :=
    (servicePathLoops_looped (slot.now e) (openPaths e) (slot.tickOnce, false)).last
  unfold healthSynced syncLooped
  split
  · obtain ⟨evs, -, hv⟩ := view_syncPathStateLocked (slot.healthLooped e).1
      ((slot.healthLooped e).1.nextPathStates e)
    have hlinks := syncPathStateLocked_links (e := e) (slot.healthLooped e).1
      ((slot.healthLooped e).1.nextPathStates e)
    rw [hview] at hv
    exact ⟨_, evs, hv, (congrArg Links.lastRecvTs hlinks).trans hlast,
      congrArg (fun l : Links => l.alive) hlinks⟩
  · refine ⟨slot.healthAlive, [], ?_, hlast, congrArg View.alive hview⟩
    rw [hview]
    have hsame : Event.ofAlive slot.healthAlive slot.healthAlive = [] := if_pos rfl
    simp [View.synced, View.callbackEmits, view, hsame]

theorem healthSynced_alive
    (halive : slot.healthAlive = anyPathAlive slot.pathLogicalAlive) :
    (slot.healthSynced e).healthAlive = anyPathAlive (slot.healthSynced e).pathLogicalAlive := by
  unfold healthSynced syncLooped
  split
  · have hlinks := syncPathStateLocked_links (e := e) (slot.healthLooped e).1
      ((slot.healthLooped e).1.nextPathStates e)
    exact (congrArg (fun l : Links => l.alive) hlinks).trans
      (congrArg anyPathAlive (congrArg (fun l : Links => l.states) hlinks).symm)
  · have hconn := healthLooped_conn (e := e) slot
    rw [show (slot.healthLooped e).1.pathLogicalAlive = slot.pathLogicalAlive from
      congrArg Conn.states hconn, ← halive]
    exact congrArg Conn.alive hconn

theorem healthSynced_rest (h : Rest e slot)
    (halive : slot.healthAlive = anyPathAlive slot.pathLogicalAlive) : Rest e (slot.healthSynced e) := by
  have hany := healthSynced_alive (e := e) halive
  obtain ⟨alive, evs, hv, -, -⟩ := view_healthSynced (e := e) slot
  have hcore := (congrArg View.core hv).trans (synced_core alive evs)
  refine ⟨healthSynced_settled h, fun hon => ?_, fin_of_core hcore h.fin⟩
  · -- A path that is connected now was connected before.
    rw [hany] at hon
    obtain ⟨k, hk, hstate⟩ := List.any_eq_true.mp hon
    rw [healthSynced_states h, Bool.and_eq_true] at hstate
    have hbefore : slot.healthAlive = true := by
      rw [halive]
      exact List.any_eq_true.mpr ⟨k, hk, hstate.1⟩
    exact (known_of_core hcore).trans (h.known hbefore)

theorem serviceTimeout_rest (slot : Slot) : Rest e (slot.serviceTimeout e) := by
  obtain ⟨hping, hstates, halive⟩ := cut_disconnectAllPaths
    { slot with pendingFin := false, finTargetSeq := 0, reorderPending := false }
  refine Cut.rest ⟨hping, hstates, halive⟩ fun hp => ?_
  obtain ⟨evs, -, hv⟩ := view_disconnectAllPaths (clearPathPingStates
    { slot with pendingFin := false, finTargetSeq := 0, reorderPending := false })
  have hoff : (slot.serviceTimeout e).pendingFin = false :=
    (congrArg View.pendingFin hv).trans (synced_pendingFin false evs)
  rw [hoff] at hp
  cases hp

theorem healthCheckService_rest (h : Rest e slot)
    (halive : slot.healthAlive = anyPathAlive slot.pathLogicalAlive) :
    Rest e (slot.healthCheckService e) := by
  rcases healthCheckService_cases slot with heq | heq | heq
  · rwa [heq]
  · rw [heq]
    exact healthSynced_rest h halive
  · rw [heq]
    exact serviceTimeout_rest _

theorem checkReorderTimeout_rest (h : Rest e slot) : Rest e (slot.checkReorderTimeout e) := by
  rw [checkReorderTimeout_eq]
  split
  · exact h
  obtain ⟨pending, nackNum, hv⟩ := view_reorderGapReady slot slot.reorderNackNum
  have hready : Rest e (slot.reorderGapReady e slot.reorderNackNum).1 :=
    h.of_core (reorderGapReady_beside slot _).links (congrArg View.core hv :)
  generalize slot.reorderGapReady e slot.reorderNackNum = ready at hready ⊢
  split
  · exact hready
  split
  · obtain ⟨hping, hstates, hdead⟩ := cut_disconnectAllPaths ready.1
    exact Cut.rest ⟨hping, hstates, hdead⟩ fun hp => absurd hp Bool.false_ne_true
  · obtain ⟨dests, hn⟩ := view_slotSendNack ready.1 ready.1.reorderNackNum
    exact hready.of_core (slotSendNack_beside _ _).links (congrArg View.core hn :)

theorem onPollTimeout_rest (h : Rest e slot)
    (halive : slot.healthAlive = anyPathAlive slot.pathLogicalAlive) :
    Rest e (slot.onPollTimeout e) := by
  have hpoll : Rest e (slot.emit .poll) := h.of_links rfl id h.fin
  unfold onPollTimeout
  split
  · have hcheck := healthCheckService_rest hpoll halive
    split
    · exact checkReorderTimeout_rest hcheck
    · exact hcheck
  · exact hpoll

theorem step_rest (hlex : e.plat.CmpLex) (hpeer : slot.peer = none) (hok : Ok e slot)
    (halive : slot.healthAlive = anyPathAlive slot.pathLogicalAlive) (h : Rest e slot)
    (input : Input) : Rest e (slot.step e input) := by
  cases input with
  | pollTimeout => exact onPollTimeout_rest h halive
  | packet path sender pkt =>
    have hstep := (step_turns (e := e) slot hpeer (.packet path sender pkt)).peer_eq
    rw [step_packet_eq] at hstep ⊢
    have hrecv : Rest e (slot.emit (.recv pkt)) := h.of_links rfl id h.fin
    have hhandle : Rest e ((slot.emit (.recv pkt)).senderHandlePacket e pkt).1 ∧
        Ok e ((slot.emit (.recv pkt)).senderHandlePacket e pkt).1 := by
      unfold senderHandlePacket
      split
      · exact ⟨hrecv, emit_ok hok _⟩
      · exact ⟨onNack_rest hrecv pkt, onNack_ok (emit_ok hok _)⟩
    split at hstep
    · rename_i hout
      rw [if_pos hout]
      exact h
    rename_i hin
    rw [if_neg hin]
    split at hstep
    · rename_i hrole
      rw [if_pos hrole]
      split at hstep
      · rename_i hgo
        rw [if_pos hgo]
        exact dispatchPacket_rest hlex hhandle.1 hhandle.2 pkt path sender
          (.inl (hstep.trans hpeer))
      · rename_i hgo
        rw [if_neg hgo]
        exact hhandle.1
    · rename_i hrole
      rw [if_neg hrole]
      exact dispatchPacket_rest hlex hrecv (emit_ok hok _) pkt path sender
        (.inl (hstep.trans hpeer))

theorem opened_rest (sessionId : UInt32) (sessionTs : Timespec) (destAddr : Path → Endpoint) :
    Rest e (opened e sessionId sessionTs destAddr) :=
  Cut.rest ⟨rfl, rfl, rfl⟩ fun hp => absurd hp Bool.false_ne_true

-- All that is known of a reachable state of a 1:1 service.
structure Resting (e : Env) (slot : Slot) : Prop where
  peer : slot.peer = none
  ok : Ok e slot
  alive : slot.healthAlive = anyPathAlive slot.pathLogicalAlive
  rest : Rest e slot

theorem step_resting (hlex : e.plat.CmpLex) (h : Resting e slot) (input : Input) :
    Resting e (slot.step e input) where
  peer := (step_turns slot h.peer input).peer_eq.trans h.peer
  ok := (step_moves hlex h.peer h.ok input).2
  alive := (step_turns slot h.peer input).alive_eq h.alive
  rest := step_rest hlex h.peer h.ok h.alive h.rest input

theorem run_resting (hlex : e.plat.CmpLex) (sessionId : UInt32) (sessionTs : Timespec)
    (destAddr : Path → Endpoint) (inputs : List Input) :
    Resting e ((opened e sessionId sessionTs destAddr).run e inputs) :=
  Run.foldl_preserves (P := Resting e) (fun _ input h => step_resting hlex h input)
    ⟨rfl, opened_ok sessionId sessionTs destAddr, anyPathAlive_false.symm,
      opened_rest sessionId sessionTs destAddr⟩
    inputs

end

end Porter.Slot
