import Porter.Connection.Reject

namespace Porter

open View

namespace Slot

-- Between two states the slot has logged an entry with property `P`.
def Logged (slot after : Slot) (P : Act → Prop) : Prop :=
  ∃ rest, after.log = slot.log ++ rest ∧ ∃ act, (slot.peerId, act) ∈ rest ∧ P act

def Asked (slot after : Slot) (seq : UInt32) : Prop :=
  slot.Logged after fun act => ∃ win, act = .nack seq win

-- A NACK for `seq` was passed to a socket.
def Requested (e : Env) (slot after : Slot) (seq : UInt32) : Prop :=
  slot.Logged after fun act => ∃ path dest,
    act = .send path dest (Packet.buildNack (slot.ownSessionHdr e) seq)

def ArmedFor (slot : Slot) (seq : UInt32) : Prop :=
  slot.reorderPending = true ∧ slot.reorderNackNum = seq

instance (slot : Slot) (seq : UInt32) : Decidable (slot.ArmedFor seq) :=
  inferInstanceAs (Decidable (_ ∧ _))

-- A NACK finds a way to the other end.
def Reaches (e : Env) (slot : Slot) : Prop :=
  if slot.peer.isSome then ∃ i, (slot.destAddr i).isUnset = false
  else e.type = .unicastBidir ∨ ∃ i : Path, i.val < e.nPath ∧ (slot.nackDest e i).port ≠ 0

section

variable {e : Env} {slot mid after : Slot} {pkt : Packet} {P : Act → Prop}

theorem Logged.prepend (h : mid.Logged after P) (hpeer : mid.peer = slot.peer)
    (hlog : slot.log <+: mid.log) : slot.Logged after P := by
  obtain ⟨rest, hrest⟩ := hlog
  obtain ⟨rest', hrest', act, hact, hP⟩ := h
  have hid : mid.peerId = slot.peerId := congrArg (Option.getD · PEER_NA) hpeer
  rw [hid] at hact
  refine ⟨rest ++ rest', ?_, act, List.mem_append_right _ hact, hP⟩
  rw [hrest', ← hrest, List.append_assoc]

theorem Logged.append (h : slot.Logged mid P) (hlog : mid.log <+: after.log) :
    slot.Logged after P := by
  obtain ⟨rest, hrest, act, hact, hP⟩ := h
  obtain ⟨rest', hrest'⟩ := hlog
  refine ⟨rest ++ rest', ?_, act, List.mem_append_left _ hact, hP⟩
  rw [← hrest', hrest, List.append_assoc]

theorem logged_emits {acts : List Act} {act : Act} (hact : act ∈ acts) (hP : P act) :
    slot.Logged (slot.emits acts) P :=
  ⟨_, rfl, act, List.mem_map.mpr ⟨act, hact, rfl⟩, hP⟩

theorem Reaches.of_paths (h : slot.Reaches e) (hpeer : after.peer = slot.peer)
    (hdest : after.destAddr = slot.destAddr) (hport : after.peerPort = slot.peerPort) :
    after.Reaches e := by
  unfold Reaches nackDest at h ⊢
  rw [hpeer, hdest, hport]
  exact h

theorem slotSendNack_asked (slot : Slot) (seq : UInt32) :
    slot.Asked (slot.slotSendNack e seq) seq := by
  obtain ⟨dests, hv⟩ := view_slotSendNack slot seq
  exact ⟨_, congrArg View.log hv, _, List.mem_cons_self, slot.recvWindow, rfl⟩

theorem slotSendNack_requested (h : slot.Reaches e) (seq : UInt32) :
    slot.Requested e (slot.slotSendNack e seq) seq := by
  have hnoted : slot.log <+: (slot.emit (.nack seq slot.recvWindow)).log := ⟨_, rfl⟩
  unfold Reaches at h
  change slot.Requested e (if (slot.peer.isSome || decide (e.type = .unicastBidir)) = true then
    (if slot.peer.isSome = true then _ else _) else _) seq
  by_cases hpeer : slot.peer.isSome = true
  · rw [if_pos hpeer] at h
    obtain ⟨i, hi⟩ := h
    rw [hpeer, Bool.true_or, if_pos rfl, if_pos rfl]
    refine Logged.prepend (logged_emits (List.mem_map.mpr ⟨i, ?_, rfl⟩) ⟨i, _, rfl⟩) rfl hnoted
    refine List.mem_filter.mpr ⟨List.mem_finRange i, ?_⟩
    change (!(slot.destAddr i).isUnset) = true
    rw [hi]
    rfl
  · rw [if_neg hpeer] at h
    rw [if_neg hpeer]
    by_cases hbidir : e.type = .unicastBidir
    · rw [if_pos (by simp [hbidir])]
      have hpos := e.nPath_bounds.1
      refine Logged.prepend (logged_emits (List.mem_map.mpr ⟨0, ?_, rfl⟩) ⟨0, _, rfl⟩) rfl hnoted
      exact mem_openPaths.mpr hpos
    · obtain ⟨i, hi, hport⟩ := h.resolve_left hbidir
      rw [if_neg (by simp [hpeer, hbidir])]
      refine Logged.prepend (logged_emits (List.mem_map.mpr ⟨i, ?_, rfl⟩) ⟨i, _, rfl⟩) rfl hnoted
      refine List.mem_filter.mpr ⟨mem_openPaths.mpr hi, ?_⟩
      exact bne_iff_ne.mpr hport

theorem nackGap_logged {seq : UInt32}
    (hsend : ∀ ready : Slot, ready.links = slot.links → ready.log = slot.log →
      ready.Logged (ready.slotSendNack e seq) P) :
    slot.Logged (slot.nackGap e seq) P ∨ (slot.nackGap e seq).ArmedFor seq := by
  rw [nackGap_eq]
  unfold slotGapReady
  by_cases hpeer : slot.peer.isSome = true
  · rw [if_pos hpeer, if_pos rfl]
    exact .inl (hsend slot rfl rfl)
  · rw [if_neg hpeer]
    have hbeside := reorderGapReady_beside (e := e) slot seq
    obtain ⟨_, _, hv⟩ := view_reorderGapReady slot seq
    have hlog : (slot.reorderGapReady e seq).1.log = slot.log := congrArg View.log hv
    have hsent := (hsend _ hbeside.links hlog).prepend hbeside.peer (hlog ▸ List.prefix_refl _)
    rcases reorderGapReady_cases slot seq with ⟨hr, -⟩ | ⟨hr, -⟩ | ⟨hr, -, hv⟩
    · rw [if_pos hr]
      exact .inl hsent
    · rw [if_pos hr]
      exact .inl hsent
    · rw [if_neg (by rw [hr]; exact Bool.false_ne_true)]
      exact .inr ⟨congrArg View.pending hv, congrArg View.nackNum hv⟩

theorem nackGap_asked (slot : Slot) (seq : UInt32) :
    slot.Asked (slot.nackGap e seq) seq ∨ (slot.nackGap e seq).ArmedFor seq :=
  nackGap_logged fun ready _ _ => slotSendNack_asked ready seq

theorem nackGap_requested (h : slot.Reaches e) (seq : UInt32) :
    slot.Requested e (slot.nackGap e seq) seq ∨ (slot.nackGap e seq).ArmedFor seq := by
  refine nackGap_logged fun ready hlinks _ => ?_
  have hreach : ready.Reaches e := h.of_paths (congrArg (fun l : Links => l.peer) hlinks)
    (congrArg Links.destAddr hlinks) (congrArg Links.peerPort hlinks)
  have hown : ready.ownSessionHdr e = slot.ownSessionHdr e := by
    unfold ownSessionHdr
    rw [show ready.sessionId = slot.sessionId from congrArg Links.sessionId hlinks,
      show ready.sessionTs = slot.sessionTs from congrArg Links.sessionTs hlinks]
  rw [← hown]
  exact slotSendNack_requested hreach seq

theorem acceptHealth_keeps (slot : Slot) (pkt : Packet) (path : Path) :
    (slot.acceptHealth e pkt path).peer = slot.peer ∧
      (slot.acceptHealth e pkt path).destAddr = slot.destAddr ∧
      (slot.acceptHealth e pkt path).peerPort = slot.peerPort ∧
      (slot.acceptHealth e pkt path).ownSessionHdr e = slot.ownSessionHdr e ∧
      (slot.acceptHealth e pkt path).pendingFin = slot.pendingFin ∧
      (slot.acceptHealth e pkt path).finTargetSeq = slot.finTargetSeq ∧
      slot.log <+: (slot.acceptHealth e pkt path).log := by
  unfold acceptHealth
  split
  · unfold syncPathState syncPathStateLocked callbackEmits
    split
    · exact ⟨rfl, rfl, rfl, rfl, rfl, rfl, _, rfl⟩
    · exact ⟨rfl, rfl, rfl, rfl, rfl, rfl, List.prefix_refl _⟩
  · exact ⟨rfl, rfl, rfl, rfl, rfl, rfl, List.prefix_refl _⟩

-- The state in which the last gap check finds a slot that a packet beyond the next number has
-- entered.
structure Waiting (e : Env) (slot mid : Slot) : Prop where
  peer : mid.peer = slot.peer
  dest : mid.destAddr = slot.destAddr
  port : mid.peerPort = slot.peerPort
  own : mid.ownSessionHdr e = slot.ownSessionHdr e
  held : ∀ seq p, slot.recvWindow.held seq = some p → mid.recvWindow.held seq = some p
  log : slot.log <+: mid.log

theorem acceptOuter_out (hraw : e.type.isRawType = false) (hwf : slot.recvWindow.RecvWF)
    (hout : slot.recvWindow.windowSize ≤ Serial.dist pkt.seqNum slot.recvWindow.nextSeq)
    (path : Path) : slot.acceptOuter e pkt path = slot := by
  rw [acceptOuter_eq, acceptPush_none ((Window.recvPush_eq_none hwf).mpr hout), hraw]
  rfl

-- A packet in the window but not at its head is followed by a gap check, before the drain and
-- after it.
theorem acceptOuter_gap (hraw : e.type.isRawType = false) (hok : Ok e slot) (hrest : Rest e slot)
    (hpos : 0 < Serial.dist pkt.seqNum slot.recvWindow.nextSeq)
    (hin : Serial.dist pkt.seqNum slot.recvWindow.nextSeq < slot.recvWindow.windowSize)
    (path : Path) :
    ∃ mid, Waiting e slot mid ∧
      slot.acceptOuter e pkt path = mid.nackGap e slot.recvWindow.nextSeq := by
  have hwf : slot.recvWindow.RecvWF := hok.inv.wf
  obtain ⟨win, hpush⟩ : ∃ win, slot.recvWindow.recvPush pkt = some win :=
    Option.ne_none_iff_exists'.mp fun hnone =>
      absurd ((Window.recvPush_eq_none hwf).mp hnone) (Nat.not_le.mpr hin)
  have hwf' := Window.recvPush_wf hwf hpush
  have hnextSeq := Window.recvPush_nextSeq hpush
  have hne : slot.recvWindow.nextSeq ≠ pkt.seqNum := fun heq => by
    rw [heq, Serial.dist_self] at hpos
    exact Nat.lt_irrefl 0 hpos
  have hfree : win.held win.nextSeq = none := by
    rw [hnextSeq, Window.recvPush_held hwf hpush, if_neg hne]
    exact hok.head
  have hneeds : win.recvNeedsNack = some slot.recvWindow.nextSeq := by
    refine (Window.recvNeedsNack_eq_some hwf').mpr ⟨hnextSeq.symm, hfree, pkt.seqNum, ?_⟩
    rw [Window.recvPush_held hwf hpush, if_pos rfl]
    cases slot.recvWindow.held pkt.seqNum <;> simp
  -- The slot right before the drain.
  have hentered : (slot.pushed pkt win).Beside
      ((slot.pushed pkt win).nackGap e slot.recvWindow.nextSeq) := nackGap_beside _ _
  obtain ⟨pending, nackNum, acts, -, hv⟩ := view_nackGap (slot.pushed pkt win)
    slot.recvWindow.nextSeq
  generalize hgapped : (slot.pushed pkt win).nackGap e slot.recvWindow.nextSeq = gapped
    at hentered hv
  obtain ⟨hpeer, hdest, hport, hown, hpending, htarget, hlog⟩ :=
    acceptHealth_keeps gapped pkt path
  have hwin : (gapped.acceptHealth e pkt path).recvWindow = win := by
    rw [acceptHealth_recvWindow]
    exact congrArg View.win hv
  have hstill : (gapped.acceptHealth e pkt path).slotDrainRecvWindow e =
      (gapped.acceptHealth e pkt path, true) := by
    refine slotDrainRecvWindow_still (by rw [hwin]; exact hwf') ?_ ?_
    · unfold HeadEmpty
      rw [hwin]
      exact hfree
    · rw [hpending, htarget, hwin, hnextSeq,
        show gapped.pendingFin = slot.pendingFin from congrArg View.pendingFin hv,
        show gapped.finTargetSeq = slot.finTargetSeq from congrArg View.finTarget hv]
      exact hrest.fin
  refine ⟨gapped.acceptHealth e pkt path, ⟨?_, ?_, ?_, ?_, fun seq p hp => ?_, ?_⟩, ?_⟩
  · exact hpeer.trans hentered.peer
  · exact hdest.trans (congrArg Links.destAddr hentered.links)
  · exact hport.trans (congrArg Links.peerPort hentered.links)
  · exact hown.trans (congrArg View.own hv)
  · rw [hwin]
    exact Window.recvPush_keeps hwf hpush hp
  · have hpushed : slot.log <+: (slot.pushed pkt win).log := ⟨_, rfl⟩
    have hnacked : (slot.pushed pkt win).log <+: gapped.log := ⟨_, (congrArg View.log hv).symm⟩
    exact (hpushed.trans hnacked).trans hlog
  · rw [acceptOuter_eq, acceptPush_some hpush]
    rw [acceptGap_nack hneeds hraw, hgapped]
    rw [hstill]
    unfold acceptPostDrain
    rw [hwin, hneeds, hraw]
    rfl

theorem learnSenderPath_port (slot : Slot) (path : Path) (sender : Endpoint) :
    if slot.peer.isSome then ((slot.learnSenderPath e path sender).destAddr path).port = sender.port
    else (slot.learnSenderPath e path sender).peerPort path = sender.port := by
  unfold learnSenderPath
  dsimp only
  split
  · split
    · dsimp only
      rw [Function.update_self]
    · dsimp only
      rw [Function.update_self]
  · split
    · exact Function.update_self ..
    · exact Function.update_self ..

theorem learnSenderPath_reaches (slot : Slot) {path : Path} (hpath : path.val < e.nPath)
    {sender : Endpoint} (hport : sender.port ≠ 0) :
    (slot.learnSenderPath e path sender).Reaches e := by
  have hlearned := learnSenderPath_port (e := e) slot path sender
  have hpeer : (slot.learnSenderPath e path sender).peer = slot.peer :=
    congrArg View.peer (view_learnSenderPath slot path sender)
  unfold Reaches
  rw [hpeer]
  split
  · rename_i hsome
    rw [if_pos hsome] at hlearned
    refine ⟨path, ?_⟩
    simp [Endpoint.isUnset, hlearned, hport]
  · rename_i hnone
    rw [if_neg hnone] at hlearned
    refine .inr ⟨path, hpath, ?_⟩
    unfold nackDest
    split
    · rename_i hsrc
      exact hton16_ne_zero hsrc
    · rw [hlearned]
      exact hport

-- A DATA packet of the tracked session that is ahead of the next number.
structure Ahead (e : Env) (slot : Slot) (pkt : Packet) : Prop where
  data : pkt.IsData
  known : slot.peerSessionKnown = true
  session : (slot.view e).session = pkt.session
  pos : 0 < Serial.dist pkt.seqNum slot.recvWindow.nextSeq
  lt : Serial.dist pkt.seqNum slot.recvWindow.nextSeq < 2 ^ 31

theorem dispatchPacket_gap_iff (hlex : e.plat.CmpLex) (hraw : e.type.isRawType = false)
    (hok : Ok e slot) (hrest : Rest e slot) (h : slot.Ahead e pkt) {path : Path}
    (hpath : path.val < e.nPath) (sender : Endpoint) :
    let after := (slot.emit (.recv pkt)).dispatchPacket e pkt path sender
    (slot.Asked after slot.recvWindow.nextSeq ∨ after.ArmedFor slot.recvWindow.nextSeq ↔
      Serial.dist pkt.seqNum slot.recvWindow.nextSeq < e.windowSize ∨
        slot.ArmedFor slot.recvWindow.nextSeq) ∧
    (sender.port ≠ 0 → Serial.dist pkt.seqNum slot.recvWindow.nextSeq < e.windowSize →
      slot.Requested e after slot.recvWindow.nextSeq ∨
        after.ArmedFor slot.recvWindow.nextSeq) := by
  have hsize : slot.recvWindow.windowSize = e.windowSize := hok.inv.size
  have hview := view_learnSenderPath (e := e) (slot.emit (.recv pkt)) path sender
  have hnoted : Rest e (slot.emit (.recv pkt)) := hrest.of_links rfl id hrest.fin
  have hlearned := learnSenderPath_rest hnoted path sender
  have hreach : sender.port ≠ 0 →
      ((slot.emit (.recv pkt)).learnSenderPath e path sender).Reaches e :=
    learnSenderPath_reaches (slot.emit (.recv pkt)) hpath
  have hdispatch : (slot.emit (.recv pkt)).dispatchPacket e pkt path sender =
      ((slot.emit (.recv pkt)).learnSenderPath e path sender).acceptOuter e pkt path := by
    refine dispatchPacket_data h.data path sender (sessionAdopt_tracked hlex ?_ ?_)
    · exact h.known
    · exact h.session
  rw [hdispatch]
  generalize (slot.emit (.recv pkt)).learnSenderPath e path sender = learned
    at hview hlearned hreach ⊢
  have hwin : learned.recvWindow = slot.recvWindow := congrArg View.win hview
  have hpeer : learned.peer = slot.peer := congrArg View.peer hview
  have hlog : learned.log = slot.log ++ [(slot.peerId, .recv pkt)] := congrArg View.log hview
  have hown : learned.ownSessionHdr e = slot.ownSessionHdr e := congrArg View.own hview
  have hok' : Ok e learned :=
    ⟨by rw [hview]; exact (emit_ok hok (.recv pkt)).inv, by unfold HeadEmpty; rw [hwin]; exact hok.head⟩
  by_cases hin : Serial.dist pkt.seqNum slot.recvWindow.nextSeq < e.windowSize
  · obtain ⟨mid, hmid, heq⟩ := acceptOuter_gap hraw hok' hlearned (by rw [hwin]; exact h.pos)
      (by rw [hwin, hsize]; exact hin) path
    have hback : mid.peer = slot.peer := hmid.peer.trans hpeer
    have hgrown : slot.log <+: mid.log := List.IsPrefix.trans ⟨_, hlog.symm⟩ hmid.log
    rw [heq, hwin]
    refine ⟨⟨fun _ => .inl hin, fun _ => ?_⟩, fun hport _ => ?_⟩
    · rcases nackGap_asked mid slot.recvWindow.nextSeq with hasked | harmed
      · exact .inl (hasked.prepend hback hgrown)
      · exact .inr harmed
    · have hreach' : mid.Reaches e := (hreach hport).of_paths hmid.peer hmid.dest hmid.port
      rcases nackGap_requested hreach' slot.recvWindow.nextSeq with hsent | harmed
      · unfold Requested at hsent ⊢
        rw [hmid.own, hown] at hsent
        exact .inl (hsent.prepend hback hgrown)
      · exact .inr harmed
  · rw [acceptOuter_out hraw hok'.inv.wf (by rw [hwin, hsize]; exact Nat.not_lt.mp hin) path]
    have harmed : learned.ArmedFor slot.recvWindow.nextSeq ↔
        slot.ArmedFor slot.recvWindow.nextSeq := by
      unfold ArmedFor
      rw [show learned.reorderPending = slot.reorderPending from congrArg View.pending hview,
        show learned.reorderNackNum = slot.reorderNackNum from congrArg View.nackNum hview]
    -- The packet itself is all that was logged.
    have hsilent : ¬ slot.Asked learned slot.recvWindow.nextSeq := by
      rintro ⟨rest, hgrown, act, hact, win, rfl⟩
      obtain rfl := List.append_cancel_left (hlog.symm.trans hgrown)
      cases List.mem_singleton.mp hact
    refine ⟨⟨fun hgap => .inr (harmed.mp (hgap.resolve_left hsilent)), fun hcond => ?_⟩,
      fun _ hlt => absurd hlt hin⟩
    exact .inr (harmed.mpr (hcond.resolve_left hin))

end

end Slot

-- A DATA packet ahead of the next number makes a retransmitting receiver ask for that number, or
-- leaves the timer running for it, exactly when the packet is within the window or the timer was
-- running before. Where a NACK is asked for, one is sent.
theorem gap_detected_iff (e : Env) (hlex : e.plat.CmpLex) (hraw : e.type.isRawType = false)
    (hudp : e.type.isTcpType = false) :
    (e.type ≠ .unicastBidirN1 → e.Receives → ∀ sessionId sessionTs destAddr inputs path sender pkt,
      path.val < e.nPath →
      let slot := (Slot.opened e sessionId sessionTs destAddr).run e inputs
      let after := slot.step e (.packet path sender pkt)
      let next := slot.recvWindow.nextSeq
      slot.Ahead e pkt →
        (slot.Asked after next ∨ after.ArmedFor next ↔
          Serial.dist pkt.seqNum next < e.windowSize ∨ slot.ArmedFor next) ∧
        (sender.port ≠ 0 → Serial.dist pkt.seqNum next < e.windowSize →
          slot.Requested e after next ∨ after.ArmedFor next)) ∧
    (e.type = .unicastBidirN1 → ∀ (actions : List Ctx.Action) i path sender pkt,
      path.val < e.nPath →
      let ctx := actions.foldl (Ctx.act e) (Ctx.opened e)
      let slot := ctx.slotInitPeer i
      let after := (ctx.step e (.packet path sender pkt)).slotInitPeer i
      let next := slot.recvWindow.nextSeq
      ctx.Addressed e pkt i → slot.Ahead e pkt →
        (slot.Asked after next ∨ after.ArmedFor next ↔
          Serial.dist pkt.seqNum next < e.windowSize) ∧
        (sender.port ≠ 0 → Serial.dist pkt.seqNum next < e.windowSize →
          slot.Requested e after next)) := by
  constructor
  · intro _ hreceives sessionId sessionTs destAddr inputs path sender pkt hpath slot after next h
    have hresting : Slot.Resting e slot :=
      Slot.run_resting hlex sessionId sessionTs destAddr inputs
    have hafter : after = (slot.emit (.recv pkt)).dispatchPacket e pkt path sender :=
      Slot.step_dispatches (hreceives.of_udp hudp) sender hpath h.data.nack
    rw [hafter]
    exact Slot.dispatchPacket_gap_iff hlex hraw hresting.ok hresting.rest h hpath sender
  · intro hkind actions i path sender pkt hpath ctx slot after next hpeer h
    have hresting : Ctx.Resting e ctx := Ctx.acts_resting hlex hkind actions
    obtain ⟨hi, hactive, hsession⟩ := hpeer
    have hfind := Ctx.findBySession_of_session hlex hresting.table hi hactive hsession
    have hafter : after = (slot.emit (.recv pkt)).dispatchPacket e pkt path sender := by
      have hstep : ctx.step e (.packet path sender pkt) = ctx.store i
          ((slot.emit (.recv pkt)).dispatchPacket e pkt path sender) := by
        refine (if_neg (Nat.not_le.mpr hpath)).trans ?_
        unfold Ctx.n1HandlePacket
        rw [hfind]
      change (ctx.step e (.packet path sender pkt)).slotInitPeer i = _
      rw [hstep, Ctx.slotInitPeer_store_self]
    have hok := hresting.table.ok i hi hactive
    obtain ⟨hiff, hsent⟩ := Slot.dispatchPacket_gap_iff hlex hraw hok (hresting.rest i hi hactive) h
      hpath sender
    have hoff : ∀ s : Slot, Slot.Ok e s → s.peer ≠ none → ¬ s.ArmedFor next := by
      intro s hs hne harmed
      exact Bool.false_ne_true ((hs.inv.timer (.inl hne)).symm.trans harmed.1)
    have hne : slot.peer ≠ none := hresting.table.peer i hi hactive
    rw [← hafter] at hiff hsent
    have hafterOk : Slot.Ok e after ∧ after.peer ≠ none := by
      have hmoves := Slot.dispatchPacket_moves hlex pkt path sender (Slot.emit_ok hok (.recv pkt))
        (Slot.recv_early pkt) (.inr hactive)
      rw [hafter]
      exact ⟨hmoves.2, fun hnone => hne ((Moves.peer_eq hmoves.1).symm.trans hnone)⟩
    refine ⟨hiff.trans ⟨fun hc => hc.resolve_right (hoff slot hok hne), .inl⟩, fun hport hlt => ?_⟩
    exact (hsent hport hlt).resolve_right (hoff after hafterOk.1 hafterOk.2)

theorem gap_detected_iff_sample :
    (let e := Env.sample .unicast
      let slot := (Slot.sample e).run e [.sample (.samplePing 7)]
      slot.Requested e (slot.step e (.sample (.sampleData 9 [⟨0, [1]⟩]))) 7 ∨
        (slot.step e (.sample (.sampleData 9 [⟨0, [1]⟩]))).ArmedFor 7) ∧
    (let e := Env.sample .unicastBidirN1
      let ctx := List.foldl (Ctx.act e) (Ctx.opened e) [.recv (.sample (.samplePing 7))]
      (ctx.slotInitPeer 0).Requested e
        ((ctx.step e (.sample (.sampleData 9 [⟨0, [1]⟩]))).slotInitPeer 0) 7) := by
  refine ⟨?_, ?_⟩
  · exact ((gap_detected_iff (Env.sample .unicast) Cplat.reference_cmpLex rfl rfl).1 (by decide)
      (.inl rfl) 3 ⟨2, 0⟩ (fun _ => .target) [.sample (.samplePing 7)] 0 .source
      (.sampleData 9 [⟨0, [1]⟩]) (by decide) ⟨by decide, by decide +kernel, by decide +kernel,
        by decide +kernel, by decide +kernel⟩).2 (by decide) (by decide +kernel)
  · exact ((gap_detected_iff (Env.sample .unicastBidirN1) Cplat.reference_cmpLex rfl rfl).2 rfl
      [.recv (.sample (.samplePing 7))] 0 0 .source (.sampleData 9 [⟨0, [1]⟩]) (by decide)
      ⟨by decide, by decide +kernel, by decide +kernel⟩ ⟨by decide, by decide +kernel, by decide +kernel,
        by decide +kernel, by decide +kernel⟩).2 (by decide) (by decide +kernel)

-- Numbers 7 to 10 are lost. DATA 11 is beyond the window of four, and nobody asks for number 7.
theorem burst_loss_not_noticed :
    let e := Env.sample .unicast
    let slot := (Slot.sample e).run e [.sample (.samplePing 7)]
    let after := slot.step e (.sample (.sampleData 11 [⟨0, [1]⟩]))
    slot.recvWindow.nextSeq = 7 ∧ ¬ slot.Asked after 7 ∧ ¬ after.ArmedFor 7 := by
  refine ⟨by decide +kernel, ?_, by decide +kernel⟩
  rintro ⟨rest, hlog, act, hact, win, rfl⟩
  have hnone : (((Slot.sample (Env.sample .unicast)).run (Env.sample .unicast)
      [.sample (.samplePing 7)]).step (Env.sample .unicast)
      (.sample (.sampleData 11 [⟨0, [1]⟩]))).log.all
        (fun x => x.2.asked.isNone) = true := by decide +kernel
  rw [hlog] at hnone
  exact absurd (List.all_eq_true.mp hnone _ (List.mem_append_right _ hact)) Bool.false_ne_true

end Porter
