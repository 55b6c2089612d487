import Porter.Moves.Accept

namespace Porter.Slot

open View Relation

-- What holds of a slot between two rounds of the receive thread.
structure Ok (e : Env) (slot : Slot) : Prop where
  inv : Inv e (slot.view e)
  head : slot.HeadEmpty

section

variable {e : Env} {cur : Option Packet} {slot : Slot}

-- REJECT

theorem onReject_eq (slot : Slot) (pkt : Packet) (path : Path) (sender : Endpoint) :
    slot.onReject e pkt path sender =
      if e.type.isRawType = true then slot
      else if !(slot.sessionAdopt e pkt).2 then (slot.sessionAdopt e pkt).1
      else ((skipRecvWindow { (((slot.sessionAdopt e pkt).1.learnSenderPath e path
          sender).clearPathPingStates.disconnectAllPaths e) with reorderPending := false }
        pkt.ackNum).slotDrainRecvWindow e).1 := (rfl)

theorem onReject_moves (hlex : e.plat.CmpLex) {pkt : Packet} (path : Path) (sender : Endpoint)
    (hok : Ok e slot) (hcur : cur = some pkt) (hearly : (slot.view e).Early)
    (hreject : pkt.has FLAG_REJECT = true) (hused : slot.peer = none ∨ slot.active = true) :
    Moves e cur (slot.view e) ((slot.onReject e pkt path sender).view e) ∧
      (slot.onReject e pkt path sender).HeadEmpty := by
  rw [onReject_eq]
  split
  · exact ⟨.refl, hok.head⟩
  rename_i hraw
  have hraw' : e.type.isRawType = false := by simpa using hraw
  obtain ⟨hadopt, htracks, hsame⟩ := sessionAdopt_moves hlex slot hcur hearly
  split
  · rename_i hno
    refine ⟨hadopt, ?_⟩
    rcases hsame with hs | hv
    · rw [hs]
      exact hok.head
    · have hw := congrArg View.win hv
      change (slot.sessionAdopt e pkt).1.recvWindow = Window.init pkt.seqNum e.windowSize at hw
      unfold HeadEmpty
      rw [hw]
      exact Window.held_init ..
  rename_i hyes
  obtain ⟨hknown, hsession⟩ := htracks (by simpa using hyes)
  have hactive := sessionAdopt_active (e := e) slot pkt
  generalize (slot.sessionAdopt e pkt).1 = adopted at hadopt hknown hsession hactive ⊢
  obtain ⟨evs, hevs, hv⟩ := view_disconnectAllPaths
    (adopted.learnSenderPath e path sender).clearPathPingStates
  rw [view_clearPathPingStates, view_learnSenderPath] at hv
  generalize (adopted.learnSenderPath e path sender).clearPathPingStates.disconnectAllPaths e =
    dead at hv ⊢
  have hdead : Moves e cur (slot.view e) (({ dead with reorderPending := false } : Slot).view e) := by
    change Moves e cur _ { dead.view e with pending := false }
    rw [hv]
    exact hadopt.trans (.head (.sync _ false evs hevs (by simp)) (.single (timerOff_move _)))
  have hused' : dead.peer = none ∨ dead.active = true :=
    hused.imp (Moves.peer_eq hdead).trans
      ((congrArg View.active hv).trans ((synced_active false evs).trans hactive)).trans
  have hskip : Moves e cur (slot.view e)
      ((skipRecvWindow { dead with reorderPending := false } pkt.ackNum).view e) := by
    unfold skipRecvWindow
    split
    · rename_i hnext
      refine hdead.trans (.single ?_)
      have hnext' : dead.recvWindow.nextSeq = pkt.ackNum := hnext
      have hwin : dead.recvWindow.recvSkip pkt.ackNum = dead.recvWindow.dropNext := by
        rw [← hnext', Window.recvSkip_self]
      change Move e cur (({ dead with reorderPending := false } : Slot).view e)
        (View.emit { ({ dead with reorderPending := false } : Slot).view e with
          win := dead.recvWindow.recvSkip pkt.ackNum } (.skip pkt.ackNum))
      rw [hwin]
      refine .skip _ pkt hcur hreject hraw' ?_ ?_ hnext ?_ rfl hused'
      · exact (congrArg View.known hv).trans ((synced_known false evs).trans hknown)
      · exact (congrArg View.session hv).trans ((synced_session false evs).trans hsession)
      · exact (congrArg View.alive hv).trans (synced_alive false evs)
    · exact hdead
  have hwf := (Moves.inv hskip hok.inv).wf
  have hready : DrainReady e (skipRecvWindow { dead with reorderPending := false } pkt.ackNum) := by
    intro _
    left
    unfold skipRecvWindow
    split <;> rfl
  have hused'' : (skipRecvWindow { dead with reorderPending := false } pkt.ackNum).peer = none ∨
      (skipRecvWindow { dead with reorderPending := false } pkt.ackNum).active = true := by
    unfold skipRecvWindow
    split <;> exact hused'
  obtain ⟨hdrain, hempty⟩ := (slotDrainRecvWindow_moves ⟨pkt, hcur, .inl hreject⟩ hready hused'' hwf :
    Moves e cur _ _ ∧ _)
  exact ⟨hskip.trans hdrain, hempty⟩

-- PING

theorem scanLoop_succ (pkt : Packet) (fuel : Nat) (slot : Slot) (scanSeq : UInt32) :
    scanLoop e pkt (fuel + 1) slot scanSeq =
      if scanSeq != pkt.seqNum &&
          seqnumInWindow scanSeq slot.recvWindow.baseSeq slot.recvWindow.windowSize then
        if slot.recvWindow.recvHasPacket scanSeq then scanLoop e pkt fuel slot (scanSeq + 1)
        else if (slot.reorderGapReady e scanSeq).2 then
          scanLoop e pkt fuel ((slot.reorderGapReady e scanSeq).1.slotSendNack e scanSeq) (scanSeq + 1)
        else ((slot.reorderGapReady e scanSeq).1, scanSeq)
      else (slot, scanSeq) := (rfl)

private theorem scan_missing {seq : UInt32} (hpeer : slot.peer = none)
    (hgap : Gap slot.recvWindow cur seq) :
    ((slot.reorderGapReady e seq).2 = true →
      Moves e cur (slot.view e) (((slot.reorderGapReady e seq).1.slotSendNack e seq).view e)) ∧
    ((slot.reorderGapReady e seq).2 = false →
      Moves e cur (slot.view e) ((slot.reorderGapReady e seq).1.view e)) := by
  have hnack : Gap (slot.reorderGapReady e seq).1.recvWindow cur seq := by
    rw [reorderGapReady_recvWindow]
    exact hgap
  rcases reorderGapReady_cases slot seq with
    ⟨hr, -, hs⟩ | ⟨hr, -, -, -, hv⟩ | ⟨hr, hpos, hv⟩
  · refine ⟨fun _ => ?_, fun h => (Bool.false_ne_true (h.symm.trans hr)).elim⟩
    rw [hs]
    exact slotSendNack_moves hgap
  · refine ⟨fun _ => .head (timerOff_move _) ?_,
      fun h => (Bool.false_ne_true (h.symm.trans hr)).elim⟩
    rw [← hv]
    exact slotSendNack_moves hnack
  · refine ⟨fun h => (Bool.false_ne_true (hr.symm.trans h)).elim, fun _ => ?_⟩
    rw [hv]
    exact .single (.timer _ true seq fun _ => ⟨hpeer, hpos, hgap⟩)

theorem reorderGapReady_peer (slot : Slot) (seq : UInt32) :
    (slot.reorderGapReady e seq).1.peer = slot.peer := by
  rcases reorderGapReady_cases slot seq with ⟨-, -, h⟩ | ⟨-, -, -, -, h⟩ | ⟨-, -, h⟩
  · rw [h]
  · exact congrArg View.peer h
  · exact congrArg View.peer h

theorem slotSendNack_peer (slot : Slot) (seq : UInt32) :
    (slot.slotSendNack e seq).peer = slot.peer := by
  obtain ⟨dests, hd⟩ := view_slotSendNack slot seq
  exact congrArg View.peer hd

-- The scan never passes the number of the PING, so every number it asks for lies before it.
theorem scanLoop_moves {pkt : Packet} (fuel : Nat) {scanSeq : UInt32} (hcur : cur = some pkt)
    (hping : pkt.has FLAG_PING = true) (hpeer : slot.peer = none)
    (hdist : Serial.dist scanSeq slot.recvWindow.nextSeq ≤
      Serial.dist pkt.seqNum slot.recvWindow.nextSeq) :
    Moves e cur (slot.view e) ((scanLoop e pkt fuel slot scanSeq).1.view e) ∧
      (scanLoop e pkt fuel slot scanSeq).1.recvWindow = slot.recvWindow := by
  induction fuel generalizing slot scanSeq with
  | zero => exact ⟨.refl, rfl⟩
  | succ fuel ih =>
    rw [scanLoop_succ]
    split
    · rename_i hcond
      rw [Bool.and_eq_true, bne_iff_ne] at hcond
      have hlt : Serial.dist scanSeq slot.recvWindow.nextSeq <
          Serial.dist pkt.seqNum slot.recvWindow.nextSeq := by
        refine Nat.lt_of_le_of_ne hdist fun he => hcond.1 (Serial.dist_inj he)
      have hsucc := Serial.dist_lt pkt.seqNum slot.recvWindow.nextSeq
      have hnext : Serial.dist (scanSeq + 1) slot.recvWindow.nextSeq ≤
          Serial.dist pkt.seqNum slot.recvWindow.nextSeq := by
        rw [Serial.dist_succ (by omega)]
        omega
      split
      · exact ih hpeer hnext
      · rename_i hhas
        have hgap : Gap slot.recvWindow cur scanSeq :=
          .inr ⟨pkt, hcur, hping, hcond.2, by simpa using hhas, hlt⟩
        obtain ⟨hready, hwait⟩ := scan_missing hpeer hgap
        split
        · rename_i hr
          have hwin : ((slot.reorderGapReady e scanSeq).1.slotSendNack e scanSeq).recvWindow =
              slot.recvWindow := by
            rw [slotSendNack_recvWindow, reorderGapReady_recvWindow]
          have hpeer' : ((slot.reorderGapReady e scanSeq).1.slotSendNack e scanSeq).peer = none := by
            rw [slotSendNack_peer, reorderGapReady_peer, hpeer]
          rw [← hwin] at hnext
          obtain ⟨hmoves, hw⟩ := ih hpeer' hnext
          exact ⟨(hready hr).trans hmoves, hw.trans hwin⟩
        · rename_i hr
          exact ⟨hwait (by simpa using hr), reorderGapReady_recvWindow scanSeq⟩
    · exact ⟨.refl, rfl⟩

theorem rawReset_moves {pkt : Packet} (hcur : cur = some pkt) (hearly : (slot.view e).Early)
    (hraw : e.type.isRawType = true) :
    Moves e cur (slot.view e) (((slot.rawSessionDisconnect e).resetRecvWindow pkt.seqNum).view e) := by
  obtain ⟨evs, -, hv⟩ := view_rawSessionDisconnect slot
  have hfrag : ((slot.rawSessionDisconnect e).view e).frag = Reassembly.empty := by rw [hv]
  have hview : ((slot.rawSessionDisconnect e).resetRecvWindow pkt.seqNum).view e =
      View.emit { (slot.rawSessionDisconnect e).view e with
        win := (slot.rawSessionDisconnect e).recvWindow.recvReset pkt.seqNum
        frag := Reassembly.empty } (.reset pkt.seqNum) := by
    rw [← hfrag]
    rfl
  rw [hview]
  refine (rawSessionDisconnect_moves slot).trans (.single (.reset _ pkt hcur ?_ hraw ?_))
  · change ((slot.rawSessionDisconnect e).view e).Early
    rw [hv]
    exact Early.synced hearly false evs
  · change ((slot.rawSessionDisconnect e).view e).alive = false
    rw [hv]
    exact synced_alive false evs

theorem scanPingGap_eq (slot : Slot) (pkt : Packet) :
    slot.scanPingGap e pkt =
      if slot.peer.isSome = true then
        if slot.pingAhead pkt = true then slot.nackGap e slot.recvWindow.nextSeq else slot
      else if e.type.isRawType = true then
        if slot.pingAhead pkt = true then
          if (slot.reorderGapReady e slot.recvWindow.nextSeq).2 = true then
            ((slot.reorderGapReady e slot.recvWindow.nextSeq).1.rawSessionDisconnect
              e).resetRecvWindow pkt.seqNum
          else (slot.reorderGapReady e slot.recvWindow.nextSeq).1
        else { slot with reorderPending := false }
      else if (scanLoop e pkt slot.recvWindow.windowSize slot slot.recvWindow.nextSeq).2 = pkt.seqNum then
        { (scanLoop e pkt slot.recvWindow.windowSize slot slot.recvWindow.nextSeq).1 with
          reorderPending := false }
      else (scanLoop e pkt slot.recvWindow.windowSize slot slot.recvWindow.nextSeq).1 := (rfl)

private theorem gap_of_pingAhead {pkt : Packet} (hok : Ok e slot) (hcur : cur = some pkt)
    (hping : pkt.has FLAG_PING = true) (hahead : slot.pingAhead pkt = true) :
    Gap slot.recvWindow cur slot.recvWindow.nextSeq := by
  have hwf : slot.recvWindow.RecvWF := hok.inv.wf
  unfold pingAhead at hahead
  rw [Bool.and_eq_true, bne_iff_ne] at hahead
  refine .inr ⟨pkt, hcur, hping, ?_, ?_, ?_⟩
  · rw [Window.seqnumInWindow_iff, hwf.base_eq, Serial.dist_self]
    exact hwf.size_pos
  · rw [Window.recvHasPacket_eq hwf, hok.head]
    rfl
  · rw [Serial.dist_self]
    exact Serial.dist_pos hahead.1

theorem scanPingGap_moves {pkt : Packet} (hok : Ok e slot) (hcur : cur = some pkt)
    (hearly : (slot.view e).Early) (hping : pkt.has FLAG_PING = true) :
    Moves e cur (slot.view e) ((slot.scanPingGap e pkt).view e) ∧
      (slot.scanPingGap e pkt).HeadEmpty := by
  rw [scanPingGap_eq]
  split
  · split
    · rename_i hahead
      refine ⟨nackGap_moves (gap_of_pingAhead hok hcur hping hahead), ?_⟩
      unfold HeadEmpty
      rw [nackGap_recvWindow]
      exact hok.head
    · exact ⟨.refl, hok.head⟩
  rename_i hpeer
  have hnone : slot.peer = none := Option.not_isSome_iff_eq_none.mp hpeer
  split
  · rename_i hraw
    split
    · rename_i hahead
      have hgap := gap_of_pingAhead hok hcur hping hahead
      split
      · refine ⟨?_, Window.held_init ..⟩
        have hoff : Moves e cur (slot.view e)
            ((slot.reorderGapReady e slot.recvWindow.nextSeq).1.view e) ∧
            ((slot.reorderGapReady e slot.recvWindow.nextSeq).1.view e).Early := by
          rcases reorderGapReady_cases slot slot.recvWindow.nextSeq with
            ⟨-, -, hs⟩ | ⟨-, -, -, -, hv⟩ | ⟨hr, -, -⟩
          · rw [hs]
            exact ⟨.refl, hearly⟩
          · rw [hv]
            exact ⟨.single (timerOff_move _), hearly⟩
          · rename_i hready
            exact (Bool.false_ne_true (hr.symm.trans hready)).elim
        exact hoff.1.trans (rawReset_moves hcur hoff.2 hraw)
      · rename_i hr
        refine ⟨(scan_missing hnone hgap).2 (by simpa using hr), ?_⟩
        unfold HeadEmpty
        rw [reorderGapReady_recvWindow]
        exact hok.head
    · exact ⟨.single (timerOff_move _), hok.head⟩
  · obtain ⟨hmoves, hwin⟩ := scanLoop_moves slot.recvWindow.windowSize hcur hping hnone
      (by rw [Serial.dist_self]; exact Nat.zero_le _)
    have hhead : (scanLoop e pkt slot.recvWindow.windowSize slot slot.recvWindow.nextSeq).1.HeadEmpty := by
      unfold HeadEmpty
      rw [hwin]
      exact hok.head
    split
    · exact ⟨hmoves.trans (.single (timerOff_move _)), hhead⟩
    · exact ⟨hmoves, hhead⟩

-- FIN

theorem adopt_head (hlex : e.plat.CmpLex) (pkt : Packet) (hok : Ok e slot)
    (hearly : (slot.view e).Early) : (slot.sessionAdopt e pkt).1.HeadEmpty := by
  rcases (sessionAdopt_moves hlex slot rfl hearly).2.2 with hs | hv
  · rw [hs]
    exact hok.head
  · have hw : (slot.sessionAdopt e pkt).1.recvWindow = Window.init pkt.seqNum e.windowSize :=
      congrArg View.win hv
    unfold HeadEmpty
    rw [hw]
    exact Window.held_init ..

theorem dispatchFin_eq (slot : Slot) (pkt : Packet) :
    slot.dispatchFin e pkt =
      let adopted := if slot.peer.isNone then slot.sessionAdopt e pkt else (slot, true)
      if !adopted.2 then adopted.1
      else if (adopted.1.finOnPacket pkt).2 = .fire then
        (adopted.1.finOnPacket pkt).1.finFire e pkt.ackNum
      else (adopted.1.finOnPacket pkt).1 := (rfl)

theorem finOnPacket_moves {pkt : Packet} (hcur : cur = some pkt)
    (htracks : slot.peer = none → Tracks e slot pkt) :
    Moves e cur (slot.view e) ((slot.finOnPacket pkt).1.view e) ∧
      (slot.finOnPacket pkt).1.recvWindow = slot.recvWindow ∧
      ((slot.finOnPacket pkt).2 = .fire →
        Closes cur ((slot.finOnPacket pkt).1.view e) pkt.ackNum) := by
  unfold finOnPacket
  split
  · exact ⟨.refl, rfl, nofun⟩
  rename_i hfin
  have hfin' : pkt.has FLAG_FIN = true := by simpa using hfin
  split
  · rename_i htarget
    rw [Bool.and_eq_true, bne_iff_ne] at htarget
    exact ⟨.single (.finPending _ pkt.ackNum htarget.2 pkt hcur hfin' htarget.1 rfl htracks), rfl,
      nofun⟩
  · rename_i htarget
    refine ⟨.refl, rfl, fun _ pkt' hcur' => .inr ?_⟩
    obtain rfl : pkt = pkt' := Option.some.inj (hcur.symm.trans hcur')
    refine ⟨hfin', rfl, fun hvalid => ?_, htracks⟩
    rw [hvalid, Bool.true_and, bne_iff_ne, not_not] at htarget
    exact htarget

theorem dispatchFin_moves (hlex : e.plat.CmpLex) {pkt : Packet} (hok : Ok e slot)
    (hcur : cur = some pkt) (hearly : (slot.view e).Early) :
    Moves e cur (slot.view e) ((slot.dispatchFin e pkt).view e) ∧
      (slot.dispatchFin e pkt).HeadEmpty := by
  rw [dispatchFin_eq]
  simp only
  have hadopt : Moves e cur (slot.view e)
      ((if slot.peer.isNone then slot.sessionAdopt e pkt else (slot, true)).1.view e) ∧
      (if slot.peer.isNone then slot.sessionAdopt e pkt else (slot, true)).1.HeadEmpty ∧
      ((if slot.peer.isNone then slot.sessionAdopt e pkt else (slot, true)).2 = true →
        (if slot.peer.isNone then slot.sessionAdopt e pkt else (slot, true)).1.peer = none →
        Tracks e (if slot.peer.isNone then slot.sessionAdopt e pkt else (slot, true)).1 pkt) := by
    split
    · obtain ⟨hmoves, htracks, -⟩ := sessionAdopt_moves hlex slot hcur hearly
      exact ⟨hmoves, adopt_head hlex pkt hok hearly, fun hyes _ => htracks hyes⟩
    · rename_i hpeer
      exact ⟨.refl, hok.head, fun _ hnone => absurd (Option.isNone_iff_eq_none.mpr hnone) hpeer⟩
  generalize (if slot.peer.isNone then slot.sessionAdopt e pkt else (slot, true)) = adopted
    at hadopt ⊢
  obtain ⟨hadopt, hempty, htracks⟩ := hadopt
  split
  · exact ⟨hadopt, hempty⟩
  · rename_i hyes
    obtain ⟨hfin, hwin, hfire⟩ := finOnPacket_moves hcur (htracks (by simpa using hyes))
    have hhead : (adopted.1.finOnPacket pkt).1.HeadEmpty := by
      unfold HeadEmpty
      rw [hwin]
      exact hempty
    split
    · rename_i hdue
      exact ⟨(hadopt.trans hfin).trans (finFire_moves (hfire hdue)), finFire_head _ hhead⟩
    · exact ⟨hadopt.trans hfin, hhead⟩

-- Dispatch

theorem view_pinged (slot : Slot) (pkt : Packet) (path : Path) :
    (slot.pinged e pkt path).view e = slot.view e := by
  unfold pinged
  split <;> rfl

theorem syncPathState_head (slot : Slot) (hhead : slot.HeadEmpty) :
    (slot.syncPathState e).HeadEmpty := by
  have hwin : (slot.syncPathState e).recvWindow = slot.recvWindow := view_syncPathState_win slot
  unfold HeadEmpty
  rw [hwin]
  exact hhead

theorem dispatchPing_moves {pkt : Packet} (path : Path) (hok : Ok e slot) (hcur : cur = some pkt)
    (hearly : (slot.view e).Early) (hping : pkt.has FLAG_PING = true)
    (hlive : slot.peer = none ∨ slot.active = true) :
    Moves e cur (slot.view e) ((slot.dispatchPing e pkt path).view e) ∧
      (slot.dispatchPing e pkt path).HeadEmpty := by
  have hseen := view_pinged (e := e) slot pkt path
  rw [dispatchPing_eq]
  generalize slot.pinged e pkt path = seen at hseen ⊢
  have hwin : seen.recvWindow = slot.recvWindow := congrArg View.win hseen
  have hseenOk : Ok e seen := by
    refine ⟨hseen ▸ hok.inv, ?_⟩
    unfold HeadEmpty
    rw [hwin]
    exact hok.head
  have hseenLive : seen.peer = none ∨ seen.active = true := by
    rw [show seen.peer = slot.peer from congrArg View.peer hseen,
      show seen.active = slot.active from congrArg View.active hseen]
    exact hlive
  rw [← hseen]
  split
  · rename_i hraw
    obtain ⟨hmoves, hhead⟩ := scanPingGap_moves hseenOk hcur (hseen ▸ hearly) hping
    -- RAW services have no peers.
    have hnone : (seen.scanPingGap e pkt).peer = none := by
      refine (Moves.peer_eq hmoves).trans ?_
      by_contra hpeer
      simp [hseenOk.inv.kind hpeer, PotrType.isRawType] at hraw
    exact ⟨hmoves.trans (syncPathState_moves _ (.inl hnone)), syncPathState_head _ hhead⟩
  · have hsync : Moves e cur _ _ := syncPathState_moves seen hseenLive
    have hsyncEarly : ((seen.syncPathState e).view e).Early := by
      obtain ⟨evs, -, hv⟩ := view_syncPathStateLocked seen (seen.nextPathStates e)
      unfold syncPathState
      rw [hv, hseen]
      exact Early.synced hearly _ evs
    obtain ⟨hmoves, hhead⟩ := scanPingGap_moves
      ⟨Moves.inv hsync hseenOk.inv, syncPathState_head _ hseenOk.head⟩ hcur hsyncEarly hping
    exact ⟨hsync.trans hmoves, hhead⟩

theorem dispatchPacket_eq (slot : Slot) (pkt : Packet) (path : Path) (sender : Endpoint) :
    slot.dispatchPacket e pkt path sender =
      if pkt.has FLAG_FIN = true then slot.dispatchFin e pkt
      else if pkt.has FLAG_NACK = true then
        if slot.peer.isSome = true then slot.onNack e pkt else slot
      else if pkt.has FLAG_REJECT = true then slot.onReject e pkt path sender
      else if (!pkt.has (FLAG_DATA ||| FLAG_PING)) = true then slot
      else if !(slot.sessionAdopt e pkt).2 then (slot.sessionAdopt e pkt).1
      else if pkt.has FLAG_PING = true then
        ((slot.sessionAdopt e pkt).1.learnSenderPath e path sender).dispatchPing e pkt path
      else ((slot.sessionAdopt e pkt).1.learnSenderPath e path sender).acceptOuter e pkt path := (rfl)

theorem has_or (pkt : Packet) (f g : UInt16) :
    pkt.has (f ||| g) = (pkt.has f || pkt.has g) := by
  have hdist : pkt.flags &&& (f ||| g) = (pkt.flags &&& f) ||| (pkt.flags &&& g) :=
    UInt16.toBitVec_inj.mp BitVec.and_or_distrib_left
  unfold Packet.has
  rw [hdist, Bool.eq_iff_iff, Bool.or_eq_true]
  simp only [bne_iff_ne, ne_eq, UInt16.or_eq_zero_iff, not_and_or]

theorem dispatchPacket_data {pkt : Packet} (hdata : pkt.IsData) (path : Path) (sender : Endpoint)
    {adopted : Slot} (hadopt : slot.sessionAdopt e pkt = (adopted, true)) :
    slot.dispatchPacket e pkt path sender =
      (adopted.learnSenderPath e path sender).acceptOuter e pkt path := by
  have hany : pkt.has (FLAG_DATA ||| FLAG_PING) = true := by rw [has_or, hdata.data, Bool.true_or]
  rw [dispatchPacket_eq, hdata.fin, hdata.nack, hdata.reject, hany, hadopt, hdata.ping]
  rfl

theorem onNack_recvWindow (pkt : Packet) : (slot.onNack e pkt).recvWindow = slot.recvWindow := by
  have hdup : (slot.nackIsDuplicate e pkt.ackNum).1.recvWindow = slot.recvWindow := by
    unfold nackIsDuplicate
    simp only
    split <;> rfl
  unfold onNack
  split
  · rfl
  · simp only
    split
    · exact hdup
    · obtain ⟨dests, hd⟩ := view_slotRetransmitOrReject
        (slot.nackIsDuplicate e pkt.ackNum).1 pkt.ackNum
      exact (congrArg View.win hd).trans hdup

theorem onNack_ok {pkt : Packet} (hok : Ok e slot) : Ok e (slot.onNack e pkt) := by
  refine ⟨Moves.inv (onNack_moves rfl) hok.inv, ?_⟩
  unfold HeadEmpty
  rw [onNack_recvWindow]
  exact hok.head

-- One packet, from its arrival at dispatch: what happens is a sequence of moves for it.
theorem dispatchPacket_moves (hlex : e.plat.CmpLex) (pkt : Packet) (path : Path)
    (sender : Endpoint) (hok : Ok e slot) (hearly : (slot.view e).Early)
    (hlive : slot.peer = none ∨ slot.active = true) :
    Moves e (some pkt) (slot.view e) ((slot.dispatchPacket e pkt path sender).view e) ∧
      Ok e (slot.dispatchPacket e pkt path sender) := by
  suffices h : Moves e (some pkt) (slot.view e) ((slot.dispatchPacket e pkt path sender).view e) ∧
      (slot.dispatchPacket e pkt path sender).HeadEmpty from
    ⟨h.1, Moves.inv h.1 hok.inv, h.2⟩
  rw [dispatchPacket_eq]
  split
  · exact dispatchFin_moves hlex hok rfl hearly
  split
  · split
    · exact ⟨onNack_moves rfl, (onNack_ok hok).head⟩
    · exact ⟨.refl, hok.head⟩
  split
  · rename_i hreject
    exact onReject_moves hlex path sender hok rfl hearly hreject hlive
  split
  · exact ⟨.refl, hok.head⟩
  rename_i hkind
  obtain ⟨hadopt, htracks, -⟩ := (sessionAdopt_moves hlex slot rfl hearly :
    Moves e (some pkt) (slot.view e) ((slot.sessionAdopt e pkt).1.view e) ∧ _)
  have hhead := adopt_head hlex pkt hok hearly
  have hadoptEarly := sessionAdopt_early hlex pkt hearly
  split
  · exact ⟨hadopt, hhead⟩
  rename_i hyes
  have htr := htracks (by simpa using hyes)
  have hadoptLive : (slot.sessionAdopt e pkt).1.peer = none ∨
      (slot.sessionAdopt e pkt).1.active = true := by
    rw [sessionAdopt_active, show (slot.sessionAdopt e pkt).1.peer = slot.peer from
      Moves.peer_eq hadopt]
    exact hlive
  generalize (slot.sessionAdopt e pkt).1 = adopted at hadopt hhead htr hadoptLive hadoptEarly ⊢
  have hview := view_learnSenderPath (e := e) adopted path sender
  have hwin : (adopted.learnSenderPath e path sender).recvWindow = adopted.recvWindow :=
    congrArg View.win hview
  have hlearned : Ok e (adopted.learnSenderPath e path sender) := by
    refine ⟨?_, ?_⟩
    · rw [hview]
      exact Moves.inv hadopt hok.inv
    · unfold HeadEmpty
      rw [hwin]
      exact hhead
  have hearly' : ((adopted.learnSenderPath e path sender).view e).Early := hview ▸ hadoptEarly
  rw [← hview] at hadopt
  have hlearnedLive : (adopted.learnSenderPath e path sender).peer = none ∨
      (adopted.learnSenderPath e path sender).active = true := by
    rw [show (adopted.learnSenderPath e path sender).peer = adopted.peer from
      congrArg View.peer hview, show (adopted.learnSenderPath e path sender).active =
      adopted.active from congrArg View.active hview]
    exact hadoptLive
  split
  · rename_i hping
    obtain ⟨hmoves, hh⟩ := dispatchPing_moves path hlearned rfl hearly' hping
      hlearnedLive
    exact ⟨hadopt.trans hmoves, hh⟩
  · rename_i hping
    have hdata : pkt.has FLAG_DATA = true := by
      rw [has_or] at hkind
      simpa [hping] using hkind
    obtain ⟨hmoves, hh⟩ := acceptOuter_moves path hlearned.inv hlearned.head
      ⟨rfl, hearly', hdata, by simpa using hping, by unfold Tracks; rw [hview]; exact htr⟩
      hlearnedLive
    exact ⟨hadopt.trans hmoves, hh⟩

end

end Porter.Slot
