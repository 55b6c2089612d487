import Porter.Moves

namespace Porter.Slot

open View Relation

section

variable {e : Env} {cur : Option Packet} {slot : Slot}

@[simp] theorem view_emits (acts : List Act) :
    (slot.emits acts).view e = (slot.view e).emits acts := rfl

@[simp] theorem view_emit (act : Act) : (slot.emit act).view e = (slot.view e).emit act := rfl

@[simp] theorem view_callbackEmits (evs : List Event) :
    (slot.callbackEmits e evs).view e = (slot.view e).callbackEmits e evs := by
  unfold callbackEmits View.callbackEmits
  split <;> rfl

@[simp] theorem view_clearPathPingStates : slot.clearPathPingStates.view e = slot.view e := rfl

@[simp] theorem view_updatePathHealth (path : Path) :
    (slot.updatePathHealth e path).view e = slot.view e := rfl

@[simp] theorem view_learnSenderPath (slot : Slot) (path : Path) (sender : Endpoint) :
    (slot.learnSenderPath e path sender).view e = slot.view e := by
  unfold learnSenderPath
  simp only
  split
  · split <;> rfl
  · split <;> rfl

theorem view_syncPathStateLocked (slot : Slot) (states : Path → Bool) :
    ∃ evs : List Event, (∀ ev ∈ evs, ev.isPath = true) ∧
      (slot.syncPathStateLocked e states).view e =
        (slot.view e).synced e (anyPathAlive states) evs := by
  refine ⟨(paths.filter fun k => slot.pathLogicalAlive k != states k).map
    (fun k => if states k then .pathConnected k states else .pathDisconnected k states), ?_, ?_⟩
  · intro ev hev
    obtain ⟨k, -, rfl⟩ := List.mem_map.mp hev
    split <;> rfl
  · unfold syncPathStateLocked
    rw [view_callbackEmits]
    rfl

theorem view_disconnectAllPaths (slot : Slot) :
    ∃ evs : List Event, (∀ ev ∈ evs, ev.isPath = true) ∧
      (slot.disconnectAllPaths e).view e = (slot.view e).synced e false evs :=
  view_syncPathStateLocked slot fun _ => false

theorem syncPathState_moves (slot : Slot) (hlive : slot.peer = none ∨ slot.active = true) :
    Moves e cur (slot.view e) ((slot.syncPathState e).view e) := by
  obtain ⟨evs, hevs, hv⟩ := view_syncPathStateLocked slot (slot.nextPathStates e)
  unfold syncPathState
  rw [hv]
  exact .single (.sync _ _ evs hevs fun _ => hlive)

@[simp] theorem view_syncPathState_win (slot : Slot) :
    ((slot.syncPathState e).view e).win = (slot.view e).win := by
  obtain ⟨evs, -, hv⟩ := view_syncPathStateLocked slot (slot.nextPathStates e)
  unfold syncPathState
  rw [hv, synced_win]

theorem view_rawSessionDisconnect (slot : Slot) :
    ∃ evs : List Event, (∀ ev ∈ evs, ev.isPath = true) ∧
      (slot.rawSessionDisconnect e).view e =
        { (slot.view e).synced e false evs with
          pendingFin := false, finTarget := 0, frag := Reassembly.empty } := by
  obtain ⟨evs, hevs, hv⟩ := view_disconnectAllPaths slot.clearPathPingStates
  refine ⟨evs, hevs, ?_⟩
  rw [view_clearPathPingStates] at hv
  rw [← hv]
  rfl

theorem rawSessionDisconnect_moves (slot : Slot) :
    Moves e cur (slot.view e)
      { (slot.rawSessionDisconnect e).view e with frag := slot.reassembly } := by
  obtain ⟨evs, hevs, hv⟩ := view_rawSessionDisconnect slot
  have hfrag : ((slot.view e).synced e false evs).frag = slot.reassembly := synced_frag false evs
  rw [hv, ← hfrag]
  exact .head (.sync _ false evs hevs (by simp)) (.single (.finClear _))

-- thread_recv_session_adopt refuses an older session, keeps the tracked one or starts anew.
theorem sessionAdopt_cases (hlex : e.plat.CmpLex) (slot : Slot) (pkt : Packet) :
    slot.sessionAdopt e pkt = (slot, false) ∨
    (slot.sessionAdopt e pkt = (slot, true) ∧ slot.peerSessionKnown = true ∧
      (slot.view e).session = pkt.session) ∨
    (slot.sessionAdopt e pkt = (slot.adoptSession e pkt, true) ∧
      ((slot.view e).known = false ∨ (slot.view e).newer e pkt)) := by
  unfold sessionAdopt
  by_cases hknown : slot.peerSessionKnown = false
  · rw [if_pos hknown]
    exact .inr (.inr ⟨rfl, .inl hknown⟩)
  rw [if_neg hknown]
  simp only
  split
  · rename_i hpos
    exact .inr (.inr ⟨rfl, .inr (.inl hpos)⟩)
  · rename_i hpos
    split
    · exact .inl rfl
    · rename_i hneg
      have hzero : e.plat.timespecCmp pkt.sessionTs slot.peerSessionTs = 0 := by omega
      split
      · rename_i hid
        exact .inr (.inr ⟨rfl, .inr (.inr ⟨hzero, hid⟩)⟩)
      · split
        · rename_i hid
          refine .inr (.inl ⟨rfl, by simpa using hknown, ?_⟩)
          have hts := (hlex.eq_zero _ _).mp hzero
          simp [view, Packet.session, hid, hts]
        · exact .inl rfl

theorem sessionAdopt_tracked (hlex : e.plat.CmpLex) {pkt : Packet}
    (hknown : slot.peerSessionKnown = true) (hsession : (slot.view e).session = pkt.session) :
    slot.sessionAdopt e pkt = (slot, true) := by
  have hid : slot.peerSessionId = pkt.sessionId := congrArg SessionHdr.id hsession
  have hts : slot.peerSessionTs = pkt.sessionTs := congrArg SessionHdr.ts hsession
  have hcmp : e.plat.timespecCmp pkt.sessionTs slot.peerSessionTs = 0 :=
    (hlex.eq_zero _ _).mpr hts.symm
  unfold sessionAdopt
  simp [hknown, hcmp, hid]

theorem sessionAdopt_active (slot : Slot) (pkt : Packet) :
    (slot.sessionAdopt e pkt).1.active = slot.active := by
  unfold sessionAdopt
  simp only
  repeat' split
  all_goals rfl

theorem view_adoptSession (pkt : Packet) :
    (slot.adoptSession e pkt).view e = (slot.view e).adopted e pkt := rfl

-- What holds of the session once a packet has been let in.
def Tracks (e : Env) (slot : Slot) (pkt : Packet) : Prop :=
  (slot.view e).known = true ∧ (slot.view e).session = pkt.session

theorem sessionAdopt_moves (hlex : e.plat.CmpLex) (slot : Slot) {pkt : Packet}
    (hcur : cur = some pkt) (hearly : (slot.view e).Early) :
    Moves e cur (slot.view e) ((slot.sessionAdopt e pkt).1.view e) ∧
      ((slot.sessionAdopt e pkt).2 = true → Tracks e (slot.sessionAdopt e pkt).1 pkt) ∧
      ((slot.sessionAdopt e pkt).1 = slot ∨
        (slot.sessionAdopt e pkt).1.view e = (slot.view e).adopted e pkt) := by
  rcases sessionAdopt_cases hlex slot pkt with h | ⟨h, hk, hs⟩ | ⟨h, hnew⟩
  · rw [h]
    exact ⟨.refl, fun hc => (Bool.false_ne_true hc).elim, .inl rfl⟩
  · rw [h]
    exact ⟨.refl, fun _ => ⟨hk, hs⟩, .inl rfl⟩
  · rw [h]
    exact ⟨.single (.adopt _ pkt hcur hearly hnew), fun _ => ⟨rfl, rfl⟩, .inr rfl⟩

theorem sessionAdopt_early (hlex : e.plat.CmpLex) (pkt : Packet)
    (hearly : (slot.view e).Early) : ((slot.sessionAdopt e pkt).1.view e).Early := by
  rcases sessionAdopt_cases hlex slot pkt with h | ⟨h, -, -⟩ | ⟨h, -⟩
  · rw [h]
    exact hearly
  · rw [h]
    exact hearly
  · rw [h]
    exact hearly.emit rfl

-- thread_recv_fin_fire

theorem view_peerFree (slot : Slot) :
    slot.peerFree.view e = { slot.view e with active := false } := by
  unfold peerFree
  split
  · rfl
  · rename_i h
    have hactive : slot.active = false := by simpa using h
    simp [view, hactive]

theorem view_forgetSession : (slot.forgetSession e).view e = (slot.view e).forgotten e := rfl

theorem armed_false {v : View} {win : Window} {nackNum : UInt32} :
    Armed e v win cur false nackNum := fun h => (Bool.false_ne_true h).elim

theorem timerOff_move (v : View) : Move e cur v { v with pending := false } :=
  .timer v false v.nackNum armed_false

-- The FIN is cleared with the session or after it, so that what ends the session still sees it.
theorem finFire_moves {target : UInt32} (hfin : Closes cur (slot.view e) target) :
    Moves e cur (slot.view e) ((slot.finFire e target).view e) := by
  unfold finFire
  split
  · rename_i hpeer
    obtain ⟨evs, hevs, hv⟩ := view_disconnectAllPaths slot
    rw [view_peerFree]
    change Moves e cur _ { (slot.disconnectAllPaths e).view e with
      pendingFin := false, finTarget := 0, active := false }
    rw [hv]
    refine .head (.sync _ false evs hevs (by simp)) (.head (.free _ ?_ ?_ ⟨target, ?_⟩)
      (.single (.finClear _)))
    · exact (congrArg Option.isSome (synced_peer false evs)).trans hpeer
    · exact synced_alive false evs
    · exact hfin.synced false evs
  · rename_i hpeer
    -- Only TCP answers with a FIN_ACK first.
    have hack : Moves e cur (slot.view e)
        ((if e.type.isTcpType = true then
          slot.emit (.sendTcp (Packet.buildFinAck (slot.ownSessionHdr e) target))
          else slot).view e) ∧
        (if e.type.isTcpType = true then
          slot.emit (.sendTcp (Packet.buildFinAck (slot.ownSessionHdr e) target))
          else slot).peer = none ∧
        Closes cur ((if e.type.isTcpType = true then
          slot.emit (.sendTcp (Packet.buildFinAck (slot.ownSessionHdr e) target))
          else slot).view e) target := by
      have hnone : slot.peer = none := by simpa using hpeer
      split
      · exact ⟨.single (.finAck _ target hfin), hnone, hfin⟩
      · exact ⟨.refl, hnone, hfin⟩
    refine hack.1.trans ?_
    replace hack := hack.2
    generalize (if e.type.isTcpType = true then
      slot.emit (.sendTcp (Packet.buildFinAck (slot.ownSessionHdr e) target)) else slot) = acked
      at hack ⊢
    obtain ⟨evs, hevs, hv⟩ := view_disconnectAllPaths acked.clearPathPingStates
    rw [view_clearPathPingStates] at hv
    rw [view_forgetSession]
    change Moves e cur _ (forgotten e { (acked.clearPathPingStates.disconnectAllPaths e).view e with
      pendingFin := false, finTarget := 0, pending := false })
    rw [hv]
    refine .head (.sync _ false evs hevs (by simp)) (.head (timerOff_move _)
      (.single (.forget _ _ (fun _ => rfl) ?_ ?_ rfl ⟨target, ?_⟩)))
    · exact (synced_peer false evs).trans hack.1
    · exact synced_alive false evs
    · exact hack.2.synced false evs

-- Sends

theorem view_sendToDests (slot : Slot) (pkt : Packet) :
    ∃ dests : List (Path × Endpoint), (slot.sendToDests e pkt).view e =
      (slot.view e).emits (dests.map fun d => .send d.1 d.2 pkt) := by
  unfold sendToDests
  split
  · refine ⟨(paths.filter fun i => !(slot.destAddr i).isUnset).map fun i => (i, slot.destAddr i), ?_⟩
    rw [view_emits, List.map_map]
    rfl
  · refine ⟨(openPaths e).map fun i => (i, slot.destAddr i), ?_⟩
    rw [view_emits, List.map_map]
    rfl

theorem view_slotSendNack (slot : Slot) (seq : UInt32) :
    ∃ dests : List (Path × Endpoint), (slot.slotSendNack e seq).view e =
      (slot.view e).nacked seq dests := by
  unfold slotSendNack
  simp only
  split
  · obtain ⟨dests, hd⟩ := view_sendToDests (slot.emit (.nack seq slot.recvWindow))
      (Packet.buildNack (slot.ownSessionHdr e) seq)
    refine ⟨dests, ?_⟩
    rw [hd, view_emit]
    simp [nacked, View.emit, View.emits, View.peerId, view]
  · refine ⟨((openPaths e).filter fun i => ((slot.emit (.nack seq slot.recvWindow)).nackDest e i).port
      != 0).map fun i => (i, (slot.emit (.nack seq slot.recvWindow)).nackDest e i), ?_⟩
    rw [view_emits, view_emit]
    simp [nacked, View.emit, View.emits, View.peerId, view]

theorem slotSendNack_moves {seq : UInt32} (hgap : Gap slot.recvWindow cur seq) :
    Moves e cur (slot.view e) ((slot.slotSendNack e seq).view e) := by
  obtain ⟨dests, hd⟩ := view_slotSendNack slot seq
  rw [hd]
  exact .single (.nack _ seq dests hgap)

@[simp] theorem slotSendNack_recvWindow (seq : UInt32) :
    (slot.slotSendNack e seq).recvWindow = slot.recvWindow := by
  obtain ⟨dests, hd⟩ := view_slotSendNack slot seq
  exact congrArg View.win hd

theorem view_slotRetransmitOrReject (slot : Slot) (seq : UInt32) :
    ∃ dests : List (Path × Endpoint), (slot.slotRetransmitOrReject e seq).view e =
      (slot.view e).emits (dests.map fun d => .send d.1 d.2 ((slot.view e).answer seq)) := by
  unfold slotRetransmitOrReject slotSendReject
  split
  · rename_i resend hget
    have hans : (slot.view e).answer seq = resend := by simp [View.answer, view, hget]
    rw [hans]
    exact view_sendToDests slot resend
  · rename_i hget
    have hans : (slot.view e).answer seq = Packet.buildReject (slot.ownSessionHdr e) seq := by
      simp [View.answer, view, hget]
    rw [hans]
    exact view_sendToDests slot _

theorem view_onNack (slot : Slot) (pkt : Packet) :
    (slot.onNack e pkt).view e = slot.view e ∨ pkt.has FLAG_NACK = true ∧
      ∃ dests : List (Path × Endpoint), (slot.onNack e pkt).view e =
        (slot.view e).emits (dests.map fun d => .send d.1 d.2 ((slot.view e).answer pkt.ackNum)) := by
  unfold onNack
  split
  · exact .inl rfl
  · rename_i hflag
    have hnack : pkt.has FLAG_NACK = true := by
      by_contra hn
      simp [hn] at hflag
    have hdup : (slot.nackIsDuplicate e pkt.ackNum).1.view e = slot.view e := by
      unfold nackIsDuplicate
      simp only
      split <;> rfl
    simp only
    split
    · exact .inl hdup
    · rw [← hdup]
      exact .inr ⟨hnack, view_slotRetransmitOrReject _ pkt.ackNum⟩

theorem onNack_moves {pkt : Packet} (hcur : cur = some pkt) :
    Moves e cur (slot.view e) ((slot.onNack e pkt).view e) := by
  rcases view_onNack slot pkt with hsame | ⟨hnack, dests, hd⟩
  · rw [hsame]
  · rw [hd]
    exact .single (.answer _ pkt dests hcur hnack)

-- The reorder timer

theorem reorderGapReady_cases (slot : Slot) (seq : UInt32) :
    ((slot.reorderGapReady e seq).2 = true ∧ e.reorderTimeoutMs = 0 ∧
      (slot.reorderGapReady e seq).1 = slot) ∨
    ((slot.reorderGapReady e seq).2 = true ∧ 0 < e.reorderTimeoutMs ∧
      slot.reorderPending = true ∧ slot.reorderNackNum = seq ∧
      (slot.reorderGapReady e seq).1.view e = { slot.view e with pending := false }) ∨
    ((slot.reorderGapReady e seq).2 = false ∧ 0 < e.reorderTimeoutMs ∧
      (slot.reorderGapReady e seq).1.view e =
        { slot.view e with pending := true, nackNum := seq }) := by
  unfold reorderGapReady
  by_cases hms : e.reorderTimeoutMs = 0
  · rw [if_pos hms]
    exact .inl ⟨rfl, hms, rfl⟩
  rw [if_neg hms]
  by_cases harm : (!slot.reorderPending || slot.reorderNackNum != seq) = true
  · rw [if_pos harm]
    exact .inr (.inr ⟨rfl, Nat.pos_of_ne_zero hms, rfl⟩)
  rw [if_neg harm]
  have hpending : slot.reorderPending = true := by
    by_contra hp
    simp [hp] at harm
  have hnum : slot.reorderNackNum = seq := by
    by_contra hn
    simp [hn] at harm
  split
  · exact .inr (.inl ⟨rfl, Nat.pos_of_ne_zero hms, hpending, hnum, rfl⟩)
  · refine .inr (.inr ⟨rfl, Nat.pos_of_ne_zero hms, ?_⟩)
    simp [view, tickOnce, hpending, hnum, ownSessionHdr, reassembly]

@[simp] theorem reorderGapReady_recvWindow (seq : UInt32) :
    (slot.reorderGapReady e seq).1.recvWindow = slot.recvWindow := by
  rcases reorderGapReady_cases slot seq with ⟨-, -, h⟩ | ⟨-, -, -, -, h⟩ | ⟨-, -, h⟩
  · rw [h]
  · exact congrArg View.win h
  · exact congrArg View.win h

theorem slotGapReady_of_not_peer {seq : UInt32} (h : ¬ slot.peer.isSome = true) :
    slot.slotGapReady e seq = slot.reorderGapReady e seq := if_neg h

theorem nackGap_eq (slot : Slot) (seq : UInt32) :
    slot.nackGap e seq = if (slot.slotGapReady e seq).2 = true then
      (slot.slotGapReady e seq).1.slotSendNack e seq else (slot.slotGapReady e seq).1 := rfl

theorem nackGap_moves {seq : UInt32} (hgap : Gap slot.recvWindow cur seq) :
    Moves e cur (slot.view e) ((slot.nackGap e seq).view e) := by
  rw [nackGap_eq]
  unfold slotGapReady
  by_cases hpeer : slot.peer.isSome = true
  · simp only [if_pos hpeer, if_true]
    exact slotSendNack_moves hgap
  · simp only [if_neg hpeer]
    have hnone : slot.peer = none := by simpa using hpeer
    rcases reorderGapReady_cases slot seq with
      ⟨hr, -, hs⟩ | ⟨hr, -, -, -, hv⟩ | ⟨hr, hpos, hv⟩
    · rw [hr, if_pos rfl, hs]
      exact slotSendNack_moves hgap
    · rw [hr, if_pos rfl]
      refine .head (timerOff_move _) ?_
      rw [← hv]
      exact slotSendNack_moves (by rw [reorderGapReady_recvWindow]; exact hgap)
    · rw [hr, if_neg Bool.false_ne_true, hv]
      exact .single (.timer _ true seq fun _ => ⟨hnone, hpos, hgap⟩)

theorem reorderGapReady_active (slot : Slot) (seq : UInt32) :
    (slot.reorderGapReady e seq).1.active = slot.active := by
  rcases reorderGapReady_cases slot seq with ⟨-, -, h⟩ | ⟨-, -, -, -, h⟩ | ⟨-, -, h⟩
  · rw [h]
  · exact congrArg View.active h
  · exact congrArg View.active h

theorem nackGap_active (slot : Slot) (seq : UInt32) :
    (slot.nackGap e seq).active = slot.active := by
  have hready : (slot.slotGapReady e seq).1.active = slot.active := by
    unfold slotGapReady
    split
    · rfl
    · exact reorderGapReady_active slot seq
  rw [nackGap_eq]
  split
  · obtain ⟨dests, hv⟩ := view_slotSendNack (slot.slotGapReady e seq).1 seq
    exact (congrArg View.active hv).trans hready
  · exact hready

theorem nackGap_recvWindow (slot : Slot) (seq : UInt32) :
    (slot.nackGap e seq).recvWindow = slot.recvWindow := by
  have hready : (slot.slotGapReady e seq).1.recvWindow = slot.recvWindow := by
    unfold slotGapReady
    split
    · rfl
    · exact reorderGapReady_recvWindow seq
  rw [nackGap_eq]
  split
  · rw [slotSendNack_recvWindow, hready]
  · exact hready

-- Draining the window

theorem view_deliverPacket (slot : Slot) (pkt : Packet) (win : Window) :
    (deliverPacket e (emit { slot with recvWindow := win } (.pop pkt slot.healthAlive)) pkt).view e =
      (slot.view e).popped e pkt win := by
  have halive : (emit { slot with recvWindow := win } (.pop pkt slot.healthAlive)).healthAlive =
      slot.healthAlive := rfl
  unfold deliverPacket popped
  by_cases hping : pkt.has FLAG_PING = true
  · simp only [hping, if_true, Bool.not_true, Bool.and_false]
    rfl
  · rw [if_neg hping]
    cases hal : slot.healthAlive with
    | false =>
      rw [hal] at halive
      rw [deliverElems_of_dead halive]
      have hv : (slot.view e).alive = false := hal
      simp only [hv, Bool.false_and, Bool.false_eq_true, if_false]
      rfl
    | true =>
      rw [hal] at halive
      rw [deliverElems_of_alive halive]
      have hv : (slot.view e).alive = true := hal
      have hp : pkt.has FLAG_PING = false := by simpa using hping
      simp only [hv, hp, Bool.not_false, Bool.true_and, if_true]
      have hset : ∀ (s : Slot) (r : Reassembly),
          (s.setReassembly r).view e = { s.view e with frag := r } := fun _ _ => rfl
      rw [hset, view_callbackEmits]
      rfl

theorem deliverPacket_cases (slot : Slot) (pkt : Packet) :
    deliverPacket e slot pkt = slot ∨ slot.healthAlive = true ∧
      ∃ (out : List Bytes) (frag : Reassembly), deliverPacket e slot pkt =
        (slot.callbackEmits e (out.map Event.data)).setReassembly frag := by
  unfold deliverPacket
  split
  · exact .inl rfl
  · cases halive : slot.healthAlive with
    | false => exact .inl (deliverElems_of_dead halive _)
    | true => exact .inr ⟨rfl, _, _, deliverElems_of_alive halive _⟩

theorem drainLoop_succ (fuel : Nat) {pkt : Packet} {win : Window}
    (hpop : slot.recvWindow.recvPop = some (pkt, win)) :
    slot.drainLoop e (fuel + 1) = drainLoop e fuel (deliverPacket e
      (emit { slot with recvWindow := win } (.pop pkt slot.healthAlive)) pkt) := by
  rw [drainLoop, hpop]

theorem drainLoop_none (fuel : Nat) (hpop : slot.recvWindow.recvPop = none) :
    slot.drainLoop e fuel = slot := by
  cases fuel with
  | zero => rfl
  | succ fuel => rw [drainLoop, hpop]

-- What every round of the loop keeps.
theorem drainLoop_induct {P : Slot → Prop} (fuel : Nat) (hround : ∀ s pkt win, P s →
      s.recvWindow.recvPop = some (pkt, win) →
      P (deliverPacket e (emit { s with recvWindow := win } (.pop pkt s.healthAlive)) pkt))
    (h : P slot) : P (slot.drainLoop e fuel) := by
  induction fuel generalizing slot with
  | zero => exact h
  | succ fuel ih =>
    cases hpop : slot.recvWindow.recvPop with
    | none => rwa [drainLoop_none _ hpop]
    | some found =>
      rw [drainLoop_succ fuel hpop]
      exact ih (hround slot found.1 found.2 h hpop)

theorem drainLoop_moves (fuel : Nat) (hcur : Drains cur) (h : e.type.isRawType = false →
      slot.reorderPending = false ∨ slot.recvWindow.recvPop = none)
    (hused : slot.peer = none ∨ slot.active = true) :
    Moves e cur (slot.view e) ((slot.drainLoop e fuel).view e) := by
  induction fuel generalizing slot with
  | zero => exact .refl
  | succ fuel ih =>
    cases hpop : slot.recvWindow.recvPop with
    | none =>
      rw [drainLoop_none _ hpop]
    | some found =>
      obtain ⟨pkt, win⟩ := found
      have hoff : e.type.isRawType = false → slot.reorderPending = false := fun hraw =>
        (h hraw).resolve_right (by rw [hpop]; exact Option.some_ne_none _)
      have hview := view_deliverPacket (e := e) slot pkt win
      rw [drainLoop_succ fuel hpop]
      refine .head (.pop _ pkt win hcur hpop hoff hused) ?_
      rw [← hview]
      refine ih (fun hraw => .inl ?_) ?_
      · have hp := congrArg View.pending hview
        rw [popped_pending] at hp
        exact hp.trans (hoff hraw)
      · have hpeer := congrArg View.peer hview
        have hactive := congrArg View.active hview
        rw [popped_peer] at hpeer
        rw [popped_active] at hactive
        exact hused.imp hpeer.trans hactive.trans

-- With at least as many rounds as the window reaches ahead, the loop ends at a missing packet.
theorem drainLoop_head (fuel : Nat) (hwf : slot.recvWindow.RecvWF)
    (h : ∀ seq, slot.recvWindow.held seq ≠ none →
      Serial.dist seq slot.recvWindow.nextSeq < fuel) :
    (slot.drainLoop e fuel).recvWindow.held (slot.drainLoop e fuel).recvWindow.nextSeq = none := by
  induction fuel generalizing slot with
  | zero =>
    by_contra hne
    exact Nat.not_lt_zero _ (h _ hne)
  | succ fuel ih =>
    cases hpop : slot.recvWindow.recvPop with
    | none =>
      rw [drainLoop_none _ hpop]
      exact (Window.recvPop_eq_none hwf).mp hpop
    | some found =>
      obtain ⟨pkt, win⟩ := found
      rw [drainLoop_succ fuel hpop]
      have hwin : (deliverPacket e (emit { slot with recvWindow := win }
          (.pop pkt slot.healthAlive)) pkt).recvWindow = win := by
        have hv := congrArg View.win (view_deliverPacket (e := e) slot pkt win)
        rwa [popped_win] at hv
      obtain ⟨-, rfl⟩ := (Window.recvPop_eq_some hwf).mp hpop
      refine ih ?_ ?_
      · rw [hwin]
        exact Window.dropNext_wf hwf
      · intro seq hseq
        rw [hwin] at hseq ⊢
        rw [Window.dropNext_held hwf] at hseq
        split at hseq
        · exact absurd rfl hseq
        · rename_i hne
          have hlt := h seq hseq
          have hd := Serial.dist_succ_base hne
          rw [Window.dropNext_nextSeq]
          omega

theorem drain_head (hwf : slot.recvWindow.RecvWF) :
    (slot.drainLoop e slot.recvWindow.windowSize).recvWindow.held
      (slot.drainLoop e slot.recvWindow.windowSize).recvWindow.nextSeq = none := by
  refine drainLoop_head _ hwf fun seq hseq => ?_
  obtain ⟨pkt, hp⟩ := Option.ne_none_iff_exists'.mp hseq
  exact Window.lt_of_held hp

theorem closes_of_reached (h : slot.finPendingReached = true) :
    Closes cur (slot.view e) slot.finTargetSeq := by
  intro pkt _
  unfold finPendingReached at h
  simp only [Bool.and_eq_true, decide_eq_true_eq] at h
  exact .inl ⟨h.1, rfl, h.2⟩

theorem slotDrainRecvWindow_eq (slot : Slot) :
    slot.slotDrainRecvWindow e =
      if (slot.drainLoop e slot.recvWindow.windowSize).finPendingReached = true then
        ((slot.drainLoop e slot.recvWindow.windowSize).finFire e
          (slot.drainLoop e slot.recvWindow.windowSize).finTargetSeq,
          !(slot.drainLoop e slot.recvWindow.windowSize).peer.isSome)
      else (slot.drainLoop e slot.recvWindow.windowSize, true) := rfl

theorem finFire_head (target : UInt32)
    (h : slot.recvWindow.held slot.recvWindow.nextSeq = none) :
    (slot.finFire e target).recvWindow.held (slot.finFire e target).recvWindow.nextSeq = none := by
  unfold finFire
  split
  · have hwin : (peerFree { slot.disconnectAllPaths e with pendingFin := false, finTargetSeq := 0 }
        ).recvWindow = slot.recvWindow := by
      obtain ⟨evs, -, hv⟩ := view_disconnectAllPaths slot
      have hw := congrArg View.win hv
      rw [synced_win] at hw
      have hf := congrArg View.win (view_peerFree (e := e)
        { slot.disconnectAllPaths e with pendingFin := false, finTargetSeq := 0 })
      exact hf.trans hw
    simp only [hwin]
    exact h
  · exact Window.held_init 0 e.windowSize 0

theorem slotDrainRecvWindow_moves (hcur : Drains cur) (h : e.type.isRawType = false →
      slot.reorderPending = false ∨ slot.recvWindow.recvPop = none)
    (hused : slot.peer = none ∨ slot.active = true) (hwf : slot.recvWindow.RecvWF) :
    Moves e cur (slot.view e) ((slot.slotDrainRecvWindow e).1.view e) ∧
      (slot.slotDrainRecvWindow e).1.recvWindow.held
        (slot.slotDrainRecvWindow e).1.recvWindow.nextSeq = none := by
  rw [slotDrainRecvWindow_eq]
  have hmoves : Moves e cur _ _ := drainLoop_moves slot.recvWindow.windowSize hcur h hused
  have hhead := drain_head (e := e) hwf
  split
  · rename_i hreached
    exact ⟨hmoves.trans (finFire_moves (closes_of_reached hreached)), finFire_head _ hhead⟩
  · exact ⟨hmoves, hhead⟩

end

end Porter.Slot
