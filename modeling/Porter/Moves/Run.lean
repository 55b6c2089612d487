import Porter.Moves.Steps
import Porter.Recv.Peers

namespace Porter.Slot

open View Relation

section

variable {e : Env} {slot : Slot}

-- Timeouts

theorem checkReorderTimeout_eq (slot : Slot) :
    slot.checkReorderTimeout e =
      if slot.reorderPending = false then slot
      else if !(slot.reorderGapReady e slot.reorderNackNum).2 then
        (slot.reorderGapReady e slot.reorderNackNum).1
      else if e.type.isRawType = true then
        ((slot.reorderGapReady e slot.reorderNackNum).1.rawSessionDisconnect e).forgetSession e
      else (slot.reorderGapReady e slot.reorderNackNum).1.slotSendNack e
        (slot.reorderGapReady e slot.reorderNackNum).1.reorderNackNum := (rfl)

theorem checkReorderTimeout_moves (hpos : 0 < e.reorderTimeoutMs) (hpeer : slot.peer = none)
    (hhead : slot.HeadEmpty) :
    Moves e none (slot.view e) ((slot.checkReorderTimeout e).view e) ∧
      (slot.checkReorderTimeout e).HeadEmpty := by
  have hkeep : ∀ slot' : Slot, slot'.recvWindow = slot.recvWindow → slot'.HeadEmpty := by
    intro slot' hwin
    unfold HeadEmpty
    rw [hwin]
    exact hhead
  rw [checkReorderTimeout_eq]
  split
  · exact ⟨.refl, hhead⟩
  rename_i hpending
  have hpending' : slot.reorderPending = true := by simpa using hpending
  rcases reorderGapReady_cases (e := e) slot slot.reorderNackNum with
    ⟨-, h0, -⟩ | ⟨hr, -, -, -, hv⟩ | ⟨hr, -, hv⟩
  · omega
  · rw [hr]
    simp only [Bool.not_true, Bool.false_eq_true, if_false]
    split
    · rename_i hraw
      refine ⟨.head (timerOff_move _) ?_, Window.held_init ..⟩
      rw [← hv]
      obtain ⟨evs, -, hd⟩ := view_rawSessionDisconnect
        (slot.reorderGapReady e slot.reorderNackNum).1
      refine (rawSessionDisconnect_moves _).trans (.single (.forget _ Reassembly.empty ?_ ?_ ?_ ?_
        (closes_timeout _)))
      · exact fun h => absurd h (by simp [hraw])
      · change (((slot.reorderGapReady e slot.reorderNackNum).1.rawSessionDisconnect e).view
          e).peer = none
        rw [hd, hv]
        exact (synced_peer false evs).trans hpeer
      · change (((slot.reorderGapReady e slot.reorderNackNum).1.rawSessionDisconnect e).view
          e).alive = false
        rw [hd]
        exact synced_alive false evs
      · change (((slot.reorderGapReady e slot.reorderNackNum).1.rawSessionDisconnect e).view
          e).pending = false
        rw [hd, hv]
        exact synced_pending false evs
    · have hnum : (slot.reorderGapReady e slot.reorderNackNum).1.reorderNackNum =
          slot.reorderNackNum := congrArg View.nackNum hv
      obtain ⟨dests, hd⟩ := view_slotSendNack
        (slot.reorderGapReady e slot.reorderNackNum).1 slot.reorderNackNum
      rw [hnum, hd, hv]
      refine ⟨.single (.expire _ dests hpending'), hkeep _ ?_⟩
      rw [slotSendNack_recvWindow, reorderGapReady_recvWindow]
  · rw [hr]
    simp only [Bool.not_false, if_true]
    refine ⟨?_, hkeep _ (reorderGapReady_recvWindow _)⟩
    have hsame : slot.view e =
        { slot.view e with pending := true, nackNum := slot.reorderNackNum } := by
      rw [← hpending']
      rfl
    rw [hv, ← hsame]

theorem view_servicePathLoop (nowTs : Timespec) (acc : Slot × Bool) (i : Path) :
    (servicePathLoop e nowTs acc i).1.view e = acc.1.view e := by
  unfold servicePathLoop
  split <;> rfl

theorem view_peerPathLoop (nowTs : Timespec) (acc : Slot × Bool) (k : Path) :
    (peerPathLoop e nowTs acc k).1.view e = acc.1.view e := by
  unfold peerPathLoop
  split <;> rfl

private theorem forget_move {v : View} (hpeer : v.peer = none) (hdead : v.alive = false)
    (hpending : v.pending = false) (hfin : v.pendingFin = false) (htarget : v.finTarget = 0) :
    Move e none v (v.forgotten e) := by
  have hsame : v = { v with pendingFin := false, finTarget := 0 } := by
    rw [← hfin, ← htarget]
  have hmove : Move e none v _ :=
    .forget v v.frag (fun _ => rfl) hpeer hdead hpending (closes_timeout v)
  rwa [← hsame] at hmove

theorem serviceTimeout_moves (slot : Slot) (hpeer : slot.peer = none) :
    Moves e none (slot.view e) ((slot.serviceTimeout e).view e) ∧
      (slot.serviceTimeout e).HeadEmpty := by
  refine ⟨?_, Window.held_init ..⟩
  unfold serviceTimeout
  obtain ⟨evs, hevs, hv⟩ := view_disconnectAllPaths (clearPathPingStates
    { slot with pendingFin := false, finTargetSeq := 0, reorderPending := false })
  rw [view_forgetSession, hv]
  refine .head (.finClear _) (.head (timerOff_move _) (.head (.sync _ false evs hevs (by simp))
    (.single ?_)))
  refine forget_move ?_ ?_ ?_ ?_ ?_
  · exact (synced_peer false evs).trans hpeer
  · exact synced_alive false evs
  · exact synced_pending false evs
  · exact synced_pendingFin false evs
  · exact synced_finTarget false evs

-- The slot after a loop over the paths, which are told if one of them has changed.
def syncLooped (e : Env) (looped : Slot × Bool) : Slot :=
  if looped.2 then looped.1.syncPathState e else looped.1

def healthLooped (e : Env) (slot : Slot) : Slot × Bool :=
  (openPaths e).foldl (servicePathLoop e (slot.now e)) (slot.tickOnce, false)

def healthSynced (e : Env) (slot : Slot) : Slot := syncLooped e (slot.healthLooped e)

def peerLooped (e : Env) (nowTs : Timespec) (slot : Slot) : Slot × Bool :=
  paths.foldl (peerPathLoop e nowTs) (slot, false)

def peerSynced (e : Env) (nowTs : Timespec) (slot : Slot) : Slot := syncLooped e (slot.peerLooped e nowTs)

def peerTimeout (e : Env) (slot : Slot) : Slot :=
  peerFree (disconnectAllPaths e { slot with remotePathPingState := fun _ => PING_STATE_UNDEFINED })

theorem healthCheckService_eq (slot : Slot) :
    slot.healthCheckService e =
      if e.healthTimeoutMs = 0 then slot
      else if (slot.healthSynced e).healthAlive = false || (slot.healthSynced e).lastRecvTs.tvSec = 0
        then slot.healthSynced e
      else if (e.healthTimeoutMs : Int) ≤
          e.plat.timespecDiffMs (slot.now e) (slot.healthSynced e).lastRecvTs then
        (slot.healthSynced e).serviceTimeout e
      else slot.healthSynced e := (rfl)

theorem healthCheckService_cases (slot : Slot) :
    slot.healthCheckService e = slot ∨ slot.healthCheckService e = slot.healthSynced e ∨
      slot.healthCheckService e = (slot.healthSynced e).serviceTimeout e := by
  rw [healthCheckService_eq]
  split
  · exact .inl rfl
  split
  · exact .inr (.inl rfl)
  split
  · exact .inr (.inr rfl)
  · exact .inr (.inl rfl)

theorem healthCheckPeer_eq (nowTs : Timespec) (slot : Slot) :
    slot.healthCheckPeer e nowTs =
      if slot.active = false || slot.healthAlive = false then slot
      else if (slot.peerSynced e nowTs).lastRecvTs.tvSec = 0 then slot.peerSynced e nowTs
      else if (e.healthTimeoutMs : Int) ≤
          e.plat.timespecDiffMs nowTs (slot.peerSynced e nowTs).lastRecvTs then
        (slot.peerSynced e nowTs).peerTimeout e
      else slot.peerSynced e nowTs := by
  unfold healthCheckPeer peerSynced peerLooped
  generalize paths.foldl (peerPathLoop e nowTs) (slot, false) = looped
  rfl

theorem healthCheckPeer_cases (nowTs : Timespec) (slot : Slot) :
    slot.healthCheckPeer e nowTs = slot ∨ slot.active = true ∧ slot.healthAlive = true ∧
      (slot.healthCheckPeer e nowTs = slot.peerSynced e nowTs ∨
        slot.healthCheckPeer e nowTs = (slot.peerSynced e nowTs).peerTimeout e) := by
  rw [healthCheckPeer_eq]
  split
  · exact .inl rfl
  rename_i hon
  simp only [Bool.or_eq_true, decide_eq_true_eq, not_or, Bool.not_eq_false] at hon
  refine .inr ⟨hon.1, hon.2, ?_⟩
  split
  · exact .inl rfl
  split
  · exact .inr rfl
  · exact .inl rfl

theorem view_healthLooped (slot : Slot) : (slot.healthLooped e).1.view e = slot.view e :=
  Run.foldl_preserves (P := fun acc : Slot × Bool => acc.1.view e = slot.view e)
    (fun acc i h => (view_servicePathLoop (slot.now e) acc i).trans h) rfl (openPaths e)

theorem view_peerLooped (nowTs : Timespec) (slot : Slot) :
    (slot.peerLooped e nowTs).1.view e = slot.view e :=
  Run.foldl_preserves (P := fun acc : Slot × Bool => acc.1.view e = slot.view e)
    (fun acc k h => (view_peerPathLoop nowTs acc k).trans h) rfl paths

theorem syncLooped_moves {looped : Slot × Bool} (hloop : looped.1.view e = slot.view e)
    (hlive : slot.peer = none ∨ slot.active = true) (hhead : slot.HeadEmpty) :
    Moves e none (slot.view e) ((syncLooped e looped).view e) ∧ (syncLooped e looped).HeadEmpty := by
  have hlhead : looped.1.HeadEmpty := by
    unfold HeadEmpty
    rw [show looped.1.recvWindow = slot.recvWindow from congrArg View.win hloop]
    exact hhead
  rw [← hloop]
  unfold syncLooped
  split
  · refine ⟨syncPathState_moves looped.1 ?_, syncPathState_head _ hlhead⟩
    exact hlive.imp (congrArg View.peer hloop).trans (congrArg View.active hloop).trans
  · exact ⟨.refl, hlhead⟩

theorem healthCheckService_moves (hpeer : slot.peer = none) (hhead : slot.HeadEmpty) :
    Moves e none (slot.view e) ((slot.healthCheckService e).view e) ∧
      (slot.healthCheckService e).HeadEmpty := by
  have hsync := syncLooped_moves (view_healthLooped (e := e) slot) (.inl hpeer) hhead
  rcases healthCheckService_cases slot with heq | heq | heq
  · rw [heq]
    exact ⟨.refl, hhead⟩
  · rw [heq]
    exact hsync
  · rw [heq]
    obtain ⟨hmoves, hh⟩ := (serviceTimeout_moves (slot.healthSynced e)
      ((Moves.peer_eq hsync.1).trans hpeer) : Moves e none _ _ ∧ _)
    exact ⟨hsync.1.trans hmoves, hh⟩

theorem peerTimeout_moves (slot : Slot) (hpeer : slot.peer.isSome = true) (hhead : slot.HeadEmpty) :
    Moves e none (slot.view e) ((slot.peerTimeout e).view e) ∧ (slot.peerTimeout e).HeadEmpty := by
  obtain ⟨evs, hevs, hv⟩ := view_disconnectAllPaths
    { slot with remotePathPingState := fun _ => PING_STATE_UNDEFINED }
  have hfree : (slot.peerTimeout e).view e = _ := view_peerFree _
  rw [hv] at hfree
  refine ⟨?_, ?_⟩
  · rw [hfree]
    refine .head (.sync _ false evs hevs (by simp)) (.single (.free _ ?_ (synced_alive false evs)
      (closes_timeout _)))
    rw [synced_peer]
    exact hpeer
  · unfold HeadEmpty
    rw [show (slot.peerTimeout e).recvWindow = slot.recvWindow from
      (congrArg View.win hfree).trans (synced_win false evs)]
    exact hhead

theorem healthCheckPeer_moves (nowTs : Timespec) (hpeer : slot.peer.isSome = true)
    (hhead : slot.HeadEmpty) :
    Moves e none (slot.view e) ((slot.healthCheckPeer e nowTs).view e) ∧
      (slot.healthCheckPeer e nowTs).HeadEmpty := by
  rcases healthCheckPeer_cases nowTs slot with heq | ⟨hactive, -, heq⟩
  · rw [heq]
    exact ⟨.refl, hhead⟩
  obtain ⟨hmoves, hshead⟩ :=
    syncLooped_moves (view_peerLooped nowTs slot) (.inr hactive) hhead
  rcases heq with heq | heq
  · rw [heq]
    exact ⟨hmoves, hshead⟩
  · rw [heq]
    obtain ⟨hfree, hh⟩ := peerTimeout_moves (slot.peerSynced e nowTs)
      ((congrArg Option.isSome (Moves.peer_eq hmoves)).trans hpeer) hshead
    exact ⟨hmoves.trans hfree, hh⟩

theorem onPollTimeout_moves (hpeer : slot.peer = none) (hok : Ok e slot) :
    Moves e none ((slot.view e).emit .poll) ((slot.onPollTimeout e).view e) ∧
      (slot.onPollTimeout e).HeadEmpty := by
  unfold onPollTimeout
  have hhead : (slot.emit .poll).HeadEmpty := hok.head
  split
  · obtain ⟨hmoves, hh⟩ := (healthCheckService_moves hpeer hhead :
      Moves e none ((slot.emit .poll).view e) _ ∧ _)
    split
    · rename_i hpos
      have hnone : ((slot.emit .poll).healthCheckService e).peer = none :=
        (Moves.peer_eq hmoves).trans hpeer
      obtain ⟨hmoves', hh'⟩ := (checkReorderTimeout_moves hpos hnone hh : Moves e none _ _ ∧ _)
      exact ⟨hmoves.trans hmoves', hh'⟩
    · exact ⟨hmoves, hh⟩
  · exact ⟨.refl, hhead⟩

end

-- One round of the receive thread

namespace Input

def cur : Input → Option Packet
  | packet _ _ pkt => some pkt
  | pollTimeout => none

def note : Input → Act
  | packet _ _ pkt => .recv pkt
  | pollTimeout => .poll

end Input

section

variable {e : Env} {slot : Slot}

theorem step_packet_eq (slot : Slot) (path : Path) (sender : Endpoint) (pkt : Packet) :
    slot.step e (.packet path sender pkt) =
      if e.nPath ≤ path.val then slot
      else if e.role = .sender then
        if ((slot.emit (.recv pkt)).senderHandlePacket e pkt).2 then
          ((slot.emit (.recv pkt)).senderHandlePacket e pkt).1.dispatchPacket e pkt path sender
        else ((slot.emit (.recv pkt)).senderHandlePacket e pkt).1
      else (slot.emit (.recv pkt)).dispatchPacket e pkt path sender := (rfl)

-- A service that takes the packet to dispatch: a receiver or either end of UNICAST_BIDIR.
theorem step_dispatches (hrecv : e.role = .receiver ∨ e.type = .unicastBidir)
    {path : Path} (sender : Endpoint) (hpath : path.val < e.nPath) {pkt : Packet}
    (hnack : pkt.has FLAG_NACK = false) :
    slot.step e (.packet path sender pkt) =
      (slot.emit (.recv pkt)).dispatchPacket e pkt path sender := by
  rw [step_packet_eq, if_neg (by omega)]
  split
  · rename_i hrole
    have hbidir : e.type = .unicastBidir := hrecv.resolve_left (by rw [hrole]; decide)
    have hhandle : (slot.emit (.recv pkt)).senderHandlePacket e pkt =
        (slot.emit (.recv pkt), true) := by
      unfold senderHandlePacket onNack
      simp [hbidir, hnack, PotrType.isRawType]
    rw [hhandle]
    rfl
  · rfl

private theorem senderHandlePacket_moves (pkt : Packet) (hok : Ok e slot) :
    Moves e (some pkt) (slot.view e) ((slot.senderHandlePacket e pkt).1.view e) ∧
      Ok e (slot.senderHandlePacket e pkt).1 := by
  unfold senderHandlePacket
  split
  · exact ⟨.refl, hok⟩
  · exact ⟨onNack_moves rfl, onNack_ok hok⟩

theorem recv_early (pkt : Packet) : ((slot.emit (.recv pkt)).view e).Early :=
  undrained_note _ _ (.inl ⟨pkt, rfl⟩)

private theorem senderHandlePacket_early (pkt : Packet) :
    (((slot.emit (.recv pkt)).senderHandlePacket e pkt).1.view e).Early := by
  have hearly := (recv_early pkt : ((slot.emit (.recv pkt)).view e).Early)
  unfold senderHandlePacket
  split
  · exact hearly
  · rcases view_onNack (slot.emit (.recv pkt)) pkt with hv | ⟨-, dests, hv⟩
    · simp only
      rw [hv]
      exact hearly
    · simp only
      rw [hv]
      refine hearly.emits fun act hact => ?_
      obtain ⟨d, -, rfl⟩ := List.mem_map.mp hact
      rfl

theorem emit_ok (hok : Ok e slot) (act : Act) : Ok e (slot.emit act) :=
  ⟨⟨hok.inv.kind, hok.inv.wf, hok.inv.size, hok.inv.timer⟩, hok.head⟩

theorem step_moves (hlex : e.plat.CmpLex) (hpeer : slot.peer = none) (hok : Ok e slot)
    (input : Input) :
    (slot.step e input = slot ∨
      Moves e input.cur ((slot.view e).emit input.note) ((slot.step e input).view e)) ∧
      Ok e (slot.step e input) := by
  cases input with
  | pollTimeout =>
    obtain ⟨hmoves, hhead⟩ := onPollTimeout_moves hpeer hok
    exact ⟨.inr hmoves, Moves.inv hmoves (emit_ok hok .poll).inv, hhead⟩
  | packet path sender pkt =>
    rw [step_packet_eq]
    split
    · exact ⟨.inl rfl, hok⟩
    have hnoted := emit_ok hok (.recv pkt)
    split
    · obtain ⟨hmoves, hok'⟩ := senderHandlePacket_moves pkt hnoted
      split
      · have hnone := (Moves.peer_eq hmoves).trans hpeer
        obtain ⟨hmoves', hok''⟩ := dispatchPacket_moves hlex pkt path sender hok'
          (senderHandlePacket_early pkt) (.inl hnone)
        exact ⟨.inr (hmoves.trans hmoves'), hok''⟩
      · exact ⟨.inr hmoves, hok'⟩
    · obtain ⟨hmoves, hok'⟩ := dispatchPacket_moves hlex pkt path sender hnoted
        (recv_early pkt) (.inl hpeer)
      exact ⟨.inr hmoves, hok'⟩

theorem opened_ok (sessionId : UInt32) (sessionTs : Timespec) (destAddr : Path → Endpoint) :
    Ok e (opened e sessionId sessionTs destAddr) :=
  ⟨⟨fun h => absurd rfl h, Window.init_wf e.windowSize_pos e.windowSize_le, rfl, fun _ => rfl⟩,
    Window.held_init ..⟩

theorem step_preserves (hlex : e.plat.CmpLex) {P : View → Prop} {input : Input}
    (hnote : ∀ v, Inv e v → P v → P (v.emit input.note))
    (hmove : ∀ v v', Inv e v → Move e input.cur v v' → P v → P v')
    (hpeer : slot.peer = none) (hok : Ok e slot) (h : P (slot.view e)) :
    P ((slot.step e input).view e) := by
  rcases (step_moves hlex hpeer hok input).1 with heq | hmoves
  · rw [heq]
    exact h
  · have hinv : Inv e ((slot.view e).emit input.note) := (emit_ok hok input.note).inv
    exact (Run.star_preserves (P := fun v => Inv e v ∧ P v)
      (fun v v' hm hv => ⟨hm.inv hv.1, hmove v v' hv.1 hm hv.2⟩) hmoves
      ⟨hinv, hnote _ hok.inv h⟩).2

theorem step_peer (hlex : e.plat.CmpLex) (hpeer : slot.peer = none) (hok : Ok e slot)
    (input : Input) : (slot.step e input).peer = none := by
  rcases (step_moves hlex hpeer hok input).1 with heq | hmoves
  · rw [heq]
    exact hpeer
  · exact (Moves.peer_eq hmoves).trans hpeer

theorem run_ok (hlex : e.plat.CmpLex) (hpeer : slot.peer = none) (hok : Ok e slot)
    (inputs : List Input) : (slot.run e inputs).peer = none ∧ Ok e (slot.run e inputs) :=
  Run.foldl_preserves (P := fun slot : Slot => slot.peer = none ∧ Ok e slot)
    (fun _ input h => ⟨step_peer hlex h.1 h.2 input, (step_moves hlex h.1 h.2 input).2⟩)
    ⟨hpeer, hok⟩ inputs

theorem step_log_extends (hlex : e.plat.CmpLex) (hpeer : slot.peer = none) (hok : Ok e slot)
    (input : Input) : ∃ rest, (slot.step e input).log = slot.log ++ rest := by
  rcases (step_moves hlex hpeer hok input).1 with heq | hmoves
  · exact ⟨[], by rw [heq, List.append_nil]⟩
  · obtain ⟨rest, hrest⟩ := Moves.log_extends hmoves
    exact ⟨_ :: rest, hrest.trans (by simp [View.emit, View.emits]; rfl)⟩

theorem run_log_extends (hlex : e.plat.CmpLex) (hpeer : slot.peer = none) (hok : Ok e slot)
    (inputs : List Input) : ∃ rest, (slot.run e inputs).log = slot.log ++ rest := by
  induction inputs generalizing slot with
  | nil => exact ⟨[], (List.append_nil _).symm⟩
  | cons input inputs ih =>
    obtain ⟨more, hmore⟩ := step_log_extends hlex hpeer hok input
    obtain ⟨rest, hrest⟩ := ih (step_peer hlex hpeer hok input) (step_moves hlex hpeer hok input).2
    exact ⟨more ++ rest, hrest.trans (by rw [hmore, List.append_assoc])⟩

theorem run_preserves (hlex : e.plat.CmpLex) {P : View → Prop} {inputs : List Input}
    (hnote : ∀ input ∈ inputs, ∀ v, Inv e v → P v → P (v.emit input.note))
    (hmove : ∀ input ∈ inputs, ∀ v v', Inv e v → Move e input.cur v v' → P v → P v')
    (hpeer : slot.peer = none) (hok : Ok e slot) (h : P (slot.view e)) :
    P ((slot.run e inputs).view e) :=
  (Run.foldl_preserves_of_mem
    (P := fun slot : Slot => (slot.peer = none ∧ Ok e slot) ∧ P (slot.view e))
    (fun _ input hin hs => ⟨⟨step_peer hlex hs.1.1 hs.1.2 input,
      (step_moves hlex hs.1.1 hs.1.2 input).2⟩,
      step_preserves hlex (hnote input hin) (hmove input hin) hs.1.1 hs.1.2 hs.2⟩)
    ⟨⟨hpeer, hok⟩, h⟩).2

end

end Porter.Slot
