import Porter.Delivery.Integrity.Peers
import Porter.Recv.Tcp

namespace Porter

namespace View

-- A receiver of `session` with no FIN pending: `frag` are the fragments it keeps, `out` is what
-- it has delivered.
structure Stands (e : Env) (session : SessionHdr) (frag : Reassembly) (out : List Bytes)
    (v : View) : Prop where
  inv : Inv e v
  live : v.peer = none ∨ v.active = true
  known : v.known = true
  session : v.session = session
  fin : v.pendingFin = false
  frag : v.frag = frag
  out : delivered v.log = out

-- It has consumed everything before the number `seq` and holds nothing.
structure Awaits (e : Env) (session : SessionHdr) (seq : UInt32) (frag : Reassembly)
    (out : List Bytes) (v : View) : Prop extends Stands e session frag out v where
  next : v.win.nextSeq = seq
  empty : ∀ s, v.win.held s = none

-- It tracks no session yet.
structure Unjoined (e : Env) (frag : Reassembly) (out : List Bytes) (v : View) : Prop where
  inv : Inv e v
  live : v.peer = none ∨ v.active = true
  known : v.known = false
  frag : v.frag = frag
  out : delivered v.log = out

-- A window that holds the packet with the number `seq`, the next one, and nothing else.
structure Holds (e : Env) (seq : UInt32) (pkt : Packet) (win : Window) : Prop where
  wf : win.RecvWF
  size : win.windowSize = e.windowSize
  next : win.nextSeq = seq
  head : win.held seq = some pkt
  rest : ∀ s, s ≠ seq → win.held s = none

-- A change that leaves all of this as it is.
structure Still (e : Env) (v v' : View) : Prop extends Idle v v' where
  inv : Inv e v → Inv e v'
  peer : v'.peer = v.peer
  active : v'.active = v.active
  fin : v'.pendingFin = v.pendingFin

section

variable {e : Env} {session : SessionHdr} {seq : UInt32} {frag : Reassembly} {out : List Bytes}
  {v v' v'' : View}

theorem Still.refl (v : View) : Still e v v := ⟨.refl v, id, rfl, rfl, rfl⟩

theorem Still.trans (h : Still e v v') (h' : Still e v' v'') : Still e v v'' :=
  ⟨h.toIdle.trans h'.toIdle, h'.inv ∘ h.inv, h'.peer.trans h.peer, h'.active.trans h.active,
    h'.fin.trans h.fin⟩

theorem Still.emits (v : View) {acts : List Act} (h : ∀ act ∈ acts, act.message = none) :
    Still e v (v.emits acts) :=
  ⟨.emits v h, fun hinv => ⟨hinv.kind, hinv.wf, hinv.size, hinv.timer⟩, rfl, rfl, rfl⟩

theorem Still.emit (v : View) {act : Act} (h : act.message = none) : Still e v (v.emit act) :=
  .emits v fun a ha => by
    rw [List.mem_singleton.mp ha]
    exact h

theorem Still.synced (v : View) (alive : Bool) {evs : List Event}
    (hevs : ∀ ev ∈ evs, ev.isPath = true) : Still e v (v.synced e alive evs) := by
  refine ⟨.synced v alive hevs, fun hinv => ?_, synced_peer alive evs, synced_active alive evs,
    by simp⟩
  exact ⟨by simpa using hinv.kind, by simpa using hinv.wf, by simpa using hinv.size,
    by simpa using hinv.timer⟩

theorem Still.timerOff (v : View) : Still e v { v with pending := false } :=
  ⟨⟨rfl, rfl, rfl, rfl, rfl⟩, fun hinv => ⟨hinv.kind, hinv.wf, hinv.size, fun _ => rfl⟩, rfl, rfl,
    rfl⟩

theorem Stands.of_still (h : v.Stands e session frag out) (hstill : Still e v v') :
    v'.Stands e session frag out where
  inv := hstill.inv h.inv
  live := by
    rw [hstill.peer, hstill.active]
    exact h.live
  known := hstill.known.trans h.known
  session := hstill.session.trans h.session
  fin := hstill.fin.trans h.fin
  frag := hstill.frag.trans h.frag
  out := hstill.delivered_eq.trans h.out

theorem Awaits.of_still (h : v.Awaits e session seq frag out) (hstill : Still e v v') :
    v'.Awaits e session seq frag out :=
  ⟨h.toStands.of_still hstill, by rw [hstill.win]; exact h.next,
    by rw [hstill.win]; exact h.empty⟩

theorem Unjoined.of_still (h : v.Unjoined e frag out) (hstill : Still e v v') :
    v'.Unjoined e frag out where
  inv := hstill.inv h.inv
  live := by
    rw [hstill.peer, hstill.active]
    exact h.live
  known := hstill.known.trans h.known
  frag := hstill.frag.trans h.frag
  out := hstill.delivered_eq.trans h.out

theorem Unjoined.adopted {pkt : Packet} (h : v.Unjoined e frag out) :
    (v.adopted e pkt).Awaits e pkt.session pkt.seqNum frag out := by
  have hact : (Act.adopt pkt.session pkt.seqNum).message = none := rfl
  refine ⟨⟨⟨h.inv.kind, Window.init_wf e.windowSize_pos e.windowSize_le, rfl, fun _ => rfl⟩, h.live,
    rfl, rfl, rfl, h.frag, ?_⟩, rfl, Window.held_init _ _⟩
  exact (Idle.emit v hact).delivered_eq.trans h.out

theorem Awaits.of_init (hinv : Inv e v) (hlive : v.peer = none ∨ v.active = true)
    (hknown : v.known = true) (hwin : v.win = Window.init seq e.windowSize)
    (hfin : v.pendingFin = false) :
    v.Awaits e v.session seq v.frag (delivered v.log) :=
  ⟨⟨hinv, hlive, hknown, rfl, hfin, rfl, rfl⟩, by rw [hwin]; rfl,
    fun s => by rw [hwin]; exact Window.held_init ..⟩

theorem Holds.recvNeedsNack {pkt : Packet} {win : Window} (h : Holds e seq pkt win) :
    win.recvNeedsNack = none := by
  refine (Window.recvNeedsNack_eq_none h.wf).mpr (.inl ?_)
  rw [h.next, h.head]
  exact Option.some_ne_none _

theorem Awaits.push {pkt : Packet} (h : v.Awaits e session seq frag out) (hnum : pkt.seqNum = seq) :
    ∃ win, v.win.recvPush pkt = some win ∧ Holds e seq pkt win ∧
      ({ v with win := win } : View).Stands e session frag out := by
  have hwf := h.inv.wf
  cases hpush : v.win.recvPush pkt with
  | none =>
    have hout := (Window.recvPush_eq_none hwf).mp hpush
    rw [hnum, h.next, Serial.dist_self] at hout
    have := hwf.size_pos
    omega
  | some win =>
    have hheld := Window.recvPush_held hwf hpush
    have hsize := (Window.recvPush_windowSize hpush).trans h.inv.size
    have hwf' := Window.recvPush_wf hwf hpush
    refine ⟨win, rfl, ⟨hwf', hsize, (Window.recvPush_nextSeq hpush).trans h.next, ?_, fun s hs => ?_⟩,
      ⟨⟨h.inv.kind, hwf', hsize, h.inv.timer⟩, h.live, h.known, h.session, h.fin, h.frag, h.out⟩⟩
    · rw [hheld, if_pos hnum.symm, h.empty]
      rfl
    · rw [hheld, if_neg (hnum ▸ hs)]
      exact h.empty s

theorem Stands.popped {pkt : Packet} (h : v.Stands e session frag out) (halive : v.alive = true)
    (hcallback : e.callback = true) (hping : pkt.has FLAG_PING = false)
    (hwin : Holds e seq pkt v.win) :
    (v.popped e pkt v.win.dropNext).Awaits e session (seq + 1)
      (frag.feedAll e (Packet.unpackAll pkt.payload)).1
      (out ++ (frag.feedAll e (Packet.unpackAll pkt.payload)).2) where
  inv := by
    refine ⟨?_, ?_, ?_, ?_⟩
    · rw [popped_peer]
      exact h.inv.kind
    · rw [popped_win]
      exact Window.dropNext_wf hwin.wf
    · rw [popped_win]
      exact hwin.size
    · rw [popped_peer, popped_pending]
      exact h.inv.timer
  live := by
    rw [popped_peer, popped_active]
    exact h.live
  known := by
    rw [popped_known]
    exact h.known
  session := by
    rw [popped_session]
    exact h.session
  next := by
    rw [popped_win, Window.dropNext_nextSeq, hwin.next]
  empty s := by
    rw [popped_win, Window.dropNext_held hwin.wf, hwin.next]
    split
    · rfl
    · rename_i hne
      exact hwin.rest s hne
  fin := by
    rw [popped_pendingFin]
    exact h.fin
  frag := by
    rw [popped_live halive _ hping, ← h.frag]
  out := by
    have hmessages : ∀ data : List Bytes,
        (data.map fun d => Act.event (.data d)).filterMap Act.message = data := fun data => by
      rw [List.filterMap_map]
      exact List.filterMap_some
    have hpop : (Act.pop pkt true).message = none := rfl
    rw [popped_live halive _ hping, ← h.frag, ← h.out]
    unfold callbackEmits
    rw [if_pos hcallback]
    rw [delivered_emits, List.map_map]
    refine congrArg₂ (· ++ ·) ?_ (hmessages _)
    exact (Idle.emit { v with win := v.win.dropNext } hpop).delivered_eq

end

end View

namespace Slot

open View

section

variable {e : Env} {slot : Slot} {session : SessionHdr} {seq : UInt32} {frag : Reassembly}
  {out : List Bytes} {pkt : Packet}

theorem syncPathState_still (slot : Slot) : Still e (slot.view e) ((slot.syncPathState e).view e) := by
  obtain ⟨evs, hevs, hv⟩ := view_syncPathStateLocked slot (slot.nextPathStates e)
  unfold syncPathState
  rw [hv]
  exact .synced _ _ hevs

theorem slotDrainRecvWindow_awaits (slot : Slot) (hcallback : e.callback = true)
    (hping : pkt.has FLAG_PING = false) (halive : slot.healthAlive = true)
    (h : (slot.view e).Stands e session frag out) (hwin : Holds e seq pkt slot.recvWindow) :
    (slot.slotDrainRecvWindow e).2 = true ∧
      ((slot.slotDrainRecvWindow e).1.view e).Awaits e session (seq + 1)
        (frag.feedAll e (Packet.unpackAll pkt.payload)).1
        (out ++ (frag.feedAll e (Packet.unpackAll pkt.payload)).2) := by
  have hpop : slot.recvWindow.recvPop = some (pkt, slot.recvWindow.dropNext) :=
    (Window.recvPop_eq_some hwin.wf).mpr ⟨by rw [hwin.next]; exact hwin.head, rfl⟩
  have hview := view_deliverPacket (e := e) slot pkt slot.recvWindow.dropNext
  have hpopped : ((slot.view e).popped e pkt slot.recvWindow.dropNext).Awaits e session _ _ _ :=
    h.popped halive hcallback hping hwin
  rw [← hview] at hpopped
  have hloop : slot.drainLoop e slot.recvWindow.windowSize =
      deliverPacket e (Slot.emit { slot with recvWindow := slot.recvWindow.dropNext }
        (.pop pkt slot.healthAlive)) pkt := by
    obtain ⟨n, hn⟩ : ∃ n, slot.recvWindow.windowSize = n + 1 :=
      ⟨slot.recvWindow.windowSize - 1, by have := hwin.wf.size_pos; omega⟩
    rw [hn, drainLoop_succ n hpop]
    exact drainLoop_none n ((Window.recvPop_eq_none hpopped.inv.wf).mpr (hpopped.empty _))
  have hkeep : (slot.drainLoop e slot.recvWindow.windowSize).finPendingReached = false := by
    unfold finPendingReached
    rw [hloop, show (deliverPacket e _ pkt).pendingFin = false from hpopped.fin, Bool.false_and]
  rw [slotDrainRecvWindow_eq, hkeep, hloop]
  exact ⟨rfl, hpopped⟩

theorem acceptHealth_still (slot : Slot) (pkt : Packet) (path : Path) :
    Still e (slot.view e) ((slot.acceptHealth e pkt path).view e) := by
  unfold acceptHealth
  split
  · exact syncPathState_still (slot.updatePathHealth e path)
  · exact .refl _

theorem acceptHealth_stays (slot : Slot) (hudp : e.type.isTcpType = false)
    (halive : slot.healthAlive = true) (pkt : Packet) (path : Path) :
    (slot.acceptHealth e pkt path).healthAlive = true := by
  by_cases hguard : (slot.peer.isNone && pkt.has FLAG_DATA && decide (e.type ≠ .unicastBidir)) = true
  · simp only [Bool.and_eq_true, Option.isNone_iff_eq_none, decide_eq_true_eq] at hguard
    exact acceptHealth_alive hguard.1.1 ⟨hudp, hguard.2⟩ hguard.1.2 path
  · unfold acceptHealth
    rw [if_neg hguard]
    exact halive

theorem acceptOuter_awaits (path : Path) (hudp : e.type.isTcpType = false)
    (hcallback : e.callback = true) (h : (slot.view e).Awaits e session seq frag out)
    (halive : slot.healthAlive = true) (hping : pkt.has FLAG_PING = false)
    (hnum : pkt.seqNum = seq) :
    ((slot.acceptOuter e pkt path).view e).Awaits e session (seq + 1)
      (frag.feedAll e (Packet.unpackAll pkt.payload)).1
      (out ++ (frag.feedAll e (Packet.unpackAll pkt.payload)).2) := by
  obtain ⟨win, hpush, hwin, hstands⟩ := h.push hnum
  have hpushed : slot.acceptPush e pkt = (slot.pushed pkt win, true) := acceptPush_some hpush
  have hgap : (slot.pushed pkt win).acceptGap e pkt =
      ({ slot.pushed pkt win with reorderPending := false }, true) :=
    acceptGap_none hwin.recvNeedsNack
  have hentered : Still e ({ slot.view e with win := win } : View)
      (view e { slot.pushed pkt win with reorderPending := false }) :=
    (Still.emit { slot.view e with win := win } (rfl : (Act.push pkt).message = none)).trans
      (.timerOff _)
  have hhealth := acceptHealth_still (e := e)
    { slot.pushed pkt win with reorderPending := false } pkt path
  have hstays := acceptHealth_stays { slot.pushed pkt win with reorderPending := false } hudp halive
    pkt path
  obtain ⟨hgoes, hdrained⟩ := slotDrainRecvWindow_awaits _ hcallback hping hstays
    ((hstands.of_still hentered).of_still hhealth)
    (by rw [acceptHealth_recvWindow]; exact hwin : Holds e seq pkt _)
  rw [acceptOuter_eq, hpushed]
  simp only [hgap, hgoes, Bool.not_true, Bool.false_eq_true, if_false, if_true]
  refine hdrained.of_still ?_
  generalize ((acceptHealth e { slot.pushed pkt win with reorderPending := false } pkt
    path).slotDrainRecvWindow e).1 = drained at hdrained ⊢
  have hnone : drained.recvWindow.recvNeedsNack = none :=
    (Window.recvNeedsNack_eq_none hdrained.inv.wf).mpr (.inr hdrained.empty)
  unfold acceptPostDrain
  rw [hnone]
  exact .timerOff _

theorem scanPingGap_still (hnum : pkt.seqNum = slot.recvWindow.nextSeq) :
    Still e (slot.view e) ((slot.scanPingGap e pkt).view e) := by
  have hahead : slot.pingAhead pkt = false := by
    unfold pingAhead
    simp [hnum]
  have hscan : ∀ fuel, scanLoop e pkt fuel slot slot.recvWindow.nextSeq =
      (slot, slot.recvWindow.nextSeq) := fun fuel => by
    cases fuel with
    | zero => rfl
    | succ fuel => simp [scanLoop_succ, hnum]
  rw [scanPingGap_eq, hscan, hahead]
  split
  · exact .refl _
  split
  · exact .timerOff _
  split
  · exact .timerOff _
  · exact .refl _

theorem dispatchPing_still (path : Path) (hnum : pkt.seqNum = slot.recvWindow.nextSeq) :
    Still e (slot.view e) ((slot.dispatchPing e pkt path).view e) := by
  have hview := view_pinged (e := e) slot pkt path
  rw [dispatchPing_eq]
  generalize slot.pinged e pkt path = seen at hview ⊢
  have hwin : seen.recvWindow = slot.recvWindow := congrArg View.win hview
  rw [← hview]
  split
  · exact (scanPingGap_still (by rw [hwin]; exact hnum)).trans (syncPathState_still _)
  · have hsync := syncPathState_still (e := e) seen
    refine hsync.trans (scanPingGap_still ?_)
    rw [show (seen.syncPathState e).recvWindow = seen.recvWindow from hsync.win, hwin]
    exact hnum

theorem dispatchPacket_awaits_data (hlex : e.plat.CmpLex) (path : Path) (sender : Endpoint)
    (hudp : e.type.isTcpType = false) (hcallback : e.callback = true)
    (h : (slot.view e).Awaits e session seq frag out) (halive : slot.healthAlive = true)
    (hflags : pkt.flags = FLAG_DATA) (hsession : pkt.session = session) (hnum : pkt.seqNum = seq) :
    ((slot.dispatchPacket e pkt path sender).view e).Awaits e session (seq + 1)
      (frag.feedAll e (Packet.unpackAll pkt.payload)).1
      (out ++ (frag.feedAll e (Packet.unpackAll pkt.payload)).2) := by
  have hadopt := sessionAdopt_tracked hlex h.known (h.session.trans hsession.symm)
  have hview := view_learnSenderPath (e := e) slot path sender
  rw [dispatchPacket_eq, hadopt]
  simp only [Packet.has_of_flags hflags]
  refine acceptOuter_awaits path hudp hcallback (hview ▸ h) ?_ (Packet.has_of_flags hflags _) hnum
  exact (congrArg View.alive hview).trans halive

theorem dispatchPacket_ping (hlex : e.plat.CmpLex) (path : Path) (sender : Endpoint)
    (h : (slot.view e).Awaits e session seq frag out) (hflags : pkt.flags = FLAG_PING)
    (hsession : pkt.session = session) (hnum : pkt.seqNum = seq) :
    ((slot.dispatchPacket e pkt path sender).view e).Awaits e session seq frag out := by
  have hadopt := sessionAdopt_tracked hlex h.known (h.session.trans hsession.symm)
  have hview := view_learnSenderPath (e := e) slot path sender
  rw [dispatchPacket_eq, hadopt]
  simp only [Packet.has_of_flags hflags]
  refine h.of_still (hview ▸ dispatchPing_still path ?_)
  rw [show (slot.learnSenderPath e path sender).recvWindow = slot.recvWindow from
    congrArg View.win hview]
  exact hnum.trans h.next.symm

theorem syncLooped_still {looped : Slot × Bool} (hloop : looped.1.view e = slot.view e) :
    Still e (slot.view e) ((syncLooped e looped).view e) := by
  rw [← hloop]
  unfold syncLooped
  split
  · exact syncPathState_still _
  · exact .refl _

-- A poll timeout after which the service is still connected has reset nothing.
theorem healthCheckService_still (halive : (slot.healthCheckService e).healthAlive = true) :
    Still e (slot.view e) ((slot.healthCheckService e).view e) := by
  rcases healthCheckService_cases slot with heq | heq | heq
  · rw [heq]
    exact .refl _
  · rw [heq]
    exact syncLooped_still (view_healthLooped slot)
  · obtain ⟨evs, -, hv⟩ := view_disconnectAllPaths (clearPathPingStates
      { slot.healthSynced e with pendingFin := false, finTargetSeq := 0, reorderPending := false })
    have hdead : ((slot.healthSynced e).serviceTimeout e).healthAlive = false :=
      (congrArg View.alive hv).trans (synced_alive false evs)
    rw [heq, hdead] at halive
    cases halive

theorem checkReorderTimeout_still (halive : (slot.checkReorderTimeout e).healthAlive = true) :
    slot.healthAlive = true ∧ Still e (slot.view e) ((slot.checkReorderTimeout e).view e) := by
  rw [checkReorderTimeout_eq] at halive ⊢
  split
  · rename_i hoff
    rw [if_pos hoff] at halive
    exact ⟨halive, .refl _⟩
  rename_i hon
  rw [if_neg hon] at halive
  have hgap : Still e (slot.view e) ((slot.reorderGapReady e slot.reorderNackNum).1.view e) ∧
      (slot.reorderGapReady e slot.reorderNackNum).1.healthAlive = slot.healthAlive := by
    rcases reorderGapReady_cases slot slot.reorderNackNum with
      ⟨-, -, hs⟩ | ⟨-, -, -, -, hv⟩ | ⟨-, -, hv⟩
    · rw [hs]
      exact ⟨.refl _, rfl⟩
    · rw [hv]
      exact ⟨.timerOff _, congrArg View.alive hv⟩
    · rw [hv]
      refine ⟨⟨⟨rfl, rfl, rfl, rfl, rfl⟩, fun hinv => ⟨hinv.kind, hinv.wf, hinv.size, fun hq => ?_⟩,
        rfl, rfl, rfl⟩, congrArg View.alive hv⟩
      exact absurd (hinv.timer hq) hon
  obtain ⟨hstill, hsame⟩ := hgap
  generalize slot.reorderGapReady e slot.reorderNackNum = ready at hstill hsame halive ⊢
  split
  · rename_i hwait
    rw [if_pos hwait] at halive
    exact ⟨hsame.symm.trans halive, hstill⟩
  rename_i hwait
  rw [if_neg hwait] at halive
  split
  · rename_i hraw
    rw [if_pos hraw] at halive
    obtain ⟨evs, -, hv⟩ := view_rawSessionDisconnect ready.1
    have hdead : ((ready.1.rawSessionDisconnect e).forgetSession e).healthAlive = false :=
      (congrArg View.alive hv).trans (synced_alive false evs)
    exact absurd (hdead.symm.trans halive) Bool.noConfusion
  · rename_i hraw
    rw [if_neg hraw] at halive
    obtain ⟨dests, hv⟩ := view_slotSendNack ready.1 ready.1.reorderNackNum
    refine ⟨hsame.symm.trans ((congrArg View.alive hv).symm.trans halive), hstill.trans ?_⟩
    rw [hv]
    exact .emits _ (message_nack _ _ _ dests)

theorem onPollTimeout_still (halive : (slot.onPollTimeout e).healthAlive = true) :
    Still e (slot.view e) ((slot.onPollTimeout e).view e) := by
  have hnoted : Still e (slot.view e) ((slot.emit .poll).view e) := .emit _ rfl
  unfold onPollTimeout at halive ⊢
  split
  · rename_i hkind
    rw [if_pos hkind] at halive
    split
    · rename_i hpos
      rw [if_pos hpos] at halive
      obtain ⟨hbefore, hreorder⟩ := checkReorderTimeout_still halive
      exact (hnoted.trans (healthCheckService_still hbefore)).trans hreorder
    · rename_i hpos
      rw [if_neg hpos] at halive
      exact hnoted.trans (healthCheckService_still halive)
  · exact hnoted

theorem healthCheckPeer_still {nowTs : Timespec}
    (halive : (slot.healthCheckPeer e nowTs).healthAlive = true) :
    slot.healthAlive = true ∧ Still e (slot.view e) ((slot.healthCheckPeer e nowTs).view e) := by
  rcases healthCheckPeer_cases nowTs slot with heq | ⟨-, hbefore, heq⟩
  · rw [heq] at halive ⊢
    exact ⟨halive, .refl _⟩
  refine ⟨hbefore, ?_⟩
  rcases heq with heq | heq
  · rw [heq]
    exact syncLooped_still (view_peerLooped nowTs slot)
  · obtain ⟨evs, -, hv⟩ := view_disconnectAllPaths
      { slot.peerSynced e nowTs with remotePathPingState := fun _ => PING_STATE_UNDEFINED }
    have hfree : ((slot.peerSynced e nowTs).peerTimeout e).healthAlive = _ :=
      congrArg View.alive (view_peerFree (e := e) _)
    rw [heq, hfree.trans ((congrArg View.alive hv).trans (synced_alive false evs))] at halive
    cases halive

end

-- The inputs of a receive thread that carry a DATA packet, and those that may come between two
-- of them: poll timeouts and PINGs that announce the next number.
def Input.Carries (e : Env) (input : Input) (pkt : Packet) : Prop :=
  ∃ path sender, path.val < e.nPath ∧ input = .packet path sender pkt

def Input.Between (session : SessionHdr) (seq : UInt32) : Input → Prop
  | .packet _ _ pkt => pkt.flags = FLAG_PING ∧ pkt.session = session ∧ pkt.seqNum = seq
  | .pollTimeout => True

section

variable {e : Env} {slot : Slot} {session : SessionHdr} {seq : UInt32} {frag : Reassembly}
  {out : List Bytes} {pkt : Packet} {input : Input}

theorem step_data (hlex : e.plat.CmpLex) (hudp : e.type.isTcpType = false)
    (hrecv : e.role = .receiver ∨ e.type = .unicastBidir) (hcallback : e.callback = true)
    (h : (slot.view e).Awaits e session seq frag out) (halive : slot.healthAlive = true)
    (hcarries : input.Carries e pkt) (hflags : pkt.flags = FLAG_DATA)
    (hsession : pkt.session = session) (hnum : pkt.seqNum = seq) :
    ((slot.step e input).view e).Awaits e session (seq + 1)
      (frag.feedAll e (Packet.unpackAll pkt.payload)).1
      (out ++ (frag.feedAll e (Packet.unpackAll pkt.payload)).2) := by
  obtain ⟨path, sender, hpath, rfl⟩ := hcarries
  rw [step_dispatches hrecv sender hpath (Packet.has_of_flags hflags _)]
  exact dispatchPacket_awaits_data hlex path sender hudp hcallback
    (h.of_still (.emit _ (rfl : (Act.recv pkt).message = none))) halive hflags hsession hnum

theorem step_between (hlex : e.plat.CmpLex)
    (hrecv : e.role = .receiver ∨ e.type = .unicastBidir)
    (h : (slot.view e).Awaits e session seq frag out) (hinput : input.Between session seq)
    (halive : (slot.step e input).healthAlive = true) :
    ((slot.step e input).view e).Awaits e session seq frag out := by
  cases input with
  | pollTimeout => exact h.of_still (onPollTimeout_still halive)
  | packet path sender pkt =>
    obtain ⟨hflags, hsession, hnum⟩ := hinput
    by_cases hpath : path.val < e.nPath
    · rw [step_dispatches hrecv sender hpath (Packet.has_of_flags hflags _)]
      exact dispatchPacket_ping hlex path sender
        (h.of_still (.emit _ (rfl : (Act.recv pkt).message = none))) hflags hsession hnum
    · rw [step_packet_eq, if_pos (by omega)]
      exact h

end

end Slot

namespace Ctx

open View

section

variable {e : Env} {ctx : Ctx} {session : SessionHdr} {seq : UInt32} {frag : Reassembly}
  {out : List Bytes} {pkt : Packet} {slot : Slot} {i : Nat}

-- The peer in slot `i` of an N:1 service.
structure Awaits (e : Env) (i : Nat) (session : SessionHdr) (seq : UInt32) (frag : Reassembly)
    (out : List Bytes) (ctx : Ctx) : Prop where
  table : Table e ctx
  bound : i < e.maxPeers
  active : (ctx.peers i).active = true
  slot : ((ctx.slotInitPeer i).view e).Awaits e session seq frag out

private theorem Awaits.finds (hlex : e.plat.CmpLex) (h : ctx.Awaits e i session seq frag out)
    (hsession : pkt.session = session) : ctx.findBySession e pkt = some i := by
  have hown : ctx.session i = pkt.session := h.slot.session.trans hsession.symm
  cases hfind : ctx.findBySession e pkt with
  | none => exact absurd hown (findBySession_none hlex hfind i h.bound h.active)
  | some j =>
    obtain ⟨hj, hactive, hother⟩ := findBySession_some hlex hfind
    rw [h.table.sessions j hj i h.bound hactive h.active (hother.trans hown.symm)]

private theorem Awaits.dispatched (hlex : e.plat.CmpLex) (hkind : e.type = .unicastBidirN1)
    {seq' : UInt32} {frag' : Reassembly} {out' : List Bytes}
    (h : ctx.Awaits e i session seq frag out) {path : Path} (sender : Endpoint)
    (hpath : path.val < e.nPath) (hsession : pkt.session = session)
    (hslot : ((((ctx.slotInitPeer i).emit (.recv pkt)).dispatchPacket e pkt path sender).view
      e).Awaits e session seq' frag' out') :
    (ctx.step e (.packet path sender pkt)).Awaits e i session seq' frag' out' := by
  have htable := Changes.table hlex (step_changes hlex hkind h.table (.packet path sender pkt))
    h.table
  have hstep : ctx.step e (.packet path sender pkt) = ctx.store i
      (((ctx.slotInitPeer i).emit (.recv pkt)).dispatchPacket e pkt path sender) := by
    change (if e.nPath ≤ path.val then ctx else ctx.n1HandlePacket e pkt path sender) = _
    rw [if_neg (by omega)]
    unfold n1HandlePacket
    rw [h.finds hlex hsession]
  have hpeer : (((ctx.slotInitPeer i).emit (.recv pkt)).dispatchPacket e pkt path sender).peer ≠
      none := by
    have hmoves := (Slot.dispatchPacket_moves hlex pkt path sender
      (Slot.emit_ok (h.table.ok i h.bound h.active) _) (Slot.recv_early pkt) (.inr h.active)).1
    rw [show (Slot.dispatchPacket e _ pkt path sender).peer = (ctx.peers i).peer from
      Moves.peer_eq hmoves]
    exact h.table.peer i h.bound h.active
  rw [hstep] at htable ⊢
  generalize ((ctx.slotInitPeer i).emit (.recv pkt)).dispatchPacket e pkt path sender = slot
    at hslot htable hpeer ⊢
  refine ⟨htable, h.bound, ?_, by rw [slotInitPeer_store_self]; exact hslot⟩
  rw [store_peers_self]
  exact hslot.live.resolve_left hpeer

theorem step_data (hlex : e.plat.CmpLex) (hkind : e.type = .unicastBidirN1)
    (hcallback : e.callback = true) {input : Slot.Input} (h : ctx.Awaits e i session seq frag out)
    (halive : (ctx.peers i).healthAlive = true) (hcarries : input.Carries e pkt)
    (hflags : pkt.flags = FLAG_DATA) (hsession : pkt.session = session) (hnum : pkt.seqNum = seq) :
    (ctx.step e input).Awaits e i session (seq + 1)
      (frag.feedAll e (Packet.unpackAll pkt.payload)).1
      (out ++ (frag.feedAll e (Packet.unpackAll pkt.payload)).2) := by
  obtain ⟨path, sender, hpath, rfl⟩ := hcarries
  have hudp : e.type.isTcpType = false := by rw [hkind]; rfl
  exact h.dispatched hlex hkind sender hpath hsession (Slot.dispatchPacket_awaits_data hlex path sender hudp
    hcallback (h.slot.of_still (.emit _ (rfl : (Act.recv pkt).message = none))) halive hflags
    hsession hnum)

private theorem Awaits.store_other {j : Nat} (hne : i ≠ j)
    (h : ctx.Awaits e i session seq frag out) (htable : Table e (ctx.store j slot))
    (hlog : delivered slot.log = delivered ctx.log) :
    (ctx.store j slot).Awaits e i session seq frag out := by
  have hpeers : (ctx.store j slot).peers i = ctx.peers i := store_peers_of_ne hne slot
  refine ⟨htable, h.bound, by rw [hpeers]; exact h.active, ?_⟩
  have hview : ((ctx.store j slot).slotInitPeer i).view e =
      { (ctx.slotInitPeer i).view e with log := slot.log } := by
    unfold slotInitPeer
    rw [hpeers]
    rfl
  have hs := h.slot
  rw [hview]
  exact ⟨⟨⟨hs.inv.kind, hs.inv.wf, hs.inv.size, hs.inv.timer⟩, hs.live, hs.known, hs.session, hs.fin,
    hs.frag, hlog.trans hs.out⟩, hs.next, hs.empty⟩

private theorem healthCheckPeer_delivered (nowTs : Timespec) (ht : Table e ctx) {j : Nat}
    (hj : j < e.maxPeers) :
    delivered ((ctx.slotInitPeer j).healthCheckPeer e nowTs).log = delivered ctx.log := by
  by_cases hactive : (ctx.peers j).active = true
  · have hmoves : Moves e none _ _ := (Slot.healthCheckPeer_moves nowTs
      (Option.isSome_iff_ne_none.mpr (ht.peer j hj hactive)) (ht.ok j hj hactive).head).1
    exact (Moves.quiet hmoves).delivered_eq
  · rw [healthCheckPeer_inactive hactive]
    rfl

private theorem healthCheckPeers_awaits (hlex : e.plat.CmpLex)
    (h : ctx.Awaits e i session seq frag out)
    (halive : ((ctx.healthCheckPeers e).peers i).healthAlive = true) :
    (ctx.healthCheckPeers e).Awaits e i session seq frag out := by
  have hticked : Awaits e i session seq frag out { ctx with tick := ctx.tick + 1 } :=
    ⟨Change.table hlex (.idle ctx _ rfl fun _ => .inl rfl) h.table, h.bound, h.active, h.slot⟩
  unfold healthCheckPeers at halive ⊢
  split
  · exact hticked
  rename_i hms
  rw [if_neg hms] at halive
  -- No check of another peer touches the slot, and its own check never connects it.
  refine (Run.foldl_preserves_of_mem (P := fun ctx' : Ctx => Table e ctx' ∧
    ((ctx'.peers i).healthAlive = true → ctx'.Awaits e i session seq frag out)) ?_
    ⟨hticked.table, fun _ => hticked⟩).2 halive
  intro ctx' j hj hctx
  have hlt := List.mem_range.mp hj
  have htable := Changes.table hlex (healthCheckPeer_changes (e.plat.clock ctx.tick) hctx.1 hlt)
    hctx.1
  have hlog := healthCheckPeer_delivered (e.plat.clock ctx.tick) hctx.1 hlt
  refine ⟨htable, fun hlive => ?_⟩
  by_cases hji : i = j
  · subst hji
    rw [store_peers_self] at hlive
    obtain ⟨hbefore, hstill⟩ := Slot.healthCheckPeer_still hlive
    have hwas := hctx.2 hbefore
    have hslot := hwas.slot.of_still hstill
    refine ⟨htable, hwas.bound, ?_, by rw [slotInitPeer_store_self]; exact hslot⟩
    rw [store_peers_self]
    exact hstill.active.trans hwas.active
  · rw [store_peers_of_ne hji] at hlive
    exact (hctx.2 hlive).store_other hji htable hlog

theorem step_between (hlex : e.plat.CmpLex) (hkind : e.type = .unicastBidirN1) {input : Slot.Input}
    (h : ctx.Awaits e i session seq frag out) (hinput : input.Between session seq)
    (halive : ((ctx.step e input).peers i).healthAlive = true) :
    (ctx.step e input).Awaits e i session seq frag out := by
  cases input with
  | pollTimeout => exact healthCheckPeers_awaits hlex h halive
  | packet path sender pkt =>
    obtain ⟨hflags, hsession, hnum⟩ := hinput
    by_cases hpath : path.val < e.nPath
    · exact h.dispatched hlex hkind sender hpath hsession (Slot.dispatchPacket_ping hlex path sender
        (h.slot.of_still (.emit _ (rfl : (Act.recv pkt).message = none))) hflags hsession hnum)
    · change Awaits e i session seq frag out
        (if e.nPath ≤ path.val then ctx else ctx.n1HandlePacket e pkt path sender)
      rw [if_pos (by omega)]
      exact h

end

end Ctx

namespace TcpCtx

open View

-- The receiver of a TCP service. Over TCP it is the first DATA packet that starts the session.
structure Awaits (e : Env) (session : SessionHdr) (seq : UInt32) (frag : Reassembly)
    (out : List Bytes) (ctx : TcpCtx) : Prop where
  slot : (ctx.toSlot.view e).Awaits e session seq frag out ∨
    (ctx.toSlot.view e).Unjoined e frag out
  accepted : ctx.tcpAcceptedSession = none ∨ ctx.tcpAcceptedSession = some session

def Input.Carries (up : Path → Bool) (input : Input) (pkt : Packet) : Prop :=
  ∃ path, up path = true ∧ input = .packet path pkt

-- Over TCP a PING says nothing about the window.
def Input.Between (session : SessionHdr) : Input → Prop
  | .packet _ pkt => pkt.flags = FLAG_PING ∧ pkt.session = session
  | .pollTimeout _ => True
  | _ => False

section

variable {e : Env} {ctx : TcpCtx} {session : SessionHdr} {seq : UInt32} {frag : Reassembly}
  {out : List Bytes} {pkt : Packet} {input : Input}

private theorem Awaits.not_refuses (hlex : e.plat.CmpLex) (h : ctx.Awaits e session seq frag out)
    (hsession : pkt.session = session) : ctx.refuses e pkt = false := by
  unfold refuses
  rcases h.accepted with hnone | hsome
  · rw [hnone]
  · have hts : e.plat.timespecCmp pkt.sessionTs session.ts = 0 :=
      (hlex.eq_zero _ _).mpr (congrArg SessionHdr.ts hsession)
    have hid : pkt.sessionId = session.id := congrArg SessionHdr.id hsession
    rw [hsome]
    simp [hts, hid]

theorem acceptData_awaits {slot : Slot} (hlex : e.plat.CmpLex) (hcallback : e.callback = true)
    (h : (slot.view e).Awaits e session seq frag out) (halive : slot.healthAlive = true)
    (hping : pkt.has FLAG_PING = false) (hsession : pkt.session = session)
    (hnum : pkt.seqNum = seq) :
    ((acceptData e slot pkt).view e).Awaits e session (seq + 1)
      (frag.feedAll e (Packet.unpackAll pkt.payload)).1
      (out ++ (frag.feedAll e (Packet.unpackAll pkt.payload)).2) := by
  have hadopt := Slot.sessionAdopt_tracked hlex h.known (h.session.trans hsession.symm)
  obtain ⟨win, hpush, hwin, hstands⟩ := h.push hnum
  have hpushed : slot.pushRecvWindow pkt = (slot.pushed pkt win, true) := by
    unfold Slot.pushRecvWindow
    rw [show slot.recvWindow.recvPush pkt = some win from hpush]
  have hentered : Still e ({ slot.view e with win := win } : View)
      ((slot.pushed pkt win).view e) := .emit _ rfl
  unfold acceptData
  rw [hadopt]
  simp only [hpushed, Bool.not_true, Bool.false_eq_true, if_false]
  exact (Slot.slotDrainRecvWindow_awaits (slot.pushed pkt win) hcallback hping halive
    (hstands.of_still hentered) hwin).2

private theorem acceptData_unjoined {slot : Slot} (hlex : e.plat.CmpLex)
    (hknown : slot.peerSessionKnown = false) :
    acceptData e slot pkt = acceptData e (slot.adoptSession e pkt) pkt := by
  have hfirst : slot.sessionAdopt e pkt = (slot.adoptSession e pkt, true) := by
    unfold Slot.sessionAdopt
    rw [if_pos hknown]
  have hagain : (slot.adoptSession e pkt).sessionAdopt e pkt = (slot.adoptSession e pkt, true) :=
    Slot.sessionAdopt_tracked hlex rfl rfl
  unfold acceptData
  rw [hfirst, hagain]

private theorem Awaits.of_slot {slot : Slot} (h : ctx.Awaits e session seq frag out)
    (hstill : Still e (ctx.toSlot.view e) (slot.view e)) :
    Awaits e session seq frag out { ctx with toSlot := slot } :=
  ⟨h.slot.imp (·.of_still hstill) (·.of_still hstill), h.accepted⟩

theorem step_data (hlex : e.plat.CmpLex) (hcallback : e.callback = true) {up : Path → Bool}
    (h : ctx.Awaits e session seq frag out) (halive : ctx.healthAlive = true)
    (hup : ∀ path, up path = true → ctx.running path = true) (hcarries : input.Carries up pkt)
    (hflags : pkt.flags = FLAG_DATA) (hsession : pkt.session = session) (hnum : pkt.seqNum = seq) :
    (ctx.step e input).Awaits e session (seq + 1)
      (frag.feedAll e (Packet.unpackAll pkt.payload)).1
      (out ++ (frag.feedAll e (Packet.unpackAll pkt.payload)).2) := by
  obtain ⟨path, hpath, rfl⟩ := hcarries
  have hctx : Awaits e session seq frag out { ctx with toSlot := ctx.toSlot.emit (.recv pkt) } :=
    h.of_slot (.emit _ rfl)
  have hstep : ctx.step e (.packet path pkt) =
      { ctx with toSlot := acceptData e (ctx.toSlot.emit (.recv pkt)) pkt } := by
    change (if ctx.running path = true then
      tcpHandlePacket e { ctx with toSlot := ctx.toSlot.emit (.recv pkt) } pkt path else ctx) = _
    rw [if_pos (hup path hpath)]
    unfold tcpHandlePacket
    rw [hctx.not_refuses hlex hsession]
    simp only [Packet.has_of_flags hflags]
    rfl
  rw [hstep]
  refine ⟨.inl ?_, h.accepted⟩
  have hping := Packet.has_of_flags hflags FLAG_PING
  rcases hctx.slot with hslot | hslot
  · exact acceptData_awaits hlex hcallback hslot halive hping hsession hnum
  · subst hsession hnum
    have hjoined : (((ctx.toSlot.emit (.recv pkt)).adoptSession e pkt).view e).Awaits e pkt.session
        pkt.seqNum frag out := hslot.adopted
    have halive' : ((ctx.toSlot.emit (.recv pkt)).adoptSession e pkt).healthAlive = true := halive
    rw [acceptData_unjoined hlex hslot.known]
    exact acceptData_awaits hlex hcallback hjoined halive' hping rfl rfl

private theorem handlePing_slot (ctx : TcpCtx) (pkt : Packet) (path : Path) :
    Still e (ctx.toSlot.view e) ((ctx.handlePing e pkt path).toSlot.view e) := by
  unfold handlePing
  split
  · exact Slot.syncPathState_still ((ctx.toSlot.tickOnce.setPathPingState path
      PING_STATE_NORMAL).applyRemotePathPingState pkt.payload)
  · exact Slot.syncPathState_still (ctx.toSlot.tickOnce.setPathPingState path PING_STATE_NORMAL)

private theorem checkPingTimeout_slot (ctx : TcpCtx) (path : Path) :
    Still e (ctx.toSlot.view e) ((ctx.checkPingTimeout e path).toSlot.view e) := by
  unfold checkPingTimeout
  split
  · exact .refl _
  · dsimp only
    split
    · exact Slot.syncPathState_still
        (ctx.toSlot.tickOnce.setPathPingState path PING_STATE_ABNORMAL)
    · exact .refl _

theorem step_between (hlex : e.plat.CmpLex) (h : ctx.Awaits e session seq frag out)
    (hinput : input.Between session) : (ctx.step e input).Awaits e session seq frag out := by
  cases input with
  | packet path pkt =>
    obtain ⟨hflags, hsession⟩ := hinput
    change Awaits e session seq frag out (if ctx.running path = true then
      tcpHandlePacket e { ctx with toSlot := ctx.toSlot.emit (.recv pkt) } pkt path else ctx)
    split
    · have hctx : Awaits e session seq frag out
          { ctx with toSlot := ctx.toSlot.emit (.recv pkt) } := h.of_slot (.emit _ rfl)
      unfold tcpHandlePacket
      rw [hctx.not_refuses hlex hsession]
      simp only [Packet.has_of_flags hflags]
      have hstill := handlePing_slot (e := e)
        { ctx with toSlot := ctx.toSlot.emit (.recv pkt) } pkt path
      exact ⟨hctx.slot.imp (·.of_still hstill) (·.of_still hstill), h.accepted⟩
    · exact h
  | pollTimeout path =>
    change Awaits e session seq frag out (if ctx.running path = true then
      checkPingTimeout e { ctx with toSlot := ctx.toSlot.emit .poll } path else ctx)
    split
    · have hctx : Awaits e session seq frag out { ctx with toSlot := ctx.toSlot.emit .poll } :=
        h.of_slot (.emit _ rfl)
      have hstill := checkPingTimeout_slot (e := e)
        { ctx with toSlot := ctx.toSlot.emit .poll } path
      refine ⟨hctx.slot.imp (·.of_still hstill) (·.of_still hstill), ?_⟩
      · unfold checkPingTimeout
        split
        · exact h.accepted
        · dsimp only
          split <;> exact h.accepted
    · exact h
  | _ => exact hinput.elim

end

end TcpCtx

end Porter
