import Porter.Connection.Links
import Porter.Recv.Peers

namespace Porter

-- A time that has no seconds, or that the clock has shown before.
def Env.Shown (e : Env) (tick : Nat) (ts : Timespec) : Prop :=
  ts.tvSec = 0 ∨ ∃ n < tick, ts = e.plat.clock n

theorem Env.Shown.mono {e : Env} {tick tick' : Nat} {ts : Timespec} (h : e.Shown tick ts)
    (hle : tick ≤ tick') : e.Shown tick' ts := by
  rcases h with hzero | ⟨n, hn, hts⟩
  · exact .inl hzero
  · exact .inr ⟨n, by omega, hts⟩

namespace Slot

-- The packets that the receive thread and the closing of a peer send.
inductive Replies (e : Env) (slot : Slot) : Packet → Prop where
  | nack (nackNum : UInt32) : Replies e slot (Packet.buildNack (slot.ownSessionHdr e) nackNum)
  | reject (seqNum : UInt32) : Replies e slot (Packet.buildReject (slot.ownSessionHdr e) seqNum)
  | fin (hasData : Bool) (nextSeq : UInt32) :
      Replies e slot (Packet.finOf (slot.ownSessionHdr e) hasData nextSeq)
  | again {seq : UInt32} {pkt : Packet} (hget : slot.sendWindow.sendGet seq = some pkt) :
      Replies e slot pkt

-- What they may put into the log.
def Writes (e : Env) (slot : Slot) : Act → Prop
  | .send _ _ pkt => slot.Replies e pkt
  | .sendTcp pkt => ∃ finTargetSeq, pkt = Packet.buildFinAck (slot.ownSessionHdr e) finTargetSeq
  | _ => True

theorem Replies.writes {e : Env} {slot : Slot} {pkt : Packet} (h : slot.Replies e pkt) {α : Type}
    (l : List α) (f : α → Path × Endpoint) :
    ∀ act ∈ l.map fun a => Act.send (f a).1 (f a).2 pkt, slot.Writes e act := by
  intro act hact
  obtain ⟨a, -, rfl⟩ := List.mem_map.mp hact
  exact h

-- A property of a slot that survives the writes of the receive thread of which the application
-- hears nothing.
structure Hidden (e : Env) (path : Path) (sender : Endpoint) (P : Slot → Prop) : Prop where
  -- windows, fragments, timers and the remote session
  inner : ∀ {slot slot' : Slot}, P slot → slot'.links = slot.links → slot'.nPeers = slot.nPeers →
    slot'.log = slot.log →
    (slot'.nackDedupBuf, slot'.nackDedupNext) = (slot.nackDedupBuf, slot.nackDedupNext) →
    slot.tick ≤ slot'.tick → P slot'
  pings : ∀ {slot : Slot} (own remote : Path → UInt8), P slot →
    P { slot with pathPingState := own, remotePathPingState := remote }
  heard : ∀ {slot : Slot} (last : Timespec) (paths : Path → Timespec), e.Shown slot.tick last →
    P slot → P { slot with lastRecvTs := last, pathLastRecvTs := paths }
  learn : ∀ {slot : Slot}, P slot → P (slot.learnSenderPath e path sender)

-- A property of a slot that survives every single write of the receive thread, with what is known
-- when it is made, but for those to the memory of answered NACKs and the loss of a peer's path.
-- With `L` it is also known that only a slot in use reports a connection.
structure Frame (L : Prop) (e : Env) (path : Path) (sender : Endpoint) (P : Slot → Prop) : Prop
    extends Hidden e path sender P where
  silent : ∀ {slot : Slot} {acts : List Act}, (∀ act ∈ acts, act.isEvent = false) →
    (∀ act ∈ acts, slot.Writes e act) → P slot → P (slot.emits acts)
  deliver : ∀ {slot : Slot} (out : List Bytes), slot.healthAlive = true → P slot →
    P (slot.callbackEmits e (out.map Event.data))
  locked : ∀ {slot : Slot} (states : Path → Bool),
    (L → anyPathAlive states = true → slot.peer = none ∨ slot.active = true) → P slot →
    P (slot.syncPathStateLocked e states)
  free : ∀ {slot : Slot}, slot.peer.isSome = true → (slot.pathLogicalAlive = fun _ => false) →
    P slot → P slot.peerFree

-- A property of a slot that survives every single write of the receive thread, but for those to
-- the memory of answered NACKs and the loss of a peer's path.
structure Firm (e : Env) (path : Path) (sender : Endpoint) (P : Slot → Prop) : Prop
    extends Hidden e path sender P where
  emits : ∀ {slot : Slot} (acts : List Act), (∀ act ∈ acts, slot.Writes e act) → P slot →
    P (slot.emits acts)
  sync : ∀ {slot : Slot} (states : Path → Bool), P slot →
    P { slot with pathLogicalAlive := states, healthAlive := anyPathAlive states }
  free : ∀ {slot : Slot}, P slot → P slot.peerFree

structure Steady (e : Env) (path : Path) (sender : Endpoint) (P : Slot → Prop) : Prop
    extends Firm e path sender P where
  clear : ∀ {slot : Slot} (k : Path), (slot.destAddr k).isUnset = false → P slot →
    P (slot.peerPathClear k)

-- A property that survives every single write of the receive thread. What the thread does to a
-- slot is made of such writes, so the property survives all of it.
structure Stable (e : Env) (path : Path) (sender : Endpoint) (P : Slot → Prop) : Prop
    extends Steady e path sender P where
  dedup : ∀ {slot : Slot} (buf : Nat → NackDedupEntry) (next : Nat), P slot →
    P { slot with nackDedupBuf := buf, nackDedupNext := next }

-- All that the receive thread may make of a slot.
def Written (e : Env) (path : Path) (sender : Endpoint) (slot slot' : Slot) : Prop :=
  ∀ {P : Slot → Prop}, Stable e path sender P → P slot → P slot'

theorem peer_frame (e : Env) (path : Path) (sender : Endpoint) (peer : Option UInt32) :
    Frame False e path sender fun slot => slot.peer = peer where
  silent _ _ hs := hs
  deliver _ _ hs := (congrArg (fun l : Links => l.peer) (callbackEmits_links _ _)).trans hs
  inner hs hlinks _ _ _ _ := (congrArg (fun l : Links => l.peer) hlinks).trans hs
  locked _ _ hs := (congrArg (fun l : Links => l.peer) (callbackEmits_links _ _)).trans hs
  pings _ _ hs := hs
  heard _ _ _ hs := hs
  learn hs := (congrArg Conn.peer (learnSenderPath_conn _ path sender)).trans hs
  free hpeer hdead hs := (Turn.free _ hpeer hdead : Turn e _ _).peer_eq.trans hs

namespace Frame

variable {L : Prop} {e : Env} {path : Path} {sender : Endpoint} {P : Slot → Prop}
  (h : Frame L e path sender P) {slot : Slot}

include h

theorem emit {act : Act} (hact : act.isEvent = false) (hwrites : slot.Writes e act) (hs : P slot) :
    P (slot.emit act) :=
  h.silent (by simpa using hact) (by simpa using hwrites) hs

theorem syncPathState (hlive : L → slot.peer = none ∨ slot.active = true) (hs : P slot) :
    P (slot.syncPathState e) := h.locked _ (fun hl _ => hlive hl) hs

theorem disconnectAllPaths (hs : P slot) : P (slot.disconnectAllPaths e) :=
  h.locked _ (fun _ hany => absurd (anyPathAlive_false.symm.trans hany) Bool.false_ne_true) hs

theorem clearPathPingStates (hs : P slot) : P slot.clearPathPingStates := h.pings _ _ hs

theorem tickOnce (hs : P slot) : P slot.tickOnce := h.inner hs rfl rfl rfl rfl (Nat.le_succ _)

theorem setPathPingState (k : Path) (state : UInt8) (hs : P slot) : P (slot.setPathPingState k state) :=
  h.pings _ slot.remotePathPingState hs

theorem updatePathHealth (k : Path) (hs : P slot) : P (slot.updatePathHealth e k) :=
  h.setPathPingState k _ (h.heard _ _ (.inr ⟨slot.tick, Nat.lt_succ_self _, rfl⟩) (h.tickOnce hs))

theorem adoptSession (pkt : Packet) (hs : P slot) : P (slot.adoptSession e pkt) :=
  h.emit rfl trivial (h.inner hs rfl rfl rfl rfl le_rfl)

theorem sessionAdopt (pkt : Packet) (hs : P slot) : P (slot.sessionAdopt e pkt).1 := by
  unfold Slot.sessionAdopt
  dsimp only
  repeat' split
  all_goals first
    | exact h.adoptSession pkt hs
    | exact hs

theorem pushRecvWindow (pkt : Packet) (hs : P slot) : P (slot.pushRecvWindow pkt).1 := by
  unfold Slot.pushRecvWindow
  split
  · exact h.emit rfl trivial (h.inner hs rfl rfl rfl rfl le_rfl)
  · exact hs

theorem skipRecvWindow (seq : UInt32) (hs : P slot) : P (slot.skipRecvWindow seq) := by
  unfold Slot.skipRecvWindow
  split
  · exact h.emit rfl trivial (h.inner hs rfl rfl rfl rfl le_rfl)
  · exact hs

theorem resetRecvWindow (seq : UInt32) (hs : P slot) : P (slot.resetRecvWindow seq) :=
  h.emit rfl trivial (h.inner hs rfl rfl rfl rfl le_rfl)

theorem sendToDests {pkt : Packet} (hpkt : slot.Replies e pkt) (hs : P slot) :
    P (slot.sendToDests e pkt) := by
  unfold Slot.sendToDests
  split <;> exact h.silent (send_silent _ (fun i => (i, slot.destAddr i)) pkt)
    (hpkt.writes _ fun i => (i, slot.destAddr i)) hs

theorem slotSendNack (seq : UInt32) (hs : P slot) : P (slot.slotSendNack e seq) := by
  have hnack : P (slot.emit (.nack seq slot.recvWindow)) := h.emit rfl trivial hs
  have hpkt : (slot.emit (.nack seq slot.recvWindow)).Replies e
    (Packet.buildNack (slot.ownSessionHdr e) seq) := .nack seq
  unfold Slot.slotSendNack
  dsimp only
  split
  · exact h.sendToDests hpkt hnack
  · exact h.silent (send_silent _ (fun i => (i, nackDest e _ i)) _)
      (hpkt.writes _ fun i => (i, nackDest e _ i)) hnack

theorem reorderGapReady (seq : UInt32) (hs : P slot) : P (slot.reorderGapReady e seq).1 := by
  unfold Slot.reorderGapReady
  dsimp only
  repeat' split
  all_goals first
    | exact hs
    | exact h.inner (h.tickOnce hs) rfl rfl rfl rfl le_rfl

theorem nackGap (seq : UInt32) (hs : P slot) : P (slot.nackGap e seq) := by
  have hready : P (slot.slotGapReady e seq).1 := by
    unfold slotGapReady
    split
    · exact hs
    · exact h.reorderGapReady seq hs
  unfold Slot.nackGap
  dsimp only
  split
  · exact h.slotSendNack seq hready
  · exact hready

theorem deliverPacket (pkt : Packet) (hs : P slot) : P (slot.deliverPacket e pkt) := by
  rcases deliverPacket_cases slot pkt with heq | ⟨halive, out, frag, heq⟩
  · rw [heq]
    exact hs
  · rw [heq]
    exact h.inner (h.deliver out halive hs) rfl rfl rfl rfl le_rfl

theorem drainLoop (fuel : Nat) (hs : P slot) : P (slot.drainLoop e fuel) :=
  drainLoop_induct fuel (fun _ pkt _ hs _ =>
    h.deliverPacket pkt (h.emit rfl trivial (h.inner hs rfl rfl rfl rfl le_rfl))) hs

theorem forgetSession (hs : P slot) : P (slot.forgetSession e) := by
  have hforgot : P { slot with
      peerSessionKnown := false, recvWindow := Window.init 0 e.windowSize } := h.inner hs rfl rfl rfl rfl le_rfl
  exact h.emit rfl trivial (h.heard { slot.lastRecvTs with tvSec := 0 } slot.pathLastRecvTs (.inl rfl) hforgot)

theorem finFire (target : UInt32) (hs : P slot) : P (slot.finFire e target) := by
  unfold Slot.finFire
  split
  · rename_i hpeer
    refine h.free ?_ (disconnectAllPaths_states slot)
      (h.inner (h.disconnectAllPaths hs) rfl rfl rfl rfl le_rfl)
    exact (congrArg Option.isSome (disconnectAllPaths_turns slot).peer_eq).trans hpeer
  · dsimp only
    have hack : P (if e.type.isTcpType = true then
        slot.emit (.sendTcp (Packet.buildFinAck (slot.ownSessionHdr e) target)) else slot) := by
      split
      · exact h.emit rfl ⟨target, rfl⟩ hs
      · exact hs
    exact h.forgetSession (h.inner (h.disconnectAllPaths (h.clearPathPingStates hack)) rfl rfl rfl rfl le_rfl)

theorem slotDrainRecvWindow (hs : P slot) : P (slot.slotDrainRecvWindow e).1 := by
  unfold Slot.slotDrainRecvWindow
  dsimp only
  split
  · exact h.finFire _ (h.drainLoop _ hs)
  · exact h.drainLoop _ hs

theorem rawSessionDisconnect (hs : P slot) : P (slot.rawSessionDisconnect e) :=
  h.inner (h.disconnectAllPaths (h.clearPathPingStates hs)) rfl rfl rfl rfl le_rfl

theorem rawResync (pkt : Packet) (hs : P slot) : P (slot.rawResync e pkt).1 :=
  h.pushRecvWindow pkt (h.resetRecvWindow _ (h.rawSessionDisconnect hs))

theorem acceptPush (pkt : Packet) (hs : P slot) : P (slot.acceptPush e pkt).1 := by
  unfold Slot.acceptPush
  dsimp only
  split
  · exact h.pushRecvWindow pkt hs
  split
  · exact h.rawResync pkt hs
  · exact hs

theorem acceptGap (pkt : Packet) (hs : P slot) : P (slot.acceptGap e pkt).1 := by
  unfold Slot.acceptGap
  split
  · exact h.inner hs rfl rfl rfl rfl le_rfl
  split
  · dsimp only
    split
    · exact h.rawResync pkt (h.reorderGapReady _ hs)
    · exact h.reorderGapReady _ hs
  · exact h.nackGap _ hs

theorem acceptOuter (pkt : Packet) (k : Path) (hs : P slot) : P (slot.acceptOuter e pkt k) := by
  have hgap := h.acceptGap pkt (h.acceptPush pkt hs)
  have hhealth : P (((slot.acceptPush e pkt).1.acceptGap e pkt).1.acceptHealth e pkt k) := by
    unfold acceptHealth
    split
    · rename_i hguard
      simp only [Bool.and_eq_true, Option.isNone_iff_eq_none] at hguard
      exact h.syncPathState (fun _ => .inl hguard.1.1) (h.updatePathHealth k hgap)
    · exact hgap
  have hdrain := h.slotDrainRecvWindow hhealth
  unfold Slot.acceptOuter
  dsimp only
  split
  · exact h.acceptPush pkt hs
  split
  · exact hgap
  split
  · unfold acceptPostDrain
    split
    · exact h.inner hdrain rfl rfl rfl rfl le_rfl
    split
    · exact hdrain
    · exact h.nackGap _ hdrain
  · exact hdrain

theorem onReject (pkt : Packet) (hs : P slot) : P (slot.onReject e pkt path sender) := by
  unfold Slot.onReject
  dsimp only
  split
  · exact hs
  split
  · exact h.sessionAdopt pkt hs
  · have hcut := h.disconnectAllPaths (h.clearPathPingStates (h.learn (h.sessionAdopt pkt hs)))
    exact h.slotDrainRecvWindow (h.skipRecvWindow _ (h.inner hcut rfl rfl rfl rfl le_rfl))

theorem scanLoop (pkt : Packet) (fuel : Nat) (scanSeq : UInt32) (hs : P slot) :
    P (slot.scanLoop e pkt fuel scanSeq).1 := by
  induction fuel generalizing slot scanSeq with
  | zero => exact hs
  | succ fuel ih =>
    unfold Slot.scanLoop
    dsimp only
    split
    · split
      · exact ih _ hs
      split
      · exact ih _ (h.slotSendNack _ (h.reorderGapReady _ hs))
      · exact h.reorderGapReady _ hs
    · exact hs

theorem scanPingGap (pkt : Packet) (hs : P slot) : P (slot.scanPingGap e pkt) := by
  unfold Slot.scanPingGap
  dsimp only
  split
  · split
    · exact h.nackGap _ hs
    · exact hs
  split
  · split
    · split
      · exact h.resetRecvWindow _ (h.rawSessionDisconnect (h.reorderGapReady _ hs))
      · exact h.reorderGapReady _ hs
    · exact h.inner hs rfl rfl rfl rfl le_rfl
  · have hscan := h.scanLoop pkt slot.recvWindow.windowSize slot.recvWindow.nextSeq hs
    split
    · exact h.inner hscan rfl rfl rfl rfl le_rfl
    · exact hscan

theorem dispatchPing (pkt : Packet) (k : Path) (hlive : L → Live e slot) (hs : P slot) :
    P (slot.dispatchPing e pkt k) := by
  have hseen : P (slot.pinged e pkt k) := by
    unfold pinged
    split
    · exact h.pings (slot.updatePathHealth e k).pathPingState _ (h.updatePathHealth k hs)
    · exact h.updatePathHealth k hs
  have hpeer : ∀ s : Slot, (s.scanPingGap e pkt).peer = s.peer := fun s =>
    (peer_frame e path sender s.peer).scanPingGap pkt rfl
  rw [dispatchPing_eq]
  split
  · rename_i hraw
    refine h.syncPathState (fun hl => .inl ?_) (h.scanPingGap pkt hseen)
    rw [hpeer]
    by_contra hsome
    have hkind : slot.peer ≠ none := by
      unfold pinged at hsome
      split at hsome <;> exact hsome
    simp [(hlive hl).kind hkind, PotrType.isRawType] at hraw
  · refine h.scanPingGap pkt (h.syncPathState (fun hl => ?_) hseen)
    unfold pinged
    split <;> exact (hlive hl).active

theorem dispatchFin (pkt : Packet) (hs : P slot) : P (slot.dispatchFin e pkt) := by
  unfold Slot.dispatchFin
  have hadopt : P (if slot.peer.isNone then slot.sessionAdopt e pkt else (slot, true)).1 := by
    split
    · exact h.sessionAdopt pkt hs
    · exact hs
  generalize (if slot.peer.isNone then slot.sessionAdopt e pkt else (slot, true)) = entered
    at hadopt ⊢
  have hfin : P (entered.1.finOnPacket pkt).1 := by
    unfold finOnPacket
    repeat' split
    all_goals first
      | exact hadopt
      | exact h.inner hadopt rfl rfl rfl rfl le_rfl
  dsimp only
  split
  · exact hadopt
  split
  · exact h.finFire _ hfin
  · exact hfin

theorem dispatchPacket (pkt : Packet) (hlive : L → Live e slot)
    (hnack : pkt.has FLAG_FIN = false → pkt.has FLAG_NACK = true → slot.peer.isSome = true →
      P (slot.onNack e pkt)) (hs : P slot) : P (slot.dispatchPacket e pkt path sender) := by
  have hlearn := h.learn (h.sessionAdopt pkt hs)
  have hconn := (learnSenderPath_conn (e := e) (slot.sessionAdopt e pkt).1 path sender).trans
    (sessionAdopt_beside slot pkt).conn
  unfold Slot.dispatchPacket
  dsimp only
  split
  · exact h.dispatchFin pkt hs
  rename_i hfin
  split
  · rename_i hflag
    split
    · rename_i hpeer
      exact hnack (Bool.eq_false_iff.mpr hfin) hflag hpeer
    · exact hs
  split
  · exact h.onReject pkt hs
  split
  · exact hs
  split
  · exact h.sessionAdopt pkt hs
  split
  · exact h.dispatchPing pkt path (fun hl => (hlive hl).of_conn hconn) hlearn
  · exact h.acceptOuter pkt path hlearn

theorem serviceTimeout (hs : P slot) : P (slot.serviceTimeout e) := by
  have hreset : P { slot with pendingFin := false, finTargetSeq := 0, reorderPending := false } :=
    h.inner hs rfl rfl rfl rfl le_rfl
  exact h.forgetSession (h.disconnectAllPaths (h.clearPathPingStates hreset))

theorem checkReorderTimeout (hs : P slot) : P (slot.checkReorderTimeout e) := by
  unfold Slot.checkReorderTimeout
  dsimp only
  split
  · exact hs
  split
  · exact h.reorderGapReady _ hs
  split
  · exact h.forgetSession (h.rawSessionDisconnect (h.reorderGapReady _ hs))
  · exact h.slotSendNack _ (h.reorderGapReady _ hs)

theorem onPollTimeout (hpeer : L → slot.peer = none)
    (hpath : ∀ (slot : Slot) (k : Path), P slot → P (slot.servicePathTimeout e k)) (hs : P slot) :
    P (slot.onPollTimeout e) := by
  have hpoll : P (slot.emit .poll) := h.emit rfl trivial hs
  have hloop : ∀ nowTs, P ((openPaths e).foldl (servicePathLoop e nowTs)
      ((slot.emit .poll).tickOnce, false)).1 := by
    intro nowTs
    refine Run.foldl_preserves (P := fun acc : Slot × Bool => P acc.1) (fun acc k hacc => ?_)
      (h.tickOnce hpoll) _
    unfold servicePathLoop
    split
    · exact hpath _ k hacc
    · exact hacc
  have hchecked : P ((slot.emit .poll).healthCheckService e) := by
    unfold healthCheckService
    dsimp only
    split
    · exact hpoll
    have hlooped := hloop ((slot.emit .poll).now e)
    have hconn := (servicePathLoops_conn (e := e) ((slot.emit .poll).now e)
      ((slot.emit .poll).tickOnce, false) (openPaths e)).1
    generalize (openPaths e).foldl (servicePathLoop e ((slot.emit .poll).now e))
      ((slot.emit .poll).tickOnce, false) = looped at hlooped hconn ⊢
    have hsynced : P (if looped.2 = true then looped.1.syncPathState e else looped.1) := by
      split
      · exact h.syncPathState (fun hl => .inl ((congrArg Conn.peer hconn).trans (hpeer hl))) hlooped
      · exact hlooped
    generalize (if looped.2 = true then looped.1.syncPathState e else looped.1) = synced at hsynced ⊢
    split
    · exact hsynced
    split
    · exact h.serviceTimeout hsynced
    · exact hsynced
  unfold Slot.onPollTimeout
  split
  · split
    · exact h.checkReorderTimeout hchecked
    · exact hchecked
  · exact hpoll

end Frame

namespace Firm

variable {e : Env} {path : Path} {sender : Endpoint} {P : Slot → Prop}
  (h : Firm e path sender P) {slot : Slot}

include h

theorem emit (act : Act) (hwrites : slot.Writes e act) (hs : P slot) : P (slot.emit act) :=
  h.emits [act] (by simpa using hwrites) hs

theorem callbackEmits (evs : List Event) (hs : P slot) : P (slot.callbackEmits e evs) := by
  unfold Slot.callbackEmits
  split
  · refine h.emits _ (fun act hact => ?_) hs
    obtain ⟨ev, -, rfl⟩ := List.mem_map.mp hact
    trivial
  · exact hs

theorem frame : Frame False e path sender P where
  toHidden := h.toHidden
  silent _ hwrites hs := h.emits _ hwrites hs
  deliver _ _ hs := h.callbackEmits _ hs
  locked states _ hs := h.callbackEmits _ (h.sync states hs)
  free _ _ hs := h.free hs

theorem adoptSession (pkt : Packet) (hs : P slot) : P (slot.adoptSession e pkt) :=
  h.frame.adoptSession pkt hs

theorem dispatchPacket (pkt : Packet)
    (hother : pkt.has FLAG_FIN = false → pkt.has FLAG_NACK = true → slot.peer.isSome = false)
    (hs : P slot) : P (slot.dispatchPacket e pkt path sender) :=
  h.frame.dispatchPacket pkt False.elim
    (fun hfin hnack hpeer => absurd (hpeer.symm.trans (hother hfin hnack)) Bool.noConfusion) hs

theorem onPollTimeout (hpath : ∀ (slot : Slot) (k : Path), P slot → P (slot.servicePathTimeout e k))
    (hs : P slot) : P (slot.onPollTimeout e) := h.frame.onPollTimeout False.elim hpath hs

end Firm

namespace Steady

variable {e : Env} {path : Path} {sender : Endpoint} {P : Slot → Prop}
  (h : Steady e path sender P) {slot : Slot}

include h

theorem peerPathLoops (nowTs : Timespec) (l : List Path) {acc : Slot × Bool} (hs : P acc.1) :
    P (l.foldl (peerPathLoop e nowTs) acc).1 := by
  refine Run.foldl_preserves (P := fun acc : Slot × Bool => P acc.1) (fun acc k hacc => ?_) hs l
  unfold peerPathLoop
  split
  · rename_i hout
    rw [Bool.and_eq_true, Bool.not_eq_true'] at hout
    exact h.clear k hout.1 (h.frame.setPathPingState k PING_STATE_ABNORMAL hacc)
  · exact hacc

theorem healthCheckPeer (nowTs : Timespec) (hs : P slot) : P (slot.healthCheckPeer e nowTs) := by
  have hloop : P (paths.foldl (peerPathLoop e nowTs) (slot, false)).1 :=
    h.peerPathLoops nowTs paths hs
  unfold Slot.healthCheckPeer
  dsimp only
  split
  · exact hs
  · generalize paths.foldl (peerPathLoop e nowTs) (slot, false) = looped at hloop ⊢
    have hsynced : P (if looped.2 = true then looped.1.syncPathState e else looped.1) := by
      split
      · exact h.frame.syncPathState False.elim hloop
      · exact hloop
    generalize (if looped.2 = true then looped.1.syncPathState e else looped.1) = synced at hsynced ⊢
    split
    · exact hsynced
    split
    · exact h.free (h.frame.disconnectAllPaths (h.pings synced.pathPingState _ hsynced))
    · exact hsynced

end Steady

namespace Stable

variable {e : Env} {path : Path} {sender : Endpoint} {P : Slot → Prop}
  (h : Stable e path sender P) {slot : Slot}

include h

theorem onNack (pkt : Packet) (hs : P slot) : P (slot.onNack e pkt) := by
  have hdup : P (slot.nackIsDuplicate e pkt.ackNum).1 := by
    unfold nackIsDuplicate
    dsimp only
    split
    · exact h.frame.tickOnce hs
    · exact h.dedup _ _ (h.frame.tickOnce hs)
  unfold Slot.onNack
  dsimp only
  split
  · exact hs
  split
  · exact hdup
  · unfold slotRetransmitOrReject
    split
    · rename_i hget
      exact h.frame.sendToDests (.again hget) hdup
    · exact h.frame.sendToDests (.reject _) hdup

theorem dispatchPacket (pkt : Packet) (hs : P slot) : P (slot.dispatchPacket e pkt path sender) :=
  h.frame.dispatchPacket pkt False.elim (fun _ _ _ => h.onNack pkt hs) hs

omit h

theorem step (h : ∀ path sender, Stable e path sender P)
    (hpath : ∀ (slot : Slot) (k : Path), P slot → P (slot.servicePathTimeout e k)) (input : Input)
    (hs : P slot) : P (slot.step e input) := by
  cases input with
  | pollTimeout => exact (h 0 ⟨0, 0⟩).onPollTimeout hpath hs
  | packet path sender pkt =>
    have hrecv : P (slot.emit (.recv pkt)) := (h path sender).emit _ trivial hs
    have hhandled : P ((slot.emit (.recv pkt)).senderHandlePacket e pkt).1 := by
      unfold senderHandlePacket
      split
      · exact hrecv
      · exact (h path sender).onNack pkt hrecv
    rw [step_packet_eq]
    split
    · exact hs
    split
    · split
      · exact (h path sender).dispatchPacket pkt hhandled
      · exact hhandled
    · exact (h path sender).dispatchPacket pkt hrecv

end Stable

section

variable {e : Env} (slot : Slot)

theorem turns_frame (path : Path) (sender : Endpoint) : Frame True e path sender (Turns e slot) where
  silent hacts _ hs := hs.trans (emits_beside _ hacts).turns
  deliver out halive hs :=
    hs.tail (.deliver _ _ out (congrArg Links.toConn (callbackEmits_links _ _)) halive rfl)
  inner hs hlinks _ hlog _ _ := hs.trans (turns_of_conn (congrArg Links.toConn hlinks) hlog)
  locked states hlive hs := hs.tail (.sync _ states (hlive trivial))
  pings _ _ hs := hs.trans (turns_of_conn rfl rfl)
  heard _ _ _ hs := hs.trans (turns_of_conn rfl rfl)
  learn hs := hs.trans (learnSenderPath_turns _ path sender)
  free hpeer hdead hs := hs.tail (.free _ hpeer hdead)

theorem drainLoop_turns (fuel : Nat) (slot : Slot) : Turns e slot (slot.drainLoop e fuel) :=
  (turns_frame slot 0 Endpoint.clear).drainLoop fuel .refl

theorem finFire_turns (target : UInt32) : Turns e slot (slot.finFire e target) :=
  (turns_frame slot 0 Endpoint.clear).finFire target .refl

theorem onReject_turns (pkt : Packet) (path : Path) (sender : Endpoint) :
    Turns e slot (slot.onReject e pkt path sender) :=
  (turns_frame slot path sender).onReject pkt .refl

theorem dispatchPacket_turns (pkt : Packet) (path : Path) (sender : Endpoint) (hlive : Live e slot) :
    Turns e slot (slot.dispatchPacket e pkt path sender) :=
  (turns_frame slot path sender).dispatchPacket pkt (fun _ => hlive)
    (fun _ _ _ => (onNack_beside slot pkt).turns) .refl

theorem step_turns (hpeer : slot.peer = none) (input : Input) : Turns e slot (slot.step e input) := by
  cases input with
  | pollTimeout =>
    exact (turns_frame slot 0 Endpoint.clear).onPollTimeout (fun _ => hpeer)
      (fun _ _ hs => hs.trans (turns_of_conn rfl rfl)) .refl
  | packet path sender pkt =>
    rw [step_packet_eq]
    have hrecv := (emit_beside slot (rfl : (Act.recv pkt).isEvent = false)).turns (e := e)
    have hhandle := hrecv.trans (senderHandlePacket_turns (slot.emit (.recv pkt)) pkt)
    have hlive : ∀ {s : Slot}, s.peer = none → Live e s := fun h =>
      ⟨fun hne => absurd h hne, .inl h⟩
    split
    · exact .refl
    split
    · split
      · exact hhandle.trans (dispatchPacket_turns _ pkt path sender
          (hlive ((Turns.peer_eq hhandle).trans hpeer)))
      · exact hhandle
    · exact hrecv.trans (dispatchPacket_turns _ pkt path sender (hlive hpeer))

end

end Slot

end Porter
