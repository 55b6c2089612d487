import Porter.Connection.Peers
import Porter.Platform

namespace Porter

open View

-- REJECT packets, as the dispatcher tells them from the other kinds.
def Packet.isReject (pkt : Packet) : Bool :=
  pkt.has FLAG_REJECT && !pkt.has FLAG_FIN && !pkt.has FLAG_NACK && !pkt.has FLAG_PING

namespace Slot

-- The application has heard nothing, and session, connection and window are as they were.
structure Undisturbed (slot after : Slot) : Prop where
  silent : ∃ rest, after.log = slot.log ++ rest ∧ ∀ x ∈ rest, x.2.isEvent = false
  known : after.peerSessionKnown = slot.peerSessionKnown
  session : after.peerSessionId = slot.peerSessionId ∧ after.peerSessionTs = slot.peerSessionTs
  alive : after.healthAlive = slot.healthAlive
  states : after.pathLogicalAlive = slot.pathLogicalAlive
  window : after.recvWindow = slot.recvWindow

-- The PING states of the paths, which the next PING carries to the other end.
def SamePings (slot after : Slot) : Prop :=
  after.pathPingState = slot.pathPingState ∧ after.remotePathPingState = slot.remotePathPingState

def NoPings (slot : Slot) : Prop :=
  (slot.pathPingState = fun _ => PING_STATE_UNDEFINED) ∧
    slot.remotePathPingState = fun _ => PING_STATE_UNDEFINED

-- What thread_recv_window_on_reject does to a tracked session before it looks at the number.
def rejectCut (e : Env) (slot : Slot) (path : Path) (sender : Endpoint) : Slot :=
  { (slot.learnSenderPath e path sender).clearPathPingStates.disconnectAllPaths e with
    reorderPending := false }

section

variable {e : Env} {slot : Slot} {pkt : Packet}

theorem Undisturbed.refl (slot : Slot) : slot.Undisturbed slot :=
  ⟨⟨[], by simp, by simp⟩, rfl, ⟨rfl, rfl⟩, rfl, rfl, rfl⟩

theorem Undisturbed.emit_iff {after : Slot} {act : Act} (hact : act.isEvent = false)
    (hturns : Turns e (slot.emit act) after) :
    slot.Undisturbed after ↔ (slot.emit act).Undisturbed after := by
  obtain ⟨acts, hlog⟩ := hturns.log_emits
  constructor
  · rintro ⟨⟨rest', hlog', hrest'⟩, hknown, hsession, halive, hstates, hwindow⟩
    obtain ⟨rest, hlog⟩ : ∃ rest, after.log = (slot.emit act).log ++ rest := ⟨_, hlog⟩
    refine ⟨⟨rest, hlog, fun x hx => hrest' x ?_⟩, hknown, hsession, halive, hstates, hwindow⟩
    have hsplit : rest' = (slot.peerId, act) :: rest := by
      rw [hlog] at hlog'
      simpa [emit, emits] using hlog'.symm
    rw [hsplit]
    exact List.mem_cons_of_mem _ hx
  · rintro ⟨⟨rest, hlog, hrest⟩, hknown, hsession, halive, hstates, hwindow⟩
    refine ⟨⟨(slot.peerId, act) :: rest, ?_, ?_⟩, hknown, hsession, halive, hstates, hwindow⟩
    · rw [hlog]
      simp [emit, emits]
    · intro x hx
      rcases List.mem_cons.mp hx with rfl | hx
      · exact hact
      · exact hrest x hx

theorem view_rejectCut (slot : Slot) (path : Path) (sender : Endpoint) :
    ∃ evs, (slot.rejectCut e path sender).view e =
      { (slot.view e).synced e false evs with pending := false } := by
  obtain ⟨evs, -, hv⟩ := view_disconnectAllPaths
    (slot.learnSenderPath e path sender).clearPathPingStates
  rw [view_clearPathPingStates, view_learnSenderPath] at hv
  refine ⟨evs, ?_⟩
  rw [← hv]
  rfl

theorem onReject_tracked (hlex : e.plat.CmpLex) (hraw : e.type.isRawType = false)
    (hknown : slot.peerSessionKnown = true) (hsession : (slot.view e).session = pkt.session)
    (path : Path) (sender : Endpoint) :
    slot.onReject e pkt path sender =
      (((slot.rejectCut e path sender).skipRecvWindow pkt.ackNum).slotDrainRecvWindow e).1 := by
  rw [onReject_eq, sessionAdopt_tracked hlex hknown hsession, hraw]
  rfl

theorem onReject_stray (hlex : e.plat.CmpLex) (hraw : e.type.isRawType = false) (hok : Ok e slot)
    (hrest : Rest e slot) (hknown : slot.peerSessionKnown = true)
    (hsession : (slot.view e).session = pkt.session) (hnext : slot.recvWindow.nextSeq ≠ pkt.ackNum)
    (path : Path) (sender : Endpoint) :
    slot.onReject e pkt path sender = slot.rejectCut e path sender := by
  obtain ⟨evs, hv⟩ := view_rejectCut slot path sender
  have hwin : (slot.rejectCut e path sender).recvWindow = slot.recvWindow :=
    (congrArg View.win hv).trans (synced_win false evs)
  have hskip : (slot.rejectCut e path sender).skipRecvWindow pkt.ackNum =
      slot.rejectCut e path sender := by
    unfold skipRecvWindow
    rw [hwin, if_neg hnext]
  rw [onReject_tracked hlex hraw hknown hsession, hskip, slotDrainRecvWindow_still]
  · rw [hwin]
    exact hok.inv.wf
  · unfold HeadEmpty
    rw [hwin]
    exact hok.head
  · rw [show (slot.rejectCut e path sender).pendingFin = slot.pendingFin from
        (congrArg View.pendingFin hv).trans (synced_pendingFin false evs), hwin,
      show (slot.rejectCut e path sender).finTargetSeq = slot.finTargetSeq from
        (congrArg View.finTarget hv).trans (synced_finTarget false evs)]
    exact hrest.fin

-- A packet is refused when it belongs to an older session than the tracked one.
theorem sessionAdopt_refused (hlex : e.plat.CmpLex) (h : (slot.sessionAdopt e pkt).2 = false) :
    slot.peerSessionKnown = true ∧ ¬ (slot.view e).newer e pkt ∧
      (slot.view e).session ≠ pkt.session := by
  have hknown : slot.peerSessionKnown = true := by
    by_contra hno
    unfold sessionAdopt at h
    rw [if_pos (Bool.not_eq_true _ ▸ hno)] at h
    cases h
  refine ⟨hknown, fun hnew => ?_, fun hsession => ?_⟩
  · unfold sessionAdopt at h
    rw [if_neg (by rw [hknown]; exact Bool.noConfusion)] at h
    rcases hnew with hpos | ⟨hzero, hid⟩
    · have hpos' : 0 < e.plat.timespecCmp pkt.sessionTs slot.peerSessionTs := hpos
      rw [if_pos hpos'] at h
      cases h
    · have hzero' : e.plat.timespecCmp pkt.sessionTs slot.peerSessionTs = 0 := hzero
      have hid' : slot.peerSessionId < pkt.sessionId := hid
      rw [hzero', if_neg (by decide), if_neg (by decide), if_pos hid'] at h
      cases h
  · rw [sessionAdopt_tracked hlex hknown hsession] at h
    cases h

theorem onReject_adopts (hraw : e.type.isRawType = false)
    (hadopt : slot.sessionAdopt e pkt = (slot.adoptSession e pkt, true)) (path : Path)
    (sender : Endpoint) :
    (slot.onReject e pkt path sender).peerSessionKnown = true ∧
      ((slot.onReject e pkt path sender).view e).session = pkt.session := by
  have heq : slot.onReject e pkt path sender = ((((slot.adoptSession e pkt).rejectCut e path
      sender).skipRecvWindow pkt.ackNum).slotDrainRecvWindow e).1 := by
    rw [onReject_eq, hadopt, hraw]
    rfl
  rw [heq]
  obtain ⟨evs, hv⟩ := view_rejectCut (slot.adoptSession e pkt) path sender
  generalize (slot.adoptSession e pkt).rejectCut e path sender = cut at hv ⊢
  have hcut : (cut.view e).known = true ∧ (cut.view e).session = pkt.session ∧
      (cut.view e).pendingFin = false := by
    rw [hv]
    exact ⟨(synced_known false evs), synced_session false evs, synced_pendingFin false evs⟩
  have hskip : ((cut.skipRecvWindow pkt.ackNum).view e).known = true ∧
      ((cut.skipRecvWindow pkt.ackNum).view e).session = pkt.session ∧
      ((cut.skipRecvWindow pkt.ackNum).view e).pendingFin = false := by
    unfold skipRecvWindow
    split
    · exact hcut
    · exact hcut
  generalize cut.skipRecvWindow pkt.ackNum = skipped at hskip ⊢
  have hdrain : ((skipped.drainLoop e skipped.recvWindow.windowSize).view e).known = true ∧
      ((skipped.drainLoop e skipped.recvWindow.windowSize).view e).session = pkt.session ∧
      ((skipped.drainLoop e skipped.recvWindow.windowSize).view e).pendingFin = false :=
    drainLoop_preserves
      (P := fun v => v.known = true ∧ v.session = pkt.session ∧ v.pendingFin = false)
      skipped.recvWindow.windowSize (fun v p win _ _ hv => by simpa using hv) hskip
  rw [slotDrainRecvWindow_eq, if_neg]
  · exact ⟨hdrain.1, hdrain.2.1⟩
  · intro hreached
    unfold finPendingReached at hreached
    rw [Bool.and_eq_true] at hreached
    exact Bool.false_ne_true (hdrain.2.2.symm.trans hreached.1)

theorem rejectCut_alive (slot : Slot) (path : Path) (sender : Endpoint) :
    (slot.rejectCut e path sender).healthAlive = false :=
  (cut_disconnectAllPaths (slot.learnSenderPath e path sender)).2.2

theorem rejectCut_undisturbed_iff (halive : slot.healthAlive = anyPathAlive slot.pathLogicalAlive)
    (path : Path) (sender : Endpoint) :
    slot.Undisturbed (slot.rejectCut e path sender) ↔ slot.healthAlive = false := by
  constructor
  · intro h
    exact h.alive.symm.trans (rejectCut_alive slot path sender)
  · intro hdead
    have hstates := states_of_any (halive.symm.trans hdead)
    obtain ⟨evs, hv⟩ := view_rejectCut (e := e) slot path sender
    have hconn := learnSenderPath_conn (e := e) slot path sender
    have hmute : ((slot.learnSenderPath e path sender).clearPathPingStates.disconnectAllPaths e).log =
        (slot.learnSenderPath e path sender).clearPathPingStates.log :=
      disconnectAllPaths_mute ((congrArg Conn.states hconn).trans hstates)
        ((congrArg Conn.alive hconn).trans hdead)
    have hlog : (slot.rejectCut e path sender).log = slot.log :=
      hmute.trans (learnSenderPath_log slot path sender)
    have hsession := (congrArg View.session hv).trans (synced_session false evs)
    refine ⟨⟨[], by rw [hlog, List.append_nil], by simp⟩, ?_, ?_, ?_, ?_, ?_⟩
    · exact (congrArg View.known hv).trans (synced_known false evs)
    · exact ⟨congrArg SessionHdr.id hsession, congrArg SessionHdr.ts hsession⟩
    · rw [rejectCut_alive, hdead]
    · rw [hstates]
      exact disconnectAllPaths_states _
    · exact (congrArg View.win hv).trans (synced_win false evs)

theorem rejectCut_pings (slot : Slot) (path : Path) (sender : Endpoint) :
    (slot.rejectCut e path sender).NoPings := by
  unfold rejectCut NoPings disconnectAllPaths syncPathStateLocked callbackEmits
  split
  · exact ⟨rfl, rfl⟩
  · exact ⟨rfl, rfl⟩

theorem NoPings.dead (h : slot.NoPings) (hrest : Rest e slot)
    (halive : slot.healthAlive = anyPathAlive slot.pathLogicalAlive) : slot.healthAlive = false := by
  have hcut : slot.nextPathStates e = fun _ => false := by
    funext k
    rw [nextPathStates_apply, h.1]
    split
    · rfl
    split
    · exact Bool.and_false _
    split <;> rfl
  rw [halive, hrest.settled, hcut, anyPathAlive_false]

-- A receiver that a REJECT it does not wait for cannot disturb: the REJECT belongs to an older
-- session, or to the tracked one while that is not connected.
def Unconcerned (e : Env) (slot : Slot) (pkt : Packet) : Prop :=
  slot.peerSessionKnown = true ∧ ¬ (slot.view e).newer e pkt ∧
    ((slot.view e).session = pkt.session → slot.healthAlive = false)

-- The same with the PING states.
def Untouched (e : Env) (slot : Slot) (pkt : Packet) : Prop :=
  slot.peerSessionKnown = true ∧ ¬ (slot.view e).newer e pkt ∧
    ((slot.view e).session = pkt.session → slot.NoPings)

theorem onReject_undisturbed_iff (hlex : e.plat.CmpLex) (hraw : e.type.isRawType = false)
    (hok : Ok e slot) (hrest : Rest e slot)
    (halive : slot.healthAlive = anyPathAlive slot.pathLogicalAlive)
    (hnext : slot.peerSessionKnown = true → slot.recvWindow.nextSeq ≠ pkt.ackNum)
    (path : Path) (sender : Endpoint) :
    (slot.Undisturbed (slot.onReject e pkt path sender) ↔ slot.Unconcerned e pkt) ∧
    (slot.Undisturbed (slot.onReject e pkt path sender) ∧
        slot.SamePings (slot.onReject e pkt path sender) ↔ slot.Untouched e pkt) := by
  rcases sessionAdopt_cases hlex slot pkt with heq | ⟨-, hknown, hsession⟩ | ⟨heq, hnew⟩
  · -- An older session is refused.
    have hsame : slot.onReject e pkt path sender = slot := by
      rw [onReject_eq, heq, hraw]
      rfl
    have hold := sessionAdopt_refused hlex (congrArg Prod.snd heq)
    rw [hsame]
    exact ⟨⟨fun _ => ⟨hold.1, hold.2.1, fun h => absurd h hold.2.2⟩, fun _ => .refl slot⟩,
      ⟨fun _ => ⟨hold.1, hold.2.1, fun h => absurd h hold.2.2⟩, fun _ => ⟨.refl slot, rfl, rfl⟩⟩⟩
  · have hnotNew : ¬ (slot.view e).newer e pkt := fun hn => newer_ne_session hlex hn hsession
    rw [onReject_stray hlex hraw hok hrest hknown hsession (hnext hknown)]
    have hiff := rejectCut_undisturbed_iff (e := e) halive path sender
    have hpings := rejectCut_pings (e := e) slot path sender
    refine ⟨⟨fun h => ⟨hknown, hnotNew, fun _ => hiff.mp h⟩, fun h => hiff.mpr (h.2.2 hsession)⟩,
      ⟨fun h => ⟨hknown, hnotNew, fun _ => ?_⟩, fun h => ?_⟩⟩
    · exact ⟨h.2.1.symm.trans hpings.1, h.2.2.symm.trans hpings.2⟩
    · have hnone := h.2.2 hsession
      exact ⟨hiff.mpr (hnone.dead hrest halive), hpings.1.trans hnone.1.symm,
        hpings.2.trans hnone.2.symm⟩
  · -- A new session is another session.
    have hadopts := onReject_adopts hraw heq path sender
    have hno : ¬ slot.Undisturbed (slot.onReject e pkt path sender) := by
      intro h
      rcases hnew with hunknown | hnewer
      · exact Bool.false_ne_true ((hunknown.symm.trans h.known.symm).trans hadopts.1)
      · refine newer_ne_session hlex hnewer (Eq.trans ?_ hadopts.2)
        change (⟨_, _⟩ : SessionHdr) = ⟨_, _⟩
        rw [h.session.1, h.session.2]
    have hcond : ¬ (slot.peerSessionKnown = true ∧ ¬ (slot.view e).newer e pkt) := fun h => by
      rcases hnew with hunknown | hnewer
      · exact Bool.false_ne_true (hunknown.symm.trans h.1)
      · exact h.2 hnewer
    exact ⟨⟨fun h => absurd h hno, fun h => absurd ⟨h.1, h.2.1⟩ hcond⟩,
      ⟨fun h => absurd h.1 hno, fun h => absurd ⟨h.1, h.2.1⟩ hcond⟩⟩

theorem dispatchPacket_reject (hreject : pkt.isReject = true) (path : Path) (sender : Endpoint) :
    slot.dispatchPacket e pkt path sender = slot.onReject e pkt path sender := by
  simp only [Packet.isReject, Bool.and_eq_true, Bool.not_eq_true'] at hreject
  obtain ⟨⟨⟨hbit, hfin⟩, hnack⟩, -⟩ := hreject
  rw [dispatchPacket_eq, hfin, hnack, hbit]
  rfl

-- The receiving services take a REJECT to thread_recv_window_on_reject.
theorem step_reject (hreceives : e.role = .receiver ∨ e.type = .unicastBidir)
    (hreject : pkt.isReject = true) {path : Path} (hpath : path.val < e.nPath)
    (sender : Endpoint) :
    slot.step e (.packet path sender pkt) = (slot.emit (.recv pkt)).onReject e pkt path sender := by
  have hnack : pkt.has FLAG_NACK = false := by
    simp only [Packet.isReject, Bool.and_eq_true, Bool.not_eq_true'] at hreject
    exact hreject.1.2
  rw [step_dispatches hreceives sender hpath hnack]
  exact dispatchPacket_reject hreject path sender

theorem step_undisturbed_iff (hlex : e.plat.CmpLex) (hraw : e.type.isRawType = false)
    (hreceives : e.role = .receiver ∨ e.type = .unicastBidir) (h : Resting e slot)
    (hreject : pkt.isReject = true)
    (hnext : slot.peerSessionKnown = true → slot.recvWindow.nextSeq ≠ pkt.ackNum) {path : Path}
    (hpath : path.val < e.nPath) (sender : Endpoint) :
    (slot.Undisturbed (slot.step e (.packet path sender pkt)) ↔ slot.Unconcerned e pkt) ∧
    (slot.Undisturbed (slot.step e (.packet path sender pkt)) ∧
        slot.SamePings (slot.step e (.packet path sender pkt)) ↔ slot.Untouched e pkt) := by
  rw [step_reject hreceives hreject hpath sender,
    Undisturbed.emit_iff rfl (onReject_turns (slot.emit (.recv pkt)) pkt path sender)]
  exact onReject_undisturbed_iff hlex hraw (emit_ok h.ok _) (h.rest.of_links rfl id h.rest.fin)
    h.alive hnext path sender

end

end Slot

namespace Ctx

section

variable {e : Env} {ctx : Ctx} {pkt : Packet}

-- No peer is disturbed by what goes on in the slot of one of them unless that one is.
theorem undisturbed_store_iff {i : Nat} {slot : Slot} :
    (∀ j, (ctx.slotInitPeer j).Undisturbed ((ctx.store i slot).slotInitPeer j)) ↔
      (ctx.slotInitPeer i).Undisturbed slot := by
  constructor
  · intro h
    have hi := h i
    rwa [slotInitPeer_store_self] at hi
  · intro h j
    by_cases hji : j = i
    · subst hji
      rwa [slotInitPeer_store_self]
    · have hsame : ((ctx.store i slot).slotInitPeer j).toPeerContext = ctx.peers j :=
        store_peers_of_ne hji slot
      refine ⟨h.silent, ?_, ?_, ?_, ?_, ?_⟩ <;> rw [hsame]
      · rfl
      · exact ⟨rfl, rfl⟩
      · rfl
      · rfl
      · rfl

theorem samePings_store_iff {i : Nat} {slot : Slot} :
    (∀ j, (ctx.slotInitPeer j).SamePings ((ctx.store i slot).slotInitPeer j)) ↔
      (ctx.slotInitPeer i).SamePings slot := by
  constructor
  · intro h
    have hi := h i
    rwa [slotInitPeer_store_self] at hi
  · intro h j
    by_cases hji : j = i
    · subst hji
      rwa [slotInitPeer_store_self]
    · have hsame : ((ctx.store i slot).slotInitPeer j).toPeerContext = ctx.peers j :=
        store_peers_of_ne hji slot
      unfold Slot.SamePings
      rw [hsame]
      exact ⟨rfl, rfl⟩

-- The peers that have the session of a packet.
def Addressed (e : Env) (ctx : Ctx) (pkt : Packet) (i : Nat) : Prop :=
  i < e.maxPeers ∧ (ctx.peers i).active = true ∧ ctx.session i = pkt.session

theorem step_undisturbed_iff (hlex : e.plat.CmpLex) (hkind : e.type = .unicastBidirN1)
    (h : Resting e ctx) (hreject : pkt.isReject = true)
    (hnext : ∀ i, ctx.Addressed e pkt i → (ctx.peers i).recvWindow.nextSeq ≠ pkt.ackNum)
    {path : Path} (hpath : path.val < e.nPath) (sender : Endpoint) :
    ((∀ i, (ctx.slotInitPeer i).Undisturbed
        ((ctx.step e (.packet path sender pkt)).slotInitPeer i)) ↔
      ∀ i, ctx.Addressed e pkt i → (ctx.peers i).healthAlive = false) ∧
    ((∀ i, (ctx.slotInitPeer i).Undisturbed
          ((ctx.step e (.packet path sender pkt)).slotInitPeer i)) ∧
        (∀ i, (ctx.slotInitPeer i).SamePings
          ((ctx.step e (.packet path sender pkt)).slotInitPeer i)) ↔
      ∀ i, ctx.Addressed e pkt i → (ctx.slotInitPeer i).NoPings) := by
  have hstep : ctx.step e (.packet path sender pkt) = ctx.n1HandlePacket e pkt path sender :=
    if_neg (Nat.not_le.mpr hpath)
  have hping : pkt.has FLAG_PING = false := by
    simp only [Packet.isReject, Bool.and_eq_true, Bool.not_eq_true'] at hreject
    exact hreject.2
  rw [hstep]
  cases hfind : ctx.findBySession e pkt with
  | none =>
    have hnobody : ∀ i, ¬ ctx.Addressed e pkt i := fun i hi =>
      findBySession_none hlex hfind i hi.1 hi.2.1 hi.2.2
    have hsame : ctx.n1HandlePacket e pkt path sender = ctx := by
      unfold n1HandlePacket
      rw [hfind, hping]
      rfl
    rw [hsame]
    exact ⟨⟨fun _ i hi => absurd hi (hnobody i), fun _ i => .refl _⟩,
      ⟨fun _ i hi => absurd hi (hnobody i), fun _ => ⟨fun i => .refl _, fun i => ⟨rfl, rfl⟩⟩⟩⟩
  | some i =>
    obtain ⟨hi, hactive, hsession⟩ := findBySession_some hlex hfind
    have hok := h.table.ok i hi hactive
    have hrest := h.rest i hi hactive
    have hknown := h.table.known i hi hactive
    have hstored : ctx.n1HandlePacket e pkt path sender = ctx.store i
        (((ctx.slotInitPeer i).emit (.recv pkt)).onReject e pkt path sender) := by
      unfold n1HandlePacket
      rw [hfind]
      exact congrArg (ctx.store i) (Slot.dispatchPacket_reject hreject path sender)
    -- Only the peer found has the session.
    have honly : ∀ j, ctx.Addressed e pkt j → j = i := fun j hj =>
      h.table.sessions j hj.1 i hi hj.2.1 hactive (hj.2.2.trans hsession.symm)
    have hraw : e.type.isRawType = false := by
      rw [hkind]
      rfl
    obtain ⟨hiff, hiff'⟩ := Slot.onReject_undisturbed_iff hlex hraw
      (Slot.emit_ok hok (.recv pkt)) (hrest.of_links rfl id hrest.fin) (h.alive i hi hactive)
      (fun _ => hnext i ⟨hi, hactive, hsession⟩) path sender
    have hnotNew : ¬ ((ctx.slotInitPeer i).view e).newer e pkt := fun hn =>
      newer_ne_session hlex hn hsession
    rw [hstored, undisturbed_store_iff, samePings_store_iff,
      Slot.Undisturbed.emit_iff rfl (Slot.onReject_turns _ pkt path sender)]
    refine ⟨hiff.trans ⟨fun hc j hj => ?_, fun hc => ⟨hknown, hnotNew, fun _ => ?_⟩⟩,
      Iff.trans hiff' ⟨fun hc j hj => ?_, fun hc => ⟨hknown, hnotNew, fun _ => ?_⟩⟩⟩
    · rw [honly j hj]
      exact hc.2.2 hsession
    · exact hc i ⟨hi, hactive, hsession⟩
    · rw [honly j hj]
      exact hc.2.2 hsession
    · exact hc i ⟨hi, hactive, hsession⟩

end

end Ctx

-- A REJECT for a number that a retransmitting receiver does not wait for passes it by exactly
-- when it comes from an older session or meets a receiver that is not connected.
theorem stray_reject_undisturbed_iff (e : Env) (hlex : e.plat.CmpLex)
    (hraw : e.type.isRawType = false) (hudp : e.type.isTcpType = false) :
    (e.type ≠ .unicastBidirN1 → e.Receives → ∀ sessionId sessionTs destAddr inputs path sender pkt,
      path.val < e.nPath → pkt.isReject = true →
      let slot := (Slot.opened e sessionId sessionTs destAddr).run e inputs
      let after := slot.step e (.packet path sender pkt)
      (slot.peerSessionKnown = true → slot.recvWindow.nextSeq ≠ pkt.ackNum) →
        (slot.Undisturbed after ↔ slot.Unconcerned e pkt) ∧
        (slot.Undisturbed after ∧ slot.SamePings after ↔ slot.Untouched e pkt)) ∧
    (e.type = .unicastBidirN1 → ∀ (actions : List Ctx.Action) path sender pkt,
      path.val < e.nPath → pkt.isReject = true →
      let ctx := actions.foldl (Ctx.act e) (Ctx.opened e)
      let after := ctx.step e (.packet path sender pkt)
      (∀ i, ctx.Addressed e pkt i → (ctx.peers i).recvWindow.nextSeq ≠ pkt.ackNum) →
        ((∀ i, (ctx.slotInitPeer i).Undisturbed (after.slotInitPeer i)) ↔
          ∀ i, ctx.Addressed e pkt i → (ctx.peers i).healthAlive = false) ∧
        ((∀ i, (ctx.slotInitPeer i).Undisturbed (after.slotInitPeer i)) ∧
            (∀ i, (ctx.slotInitPeer i).SamePings (after.slotInitPeer i)) ↔
          ∀ i, ctx.Addressed e pkt i → (ctx.slotInitPeer i).NoPings)) := by
  constructor
  · intro _ hreceives sessionId sessionTs destAddr inputs path sender pkt hpath hreject slot after hnext
    exact Slot.step_undisturbed_iff hlex hraw (hreceives.of_udp hudp)
      (Slot.run_resting hlex sessionId sessionTs destAddr inputs) hreject hnext hpath sender
  · intro hkind actions path sender pkt hpath hreject ctx after hnext
    exact Ctx.step_undisturbed_iff hlex hkind (Ctx.acts_resting hlex hkind actions) hreject hnext
      hpath sender

-- A REJECT for number 6 after the first PING: number 6 was never waited for, and the service is
-- disconnected. A second copy of the REJECT finds nothing left to cut.
theorem stray_reject_undisturbed_iff_sample :
    (let e := Env.sample .unicast
      let slot := (Slot.sample e).run e [.sample (.samplePing 7),
        .sample (Packet.buildReject Packet.sampleSession 6)]
      slot.Undisturbed (slot.step e (.sample (Packet.buildReject Packet.sampleSession 6)))) ∧
    (let e := Env.sample .unicastBidirN1
      let ctx := List.foldl (Ctx.act e) (Ctx.opened e) [.recv (.sample (.samplePing 7)),
        .recv (.sample (Packet.buildReject Packet.sampleSession 6))]
      ∀ i, (ctx.slotInitPeer i).Undisturbed
        ((ctx.step e (.sample (Packet.buildReject Packet.sampleSession 6))).slotInitPeer i)) := by
  refine ⟨?_, ?_⟩
  · refine (((stray_reject_undisturbed_iff (Env.sample .unicast) Cplat.reference_cmpLex rfl rfl).1
      (by decide) (.inl rfl) 3 ⟨2, 0⟩ (fun _ => .target) _ 0 .source _ (by decide) rfl
      (by decide +kernel)).1).mpr ⟨by decide +kernel, ?_, fun _ => by decide +kernel⟩
    unfold View.newer
    decide +kernel
  · refine (((stray_reject_undisturbed_iff (Env.sample .unicastBidirN1) Cplat.reference_cmpLex rfl
      rfl).2 rfl _ 0 .source _ (by decide) rfl ?_).1).mpr ?_
    · rintro i ⟨hi, -⟩
      match i, hi with
      | 0, _ => decide +kernel
      | 1, _ => decide +kernel
    · rintro i ⟨hi, -⟩
      match i, hi with
      | 0, _ => decide +kernel
      | 1, _ => decide +kernel

-- Number 7 was handed over, and a late REJECT for it disconnects the service all the same.
theorem late_reject_disconnects :
    let e := Env.sample .unicast
    let slot := (Slot.sample e).run e [.sample (.samplePing 7), .sample (.sampleData 7 [⟨0, [1]⟩])]
    slot.recvWindow.nextSeq = 8 ∧ slot.healthAlive = true ∧
      (slot.step e (.sample (Packet.buildReject Packet.sampleSession 7))).healthAlive = false := by
  decide +kernel

end Porter
