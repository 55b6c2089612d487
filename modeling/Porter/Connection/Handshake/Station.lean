import Porter.Connection.Reject
import Porter.Connection.Rest
import Porter.Connection.Spares
import Porter.Crypto.Nonce
import Porter.Delivery.Merge.Receiver

namespace Porter

open View Relation

-- A packet that leaves the receive window while health_alive is 0 reaches nobody.
def Act.undelivered : Act → Option Packet
  | .pop pkt false => some pkt
  | _ => none

def undelivered (log : List (UInt32 × Act)) : List Packet := log.filterMap fun x => x.2.undelivered

theorem undelivered_append {log more : List (UInt32 × Act)}
    (h : ∀ x ∈ more, x.2.undelivered = none) : undelivered (log ++ more) = undelivered log := by
  have hmore : undelivered more = [] := List.filterMap_eq_nil_iff.mpr h
  unfold undelivered at hmore ⊢
  rw [List.filterMap_append, hmore, List.append_nil]

def Window.Vacant (win : Window) : Prop := ∀ k, win.slots k = none

theorem Window.Vacant.dropNext {win : Window} (h : win.Vacant) : win.dropNext.Vacant := by
  intro k
  change Function.update win.slots (win.winIndex win.nextSeq) none k = none
  rw [Function.update_apply]
  split
  · rfl
  · exact h k

theorem Window.Vacant.recvPop {win : Window} (h : win.Vacant) : win.recvPop = none := by
  unfold Window.recvPop
  rw [h]

namespace View

section

variable {e : Env} {cur : Option Packet} {v v' : View}

theorem emits_undelivered {acts : List Act} (h : ∀ act ∈ acts, act.undelivered = none) :
    undelivered (v.emits acts).log = undelivered v.log := by
  refine undelivered_append fun x hx => ?_
  obtain ⟨act, hact, rfl⟩ := List.mem_map.mp hx
  exact h act hact

theorem emit_undelivered {act : Act} (h : act.undelivered = none) :
    undelivered (v.emit act).log = undelivered v.log :=
  emits_undelivered fun a ha => by
    rw [List.mem_singleton.mp ha]
    exact h

theorem callbackEmits_undelivered (evs : List Event) :
    undelivered (v.callbackEmits e evs).log = undelivered v.log := by
  unfold View.callbackEmits
  split
  · refine emits_undelivered fun act hact => ?_
    obtain ⟨ev, -, rfl⟩ := List.mem_map.mp hact
    rfl
  · rfl

theorem popped_undelivered (pkt : Packet) (win : Window) (halive : v.alive = true) :
    undelivered (v.popped e pkt win).log = undelivered v.log := by
  have hpop : undelivered (View.emit { v with win := win } (.pop pkt v.alive)).log =
      undelivered v.log := emit_undelivered (v := { v with win := win }) (by rw [halive]; rfl)
  unfold View.popped
  split
  · exact (callbackEmits_undelivered _).trans hpop
  · exact hpop

theorem sends_undelivered (dests : List (Path × Endpoint)) (pkt : Packet) :
    ∀ act ∈ dests.map fun d => Act.send d.1 d.2 pkt, act.undelivered = none := by
  intro act hact
  obtain ⟨d, -, rfl⟩ := List.mem_map.mp hact
  rfl

theorem nacked_undelivered (seq : UInt32) (dests : List (Path × Endpoint)) :
    undelivered (v.nacked seq dests).log = undelivered v.log := by
  refine emits_undelivered fun act hact => ?_
  rcases List.mem_cons.mp hact with rfl | hact
  · rfl
  · exact sends_undelivered dests _ act hact

theorem Move.undelivered (hmove : Move e cur v v')
    (hpop : ∀ pkt win, Drains cur → v.win.recvPop = some (pkt, win) → v.alive = true) :
    Porter.undelivered v'.log = Porter.undelivered v.log := by
  cases hmove with
  | sync alive evs => exact callbackEmits_undelivered (v := { v with alive := alive }) _
  | adopt pkt => exact emit_undelivered rfl
  | push pkt => exact emit_undelivered rfl
  | timer => rfl
  | nack seq dests => exact nacked_undelivered seq dests
  | expire dests => exact nacked_undelivered v.nackNum dests
  | pop pkt win hcur hhead => exact popped_undelivered pkt win (hpop pkt win hcur hhead)
  | skip => exact emit_undelivered rfl
  | reset => exact emit_undelivered rfl
  | forget => exact emit_undelivered rfl
  | finPending => rfl
  | finClear => rfl
  | free => rfl
  | answer pkt dests => exact emits_undelivered (sends_undelivered dests _)
  | finAck => exact emit_undelivered rfl

theorem Moves.undelivered (hmoves : Moves e cur v v') (hcur : ¬ Drains cur) :
    Porter.undelivered v'.log = Porter.undelivered v.log :=
  Run.star_preserves (P := fun w : View => Porter.undelivered w.log = Porter.undelivered v.log)
    (fun _ _ hmove hw => (hmove.undelivered fun _ _ hdrains => absurd hdrains hcur).trans hw)
    hmoves rfl

-- Without DATA a vacant window stays vacant, so that nothing leaves it.
theorem Move.vacant (hmove : Move e cur v v')
    (hcur : ∀ pkt, cur = some pkt → pkt.has FLAG_DATA = false) (h : v.win.Vacant) :
    v'.win.Vacant := by
  cases hmove with
  | sync => rwa [synced_win]
  | adopt => exact fun _ => rfl
  | push pkt win pending nackNum hpkt _ hdata =>
    exact absurd (hdata.symm.trans (hcur pkt hpkt)) Bool.noConfusion
  | pop pkt win _ hpop =>
    rw [h.recvPop] at hpop
    cases hpop
  | skip => exact h.dropNext
  | reset => exact fun _ => rfl
  | forget => exact fun _ => rfl
  | _ => exact h

theorem Moves.vacant (hmoves : Moves e cur v v')
    (hcur : ∀ pkt, cur = some pkt → pkt.has FLAG_DATA = false) (h : v.win.Vacant) :
    v'.win.Vacant ∧ Porter.undelivered v'.log = Porter.undelivered v.log := by
  refine Run.star_preserves
    (P := fun w : View => w.win.Vacant ∧ Porter.undelivered w.log = Porter.undelivered v.log)
    (fun w _ hmove hw => ⟨hmove.vacant hcur hw.1, Eq.trans ?_ hw.2⟩) hmoves ⟨h, rfl⟩
  refine hmove.undelivered fun pkt win _ hpop => ?_
  rw [hw.1.recvPop] at hpop
  cases hpop

theorem Moves.tracks {session : SessionHdr} (hmoves : Moves e cur v v')
    (hcur : ∀ pkt, cur = some pkt → pkt.session = session)
    (h : v.known = true → v.session = session) : v'.known = true → v'.session = session := by
  refine Run.star_preserves (P := fun w : View => w.known = true → w.session = session)
    (fun w w' hmove hw => ?_) hmoves h
  cases hmove with
  | adopt pkt hpkt => exact fun _ => hcur pkt hpkt
  | sync => simpa using hw
  | pop => simpa using hw
  | forget => exact fun hno => absurd hno Bool.noConfusion
  | _ => exact hw

end

end View

-- A PING by which an end says that it hears the other on its only path.
def Packet.isHello (pkt : Packet) : Bool :=
  pkt.flags = FLAG_PING && MAX_PATH ≤ pkt.payload.length &&
    pkt.payload.getD 0 PING_STATE_UNDEFINED = PING_STATE_NORMAL

theorem Packet.isHello_iff {pkt : Packet} : pkt.isHello = true ↔ pkt.flags = FLAG_PING ∧
    MAX_PATH ≤ pkt.payload.length ∧
      pkt.payload.getD 0 PING_STATE_UNDEFINED = PING_STATE_NORMAL := by
  simp [isHello, and_assoc]

namespace Slot

section

variable {e : Env} {slot : Slot} {pkt : Packet}

theorem syncPathState_healthAlive (slot : Slot) :
    (slot.syncPathState e).healthAlive = anyPathAlive (slot.nextPathStates e) := by
  unfold syncPathState syncPathStateLocked callbackEmits
  split <;> rfl

theorem anyPathAlive_of_first {states : Path → Bool} (h : states 0 = true) :
    anyPathAlive states = true :=
  List.any_eq_true.mpr ⟨0, List.mem_finRange 0, h⟩

theorem hello_states (hhello : pkt.isHello = true) (slot : Slot) :
    (slot.applyRemotePathPingState pkt.payload).remotePathPingState 0 = PING_STATE_NORMAL := by
  obtain ⟨-, -, hnormal⟩ := Packet.isHello_iff.mp hhello
  change (if pkt.payload.getD (0 : Path).val PING_STATE_UNDEFINED ≠ PING_STATE_UNDEFINED then
    pkt.payload.getD (0 : Path).val PING_STATE_UNDEFINED else _) = _
  rw [show (0 : Path).val = 0 from rfl, hnormal]
  exact if_pos (by decide)

theorem dispatchPing_hello (hkind : slot.peer ≠ none ∨ e.type = .unicastBidir)
    (hraw : e.type.isRawType = false) (hhello : pkt.isHello = true) :
    (slot.dispatchPing e pkt 0).healthAlive = true := by
  obtain ⟨-, hlong, -⟩ := Packet.isHello_iff.mp hhello
  rw [dispatchPing_eq, hraw, if_neg Bool.false_ne_true, pinged, if_pos hlong]
  have hlinks := scanPingGap_links
    (((slot.updatePathHealth e 0).applyRemotePathPingState pkt.payload).syncPathState e) pkt hraw
  refine (congrArg (fun l : Links => l.alive) hlinks).trans ?_
  change (((slot.updatePathHealth e 0).applyRemotePathPingState pkt.payload).syncPathState
    e).healthAlive = true
  rw [syncPathState_healthAlive]
  have hnext : ((slot.updatePathHealth e 0).applyRemotePathPingState pkt.payload).nextPathStates e =
      ((slot.updatePathHealth e 0).applyRemotePathPingState pkt.payload).copyBidirPathStates := by
    change (if slot.peer.isSome then _ else _) = _
    rcases hkind with hpeer | hbidir
    · rw [if_pos (Option.isSome_iff_ne_none.mpr hpeer)]
    · split
      · rfl
      · rw [hbidir]
        rfl
  rw [hnext]
  refine anyPathAlive_of_first ?_
  unfold copyBidirPathStates
  rw [hello_states hhello]
  rfl

theorem sessionAdopt_emit (slot : Slot) (act : Act) (pkt : Packet) :
    ((slot.emit act).sessionAdopt e pkt).2 = (slot.sessionAdopt e pkt).2 := by
  unfold sessionAdopt emit emits
  dsimp only
  split_ifs <;> rfl

theorem dispatchPacket_hello (hkind : slot.peer ≠ none ∨ e.type = .unicastBidir)
    (hraw : e.type.isRawType = false) (hhello : pkt.isHello = true)
    (hadopt : (slot.sessionAdopt e pkt).2 = true) (source : Endpoint) :
    (slot.dispatchPacket e pkt 0 source).healthAlive = true := by
  have hflags := Packet.has_of_flags (Packet.isHello_iff.mp hhello).1
  have hpeer : ((slot.sessionAdopt e pkt).1.learnSenderPath e 0 source).peer = slot.peer :=
    (congrArg Conn.peer (learnSenderPath_conn (slot.sessionAdopt e pkt).1 0 source)).trans
      (sessionAdopt_beside slot pkt).peer
  rw [dispatchPacket_eq]
  simp only [hflags, hadopt]
  exact dispatchPing_hello (by rwa [hpeer]) hraw hhello

end

end Slot

namespace Ctx

section

variable {e : Env} {ctx : Ctx} {session : SessionHdr} {pkt : Packet}

-- Nothing is in the receive window of the peer with this session.
def Vacant (e : Env) (session : SessionHdr) (ctx : Ctx) : Prop :=
  ∀ i < e.maxPeers, (ctx.peers i).active = true → ctx.session i = session →
    (ctx.peers i).recvWindow.Vacant

theorem Vacant.store (h : ctx.Vacant e session) {i : Nat} {slot : Slot}
    (hslot : (slot.view e).session = session → slot.recvWindow.Vacant) :
    (ctx.store i slot).Vacant e session := by
  intro j hj hactive hsession
  by_cases hji : j = i
  · subst hji
    rw [store_session_self] at hsession
    rw [store_peers_self]
    exact hslot hsession
  · rw [store_peers_of_ne hji] at hactive ⊢
    rw [store_session_of_ne hji] at hsession
    exact h j hj hactive hsession

theorem findBySession_congr {pkt' : Packet} (h : pkt.session = pkt'.session) :
    ctx.findBySession e pkt = ctx.findBySession e pkt' := by
  have hid : pkt.sessionId = pkt'.sessionId := congrArg SessionHdr.id h
  have hts : pkt.sessionTs = pkt'.sessionTs := congrArg SessionHdr.ts h
  unfold findBySession
  rw [hid, hts]

theorem n1HandlePacket_vacant (hlex : e.plat.CmpLex) (hkind : e.type = .unicastBidirN1)
    (ht : Table e ctx) (h : ctx.Vacant e session)
    (hquiet : pkt.session = session → pkt.has FLAG_DATA = false) (path : Path) (sender : Endpoint) :
    (ctx.n1HandlePacket e pkt path sender).Vacant e session ∧
      (pkt.session = session →
        undelivered (ctx.n1HandlePacket e pkt path sender).log = undelivered ctx.log) := by
  have hcur : pkt.session = session → ∀ pkt', some pkt = some pkt' → pkt'.has FLAG_DATA = false :=
    fun hsame pkt' heq => Option.some.inj heq ▸ hquiet hsame
  have hhandled := n1HandlePacket_handled (e := e) ctx pkt path sender
  generalize ctx.n1HandlePacket e pkt path sender = ctx' at hhandled ⊢
  cases hhandled with
  | found i hfind =>
    obtain ⟨hi, hactive, hsession⟩ := findBySession_some hlex hfind
    obtain ⟨hmoves, -⟩ := Slot.dispatchPacket_moves hlex pkt path sender
      (Slot.emit_ok (ht.ok i hi hactive) (.recv pkt)) (Slot.recv_early pkt) (.inr hactive)
    obtain ⟨-, -, hstays⟩ := slot_stays hlex ht hi hactive
      (fun pkt' heq => Option.some.inj heq ▸ hsession) hmoves
    by_cases hsame : pkt.session = session
    · obtain ⟨hvacant, hlost⟩ := Moves.vacant hmoves (hcur hsame)
        (h i hi hactive (hsession.trans hsame))
      exact ⟨h.store fun _ => hvacant, fun _ => hlost.trans
        (emit_undelivered (v := (ctx.slotInitPeer i).view e) rfl)⟩
    · exact ⟨h.store fun hs => absurd (hsession.symm.trans (hstays.symm.trans hs)) hsame,
        fun hs => absurd hs hsame⟩
  | idle ctx' hlog hpeers =>
    refine ⟨fun j hj hactive hsession => ?_, fun _ => congrArg undelivered hlog⟩
    rcases hpeers j with hsame | ⟨-, hidle⟩
    · unfold Ctx.session at hsession
      rw [hsame] at hactive hsession ⊢
      exact h j hj hactive hsession
    · exact absurd (hidle.symm.trans hactive) Bool.false_ne_true
  | created i peerId nextPeerId fresh _ _ _ _ _ hfresh hlog =>
    have hnext : Vacant e session { ctx with nextPeerId := nextPeerId } := h
    obtain ⟨hmoves, -⟩ := Slot.dispatchPacket_moves hlex pkt path sender
      (adopted_ok hkind fresh pkt) (adopted_early fresh pkt) (.inr hfresh.active)
    by_cases hsame : pkt.session = session
    · obtain ⟨hvacant, hlost⟩ := Moves.vacant hmoves (hcur hsame) fun _ => rfl
      refine ⟨hnext.store fun _ => hvacant, fun _ => hlost.trans ?_⟩
      have hfirst : undelivered ((fresh.emit (.recv pkt)).adoptSession e pkt).log =
          undelivered fresh.log :=
        (emit_undelivered (v := (fresh.emit (.recv pkt)).view e) rfl).trans
          (emit_undelivered (v := fresh.view e) rfl)
      exact hfirst.trans (congrArg undelivered hlog)
    · obtain ⟨-, hstays⟩ := Moves.session_eq hlex hmoves
        (fun hnone => absurd (hfresh.peer.symm.trans hnone) (Option.some_ne_none _)) rfl
        (fun pkt' heq => congrArg Packet.session (Option.some.inj heq))
      exact ⟨hnext.store fun hs => absurd (hstays.symm.trans hs) hsame, fun hs => absurd hs hsame⟩

theorem healthCheckPeers_vacant (hlex : e.plat.CmpLex) (ht : Table e ctx)
    (h : ctx.Vacant e session) : (ctx.healthCheckPeers e).Vacant e session := by
  unfold healthCheckPeers
  have hticked : Table e { ctx with tick := ctx.tick + 1 } := ht.of_idle fun i => .inl rfl
  split
  · exact h
  · refine (Run.foldl_preserves_of_mem (P := fun ctx' => Table e ctx' ∧ ctx'.Vacant e session) ?_
      ⟨hticked, h⟩).2
    intro ctx' i hi hctx
    have hi' := List.mem_range.mp hi
    refine ⟨(healthCheckPeer_changes (e.plat.clock ctx.tick) hctx.1 hi').table hlex hctx.1, ?_⟩
    by_cases hactive : (ctx'.peers i).active = true
    · obtain ⟨hmoves, -⟩ := (Slot.healthCheckPeer_moves (e.plat.clock ctx.tick)
        (Option.isSome_iff_ne_none.mpr (hctx.1.peer i hi' hactive)) (hctx.1.ok i hi' hactive).head :
          Moves e none ((ctx'.slotInitPeer i).view e) _ ∧ _)
      refine hctx.2.store fun hs => ?_
      obtain ⟨-, hstays⟩ := Moves.session_eq hlex hmoves (hctx.1.peer i hi' hactive)
        (hctx.1.known i hi' hactive) (fun _ heq => by cases heq)
      exact (Moves.vacant hmoves (fun _ heq => by cases heq)
        (hctx.2 i hi' hactive (hstays.symm.trans hs))).1
    · rw [healthCheckPeer_inactive hactive]
      intro j hj hactive' hsession
      by_cases hji : j = i
      · subst hji
        rw [store_peers_self] at hactive'
        exact absurd hactive' hactive
      · rw [store_peers_of_ne hji] at hactive' ⊢
        rw [store_session_of_ne hji] at hsession
        exact hctx.2 j hj hactive' hsession

theorem n1HandlePacket_hello (hlex : e.plat.CmpLex) (hkind : e.type = .unicastBidirN1)
    (ht : Table e ctx) (hhello : pkt.isHello = true) (source : Endpoint)
    (hroom : (ctx.findBySession e pkt).isSome = true ∨
      (ctx.peerCreate e source 0).2.isSome = true) :
    ∃ i, (ctx.n1HandlePacket e pkt 0 source).findBySession e pkt = some i ∧
      ((ctx.n1HandlePacket e pkt 0 source).slotInitPeer i).healthAlive = true := by
  have hping : pkt.has FLAG_PING = true :=
    (Packet.has_of_flags (Packet.isHello_iff.mp hhello).1 FLAG_PING).trans rfl
  have hraw : e.type.isRawType = false := by rw [hkind]; rfl
  have ht' : Table e (ctx.n1HandlePacket e pkt 0 source) :=
    (n1HandlePacket_changes hlex hkind ht pkt 0 source).table hlex ht
  -- the slot that took the packet is in use, connected and found again
  suffices hslot : ∀ {base : Ctx} {i : Nat} {slot : Slot},
      ctx.n1HandlePacket e pkt 0 source = base.store i (slot.dispatchPacket e pkt 0 source) →
      i < e.maxPeers → slot.peer ≠ none → slot.active = true → slot.peerSessionKnown = true →
      (slot.view e).session = pkt.session → Slot.Ok e slot → (slot.view e).Early →
      ∃ i, (ctx.n1HandlePacket e pkt 0 source).findBySession e pkt = some i ∧
        ((ctx.n1HandlePacket e pkt 0 source).slotInitPeer i).healthAlive = true by
    cases hfind : ctx.findBySession e pkt with
    | some i =>
      obtain ⟨hi, hactive, hsession⟩ := findBySession_some hlex hfind
      exact hslot (n1HandlePacket_found hfind 0 source) hi (ht.peer i hi hactive) hactive
        (ht.known i hi hactive) hsession (Slot.emit_ok (ht.ok i hi hactive) (.recv pkt))
        (Slot.recv_early pkt)
    | none =>
      rw [hfind] at hroom
      rcases peerCreate_cases ctx source 0 with
        ⟨hnone, -, -⟩ | ⟨i, peerId, hsome, hi, -, -, hfresh, -, -⟩
      · rw [hnone] at hroom
        simp at hroom
      · have hpeer : ((ctx.peerCreate e source 0).1.slotInitPeer i).peer ≠ none := by
          rw [hfresh.peer]
          simp
        exact hslot (n1HandlePacket_create hfind hping hsome) hi hpeer hfresh.active rfl rfl
          (adopted_ok hkind _ pkt) (adopted_early _ pkt)
  intro base i slot heq hi hpeer hactive hknown hsession hok hearly
  have hadopt : (slot.sessionAdopt e pkt).2 = true := by
    by_contra hno
    exact (Slot.sessionAdopt_refused hlex (Bool.not_eq_true _ ▸ hno)).2.2 hsession
  have halive := Slot.dispatchPacket_hello (.inl hpeer) hraw hhello hadopt source
  obtain ⟨hmoves, -⟩ := Slot.dispatchPacket_moves hlex pkt 0 source hok hearly (.inr hactive)
  have hused : (slot.dispatchPacket e pkt 0 source).active = true :=
    (Moves.live hmoves hpeer (.inl hactive)).resolve_right fun hno =>
      absurd (halive.symm.trans hno) Bool.noConfusion
  obtain ⟨-, hstays⟩ := Moves.session_eq hlex hmoves hpeer hknown
    (fun pkt' hpkt => Option.some.inj hpkt ▸ hsession)
  refine ⟨i, findBySession_of_session hlex ht' hi ?_ ?_, ?_⟩
  · rw [heq, store_peers_self]
    exact hused
  · rw [heq, store_session_self]
    exact hstays.trans hsession
  · rw [heq, slotInitPeer_store_self]
    exact halive

end

end Ctx

namespace TcpCtx

section

variable {e : Env} {ctx : TcpCtx} {pkt : Packet}

theorem step_packet_accepted (ctx : TcpCtx) (path : Path) (pkt : Packet) :
    (ctx.step e (.packet path pkt)).tcpAcceptedSession = ctx.tcpAcceptedSession := by
  simp only [step]
  split
  · unfold tcpHandlePacket
    repeat' split
    all_goals rfl
  · rfl

theorem step_poll_control (ctx : TcpCtx) (path : Path) :
    (ctx.step e (.pollTimeout path)).tcpConnFd = ctx.tcpConnFd ∧
      (ctx.step e (.pollTimeout path)).tcpAcceptedSession = ctx.tcpAcceptedSession := by
  simp only [step]
  split
  · refine ⟨(checkPingTimeout_control _ path).1, ?_⟩
    unfold checkPingTimeout
    split
    · rfl
    · dsimp only
      split <;> rfl
  · exact ⟨rfl, rfl⟩

theorem handlePing_hello (ctx : TcpCtx) (htcp : e.type.isTcpType = true) (hpeer : ctx.peer = none)
    (hfd : ctx.tcpConnFd 0 = true) (hhello : pkt.isHello = true) :
    (ctx.handlePing e pkt 0).healthAlive = true := by
  obtain ⟨-, hlong, -⟩ := Packet.isHello_iff.mp hhello
  unfold handlePing
  dsimp only
  rw [if_pos hlong, Slot.syncPathState_healthAlive]
  have hseen : ((ctx.toSlot.tickOnce.setPathPingState 0 PING_STATE_NORMAL).applyRemotePathPingState
      pkt.payload).peer = none := hpeer
  rw [Slot.nextPathStates_tcp htcp hseen]
  refine Slot.anyPathAlive_of_first ?_
  unfold Slot.copyTcpPathStates Slot.copyBidirPathStates
  rw [Slot.hello_states hhello]
  change (ctx.tcpConnFd 0 && _) = true
  rw [hfd]
  rfl

theorem step_hello (htcp : e.type.isTcpType = true) (hpeer : ctx.peer = none)
    (hrunning : ctx.running 0 = true) (hrefuses : ctx.refuses e pkt = false)
    (hfd : ctx.tcpConnFd 0 = true) (hhello : pkt.isHello = true) :
    (ctx.step e (.packet 0 pkt)).healthAlive = true := by
  rw [step_packet_eq ctx pkt hrunning]
  simp only [Packet.has_of_flags (Packet.isHello_iff.mp hhello).1, hrefuses]
  exact handlePing_hello { ctx with toSlot := ctx.toSlot.emit (.recv pkt) } htcp hpeer hfd hhello

end

end TcpCtx

-- One end of a two-way service with a single path: a UNICAST_BIDIR service, an N:1 service and
-- one of its clients, or a TCP service.
inductive Station where
  | udp (slot : Slot)
  | peers (client : PacketSessionHdr) (ctx : Ctx)
  | tcp (ctx : TcpCtx)

namespace Station

def slot? (e : Env) : Station → Option Slot
  | .udp slot => some slot
  | .peers client ctx =>
      (ctx.findBySession e (Packet.fillSessionHdr client)).map ctx.slotInitPeer
  | .tcp ctx => some ctx.toSlot

def alive (e : Env) (st : Station) : Bool := (st.slot? e).any fun slot => slot.healthAlive

def log : Station → List (UInt32 × Act)
  | .udp slot => slot.log
  | .peers _ ctx => ctx.log
  | .tcp ctx => ctx.log

-- The receive thread with a packet, the receive thread without one, and the send thread.
inductive Input where
  | hear (source : Endpoint) (pkt : Packet)
  | poll
  | flush (packed : Bytes)

def step (e : Env) : Station → Input → Station
  | .udp slot, .hear source pkt => .udp (slot.step e (.packet 0 source pkt))
  | .udp slot, .poll => .udp (slot.step e .pollTimeout)
  | .udp slot, .flush packed => .udp (slot.flushPacked e packed)
  | .peers client ctx, .hear source pkt => .peers client (ctx.step e (.packet 0 source pkt))
  | .peers client ctx, .poll => .peers client (ctx.step e .pollTimeout)
  | .peers client ctx, .flush packed =>
      match ctx.findBySession e (Packet.fillSessionHdr client) with
      | none => .peers client ctx
      | some i => .peers client (ctx.store i ((ctx.slotInitPeer i).flushPacked e packed))
  | .tcp ctx, .hear _ pkt => .tcp (ctx.step e (.packet 0 pkt))
  | .tcp ctx, .poll => .tcp (ctx.step e (.pollTimeout 0))
  | .tcp ctx, .flush packed => .tcp { ctx with toSlot := ctx.toSlot.flushPackedTcp e packed true }

-- What the send thread makes of packed elements.
def container (e : Env) (st : Station) (packed : Bytes) : Option Packet :=
  (st.slot? e).bind fun slot => slot.packedContainer e packed

-- Whether a PING is let in: its session is accepted, an N:1 service has a slot for it.
def takes (e : Env) (source : Endpoint) (pkt : Packet) : Station → Bool
  | .udp slot => (slot.sessionAdopt e pkt).2
  | .peers _ ctx => (ctx.findBySession e pkt).isSome || (ctx.peerCreate e source 0).2.isSome
  | .tcp ctx => ctx.running 0 && !ctx.refuses e pkt

-- The session an end keeps as long as it is open. An N:1 service has one for each time a client
-- comes.
def own (e : Env) : Station → Option SessionHdr
  | .udp slot => some (slot.ownSession e)
  | .peers .. => none
  | .tcp ctx => some (ctx.toSlot.ownSession e)

-- The receive thread of a TCP path has ended.
def Deaf : Station → Prop
  | .tcp ctx => ctx.running 0 = false
  | _ => False

def Fits (e : Env) : Station → Prop
  | .udp slot => e.type = .unicastBidir ∧ slot.peer = none ∧ Slot.Ok e slot
  | .peers _ ctx => e.type = .unicastBidirN1 ∧ Ctx.Table e ctx
  | .tcp ctx => e.type.isTcpType = true ∧ ctx.Ok e ∧ ctx.reorderPending = false ∧
      (ctx.running 0 = true → ctx.tcpConnFd 0 = true)

def Knows (e : Env) (session : SessionHdr) : Station → Prop
  | .udp slot => slot.peerSessionKnown = true → (slot.view e).session = session
  | .peers client _ => (Packet.fillSessionHdr client).session = session
  | .tcp ctx => ∀ accepted ∈ ctx.tcpAcceptedSession, accepted = session

def Vacant (e : Env) : Station → Prop
  | .udp slot => slot.recvWindow.Vacant
  | .peers client ctx => ctx.Vacant e (Packet.fillSessionHdr client).session
  | .tcp ctx => ctx.recvWindow.Vacant

-- The packet is not one of another client.
def Concerns (pkt : Packet) : Station → Prop
  | .peers client _ => pkt.session = (Packet.fillSessionHdr client).session
  | _ => True

instance (pkt : Packet) : ∀ st : Station, Decidable (st.Concerns pkt)
  | .peers .. => inferInstanceAs (Decidable (_ = _))
  | .udp _ | .tcp _ => .isTrue trivial

section

variable {e : Env} {st : Station} {session : SessionHdr} {pkt : Packet}

theorem flushPacked_view (slot : Slot) (packed : Bytes) :
    { (slot.flushPacked e packed).view e with sendWindow := slot.sendWindow, log := slot.log } =
      slot.view e := by
  unfold Slot.flushPacked Slot.sendToDests
  split
  · rfl
  · split <;> rfl

theorem flushPacked_ok {slot : Slot} (hok : Slot.Ok e slot) (packed : Bytes) :
    Slot.Ok e (slot.flushPacked e packed) := by
  have hview := flushPacked_view (e := e) slot packed
  have hpeer : (slot.flushPacked e packed).peer = slot.peer := congrArg View.peer hview
  have hwin : (slot.flushPacked e packed).recvWindow = slot.recvWindow := congrArg View.win hview
  have hpending : (slot.flushPacked e packed).reorderPending = slot.reorderPending :=
    congrArg View.pending hview
  refine ⟨⟨?_, ?_, ?_, ?_⟩, ?_⟩
  · change (slot.flushPacked e packed).peer ≠ none → _
    rw [hpeer]
    exact hok.inv.kind
  · change (slot.flushPacked e packed).recvWindow.RecvWF
    rw [hwin]
    exact hok.inv.wf
  · change (slot.flushPacked e packed).recvWindow.windowSize = _
    rw [hwin]
    exact hok.inv.size
  · change (slot.flushPacked e packed).peer ≠ none ∨ _ →
      (slot.flushPacked e packed).reorderPending = false
    rw [hpeer, hpending]
    exact hok.inv.timer
  · unfold Slot.HeadEmpty
    rw [hwin]
    exact hok.head

theorem step_fits (hlex : e.plat.CmpLex) (h : st.Fits e) (input : Input) :
    (st.step e input).Fits e := by
  cases st with
  | udp slot =>
    obtain ⟨hkind, hpeer, hok⟩ := h
    cases input with
    | hear source pkt =>
      exact ⟨hkind, Slot.step_peer hlex hpeer hok _, (Slot.step_moves hlex hpeer hok _).2⟩
    | poll => exact ⟨hkind, Slot.step_peer hlex hpeer hok _, (Slot.step_moves hlex hpeer hok _).2⟩
    | flush packed =>
      exact ⟨hkind, (congrArg View.peer (flushPacked_view slot packed)).trans hpeer,
        flushPacked_ok hok packed⟩
  | peers client ctx =>
    obtain ⟨hkind, ht⟩ := h
    cases input with
    | hear source pkt => exact ⟨hkind, (Ctx.step_changes hlex hkind ht _).table hlex ht⟩
    | poll => exact ⟨hkind, (Ctx.step_changes hlex hkind ht _).table hlex ht⟩
    | flush packed =>
      simp only [step]
      split
      · exact ⟨hkind, ht⟩
      · rename_i i hfind
        obtain ⟨hi, hactive, -⟩ := Ctx.findBySession_some hlex hfind
        have hview := flushPacked_view (e := e) (ctx.slotInitPeer i) packed
        exact ⟨hkind, ht.store_same hi hactive (flushPacked_ok (ht.ok i hi hactive) packed)
          (congrArg View.peer hview)
          ((congrArg View.known hview).trans (ht.known i hi hactive))
          (congrArg View.session hview)⟩
  | tcp ctx =>
    obtain ⟨hkind, hok, hoff, hfd⟩ := h
    cases input with
    | hear source pkt =>
      obtain ⟨hfd', hrunning⟩ := TcpCtx.step_packet_control ctx 0 pkt
      refine ⟨hkind, TcpCtx.step_ok hlex hok _, (TcpCtx.step_shift hlex hok hoff _).2,
        fun hr => ?_⟩
      rw [hrunning] at hr
      rw [hfd']
      exact hfd hr
    | poll =>
      refine ⟨hkind, TcpCtx.step_ok hlex hok _, (TcpCtx.step_shift hlex hok hoff _).2,
        fun hr => ?_⟩
      rw [(TcpCtx.step_poll_control ctx 0).1]
      refine hfd ?_
      by_contra hno
      have hstep : ctx.step e (.pollTimeout 0) = ctx := if_neg hno
      rw [hstep] at hr
      exact hno hr
    | flush packed =>
      simp only [step, Slot.flushPackedTcp, if_true]
      split
      · exact ⟨hkind, hok, hoff, hfd⟩
      · exact ⟨hkind, ⟨hok.peer, ⟨hok.slot.inv.kind, hok.slot.inv.wf, hok.slot.inv.size,
          hok.slot.inv.timer⟩, hok.slot.head⟩, hoff, hfd⟩

theorem step_own (hlex : e.plat.CmpLex) (h : st.Fits e) (input : Input) :
    (st.step e input).own e = st.own e := by
  have hsame : ∀ {hdr hdr' : PacketSessionHdr}, hdr' = hdr →
      some (Packet.fillSessionHdr hdr').session = some (Packet.fillSessionHdr hdr).session :=
    fun heq => by rw [heq]
  cases st with
  | udp slot =>
    obtain ⟨-, hpeer, hok⟩ := h
    have hstep : ∀ input, (slot.step e input).ownSessionHdr e = slot.ownSessionHdr e := by
      intro input
      rcases (Slot.step_moves hlex hpeer hok input).1 with heq | hmoves
      · rw [heq]
      · exact (Moves.sending hmoves).1
    cases input with
    | hear source pkt => exact hsame (hstep _)
    | poll => exact hsame (hstep _)
    | flush packed => exact hsame (congrArg View.own (flushPacked_view slot packed))
  | peers client ctx =>
    cases input with
    | hear source pkt => rfl
    | poll => rfl
    | flush packed =>
      simp only [step]
      split <;> rfl
  | tcp ctx =>
    obtain ⟨-, hok, hoff, -⟩ := h
    cases input with
    | hear source pkt => exact hsame (TcpCtx.step_sending hlex hok hoff _).1
    | poll => exact hsame (TcpCtx.step_sending hlex hok hoff _).1
    | flush packed =>
      simp only [step, Slot.flushPackedTcp, if_true]
      split <;> rfl

theorem step_deaf (h : st.Deaf) (input : Input) : (st.step e input).Deaf := by
  cases st with
  | udp slot => exact h.elim
  | peers client ctx => exact h.elim
  | tcp ctx =>
    have hno : ¬ ctx.running 0 = true := by
      rw [show ctx.running 0 = false from h]
      exact Bool.false_ne_true
    cases input with
    | hear source pkt => exact (congrArg (fun c : TcpCtx => c.running 0) (if_neg hno)).trans h
    | poll => exact (congrArg (fun c : TcpCtx => c.running 0) (if_neg hno)).trans h
    | flush packed => exact h

theorem hear_deaf (h : st.Deaf) (source : Endpoint) (pkt : Packet) :
    st.step e (.hear source pkt) = st := by
  cases st with
  | udp slot => exact h.elim
  | peers client ctx => exact h.elim
  | tcp ctx =>
    have hno : ¬ ctx.running 0 = true := by
      rw [show ctx.running 0 = false from h]
      exact Bool.false_ne_true
    exact congrArg Station.tcp (if_neg hno)

theorem step_knows (hlex : e.plat.CmpLex) (hfits : st.Fits e) (h : st.Knows e session)
    {input : Input} (hsession : ∀ source pkt, input = .hear source pkt → st.own e ≠ none →
      pkt.session = session) :
    (st.step e input).Knows e session := by
  cases st with
  | udp slot =>
    obtain ⟨-, hpeer, hok⟩ := hfits
    have hstep : ∀ input : Slot.Input, (∀ pkt, input.cur = some pkt → pkt.session = session) →
        (slot.step e input).peerSessionKnown = true →
          ((slot.step e input).view e).session = session := by
      intro input hcur
      rcases (Slot.step_moves hlex hpeer hok input).1 with heq | hmoves
      · rw [heq]
        exact h
      · exact Moves.tracks hmoves hcur h
    cases input with
    | hear source pkt =>
      exact hstep (.packet 0 source pkt) fun pkt' heq =>
        Option.some.inj heq ▸ hsession source pkt rfl (by simp [own])
    | poll => exact hstep .pollTimeout fun pkt' heq => by cases heq
    | flush packed =>
      have hview := flushPacked_view (e := e) slot packed
      exact fun hknown => (congrArg View.session hview).trans
        (h ((congrArg View.known hview).symm.trans hknown))
  | peers client ctx =>
    cases input with
    | hear source pkt => exact h
    | poll => exact h
    | flush packed =>
      simp only [step]
      split <;> exact h
  | tcp ctx =>
    cases input with
    | hear source pkt =>
      simp only [step, Knows]
      rw [TcpCtx.step_packet_accepted]
      exact h
    | poll =>
      simp only [step, Knows]
      rw [(TcpCtx.step_poll_control ctx 0).2]
      exact h
    | flush packed =>
      simp only [step, Slot.flushPackedTcp, if_true]
      split <;> exact h

theorem step_vacant (hlex : e.plat.CmpLex) (hfits : st.Fits e) (h : st.Vacant e) {input : Input}
    (hquiet : ∀ source pkt, input = .hear source pkt → st.Concerns pkt →
      pkt.has FLAG_DATA = false) :
    (st.step e input).Vacant e ∧ ∀ source pkt, input = .hear source pkt → st.Concerns pkt →
      undelivered (st.step e input).log = undelivered st.log := by
  cases st with
  | udp slot =>
    obtain ⟨-, hpeer, hok⟩ := hfits
    have hstep : ∀ input : Slot.Input,
        (∀ pkt, input.cur = some pkt → pkt.has FLAG_DATA = false) →
        (slot.step e input).recvWindow.Vacant ∧
          undelivered (slot.step e input).log = undelivered slot.log := by
      intro input hcur
      rcases (Slot.step_moves hlex hpeer hok input).1 with heq | hmoves
      · rw [heq]
        exact ⟨h, rfl⟩
      · obtain ⟨hvacant, hlost⟩ := Moves.vacant hmoves hcur h
        refine ⟨hvacant, hlost.trans (emit_undelivered (v := slot.view e) ?_)⟩
        cases input <;> rfl
    cases input with
    | hear source pkt =>
      obtain ⟨hvacant, hlost⟩ := hstep (.packet 0 source pkt) fun pkt' heq =>
        Option.some.inj heq ▸ hquiet source pkt rfl trivial
      exact ⟨hvacant, fun _ _ _ _ => hlost⟩
    | poll =>
      exact ⟨(hstep .pollTimeout fun pkt' heq => by cases heq).1, fun _ _ heq => by cases heq⟩
    | flush packed =>
      have hwin : (slot.flushPacked e packed).recvWindow = slot.recvWindow :=
        congrArg View.win (flushPacked_view slot packed)
      refine ⟨?_, fun _ _ heq => by cases heq⟩
      change (slot.flushPacked e packed).recvWindow.Vacant
      rw [hwin]
      exact h
  | peers client ctx =>
    obtain ⟨hkind, ht⟩ := hfits
    cases input with
    | hear source pkt =>
      have hrecv := Ctx.n1HandlePacket_vacant hlex hkind ht h (hquiet source pkt rfl) 0 source
      simp only [step, Ctx.step]
      split
      · exact ⟨h, fun _ _ _ _ => rfl⟩
      · refine ⟨hrecv.1, fun _ _ heq hconcerns => ?_⟩
        cases heq
        exact hrecv.2 hconcerns
    | poll => exact ⟨Ctx.healthCheckPeers_vacant hlex ht h, fun _ _ heq => by cases heq⟩
    | flush packed =>
      refine ⟨?_, fun _ _ heq => by cases heq⟩
      simp only [step]
      split
      · exact h
      · rename_i i hfind
        obtain ⟨hi, hactive, hsession⟩ := Ctx.findBySession_some hlex hfind
        refine h.store fun _ => ?_
        have hwin : ((ctx.slotInitPeer i).flushPacked e packed).recvWindow =
            (ctx.peers i).recvWindow :=
          congrArg View.win (flushPacked_view (ctx.slotInitPeer i) packed)
        rw [hwin]
        exact h i hi hactive hsession
  | tcp ctx =>
    obtain ⟨-, hok, hoff, -⟩ := hfits
    cases input with
    | hear source pkt =>
      by_cases hrunning : ctx.running 0 = true
      · obtain ⟨hvacant, hlost⟩ := Moves.vacant
          (TcpCtx.step_packet_moves hlex hok hoff pkt hrunning).1
          (fun pkt' heq => Option.some.inj heq ▸ hquiet source pkt rfl trivial) h
        exact ⟨hvacant, fun _ _ _ _ => hlost.trans
          (emit_undelivered (v := ctx.toSlot.view e) rfl)⟩
      · have hsame : (Station.tcp ctx).step e (.hear source pkt) = .tcp ctx :=
          congrArg Station.tcp (if_neg hrunning)
        rw [hsame]
        exact ⟨h, fun _ _ _ _ => rfl⟩
    | poll =>
      refine ⟨?_, fun _ _ heq => by cases heq⟩
      by_cases hrunning : ctx.running 0 = true
      · have hstep : ctx.step e (.pollTimeout 0) =
            TcpCtx.checkPingTimeout e { ctx with toSlot := ctx.toSlot.emit .poll } 0 :=
          if_pos hrunning
        simp only [step, hstep]
        exact (Moves.vacant (TcpCtx.checkPingTimeout_moves
          { ctx with toSlot := ctx.toSlot.emit .poll } 0 hok.peer)
          (fun _ heq => by cases heq) h).1
      · have hstep : ctx.step e (.pollTimeout 0) = ctx := if_neg hrunning
        simp only [step, hstep]
        exact h
    | flush packed =>
      refine ⟨?_, fun _ _ heq => by cases heq⟩
      simp only [step, Slot.flushPackedTcp, if_true]
      split <;> exact h

theorem hear_hello (hlex : e.plat.CmpLex) (hpath : 0 < e.nPath) (hfits : st.Fits e)
    (hconcerns : st.Concerns pkt) {source : Endpoint} (htakes : st.takes e source pkt = true)
    (hhello : pkt.isHello = true) : (st.step e (.hear source pkt)).alive e = true := by
  cases st with
  | udp slot =>
    obtain ⟨hkind, hpeer, hok⟩ := hfits
    have hnack : pkt.has FLAG_NACK = false :=
      (Packet.has_of_flags (Packet.isHello_iff.mp hhello).1 FLAG_NACK).trans rfl
    have hstep : slot.step e (.packet 0 source pkt) =
        (slot.emit (.recv pkt)).dispatchPacket e pkt 0 source :=
      Slot.step_dispatches (.inr hkind) source hpath hnack
    change (slot.step e (.packet 0 source pkt)).healthAlive = true
    rw [hstep]
    exact Slot.dispatchPacket_hello (.inr hkind) (by rw [hkind]; rfl) hhello
      ((Slot.sessionAdopt_emit slot _ pkt).trans htakes) source
  | peers client ctx =>
    obtain ⟨hkind, ht⟩ := hfits
    have hstep : ctx.step e (.packet 0 source pkt) = ctx.n1HandlePacket e pkt 0 source :=
      if_neg (Nat.not_le.mpr hpath)
    obtain ⟨i, hfind, halive⟩ := Ctx.n1HandlePacket_hello hlex hkind ht hhello source
      (by simpa [takes] using htakes)
    rw [Ctx.findBySession_congr hconcerns] at hfind
    simp only [alive, step, slot?, hstep, hfind, Option.map_some, Option.any_some]
    exact halive
  | tcp ctx =>
    obtain ⟨hkind, hok, -, hfd⟩ := hfits
    simp only [takes, Bool.and_eq_true, Bool.not_eq_true'] at htakes
    exact TcpCtx.step_hello hkind hok.peer htakes.1 htakes.2 (hfd htakes.1) hhello

theorem Knows.takes (hlex : e.plat.CmpLex) (h : st.Knows e session) (hown : st.own e ≠ none)
    (hsession : pkt.session = session) (hhears : ¬ st.Deaf) (source : Endpoint) :
    st.takes e source pkt = true := by
  cases st with
  | udp slot =>
    by_contra hno
    obtain ⟨hknown, -, hother⟩ := Slot.sessionAdopt_refused hlex (Bool.not_eq_true _ ▸ hno)
    exact hother ((h hknown).trans hsession.symm)
  | peers client ctx => exact absurd rfl hown
  | tcp ctx =>
    have hrunning : ctx.running 0 = true := by
      by_contra hno
      exact hhears (Bool.eq_false_iff.mpr hno)
    have hopen : ctx.refuses e pkt = false := by
      unfold TcpCtx.refuses
      cases haccepted : ctx.tcpAcceptedSession with
      | none => rfl
      | some accepted =>
        have heq : pkt.session = accepted := hsession.trans (h accepted haccepted).symm
        have hid : pkt.sessionId = accepted.id := congrArg SessionHdr.id heq
        have hts : pkt.sessionTs = accepted.ts := congrArg SessionHdr.ts heq
        simp [hid, hts, (hlex.eq_zero accepted.ts accepted.ts).mpr rfl]
    simp [Station.takes, hrunning, hopen]

theorem Fits.multi (h : st.Fits e) (hown : st.own e = none) : e.isMultiPeer = true := by
  cases st with
  | udp slot => cases hown
  | peers client ctx => exact decide_eq_true h.1
  | tcp ctx => cases hown

theorem concerns_of_own (hown : st.own e ≠ none) (pkt : Packet) : st.Concerns pkt := by
  cases st with
  | udp slot => trivial
  | peers client ctx => exact absurd rfl hown
  | tcp ctx => trivial

theorem concerns_of_knows {other : Option SessionHdr} (h : ∀ session ∈ other, st.Knows e session)
    (hpair : st.own e = none → other ≠ none) (hsession : ∀ session ∈ other, pkt.session = session) :
    st.Concerns pkt := by
  cases st with
  | udp slot => trivial
  | peers client ctx =>
    obtain ⟨session, rfl⟩ := Option.ne_none_iff_exists'.mp (hpair rfl)
    have hclient : (Packet.fillSessionHdr client).session = session := h session rfl
    exact (hsession session rfl).trans hclient.symm
  | tcp ctx => trivial

end

end Station

end Porter
