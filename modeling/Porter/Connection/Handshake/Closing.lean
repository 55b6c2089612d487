import Porter.Connection.Handshake

namespace Porter

open View

-- A path is not known, or known to work.
def CalmState (state : UInt8) : Prop := state = PING_STATE_UNDEFINED ∨ state = PING_STATE_NORMAL

namespace TcpCtx

-- The check of tcp_recv_thread_func fires.
def Overdue (e : Env) (ctx : TcpCtx) (path : Path) : Prop :=
  e.healthIntervalMs ≠ 0 ∧ e.healthTimeoutMs ≠ 0 ∧ 0 < ctx.tcpLastPingRecvMs path ∧
    e.healthTimeoutMs <
      (e.plat.clockMs ctx.tick + 2 ^ 64 - ctx.tcpLastPingRecvMs path) % 2 ^ 64

instance (e : Env) (ctx : TcpCtx) (path : Path) : Decidable (ctx.Overdue e path) :=
  inferInstanceAs (Decidable (_ ∧ _ ∧ _ ∧ _))

-- A service with one connection, on which no PING was ever late, has dropped nothing.
structure Live (ctx : TcpCtx) : Prop where
  running : ctx.running 0 = true
  fds : ∀ k, ctx.tcpConnFd k = true ↔ k = 0
  ping : CalmState (ctx.pathPingState 0)
  up : ctx.healthAlive = true → ctx.remotePathPingState 0 = PING_STATE_NORMAL
  kept : undelivered ctx.log = []

section

variable {e : Env} {ctx ctx' : TcpCtx} {slot : Slot} {pkt : Packet}

theorem Live.of_links (h : ctx.Live) (hrunning : ctx'.running = ctx.running)
    (hlinks : ctx'.links = ctx.links) (hlog : undelivered ctx'.log = undelivered ctx.log) :
    ctx'.Live where
  running := (congrFun hrunning 0).trans h.running
  fds k := by
    rw [show ctx'.tcpConnFd = ctx.tcpConnFd from congrArg Links.tcpConnFd hlinks]
    exact h.fds k
  ping := by
    rw [show ctx'.pathPingState = ctx.pathPingState from congrArg Links.pathPingState hlinks]
    exact h.ping
  up halive := by
    rw [show ctx'.remotePathPingState = ctx.remotePathPingState from
      congrArg Links.remotePathPingState hlinks]
    exact h.up ((congrArg (fun l : Links => l.alive) hlinks).symm.trans halive)
  kept := hlog.trans h.kept

theorem handlePing_alive (htcp : e.type.isTcpType = true) (hpeer : ctx.peer = none)
    (pkt : Packet) (hfds : ∀ k, ctx.tcpConnFd k = true ↔ k = 0) :
    (ctx.handlePing e pkt 0).healthAlive = true ↔
      (ctx.handlePing e pkt 0).remotePathPingState 0 = PING_STATE_NORMAL := by
  have hremote := (handlePing_resync htcp ctx pkt 0 hpeer).other
  rw [hremote]
  have hsync : ∀ slot : Slot, slot.peer = none → slot.tcpConnFd = ctx.tcpConnFd →
      slot.pathPingState 0 = PING_STATE_NORMAL →
      ((slot.syncPathState e).healthAlive = true ↔
        slot.remotePathPingState 0 = PING_STATE_NORMAL) := by
    intro slot hnone hfd hping
    rw [Slot.syncPathState_healthAlive, Slot.nextPathStates_tcp htcp hnone]
    refine ⟨fun hany => ?_, fun hnormal => Slot.anyPathAlive_of_first ?_⟩
    · obtain ⟨k, -, hk⟩ := List.any_eq_true.mp hany
      simp only [Slot.copyTcpPathStates, Slot.copyBidirPathStates, Slot.pathStateIsNormal,
        Bool.and_eq_true, decide_eq_true_eq, hfd] at hk
      exact (hfds k).mp hk.1 ▸ hk.2.2
    · simp only [Slot.copyTcpPathStates, Slot.copyBidirPathStates, Slot.pathStateIsNormal, hfd,
        hping, hnormal, (hfds 0).mpr rfl]
      decide
  have hnormal : Function.update ctx.pathPingState 0 PING_STATE_NORMAL 0 = PING_STATE_NORMAL :=
    Function.update_self ..
  unfold handlePing merged
  split
  · exact hsync _ hpeer rfl hnormal
  · exact hsync _ hpeer rfl hnormal

theorem merged_calm {remote : Path → UInt8} {src : Bytes} (h : remote 0 = PING_STATE_NORMAL)
    (hcalm : CalmState (src.getD 0 PING_STATE_UNDEFINED)) :
    merged remote src 0 = PING_STATE_NORMAL := by
  unfold merged
  split
  · change (if src.getD 0 PING_STATE_UNDEFINED ≠ PING_STATE_UNDEFINED then
      src.getD 0 PING_STATE_UNDEFINED else remote 0) = _
    rcases hcalm with hundefined | hnormal
    · rw [if_neg (not_not.mpr hundefined), h]
    · rw [hnormal]
      rfl
  · exact h

theorem handlePing_pendingFin (ctx : TcpCtx) (path : Path) :
    (ctx.handlePing e pkt path).pendingFin = ctx.pendingFin := by
  have hsync : ∀ slot : Slot, (slot.syncPathState e).pendingFin = slot.pendingFin := by
    intro slot
    unfold Slot.syncPathState Slot.syncPathStateLocked Slot.callbackEmits
    split <;> rfl
  unfold handlePing
  rw [hsync]
  split <;> rfl

-- A PING of an end that hears this one, or does not know yet, does not disconnect it.
theorem Live.handlePing (h : ctx.Live) (htcp : e.type.isTcpType = true) (hpeer : ctx.peer = none)
    (hcalm : CalmState (pkt.payload.getD 0 PING_STATE_UNDEFINED)) :
    (ctx.handlePing e pkt 0).Live ∧
      (ctx.healthAlive = true → (ctx.handlePing e pkt 0).healthAlive = true) := by
  have hsync := handlePing_resync htcp ctx pkt 0 hpeer
  have halive := handlePing_alive htcp hpeer pkt h.fds
  refine ⟨⟨h.running, fun k => ?_, ?_, halive.mp, ?_⟩, fun hup => halive.mpr ?_⟩
  · rw [hsync.fd]
    exact h.fds k
  · rw [hsync.own]
    exact .inr (Function.update_self ..)
  · have hmoves : Moves e none (ctx.view e) ((ctx.handlePing e pkt 0).view e) :=
      handlePing_moves ctx 0 hpeer
    exact (Moves.undelivered hmoves (by simp [Drains])).trans h.kept
  · rw [hsync.other]
    exact merged_calm (h.up hup) hcalm

theorem sessionAdopt_undelivered (slot : Slot) (pkt : Packet) :
    undelivered (slot.sessionAdopt e pkt).1.log = undelivered slot.log := by
  have hadopt : undelivered (slot.adoptSession e pkt).log = undelivered slot.log :=
    emit_undelivered (v := slot.view e) rfl
  unfold Slot.sessionAdopt
  dsimp only
  repeat' split
  all_goals first
    | exact hadopt
    | rfl

theorem finFire_dead (target : UInt32) (hpeer : slot.peer = none) :
    (slot.finFire e target).healthAlive = false ∧
      (slot.finFire e target).pathPingState = fun _ => PING_STATE_UNDEFINED := by
  have hdisc : ∀ slot : Slot, (slot.disconnectAllPaths e).healthAlive = false := by
    intro slot
    unfold Slot.disconnectAllPaths Slot.syncPathStateLocked Slot.callbackEmits
    split <;> exact Slot.anyPathAlive_false
  unfold Slot.finFire
  rw [hpeer]
  exact ⟨hdisc _, (Slot.disconnectAllPaths_fields _).1⟩

theorem dispatchFin_links (slot : Slot) (hpeer : slot.peer = none) (pkt : Packet) :
    undelivered (slot.dispatchFin e pkt).log = undelivered slot.log ∧
      ((slot.dispatchFin e pkt).links = slot.links ∨
        (slot.dispatchFin e pkt).healthAlive = false ∧
          (slot.dispatchFin e pkt).pathPingState = fun _ => PING_STATE_UNDEFINED) := by
  have hadopt := Slot.sessionAdopt_beside (e := e) slot pkt
  have hlog := sessionAdopt_undelivered (e := e) slot pkt
  rw [Slot.dispatchFin_eq, hpeer]
  simp only [Option.isNone_none, if_true]
  generalize slot.sessionAdopt e pkt = adopted at hadopt hlog ⊢
  split
  · exact ⟨hlog, .inl hadopt.links⟩
  have hfin := Slot.finOnPacket_beside adopted.1 pkt
  have hfinlog : undelivered (adopted.1.finOnPacket pkt).1.log = undelivered slot.log := by
    refine Eq.trans ?_ hlog
    unfold Slot.finOnPacket
    repeat' split
    all_goals rfl
  have hpeer' : (adopted.1.finOnPacket pkt).1.peer = none :=
    hfin.peer.trans (hadopt.peer.trans hpeer)
  split
  · have hmoves : Moves e none ((adopted.1.finOnPacket pkt).1.view e)
        (((adopted.1.finOnPacket pkt).1.finFire e pkt.ackNum).view e) :=
      Slot.finFire_moves fun _ hno => by cases hno
    refine ⟨(Moves.undelivered hmoves (by simp [Drains])).trans hfinlog,
      .inr (finFire_dead _ hpeer')⟩
  · exact ⟨hfinlog, .inl (hfin.links.trans hadopt.links)⟩

theorem acceptData_undelivered (slot : Slot) (hfin : slot.pendingFin = false)
    (halive : slot.healthAlive = true) (pkt : Packet) :
    undelivered (acceptData e slot pkt).log = undelivered slot.log ∧
      (acceptData e slot pkt).pendingFin = false := by
  have hadopt := (Slot.sessionAdopt_beside (e := e) slot pkt).links
  have hlog := sessionAdopt_undelivered (e := e) slot pkt
  have hopen : (slot.sessionAdopt e pkt).1.pendingFin = false := by
    unfold Slot.sessionAdopt
    dsimp only
    repeat' split
    all_goals first
      | exact hfin
      | rfl
  rcases acceptData_cases slot pkt with ⟨-, heq⟩ | ⟨-, -, heq⟩ | ⟨win, -, -, heq⟩
  · rw [heq]
    exact ⟨hlog, hopen⟩
  · rw [heq]
    exact ⟨hlog, hopen⟩
  · have hup : ((slot.sessionAdopt e pkt).1.pushed pkt win).healthAlive = true :=
      (congrArg (fun l : Links => l.alive) hadopt).trans halive
    have hopen : ((slot.sessionAdopt e pkt).1.pushed pkt win).pendingFin = false := hopen
    have hpushed : undelivered ((slot.sessionAdopt e pkt).1.pushed pkt win).log =
        undelivered slot.log :=
      (emit_undelivered (v := (slot.sessionAdopt e pkt).1.view e) rfl).trans hlog
    rw [heq, Slot.slotDrainRecvWindow_eq]
    generalize (slot.sessionAdopt e pkt).1.pushed pkt win = pushed at hup hopen hpushed
    obtain ⟨hnone, hkept⟩ := Slot.drainLoop_preserves
      (P := fun v => v.pendingFin = false ∧ undelivered v.log = undelivered slot.log)
      pushed.recvWindow.windowSize
      (fun v pkt' win' hsame _ h => ⟨(popped_pendingFin ..).trans h.1,
        (popped_undelivered pkt' win' (hsame.trans hup)).trans h.2⟩) ⟨hopen, hpushed⟩
    generalize pushed.drainLoop e _ = drained at hnone hkept ⊢
    have hkeep : drained.finPendingReached = false := by
      unfold Slot.finPendingReached
      rw [show drained.pendingFin = false from hnone, Bool.false_and]
    rw [hkeep]
    exact ⟨hkept, hnone⟩

-- A packet disconnects the end, or has it wait for the rest of the session, only as a FIN.
structure Heeds (pkt : Packet) (ctx ctx' : TcpCtx) : Prop where
  live : ctx'.Live
  pending : ctx'.pendingFin = true → ctx.pendingFin = true ∨ pkt.has FLAG_FIN = true
  alive : ctx.healthAlive = true → ctx'.healthAlive = true ∨ pkt.has FLAG_FIN = true

theorem Live.hear (h : ctx.Live) (htcp : e.type.isTcpType = true) (hpeer : ctx.peer = none)
    (hcalm : pkt.has FLAG_PING = true → CalmState (pkt.payload.getD 0 PING_STATE_UNDEFINED))
    (hdata : pkt.has FLAG_DATA = true → ctx.pendingFin = false ∧ ctx.healthAlive = true) :
    Heeds pkt ctx (ctx.step e (.packet 0 pkt)) := by
  have hnoted : undelivered (ctx.toSlot.emit (.recv pkt)).log = undelivered ctx.log :=
    emit_undelivered (v := ctx.toSlot.view e) rfl
  have hlive : Live { ctx with toSlot := ctx.toSlot.emit (.recv pkt) } := h.of_links rfl rfl hnoted
  rw [step_packet_eq ctx pkt h.running]
  split
  · exact ⟨hlive, .inl, .inl⟩
  split
  · rename_i hfin
    have hpeer' : (ctx.toSlot.emit (.recv pkt)).peer = none := hpeer
    obtain ⟨hlog, hlinks | ⟨hdead, hping⟩⟩ := dispatchFin_links _ hpeer' pkt
    · exact ⟨hlive.of_links rfl hlinks hlog, fun _ => .inr hfin, fun _ => .inr hfin⟩
    · refine ⟨⟨h.running, ?_, ?_, ?_, ?_⟩, fun _ => .inr hfin, fun _ => .inr hfin⟩
      · intro k
        rw [(Slot.dispatchFin_aside pkt hpeer').fd]
        exact h.fds k
      · rw [hping]
        exact .inl rfl
      · exact fun halive => absurd (halive.symm.trans hdead) Bool.noConfusion
      · exact hlog.trans hlive.kept
  split
  · rename_i hping
    obtain ⟨hstill, hup⟩ := hlive.handlePing htcp hpeer (hcalm hping)
    refine ⟨hstill, fun hpending => .inl ?_, fun halive => .inl (hup halive)⟩
    rw [handlePing_pendingFin] at hpending
    exact hpending
  split
  · rename_i hkind
    obtain ⟨hopen, halive⟩ := hdata hkind
    obtain ⟨hlog, hnone⟩ :=
      acceptData_undelivered (ctx.toSlot.emit (.recv pkt)) hopen halive pkt
    have hfin : (ctx.toSlot.emit (.recv pkt)).peerSessionKnown = true →
        (ctx.toSlot.emit (.recv pkt)).pendingFin = false := fun _ => hopen
    have hlinks := acceptData_links (e := e) hfin pkt
    exact ⟨hlive.of_links rfl hlinks hlog, fun hpending => absurd (hpending.symm.trans hnone)
      Bool.noConfusion, fun hup => .inl ((congrArg (fun l : Links => l.alive) hlinks).trans hup)⟩
  · exact ⟨hlive, .inl, .inl⟩

theorem step_poll_punctual (ctx : TcpCtx) (h : ¬ ctx.Overdue e 0) :
    (ctx.step e (.pollTimeout 0)).running = ctx.running ∧
      (ctx.step e (.pollTimeout 0)).links = ctx.links ∧
      (ctx.step e (.pollTimeout 0)).pendingFin = ctx.pendingFin ∧
      undelivered (ctx.step e (.pollTimeout 0)).log = undelivered ctx.log := by
  have hnoted : undelivered (ctx.toSlot.emit .poll).log = undelivered ctx.log :=
    emit_undelivered (v := ctx.toSlot.view e) rfl
  simp only [step]
  split
  · unfold checkPingTimeout
    split
    · exact ⟨rfl, rfl, rfl, hnoted⟩
    · rename_i hon
      obtain ⟨hinterval, htimeout⟩ := not_or.mp hon
      dsimp only
      split
      · rename_i hfires
        exact absurd ⟨hinterval, htimeout, hfires⟩ h
      · exact ⟨rfl, rfl, rfl, hnoted⟩
  · exact ⟨rfl, rfl, rfl, rfl⟩

end

end TcpCtx

namespace Station

def Live : Station → Prop
  | .tcp ctx => ctx.Live
  | _ => False

def Overdue (e : Env) : Station → Prop
  | .tcp ctx => ctx.Overdue e 0
  | _ => False

instance (e : Env) : ∀ st : Station, Decidable (st.Overdue e)
  | .tcp ctx => inferInstanceAs (Decidable (ctx.Overdue e 0))
  | .udp _ | .peers .. => .isFalse id

def pendingFin : Station → Bool
  | .tcp ctx => ctx.pendingFin
  | _ => false

theorem Live.concerns {st : Station} (h : st.Live) (pkt : Packet) : st.Concerns pkt := by
  cases st with
  | udp slot => exact h.elim
  | peers client ctx => exact h.elim
  | tcp ctx => trivial

theorem Live.kept {st : Station} (h : st.Live) : undelivered st.log = [] := by
  cases st with
  | udp slot => exact h.elim
  | peers client ctx => exact h.elim
  | tcp ctx => exact TcpCtx.Live.kept h

theorem Live.not_deaf {st : Station} (h : st.Live) : ¬ st.Deaf := by
  cases st with
  | udp slot => exact h.elim
  | peers client ctx => exact h.elim
  | tcp ctx => exact fun hdeaf => absurd (h.running.symm.trans hdeaf) Bool.noConfusion

end Station

namespace Party

-- The session of the other end is over for this one, or waits for its last packets.
def Parted (e : Env) (p : Party) : Prop :=
  p.station.pendingFin = true ∨ p.met = true ∧ p.station.alive e = false

section

variable {e er : Env} {mine theirs : Option SessionHdr} {p : Party} {pkt : Packet}
  {source : Endpoint}

theorem hears (source : Endpoint) (h : p.Sound e mine theirs) (hlive : p.station.Live)
    (hcalm : pkt.has FLAG_PING = true → CalmState (pkt.payload.getD 0 PING_STATE_UNDEFINED))
    (hdata : pkt.has FLAG_DATA = true → p.met = true ∧ ¬ p.Parted e) :
    (p.moved e (.hear source pkt)).station.Live ∧
      ((p.moved e (.hear source pkt)).Parted e → p.Parted e ∨ pkt.has FLAG_FIN = true) := by
  obtain ⟨station, draft, outbox, sent, closing, greeted, met⟩ := p
  cases station with
  | udp slot => exact hlive.elim
  | peers client ctx => exact hlive.elim
  | tcp ctx =>
    have hlive : ctx.Live := hlive
    obtain ⟨htcp, hok, -⟩ := h.fits
    have hopen : pkt.has FLAG_DATA = true → ctx.pendingFin = false ∧ ctx.healthAlive = true := by
      intro hkind
      obtain ⟨hmet, hno⟩ := hdata hkind
      obtain ⟨hpending, hdead⟩ := not_or.mp hno
      refine ⟨Bool.eq_false_iff.mpr hpending, ?_⟩
      by_contra hoff
      exact hdead ⟨hmet, Bool.eq_false_iff.mpr hoff⟩
    have hheeds := hlive.hear htcp hok.peer hcalm hopen
    refine ⟨hheeds.live, ?_⟩
    rintro (hpending | ⟨hmet, hdead⟩)
    · exact (hheeds.pending hpending).imp_left .inl
    · have hdead : (ctx.step e (.packet 0 pkt)).healthAlive = false := hdead
      by_cases halive : ctx.healthAlive = true
      · exact (hheeds.alive halive).imp_left fun hup =>
          absurd (hup.symm.trans hdead) Bool.noConfusion
      · refine .inl (.inr ⟨?_, Bool.eq_false_iff.mpr halive⟩)
        have hmet : (met || (ctx.step e (.packet 0 pkt)).healthAlive) = true := hmet
        rw [hdead, Bool.or_false] at hmet
        exact hmet

theorem waits (hlive : p.station.Live) (hpunctual : ¬ p.station.Overdue e) :
    (p.moved e .poll).station.Live ∧ ((p.moved e .poll).Parted e → p.Parted e) := by
  obtain ⟨station, draft, outbox, sent, closing, greeted, met⟩ := p
  cases station with
  | udp slot => exact hlive.elim
  | peers client ctx => exact hlive.elim
  | tcp ctx =>
    have hlive : ctx.Live := hlive
    obtain ⟨hrunning, hlinks, hpending, hlog⟩ := TcpCtx.step_poll_punctual ctx hpunctual
    have halive : (ctx.step e (.pollTimeout 0)).healthAlive = ctx.healthAlive :=
      congrArg (fun l : Links => l.alive) hlinks
    refine ⟨hlive.of_links hrunning hlinks hlog, ?_⟩
    rintro (hwaits | ⟨hmet, hdead⟩)
    · exact .inl (hpending.symm.trans hwaits)
    · have hdead : (ctx.step e (.pollTimeout 0)).healthAlive = false := hdead
      have hmet : (met || (ctx.step e (.pollTimeout 0)).healthAlive) = true := hmet
      rw [hdead, Bool.or_false] at hmet
      exact .inr ⟨hmet, halive.symm.trans hdead⟩

theorem flushes (hlive : p.station.Live) (packed : Bytes) :
    (p.station.step e (.flush packed)).Live ∧
      (p.station.step e (.flush packed)).pendingFin = p.station.pendingFin ∧
      (p.station.step e (.flush packed)).alive e = p.station.alive e := by
  obtain ⟨station, draft, outbox, sent, closing, greeted, met⟩ := p
  cases station with
  | udp slot => exact hlive.elim
  | peers client ctx => exact hlive.elim
  | tcp ctx =>
    have hlive : ctx.Live := hlive
    simp only [Station.step, Slot.flushPackedTcp, if_true]
    split
    · exact ⟨hlive, rfl, rfl⟩
    · exact ⟨⟨hlive.running, hlive.fds, hlive.ping, hlive.up,
        (emit_undelivered (v := ctx.toSlot.view e) rfl).trans hlive.kept⟩, rfl, rfl⟩

theorem ping_calm (h : p.Sound e mine theirs) (haead : e.Aead er) (hlive : p.station.Live)
    {seqNum : UInt32} {ping wire : Packet} (hping : p.ping e seqNum = some (ping, wire)) :
    ∀ plain, Packet.receive er wire.wire = some plain →
      CalmState (plain.payload.getD 0 PING_STATE_UNDEFINED) := by
  intro plain hplain
  rw [h.ping_received haead hping] at hplain
  obtain rfl := Option.some.inj hplain
  obtain ⟨slot, states, -, hstates, rfl, -⟩ := ping_spec hping
  obtain ⟨station, draft, outbox, sent, closing, greeted, met⟩ := p
  cases station with
  | udp slot => exact hlive.elim
  | peers client ctx => exact hlive.elim
  | tcp ctx =>
    have hlive : ctx.Live := hlive
    obtain ⟨htcp, -⟩ := h.fits
    obtain rfl := Option.some.inj hstates
    change CalmState ((ctx.toSlot.healthStates e).getD 0 PING_STATE_UNDEFINED)
    unfold Slot.healthStates
    rw [if_pos (.inl htcp)]
    exact hlive.ping

end

end Party

namespace Handshake

-- No PING is so late that a receive thread gives its path up.
def Punctual (e : Bool → Env) (s : Handshake) : Input → Prop
  | .poll b => ¬ (s.party b).station.Overdue (e b)
  | _ => True

instance (e : Bool → Env) (s : Handshake) : ∀ input, Decidable (s.Punctual e input)
  | .poll b => inferInstanceAs (Decidable (¬ (s.party b).station.Overdue (e b)))
  | .draft _ | .ping .. | .data .. | .resend .. | .close _ | .deliver .. | .answer ..
  | .stranger .. => .isTrue trivial

-- If the packet is read as a PING, it does not report the path as broken.
def Calm (er : Env) (pkt : Packet) : Prop :=
  ∀ plain, Packet.receive er pkt.wire = some plain → plain.has FLAG_PING = true →
    CalmState (plain.payload.getD 0 PING_STATE_UNDEFINED)

-- Both ends of a TCP service before and after a close: nothing was dropped, and an end that has
-- parted gets no more DATA.
structure Settled (e : Bool → Env) (s : Handshake) : Prop where
  live : ∀ b, (s.party b).station.Live
  calm : ∀ b, ∀ pkt ∈ (s.party b).outbox, Calm (e !b) pkt
  ends : ∀ b, Fifo.Ends (fun pkt => pkt.has FLAG_FIN = true) (fun pkt => pkt.has FLAG_DATA = true)
    ((s.party !b).Parted (e !b)) ((s.party b).closing = true) (s.party b).outbox

section

variable {e : Bool → Env} {own : Bool → Option SessionHdr} {s : Handshake} {b : Bool} {p : Party}
  {pkt plain : Packet} {source : Endpoint}

theorem Settled.set (h : Settled e s) (hlive : p.station.Live)
    (hcalm : ∀ pkt ∈ p.outbox, Calm (e !b) pkt)
    (hparted : p.Parted (e b) → (s.party b).Parted (e b))
    (hends : Fifo.Ends (fun pkt => pkt.has FLAG_FIN = true) (fun pkt => pkt.has FLAG_DATA = true)
      ((s.party !b).Parted (e !b)) (p.closing = true) p.outbox) : Settled e (s.set b p) where
  live := by
    refine both b ?_ ?_
    · rw [set_self]
      exact hlive
    · rw [set_other]
      exact h.live !b
  calm := by
    refine both b ?_ ?_
    · rw [set_self]
      exact hcalm
    · rw [set_other]
      exact h.calm !b
  ends := by
    refine both b ?_ ?_
    · rw [set_self, set_other]
      exact hends
    · have hback := h.ends !b
      rw [Bool.not_not] at hback ⊢
      rw [set_self, set_other]
      exact hback.mono hparted id

theorem Settled.move (h : Settled e s) {input : Station.Input}
    (hlive : ((s.party b).moved (e b) input).station.Live)
    (hparted : ((s.party b).moved (e b) input).Parted (e b) → (s.party b).Parted (e b)) :
    Settled e (s.move e b input) :=
  h.set hlive (h.calm b) hparted (h.ends b)

theorem calm_append {pkts : List Packet} (h : ∀ pkt ∈ pkts, Calm (e b) pkt)
    (hpkt : Calm (e b) pkt) : ∀ pkt' ∈ pkts ++ [pkt], Calm (e b) pkt' := by
  intro pkt' hmem
  rcases List.mem_append.mp hmem with hold | hnew
  · exact h pkt' hold
  · rw [List.mem_singleton.mp hnew]
    exact hpkt

theorem Calm.of_not_ping (h : pkt.has FLAG_PING = false) : Calm (e b) pkt := by
  intro plain hplain hping
  rw [(Packet.receive_sameHeader hplain).has FLAG_PING (by decide), h] at hping
  cases hping

theorem heard_self (s : Handshake) (b : Bool) (source : Endpoint) (pkt : Packet) :
    ((s.heard e b source pkt).party b).outbox = (s.party b).outbox ∧
      ((s.heard e b source pkt).party b).closing = (s.party b).closing := by
  unfold heard
  split
  · exact ⟨rfl, rfl⟩
  · unfold Handshake.move
    rw [set_self]
    exact ⟨rfl, rfl⟩

theorem Settled.deliver (hinv : Inv e own s) (h : Settled e s) :
    Settled e (s.step e (.deliver b source)) := by
  cases hnext : (s.party !b).outbox with
  | nil =>
    have hsame : s.step e (.deliver b source) = s := by simp only [step, hnext]
    rw [hsame]
    exact h
  | cons pkt rest =>
    have hmem : pkt ∈ (s.party !b).outbox := hnext ▸ List.mem_cons_self
    have hends := h.ends !b
    rw [Bool.not_not, hnext] at hends
    have hsame := heard_self (e := e) s b source pkt
    have hheard : ((s.heard e b source pkt).party b).station.Live ∧
        (((s.heard e b source pkt).party b).Parted (e b) →
          (s.party b).Parted (e b) ∨ pkt.has FLAG_FIN = true) := by
      unfold heard
      split
      · exact ⟨h.live b, .inl⟩
      · rename_i plain hplain
        have hhas := (Packet.receive_sameHeader hplain).has
        unfold Handshake.move
        rw [set_self, ← hhas FLAG_FIN (by decide)]
        have hcalm := h.calm (!b) pkt hmem
        rw [Bool.not_not] at hcalm
        refine Party.hears source (hinv.sound b) (h.live b) (hcalm plain hplain) fun hdata => ?_
        refine ⟨?_, fun hparted => ?_⟩
        · by_contra hmet
          have hnot : ¬ (s.party b).Ready := by
            rintro (hyes | hdeaf)
            · exact hmet hyes
            · exact (h.live b).not_deaf hdeaf
          exact absurd (hdata.symm.trans (hinv.next_quiet hnext hnot hplain)) Bool.noConfusion
        · rw [hhas FLAG_DATA (by decide)] at hdata
          exact hends.after hparted pkt List.mem_cons_self hdata
    rw [step_deliver hnext]
    refine ⟨both b ?_ ?_, both b ?_ ?_, both b ?_ ?_⟩
    · rw [set_not]
      exact hheard.1
    · rw [set_self]
      exact h.live !b
    · rw [set_not, hsame.1]
      exact h.calm b
    · rw [set_self]
      intro pkt' hpkt'
      refine h.calm (!b) pkt' ?_
      rw [hnext]
      exact List.mem_cons_of_mem _ hpkt'
    · rw [set_not, set_self, hsame.1, hsame.2]
      exact h.ends b
    · rw [Bool.not_not, set_self, set_not]
      exact hends.take hheard.2

theorem Settled.step (htcp : ∀ b, (e b).type.isTcpType = true) (haead : ∀ b, (e b).Aead (e !b))
    (hinv : Inv e own s) (h : Settled e s) {input : Input} (hpunctual : s.Punctual e input) :
    Settled e (s.step e input) := by
  cases input with
  | draft b => exact h.set (h.live b) (h.calm b) id (h.ends b)
  | ping b seqNum =>
    simp only [Handshake.step]
    split
    · exact h
    · rename_i ping wire hping
      have hcalm : Calm (e !b) wire := fun plain hplain _ =>
        Party.ping_calm (hinv.sound b) (haead b) (h.live b) hping plain hplain
      refine h.set (h.live b) (calm_append (h.calm b) hcalm) id
        ((h.ends b).put (fun hdata => ?_) fun hsaid => hsaid.resolve_right fun hfin => ?_)
      · rw [Party.ping_has hping (by decide)] at hdata
        exact absurd hdata (by decide)
      · rw [Party.ping_has hping (by decide)] at hfin
        exact absurd hfin (by decide)
  | data b packed =>
    simp only [Handshake.step]
    split
    · rename_i hopen
      split
      · exact h
      · rename_i outer houter
        have hclosing : ¬ (s.party b).closing = true := by
          simpa using (Bool.and_eq_true_iff.mp hopen).2
        obtain ⟨hdata, -⟩ := Station.container_isData houter
        obtain ⟨hlive, hpending, halive⟩ := Party.flushes (e := e b) (h.live b) packed
        refine h.set hlive (calm_append (h.calm b) (.of_not_ping hdata.ping)) ?_
          ((h.ends b).put (fun _ => hclosing) fun hsaid => hsaid.resolve_right fun hfin => ?_)
        · rintro (hwaits | ⟨hmet, hdead⟩)
          · exact .inl (hpending.symm.trans hwaits)
          · exact .inr ⟨hmet, halive.symm.trans hdead⟩
        · exact absurd (hfin.symm.trans hdata.fin) Bool.noConfusion
    · exact h
  | resend b n =>
    simp only [Handshake.step]
    rw [if_pos (htcp b)]
    exact h
  | close b =>
    simp only [Handshake.step]
    split
    · exact h.set (h.live b) (h.calm b) id ((h.ends b).mono id fun _ => rfl)
    · rename_i fin hfin
      obtain ⟨-, hdata, hping⟩ := Party.fin_has hfin
      exact h.set (h.live b) (calm_append (h.calm b) (.of_not_ping hping)) id
        ((h.ends b).put (fun hkind => absurd (hkind.symm.trans hdata) Bool.noConfusion)
          fun _ => rfl)
  | deliver b source => exact h.deliver hinv
  | answer b source pkt =>
    simp only [Handshake.step]
    split
    · rename_i hanswer
      obtain ⟨hdata, hping, hfin⟩ := Packet.isAnswer_iff.mp (Bool.and_eq_true_iff.mp hanswer).1
      obtain ⟨hlive, hparted⟩ := Party.hears source (hinv.sound b) (h.live b)
        (fun hkind => absurd (hkind.symm.trans hping) Bool.noConfusion)
        (fun hkind => absurd (hkind.symm.trans hdata) Bool.noConfusion)
      exact h.move hlive fun hover => (hparted hover).resolve_right fun hkind =>
        absurd (hkind.symm.trans hfin) Bool.noConfusion
    · exact h
  | stranger b source pkt =>
    simp only [Handshake.step]
    rw [if_pos ((h.live b).concerns pkt)]
    exact h
  | poll b =>
    obtain ⟨hlive, hparted⟩ := Party.waits (h.live b) hpunctual
    exact h.move hlive hparted

end

end Handshake

namespace TcpCtx

-- A service with its first connection, once the threads of the connection run.
def linked (e : Env) (ctx : TcpCtx) (accepted : Option SessionHdr) : TcpCtx :=
  { (publish e { ctx.resetConnectionState with tcpAcceptedSession := accepted } 0) with
    pathPingState := Function.update ctx.pathPingState 0 PING_STATE_UNDEFINED
    running := Function.update ctx.running 0 true }

variable {e : Env} {sessionId : UInt32} {sessionTs : Timespec} {destAddr : Path → Endpoint}

theorem connect_linked (hrole : e.role = .sender) :
    (opened e sessionId sessionTs destAddr).run e [.connect 0, .start 0] =
      (opened e sessionId sessionTs destAddr).linked e none := by
  simp only [run, List.foldl_cons, List.foldl_nil, step, hrole, if_true]
  rfl

theorem accept_linked (hrole : e.role = .receiver) (first : Packet) :
    (opened e sessionId sessionTs destAddr).run e [.accept 0 first, .start 0] =
      (opened e sessionId sessionTs destAddr).linked e (some first.session) := by
  have hothers : (opened e sessionId sessionTs destAddr).closeOthers e 0 =
      opened e sessionId sessionTs destAddr := by
    have hidle : ∀ k, (opened e sessionId sessionTs destAddr).tcpConnFd k = false := fun _ => rfl
    unfold closeOthers
    rw [List.filter_eq_nil_iff.mpr fun k _ => by simp [hidle]]
    rfl
  simp only [run, List.foldl_cons, List.foldl_nil, step, hrole, if_true, receiverAccept,
    show (opened e sessionId sessionTs destAddr).sessionCompare e first = .new from rfl, hothers]
  rfl

theorem linked_fits (htcp : e.type.isTcpType = true) (accepted : Option SessionHdr) :
    (Station.tcp ((opened e sessionId sessionTs destAddr).linked e accepted)).Fits e := by
  have hok := Slot.opened_ok (e := e) sessionId sessionTs destAddr
  exact ⟨htcp, ⟨rfl, ⟨hok.inv.kind, hok.inv.wf, hok.inv.size, hok.inv.timer⟩, hok.head⟩, rfl,
    fun _ => rfl⟩

theorem linked_live (accepted : Option SessionHdr) :
    ((opened e sessionId sessionTs destAddr).linked e accepted).Live where
  running := rfl
  fds k := by
    change Function.update (fun _ => false) 0 true k = true ↔ k = 0
    simp [Function.update_apply]
  ping := .inl rfl
  up halive := absurd halive Bool.noConfusion
  kept := rfl

end TcpCtx

def Act.finAck : Act → Option UInt32
  | .sendTcp pkt => if pkt.has FLAG_FIN_ACK then some pkt.ackNum else none
  | _ => none

-- The targets of the FIN_ACKs an end has sent.
def finAcks (log : List (UInt32 × Act)) : List UInt32 := log.filterMap fun x => x.2.finAck

namespace Handshake

-- The two ends of a service before either has heard the other.
inductive Opens (e : Bool → Env) (stations : Bool → Station) : Prop where
  | udp (sessionId : Bool → UInt32) (sessionTs : Bool → Timespec)
      (destAddr : Bool → Path → Endpoint) (htype : ∀ b, (e b).type = .unicastBidir)
      (hopened : ∀ b, stations b =
        .udp (Slot.opened (e b) (sessionId b) (sessionTs b) (destAddr b)))
  | peers (c : Bool) (sessionId : UInt32) (sessionTs : Timespec) (destAddr : Path → Endpoint)
      (htype : (e c).type = .unicastBidir) (hmulti : (e !c).type = .unicastBidirN1)
      (hclient : stations c = .udp (Slot.opened (e c) sessionId sessionTs destAddr))
      (hserver : stations (!c) =
        .peers ((Slot.opened (e c) sessionId sessionTs destAddr).ownSessionHdr (e c))
          (Ctx.opened (e !c)))
  | tcp (c : Bool) (sessionId : Bool → UInt32) (sessionTs : Bool → Timespec)
      (destAddr : Bool → Path → Endpoint) (first : Packet)
      (htype : ∀ b, (e b).type.isTcpType = true)
      (hrole : (e c).role = .sender ∧ (e !c).role = .receiver)
      (hfirst : first.session =
        (Slot.opened (e c) (sessionId c) (sessionTs c) (destAddr c)).ownSession (e c))
      (hsender : stations c =
        .tcp ((TcpCtx.opened (e c) (sessionId c) (sessionTs c) (destAddr c)).run (e c)
          [.connect 0, .start 0]))
      (hreceiver : stations (!c) =
        .tcp ((TcpCtx.opened (e !c) (sessionId !c) (sessionTs !c) (destAddr !c)).run (e !c)
          [.accept 0 first, .start 0]))

section

variable {e : Bool → Env} {stations : Bool → Station}

theorem inv_opened
    (hfits : ∀ b, (stations b).Fits (e b))
    (hknows : ∀ b, ∀ session ∈ (stations !b).own (e !b), (stations b).Knows (e b) session)
    (hvacant : ∀ b, (stations b).Vacant (e b)) :
    Inv e (fun b => (stations b).own (e b)) (opened stations) where
  sound b := ⟨hfits b, rfl, hknows b, by simp [opened, Party.opened],
    by simp [opened, Party.opened], by simp [opened, Party.opened], fun _ => rfl,
    fun _ => hvacant b⟩
  greets b := .of_none (by simp [opened, Party.opened]) (by simp [opened, Party.opened])

theorem Opens.inv (h : Opens e stations) :
    Inv e (fun b => (stations b).own (e b)) (opened stations) ∧
      ∀ b, (stations b).own (e b) = none → (stations !b).own (e !b) ≠ none := by
  cases h with
  | udp sessionId sessionTs destAddr htype hopened =>
    refine ⟨inv_opened (fun b => ?_) (fun b session _ => ?_) fun b => ?_, fun b hnone => ?_⟩
    · rw [hopened]
      exact ⟨htype b, rfl, Slot.opened_ok _ _ _⟩
    · rw [hopened]
      exact fun hknown => absurd hknown Bool.noConfusion
    · rw [hopened]
      exact fun _ => rfl
    · rw [hopened] at hnone
      cases hnone
  | peers c sessionId sessionTs destAddr htype hmulti hclient hserver =>
    refine ⟨inv_opened (both c ?_ ?_) (both c ?_ ?_) (both c ?_ ?_), both c ?_ ?_⟩
    · rw [hclient]
      exact ⟨htype, rfl, Slot.opened_ok _ _ _⟩
    · rw [hserver]
      exact ⟨hmulti, Ctx.opened_table⟩
    · rw [hclient]
      exact fun _ _ hknown => absurd hknown Bool.noConfusion
    · rw [Bool.not_not, hclient, hserver]
      exact fun session hsession => Option.some.inj hsession
    · rw [hclient]
      exact fun _ => rfl
    · rw [hserver]
      exact fun _ _ hactive => absurd hactive Bool.noConfusion
    · rw [hclient]
      exact fun hnone => by cases hnone
    · rw [Bool.not_not, hclient]
      exact fun _ hnone => by cases hnone
  | tcp c sessionId sessionTs destAddr first htype hrole hfirst hsender hreceiver =>
    rw [TcpCtx.connect_linked hrole.1] at hsender
    rw [TcpCtx.accept_linked hrole.2] at hreceiver
    refine ⟨inv_opened (both c ?_ ?_) (both c ?_ ?_) (both c ?_ ?_), both c ?_ ?_⟩
    · rw [hsender]
      exact TcpCtx.linked_fits (htype c) _
    · rw [hreceiver]
      exact TcpCtx.linked_fits (htype !c) _
    · rw [hsender]
      exact fun _ _ accepted haccepted => by cases haccepted
    · rw [Bool.not_not, hsender, hreceiver]
      intro session hsession accepted haccepted
      obtain rfl := Option.some.inj hsession
      obtain rfl := Option.some.inj haccepted
      exact hfirst
    · rw [hsender]
      exact fun _ => rfl
    · rw [hreceiver]
      exact fun _ => rfl
    · rw [hsender]
      exact fun hnone => by cases hnone
    · rw [hreceiver]
      exact fun hnone => by cases hnone

theorem Opens.settled (h : Opens e stations) (htcp : ∀ b, (e b).type.isTcpType = true) :
    Settled e (opened stations) := by
  cases h with
  | udp sessionId sessionTs destAddr htype hopened =>
    have hno := htcp true
    rw [htype] at hno
    cases hno
  | peers c sessionId sessionTs destAddr htype hmulti hclient hserver =>
    have hno := htcp c
    rw [htype] at hno
    cases hno
  | tcp c sessionId sessionTs destAddr first htype hrole hfirst hsender hreceiver =>
    rw [TcpCtx.connect_linked hrole.1] at hsender
    rw [TcpCtx.accept_linked hrole.2] at hreceiver
    have hlive : ∀ b, ∃ ctx : TcpCtx, stations b = .tcp ctx ∧ ctx.Live ∧ ctx.pendingFin = false :=
      both c ⟨_, hsender, TcpCtx.linked_live _, rfl⟩ ⟨_, hreceiver, TcpCtx.linked_live _, rfl⟩
    refine ⟨fun b => ?_, by simp [opened, Party.opened], fun b => .nil ?_⟩
    · obtain ⟨ctx, hctx, hstays, -⟩ := hlive b
      change (stations b).Live
      rw [hctx]
      exact hstays
    · obtain ⟨ctx, hctx, -, hopen⟩ := hlive !b
      rintro (hpending | ⟨hmet, -⟩)
      · change (stations !b).pendingFin = true at hpending
        rw [hctx] at hpending
        exact absurd (hpending.symm.trans hopen) Bool.noConfusion
      · exact absurd hmet Bool.noConfusion

-- Where each end greets before it sends DATA, no DATA comes to an end before that end is connected.
-- Over TCP nothing is then dropped at all, as long as no PING is late.
theorem connected_data_accepted (hlex : ∀ b, (e b).plat.CmpLex) (haead : ∀ b, (e b).Aead (e !b))
    (hpath : ∀ b, (e b).nPath = 1) (hopens : Opens e stations) {inputs : List Input}
    (hmeets : Run.Meets (step e) (InStep e) (opened stations) inputs) :
    (∀ b source, (((opened stations).run e inputs).party b).met = false →
      undelivered
          ((((opened stations).run e inputs).step e (.deliver b source)).party b).station.log =
        undelivered (((opened stations).run e inputs).party b).station.log) ∧
    ((∀ b, (e b).type.isTcpType = true) →
      Run.Meets (step e) (Punctual e) (opened stations) inputs →
        ∀ b, undelivered (((opened stations).run e inputs).party b).station.log = []) := by
  obtain ⟨hinv, hpair⟩ := hopens.inv
  have hpos : ∀ b, 0 < (e b).nPath := fun b => by rw [hpath b]; decide
  refine ⟨fun b source hmet => ?_, fun htcp hpunctual b => ?_⟩
  · have hlast : Inv e (fun b => (stations b).own (e b)) ((opened stations).run e inputs) :=
      hmeets.preserves (fun _ _ hstep h => h.step hlex haead hpos hpair hstep) hinv
    exact hlast.deliver_undelivered hlex hpair hmet source
  · obtain ⟨-, hlast⟩ := (hmeets.and hpunctual).preserves
      (P := fun s => Inv e (fun b => (stations b).own (e b)) s ∧ Settled e s)
      (fun _ _ hstep h => ⟨h.1.step hlex haead hpos hpair hstep.1,
        h.2.step htcp haead h.1 hstep.2⟩) ⟨hinv, hopens.settled htcp⟩
    exact (hlast.live b).kept

end

def sampleEnv (type : PotrType) (b : Bool) : Env where
  toConfig :=
    { (if b then Config.sample type else Config.sampleSender type) with
      nPath := 1
      healthIntervalMs := 1000
      healthTimeoutMs := 5000 }
  accepted := by cases type <;> cases b <;> rfl
  plat := Cplat.reference

-- A UNICAST_BIDIR client and an N:1 server.
def samplePeersEnv (b : Bool) : Env :=
  if b then sampleEnv .unicastBidirN1 true else sampleEnv .unicastBidir false

def sampleClient (e : Env) : Slot := Slot.opened e 5 ⟨9, 0⟩ fun _ => .target

def sampleUdp (b : Bool) : Station :=
  .udp (if b then .sample (sampleEnv .unicastBidir true)
    else sampleClient (sampleEnv .unicastBidir false))

def samplePeers (b : Bool) : Station :=
  if b then .peers Packet.sampleSession (.opened (samplePeersEnv true))
  else .udp (sampleClient (samplePeersEnv false))

def sampleFirst : Packet := Packet.buildPing Packet.sampleSession 0 [0, 0, 0, 0]

def sampleTcp (b : Bool) : Station :=
  .tcp <| if b then
      (TcpCtx.opened (sampleEnv .tcpBidir true) 3 ⟨2, 0⟩ fun _ => .target).run
        (sampleEnv .tcpBidir true) [.accept 0 sampleFirst, .start 0]
    else
      (TcpCtx.opened (sampleEnv .tcpBidir false) 5 ⟨9, 0⟩ fun _ => .target).run
        (sampleEnv .tcpBidir false) [.connect 0, .start 0]

-- The second end answers the first PING of the first end.
def sampleGreeting : List Input :=
  [.draft false, .ping false 0, .deliver true .source,
    .draft true, .ping true 0, .deliver false .target]

def sampleElem : Bytes := Elem.encode ⟨0, [1]⟩

-- The first end sends DATA, and only then its next PING. Then it closes.
def sampleEarly : List Input := [.data false sampleElem, .deliver true .source]

def sampleClose : List Input :=
  [.draft false, .ping false 1, .deliver true .source, .close false,
    .deliver true .source]

-- The first end sends its next PING before the DATA.
def sampleInStep : List Input :=
  sampleGreeting ++ [.draft false, .ping false 0, .data false sampleElem,
    .deliver true .source, .poll true, .deliver true .source, .close false,
    .deliver true .source]

theorem sampleEnv_aead (b : Bool) : (sampleEnv .tcpBidir b).Aead (sampleEnv .tcpBidir !b) := by
  cases b
  all_goals
    refine ⟨rfl, by decide, rfl, fun hon => ?_, fun hon => ?_⟩
    all_goals exact absurd hon (by decide)

theorem sampleTcp_opens : Opens (sampleEnv .tcpBidir) sampleTcp :=
  .tcp false (fun b => if b then 3 else 5) (fun b => if b then ⟨2, 0⟩ else ⟨9, 0⟩)
    (fun _ _ => .target) sampleFirst (by decide) (by decide)
    (by decide) rfl rfl

def sampleLog (inputs : List Input) : List (UInt32 × Act) :=
  (((opened sampleTcp).run (sampleEnv .tcpBidir) inputs).party true).station.log

theorem connected_data_accepted_sample :
    Opens (sampleEnv .tcpBidir) sampleTcp ∧
      Run.Meets (step (sampleEnv .tcpBidir)) (InStep (sampleEnv .tcpBidir)) (opened sampleTcp)
        sampleInStep ∧
      Run.Meets (step (sampleEnv .tcpBidir)) (Punctual (sampleEnv .tcpBidir)) (opened sampleTcp)
        sampleInStep ∧
      delivered (sampleLog sampleInStep) = [[1]] ∧ finAcks (sampleLog sampleInStep) = [1] ∧
      undelivered (sampleLog sampleInStep) = [] := by
  have hmeets : Run.Meets (step (sampleEnv .tcpBidir)) (InStep (sampleEnv .tcpBidir))
      (opened sampleTcp) sampleInStep := by decide +kernel
  have hpunctual : Run.Meets (step (sampleEnv .tcpBidir)) (Punctual (sampleEnv .tcpBidir))
      (opened sampleTcp) sampleInStep := by decide +kernel
  refine ⟨sampleTcp_opens, hmeets, hpunctual, by decide +kernel, by decide +kernel, ?_⟩
  refine (connected_data_accepted (fun b => ?_) sampleEnv_aead (by decide) sampleTcp_opens
    hmeets).2 (by decide) hpunctual true
  cases b <;> exact Cplat.reference_cmpLex

-- An end is connected as soon as the other end hears it. Its DATA may overtake the PING by which
-- it says that it hears the other end, and is dropped there. Over TCP a FIN_ACK still covers it.
def DropsEarly (e : Bool → Env) (stations : Bool → Station) : Prop :=
  Event.connectedAfter false
      (eventsOf PEER_NA (((opened stations).run e sampleGreeting).party false).station.log) = true ∧
    (((opened stations).run e (sampleGreeting ++ sampleEarly)).party true).met = false ∧
    (undelivered (((opened stations).run e
      (sampleGreeting ++ sampleEarly)).party true).station.log).map Packet.seqNum = [0]

instance (e : Bool → Env) (stations : Bool → Station) : Decidable (DropsEarly e stations) :=
  inferInstanceAs (Decidable (_ ∧ _ ∧ _))

theorem connected_data_dropped :
    DropsEarly (sampleEnv .unicastBidir) sampleUdp ∧ DropsEarly samplePeersEnv samplePeers ∧
      Opens (sampleEnv .tcpBidir) sampleTcp ∧ DropsEarly (sampleEnv .tcpBidir) sampleTcp ∧
      finAcks (sampleLog (sampleGreeting ++ sampleEarly ++ sampleClose)) = [1] ∧
      delivered (sampleLog (sampleGreeting ++ sampleEarly ++ sampleClose)) = [] :=
  ⟨by decide +kernel, by decide +kernel, sampleTcp_opens, by decide +kernel, by decide +kernel,
    by decide +kernel⟩

end Handshake

end Porter
