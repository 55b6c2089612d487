import Porter.Connection.Events
import Porter.Connection.Paths
import Porter.Platform
import Porter.Recv.Connect

namespace Porter

-- A TCP service under observation. Of every path it is noted whether a PING has arrived on it, and
-- whether some PING has reported it NORMAL, since its current connection was registered.
structure WatchedService extends TcpService where
  heard : Path → Bool
  confirmed : Path → Bool

namespace TcpService

def pingOf (e : Env) (s : TcpService) : Input → Option (Path × Packet)
  | .packet path pkt =>
      if s.thread path && s.toTcpCtx.hears e path pkt then some (path, pkt) else none
  | _ => none

end TcpService

-- The payload of the PING reports path `k` NORMAL.
def Packet.reports (pkt : Packet) (k : Path) : Bool :=
  MAX_PATH ≤ pkt.payload.length && pkt.payload.getD k.val PING_STATE_UNDEFINED = PING_STATE_NORMAL

namespace WatchedService

def opened (e : Env) (sessionId : UInt32) (sessionTs : Timespec) (destAddr : Path → Endpoint) :
    WatchedService where
  toTcpService := TcpService.opened e sessionId sessionTs destAddr
  heard := fun _ => false
  confirmed := fun _ => false

def step (e : Env) (w : WatchedService) (input : TcpService.Input) : WatchedService where
  toTcpService := w.toTcpService.step e input
  heard k := if w.registers e input = some k then false
    else w.heard k || (w.pingOf e input).any fun ping => ping.1 = k
  confirmed k := if w.registers e input = some k then false
    else w.confirmed k || (w.pingOf e input).any fun ping => ping.2.reports k

def run (e : Env) (w : WatchedService) (inputs : List TcpService.Input) : WatchedService :=
  inputs.foldl (step e) w

-- A connection is registered on a path of which neither end says NORMAL any more.
def Forgotten (e : Env) (w : WatchedService) (input : TcpService.Input) : Prop :=
  ∀ k, w.registers e input = some k →
    w.pathPingState k ≠ PING_STATE_NORMAL ∧ w.remotePathPingState k ≠ PING_STATE_NORMAL

instance (e : Env) (w : WatchedService) (input : TcpService.Input) :
    Decidable (w.Forgotten e input) :=
  inferInstanceAs (Decidable (∀ k, w.registers e input = some k → _ ∧ _))

-- What the states of a path with a connection say comes from that connection.
structure Fresh (w : WatchedService) : Prop where
  peer : w.peer = none
  heard : ∀ k, w.tcpConnFd k = true → w.pathPingState k = PING_STATE_NORMAL → w.heard k = true
  confirmed : ∀ k, w.tcpConnFd k = true → w.remotePathPingState k = PING_STATE_NORMAL →
    w.confirmed k = true

end WatchedService

-- What one step can do to the paths: only a registration opens a connection, and only a PING makes
-- a path NORMAL, at this end or at the other.
structure TcpService.Surveys (e : Env) (s : TcpService) (input : TcpService.Input) (ctx : TcpCtx) :
    Prop where
  peer : ctx.peer = none
  announces : s.toSlot.Announces (fun k => ctx.tcpConnFd k = true ∧
    ctx.pathPingState k = PING_STATE_NORMAL ∧ ctx.remotePathPingState k = PING_STATE_NORMAL) ctx.toSlot
  fd : ∀ k, ctx.tcpConnFd k = true → s.tcpConnFd k = true ∨ s.registers e input = some k
  ping : ∀ k, ctx.pathPingState k = PING_STATE_NORMAL →
    s.pathPingState k = PING_STATE_NORMAL ∨ ∃ pkt, s.pingOf e input = some (k, pkt)
  remote : ∀ k, ctx.remotePathPingState k = PING_STATE_NORMAL →
    s.remotePathPingState k = PING_STATE_NORMAL ∨
      ∃ path pkt, s.pingOf e input = some (path, pkt) ∧ pkt.reports k = true

namespace TcpService

section

variable {e : Env} {s : TcpService} {input : Input} {ctx : TcpCtx} {path : Path} {pkt : Packet}

theorem update_normal {states : Path → UInt8} {state : UInt8} (hstate : state ≠ PING_STATE_NORMAL)
    {k : Path} (h : Function.update states path state k = PING_STATE_NORMAL) :
    states k = PING_STATE_NORMAL := by
  by_cases heq : k = path
  · rw [heq, Function.update_self] at h
    exact absurd h hstate
  · rwa [Function.update_of_ne heq] at h

theorem Surveys.of_log (hpeer : s.peer = none) (hsame : ctx.peer = s.peer) (hlog : ctx.log = s.log)
    (hfd : ∀ k, ctx.tcpConnFd k = true → s.tcpConnFd k = true ∨ s.registers e input = some k)
    (hping : ∀ k, ctx.pathPingState k = PING_STATE_NORMAL → s.pathPingState k = PING_STATE_NORMAL)
    (hremote : ∀ k, ctx.remotePathPingState k = PING_STATE_NORMAL →
      s.remotePathPingState k = PING_STATE_NORMAL) : s.Surveys e input ctx where
  peer := hsame.trans hpeer
  announces := (Slot.Silent.of_log hlog).announces
  fd := hfd
  ping k hk := .inl (hping k hk)
  remote k hk := .inl (hremote k hk)

theorem Surveys.of_kept (hpeer : s.peer = none) (hkept : s.toTcpCtx.Kept ctx)
    (hfd : ∀ k, ctx.tcpConnFd k = true → s.tcpConnFd k = true ∨ s.registers e input = some k) :
    s.Surveys e input ctx :=
  .of_log hpeer (congrArg Conn.peer hkept.conn) hkept.log hfd (fun _ hk => by rwa [hkept.ping] at hk)
    hkept.remote

theorem Surveys.aside (hpeer : s.peer = none) (h : Slot.Aside e s.toSlot ctx.toSlot) :
    s.Surveys e input ctx where
  peer := h.turns.peer_eq.trans hpeer
  announces := h.announces.mono fun _ hk => hk.elim
  fd k hk := .inl (by rwa [h.fd] at hk)
  ping k hk := by
    rcases h.paths with ⟨hping, -⟩ | ⟨hping, -⟩
    · rw [hping] at hk
      exact .inl hk
    · rw [hping] at hk
      exact absurd hk undefined_ne_normal
  remote k hk := by
    rcases h.paths with ⟨-, hremote, -⟩ | ⟨-, hremote, -⟩
    · rw [hremote] at hk
      exact .inl hk
    · rw [hremote] at hk
      exact absurd hk undefined_ne_normal

theorem Surveys.resync (hpeer : s.peer = none) {slot : Slot} {ping remote : Path → UInt8}
    (hbeside : s.toSlot.Beside slot) (h : Slot.Resync e slot ctx.toSlot ping remote)
    (hping : ∀ k, ping k = PING_STATE_NORMAL →
      s.pathPingState k = PING_STATE_NORMAL ∨ ∃ pkt, s.pingOf e input = some (k, pkt))
    (hremote : ∀ k, remote k = PING_STATE_NORMAL → s.remotePathPingState k = PING_STATE_NORMAL ∨
      ∃ path pkt, s.pingOf e input = some (path, pkt) ∧ pkt.reports k = true) :
    s.Surveys e input ctx where
  peer := h.turns.peer_eq.trans (hbeside.peer.trans hpeer)
  announces := by
    refine hbeside.silent.announces.trans hbeside.peer (h.announces.mono fun k hk => ?_)
    rw [h.own, h.other]
    exact h.states k hk
  fd k hk := by
    have hsame : slot.tcpConnFd = s.tcpConnFd := congrArg Links.tcpConnFd hbeside.links
    rw [h.fd, hsame] at hk
    exact .inl hk
  ping := by
    rw [h.own]
    exact hping
  remote := by
    rw [h.other]
    exact hremote

theorem merged_normal {remote : Path → UInt8} {k : Path}
    (h : TcpCtx.merged remote pkt.payload k = PING_STATE_NORMAL) :
    remote k = PING_STATE_NORMAL ∨ pkt.reports k = true := by
  unfold TcpCtx.merged at h
  unfold Packet.reports
  split at h
  · rename_i hlen
    dsimp only at h
    split at h
    · exact .inr (by rw [h]; simp [hlen])
    · exact .inl h
  · exact .inl h

theorem packet_surveys (htcp : e.type.isTcpType = true) (hpeer : s.peer = none)
    (hthread : s.thread path = true) :
    s.Surveys e (.packet path pkt) (s.toTcpCtx.step e (.packet path pkt)) := by
  rcases TcpCtx.step_packet_paths s.toTcpCtx path pkt hpeer with
    ⟨hhears, heq⟩ | ⟨-, haside, -⟩
  · rw [heq]
    have hof : s.pingOf e (.packet path pkt) = some (path, pkt) := by
      simp [pingOf, hthread, hhears]
    refine .resync hpeer (Slot.emit_beside _ rfl) (TcpCtx.handlePing_resync htcp
      { s.toTcpCtx with toSlot := s.toSlot.emit (.recv pkt) } pkt path hpeer) (fun k hk => ?_)
      fun k hk => ?_
    · by_cases hself : k = path
      · exact .inr ⟨pkt, by rw [hof, hself]⟩
      · rw [Function.update_of_ne hself] at hk
        exact .inl hk
    · exact (merged_normal hk).imp_right fun hreports => ⟨path, pkt, hof, hreports⟩
  · exact .aside hpeer haside

theorem register_surveys (hpeer : s.peer = none)
    (hkept : ∀ k, s.registers e input = some k → s.toTcpCtx.Kept ctx ∧
      ∀ j, ctx.tcpConnFd j = true → s.tcpConnFd j = true ∨ j = k) :
    s.Surveys e input (s.register e input ctx).toTcpCtx := by
  unfold register
  split
  · rename_i k hregisters
    obtain ⟨hkept, hfd⟩ := hkept k hregisters
    exact .of_kept hpeer hkept fun j hj => (hfd j hj).imp_right fun heq => by rw [heq, hregisters]
  · exact .aside hpeer (Slot.Beside.refl _).aside

theorem startThreads_surveys (hpeer : s.peer = none) (outcome : Start) :
    s.Surveys e input (s.startThreads e path outcome).toTcpCtx := by
  cases outcome with
  | sendFailed =>
    simp only [startThreads]
    split <;> exact .aside hpeer (Slot.Beside.refl _).aside
  | recvFailed =>
    exact .of_log hpeer rfl rfl (fun k hk => .inl (TcpCtx.closed_fd hk))
      (fun k hk => update_normal undefined_ne_normal hk) fun k hk => hk
  | started =>
    exact .of_log hpeer rfl rfl (fun k hk => .inl hk)
      (fun k hk => update_normal undefined_ne_normal hk) fun k hk => hk

theorem finish_surveys (hpeer : s.peer = none) (last : Bool) (closes : Prop) [Decidable closes] :
    s.Surveys e input (if closes then
      (if last = true then s.toTcpCtx.step e .resetAll else s.toTcpCtx).step e (.close path)
      else (if last = true then s.toTcpCtx.step e .resetAll else s.toTcpCtx)) := by
  have hreset : ∀ ctx, (ctx = s.toTcpCtx ∨ ctx = s.toTcpCtx.resetAllPathsDisconnected) →
      ctx.peer = s.peer ∧ ctx.log = s.log ∧ ctx.tcpConnFd = s.tcpConnFd ∧
        ctx.pathPingState = s.pathPingState ∧ ∀ k, ctx.remotePathPingState k = PING_STATE_NORMAL →
          s.remotePathPingState k = PING_STATE_NORMAL := by
    rintro ctx (rfl | rfl)
    · exact ⟨rfl, rfl, rfl, rfl, fun k hk => hk⟩
    · unfold TcpCtx.resetAllPathsDisconnected
      split
      · exact ⟨rfl, rfl, rfl, rfl, fun k hk => hk⟩
      · exact ⟨rfl, rfl, rfl, rfl, fun k hk => absurd hk undefined_ne_normal⟩
  have hctx : (if last = true then s.toTcpCtx.step e .resetAll else s.toTcpCtx) = s.toTcpCtx ∨
      (if last = true then s.toTcpCtx.step e .resetAll else s.toTcpCtx) =
        s.toTcpCtx.resetAllPathsDisconnected := by
    cases last with
    | false => exact .inl rfl
    | true => exact .inr rfl
  obtain ⟨hsame, hlog, hfd, hping, hremote⟩ := hreset _ hctx
  split
  · refine .of_log hpeer hsame hlog (fun k hk => .inl ?_) (fun k hk => by rwa [← hping]) hremote
    rw [← hfd]
    exact TcpCtx.closed_fd hk
  · exact .of_log hpeer hsame hlog (fun k hk => .inl (by rwa [← hfd])) (fun k hk => by rwa [← hping])
      hremote

theorem step_surveys (htcp : e.type.isTcpType = true) (hpeer : s.peer = none) (input : Input) :
    s.Surveys e input (s.step e input).toTcpCtx := by
  have hstay : s.Surveys e input s.toTcpCtx := .aside hpeer (Slot.Beside.refl _).aside
  have hclose : ∀ path ctx, s.toTcpCtx.Kept ctx → (∀ k, ctx.tcpConnFd k = true → s.tcpConnFd k = true) →
      s.Surveys e input (ctx.step e (.close path)) := fun path ctx hkept hfd =>
    .of_kept hpeer (hkept.trans (.of_eq rfl rfl rfl rfl)) fun k hk => .inl (hfd k (TcpCtx.closed_fd hk))
  cases input with
  | connect path =>
    refine register_surveys hpeer fun k hk => ?_
    rw [(registers_connect hk).2.2]
    exact ⟨TcpCtx.connect_kept _ k, fun j hj => TcpCtx.connect_fd _ hj⟩
  | accept path pkt =>
    refine register_surveys hpeer fun k hk => ?_
    rw [(registers_accept hk).2.2.2]
    exact ⟨TcpCtx.accept_kept _ k pkt, fun j hj => TcpCtx.accept_fd _ hj⟩
  | start path outcome =>
    simp only [step]
    split
    · exact startThreads_surveys hpeer outcome
    · exact hstay
  | boot path ok =>
    simp only [step]
    split
    · exact hstay
    split
    · exact hstay
    · exact hclose path _ (.of_eq rfl rfl rfl rfl) fun k hk => hk
  | join path =>
    simp only [step]
    split
    · exact hstay
    split
    · exact hclose path _ (.of_eq rfl rfl rfl rfl) fun k hk => hk
    · exact hstay
    · exact hstay
  | leave path =>
    simp only [step]
    split
    · exact .resync hpeer (.refl _) (TcpCtx.leave_resync htcp s.toTcpCtx path hpeer)
        (fun k hk => .inl (update_normal undefined_ne_normal hk)) fun k hk => .inl hk
    · exact hstay
  | release path =>
    simp only [step]
    split
    · exact .of_kept hpeer (.of_eq rfl rfl rfl rfl) fun k hk => .inl hk
    · exact .of_kept hpeer (.of_eq rfl rfl rfl rfl) fun k hk => .inl hk
    · exact hstay
  | finish path =>
    simp only [step]
    split
    · exact finish_surveys hpeer _ _
    · exact hstay
  | packet path pkt =>
    simp only [step]
    split
    · exact packet_surveys htcp hpeer ‹_›
    · exact hstay
  | pollTimeout path =>
    simp only [step]
    split
    · have hpoll : s.toSlot.Beside (s.toSlot.emit .poll) := Slot.emit_beside _ rfl
      obtain ⟨hsync | haside, -⟩ := TcpCtx.checkPingTimeout_paths htcp
        { s.toTcpCtx with toSlot := s.toSlot.emit .poll } path hpeer
      · exact .resync hpeer hpoll hsync (fun k hk => .inl (update_normal (by decide) hk))
          fun k hk => .inl hk
      · exact .aside hpeer (hpoll.aside.trans haside)
    · exact hstay
  | exit path =>
    simp only [step]
    split
    · exact .of_kept hpeer (.of_eq rfl rfl rfl rfl) fun k hk => .inl hk
    · exact hstay
  | close path => exact hclose path _ (.of_eq rfl rfl rfl rfl) fun k hk => hk
  | health path seqNum =>
    simp only [step]
    split
    · split
      · rename_i ping _
        have hsent : s.toSlot.Beside (s.toSlot.emit (.sendTcp ping)) := Slot.emit_beside _ rfl
        exact .aside hpeer hsent.aside
      · exact hstay
    · exact hstay

theorem pingOf_of_registers {k : Path} (h : s.registers e input = some k) :
    s.pingOf e input = none := by
  cases input with
  | connect | accept => rfl
  | start | boot | join | leave | release | finish | packet | pollTimeout | exit | close | health =>
    cases h

end

end TcpService

namespace WatchedService

section

variable {e : Env} {w : WatchedService} {input : TcpService.Input}

theorem step_fresh (htcp : e.type.isTcpType = true) (h : w.Fresh) (hforgot : w.Forgotten e input) :
    (w.step e input).Fresh := by
  have hsurveys := TcpService.step_surveys htcp h.peer input
  refine ⟨hsurveys.peer, fun k hfd hk => ?_, fun k hfd hk => ?_⟩
  · change (if w.registers e input = some k then false
      else w.heard k || (w.pingOf e input).any fun ping => ping.1 = k) = true
    split
    · rename_i hregisters
      rcases hsurveys.ping k hk with hwas | ⟨pkt, hping⟩
      · exact absurd hwas (hforgot k hregisters).1
      · rw [TcpService.pingOf_of_registers hregisters] at hping
        cases hping
    · rename_i hregisters
      rcases hsurveys.ping k hk with hwas | ⟨pkt, hping⟩
      · rw [h.heard k ((hsurveys.fd k hfd).resolve_right hregisters) hwas, Bool.true_or]
      · simp [hping]
  · change (if w.registers e input = some k then false
      else w.confirmed k || (w.pingOf e input).any fun ping => ping.2.reports k) = true
    split
    · rename_i hregisters
      rcases hsurveys.remote k hk with hwas | ⟨path, pkt, hping, -⟩
      · exact absurd hwas (hforgot k hregisters).2
      · rw [TcpService.pingOf_of_registers hregisters] at hping
        cases hping
    · rename_i hregisters
      rcases hsurveys.remote k hk with hwas | ⟨path, pkt, hping, hreports⟩
      · rw [h.confirmed k ((hsurveys.fd k hfd).resolve_right hregisters) hwas, Bool.true_or]
      · simp [hping, hreports]

theorem opened_fresh (sessionId : UInt32) (sessionTs : Timespec) (destAddr : Path → Endpoint) :
    (opened e sessionId sessionTs destAddr).Fresh where
  peer := rfl
  heard _ hk := by cases hk
  confirmed _ hk := by cases hk

theorem step_connects (htcp : e.type.isTcpType = true) (h : w.Fresh)
    (hforgot : w.Forgotten e input) :
    ∃ evs, eventsOf PEER_NA (w.step e input).log = eventsOf PEER_NA w.log ++ evs ∧
      ∀ k states, Event.pathConnected k states ∈ evs →
        (w.step e input).heard k = true ∧ (w.step e input).confirmed k = true := by
  have hnext := step_fresh htcp h hforgot
  obtain ⟨acts, hlog, hacts⟩ := (TcpService.step_surveys htcp h.peer input).announces
  have hid : w.peerId = PEER_NA := congrArg (Option.getD · PEER_NA) h.peer
  refine ⟨acts.filterMap Act.told, ?_, fun k states hmem => ?_⟩
  · change eventsOf PEER_NA (w.toTcpService.step e input).log = _
    rw [hlog, ← hid]
    exact eventsOf_append_own w.peerId w.log acts
  · obtain ⟨act, hact, htold⟩ := List.mem_filterMap.mp hmem
    have hevent : act = .event (.pathConnected k states) := by
      cases act with
      | event ev => exact congrArg Act.event (Option.some.inj htold)
      | recv | poll | adopt | reset | forget | push | pop | skip | nack | send | sendTcp => cases htold
    obtain ⟨hfd, hping, hremote⟩ := hacts k states (hevent ▸ hact)
    exact ⟨hnext.heard k hfd hping, hnext.confirmed k hfd hremote⟩

end

end WatchedService

-- Where no NORMAL of an earlier connection is left when a path gets a new one, the path is told to
-- be connected only after PINGs of this connection have come from it and have reported it.
theorem fresh_confirmation (e : Env) (htcp : e.type.isTcpType = true) (sessionId : UInt32)
    (sessionTs : Timespec) (destAddr : Path → Endpoint) (pre : List TcpService.Input)
    (input : TcpService.Input) (hmeets : Run.Meets (WatchedService.step e)
      (WatchedService.Forgotten e) (WatchedService.opened e sessionId sessionTs destAddr)
      (pre ++ [input])) :
    let w := (WatchedService.opened e sessionId sessionTs destAddr).run e pre
    ∃ evs, eventsOf PEER_NA (w.step e input).log = eventsOf PEER_NA w.log ++ evs ∧
      ∀ k states, Event.pathConnected k states ∈ evs →
        (w.step e input).heard k = true ∧ (w.step e input).confirmed k = true := by
  intro w
  obtain ⟨hpre, hlast, -⟩ := Run.meets_append.mp hmeets
  have hfresh : w.Fresh := hpre.preserves (P := WatchedService.Fresh)
    (fun w input hforgot h => WatchedService.step_fresh htcp h hforgot)
    (WatchedService.opened_fresh sessionId sessionTs destAddr)
  exact WatchedService.step_connects htcp hfresh hlast

theorem fresh_confirmation_sample :
    let e := Env.sample .tcp
    let w := (WatchedService.opened e 3 ⟨2, 0⟩ fun _ => .target).run e
      [.accept 0 (.samplePing 0), .start 0 .started, .boot 0 true]
    (eventsOf PEER_NA (w.step e (.packet 0 (.samplePing 0))).log).filterMap (Event.pathMark 0) =
        [true] ∧
      ∃ evs, eventsOf PEER_NA (w.step e (.packet 0 (.samplePing 0))).log =
          eventsOf PEER_NA w.log ++ evs ∧
        ∀ k states, Event.pathConnected k states ∈ evs →
          (w.step e (.packet 0 (.samplePing 0))).heard k = true ∧
            (w.step e (.packet 0 (.samplePing 0))).confirmed k = true := by
  refine ⟨by decide +kernel, ?_⟩
  exact fresh_confirmation (Env.sample .tcp) rfl 3 ⟨2, 0⟩ (fun _ => .target)
    [.accept 0 (.samplePing 0), .start 0 .started, .boot 0 true] (.packet 0 (.samplePing 0))
    (by decide +kernel)

-- Path 1 is lost and connects again while path 0 stays. The first PING on it, which says nothing
-- of path 1, meets the NORMAL that the other end reported of the lost connection.
theorem stale_confirmation_reused :
    let e := Env.sample .tcp
    let ping (states : Bytes) := Packet.buildPing Packet.sampleSession 0 states
    let w := (WatchedService.opened e 3 ⟨2, 0⟩ fun _ => .target).run e
      [.accept 0 (ping [0, 0, 0, 0]), .start 0 .started, .health 0 0, .boot 0 true,
        .packet 0 (ping [0, 0, 0, 0]),
        .accept 1 (ping [0, 0, 0, 0]), .start 1 .started, .health 1 0, .boot 1 true,
        .packet 1 (ping [0, 0, 0, 0]),
        .packet 0 (ping [PING_STATE_NORMAL, PING_STATE_NORMAL, 0, 0]),
        .exit 1, .join 1, .leave 1, .release 1, .finish 1,
        .accept 1 (ping [PING_STATE_NORMAL, 0, 0, 0]), .start 1 .started, .health 1 0, .boot 1 true]
    let after := w.step e (.packet 1 (ping [PING_STATE_NORMAL, 0, 0, 0]))
    (eventsOf PEER_NA w.log).filterMap (Event.pathMark 1) = [true, false] ∧
      (eventsOf PEER_NA after.log).filterMap (Event.pathMark 1) = [true, false, true] ∧
      after.heard 1 = true ∧ after.confirmed 1 = false := by
  decide +kernel

end Porter
