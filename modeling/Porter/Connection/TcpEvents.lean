import Porter.Connection.Events
import Porter.Connection.Paths
import Porter.Recv.Connect
import Mathlib.Algebra.BigOperators.Fin

namespace Porter

namespace ConnPhase

-- No PING of the path is handled, and what earlier ones said is undone.
def idle : ConnPhase → Bool
  | waiting | published | left | released .. => true
  | starting | serving | aborting | failed | joined => false

-- The receive thread may run.
def attended : ConnPhase → Bool
  | starting | serving | aborting => true
  | waiting | published | failed | joined | left | released .. => false

theorem idle_of_attended {phase : ConnPhase} (h : phase.attended = true) : phase.idle = false := by
  cases phase with
  | starting | serving | aborting => rfl
  | waiting | published | failed | joined | left | released => cases h

theorem idle_of_uncounted {phase : ConnPhase} (h : phase.counted = false) : phase.idle = true := by
  cases phase with
  | waiting | released => rfl
  | published | starting | serving | aborting | failed | joined | left => cases h

-- How many paths tcp_active_paths counts.
def active (phase : Path → ConnPhase) : Nat := ∑ k, (phase k).counted.toNat

theorem active_update (phase : Path → ConnPhase) (path : Path) (next : ConnPhase) :
    active (Function.update phase path next) + (phase path).counted.toNat =
      active phase + next.counted.toNat := by
  unfold active
  have hrest : ∑ k ∈ {path}ᶜ, (Function.update phase path next k).counted.toNat =
      ∑ k ∈ {path}ᶜ, (phase k).counted.toNat :=
    Finset.sum_congr rfl fun k hk => by
      rw [Function.update_of_ne (by simpa using hk)]
  rw [Fintype.sum_eq_add_sum_compl path, Fintype.sum_eq_add_sum_compl path fun k =>
    (phase k).counted.toNat, hrest, Function.update_self]
  omega

theorem uncounted_of_active {phase : Path → ConnPhase} (h : active phase = 0) (k : Path) :
    (phase k).counted = false := by
  have hzero := Finset.sum_eq_zero_iff.mp h k (Finset.mem_univ k)
  simpa using hzero

theorem active_pos {phase : Path → ConnPhase} {path : Path} (h : (phase path).counted = true) :
    0 < active phase := by
  refine Nat.pos_of_ne_zero fun hzero => ?_
  rw [uncounted_of_active hzero path] at h
  cases h

end ConnPhase

namespace TcpService

-- What keeps the events in order. A connected path has got its PINGs, a path without threads has
-- not, and the direct clear happens when no path has any.
structure Steady (e : Env) (s : TcpService) : Prop where
  peer : s.peer = none
  reported : s.toSlot.Reported e
  normal : ∀ k, s.pathLogicalAlive k = true → s.pathPingState k = PING_STATE_NORMAL
  idle : ∀ k, (s.phase k).idle = true → s.pathPingState k ≠ PING_STATE_NORMAL
  thread : ∀ k, s.thread k = true → (s.phase k).attended = true
  count : s.tcpActivePaths = ConnPhase.active s.phase

-- A start that fails with its path NORMAL leaves a connected path behind that nobody reports as
-- disconnected.
def RollsBack (s : TcpService) : Input → Prop
  | .release path => s.phase path = .failed → s.pathPingState path ≠ PING_STATE_NORMAL
  | _ => True

instance (s : TcpService) : ∀ input : Input, Decidable (s.RollsBack input)
  | .release path =>
      inferInstanceAs (Decidable (s.phase path = .failed → s.pathPingState path ≠ PING_STATE_NORMAL))
  | .connect _ | .accept .. | .start .. | .boot .. | .join _ | .leave _ | .finish _ | .packet ..
  | .pollTimeout _ | .exit _ | .close _ | .health .. => .isTrue trivial

section

variable {e : Env} {s : TcpService} {ctx : TcpCtx} {path : Path} {phase : ConnPhase}

theorem Steady.enter (h : s.Steady e) (hturns : Slot.Turns e s.toSlot ctx.toSlot)
    (hnormal : ∀ k, ctx.pathLogicalAlive k = true → ctx.pathPingState k = PING_STATE_NORMAL)
    (hother : ∀ k, k ≠ path → (s.phase k).idle = true → ctx.pathPingState k ≠ PING_STATE_NORMAL)
    (hself : phase.idle = true → ctx.pathPingState path ≠ PING_STATE_NORMAL)
    (hthread : s.thread path = true → phase.attended = true)
    (hcount : ctx.tcpActivePaths + (s.phase path).counted.toNat =
      s.tcpActivePaths + phase.counted.toNat) :
    (s.enter path phase ctx).Steady e where
  peer := hturns.peer_eq.trans h.peer
  reported := hturns.reported h.reported
  normal := hnormal
  idle k hk := by
    change (Function.update s.phase path phase k).idle = true at hk
    by_cases heq : k = path
    · subst heq
      rw [Function.update_self] at hk
      exact hself hk
    · rw [Function.update_of_ne heq] at hk
      exact hother k heq hk
  thread k hk := by
    change (Function.update s.phase path phase k).attended = true
    by_cases heq : k = path
    · subst heq
      rw [Function.update_self]
      exact hthread hk
    · rw [Function.update_of_ne heq]
      exact h.thread k hk
  count := by
    have hactive := ConnPhase.active_update s.phase path phase
    have hstart := h.count
    change ctx.tcpActivePaths = ConnPhase.active (Function.update s.phase path phase)
    omega

theorem Steady.enter_kept (h : s.Steady e) (hkept : s.toTcpCtx.Kept ctx)
    (hself : phase.idle = true → s.pathPingState path ≠ PING_STATE_NORMAL)
    (hthread : s.thread path = true → phase.attended = true)
    (hcount : ctx.tcpActivePaths + (s.phase path).counted.toNat =
      s.tcpActivePaths + phase.counted.toNat) :
    (s.enter path phase ctx).Steady e := by
  refine h.enter (Slot.turns_of_conn hkept.conn hkept.log) ?_ ?_ ?_ hthread hcount
  · rw [hkept.ping, show ctx.pathLogicalAlive = s.pathLogicalAlive from congrArg Conn.states hkept.conn]
    exact h.normal
  · rw [hkept.ping]
    exact fun k _ => h.idle k
  · rw [hkept.ping]
    exact hself

theorem enter_same (s : TcpService) (path : Path) (ctx : TcpCtx) :
    s.enter path (s.phase path) ctx = { s with toTcpCtx := ctx } := by
  unfold TcpService.enter
  rw [Function.update_eq_self]

theorem Steady.stay (h : s.Steady e) (hturns : Slot.Turns e s.toSlot ctx.toSlot)
    (hnormal : ∀ k, ctx.pathLogicalAlive k = true → ctx.pathPingState k = PING_STATE_NORMAL)
    (hidle : ∀ k, (s.phase k).idle = true → ctx.pathPingState k ≠ PING_STATE_NORMAL)
    (hcount : ctx.tcpActivePaths = s.tcpActivePaths) :
    Steady e { s with toTcpCtx := ctx } := by
  rw [← enter_same s 0]
  exact h.enter hturns hnormal (fun k _ => hidle k) (hidle 0) (h.thread 0) (by rw [hcount])

theorem Steady.stay_kept (h : s.Steady e) (hkept : s.toTcpCtx.Kept ctx)
    (hcount : ctx.tcpActivePaths = s.tcpActivePaths) : Steady e { s with toTcpCtx := ctx } := by
  refine h.stay (Slot.turns_of_conn hkept.conn hkept.log) ?_ ?_ hcount
  · rw [hkept.ping, show ctx.pathLogicalAlive = s.pathLogicalAlive from congrArg Conn.states hkept.conn]
    exact h.normal
  · rw [hkept.ping]
    exact h.idle

theorem Steady.with_thread (h : s.Steady e) {thread : Path → Bool}
    (hthread : ∀ k, thread k = true → (s.phase k).attended = true) :
    Steady e { s with thread := thread } :=
  ⟨h.peer, h.reported, h.normal, h.idle, hthread, h.count⟩

theorem Steady.no_thread (h : s.Steady e) (hphase : (s.phase path).attended = false) {P : Prop}
    (hthread : s.thread path = true) : P := by
  have hattended := h.thread path hthread
  rw [hphase] at hattended
  cases hattended

-- start_connected_threads makes the path UNDEFINED, which was not connected.
theorem Steady.start (h : s.Steady e) (hidle : (s.phase path).idle = true)
    (hstart : ctx.pathPingState = Function.update s.pathPingState path PING_STATE_UNDEFINED)
    (hconn : ctx.conn = s.conn) (hlog : ctx.log = s.log)
    (hactive : ctx.tcpActivePaths = s.tcpActivePaths) (hphase : phase.idle = false)
    (hcounted : phase.counted = (s.phase path).counted)
    (hthread : s.thread path = true → phase.attended = true) :
    (s.enter path phase ctx).Steady e := by
  refine h.enter (Slot.turns_of_conn hconn hlog) (fun k hk => ?_) (fun k hne hk => ?_)
    (fun hself => absurd (hphase.symm.trans hself) Bool.false_ne_true) hthread
    (by rw [hactive, hcounted])
  · rw [show ctx.pathLogicalAlive = s.pathLogicalAlive from congrArg Conn.states hconn] at hk
    have hne : k ≠ path := fun heq => h.idle path hidle (heq ▸ h.normal k hk)
    rw [hstart, Function.update_of_ne hne]
    exact h.normal k hk
  · rw [hstart, Function.update_of_ne hne]
    exact h.idle k hk

theorem Steady.startThreads (h : s.Steady e) (hphase : s.phase path = .published) (outcome : Start) :
    (s.startThreads e path outcome).Steady e := by
  have hidle : (s.phase path).idle = true := by rw [hphase]; rfl
  have hthread : ∀ {P : Prop}, s.thread path = true → P := h.no_thread (by rw [hphase]; rfl)
  cases outcome with
  | sendFailed =>
    simp only [TcpService.startThreads]
    split
    · exact h.enter_kept (.of_eq rfl rfl rfl rfl) (fun hidle => by cases hidle) hthread
        (by rw [hphase]; rfl)
    · exact h
  | recvFailed =>
    exact h.start hidle rfl rfl rfl rfl rfl (by rw [hphase]; rfl) hthread
  | started =>
    have hstarted : (s.enter path .starting (s.toTcpCtx.step e (.start path))).Steady e :=
      h.start hidle rfl rfl rfl rfl rfl (by rw [hphase]; rfl) hthread
    refine hstarted.with_thread fun k hk => ?_
    change (Function.update s.phase path .starting k).attended = true
    by_cases heq : k = path
    · subst heq
      rw [Function.update_self]
      rfl
    · rw [Function.update_of_ne heq] at hk ⊢
      exact h.thread k hk

theorem Steady.resetAll_kept (h : s.Steady e) :
    s.toTcpCtx.Kept s.toTcpCtx.resetAllPathsDisconnected ∧
      s.toTcpCtx.resetAllPathsDisconnected.tcpActivePaths = s.tcpActivePaths := by
  unfold TcpCtx.resetAllPathsDisconnected
  split
  · exact ⟨.of_eq rfl rfl rfl rfl, rfl⟩
  rename_i hzero
  rw [ne_eq, not_not] at hzero
  have hstates : s.pathLogicalAlive = fun _ => false := by
    funext k
    have huncounted := ConnPhase.uncounted_of_active (h.count.symm.trans hzero) k
    by_contra hk
    exact h.idle k (ConnPhase.idle_of_uncounted huncounted) (h.normal k (by simpa using hk))
  have halive : s.healthAlive = false := by
    rw [h.reported.alive, hstates]
    exact Slot.anyPathAlive_false
  refine ⟨⟨?_, rfl, rfl, fun k hk => absurd hk undefined_ne_normal⟩, rfl⟩
  unfold Slot.conn
  rw [hstates, halive]
  rfl

theorem Steady.register (h : s.Steady e) {input : Input} (hphase : ∀ path,
      s.registers e input = some path → s.phase path = .waiting)
    (hkept : ∀ path, s.registers e input = some path →
      s.toTcpCtx.Kept ctx ∧ ctx.tcpActivePaths = s.tcpActivePaths + 1) :
    (s.register e input ctx).Steady e := by
  unfold TcpService.register
  split
  · rename_i path hregisters
    have hwaiting := hphase path hregisters
    obtain ⟨hkept, hactive⟩ := hkept path hregisters
    refine h.enter_kept hkept (fun _ => h.idle path (by rw [hwaiting]; rfl))
      (h.no_thread (by rw [hwaiting]; rfl)) ?_
    rw [hactive, hwaiting]
    rfl
  · exact h

theorem Steady.release (h : s.Steady e) (failed : Bool)
    (hcounted : (s.phase path).counted = true) (hattended : (s.phase path).attended = false)
    (hself : s.pathPingState path ≠ PING_STATE_NORMAL) :
    (s.enter path (.released (s.tcpActivePaths = 1) failed)
      (s.toTcpCtx.step e .release)).Steady e := by
  have hpos := ConnPhase.active_pos hcounted
  refine h.enter_kept (.of_eq rfl rfl rfl rfl) (fun _ => hself) (h.no_thread hattended) ?_
  rw [hcounted]
  change s.tcpActivePaths - 1 + 1 = s.tcpActivePaths + 0
  have hcount := h.count
  omega

theorem Steady.aside (h : s.Steady e) (haside : Slot.Aside e s.toSlot ctx.toSlot)
    (hactive : ctx.tcpActivePaths = s.tcpActivePaths) : Steady e { s with toTcpCtx := ctx } := by
  rcases haside.paths with ⟨hping, -, hstates⟩ | ⟨hping, -, hstates⟩
  · refine h.stay haside.turns ?_ ?_ hactive
    · rw [hping, hstates]
      exact h.normal
    · rw [hping]
      exact h.idle
  · refine h.stay haside.turns ?_ ?_ hactive
    · rw [hstates]
      nofun
    · rw [hping]
      exact fun _ _ => undefined_ne_normal

theorem Steady.resync (h : s.Steady e) {slot : Slot} {state : UInt8} {remote : Path → UInt8}
    (hbeside : s.toSlot.Beside slot)
    (hsync : Slot.Resync e slot ctx.toSlot (Function.update s.pathPingState path state) remote)
    (hself : phase.idle = true → state ≠ PING_STATE_NORMAL)
    (hthread : s.thread path = true → phase.attended = true)
    (hcount : ctx.tcpActivePaths + (s.phase path).counted.toNat =
      s.tcpActivePaths + phase.counted.toNat) : (s.enter path phase ctx).Steady e := by
  refine h.enter (hbeside.turns.trans hsync.turns) (fun k hk => ?_) (fun k hne hk => ?_)
    (fun hidle => ?_) hthread hcount
  · rw [hsync.own]
    exact (hsync.states k hk).2.1
  · rw [hsync.own, Function.update_of_ne hne]
    exact h.idle k hk
  · rw [hsync.own, Function.update_self]
    exact hself hidle

theorem Steady.packet (h : s.Steady e) (htcp : e.type.isTcpType = true) {pkt : Packet}
    (hthread : s.thread path = true) :
    Steady e { s with toTcpCtx := s.toTcpCtx.step e (.packet path pkt) } := by
  rcases TcpCtx.step_packet_paths s.toTcpCtx path pkt h.peer with
    ⟨-, heq⟩ | ⟨-, haside, hactive⟩
  · rw [heq, ← enter_same s path]
    have hsync := TcpCtx.handlePing_resync htcp
      { s.toTcpCtx with toSlot := s.toSlot.emit (.recv pkt) } pkt path h.peer
    refine h.resync (Slot.emit_beside _ rfl) hsync (fun hidle => ?_) (h.thread path) rfl
    rw [ConnPhase.idle_of_attended (h.thread path hthread)] at hidle
    cases hidle
  · exact h.aside haside hactive

theorem Steady.pollTimeout (h : s.Steady e) (htcp : e.type.isTcpType = true) (path : Path) :
    Steady e { s with
      toTcpCtx := TcpCtx.checkPingTimeout e { s with toSlot := s.toSlot.emit .poll } path } := by
  have hpoll : s.toSlot.Beside (s.toSlot.emit .poll) := Slot.emit_beside _ rfl
  obtain ⟨hsync | haside, hactive⟩ := TcpCtx.checkPingTimeout_paths htcp
    { s.toTcpCtx with toSlot := s.toSlot.emit .poll } path h.peer
  · rw [← enter_same s path]
    refine h.resync hpoll hsync (fun _ => ?_) (h.thread path) (by rw [hactive])
    decide
  · exact h.aside (hpoll.aside.trans haside) hactive

theorem step_steady (h : s.Steady e) (htcp : e.type.isTcpType = true) (input : Input)
    (hrolls : s.RollsBack input) : (s.step e input).Steady e := by
  cases input with
  | connect path =>
    refine h.register (fun k hk => (registers_connect hk).2.1) fun k hk => ?_
    rw [(registers_connect hk).2.2]
    exact ⟨TcpCtx.connect_kept s.toTcpCtx k, TcpCtx.connect_active s.toTcpCtx k⟩
  | accept path pkt =>
    refine h.register (fun k hk => (registers_accept hk).2.1) fun k hk => ?_
    obtain ⟨-, -, hnew, hstep⟩ := registers_accept hk
    rw [hstep]
    exact ⟨TcpCtx.accept_kept s.toTcpCtx k pkt, TcpCtx.accept_active s.toTcpCtx k hnew⟩
  | start path outcome =>
    change Steady e (if s.phase path = .published then s.startThreads e path outcome else s)
    split
    · exact h.startThreads ‹_› outcome
    · exact h
  | boot path ok =>
    simp only [step]
    split
    · exact h
    rename_i hphase
    rw [ne_eq, not_not] at hphase
    split
    · exact h.enter_kept (.of_eq rfl rfl rfl rfl) (fun hidle => by cases hidle) (fun _ => rfl)
        (by rw [hphase]; rfl)
    · exact h.enter_kept (.of_eq rfl rfl rfl rfl) (fun hidle => by cases hidle) (fun _ => rfl)
        (by rw [hphase]; rfl)
  | join path =>
    simp only [step]
    split
    · exact h
    rename_i hended
    split
    · rename_i hphase
      exact h.enter_kept (.of_eq rfl rfl rfl rfl) (fun hidle => by cases hidle)
        (fun hthread => absurd hthread hended) (by rw [hphase]; rfl)
    · rename_i hphase
      exact h.enter_kept (.of_eq rfl rfl rfl rfl) (fun hidle => by cases hidle)
        (fun hthread => absurd hthread hended) (by rw [hphase]; rfl)
    · exact h
  | leave path =>
    simp only [step]
    split
    · rename_i hphase
      exact h.resync (.refl _) (TcpCtx.leave_resync htcp s.toTcpCtx path h.peer) (fun _ => by decide)
        (h.no_thread (by rw [hphase]; rfl)) (by rw [hphase]; rfl)
    · exact h
  | release path =>
    simp only [step]
    split
    · rename_i hphase
      exact h.release false (by rw [hphase]; rfl) (by rw [hphase]; rfl)
        (h.idle path (by rw [hphase]; rfl))
    · rename_i hphase
      exact h.release true (by rw [hphase]; rfl) (by rw [hphase]; rfl) (hrolls hphase)
    · exact h
  | finish path =>
    simp only [step]
    split
    · rename_i last failed hphase
      have hidle := h.idle path (by rw [hphase]; rfl)
      have hreset : s.toTcpCtx.Kept (if last = true then s.toTcpCtx.step e .resetAll else s.toTcpCtx) ∧
          (if last = true then s.toTcpCtx.step e .resetAll else s.toTcpCtx).tcpActivePaths =
            s.tcpActivePaths := by
        split
        · exact h.resetAll_kept
        · exact ⟨.of_eq rfl rfl rfl rfl, rfl⟩
      generalize (if last = true then s.toTcpCtx.step e .resetAll else s.toTcpCtx) = ctx at hreset ⊢
      refine h.enter_kept (hreset.1.trans ?_) (fun _ => hidle) (h.no_thread (by rw [hphase]; rfl)) ?_
      · split <;> exact .of_eq rfl rfl rfl rfl
      · rw [hphase, ← hreset.2]
        split <;> rfl
    · exact h
  | packet path pkt =>
    simp only [step]
    split
    · exact h.packet htcp ‹_›
    · exact h
  | pollTimeout path =>
    simp only [step]
    split
    · exact h.pollTimeout htcp path
    · exact h
  | exit path =>
    simp only [step]
    split
    · have hexit : Steady e { s with toTcpCtx := s.toTcpCtx.step e (.exit path) } :=
        h.stay_kept (.of_eq rfl rfl rfl rfl) rfl
      refine hexit.with_thread fun k hk => ?_
      by_cases heq : k = path
      · subst heq
        rw [Function.update_self] at hk
        cases hk
      · rw [Function.update_of_ne heq] at hk
        exact h.thread k hk
    · exact h
  | close path => exact h.stay_kept (.of_eq rfl rfl rfl rfl) rfl
  | health path seqNum =>
    simp only [step]
    split
    · split
      · rename_i ping _
        have hsent : s.toSlot.Beside (s.toSlot.emit (.sendTcp ping)) := Slot.emit_beside _ rfl
        have hkept : Steady e { s with toTcpCtx :=
            { s.toTcpCtx with toSlot := s.toSlot.emit (.sendTcp ping) } } :=
          h.aside hsent.aside rfl
        exact hkept
      · exact h
    · exact h

theorem opened_steady (sessionId : UInt32) (sessionTs : Timespec) (destAddr : Path → Endpoint) :
    (opened e sessionId sessionTs destAddr).Steady e where
  peer := rfl
  reported := Slot.opened_reported sessionId sessionTs destAddr
  normal _ hk := by cases hk
  idle _ _ := undefined_ne_normal
  thread _ hk := by cases hk
  count := by
    change 0 = ConnPhase.active fun _ => .waiting
    decide

end

end TcpService

-- Whatever the threads of the paths do, the application hears of every change of the connected
-- paths, as long as no start fails with its path NORMAL.
theorem tcp_event_discipline (e : Env) (htcp : e.type.isTcpType = true) (sessionId : UInt32)
    (sessionTs : Timespec) (destAddr : Path → Endpoint) (inputs : List TcpService.Input)
    (hmeets : Run.Meets (TcpService.step e) TcpService.RollsBack
      (TcpService.opened e sessionId sessionTs destAddr) inputs) :
    let s := (TcpService.opened e sessionId sessionTs destAddr).run e inputs
    s.healthAlive = Slot.anyPathAlive s.pathLogicalAlive ∧
      (e.callback = true → Orderly (eventsOf PEER_NA s.log) s.pathLogicalAlive) ∧
      (e.callback = false → eventsOf PEER_NA s.log = []) := by
  intro s
  have hsteady : s.Steady e := hmeets.preserves (P := TcpService.Steady e)
    (fun s input hrolls h => TcpService.step_steady h htcp input hrolls)
    (TcpService.opened_steady sessionId sessionTs destAddr)
  have hid : s.peerId = PEER_NA := congrArg (Option.getD · PEER_NA) hsteady.peer
  have hreported : Reported e PEER_NA s.log s.pathLogicalAlive s.healthAlive :=
    hid ▸ hsteady.reported
  exact ⟨hreported.alive, hreported.orderly, hreported.mute⟩

-- A session that connects, loses its path and connects again.
theorem tcp_event_discipline_sample :
    let e := Env.sample .tcp
    let s := (TcpService.opened e 3 ⟨2, 0⟩ fun _ => .target).run e
      [.accept 0 (.samplePing 0), .start 0 .started, .boot 0 true, .packet 0 (.samplePing 0), .exit 0,
        .join 0, .leave 0, .release 0, .finish 0, .accept 0 (.samplePing 0), .start 0 .started,
        .boot 0 true, .packet 0 (.samplePing 0)]
    (eventsOf PEER_NA s.log).filterMap Event.sessionMark = [true, false, true] ∧
      Orderly (eventsOf PEER_NA s.log) s.pathLogicalAlive := by
  refine ⟨by decide +kernel, ?_⟩
  exact (tcp_event_discipline (Env.sample .tcp) rfl 3 ⟨2, 0⟩ (fun _ => .target) _
    (by decide +kernel)).2.1 rfl

def Env.samplePinging : Env where
  toConfig := { Config.sample .tcp with healthIntervalMs := 1000, healthTimeoutMs := 5000 }
  accepted := rfl
  plat := Cplat.reference

-- The health thread cannot be started after the PINGs of both ends have gone through. The clear
-- for the last path then hides the end of the connection, and the next one is a second CONNECTED
-- in a row.
theorem failed_start_hides_disconnect :
    let e := Env.samplePinging
    let ping (states : Bytes) := Packet.buildPing Packet.sampleSession 0 states
    let failing : List TcpService.Input :=
      [.accept 0 (ping [0, 0, 0, 0]), .start 0 .started, .health 0 0, .packet 0 (ping [0, 0, 0, 0]),
        .packet 0 (ping [PING_STATE_NORMAL, 0, 0, 0]), .boot 0 false, .exit 0, .join 0, .release 0,
        .finish 0]
    let again : List TcpService.Input :=
      [.accept 0 (ping [0, 0, 0, 0]), .start 0 .started, .health 0 0, .boot 0 true,
        .packet 0 (ping [0, 0, 0, 0]), .packet 0 (ping [PING_STATE_NORMAL, 0, 0, 0])]
    let s := (TcpService.opened e 3 ⟨2, 0⟩ fun _ => .target).run e failing
    (eventsOf PEER_NA s.log).filterMap Event.sessionMark = [true] ∧ s.healthAlive = false ∧
      (eventsOf PEER_NA s.log).filterMap (Event.pathMark 0) = [true] ∧
      s.pathLogicalAlive 0 = false ∧
      (eventsOf PEER_NA (s.run e again).log).filterMap Event.sessionMark = [true, true] ∧
      (eventsOf PEER_NA (s.run e again).log).filterMap (Event.pathMark 0) = [true, true] := by
  decide +kernel

end Porter
