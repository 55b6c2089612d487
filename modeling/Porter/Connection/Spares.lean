import Porter.Connection.TcpEvents
import Porter.Recv.Frame

namespace Porter

theorem Slot.tcpConnFd_firm (e : Env) (path : Path) (sender : Endpoint) (fds : Path → Bool) :
    Firm e path sender fun slot => slot.tcpConnFd = fds where
  emits _ _ h := h
  inner h hlinks _ _ _ _ := (congrArg Links.tcpConnFd hlinks).trans h
  sync _ h := h
  pings _ _ h := h
  heard _ _ _ h := h
  learn h := by
    unfold Slot.learnSenderPath
    dsimp only
    repeat' split
    all_goals exact h
  free h := by
    unfold Slot.peerFree
    split <;> exact h

namespace TcpCtx

variable {e : Env} {ctx : TcpCtx} {path : Path} {pkt : Packet}

section

variable {P : Slot → Prop} (hP : Slot.Firm e path ⟨0, 0⟩ P)

include hP

theorem acceptData_keeps {slot : Slot} (pkt : Packet) (h : P slot) : P (acceptData e slot pkt) := by
  have hadopt := hP.frame.sessionAdopt pkt h
  have hpush := hP.frame.pushRecvWindow pkt hadopt
  unfold acceptData
  dsimp only
  split
  · exact hadopt
  split
  · exact hpush
  · exact hP.frame.slotDrainRecvWindow hpush

-- A property that survives the writes of the receive thread survives tcp_handle_packet.
theorem tcpHandlePacket_keeps (pkt : Packet) (h : P ctx.toSlot) :
    P (ctx.tcpHandlePacket e pkt path).toSlot := by
  unfold tcpHandlePacket
  split
  · exact h
  split
  · exact h
  split
  · exact hP.frame.dispatchFin pkt h
  split
  · have hnormal := hP.frame.setPathPingState path PING_STATE_NORMAL (hP.frame.tickOnce h)
    unfold handlePing
    split
    · exact hP.frame.syncPathState False.elim (hP.pings _ _ hnormal)
    · exact hP.frame.syncPathState False.elim hnormal
  split
  · exact acceptData_keeps hP pkt h
  · exact h

theorem checkPingTimeout_keeps (h : P ctx.toSlot) : P (ctx.checkPingTimeout e path).toSlot := by
  have htick := hP.frame.tickOnce h
  unfold checkPingTimeout
  split
  · exact h
  dsimp only
  split
  · exact hP.frame.syncPathState False.elim (hP.frame.setPathPingState path _ htick)
  · exact htick

end

theorem tcpHandlePacket_control (ctx : TcpCtx) (pkt : Packet) (path : Path) :
    (ctx.tcpHandlePacket e pkt path).tcpConnFd = ctx.tcpConnFd ∧
      (ctx.tcpHandlePacket e pkt path).running = ctx.running := by
  refine ⟨tcpHandlePacket_keeps (Slot.tcpConnFd_firm e path ⟨0, 0⟩ ctx.tcpConnFd) pkt rfl, ?_⟩
  unfold tcpHandlePacket
  repeat' split
  all_goals rfl

theorem step_packet_control (ctx : TcpCtx) (path : Path) (pkt : Packet) :
    (ctx.step e (.packet path pkt)).tcpConnFd = ctx.tcpConnFd ∧
      (ctx.step e (.packet path pkt)).running = ctx.running := by
  by_cases hrunning : ctx.running path = true
  · have hstep : ctx.step e (.packet path pkt) =
        tcpHandlePacket e { ctx with toSlot := ctx.toSlot.emit (.recv pkt) } pkt path :=
      if_pos hrunning
    rw [hstep]
    exact tcpHandlePacket_control _ pkt path
  · have hstep : ctx.step e (.packet path pkt) = ctx := if_neg hrunning
    rw [hstep]
    exact ⟨rfl, rfl⟩

theorem checkPingTimeout_control (ctx : TcpCtx) (path : Path) :
    (ctx.checkPingTimeout e path).tcpConnFd = ctx.tcpConnFd ∧
      ∀ k, k ≠ path → (ctx.checkPingTimeout e path).running k = ctx.running k := by
  refine ⟨checkPingTimeout_keeps (Slot.tcpConnFd_firm e path ⟨0, 0⟩ ctx.tcpConnFd) rfl, ?_⟩
  unfold checkPingTimeout
  split
  · exact fun _ _ => rfl
  dsimp only
  split
  · exact fun k hk => Function.update_of_ne hk ..
  · exact fun _ _ => rfl

theorem leave_tcpConnFd (ctx : TcpCtx) (path : Path) :
    (ctx.step e (.leave path)).tcpConnFd = ctx.tcpConnFd :=
  (Slot.tcpConnFd_firm e path ⟨0, 0⟩ ctx.tcpConnFd).frame.syncPathState False.elim rfl

theorem closeOthers_control (ctx : TcpCtx) (path k : Path) :
    ((ctx.closeOthers e path).tcpConnFd k = ctx.tcpConnFd k ∧
      (ctx.closeOthers e path).running k = ctx.running k) ∨
    (k ≠ path ∧ ctx.tcpConnFd k = true ∧ (ctx.closeOthers e path).tcpConnFd k = false) := by
  refine Run.foldl_preserves_of_mem (P := fun ctx' : TcpCtx =>
    (ctx'.tcpConnFd k = ctx.tcpConnFd k ∧ ctx'.running k = ctx.running k) ∨
      (k ≠ path ∧ ctx.tcpConnFd k = true ∧ ctx'.tcpConnFd k = false))
    (fun ctx' j hj h => ?_) (.inl ⟨rfl, rfl⟩)
  have hguard := (List.mem_filter.mp hj).2
  rw [Bool.and_eq_true, decide_eq_true_eq] at hguard
  by_cases heq : k = j
  · subst heq
    exact .inr ⟨hguard.1, hguard.2, Function.update_self ..⟩
  · have hfd : (closeTcpConn { ctx' with running := Function.update ctx'.running j false } j).tcpConnFd
        k = ctx'.tcpConnFd k := Function.update_of_ne heq ..
    have hrunning : (closeTcpConn { ctx' with
        running := Function.update ctx'.running j false } j).running k = ctx'.running k :=
      Function.update_of_ne heq ..
    rw [hfd, hrunning]
    exact h

theorem receiverAccept_other (ctx : TcpCtx) (pkt : Packet) {k : Path} (hk : k ≠ path) :
    ((ctx.receiverAccept e path pkt).tcpConnFd k = ctx.tcpConnFd k ∧
      (ctx.receiverAccept e path pkt).running k = ctx.running k) ∨
    (ctx.tcpConnFd k = true ∧ (ctx.receiverAccept e path pkt).tcpConnFd k = false) := by
  unfold receiverAccept
  split
  · exact .inl ⟨rfl, rfl⟩
  · exact .inl ⟨Function.update_of_ne hk .., rfl⟩
  · have hfd : ∀ ctx' : TcpCtx, (publish e ctx' path).tcpConnFd k = ctx'.tcpConnFd k :=
      fun ctx' => Function.update_of_ne hk ..
    rw [hfd]
    rcases closeOthers_control ctx path k with hsame | ⟨-, hopen, hclosed⟩
    · exact .inl hsame
    · exact .inr ⟨hopen, hclosed⟩

theorem receiverAccept_self (ctx : TcpCtx) (path : Path) (hnew : ctx.sessionCompare e pkt ≠ .old) :
    (ctx.receiverAccept e path pkt).tcpConnFd path = true ∧
      (ctx.receiverAccept e path pkt).running path = ctx.running path := by
  unfold receiverAccept
  split
  · contradiction
  · exact ⟨Function.update_self .., rfl⟩
  · refine ⟨Function.update_self .., ?_⟩
    rcases closeOthers_control ctx path path with hsame | ⟨hne, -⟩
    · exact hsame.2
    · exact absurd rfl hne

end TcpCtx

namespace ConnPhase

-- tcp_conn_fd is not valid.
def vacant : ConnPhase → Bool
  | waiting | joined | left | released _ false => true
  | published | starting | serving | aborting | failed | released _ true => false

end ConnPhase

namespace TcpService

def Input.path : Input → Path
  | connect path | accept path _ | start path _ | boot path _ | join path | leave path
  | release path | finish path | packet path _ | pollTimeout path | exit path | close path
  | health path _ => path

variable {e : Env} {s t : TcpService} {input : Input} {path k : Path} {pkt : Packet}

-- What the threads of a path tell each other.
def gauge (s : TcpService) (k : Path) : ConnPhase × Bool × Bool × Bool :=
  (s.phase k, s.thread k, s.running k, s.tcpConnFd k)

theorem gauge_eq_iff : t.gauge k = s.gauge k ↔ t.phase k = s.phase k ∧ t.thread k = s.thread k ∧
    t.running k = s.running k ∧ t.tcpConnFd k = s.tcpConnFd k := by
  simp only [gauge, Prod.mk.injEq]

-- What a step does to a path whose threads do not make it: its connection may be closed.
structure Spares (s t : TcpService) (k : Path) : Prop where
  phase : t.phase k = s.phase k
  thread : t.thread k = s.thread k
  fd : t.tcpConnFd k = true → s.tcpConnFd k = true
  running : t.running k = false →
    s.running k = false ∨ (s.tcpConnFd k = true ∧ t.tcpConnFd k = false)

theorem Spares.of_eq (hphase : t.phase k = s.phase k) (hthread : t.thread k = s.thread k)
    (hfd : t.tcpConnFd k = s.tcpConnFd k) (hrunning : t.running k = s.running k) : Spares s t k where
  phase := hphase
  thread := hthread
  fd h := hfd ▸ h
  running h := .inl (hrunning ▸ h)

theorem Spares.refl (s : TcpService) (k : Path) : Spares s s k := .of_eq rfl rfl rfl rfl

-- The thread of another path goes on with a context that is the same for this one.
theorem spares_enter (hk : k ≠ path) (phase : ConnPhase) {ctx : TcpCtx}
    (hfd : ctx.tcpConnFd k = s.tcpConnFd k) (hrunning : ctx.running k = s.running k) :
    Spares s (s.enter path phase ctx) k :=
  .of_eq (Function.update_of_ne hk ..) rfl hfd hrunning

theorem close_tcpConnFd (ctx : TcpCtx) (hk : k ≠ path) :
    (ctx.step e (.close path)).tcpConnFd k = ctx.tcpConnFd k := Function.update_of_ne hk ..

theorem accept_gauge (hrole : e.role = .receiver) (hpath : path.val < e.nPath)
    (hwaiting : s.phase path = .waiting) (hnew : s.sessionCompare e pkt ≠ .old) :
    (s.step e (.accept path pkt)).gauge path = (.published, s.thread path, s.running path, true) := by
  have hregisters : s.registers e (.accept path pkt) = some path :=
    if_pos ⟨hrole, hpath, hwaiting, hnew⟩
  have hctx : s.toTcpCtx.step e (.accept path pkt) = s.toTcpCtx.receiverAccept e path pkt :=
    if_pos hrole
  have hstep : s.step e (.accept path pkt) =
      s.enter path .published (s.toTcpCtx.receiverAccept e path pkt) := by
    simp only [step, register, hregisters, hctx]
  obtain ⟨hfd, hrunning⟩ := TcpCtx.receiverAccept_self s.toTcpCtx path hnew
  have hphase : (s.enter path .published (s.toTcpCtx.receiverAccept e path pkt)).phase path =
      .published := Function.update_self ..
  rw [hstep]
  simp only [gauge, hphase]
  exact congrArg (fun x => (ConnPhase.published, s.thread path, x)) (Prod.ext hrunning hfd)

theorem packet_gauge (path : Path) (pkt : Packet) :
    (s.step e (.packet path pkt)).gauge k = s.gauge k := by
  obtain ⟨hfd, hrunning⟩ := TcpCtx.step_packet_control s.toTcpCtx path pkt
  simp only [step]
  split
  · exact gauge_eq_iff.mpr ⟨rfl, rfl, congrFun hrunning k, congrFun hfd k⟩
  · rfl

theorem step_spares (e : Env) (s : TcpService) (input : Input) (hk : k ≠ input.path) :
    Spares s (s.step e input) k := by
  cases input with
  | connect path =>
    simp only [step, register]
    split
    · rename_i j hj
      obtain ⟨rfl, -, hctx⟩ := registers_connect hj
      rw [hctx]
      refine spares_enter hk _ ?_ ?_
      · unfold TcpCtx.senderConnect
        split <;> exact Function.update_of_ne hk ..
      · unfold TcpCtx.senderConnect
        split <;> rfl
    · exact .refl s k
  | accept path pkt =>
    simp only [step, register]
    split
    · rename_i j hj
      obtain ⟨rfl, -, -, hctx⟩ := registers_accept hj
      rw [hctx]
      rcases TcpCtx.receiverAccept_other s.toTcpCtx pkt hk with hsame | ⟨hopen, hclosed⟩
      · exact spares_enter hk _ hsame.1 hsame.2
      · exact ⟨Function.update_of_ne hk .., rfl, fun _ => hopen, fun _ => .inr ⟨hopen, hclosed⟩⟩
    · exact .refl s k
  | start path outcome =>
    have hrunning : (s.toTcpCtx.step e (.start path)).running k = s.running k :=
      Function.update_of_ne hk ..
    simp only [step]
    split
    · cases outcome with
      | sendFailed =>
        simp only [startThreads]
        split
        · exact spares_enter hk _ rfl rfl
        · exact .refl s k
      | recvFailed =>
        refine spares_enter hk _ (close_tcpConnFd _ hk) ?_
        exact (Function.update_of_ne hk ..).trans hrunning
      | started =>
        exact .of_eq (Function.update_of_ne hk ..) (Function.update_of_ne hk ..) rfl hrunning
    · exact .refl s k
  | boot path ok =>
    simp only [step]
    split
    · exact .refl s k
    split
    · exact spares_enter hk _ rfl rfl
    · exact spares_enter hk _ (close_tcpConnFd _ hk) (Function.update_of_ne hk ..)
  | join path =>
    simp only [step]
    split
    · exact .refl s k
    split
    · exact spares_enter hk _ (close_tcpConnFd _ hk) rfl
    · exact spares_enter hk _ rfl rfl
    · exact .refl s k
  | leave path =>
    simp only [step]
    split
    · exact spares_enter hk _ (congrFun (TcpCtx.leave_tcpConnFd _ path) k) rfl
    · exact .refl s k
  | release path =>
    simp only [step]
    split
    · exact spares_enter hk _ rfl rfl
    · exact spares_enter hk _ rfl rfl
    · exact .refl s k
  | finish path =>
    simp only [step]
    split
    · rename_i last failed _
      have hreset : ∀ ctx : TcpCtx, (if last then ctx.step e .resetAll else ctx).tcpConnFd =
          ctx.tcpConnFd ∧ (if last then ctx.step e .resetAll else ctx).running = ctx.running := by
        intro ctx
        split
        · change ctx.resetAllPathsDisconnected.tcpConnFd = _ ∧ ctx.resetAllPathsDisconnected.running = _
          unfold TcpCtx.resetAllPathsDisconnected
          split <;> exact ⟨rfl, rfl⟩
        · exact ⟨rfl, rfl⟩
      split
      · refine spares_enter hk _ ?_ (congrFun (hreset _).2 k)
        exact (close_tcpConnFd _ hk).trans (congrFun (hreset _).1 k)
      · exact spares_enter hk _ (congrFun (hreset _).1 k) (congrFun (hreset _).2 k)
    · exact .refl s k
  | packet path pkt =>
    obtain ⟨hphase, hthread, hrunning, hfd⟩ := gauge_eq_iff.mp (packet_gauge path pkt)
    exact .of_eq hphase hthread hfd hrunning
  | pollTimeout path =>
    simp only [step]
    split
    · obtain ⟨hfd, hrunning⟩ := TcpCtx.checkPingTimeout_control
        { s.toTcpCtx with toSlot := s.toSlot.emit .poll } path
      exact .of_eq rfl rfl (congrFun hfd k) (hrunning k hk)
    · exact .refl s k
  | exit path =>
    simp only [step]
    split
    · exact .of_eq rfl (Function.update_of_ne hk ..) rfl (Function.update_of_ne hk ..)
    · exact .refl s k
  | close path => exact .of_eq rfl rfl (close_tcpConnFd (e := e) _ hk) rfl
  | health path seqNum =>
    simp only [step]
    split
    · split <;> exact .of_eq rfl rfl rfl rfl
    · exact .refl s k

end TcpService

end Porter
