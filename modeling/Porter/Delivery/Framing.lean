import Porter.Delivery.Framing.Acceptor
import Porter.Platform

namespace Porter

namespace TcpStreams

section

variable {e : Env} {s : TcpStreams} {path k : Path}

theorem Inv.enter (h : s.Inv e) {input : TcpService.Input} {phase : ConnPhase} {ctx : TcpCtx}
    (hstep : s.toTcpService.step e input = s.toTcpService.enter input.path phase ctx)
    (hwas : s.phase input.path ≠ .waiting) (hpublished : phase ≠ .published)
    (hattended : s.thread input.path = true → phase.attended = true)
    (hvacant : phase.vacant = true → ctx.tcpConnFd input.path = false)
    (hfd : ctx.tcpConnFd input.path = true → s.tcpConnFd input.path = true)
    (hrunning : s.thread input.path = true → ctx.running input.path = false →
      s.running input.path = false ∨ ctx.tcpConnFd input.path = false) :
    (s.advance e input).Inv e := by
  obtain ⟨conn, hserves⟩ := h.serves hwas
  have hphase : (s.advance e input).phase input.path = phase := by
    change (s.toTcpService.step e input).phase input.path = phase
    rw [hstep]
    exact Function.update_self ..
  have hservice : (s.advance e input).toTcpService = s.toTcpService.enter input.path phase ctx := hstep
  refine h.advance hserves rfl ?_ ?_ ?_ ?_ ?_ ?_ ?_
  · rw [hservice]
    rfl
  · rw [hphase]
    exact hattended
  · rw [hphase, hservice]
    exact hvacant
  · exact fun hwaiting => absurd hwaiting hwas
  · rw [hphase]
    exact fun hpub => absurd hpub hpublished
  · rw [hservice]
    exact hfd
  · rw [hservice]
    exact hrunning

theorem Inv.enterIdle (h : s.Inv e) {input : TcpService.Input} {was phase : ConnPhase} {ctx : TcpCtx}
    (hstep : s.toTcpService.step e input = s.toTcpService.enter input.path phase ctx)
    (hthread : s.thread input.path = false) (hphase : s.phase input.path = was)
    (hwas : was ≠ .waiting) (hpublished : phase ≠ .published)
    (hvacant : phase.vacant = true → ctx.tcpConnFd input.path = false)
    (hfd : ctx.tcpConnFd input.path = true → s.tcpConnFd input.path = true) :
    (s.advance e input).Inv e := by
  refine h.enter hstep (hphase ▸ hwas) hpublished (fun hrun => ?_) hvacant hfd fun hrun => ?_ <;>
    · rw [hthread] at hrun
      cases hrun

theorem Inv.unmoved (h : s.Inv e) {input : TcpService.Input}
    (hstep : s.toTcpService.step e input = s.toTcpService) : (s.advance e input).Inv e :=
  h.advance_same fun k => by rw [hstep]

theorem no_thread (h : s.Inv e) (hphase : (s.phase k).attended = false) : s.thread k = false := by
  refine Bool.eq_false_iff.mpr fun hrun => ?_
  rw [(h.staffed k).attended hrun] at hphase
  cases hphase

theorem closed_tcpConnFd (ctx : TcpCtx) (path : Path) :
    (ctx.step e (.close path)).tcpConnFd path = false := Function.update_self ..

theorem Inv.boot (h : s.Inv e) (path : Path) (ok : Bool) : (s.advance e (.boot path ok)).Inv e := by
  by_cases hphase : s.phase path = .starting
  · have hwas : s.phase path ≠ .waiting := by simp [hphase]
    cases ok with
    | true =>
      have hstep : s.toTcpService.step e (.boot path true) =
          s.toTcpService.enter path .serving s.toTcpCtx := by
        simp only [TcpService.step, hphase]
        rfl
      exact h.enter hstep hwas (by simp) (fun _ => rfl) (by simp [ConnPhase.vacant]) id
        fun _ => .inl
    | false =>
      have hstep : s.toTcpService.step e (.boot path false) = s.toTcpService.enter path .aborting
          ((s.toTcpCtx.step e (.exit path)).step e (.close path)) := by
        simp only [TcpService.step, hphase]
        rfl
      have hclosed := closed_tcpConnFd (e := e) (s.toTcpCtx.step e (.exit path)) path
      exact h.enter hstep hwas (by simp) (fun _ => rfl) (by simp [ConnPhase.vacant])
        (fun hopen => absurd (hclosed.symm.trans hopen) Bool.false_ne_true)
        fun _ _ => .inr hclosed
  · refine h.unmoved ?_
    simp only [TcpService.step]
    rw [if_pos hphase]

theorem Inv.join (h : s.Inv e) (path : Path) : (s.advance e (.join path)).Inv e := by
  cases hthread : s.thread path with
  | true =>
    refine h.unmoved ?_
    simp only [TcpService.step, hthread, if_true]
  | false =>
    cases hphase : s.phase path with
    | serving =>
      have hstep : s.toTcpService.step e (.join path) = s.toTcpService.enter path .joined
          (s.toTcpCtx.step e (.close path)) := by
        simp only [TcpService.step, hthread, hphase]
        rfl
      have hclosed := closed_tcpConnFd (e := e) s.toTcpCtx path
      exact h.enterIdle hstep hthread hphase (by simp) (by simp) (fun _ => hclosed)
        fun hopen => absurd (hclosed.symm.trans hopen) Bool.false_ne_true
    | aborting =>
      have hstep : s.toTcpService.step e (.join path) =
          s.toTcpService.enter path .failed s.toTcpCtx := by
        simp only [TcpService.step, hthread, hphase]
        rfl
      exact h.enterIdle hstep hthread hphase (by simp) (by simp)
        (by simp [ConnPhase.vacant]) id
    | waiting | published | starting | failed | joined | left | released =>
      refine h.unmoved ?_
      simp only [TcpService.step, hthread, hphase]
      rfl

theorem Inv.release (h : s.Inv e) (path : Path) : (s.advance e (.release path)).Inv e := by
  cases hphase : s.phase path with
  | left =>
    have hstep : s.toTcpService.step e (.release path) = s.toTcpService.enter path
        (.released (s.tcpActivePaths = 1) false) (s.toTcpCtx.step e .release) := by
      simp only [TcpService.step, hphase]
    have hthread := no_thread h (congrArg ConnPhase.attended hphase)
    have hclosed := (h.staffed path).vacant (congrArg ConnPhase.vacant hphase)
    exact h.enterIdle hstep hthread hphase (by simp) (by simp) (fun _ => hclosed) id
  | failed =>
    have hstep : s.toTcpService.step e (.release path) = s.toTcpService.enter path
        (.released (s.tcpActivePaths = 1) true) (s.toTcpCtx.step e .release) := by
      simp only [TcpService.step, hphase]
    have hthread := no_thread h (congrArg ConnPhase.attended hphase)
    exact h.enterIdle hstep hthread hphase (by simp) (by simp) (by simp [ConnPhase.vacant]) id
  | waiting | published | starting | serving | aborting | joined | released =>
    refine h.unmoved ?_
    simp only [TcpService.step, hphase]

theorem Inv.close (h : s.Inv e) (path : Path) : (s.advance e (.close path)).Inv e := by
  cases hopen : s.tcpConnFd path with
  | true =>
    obtain ⟨conn, hserves⟩ := (h.staffed path).serves hopen
    have hclosed : (s.advance e (.close path)).tcpConnFd path = false :=
      closed_tcpConnFd (e := e) s.toTcpCtx path
    exact h.advance hserves rfl rfl (h.staffed path).attended (fun _ => hclosed) id id
      (fun hstill => absurd (hclosed.symm.trans hstill) Bool.false_ne_true) fun _ => .inl
  | false =>
    refine h.advance_same fun k => TcpService.gauge_eq_iff.mpr ⟨rfl, rfl, rfl, ?_⟩
    by_cases hk : k = path
    · subst hk
      exact (closed_tcpConnFd (e := e) s.toTcpCtx k).trans hopen.symm
    · exact TcpService.close_tcpConnFd (e := e) s.toTcpCtx hk

theorem Inv.health (h : s.Inv e) (path : Path) (seqNum : UInt32) :
    (s.advance e (.health path seqNum)).Inv e := by
  refine h.advance_same fun k => ?_
  simp only [TcpService.step]
  split
  · split <;> rfl
  · rfl

theorem Inv.clearFirst (h : s.Inv e) (hphase : (s.phase path).attended = false)
    (hunpublished : s.phase path ≠ .published) (hwas : s.phase path ≠ .waiting) :
    (s.setPort path { s.ports path with tcpFirstPktLen := 0 }).Inv e := by
  have hstaffed := h.staffed path
  have hself : (s.setPort path { s.ports path with tcpFirstPktLen := 0 }).ports path =
      { s.ports path with tcpFirstPktLen := 0 } := Function.update_self ..
  have hthread := no_thread h hphase
  obtain ⟨conn, hserves⟩ := h.serves hwas
  have hserving := h.serving hserves
  have hlistening : (s.ports path).acceptor = .listening := by
    by_contra hengaged
    exact hwas (hstaffed.engaged hengaged)
  have hdown : ¬ s.Up path := not_or.mpr ⟨hunpublished, Bool.eq_false_iff.mp hthread⟩
  refine ((h.others hserves).setPort _).inv ⟨hstaffed.attended, hstaffed.vacant, ?_, ?_, ?_, ?_⟩ ?_
    (fun _ => ⟨?_, ?_, ?_, fun hup => absurd hup hdown, hserving.stopped, ?_, ?_, fun hlive => ?_⟩)
    (h.settled conn)
  · rw [hself]
    exact hstaffed.ended
  · rw [hself]
    exact hstaffed.idle
  · rw [hself]
    exact hstaffed.engaged
  · rw [hself]
    exact hstaffed.role
  · rw [hself]
    exact fun c hc => Option.some.inj (hc.symm.trans hserves)
  · rw [hself]
    exact hserving.fd
  · rw [hself]
    exact hserving.greets
  · rw [hself]
    exact hserving.holds
  · rw [hself]
    exact fun _ => rfl
  · rw [hself]
    exact hserving.early
  · rw [hself] at hlive
    exact absurd hlive (not_or.mpr ⟨not_not.mpr hlistening, hdown⟩)

theorem Inv.leave (h : s.Inv e) (path : Path) : (s.control e (.leave path)).Inv e := by
  dsimp only [TcpStreams.control]
  split
  · rename_i hphase
    have hstep : s.toTcpService.step e (.leave path) =
        s.toTcpService.enter path .left (s.toTcpCtx.step e (.leave path)) := if_pos hphase
    have hthread := no_thread h (congrArg ConnPhase.attended hphase)
    have hclosed := (h.staffed path).vacant (congrArg ConnPhase.vacant hphase)
    have hsame := congrFun (TcpCtx.leave_tcpConnFd (e := e) s.toTcpCtx path) path
    have hnext : (s.advance e (.leave path)).Inv e :=
      h.enterIdle hstep hthread hphase (by simp) (by simp) (fun _ => hsame.trans hclosed)
        fun hopen => hsame.symm.trans hopen
    have hleft : (s.advance e (.leave path)).phase path = .left := by
      change (s.toTcpService.step e (.leave path)).phase path = .left
      rw [hstep]
      exact Function.update_self ..
    exact hnext.clearFirst (hleft ▸ rfl) (hleft ▸ nofun) (hleft ▸ nofun)
  · exact h

theorem Inv.freed (h : s.Inv e) {input : TcpService.Input} (hinput : input.path = path)
    (hwas : s.phase path ≠ .waiting) (hdown : (s.phase path).attended = false)
    (hthread : (s.advance e input).thread path = s.thread path)
    (hphase : (s.advance e input).phase path = .waiting)
    (hclosed : (s.advance e input).tcpConnFd path = false) (len : Nat) :
    ((s.advance e input).setPort path { (s.advance e input).ports path with
      tcpFirstPktLen := len, serves := none }).Inv e := by
  obtain ⟨conn, hserves⟩ := h.serves hwas
  have hstaffed := h.staffed path
  have hport := advance_port input hthread
  have hself : ((s.advance e input).setPort path { (s.advance e input).ports path with
      tcpFirstPktLen := len, serves := none }).ports path =
        { s.ports path with tcpFirstPktLen := len, serves := none } := by
    rw [← hport]
    exact Function.update_self ..
  have hidle := no_thread h hdown
  have hlistening : (s.ports path).acceptor = .listening := by
    by_contra hengaged
    exact hwas (hstaffed.engaged hengaged)
  refine (((h.others hserves).advance hserves (h.serving hserves).fd hinput).setPort _).inv
    ⟨fun hrun => ?_, fun _ => hclosed, ?_, ?_, ?_, ?_⟩ ?_ ?_ ((h.settled conn).advance input)
  · cases (hthread.trans hidle).symm.trans hrun
  · rw [hself]
    exact ⟨fun _ => hthread.trans hidle, fun _ => hstaffed.ended.mpr hidle⟩
  · exact fun _ => ⟨hphase, (congrArg Port.acceptor hself).trans hlistening⟩
  · exact fun _ => hphase
  · rw [hself]
    exact fun hsome => absurd rfl hsome
  · rw [hself]
    exact nofun
  · rw [hself]
    exact nofun

theorem Inv.finish (h : s.Inv e) (path : Path) : (s.control e (.finish path)).Inv e := by
  cases hphase : s.phase path with
  | released last failed =>
    have hwas : s.phase path ≠ .waiting := hphase ▸ nofun
    obtain ⟨conn, hserves⟩ := h.serves hwas
    obtain ⟨hrole, -⟩ := (h.staffed path).role (hserves ▸ nofun)
    have hreset : (if last then s.toTcpCtx.step e .resetAll else s.toTcpCtx).tcpConnFd =
        s.tcpConnFd := by
      split
      · change s.toTcpCtx.resetAllPathsDisconnected.tcpConnFd = _
        unfold TcpCtx.resetAllPathsDisconnected
        split <;> rfl
      · rfl
    have hclosed : (s.advance e (.finish path)).tcpConnFd path = false := by
      change (s.toTcpService.step e (.finish path)).tcpConnFd path = false
      simp only [TcpService.step, hphase, hrole, and_true]
      split
      · exact closed_tcpConnFd (e := e) _ path
      · rename_i hfine
        obtain rfl := Bool.eq_false_iff.mpr hfine
        exact (congrFun hreset path).trans
          ((h.staffed path).vacant (congrArg ConnPhase.vacant hphase))
    have hnext : (s.advance e (.finish path)).phase path = .waiting := by
      change (s.toTcpService.step e (.finish path)).phase path = .waiting
      simp only [TcpService.step, hphase]
      exact Function.update_self ..
    have hthread : (s.advance e (.finish path)).thread path = s.thread path := by
      change (s.toTcpService.step e (.finish path)).thread path = s.thread path
      simp only [TcpService.step, hphase]
      rfl
    simp only [TcpStreams.control, hphase]
    have hpath : (TcpService.Input.finish path).path = path := rfl
    exact h.freed hpath hwas (hphase ▸ rfl) hthread hnext hclosed _
  | waiting | published | starting | serving | aborting | failed | joined | left =>
    simpa only [TcpStreams.control, hphase] using h

theorem Inv.started (h : s.Inv e) (hphase : s.phase path = .published) :
    (s.advance e (.start path .started)).Inv e := by
  obtain ⟨conn, hserves⟩ := h.serves (k := path) (hphase ▸ nofun)
  have hstaffed := h.staffed path
  have hserving := h.serving hserves
  have hidle := no_thread h (k := path) (hphase ▸ rfl)
  have hended := hstaffed.ended.mpr hidle
  have hlistening : (s.ports path).acceptor = .listening := by
    by_contra hengaged
    cases (hstaffed.engaged hengaged).symm.trans hphase
  have hstep : s.toTcpService.step e (.start path .started) =
      { s.toTcpService.enter path .starting (s.toTcpCtx.step e (.start path)) with
        thread := Function.update s.thread path true } := if_pos hphase
  have hnext : (s.advance e (.start path .started)).phase path = .starting := by
    change (s.toTcpService.step e (.start path .started)).phase path = .starting
    rw [hstep]
    exact Function.update_self ..
  have hthread : (s.toTcpService.step e (.start path .started)).thread path = true := by
    rw [hstep]
    exact Function.update_self ..
  have hrunning : (s.advance e (.start path .started)).running path = true := by
    change (s.toTcpService.step e (.start path .started)).running path = true
    rw [hstep]
    exact Function.update_self ..
  have hfd : (s.advance e (.start path .started)).tcpConnFd = s.tcpConnFd := by
    change (s.toTcpService.step e (.start path .started)).tcpConnFd = s.tcpConnFd
    rw [hstep]
    rfl
  have hport : (s.advance e (.start path .started)).ports path =
      { s.ports path with reader := .entry } := by
    unfold TcpStreams.advance
    dsimp only
    rw [hthread, hidle]
    rfl
  have hothers := (h.others hserves).advance hserves hserving.fd
    (show (TcpService.Input.start path .started).path = path from rfl)
  refine hothers.inv ⟨fun _ => hnext ▸ rfl, ?_, ?_, ?_, ?_, ?_⟩ ?_
    (fun _ => ⟨?_, fun d hd => ?_, fun d hd => ?_, fun _ hshut => ?_, fun _ hstop => ?_,
      fun hpast => ?_, ?_, fun _ => ?_⟩) ((h.settled conn).advance _)
  · rw [hnext]
    exact nofun
  · rw [hport]
    exact iff_of_false nofun (Bool.not_eq_false _ ▸ hthread)
  · rw [hport]
    exact fun hnone => nomatch hserves.symm.trans hnone
  · rw [hport]
    exact fun hengaged => absurd hlistening hengaged
  · rw [hport]
    exact hstaffed.role
  · rw [hport]
    exact fun c hc => Option.some.inj (hc.symm.trans hserves)
  · rw [hfd, advance_descriptors hfd, hport]
    exact hserving.fd
  · rw [hport] at hd
    rw [hlistening] at hd
    cases hd
  · rw [hport] at hd
    cases hd
  · rw [hfd] at hshut
    exact advance_cutOff _ (hserving.shut (.inl hphase) hshut)
  · cases hrunning.symm.trans hstop
  · rw [hport] at hpast
    cases hpast
  · rw [hport]
    exact fun hengaged => absurd hlistening hengaged
  · have hhand : ({ s.ports path with reader := .entry } : Port).hand = (s.ports path).hand := by
      rw [Port.hand_of_listening hlistening, hended]
      exact Port.hand_of_listening (by exact hlistening)
    rw [hport]
    exact hhand.symm ▸ Cut.advance (hserving.cut (.inr (.inl hphase))) _

theorem Inv.start (h : s.Inv e) (path : Path) (outcome : TcpService.Start) :
    (s.advance e (.start path outcome)).Inv e := by
  by_cases hphase : s.phase path = .published
  · have hthread := no_thread h (k := path) (hphase ▸ rfl)
    cases outcome with
    | started => exact h.started hphase
    | recvFailed =>
      have hstep : s.toTcpService.step e (.start path .recvFailed) =
          s.toTcpService.enter path .failed
            (((s.toTcpCtx.step e (.start path)).step e (.exit path)).step e (.close path)) :=
        if_pos hphase
      have hclosed := closed_tcpConnFd (e := e)
        ((s.toTcpCtx.step e (.start path)).step e (.exit path)) path
      exact h.enterIdle hstep hthread hphase (by simp) (by simp) (by simp [ConnPhase.vacant])
        fun hopen => absurd (hclosed.symm.trans hopen) Bool.false_ne_true
    | sendFailed =>
      by_cases hfirst : path = 0 ∧ (e.role = .sender ∨ e.type = .tcpBidir)
      · have hstep : s.toTcpService.step e (.start path .sendFailed) =
            s.toTcpService.enter path .failed s.toTcpCtx :=
          (if_pos hphase).trans (if_pos hfirst)
        exact h.enterIdle hstep hthread hphase (by simp) (by simp)
          (by simp [ConnPhase.vacant]) id
      · exact h.unmoved ((if_pos hphase).trans (if_neg hfirst))
  · exact h.unmoved (if_neg hphase)

theorem Inv.control (h : s.Inv e) (input : TcpService.Input) : (s.control e input).Inv e := by
  cases input with
  | start path outcome => exact h.start path outcome
  | boot path ok => exact h.boot path ok
  | join path => exact h.join path
  | leave path => exact h.leave path
  | release path => exact h.release path
  | finish path => exact h.finish path
  | close path => exact h.close path
  | health path seqNum => exact h.health path seqNum
  | connect | accept | packet | pollTimeout | exit => exact h

-- No connection gets a descriptor that a receive thread has read and not used yet.
def Unshared (s : TcpStreams) : Action → Prop
  | .accept _ fd _ => ∀ k, (s.ports k).reader.fd ≠ some fd
  | _ => True

instance (s : TcpStreams) : ∀ action, Decidable (s.Unshared action)
  | .accept _ fd _ => inferInstanceAs (Decidable (∀ k, (s.ports k).reader.fd ≠ some fd))
  | .greet .. | .receive .. | .control _ => .isTrue trivial

theorem step_inv (h : s.Inv e) {action : Action} (hfd : s.Unshared action) :
    (s.step e action).Inv e := by
  cases action with
  | accept path fd stream => exact h.accept hfd
  | greet path transfer => exact h.greet path transfer
  | receive path readiness transfer =>
    cases hthread : s.thread path with
    | true =>
      obtain ⟨conn, hserves⟩ := h.serves_of_thread hthread
      exact h.receive hserves hthread readiness transfer
    | false =>
      have hended := (h.staffed path).ended.mpr hthread
      simpa only [step, TcpStreams.receive, hended] using h
  | control input => exact h.control input

theorem opened_inv (sessionId : UInt32) (sessionTs : Timespec) (destAddr : Path → Endpoint) :
    (opened e sessionId sessionTs destAddr).Inv e where
  staffed _ := ⟨nofun, fun _ => rfl, iff_of_true rfl rfl, fun _ => ⟨rfl, rfl⟩, fun _ => rfl,
    fun hsome => absurd rfl hsome⟩
  serving := nofun
  settled _ := ⟨ List.nil_prefix, nofun, nofun⟩
  apart := nofun
  fresh := nofun
  opened := nofun
  unborn _ _ := rfl
  reads := nofun

end

end TcpStreams

-- A receiver hands over the packets of each connection as its stream has them, each once and in
-- order: all of them if the receive thread ends by itself. The first is admitted a second time as
-- it was at first, and no read takes bytes of another connection.
theorem tcp_framing_with_prefetch (e : Env) (sessionId : UInt32) (sessionTs : Timespec)
    (destAddr : Path → Endpoint) (actions : List TcpStreams.Action)
    (hmeets : Run.Meets (TcpStreams.step e) TcpStreams.Unshared
      (.opened e sessionId sessionTs destAddr) actions) :
    let s := (TcpStreams.opened e sessionId sessionTs destAddr).run e actions
    (∀ conn, (s.wires conn).handed <+: e.format.frames (s.wires conn).stream ∧
      ((s.wires conn).outcome = some false →
        (s.wires conn).handed = e.format.frames (s.wires conn).stream) ∧
      ∀ pkt first, (s.wires conn).admitted = some pkt →
        (s.wires conn).handed.head? = some first → Packet.vetted e first = some pkt) ∧
      ∀ r ∈ s.reads, r.1 = r.2 := by
  intro s
  have h : s.Inv e := hmeets.preserves (P := TcpStreams.Inv e)
    (fun _ _ hfd h => TcpStreams.step_inv h hfd) (TcpStreams.opened_inv sessionId sessionTs destAddr)
  refine ⟨fun conn => ⟨(h.settled conn).handed, (h.settled conn).complete,
    fun pkt first hadmitted hfirst => ?_⟩, h.reads⟩
  obtain ⟨frame, hframe, hvetted⟩ := (h.settled conn).first pkt hadmitted
  obtain ⟨rest, hrest⟩ := (h.settled conn).handed
  rw [← hrest, List.head?_append, hfirst] at hframe
  rw [Option.some.inj hframe]
  exact hvetted

def Env.sampleTriple : Env where
  toConfig := { Config.sample .tcp with nPath := 3 }
  accepted := rfl
  plat := Cplat.reference

namespace TcpStreams

def sample : TcpStreams := opened .sampleTriple 3 ⟨2, 0⟩ fun _ => .target

-- A PING of the session with this number. A higher number is a newer session.
def samplePing (id : UInt32) (seqNum : UInt32) : Bytes :=
  (Packet.buildPing ⟨1, id, 9, 0⟩ seqNum [PING_STATE_NORMAL, 0, 0, 0]).wire

-- A connection is accepted, its first packet read and its threads started.
def sampleAccept (path : Path) (fd : Nat) (stream : Bytes) : List Action :=
  [.accept path fd stream, .greet path .whole, .greet path .whole, .greet path .whole,
    .control (.start path .started), .control (.boot path true)]

def sampleReceive (path : Path) (n : Nat) : List Action :=
  List.replicate n (.receive path .ready .whole)

-- Two packets and the beginning of a third.
def sampleActions : List Action :=
  sampleAccept 0 5 (samplePing 5 0 ++ samplePing 5 1 ++ [0, 0]) ++ sampleReceive 0 14

end TcpStreams

theorem tcp_framing_with_prefetch_sample :
    Run.Meets (TcpStreams.step .sampleTriple) TcpStreams.Unshared .sample TcpStreams.sampleActions ∧
      ((TcpStreams.sample.run .sampleTriple TcpStreams.sampleActions).wires 0).outcome =
        some false ∧
      Env.sampleTriple.format.frames
          ((TcpStreams.sample.run .sampleTriple TcpStreams.sampleActions).wires 0).stream =
        [TcpStreams.samplePing 5 0, TcpStreams.samplePing 5 1] := by
  have hmeets : Run.Meets (TcpStreams.step .sampleTriple) TcpStreams.Unshared .sample
      TcpStreams.sampleActions := by
    decide +kernel
  have houtcome : ((TcpStreams.sample.run .sampleTriple TcpStreams.sampleActions).wires 0).outcome =
      some false := by
    decide +kernel
  have hhanded : ((TcpStreams.sample.run .sampleTriple TcpStreams.sampleActions).wires 0).handed =
      [TcpStreams.samplePing 5 0, TcpStreams.samplePing 5 1] := by
    decide +kernel
  have hall := (tcp_framing_with_prefetch .sampleTriple 3 ⟨2, 0⟩ (fun _ => .target)
    TcpStreams.sampleActions hmeets).1 0
  rw [show TcpStreams.opened _ _ _ _ = TcpStreams.sample from rfl] at hall
  exact ⟨hmeets, houtcome, (hall.2.1 houtcome).symm.trans hhanded⟩

-- The receive thread of path 0 has read its descriptor when a newer session closes it. The
-- platform gives the number to a connection of path 2, and the thread takes a packet of that one.
theorem reused_descriptor_loses_packet :
    let actions := TcpStreams.sampleAccept 0 5 (TcpStreams.samplePing 5 0) ++
      TcpStreams.sampleReceive 0 7 ++
      TcpStreams.sampleAccept 1 6 (TcpStreams.samplePing 6 0) ++
      TcpStreams.sampleAccept 2 5 (TcpStreams.samplePing 6 0 ++ TcpStreams.samplePing 6 1 ++
        TcpStreams.samplePing 6 2) ++
      TcpStreams.sampleReceive 2 4 ++ TcpStreams.sampleReceive 0 3 ++ TcpStreams.sampleReceive 2 6
    let s := TcpStreams.sample.run .sampleTriple actions
    (s.wires 2).handed = [TcpStreams.samplePing 6 0, TcpStreams.samplePing 6 2] ∧
      Env.sampleTriple.format.frames (s.wires 2).stream =
        [TcpStreams.samplePing 6 0, TcpStreams.samplePing 6 1, TcpStreams.samplePing 6 2] ∧
      (0, 2) ∈ s.reads := by
  decide +kernel

end Porter
