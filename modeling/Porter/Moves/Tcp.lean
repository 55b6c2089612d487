import Porter.Moves.Phases
import Porter.Recv.Tcp

namespace Porter

namespace TcpCtx

open View

structure Ok (e : Env) (ctx : TcpCtx) : Prop where
  peer : ctx.peer = none
  slot : Slot.Ok e ctx.toSlot

section

variable {e : Env} {ctx : TcpCtx} {slot : Slot} {pkt : Packet}

private theorem drain_ok (hpeer : slot.peer = none) (hinv : Inv e (slot.view e)) :
    (slot.slotDrainRecvWindow e).1.peer = none ∧ Slot.Ok e (slot.slotDrainRecvWindow e).1 := by
  have hstart : (slot.view e).peer = none ∧ Inv e (slot.view e) := ⟨hpeer, hinv⟩
  have hdrain := Slot.drainLoop_preserves (P := fun v => v.peer = none ∧ Inv e v)
    slot.recvWindow.windowSize
    (fun v pkt win _ hpop h => ⟨(popped_peer ..).trans h.1, h.2.popped hpop⟩) hstart
  have hhead := Slot.drain_head (e := e) hinv.wf
  rw [Slot.slotDrainRecvWindow_eq]
  generalize slot.drainLoop e slot.recvWindow.windowSize = drained at hdrain hhead ⊢
  split
  · have hmoves : Moves e none (drained.view e) ((drained.finFire e drained.finTargetSeq).view e) :=
      Slot.finFire_moves nofun
    exact ⟨(Moves.peer_eq hmoves).trans hdrain.1, Moves.inv hmoves hdrain.2,
      Slot.finFire_head _ hhead⟩
  · exact ⟨hdrain.1, hdrain.2, hhead⟩

theorem acceptData_cases (slot : Slot) (pkt : Packet) :
    ((slot.sessionAdopt e pkt).2 = false ∧ acceptData e slot pkt = (slot.sessionAdopt e pkt).1) ∨
    ((slot.sessionAdopt e pkt).2 = true ∧
      (slot.sessionAdopt e pkt).1.recvWindow.recvPush pkt = none ∧
      acceptData e slot pkt = (slot.sessionAdopt e pkt).1) ∨
    ∃ win, (slot.sessionAdopt e pkt).2 = true ∧
      (slot.sessionAdopt e pkt).1.recvWindow.recvPush pkt = some win ∧
      acceptData e slot pkt =
        (((slot.sessionAdopt e pkt).1.pushed pkt win).slotDrainRecvWindow e).1 := by
  unfold acceptData Slot.pushRecvWindow
  generalize slot.sessionAdopt e pkt = adopted
  obtain ⟨slot', adopted⟩ := adopted
  cases adopted with
  | false => exact .inl ⟨rfl, rfl⟩
  | true =>
    dsimp only
    cases slot'.recvWindow.recvPush pkt with
    | none => exact .inr (.inl ⟨rfl, rfl, rfl⟩)
    | some win => exact .inr (.inr ⟨win, rfl, rfl, rfl⟩)

theorem acceptData_ok (hlex : e.plat.CmpLex) (hpeer : slot.peer = none)
    (hok : Slot.Ok e slot) (hearly : (slot.view e).Early) :
    (acceptData e slot pkt).peer = none ∧ Slot.Ok e (acceptData e slot pkt) := by
  have hmoves : Moves e (some pkt) (slot.view e) ((slot.sessionAdopt e pkt).1.view e) :=
    (Slot.sessionAdopt_moves hlex slot rfl hearly).1
  have hpeer' : (slot.sessionAdopt e pkt).1.peer = none := (Moves.peer_eq hmoves).trans hpeer
  have hinv := Moves.inv hmoves hok.inv
  have hhead := Slot.adopt_head hlex pkt hok hearly
  rcases acceptData_cases slot pkt with ⟨-, heq⟩ | ⟨-, -, heq⟩ | ⟨win, -, hpush, heq⟩
  · rw [heq]
    exact ⟨hpeer', hinv, hhead⟩
  · rw [heq]
    exact ⟨hpeer', hinv, hhead⟩
  · rw [heq]
    exact drain_ok hpeer' ⟨hinv.kind, Window.recvPush_wf hinv.wf hpush,
      (Window.recvPush_windowSize hpush).trans hinv.size, hinv.timer⟩

-- A step that does not touch the window and delivers nothing.
structure Still (e : Env) (slot slot' : Slot) : Prop where
  peer : slot'.peer = slot.peer
  win : slot'.recvWindow = slot.recvWindow
  pending : slot'.reorderPending = slot.reorderPending
  quiet : (slot.view e).Quiet (slot'.view e)

theorem Still.ok {slot' : Slot} (h : Still e slot slot') (hpeer : slot.peer = none)
    (hok : Slot.Ok e slot) : slot'.peer = none ∧ Slot.Ok e slot' := by
  have hpeer' := h.peer.trans hpeer
  refine ⟨hpeer', ⟨fun hp => absurd hpeer' hp, ?_, ?_, fun ht => ?_⟩, ?_⟩
  · change slot'.recvWindow.RecvWF
    exact h.win ▸ hok.inv.wf
  · exact (congrArg Window.windowSize h.win).trans hok.inv.size
  · refine h.pending.trans (hok.inv.timer (ht.imp_left fun hp => absurd hpeer' hp))
  · unfold Slot.HeadEmpty
    rw [h.win]
    exact hok.head

theorem Still.trans {slot' slot'' : Slot} (h : Still e slot slot')
    (h' : Still e slot' slot'') : Still e slot slot'' where
  peer := h'.peer.trans h.peer
  win := h'.win.trans h.win
  pending := h'.pending.trans h.pending
  quiet := h.quiet.trans h'.quiet

theorem still_of_view {slot' : Slot} (h : slot'.view e = slot.view e) :
    Still e slot slot' :=
  ⟨congrArg View.peer h, congrArg View.win h, congrArg View.pending h, .inl (h ▸ .refl _)⟩

theorem syncPathState_still (slot : Slot) : Still e slot (slot.syncPathState e) := by
  obtain ⟨evs, -, hv⟩ := Slot.view_syncPathStateLocked slot (slot.nextPathStates e)
  have hv' : (slot.syncPathState e).view e = _ := hv
  exact ⟨(congrArg View.peer hv').trans (synced_peer ..),
    (congrArg View.win hv').trans (synced_win ..),
    (congrArg View.pending hv').trans (synced_pending ..), .inl (Slot.syncPathState_idle slot)⟩

theorem synced_still {slot' : Slot} (h : slot'.view e = slot.view e) :
    Still e slot (slot'.syncPathState e) := (still_of_view h).trans (syncPathState_still slot')

theorem emit_still (slot : Slot) {act : Act} (h : act.message = none) :
    Still e slot (slot.emit act) := ⟨rfl, rfl, rfl, .inl (Idle.emit _ h)⟩

theorem resetConnectionState_still (ctx : TcpCtx) :
    Still e ctx.toSlot ctx.resetConnectionState.toSlot := ⟨rfl, rfl, rfl, .inr ⟨rfl, rfl⟩⟩

theorem publish_still (ctx : TcpCtx) (path : Path) :
    Still e ctx.toSlot (ctx.publish e path).toSlot := still_of_view rfl

theorem closeOthers_still (ctx : TcpCtx) (path : Path) :
    Still e ctx.toSlot (ctx.closeOthers e path).toSlot := by
  refine Run.foldl_preserves (P := fun ctx' : TcpCtx => Still e ctx.toSlot ctx'.toSlot)
    (fun ctx' k h => ?_) (still_of_view rfl) _
  exact h.trans (still_of_view rfl)

theorem checkPingTimeout_still (ctx : TcpCtx) (path : Path) :
    Still e ctx.toSlot (ctx.checkPingTimeout e path).toSlot := by
  unfold checkPingTimeout
  split
  · exact still_of_view rfl
  dsimp only
  split
  · exact synced_still rfl
  · exact still_of_view rfl

theorem handlePing_still (ctx : TcpCtx) (pkt : Packet) (path : Path) :
    Still e ctx.toSlot (ctx.handlePing e pkt path).toSlot := by
  refine synced_still ?_
  split <;> rfl

theorem step_still (ctx : TcpCtx) {input : Input}
    (hquiet : ∀ path pkt, input ≠ .packet path pkt) :
    Still e ctx.toSlot (ctx.step e input).toSlot := by
  cases input with
  | packet path pkt => exact absurd rfl (hquiet path pkt)
  | pollTimeout path =>
    change Still e _ (if ctx.running path then
      checkPingTimeout e { ctx with toSlot := ctx.toSlot.emit .poll } path else ctx).toSlot
    split
    · have hchecked := checkPingTimeout_still (e := e)
        { ctx with toSlot := ctx.toSlot.emit .poll } path
      exact (emit_still ctx.toSlot rfl).trans hchecked
    · exact still_of_view rfl
  | connect path =>
    change Still e _ (if e.role = .sender then ctx.senderConnect e path else ctx).toSlot
    unfold senderConnect
    split
    · dsimp only
      split
      · exact (resetConnectionState_still ctx).trans (publish_still _ _)
      · exact publish_still _ _
    · exact still_of_view rfl
  | accept path pkt =>
    change Still e _ (if e.role = .receiver then ctx.receiverAccept e path pkt else ctx).toSlot
    unfold receiverAccept
    split
    · split
      · exact still_of_view rfl
      · exact publish_still _ _
      · exact (closeOthers_still ctx path).trans
          ((resetConnectionState_still _).trans (still_of_view rfl))
    · exact still_of_view rfl
  | leave path => exact synced_still rfl
  | resetAll =>
    change Still e _ ctx.resetAllPathsDisconnected.toSlot
    unfold resetAllPathsDisconnected
    split
    · exact still_of_view rfl
    · exact ⟨rfl, rfl, rfl, .inr ⟨rfl, rfl⟩⟩
  | start path => exact still_of_view rfl
  | exit path => exact still_of_view rfl
  | close path => exact still_of_view rfl
  | release => exact still_of_view rfl

theorem step_packet_eq (ctx : TcpCtx) {path : Path} (pkt : Packet)
    (hrunning : ctx.running path = true) :
    ctx.step e (.packet path pkt) =
      if ctx.refuses e pkt || pkt.has FLAG_FIN_ACK then
        { ctx with toSlot := ctx.toSlot.emit (.recv pkt) }
      else if pkt.has FLAG_FIN then
        { ctx with toSlot := (ctx.toSlot.emit (.recv pkt)).dispatchFin e pkt }
      else if pkt.has FLAG_PING then
        handlePing e { ctx with toSlot := ctx.toSlot.emit (.recv pkt) } pkt path
      else if pkt.has FLAG_DATA then
        { ctx with toSlot := acceptData e (ctx.toSlot.emit (.recv pkt)) pkt }
      else { ctx with toSlot := ctx.toSlot.emit (.recv pkt) } := by
  have hstep : ctx.step e (.packet path pkt) =
      tcpHandlePacket e { ctx with toSlot := ctx.toSlot.emit (.recv pkt) } pkt path := if_pos hrunning
  have hrefuses : refuses e { ctx with toSlot := ctx.toSlot.emit (.recv pkt) } pkt =
      ctx.refuses e pkt := rfl
  rw [hstep]
  unfold tcpHandlePacket
  rw [hrefuses]
  cases ctx.refuses e pkt <;> cases pkt.has FLAG_FIN_ACK <;> rfl

theorem step_packet_cases (ctx : TcpCtx) (path : Path) (pkt : Packet) :
    Still e ctx.toSlot (ctx.step e (.packet path pkt)).toSlot ∨
    (ctx.running path = true ∧ ctx.refuses e pkt = false ∧ pkt.has FLAG_FIN_ACK = false ∧
      ((pkt.has FLAG_FIN = true ∧ (ctx.step e (.packet path pkt)).toSlot =
        (ctx.toSlot.emit (.recv pkt)).dispatchFin e pkt) ∨
      (pkt.has FLAG_FIN = false ∧ pkt.has FLAG_PING = false ∧ pkt.has FLAG_DATA = true ∧
        (ctx.step e (.packet path pkt)).toSlot =
          acceptData e (ctx.toSlot.emit (.recv pkt)) pkt))) := by
  have hnoted : Still e ctx.toSlot (ctx.toSlot.emit (.recv pkt)) := emit_still _ rfl
  by_cases hrunning : ctx.running path = true
  · rw [step_packet_eq ctx pkt hrunning]
    split
    · exact .inl hnoted
    rename_i hheard
    rw [Bool.or_eq_true, not_or, Bool.not_eq_true, Bool.not_eq_true] at hheard
    split
    · rename_i hfin
      exact .inr ⟨hrunning, hheard.1, hheard.2, .inl ⟨hfin, rfl⟩⟩
    rename_i hfin
    split
    · have hping := handlePing_still (e := e)
        { ctx with toSlot := ctx.toSlot.emit (.recv pkt) } pkt path
      exact .inl (hnoted.trans hping)
    rename_i hping
    split
    · rename_i hdata
      exact .inr ⟨hrunning, hheard.1, hheard.2,
        .inr ⟨by simpa using hfin, by simpa using hping, hdata, rfl⟩⟩
    · exact .inl hnoted
  · have hstep : ctx.step e (.packet path pkt) = ctx := if_neg hrunning
    rw [hstep]
    exact .inl (still_of_view rfl)

theorem step_ok (hlex : e.plat.CmpLex) (h : ctx.Ok e) (input : Input) : (ctx.step e input).Ok e := by
  have hstill : Still e ctx.toSlot (ctx.step e input).toSlot → (ctx.step e input).Ok e :=
    fun hs => ⟨(hs.ok h.peer h.slot).1, (hs.ok h.peer h.slot).2⟩
  by_cases hpacket : ∃ path pkt, input = .packet path pkt
  · obtain ⟨path, pkt, rfl⟩ := hpacket
    have hearly : ((ctx.toSlot.emit (.recv pkt)).view e).Early := Slot.recv_early pkt
    have hok := Slot.emit_ok h.slot (.recv pkt)
    rcases step_packet_cases ctx path pkt with
      hs | ⟨-, -, -, ⟨-, heq⟩ | ⟨-, -, -, heq⟩⟩
    · exact hstill hs
    · obtain ⟨hmoves, hhead⟩ := (Slot.dispatchFin_moves hlex hok rfl hearly :
        Moves e (some pkt) _ _ ∧ _)
      refine ⟨?_, ?_⟩
      · rw [heq]
        exact (Moves.peer_eq hmoves).trans h.peer
      · rw [heq]
        exact ⟨Moves.inv hmoves hok.inv, hhead⟩
    · have hpeer : (ctx.toSlot.emit (.recv pkt)).peer = none := h.peer
      obtain ⟨hpeer', hok'⟩ := (acceptData_ok hlex hpeer hok hearly :
        (acceptData e _ pkt).peer = none ∧ _)
      refine ⟨?_, ?_⟩
      · rw [heq]
        exact hpeer'
      · rw [heq]
        exact hok'
  · exact hstill (step_still ctx fun path pkt heq => hpacket ⟨path, pkt, heq⟩)

theorem finFire_off (target : UInt32) (hpeer : slot.peer = none) :
    (slot.finFire e target).reorderPending = false := by
  unfold Slot.finFire
  rw [hpeer]
  rfl

theorem sessionAdopt_off (pkt : Packet) (hoff : slot.reorderPending = false) :
    (slot.sessionAdopt e pkt).1.reorderPending = false := by
  unfold Slot.sessionAdopt
  simp only
  repeat' split
  all_goals first | exact hoff | rfl

theorem slotDrainRecvWindow_off (hpeer : slot.peer = none) (hoff : slot.reorderPending = false) :
    (slot.slotDrainRecvWindow e).1.reorderPending = false := by
  have hstart : (slot.view e).peer = none ∧ (slot.view e).pending = false := ⟨hpeer, hoff⟩
  have hdrain := Slot.drainLoop_preserves (P := fun v => v.peer = none ∧ v.pending = false)
    slot.recvWindow.windowSize
    (fun v pkt win _ _ h => ⟨(popped_peer ..).trans h.1, (popped_pending ..).trans h.2⟩) hstart
  rw [Slot.slotDrainRecvWindow_eq]
  split
  · exact finFire_off _ hdrain.1
  · exact hdrain.2

theorem dispatchFin_off (hlex : e.plat.CmpLex) (hpeer : slot.peer = none)
    (hoff : slot.reorderPending = false) (hearly : (slot.view e).Early) :
    (slot.dispatchFin e pkt).reorderPending = false := by
  have hadopt : Moves e (some pkt) _ _ := (Slot.sessionAdopt_moves hlex slot rfl hearly).1
  have hpeer' : (slot.sessionAdopt e pkt).1.peer = none := (Moves.peer_eq hadopt).trans hpeer
  have hoff' := sessionAdopt_off (e := e) pkt hoff
  rw [Slot.dispatchFin_eq, hpeer]
  simp only [Option.isNone_none, if_true]
  generalize slot.sessionAdopt e pkt = adopted at hpeer' hoff' ⊢
  have hfin : (adopted.1.finOnPacket pkt).1.peer = none ∧
      (adopted.1.finOnPacket pkt).1.reorderPending = false := by
    unfold Slot.finOnPacket
    repeat' split
    all_goals exact ⟨hpeer', hoff'⟩
  split
  · exact hoff'
  split
  · exact finFire_off _ hfin.1
  · exact hfin.2

theorem acceptData_moves (hlex : e.plat.CmpLex) (hpeer : slot.peer = none) (hok : Slot.Ok e slot)
    (hoff : slot.reorderPending = false) (hearly : (slot.view e).Early)
    (hdata : pkt.has FLAG_DATA = true) (hping : pkt.has FLAG_PING = false) :
    Moves e (some pkt) (slot.view e) ((acceptData e slot pkt).view e) ∧
      (acceptData e slot pkt).reorderPending = false := by
  obtain ⟨hadopt, htracks, -⟩ := (Slot.sessionAdopt_moves hlex slot rfl hearly :
    Moves e (some pkt) (slot.view e) ((slot.sessionAdopt e pkt).1.view e) ∧ _)
  have hoff' := sessionAdopt_off (e := e) pkt hoff
  have hpeer' : (slot.sessionAdopt e pkt).1.peer = none := (Moves.peer_eq hadopt).trans hpeer
  have hearly' := Slot.sessionAdopt_early hlex pkt hearly
  have hinv := Moves.inv hadopt hok.inv
  rcases acceptData_cases slot pkt with ⟨-, heq⟩ | ⟨-, -, heq⟩ | ⟨win, hin, hpush, heq⟩
  · rw [heq]
    exact ⟨hadopt, hoff'⟩
  · rw [heq]
    exact ⟨hadopt, hoff'⟩
  · rw [heq]
    obtain ⟨hknown, hsession⟩ := htracks hin
    generalize (slot.sessionAdopt e pkt).1 = adopted at *
    have hpushed : Move e (some pkt) (adopted.view e) ((adopted.pushed pkt win).view e) :=
      .push _ pkt win adopted.reorderPending adopted.reorderNackNum rfl hearly' hdata hping hknown
        hsession hpush fun hp => absurd (hoff'.symm.trans hp) Bool.false_ne_true
    have hdrain := (Slot.slotDrainRecvWindow_moves ⟨pkt, rfl, .inr ⟨hdata, hping⟩⟩
      (fun _ => .inl hoff') (.inl hpeer') (Window.recvPush_wf hinv.wf hpush) :
      Moves e (some pkt) ((adopted.pushed pkt win).view e) _ ∧ _).1
    exact ⟨hadopt.trans (.head hpushed hdrain), slotDrainRecvWindow_off hpeer' hoff'⟩

-- What one critical section of a TCP service does to the slot its paths share.
inductive Shift (e : Env) : View → View → Prop
  | packet (v v' : View) (pkt : Packet)
      (hmoves : Moves e (some pkt) (v.emit (.recv pkt)) v') : Shift e v v'
  | poll (v v' : View) (hmoves : Moves e none (v.emit .poll) v') : Shift e v v'
  | same (v : View) : Shift e v v
  | sync (v : View) (alive : Bool) (evs : List Event) (hevs : ∀ ev ∈ evs, ev.isPath = true) :
      Shift e v (v.synced e alive evs)
  | cut (v : View) :
      Shift e v { v with known := false, pendingFin := false, frag := Reassembly.empty }
  | resetAll (v : View) (sendWindow : Window) :
      Shift e v { v with
        known := false, pendingFin := false, frag := Reassembly.empty, sendWindow := sendWindow
        alive := false }

theorem view_closeOthers (ctx : TcpCtx) (path : Path) :
    (ctx.closeOthers e path).toSlot.view e = ctx.toSlot.view e := by
  refine Run.foldl_preserves (P := fun ctx' : TcpCtx => ctx'.toSlot.view e = ctx.toSlot.view e)
    (fun ctx' k h => ?_) rfl _
  exact h

theorem handlePing_moves (ctx : TcpCtx) {cur : Option Packet} (path : Path)
    (hpeer : ctx.peer = none) :
    Moves e cur (ctx.toSlot.view e) ((ctx.handlePing e pkt path).toSlot.view e) := by
  unfold handlePing
  split
  · exact Slot.syncPathState_moves ((ctx.toSlot.tickOnce.setPathPingState path
      PING_STATE_NORMAL).applyRemotePathPingState pkt.payload) (.inl hpeer)
  · exact Slot.syncPathState_moves (ctx.toSlot.tickOnce.setPathPingState path PING_STATE_NORMAL)
      (.inl hpeer)

theorem checkPingTimeout_moves (ctx : TcpCtx) (path : Path) (hpeer : ctx.peer = none) :
    Moves e none (ctx.toSlot.view e) ((ctx.checkPingTimeout e path).toSlot.view e) := by
  unfold checkPingTimeout
  split
  · exact .refl
  dsimp only
  split
  · exact Slot.syncPathState_moves (ctx.toSlot.tickOnce.setPathPingState path PING_STATE_ABNORMAL)
      (.inl hpeer)
  · exact .refl

theorem step_packet_moves (hlex : e.plat.CmpLex) (h : ctx.Ok e) (hoff : ctx.reorderPending = false)
    {path : Path} (pkt : Packet) (hrunning : ctx.running path = true) :
    Moves e (some pkt) ((ctx.toSlot.view e).emit (.recv pkt))
        ((ctx.step e (.packet path pkt)).toSlot.view e) ∧
      (ctx.step e (.packet path pkt)).reorderPending = false := by
  have hok := Slot.emit_ok h.slot (.recv pkt)
  have hearly : ((ctx.toSlot.emit (.recv pkt)).view e).Early := Slot.recv_early pkt
  have hpeer : (ctx.toSlot.emit (.recv pkt)).peer = none := h.peer
  rw [step_packet_eq ctx pkt hrunning]
  split
  · exact ⟨.refl, hoff⟩
  split
  · exact ⟨(Slot.dispatchFin_moves hlex hok rfl hearly).1, dispatchFin_off hlex hpeer hoff hearly⟩
  split
  · have hstill := handlePing_still (e := e)
      { ctx with toSlot := ctx.toSlot.emit (.recv pkt) } pkt path
    exact ⟨handlePing_moves { ctx with toSlot := ctx.toSlot.emit (.recv pkt) } path h.peer,
      hstill.pending.trans hoff⟩
  rename_i hping
  split
  · rename_i hdata
    exact acceptData_moves hlex hpeer hok hoff hearly hdata (by simpa using hping)
  · exact ⟨.refl, hoff⟩

theorem step_shift (hlex : e.plat.CmpLex) (h : ctx.Ok e) (hoff : ctx.reorderPending = false)
    (input : Input) :
    Shift e (ctx.toSlot.view e) ((ctx.step e input).toSlot.view e) ∧
      (ctx.step e input).reorderPending = false := by
  by_cases hpacket : ∃ path pkt, input = .packet path pkt
  · obtain ⟨path, pkt, rfl⟩ := hpacket
    by_cases hrunning : ctx.running path = true
    · obtain ⟨hmoves, hoff'⟩ := step_packet_moves hlex h hoff pkt hrunning
      exact ⟨.packet _ _ pkt hmoves, hoff'⟩
    · have hstep : ctx.step e (.packet path pkt) = ctx := if_neg hrunning
      rw [hstep]
      exact ⟨.same _, hoff⟩
  refine ⟨?_, (step_still ctx fun path pkt heq => hpacket ⟨path, pkt, heq⟩).pending.trans hoff⟩
  cases input with
  | packet path pkt => exact absurd ⟨path, pkt, rfl⟩ hpacket
  | pollTimeout path =>
    change Shift e _ ((if ctx.running path then
      checkPingTimeout e { ctx with toSlot := ctx.toSlot.emit .poll } path else ctx).toSlot.view e)
    split
    · exact .poll _ _ (checkPingTimeout_moves
        { ctx with toSlot := ctx.toSlot.emit .poll } path h.peer)
    · exact .same _
  | connect path =>
    change Shift e _ ((if e.role = .sender then ctx.senderConnect e path else ctx).toSlot.view e)
    unfold senderConnect
    split
    · dsimp only
      split
      · exact .cut _
      · exact .same _
    · exact .same _
  | accept path pkt =>
    change Shift e _
      ((if e.role = .receiver then ctx.receiverAccept e path pkt else ctx).toSlot.view e)
    unfold receiverAccept
    split
    · split
      · exact .same _
      · exact .same _
      · rw [← view_closeOthers ctx path]
        exact .cut _
    · exact .same _
  | leave path =>
    obtain ⟨evs, hevs, hv⟩ := Slot.view_syncPathStateLocked
      (ctx.toSlot.setPathPingState path PING_STATE_UNDEFINED)
      ((ctx.toSlot.setPathPingState path PING_STATE_UNDEFINED).nextPathStates e)
    change Shift e _ ((Slot.syncPathStateLocked e _ _).view e)
    rw [hv]
    exact .sync _ _ evs hevs
  | resetAll =>
    change Shift e _ (ctx.resetAllPathsDisconnected.toSlot.view e)
    unfold resetAllPathsDisconnected
    split
    · exact .same _
    · exact .resetAll _ _
  | start path => exact .same _
  | exit path => exact .same _
  | close path => exact .same _
  | release => exact .same _

theorem opened_ok (sessionId : UInt32) (sessionTs : Timespec)
    (destAddr : Path → Endpoint) : (opened e sessionId sessionTs destAddr).Ok e :=
  ⟨rfl, Slot.opened_ok sessionId sessionTs destAddr⟩

end

end TcpCtx

end Porter
