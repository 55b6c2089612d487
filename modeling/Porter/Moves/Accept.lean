import Porter.Moves.Refine

namespace Porter.Slot

open View Relation

section

variable {e : Env} {cur : Option Packet} {slot : Slot}

-- The packet at hand as thread_recv_window_accept_outer gets it.
structure Accepting (e : Env) (cur : Option Packet) (slot : Slot) (pkt : Packet) : Prop where
  cur_eq : cur = some pkt
  early : (slot.view e).Early
  data : pkt.has FLAG_DATA = true
  ping : pkt.has FLAG_PING = false
  tracks : Tracks e slot pkt

private theorem push_move {pkt : Packet} {win : Window} {pending : Bool} {nackNum : UInt32}
    (hacc : Accepting e cur slot pkt) (hpush : slot.recvWindow.recvPush pkt = some win)
    (htimer : Armed e (slot.view e) win cur pending nackNum) :
    Move e cur (slot.view e) { (slot.pushed pkt win).view e with
      pending := pending, nackNum := nackNum } :=
  .push _ pkt win pending nackNum hacc.cur_eq hacc.early hacc.data hacc.ping hacc.tracks.1 hacc.tracks.2
    hpush htimer

private theorem push_off_move {pkt : Packet} {win : Window} (hacc : Accepting e cur slot pkt)
    (hpush : slot.recvWindow.recvPush pkt = some win) :
    Move e cur (slot.view e) { (slot.pushed pkt win).view e with pending := false } :=
  .push _ pkt win false slot.reorderNackNum hacc.cur_eq hacc.early hacc.data hacc.ping
    hacc.tracks.1 hacc.tracks.2 hpush armed_false

private theorem push_nackGap_moves {pkt : Packet} {win : Window} {seq : UInt32}
    (hinv : Inv e (slot.view e)) (hacc : Accepting e cur slot pkt)
    (hpush : slot.recvWindow.recvPush pkt = some win) (hneeds : win.recvNeedsNack = some seq) :
    Moves e cur (slot.view e)
      (((slot.pushed pkt win).nackGap e seq).view e) := by
  have hgap : Gap win cur seq := .inl hneeds
  by_cases hoff : slot.reorderPending = false
  · have harmed : Armed e (slot.view e) win cur slot.reorderPending slot.reorderNackNum := by
      rw [hoff]
      exact armed_false
    exact .head (push_move hacc hpush harmed) (nackGap_moves hgap)
  · -- The timer runs, so this is a 1:1 service with a reorder timeout.
    have hpeer : ¬ slot.peer.isSome = true := fun h =>
      hoff (hinv.timer (.inl (Option.isSome_iff_ne_none.mp h)))
    have hms : e.reorderTimeoutMs ≠ 0 := fun h => hoff (hinv.timer (.inr h))
    rw [nackGap_eq, slotGapReady_of_not_peer (show ¬ (slot.pushed pkt win).peer.isSome = true from hpeer)]
    rcases reorderGapReady_cases (slot.pushed pkt win) seq with
      ⟨-, h0, -⟩ | ⟨hr, -, -, -, hv⟩ | ⟨hr, hpos, hv⟩
    · exact absurd h0 hms
    · rw [hr, if_pos rfl]
      refine .head (push_off_move hacc hpush) ?_
      rw [← hv]
      refine slotSendNack_moves ?_
      rw [reorderGapReady_recvWindow]
      exact hgap
    · rw [hr, if_neg Bool.false_ne_true, hv]
      exact .single (push_move hacc hpush
        fun _ => ⟨Option.not_isSome_iff_eq_none.mp hpeer, hpos, hgap⟩)

theorem init_push (pkt : Packet) (hpos : 0 < e.windowSize) :
    ∃ win, (Window.init pkt.seqNum e.windowSize).recvPush pkt = some win ∧
      win.recvNeedsNack = none := by
  have hwf : (Window.init pkt.seqNum e.windowSize).RecvWF :=
    Window.init_wf hpos e.windowSize_le
  cases hpush : (Window.init pkt.seqNum e.windowSize).recvPush pkt with
  | none =>
    have hge := (Window.recvPush_eq_none hwf).mp hpush
    rw [Window.init_nextSeq, Serial.dist_self] at hge
    exact absurd hge (Nat.not_le.mpr hpos)
  | some win =>
    refine ⟨win, rfl, ?_⟩
    rw [Window.recvNeedsNack_eq_none (Window.recvPush_wf hwf hpush),
      Window.recvPush_nextSeq hpush, Window.recvPush_held hwf hpush]
    simp

theorem rawSessionDisconnect_recvWindow (slot : Slot) :
    (slot.rawSessionDisconnect e).recvWindow = slot.recvWindow := by
  obtain ⟨evs, -, hv⟩ := view_rawSessionDisconnect slot
  have h := congrArg View.win hv
  rwa [synced_win] at h

theorem rawResync_eq {pkt : Packet} {win : Window}
    (hsize : slot.recvWindow.windowSize = e.windowSize)
    (hpush : (Window.init pkt.seqNum e.windowSize).recvPush pkt = some win) :
    slot.rawResync e pkt =
      (((slot.rawSessionDisconnect e).resetRecvWindow pkt.seqNum).pushed pkt win, true) := by
  have hreset : ((slot.rawSessionDisconnect e).resetRecvWindow pkt.seqNum).recvWindow =
      Window.init pkt.seqNum e.windowSize := by
    change (slot.rawSessionDisconnect e).recvWindow.recvReset pkt.seqNum = _
    rw [rawSessionDisconnect_recvWindow, Window.recvReset_eq, hsize]
  unfold rawResync pushRecvWindow
  rw [hreset, hpush]

theorem rawResync_moves {pkt : Packet} (hraw : e.type.isRawType = true)
    (hinv : Inv e (slot.view e)) (hacc : Accepting e cur slot pkt) :
    (slot.rawResync e pkt).2 = true ∧
      (slot.rawResync e pkt).1.recvWindow.recvNeedsNack = none ∧
      (slot.rawResync e pkt).1.reorderPending = slot.reorderPending ∧
      Moves e cur (slot.view e) { (slot.rawResync e pkt).1.view e with pending := false } := by
  obtain ⟨evs, hevs, hv⟩ := view_rawSessionDisconnect slot
  obtain ⟨win, hpush, hneeds⟩ := init_push pkt e.windowSize_pos
  have hpending : (slot.rawSessionDisconnect e).reorderPending = slot.reorderPending := by
    have h := congrArg View.pending hv
    rwa [synced_pending] at h
  rw [rawResync_eq hinv.size hpush]
  refine ⟨rfl, hneeds, hpending, ?_⟩
  refine (rawSessionDisconnect_moves slot).trans ?_
  have hknown : ((slot.rawSessionDisconnect e).view e).known = true := by
    rw [hv]
    exact (synced_known false evs).trans hacc.tracks.1
  have hsession : ((slot.rawSessionDisconnect e).view e).session = pkt.session := by
    rw [hv]
    exact (synced_session false evs).trans hacc.tracks.2
  have hdead : ((slot.rawSessionDisconnect e).view e).alive = false := by
    rw [hv]
    exact synced_alive false evs
  have hearly : ((slot.rawSessionDisconnect e).view e).Early := by
    rw [hv]
    exact Early.synced hacc.early false evs
  refine .head (.reset _ pkt hacc.cur_eq hearly hraw hdead) (.single ?_)
  have hacc' : Accepting e cur ((slot.rawSessionDisconnect e).resetRecvWindow pkt.seqNum) pkt :=
    ⟨hacc.cur_eq, hearly.emit rfl, hacc.data, hacc.ping, hknown, hsession⟩
  refine push_off_move hacc' ?_
  change ((slot.rawSessionDisconnect e).recvWindow.recvReset pkt.seqNum).recvPush pkt = some win
  rw [rawSessionDisconnect_recvWindow, Window.recvReset_eq, ← hpush]
  exact congrArg (fun n => (Window.init pkt.seqNum n).recvPush pkt) hinv.size

private theorem push_rawResync_moves {pkt : Packet} {win : Window} {slot' : Slot}
    (hraw : e.type.isRawType = true) (hinv : Inv e (slot.view e))
    (hacc : Accepting e cur slot pkt) (hpush : slot.recvWindow.recvPush pkt = some win)
    (hv : slot'.view e = { (slot.pushed pkt win).view e with pending := false }) :
    (slot'.rawResync e pkt).2 = true ∧
      Moves e cur (slot.view e) ((slot'.rawResync e pkt).1.view e) := by
  have hmove := push_off_move hacc hpush
  rw [← hv] at hmove
  have htracks : Tracks e slot' pkt := by
    unfold Tracks
    rw [hv]
    exact hacc.tracks
  have hearly : (slot'.view e).Early := by
    rw [hv]
    exact hacc.early.emit rfl
  obtain ⟨hok, -, hpending, hmoves⟩ := rawResync_moves hraw (hmove.inv hinv)
    ⟨hacc.cur_eq, hearly, hacc.data, hacc.ping, htracks⟩
  refine ⟨hok, .head hmove ?_⟩
  have hoff : (slot'.rawResync e pkt).1.reorderPending = false :=
    hpending.trans (congrArg View.pending hv)
  have hsame : (slot'.rawResync e pkt).1.view e =
      { (slot'.rawResync e pkt).1.view e with pending := false } := by
    rw [← hoff]
    rfl
  rw [hsame]
  exact hmoves

-- The state in which the window is drained: the timer is off or the head is missing.
def DrainReady (e : Env) (slot : Slot) : Prop :=
  e.type.isRawType = false → slot.reorderPending = false ∨ slot.recvWindow.recvPop = none

private theorem drainReady_of_needs {seq : UInt32} (hwf : slot.recvWindow.RecvWF)
    (hneeds : slot.recvWindow.recvNeedsNack = some seq) : DrainReady e slot := fun _ =>
  .inr ((Window.recvPop_eq_none hwf).mpr ((Window.recvNeedsNack_eq_some hwf).mp hneeds).2.1)

theorem acceptGap_none {pkt : Packet} (h : slot.recvWindow.recvNeedsNack = none) :
    slot.acceptGap e pkt = ({ slot with reorderPending := false }, true) := by
  unfold acceptGap
  rw [h]

theorem acceptGap_nack {pkt : Packet} {seq : UInt32}
    (h : slot.recvWindow.recvNeedsNack = some seq) (hraw : e.type.isRawType = false) :
    slot.acceptGap e pkt = (slot.nackGap e seq, true) := by
  unfold acceptGap
  rw [h, hraw]
  rfl

theorem acceptGap_raw {pkt : Packet} {seq : UInt32}
    (h : slot.recvWindow.recvNeedsNack = some seq) (hraw : e.type.isRawType = true) :
    slot.acceptGap e pkt = if (slot.reorderGapReady e seq).2 = true then
      (slot.reorderGapReady e seq).1.rawResync e pkt else ((slot.reorderGapReady e seq).1, true) := by
  unfold acceptGap
  rw [h, hraw]
  rfl

theorem acceptPush_some {pkt : Packet} {win : Window}
    (hpush : slot.recvWindow.recvPush pkt = some win) :
    slot.acceptPush e pkt = (slot.pushed pkt win, true) := by
  unfold acceptPush pushRecvWindow
  rw [hpush]
  rfl

theorem acceptPush_none {pkt : Packet} (hpush : slot.recvWindow.recvPush pkt = none) :
    slot.acceptPush e pkt =
      if e.type.isRawType = true then slot.rawResync e pkt else (slot, false) := by
  unfold acceptPush pushRecvWindow
  rw [hpush]
  rfl

theorem acceptGap_moves {pkt : Packet} (hinv : Inv e (slot.view e))
    (hacc : Accepting e cur slot pkt) (hok : (slot.acceptPush e pkt).2 = true) :
    ((slot.acceptPush e pkt).1.acceptGap e pkt).2 = true ∧
      DrainReady e ((slot.acceptPush e pkt).1.acceptGap e pkt).1 ∧
      Moves e cur (slot.view e) (((slot.acceptPush e pkt).1.acceptGap e pkt).1.view e) := by
  cases hpush : slot.recvWindow.recvPush pkt with
  | none =>
    rw [acceptPush_none hpush] at hok ⊢
    by_cases hraw : e.type.isRawType = true
    · rw [if_pos hraw] at hok ⊢
      obtain ⟨-, hneeds, -, hmoves⟩ := rawResync_moves hraw hinv hacc
      rw [acceptGap_none hneeds]
      exact ⟨rfl, fun _ => .inl rfl, hmoves⟩
    · rw [if_neg hraw] at hok
      exact (Bool.false_ne_true hok).elim
  | some win =>
    rw [acceptPush_some hpush]
    have hwf : (slot.pushed pkt win).recvWindow.RecvWF := Window.recvPush_wf hinv.wf hpush
    cases hneeds : (slot.pushed pkt win).recvWindow.recvNeedsNack with
    | none =>
      rw [acceptGap_none hneeds]
      exact ⟨rfl, fun _ => .inl rfl, .single (push_off_move hacc hpush)⟩
    | some seq =>
      by_cases hraw : e.type.isRawType = true
      · rw [acceptGap_raw hneeds hraw]
        have hpeer : slot.peer = none := by
          by_contra hp
          rw [hinv.kind hp] at hraw
          exact Bool.false_ne_true hraw
        have hnraw : ∀ slot : Slot, DrainReady e slot := fun _ h =>
          (Bool.false_ne_true (h.symm.trans hraw)).elim
        rcases reorderGapReady_cases (slot.pushed pkt win) seq with
          ⟨hr, hms, hs⟩ | ⟨hr, -, -, -, hv⟩ | ⟨hr, hpos, hv⟩
        · rw [hr, if_pos rfl, hs]
          have hoff : slot.reorderPending = false := hinv.timer (.inr hms)
          have hv : (slot.pushed pkt win).view e =
              { (slot.pushed pkt win).view e with pending := false } := by
            rw [← hoff]
            rfl
          obtain ⟨hres, hmoves⟩ := push_rawResync_moves hraw hinv hacc hpush hv
          exact ⟨hres, hnraw _, hmoves⟩
        · rw [hr, if_pos rfl]
          obtain ⟨hres, hmoves⟩ := push_rawResync_moves hraw hinv hacc hpush hv
          exact ⟨hres, hnraw _, hmoves⟩
        · rw [hr, if_neg Bool.false_ne_true]
          refine ⟨rfl, hnraw _, ?_⟩
          rw [hv]
          exact .single (push_move hacc hpush fun _ => ⟨hpeer, hpos, .inl hneeds⟩)
      · have hraw' : e.type.isRawType = false := by simpa using hraw
        rw [acceptGap_nack hneeds hraw']
        refine ⟨rfl, ?_, push_nackGap_moves hinv hacc hpush hneeds⟩
        exact drainReady_of_needs (by rw [nackGap_recvWindow]; exact hwf)
          (by rw [nackGap_recvWindow]; exact hneeds)

theorem acceptHealth_moves (slot : Slot) (pkt : Packet) (path : Path) :
    Moves e cur (slot.view e) ((slot.acceptHealth e pkt path).view e) ∧
      ((slot.acceptHealth e pkt path).view e).win = (slot.view e).win ∧
      ((slot.acceptHealth e pkt path).view e).pending = (slot.view e).pending := by
  unfold acceptHealth
  split
  · rename_i hguard
    have hnone : slot.peer = none := by
      simp only [Bool.and_eq_true, Option.isNone_iff_eq_none] at hguard
      exact hguard.1.1
    have hmoves : Moves e cur _ _ := syncPathState_moves (slot.updatePathHealth e path) (.inl hnone)
    rw [view_updatePathHealth] at hmoves
    obtain ⟨evs, -, hv⟩ := view_syncPathStateLocked (slot.updatePathHealth e path)
      ((slot.updatePathHealth e path).nextPathStates e)
    refine ⟨hmoves, ?_⟩
    unfold syncPathState
    rw [hv, synced_win, synced_pending, view_updatePathHealth]
    exact ⟨rfl, rfl⟩
  · exact ⟨.refl, rfl, rfl⟩

theorem oneway_of_raw (hraw : e.type.isRawType = true) :
    e.type.isTcpType = false ∧ e.type ≠ .unicastBidir := by
  revert hraw
  cases e.type <;> decide

theorem acceptHealth_alive (hpeer : slot.peer = none)
    (honeway : e.type.isTcpType = false ∧ e.type ≠ .unicastBidir)
    {pkt : Packet} (hdata : pkt.has FLAG_DATA = true) (path : Path) :
    (slot.acceptHealth e pkt path).healthAlive = true := by
  obtain ⟨htcp, hbidir⟩ := honeway
  have hstates : ((slot.updatePathHealth e path).nextPathStates e) path = true := by
    have hnone : (slot.updatePathHealth e path).peer.isSome = false := by
      change slot.peer.isSome = false
      rw [hpeer]
      rfl
    unfold nextPathStates
    rw [hnone, htcp, if_neg Bool.false_ne_true, if_neg Bool.false_ne_true, if_neg hbidir]
    simp [copyOnewayPathStates, updatePathHealth, setPathPingState, pathStateIsNormal]
  have hany : anyPathAlive ((slot.updatePathHealth e path).nextPathStates e) = true :=
    List.any_eq_true.mpr ⟨path, List.mem_finRange path, hstates⟩
  unfold acceptHealth
  rw [hpeer, hdata]
  simp only [Option.isNone_none, Bool.and_self, decide_eq_true hbidir, if_true]
  obtain ⟨evs, -, hv⟩ := view_syncPathStateLocked (slot.updatePathHealth e path)
    ((slot.updatePathHealth e path).nextPathStates e)
  have halive := congrArg View.alive hv
  rw [synced_alive] at halive
  exact halive.trans hany

theorem acceptHealth_recvWindow (pkt : Packet) (path : Path) :
    (slot.acceptHealth e pkt path).recvWindow = slot.recvWindow :=
  ((acceptHealth_moves slot pkt path : Moves e none _ _ ∧ _)).2.1

theorem acceptPostDrain_moves (slot : Slot) :
    Moves e cur (slot.view e) ((slot.acceptPostDrain e).view e) ∧
      (slot.acceptPostDrain e).recvWindow = slot.recvWindow := by
  unfold acceptPostDrain
  split
  · exact ⟨.single (timerOff_move _), rfl⟩
  · rename_i seq hneeds
    split
    · exact ⟨.refl, rfl⟩
    · exact ⟨nackGap_moves (.inl hneeds), nackGap_recvWindow slot seq⟩

theorem rawResync_active (slot : Slot) (pkt : Packet) :
    (slot.rawResync e pkt).1.active = slot.active := by
  obtain ⟨evs, -, hv⟩ := view_rawSessionDisconnect slot
  have hcut : (slot.rawSessionDisconnect e).active = slot.active :=
    (congrArg View.active hv).trans (synced_active false evs)
  unfold rawResync pushRecvWindow
  split
  · exact hcut
  · exact hcut

theorem acceptPush_active (slot : Slot) (pkt : Packet) :
    (slot.acceptPush e pkt).1.active = slot.active := by
  cases hpush : slot.recvWindow.recvPush pkt with
  | none =>
    rw [acceptPush_none hpush]
    split
    · exact rawResync_active slot pkt
    · rfl
  | some win =>
    rw [acceptPush_some hpush]
    rfl

theorem acceptGap_active (slot : Slot) (pkt : Packet) :
    (slot.acceptGap e pkt).1.active = slot.active := by
  cases hneeds : slot.recvWindow.recvNeedsNack with
  | none =>
    rw [acceptGap_none hneeds]
  | some seq =>
    by_cases hraw : e.type.isRawType = true
    · rw [acceptGap_raw hneeds hraw]
      split
      · rw [rawResync_active, reorderGapReady_active]
      · exact reorderGapReady_active slot seq
    · rw [acceptGap_nack hneeds (by simpa using hraw)]
      exact nackGap_active slot seq

theorem acceptHealth_active (slot : Slot) (pkt : Packet) (path : Path) :
    (slot.acceptHealth e pkt path).active = slot.active := by
  unfold acceptHealth
  split
  · obtain ⟨evs, -, hv⟩ := view_syncPathStateLocked (slot.updatePathHealth e path)
      ((slot.updatePathHealth e path).nextPathStates e)
    exact (congrArg View.active hv).trans (synced_active _ evs)
  · rfl

def HeadEmpty (slot : Slot) : Prop := slot.recvWindow.held slot.recvWindow.nextSeq = none

theorem acceptOuter_eq (slot : Slot) (pkt : Packet) (path : Path) :
    slot.acceptOuter e pkt path =
      if !(slot.acceptPush e pkt).2 then (slot.acceptPush e pkt).1
      else if !((slot.acceptPush e pkt).1.acceptGap e pkt).2 then
        ((slot.acceptPush e pkt).1.acceptGap e pkt).1
      else if ((((slot.acceptPush e pkt).1.acceptGap e pkt).1.acceptHealth e pkt
          path).slotDrainRecvWindow e).2 then
        ((((slot.acceptPush e pkt).1.acceptGap e pkt).1.acceptHealth e pkt
          path).slotDrainRecvWindow e).1.acceptPostDrain e
      else ((((slot.acceptPush e pkt).1.acceptGap e pkt).1.acceptHealth e pkt
          path).slotDrainRecvWindow e).1 := (rfl)

theorem acceptOuter_moves {pkt : Packet} (path : Path) (hinv : Inv e (slot.view e))
    (hhead : slot.HeadEmpty) (hacc : Accepting e cur slot pkt)
    (hused : slot.peer = none ∨ slot.active = true) :
    Moves e cur (slot.view e) ((slot.acceptOuter e pkt path).view e) ∧
      (slot.acceptOuter e pkt path).HeadEmpty := by
  rw [acceptOuter_eq]
  by_cases hok : (slot.acceptPush e pkt).2 = true
  · obtain ⟨hgap, hready, hmoves⟩ := acceptGap_moves hinv hacc hok
    rw [hok, hgap]
    simp only [Bool.not_true, Bool.false_eq_true, if_false]
    have hactive : ((slot.acceptPush e pkt).1.acceptGap e pkt).1.active = slot.active :=
      (acceptGap_active _ pkt).trans (acceptPush_active slot pkt)
    generalize ((slot.acceptPush e pkt).1.acceptGap e pkt).1 = gapped at hready hmoves hactive ⊢
    obtain ⟨hhmoves, hhwin, hhpending⟩ :=
      (acceptHealth_moves gapped pkt path : Moves e cur _ _ ∧ _)
    have hmid := hmoves.trans hhmoves
    have hwf := (Moves.inv hmid hinv).wf
    have hready' : DrainReady e (gapped.acceptHealth e pkt path) := by
      intro hraw
      rcases hready hraw with h | h
      · exact .inl (hhpending.trans h)
      · exact .inr ((congrArg Window.recvPop hhwin).trans h)
    have hused' : (gapped.acceptHealth e pkt path).peer = none ∨
        (gapped.acceptHealth e pkt path).active = true :=
      hused.imp (Moves.peer_eq hmid).trans ((acceptHealth_active gapped pkt path).trans hactive).trans
    obtain ⟨hdrain, hempty⟩ :=
      (slotDrainRecvWindow_moves ⟨pkt, hacc.cur_eq, .inr ⟨hacc.data, hacc.ping⟩⟩ hready' hused' hwf :
        Moves e cur _ _ ∧ _)
    split
    · obtain ⟨hpost, hwin⟩ := (acceptPostDrain_moves
        ((gapped.acceptHealth e pkt path).slotDrainRecvWindow e).1 : Moves e cur _ _ ∧ _)
      refine ⟨(hmid.trans hdrain).trans hpost, ?_⟩
      unfold HeadEmpty
      rw [hwin]
      exact hempty
    · exact ⟨hmid.trans hdrain, hempty⟩
  · -- Only a retransmitting receiver refuses a packet, and then nothing changes.
    have hsame : (slot.acceptPush e pkt).1 = slot := by
      cases hpush : slot.recvWindow.recvPush pkt with
      | some win =>
        rw [acceptPush_some hpush] at hok
        exact absurd rfl hok
      | none =>
        rw [acceptPush_none hpush] at hok ⊢
        split at hok
        · rename_i hraw
          exact absurd (rawResync_moves hraw hinv hacc).1 hok
        · rename_i hraw
          rw [if_neg hraw]
    rw [Bool.not_eq_true] at hok
    rw [hok, hsame]
    exact ⟨.refl, hhead⟩

end

end Porter.Slot
