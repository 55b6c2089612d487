import Porter.Moves.Quiet

namespace Porter

namespace Window

open Serial

-- The first of the numbers from `seq` on that is not held, if it is among the first `n`.
def firstFree (win : Window) : Nat → UInt32 → UInt32
  | 0, seq => seq
  | n + 1, seq => if (win.held seq).isSome then win.firstFree n (seq + 1) else seq

-- Where reception goes on once the packets at the head of the window are consumed.
def landing (win : Window) : UInt32 := win.firstFree win.windowSize win.nextSeq

section

variable {win : Window}

theorem firstFree_dropNext (hwf : RecvWF win) (n : Nat) {seq : UInt32} (hne : seq ≠ win.nextSeq)
    (hn : dist seq win.nextSeq + n ≤ 4294967296) :
    win.dropNext.firstFree n seq = win.firstFree n seq := by
  induction n generalizing seq with
  | zero => rfl
  | succ n ih =>
    rw [firstFree, firstFree, dropNext_held hwf, if_neg hne]
    cases n with
    | zero => rfl
    | succ n =>
      have hsucc : dist (seq + 1) win.nextSeq = dist seq win.nextSeq + 1 :=
        dist_succ (by omega)
      have hne' : seq + 1 ≠ win.nextSeq := fun h => by
        rw [h, dist_self] at hsucc
        omega
      rw [ih hne' (by omega)]

end

end Window

namespace View

variable {e : Env} {v : View}

theorem popped_dead (hdead : v.alive = false) (pkt : Packet) (win : Window) :
    v.popped e pkt win = emit { v with win := win } (.pop pkt false) := by
  unfold popped
  simp only [hdead, Bool.false_and, Bool.false_eq_true, if_false]

theorem popped_live (halive : v.alive = true) {pkt : Packet} (win : Window)
    (hping : pkt.has FLAG_PING = false) :
    v.popped e pkt win =
      { (emit { v with win := win } (.pop pkt true)).callbackEmits e
          ((v.frag.feedAll e (Packet.unpackAll pkt.payload)).2.map Event.data) with
        frag := (v.frag.feedAll e (Packet.unpackAll pkt.payload)).1 } := by
  unfold popped
  simp only [halive, hping, Bool.not_false, Bool.true_and, if_true]

end View

namespace Slot

open View

section

variable {e : Env} {slot : Slot}

theorem drainLoop_preserves {P : View → Prop} (fuel : Nat)
    (hpop : ∀ v pkt win, v.alive = slot.healthAlive → v.win.recvPop = some (pkt, win) → P v →
      P (v.popped e pkt win)) (h : P (slot.view e)) :
    P ((slot.drainLoop e fuel).view e) := by
  refine (drainLoop_induct (P := fun s => s.healthAlive = slot.healthAlive ∧ P (s.view e)) fuel
    (fun s pkt win hs hp => ?_) ⟨rfl, h⟩).2
  have hview := view_deliverPacket (e := e) s pkt win
  refine ⟨?_, ?_⟩
  · have ha := congrArg View.alive hview
    rw [popped_alive] at ha
    exact ha.trans hs.1
  · rw [hview]
    exact hpop (s.view e) pkt win hs.1 hp hs.2

theorem drainLoop_dead (fuel : Nat) (hdead : slot.healthAlive = false)
    (hwf : slot.recvWindow.RecvWF) (hfuel : fuel ≤ 4294967295) :
    ({ slot.view e with win := (slot.drainLoop e fuel).recvWindow }).Idle
        ((slot.drainLoop e fuel).view e) ∧
      (slot.drainLoop e fuel).recvWindow.nextSeq =
        slot.recvWindow.firstFree fuel slot.recvWindow.nextSeq ∧
      ∀ seq pkt, (slot.drainLoop e fuel).recvWindow.held seq = some pkt →
        slot.recvWindow.held seq = some pkt := by
  induction fuel generalizing slot with
  | zero => exact ⟨.refl _, rfl, fun _ _ h => h⟩
  | succ fuel ih =>
    cases hpop : slot.recvWindow.recvPop with
    | none =>
      have hfree := (Window.recvPop_eq_none hwf).mp hpop
      rw [drainLoop_none _ hpop, Window.firstFree, hfree]
      exact ⟨.refl _, rfl, fun _ _ h => h⟩
    | some found =>
      obtain ⟨pkt, win⟩ := found
      obtain ⟨hheld, rfl⟩ := (Window.recvPop_eq_some hwf).mp hpop
      have hview := view_deliverPacket (e := e) slot pkt slot.recvWindow.dropNext
      rw [popped_dead hdead] at hview
      rw [drainLoop_succ fuel hpop]
      generalize deliverPacket e (Slot.emit { slot with recvWindow := slot.recvWindow.dropNext }
        (.pop pkt slot.healthAlive)) pkt = next at hview ⊢
      have hwin : next.recvWindow = slot.recvWindow.dropNext := congrArg View.win hview
      obtain ⟨hidle, hnext, hsub⟩ := ih ((congrArg View.alive hview).trans hdead)
        (hwin ▸ Window.dropNext_wf hwf) (by omega)
      have hfirst : (slot.view e).Idle { next.view e with win := slot.recvWindow } := by
        rw [hview]
        exact Idle.emit (slot.view e) rfl
      refine ⟨⟨hidle.delivered_eq.trans hfirst.delivered_eq, hidle.known.trans hfirst.known,
        hidle.session.trans hfirst.session, hidle.win, hidle.frag.trans hfirst.frag⟩, ?_, ?_⟩
      · rw [hnext, hwin, Window.dropNext_nextSeq, Window.firstFree, hheld,
          Window.firstFree_dropNext hwf fuel (Serial.succ_ne_self _)]
        · rfl
        · rw [Serial.dist_succ (by rw [Serial.dist_self]; omega), Serial.dist_self]
          omega
      · intro seq other hother
        have := hsub seq other hother
        rw [hwin, Window.dropNext_held hwf] at this
        split at this
        · cases this
        · exact this

theorem slotDrainRecvWindow_quiet (slot : Slot) :
    ((slot.drainLoop e slot.recvWindow.windowSize).view e).Quiet
      ((slot.slotDrainRecvWindow e).1.view e) := by
  rw [slotDrainRecvWindow_eq]
  split
  · exact finFire_quiet _ _
  · exact .inl (.refl _)

-- The end of thread_recv_window_accept_outer: the drain and the gap check after it.
def settle (e : Env) (slot : Slot) : Slot :=
  if (slot.slotDrainRecvWindow e).2 then (slot.slotDrainRecvWindow e).1.acceptPostDrain e
  else (slot.slotDrainRecvWindow e).1

theorem settle_quiet (slot : Slot) :
    ((slot.drainLoop e slot.recvWindow.windowSize).view e).Quiet ((slot.settle e).view e) := by
  unfold settle
  split
  · exact (slotDrainRecvWindow_quiet slot).trans (.inl (acceptPostDrain_idle _))
  · exact slotDrainRecvWindow_quiet slot

def waitOver (e : Env) (slot : Slot) (seq : UInt32) : Bool :=
  e.reorderTimeoutMs = 0 || slot.reorderPending && slot.reorderNackNum = seq &&
    0 ≤ e.plat.timespecCmp (slot.now e) slot.reorderDeadlineTs

theorem reorderGapReady_snd (slot : Slot) (seq : UInt32) :
    (slot.reorderGapReady e seq).2 = slot.waitOver e seq := by
  unfold reorderGapReady waitOver
  by_cases hms : e.reorderTimeoutMs = 0
  · simp [hms]
  · cases hp : slot.reorderPending with
    | false => simp [hms]
    | true =>
      by_cases hn : slot.reorderNackNum = seq
      · by_cases hover : 0 ≤ e.plat.timespecCmp (slot.now e) slot.reorderDeadlineTs
        · simp [hms, hn, hover]
        · simp [hms, hn, hover]
      · simp [hms, hn]

-- Whether a RAW receiver starts over at a DATA packet: the packet is out of the window, or it
-- leaves a gap for which the wait is over.
def startsOver (e : Env) (slot : Slot) (pkt : Packet) : Bool :=
  match slot.recvWindow.recvPush pkt with
  | none => true
  | some win =>
      match win.recvNeedsNack with
      | none => false
      | some seq => slot.waitOver e seq

theorem rawReset_idle (slot : Slot) (seq : UInt32) :
    ({ slot.view e with
        win := slot.recvWindow.recvReset seq, frag := Reassembly.empty } : View).Idle
      (((slot.rawSessionDisconnect e).resetRecvWindow seq).view e) := by
  obtain ⟨evs, hevs, hv⟩ := view_rawSessionDisconnect slot
  have hidle := Idle.synced (e := e) (slot.view e) false hevs
  have hact : (Act.reset seq).message = none := rfl
  have hreset := Idle.emit ((slot.rawSessionDisconnect e).view e) hact
  have hlog : delivered ((slot.rawSessionDisconnect e).view e).log = delivered slot.log := by
    rw [hv]
    exact hidle.delivered_eq
  refine ⟨hreset.delivered_eq.trans hlog, ?_, ?_, ?_, ?_⟩
  · exact (congrArg View.known hv).trans hidle.known
  · exact (congrArg View.session hv).trans hidle.session
  · exact congrArg (Window.recvReset · seq) (rawSessionDisconnect_recvWindow slot)
  · exact (congrArg View.frag hv).trans rfl

private theorem rawResync_idle {pkt : Packet} {win : Window}
    (hsize : slot.recvWindow.windowSize = e.windowSize)
    (hpush : (Window.init pkt.seqNum e.windowSize).recvPush pkt = some win) :
    (slot.rawResync e pkt).2 = true ∧ (slot.rawResync e pkt).1.recvWindow = win ∧
      (slot.rawResync e pkt).1.peer = slot.peer ∧
      ({ slot.view e with win := win, frag := Reassembly.empty } : View).Idle
        ((slot.rawResync e pkt).1.view e) := by
  obtain ⟨evs, -, hv⟩ := view_rawSessionDisconnect slot
  have hpeer : (slot.rawSessionDisconnect e).peer = slot.peer :=
    (congrArg View.peer hv).trans (synced_peer false evs)
  have hreset := rawReset_idle (e := e) slot pkt.seqNum
  have hact : (Act.push pkt).message = none := rfl
  have hentered := Idle.emit
    (((slot.rawSessionDisconnect e).resetRecvWindow pkt.seqNum).view e) hact
  rw [rawResync_eq hsize hpush]
  exact ⟨rfl, rfl, hpeer, hentered.delivered_eq.trans hreset.delivered_eq, hreset.known,
    hreset.session, rfl, hreset.frag⟩

-- What DATA finds when the window is drained: a one-way session is connected by then, any
-- other is as it was.
structure Reached (e : Env) (slot pre : Slot) : Prop where
  oneway : slot.peer = none → e.type.isTcpType = false → e.type ≠ .unicastBidir →
    pre.healthAlive = true
  other : slot.peer ≠ none ∨ e.type = .unicastBidir → pre.healthAlive = slot.healthAlive

private theorem acceptHealth_reached {gapped : Slot} {pkt : Packet} (path : Path)
    (hdata : pkt.has FLAG_DATA = true) (hpeer : gapped.peer = slot.peer)
    (halive : slot.peer ≠ none ∨ e.type = .unicastBidir → gapped.healthAlive = slot.healthAlive) :
    Reached e slot (gapped.acceptHealth e pkt path) where
  oneway hnone htcp hbidir := acceptHealth_alive (hpeer.trans hnone) ⟨htcp, hbidir⟩ hdata path
  other h := by
    have hskip : (gapped.peer.isNone && pkt.has FLAG_DATA && decide (e.type ≠ .unicastBidir)) =
        false := by
      rcases h with h | h
      · rw [hpeer, Option.isNone_eq_false_iff.mpr (Option.isSome_iff_ne_none.mpr h)]
        rfl
      · simp [h]
    unfold acceptHealth
    rw [hskip, if_neg Bool.false_ne_true]
    exact halive h

-- The slot right before the drain, apart from the sign of life: the packet has entered the
-- window or a RAW receiver has started over with it.
def Entered (e : Env) (slot : Slot) (pkt : Packet) (v : View) : Prop :=
  (∃ win, slot.recvWindow.recvPush pkt = some win ∧
    (e.type.isRawType = true → slot.startsOver e pkt = false) ∧
    ({ slot.view e with win := win } : View).Idle v) ∨
  (e.type.isRawType = true ∧ slot.startsOver e pkt = true ∧
    ∃ win, (Window.init pkt.seqNum e.windowSize).recvPush pkt = some win ∧
      ({ slot.view e with win := win, frag := Reassembly.empty } : View).Idle v)

private theorem Entered.idle {pkt : Packet} {v v' : View} (h : Entered e slot pkt v)
    (hidle : v.Idle v') : Entered e slot pkt v' := by
  rcases h with ⟨win, hpush, hover, h⟩ | ⟨hraw, hover, win, hpush, h⟩
  · exact .inl ⟨win, hpush, hover, h.trans hidle⟩
  · exact .inr ⟨hraw, hover, win, hpush, h.trans hidle⟩

private theorem Entered.timerOff {pkt : Packet} {slot' : Slot}
    (h : Entered e slot pkt (slot'.view e)) :
    Entered e slot pkt (view e { slot' with reorderPending := false }) :=
  h.idle ⟨rfl, rfl, rfl, rfl, rfl⟩

private theorem rawResync_entered (slot' : Slot) {pkt : Packet} (hraw : e.type.isRawType = true)
    (hover : slot.startsOver e pkt = true) (hsize : slot'.recvWindow.windowSize = e.windowSize)
    (hpeer : slot'.peer = slot.peer)
    (hsame : ({ slot.view e with win := slot'.recvWindow } : View).Idle (slot'.view e)) :
    ∃ gapped, slot'.rawResync e pkt = (gapped, true) ∧ gapped.peer = slot.peer ∧
      gapped.recvWindow.recvNeedsNack = none ∧ Entered e slot pkt (gapped.view e) := by
  obtain ⟨fresh, hfresh, hneeds⟩ := init_push pkt e.windowSize_pos
  obtain ⟨hok, hwin, hpeer', hidle⟩ := rawResync_idle hsize hfresh
  refine ⟨_, Prod.ext rfl hok, hpeer'.trans hpeer, by rw [hwin]; exact hneeds, .inr ⟨hraw, hover,
    fresh, hfresh, .trans ?_ hidle⟩⟩
  exact ⟨hsame.delivered_eq, hsame.known, hsame.session, rfl, rfl⟩

-- thread_recv_window_accept_outer up to the sign of life.
theorem acceptGap_cases (pkt : Packet) (hinv : Inv e (slot.view e)) :
    (e.type.isRawType = false ∧ slot.recvWindow.recvPush pkt = none ∧
      slot.acceptPush e pkt = (slot, false)) ∨
    ∃ gapped, (slot.acceptPush e pkt).2 = true ∧
      (slot.acceptPush e pkt).1.acceptGap e pkt = (gapped, true) ∧ gapped.peer = slot.peer ∧
      (e.type.isRawType = false → gapped.healthAlive = slot.healthAlive) ∧
      Entered e slot pkt (gapped.view e) := by
  cases hpush : slot.recvWindow.recvPush pkt with
  | none =>
    rw [acceptPush_none hpush]
    by_cases hraw : e.type.isRawType = true
    · have hover : slot.startsOver e pkt = true := by
        unfold startsOver
        rw [hpush]
      obtain ⟨gapped, hsync, hpeer, hneeds, hin⟩ :=
        rawResync_entered slot hraw hover hinv.size rfl (.refl _)
      rw [if_pos hraw, hsync, acceptGap_none hneeds]
      exact .inr ⟨_, rfl, rfl, hpeer, fun h => absurd h (by simp [hraw]), hin.timerOff⟩
    · rw [if_neg hraw]
      exact .inl ⟨by simpa using hraw, rfl, rfl⟩
  | some win =>
    rw [acceptPush_some hpush]
    have hsame : ({ slot.view e with win := win } : View).Idle ((slot.pushed pkt win).view e) :=
      Idle.emit { slot.view e with win := win } rfl
    cases hneeds : win.recvNeedsNack with
    | none =>
      have hover : slot.startsOver e pkt = false := by
        unfold startsOver
        rw [hpush]
        simp only [hneeds]
      rw [acceptGap_none hneeds]
      refine .inr ⟨_, rfl, rfl, rfl, fun _ => rfl, ?_⟩
      exact Entered.timerOff (.inl ⟨win, hpush, fun _ => hover, hsame⟩)
    | some seq =>
      have hready : slot.startsOver e pkt = slot.waitOver e seq := by
        unfold startsOver
        rw [hpush]
        simp only [hneeds]
      by_cases hraw : e.type.isRawType = true
      · have hpushed : ((slot.pushed pkt win).reorderGapReady e seq).2 =
            slot.waitOver e seq := reorderGapReady_snd (slot.pushed pkt win) seq
        have hgap := reorderGapReady_idle (e := e) (slot.pushed pkt win) seq
        rw [acceptGap_raw hneeds hraw, hpushed, ← hready]
        split
        · rename_i hover
          have hsize := (Window.recvPush_windowSize hpush).trans hinv.size
          obtain ⟨gapped, hsync, hpeer, -, hin⟩ := rawResync_entered
            ((slot.pushed pkt win).reorderGapReady e seq).1 hraw hover
            (by rw [reorderGapReady_recvWindow]; exact hsize)
            (reorderGapReady_peer _ _) (by
              rw [reorderGapReady_recvWindow]
              exact hsame.trans hgap)
          exact .inr ⟨gapped, rfl, hsync, hpeer, fun h => absurd h (by simp [hraw]), hin⟩
        · rename_i hover
          refine .inr ⟨_, rfl, rfl, reorderGapReady_peer _ _,
            fun h => absurd h (by simp [hraw]), .inl ⟨win, hpush, fun _ => ?_, hsame.trans hgap⟩⟩
          simpa using hover
      · have hraw' : e.type.isRawType = false := by simpa using hraw
        obtain ⟨pending, nackNum, acts, -, hv⟩ :=
          view_nackGap (slot.pushed pkt win) seq
        rw [acceptGap_nack hneeds hraw']
        refine .inr ⟨_, rfl, rfl, congrArg View.peer hv, fun _ => congrArg View.alive hv,
          .inl ⟨win, hpush, fun h => absurd h hraw, hsame.trans (nackGap_idle _ seq)⟩⟩

theorem acceptOuter_cases {pkt : Packet} (path : Path) (hinv : Inv e (slot.view e))
    (hdata : pkt.has FLAG_DATA = true) :
    (e.type.isRawType = false ∧ slot.recvWindow.recvPush pkt = none ∧
      slot.acceptOuter e pkt path = slot) ∨
    ∃ pre : Slot, slot.acceptOuter e pkt path = pre.settle e ∧ Reached e slot pre ∧
      Entered e slot pkt (pre.view e) := by
  rcases acceptGap_cases pkt hinv with
    ⟨hraw, hpush, hout⟩ | ⟨gapped, hok, hgap, hpeer, halive, hin⟩
  · rw [acceptOuter_eq, hout]
    exact .inl ⟨hraw, hpush, rfl⟩
  · rw [acceptOuter_eq, hok, hgap]
    refine .inr ⟨gapped.acceptHealth e pkt path, rfl, acceptHealth_reached path hdata hpeer ?_,
      hin.idle (acceptHealth_idle gapped pkt path)⟩
    intro h
    refine halive ?_
    rcases h with h | h
    · rw [hinv.kind h]
      rfl
    · rw [h]
      rfl

end

end Slot

end Porter
