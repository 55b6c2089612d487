import Porter.Delivery.Order

namespace Porter

open View

namespace Slot

-- The copy of a DATA packet of the session that a path delivers, or a quiet moment.
def Input.IsCopy (e : Env) (session : SessionHdr) : Input → Prop
  | .packet path _ pkt =>
      path.val < e.nPath ∧ pkt.IsData ∧ pkt.session = session ∧ pkt.seqNum.toNat < 2 ^ 31
  | .pollTimeout => True

instance (e : Env) (session : SessionHdr) : ∀ input, Decidable (Input.IsCopy e session input)
  | .packet path _ pkt => inferInstanceAs (Decidable (path.val < e.nPath ∧ pkt.IsData ∧
      pkt.session = session ∧ pkt.seqNum.toNat < 2 ^ 31))
  | .pollTimeout => .isTrue trivial

-- The packet that arrives is later than everything handed over so far.
def NotBehind (e : Env) (slot : Slot) : Input → Prop
  | .packet _ _ pkt => ∀ t ∈ handedSeqs e slot.log, t < pkt.seqNum.toNat
  | .pollTimeout => True

instance (e : Env) (slot : Slot) : ∀ input, Decidable (slot.NotBehind e input)
  | .packet _ _ pkt =>
      inferInstanceAs (Decidable (∀ t ∈ handedSeqs e slot.log, t < pkt.seqNum.toNat))
  | .pollTimeout => .isTrue trivial

section

variable {e : Env} {slot : Slot} {session : SessionHdr}

theorem Input.IsCopy.cur {input : Input} (h : input.IsCopy e session) {pkt : Packet}
    (hcur : input.cur = some pkt) :
    pkt.session = session ∧ pkt.seqNum.toNat < 2 ^ 31 ∧ pkt.has FLAG_REJECT = false := by
  cases input with
  | pollTimeout => cases hcur
  | packet path sender copy =>
    obtain rfl := Option.some.inj hcur
    exact ⟨h.2.2.1, h.2.2.2, h.2.1.reject⟩

private theorem limit_le : 2 ^ 31 + e.windowSize ≤ 4294967296 := by
  have := e.windowSize_le
  simp only [MAX_WINDOW_SIZE] at this
  omega

theorem step_raw_ordered (hlex : e.plat.CmpLex) {input : Input} (hcopy : input.IsCopy e session)
    (hahead : slot.NotBehind e input) (hpeer : slot.peer = none) (hok : Ok e slot)
    (h : (slot.view e).Ordered e session (2 ^ 31) True none) :
    ((slot.step e input).view e).Ordered e session (2 ^ 31) True none := by
  refine step_ordered hlex limit_le (fun _ => trivial) (fun pkt => hcopy.cur) hpeer hok h h.behind
    fun _ _ pkt hcur => ?_
  cases input with
  | pollTimeout => cases hcur
  | packet path sender copy =>
    obtain rfl := Option.some.inj hcur
    exact hahead

-- What happens to a copy that is behind

theorem log_extends_of_moves {cur : Option Packet} {slot' : Slot}
    (h : Moves e cur (slot.view e) (slot'.view e)) : ∃ rest, slot'.log = slot.log ++ rest :=
  Moves.log_extends h

theorem slotDrain_pops {pkt : Packet} {win : Window} (hwf : slot.recvWindow.RecvWF)
    (hraw : e.type.isRawType = true) (hpeer : slot.peer = none) (halive : slot.healthAlive = true)
    (hpop : slot.recvWindow.recvPop = some (pkt, win)) (hcur : Drains (some pkt)) :
    ∃ rest, (slot.slotDrainRecvWindow e).1.log =
      slot.log ++ (slot.peerId, .pop pkt true) :: rest := by
  obtain ⟨n, hn⟩ := Nat.exists_eq_succ_of_ne_zero hwf.size_pos.ne'
  generalize hfirst : deliverPacket e
    (emit { slot with recvWindow := win } (.pop pkt slot.healthAlive)) pkt = first
  have hdrain : slot.drainLoop e slot.recvWindow.windowSize = first.drainLoop e n := by
    rw [hn, drainLoop_succ n hpop, hfirst]
  have hview : first.view e = (slot.view e).popped e pkt win := by
    rw [← hfirst]
    exact view_deliverPacket slot pkt win
  have hfirstPeer : first.peer = none :=
    (congrArg View.peer hview).trans ((popped_peer pkt win).trans hpeer)
  have hmoves : Moves e (some pkt) (first.view e) ((first.drainLoop e n).view e) :=
    drainLoop_moves n hcur (fun h => by rw [h] at hraw; cases hraw) (.inl hfirstPeer)
  have hall : Moves e (some pkt) (first.view e) ((slot.slotDrainRecvWindow e).1.view e) := by
    rw [slotDrainRecvWindow_eq, hdrain]
    split
    · rename_i hreached
      exact hmoves.trans (finFire_moves (closes_of_reached hreached))
    · exact hmoves
  obtain ⟨rest, hrest⟩ := log_extends_of_moves hall
  obtain ⟨out, hout⟩ := popped_log (v := slot.view e) pkt win
  have hlog : first.log = ((slot.view e).popped e pkt win).log := congrArg View.log hview
  have hconnected : (slot.view e).alive = true := halive
  rw [hrest, hlog, hout, hconnected]
  simp only [View.emit, View.emits, List.map_cons, List.map_nil, List.append_assoc]
  exact ⟨_, rfl⟩

-- Between two states the packet is handed over, whatever else happens.
def Hands (slot slot' : Slot) (pkt : Packet) : Prop :=
  ∃ acts p rest, slot'.log = slot.log ++ acts ++ (p, .pop pkt true) :: rest

theorem Hands.of_extends {slot₁ slot₂ : Slot} {pkt : Packet} (h : slot₁.Hands slot₂ pkt)
    (hlog : ∃ acts, slot₁.log = slot.log ++ acts) : slot.Hands slot₂ pkt := by
  obtain ⟨acts, p, rest, heq⟩ := h
  obtain ⟨first, hfirst⟩ := hlog
  exact ⟨first ++ acts, p, rest, by rw [heq, hfirst, List.append_assoc slot.log]⟩

theorem acceptOuter_hands {pkt : Packet} {pushed : Slot} (path : Path)
    (hraw : e.type.isRawType = true) (hdata : pkt.IsData)
    (hpush : slot.acceptPush e pkt = (pushed, true)) (hpeer : pushed.peer = none)
    (hwf : pushed.recvWindow.RecvWF) (hneeds : pushed.recvWindow.recvNeedsNack = none)
    (hhead : pushed.recvWindow.held pushed.recvWindow.nextSeq = some pkt) :
    pushed.Hands (slot.acceptOuter e pkt path) pkt := by
  have hdrains : Drains (some pkt) := ⟨pkt, rfl, .inr ⟨hdata.data, hdata.ping⟩⟩
  generalize hoff : ({ pushed with reorderPending := false } : Slot) = quiet
  have hgap : pushed.acceptGap e pkt = (quiet, true) := by rw [acceptGap_none hneeds, hoff]
  have hquiet : quiet.log = pushed.log ∧ quiet.recvWindow = pushed.recvWindow ∧
      quiet.peer = pushed.peer := by
    rw [← hoff]
    exact ⟨rfl, rfl, rfl⟩
  have hwin : (quiet.acceptHealth e pkt path).recvWindow = pushed.recvWindow := by
    rw [acceptHealth_recvWindow, hquiet.2.1]
  have halive := acceptHealth_alive (hquiet.2.2.trans hpeer) (oneway_of_raw hraw) hdata.data path
  obtain ⟨acts, hacts⟩ := log_extends_of_moves
    (acceptHealth_moves quiet pkt path : Moves e (some pkt) _ _ ∧ _).1
  have hpop : (quiet.acceptHealth e pkt path).recvWindow.recvPop =
      some (pkt, pushed.recvWindow.dropNext) := by
    rw [hwin]
    exact (Window.recvPop_eq_some hwf).mpr ⟨hhead, rfl⟩
  have hnone : (quiet.acceptHealth e pkt path).peer = none :=
    (Moves.peer_eq (acceptHealth_moves quiet pkt path : Moves e none _ _ ∧ _).1).trans
      (hquiet.2.2.trans hpeer)
  obtain ⟨rest, hrest⟩ := slotDrain_pops (hwin ▸ hwf) hraw hnone halive hpop hdrains
  rw [hacts, hquiet.1] at hrest
  rw [acceptOuter_eq, hpush]
  simp only [hgap, Bool.not_true, Bool.false_eq_true, if_false]
  split
  · obtain ⟨more, hmore⟩ := log_extends_of_moves (acceptPostDrain_moves
      ((quiet.acceptHealth e pkt path).slotDrainRecvWindow e).1 : Moves e (some pkt) _ _ ∧ _).1
    exact ⟨acts, _, rest ++ more, by rw [hmore, hrest, List.append_assoc]; rfl⟩
  · exact ⟨acts, _, rest, hrest⟩

theorem init_push_head {pkt : Packet} {win : Window}
    (hpush : (Window.init pkt.seqNum e.windowSize).recvPush pkt = some win) :
    win.RecvWF ∧ win.held win.nextSeq = some pkt := by
  have hwf : (Window.init pkt.seqNum e.windowSize).RecvWF :=
    Window.init_wf e.windowSize_pos e.windowSize_le
  refine ⟨Window.recvPush_wf hwf hpush, ?_⟩
  rw [Window.recvPush_held hwf hpush, Window.recvPush_nextSeq hpush]
  simp

theorem acceptOuter_behind {pkt : Packet} (path : Path) (hraw : e.type.isRawType = true)
    (hdata : pkt.IsData) (hpeer : slot.peer = none) (hinv : Inv e (slot.view e))
    (hbehind : slot.recvWindow.recvPush pkt = none) :
    slot.Hands (slot.acceptOuter e pkt path) pkt := by
  obtain ⟨win, hpush, hneeds⟩ := init_push pkt e.windowSize_pos
  obtain ⟨hwf, hhead⟩ := init_push_head hpush
  have hmoves : Moves e (some pkt) (slot.view e) _ := rawSessionDisconnect_moves slot
  have hstart : slot.acceptPush e pkt =
      (((slot.rawSessionDisconnect e).resetRecvWindow pkt.seqNum).pushed pkt win, true) := by
    rw [acceptPush_none hbehind, if_pos hraw, rawResync_eq hinv.size hpush]
  refine (acceptOuter_hands path hraw hdata hstart ((Moves.peer_eq hmoves).trans hpeer) hwf hneeds
    hhead).of_extends ?_
  obtain ⟨acts, hacts⟩ : ∃ acts, (slot.rawSessionDisconnect e).log = slot.log ++ acts :=
    Moves.log_extends hmoves
  simp only [pushed, resetRecvWindow, emit, emits, hacts, List.append_assoc]
  exact ⟨_, rfl⟩

theorem acceptOuter_first {pkt : Packet} (path : Path) (hraw : e.type.isRawType = true)
    (hdata : pkt.IsData) (hpeer : slot.peer = none)
    (hwin : slot.recvWindow = Window.init pkt.seqNum e.windowSize) :
    slot.Hands (slot.acceptOuter e pkt path) pkt := by
  obtain ⟨win, hpush, hneeds⟩ := init_push pkt e.windowSize_pos
  obtain ⟨hwf, hhead⟩ := init_push_head hpush
  rw [← hwin] at hpush
  exact (acceptOuter_hands path hraw hdata (acceptPush_some hpush) hpeer hwf hneeds
    hhead).of_extends ⟨_, rfl⟩

theorem step_behind (hlex : e.plat.CmpLex) (hraw : e.type.isRawType = true)
    (hrole : e.role = .receiver) {path : Path} {sender : Endpoint} {pkt : Packet}
    (hcopy : (Input.packet path sender pkt).IsCopy e session) (hpeer : slot.peer = none)
    (hok : Ok e slot) (h : (slot.view e).Ordered e session (2 ^ 31) True none)
    (hbehind : ¬ slot.NotBehind e (.packet path sender pkt)) :
    slot.Hands (slot.step e (.packet path sender pkt)) pkt := by
  obtain ⟨hpath, hdata, hsession, hseq⟩ := hcopy
  have hstep : slot.step e (.packet path sender pkt) =
      (slot.emit (.recv pkt)).dispatchPacket e pkt path sender := by
    simp [step, Nat.not_le.mpr hpath, hrole]
  rw [hstep]
  suffices hhands : (slot.emit (.recv pkt)).Hands
      ((slot.emit (.recv pkt)).dispatchPacket e pkt path sender) pkt from
    hhands.of_extends ⟨_, rfl⟩
  cases hknown : slot.peerSessionKnown with
  | false =>
    have hadopt : (slot.emit (.recv pkt)).sessionAdopt e pkt =
        ((slot.emit (.recv pkt)).adoptSession e pkt, true) := if_pos hknown
    rw [dispatchPacket_data hdata path sender hadopt]
    have hview := view_learnSenderPath (e := e) ((slot.emit (.recv pkt)).adoptSession e pkt)
      path sender
    refine (acceptOuter_first path hraw hdata ((congrArg View.peer hview).trans hpeer)
      (congrArg View.win hview)).of_extends ?_
    exact ⟨_, congrArg View.log hview⟩
  | true =>
    have hadopt : (slot.emit (.recv pkt)).sessionAdopt e pkt = (slot.emit (.recv pkt), true) :=
      sessionAdopt_tracked hlex hknown ((h.tracked hknown).trans hsession.symm)
    rw [dispatchPacket_data hdata path sender hadopt]
    have hview := view_learnSenderPath (e := e) (slot.emit (.recv pkt)) path sender
    have hout : slot.recvWindow.recvPush pkt = none := by
      -- The number lies behind `nextSeq`, so modulo 2^32 it is far ahead of the window.
      refine (Window.recvPush_eq_none hok.inv.wf).mpr ?_
      simp only [NotBehind, not_forall, Nat.not_lt] at hbehind
      obtain ⟨t, ht, hle⟩ := hbehind
      have hlt := h.behind trivial hknown t ht
      have hsize := hok.inv.size
      have hnext := h.next
      change t < slot.recvWindow.nextSeq.toNat at hlt
      change slot.recvWindow.windowSize = _ at hsize
      change slot.recvWindow.nextSeq.toNat ≤ _ at hnext
      have hlimit := limit_le (e := e)
      change slot.recvWindow.windowSize ≤ Serial.dist pkt.seqNum slot.recvWindow.nextSeq
      rw [Serial.dist_of_lt (by omega)]
      omega
    refine (acceptOuter_behind path hraw hdata ((congrArg View.peer hview).trans hpeer)
      (hview ▸ (emit_ok hok (.recv pkt)).inv) ?_).of_extends ⟨[], ?_⟩
    · rw [show ((slot.emit (.recv pkt)).learnSenderPath e path sender).recvWindow =
        slot.recvWindow from congrArg View.win hview]
      exact hout
    · exact (congrArg View.log hview).trans (List.append_nil _).symm

theorem not_increasing_of_behind (hlex : e.plat.CmpLex) (hraw : e.type.isRawType = true)
    (hrole : e.role = .receiver) {input : Input} (hcopy : input.IsCopy e session)
    (hpeer : slot.peer = none) (hok : Ok e slot)
    (h : (slot.view e).Ordered e session (2 ^ 31) True none) (hbehind : ¬ slot.NotBehind e input)
    (rest : List Input) :
    ¬ (handedSeqs e (slot.run e (input :: rest)).log).Pairwise (· < ·) := by
  cases input with
  | pollTimeout => exact absurd trivial hbehind
  | packet path sender pkt =>
    obtain ⟨acts, p, more, hlog⟩ := step_behind hlex hraw hrole hcopy hpeer hok h hbehind
    obtain ⟨hok', hpeer'⟩ : Ok e (slot.step e (.packet path sender pkt)) ∧ _ :=
      ⟨(step_moves hlex hpeer hok _).2, step_peer hlex hpeer hok _⟩
    obtain ⟨last, hlast⟩ := run_log_extends hlex hpeer' hok' rest
    have hcb := e.callback_of_receiver hrole
    have hseqs : handedSeqs e (slot.run e (.packet path sender pkt :: rest)).log =
        handedSeqs e slot.log ++ (handedSeqs e acts ++ pkt.seqNum.toNat ::
          handedSeqs e (more ++ last)) := by
      rw [show slot.run e (.packet path sender pkt :: rest) =
        (slot.step e (.packet path sender pkt)).run e rest from rfl, hlast, hlog]
      simp [handedSeqs, handed, hcb]
    simp only [NotBehind, not_forall, Nat.not_lt] at hbehind
    obtain ⟨t, ht, hle⟩ := hbehind
    rw [hseqs, List.pairwise_append]
    intro hpair
    have := hpair.2.2 t ht pkt.seqNum.toNat (by simp)
    omega

end

end Slot

-- The copies of a session reach the application in order, and each at most once, exactly in the
-- runs where no copy arrives behind a packet that was handed over.
theorem raw_copies_in_order_iff (e : Env) (hlex : e.plat.CmpLex) (hraw : e.type.isRawType = true)
    (hrole : e.role = .receiver) (session : SessionHdr) (inputs : List Slot.Input)
    (hcopies : ∀ input ∈ inputs, input.IsCopy e session) (id : UInt32) (ts : Timespec)
    (destAddr : Path → Endpoint) :
    (handedSeqs e ((Slot.opened e id ts destAddr).run e inputs).log).Pairwise (· < ·) ↔
      Run.Meets (Slot.step e) (Slot.NotBehind e) (Slot.opened e id ts destAddr) inputs := by
  have hpeer : (Slot.opened e id ts destAddr).peer = none := rfl
  have hok := Slot.opened_ok (e := e) id ts destAddr
  have hord : ((Slot.opened e id ts destAddr).view e).Ordered e session (2 ^ 31) True none :=
    Slot.opened_ordered id ts destAddr
  generalize Slot.opened e id ts destAddr = slot at hpeer hok hord
  induction inputs generalizing slot with
  | nil => exact ⟨fun _ => trivial, fun _ => hord.incr⟩
  | cons input rest ih =>
      have hcopy := hcopies input List.mem_cons_self
      have hrest := fun i hi => hcopies i (List.mem_cons_of_mem input hi)
      by_cases hahead : slot.NotBehind e input
      · have hiff := ih hrest (slot.step e input) (Slot.step_peer hlex hpeer hok input)
          (Slot.step_moves hlex hpeer hok input).2
          (Slot.step_raw_ordered hlex hcopy hahead hpeer hok hord)
        exact ⟨fun h => ⟨hahead, hiff.mp h⟩, fun h => hiff.mpr h.2⟩
      · exact ⟨fun h => absurd h
          (Slot.not_increasing_of_behind hlex hraw hrole hcopy hpeer hok hord hahead rest),
          fun h => absurd h.1 hahead⟩

theorem raw_copies_in_order_iff_sample :
    (handedSeqs (Env.sample .multicastRaw) ((Slot.sample (Env.sample .multicastRaw)).run
      (Env.sample .multicastRaw)
      [.packet 0 .source (.sampleData 0 [⟨0, [1]⟩]), .pollTimeout,
        .packet 1 .source (.sampleData 1 [⟨0, [2]⟩]),
        .packet 0 .source (.sampleData 3 [⟨0, [4]⟩])]).log).Pairwise (· < ·) :=
  (raw_copies_in_order_iff (Env.sample .multicastRaw) Cplat.reference_cmpLex rfl rfl ⟨5, ⟨9, 0⟩⟩ _
    (by decide) _ _ _).mpr (by decide +kernel)

-- Two paths carry a session: the second path's copy of the first packet comes last and is
-- handed over again.
theorem raw_late_copy_redelivered :
    (∀ input ∈ [Slot.Input.packet 0 .source (.sampleData 0 [⟨0, [1]⟩]),
        .packet 0 .source (.sampleData 1 [⟨0, [2]⟩]),
        .packet 1 .source (.sampleData 0 [⟨0, [1]⟩])],
      input.IsCopy (Env.sample .unicastRaw) ⟨5, ⟨9, 0⟩⟩) ∧
    ¬ (handedSeqs (Env.sample .unicastRaw) ((Slot.sample (Env.sample .unicastRaw)).run
      (Env.sample .unicastRaw)
      [.packet 0 .source (.sampleData 0 [⟨0, [1]⟩]),
        .packet 0 .source (.sampleData 1 [⟨0, [2]⟩]),
        .packet 1 .source (.sampleData 0 [⟨0, [1]⟩])]).log).Pairwise (· < ·) := by
  decide +kernel

end Porter
