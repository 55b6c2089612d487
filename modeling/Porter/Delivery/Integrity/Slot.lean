import Porter.Moves.Peers
import Porter.Moves.Phases
import Porter.Send.Honest

namespace Porter

-- The senders a receiver hears of, at most one for each session.
abbrev Sessions (e : Env) := (session : SessionHdr) → Option (HonestSender e session)

namespace Sessions

variable {e : Env}

def Accepted (sender : Sessions e) (data : Bytes) : Prop :=
  ∃ session h, sender session = some h ∧ data ∈ h.messages

def single {session : SessionHdr} (h : HonestSender e session) : Sessions e := fun other =>
  if heq : session = other then some (heq ▸ h) else none

theorem single_accepted {session : SessionHdr} (h : HonestSender e session) (data : Bytes) :
    (single h).Accepted data ↔ data ∈ h.messages := by
  constructor
  · rintro ⟨other, h', hsome, hdata⟩
    obtain ⟨rfl, hh⟩ := Option.dite_none_right_eq_some.mp hsome
    obtain rfl := Option.some.inj hh
    exact hdata
  · exact fun hdata => ⟨session, h, dif_pos rfl, hdata⟩

end Sessions

-- With the messages that were delivered before.
structure Senders (e : Env) where
  sender : Sessions e
  earlier : List Bytes

namespace Senders

variable {e : Env} (ss : Senders e)

def Genuine (pkt : Packet) : Prop := ∃ h, ss.sender pkt.session = some h ∧ pkt ∈ h.arrivals

instance (pkt : Packet) : Decidable (ss.Genuine pkt) :=
  decidable_of_iff (pkt ∈ (ss.sender pkt.session).elim [] HonestSender.arrivals) (by
    unfold Genuine
    cases ss.sender pkt.session <;> simp)

-- A message that was there before or that one of the senders accepted.
def Sent (data : Bytes) : Prop := data ∈ ss.earlier ∨ ss.sender.Accepted data

-- The fragments are those that wait for their message when the packets of the session before
-- the number `seq` have arrived.
def Precede (frag : Reassembly) (session : SessionHdr) (seq : UInt32) : Prop :=
  match ss.sender session with
  | none => True
  | some h => h.pendingAfter seq.toNat = frag

instance (frag : Reassembly) (session : SessionHdr) (seq : UInt32) :
    Decidable (ss.Precede frag session seq) := by
  unfold Precede
  split <;> infer_instance

section

variable {ss : Senders e} {pkt : Packet} {frag : Reassembly}

theorem precede_some {session : SessionHdr} {h : HonestSender e session}
    (hs : ss.sender session = some h) {seq : UInt32} :
    ss.Precede frag session seq ↔ h.pendingAfter seq.toNat = frag := by
  unfold Precede
  rw [hs]

theorem Genuine.flags (hg : ss.Genuine pkt) : pkt.flags = FLAG_DATA := by
  obtain ⟨h, -, hmem⟩ := hg
  obtain ⟨i, hi⟩ := List.mem_iff_getElem?.mp hmem
  exact (h.feed hi).2.2.1

theorem Genuine.not_ping (hg : ss.Genuine pkt) : pkt.has FLAG_PING = false := by
  unfold Packet.has
  rw [hg.flags]
  rfl

theorem Genuine.feed (hg : ss.Genuine pkt) (hfrag : ss.Precede frag pkt.session pkt.seqNum) :
    ss.Precede (frag.feedAll e (Packet.unpackAll pkt.payload)).1 pkt.session (pkt.seqNum + 1) ∧
      ∀ data ∈ (frag.feedAll e (Packet.unpackAll pkt.payload)).2, ss.Sent data := by
  obtain ⟨h, hs, hmem⟩ := hg
  obtain ⟨i, hi⟩ := List.mem_iff_getElem?.mp hmem
  obtain ⟨hnum, -, -, hnext, hwhole⟩ := h.feed hi
  have hlen := h.length_arrivals
  have hlt := (List.getElem?_eq_some_iff.mp hi).1
  have htoNat : pkt.seqNum.toNat = i := by
    rw [hnum]
    exact UInt32.toNat_ofNat_of_lt' (lt_trans hlt hlen)
  have hsucc : (pkt.seqNum + 1).toNat = i + 1 := by
    rw [Serial.toNat_succ_of_lt (by omega), htoNat]
  rw [precede_some hs, htoNat] at hfrag
  rw [precede_some hs, hsucc, ← hfrag]
  exact ⟨hnext.symm, fun data hdata => .inr ⟨pkt.session, h, hs, hwhole data hdata⟩⟩

end

-- What the window holds and what was delivered comes from the senders.
structure Stock (v : View) : Prop where
  held : v.known = true → ∀ seq pkt, v.win.held seq = some pkt →
    pkt.session = v.session ∧ ss.Genuine pkt
  whole : ∀ data ∈ delivered v.log, ss.Sent data

-- Between two rounds the fragments are also those that precede the next number.
structure Intact (v : View) : Prop extends Stock ss v where
  precede : v.known = true → ss.Precede v.frag v.session v.win.nextSeq

section

variable {ss : Senders e} {v v' : View}

theorem Stock.of_idle (h : ss.Stock v) (hidle : v.Idle v') : ss.Stock v' := by
  refine ⟨fun hknown seq pkt hp => ?_, ?_⟩
  · rw [hidle.known] at hknown
    rw [hidle.win] at hp
    rw [hidle.session]
    exact h.held hknown seq pkt hp
  · rw [hidle.delivered_eq]
    exact h.whole

theorem Intact.of_idle (h : ss.Intact v) (hidle : v.Idle v') : ss.Intact v' := by
  refine ⟨h.toStock.of_idle hidle, fun hknown => ?_⟩
  rw [hidle.known] at hknown
  rw [hidle.frag, hidle.session, hidle.win]
  exact h.precede hknown

theorem Intact.of_quiet (h : ss.Intact v) (hquiet : v.Quiet v') : ss.Intact v' := by
  rcases hquiet with hidle | ⟨hoff, hlog⟩
  · exact h.of_idle hidle
  · refine ⟨⟨fun hknown => ?_, hlog ▸ h.whole⟩, fun hknown => ?_⟩ <;>
      exact absurd (hoff.symm.trans hknown) Bool.false_ne_true

theorem Stock.of_held {win : Window} (h : ss.Stock v)
    (hheld : ∀ seq pkt, win.held seq = some pkt → v.win.held seq = some pkt) :
    ss.Stock { v with win := win } :=
  ⟨fun hknown seq pkt hp => h.held hknown seq pkt (hheld seq pkt hp), h.whole⟩

theorem Stock.push {pkt : Packet} {win : Window} (h : ss.Stock v) (hwf : v.win.RecvWF)
    (hpush : v.win.recvPush pkt = some win) (hsession : pkt.session = v.session)
    (hgenuine : ss.Genuine pkt) : ss.Stock { v with win := win } := by
  refine ⟨fun hknown seq other hother => ?_, h.whole⟩
  rw [Window.recvPush_held hwf hpush] at hother
  split at hother
  · cases hheld : v.win.held seq with
    | none =>
      rw [hheld] at hother
      obtain rfl := Option.some.inj hother
      exact ⟨hsession, hgenuine⟩
    | some found =>
      rw [hheld] at hother
      obtain rfl := Option.some.inj hother
      exact h.held hknown seq _ hheld
  · exact h.held hknown seq other hother

theorem Intact.popped {pkt : Packet} {win : Window} (h : ss.Intact v) (hwf : v.win.RecvWF)
    (hknown : v.known = true) (halive : v.alive = true)
    (hpop : v.win.recvPop = some (pkt, win)) : ss.Intact (v.popped e pkt win) := by
  obtain ⟨hheld, rfl⟩ := (Window.recvPop_eq_some hwf).mp hpop
  obtain ⟨hsession, hgenuine⟩ := h.held hknown _ _ hheld
  have hnum := hwf.labelled _ _ hheld
  have hprecede : ss.Precede v.frag pkt.session pkt.seqNum := by
    rw [hsession, hnum]
    exact h.precede hknown
  obtain ⟨hnext, hsent⟩ := hgenuine.feed hprecede
  have hlog : ∀ data ∈ delivered (v.popped e pkt v.win.dropNext).log, ss.Sent data := by
    have hact : (Act.pop pkt true).message = none := rfl
    have hbefore := (View.Idle.emit { v with win := v.win.dropNext } hact).delivered_eq
    rw [View.popped_live halive _ hgenuine.not_ping]
    intro data hdata
    unfold View.callbackEmits at hdata
    split at hdata
    · rw [View.delivered_emits, List.mem_append, hbefore] at hdata
      rcases hdata with hdata | hdata
      · exact h.whole data hdata
      · simp only [List.filterMap_map, List.mem_filterMap] at hdata
        obtain ⟨data', hmem, heq⟩ := hdata
        obtain rfl := Option.some.inj heq
        exact hsent _ hmem
    · rw [hbefore] at hdata
      exact h.whole data hdata
  refine ⟨⟨fun _ seq other hother => ?_, hlog⟩, fun _ => ?_⟩
  · rw [View.popped_win, Window.dropNext_held hwf] at hother
    rw [View.popped_session]
    split at hother
    · cases hother
    · exact h.held hknown seq other hother
  · rw [View.popped_session, View.popped_win, View.popped_live halive _ hgenuine.not_ping,
      Window.dropNext_nextSeq, ← hsession, ← hnum]
    exact hnext

end

end Senders

namespace Slot

def Joins (e : Env) (slot : Slot) (pkt : Packet) : Prop :=
  slot.peerSessionKnown = false ∨ (slot.view e).newer e pkt

instance (e : Env) (slot : Slot) (pkt : Packet) : Decidable (slot.Joins e pkt) :=
  inferInstanceAs (Decidable (slot.peerSessionKnown = false ∨
    (0 < e.plat.timespecCmp pkt.sessionTs (slot.view e).session.ts ∨
      e.plat.timespecCmp pkt.sessionTs (slot.view e).session.ts = 0 ∧
        (slot.view e).session.id < pkt.sessionId)))

def met (e : Env) (slot : Slot) (pkt : Packet) : Window :=
  if slot.Joins e pkt then Window.init pkt.seqNum e.windowSize else slot.recvWindow

-- DATA that reaches the head of the window is dropped: the session is not connected, and DATA
-- does not make it so.
def dropsData (e : Env) (slot : Slot) : Bool :=
  !slot.healthAlive && (slot.peer.isSome || e.type = .unicastBidir || e.type.isTcpType)

-- A RAW receiver starts over at the packet.
def restarts (e : Env) (slot : Slot) (pkt : Packet) : Bool :=
  if pkt.has FLAG_PING then
    slot.pingAhead pkt && slot.tickOnce.waitOver e slot.recvWindow.nextSeq
  else slot.startsOver e pkt

-- The number from which reception goes on after the packet, and the fragments it goes on with,
-- where the packet starts a session or makes the receiver leave numbers out.
def resumption (e : Env) (slot : Slot) (pkt : Packet) : Option (UInt32 × Reassembly) :=
  let win := slot.met e pkt
  if pkt.has FLAG_FIN then
    if slot.Joins e pkt then some (pkt.seqNum, slot.reassembly) else none
  else if pkt.has FLAG_NACK then none
  else if pkt.has FLAG_REJECT then
    if e.type.isRawType then none
    else some ((if win.nextSeq = pkt.ackNum then win.dropNext else win).landing, slot.reassembly)
  else if !pkt.has (FLAG_DATA ||| FLAG_PING) then none
  else if slot.Joins e pkt then
    if !pkt.has FLAG_PING && slot.dropsData e then
      some (((win.recvPush pkt).getD win).landing, slot.reassembly)
    else some (pkt.seqNum, slot.reassembly)
  else if e.type.isRawType then
    if slot.restarts e pkt then some (pkt.seqNum, Reassembly.empty) else none
  else if !pkt.has FLAG_PING && slot.dropsData e then
    some (((win.recvPush pkt).getD win).landing, slot.reassembly)
  else none

def Admits (e : Env) (slot : Slot) (pkt : Packet) : Prop :=
  slot.Joins e pkt ∨ slot.peerSessionKnown = true ∧ (slot.view e).session = pkt.session

instance (e : Env) (slot : Slot) (pkt : Packet) : Decidable (slot.Admits e pkt) :=
  inferInstanceAs (Decidable (_ ∨ _))

-- There the fragments are the right ones.
def Continues {e : Env} (ss : Senders e) (slot : Slot) (pkt : Packet) : Prop :=
  slot.Admits e pkt → ∀ seq frag, slot.resumption e pkt = some (seq, frag) →
    ss.Precede frag pkt.session seq

instance {e : Env} (ss : Senders e) (slot : Slot) (pkt : Packet) :
    Decidable (slot.Continues ss pkt) :=
  decidable_of_iff (slot.Admits e pkt → ∀ found ∈ slot.resumption e pkt,
    ss.Precede found.2 pkt.session found.1) (by simp [Continues])

section

variable {e : Env} {ss : Senders e} {slot : Slot} {pkt : Packet}

open View Senders

structure Admitted (ss : Senders e) (slot : Slot) (pkt : Packet) (slot' : Slot) : Prop where
  known : slot'.peerSessionKnown = true
  session : (slot'.view e).session = pkt.session
  win : slot'.recvWindow = slot.met e pkt
  frag : slot'.reassembly = slot.reassembly
  peer : slot'.peer = slot.peer
  alive : slot'.healthAlive = slot.healthAlive
  inv : Inv e (slot'.view e)
  stock : ss.Stock (slot'.view e)
  same : ¬ slot.Joins e pkt → ∃ destAddr nPaths peerPort, slot' =
    { slot with destAddr := destAddr, nPaths := nPaths, peerPort := peerPort }

theorem admits_of_adopt (hlex : e.plat.CmpLex) (hin : (slot.sessionAdopt e pkt).2 = true) :
    slot.Admits e pkt := by
  rcases sessionAdopt_cases hlex slot pkt with hout | ⟨-, hknown, hsession⟩ | ⟨-, hjoins⟩
  · rw [hout] at hin
    cases hin
  · exact .inr ⟨hknown, hsession⟩
  · exact .inl hjoins

theorem sessionAdopt_admitted (hlex : e.plat.CmpLex) (hok : Ok e slot)
    (h : ss.Intact (slot.view e)) (hin : (slot.sessionAdopt e pkt).2 = true) :
    Admitted ss slot pkt (slot.sessionAdopt e pkt).1 := by
  rcases sessionAdopt_cases hlex slot pkt with hout | ⟨heq, hknown, hsession⟩ | ⟨heq, hjoins⟩
  · rw [hout] at hin
    cases hin
  · have hstays : ¬ slot.Joins e pkt := by
      rintro (hoff | hnewer)
      · rw [hoff] at hknown
        cases hknown
      · exact newer_ne_session hlex hnewer hsession
    rw [heq]
    exact ⟨hknown, hsession, (if_neg hstays).symm, rfl, rfl, rfl, hok.inv, h.toStock,
      fun _ => ⟨_, _, _, rfl⟩⟩
  · have hjoin : slot.Joins e pkt := hjoins
    have hact : (Act.adopt pkt.session pkt.seqNum).message = none := rfl
    have hwf : (Window.init pkt.seqNum e.windowSize).RecvWF :=
      Window.init_wf e.windowSize_pos e.windowSize_le
    rw [heq]
    refine ⟨rfl, rfl, (if_pos hjoin).symm, rfl, rfl, rfl, ⟨hok.inv.kind, hwf, rfl, fun _ => rfl⟩,
      ⟨fun _ seq other hother => ?_, ?_⟩, fun hn => absurd hjoin hn⟩
    · rw [view_adoptSession] at hother
      change (Window.init pkt.seqNum e.windowSize).held seq = some other at hother
      rw [Window.held_init] at hother
      cases hother
    · rw [view_adoptSession]
      exact (Idle.emit (slot.view e) hact).delivered_eq ▸ h.whole

theorem learnSenderPath_eq (slot : Slot) (path : Path) (sender : Endpoint) :
    ∃ destAddr nPaths peerPort, slot.learnSenderPath e path sender =
      { slot with destAddr := destAddr, nPaths := nPaths, peerPort := peerPort } := by
  unfold learnSenderPath
  split
  · dsimp only
    split <;> exact ⟨_, _, _, rfl⟩
  · dsimp only
    split <;> exact ⟨_, _, _, rfl⟩

theorem Admitted.learn {slot' : Slot} (h : Admitted ss slot pkt slot') (path : Path)
    (sender : Endpoint) : Admitted ss slot pkt (slot'.learnSenderPath e path sender) := by
  obtain ⟨destAddr, nPaths, peerPort, heq⟩ := learnSenderPath_eq slot' path sender
  rw [heq]
  refine ⟨h.known, h.session, h.win, h.frag, h.peer, h.alive, h.inv, h.stock, fun hstays => ?_⟩
  obtain ⟨_, _, _, rfl⟩ := h.same hstays
  exact ⟨_, _, _, rfl⟩

theorem Admitted.intact {slot' : Slot} (ha : Admitted ss slot pkt slot')
    (h : ss.Intact (slot.view e))
    (hfits : slot.Joins e pkt → ss.Precede slot.reassembly pkt.session pkt.seqNum) :
    ss.Intact (slot'.view e) := by
  by_cases hjoins : slot.Joins e pkt
  · refine ⟨ha.stock, fun _ => ?_⟩
    have hwin : slot'.recvWindow = Window.init pkt.seqNum e.windowSize :=
      ha.win.trans (if_pos hjoins)
    change ss.Precede slot'.reassembly (slot'.view e).session slot'.recvWindow.nextSeq
    rw [ha.frag, ha.session, hwin]
    exact hfits hjoins
  · obtain ⟨_, _, _, rfl⟩ := ha.same hjoins
    exact h

-- The drain, with the fragments that fit where it starts or, unconnected, where it ends.
theorem drainLoop_intact (hwf : slot.recvWindow.RecvWF) (hknown : slot.peerSessionKnown = true)
    (hstock : ss.Stock (slot.view e))
    (hlive : slot.healthAlive = true →
      ss.Precede slot.reassembly (slot.view e).session slot.recvWindow.nextSeq)
    (hdead : slot.healthAlive = false →
      ss.Precede slot.reassembly (slot.view e).session slot.recvWindow.landing) :
    ss.Intact ((slot.drainLoop e slot.recvWindow.windowSize).view e) := by
  cases halive : slot.healthAlive with
  | true =>
    have hstart : ss.Intact (slot.view e) ∧ (slot.view e).win.RecvWF ∧
        (slot.view e).known = true := ⟨⟨hstock, fun _ => hlive halive⟩, hwf, hknown⟩
    refine (drainLoop_preserves (P := fun v => ss.Intact v ∧ v.win.RecvWF ∧ v.known = true) _
      (fun v pkt win hv hpop h => ?_) hstart).1
    obtain ⟨-, rfl⟩ := (Window.recvPop_eq_some h.2.1).mp hpop
    refine ⟨h.1.popped h.2.1 h.2.2 (hv.trans halive) hpop, ?_, ?_⟩
    · rw [popped_win]
      exact Window.dropNext_wf h.2.1
    · rw [popped_known]
      exact h.2.2
  | false =>
    have hsize := hwf.size_le
    obtain ⟨hidle, hnext, hsub⟩ := drainLoop_dead slot.recvWindow.windowSize halive hwf
      (by simp only [MAX_WINDOW_SIZE] at hsize; omega)
    refine ⟨(hstock.of_held hsub).of_idle hidle, fun _ => ?_⟩
    rw [hidle.frag, hidle.session, hidle.win]
    rw [hnext]
    exact hdead halive

theorem sessionAdopt_out (hlex : e.plat.CmpLex)
    (hout : ¬ (slot.sessionAdopt e pkt).2 = true) : (slot.sessionAdopt e pkt).1 = slot := by
  rcases sessionAdopt_cases hlex slot pkt with heq | ⟨heq, -, -⟩ | ⟨heq, -⟩
  · rw [heq]
  · exact absurd (congrArg Prod.snd heq) hout
  · exact absurd (congrArg Prod.snd heq) hout

theorem dispatchFin_intact (hlex : e.plat.CmpLex) (hok : Ok e slot)
    (h : ss.Intact (slot.view e)) (hfin : pkt.has FLAG_FIN = true) (hc : slot.Continues ss pkt) :
    ss.Intact ((slot.dispatchFin e pkt).view e) := by
  have hfits : (slot.sessionAdopt e pkt).2 = true → slot.Joins e pkt →
      ss.Precede slot.reassembly pkt.session pkt.seqNum := by
    intro hin hjoins
    refine hc (admits_of_adopt hlex hin) _ _ ?_
    unfold resumption
    simp only [hfin, hjoins, if_true]
  have hadopted : ss.Intact
      ((if slot.peer.isNone then slot.sessionAdopt e pkt else (slot, true)).1.view e) := by
    split
    · by_cases hin : (slot.sessionAdopt e pkt).2 = true
      · exact (sessionAdopt_admitted hlex hok h hin).intact h (hfits hin)
      · rw [sessionAdopt_out hlex hin]
        exact h
    · exact h
  rw [dispatchFin_eq]
  dsimp only
  generalize (if slot.peer.isNone then slot.sessionAdopt e pkt else (slot, true)) = adopted
    at hadopted ⊢
  have haction := hadopted.of_idle (finOnPacket_idle adopted.1 pkt)
  split
  · exact hadopted
  · split
    · exact haction.of_quiet (finFire_quiet _ _)
    · exact haction

-- potr_internal_window_recv_skip acts on next_seq only.
private theorem skipRecvWindow_spec (slot : Slot) (seq : UInt32) :
    ({ slot.view e with win := (slot.skipRecvWindow seq).recvWindow } : View).Idle
        ((slot.skipRecvWindow seq).view e) ∧
      (slot.skipRecvWindow seq).healthAlive = slot.healthAlive ∧
      (slot.skipRecvWindow seq).recvWindow =
        if slot.recvWindow.nextSeq = seq then slot.recvWindow.dropNext else slot.recvWindow := by
  unfold skipRecvWindow
  by_cases hnext : slot.recvWindow.nextSeq = seq
  · rw [if_pos hnext, if_pos hnext]
    subst hnext
    refine ⟨Idle.emit { slot.view e with win := _ } rfl, rfl, ?_⟩
    exact Window.recvSkip_self slot.recvWindow
  · rw [if_neg hnext, if_neg hnext]
    exact ⟨.refl _, rfl, rfl⟩

private theorem onReject_intact (hlex : e.plat.CmpLex) (path : Path) (sender : Endpoint)
    (hok : Ok e slot) (h : ss.Intact (slot.view e)) (hfin : pkt.has FLAG_FIN = false)
    (hnack : pkt.has FLAG_NACK = false) (hreject : pkt.has FLAG_REJECT = true)
    (hc : slot.Continues ss pkt) : ss.Intact ((slot.onReject e pkt path sender).view e) := by
  rw [onReject_eq]
  split
  · exact h
  rename_i hraw
  by_cases hin : (slot.sessionAdopt e pkt).2 = true
  · have hland : ss.Precede slot.reassembly pkt.session
        (if (slot.met e pkt).nextSeq = pkt.ackNum then (slot.met e pkt).dropNext
          else slot.met e pkt).landing := by
      refine hc (admits_of_adopt hlex hin) _ _ ?_
      unfold resumption
      simp only [hfin, hnack, hreject, hraw, Bool.false_eq_true, if_false, if_true]
    have ha := (sessionAdopt_admitted hlex hok h hin).learn path sender
    rw [hin, if_neg (by simp)]
    generalize (slot.sessionAdopt e pkt).1.learnSenderPath e path sender = learned at ha ⊢
    have hoff := disconnectAllPaths_idle (e := e) learned.clearPathPingStates
    obtain ⟨evs, -, hv⟩ := view_disconnectAllPaths learned.clearPathPingStates
    have hdead : (learned.clearPathPingStates.disconnectAllPaths e).healthAlive = false :=
      (congrArg View.alive hv).trans (synced_alive false evs)
    generalize learned.clearPathPingStates.disconnectAllPaths e = off at hoff hdead ⊢
    have hwf : (slot.met e pkt).RecvWF := ha.win ▸ ha.inv.wf
    have hwin : off.recvWindow = slot.met e pkt := hoff.win.trans ha.win
    have hskipped := skipRecvWindow_spec (e := e) { off with reorderPending := false } pkt.ackNum
    generalize skipRecvWindow { off with reorderPending := false } pkt.ackNum = skipped
      at hskipped ⊢
    obtain ⟨hidle, halive, hskip⟩ := hskipped
    have hwin' : skipped.recvWindow = if (slot.met e pkt).nextSeq = pkt.ackNum then
        (slot.met e pkt).dropNext else slot.met e pkt := hwin ▸ hskip
    have hheld : skipped.recvWindow.RecvWF ∧ ∀ seq other,
        skipped.recvWindow.held seq = some other → off.recvWindow.held seq = some other := by
      rw [hwin', hwin]
      split
      · refine ⟨Window.dropNext_wf hwf, fun seq other hother => ?_⟩
        rw [Window.dropNext_held hwf] at hother
        split at hother
        · cases hother
        · exact hother
      · exact ⟨hwf, fun _ _ hother => hother⟩
    refine Intact.of_quiet (drainLoop_intact hheld.1 ?_ ?_ ?_ ?_) (slotDrainRecvWindow_quiet skipped)
    · exact (hidle.known.trans hoff.known).trans ha.known
    · exact ((ha.stock.of_idle hoff).of_held hheld.2).of_idle
        ⟨hidle.delivered_eq, hidle.known, hidle.session, hidle.win, hidle.frag⟩
    · exact fun hlive => absurd ((hlive.symm.trans halive).trans hdead) Bool.noConfusion
    · intro _
      have hfrag : skipped.reassembly = slot.reassembly :=
        (hidle.frag.trans hoff.frag).trans ha.frag
      have hsession : (skipped.view e).session = pkt.session :=
        (hidle.session.trans hoff.session).trans ha.session
      rw [hfrag, hsession, hwin']
      exact hland
  · rw [sessionAdopt_out hlex hin, if_pos (by simpa using hin)]
    exact h

private theorem scanPingGap_intact (h : ss.Intact (slot.view e))
    (hraw : e.type.isRawType = true → slot.pingAhead pkt = true →
      slot.waitOver e slot.recvWindow.nextSeq = true →
      ss.Precede Reassembly.empty (slot.view e).session pkt.seqNum) :
    ss.Intact ((slot.scanPingGap e pkt).view e) := by
  rw [scanPingGap_eq]
  split
  · split
    · exact h.of_idle (nackGap_idle slot _)
    · exact h
  split
  · rename_i hisraw
    split
    · rename_i hahead
      have hgap := reorderGapReady_idle (e := e) slot slot.recvWindow.nextSeq
      split
      · rename_i hready
        rw [reorderGapReady_snd] at hready
        have hidle := rawReset_idle (e := e)
          (slot.reorderGapReady e slot.recvWindow.nextSeq).1 pkt.seqNum
        refine Intact.of_idle ⟨⟨fun _ seq other hother => ?_, ?_⟩, fun _ => ?_⟩ hidle
        · change (Window.init pkt.seqNum _).held seq = some other at hother
          rw [Window.held_init] at hother
          cases hother
        · exact (h.of_idle hgap).whole
        · have hsession := hgap.session
          change ss.Precede Reassembly.empty
            ((slot.reorderGapReady e slot.recvWindow.nextSeq).1.view e).session pkt.seqNum
          rw [hsession]
          exact hraw hisraw hahead hready
      · exact h.of_idle hgap
    · exact h.of_idle ⟨rfl, rfl, rfl, rfl, rfl⟩
  · have hscan := scanLoop_idle (e := e) pkt slot.recvWindow.windowSize slot
      slot.recvWindow.nextSeq
    split
    · exact h.of_idle (hscan.trans ⟨rfl, rfl, rfl, rfl, rfl⟩)
    · exact h.of_idle hscan

private theorem dispatchPing_intact (path : Path) (h : ss.Intact (slot.view e))
    (hraw : e.type.isRawType = true → slot.pingAhead pkt = true →
      slot.tickOnce.waitOver e slot.recvWindow.nextSeq = true →
      ss.Precede Reassembly.empty (slot.view e).session pkt.seqNum) :
    ss.Intact ((slot.dispatchPing e pkt path).view e) := by
  have hraw' : e.type.isRawType = true → (slot.pinged e pkt path).pingAhead pkt = true →
      (slot.pinged e pkt path).waitOver e slot.recvWindow.nextSeq = true →
      ss.Precede Reassembly.empty (slot.view e).session pkt.seqNum := by
    unfold pinged
    split <;> exact hraw
  have hview := view_pinged (e := e) slot pkt path
  rw [dispatchPing_eq]
  generalize slot.pinged e pkt path = seen at hraw' hview ⊢
  have hseen : ss.Intact (seen.view e) := hview ▸ h
  have hwin : seen.recvWindow = slot.recvWindow := congrArg View.win hview
  split
  · refine Intact.of_idle (scanPingGap_intact hseen fun hisraw hahead hready => ?_)
      (syncPathState_idle _)
    rw [hview]
    exact hraw' hisraw hahead (hwin ▸ hready)
  · rename_i hisraw
    exact scanPingGap_intact (hseen.of_idle (syncPathState_idle seen)) fun h' => absurd h' hisraw

private theorem Reached.alive_eq {slot' pre : Slot} (hreached : Reached e slot' pre)
    (hudp : e.type.isTcpType = false) (ha : Admitted ss slot pkt slot') :
    pre.healthAlive = !slot.dropsData e := by
  unfold dropsData
  by_cases hother : slot'.peer ≠ none ∨ e.type = .unicastBidir
  · rw [hreached.other hother, ha.alive]
    rcases hother with hpeer | hbidir
    · rw [ha.peer] at hpeer
      simp [Option.isSome_iff_ne_none.mpr hpeer]
    · simp [hbidir]
  · rw [not_or, not_not] at hother
    rw [hreached.oneway hother.1 hudp hother.2]
    simp [← ha.peer, hother.1, hother.2, hudp]

private theorem acceptOuter_intact {slot' : Slot} (path : Path) (hudp : e.type.isTcpType = false)
    (ha : Admitted ss slot pkt slot') (h : ss.Intact (slot.view e)) (hgenuine : ss.Genuine pkt)
    (hjoins : slot.dropsData e = false → slot.Joins e pkt →
      ss.Precede slot.reassembly pkt.session pkt.seqNum)
    (hdrops : slot.dropsData e = true →
      ss.Precede slot.reassembly pkt.session
        (((slot.met e pkt).recvPush pkt).getD (slot.met e pkt)).landing)
    (hover : e.type.isRawType = true → ¬ slot.Joins e pkt → slot.startsOver e pkt = true →
      ss.Precede Reassembly.empty pkt.session pkt.seqNum) :
    ss.Intact ((slot'.acceptOuter e pkt path).view e) := by
  have hdata : pkt.has FLAG_DATA = true := by
    unfold Packet.has
    rw [hgenuine.flags]
    rfl
  obtain ⟨fresh, hfresh, hneeds⟩ := init_push pkt e.windowSize_pos
  have hinit : slot.Joins e pkt → slot'.recvWindow.recvPush pkt = some fresh := fun hj => by
    rw [ha.win, met, if_pos hj]
    exact hfresh
  have hlive : slot.dropsData e = false →
      ss.Precede slot'.reassembly pkt.session slot'.recvWindow.nextSeq := by
    intro hkeeps
    exact ha.session ▸ (ha.intact h (hjoins hkeeps)).precede ha.known
  rcases acceptOuter_cases path ha.inv hdata with
    ⟨-, hnone, heq⟩ | ⟨pre, heq, hreached, hentered⟩
  · -- A packet is only refused by a window that was there before.
    rw [heq]
    refine ha.intact h fun hj => ?_
    rw [hinit hj] at hnone
    cases hnone
  · rw [heq]
    refine Intact.of_quiet ?_ (settle_quiet pre)
    rcases hentered with ⟨win, hpush, -, hidle⟩ | ⟨hraw, hstarts, win, hpush, hidle⟩
    · have hstock := (ha.stock.push ha.inv.wf hpush ha.session.symm hgenuine).of_idle hidle
      have hwin : pre.recvWindow = win := hidle.win
      have hnext : win.nextSeq = slot'.recvWindow.nextSeq := Window.recvPush_nextSeq hpush
      have hsession : (pre.view e).session = pkt.session := hidle.session.trans ha.session
      have hfrag : pre.reassembly = slot'.reassembly := hidle.frag
      refine drainLoop_intact ?_ (hidle.known.trans ha.known) hstock (fun halive => ?_)
        fun hdead => ?_
      · rw [hwin]
        exact Window.recvPush_wf ha.inv.wf hpush
      · rw [hfrag, hsession, hwin, hnext]
        refine hlive ?_
        rw [hreached.alive_eq hudp ha] at halive
        simpa using halive
      · rw [hreached.alive_eq hudp ha] at hdead
        have hland := hdrops (by simpa using hdead)
        rw [← ha.win, hpush] at hland
        rw [hfrag, ha.frag, hsession, hwin]
        exact hland
    · have hstays : ¬ slot.Joins e pkt := by
        intro hj
        unfold startsOver at hstarts
        rw [hinit hj] at hstarts
        simp only [hneeds] at hstarts
        cases hstarts
      have hprecede := hover hraw hstays (by
        obtain ⟨_, _, _, rfl⟩ := ha.same hstays
        exact hstarts)
      have hstart : ss.Stock ({ slot'.view e with
          win := Window.init pkt.seqNum e.windowSize, frag := Reassembly.empty } : View) := by
        refine ⟨fun _ seq other hother => ?_, ha.stock.whole⟩
        rw [Window.held_init] at hother
        cases hother
      have hwf : (Window.init pkt.seqNum e.windowSize).RecvWF :=
        Window.init_wf e.windowSize_pos e.windowSize_le
      have hwin : pre.recvWindow = win := hidle.win
      have hsession : (pre.view e).session = pkt.session := hidle.session.trans ha.session
      have hfrag : pre.reassembly = Reassembly.empty := hidle.frag
      refine drainLoop_intact ?_ (hidle.known.trans ha.known)
        ((hstart.push hwf hpush ha.session.symm hgenuine).of_idle hidle) (fun _ => ?_) fun hdead => ?_
      · rw [hwin]
        exact Window.recvPush_wf hwf hpush
      · rw [hfrag, hsession, hwin, Window.recvPush_nextSeq hpush]
        exact hprecede
      · have hpeer : slot'.peer = none := by
          by_contra hp
          rw [ha.inv.kind hp] at hraw
          cases hraw
        rw [hreached.oneway hpeer hudp (oneway_of_raw hraw).2] at hdead
        cases hdead

private theorem pingAhead_of_joins {slot' : Slot} (ha : Admitted ss slot pkt slot')
    (hjoins : slot.Joins e pkt) : slot'.pingAhead pkt = false := by
  unfold pingAhead
  rw [ha.win, met, if_pos hjoins]
  simp

private theorem dropsData_of_raw (hok : Ok e slot) (hraw : e.type.isRawType = true) :
    slot.dropsData e = false := by
  obtain ⟨htcp, hbidir⟩ := oneway_of_raw hraw
  have hpeer : slot.peer = none := by
    by_contra hp
    rw [hok.inv.kind hp] at hraw
    cases hraw
  simp [dropsData, htcp, hbidir, hpeer]

theorem dispatchPacket_intact (hlex : e.plat.CmpLex) (hudp : e.type.isTcpType = false)
    (path : Path) (sender : Endpoint) (hok : Ok e slot) (h : ss.Intact (slot.view e))
    (hgenuine : pkt.has FLAG_DATA = true → ss.Genuine pkt) (hc : slot.Continues ss pkt) :
    ss.Intact ((slot.dispatchPacket e pkt path sender).view e) := by
  rw [dispatchPacket_eq]
  split
  · rename_i hfin
    exact dispatchFin_intact hlex hok h hfin hc
  rename_i hfin
  split
  · split
    · exact h.of_idle (onNack_idle slot pkt)
    · exact h
  rename_i hnack
  split
  · rename_i hreject
    exact onReject_intact hlex path sender hok h (by simpa using hfin) (by simpa using hnack)
      hreject hc
  rename_i hreject
  split
  · exact h
  rename_i hkind
  by_cases hin : (slot.sessionAdopt e pkt).2 = true
  · have ha := (sessionAdopt_admitted hlex hok h hin).learn path sender
    have hc' := hc (admits_of_adopt hlex hin)
    unfold resumption at hc'
    simp only [hfin, hnack, hreject, hkind, Bool.false_eq_true, if_false] at hc'
    rw [hin, if_neg (by simp)]
    generalize (slot.sessionAdopt e pkt).1.learnSenderPath e path sender = learned at ha ⊢
    split
    · rename_i hping
      simp only [hping, Bool.not_true, Bool.false_and, Bool.false_eq_true, if_false] at hc'
      refine dispatchPing_intact path (ha.intact h fun hj => ?_) fun hraw hahead hready => ?_
      · exact hc' _ _ (if_pos hj)
      · by_cases hj : slot.Joins e pkt
        · rw [pingAhead_of_joins ha hj] at hahead
          cases hahead
        · rw [ha.session]
          refine hc' _ _ ?_
          have hrestarts : slot.restarts e pkt = true := by
            obtain ⟨_, _, _, rfl⟩ := ha.same hj
            unfold restarts
            rw [if_pos hping, Bool.and_eq_true]
            exact ⟨hahead, hready⟩
          rw [if_neg hj, if_pos hraw, if_pos hrestarts]
    · rename_i hping
      have hdata : pkt.has FLAG_DATA = true := by
        rw [has_or] at hkind
        simpa [hping] using hkind
      simp only [hping, Bool.not_false, Bool.true_and] at hc'
      refine acceptOuter_intact path hudp ha h (hgenuine hdata) (fun hkeeps hj => ?_)
        (fun hdrops => ?_) fun hraw hj hover => ?_
      · exact hc' _ _ (by rw [if_pos hj, hkeeps, if_neg Bool.false_ne_true])
      · by_cases hj : slot.Joins e pkt
        · exact hc' _ _ (by rw [if_pos hj, if_pos hdrops])
        · have hraw : ¬ e.type.isRawType = true := fun hraw => by
            rw [dropsData_of_raw hok hraw] at hdrops
            cases hdrops
          exact hc' _ _ (by rw [if_neg hj, if_neg hraw, if_pos hdrops])
      · refine hc' _ _ ?_
        have hrestarts : slot.restarts e pkt = true := by
          unfold restarts
          rw [if_neg hping]
          exact hover
        rw [if_neg hj, if_pos hraw, if_pos hrestarts]
  · rw [sessionAdopt_out hlex hin, if_pos (by simpa using hin)]
    exact h

private theorem Continues.of_view {slot' : Slot} {log : List (UInt32 × Act)}
    (hraw : e.type.isRawType = false) (hv : slot'.view e = { slot.view e with log := log })
    (hc : slot.Continues ss pkt) : slot'.Continues ss pkt := by
  have hknown : slot'.peerSessionKnown = slot.peerSessionKnown := congrArg View.known hv
  have hsession : (slot'.view e).session = (slot.view e).session := by rw [hv]
  have hwin : slot'.recvWindow = slot.recvWindow := congrArg View.win hv
  have halive : slot'.healthAlive = slot.healthAlive := congrArg View.alive hv
  have hpeer : slot'.peer = slot.peer := congrArg View.peer hv
  have hfrag : slot'.reassembly = slot.reassembly := congrArg View.frag hv
  have hjoins : slot'.Joins e pkt = slot.Joins e pkt := by
    unfold Joins View.newer
    rw [hknown, hsession]
  have hmet : slot'.met e pkt = slot.met e pkt := by
    unfold met
    simp only [hjoins, hwin]
  have hdrops : slot'.dropsData e = slot.dropsData e := by
    unfold dropsData
    rw [halive, hpeer]
  unfold Continues Admits resumption at hc ⊢
  simp only [hknown, hsession, hjoins, hmet, hdrops, hfrag, hraw, Bool.false_eq_true,
    if_false] at hc ⊢
  exact hc

end

namespace Input

-- Packets with DATA come from the senders, and a PING is nothing else.
def Honest {e : Env} (ss : Senders e) : Input → Prop
  | packet _ _ pkt => (pkt.has FLAG_DATA = true → ss.Genuine pkt) ∧
      (pkt.has FLAG_PING = true → pkt.flags = FLAG_PING)
  | pollTimeout => True

instance {e : Env} (ss : Senders e) : ∀ input : Input, Decidable (input.Honest ss)
  | packet _ _ _ => inferInstanceAs (Decidable (_ ∧ _))
  | pollTimeout => .isTrue trivial

end Input

def ContinuesAt {e : Env} (ss : Senders e) (slot : Slot) : Input → Prop
  | .packet _ _ pkt => slot.Continues ss pkt
  | .pollTimeout => True

instance {e : Env} (ss : Senders e) (slot : Slot) :
    ∀ input : Input, Decidable (slot.ContinuesAt ss input)
  | .packet _ _ _ => inferInstanceAs (Decidable (slot.Continues ss _))
  | .pollTimeout => .isTrue trivial

section

variable {e : Env} {ss : Senders e} {slot : Slot}

open View Senders

theorem step_intact (hlex : e.plat.CmpLex) (hudp : e.type.isTcpType = false)
    (hpeer : slot.peer = none) (hok : Ok e slot) (h : ss.Intact (slot.view e)) {input : Input}
    (hin : input.Honest ss) (hc : slot.ContinuesAt ss input) :
    ss.Intact ((slot.step e input).view e) := by
  cases input with
  | pollTimeout =>
    exact (h.of_idle (Idle.emit _ rfl)).of_quiet (onPollTimeout_moves hpeer hok).1.quiet
  | packet path sender pkt =>
    have hc' : (slot.emit (.recv pkt)).Continues ss pkt := hc
    have hnoted : ss.Intact ((slot.emit (.recv pkt)).view e) := h.of_idle (Idle.emit _ rfl)
    have hok' := emit_ok hok (.recv pkt)
    rw [step_packet_eq]
    split
    · exact h
    generalize slot.emit (.recv pkt) = noted at hc' hnoted hok'
    split
    · unfold senderHandlePacket
      split
      · exact hnoted
      rename_i hraw
      have hraw' : e.type.isRawType = false := by simpa using hraw
      have hanswered := hnoted.of_idle (onNack_idle noted pkt)
      split
      · refine dispatchPacket_intact hlex hudp path sender (onNack_ok hok') hanswered hin.1 ?_
        rcases view_onNack noted pkt with hv | ⟨-, dests, hv⟩
        · exact hc'.of_view hraw' (hv : _ = { noted.view e with log := noted.log })
        · exact hc'.of_view hraw' hv
      · exact hanswered
    · exact dispatchPacket_intact hlex hudp path sender hok' hnoted hin.1 hc'

end

end Slot

end Porter
