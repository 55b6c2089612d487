import Porter.Moves.Record
import Porter.Moves.Tcp
import Porter.Platform

namespace Porter

-- The abstract receiver: the session it tracks and its window. Only an adopted session, which must
-- come after the tracked one, and the end of a session start the window anew.
structure Tracker where
  session : Option SessionHdr
  win : Window

namespace Tracker

def act (windowSize : Nat) (t : Tracker) : Act → Option Tracker
  | .adopt session seq =>
      if ∀ known ∈ t.session, known.Precedes session then
        some ⟨some session, Window.init seq windowSize⟩
      else none
  | .forget => some ⟨none, Window.init 0 windowSize⟩
  | .push pkt => (t.win.recvPush pkt).map fun win => { t with win := win }
  | .pop pkt _ =>
      (t.win.recvPop.filter fun popped => popped.1 = pkt).map fun popped => { t with win := popped.2 }
  | .skip _ => some { t with win := t.win.dropNext }
  | .reset _ => none
  | .recv _ | .poll | .nack .. | .send .. | .sendTcp _ | .event _ => some t

def acts (windowSize : Nat) (t : Tracker) (acts : List Act) : Option Tracker :=
  acts.foldlM (act windowSize) t

end Tracker

def Slot.tracked (slot : Slot) : Option SessionHdr :=
  if slot.peerSessionKnown then some ⟨slot.peerSessionId, slot.peerSessionTs⟩ else none

def Slot.tracker (slot : Slot) : Tracker := ⟨slot.tracked, slot.recvWindow⟩

namespace Tracker

variable {windowSize : Nat} {t t' : Tracker}

theorem acts_append (done more : List Act) :
    acts windowSize t (done ++ more) = (acts windowSize t done).bind fun t' => acts windowSize t' more :=
  List.foldlM_append ..

theorem acts_single (a : Act) : acts windowSize t [a] = act windowSize t a := by
  simp [acts]

theorem acts_plain {l : List Act} (h : ∀ a ∈ l, act windowSize t a = some t) :
    acts windowSize t l = some t := by
  induction l with
  | nil => rfl
  | cons a rest ih =>
    rw [acts, List.foldlM_cons, h a List.mem_cons_self]
    exact ih fun b hb => h b (List.mem_cons_of_mem a hb)

-- Between two ends of a session the tracked triple does not go back, and it stays where it is
-- unless a session is adopted.
theorem acts_order {l : List Act} (h : acts windowSize t l = some t') (hforget : Act.forget ∉ l)
    {session : SessionHdr} (hsession : t.session = some session) :
    ∃ session', t'.session = some session' ∧
      (session' = session ∧ (∀ adopted seq, Act.adopt adopted seq ∉ l) ∨ session.Precedes session') := by
  induction l generalizing t session with
  | nil =>
    obtain rfl : t = t' := Option.some.inj h
    exact ⟨session, hsession, .inl ⟨rfl, fun _ _ hmem => nomatch hmem⟩⟩
  | cons a rest ih =>
    rw [acts, List.foldlM_cons] at h
    obtain ⟨mid, hmid, hrest⟩ := Option.bind_eq_some_iff.mp h
    have hrest' : Act.forget ∉ rest := fun hmem => hforget (List.mem_cons_of_mem a hmem)
    -- An entry that keeps the session is followed by the rest.
    have hkeep : mid.session = t.session → (∀ adopted seq, a ≠ Act.adopt adopted seq) →
        ∃ session', t'.session = some session' ∧ (session' = session ∧
          (∀ adopted seq, Act.adopt adopted seq ∉ a :: rest) ∨ session.Precedes session') := by
      intro hsame hne
      obtain ⟨session', hs, hcases⟩ := ih hrest hrest' (hsame.trans hsession)
      refine ⟨session', hs, hcases.imp_left fun ⟨heq, hno⟩ => ⟨heq, fun adopted seq hmem => ?_⟩⟩
      rcases List.mem_cons.mp hmem with hhead | hmem
      · exact hne adopted seq hhead.symm
      · exact hno adopted seq hmem
    cases a with
    | forget => exact absurd List.mem_cons_self hforget
    | reset seq => exact nomatch hmid
    | adopt adopted seq =>
      simp only [act] at hmid
      split at hmid
      · rename_i hbefore
        obtain rfl := Option.some.inj hmid
        obtain ⟨session', hs, hcases⟩ := ih hrest hrest' rfl
        have hfirst := hbefore session hsession
        refine ⟨session', hs, .inr ?_⟩
        rcases hcases with ⟨rfl, -⟩ | hlater
        · exact hfirst
        · exact hfirst.trans hlater
      · cases hmid
    | push pkt =>
      obtain ⟨win, -, rfl⟩ := Option.map_eq_some_iff.mp hmid
      exact hkeep rfl fun _ _ => nofun
    | pop pkt alive =>
      obtain ⟨popped, -, rfl⟩ := Option.map_eq_some_iff.mp hmid
      exact hkeep rfl fun _ _ => nofun
    | skip seq =>
      obtain rfl := Option.some.inj hmid
      exact hkeep rfl fun _ _ => nofun
    | recv _ | poll | nack _ _ | send _ _ _ | sendTcp _ | event _ =>
      obtain rfl := Option.some.inj hmid
      exact hkeep rfl fun _ _ => nofun

end Tracker

namespace View

def tracker (v : View) : Tracker := ⟨if v.known then some v.session else none, v.win⟩

section

variable {e : Env} {cur : Option Packet} {v v' : View}

theorem newer_iff (hlex : e.plat.CmpLex) {pkt : Packet} :
    v.newer e pkt ↔ v.session.Precedes pkt.session := by
  unfold newer SessionHdr.Precedes
  rw [hlex.pos, hlex.eq_zero]
  exact or_congr Iff.rfl (and_congr_left' eq_comm)

theorem Move.tracked (hlex : e.plat.CmpLex) (hraw : e.type.isRawType = false) (h : Move e cur v v') :
    ∃ acts, v'.entries = v.entries ++ acts ∧
      v.tracker.acts e.windowSize acts = some v'.tracker := by
  have hnone : ∀ {w : View}, w.entries = v.entries → w.tracker = v.tracker →
      ∃ acts, w.entries = v.entries ++ acts ∧ v.tracker.acts e.windowSize acts = some w.tracker :=
    fun hentries htracker => ⟨[], by rw [hentries, List.append_nil], by rw [htracker]; rfl⟩
  have hevents : ∀ (w : View) (evs : List Event), ∃ acts,
      (w.callbackEmits e evs).entries = w.entries ++ acts ∧
        (w.callbackEmits e evs).tracker = w.tracker ∧
        ∀ t : Tracker, t.acts e.windowSize acts = some t := by
    intro w evs
    unfold View.callbackEmits
    split
    · refine ⟨evs.map Act.event, entries_emits w _, rfl, fun t => Tracker.acts_plain fun a ha => ?_⟩
      obtain ⟨ev, -, rfl⟩ := List.mem_map.mp ha
      rfl
    · exact ⟨[], (List.append_nil _).symm, rfl, fun _ => rfl⟩
  cases h with
  | sync alive evs hevs hlive =>
    obtain ⟨acts, hentries, htracker, hplain⟩ :=
      hevents { v with alive := alive } (evs ++ Event.ofAlive v.alive alive)
    exact ⟨acts, hentries, (hplain v.tracker).trans (congrArg some htracker.symm)⟩
  | adopt pkt hcur hearly hnew =>
    refine ⟨[.adopt pkt.session pkt.seqNum], entries_emits { v with .. } _, ?_⟩
    rw [Tracker.acts_single]
    refine if_pos fun known hknown => ?_
    rcases hnew with hfirst | hnew
    · rw [View.tracker, hfirst] at hknown
      cases hknown
    · rw [View.tracker] at hknown
      split at hknown
      · obtain rfl := Option.some.inj hknown
        exact (newer_iff hlex).mp hnew
      · cases hknown
  | push pkt win pending nackNum hcur hearly hdata hping hknown hsession hpush htimer =>
    refine ⟨[.push pkt], entries_emits { v with .. } _, ?_⟩
    rw [Tracker.acts_single, Tracker.act, View.tracker, hpush]
    rfl
  | timer pending nackNum htimer => exact hnone rfl rfl
  | nack seq dests hgap =>
    refine ⟨_, entries_emits v _, Tracker.acts_plain fun a ha => ?_⟩
    rcases List.mem_cons.mp ha with rfl | ha
    · rfl
    · obtain ⟨d, -, rfl⟩ := List.mem_map.mp ha
      rfl
  | expire dests hpending =>
    refine ⟨_, entries_emits { v with pending := false } _, Tracker.acts_plain fun a ha => ?_⟩
    rcases List.mem_cons.mp ha with rfl | ha
    · rfl
    · obtain ⟨d, -, rfl⟩ := List.mem_map.mp ha
      rfl
  | pop pkt win hcur hpop hpending hused =>
    have hpopped : v.tracker.acts e.windowSize [.pop pkt v.alive] =
        some (View.tracker { v with win := win }) := by
      rw [Tracker.acts_single, Tracker.act, View.tracker, hpop, Option.filter_some]
      simp [View.tracker]
    have hlog : (emit { v with win := win } (.pop pkt v.alive)).entries =
        v.entries ++ [.pop pkt v.alive] := entries_emits { v with win := win } _
    unfold View.popped
    split
    · obtain ⟨acts, hentries, htracker, hplain⟩ :=
        hevents (emit { v with win := win } (.pop pkt v.alive))
          ((v.frag.feedAll e (Packet.unpackAll pkt.payload)).2.map Event.data)
      refine ⟨.pop pkt v.alive :: acts, ?_, ?_⟩
      · refine Eq.trans hentries ?_
        rw [hlog, List.append_assoc]
        rfl
      · have hboth : v.tracker.acts e.windowSize ([.pop pkt v.alive] ++ acts) =
            some (View.tracker { v with win := win }) := by
          rw [Tracker.acts_append, hpopped]
          exact hplain _
        exact hboth.trans (congrArg some htracker.symm)
    · exact ⟨[.pop pkt v.alive], hlog, hpopped⟩
  | skip pkt hcur hreject hraw' hknown hsession hnext hdead hpending hused =>
    exact ⟨[.skip pkt.ackNum], entries_emits { v with .. } _, rfl⟩
  | reset pkt hcur hearly hraw' hdead =>
    rw [hraw] at hraw'
    cases hraw'
  | forget frag hfrag hpeer hdead hpending hfin => exact ⟨[.forget], entries_emits { v with .. } _, rfl⟩
  | finPending target hnext pkt hcur hfin hvalid htarget hsession => exact hnone rfl rfl
  | finClear => exact hnone rfl rfl
  | free hpeer hdead hfin => exact hnone rfl rfl
  | answer pkt dests hcur hnack =>
    refine ⟨_, entries_emits v _, Tracker.acts_plain fun a ha => ?_⟩
    obtain ⟨d, -, rfl⟩ := List.mem_map.mp ha
    rfl
  | finAck target hfin => exact ⟨_, entries_emits v _, rfl⟩

end

end View

namespace Slot

-- From `slot` to `slot'` a retransmitting receiver did what the abstract one does: the tracked
-- triple does not go back before the session ends, and the window starts anew where it grows, where
-- a first session is adopted and where the session ends.
structure Follows (e : Env) (slot slot' : Slot) (acts : List Act) : Prop where
  log : entriesOf PEER_NA slot'.log = entriesOf PEER_NA slot.log ++ acts
  replay : slot.tracker.acts e.windowSize acts = some slot'.tracker
  order : Act.forget ∉ acts → ∀ session, slot.tracked = some session →
    ∃ session', slot'.tracked = some session' ∧
      (session' = session ∧ (∀ adopted seq, Act.adopt adopted seq ∉ acts) ∨ session.Precedes session')

-- Nothing changed but the record of what was done and the memory of answered NACKs, and no NACK
-- packet was sent.
structure Unmoved (slot slot' : Slot) : Prop where
  same : slot = { slot' with
    log := slot.log
    tick := slot.tick
    nackDedupBuf := slot.nackDedupBuf
    nackDedupNext := slot.nackDedupNext }
  quiet : ∃ acts : List Act, slot'.log = (slot.emits acts).log ∧ ∀ act ∈ acts, act.nackSent = none

section

variable {e : Env} {slot slot' : Slot}

theorem run_follows (hlex : e.plat.CmpLex) (hraw : e.type.isRawType = false) (hpeer : slot.peer = none)
    (hok : Ok e slot) (inputs : List Input) : ∃ acts, slot.Follows e (slot.run e inputs) acts := by
  have hid : (slot.view e).peerId = PEER_NA := by
    unfold View.peerId
    rw [show (slot.view e).peer = none from hpeer]
    rfl
  have hrun : ∃ acts, ((slot.run e inputs).view e).entries = (slot.view e).entries ++ acts ∧
      (slot.view e).tracker.acts e.windowSize acts = some ((slot.run e inputs).view e).tracker := by
    -- What was done so far is followed by what the next entry or move does.
    have htail : ∀ {v v' : View}, (∃ acts, v'.entries = v.entries ++ acts ∧
        v.tracker.acts e.windowSize acts = some v'.tracker) →
        (∃ acts, v.entries = (slot.view e).entries ++ acts ∧
          (slot.view e).tracker.acts e.windowSize acts = some v.tracker) →
        ∃ acts, v'.entries = (slot.view e).entries ++ acts ∧
          (slot.view e).tracker.acts e.windowSize acts = some v'.tracker := by
      rintro v v' ⟨more, hmore, hlast⟩ ⟨acts, hacts, hfirst⟩
      refine ⟨acts ++ more, by rw [hmore, hacts, List.append_assoc], ?_⟩
      rw [Tracker.acts_append, hfirst]
      exact hlast
    refine run_preserves (P := fun v => ∃ acts, v.entries = (slot.view e).entries ++ acts ∧
      (slot.view e).tracker.acts e.windowSize acts = some v.tracker) hlex ?_ ?_ hpeer hok
      ⟨[], (List.append_nil _).symm, rfl⟩
    · intro input _ v _ hv
      refine htail ⟨[input.note], View.entries_emits v _, ?_⟩ hv
      cases input with
      | packet path sender pkt => rfl
      | pollTimeout => rfl
    · intro input _ v v' _ hmove hv
      exact htail (hmove.tracked hlex hraw) hv
  obtain ⟨acts, hentries, hreplay⟩ := hrun
  have hid' : ((slot.run e inputs).view e).peerId = PEER_NA := by
    unfold View.peerId
    rw [show ((slot.run e inputs).view e).peer = none from (run_ok hlex hpeer hok inputs).1]
    rfl
  unfold View.entries at hentries
  rw [hid, hid'] at hentries
  exact ⟨acts, hentries, hreplay, fun hforget session hsession =>
    Tracker.acts_order hreplay hforget hsession⟩

theorem tracked_eq_some {session : SessionHdr} :
    slot.tracked = some session ↔
      slot.peerSessionKnown = true ∧ (⟨slot.peerSessionId, slot.peerSessionTs⟩ : SessionHdr) = session := by
  unfold tracked
  cases slot.peerSessionKnown <;> simp

theorem sessionAdopt_older (hlex : e.plat.CmpLex) {session : SessionHdr}
    (htracked : slot.tracked = some session) {pkt : Packet} (holder : pkt.session.Precedes session) :
    slot.sessionAdopt e pkt = (slot, false) := by
  obtain ⟨hknown, rfl⟩ := tracked_eq_some.mp htracked
  have hpos : ¬ 0 < e.plat.timespecCmp pkt.sessionTs slot.peerSessionTs := by
    rw [hlex.pos]
    intro hlt
    rcases holder with hts | ⟨hts, -⟩
    · exact Timespec.lt_irrefl _ (Timespec.lt_trans hlt hts)
    · rw [show pkt.sessionTs = slot.peerSessionTs from hts] at hlt
      exact Timespec.lt_irrefl _ hlt
  unfold sessionAdopt
  rw [if_neg (by simp [hknown])]
  rw [if_neg hpos]
  rcases holder with hts | ⟨hts, hid⟩
  · have hne : e.plat.timespecCmp pkt.sessionTs slot.peerSessionTs ≠ 0 := by
      rw [ne_eq, hlex.eq_zero]
      intro heq
      rw [show pkt.session.ts = slot.peerSessionTs from heq] at hts
      exact Timespec.lt_irrefl _ hts
    rw [if_pos (by omega)]
  · have hzero : e.plat.timespecCmp pkt.sessionTs slot.peerSessionTs = 0 := (hlex.eq_zero _ _).mpr hts
    have hlt : pkt.sessionId < slot.peerSessionId := hid
    rw [if_neg (by omega), if_neg (UInt32.lt_asymm hlt), if_neg (UInt32.ne_of_lt hlt)]

theorem dispatchPacket_older (hlex : e.plat.CmpLex) (hraw : e.type.isRawType = false)
    (hpeer : slot.peer = none) {session : SessionHdr} (htracked : slot.tracked = some session)
    {pkt : Packet} (holder : pkt.session.Precedes session) (path : Path) (sender : Endpoint) :
    slot.dispatchPacket e pkt path sender = slot := by
  have hadopt := sessionAdopt_older hlex htracked holder
  unfold dispatchPacket dispatchFin onReject
  rw [hadopt]
  simp [hpeer, hraw]

theorem run_answers (hlex : e.plat.CmpLex) (sessionId : UInt32) (sessionTs : Timespec)
    (destAddr : Path → Endpoint) (inputs : List Input) :
    (((opened e sessionId sessionTs destAddr).run e inputs).view e).Answers :=
  run_preserves (P := View.Answers) hlex (fun _ _ _ _ h => h)
    (fun _ _ _ _ _ hmove h => h.moves (.single hmove)) rfl (opened_ok sessionId sessionTs destAddr)
    (View.answers_init rfl)

theorem Unmoved.refl (slot : Slot) : slot.Unmoved slot :=
  ⟨rfl, [], by simp [Slot.emits], by simp⟩

theorem Unmoved.emits (h : slot.Unmoved slot') {acts : List Act}
    (hquiet : ∀ act ∈ acts, act.nackSent = none) : slot.Unmoved (slot'.emits acts) := by
  obtain ⟨done, hlog, hdone⟩ := h.quiet
  have hid : slot'.peerId = slot.peerId :=
    (congrArg (fun s : Slot => s.peer.getD PEER_NA) h.same).symm
  refine ⟨h.same, done ++ acts, ?_, List.forall_mem_append.mpr ⟨hdone, hquiet⟩⟩
  change slot'.log ++ acts.map (fun act => (slot'.peerId, act)) = _
  rw [hlog, hid]
  simp [Slot.emits]

theorem Unmoved.sendToDests (h : slot.Unmoved slot') {answer : Packet}
    (hanswer : answer.has FLAG_NACK = false) : slot.Unmoved (slot'.sendToDests e answer) := by
  have hsend : ∀ (i : Path) (dest : Endpoint), (Act.send i dest answer).nackSent = none := fun _ _ =>
    if_neg (by simp [hanswer])
  unfold Slot.sendToDests
  split
  · exact h.emits (List.forall_mem_map.mpr fun i _ => hsend i _)
  · exact h.emits (List.forall_mem_map.mpr fun i _ => hsend i _)

theorem Unmoved.onNack (h : slot.Unmoved slot') (hanswers : (slot'.view e).Answers) (pkt : Packet) :
    slot.Unmoved (slot'.onNack e pkt) := by
  -- The memory of answered NACKs is all that changes besides the log.
  have hmemory : ∀ (tick : Nat) (buf : Nat → NackDedupEntry) (next : Nat), slot.Unmoved
      { slot' with tick := tick, nackDedupBuf := buf, nackDedupNext := next } :=
    fun _ _ _ => ⟨h.same, h.quiet⟩
  unfold Slot.onNack
  split
  · exact h
  unfold nackIsDuplicate
  dsimp only
  split
  · exact hmemory ..
  · simp only [Bool.false_eq_true, if_false]
    have hanswer := hanswers pkt.ackNum
    unfold View.answer at hanswer
    unfold slotRetransmitOrReject slotSendReject
    split
    · rename_i again hget
      rw [show (slot'.view e).sendWindow.sendGet pkt.ackNum = some again from hget] at hanswer
      exact (hmemory ..).sendToDests hanswer
    · rename_i hget
      rw [show (slot'.view e).sendWindow.sendGet pkt.ackNum = none from hget] at hanswer
      exact (hmemory ..).sendToDests hanswer

theorem Unmoved.tracked (h : slot.Unmoved slot') : slot'.tracked = slot.tracked :=
  (congrArg Slot.tracked h.same).symm

theorem Unmoved.peer (h : slot.Unmoved slot') : slot'.peer = slot.peer :=
  (congrArg (fun s : Slot => s.peer) h.same).symm

theorem step_older (hlex : e.plat.CmpLex) (hraw : e.type.isRawType = false) (hpeer : slot.peer = none)
    (hanswers : (slot.view e).Answers) {session : SessionHdr} (htracked : slot.tracked = some session)
    {pkt : Packet} (holder : pkt.session.Precedes session) (path : Path) (sender : Endpoint) :
    slot.Unmoved (slot.step e (.packet path sender pkt)) := by
  have hrecv : slot.Unmoved (slot.emit (.recv pkt)) :=
    (Unmoved.refl slot).emits (by simp [Act.nackSent])
  have hdispatch : ∀ {slot' : Slot}, slot.Unmoved slot' →
      slot.Unmoved (slot'.dispatchPacket e pkt path sender) := by
    intro slot' h
    rw [dispatchPacket_older hlex hraw (h.peer.trans hpeer) (h.tracked.trans htracked) holder]
    exact h
  have hnack : slot.Unmoved ((slot.emit (.recv pkt)).senderHandlePacket e pkt).1 := by
    unfold senderHandlePacket
    split
    · exact hrecv
    · exact hrecv.onNack hanswers pkt
  rw [step_packet_eq]
  split
  · exact Unmoved.refl slot
  split
  · split
    · exact hdispatch hnack
    · exact hnack
  · exact hdispatch hrecv

end

end Slot

-- What thread_recv_session_adopt does with a new, the same and an old session.
def Slot.adoption (e : Env) (slot : Slot) (pkt : Packet) : TcpCtx.SessionResult → Slot × Bool
  | .new => (slot.adoptSession e pkt, true)
  | .same => (slot, true)
  | .old => (slot, false)

theorem Slot.adoption_injective {e : Env} {slot : Slot} {pkt : Packet} :
    Function.Injective (slot.adoption e pkt) := by
  have hnew : slot.adoptSession e pkt ≠ slot := by
    intro heq
    have hlog := congrArg (fun s : Slot => s.log.length) heq
    simp [adoptSession, emit, emits] at hlog
  intro a b hab
  have hslot := congrArg Prod.fst hab
  have hflag := congrArg Prod.snd hab
  cases a with
  | new =>
    cases b with
    | new => rfl
    | same => exact absurd hslot hnew
    | old => cases hflag
  | same =>
    cases b with
    | new => exact absurd hslot.symm hnew
    | same => rfl
    | old => cases hflag
  | old =>
    cases b with
    | new => cases hflag
    | same => cases hflag
    | old => rfl

namespace TcpCtx

-- A step that ends the reign of the accepted session: a newer one is accepted, or all paths are
-- down.
def Ends (ctx : TcpCtx) : Input → Prop
  | .accept _ pkt => ∀ session ∈ ctx.tcpAcceptedSession, session.Precedes pkt.session
  | .resetAll => ctx.tcpActivePaths = 0
  | _ => False

instance (ctx : TcpCtx) : ∀ input : Input, Decidable (ctx.Ends input)
  | .accept _ pkt =>
      inferInstanceAs (Decidable (∀ session ∈ ctx.tcpAcceptedSession, session.Precedes pkt.session))
  | .resetAll => inferInstanceAs (Decidable (ctx.tcpActivePaths = 0))
  | .packet .. | .pollTimeout _ | .connect _ | .start _ | .exit _ | .close _ | .leave _ | .release =>
      .isFalse id

section

variable {e : Env} {ctx : TcpCtx} {session : SessionHdr} {pkt : Packet}

-- The comparison at accept time and the one of the receive thread are the same.
theorem sessionAdopt_eq_adoption {slot : Slot} (hsame : ctx.tcpAcceptedSession = slot.tracked) :
    slot.sessionAdopt e pkt = slot.adoption e pkt (ctx.sessionCompare e pkt) := by
  unfold sessionCompare Slot.sessionAdopt
  rw [hsame, Slot.tracked]
  by_cases hknown : slot.peerSessionKnown = true
  · rw [if_neg (by simp [hknown]), if_pos hknown]
    dsimp only
    by_cases hpos : 0 < e.plat.timespecCmp pkt.sessionTs slot.peerSessionTs
    · rw [if_pos hpos, if_pos hpos]
      rfl
    rw [if_neg hpos, if_neg hpos]
    by_cases hneg : e.plat.timespecCmp pkt.sessionTs slot.peerSessionTs < 0
    · rw [if_pos hneg, if_pos hneg]
      rfl
    rw [if_neg hneg, if_neg hneg]
    by_cases hlt : slot.peerSessionId < pkt.sessionId
    · rw [if_pos hlt, if_pos hlt]
      rfl
    rw [if_neg hlt, if_neg hlt]
    by_cases heq : pkt.sessionId = slot.peerSessionId
    · rw [if_pos heq, if_neg (by rw [heq]; exact UInt32.lt_irrefl _)]
      rfl
    · have hgt : pkt.sessionId < slot.peerSessionId :=
        UInt32.lt_of_le_of_ne (UInt32.not_lt.mp hlt) heq
      rw [if_neg heq, if_pos hgt]
      rfl
  · rw [if_pos (by simpa using hknown), if_neg hknown]
    rfl

theorem sessionCompare_new (hlex : e.plat.CmpLex) (haccepted : ctx.tcpAcceptedSession = some session)
    (hnew : ctx.sessionCompare e pkt = .new) : session.Precedes pkt.session := by
  unfold sessionCompare at hnew
  rw [haccepted] at hnew
  dsimp only at hnew
  by_cases hpos : 0 < e.plat.timespecCmp pkt.sessionTs session.ts
  · exact .inl ((hlex.pos _ _).mp hpos)
  rw [if_neg hpos] at hnew
  by_cases hneg : e.plat.timespecCmp pkt.sessionTs session.ts < 0
  · rw [if_pos hneg] at hnew
    cases hnew
  rw [if_neg hneg] at hnew
  by_cases hlt : session.id < pkt.sessionId
  · have hzero : e.plat.timespecCmp pkt.sessionTs session.ts = 0 := by omega
    exact .inr ⟨((hlex.eq_zero _ _).mp hzero).symm, hlt⟩
  · rw [if_neg hlt] at hnew
    split at hnew <;> cases hnew

theorem step_accepted (hlex : e.plat.CmpLex) (haccepted : ctx.tcpAcceptedSession = some session)
    (input : Input) (hends : ¬ ctx.Ends input) :
    (ctx.step e input).tcpAcceptedSession = some session := by
  cases input with
  | packet path pkt =>
    change (if ctx.running path then _ else ctx : TcpCtx).tcpAcceptedSession = _
    split
    · unfold tcpHandlePacket handlePing
      split
      · exact haccepted
      split
      · exact haccepted
      split
      · exact haccepted
      split
      · exact haccepted
      split <;> exact haccepted
    · exact haccepted
  | pollTimeout path =>
    change (if ctx.running path then _ else ctx : TcpCtx).tcpAcceptedSession = _
    split
    · unfold checkPingTimeout
      dsimp only
      split
      · exact haccepted
      · split <;> exact haccepted
    · exact haccepted
  | connect path =>
    change (if e.role = .sender then ctx.senderConnect e path else ctx).tcpAcceptedSession = _
    split
    · unfold senderConnect publish resetConnectionState
      split <;> exact haccepted
    · exact haccepted
  | accept path pkt =>
    change (if e.role = .receiver then ctx.receiverAccept e path pkt else ctx).tcpAcceptedSession = _
    split
    · unfold receiverAccept
      split
      · exact haccepted
      · exact haccepted
      · rename_i hnew
        refine absurd (fun known hknown => ?_) hends
        exact sessionCompare_new hlex hknown hnew
    · exact haccepted
  | resetAll =>
    change ctx.resetAllPathsDisconnected.tcpAcceptedSession = _
    have hactive : ctx.tcpActivePaths ≠ 0 := hends
    unfold resetAllPathsDisconnected
    rw [if_pos hactive]
    exact haccepted
  | start path => exact haccepted
  | exit path => exact haccepted
  | close path => exact haccepted
  | leave path => exact haccepted
  | release => exact haccepted

theorem step_refused (hlex : e.plat.CmpLex) (hrole : e.role = .receiver)
    (haccepted : ctx.tcpAcceptedSession = some session) (hother : pkt.session ≠ session) (path : Path) :
    ctx.step e (.packet path pkt) = ctx ∨
      ctx.step e (.packet path pkt) = { ctx with toSlot := ctx.toSlot.emit (.recv pkt) } := by
  have hrefuses : refuses e { ctx with toSlot := ctx.toSlot.emit (.recv pkt) } pkt = true := by
    unfold refuses
    rw [haccepted]
    simp only [hrole, decide_true, Bool.true_and, Bool.or_eq_true, bne_iff_ne]
    by_cases hid : pkt.sessionId = session.id
    · refine .inr fun hzero => hother ?_
      have hts := (hlex.eq_zero _ _).mp hzero
      simp [Packet.session, hid, hts]
    · exact .inl hid
  by_cases hrunning : ctx.running path = true
  · right
    change (if ctx.running path then _ else ctx) = _
    rw [if_pos hrunning, tcpHandlePacket, if_pos hrefuses]
  · left
    exact if_neg hrunning

end

end TcpCtx

-- The order of sessions at a retransmitting 1:1 receiver, the comparison at accept time and the
-- filter of a TCP receiver.
theorem session_order {e : Env} (hlex : e.plat.CmpLex) :
    (e.type.isRawType = false → ∀ sessionId sessionTs destAddr before,
      let slot := (Slot.opened e sessionId sessionTs destAddr).run e before
      (∀ inputs, ∃ acts, slot.Follows e (slot.run e inputs) acts) ∧
      ∀ session pkt, slot.tracked = some session → pkt.session.Precedes session → ∀ path sender,
        slot.Unmoved (slot.step e (.packet path sender pkt))) ∧
    (∀ (ctx : TcpCtx) (slot : Slot) pkt, ctx.tcpAcceptedSession = slot.tracked → ∀ result,
      slot.sessionAdopt e pkt = slot.adoption e pkt result ↔ ctx.sessionCompare e pkt = result) ∧
    (e.role = .receiver → ∀ (ctx : TcpCtx) session inputs, ctx.tcpAcceptedSession = some session →
      Run.Meets (TcpCtx.step e) (fun ctx input => ¬ ctx.Ends input) ctx inputs →
      (ctx.run e inputs).tcpAcceptedSession = some session ∧
      ∀ path pkt, pkt.session ≠ session →
        (ctx.run e inputs).step e (.packet path pkt) = ctx.run e inputs ∨
        (ctx.run e inputs).step e (.packet path pkt) =
          { ctx.run e inputs with toSlot := (ctx.run e inputs).toSlot.emit (.recv pkt) }) := by
  refine ⟨fun hraw sessionId sessionTs destAddr before => ?_, fun ctx slot pkt hsame result => ?_,
    fun hrole ctx session inputs haccepted hmeets => ?_⟩
  · obtain ⟨hpeer, hok⟩ := Slot.run_ok hlex rfl (Slot.opened_ok sessionId sessionTs destAddr) before
    have hanswers := Slot.run_answers hlex sessionId sessionTs destAddr before
    exact ⟨fun inputs => Slot.run_follows hlex hraw hpeer hok inputs, fun session pkt htracked holder =>
      Slot.step_older hlex hraw hpeer hanswers htracked holder⟩
  · rw [TcpCtx.sessionAdopt_eq_adoption hsame]
    exact ⟨fun heq => Slot.adoption_injective heq, fun heq => by rw [heq]⟩
  · have hkept : (ctx.run e inputs).tcpAcceptedSession = some session :=
      hmeets.preserves (P := fun ctx : TcpCtx => ctx.tcpAcceptedSession = some session)
        (fun _ input hends h => TcpCtx.step_accepted hlex h input hends) haccepted
    exact ⟨hkept, fun path pkt hother => TcpCtx.step_refused hlex hrole hkept hother path⟩

-- A receiver in the session of `samplePing` hears an older and then a newer one, and so does a TCP
-- receiver that has accepted it.
theorem session_order_sample :
    let e := Env.sample .unicast
    let slot := (Slot.sample e).run e [.sample (.samplePing 7)]
    let older := Packet.buildPing ⟨1, 5, 8, 0⟩ 3 [PING_STATE_NORMAL, 0, 0, 0]
    let newer := Packet.buildPing ⟨1, 5, 10, 0⟩ 3 [PING_STATE_NORMAL, 0, 0, 0]
    let tcp := Env.sample .tcp
    let ctx := (TcpCtx.opened tcp 3 ⟨2, 0⟩ fun _ => Endpoint.clear).run tcp
      [.accept 0 (.samplePing 7), .start 0]
    (∃ acts, slot.Follows e (slot.run e [.sample newer]) acts) ∧
      slot.Unmoved (slot.step e (.sample older)) ∧
      (ctx.run tcp [.packet 0 (.samplePing 8)]).tcpAcceptedSession = some (Packet.samplePing 7).session := by
  intro e slot older newer tcp ctx
  have hudp := (session_order (e := e) Cplat.reference_cmpLex).1 rfl 3 ⟨2, 0⟩ (fun _ => .target)
    [.sample (.samplePing 7)]
  have htcp := (session_order (e := tcp) Cplat.reference_cmpLex).2.2 rfl ctx (Packet.samplePing 7).session
    [.packet 0 (.samplePing 8)] (by decide +kernel) (by decide +kernel)
  exact ⟨hudp.1 [.sample newer],
    hudp.2 (Packet.samplePing 7).session older (by decide +kernel) (by decide +kernel) 0 .source, htcp.1⟩

end Porter
