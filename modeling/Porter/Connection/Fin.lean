import Mathlib.Data.List.Induction
import Porter.Connection.Loss
import Porter.Moves.Record
import Porter.Platform
import Porter.Recv.Close

namespace Porter

-- What the record of a slot says about the session it tracks: the number its window started at,
-- the numbers popped or skipped since, the packets heard since, with the one that started the
-- session, and the packet at hand.
structure Ledger where
  tracked : Option SessionHdr
  start : UInt32
  done : List UInt32
  heard : List Packet
  cur : Option Packet

namespace Ledger

def empty : Ledger := ⟨none, 0, [], [], none⟩

def step (b : Ledger) : Act → Ledger
  | .recv pkt => { b with heard := b.heard ++ [pkt], cur := some pkt }
  | .poll => { b with cur := none }
  | .adopt session seq =>
      { b with tracked := some session, start := seq, done := [], heard := b.cur.toList }
  | .reset seq => { b with start := seq, done := [] }
  | .pop pkt _ => { b with done := b.done ++ [pkt.seqNum] }
  | .skip seq => { b with done := b.done ++ [seq] }
  | .forget => { b with tracked := none }
  | _ => b

def replay (acts : List Act) : Ledger := acts.foldl step empty

-- Every number from the start up to `seq` was popped or skipped, in this order.
def Reached (b : Ledger) (seq : UInt32) : Prop :=
  b.done = (List.range b.done.length).map (fun k => b.start + UInt32.ofNat k) ∧
    seq = b.start + UInt32.ofNat b.done.length

-- A FIN of the tracked session, heard since the session started, that may end it now with this
-- target: one that names it as its target, which is reached, or the packet at hand.
def Due (b : Ledger) (pkt : Packet) (target : UInt32) : Prop :=
  ∃ fin ∈ b.heard, fin.has FLAG_FIN = true ∧ b.tracked = some fin.session ∧ fin.ackNum = target ∧
    (fin.has FLAG_FIN_TARGET_VALID = true → b.Reached target) ∧
    (fin.has FLAG_FIN_TARGET_VALID = false → fin = pkt)

-- While a packet is handled, only a FIN that is due resets the session or is acknowledged.
def Lawful (b : Ledger) : Act → Prop
  | .forget => ∀ pkt, b.cur = some pkt → ∃ target, b.Due pkt target
  | .sendTcp ack => ∀ pkt, b.cur = some pkt → b.Due pkt ack.ackNum
  | _ => True

-- The application is told of a loss only when a FIN is due.
def Honest (b : Ledger) (act : Act) : Prop :=
  act.isLoss = true → ∀ pkt, b.cur = some pkt → ∃ target, b.Due pkt target

-- Entries that say nothing about the session.
def isOther : Act → Bool
  | .send .. | .sendTcp _ | .push _ | .nack .. | .event _ => true
  | _ => false

theorem step_other {act : Act} (h : isOther act = true) (b : Ledger) : b.step act = b := by
  cases act <;> first | rfl | exact absurd h Bool.false_ne_true

theorem foldl_other {acts : List Act} (h : ∀ act ∈ acts, isOther act = true) (b : Ledger) :
    acts.foldl step b = b :=
  (Run.meets_still (C := fun _ _ => True) fun act hact => ⟨step_other (h act hact) b, trivial⟩).1

def isFree : Act → Bool
  | .recv _ | .poll | .forget | .sendTcp _ => false
  | _ => true

theorem meets_free {acts : List Act} (h : ∀ act ∈ acts, isFree act = true) (b : Ledger) :
    Run.Meets step Lawful b acts ∧ (acts.foldl step b).cur = b.cur := by
  induction acts generalizing b with
  | nil => exact ⟨trivial, rfl⟩
  | cons act rest ih =>
    have hact := h act List.mem_cons_self
    have hcur : (b.step act).cur = b.cur := by
      cases act <;> first | rfl | exact absurd hact Bool.false_ne_true
    have hlawful : b.Lawful act := by
      cases act <;> trivial
    obtain ⟨hmeets, hrest⟩ := ih (fun a ha => h a (List.mem_cons_of_mem act ha)) (b.step act)
    exact ⟨⟨hlawful, hmeets⟩, hrest.trans hcur⟩

theorem reached_start {b : Ledger} (h : b.done = []) : b.Reached b.start := by
  refine ⟨by simp [h], ?_⟩
  rw [h]
  exact (UInt32.add_zero _).symm

theorem Reached.advance {b b' : Ledger} {seq : UInt32} (h : b.Reached seq)
    (hstart : b'.start = b.start) (hdone : b'.done = b.done ++ [seq]) : b'.Reached (seq + 1) := by
  obtain ⟨hall, hseq⟩ := h
  have hlen : b'.done.length = b.done.length + 1 := by simp [hdone]
  refine ⟨?_, ?_⟩
  · rw [hlen, List.range_succ, List.map_append, hdone, hstart, ← hall, hseq]
    rfl
  · rw [hlen, hstart, hseq, UInt32.ofNat_add, ← UInt32.add_assoc]
    rfl

end Ledger

namespace View

def ledger (v : View) : Ledger := Ledger.replay v.entries

theorem ledger_emits (v : View) (acts : List Act) :
    (v.emits acts).ledger = acts.foldl Ledger.step v.ledger := by
  unfold ledger Ledger.replay
  rw [entries_emits, List.foldl_append]

-- A FIN that waits was heard from the tracked session since it was adopted.
def Announced (v : View) : Prop :=
  ∃ fin ∈ v.ledger.heard, fin.has FLAG_FIN = true ∧ fin.has FLAG_FIN_TARGET_VALID = true ∧
    fin.session = v.session ∧ fin.ackNum = v.finTarget

-- The record tells the session, the window and the FIN that waits.
structure Fins (cur : Option Packet) (v : View) : Prop where
  tracked : v.known = true → v.ledger.tracked = some v.session
  next : v.known = true → v.ledger.Reached v.win.nextSeq
  pending : v.pendingFin = true → v.known = true ∧ v.Announced
  hand : ∀ pkt, cur = some pkt → v.ledger.cur = some pkt ∧ pkt ∈ v.ledger.heard
  peer : v.peer ≠ none → v.known = true ∧ ∀ pkt, cur = some pkt → v.session = pkt.session
  freed : ∀ pkt, cur = some pkt → v.peer ≠ none → v.active = false → ∃ target, v.ledger.Due pkt target

section

variable {e : Env} {cur : Option Packet} {v v' : View}

theorem Fins.other (h : v.Fins cur) (acts : List Act)
    (hacts : ∀ act ∈ acts, Ledger.isOther act = true) (hlog : v'.log = (v.emits acts).log)
    (hpeer : v'.peer = v.peer) (hactive : v'.active = v.active) (hknown : v'.known = v.known)
    (hsession : v'.session = v.session) (hnext : v'.win.nextSeq = v.win.nextSeq)
    (hpending : v'.pendingFin = true → v.pendingFin = true ∧ v'.finTarget = v.finTarget) :
    v'.Fins cur := by
  have hentries : v'.entries = (v.emits acts).entries := by
    unfold entries peerId
    rw [hlog, hpeer]
    rfl
  have hledger : v'.ledger = v.ledger := by
    unfold ledger
    rw [hentries]
    exact (ledger_emits v acts).trans (Ledger.foldl_other hacts _)
  refine ⟨?_, ?_, fun hp => ?_, ?_, ?_, ?_⟩
  · rw [hledger, hknown, hsession]
    exact h.tracked
  · rw [hledger, hknown, hnext]
    exact h.next
  · obtain ⟨hwaits, htarget⟩ := hpending hp
    obtain ⟨hk, fin, hmem, hfin, hvalid, hs, hack⟩ := h.pending hwaits
    refine ⟨hknown.trans hk, fin, ?_, hfin, hvalid, hs.trans hsession.symm, hack.trans htarget.symm⟩
    rw [hledger]
    exact hmem
  · rw [hledger]
    exact h.hand
  · rw [hpeer, hknown, hsession]
    exact h.peer
  · rw [hpeer, hactive, hledger]
    exact h.freed

theorem Fins.due (h : v.Fins cur) {target : UInt32} (hfin : v.Closes cur target) {pkt : Packet}
    (hcur : cur = some pkt) : v.ledger.Due pkt target := by
  rcases hfin pkt hcur with ⟨hwaits, htarget, hreached⟩ | ⟨hflag, hack, hreached, hsession⟩
  · obtain ⟨hknown, fin, hmem, hflag, hvalid, hs, hack⟩ := h.pending hwaits
    refine ⟨fin, hmem, hflag, ?_, hack.trans htarget, fun _ => ?_, fun hno => ?_⟩
    · rw [hs]
      exact h.tracked hknown
    · rw [← hreached]
      exact h.next hknown
    · rw [hvalid] at hno
      cases hno
  · -- The packet at hand is itself the FIN.
    have htracks : v.known = true ∧ v.session = pkt.session := by
      by_cases hpeer : v.peer = none
      · exact hsession hpeer
      · exact ⟨(h.peer hpeer).1, (h.peer hpeer).2 pkt hcur⟩
    refine ⟨pkt, (h.hand pkt hcur).2, hflag, ?_, hack, fun hvalid => ?_, fun _ => rfl⟩
    · rw [← htracks.2]
      exact h.tracked htracks.1
    · rw [← hreached hvalid]
      exact h.next htracks.1

theorem Fins.advance (h : v.Fins cur) (act : Act) (out : List Act)
    (hstep : v.ledger.step act = { v.ledger with done := v.ledger.done ++ [v.win.nextSeq] })
    (hout : ∀ act ∈ out, Ledger.isOther act = true) (hlog : v'.log = (v.emits (act :: out)).log)
    (hpeer : v'.peer = v.peer)
    (hactive : v'.active = v.active) (hknown : v'.known = v.known) (hsession : v'.session = v.session)
    (hnext : v'.win.nextSeq = v.win.nextSeq + 1) (hpending : v'.pendingFin = v.pendingFin)
    (htarget : v'.finTarget = v.finTarget) (hused : v.peer = none ∨ v.active = true) :
    v'.Fins cur := by
  have hentries : v'.entries = v.entries ++ act :: out := by
    rw [← entries_emits]
    unfold entries peerId
    rw [hlog, hpeer]
    rfl
  have hledger : v'.ledger = { v.ledger with done := v.ledger.done ++ [v.win.nextSeq] } := by
    unfold ledger Ledger.replay
    rw [hentries, List.foldl_append, List.foldl_cons]
    change out.foldl Ledger.step (v.ledger.step act) = _
    rw [Ledger.foldl_other hout, hstep]
    rfl
  refine ⟨?_, fun hk => ?_, fun hp => ?_, ?_, ?_, fun pkt _ hp hfree => ?_⟩
  · rw [hledger, hknown, hsession]
    exact h.tracked
  · rw [hnext]
    refine (h.next (hknown.symm.trans hk)).advance ?_ ?_ <;> rw [hledger]
  · obtain ⟨hk, fin, hmem, hfin, hvalid, hs, hack⟩ := h.pending (hpending.symm.trans hp)
    refine ⟨hknown.trans hk, fin, ?_, hfin, hvalid, hs.trans hsession.symm, hack.trans htarget.symm⟩
    rw [hledger]
    exact hmem
  · rw [hledger]
    exact h.hand
  · rw [hpeer, hknown, hsession]
    exact h.peer
  · rcases hused with hnone | hactive'
    · exact absurd (hpeer.trans hnone) hp
    · exact absurd (hfree.symm.trans (hactive.trans hactive')) Bool.false_ne_true

theorem fins_adopted {pkt : Packet} (hcur : v.ledger.cur = some pkt)
    (hused : v.peer = none ∨ v.active = true) :
    (v.adopted e pkt).Fins (some pkt) := by
  have hledger : (v.adopted e pkt).ledger =
      ⟨some pkt.session, pkt.seqNum, [], [pkt], some pkt⟩ := by
    refine (ledger_emits _ [.adopt pkt.session pkt.seqNum]).trans ?_
    change v.ledger.step (.adopt pkt.session pkt.seqNum) = _
    unfold Ledger.step
    rw [hcur]
    rfl
  refine ⟨fun _ => ?_, fun _ => ?_, fun hp => absurd hp Bool.false_ne_true, fun pkt' hpkt => ?_,
    fun hp => ⟨rfl, fun pkt' hpkt => congrArg Packet.session (Option.some.inj hpkt)⟩,
    fun pkt' _ hp hfree => ?_⟩
  · rw [hledger]
    rfl
  · rw [hledger]
    exact Ledger.reached_start rfl
  · obtain rfl : pkt = pkt' := Option.some.inj hpkt
    rw [hledger]
    exact ⟨rfl, List.mem_singleton_self pkt⟩
  · rcases hused with hnone | hactive
    · exact absurd hnone hp
    · exact absurd (hfree.symm.trans hactive) Bool.false_ne_true

theorem Fins.forgotten (h : v.Fins cur) (frag : Reassembly) (hpeer : v.peer = none) :
    (View.forgotten e { v with frag := frag, pendingFin := false, finTarget := 0 }).Fins cur := by
  have hledger : (View.forgotten e { v with frag := frag, pendingFin := false, finTarget := 0 }).ledger =
      { v.ledger with tracked := none } := ledger_emits _ [.forget]
  refine ⟨fun hk => absurd hk Bool.false_ne_true, fun hk => absurd hk Bool.false_ne_true,
    fun hp => absurd hp Bool.false_ne_true, fun pkt hpkt => ?_, fun hp => absurd hpeer hp,
    fun _ _ hp => absurd hpeer hp⟩
  rw [hledger]
  exact h.hand pkt hpkt

theorem sends_other (dests : List (Path × Endpoint)) (pkt : Packet) :
    ∀ act ∈ dests.map (fun d => Act.send d.1 d.2 pkt), Ledger.isOther act = true := by
  intro act hact
  obtain ⟨d, -, rfl⟩ := List.mem_map.mp hact
  rfl

theorem nack_other (v : View) (seq : UInt32) (dests : List (Path × Endpoint)) :
    ∀ act ∈ Act.nack seq v.win :: dests.map (fun d => .send d.1 d.2 (Packet.buildNack v.own seq)),
      Ledger.isOther act = true := by
  intro act hact
  rcases List.mem_cons.mp hact with rfl | hact
  · rfl
  · exact sends_other dests _ act hact

theorem events_other {α : Type} (evs : List α) (ev : α → Event) :
    ∀ act ∈ evs.map (fun x => Act.event (ev x)), Ledger.isOther act = true := by
  intro act hact
  obtain ⟨x, -, rfl⟩ := List.mem_map.mp hact
  rfl

theorem Fins.synced (h : v.Fins cur) (alive : Bool) (evs : List Event) :
    (v.synced e alive evs).Fins cur := by
  unfold View.synced callbackEmits
  split
  · exact h.other _ (events_other (evs ++ Event.ofAlive v.alive alive) id) rfl rfl rfl rfl rfl rfl
      fun hp => ⟨hp, rfl⟩
  · exact h.other [] (by simp) (by rw [emits_nil]) rfl rfl rfl rfl rfl fun hp => ⟨hp, rfl⟩

theorem Move.fins (hlex : e.plat.CmpLex) (hm : Move e cur v v') (hinv : Inv e v) (h : v.Fins cur) :
    v'.Fins cur := by
  cases hm with
  | sync alive evs => exact h.synced alive evs
  | adopt pkt hcur hearly hnew =>
    -- A peer has its session from the start, so none of its packets starts another.
    have hnone : v.peer = none := by
      by_contra hp
      obtain ⟨hknown, hsession⟩ := h.peer hp
      rcases hnew with hunknown | hnewer
      · rw [hknown] at hunknown
        cases hunknown
      · exact newer_ne_session hlex hnewer (hsession pkt hcur)
    subst hcur
    exact fins_adopted (h.hand pkt rfl).1 (.inl hnone)
  | push pkt win pending nackNum hcur hearly hdata hping hknown hsession hpush =>
    exact h.other [.push pkt] (by simp [Ledger.isOther]) rfl rfl rfl rfl rfl
      (Window.recvPush_nextSeq hpush) fun hp => ⟨hp, rfl⟩
  | timer =>
    exact h.other [] (by simp) (by rw [emits_nil]) rfl rfl rfl rfl rfl fun hp => ⟨hp, rfl⟩
  | finClear =>
    exact h.other [] (by simp) (by rw [emits_nil]) rfl rfl rfl rfl rfl
      fun hp => absurd hp Bool.false_ne_true
  | nack seq dests =>
    exact h.other _ (nack_other v seq dests) rfl rfl rfl rfl rfl rfl fun hp => ⟨hp, rfl⟩
  | expire dests =>
    exact h.other _ (nack_other v v.nackNum dests) rfl rfl rfl rfl rfl rfl fun hp => ⟨hp, rfl⟩
  | pop pkt win hcur hpop hpending hused =>
    obtain ⟨hheld, rfl⟩ := (Window.recvPop_eq_some hinv.wf).mp hpop
    obtain ⟨out, hout⟩ := popped_log pkt v.win.dropNext
    have hnum : pkt.seqNum = v.win.nextSeq := hinv.wf.labelled _ pkt hheld
    refine h.advance (.pop pkt v.alive) (out.map fun data => .event (.data data)) ?_
      (events_other out .data) ?_ (popped_peer ..) (popped_active ..) (popped_known ..)
      (popped_session ..) ?_ (popped_pendingFin ..) (popped_finTarget ..) hused
    · rw [← hnum]
      rfl
    · rw [hout]
      simp [View.emit, View.emits, peerId]
    · rw [popped_win]
      rfl
  | skip pkt hcur hreject hraw hknown hsession hnext hdead hpending hused =>
    refine h.advance (.skip pkt.ackNum) [] ?_ (by simp) rfl rfl rfl rfl rfl rfl rfl rfl hused
    rw [hnext]
    rfl
  | reset pkt hcur hearly hraw =>
    have hnone : v.peer = none := by
      by_contra hp
      rw [hinv.kind hp] at hraw
      cases hraw
    have hledger : (emit { v with win := v.win.recvReset pkt.seqNum, frag := Reassembly.empty }
        (.reset pkt.seqNum)).ledger = { v.ledger with start := pkt.seqNum, done := [] } :=
      ledger_emits _ [.reset pkt.seqNum]
    refine ⟨?_, fun _ => ?_, fun hp => ?_, ?_, fun hp => absurd hnone hp,
      fun _ _ hp => absurd hnone hp⟩
    · rw [hledger]
      exact h.tracked
    · rw [hledger]
      exact Ledger.reached_start rfl
    · unfold Announced
      rw [hledger]
      exact h.pending hp
    · rw [hledger]
      exact h.hand
  | forget frag hfrag hpeer => exact h.forgotten frag hpeer
  | finPending target hnext pkt hcur hfin hvalid htarget hsession =>
    have htracks : v.known = true ∧ v.session = pkt.session := by
      by_cases hp : v.peer = none
      · exact hsession hp
      · exact ⟨(h.peer hp).1, (h.peer hp).2 pkt hcur⟩
    refine ⟨h.tracked, h.next, fun _ => ⟨htracks.1, pkt, (h.hand pkt hcur).2, hfin, hvalid,
      htracks.2.symm, htarget.symm⟩, h.hand, h.peer, h.freed⟩
  | free hpeer hdead hfin =>
    obtain ⟨target, hcloses⟩ := hfin
    exact ⟨h.tracked, h.next, h.pending, h.hand, h.peer,
      fun pkt hcur _ _ => ⟨target, h.due hcloses hcur⟩⟩
  | answer pkt dests =>
    exact h.other _ (sends_other dests _) rfl rfl rfl rfl rfl rfl fun hp => ⟨hp, rfl⟩
  | finAck target =>
    exact h.other [.sendTcp (Packet.buildFinAck v.own target)] (by simp [Ledger.isOther]) rfl rfl
      rfl rfl rfl rfl fun hp => ⟨hp, rfl⟩

theorem Moves.fins (hlex : e.plat.CmpLex) (hm : Moves e cur v v') (hinv : Inv e v)
    (h : v.Fins cur) : v'.Fins cur :=
  (Run.star_preserves (P := fun v => Inv e v ∧ v.Fins cur)
    (fun _ _ hm h => ⟨hm.inv h.1, hm.fins hlex h.1 h.2⟩) hm ⟨hinv, h⟩).2

theorem Fins.rest (h : v.Fins cur) : v.Fins none where
  tracked := h.tracked
  next := h.next
  pending := h.pending
  hand := nofun
  peer := fun hp => ⟨(h.peer hp).1, nofun⟩
  freed := nofun

theorem Fins.recv (h : v.Fins none) (pkt : Packet)
    (hpeer : v.peer ≠ none → v.active = true ∧ v.session = pkt.session) :
    (v.emit (.recv pkt)).Fins (some pkt) := by
  have hledger : (v.emit (.recv pkt)).ledger =
      { v.ledger with heard := v.ledger.heard ++ [pkt], cur := some pkt } :=
    ledger_emits v [.recv pkt]
  refine ⟨?_, ?_, fun hp => ?_, fun pkt' hpkt => ?_, fun hp => ⟨(h.peer hp).1, fun pkt' hpkt => ?_⟩,
    fun _ _ hp hfree => ?_⟩
  · rw [hledger]
    exact h.tracked
  · rw [hledger]
    exact h.next
  · obtain ⟨hk, fin, hmem, hrest⟩ := h.pending hp
    refine ⟨hk, fin, ?_, hrest⟩
    rw [hledger]
    exact List.mem_append_left _ hmem
  · obtain rfl : pkt = pkt' := Option.some.inj hpkt
    rw [hledger]
    exact ⟨rfl, List.mem_append_right _ (List.mem_singleton_self pkt)⟩
  · obtain rfl : pkt = pkt' := Option.some.inj hpkt
    exact (hpeer hp).2
  · exact absurd (hfree.symm.trans (hpeer hp).1) Bool.false_ne_true

theorem Fins.poll (h : v.Fins none) : (v.emit .poll).Fins none := by
  have hledger : (v.emit .poll).ledger = { v.ledger with cur := none } := ledger_emits v [.poll]
  refine ⟨?_, ?_, fun hp => ?_, nofun, fun hp => ⟨(h.peer hp).1, nofun⟩, nofun⟩
  · rw [hledger]
    exact h.tracked
  · rw [hledger]
    exact h.next
  · obtain ⟨hk, fin, hmem, hrest⟩ := h.pending hp
    refine ⟨hk, fin, ?_, hrest⟩
    rw [hledger]
    exact hmem

theorem Fins.of_log (h : v.Fins none) {log : List (UInt32 × Act)}
    (hlog : entriesOf v.peerId log = v.entries) : ({ v with log := log } : View).Fins none := by
  have hledger : ({ v with log := log } : View).ledger = v.ledger := congrArg Ledger.replay hlog
  refine ⟨hledger ▸ h.tracked, hledger ▸ h.next, fun hp => ?_, nofun, h.peer, nofun⟩
  obtain ⟨hk, fin, hmem, hrest⟩ := h.pending hp
  exact ⟨hk, fin, hledger ▸ hmem, hrest⟩

theorem fins_cut (hpeer : v.peer = none) (hknown : v.known = false)
    (hpending : v.pendingFin = false) : v.Fins none where
  tracked := fun hk => absurd (hknown.symm.trans hk) Bool.false_ne_true
  next := fun hk => absurd (hknown.symm.trans hk) Bool.false_ne_true
  pending := fun hp => absurd (hpending.symm.trans hp) Bool.false_ne_true
  hand := nofun
  peer := fun hp => absurd hpeer hp
  freed := nofun

def Orderly (v : View) : Prop := Run.Meets Ledger.step Ledger.Lawful Ledger.empty v.entries

theorem Orderly.emits (h : v.Orderly) {acts : List Act}
    (hacts : Run.Meets Ledger.step Ledger.Lawful v.ledger acts) : (v.emits acts).Orderly := by
  unfold Orderly
  rw [entries_emits]
  exact Run.meets_append.mpr ⟨h, hacts⟩

theorem Orderly.free (h : v.Orderly) (hcur : v.ledger.cur = cur) (acts : List Act)
    (hacts : ∀ act ∈ acts, Ledger.isFree act = true) (hlog : v'.log = (v.emits acts).log)
    (hpeer : v'.peer = v.peer) : v'.Orderly ∧ v'.ledger.cur = cur := by
  have hentries : v'.entries = (v.emits acts).entries := by
    unfold entries peerId
    rw [hlog, hpeer]
    rfl
  obtain ⟨hmeets, hsame⟩ := Ledger.meets_free hacts v.ledger
  unfold Orderly ledger
  rw [hentries]
  exact ⟨h.emits hmeets, ((congrArg Ledger.cur (ledger_emits v acts)).trans hsame).trans hcur⟩

theorem free_of_other {acts : List Act} (h : ∀ act ∈ acts, Ledger.isOther act = true)
    (hsend : ∀ pkt, Act.sendTcp pkt ∉ acts) : ∀ act ∈ acts, Ledger.isFree act = true := by
  intro act hact
  have hother := h act hact
  cases act <;> first | rfl | exact absurd hact (hsend _) | exact absurd hother Bool.false_ne_true

theorem Orderly.synced (h : v.Orderly) (hcur : v.ledger.cur = cur) (alive : Bool)
    (evs : List Event) : (v.synced e alive evs).Orderly ∧ (v.synced e alive evs).ledger.cur = cur := by
  unfold View.synced callbackEmits
  split
  · exact h.free hcur _ (free_of_other (events_other (evs ++ Event.ofAlive v.alive alive) id)
      (by simp)) rfl rfl
  · exact h.free hcur [] (by simp) (by rw [emits_nil]) rfl

theorem Move.orderly (hm : Move e cur v v') (hfins : v.Fins cur) (hcur : v.ledger.cur = cur)
    (h : v.Orderly) : v'.Orderly ∧ v'.ledger.cur = cur := by
  cases hm with
  | sync alive evs => exact h.synced hcur alive evs
  | adopt pkt => exact h.free hcur [.adopt pkt.session pkt.seqNum] (by simp [Ledger.isFree]) rfl rfl
  | push pkt => exact h.free hcur [.push pkt] (by simp [Ledger.isFree]) rfl rfl
  | nack seq dests => exact h.free hcur _ (free_of_other (nack_other v seq dests) (by simp)) rfl rfl
  | expire dests =>
    exact h.free hcur _ (free_of_other (nack_other v v.nackNum dests) (by simp)) rfl rfl
  | pop pkt win =>
    obtain ⟨out, hout⟩ := popped_log pkt win
    refine h.free hcur (.pop pkt v.alive :: out.map fun data => .event (.data data))
      (fun act hact => ?_) ?_ (popped_peer ..)
    · rcases List.mem_cons.mp hact with rfl | hact
      · rfl
      · exact free_of_other (events_other out .data) (by simp) act hact
    · rw [hout]
      simp [View.emit, View.emits, peerId]
  | skip pkt => exact h.free hcur [.skip pkt.ackNum] (by simp [Ledger.isFree]) rfl rfl
  | reset pkt => exact h.free hcur [.reset pkt.seqNum] (by simp [Ledger.isFree]) rfl rfl
  | forget frag hfrag hpeer hdead hpending hfin =>
    obtain ⟨target, hcloses⟩ := hfin
    have hledger : (View.forgotten e { v with
        frag := frag, pendingFin := false, finTarget := 0 }).ledger =
        { v.ledger with tracked := none } := ledger_emits _ [.forget]
    refine ⟨?_, (congrArg Ledger.cur hledger).trans hcur⟩
    exact Orderly.emits (v := { v with
      frag := frag, pendingFin := false, finTarget := 0, known := false
      win := Window.init 0 e.windowSize }) h
      ⟨fun pkt hpkt => ⟨target, hfins.due hcloses (hcur.symm.trans hpkt)⟩, trivial⟩
  | answer pkt dests => exact h.free hcur _ (free_of_other (sends_other dests _) (by simp)) rfl rfl
  | finAck target hfin =>
    have hledger : (v.emit (.sendTcp (Packet.buildFinAck v.own target))).ledger = v.ledger :=
      ledger_emits v [.sendTcp (Packet.buildFinAck v.own target)]
    refine ⟨h.emits ⟨fun pkt hpkt => ?_, trivial⟩, (congrArg Ledger.cur hledger).trans hcur⟩
    exact hfins.due hfin (hcur.symm.trans hpkt)
  | timer | finPending | finClear | free =>
    exact h.free hcur [] (by simp) (by rw [emits_nil]) rfl

theorem Moves.orderly (hlex : e.plat.CmpLex) (hm : Moves e cur v v') (hinv : Inv e v)
    (hfins : v.Fins cur) (hcur : v.ledger.cur = cur) (h : v.Orderly) :
    v'.Fins none ∧ v'.Orderly := by
  have hend := Run.star_preserves
    (P := fun v => Inv e v ∧ v.Fins cur ∧ v.Orderly ∧ v.ledger.cur = cur)
    (fun _ _ hm h => ⟨hm.inv h.1, hm.fins hlex h.1 h.2.1, hm.orderly h.2.1 h.2.2.2 h.2.2.1⟩) hm
    ⟨hinv, hfins, h, hcur⟩
  exact ⟨hend.2.1.rest, hend.2.2.1⟩

end

end View

namespace Slot

open View

variable {e : Env} {slot : Slot}

end Slot

namespace TcpCtx

open View

variable {e : Env}

theorem Shift.fins (hlex : e.plat.CmpLex) {v v' : View} (hs : Shift e v v') (hinv : Inv e v)
    (hpeer : v.peer = none) (h : v.Fins none ∧ v.Orderly) : v'.Fins none ∧ v'.Orderly := by
  cases hs with
  | packet _ pkt hmoves =>
    exact Moves.orderly hlex hmoves ⟨hinv.kind, hinv.wf, hinv.size, hinv.timer⟩
      (h.1.recv pkt fun hp => absurd hpeer hp)
      (congrArg Ledger.cur (ledger_emits v [.recv pkt])) (h.2.emits ⟨trivial, trivial⟩)
  | poll _ hmoves =>
    exact Moves.orderly hlex hmoves ⟨hinv.kind, hinv.wf, hinv.size, hinv.timer⟩ h.1.poll
      (congrArg Ledger.cur (ledger_emits v [.poll])) (h.2.emits ⟨trivial, trivial⟩)
  | same => exact h
  | sync alive evs => exact ⟨h.1.synced alive evs, (h.2.synced rfl alive evs).1⟩
  | cut => exact ⟨fins_cut hpeer rfl rfl, h.2⟩
  | resetAll sendWindow => exact ⟨fins_cut hpeer rfl rfl, h.2⟩

end TcpCtx

namespace Ctx

open View

section

variable {e : Env} {ctx : Ctx} {pkt : Packet} {path : Path} {sender : Endpoint} {i : Nat}

end

end Ctx

namespace Closing

open TcpCtx (Input)

-- Among the inputs, run from `c`, is a FIN_ACK for the target that reaches its handler.
def Acked (e : Env) (c : Closing) (target : UInt32) (inputs : List Input) : Prop :=
  ∃ pre path pkt post, inputs = pre ++ .packet path pkt :: post ∧
    (c.run e pre).ctx.running path = true ∧ (c.run e pre).ctx.refuses e pkt = false ∧
    pkt.has FLAG_FIN_ACK = true ∧ pkt.ackNum = target

section

variable {e : Env} {c : Closing} {target : UInt32} {inputs more : List Input}

theorem Acked.append (h : Acked e c target inputs) (more : List Input) :
    Acked e c target (inputs ++ more) := by
  obtain ⟨pre, path, pkt, post, rfl, hrest⟩ := h
  exact ⟨pre, path, pkt, post ++ more, by simp, hrest⟩

end

end Closing

-- A close that is answered while it waits.
def Closing.sample : Closing where
  ctx := (TcpCtx.opened (Env.sampleSender .tcp) 3 ⟨2, 0⟩ fun _ => .target).run
    (Env.sampleSender .tcp) [.connect 0, .start 0]
  wait := .reset

def Closing.Schedule.sample : Closing.Schedule where
  sendThreadRunning := true
  early := []
  begun := []
  encrypted := true
  sent := fun _ => true
  rounds := [([.packet 0 (Packet.buildFinAck Packet.sampleSession 0)], .ok)]

end Porter
