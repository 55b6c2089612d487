import Porter.Delivery.Continuity
import Porter.Delivery.RoundTrip
import Porter.Moves.Tcp

namespace Porter

open View Serial

def Act.shifts : Act → Bool
  | .adopt .. | .pop .. => true
  | _ => false

-- The place that the window waits for after these entries, when it waited for `n` and the packet
-- at `place` was handled: the window starts over at that packet or goes on by one.
def landed (place n : Nat) (entries : List (UInt32 × Act)) : Nat :=
  entries.foldl (fun n x =>
    match x.2 with
    | .adopt .. => place
    | .pop .. => n + 1
    | _ => n) n

theorem landed_append (place n : Nat) (entries more : List (UInt32 × Act)) :
    landed place n (entries ++ more) = landed place (landed place n entries) more :=
  List.foldl_append

theorem landed_quiet {place n : Nat} {entries : List (UInt32 × Act)}
    (h : ∀ x ∈ entries, x.2.shifts = false) : landed place n entries = n := by
  induction entries with
  | nil => rfl
  | cons x rest ih =>
    have hx := h x List.mem_cons_self
    have hrest := ih fun y hy => h y (List.mem_cons_of_mem x hy)
    obtain ⟨p, act⟩ := x
    cases act with
    | adopt => cases hx
    | pop => cases hx
    | _ => exact hrest

namespace View

-- A receiver that gets the packets of one numbered stream in any order: `arrival i` is what it
-- makes of packet `i`. Those before `n` were handed over; if it tracks the session, its window
-- waits for packet `n` and holds nothing but later packets of the stream.
structure Merged (e : Env) (session : SessionHdr) (arrival : Nat → Option Packet) (n : Nat)
    (v : View) : Prop where
  past : ∀ i < n, ∃ pkt, arrival i = some pkt ∧ pkt ∈ v.log.filterMap (handed e)
  tracked : v.known = true → v.session = session
  next : v.known = true → v.win.nextSeq = UInt32.ofNat n
  held : v.known = true → ∀ seq pkt, v.win.held seq = some pkt →
    ∃ d < e.windowSize, seq = UInt32.ofNat (n + d) ∧ arrival (n + d) = some pkt

-- The record grows, and a session that is still tracked keeps its window.
def Rests (v v' : View) : Prop :=
  (∃ more, v'.log = v.log ++ more ∧ ∀ x ∈ more, x.2.shifts = false) ∧
    (v'.known = true → v.known = true ∧ v'.session = v.session ∧ v'.win = v.win)

section

variable {e : Env} {session : SessionHdr} {arrival : Nat → Option Packet} {n d place : Nat}
  {v v' v'' : View} {pkt : Packet} {win : Window}

theorem Rests.of_emits {acts : List Act} (hacts : ∀ act ∈ acts, act.shifts = false)
    (hlog : v'.log = (v.emits acts).log) (hknown : v'.known = true → v.known = true)
    (hsession : v'.session = v.session) (hwin : v'.win = v.win) : v.Rests v' := by
  refine ⟨⟨_, hlog, fun x hx => ?_⟩, fun hk => ⟨hknown hk, hsession, hwin⟩⟩
  obtain ⟨act, hact, rfl⟩ := List.mem_map.mp hx
  exact hacts act hact

theorem Rests.of_log (hlog : v'.log = v.log) (hknown : v'.known = true → v.known = true)
    (hsession : v'.session = v.session) (hwin : v'.win = v.win) : v.Rests v' :=
  ⟨⟨[], by simpa using hlog, by simp⟩, fun hk => ⟨hknown hk, hsession, hwin⟩⟩

theorem Rests.refl (v : View) : v.Rests v := .of_log rfl id rfl rfl

theorem Rests.emit (v : View) {act : Act} (hact : act.shifts = false) : v.Rests (v.emit act) :=
  .of_emits (by simpa using hact) rfl id rfl rfl

theorem Rests.trans (h : v.Rests v') (h' : v'.Rests v'') : v.Rests v'' := by
  obtain ⟨⟨more, hlog, hquiet⟩, hsame⟩ := h
  obtain ⟨⟨more', hlog', hquiet'⟩, hsame'⟩ := h'
  refine ⟨⟨more ++ more', by rw [hlog', hlog, List.append_assoc], fun x hx => ?_⟩, fun hk => ?_⟩
  · exact (List.mem_append.mp hx).elim (hquiet x) (hquiet' x)
  · obtain ⟨hk', hsession', hwin'⟩ := hsame' hk
    obtain ⟨hk'', hsession, hwin⟩ := hsame hk'
    exact ⟨hk'', hsession'.trans hsession, hwin'.trans hwin⟩

theorem Rests.synced (v : View) (alive : Bool) (evs : List Event) :
    v.Rests (v.synced e alive evs) := by
  unfold View.synced View.callbackEmits
  split
  · refine .of_emits (fun act hact => ?_) rfl id rfl rfl
    obtain ⟨ev, -, rfl⟩ := List.mem_map.mp hact
    rfl
  · exact .of_log rfl id rfl rfl

theorem nacked_rests (v : View) (seq : UInt32) (dests : List (Path × Endpoint)) :
    v.Rests (v.nacked seq dests) := by
  refine .of_emits (fun act hact => ?_) rfl id rfl rfl
  rcases List.mem_cons.mp hact with rfl | hact
  · rfl
  · obtain ⟨dest, -, rfl⟩ := List.mem_map.mp hact
    rfl

theorem Move.rests (hmove : Move e none v v') : v.Rests v' := by
  cases hmove with
  | sync alive evs => exact .synced v alive evs
  | forget =>
    exact ⟨⟨_, rfl, by simp [Act.shifts]⟩, fun hk => absurd hk Bool.noConfusion⟩
  | nack seq dests => exact nacked_rests v seq dests
  | expire dests => exact nacked_rests v v.nackNum dests
  | finAck target => exact .emit v rfl
  | timer | finClear | free => exact .of_log rfl id rfl rfl
  | adopt _ hcur => cases hcur
  | push _ _ _ _ hcur => cases hcur
  | skip _ hcur => cases hcur
  | reset _ hcur => cases hcur
  | finPending _ _ _ hcur => cases hcur
  | answer _ _ hcur => cases hcur
  | pop _ _ hcur =>
    obtain ⟨_, hcur, -⟩ := hcur
    cases hcur

theorem Moves.rests (hmoves : Moves e none v v') : v.Rests v' :=
  Run.star_preserves (P := fun v' => v.Rests v') (fun _ _ hmove h => h.trans hmove.rests) hmoves
    (.refl v)

theorem mem_handed_append {log log' more : List (UInt32 × Act)} (hlog : log' = log ++ more)
    (hpkt : pkt ∈ log.filterMap (handed e)) : pkt ∈ log'.filterMap (handed e) := by
  rw [hlog, List.filterMap_append]
  exact List.mem_append_left _ hpkt

theorem Merged.mono {arrival' : Nat → Option Packet} (h : v.Merged e session arrival n)
    (hmono : ∀ i pkt, arrival i = some pkt → arrival' i = some pkt) :
    v.Merged e session arrival' n := by
  refine ⟨fun i hi => ?_, h.tracked, h.next, fun hk seq pkt hpkt => ?_⟩
  · exact (h.past i hi).imp fun pkt hpkt => ⟨hmono i pkt hpkt.1, hpkt.2⟩
  · obtain ⟨d, hd, hseq, harrival⟩ := h.held hk seq pkt hpkt
    exact ⟨d, hd, hseq, hmono _ _ harrival⟩

theorem Merged.rests (h : v.Merged e session arrival n) (hrests : v.Rests v') :
    v'.Merged e session arrival n := by
  obtain ⟨⟨more, hlog, -⟩, hsame⟩ := hrests
  refine ⟨fun i hi => ?_, fun hk => ?_, fun hk => ?_, fun hk => ?_⟩
  · exact (h.past i hi).imp fun pkt hpkt => ⟨hpkt.1, mem_handed_append hlog hpkt.2⟩
  · obtain ⟨hk', hsession, -⟩ := hsame hk
    exact hsession.trans (h.tracked hk')
  · obtain ⟨hk', -, hwin⟩ := hsame hk
    rw [hwin]
    exact h.next hk'
  · obtain ⟨hk', -, hwin⟩ := hsame hk
    rw [hwin]
    exact h.held hk'

-- A packet fixes the start of the window. All before it must have been handed over.
theorem Merged.adopt (h : v.Merged e session arrival n) (hsession : pkt.session = session)
    (hseq : pkt.seqNum = UInt32.ofNat place) (hle : place ≤ n) :
    (v.adopted e pkt).Merged e session arrival place := by
  refine ⟨fun i hi => ?_, fun _ => hsession, fun _ => hseq, fun _ seq other hheld => ?_⟩
  · exact (h.past i (by omega)).imp fun other hother => ⟨hother.1, mem_handed_append rfl hother.2⟩
  · change (Window.init pkt.seqNum e.windowSize).held seq = some other at hheld
    rw [Window.held_init] at hheld
    cases hheld

theorem Merged.push (h : v.Merged e session arrival n) (hwf : v.win.RecvWF)
    (hd : d < e.windowSize) (hseq : pkt.seqNum = UInt32.ofNat (n + d))
    (hpkt : arrival (n + d) = some pkt) (hpush : v.win.recvPush pkt = some win) {more : List _}
    (hlog : v'.log = v.log ++ more) (hknown : v'.known = v.known)
    (hsession : v'.session = v.session) (hwin : v'.win = win) :
    v'.Merged e session arrival n := by
  refine ⟨fun i hi => ?_, ?_, ?_, ?_⟩
  · exact (h.past i hi).imp fun other hother => ⟨hother.1, mem_handed_append hlog hother.2⟩
  · rw [hknown, hsession]
    exact h.tracked
  · rw [hknown, hwin, Window.recvPush_nextSeq hpush]
    exact h.next
  · rw [hknown, hwin]
    intro hk seq other hheld
    rw [Window.recvPush_held hwf hpush] at hheld
    split at hheld
    · rename_i heq
      cases hold : v.win.held seq with
      | none =>
        rw [hold, Option.none_or] at hheld
        exact ⟨d, hd, heq.trans hseq, hpkt.trans hheld⟩
      | some old =>
        rw [hold, Option.some_or] at hheld
        exact h.held hk seq other (hold.trans hheld)
    · exact h.held hk seq other hheld

theorem Merged.pop (h : v.Merged e session arrival n) (hinv : Inv e v)
    (hcallback : e.callback = true) (halive : v.alive = true) (hknown : v.known = true)
    (hpop : v.win.recvPop = some (pkt, win)) :
    (v.popped e pkt win).Merged e session arrival (n + 1) := by
  obtain ⟨hheld, rfl⟩ := (Window.recvPop_eq_some hinv.wf).mp hpop
  have hsize := e.windowSize_le
  simp only [MAX_WINDOW_SIZE] at hsize
  have hnext := h.next hknown
  have hhead : arrival n = some pkt := by
    obtain ⟨d, hd, hseq, hpkt⟩ := h.held hknown _ _ hheld
    have hdist := dist_ofNat_add n (show d < 4294967296 by omega)
    rw [← hseq, hnext, dist_self] at hdist
    rwa [← hdist] at hpkt
  obtain ⟨out, hlog⟩ := popped_log pkt v.win.dropNext
  refine ⟨fun i hi => ?_, ?_, fun _ => ?_, fun _ seq other hother => ?_⟩
  · rcases Nat.lt_succ_iff_lt_or_eq.mp hi with hlt | rfl
    · exact (h.past i hlt).imp fun other hother =>
        ⟨hother.1, mem_handed_append hlog (mem_handed_append rfl hother.2)⟩
    · refine ⟨pkt, hhead, mem_handed_append hlog ?_⟩
      simp [View.emit, View.emits, handed, halive, hcallback]
  · rw [popped_known, popped_session]
    exact h.tracked
  · rw [popped_win, Window.dropNext_nextSeq, hnext, UInt32.ofNat_add]
    rfl
  · rw [popped_win, Window.dropNext_held hinv.wf] at hother
    split at hother
    · cases hother
    · rename_i hne
      obtain ⟨d, hd, hseq, hpkt⟩ := h.held hknown seq other hother
      cases d with
      | zero => exact absurd (hseq.trans hnext.symm) hne
      | succ d => exact ⟨d, by omega, by rw [hseq]; congr 1; omega, by rw [← hpkt]; congr 1; omega⟩

-- Since `log` the window has gone on to what its entries say.
def Reaches (e : Env) (session : SessionHdr) (arrival : Nat → Option Packet) (place n : Nat)
    (log : List (UInt32 × Act)) (v : View) : Prop :=
  ∃ more, v.log = log ++ more ∧ v.Merged e session arrival (landed place n more)

theorem Merged.reaches (h : v.Merged e session arrival n) :
    v.Reaches e session arrival place n v.log := ⟨[], (List.append_nil _).symm, h⟩

theorem Reaches.rests {log : List (UInt32 × Act)} (h : v.Reaches e session arrival place n log)
    (hrests : v.Rests v') : v'.Reaches e session arrival place n log := by
  obtain ⟨more, hlog, hmerged⟩ := h
  obtain ⟨more', hlog', hquiet⟩ := hrests.1
  refine ⟨more ++ more', by rw [hlog', hlog, List.append_assoc], ?_⟩
  rw [landed_append, landed_quiet hquiet]
  exact hmerged.rests hrests

theorem Reaches.since (h : v''.Reaches e session arrival place n v'.log) (hrests : v.Rests v') :
    v''.Reaches e session arrival place n v.log := by
  obtain ⟨more, hlog, hmerged⟩ := h
  obtain ⟨more', hlog', hquiet⟩ := hrests.1
  refine ⟨more' ++ more, by rw [hlog, hlog', List.append_assoc], ?_⟩
  rw [landed_append, landed_quiet hquiet]
  exact hmerged

theorem Reaches.pop {log : List (UInt32 × Act)} (h : v.Reaches e session arrival place n log)
    (hinv : Inv e v) (hcallback : e.callback = true) (halive : v.alive = true)
    (hknown : v.known = true) (hpop : v.win.recvPop = some (pkt, win)) :
    (v.popped e pkt win).Reaches e session arrival place n log := by
  obtain ⟨more, hlog, hmerged⟩ := h
  obtain ⟨out, hout⟩ := popped_log pkt win
  refine ⟨more ++ (v.peerId, .pop pkt v.alive) ::
    (out.map fun data => (v.peerId, Act.event (.data data))), ?_, ?_⟩
  · rw [hout]
    simp [View.emit, View.emits, View.peerId, hlog]
  · have hquiet : ∀ x ∈ out.map fun data => (v.peerId, Act.event (.data data)),
        x.2.shifts = false := by
      intro x hx
      obtain ⟨data, -, rfl⟩ := List.mem_map.mp hx
      rfl
    rw [landed_append, show landed place (landed place n more) ((v.peerId, .pop pkt v.alive) ::
      (out.map fun data => (v.peerId, Act.event (.data data)))) = landed place n more + 1 from
        landed_quiet hquiet]
    exact hmerged.pop hinv hcallback halive hknown hpop

end

end View

theorem Packet.IsData.of_sameHeader {pkt pkt' : Packet} (hdata : pkt.IsData)
    (h : pkt'.SameHeader pkt) : pkt'.IsData := by
  refine ⟨?_, ?_, ?_, ?_, ?_⟩
  · exact (h.has _ (by decide)).trans hdata.data
  · exact (h.has _ (by decide)).trans hdata.fin
  · exact (h.has _ (by decide)).trans hdata.nack
  · exact (h.has _ (by decide)).trans hdata.reject
  · exact (h.has _ (by decide)).trans hdata.ping

theorem Slot.packedContainer_isData {e : Env} {slot : Slot} {packed : Bytes} {outer : Packet}
    (h : slot.packedContainer e packed = some outer) :
    outer.seqNum = slot.sendWindow.nextSeq ∧ outer.session = slot.ownSession e ∧ outer.IsData := by
  obtain ⟨hseq, hdata, hping, hnack, hreject⟩ := packedContainer_header h
  obtain ⟨built, hbuilt, hsealed⟩ := Option.bind_eq_some_iff.mp h
  have hfields : built.flags = FLAG_DATA ∧ built.session = slot.ownSession e := by
    unfold Packet.buildPacked at hbuilt
    split at hbuilt
    · cases hbuilt
    · rw [← Option.some.inj hbuilt]
      exact ⟨rfl, rfl⟩
  exact ⟨hseq, (Packet.sealAs_sameHeader hsealed).session.trans hfields.2, hdata,
    Packet.sealed_has hsealed hfields.1 _ (by decide), hnack, hreject, hping⟩

namespace TcpCtx

section

variable {e : Env} {session : SessionHdr} {arrival : Nat → Option Packet} {n place : Nat}
  {slot : Slot} {ctx : TcpCtx} {pkt : Packet}

theorem drain_reaches {log : List (UInt32 × Act)} (hcallback : e.callback = true)
    (halive : slot.healthAlive = true) (hknown : slot.peerSessionKnown = true)
    (hinv : Inv e (slot.view e))
    (h : (slot.view e).Reaches e session arrival place n log) :
    ((slot.slotDrainRecvWindow e).1.view e).Reaches e session arrival place n log := by
  have hstart : Inv e (slot.view e) ∧ (slot.view e).known = true ∧
      (slot.view e).Reaches e session arrival place n log := ⟨hinv, hknown, h⟩
  have hdrain := Slot.drainLoop_preserves
    (P := fun v => Inv e v ∧ v.known = true ∧ v.Reaches e session arrival place n log)
    slot.recvWindow.windowSize (fun v pkt win hstill hpop hv => ⟨hv.1.popped hpop,
      (popped_known ..).trans hv.2.1, hv.2.2.pop hv.1 hcallback (hstill.trans halive) hv.2.1 hpop⟩)
    hstart
  rw [Slot.slotDrainRecvWindow_eq]
  split
  · exact hdrain.2.2.rests (Moves.rests (Slot.finFire_moves nofun))
  · exact hdrain.2.2

-- The places from which a packet's number leads back to the right one: those of the window that
-- starts at `n` and the ones before it, as long as they are not a whole round of numbers away.
def Near (e : Env) (place n : Nat) : Prop :=
  place < n + e.windowSize ∧ n + e.windowSize ≤ place + 4294967296

theorem Near.dist (h : Near e place n) :
    (place < n ∧ e.windowSize ≤ Serial.dist (UInt32.ofNat place) (UInt32.ofNat n)) ∨
    ∃ d < e.windowSize, place = n + d ∧
      Serial.dist (UInt32.ofNat place) (UInt32.ofNat n) = d := by
  obtain ⟨hahead, hbehind⟩ := h
  have hpos := e.windowSize_pos
  have hsize := e.windowSize_le
  simp only [MAX_WINDOW_SIZE] at hsize
  by_cases hlt : place < n
  · refine .inl ⟨hlt, ?_⟩
    rw [dist_ofNat_of_lt hlt (by omega)]
    omega
  · obtain ⟨d, rfl⟩ := Nat.exists_eq_add_of_le (Nat.not_lt.mp hlt)
    exact .inr ⟨d, by omega, rfl, dist_ofNat_add n (by omega)⟩

theorem discard_merged {v : View} (h : v.Merged e session arrival n) (hinv : Inv e v)
    (hknown : v.known = true) (hpkt : arrival place = some pkt)
    (hseq : pkt.seqNum = UInt32.ofNat place) (hnear : Near e place n) :
    (v.win.recvPush pkt = none → pkt ∈ v.log.filterMap (handed e)) ∧
      (v.win.recvHasPacket pkt.seqNum = true → v.win.held pkt.seqNum = some pkt) := by
  have hnext := h.next hknown
  rw [Window.recvPush_eq_none hinv.wf, hinv.size, Window.recvHasPacket_eq hinv.wf, hseq, hnext]
  rcases hnear.dist with ⟨hlt, hfar⟩ | ⟨d, hd, rfl, hdist⟩
  · obtain ⟨past, hpast, hmem⟩ := h.past place hlt
    obtain rfl := Option.some.inj (hpast.symm.trans hpkt)
    refine ⟨fun _ => hmem, fun hheld => ?_⟩
    obtain ⟨other, hother⟩ := Option.isSome_iff_exists.mp hheld
    have hin := Window.lt_of_held hother
    rw [hnext, hinv.size] at hin
    omega
  · refine ⟨fun hfar => absurd hfar (by omega), fun hheld => ?_⟩
    obtain ⟨other, hother⟩ := Option.isSome_iff_exists.mp hheld
    obtain ⟨d', hd', hseq', hother'⟩ := h.held hknown _ _ hother
    have hsize := e.windowSize_le
    simp only [MAX_WINDOW_SIZE] at hsize
    have hdist' := dist_ofNat_add n (show d' < 4294967296 by omega)
    rw [← hseq', hdist] at hdist'
    subst hdist'
    rw [hother, ← hother', hpkt]

instance : Decidable (Near e place n) := inferInstanceAs (Decidable (_ ∧ _))

-- How a DATA packet of the stream may come: the first of a session only when all before it were
-- handed over, a later one only from near the window.
def Timely (e : Env) (known : Bool) (place n : Nat) : Prop :=
  if known then Near e place n else place ≤ n

instance (known : Bool) : Decidable (Timely e known place n) :=
  inferInstanceAs (Decidable (if known then _ else _))

theorem sessionAdopt_reaches (hlex : e.plat.CmpLex) (hinv : Inv e (slot.view e))
    (h : (slot.view e).Merged e session arrival n) (hsession : pkt.session = session)
    (hseq : pkt.seqNum = UInt32.ofNat place) (htimely : Timely e slot.peerSessionKnown place n) :
    ∃ slot', slot.sessionAdopt e pkt = (slot', true) ∧ Inv e (slot'.view e) ∧
      slot'.peerSessionKnown = true ∧ slot'.healthAlive = slot.healthAlive ∧
      ∃ more, slot'.log = slot.log ++ more ∧ (∀ x ∈ more, handed e x = none) ∧
        (slot'.view e).Merged e session arrival (landed place n more) ∧
        Near e place (landed place n more) := by
  cases hknown : slot.peerSessionKnown with
  | true =>
    rw [hknown] at htimely
    have htracked := (h.tracked hknown).trans hsession.symm
    exact ⟨slot, Slot.sessionAdopt_tracked hlex hknown htracked, hinv, hknown, rfl, [],
      (List.append_nil _).symm, by simp, h, htimely⟩
  | false =>
    rw [hknown] at htimely
    have hadopt : slot.sessionAdopt e pkt = (slot.adoptSession e pkt, true) := if_pos hknown
    refine ⟨_, hadopt, ⟨hinv.kind, Window.init_wf e.windowSize_pos e.windowSize_le, rfl,
      fun _ => rfl⟩, rfl, rfl, [(slot.peerId, .adopt pkt.session pkt.seqNum)], rfl,
      by simp [handed], h.adopt hsession hseq htimely, ?_⟩
    have hpos := e.windowSize_pos
    have hsize := e.windowSize_le
    simp only [MAX_WINDOW_SIZE] at hsize
    change place < place + e.windowSize ∧ place + e.windowSize ≤ place + 4294967296
    omega

theorem acceptData_reaches (hlex : e.plat.CmpLex) (hcallback : e.callback = true)
    (hinv : Inv e (slot.view e)) (halive : slot.healthAlive = true)
    (h : (slot.view e).Merged e session arrival n) (hpkt : arrival place = some pkt)
    (hsession : pkt.session = session) (hseq : pkt.seqNum = UInt32.ofNat place)
    (htimely : Timely e slot.peerSessionKnown place n) :
    ((acceptData e slot pkt).view e).Reaches e session arrival place n slot.log := by
  obtain ⟨slot', hadopt, hinv', hknown', halive', more, hlog, -, hmerged, hnear⟩ :=
    sessionAdopt_reaches hlex hinv h hsession hseq htimely
  rcases acceptData_cases slot pkt with ⟨hno, -⟩ | ⟨-, -, heq⟩ | ⟨win, -, hpush, heq⟩
  · rw [hadopt] at hno
    cases hno
  · rw [heq, hadopt]
    exact ⟨more, hlog, hmerged⟩
  · rw [hadopt] at hpush heq
    rw [heq]
    have hinvp : Inv e ((slot'.pushed pkt win).view e) := ⟨hinv'.kind,
      Window.recvPush_wf hinv'.wf hpush, (Window.recvPush_windowSize hpush).trans hinv'.size,
      hinv'.timer⟩
    refine drain_reaches hcallback (halive'.trans halive) hknown' hinvp ?_
    have hin := Window.recvPush_in_window hinv'.wf hpush
    rw [hseq, hmerged.next hknown', hinv'.size] at hin
    rcases hnear.dist with ⟨-, hfar⟩ | ⟨d, hd, hplace, -⟩
    · omega
    · refine ⟨more ++ [(slot'.peerId, .push pkt)], ?_, ?_⟩
      · rw [← List.append_assoc, ← hlog]
        rfl
      · rw [landed_append, landed_quiet (by simp [Act.shifts])]
        rw [hplace] at hseq hpkt
        exact hmerged.push hinv'.wf hd hseq hpkt hpush rfl rfl rfl rfl

theorem step_rests (hpeer : ctx.peer = none) {input : Input}
    (hquiet : ∀ path pkt, input ≠ .packet path pkt) :
    (ctx.toSlot.view e).Rests ((ctx.step e input).toSlot.view e) := by
  cases input with
  | packet path pkt => exact absurd rfl (hquiet path pkt)
  | pollTimeout path =>
    change View.Rests _ ((if ctx.running path then
      checkPingTimeout e { ctx with toSlot := ctx.toSlot.emit .poll } path else ctx).toSlot.view e)
    split
    · have hchecked := Moves.rests (checkPingTimeout_moves (e := e)
        { ctx with toSlot := ctx.toSlot.emit .poll } path hpeer)
      exact (Rests.emit (ctx.toSlot.view e) rfl).trans hchecked
    · exact .refl _
  | connect path =>
    change View.Rests _ ((if e.role = .sender then ctx.senderConnect e path else ctx).toSlot.view e)
    unfold senderConnect
    split
    · dsimp only
      split
      · exact .of_log rfl (fun hk => absurd hk Bool.noConfusion) rfl rfl
      · exact .of_log rfl id rfl rfl
    · exact .refl _
  | accept path pkt =>
    change View.Rests _
      ((if e.role = .receiver then ctx.receiverAccept e path pkt else ctx).toSlot.view e)
    unfold receiverAccept
    split
    · split
      · exact .refl _
      · exact .of_log rfl id rfl rfl
      · rw [← view_closeOthers ctx path]
        exact .of_log rfl (fun hk => absurd hk Bool.noConfusion) rfl rfl
    · exact .refl _
  | leave path =>
    obtain ⟨evs, -, hv⟩ := Slot.view_syncPathStateLocked
      (ctx.toSlot.setPathPingState path PING_STATE_UNDEFINED)
      ((ctx.toSlot.setPathPingState path PING_STATE_UNDEFINED).nextPathStates e)
    change View.Rests _ ((Slot.syncPathStateLocked e _ _).view e)
    rw [hv]
    exact .synced ..
  | resetAll =>
    change View.Rests _ (ctx.resetAllPathsDisconnected.toSlot.view e)
    unfold resetAllPathsDisconnected
    split
    · exact .refl _
    · exact .of_log rfl (fun hk => absurd hk Bool.noConfusion) rfl rfl
  | start path => exact .of_log rfl id rfl rfl
  | exit path => exact .refl _
  | close path => exact .of_log rfl id rfl rfl
  | release => exact .refl _

theorem dispatchFin_merged (hlex : e.plat.CmpLex) (hpeer : slot.peer = none)
    (h : (slot.view e).Merged e session arrival n) (hsession : pkt.session = session)
    (hstart : slot.peerSessionKnown = true ∨ pkt.seqNum = UInt32.ofNat n) :
    ((slot.dispatchFin e pkt).view e).Merged e session arrival n := by
  have hadopt : ∃ slot', slot.sessionAdopt e pkt = (slot', true) ∧
      (slot'.view e).Merged e session arrival n := by
    cases hknown : slot.peerSessionKnown with
    | true =>
      have htracked := (h.tracked hknown).trans hsession.symm
      exact ⟨slot, Slot.sessionAdopt_tracked hlex hknown htracked, h⟩
    | false =>
      have hseq := hstart.resolve_left (by simp [hknown])
      exact ⟨_, if_pos hknown, h.adopt hsession hseq le_rfl⟩
  obtain ⟨slot', hadopt, hmerged⟩ := hadopt
  have hfin : ((slot'.finOnPacket pkt).1.view e).Merged e session arrival n := by
    unfold Slot.finOnPacket
    split
    · exact hmerged
    split
    · exact hmerged.rests (.of_log rfl id rfl rfl)
    · exact hmerged
  rw [Slot.dispatchFin_eq, hpeer]
  simp only [Option.isNone_none, if_true, hadopt, Bool.not_true, Bool.false_eq_true, if_false]
  split
  · exact hfin.rests (Moves.rests (Slot.finFire_moves nofun))
  · exact hfin

theorem step_control (hlex : e.plat.CmpLex) (hok : ctx.Ok e)
    (h : (ctx.toSlot.view e).Merged e session arrival n) (path : Path)
    (hdata : pkt.has FLAG_FIN_ACK = false → pkt.has FLAG_FIN = false → pkt.has FLAG_PING = false →
      pkt.has FLAG_DATA = false) (hsession : pkt.session = session)
    (hfin : pkt.has FLAG_FIN = true →
      ctx.peerSessionKnown = true ∨ pkt.seqNum = UInt32.ofNat n) :
    ((ctx.step e (.packet path pkt)).toSlot.view e).Merged e session arrival n := by
  by_cases hrunning : ctx.running path = true
  · have hnoted : ((ctx.toSlot.emit (.recv pkt)).view e).Merged e session arrival n :=
      h.rests (.emit _ rfl)
    rw [step_packet_eq ctx pkt hrunning]
    split
    · exact hnoted
    rename_i hheard
    rw [Bool.or_eq_true, not_or, Bool.not_eq_true, Bool.not_eq_true] at hheard
    split
    · rename_i his
      have hpeer : (ctx.toSlot.emit (.recv pkt)).peer = none := hok.peer
      exact dispatchFin_merged hlex hpeer hnoted hsession (hfin his)
    rename_i hisnt
    split
    · refine hnoted.rests (Moves.rests (e := e) ?_)
      exact handlePing_moves { ctx with toSlot := ctx.toSlot.emit (.recv pkt) } path hok.peer
    rename_i hping
    rw [if_neg (by simp [hdata hheard.2 (by simpa using hisnt) (by simpa using hping)])]
    exact hnoted
  · have hstep : ctx.step e (.packet path pkt) = ctx := if_neg hrunning
    rw [hstep]
    exact h

theorem step_data_reaches (hlex : e.plat.CmpLex) (hcallback : e.callback = true) (hok : ctx.Ok e)
    (h : (ctx.toSlot.view e).Merged e session arrival n) (path : Path)
    (hpkt : arrival place = some pkt) (hsession : pkt.session = session)
    (hseq : pkt.seqNum = UInt32.ofNat place) (hdata : pkt.IsData)
    (htimely : ctx.running path = true → ctx.refuses e pkt = false →
      ctx.healthAlive = true ∧ Timely e ctx.peerSessionKnown place n) :
    ((ctx.step e (.packet path pkt)).toSlot.view e).Reaches e session arrival place n ctx.log := by
  by_cases hrunning : ctx.running path = true
  · have hnoted : ((ctx.toSlot.emit (.recv pkt)).view e).Merged e session arrival n :=
      h.rests (.emit _ rfl)
    have hrecv : ((ctx.toSlot.emit (.recv pkt)).view e).Reaches e session arrival place n ctx.log :=
      h.reaches.rests (.emit _ rfl)
    rw [step_packet_eq ctx pkt hrunning]
    split
    · exact hrecv
    rename_i hheard
    rw [Bool.or_eq_true, not_or, Bool.not_eq_true, Bool.not_eq_true] at hheard
    obtain ⟨halive, htimely⟩ := htimely hrunning hheard.1
    rw [if_neg (by simp [hdata.fin]), if_neg (by simp [hdata.ping]), if_pos hdata.data]
    have hinv : Inv e ((ctx.toSlot.emit (.recv pkt)).view e) :=
      (Slot.emit_ok hok.slot (.recv pkt)).inv
    have hdone := acceptData_reaches hlex hcallback hinv halive hnoted hpkt hsession hseq htimely
    exact hdone.since (.emit (ctx.toSlot.view e) rfl)
  · have hstep : ctx.step e (.packet path pkt) = ctx := if_neg hrunning
    rw [hstep]
    exact h.reaches

theorem refuses_congr (ctx : TcpCtx) {pkt' : Packet} (h : pkt.session = pkt'.session) :
    ctx.refuses e pkt = ctx.refuses e pkt' := by
  have hid : pkt.sessionId = pkt'.sessionId := congrArg SessionHdr.id h
  have hts : pkt.sessionTs = pkt'.sessionTs := congrArg SessionHdr.ts h
  unfold refuses
  rw [hid, hts]

theorem step_sending (hlex : e.plat.CmpLex) (hok : ctx.Ok e) (hoff : ctx.reorderPending = false)
    (input : Input) : (ctx.step e input).ownSessionHdr e = ctx.ownSessionHdr e ∧
      (¬ (input = .resetAll ∧ ctx.tcpActivePaths = 0) →
        (ctx.step e input).sendWindow = ctx.sendWindow) := by
  cases input with
  | packet path pkt =>
    by_cases hrunning : ctx.running path = true
    · obtain ⟨hown, hwindow⟩ := Moves.sending (step_packet_moves hlex hok hoff pkt hrunning).1
      exact ⟨hown, fun _ => hwindow⟩
    · have hstep : ctx.step e (.packet path pkt) = ctx := if_neg hrunning
      rw [hstep]
      exact ⟨rfl, fun _ => rfl⟩
  | pollTimeout path =>
    by_cases hrunning : ctx.running path = true
    · have hstep : ctx.step e (.pollTimeout path) =
          checkPingTimeout e { ctx with toSlot := ctx.toSlot.emit .poll } path := if_pos hrunning
      rw [hstep]
      obtain ⟨hown, hwindow⟩ := Moves.sending (checkPingTimeout_moves
        { ctx with toSlot := ctx.toSlot.emit .poll } path hok.peer)
      exact ⟨hown, fun _ => hwindow⟩
    · have hstep : ctx.step e (.pollTimeout path) = ctx := if_neg hrunning
      rw [hstep]
      exact ⟨rfl, fun _ => rfl⟩
  | connect path =>
    simp only [step, senderConnect]
    split
    · split <;> exact ⟨rfl, fun _ => rfl⟩
    · exact ⟨rfl, fun _ => rfl⟩
  | accept path pkt =>
    have hclosed := view_closeOthers (e := e) ctx path
    simp only [step, receiverAccept]
    split
    · split
      · exact ⟨rfl, fun _ => rfl⟩
      · exact ⟨rfl, fun _ => rfl⟩
      · exact ⟨congrArg View.own hclosed, fun _ => congrArg View.sendWindow hclosed⟩
    · exact ⟨rfl, fun _ => rfl⟩
  | leave path =>
    simp only [step, Slot.syncPathState, Slot.syncPathStateLocked, Slot.callbackEmits]
    split <;> exact ⟨rfl, fun _ => rfl⟩
  | resetAll =>
    simp only [step, resetAllPathsDisconnected]
    split
    · exact ⟨rfl, fun _ => rfl⟩
    · rename_i hdown
      exact ⟨rfl, fun hno => absurd (by simpa using hdown) hno⟩
  | start path => exact ⟨rfl, fun _ => rfl⟩
  | exit path => exact ⟨rfl, fun _ => rfl⟩
  | close path => exact ⟨rfl, fun _ => rfl⟩
  | release => exact ⟨rfl, fun _ => rfl⟩

-- A DATA packet that the receive thread of a path discards: its session is tracked, but the
-- window does not take it or has one with its number.
def Discards (e : Env) (ctx : TcpCtx) (path : Path) (pkt : Packet) : Prop :=
  ctx.running path = true ∧ ctx.refuses e pkt = false ∧ (ctx.toSlot.sessionAdopt e pkt).2 = true ∧
    ((ctx.toSlot.sessionAdopt e pkt).1.recvWindow.recvPush pkt = none ∨
      (ctx.toSlot.sessionAdopt e pkt).1.recvWindow.recvHasPacket pkt.seqNum = true)

instance (e : Env) (ctx : TcpCtx) (path : Path) (pkt : Packet) :
    Decidable (ctx.Discards e path pkt) :=
  decidable_of_iff (ctx.running path = true ∧ ctx.refuses e pkt = false ∧
    (ctx.toSlot.sessionAdopt e pkt).2 = true ∧
    (((ctx.toSlot.sessionAdopt e pkt).1.recvWindow.recvPush pkt).isNone = true ∨
      (ctx.toSlot.sessionAdopt e pkt).1.recvWindow.recvHasPacket pkt.seqNum = true))
    (by simp [Discards])

-- The application has the packet, or it waits in the window.
def Keeps (e : Env) (ctx : TcpCtx) (pkt : Packet) : Prop :=
  pkt ∈ ctx.log.filterMap (handed e) ∨ ctx.recvWindow.held pkt.seqNum = some pkt

instance (e : Env) (ctx : TcpCtx) (pkt : Packet) : Decidable (ctx.Keeps e pkt) :=
  inferInstanceAs (Decidable (_ ∨ _))

theorem discards_keeps (hlex : e.plat.CmpLex) (hok : ctx.Ok e)
    (h : (ctx.toSlot.view e).Merged e session arrival n) (path : Path)
    (hpkt : arrival place = some pkt) (hsession : pkt.session = session)
    (hseq : pkt.seqNum = UInt32.ofNat place) (htimely : Timely e ctx.peerSessionKnown place n)
    (hdiscards : ctx.Discards e path pkt) : ctx.Keeps e pkt := by
  obtain ⟨-, -, -, hout⟩ := hdiscards
  obtain ⟨slot', hadopt, hinv', hknown', -, more, hlog, hquiet, hmerged, hnear⟩ :=
    sessionAdopt_reaches hlex hok.slot.inv h hsession hseq htimely
  obtain ⟨hpast, hheld⟩ := discard_merged hmerged hinv' hknown' hpkt hseq hnear
  rw [hadopt] at hout
  rcases hout with hnone | hsome
  · refine .inl ?_
    have hmem : pkt ∈ slot'.log.filterMap (handed e) := hpast hnone
    rw [hlog, List.filterMap_append, List.filterMap_eq_nil_iff.mpr hquiet, List.append_nil] at hmem
    exact hmem
  · refine .inr ?_
    have hin : slot'.recvWindow.held pkt.seqNum = some pkt := hheld hsome
    -- a window that has just been set up holds nothing
    cases hknown : ctx.peerSessionKnown with
    | true =>
      have htracked := (h.tracked hknown).trans hsession.symm
      have hsame := hadopt.symm.trans (Slot.sessionAdopt_tracked hlex hknown htracked)
      rwa [(Prod.mk.inj hsame).1] at hin
    | false =>
      have hfresh := hadopt.symm.trans (if_pos hknown)
      rw [(Prod.mk.inj hfresh).1] at hin
      cases (Window.held_init pkt.seqNum e.windowSize pkt.seqNum).symm.trans hin

end

end TcpCtx

end Porter
