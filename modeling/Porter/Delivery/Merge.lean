import Porter.Delivery.Merge.Receiver
import Porter.Platform

namespace Porter

-- The paths of a TCP service from one session of a sender to a receiver. `wire` are the DATA
-- packets under way on each path, the oldest first, each with its place among those the sender
-- has numbered, `sent`, since its numbers last began at 0. `expected` is the place of the packet
-- that the receive window waits for.
structure Multipath where
  sender : TcpCtx
  receiver : TcpCtx
  wire : Path → List (Nat × Packet)
  sent : List Packet
  expected : Nat

namespace Multipath

-- flush_packed with what cplat_socket_wait_writable answers for each path, the other critical
-- sections of the sender, a connection that breaks, so that only the first packets under way
-- still arrive, and the critical sections of the receiver.
inductive Input where
  | send (packed : Bytes) (writable : Path → Bool)
  | sender (input : TcpCtx.Input)
  | cut (path : Path) (kept : Nat)
  | deliver (path : Path)
  | receiver (input : TcpCtx.Input)

def start (sender receiver : TcpCtx) : Multipath where
  sender := sender
  receiver := receiver
  wire := fun _ => []
  sent := []
  expected := 0

def session (es : Env) (s : Multipath) : SessionHdr := s.sender.toSlot.ownSession es

-- The connections flush_packed writes to.
def takes (es : Env) (s : Multipath) (writable : Path → Bool) (path : Path) : Bool :=
  0 < s.sender.tcpActivePaths && path.val < es.nPath && s.sender.tcpConnFd path && writable path

-- reset_all_paths_disconnected lets the numbers of the session begin again.
def startsOver (s : Multipath) : TcpCtx.Input → Bool
  | .resetAll => s.sender.tcpActivePaths = 0
  | _ => false

-- The packets of the session that are no DATA may come at any time.
def mayCome (es : Env) (s : Multipath) : TcpCtx.Input → Bool
  | .packet _ pkt => pkt.session = s.session es && (pkt.has FLAG_FIN_ACK || pkt.has FLAG_FIN ||
      pkt.has FLAG_PING || !pkt.has FLAG_DATA)
  | _ => true

def arrive (er : Env) (receiver : TcpCtx) (path : Path) (pkt : Packet) : TcpCtx :=
  match Packet.receive er pkt.wire with
  | none => receiver
  | some plain => receiver.step er (.packet path plain)

def step (es er : Env) (s : Multipath) : Input → Multipath
  | .send packed writable =>
      match s.sender.packedContainer es packed with
      | none => s
      | some outer =>
          { s with
            sender := { s.sender with
              toSlot := s.sender.flushPackedTcp es packed (Slot.paths.any (s.takes es writable)) }
            wire := fun path => s.wire path ++
              if s.takes es writable path then [(s.sent.length, outer)] else []
            sent := s.sent ++ [outer] }
  | .sender input =>
      { s with
        sender := s.sender.step es input
        sent := if s.startsOver input then [] else s.sent
        expected := if s.startsOver input then 0 else s.expected }
  | .cut path kept => { s with wire := Function.update s.wire path ((s.wire path).take kept) }
  | .deliver path =>
      match s.wire path with
      | [] => s
      | (place, pkt) :: rest =>
          let receiver := arrive er s.receiver path pkt
          { s with
            receiver := receiver
            wire := Function.update s.wire path rest
            expected := landed place s.expected (receiver.log.drop s.receiver.log.length) }
  | .receiver input =>
      if s.mayCome es input then { s with receiver := s.receiver.step er input } else s

def run (es er : Env) (s : Multipath) (inputs : List Input) : Multipath :=
  inputs.foldl (step es er) s

-- The paths stay in step: DATA is heard only by a connected receiver and comes neither before
-- what has to start the window nor from a place far from it; the sender begins its numbers again
-- only when nothing is under way and the receiver has forgotten the session.
def InStep (er : Env) (s : Multipath) : Input → Prop
  | .deliver path => ∀ x ∈ (s.wire path).head?, s.receiver.running path = true →
      s.receiver.refuses er x.2 = false →
        s.receiver.healthAlive = true ∧ TcpCtx.Timely er s.receiver.peerSessionKnown x.1 s.expected
  | .sender input => s.startsOver input = true →
      s.sent = [] ∨ s.receiver.peerSessionKnown = false ∧ ∀ path, s.wire path = []
  | .receiver (.packet _ pkt) => pkt.has FLAG_FIN = true →
      s.receiver.peerSessionKnown = true ∨ pkt.seqNum = UInt32.ofNat s.expected
  | _ => True

instance (er : Env) (s : Multipath) : ∀ input, Decidable (s.InStep er input)
  | .deliver path => inferInstanceAs (Decidable (∀ x ∈ (s.wire path).head?,
      s.receiver.running path = true → s.receiver.refuses er x.2 = false →
        s.receiver.healthAlive = true ∧
          TcpCtx.Timely er s.receiver.peerSessionKnown x.1 s.expected))
  | .sender input => inferInstanceAs (Decidable (s.startsOver input = true →
      s.sent = [] ∨ s.receiver.peerSessionKnown = false ∧ ∀ path, s.wire path = []))
  | .receiver input =>
      match input with
      | .packet _ pkt => inferInstanceAs (Decidable (pkt.has FLAG_FIN = true →
          s.receiver.peerSessionKnown = true ∨ pkt.seqNum = UInt32.ofNat s.expected))
      | .pollTimeout _ | .connect _ | .accept .. | .start _ | .exit _ | .close _ | .leave _ | .release
      | .resetAll => .isTrue trivial
  | .send .. | .cut .. => .isTrue trivial

-- What the receiver makes of the packets of the current numbering.
def arrival (er : Env) (s : Multipath) (place : Nat) : Option Packet :=
  s.sent[place]?.bind fun pkt => Packet.receive er pkt.wire

structure Inv (es er : Env) (session : SessionHdr) (s : Multipath) : Prop where
  sender : s.sender.Ok es
  off : s.sender.reorderPending = false
  receiver : s.receiver.Ok er
  own : s.session es = session
  next : s.sender.sendWindow.nextSeq = UInt32.ofNat s.sent.length
  sent : ∀ i pkt, s.sent[i]? = some pkt →
    pkt.seqNum = UInt32.ofNat i ∧ pkt.session = session ∧ pkt.IsData
  wire : ∀ path, ∀ x ∈ s.wire path, s.sent[x.1]? = some x.2
  merged : (s.receiver.toSlot.view er).Merged er session (s.arrival er) s.expected

section

variable {es er : Env} {session : SessionHdr} {s : Multipath}

theorem Inv.send (h : s.Inv es er session) (packed : Bytes) (writable : Path → Bool) :
    (s.step es er (.send packed writable)).Inv es er session := by
  simp only [step]
  split
  · exact h
  · rename_i outer houter
    obtain ⟨hseq, hsession, hdata⟩ := Slot.packedContainer_isData houter
    have hflush : ∃ acts, s.sender.flushPackedTcp es packed (Slot.paths.any (s.takes es writable)) =
        Slot.emits
          { s.sender.toSlot with
            sendWindow := { s.sender.sendWindow with nextSeq := s.sender.sendWindow.nextSeq + 1 }
            sendHasData := true } acts := by
      unfold Slot.flushPackedTcp
      rw [houter]
      dsimp only
      split
      · exact ⟨[.sendTcp outer], rfl⟩
      · exact ⟨[], by simp [Slot.emits]⟩
    obtain ⟨acts, hflush⟩ := hflush
    have hok := h.sender.slot
    have hgrows : ∀ (i : Nat) (pkt : Packet), s.sent[i]? = some pkt →
        (s.sent ++ [outer])[i]? = some pkt := fun i pkt hpkt =>
      (List.getElem?_append_left (List.getElem?_eq_some_iff.mp hpkt).1).trans hpkt
    rw [hflush]
    refine ⟨⟨h.sender.peer, ⟨hok.inv.kind, hok.inv.wf, hok.inv.size, hok.inv.timer⟩, hok.head⟩, h.off,
      h.receiver, h.own, ?_, fun i pkt hpkt => ?_, fun path x hx => ?_, h.merged.mono fun i pkt hpkt => ?_⟩
    · change s.sender.sendWindow.nextSeq + 1 = _
      rw [h.next, List.length_append, UInt32.ofNat_add]
      rfl
    · rcases Nat.lt_or_ge i s.sent.length with hlt | hge
      · rw [List.getElem?_append_left hlt] at hpkt
        exact h.sent i pkt hpkt
      · rw [List.getElem?_append_right hge, List.getElem?_singleton] at hpkt
        obtain ⟨hlast, hpkt⟩ := Option.ite_none_right_eq_some.mp hpkt
        rw [← Option.some.inj hpkt, show i = s.sent.length by omega]
        exact ⟨hseq.trans h.next, hsession.trans h.own, hdata⟩
    · rcases List.mem_append.mp hx with hold | hnew
      · exact hgrows _ _ (h.wire path x hold)
      · split at hnew
        · rw [List.mem_singleton.mp hnew]
          exact List.getElem?_concat_length
        · cases hnew
    · obtain ⟨outer', houter', hplain⟩ := Option.bind_eq_some_iff.mp hpkt
      exact Option.bind_eq_some_iff.mpr ⟨outer', hgrows i outer' houter', hplain⟩

theorem Inv.step_sender (hlex : es.plat.CmpLex) (h : s.Inv es er session) {input : TcpCtx.Input}
    (hstep : s.InStep er (.sender input)) : (s.step es er (.sender input)).Inv es er session := by
  have hok := TcpCtx.step_ok hlex h.sender input
  have hoff := (TcpCtx.step_shift hlex h.sender h.off input).2
  obtain ⟨hown, hnext⟩ := TcpCtx.step_sending hlex h.sender h.off input
  have hown' : (s.step es er (.sender input)).session es = session :=
    (congrArg (fun hdr => (Packet.fillSessionHdr hdr).session) hown).trans h.own
  cases hover : s.startsOver input with
  | false =>
    have hsame : s.step es er (.sender input) = { s with sender := s.sender.step es input } := by
      simp [step, hover]
    have hlength : (s.sender.step es input).sendWindow.nextSeq = UInt32.ofNat s.sent.length := by
      refine (congrArg Window.nextSeq (hnext ?_)).trans h.next
      rintro ⟨rfl, hdown⟩
      simp [startsOver, hdown] at hover
    rw [hsame] at hown' ⊢
    exact ⟨hok, hoff, h.receiver, hown', hlength, h.sent, h.wire, h.merged⟩
  | true =>
    -- a numbering of which nothing is left anywhere gives way to a new one
    obtain ⟨rfl, hdown⟩ : input = .resetAll ∧ s.sender.tcpActivePaths = 0 := by
      cases input with
      | resetAll => exact ⟨rfl, by simpa [startsOver] using hover⟩
      | _ => cases hover
    have hreset : s.step es er (.sender .resetAll) =
        { s with sender := s.sender.step es .resetAll, sent := [], expected := 0 } := by
      simp [step, hover]
    have hzero : (s.sender.step es .resetAll).sendWindow.nextSeq = 0 := by
      simp [TcpCtx.step, TcpCtx.resetAllPathsDisconnected, hdown]
    rw [hreset] at hown' ⊢
    have hnothing : (s.sent = [] ∧ s.expected = 0) ∨
        s.receiver.peerSessionKnown = false ∧ ∀ path, s.wire path = [] := by
      refine (hstep hover).imp_left fun hempty => ⟨hempty, ?_⟩
      by_contra hpos
      obtain ⟨pkt, hpkt, -⟩ := h.merged.past 0 (Nat.pos_of_ne_zero hpos)
      simp [arrival, hempty] at hpkt
    refine ⟨hok, hoff, h.receiver, hown', hzero, by simp, ?_, ?_⟩
    · rcases hnothing with ⟨hempty, -⟩ | ⟨-, hwire⟩
      · have hwire := h.wire
        rw [hempty] at hwire
        exact hwire
      · simp [hwire]
    · rcases hnothing with ⟨hempty, hexpected⟩ | ⟨hknown, -⟩
      · have hmerged := h.merged
        unfold arrival at hmerged ⊢
        rwa [hempty, hexpected] at hmerged
      · have hunknown : (s.receiver.toSlot.view er).known ≠ true := by
          simpa [Slot.view] using hknown
        exact ⟨fun i hi => absurd hi (Nat.not_lt_zero i), fun hk => absurd hk hunknown,
          fun hk => absurd hk hunknown, fun hk => absurd hk hunknown⟩

theorem Inv.cut (h : s.Inv es er session) (path : Path) (kept : Nat) :
    (s.step es er (.cut path kept)).Inv es er session := by
  refine ⟨h.sender, h.off, h.receiver, h.own, h.next, h.sent, fun k x hx => ?_, h.merged⟩
  simp only [step] at hx
  by_cases hk : k = path
  · subst hk
    rw [Function.update_self] at hx
    exact h.wire k x (List.mem_of_mem_take hx)
  · rw [Function.update_of_ne hk] at hx
    exact h.wire k x hx

theorem Inv.step_receiver (hlex : er.plat.CmpLex) (h : s.Inv es er session) {input : TcpCtx.Input}
    (hstep : s.InStep er (.receiver input)) : (s.step es er (.receiver input)).Inv es er session := by
  simp only [step]
  split
  · rename_i hcome
    refine ⟨h.sender, h.off, TcpCtx.step_ok hlex h.receiver input, h.own, h.next, h.sent, h.wire, ?_⟩
    by_cases hpacket : ∃ path pkt, input = .packet path pkt
    · obtain ⟨path, pkt, rfl⟩ := hpacket
      simp only [mayCome, Bool.and_eq_true, decide_eq_true_eq, Bool.or_eq_true,
        Bool.not_eq_true'] at hcome
      obtain ⟨hsession, hkind⟩ := hcome
      refine TcpCtx.step_control hlex h.receiver h.merged path (fun hack hfin hping => ?_)
        (hsession.trans h.own) hstep
      simpa [hack, hfin, hping] using hkind
    · exact h.merged.rests (TcpCtx.step_rests h.receiver.peer fun path pkt heq =>
        hpacket ⟨path, pkt, heq⟩)
  · exact h

theorem Inv.deliver (hlex : er.plat.CmpLex) (hcallback : er.callback = true)
    (h : s.Inv es er session) {path : Path} (hstep : s.InStep er (.deliver path)) :
    (s.step es er (.deliver path)).Inv es er session := by
  simp only [step]
  split
  · exact h
  rename_i place pkt rest hwire
  have hunder : ∀ k, ∀ x ∈ Function.update s.wire path rest k, s.sent[x.1]? = some x.2 := by
    intro k x hx
    by_cases hk : k = path
    · subst hk
      rw [Function.update_self] at hx
      exact h.wire k x (hwire ▸ List.mem_cons_of_mem _ hx)
    · rw [Function.update_of_ne hk] at hx
      exact h.wire k x hx
  have hpkt : s.sent[place]? = some pkt := h.wire path (place, pkt) (hwire ▸ List.mem_cons_self)
  obtain ⟨hseq, hsession, hdata⟩ := h.sent place pkt hpkt
  unfold arrive
  cases hplain : Packet.receive er pkt.wire with
  | none =>
    refine ⟨h.sender, h.off, h.receiver, h.own, h.next, h.sent, hunder, ?_⟩
    rw [List.drop_length]
    exact h.merged
  | some plain =>
    have hheader := Packet.receive_sameHeader hplain
    have hheard := hstep (place, pkt) (by rw [hwire]; rfl)
    have hrefuses := TcpCtx.refuses_congr (e := er) s.receiver hheader.session
    obtain ⟨more, hlog, hmerged⟩ := TcpCtx.step_data_reaches hlex hcallback h.receiver h.merged path
      (Option.bind_eq_some_iff.mpr ⟨pkt, hpkt, hplain⟩) (hheader.session.trans hsession)
      (hheader.seqNum.trans hseq) (hdata.of_sameHeader hheader) fun hrunning hopen =>
        hheard hrunning (hrefuses ▸ hopen)
    refine ⟨h.sender, h.off, TcpCtx.step_ok hlex h.receiver (.packet path plain), h.own, h.next,
      h.sent, hunder, ?_⟩
    have hmore : (s.receiver.step er (.packet path plain)).log.drop s.receiver.log.length = more := by
      rw [show (s.receiver.step er (.packet path plain)).log = _ from hlog, List.drop_left]
    rw [hmore]
    exact hmerged

theorem step_inv (hlexs : es.plat.CmpLex) (hlex : er.plat.CmpLex) (hcallback : er.callback = true)
    (h : s.Inv es er session) {input : Input} (hstep : s.InStep er input) :
    (s.step es er input).Inv es er session := by
  cases input with
  | send packed writable => exact h.send packed writable
  | sender input => exact h.step_sender hlexs hstep
  | cut path kept => exact h.cut path kept
  | deliver path => exact h.deliver hlex hcallback hstep
  | receiver input => exact h.step_receiver hlex hstep

theorem start_inv (sessionId sessionId' : UInt32) (sessionTs sessionTs' : Timespec)
    (destAddr destAddr' : Path → Endpoint) :
    (start (.opened es sessionId sessionTs destAddr)
      (.opened er sessionId' sessionTs' destAddr')).Inv es er
        ((Slot.opened es sessionId sessionTs destAddr).ownSession es) where
  sender := TcpCtx.opened_ok sessionId sessionTs destAddr
  off := rfl
  receiver := TcpCtx.opened_ok sessionId' sessionTs' destAddr'
  own := rfl
  next := rfl
  sent := by simp [start]
  wire := by simp [start]
  merged := ⟨fun i hi => absurd hi (Nat.not_lt_zero i), fun hk => absurd hk Bool.false_ne_true,
    fun hk => absurd hk Bool.false_ne_true, fun hk => absurd hk Bool.false_ne_true⟩

end

end Multipath

-- Whatever the number of paths and however their streams, connections and disconnections
-- interleave: as long as the paths stay in step, a DATA packet of the session that is discarded
-- has been handed to the application before or waits in the window, the very packet that was
-- sent and not only one with its number.
theorem tcp_merge_discards_duplicates {es er : Env} (hlexs : es.plat.CmpLex)
    (hlex : er.plat.CmpLex) (hreceives : er.Receives) (sessionId sessionId' : UInt32)
    (sessionTs sessionTs' : Timespec) (destAddr destAddr' : Path → Endpoint)
    {inputs : List Multipath.Input} {path : Path}
    (hsteps : Run.Meets (Multipath.step es er) (Multipath.InStep er)
      (.start (.opened es sessionId sessionTs destAddr) (.opened er sessionId' sessionTs' destAddr'))
      (inputs ++ [.deliver path])) {s : Multipath}
    (hs : Multipath.run es er (.start (.opened es sessionId sessionTs destAddr)
      (.opened er sessionId' sessionTs' destAddr')) inputs = s) {place : Nat} {pkt plain : Packet}
    (hhead : (s.wire path).head? = some (place, pkt))
    (hplain : Packet.receive er pkt.wire = some plain)
    (hdiscards : s.receiver.Discards er path plain) :
    s.sent[place]? = some pkt ∧ s.receiver.Keeps er plain := by
  obtain ⟨hmeets, hlast, -⟩ := Run.meets_append.mp hsteps
  have hinv := hmeets.preserves
    (fun _ _ hstep h => Multipath.step_inv hlexs hlex hreceives.callback h hstep)
    (Multipath.start_inv sessionId sessionId' sessionTs sessionTs' destAddr destAddr')
  change Multipath.InStep er (Multipath.run es er _ inputs) (.deliver path) at hlast
  change (Multipath.run es er _ inputs).Inv es er _ at hinv
  rw [hs] at hlast hinv
  have hpkt := hinv.wire path (place, pkt) (List.mem_of_mem_head? hhead)
  obtain ⟨hseq, hsession, -⟩ := hinv.sent place pkt hpkt
  have hheader := Packet.receive_sameHeader hplain
  have hopen := (TcpCtx.refuses_congr s.receiver hheader.session).symm.trans hdiscards.2.1
  obtain ⟨-, htimely⟩ := hlast (place, pkt) hhead hdiscards.1 hopen
  exact ⟨hpkt, TcpCtx.discards_keeps hlex hinv.receiver hinv.merged path
    (Option.bind_eq_some_iff.mpr ⟨pkt, hpkt, hplain⟩) (hheader.session.trans hsession)
    (hheader.seqNum.trans hseq) htimely hdiscards⟩

namespace Multipath

def sample : Multipath :=
  .start (.opened (.sampleSender .tcp) 5 ⟨9, 0⟩ fun _ => .target)
    (.opened (.sample .tcp) 3 ⟨2, 0⟩ fun _ => .target)

-- A path comes up at both ends, with the PINGs that make it connected.
def sampleConnect (path : Path) : List Input :=
  [.sender (.connect path), .sender (.start path), .receiver (.accept path (.samplePing 0)),
    .receiver (.start path),
    .receiver (.packet path (Packet.buildPing Packet.sampleSession 0 [0, 0, 0, 0])),
    .sender (.packet path (Packet.buildPing ⟨1, 3, 2, 0⟩ 0
      [PING_STATE_NORMAL, PING_STATE_NORMAL, 0, 0])),
    .receiver (.packet path (.samplePing 0))]

def sampleSend (data : Bytes) : Input := .send (Elem.encode ⟨0, data⟩) fun _ => true

end Multipath

-- Both paths carry the packet; the second copy is discarded.
theorem tcp_merge_discards_duplicates_sample :
    let s := Multipath.sample.run (.sampleSender .tcp) (.sample .tcp)
      (Multipath.sampleConnect 0 ++ Multipath.sampleConnect 1 ++
        [Multipath.sampleSend [1], .deliver 0])
    s.receiver.Discards (.sample .tcp) 1 (.sampleData 0 [⟨0, [1]⟩]) ∧
      s.receiver.Keeps (.sample .tcp) (.sampleData 0 [⟨0, [1]⟩]) := by
  have hdiscards : (Multipath.sample.run (.sampleSender .tcp) (.sample .tcp)
      (Multipath.sampleConnect 0 ++ Multipath.sampleConnect 1 ++
        [Multipath.sampleSend [1], .deliver 0])).receiver.Discards (.sample .tcp) 1
          (.sampleData 0 [⟨0, [1]⟩]) := by decide +kernel
  refine ⟨hdiscards, ?_⟩
  have hhead : ((Multipath.sample.run (.sampleSender .tcp) (.sample .tcp)
      (Multipath.sampleConnect 0 ++ Multipath.sampleConnect 1 ++
        [Multipath.sampleSend [1], .deliver 0])).wire 1).head? =
          some (0, .sampleData 0 [⟨0, [1]⟩]) := by decide +kernel
  exact (tcp_merge_discards_duplicates Cplat.reference_cmpLex Cplat.reference_cmpLex (.inl rfl)
    5 3 ⟨9, 0⟩ ⟨2, 0⟩ (fun _ => .target) (fun _ => .target) (by decide +kernel) rfl hhead
    (by decide +kernel) hdiscards).2

-- A second path comes up while the first packet is under way on the first one. The next packet
-- overtakes it on the new path and starts the window behind it: it is discarded when it arrives,
-- though both ends are connected all the time, and the application never gets it.
theorem overtaken_packet_discarded :
    let s := Multipath.sample.run (.sampleSender .tcp) (.sample .tcp)
      (Multipath.sampleConnect 0 ++ [Multipath.sampleSend [1]] ++ Multipath.sampleConnect 1 ++
        [Multipath.sampleSend [2], .deliver 1])
    s.sender.healthAlive = true ∧ s.receiver.healthAlive = true ∧
      ((s.wire 0).head?.bind fun x => Packet.receive (.sample .tcp) x.2.wire) =
        some (.sampleData 0 [⟨0, [1]⟩]) ∧
      s.receiver.Discards (.sample .tcp) 0 (.sampleData 0 [⟨0, [1]⟩]) ∧
      ¬ s.receiver.Keeps (.sample .tcp) (.sampleData 0 [⟨0, [1]⟩]) ∧
      delivered (s.step (.sampleSender .tcp) (.sample .tcp) (.deliver 0)).receiver.log = [[2]] := by
  decide +kernel

end Porter
