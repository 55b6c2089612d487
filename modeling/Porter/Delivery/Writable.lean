import Porter.Connection.Paths
import Porter.Delivery.RoundTrip

namespace Porter

-- One TCP connection from a sender to a receiver. `wire` are the DATA packets under way, the
-- oldest first; `written` are all that were written to the connection.
structure TcpLink where
  sender : Sender
  receiver : TcpCtx
  wire : List Packet
  written : List Packet

namespace TcpLink

-- `writable` is what cplat_socket_wait_writable answers in flush_packed. Beside the DATA packets
-- the receiver sees the PINGs of the sender and the timeouts of its poll.
inductive Input where
  | send (act : Sender.Action) (writable : Bool)
  | deliver
  | ping (seqNum : UInt32) (states : Bytes)
  | pollTimeout

def start (slot : Slot) (tcpActivePaths : Nat) (calls : List (Bytes × Bool)) (receiver : TcpCtx) :
    TcpLink where
  sender := .start slot tcpActivePaths calls
  receiver := receiver
  wire := []
  written := []

-- The DATA packets that a turn of the sender writes, by its log.
def writes (e : Env) (s : Sender) (act : Sender.Action) (writable : Bool) : List Packet :=
  s.slot.dataSince (s.turn e writable act).slot (0, s.slot.destAddr 0)

def outgoing (e : Env) (s : Sender) (act : Sender.Action) : List Packet := writes e s act true

def arrive (er : Env) (receiver : TcpCtx) (pkt : Packet) : TcpCtx :=
  match Packet.receive er pkt.wire with
  | none => receiver
  | some plain => receiver.step er (.packet 0 plain)

def step (es er : Env) (link : TcpLink) : Input → TcpLink
  | .send act writable =>
      { link with
        sender := link.sender.turn es writable act
        wire := link.wire ++ writes es link.sender act writable
        written := link.written ++ writes es link.sender act writable }
  | .deliver =>
      match link.wire with
      | [] => link
      | pkt :: wire => { link with receiver := arrive er link.receiver pkt, wire := wire }
  | .ping seqNum states =>
      { link with
        receiver := link.receiver.step er (.packet 0
          (Packet.buildPing (link.sender.slot.ownSessionHdr es) seqNum states)) }
  | .pollTimeout => { link with receiver := link.receiver.step er (.pollTimeout 0) }

def run (es er : Env) (link : TcpLink) (inputs : List Input) : TcpLink :=
  inputs.foldl (step es er) link

def Connected (link : TcpLink) : Prop :=
  link.receiver.healthAlive = true ∧ link.receiver.running 0 = true

-- The socket has room for the packet that is to be written.
def Writable (es : Env) (link : TcpLink) : Input → Prop
  | .send act writable => outgoing es link.sender act = [] ∨ writable = true
  | _ => True

-- Nothing that was accepted is left at the sender or in the connection.
def Drained (link : TcpLink) : Prop :=
  link.sender.todo = [] ∧ link.sender.queue.entries = [] ∧ link.sender.packing = none ∧
    link.wire = []

instance (link : TcpLink) : Decidable link.Connected := inferInstanceAs (Decidable (_ ∧ _))

instance (es : Env) (link : TcpLink) : ∀ input, Decidable (link.Writable es input)
  | .send _ _ => inferInstanceAs (Decidable (_ ∨ _))
  | .deliver | .ping _ _ | .pollTimeout => .isTrue trivial

instance (link : TcpLink) : Decidable link.Drained :=
  decidable_of_iff (link.sender.todo = [] ∧ link.sender.queue.entries = [] ∧
    link.sender.packing.isNone ∧ link.wire = []) (by simp [Drained])

def elemsOf (er : Env) (pkts : List Packet) : List Elem :=
  (pkts.filterMap fun pkt => Packet.receive er pkt.wire).flatMap fun pkt =>
    Packet.unpackAll pkt.payload

-- Every packet that was made was written, and the receiver has taken the first `n` of them: the
-- others are under way.
structure Conveys (es er : Env) (hdr : PacketSessionHdr) (out : List Bytes) (n : Nat)
    (link : TcpLink) : Prop where
  tcp : es.type.isTcpType = true
  stream : ∃ groups packing parts, link.sender.Stream es hdr groups packing parts
  written : link.written = link.sender.sent
  taken : n ≤ link.sender.sent.length
  wire : link.wire = link.sender.sent.drop n
  awaits : link.receiver.Awaits er (Packet.fillSessionHdr hdr).session (UInt32.ofNat n)
    (Reassembly.empty.feedAll er (elemsOf er (link.sender.sent.take n))).1
    (out ++ (Reassembly.empty.feedAll er (elemsOf er (link.sender.sent.take n))).2)

section

variable {es er : Env} {hdr : PacketSessionHdr} {out : List Bytes} {n : Nat} {link : TcpLink}

theorem turn_sent (htcp : es.type.isTcpType = true) (s : Sender) (act : Sender.Action)
    {writable : Bool} (hroom : outgoing es s act = [] ∨ writable = true) :
    (s.turn es writable act).sent = s.sent ++ writes es s act writable := by
  obtain ⟨made, hdata, hturn⟩ := Sender.turn_log es s act
  have hwrites : ∀ w, writes es s act w =
      (made.flatMap (s.slot.dataActs es w)).filterMap (Act.dataTo (0, s.slot.destAddr 0)) := by
    intro w
    unfold writes Slot.dataSince
    rw [Slot.since_of_log (hturn w).2.1]
  have hmade : outgoing es s act = made :=
    (hwrites true).trans (Sender.flatMap_dataActs_dataTo (.inl htcp) hdata)
  rw [(hturn writable).1]
  rcases hroom with hnone | rfl
  · rw [hwrites, hmade.symm.trans hnone]
    rfl
  · exact congrArg (s.sent ++ ·) hmade.symm

theorem Conveys.send (hcrypto : es.Crypto er) (h : link.Conveys es er hdr out n)
    (act : Sender.Action) {writable : Bool} (hw : link.Writable es (.send act writable)) :
    (link.step es er (.send act writable)).Conveys es er hdr out n := by
  obtain ⟨groups, packing, parts, hstream⟩ := h.stream
  have hsent := turn_sent h.tcp link.sender act hw
  have htake : (link.sender.turn es writable act).sent.take n = link.sender.sent.take n := by
    rw [hsent, List.take_append_of_le_length h.taken]
  simp only [step]
  constructor
  · exact h.tcp
  · exact hstream.turn hcrypto writable act
  · exact (congrArg (· ++ _) h.written).trans hsent.symm
  · simp only [hsent, List.length_append]
    have := h.taken
    omega
  · simp only [hsent, List.drop_append_of_le_length h.taken, h.wire]
  · simp only [htake]
    exact h.awaits

theorem Conveys.arrives (hcrypto : es.Crypto er) (hservice : hdr.serviceId = es.serviceId)
    (h : link.Conveys es er hdr out n) {pkt : Packet} {wire : List Packet}
    (hwire : link.wire = pkt :: wire) :
    link.sender.sent[n]? = some pkt ∧ wire = link.sender.sent.drop (n + 1) ∧
      ∃ plain, Packet.receive er pkt.wire = some plain ∧ plain.flags = FLAG_DATA ∧
        plain.session = (Packet.fillSessionHdr hdr).session ∧ plain.seqNum = UInt32.ofNat n := by
  obtain ⟨groups, packing, parts, hstream⟩ := h.stream
  have hdrop := h.wire.symm.trans hwire
  have hget : link.sender.sent[n]? = some pkt := by
    rw [← List.head?_drop, hdrop, List.head?_cons]
  obtain ⟨group, hgroup, hcontainer⟩ := hstream.sent n pkt hget
  have hfits := hstream.fits group (List.mem_of_getElem? hgroup)
  refine ⟨hget, ?_, _, receive_container hcrypto hservice hfits hcontainer, rfl, rfl, rfl⟩
  rw [← List.tail_drop, hdrop, List.tail_cons]

theorem elemsOf_take_succ {pkts : List Packet} {pkt plain : Packet} (hpkt : pkts[n]? = some pkt)
    (hplain : Packet.receive er pkt.wire = some plain) :
    elemsOf er (pkts.take (n + 1)) =
      elemsOf er (pkts.take n) ++ Packet.unpackAll plain.payload := by
  rw [List.take_add_one, hpkt]
  simp [elemsOf, hplain]

theorem Conveys.deliver (hcrypto : es.Crypto er) (hservice : hdr.serviceId = es.serviceId)
    (hlex : er.plat.CmpLex) (hcallback : er.callback = true) (h : link.Conveys es er hdr out n)
    (hconnected : link.Connected) :
    (link.step es er .deliver).Conveys es er hdr out n ∨
      (link.step es er .deliver).Conveys es er hdr out (n + 1) := by
  simp only [step]
  split
  · exact .inl h
  · rename_i pkt wire hwire
    obtain ⟨hpkt, hrest, plain, hplain, hflags, hsession, hnum⟩ := h.arrives hcrypto hservice hwire
    have hless : n < link.sender.sent.length := (List.getElem?_eq_some_iff.mp hpkt).1
    refine .inr ⟨h.tcp, h.stream, h.written, hless, hrest, ?_⟩
    have hcarries : (TcpCtx.Input.packet 0 plain).Carries (fun path => path = 0) plain :=
      ⟨0, rfl, rfl⟩
    have hstep := TcpCtx.step_data hlex hcallback h.awaits hconnected.1
      (by simpa using hconnected.2) hcarries hflags hsession hnum
    simp only [arrive, hplain, elemsOf_take_succ hpkt hplain, Reassembly.feedAll_append]
    rw [← List.append_assoc, UInt32.ofNat_add]
    exact hstep

theorem Conveys.step (hcrypto : es.Crypto er) (hservice : hdr.serviceId = es.serviceId)
    (hlex : er.plat.CmpLex) (hcallback : er.callback = true) (h : link.Conveys es er hdr out n)
    (hconnected : link.Connected) {input : Input} (hw : link.Writable es input) :
    ∃ n', (link.step es er input).Conveys es er hdr out n' := by
  cases input with
  | send act writable => exact ⟨n, h.send hcrypto act hw⟩
  | deliver =>
    rcases h.deliver hcrypto hservice hlex hcallback hconnected with h' | h'
    · exact ⟨n, h'⟩
    · exact ⟨n + 1, h'⟩
  | ping seqNum states =>
    obtain ⟨groups, packing, parts, hstream⟩ := h.stream
    have hping : (TcpCtx.Input.packet 0 (Packet.buildPing (link.sender.slot.ownSessionHdr es)
        seqNum states)).Between (Packet.fillSessionHdr hdr).session :=
      ⟨rfl, by rw [hstream.session]; rfl⟩
    exact ⟨n, h.tcp, h.stream, h.written, h.taken, h.wire, TcpCtx.step_between hlex h.awaits hping⟩
  | pollTimeout =>
    have hpoll : (TcpCtx.Input.pollTimeout 0).Between (Packet.fillSessionHdr hdr).session :=
      trivial
    exact ⟨n, h.tcp, h.stream, h.written, h.taken, h.wire, TcpCtx.step_between hlex h.awaits hpoll⟩

theorem Conveys.numbered (h : link.Conveys es er hdr out n) {i : Nat} {pkt : Packet}
    (hpkt : link.written[i]? = some pkt) : pkt.seqNum = UInt32.ofNat i := by
  obtain ⟨groups, packing, parts, hstream⟩ := h.stream
  rw [h.written] at hpkt
  obtain ⟨group, hgroup, hcontainer⟩ := hstream.sent i pkt hpkt
  rw [container_eq (hstream.fits group (List.mem_of_getElem? hgroup))] at hcontainer
  exact (Packet.sealAs_sameHeader hcontainer).seqNum

theorem Conveys.delivered_eq (h : link.Conveys es er hdr out n) :
    delivered link.receiver.log =
      out ++ (Reassembly.empty.feedAll er (elemsOf er (link.sender.sent.take n))).2 :=
  h.awaits.slot.elim (·.out) (·.out)

theorem Conveys.isPrefix (hcodec : es.Codec er) (hcrypto : es.Crypto er)
    (hservice : hdr.serviceId = es.serviceId) (h : link.Conveys es er hdr out n) :
    delivered link.receiver.log <+: out ++ link.sender.accepted := by
  obtain ⟨groups, packing, parts, hstream⟩ := h.stream
  have helems : elemsOf er (link.sender.sent.take n) = (groups.take n).flatten := by
    rw [elemsOf, hstream.arrivals_take hcrypto hservice]
    exact flatMap_plainContainers hstream.fits n
  have hall : (groups.take n).flatten ++ ((groups.drop n).flatten ++ packing ++
      link.sender.queue.entries.map Prod.snd ++ link.sender.todo) = parts.flatten := by
    rw [← hstream.order]
    simp only [← List.append_assoc, ← List.flatten_append, List.take_append_drop]
  have hfeed := Sender.feedAll_parts hcodec hstream.cut
  rw [← hall, Reassembly.feedAll_append] at hfeed
  rw [h.delivered_eq, helems]
  exact (List.prefix_append_right_inj out).mpr ⟨_, congrArg Prod.snd hfeed⟩

theorem Conveys.all_delivered (hcodec : es.Codec er) (hcrypto : es.Crypto er)
    (hservice : hdr.serviceId = es.serviceId) (h : link.Conveys es er hdr out n)
    (hdrained : link.Drained) : delivered link.receiver.log = out ++ link.sender.accepted := by
  obtain ⟨groups, packing, parts, hstream⟩ := h.stream
  obtain ⟨htodo, hqueue, hpacking, hwire⟩ := hdrained
  -- what the application may still pass does not matter
  have hidle : Sender.Stream es hdr { link.sender with calls := [] } groups packing parts :=
    ⟨hstream.session, hstream.active, hstream.next, hstream.length, hstream.sent, hstream.fits,
      hstream.packed, hstream.idle, hstream.cut, hstream.order⟩
  obtain ⟨-, hfeed⟩ := hidle.arrivals_done hcodec hcrypto hservice ⟨rfl, htodo, hqueue, hpacking⟩
  have hall : link.sender.sent.take n = link.sender.sent :=
    List.take_of_length_le (List.drop_eq_nil_iff.mp (h.wire.symm.trans hwire))
  rw [h.delivered_eq, hall]
  exact congrArg (out ++ ·) (congrArg Prod.snd hfeed)

theorem Conveys.deliver_connected (hcrypto : es.Crypto er) (hservice : hdr.serviceId = es.serviceId)
    (h : link.Conveys es er hdr out n) (hconnected : link.Connected) :
    (link.step es er .deliver).Connected := by
  simp only [TcpLink.step]
  split
  · exact hconnected
  · rename_i pkt wire hwire
    obtain ⟨-, -, plain, hplain, hflags, -, -⟩ := h.arrives hcrypto hservice hwire
    have hfin : link.receiver.peerSessionKnown = true → link.receiver.pendingFin = false := by
      intro hknown
      rcases h.awaits.slot with hslot | hslot
      · exact hslot.fin
      · exact absurd (hslot.known.symm.trans hknown) Bool.false_ne_true
    obtain ⟨hlinks, hrunning⟩ := TcpCtx.step_data_links (e := er) hfin 0 hflags
    simp only [Connected, arrive, hplain]
    rw [hrunning]
    exact ⟨(congrArg (fun l : Links => l.alive) hlinks).trans hconnected.1, hconnected.2⟩

theorem Conveys.sends (hcrypto : es.Crypto er) (h : link.Conveys es er hdr out n)
    (hconnected : link.Connected) (acts : List Sender.Action) :
    Run.Meets (TcpLink.step es er) (Writable es) link (acts.map (Input.send · true)) ∧
      (link.run es er (acts.map (Input.send · true))).Conveys es er hdr out n ∧
      (link.run es er (acts.map (Input.send · true))).Connected ∧
      (link.run es er (acts.map (Input.send · true))).sender = link.sender.run es acts := by
  induction acts generalizing link with
  | nil => exact ⟨trivial, h, hconnected, rfl⟩
  | cons act acts ih =>
    have hroom : link.Writable es (.send act true) := .inr rfl
    obtain ⟨hmeets, hconveys, hstays, hsender⟩ := ih (h.send hcrypto act hroom) hconnected
    exact ⟨⟨hroom, hmeets⟩, hconveys, hstays, hsender⟩

theorem Conveys.delivers (hcrypto : es.Crypto er) (hservice : hdr.serviceId = es.serviceId)
    (hlex : er.plat.CmpLex) (hcallback : er.callback = true) {wire : List Packet}
    (hwire : link.wire = wire) (h : link.Conveys es er hdr out n) (hconnected : link.Connected) :
    Run.Meets (TcpLink.step es er) (Writable es) link (wire.map fun _ => Input.deliver) ∧
      (link.run es er (wire.map fun _ => Input.deliver)).wire = [] ∧
      (link.run es er (wire.map fun _ => Input.deliver)).sender = link.sender ∧
      ∃ n', (link.run es er (wire.map fun _ => Input.deliver)).Conveys es er hdr out n' := by
  induction wire generalizing link n with
  | nil => exact ⟨trivial, hwire, rfl, n, h⟩
  | cons pkt wire ih =>
    have hroom : link.Writable es .deliver := trivial
    obtain ⟨n', h'⟩ := h.step hcrypto hservice hlex hcallback hconnected hroom
    have hrest : (link.step es er .deliver).wire = wire := by
      simp only [TcpLink.step, hwire]
    have hsender : (link.step es er .deliver).sender = link.sender := by
      simp only [TcpLink.step, hwire]
    obtain ⟨hmeets, hempty, hsame, hconveys⟩ :=
      ih hrest h' (h.deliver_connected hcrypto hservice hconnected)
    exact ⟨⟨trivial, hmeets⟩, hempty, hsame.trans hsender, hconveys⟩

theorem Conveys.finish (hcodec : es.Codec er) (hcrypto : es.Crypto er)
    (hservice : hdr.serviceId = es.serviceId) (hlex : er.plat.CmpLex)
    (hcallback : er.callback = true) (h : link.Conveys es er hdr out n)
    (hconnected : link.Connected) :
    ∃ more, Run.Meets (TcpLink.step es er) (Writable es) link more ∧
      (link.run es er more).Drained ∧
      delivered (link.run es er more).receiver.log =
        out ++ (link.run es er more).sender.accepted := by
  obtain ⟨groups, packing, parts, hstream⟩ := h.stream
  obtain ⟨acts, -, htodo, hqueue, hpacking⟩ := hstream.exists_done hcrypto
  obtain ⟨hmeets, hsent, hstays, hsender⟩ := h.sends hcrypto hconnected acts
  generalize hlink : link.run es er (acts.map (Input.send · true)) = link' at hsent hstays hsender
  obtain ⟨hmeets', hempty, hsame, n', hconveys⟩ :=
    hsent.delivers hcrypto hservice hlex hcallback rfl hstays
  have hrun : link.run es er (acts.map (Input.send · true) ++
      link'.wire.map fun _ => Input.deliver) =
        link'.run es er (link'.wire.map fun _ => Input.deliver) := by
    rw [← hlink]
    exact List.foldl_append
  have hdrained : (link'.run es er (link'.wire.map fun _ => Input.deliver)).Drained := by
    unfold Drained
    rw [hsame, hsender]
    exact ⟨htodo, hqueue, hpacking, hempty⟩
  refine ⟨acts.map (Input.send · true) ++ link'.wire.map fun _ => Input.deliver, ?_⟩
  rw [hrun]
  refine ⟨Run.meets_append.mpr ⟨hmeets, ?_⟩, hdrained,
    hconveys.all_delivered hcodec hcrypto hservice hdrained⟩
  rw [← hlink] at hmeets' ⊢
  exact hmeets'

end

-- Whatever the socket answers when there is nothing to write: while flush_packed never has a
-- packet for which there is no room, the packets in the connection are numbered without a gap, a
-- receiver that stays connected hands over a beginning of what was accepted, in order, all of it
-- when nothing is left on the way, and the two ends can always get there.
theorem tcp_delivers_accepted {es er : Env} (hcodec : es.Codec er) (hcrypto : es.Crypto er)
    (hlex : er.plat.CmpLex) (hcallback : er.callback = true) (htcp : es.type.isTcpType = true)
    {slot : Slot} (hfresh : slot.sendWindow.nextSeq = 0) (tcpActivePaths : Nat)
    (calls : List (Bytes × Bool)) {receiver : TcpCtx}
    (hawaits : receiver.Awaits er (slot.ownSession es) 0 Reassembly.empty (delivered receiver.log))
    {inputs : List Input}
    (hconnected : Run.Meets (TcpLink.step es er) (fun link _ => link.Connected)
      (start slot tcpActivePaths calls receiver) inputs)
    (hwritable : Run.Meets (TcpLink.step es er) (Writable es)
      (start slot tcpActivePaths calls receiver) inputs)
    {link : TcpLink} (hlink : (start slot tcpActivePaths calls receiver).run es er inputs = link) :
    (∀ i pkt, link.written[i]? = some pkt → pkt.seqNum = UInt32.ofNat i) ∧
    delivered link.receiver.log <+: delivered receiver.log ++ link.sender.accepted ∧
    (link.Drained →
      delivered link.receiver.log = delivered receiver.log ++ link.sender.accepted) ∧
    (link.Connected → ∃ more, Run.Meets (TcpLink.step es er) (Writable es) link more ∧
      (link.run es er more).Drained ∧ delivered (link.run es er more).receiver.log =
        delivered receiver.log ++ (link.run es er more).sender.accepted) := by
  have hactive : es.isMultiPeer = true → slot.active = true := by
    intro hmulti
    have hkind : es.type = .unicastBidirN1 := by simpa [Config.isMultiPeer] using hmulti
    rw [hkind] at htcp
    cases htcp
  have hstart : (start slot tcpActivePaths calls receiver).Conveys es er (slot.ownSessionHdr es)
      (delivered receiver.log) 0 := by
    refine ⟨htcp, ⟨[], [], [], Sender.start_stream hfresh hactive tcpActivePaths calls⟩, rfl,
      le_rfl, rfl, ?_⟩
    simpa [start, Sender.start, elemsOf, Reassembly.feedAll, Slot.ownSession] using hawaits
  have hrun : ∃ n, link.Conveys es er (slot.ownSessionHdr es) (delivered receiver.log) n := by
    rw [← hlink]
    refine (hconnected.and hwritable).preserves
      (P := fun link => ∃ n, link.Conveys es er (slot.ownSessionHdr es) (delivered receiver.log) n)
      ?_ ⟨0, hstart⟩
    rintro link input ⟨hup, hroom⟩ ⟨n, h⟩
    exact h.step hcrypto rfl hlex hcallback hup hroom
  obtain ⟨n, h⟩ := hrun
  exact ⟨fun i pkt => h.numbered, h.isPrefix hcodec hcrypto rfl,
    h.all_delivered hcodec hcrypto rfl, h.finish hcodec hcrypto rfl hlex hcallback⟩

-- Two connected ends with three messages to send.
def sample : TcpLink :=
  start
    ((TcpCtx.opened (Env.singleSender .tcp) 5 ⟨9, 0⟩ fun _ => .target).run (Env.singleSender .tcp)
      [.connect 0, .start 0, .packet 0 (Packet.buildPing ⟨1, 3, 2, 0⟩ 0
        [PING_STATE_NORMAL, 0, 0, 0])]).toSlot
    1 [([1], false), ([2], false), ([3], false)]
    ((TcpCtx.opened (Env.singleReceiver .tcp) 3 ⟨2, 0⟩ fun _ => .target).run
      (Env.singleReceiver .tcp) [.accept 0 (.samplePing 0), .start 0, .packet 0 (.samplePing 0)])

-- One message from the application to the connection.
def sampleTurns (writable : Bool) : List Input :=
  [.send .call true, .send .push true, .send .pop true, .send .flush writable]

theorem tcp_delivers_accepted_sample :
    delivered (sample.run (Env.singleSender .tcp) (Env.singleReceiver .tcp)
      (sampleTurns true ++ [.deliver, .ping 0 []] ++ sampleTurns true ++ [.deliver])).receiver.log =
        [[1], [2]] := by
  have hcodec : (Env.singleSender .tcp).Codec (Env.singleReceiver .tcp) :=
    Cplat.reference_codec rfl rfl rfl
  have hcrypto : (Env.singleSender .tcp).Crypto (Env.singleReceiver .tcp) :=
    Cplat.reference_crypto rfl rfl rfl rfl rfl rfl
  have hawaits : sample.receiver.Awaits (Env.singleReceiver .tcp) ⟨5, ⟨9, 0⟩⟩ 0 Reassembly.empty
      (delivered sample.receiver.log) :=
    ⟨.inr ⟨⟨fun h => absurd rfl h, Window.init_wf (by decide) (by decide), rfl, fun _ => rfl⟩,
      .inl rfl, rfl, rfl, rfl⟩, .inr rfl⟩
  have hfresh : sample.sender.slot.sendWindow.nextSeq = 0 := rfl
  exact (tcp_delivers_accepted hcodec hcrypto Cplat.reference_cmpLex rfl rfl hfresh 1
    [([1], false), ([2], false), ([3], false)] hawaits (by decide +kernel) (by decide +kernel)
    rfl).2.2.1 (by decide +kernel)

-- The second message finds the socket full. Its packet is skipped, its number is gone, and the
-- third message waits in the window for it for good, though the connection is up.
theorem full_socket_leaves_gap :
    let link := sample.run (Env.singleSender .tcp) (Env.singleReceiver .tcp)
      (sampleTurns true ++ [.deliver] ++ sampleTurns false ++ sampleTurns true ++ [.deliver])
    link.Connected ∧ link.Drained ∧ link.sender.accepted = [[1], [2], [3]] ∧
      link.written.map Packet.seqNum = [0, 2] ∧ delivered link.receiver.log = [[1]] := by
  decide +kernel

end TcpLink

end Porter
