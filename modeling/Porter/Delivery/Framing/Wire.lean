import Porter.Connection.Spares
import Porter.Recv.Stream

namespace Porter

open Buffer

-- What a path has read of its connection and not handed over.
inductive Hand where
  | nothing
  -- with the length of the payload that follows
  | header (bytes : Bytes) (payloadLen : Nat)
  | packet (bytes : Bytes)

namespace Hand

def bytes : Hand → Bytes
  | nothing => []
  | header bytes _ | packet bytes => bytes

def Ok (e : Env) : Hand → Prop
  | nothing => True
  | header bytes payloadLen => bytes.length = PACKET_HEADER_SIZE ∧
      payloadLen = Packet.wirePayloadLen bytes ∧ payloadLen ≤ e.maxPayload
  | packet bytes => e.format.Whole bytes

end Hand

-- The rest of the stream gives what is still to be handed over.
structure Wire.Cut (e : Env) (wire : Wire) (hand : Hand) : Prop where
  ok : hand.Ok e
  frames : e.format.frames wire.stream =
    wire.handed ++ e.format.frames (hand.bytes ++ wire.unread)

namespace Wire

variable {e : Env} {wire : Wire} {bytes : Bytes} {len : Nat}

theorem Cut.handed_le {hand : Hand} (h : wire.Cut e hand) :
    wire.handed <+: e.format.frames wire.stream := by
  rw [h.frames]
  exact List.prefix_append ..

theorem Cut.header (h : wire.Cut e .nothing) (hlen : PACKET_HEADER_SIZE ≤ wire.unread.length)
    (hmax : Packet.wirePayloadLen (wire.unread.take PACKET_HEADER_SIZE) ≤ e.maxPayload) :
    Cut e { wire with unread := wire.unread.drop PACKET_HEADER_SIZE }
      (.header (wire.unread.take PACKET_HEADER_SIZE)
        (Packet.wirePayloadLen (wire.unread.take PACKET_HEADER_SIZE))) where
  ok := ⟨by rw [List.length_take]; omega, rfl, hmax⟩
  frames := by
    rw [h.frames]
    simp only [Hand.bytes, List.nil_append, List.take_append_drop]

theorem Cut.payload (h : wire.Cut e (.header bytes len)) (hlen : len ≤ wire.unread.length) :
    Cut e { wire with unread := wire.unread.drop len } (.packet (bytes ++ wire.unread.take len)) where
  ok := by
    obtain ⟨hheader, hsize, hmax⟩ := h.ok
    have hsame : Packet.wirePayloadLen (bytes ++ wire.unread.take len) =
        Packet.wirePayloadLen bytes := Framing.Format.len_append (f := e.format) hheader.ge _
    have hlength : (bytes ++ wire.unread.take len).length = PACKET_HEADER_SIZE + len := by
      rw [List.length_append, List.length_take, hheader, Nat.min_eq_left hlen]
    refine ⟨?_, ?_, ?_⟩
    · rw [hlength]
      exact Nat.le_add_right ..
    · change Packet.wirePayloadLen (bytes ++ wire.unread.take len) ≤ e.maxPayload
      rw [hsame, ← hsize]
      exact hmax
    · change _ = PACKET_HEADER_SIZE + Packet.wirePayloadLen (bytes ++ wire.unread.take len)
      rw [hlength, hsame, ← hsize]
  frames := by
    rw [h.frames]
    simp only [Hand.bytes, List.append_assoc, List.take_append_drop]

theorem Cut.hand_over (h : wire.Cut e (.packet bytes)) :
    e.format.frames wire.stream = wire.handed ++ [bytes] ++
      if (Packet.parse bytes).isSome then e.format.frames wire.unread else [] := by
  rw [h.frames, List.append_assoc]
  exact congrArg _ (Framing.Format.frames_of_whole h.ok wire.unread)

theorem Cut.parsed (h : wire.Cut e (.packet bytes)) (hparse : (Packet.parse bytes).isSome = true) :
    Cut e { wire with handed := wire.handed ++ [bytes] } .nothing where
  ok := trivial
  frames := by
    have hframes := h.hand_over
    rw [if_pos hparse] at hframes
    exact hframes

theorem Cut.refused (h : wire.Cut e (.packet bytes)) (hparse : Packet.parse bytes = none) :
    wire.handed ++ [bytes] = e.format.frames wire.stream := by
  rw [h.hand_over, hparse]
  exact (List.append_nil _).symm

-- The stream ends, or the next packet is too long.

theorem Cut.ended (h : wire.Cut e .nothing) (hlen : wire.unread.length < PACKET_HEADER_SIZE) :
    wire.handed = e.format.frames wire.stream := by
  rw [h.frames, Framing.Format.frames_of_short hlen, List.append_nil]

theorem Cut.interrupted (h : wire.Cut e (.header bytes len)) (hlen : wire.unread.length < len) :
    wire.handed = e.format.frames wire.stream := by
  obtain ⟨hheader, hsize, -⟩ := h.ok
  have hlength : (bytes ++ wire.unread).length = PACKET_HEADER_SIZE + wire.unread.length := by
    rw [List.length_append, hheader]
  have hsame : Packet.wirePayloadLen (bytes ++ wire.unread) = Packet.wirePayloadLen bytes :=
    Framing.Format.len_append (f := e.format) hheader.ge _
  have hnone : e.format.frames (bytes ++ wire.unread) = [] := by
    refine Framing.Format.frames_of_incomplete ?_ ?_
    · rw [hlength]
      exact Nat.le_add_right ..
    · change _ < PACKET_HEADER_SIZE + Packet.wirePayloadLen (bytes ++ wire.unread)
      rw [hlength, hsame, ← hsize]
      omega
  rw [h.frames]
  exact (hnone ▸ List.append_nil _).symm

theorem Cut.oversized (h : wire.Cut e .nothing) (hlen : PACKET_HEADER_SIZE ≤ wire.unread.length)
    (hmax : e.maxPayload < Packet.wirePayloadLen (wire.unread.take PACKET_HEADER_SIZE)) :
    wire.handed = e.format.frames wire.stream := by
  rw [Packet.wirePayloadLen_take] at hmax
  have hnone : e.format.frames wire.unread = [] := Framing.Format.frames_of_long hlen hmax
  rw [h.frames]
  exact (hnone ▸ List.append_nil _).symm

end Wire

def Port.readHand (port : Port) : Reader → Hand
  | .polling _ | .reading _ => .nothing
  | .sized _ len => .header (copyOut port.tcpRecvBuf 0 PACKET_HEADER_SIZE) len
  | .filled len => .packet (copyOut port.tcpRecvBuf 0 (PACKET_HEADER_SIZE + len))
  | .ended | .entry | .checked | .fetched _ =>
      if port.tcpFirstPktLen = 0 then .nothing
      else .packet (copyOut port.tcpFirstPktBuf 0 port.tcpFirstPktLen)

def Port.hand (port : Port) : Hand :=
  match port.acceptor with
  | .greeting _ => .nothing
  | .sized _ len => .header (copyOut port.tcpFirstPktBuf 0 PACKET_HEADER_SIZE) len
  | .filled _ len => .packet (copyOut port.tcpFirstPktBuf 0 len)
  | .listening => port.readHand port.reader

theorem Port.hand_of_listening {port : Port} (h : port.acceptor = .listening) :
    port.hand = port.readHand port.reader := by
  unfold hand
  rw [h]

theorem Acceptor.fd_eq_none {acceptor : Acceptor} : acceptor.fd = none ↔ acceptor = .listening := by
  cases acceptor with
  | listening => exact iff_of_true rfl rfl
  | greeting | sized | filled => exact iff_of_false nofun nofun

-- The receive thread has looked for the prefetched packet.
def Reader.past : Reader → Bool
  | polling _ | reading _ | sized .. | filled _ => true
  | ended | entry | checked | fetched _ => false

namespace TcpStreams

-- How the threads of a path stand to each other.
structure Staffed (e : Env) (s : TcpStreams) (k : Path) : Prop where
  attended : s.thread k = true → (s.phase k).attended = true
  vacant : (s.phase k).vacant = true → s.tcpConnFd k = false
  ended : (s.ports k).reader = .ended ↔ s.thread k = false
  idle : (s.ports k).serves = none → s.phase k = .waiting ∧ (s.ports k).acceptor = .listening
  engaged : (s.ports k).acceptor ≠ .listening → s.phase k = .waiting
  role : (s.ports k).serves ≠ none → e.role = .receiver ∧ k.val < e.nPath

-- The connection of a path is registered and may still be read.
def Up (s : TcpStreams) (k : Path) : Prop := s.phase k = .published ∨ s.thread k = true

-- A path that works on a connection: the descriptors its threads have are those of the
-- connection, or closed.
structure Serving (e : Env) (s : TcpStreams) (k : Path) (conn : Nat) : Prop where
  fd : s.tcpConnFd k = true → s.descriptors (s.ports k).connFd = some conn
  greets : ∀ fd, (s.ports k).acceptor.fd = some fd → s.descriptors fd = some conn
  holds : ∀ fd, (s.ports k).reader.fd = some fd → s.descriptors fd = some conn ∨
    (s.descriptors fd = none ∧ (s.wires conn).cutOff = true)
  shut : s.Up k → s.tcpConnFd k = false → (s.wires conn).cutOff = true
  stopped : s.thread k = true → s.running k = false → (s.wires conn).cutOff = true
  spent : (s.ports k).reader.past = true → (s.ports k).tcpFirstPktLen = 0
  early : (s.ports k).acceptor ≠ .listening → (s.wires conn).handed = []
  cut : (s.ports k).acceptor ≠ .listening ∨ s.Up k → (s.wires conn).Cut e (s.ports k).hand

-- What holds of every connection, whether or not a path still works on it.
structure Settled (e : Env) (wire : Wire) : Prop where
  handed : wire.handed <+: e.format.frames wire.stream
  complete : wire.outcome = some false → wire.handed = e.format.frames wire.stream
  first : ∀ pkt, wire.admitted = some pkt →
    ∃ frame, (e.format.frames wire.stream).head? = some frame ∧ Packet.vetted e frame = some pkt

structure Inv (e : Env) (s : TcpStreams) : Prop where
  staffed : ∀ k, s.Staffed e k
  serving : ∀ {k conn}, (s.ports k).serves = some conn → s.Serving e k conn
  settled : ∀ conn, Settled e (s.wires conn)
  apart : ∀ {k j conn}, (s.ports k).serves = some conn → (s.ports j).serves = some conn → k = j
  fresh : ∀ {k conn}, (s.ports k).serves = some conn → conn < s.connections
  opened : ∀ {fd conn}, s.descriptors fd = some conn → conn < s.connections
  unborn : ∀ conn, s.connections ≤ conn → s.wires conn = ⟨[], [], none, [], false, none⟩
  reads : ∀ r ∈ s.reads, r.1 = r.2

-- The invariant but for one path and its connection. The parts of a step of the path keep it.
structure Others (e : Env) (s : TcpStreams) (path : Path) (conn : Nat) : Prop where
  staffed : ∀ k, k ≠ path → s.Staffed e k
  serving : ∀ {k c}, k ≠ path → (s.ports k).serves = some c →
    c ≠ conn ∧ c < s.connections ∧ s.Serving e k c
  settled : ∀ c, c ≠ conn → Settled e (s.wires c)
  apart : ∀ {k j c}, k ≠ path → j ≠ path → (s.ports k).serves = some c →
    (s.ports j).serves = some c → k = j
  born : conn < s.connections
  opened : ∀ {fd c}, s.descriptors fd = some c → c < s.connections
  unborn : ∀ c, s.connections ≤ c → s.wires c = ⟨[], [], none, [], false, none⟩
  reads : ∀ r ∈ s.reads, r.1 = r.2

section

variable {e : Env} {s s' : TcpStreams} {path k : Path} {conn fd : Nat} {wire : Wire}

theorem Inv.others (h : s.Inv e) (hserves : (s.ports path).serves = some conn) :
    s.Others e path conn where
  staffed k _ := h.staffed k
  serving hk hc := ⟨fun heq => hk (h.apart hc (heq ▸ hserves)), h.fresh hc, h.serving hc⟩
  settled c _ := h.settled c
  apart _ _ := h.apart
  born := h.fresh hserves
  opened := h.opened
  unborn := h.unborn
  reads := h.reads

theorem Others.inv (h : s.Others e path conn) (hstaffed : s.Staffed e path)
    (hserves : ∀ c, (s.ports path).serves = some c → c = conn)
    (hserving : (s.ports path).serves = some conn → s.Serving e path conn)
    (hsettled : Settled e (s.wires conn)) : s.Inv e where
  staffed k := by
    by_cases hk : k = path
    · exact hk ▸ hstaffed
    · exact h.staffed k hk
  serving {k c} hc := by
    by_cases hk : k = path
    · subst hk
      obtain rfl := hserves c hc
      exact hserving hc
    · exact (h.serving hk hc).2.2
  settled c := by
    by_cases hc : c = conn
    · exact hc ▸ hsettled
    · exact h.settled c hc
  apart {k j c} hk hj := by
    by_cases hkp : k = path
    · by_cases hjp : j = path
      · rw [hkp, hjp]
      · subst hkp
        exact absurd (hserves c hk) (h.serving hjp hj).1
    · by_cases hjp : j = path
      · subst hjp
        exact absurd (hserves c hj) (h.serving hkp hk).1
      · exact h.apart hkp hjp hk hj
  fresh {k c} hc := by
    by_cases hk : k = path
    · subst hk
      rw [hserves c hc]
      exact h.born
    · exact (h.serving hk hc).2.1
  opened := h.opened
  unborn := h.unborn
  reads := h.reads

theorem Staffed.of_eq (h : s.Staffed e k) (hphase : s'.phase k = s.phase k)
    (hthread : s'.thread k = s.thread k) (hfd : s'.tcpConnFd k = s.tcpConnFd k)
    (hport : s'.ports k = s.ports k) : s'.Staffed e k := by
  refine ⟨?_, ?_, ?_, ?_, ?_, ?_⟩
  · rw [hthread, hphase]
    exact h.attended
  · rw [hphase, hfd]
    exact h.vacant
  · rw [hthread, hport]
    exact h.ended
  · rw [hphase, hport]
    exact h.idle
  · rw [hphase, hport]
    exact h.engaged
  · rw [hport]
    exact h.role

theorem Serving.of_eq (h : s.Serving e k conn) (hgauge : s'.gauge k = s.gauge k)
    (hport : s'.ports k = s.ports k) (hwire : s'.wires conn = s.wires conn)
    (hopen : ∀ d, s.descriptors d = some conn → s'.descriptors d = some conn)
    (hclosed : ∀ d, (s.ports k).reader.fd = some d → s.descriptors d = none →
      s'.descriptors d = none) : s'.Serving e k conn := by
  obtain ⟨hphase, hthread, hrunning, hfd⟩ := TcpService.gauge_eq_iff.mp hgauge
  have hup : s'.Up k = s.Up k := by
    unfold Up
    rw [hphase, hthread]
  refine ⟨?_, ?_, ?_, ?_, ?_, ?_, ?_, ?_⟩
  · rw [hfd, hport]
    exact fun hup => hopen _ (h.fd hup)
  · rw [hport]
    exact fun d hd => hopen d (h.greets d hd)
  · rw [hport, hwire]
    intro d hd
    rcases h.holds d hd with hsome | ⟨hnone, hcut⟩
    · exact .inl (hopen d hsome)
    · exact .inr ⟨hclosed d hd hnone, hcut⟩
  · rw [hup, hfd, hwire]
    exact h.shut
  · rw [hthread, hrunning, hwire]
    exact h.stopped
  · rw [hport]
    exact h.spent
  · rw [hport, hwire]
    exact h.early
  · rw [hup, hport, hwire]
    exact h.cut

theorem Others.of_eq (h : s.Others e path conn) (hgauge : ∀ k, s'.gauge k = s.gauge k)
    (hports : ∀ k, k ≠ path → s'.ports k = s.ports k)
    (hwires : ∀ c, c ≠ conn → s'.wires c = s.wires c) (hconns : s'.connections = s.connections)
    (hdescs : ∀ d, s'.descriptors d = s.descriptors d ∨
      (s.descriptors d = some conn ∧ s'.descriptors d = none))
    (hreads : ∀ r ∈ s'.reads, r ∈ s.reads ∨ r.1 = r.2) : s'.Others e path conn where
  staffed k hk := by
    obtain ⟨hphase, hthread, -, hfd⟩ := TcpService.gauge_eq_iff.mp (hgauge k)
    exact (h.staffed k hk).of_eq hphase hthread hfd (hports k hk)
  serving {k c} hk hc := by
    rw [hports k hk] at hc
    obtain ⟨hne, hlt, hserving⟩ := h.serving hk hc
    refine ⟨hne, hconns ▸ hlt, hserving.of_eq (hgauge k) (hports k hk) (hwires c hne) ?_ ?_⟩
    · intro d hd
      rcases hdescs d with hsame | ⟨hown, -⟩
      · exact hsame.trans hd
      · exact absurd (Option.some.inj (hd.symm.trans hown)) hne
    · intro d _ hd
      rcases hdescs d with hsame | ⟨-, hnone⟩
      · exact hsame.trans hd
      · exact hnone
  settled c hc := hwires c hc ▸ h.settled c hc
  apart {k j c} hk hj hserves hserves' := by
    rw [hports k hk] at hserves
    rw [hports j hj] at hserves'
    exact h.apart hk hj hserves hserves'
  born := hconns ▸ h.born
  opened {fd c} hfd := by
    rw [hconns]
    rcases hdescs fd with hsame | ⟨-, hnone⟩
    · exact h.opened (hsame.symm.trans hfd)
    · cases hnone.symm.trans hfd
  unborn c hc := by
    have hborn := h.born
    rw [hconns] at hc
    rw [hwires c (by omega)]
    exact h.unborn c hc
  reads r hr := (hreads r hr).elim (h.reads r) id

theorem Others.setPort (h : s.Others e path conn) (port : Port) :
    (s.setPort path port).Others e path conn :=
  h.of_eq (fun _ => rfl) (fun _ hk => Function.update_of_ne hk ..) (fun _ _ => rfl) rfl (fun _ => .inl rfl)
    fun _ => .inl

theorem Others.setWire (h : s.Others e path conn) (wire : Wire) :
    (s.setWire conn wire).Others e path conn :=
  h.of_eq (fun _ => rfl) (fun _ _ => rfl) (fun _ hc => Function.update_of_ne hc ..) rfl (fun _ => .inl rfl)
    fun _ => .inl

theorem note_eq (hserves : (s.ports path).serves = some conn) (f : Wire → Wire) :
    s.note path f = s.setWire conn (f (s.wires conn)) := by
  unfold note
  rw [hserves]

-- A read for the path takes bytes of its own connection.
structure Read (s s' : TcpStreams) (conn : Nat) (unread : Bytes) : Prop where
  service : s'.toTcpService = s.toTcpService
  ports : s'.ports = s.ports
  wire : s'.wires conn = { s.wires conn with unread := unread }
  descriptors : s'.descriptors = s.descriptors

theorem recvAll_spec (h : s.Others e path conn) (hserves : (s.ports path).serves = some conn)
    (hfd : s.descriptors fd = some conn ∨ s.descriptors fd = none) (n : Nat) (transfer : Transfer) :
    ∃ s', s'.Others e path conn ∧
      ((n ≤ (s.wires conn).unread.length ∧ s.Read s' conn ((s.wires conn).unread.drop n) ∧
          s.recvAll path fd n transfer = (some ((s.wires conn).unread.take n), s')) ∨
        ((∃ unread, s.Read s' conn unread) ∧ s.recvAll path fd n transfer = (none, s') ∧
          (s.descriptors fd = some conn → transfer = .whole →
            (s.wires conn).unread.length < n))) := by
  unfold recvAll
  rcases hfd with hopen | hclosed
  · rw [hopen]
    have hread : ∀ unread, Others e (TcpStreams.setWire { s with
        reads := s.reads ++ ((s.ports path).serves.map (·, conn)).toList } conn
          { s.wires conn with unread := unread }) path conn := by
      intro unread
      refine h.of_eq (fun _ => rfl) (fun _ _ => rfl) (fun _ hc => Function.update_of_ne hc ..) rfl
        (fun _ => .inl rfl) fun r hr => ?_
      rcases List.mem_append.mp hr with hold | hnew
      · exact .inl hold
      · rw [hserves] at hnew
        rw [List.mem_singleton.mp hnew]
        exact .inr rfl
    cases transfer with
    | whole =>
      dsimp only
      split
      · rename_i hlen
        exact ⟨_, hread _, .inl ⟨hlen, ⟨rfl, rfl, Function.update_self .., rfl⟩, rfl⟩⟩
      · rename_i hlen
        exact ⟨_, hread _, .inr ⟨⟨_, rfl, rfl, Function.update_self .., rfl⟩, rfl,
          fun _ _ => by omega⟩⟩
    | broken after =>
      exact ⟨_, hread _, .inr ⟨⟨_, rfl, rfl, Function.update_self .., rfl⟩, rfl,
        fun _ hwhole => nomatch hwhole⟩⟩
  · rw [hclosed]
    exact ⟨s, h, .inr ⟨⟨(s.wires conn).unread, rfl, rfl, rfl, rfl⟩, rfl, fun hopen => nomatch hopen⟩⟩

theorem advance_wire (s : TcpStreams) (input : TcpService.Input) (c : Nat) :
    (s.advance e input).wires c = s.wires c ∨
      ((s.advance e input).wires c = { s.wires c with cutOff := true } ∧
        ∃ j, (s.ports j).serves = some c) := by
  unfold advance
  dsimp only
  split
  · rename_i hcloses
    obtain ⟨j, -, hserves⟩ := hcloses
    exact .inr ⟨rfl, j, hserves⟩
  · exact .inl rfl

theorem advance_handed (s : TcpStreams) (input : TcpService.Input) (c : Nat) :
    ((s.advance e input).wires c).handed = (s.wires c).handed := by
  rcases advance_wire s input c with hsame | ⟨hcut, -⟩
  · rw [hsame]
  · rw [hcut]

theorem advance_cutOff (input : TcpService.Input) {c : Nat} (h : (s.wires c).cutOff = true) :
    ((s.advance e input).wires c).cutOff = true := by
  rcases advance_wire s input c with hsame | ⟨hcut, -⟩
  · rw [hsame]
    exact h
  · rw [hcut]

theorem advance_cutOff_of_closes (input : TcpService.Input) {c : Nat}
    (hserves : (s.ports k).serves = some c) (hopen : s.tcpConnFd k = true)
    (hclosed : (s.advance e input).tcpConnFd k = false) :
    ((s.advance e input).wires c).cutOff = true := by
  have hcloses : (s.tcpConnFd k && !(s.toTcpService.step e input).tcpConnFd k) = true := by
    have hnext : (s.toTcpService.step e input).tcpConnFd k = false := hclosed
    rw [hopen, hnext]
    rfl
  unfold advance
  dsimp only
  rw [if_pos ⟨k, hcloses, hserves⟩]

theorem Settled.advance {c : Nat} (h : Settled e (s.wires c)) (input : TcpService.Input) :
    Settled e ((s.advance e input).wires c) := by
  rcases advance_wire s input c with hsame | ⟨hcut, -⟩
  · rw [hsame]
    exact h
  · rw [hcut]
    exact ⟨h.handed, h.complete, h.first⟩

theorem Cut.advance {c : Nat} {hand : Hand} (h : (s.wires c).Cut e hand)
    (input : TcpService.Input) : ((s.advance e input).wires c).Cut e hand := by
  rcases advance_wire s input c with hsame | ⟨hcut, -⟩
  · rw [hsame]
    exact h
  · rw [hcut]
    exact ⟨h.ok, h.frames⟩

theorem advance_port (input : TcpService.Input)
    (h : (s.toTcpService.step e input).thread k = s.thread k) :
    (s.advance e input).ports k = s.ports k := by
  unfold advance
  dsimp only
  rw [h]
  cases s.thread k <;> rfl

theorem advance_descriptor (s : TcpStreams) (input : TcpService.Input) (d : Nat) :
    (s.advance e input).descriptors d = s.descriptors d ∨
      ((s.advance e input).descriptors d = none ∧ ∃ j, (s.ports j).connFd = d ∧
        s.tcpConnFd j = true ∧ (s.advance e input).tcpConnFd j = false) := by
  unfold advance
  dsimp only
  split
  · rename_i hcloses
    obtain ⟨j, hj, hconnFd⟩ := hcloses
    rw [Bool.and_eq_true, Bool.not_eq_true'] at hj
    exact .inr ⟨rfl, j, hconnFd, hj.1, hj.2⟩
  · exact .inl rfl

theorem advance_descriptors {input : TcpService.Input}
    (h : (s.advance e input).tcpConnFd = s.tcpConnFd) :
    (s.advance e input).descriptors = s.descriptors := by
  funext d
  rcases advance_descriptor s input d with hsame | ⟨-, j, -, hopen, hclosed⟩
  · exact hsame
  · rw [h, hopen] at hclosed
    cases hclosed

-- The path that a descriptor belongs to, where only one path can have it.
def Owns (s : TcpStreams) (k : Path) (c : Nat) : Prop :=
  ∀ j, s.tcpConnFd j = true → s.descriptors (s.ports j).connFd = some c → j = k

theorem Serving.advance (h : s.Serving e k conn) (hserves : (s.ports k).serves = some conn)
    (hstaffed : s.Staffed e k) (howns : s.Owns k conn) {input : TcpService.Input}
    (hthread : (s.advance e input).thread k = s.thread k)
    (hpublished : (s.advance e input).phase k = .published → s.phase k = .published)
    (hfd : (s.advance e input).tcpConnFd k = true → s.tcpConnFd k = true)
    (hrunning : s.thread k = true → (s.advance e input).running k = false → s.running k = false ∨
      (s.advance e input).tcpConnFd k = false) : (s.advance e input).Serving e k conn := by
  have hport := advance_port input hthread
  have hup : (s.advance e input).Up k → s.Up k := by
    rintro (hphase | hrun)
    · exact .inl (hpublished hphase)
    · exact .inr (hthread ▸ hrun)
  -- the descriptor of the connection is only closed with the path
  have hdesc : ∀ d, s.descriptors d = some conn → (s.advance e input).descriptors d = some conn ∨
      ((s.advance e input).descriptors d = none ∧ s.tcpConnFd k = true ∧
        (s.advance e input).tcpConnFd k = false) := by
    intro d hd
    rcases advance_descriptor s input d with hsame | ⟨hnone, j, hj, hopen, hclosed⟩
    · exact .inl (hsame.trans hd)
    · obtain rfl := howns j hopen (hj ▸ hd)
      exact .inr ⟨hnone, hopen, hclosed⟩
  have hcutOff : s.Up k → (s.advance e input).tcpConnFd k = false →
      ((s.advance e input).wires conn).cutOff = true := by
    intro hlive hclosed
    cases hopen : s.tcpConnFd k with
    | true => exact advance_cutOff_of_closes input hserves hopen hclosed
    | false => exact advance_cutOff input (h.shut hlive hopen)
  refine ⟨fun hopen => ?_, fun d hd => ?_, fun d hd => ?_, fun hlive => hcutOff (hup hlive),
    fun hrun hstop => ?_, ?_, ?_, fun hlive => ?_⟩
  · rw [hport]
    rcases hdesc _ (h.fd (hfd hopen)) with hsame | ⟨-, -, hclosed⟩
    · exact hsame
    · rw [hopen] at hclosed
      cases hclosed
  · rw [hport] at hd
    rcases hdesc d (h.greets d hd) with hsame | ⟨-, hopen, -⟩
    · exact hsame
    · have hengaged : (s.ports k).acceptor ≠ .listening := by
        intro hlistening
        rw [hlistening] at hd
        cases hd
      have hvacant := hstaffed.vacant (congrArg ConnPhase.vacant (hstaffed.engaged hengaged))
      rw [hopen] at hvacant
      cases hvacant
  · rw [hport] at hd
    rcases h.holds d hd with hopen | ⟨hnone, hcut⟩
    · rcases hdesc d hopen with hsame | ⟨hnone, hwas, hclosed⟩
      · exact .inl hsame
      · exact .inr ⟨hnone, advance_cutOff_of_closes input hserves hwas hclosed⟩
    · refine .inr ⟨?_, advance_cutOff input hcut⟩
      rcases advance_descriptor s input d with hsame | ⟨hnone', -⟩
      · exact hsame.trans hnone
      · exact hnone'
  · rw [hthread] at hrun
    rcases hrunning hrun hstop with hold | hclosed
    · exact advance_cutOff input (h.stopped hrun hold)
    · exact hcutOff (.inr hrun) hclosed
  · rw [hport]
    exact h.spent
  · rw [hport, advance_handed]
    exact h.early
  · rw [hport] at hlive ⊢
    exact Cut.advance (h.cut (hlive.imp_right hup)) input

theorem Staffed.serves (h : s.Staffed e k) (hopen : s.tcpConnFd k = true) :
    ∃ c, (s.ports k).serves = some c := by
  cases hserves : (s.ports k).serves with
  | some c => exact ⟨c, rfl⟩
  | none =>
    have hvacant := h.vacant (congrArg ConnPhase.vacant (h.idle hserves).1)
    rw [hopen] at hvacant
    cases hvacant

theorem Others.owns (h : s.Others e path conn)
    (hfd : s.tcpConnFd path = true → s.descriptors (s.ports path).connFd = some conn) {c : Nat}
    (hk : k ≠ path) (hserves : (s.ports k).serves = some c) : s.Owns k c := by
  intro j hopen hdesc
  by_cases hj : j = path
  · subst hj
    rw [hfd hopen] at hdesc
    exact absurd (Option.some.inj hdesc).symm (h.serving hk hserves).1
  · obtain ⟨c', hserves'⟩ := (h.staffed j hj).serves hopen
    have hown := (h.serving hj hserves').2.2.fd hopen
    rw [hdesc] at hown
    exact h.apart hj hk hserves' (Option.some.inj hown ▸ hserves)

theorem Others.advance (h : s.Others e path conn) (hserves : (s.ports path).serves = some conn)
    (hfd : s.tcpConnFd path = true → s.descriptors (s.ports path).connFd = some conn)
    {input : TcpService.Input} (hinput : input.path = path) :
    (s.advance e input).Others e path conn := by
  have hspares : ∀ k, k ≠ path → s.toTcpService.Spares (s.advance e input).toTcpService k :=
    fun k hk => TcpService.step_spares e s.toTcpService input (hinput ▸ hk)
  have hports : ∀ k, k ≠ path → (s.advance e input).ports k = s.ports k :=
    fun k hk => advance_port input (hspares k hk).thread
  refine ⟨fun k hk => ?_, fun {k c} hk hc => ?_, fun c hc => (h.settled c hc).advance input,
    fun {k j c} hk hj hck hcj => ?_, h.born, fun {d c} hd => ?_, fun c hc => ?_, h.reads⟩
  · have hold := h.staffed k hk
    have hspare := hspares k hk
    refine ⟨?_, ?_, ?_, ?_, ?_, ?_⟩
    · rw [hspare.thread, hspare.phase]
      exact hold.attended
    · rw [hspare.phase]
      exact fun hvacant => Bool.eq_false_iff.mpr fun hopen =>
        Bool.eq_false_iff.mp (hold.vacant hvacant) (hspare.fd hopen)
    · rw [hports k hk, hspare.thread]
      exact hold.ended
    · rw [hports k hk, hspare.phase]
      exact hold.idle
    · rw [hports k hk, hspare.phase]
      exact hold.engaged
    · rw [hports k hk]
      exact hold.role
  · rw [hports k hk] at hc
    obtain ⟨hne, hlt, hserving⟩ := h.serving hk hc
    have hspare := hspares k hk
    exact ⟨hne, hlt, hserving.advance hc (h.staffed k hk) (h.owns hfd hk hc) hspare.thread
      (fun hphase => hspare.phase ▸ hphase) hspare.fd
      fun _ hstop => (hspare.running hstop).imp_right And.right⟩
  · rw [hports k hk] at hck
    rw [hports j hj] at hcj
    exact h.apart hk hj hck hcj
  · rcases advance_descriptor s input d with hsame | ⟨hnone, -⟩
    · exact h.opened (hsame.symm.trans hd)
    · rw [hnone] at hd
      cases hd
  · rcases advance_wire s input c with hsame | ⟨-, j, hj⟩
    · exact hsame.trans (h.unborn c hc)
    · have hborn := h.born
      have hold : s.connections ≤ c := hc
      by_cases hpath : j = path
      · subst hpath
        have heq := Option.some.inj (hserves.symm.trans hj)
        omega
      · have hlt := (h.serving hpath hj).2.1
        omega

end

end TcpStreams

end Porter
