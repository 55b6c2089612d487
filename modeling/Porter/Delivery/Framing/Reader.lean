import Porter.Delivery.Framing.Wire

namespace Porter

open Buffer

namespace TcpStreams

section

variable {e : Env} {s s' : TcpStreams} {path k : Path} {conn fd : Nat}

-- The receive thread of a path runs, and the other paths are in order.
structure Busy (e : Env) (s : TcpStreams) (path : Path) (conn : Nat) : Prop where
  others : s.Others e path conn
  staffed : s.Staffed e path
  serves : (s.ports path).serves = some conn
  fd : s.tcpConnFd path = true → s.descriptors (s.ports path).connFd = some conn
  thread : s.thread path = true

theorem Inv.busy (h : s.Inv e) (hserves : (s.ports path).serves = some conn)
    (hthread : s.thread path = true) : s.Busy e path conn :=
  ⟨h.others hserves, h.staffed path, hserves, (h.serving hserves).fd, hthread⟩

theorem Staffed.listening (h : s.Staffed e k) (hthread : s.thread k = true) :
    (s.ports k).acceptor = .listening := by
  by_contra hengaged
  have hattended := h.attended hthread
  rw [h.engaged hengaged] at hattended
  cases hattended

theorem Busy.setPort (h : s.Busy e path conn) {port : Port}
    (hport : port.serves = (s.ports path).serves ∧ port.connFd = (s.ports path).connFd ∧
      port.acceptor = (s.ports path).acceptor) (hended : port.reader ≠ .ended) :
    (s.setPort path port).Busy e path conn := by
  have hself : (s.setPort path port).ports path = port := Function.update_self ..
  refine ⟨h.others.setPort port, ⟨h.staffed.attended, h.staffed.vacant, ?_, ?_, ?_, ?_⟩, ?_, ?_,
    h.thread⟩
  · rw [hself]
    exact iff_of_false hended (Bool.not_eq_false _ ▸ h.thread)
  · rw [hself, hport.1, hport.2.2]
    exact h.staffed.idle
  · rw [hself, hport.2.2]
    exact h.staffed.engaged
  · rw [hself, hport.1]
    exact h.staffed.role
  · rw [hself, hport.1]
    exact h.serves
  · rw [hself, hport.2.1]
    exact h.fd

theorem Busy.fillRecv (h : s.Busy e path conn) {offset : Nat} {bytes : Bytes} {reader : Reader}
    (hended : reader ≠ .ended) : (s.fillRecv path offset bytes reader).Busy e path conn :=
  h.setPort ⟨rfl, rfl, rfl⟩ hended

theorem Busy.setWire (h : s.Busy e path conn) (wire : Wire) :
    (s.setWire conn wire).Busy e path conn :=
  ⟨h.others.setWire wire, h.staffed.of_eq rfl rfl rfl rfl, h.serves, h.fd, h.thread⟩

theorem Others.goto (h : s.Others e path conn) (reader : Reader) :
    (s.goto path reader).Others e path conn := h.setPort _

theorem exited (hthread : s.thread path = true) :
    ((s.advance e (.exit path)).goto path .ended).thread path = false ∧
      ((s.advance e (.exit path)).goto path .ended).phase = s.phase ∧
      ((s.advance e (.exit path)).goto path .ended).tcpConnFd = s.tcpConnFd ∧
      ((s.advance e (.exit path)).goto path .ended).descriptors = s.descriptors ∧
      ((s.advance e (.exit path)).goto path .ended).ports path =
        { s.ports path with reader := .ended } := by
  have hstep : s.toTcpService.step e (.exit path) =
      { s.toTcpService with
        toTcpCtx := s.toTcpCtx.step e (.exit path)
        thread := Function.update s.thread path false } := if_pos hthread
  have hended : (s.toTcpService.step e (.exit path)).thread path = false := by
    rw [hstep]
    exact Function.update_self ..
  have hphase : (s.toTcpService.step e (.exit path)).phase = s.phase := by rw [hstep]
  have hfd : (s.toTcpService.step e (.exit path)).tcpConnFd = s.tcpConnFd := by
    rw [hstep]
    rfl
  refine ⟨hended, hphase, hfd, advance_descriptors hfd, ?_⟩
  · have hport : (s.advance e (.exit path)).ports path = s.ports path := by
      unfold TcpStreams.advance
      dsimp only
      rw [hended]
      rfl
    rw [← hport]
    exact Function.update_self ..

-- The receive thread ends. Unless the connection was cut off or broken, all there is was handed over.
theorem Busy.exit (h : s.Busy e path conn) {broken : Bool}
    (hhanded : (s.wires conn).handed <+: e.format.frames (s.wires conn).stream)
    (hfirst : ∀ pkt, (s.wires conn).admitted = some pkt →
      ∃ frame, (e.format.frames (s.wires conn).stream).head? = some frame ∧
        Packet.vetted e frame = some pkt)
    (hdone : broken = false → (s.wires conn).cutOff = false →
      (s.wires conn).handed = e.format.frames (s.wires conn).stream) :
    (s.exit e path broken).Inv e := by
  unfold TcpStreams.exit
  rw [note_eq h.serves]
  have hnoted := h.setWire { s.wires conn with outcome := some (broken || (s.wires conn).cutOff) }
  have hsettled : Settled e ((s.setWire conn
      { s.wires conn with outcome := some (broken || (s.wires conn).cutOff) }).wires conn) := by
    change Settled e (Function.update s.wires conn _ conn)
    rw [Function.update_self]
    refine ⟨hhanded, fun hfalse => ?_, hfirst⟩
    obtain ⟨hbroken, hcut⟩ := Bool.or_eq_false_iff.mp (Option.some.inj hfalse)
    exact hdone hbroken hcut
  generalize s.setWire conn _ = noted at hnoted hsettled ⊢
  have hothers := (hnoted.others.advance hnoted.serves hnoted.fd
    (show (TcpService.Input.exit path).path = path from rfl)).goto .ended
  have hwire : Settled e (((noted.advance e (.exit path)).goto path .ended).wires conn) :=
    hsettled.advance _
  obtain ⟨hthread, hphase, hfd, hdesc, hport⟩ := exited hnoted.thread
  have hlistening := hnoted.staffed.listening hnoted.thread
  have hattended := hnoted.staffed.attended hnoted.thread
  generalize (noted.advance e (.exit path)).goto path .ended = left at *
  have hdown : ¬ left.Up path := by
    rintro (hpublished | hrun)
    · rw [hphase] at hpublished
      rw [hpublished] at hattended
      cases hattended
    · rw [hthread] at hrun
      cases hrun
  have hserves : (left.ports path).serves = some conn := by
    rw [hport]
    exact hnoted.serves
  have hfree : (left.ports path).acceptor = .listening := by
    rw [hport]
    exact hlistening
  refine hothers.inv ⟨?_, ?_, ?_, ?_, ?_, ?_⟩ ?_ ?_ hwire
  · exact fun hrun => absurd (.inr hrun) hdown
  · rw [hphase, hfd]
    exact hnoted.staffed.vacant
  · exact ⟨fun _ => hthread, fun _ => congrArg Port.reader hport⟩
  · intro hnone
    rw [hserves] at hnone
    cases hnone
  · exact fun hengaged => absurd hfree hengaged
  · exact fun _ => hnoted.staffed.role (hnoted.serves ▸ nofun)
  · exact fun c hc => Option.some.inj (hc.symm.trans hserves)
  · refine fun _ => ⟨fun hopen => ?_, fun d hd => ?_, fun d hd => ?_, fun hup => absurd hup hdown,
      fun hrun => absurd (.inr hrun) hdown, fun hpast => ?_, fun hengaged => absurd hfree hengaged,
      fun hlive => ?_⟩
    · rw [hdesc, hport]
      rw [hfd] at hopen
      exact hnoted.fd hopen
    · rw [hfree] at hd
      cases hd
    · rw [hport] at hd
      cases hd
    · rw [hport] at hpast
      cases hpast
    · exact absurd hlive (not_or.mpr ⟨not_not.mpr hfree, hdown⟩)

-- A thread of the path goes on with the same connection.
structure Onward (s s' : TcpStreams) (path : Path) (conn : Nat) : Prop where
  service : s'.toTcpService = s.toTcpService
  descriptors : s'.descriptors = s.descriptors
  serves : (s'.ports path).serves = some conn
  connFd : (s'.ports path).connFd = (s.ports path).connFd
  ended : (s'.ports path).reader = .ended ↔ (s.ports path).reader = .ended
  listening : (s'.ports path).acceptor = .listening ↔ (s.ports path).acceptor = .listening
  greets : ∀ d, (s'.ports path).acceptor.fd = some d → (s.ports path).acceptor.fd = some d
  holds : ∀ d, (s'.ports path).reader.fd = some d →
    (s.ports path).reader.fd = some d ∨ s.descriptors d = some conn
  spent : (s'.ports path).reader.past = true → (s'.ports path).tcpFirstPktLen = 0
  cutOff : (s'.wires conn).cutOff = (s.wires conn).cutOff
  stream : (s'.wires conn).stream = (s.wires conn).stream
  admitted : (s'.wires conn).admitted = (s.wires conn).admitted
  outcome : (s'.wires conn).outcome = (s.wires conn).outcome
  handed : (s.wires conn).handed <+: (s'.wires conn).handed
  early : (s.ports path).acceptor ≠ .listening →
    (s'.wires conn).handed = (s.wires conn).handed

theorem Inv.onward (h : s.Inv e) (hserves : (s.ports path).serves = some conn)
    (hothers : s'.Others e path conn) (hon : s.Onward s' path conn)
    (hcut : (s'.wires conn).Cut e (s'.ports path).hand) : s'.Inv e := by
  have hserving := h.serving hserves
  have hstaffed := h.staffed path
  have hup : s'.Up path = s.Up path := by
    unfold Up
    rw [hon.service]
  refine hothers.inv ⟨?_, ?_, ?_, ?_, ?_, ?_⟩ ?_
    (fun _ => ⟨?_, ?_, ?_, ?_, ?_, hon.spent, ?_, fun _ => hcut⟩) ⟨hcut.handed_le, ?_, ?_⟩
  · rw [hon.service]
    exact hstaffed.attended
  · rw [hon.service]
    exact hstaffed.vacant
  · rw [hon.ended, hon.service]
    exact hstaffed.ended
  · intro hnone
    rw [hon.serves] at hnone
    cases hnone
  · rw [hon.service, Ne, hon.listening]
    exact hstaffed.engaged
  · exact fun _ => hstaffed.role (hserves ▸ nofun)
  · exact fun c hc => Option.some.inj (hc.symm.trans hon.serves)
  · rw [hon.service, hon.descriptors, hon.connFd]
    exact hserving.fd
  · rw [hon.descriptors]
    exact fun d hd => hserving.greets d (hon.greets d hd)
  · rw [hon.descriptors, hon.cutOff]
    exact fun d hd => (hon.holds d hd).elim (hserving.holds d) .inl
  · rw [hup, hon.service, hon.cutOff]
    exact hserving.shut
  · rw [hon.service, hon.cutOff]
    exact hserving.stopped
  · rw [Ne, hon.listening]
    exact fun hengaged => (hon.early hengaged).trans (hserving.early hengaged)
  · -- what was complete has no room for more
    intro houtcome
    rw [hon.outcome] at houtcome
    have hall := (h.settled conn).complete houtcome
    refine hcut.handed_le.eq_of_length_le ?_
    rw [hon.stream, ← hall]
    exact hon.handed.length_le
  · rw [hon.admitted, hon.stream]
    exact (h.settled conn).first

theorem goto_port (s : TcpStreams) (path : Path) (reader : Reader) :
    (s.goto path reader).ports path = { s.ports path with reader := reader } :=
  Function.update_self ..

theorem Inv.goto (h : s.Inv e) (hserves : (s.ports path).serves = some conn)
    (hthread : s.thread path = true) {reader : Reader} (hended : reader ≠ .ended)
    (hholds : ∀ d, reader.fd = some d →
      (s.ports path).reader.fd = some d ∨ s.descriptors d = some conn)
    (hspent : reader.past = true → (s.ports path).tcpFirstPktLen = 0)
    (hcut : (s.wires conn).Cut e ((s.ports path).readHand reader)) :
    (s.goto path reader).Inv e := by
  have hport := goto_port s path reader
  have hhand : ((s.goto path reader).ports path).hand = (s.ports path).readHand reader := by
    rw [hport]
    exact Port.hand_of_listening ((h.staffed path).listening hthread)
  have hrunning : (s.ports path).reader ≠ .ended := by
    rw [Ne, (h.staffed path).ended, hthread]
    decide
  refine h.onward hserves ((h.others hserves).goto reader) ⟨rfl, rfl, ?_, ?_, ?_, ?_, ?_, ?_, ?_,
    rfl, rfl, rfl, rfl, List.prefix_rfl, fun _ => rfl⟩ (hhand ▸ hcut)
  · rw [hport]
    exact hserves
  · rw [hport]
  · rw [hport]
    exact iff_of_false hended hrunning
  · rw [hport]
  · rw [hport]
    exact fun _ => id
  · rw [hport]
    exact hholds
  · rw [hport]
    exact hspent

theorem Inv.advance_same (h : s.Inv e) {input : TcpService.Input}
    (hgauge : ∀ k, (s.toTcpService.step e input).gauge k = s.gauge k) :
    (s.advance e input).Inv e := by
  have hfd : ∀ k, (s.advance e input).tcpConnFd k = s.tcpConnFd k := fun k =>
    (TcpService.gauge_eq_iff.mp (hgauge k)).2.2.2
  have hports : ∀ k, (s.advance e input).ports k = s.ports k := fun k =>
    advance_port input (TcpService.gauge_eq_iff.mp (hgauge k)).2.1
  have hdescs := advance_descriptors (funext hfd)
  have hwires : ∀ c, (s.advance e input).wires c = s.wires c := by
    intro c
    refine if_neg ?_
    rintro ⟨k, hcloses, -⟩
    have hsame : (s.toTcpService.step e input).tcpConnFd k = s.tcpConnFd k := hfd k
    dsimp only at hcloses
    rw [hsame, Bool.and_not_self] at hcloses
    cases hcloses
  refine ⟨fun k => ?_, fun {k c} hc => ?_, fun c => ?_, fun {k j c} hk hj => ?_, fun {k c} hk => ?_,
    fun {d c} hd => ?_, fun c hc => ?_, h.reads⟩
  · obtain ⟨hphase, hthread, -, hopen⟩ := TcpService.gauge_eq_iff.mp (hgauge k)
    exact (h.staffed k).of_eq hphase hthread hopen (hports k)
  · rw [hports] at hc
    exact (h.serving hc).of_eq (hgauge k) (hports k) (hwires c)
      (fun d hd => (congrFun hdescs d).trans hd) fun d _ hd => (congrFun hdescs d).trans hd
  · exact hwires c ▸ h.settled c
  · rw [hports] at hk hj
    exact h.apart hk hj
  · rw [hports] at hk
    exact h.fresh hk
  · exact h.opened ((congrFun hdescs d).symm.trans hd)
  · exact (hwires c).trans (h.unborn c hc)

theorem Inv.owns (h : s.Inv e) (hserves : (s.ports k).serves = some conn) : s.Owns k conn := by
  intro j hopen hdesc
  obtain ⟨c, hc⟩ := (h.staffed j).serves hopen
  have hown := (h.serving hc).fd hopen
  rw [hdesc] at hown
  exact h.apart hc (Option.some.inj hown ▸ hserves)

theorem Inv.advance (h : s.Inv e) (hserves : (s.ports path).serves = some conn)
    {input : TcpService.Input} (hinput : input.path = path)
    (hthread : (s.advance e input).thread path = s.thread path)
    (hattended : s.thread path = true → ((s.advance e input).phase path).attended = true)
    (hvacant : ((s.advance e input).phase path).vacant = true →
      (s.advance e input).tcpConnFd path = false)
    (hengaged : s.phase path = .waiting → (s.advance e input).phase path = .waiting)
    (hpublished : (s.advance e input).phase path = .published → s.phase path = .published)
    (hfd : (s.advance e input).tcpConnFd path = true → s.tcpConnFd path = true)
    (hrunning : s.thread path = true → (s.advance e input).running path = false →
      s.running path = false ∨ (s.advance e input).tcpConnFd path = false) :
    (s.advance e input).Inv e := by
  have hserving := h.serving hserves
  have hstaffed := h.staffed path
  have hport := advance_port input hthread
  refine ((h.others hserves).advance hserves hserving.fd hinput).inv ⟨?_, hvacant, ?_, ?_, ?_, ?_⟩ ?_
    (fun _ => hserving.advance hserves hstaffed (h.owns hserves) hthread hpublished hfd hrunning)
    ((h.settled conn).advance input)
  · rw [hthread]
    exact hattended
  · rw [hport, hthread]
    exact hstaffed.ended
  · intro hnone
    rw [hport, hserves] at hnone
    cases hnone
  · rw [hport]
    exact fun hbusy => hengaged (hstaffed.engaged hbusy)
  · exact fun _ => hstaffed.role (hserves ▸ nofun)
  · rw [hport, hserves]
    exact fun c hc => (Option.some.inj hc).symm

theorem Inv.serves (h : s.Inv e) (hbusy : s.phase k ≠ .waiting) :
    ∃ c, (s.ports k).serves = some c := by
  cases hserves : (s.ports k).serves with
  | some c => exact ⟨c, rfl⟩
  | none => exact absurd ((h.staffed k).idle hserves).1 hbusy

theorem Inv.serves_of_thread (h : s.Inv e) (hthread : s.thread k = true) :
    ∃ c, (s.ports k).serves = some c := by
  refine h.serves fun hwaiting => ?_
  have hattended := (h.staffed k).attended hthread
  rw [hwaiting] at hattended
  cases hattended

theorem Inv.exit (h : s.Inv e) (hserves : (s.ports path).serves = some conn)
    (hthread : s.thread path = true) {broken : Bool}
    (hdone : broken = false → (s.wires conn).cutOff = false →
      (s.wires conn).handed = e.format.frames (s.wires conn).stream) :
    (s.exit e path broken).Inv e :=
  (h.busy hserves hthread).exit (h.settled conn).handed (h.settled conn).first hdone

theorem Inv.exit_stopped (h : s.Inv e) (hserves : (s.ports path).serves = some conn)
    (hthread : s.thread path = true) (hstopped : s.running path = false) :
    (s.exit e path false).Inv e := by
  refine h.exit hserves hthread fun _ hcut => ?_
  rw [(h.serving hserves).stopped hthread hstopped] at hcut
  cases hcut

theorem Inv.descriptor (h : s.Inv e) (hserves : (s.ports path).serves = some conn)
    (hfd : (s.ports path).reader.fd = some fd) :
    s.descriptors fd = some conn ∨ s.descriptors fd = none :=
  ((h.serving hserves).holds fd hfd).imp_right And.left

theorem Inv.descriptor_open (h : s.Inv e) (hserves : (s.ports path).serves = some conn)
    (hfd : (s.ports path).reader.fd = some fd) (hcut : (s.wires conn).cutOff = false) :
    s.descriptors fd = some conn := by
  rcases (h.serving hserves).holds fd hfd with hopen | ⟨-, hclosed⟩
  · exact hopen
  · rw [hcut] at hclosed
    cases hclosed

theorem Inv.exit_read (h : s.Inv e) {unread : Bytes} (hbusy : s'.Busy e path conn)
    (hwire : s'.wires conn = { s.wires conn with unread := unread }) {broken : Bool}
    (hdone : broken = false → (s.wires conn).cutOff = false →
      (s.wires conn).handed = e.format.frames (s.wires conn).stream) :
    (s'.exit e path broken).Inv e := by
  have hsettled := h.settled conn
  refine hbusy.exit ?_ ?_ ?_
  · rw [hwire]
    exact hsettled.handed
  · rw [hwire]
    exact hsettled.first
  · rw [hwire]
    exact hdone

theorem pollTimeout_control (s : TcpStreams) (path : Path) :
    (s.advance e (.pollTimeout path)).phase = s.phase ∧
      (s.advance e (.pollTimeout path)).thread = s.thread ∧
      (s.advance e (.pollTimeout path)).tcpConnFd = s.tcpConnFd := by
  have hfd := (TcpCtx.checkPingTimeout_control (e := e)
    { s.toTcpCtx with toSlot := s.toSlot.emit .poll } path).1
  change (TcpService.step e s.toTcpService (.pollTimeout path)).phase = _ ∧
    (TcpService.step e s.toTcpService (.pollTimeout path)).thread = _ ∧
    (TcpService.step e s.toTcpService (.pollTimeout path)).tcpConnFd = _
  simp only [TcpService.step]
  split
  · exact ⟨rfl, rfl, hfd⟩
  · exact ⟨rfl, rfl, rfl⟩

-- The receive thread of a path, one place in its loop at a time.
section

variable (h : s.Inv e) (hserves : (s.ports path).serves = some conn) (hthread : s.thread path = true)

include h hserves hthread

theorem Inv.hand {reader : Reader} (hreader : (s.ports path).reader = reader) :
    (s.wires conn).Cut e ((s.ports path).readHand reader) := by
  have hcut := (h.serving hserves).cut (.inr (.inr hthread))
  rwa [Port.hand_of_listening ((h.staffed path).listening hthread), hreader] at hcut

theorem Inv.goto_holding {reader : Reader} (hended : reader ≠ .ended)
    (hfd : reader.fd = (s.ports path).reader.fd) (hspent : (s.ports path).tcpFirstPktLen = 0)
    (hcut : (s.wires conn).Cut e ((s.ports path).readHand reader)) :
    (s.goto path reader).Inv e :=
  h.goto hserves hthread hended (fun _ hd => .inl (hfd ▸ hd)) (fun _ => hspent) hcut

theorem Inv.fill {unread : Bytes} (hothers : s'.Others e path conn) (hread : s.Read s' conn unread)
    {port : Port} (hport : port.serves = (s.ports path).serves ∧
      port.connFd = (s.ports path).connFd ∧ port.acceptor = (s.ports path).acceptor)
    (hended : port.reader ≠ .ended)
    (hholds : ∀ d, port.reader.fd = some d → (s.ports path).reader.fd = some d)
    (hspent : port.tcpFirstPktLen = 0)
    (hcut : Wire.Cut e { s.wires conn with unread := unread } (port.readHand port.reader)) :
    (s'.setPort path port).Inv e := by
  have hself : (s'.setPort path port).ports path = port := Function.update_self ..
  have hlistening : port.acceptor = .listening :=
    hport.2.2.trans ((h.staffed path).listening hthread)
  have hrunning : (s.ports path).reader ≠ .ended := by
    rw [Ne, (h.staffed path).ended, hthread]
    decide
  have hwire : (s'.setPort path port).wires conn = { s.wires conn with unread := unread } :=
    hread.wire
  refine h.onward hserves (hothers.setPort port) ⟨hread.service, hread.descriptors, ?_, ?_, ?_, ?_,
    ?_, ?_, ?_, ?_, ?_, ?_, ?_, ?_, ?_⟩ ?_
  · rw [hself]
    exact hport.1.trans hserves
  · rw [hself]
    exact hport.2.1
  · rw [hself]
    exact iff_of_false hended hrunning
  · rw [hself, hport.2.2]
  · rw [hself, hport.2.2]
    exact fun _ => id
  · rw [hself]
    exact fun d hd => .inl (hholds d hd)
  · rw [hself]
    exact fun _ => hspent
  · rw [hwire]
  · rw [hwire]
  · rw [hwire]
  · rw [hwire]
  · rw [hwire]
  · rw [hwire]
    exact fun _ => rfl
  · rw [hwire, hself, Port.hand_of_listening hlistening]
    exact hcut

theorem Inv.takeFirst (hreader : (s.ports path).reader = .fetched fd) :
    (s.takeFirst e path fd).Inv e := by
  have hcut := h.hand hserves hthread hreader
  unfold TcpStreams.takeFirst
  by_cases hpos : 0 < (s.ports path).tcpFirstPktLen
  · rw [if_pos hpos]
    unfold Porter.Port.readHand at hcut
    rw [if_neg (by omega)] at hcut
    have hlen := hcut.ok.2.2
    refine h.fill hserves hthread (h.others hserves) ⟨rfl, rfl, rfl, rfl⟩ ⟨rfl, rfl, rfl⟩ nofun nofun
      rfl ?_
    have hcopy := copyOut_copyIn_self (s.ports path).tcpRecvBuf 0
      (copyOut (s.ports path).tcpFirstPktBuf 0 (s.ports path).tcpFirstPktLen)
    rw [hlen] at hcopy
    unfold Porter.Port.readHand
    dsimp only
    exact hcopy.symm ▸ hcut
  · rw [if_neg hpos]
    have hspent : (s.ports path).tcpFirstPktLen = 0 := by omega
    unfold Porter.Port.readHand at hcut
    rw [if_pos hspent] at hcut
    split
    · exact h.goto_holding hserves hthread nofun (by rw [hreader]; rfl) hspent hcut
    · exact h.goto_holding hserves hthread nofun (by rw [hreader]; rfl) hspent hcut

theorem Inv.read_busy {unread : Bytes} (hothers : s'.Others e path conn)
    (hread : s.Read s' conn unread) : s'.Busy e path conn := by
  refine ⟨hothers, (h.staffed path).of_eq ?_ ?_ ?_ ?_, ?_, ?_, ?_⟩
  · rw [hread.service]
  · rw [hread.service]
  · rw [hread.service]
  · rw [hread.ports]
  · rw [hread.ports]
    exact hserves
  · rw [hread.service, hread.ports, hread.descriptors]
    exact (h.serving hserves).fd
  · rw [hread.service]
    exact hthread

theorem Inv.readHeader (hreader : (s.ports path).reader = .reading fd) {readiness : Readiness}
    {transfer : Transfer} : (s.receive e path readiness transfer).Inv e := by
  have hcut := h.hand hserves hthread hreader
  have hfd : (s.ports path).reader.fd = some fd := by rw [hreader]; rfl
  have hspent := (h.serving hserves).spent (by rw [hreader]; rfl)
  obtain ⟨s', hothers, ⟨hlen, hread, heq⟩ | ⟨⟨unread, hread⟩, heq, hshort⟩⟩ :=
    recvAll_spec (h.others hserves) hserves (h.descriptor hserves hfd) PACKET_HEADER_SIZE transfer
  · simp only [TcpStreams.receive, hreader, heq]
    split
    · rename_i hmax
      have hbusy := h.read_busy hserves hthread hothers hread
      refine h.exit_read (hbusy.fillRecv ?_) hread.wire ?_
      · exact nofun
      · exact fun _ _ => hcut.oversized hlen hmax
    · rename_i hmax
      refine h.fill hserves hthread hothers hread ?_ nofun ?_ ?_ ?_
      · rw [hread.ports]
        exact ⟨rfl, rfl, rfl⟩
      · rw [hreader]
        exact fun _ => id
      · rw [hread.ports]
        exact hspent
      · have hheader := hcut.header hlen (Nat.le_of_not_lt hmax)
        have hcopy := copyOut_copyIn_self ((s'.ports path).tcpRecvBuf) 0
          ((s.wires conn).unread.take PACKET_HEADER_SIZE)
        rw [hheader.ok.1] at hcopy
        exact hcopy.symm ▸ hheader
  · simp only [TcpStreams.receive, hreader, heq]
    refine h.exit_read (h.read_busy hserves hthread hothers hread) hread.wire
      fun hwhole hopen => ?_
    refine hcut.ended (hshort (h.descriptor_open hserves hfd hopen) ?_)
    simpa using hwhole

theorem Inv.readPayload {len : Nat} (hreader : (s.ports path).reader = .sized fd len)
    {readiness : Readiness} {transfer : Transfer} :
    (s.receive e path readiness transfer).Inv e := by
  have hcut : (s.wires conn).Cut e
      (.header (copyOut (s.ports path).tcpRecvBuf 0 PACKET_HEADER_SIZE) len) :=
    h.hand hserves hthread hreader
  have hfd : (s.ports path).reader.fd = some fd := by rw [hreader]; rfl
  have hspent := (h.serving hserves).spent (by rw [hreader]; rfl)
  by_cases hzero : len = 0
  · subst hzero
    simp only [TcpStreams.receive, hreader]
    rw [if_pos trivial]
    refine h.goto hserves hthread nofun nofun (fun _ => hspent) ?_
    have hpacket := hcut.payload (Nat.zero_le _)
    rw [List.take_zero, List.append_nil] at hpacket
    exact hpacket
  obtain ⟨s', hothers, ⟨hlen, hread, heq⟩ | ⟨⟨unread, hread⟩, heq, hshort⟩⟩ :=
    recvAll_spec (h.others hserves) hserves (h.descriptor hserves hfd) len transfer
  · simp only [TcpStreams.receive, hreader, heq]
    rw [if_neg hzero]
    refine h.fill hserves hthread hothers hread ?_ nofun nofun ?_ ?_
    · rw [hread.ports]
      exact ⟨rfl, rfl, rfl⟩
    · rw [hread.ports]
      exact hspent
    · have hpayload : ((s.wires conn).unread.take len).length = len :=
        List.length_take_of_le hlen
      have hcopy := copyOut_copyIn_append (s'.ports path).tcpRecvBuf 0 PACKET_HEADER_SIZE
        ((s.wires conn).unread.take len)
      rw [hpayload, Nat.zero_add, hread.ports] at hcopy
      unfold Porter.Port.readHand
      dsimp only
      rw [hread.ports]
      exact hcopy.symm ▸ hcut.payload hlen
  · simp only [TcpStreams.receive, hreader, heq]
    rw [if_neg hzero]
    refine h.exit_read (h.read_busy hserves hthread hothers hread) hread.wire
      fun hwhole hopen => ?_
    refine hcut.interrupted (hshort (h.descriptor_open hserves hfd hopen) ?_)
    simpa using hwhole

theorem Inv.handOver {buf : Bytes} (hended : (s.ports path).reader ≠ .ended)
    (hspent : (s.ports path).tcpFirstPktLen = 0) (hcut : (s.wires conn).Cut e (.packet buf))
    (hparse : (Packet.parse buf).isSome = true) :
    ((s.setWire conn { s.wires conn with handed := (s.wires conn).handed ++ [buf] }).goto path
      .entry).Inv e := by
  have hothers := ((h.others hserves).setWire
    { s.wires conn with handed := (s.wires conn).handed ++ [buf] }).goto .entry
  have hport := goto_port
    (s.setWire conn { s.wires conn with handed := (s.wires conn).handed ++ [buf] }) path .entry
  have hwire : ((s.setWire conn
      { s.wires conn with handed := (s.wires conn).handed ++ [buf] }).goto path .entry).wires conn =
        { s.wires conn with handed := (s.wires conn).handed ++ [buf] } := Function.update_self ..
  have hlistening := (h.staffed path).listening hthread
  have hgauge : ((s.setWire conn { s.wires conn with
      handed := (s.wires conn).handed ++ [buf] }).goto path .entry).toTcpService = s.toTcpService := rfl
  have hdescs : ((s.setWire conn { s.wires conn with
      handed := (s.wires conn).handed ++ [buf] }).goto path .entry).descriptors = s.descriptors := rfl
  generalize (s.setWire conn
    { s.wires conn with handed := (s.wires conn).handed ++ [buf] }).goto path .entry = next at *
  refine h.onward hserves hothers ⟨hgauge, hdescs, ?_, ?_, ?_, ?_, ?_, ?_, ?_, ?_, ?_, ?_, ?_, ?_,
    fun hengaged => absurd hlistening hengaged⟩ ?_
  · rw [hport]
    exact hserves
  · rw [hport]
    rfl
  · rw [hport]
    exact iff_of_false nofun hended
  · rw [hport]
    rfl
  · rw [hport]
    exact fun _ => id
  · rw [hport]
    exact nofun
  · rw [hport]
    exact nofun
  · rw [hwire]
  · rw [hwire]
  · rw [hwire]
  · rw [hwire]
  · rw [hwire]
    exact List.prefix_append ..
  · have hhand : ({ s.ports path with reader := .entry } : Port).hand = .nothing :=
      (Port.hand_of_listening (by exact hlistening)).trans (if_pos (by exact hspent))
    rw [hwire, hport]
    exact (congrArg (Wire.Cut e _) hhand).mpr (hcut.parsed hparse)

theorem Inv.handle {len : Nat} (hreader : (s.ports path).reader = .filled len) :
    (s.handle e path len).Inv e := by
  have hcut : (s.wires conn).Cut e
      (.packet (copyOut (s.ports path).tcpRecvBuf 0 (PACKET_HEADER_SIZE + len))) :=
    h.hand hserves hthread hreader
  have hspent := (h.serving hserves).spent (by rw [hreader]; rfl)
  unfold TcpStreams.handle
  cases hrunning : s.running path with
  | false => exact h.exit_stopped hserves hthread hrunning
  | true =>
    dsimp only
    rw [note_eq hserves, if_neg (by decide)]
    split
    · rename_i hparse
      have hself : ∀ wire, (s.setWire conn wire).wires conn = wire := fun wire =>
        Function.update_self ..
      refine ((h.busy hserves hthread).setWire _).exit ?_ ?_ ?_
      · rw [hself]
        exact (hcut.refused hparse).symm ▸ List.prefix_rfl
      · rw [hself]
        exact (h.settled conn).first
      · rw [hself]
        exact fun _ _ => hcut.refused hparse
    · rename_i hparse
      have hentry := h.handOver hserves hthread (hreader ▸ nofun) hspent hcut
        (Option.isSome_of_eq_some hparse)
      split
      · exact hentry
      · exact hentry.advance_same fun k => TcpService.packet_gauge _ _

theorem Inv.poll (hreader : (s.ports path).reader = .polling fd) (readiness : Readiness) :
    (s.poll e path fd readiness).Inv e := by
  have hcut := h.hand hserves hthread hreader
  have hspent := (h.serving hserves).spent (by rw [hreader]; rfl)
  cases readiness with
  | ready =>
    unfold TcpStreams.poll
    cases hrunning : s.running path with
    | true =>
      exact h.goto_holding hserves hthread nofun (by rw [hreader]; rfl) hspent hcut
    | false => exact h.exit_stopped hserves hthread hrunning
  | failed => exact h.exit hserves hthread nofun
  | idle =>
    unfold TcpStreams.poll
    cases hrunning : s.running path with
    | false => exact h.exit_stopped hserves hthread hrunning
    | true =>
      obtain ⟨hphase, hthread', hfd⟩ := pollTimeout_control s path
      have hport := advance_port (.pollTimeout path) (congrFun hthread' path)
      dsimp only
      rw [if_neg (by decide)]
      split
      · rename_i hstill
        have hnext : (s.advance e (.pollTimeout path)).Inv e := by
          refine h.advance hserves rfl (congrFun hthread' path) ?_ ?_ ?_ ?_ ?_ ?_
          · rw [hphase]
            exact (h.staffed path).attended
          · rw [hphase, hfd]
            exact (h.staffed path).vacant
          · rw [hphase]
            exact id
          · rw [hphase]
            exact id
          · rw [hfd]
            exact id
          · intro _ hstop
            rw [hstill] at hstop
            cases hstop
        refine hnext.goto (hport ▸ hserves) ((congrFun hthread' path).trans hthread) nofun nofun
          nofun ?_
        rw [hport]
        refine Cut.advance ?_ _
        unfold Porter.Port.readHand at hcut ⊢
        rw [if_pos hspent]
        exact hcut
      · refine Busy.exit ⟨(h.others hserves).advance hserves (h.serving hserves).fd rfl, ?_, ?_,
          ?_, ?_⟩ ((h.settled conn).advance _).handed ((h.settled conn).advance _).first nofun
        · exact (h.staffed path).of_eq (congrFun hphase path) (congrFun hthread' path)
            (congrFun hfd path) hport
        · rw [hport]
          exact hserves
        · rw [hfd, hport, advance_descriptors hfd]
          exact (h.serving hserves).fd
        · exact (congrFun hthread' path).trans hthread

theorem Inv.receive (readiness : Readiness) (transfer : Transfer) :
    (s.receive e path readiness transfer).Inv e := by
  cases hreader : (s.ports path).reader with
  | ended => simpa only [TcpStreams.receive, hreader] using h
  | entry =>
    have hcut := h.hand hserves hthread hreader
    simp only [TcpStreams.receive, hreader]
    cases hrunning : s.running path with
    | true => exact h.goto hserves hthread nofun nofun nofun hcut
    | false => exact h.exit_stopped hserves hthread hrunning
  | checked =>
    have hcut := h.hand hserves hthread hreader
    simp only [TcpStreams.receive, hreader]
    cases hopen : s.tcpConnFd path with
    | true =>
      refine h.goto hserves hthread nofun (fun d hd => .inr ?_) nofun hcut
      exact Option.some.inj hd ▸ (h.serving hserves).fd hopen
    | false =>
      refine h.exit hserves hthread fun _ hcut => ?_
      rw [(h.serving hserves).shut (.inr hthread) hopen] at hcut
      cases hcut
  | fetched fd =>
    simp only [TcpStreams.receive, hreader]
    exact h.takeFirst hserves hthread hreader
  | polling fd =>
    simp only [TcpStreams.receive, hreader]
    exact h.poll hserves hthread hreader readiness
  | reading fd => exact h.readHeader hserves hthread hreader
  | sized fd len => exact h.readPayload hserves hthread hreader
  | filled len =>
    simp only [TcpStreams.receive, hreader]
    exact h.handle hserves hthread hreader

end

end

end TcpStreams

end Porter
