import Porter.Delivery.Framing.Reader

namespace Porter

open Buffer

namespace TcpStreams

section

variable {e : Env} {s s' : TcpStreams} {path k : Path} {conn fd : Nat}

theorem Staffed.waiting (h : s.Staffed e k) (hwaiting : s.phase k = .waiting) :
    s.thread k = false ∧ s.tcpConnFd k = false ∧ (s.ports k).reader = .ended := by
  have hthread : s.thread k = false := by
    refine Bool.eq_false_iff.mpr fun hrun => ?_
    have hattended := h.attended hrun
    rw [hwaiting] at hattended
    cases hattended
  exact ⟨hthread, h.vacant (congrArg ConnPhase.vacant hwaiting), h.ended.mpr hthread⟩

theorem Others.turnAway (h : s.Others e path conn) (hwaiting : s.phase path = .waiting)
    (hidle : s.thread path = false ∧ s.tcpConnFd path = false ∧ (s.ports path).reader = .ended)
    (hfd : s.descriptors fd = some conn) (hsettled : Settled e (s.wires conn)) :
    (s.turnAway path fd).Inv e := by
  obtain ⟨hthread, hclosed, hended⟩ := hidle
  have hself : (s.turnAway path fd).ports path =
      { s.ports path with acceptor := .listening, serves := none } := Function.update_self ..
  have hothers : (s.turnAway path fd).Others e path conn := by
    refine h.of_eq (fun _ => rfl) (fun _ hk => Function.update_of_ne hk ..) (fun _ _ => rfl) rfl
      (fun d => ?_) fun _ => .inl
    by_cases hd : d = fd
    · subst hd
      exact .inr ⟨hfd, Function.update_self ..⟩
    · exact .inl (Function.update_of_ne hd ..)
  refine hothers.inv ⟨fun hrun => ?_, fun _ => hclosed, ?_, ?_, ?_, ?_⟩ ?_ ?_ hsettled
  · cases hthread.symm.trans hrun
  · rw [hself]
    exact ⟨fun _ => hthread, fun _ => hended⟩
  · rw [hself]
    exact fun _ => ⟨hwaiting, rfl⟩
  · exact fun _ => hwaiting
  · rw [hself]
    exact fun hsome => absurd rfl hsome
  · rw [hself]
    exact nofun
  · rw [hself]
    exact nofun

theorem Inv.greeted (h : s.Inv e) {stream : Bytes} (hfd : ∀ k, (s.ports k).reader.fd ≠ some fd)
    (hrole : e.role = .receiver ∧ path.val < e.nPath) (hwaiting : s.phase path = .waiting)
    (hfree : s.descriptors fd = none) : (s.greeted path fd stream).Inv e := by
  obtain ⟨hthread, hclosed, hended⟩ := (h.staffed path).waiting hwaiting
  have hport : (s.greeted path fd stream).ports path =
      { s.ports path with acceptor := .greeting fd, serves := some s.connections } :=
    Function.update_self ..
  have hports : ∀ k, k ≠ path → (s.greeted path fd stream).ports k = s.ports k := fun k hk =>
    Function.update_of_ne hk ..
  have hwire : (s.greeted path fd stream).wires s.connections =
      ⟨stream, stream, none, [], false, none⟩ := by
    change Function.update s.wires s.connections _ s.connections = _
    rw [Function.update_self, h.unborn s.connections (Nat.le_refl _)]
  have hwires : ∀ c, c ≠ s.connections → (s.greeted path fd stream).wires c = s.wires c :=
    fun c hc => Function.update_of_ne hc ..
  have hdesc : (s.greeted path fd stream).descriptors fd = some s.connections :=
    Function.update_self ..
  have hdescs : ∀ d, d ≠ fd → (s.greeted path fd stream).descriptors d = s.descriptors d :=
    fun d hd => Function.update_of_ne hd ..
  have hothers : (s.greeted path fd stream).Others e path s.connections := by
    refine ⟨fun k hk => (h.staffed k).of_eq rfl rfl rfl (hports k hk), fun {k c} hk hc => ?_,
      fun c hc => hwires c hc ▸ h.settled c, fun {k j c} hk hj hck hcj => ?_, Nat.lt_succ_self _,
      fun {d c} hd => ?_, fun c hc => ?_, h.reads⟩
    · rw [hports k hk] at hc
      have hlt := h.fresh hc
      refine ⟨Nat.ne_of_lt hlt, Nat.lt_succ_of_lt hlt, (h.serving hc).of_eq rfl (hports k hk)
        (hwires c (Nat.ne_of_lt hlt)) (fun d hd => ?_) fun d hheld hd => ?_⟩
      · refine (hdescs d fun heq => ?_).trans hd
        rw [heq, hfree] at hd
        cases hd
      · exact (hdescs d fun heq => hfd k (heq ▸ hheld)).trans hd
    · rw [hports k hk] at hck
      rw [hports j hj] at hcj
      exact h.apart hck hcj
    · by_cases heq : d = fd
      · rw [heq, hdesc] at hd
        exact Option.some.inj hd ▸ Nat.lt_succ_self _
      · exact Nat.lt_succ_of_lt (h.opened ((hdescs d heq).symm.trans hd))
    · have hlt : s.connections + 1 ≤ c := hc
      exact (hwires c (by omega)).trans (h.unborn c (by omega))
  have hdown : ¬ (s.greeted path fd stream).Up path := by
    rintro (hpublished | hrun)
    · cases hwaiting.symm.trans hpublished
    · cases hthread.symm.trans hrun
  refine hothers.inv ⟨(h.staffed path).attended, (h.staffed path).vacant, ?_, ?_, fun _ => hwaiting,
    fun _ => hrole⟩ ?_ (fun _ => ⟨fun hopen => ?_, fun d hd => ?_, fun d hd => ?_,
      fun hup => absurd hup hdown, fun hrun => absurd (.inr hrun) hdown, fun hpast => ?_,
      fun _ => ?_, fun _ => ?_⟩) ?_
  · rw [hport]
    exact (h.staffed path).ended
  · rw [hport]
    exact nofun
  · rw [hport]
    exact fun c hc => (Option.some.inj hc).symm
  · cases hclosed.symm.trans hopen
  · rw [hport] at hd
    rw [← Option.some.inj hd]
    exact hdesc
  · rw [hport] at hd
    rw [hended] at hd
    cases hd
  · rw [hport] at hpast
    rw [hended] at hpast
    cases hpast
  · rw [hwire]
  · rw [hwire, hport]
    exact ⟨trivial, rfl⟩
  · rw [hwire]
    exact ⟨ List.nil_prefix, nofun, nofun⟩

theorem Inv.accept (h : s.Inv e) {stream : Bytes} (hfd : ∀ k, (s.ports k).reader.fd ≠ some fd) :
    (s.accept e path fd stream).Inv e := by
  unfold TcpStreams.accept
  split
  · rename_i hguard
    obtain ⟨hrole, hpath, hwaiting, -, hfree⟩ := hguard
    exact h.greeted hfd ⟨hrole, hpath⟩ hwaiting hfree
  · exact h

theorem Inv.fillFirst (h : s.Inv e) (hserves : (s.ports path).serves = some conn) {unread : Bytes}
    (hothers : s'.Others e path conn) (hread : s.Read s' conn unread) {acceptor : Acceptor}
    (hengaged : (s.ports path).acceptor ≠ .listening)
    (hfd : acceptor.fd = (s.ports path).acceptor.fd) {offset : Nat} {bytes : Bytes}
    (hcut : Wire.Cut e { s.wires conn with unread := unread }
      ({ s.ports path with
        tcpFirstPktBuf := copyIn (s.ports path).tcpFirstPktBuf offset bytes
        acceptor := acceptor } : Port).hand) :
    (s'.fillFirst path offset bytes acceptor).Inv e := by
  have hself : (s'.fillFirst path offset bytes acceptor).ports path =
      { s.ports path with
        tcpFirstPktBuf := copyIn (s.ports path).tcpFirstPktBuf offset bytes
        acceptor := acceptor } := by
    rw [← hread.ports]
    exact Function.update_self ..
  have hwire : (s'.fillFirst path offset bytes acceptor).wires conn =
      { s.wires conn with unread := unread } := hread.wire
  have hended := ((h.staffed path).waiting ((h.staffed path).engaged hengaged)).2.2
  have hstill : acceptor ≠ .listening := by
    rw [Ne, ← Acceptor.fd_eq_none, hfd, Acceptor.fd_eq_none]
    exact hengaged
  refine h.onward hserves (hothers.setPort _) ⟨hread.service, hread.descriptors, ?_, ?_, ?_, ?_, ?_,
    ?_, ?_, ?_, ?_, ?_, ?_, ?_, ?_⟩ ?_
  · rw [hself]
    exact hserves
  · rw [hself]
  · rw [hself]
  · rw [hself]
    exact iff_of_false hstill hengaged
  · rw [hself]
    exact fun d hd => hfd ▸ hd
  · rw [hself]
    exact fun d hd => .inl hd
  · rw [hself]
    intro hpast
    rw [hended] at hpast
    cases hpast
  · rw [hwire]
  · rw [hwire]
  · rw [hwire]
  · rw [hwire]
  · rw [hwire]
  · rw [hwire]
    exact fun _ => rfl
  · rw [hwire, hself]
    exact hcut

theorem Read.turnAway {unread : Bytes} (hread : s.Read s' conn unread) (h : s.Inv e)
    (hothers : s'.Others e path conn) (hwaiting : s.phase path = .waiting)
    (hfd : s.descriptors fd = some conn) :
    (s'.turnAway path fd).Inv e ∧ ∀ offset bytes acceptor,
      ((s'.fillFirst path offset bytes acceptor).turnAway path fd).Inv e := by
  have hphase : s'.phase path = .waiting := by
    rw [hread.service]
    exact hwaiting
  have hidle : s'.thread path = false ∧ s'.tcpConnFd path = false ∧
      (s'.ports path).reader = .ended := by
    rw [hread.service, hread.ports]
    exact (h.staffed path).waiting hwaiting
  have hdesc : s'.descriptors fd = some conn := by
    rw [hread.descriptors]
    exact hfd
  have hsettled : Settled e (s'.wires conn) := by
    rw [hread.wire]
    exact ⟨(h.settled conn).handed, (h.settled conn).complete, (h.settled conn).first⟩
  refine ⟨hothers.turnAway hphase hidle hdesc hsettled, fun offset bytes acceptor => ?_⟩
  refine (hothers.setPort _).turnAway hphase ⟨hidle.1, hidle.2.1, ?_⟩ hdesc hsettled
  change (Function.update s'.ports path _ path).reader = .ended
  rw [Function.update_self]
  exact hidle.2.2

theorem Inv.engaged (h : s.Inv e) (hengaged : (s.ports path).acceptor ≠ .listening) :
    ∃ conn, (s.ports path).serves = some conn ∧ s.phase path = .waiting ∧
      (s.wires conn).Cut e (s.ports path).hand := by
  cases hserves : (s.ports path).serves with
  | none => exact absurd ((h.staffed path).idle hserves).2 hengaged
  | some conn =>
    exact ⟨conn, rfl, (h.staffed path).engaged hengaged, (h.serving hserves).cut (.inl hengaged)⟩

theorem Inv.greetHeader (h : s.Inv e) (hacceptor : (s.ports path).acceptor = .greeting fd)
    (transfer : Transfer) : (s.greet e path transfer).Inv e := by
  have hengaged : (s.ports path).acceptor ≠ .listening := hacceptor ▸ nofun
  obtain ⟨conn, hserves, hwaiting, hcut⟩ := h.engaged hengaged
  have hfd := (h.serving hserves).greets fd (by rw [hacceptor]; rfl)
  have hhand : (s.ports path).hand = .nothing := by
    unfold Porter.Port.hand
    rw [hacceptor]
  rw [hhand] at hcut
  obtain ⟨s', hothers, ⟨hlen, hread, heq⟩ | ⟨⟨unread, hread⟩, heq, -⟩⟩ :=
    recvAll_spec (h.others hserves) hserves (.inl hfd) PACKET_HEADER_SIZE transfer
  · simp only [TcpStreams.greet, hacceptor, heq]
    split
    · exact (hread.turnAway h hothers hwaiting hfd).2 _ _ _
    · rename_i hmax
      have hheader := hcut.header hlen (by omega)
      refine h.fillFirst hserves hothers hread hengaged ?_ ?_
      · rw [hacceptor]
        rfl
      · have hcopy := copyOut_copyIn_self (s.ports path).tcpFirstPktBuf 0
          ((s.wires conn).unread.take PACKET_HEADER_SIZE)
        rw [hheader.ok.1] at hcopy
        exact hcopy.symm ▸ hheader
  · simp only [TcpStreams.greet, hacceptor, heq]
    exact (hread.turnAway h hothers hwaiting hfd).1

theorem Inv.greetPayload (h : s.Inv e) {len : Nat}
    (hacceptor : (s.ports path).acceptor = .sized fd len) (transfer : Transfer) :
    (s.greet e path transfer).Inv e := by
  have hengaged : (s.ports path).acceptor ≠ .listening := hacceptor ▸ nofun
  obtain ⟨conn, hserves, hwaiting, hcut⟩ := h.engaged hengaged
  have hfd := (h.serving hserves).greets fd (by rw [hacceptor]; rfl)
  have hhand : (s.ports path).hand =
      .header (copyOut (s.ports path).tcpFirstPktBuf 0 PACKET_HEADER_SIZE) len := by
    unfold Porter.Port.hand
    rw [hacceptor]
  rw [hhand] at hcut
  by_cases hzero : len = 0
  · subst hzero
    simp only [TcpStreams.greet, hacceptor]
    rw [if_pos trivial]
    refine h.fillFirst hserves (h.others hserves) ⟨rfl, rfl, rfl, rfl⟩ hengaged ?_ ?_
    · rw [hacceptor]
      rfl
    · have hpacket := hcut.payload (Nat.zero_le _)
      rw [List.take_zero, List.append_nil] at hpacket
      have hcopy : copyOut (copyIn (s.ports path).tcpFirstPktBuf 0 []) 0 PACKET_HEADER_SIZE =
          copyOut (s.ports path).tcpFirstPktBuf 0 PACKET_HEADER_SIZE :=
        copyOut_copyIn_of_disjoint _ (.inr (Nat.le_refl 0))
      unfold Porter.Port.hand
      exact hcopy.symm ▸ hpacket
  obtain ⟨s', hothers, ⟨hlen, hread, heq⟩ | ⟨⟨unread, hread⟩, heq, -⟩⟩ :=
    recvAll_spec (h.others hserves) hserves (.inl hfd) len transfer
  · simp only [TcpStreams.greet, hacceptor, heq]
    rw [if_neg hzero]
    refine h.fillFirst hserves hothers hread hengaged ?_ ?_
    · rw [hacceptor]
      rfl
    · have hpayload : ((s.wires conn).unread.take len).length = len := List.length_take_of_le hlen
      have hcopy := copyOut_copyIn_append (s.ports path).tcpFirstPktBuf 0 PACKET_HEADER_SIZE
        ((s.wires conn).unread.take len)
      rw [hpayload, Nat.zero_add] at hcopy
      unfold Porter.Port.hand
      dsimp only
      exact hcopy.symm ▸ hcut.payload hlen
  · simp only [TcpStreams.greet, hacceptor, heq]
    rw [if_neg hzero]
    exact (hread.turnAway h hothers hwaiting hfd).1

theorem Inv.registered (h : s.Inv e) (hserves : (s.ports path).serves = some conn) {pktLen : Nat}
    (hacceptor : (s.ports path).acceptor = .filled fd pktLen) {pkt : Packet}
    (hvetted : Packet.vetted e (copyOut (s.ports path).tcpFirstPktBuf 0 pktLen) = some pkt)
    (hnew : s.sessionCompare e pkt ≠ .old) : (s.establish e path fd pktLen).Inv e := by
  have hengaged : (s.ports path).acceptor ≠ .listening := by simp [hacceptor]
  have hstaffed := h.staffed path
  have hserving := h.serving hserves
  have hwaiting := hstaffed.engaged hengaged
  obtain ⟨hrole, hpath⟩ := hstaffed.role (by simp [hserves])
  obtain ⟨hthread, hclosed, hended⟩ := hstaffed.waiting hwaiting
  have hfd := hserving.greets fd (by rw [hacceptor]; rfl)
  have hcut : (s.wires conn).Cut e (.packet (copyOut (s.ports path).tcpFirstPktBuf 0 pktLen)) := by
    have hown := hserving.cut (.inl hengaged)
    unfold Porter.Port.hand at hown
    rwa [hacceptor] at hown
  have hlen : pktLen ≠ 0 := by
    have hwhole := hcut.ok.1
    have hpos := e.format.header_pos
    rw [length_copyOut] at hwhole
    omega
  have hgauge := TcpService.accept_gauge (s := s.toTcpService) hrole hpath hwaiting hnew
  simp only [TcpService.gauge, Prod.mk.injEq] at hgauge
  obtain ⟨hphase, hsame, -, hopen⟩ := hgauge
  have hadvanced := advance_port (.accept path pkt) hsame
  have heq : s.establish e path fd pktLen =
      ((s.advance e (.accept path pkt)).setWire conn
        { (s.advance e (.accept path pkt)).wires conn with admitted := some pkt }).setPort path
        { s.ports path with connFd := fd, tcpFirstPktLen := pktLen, acceptor := .listening } := by
    unfold TcpStreams.establish
    rw [hvetted]
    dsimp only
    rw [if_neg hnew, note_eq (hadvanced ▸ hserves), ← hadvanced]
    rfl
  have hothers := (((h.others hserves).advance hserves
    (fun hup => absurd (hclosed.symm.trans hup) Bool.false_ne_true)
    (show (TcpService.Input.accept path pkt).path = path from rfl)).setWire
      { (s.advance e (.accept path pkt)).wires conn with admitted := some pkt }).setPort
        { s.ports path with connFd := fd, tcpFirstPktLen := pktLen, acceptor := .listening }
  have hdesc : (s.advance e (.accept path pkt)).descriptors fd = some conn := by
    rcases advance_descriptor s (.accept path pkt) fd with hsame | ⟨-, j, hj, hup, -⟩
    · exact hsame.trans hfd
    · obtain rfl := h.owns hserves j hup (hj ▸ hfd)
      cases hclosed.symm.trans hup
  rw [← heq] at hothers
  have hport : (s.establish e path fd pktLen).ports path =
      { s.ports path with connFd := fd, tcpFirstPktLen := pktLen, acceptor := .listening } := by
    rw [heq]
    exact Function.update_self ..
  have hwire : (s.establish e path fd pktLen).wires conn =
      { (s.advance e (.accept path pkt)).wires conn with admitted := some pkt } := by
    rw [heq]
    exact Function.update_self ..
  have hservice : (s.establish e path fd pktLen).toTcpService =
      s.toTcpService.step e (.accept path pkt) := by
    rw [heq]
    rfl
  have hdescs : (s.establish e path fd pktLen).descriptors =
      (s.advance e (.accept path pkt)).descriptors := by
    rw [heq]
    rfl
  have hcut' := Cut.advance hcut (.accept path pkt)
  have hsettled := (h.settled conn).advance (.accept path pkt)
  have hhanded : ((s.advance e (.accept path pkt)).wires conn).handed = [] :=
    (advance_handed s _ conn).trans (hserving.early hengaged)
  generalize s.establish e path fd pktLen = next at *
  have hdown : next.thread path = false := by
    rw [hservice]
    exact hsame.trans hthread
  refine hothers.inv ⟨fun hrun => ?_, ?_, ?_, ?_, ?_, fun _ => ⟨hrole, hpath⟩⟩ ?_
    (fun _ => ⟨fun _ => ?_, fun d hd => ?_, fun d hd => ?_, fun _ hshut => ?_, fun hrun => ?_,
      fun hpast => ?_, fun hbusy => ?_, fun _ => ?_⟩) ?_
  · cases hdown.symm.trans hrun
  · rw [hservice, hphase]
    simp [ConnPhase.vacant]
  · rw [hport]
    exact ⟨fun _ => hdown, fun _ => hended⟩
  · rw [hport]
    exact fun hnone => absurd (hserves.symm.trans hnone) (Option.some_ne_none conn)
  · rw [hport]
    exact fun hbusy => absurd rfl hbusy
  · rw [hport]
    exact fun c hc => Option.some.inj (hc.symm.trans hserves)
  · rw [hdescs, hport]
    exact hdesc
  · rw [hport] at hd
    cases hd
  · rw [hport] at hd
    rw [hended] at hd
    cases hd
  · rw [hservice, hopen] at hshut
    cases hshut
  · cases hdown.symm.trans hrun
  · rw [hport] at hpast
    rw [hended] at hpast
    cases hpast
  · rw [hport] at hbusy
    exact absurd rfl hbusy
  · have hhand : ({ s.ports path with
        connFd := fd, tcpFirstPktLen := pktLen, acceptor := .listening } : Port).hand =
          .packet (copyOut (s.ports path).tcpFirstPktBuf 0 pktLen) := by
      refine (Port.hand_of_listening rfl).trans ?_
      rw [hended]
      exact if_neg hlen
    rw [hwire, hport, hhand]
    exact ⟨hcut'.ok, hcut'.frames⟩
  · rw [hwire]
    refine ⟨hcut'.handed_le, hsettled.complete, fun pkt' hpkt => ?_⟩
    obtain rfl := Option.some.inj hpkt
    refine ⟨_, ?_, hvetted⟩
    rw [hcut'.hand_over, hhanded]
    rfl

theorem Inv.establish (h : s.Inv e) {pktLen : Nat}
    (hacceptor : (s.ports path).acceptor = .filled fd pktLen) :
    (s.establish e path fd pktLen).Inv e := by
  have hengaged : (s.ports path).acceptor ≠ .listening := hacceptor ▸ nofun
  obtain ⟨conn, hserves, hwaiting, -⟩ := h.engaged hengaged
  have hfd := (h.serving hserves).greets fd (by rw [hacceptor]; rfl)
  have haway : (s.turnAway path fd).Inv e := (h.others hserves).turnAway hwaiting
    ((h.staffed path).waiting hwaiting) hfd (h.settled conn)
  cases hvetted : Packet.vetted e (copyOut (s.ports path).tcpFirstPktBuf 0 pktLen) with
  | none =>
    unfold TcpStreams.establish
    rw [hvetted]
    exact haway
  | some pkt =>
    by_cases hold : s.sessionCompare e pkt = .old
    · unfold TcpStreams.establish
      rw [hvetted]
      dsimp only
      rw [if_pos hold]
      exact haway
    · exact h.registered hserves hacceptor hvetted hold

theorem Inv.greet (h : s.Inv e) (path : Path) (transfer : Transfer) :
    (s.greet e path transfer).Inv e := by
  cases hacceptor : (s.ports path).acceptor with
  | listening => simpa only [TcpStreams.greet, hacceptor] using h
  | greeting fd => exact h.greetHeader hacceptor transfer
  | sized fd len => exact h.greetPayload hacceptor transfer
  | filled fd pktLen =>
    simp only [TcpStreams.greet, hacceptor]
    exact h.establish hacceptor

end

end TcpStreams

end Porter
