import Porter.Connection.Handshake.Station
import Porter.Crypto.Authentic
import Porter.Lib.Herald

namespace Porter

-- One end with its threads. `draft` are the states that health_thread_func has copied for its next
-- PING, `outbox` the packets under way to the other end, the oldest first, and `sent` the DATA
-- packets. `greeted` records that a PING which reports the path as normal was sent, `met` that
-- health_alive has been 1.
structure Party where
  station : Station
  draft : Option Bytes
  outbox : List Packet
  sent : List Packet
  closing : Bool
  greeted : Bool
  met : Bool

namespace Party

def opened (station : Station) : Party := ⟨station, none, [], [], false, false, false⟩

-- The states a PING carries. Those of an N:1 service are copied under peers_mutex and those of a
-- TCP service under the mutex of the connection, which is held until the PING is written.
def states (e : Env) (p : Party) : Option Bytes :=
  match p.station with
  | .udp _ => p.draft
  | _ => (p.station.slot? e).map fun slot => slot.healthStates e

-- A PING before and after it is sealed. Its number was read at some time before.
def ping (e : Env) (p : Party) (seqNum : UInt32) : Option (Packet × Packet) :=
  (p.station.slot? e).bind fun slot => (p.states e).bind fun states =>
    let ping := Packet.buildPing (slot.ownSessionHdr e) seqNum states
    (ping.sealData e).map fun wire => (ping, wire)

-- send_fin and send_tcp_fin
def fin (e : Env) (p : Party) : Option Packet :=
  (p.station.slot? e).bind fun slot =>
    if e.type.isTcpType then
      (Packet.finOf (slot.ownSessionHdr e) true slot.sendWindow.nextSeq).tcpSendControlPacket e 0
    else (Packet.finOf (slot.ownSessionHdr e) slot.sendHasData slot.sendWindow.nextSeq).sealFin e

def moved (e : Env) (p : Party) (input : Station.Input) : Party :=
  { p with
    station := p.station.step e input
    met := p.met || (p.station.step e input).alive e }

end Party

-- The NACK, REJECT and FIN_ACK packets of the receive threads.
def Packet.isAnswer (pkt : Packet) : Bool :=
  !pkt.has FLAG_DATA && !pkt.has FLAG_PING && !pkt.has FLAG_FIN

theorem Packet.isAnswer_iff {pkt : Packet} : pkt.isAnswer = true ↔
    pkt.has FLAG_DATA = false ∧ pkt.has FLAG_PING = false ∧ pkt.has FLAG_FIN = false := by
  simp [isAnswer, and_assoc]

-- The two ends of a service with one path and what is under way between them.
structure Handshake where
  party : Bool → Party

namespace Handshake

-- The threads of both ends. Each input names the end whose thread runs. What the receive threads
-- answer to each other may come at any time, as may other clients of an N:1 service.
inductive Input where
  | draft (b : Bool)
  | ping (b : Bool) (seqNum : UInt32)
  | data (b : Bool) (packed : Bytes)
  | resend (b : Bool) (n : Nat)
  | close (b : Bool)
  | deliver (b : Bool) (source : Endpoint)
  | answer (b : Bool) (source : Endpoint) (pkt : Packet)
  | stranger (b : Bool) (source : Endpoint) (pkt : Packet)
  | poll (b : Bool)

def opened (stations : Bool → Station) : Handshake := ⟨fun b => .opened (stations b)⟩

def set (s : Handshake) (b : Bool) (p : Party) : Handshake := ⟨Function.update s.party b p⟩

def move (e : Bool → Env) (s : Handshake) (b : Bool) (input : Station.Input) : Handshake :=
  s.set b ((s.party b).moved (e b) input)

-- potr_service_send takes data once health_alive is 1, and none after close_requested is set.
def step (e : Bool → Env) (s : Handshake) : Input → Handshake
  | .draft b =>
      s.set b { s.party b with
        draft := ((s.party b).station.slot? (e b)).map fun slot => slot.healthStates (e b) }
  | .ping b seqNum =>
      match (s.party b).ping (e b) seqNum with
      | none => s
      | some (ping, wire) =>
          s.set b { s.party b with
            draft := none
            outbox := (s.party b).outbox ++ [wire]
            greeted := (s.party b).greeted || ping.isHello }
  | .data b packed =>
      if (s.party b).met && !(s.party b).closing then
        match (s.party b).station.container (e b) packed with
        | none => s
        | some outer =>
            s.set b { s.party b with
              station := (s.party b).station.step (e b) (.flush packed)
              outbox := (s.party b).outbox ++ [outer]
              sent := (s.party b).sent ++ [outer] }
      else s
  | .resend b n =>
      if (e b).type.isTcpType then s
      else
        match (s.party b).sent[n]? with
        | none => s
        | some pkt => s.set b { s.party b with outbox := (s.party b).outbox ++ [pkt] }
  | .close b =>
      match (s.party b).fin (e b) with
      | none => s.set b { s.party b with closing := true }
      | some fin =>
          s.set b { s.party b with closing := true, outbox := (s.party b).outbox ++ [fin] }
  | .deliver b source =>
      match (s.party !b).outbox with
      | [] => s
      | pkt :: rest =>
          let heard := match Packet.receive (e b) pkt.wire with
            | none => s
            | some plain => s.move e b (.hear source plain)
          heard.set (!b) { s.party !b with outbox := rest }
  | .answer b source pkt =>
      if pkt.isAnswer && ((s.party !b).station.own (e !b)).all fun session => pkt.session = session
      then s.move e b (.hear source pkt)
      else s
  | .stranger b source pkt =>
      if (s.party b).station.Concerns pkt then s else s.move e b (.hear source pkt)
  | .poll b => s.move e b .poll

def run (e : Bool → Env) (s : Handshake) (inputs : List Input) : Handshake :=
  inputs.foldl (step e) s

-- An end sends DATA only after a PING that reports its path as normal. In an N:1 service such a
-- PING is let in when it arrives.
def InStep (e : Bool → Env) (s : Handshake) : Input → Prop
  | .data b _ => (s.party b).met = true → (s.party b).greeted = true
  | .deliver b source => (e b).isMultiPeer = true ∨ (e !b).isMultiPeer = true →
      ∀ pkt ∈ (s.party !b).outbox.head?, ∀ plain ∈ Packet.receive (e b) pkt.wire,
        plain.isHello = true → (s.party b).station.takes (e b) source plain = true
  | _ => True

instance (e : Bool → Env) (s : Handshake) : ∀ input, Decidable (s.InStep e input)
  | .data b _ => inferInstanceAs (Decidable ((s.party b).met = true → (s.party b).greeted = true))
  | .deliver b source => inferInstanceAs (Decidable
      ((e b).isMultiPeer = true ∨ (e !b).isMultiPeer = true →
        ∀ pkt ∈ (s.party !b).outbox.head?, ∀ plain ∈ Packet.receive (e b) pkt.wire,
          plain.isHello = true → (s.party b).station.takes (e b) source plain = true))
  | .draft _ | .ping .. | .resend .. | .close _ | .answer .. | .stranger .. | .poll _ =>
      .isTrue trivial

-- What the receiving end makes of the packet is a hello.
def Hello (er : Env) (pkt : Packet) : Prop :=
  ∃ plain, Packet.receive er pkt.wire = some plain ∧ plain.isHello = true

end Handshake

theorem Slot.healthStates_length (e : Env) (slot : Slot) :
    (slot.healthStates e).length = MAX_PATH := by
  unfold Slot.healthStates
  split
  · exact List.length_ofFn
  · exact List.length_replicate

namespace Station

section

variable {e : Env} {st : Station} {packed : Bytes} {pkt outer : Packet} {session : SessionHdr}

theorem own_of_slot {slot : Slot} (hslot : st.slot? e = some slot)
    (hown : st.own e = some session) : slot.ownSession e = session := by
  cases st with
  | udp slot' =>
    obtain rfl := Option.some.inj hslot
    exact Option.some.inj hown
  | peers client ctx => cases hown
  | tcp ctx =>
    obtain rfl := Option.some.inj hslot
    exact Option.some.inj hown

theorem container_isData (h : st.container e packed = some outer) :
    outer.IsData ∧ ∀ session ∈ st.own e, outer.session = session := by
  obtain ⟨slot, hslot, hbuilt⟩ := Option.bind_eq_some_iff.mp h
  obtain ⟨-, hsession, hdata⟩ := Slot.packedContainer_isData hbuilt
  exact ⟨hdata, fun session hown => hsession.trans (own_of_slot hslot hown)⟩

end

end Station

namespace Party

-- What holds of an end with the session `mine` while the other end has the session `theirs`.
structure Sound (e : Env) (mine theirs : Option SessionHdr) (p : Party) : Prop where
  fits : p.station.Fits e
  own : p.station.own e = mine
  knows : ∀ session ∈ theirs, p.station.Knows e session
  draft : ∀ states ∈ p.draft, states.length = MAX_PATH
  outbox : ∀ session ∈ mine, ∀ pkt ∈ p.outbox, pkt.session = session
  sent : ∀ session ∈ mine, ∀ pkt ∈ p.sent, pkt.session = session
  idle : p.greeted = false → p.sent = []
  vacant : p.met = false → p.station.Vacant e

-- DATA may come to an end that was connected before, or that no longer listens.
def Ready (p : Party) : Prop := p.met = true ∨ p.station.Deaf

section

variable {e er : Env} {mine theirs : Option SessionHdr} {p : Party} {seqNum : UInt32}
  {ping wire pkt : Packet} {packed : Bytes}

theorem ping_spec (h : p.ping e seqNum = some (ping, wire)) :
    ∃ slot states, p.station.slot? e = some slot ∧ p.states e = some states ∧
      ping = Packet.buildPing (slot.ownSessionHdr e) seqNum states ∧
      ping.sealData e = some wire := by
  obtain ⟨slot, hslot, h⟩ := Option.bind_eq_some_iff.mp h
  obtain ⟨states, hstates, h⟩ := Option.bind_eq_some_iff.mp h
  obtain ⟨sealed, hsealed, heq⟩ := Option.map_eq_some_iff.mp h
  cases heq
  exact ⟨slot, states, hslot, hstates, rfl, hsealed⟩

theorem Sound.states_length (h : p.Sound e mine theirs) {states : Bytes}
    (hstates : p.states e = some states) : states.length = MAX_PATH := by
  unfold Party.states at hstates
  split at hstates
  · exact h.draft states hstates
  · obtain ⟨slot, -, rfl⟩ := Option.map_eq_some_iff.mp hstates
    exact slot.healthStates_length e

theorem Sound.ping_received (h : p.Sound e mine theirs) (haead : e.Aead er)
    (hping : p.ping e seqNum = some (ping, wire)) : Packet.receive er wire.wire = some ping := by
  obtain ⟨slot, states, -, hstates, rfl, hsealed⟩ := ping_spec hping
  exact (Emission.ping rfl (h.states_length hstates) hsealed).received haead

theorem Sound.ping_session (h : p.Sound e mine theirs)
    (hping : p.ping e seqNum = some (ping, wire)) : ∀ session ∈ mine, wire.session = session := by
  obtain ⟨slot, states, hslot, -, rfl, hsealed⟩ := ping_spec hping
  intro session hmine
  exact (Packet.sealAs_sameHeader hsealed).session.trans
    (Station.own_of_slot hslot (h.own.trans hmine))

theorem ping_has (hping : p.ping e seqNum = some (ping, wire)) {flag : UInt16}
    (hflag : flag &&& FLAG_ENCRYPTED = 0) : wire.has flag = (FLAG_PING &&& flag != 0) := by
  obtain ⟨slot, states, -, -, rfl, hsealed⟩ := ping_spec hping
  exact Packet.sealed_has hsealed rfl flag hflag

theorem fin_spec {fin : Packet} (h : p.fin e = some fin) :
    ∃ slot hasData, p.station.slot? e = some slot ∧
      (Packet.finOf (slot.ownSessionHdr e) hasData slot.sendWindow.nextSeq).sealAs e 0 =
        some fin := by
  obtain ⟨slot, hslot, hfin⟩ := Option.bind_eq_some_iff.mp h
  split at hfin
  · exact ⟨slot, true, hslot, hfin⟩
  · exact ⟨slot, slot.sendHasData, hslot, hfin⟩

theorem fin_has {fin : Packet} (h : p.fin e = some fin) :
    fin.has FLAG_FIN = true ∧ fin.has FLAG_DATA = false ∧ fin.has FLAG_PING = false := by
  obtain ⟨slot, hasData, -, hsealed⟩ := fin_spec h
  have hflags : (Packet.finOf (slot.ownSessionHdr e) hasData slot.sendWindow.nextSeq).flags =
      if hasData then FLAG_FIN ||| FLAG_FIN_TARGET_VALID else FLAG_FIN := by
    cases hasData <;> rfl
  have hhas := Packet.sealed_has hsealed hflags
  refine ⟨(hhas _ (by decide)).trans ?_, (hhas _ (by decide)).trans ?_,
    (hhas _ (by decide)).trans ?_⟩
  all_goals cases hasData <;> decide

theorem Sound.fin_session (h : p.Sound e mine theirs) {fin : Packet} (hfin : p.fin e = some fin) :
    ∀ session ∈ mine, fin.session = session := by
  obtain ⟨slot, hasData, hslot, hsealed⟩ := fin_spec hfin
  intro session hmine
  refine (Packet.sealAs_sameHeader hsealed).session.trans
    (Eq.trans ?_ (Station.own_of_slot hslot (h.own.trans hmine)))
  cases hasData <;> rfl

theorem Sound.moved (hlex : e.plat.CmpLex) (h : p.Sound e mine theirs) {input : Station.Input}
    (hsession : ∀ source pkt, input = .hear source pkt → p.station.own e ≠ none →
      ∀ session ∈ theirs, pkt.session = session)
    (hvacant : p.met = false → (p.station.step e input).Vacant e) :
    (p.moved e input).Sound e mine theirs where
  fits := Station.step_fits hlex h.fits input
  own := (Station.step_own hlex h.fits input).trans h.own
  knows session htheirs := Station.step_knows hlex h.fits (h.knows session htheirs)
    fun source pkt hinput hown => hsession source pkt hinput hown session htheirs
  draft := h.draft
  outbox := h.outbox
  sent := h.sent
  idle := h.idle
  vacant hmet := hvacant (Bool.or_eq_false_iff.mp hmet).1

theorem Ready.moved (h : p.Ready) (input : Station.Input) : (p.moved e input).Ready := by
  refine h.imp (fun hmet => ?_) fun hdeaf => Station.step_deaf hdeaf input
  change (p.met || _) = true
  rw [hmet]
  rfl

theorem append_session {pkts : List Packet}
    (hpkts : ∀ session ∈ mine, ∀ pkt ∈ pkts, pkt.session = session)
    (hpkt : ∀ session ∈ mine, pkt.session = session) :
    ∀ session ∈ mine, ∀ pkt' ∈ pkts ++ [pkt], pkt'.session = session := by
  intro session hmine pkt' hmem
  rcases List.mem_append.mp hmem with hold | hnew
  · exact hpkts session hmine pkt' hold
  · rw [List.mem_singleton.mp hnew]
    exact hpkt session hmine

theorem Sound.sends (hlex : e.plat.CmpLex) (h : p.Sound e mine theirs) (hgreeted : p.greeted = true)
    {outer : Packet} (houter : p.station.container e packed = some outer) :
    Party.Sound e mine theirs
      { p with
        station := p.station.step e (.flush packed)
        outbox := p.outbox ++ [outer]
        sent := p.sent ++ [outer] } := by
  have hsession : ∀ session ∈ mine, outer.session = session := fun session hmine =>
    (Station.container_isData houter).2 session (h.own.trans hmine)
  exact ⟨Station.step_fits hlex h.fits _, (Station.step_own hlex h.fits _).trans h.own,
    fun session htheirs => Station.step_knows hlex h.fits (h.knows session htheirs)
      (fun _ _ heq => by cases heq), h.draft,
    append_session h.outbox hsession, append_session h.sent hsession,
    fun hno => absurd (hgreeted.symm.trans hno) Bool.noConfusion,
    fun hmet => (Station.step_vacant hlex h.fits (h.vacant hmet) (fun _ _ heq => by cases heq)).1⟩

end

end Party

namespace Handshake

section

variable {e : Bool → Env} {own : Bool → Option SessionHdr} {s : Handshake} {b : Bool} {p : Party}
  {pkt plain : Packet} {source : Endpoint}

theorem set_self (s : Handshake) (b : Bool) (p : Party) : (s.set b p).party b = p :=
  Function.update_self ..

theorem set_other (s : Handshake) (b : Bool) (p : Party) : (s.set b p).party (!b) = s.party !b :=
  Function.update_of_ne (Bool.not_ne_self b) ..

theorem set_not (s : Handshake) (b : Bool) (p : Party) : (s.set (!b) p).party b = s.party b :=
  Function.update_of_ne (Bool.not_ne_self b).symm ..

theorem both {P : Bool → Prop} (b : Bool) (h : P b) (hother : P !b) : ∀ c, P c := by
  intro c
  rcases Bool.eq_or_eq_not c b with rfl | rfl
  · exact h
  · exact hother

-- What is under way to an end that was never connected holds a hello ahead of any DATA.
structure Inv (e : Bool → Env) (own : Bool → Option SessionHdr) (s : Handshake) : Prop where
  sound : ∀ b, (s.party b).Sound (e b) (own b) (own !b)
  greets : ∀ b, Fifo.Greets (Hello (e !b)) (fun pkt => pkt.has FLAG_DATA = true)
    (s.party !b).Ready ((s.party b).greeted = true) (s.party b).outbox

theorem Inv.set (h : Inv e own s) (hsound : p.Sound (e b) (own b) (own !b))
    (hready : (s.party b).Ready → p.Ready)
    (hgreets : Fifo.Greets (Hello (e !b)) (fun pkt => pkt.has FLAG_DATA = true)
      (s.party !b).Ready (p.greeted = true) p.outbox) : Inv e own (s.set b p) where
  sound := by
    refine both b ?_ ?_
    · rw [set_self]
      exact hsound
    · rw [set_other]
      exact h.sound !b
  greets := by
    refine both b ?_ ?_
    · rw [set_self, set_other]
      exact hgreets
    · have hback := h.greets !b
      rw [Bool.not_not] at hback ⊢
      rw [set_self, set_other]
      exact hback.mono hready id

theorem Inv.moved (hlex : ∀ b, (e b).plat.CmpLex) (h : Inv e own s) {input : Station.Input}
    (hsession : ∀ source pkt, input = .hear source pkt → (s.party b).station.own (e b) ≠ none →
      ∀ session ∈ own !b, pkt.session = session)
    (hvacant : (s.party b).met = false → ((s.party b).station.step (e b) input).Vacant (e b)) :
    Inv e own (s.move e b input) :=
  h.set ((h.sound b).moved (hlex b) hsession hvacant) (fun hready => hready.moved input)
    (h.greets b)

theorem Inv.quiet (hlex : ∀ b, (e b).plat.CmpLex) (h : Inv e own s) {input : Station.Input}
    (hquiet : ∀ source pkt, input = .hear source pkt → (s.party b).station.Concerns pkt →
      pkt.has FLAG_DATA = false) (hmet : (s.party b).met = false) :
    ((s.party b).station.step (e b) input).Vacant (e b) :=
  (Station.step_vacant (hlex b) (h.sound b).fits ((h.sound b).vacant hmet) hquiet).1

theorem Inv.arrives (h : Inv e own s) (hpkt : pkt ∈ (s.party !b).outbox)
    (hplain : Packet.receive (e b) pkt.wire = some plain) :
    ∀ session ∈ own !b, plain.session = session := by
  intro session hother
  exact (Packet.receive_sameHeader hplain).session.trans
    ((h.sound !b).outbox session hother pkt hpkt)

theorem Inv.next_quiet (h : Inv e own s) {rest : List Packet}
    (hnext : (s.party !b).outbox = pkt :: rest) (hnot : ¬ (s.party b).Ready)
    (hplain : Packet.receive (e b) pkt.wire = some plain) : plain.has FLAG_DATA = false := by
  have hgreets := h.greets !b
  rw [Bool.not_not, hnext] at hgreets
  by_cases hhello : plain.isHello = true
  · exact (Packet.has_of_flags (Packet.isHello_iff.mp hhello).1 FLAG_DATA).trans (by decide)
  · have hno : ¬ Hello (e b) pkt := by
      rintro ⟨plain', hplain', hhello'⟩
      rw [hplain] at hplain'
      exact hhello (Option.some.inj hplain' ▸ hhello')
    by_contra hdata
    refine hnot (hgreets.ready_of ?_ hno)
    exact ((Packet.receive_sameHeader hplain).has FLAG_DATA (by decide)).symm.trans
      (Bool.not_eq_false _ ▸ hdata)

-- The end that takes the next packet, before the packet is off the way.
def heard (e : Bool → Env) (s : Handshake) (b : Bool) (source : Endpoint) (pkt : Packet) :
    Handshake :=
  match Packet.receive (e b) pkt.wire with
  | none => s
  | some plain => s.move e b (.hear source plain)

theorem step_deliver {rest : List Packet} (hnext : (s.party !b).outbox = pkt :: rest) :
    s.step e (.deliver b source) =
      (s.heard e b source pkt).set (!b) { s.party !b with outbox := rest } := by
  simp only [step, hnext]
  rfl

theorem heard_other (s : Handshake) (b : Bool) (source : Endpoint) (pkt : Packet) :
    (s.heard e b source pkt).party (!b) = s.party !b := by
  unfold heard
  split
  · rfl
  · exact set_other ..

theorem Inv.concerns (hpair : ∀ b, own b = none → own (!b) ≠ none) (h : Inv e own s)
    (hpkt : pkt ∈ (s.party !b).outbox) (hplain : Packet.receive (e b) pkt.wire = some plain) :
    (s.party b).station.Concerns plain :=
  Station.concerns_of_knows (h.sound b).knows
    (fun hnone => hpair b ((h.sound b).own.symm.trans hnone)) (h.arrives hpkt hplain)

theorem Inv.heard (hlex : ∀ b, (e b).plat.CmpLex) (h : Inv e own s) {rest : List Packet}
    (hnext : (s.party !b).outbox = pkt :: rest) : Inv e own (s.heard e b source pkt) := by
  unfold Handshake.heard
  split
  · exact h
  · rename_i plain hplain
    have hsession := h.arrives (hnext ▸ List.mem_cons_self) hplain
    refine h.moved hlex (fun _ _ heq _ => by cases heq; exact hsession) fun hmet => ?_
    by_cases hdeaf : (s.party b).station.Deaf
    · rw [Station.hear_deaf hdeaf]
      exact (h.sound b).vacant hmet
    · have hnot : ¬ (s.party b).Ready := by
        rintro (hyes | hyes)
        · exact absurd (hyes.symm.trans hmet) Bool.noConfusion
        · exact hdeaf hyes
      refine h.quiet hlex (fun _ _ heq _ => ?_) hmet
      cases heq
      exact h.next_quiet hnext hnot hplain

theorem Inv.takes (hlex : ∀ b, (e b).plat.CmpLex) (h : Inv e own s) {rest : List Packet}
    (hnext : (s.party !b).outbox = pkt :: rest)
    (hplain : Packet.receive (e b) pkt.wire = some plain) (hhello : plain.isHello = true)
    (hstep : s.InStep e (.deliver b source)) (hdeaf : ¬ (s.party b).station.Deaf) :
    (s.party b).station.takes (e b) source plain = true := by
  by_cases hmulti : (e b).isMultiPeer = true ∨ (e !b).isMultiPeer = true
  · exact hstep hmulti pkt (by rw [hnext]; rfl) plain hplain hhello
  · have hown : ∀ c, (e c).isMultiPeer ≠ true → (s.party c).station.own (e c) ≠ none :=
      fun c hno hnone => hno ((h.sound c).fits.multi hnone)
    obtain ⟨hmine, htheirs⟩ := not_or.mp hmulti
    have hother := hown (!b) htheirs
    rw [(h.sound !b).own] at hother
    obtain ⟨session, hsome⟩ := Option.ne_none_iff_exists'.mp hother
    exact ((h.sound b).knows session hsome).takes (hlex b) (hown b hmine)
      (h.arrives (hnext ▸ List.mem_cons_self) hplain session hsome) hdeaf source

theorem Inv.heard_ready (hlex : ∀ b, (e b).plat.CmpLex) (hpath : ∀ b, 0 < (e b).nPath)
    (hpair : ∀ b, own b = none → own (!b) ≠ none) (h : Inv e own s) {rest : List Packet}
    (hnext : (s.party !b).outbox = pkt :: rest) (hstep : s.InStep e (.deliver b source))
    (hhello : Hello (e b) pkt) : ((s.heard e b source pkt).party b).Ready := by
  obtain ⟨plain, hplain, hhello⟩ := hhello
  simp only [Handshake.heard, hplain, move]
  rw [set_self]
  by_cases hdeaf : (s.party b).station.Deaf
  · exact .inr (Station.step_deaf hdeaf _)
  · have halive := Station.hear_hello (hlex b) (hpath b) (h.sound b).fits
      (h.concerns hpair (hnext ▸ List.mem_cons_self) hplain)
      (h.takes hlex hnext hplain hhello hstep hdeaf) hhello
    refine .inl ?_
    change ((s.party b).met || _) = true
    rw [halive, Bool.or_true]

theorem Inv.deliver (hlex : ∀ b, (e b).plat.CmpLex) (hpath : ∀ b, 0 < (e b).nPath)
    (hpair : ∀ b, own b = none → own (!b) ≠ none) (h : Inv e own s)
    (hstep : s.InStep e (.deliver b source)) : Inv e own (s.step e (.deliver b source)) := by
  cases hnext : (s.party !b).outbox with
  | nil =>
    have hsame : s.step e (.deliver b source) = s := by simp only [step, hnext]
    rw [hsame]
    exact h
  | cons pkt rest =>
    have hheard : Inv e own (s.heard e b source pkt) := h.heard hlex hnext
    have hother := heard_other (e := e) s b source pkt
    have hsound := hheard.sound !b
    have hgreets := hheard.greets !b
    rw [hother] at hsound hgreets
    rw [step_deliver hnext]
    refine hheard.set ⟨hsound.fits, hsound.own, hsound.knows, hsound.draft, ?_, hsound.sent,
      hsound.idle, hsound.vacant⟩ (fun hready => by rwa [hother] at hready) ?_
    · intro session hmine pkt' hpkt'
      refine hsound.outbox session hmine pkt' ?_
      rw [hnext]
      exact List.mem_cons_of_mem _ hpkt'
    · rw [hnext, Bool.not_not] at hgreets
      rw [Bool.not_not]
      exact hgreets.take (h.heard_ready hlex hpath hpair hnext hstep)

theorem Inv.deliver_undelivered (hlex : ∀ b, (e b).plat.CmpLex)
    (hpair : ∀ b, own b = none → own (!b) ≠ none) (h : Inv e own s)
    (hmet : (s.party b).met = false) (source : Endpoint) :
    undelivered ((s.step e (.deliver b source)).party b).station.log =
      undelivered (s.party b).station.log := by
  cases hnext : (s.party !b).outbox with
  | nil => simp only [step, hnext]
  | cons pkt rest =>
    have hmem : pkt ∈ (s.party !b).outbox := hnext ▸ List.mem_cons_self
    rw [step_deliver hnext, set_not]
    unfold Handshake.heard
    split
    · rfl
    · rename_i plain hplain
      unfold move
      rw [set_self]
      change undelivered ((s.party b).station.step (e b) (.hear source plain)).log = _
      by_cases hdeaf : (s.party b).station.Deaf
      · rw [Station.hear_deaf hdeaf]
      · have hnot : ¬ (s.party b).Ready := by
          rintro (hyes | hyes)
          · exact absurd (hyes.symm.trans hmet) Bool.noConfusion
          · exact hdeaf hyes
        refine (Station.step_vacant (hlex b) (h.sound b).fits ((h.sound b).vacant hmet)
          fun _ _ heq _ => ?_).2 source plain rfl (h.concerns hpair hmem hplain)
        cases heq
        exact h.next_quiet hnext hnot hplain

theorem Inv.step (hlex : ∀ b, (e b).plat.CmpLex) (haead : ∀ b, (e b).Aead (e !b))
    (hpath : ∀ b, 0 < (e b).nPath) (hpair : ∀ b, own b = none → own (!b) ≠ none)
    (h : Inv e own s) {input : Input} (hstep : s.InStep e input) : Inv e own (s.step e input) := by
  cases input with
  | draft b =>
    refine h.set { h.sound b with draft := ?_ } id (h.greets b)
    intro states hstates
    obtain ⟨slot, -, rfl⟩ := Option.map_eq_some_iff.mp hstates
    exact slot.healthStates_length (e b)
  | ping b seqNum =>
    simp only [Handshake.step]
    split
    · exact h
    · rename_i ping wire hping
      refine h.set { h.sound b with
        draft := by simp
        outbox := Party.append_session (h.sound b).outbox ((h.sound b).ping_session hping)
        idle := fun hno => (h.sound b).idle (Bool.or_eq_false_iff.mp hno).1 } id
          ((h.greets b).put (fun hdata => ?_) fun hgreeted => ?_)
      · rw [Party.ping_has hping (by decide)] at hdata
        exact absurd hdata (by decide)
      · exact (Bool.or_eq_true_iff.mp hgreeted).imp_right fun hhello =>
          ⟨ping, (h.sound b).ping_received (haead b) hping, hhello⟩
  | data b packed =>
    simp only [Handshake.step]
    split
    · rename_i hopen
      split
      · exact h
      · rename_i outer houter
        have hgreeted : (s.party b).greeted = true := hstep (Bool.and_eq_true_iff.mp hopen).1
        exact h.set ((h.sound b).sends (hlex b) hgreeted houter)
          (fun hready => hready.imp_right fun hdeaf => Station.step_deaf hdeaf _)
          ((h.greets b).put (fun _ => hgreeted) .inl)
    · exact h
  | resend b n =>
    simp only [Handshake.step]
    split
    · exact h
    · split
      · exact h
      · rename_i pkt hpkt
        have hsent : pkt ∈ (s.party b).sent := List.mem_of_getElem? hpkt
        have hgreeted : (s.party b).greeted = true := by
          by_contra hno
          rw [(h.sound b).idle (Bool.not_eq_true _ ▸ hno)] at hsent
          cases hsent
        exact h.set { h.sound b with
          outbox := Party.append_session (h.sound b).outbox fun session hmine =>
            (h.sound b).sent session hmine pkt hsent } id
          ((h.greets b).put (fun _ => hgreeted) .inl)
  | close b =>
    simp only [Handshake.step]
    split
    · exact h.set { h.sound b with } id (h.greets b)
    · rename_i fin hfin
      refine h.set { h.sound b with
        outbox := Party.append_session (h.sound b).outbox ((h.sound b).fin_session hfin) } id
          ((h.greets b).put (fun hdata => ?_) .inl)
      exact absurd (hdata.symm.trans (Party.fin_has hfin).2.1) Bool.noConfusion
  | deliver b source => exact h.deliver hlex hpath hpair hstep
  | answer b source pkt =>
    simp only [Handshake.step]
    split
    · rename_i hanswer
      obtain ⟨hanswer, hall⟩ := Bool.and_eq_true_iff.mp hanswer
      refine h.moved hlex (fun _ _ heq _ session hother => ?_)
        (h.quiet hlex fun _ _ heq _ => ?_)
      · cases heq
        rw [(h.sound !b).own, show own (!b) = some session from hother] at hall
        exact of_decide_eq_true hall
      · cases heq
        exact (Packet.isAnswer_iff.mp hanswer).1
    · exact h
  | stranger b source pkt =>
    simp only [Handshake.step]
    split
    · exact h
    · rename_i hother
      refine h.moved hlex (fun _ _ heq hown => ?_) (h.quiet hlex fun _ _ heq hconcerns => ?_)
      · cases heq
        exact absurd (Station.concerns_of_own hown pkt) hother
      · cases heq
        exact absurd hconcerns hother
  | poll b =>
    exact h.moved hlex (fun _ _ heq => by cases heq)
      (h.quiet hlex fun _ _ heq => by cases heq)

end

end Handshake

end Porter
