import Porter.Delivery.InOrder
import Porter.Platform
import Porter.Send.Progress

namespace Porter

-- The inputs bring the packets in their order, one by one; `between n` says what else may come
-- while the number `n` is expected.
inductive Arrives {ι : Type} (carries : ι → Packet → Prop) (between : UInt32 → ι → Prop) :
    UInt32 → List ι → List Packet → Prop
  | nil (seq : UInt32) : Arrives carries between seq [] []
  | between {seq : UInt32} {input : ι} {inputs : List ι} {pkts : List Packet}
      (h : between seq input) (hrest : Arrives carries between seq inputs pkts) :
      Arrives carries between seq (input :: inputs) pkts
  | data {seq : UInt32} {input : ι} {inputs : List ι} {pkt : Packet} {pkts : List Packet}
      (h : carries input pkt) (hrest : Arrives carries between (seq + 1) inputs pkts) :
      Arrives carries between seq (input :: inputs) (pkt :: pkts)

-- DATA packets of one session with successive numbers.
def Numbered (session : SessionHdr) : UInt32 → List Packet → Prop
  | _, [] => True
  | seq, pkt :: pkts => pkt.flags = FLAG_DATA ∧ pkt.session = session ∧ pkt.seqNum = seq ∧
      Numbered session (seq + 1) pkts

section

variable {σ ι : Type} {carries : ι → Packet → Prop} {between : UInt32 → ι → Prop} {e : Env}
  {session : SessionHdr}

theorem run_awaits (step : σ → ι → σ) (connected : σ → Prop)
    (awaits : UInt32 → Reassembly → List Bytes → σ → Prop)
    (hbetween : ∀ s input seq frag out, between seq input → connected (step s input) →
      awaits seq frag out s → awaits seq frag out (step s input))
    (hdata : ∀ s input pkt seq frag out, carries input pkt → connected s →
      pkt.flags = FLAG_DATA → pkt.session = session → pkt.seqNum = seq → awaits seq frag out s →
      awaits (seq + 1) (frag.feedAll e (Packet.unpackAll pkt.payload)).1
        (out ++ (frag.feedAll e (Packet.unpackAll pkt.payload)).2) (step s input))
    {seq : UInt32} {inputs : List ι} {pkts : List Packet} {frag : Reassembly} {out : List Bytes}
    {s : σ} (harrives : Arrives carries between seq inputs pkts)
    (hnumbered : Numbered session seq pkts)
    (hconnected : ∀ k ≤ inputs.length, connected ((inputs.take k).foldl step s))
    (h : awaits seq frag out s) :
    awaits (seq + UInt32.ofNat pkts.length)
      (frag.feedAll e (pkts.flatMap fun pkt => Packet.unpackAll pkt.payload)).1
      (out ++ (frag.feedAll e (pkts.flatMap fun pkt => Packet.unpackAll pkt.payload)).2)
      (inputs.foldl step s) := by
  induction harrives generalizing frag out s with
  | nil => simpa [Reassembly.feedAll] using h
  | between hinput _ ih =>
    refine ih hnumbered (fun k hk => hconnected (k + 1) (Nat.succ_le_succ hk)) ?_
    exact hbetween _ _ _ _ _ hinput (hconnected 1 (by simp)) h
  | data hinput _ ih =>
    obtain ⟨hflags, hsession, hnum, hrest⟩ := hnumbered
    have hnext := ih hrest (fun k hk => hconnected (k + 1) (Nat.succ_le_succ hk))
      (hdata _ _ _ _ _ _ hinput (hconnected 0 (Nat.zero_le _)) hflags hsession hnum h)
    rw [List.flatMap_cons, Reassembly.feedAll_append, ← List.append_assoc, List.length_cons]
    rwa [UInt32.add_assoc, show (1 : UInt32) = UInt32.ofNat 1 from rfl, ← UInt32.ofNat_add,
      Nat.add_comm] at hnext

end

-- Packets as they are once the receiver has authenticated them.
def Packet.arrivals (er : Env) (pkts : List Packet) : List Packet :=
  pkts.filterMap fun pkt => receive er pkt.wire

def Slot.ownSession (e : Env) (slot : Slot) : SessionHdr :=
  (Packet.fillSessionHdr (slot.ownSessionHdr e)).session

section

variable {es er : Env} {hdr : PacketSessionHdr} {s : Sender} {groups parts : List (List Elem)}
  {packing : List Elem}

private theorem numbered_containers (hdr : PacketSessionHdr) (groups : List (List Elem)) (n : Nat) :
    Numbered (Packet.fillSessionHdr hdr).session (UInt32.ofNat n)
      (groups.mapIdx fun i group => plainContainer hdr (UInt32.ofNat (n + i)) group) := by
  induction groups generalizing n with
  | nil => trivial
  | cons group groups ih =>
    rw [List.mapIdx_cons]
    refine ⟨rfl, rfl, rfl, ?_⟩
    rw [show (1 : UInt32) = UInt32.ofNat 1 from rfl, ← UInt32.ofNat_add]
    have hshift : (fun i group => plainContainer hdr (UInt32.ofNat (n + (i + 1))) group) =
        fun i group => plainContainer hdr (UInt32.ofNat (n + 1 + i)) group := by
      funext i group
      rw [show n + (i + 1) = n + 1 + i by omega]
    rw [hshift]
    exact ih (n + 1)

-- What a sender that is done has sent, as it arrives: the packets are numbered from 0 and their
-- elements are, one after the other, its messages.
theorem Sender.Stream.arrivals_done (hcodec : es.Codec er) (hcrypto : es.Crypto er)
    (hservice : hdr.serviceId = es.serviceId) (h : s.Stream es hdr groups packing parts)
    (hdone : s.Done) :
    Numbered (Packet.fillSessionHdr hdr).session 0 (Packet.arrivals er s.sent) ∧
      Reassembly.empty.feedAll er
          ((Packet.arrivals er s.sent).flatMap fun pkt => Packet.unpackAll pkt.payload) =
        (Reassembly.empty, s.accepted) := by
  rw [Packet.arrivals, h.arrivals hcrypto hservice]
  refine ⟨?_, ?_⟩
  · have hnumbered := numbered_containers hdr groups 0
    simp only [Nat.zero_add] at hnumbered
    exact hnumbered
  · have hall := (flatMap_plainContainers h.fits groups.length : ((groups.mapIdx fun i group =>
      plainContainer hdr (UInt32.ofNat i) group).take groups.length).flatMap _ = _)
    rw [List.take_length, List.take_of_length_le (by simp)] at hall
    rw [hall]
    exact h.feedAll_done hcodec hdone

-- A sender whose destination can be sent to gets everything it is given into packets that are
-- neither empty nor too long for the receiver.
private theorem sent_payload (hcrypto : es.Crypto er) (hservice : hdr.serviceId = es.serviceId)
    (h : s.Stream es hdr groups packing parts) {pkt : Packet} (hpkt : pkt ∈ s.sent) :
    0 < pkt.payload.length ∧ pkt.payload.length ≤ er.maxPayload ∧
      (Packet.receive er pkt.wire).isSome = true := by
  obtain ⟨i, hi⟩ := List.mem_iff_getElem?.mp hpkt
  obtain ⟨group, hgroup, hcontainer⟩ := h.sent i pkt hi
  have hfits := h.fits group (List.mem_of_getElem? hgroup)
  obtain ⟨hpos, hle⟩ := container_payload hcrypto hfits hcontainer
  rw [hcrypto.maxPayload] at hle
  rw [receive_container hcrypto hservice hfits hcontainer]
  exact ⟨hpos, hle, rfl⟩

end

-- Whatever the application passes to one destination arrives, however its threads take turns:
-- they can always finish; all they put on the network are their containers, each once for every
-- destination; no DATA packet to a destination is empty or too long; and once they have finished,
-- a receiver that has consumed nothing of the session yet and stays connected hands over exactly
-- these messages when the DATA packets that were sent to one destination reach it in order.
theorem message_round_trip {es er : Env} (hcodec : es.Codec er) (hcrypto : es.Crypto er)
    (hlex : er.plat.CmpLex) (hreceives : er.Receives) {slot : Slot}
    (hfresh : slot.sendWindow.nextSeq = 0) (tcpActivePaths : Nat) {calls : List (Bytes × Bool)}
    (hcalls : ∀ call ∈ calls, 0 < call.1.length ∧ call.1.length ≤ es.maxMessageSize)
    (hserves : (Sender.start slot tcpActivePaths calls).Serves es) (acts : List Sender.Action)
    {s : Sender} (hs : (Sender.start slot tcpActivePaths calls).run es acts = s) {dest : Path × Endpoint}
    (hdest : slot.SendsTo es dest) :
    (∃ more, (s.run es more).Done) ∧
    slot.since s.slot = (slot.dataSince s.slot dest).flatMap (slot.dataActs es true) ∧
    (∀ pkt ∈ slot.dataSince s.slot dest, 0 < pkt.payload.length ∧
      pkt.payload.length ≤ er.maxPayload ∧ (Packet.receive er pkt.wire).isSome = true) ∧
    (s.Done →
      (er.type.isTcpType = false → ∀ (r : Slot) (inputs : List Slot.Input),
        (r.view er).Awaits er (slot.ownSession es) 0 Reassembly.empty (delivered r.log) →
        Arrives (Slot.Input.Carries er) (Slot.Input.Between (slot.ownSession es)) 0 inputs
          (Packet.arrivals er (slot.dataSince s.slot dest)) →
        (∀ k ≤ inputs.length, (r.run er (inputs.take k)).healthAlive = true) →
        delivered (r.run er inputs).log = delivered r.log ++ calls.map Prod.fst) ∧
      (er.type = .unicastBidirN1 → ∀ (r : Ctx) (i : Nat) (inputs : List Slot.Input),
        r.Awaits er i (slot.ownSession es) 0 Reassembly.empty (delivered r.log) →
        Arrives (Slot.Input.Carries er) (Slot.Input.Between (slot.ownSession es)) 0 inputs
          (Packet.arrivals er (slot.dataSince s.slot dest)) →
        (∀ k ≤ inputs.length, ((r.run er (inputs.take k)).peers i).healthAlive = true) →
        delivered (r.run er inputs).log = delivered r.log ++ calls.map Prod.fst) ∧
      (er.type.isTcpType = true →
        ∀ (r : TcpCtx) (up : Path → Bool) (inputs : List TcpCtx.Input),
        r.Awaits er (slot.ownSession es) 0 Reassembly.empty (delivered r.log) →
        Arrives (TcpCtx.Input.Carries up) (fun _ => TcpCtx.Input.Between (slot.ownSession es)) 0
          inputs (Packet.arrivals er (slot.dataSince s.slot dest)) →
        (∀ k ≤ inputs.length, (r.run er (inputs.take k)).healthAlive = true ∧
          ∀ path, up path = true → (r.run er (inputs.take k)).running path = true) →
        delivered (r.run er inputs).log = delivered r.log ++ calls.map Prod.fst)) := by
  have hactive : es.isMultiPeer = true → slot.active = true := fun hmulti =>
    (hserves.2.2.2 hmulti).2.1
  obtain ⟨groups, packing, parts, hstream⟩ := Sender.run_stream hcrypto
    (Sender.start_stream hfresh hactive tcpActivePaths calls) acts
  have htakes : Sender.Takes es (calls.map Prod.fst) _ :=
    Sender.run_takes hcodec ⟨hserves, rfl, hcalls⟩ acts
  have hemits : Sender.Emits es slot _ := Sender.run_emits slot tcpActivePaths calls acts
  rw [hs] at hstream htakes hemits
  have hcallback := hreceives.callback
  rw [hemits.dataSince hdest]
  refine ⟨hstream.exists_done hcrypto, Slot.since_of_log hemits.log,
    fun pkt => sent_payload hcrypto rfl hstream, fun hdone => ?_⟩
  obtain ⟨hnumbered, hfeed⟩ := hstream.arrivals_done hcodec hcrypto rfl hdone
  rw [htakes.accepted_of_done hdone] at hfeed
  refine ⟨fun hudp r inputs hawaits harrives hconnected => ?_,
    fun hkind r i inputs hawaits harrives hconnected => ?_,
    fun htcp r up inputs hawaits harrives hconnected => ?_⟩
  · have hrecv : er.role = .receiver ∨ er.type = .unicastBidir := by
      rcases hreceives with h | h | h
      · exact .inl h
      · exact .inr h
      · rw [h] at hudp
        cases hudp
    have hrun := run_awaits (Slot.step er) (fun r => r.healthAlive = true)
      (fun seq frag out r => (Slot.view er r).Awaits er (slot.ownSession es) seq frag out)
      (fun _ _ _ _ _ hinput halive h => Slot.step_between hlex hrecv h hinput halive)
      (fun _ _ _ _ _ _ hinput halive hflags hsession hnum h =>
        Slot.step_data hlex hudp hrecv hcallback h halive hinput hflags hsession hnum)
      harrives hnumbered hconnected hawaits
    rw [hfeed] at hrun
    exact hrun.out
  · have hrun := run_awaits (Ctx.step er) (fun r => (r.peers i).healthAlive = true)
      (fun seq frag out r => Ctx.Awaits er i (slot.ownSession es) seq frag out r)
      (fun _ _ _ _ _ hinput halive h => Ctx.step_between hlex hkind h hinput halive)
      (fun _ _ _ _ _ _ hinput halive hflags hsession hnum h =>
        Ctx.step_data hlex hkind hcallback h halive hinput hflags hsession hnum)
      harrives hnumbered hconnected hawaits
    rw [hfeed] at hrun
    exact hrun.slot.out
  · have hrun := run_awaits (TcpCtx.step er)
      (fun r => r.healthAlive = true ∧ ∀ path, up path = true → r.running path = true)
      (fun seq frag out r => TcpCtx.Awaits er (slot.ownSession es) seq frag out r)
      (fun _ _ _ _ _ hinput _ h => TcpCtx.step_between hlex h hinput)
      (fun _ _ _ _ _ _ hinput hup hflags hsession hnum h =>
        TcpCtx.step_data hlex hcallback h hup.1 hup.2 hinput hflags hsession hnum)
      harrives hnumbered hconnected hawaits
    rw [hfeed] at hrun
    exact hrun.slot.elim (·.out) (·.out)

-- A sender that has sent two messages: one in two fragments and, packed with the second of them,
-- one that was compressed. `sampleData` are its DATA packets on the second path.
def Slot.sampleSending : Slot :=
  Slot.opened (Env.sampleSealedSender .unicast) 5 ⟨9, 0⟩ fun _ => .target

def Sender.sample : Sender :=
  (Sender.start .sampleSending 0 [(List.replicate 58 7 ++ [1, 2], false), (Cplat.word, true)]).run
    (Env.sampleSealedSender .unicast)
    [.call, .push, .pop, .flush, .push, .call, .push, .pop, .pack, .flush]

def Sender.sampleData : List Packet :=
  Slot.sampleSending.dataSince Sender.sample.slot (1, .target)

private theorem arrives_map {ι : Type} {carries : ι → Packet → Prop} {between : UInt32 → ι → Prop}
    (toInput : Packet → ι) (h : ∀ pkt, carries (toInput pkt) pkt) (seq : UInt32)
    (pkts : List Packet) : Arrives carries between seq (pkts.map toInput) pkts := by
  induction pkts generalizing seq with
  | nil => exact .nil seq
  | cons pkt pkts ih => exact .data (h pkt) (ih (seq + 1))

-- Receivers that have heard of its session and are connected.
def Slot.sampleJoined : Slot :=
  (Slot.sample (Env.sampleSealed .unicast)).step (Env.sampleSealed .unicast) (.sample (.samplePing 0))

def Ctx.sampleJoined : Ctx :=
  (Ctx.opened (Env.sampleSealed .unicastBidirN1)).step (Env.sampleSealed .unicastBidirN1)
    (.sample (.samplePing 0))

def TcpCtx.sampleJoined : TcpCtx :=
  (TcpCtx.opened (Env.sampleSealed .tcp) 3 ⟨2, 0⟩ fun _ => .target).run (Env.sampleSealed .tcp)
    [.accept 0 (.samplePing 0), .start 0, .packet 0 (.samplePing 0)]

private theorem sampleJoined_awaits :
    (Slot.sampleJoined.view (Env.sampleSealed .unicast)).Awaits (Env.sampleSealed .unicast) ⟨5, ⟨9, 0⟩⟩ 0
      Reassembly.empty (delivered Slot.sampleJoined.log) := by
  have hok : Slot.sampleJoined.peer = none ∧ Slot.Ok (Env.sampleSealed .unicast) Slot.sampleJoined :=
    Slot.run_ok (e := Env.sampleSealed .unicast) Cplat.reference_cmpLex rfl
      (Slot.opened_ok 3 ⟨2, 0⟩ fun _ => .target) [.sample (.samplePing 0)]
  exact .of_init hok.2.inv (.inl hok.1) rfl rfl rfl

private theorem sampleJoined_peer_awaits :
    Ctx.sampleJoined.Awaits (Env.sampleSealed .unicastBidirN1) 0 ⟨5, ⟨9, 0⟩⟩ 0 Reassembly.empty
      (delivered Ctx.sampleJoined.log) := by
  have htable : Ctx.Table (Env.sampleSealed .unicastBidirN1) Ctx.sampleJoined :=
    Ctx.Changes.table (e := Env.sampleSealed .unicastBidirN1) Cplat.reference_cmpLex
      (Ctx.step_changes Cplat.reference_cmpLex rfl Ctx.opened_table (.sample (.samplePing 0)))
      Ctx.opened_table
  exact ⟨htable, by decide, rfl,
    .of_init (htable.ok 0 (by decide) rfl).inv (.inr rfl) rfl rfl rfl⟩

private theorem sampleJoined_tcp_awaits :
    TcpCtx.sampleJoined.Awaits (Env.sampleSealed .tcp) ⟨5, ⟨9, 0⟩⟩ 0 Reassembly.empty
      (delivered TcpCtx.sampleJoined.log) :=
  ⟨.inr ⟨⟨fun h => absurd rfl h, Window.init_wf (by decide) (by decide), rfl, fun _ => rfl⟩,
    .inl rfl, rfl, rfl, rfl⟩, .inr rfl⟩

theorem message_round_trip_sample :
    delivered (Slot.sampleJoined.run (Env.sampleSealed .unicast)
      ((Packet.arrivals (Env.sampleSealed .unicast) Sender.sampleData).map .sample)).log =
        [List.replicate 58 7 ++ [1, 2], Cplat.word] ∧
    delivered (Ctx.sampleJoined.run (Env.sampleSealed .unicastBidirN1)
      ((Packet.arrivals (Env.sampleSealed .unicastBidirN1) Sender.sampleData).map .sample)).log =
        [List.replicate 58 7 ++ [1, 2], Cplat.word] ∧
    delivered (TcpCtx.sampleJoined.run (Env.sampleSealed .tcp)
      ((Packet.arrivals (Env.sampleSealed .tcp) Sender.sampleData).map (TcpCtx.Input.packet 0))).log =
        [List.replicate 58 7 ++ [1, 2], Cplat.word] := by
  have hcodec : ∀ type, (Env.sampleSealedSender .unicast).Codec (Env.sampleSealed type) := fun _ =>
    Cplat.reference_codec rfl rfl rfl
  have hcrypto : ∀ type, (Env.sampleSealedSender .unicast).Crypto (Env.sampleSealed type) := fun _ =>
    Cplat.reference_crypto rfl rfl rfl rfl rfl rfl
  have hcarries : ∀ type pkt, (Slot.Input.sample pkt).Carries (Env.sampleSealed type) pkt :=
    fun _ _ => ⟨0, .source, Nat.zero_lt_two, rfl⟩
  have hdone : Sender.sample.Done := by decide +kernel
  have hdest : Slot.sampleSending.SendsTo (Env.sampleSealedSender .unicast) (1, .target) :=
    .inr (by decide)
  have hround := fun (type : PotrType) => (message_round_trip (hcodec type) (hcrypto type)
    Cplat.reference_cmpLex (.inl rfl) rfl 0 (by decide) (by decide +kernel) _
    (rfl : _ = Sender.sample) hdest).2.2.2 hdone
  refine ⟨?_, ?_, ?_⟩
  · exact (hround .unicast).1 rfl _ _ sampleJoined_awaits (arrives_map _ (hcarries _) 0 _)
      (by decide +kernel)
  · exact (hround .unicastBidirN1).2.1 rfl _ 0 _ sampleJoined_peer_awaits
      (arrives_map _ (hcarries _) 0 _) (by decide +kernel)
  · exact (hround .tcp).2.2 rfl _ (fun path => path = 0) _ sampleJoined_tcp_awaits
      (arrives_map _ (fun _ => ⟨0, rfl, rfl⟩) 0 _) (by decide +kernel)

end Porter
