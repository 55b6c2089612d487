import Porter.Connection.Spares
import Porter.Connection.Table
import Porter.Delivery.Answer
import Porter.Platform
import Porter.Recv.Wire

namespace Porter

-- What the library emits for a packet it has built: the packet before encryption and the one whose
-- bytes are written. Each case is one place of the source that builds and seals packets.
inductive Emission (e : Env) : (plain sent : Packet) → Prop where
  -- flush_packed and flush_packed_peer
  | data {shdr : PacketSessionHdr} {seqNum : UInt32} {packed : Bytes} {plain sent : Packet}
      (hservice : shdr.serviceId = e.serviceId) (hlimit : packed.length ≤ Sender.packLimit e)
      (hbuilt : Packet.buildPacked shdr seqNum packed = some plain)
      (hsent : plain.sealData e = some sent) : Emission e plain sent
  -- the PINGs of health_thread_func and tcp_send_ping_packet
  | ping {shdr : PacketSessionHdr} {seqNum : UInt32} {healthStates : Bytes} {sent : Packet}
      (hservice : shdr.serviceId = e.serviceId) (hstates : healthStates.length = MAX_PATH)
      (hsent : (Packet.buildPing shdr seqNum healthStates).sealData e = some sent) :
      Emission e (Packet.buildPing shdr seqNum healthStates) sent
  -- slot_send_nack
  | nack {shdr : PacketSessionHdr} {nackNum : UInt32} {sent : Packet}
      (hservice : shdr.serviceId = e.serviceId)
      (hsent : (Packet.buildNack shdr nackNum).buildCtrlPktWire e = some sent) :
      Emission e (Packet.buildNack shdr nackNum) sent
  -- slot_send_reject
  | reject {shdr : PacketSessionHdr} {seqNum : UInt32} {sent : Packet}
      (hservice : shdr.serviceId = e.serviceId)
      (hsent : (Packet.buildReject shdr seqNum).buildCtrlPktWire e = some sent) :
      Emission e (Packet.buildReject shdr seqNum) sent
  -- send_fin and potr_internal_peer_send_fin
  | fin {shdr : PacketSessionHdr} {hasData : Bool} {nextSeq : UInt32} {sent : Packet}
      (hservice : shdr.serviceId = e.serviceId)
      (hsent : (Packet.finOf shdr hasData nextSeq).sealFin e = some sent) :
      Emission e (Packet.finOf shdr hasData nextSeq) sent
  -- send_tcp_fin
  | tcpFin {shdr : PacketSessionHdr} {finTargetSeq : UInt32} {sent : Packet}
      (hservice : shdr.serviceId = e.serviceId)
      (hsent : (Packet.finOf shdr true finTargetSeq).tcpSendControlPacket e 0 = some sent) :
      Emission e (Packet.finOf shdr true finTargetSeq) sent
  -- the FIN_ACK of thread_recv_fin_fire
  | finAck {shdr : PacketSessionHdr} {finTargetSeq : UInt32} {sent : Packet}
      (hservice : shdr.serviceId = e.serviceId)
      (hsent : (Packet.buildFinAck shdr finTargetSeq).tcpSendControlPacket e finTargetSeq =
        some sent) :
      Emission e (Packet.buildFinAck shdr finTargetSeq) sent

section

variable {e er : Env} {plain sent : Packet}

-- What there is to check of a packet with given flags. `ack` says which number of its header the
-- authenticator looks for.
private theorem sealed_of_flags (flags : UInt16) (ack : Bool) {num : UInt32}
    (hflags : plain.flags = flags) (hversion : plain.protocolVersion = PROTOCOL_VERSION)
    (hplain : flags &&& FLAG_ENCRYPTED = 0)
    (hpayload : (flags &&& (FLAG_DATA ||| FLAG_PING) != 0) = true ∨ plain.payload = [])
    (hack : (!(flags &&& (FLAG_DATA ||| FLAG_PING) != 0) &&
      (flags &&& (FLAG_NACK ||| FLAG_REJECT ||| FLAG_FIN_ACK) != 0)) = ack)
    (hnum : num = if ack then plain.ackNum else plain.seqNum)
    (hsent : plain.sealAs e num = some sent) :
    plain.Built ∧ plain.sealAs e plain.nonceNum = some sent := by
  refine ⟨⟨hversion, hflags ▸ hplain, ?_⟩, ?_⟩
  · rw [Packet.has_of_flags hflags]
    exact hpayload
  · unfold Packet.nonceNum
    rw [Packet.has_of_flags hflags, Packet.has_of_flags hflags, hack, ← hnum]
    exact hsent

private theorem buildPacked_eq {shdr : PacketSessionHdr} {seqNum : UInt32} {packed : Bytes}
    (h : Packet.buildPacked shdr seqNum packed = some plain) :
    plain = { Packet.fillSessionHdr shdr with
      seqNum := seqNum, flags := FLAG_DATA, payload := packed } := by
  unfold Packet.buildPacked at h
  split at h
  · cases h
  · exact (Option.some.inj h).symm

-- Every encoder puts the number into the nonce that the authenticator looks for.
theorem Emission.sealed (h : Emission e plain sent) :
    plain.Built ∧ plain.sealAs e plain.nonceNum = some sent := by
  cases h with
  | data _ _ hbuilt hsent =>
    obtain rfl := buildPacked_eq hbuilt
    exact sealed_of_flags FLAG_DATA false rfl rfl (by decide) (.inl (by decide)) (by decide) rfl hsent
  | ping _ _ hsent =>
    exact sealed_of_flags FLAG_PING false rfl rfl (by decide) (.inl (by decide)) (by decide) rfl hsent
  | nack _ hsent =>
    exact sealed_of_flags FLAG_NACK true rfl rfl (by decide) (.inr rfl) (by decide) rfl hsent
  | reject _ hsent =>
    exact sealed_of_flags FLAG_REJECT true rfl rfl (by decide) (.inr rfl) (by decide) rfl hsent
  | @fin _ hasData _ _ _ hsent =>
    cases hasData with
    | true =>
      exact sealed_of_flags (FLAG_FIN ||| FLAG_FIN_TARGET_VALID) false rfl rfl (by decide) (.inr rfl)
        (by decide) rfl hsent
    | false =>
      exact sealed_of_flags FLAG_FIN false rfl rfl (by decide) (.inr rfl) (by decide) rfl hsent
  | tcpFin _ hsent =>
    exact sealed_of_flags (FLAG_FIN ||| FLAG_FIN_TARGET_VALID) false rfl rfl (by decide) (.inr rfl)
      (by decide) rfl hsent
  | finAck _ hsent =>
    exact sealed_of_flags FLAG_FIN_ACK true rfl rfl (by decide) (.inr rfl) (by decide) rfl hsent

theorem Emission.serviceId (h : Emission e plain sent) : plain.serviceId = e.serviceId := by
  cases h with
  | data hservice _ hbuilt _ =>
    obtain rfl := buildPacked_eq hbuilt
    exact hservice
  | @fin _ hasData _ _ hservice _ => cases hasData <;> exact hservice
  | ping hservice _ _ | nack hservice _ | reject hservice _ | tcpFin hservice _ | finAck hservice _ =>
    exact hservice

theorem Emission.fits (h : Emission e plain sent) :
    plain.payload.length + (if e.encryptEnabled then CRYPTO_TAG_SIZE else 0) ≤ e.maxPayload := by
  have hmax := e.bounds.1
  have htag : (if e.encryptEnabled then CRYPTO_TAG_SIZE else 0) ≤ 16 := by
    split <;> simp [CRYPTO_TAG_SIZE]
  have hsmall : plain.payload.length ≤ 4 → plain.payload.length +
      (if e.encryptEnabled then CRYPTO_TAG_SIZE else 0) ≤ e.maxPayload := by
    intro hle
    omega
  cases h with
  | data _ hlimit hbuilt _ =>
    have hpack := (packLimit_le e).1
    obtain rfl := buildPacked_eq hbuilt
    simp only
    omega
  | ping _ hstates _ => exact hsmall hstates.le
  | @fin _ hasData _ _ _ _ => cases hasData <;> exact hsmall (Nat.zero_le 4)
  | nack _ _ | reject _ _ | tcpFin _ _ | finAck _ _ => exact hsmall (Nat.zero_le 4)

-- The receive thread of a UDP service takes what was emitted for what was built.
theorem Emission.received (haead : e.Aead er) (h : Emission e plain sent) :
    Packet.receive er sent.wire = some plain := by
  obtain ⟨hbuilt, hsent⟩ := h.sealed
  exact Packet.receive_sealAs haead hbuilt rfl h.serviceId h.fits hsent

theorem Emission.payload_le (haead : e.Aead er) (h : Emission e plain sent) :
    sent.payload.length ≤ er.maxPayload := by
  rw [Packet.sealAs_length haead h.sealed.2]
  exact h.fits.trans haead.maxPayload

theorem Emission.authenticated (haead : e.Aead er) (h : Emission e plain sent) :
    Packet.parse sent.wire = some sent ∧
      sent.authenticate er (sent.wire.take PACKET_HEADER_SIZE) = some plain := by
  have hlen := h.payload_le haead
  obtain ⟨hbuilt, hsent⟩ := h.sealed
  refine ⟨Packet.parse_wire ((Packet.sealAs_version hsent).trans hbuilt.version)
    (hlen.trans er.bounds.2.1), ?_⟩
  rw [Packet.take_wire_header]
  exact Packet.authenticate_sealAs haead hbuilt rfl hsent

end

-- A packet that goes out as it stands in the log, and that was emitted.
structure Packet.Authored (e : Env) (pkt : Packet) : Prop where
  udp : pkt.onWire e = some pkt
  tcp : pkt.onTcpWire e = some pkt
  emission : ∃ plain, Emission e plain pkt

def Emitted (e : Env) (sent : List Packet) : Prop := ∀ pkt ∈ sent, pkt.Authored e

def Act.Emits (e : Env) (act : Act) : Prop :=
  ∀ sent, act.wired e = some sent → ∃ plain, Emission e plain sent

def Emitting (e : Env) (log : List (UInt32 × Act)) : Prop := ∀ entry ∈ log, entry.2.Emits e

def Window.Authored (e : Env) (win : Window) : Prop := ∀ n, ∀ pkt ∈ win.slots n, pkt.Authored e

-- All that a slot has sent was emitted, and so was what it keeps for retransmission.
structure Slot.Authored (e : Env) (slot : Slot) : Prop where
  log : Emitting e slot.log
  window : slot.sendWindow.Authored e

section

variable {e : Env} {slot slot' : Slot} {pkt : Packet}

theorem Packet.onWire_eq (flags : UInt16) (hflags : pkt.flags = flags) :
    pkt.onWire e = if flags &&& (FLAG_NACK ||| FLAG_REJECT) != 0 then pkt.buildCtrlPktWire e
      else if flags &&& FLAG_FIN != 0 then pkt.sealFin e else some pkt := by
  unfold onWire
  rw [has_of_flags hflags, has_of_flags hflags]

theorem Packet.onTcpWire_eq (flags : UInt16) (hflags : pkt.flags = flags) :
    pkt.onTcpWire e = if flags &&& FLAG_FIN_ACK != 0 then pkt.tcpSendControlPacket e pkt.ackNum
      else if flags &&& FLAG_FIN != 0 then pkt.tcpSendControlPacket e 0 else some pkt := by
  unfold onTcpWire
  rw [has_of_flags hflags, has_of_flags hflags]

-- DATA packets and PINGs stand in the log as they were sealed.
private theorem authored_of_flags (flags : UInt16) {plain : Packet} {num : UInt32}
    (hflags : plain.flags = flags) (hctrl : (flags &&& (FLAG_NACK ||| FLAG_REJECT) != 0) = false)
    (hfin : (flags &&& FLAG_FIN != 0) = false) (hack : (flags &&& FLAG_FIN_ACK != 0) = false)
    (hsealed : plain.sealAs e num = some pkt) (h : Emission e plain pkt) : pkt.Authored e := by
  have hhas := Packet.sealed_has hsealed hflags
  have hno := (hhas FLAG_FIN (by decide)).trans hfin
  refine ⟨?_, ?_, plain, h⟩
  · unfold Packet.onWire
    rw [(hhas (FLAG_NACK ||| FLAG_REJECT) (by decide)).trans hctrl, hno]
    rfl
  · unfold Packet.onTcpWire
    rw [(hhas FLAG_FIN_ACK (by decide)).trans hack, hno]
    rfl

theorem Slot.packedContainer_authored {packed : Bytes} (hlimit : packed.length ≤ Sender.packLimit e)
    (h : slot.packedContainer e packed = some pkt) : pkt.Authored e := by
  obtain ⟨plain, hbuilt, hsealed⟩ := Option.bind_eq_some_iff.mp h
  have hemission : Emission e plain pkt := .data rfl hlimit hbuilt hsealed
  obtain rfl := buildPacked_eq hbuilt
  exact authored_of_flags FLAG_DATA rfl (by decide) (by decide) (by decide) hsealed hemission

theorem Emitted.append {sent : List Packet} (h : Emitted e sent) {packed : Bytes}
    (hlimit : packed.length ≤ Sender.packLimit e) :
    Emitted e (sent ++ (slot.packedContainer e packed).toList) := by
  intro pkt hpkt
  rcases List.mem_append.mp hpkt with hold | hnew
  · exact h pkt hold
  · exact Slot.packedContainer_authored hlimit (Option.mem_toList.mp hnew)

theorem Slot.ping_authored {seqNum : UInt32} {healthStates : Bytes}
    (hstates : healthStates.length = MAX_PATH)
    (h : (Packet.buildPing (slot.ownSessionHdr e) seqNum healthStates).sealData e = some pkt) :
    pkt.Authored e :=
  authored_of_flags FLAG_PING rfl (by decide) (by decide) (by decide) h (.ping rfl hstates h)

theorem Packet.Authored.send (h : pkt.Authored e) (path : Path) (dest : Endpoint) :
    (Act.send path dest pkt).Emits e := by
  intro sent hsent
  obtain rfl := Option.some.inj (h.udp.symm.trans hsent)
  exact h.emission

theorem Packet.Authored.sendTcp (h : pkt.Authored e) : (Act.sendTcp pkt).Emits e := by
  intro sent hsent
  obtain rfl := Option.some.inj (h.tcp.symm.trans hsent)
  exact h.emission

theorem Packet.Authored.dataActs (h : pkt.Authored e) {writable : Bool} :
    ∀ act ∈ slot.dataActs e writable pkt, act.Emits e := by
  intro act hact
  unfold Slot.dataActs at hact
  split at hact
  · split at hact
    · rw [List.mem_singleton.mp hact]
      exact h.sendTcp
    · cases hact
  · obtain ⟨dest, -, rfl⟩ := List.mem_map.mp hact
    exact h.send dest.1 dest.2

theorem Window.Authored.of_slots {win win' : Window} (h : win.Authored e)
    (hslots : ∀ n, ∀ pkt ∈ win'.slots n, pkt ∈ win.slots n) : win'.Authored e :=
  fun n pkt hpkt => h n pkt (hslots n pkt hpkt)

theorem Window.Authored.sendPush {win : Window} (h : win.Authored e) (hpkt : pkt.Authored e) :
    (win.sendPush pkt).Authored e := by
  have hupdate : ∀ {win : Window} (n : Nat), win.Authored e →
      ∀ j, ∀ p ∈ Function.update win.slots n (some pkt) j, p.Authored e := by
    intro win n hwin j p hp
    by_cases hj : j = n
    · subst hj
      rw [Function.update_self] at hp
      obtain rfl := Option.some.inj hp
      exact hpkt
    · rw [Function.update_of_ne hj] at hp
      exact hwin j p hp
  unfold Window.sendPush
  split
  · refine hupdate _ (h.of_slots fun n p hp => ?_)
    change p ∈ Function.update win.slots (win.winIndex win.baseSeq) none n at hp
    by_cases hn : n = win.winIndex win.baseSeq
    · rw [hn, Function.update_self] at hp
      cases hp
    · rwa [Function.update_of_ne hn] at hp
  · exact hupdate _ h

theorem Window.Authored.sendGet {win : Window} (h : win.Authored e) {seq : UInt32}
    (hget : win.sendGet seq = some pkt) : pkt.Authored e := by
  unfold Window.sendGet at hget
  split at hget
  · exact h _ pkt hget
  · cases hget

theorem Slot.Replies.emits (h : slot.Replies e pkt) (hwindow : slot.sendWindow.Authored e)
    (path : Path) (dest : Endpoint) : (Act.send path dest pkt).Emits e := by
  intro sent hsent
  cases h with
  | nack nackNum =>
    rw [Act.wired, Packet.onWire_eq FLAG_NACK rfl, if_pos (by decide)] at hsent
    exact ⟨_, .nack rfl hsent⟩
  | reject seqNum =>
    rw [Act.wired, Packet.onWire_eq FLAG_REJECT rfl, if_pos (by decide)] at hsent
    exact ⟨_, .reject rfl hsent⟩
  | fin hasData nextSeq =>
    have hwired : (Packet.finOf (slot.ownSessionHdr e) hasData nextSeq).onWire e =
        (Packet.finOf (slot.ownSessionHdr e) hasData nextSeq).sealFin e := by
      cases hasData with
      | true =>
        rw [Packet.onWire_eq (FLAG_FIN ||| FLAG_FIN_TARGET_VALID) rfl, if_neg (by decide),
          if_pos (by decide)]
      | false => rw [Packet.onWire_eq FLAG_FIN rfl, if_neg (by decide), if_pos (by decide)]
    exact ⟨_, .fin rfl (hwired.symm.trans hsent)⟩
  | again hget => exact (hwindow.sendGet hget).send path dest sent hsent

theorem Slot.Writes.emits {act : Act} (h : slot.Writes e act)
    (hwindow : slot.sendWindow.Authored e) : act.Emits e := by
  cases act with
  | send path dest pkt => exact Replies.emits h hwindow path dest
  | sendTcp pkt =>
    obtain ⟨finTargetSeq, rfl⟩ := h
    intro sent hsent
    rw [Act.wired, Packet.onTcpWire_eq FLAG_FIN_ACK rfl, if_pos (by decide)] at hsent
    exact ⟨_, .finAck rfl hsent⟩
  | recv | poll | adopt | reset | forget | push | pop | skip | nack | event =>
    intro sent hsent
    cases hsent

namespace Slot.Authored

theorem emits (h : slot.Authored e) {acts : List Act} (hacts : ∀ act ∈ acts, act.Emits e) :
    (slot.emits acts).Authored e := by
  refine ⟨fun entry hentry => ?_, h.window⟩
  rcases List.mem_append.mp hentry with hold | hnew
  · exact h.log entry hold
  · obtain ⟨act, hact, rfl⟩ := List.mem_map.mp hnew
    exact hacts act hact

theorem sendToDests (h : slot.Authored e)
    (hpkt : ∀ path dest, (Act.send path dest pkt).Emits e) : (slot.sendToDests e pkt).Authored e := by
  rw [sendToDests_eq]
  refine h.emits fun act hact => ?_
  obtain ⟨dest, -, rfl⟩ := List.mem_map.mp hact
  exact hpkt dest.1 dest.2

theorem flushPacked (h : slot.Authored e) {packed : Bytes}
    (hlimit : packed.length ≤ Sender.packLimit e) : (slot.flushPacked e packed).Authored e := by
  unfold Slot.flushPacked
  split
  · exact h
  · rename_i outer houter
    have hauthored := packedContainer_authored hlimit houter
    exact sendToDests ⟨h.log, h.window.sendPush hauthored⟩ hauthored.send

theorem flushPackedTcp (h : slot.Authored e) {packed : Bytes}
    (hlimit : packed.length ≤ Sender.packLimit e) (writable : Bool) :
    (slot.flushPackedTcp e packed writable).Authored e := by
  unfold Slot.flushPackedTcp
  split
  · exact h
  · rename_i outer houter
    have hcounted : ({ slot with
        sendWindow := { slot.sendWindow with nextSeq := slot.sendWindow.nextSeq + 1 }
        sendHasData := true } : Slot).Authored e := ⟨h.log, h.window⟩
    split
    · refine hcounted.emits fun act hact => ?_
      rw [List.mem_singleton.mp hact]
      exact (packedContainer_authored hlimit houter).sendTcp
    · exact hcounted

theorem sendPing (h : slot.Authored e) {healthStates : Bytes}
    (hstates : healthStates.length = MAX_PATH) : (slot.sendPing e healthStates).Authored e := by
  unfold Slot.sendPing
  split
  · exact h
  · rename_i ping hping
    exact h.sendToDests (ping_authored hstates hping).send

theorem sendFin (h : slot.Authored e) : (slot.sendFin e).Authored e :=
  h.sendToDests (Replies.emits (.fin _ _) h.window)

theorem of_window (h : slot.Authored e) (hlog : slot'.log = slot.log)
    (hwindow : ∀ n, ∀ pkt ∈ slot'.sendWindow.slots n, pkt ∈ slot.sendWindow.slots n) :
    slot'.Authored e := ⟨hlog ▸ h.log, h.window.of_slots hwindow⟩

end Slot.Authored

theorem Slot.authored_stable (e : Env) (path : Path) (sender : Endpoint) :
    Stable e path sender (Authored e) where
  emits _ hwrites h := h.emits fun act hact => (hwrites act hact).emits h.window
  inner {slot _} h hlinks _ hlog _ _ := by
    refine h.of_window hlog fun n pkt hpkt => ?_
    rwa [← show _ = slot.sendWindow from congrArg Links.sendWindow hlinks]
  sync _ h := ⟨h.log, h.window⟩
  pings _ _ h := ⟨h.log, h.window⟩
  heard _ _ _ h := ⟨h.log, h.window⟩
  learn h := by
    unfold learnSenderPath
    dsimp only
    repeat' split
    all_goals exact ⟨h.log, h.window⟩
  clear _ _ h := ⟨h.log, h.window⟩
  free h := by
    unfold peerFree
    split
    · exact ⟨h.log, h.window⟩
    · exact h
  dedup _ _ h := ⟨h.log, h.window⟩

end

-- The packing loops stop before the room in a container is used up, and a PING carries a state for
-- each path.
def Duplex.Action.Packs (e : Env) : Duplex.Action → Prop
  | .data packed => packed.length ≤ Sender.packLimit e
  | .ping healthStates => healthStates.length = MAX_PATH
  | _ => True

def Duplexes.Action.Packs (e : Env) : Duplexes.Action → Prop
  | .data _ packed => packed.length ≤ Sender.packLimit e
  | .ping _ healthStates => healthStates.length = MAX_PATH
  | _ => True

section

variable {e : Env}

theorem Duplex.run_authored (sessionId : UInt32) (sessionTs : Timespec) (destAddr : Path → Endpoint)
    {actions : List Duplex.Action} (hpacks : ∀ action ∈ actions, action.Packs e) :
    (actions.foldl (act e) (opened e sessionId sessionTs destAddr)).slot.Authored e := by
  refine Run.foldl_preserves_of_mem (P := fun duplex : Duplex => duplex.slot.Authored e) ?_ ?_
  · intro duplex action haction h
    cases action with
    | recv input =>
      exact Slot.Stable.step (Slot.authored_stable e) (fun _ _ h => ⟨h.log, h.window⟩) input h
    | data packed => exact h.flushPacked (hpacks _ haction)
    | ping healthStates => exact h.sendPing (hpacks _ haction)
    | fin => exact h.sendFin
  · exact ⟨fun entry hentry => (nomatch hentry), fun n pkt hpkt => nomatch hpkt⟩

structure Ctx.Authored (e : Env) (ctx : Ctx) : Prop where
  log : Emitting e ctx.log
  window : ∀ i < e.maxPeers, (ctx.peers i).active = true → (ctx.peers i).sendWindow.Authored e

namespace Ctx.Authored

variable {ctx ctx' : Ctx} {i : Nat}

theorem slot (h : ctx.Authored e) (hi : i < e.maxPeers) (hon : (ctx.peers i).active = true) :
    (ctx.slotInitPeer i).Authored e := ⟨h.log, h.window i hi hon⟩

theorem store (h : ctx.Authored e) {slot : Slot} (hslot : slot.Authored e) (nextPeerId : UInt32) :
    (Ctx.store { ctx with nextPeerId := nextPeerId } i slot).Authored e := by
  refine ⟨hslot.log, fun j hj hon => ?_⟩
  by_cases hji : j = i
  · subst hji
    rw [store_peers_self]
    exact hslot.window
  · rw [store_peers_of_ne hji] at hon ⊢
    exact h.window j hj hon

theorem rewrite {S : Endpoint → Prop} (h : ctx.Authored e) (hrewrite : Rewrite e S ctx ctx') :
    ctx'.Authored e := by
  cases hrewrite with
  | idle ctx' hlog _ _ hpeers =>
    refine ⟨hlog ▸ h.log, fun i hi hon => ?_⟩
    have heq := eq_of_idle hpeers hon
    rw [heq] at hon ⊢
    exact h.window i hi hon
  | used i slot path sender hi hactive _ hslot =>
    exact h.store (hslot (Slot.authored_stable e path sender) (h.slot hi hactive)) ctx.nextPeerId
  | joined i fresh slot path sender peerId sessionId nextPeerId sessionTs _ _ _ _ _ hfresh hlog _ _
      hslot =>
    have hempty : fresh.sendWindow = Window.init 0 e.windowSize :=
      congrArg PeerContext.sendWindow hfresh
    refine h.store (hslot (Slot.authored_stable e path sender) ⟨hlog ▸ h.log, ?_⟩) nextPeerId
    rw [hempty]
    exact fun n pkt hpkt => nomatch hpkt

end Ctx.Authored

theorem Duplexes.run_authored {actions : List Duplexes.Action}
    (hpacks : ∀ action ∈ actions, action.Packs e) :
    (actions.foldl (act e) (opened e)).ctx.Authored e := by
  refine Run.foldl_preserves_of_mem (P := fun peers : Duplexes => peers.ctx.Authored e) ?_
    ⟨fun entry hentry => (nomatch hentry), fun i _ hon => absurd hon Bool.false_ne_true⟩
  intro peers action haction h
  cases action with
  | table action =>
    exact Run.star_preserves (P := Ctx.Authored e) (fun _ _ hrewrite h => h.rewrite hrewrite)
      (Ctx.act_rewrites (lasting_any Endpoint.clear) peers.ctx action fun _ sender _ _ =>
        lasting_any sender) h
  | data peerId packed =>
    cases hfind : peers.ctx.findById e peerId with
    | none =>
      simp only [act, hfind]
      exact h
    | some i =>
      obtain ⟨hi, hon, -⟩ := Ctx.findById_some hfind
      simp only [act, hfind]
      exact h.store ((h.slot hi hon).flushPacked (hpacks _ haction)) peers.ctx.nextPeerId
  | ping peerId healthStates =>
    cases hfind : peers.ctx.findById e peerId with
    | none =>
      simp only [act, hfind]
      exact h
    | some i =>
      obtain ⟨hi, hon, -⟩ := Ctx.findById_some hfind
      simp only [act, hfind]
      exact h.store ((h.slot hi hon).sendPing (hpacks _ haction)) peers.ctx.nextPeerId

end

namespace TcpCtx

variable {e : Env} {ctx : TcpCtx}

theorem step_authored (h : ctx.toSlot.Authored e) (input : Input) :
    (ctx.step e input).toSlot.Authored e := by
  cases input with
  | packet path pkt =>
    have hstable := Slot.authored_stable e path ⟨0, 0⟩
    simp only [step]
    split
    · exact tcpHandlePacket_keeps hstable.toFirm pkt (hstable.emit (.recv pkt) trivial h)
    · exact h
  | pollTimeout path =>
    have hstable := Slot.authored_stable e path ⟨0, 0⟩
    simp only [step]
    split
    · exact checkPingTimeout_keeps hstable.toFirm (hstable.emit .poll trivial h)
    · exact h
  | connect path =>
    simp only [step, senderConnect]
    split
    · split <;> exact ⟨h.log, h.window⟩
    · exact h
  | accept path pkt =>
    simp only [step, receiverAccept]
    split
    · split
      · exact h
      · exact ⟨h.log, h.window⟩
      · have hclosed : (ctx.closeOthers e path).toSlot.Authored e := by
          refine Run.foldl_preserves (P := fun ctx : TcpCtx => ctx.toSlot.Authored e)
            (fun _ _ h => ?_) h _
          exact ⟨h.log, h.window⟩
        exact ⟨hclosed.log, hclosed.window⟩
    · exact h
  | start path | exit path | close path | release => exact ⟨h.log, h.window⟩
  | leave path =>
    have hstable := Slot.authored_stable e path ⟨0, 0⟩
    exact hstable.frame.syncPathState False.elim
      (hstable.frame.setPathPingState path PING_STATE_UNDEFINED h)
  | resetAll =>
    simp only [step, resetAllPathsDisconnected]
    split
    · exact h
    · exact ⟨h.log, fun n pkt hpkt => nomatch hpkt⟩

end TcpCtx

-- The send thread of a TCP service beside the threads of its connections.
inductive TcpService.Action where
  | thread (input : TcpService.Input)
  | data (packed : Bytes) (writable : Bool)

namespace TcpService

variable {e : Env} {s : TcpService}

def act (e : Env) (s : TcpService) : Action → TcpService
  | .thread input => s.step e input
  | .data packed writable => { s with toSlot := s.toSlot.flushPackedTcp e packed writable }

def Action.Packs (e : Env) : Action → Prop
  | .thread _ => True
  | .data packed _ => packed.length ≤ Sender.packLimit e

theorem startThreads_authored (h : s.toSlot.Authored e) (path : Path) (outcome : Start) :
    (s.startThreads e path outcome).toSlot.Authored e := by
  cases outcome with
  | sendFailed =>
    simp only [startThreads]
    split <;> exact h
  | recvFailed => exact ⟨h.log, h.window⟩
  | started => exact ⟨h.log, h.window⟩

theorem step_authored (h : s.toSlot.Authored e) (input : Input) :
    (s.step e input).toSlot.Authored e := by
  have hctx := fun input => TcpCtx.step_authored h input
  cases input with
  | connect path | accept path pkt =>
    simp only [step, register]
    split
    · exact hctx _
    · exact h
  | start path outcome =>
    simp only [step]
    split
    · exact startThreads_authored h path outcome
    · exact h
  | boot path ok =>
    simp only [step]
    split
    · exact h
    split <;> exact ⟨h.log, h.window⟩
  | join path =>
    simp only [step]
    split
    · exact h
    split <;> exact ⟨h.log, h.window⟩
  | leave path =>
    simp only [step]
    split
    · exact hctx (.leave path)
    · exact h
  | release path =>
    simp only [step]
    split <;> exact ⟨h.log, h.window⟩
  | finish path =>
    simp only [step]
    split
    · have hreset : ∀ last : Bool, (if last = true then s.toTcpCtx.step e .resetAll
          else s.toTcpCtx).toSlot.Authored e := by
        intro last
        cases last
        · exact h
        · exact hctx .resetAll
      split
      · exact ⟨(hreset _).log, (hreset _).window⟩
      · exact hreset _
    · exact h
  | packet path pkt =>
    simp only [step]
    split
    · exact hctx (.packet path pkt)
    · exact h
  | pollTimeout path =>
    have hstable := Slot.authored_stable e path ⟨0, 0⟩
    simp only [step]
    split
    · exact TcpCtx.checkPingTimeout_keeps hstable.toFirm (hstable.emit .poll trivial h)
    · exact h
  | exit path =>
    simp only [step]
    split <;> exact ⟨h.log, h.window⟩
  | close path => exact ⟨h.log, h.window⟩
  | health path seqNum =>
    simp only [step]
    split
    · split
      · rename_i ping hping
        have hstates : (List.ofFn s.pathPingState).length = MAX_PATH := List.length_ofFn
        have hauthored : ping.Authored e := Slot.ping_authored hstates hping
        refine Slot.Authored.emits h fun act hact => ?_
        rw [List.mem_singleton.mp hact]
        exact hauthored.sendTcp
      · exact h
    · exact h

theorem run_authored (sessionId : UInt32) (sessionTs : Timespec) (destAddr : Path → Endpoint)
    {actions : List Action} (hpacks : ∀ action ∈ actions, action.Packs e) :
    (actions.foldl (act e) (opened e sessionId sessionTs destAddr)).toSlot.Authored e := by
  refine Run.foldl_preserves_of_mem (P := fun s : TcpService => s.toSlot.Authored e) ?_
    ⟨fun entry hentry => (nomatch hentry), fun n pkt hpkt => nomatch hpkt⟩
  intro s action haction h
  cases action with
  | thread input => exact step_authored h input
  | data packed writable => exact h.flushPackedTcp (hpacks _ haction) writable

end TcpService

theorem Closing.serviceClose_emits {e : Env} {timeoutMs : UInt32} {s : Schedule} {c c' : Closing}
    {report : Report} (h : c.serviceClose e timeoutMs s = some (c', report)) {fin : Packet}
    (hfin : report.fin = some fin) : (Act.sendTcp fin).Emits e := by
  have hform : ∃ shdr finTargetSeq, shdr.serviceId = e.serviceId ∧
      fin = Packet.finOf shdr true finTargetSeq := by
    unfold serviceClose at h
    dsimp only at h
    repeat' split at h
    all_goals try cases h
    all_goals cases hfin
    exact ⟨_, _, rfl, rfl⟩
  obtain ⟨shdr, finTargetSeq, hservice, rfl⟩ := hform
  intro sent hsent
  rw [Act.wired, Packet.onTcpWire_eq (FLAG_FIN ||| FLAG_FIN_TARGET_VALID) rfl, if_neg (by decide),
    if_pos (by decide)] at hsent
  exact ⟨_, .tcpFin hservice hsent⟩

section

variable {e : Env}

-- A fragment that one container can carry.
def Elem.Small (e : Env) (elem : Elem) : Prop := elem.payload.length ≤ e.fragSize

-- What waits in a sender fits into a container, and so does what its send thread has packed.
structure Sender.Packs (e : Env) (s : Sender) : Prop where
  todo : ∀ elem ∈ s.todo, elem.Small e
  queue : ∀ entry ∈ s.queue.entries, entry.2.Small e
  packed : ∀ p, s.packing = some p → p.packed.length ≤ Sender.packLimit e
  sent : Emitted e s.sent

namespace Sender

variable {s : Sender}

private theorem pop_small {q q' : SendQueue} {entry : UInt32 × Elem} (h : q.pop = some (entry, q'))
    (hsmall : ∀ entry ∈ q.entries, entry.2.Small e) :
    entry.2.Small e ∧ ∀ entry ∈ q'.entries, entry.2.Small e := by
  have hentries := (pop_eq_some h).1
  rw [hentries] at hsmall
  exact ⟨hsmall entry List.mem_cons_self, fun x hx => hsmall x (List.mem_cons_of_mem _ hx)⟩

theorem Packs.call (h : s.Packs e) : (s.call e).Packs e := by
  unfold Sender.call
  split
  · split
    · rename_i hsend
      have helems := (serviceSend_ok hsend).2.2
      exact { h with todo := fun elem helem => (messageElems_payload helems elem helem).2 }
    · exact { h with }
  · exact h

theorem Packs.push (h : s.Packs e) : (s.pushFragment e).Packs e := by
  unfold pushFragment
  split
  · exact h
  rename_i elem todo htodo
  have hsmall := h.todo
  rw [htodo] at hsmall
  split
  · rename_i queue hpush
    unfold SendQueue.push at hpush
    split at hpush
    · cases hpush
    · obtain rfl := Option.some.inj hpush
      refine { h with todo := fun x hx => hsmall x (List.mem_cons_of_mem _ hx), queue := ?_ }
      intro entry hentry
      rcases List.mem_append.mp hentry with hold | hnew
      · exact h.queue entry hold
      · rw [List.mem_singleton.mp hnew]
        exact hsmall elem List.mem_cons_self
  · exact h

theorem Packs.pop (h : s.Packs e) : (s.popFirst e).Packs e := by
  unfold popFirst
  split
  · rename_i peerId elem queue hnone hpop
    obtain ⟨hfirst, hrest⟩ := pop_small hpop h.queue
    split
    · exact { h with queue := hrest }
    · refine { h with queue := hrest, packed := ?_ }
      rintro p ⟨⟩
      have hpack := (packLimit_le e).2
      have hlen : elem.payload.length ≤ e.fragSize := hfirst
      rw [Packet.appendPayloadElem_eq, List.nil_append, Elem.length_encode]
      omega
  · exact h

theorem Packs.pack (h : s.Packs e) : (s.packNext e).Packs e := by
  unfold packNext
  split
  · rename_i p peerId elem queue hsome hpop
    obtain ⟨-, hrest⟩ := pop_small hpop h.queue
    split
    · exact h
    · rename_i hgo
      refine { h with queue := hrest, packed := ?_ }
      rintro p' ⟨⟩
      simp only [Bool.or_eq_true, decide_eq_true_eq, not_or, not_lt] at hgo
      rw [Packet.appendPayloadElem_eq, List.length_append, Elem.length_encode]
      exact hgo.2
  · exact h

theorem Packs.flush (h : s.Packs e) : (s.flushPacking e true).Packs e := by
  unfold flushPacking
  split
  · exact h
  · rename_i p hsome
    exact ⟨h.todo, h.queue, by simp, Emitted.append h.sent (h.packed p hsome)⟩

theorem run_packs (slot : Slot) (tcpActivePaths : Nat) (calls : List (Bytes × Bool))
    (acts : List Action) : ((start slot tcpActivePaths calls).run e acts).Packs e := by
  refine Run.foldl_preserves (P := Sender.Packs e) ?_ ?_ acts
  · intro s act h
    cases act with
    | call => exact h.call
    | push => exact h.push
    | pop => exact h.pop
    | pack => exact h.pack
    | flush => exact h.flush
  · refine ⟨?_, ?_, ?_, ?_⟩
    all_goals
      intro x hx
      cases hx

end Sender

end

-- The encoders and the authenticator agree on every packet that is emitted, nothing else goes out
-- of a service of any type, first sent or retransmitted, and a packet that is not authentic leaves
-- each kind of service as it was.
theorem authenticator_agrees (es er : Env) (haead : es.Aead er) :
    (∀ plain sent, Emission es plain sent →
      plain.has FLAG_ENCRYPTED = false ∧ Packet.parse sent.wire = some sent ∧
      sent.authenticate er (sent.wire.take PACKET_HEADER_SIZE) = some plain ∧
      Packet.receive er sent.wire = some plain ∧
      ∀ rest, tcpRead er (sent.wire ++ rest) = .packet sent.wire rest) ∧
    (∀ slot tcpActivePaths calls acts,
      let s := (Sender.start slot tcpActivePaths calls).run es acts
      Emitted es s.sent ∧ ∀ act ∈ slot.since s.slot, act.Emits es) ∧
    (∀ sessionId sessionTs destAddr (actions : List Duplex.Action),
      (∀ action ∈ actions, action.Packs es) →
        let slot := (actions.foldl (Duplex.act es) (.opened es sessionId sessionTs destAddr)).slot
        Emitting es slot.log ∧ ∀ seq pkt, slot.sendWindow.sendGet seq = some pkt →
          ∃ plain, Emission es plain pkt) ∧
    (∀ actions : List Duplexes.Action, (∀ action ∈ actions, action.Packs es) →
      let ctx := (actions.foldl (Duplexes.act es) (.opened es)).ctx
      Emitting es ctx.log ∧ ∀ i < es.maxPeers, (ctx.peers i).active = true → ∀ seq pkt,
        (ctx.peers i).sendWindow.sendGet seq = some pkt → ∃ plain, Emission es plain pkt) ∧
    (∀ sessionId sessionTs destAddr (actions : List TcpService.Action),
      (∀ action ∈ actions, action.Packs es) →
        Emitting es (actions.foldl (TcpService.act es) (.opened es sessionId sessionTs destAddr)).log) ∧
    (∀ timeoutMs schedule (c c' : Closing) report,
      c.serviceClose es timeoutMs schedule = some (c', report) →
        ∀ fin ∈ report.fin, (Act.sendTcp fin).Emits es) ∧
    (∀ datagram, Packet.Unauthentic er (er.recvBuf datagram) →
      (∀ (slot : Slot) path sender, slot.recvDatagram er path sender datagram = slot) ∧
      (∀ (ctx : Ctx) path sender, ctx.recvDatagram er path sender datagram = ctx)) ∧
    (∀ stream buf rest, tcpRead er stream = .packet buf rest → Packet.Unauthentic er buf →
      ∀ (c : Closing) path, c.recvRound er path stream = (c, rest) ∧
        c.acceptRound er path stream = c) := by
  refine ⟨fun plain sent h => ?_, fun slot tcpActivePaths calls acts => ?_,
    fun sessionId sessionTs destAddr actions hpacks => ?_, fun actions hpacks => ?_,
    fun sessionId sessionTs destAddr actions hpacks =>
      (TcpService.run_authored sessionId sessionTs destAddr hpacks).log,
    fun timeoutMs schedule c c' report hclose fin hfin => Closing.serviceClose_emits hclose hfin,
    fun datagram h => ?_, fun stream buf rest hread h c path => ?_⟩
  · obtain ⟨hparse, hauth⟩ := h.authenticated haead
    refine ⟨?_, hparse, hauth, h.received haead, fun rest => tcpRead_wire (h.payload_le haead) rest⟩
    simp [Packet.has, h.sealed.1.plain]
  · have hsent := (Sender.run_packs (e := es) slot tcpActivePaths calls acts).sent
    refine ⟨hsent, fun act hact => ?_⟩
    rw [Slot.since_of_log (Sender.run_emits slot tcpActivePaths calls acts).log] at hact
    obtain ⟨outer, houter, hact⟩ := List.mem_flatMap.mp hact
    exact (hsent outer houter).dataActs act hact
  · have hauthored := Duplex.run_authored (e := es) sessionId sessionTs destAddr hpacks
    exact ⟨hauthored.log, fun seq pkt hget => (hauthored.window.sendGet hget).emission⟩
  · have hauthored := Duplexes.run_authored hpacks
    exact ⟨hauthored.log, fun i hi hon seq pkt hget =>
      ((hauthored.window i hi hon).sendGet hget).emission⟩
  · exact ⟨Slot.recvDatagram_unauthentic h, Ctx.recvDatagram_unauthentic h⟩
  · exact ⟨Closing.recvRound_unauthentic hread h c path, Closing.acceptRound_unauthentic hread h c path⟩

-- A client joins, gets a DATA packet and a PING, asks for the DATA packet again and for one that
-- was never sent, and is disconnected.
def Duplexes.sampleActions : List Duplexes.Action :=
  [.table (.recv (.sample (.samplePing 7))), .data 1 [1], .ping 1 [1, 0, 0, 0],
    .table (.recv (.sample (.buildNack Packet.sampleSession 0))),
    .table (.recv (.sample (.buildNack Packet.sampleSession 5))), .table (.peerDisconnect 1)]

theorem authenticator_agrees_sample :
    let e := Env.sampleSealed .unicastBidirN1
    let fin := Packet.finOf Packet.sampleSession true 7
    let log := (Duplexes.sampleActions.foldl (Duplexes.act e) (.opened e)).ctx.log
    (∃ sent, fin.sealFin e = some sent ∧ Packet.receive e sent.wire = some fin) ∧
    Emitting e log ∧
    (log.filterMap fun entry => entry.2.wired e).map Packet.flags = [33, 36, 33, 40, 112] ∧
    Packet.Unauthentic e (e.recvBuf (Packet.samplePing 0).wire) ∧
    (Ctx.opened e).recvDatagram e 0 .source (Packet.samplePing 0).wire = Ctx.opened e := by
  have haead : (Env.sampleSealed .unicastBidirN1).Aead (Env.sampleSealed .unicastBidirN1) :=
    (Cplat.reference_crypto rfl rfl rfl rfl rfl rfl).aead
  have hbad : Packet.Unauthentic (Env.sampleSealed .unicastBidirN1)
      ((Env.sampleSealed .unicastBidirN1).recvBuf (Packet.samplePing 0).wire) := by
    refine ⟨Packet.samplePing 0, ?_, ?_⟩ <;> decide +kernel
  have hpacks : ∀ action ∈ Duplexes.sampleActions,
      action.Packs (Env.sampleSealed .unicastBidirN1) := by
    have hroom : [(1 : UInt8)].length ≤ Sender.packLimit (Env.sampleSealed .unicastBidirN1) := by decide
    simp only [Duplexes.sampleActions, List.forall_mem_cons]
    exact ⟨trivial, hroom, rfl, trivial, trivial, trivial, by simp⟩
  have hsealed : ((Packet.finOf Packet.sampleSession true 7).sealFin
      (Env.sampleSealed .unicastBidirN1)).isSome = true := by decide +kernel
  obtain ⟨sent, hsent⟩ := Option.isSome_iff_exists.mp hsealed
  obtain ⟨hagree, -, -, hpeers, -, -, hudp, -⟩ := authenticator_agrees _ _ haead
  exact ⟨⟨sent, hsent, (hagree _ _ (.fin rfl hsent)).2.2.2.1⟩, (hpeers _ hpacks).1,
    by decide +kernel, hbad, (hudp _ hbad).2 _ _ _⟩

end Porter
