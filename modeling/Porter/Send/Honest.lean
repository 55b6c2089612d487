import Porter.Send.Stream

namespace Porter

-- A sender of the session `session` to a receiver `er`: a destination of a service at its first
-- number, the messages its application passes and one way in which its threads take turns.
-- Numbers are used once.
structure HonestSender (er : Env) (session : SessionHdr) where
  env : Env
  codec : env.Codec er
  crypto : env.Crypto er
  slot : Slot
  fresh : slot.sendWindow.nextSeq = 0
  active : env.isMultiPeer = true → slot.active = true
  own : (Packet.fillSessionHdr (slot.ownSessionHdr env)).session = session
  tcpActivePaths : Nat
  calls : List (Bytes × Bool)
  acts : List Sender.Action
  short : ((Sender.start slot tcpActivePaths calls).run env acts).sent.length < 4294967296

namespace HonestSender

variable {er : Env} {session : SessionHdr}

def final (h : HonestSender er session) : Sender :=
  (Sender.start h.slot h.tcpActivePaths h.calls).run h.env h.acts

-- The messages that potr_service_send accepted.
def messages (h : HonestSender er session) : List Bytes := h.final.accepted

-- The DATA packets it sends, as they arrive.
def arrivals (h : HonestSender er session) : List Packet :=
  h.final.sent.filterMap fun pkt => Packet.receive er pkt.wire

-- The fragments that wait for the rest of their message after the first `n` packets.
def pendingAfter (h : HonestSender er session) (n : Nat) : Reassembly :=
  (Reassembly.empty.feedAll er
    ((h.arrivals.take n).flatMap fun pkt => Packet.unpackAll pkt.payload)).1

end HonestSender

section

variable {e er : Env} {hdr : PacketSessionHdr} {s : Sender} {groups parts : List (List Elem)}
  {packing : List Elem}

theorem plainContainer_payload (hfits : Fits e packing) (seqNum : UInt32) :
    Packet.unpackAll (plainContainer hdr seqNum packing).payload = packing :=
  Packet.unpackAll_encodeAll hfits.elem_le

theorem Sender.Stream.arrivals_take (hcrypto : e.Crypto er) (hservice : hdr.serviceId = e.serviceId)
    (h : s.Stream e hdr groups packing parts) (n : Nat) :
    (s.sent.take n).filterMap (fun pkt => Packet.receive er pkt.wire) =
      (groups.mapIdx fun i group => plainContainer hdr (UInt32.ofNat i) group).take n := by
  have hmap : s.sent.map (fun pkt => Packet.receive er pkt.wire) =
      (groups.mapIdx fun i group => plainContainer hdr (UInt32.ofNat i) group).map some := by
    refine List.ext_getElem? fun i => ?_
    rw [List.getElem?_map, List.getElem?_map, List.getElem?_mapIdx]
    cases hpkt : s.sent[i]? with
    | none =>
      have hlen := List.getElem?_eq_none_iff.mp hpkt
      rw [List.getElem?_eq_none (h.length ▸ hlen)]
      rfl
    | some pkt =>
      obtain ⟨group, hgroup, hcontainer⟩ := h.sent i pkt hpkt
      have hfits := h.fits group (List.mem_of_getElem? hgroup)
      rw [hgroup]
      exact congrArg some (receive_container hcrypto hservice hfits hcontainer)
  calc (s.sent.take n).filterMap (fun pkt => Packet.receive er pkt.wire)
      = ((s.sent.map fun pkt => Packet.receive er pkt.wire).take n).filterMap id := by
        rw [← List.map_take, List.filterMap_map]
        rfl
    _ = (groups.mapIdx fun i group => plainContainer hdr (UInt32.ofNat i) group).take n := by
        rw [hmap, ← List.map_take, List.filterMap_map]
        exact List.filterMap_some

theorem Sender.Stream.arrivals (hcrypto : e.Crypto er) (hservice : hdr.serviceId = e.serviceId)
    (h : s.Stream e hdr groups packing parts) :
    s.sent.filterMap (fun pkt => Packet.receive er pkt.wire) =
      groups.mapIdx fun i group => plainContainer hdr (UInt32.ofNat i) group := by
  have hall := h.arrivals_take hcrypto hservice s.sent.length
  rwa [List.take_length, List.take_of_length_le (by simp [h.length])] at hall

theorem flatMap_plainContainers (hfits : ∀ group ∈ groups, Fits e group) (n : Nat) :
    ((groups.mapIdx fun i group => plainContainer hdr (UInt32.ofNat i) group).take n).flatMap
      (fun pkt => Packet.unpackAll pkt.payload) = (groups.take n).flatten := by
  have hmap : (groups.mapIdx fun i group => plainContainer hdr (UInt32.ofNat i) group).map
      (fun pkt => Packet.unpackAll pkt.payload) = groups := by
    refine List.ext_getElem? fun i => ?_
    rw [List.getElem?_map, List.getElem?_mapIdx]
    cases hgroup : groups[i]? with
    | none => rfl
    | some group =>
      exact congrArg some (plainContainer_payload (hfits group (List.mem_of_getElem? hgroup)) _)
  rw [List.flatMap_def, List.map_take, hmap]

end

namespace HonestSender

variable {er : Env} {session : SessionHdr} (h : HonestSender er session)

theorem stream : ∃ groups packing parts,
    h.final.Stream h.env (h.slot.ownSessionHdr h.env) groups packing parts :=
  Sender.run_stream h.crypto (Sender.start_stream h.fresh h.active h.tcpActivePaths h.calls) h.acts

theorem arrivals_eq {groups parts : List (List Elem)} {packing : List Elem}
    (hs : h.final.Stream h.env (h.slot.ownSessionHdr h.env) groups packing parts) :
    h.arrivals = groups.mapIdx fun i group =>
      plainContainer (h.slot.ownSessionHdr h.env) (UInt32.ofNat i) group :=
  hs.arrivals h.crypto rfl

theorem length_arrivals : h.arrivals.length < 4294967296 := by
  obtain ⟨groups, packing, parts, hs⟩ := h.stream
  rw [h.arrivals_eq hs, List.length_mapIdx, ← hs.length]
  exact h.short

-- The packet with the number `i`, fed after the packets before it, completes messages of the
-- sender and nothing else.
theorem feed {i : Nat} {pkt : Packet} (hpkt : h.arrivals[i]? = some pkt) :
    pkt.seqNum = UInt32.ofNat i ∧ pkt.session = session ∧ pkt.flags = FLAG_DATA ∧
      ((h.pendingAfter i).feedAll er (Packet.unpackAll pkt.payload)).1 = h.pendingAfter (i + 1) ∧
      ∀ data ∈ ((h.pendingAfter i).feedAll er (Packet.unpackAll pkt.payload)).2,
        data ∈ h.messages := by
  obtain ⟨groups, packing, parts, hs⟩ := h.stream
  have harr := h.arrivals_eq hs
  rw [harr, List.getElem?_mapIdx] at hpkt
  obtain ⟨group, hgroup, rfl⟩ := Option.map_eq_some_iff.mp hpkt
  have hfits := hs.fits group (List.mem_of_getElem? hgroup)
  have hpending : ∀ n, h.pendingAfter n = Sender.pendingAt er groups n := fun n => by
    unfold pendingAfter Sender.pendingAt
    rw [harr, flatMap_plainContainers hs.fits]
  obtain ⟨hnext, hwhole⟩ := hs.feedAll_group h.codec hgroup
  refine ⟨rfl, h.own, rfl, ?_⟩
  rw [plainContainer_payload hfits, hpending, hpending]
  exact ⟨hnext, hwhole⟩

end HonestSender

end Porter
