import Mathlib.Data.List.Forall2
import Porter.Lib.Run
import Porter.Send.Thread

namespace Porter

-- The two ends of a service: the same service id, payload size and encryption setting, and,
-- with encryption, a cplat_crypto_decrypt that opens what cplat_crypto_encrypt seals.
structure Env.Crypto (es er : Env) : Prop where
  serviceId : es.serviceId = er.serviceId
  maxPayload : es.maxPayload = er.maxPayload
  enabled : es.encryptEnabled = er.encryptEnabled
  seals : es.encryptEnabled = true → ∀ nonce aad plain,
    (es.plat.encrypt es.encryptKey nonce aad plain).isSome
  tag : es.encryptEnabled = true → ∀ nonce aad plain cipher,
    es.plat.encrypt es.encryptKey nonce aad plain = some cipher →
    cipher.length = plain.length + CRYPTO_TAG_SIZE
  opens : es.encryptEnabled = true → ∀ nonce aad plain cipher,
    es.plat.encrypt es.encryptKey nonce aad plain = some cipher →
    er.plat.decrypt er.encryptKey nonce aad cipher = some plain

theorem Env.Crypto.aead {es er : Env} (h : es.Crypto er) : es.Aead er :=
  ⟨h.serviceId, h.maxPayload.le, h.enabled, h.tag, h.opens⟩

-- Encryption does not fail.
def Env.Seals (e : Env) : Prop :=
  e.encryptEnabled = true → ∀ nonce aad plain,
    (e.plat.encrypt e.encryptKey nonce aad plain).isSome

-- The container of a group of elements, ready to be sent.
def container (e : Env) (hdr : PacketSessionHdr) (seqNum : UInt32) (elems : List Elem) :
    Option Packet :=
  (Packet.buildPacked hdr seqNum (Elem.encodeAll elems)).bind (Packet.sealData e)

-- A group that one container can carry.
structure Fits (e : Env) (elems : List Elem) : Prop where
  nonempty : elems ≠ []
  payload : ∀ elem ∈ elems, 0 < elem.payload.length ∧ elem.payload.length ≤ e.fragSize
  limit : (Elem.encodeAll elems).length ≤ Sender.packLimit e

section

variable {e er : Env} {hdr : PacketSessionHdr} {seqNum : UInt32} {elems : List Elem}

theorem packLimit_le (e : Env) :
    Sender.packLimit e + (if e.encryptEnabled then CRYPTO_TAG_SIZE else 0) = e.maxPayload ∧
      PAYLOAD_ELEM_HDR_SIZE + e.fragSize = Sender.packLimit e := by
  have hfrag := e.fragSize_bounds
  unfold Sender.packLimit
  split at hfrag <;> split <;> first | contradiction | omega

theorem Fits.single {elem : Elem} (h : 0 < elem.payload.length ∧ elem.payload.length ≤ e.fragSize) :
    Fits e [elem] := by
  refine ⟨by simp, by simpa using h, ?_⟩
  have := packLimit_le e
  simp only [Elem.encodeAll_cons, Elem.encodeAll_nil, List.append_nil, Elem.length_encode]
  omega

theorem Fits.encodeAll_pos (h : Fits e elems) : 0 < (Elem.encodeAll elems).length := by
  cases elems with
  | nil => exact absurd rfl h.nonempty
  | cons elem rest =>
    rw [Elem.encodeAll_cons, List.length_append, Elem.length_encode, PAYLOAD_ELEM_HDR_SIZE]
    omega

theorem Fits.encodeAll_le (h : Fits e elems) : (Elem.encodeAll elems).length ≤ MAX_PAYLOAD := by
  have hlimit := h.limit
  have hpack := packLimit_le e
  have hbounds := e.bounds
  omega

theorem Fits.elem_le (h : Fits e elems) :
    ∀ elem ∈ elems, elem.payload.length ≤ MAX_PAYLOAD := by
  intro elem helem
  have hfrag := (h.payload elem helem).2
  have hpack := packLimit_le e
  have hbounds := e.bounds
  omega

theorem sealAs_isSome (hseals : e.Seals) (pkt : Packet) (num : UInt32) :
    ∃ outer, pkt.sealAs e num = some outer := by
  unfold Packet.sealAs
  split
  · rename_i henc
    refine Option.isSome_iff_exists.mp ?_
    rw [Option.isSome_map]
    exact hseals henc _ _ _
  · exact ⟨_, rfl⟩

theorem container_isSome (hseals : e.Seals) (h : Fits e elems) :
    ∃ pkt, container e hdr seqNum elems = some pkt := by
  have hpos := h.encodeAll_pos
  have hle := h.encodeAll_le
  unfold container Packet.buildPacked
  rw [if_neg (by omega)]
  exact sealAs_isSome hseals _ _

-- The container as the receiver sees it once it is authenticated.
def plainContainer (hdr : PacketSessionHdr) (seqNum : UInt32) (elems : List Elem) : Packet :=
  { Packet.fillSessionHdr hdr with
    seqNum := seqNum, flags := FLAG_DATA, payload := Elem.encodeAll elems }

theorem container_eq (h : Fits e elems) :
    container e hdr seqNum elems = (plainContainer hdr seqNum elems).sealData e := by
  have hpos := h.encodeAll_pos
  have hle := h.encodeAll_le
  unfold container Packet.buildPacked
  rw [if_neg (by omega)]
  rfl

-- A container has a payload and fits into max_payload, its tag included.
theorem container_payload (hcrypto : e.Crypto er) (h : Fits e elems) {pkt : Packet}
    (hpkt : container e hdr seqNum elems = some pkt) :
    0 < pkt.payload.length ∧ pkt.payload.length ≤ e.maxPayload := by
  have hpos := h.encodeAll_pos
  have hlimit := h.limit
  have hpack := (packLimit_le e).1
  rw [container_eq h] at hpkt
  have hlen := Packet.sealAs_length hcrypto.aead hpkt
  simp only [plainContainer] at hlen
  omega

theorem receive_container (hcrypto : e.Crypto er) (hservice : hdr.serviceId = e.serviceId)
    (h : Fits e elems) {pkt : Packet} (hpkt : container e hdr seqNum elems = some pkt) :
    Packet.receive er pkt.wire = some (plainContainer hdr seqNum elems) := by
  have hlimit := h.limit
  have hpack := (packLimit_le e).1
  rw [container_eq h] at hpkt
  have hdata : (plainContainer hdr seqNum elems).has (FLAG_DATA ||| FLAG_PING) = true :=
    (by decide : (FLAG_DATA &&& (FLAG_DATA ||| FLAG_PING) != 0) = true)
  have hbuilt : (plainContainer hdr seqNum elems).Built :=
    ⟨rfl, (by decide : FLAG_DATA &&& FLAG_ENCRYPTED = 0), .inl hdata⟩
  refine Packet.receive_sealAs hcrypto.aead hbuilt (Packet.nonceNum_of_data hdata).symm hservice ?_ hpkt
  simp only [plainContainer]
  omega

end

-- The DATA packet of an entry that goes to the destination, or to the TCP paths.
def Act.dataTo (dest : Path × Endpoint) : Act → Option Packet
  | .send i d pkt => if (i, d) = dest ∧ pkt.has FLAG_DATA = true then some pkt else none
  | .sendTcp pkt => if pkt.has FLAG_DATA = true then some pkt else none
  | _ => none

namespace Slot

variable {e : Env} {slot slot' : Slot} {dest : Path × Endpoint}

-- The DATA packets put on the network for one destination from one state to a later one.
def dataSince (before after : Slot) (dest : Path × Endpoint) : List Packet :=
  (before.since after).filterMap (Act.dataTo dest)

def SendsTo (e : Env) (slot : Slot) (dest : Path × Endpoint) : Prop :=
  e.type.isTcpType = true ∨ dest ∈ slot.dests e

theorem dataActs_congr (hpeer : slot'.peer = slot.peer) (hdest : slot'.destAddr = slot.destAddr)
    (writable : Bool) : slot'.dataActs e writable = slot.dataActs e writable := by
  funext outer
  unfold dataActs dests
  rw [hpeer, hdest]

theorem dataActs_dataTo (hdest : slot.SendsTo e dest) {outer : Packet}
    (hdata : outer.has FLAG_DATA = true) :
    (slot.dataActs e true outer).filterMap (Act.dataTo dest) = [outer] := by
  unfold dataActs
  cases htcp : e.type.isTcpType with
  | true => simp [Act.dataTo, hdata]
  | false =>
    have hmem : dest ∈ slot.dests e := by
      rcases hdest with h | h
      · rw [htcp] at h
        cases h
      · exact h
    have hone : (slot.dests e).filter (· == dest) = [dest] := by
      rw [List.filter_beq, List.count_eq_one_of_mem (nodup_dests e slot) hmem, List.replicate_one]
    have hmap : (slot.dests e).filterMap (fun d => Act.dataTo dest (.send d.1 d.2 outer)) =
        ((slot.dests e).filter (· == dest)).map fun _ => outer := by
      rw [← List.filterMap_eq_map, List.filterMap_filter]
      refine List.filterMap_congr fun d _ => ?_
      by_cases hd : d = dest
      · simp [Act.dataTo, hd, hdata]
      · simp [Act.dataTo, hd]
    rw [if_neg Bool.false_ne_true, List.filterMap_map]
    exact hmap.trans (by rw [hone]; rfl)

end Slot

namespace Sender

-- A sender's history: the groups that went out, the group being packed and the elements of each
-- accepted message. What went out, is packed, queued or still to be queued is, in this order,
-- what the messages were cut into.
structure Stream (e : Env) (hdr : PacketSessionHdr) (s : Sender) (groups : List (List Elem))
    (packing : List Elem) (parts : List (List Elem)) : Prop where
  session : s.slot.ownSessionHdr e = hdr
  active : e.isMultiPeer = true → s.slot.active = true
  next : s.slot.sendWindow.nextSeq = UInt32.ofNat s.sent.length
  length : s.sent.length = groups.length
  sent : ∀ (i : Nat) (pkt : Packet), s.sent[i]? = some pkt →
    ∃ group, groups[i]? = some group ∧ container e hdr (UInt32.ofNat i) group = some pkt
  fits : ∀ group ∈ groups, Fits e group
  packed : ∀ p, s.packing = some p → p.packed = Elem.encodeAll packing ∧ Fits e packing ∧
    p.nDequeued = s.queue.inflight
  idle : s.packing = none → packing = [] ∧ s.queue.inflight = 0
  cut : List.Forall₂ (fun data elems => 0 < data.length ∧ data.length ≤ e.maxMessageSize ∧
    ∃ compress, e.messageElems data compress = some elems) s.accepted parts
  order : groups.flatten ++ packing ++ s.queue.entries.map Prod.snd ++ s.todo = parts.flatten

section

variable {e er : Env} {hdr : PacketSessionHdr} {s : Sender} {groups parts : List (List Elem)}
  {packing : List Elem}

theorem start_stream {slot : Slot} (hnext : slot.sendWindow.nextSeq = 0)
    (hactive : e.isMultiPeer = true → slot.active = true) (tcpActivePaths : Nat)
    (calls : List (Bytes × Bool)) :
    (start slot tcpActivePaths calls).Stream e (slot.ownSessionHdr e) [] [] [] where
  session := rfl
  active := hactive
  next := hnext
  length := rfl
  sent := by simp [start]
  fits := by simp
  packed := by simp [start]
  idle := by simp [start, SendQueue.empty]
  cut := .nil
  order := by simp [start, SendQueue.empty]

theorem parts_payload {accepted : List Bytes} (h : List.Forall₂ (fun data elems =>
      0 < data.length ∧ data.length ≤ e.maxMessageSize ∧
        ∃ compress, e.messageElems data compress = some elems) accepted parts) :
    ∀ elem ∈ parts.flatten, 0 < elem.payload.length ∧ elem.payload.length ≤ e.fragSize := by
  induction h with
  | nil => simp
  | cons hhead _ ih =>
    obtain ⟨-, -, compress, helems⟩ := hhead
    intro elem helem
    rw [List.flatten_cons, List.mem_append] at helem
    rcases helem with hmem | hmem
    · exact messageElems_payload helems elem hmem
    · exact ih elem hmem

theorem Stream.queued (h : s.Stream e hdr groups packing parts) {entry : UInt32 × Elem}
    (hentry : entry ∈ s.queue.entries) :
    0 < entry.2.payload.length ∧ entry.2.payload.length ≤ e.fragSize := by
  refine parts_payload h.cut entry.2 ?_
  rw [← h.order]
  simp only [List.mem_append, List.mem_map]
  exact .inl (.inr ⟨entry, hentry, rfl⟩)

theorem feedAll_parts {accepted : List Bytes} (hcodec : e.Codec er)
    (h : List.Forall₂ (fun data elems => 0 < data.length ∧ data.length ≤ e.maxMessageSize ∧
      ∃ compress, e.messageElems data compress = some elems) accepted parts) :
    Reassembly.empty.feedAll er parts.flatten = (Reassembly.empty, accepted) := by
  induction h with
  | nil => rfl
  | cons hhead _ ih =>
    obtain ⟨hpos, hmax, compress, helems⟩ := hhead
    rw [List.flatten_cons, Reassembly.feedAll_append,
      feedAll_messageElems hcodec hpos hmax helems, ih]
    rfl

-- The fragments that wait for the rest of their message after the first `n` groups.
def pendingAt (er : Env) (groups : List (List Elem)) (n : Nat) : Reassembly :=
  (Reassembly.empty.feedAll er (groups.take n).flatten).1

-- A group that arrives right after the groups before it completes whole messages only.
theorem Stream.feedAll_group (hcodec : e.Codec er) (h : s.Stream e hdr groups packing parts)
    {n : Nat} {group : List Elem} (hgroup : groups[n]? = some group) :
    ((pendingAt er groups n).feedAll er group).1 = pendingAt er groups (n + 1) ∧
      ∀ data ∈ ((pendingAt er groups n).feedAll er group).2, data ∈ s.accepted := by
  have htake : (groups.take (n + 1)).flatten = (groups.take n).flatten ++ group := by
    rw [List.take_add_one, hgroup]
    simp
  have hsplit := Reassembly.feedAll_append (e := er) Reassembly.empty (groups.take n).flatten group
  refine ⟨by rw [pendingAt, pendingAt, htake, hsplit], fun data hdata => ?_⟩
  have hall := congrArg Prod.snd (feedAll_parts hcodec h.cut)
  have hrest : parts.flatten = (groups.take (n + 1)).flatten ++
      ((groups.drop (n + 1)).flatten ++ packing ++ s.queue.entries.map Prod.snd ++ s.todo) := by
    have hgroups : groups.flatten =
        (groups.take (n + 1)).flatten ++ (groups.drop (n + 1)).flatten := by
      rw [← List.flatten_append, List.take_append_drop]
    rw [← h.order, hgroups]
    simp only [List.append_assoc]
  rw [hrest, Reassembly.feedAll_append, htake, hsplit] at hall
  change _ = s.accepted at hall
  rw [← hall]
  simp only [List.mem_append]
  exact .inl (.inr hdata)

theorem Stream.feedAll_done (hcodec : e.Codec er) (h : s.Stream e hdr groups packing parts)
    (hdone : s.Done) :
    Reassembly.empty.feedAll er groups.flatten = (Reassembly.empty, s.accepted) := by
  obtain ⟨-, htodo, hqueue, hnone⟩ := hdone
  have horder := h.order
  rw [htodo, hqueue, (h.idle hnone).1] at horder
  simp only [List.map_nil, List.append_nil] at horder
  rw [horder]
  exact feedAll_parts hcodec h.cut

theorem Stream.call (h : s.Stream e hdr groups packing parts) :
    ∃ parts', (s.call e).Stream e hdr groups packing parts' := by
  unfold Sender.call
  split
  · rename_i data compress calls htodo hcalls
    split
    · rename_i elems hsend
      obtain ⟨hpos, hmax, helems⟩ := serviceSend_ok hsend
      refine ⟨parts ++ [elems], { h with cut := ?_, order := ?_ }⟩
      · exact List.rel_append h.cut (.cons ⟨hpos, hmax, compress, helems⟩ .nil)
      · have horder := h.order
        rw [htodo, List.append_nil] at horder
        simp only [horder, List.flatten_append, List.flatten_cons, List.flatten_nil,
          List.append_nil]
    · exact ⟨parts, { h with }⟩
  · exact ⟨parts, h⟩

theorem Stream.push (h : s.Stream e hdr groups packing parts) :
    (s.pushFragment e).Stream e hdr groups packing parts := by
  unfold pushFragment
  split
  · exact h
  · rename_i elem todo htodo
    split
    · rename_i queue hpush
      unfold SendQueue.push at hpush
      split at hpush
      · cases hpush
      · obtain rfl := Option.some.inj hpush
        refine { h with order := ?_ }
        have horder := h.order
        rw [htodo] at horder
        simp only [List.map_append, List.map_cons, List.map_nil, List.append_assoc] at horder ⊢
        exact horder
    · exact h

-- What pop and try_pop take from the queue.
theorem pop_eq_some {q q' : SendQueue} {entry : UInt32 × Elem} (h : q.pop = some (entry, q')) :
    q.entries = entry :: q'.entries ∧ q'.inflight = q.inflight + 1 := by
  unfold SendQueue.pop at h
  split at h
  · cases h
  · rename_i first rest hentries
    obtain ⟨rfl, rfl⟩ := Prod.mk.inj (Option.some.inj h)
    exact ⟨hentries, rfl⟩

theorem Stream.pop (h : s.Stream e hdr groups packing parts) :
    ∃ packing', (s.popFirst e).Stream e hdr groups packing' parts := by
  unfold popFirst
  split
  · rename_i peerId elem queue hnone hpop
    obtain ⟨hentries, hinflight⟩ := pop_eq_some hpop
    obtain ⟨rfl, hzero⟩ := h.idle hnone
    have hguard : (e.isMultiPeer && !s.slot.active) = false := by
      cases hmulti : e.isMultiPeer with
      | false => rfl
      | true => rw [h.active hmulti]; rfl
    rw [hguard, if_neg Bool.false_ne_true]
    have hfits := h.queued (hentries ▸ List.mem_cons_self)
    refine ⟨[elem], { h with packed := ?_, idle := ?_, order := ?_ }⟩
    · intro p hp
      obtain rfl := Option.some.inj hp
      refine ⟨by simp [Packet.appendPayloadElem_eq], Fits.single hfits, ?_⟩
      simp only [hinflight, hzero]
    · exact fun hn => absurd hn (by simp)
    · have horder := h.order
      rw [hentries] at horder
      simpa using horder
  · exact ⟨packing, h⟩

theorem Stream.pack (h : s.Stream e hdr groups packing parts) :
    ∃ packing', (s.packNext e).Stream e hdr groups packing' parts := by
  unfold packNext
  split
  · rename_i p peerId elem queue hsome hpop
    split
    · exact ⟨packing, h⟩
    · rename_i hguard
      obtain ⟨hentries, hinflight⟩ := pop_eq_some hpop
      obtain ⟨hpacked, hfits, hcount⟩ := h.packed p hsome
      have hroom : p.packed.length + (PAYLOAD_ELEM_HDR_SIZE + elem.payload.length) ≤
          packLimit e := by
        simp only [Bool.or_eq_true, decide_eq_true_eq, not_or, Nat.not_lt] at hguard
        exact hguard.2
      have helem := h.queued (hentries ▸ List.mem_cons_self)
      refine ⟨packing ++ [elem], { h with packed := ?_, idle := ?_, order := ?_ }⟩
      · intro p' hp'
        obtain rfl := Option.some.inj hp'
        have hall : Packet.appendPayloadElem p.packed elem =
            Elem.encodeAll (packing ++ [elem]) := by
          rw [Packet.appendPayloadElem_eq, Elem.encodeAll_append, hpacked]
          simp
        refine ⟨hall, ⟨by simp, ?_, ?_⟩, ?_⟩
        · intro x hx
          rcases List.mem_append.mp hx with hx | hx
          · exact hfits.payload x hx
          · rw [List.mem_singleton.mp hx]
            exact helem
        · rw [← hall, Packet.appendPayloadElem_eq, List.length_append, Elem.length_encode]
          exact hroom
        · simp only [hcount, hinflight]
      · exact fun hn => absurd hn (by simp)
      · have horder := h.order
        rw [hentries] at horder
        simpa using horder
  · exact ⟨packing, h⟩

theorem Stream.flush (hcrypto : e.Crypto er) (h : s.Stream e hdr groups packing parts)
    (writable : Bool) :
    ∃ groups' packing', (s.flushPacking e writable).Stream e hdr groups' packing' parts := by
  unfold flushPacking
  split
  · exact ⟨groups, packing, h⟩
  · rename_i p hsome
    obtain ⟨hpacked, hfits, hcount⟩ := h.packed p hsome
    obtain ⟨outer, houter⟩ :=
      (container_isSome hcrypto.seals hfits : ∃ pkt, container e hdr (UInt32.ofNat s.sent.length)
        packing = some pkt)
    have hbuilt : s.slot.packedContainer e p.packed = some outer := by
      unfold Slot.packedContainer
      rw [h.session, h.next, hpacked]
      exact houter
    have hnext := Slot.flush_nextSeq hbuilt writable
    obtain ⟨hsession, -, hactive, -⟩ := Slot.flush_same e s.slot p.packed writable
    refine ⟨groups ++ [packing], [], ?_⟩
    rw [hbuilt]
    constructor
    · exact hsession.trans h.session
    · exact fun hmulti => hactive.trans (h.active hmulti)
    · rw [hnext, h.next]
      simp [UInt32.ofNat_add]
    · simp [h.length]
    · intro i pkt hi
      rcases Nat.lt_or_ge i s.sent.length with hlt | hge
      · rw [List.getElem?_append_left hlt] at hi
        obtain ⟨group, hgroup, hpkt⟩ := h.sent i pkt hi
        exact ⟨group, by rwa [List.getElem?_append_left (h.length ▸ hlt)], hpkt⟩
      · rw [List.getElem?_append_right hge] at hi
        obtain ⟨hzero, rfl⟩ : i - s.sent.length = 0 ∧ outer = pkt := by
          cases hd : i - s.sent.length with
          | zero => simpa [hd] using hi
          | succ n => simp [hd] at hi
        obtain rfl : i = s.sent.length := by omega
        exact ⟨packing, by rw [h.length, List.getElem?_concat_length], houter⟩
    · intro group hgroup
      rcases List.mem_append.mp hgroup with hg | hg
      · exact h.fits group hg
      · rw [List.mem_singleton.mp hg]
        exact hfits
    · exact fun p' hp' => absurd hp' (by simp)
    · exact fun _ => ⟨rfl, by simp [SendQueue.complete, hcount]⟩
    · exact h.cut
    · have horder := h.order
      simpa [SendQueue.complete] using horder

theorem Stream.turn (hcrypto : e.Crypto er) (h : s.Stream e hdr groups packing parts)
    (writable : Bool) (act : Action) :
    ∃ groups' packing' parts', (s.turn e writable act).Stream e hdr groups' packing' parts' := by
  cases act with
  | call =>
    obtain ⟨parts', h'⟩ := h.call
    exact ⟨groups, packing, parts', h'⟩
  | push => exact ⟨groups, packing, parts, h.push⟩
  | pop =>
    obtain ⟨packing', h'⟩ := h.pop
    exact ⟨groups, packing', parts, h'⟩
  | pack =>
    obtain ⟨packing', h'⟩ := h.pack
    exact ⟨groups, packing', parts, h'⟩
  | flush =>
    obtain ⟨groups', packing', h'⟩ := h.flush hcrypto writable
    exact ⟨groups', packing', parts, h'⟩

theorem Stream.step (hcrypto : e.Crypto er) (h : s.Stream e hdr groups packing parts) (act : Action) :
    ∃ groups' packing' parts', (s.step e act).Stream e hdr groups' packing' parts' :=
  h.turn hcrypto true act

-- What a sender that began with `slot` has put on the network: its containers, each once for
-- every destination.
structure Emits (e : Env) (slot : Slot) (s : Sender) : Prop where
  log : s.slot.log = slot.log ++
    (s.sent.flatMap (slot.dataActs e true)).map fun act => (slot.peerId, act)
  data : ∀ pkt ∈ s.sent, pkt.has FLAG_DATA = true
  peer : s.slot.peer = slot.peer
  destAddr : s.slot.destAddr = slot.destAddr

theorem start_emits (slot : Slot) (tcpActivePaths : Nat) (calls : List (Bytes × Bool)) :
    (start slot tcpActivePaths calls).Emits e slot where
  log := by simp [start]
  data := by simp [start]
  peer := rfl
  destAddr := rfl

-- Only a flush sends.
theorem turn_of_ne_flush {act : Action} (h : act ≠ .flush) (writable : Bool) :
    (s.turn e writable act).slot = s.slot ∧ (s.turn e writable act).sent = s.sent := by
  cases act with
  | call =>
    simp only [Sender.turn, Sender.call]
    split
    · split <;> exact ⟨rfl, rfl⟩
    · exact ⟨rfl, rfl⟩
  | push =>
    simp only [Sender.turn, Sender.pushFragment]
    split
    · exact ⟨rfl, rfl⟩
    · split <;> exact ⟨rfl, rfl⟩
  | pop =>
    simp only [Sender.turn, Sender.popFirst]
    split
    · split <;> exact ⟨rfl, rfl⟩
    · exact ⟨rfl, rfl⟩
  | pack =>
    simp only [Sender.turn, Sender.packNext]
    split
    · split <;> exact ⟨rfl, rfl⟩
    · exact ⟨rfl, rfl⟩
  | flush => exact absurd rfl h

-- What one turn makes, and what it adds to the log.
theorem turn_log (e : Env) (s : Sender) (act : Action) :
    ∃ made : List Packet, (∀ pkt ∈ made, pkt.has FLAG_DATA = true) ∧ ∀ writable,
      (s.turn e writable act).sent = s.sent ++ made ∧
      (s.turn e writable act).slot.log = s.slot.log ++
        (made.flatMap (s.slot.dataActs e writable)).map (fun act => (s.slot.peerId, act)) ∧
      (s.turn e writable act).slot.peer = s.slot.peer ∧
      (s.turn e writable act).slot.destAddr = s.slot.destAddr := by
  by_cases hflush : act = .flush
  · subst hflush
    simp only [turn, flushPacking]
    cases s.packing with
    | none => exact ⟨[], by simp, fun _ => ⟨by simp, by simp, rfl, rfl⟩⟩
    | some p =>
      refine ⟨(s.slot.packedContainer e p.packed).toList, fun pkt hpkt => ?_, fun writable => ?_⟩
      · exact (Slot.packedContainer_header (Option.mem_toList.mp hpkt)).2.1
      · obtain ⟨-, hpeer, -, -, hdest⟩ := Slot.flush_same e s.slot p.packed writable
        exact ⟨rfl, Slot.flush_log e s.slot p.packed writable, hpeer, hdest⟩
  · refine ⟨[], by simp, fun writable => ?_⟩
    obtain ⟨hslot, hsent⟩ := turn_of_ne_flush hflush writable
    rw [hslot, hsent]
    exact ⟨by simp, by simp, rfl, rfl⟩

theorem run_emits (slot : Slot) (tcpActivePaths : Nat) (calls : List (Bytes × Bool))
    (acts : List Action) : ((start slot tcpActivePaths calls).run e acts).Emits e slot := by
  refine Run.foldl_preserves (P := fun s : Sender => s.Emits e slot) (fun s act h => ?_)
    (start_emits slot tcpActivePaths calls) acts
  obtain ⟨made, hdata, hturn⟩ := turn_log e s act
  obtain ⟨hsent, hlog, hpeer, hdest⟩ := hturn true
  have hid : s.slot.peerId = slot.peerId := congrArg (Option.getD · PEER_NA) h.peer
  refine ⟨?_, fun pkt hpkt => ?_, hpeer.trans h.peer, hdest.trans h.destAddr⟩
  · unfold step
    rw [hlog, hsent, Slot.dataActs_congr h.peer h.destAddr, h.log, hid, List.flatMap_append,
      List.map_append, List.append_assoc]
  · unfold step at hpkt
    rw [hsent] at hpkt
    exact (List.mem_append.mp hpkt).elim (h.data pkt) (hdata pkt)

theorem flatMap_dataActs_dataTo {slot : Slot} {dest : Path × Endpoint}
    (hdest : slot.SendsTo e dest) {pkts : List Packet}
    (hdata : ∀ pkt ∈ pkts, pkt.has FLAG_DATA = true) :
    (pkts.flatMap (slot.dataActs e true)).filterMap (Act.dataTo dest) = pkts := by
  induction pkts with
  | nil => rfl
  | cons pkt pkts ih =>
    rw [List.flatMap_cons, List.filterMap_append,
      Slot.dataActs_dataTo hdest (hdata pkt List.mem_cons_self),
      ih fun x hx => hdata x (List.mem_cons_of_mem pkt hx)]
    rfl

-- The DATA entries of the log for a destination are the containers that were sent.
theorem Emits.dataSince {slot : Slot} (h : s.Emits e slot) {dest : Path × Endpoint}
    (hdest : slot.SendsTo e dest) : slot.dataSince s.slot dest = s.sent := by
  unfold Slot.dataSince
  rw [Slot.since_of_log h.log]
  exact flatMap_dataActs_dataTo hdest h.data

theorem run_stream (hcrypto : e.Crypto er) (h : s.Stream e hdr groups packing parts)
    (acts : List Action) :
    ∃ groups' packing' parts', (s.run e acts).Stream e hdr groups' packing' parts' :=
  Run.foldl_preserves
    (P := fun s : Sender => ∃ groups packing parts, s.Stream e hdr groups packing parts)
    (fun _ act ⟨_, _, _, h⟩ => h.step hcrypto act) ⟨groups, packing, parts, h⟩ acts

end

end Sender

end Porter
