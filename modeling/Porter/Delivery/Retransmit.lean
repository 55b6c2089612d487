import Mathlib.Data.List.Forall2
import Porter.Delivery.Answer
import Porter.Platform

namespace Porter

-- cplat_crypto_encrypt appends a tag of fixed size.
def Env.Tagged (e : Env) : Prop :=
  e.encryptEnabled = true → ∀ nonce aad plain cipher,
    e.plat.encrypt e.encryptKey nonce aad plain = some cipher →
    cipher.length = plain.length + CRYPTO_TAG_SIZE

-- The datagram that flush_packed and flush_packed_peer put together in send_wire_buf: the header
-- of the container, and the packed elements or the output of the encryption behind it.
def Slot.flushWire (e : Env) (slot : Slot) (packed : Bytes) : Option Bytes :=
  (Packet.buildPacked (slot.ownSessionHdr e) slot.sendWindow.nextSeq packed).bind fun outer =>
    if e.encryptEnabled then
      let outer := { outer with flags := outer.flags ||| FLAG_ENCRYPTED }
      let hdr := outer.header (packed.length + CRYPTO_TAG_SIZE)
      (e.plat.encrypt e.encryptKey (outer.nonce outer.seqNum) hdr packed).map (hdr ++ ·)
    else some (outer.header packed.length ++ packed)

-- The datagram of an entry, with where it goes.
def Act.datagram : Act → Option ((Path × Endpoint) × Bytes)
  | .send path dest pkt => some ((path, dest), pkt.wire)
  | _ => none

def Slot.datagramsSince (before after : Slot) : List ((Path × Endpoint) × Bytes) :=
  (before.since after).filterMap Act.datagram

-- One call of flush_packed that numbered a packet: the destinations at that time, the datagram in
-- send_wire_buf and what was sent, by the log.
structure Flush where
  dests : List (Path × Endpoint)
  buffer : Bytes
  sends : List ((Path × Endpoint) × Bytes)

def Slot.flushOf (e : Env) (slot after : Slot) (packed : Bytes) : List Flush :=
  (slot.flushWire e packed).toList.map fun buffer =>
    ⟨slot.dests e, buffer, slot.datagramsSince after⟩

-- A 1:1 service and the peers of an N:1 service with what each has flushed.
structure Duplex.Recorded where
  duplex : Duplex
  flushes : List Flush

namespace Duplex.Recorded

def act (e : Env) (r : Recorded) (action : Action) : Recorded where
  duplex := r.duplex.act e action
  flushes := match action with
    | .data packed =>
        r.flushes ++ r.duplex.slot.flushOf e (r.duplex.act e action).slot packed
    | _ => r.flushes

def run (e : Env) (sessionId : UInt32) (sessionTs : Timespec) (destAddr : Path → Endpoint)
    (actions : List Action) : Recorded :=
  actions.foldl (act e) ⟨opened e sessionId sessionTs destAddr, []⟩

end Duplex.Recorded

structure Duplexes.Recorded where
  peers : Duplexes
  flushes : Nat → List Flush

namespace Duplexes.Recorded

def act (e : Env) (r : Recorded) (action : Action) : Recorded where
  peers := r.peers.act e action
  flushes := match action with
    | .table _ => fun i => if (r.peers.ctx.peers i).active then r.flushes i else []
    | .data peerId packed =>
        match r.peers.ctx.findById e peerId with
        | none => r.flushes
        | some i => Function.update r.flushes i (r.flushes i ++
            (r.peers.ctx.slotInitPeer i).flushOf e ((r.peers.act e action).ctx.slotInitPeer i) packed)
    | .ping _ _ => r.flushes

def run (e : Env) (actions : List Action) : Recorded :=
  actions.foldl (act e) ⟨opened e, fun _ => []⟩

end Duplexes.Recorded

-- Each flush sent its datagram to every destination it had. The numbers of the last windowSize
-- flushes are found, and the same datagram is sent again to every destination there is now; every
-- other number is answered by a REJECT for it.
structure Slot.Retransmits (e : Env) (slot : Slot) (flushes : List Flush) : Prop where
  sent : ∀ flush ∈ flushes, flush.sends = flush.dests.map fun d => (d, flush.buffer)
  kept : ∀ i flush, flushes.length - e.windowSize ≤ i → flushes[i]? = some flush →
    (∃ pkt, slot.sendWindow.sendGet (UInt32.ofNat i) = some pkt ∧ flush.buffer = pkt.wire) ∧
      slot.datagramsSince (slot.slotRetransmitOrReject e (UInt32.ofNat i)) =
        (slot.dests e).map fun d => (d, flush.buffer)
  gone : ∀ seq, (∀ i, flushes.length - e.windowSize ≤ i → i < flushes.length →
      seq ≠ UInt32.ofNat i) →
    slot.sendWindow.sendGet seq = none ∧ slot.since (slot.slotRetransmitOrReject e seq) =
      (slot.dests e).map fun d =>
        .send d.1 d.2 (Packet.buildReject (slot.ownSessionHdr e) seq)

def Flush.Carries (flush : Flush) (pkt : Packet) : Prop :=
  flush.buffer = pkt.wire ∧ flush.sends = flush.dests.map fun d => (d, pkt.wire)

section

variable {e : Env} {slot : Slot} {sent : List Packet}

theorem Slot.flushWire_eq (htag : e.Tagged) (slot : Slot) (packed : Bytes) :
    slot.flushWire e packed = (slot.packedContainer e packed).map Packet.wire := by
  unfold flushWire packedContainer
  cases hbuilt : Packet.buildPacked (slot.ownSessionHdr e) slot.sendWindow.nextSeq packed with
  | none => rfl
  | some outer =>
    have hpayload : outer.payload = packed := by
      unfold Packet.buildPacked at hbuilt
      split at hbuilt
      · cases hbuilt
      · rw [← Option.some.inj hbuilt]
    simp only [Option.bind_some, Packet.sealData, Packet.sealAs, hpayload]
    split
    · rename_i henc
      rw [Option.map_map]
      refine Option.map_congr fun cipher hcipher => ?_
      have hlen := htag henc _ _ _ _ hcipher
      simp only [Function.comp_apply, Packet.wire, hlen]
      rfl
    · rw [Option.map_some, Packet.wire, hpayload]

theorem Slot.since_sendToDests (slot : Slot) (pkt : Packet) :
    slot.since (slot.sendToDests e pkt) = (slot.dests e).map fun d => .send d.1 d.2 pkt := by
  rw [sendToDests_eq]
  exact since_emits slot _

theorem filterMap_datagram (dests : List (Path × Endpoint)) (pkt : Packet) :
    (dests.map fun d => Act.send d.1 d.2 pkt).filterMap Act.datagram =
      dests.map fun d => (d, pkt.wire) := by
  rw [List.filterMap_map, ← List.filterMap_eq_map]
  rfl

theorem Slot.flushOf_carries (htag : e.Tagged) (slot : Slot) (packed : Bytes) :
    List.Forall₂ Flush.Carries (slot.flushOf e (slot.flushPacked e packed) packed)
      (slot.packedContainer e packed).toList := by
  unfold flushOf
  rw [flushWire_eq htag]
  cases hbuilt : slot.packedContainer e packed with
  | none => exact .nil
  | some outer =>
    have hsince : slot.since (slot.flushPacked e packed) =
        (slot.dests e).map fun d => .send d.1 d.2 outer := by
      unfold flushPacked
      rw [hbuilt]
      dsimp only
      rw [sendToDests_eq]
      exact since_of_log rfl
    refine .cons ⟨rfl, ?_⟩ .nil
    change (slot.since (slot.flushPacked e packed)).filterMap Act.datagram = _
    rw [hsince]
    exact filterMap_datagram _ outer

theorem Slot.Sends.retransmits (h : slot.Sends e sent) {flushes : List Flush}
    (hcarries : List.Forall₂ Flush.Carries flushes sent) : slot.Retransmits e flushes := by
  have hfound : ∀ seq pkt, slot.sendWindow.sendGet seq = some pkt ↔
      pkt ∈ e.recent sent ∧ pkt.seqNum = seq := by
    intro seq pkt
    rw [← h.retained_eq]
    exact h.sent.sendGet_eq_some
  obtain ⟨hlen, hat⟩ := List.forall₂_iff_get.mp hcarries
  have hflush : ∀ {i flush}, flushes[i]? = some flush → ∃ hi : i < sent.length,
      flush.Carries sent[i] := by
    intro i flush hi
    obtain ⟨hlt, rfl⟩ := List.getElem?_eq_some_iff.mp hi
    exact ⟨hlen ▸ hlt, hat i hlt (hlen ▸ hlt)⟩
  refine ⟨fun flush hmem => ?_, fun i flush hlow hi => ?_, fun seq hnone => ?_⟩
  · obtain ⟨i, hi⟩ := List.mem_iff_getElem?.mp hmem
    obtain ⟨_, hbuffer, hsends⟩ := hflush hi
    rw [hsends, hbuffer]
  · obtain ⟨hhigh, hbuffer, -⟩ := hflush hi
    rw [hlen] at hlow
    have hmem : sent[i] ∈ e.recent sent := by
      have hdrop : (sent.drop (sent.length - e.windowSize))[i - (sent.length - e.windowSize)]? =
          some sent[i] := by
        rw [List.getElem?_drop, Nat.add_sub_cancel' hlow, List.getElem?_eq_getElem hhigh]
      exact List.mem_of_getElem? hdrop
    have hget := (hfound (UInt32.ofNat i) sent[i]).mpr ⟨hmem, h.sent.numbered i hhigh⟩
    refine ⟨⟨sent[i], hget, hbuffer⟩, ?_⟩
    unfold slotRetransmitOrReject datagramsSince
    rw [hget, hbuffer]
    rw [since_sendToDests]
    exact filterMap_datagram _ sent[i]
  · have hget : slot.sendWindow.sendGet seq = none := by
      cases hget : slot.sendWindow.sendGet seq with
      | none => rfl
      | some pkt =>
        obtain ⟨hmem, hseq⟩ := (hfound seq pkt).mp hget
        obtain ⟨k, hk, hat⟩ := List.getElem_of_mem hmem
        unfold Env.recent at hk hat
        rw [List.length_drop] at hk
        rw [List.getElem_drop] at hat
        have hlt : sent.length - e.windowSize + k < sent.length := by omega
        refine absurd ?_ (hnone (sent.length - e.windowSize + k) (by omega) (hlen ▸ hlt))
        rw [← hseq, ← hat]
        exact h.sent.numbered _ hlt
    refine ⟨hget, ?_⟩
    unfold slotRetransmitOrReject slotSendReject
    rw [hget]
    exact since_sendToDests slot _

theorem Duplex.Recorded.run_carries (htag : e.Tagged) (sessionId : UInt32) (sessionTs : Timespec)
    (destAddr : Path → Endpoint) (actions : List Action) :
    (run e sessionId sessionTs destAddr actions).duplex.Good e ∧
      List.Forall₂ Flush.Carries (run e sessionId sessionTs destAddr actions).flushes
        (run e sessionId sessionTs destAddr actions).duplex.sent := by
  refine Run.foldl_preserves (P := fun r : Recorded => r.duplex.Good e ∧
    List.Forall₂ Flush.Carries r.flushes r.duplex.sent) (fun r action h => ?_)
    ⟨Duplex.acts_good sessionId sessionTs destAddr [], .nil⟩ actions
  obtain ⟨hgood, hcarries⟩ := h
  refine ⟨Duplex.act_good hgood action, ?_⟩
  cases action with
  | recv _ | ping _ | fin => exact hcarries
  | data packed => exact List.rel_append hcarries (Slot.flushOf_carries htag _ packed)

theorem Duplexes.Recorded.run_carries (htag : e.Tagged) (actions : List Action) :
    (run e actions).peers = actions.foldl (Duplexes.act e) (opened e) ∧
      ∀ i, List.Forall₂ Flush.Carries ((run e actions).flushes i) ((run e actions).peers.sent i) := by
  refine ⟨(List.foldl_hom Recorded.peers fun _ _ => rfl).symm, ?_⟩
  refine Run.foldl_preserves (P := fun r : Recorded =>
    ∀ i, List.Forall₂ Flush.Carries (r.flushes i) (r.peers.sent i)) (fun r action hcarries i => ?_)
    (fun _ => .nil) actions
  cases action with
  | table action =>
    simp only [act, Duplexes.act]
    split
    · exact hcarries i
    · exact .nil
  | ping peerId healthStates =>
    have hsent : (r.peers.act e (.ping peerId healthStates)).sent = r.peers.sent := by
      simp only [Duplexes.act]
      split <;> rfl
    simp only [act, hsent]
    exact hcarries i
  | data peerId packed =>
    cases hfind : r.peers.ctx.findById e peerId with
    | none =>
      simp only [act, Duplexes.act, hfind]
      exact hcarries i
    | some k =>
      simp only [act, Duplexes.act, hfind, Ctx.slotInitPeer_store_self]
      by_cases hik : i = k
      · subst hik
        rw [Function.update_self, Function.update_self]
        exact List.rel_append (hcarries i) (Slot.flushOf_carries htag _ packed)
      · rw [Function.update_of_ne hik, Function.update_of_ne hik]
        exact hcarries i

end

-- A retransmission is the datagram that was sent first, for as long as the window keeps it.
theorem retransmission_exact (e : Env) (htag : e.Tagged) :
    (∀ sessionId sessionTs destAddr actions,
      (Duplex.Recorded.run e sessionId sessionTs destAddr actions).duplex.slot.Retransmits e
        (Duplex.Recorded.run e sessionId sessionTs destAddr actions).flushes) ∧
    (e.type = .unicastBidirN1 → ∀ actions, ∀ i < e.maxPeers,
      ((Duplexes.Recorded.run e actions).peers.ctx.peers i).active = true →
      ((Duplexes.Recorded.run e actions).peers.ctx.slotInitPeer i).Retransmits e
        ((Duplexes.Recorded.run e actions).flushes i)) := by
  refine ⟨fun sessionId sessionTs destAddr actions => ?_, fun hkind actions i hi hon => ?_⟩
  · obtain ⟨hgood, hcarries⟩ :=
      Duplex.Recorded.run_carries htag sessionId sessionTs destAddr actions
    exact hgood.2.retransmits hcarries
  · obtain ⟨hpeers, hcarries⟩ := Duplexes.Recorded.run_carries htag actions
    have hgood := Duplexes.acts_good hkind actions
    rw [← hpeers] at hgood
    exact (hgood.sends i hi hon).retransmits (hcarries i)

def Duplex.Recorded.sample : Duplex.Recorded :=
  run (Env.sampleSealed .unicastBidir) 3 ⟨2, 0⟩ (fun _ => .target) [.data [1], .data [2]]

theorem retransmission_exact_sample :
    Duplex.Recorded.sample.flushes.map (fun flush => flush.sends.length) = [2, 2] ∧
      Duplex.Recorded.sample.duplex.slot.Retransmits (Env.sampleSealed .unicastBidir)
        Duplex.Recorded.sample.flushes :=
  ⟨by decide +kernel,
    (retransmission_exact (Env.sampleSealed .unicastBidir)
      (Cplat.reference_crypto rfl rfl rfl rfl rfl rfl).tag).1 3 ⟨2, 0⟩ _ _⟩

end Porter
