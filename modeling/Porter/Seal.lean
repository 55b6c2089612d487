import Porter.Packet.Lemmas
import Porter.Service

namespace Porter

-- The two ends of a service that share a key: cplat_crypto_decrypt opens what cplat_crypto_encrypt
-- has sealed with the same nonce and associated data.
structure Env.Aead (es er : Env) : Prop where
  serviceId : es.serviceId = er.serviceId
  maxPayload : es.maxPayload ≤ er.maxPayload
  enabled : es.encryptEnabled = er.encryptEnabled
  tag : es.encryptEnabled = true → ∀ nonce aad plain cipher,
    es.plat.encrypt es.encryptKey nonce aad plain = some cipher →
    cipher.length = plain.length + CRYPTO_TAG_SIZE
  opens : es.encryptEnabled = true → ∀ nonce aad plain cipher,
    es.plat.encrypt es.encryptKey nonce aad plain = some cipher →
    er.plat.decrypt er.encryptKey nonce aad cipher = some plain

namespace Packet

-- session_id, flags and a number in network byte order, padded to 12 bytes
def nonce (pkt : Packet) (num : UInt32) : Bytes :=
  BigEndian.toBytes 4 pkt.sessionId.toNat ++ BigEndian.toBytes 2 pkt.flags.toNat ++
    BigEndian.toBytes 4 num.toNat ++ [0, 0]

-- The encryption steps of flush_packed, of the PING senders and of build_ctrl_pkt_wire. The
-- header, with the flag set and the length of the sealed payload, is the associated data.
def sealAs (e : Env) (pkt : Packet) (num : UInt32) : Option Packet :=
  if e.encryptEnabled then
    let pkt := { pkt with flags := pkt.flags ||| FLAG_ENCRYPTED }
    (e.plat.encrypt e.encryptKey (pkt.nonce num)
      (pkt.header (pkt.payload.length + CRYPTO_TAG_SIZE)) pkt.payload).map
        fun cipher => { pkt with payload := cipher }
  else some pkt

-- DATA and PING
def sealData (e : Env) (pkt : Packet) : Option Packet := pkt.sealAs e pkt.seqNum

-- Control packets, which have no payload.
def buildCtrlPktWire (e : Env) (pkt : Packet) : Option Packet := pkt.sealAs e pkt.ackNum

-- thread_recv_authenticate_packet
def authenticate (e : Env) (pkt : Packet) (wireHdr : Bytes) : Option Packet :=
  if !pkt.has FLAG_ENCRYPTED then if e.encryptEnabled then none else some pkt
  else if pkt.has (FLAG_DATA ||| FLAG_PING) then
    (e.plat.decrypt e.encryptKey (pkt.nonce pkt.seqNum) wireHdr pkt.payload).map
      fun plain => { pkt with flags := pkt.flags &&& ~~~FLAG_ENCRYPTED, payload := plain }
  else if pkt.payload.length ≠ CRYPTO_TAG_SIZE then none
  else
    let val := if pkt.has (FLAG_NACK ||| FLAG_REJECT ||| FLAG_FIN_ACK) then pkt.ackNum
      else pkt.seqNum
    (e.plat.decrypt e.encryptKey (pkt.nonce val) wireHdr pkt.payload).map
      fun _ => { pkt with flags := pkt.flags &&& ~~~FLAG_ENCRYPTED, payload := [] }

-- send_fin and potr_internal_peer_send_fin: the nonce of a FIN holds no number.
def sealFin (e : Env) (pkt : Packet) : Option Packet := pkt.sealAs e 0

-- The bytes potr_internal_tcp_send_control_packet writes.
def tcpSendControlPacket (e : Env) (pkt : Packet) (nonceVal : UInt32) : Option Packet :=
  pkt.sealAs e nonceVal

-- What the receive thread makes of a datagram before it looks at the session. The socket
-- truncates a datagram to the header and max_payload bytes.
def receive (e : Env) (datagram : Bytes) : Option Packet := do
  let buf := datagram.take (PACKET_HEADER_SIZE + e.maxPayload)
  let pkt ← parse buf
  if pkt.serviceId = e.serviceId then pkt.authenticate e (buf.take PACKET_HEADER_SIZE) else none

section

variable {e : Env} {pkt pkt' : Packet}

private theorem bit_of_disjoint {flag mask : UInt16} (h : flag &&& mask = 0) {i : Nat}
    (hi : i < 16) : (flag.toBitVec[i] && mask.toBitVec[i]) = false := by
  have hbit := congrArg (fun b : BitVec 16 => b[i]) (congrArg UInt16.toBitVec h)
  simpa using hbit

private theorem or_and_of_disjoint {flags flag mask : UInt16} (h : flag &&& mask = 0) :
    (flags ||| mask) &&& flag = flags &&& flag := by
  apply UInt16.toBitVec_inj.mp
  ext i hi
  have hbit := bit_of_disjoint h hi
  simp only [UInt16.toBitVec_and, UInt16.toBitVec_or, BitVec.getElem_and, BitVec.getElem_or]
  grind

private theorem clear_and_of_disjoint {flags flag mask : UInt16} (h : flag &&& mask = 0) :
    (flags &&& ~~~mask) &&& flag = flags &&& flag := by
  apply UInt16.toBitVec_inj.mp
  ext i hi
  have hbit := bit_of_disjoint h hi
  simp only [UInt16.toBitVec_and, UInt16.toBitVec_not, BitVec.getElem_and, BitVec.getElem_not]
  grind

theorem sealAs_sameHeader {num : UInt32} (h : pkt.sealAs e num = some pkt') :
    pkt'.SameHeader pkt := by
  unfold sealAs at h
  split at h
  · obtain ⟨cipher, -, rfl⟩ := Option.map_eq_some_iff.mp h
    exact ⟨rfl, rfl, rfl, rfl, fun flag hflag => by simp only [has, or_and_of_disjoint hflag]⟩
  · obtain rfl := Option.some.inj h
    exact ⟨rfl, rfl, rfl, rfl, fun _ _ => rfl⟩

theorem sealed_has {num : UInt32} {flags : UInt16} (h : pkt.sealAs e num = some pkt')
    (hflags : pkt.flags = flags) (flag : UInt16) (hflag : flag &&& FLAG_ENCRYPTED = 0) :
    pkt'.has flag = (flags &&& flag != 0) :=
  ((sealAs_sameHeader h).has flag hflag).trans (has_of_flags hflags flag)

theorem authenticate_sameHeader {wireHdr : Bytes} (h : pkt.authenticate e wireHdr = some pkt') :
    pkt'.SameHeader pkt := by
  unfold authenticate at h
  split at h
  · split at h
    · simp at h
    · obtain rfl := Option.some.inj h
      exact ⟨rfl, rfl, rfl, rfl, fun _ _ => rfl⟩
  split at h
  · obtain ⟨plain, -, rfl⟩ := Option.map_eq_some_iff.mp h
    exact ⟨rfl, rfl, rfl, rfl, fun flag hflag => by simp only [has, clear_and_of_disjoint hflag]⟩
  split at h
  · simp at h
  · obtain ⟨plain, -, rfl⟩ := Option.map_eq_some_iff.mp h
    exact ⟨rfl, rfl, rfl, rfl, fun flag hflag => by simp only [has, clear_and_of_disjoint hflag]⟩

theorem receive_sameHeader (h : receive e pkt.wire = some pkt') : pkt'.SameHeader pkt := by
  have htake : pkt.wire.take (PACKET_HEADER_SIZE + e.maxPayload) =
      pkt.header pkt.payload.length ++ pkt.payload.take e.maxPayload := by
    unfold wire
    rw [List.take_append, length_header, List.take_of_length_le (by simp),
      Nat.add_sub_cancel_left]
  unfold receive at h
  rw [htake] at h
  obtain ⟨parsed, hparsed, hauth⟩ := Option.bind_eq_some_iff.mp h
  split at hauth
  · exact (authenticate_sameHeader hauth).trans (parse_sameHeader hparsed)
  · simp at hauth

section

variable {er : Env} {plain sent : Packet} {num : UInt32}

-- The number the authenticator puts into the nonce.
def nonceNum (pkt : Packet) : UInt32 :=
  if !pkt.has (FLAG_DATA ||| FLAG_PING) && pkt.has (FLAG_NACK ||| FLAG_REJECT ||| FLAG_FIN_ACK) then
    pkt.ackNum
  else pkt.seqNum

theorem nonceNum_of_data {pkt : Packet} (h : pkt.has (FLAG_DATA ||| FLAG_PING) = true) :
    pkt.nonceNum = pkt.seqNum := by
  unfold nonceNum
  rw [h]
  rfl

-- A packet as the library builds it: only DATA and PINGs have a payload.
structure Built (pkt : Packet) : Prop where
  version : pkt.protocolVersion = PROTOCOL_VERSION
  plain : pkt.flags &&& FLAG_ENCRYPTED = 0
  payload : pkt.has (FLAG_DATA ||| FLAG_PING) = true ∨ pkt.payload = []

private theorem or_clear_of_disjoint {flags mask : UInt16} (h : flags &&& mask = 0) :
    (flags ||| mask) &&& ~~~mask = flags := by
  apply UInt16.toBitVec_inj.mp
  ext i hi
  have hbit := bit_of_disjoint h hi
  simp only [UInt16.toBitVec_and, UInt16.toBitVec_or, UInt16.toBitVec_not, BitVec.getElem_and,
    BitVec.getElem_or, BitVec.getElem_not]
  grind

-- A packet with its payload sealed.
def withCipher (pkt : Packet) (cipher : Bytes) : Packet :=
  { pkt with flags := pkt.flags ||| FLAG_ENCRYPTED, payload := cipher }

theorem sealAs_cases (h : plain.sealAs e num = some sent) :
    e.encryptEnabled = false ∧ sent = plain ∨
      e.encryptEnabled = true ∧ ∃ cipher,
        e.plat.encrypt e.encryptKey ((plain.withCipher cipher).nonce num)
          ((plain.withCipher cipher).header (plain.payload.length + CRYPTO_TAG_SIZE))
          plain.payload = some cipher ∧ sent = plain.withCipher cipher := by
  unfold sealAs at h
  split at h
  · rename_i henc
    obtain ⟨cipher, hcipher, rfl⟩ := Option.map_eq_some_iff.mp h
    exact .inr ⟨henc, cipher, hcipher, rfl⟩
  · rename_i henc
    exact .inl ⟨Bool.eq_false_iff.mpr henc, (Option.some.inj h).symm⟩

theorem sealAs_length (haead : e.Aead er) (h : plain.sealAs e num = some sent) :
    sent.payload.length =
      plain.payload.length + if e.encryptEnabled then CRYPTO_TAG_SIZE else 0 := by
  obtain ⟨henc, rfl⟩ | ⟨henc, cipher, hcipher, rfl⟩ := sealAs_cases h
  · simp [henc]
  · rw [if_pos henc]
    exact haead.tag henc _ _ _ _ hcipher

-- The authenticator undoes an encoder that put the same number into the nonce.
theorem authenticate_sealAs (haead : e.Aead er) (hbuilt : plain.Built) (hnum : num = plain.nonceNum)
    (h : plain.sealAs e num = some sent) :
    sent.authenticate er (sent.header sent.payload.length) = some plain := by
  have hsame := (sealAs_sameHeader h).has
  have hdata := hsame (FLAG_DATA ||| FLAG_PING) (by decide)
  have hack := hsame (FLAG_NACK ||| FLAG_REJECT ||| FLAG_FIN_ACK) (by decide)
  obtain ⟨henc, rfl⟩ | ⟨henc, cipher, hcipher, rfl⟩ := sealAs_cases h
  · have hoff : er.encryptEnabled = false := haead.enabled.symm.trans henc
    have hflag : sent.has FLAG_ENCRYPTED = false := by simp [has, hbuilt.plain]
    unfold authenticate
    rw [hflag, hoff]
    rfl
  have hlen : cipher.length = plain.payload.length + CRYPTO_TAG_SIZE :=
    haead.tag henc _ _ _ _ hcipher
  have hopen := haead.opens henc _ _ _ _ hcipher
  have hflag : (plain.withCipher cipher).has FLAG_ENCRYPTED = true := by
    have hbits : (plain.flags ||| FLAG_ENCRYPTED) &&& FLAG_ENCRYPTED = FLAG_ENCRYPTED := by
      apply UInt16.toBitVec_inj.mp
      ext i hi
      simp only [UInt16.toBitVec_and, UInt16.toBitVec_or, BitVec.getElem_and, BitVec.getElem_or]
      grind
    unfold has withCipher
    rw [hbits]
    decide
  have hclear : (plain.withCipher cipher).flags &&& ~~~FLAG_ENCRYPTED = plain.flags :=
    or_clear_of_disjoint hbuilt.plain
  unfold authenticate
  rw [hflag, hdata, hack, hclear]
  rw [← hlen] at hopen
  unfold nonceNum at hnum
  cases hkind : plain.has (FLAG_DATA ||| FLAG_PING) with
  | true =>
    rw [hkind] at hnum
    rw [show num = plain.seqNum from hnum] at hopen
    exact congrArg (Option.map _) hopen
  | false =>
    have hempty := hbuilt.payload.resolve_left (by simp [hkind])
    have htag : (plain.withCipher cipher).payload.length = CRYPTO_TAG_SIZE := by
      refine hlen.trans ?_
      rw [hempty]
      rfl
    have hnonce : num = if plain.has (FLAG_NACK ||| FLAG_REJECT ||| FLAG_FIN_ACK) = true then
        plain.ackNum else plain.seqNum := by
      rw [hnum, hkind]
      rfl
    rw [hnonce] at hopen
    rw [if_neg (not_not.mpr htag)]
    refine (congrArg (Option.map _) hopen).trans ?_
    rw [Option.map_some, ← hempty]
    rfl

theorem sealAs_version (h : plain.sealAs e num = some sent) :
    sent.protocolVersion = plain.protocolVersion := by
  obtain ⟨-, rfl⟩ | ⟨-, cipher, -, rfl⟩ := sealAs_cases h <;> rfl

theorem take_wire_header (pkt : Packet) :
    pkt.wire.take PACKET_HEADER_SIZE = pkt.header pkt.payload.length :=
  List.take_left' (length_header _ _)

@[simp] theorem length_wire (pkt : Packet) :
    pkt.wire.length = PACKET_HEADER_SIZE + pkt.payload.length := by
  simp [wire]

theorem receive_sealAs (haead : e.Aead er) (hbuilt : plain.Built) (hnum : num = plain.nonceNum)
    (hservice : plain.serviceId = e.serviceId)
    (hlen : plain.payload.length + (if e.encryptEnabled then CRYPTO_TAG_SIZE else 0) ≤ e.maxPayload)
    (h : plain.sealAs e num = some sent) : receive er sent.wire = some plain := by
  have hsent : sent.payload.length ≤ er.maxPayload := by
    rw [sealAs_length haead h]
    exact hlen.trans haead.maxPayload
  have htake : sent.wire.take (PACKET_HEADER_SIZE + er.maxPayload) = sent.wire := by
    refine List.take_of_length_le ?_
    rw [length_wire]
    omega
  have hparse : parse sent.wire = some sent :=
    parse_wire ((sealAs_version h).trans hbuilt.version) (hsent.trans er.bounds.2.1)
  have hid : sent.serviceId = er.serviceId :=
    (sealAs_sameHeader h).serviceId.trans (hservice.trans haead.serviceId)
  unfold receive
  simp only [htake, hparse, take_wire_header]
  rw [← authenticate_sealAs haead hbuilt hnum h]
  exact if_pos hid

end

end

end Packet

end Porter
