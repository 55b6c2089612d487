import Porter.Packet.Unpack
import Porter.Service

namespace Porter

-- cplat/net/byteorder.h
structure ByteOrder where
  hton16 : UInt16 → UInt16
  hton32 : UInt32 → UInt32
  ntoh16 : UInt16 → UInt16
  ntoh32 : UInt32 → UInt32

namespace ByteOrder

-- On a little-endian host a number in network byte order lies in memory with its most significant
-- byte first.
structure Correct (b : ByteOrder) : Prop where
  hton16 : ∀ v, LittleEndian.toBytes 2 (b.hton16 v).toNat = BigEndian.toBytes 2 v.toNat
  hton32 : ∀ v, LittleEndian.toBytes 4 (b.hton32 v).toNat = BigEndian.toBytes 4 v.toNat
  ntoh16 : ∀ v, BigEndian.toBytes 2 (b.ntoh16 v).toNat = LittleEndian.toBytes 2 v.toNat
  ntoh32 : ∀ v, BigEndian.toBytes 4 (b.ntoh32 v).toNat = LittleEndian.toBytes 4 v.toNat

def hton64 (b : ByteOrder) (v : UInt64) : UInt64 :=
  let hi := b.hton32 (v >>> 32).toUInt32
  let lo := b.hton32 (v &&& 0xFFFFFFFF).toUInt32
  lo.toUInt64 <<< 32 ||| hi.toUInt64

def ntoh64 (b : ByteOrder) (v : UInt64) : UInt64 := b.hton64 v

end ByteOrder

-- potr_packet as it lies in memory, with the fields in network byte order.
structure RawPacket where
  serviceId : Int64
  sessionTvSec : Int64
  sessionId : UInt32
  sessionTvNsec : Int32
  seqNum : UInt32
  ackNum : UInt32
  flags : UInt16
  payloadLen : UInt16
  protocolVersion : UInt32
  payload : Bytes

namespace RawPacket

-- The bytes up to the payload pointer: the fields follow each other without padding.
def memory (raw : RawPacket) : Bytes :=
  LittleEndian.toBytes 8 raw.serviceId.toUInt64.toNat ++
  LittleEndian.toBytes 8 raw.sessionTvSec.toUInt64.toNat ++
  LittleEndian.toBytes 4 raw.sessionId.toNat ++
  LittleEndian.toBytes 4 raw.sessionTvNsec.toUInt32.toNat ++
  LittleEndian.toBytes 4 raw.seqNum.toNat ++
  LittleEndian.toBytes 4 raw.ackNum.toNat ++
  LittleEndian.toBytes 2 raw.flags.toNat ++
  LittleEndian.toBytes 2 raw.payloadLen.toNat ++
  LittleEndian.toBytes 4 raw.protocolVersion.toNat

-- memset and fill_session_hdr
def fillSessionHdr (b : ByteOrder) (shdr : PacketSessionHdr) : RawPacket where
  serviceId := (b.hton64 shdr.serviceId.toUInt64).toInt64
  sessionTvSec := (b.hton64 shdr.sessionTvSec.toUInt64).toInt64
  sessionId := b.hton32 shdr.sessionId
  sessionTvNsec := (b.hton32 shdr.sessionTvNsec.toUInt32).toInt32
  seqNum := 0
  ackNum := 0
  flags := 0
  payloadLen := 0
  protocolVersion := b.hton32 PROTOCOL_VERSION
  payload := []

def buildNack (b : ByteOrder) (shdr : PacketSessionHdr) (nackNum : UInt32) : RawPacket :=
  { fillSessionHdr b shdr with ackNum := b.hton32 nackNum, flags := b.hton16 FLAG_NACK }

-- `none` is a NULL health_payload.
def buildPing (b : ByteOrder) (shdr : PacketSessionHdr) (seqNum : UInt32)
    (healthPayload : Option Bytes) : RawPacket :=
  let raw := { fillSessionHdr b shdr with seqNum := b.hton32 seqNum, flags := b.hton16 FLAG_PING }
  match healthPayload with
  | some payload =>
      { raw with payload := payload, payloadLen := b.hton16 (UInt16.ofNat payload.length) }
  | none => { raw with payload := [], payloadLen := 0 }

def buildReject (b : ByteOrder) (shdr : PacketSessionHdr) (seqNum : UInt32) : RawPacket :=
  { fillSessionHdr b shdr with ackNum := b.hton32 seqNum, flags := b.hton16 FLAG_REJECT }

def buildFin (b : ByteOrder) (shdr : PacketSessionHdr) : RawPacket :=
  { fillSessionHdr b shdr with flags := b.hton16 FLAG_FIN }

-- The callers of potr_internal_packet_build_fin set the target.
def setFinTarget (b : ByteOrder) (raw : RawPacket) (target : UInt32) : RawPacket :=
  { raw with
    flags := raw.flags ||| b.hton16 FLAG_FIN_TARGET_VALID
    ackNum := b.hton32 target }

def buildFinAck (b : ByteOrder) (shdr : PacketSessionHdr) (finTargetSeq : UInt32) : RawPacket :=
  { fillSessionHdr b shdr with ackNum := b.hton32 finTargetSeq, flags := b.hton16 FLAG_FIN_ACK }

def buildPacked (b : ByteOrder) (shdr : PacketSessionHdr) (seqNum : UInt32) (packedPayload : Bytes) :
    Option RawPacket :=
  if packedPayload.length = 0 ∨ MAX_PAYLOAD < packedPayload.length then none
  else some { fillSessionHdr b shdr with
    seqNum := b.hton32 seqNum
    flags := b.hton16 FLAG_DATA
    payloadLen := b.hton16 (UInt16.ofNat packedPayload.length)
    payload := packedPayload }

-- memcpy of `width` bytes at `offset` into an integer.
def load (buf : Bytes) (offset width : Nat) : Nat :=
  LittleEndian.ofBytes ((buf.drop offset).take width)

-- potr_internal_packet_parse
def parse (b : ByteOrder) (buf : Bytes) : Option Packet :=
  if buf.length < PACKET_HEADER_SIZE then none
  else
    let payloadLen := b.ntoh16 (UInt16.ofNat (load buf 34 2))
    let protocolVersion := b.ntoh32 (UInt32.ofNat (load buf 36 4))
    if protocolVersion ≠ PROTOCOL_VERSION ∨ MAX_PAYLOAD < payloadLen.toNat ∨
        buf.length < payloadLen.toNat + PACKET_HEADER_SIZE then none
    else some {
      protocolVersion := protocolVersion
      serviceId := (b.ntoh64 (UInt64.ofNat (load buf 0 8))).toInt64
      sessionTvSec := (b.ntoh64 (UInt64.ofNat (load buf 8 8))).toInt64
      sessionId := b.ntoh32 (UInt32.ofNat (load buf 16 4))
      sessionTvNsec := (b.ntoh32 (UInt32.ofNat (load buf 20 4))).toInt32
      seqNum := b.ntoh32 (UInt32.ofNat (load buf 24 4))
      ackNum := b.ntoh32 (UInt32.ofNat (load buf 28 4))
      flags := b.ntoh16 (UInt16.ofNat (load buf 32 2))
      payload := (buf.drop PACKET_HEADER_SIZE).take payloadLen.toNat }

-- potr_internal_packet_wire_size
def wireSize (b : ByteOrder) (raw : RawPacket) : Nat :=
  PACKET_HEADER_SIZE + (b.ntoh16 raw.payloadLen).toNat

def encode (b : ByteOrder) (pkt : Packet) : RawPacket where
  serviceId := (b.hton64 pkt.serviceId.toUInt64).toInt64
  sessionTvSec := (b.hton64 pkt.sessionTvSec.toUInt64).toInt64
  sessionId := b.hton32 pkt.sessionId
  sessionTvNsec := (b.hton32 pkt.sessionTvNsec.toUInt32).toInt32
  seqNum := b.hton32 pkt.seqNum
  ackNum := b.hton32 pkt.ackNum
  flags := b.hton16 pkt.flags
  payloadLen := b.hton16 (UInt16.ofNat pkt.payload.length)
  protocolVersion := b.hton32 pkt.protocolVersion
  payload := pkt.payload

-- What lies in memory is the documented layout of the fields, and they are read back from it.
structure Carries (b : ByteOrder) (raw : RawPacket) (pkt : Packet) : Prop where
  memory : raw.memory = pkt.header pkt.payload.length
  payload : raw.payload = pkt.payload
  wireSize : raw.wireSize b = (raw.memory ++ raw.payload).length
  parsed : parse b (raw.memory ++ raw.payload) = some pkt

end RawPacket

section

variable {b : ByteOrder}

namespace ByteOrder

theorem hton64_toNat (b : ByteOrder) (v : UInt64) :
    (b.hton64 v).toNat =
      (b.hton32 v.toUInt32).toNat * 256 ^ 4 + (b.hton32 (v >>> 32).toUInt32).toNat := by
  have hlow : (v &&& 0xFFFFFFFF).toUInt32 = v.toUInt32 := by
    apply UInt32.toNat_inj.mp
    have hand : v.toNat % 4294967296 &&& 4294967295 = v.toNat % 4294967296 :=
      (Nat.and_two_pow_sub_one_eq_mod (v.toNat % 4294967296) 32).trans (Nat.mod_mod _ _)
    simpa using hand
  have hhi := (b.hton32 (v >>> 32).toUInt32).toNat_lt
  have hlo := (b.hton32 v.toUInt32).toNat_lt
  unfold hton64
  rw [hlow]
  generalize b.hton32 v.toUInt32 = lo at hlo ⊢
  have hshift : (lo.toUInt64 <<< 32).toNat = lo.toNat <<< 32 := by
    rw [UInt64.toNat_shiftLeft]
    simp only [UInt32.toNat_toUInt64, UInt64.reduceToNat, Nat.reduceMod]
    rw [Nat.mod_eq_of_lt]
    rw [Nat.shiftLeft_eq]
    omega
  simp only [UInt64.toNat_or, hshift, UInt32.toNat_toUInt64]
  rw [← Nat.shiftLeft_add_eq_or_of_lt hhi, Nat.shiftLeft_eq]
  rfl

theorem Correct.hton64 (h : b.Correct) (v : UInt64) :
    LittleEndian.toBytes 8 (b.hton64 v).toNat = BigEndian.toBytes 8 v.toNat := by
  have hhi : (b.hton32 (v >>> 32).toUInt32).toNat < 256 ^ 4 := UInt32.toNat_lt _
  have hswap := hton64_toNat b v
  -- the converted upper half comes first in memory
  have hfirst : LittleEndian.toBytes 4 (b.hton64 v).toNat = BigEndian.toBytes 4 (v.toNat / 256 ^ 4) := by
    have hmod : (b.hton64 v).toNat % 256 ^ 4 = (b.hton32 (v >>> 32).toUInt32).toNat := by omega
    have hhalf : (v >>> 32).toUInt32.toNat = v.toNat / 256 ^ 4 % 256 ^ 4 := by
      simp [Nat.shiftRight_eq_div_pow]
    rw [LittleEndian.toBytes, ← BigEndian.toBytes_mod, hmod]
    exact (h.hton32 _).trans (by rw [hhalf, BigEndian.toBytes_mod])
  have hsecond : LittleEndian.toBytes 4 ((b.hton64 v).toNat / 256 ^ 4) =
      BigEndian.toBytes 4 v.toNat := by
    have hdiv : (b.hton64 v).toNat / 256 ^ 4 = (b.hton32 v.toUInt32).toNat := by omega
    have hhalf : v.toUInt32.toNat = v.toNat % 256 ^ 4 := by simp
    rw [hdiv, h.hton32, hhalf, BigEndian.toBytes_mod]
  rw [show (8 : Nat) = 4 + 4 from rfl, LittleEndian.toBytes_add, BigEndian.toBytes_add, hfirst,
    hsecond]

theorem eq_ofBytes (width : Nat) {n : Nat} {bytes : Bytes} (hn : n < 256 ^ width)
    (h : BigEndian.toBytes width n = bytes) : n = BigEndian.ofBytes bytes := by
  rw [← h, BigEndian.ofBytes_toBytes hn]

theorem Correct.ntoh16_load (h : b.Correct) {bytes : Bytes} (hlen : bytes.length = 2) :
    (b.ntoh16 (UInt16.ofNat (LittleEndian.ofBytes bytes))).toNat = BigEndian.ofBytes bytes := by
  refine eq_ofBytes 2 (UInt16.toNat_lt _) ?_
  rw [h.ntoh16, UInt16.toNat_ofNat_of_lt' (LittleEndian.ofBytes_lt hlen),
    LittleEndian.toBytes_ofBytes hlen]

theorem Correct.ntoh32_load (h : b.Correct) {bytes : Bytes} (hlen : bytes.length = 4) :
    (b.ntoh32 (UInt32.ofNat (LittleEndian.ofBytes bytes))).toNat = BigEndian.ofBytes bytes := by
  refine eq_ofBytes 4 (UInt32.toNat_lt _) ?_
  rw [h.ntoh32, UInt32.toNat_ofNat_of_lt' (LittleEndian.ofBytes_lt hlen),
    LittleEndian.toBytes_ofBytes hlen]

theorem Correct.ntoh64_load (h : b.Correct) {bytes : Bytes} (hlen : bytes.length = 8) :
    (b.ntoh64 (UInt64.ofNat (LittleEndian.ofBytes bytes))).toNat = BigEndian.ofBytes bytes := by
  refine eq_ofBytes 8 (UInt64.toNat_lt _) ?_
  have hback := congrArg List.reverse (h.hton64 (UInt64.ofNat (LittleEndian.ofBytes bytes)))
  rw [LittleEndian.toBytes, List.reverse_reverse] at hback
  rw [ntoh64, hback, UInt64.toNat_ofNat_of_lt' (LittleEndian.ofBytes_lt hlen)]
  exact LittleEndian.toBytes_ofBytes hlen

theorem Correct.hton16_eq (h : b.Correct) (v : UInt16) :
    b.hton16 v = UInt16.ofNat (LittleEndian.ofBytes (BigEndian.toBytes 2 v.toNat)) := by
  apply UInt16.toNat_inj.mp
  have hlen : (BigEndian.toBytes 2 v.toNat).length = 2 := BigEndian.length_toBytes ..
  rw [UInt16.toNat_ofNat_of_lt' (LittleEndian.ofBytes_lt hlen), LittleEndian.ofBytes]
  refine eq_ofBytes 2 (UInt16.toNat_lt _) ?_
  rw [← h.hton16 v, LittleEndian.toBytes, List.reverse_reverse]

theorem Correct.hton32_zero (h : b.Correct) : b.hton32 0 = 0 := by
  apply UInt32.toNat_inj.mp
  have hback := congrArg List.reverse (h.hton32 0)
  rw [LittleEndian.toBytes, List.reverse_reverse] at hback
  exact eq_ofBytes 4 (UInt32.toNat_lt _) hback

theorem Correct.ntoh16_hton16 (h : b.Correct) (v : UInt16) : b.ntoh16 (b.hton16 v) = v := by
  apply UInt16.toNat_inj.mp
  refine (eq_ofBytes 2 (UInt16.toNat_lt _) (h.ntoh16 (b.hton16 v))).trans ?_
  rw [h.hton16, BigEndian.ofBytes_toBytes (UInt16.toNat_lt _)]

end ByteOrder

namespace RawPacket

open ByteOrder

theorem memory_encode (h : b.Correct) (pkt : Packet) :
    (encode b pkt).memory = pkt.header pkt.payload.length := by
  have hlen : LittleEndian.toBytes 2 (b.hton16 (UInt16.ofNat pkt.payload.length)).toNat =
      BigEndian.toBytes 2 (pkt.payload.length % 65536) := by
    rw [h.hton16, UInt16.toNat_ofNat']
  simp only [memory, encode, Packet.header, UInt64.toUInt64_toInt64, UInt32.toUInt32_toInt32,
    h.hton64, h.hton32, h.hton16 pkt.flags, hlen]

theorem length_slice {buf : Bytes} {offset width : Nat} (hbuf : offset + width ≤ buf.length) :
    ((buf.drop offset).take width).length = width := by
  rw [List.length_take, List.length_drop]
  omega

theorem parse_eq (h : b.Correct) (buf : Bytes) : parse b buf = Packet.parse buf := by
  unfold parse Packet.parse
  split
  · rfl
  · rename_i hbuf
    have h16 : ∀ offset, offset + 2 ≤ PACKET_HEADER_SIZE →
        (b.ntoh16 (UInt16.ofNat (load buf offset 2))).toNat = Packet.field buf offset 2 :=
      fun offset hoffset => h.ntoh16_load (length_slice (by omega))
    have h32 : ∀ offset, offset + 4 ≤ PACKET_HEADER_SIZE →
        b.ntoh32 (UInt32.ofNat (load buf offset 4)) = UInt32.ofNat (Packet.field buf offset 4) := by
      intro offset hoffset
      rw [Packet.field, ← h.ntoh32_load (length_slice (by omega)), UInt32.ofNat_toNat]
      rfl
    have h64 : ∀ offset, offset + 8 ≤ PACKET_HEADER_SIZE →
        b.ntoh64 (UInt64.ofNat (load buf offset 8)) = UInt64.ofNat (Packet.field buf offset 8) := by
      intro offset hoffset
      rw [Packet.field, ← h.ntoh64_load (length_slice (by omega)), UInt64.ofNat_toNat]
      rfl
    have hflags : b.ntoh16 (UInt16.ofNat (load buf 32 2)) = UInt16.ofNat (Packet.field buf 32 2) := by
      rw [← h16 32 (by decide), UInt16.ofNat_toNat]
    simp only [h16 34 (by decide), h32 36 (by decide), h64 0 (by decide), h64 8 (by decide),
      h32 16 (by decide), h32 20 (by decide), h32 24 (by decide), h32 28 (by decide), hflags]

theorem encode_carries (h : b.Correct) {pkt : Packet}
    (hversion : pkt.protocolVersion = PROTOCOL_VERSION) (hlen : pkt.payload.length ≤ MAX_PAYLOAD) :
    (encode b pkt).Carries b pkt where
  memory := memory_encode h pkt
  payload := rfl
  wireSize := by
    have hmod : pkt.payload.length % 65536 = pkt.payload.length :=
      Nat.mod_eq_of_lt (by simp only [MAX_PAYLOAD] at hlen; omega)
    rw [memory_encode h, List.length_append, Packet.length_header]
    simp only [wireSize, encode, h.ntoh16_hton16, UInt16.toNat_ofNat']
    exact congrArg (PACKET_HEADER_SIZE + ·) hmod
  parsed := by
    rw [memory_encode h, parse_eq h]
    exact Packet.parse_wire hversion hlen

theorem buildPacked_eq (h : b.Correct) (shdr : PacketSessionHdr) (seqNum : UInt32)
    (payload : Bytes) :
    buildPacked b shdr seqNum payload = (Packet.buildPacked shdr seqNum payload).map (encode b) := by
  unfold buildPacked Packet.buildPacked
  split
  · rfl
  · simp [encode, fillSessionHdr, Packet.fillSessionHdr, h.hton32_zero]

theorem buildPing_eq (h : b.Correct) (shdr : PacketSessionHdr) (seqNum : UInt32)
    (payload : Option Bytes) :
    buildPing b shdr seqNum payload = encode b (Packet.buildPing shdr seqNum (payload.getD [])) := by
  have hzero : b.hton16 0 = 0 := h.hton16_eq 0
  cases payload with
  | none =>
    simp [buildPing, Packet.buildPing, encode, fillSessionHdr, Packet.fillSessionHdr,
      h.hton32_zero, hzero]
  | some payload =>
    simp [buildPing, Packet.buildPing, encode, fillSessionHdr, Packet.fillSessionHdr,
      h.hton32_zero]

theorem ctrl_eq (h : b.Correct) (shdr : PacketSessionHdr) (ackNum : UInt32) (flags : UInt16) :
    ({ fillSessionHdr b shdr with ackNum := b.hton32 ackNum, flags := b.hton16 flags } : RawPacket) =
      encode b { Packet.fillSessionHdr shdr with ackNum := ackNum, flags := flags } := by
  have hzero : b.hton16 0 = 0 := h.hton16_eq 0
  simp [encode, fillSessionHdr, Packet.fillSessionHdr, h.hton32_zero, hzero]

end RawPacket

end

-- Every packet that is built lies in memory in the documented layout and is read back as it was
-- built; parse accepts exactly the well-formed byte strings, and encoding what it returns gives
-- the bytes back.
theorem wire_header_round_trip {b : ByteOrder} (h : b.Correct) :
    (∀ (shdr : PacketSessionHdr) (num : UInt32),
      (∀ payload : Bytes, 0 < payload.length → payload.length ≤ MAX_PAYLOAD →
        ∃ raw, RawPacket.buildPacked b shdr num payload = some raw ∧ raw.Carries b
          { Packet.fillSessionHdr shdr with
            seqNum := num, flags := FLAG_DATA, payload := payload }) ∧
      (∀ payload : Option Bytes, (payload.getD []).length ≤ MAX_PAYLOAD →
        (RawPacket.buildPing b shdr num payload).Carries b
          { Packet.fillSessionHdr shdr with
            seqNum := num, flags := FLAG_PING, payload := payload.getD [] }) ∧
      (RawPacket.buildNack b shdr num).Carries b
        { Packet.fillSessionHdr shdr with ackNum := num, flags := FLAG_NACK } ∧
      (RawPacket.buildReject b shdr num).Carries b
        { Packet.fillSessionHdr shdr with ackNum := num, flags := FLAG_REJECT } ∧
      (RawPacket.buildFin b shdr).Carries b
        { Packet.fillSessionHdr shdr with flags := FLAG_FIN } ∧
      (RawPacket.setFinTarget b (RawPacket.buildFin b shdr) num).Carries b
        { Packet.fillSessionHdr shdr with
          ackNum := num, flags := FLAG_FIN ||| FLAG_FIN_TARGET_VALID } ∧
      (RawPacket.buildFinAck b shdr num).Carries b
        { Packet.fillSessionHdr shdr with ackNum := num, flags := FLAG_FIN_ACK }) ∧
    (∀ pkt : Packet, pkt.protocolVersion = PROTOCOL_VERSION → pkt.payload.length ≤ MAX_PAYLOAD →
      (RawPacket.encode b pkt).Carries b pkt) ∧
    ∀ buf : Bytes,
      ((RawPacket.parse b buf).isSome = true ↔ PACKET_HEADER_SIZE ≤ buf.length ∧
        Packet.field buf 36 4 = PROTOCOL_VERSION.toNat ∧ Packet.field buf 34 2 ≤ MAX_PAYLOAD ∧
        Packet.field buf 34 2 + PACKET_HEADER_SIZE ≤ buf.length) ∧
      ∀ pkt, RawPacket.parse b buf = some pkt →
        (RawPacket.encode b pkt).memory ++ pkt.payload =
          buf.take (PACKET_HEADER_SIZE + Packet.field buf 34 2) := by
  have hctrl : ∀ (shdr : PacketSessionHdr) (num : UInt32) (flags : UInt16),
      ({ RawPacket.fillSessionHdr b shdr with
          ackNum := b.hton32 num, flags := b.hton16 flags } : RawPacket).Carries b
        { Packet.fillSessionHdr shdr with ackNum := num, flags := flags } := by
    intro shdr num flags
    rw [RawPacket.ctrl_eq h]
    exact RawPacket.encode_carries h rfl (Nat.zero_le _)
  refine ⟨fun shdr num => ⟨fun payload hpos hmax => ?_, fun payload hmax => ?_, hctrl shdr num _,
    hctrl shdr num _, ?_, ?_, hctrl shdr num _⟩, fun pkt => RawPacket.encode_carries h,
    fun buf => ?_⟩
  · have hbuilt : Packet.buildPacked shdr num payload = some { Packet.fillSessionHdr shdr with
        seqNum := num, flags := FLAG_DATA, payload := payload } := if_neg (by omega)
    rw [RawPacket.buildPacked_eq h, hbuilt]
    exact ⟨_, rfl, RawPacket.encode_carries h rfl hmax⟩
  · rw [RawPacket.buildPing_eq h]
    exact RawPacket.encode_carries h rfl hmax
  · have hfin := hctrl shdr 0 FLAG_FIN
    rw [h.hton32_zero] at hfin
    exact hfin
  · have hor : b.hton16 FLAG_FIN ||| b.hton16 FLAG_FIN_TARGET_VALID =
        b.hton16 (FLAG_FIN ||| FLAG_FIN_TARGET_VALID) := by
      rw [h.hton16_eq, h.hton16_eq, h.hton16_eq]
      decide
    have hfin := hctrl shdr num (FLAG_FIN ||| FLAG_FIN_TARGET_VALID)
    rw [← hor] at hfin
    exact hfin
  · rw [RawPacket.parse_eq h]
    refine ⟨Packet.parse_isSome_iff buf, fun pkt hpkt => ?_⟩
    rw [RawPacket.memory_encode h]
    exact Packet.wire_parse hpkt

-- The byte swaps of a little-endian host.
def ByteOrder.swap : ByteOrder where
  hton16 := fun v => UInt16.ofNat (LittleEndian.ofBytes (BigEndian.toBytes 2 v.toNat))
  hton32 := fun v => UInt32.ofNat (LittleEndian.ofBytes (BigEndian.toBytes 4 v.toNat))
  ntoh16 := fun v => UInt16.ofNat (BigEndian.ofBytes (LittleEndian.toBytes 2 v.toNat))
  ntoh32 := fun v => UInt32.ofNat (BigEndian.ofBytes (LittleEndian.toBytes 4 v.toNat))

private theorem load_store (width : Nat) {n : Nat} {bytes : Bytes} (hbytes : bytes.length = width)
    (hn : n = LittleEndian.ofBytes bytes % 256 ^ width) : LittleEndian.toBytes width n = bytes := by
  rw [hn, Nat.mod_eq_of_lt (LittleEndian.ofBytes_lt hbytes), LittleEndian.toBytes_ofBytes hbytes]

private theorem read_write (width : Nat) {n : Nat} {bytes : Bytes} (hbytes : bytes.length = width)
    (hn : n = BigEndian.ofBytes bytes % 256 ^ width) : BigEndian.toBytes width n = bytes := by
  have hback := BigEndian.toBytes_ofBytes bytes
  rw [hbytes] at hback
  rw [hn, BigEndian.toBytes_mod, hback]

theorem ByteOrder.swap_correct : ByteOrder.swap.Correct where
  hton16 := fun _ => load_store 2 (BigEndian.length_toBytes ..) UInt16.toNat_ofNat'
  hton32 := fun _ => load_store 4 (BigEndian.length_toBytes ..) UInt32.toNat_ofNat'
  ntoh16 := fun _ => read_write 2 (LittleEndian.length_toBytes ..) UInt16.toNat_ofNat'
  ntoh32 := fun _ => read_write 4 (LittleEndian.length_toBytes ..) UInt32.toNat_ofNat'

theorem wire_header_round_trip_sample :
    (RawPacket.setFinTarget .swap (RawPacket.buildFin .swap ⟨-1, 7, 9, 500⟩) 3).memory =
      [255, 255, 255, 255, 255, 255, 255, 255, 0, 0, 0, 0, 0, 0, 0, 9, 0, 0, 0, 7, 0, 0, 1, 244,
        0, 0, 0, 0, 0, 0, 0, 3, 0, 80, 0, 0, 0, 0, 0, 1] ∧
    RawPacket.parse .swap
        (RawPacket.setFinTarget .swap (RawPacket.buildFin .swap ⟨-1, 7, 9, 500⟩) 3).memory =
      some { Packet.fillSessionHdr ⟨-1, 7, 9, 500⟩ with
        ackNum := 3, flags := FLAG_FIN ||| FLAG_FIN_TARGET_VALID } := by
  obtain ⟨-, -, -, -, -, hfin, -⟩ := (wire_header_round_trip ByteOrder.swap_correct).1
    ⟨-1, 7, 9, 500⟩ 3
  have hparsed := hfin.parsed
  have hpayload : (RawPacket.setFinTarget .swap (RawPacket.buildFin .swap ⟨-1, 7, 9, 500⟩) 3).payload =
      [] := rfl
  rw [hpayload, List.append_nil] at hparsed
  exact ⟨hfin.memory.trans (by decide), hparsed⟩

end Porter
