import Porter.Lib.BigEndian
import Porter.Types

namespace Porter

-- potr_internal_packet_session_hdr
structure PacketSessionHdr where
  serviceId : Int64
  sessionId : UInt32
  sessionTvSec : Int64
  sessionTvNsec : Int32
  deriving DecidableEq, Repr

namespace Packet

-- fill_session_hdr over a cleared packet
def fillSessionHdr (shdr : PacketSessionHdr) : Packet where
  serviceId := shdr.serviceId
  sessionTvSec := shdr.sessionTvSec
  sessionId := shdr.sessionId
  sessionTvNsec := shdr.sessionTvNsec
  seqNum := 0
  ackNum := 0
  flags := 0
  payload := []

def buildNack (shdr : PacketSessionHdr) (nackNum : UInt32) : Packet :=
  { fillSessionHdr shdr with ackNum := nackNum, flags := FLAG_NACK }

def buildPing (shdr : PacketSessionHdr) (seqNum : UInt32) (healthPayload : Bytes) : Packet :=
  { fillSessionHdr shdr with seqNum := seqNum, flags := FLAG_PING, payload := healthPayload }

def buildReject (shdr : PacketSessionHdr) (seqNum : UInt32) : Packet :=
  { fillSessionHdr shdr with ackNum := seqNum, flags := FLAG_REJECT }

def buildFin (shdr : PacketSessionHdr) : Packet :=
  { fillSessionHdr shdr with flags := FLAG_FIN }

def buildFinAck (shdr : PacketSessionHdr) (finTargetSeq : UInt32) : Packet :=
  { fillSessionHdr shdr with ackNum := finTargetSeq, flags := FLAG_FIN_ACK }

-- `none` is POTR_ERR_INVALID_ARGUMENT.
def buildPacked (shdr : PacketSessionHdr) (seqNum : UInt32) (packedPayload : Bytes) :
    Option Packet :=
  if packedPayload.length = 0 ∨ MAX_PAYLOAD < packedPayload.length then none
  else some { fillSessionHdr shdr with
    seqNum := seqNum, flags := FLAG_DATA, payload := packedPayload }

-- The 40 header bytes in network byte order, for a payload of the given length.
def header (pkt : Packet) (payloadLen : Nat) : Bytes :=
  BigEndian.toBytes 8 pkt.serviceId.toUInt64.toNat ++
  BigEndian.toBytes 8 pkt.sessionTvSec.toUInt64.toNat ++
  BigEndian.toBytes 4 pkt.sessionId.toNat ++
  BigEndian.toBytes 4 pkt.sessionTvNsec.toUInt32.toNat ++
  BigEndian.toBytes 4 pkt.seqNum.toNat ++
  BigEndian.toBytes 4 pkt.ackNum.toNat ++
  BigEndian.toBytes 2 pkt.flags.toNat ++
  BigEndian.toBytes 2 (payloadLen % 65536) ++
  BigEndian.toBytes 4 pkt.protocolVersion.toNat

-- The first potr_internal_packet_wire_size bytes.
def wire (pkt : Packet) : Bytes := pkt.header pkt.payload.length ++ pkt.payload

-- The unsigned field of `width` bytes at `offset`.
def field (buf : Bytes) (offset width : Nat) : Nat :=
  BigEndian.ofBytes ((buf.drop offset).take width)

def parse (buf : Bytes) : Option Packet :=
  if buf.length < PACKET_HEADER_SIZE then none
  else
    let payloadLen := field buf 34 2
    let version := UInt32.ofNat (field buf 36 4)
    if version ≠ PROTOCOL_VERSION ∨ MAX_PAYLOAD < payloadLen ∨
        buf.length < payloadLen + PACKET_HEADER_SIZE then none
    else some {
      protocolVersion := version
      serviceId := (UInt64.ofNat (field buf 0 8)).toInt64
      sessionTvSec := (UInt64.ofNat (field buf 8 8)).toInt64
      sessionId := UInt32.ofNat (field buf 16 4)
      sessionTvNsec := (UInt32.ofNat (field buf 20 4)).toInt32
      seqNum := UInt32.ofNat (field buf 24 4)
      ackNum := UInt32.ofNat (field buf 28 4)
      flags := UInt16.ofNat (field buf 32 2)
      payload := (buf.drop PACKET_HEADER_SIZE).take payloadLen }

inductive UnpackError where
  | eof
  | protocol
  deriving DecidableEq, Repr

-- One payload element at `offset` of a container's payload, and the offset after it.
def unpackNext (payload : Bytes) (offset : Nat) : Except UnpackError (Elem × Nat) :=
  if payload.length < offset + PAYLOAD_ELEM_HDR_SIZE then .error .eof
  else
    let flags := UInt16.ofNat (field payload offset 2)
    let payloadLen := field payload (offset + 2) 4
    if payload.length < offset + PAYLOAD_ELEM_HDR_SIZE + payloadLen ∨ MAX_PAYLOAD < payloadLen then
      .error .protocol
    else .ok (⟨flags, (payload.drop (offset + PAYLOAD_ELEM_HDR_SIZE)).take payloadLen⟩,
      offset + PAYLOAD_ELEM_HDR_SIZE + payloadLen)

-- The callers' loop `while (unpack_next(..) == POTR_OK)`. Every round moves the offset by at
-- least the element header, so the payload's length bounds the number of rounds.
def unpackLoop (payload : Bytes) : Nat → Nat → List Elem
  | 0, _ => []
  | fuel + 1, offset =>
      match unpackNext payload offset with
      | .error _ => []
      | .ok (elem, next) => elem :: unpackLoop payload fuel next

def unpackAll (payload : Bytes) : List Elem := unpackLoop payload payload.length 0

end Packet

-- An element as it lies in the payload of a container.
def Elem.encode (elem : Elem) : Bytes :=
  BigEndian.toBytes 2 elem.flags.toNat ++
  BigEndian.toBytes 4 elem.payload.length ++ elem.payload

-- append_payload_elem
def Packet.appendPayloadElem (packedBuf : Bytes) (entry : Elem) : Bytes :=
  packedBuf ++ BigEndian.toBytes 2 entry.flags.toNat ++ BigEndian.toBytes 4 entry.payload.length ++
    entry.payload

theorem Packet.appendPayloadElem_eq (packedBuf : Bytes) (entry : Elem) :
    appendPayloadElem packedBuf entry = packedBuf ++ entry.encode := by
  simp only [appendPayloadElem, Elem.encode, List.append_assoc]

end Porter
