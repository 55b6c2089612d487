import Porter.Lib.Serial

namespace Porter

abbrev Bytes := List UInt8

-- porter_const.h
abbrev FLAG_DATA : UInt16 := 0x0001
abbrev FLAG_NACK : UInt16 := 0x0002
abbrev FLAG_PING : UInt16 := 0x0004
abbrev FLAG_REJECT : UInt16 := 0x0008
abbrev FLAG_FIN : UInt16 := 0x0010
abbrev FLAG_ENCRYPTED : UInt16 := 0x0020
abbrev FLAG_FIN_TARGET_VALID : UInt16 := 0x0040
abbrev FLAG_FIN_ACK : UInt16 := 0x0080

abbrev FLAG_MORE_FRAG : UInt16 := 0x0001
abbrev FLAG_COMPRESSED : UInt16 := 0x0002

abbrev PROTOCOL_VERSION : UInt32 := 1
abbrev CRYPTO_TAG_SIZE : Nat := 16
abbrev MAX_PAYLOAD : Nat := 65507
abbrev MAX_WINDOW_SIZE : Nat := 256
abbrev PAYLOAD_ELEM_HDR_SIZE : Nat := 6
abbrev MAX_PATH : Nat := 4
abbrev PACKET_HEADER_SIZE : Nat := 40
abbrev NACK_DEDUP_SLOTS : Nat := 8
abbrev NACK_DEDUP_MS : Nat := 200
abbrev COMPRESS_HEADER_SIZE : Nat := 8

abbrev PEER_NA : UInt32 := 0
abbrev PEER_ALL : UInt32 := 0xFFFFFFFF

abbrev PING_STATE_UNDEFINED : UInt8 := 0
abbrev PING_STATE_NORMAL : UInt8 := 1
abbrev PING_STATE_ABNORMAL : UInt8 := 2

-- One of the POTR_MAX_PATH sockets of a service.
abbrev Path := Fin MAX_PATH

instance : NeZero MAX_PATH := ⟨by decide⟩

inductive PotrType where
  | unicastRaw
  | multicastRaw
  | broadcastRaw
  | unicast
  | multicast
  | broadcast
  | unicastBidir
  | unicastBidirN1
  | tcp
  | tcpBidir
  deriving DecidableEq, Repr

namespace PotrType

def isTcpType : PotrType → Bool
  | tcp | tcpBidir => true
  | _ => false

def isRawType : PotrType → Bool
  | unicastRaw | multicastRaw | broadcastRaw => true
  | _ => false

def rawBaseType : PotrType → PotrType
  | unicastRaw => unicast
  | multicastRaw => multicast
  | broadcastRaw => broadcast
  | t => t

end PotrType

inductive Role where
  | sender
  | receiver
  deriving DecidableEq, Repr

structure Timespec where
  tvSec : Int64
  tvNsec : Int64
  deriving DecidableEq, Repr

instance : Inhabited Timespec := ⟨⟨0, 0⟩⟩

structure Endpoint where
  address : UInt32
  port : UInt16
  deriving DecidableEq, Repr

def Endpoint.clear : Endpoint := ⟨0, 0⟩

def Endpoint.isUnset (ep : Endpoint) : Bool := ep.address = 0 && ep.port = 0

-- cplat_hton16 on a little-endian host. Ports in endpoints are in network byte order.
def hton16 (x : UInt16) : UInt16 := x <<< 8 ||| x >>> 8

theorem hton16_ne_zero {x : UInt16} (h : x ≠ 0) : hton16 x ≠ 0 := by
  intro hz
  obtain ⟨hlow, hhigh⟩ := UInt16.or_eq_zero_iff.mp hz
  have hl : (x <<< 8).toNat = 0 := by rw [hlow]; rfl
  have hh : (x >>> 8).toNat = 0 := by rw [hhigh]; rfl
  rw [UInt16.toNat_shiftLeft] at hl
  rw [UInt16.toNat_shiftRight] at hh
  simp only [UInt16.reduceToNat, Nat.reduceMod, Nat.shiftLeft_eq, Nat.shiftRight_eq_div_pow] at hl hh
  exact h (UInt16.toNat_inj.mp (by simp; omega))

-- The session triple carried by every packet.
structure SessionHdr where
  id : UInt32
  ts : Timespec
  deriving DecidableEq, Repr

-- potr_packet with host byte order fields. `payload_len` is the length of `payload`.
structure Packet where
  protocolVersion : UInt32 := PROTOCOL_VERSION
  serviceId : Int64
  sessionTvSec : Int64
  sessionId : UInt32
  sessionTvNsec : Int32
  seqNum : UInt32
  ackNum : UInt32
  flags : UInt16
  payload : Bytes
  deriving DecidableEq, Repr

namespace Packet

def has (pkt : Packet) (flag : UInt16) : Bool := pkt.flags &&& flag != 0

-- A container of user data that is nothing else.
structure IsData (pkt : Packet) : Prop where
  data : pkt.has FLAG_DATA = true
  fin : pkt.has FLAG_FIN = false
  nack : pkt.has FLAG_NACK = false
  reject : pkt.has FLAG_REJECT = false
  ping : pkt.has FLAG_PING = false

instance (pkt : Packet) : Decidable pkt.IsData :=
  decidable_of_iff (pkt.has FLAG_DATA = true ∧ pkt.has FLAG_FIN = false ∧
      pkt.has FLAG_NACK = false ∧ pkt.has FLAG_REJECT = false ∧ pkt.has FLAG_PING = false)
    ⟨fun ⟨hd, hf, hn, hr, hp⟩ => ⟨hd, hf, hn, hr, hp⟩, fun h => ⟨h.1, h.2, h.3, h.4, h.5⟩⟩

-- session_ts_from_hdr
def sessionTs (pkt : Packet) : Timespec := ⟨pkt.sessionTvSec, pkt.sessionTvNsec.toInt64⟩

def session (pkt : Packet) : SessionHdr := ⟨pkt.sessionId, pkt.sessionTs⟩

end Packet

-- One payload element of a packed DATA container.
structure Elem where
  flags : UInt16
  payload : Bytes
  deriving DecidableEq, Repr

namespace Elem

def moreFrag (elem : Elem) : Bool := elem.flags &&& FLAG_MORE_FRAG != 0

def compressed (elem : Elem) : Bool := elem.flags &&& FLAG_COMPRESSED != 0

end Elem

inductive Event where
  | data (payload : Bytes)
  | connected
  | disconnected
  | pathConnected (path : Path) (states : Path → Bool)
  | pathDisconnected (path : Path) (states : Path → Bool)

-- What the library takes from cplat: clocks, random session ids, time arithmetic, compression
-- and AES-GCM. The n-th query of the receive thread to a clock or to the random source gets
-- the n-th answer; `newSession` is `none` when a resource for a new peer cannot be had.
structure Cplat where
  clock : Nat → Timespec
  clockMs : Nat → Nat
  newSession : Nat → Option (UInt32 × Timespec)
  timespecCmp : Timespec → Timespec → Int
  timespecAddMs : Timespec → Nat → Timespec
  timespecDiffMs : Timespec → Timespec → Int
  compress : Bytes → Nat → Option Bytes
  decompress : Bytes → Nat → Option Bytes
  encrypt : (key nonce aad plain : Bytes) → Option Bytes
  decrypt : (key nonce aad cipher : Bytes) → Option Bytes

-- cplat_timespec_cmp orders by seconds, then by nanoseconds.
def Timespec.lt (a b : Timespec) : Prop :=
  a.tvSec.toInt < b.tvSec.toInt ∨ a.tvSec = b.tvSec ∧ a.tvNsec.toInt < b.tvNsec.toInt

structure Cplat.CmpLex (p : Cplat) : Prop where
  eq_zero : ∀ a b, p.timespecCmp a b = 0 ↔ a = b
  pos : ∀ a b, 0 < p.timespecCmp a b ↔ b.lt a

-- The lexicographic order of the start seconds, the start nanoseconds and the session id.
def SessionHdr.Precedes (a b : SessionHdr) : Prop := a.ts.lt b.ts ∨ a.ts = b.ts ∧ a.id < b.id

instance (a b : Timespec) : Decidable (a.lt b) := inferInstanceAs (Decidable (_ ∨ _ ∧ _))

instance (a b : SessionHdr) : Decidable (a.Precedes b) := inferInstanceAs (Decidable (_ ∨ _ ∧ _))

theorem Timespec.lt_trans {a b c : Timespec} (hab : a.lt b) (hbc : b.lt c) : a.lt c := by
  rcases hab with hab | ⟨hab, hn⟩ <;> rcases hbc with hbc | ⟨hbc, hm⟩
  · exact .inl (by omega)
  · exact .inl (by rw [← hbc]; exact hab)
  · exact .inl (by rw [hab]; exact hbc)
  · exact .inr ⟨hab.trans hbc, by omega⟩

theorem Timespec.lt_irrefl (a : Timespec) : ¬ a.lt a := by
  unfold lt
  omega

namespace SessionHdr

variable {a b c : SessionHdr}

theorem Precedes.trans (hab : a.Precedes b) (hbc : b.Precedes c) : a.Precedes c := by
  rcases hab with hab | ⟨hab, hid⟩ <;> rcases hbc with hbc | ⟨hbc, hid'⟩
  · exact .inl (Timespec.lt_trans hab hbc)
  · exact .inl (hbc ▸ hab)
  · exact .inl (hab ▸ hbc)
  · exact .inr ⟨hab.trans hbc, UInt32.lt_trans hid hid'⟩

theorem Precedes.irrefl (a : SessionHdr) : ¬ a.Precedes a := by
  rintro (h | ⟨-, h⟩)
  · exact Timespec.lt_irrefl _ h
  · exact UInt32.lt_irrefl _ h

end SessionHdr

end Porter
