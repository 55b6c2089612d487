import Porter.Recv.Dispatch
import Porter.Send.Stream

namespace Porter

-- A platform on which the assumptions made about cplat hold: a clock that gains a second with
-- every query, a coder with a dictionary of one word and a toy cipher: a key stream of one byte
-- and a digest of everything as the tag.
namespace Cplat

def word : Bytes := List.replicate 64 97

def codeWord : Bytes := List.replicate COMPRESS_HEADER_SIZE 0

def stored : Bytes := List.replicate COMPRESS_HEADER_SIZE 1

def digest (data : Bytes) : Nat := data.foldl (fun h b => (257 * h + b.toNat + 1) % 2 ^ 128) 0

def mask (key nonce data : Bytes) : Bytes :=
  data.map (· ^^^ UInt8.ofNat (digest (key ++ nonce)))

def tag (key nonce aad plain : Bytes) : Bytes :=
  BigEndian.toBytes CRYPTO_TAG_SIZE (digest (key ++ nonce ++ aad ++ plain))

def lexCmp (a b : Timespec) : Int :=
  if a.tvSec.toInt < b.tvSec.toInt then -1
  else if b.tvSec.toInt < a.tvSec.toInt then 1
  else if a.tvNsec.toInt < b.tvNsec.toInt then -1
  else if b.tvNsec.toInt < a.tvNsec.toInt then 1
  else 0

def reference : Cplat where
  clock := fun n => ⟨Int64.ofNat (n + 1), 0⟩
  clockMs := fun n => 1000 * (n + 1)
  newSession := fun n => some (UInt32.ofNat (n + 1), ⟨Int64.ofNat (n + 1), 0⟩)
  timespecCmp := lexCmp
  timespecAddMs := fun ts ms => { ts with tvSec := ts.tvSec + Int64.ofNat (ms / 1000) }
  timespecDiffMs := fun a b => (a.tvSec.toInt - b.tvSec.toInt) * 1000
  compress := fun data cap =>
    let code := if data = word then codeWord else stored ++ data
    if code.length ≤ cap then some code else none
  decompress := fun code cap =>
    let data :=
      if code = codeWord then some word
      else if code.take COMPRESS_HEADER_SIZE = stored ∧ code.drop COMPRESS_HEADER_SIZE ≠ word then
        some (code.drop COMPRESS_HEADER_SIZE)
      else none
    data.filter fun data => data.length ≤ cap
  encrypt := fun key nonce aad plain => some (mask key nonce plain ++ tag key nonce aad plain)
  decrypt := fun key nonce aad cipher =>
    let plain := mask key nonce (cipher.take (cipher.length - CRYPTO_TAG_SIZE))
    if CRYPTO_TAG_SIZE ≤ cipher.length ∧
        cipher.drop (cipher.length - CRYPTO_TAG_SIZE) = tag key nonce aad plain then some plain
    else none

theorem reference_cmpLex : reference.CmpLex := by
  refine ⟨fun a b => ?_, fun a b => ?_⟩
  · have hparts : lexCmp a b = 0 ↔
        a.tvSec.toInt = b.tvSec.toInt ∧ a.tvNsec.toInt = b.tvNsec.toInt := by
      unfold lexCmp
      split_ifs <;> constructor <;> intro h <;> first | omega | exact absurd h (by decide)
    change lexCmp a b = 0 ↔ a = b
    rw [hparts, Int64.toInt_inj, Int64.toInt_inj]
    cases a
    cases b
    simp
  · change 0 < lexCmp a b ↔ b.lt a
    unfold lexCmp Timespec.lt
    rw [← Int64.toInt_inj]
    split_ifs <;> omega

private theorem length_stored_append (data : Bytes) :
    (stored ++ data).length = COMPRESS_HEADER_SIZE + data.length := by
  rw [List.length_append]
  rfl

private theorem stored_append_ne (data : Bytes) : stored ++ data ≠ codeWord := fun h => by
  have hhead : (some 1 : Option UInt8) = some 0 := congrArg List.head? h
  exact absurd hhead (by decide)

private theorem drop_stored (data : Bytes) : (stored ++ data).drop COMPRESS_HEADER_SIZE = data :=
  List.drop_left' rfl

private theorem take_stored (data : Bytes) : (stored ++ data).take COMPRESS_HEADER_SIZE = stored :=
  List.take_left' rfl

private theorem decompress_eq {code data : Bytes} {cap : Nat}
    (h : (if code = codeWord then some word
      else if code.take COMPRESS_HEADER_SIZE = stored ∧ code.drop COMPRESS_HEADER_SIZE ≠ word then
        some (code.drop COMPRESS_HEADER_SIZE)
      else none) = some data) (hcap : data.length ≤ cap) :
    reference.decompress code cap = some data := by
  unfold reference
  dsimp only
  rw [h, Option.filter_some, if_pos (decide_eq_true hcap)]

theorem reference_codec {es er : Env} (hes : es.plat = reference) (her : er.plat = reference)
    (hsize : es.maxMessageSize = er.maxMessageSize) : es.Codec er where
  size := hsize
  compresses data _ hmax := by
    rw [hes]
    change (if (if data = word then codeWord else stored ++ data).length ≤ es.compressBufSize then
      some _ else none).isSome
    rw [if_pos]
    · rfl
    · unfold Config.compressBufSize
      split
      · change COMPRESS_HEADER_SIZE ≤ _
        omega
      · rw [length_stored_append]
        omega
  header data cap code hcode := by
    rw [hes] at hcode
    obtain ⟨-, hcode⟩ := Option.ite_none_right_eq_some.mp hcode
    obtain rfl := Option.some.inj hcode
    split
    · exact le_refl _
    · rw [length_stored_append]
      omega
  restores data cap code hcode hmax := by
    rw [hes] at hcode
    obtain ⟨-, hcode⟩ := Option.ite_none_right_eq_some.mp hcode
    obtain rfl := Option.some.inj hcode
    rw [her]
    unfold Config.compressBufSize
    split
    · rename_i hword
      subst hword
      exact decompress_eq (if_pos rfl) (Nat.le_add_left ..)
    · rename_i hword
      refine decompress_eq ?_ (by omega)
      rw [if_neg (stored_append_ne data), drop_stored, take_stored, if_pos ⟨rfl, hword⟩]

private theorem mask_mask (key nonce data : Bytes) : mask key nonce (mask key nonce data) = data := by
  unfold mask
  rw [List.map_map]
  refine List.map_id'' (fun b => ?_) data
  simp only [Function.comp_apply, UInt8.xor_assoc, UInt8.xor_self, UInt8.xor_zero]

private theorem length_tag (key nonce aad plain : Bytes) :
    (tag key nonce aad plain).length = CRYPTO_TAG_SIZE := BigEndian.length_toBytes ..

theorem reference_crypto {es er : Env} (hes : es.plat = reference) (her : er.plat = reference)
    (hid : es.serviceId = er.serviceId) (hmax : es.maxPayload = er.maxPayload)
    (henc : es.encryptEnabled = er.encryptEnabled) (hkey : es.encryptKey = er.encryptKey) :
    es.Crypto er where
  serviceId := hid
  maxPayload := hmax
  enabled := henc
  seals _ nonce aad plain := by
    rw [hes]
    rfl
  tag _ nonce aad plain cipher hcipher := by
    rw [hes] at hcipher
    rw [← Option.some.inj hcipher, List.length_append, length_tag, mask, List.length_map]
  opens _ nonce aad plain cipher hcipher := by
    rw [hes] at hcipher
    rw [← Option.some.inj hcipher, her, hkey]
    have hlen : (mask er.encryptKey nonce plain ++ tag er.encryptKey nonce aad plain).length -
        CRYPTO_TAG_SIZE = (mask er.encryptKey nonce plain).length := by
      rw [List.length_append, length_tag]
      exact Nat.add_sub_cancel ..
    simp only [reference, hlen, List.drop_left, List.take_left, mask_mask]
    rw [if_pos]
    rw [List.length_append, length_tag]
    exact ⟨Nat.le_add_left .., trivial⟩

end Cplat

-- A receiver of each type with two paths and a window of four.
def Config.sample (type : PotrType) : Config where
  serviceId := 1
  type := type
  role := .receiver
  callback := true
  srcPort := 5000
  dstPort := 5001
  srcAddrGiven := true
  srcAddrResolved := fun _ => 1
  dstAddrResolved := fun _ => 2
  nPath := 2
  encryptEnabled := false
  encryptKey := List.replicate 32 9
  windowSize := 4
  maxPayload := 64
  maxMessageSize := 256
  sendQueueDepth := 4
  reorderTimeoutMs := 0
  healthIntervalMs := 0
  healthTimeoutMs := 0
  maxPeers := 2

def Env.sample (type : PotrType) : Env where
  toConfig := Config.sample type
  accepted := by cases type <;> rfl
  plat := Cplat.reference

-- The same with encryption.
def Env.sampleSealed (type : PotrType) : Env where
  toConfig := { Config.sample type with encryptEnabled := true }
  accepted := by cases type <;> rfl
  plat := Cplat.reference

-- A sender to it, with a window of two.
def Config.sampleSender (type : PotrType) : Config :=
  { Config.sample type with
    role := .sender
    callback := type = .unicastBidir ∨ type = .tcpBidir
    windowSize := 2 }

def Env.sampleSender (type : PotrType) : Env where
  toConfig := Config.sampleSender type
  accepted := by cases type <;> rfl
  plat := Cplat.reference

def Env.sampleSealedSender (type : PotrType) : Env where
  toConfig := { Config.sampleSender type with encryptEnabled := true }
  accepted := by cases type <;> rfl
  plat := Cplat.reference

-- The two ends of a service with one path.
def Env.singleReceiver (type : PotrType) : Env where
  toConfig := { Config.sample type with nPath := 1 }
  accepted := by cases type <;> rfl
  plat := Cplat.reference

def Env.singleSender (type : PotrType) : Env where
  toConfig := { Config.sampleSender type with nPath := 1 }
  accepted := by cases type <;> rfl
  plat := Cplat.reference

-- Traffic of one sender session to such a receiver.
def Packet.sampleSession : PacketSessionHdr := ⟨1, 5, 9, 0⟩

def Packet.sampleData (seqNum : UInt32) (elems : List Elem) : Packet :=
  { fillSessionHdr sampleSession with
    seqNum := seqNum, flags := FLAG_DATA, payload := (elems.map Elem.encode).flatten }

def Packet.samplePing (seqNum : UInt32) : Packet :=
  buildPing sampleSession seqNum [PING_STATE_NORMAL, PING_STATE_NORMAL, 0, 0]

-- The sender, the receiver and another client of an N:1 receiver.
def Endpoint.source : Endpoint := ⟨1, hton16 5000⟩

def Endpoint.target : Endpoint := ⟨2, hton16 5001⟩

def Endpoint.other : Endpoint := ⟨3, hton16 5000⟩

def Slot.Input.sample (pkt : Packet) : Slot.Input := .packet 0 .source pkt

-- What comes back to the sender.
def Slot.Input.sampleBack (pkt : Packet) : Slot.Input := .packet 0 .target pkt

def Slot.sample (e : Env) : Slot := Slot.opened e 3 ⟨2, 0⟩ fun _ => .target

end Porter
