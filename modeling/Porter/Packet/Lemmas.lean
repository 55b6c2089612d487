import Porter.Packet

namespace Porter.Packet

open BigEndian

section

variable {pkt : Packet} {payloadLen : Nat}

@[simp] theorem length_header (pkt : Packet) (payloadLen : Nat) :
    (pkt.header payloadLen).length = PACKET_HEADER_SIZE := by
  simp [header]

theorem field_head {post : Bytes} {width n : Nat} (hn : n < 256 ^ width) :
    field (toBytes width n ++ post) 0 width = n := by
  unfold field
  rw [List.drop_zero, List.take_left' (length_toBytes width n), ofBytes_toBytes hn]

theorem field_skip {post : Bytes} {width n offset w : Nat} (h : width ≤ offset) :
    field (toBytes width n ++ post) offset w = field post (offset - width) w := by
  unfold field
  rw [List.drop_append, List.drop_eq_nil_of_le (by simpa using h), length_toBytes, List.nil_append]

theorem header_fields (pkt : Packet) (payloadLen : Nat) (rest : Bytes) :
    (UInt64.ofNat (field (pkt.header payloadLen ++ rest) 0 8)).toInt64 = pkt.serviceId ∧
    (UInt64.ofNat (field (pkt.header payloadLen ++ rest) 8 8)).toInt64 = pkt.sessionTvSec ∧
    UInt32.ofNat (field (pkt.header payloadLen ++ rest) 16 4) = pkt.sessionId ∧
    (UInt32.ofNat (field (pkt.header payloadLen ++ rest) 20 4)).toInt32 = pkt.sessionTvNsec ∧
    UInt32.ofNat (field (pkt.header payloadLen ++ rest) 24 4) = pkt.seqNum ∧
    UInt32.ofNat (field (pkt.header payloadLen ++ rest) 28 4) = pkt.ackNum ∧
    UInt16.ofNat (field (pkt.header payloadLen ++ rest) 32 2) = pkt.flags ∧
    field (pkt.header payloadLen ++ rest) 34 2 = payloadLen % 65536 ∧
    UInt32.ofNat (field (pkt.header payloadLen ++ rest) 36 4) = pkt.protocolVersion := by
  have h64 : ∀ (x : UInt64) (post : Bytes), field (toBytes 8 x.toNat ++ post) 0 8 = x.toNat :=
    fun x _ => field_head x.toNat_lt
  have h32 : ∀ (x : UInt32) (post : Bytes), field (toBytes 4 x.toNat ++ post) 0 4 = x.toNat :=
    fun x _ => field_head x.toNat_lt
  have h16 : ∀ (x : UInt16) (post : Bytes), field (toBytes 2 x.toNat ++ post) 0 2 = x.toNat :=
    fun x _ => field_head x.toNat_lt
  have hlen : ∀ post : Bytes,
      field (toBytes 2 (payloadLen % 65536) ++ post) 0 2 = payloadLen % 65536 :=
    fun _ => field_head (Nat.mod_lt _ (by decide))
  unfold header
  simp only [List.append_assoc, field_skip, Nat.reduceLeDiff, Nat.reduceSub, h64, h32, h16, hlen,
    UInt64.ofNat_toNat, UInt32.ofNat_toNat, UInt16.ofNat_toNat, Int64.toInt64_toUInt64,
    Int32.toInt32_toUInt32, and_self]

theorem has_of_flags {flags : UInt16} (h : pkt.flags = flags) (flag : UInt16) :
    pkt.has flag = (flags &&& flag != 0) := by
  rw [has, h]

-- Everything in the header that the receive thread reads after parsing.
structure SameHeader (a b : Packet) : Prop where
  serviceId : a.serviceId = b.serviceId
  session : a.session = b.session
  seqNum : a.seqNum = b.seqNum
  ackNum : a.ackNum = b.ackNum
  has : ∀ flag : UInt16, flag &&& FLAG_ENCRYPTED = 0 → a.has flag = b.has flag

theorem SameHeader.trans {a b c : Packet} (hab : a.SameHeader b) (hbc : b.SameHeader c) :
    a.SameHeader c :=
  ⟨hab.serviceId.trans hbc.serviceId, hab.session.trans hbc.session, hab.seqNum.trans hbc.seqNum,
    hab.ackNum.trans hbc.ackNum, fun flag h => (hab.has flag h).trans (hbc.has flag h)⟩

theorem parse_sameHeader {parsed : Packet} {rest : Bytes}
    (h : parse (pkt.header payloadLen ++ rest) = some parsed) : parsed.SameHeader pkt := by
  obtain ⟨hsvc, hsec, hid, hnsec, hseq, hack, hflags, -, -⟩ := header_fields pkt payloadLen rest
  unfold parse at h
  split at h
  · simp at h
  simp only at h
  split at h
  · simp at h
  · obtain rfl := Option.some.inj h
    refine ⟨hsvc, ?_, hseq, hack, fun flag _ => ?_⟩
    · simp only [session, sessionTs, hsec, hid, hnsec]
    · simp only [has, hflags]

theorem parse_wire (hversion : pkt.protocolVersion = PROTOCOL_VERSION)
    (hlen : pkt.payload.length ≤ MAX_PAYLOAD) : parse pkt.wire = some pkt := by
  obtain ⟨hsvc, hsec, hid, hnsec, hseq, hack, hflags, hplen, hver⟩ :=
    header_fields pkt pkt.payload.length pkt.payload
  have hmod : pkt.payload.length % 65536 = pkt.payload.length :=
    Nat.mod_eq_of_lt (by simp only [MAX_PAYLOAD] at hlen; omega)
  have hwire : pkt.wire.length = PACKET_HEADER_SIZE + pkt.payload.length := by
    simp [wire]
  unfold parse
  rw [if_neg (by omega)]
  unfold wire at hwire ⊢
  simp only [hsvc, hsec, hid, hnsec, hseq, hack, hflags, hplen, hver, hmod]
  rw [if_neg (by simp [hversion]; omega)]
  have hdrop : (pkt.header pkt.payload.length ++ pkt.payload).drop PACKET_HEADER_SIZE =
      pkt.payload := List.drop_left' (length_header ..)
  rw [hdrop, List.take_length]

theorem field_lt (buf : Bytes) (offset width : Nat) : field buf offset width < 256 ^ width := by
  refine Nat.lt_of_lt_of_le (ofBytes_lt _) (Nat.pow_le_pow_right (by decide) ?_)
  exact List.length_take_le ..

theorem parse_isSome_iff (buf : Bytes) :
    (parse buf).isSome = true ↔ PACKET_HEADER_SIZE ≤ buf.length ∧
      field buf 36 4 = PROTOCOL_VERSION.toNat ∧ field buf 34 2 ≤ MAX_PAYLOAD ∧
      field buf 34 2 + PACKET_HEADER_SIZE ≤ buf.length := by
  have hversion : UInt32.ofNat (field buf 36 4) = PROTOCOL_VERSION ↔
      field buf 36 4 = PROTOCOL_VERSION.toNat := by
    rw [← UInt32.toNat_inj, UInt32.toNat_ofNat_of_lt' (field_lt buf 36 4)]
  unfold parse
  split
  · simp only [Option.isSome_none, Bool.false_eq_true, false_iff]
    omega
  · dsimp only
    split
    · rename_i hbad
      rw [ne_eq, hversion] at hbad
      simp only [Option.isSome_none, Bool.false_eq_true, false_iff]
      omega
    · rename_i hok
      rw [ne_eq, hversion] at hok
      simp only [Option.isSome_some, true_iff]
      omega

theorem toBytes_field {buf : Bytes} {offset width : Nat} (hbuf : offset + width ≤ buf.length) :
    toBytes width (field buf offset width) = (buf.drop offset).take width := by
  have hlen : ((buf.drop offset).take width).length = width := by
    rw [List.length_take, List.length_drop]
    omega
  have hback := toBytes_ofBytes ((buf.drop offset).take width)
  rwa [hlen] at hback

theorem wire_parse {buf : Bytes} (h : parse buf = some pkt) :
    pkt.wire = buf.take (PACKET_HEADER_SIZE + field buf 34 2) := by
  unfold parse at h
  split at h
  · cases h
  rename_i hshort
  have hbuf : 40 ≤ buf.length := Nat.le_of_not_lt hshort
  dsimp only at h
  split at h
  · cases h
  rename_i hok
  obtain rfl := Option.some.inj h
  simp only [not_or] at hok
  obtain ⟨-, hmax, hlen⟩ := hok
  have hplen : ((buf.drop PACKET_HEADER_SIZE).take (field buf 34 2)).length = field buf 34 2 := by
    rw [List.length_take, List.length_drop]
    omega
  have hmod : field buf 34 2 % 65536 = field buf 34 2 := Nat.mod_eq_of_lt (field_lt buf 34 2)
  have h64 : ∀ offset, offset + 8 ≤ PACKET_HEADER_SIZE →
      toBytes 8 (UInt64.ofNat (field buf offset 8)).toNat = (buf.drop offset).take 8 := by
    intro offset hoffset
    rw [UInt64.toNat_ofNat_of_lt' (field_lt buf offset 8), toBytes_field (by omega)]
  have h32 : ∀ offset, offset + 4 ≤ PACKET_HEADER_SIZE →
      toBytes 4 (UInt32.ofNat (field buf offset 4)).toNat = (buf.drop offset).take 4 := by
    intro offset hoffset
    rw [UInt32.toNat_ofNat_of_lt' (field_lt buf offset 4), toBytes_field (by omega)]
  have hflags : toBytes 2 (UInt16.ofNat (field buf 32 2)).toNat = (buf.drop 32).take 2 := by
    rw [UInt16.toNat_ofNat_of_lt' (field_lt buf 32 2), toBytes_field (by omega)]
  have hplenBytes : toBytes 2 (field buf 34 2) = (buf.drop 34).take 2 := toBytes_field (by omega)
  simp only [wire, header, hplen, hmod, UInt64.toUInt64_toInt64, UInt32.toUInt32_toInt32,
    h64 0 (by decide), h64 8 (by decide), h32 16 (by decide), h32 20 (by decide),
    h32 24 (by decide), h32 28 (by decide), hflags, hplenBytes, h32 36 (by decide)]
  rw [List.drop_zero, ← List.take_add, ← List.take_add, ← List.take_add, ← List.take_add,
    ← List.take_add, ← List.take_add, ← List.take_add, ← List.take_add, ← List.take_add]

end

end Porter.Packet
