import Porter.Reassembly

namespace Porter

-- potr_service_send.c

-- The room for user data in a container that holds one element.
def Config.fragSize (cfg : Config) : Nat :=
  cfg.maxPayload - PAYLOAD_ELEM_HDR_SIZE - if cfg.encryptEnabled then CRYPTO_TAG_SIZE else 0

-- The loop of send_to_peer. Every round takes at least a byte, so the length of the data bounds
-- the number of rounds.
def fragments (size : Nat) (baseFlags : UInt16) : Nat → Bytes → List Elem
  | 0, _ => []
  | fuel + 1, data =>
      if data.length = 0 then []
      else
        let chunk := if size < data.length then size else data.length
        let elemFlags := if chunk < data.length then baseFlags ||| FLAG_MORE_FRAG else baseFlags
        ⟨elemFlags, data.take chunk⟩ :: fragments size baseFlags fuel (data.drop chunk)

def Config.sendToPeer (cfg : Config) (baseFlags : UInt16) (data : Bytes) : List Elem :=
  fragments cfg.fragSize baseFlags data.length data

-- What is sent for a message, and the flag of its elements: the compressed data where the
-- caller asks for it and it is shorter. `none` when the compressor fails.
def Env.messageBody (e : Env) (data : Bytes) (compress : Bool) : Option (Bytes × UInt16) :=
  if compress then
    (e.plat.compress data e.compressBufSize).map fun code =>
      if code.length < data.length then (code, FLAG_COMPRESSED) else (data, 0)
  else some (data, 0)

-- The elements a message is sent as.
def Env.messageElems (e : Env) (data : Bytes) (compress : Bool) : Option (List Elem) :=
  (e.messageBody data compress).map fun body => e.sendToPeer body.2 body.1

-- What is assumed of cplat_compress at the sending end and of cplat_decompress at the receiving
-- end: what was compressed is restored, the buffer that potr_service_open allocates is large
-- enough, and the output begins with a header. Both ends have the same max_message_size.
structure Env.Codec (es er : Env) : Prop where
  size : es.maxMessageSize = er.maxMessageSize
  compresses : ∀ data : Bytes, 0 < data.length → data.length ≤ es.maxMessageSize →
    (es.plat.compress data es.compressBufSize).isSome
  header : ∀ data cap code, es.plat.compress data cap = some code →
    COMPRESS_HEADER_SIZE ≤ code.length
  restores : ∀ data cap code, es.plat.compress data cap = some code →
    data.length ≤ er.maxMessageSize → er.plat.decompress code er.compressBufSize = some data

section

variable {e : Env} {size : Nat} {baseFlags : UInt16} {data : Bytes}

theorem Service.fragSize_bounds (svc : Service) :
    0 < svc.fragSize ∧
      PAYLOAD_ELEM_HDR_SIZE + svc.fragSize + (if svc.encryptEnabled then CRYPTO_TAG_SIZE else 0) =
        svc.maxPayload := by
  have := svc.bounds
  unfold Config.fragSize
  simp only [PAYLOAD_ELEM_HDR_SIZE, CRYPTO_TAG_SIZE]
  split <;> omega

-- A round of the loop: the last element, or one with MORE_FRAG before the rest.
theorem fragments_last (hdata : 0 < data.length) (hfit : data.length ≤ size) (fuel : Nat) :
    fragments size baseFlags (fuel + 1) data = [⟨baseFlags, data⟩] := by
  have hnil : fragments size baseFlags fuel [] = [] := by
    cases fuel <;> rfl
  rw [fragments, if_neg (by omega), if_neg (by omega)]
  simp [hnil]

theorem fragments_more (hfit : size < data.length) (fuel : Nat) :
    fragments size baseFlags (fuel + 1) data =
      ⟨baseFlags ||| FLAG_MORE_FRAG, data.take size⟩ ::
        fragments size baseFlags fuel (data.drop size) := by
  rw [fragments, if_neg (by omega), if_pos hfit]
  simp only [hfit, if_true]

theorem fragments_payload (fuel : Nat) (hsize : 0 < size) :
    ∀ elem ∈ fragments size baseFlags fuel data,
      0 < elem.payload.length ∧ elem.payload.length ≤ size := by
  induction fuel generalizing data with
  | zero => simp [fragments]
  | succ fuel ih =>
    intro elem helem
    by_cases hdata : data.length = 0
    · rw [fragments, if_pos hdata] at helem
      cases helem
    by_cases hfit : size < data.length
    · rw [fragments_more hfit] at helem
      rcases List.mem_cons.mp helem with rfl | helem
      · simp only [List.length_take]
        omega
      · exact ih elem helem
    · rw [fragments_last (by omega) (by omega)] at helem
      rw [List.mem_singleton.mp helem]
      exact ⟨by simp only; omega, by simp only; omega⟩

end

namespace Reassembly

variable {e : Env}

theorem feedAll_append (r : Reassembly) (elems elems' : List Elem) :
    r.feedAll e (elems ++ elems') =
      (((r.feedAll e elems).1.feedAll e elems').1,
        (r.feedAll e elems).2 ++ ((r.feedAll e elems).1.feedAll e elems').2) := by
  induction elems generalizing r with
  | nil => simp [feedAll]
  | cons elem elems ih => simp [feedAll, ih]

theorem flags_cases {baseFlags : UInt16} (h : baseFlags = 0 ∨ baseFlags = FLAG_COMPRESSED)
    (payload : Bytes) :
    (⟨baseFlags, payload⟩ : Elem).moreFrag = false ∧
    (⟨baseFlags ||| FLAG_MORE_FRAG, payload⟩ : Elem).moreFrag = true ∧
    (⟨baseFlags ||| FLAG_MORE_FRAG, payload⟩ : Elem).compressed =
      (⟨baseFlags, payload⟩ : Elem).compressed := by
  simp only [Elem.moreFrag, Elem.compressed]
  rcases h with rfl | rfl <;> decide

-- The fragments of the rest of a message complete it behind what is in the buffer.
theorem feedAll_fragments {size : Nat} (hsize : 0 < size) {baseFlags : UInt16}
    (hbase : baseFlags = 0 ∨ baseFlags = FLAG_COMPRESSED) (fuel : Nat) {data : Bytes}
    (hfuel : data.length ≤ fuel) (hdata : 0 < data.length) {r : Reassembly}
    (hfit : r.buf.length + data.length ≤ e.maxMessageSize)
    (hempty : r.buf.length = 0 → r = empty)
    (hflag : 0 < r.buf.length → r.compressed = (⟨baseFlags, []⟩ : Elem).compressed) :
    r.feedAll e (fragments size baseFlags fuel data) =
      (empty, complete e (r.buf ++ data) (⟨baseFlags, []⟩ : Elem).compressed) := by
  induction fuel generalizing data r with
  | zero => omega
  | succ fuel ih =>
    by_cases hlast : data.length ≤ size
    · have hone := (flags_cases hbase data).1
      rw [fragments_last hdata hlast]
      have hmore : ¬ (⟨baseFlags, data⟩ : Elem).moreFrag = true := by simp [hone]
      have hstep : r.feed e ⟨baseFlags, data⟩ =
          (empty, complete e (r.buf ++ data) (⟨baseFlags, []⟩ : Elem).compressed) := by
        by_cases hbuf : 0 < r.buf.length
        · rw [feed_last hmore hbuf hfit, hflag hbuf]
        · obtain rfl := hempty (by omega)
          rw [feed_single hmore hbuf]
          rfl
      simp only [feedAll, hstep, List.append_nil]
    · have hmore := flags_cases hbase (data.take size)
      have hchunk : (data.take size).length = size := by
        rw [List.length_take]
        omega
      have hstep : r.feed e ⟨baseFlags ||| FLAG_MORE_FRAG, data.take size⟩ =
          (⟨r.buf ++ data.take size, (⟨baseFlags, []⟩ : Elem).compressed⟩, []) := by
        rw [feed_more hmore.2.1 (by simp only [hchunk]; omega)]
        by_cases hbuf : r.buf.length = 0
        · rw [if_pos hbuf, hmore.2.2]
          rfl
        · rw [if_neg hbuf, hflag (by omega)]
      rw [fragments_more (by omega)]
      simp only [feedAll, hstep, List.nil_append]
      rw [ih (by rw [List.length_drop]; omega) (by rw [List.length_drop]; omega)
        (by simp only [List.length_append, hchunk, List.length_drop]; omega)
        (fun h => absurd h (by simp only [List.length_append, hchunk]; omega)) fun _ => rfl]
      simp only [List.append_assoc, List.take_append_drop]

end Reassembly

section

variable {es er : Env} {data : Bytes} {compress : Bool}

-- The elements of a message, fed to an empty buffer, give the message back and nothing else.
theorem feedAll_messageElems (hcodec : es.Codec er) (hdata : 0 < data.length)
    (hmax : data.length ≤ es.maxMessageSize) {elems : List Elem}
    (h : es.messageElems data compress = some elems) :
    Reassembly.empty.feedAll er elems = (Reassembly.empty, [data]) := by
  have hsize := es.fragSize_bounds.1
  rw [hcodec.size] at hmax
  have hplain : ∀ base : UInt16, base = 0 ∨ base = FLAG_COMPRESSED → ∀ body : Bytes,
      0 < body.length → body.length ≤ er.maxMessageSize →
      Reassembly.empty.feedAll er (es.sendToPeer base body) =
        (Reassembly.empty, Reassembly.complete er body (⟨base, []⟩ : Elem).compressed) := by
    intro base hbase body hbody hle
    exact Reassembly.feedAll_fragments hsize hbase body.length (Nat.le_refl _) hbody
      (by simpa [Reassembly.empty] using hle) (fun _ => rfl)
      fun hbuf => absurd hbuf (by simp [Reassembly.empty])
  unfold Env.messageElems Env.messageBody at h
  cases compress with
  | false =>
    obtain rfl : es.sendToPeer 0 data = elems := by simpa using h
    exact hplain 0 (.inl rfl) data hdata hmax
  | true =>
    obtain ⟨body, hbody, rfl⟩ := Option.map_eq_some_iff.mp h
    obtain ⟨code, hcode, rfl⟩ := Option.map_eq_some_iff.mp hbody
    split
    · rename_i hshort
      have hlen := hcodec.header _ _ _ hcode
      rw [hplain _ (.inr rfl) code (by simp only [COMPRESS_HEADER_SIZE] at hlen; omega)
        (by omega)]
      have hdec := hcodec.restores _ _ _ hcode hmax
      have hflag : (⟨FLAG_COMPRESSED, []⟩ : Elem).compressed = true := by decide
      rw [hflag, Reassembly.complete, if_pos rfl, hdec]
      rfl
    · exact hplain 0 (.inl rfl) data hdata hmax

theorem messageElems_isSome (hcodec : es.Codec er) (hdata : 0 < data.length)
    (hmax : data.length ≤ es.maxMessageSize) (compress : Bool) :
    (es.messageElems data compress).isSome := by
  unfold Env.messageElems Env.messageBody
  cases compress with
  | false => rfl
  | true => simpa using hcodec.compresses data hdata hmax

end

theorem messageElems_payload {e : Env} {data : Bytes} {compress : Bool} {elems : List Elem}
    (h : e.messageElems data compress = some elems) :
    ∀ elem ∈ elems, 0 < elem.payload.length ∧ elem.payload.length ≤ e.fragSize := by
  obtain ⟨body, -, rfl⟩ := Option.map_eq_some_iff.mp h
  exact fragments_payload _ e.fragSize_bounds.1

-- Every element but the last one has MORE_FRAG.
theorem fragments_moreFrag {size : Nat} {baseFlags : UInt16}
    (hbase : baseFlags = 0 ∨ baseFlags = FLAG_COMPRESSED) (fuel : Nat) {data : Bytes}
    {before after : List Elem} {elem : Elem}
    (h : fragments size baseFlags fuel data = before ++ elem :: after) (hafter : after ≠ []) :
    elem.moreFrag = true := by
  induction fuel generalizing data before with
  | zero => simp [fragments] at h
  | succ fuel ih =>
    by_cases hdata : data.length = 0
    · rw [fragments, if_pos hdata] at h
      simp at h
    by_cases hfit : size < data.length
    · rw [fragments_more hfit] at h
      cases before with
      | nil =>
        rw [List.nil_append] at h
        rw [← (List.cons.inj h).1]
        exact (Reassembly.flags_cases hbase _).2.1
      | cons first before => exact ih (List.cons.inj h).2
    · rw [fragments_last (by omega) (by omega)] at h
      cases before with
      | nil => exact absurd (List.cons.inj h).2.symm hafter
      | cons first before => simp at h

theorem messageElems_moreFrag {e : Env} {data : Bytes} {compress : Bool} {elems : List Elem}
    (h : e.messageElems data compress = some elems) {before after : List Elem} {elem : Elem}
    (hsplit : elems = before ++ elem :: after) (hafter : after ≠ []) : elem.moreFrag = true := by
  obtain ⟨body, hbody, rfl⟩ := Option.map_eq_some_iff.mp h
  have hbase : body.2 = 0 ∨ body.2 = FLAG_COMPRESSED := by
    unfold Env.messageBody at hbody
    split at hbody
    · obtain ⟨code, -, rfl⟩ := Option.map_eq_some_iff.mp hbody
      split
      · exact .inr rfl
      · exact .inl rfl
    · rw [← Option.some.inj hbody]
      exact .inl rfl
  exact fragments_moreFrag hbase _ hsplit hafter

end Porter
