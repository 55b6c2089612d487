import Porter.Packet.Lemmas

namespace Porter

open BigEndian

-- The payload of a container with the given elements.
def Elem.encodeAll (elems : List Elem) : Bytes := (elems.map Elem.encode).flatten

-- The loop over a payload from `offset` on has returned `elems`: its calls succeeded one after the
-- other, each where the last one left the offset, and the next call fails.
structure Packet.Unpacked (payload : Bytes) (offset : Nat) (elems : List Elem) : Prop where
  calls : ∀ i elem, elems[i]? = some elem →
    Packet.unpackNext payload (offset + (Elem.encodeAll (elems.take i)).length) =
      .ok (elem, offset + (Elem.encodeAll (elems.take (i + 1))).length)
  stops : ∃ err, Packet.unpackNext payload (offset + (Elem.encodeAll elems).length) = .error err
  inside : offset + (Elem.encodeAll elems).length ≤ payload.length
  consumed : Elem.encodeAll elems = (payload.drop offset).take (Elem.encodeAll elems).length

section

variable {elem : Elem} {elems : List Elem}

@[simp] theorem Elem.length_encode (elem : Elem) :
    elem.encode.length = PAYLOAD_ELEM_HDR_SIZE + elem.payload.length := by
  simp only [Elem.encode, List.length_append, length_toBytes, PAYLOAD_ELEM_HDR_SIZE]

@[simp] theorem Elem.encodeAll_nil : Elem.encodeAll [] = [] := rfl

@[simp] theorem Elem.encodeAll_cons (elem : Elem) (elems : List Elem) :
    Elem.encodeAll (elem :: elems) = elem.encode ++ Elem.encodeAll elems := by
  simp [Elem.encodeAll]

theorem Elem.encodeAll_append (elems elems' : List Elem) :
    Elem.encodeAll (elems ++ elems') = Elem.encodeAll elems ++ Elem.encodeAll elems' := by
  simp [Elem.encodeAll]

theorem Elem.length_mul_le_encodeAll (elems : List Elem) :
    PAYLOAD_ELEM_HDR_SIZE * elems.length ≤ (Elem.encodeAll elems).length := by
  induction elems with
  | nil => exact Nat.le_refl 0
  | cons elem elems ih =>
    rw [encodeAll_cons, List.length_append, length_encode, List.length_cons,
      Nat.mul_add]
    omega

theorem Elem.length_le_encodeAll (elems : List Elem) :
    elems.length ≤ (Elem.encodeAll elems).length := by
  have hmul := Elem.length_mul_le_encodeAll elems
  rw [PAYLOAD_ELEM_HDR_SIZE] at hmul
  omega

namespace Packet

theorem field_append (pre rest : Bytes) (offset width : Nat) :
    field (pre ++ rest) (pre.length + offset) width = field rest offset width := by
  unfold field
  rw [List.drop_append, List.drop_eq_nil_of_le (Nat.le_add_right _ _), Nat.add_sub_cancel_left,
    List.nil_append]

theorem unpackNext_encode (pre post : Bytes) (helem : elem.payload.length ≤ MAX_PAYLOAD) :
    unpackNext (pre ++ (elem.encode ++ post)) pre.length =
      .ok (elem, pre.length + elem.encode.length) := by
  have hflags : field (pre ++ (elem.encode ++ post)) pre.length 2 = elem.flags.toNat := by
    have h := field_append pre (elem.encode ++ post) 0 2
    rw [Nat.add_zero] at h
    rw [h]
    exact field_head elem.flags.toNat_lt
  have hlen : field (pre ++ (elem.encode ++ post)) (pre.length + 2) 4 = elem.payload.length := by
    rw [field_append]
    simp only [Elem.encode, List.append_assoc]
    rw [field_skip (Nat.le_refl 2)]
    exact field_head (by simp only [MAX_PAYLOAD] at helem; omega)
  have hpayload : ((pre ++ (elem.encode ++ post)).drop (pre.length + PAYLOAD_ELEM_HDR_SIZE)).take
      elem.payload.length = elem.payload := by
    have hdrop : (elem.encode ++ post).drop PAYLOAD_ELEM_HDR_SIZE = elem.payload ++ post := by
      unfold Elem.encode
      rw [List.append_assoc]
      exact List.drop_left' (by simp)
    rw [List.drop_append, List.drop_eq_nil_of_le (by omega), Nat.add_sub_cancel_left,
      List.nil_append, hdrop, List.take_left]
  unfold unpackNext
  rw [if_neg (by simp only [List.length_append, Elem.length_encode]; omega), hflags, hlen]
  simp only [hpayload, List.length_append, Elem.length_encode, UInt16.ofNat_toNat]
  rw [if_neg (by omega), Nat.add_assoc]

theorem unpackLoop_encodeAll (elems : List Elem) (pre : Bytes) {fuel : Nat}
    (hfuel : elems.length ≤ fuel) (helems : ∀ elem ∈ elems, elem.payload.length ≤ MAX_PAYLOAD) :
    unpackLoop (pre ++ Elem.encodeAll elems) fuel pre.length = elems := by
  induction elems generalizing pre fuel with
  | nil =>
    cases fuel with
    | zero => rfl
    | succ fuel =>
      have heof : unpackNext (pre ++ Elem.encodeAll []) pre.length = .error .eof := by
        unfold unpackNext
        rw [if_pos (by simp)]
      rw [unpackLoop, heof]
  | cons elem elems ih =>
    obtain ⟨fuel, rfl⟩ : ∃ n, fuel = n + 1 := ⟨fuel - 1, by simp at hfuel; omega⟩
    rw [unpackLoop, Elem.encodeAll_cons,
      unpackNext_encode pre _ (helems elem List.mem_cons_self)]
    simp only
    have hrest := ih (pre ++ elem.encode) (Nat.le_of_succ_le_succ hfuel)
      fun x hx => helems x (List.mem_cons_of_mem elem hx)
    rw [List.length_append, List.append_assoc] at hrest
    rw [hrest]

theorem unpackAll_encodeAll (helems : ∀ elem ∈ elems, elem.payload.length ≤ MAX_PAYLOAD) :
    unpackAll (Elem.encodeAll elems) = elems :=
  unpackLoop_encodeAll elems [] (Elem.length_le_encodeAll elems) helems

theorem unpackNext_ok {payload : Bytes} {offset next : Nat}
    (h : unpackNext payload offset = .ok (elem, next)) :
    next = offset + elem.encode.length ∧ next ≤ payload.length ∧
      elem.encode = (payload.drop offset).take elem.encode.length ∧
      elem.payload = (payload.drop (offset + PAYLOAD_ELEM_HDR_SIZE)).take elem.payload.length := by
  unfold unpackNext at h
  split at h
  · cases h
  rename_i hroom
  dsimp only at h
  split at h
  · cases h
  rename_i hfits
  simp only [not_or, Nat.not_lt, PAYLOAD_ELEM_HDR_SIZE] at hroom hfits
  obtain ⟨hend, -⟩ := hfits
  have hlen : ((payload.drop (offset + PAYLOAD_ELEM_HDR_SIZE)).take
      (field payload (offset + 2) 4)).length = field payload (offset + 2) 4 := by
    rw [List.length_take, List.length_drop, PAYLOAD_ELEM_HDR_SIZE]
    omega
  obtain ⟨rfl, rfl⟩ := Prod.mk.inj (Except.ok.inj h)
  have hflags : toBytes 2 (UInt16.ofNat (field payload offset 2)).toNat =
      (payload.drop offset).take 2 := by
    rw [UInt16.toNat_ofNat_of_lt' (field_lt payload offset 2), toBytes_field (by omega)]
  have hplen : toBytes 4 (field payload (offset + 2) 4) = (payload.drop (offset + 2)).take 4 :=
    toBytes_field (by omega)
  refine ⟨?_, hend, ?_, ?_⟩
  · rw [Elem.length_encode, hlen, Nat.add_assoc]
  · rw [Elem.length_encode]
    simp only [Elem.encode, hlen, hflags, hplen]
    rw [← List.drop_drop, ← List.take_add, PAYLOAD_ELEM_HDR_SIZE, ← List.drop_drop,
      ← List.take_add]
  · rw [hlen]

theorem unpackLoop_unpacked (payload : Bytes) (fuel offset : Nat) (hoffset : offset ≤ payload.length)
    (hfuel : payload.length - offset ≤ fuel) :
    Unpacked payload offset (unpackLoop payload fuel offset) := by
  induction fuel generalizing offset with
  | zero =>
    have heof : unpackNext payload offset = .error .eof := if_pos (by
      rw [PAYLOAD_ELEM_HDR_SIZE]
      omega)
    exact ⟨fun _ _ h => absurd h (by simp [unpackLoop]), ⟨.eof, heof⟩, hoffset, rfl⟩
  | succ fuel ih =>
    rw [unpackLoop]
    cases hnext : unpackNext payload offset with
    | error err => exact ⟨fun _ _ h => absurd h (by simp), ⟨err, hnext⟩, hoffset, rfl⟩
    | ok found =>
      obtain ⟨elem, next⟩ := found
      obtain ⟨hmoved, hinside, hencode, -⟩ := unpackNext_ok hnext
      have hgrows : 0 < elem.encode.length := by
        rw [Elem.length_encode, PAYLOAD_ELEM_HDR_SIZE]
        omega
      obtain ⟨hcalls, hstops, hend, hconsumed⟩ := ih next hinside (by omega)
      dsimp only
      subst hmoved
      refine ⟨fun i found hfound => ?_, ?_, ?_, ?_⟩
      · cases i with
        | zero =>
          obtain rfl := Option.some.inj hfound
          simpa using hnext
        | succ i =>
          have hcall := hcalls i found hfound
          simpa [Nat.add_assoc] using hcall
      · simpa [Nat.add_assoc] using hstops
      · simpa [Nat.add_assoc] using hend
      · rw [Elem.encodeAll_cons, List.length_append, List.take_add, List.drop_drop]
        rw [← hencode, ← hconsumed]

theorem foldl_appendPayloadElem (packed : Bytes) (elems : List Elem) :
    elems.foldl appendPayloadElem packed = packed ++ Elem.encodeAll elems := by
  induction elems generalizing packed with
  | nil => simp
  | cons elem elems ih =>
    rw [List.foldl_cons, ih, Elem.encodeAll_cons, appendPayloadElem_eq, List.append_assoc]

end Packet

end

namespace Packet

-- Whatever bytes a container brings, the loop over it ends after at most one call per six of them,
-- and its elements lie one behind the other from the start of the payload, up to where the next
-- one does not fit. What was packed comes out again.
theorem container_unpacking :
    (∀ payload : Bytes,
      (unpackAll payload).length ≤ payload.length / PAYLOAD_ELEM_HDR_SIZE ∧
      Unpacked payload 0 (unpackAll payload) ∧
      (∀ i elem, (unpackAll payload)[i]? = some elem →
        let offset := (Elem.encodeAll ((unpackAll payload).take i)).length
        offset + PAYLOAD_ELEM_HDR_SIZE + elem.payload.length ≤ payload.length ∧
          elem.payload =
            (payload.drop (offset + PAYLOAD_ELEM_HDR_SIZE)).take elem.payload.length) ∧
      let stop := (Elem.encodeAll (unpackAll payload)).length
      payload.length < stop + PAYLOAD_ELEM_HDR_SIZE ∨
        payload.length < stop + PAYLOAD_ELEM_HDR_SIZE + field payload (stop + 2) 4 ∨
        MAX_PAYLOAD < payload.length) ∧
    ∀ elems : List Elem, (Elem.encodeAll elems).length ≤ MAX_PAYLOAD →
      unpackAll (elems.foldl appendPayloadElem []) = elems ∧
        unpackNext (elems.foldl appendPayloadElem []) (Elem.encodeAll elems).length =
          .error .eof := by
  refine ⟨fun payload => ?_, fun elems hlen => ?_⟩
  · have hloop : Unpacked payload 0 (unpackAll payload) :=
      unpackLoop_unpacked payload payload.length 0 (Nat.zero_le _) (Nat.sub_le _ _)
    have hinside := hloop.inside
    refine ⟨?_, hloop, fun i elem helem => ?_, ?_⟩
    · have hmul := Elem.length_mul_le_encodeAll (unpackAll payload)
      rw [Nat.le_div_iff_mul_le (by decide), Nat.mul_comm]
      omega
    · obtain ⟨hnext, hend, -, hslice⟩ := unpackNext_ok (hloop.calls i elem helem)
      rw [Nat.zero_add] at hnext hslice
      rw [Elem.length_encode] at hnext
      exact ⟨by omega, hslice⟩
    · obtain ⟨err, herr⟩ := hloop.stops
      rw [Nat.zero_add] at herr
      unfold unpackNext at herr
      split at herr
      · exact .inl ‹_›
      · dsimp only at herr
        split at herr
        · rename_i hbad
          omega
        · cases herr
  · rw [foldl_appendPayloadElem, List.nil_append]
    have helems : ∀ elem ∈ elems, elem.payload.length ≤ MAX_PAYLOAD := by
      intro elem helem
      obtain ⟨pre, post, rfl⟩ := List.append_of_mem helem
      rw [Elem.encodeAll_append, Elem.encodeAll_cons, List.length_append, List.length_append,
        Elem.length_encode] at hlen
      omega
    exact ⟨unpackAll_encodeAll helems, if_pos (by rw [PAYLOAD_ELEM_HDR_SIZE]; omega)⟩

theorem container_unpacking_sample :
    unpackAll ([⟨1, [7, 8]⟩, ⟨0, []⟩, ⟨2, [9]⟩].foldl appendPayloadElem []) =
      [⟨1, [7, 8]⟩, ⟨0, []⟩, ⟨2, [9]⟩] :=
  (container_unpacking.2 [⟨1, [7, 8]⟩, ⟨0, []⟩, ⟨2, [9]⟩] (by decide)).1

end Packet

end Porter
