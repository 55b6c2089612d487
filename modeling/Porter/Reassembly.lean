import Porter.Slot

namespace Porter

-- frag_buf and frag_compressed: the fragments of a message that is not complete yet.
structure Reassembly where
  buf : Bytes
  compressed : Bool
  deriving DecidableEq, Repr

namespace Reassembly

def empty : Reassembly := ⟨[], false⟩

-- What slot_recv_deliver hands to the callback for a complete message.
def complete (e : Env) (payload : Bytes) (compressed : Bool) : List Bytes :=
  if compressed then (e.plat.decompress payload e.compressBufSize).toList else [payload]

-- One element of a connected session: the buffer after it and the messages it completes.
def feed (e : Env) (r : Reassembly) (elem : Elem) : Reassembly × List Bytes :=
  if elem.moreFrag then
    if r.buf.length + elem.payload.length ≤ e.maxMessageSize then
      (⟨r.buf ++ elem.payload, if r.buf.length = 0 then elem.compressed else r.compressed⟩, [])
    else (empty, [])
  else if 0 < r.buf.length then
    (empty, if r.buf.length + elem.payload.length ≤ e.maxMessageSize then
      complete e (r.buf ++ elem.payload) r.compressed else [])
  else (r, complete e elem.payload elem.compressed)

section

variable {e : Env} {r : Reassembly} {elem : Elem}

theorem feed_more (hmore : elem.moreFrag = true)
    (hfit : r.buf.length + elem.payload.length ≤ e.maxMessageSize) :
    r.feed e elem =
      (⟨r.buf ++ elem.payload, if r.buf.length = 0 then elem.compressed else r.compressed⟩, []) := by
  unfold feed
  rw [if_pos hmore, if_pos hfit]

theorem feed_more_overflow (hmore : elem.moreFrag = true)
    (hfit : ¬ r.buf.length + elem.payload.length ≤ e.maxMessageSize) :
    r.feed e elem = (empty, []) := by
  unfold feed
  rw [if_pos hmore, if_neg hfit]

theorem feed_last (hmore : ¬ elem.moreFrag = true) (hbuf : 0 < r.buf.length)
    (hfit : r.buf.length + elem.payload.length ≤ e.maxMessageSize) :
    r.feed e elem = (empty, complete e (r.buf ++ elem.payload) r.compressed) := by
  unfold feed
  rw [if_neg hmore, if_pos hbuf, if_pos hfit]

theorem feed_last_overflow (hmore : ¬ elem.moreFrag = true) (hbuf : 0 < r.buf.length)
    (hfit : ¬ r.buf.length + elem.payload.length ≤ e.maxMessageSize) :
    r.feed e elem = (empty, []) := by
  unfold feed
  rw [if_neg hmore, if_pos hbuf, if_neg hfit]

theorem feed_single (hmore : ¬ elem.moreFrag = true) (hbuf : ¬ 0 < r.buf.length) :
    r.feed e elem = (r, complete e elem.payload elem.compressed) := by
  unfold feed
  rw [if_neg hmore, if_neg hbuf]

end

def feedAll (e : Env) (r : Reassembly) : List Elem → Reassembly × List Bytes
  | [] => (r, [])
  | elem :: elems =>
      let (r, out) := r.feed e elem
      let (r, outs) := feedAll e r elems
      (r, out ++ outs)

end Reassembly

namespace Slot

def reassembly (slot : Slot) : Reassembly := ⟨slot.fragBuf, slot.fragCompressed⟩

def setReassembly (slot : Slot) (r : Reassembly) : Slot :=
  { slot with fragBuf := r.buf, fragCompressed := r.compressed }

section

variable {e : Env} {slot : Slot}

@[simp] theorem emits_nil (slot : Slot) : slot.emits [] = slot := by simp [emits]

@[simp] theorem emits_emits (slot : Slot) (acts acts' : List Act) :
    (slot.emits acts).emits acts' = slot.emits (acts ++ acts') := by
  simp [emits, PeerContext.peerId]

@[simp] theorem callbackEmits_nil (slot : Slot) : slot.callbackEmits e [] = slot := by
  simp [callbackEmits]

theorem callbackEmits_append (slot : Slot) (evs evs' : List Event) :
    (slot.callbackEmits e evs).callbackEmits e evs' = slot.callbackEmits e (evs ++ evs') := by
  unfold callbackEmits
  split <;> simp

theorem callbackEmits_setReassembly (slot : Slot) (r : Reassembly) (evs : List Event) :
    (slot.setReassembly r).callbackEmits e evs = (slot.callbackEmits e evs).setReassembly r := by
  unfold callbackEmits
  split <;> rfl

@[simp] theorem callbackEmits_healthAlive (slot : Slot) (evs : List Event) :
    (slot.callbackEmits e evs).healthAlive = slot.healthAlive := by
  unfold callbackEmits
  split <;> rfl

theorem slotRecvDeliver_eq (slot : Slot) (payload : Bytes) (compressed : Bool) :
    slot.slotRecvDeliver e payload compressed =
      slot.callbackEmits e ((Reassembly.complete e payload compressed).map Event.data) := by
  unfold slotRecvDeliver Reassembly.complete
  cases compressed with
  | false => rfl
  | true =>
    cases e.plat.decompress payload e.compressBufSize with
    | none => simp
    | some data => simp

private theorem callback_guard (slot : Slot) (payload : Bytes) (compressed : Bool) :
    (if e.callback = true then slot.slotRecvDeliver e payload compressed else slot) =
      slot.callbackEmits e ((Reassembly.complete e payload compressed).map Event.data) := by
  rw [slotRecvDeliver_eq]
  unfold callbackEmits
  split <;> rfl

theorem deliverPayloadElem_of_dead (h : slot.healthAlive = false) (elem : Elem) :
    slot.deliverPayloadElem e elem = slot := if_pos h

theorem deliverPayloadElem_of_alive (h : slot.healthAlive = true) (elem : Elem) :
    slot.deliverPayloadElem e elem =
      (slot.callbackEmits e ((slot.reassembly.feed e elem).2.map Event.data)).setReassembly
        (slot.reassembly.feed e elem).1 := by
  unfold deliverPayloadElem
  rw [if_neg (by simp [h])]
  simp only [callback_guard]
  by_cases hmore : elem.moreFrag = true
  · rw [if_pos hmore]
    by_cases hfit : slot.fragBuf.length + elem.payload.length ≤ e.maxMessageSize
    · rw [if_pos hfit, Reassembly.feed_more hmore hfit, List.map_nil, callbackEmits_nil]
      rfl
    · rw [if_neg hfit, Reassembly.feed_more_overflow hmore hfit, List.map_nil, callbackEmits_nil]
      rfl
  · rw [if_neg hmore]
    by_cases hbuf : 0 < slot.fragBuf.length
    · rw [if_pos hbuf]
      by_cases hfit : slot.fragBuf.length + elem.payload.length ≤ e.maxMessageSize
      · rw [if_pos hfit, Reassembly.feed_last hmore hbuf hfit]
        unfold callbackEmits
        split <;> rfl
      · rw [if_neg hfit, Reassembly.feed_last_overflow hmore hbuf hfit, List.map_nil,
          callbackEmits_nil]
        rfl
    · rw [if_neg hbuf, Reassembly.feed_single hmore hbuf]
      unfold callbackEmits
      split <;> rfl

-- Delivering the elements of one packet, for a connected and for an unconnected session.
theorem deliverElems_of_dead (h : slot.healthAlive = false) (elems : List Elem) :
    elems.foldl (deliverPayloadElem e) slot = slot := by
  induction elems with
  | nil => rfl
  | cons elem elems ih => rw [List.foldl_cons, deliverPayloadElem_of_dead h, ih]

theorem deliverElems_of_alive (h : slot.healthAlive = true) (elems : List Elem) :
    elems.foldl (deliverPayloadElem e) slot =
      (slot.callbackEmits e ((slot.reassembly.feedAll e elems).2.map Event.data)).setReassembly
        (slot.reassembly.feedAll e elems).1 := by
  induction elems generalizing slot with
  | nil => simp [Reassembly.feedAll, setReassembly, reassembly]
  | cons elem elems ih =>
    have hstep := deliverPayloadElem_of_alive (e := e) h elem
    rw [List.foldl_cons, hstep, ih (by simpa [setReassembly] using h)]
    simp only [Reassembly.feedAll, List.map_append, ← callbackEmits_append]
    rw [callbackEmits_setReassembly]
    rfl

end

end Slot

end Porter
