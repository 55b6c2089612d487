import Porter.Packet.Unpack
import Porter.Send
import Porter.Send.Message

namespace Porter

-- potr_internal_send_queue: the waiting elements, oldest first, with the peer each is for, and
-- the number of elements that were taken out and not completed yet.
structure SendQueue where
  entries : List (UInt32 × Elem)
  inflight : Nat

namespace SendQueue

def empty : SendQueue := ⟨[], 0⟩

-- `none` is POTR_ERR_FULL. push_wait waits until there is room.
def push (q : SendQueue) (depth : Nat) (entry : UInt32 × Elem) : Option SendQueue :=
  if depth ≤ q.entries.length + q.inflight then none
  else some { q with entries := q.entries ++ [entry] }

-- pop and try_pop
def pop (q : SendQueue) : Option ((UInt32 × Elem) × SendQueue) :=
  match q.entries with
  | [] => none
  | entry :: rest => some (entry, ⟨rest, q.inflight + 1⟩)

-- potr_internal_send_queue_complete, once for each of `n` elements
def complete (q : SendQueue) (n : Nat) : SendQueue := { q with inflight := q.inflight - n }

end SendQueue

namespace Slot

-- flush_packed of a TCP service: no window, the number is just counted on. `writable` is whether
-- cplat_socket_wait_writable finds room on a connected path; where it does not, the packet is
-- skipped and its number is used up all the same.
def flushPackedTcp (e : Env) (slot : Slot) (packed : Bytes) (writable : Bool) : Slot :=
  match slot.packedContainer e packed with
  | none => slot
  | some outer =>
      let slot := { slot with
        sendWindow := { slot.sendWindow with nextSeq := slot.sendWindow.nextSeq + 1 }
        sendHasData := true }
      if writable then slot.emit (.sendTcp outer) else slot

def flush (e : Env) (slot : Slot) (packed : Bytes) (writable : Bool) : Slot :=
  if e.type.isTcpType then slot.flushPackedTcp e packed writable else slot.flushPacked e packed

-- What flush_packed puts on the network for a container.
def dataActs (e : Env) (slot : Slot) (writable : Bool) (outer : Packet) : List Act :=
  if e.type.isTcpType then if writable then [.sendTcp outer] else []
  else (slot.dests e).map fun d => .send d.1 d.2 outer

section

variable {e : Env} {slot : Slot} {packed : Bytes} {writable : Bool}

theorem flush_none (h : slot.packedContainer e packed = none) :
    slot.flush e packed writable = slot := by
  unfold flush flushPackedTcp flushPacked
  rw [h]
  split <;> rfl

theorem flush_some {outer : Packet} (h : slot.packedContainer e packed = some outer) :
    slot.flush e packed writable = emits
      { slot with
        sendWindow := if e.type.isTcpType then
            { slot.sendWindow with nextSeq := slot.sendWindow.nextSeq + 1 }
          else slot.sendWindow.sendPush outer
        sendHasData := true } (slot.dataActs e writable outer) := by
  unfold flush dataActs
  cases e.type.isTcpType with
  | true =>
    unfold flushPackedTcp
    rw [h]
    cases writable with
    | true => rfl
    | false => simp [emits]
  | false =>
    unfold flushPacked
    rw [h]
    exact sendToDests_eq _ outer

-- The DATA entries of the log are the containers, each once for every destination.
theorem flush_log (e : Env) (slot : Slot) (packed : Bytes) (writable : Bool) :
    (slot.flush e packed writable).log = slot.log ++
      ((slot.packedContainer e packed).toList.flatMap (slot.dataActs e writable)).map
        fun act => (slot.peerId, act) := by
  cases h : slot.packedContainer e packed with
  | none => simp [flush_none h]
  | some outer =>
    rw [flush_some h]
    simp [emits, PeerContext.peerId]

theorem flush_same (e : Env) (slot : Slot) (packed : Bytes) (writable : Bool) :
    (slot.flush e packed writable).ownSessionHdr e = slot.ownSessionHdr e ∧
      (slot.flush e packed writable).peer = slot.peer ∧
      (slot.flush e packed writable).active = slot.active ∧
      (slot.flush e packed writable).healthAlive = slot.healthAlive ∧
      (slot.flush e packed writable).destAddr = slot.destAddr := by
  cases h : slot.packedContainer e packed with
  | none =>
    rw [flush_none h]
    exact ⟨rfl, rfl, rfl, rfl, rfl⟩
  | some outer =>
    rw [flush_some h]
    exact ⟨rfl, rfl, rfl, rfl, rfl⟩

theorem flush_nextSeq {outer : Packet} (h : slot.packedContainer e packed = some outer)
    (writable : Bool) :
    (slot.flush e packed writable).sendWindow.nextSeq = slot.sendWindow.nextSeq + 1 := by
  rw [flush_some h]
  change (if e.type.isTcpType = true then
      ({ slot.sendWindow with nextSeq := slot.sendWindow.nextSeq + 1 } : Window)
    else slot.sendWindow.sendPush outer).nextSeq = _
  split
  · rfl
  · unfold Window.sendPush
    split <;> rfl

end

end Slot

-- What the send thread has put into send_wire_buf: the bytes, the peer and the flags of the
-- first element and the number of elements.
structure Packing where
  packed : Bytes
  peerId : UInt32
  firstFlags : UInt16
  nDequeued : Nat

-- One destination of a service with its send thread and the application thread that sends
-- to it. `calls` are the messages the application is still going to pass, with the COMPRESS
-- flag of each; `todo` are the fragments of the call under way that are not queued yet;
-- `accepted` and `sent` record what was accepted and which containers were made.
structure Sender where
  slot : Slot
  closeRequested : Bool
  tcpActivePaths : Nat
  calls : List (Bytes × Bool)
  todo : List Elem
  queue : SendQueue
  packing : Option Packing
  accepted : List Bytes
  sent : List Packet

inductive SendError where
  | invalidArgument
  | canceled
  | disconnected
  | notFound
  | unknown
  deriving DecidableEq, Repr

namespace Sender

def start (slot : Slot) (tcpActivePaths : Nat) (calls : List (Bytes × Bool)) : Sender where
  slot := slot
  closeRequested := false
  tcpActivePaths := tcpActivePaths
  calls := calls
  todo := []
  queue := SendQueue.empty
  packing := none
  accepted := []
  sent := []

-- potr_service_send up to the queue, for one destination.
def serviceSend (e : Env) (s : Sender) (data : Bytes) (compress : Bool) :
    Except SendError (List Elem) :=
  if data.length = 0 ∨ e.maxMessageSize < data.length then .error .invalidArgument
  else if s.closeRequested then .error .canceled
  else if e.type.isTcpType && (s.tcpActivePaths = 0 || !s.slot.healthAlive) then
    .error .disconnected
  else if e.type = .unicastBidir && !s.slot.healthAlive then .error .disconnected
  else
    match e.messageElems data compress with
    | none => .error .unknown
    | some elems =>
        if e.isMultiPeer then
          if s.slot.peer.isNone then .error .invalidArgument
          else if !s.slot.active then .error .notFound
          else if !s.slot.healthAlive then .error .disconnected
          else .ok elems
        else .ok elems

-- The room for elements in a container.
def packLimit (e : Env) : Nat :=
  e.maxPayload - if e.encryptEnabled then CRYPTO_TAG_SIZE else 0

-- The application passes its next message.
def call (e : Env) (s : Sender) : Sender :=
  match s.todo, s.calls with
  | [], (data, compress) :: calls =>
      match s.serviceSend e data compress with
      | .ok elems => { s with calls := calls, todo := elems, accepted := s.accepted ++ [data] }
      | .error _ => { s with calls := calls }
  | _, _ => s

-- It queues the next fragment of the message, once there is room.
def pushFragment (e : Env) (s : Sender) : Sender :=
  match s.todo with
  | [] => s
  | elem :: todo =>
      match s.queue.push e.sendQueueDepth (s.slot.peerId, elem) with
      | some queue => { s with todo := todo, queue := queue }
      | none => s

-- The send thread takes a first element. What is still queued for a released peer is thrown
-- away.
def popFirst (e : Env) (s : Sender) : Sender :=
  match s.packing, s.queue.pop with
  | none, some ((peerId, elem), queue) =>
      if e.isMultiPeer && !s.slot.active then { s with queue := queue.complete 1 }
      else
        { s with
          queue := queue
          packing := some ⟨Packet.appendPayloadElem [] elem, peerId, elem.flags, 1⟩ }
  | _, _ => s

-- It adds the element it peeks, where the packing loop does not break.
def packNext (e : Env) (s : Sender) : Sender :=
  match s.packing, s.queue.pop with
  | some p, some ((peerId, elem), queue) =>
      if p.firstFlags &&& FLAG_MORE_FRAG != 0 || elem.moreFrag ||
          e.isMultiPeer && peerId != p.peerId ||
          packLimit e < p.packed.length + (PAYLOAD_ELEM_HDR_SIZE + elem.payload.length) then s
      else
        { s with
          queue := queue
          packing := some { p with
            packed := Packet.appendPayloadElem p.packed elem, nDequeued := p.nDequeued + 1 } }
  | _, _ => s

-- It stops adding, for whatever reason, and flushes.
def flushPacking (e : Env) (s : Sender) (writable : Bool) : Sender :=
  match s.packing with
  | none => s
  | some p =>
      { s with
        slot := s.slot.flush e p.packed writable
        queue := s.queue.complete p.nDequeued
        packing := none
        sent := s.sent ++ (s.slot.packedContainer e p.packed).toList }

-- The two threads take turns in any way.
inductive Action where
  | call
  | push
  | pop
  | pack
  | flush
  deriving DecidableEq, Repr

def turn (e : Env) (s : Sender) (writable : Bool) : Action → Sender
  | .call => s.call e
  | .push => s.pushFragment e
  | .pop => s.popFirst e
  | .pack => s.packNext e
  | .flush => s.flushPacking e writable

-- The TCP sockets have room.
def step (e : Env) (s : Sender) (act : Action) : Sender := s.turn e true act

def run (e : Env) (s : Sender) (acts : List Action) : Sender := acts.foldl (step e) s

-- Everything the application was going to send has been flushed.
def Done (s : Sender) : Prop :=
  s.calls = [] ∧ s.todo = [] ∧ s.queue.entries = [] ∧ s.packing = none

instance (s : Sender) : Decidable s.Done :=
  decidable_of_iff (s.calls = [] ∧ s.todo = [] ∧ s.queue.entries = [] ∧ s.packing.isNone)
    (by simp [Done])

-- The destination of the sender can be sent to.
def Serves (e : Env) (s : Sender) : Prop :=
  s.closeRequested = false ∧
    (e.type.isTcpType = true → s.tcpActivePaths ≠ 0 ∧ s.slot.healthAlive = true) ∧
    (e.type = .unicastBidir → s.slot.healthAlive = true) ∧
    (e.isMultiPeer = true →
      s.slot.peer.isSome = true ∧ s.slot.active = true ∧ s.slot.healthAlive = true)

instance (e : Env) (s : Sender) : Decidable (s.Serves e) :=
  inferInstanceAs (Decidable (_ ∧ _ ∧ _ ∧ _))

section

variable {e : Env} {s : Sender} {data : Bytes} {compress : Bool}

theorem serviceSend_ok {elems : List Elem} (h : s.serviceSend e data compress = .ok elems) :
    0 < data.length ∧ data.length ≤ e.maxMessageSize ∧
      e.messageElems data compress = some elems := by
  unfold serviceSend at h
  split at h
  · cases h
  · rename_i hlen
    refine ⟨by omega, by omega, ?_⟩
    split at h
    · cases h
    split at h
    · cases h
    split at h
    · cases h
    split at h
    · cases h
    · rename_i elems' heq
      split at h
      · split at h
        · cases h
        split at h
        · cases h
        split at h
        · cases h
        · rw [heq, Except.ok.inj h]
      · rw [heq, Except.ok.inj h]

theorem serviceSend_of_serves {er : Env} (hcodec : e.Codec er) (hs : s.Serves e) (hdata : 0 < data.length)
    (hmax : data.length ≤ e.maxMessageSize) :
    ∃ elems, s.serviceSend e data compress = .ok elems := by
  obtain ⟨hclose, htcp, hbidir, hpeer⟩ := hs
  obtain ⟨elems, helems⟩ := Option.isSome_iff_exists.mp
    (messageElems_isSome hcodec hdata hmax compress)
  refine ⟨elems, ?_⟩
  have htcp' : (e.type.isTcpType && (decide (s.tcpActivePaths = 0) || !s.slot.healthAlive)) =
      false := by
    cases h : e.type.isTcpType with
    | false => rfl
    | true => simp [htcp h]
  have hbidir' : (decide (e.type = .unicastBidir) && !s.slot.healthAlive) = false := by
    by_cases h : e.type = .unicastBidir
    · simp [hbidir h]
    · simp [h]
  unfold serviceSend
  rw [if_neg (by omega), if_neg (by simp [hclose]), if_neg (by simp only [htcp', Bool.false_eq_true,
    not_false_eq_true]), if_neg (by simp only [hbidir', Bool.false_eq_true, not_false_eq_true]),
    helems]
  simp only
  split
  · rename_i hmulti
    obtain ⟨hsome, hactive, halive⟩ := hpeer hmulti
    obtain ⟨peerId, hid⟩ := Option.isSome_iff_exists.mp hsome
    simp [hid, hactive, halive]
  · rfl

end

end Sender

end Porter
