import Porter.Service
import Porter.Window

namespace Porter

structure NackDedupEntry where
  ackNum : UInt32
  timeMs : Nat
  deriving DecidableEq, Repr

-- The receive state of one remote session: the fields thread_recv_slot points to. In a 1:1
-- service they live in potr_context, in N:1 mode in potr_internal_peer_context, and `peer`
-- is the peer id there.
structure PeerContext where
  peer : Option UInt32
  active : Bool
  sessionId : UInt32
  sessionTs : Timespec
  peerSessionId : UInt32
  peerSessionKnown : Bool
  peerSessionTs : Timespec
  sendWindow : Window
  recvWindow : Window
  sendHasData : Bool
  -- frag_buf up to frag_buf_len
  fragBuf : Bytes
  fragCompressed : Bool
  healthAlive : Bool
  pathLogicalAlive : Path → Bool
  pathPingState : Path → UInt8
  remotePathPingState : Path → UInt8
  lastRecvTs : Timespec
  pathLastRecvTs : Path → Timespec
  nackDedupBuf : Nat → NackDedupEntry
  nackDedupNext : Nat
  reorderPending : Bool
  reorderNackNum : UInt32
  reorderDeadlineTs : Timespec
  pendingFin : Bool
  finTargetSeq : UInt32
  destAddr : Path → Endpoint
  nPaths : Nat
  peerPort : Path → UInt16
  -- `tcp_conn_fd[k] != CPLAT_INVALID_SOCKET`
  tcpConnFd : Path → Bool

-- What the receive thread does that an observer can record. `event` is a call of the
-- application's callback, `send` a sendto and `sendTcp` a control packet written to the
-- connected TCP paths; the other entries mark the points where the code changes the
-- receive window, with the values it uses there.
inductive Act where
  | recv (pkt : Packet)
  | poll
  | adopt (session : SessionHdr) (seq : UInt32)
  | reset (seq : UInt32)
  | forget
  | push (pkt : Packet)
  | pop (pkt : Packet) (alive : Bool)
  | skip (seq : UInt32)
  | nack (seq : UInt32) (win : Window)
  | send (path : Path) (dest : Endpoint) (pkt : Packet)
  | sendTcp (pkt : Packet)
  | event (ev : Event)

-- The number a NACK asks for, with the window at that time.
def Act.asked : Act → Option (UInt32 × Window)
  | .nack seq win => some (seq, win)
  | _ => none

-- The number that a NACK packet asks for.
def Act.nackSent : Act → Option UInt32
  | .send _ _ pkt => if pkt.has FLAG_NACK then some pkt.ackNum else none
  | _ => none

-- thread_recv_slot: the session state together with what all slots of a context share,
-- the number of platform queries so far, n_peers and the record of what was done, tagged by
-- peer id.
structure Slot extends PeerContext where
  tick : Nat
  nPeers : Nat
  log : List (UInt32 × Act)

-- The entries of one peer.
def entriesOf (p : UInt32) (log : List (UInt32 × Act)) : List Act :=
  (log.filter fun x => x.1 = p).map Prod.snd

theorem entriesOf_append_own (p : UInt32) (log : List (UInt32 × Act)) (acts : List Act) :
    entriesOf p (log ++ acts.map fun act => (p, act)) = entriesOf p log ++ acts := by
  have hfilter : (acts.map fun act => (p, act)).filter (fun x => x.1 = p) =
      acts.map fun act => (p, act) := by
    refine List.filter_eq_self.mpr fun x hx => ?_
    obtain ⟨act, -, rfl⟩ := List.mem_map.mp hx
    exact decide_eq_true rfl
  unfold entriesOf
  rw [List.filter_append, hfilter, List.map_append, List.map_map]
  exact congrArg _ (List.map_id acts)

theorem entriesOf_append_other {p q : UInt32} (h : q ≠ p) (log : List (UInt32 × Act))
    (acts : List Act) :
    entriesOf p (log ++ acts.map fun act => (q, act)) = entriesOf p log := by
  have hfilter : (acts.map fun act => (q, act)).filter (fun x => x.1 = p) = [] := by
    refine List.filter_eq_nil_iff.mpr fun x hx => ?_
    obtain ⟨act, -, rfl⟩ := List.mem_map.mp hx
    simpa using h
  unfold entriesOf
  rw [List.filter_append, hfilter, List.append_nil]

namespace PeerContext

-- The memset of a new context, with both windows allocated.
def empty (windowSize : Nat) : PeerContext where
  peer := none
  active := false
  sessionId := 0
  sessionTs := ⟨0, 0⟩
  peerSessionId := 0
  peerSessionKnown := false
  peerSessionTs := ⟨0, 0⟩
  sendWindow := Window.init 0 windowSize
  recvWindow := Window.init 0 windowSize
  sendHasData := false
  fragBuf := []
  fragCompressed := false
  healthAlive := false
  pathLogicalAlive := fun _ => false
  pathPingState := fun _ => PING_STATE_UNDEFINED
  remotePathPingState := fun _ => PING_STATE_UNDEFINED
  lastRecvTs := ⟨0, 0⟩
  pathLastRecvTs := fun _ => ⟨0, 0⟩
  nackDedupBuf := fun _ => ⟨0, 0⟩
  nackDedupNext := 0
  reorderPending := false
  reorderNackNum := 0
  reorderDeadlineTs := ⟨0, 0⟩
  pendingFin := false
  finTargetSeq := 0
  destAddr := fun _ => Endpoint.clear
  nPaths := 0
  peerPort := fun _ => 0
  tcpConnFd := fun _ => false

def peerId (ctx : PeerContext) : UInt32 := ctx.peer.getD PEER_NA

end PeerContext

namespace Slot

def emits (slot : Slot) (acts : List Act) : Slot :=
  { slot with log := slot.log ++ acts.map fun act => (slot.peerId, act) }

def emit (slot : Slot) (act : Act) : Slot := slot.emits [act]

-- potr_internal_callback_emit: nothing happens without a callback.
def callbackEmits (e : Env) (slot : Slot) (evs : List Event) : Slot :=
  if e.callback then slot.emits (evs.map Act.event) else slot

def paths : List Path := List.finRange MAX_PATH

-- The paths below n_path.
def openPaths (e : Env) : List Path := paths.filter fun i => i.val < e.nPath

-- cplat_clock_get_monotonic
def now (e : Env) (slot : Slot) : Timespec := e.plat.clock slot.tick

def tickOnce (slot : Slot) : Slot := { slot with tick := slot.tick + 1 }

-- slot_recv_deliver
def slotRecvDeliver (e : Env) (slot : Slot) (payload : Bytes) (compressed : Bool) : Slot :=
  if compressed then
    match e.plat.decompress payload e.compressBufSize with
    | some data => callbackEmits e slot [.data data]
    | none => slot
  else callbackEmits e slot [.data payload]

-- thread_recv_slot_deliver_payload_elem
def deliverPayloadElem (e : Env) (slot : Slot) (elem : Elem) : Slot :=
  if slot.healthAlive = false then slot
  else if elem.moreFrag then
    if slot.fragBuf.length + elem.payload.length ≤ e.maxMessageSize then
      { slot with
        fragCompressed := if slot.fragBuf.length = 0 then elem.compressed else slot.fragCompressed
        fragBuf := slot.fragBuf ++ elem.payload }
    else { slot with fragBuf := [], fragCompressed := false }
  else if 0 < slot.fragBuf.length then
    let slot :=
      if slot.fragBuf.length + elem.payload.length ≤ e.maxMessageSize then
        let slot := { slot with fragBuf := slot.fragBuf ++ elem.payload }
        if e.callback then slotRecvDeliver e slot slot.fragBuf slot.fragCompressed else slot
      else slot
    { slot with fragBuf := [], fragCompressed := false }
  else if e.callback then slotRecvDeliver e slot elem.payload elem.compressed
  else slot

end Slot

end Porter
