import Porter.Recv.Dispatch

namespace Porter

-- The part of potr_context an N:1 service works on: the peer table and what its slots share.
structure Ctx where
  peers : Nat → PeerContext
  nPeers : Nat
  nextPeerId : UInt32
  tick : Nat
  log : List (UInt32 × Act)

-- The FIN of a session names the next number once DATA was sent in it.
def Packet.finOf (shdr : PacketSessionHdr) (hasData : Bool) (nextSeq : UInt32) : Packet :=
  if hasData then
    { buildFin shdr with flags := FLAG_FIN ||| FLAG_FIN_TARGET_VALID, ackNum := nextSeq }
  else buildFin shdr

-- potr_internal_peer_send_fin
def Slot.peerSendFin (e : Env) (slot : Slot) : Slot :=
  slot.sendToDests e
    (Packet.finOf (slot.ownSessionHdr e) slot.sendHasData slot.sendWindow.nextSeq)

-- send_fin of potr_service_close, where the slot has no peer
def Slot.sendFin (e : Env) (slot : Slot) : Slot := slot.peerSendFin e

inductive PeerResult where
  | ok
  | invalidArgument
  | unsupported
  | notFound
  deriving DecidableEq, Repr

namespace Ctx

-- potr_internal_peer_table_init
def opened (e : Env) : Ctx where
  peers := fun _ => PeerContext.empty e.windowSize
  nPeers := 0
  nextPeerId := 1
  tick := 0
  log := []

-- thread_recv_slot_init_peer
def slotInitPeer (ctx : Ctx) (i : Nat) : Slot :=
  { ctx.peers i with tick := ctx.tick, nPeers := ctx.nPeers, log := ctx.log }

-- Slots point into the context, so what a function writes through one is in the context.
def store (ctx : Ctx) (i : Nat) (slot : Slot) : Ctx :=
  { ctx with
    peers := Function.update ctx.peers i slot.toPeerContext
    nPeers := slot.nPeers
    tick := slot.tick
    log := slot.log }

def findBySession (e : Env) (ctx : Ctx) (pkt : Packet) : Option Nat :=
  (List.range e.maxPeers).find? fun i =>
    (ctx.peers i).active && (ctx.peers i).peerSessionId = pkt.sessionId &&
      e.plat.timespecCmp (ctx.peers i).peerSessionTs pkt.sessionTs = 0

-- allocate_peer_id. Of maxPeers + 2 successive candidates at most maxPeers - 1 are in use by
-- other peers and at most two are reserved values.
def allocatePeerId (e : Env) (ctx : Ctx) : Option UInt32 :=
  ((List.range (e.maxPeers + 2)).map fun k => ctx.nextPeerId + UInt32.ofNat k).find?
    fun candidate => candidate != 0 && candidate != PEER_ALL &&
      (List.range e.maxPeers).all fun i =>
        !((ctx.peers i).active && (ctx.peers i).peer = some candidate)

-- potr_internal_peer_create: the context after it and the index of the new peer. Where the
-- random source or an allocation fails, the id is spent and the slot stays free.
def peerCreate (e : Env) (ctx : Ctx) (sender : Endpoint) (path : Path) : Ctx × Option Nat :=
  if e.maxPeers ≤ ctx.nPeers then (ctx, none)
  else
    match (List.range e.maxPeers).find? (fun i => !(ctx.peers i).active), ctx.allocatePeerId e with
    | some i, some peerId =>
        let cleared := PeerContext.empty e.windowSize
        let ctx := { ctx with nextPeerId := peerId + 1, tick := ctx.tick + 1 }
        match e.plat.newSession (ctx.tick - 1) with
        | none => ({ ctx with peers := Function.update ctx.peers i cleared }, none)
        | some (sessionId, sessionTs) =>
            ({ ctx with
                peers := Function.update ctx.peers i
                  { cleared with
                    peer := some peerId
                    active := true
                    sessionId := sessionId
                    sessionTs := sessionTs
                    destAddr := Function.update cleared.destAddr path sender
                    nPaths := 1 }
                nPeers := ctx.nPeers + 1 }, some i)
    | _, _ => (ctx, none)

-- n1_handle_packet after authentication. The fields it sets for a new peer are those of an
-- adopted session.
def n1HandlePacket (e : Env) (ctx : Ctx) (pkt : Packet) (path : Path) (sender : Endpoint) : Ctx :=
  match ctx.findBySession e pkt with
  | some i => ctx.store i (((ctx.slotInitPeer i).emit (.recv pkt)).dispatchPacket e pkt path sender)
  | none =>
      if pkt.has FLAG_PING then
        match ctx.peerCreate e sender path with
        | (ctx, some i) =>
            let slot := ((ctx.slotInitPeer i).emit (.recv pkt)).adoptSession e pkt
            ctx.store i (slot.dispatchPacket e pkt path sender)
        | (ctx, none) => ctx
      else ctx

-- thread_recv_health_check_peers
def healthCheckPeers (e : Env) (ctx : Ctx) : Ctx :=
  let nowTs := e.plat.clock ctx.tick
  let ctx := { ctx with tick := ctx.tick + 1 }
  if e.healthTimeoutMs = 0 then ctx
  else (List.range e.maxPeers).foldl
    (fun ctx i => ctx.store i ((ctx.slotInitPeer i).healthCheckPeer e nowTs)) ctx

-- One round of recv_thread_func of an N:1 service.
def step (e : Env) (ctx : Ctx) : Slot.Input → Ctx
  | .packet path sender pkt =>
      if e.nPath ≤ path.val then ctx else ctx.n1HandlePacket e pkt path sender
  | .pollTimeout => ctx.healthCheckPeers e

def run (e : Env) (ctx : Ctx) (inputs : List Slot.Input) : Ctx := inputs.foldl (step e) ctx

-- potr_internal_peer_find_by_id
def findById (e : Env) (ctx : Ctx) (peerId : UInt32) : Option Nat :=
  (List.range e.maxPeers).find? fun i =>
    (ctx.peers i).active && (ctx.peers i).peer = some peerId

-- potr_peer_disconnect, which holds peers_mutex as the receive thread does for each packet.
def peerDisconnect (e : Env) (ctx : Ctx) (peerId : UInt32) : Ctx × PeerResult :=
  if peerId = PEER_NA || peerId = PEER_ALL then (ctx, .invalidArgument)
  else if !e.isMultiPeer then (ctx, .unsupported)
  else
    match ctx.findById e peerId with
    | none => (ctx, .notFound)
    | some i =>
        let slot := (ctx.slotInitPeer i).peerSendFin e
        (ctx.store i (slot.disconnectAllPaths e).peerFree, .ok)

-- What changes the peer table: the receive thread and the application.
inductive Action where
  | recv (input : Slot.Input)
  | peerDisconnect (peerId : UInt32)

def act (e : Env) (ctx : Ctx) : Action → Ctx
  | .recv input => ctx.step e input
  | .peerDisconnect peerId => (ctx.peerDisconnect e peerId).1

end Ctx

end Porter
