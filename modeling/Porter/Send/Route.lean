import Porter.Connection.Table
import Porter.Send.Service

namespace Porter

-- The own session of a context: the one its packets are sent under.
def PeerContext.localSession (peer : PeerContext) : SessionHdr := ⟨peer.sessionId, peer.sessionTs⟩

-- A queue element of an N:1 service. `owner` is not in the source: it is the own session of the
-- peer that had the id when the element was accepted.
structure Parcel where
  peerId : UInt32
  elem : Elem
  owner : SessionHdr
  deriving DecidableEq, Repr

-- The peer in a context is the one a parcel is for.
def PeerContext.Owns (peer : PeerContext) (parcel : Parcel) : Prop :=
  peer.peer = some parcel.peerId ∧ peer.localSession = parcel.owner

instance (peer : PeerContext) (parcel : Parcel) : Decidable (peer.Owns parcel) :=
  inferInstanceAs (Decidable (_ ∧ _))

def Ctx.parcel (ctx : Ctx) (i : Nat) (elem : Elem) : Parcel :=
  ⟨(ctx.peers i).peerId, elem, (ctx.peers i).localSession⟩

-- Where the send thread is in send_packed_peer_mode and flush_packed_peer. Once it has looked the
-- peer up it holds a pointer to the slot `i` and no lock on the table.
inductive Phase where
  | idle
  | packing (i : Nat) (first : Parcel) (rest : List Parcel)
  -- The container `packet` was numbered when the slot was `built`; `left` are the paths that it
  -- has not been sent on yet.
  | sending (i : Nat) (parcels : List Parcel) (packet : Packet) (built : Slot) (left : List Path)

-- One sendto of flush_packed_peer: the container, the slot it was built from and the peer, path
-- and address it was sent to.
structure Shipment where
  parcels : List Parcel
  packet : Packet
  built : Slot
  peer : PeerContext
  path : Path
  dest : Endpoint

-- The shipment of an entry that sends.
def Act.shipment (parcels : List Parcel) (built : Slot) (peer : PeerContext) : Act → Option Shipment
  | .send path dest packet => some ⟨parcels, packet, built, peer, path, dest⟩
  | _ => none

-- The elements in send_wire_buf.
def Parcel.packed (parcels : List Parcel) : Bytes :=
  (parcels.map Parcel.elem).foldl Packet.appendPayloadElem []

theorem Parcel.packed_eq (parcels : List Parcel) :
    packed parcels = Elem.encodeAll (parcels.map Parcel.elem) :=
  Packet.foldl_appendPayloadElem [] _

-- An N:1 service with its application and send threads beside the threads that change the table.
-- `todo` are the elements of the call under way that are not queued yet; `shipped` is what
-- flush_packed_peer added to the log.
structure Router where
  ctx : Ctx
  closeRequested : Bool
  todo : List Parcel
  queue : List Parcel
  inflight : Nat
  phase : Phase
  shipped : List Shipment

namespace Router

def opened (e : Env) : Router where
  ctx := Ctx.opened e
  closeRequested := false
  todo := []
  queue := []
  inflight := 0
  phase := .idle
  shipped := []

-- The application passes a message. A blocking call waits around its pushes, which only rules
-- runs out.
def send (e : Env) (s : Router) (peerId : UInt32) (data : Bytes) (compress : Bool) : Router :=
  match s.todo with
  | [] =>
      match s.ctx.serviceSend e s.closeRequested 0 peerId data compress with
      | .ok (slots, elems) => { s with todo := slots.flatMap fun i => elems.map (s.ctx.parcel i) }
      | .error _ => s
  | _ :: _ => s

def push (e : Env) (s : Router) : Router :=
  match s.todo with
  | [] => s
  | parcel :: todo =>
      if e.sendQueueDepth ≤ s.queue.length + s.inflight then s
      else { s with todo := todo, queue := s.queue ++ [parcel] }

-- The send thread takes a first element and looks its peer up. The element of a peer that is not
-- there any more is completed at once.
def pop (e : Env) (s : Router) : Router :=
  match s.phase, s.queue with
  | .idle, parcel :: queue =>
      match s.ctx.findById e parcel.peerId with
      | none => { s with queue := queue }
      | some i =>
          { s with queue := queue, inflight := s.inflight + 1, phase := .packing i parcel [] }
  | _, _ => s

-- It adds the element it peeks, where the packing loop does not break.
def pack (e : Env) (s : Router) : Router :=
  match s.phase, s.queue with
  | .packing i first rest, next :: queue =>
      if first.elem.moreFrag || next.peerId != first.peerId || next.elem.moreFrag ||
          Sender.packLimit e < (Parcel.packed (first :: rest)).length +
            (PAYLOAD_ELEM_HDR_SIZE + next.elem.payload.length) then s
      else
        { s with
          queue := queue
          inflight := s.inflight + 1
          phase := .packing i first (rest ++ [next]) }
  | _, _ => s

-- flush_packed_peer up to the release of send_window_mutex
def flush (e : Env) (s : Router) : Router :=
  match s.phase with
  | .packing i first rest =>
      let slot := s.ctx.slotInitPeer i
      match slot.packedContainer e (Parcel.packed (first :: rest)) with
      | none => { s with inflight := s.inflight - (first :: rest).length, phase := .idle }
      | some outer =>
          { s with
            ctx := s.ctx.store i
              { slot with sendWindow := slot.sendWindow.sendPush outer, sendHasData := true }
            phase := .sending i (first :: rest) outer slot Slot.paths }
  | _ => s

-- The rest of it, one path after the other.
def sendto (s : Router) : Router :=
  match s.phase with
  | .sending _ parcels _ _ [] => { s with inflight := s.inflight - parcels.length, phase := .idle }
  | .sending i parcels packet built (path :: left) =>
      let slot := s.ctx.slotInitPeer i
      if (slot.destAddr path).isUnset then { s with phase := .sending i parcels packet built left }
      else
        let after := slot.emit (.send path (slot.destAddr path) packet)
        { s with
          ctx := s.ctx.store i after
          phase := .sending i parcels packet built left
          shipped := s.shipped ++
            (slot.since after).filterMap (Act.shipment parcels built slot.toPeerContext) }
  | _ => s

-- The threads take turns in any way. `table` is a packet, a health check or potr_peer_disconnect.
inductive Action where
  | send (peerId : UInt32) (data : Bytes) (compress : Bool)
  | requestClose
  | push
  | pop
  | pack
  | flush
  | sendto
  | table (action : Ctx.Action)

def step (e : Env) (s : Router) : Action → Router
  | .send peerId data compress => s.send e peerId data compress
  | .requestClose => { s with closeRequested := true }
  | .push => s.push e
  | .pop => s.pop e
  | .pack => s.pack e
  | .flush => s.flush e
  | .sendto => s.sendto
  | .table action => { s with ctx := s.ctx.act e action }

def run (e : Env) (s : Router) (actions : List Action) : Router := actions.foldl (step e) s

end Router

-- The slot the send thread holds a pointer to.
def Phase.held : Phase → Option Nat
  | .idle => none
  | .packing i _ _ => some i
  | .sending i _ _ _ _ => some i

-- What must hold before every step: the peer the send thread works for is still there, and no id
-- has passed to another peer while elements for the earlier one are queued.
def Router.Steady (e : Env) (s : Router) : Prop :=
  (∀ i ∈ s.phase.held, (s.ctx.peers i).active = true) ∧
    ∀ parcel ∈ s.queue, ∀ i < e.maxPeers, (s.ctx.peers i).active = true →
      (s.ctx.peers i).peer = some parcel.peerId → (s.ctx.peers i).localSession = parcel.owner

instance (e : Env) (s : Router) : Decidable (s.Steady e) := inferInstanceAs (Decidable (_ ∧ _))

-- A session as the header of a packet shows it, where the nanoseconds have 32 bits.
def SessionHdr.onWire (session : SessionHdr) : SessionHdr :=
  ⟨session.id, session.ts.tvSec, session.ts.tvNsec.toInt32.toInt64⟩

-- A shipment is right where its elements went under the own session of the peer they were accepted
-- for, with the next number of its window and to the address learned for it on the path.
structure Shipment.Right (e : Env) (sh : Shipment) : Prop where
  built : sh.built.active = true ∧ ∀ parcel ∈ sh.parcels, sh.built.Owns parcel
  packet : sh.built.packedContainer e (Elem.encodeAll (sh.parcels.map Parcel.elem)) = some sh.packet
  session : ∀ parcel ∈ sh.parcels, sh.packet.session = parcel.owner.onWire
  number : sh.packet.seqNum = sh.built.sendWindow.nextSeq
  peer : sh.peer.active = true ∧ ∀ parcel ∈ sh.parcels, sh.peer.Owns parcel
  dest : sh.dest = sh.peer.destAddr sh.path ∧ sh.dest.isUnset = false

theorem Slot.packedContainer_session {e : Env} {slot : Slot} {packed : Bytes} {outer : Packet}
    (h : slot.packedContainer e packed = some outer) : outer.session = slot.localSession.onWire := by
  obtain ⟨built, hbuilt, hsealed⟩ := Option.bind_eq_some_iff.mp h
  rw [(Packet.sealAs_sameHeader hsealed).session]
  unfold Packet.buildPacked at hbuilt
  split at hbuilt
  · cases hbuilt
  · rw [← Option.some.inj hbuilt]
    rfl

theorem Slot.owns_stable {e : Env} {path : Path} {sender : Endpoint} (parcel : Parcel) :
    Stable e path sender fun slot => slot.toPeerContext.Owns parcel where
  emits _ _ h := h
  inner := by
    rintro slot slot' ⟨hpeer, hown⟩ hlinks - - - -
    refine ⟨(congrArg (fun l => l.toConn.peer) hlinks).trans hpeer, Eq.trans ?_ hown⟩
    exact congrArg (fun l : Links => (⟨l.sessionId, l.sessionTs⟩ : SessionHdr)) hlinks
  sync _ h := h
  pings _ _ h := h
  heard _ _ _ h := h
  learn := by
    intro slot h
    unfold learnSenderPath
    dsimp only
    split <;> split <;> exact h
  clear _ _ h := h
  free := by
    intro slot h
    unfold peerFree
    split <;> exact h
  dedup _ _ h := h

-- What the phase of the send thread says about the slot it holds.
def Phase.Routed (e : Env) (ctx : Ctx) : Phase → Prop
  | .idle => True
  | .packing i first rest => i < e.maxPeers ∧ ∀ parcel ∈ first :: rest, (ctx.peers i).Owns parcel
  | .sending i parcels packet built _ =>
      i < e.maxPeers ∧ (∀ parcel ∈ parcels, (ctx.peers i).Owns parcel) ∧ built.active = true ∧
        (∀ parcel ∈ parcels, built.Owns parcel) ∧
        built.packedContainer e (Elem.encodeAll (parcels.map Parcel.elem)) = some packet

namespace Phase.Routed

variable {e : Env} {ctx : Ctx} {phase : Phase}

theorem act (action : Ctx.Action)
    (hheld : ∀ i ∈ phase.held, (ctx.peers i).active = true) (h : Phase.Routed e ctx phase) :
    Phase.Routed e (ctx.act e action) phase := by
  have howns : ∀ {i : Nat}, phase.held = some i → i < e.maxPeers → ∀ {parcel : Parcel},
      (ctx.peers i).Owns parcel → ((ctx.act e action).peers i).Owns parcel := by
    intro i hi hlt parcel hparcel
    exact Ctx.act_stable (P := fun peer => peer.Owns parcel)
      (fun _ _ => Slot.owns_stable parcel) action hlt (hheld i hi) hparcel
  cases phase with
  | idle => trivial
  | packing i first rest => exact ⟨h.1, fun parcel hmem => howns rfl h.1 (h.2 parcel hmem)⟩
  | sending i parcels packet built left =>
    exact ⟨h.1, fun parcel hmem => howns rfl h.1 (h.2.1 parcel hmem), h.2.2⟩

theorem store (h : Phase.Routed e ctx phase) (i : Nat) {slot : Slot} (hpeer : slot.peer = (ctx.peers i).peer)
    (hown : slot.localSession = (ctx.peers i).localSession) : Phase.Routed e (ctx.store i slot) phase := by
  have howns : ∀ {j : Nat} {parcel : Parcel}, (ctx.peers j).Owns parcel →
      ((ctx.store i slot).peers j).Owns parcel := by
    intro j parcel hparcel
    by_cases hji : j = i
    · subst hji
      rw [Ctx.store_peers_self]
      exact ⟨hpeer.trans hparcel.1, hown.trans hparcel.2⟩
    · rw [Ctx.store_peers_of_ne hji]
      exact hparcel
  cases phase with
  | idle => trivial
  | packing _ _ _ => exact ⟨h.1, fun parcel hmem => howns (h.2 parcel hmem)⟩
  | sending _ _ _ _ _ => exact ⟨h.1, fun parcel hmem => howns (h.2.1 parcel hmem), h.2.2⟩

end Phase.Routed

namespace Router

-- Every shipment so far was right, and the next ones will be.
structure Routed (e : Env) (s : Router) : Prop where
  phase : Phase.Routed e s.ctx s.phase
  shipped : ∀ sh ∈ s.shipped, sh.Right e

section

variable {e : Env} {s : Router}

theorem routed_pop (hsteady : s.Steady e) (h : s.Routed e) : (s.pop e).Routed e := by
  unfold pop
  split
  · rename_i parcel queue hphase hqueue
    split
    · exact ⟨h.phase, h.shipped⟩
    · rename_i i hfind
      obtain ⟨hi, hactive, hpeer⟩ := Ctx.findById_some hfind
      have hown := hsteady.2 parcel (by simp [hqueue]) i hi hactive hpeer
      refine ⟨⟨hi, ?_⟩, h.shipped⟩
      simpa using ⟨hpeer, hown⟩
  · exact h

theorem routed_pack (hsteady : s.Steady e) (h : s.Routed e) : (s.pack e).Routed e := by
  unfold pack
  split
  · rename_i i first rest next queue hphase hqueue
    split
    · exact h
    · rename_i hcond
      simp only [Bool.or_eq_true, bne_iff_ne, decide_eq_true_eq, not_or, not_not] at hcond
      have hphase' := h.phase
      rw [hphase] at hphase'
      obtain ⟨hi, howns⟩ := hphase'
      -- The pointer was looked up for the id of the first element.
      have hpeer : (s.ctx.peers i).peer = some next.peerId :=
        (howns first List.mem_cons_self).1.trans (congrArg some hcond.1.1.2.symm)
      have hactive := hsteady.1 i (by rw [hphase]; rfl)
      have hown := hsteady.2 next (by simp [hqueue]) i hi hactive hpeer
      refine ⟨⟨hi, fun parcel hmem => ?_⟩, h.shipped⟩
      rw [← List.cons_append, List.mem_append, List.mem_singleton] at hmem
      rcases hmem with hmem | rfl
      · exact howns parcel hmem
      · exact ⟨hpeer, hown⟩
  · exact h

theorem routed_flush (hsteady : s.Steady e) (h : s.Routed e) : (s.flush e).Routed e := by
  unfold flush
  split
  · rename_i i first rest hphase
    have hphase' := h.phase
    rw [hphase] at hphase'
    obtain ⟨hi, howns⟩ := hphase'
    dsimp only
    split
    · exact ⟨trivial, h.shipped⟩
    · rename_i outer houter
      rw [Parcel.packed_eq] at houter
      have hactive := hsteady.1 i (by rw [hphase]; rfl)
      have hsending : Phase.Routed e s.ctx (.sending i (first :: rest) outer (s.ctx.slotInitPeer i)
          Slot.paths) :=
        ⟨hi, howns, hactive, howns, houter⟩
      exact ⟨hsending.store i rfl rfl, h.shipped⟩
  · exact h

theorem routed_sendto (hsteady : s.Steady e) (h : s.Routed e) : s.sendto.Routed e := by
  unfold sendto
  split
  · exact ⟨trivial, h.shipped⟩
  · rename_i i parcels packet built path left hphase
    have hphase' := h.phase
    rw [hphase] at hphase'
    obtain ⟨hi, howns, hbuilt, hbuiltOwns, hpacket⟩ := hphase'
    have hleft : Phase.Routed e s.ctx (.sending i parcels packet built left) :=
      ⟨hi, howns, hbuilt, hbuiltOwns, hpacket⟩
    dsimp only
    split
    · exact ⟨hleft, h.shipped⟩
    · rename_i hset
      refine ⟨hleft.store i rfl rfl, fun sh hmem => ?_⟩
      rcases List.mem_append.mp hmem with hmem | hmem
      · exact h.shipped sh hmem
      · rw [Slot.emit, Slot.since_emits] at hmem
        obtain rfl := List.mem_singleton.mp hmem
        have hactive := hsteady.1 i (by rw [hphase]; rfl)
        refine ⟨⟨hbuilt, hbuiltOwns⟩, hpacket, fun parcel hparcel => ?_,
          (Slot.packedContainer_header hpacket).1, ⟨hactive, howns⟩, rfl, by simpa using hset⟩
        rw [Slot.packedContainer_session hpacket, (hbuiltOwns parcel hparcel).2]
  · exact h

theorem routed_step (action : Action) (hsteady : s.Steady e)
    (h : s.Routed e) : (s.step e action).Routed e := by
  cases action with
  | send peerId data compress =>
    change (s.send e peerId data compress).Routed e
    unfold send
    split
    · split <;> exact ⟨h.phase, h.shipped⟩
    · exact h
  | requestClose => exact ⟨h.phase, h.shipped⟩
  | push =>
    change (s.push e).Routed e
    unfold push
    split
    · exact h
    · split
      · exact h
      · exact ⟨h.phase, h.shipped⟩
  | pop => exact routed_pop hsteady h
  | pack => exact routed_pack hsteady h
  | flush => exact routed_flush hsteady h
  | sendto => exact routed_sendto hsteady h
  | table action => exact ⟨h.phase.act action hsteady.1, h.shipped⟩

end

end Router

-- Every run of an N:1 service in which the send thread's peer stays while it is served and no id
-- passes on while elements wait for it.
theorem n1_routes_to_owner {e : Env} (actions : List Router.Action)
    (hsteady : Run.Meets (Router.step e) (fun s _ => s.Steady e) (Router.opened e) actions) :
    ∀ sh ∈ ((Router.opened e).run e actions).shipped, sh.Right e := by
  have hstart : (Router.opened e).Routed e := ⟨trivial, fun _ h => (nomatch h)⟩
  exact (hsteady.preserves (fun _ action hs h => Router.routed_step action hs h) hstart).shipped

-- Two peers join and one message goes to both of them.
def Router.sampleRun : List Router.Action :=
  [.table (.recv (.sample (.samplePing 7))),
    .table (.recv (.packet 0 .other
      (Packet.buildPing ⟨1, 6, 9, 0⟩ 0 [PING_STATE_NORMAL, PING_STATE_NORMAL, 0, 0]))),
    .send PEER_ALL [5] false, .push, .push, .pop, .flush, .sendto, .sendto, .sendto, .sendto, .sendto,
    .pop, .flush, .sendto]

theorem n1_routes_to_owner_sample :
    let s := (Router.opened (Env.sample .unicastBidirN1)).run (Env.sample .unicastBidirN1) Router.sampleRun
    (∀ sh ∈ s.shipped, sh.Right (Env.sample .unicastBidirN1)) ∧
      s.shipped.map Shipment.dest = [.source, .other] :=
  ⟨n1_routes_to_owner _ (by decide +kernel), by decide +kernel⟩

-- Between the lookup and the flush the peer is disconnected and another one gets its slot: the
-- element for the first one goes to the second, under the session of the second.
def Router.reusedRun : List Router.Action :=
  [.table (.recv (.sample (.samplePing 7))), .send 1 [5] false, .push, .pop,
    .table (.peerDisconnect 1),
    .table (.recv (.packet 0 .other
      (Packet.buildPing ⟨1, 6, 9, 0⟩ 0 [PING_STATE_NORMAL, PING_STATE_NORMAL, 0, 0]))),
    .flush, .sendto]

theorem reused_slot_misroutes :
    let s := (Router.opened (Env.sample .unicastBidirN1)).run (Env.sample .unicastBidirN1) Router.reusedRun
    ∃ sh ∈ s.shipped, sh.parcels.map Parcel.peerId = [1] ∧ sh.peer.peer = some 2 ∧
      sh.dest = .other ∧ (∀ parcel ∈ sh.parcels, sh.packet.session ≠ parcel.owner.onWire) := by
  decide +kernel

end Porter
