import Porter.Moves.Quiet

namespace Porter

-- What the application is told about: which paths are connected, and whether any is.
structure Conn where
  peer : Option UInt32
  active : Bool
  alive : Bool
  states : Path → Bool

-- The part of a slot that belongs to its paths rather than to what it has received.
structure Links extends Conn where
  sessionId : UInt32
  sessionTs : Timespec
  sendWindow : Window
  sendHasData : Bool
  pathPingState : Path → UInt8
  remotePathPingState : Path → UInt8
  lastRecvTs : Timespec
  pathLastRecvTs : Path → Timespec
  destAddr : Path → Endpoint
  nPaths : Nat
  peerPort : Path → UInt16
  tcpConnFd : Path → Bool

def Act.isEvent : Act → Bool
  | .event _ => true
  | _ => false

namespace Slot

def conn (slot : Slot) : Conn where
  peer := slot.peer
  active := slot.active
  alive := slot.healthAlive
  states := slot.pathLogicalAlive

def links (slot : Slot) : Links where
  toConn := slot.conn
  sessionId := slot.sessionId
  sessionTs := slot.sessionTs
  sendWindow := slot.sendWindow
  sendHasData := slot.sendHasData
  pathPingState := slot.pathPingState
  remotePathPingState := slot.remotePathPingState
  lastRecvTs := slot.lastRecvTs
  pathLastRecvTs := slot.pathLastRecvTs
  destAddr := slot.destAddr
  nPaths := slot.nPaths
  peerPort := slot.peerPort
  tcpConnFd := slot.tcpConnFd

-- The log grows by entries of the slot that satisfy `p`.
def Grows (p : Act → Prop) (slot slot' : Slot) : Prop :=
  ∃ acts, slot'.log = (slot.emits acts).log ∧ ∀ act ∈ acts, p act

def Silent (slot slot' : Slot) : Prop := slot.Grows (fun act => act.isEvent = false) slot'

-- A change beside the paths, of which the application hears nothing.
structure Beside (slot slot' : Slot) : Prop where
  links : slot'.links = slot.links
  silent : slot.Silent slot'

section

variable {e : Env} {slot slot' slot'' : Slot}

theorem Grows.of_log {p : Act → Prop} (h : slot'.log = slot.log) : slot.Grows p slot' :=
  ⟨[], by simp [h, emits], by simp⟩

theorem Silent.of_log (h : slot'.log = slot.log) : slot.Silent slot' := Grows.of_log h

theorem Grows.trans {p : Act → Prop} (hpeer : slot'.peer = slot.peer) (h : slot.Grows p slot')
    (h' : slot'.Grows p slot'') : slot.Grows p slot'' := by
  obtain ⟨acts, hlog, hacts⟩ := h
  obtain ⟨acts', hlog', hacts'⟩ := h'
  have hid : slot'.peerId = slot.peerId := congrArg (Option.getD · PEER_NA) hpeer
  refine ⟨acts ++ acts', ?_, fun act hact => ?_⟩
  · rw [hlog']
    simp [emits, hlog, hid]
  · rcases List.mem_append.mp hact with hact | hact
    · exact hacts act hact
    · exact hacts' act hact

theorem Beside.conn (h : slot.Beside slot') : slot'.conn = slot.conn :=
  congrArg Links.toConn h.links

theorem Beside.peer (h : slot.Beside slot') : slot'.peer = slot.peer :=
  congrArg Conn.peer h.conn

theorem Beside.of_eq (hlinks : slot'.links = slot.links) (hlog : slot'.log = slot.log) :
    slot.Beside slot' :=
  ⟨hlinks, .of_log hlog⟩

theorem Beside.refl (slot : Slot) : slot.Beside slot := .of_eq rfl rfl

theorem Beside.trans (h : slot.Beside slot') (h' : slot'.Beside slot'') : slot.Beside slot'' :=
  ⟨h'.links.trans h.links, Grows.trans h.peer h.silent h'.silent⟩

theorem emits_beside (slot : Slot) {acts : List Act} (h : ∀ act ∈ acts, act.isEvent = false) :
    slot.Beside (slot.emits acts) :=
  ⟨rfl, acts, rfl, h⟩

theorem emit_beside (slot : Slot) {act : Act} (h : act.isEvent = false) :
    slot.Beside (slot.emit act) :=
  emits_beside slot fun a ha => by
    rw [List.mem_singleton.mp ha]
    exact h

theorem adoptSession_beside (slot : Slot) (pkt : Packet) : slot.Beside (slot.adoptSession e pkt) :=
  ⟨rfl, [.adopt pkt.session pkt.seqNum], rfl, by simp [Act.isEvent]⟩

theorem sessionAdopt_beside (slot : Slot) (pkt : Packet) :
    slot.Beside (slot.sessionAdopt e pkt).1 := by
  unfold sessionAdopt
  simp only
  repeat' split
  all_goals first
    | exact adoptSession_beside slot pkt
    | exact .refl slot

theorem pushRecvWindow_beside (slot : Slot) (pkt : Packet) :
    slot.Beside (slot.pushRecvWindow pkt).1 := by
  unfold pushRecvWindow
  split
  · exact ⟨rfl, [.push pkt], rfl, by simp [Act.isEvent]⟩
  · exact .refl slot

theorem skipRecvWindow_beside (slot : Slot) (seq : UInt32) :
    slot.Beside (slot.skipRecvWindow seq) := by
  unfold skipRecvWindow
  split
  · exact ⟨rfl, [.skip seq], rfl, by simp [Act.isEvent]⟩
  · exact .refl slot

theorem reorderGapReady_beside (slot : Slot) (seq : UInt32) :
    slot.Beside (slot.reorderGapReady e seq).1 := by
  unfold reorderGapReady
  simp only
  repeat' split
  all_goals exact .of_eq rfl rfl

theorem send_silent {α : Type} (l : List α) (f : α → Path × Endpoint) (pkt : Packet) :
    ∀ act ∈ l.map fun a => Act.send (f a).1 (f a).2 pkt, act.isEvent = false := by
  intro act hact
  obtain ⟨a, -, rfl⟩ := List.mem_map.mp hact
  rfl

theorem sendToDests_beside (slot : Slot) (pkt : Packet) : slot.Beside (slot.sendToDests e pkt) := by
  unfold sendToDests
  split
  · exact emits_beside slot (send_silent _ (fun i => (i, slot.destAddr i)) pkt)
  · exact emits_beside slot (send_silent _ (fun i => (i, slot.destAddr i)) pkt)

theorem slotSendNack_beside (slot : Slot) (seq : UInt32) :
    slot.Beside (slot.slotSendNack e seq) := by
  unfold slotSendNack
  simp only
  have hnack : slot.Beside (slot.emit (.nack seq slot.recvWindow)) := emit_beside slot rfl
  split
  · exact hnack.trans (sendToDests_beside _ _)
  · exact hnack.trans (emits_beside _ (send_silent _
      (fun i => (i, (slot.emit (.nack seq slot.recvWindow)).nackDest e i)) _))

theorem nackGap_beside (slot : Slot) (seq : UInt32) : slot.Beside (slot.nackGap e seq) := by
  have hready : slot.Beside (slot.slotGapReady e seq).1 := by
    unfold slotGapReady
    split
    · exact .refl slot
    · exact reorderGapReady_beside slot seq
  rw [nackGap_eq]
  split
  · exact hready.trans (slotSendNack_beside _ seq)
  · exact hready

theorem acceptPostDrain_beside (slot : Slot) : slot.Beside (slot.acceptPostDrain e) := by
  unfold acceptPostDrain
  split
  · exact .of_eq rfl rfl
  · split
    · exact .refl slot
    · exact nackGap_beside slot _

theorem scanLoop_beside (pkt : Packet) (fuel : Nat) (slot : Slot) (scanSeq : UInt32) :
    slot.Beside (scanLoop e pkt fuel slot scanSeq).1 := by
  induction fuel generalizing slot scanSeq with
  | zero => exact .refl slot
  | succ fuel ih =>
    rw [scanLoop_succ]
    split
    · split
      · exact ih slot _
      · split
        · exact ((reorderGapReady_beside slot scanSeq).trans (slotSendNack_beside _ scanSeq)).trans
            (ih _ _)
        · exact reorderGapReady_beside slot scanSeq
    · exact .refl slot

theorem finOnPacket_beside (slot : Slot) (pkt : Packet) : slot.Beside (slot.finOnPacket pkt).1 := by
  unfold finOnPacket
  repeat' split
  all_goals exact .of_eq rfl rfl

theorem nackIsDuplicate_beside (slot : Slot) (seq : UInt32) :
    slot.Beside (slot.nackIsDuplicate e seq).1 := by
  unfold nackIsDuplicate
  simp only
  split
  · exact .of_eq rfl rfl
  · exact .of_eq rfl rfl

theorem onNack_beside (slot : Slot) (pkt : Packet) : slot.Beside (slot.onNack e pkt) := by
  unfold onNack
  split
  · exact .refl slot
  · simp only
    have hdup := nackIsDuplicate_beside (e := e) slot pkt.ackNum
    split
    · exact hdup
    · refine hdup.trans ?_
      unfold slotRetransmitOrReject slotSendReject
      split
      · exact sendToDests_beside _ _
      · exact sendToDests_beside _ _

-- Learning an address changes what is sent to it, nothing else.
theorem learnSenderPath_conn (slot : Slot) (path : Path) (sender : Endpoint) :
    (slot.learnSenderPath e path sender).conn = slot.conn := by
  unfold learnSenderPath
  simp only
  split
  · split <;> rfl
  · split <;> rfl

theorem learnSenderPath_log (slot : Slot) (path : Path) (sender : Endpoint) :
    (slot.learnSenderPath e path sender).log = slot.log :=
  congrArg View.log (view_learnSenderPath slot path sender)

theorem callbackEmits_links (slot : Slot) (evs : List Event) :
    (slot.callbackEmits e evs).links = slot.links := by
  unfold callbackEmits
  split <;> rfl

theorem deliverPacket_links (slot : Slot) (pkt : Packet) :
    (deliverPacket e slot pkt).links = slot.links := by
  rcases deliverPacket_cases slot pkt with h | ⟨-, out, frag, h⟩
  · rw [h]
  · rw [h]
    exact callbackEmits_links slot _

theorem drainLoop_links (fuel : Nat) (slot : Slot) :
    (slot.drainLoop e fuel).links = slot.links :=
  drainLoop_induct (P := fun s => s.links = slot.links) fuel
    (fun _ pkt _ h _ => (deliverPacket_links _ pkt).trans h) rfl

end

-- What one change tells the application.
inductive Turn (e : Env) : Slot → Slot → Prop
  | quiet (slot slot' : Slot) (hconn : slot'.conn = slot.conn) (hsilent : slot.Silent slot') :
      Turn e slot slot'
  | deliver (slot slot' : Slot) (out : List Bytes) (hconn : slot'.conn = slot.conn)
      (halive : slot.healthAlive = true)
      (hlog : slot'.log = (slot.callbackEmits e (out.map Event.data)).log) :
      Turn e slot slot'
  | sync (slot : Slot) (states : Path → Bool)
      (hlive : anyPathAlive states = true → slot.peer = none ∨ slot.active = true) :
      Turn e slot (slot.syncPathStateLocked e states)
  | free (slot : Slot) (hpeer : slot.peer.isSome = true)
      (hdead : slot.pathLogicalAlive = fun _ => false) :
      Turn e slot slot.peerFree

abbrev Turns (e : Env) : Slot → Slot → Prop := Relation.ReflTransGen (Turn e)

section

variable {e : Env} {slot slot' slot'' : Slot}

theorem Beside.turns (h : slot.Beside slot') : Turns e slot slot' :=
  .single (.quiet _ _ h.conn h.silent)

theorem turns_of_conn (hconn : slot'.conn = slot.conn) (hlog : slot'.log = slot.log) :
    Turns e slot slot' :=
  .single (.quiet _ _ hconn (.of_log hlog))

theorem Turn.peer_eq (h : Turn e slot slot') : slot'.peer = slot.peer := by
  cases h with
  | quiet _ hconn => exact congrArg Conn.peer hconn
  | deliver _ _ hconn => exact congrArg Conn.peer hconn
  | sync states =>
    unfold syncPathStateLocked callbackEmits
    split <;> rfl
  | free =>
    unfold peerFree
    split <;> rfl

theorem Turns.peer_eq (h : Turns e slot slot') : slot'.peer = slot.peer :=
  Run.star_preserves (P := fun s : Slot => s.peer = slot.peer) (fun _ _ ht hs => ht.peer_eq.trans hs)
    h rfl

theorem Turn.alive_eq (h : Turn e slot slot')
    (halive : slot.healthAlive = anyPathAlive slot.pathLogicalAlive) :
    slot'.healthAlive = anyPathAlive slot'.pathLogicalAlive := by
  cases h with
  | quiet _ hconn =>
    rw [show slot'.healthAlive = slot.healthAlive from congrArg Conn.alive hconn,
      show slot'.pathLogicalAlive = slot.pathLogicalAlive from congrArg Conn.states hconn]
    exact halive
  | deliver _ _ hconn =>
    rw [show slot'.healthAlive = slot.healthAlive from congrArg Conn.alive hconn,
      show slot'.pathLogicalAlive = slot.pathLogicalAlive from congrArg Conn.states hconn]
    exact halive
  | sync states =>
    unfold syncPathStateLocked callbackEmits
    split <;> rfl
  | free =>
    unfold peerFree
    split
    · exact halive
    · exact halive

theorem Turns.alive_eq (h : Turns e slot slot')
    (halive : slot.healthAlive = anyPathAlive slot.pathLogicalAlive) :
    slot'.healthAlive = anyPathAlive slot'.pathLogicalAlive :=
  Run.star_preserves (P := fun s : Slot => s.healthAlive = anyPathAlive s.pathLogicalAlive)
    (fun _ _ ht hs => ht.alive_eq hs) h halive

theorem learnSenderPath_turns (slot : Slot) (path : Path) (sender : Endpoint) :
    Turns e slot (slot.learnSenderPath e path sender) :=
  turns_of_conn (learnSenderPath_conn slot path sender) (learnSenderPath_log slot path sender)

theorem syncPathState_turns (slot : Slot) (hlive : slot.peer = none ∨ slot.active = true) :
    Turns e slot (slot.syncPathState e) :=
  .single (.sync _ _ fun _ => hlive)

theorem anyPathAlive_false : anyPathAlive (fun _ => false) = false := by decide

theorem states_of_any {states : Path → Bool} (h : anyPathAlive states = false) :
    states = fun _ => false := by
  funext k
  have hall := List.any_eq_false.mp h k (List.mem_finRange k)
  simpa using hall

theorem disconnectAllPaths_turns (slot : Slot) : Turns e slot (slot.disconnectAllPaths e) :=
  .single (.sync _ _ fun h => by
    rw [anyPathAlive_false] at h
    cases h)

@[simp] theorem disconnectAllPaths_states (slot : Slot) :
    (slot.disconnectAllPaths e).pathLogicalAlive = fun _ => false := by
  unfold disconnectAllPaths syncPathStateLocked callbackEmits
  split <;> rfl

theorem peerFree_turns (slot : Slot) (hpeer : slot.peer.isSome = true)
    (hdead : slot.pathLogicalAlive = fun _ => false) : Turns e slot slot.peerFree :=
  .single (.free _ hpeer hdead)

-- Which slots may report a connection: that of a 1:1 service and those of peers in use. Only N:1
-- services have peers.
structure Live (e : Env) (slot : Slot) : Prop where
  kind : slot.peer ≠ none → e.type = .unicastBidirN1
  active : slot.peer = none ∨ slot.active = true

theorem Live.of_conn (h : Live e slot) (hconn : slot'.conn = slot.conn) : Live e slot' := by
  have hpeer : slot'.peer = slot.peer := congrArg Conn.peer hconn
  have hactive : slot'.active = slot.active := congrArg Conn.active hconn
  exact ⟨hpeer ▸ h.kind, by rw [hpeer, hactive]; exact h.active⟩

theorem servicePathLoops_conn (nowTs : Timespec) (acc : Slot × Bool) (l : List Path) :
    (l.foldl (servicePathLoop e nowTs) acc).1.conn = acc.1.conn ∧
      (l.foldl (servicePathLoop e nowTs) acc).1.log = acc.1.log :=
  Run.foldl_preserves
    (P := fun acc' : Slot × Bool => acc'.1.conn = acc.1.conn ∧ acc'.1.log = acc.1.log)
    (fun acc' i h => by
      unfold servicePathLoop
      split
      · exact h
      · exact h) ⟨rfl, rfl⟩ l

theorem peerPathLoops_conn (nowTs : Timespec) (acc : Slot × Bool) (l : List Path) :
    (l.foldl (peerPathLoop e nowTs) acc).1.conn = acc.1.conn ∧
      (l.foldl (peerPathLoop e nowTs) acc).1.log = acc.1.log :=
  Run.foldl_preserves
    (P := fun acc' : Slot × Bool => acc'.1.conn = acc.1.conn ∧ acc'.1.log = acc.1.log)
    (fun acc' i h => by
      unfold peerPathLoop
      split
      · exact h
      · exact h) ⟨rfl, rfl⟩ l

theorem healthCheckPeer_turns (nowTs : Timespec) (slot : Slot) (hpeer : slot.peer.isSome = true) :
    Turns e slot (slot.healthCheckPeer e nowTs) := by
  rcases healthCheckPeer_cases nowTs slot with heq | ⟨hactive, -, heq⟩
  · rw [heq]
  obtain ⟨hconn, hlog⟩ : (slot.peerLooped e nowTs).1.conn = slot.conn ∧
      (slot.peerLooped e nowTs).1.log = slot.log := peerPathLoops_conn nowTs (slot, false) paths
  have hlive : (slot.peerLooped e nowTs).1.active = true := (congrArg Conn.active hconn).trans hactive
  have hlooped : Turns e slot (slot.peerLooped e nowTs).1 := turns_of_conn hconn hlog
  have hsync : Turns e slot (slot.peerSynced e nowTs) := by
    unfold peerSynced syncLooped
    split
    · exact hlooped.trans (syncPathState_turns _ (.inr hlive))
    · exact hlooped
  rcases heq with heq | heq
  · rwa [heq]
  · rw [heq]
    generalize slot.peerSynced e nowTs = synced at hsync
    have hcut : Turns e synced
        { synced with remotePathPingState := fun _ => PING_STATE_UNDEFINED } := turns_of_conn rfl rfl
    have hdead := (hsync.trans hcut).trans (disconnectAllPaths_turns _)
    refine hdead.trans (peerFree_turns _ ?_ (disconnectAllPaths_states _))
    exact (congrArg Option.isSome (Turns.peer_eq hdead)).trans hpeer

theorem senderHandlePacket_turns (slot : Slot) (pkt : Packet) :
    Turns e slot (slot.senderHandlePacket e pkt).1 := by
  unfold senderHandlePacket
  split
  · exact .refl
  · exact (onNack_beside slot pkt).turns

end

end Slot

end Porter
