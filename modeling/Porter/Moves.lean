import Porter.Lib.Run
import Porter.Reassembly
import Porter.Recv.Dispatch
import Porter.Window.Lemmas

namespace Porter

-- The part of a slot that decides which numbers are consumed and what is delivered.
structure View where
  peer : Option UInt32
  active : Bool
  own : PacketSessionHdr
  sendWindow : Window
  known : Bool
  session : SessionHdr
  win : Window
  alive : Bool
  pending : Bool
  nackNum : UInt32
  pendingFin : Bool
  finTarget : UInt32
  frag : Reassembly
  log : List (UInt32 × Act)

namespace Slot

def view (e : Env) (slot : Slot) : View where
  peer := slot.peer
  active := slot.active
  own := slot.ownSessionHdr e
  sendWindow := slot.sendWindow
  known := slot.peerSessionKnown
  session := ⟨slot.peerSessionId, slot.peerSessionTs⟩
  win := slot.recvWindow
  alive := slot.healthAlive
  pending := slot.reorderPending
  nackNum := slot.reorderNackNum
  pendingFin := slot.pendingFin
  finTarget := slot.finTargetSeq
  frag := slot.reassembly
  log := slot.log

end Slot

namespace Event

-- Events that say nothing about the session as a whole.
def isPath : Event → Bool
  | pathConnected .. | pathDisconnected .. => true
  | _ => false

-- The session event that goes with a change of health_alive.
def ofAlive (old new : Bool) : List Event :=
  if old = new then [] else if new then [connected] else [disconnected]

end Event

-- Entries that neither start a round nor pop a packet nor forget the session.
def Act.isPlain : Act → Bool
  | .recv _ | .poll | .pop .. | .forget => false
  | _ => true

-- Nothing has been popped or forgotten since the round at the end of the log began.
def undrained (log : List (UInt32 × Act)) : Bool :=
  log.foldl (fun b x =>
    match x.2 with
    | .recv _ | .poll => true
    | .pop .. | .forget => false
    | _ => b) false

theorem undrained_append {log log' : List (UInt32 × Act)}
    (h : ∀ x ∈ log', x.2.isPlain = true) : undrained (log ++ log') = undrained log := by
  induction log' generalizing log with
  | nil => simp
  | cons x rest ih =>
    rw [List.append_cons, ih fun y hy => h y (List.mem_cons_of_mem x hy)]
    have hx := h x List.mem_cons_self
    unfold undrained
    rw [List.foldl_append, List.foldl_cons, List.foldl_nil]
    obtain ⟨p, act⟩ := x
    cases act with
    | recv => exact absurd hx Bool.noConfusion
    | poll => exact absurd hx Bool.noConfusion
    | pop => exact absurd hx Bool.noConfusion
    | forget => exact absurd hx Bool.noConfusion
    | _ => rfl

theorem undrained_note (log : List (UInt32 × Act)) (p : UInt32) {act : Act}
    (h : (∃ pkt, act = .recv pkt) ∨ act = .poll) : undrained (log ++ [(p, act)]) = true := by
  unfold undrained
  rw [List.foldl_append]
  rcases h with ⟨pkt, rfl⟩ | rfl <;> rfl

namespace View

def Early (v : View) : Prop := undrained v.log = true

def peerId (v : View) : UInt32 := v.peer.getD PEER_NA

def emits (v : View) (acts : List Act) : View :=
  { v with log := v.log ++ acts.map fun act => (v.peerId, act) }

def emit (v : View) (act : Act) : View := v.emits [act]

def callbackEmits (e : Env) (v : View) (evs : List Event) : View :=
  if e.callback then v.emits (evs.map Act.event) else v

-- A packet of a session that comes after the tracked one.
def newer (e : Env) (v : View) (pkt : Packet) : Prop :=
  0 < e.plat.timespecCmp pkt.sessionTs v.session.ts ∨
    e.plat.timespecCmp pkt.sessionTs v.session.ts = 0 ∧ v.session.id < pkt.sessionId

-- The numbers a receiver may ask for while it handles `cur`: the head of a window that holds a
-- later packet, or a number between the head and a PING that is not held.
def Gap (win : Window) (cur : Option Packet) (seq : UInt32) : Prop :=
  win.recvNeedsNack = some seq ∨
    ∃ pkt, cur = some pkt ∧ pkt.has FLAG_PING = true ∧
      seqnumInWindow seq win.baseSeq win.windowSize = true ∧ win.recvHasPacket seq = false ∧
      Serial.dist seq win.nextSeq < Serial.dist pkt.seqNum win.nextSeq

-- When the reorder timer may be left running: never for a peer and never without a timeout.
def Armed (e : Env) (v : View) (win : Window) (cur : Option Packet) (pending : Bool)
    (nackNum : UInt32) : Prop :=
  pending = true → v.peer = none ∧ 0 < e.reorderTimeoutMs ∧ Gap win cur nackNum

-- The packets whose handling ends in the drain loop.
def Drains (cur : Option Packet) : Prop :=
  ∃ pkt, cur = some pkt ∧
    (pkt.has FLAG_REJECT = true ∨ pkt.has FLAG_DATA = true ∧ pkt.has FLAG_PING = false)

-- When a FIN with this target may end the session while `cur` is handled: it has waited and its
-- target is reached, or it is the packet at hand. A peer is found by the session of the packet.
def Closes (cur : Option Packet) (v : View) (target : UInt32) : Prop :=
  ∀ pkt, cur = some pkt →
    v.pendingFin = true ∧ v.finTarget = target ∧ v.win.nextSeq = target ∨
    pkt.has FLAG_FIN = true ∧ pkt.ackNum = target ∧
      (pkt.has FLAG_FIN_TARGET_VALID = true → v.win.nextSeq = target) ∧
      (v.peer = none → v.known = true ∧ v.session = pkt.session)

def adopted (e : Env) (v : View) (pkt : Packet) : View :=
  emit { v with
    known := true, session := pkt.session, win := Window.init pkt.seqNum e.windowSize
    pending := false, pendingFin := false, finTarget := 0 } (.adopt pkt.session pkt.seqNum)

def synced (e : Env) (v : View) (alive : Bool) (evs : List Event) : View :=
  callbackEmits e { v with alive := alive } (evs ++ Event.ofAlive v.alive alive)

def popped (e : Env) (v : View) (pkt : Packet) (win : Window) : View :=
  let popped := emit { v with win := win } (.pop pkt v.alive)
  if v.alive && !pkt.has FLAG_PING then
    let (frag, out) := v.frag.feedAll e (Packet.unpackAll pkt.payload)
    { popped.callbackEmits e (out.map Event.data) with frag := frag }
  else popped

def forgotten (e : Env) (v : View) : View :=
  emit { v with known := false, win := Window.init 0 e.windowSize } .forget

def nacked (v : View) (seq : UInt32) (dests : List (Path × Endpoint)) : View :=
  v.emits (.nack seq v.win ::
    dests.map fun d => .send d.1 d.2 (Packet.buildNack v.own seq))

def answer (v : View) (seq : UInt32) : Packet :=
  (v.sendWindow.sendGet seq).getD (Packet.buildReject v.own seq)

-- The elementary changes a receiver makes while it handles `cur` (`none` at a poll timeout),
-- each with what the code has established when it makes it.
inductive Move (e : Env) (cur : Option Packet) : View → View → Prop
  | sync (v : View) (alive : Bool) (evs : List Event) (hevs : ∀ ev ∈ evs, ev.isPath = true)
      (hlive : alive = true → v.peer = none ∨ v.active = true) :
      Move e cur v (v.synced e alive evs)
  | adopt (v : View) (pkt : Packet) (hcur : cur = some pkt) (hearly : v.Early)
      (hnew : v.known = false ∨ v.newer e pkt) :
      Move e cur v (v.adopted e pkt)
  -- The gap check right after a push leaves the timer off or armed for a real gap.
  | push (v : View) (pkt : Packet) (win : Window) (pending : Bool) (nackNum : UInt32)
      (hcur : cur = some pkt) (hearly : v.Early) (hdata : pkt.has FLAG_DATA = true)
      (hping : pkt.has FLAG_PING = false) (hknown : v.known = true)
      (hsession : v.session = pkt.session) (hpush : v.win.recvPush pkt = some win)
      (htimer : Armed e v win cur pending nackNum) :
      Move e cur v (emit { v with win := win, pending := pending, nackNum := nackNum } (.push pkt))
  | timer (v : View) (pending : Bool) (nackNum : UInt32)
      (htimer : Armed e v v.win cur pending nackNum) :
      Move e cur v { v with pending := pending, nackNum := nackNum }
  | nack (v : View) (seq : UInt32) (dests : List (Path × Endpoint)) (hgap : Gap v.win cur seq) :
      Move e cur v (v.nacked seq dests)
  -- The reorder timer asks for the number it was armed for, without another look.
  | expire (v : View) (dests : List (Path × Endpoint)) (hpending : v.pending = true) :
      Move e cur v (nacked { v with pending := false } v.nackNum dests)
  | pop (v : View) (pkt : Packet) (win : Window) (hcur : Drains cur)
      (hpop : v.win.recvPop = some (pkt, win))
      (hpending : e.type.isRawType = false → v.pending = false)
      (hused : v.peer = none ∨ v.active = true) :
      Move e cur v (v.popped e pkt win)
  | skip (v : View) (pkt : Packet) (hcur : cur = some pkt) (hreject : pkt.has FLAG_REJECT = true)
      (hraw : e.type.isRawType = false) (hknown : v.known = true)
      (hsession : v.session = pkt.session) (hnext : v.win.nextSeq = pkt.ackNum)
      (hdead : v.alive = false) (hpending : v.pending = false)
      (hused : v.peer = none ∨ v.active = true) :
      Move e cur v (emit { v with win := v.win.dropNext } (.skip pkt.ackNum))
  -- RAW receivers jump to the number of the packet at hand and drop its fragments.
  | reset (v : View) (pkt : Packet) (hcur : cur = some pkt) (hearly : v.Early)
      (hraw : e.type.isRawType = true) (hdead : v.alive = false) :
      Move e cur v (emit
        { v with win := v.win.recvReset pkt.seqNum, frag := Reassembly.empty } (.reset pkt.seqNum))
  -- Only RAW receivers drop their fragments when they forget a session.
  | forget (v : View) (frag : Reassembly) (hfrag : e.type.isRawType = false → frag = v.frag)
      (hpeer : v.peer = none) (hdead : v.alive = false) (hpending : v.pending = false)
      (hfin : ∃ target, Closes cur v target) :
      Move e cur v (forgotten e { v with frag := frag, pendingFin := false, finTarget := 0 })
  | finPending (v : View) (target : UInt32) (hnext : v.win.nextSeq ≠ target) (pkt : Packet)
      (hcur : cur = some pkt) (hfin : pkt.has FLAG_FIN = true)
      (hvalid : pkt.has FLAG_FIN_TARGET_VALID = true) (htarget : target = pkt.ackNum)
      (hsession : v.peer = none → v.known = true ∧ v.session = pkt.session) :
      Move e cur v { v with pendingFin := true, finTarget := target }
  | finClear (v : View) : Move e cur v { v with pendingFin := false, finTarget := 0 }
  | free (v : View) (hpeer : v.peer.isSome = true) (hdead : v.alive = false)
      (hfin : ∃ target, Closes cur v target) :
      Move e cur v { v with active := false }
  | answer (v : View) (pkt : Packet) (dests : List (Path × Endpoint)) (hcur : cur = some pkt)
      (hnack : pkt.has FLAG_NACK = true) :
      Move e cur v (v.emits (dests.map fun d => .send d.1 d.2 (v.answer pkt.ackNum)))
  | finAck (v : View) (target : UInt32) (hfin : Closes cur v target) :
      Move e cur v (v.emit (.sendTcp (Packet.buildFinAck v.own target)))

structure Inv (e : Env) (v : View) : Prop where
  kind : v.peer ≠ none → e.type = .unicastBidirN1
  wf : v.win.RecvWF
  size : v.win.windowSize = e.windowSize
  timer : v.peer ≠ none ∨ e.reorderTimeoutMs = 0 → v.pending = false

abbrev Moves (e : Env) (cur : Option Packet) : View → View → Prop :=
  Relation.ReflTransGen (Move e cur)

section

variable {e : Env} {cur : Option Packet} {v v' : View}

theorem Early.emits (h : v.Early) {acts : List Act} (hplain : ∀ act ∈ acts, act.isPlain = true) :
    (v.emits acts).Early := by
  refine (undrained_append fun x hx => ?_).trans h
  obtain ⟨act, hact, rfl⟩ := List.mem_map.mp hx
  exact hplain act hact

theorem Early.emit (h : v.Early) {act : Act} (hplain : act.isPlain = true) : (v.emit act).Early :=
  h.emits fun a ha => by
    rw [List.mem_singleton.mp ha]
    exact hplain

theorem Early.callbackEmits (h : v.Early) (evs : List Event) : (v.callbackEmits e evs).Early := by
  unfold View.callbackEmits
  split
  · refine h.emits fun act hact => ?_
    obtain ⟨ev, -, rfl⟩ := List.mem_map.mp hact
    rfl
  · exact h

theorem Early.synced (h : v.Early) (alive : Bool) (evs : List Event) :
    (v.synced e alive evs).Early :=
  Early.callbackEmits (v := { v with alive := alive }) h _

@[simp] theorem emits_nil (v : View) : v.emits [] = v := by simp [emits]

@[simp] theorem emit_peer (act : Act) : (v.emit act).peer = v.peer := rfl

theorem callbackEmits_eq (evs : List Event) :
    v.callbackEmits e evs = { v with log := (v.callbackEmits e evs).log } := by
  unfold callbackEmits
  split <;> rfl

theorem synced_eq (alive : Bool) (evs : List Event) :
    v.synced e alive evs = { v with alive := alive, log := (v.synced e alive evs).log } :=
  callbackEmits_eq (v := { v with alive := alive }) _

theorem popped_eq (pkt : Packet) (win : Window) :
    v.popped e pkt win =
      { v with win := win, frag := (v.popped e pkt win).frag, log := (v.popped e pkt win).log } := by
  unfold popped
  dsimp only
  split
  · rw [callbackEmits_eq]
    rfl
  · rfl

@[simp] theorem synced_win (alive : Bool) (evs : List Event) :
    (v.synced e alive evs).win = v.win := by rw [synced_eq]

@[simp] theorem synced_peer (alive : Bool) (evs : List Event) :
    (v.synced e alive evs).peer = v.peer := by rw [synced_eq]

@[simp] theorem synced_pending (alive : Bool) (evs : List Event) :
    (v.synced e alive evs).pending = v.pending := by rw [synced_eq]

@[simp] theorem synced_alive (alive : Bool) (evs : List Event) :
    (v.synced e alive evs).alive = alive := by rw [synced_eq]

@[simp] theorem synced_known (alive : Bool) (evs : List Event) :
    (v.synced e alive evs).known = v.known := by rw [synced_eq]

@[simp] theorem synced_session (alive : Bool) (evs : List Event) :
    (v.synced e alive evs).session = v.session := by rw [synced_eq]

@[simp] theorem popped_win (pkt : Packet) (win : Window) : (v.popped e pkt win).win = win := by
  rw [popped_eq]

@[simp] theorem popped_peer (pkt : Packet) (win : Window) :
    (v.popped e pkt win).peer = v.peer := by rw [popped_eq]

@[simp] theorem popped_pending (pkt : Packet) (win : Window) :
    (v.popped e pkt win).pending = v.pending := by rw [popped_eq]

@[simp] theorem popped_known (pkt : Packet) (win : Window) :
    (v.popped e pkt win).known = v.known := by rw [popped_eq]

@[simp] theorem popped_session (pkt : Packet) (win : Window) :
    (v.popped e pkt win).session = v.session := by rw [popped_eq]

@[simp] theorem popped_alive (pkt : Packet) (win : Window) :
    (v.popped e pkt win).alive = v.alive := by rw [popped_eq]

@[simp] theorem popped_nackNum (pkt : Packet) (win : Window) :
    (v.popped e pkt win).nackNum = v.nackNum := by rw [popped_eq]

@[simp] theorem synced_frag (alive : Bool) (evs : List Event) :
    (v.synced e alive evs).frag = v.frag := by rw [synced_eq]

@[simp] theorem popped_active (pkt : Packet) (win : Window) :
    (v.popped e pkt win).active = v.active := by rw [popped_eq]

@[simp] theorem synced_pendingFin (alive : Bool) (evs : List Event) :
    (v.synced e alive evs).pendingFin = v.pendingFin := by rw [synced_eq]

@[simp] theorem synced_finTarget (alive : Bool) (evs : List Event) :
    (v.synced e alive evs).finTarget = v.finTarget := by rw [synced_eq]

@[simp] theorem synced_active (alive : Bool) (evs : List Event) :
    (v.synced e alive evs).active = v.active := by rw [synced_eq]

-- What a FIN waits for, with the tracking of its session.
def core (v : View) : Bool × Window × Bool × UInt32 := (v.known, v.win, v.pendingFin, v.finTarget)

theorem synced_core (alive : Bool) (evs : List Event) : (v.synced e alive evs).core = v.core := by
  rw [synced_eq]
  rfl

theorem closes_timeout (v : View) : ∃ target, v.Closes none target := ⟨0, nofun⟩

theorem Closes.synced {target : UInt32} (h : v.Closes cur target) (alive : Bool)
    (evs : List Event) : (v.synced e alive evs).Closes cur target := by
  intro pkt hcur
  rw [synced_pendingFin, synced_finTarget, synced_win, synced_peer, synced_known, synced_session]
  exact h pkt hcur

@[simp] theorem popped_pendingFin (pkt : Packet) (win : Window) :
    (v.popped e pkt win).pendingFin = v.pendingFin := by rw [popped_eq]

@[simp] theorem popped_finTarget (pkt : Packet) (win : Window) :
    (v.popped e pkt win).finTarget = v.finTarget := by rw [popped_eq]

theorem popped_log (pkt : Packet) (win : Window) :
    ∃ out : List Bytes, (v.popped e pkt win).log =
      ((v.emit (.pop pkt v.alive)).emits (out.map fun data => .event (.data data))).log := by
  unfold popped
  simp only
  split
  · unfold callbackEmits
    split
    · refine ⟨(v.frag.feedAll e (Packet.unpackAll pkt.payload)).2, ?_⟩
      simp only [emits, emit, peerId, List.map_map]
      rfl
    · exact ⟨[], by simp [emits, emit, peerId]⟩
  · exact ⟨[], by simp [emits, emit, peerId]⟩

theorem undrained_popped (pkt : Packet) (win : Window) : ¬ (v.popped e pkt win).Early := by
  obtain ⟨out, hlog⟩ := popped_log pkt win
  unfold Early
  rw [hlog, View.emits, undrained_append]
  · simp [undrained, View.emit, View.emits]
  · intro x hx
    obtain ⟨act, hact, rfl⟩ := List.mem_map.mp hx
    obtain ⟨data, -, rfl⟩ := List.mem_map.mp hact
    rfl

private theorem quiet_of_armed {win : Window} {pending : Bool} {nackNum : UInt32}
    (h : Armed e v win cur pending nackNum) :
    v.peer ≠ none ∨ e.reorderTimeoutMs = 0 → pending = false := by
  intro hq
  by_contra hp
  obtain ⟨hpeer, hpos, -⟩ := h (by simpa using hp)
  rcases hq with hq | hq
  · exact hq hpeer
  · omega

theorem Inv.popped {pkt : Packet} {win : Window} (hinv : Inv e v)
    (hpop : v.win.recvPop = some (pkt, win)) : Inv e (v.popped e pkt win) := by
  obtain ⟨-, rfl⟩ := (Window.recvPop_eq_some hinv.wf).mp hpop
  refine ⟨?_, ?_, ?_, ?_⟩
  · simpa using hinv.kind
  · simpa using Window.dropNext_wf hinv.wf
  · simpa using hinv.size
  · simpa using hinv.timer

theorem Move.inv (h : Move e cur v v') (hinv : Inv e v) : Inv e v' := by
  have hinit : ∀ seq, (Window.init seq e.windowSize).RecvWF := fun seq =>
    Window.init_wf e.windowSize_pos e.windowSize_le
  cases h with
  | sync =>
    exact ⟨by simpa using hinv.kind, by simpa using hinv.wf, by simpa using hinv.size,
      by simpa using hinv.timer⟩
  | adopt pkt => exact ⟨hinv.kind, hinit _, rfl, fun _ => rfl⟩
  | push pkt win pending nackNum _ _ _ _ _ _ hpush htimer =>
    refine ⟨hinv.kind, Window.recvPush_wf hinv.wf hpush, ?_, quiet_of_armed htimer⟩
    exact (Window.recvPush_windowSize hpush).trans hinv.size
  | timer pending nackNum htimer => exact ⟨hinv.kind, hinv.wf, hinv.size, quiet_of_armed htimer⟩
  | nack => exact ⟨hinv.kind, hinv.wf, hinv.size, hinv.timer⟩
  | expire => exact ⟨hinv.kind, hinv.wf, hinv.size, fun _ => rfl⟩
  | pop pkt win _ hpop => exact hinv.popped hpop
  | skip => exact ⟨hinv.kind, Window.dropNext_wf hinv.wf, hinv.size, hinv.timer⟩
  | reset pkt =>
    refine ⟨hinv.kind, ?_, hinv.size, hinv.timer⟩
    exact Window.init_wf hinv.wf.size_pos hinv.wf.size_le
  | forget _ _ _ _ hpending => exact ⟨hinv.kind, hinit _, rfl, fun _ => hpending⟩
  | finPending => exact ⟨hinv.kind, hinv.wf, hinv.size, hinv.timer⟩
  | finClear => exact ⟨hinv.kind, hinv.wf, hinv.size, hinv.timer⟩
  | free => exact ⟨hinv.kind, hinv.wf, hinv.size, hinv.timer⟩
  | answer => exact ⟨hinv.kind, hinv.wf, hinv.size, hinv.timer⟩
  | finAck => exact ⟨hinv.kind, hinv.wf, hinv.size, hinv.timer⟩

theorem plain_sends (dests : List (Path × Endpoint)) (pkt : Packet) :
    ∀ act ∈ dests.map fun d => Act.send d.1 d.2 pkt, act.isPlain = true := by
  intro act hact
  obtain ⟨d, -, rfl⟩ := List.mem_map.mp hact
  rfl

theorem plain_nack (seq : UInt32) (win : Window) (own : PacketSessionHdr)
    (dests : List (Path × Endpoint)) :
    ∀ act ∈ Act.nack seq win :: dests.map (fun d => .send d.1 d.2 (Packet.buildNack own seq)),
      act.isPlain = true := by
  intro act hact
  rcases List.mem_cons.mp hact with rfl | hact
  · rfl
  · exact plain_sends dests _ act hact

-- What a move logs: a pop with the messages it completes, a forgotten session, or plain entries.
theorem Move.log_eq (h : Move e cur v v') :
    (∃ acts, v'.log = (v.emits acts).log ∧ ∀ act ∈ acts, act.isPlain = true) ∨
    (∃ pkt win, v.win.recvPop = some (pkt, win) ∧ v' = v.popped e pkt win) ∨
    ∃ frag, v' = forgotten e { v with frag := frag, pendingFin := false, finTarget := 0 } := by
  cases h with
  | pop pkt win _ hpop => exact .inr (.inl ⟨pkt, win, hpop, rfl⟩)
  | sync alive evs =>
    unfold synced callbackEmits
    split
    · refine .inl ⟨_, rfl, fun act hact => ?_⟩
      obtain ⟨ev, -, rfl⟩ := List.mem_map.mp hact
      rfl
    · exact .inl ⟨[], by rw [emits_nil], by simp⟩
  | adopt pkt => exact .inl ⟨[.adopt pkt.session pkt.seqNum], rfl, by simp [Act.isPlain]⟩
  | push pkt => exact .inl ⟨[.push pkt], rfl, by simp [Act.isPlain]⟩
  | nack seq dests => exact .inl ⟨_, rfl, plain_nack seq v.win v.own dests⟩
  | expire dests => exact .inl ⟨_, rfl, plain_nack v.nackNum v.win v.own dests⟩
  | skip pkt => exact .inl ⟨[.skip pkt.ackNum], rfl, by simp [Act.isPlain]⟩
  | reset pkt => exact .inl ⟨[.reset pkt.seqNum], rfl, by simp [Act.isPlain]⟩
  | forget frag => exact .inr (.inr ⟨frag, rfl⟩)
  | answer pkt dests => exact .inl ⟨_, rfl, plain_sends dests _⟩
  | finAck target => exact .inl ⟨[.sendTcp (Packet.buildFinAck v.own target)], rfl,
      by simp [Act.isPlain]⟩
  | _ => exact .inl ⟨[], by rw [emits_nil], by simp⟩

theorem Move.peer_eq (h : Move e cur v v') : v'.peer = v.peer := by
  cases h <;> first | rfl | simp

theorem Moves.peer_eq (h : Moves e cur v v') : v'.peer = v.peer :=
  Run.star_preserves (P := fun w : View => w.peer = v.peer) (fun _ _ hm hw => hm.peer_eq.trans hw)
    h rfl

theorem Move.sending (h : Move e cur v v') : v'.own = v.own ∧ v'.sendWindow = v.sendWindow := by
  cases h with
  | sync =>
    unfold View.synced View.callbackEmits
    split <;> exact ⟨rfl, rfl⟩
  | pop =>
    unfold View.popped View.callbackEmits
    simp only
    split
    · split <;> exact ⟨rfl, rfl⟩
    · exact ⟨rfl, rfl⟩
  | _ => exact ⟨rfl, rfl⟩

theorem Moves.sending (h : Moves e cur v v') : v'.own = v.own ∧ v'.sendWindow = v.sendWindow :=
  Run.star_preserves (P := fun w : View => w.own = v.own ∧ w.sendWindow = v.sendWindow)
    (fun _ _ hm hw => ⟨hm.sending.1.trans hw.1, hm.sending.2.trans hw.2⟩) h ⟨rfl, rfl⟩

-- What was sent before and waits for its retransmission is no NACK.
def Answers (v : View) : Prop := ∀ seq, (v.answer seq).has FLAG_NACK = false

theorem Answers.moves (h : v.Answers) (hm : Moves e cur v v') : v'.Answers := by
  intro seq
  unfold answer
  rw [(Moves.sending hm).1, (Moves.sending hm).2]
  exact h seq

theorem answers_init (h : v.sendWindow = Window.init 0 e.windowSize) : v.Answers := by
  intro seq
  unfold answer
  rw [h, Window.sendGet, Window.init]
  simp only [ite_self, Option.getD_none, Packet.has, Packet.buildReject]
  decide

theorem Moves.log_emits (h : Moves e cur v v') : ∃ acts, v'.log = (v.emits acts).log := by
  refine (Run.star_preserves (P := fun w : View => w.peer = v.peer ∧
    ∃ acts, w.log = (v.emits acts).log) (fun w w' hm hw => ?_) h ⟨rfl, [], by rw [emits_nil]⟩).2
  obtain ⟨hpeer, acts, hacts⟩ := hw
  have hid : w.peerId = v.peerId := congrArg (Option.getD · PEER_NA) hpeer
  have hmore : ∀ more : List Act, (w.emits more).log = (v.emits (acts ++ more)).log := fun more => by
    simp [emits, hacts, hid]
  refine ⟨hm.peer_eq.trans hpeer, ?_⟩
  rcases hm.log_eq with ⟨more, hlog, -⟩ | ⟨pkt, win, -, rfl⟩ | ⟨frag, rfl⟩
  · exact ⟨acts ++ more, hlog.trans (hmore more)⟩
  · obtain ⟨out, hout⟩ := popped_log (v := w) pkt win
    refine ⟨acts ++ (.pop pkt w.alive :: out.map fun data => .event (.data data)), ?_⟩
    rw [hout, ← hmore]
    simp [emit, emits, peerId]
  · exact ⟨acts ++ [Act.forget], hmore [Act.forget]⟩

theorem Moves.log_extends (h : Moves e cur v v') : ∃ rest, v'.log = v.log ++ rest := by
  obtain ⟨acts, hacts⟩ := h.log_emits
  exact ⟨_, hacts⟩

theorem forgotten_late (v : View) : ¬ (v.forgotten e).Early := by
  simp [Early, undrained, forgotten, emit, emits]

theorem Move.late (h : Move e cur v v') (hlate : ¬ v.Early) : ¬ v'.Early := by
  rcases h.log_eq with ⟨acts, hlog, hplain⟩ | ⟨pkt, win, -, rfl⟩ | ⟨frag, rfl⟩
  · unfold Early
    rw [hlog]
    refine fun hearly => hlate ((undrained_append fun x hx => ?_).symm.trans hearly)
    obtain ⟨act, hact, rfl⟩ := List.mem_map.mp hx
    exact hplain act hact
  · exact undrained_popped pkt win
  · exact forgotten_late _

theorem Moves.inv (h : Moves e cur v v') (hinv : Inv e v) : Inv e v' :=
  Run.star_preserves (P := Inv e) (fun _ _ hm hi => hm.inv hi) h hinv

end

end View

end Porter
