import Porter.Moves.Run

namespace Porter

open View

namespace View

section

variable {e : Env} {cur : Option Packet} {v v' : View}

theorem newer_ne_session (hlex : e.plat.CmpLex) {pkt : Packet} (h : v.newer e pkt) :
    v.session ≠ pkt.session := by
  intro heq
  have hts : v.session.ts = pkt.sessionTs := congrArg SessionHdr.ts heq
  have hid : v.session.id = pkt.sessionId := congrArg SessionHdr.id heq
  have hzero : e.plat.timespecCmp pkt.sessionTs v.session.ts = 0 := by
    rw [hlex.eq_zero, hts]
  rcases h with h | ⟨-, h⟩
  · omega
  · rw [hid] at h
    exact absurd h (by simp)

theorem Move.session_eq (hlex : e.plat.CmpLex) (h : Move e cur v v') (hpeer : v.peer ≠ none)
    (hknown : v.known = true) (hcur : ∀ pkt, cur = some pkt → v.session = pkt.session) :
    v'.known = true ∧ v'.session = v.session := by
  cases h with
  | adopt pkt hpkt _ hnew =>
    rcases hnew with hnew | hnew
    · simp [hknown] at hnew
    · exact absurd (hcur pkt hpkt) (newer_ne_session hlex hnew)
  | forget _ _ hnone => exact absurd hnone hpeer
  | sync => simp [hknown]
  | pop => simp [hknown]
  | _ => exact ⟨hknown, rfl⟩

theorem Moves.session_eq (hlex : e.plat.CmpLex) (h : Moves e cur v v') (hpeer : v.peer ≠ none)
    (hknown : v.known = true) (hcur : ∀ pkt, cur = some pkt → v.session = pkt.session) :
    v'.known = true ∧ v'.session = v.session :=
  (Run.star_preserves
    (P := fun w : View => w.peer = v.peer ∧ w.known = true ∧ w.session = v.session)
    (fun w w' hm hw => by
      obtain ⟨hp, hk, hs⟩ := hw
      obtain ⟨hk', hs'⟩ := hm.session_eq hlex (hp ▸ hpeer) hk (fun pkt hpkt => hs ▸ hcur pkt hpkt)
      exact ⟨hm.peer_eq.trans hp, hk', hs'.trans hs⟩)
    h ⟨rfl, hknown, rfl⟩).2

-- A peer that was released is not connected.
def Live (v : View) : Prop := v.active = true ∨ v.alive = false

theorem Move.live (h : Move e cur v v') (hpeer : v.peer ≠ none) (hlive : v.Live) : v'.Live := by
  cases h with
  | sync alive evs hevs hactive =>
    cases alive with
    | false => exact .inr (synced_alive false evs)
    | true =>
      refine .inl ?_
      rcases hactive rfl with hnone | hactive
      · exact absurd hnone hpeer
      · unfold synced callbackEmits
        split <;> exact hactive
  | pop pkt win =>
    unfold Live
    rw [popped_alive, popped_active]
    exact hlive
  | free _ hdead => exact .inr hdead
  | _ => exact hlive

theorem Moves.live (h : Moves e cur v v') (hpeer : v.peer ≠ none) (hlive : v.Live) : v'.Live :=
  (Run.star_preserves (P := fun w : View => w.peer = v.peer ∧ w.Live)
    (fun _ _ hm hw => ⟨hm.peer_eq.trans hw.1, hm.live (hw.1 ▸ hpeer) hw.2⟩) h ⟨rfl, hlive⟩).2

end

end View

namespace Ctx

-- A slot right after potr_internal_peer_create.
structure Fresh (e : Env) (peerId : UInt32) (slot : Slot) : Prop where
  peer : slot.peer = some peerId
  active : slot.active = true
  known : slot.peerSessionKnown = false
  win : slot.recvWindow = Window.init 0 e.windowSize
  alive : slot.healthAlive = false
  pending : slot.reorderPending = false
  fin : slot.pendingFin = false
  frag : slot.reassembly = Reassembly.empty
  sent : slot.sendWindow = Window.init 0 e.windowSize

def session (ctx : Ctx) (i : Nat) : SessionHdr :=
  ⟨(ctx.peers i).peerSessionId, (ctx.peers i).peerSessionTs⟩

-- What one round does to the peer table: to the slot of a peer that is there, to the slot of
-- a new peer, or to nothing a peer in use can see.
inductive Change (e : Env) : Ctx → Ctx → Prop
  | idle (ctx ctx' : Ctx) (hlog : ctx'.log = ctx.log)
      (hpeers : ∀ i, ctx'.peers i = ctx.peers i ∨
        (ctx.peers i).active = false ∧ (ctx'.peers i).active = false) :
      Change e ctx ctx'
  | packet (ctx : Ctx) (i : Nat) (pkt : Packet) (slot : Slot) (hi : i < e.maxPeers)
      (hactive : (ctx.peers i).active = true) (hsession : ctx.session i = pkt.session)
      (hmoves : Moves e (some pkt) (((ctx.slotInitPeer i).view e).emit (.recv pkt)) (slot.view e))
      (hok : Slot.Ok e slot) :
      Change e ctx (ctx.store i slot)
  | create (ctx : Ctx) (i : Nat) (pkt : Packet) (peerId : UInt32) (fresh slot : Slot)
      (hi : i < e.maxPeers) (hfree : (ctx.peers i).active = false)
      (hsession : ∀ j < e.maxPeers, (ctx.peers j).active = true → ctx.session j ≠ pkt.session)
      (hid : ∀ j < e.maxPeers, (ctx.peers j).active = true → (ctx.peers j).peer ≠ some peerId)
      (hfresh : Fresh e peerId fresh) (hlog : fresh.log = ctx.log)
      (hmoves : Moves e (some pkt) (((fresh.view e).emit (.recv pkt)).adopted e pkt) (slot.view e))
      (hok : Slot.Ok e slot) :
      Change e ctx (ctx.store i slot)
  | poll (ctx : Ctx) (i : Nat) (slot : Slot) (hi : i < e.maxPeers)
      (hactive : (ctx.peers i).active = true)
      (hmoves : Moves e none ((ctx.slotInitPeer i).view e) (slot.view e)) (hok : Slot.Ok e slot) :
      Change e ctx (ctx.store i slot)

abbrev Changes (e : Env) : Ctx → Ctx → Prop := Relation.ReflTransGen (Change e)

-- The slots in use are those of different peers with different sessions.
structure Table (e : Env) (ctx : Ctx) : Prop where
  ok : ∀ i < e.maxPeers, (ctx.peers i).active = true → Slot.Ok e (ctx.slotInitPeer i)
  peer : ∀ i < e.maxPeers, (ctx.peers i).active = true → (ctx.peers i).peer ≠ none
  known : ∀ i < e.maxPeers, (ctx.peers i).active = true → (ctx.peers i).peerSessionKnown = true
  sessions : ∀ i < e.maxPeers, ∀ j < e.maxPeers, (ctx.peers i).active = true →
    (ctx.peers j).active = true → ctx.session i = ctx.session j → i = j
  ids : ∀ i < e.maxPeers, ∀ j < e.maxPeers, (ctx.peers i).active = true →
    (ctx.peers j).active = true → (ctx.peers i).peer = (ctx.peers j).peer → i = j

section

variable {e : Env} {ctx ctx' : Ctx}

theorem ok_of_toPeerContext {slot slot' : Slot}
    (hok : Slot.Ok e slot) (h : slot'.toPeerContext = slot.toPeerContext) : Slot.Ok e slot' := by
  obtain ⟨ctx, tick, nPeers, log⟩ := slot
  obtain ⟨ctx', tick', nPeers', log'⟩ := slot'
  obtain rfl : ctx' = ctx := h
  exact ⟨⟨hok.inv.kind, hok.inv.wf, hok.inv.size, hok.inv.timer⟩, hok.head⟩

@[simp] theorem store_peers_self (i : Nat) (slot : Slot) :
    (ctx.store i slot).peers i = slot.toPeerContext := Function.update_self ..

theorem store_peers_of_ne {i j : Nat} (h : j ≠ i) (slot : Slot) :
    (ctx.store i slot).peers j = ctx.peers j := Function.update_of_ne h ..

theorem slotInitPeer_store_self (ctx : Ctx) (i : Nat) (slot : Slot) :
    (ctx.store i slot).slotInitPeer i = slot := by
  unfold slotInitPeer
  rw [store_peers_self]
  rfl

theorem peer_eq_of_peerId {a b : PeerContext} (ha : a.peer ≠ none) (hb : b.peer ≠ none)
    (h : a.peerId = b.peerId) : a.peer = b.peer := by
  obtain ⟨p, hp⟩ := Option.ne_none_iff_exists'.mp ha
  obtain ⟨q, hq⟩ := Option.ne_none_iff_exists'.mp hb
  simp only [PeerContext.peerId, hp, hq, Option.getD_some] at h
  rw [hp, hq, h]

theorem store_session_of_ne {i j : Nat} (h : j ≠ i) (slot : Slot) :
    (ctx.store i slot).session j = ctx.session j := by
  unfold session
  rw [store_peers_of_ne h]

theorem store_session_self (i : Nat) (slot : Slot) :
    (ctx.store i slot).session i = (slot.view e).session := by
  unfold session
  rw [store_peers_self]
  rfl

theorem Table.store (ht : Table e ctx) {i : Nat} {slot : Slot} (hok : Slot.Ok e slot)
    (hpeer : slot.peer ≠ none) (hknown : slot.peerSessionKnown = true)
    (hsession : ∀ j < e.maxPeers, j ≠ i → (ctx.peers j).active = true → slot.active = true →
      ctx.session j ≠ (slot.view e).session)
    (hid : ∀ j < e.maxPeers, j ≠ i → (ctx.peers j).active = true → slot.active = true →
      (ctx.peers j).peer ≠ slot.peer) :
    Table e (ctx.store i slot) := by
  refine ⟨fun j hj hactive => ?_, fun j hj hactive => ?_, fun j hj hactive => ?_,
    fun j hj k hk hactive hactive' heq => ?_, fun j hj k hk hactive hactive' heq => ?_⟩
  · by_cases hji : j = i
    · subst hji
      exact ok_of_toPeerContext hok (store_peers_self j slot)
    · rw [store_peers_of_ne hji] at hactive
      exact ok_of_toPeerContext (ht.ok j hj hactive) (store_peers_of_ne hji slot)
  · by_cases hji : j = i
    · subst hji
      rw [store_peers_self]
      exact hpeer
    · rw [store_peers_of_ne hji] at hactive ⊢
      exact ht.peer j hj hactive
  · by_cases hji : j = i
    · subst hji
      rw [store_peers_self]
      exact hknown
    · rw [store_peers_of_ne hji] at hactive ⊢
      exact ht.known j hj hactive
  · by_cases hji : j = i <;> by_cases hki : k = i
    · rw [hji, hki]
    · subst hji
      rw [store_peers_self] at hactive
      rw [store_peers_of_ne hki] at hactive'
      rw [store_session_self, store_session_of_ne hki] at heq
      exact absurd heq.symm (hsession k hk hki hactive' hactive)
    · subst hki
      rw [store_peers_self] at hactive'
      rw [store_peers_of_ne hji] at hactive
      rw [store_session_self, store_session_of_ne hji] at heq
      exact absurd heq (hsession j hj hji hactive hactive')
    · rw [store_peers_of_ne hji] at hactive
      rw [store_peers_of_ne hki] at hactive'
      rw [store_session_of_ne hji, store_session_of_ne hki] at heq
      exact ht.sessions j hj k hk hactive hactive' heq
  · by_cases hji : j = i <;> by_cases hki : k = i
    · rw [hji, hki]
    · subst hji
      rw [store_peers_self] at hactive heq
      rw [store_peers_of_ne hki] at hactive' heq
      exact absurd heq.symm (hid k hk hki hactive' hactive)
    · subst hki
      rw [store_peers_self] at hactive' heq
      rw [store_peers_of_ne hji] at hactive heq
      exact absurd heq (hid j hj hji hactive hactive')
    · rw [store_peers_of_ne hji] at hactive heq
      rw [store_peers_of_ne hki] at hactive' heq
      exact ht.ids j hj k hk hactive hactive' heq

theorem Table.of_idle (ht : Table e ctx) (hpeers : ∀ i, ctx'.peers i = ctx.peers i ∨
    (ctx.peers i).active = false ∧ (ctx'.peers i).active = false) : Table e ctx' := by
  have hsame : ∀ i, (ctx'.peers i).active = true → ctx'.peers i = ctx.peers i := by
    intro i hactive
    rcases hpeers i with h | ⟨-, h⟩
    · exact h
    · simp [h] at hactive
  have hback : ∀ i, (ctx'.peers i).active = true → (ctx.peers i).active = true :=
    fun i h => hsame i h ▸ h
  have hsession : ∀ i, (ctx'.peers i).active = true → ctx'.session i = ctx.session i := by
    intro i h
    unfold session
    rw [hsame i h]
  refine ⟨fun i hi h => ?_, fun i hi h => ?_, fun i hi h => ?_, fun i hi j hj h h' heq => ?_,
    fun i hi j hj h h' heq => ?_⟩
  · exact ok_of_toPeerContext (ht.ok i hi (hback i h)) (hsame i h)
  · rw [hsame i h]
    exact ht.peer i hi (hback i h)
  · rw [hsame i h]
    exact ht.known i hi (hback i h)
  · rw [hsession i h, hsession j h'] at heq
    exact ht.sessions i hi j hj (hback i h) (hback j h') heq
  · rw [hsame i h, hsame j h'] at heq
    exact ht.ids i hi j hj (hback i h) (hback j h') heq

theorem slot_stays (hlex : e.plat.CmpLex) (ht : Table e ctx) {i : Nat} {cur : Option Packet}
    {acts : List Act} {slot : Slot} (hi : i < e.maxPeers) (hactive : (ctx.peers i).active = true)
    (hcur : ∀ pkt, cur = some pkt → ctx.session i = pkt.session)
    (hmoves : Moves e cur (((ctx.slotInitPeer i).view e).emits acts) (slot.view e)) :
    slot.peer = (ctx.peers i).peer ∧ slot.peerSessionKnown = true ∧
      (slot.view e).session = ctx.session i := by
  have hpeer : slot.peer = (ctx.peers i).peer := Moves.peer_eq hmoves
  obtain ⟨hknown, hsession⟩ := Moves.session_eq hlex hmoves (ht.peer i hi hactive)
    (ht.known i hi hactive) hcur
  exact ⟨hpeer, hknown, hsession⟩

theorem Table.store_same (ht : Table e ctx) {i : Nat} {slot : Slot} (hi : i < e.maxPeers)
    (hactive : (ctx.peers i).active = true) (hok : Slot.Ok e slot)
    (hpeer : slot.peer = (ctx.peers i).peer) (hknown : slot.peerSessionKnown = true)
    (hsession : (slot.view e).session = ctx.session i) : Table e (ctx.store i slot) := by
  refine ht.store hok (hpeer ▸ ht.peer i hi hactive) hknown (fun j hj hne h _ heq => ?_)
    (fun j hj hne h _ heq => ?_)
  · exact hne (ht.sessions j hj i hi h hactive (heq.trans hsession))
  · exact hne (ht.ids j hj i hi h hactive (heq.trans hpeer))

theorem Change.table (hlex : e.plat.CmpLex) (h : Change e ctx ctx') (ht : Table e ctx) :
    Table e ctx' := by
  cases h with
  | idle ctx' hlog hpeers => exact ht.of_idle hpeers
  | packet i pkt slot hi hactive hsession hmoves hok =>
    obtain ⟨hpeer, hknown, hsess⟩ := slot_stays hlex ht hi hactive
      (fun pkt' hpkt => (Option.some.inj hpkt) ▸ hsession) hmoves
    exact ht.store_same hi hactive hok hpeer hknown hsess
  | poll i slot hi hactive hmoves hok =>
    rw [← emits_nil ((ctx.slotInitPeer i).view e)] at hmoves
    obtain ⟨hpeer, hknown, hsess⟩ := slot_stays hlex ht hi hactive
      (fun pkt hpkt => by simp at hpkt) hmoves
    exact ht.store_same hi hactive hok hpeer hknown hsess
  | create i pkt peerId fresh slot hi hfree hsession hid hfresh hlog hmoves hok =>
    have hpeer : slot.peer = some peerId := (Moves.peer_eq hmoves).trans hfresh.peer
    obtain ⟨hknown, hsess⟩ := Moves.session_eq hlex hmoves
      (fun hnone => by simp [hfresh.peer, Slot.view, adopted] at hnone) rfl
      (fun pkt' hpkt => congrArg Packet.session (Option.some.inj hpkt))
    refine ht.store hok (by simp [hpeer]) hknown (fun j hj hne h _ heq => ?_)
      (fun j hj hne h _ heq => ?_)
    · exact hsession j hj h (heq.trans hsess)
    · exact hid j hj h (heq.trans hpeer)

theorem Changes.table (hlex : e.plat.CmpLex) (h : Changes e ctx ctx') (ht : Table e ctx) :
    Table e ctx' :=
  Run.star_preserves (fun _ _ hc ht => hc.table hlex ht) h ht

theorem opened_table : Table e (opened e) := by
  have hidle : ∀ i, ((opened e).peers i).active = false := fun _ => rfl
  refine ⟨fun i _ h => ?_, fun i _ h => ?_, fun i _ h => ?_, fun i _ j _ h => ?_,
    fun i _ j _ h => ?_⟩ <;> simp [hidle] at h

theorem findBySession_active {pkt : Packet} {i : Nat} (h : ctx.findBySession e pkt = some i) :
    i < e.maxPeers ∧ (ctx.peers i).active = true := by
  have hfound := List.find?_some h
  simp only [Bool.and_eq_true] at hfound
  exact ⟨List.mem_range.mp (List.mem_of_find?_eq_some h), hfound.1.1⟩

theorem findBySession_some (hlex : e.plat.CmpLex) {pkt : Packet} {i : Nat}
    (h : ctx.findBySession e pkt = some i) :
    i < e.maxPeers ∧ (ctx.peers i).active = true ∧ ctx.session i = pkt.session := by
  obtain ⟨hi, hactive⟩ := findBySession_active h
  have hfound := List.find?_some h
  simp only [Bool.and_eq_true, decide_eq_true_eq, hlex.eq_zero] at hfound
  obtain ⟨⟨-, hid⟩, hts⟩ := hfound
  refine ⟨hi, hactive, ?_⟩
  simp only [session, Packet.session, hid, hts]

theorem findBySession_none (hlex : e.plat.CmpLex) {pkt : Packet}
    (h : ctx.findBySession e pkt = none) :
    ∀ j < e.maxPeers, (ctx.peers j).active = true → ctx.session j ≠ pkt.session := by
  intro j hj hactive heq
  have hnot := List.find?_eq_none.mp h j (List.mem_range.mpr hj)
  simp only [session, Packet.session, SessionHdr.mk.injEq] at heq
  simp [hactive, heq.1, heq.2, hlex.eq_zero] at hnot

theorem findBySession_of_session (hlex : e.plat.CmpLex) (ht : Table e ctx) {pkt : Packet} {i : Nat}
    (hi : i < e.maxPeers) (hactive : (ctx.peers i).active = true)
    (hsession : ctx.session i = pkt.session) : ctx.findBySession e pkt = some i := by
  cases hf : ctx.findBySession e pkt with
  | none => exact absurd hsession (findBySession_none hlex hf i hi hactive)
  | some j =>
    obtain ⟨hj, hjactive, hjsession⟩ := findBySession_some hlex hf
    rw [ht.sessions j hj i hi hjactive hactive (hjsession.trans hsession.symm)]

private theorem allocatePeerId_some {peerId : UInt32} (h : ctx.allocatePeerId e = some peerId) :
    ∀ j < e.maxPeers, (ctx.peers j).active = true → (ctx.peers j).peer ≠ some peerId := by
  intro j hj hactive heq
  have hfound := List.find?_some h
  simp only [Bool.and_eq_true, List.all_eq_true, List.mem_range] at hfound
  have := hfound.2 j hj
  simp [hactive, heq] at this

-- The two outcomes of potr_internal_peer_create.
theorem peerCreate_cases (ctx : Ctx) (sender : Endpoint) (path : Path) :
    ((ctx.peerCreate e sender path).2 = none ∧ (ctx.peerCreate e sender path).1.log = ctx.log ∧
      ∀ i, (ctx.peerCreate e sender path).1.peers i = ctx.peers i ∨
        (ctx.peers i).active = false ∧
          ((ctx.peerCreate e sender path).1.peers i).active = false) ∨
    ∃ i peerId, (ctx.peerCreate e sender path).2 = some i ∧ i < e.maxPeers ∧
      (ctx.peers i).active = false ∧
      (∀ j < e.maxPeers, (ctx.peers j).active = true → (ctx.peers j).peer ≠ some peerId) ∧
      Fresh e peerId ((ctx.peerCreate e sender path).1.slotInitPeer i) ∧
      (ctx.peerCreate e sender path).1.log = ctx.log ∧
      ∀ j, j ≠ i → (ctx.peerCreate e sender path).1.peers j = ctx.peers j := by
  unfold peerCreate
  split
  · exact .inl ⟨rfl, rfl, fun i => .inl rfl⟩
  split
  · rename_i i peerId hfind halloc
    have hi : i < e.maxPeers := List.mem_range.mp (List.mem_of_find?_eq_some hfind)
    have hfree : (ctx.peers i).active = false := by simpa using List.find?_some hfind
    simp only
    split
    · refine .inl ⟨rfl, rfl, fun j => ?_⟩
      by_cases hji : j = i
      · subst hji
        exact .inr ⟨hfree, by simp [PeerContext.empty]⟩
      · exact .inl (Function.update_of_ne hji ..)
    · refine .inr ⟨i, peerId, rfl, hi, hfree, allocatePeerId_some halloc, ?_, rfl,
        fun j hji => Function.update_of_ne hji ..⟩
      constructor <;> simp [slotInitPeer, PeerContext.empty, Slot.reassembly, Reassembly.empty]
  · exact .inl ⟨rfl, rfl, fun i => .inl rfl⟩

-- What potr_internal_peer_create writes into the slot it takes.
def freshPeer (e : Env) (peerId sessionId : UInt32) (sessionTs : Timespec) (sender : Endpoint)
    (path : Path) : PeerContext :=
  { PeerContext.empty e.windowSize with
    peer := some peerId
    active := true
    sessionId := sessionId
    sessionTs := sessionTs
    destAddr := Function.update (fun _ => Endpoint.clear) path sender
    nPaths := 1 }

theorem peerCreate_peer {sender : Endpoint} {path : Path} {i : Nat}
    (h : (ctx.peerCreate e sender path).2 = some i) :
    ∃ peerId sessionId sessionTs, (ctx.peerCreate e sender path).1.peers i =
      freshPeer e peerId sessionId sessionTs sender path := by
  revert h
  unfold peerCreate
  split
  · exact fun h => by cases h
  split
  · dsimp only
    split
    · exact fun h => by cases h
    · intro h
      obtain rfl := Option.some.inj h
      dsimp only
      rw [Function.update_self]
      exact ⟨_, _, _, rfl⟩
  · exact fun h => by cases h

theorem store_created {created : Ctx} {i : Nat}
    (h : ∀ j, j ≠ i → created.peers j = ctx.peers j) (slot : Slot) :
    created.store i slot = store { ctx with nextPeerId := created.nextPeerId } i slot := by
  have hpeers : Function.update created.peers i slot.toPeerContext =
      Function.update ctx.peers i slot.toPeerContext := by
    funext j
    by_cases hji : j = i
    · subst hji
      simp
    · rw [Function.update_of_ne hji, Function.update_of_ne hji, h j hji]
  simp only [store, hpeers]

theorem n1HandlePacket_found {pkt : Packet} {i : Nat} (hfind : ctx.findBySession e pkt = some i)
    (path : Path) (sender : Endpoint) : ctx.n1HandlePacket e pkt path sender =
      ctx.store i (((ctx.slotInitPeer i).emit (.recv pkt)).dispatchPacket e pkt path sender) := by
  unfold n1HandlePacket
  rw [hfind]

theorem n1HandlePacket_ignored {pkt : Packet} (hfind : ctx.findBySession e pkt = none)
    (hping : ¬ pkt.has FLAG_PING = true) (path : Path) (sender : Endpoint) :
    ctx.n1HandlePacket e pkt path sender = ctx := by
  unfold n1HandlePacket
  rw [hfind]
  simp [hping]

theorem n1HandlePacket_create {pkt : Packet} {path : Path} {sender : Endpoint}
    (hfind : ctx.findBySession e pkt = none) (hping : pkt.has FLAG_PING = true) {i : Nat}
    (hcreate : (ctx.peerCreate e sender path).2 = some i) :
    ctx.n1HandlePacket e pkt path sender =
      (ctx.peerCreate e sender path).1.store i
        (((((ctx.peerCreate e sender path).1.slotInitPeer i).emit (.recv pkt)).adoptSession e
          pkt).dispatchPacket e pkt path sender) := by
  unfold n1HandlePacket
  rw [hfind]
  simp only [hping, if_true]
  generalize ctx.peerCreate e sender path = created at hcreate ⊢
  obtain ⟨ctx', found⟩ := created
  obtain rfl : found = some i := hcreate
  rfl

theorem n1HandlePacket_full {pkt : Packet} {path : Path} {sender : Endpoint}
    (hfind : ctx.findBySession e pkt = none) (hping : pkt.has FLAG_PING = true)
    (hcreate : (ctx.peerCreate e sender path).2 = none) :
    ctx.n1HandlePacket e pkt path sender = (ctx.peerCreate e sender path).1 := by
  unfold n1HandlePacket
  rw [hfind]
  simp only [hping, if_true]
  generalize ctx.peerCreate e sender path = created at hcreate ⊢
  obtain ⟨ctx', found⟩ := created
  obtain rfl : found = none := hcreate
  rfl

theorem adopted_ok (hkind : e.type = .unicastBidirN1) (slot : Slot) (pkt : Packet) :
    Slot.Ok e ((slot.emit (.recv pkt)).adoptSession e pkt) :=
  ⟨⟨fun _ => hkind, Window.init_wf e.windowSize_pos e.windowSize_le, rfl, fun _ => rfl⟩,
    Window.held_init ..⟩

theorem adopted_early (slot : Slot) (pkt : Packet) :
    (((slot.emit (.recv pkt)).adoptSession e pkt).view e).Early :=
  Early.emit (v := { (slot.emit (.recv pkt)).view e with
    known := true, session := pkt.session, win := Window.init pkt.seqNum e.windowSize
    pending := false, pendingFin := false, finTarget := 0 }) (Slot.recv_early (e := e) pkt) rfl

-- The ways of thread_recv_n1_handle_packet: the peer is there, no slot in use changes, or a peer
-- is created.
inductive Handled (e : Env) (ctx : Ctx) (pkt : Packet) (path : Path) (sender : Endpoint) : Ctx → Prop
  | found (i : Nat) (hfind : ctx.findBySession e pkt = some i) : Handled e ctx pkt path sender
      (ctx.store i (((ctx.slotInitPeer i).emit (.recv pkt)).dispatchPacket e pkt path sender))
  | idle (ctx' : Ctx) (hlog : ctx'.log = ctx.log) (hpeers : ∀ i, ctx'.peers i = ctx.peers i ∨
      (ctx.peers i).active = false ∧ (ctx'.peers i).active = false) : Handled e ctx pkt path sender ctx'
  | created (i : Nat) (peerId nextPeerId : UInt32) (fresh : Slot)
      (hfind : ctx.findBySession e pkt = none) (hping : pkt.has FLAG_PING = true)
      (hi : i < e.maxPeers) (hfree : (ctx.peers i).active = false)
      (hid : ∀ j < e.maxPeers, (ctx.peers j).active = true → (ctx.peers j).peer ≠ some peerId)
      (hfresh : Fresh e peerId fresh) (hlog : fresh.log = ctx.log)
      (hslot : ∃ peerId sessionId sessionTs, fresh.toPeerContext =
        freshPeer e peerId sessionId sessionTs sender path) :
      Handled e ctx pkt path sender (store { ctx with nextPeerId := nextPeerId } i
        (((fresh.emit (.recv pkt)).adoptSession e pkt).dispatchPacket e pkt path sender))

theorem n1HandlePacket_handled (ctx : Ctx) (pkt : Packet) (path : Path) (sender : Endpoint) :
    Handled e ctx pkt path sender (ctx.n1HandlePacket e pkt path sender) := by
  cases hfind : ctx.findBySession e pkt with
  | some i =>
    rw [n1HandlePacket_found hfind path sender]
    exact .found i hfind
  | none =>
    by_cases hping : pkt.has FLAG_PING = true
    · rcases peerCreate_cases ctx sender path with
        ⟨hnone, hlog, hpeers⟩ | ⟨i, peerId, hsome, hi, hfree, hid, hfresh, hlog, hothers⟩
      · rw [n1HandlePacket_full hfind hping hnone]
        exact .idle _ hlog hpeers
      · rw [n1HandlePacket_create hfind hping hsome, store_created hothers]
        exact .created i peerId _ _ hfind hping hi hfree hid hfresh hlog (peerCreate_peer hsome)
    · rw [n1HandlePacket_ignored hfind hping path sender]
      exact .idle _ rfl fun _ => .inl rfl

theorem n1HandlePacket_changes (hlex : e.plat.CmpLex) (hkind : e.type = .unicastBidirN1)
    (ht : Table e ctx) (pkt : Packet) (path : Path) (sender : Endpoint) :
    Changes e ctx (ctx.n1HandlePacket e pkt path sender) := by
  have hhandled := n1HandlePacket_handled (e := e) ctx pkt path sender
  generalize ctx.n1HandlePacket e pkt path sender = ctx' at hhandled ⊢
  cases hhandled with
  | found i hfind =>
    obtain ⟨hi, hactive, hsession⟩ := findBySession_some hlex hfind
    have hok := Slot.emit_ok (ht.ok i hi hactive) (.recv pkt)
    obtain ⟨hmoves, hok'⟩ := Slot.dispatchPacket_moves hlex pkt path sender hok
      (Slot.recv_early pkt) (.inr hactive)
    exact .single (.packet ctx i pkt _ hi hactive hsession hmoves hok')
  | idle ctx' hlog hpeers => exact .single (.idle _ _ hlog hpeers)
  | created i peerId nextPeerId fresh hfind _ hi hfree hid hfresh hlog =>
    obtain ⟨hmoves, hok⟩ := Slot.dispatchPacket_moves hlex pkt path sender
      (adopted_ok hkind fresh pkt) (adopted_early fresh pkt) (.inr hfresh.active)
    refine .head (.idle ctx { ctx with nextPeerId := nextPeerId } rfl fun j => .inl rfl) ?_
    exact .single (.create _ i pkt peerId _ _ hi hfree (findBySession_none hlex hfind) hid
      hfresh hlog hmoves hok)

theorem healthCheckPeer_inactive {nowTs : Timespec} {i : Nat} (h : ¬ (ctx.peers i).active = true) :
    (ctx.slotInitPeer i).healthCheckPeer e nowTs = ctx.slotInitPeer i := by
  unfold Slot.healthCheckPeer
  rw [if_pos]
  simp [slotInitPeer, h]

theorem healthCheckPeer_changes (nowTs : Timespec) (ht : Table e ctx) {i : Nat}
    (hi : i < e.maxPeers) :
    Changes e ctx (ctx.store i ((ctx.slotInitPeer i).healthCheckPeer e nowTs)) := by
  by_cases hactive : (ctx.peers i).active = true
  · have hok := ht.ok i hi hactive
    have hpeer : (ctx.slotInitPeer i).peer.isSome = true :=
      Option.isSome_iff_ne_none.mpr (ht.peer i hi hactive)
    obtain ⟨hmoves, hhead⟩ := (Slot.healthCheckPeer_moves nowTs hpeer hok.head :
      Moves e none _ _ ∧ _)
    exact .single (.poll ctx i _ hi hactive hmoves ⟨Moves.inv hmoves hok.inv, hhead⟩)
  · rw [healthCheckPeer_inactive hactive]
    refine .single (.idle _ _ rfl fun j => .inl ?_)
    by_cases hji : j = i
    · subst hji
      exact store_peers_self ..
    · exact store_peers_of_ne hji _

theorem healthCheckPeers_changes (hlex : e.plat.CmpLex) (ht : Table e ctx) :
    Changes e ctx (ctx.healthCheckPeers e) := by
  unfold healthCheckPeers
  have hticked : Change e ctx { ctx with tick := ctx.tick + 1 } :=
    .idle _ _ rfl fun j => .inl rfl
  split
  · exact .single hticked
  · refine (Run.foldl_preserves_of_mem
      (P := fun ctx' => Changes e ctx ctx' ∧ Table e ctx') ?_
      ⟨.single hticked, hticked.table hlex ht⟩).1
    intro ctx' i hi h
    have hchange := healthCheckPeer_changes (e.plat.clock ctx.tick) h.2 (List.mem_range.mp hi)
    exact ⟨h.1.trans hchange, Changes.table hlex hchange h.2⟩

theorem step_changes (hlex : e.plat.CmpLex) (hkind : e.type = .unicastBidirN1)
    (ht : Table e ctx) (input : Slot.Input) : Changes e ctx (ctx.step e input) := by
  cases input with
  | pollTimeout => exact healthCheckPeers_changes hlex ht
  | packet path sender pkt =>
    change Changes e ctx (if e.nPath ≤ path.val then ctx else ctx.n1HandlePacket e pkt path sender)
    split
    · exact .refl
    · exact n1HandlePacket_changes hlex hkind ht pkt path sender

theorem run_preserves (hlex : e.plat.CmpLex) (hkind : e.type = .unicastBidirN1) {P : Ctx → Prop}
    (hchange : ∀ ctx ctx', Table e ctx → Change e ctx ctx' → P ctx → P ctx') (ht : Table e ctx)
    (h : P ctx) (inputs : List Slot.Input) : Table e (ctx.run e inputs) ∧ P (ctx.run e inputs) := by
  refine Run.foldl_preserves (P := fun ctx => Table e ctx ∧ P ctx) ?_ ⟨ht, h⟩ inputs
  intro ctx input hctx
  exact Run.star_preserves (P := fun ctx => Table e ctx ∧ P ctx)
    (fun ctx ctx' hc hp => ⟨hc.table hlex hp.1, hchange ctx ctx' hp.1 hc hp.2⟩)
    (step_changes hlex hkind hctx.1 input) hctx

end

end Ctx

end Porter
