import Porter.Connection.Table
import Porter.Recv.Twin

namespace Porter

namespace Slot

theorem tagged_stable {e : Env} {path : Path} {sender : Endpoint} (id : UInt32)
    (base : List (UInt32 × Act)) :
    Stable e path sender fun slot => slot.peer = some id ∧
      ∃ acts : List Act, slot.log = base ++ acts.map fun act => (id, act) where
  emits := by
    rintro slot acts - ⟨hpeer, done, hlog⟩
    refine ⟨hpeer, done ++ acts, ?_⟩
    have hid : slot.peerId = id := by
      unfold PeerContext.peerId
      rw [hpeer]
      rfl
    change slot.log ++ acts.map (fun act => (slot.peerId, act)) = _
    rw [hlog, hid, List.map_append, List.append_assoc]
  inner := by
    rintro slot slot' ⟨hpeer, hacts⟩ hlinks - hlog - -
    refine ⟨(congrArg (fun l => l.toConn.peer) hlinks).trans hpeer, ?_⟩
    rw [hlog]
    exact hacts
  sync _ h := h
  pings _ _ h := h
  heard _ _ _ h := h
  learn := by
    intro slot h
    unfold learnSenderPath
    dsimp only
    repeat' split
    all_goals exact h
  clear _ _ h := h
  free := by
    intro slot h
    unfold peerFree
    split <;> exact h
  dedup _ _ h := h

end Slot

-- A packet together with what the clocks and the random source answer while it is handled.
structure Arrival where
  path : Path
  sender : Endpoint
  pkt : Packet
  readings : Readings

-- The answers when they are first asked for at `tick`.
def Readings.since (r : Readings) (tick : Nat) : Readings where
  clock n := r.clock (n - tick)
  clockMs n := r.clockMs (n - tick)
  newSession n := r.newSession (n - tick)

def Readings.upon (r : Readings) (tick : Nat) : Readings where
  clock k := r.clock (tick + k)
  clockMs k := r.clockMs (tick + k)
  newSession k := r.newSession (tick + k)

theorem Readings.since_agree (r : Readings) (tick tick' : Nat) :
    (r.since tick).Agree (r.since tick') tick tick' := by
  refine ⟨fun k => ?_, fun k => ?_, fun k => ?_⟩
  all_goals simp only [since, Nat.add_sub_cancel_left]

theorem Readings.upon_agree (r : Readings) (tick : Nat) :
    r.Agree ((r.upon tick).since tick) tick tick := by
  refine ⟨fun k => ?_, fun k => ?_, fun k => ?_⟩
  all_goals simp only [since, upon, Nat.add_sub_cancel_left]

namespace Ctx

-- One round of the receive thread of an N:1 service for a packet with its own answers.
def arrive (e : Env) (ctx : Ctx) (a : Arrival) : Ctx :=
  ctx.step (e.retimed (a.readings.since ctx.tick)) (.packet a.path a.sender a.pkt)

def eventsSince (ctx ctx' : Ctx) : List Event :=
  (ctx'.log.drop ctx.log.length).filterMap fun entry => entry.2.told

-- The events that are reported while the packets of one session are handled.
def eventsOfSession (e : Env) (session : SessionHdr) : Ctx → List Arrival → List Event
  | _, [] => []
  | ctx, a :: rest =>
      (if a.pkt.session = session then ctx.eventsSince (ctx.arrive e a) else []) ++
        eventsOfSession e session (ctx.arrive e a) rest

-- A packet finds its peer or there is room for a new one.
def Room (e : Env) (ctx : Ctx) (a : Arrival) : Prop :=
  ctx.findBySession e a.pkt = none → a.pkt.has FLAG_PING = true → ctx.nPeers < e.maxPeers

instance (e : Env) (ctx : Ctx) (a : Arrival) : Decidable (ctx.Room e a) :=
  inferInstanceAs (Decidable (_ → _ → _))

-- Only the slot `i` is touched, and all that is recorded goes under the id of its peer.
structure Isolated (ctx ctx' : Ctx) (i : Nat) (id : UInt32) : Prop where
  others : ∀ j, j ≠ i → ctx'.peers j = ctx.peers j
  tagged : ∃ acts : List Act, ctx'.log = ctx.log ++ acts.map fun act => (id, act)

section

variable {e : Env} {ctx ctx' : Ctx} {i : Nat}

theorem n1HandlePacket_isolated {pkt : Packet} {id : UInt32}
    (hfind : ctx.findBySession e pkt = some i) (hid : (ctx.peers i).peer = some id) (path : Path)
    (sender : Endpoint) : Isolated ctx (ctx.n1HandlePacket e pkt path sender) i id := by
  rw [n1HandlePacket_found hfind]
  refine ⟨fun j hji => store_peers_of_ne hji _, ?_⟩
  have hstable : Slot.Stable e path sender _ := Slot.tagged_stable id ctx.log
  have hstart : (ctx.slotInitPeer i).peer = some id ∧ ∃ acts : List Act,
      (ctx.slotInitPeer i).log = ctx.log ++ acts.map fun act => (id, act) :=
    ⟨hid, [], (List.append_nil ctx.log).symm⟩
  exact (hstable.dispatchPacket pkt (hstable.emit (.recv pkt) trivial hstart)).2

theorem n1HandlePacket_created {pkt : Packet} {path : Path} {sender : Endpoint}
    (hfind : ctx.findBySession e pkt = none) (hping : pkt.has FLAG_PING = true)
    (hsome : (ctx.peerCreate e sender path).2 = some i) :
    ∃ id, ((ctx.n1HandlePacket e pkt path sender).peers i).peer = some id ∧
      Isolated ctx (ctx.n1HandlePacket e pkt path sender) i id := by
  rcases peerCreate_cases ctx sender path with
    ⟨hnone, -⟩ | ⟨j, id, hsome', -, -, -, hfresh, hlog, hothers⟩
  · rw [hnone] at hsome
    cases hsome
  · obtain rfl : i = j := Option.some.inj (hsome.symm.trans hsome')
    rw [n1HandlePacket_create hfind hping hsome]
    have hstable : Slot.Stable e path sender _ := Slot.tagged_stable id ctx.log
    have hstart : ((ctx.peerCreate e sender path).1.slotInitPeer i).peer = some id ∧
        ∃ acts : List Act, ((ctx.peerCreate e sender path).1.slotInitPeer i).log =
          ctx.log ++ acts.map fun act => (id, act) :=
      ⟨hfresh.peer, [], hlog.trans (List.append_nil ctx.log).symm⟩
    have hlast := hstable.dispatchPacket pkt
      (hstable.adoptSession pkt (hstable.emit (.recv pkt) trivial hstart))
    refine ⟨id, ?_, fun j hji => ?_, hlast.2⟩
    · rw [store_peers_self]
      exact hlast.1
    · rw [store_peers_of_ne hji, hothers j hji]

theorem n1HandlePacket_unknown {pkt : Packet} {path : Path} {sender : Endpoint}
    (hfind : ctx.findBySession e pkt = none)
    (hnone : pkt.has FLAG_PING = true → (ctx.peerCreate e sender path).2 = none) :
    (ctx.n1HandlePacket e pkt path sender).log = ctx.log ∧
      ∀ i, (ctx.n1HandlePacket e pkt path sender).peers i = ctx.peers i ∨
        (ctx.peers i).active = false ∧
          ((ctx.n1HandlePacket e pkt path sender).peers i).active = false := by
  by_cases hping : pkt.has FLAG_PING = true
  · rw [n1HandlePacket_full hfind hping (hnone hping)]
    rcases peerCreate_cases ctx sender path with
      ⟨-, hlog, hpeers⟩ | ⟨j, -, hsome, -⟩
    · exact ⟨hlog, hpeers⟩
    · rw [hnone hping] at hsome
      cases hsome
  · rw [n1HandlePacket_ignored hfind hping]
    exact ⟨rfl, fun _ => .inl rfl⟩

theorem Table.retimed (h : Table e ctx) (r : Readings) : Table (e.retimed r) ctx :=
  ⟨fun i hi hon => ⟨⟨(h.ok i hi hon).inv.kind, (h.ok i hi hon).inv.wf, (h.ok i hi hon).inv.size,
    (h.ok i hi hon).inv.timer⟩, (h.ok i hi hon).head⟩, h.peer, h.known, h.sessions, h.ids⟩

theorem Table.of_retimed {r : Readings} (h : Table (e.retimed r) ctx) : Table e ctx := h.retimed e.readings

theorem n1HandlePacket_fate (hlex : e.plat.CmpLex) (hkind : e.type = .unicastBidirN1)
    (ht : Table e ctx) (pkt : Packet) {path : Path} (hpath : ¬ e.nPath ≤ path.val) (sender : Endpoint)
    (hi : i < e.maxPeers) (hon : ((ctx.n1HandlePacket e pkt path sender).peers i).active = true) :
    (ctx.n1HandlePacket e pkt path sender).session i = pkt.session ∨
      (ctx.peers i).active = true ∧ (ctx.n1HandlePacket e pkt path sender).peers i = ctx.peers i := by
  by_cases hactive : (ctx.peers i).active = true
  · by_cases hsession : ctx.session i = pkt.session
    · have hstays := (act_stays hlex ht (.recv (.packet path sender pkt)) hi hactive).2
      have heq : ctx.act e (.recv (.packet path sender pkt)) = ctx.n1HandlePacket e pkt path sender :=
        if_neg hpath
      rw [heq] at hstays
      exact .inl (hstays.trans hsession)
    · exact .inr ⟨hactive, n1HandlePacket_other hlex hactive hsession path sender⟩
  · exact .inl (n1HandlePacket_joined hlex hkind ctx pkt path sender (by simpa using hactive) hon)

theorem slotInitPeer_twin {i i' : Nat} {pc : PeerContext} {id id' : UInt32} {alike : Prop}
    (h : ctx.peers i = { pc with peer := some id }) (h' : ctx'.peers i' = { pc with peer := some id' })
    (hn : alike → ctx'.nPeers = ctx.nPeers) (k : Nat) {tick tick' : Nat} (htick : ctx.tick = tick + k)
    (htick' : ctx'.tick = tick' + k) :
    Slot.Twin ⟨tick, id, ctx.log⟩ ⟨tick', id', ctx'.log⟩ alike (ctx.slotInitPeer i)
      (ctx'.slotInitPeer i') := by
  have hmk : Slot.Twin ⟨tick, id, ctx.log⟩ ⟨tick', id', ctx'.log⟩ alike _ _ :=
    .mk pc k ctx.nPeers ctx'.nPeers [] hn
  unfold slotInitPeer
  rw [h, h', htick, htick']
  simpa using hmk

-- A service that serves one session alone beside one that serves many.
inductive Mirrors (size : Nat) (session : SessionHdr) (ctx ctx' : Ctx) : Prop
  | absent (hnone : ∀ i < size, (ctx.peers i).active = true → ctx.session i ≠ session)
      (hnone' : ∀ i < size, (ctx'.peers i).active = false)
  | present (i i' : Nat) (pc : PeerContext) (id id' : UInt32) (hi : i < size)
      (hi' : i' < size) (hpc : ctx.peers i = { pc with peer := some id })
      (hpc' : ctx'.peers i' = { pc with peer := some id' })
      (hsession : (ctx.peers i).active = true → ctx.session i = session)
      (hothers : ∀ j < size, j ≠ i → (ctx.peers j).active = true → ctx.session j ≠ session)
      (hothers' : ∀ j < size, j ≠ i' → (ctx'.peers j).active = false)

theorem Mirrors.cases {size : Nat} {session : SessionHdr} (h : Mirrors size session ctx ctx') :
    (∀ i < size, (ctx.peers i).active = true → ctx.session i ≠ session) ∧
      (∀ i < size, (ctx'.peers i).active = false) ∨
    ∃ (i i' : Nat) (pc : PeerContext) (id id' : UInt32), i < size ∧ i' < size ∧
      pc.active = true ∧ ctx.peers i = { pc with peer := some id } ∧
      ctx'.peers i' = { pc with peer := some id' } ∧ ctx.session i = session ∧
      (∀ j < size, j ≠ i → (ctx.peers j).active = true → ctx.session j ≠ session) ∧
      ∀ j < size, j ≠ i' → (ctx'.peers j).active = false := by
  cases h with
  | absent hnone hnone' => exact .inl ⟨hnone, hnone'⟩
  | present i i' pc id id' hi hi' hpc hpc' hsession hothers hothers' =>
    by_cases hactive : pc.active = true
    · have hon : (ctx.peers i).active = true := by
        rw [hpc]
        exact hactive
      exact .inr ⟨i, i', pc, id, id', hi, hi', hactive, hpc, hpc', hsession hon, hothers, hothers'⟩
    · have hoff : (ctx.peers i).active = false ∧ (ctx'.peers i').active = false := by
        rw [hpc, hpc']
        simpa using hactive
      refine .inl ⟨fun j hj hon => ?_, fun j hj => ?_⟩
      · by_cases hji : j = i
        · subst hji
          exact absurd (hoff.1.symm.trans hon) Bool.false_ne_true
        · exact hothers j hj hji hon
      · by_cases hji : j = i'
        · subst hji
          exact hoff.2
        · exact hothers' j hj hji

theorem Mirrors.other (hlex : e.plat.CmpLex) (hkind : e.type = .unicastBidirN1) (ht : Table e ctx)
    {session : SessionHdr} (h : Mirrors e.maxPeers session ctx ctx') {pkt : Packet}
    (hpkt : pkt.session ≠ session) {path : Path} (hpath : ¬ e.nPath ≤ path.val) (sender : Endpoint) :
    Mirrors e.maxPeers session (ctx.n1HandlePacket e pkt path sender) ctx' := by
  have hfate : ∀ j < e.maxPeers, ((ctx.n1HandlePacket e pkt path sender).peers j).active = true →
      (ctx.n1HandlePacket e pkt path sender).session j = session →
      (ctx.peers j).active = true ∧ ctx.session j = session := by
    intro j hj hon hsession
    rcases n1HandlePacket_fate hlex hkind ht pkt hpath sender hj hon with hnew | ⟨hactive, hsame⟩
    · exact absurd (hnew.symm.trans hsession) hpkt
    · refine ⟨hactive, ?_⟩
      rw [← hsession]
      unfold Ctx.session
      rw [hsame]
  rcases h.cases with ⟨hnone, hnone'⟩ |
    ⟨i, i', pc, id, id', hi, hi', hactive, hpc, hpc', hsession, hothers, hothers'⟩
  · refine .absent (fun j hj hon hsession => ?_) hnone'
    obtain ⟨hactive, hwas⟩ := hfate j hj hon hsession
    exact hnone j hj hactive hwas
  · have hon : (ctx.peers i).active = true := by
      rw [hpc]
      exact hactive
    have hsame := n1HandlePacket_other hlex hon (by rw [hsession]; exact hpkt.symm) path sender
    refine .present i i' pc id id' hi hi' (hsame.trans hpc) hpc' (fun _ => ?_)
      (fun j hj hji hon hsession => ?_)
      hothers'
    · unfold Ctx.session at hsession ⊢
      rw [hsame]
      exact hsession
    · obtain ⟨hactive, hwas⟩ := hfate j hj hon hsession
      exact hothers j hj hji hactive hwas

theorem mirrors_of_twin {session : SessionHdr} {i i' : Nat} {slot slot' : Slot} {p p' : Place}
    (htwin : Slot.Twin p p' False slot slot') (hlog : p.log = ctx.log) (hlog' : p'.log = ctx'.log)
    (hi : i < e.maxPeers) (hi' : i' < e.maxPeers) (next next' : UInt32)
    (hsession : slot.active = true → (slot.view e).session = session)
    (hothers : ∀ j < e.maxPeers, j ≠ i → (ctx.peers j).active = true → ctx.session j ≠ session)
    (hothers' : ∀ j < e.maxPeers, j ≠ i' → (ctx'.peers j).active = false) :
    Mirrors e.maxPeers session (store { ctx with nextPeerId := next } i slot)
        (store { ctx' with nextPeerId := next' } i' slot') ∧
      ctx.eventsSince (store { ctx with nextPeerId := next } i slot) =
        ctx'.eventsSince (store { ctx' with nextPeerId := next' } i' slot') := by
  obtain ⟨pc, hpc, hpc'⟩ := htwin.contexts
  obtain ⟨acts, hacts, hacts'⟩ := htwin.logs
  refine ⟨.present i i' pc p.id p'.id hi hi' ?_ ?_ (fun hon => ?_) (fun j hj hji hon => ?_)
    fun j hj hji => ?_, ?_⟩
  · rw [store_peers_self]
    exact hpc
  · rw [store_peers_self]
    exact hpc'
  · rw [store_peers_self] at hon
    unfold Ctx.session
    rw [store_peers_self]
    exact hsession hon
  · rw [store_peers_of_ne hji] at hon
    unfold Ctx.session
    rw [store_peers_of_ne hji]
    exact hothers j hj hji hon
  · rw [store_peers_of_ne hji]
    exact hothers' j hj hji
  · unfold eventsSince
    change List.filterMap _ (slot.log.drop _) = List.filterMap _ (slot'.log.drop _)
    rw [hacts, hacts', hlog, hlog', List.drop_left, List.drop_left, List.filterMap_map,
      List.filterMap_map]
    rfl

theorem mirrors_created {r : Readings} (hlex : e.plat.CmpLex) (hkind : e.type = .unicastBidirN1)
    {pkt : Packet} {path : Path} {sender : Endpoint} {i i' : Nat}
    (hagree : e.readings.Agree r ctx.tick ctx'.tick)
    (hnone : ∀ i < e.maxPeers, (ctx.peers i).active = true → ctx.session i ≠ pkt.session)
    (hnone' : ∀ i < e.maxPeers, (ctx'.peers i).active = false)
    (hfind : ctx.findBySession e pkt = none) (hfind' : ctx'.findBySession (e.retimed r) pkt = none)
    (hping : pkt.has FLAG_PING = true) (hsome : (ctx.peerCreate e sender path).2 = some i)
    (hsome' : (ctx'.peerCreate (e.retimed r) sender path).2 = some i') :
    Mirrors e.maxPeers pkt.session (ctx.n1HandlePacket e pkt path sender)
        (ctx'.n1HandlePacket (e.retimed r) pkt path sender) ∧
      ctx.eventsSince (ctx.n1HandlePacket e pkt path sender) =
        ctx'.eventsSince (ctx'.n1HandlePacket (e.retimed r) pkt path sender) := by
  have hraw : e.type.isRawType = false := by
    rw [hkind]
    rfl
  have hjoined := n1HandlePacket_joined (i := i) hlex hkind ctx pkt path sender
  obtain ⟨-, htick, id, -, -, sessionId, sessionTs, hnew, hpeer⟩ := (peerCreate_count ctx sender path).2.2
    i hsome
  obtain ⟨-, htick', id', -, -, sessionId', sessionTs', hnew', hpeer'⟩ :=
    (peerCreate_count ctx' sender path).2.2 i' hsome'
  have hanswer : (e.retimed r).plat.newSession ctx'.tick = e.plat.newSession ctx.tick :=
    hagree.newSession 0
  obtain ⟨rfl, rfl⟩ : sessionId' = sessionId ∧ sessionTs' = sessionTs := by
    rw [hanswer, hnew] at hnew'
    exact ⟨congrArg Prod.fst (Option.some.inj hnew').symm, congrArg Prod.snd (Option.some.inj hnew').symm⟩
  rcases peerCreate_cases ctx sender path with
    ⟨hfull, -⟩ | ⟨j, -, hj, hi, hfree, -, -, hlog, hothers⟩
  · rw [hsome] at hfull
    cases hfull
  obtain rfl : i = j := Option.some.inj (hsome.symm.trans hj)
  rcases peerCreate_cases (e := e.retimed r) ctx' sender path with
    ⟨hfull, -⟩ | ⟨j, -, hj', hi', -, -, -, hlog', hothers'⟩
  · rw [hsome'] at hfull
    cases hfull
  obtain rfl : i' = j := Option.some.inj (hsome'.symm.trans hj')
  rw [n1HandlePacket_create hfind hping hsome, store_created hothers] at hjoined ⊢
  rw [n1HandlePacket_create hfind' hping hsome', store_created hothers']
  generalize (ctx.peerCreate e sender path).1 = created at hpeer hlog htick hjoined ⊢
  generalize (ctx'.peerCreate (e.retimed r) sender path).1 = created' at hpeer' hlog' htick' ⊢
  have hfresh : created.peers i =
      { freshPeer e id' sessionId' sessionTs' sender path with peer := some id } := hpeer
  have htwin : Slot.Twin ⟨ctx.tick, id, created.log⟩ ⟨ctx'.tick, id', created'.log⟩ False
      (created.slotInitPeer i) (created'.slotInitPeer i') :=
    slotInitPeer_twin hfresh hpeer' False.elim 1 htick htick'
  have hlast := (((htwin.emit (.recv pkt)).adoptSession (e := e) (r := r) pkt).dispatchPacket hraw hagree
    pkt path sender)
  refine mirrors_of_twin hlast hlog hlog' hi hi' _ _ (fun hon => ?_) (fun j hj _ => hnone j hj)
    fun j hj _ => hnone' j hj
  unfold Ctx.session at hjoined
  rw [store_peers_self] at hjoined
  exact hjoined hfree hon

theorem Mirrors.own (hlex : e.plat.CmpLex) (hkind : e.type = .unicastBidirN1)
    (hint : e.maxPeers < 2147483648) (ht : Table e ctx) (ht' : Table e ctx')
    (hcount : ctx.nPeers = (ctx.activeSlots e).card) (hcount' : ctx'.nPeers = (ctx'.activeSlots e).card)
    {a : Arrival} (h : Mirrors e.maxPeers a.pkt.session ctx ctx') (hroom : ctx.Room e a)
    (hpath : ¬ e.nPath ≤ a.path.val) :
    Mirrors e.maxPeers a.pkt.session (ctx.arrive e a) (ctx'.arrive e a) ∧
      ctx.eventsSince (ctx.arrive e a) = ctx'.eventsSince (ctx'.arrive e a) := by
  obtain ⟨path, sender, pkt, r⟩ := a
  let e₁ := e.retimed (r.since ctx.tick)
  let e₂ := e.retimed (r.since ctx'.tick)
  have heq : ctx.arrive e ⟨path, sender, pkt, r⟩ = ctx.n1HandlePacket e₁ pkt path sender := if_neg hpath
  have heq' : ctx'.arrive e ⟨path, sender, pkt, r⟩ = ctx'.n1HandlePacket e₂ pkt path sender :=
    if_neg hpath
  have hraw : e₁.type.isRawType = false := by
    change e.type.isRawType = false
    rw [hkind]
    rfl
  have hlex₁ : e₁.plat.CmpLex := ⟨hlex.eq_zero, hlex.pos⟩
  have hlex₂ : e₂.plat.CmpLex := ⟨hlex.eq_zero, hlex.pos⟩
  have hagree : e₁.readings.Agree (r.since ctx'.tick) ctx.tick ctx'.tick := r.since_agree _ _
  rw [heq, heq']
  rcases h.cases with ⟨hnone, hnone'⟩ |
    ⟨i, i', pc, id, id', hi, hi', hactive, hpc, hpc', hsession, hothers, hothers'⟩
  · have hfind : ctx.findBySession e₁ pkt = none := by
      cases hfind : ctx.findBySession e₁ pkt with
      | none => rfl
      | some i =>
        obtain ⟨hi, hon, hsession⟩ := findBySession_some (e := e₁) hlex₁ hfind
        exact absurd hsession (hnone i hi hon)
    have hfind' : ctx'.findBySession e₂ pkt = none := by
      cases hfind' : ctx'.findBySession e₂ pkt with
      | none => rfl
      | some i =>
        obtain ⟨hi, hon, -⟩ := findBySession_some (e := e₂) hlex₂ hfind'
        exact absurd ((hnone' i hi).symm.trans hon) Bool.false_ne_true
    by_cases hping : pkt.has FLAG_PING = true
    · -- There is room on both sides, so both or neither can have the new peer.
      have hfree : ¬ e₁.maxPeers ≤ ctx.nPeers := Nat.not_le.mpr (hroom hfind hping)
      have hempty : ctx'.activeSlots e = ∅ := by
        refine Finset.filter_false_of_mem fun i hi => ?_
        rw [hnone' i (Finset.mem_range.mp hi)]
        exact Bool.false_ne_true
      have hfree' : ¬ e₂.maxPeers ≤ ctx'.nPeers := by
        rw [hcount', hempty, Finset.card_empty]
        change ¬ e.maxPeers ≤ 0
        change ¬ e.maxPeers ≤ ctx.nPeers at hfree
        omega
      have hcreate := peerCreate_eq_none_iff (e := e₁) hint hcount sender path
      have hcreate' := peerCreate_eq_none_iff (e := e₂) hint hcount' sender path
      have hsame : e₂.plat.newSession ctx'.tick = e₁.plat.newSession ctx.tick := hagree.newSession 0
      rw [or_iff_right hfree] at hcreate
      rw [or_iff_right hfree', hsame] at hcreate'
      by_cases hnew : e₁.plat.newSession ctx.tick = none
      · obtain ⟨hlog, hpeers⟩ := n1HandlePacket_unknown hfind fun _ => hcreate.mpr hnew
        obtain ⟨hlog', hpeers'⟩ := n1HandlePacket_unknown hfind' fun _ => hcreate'.mpr hnew
        refine ⟨.absent (fun j hj hon => ?_) fun j hj => ?_, ?_⟩
        · have heq := eq_of_idle hpeers hon
          unfold Ctx.session
          rw [heq] at hon ⊢
          exact hnone j hj hon
        · rcases hpeers' j with heq | ⟨-, hoff⟩
          · rw [heq]
            exact hnone' j hj
          · exact hoff
        · unfold eventsSince
          rw [hlog, hlog', List.drop_length, List.drop_length]
      · obtain ⟨i, hsome⟩ := Option.ne_none_iff_exists'.mp (hcreate.not.mpr hnew)
        obtain ⟨i', hsome'⟩ := Option.ne_none_iff_exists'.mp (hcreate'.not.mpr hnew)
        exact mirrors_created (e := e₁) hlex₁ hkind hagree hnone hnone' hfind hfind' hping hsome hsome'
    · rw [n1HandlePacket_ignored hfind hping, n1HandlePacket_ignored hfind' hping]
      refine ⟨.absent hnone hnone', ?_⟩
      simp [eventsSince]
  · have hon : (ctx.peers i).active = true := by
      rw [hpc]
      exact hactive
    have hon' : (ctx'.peers i').active = true := by
      rw [hpc']
      exact hactive
    have hsession' : ctx'.session i' = pkt.session := by
      rw [← hsession]
      unfold Ctx.session
      rw [hpc, hpc']
    have hfind : ctx.findBySession e₁ pkt = some i :=
      findBySession_of_session (e := e₁) hlex₁ (ht.retimed _) hi hon hsession
    have hfind' : ctx'.findBySession e₂ pkt = some i' :=
      findBySession_of_session (e := e₂) hlex₂ (ht'.retimed _) hi' hon' hsession'
    have hstays := (act_stays (e := e₁) hlex₁ (ht.retimed _)
      (.recv (.packet path sender pkt)) hi hon).2
    have hact : ctx.act e₁ (.recv (.packet path sender pkt)) = ctx.n1HandlePacket e₁ pkt path sender :=
      if_neg hpath
    have htwin : Slot.Twin ⟨ctx.tick, id, ctx.log⟩ ⟨ctx'.tick, id', ctx'.log⟩ False
        (ctx.slotInitPeer i) (ctx'.slotInitPeer i') := slotInitPeer_twin hpc hpc' False.elim 0 rfl rfl
    have hlast := (htwin.emit (.recv pkt)).dispatchPacket hraw hagree pkt path sender
    rw [hact, n1HandlePacket_found hfind] at hstays
    rw [n1HandlePacket_found hfind, n1HandlePacket_found hfind']
    refine mirrors_of_twin hlast rfl rfl hi hi' ctx.nextPeerId ctx'.nextPeerId (fun _ => ?_) hothers
      hothers'
    unfold Ctx.session at hstays hsession
    rw [store_peers_self] at hstays
    exact hstays.trans hsession

structure Kept (e : Env) (ctx : Ctx) : Prop where
  table : Table e ctx
  counted : ctx.Counted e fun _ _ => True

theorem Kept.arrive (hlex : e.plat.CmpLex) (hkind : e.type = .unicastBidirN1) (h : Kept e ctx)
    (a : Arrival) : Kept e (ctx.arrive e a) := by
  let e₁ := e.retimed (a.readings.since ctx.tick)
  have hlex₁ : e₁.plat.CmpLex := ⟨hlex.eq_zero, hlex.pos⟩
  by_cases hpath : e.nPath ≤ a.path.val
  · have heq : ctx.arrive e a = ctx := if_pos hpath
    rw [heq]
    exact h
  · have heq : ctx.arrive e a = ctx.n1HandlePacket e₁ a.pkt a.path a.sender := if_neg hpath
    rw [heq]
    have hchanges := n1HandlePacket_changes (e := e₁) hlex₁ hkind (h.table.retimed _) a.pkt a.path a.sender
    have hcounted : ctx.Counted e₁ fun _ _ => True := ⟨h.counted.count, h.counted.ids, h.counted.dests⟩
    have hlast := (n1HandlePacket_rewrite (e := e₁) (S := Lasting fun _ _ => True) ctx a.pkt a.path
      (lasting_any a.sender)).counted hcounted
    exact ⟨(hchanges.table hlex₁ (h.table.retimed _)).of_retimed, hlast.count, hlast.ids, hlast.dests⟩

-- By induction over the arrivals, with the two services side by side.
theorem eventsOfSession_alone (hlex : e.plat.CmpLex) (hkind : e.type = .unicastBidirN1)
    (hint : e.maxPeers < 2147483648) {session : SessionHdr} (h : Kept e ctx) (h' : Kept e ctx')
    (hmirrors : Mirrors e.maxPeers session ctx ctx') (arrivals : List Arrival)
    (hroom : Run.Meets (arrive e) (Room e) ctx arrivals) :
    eventsOfSession e session ctx arrivals =
      eventsOfSession e session ctx' (arrivals.filter fun a => a.pkt.session = session) := by
  induction arrivals generalizing ctx ctx' with
  | nil => rfl
  | cons a rest ih =>
    obtain ⟨hroom, hrest⟩ := hroom
    by_cases hsession : a.pkt.session = session
    · subst hsession
      rw [List.filter_cons_of_pos (by simp)]
      rw [eventsOfSession, eventsOfSession, if_pos rfl, if_pos rfl]
      by_cases hpath : e.nPath ≤ a.path.val
      · have heq : ctx.arrive e a = ctx := if_pos hpath
        have heq' : ctx'.arrive e a = ctx' := if_pos hpath
        rw [heq] at hrest
        rw [heq, heq', ih h h' hmirrors hrest]
        simp [eventsSince]
      · obtain ⟨hnext, hevents⟩ := hmirrors.own hlex hkind hint h.table h'.table h.counted.count
          h'.counted.count hroom hpath
        rw [hevents, ih (h.arrive hlex hkind a) (h'.arrive hlex hkind a) hnext hrest]
    · rw [List.filter_cons_of_neg (by simp [hsession])]
      rw [eventsOfSession, if_neg hsession, List.nil_append]
      refine ih (h.arrive hlex hkind a) h' ?_ hrest
      by_cases hpath : e.nPath ≤ a.path.val
      · have heq : ctx.arrive e a = ctx := if_pos hpath
        rw [heq]
        exact hmirrors
      · have heq : ctx.arrive e a =
            ctx.n1HandlePacket (e.retimed (a.readings.since ctx.tick)) a.pkt a.path a.sender :=
          if_neg hpath
        rw [heq]
        exact Mirrors.other (e := e.retimed (a.readings.since ctx.tick)) ⟨hlex.eq_zero, hlex.pos⟩ hkind
          (h.table.retimed _) hmirrors hsession hpath a.sender

theorem opened_kept : Kept e (opened e) := ⟨opened_table, opened_counted⟩

theorem peerCreate_retimed {r : Readings} (hnew : r.newSession ctx.tick = e.plat.newSession ctx.tick)
    (sender : Endpoint) (path : Path) :
    ctx.peerCreate (e.retimed r) sender path = ctx.peerCreate e sender path := by
  have hnew' : (e.retimed r).plat.newSession (ctx.tick + 1 - 1) =
      e.plat.newSession (ctx.tick + 1 - 1) := hnew
  have halloc : ctx.allocatePeerId (e.retimed r) = ctx.allocatePeerId e := rfl
  unfold peerCreate
  rw [halloc, Env.retimed_toService]
  split
  · rfl
  split
  · dsimp only
    rw [hnew']
  · rfl

theorem step_eq_arrive (hlex : e.plat.CmpLex) (hkind : e.type = .unicastBidirN1) (ht : Table e ctx)
    (path : Path) (sender : Endpoint) (pkt : Packet) :
    ctx.step e (.packet path sender pkt) =
      ctx.arrive e ⟨path, sender, pkt, e.readings.upon ctx.tick⟩ := by
  let r := (e.readings.upon ctx.tick).since ctx.tick
  have hagree : e.readings.Agree r ctx.tick ctx.tick := e.readings.upon_agree ctx.tick
  have hraw : e.type.isRawType = false := by
    rw [hkind]
    rfl
  by_cases hpath : e.nPath ≤ path.val
  · exact (if_pos hpath).trans (if_pos hpath).symm
  refine (if_neg hpath).trans (Eq.trans ?_ (if_neg hpath).symm)
  cases hfind : ctx.findBySession e pkt with
  | some i =>
    obtain ⟨hi, hon, -⟩ := findBySession_some hlex hfind
    obtain ⟨id, hid⟩ := Option.ne_none_iff_exists'.mp (ht.peer i hi hon)
    have hpc : ctx.peers i = { ctx.peers i with peer := some id } := by rw [← hid]
    have htwin : Slot.Twin ⟨ctx.tick, id, ctx.log⟩ ⟨ctx.tick, id, ctx.log⟩ True (ctx.slotInitPeer i)
        (ctx.slotInitPeer i) := slotInitPeer_twin hpc hpc (fun _ => rfl) 0 rfl rfl
    have hlast := ((htwin.emit (.recv pkt)).dispatchPacket hraw hagree pkt path sender).eq
    rw [n1HandlePacket_found hfind, n1HandlePacket_found (e := e.retimed r) hfind, hlast]
  | none =>
    have hcreate : ctx.peerCreate (e.retimed r) sender path = ctx.peerCreate e sender path :=
      peerCreate_retimed (hagree.newSession 0) sender path
    by_cases hping : pkt.has FLAG_PING = true
    · cases hsome : (ctx.peerCreate e sender path).2 with
      | none =>
        have hsome' : (ctx.peerCreate (e.retimed r) sender path).2 = none := by rw [hcreate, hsome]
        rw [n1HandlePacket_full hfind hping hsome,
          n1HandlePacket_full (e := e.retimed r) hfind hping hsome', hcreate]
      | some i =>
        have hsome' : (ctx.peerCreate (e.retimed r) sender path).2 = some i := by rw [hcreate, hsome]
        obtain ⟨-, htick, id, -, -, sessionId, sessionTs, -, hpeer⟩ :=
          (peerCreate_count ctx sender path).2.2 i hsome
        rw [n1HandlePacket_create hfind hping hsome,
          n1HandlePacket_create (e := e.retimed r) hfind hping hsome', hcreate]
        generalize (ctx.peerCreate e sender path).1 = created at hpeer htick ⊢
        have hpc : created.peers i =
            { freshPeer e id sessionId sessionTs sender path with peer := some id } := hpeer
        have htwin : Slot.Twin ⟨ctx.tick, id, created.log⟩ ⟨ctx.tick, id, created.log⟩ True
            (created.slotInitPeer i) (created.slotInitPeer i) :=
          slotInitPeer_twin hpc hpc (fun _ => rfl) 1 htick htick
        have hlast := (((htwin.emit (.recv pkt)).adoptSession (e := e) (r := r) pkt).dispatchPacket hraw
          hagree pkt path sender).eq
        rw [hlast]
    · rw [n1HandlePacket_ignored hfind hping, n1HandlePacket_ignored (e := e.retimed r) hfind hping]

end

end Ctx

-- The slot of a peer is all that its packets touch, so a peer is served as if it were alone.
theorem n1_peers_isolated {e : Env} (hlex : e.plat.CmpLex) (hkind : e.type = .unicastBidirN1)
    (hint : e.maxPeers < 2147483648) :
    (∀ (ctx : Ctx) pkt path sender,
      (∀ i id, ctx.findBySession e pkt = some i → (ctx.peers i).peer = some id →
        Ctx.Isolated ctx (ctx.n1HandlePacket e pkt path sender) i id) ∧
      (∀ i, ctx.findBySession e pkt = none → pkt.has FLAG_PING = true →
        (ctx.peerCreate e sender path).2 = some i →
        ∃ id, ((ctx.n1HandlePacket e pkt path sender).peers i).peer = some id ∧
          Ctx.Isolated ctx (ctx.n1HandlePacket e pkt path sender) i id) ∧
      (ctx.findBySession e pkt = none →
        (pkt.has FLAG_PING = true → (ctx.peerCreate e sender path).2 = none) →
        (ctx.n1HandlePacket e pkt path sender).log = ctx.log ∧
        ∀ i, (ctx.n1HandlePacket e pkt path sender).peers i = ctx.peers i ∨
          (ctx.peers i).active = false ∧
            ((ctx.n1HandlePacket e pkt path sender).peers i).active = false)) ∧
    (∀ session arrivals, Run.Meets (Ctx.arrive e) (Ctx.Room e) (Ctx.opened e) arrivals →
      Ctx.eventsOfSession e session (Ctx.opened e) arrivals =
        Ctx.eventsOfSession e session (Ctx.opened e)
          (arrivals.filter fun a => a.pkt.session = session)) ∧
    ∀ actions path sender pkt,
      let ctx := List.foldl (Ctx.act e) (Ctx.opened e) actions
      ctx.step e (.packet path sender pkt) =
        ctx.arrive e ⟨path, sender, pkt, e.readings.upon ctx.tick⟩ := by
  refine ⟨fun ctx pkt path sender => ⟨?_, ?_, ?_⟩, fun session arrivals hroom => ?_, ?_⟩
  · intro i id hfind hid
    exact Ctx.n1HandlePacket_isolated hfind hid path sender
  · intro i hfind hping hsome
    exact Ctx.n1HandlePacket_created hfind hping hsome
  · intro hfind hnone
    exact Ctx.n1HandlePacket_unknown hfind hnone
  · refine Ctx.eventsOfSession_alone hlex hkind hint Ctx.opened_kept Ctx.opened_kept ?_ arrivals hroom
    exact .absent (fun _ _ hon => absurd hon Bool.false_ne_true) fun _ _ => rfl
  · intro actions path sender pkt
    exact Ctx.step_eq_arrive hlex hkind (Ctx.acts_resting hlex hkind actions).table path sender pkt

-- Two clients in turn. Each is told the three events it would be told alone.
theorem n1_peers_isolated_sample :
    let e := Env.sample .unicastBidirN1
    let r := e.readings
    let join : Arrival := ⟨0, .source, .samplePing 7, r⟩
    let other : Arrival := ⟨0, .other, Packet.buildPing ⟨1, 6, 9, 0⟩ 0 [2, 2, 0, 0], r⟩
    let data : Arrival := ⟨0, .source, .sampleData 7 [⟨0, [1]⟩], r⟩
    Run.Meets (Ctx.arrive e) (Ctx.Room e) (Ctx.opened e) [join, other, data] ∧
      Ctx.eventsOfSession e (Packet.samplePing 7).session (Ctx.opened e) [join, other, data] =
        Ctx.eventsOfSession e (Packet.samplePing 7).session (Ctx.opened e) [join, data] ∧
      (Ctx.eventsOfSession e (Packet.samplePing 7).session (Ctx.opened e) [join, data]).length = 3 := by
  intro e r join other data
  have hroom : Run.Meets (Ctx.arrive e) (Ctx.Room e) (Ctx.opened e) [join, other, data] := by
    decide +kernel
  refine ⟨hroom, ?_, by decide +kernel⟩
  exact (n1_peers_isolated (e := Env.sample .unicastBidirN1) Cplat.reference_cmpLex rfl (by decide)).2.1
    _ _ hroom

end Porter
