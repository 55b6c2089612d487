import Porter.Connection.Events
import Porter.Connection.Rest

namespace Porter.Slot

open View

section

variable {e : Env} {slot : Slot}

private theorem peerPathLoops_unchanged (nowTs : Timespec) (l : List Path) (acc : Slot × Bool) :
    (l.foldl (peerPathLoop e nowTs) acc).1.remotePathPingState = acc.1.remotePathPingState ∧
      (l.foldl (peerPathLoop e nowTs) acc).1.tcpConnFd = acc.1.tcpConnFd ∧
      ((l.foldl (peerPathLoop e nowTs) acc).2 = false → acc.2 = false ∧
        (l.foldl (peerPathLoop e nowTs) acc).1.pathPingState = acc.1.pathPingState) := by
  induction l generalizing acc with
  | nil => exact ⟨rfl, rfl, fun h => ⟨h, rfl⟩⟩
  | cons k rest ih =>
    obtain ⟨hremote, htcp, hflag⟩ := ih (peerPathLoop e nowTs acc k)
    rw [List.foldl_cons]
    generalize rest.foldl (peerPathLoop e nowTs) (peerPathLoop e nowTs acc k) = acc'
      at hremote htcp hflag ⊢
    by_cases hout : (!(acc.1.destAddr k).isUnset &&
        pathTimedOut e nowTs (acc.1.pathLastRecvTs k)) = true
    · have hstep : peerPathLoop e nowTs acc k =
          ((acc.1.setPathPingState k PING_STATE_ABNORMAL).peerPathClear k,
            acc.2 || acc.1.pathPingState k != PING_STATE_ABNORMAL) := if_pos hout
      rw [hstep] at hremote htcp hflag
      refine ⟨hremote, htcp, fun hoff => ?_⟩
      obtain ⟨hmid, hkept⟩ := hflag hoff
      obtain ⟨hacc, hstate⟩ := Bool.or_eq_false_iff.mp hmid
      have hwas : acc.1.pathPingState k = PING_STATE_ABNORMAL := by simpa using hstate
      refine ⟨hacc, hkept.trans ?_⟩
      rw [← hwas]
      exact Function.update_eq_self ..
    · have hstep : peerPathLoop e nowTs acc k = acc := if_neg hout
      rw [hstep] at hremote htcp hflag
      exact ⟨hremote, htcp, hflag⟩

theorem healthCheckPeer_rest (nowTs : Timespec) (h : Rest e slot)
    (hknown : slot.peerSessionKnown = true) (hpeer : slot.peer.isSome = true)
    (hused : (slot.healthCheckPeer e nowTs).Used) : Rest e (slot.healthCheckPeer e nowTs) := by
  rcases healthCheckPeer_cases nowTs slot with heq | ⟨-, -, heq⟩
  · rwa [heq]
  obtain ⟨hremote, htcp, hflag⟩ := peerPathLoops_unchanged nowTs paths (slot, false)
  have hconn := (peerPathLoops_conn (e := e) nowTs (slot, false) paths).1
  have hview := view_peerLooped (e := e) nowTs slot
  -- Settled again, whether or not a path has changed.
  have hsynced : Rest e (slot.peerSynced e nowTs) ∧ (slot.peerSynced e nowTs).peer = slot.peer := by
    unfold peerSynced peerLooped at *
    generalize paths.foldl (peerPathLoop e nowTs) (slot, false) = looped
      at hremote htcp hflag hconn hview ⊢
    have hloopedPeer : looped.1.peer = slot.peer := congrArg Conn.peer hconn
    unfold syncLooped
    split
    · obtain ⟨evs, -, hv⟩ := view_syncPathStateLocked looped.1 (looped.1.nextPathStates e)
      rw [hview] at hv
      have hcore := (congrArg View.core hv).trans (synced_core _ evs)
      exact ⟨⟨syncPathState_settled _, fun _ => (known_of_core hcore).trans hknown,
        fin_of_core hcore h.fin⟩, (congrArg View.peer hv).trans (synced_peer _ evs)⟩
    · rename_i hno
      have hkept := (hflag (by simpa using hno)).2
      have hnext : looped.1.nextPathStates e = slot.nextPathStates e := by
        funext k
        rw [nextPathStates_apply, nextPathStates_apply, hloopedPeer, hremote, htcp, hkept]
      refine ⟨⟨?_, fun _ => (congrArg View.known hview).trans hknown,
        fin_of_core (congrArg View.core hview) h.fin⟩, hloopedPeer⟩
      rw [hnext, ← h.settled]
      exact congrArg Conn.states hconn
  rcases heq with heq | heq
  · rw [heq]
    exact hsynced.1
  · -- The peer is released.
    exfalso
    rw [heq] at hused
    generalize slot.peerSynced e nowTs = synced at hsynced hused
    have hfree : (synced.peerTimeout e).view e = _ := view_peerFree _
    rcases hused with hnone | hactive
    · have hkeep := (disconnectAllPaths_turns (e := e)
        { synced with remotePathPingState := fun _ => PING_STATE_UNDEFINED }).peer_eq
      have hpeer' := (congrArg View.peer hfree).symm.trans hnone
      rw [show slot.peer = none from hsynced.2.symm.trans (hkeep.symm.trans hpeer')] at hpeer
      cases hpeer
    · exact Bool.false_ne_true ((congrArg View.active hfree).symm.trans hactive)

end

end Porter.Slot

namespace Porter.Ctx

open View

-- All that is known of a reachable state of an N:1 service.
structure Resting (e : Env) (ctx : Ctx) : Prop where
  table : Table e ctx
  alive : ∀ i < e.maxPeers, (ctx.peers i).active = true →
    (ctx.peers i).healthAlive = Slot.anyPathAlive (ctx.peers i).pathLogicalAlive
  rest : ∀ i < e.maxPeers, (ctx.peers i).active = true → Slot.Rest e (ctx.slotInitPeer i)

section

variable {e : Env} {ctx ctx' : Ctx} {i : Nat}

theorem rest_of_toPeerContext {slot slot' : Slot} (h : Slot.Rest e slot)
    (hsame : slot'.toPeerContext = slot.toPeerContext) : Slot.Rest e slot' := by
  obtain ⟨ctx, tick, nPeers, log⟩ := slot
  obtain ⟨ctx', tick', nPeers', log'⟩ := slot'
  obtain rfl : ctx' = ctx := hsame
  exact ⟨h.settled, h.known, h.fin⟩

theorem Resting.of_idle (h : Resting e ctx) (hpeers : ∀ j, ctx'.peers j = ctx.peers j ∨
    (ctx.peers j).active = false ∧ (ctx'.peers j).active = false) : Resting e ctx' := by
  have hsame : ∀ j, (ctx'.peers j).active = true → ctx'.peers j = ctx.peers j := by
    intro j hactive
    rcases hpeers j with heq | ⟨-, hfree⟩
    · exact heq
    · rw [hfree] at hactive
      cases hactive
  refine ⟨h.table.of_idle hpeers, fun j hj hactive => ?_, fun j hj hactive => ?_⟩
  · have heq := hsame j hactive
    rw [heq] at hactive ⊢
    exact h.alive j hj hactive
  · exact rest_of_toPeerContext (h.rest j hj (hsame j hactive ▸ hactive)) (hsame j hactive)

theorem Resting.store (h : Resting e ctx) {slot : Slot} (ht : Table e (ctx.store i slot))
    (halive : slot.healthAlive = Slot.anyPathAlive slot.pathLogicalAlive)
    (hrest : slot.active = true → Slot.Rest e slot) : Resting e (ctx.store i slot) := by
  refine ⟨ht, fun j hj hactive => ?_, fun j hj hactive => ?_⟩
  · by_cases hji : j = i
    · subst hji
      rw [store_peers_self]
      exact halive
    · rw [store_peers_of_ne hji] at hactive ⊢
      exact h.alive j hj hactive
  · by_cases hji : j = i
    · subst hji
      rw [store_peers_self] at hactive
      rw [slotInitPeer_store_self]
      exact hrest hactive
    · rw [store_peers_of_ne hji] at hactive
      exact rest_of_toPeerContext (h.rest j hj hactive) (store_peers_of_ne hji slot)

theorem Resting.store_used (hlex : e.plat.CmpLex) (h : Resting e ctx) {cur : Option Packet}
    {acts : List Act} {slot : Slot} (hi : i < e.maxPeers) (hactive : (ctx.peers i).active = true)
    (hcur : ∀ pkt, cur = some pkt → ctx.session i = pkt.session)
    (hmoves : Moves e cur (((ctx.slotInitPeer i).view e).emits acts) (slot.view e))
    (hok : Slot.Ok e slot) (hturns : Slot.Turns e (ctx.slotInitPeer i) slot)
    (hrest : slot.active = true → Slot.Rest e slot) : Resting e (ctx.store i slot) := by
  obtain ⟨hpeer, hknown, hsession⟩ := slot_stays hlex h.table hi hactive hcur hmoves
  exact h.store (h.table.store_same hi hactive hok hpeer hknown hsession)
    (hturns.alive_eq (h.alive i hi hactive)) hrest

theorem n1HandlePacket_resting (hlex : e.plat.CmpLex) (hkind : e.type = .unicastBidirN1)
    (h : Resting e ctx) (pkt : Packet) (path : Path) (sender : Endpoint) :
    Resting e (ctx.n1HandlePacket e pkt path sender) := by
  have ht := h.table
  have hhandled := n1HandlePacket_handled (e := e) ctx pkt path sender
  generalize ctx.n1HandlePacket e pkt path sender = ctx' at hhandled ⊢
  cases hhandled with
  | found j hfind =>
    obtain ⟨hj, hactive, hsession⟩ := findBySession_some hlex hfind
    have hok := Slot.emit_ok (ht.ok j hj hactive) (.recv pkt)
    obtain ⟨hmoves, hok'⟩ := Slot.dispatchPacket_moves hlex pkt path sender hok
      (Slot.recv_early pkt) (.inr hactive)
    have hrecv := Slot.emit_beside (ctx.slotInitPeer j) (rfl : (Act.recv pkt).isEvent = false)
    have hlive : Slot.Live e ((ctx.slotInitPeer j).emit (.recv pkt)) :=
      ⟨fun _ => hkind, .inr hactive⟩
    refine h.store_used hlex hj hactive
      (fun pkt' hpkt => (Option.some.inj hpkt) ▸ hsession) hmoves hok'
      (hrecv.turns.trans (Slot.dispatchPacket_turns _ pkt path sender hlive)) fun hused => ?_
    have hr : Slot.Rest e ((ctx.slotInitPeer j).emit (.recv pkt)) :=
      (h.rest j hj hactive).of_links hrecv.links id (h.rest j hj hactive).fin
    exact Slot.dispatchPacket_rest hlex hr hok pkt path sender (.inr hused)
  | idle ctx' _ hpeers => exact h.of_idle hpeers
  | created j peerId nextPeerId fresh hfind _ _ _ hid hfresh _ hslot =>
    have hcut : Slot.Cut fresh := by
      obtain ⟨_, _, _, hslot⟩ := hslot
      unfold Slot.Cut
      rw [hslot]
      exact ⟨rfl, rfl, rfl⟩
    have hjoined := Slot.adoptSession_beside (e := e) (fresh.emit (.recv pkt)) pkt
    have hlive : Slot.Live e ((fresh.emit (.recv pkt)).adoptSession e pkt) :=
      ⟨fun _ => hkind, .inr hfresh.active⟩
    have hok := adopted_ok hkind fresh pkt
    have hturns := Slot.dispatchPacket_turns _ pkt path sender hlive
    obtain ⟨hmoves, hok'⟩ := Slot.dispatchPacket_moves hlex pkt path sender hok
      (adopted_early fresh pkt) (.inr hfresh.active)
    have hpeer : ((fresh.emit (.recv pkt)).adoptSession e pkt).peer ≠ none := by
      change fresh.peer ≠ none
      rw [hfresh.peer]
      exact Option.some_ne_none peerId
    obtain ⟨hknown, hsess⟩ := Moves.session_eq hlex hmoves hpeer rfl
      (fun pkt' hpkt => congrArg Packet.session (Option.some.inj hpkt))
    have hsame : (((fresh.emit (.recv pkt)).adoptSession e pkt).dispatchPacket e pkt path
        sender).peer = some peerId := (Moves.peer_eq hmoves).trans hfresh.peer
    have hbase : Resting e { ctx with nextPeerId := nextPeerId } := h.of_idle fun _ => .inl rfl
    refine hbase.store ?_ (hturns.alive_eq ?_) fun hused => ?_
    · refine hbase.table.store hok' (by rw [hsame]; exact Option.some_ne_none peerId) hknown
        (fun k hk _ hactive _ heq => ?_) (fun k hk _ hactive _ heq => ?_)
      · exact findBySession_none hlex hfind k hk hactive (heq.trans hsess)
      · exact hid k hk hactive (heq.trans hsame)
    · change fresh.healthAlive = Slot.anyPathAlive fresh.pathLogicalAlive
      rw [hcut.2.1, hcut.2.2, Slot.anyPathAlive_false]
    · refine Slot.dispatchPacket_rest hlex ?_ hok pkt path sender (.inr hused)
      exact Slot.Cut.rest (hcut.of_links hjoined.links) fun hp => absurd hp Bool.false_ne_true

theorem healthCheckPeers_resting (hlex : e.plat.CmpLex) (h : Resting e ctx) :
    Resting e (ctx.healthCheckPeers e) := by
  unfold healthCheckPeers
  have hticked : Resting e { ctx with tick := ctx.tick + 1 } := h.of_idle fun _ => .inl rfl
  split
  · exact hticked
  refine Run.foldl_preserves_of_mem (P := fun ctx' => Resting e ctx') ?_ hticked
  intro ctx' j hj hctx
  have hlt := List.mem_range.mp hj
  by_cases hactive : (ctx'.peers j).active = true
  · have hok := hctx.table.ok j hlt hactive
    have hpeer : (ctx'.slotInitPeer j).peer.isSome = true :=
      Option.isSome_iff_ne_none.mpr (hctx.table.peer j hlt hactive)
    obtain ⟨hmoves, hhead⟩ := (Slot.healthCheckPeer_moves (e.plat.clock ctx.tick) hpeer hok.head :
      Moves e none _ _ ∧ _)
    have hok' : Slot.Ok e ((ctx'.slotInitPeer j).healthCheckPeer e (e.plat.clock ctx.tick)) :=
      ⟨Moves.inv hmoves hok.inv, hhead⟩
    rw [← emits_nil ((ctx'.slotInitPeer j).view e)] at hmoves
    exact hctx.store_used hlex hlt hactive (fun pkt hpkt => by simp at hpkt) hmoves hok'
      (Slot.healthCheckPeer_turns _ _ hpeer) fun hused =>
        Slot.healthCheckPeer_rest _ (hctx.rest j hlt hactive) (hctx.table.known j hlt hactive) hpeer
          (.inr hused)
  · rw [healthCheckPeer_inactive hactive]
    refine hctx.of_idle fun k => .inl ?_
    by_cases hkj : k = j
    · subst hkj
      exact store_peers_self ..
    · exact store_peers_of_ne hkj _

theorem act_resting (hlex : e.plat.CmpLex) (hkind : e.type = .unicastBidirN1) (h : Resting e ctx)
    (action : Action) : Resting e (ctx.act e action) := by
  cases action with
  | recv input =>
    cases input with
    | pollTimeout => exact healthCheckPeers_resting hlex h
    | packet path sender pkt =>
      change Resting e
        (if e.nPath ≤ path.val then ctx else ctx.n1HandlePacket e pkt path sender)
      split
      · exact h
      · exact n1HandlePacket_resting hlex hkind h pkt path sender
  | peerDisconnect peerId =>
    have ht := peerDisconnect_table h.table peerId
    change Resting e (ctx.peerDisconnect e peerId).1
    rcases peerDisconnect_cases ctx peerId with heq | ⟨j, hj, hactive, hpeer, heq⟩
    · rw [heq]
      exact h
    · rw [heq] at ht ⊢
      have hsome : (ctx.slotInitPeer j).peer.isSome = true := by
        change (ctx.peers j).peer.isSome = true
        rw [hpeer]
        rfl
      refine h.store ht ((Slot.peerDisconnect_turns _ hsome).alive_eq (h.alive j hj hactive)) ?_
      intro hused
      rw [show ((((ctx.slotInitPeer j).peerSendFin e).disconnectAllPaths e).peerFree).active =
        false from congrArg View.active (Slot.view_peerFree (e := e) _)] at hused
      cases hused

theorem acts_resting (hlex : e.plat.CmpLex) (hkind : e.type = .unicastBidirN1)
    (actions : List Action) : Resting e (actions.foldl (act e) (opened e)) :=
  Run.foldl_preserves (P := Resting e) (fun _ action h => act_resting hlex hkind h action)
    ⟨opened_table, fun _ _ h => absurd h Bool.false_ne_true,
      fun _ _ h => absurd h Bool.false_ne_true⟩ actions

private theorem healthLoop_other (nowTs : Timespec) {l : List Nat} {i : Nat} (hi : i ∉ l) (ctx : Ctx) :
    (l.foldl (fun ctx j => ctx.store j ((ctx.slotInitPeer j).healthCheckPeer e nowTs)) ctx).peers i =
      ctx.peers i := by
  induction l generalizing ctx with
  | nil => rfl
  | cons j rest ih =>
    rw [List.mem_cons, not_or] at hi
    rw [List.foldl_cons, ih hi.2, store_peers_of_ne hi.1]

theorem healthCheckPeers_peer (ctx : Ctx) {i : Nat} (hi : i < e.maxPeers) :
    e.healthTimeoutMs = 0 ∧ (ctx.healthCheckPeers e).peers i = ctx.peers i ∨
      ∃ mid : Slot, mid.toPeerContext = ctx.peers i ∧
        (ctx.healthCheckPeers e).peers i =
          (mid.healthCheckPeer e (e.plat.clock ctx.tick)).toPeerContext := by
  unfold healthCheckPeers
  split
  · exact .inl ⟨‹_›, rfl⟩
  obtain ⟨pre, post, hsplit⟩ := List.append_of_mem (List.mem_range.mpr hi)
  have hnodup : (pre ++ i :: post).Nodup := hsplit ▸ List.nodup_range
  have hparts := List.nodup_append.mp hnodup
  have hpre : i ∉ pre := fun h => hparts.2.2 i h i List.mem_cons_self rfl
  have hpost : i ∉ post := (List.nodup_cons.mp hparts.2.1).1
  rw [hsplit, List.foldl_append, List.foldl_cons, healthLoop_other _ hpost, store_peers_self]
  have hsame := healthLoop_other (e := e) (e.plat.clock ctx.tick) hpre
    { ctx with tick := ctx.tick + 1 }
  exact .inr ⟨_, hsame, rfl⟩

-- What an action makes of a slot.
inductive Becomes (e : Env) (ctx : Ctx) (i : Nat) : Action → PeerContext → Prop
  | kept (action : Action) : Becomes e ctx i action (ctx.peers i)
  | unused (action : Action) (peer : PeerContext) (hfree : (ctx.peers i).active = false)
      (hoff : peer.active = false) : Becomes e ctx i action peer
  | packet (path : Path) (sender : Endpoint) (pkt : Packet) (hfind : ctx.findBySession e pkt = some i)
      (hactive : (ctx.peers i).active = true) :
      Becomes e ctx i (.recv (.packet path sender pkt))
        (((ctx.slotInitPeer i).emit (.recv pkt)).dispatchPacket e pkt path sender).toPeerContext
  | checked (slot : Slot) (hslot : slot.toPeerContext = ctx.peers i)
      (hactive : (ctx.peers i).active = true) :
      Becomes e ctx i (.recv .pollTimeout)
        (slot.healthCheckPeer e (e.plat.clock ctx.tick)).toPeerContext
  | created (path : Path) (sender : Endpoint) (pkt : Packet) (hfree : (ctx.peers i).active = false)
      (slot : Slot) (peerId sessionId : UInt32) (sessionTs : Timespec)
      (hslot : slot.toPeerContext = freshPeer e peerId sessionId sessionTs sender path) :
      Becomes e ctx i (.recv (.packet path sender pkt))
        (((slot.emit (.recv pkt)).adoptSession e pkt).dispatchPacket e pkt path sender).toPeerContext
  | closed (peerId : UInt32) (hactive : (ctx.peers i).active = true) :
      Becomes e ctx i (.peerDisconnect peerId)
        (((ctx.slotInitPeer i).peerSendFin e).disconnectAllPaths e).peerFree.toPeerContext

theorem n1HandlePacket_becomes (ctx : Ctx) (pkt : Packet) (path : Path) (sender : Endpoint) (i : Nat) :
    Becomes e ctx i (.recv (.packet path sender pkt)) ((ctx.n1HandlePacket e pkt path sender).peers i) := by
  have hhandled := n1HandlePacket_handled (e := e) ctx pkt path sender
  generalize ctx.n1HandlePacket e pkt path sender = ctx' at hhandled ⊢
  cases hhandled with
  | found j hfind =>
    by_cases hij : i = j
    · subst hij
      rw [store_peers_self]
      exact .packet path sender pkt hfind (findBySession_active hfind).2
    · rw [store_peers_of_ne hij]
      exact .kept _
  | idle ctx' _ hpeers =>
    rcases hpeers i with hsame | ⟨hfree, hoff⟩
    · rw [hsame]
      exact .kept _
    · exact .unused _ _ hfree hoff
  | created j _ _ fresh _ _ _ hfree _ _ _ hslot =>
    by_cases hij : i = j
    · subst hij
      rw [store_peers_self]
      obtain ⟨peerId, sessionId, sessionTs, hslot⟩ := hslot
      exact .created path sender pkt hfree fresh peerId sessionId sessionTs hslot
    · rw [store_peers_of_ne hij]
      exact .kept _

theorem act_becomes (ctx : Ctx) (action : Action) {i : Nat} (hi : i < e.maxPeers) :
    Becomes e ctx i action ((ctx.act e action).peers i) := by
  cases action with
  | recv input =>
    cases input with
    | packet path sender pkt =>
      change Becomes e ctx i _ ((if e.nPath ≤ path.val then ctx else
        ctx.n1HandlePacket e pkt path sender).peers i)
      split
      · exact .kept _
      · exact n1HandlePacket_becomes ctx pkt path sender i
    | pollTimeout =>
      change Becomes e ctx i _ ((ctx.healthCheckPeers e).peers i)
      rcases healthCheckPeers_peer ctx hi with ⟨-, hsame⟩ | ⟨mid, hmid, hchecked⟩
      · rw [hsame]
        exact .kept _
      · rw [hchecked]
        by_cases hactive : (ctx.peers i).active = true
        · exact .checked mid hmid hactive
        · have hskip : mid.healthCheckPeer e (e.plat.clock ctx.tick) = mid := by
            unfold Slot.healthCheckPeer
            rw [if_pos (by simp [hmid, hactive])]
          rw [hskip, hmid]
          exact .kept _
  | peerDisconnect peerId =>
    change Becomes e ctx i _ ((ctx.peerDisconnect e peerId).1.peers i)
    rcases peerDisconnect_cases ctx peerId with heq | ⟨j, -, hactive, -, heq⟩
    · rw [heq]
      exact .kept _
    · rw [heq]
      by_cases hij : i = j
      · subst hij
        rw [store_peers_self]
        exact .closed peerId hactive
      · rw [store_peers_of_ne hij]
        exact .kept _

theorem n1HandlePacket_other (hlex : e.plat.CmpLex) {pkt : Packet} {i : Nat}
    (hactive : (ctx.peers i).active = true) (hother : ctx.session i ≠ pkt.session) (path : Path)
    (sender : Endpoint) : (ctx.n1HandlePacket e pkt path sender).peers i = ctx.peers i := by
  have hbecomes := n1HandlePacket_becomes (e := e) ctx pkt path sender i
  generalize (ctx.n1HandlePacket e pkt path sender).peers i = peer at hbecomes ⊢
  cases hbecomes with
  | kept => rfl
  | unused _ _ hfree => exact absurd (hfree.symm.trans hactive) Bool.false_ne_true
  | created _ _ _ hfree => exact absurd (hfree.symm.trans hactive) Bool.false_ne_true
  | packet _ _ _ hfind => exact absurd (findBySession_some hlex hfind).2.2 hother

theorem n1HandlePacket_joined (hlex : e.plat.CmpLex) (hkind : e.type = .unicastBidirN1)
    (ctx : Ctx) (pkt : Packet) (path : Path) (sender : Endpoint) {i : Nat}
    (hfree : (ctx.peers i).active = false)
    (hon : ((ctx.n1HandlePacket e pkt path sender).peers i).active = true) :
    (ctx.n1HandlePacket e pkt path sender).session i = pkt.session := by
  have hbecomes := n1HandlePacket_becomes (e := e) ctx pkt path sender i
  unfold session
  generalize (ctx.n1HandlePacket e pkt path sender).peers i = peer at hbecomes hon ⊢
  cases hbecomes with
  | kept => exact absurd (hfree.symm.trans hon) Bool.false_ne_true
  | unused _ _ _ hoff => exact absurd (hoff.symm.trans hon) Bool.false_ne_true
  | packet _ _ _ _ hactive => exact absurd (hfree.symm.trans hactive) Bool.false_ne_true
  | created _ _ _ _ slot peerId _ _ hslot =>
    obtain ⟨hmoves, -⟩ := Slot.dispatchPacket_moves hlex pkt path sender (adopted_ok hkind slot pkt)
      (adopted_early slot pkt) (.inr (congrArg PeerContext.active hslot))
    have hpeer : slot.peer ≠ none := by
      rw [show slot.peer = some peerId from congrArg PeerContext.peer hslot]
      exact Option.some_ne_none peerId
    exact (View.Moves.session_eq hlex hmoves hpeer rfl
      (fun pkt' hpkt => congrArg Packet.session (Option.some.inj hpkt))).2

-- The peer of a slot in use keeps its id and its session for as long as it is there.
theorem act_stays (hlex : e.plat.CmpLex) (ht : Table e ctx) (action : Action) {i : Nat}
    (hi : i < e.maxPeers) (hactive : (ctx.peers i).active = true) :
    ((ctx.act e action).peers i).peer = (ctx.peers i).peer ∧
      (ctx.act e action).session i = ctx.session i := by
  have hbecomes := act_becomes ctx action hi
  unfold session
  generalize (ctx.act e action).peers i = peer at hbecomes ⊢
  cases hbecomes with
  | kept => exact ⟨rfl, rfl⟩
  | unused _ _ hfree => exact absurd (hfree.symm.trans hactive) Bool.false_ne_true
  | created _ _ _ hfree => exact absurd (hfree.symm.trans hactive) Bool.false_ne_true
  | packet path sender pkt hfind =>
    obtain ⟨-, -, hsession⟩ := findBySession_some hlex hfind
    obtain ⟨hmoves, -⟩ := Slot.dispatchPacket_moves hlex pkt path sender
      (Slot.emit_ok (ht.ok i hi hactive) (.recv pkt)) (Slot.recv_early pkt) (.inr hactive)
    obtain ⟨hpeer, -, hstays⟩ := slot_stays hlex ht hi hactive
      (fun pkt' hpkt => (Option.some.inj hpkt) ▸ hsession) hmoves
    exact ⟨hpeer, hstays⟩
  | checked mid hmid =>
    have hok : Slot.Ok e mid := ok_of_toPeerContext (ht.ok i hi hactive) hmid
    have hknown : mid.peerSessionKnown = true :=
      (congrArg PeerContext.peerSessionKnown hmid).trans (ht.known i hi hactive)
    have hsome : mid.peer ≠ none := hmid ▸ ht.peer i hi hactive
    have hmoves : View.Moves e none (mid.view e)
        ((mid.healthCheckPeer e (e.plat.clock ctx.tick)).view e) :=
      (Slot.healthCheckPeer_moves _ (Option.isSome_iff_ne_none.mpr hsome) hok.head).1
    obtain ⟨-, hsession⟩ := View.Moves.session_eq hlex hmoves hsome hknown fun _ h => (nomatch h)
    rw [← hmid]
    exact ⟨View.Moves.peer_eq hmoves, hsession⟩
  | closed =>
    obtain ⟨acts, evs, hview⟩ := view_peerDisconnected (ctx.slotInitPeer i)
    exact ⟨(congrArg View.peer hview).trans (View.synced_peer false evs),
      (congrArg View.session hview).trans (View.synced_session false evs)⟩

end

end Porter.Ctx
