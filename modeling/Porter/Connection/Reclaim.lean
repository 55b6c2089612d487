import Porter.Connection.Table
import Porter.Connection.Timeout

namespace Porter

namespace Slot

section

variable {e : Env} {slot : Slot}

private theorem peerPathLoops_heard (nowTs : Timespec) (l : List Path) (acc : Slot × Bool) :
    (l.foldl (peerPathLoop e nowTs) acc).1.active = acc.1.active ∧
      (l.foldl (peerPathLoop e nowTs) acc).1.lastRecvTs = acc.1.lastRecvTs := by
  refine Run.foldl_preserves (P := fun acc' : Slot × Bool =>
    acc'.1.active = acc.1.active ∧ acc'.1.lastRecvTs = acc.1.lastRecvTs) ?_ ⟨rfl, rfl⟩ l
  intro acc' k hacc
  unfold peerPathLoop
  split <;> exact hacc

private theorem syncPathStateLocked_heard (slot : Slot) (states : Path → Bool) :
    (slot.syncPathStateLocked e states).active = slot.active ∧
      (slot.syncPathStateLocked e states).lastRecvTs = slot.lastRecvTs := by
  unfold syncPathStateLocked callbackEmits
  split <;> exact ⟨rfl, rfl⟩

private theorem peerFree_heard (slot : Slot) :
    slot.peerFree.active = false ∧ slot.peerFree.lastRecvTs = slot.lastRecvTs := by
  unfold peerFree
  split
  · exact ⟨rfl, rfl⟩
  · rename_i hoff
    exact ⟨by simpa using hoff, rfl⟩

-- A check leaves last_recv_ts alone. It releases a connected peer that was heard of, but not
-- within the timeout, and no other.
theorem healthCheckPeer_released (nowTs : Timespec) (hactive : slot.active = true) :
    (slot.healthCheckPeer e nowTs).lastRecvTs = slot.lastRecvTs ∧
    ((slot.healthCheckPeer e nowTs).active = false ↔
      slot.healthAlive = true ∧ slot.lastRecvTs.tvSec ≠ 0 ∧
        (e.healthTimeoutMs : Int) ≤ e.plat.timespecDiffMs nowTs slot.lastRecvTs) := by
  obtain ⟨hloopActive, hloopHeard⟩ := peerPathLoops_heard nowTs paths (slot, false)
  unfold healthCheckPeer
  rw [hactive]
  cases halive : slot.healthAlive with
  | false => simp [hactive]
  | true =>
    simp only [Bool.true_eq_false, decide_false, Bool.or_self, Bool.false_eq_true, if_false,
      true_and]
    generalize paths.foldl (peerPathLoop e nowTs) (slot, false) = looped at hloopActive hloopHeard ⊢
    have hsynced : (if looped.2 = true then looped.1.syncPathState e else looped.1).active = true ∧
        (if looped.2 = true then looped.1.syncPathState e else looped.1).lastRecvTs =
          slot.lastRecvTs := by
      split
      · obtain ⟨hon, hheard⟩ := syncPathStateLocked_heard looped.1 (looped.1.nextPathStates e)
        exact ⟨hon.trans (hloopActive.trans hactive), hheard.trans hloopHeard⟩
      · exact ⟨hloopActive.trans hactive, hloopHeard⟩
    generalize (if looped.2 = true then looped.1.syncPathState e else looped.1) = synced at hsynced ⊢
    obtain ⟨hon, hheard⟩ := hsynced
    rw [← hheard]
    split
    · rename_i hzero
      simp [hon, hzero]
    · rename_i hsec
      split
      · rename_i hlate
        obtain ⟨hoff, hkept⟩ := peerFree_heard (disconnectAllPaths e
          { synced with remotePathPingState := fun _ => PING_STATE_UNDEFINED })
        refine ⟨hkept.trans (syncPathStateLocked_heard _ _).2, ?_⟩
        exact ⟨fun _ => ⟨hsec, hlate⟩, fun _ => hoff⟩
      · rename_i hlate
        simp [hon, hlate]

theorem heard_stable {path : Path} {sender : Endpoint} (start : Nat) :
    Stable e path sender fun slot => start ≤ slot.tick ∧ e.Shown slot.tick slot.lastRecvTs where
  emits _ _ h := h
  inner := by
    intro slot slot' h hlinks _ _ _ htick
    refine ⟨h.1.trans htick, ?_⟩
    rw [show slot'.lastRecvTs = slot.lastRecvTs from congrArg Links.lastRecvTs hlinks]
    exact h.2.mono htick
  sync _ h := h
  pings _ _ h := h
  heard _ _ hshown h := ⟨h.1, hshown⟩
  learn := by
    intro slot h
    unfold learnSenderPath
    dsimp only
    repeat' split
    all_goals exact h
  clear _ _ h := h
  free := by
    intro slot h
    unfold peerFree
    split <;> exact h
  dedup _ _ h := h

end

end Slot

namespace Ctx

-- The times at which the peers in use were last heard of lie in the past.
structure Heard (e : Env) (ctx : Ctx) : Prop where
  shown : ∀ i < e.maxPeers, (ctx.peers i).active = true → e.Shown ctx.tick (ctx.peers i).lastRecvTs

section

variable {e : Env} {S : Endpoint → Prop} {ctx ctx' : Ctx} {i : Nat}

private theorem Heard.store (h : ctx.Heard e) {slot : Slot} (htick : ctx.tick ≤ slot.tick)
    (hslot : e.Shown slot.tick slot.lastRecvTs) (nextPeerId : UInt32) :
    (Ctx.store { ctx with nextPeerId := nextPeerId } i slot).Heard e := by
  refine ⟨fun j hj hon => ?_⟩
  by_cases hji : j = i
  · subst hji
    rw [store_peers_self] at hon ⊢
    exact hslot
  · rw [store_peers_of_ne hji] at hon ⊢
    exact (h.shown j hj hon).mono htick

theorem Rewrite.heard (h : Rewrite e S ctx ctx') (hctx : ctx.Heard e) : ctx'.Heard e := by
  cases h with
  | idle ctx' _ hcount htick hpeers =>
    refine ⟨fun i hi hon => ?_⟩
    have heq := eq_of_idle hpeers hon
    rw [heq] at hon ⊢
    exact (hctx.shown i hi hon).mono htick
  | used i slot path sender hi hactive hsender hslot =>
    obtain ⟨htick, hshown⟩ := hslot (Slot.heard_stable ctx.tick)
      ⟨le_rfl, hctx.shown i hi hactive⟩
    exact hctx.store htick hshown ctx.nextPeerId
  | joined i fresh slot path sender peerId sessionId nextPeerId sessionTs hi hfree hsender hna hall
      hfresh _ hcount htick hslot =>
      have hnever : fresh.lastRecvTs = ⟨0, 0⟩ := congrArg PeerContext.lastRecvTs hfresh
      obtain ⟨htick', hshown⟩ := hslot (Slot.heard_stable ctx.tick)
        ⟨htick, .inl (congrArg Timespec.tvSec hnever)⟩
      exact hctx.store htick' hshown nextPeerId

theorem acts_heard (actions : List Action) :
    (actions.foldl (act e) (opened e)).Heard e :=
  acts_preserve (lasting_any Endpoint.clear) ⟨fun _ _ hon => absurd hon Bool.false_ne_true⟩
    (fun _ _ h hctx => h.heard hctx) fun _ sender _ _ => lasting_any sender

-- An action without a packet of the peer: it was there before, and was last heard of then.
theorem act_quiet (hlex : e.plat.CmpLex) (hkind : e.type = .unicastBidirN1) (ht : Table e ctx)
    (action : Action) (hi : i < e.maxPeers) (hon : ((ctx.act e action).peers i).active = true)
    (hquiet : ∀ path sender pkt, action = .recv (.packet path sender pkt) →
      pkt.session ≠ (ctx.act e action).session i) :
    (ctx.peers i).active = true ∧ (ctx.act e action).session i = ctx.session i ∧
      ((ctx.act e action).peers i).lastRecvTs = (ctx.peers i).lastRecvTs := by
  have hstays := fun hactive => (act_stays hlex ht action hi hactive).2
  have hjoined : ∀ path sender pkt, action = .recv (.packet path sender pkt) →
      (ctx.peers i).active = true := by
    rintro path sender pkt rfl
    by_contra hfree
    have heq : ctx.act e (.recv (.packet path sender pkt)) = if e.nPath ≤ path.val then ctx else
      ctx.n1HandlePacket e pkt path sender := rfl
    have hother := hquiet path sender pkt rfl
    rw [heq] at hon hother
    split at hon
    · exact hfree hon
    · rename_i hpath
      rw [if_neg hpath] at hother
      exact hother (n1HandlePacket_joined hlex hkind ctx pkt path sender (by simpa using hfree) hon).symm
  have hbecomes := act_becomes ctx action hi
  generalize hpeer : (ctx.act e action).peers i = peer at hbecomes hon ⊢
  cases hbecomes with
  | kept => exact ⟨hon, hstays hon, rfl⟩
  | unused _ _ _ hoff => exact absurd (hoff.symm.trans hon) Bool.false_ne_true
  | packet path sender pkt hfind hactive =>
    refine absurd ?_ (hquiet path sender pkt rfl)
    rw [hstays hactive]
    exact (findBySession_some hlex hfind).2.2.symm
  | checked mid hmid hactive =>
    refine ⟨hactive, hstays hactive, ?_⟩
    rw [← hmid]
    exact (Slot.healthCheckPeer_released _ (hmid ▸ hactive)).1
  | created path sender pkt hfree =>
    exact absurd ((hjoined path sender pkt rfl).symm.trans hfree) Bool.noConfusion
  | closed =>
    rw [(Slot.peerFree_heard _).1] at hon
    cases hon

-- The peer in slot `i` has been silent for the timeout when the next check comes: `after` brought
-- no packet of it, and all that the clock had shown by then is that long ago.
structure Silent (e : Env) (before after : List Action) (i : Nat) : Prop where
  quiet : ∀ path sender pkt, Action.recv (.packet path sender pkt) ∈ after →
    pkt.session ≠ ((before ++ after).foldl (act e) (opened e)).session i
  elapsed : ∀ n < (before.foldl (act e) (opened e)).tick, (e.healthTimeoutMs : Int) ≤
    e.plat.timespecDiffMs (e.plat.clock ((before ++ after).foldl (act e) (opened e)).tick)
      (e.plat.clock n)

-- By induction from the last action on: a silent peer was there when the silence began.
theorem quiet_since (hlex : e.plat.CmpLex) (hkind : e.type = .unicastBidirN1)
    (before after : List Action) (hi : i < e.maxPeers)
    (hon : (((before ++ after).foldl (act e) (opened e)).peers i).active = true)
    (hquiet : ∀ path sender pkt, Action.recv (.packet path sender pkt) ∈ after →
      pkt.session ≠ ((before ++ after).foldl (act e) (opened e)).session i) :
    ((before.foldl (act e) (opened e)).peers i).active = true ∧
      (((before ++ after).foldl (act e) (opened e)).peers i).lastRecvTs =
        ((before.foldl (act e) (opened e)).peers i).lastRecvTs := by
  induction after using List.reverseRecOn with
  | nil =>
    rw [List.append_nil] at hon ⊢
    exact ⟨hon, rfl⟩
  | append_singleton after action ih =>
    rw [← List.append_assoc, List.foldl_concat] at hon hquiet ⊢
    have ht := (acts_resting hlex hkind (before ++ after)).table
    obtain ⟨hbefore, hsession, hheard⟩ := act_quiet hlex hkind ht action hi hon
      (fun path sender pkt heq => hquiet path sender pkt (by simp [heq]))
    rw [hsession] at hquiet
    rw [hheard]
    exact ih hbefore fun path sender pkt hmem => hquiet path sender pkt (List.mem_append_left _ hmem)

end

end Ctx

-- A peer of an N:1 service from which nothing has come for the timeout is released by the next
-- check exactly when it is connected and the clock showed a second when it was last heard of.
theorem silent_peer_released_iff {e : Env} (hlex : e.plat.CmpLex) (hkind : e.type = .unicastBidirN1)
    (htimeout : 0 < e.healthTimeoutMs) (before after : List Ctx.Action) (i : Nat)
    (hi : i < e.maxPeers) :
    let ctx := (before ++ after).foldl (Ctx.act e) (Ctx.opened e)
    (ctx.peers i).active = true → Ctx.Silent e before after i →
      (((ctx.healthCheckPeers e).peers i).active = false ↔
        (ctx.peers i).healthAlive = true ∧ (ctx.peers i).lastRecvTs.tvSec ≠ 0) := by
  intro ctx hactive hsilent
  obtain ⟨hbefore, hheard⟩ := Ctx.quiet_since hlex hkind before after hi hactive hsilent.quiet
  rcases Ctx.healthCheckPeers_peer ctx hi with ⟨hzero, -⟩ | ⟨mid, hmid, hchecked⟩
  · omega
  · have hon : mid.active = true := (congrArg PeerContext.active hmid).trans hactive
    rw [hchecked, (Slot.healthCheckPeer_released _ hon).2, ← hmid]
    refine ⟨fun h => ⟨h.1, h.2.1⟩, fun h => ⟨h.1, h.2, ?_⟩⟩
    have hlast : mid.lastRecvTs = ((before.foldl (Ctx.act e) (Ctx.opened e)).peers i).lastRecvTs :=
      (congrArg PeerContext.lastRecvTs hmid).trans hheard
    rcases (Ctx.acts_heard before).shown i hi hbefore with hzero | ⟨n, hn, hshown⟩
    · exact absurd (hlast ▸ hzero) h.2
    · rw [hlast, hshown]
      exact hsilent.elapsed n hn

-- A client that was connected and has not been heard of for a second.
theorem silent_peer_released_iff_sample :
    let e := Env.sampleTimed .unicastBidirN1 1
    let ctx := List.foldl (Ctx.act e) (Ctx.opened e) [.recv (.sample (.samplePing 7))]
    (ctx.peers 0).active = true ∧ ((ctx.healthCheckPeers e).peers 0).active = false := by
  intro e ctx
  have hactive : (ctx.peers 0).active = true := by decide +kernel
  have hsilent : Ctx.Silent e [.recv (.sample (.samplePing 7))] [] 0 :=
    ⟨fun _ _ _ hmem => absurd hmem List.not_mem_nil, by decide +kernel⟩
  exact ⟨hactive, (silent_peer_released_iff (Env.sampleTimed_cmpLex .unicastBidirN1 1) rfl (by decide)
    [.recv (.sample (.samplePing 7))] [] 0 (by decide) hactive hsilent).mpr (by decide +kernel)⟩

-- A client that never heard our PINGs and one that sent a REJECT fill the table for good: the
-- checks pass over both, and a third client is turned away.
theorem silent_peers_stay :
    let e := Env.sampleTimed .unicastBidirN1 1
    let before : List Ctx.Action := [.recv (.sample (Packet.buildPing ⟨1, 6, 9, 0⟩ 7 [0, 0, 0, 0])),
      .recv (.sample (.samplePing 7)), .recv (.sample (Packet.buildReject Packet.sampleSession 6))]
    let polls : List Ctx.Action := [.recv .pollTimeout, .recv .pollTimeout]
    let ctx := (before ++ polls).foldl (Ctx.act e) (Ctx.opened e)
    let third := ctx.act e (.recv (.sample (Packet.buildPing ⟨1, 8, 9, 0⟩ 7 [0, 0, 0, 0])))
    Ctx.Silent e before polls 0 ∧ Ctx.Silent e before polls 1 ∧
      ((ctx.healthCheckPeers e).peers 0).active = true ∧
      ((ctx.healthCheckPeers e).peers 1).active = true ∧
      third.findBySession e (Packet.buildPing ⟨1, 8, 9, 0⟩ 7 [0, 0, 0, 0]) = none := by
  refine ⟨⟨?_, by decide +kernel⟩, ⟨?_, by decide +kernel⟩, by decide +kernel, by decide +kernel,
    by decide +kernel⟩
  all_goals
    intro path sender pkt hmem
    simp at hmem

end Porter
