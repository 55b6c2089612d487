import Mathlib.Data.Finset.Card
import Mathlib.Data.Fintype.Fin
import Porter.Connection.Peers
import Porter.Platform
import Porter.Recv.Frame

namespace Porter

theorem Endpoint.isUnset_iff {ep : Endpoint} : ep.isUnset = true ↔ ep = Endpoint.clear := by
  obtain ⟨address, port⟩ := ep
  simp [Endpoint.isUnset, Endpoint.clear]

-- The entries of dest_addr that are in use.
def setPaths (destAddr : Path → Endpoint) : Finset Path :=
  Finset.univ.filter fun k => (destAddr k).isUnset = false

theorem setPaths_update_set {destAddr : Path → Endpoint} (k : Path) {ep : Endpoint}
    (h : ep.isUnset = false) : setPaths (Function.update destAddr k ep) = insert k (setPaths destAddr) := by
  ext j
  by_cases hj : j = k
  · subst hj
    simp [setPaths, h]
  · simp [setPaths, hj]

theorem setPaths_update_clear {destAddr : Path → Endpoint} (k : Path) :
    setPaths (Function.update destAddr k Endpoint.clear) = (setPaths destAddr).erase k := by
  ext j
  by_cases hj : j = k
  · subst hj
    simp [setPaths, Endpoint.isUnset_iff.mpr rfl]
  · simp [setPaths, hj]

-- A relation between dest_addr and n_paths that a peer keeps while packets come from `sender`.
structure Lasting (A : (Path → Endpoint) → Nat → Prop) (sender : Endpoint) : Prop where
  first : ∀ path, A (Function.update (fun _ => Endpoint.clear) path sender) 1
  port : ∀ {destAddr : Path → Endpoint} {n : Nat} (path : Path), A destAddr n →
    (destAddr path).isUnset = false →
    A (Function.update destAddr path { destAddr path with port := sender.port }) n
  learn : ∀ {destAddr : Path → Endpoint} {n : Nat} (path : Path), A destAddr n →
    (destAddr path).isUnset = true → A (Function.update destAddr path sender) (n + 1)
  clear : ∀ {destAddr : Path → Endpoint} {n : Nat} (path : Path), A destAddr n →
    (destAddr path).isUnset = false → A (Function.update destAddr path Endpoint.clear) (n - 1)

theorem lasting_any (sender : Endpoint) : Lasting (fun _ _ => True) sender :=
  ⟨fun _ => trivial, fun _ _ _ => trivial, fun _ _ _ => trivial, fun _ _ _ => trivial⟩

-- n_paths counts the entries of dest_addr in use, all of which satisfy `Q`.
def PathsCounted (Q : Endpoint → Prop) (destAddr : Path → Endpoint) (n : Nat) : Prop :=
  (∀ k, destAddr k = Endpoint.clear ∨ Q (destAddr k)) ∧ n = (setPaths destAddr).card

theorem pathsCounted_lasting {Q : Endpoint → Prop} (hset : ∀ ep, Q ep → ep.isUnset = false)
    (hport : ∀ dest src : Endpoint, Q dest → Q src → Q { dest with port := src.port })
    {sender : Endpoint} (hsender : Q sender) : Lasting (PathsCounted Q) sender := by
  have hupdate : ∀ (destAddr : Path → Endpoint) (path : Path) (ep : Endpoint),
      (∀ k, destAddr k = Endpoint.clear ∨ Q (destAddr k)) → ep = Endpoint.clear ∨ Q ep → ∀ k,
      Function.update destAddr path ep k = Endpoint.clear ∨ Q (Function.update destAddr path ep k) := by
    intro destAddr path ep hreal hep k
    by_cases hk : k = path
    · subst hk
      rwa [Function.update_self]
    · rw [Function.update_of_ne hk]
      exact hreal k
  have hmem : ∀ {destAddr : Path → Endpoint} {path : Path}, (destAddr path).isUnset = false →
      path ∈ setPaths destAddr := by
    intro destAddr path hused
    simpa [setPaths] using hused
  refine ⟨fun path => ?_, fun path h hused => ?_, fun {destAddr} _ path h hunset => ?_,
    fun path h hused => ?_⟩
  · refine ⟨hupdate _ path _ (fun _ => .inl rfl) (.inr hsender), ?_⟩
    have hnone : setPaths (fun _ => Endpoint.clear) = ∅ := by
      simp [setPaths, Endpoint.isUnset_iff.mpr rfl]
    rw [setPaths_update_set path (hset _ hsender), hnone]
    rfl
  · have hold := (h.1 path).resolve_left fun hclear => by
      rw [Endpoint.isUnset_iff.mpr hclear] at hused
      cases hused
    have hnew := hport _ _ hold hsender
    refine ⟨hupdate _ path _ h.1 (.inr hnew), ?_⟩
    rw [setPaths_update_set path (hset _ hnew), Finset.insert_eq_of_mem (hmem hused)]
    exact h.2
  · refine ⟨hupdate _ path _ h.1 (.inr hsender), ?_⟩
    have hout : path ∉ setPaths destAddr := by simpa [setPaths] using hunset
    rw [setPaths_update_set path (hset _ hsender), Finset.card_insert_of_notMem hout, ← h.2]
  · refine ⟨hupdate _ path _ h.1 (.inl rfl), ?_⟩
    rw [setPaths_update_clear, Finset.card_erase_of_mem (hmem hused), ← h.2]

namespace Slot

-- The slot of the peer `id` beside `others` further peers: n_peers counts it while it is in use.
structure Seated (A : (Path → Endpoint) → Nat → Prop) (others : Nat) (id : UInt32) (slot : Slot) :
    Prop where
  peer : slot.peer = some id
  among : slot.nPeers = others + if slot.active then 1 else 0
  dests : A slot.destAddr slot.nPaths

section

variable {e : Env} {path : Path} {sender : Endpoint} {A : (Path → Endpoint) → Nat → Prop}
  {others : Nat} {id : UInt32} {slot slot' : Slot}

theorem Seated.of_links (h : slot.Seated A others id) (hlinks : slot'.links = slot.links)
    (hpeers : slot'.nPeers = slot.nPeers) : slot'.Seated A others id := by
  refine ⟨(congrArg (fun l => l.toConn.peer) hlinks).trans h.peer, ?_, ?_⟩
  · rw [hpeers, h.among, show slot'.active = slot.active from congrArg (fun l => l.toConn.active) hlinks]
  · rw [show slot'.destAddr = slot.destAddr from congrArg Links.destAddr hlinks,
      show slot'.nPaths = slot.nPaths from congrArg Links.nPaths hlinks]
    exact h.dests

theorem Seated.learn (hA : Lasting A sender) (h : slot.Seated A others id) :
    (slot.learnSenderPath e path sender).Seated A others id := by
  have hsome : slot.peer.isSome = true := by
    rw [h.peer]
    rfl
  unfold learnSenderPath
  rw [if_pos hsome]
  by_cases hset : (slot.destAddr path).isUnset = true
  · rw [if_neg (by simp [hset])]
    exact ⟨h.peer, h.among, hA.learn path h.dests hset⟩
  · rw [if_pos (by simpa using hset)]
    exact ⟨h.peer, h.among, hA.port path h.dests (by simpa using hset)⟩

theorem Seated.free (h : slot.Seated A others id) : slot.peerFree.Seated A others id := by
  unfold peerFree
  split
  · rename_i hactive
    refine ⟨h.peer, ?_, h.dests⟩
    have hamong := h.among
    rw [if_pos hactive] at hamong
    simp [hamong]
  · exact h

theorem seated_stable (hA : Lasting A sender) : Stable e path sender (Seated A others id) where
  emits _ _ h := h.of_links rfl rfl
  inner h hlinks hpeers _ _ _ := h.of_links hlinks hpeers
  sync _ h := ⟨h.peer, h.among, h.dests⟩
  pings _ _ h := ⟨h.peer, h.among, h.dests⟩
  heard _ _ _ h := ⟨h.peer, h.among, h.dests⟩
  learn h := h.learn hA
  clear k hset h := ⟨h.peer, h.among, hA.clear k h.dests hset⟩
  free h := h.free
  dedup _ _ h := h.of_links rfl rfl

end

end Slot

namespace Ctx

-- What the actions do to the table, in terms of single writes to its slots: to the slot of a
-- peer in use, to the slot of a new peer, or to nothing a peer in use can see.
inductive Rewrite (e : Env) (S : Endpoint → Prop) (ctx : Ctx) : Ctx → Prop
  | idle (ctx' : Ctx) (hlog : ctx'.log = ctx.log) (hcount : ctx'.nPeers = ctx.nPeers)
      (htick : ctx.tick ≤ ctx'.tick)
      (hpeers : ∀ i, ctx'.peers i = ctx.peers i ∨
        (ctx.peers i).active = false ∧ (ctx'.peers i).active = false) : Rewrite e S ctx ctx'
  | used (i : Nat) (slot : Slot) (path : Path) (sender : Endpoint) (hi : i < e.maxPeers)
      (hactive : (ctx.peers i).active = true) (hsender : S sender)
      (hslot : Slot.Written e path sender (ctx.slotInitPeer i) slot) :
      Rewrite e S ctx (ctx.store i slot)
  | joined (i : Nat) (fresh slot : Slot) (path : Path) (sender : Endpoint)
      (peerId sessionId nextPeerId : UInt32) (sessionTs : Timespec) (hi : i < e.maxPeers)
      (hfree : (ctx.peers i).active = false) (hsender : S sender) (hna : peerId ≠ PEER_NA)
      (hall : peerId ≠ PEER_ALL)
      (hfresh : fresh.toPeerContext = freshPeer e peerId sessionId sessionTs sender path)
      (hlog : fresh.log = ctx.log) (hcount : fresh.nPeers = ctx.nPeers + 1) (htick : ctx.tick ≤ fresh.tick)
      (hslot : Slot.Written e path sender fresh slot) :
      Rewrite e S ctx (store { ctx with nextPeerId := nextPeerId } i slot)

abbrev Rewrites (e : Env) (S : Endpoint → Prop) : Ctx → Ctx → Prop :=
  Relation.ReflTransGen (Rewrite e S)

section

variable {e : Env} {S : Endpoint → Prop} {ctx : Ctx} {i : Nat}

-- allocate_peer_id passes over the reserved values and the ids in use.
theorem allocatePeerId_valid {id : UInt32} (h : ctx.allocatePeerId e = some id) :
    id ≠ PEER_NA ∧ id ≠ PEER_ALL := by
  have hfound := List.find?_some h
  simp only [Bool.and_eq_true, bne_iff_ne, ne_eq] at hfound
  exact hfound.1

-- What potr_internal_peer_create does to n_peers, and what a new peer starts with.
theorem peerCreate_count (ctx : Ctx) (sender : Endpoint) (path : Path) :
    ctx.tick ≤ (ctx.peerCreate e sender path).1.tick ∧
    ((ctx.peerCreate e sender path).2 = none → (ctx.peerCreate e sender path).1.nPeers = ctx.nPeers) ∧
    ∀ i, (ctx.peerCreate e sender path).2 = some i →
      (ctx.peerCreate e sender path).1.nPeers = ctx.nPeers + 1 ∧
      (ctx.peerCreate e sender path).1.tick = ctx.tick + 1 ∧
      ∃ id, id ≠ PEER_NA ∧ id ≠ PEER_ALL ∧ ∃ sessionId sessionTs,
        e.plat.newSession ctx.tick = some (sessionId, sessionTs) ∧
        (ctx.peerCreate e sender path).1.peers i = freshPeer e id sessionId sessionTs sender path := by
  unfold peerCreate
  split
  · exact ⟨le_rfl, fun _ => rfl, fun i h => nomatch h⟩
  split
  · rename_i i id hfind halloc
    have hvalid := allocatePeerId_valid halloc
    dsimp only
    split
    · exact ⟨Nat.le_succ _, fun _ => rfl, fun i h => nomatch h⟩
    · rename_i sessionId sessionTs hsession
      refine ⟨Nat.le_succ _, fun h => (nomatch h), fun j h => ?_⟩
      obtain rfl := Option.some.inj h
      exact ⟨rfl, rfl, id, hvalid.1, hvalid.2, sessionId, sessionTs, hsession, Function.update_self ..⟩
  · exact ⟨le_rfl, fun _ => rfl, fun i h => nomatch h⟩

theorem n1HandlePacket_rewrite (ctx : Ctx) (pkt : Packet) (path : Path)
    {sender : Endpoint} (hsender : S sender) :
    Rewrite e S ctx (ctx.n1HandlePacket e pkt path sender) := by
  cases hfind : ctx.findBySession e pkt with
  | some i =>
    obtain ⟨hi, hactive⟩ := findBySession_active hfind
    rw [n1HandlePacket_found hfind path sender]
    exact .used i _ path sender hi hactive hsender fun h hs => h.dispatchPacket pkt (h.emit _ trivial hs)
  | none =>
    by_cases hping : pkt.has FLAG_PING = true
    · obtain ⟨htick, hkept, hgrown⟩ := peerCreate_count ctx sender path
      rcases peerCreate_cases ctx sender path with
        ⟨hnone, hlog, hpeers⟩ | ⟨i, -, hsome, hi, hfree, -, -, hlog, hothers⟩
      · rw [n1HandlePacket_full hfind hping hnone]
        exact .idle _ hlog (hkept hnone) htick hpeers
      · obtain ⟨hcount, -, peerId, hna, hall, sessionId, sessionTs, -, hfresh⟩ := hgrown i hsome
        rw [n1HandlePacket_create hfind hping hsome, store_created hothers]
        exact .joined i ((ctx.peerCreate e sender path).1.slotInitPeer i) _ path sender peerId
          sessionId _ sessionTs hi hfree hsender hna hall hfresh hlog hcount htick
          fun h hs => h.dispatchPacket pkt (h.adoptSession pkt (h.emit _ trivial hs))
    · rw [n1HandlePacket_ignored hfind hping path sender]
      exact .idle ctx rfl rfl le_rfl fun _ => .inl rfl

theorem healthCheckPeers_rewrites {any : Endpoint} (hany : S any) (ctx : Ctx) :
    Rewrites e S ctx (ctx.healthCheckPeers e) := by
  have hstart : Rewrite e S ctx { ctx with tick := ctx.tick + 1 } :=
    .idle _ rfl rfl (Nat.le_succ _) fun _ => .inl rfl
  unfold healthCheckPeers
  split
  · exact .single hstart
  · refine Run.foldl_preserves_of_mem (P := Rewrites e S ctx) ?_ (.single hstart)
    intro ctx' i hmem hctx
    by_cases hactive : (ctx'.peers i).active = true
    · exact hctx.tail (.used i _ 0 any (List.mem_range.mp hmem) hactive hany fun h hs =>
        h.healthCheckPeer _ hs)
    · rw [healthCheckPeer_inactive hactive]
      refine hctx.tail (.idle _ rfl rfl le_rfl fun j => .inl ?_)
      by_cases hji : j = i
      · subst hji
        exact store_peers_self ..
      · exact store_peers_of_ne hji _

theorem act_rewrites {any : Endpoint} (hany : S any) (ctx : Ctx)
    (action : Action) (hS : ∀ path sender pkt, action = .recv (.packet path sender pkt) → S sender) :
    Rewrites e S ctx (ctx.act e action) := by
  cases action with
  | recv input =>
    cases input with
    | pollTimeout => exact healthCheckPeers_rewrites hany ctx
    | packet path sender pkt =>
      change Rewrites e S ctx
        (if e.nPath ≤ path.val then ctx else ctx.n1HandlePacket e pkt path sender)
      split
      · exact .refl
      · exact .single (n1HandlePacket_rewrite ctx pkt path (hS path sender pkt rfl))
  | peerDisconnect peerId =>
    change Rewrites e S ctx (ctx.peerDisconnect e peerId).1
    rcases peerDisconnect_cases ctx peerId with heq | ⟨i, hi, hactive, -, heq⟩
    · rw [heq]
    · rw [heq]
      refine .single (.used i _ 0 any hi hactive hany fun h hs => ?_)
      exact h.free (h.frame.disconnectAllPaths (h.frame.sendToDests (.fin _ _) hs))

theorem acts_preserve {any : Endpoint} (hany : S any) {R : Ctx → Prop}
    (hstart : R (opened e)) (hR : ∀ ctx ctx', Rewrite e S ctx ctx' → R ctx → R ctx')
    {actions : List Action}
    (hS : ∀ path sender pkt, Action.recv (.packet path sender pkt) ∈ actions → S sender) :
    R (actions.foldl (act e) (opened e)) := by
  refine Run.foldl_preserves_of_mem (P := R) (fun ctx action hmem hctx => ?_) hstart
  refine Run.star_preserves hR (act_rewrites hany ctx action ?_) hctx
  rintro path sender pkt rfl
  exact hS path sender pkt hmem

theorem eq_of_idle {ctx' : Ctx} (hpeers : ∀ i, ctx'.peers i = ctx.peers i ∨
    (ctx.peers i).active = false ∧ (ctx'.peers i).active = false)
    (hon : (ctx'.peers i).active = true) : ctx'.peers i = ctx.peers i := by
  rcases hpeers i with heq | ⟨-, hoff⟩
  · exact heq
  · rw [hoff] at hon
    cases hon

end

def activeSlots (e : Env) (ctx : Ctx) : Finset Nat :=
  (Finset.range e.maxPeers).filter fun i => (ctx.peers i).active = true

-- What n_peers, the peer ids and the path counters say about the slots in use.
structure Counted (e : Env) (A : (Path → Endpoint) → Nat → Prop) (ctx : Ctx) : Prop where
  count : ctx.nPeers = (ctx.activeSlots e).card
  ids : ∀ i < e.maxPeers, (ctx.peers i).active = true →
    ∃ id, (ctx.peers i).peer = some id ∧ id ≠ PEER_NA ∧ id ≠ PEER_ALL
  dests : ∀ i < e.maxPeers, (ctx.peers i).active = true →
    A (ctx.peers i).destAddr (ctx.peers i).nPaths

section

variable {e : Env} {A : (Path → Endpoint) → Nat → Prop} {ctx ctx' : Ctx} {i : Nat}

theorem mem_activeSlots : i ∈ ctx.activeSlots e ↔ i < e.maxPeers ∧ (ctx.peers i).active = true := by
  simp [activeSlots]

theorem activeSlots_store (hi : i < e.maxPeers) (slot : Slot) :
    (ctx.store i slot).activeSlots e =
      if slot.active then insert i ((ctx.activeSlots e).erase i) else (ctx.activeSlots e).erase i := by
  ext j
  by_cases hj : j = i
  · subst hj
    cases hactive : slot.active <;> simp [mem_activeSlots, store, hactive, hi]
  · cases hactive : slot.active <;> simp [mem_activeSlots, store, hj]

theorem Counted.store (h : ctx.Counted e A) (hi : i < e.maxPeers) {slot : Slot} {id : UInt32}
    (hslot : slot.Seated A ((ctx.activeSlots e).erase i).card id) (hna : id ≠ PEER_NA)
    (hall : id ≠ PEER_ALL) (nextPeerId : UInt32) :
    (store { ctx with nextPeerId := nextPeerId } i slot).Counted e A := by
  refine ⟨?_, fun j hj hon => ?_, fun j hj hon => ?_⟩
  · change slot.nPeers = _
    rw [activeSlots_store hi, hslot.among]
    cases slot.active with
    | true => exact (Finset.card_insert_of_notMem (Finset.notMem_erase i _)).symm
    | false => rfl
  all_goals
    by_cases hji : j = i
    · subst hji
      rw [store_peers_self] at hon ⊢
      first
        | exact ⟨id, hslot.peer, hna, hall⟩
        | exact hslot.dests
    · rw [store_peers_of_ne hji] at hon ⊢
      first
        | exact h.ids j hj hon
        | exact h.dests j hj hon

theorem Rewrite.counted (h : Rewrite e (Lasting A) ctx ctx') (hctx : ctx.Counted e A) :
    ctx'.Counted e A := by
  cases h with
  | idle ctx' _ hcount htick hpeers =>
    refine ⟨?_, fun i hi hon => ?_, fun i hi hon => ?_⟩
    · rw [hcount, hctx.count]
      refine congrArg Finset.card (Finset.filter_congr fun i _ => ?_)
      rcases hpeers i with heq | ⟨hoff, hoff'⟩
      · rw [heq]
      · rw [hoff, hoff']
    all_goals
      have heq := eq_of_idle hpeers hon
      rw [heq] at hon ⊢
      first
        | exact hctx.ids i hi hon
        | exact hctx.dests i hi hon
  | used i slot path sender hi hactive hsender hslot =>
    obtain ⟨id, hid, hna, hall⟩ := hctx.ids i hi hactive
    have hmem : i ∈ ctx.activeSlots e := mem_activeSlots.mpr ⟨hi, hactive⟩
    have hseated : (ctx.slotInitPeer i).Seated A ((ctx.activeSlots e).erase i).card id := by
      refine ⟨hid, ?_, hctx.dests i hi hactive⟩
      rw [show (ctx.slotInitPeer i).active = true from hactive, if_pos rfl,
        Finset.card_erase_add_one hmem]
      exact hctx.count
    exact hctx.store hi (hslot (Slot.seated_stable hsender) hseated) hna hall ctx.nextPeerId
  | joined i fresh slot path sender peerId sessionId nextPeerId sessionTs hi hfree hsender hna hall
      hfresh _ hcount htick hslot =>
      have hout : i ∉ ctx.activeSlots e := by
        intro hmem
        rw [(mem_activeSlots.mp hmem).2] at hfree
        cases hfree
      have hseated : fresh.Seated A ((ctx.activeSlots e).erase i).card peerId := by
        refine ⟨congrArg PeerContext.peer hfresh, ?_, ?_⟩
        · rw [hcount, show fresh.active = true from congrArg PeerContext.active hfresh,
            Finset.erase_eq_of_notMem hout, hctx.count]
          rfl
        · rw [show fresh.destAddr = _ from congrArg PeerContext.destAddr hfresh,
            show fresh.nPaths = _ from congrArg PeerContext.nPaths hfresh]
          exact hsender.first path
      exact hctx.store hi (hslot (Slot.seated_stable hsender) hseated) hna hall nextPeerId

theorem opened_counted : (opened e).Counted e A := by
  have hoff : ∀ i, ((opened e).peers i).active = false := fun _ => rfl
  refine ⟨?_, fun i _ hon => ?_, fun i _ hon => ?_⟩
  · simp [activeSlots, hoff]
    rfl
  all_goals
    rw [hoff] at hon
    cases hon

theorem acts_counted {any : Endpoint} (hany : Lasting A any)
    (actions : List Action)
    (hA : ∀ path sender pkt, Action.recv (.packet path sender pkt) ∈ actions → Lasting A sender) :
    (actions.foldl (act e) (opened e)).Counted e A :=
  acts_preserve hany opened_counted (fun _ _ h hctx => h.counted hctx) hA

theorem card_activeSlots_le (ctx : Ctx) : (ctx.activeSlots e).card ≤ e.maxPeers := by
  have hle := Finset.card_filter_le (Finset.range e.maxPeers) fun i => (ctx.peers i).active = true
  rwa [Finset.card_range] at hle

theorem exists_free (h : (ctx.activeSlots e).card < e.maxPeers) :
    ∃ i < e.maxPeers, (ctx.peers i).active = false := by
  by_contra hall
  have hfull : ctx.activeSlots e = Finset.range e.maxPeers := by
    refine Finset.filter_true_of_mem fun i hi => ?_
    by_contra hoff
    exact hall ⟨i, Finset.mem_range.mp hi, by simpa using hoff⟩
  rw [hfull, Finset.card_range] at h
  exact Nat.lt_irrefl _ h

-- Among maxPeers + 2 successive candidates one is neither reserved nor in use.
theorem allocatePeerId_isSome (hint : e.maxPeers < 2147483648)
    (h : (ctx.activeSlots e).card < e.maxPeers) : (ctx.allocatePeerId e).isSome = true := by
  rw [Option.isSome_iff_ne_none]
  intro hnone
  let candidate : Nat → Option UInt32 := fun k => some (ctx.nextPeerId + UInt32.ofNat k)
  let taken : Finset (Option UInt32) :=
    {some 0, some PEER_ALL} ∪ (ctx.activeSlots e).image fun i => (ctx.peers i).peer
  have hmaps : ∀ k ∈ Finset.range (e.maxPeers + 2), candidate k ∈ taken := by
    intro k hk
    have hout := List.find?_eq_none.mp hnone (ctx.nextPeerId + UInt32.ofNat k)
      (List.mem_map_of_mem (List.mem_range.mpr (Finset.mem_range.mp hk)))
    by_contra hfree
    refine hout ?_
    simp only [taken, candidate, Finset.mem_union, Finset.mem_insert, Finset.mem_singleton,
      Finset.mem_image, not_or, not_exists, not_and, Option.some_inj] at hfree
    simp only [Bool.and_eq_true, bne_iff_ne, ne_eq, hfree.1.1, hfree.1.2, not_false_eq_true,
      List.all_eq_true, List.mem_range, Bool.not_eq_true', Bool.and_eq_false_iff, true_and,
      decide_eq_false_iff_not]
    intro i hi
    by_cases hactive : (ctx.peers i).active = true
    · exact .inr (hfree.2 i (mem_activeSlots.mpr ⟨hi, hactive⟩))
    · exact .inl (by simpa using hactive)
  have hinj : Set.InjOn candidate (Finset.range (e.maxPeers + 2)) := by
    intro k hk k' hk' heq
    rw [Finset.mem_coe, Finset.mem_range] at hk hk'
    have hsum : ctx.nextPeerId + UInt32.ofNat k = ctx.nextPeerId + UInt32.ofNat k' :=
      Option.some.inj heq
    have hnat := congrArg UInt32.toNat (UInt32.add_right_inj _ |>.mp hsum)
    rw [UInt32.toNat_ofNat', UInt32.toNat_ofNat'] at hnat
    omega
  have hle := Finset.card_le_card_of_injOn candidate hmaps hinj
  have hused : ((ctx.activeSlots e).image fun i => (ctx.peers i).peer).card ≤ (ctx.activeSlots e).card :=
    Finset.card_image_le
  have htaken : taken.card ≤ 2 + (ctx.activeSlots e).card :=
    (Finset.card_union_le _ _).trans (Nat.add_le_add (Finset.card_le_two) hused)
  rw [Finset.card_range] at hle
  omega

-- What every write of the receive thread keeps of a slot, an action keeps of a peer in use: it
-- does not hand the slot on to another peer in the same action.
theorem act_stable {P : PeerContext → Prop}
    (hP : ∀ path sender, Slot.Stable e path sender fun slot => P slot.toPeerContext) (action : Action)
    (hi : i < e.maxPeers) (hactive : (ctx.peers i).active = true) (h : P (ctx.peers i)) :
    P ((ctx.act e action).peers i) := by
  have hbecomes := act_becomes ctx action hi
  generalize (ctx.act e action).peers i = peer at hbecomes ⊢
  cases hbecomes with
  | kept => exact h
  | unused _ _ hfree => exact absurd (hfree.symm.trans hactive) Bool.false_ne_true
  | created _ _ _ hfree => exact absurd (hfree.symm.trans hactive) Bool.false_ne_true
  | packet path sender pkt =>
    have hs := hP path sender
    have h : P (ctx.slotInitPeer i).toPeerContext := h
    exact hs.dispatchPacket pkt (hs.frame.emit rfl trivial h)
  | checked mid hmid => exact (hP 0 Endpoint.clear).healthCheckPeer _ (hmid ▸ h)
  | closed =>
    have hs := hP 0 Endpoint.clear
    have h : P (ctx.slotInitPeer i).toPeerContext := h
    exact hs.free (hs.frame.disconnectAllPaths (hs.frame.sendToDests (.fin _ _) h))

-- potr_internal_peer_create fails for want of room or of a resource, and for no other reason.
theorem peerCreate_eq_none_iff (hint : e.maxPeers < 2147483648)
    (hcount : ctx.nPeers = (ctx.activeSlots e).card) (sender : Endpoint) (path : Path) :
    (ctx.peerCreate e sender path).2 = none ↔
      e.maxPeers ≤ ctx.nPeers ∨ e.plat.newSession ctx.tick = none := by
  unfold peerCreate
  by_cases hfull : e.maxPeers ≤ ctx.nPeers
  · simp [hfull]
  · rw [if_neg hfull]
    have hroom : (ctx.activeSlots e).card < e.maxPeers := by omega
    obtain ⟨id, hid⟩ := Option.isSome_iff_exists.mp (allocatePeerId_isSome hint hroom)
    obtain ⟨i, hi, hoff⟩ := exists_free hroom
    obtain ⟨j, hj⟩ : ∃ j, (List.range e.maxPeers).find? (fun i => !(ctx.peers i).active) = some j := by
      rw [← Option.isSome_iff_exists, List.find?_isSome]
      exact ⟨i, List.mem_range.mpr hi, by simp [hoff]⟩
    rw [hj, hid]
    cases hsession : e.plat.newSession ctx.tick with
    | none => simp [hsession]
    | some session => simp [hsession, hfull]

-- What holds of the peer table in every state.
structure Consistent (e : Env) (ctx : Ctx) : Prop where
  count : ctx.nPeers = (ctx.activeSlots e).card
  le_max : ctx.nPeers ≤ e.maxPeers
  -- The abort in potr_internal_peer_create is not reached and allocate_peer_id ends.
  free : ctx.nPeers < e.maxPeers → ∃ i < e.maxPeers, (ctx.peers i).active = false
  allocates : ctx.nPeers < e.maxPeers → (ctx.allocatePeerId e).isSome = true
  create : ∀ sender path, (ctx.peerCreate e sender path).2 = none ↔
    e.maxPeers ≤ ctx.nPeers ∨ e.plat.newSession ctx.tick = none
  failed : ∀ sender path, (ctx.peerCreate e sender path).2 = none →
    (ctx.peerCreate e sender path).1.nPeers = ctx.nPeers ∧
    ∀ i < e.maxPeers, (ctx.peers i).active = true →
      (ctx.peerCreate e sender path).1.peers i = ctx.peers i
  valid : ∀ i < e.maxPeers, (ctx.peers i).active = true →
    ∃ id, (ctx.peers i).peer = some id ∧ id ≠ PEER_NA ∧ id ≠ PEER_ALL
  ids : ∀ i < e.maxPeers, ∀ j < e.maxPeers, (ctx.peers i).active = true →
    (ctx.peers j).active = true → (ctx.peers i).peer = (ctx.peers j).peer → i = j
  sessions : ∀ i < e.maxPeers, ∀ j < e.maxPeers, (ctx.peers i).active = true →
    (ctx.peers j).active = true → ctx.session i = ctx.session j → i = j
  stays : ∀ action, ∀ i < e.maxPeers, (ctx.peers i).active = true →
    ((ctx.act e action).peers i).peer = (ctx.peers i).peer ∧
      (ctx.act e action).session i = ctx.session i

theorem Counted.consistent (hlex : e.plat.CmpLex) (hint : e.maxPeers < 2147483648)
    (ht : Table e ctx) (h : ctx.Counted e A) : ctx.Consistent e where
  count := h.count
  le_max := h.count ▸ card_activeSlots_le ctx
  free hroom := exists_free (h.count ▸ hroom)
  allocates hroom := allocatePeerId_isSome hint (h.count ▸ hroom)
  create := peerCreate_eq_none_iff hint h.count
  failed sender path hnone := by
    refine ⟨(peerCreate_count ctx sender path).2.1 hnone, fun i _ hactive => ?_⟩
    rcases peerCreate_cases ctx sender path with ⟨-, -, hpeers⟩ | ⟨j, -, hsome, -⟩
    · rcases hpeers i with heq | ⟨hoff, -⟩
      · exact heq
      · exact absurd (hoff.symm.trans hactive) Bool.false_ne_true
    · rw [hnone] at hsome
      cases hsome
  valid := h.ids
  ids := ht.ids
  sessions := ht.sessions
  stays action i hi hactive := act_stays hlex ht action hi hactive

theorem acts_pathsCounted {Q : Endpoint → Prop}
    (hset : ∀ ep, Q ep → ep.isUnset = false)
    (hport : ∀ dest src : Endpoint, Q dest → Q src → Q { dest with port := src.port })
    {any : Endpoint} (hany : Q any) {actions : List Action}
    (hreal : ∀ path sender pkt, Action.recv (.packet path sender pkt) ∈ actions → Q sender) :
    ∀ i < e.maxPeers, ((actions.foldl (act e) (opened e)).peers i).active = true →
      ((actions.foldl (act e) (opened e)).peers i).nPaths =
        (setPaths ((actions.foldl (act e) (opened e)).peers i).destAddr).card := by
  have hlast : ∀ {sender : Endpoint}, Q sender → Lasting (PathsCounted Q) sender :=
    pathsCounted_lasting hset hport
  intro i hi hactive
  have hcounted := acts_counted (e := e) (hlast hany) actions fun path sender pkt hmem =>
    hlast (hreal path sender pkt hmem)
  exact (hcounted.dests i hi hactive).2

end

end Ctx

-- max_peers is an int. A source endpoint is real where the socket layer reports an address, or
-- where it reports a port.
theorem peer_table_consistent {e : Env} (hlex : e.plat.CmpLex) (hkind : e.type = .unicastBidirN1)
    (hint : e.maxPeers < 2147483648) (actions : List Ctx.Action) :
    (actions.foldl (Ctx.act e) (Ctx.opened e)).Consistent e ∧
    ((∀ path sender pkt, Ctx.Action.recv (.packet path sender pkt) ∈ actions → sender.address ≠ 0) ∨
      (∀ path sender pkt, Ctx.Action.recv (.packet path sender pkt) ∈ actions → sender.port ≠ 0) →
      ∀ i < e.maxPeers, ((actions.foldl (Ctx.act e) (Ctx.opened e)).peers i).active = true →
        ((actions.foldl (Ctx.act e) (Ctx.opened e)).peers i).nPaths =
          (setPaths ((actions.foldl (Ctx.act e) (Ctx.opened e)).peers i).destAddr).card) := by
  have ht := (Ctx.acts_resting hlex hkind actions).table
  have hcounted := Ctx.acts_counted (e := e) (lasting_any Endpoint.clear) actions
    fun _ sender _ _ => lasting_any sender
  refine ⟨hcounted.consistent hlex hint ht, fun hreal => ?_⟩
  rcases hreal with haddress | hport
  · exact Ctx.acts_pathsCounted (Q := fun ep => ep.address ≠ 0)
      (fun ep hep => by simp [Endpoint.isUnset, hep]) (fun _ _ hdest _ => hdest)
      (show (⟨1, 0⟩ : Endpoint).address ≠ 0 by decide) haddress
  · exact Ctx.acts_pathsCounted (Q := fun ep => ep.port ≠ 0)
      (fun ep hep => by simp [Endpoint.isUnset, hep]) (fun _ _ _ hsrc => hsrc)
      (show (⟨0, 1⟩ : Endpoint).port ≠ 0 by decide) hport

-- Two peers join, the second one is disconnected, and the first is learned on a second path.
theorem peer_table_consistent_sample :
    let e := Env.sample .unicastBidirN1
    let other := Packet.buildPing ⟨1, 6, 9, 0⟩ 0 [0, 0, 0, 0]
    let actions : List Ctx.Action := [.recv (.sample (.samplePing 7)), .recv (.packet 0 .other other),
      .peerDisconnect 2, .recv (.packet 1 .other (.samplePing 7))]
    let ctx := actions.foldl (Ctx.act e) (Ctx.opened e)
    ctx.Consistent e ∧ ctx.nPeers = 1 ∧ (ctx.peers 0).nPaths = (setPaths (ctx.peers 0).destAddr).card := by
  have hsample := peer_table_consistent (e := Env.sample .unicastBidirN1) Cplat.reference_cmpLex rfl
    (by decide) [.recv (.sample (.samplePing 7)),
      .recv (.packet 0 .other (Packet.buildPing ⟨1, 6, 9, 0⟩ 0 [0, 0, 0, 0])),
      .peerDisconnect 2, .recv (.packet 1 .other (.samplePing 7))]
  refine ⟨hsample.1, by decide +kernel, hsample.2 (.inl ?_) 0 (by decide) (by decide +kernel)⟩
  intro path sender pkt hmem
  simp only [Slot.Input.sample, List.mem_cons, Ctx.Action.recv.injEq, Slot.Input.packet.injEq,
    List.not_mem_nil, or_false, reduceCtorEq, false_or] at hmem
  rcases hmem with ⟨-, rfl, -⟩ | ⟨-, rfl, -⟩ | ⟨-, rfl, -⟩ <;> decide

end Porter
