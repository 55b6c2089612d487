import Mathlib.Tactic.SplitIfs
import Porter.Reassembly
import Porter.Recv.Peers

namespace Porter

-- The answers of the clocks and of the random source.
structure Readings where
  clock : Nat → Timespec
  clockMs : Nat → Nat
  newSession : Nat → Option (UInt32 × Timespec)

def Env.readings (e : Env) : Readings := ⟨e.plat.clock, e.plat.clockMs, e.plat.newSession⟩

def Env.retimed (e : Env) (r : Readings) : Env where
  toService := e.toService
  plat := { e.plat with clock := r.clock, clockMs := r.clockMs, newSession := r.newSession }

@[simp] theorem Env.retimed_toService (e : Env) (r : Readings) : (e.retimed r).toService = e.toService :=
  rfl

-- Readings that agree from two ticks on.
structure Readings.Agree (r r' : Readings) (tick tick' : Nat) : Prop where
  clock : ∀ k, r'.clock (tick' + k) = r.clock (tick + k)
  clockMs : ∀ k, r'.clockMs (tick' + k) = r.clockMs (tick + k)
  newSession : ∀ k, r'.newSession (tick' + k) = r.newSession (tick + k)

-- Where the slot of a peer stands: the tick at which a packet was taken up, its id and what had
-- been recorded by then.
structure Place where
  tick : Nat
  id : UInt32
  log : List (UInt32 × Act)

namespace Slot

-- Slots of the same peer in two services. They differ in the id of the peer, in the clock, in the
-- number of other peers, and in what was recorded before.
inductive Twin (p p' : Place) (alike : Prop) : Slot → Slot → Prop
  | mk (ctx : PeerContext) (k n n' : Nat) (acts : List Act) (hn : alike → n' = n) :
      Twin p p' alike
        { ctx with
          peer := some p.id
          tick := p.tick + k
          nPeers := n
          log := p.log ++ acts.map fun act => (p.id, act) }
        { ctx with
          peer := some p'.id
          tick := p'.tick + k
          nPeers := n'
          log := p'.log ++ acts.map fun act => (p'.id, act) }

namespace Twin

variable {e : Env} {r : Readings} {p p' : Place} {alike : Prop} {slot slot' : Slot}

theorem same (h : Twin p p' alike slot slot') {α : Sort*} (f : PeerContext → α)
    (hf : ∀ ctx id, f { ctx with peer := id } = f ctx) :
    f slot'.toPeerContext = f slot.toPeerContext := by
  cases h with
  | mk ctx k n n' acts hn => exact (hf ctx _).trans (hf ctx _).symm

theorem isSome (h : Twin p p' alike slot slot') : slot.peer.isSome = true ∧ slot'.peer.isSome = true := by
  cases h
  exact ⟨rfl, rfl⟩

theorem set (h : Twin p p' alike slot slot') (f : PeerContext → PeerContext)
    (hf : ∀ ctx id, f { ctx with peer := id } = { f ctx with peer := id }) :
    Twin p p' alike { slot with toPeerContext := f slot.toPeerContext }
      { slot' with toPeerContext := f slot'.toPeerContext } := by
  cases h with
  | mk ctx k n n' acts hn =>
    have hmk : Twin p p' alike _ _ := .mk (f ctx) k n n' acts hn
    rwa [← hf ctx (some p.id), ← hf ctx (some p'.id)] at hmk

theorem emits (h : Twin p p' alike slot slot') (acts : List Act) :
    Twin p p' alike (slot.emits acts) (slot'.emits acts) := by
  cases h with
  | mk ctx k n n' done hn =>
    have hmk : Twin p p' alike _ _ := .mk ctx k n n' (done ++ acts) hn
    rw [List.map_append, List.map_append, ← List.append_assoc, ← List.append_assoc] at hmk
    exact hmk

theorem emit (h : Twin p p' alike slot slot') (act : Act) :
    Twin p p' alike (slot.emit act) (slot'.emit act) := h.emits [act]

theorem tickOnce (h : Twin p p' alike slot slot') : Twin p p' alike slot.tickOnce slot'.tickOnce := by
  cases h with
  | mk ctx k n n' acts hn => exact .mk ctx (k + 1) n n' acts hn

theorem now (hr : e.readings.Agree r p.tick p'.tick) (h : Twin p p' alike slot slot') :
    slot'.now (e.retimed r) = slot.now e := by
  cases h with
  | mk ctx k n n' acts hn => exact hr.clock k

theorem peerFree (h : Twin p p' alike slot slot') : Twin p p' alike slot.peerFree slot'.peerFree := by
  cases h with
  | mk ctx k n n' acts hn =>
    unfold Slot.peerFree
    split
    · exact .mk { ctx with active := false } k (n - 1) (n' - 1) acts fun halike => by rw [hn halike]
    · exact .mk ctx k n n' acts hn

theorem callbackEmits (h : Twin p p' alike slot slot') (evs : List Event) :
    Twin p p' alike (slot.callbackEmits e evs) (slot'.callbackEmits (e.retimed r) evs) := by
  unfold Slot.callbackEmits
  rw [Env.retimed_toService]
  split
  · exact h.emits _
  · exact h

theorem syncPathStateLocked (h : Twin p p' alike slot slot') (states : Path → Bool) :
    Twin p p' alike (slot.syncPathStateLocked e states)
      (slot'.syncPathStateLocked (e.retimed r) states) := by
  have hset := h.set (fun ctx => { ctx with
    pathLogicalAlive := states, healthAlive := anyPathAlive states }) fun _ _ => rfl
  have hevents : slot'.preparedPathEvents states = slot.preparedPathEvents states := by
    cases h
    rfl
  unfold Slot.syncPathStateLocked
  rw [hevents]
  exact hset.callbackEmits _

theorem syncPathState (h : Twin p p' alike slot slot') :
    Twin p p' alike (slot.syncPathState e) (slot'.syncPathState (e.retimed r)) := by
  have hstates : slot'.nextPathStates (e.retimed r) = slot.nextPathStates e := by
    cases h
    rfl
  unfold Slot.syncPathState
  rw [hstates]
  exact h.syncPathStateLocked _

theorem disconnectAllPaths (h : Twin p p' alike slot slot') :
    Twin p p' alike (slot.disconnectAllPaths e) (slot'.disconnectAllPaths (e.retimed r)) :=
  h.syncPathStateLocked _

theorem clearPathPingStates (h : Twin p p' alike slot slot') :
    Twin p p' alike slot.clearPathPingStates slot'.clearPathPingStates :=
  h.set (fun ctx => { ctx with
    pathPingState := fun _ => PING_STATE_UNDEFINED
    remotePathPingState := fun _ => PING_STATE_UNDEFINED }) fun _ _ => rfl

theorem adoptSession (h : Twin p p' alike slot slot') (pkt : Packet) :
    Twin p p' alike (slot.adoptSession e pkt) (slot'.adoptSession (e.retimed r) pkt) := by
  have hset := h.set (fun ctx => { ctx with
    peerSessionId := pkt.sessionId
    peerSessionTs := pkt.sessionTs
    peerSessionKnown := true
    reorderPending := false
    pendingFin := false
    finTargetSeq := 0
    recvWindow := Window.init pkt.seqNum e.windowSize }) fun _ _ => rfl
  exact hset.emit _

theorem sessionAdopt (h : Twin p p' alike slot slot') (pkt : Packet) :
    Twin p p' alike (slot.sessionAdopt e pkt).1 (slot'.sessionAdopt (e.retimed r) pkt).1 ∧
      (slot'.sessionAdopt (e.retimed r) pkt).2 = (slot.sessionAdopt e pkt).2 := by
  have hadopt := h.adoptSession (e := e) (r := r) pkt
  have hknown : slot'.peerSessionKnown = slot.peerSessionKnown := h.same _ fun _ _ => rfl
  have hts : slot'.peerSessionTs = slot.peerSessionTs := h.same _ fun _ _ => rfl
  have hid : slot'.peerSessionId = slot.peerSessionId := h.same _ fun _ _ => rfl
  unfold Slot.sessionAdopt
  dsimp only [Env.retimed]
  rw [hknown, hts, hid]
  split_ifs
  all_goals exact ⟨by assumption, rfl⟩

theorem updatePathHealth (hr : e.readings.Agree r p.tick p'.tick) (h : Twin p p' alike slot slot')
    (path : Path) :
    Twin p p' alike (slot.updatePathHealth e path) (slot'.updatePathHealth (e.retimed r) path) := by
  have hset := h.tickOnce.set (fun ctx => { ctx with
    lastRecvTs := slot.now e
    pathLastRecvTs := Function.update ctx.pathLastRecvTs path (slot.now e)
    pathPingState := Function.update ctx.pathPingState path PING_STATE_NORMAL }) fun _ _ => rfl
  unfold Slot.updatePathHealth
  rw [h.now hr]
  exact hset

theorem applyRemotePathPingState (h : Twin p p' alike slot slot') (src : Bytes) :
    Twin p p' alike (slot.applyRemotePathPingState src) (slot'.applyRemotePathPingState src) :=
  h.set (fun ctx => { ctx with
    remotePathPingState := fun k =>
      let state := src.getD k.val PING_STATE_UNDEFINED
      if state ≠ PING_STATE_UNDEFINED then state else ctx.remotePathPingState k }) fun _ _ => rfl

theorem learnSenderPath (h : Twin p p' alike slot slot') (path : Path) (sender : Endpoint) :
    Twin p p' alike (slot.learnSenderPath e path sender)
      (slot'.learnSenderPath (e.retimed r) path sender) := by
  have hdest : slot'.destAddr = slot.destAddr := h.same _ fun _ _ => rfl
  unfold Slot.learnSenderPath
  rw [if_pos h.isSome.1, if_pos h.isSome.2, hdest]
  split
  · exact h.set (fun ctx => { ctx with
      destAddr := Function.update slot.destAddr path
        { slot.destAddr path with port := sender.port } }) fun _ _ => rfl
  · exact h.set (fun ctx => { ctx with
      destAddr := Function.update slot.destAddr path sender
      nPaths := ctx.nPaths + 1 }) fun _ _ => rfl

theorem sendToDests (h : Twin p p' alike slot slot') (pkt : Packet) :
    Twin p p' alike (slot.sendToDests e pkt) (slot'.sendToDests (e.retimed r) pkt) := by
  have hdest : slot'.destAddr = slot.destAddr := h.same _ fun _ _ => rfl
  unfold Slot.sendToDests
  rw [if_pos h.isSome.1, if_pos h.isSome.2, hdest]
  exact h.emits _

theorem ownSessionHdr (h : Twin p p' alike slot slot') :
    slot'.ownSessionHdr (e.retimed r) = slot.ownSessionHdr e := by
  cases h
  rfl

theorem slotSendNack (h : Twin p p' alike slot slot') (seq : UInt32) :
    Twin p p' alike (slot.slotSendNack e seq) (slot'.slotSendNack (e.retimed r) seq) := by
  have hwin : slot'.recvWindow = slot.recvWindow := h.same _ fun _ _ => rfl
  have hnack := h.emit (.nack seq slot.recvWindow)
  unfold Slot.slotSendNack
  rw [hwin, h.ownSessionHdr, if_pos (by rw [hnack.isSome.1]; rfl),
    if_pos (by rw [hnack.isSome.2]; rfl)]
  exact hnack.sendToDests _

theorem nackGap (h : Twin p p' alike slot slot') (seq : UInt32) :
    Twin p p' alike (slot.nackGap e seq) (slot'.nackGap (e.retimed r) seq) := by
  unfold Slot.nackGap slotGapReady
  rw [if_pos h.isSome.1, if_pos h.isSome.2]
  exact h.slotSendNack seq

theorem pushRecvWindow (h : Twin p p' alike slot slot') (pkt : Packet) :
    Twin p p' alike (slot.pushRecvWindow pkt).1 (slot'.pushRecvWindow pkt).1 ∧
      (slot'.pushRecvWindow pkt).2 = (slot.pushRecvWindow pkt).2 := by
  have hwin : slot'.recvWindow = slot.recvWindow := h.same _ fun _ _ => rfl
  unfold Slot.pushRecvWindow
  rw [hwin]
  split
  · rename_i win _
    exact ⟨(h.set (fun ctx => { ctx with recvWindow := win }) fun _ _ => rfl).emit _, rfl⟩
  · exact ⟨h, rfl⟩

theorem skipRecvWindow (h : Twin p p' alike slot slot') (seq : UInt32) :
    Twin p p' alike (slot.skipRecvWindow seq) (slot'.skipRecvWindow seq) := by
  have hwin : slot'.recvWindow = slot.recvWindow := h.same _ fun _ _ => rfl
  have hset := h.set (fun ctx => { ctx with recvWindow := slot.recvWindow.recvSkip seq }) fun _ _ => rfl
  unfold Slot.skipRecvWindow
  rw [hwin]
  split
  · exact hset.emit _
  · exact h

theorem feedAll_retimed (frag : Reassembly) (elems : List Elem) :
    frag.feedAll (e.retimed r) elems = frag.feedAll e elems := by
  induction elems generalizing frag with
  | nil => rfl
  | cons elem rest ih =>
    simp only [Reassembly.feedAll, ih]
    rfl

theorem deliverPacket (h : Twin p p' alike slot slot') (pkt : Packet) :
    Twin p p' alike (slot.deliverPacket e pkt) (slot'.deliverPacket (e.retimed r) pkt) := by
  have halive : slot'.healthAlive = slot.healthAlive := h.same _ fun _ _ => rfl
  have hfrag : slot'.reassembly = slot.reassembly :=
    h.same (fun ctx => (⟨ctx.fragBuf, ctx.fragCompressed⟩ : Reassembly)) fun _ _ => rfl
  unfold Slot.deliverPacket
  split
  · exact h
  · cases hconn : slot.healthAlive with
    | false =>
      rw [deliverElems_of_dead hconn, deliverElems_of_dead (halive.trans hconn)]
      exact h
    | true =>
      rw [deliverElems_of_alive hconn, deliverElems_of_alive (halive.trans hconn), hfrag,
        feedAll_retimed]
      generalize slot.reassembly.feedAll e (Packet.unpackAll pkt.payload) = fed
      exact (h.callbackEmits _).set (fun ctx => { ctx with
        fragBuf := fed.1.buf, fragCompressed := fed.1.compressed }) fun _ _ => rfl

theorem drainLoop (h : Twin p p' alike slot slot') (fuel : Nat) :
    Twin p p' alike (slot.drainLoop e fuel) (slot'.drainLoop (e.retimed r) fuel) := by
  induction fuel generalizing slot slot' with
  | zero => exact h
  | succ fuel ih =>
    have hwin : slot'.recvWindow = slot.recvWindow := h.same _ fun _ _ => rfl
    have halive : slot'.healthAlive = slot.healthAlive := h.same _ fun _ _ => rfl
    cases hpop : slot.recvWindow.recvPop with
    | none =>
      have hpop' := (congrArg Window.recvPop hwin).trans hpop
      simp only [Slot.drainLoop, hpop, hpop']
      exact h
    | some found =>
      have hpop' := (congrArg Window.recvPop hwin).trans hpop
      have hset := h.set (fun ctx => { ctx with recvWindow := found.2 }) fun _ _ => rfl
      have hact : Act.pop found.1 slot'.healthAlive = .pop found.1 slot.healthAlive := by rw [halive]
      simp only [Slot.drainLoop, hpop, hpop', hact]
      exact ih ((hset.emit _).deliverPacket _)

theorem finFire (h : Twin p p' alike slot slot') (target : UInt32) :
    Twin p p' alike (slot.finFire e target) (slot'.finFire (e.retimed r) target) := by
  unfold Slot.finFire
  rw [if_pos h.isSome.1, if_pos h.isSome.2]
  exact (h.disconnectAllPaths.set (fun ctx => { ctx with pendingFin := false, finTargetSeq := 0 })
    fun _ _ => rfl).peerFree

theorem slotDrainRecvWindow (h : Twin p p' alike slot slot') :
    Twin p p' alike (slot.slotDrainRecvWindow e).1 (slot'.slotDrainRecvWindow (e.retimed r)).1 ∧
      (slot'.slotDrainRecvWindow (e.retimed r)).2 = (slot.slotDrainRecvWindow e).2 := by
  have hwin : slot'.recvWindow = slot.recvWindow := h.same _ fun _ _ => rfl
  have hdrain := h.drainLoop (e := e) (r := r) slot.recvWindow.windowSize
  unfold Slot.slotDrainRecvWindow
  dsimp only
  rw [hwin]
  generalize Slot.drainLoop e slot.recvWindow.windowSize slot = drained at hdrain ⊢
  generalize Slot.drainLoop (e.retimed r) slot.recvWindow.windowSize slot' = drained' at hdrain ⊢
  have hreached : drained'.finPendingReached = drained.finPendingReached := by
    cases hdrain
    rfl
  have htarget : drained'.finTargetSeq = drained.finTargetSeq := hdrain.same _ fun _ _ => rfl
  rw [hreached, htarget]
  split
  · refine ⟨hdrain.finFire _, ?_⟩
    rw [hdrain.isSome.1, hdrain.isSome.2]
  · exact ⟨hdrain, rfl⟩

theorem nackIsDuplicate (hr : e.readings.Agree r p.tick p'.tick) (h : Twin p p' alike slot slot')
    (seq : UInt32) :
    Twin p p' alike (slot.nackIsDuplicate e seq).1 (slot'.nackIsDuplicate (e.retimed r) seq).1 ∧
      (slot'.nackIsDuplicate (e.retimed r) seq).2 = (slot.nackIsDuplicate e seq).2 := by
  have hms : (e.retimed r).plat.clockMs slot'.tick = e.plat.clockMs slot.tick := by
    cases h with
    | mk ctx k n n' acts hn => exact hr.clockMs k
  have hbuf : slot'.tickOnce.nackDedupBuf = slot.tickOnce.nackDedupBuf := h.same _ fun _ _ => rfl
  have hnext : slot'.tickOnce.nackDedupNext = slot.tickOnce.nackDedupNext := h.same _ fun _ _ => rfl
  unfold Slot.nackIsDuplicate
  dsimp only
  rw [hms, hbuf, hnext]
  split
  · exact ⟨h.tickOnce, rfl⟩
  · exact ⟨h.tickOnce.set (fun ctx => { ctx with
      nackDedupBuf := Function.update slot.tickOnce.nackDedupBuf slot.tickOnce.nackDedupNext
        ⟨seq, e.plat.clockMs slot.tick⟩
      nackDedupNext := (slot.tickOnce.nackDedupNext + 1) % NACK_DEDUP_SLOTS }) fun _ _ => rfl, rfl⟩

theorem onNack (hr : e.readings.Agree r p.tick p'.tick) (h : Twin p p' alike slot slot')
    (pkt : Packet) : Twin p p' alike (slot.onNack e pkt) (slot'.onNack (e.retimed r) pkt) := by
  obtain ⟨hdup, hflag⟩ := h.nackIsDuplicate hr pkt.ackNum
  unfold Slot.onNack
  dsimp only
  rw [hflag, Env.retimed_toService]
  generalize (slot.nackIsDuplicate e pkt.ackNum).1 = checked at hdup ⊢
  generalize (slot'.nackIsDuplicate (e.retimed r) pkt.ackNum).1 = checked' at hdup ⊢
  have hwin : checked'.sendWindow = checked.sendWindow := hdup.same _ fun _ _ => rfl
  split
  · exact h
  split
  · exact hdup
  · unfold slotRetransmitOrReject slotSendReject
    rw [hwin, hdup.ownSessionHdr]
    split
    · exact hdup.sendToDests _
    · exact hdup.sendToDests _

theorem finOnPacket (h : Twin p p' alike slot slot') (pkt : Packet) :
    Twin p p' alike (slot.finOnPacket pkt).1 (slot'.finOnPacket pkt).1 ∧
      (slot'.finOnPacket pkt).2 = (slot.finOnPacket pkt).2 := by
  have hnext : slot'.recvWindow.nextSeq = slot.recvWindow.nextSeq :=
    h.same (fun ctx => ctx.recvWindow.nextSeq) fun _ _ => rfl
  unfold Slot.finOnPacket
  rw [hnext]
  split
  · exact ⟨h, rfl⟩
  split
  · exact ⟨h.set (fun ctx => { ctx with pendingFin := true, finTargetSeq := pkt.ackNum })
      fun _ _ => rfl, rfl⟩
  · exact ⟨h, rfl⟩

theorem dispatchFin (h : Twin p p' alike slot slot') (pkt : Packet) :
    Twin p p' alike (slot.dispatchFin e pkt) (slot'.dispatchFin (e.retimed r) pkt) := by
  have hnone : slot.peer.isNone = false ∧ slot'.peer.isNone = false := by
    cases h
    exact ⟨rfl, rfl⟩
  obtain ⟨hfin, haction⟩ := h.finOnPacket pkt
  unfold Slot.dispatchFin
  rw [hnone.1, hnone.2]
  simp only [Bool.false_eq_true, if_false, Bool.not_true, haction]
  split
  · exact hfin.finFire _
  · exact hfin

section

variable (hraw : e.type.isRawType = false)

include hraw

theorem onReject (h : Twin p p' alike slot slot') (pkt : Packet) (path : Path) (sender : Endpoint) :
    Twin p p' alike (slot.onReject e pkt path sender) (slot'.onReject (e.retimed r) pkt path sender) := by
  obtain ⟨hadopt, hflag⟩ := h.sessionAdopt pkt
  have hcut := ((hadopt.learnSenderPath (e := e) (r := r) path
    sender).clearPathPingStates).disconnectAllPaths (e := e) (r := r)
  have hset := hcut.set (fun ctx => { ctx with reorderPending := false }) fun _ _ => rfl
  unfold Slot.onReject
  dsimp only
  rw [hflag, Env.retimed_toService, hraw, if_neg Bool.false_ne_true, if_neg Bool.false_ne_true]
  split
  · exact hadopt
  · exact (hset.skipRecvWindow _).slotDrainRecvWindow.1

theorem acceptPush (h : Twin p p' alike slot slot') (pkt : Packet) :
    Twin p p' alike (slot.acceptPush e pkt).1 (slot'.acceptPush (e.retimed r) pkt).1 ∧
      (slot'.acceptPush (e.retimed r) pkt).2 = (slot.acceptPush e pkt).2 := by
  obtain ⟨hpush, hflag⟩ := h.pushRecvWindow pkt
  unfold Slot.acceptPush
  dsimp only
  rw [hflag, Env.retimed_toService, hraw]
  split
  · exact ⟨hpush, rfl⟩
  · exact ⟨h, rfl⟩

theorem acceptGap (h : Twin p p' alike slot slot') (pkt : Packet) :
    Twin p p' alike (slot.acceptGap e pkt).1 (slot'.acceptGap (e.retimed r) pkt).1 ∧
      (slot'.acceptGap (e.retimed r) pkt).2 = (slot.acceptGap e pkt).2 := by
  have hnack : slot'.recvWindow.recvNeedsNack = slot.recvWindow.recvNeedsNack :=
    h.same (fun ctx => ctx.recvWindow.recvNeedsNack) fun _ _ => rfl
  unfold Slot.acceptGap
  rw [hnack, Env.retimed_toService, hraw]
  split
  · exact ⟨h.set (fun ctx => { ctx with reorderPending := false }) fun _ _ => rfl, rfl⟩
  · exact ⟨h.nackGap _, rfl⟩

theorem acceptPostDrain (h : Twin p p' alike slot slot') :
    Twin p p' alike (slot.acceptPostDrain e) (slot'.acceptPostDrain (e.retimed r)) := by
  have hnack : slot'.recvWindow.recvNeedsNack = slot.recvWindow.recvNeedsNack :=
    h.same (fun ctx => ctx.recvWindow.recvNeedsNack) fun _ _ => rfl
  unfold Slot.acceptPostDrain
  rw [hnack, Env.retimed_toService, hraw]
  split
  · exact h.set (fun ctx => { ctx with reorderPending := false }) fun _ _ => rfl
  · exact h.nackGap _

theorem acceptOuter (h : Twin p p' alike slot slot') (pkt : Packet) (path : Path) :
    Twin p p' alike (slot.acceptOuter e pkt path) (slot'.acceptOuter (e.retimed r) pkt path) := by
  obtain ⟨hpush, hpushed⟩ := h.acceptPush hraw pkt
  obtain ⟨hgap, hgapped⟩ := hpush.acceptGap hraw pkt
  -- DATA is no sign of life of an N:1 peer.
  have hhealth : ∀ {slot : Slot} (e : Env), slot.peer.isSome = true →
      slot.acceptHealth e pkt path = slot := by
    intro slot e hsome
    unfold acceptHealth
    rw [Option.isNone_iff_eq_none.not.mpr (Option.isSome_iff_ne_none.mp hsome) |> Bool.eq_false_iff.mpr]
    rfl
  obtain ⟨hdrain, halive⟩ := hgap.slotDrainRecvWindow
  unfold Slot.acceptOuter
  dsimp only
  rw [hpushed, hgapped, hhealth e hgap.isSome.1, hhealth (e.retimed r) hgap.isSome.2, halive]
  split
  · exact hpush
  split
  · exact hgap
  split
  · exact hdrain.acceptPostDrain hraw
  · exact hdrain

theorem dispatchPing (hr : e.readings.Agree r p.tick p'.tick) (h : Twin p p' alike slot slot')
    (pkt : Packet) (path : Path) :
    Twin p p' alike (slot.dispatchPing e pkt path) (slot'.dispatchPing (e.retimed r) pkt path) := by
  have hheard := h.updatePathHealth hr path
  have hseen : Twin p p' alike (slot.pinged e pkt path) (slot'.pinged (e.retimed r) pkt path) := by
    unfold pinged
    split
    · exact hheard.applyRemotePathPingState _
    · exact hheard
  rw [dispatchPing_eq, dispatchPing_eq, Env.retimed_toService, hraw, if_neg Bool.false_ne_true,
    if_neg Bool.false_ne_true]
  have hsync := hseen.syncPathState (e := e) (r := r)
  generalize Slot.syncPathState e _ = synced at hsync ⊢
  generalize Slot.syncPathState (e.retimed r) _ = synced' at hsync ⊢
  have hwin : synced'.recvWindow = synced.recvWindow := hsync.same _ fun _ _ => rfl
  unfold scanPingGap pingAhead
  rw [if_pos hsync.isSome.1, if_pos hsync.isSome.2, hwin]
  split
  · exact hsync.nackGap _
  · exact hsync

theorem dispatchPacket (hr : e.readings.Agree r p.tick p'.tick) (h : Twin p p' alike slot slot')
    (pkt : Packet) (path : Path) (sender : Endpoint) :
    Twin p p' alike (slot.dispatchPacket e pkt path sender)
      (slot'.dispatchPacket (e.retimed r) pkt path sender) := by
  obtain ⟨hadopt, hflag⟩ := h.sessionAdopt pkt
  have hlearn := hadopt.learnSenderPath (e := e) (r := r) path sender
  unfold Slot.dispatchPacket
  dsimp only
  rw [hflag, if_pos h.isSome.1, if_pos h.isSome.2]
  split
  · exact h.dispatchFin pkt
  split
  · exact h.onNack hr pkt
  split
  · exact h.onReject hraw pkt path sender
  split
  · exact h
  split
  · exact hadopt
  split
  · exact hlearn.dispatchPing hraw hr pkt path
  · exact hlearn.acceptOuter hraw pkt path

end

theorem contexts (h : Twin p p' alike slot slot') :
    ∃ ctx : PeerContext, slot.toPeerContext = { ctx with peer := some p.id } ∧
      slot'.toPeerContext = { ctx with peer := some p'.id } := by
  cases h with
  | mk ctx k n n' acts hn => exact ⟨ctx, rfl, rfl⟩

theorem logs (h : Twin p p' alike slot slot') :
    ∃ acts : List Act, slot.log = p.log ++ acts.map (fun act => (p.id, act)) ∧
      slot'.log = p'.log ++ acts.map fun act => (p'.id, act) := by
  cases h with
  | mk ctx k n n' acts hn => exact ⟨acts, rfl, rfl⟩

theorem eq (h : Twin p p True slot slot') : slot' = slot := by
  cases h with
  | mk ctx k n n' acts hn => rw [hn trivial]

end Twin

end Slot

end Porter
