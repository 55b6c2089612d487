import Porter.Moves.Peers

namespace Porter

namespace View

-- What the log says about the slot of this view.
def entries (v : View) : List Act := entriesOf v.peerId v.log

theorem entries_emits (v : View) (acts : List Act) : (v.emits acts).entries = v.entries ++ acts :=
  entriesOf_append_own v.peerId v.log acts

end View

namespace Ctx

open View

-- A law about the record of each peer: what its entries satisfy, also once the peer is gone, and
-- what the slot of a peer in use satisfies while a packet is handled for it.
structure Law (e : Env) where
  record : List Act → Prop
  holds : Option Packet → View → Prop
  record_of : ∀ {v : View}, holds none v → record v.entries
  moves : ∀ {cur : Option Packet} {v v' : View}, Moves e cur v v' → Inv e v → holds cur v → holds none v'
  recv : ∀ {v : View} {pkt : Packet}, v.active = true → v.session = pkt.session → holds none v →
    holds (some pkt) (v.emit (.recv pkt))
  -- What other peers log does not matter.
  of_log : ∀ {v : View} {log : List (UInt32 × Act)}, entriesOf v.peerId log = v.entries → holds none v →
    holds none { v with log := log }
  adopted : ∀ {v : View} {pkt : Packet}, v.active = true →
    v.sendWindow = Window.init 0 e.windowSize → record v.entries →
    holds (some pkt) ((v.emit (.recv pkt)).adopted e pkt)

structure Keeps {e : Env} (law : Law e) (ctx : Ctx) : Prop where
  record : ∀ p, law.record (entriesOf p ctx.log)
  slots : ∀ i < e.maxPeers, (ctx.peers i).active = true →
    law.holds none ((ctx.slotInitPeer i).view e)

section

variable {e : Env} {law : Law e} {ctx ctx' : Ctx} {i : Nat}

private theorem Keeps.store (h : ctx.Keeps law) (ht : Table e ctx) {slot : Slot} (acts : List Act)
    (hpeer : slot.peer ≠ none)
    (hid : ∀ j < e.maxPeers, j ≠ i → (ctx.peers j).active = true → (ctx.peers j).peer ≠ slot.peer)
    (hlog : slot.log = ctx.log ++ acts.map fun act => (slot.peerId, act))
    (hslot : law.holds none (slot.view e)) : (ctx.store i slot).Keeps law := by
  have hother : ∀ p, slot.peerId ≠ p → entriesOf p slot.log = entriesOf p ctx.log := fun p hp => by
    rw [hlog]
    exact entriesOf_append_other hp _ _
  refine ⟨fun p => ?_, fun j hj hactive => ?_⟩
  · by_cases hp : slot.peerId = p
    · subst hp
      exact law.record_of hslot
    · change law.record (entriesOf p slot.log)
      rw [hother p hp]
      exact h.record p
  · by_cases hji : j = i
    · subst hji
      rw [slotInitPeer_store_self]
      exact hslot
    · rw [store_peers_of_ne hji] at hactive
      have hview : ((ctx.store i slot).slotInitPeer j).view e =
          { (ctx.slotInitPeer j).view e with log := slot.log } := by
        unfold slotInitPeer
        rw [store_peers_of_ne hji]
        rfl
      rw [hview]
      refine law.of_log (hother _ fun heq => ?_) (h.slots j hj hactive)
      exact hid j hj hji hactive (peer_eq_of_peerId (ht.peer j hj hactive) hpeer heq.symm)

private theorem Keeps.store_used (h : ctx.Keeps law) (ht : Table e ctx) {cur : Option Packet}
    {slot : Slot} (acts : List Act) (hi : i < e.maxPeers) (hactive : (ctx.peers i).active = true)
    (hmoves : Moves e cur (((ctx.slotInitPeer i).view e).emits acts) (slot.view e))
    (hstart : law.holds cur (((ctx.slotInitPeer i).view e).emits acts)) :
    (ctx.store i slot).Keeps law := by
  have hpeer : slot.peer = (ctx.peers i).peer := Moves.peer_eq hmoves
  have hid : slot.peerId = (ctx.peers i).peerId := congrArg (Option.getD · PEER_NA) hpeer
  have hinv := (ht.ok i hi hactive).inv
  obtain ⟨more, hmore⟩ := hmoves.log_emits
  refine h.store ht (acts ++ more) (hpeer ▸ ht.peer i hi hactive)
    (fun j hj hji hj' heq => hji ?_) ?_
    (law.moves hmoves ⟨hinv.kind, hinv.wf, hinv.size, hinv.timer⟩ hstart)
  · exact ht.ids j hj i hi hj' hactive (heq.trans hpeer)
  · rw [hid]
    change slot.log = _ at hmore
    rw [hmore]
    simp [View.emits, View.peerId, Slot.view, slotInitPeer, PeerContext.peerId]

end

end Ctx

end Porter
