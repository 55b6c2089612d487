import Porter.Delivery.Integrity.Slot

namespace Porter

theorem Senders.Intact.of_log {e : Env} {ss : Senders e} {v : View} (h : ss.Intact v)
    {log : List (UInt32 × Act)} (hlog : ∀ data ∈ delivered log, ss.Sent data) :
    ss.Intact { v with log := log } :=
  ⟨⟨h.held, hlog⟩, h.precede⟩

namespace Ctx

open View

-- Every peer in use is between two rounds of its own.
structure Intact {e : Env} (ss : Senders e) (ctx : Ctx) : Prop where
  slots : ∀ i < e.maxPeers, (ctx.peers i).active = true →
    ss.Intact ((ctx.slotInitPeer i).view e)
  whole : ∀ data ∈ delivered ctx.log, ss.Sent data

-- The condition on a step of an N:1 service. A new peer starts without fragments.
def ContinuesAt {e : Env} (ss : Senders e) (ctx : Ctx) : Slot.Input → Prop
  | .packet _ _ pkt =>
      match ctx.findBySession e pkt with
      | some i => (ctx.slotInitPeer i).Continues ss pkt
      | none => pkt.has FLAG_PING = true →
          ss.Precede Reassembly.empty pkt.session pkt.seqNum
  | .pollTimeout => True

instance {e : Env} (ss : Senders e) (ctx : Ctx) :
    ∀ input : Slot.Input, Decidable (ctx.ContinuesAt ss input)
  | .packet _ _ pkt => by
      unfold ContinuesAt
      dsimp only
      split <;> infer_instance
  | .pollTimeout => .isTrue trivial

section

variable {e : Env} {ss : Senders e} {ctx ctx' : Ctx}

theorem Intact.store (h : ctx.Intact ss) (i : Nat) {slot : Slot} (hslot : ss.Intact (slot.view e)) :
    (ctx.store i slot).Intact ss := by
  refine ⟨fun j hj hactive => ?_, hslot.whole⟩
  by_cases hji : j = i
  · subst hji
    rw [slotInitPeer_store_self]
    exact hslot
  · rw [store_peers_of_ne hji] at hactive
    have hview : ((ctx.store i slot).slotInitPeer j).view e =
        { (ctx.slotInitPeer j).view e with log := slot.log } := by
      unfold slotInitPeer
      rw [store_peers_of_ne hji]
      rfl
    rw [hview]
    exact (h.slots j hj hactive).of_log hslot.whole

theorem Intact.of_idle (h : ctx.Intact ss) (hlog : ctx'.log = ctx.log)
    (hpeers : ∀ i, (ctx'.peers i).active = true → ctx'.peers i = ctx.peers i) :
    ctx'.Intact ss := by
  refine ⟨fun i hi hactive => ?_, hlog ▸ h.whole⟩
  have hsame := hpeers i hactive
  rw [hsame] at hactive
  have hview : (ctx'.slotInitPeer i).view e = (ctx.slotInitPeer i).view e := by
    unfold slotInitPeer
    rw [hsame, hlog]
    rfl
  rw [hview]
  exact h.slots i hi hactive

private theorem found_intact (hlex : e.plat.CmpLex) (hkind : e.type = .unicastBidirN1)
    (ht : Table e ctx) (h : ctx.Intact ss) {pkt : Packet} {path : Path} {sender : Endpoint} {i : Nat}
    (hfind : ctx.findBySession e pkt = some i)
    (hgenuine : pkt.has FLAG_DATA = true → ss.Genuine pkt)
    (hc : (ctx.slotInitPeer i).Continues ss pkt) :
    (ctx.store i (((ctx.slotInitPeer i).emit (.recv pkt)).dispatchPacket e pkt path
      sender)).Intact ss := by
  obtain ⟨hi, hactive, -⟩ := findBySession_some hlex hfind
  have hudp : e.type.isTcpType = false := by rw [hkind]; rfl
  refine h.store i (Slot.dispatchPacket_intact hlex hudp path sender
    (Slot.emit_ok (ht.ok i hi hactive) _) ?_ hgenuine hc)
  exact (h.slots i hi hactive).of_idle (Idle.emit _ rfl)

private theorem created_intact (hlex : e.plat.CmpLex) (hkind : e.type = .unicastBidirN1)
    (h : ctx.Intact ss) {pkt : Packet} {path : Path} {sender : Endpoint} {fresh : Slot}
    {peerId : UInt32} (hfresh : Fresh e peerId fresh) (hlog : fresh.log = ctx.log)
    (hping : pkt.flags = FLAG_PING) (hc : ss.Precede Reassembly.empty pkt.session pkt.seqNum) :
    ss.Intact ((((fresh.emit (.recv pkt)).adoptSession e pkt).dispatchPacket e pkt path
      sender).view e) := by
  have hudp : e.type.isTcpType = false := by rw [hkind]; rfl
  have hflag : ∀ flag : UInt16, FLAG_PING &&& flag = 0 → pkt.has flag = false := fun flag hf => by
    simp [Packet.has, hping, hf]
  have hstart : ss.Intact (((fresh.emit (.recv pkt)).adoptSession e pkt).view e) := by
    have hrecv := Idle.emit (fresh.view e) (rfl : (Act.recv pkt).message = none)
    have hadopt := Idle.emit ((fresh.emit (.recv pkt)).view e)
      (rfl : (Act.adopt pkt.session pkt.seqNum).message = none)
    have hlogged := hadopt.delivered_eq.trans hrecv.delivered_eq
    refine ⟨⟨fun _ seq other hother => ?_, fun data hdata => ?_⟩, fun _ => ?_⟩
    · change (Window.init pkt.seqNum e.windowSize).held seq = some other at hother
      rw [Window.held_init] at hother
      cases hother
    · have hdata' : data ∈ delivered fresh.log := hlogged ▸ hdata
      rw [hlog] at hdata'
      exact h.whole data hdata'
    · change ss.Precede fresh.reassembly pkt.session pkt.seqNum
      rw [hfresh.frag]
      exact hc
  refine Slot.dispatchPacket_intact hlex hudp path sender (adopted_ok hkind fresh pkt) hstart
    (fun hdata => ?_) fun _ seq frag hres => ?_
  · rw [hflag FLAG_DATA (by decide)] at hdata
    cases hdata
  · -- The session is the tracked one by now, so a PING leaves nothing out.
    have hstays : ¬ ((fresh.emit (.recv pkt)).adoptSession e pkt).Joins e pkt := by
      rintro (hoff | hnewer)
      · cases hoff
      · exact newer_ne_session hlex hnewer rfl
    have hraw : e.type.isRawType = false := by rw [hkind]; rfl
    have hping' : pkt.has FLAG_PING = true := by
      unfold Packet.has
      rw [hping]
      rfl
    unfold Slot.resumption at hres
    simp [hflag FLAG_FIN (by decide), hflag FLAG_NACK (by decide), hflag FLAG_REJECT (by decide),
      hstays, hraw, hping'] at hres

private theorem healthCheckPeer_intact (nowTs : Timespec) (ht : Table e ctx) (h : ctx.Intact ss)
    {i : Nat} (hi : i < e.maxPeers) :
    (ctx.store i ((ctx.slotInitPeer i).healthCheckPeer e nowTs)).Intact ss := by
  by_cases hactive : (ctx.peers i).active = true
  · have hpeer : (ctx.slotInitPeer i).peer.isSome = true :=
      Option.isSome_iff_ne_none.mpr (ht.peer i hi hactive)
    have hmoves : Moves e none ((ctx.slotInitPeer i).view e) _ :=
      (Slot.healthCheckPeer_moves nowTs hpeer (ht.ok i hi hactive).head).1
    exact h.store i ((h.slots i hi hactive).of_quiet (Moves.quiet hmoves))
  · rw [healthCheckPeer_inactive hactive]
    refine h.of_idle rfl fun j _ => ?_
    by_cases hji : j = i
    · subst hji
      exact store_peers_self ..
    · exact store_peers_of_ne hji _

private theorem healthCheckPeers_intact (hlex : e.plat.CmpLex) (ht : Table e ctx)
    (h : ctx.Intact ss) : (ctx.healthCheckPeers e).Intact ss := by
  have hidle : Change e ctx { ctx with tick := ctx.tick + 1 } := .idle _ _ rfl fun _ => .inl rfl
  have hticked : Intact ss { ctx with tick := ctx.tick + 1 } := h.of_idle rfl fun _ _ => rfl
  unfold healthCheckPeers
  split
  · exact hticked
  · refine (Run.foldl_preserves_of_mem (P := fun ctx' => Table e ctx' ∧ Intact ss ctx') ?_
      ⟨hidle.table hlex ht, hticked⟩).2
    intro ctx' i hi hctx
    have hlt := List.mem_range.mp hi
    exact ⟨Changes.table hlex (healthCheckPeer_changes _ hctx.1 hlt) hctx.1,
      healthCheckPeer_intact _ hctx.1 hctx.2 hlt⟩

theorem step_intact (hlex : e.plat.CmpLex) (hkind : e.type = .unicastBidirN1) (ht : Table e ctx)
    (h : ctx.Intact ss) {input : Slot.Input} (hin : input.Honest ss)
    (hc : ctx.ContinuesAt ss input) : (ctx.step e input).Intact ss := by
  cases input with
  | packet path sender pkt =>
    change Intact ss (if e.nPath ≤ path.val then ctx else ctx.n1HandlePacket e pkt path sender)
    split
    · exact h
    unfold ContinuesAt at hc
    have hhandled := n1HandlePacket_handled (e := e) ctx pkt path sender
    generalize ctx.n1HandlePacket e pkt path sender = ctx' at hhandled ⊢
    cases hhandled with
    | found i hfind =>
      simp only [hfind] at hc
      exact found_intact hlex hkind ht h hfind hin.1 hc
    | idle ctx' hlog hpeers =>
      refine h.of_idle hlog fun j hactive => ?_
      rcases hpeers j with hsame | ⟨-, hoff⟩
      · exact hsame
      · exact absurd (hoff.symm.trans hactive) Bool.false_ne_true
    | created i peerId nextPeerId fresh hfind hping _ _ _ hfresh hlog =>
      simp only [hfind] at hc
      have hkept : Intact ss { ctx with nextPeerId := nextPeerId } := h.of_idle rfl fun _ _ => rfl
      exact hkept.store i (created_intact hlex hkind h hfresh hlog (hin.2 hping) (hc hping))
  | pollTimeout => exact healthCheckPeers_intact hlex ht h

end

end Ctx

end Porter
