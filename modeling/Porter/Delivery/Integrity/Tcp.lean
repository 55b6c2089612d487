import Porter.Delivery.Integrity.Slot
import Porter.Moves.Tcp

namespace Porter

namespace TcpCtx

open View Senders

def Input.Honest {e : Env} (ss : Senders e) : Input → Prop
  | packet _ pkt => pkt.has FLAG_DATA = true → ss.Genuine pkt
  | _ => True

-- The condition on a step of a TCP service. Only FIN and DATA can start a session.
def ContinuesAt {e : Env} (ss : Senders e) (ctx : TcpCtx) : Input → Prop
  | .packet path pkt => ctx.running path = true → ctx.refuses e pkt = false →
      pkt.has FLAG_FIN_ACK = false → pkt.has FLAG_FIN = true ∨ pkt.has FLAG_PING = false →
      ctx.toSlot.Continues ss pkt
  | _ => True

instance {e : Env} (ss : Senders e) : ∀ input : Input, Decidable (input.Honest ss) := by
  intro input
  cases input <;> unfold Input.Honest <;> infer_instance

instance {e : Env} (ss : Senders e) (ctx : TcpCtx) :
    ∀ input : Input, Decidable (ctx.ContinuesAt ss input) := by
  intro input
  cases input <;> unfold ContinuesAt <;> infer_instance

section

variable {e : Env} {ss : Senders e} {ctx : TcpCtx} {slot : Slot} {pkt : Packet}

private theorem acceptData_intact (hlex : e.plat.CmpLex) (htcp : e.type.isTcpType = true)
    (hok : Slot.Ok e slot) (h : ss.Intact (slot.view e)) (hgenuine : ss.Genuine pkt)
    (hc : slot.Continues ss pkt) : ss.Intact ((acceptData e slot pkt).view e) := by
  have hflag : ∀ flag : UInt16, FLAG_DATA &&& flag = 0 → pkt.has flag = false := fun flag hf => by
    simp [Packet.has, hgenuine.flags, hf]
  have hkind : pkt.has (FLAG_DATA ||| FLAG_PING) = true := by
    unfold Packet.has
    rw [hgenuine.flags]
    rfl
  have hraw : e.type.isRawType = false := by
    revert htcp
    cases e.type <;> decide
  have hres : slot.resumption e pkt = if slot.Joins e pkt then
      if slot.dropsData e then
        some ((((slot.met e pkt).recvPush pkt).getD (slot.met e pkt)).landing, slot.reassembly)
      else some (pkt.seqNum, slot.reassembly)
      else if slot.dropsData e then
        some ((((slot.met e pkt).recvPush pkt).getD (slot.met e pkt)).landing, slot.reassembly)
      else none := by
    unfold Slot.resumption
    simp [hflag FLAG_FIN (by decide), hflag FLAG_NACK (by decide), hflag FLAG_REJECT (by decide),
      hflag FLAG_PING (by decide), hkind, hraw]
  have hdrops : slot.dropsData e = !slot.healthAlive := by
    simp [Slot.dropsData, htcp]
  rcases acceptData_cases slot pkt with ⟨hout, heq⟩ | ⟨hin, hnone, heq⟩ |
    ⟨win, hin, hpush, heq⟩
  · rw [heq, Slot.sessionAdopt_out hlex (by simp [hout])]
    exact h
  · rw [heq]
    have ha := Slot.sessionAdopt_admitted hlex hok h hin
    refine ha.intact h fun hj => ?_
    obtain ⟨fresh, hfresh, -⟩ := Slot.init_push pkt e.windowSize_pos
    rw [ha.win, Slot.met, if_pos hj, hfresh] at hnone
    cases hnone
  · rw [heq]
    have ha := Slot.sessionAdopt_admitted hlex hok h hin
    have hc' := hc (Slot.admits_of_adopt hlex hin)
    rw [hres] at hc'
    have hstock : ss.Stock (((slot.sessionAdopt e pkt).1.pushed pkt win).view e) :=
      (ha.stock.push ha.inv.wf hpush ha.session.symm hgenuine).of_idle (Idle.emit _ rfl)
    refine Intact.of_quiet ?_ (Slot.slotDrainRecvWindow_quiet _)
    refine Slot.drainLoop_intact ?_ ha.known hstock (fun halive => ?_) fun hdead => ?_
    · exact Window.recvPush_wf ha.inv.wf hpush
    · change ss.Precede (slot.sessionAdopt e pkt).1.reassembly
        ((slot.sessionAdopt e pkt).1.view e).session win.nextSeq
      rw [Window.recvPush_nextSeq hpush]
      refine (ha.intact h fun hj => hc' _ _ ?_).precede ha.known
      have halive' : slot.healthAlive = true := ha.alive.symm.trans halive
      simp [hj, hdrops, halive']
    · change ss.Precede (slot.sessionAdopt e pkt).1.reassembly
        ((slot.sessionAdopt e pkt).1.view e).session win.landing
      have hdead' : slot.healthAlive = false := ha.alive.symm.trans hdead
      rw [ha.frag, ha.session]
      have hland : (((slot.met e pkt).recvPush pkt).getD (slot.met e pkt)) = win := by
        rw [← ha.win, hpush]
        rfl
      refine hc' _ _ ?_
      simp [hdrops, hdead', hland]

theorem step_intact (hlex : e.plat.CmpLex) (htcp : e.type.isTcpType = true) (hok : ctx.Ok e)
    (h : ss.Intact (ctx.toSlot.view e)) {input : Input} (hin : input.Honest ss)
    (hc : ctx.ContinuesAt ss input) : ss.Intact ((ctx.step e input).toSlot.view e) := by
  by_cases hpacket : ∃ path pkt, input = .packet path pkt
  · obtain ⟨path, pkt, rfl⟩ := hpacket
    have hok' := Slot.emit_ok hok.slot (.recv pkt)
    have hnoted : ss.Intact ((ctx.toSlot.emit (.recv pkt)).view e) := h.of_idle (Idle.emit _ rfl)
    rcases step_packet_cases ctx path pkt with
      hs | ⟨hrunning, hrefuses, hack, ⟨hfin, heq⟩ | ⟨-, hping, hdata, heq⟩⟩
    · exact h.of_quiet hs.quiet
    · rw [heq]
      exact Slot.dispatchFin_intact hlex hok' hnoted hfin
        (hc hrunning hrefuses hack (.inl hfin))
    · rw [heq]
      exact acceptData_intact hlex htcp hok' hnoted (hin hdata)
        (hc hrunning hrefuses hack (.inr hping))
  · exact h.of_quiet (step_still ctx fun path pkt heq => hpacket ⟨path, pkt, heq⟩).quiet

end

end TcpCtx

end Porter
