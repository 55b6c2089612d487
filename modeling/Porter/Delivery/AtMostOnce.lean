import Porter.Delivery.Order

namespace Porter

open View

namespace Slot

-- DATA, PING and FIN packets of one session, or a quiet moment.
def Input.OfSession (session : SessionHdr) : Input → Prop
  | .packet _ _ pkt =>
      pkt.session = session ∧
        (pkt.has FLAG_DATA = true ∨ pkt.has FLAG_PING = true ∨ pkt.has FLAG_FIN = true) ∧
        pkt.has FLAG_NACK = false ∧ pkt.has FLAG_REJECT = false
  | .pollTimeout => True

instance (session : SessionHdr) : ∀ input, Decidable (Input.OfSession session input)
  | .packet _ _ pkt => inferInstanceAs (Decidable (pkt.session = session ∧
      (pkt.has FLAG_DATA = true ∨ pkt.has FLAG_PING = true ∨ pkt.has FLAG_FIN = true) ∧
      pkt.has FLAG_NACK = false ∧ pkt.has FLAG_REJECT = false))
  | .pollTimeout => .isTrue trivial

-- Where the window stands for a packet: at its own number when it is the one that starts it.
def position (slot : Slot) (pkt : Packet) : UInt32 :=
  if slot.peerSessionKnown then slot.recvWindow.nextSeq else pkt.seqNum

-- No number is used a second time by wrap-around and, once a session was forgotten, DATA is
-- only let in by a window that stands above everything handed over.
def StandsAbove (e : Env) (slot : Slot) : Input → Prop
  | .packet _ _ pkt =>
      pkt.seqNum.toNat + e.windowSize < 2 ^ 32 ∧
        (pkt.has FLAG_DATA = true → sessionLost slot.log = true →
          ∀ t ∈ handedSeqs e slot.log, t < (slot.position pkt).toNat)
  | .pollTimeout => True

instance (e : Env) (slot : Slot) : ∀ input, Decidable (slot.StandsAbove e input)
  | .packet _ _ pkt => inferInstanceAs (Decidable (pkt.seqNum.toNat + e.windowSize < 2 ^ 32 ∧
      (pkt.has FLAG_DATA = true → sessionLost slot.log = true →
        ∀ t ∈ handedSeqs e slot.log, t < (slot.position pkt).toNat)))
  | .pollTimeout => .isTrue trivial

section

variable {e : Env} {slot : Slot} {session : SessionHdr} {input : Input}

theorem Input.OfSession.cur (h : input.OfSession session) {pkt : Packet}
    (hcur : input.cur = some pkt) : pkt.session = session ∧ pkt.has FLAG_REJECT = false := by
  cases input with
  | pollTimeout => cases hcur
  | packet path sender got =>
    obtain rfl := Option.some.inj hcur
    exact ⟨h.1, h.2.2.2⟩

theorem StandsAbove.cur (h : slot.StandsAbove e input) {pkt : Packet}
    (hcur : input.cur = some pkt) :
    pkt.seqNum.toNat + e.windowSize < 2 ^ 32 ∧
      (pkt.has FLAG_DATA = true → sessionLost slot.log = true →
        ∀ t ∈ handedSeqs e slot.log, t < (slot.position pkt).toNat) := by
  cases input with
  | pollTimeout => cases hcur
  | packet path sender got =>
    obtain rfl := Option.some.inj hcur
    exact h

theorem step_stands (hlex : e.plat.CmpLex) (hraw : e.type.isRawType = false)
    (hin : input.OfSession session) (habove : slot.StandsAbove e input)
    (hpeer : slot.peer = none) (hok : Ok e slot)
    (h : (slot.view e).Ordered e session (2 ^ 32 - e.windowSize) (sessionLost slot.log = false)
      none) :
    ((slot.step e input).view e).Ordered e session (2 ^ 32 - e.windowSize)
      (sessionLost (slot.step e input).log = false) none := by
  have hsize := e.windowSize_le
  simp only [MAX_WINDOW_SIZE] at hsize
  obtain ⟨rest, hlog⟩ := step_log_extends hlex hpeer hok input
  have hfirst : sessionLost (slot.step e input).log = false → sessionLost slot.log = false :=
    fun hlost => by
      rw [hlog] at hlost
      exact sessionLost_of_append hlost
  have hdata : Drains input.cur → sessionLost slot.log = true →
      ∃ pkt, input.cur = some pkt ∧ ∀ t ∈ handedSeqs e slot.log, t < (slot.position pkt).toNat := by
    rintro ⟨pkt, hcur, hkind⟩ hlost
    rcases hkind with hreject | ⟨hdata, -⟩
    · rw [(hin.cur hcur).2] at hreject
      cases hreject
    · exact ⟨pkt, hcur, (habove.cur hcur).2 hdata hlost⟩
  suffices hstep : ((slot.step e input).view e).Ordered e session (2 ^ 32 - e.windowSize)
      (Drains input.cur ∨ sessionLost (slot.step e input).log = false) none from
    hstep.weaken .inr
  refine step_ordered hlex (by omega) .inl (fun pkt hcur => ?_) hpeer hok h ?_ ?_
  · have hnum := (habove.cur hcur).1
    exact ⟨(hin.cur hcur).1, by omega, (hin.cur hcur).2⟩
  · intro hfront hknown
    cases hlost : sessionLost slot.log with
    | false => exact h.behind hlost hknown
    | true =>
      rcases hfront with hdrains | hfalse
      · obtain ⟨pkt, -, hpos⟩ := hdata hdrains hlost
        simpa [position, hknown] using hpos
      · rw [hfirst hfalse] at hlost
        cases hlost
  · intro hfront hunknown pkt hcur
    have hknown : slot.peerSessionKnown = false := by
      rcases hunknown with h | h
      · exact h
      · rw [hraw] at h
        cases h
    cases hlost : sessionLost slot.log with
    | false =>
      have hnone : handedSeqs e slot.log = [] := h.start hknown hlost
      simp [hnone]
    | true =>
      rcases hfront with hdrains | hfalse
      · obtain ⟨pkt', hcur', hpos⟩ := hdata hdrains hlost
        obtain rfl := Option.some.inj (hcur.symm.trans hcur')
        simpa [position, hknown] using hpos
      · rw [hfirst hfalse] at hlost
        cases hlost

end

end Slot

-- No number of a session is handed over twice in a run of a 1:1 retransmitting receiver whose
-- steps all meet the condition.
theorem handed_at_most_once (e : Env) (hlex : e.plat.CmpLex) (hraw : e.type.isRawType = false)
    (session : SessionHdr) (inputs : List Slot.Input)
    (htraffic : ∀ input ∈ inputs, input.OfSession session) (id : UInt32) (ts : Timespec)
    (destAddr : Path → Endpoint)
    (hmeets : Run.Meets (Slot.step e) (Slot.StandsAbove e) (Slot.opened e id ts destAddr) inputs) :
    (handedSeqs e ((Slot.opened e id ts destAddr).run e inputs).log).Nodup := by
  have hpeer : (Slot.opened e id ts destAddr).peer = none := rfl
  have hok := Slot.opened_ok (e := e) id ts destAddr
  have hord : ((Slot.opened e id ts destAddr).view e).Ordered e session (2 ^ 32 - e.windowSize)
      (sessionLost (Slot.opened e id ts destAddr).log = false) none :=
    Slot.opened_ordered id ts destAddr
  generalize Slot.opened e id ts destAddr = slot at hpeer hok hord hmeets
  induction inputs generalizing slot with
  | nil => exact hord.incr.imp Nat.ne_of_lt
  | cons input rest ih =>
      exact ih (fun i hi => htraffic i (List.mem_cons_of_mem input hi)) (slot.step e input)
        (Slot.step_peer hlex hpeer hok input) (Slot.step_moves hlex hpeer hok input).2
        (Slot.step_stands hlex hraw (htraffic input List.mem_cons_self) hmeets.1 hpeer hok hord)
        hmeets.2

def Packet.sampleFin (finTarget : UInt32) : Packet :=
  { buildFin sampleSession with
    ackNum := finTarget, flags := FLAG_FIN ||| FLAG_FIN_TARGET_VALID }

-- Retransmitted copies, and the copy of a FIN that was processed.
theorem handed_at_most_once_sample :
    (handedSeqs (Env.sample .unicast) ((Slot.sample (Env.sample .unicast)).run (Env.sample .unicast)
      [.sample (.sampleData 0 [⟨0, [1]⟩]), .sample (.sampleData 2 [⟨0, [3]⟩]),
        .sample (.sampleData 0 [⟨0, [1]⟩]), .sample (.sampleData 1 [⟨0, [2]⟩]),
        .sample (.sampleData 2 [⟨0, [3]⟩]), .sample (.samplePing 3), .sample (.sampleFin 3),
        .sample (.sampleFin 3)]).log).Nodup :=
  handed_at_most_once (Env.sample .unicast) Cplat.reference_cmpLex rfl ⟨5, ⟨9, 0⟩⟩ _
    (by decide) _ _ _ (by decide +kernel)

-- A copy of DATA that arrives after the FIN starts the session anew and is handed over again.
theorem late_copy_after_fin_redelivered :
    (∀ input ∈ [Slot.Input.sample (.sampleData 0 [⟨0, [1]⟩]), .sample (.sampleFin 1),
        .sample (.sampleData 0 [⟨0, [1]⟩])], input.OfSession ⟨5, ⟨9, 0⟩⟩) ∧
    ¬ (handedSeqs (Env.sample .unicast) ((Slot.sample (Env.sample .unicast)).run
      (Env.sample .unicast)
      [.sample (.sampleData 0 [⟨0, [1]⟩]), .sample (.sampleFin 1),
        .sample (.sampleData 0 [⟨0, [1]⟩])]).log).Nodup := by
  decide +kernel

end Porter
