import Porter.Delivery.Integrity.Peers
import Porter.Delivery.Integrity.Tcp
import Porter.Platform

namespace Porter

open View Senders

section

variable {e : Env} {sender : Sessions e}

private theorem Senders.intact_of_unknown {ss : Senders e} {v : View} (hknown : v.known = false)
    (hwhole : ∀ data ∈ delivered v.log, ss.Sent data) : ss.Intact v := by
  refine ⟨⟨fun h => ?_, hwhole⟩, fun h => ?_⟩ <;>
    exact absurd (hknown.symm.trans h) Bool.false_ne_true

private theorem Senders.accepted_of_sent {data : Bytes} (h : Sent ⟨sender, []⟩ data) :
    sender.Accepted data := h.resolve_left List.not_mem_nil

theorem Slot.run_accepted (hlex : e.plat.CmpLex) (hudp : e.type.isTcpType = false)
    {inputs : List Slot.Input} (hin : ∀ input ∈ inputs, input.Honest ⟨sender, []⟩)
    (sessionId : UInt32) (sessionTs : Timespec) (destAddr : Path → Endpoint)
    (hmeets : Run.Meets (Slot.step e) (Slot.ContinuesAt ⟨sender, []⟩)
      (Slot.opened e sessionId sessionTs destAddr) inputs) :
    ∀ data ∈ delivered ((Slot.opened e sessionId sessionTs destAddr).run e inputs).log,
      sender.Accepted data := by
  have hstart : Intact ⟨sender, []⟩ ((Slot.opened e sessionId sessionTs destAddr).view e) :=
    intact_of_unknown rfl fun _ h => absurd h List.not_mem_nil
  have hrun := (hmeets.and_forall hin).preserves
    (P := fun slot => slot.peer = none ∧ Slot.Ok e slot ∧ Intact ⟨sender, []⟩ (slot.view e))
    (fun slot input hc h => ⟨Slot.step_peer hlex h.1 h.2.1 input,
      (Slot.step_moves hlex h.1 h.2.1 input).2,
      Slot.step_intact hlex hudp h.1 h.2.1 h.2.2 hc.2 hc.1⟩)
    ⟨rfl, Slot.opened_ok sessionId sessionTs destAddr, hstart⟩
  exact fun data hdata => accepted_of_sent (hrun.2.2.whole data hdata)

theorem Ctx.run_accepted (hlex : e.plat.CmpLex) (hkind : e.type = .unicastBidirN1)
    {inputs : List Slot.Input} (hin : ∀ input ∈ inputs, input.Honest ⟨sender, []⟩)
    (hmeets : Run.Meets (Ctx.step e) (Ctx.ContinuesAt ⟨sender, []⟩) (Ctx.opened e) inputs) :
    ∀ data ∈ delivered ((Ctx.opened e).run e inputs).log, sender.Accepted data := by
  have hstart : (Ctx.opened e).Intact ⟨sender, []⟩ :=
    ⟨fun _ _ hactive => absurd hactive Bool.false_ne_true, fun _ h => absurd h List.not_mem_nil⟩
  have hrun := (hmeets.and_forall hin).preserves
    (P := fun ctx => Ctx.Table e ctx ∧ ctx.Intact ⟨sender, []⟩)
    (fun ctx input hc h => ⟨Ctx.Changes.table hlex (Ctx.step_changes hlex hkind h.1 input) h.1,
      Ctx.step_intact hlex hkind h.1 h.2 hc.2 hc.1⟩)
    ⟨Ctx.opened_table, hstart⟩
  exact fun data hdata => accepted_of_sent (hrun.2.whole data hdata)

end

-- The life of a TCP service in stretches. The senders number their packets on throughout a
-- stretch; a sender that has lost all its connections starts over at 0 in the same session, and
-- a new stretch begins, with no session tracked.
def TcpCtx.Stretches {e : Env} (ctx : TcpCtx) : List (Sessions e × List TcpCtx.Input) → Prop
  | [] => True
  | (sender, inputs) :: rest =>
      ctx.peerSessionKnown = false ∧ (∀ input ∈ inputs, input.Honest ⟨sender, []⟩) ∧
        Run.Meets (TcpCtx.step e) (TcpCtx.ContinuesAt ⟨sender, []⟩) ctx inputs ∧
        (ctx.run e inputs).Stretches rest

theorem TcpCtx.run_accepted {e : Env} (hlex : e.plat.CmpLex) (htcp : e.type.isTcpType = true)
    {life : List (Sessions e × List TcpCtx.Input)} {ctx : TcpCtx} (hok : ctx.Ok e)
    (hlife : ctx.Stretches life) :
    ∀ data ∈ delivered (ctx.run e (life.flatMap Prod.snd)).log,
      data ∈ delivered ctx.log ∨ ∃ stretch ∈ life, stretch.1.Accepted data := by
  induction life generalizing ctx with
  | nil => exact fun data hdata => .inl hdata
  | cons stretch rest ih =>
    obtain ⟨sender, inputs⟩ := stretch
    obtain ⟨hknown, hin, hmeets, hrest⟩ := hlife
    have hstart : Intact ⟨sender, delivered ctx.log⟩ (ctx.toSlot.view e) :=
      intact_of_unknown hknown fun _ h => .inl h
    have hrun := (hmeets.and_forall hin).preserves
      (P := fun ctx' => ctx'.Ok e ∧
        Intact ⟨sender, delivered ctx.log⟩ (ctx'.toSlot.view e))
      (fun ctx' input hc h => ⟨step_ok hlex h.1 input,
        step_intact hlex htcp h.1 h.2 hc.2 hc.1⟩) ⟨hok, hstart⟩
    intro data hdata
    rw [List.flatMap_cons, run, List.foldl_append] at hdata
    rcases ih hrun.1 hrest data hdata with hbefore | ⟨stretch, hmem, haccepted⟩
    · rcases hrun.2.whole data hbefore with hearlier | haccepted
      · exact .inl hearlier
      · exact .inr ⟨_, List.mem_cons_self, haccepted⟩
    · exact .inr ⟨stretch, List.mem_cons_of_mem _ hmem, haccepted⟩

-- Where every step meets the condition, what the application gets are whole messages, for a 1:1
-- UDP service, an N:1 service and a TCP service.
theorem message_integrity (e : Env) (hlex : e.plat.CmpLex) (sessionId : UInt32)
    (sessionTs : Timespec) (destAddr : Path → Endpoint) :
    (e.type.isTcpType = false → e.type ≠ .unicastBidirN1 →
      ∀ (sender : Sessions e) (inputs : List Slot.Input),
      (∀ input ∈ inputs, input.Honest ⟨sender, []⟩) →
      Run.Meets (Slot.step e) (Slot.ContinuesAt ⟨sender, []⟩)
        (Slot.opened e sessionId sessionTs destAddr) inputs →
      ∀ data ∈ delivered ((Slot.opened e sessionId sessionTs destAddr).run e inputs).log,
        sender.Accepted data) ∧
    (e.type = .unicastBidirN1 → ∀ (sender : Sessions e) (inputs : List Slot.Input),
      (∀ input ∈ inputs, input.Honest ⟨sender, []⟩) →
      Run.Meets (Ctx.step e) (Ctx.ContinuesAt ⟨sender, []⟩) (Ctx.opened e) inputs →
      ∀ data ∈ delivered ((Ctx.opened e).run e inputs).log, sender.Accepted data) ∧
    (e.type.isTcpType = true → ∀ life : List (Sessions e × List TcpCtx.Input),
      (TcpCtx.opened e sessionId sessionTs destAddr).Stretches life →
      ∀ data ∈ delivered ((TcpCtx.opened e sessionId sessionTs destAddr).run e
        (life.flatMap Prod.snd)).log, ∃ stretch ∈ life, stretch.1.Accepted data) := by
  refine ⟨fun hudp _ sender inputs hin hmeets => ?_, fun hkind sender inputs hin hmeets => ?_,
    fun htcp life hlife data hdata => ?_⟩
  · exact Slot.run_accepted hlex hudp hin sessionId sessionTs destAddr hmeets
  · exact Ctx.run_accepted hlex hkind hin hmeets
  · have hrun := TcpCtx.run_accepted hlex htcp (TcpCtx.opened_ok sessionId sessionTs destAddr)
      hlife data hdata
    exact hrun.resolve_left List.not_mem_nil

-- A sender whose message of 60 bytes takes two packets.
def HonestSender.sample (type : PotrType) : HonestSender (Env.sample type) ⟨5, ⟨9, 0⟩⟩ where
  env := Env.sampleSender .unicast
  codec := Cplat.reference_codec rfl rfl rfl
  crypto := Cplat.reference_crypto rfl rfl rfl rfl rfl rfl
  slot := Slot.opened (Env.sampleSender .unicast) 5 ⟨9, 0⟩ fun _ => .target
  fresh := rfl
  active h := absurd h Bool.false_ne_true
  own := rfl
  tcpActivePaths := 0
  calls := [(List.replicate 58 7 ++ [1, 2], false)]
  acts := [.call, .push, .pop, .flush, .push, .pop, .flush]
  short := by decide +kernel

def TcpCtx.sample (e : Env) : TcpCtx := TcpCtx.opened e 3 ⟨2, 0⟩ fun _ => .target

theorem message_integrity_sample :
    (∀ data ∈ delivered ((Slot.sample (Env.sample .unicast)).run (Env.sample .unicast)
        ((HonestSender.sample .unicast).arrivals.map .sample)).log,
      (Sessions.single (HonestSender.sample .unicast)).Accepted data) ∧
    (∀ data ∈ delivered ((Ctx.opened (Env.sample .unicastBidirN1)).run (Env.sample .unicastBidirN1)
        (.sample (.samplePing 0) :: (HonestSender.sample .unicastBidirN1).arrivals.map .sample)).log,
      (Sessions.single (HonestSender.sample .unicastBidirN1)).Accepted data) ∧
    ∀ data ∈ delivered ((TcpCtx.sample (Env.sample .tcp)).run (Env.sample .tcp)
        ([(Sessions.single (HonestSender.sample .tcp),
          .accept 0 (.samplePing 0) :: .start 0 :: .packet 0 (.samplePing 0) ::
            (HonestSender.sample .tcp).arrivals.map (TcpCtx.Input.packet 0))].flatMap Prod.snd)).log,
      ∃ stretch ∈ [(Sessions.single (HonestSender.sample .tcp),
          .accept 0 (.samplePing 0) :: .start 0 :: .packet 0 (.samplePing 0) ::
            (HonestSender.sample .tcp).arrivals.map (TcpCtx.Input.packet 0))],
        stretch.1.Accepted data :=
  ⟨(message_integrity (Env.sample .unicast) Cplat.reference_cmpLex 3 ⟨2, 0⟩ fun _ => .target).1
      rfl (by decide) _ _ (by decide +kernel) (by decide +kernel),
    (message_integrity (Env.sample .unicastBidirN1) Cplat.reference_cmpLex 3 ⟨2, 0⟩
      fun _ => .target).2.1 rfl _ _ (by decide +kernel) (by decide +kernel),
    (message_integrity (Env.sample .tcp) Cplat.reference_cmpLex 3 ⟨2, 0⟩
      fun _ => .target).2.2 rfl _ ⟨rfl, by decide +kernel, by decide +kernel, trivial⟩⟩

-- The first packet is lost and the receiver starts with the second: the last two bytes of the
-- message are delivered as a message.
theorem tail_delivered_as_message :
    (∀ input ∈ ((HonestSender.sample .unicast).arrivals.drop 1).map Slot.Input.sample,
      input.Honest ⟨.single (HonestSender.sample .unicast), []⟩) ∧
    delivered ((Slot.sample (Env.sample .unicast)).run (Env.sample .unicast)
      (((HonestSender.sample .unicast).arrivals.drop 1).map .sample)).log = [[1, 2]] ∧
    ¬ (Sessions.single (HonestSender.sample .unicast)).Accepted [1, 2] := by
  rw [Sessions.single_accepted]
  decide +kernel

end Porter
