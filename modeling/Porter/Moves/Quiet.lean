import Porter.Moves.Run

namespace Porter

def Act.message : Act → Option Bytes
  | .event (.data payload) => some payload
  | _ => none

-- The messages the application got, in order.
def delivered (log : List (UInt32 × Act)) : List Bytes := log.filterMap fun x => x.2.message

namespace View

section

variable {e : Env} {v v' v'' : View}

theorem delivered_emits (v : View) (acts : List Act) :
    delivered (v.emits acts).log = delivered v.log ++ acts.filterMap Act.message := by
  simp only [delivered, emits, List.filterMap_append, List.filterMap_map]
  rfl

-- A change that delivers nothing and leaves reception where it is.
structure Idle (v v' : View) : Prop where
  delivered_eq : delivered v'.log = delivered v.log
  known : v'.known = v.known
  session : v'.session = v.session
  win : v'.win = v.win
  frag : v'.frag = v.frag

theorem Idle.refl (v : View) : v.Idle v := ⟨rfl, rfl, rfl, rfl, rfl⟩

theorem Idle.trans (h : v.Idle v') (h' : v'.Idle v'') : v.Idle v'' where
  delivered_eq := h'.delivered_eq.trans h.delivered_eq
  known := h'.known.trans h.known
  session := h'.session.trans h.session
  win := h'.win.trans h.win
  frag := h'.frag.trans h.frag

theorem Idle.emits (v : View) {acts : List Act} (h : ∀ act ∈ acts, act.message = none) :
    v.Idle (v.emits acts) := by
  refine ⟨?_, rfl, rfl, rfl, rfl⟩
  rw [delivered_emits, List.filterMap_eq_nil_iff.mpr h, List.append_nil]

theorem Idle.emit (v : View) {act : Act} (h : act.message = none) : v.Idle (v.emit act) :=
  .emits v fun a ha => by
    rw [List.mem_singleton.mp ha]
    exact h

theorem message_ofAlive (old new : Bool) :
    ∀ ev ∈ Event.ofAlive old new, (Act.event ev).message = none := by
  cases old <;> cases new <;> simp [Event.ofAlive, Act.message]

theorem message_path {ev : Event} (h : ev.isPath = true) :
    (Act.event ev).message = none := by
  cases ev with
  | data => exact absurd h Bool.noConfusion
  | _ => rfl

theorem Idle.synced (v : View) (alive : Bool) {evs : List Event}
    (hevs : ∀ ev ∈ evs, ev.isPath = true) : v.Idle (v.synced e alive evs) := by
  unfold View.synced callbackEmits
  split
  · refine Idle.trans (⟨rfl, rfl, rfl, rfl, rfl⟩ : v.Idle { v with alive := alive })
      (.emits _ fun act hact => ?_)
    obtain ⟨ev, hev, rfl⟩ := List.mem_map.mp hact
    rcases List.mem_append.mp hev with hev | hev
    · exact message_path (hevs ev hev)
    · exact message_ofAlive _ _ ev hev
  · exact ⟨rfl, rfl, rfl, rfl, rfl⟩

private theorem message_sends (dests : List (Path × Endpoint)) (pkt : Packet) :
    ∀ act ∈ dests.map fun d => Act.send d.1 d.2 pkt, act.message = none := by
  intro act hact
  obtain ⟨d, -, rfl⟩ := List.mem_map.mp hact
  rfl

theorem Idle.sends (v : View) (dests : List (Path × Endpoint)) (pkt : Packet) :
    v.Idle (v.emits (dests.map fun d => .send d.1 d.2 pkt)) := .emits v (message_sends dests pkt)

theorem message_nack (seq : UInt32) (win : Window) (own : PacketSessionHdr)
    (dests : List (Path × Endpoint)) :
    ∀ act ∈ Act.nack seq win :: dests.map (fun d => .send d.1 d.2 (Packet.buildNack own seq)),
      act.message = none := by
  intro act hact
  rcases List.mem_cons.mp hact with rfl | hact
  · rfl
  · exact message_sends dests _ act hact

theorem Idle.nacked (v : View) (seq : UInt32) (dests : List (Path × Endpoint)) :
    v.Idle (v.nacked seq dests) := .emits v (message_nack seq v.win v.own dests)

-- The same, or the session is forgotten.
def Quiet (v v' : View) : Prop :=
  v.Idle v' ∨ v'.known = false ∧ delivered v'.log = delivered v.log

theorem Quiet.delivered_eq (h : v.Quiet v') : delivered v'.log = delivered v.log :=
  h.elim Idle.delivered_eq And.right

theorem Quiet.trans (h : v.Quiet v') (h' : v'.Quiet v'') : v.Quiet v'' := by
  have hlog := h'.delivered_eq.trans h.delivered_eq
  rcases h' with hidle' | ⟨hoff, -⟩
  · rcases h with hidle | ⟨hoff, -⟩
    · exact .inl (hidle.trans hidle')
    · exact .inr ⟨hidle'.known.trans hoff, hlog⟩
  · exact .inr ⟨hoff, hlog⟩

theorem Move.quiet (h : Move e none v v') : v.Quiet v' := by
  cases h with
  | sync alive evs hevs => exact .inl (.synced v alive hevs)
  | adopt pkt hcur => cases hcur
  | push pkt _ _ _ hcur => cases hcur
  | nack seq dests => exact .inl (.nacked v seq dests)
  | expire dests =>
    have h := Idle.nacked { v with pending := false } v.nackNum dests
    exact .inl ⟨h.delivered_eq, h.known, h.session, h.win, h.frag⟩
  | pop pkt win hcur =>
    obtain ⟨_, hcur, -⟩ := hcur
    cases hcur
  | skip pkt hcur => cases hcur
  | reset pkt hcur => cases hcur
  | forget frag =>
    have hact : Act.forget.message = none := rfl
    exact .inr ⟨rfl, (Idle.emit { v with frag := frag } hact).delivered_eq⟩
  | answer pkt dests hcur => cases hcur
  | finAck target => exact .inl (.emit v rfl)
  | _ => exact .inl ⟨rfl, rfl, rfl, rfl, rfl⟩

theorem Moves.quiet (h : Moves e none v v') : v.Quiet v' :=
  Run.star_preserves (P := fun w => v.Quiet w) (fun _ _ hm hq => hq.trans hm.quiet) h
    (.inl (.refl v))

end

end View

namespace Slot

open View

section

variable {e : Env}

theorem view_reorderGapReady (slot : Slot) (seq : UInt32) :
    ∃ pending nackNum, (slot.reorderGapReady e seq).1.view e =
      { slot.view e with pending := pending, nackNum := nackNum } := by
  rcases reorderGapReady_cases slot seq with ⟨-, -, hs⟩ | ⟨-, -, -, -, hv⟩ | ⟨-, -, hv⟩
  · exact ⟨slot.reorderPending, slot.reorderNackNum, by rw [hs]; rfl⟩
  · exact ⟨false, slot.reorderNackNum, hv⟩
  · exact ⟨true, seq, hv⟩

theorem view_nackGap (slot : Slot) (seq : UInt32) :
    ∃ pending nackNum, ∃ acts : List Act, (∀ act ∈ acts, act.message = none) ∧
      (slot.nackGap e seq).view e =
        View.emits { slot.view e with pending := pending, nackNum := nackNum } acts := by
  obtain ⟨pending, nackNum, hready⟩ : ∃ pending nackNum, (slot.slotGapReady e seq).1.view e =
      { slot.view e with pending := pending, nackNum := nackNum } := by
    unfold slotGapReady
    split
    · exact ⟨slot.reorderPending, slot.reorderNackNum, rfl⟩
    · exact view_reorderGapReady slot seq
  rw [nackGap_eq]
  split
  · obtain ⟨dests, hv⟩ := view_slotSendNack (slot.slotGapReady e seq).1 seq
    rw [hready] at hv
    exact ⟨pending, nackNum, _, message_nack _ _ _ dests, hv⟩
  · exact ⟨pending, nackNum, [], by simp, by rw [hready, View.emits_nil]⟩

theorem reorderGapReady_idle (slot : Slot) (seq : UInt32) :
    (slot.view e).Idle ((slot.reorderGapReady e seq).1.view e) := by
  obtain ⟨pending, nackNum, hv⟩ := view_reorderGapReady slot seq
  rw [hv]
  exact ⟨rfl, rfl, rfl, rfl, rfl⟩

theorem slotSendNack_idle (slot : Slot) (seq : UInt32) :
    (slot.view e).Idle ((slot.slotSendNack e seq).view e) := by
  obtain ⟨dests, hv⟩ := view_slotSendNack slot seq
  rw [hv]
  exact .nacked _ seq dests

theorem nackGap_idle (slot : Slot) (seq : UInt32) :
    (slot.view e).Idle ((slot.nackGap e seq).view e) := by
  obtain ⟨pending, nackNum, acts, hacts, hv⟩ := view_nackGap slot seq
  rw [hv]
  have h := Idle.emits { slot.view e with pending := pending, nackNum := nackNum } hacts
  exact ⟨h.delivered_eq, rfl, rfl, rfl, rfl⟩

theorem scanLoop_idle (pkt : Packet) (fuel : Nat) (slot : Slot) (scanSeq : UInt32) :
    (slot.view e).Idle ((scanLoop e pkt fuel slot scanSeq).1.view e) := by
  induction fuel generalizing slot scanSeq with
  | zero => exact .refl _
  | succ fuel ih =>
    rw [scanLoop_succ]
    split
    · split
      · exact ih slot _
      · split
        · exact ((reorderGapReady_idle slot scanSeq).trans (slotSendNack_idle _ scanSeq)).trans
            (ih _ _)
        · exact reorderGapReady_idle slot scanSeq
    · exact .refl _

theorem onNack_idle (slot : Slot) (pkt : Packet) :
    (slot.view e).Idle ((slot.onNack e pkt).view e) := by
  rcases view_onNack slot pkt with hv | ⟨-, dests, hv⟩
  · rw [hv]
    exact .refl _
  · rw [hv]
    exact .sends _ dests _

theorem finOnPacket_idle (slot : Slot) (pkt : Packet) :
    (slot.view e).Idle ((slot.finOnPacket pkt).1.view e) := by
  unfold finOnPacket
  split
  · exact .refl _
  · split <;> exact ⟨rfl, rfl, rfl, rfl, rfl⟩

theorem syncPathState_idle (slot : Slot) :
    (slot.view e).Idle ((slot.syncPathState e).view e) := by
  obtain ⟨evs, hevs, hv⟩ := view_syncPathStateLocked slot (slot.nextPathStates e)
  unfold syncPathState
  rw [hv]
  exact .synced _ _ hevs

theorem disconnectAllPaths_idle (slot : Slot) :
    (slot.view e).Idle ((slot.disconnectAllPaths e).view e) := by
  obtain ⟨evs, hevs, hv⟩ := view_disconnectAllPaths slot
  rw [hv]
  exact .synced _ _ hevs

theorem acceptHealth_idle (slot : Slot) (pkt : Packet) (path : Path) :
    (slot.view e).Idle ((slot.acceptHealth e pkt path).view e) := by
  unfold acceptHealth
  split
  · exact syncPathState_idle (slot.updatePathHealth e path)
  · exact .refl _

theorem acceptPostDrain_idle (slot : Slot) :
    (slot.view e).Idle ((slot.acceptPostDrain e).view e) := by
  unfold acceptPostDrain
  split
  · exact ⟨rfl, rfl, rfl, rfl, rfl⟩
  · split
    · exact .refl _
    · exact nackGap_idle slot _

theorem finFire_quiet (slot : Slot) (target : UInt32) :
    (slot.view e).Quiet ((slot.finFire e target).view e) :=
  (finFire_moves fun _ h => nomatch h : Moves e none _ _).quiet

end

end Slot

end Porter
