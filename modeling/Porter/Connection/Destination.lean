import Porter.Connection.Rest
import Porter.Platform
import Porter.Recv.Frame

namespace Porter

-- The own session of a slot and what was sent in it.
structure Own where
  sessionId : UInt32
  sessionTs : Timespec
  sendWindow : Window
  sendHasData : Bool

-- What a slot sends with, and where to.
structure Outlet extends Own where
  destAddr : Path → Endpoint

namespace Slot

def own (slot : Slot) : Own where
  sessionId := slot.sessionId
  sessionTs := slot.sessionTs
  sendWindow := slot.sendWindow
  sendHasData := slot.sendHasData

def outlet (slot : Slot) : Outlet where
  toOwn := slot.own
  destAddr := slot.destAddr

section

variable {e : Env} {slot slot' : Slot}

theorem outlet_of_links (h : slot'.links = slot.links) : slot'.outlet = slot.outlet :=
  congrArg (fun l : Links =>
    (⟨⟨l.sessionId, l.sessionTs, l.sendWindow, l.sendHasData⟩, l.destAddr⟩ : Outlet)) h

theorem own_of_outlet (h : slot'.outlet = slot.outlet) : slot'.own = slot.own :=
  congrArg Outlet.toOwn h

theorem Beside.outlet (h : slot.Beside slot') : slot'.outlet = slot.outlet := outlet_of_links h.links

theorem syncPathStateLocked_outlet (slot : Slot) (states : Path → Bool) :
    (slot.syncPathStateLocked e states).outlet = slot.outlet := by
  unfold syncPathStateLocked callbackEmits
  split <;> rfl

theorem syncPathState_outlet (slot : Slot) : (slot.syncPathState e).outlet = slot.outlet :=
  syncPathStateLocked_outlet slot _

theorem disconnectAllPaths_outlet (slot : Slot) : (slot.disconnectAllPaths e).outlet = slot.outlet :=
  syncPathStateLocked_outlet slot _

theorem forgetSession_outlet (slot : Slot) : (slot.forgetSession e).outlet = slot.outlet := rfl

theorem rawSessionDisconnect_outlet (slot : Slot) :
    (slot.rawSessionDisconnect e).outlet = slot.outlet :=
  disconnectAllPaths_outlet slot.clearPathPingStates

theorem checkReorderTimeout_outlet (slot : Slot) :
    (slot.checkReorderTimeout e).outlet = slot.outlet := by
  have hready := (reorderGapReady_beside (e := e) slot slot.reorderNackNum).outlet
  unfold checkReorderTimeout
  split
  · rfl
  dsimp only
  split
  · exact hready
  split
  · rw [forgetSession_outlet, rawSessionDisconnect_outlet]
    exact hready
  · exact (slotSendNack_beside _ _).outlet.trans hready

theorem serviceTimeout_outlet (slot : Slot) : (slot.serviceTimeout e).outlet = slot.outlet := by
  unfold serviceTimeout
  rw [forgetSession_outlet]
  exact disconnectAllPaths_outlet _

theorem own_stable (e : Env) (path : Path) (sender : Endpoint) (own : Own) :
    Stable e path sender fun slot => slot.own = own where
  emits _ _ h := h
  inner h hlinks _ _ _ _ := (own_of_outlet (outlet_of_links hlinks)).trans h
  sync _ h := h
  pings _ _ h := h
  heard _ _ _ h := h
  learn := by
    intro slot h
    unfold learnSenderPath
    dsimp only
    repeat' split
    all_goals exact h
  clear _ _ h := h
  free := by
    intro slot h
    unfold peerFree
    split <;> exact h
  dedup _ _ h := h

theorem step_own (slot : Slot) (input : Input) : (slot.step e input).own = slot.own :=
  Stable.step (fun path sender => own_stable e path sender slot.own) (fun _ _ h => h) input rfl

-- A packet has nothing to teach a 1:1 service that knows the address and the port.
def KnowsDest (e : Env) (slot : Slot) (path : Path) (sender : Endpoint) : Prop :=
  (e.srcAddrGiven = true ∨ (slot.destAddr path).address ≠ 0 ∨ sender.address = 0) ∧
    (slot.destAddr path).port ≠ 0

theorem learnSenderPath_outlet (hpeer : slot.peer = none) {path : Path} {sender : Endpoint}
    (hknows : slot.KnowsDest e path sender) :
    (slot.learnSenderPath e path sender).outlet = slot.outlet := by
  obtain ⟨haddr, hport⟩ := hknows
  -- Neither assignment changes the destination.
  have hdest : (if !e.srcAddrGiven && decide ((slot.destAddr path).address = 0) then
      { slot.destAddr path with address := sender.address } else slot.destAddr path) =
      slot.destAddr path := by
    split
    · rename_i hlearn
      simp only [Bool.and_eq_true, Bool.not_eq_true', decide_eq_true_eq] at hlearn
      obtain ⟨hgiven, hzero⟩ := hlearn
      rcases haddr with hyes | hset | hsender
      · exact absurd (hgiven.symm.trans hyes) Bool.noConfusion
      · exact absurd hzero hset
      · rw [hsender, ← hzero]
    · rfl
  unfold learnSenderPath
  dsimp only
  rw [hpeer, hdest, if_neg hport, Function.update_eq_self]
  simp only [Option.isSome_none, Bool.false_eq_true, if_false]
  split <;> rfl

theorem KnowsDest.of_outlet {path : Path} {sender : Endpoint} (h : slot.KnowsDest e path sender)
    (houtlet : slot'.outlet = slot.outlet) : slot'.KnowsDest e path sender := by
  unfold KnowsDest
  rw [show slot'.destAddr = slot.destAddr from congrArg Outlet.destAddr houtlet]
  exact h

theorem outlet_firm {path : Path} {sender : Endpoint} (hknows : slot.KnowsDest e path sender) :
    Firm e path sender fun s => s.peer = none ∧ s.outlet = slot.outlet where
  emits _ _ h := h
  inner h hlinks _ _ _ _ :=
    ⟨(congrArg (fun l => l.toConn.peer) hlinks).trans h.1, (outlet_of_links hlinks).trans h.2⟩
  sync _ h := h
  pings _ _ h := h
  heard _ _ _ h := h
  learn h := ⟨(congrArg Conn.peer (learnSenderPath_conn _ path sender)).trans h.1,
    (learnSenderPath_outlet h.1 (hknows.of_outlet h.2)).trans h.2⟩
  free := by
    intro s h
    unfold peerFree
    split <;> exact h

theorem dispatchPacket_outlet (hpeer : slot.peer = none) (pkt : Packet) {path : Path}
    {sender : Endpoint} (hknows : slot.KnowsDest e path sender) :
    (slot.dispatchPacket e pkt path sender).outlet = slot.outlet := by
  have hother : slot.peer.isSome = false := by
    rw [hpeer]
    rfl
  exact ((outlet_firm hknows).dispatchPacket pkt (fun _ _ => hother) ⟨hpeer, rfl⟩).2

theorem healthCheckService_destAddr (htimeout : e.healthTimeoutMs ≠ 0) (slot : Slot) (k : Path) :
    (slot.healthCheckService e).destAddr k =
      if slot.silentPath e (slot.now e) k then silentDest e (slot.destAddr k)
      else slot.destAddr k := by
  have hlooped : (slot.healthLooped e).1.destAddr k =
      if slot.silentPath e (slot.now e) k then silentDest e (slot.destAddr k)
      else slot.destAddr k := by
    refine (congrArg PathCell.dest (healthLooped_cell_silent slot k)).trans ?_
    split <;> rfl
  rw [← hlooped]
  have hsynced : (slot.healthSynced e).outlet = (slot.healthLooped e).1.outlet := by
    unfold healthSynced syncLooped
    split
    · exact syncPathState_outlet _
    · rfl
  have hchecked : (slot.healthCheckService e).outlet = (slot.healthSynced e).outlet := by
    rw [healthCheckService_eq, if_neg htimeout]
    split
    · rfl
    split
    · exact serviceTimeout_outlet _
    · rfl
  exact congrFun (congrArg Outlet.destAddr (hchecked.trans hsynced)) k

theorem onPollTimeout_destAddr (hkind : e.type = .unicastBidir) (slot : Slot) (k : Path) :
    (slot.onPollTimeout e).destAddr k =
      if e.healthTimeoutMs ≠ 0 ∧ slot.silentPath e (slot.now e) k = true then
        silentDest e (slot.destAddr k)
      else slot.destAddr k := by
  have hcheck : ((slot.emit .poll).healthCheckService e).destAddr k =
      if e.healthTimeoutMs ≠ 0 ∧ slot.silentPath e (slot.now e) k = true then
        silentDest e (slot.destAddr k)
      else slot.destAddr k := by
    by_cases hzero : e.healthTimeoutMs = 0
    · have hskip : (slot.emit .poll).healthCheckService e = slot.emit .poll := if_pos hzero
      rw [hskip, if_neg fun h => h.1 hzero]
      rfl
    · rw [healthCheckService_destAddr hzero]
      simp only [hzero, ne_eq, not_false_eq_true, true_and]
      rfl
  rw [← hcheck]
  unfold onPollTimeout
  rw [if_pos (.inr hkind)]
  split
  · exact congrFun (congrArg Outlet.destAddr (checkReorderTimeout_outlet _)) k
  · rfl

end

-- Every path sends to the address and the port that the service was configured with.
def Configured (e : Env) (slot : Slot) : Prop :=
  ∀ i : Path, i.val < e.nPath → slot.destAddr i = ⟨e.dstAddrResolved i, hton16 e.dstPort⟩

-- A health check of a silent path leaves the configured destination in place only if it was not
-- taken for a learned one; a packet must not bring an address where 0.0.0.0 is configured.
def Retains (e : Env) (slot : Slot) : Input → Prop
  | .packet path sender _ => path.val < e.nPath →
      e.srcAddrGiven = true ∨ e.dstAddrResolved path ≠ 0 ∨ sender.address = 0
  | .pollTimeout =>
      e.healthTimeoutMs ≠ 0 → ∀ i : Path, slot.silentPath e (slot.now e) i = true →
        (e.srcAddrGiven = true ∨ e.dstAddrResolved i = 0) ∧ e.srcPort ≠ 0

instance (e : Env) (slot : Slot) : ∀ input, Decidable (slot.Retains e input)
  | .packet path sender _ => inferInstanceAs (Decidable (path.val < e.nPath →
      e.srcAddrGiven = true ∨ e.dstAddrResolved path ≠ 0 ∨ sender.address = 0))
  | .pollTimeout => inferInstanceAs (Decidable (_ → ∀ _ : Path, _ → _ ∧ _))

section

variable {e : Env} {slot : Slot}

theorem silentDest_eq_iff (hkind : e.type = .unicastBidir) (dest : Endpoint) (hport : dest.port ≠ 0) :
    silentDest e dest = dest ↔ (e.srcAddrGiven = true ∨ dest.address = 0) ∧ e.srcPort ≠ 0 := by
  obtain ⟨address, port⟩ := dest
  unfold silentDest
  rw [hkind]
  cases e.srcAddrGiven <;> by_cases hsrc : e.srcPort = 0 <;>
    simp_all [Endpoint.mk.injEq, eq_comm]

theorem step_configured (hkind : e.type = .unicastBidir) (hport : e.dstPort ≠ 0)
    (hpeer : slot.peer = none) (h : slot.Configured e) {input : Input}
    (hretains : slot.Retains e input) : (slot.step e input).Configured e := by
  cases input with
  | packet path sender pkt =>
    rw [step_packet_eq]
    split
    · exact h
    rename_i hpath
    have hdest := h path (Nat.lt_of_not_le hpath)
    have hknows : slot.KnowsDest e path sender := by
      unfold KnowsDest
      rw [hdest]
      exact ⟨hretains (Nat.lt_of_not_le hpath), hton16_ne_zero hport⟩
    have hhandled : ((slot.emit (.recv pkt)).senderHandlePacket e pkt).1.outlet = slot.outlet := by
      unfold senderHandlePacket
      split
      · rfl
      · exact (onNack_beside _ pkt).outlet
    suffices houtlet : (if e.role = .sender then
        if ((slot.emit (.recv pkt)).senderHandlePacket e pkt).2 then
          ((slot.emit (.recv pkt)).senderHandlePacket e pkt).1.dispatchPacket e pkt path sender
        else ((slot.emit (.recv pkt)).senderHandlePacket e pkt).1
      else (slot.emit (.recv pkt)).dispatchPacket e pkt path sender).outlet = slot.outlet by
      intro i hi
      exact (congrFun (congrArg Outlet.destAddr houtlet) i).trans (h i hi)
    split
    · split
      · have hpeer' : ((slot.emit (.recv pkt)).senderHandlePacket e pkt).1.peer = none := by
          unfold senderHandlePacket
          split
          · exact hpeer
          · exact (onNack_beside _ pkt).peer.trans hpeer
        exact (dispatchPacket_outlet hpeer' pkt (hknows.of_outlet hhandled)).trans hhandled
      · exact hhandled
    · have hnoted : (slot.emit (.recv pkt)).KnowsDest e path sender := hknows.of_outlet rfl
      exact (dispatchPacket_outlet (by exact hpeer) pkt hnoted).trans rfl
  | pollTimeout =>
    intro i hi
    change (slot.onPollTimeout e).destAddr i = _
    rw [onPollTimeout_destAddr hkind]
    split
    · rename_i hsilent
      have hcond := hretains hsilent.1 i hsilent.2
      rw [(silentDest_eq_iff hkind _ ?_).mpr ?_]
      · exact h i hi
      · rw [h i hi]
        exact hton16_ne_zero hport
      · rw [h i hi]
        exact hcond
    · exact h i hi

-- Where the configured addresses are addresses, only a health check can take one away, and it
-- does unless the condition holds.
theorem retains_of_configured (hkind : e.type = .unicastBidir) (hport : e.dstPort ≠ 0)
    (haddrs : ∀ i : Path, i.val < e.nPath → e.dstAddrResolved i ≠ 0) (h : slot.Configured e)
    {input : Input} (hafter : (slot.step e input).Configured e) :
    slot.Retains e input := by
  cases input with
  | packet path sender pkt => exact fun hpath => .inr (.inl (haddrs path hpath))
  | pollTimeout =>
    intro htimeout i hsilent
    have hi : i.val < e.nPath := by
      unfold silentPath at hsilent
      simp only [Bool.and_eq_true, decide_eq_true_eq] at hsilent
      exact hsilent.1
    have hdest := hafter i hi
    change (slot.onPollTimeout e).destAddr i = _ at hdest
    rw [onPollTimeout_destAddr hkind, if_pos ⟨htimeout, hsilent⟩, ← h i hi] at hdest
    have hcond := (silentDest_eq_iff hkind _ ?_).mp hdest
    · rw [h i hi] at hcond
      exact hcond
    · rw [h i hi]
      exact hton16_ne_zero hport

theorem openDestAddr_configured (hkind : e.type = .unicastBidir) (hrole : e.role = .sender)
    {multicastGroup broadcastAddr : Option UInt32} {destAddr : Path → Endpoint}
    (hopen : openDestAddr e multicastGroup broadcastAddr = some destAddr) :
    e.dstPort ≠ 0 ∧ ∀ i : Path, i.val < e.nPath →
      destAddr i = ⟨e.dstAddrResolved i, hton16 e.dstPort⟩ := by
  unfold openDestAddr at hopen
  split at hopen
  · cases hopen
  rename_i hport
  refine ⟨fun hzero => hport ⟨hkind, hzero⟩, fun i hi => ?_⟩
  unfold setupDestAddr at hopen
  simp only [hrole, hkind, PotrType.rawBaseType, ne_eq, not_true_eq_false, false_and, if_false,
    Option.some.injEq] at hopen
  rw [← hopen]
  simp only [hi, if_true]

end

end Slot

-- The sender of a bidirectional service keeps its configured destinations in every run whose
-- health checks leave them in place. Where the configured addresses are not 0.0.0.0 that is the
-- only way to keep them.
theorem bidir_sender_keeps_destination (e : Env) (hkind : e.type = .unicastBidir)
    (hrole : e.role = .sender) (multicastGroup broadcastAddr : Option UInt32)
    (destAddr : Path → Endpoint)
    (hopen : Slot.openDestAddr e multicastGroup broadcastAddr = some destAddr)
    (sessionId : UInt32) (sessionTs : Timespec) (inputs : List Slot.Input) :
    let slot := Slot.opened e sessionId sessionTs destAddr
    (Run.Meets (Slot.step e) (Slot.Retains e) slot inputs →
      ∀ pre, pre <+: inputs → (slot.run e pre).Configured e) ∧
    ((∀ i : Path, i.val < e.nPath → e.dstAddrResolved i ≠ 0) →
      (∀ pre, pre <+: inputs → (slot.run e pre).Configured e) →
      Run.Meets (Slot.step e) (Slot.Retains e) slot inputs) := by
  intro slot
  obtain ⟨hport, hdest⟩ := Slot.openDestAddr_configured hkind hrole hopen
  have hpeer : slot.peer = none := rfl
  have hstart : slot.Configured e := hdest
  constructor
  · intro hmeets pre hpre
    obtain ⟨post, rfl⟩ := hpre
    have hboth : (slot.run e pre).peer = none ∧ (slot.run e pre).Configured e := by
      apply (Run.meets_append.mp hmeets).1.preserves (P := fun s => s.peer = none ∧ s.Configured e) _
        ⟨hpeer, hstart⟩
      intro s input hretains hs
      exact ⟨(Slot.Turns.peer_eq (Slot.step_turns s hs.1 input)).trans hs.1,
        Slot.step_configured hkind hport hs.1 hs.2 hretains⟩
    exact hboth.2
  · intro haddrs hall
    generalize slot = s at hall hstart
    clear hpeer
    induction inputs generalizing s with
    | nil => trivial
    | cons input rest ih =>
        have hnext : (s.step e input).Configured e := by
          have hone : [input] <+: input :: rest := ⟨rest, rfl⟩
          exact hall [input] hone
        refine ⟨Slot.retains_of_configured hkind hport haddrs hstart hnext, ?_⟩
        apply ih (s.step e input) _ hnext
        intro pre hpre
        exact hall (input :: pre) (List.cons_prefix_cons.mpr ⟨rfl, hpre⟩)

-- A sender that notices a second of silence.
def Config.sampleDialer (srcAddrGiven : Bool) : Config :=
  { Config.sample .unicastBidir with
    role := .sender, srcAddrGiven := srcAddrGiven, healthTimeoutMs := 1000 }

def Env.sampleDialer (srcAddrGiven : Bool) : Env where
  toConfig := Config.sampleDialer srcAddrGiven
  accepted := rfl
  plat := { Cplat.reference with clock := fun n => ⟨Int64.ofNat (1 + n), 0⟩ }

theorem bidir_sender_keeps_destination_sample :
    let e := Env.sampleDialer true
    let slot := Slot.opened e 3 ⟨2, 0⟩ fun i =>
      if i.val < e.nPath then ⟨e.dstAddrResolved i, hton16 e.dstPort⟩ else Endpoint.clear
    let inputs : List Slot.Input := [.sampleBack (.samplePing 7), .pollTimeout]
    (slot.run e inputs).Configured e := by
  intro e slot inputs
  exact (bidir_sender_keeps_destination e rfl rfl none none _ rfl 3 ⟨2, 0⟩ inputs).1
    (by decide +kernel) inputs (List.prefix_refl _)

-- Without a src_addr one second of silence takes the configured address away.
theorem silent_path_loses_destination :
    let e := Env.sampleDialer false
    let dest : Path → Endpoint := fun i =>
      if i.val < e.nPath then ⟨e.dstAddrResolved i, hton16 e.dstPort⟩ else Endpoint.clear
    let slot := Slot.opened e 3 ⟨2, 0⟩ dest
    Slot.openDestAddr e none none = some dest ∧
      (slot.run e [.sampleBack (.samplePing 7)]).destAddr 0 = ⟨2, hton16 5001⟩ ∧
      (slot.run e [.sampleBack (.samplePing 7), .pollTimeout]).destAddr 0 = ⟨0, hton16 5001⟩ := by
  intro e dest slot
  refine ⟨rfl, ?_⟩
  decide +kernel

end Porter
