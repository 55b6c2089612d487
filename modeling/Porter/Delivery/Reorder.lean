import Mathlib.Data.List.Chain
import Porter.Moves.Run
import Porter.Platform

namespace Porter

namespace Timespec

def ns (ts : Timespec) : Int := ts.tvSec.toInt * 1000000000 + ts.tvNsec.toInt

def Normal (ts : Timespec) : Prop := 0 ≤ ts.tvNsec.toInt ∧ ts.tvNsec.toInt < 1000000000

-- On times with fewer nanoseconds than a second has, the order of cplat_timespec_cmp is that of
-- the instants.
theorem ns_le_of_not_lt {a b : Timespec} (ha : a.Normal) (hb : b.Normal) (h : ¬ a.lt b) :
    b.ns ≤ a.ns := by
  unfold lt at h
  unfold Normal at ha hb
  unfold ns
  have hsec : a.tvSec = b.tvSec ↔ a.tvSec.toInt = b.tvSec.toInt := Int64.toInt_inj.symm
  rw [hsec] at h
  omega

end Timespec

-- cplat_clock_get_monotonic and cplat_timespec_add_ms, where no sum leaves the range of tv_sec.
structure Env.AddsMs (e : Env) : Prop where
  clock : ∀ n, (e.plat.clock n).Normal
  normal : ∀ n, (e.plat.timespecAddMs (e.plat.clock n) e.reorderTimeoutMs).Normal
  sum : ∀ n, (e.plat.timespecAddMs (e.plat.clock n) e.reorderTimeoutMs).ns =
    (e.plat.clock n).ns + e.reorderTimeoutMs * 1000000

theorem Cplat.CmpLex.not_lt {p : Cplat} (hlex : p.CmpLex) {a b : Timespec}
    (h : 0 ≤ p.timespecCmp a b) : ¬ a.lt b := by
  intro hlt
  rcases Int.lt_or_eq_of_le h with hpos | hzero
  · exact Timespec.lt_irrefl _ (Timespec.lt_trans hlt ((hlex.pos a b).mp hpos))
  · rw [(hlex.eq_zero a b).mp hzero.symm] at hlt
    exact Timespec.lt_irrefl _ hlt

-- A number of the window that has not arrived.
def Window.Lacks (win : Window) (seq : UInt32) : Prop :=
  seqnumInWindow seq win.baseSeq win.windowSize = true ∧ win.recvHasPacket seq = false

namespace Window

variable {win win' : Window} {seq : UInt32} {pkt : Packet}

theorem lacks_iff (hwf : win.RecvWF) :
    win.Lacks seq ↔ Serial.dist seq win.nextSeq < win.windowSize ∧ win.held seq = none := by
  unfold Lacks
  rw [seqnumInWindow_iff, hwf.base_eq, recvHasPacket_eq hwf]
  simp

theorem lacks_of_needsNack (hwf : win.RecvWF) (h : win.recvNeedsNack = some seq) :
    win.Lacks seq := by
  obtain ⟨rfl, hnone, -⟩ := (recvNeedsNack_eq_some hwf).mp h
  rw [lacks_iff hwf, Serial.dist_self]
  exact ⟨hwf.size_pos, hnone⟩

theorem Lacks.of_push (hwf : win.RecvWF) (hpush : win.recvPush pkt = some win')
    (h : win'.Lacks seq) : win.Lacks seq := by
  rw [lacks_iff (recvPush_wf hwf hpush), recvPush_nextSeq hpush, recvPush_windowSize hpush,
    recvPush_held hwf hpush] at h
  rw [lacks_iff hwf]
  refine ⟨h.1, ?_⟩
  by_cases hseq : seq = pkt.seqNum
  · rw [if_pos hseq] at h
    simp at h
  · rw [if_neg hseq] at h
    exact h.2

end Window

-- What the reorder wait is about, with the numbers of the NACK packets sent.
structure Wait where
  peer : Option UInt32
  sendWindow : Window
  win : Window
  pending : Bool
  nackNum : UInt32
  deadline : Timespec
  nacks : List UInt32

namespace Slot

def wait (slot : Slot) : Wait where
  peer := slot.peer
  sendWindow := slot.sendWindow
  win := slot.recvWindow
  pending := slot.reorderPending
  nackNum := slot.reorderNackNum
  deadline := slot.reorderDeadlineTs
  nacks := slot.log.filterMap fun x => x.2.nackSent

-- The timer is armed for `seq`, and `seq` is missing.
def Awaits (slot : Slot) (seq : UInt32) : Prop :=
  slot.reorderPending = true ∧ slot.reorderNackNum = seq ∧ slot.recvWindow.Lacks seq

def arm (e : Env) (slot : Slot) (seq : UInt32) : Slot :=
  { slot.tickOnce with
    reorderPending := true
    reorderNackNum := seq
    reorderDeadlineTs := e.plat.timespecAddMs (slot.now e) e.reorderTimeoutMs }

-- The deadline was reached when the clock was read.
def expire (slot : Slot) : Slot := { slot.tickOnce with reorderPending := false }

-- The check of a 1:1 service for a missing number: thread_recv_window_accept_outer makes it up to
-- twice, the PING scan for several numbers and the poll timeout for the number of the timer.
def gapCheck (e : Env) (slot : Slot) (seq : UInt32) : Slot :=
  if (slot.reorderGapReady e seq).2 then (slot.reorderGapReady e seq).1.slotSendNack e seq
  else (slot.reorderGapReady e seq).1

section

variable {e : Env} {slot slot' : Slot} {pkt : Packet} {seq : UInt32}

theorem Awaits.of_wait (hwait : slot'.wait = slot.wait) (h : slot'.Awaits seq) :
    slot.Awaits seq := by
  have hpending : slot'.reorderPending = slot.reorderPending := congrArg Wait.pending hwait
  have hnum : slot'.reorderNackNum = slot.reorderNackNum := congrArg Wait.nackNum hwait
  have hwin : slot'.recvWindow = slot.recvWindow := congrArg Wait.win hwait
  unfold Awaits at h ⊢
  rwa [hpending, hnum, hwin] at h

theorem wait_emits (slot : Slot) {acts : List Act} (h : ∀ act ∈ acts, act.nackSent = none) :
    (slot.emits acts).wait = slot.wait := by
  have hnone : (acts.map fun act => (slot.peerId, act)).filterMap (fun x => x.2.nackSent) = [] := by
    rw [List.filterMap_map, List.filterMap_eq_nil_iff]
    exact h
  simp only [wait, emits, List.filterMap_append, hnone, List.append_nil]

theorem wait_emit (slot : Slot) {act : Act} (h : act.nackSent = none) :
    (slot.emit act).wait = slot.wait :=
  wait_emits slot fun _ ha => List.mem_singleton.mp ha ▸ h

theorem wait_callbackEmits (slot : Slot) (evs : List Event) :
    (slot.callbackEmits e evs).wait = slot.wait := by
  unfold callbackEmits
  split
  · refine wait_emits slot fun act hact => ?_
    obtain ⟨ev, -, rfl⟩ := List.mem_map.mp hact
    rfl
  · rfl

theorem wait_syncPathState (slot : Slot) : (slot.syncPathState e).wait = slot.wait :=
  wait_callbackEmits _ _

theorem wait_disconnectAllPaths (slot : Slot) : (slot.disconnectAllPaths e).wait = slot.wait :=
  wait_callbackEmits _ _

theorem wait_learnSenderPath (slot : Slot) (path : Path) (sender : Endpoint) :
    (slot.learnSenderPath e path sender).wait = slot.wait := by
  unfold learnSenderPath
  dsimp only
  repeat' split
  all_goals rfl

theorem wait_sendToDests (slot : Slot) {pkt : Packet} (h : pkt.has FLAG_NACK = false) :
    (slot.sendToDests e pkt).wait = slot.wait := by
  unfold sendToDests
  split <;>
  · refine wait_emits slot fun act hact => ?_
    obtain ⟨i, -, rfl⟩ := List.mem_map.mp hact
    simp [Act.nackSent, h]

theorem wait_slotSendNack (slot : Slot) (seq : UInt32) :
    ∃ n, (slot.slotSendNack e seq).wait =
      { slot.wait with nacks := slot.wait.nacks ++ List.replicate n seq } := by
  have hnack : (slot.emit (.nack seq slot.recvWindow)).wait = slot.wait := wait_emit _ rfl
  have hflag : (Packet.buildNack (slot.ownSessionHdr e) seq).has FLAG_NACK = true := by
    simp only [Packet.has, Packet.buildNack]
    decide
  have hsends : ∀ (s : Slot) (l : List Path) (f : Path → Endpoint), (s.emits (l.map fun i =>
      .send i (f i) (Packet.buildNack (slot.ownSessionHdr e) seq))).wait =
      { s.wait with nacks := s.wait.nacks ++ List.replicate l.length seq } := by
    intro s l f
    have hnums : (l.map fun i => Act.send i (f i) (Packet.buildNack (slot.ownSessionHdr e)
        seq)).filterMap Act.nackSent = List.replicate l.length seq := by
      induction l with
      | nil => rfl
      | cons i rest ih =>
        rw [List.map_cons, List.filterMap_cons, Act.nackSent, if_pos hflag, ih]
        rfl
    simp only [wait, emits, List.filterMap_append]
    rw [← hnums, List.filterMap_map]
    rfl
  unfold slotSendNack sendToDests
  rw [← hnack]
  dsimp only
  split
  · split <;> exact ⟨_, hsends _ _ _⟩
  · exact ⟨_, hsends _ _ _⟩

theorem wait_onNack (hsent : ∀ seq pkt, slot.sendWindow.sendGet seq = some pkt →
    pkt.has FLAG_NACK = false) (pkt : Packet) : (slot.onNack e pkt).wait = slot.wait := by
  have hdup : (slot.nackIsDuplicate e pkt.ackNum).1.wait = slot.wait := by
    unfold nackIsDuplicate
    dsimp only
    split <;> rfl
  unfold onNack
  dsimp only
  split
  · rfl
  split
  · exact hdup
  · have hkept : (slot.nackIsDuplicate e pkt.ackNum).1.sendWindow = slot.sendWindow :=
      congrArg Wait.sendWindow hdup
    unfold slotRetransmitOrReject
    rw [hkept]
    split
    · rename_i again hget
      rw [wait_sendToDests _ (hsent _ again hget), hdup]
    · unfold slotSendReject
      rw [wait_sendToDests, hdup]
      simp only [Packet.has, Packet.buildReject]
      decide

theorem wait_finOnPacket (slot : Slot) (pkt : Packet) :
    (slot.finOnPacket pkt).1.wait = slot.wait := by
  unfold finOnPacket
  split
  · rfl
  · split <;> rfl

theorem wait_deliverPacket (slot : Slot) (pkt : Packet) :
    (slot.deliverPacket e pkt).wait = slot.wait := by
  rcases deliverPacket_cases slot pkt with heq | ⟨-, out, frag, heq⟩
  · rw [heq]
  · rw [heq]
    exact wait_callbackEmits slot _

-- Between the two states no NACK is sent, and a timer that runs afterwards is the one that ran
-- before, over the same window.
structure Calm (slot slot' : Slot) : Prop where
  nacks : slot'.wait.nacks = slot.wait.nacks
  peer : slot'.peer = slot.peer
  sent : slot'.sendWindow = slot.sendWindow
  wf : slot'.recvWindow.RecvWF
  timer : slot'.reorderPending = true → slot'.wait = slot.wait

theorem Calm.of_wait (hwf : slot.recvWindow.RecvWF) (h : slot'.wait = slot.wait) :
    slot.Calm slot' where
  nacks := congrArg Wait.nacks h
  peer := congrArg Wait.peer h
  sent := congrArg Wait.sendWindow h
  wf := by
    rw [show slot'.recvWindow = slot.recvWindow from congrArg Wait.win h]
    exact hwf
  timer _ := h

theorem Calm.refl (hwf : slot.recvWindow.RecvWF) : slot.Calm slot := .of_wait hwf rfl

theorem Calm.trans {slot'' : Slot} (h : slot.Calm slot') (h' : slot'.Calm slot'') :
    slot.Calm slot'' where
  nacks := h'.nacks.trans h.nacks
  peer := h'.peer.trans h.peer
  sent := h'.sent.trans h.sent
  wf := h'.wf
  timer hon := by
    have hsame := h'.timer hon
    have hpending : slot'.reorderPending = true := by
      rw [← show slot''.reorderPending = slot'.reorderPending from congrArg Wait.pending hsame]
      exact hon
    exact hsame.trans (h.timer hpending)

theorem Calm.wait_right {slot'' : Slot} (h : slot.Calm slot') (hwait : slot''.wait = slot'.wait) :
    slot.Calm slot'' := h.trans (.of_wait h.wf hwait)

theorem Calm.off (hwf : slot'.recvWindow.RecvWF) (hpeer : slot'.peer = slot.peer)
    (hsent : slot'.sendWindow = slot.sendWindow) (hnacks : slot'.wait.nacks = slot.wait.nacks)
    (hoff : slot'.reorderPending = false) : slot.Calm slot' := by
  refine ⟨hnacks, hpeer, hsent, hwf, fun hon => ?_⟩
  rw [hoff] at hon
  cases hon

theorem Calm.stays_off (h : slot.Calm slot') (hoff : slot.reorderPending = false) :
    slot'.reorderPending = false := by
  by_contra hon
  have hsame := h.timer (Bool.eq_true_of_not_eq_false hon)
  exact hon ((congrArg Wait.pending hsame).trans hoff)

theorem disarm_calm (hwf : slot.recvWindow.RecvWF) :
    slot.Calm { slot with reorderPending := false } := .off hwf rfl rfl rfl rfl

theorem sessionAdopt_calm (hwf : slot.recvWindow.RecvWF) (pkt : Packet) :
    slot.Calm (slot.sessionAdopt e pkt).1 := by
  have hadopt : slot.Calm (slot.adoptSession e pkt) := by
    refine .off (Window.init_wf e.windowSize_pos e.windowSize_le) rfl rfl ?_ rfl
    unfold adoptSession
    rw [wait_emit _ rfl]
    rfl
  unfold sessionAdopt
  dsimp only
  repeat' split
  all_goals first | exact hadopt | exact .refl hwf

theorem forgetSession_calm (h : slot.Calm slot') (hoff : slot'.reorderPending = false) :
    slot.Calm (slot'.forgetSession e) := by
  refine .off (Window.init_wf e.windowSize_pos e.windowSize_le) h.peer h.sent ?_ hoff
  unfold forgetSession
  rw [wait_emit _ rfl]
  exact h.nacks

theorem finFire_calm (hwf : slot.recvWindow.RecvWF) (hpeer : slot.peer = none) (target : UInt32) :
    slot.Calm (slot.finFire e target) := by
  unfold finFire
  rw [hpeer]
  dsimp only [Option.isSome_none]
  rw [if_neg Bool.false_ne_true]
  have hack : (if e.type.isTcpType = true then
      slot.emit (.sendTcp (Packet.buildFinAck (slot.ownSessionHdr e) target)) else slot).wait =
      slot.wait := by
    split
    · exact wait_emit _ rfl
    · rfl
  generalize (if e.type.isTcpType = true then
      slot.emit (.sendTcp (Packet.buildFinAck (slot.ownSessionHdr e) target)) else slot) = acked
    at hack ⊢
  have hdead : slot.Calm (acked.clearPathPingStates.disconnectAllPaths e) :=
    (Calm.of_wait hwf hack).wait_right (wait_disconnectAllPaths _)
  refine forgetSession_calm (hdead.trans ?_) rfl
  exact .off hdead.wf rfl rfl rfl rfl

theorem drainLoop_calm (fuel : Nat) (hwf : slot.recvWindow.RecvWF)
    (h : slot.reorderPending = false ∨ slot.recvWindow.recvPop = none) :
    slot.Calm (slot.drainLoop e fuel) := by
  refine (drainLoop_induct (P := fun s => slot.Calm s ∧
    (s.reorderPending = false ∨ s.recvWindow.recvPop = none)) fuel (fun s pkt win hs hpop => ?_)
    ⟨.refl hwf, h⟩).1
  have hoff : s.reorderPending = false :=
    hs.2.resolve_right (by rw [hpop]; exact Option.some_ne_none _)
  obtain ⟨-, rfl⟩ := (Window.recvPop_eq_some hs.1.wf).mp hpop
  have hdropped : s.Calm { s with recvWindow := s.recvWindow.dropNext } :=
    .off (Window.dropNext_wf hs.1.wf) rfl rfl rfl hoff
  have hpopped : s.Calm (deliverPacket e (emit { s with recvWindow := s.recvWindow.dropNext }
      (.pop pkt s.healthAlive)) pkt) :=
    (hdropped.wait_right (wait_emit _ rfl)).wait_right (wait_deliverPacket _ _)
  exact ⟨hs.1.trans hpopped, .inl (hpopped.stays_off hoff)⟩

theorem slotDrainRecvWindow_calm (hwf : slot.recvWindow.RecvWF) (hpeer : slot.peer = none)
    (h : slot.reorderPending = false ∨ slot.recvWindow.recvPop = none) :
    slot.Calm (slot.slotDrainRecvWindow e).1 := by
  have hdrained := drainLoop_calm (e := e) slot.recvWindow.windowSize hwf h
  rw [slotDrainRecvWindow_eq]
  split
  · exact hdrained.trans (finFire_calm hdrained.wf (hdrained.peer.trans hpeer) _)
  · exact hdrained

theorem healthCheckService_calm (hwf : slot.recvWindow.RecvWF) :
    slot.Calm (slot.healthCheckService e) := by
  have hloop : (slot.healthLooped e).1.wait = slot.wait := by
    refine Run.foldl_preserves (P := fun acc : Slot × Bool => acc.1.wait = slot.wait)
      (fun acc k hacc => ?_) rfl _
    unfold servicePathLoop
    split
    · exact hacc
    · exact hacc
  have hsynced : slot.Calm (slot.healthSynced e) := by
    unfold healthSynced syncLooped
    split
    · exact (Calm.of_wait hwf hloop).wait_right (wait_syncPathState _)
    · exact .of_wait hwf hloop
  rcases healthCheckService_cases slot with heq | heq | heq
  · rw [heq]
    exact .refl hwf
  · rwa [heq]
  · rw [heq]
    generalize slot.healthSynced e = synced at hsynced
    have hreset : slot.Calm
        { synced with pendingFin := false, finTargetSeq := 0, reorderPending := false } :=
      hsynced.trans (.off hsynced.wf rfl rfl rfl rfl)
    have hdead := hreset.wait_right (wait_disconnectAllPaths (e := e) (clearPathPingStates
      { synced with pendingFin := false, finTargetSeq := 0, reorderPending := false }))
    refine forgetSession_calm hdead ?_
    exact congrArg Wait.pending (wait_disconnectAllPaths _)

-- The calls of a round. `stay` is a branch that returns at once, `check` each of the gap checks.
inductive Call (e : Env) : Slot → Slot → Prop
  | stay (slot : Slot) : Call e slot slot
  | note (slot : Slot) (input : Input) : Call e slot (slot.emit input.note)
  | handle (slot : Slot) (pkt : Packet) : Call e slot (slot.senderHandlePacket e pkt).1
  | adopt (slot : Slot) (pkt : Packet) : Call e slot (slot.sessionAdopt e pkt).1
  | fin (slot : Slot) (pkt : Packet) : Call e (slot.sessionAdopt e pkt).1 (slot.dispatchFin e pkt)
  | learn (slot : Slot) (path : Path) (sender : Endpoint) :
      Call e slot (slot.learnSenderPath e path sender)
  | push (slot : Slot) (pkt : Packet) : Call e slot (slot.acceptPush e pkt).1
  | check (slot : Slot) (seq : UInt32) : Call e slot (slot.gapCheck e seq)
  | disarm (slot : Slot) : Call e slot { slot with reorderPending := false }
  | heard (slot : Slot) (pkt : Packet) (path : Path) : Call e slot (slot.acceptHealth e pkt path)
  | drain (slot : Slot) : Call e slot (slot.slotDrainRecvWindow e).1
  | ping (slot : Slot) (pkt : Packet) (path : Path) :
      Call e slot ((slot.pinged e pkt path).syncPathState e)
  | cut (slot : Slot) (path : Path) (sender : Endpoint) : Call e slot
      ((slot.learnSenderPath e path sender).clearPathPingStates.disconnectAllPaths e)
  | skip (slot : Slot) (seq : UInt32) : Call e slot (slot.skipRecvWindow seq)
  | health (slot : Slot) : Call e slot (slot.healthCheckService e)

-- How the reorder wait goes on from one call to the next.
inductive Stage (e : Env) : Slot → Slot → Prop
  | keep (slot slot' : Slot) (hcall : Call e slot slot') (hnacks : slot'.wait.nacks = slot.wait.nacks)
      (htimer : ∀ seq, slot'.Awaits seq →
        slot.Awaits seq ∧ slot'.reorderDeadlineTs = slot.reorderDeadlineTs) : Stage e slot slot'
  | check (slot : Slot) (seq : UInt32) (hlacks : slot.recvWindow.Lacks seq) :
      Stage e slot (slot.gapCheck e seq)

theorem Stage.call (h : Stage e slot slot') : Call e slot slot' := by
  cases h with
  | keep _ hcall => exact hcall
  | check seq => exact .check slot seq

theorem Stage.stay (slot : Slot) : Stage e slot slot := .keep _ _ (.stay slot) rfl fun _ h => ⟨h, rfl⟩

theorem Calm.stage (h : slot.Calm slot') (hcall : Call e slot slot') : Stage e slot slot' := by
  refine .keep _ _ hcall h.nacks fun seq hawaits => ?_
  have hsame := h.timer hawaits.1
  exact ⟨hawaits.of_wait hsame, congrArg Wait.deadline hsame⟩

def Leads (e : Env) (slot : Slot) (mid : List Slot) (slot' : Slot) : Prop :=
  (slot :: mid ++ [slot']).IsChain (Stage e)

theorem Stage.leads (h : Stage e slot slot') : slot.Leads e [] slot' := List.isChain_pair.mpr h

theorem Stage.leads_cons {mid : List Slot} {last : Slot} (h : Stage e slot slot')
    (hrest : slot'.Leads e mid last) : slot.Leads e (slot' :: mid) last := .cons_cons h hrest

theorem Leads.trans {mid mid' : List Slot} {last : Slot} (h : slot.Leads e mid slot')
    (h' : slot'.Leads e mid' last) : slot.Leads e (mid ++ slot' :: mid') last := by
  unfold Leads at h h' ⊢
  have hsplit : slot :: (mid ++ slot' :: mid') ++ [last] =
      (slot :: mid) ++ slot' :: (mid' ++ [last]) := by simp
  rw [hsplit, List.isChain_split]
  exact ⟨h, h'⟩

theorem gapCheck_cases (hkind : e.type = .unicast ∨ e.type = .unicastBidir)
    (hms : 0 < e.reorderTimeoutMs) (slot : Slot) (seq : UInt32) :
    (¬ (slot.reorderPending = true ∧ slot.reorderNackNum = seq) ∧
      slot.gapCheck e seq = slot.arm e seq) ∨
    slot.reorderPending = true ∧ slot.reorderNackNum = seq ∧
      (0 ≤ e.plat.timespecCmp (slot.now e) slot.reorderDeadlineTs ∧
        slot.gapCheck e seq = slot.expire.slotSendNack e seq ∨
      slot.gapCheck e seq = slot.tickOnce) := by
  have heff : effectiveMs e (slot.now e) = e.reorderTimeoutMs := by
    unfold effectiveMs
    rcases hkind with hkind | hkind <;> rw [hkind] <;> rfl
  unfold gapCheck reorderGapReady
  rw [if_neg (Nat.pos_iff_ne_zero.mp hms)]
  by_cases harmed : slot.reorderPending = true ∧ slot.reorderNackNum = seq
  · have hskip : ¬ (!slot.reorderPending || slot.reorderNackNum != seq) = true := by
      simp [harmed.1, harmed.2]
    rw [if_neg hskip]
    refine .inr ⟨harmed.1, harmed.2, ?_⟩
    by_cases hdue : 0 ≤ e.plat.timespecCmp (slot.now e) slot.reorderDeadlineTs
    · rw [if_pos hdue]
      exact .inl ⟨hdue, rfl⟩
    · rw [if_neg hdue]
      exact .inr rfl
  · have hskip : (!slot.reorderPending || slot.reorderNackNum != seq) = true := by
      by_contra hno
      simp only [Bool.or_eq_true, Bool.not_eq_true', bne_iff_ne, not_or, not_not,
        Bool.not_eq_false] at hno
      exact harmed hno
    rw [if_pos hskip, heff]
    exact .inl ⟨harmed, rfl⟩

theorem nackGap_eq_gapCheck (hpeer : slot.peer = none) (seq : UInt32) :
    slot.nackGap e seq = slot.gapCheck e seq := by
  have hnone : ¬ slot.peer.isSome = true := by
    rw [hpeer]
    exact Bool.false_ne_true
  rw [nackGap_eq, slotGapReady_of_not_peer hnone]
  rfl

theorem gapCheck_wait (hkind : e.type = .unicast ∨ e.type = .unicastBidir)
    (hms : 0 < e.reorderTimeoutMs) (slot : Slot) (seq : UInt32) :
    (slot.gapCheck e seq).recvWindow = slot.recvWindow ∧ (slot.gapCheck e seq).peer = slot.peer ∧
      (slot.gapCheck e seq).sendWindow = slot.sendWindow ∧
      ((slot.gapCheck e seq).reorderPending = true → (slot.gapCheck e seq).reorderNackNum = seq) := by
  rcases gapCheck_cases hkind hms slot seq with ⟨-, heq⟩ | ⟨-, hnum, ⟨-, heq⟩ | heq⟩
  · rw [heq]
    exact ⟨rfl, rfl, rfl, fun _ => rfl⟩
  · obtain ⟨n, hwait⟩ := wait_slotSendNack slot.expire seq
    rw [heq]
    refine ⟨congrArg Wait.win hwait, congrArg Wait.peer hwait, congrArg Wait.sendWindow hwait,
      fun hon => ?_⟩
    exact absurd (hon.symm.trans (congrArg Wait.pending hwait)) (by exact Bool.noConfusion)
  · rw [heq]
    exact ⟨rfl, rfl, rfl, fun _ => hnum⟩

-- The state of a 1:1 service between two rounds: a timer that runs is for a missing number, and
-- what may be sent again is no NACK.
structure Sound (slot : Slot) : Prop where
  peer : slot.peer = none
  sent : ∀ seq pkt, slot.sendWindow.sendGet seq = some pkt → pkt.has FLAG_NACK = false
  wf : slot.recvWindow.RecvWF
  lacks : slot.reorderPending = true → slot.recvWindow.Lacks slot.reorderNackNum

theorem Sound.calm (h : slot.Sound) (hcalm : slot.Calm slot') : slot'.Sound := by
  refine ⟨hcalm.peer.trans h.peer, hcalm.sent ▸ h.sent, hcalm.wf, fun hon => ?_⟩
  have hsame := hcalm.timer hon
  have hpending : slot'.reorderPending = slot.reorderPending := congrArg Wait.pending hsame
  have hnum : slot'.reorderNackNum = slot.reorderNackNum := congrArg Wait.nackNum hsame
  have hwin : slot'.recvWindow = slot.recvWindow := congrArg Wait.win hsame
  rw [hnum, hwin]
  exact h.lacks (hpending ▸ hon)

theorem gapCheck_sound (hkind : e.type = .unicast ∨ e.type = .unicastBidir)
    (hms : 0 < e.reorderTimeoutMs) (hpeer : slot.peer = none)
    (hsent : ∀ seq pkt, slot.sendWindow.sendGet seq = some pkt → pkt.has FLAG_NACK = false)
    (hwf : slot.recvWindow.RecvWF) (hlacks : slot.recvWindow.Lacks seq) :
    (slot.gapCheck e seq).Sound := by
  obtain ⟨hwin, hsame, hkept, hnum⟩ := gapCheck_wait hkind hms slot seq
  refine ⟨hsame.trans hpeer, hkept ▸ hsent, hwin ▸ hwf, fun hon => ?_⟩
  rw [hwin, hnum hon]
  exact hlacks

end

-- The states that the calls of a round leave one after the other, without the last.

def acceptStages (e : Env) (slot : Slot) (pkt : Packet) (path : Path) : List Slot :=
  let (pushed, ok) := slot.acceptPush e pkt
  if !ok then []
  else
    let (checked, ok) := pushed.acceptGap e pkt
    if !ok then [pushed]
    else
      let healthy := checked.acceptHealth e pkt path
      [pushed, checked, healthy, (healthy.slotDrainRecvWindow e).1]

def scanStages (e : Env) (pkt : Packet) : Nat → Slot → UInt32 → List Slot
  | 0, _, _ => []
  | fuel + 1, slot, scanSeq =>
      if scanSeq != pkt.seqNum &&
          seqnumInWindow scanSeq slot.recvWindow.baseSeq slot.recvWindow.windowSize then
        if slot.recvWindow.recvHasPacket scanSeq then scanStages e pkt fuel slot (scanSeq + 1)
        else
          let (checked, ready) := slot.reorderGapReady e scanSeq
          if ready then
            let nacked := checked.slotSendNack e scanSeq
            nacked :: scanStages e pkt fuel nacked (scanSeq + 1)
          else [checked]
      else []

def pingStages (e : Env) (slot : Slot) (pkt : Packet) (path : Path) : List Slot :=
  let synced := (slot.pinged e pkt path).syncPathState e
  synced :: scanStages e pkt synced.recvWindow.windowSize synced synced.recvWindow.nextSeq ++
    [(scanLoop e pkt synced.recvWindow.windowSize synced synced.recvWindow.nextSeq).1]

def rejectStages (e : Env) (slot : Slot) (pkt : Packet) (path : Path) (sender : Endpoint) :
    List Slot :=
  let (adopted, ok) := slot.sessionAdopt e pkt
  if !ok then []
  else
    let dead := (adopted.learnSenderPath e path sender).clearPathPingStates.disconnectAllPaths e
    let cleared := { dead with reorderPending := false }
    [adopted, dead, cleared, cleared.skipRecvWindow pkt.ackNum]

def dispatchStages (e : Env) (slot : Slot) (pkt : Packet) (path : Path) (sender : Endpoint) :
    List Slot :=
  if pkt.has FLAG_FIN then [(slot.sessionAdopt e pkt).1]
  else if pkt.has FLAG_NACK then []
  else if pkt.has FLAG_REJECT then slot.rejectStages e pkt path sender
  else if !pkt.has (FLAG_DATA ||| FLAG_PING) then []
  else
    let (adopted, ok) := slot.sessionAdopt e pkt
    if !ok then []
    else
      let learned := adopted.learnSenderPath e path sender
      adopted :: learned ::
        if pkt.has FLAG_PING then learned.pingStages e pkt path
        else learned.acceptStages e pkt path

def stages (e : Env) (slot : Slot) : Input → List Slot
  | .packet path sender pkt =>
      if e.nPath ≤ path.val then []
      else
        let slot := slot.emit (.recv pkt)
        if e.role = .sender then
          let (handled, goOn) := slot.senderHandlePacket e pkt
          if goOn then slot :: handled :: handled.dispatchStages e pkt path sender else [slot]
        else slot :: slot.dispatchStages e pkt path sender
  | .pollTimeout =>
      let slot := slot.emit .poll
      if e.role = .receiver ∨ e.type = .unicastBidir then [slot, slot.healthCheckService e]
      else [slot]

-- All the states of a run of a 1:1 service, with those within the rounds.
def history (e : Env) (slot : Slot) : List Input → List Slot
  | [] => [slot]
  | input :: rest => slot :: slot.stages e input ++ history e (slot.step e input) rest

section

variable {e : Env} {slot : Slot}

theorem onReject_leads (hraw : e.type.isRawType = false) (h : slot.Sound) (pkt : Packet)
    (path : Path) (sender : Endpoint) :
    slot.Leads e (slot.rejectStages e pkt path sender) (slot.onReject e pkt path sender) ∧
      (slot.onReject e pkt path sender).Sound := by
  have hadopt := sessionAdopt_calm (e := e) h.wf pkt
  have hentered := hadopt.stage (.adopt slot pkt)
  rw [onReject_eq, if_neg (Bool.eq_false_iff.mp hraw)]
  unfold rejectStages
  dsimp only
  split
  · exact ⟨hentered.leads, h.calm hadopt⟩
  generalize (slot.sessionAdopt e pkt).1 = adopted at hadopt hentered ⊢
  have hdead : adopted.Calm ((adopted.learnSenderPath e path
      sender).clearPathPingStates.disconnectAllPaths e) :=
    .of_wait hadopt.wf ((wait_disconnectAllPaths _).trans (wait_learnSenderPath _ path sender))
  have hcut := hdead.stage (.cut adopted path sender)
  generalize (adopted.learnSenderPath e path sender).clearPathPingStates.disconnectAllPaths e = dead
    at hdead hcut ⊢
  have hcleared := disarm_calm hdead.wf
  have hdisarmed := hcleared.stage (.disarm (e := e) dead)
  have hoff : ({ dead with reorderPending := false } : Slot).reorderPending = false := rfl
  generalize ({ dead with reorderPending := false } : Slot) = cleared at hcleared hdisarmed hoff ⊢
  have hskip : cleared.Calm (cleared.skipRecvWindow pkt.ackNum) := by
    unfold skipRecvWindow
    split
    · rename_i hnext
      rw [← hnext, Window.recvSkip_self]
      refine .off (Window.dropNext_wf hcleared.wf) rfl rfl ?_ hoff
      rw [wait_emit _ rfl]
      rfl
    · exact .refl hcleared.wf
  have hskipStage := hskip.stage (.skip (e := e) cleared pkt.ackNum)
  generalize cleared.skipRecvWindow pkt.ackNum = skipped at hskip hskipStage ⊢
  have hskipped := (((h.calm hadopt).calm hdead).calm hcleared).calm hskip
  have hdrain := slotDrainRecvWindow_calm (e := e) hskip.wf hskipped.peer (.inl (hskip.stays_off hoff))
  exact ⟨hentered.leads_cons (hcut.leads_cons (hdisarmed.leads_cons
    (hskipStage.leads_cons (hdrain.stage (.drain skipped)).leads))), hskipped.calm hdrain⟩

variable (hkind : e.type = .unicast ∨ e.type = .unicastBidir) (hms : 0 < e.reorderTimeoutMs)

include hkind

theorem isRawType_of_kind : e.type.isRawType = false := by
  rcases hkind with hkind | hkind <;> rw [hkind] <;> rfl

theorem checkReorderTimeout_eq_gapCheck (hon : slot.reorderPending = true) :
    slot.checkReorderTimeout e = slot.gapCheck e slot.reorderNackNum := by
  have hraw := isRawType_of_kind hkind
  have hnum : (slot.reorderGapReady e slot.reorderNackNum).1.reorderNackNum =
      slot.reorderNackNum := by
    unfold reorderGapReady
    dsimp only
    repeat' split
    all_goals rfl
  rw [checkReorderTimeout_eq, hon, hnum, hraw]
  unfold gapCheck
  cases (slot.reorderGapReady e slot.reorderNackNum).2 <;> rfl

include hms

theorem scanLoop_leads (pkt : Packet) (fuel : Nat) (h : slot.Sound) (scanSeq : UInt32) :
    slot.Leads e (scanStages e pkt fuel slot scanSeq) (scanLoop e pkt fuel slot scanSeq).1 ∧
      (scanLoop e pkt fuel slot scanSeq).1.Sound := by
  induction fuel generalizing slot scanSeq with
  | zero => exact ⟨(Stage.stay slot).leads, h⟩
  | succ fuel ih =>
    rw [scanLoop_succ]
    unfold scanStages
    split
    · rename_i hin
      rw [Bool.and_eq_true] at hin
      split
      · exact ih h _
      · rename_i hmissing
        have hlacks : slot.recvWindow.Lacks scanSeq := ⟨hin.2, Bool.eq_false_iff.mpr hmissing⟩
        have hcheck : Stage e slot (slot.gapCheck e scanSeq) := .check _ _ hlacks
        have hsound := gapCheck_sound hkind hms h.peer h.sent h.wf hlacks
        unfold gapCheck at hcheck hsound
        dsimp only
        split
        · rename_i hready
          rw [if_pos hready] at hcheck hsound
          obtain ⟨hrest, hlast⟩ := ih hsound (scanSeq + 1)
          exact ⟨hcheck.leads_cons hrest, hlast⟩
        · rename_i hready
          rw [if_neg hready] at hcheck hsound
          exact ⟨hcheck.leads_cons (Stage.stay _).leads, hsound⟩
    · exact ⟨(Stage.stay slot).leads, h⟩

theorem acceptPostDrain_stage (hraw : e.type.isRawType = false) (h : slot.Sound) :
    Stage e slot (slot.acceptPostDrain e) ∧ (slot.acceptPostDrain e).Sound := by
  unfold acceptPostDrain
  split
  · have hoff := disarm_calm h.wf
    exact ⟨hoff.stage (.disarm slot), h.calm hoff⟩
  · rename_i seq hneeds
    rw [if_neg (Bool.eq_false_iff.mp hraw), nackGap_eq_gapCheck h.peer]
    have hlacks := Window.lacks_of_needsNack h.wf hneeds
    exact ⟨.check _ _ hlacks, gapCheck_sound hkind hms h.peer h.sent h.wf hlacks⟩

theorem acceptOuter_leads (h : slot.Sound) (pkt : Packet) (path : Path) :
    slot.Leads e (slot.acceptStages e pkt path) (slot.acceptOuter e pkt path) ∧
      (slot.acceptOuter e pkt path).Sound := by
  have hraw := isRawType_of_kind hkind
  rw [acceptOuter_eq]
  unfold acceptStages
  dsimp only
  cases hpush : slot.recvWindow.recvPush pkt with
  | none =>
    rw [acceptPush_none hpush, if_neg (Bool.eq_false_iff.mp hraw)]
    exact ⟨(Stage.stay slot).leads, h⟩
  | some win =>
    have hcall : Call e slot (slot.acceptPush e pkt).1 := .push slot pkt
    rw [acceptPush_some hpush] at hcall ⊢
    have hwf : (slot.pushed pkt win).recvWindow.RecvWF := Window.recvPush_wf h.wf hpush
    have hpushed : Stage e slot (slot.pushed pkt win) := by
      have hnacks : (slot.pushed pkt win).wait.nacks = slot.wait.nacks := by
        unfold pushed
        rw [wait_emit _ rfl]
        rfl
      refine .keep _ _ hcall hnacks fun seq hawaits => ⟨?_, rfl⟩
      exact ⟨hawaits.1, hawaits.2.1, hawaits.2.2.of_push h.wf hpush⟩
    have hpeer : (slot.pushed pkt win).peer = none := h.peer
    have hsent : ∀ seq again, (slot.pushed pkt win).sendWindow.sendGet seq = some again →
        again.has FLAG_NACK = false := h.sent
    clear hcall
    generalize slot.pushed pkt win = pushed at hwf hpushed hpeer hsent ⊢
    -- the check leaves the timer off, or on for the number the drain would begin with
    have hchecked : Stage e pushed (pushed.acceptGap e pkt).1 ∧ (pushed.acceptGap e pkt).1.Sound ∧
        (pushed.acceptGap e pkt).2 = true ∧ ((pushed.acceptGap e pkt).1.reorderPending = false ∨
          (pushed.acceptGap e pkt).1.recvWindow.recvPop = none) := by
      cases hneeds : pushed.recvWindow.recvNeedsNack with
      | none =>
        have hoff := disarm_calm hwf
        rw [acceptGap_none hneeds]
        exact ⟨hoff.stage (.disarm pushed),
          ⟨hpeer, hsent, hwf, fun h => absurd h (by exact Bool.noConfusion)⟩, rfl,
          .inl rfl⟩
      | some seq =>
        have hlacks := Window.lacks_of_needsNack hwf hneeds
        rw [acceptGap_nack hneeds hraw, nackGap_eq_gapCheck hpeer]
        refine ⟨.check _ _ hlacks, gapCheck_sound hkind hms hpeer hsent hwf hlacks, rfl, .inr ?_⟩
        rw [(gapCheck_wait hkind hms pushed seq).1]
        exact (Window.recvPop_eq_none hwf).mpr
          ((Window.recvNeedsNack_eq_some hwf).mp hneeds).2.1
    obtain ⟨hcheck, hsound, hok, hready⟩ := hchecked
    rw [hok]
    generalize (pushed.acceptGap e pkt).1 = checked at hcheck hsound hready ⊢
    have hhealth : (checked.acceptHealth e pkt path).wait = checked.wait := by
      unfold acceptHealth
      split
      · exact wait_syncPathState _
      · rfl
    have hhealthy : checked.Calm (checked.acceptHealth e pkt path) := .of_wait hsound.wf hhealth
    have hheard := hhealthy.stage (.heard checked pkt path)
    generalize checked.acceptHealth e pkt path = healthy at hhealth hhealthy hheard ⊢
    have hready' : healthy.reorderPending = false ∨ healthy.recvWindow.recvPop = none := by
      rw [show healthy.reorderPending = checked.reorderPending from congrArg Wait.pending hhealth,
        show healthy.recvWindow = checked.recvWindow from congrArg Wait.win hhealth]
      exact hready
    have hdrained := slotDrainRecvWindow_calm (e := e) hhealthy.wf
      (hhealthy.peer.trans hsound.peer) hready'
    have hdrainedSound := (hsound.calm hhealthy).calm hdrained
    have hlast : ∀ {last : Slot}, Stage e (healthy.slotDrainRecvWindow e).1 last →
        slot.Leads e [pushed, checked, healthy, (healthy.slotDrainRecvWindow e).1] last :=
      fun hstage => hpushed.leads_cons (hcheck.leads_cons (hheard.leads_cons
        ((hdrained.stage (.drain healthy)).leads_cons hstage.leads)))
    simp only [Bool.not_true, Bool.false_eq_true, if_false]
    split
    · obtain ⟨hstage, hpost⟩ := acceptPostDrain_stage hkind hms hraw hdrainedSound
      exact ⟨hlast hstage, hpost⟩
    · exact ⟨hlast (.stay _), hdrainedSound⟩

theorem dispatchPing_leads (h : slot.Sound) (pkt : Packet) (path : Path) :
    slot.Leads e (slot.pingStages e pkt path) (slot.dispatchPing e pkt path) ∧
      (slot.dispatchPing e pkt path).Sound := by
  have hraw := isRawType_of_kind hkind
  rw [dispatchPing_eq, if_neg (Bool.eq_false_iff.mp hraw)]
  unfold pingStages
  dsimp only
  have hseen : (slot.pinged e pkt path).wait = slot.wait := by
    unfold pinged
    split <;> rfl
  have hcall := Call.ping (e := e) slot pkt path
  generalize slot.pinged e pkt path = seen at hseen hcall ⊢
  have hsynced : slot.Calm (seen.syncPathState e) :=
    .of_wait h.wf ((wait_syncPathState seen).trans hseen)
  have hpinged := hsynced.stage hcall
  generalize seen.syncPathState e = synced at hsynced hpinged ⊢
  have hsound := h.calm hsynced
  obtain ⟨hscan, hscanned⟩ := scanLoop_leads hkind hms pkt synced.recvWindow.windowSize hsound
    synced.recvWindow.nextSeq
  have hpeer : ¬ synced.peer.isSome = true := by
    rw [hsound.peer]
    exact Bool.false_ne_true
  rw [scanPingGap_eq, if_neg hpeer, if_neg (Bool.eq_false_iff.mp hraw)]
  generalize scanLoop e pkt synced.recvWindow.windowSize synced synced.recvWindow.nextSeq = scanned
    at hscan hscanned ⊢
  have hlast : ∀ {last : Slot}, Stage e scanned.1 last →
      slot.Leads e (synced :: scanStages e pkt synced.recvWindow.windowSize synced
        synced.recvWindow.nextSeq ++ [scanned.1]) last := fun hstage =>
    hpinged.leads_cons (hscan.trans hstage.leads)
  split
  · have hoff := disarm_calm hscanned.wf
    exact ⟨hlast (hoff.stage (.disarm _)), hscanned.calm hoff⟩
  · exact ⟨hlast (.stay _), hscanned⟩

theorem dispatchPacket_leads (h : slot.Sound) (pkt : Packet) (path : Path) (sender : Endpoint) :
    slot.Leads e (slot.dispatchStages e pkt path sender) (slot.dispatchPacket e pkt path sender) ∧
      (slot.dispatchPacket e pkt path sender).Sound := by
  have hraw := isRawType_of_kind hkind
  have hadopt := sessionAdopt_calm (e := e) h.wf pkt
  have hentered := hadopt.stage (.adopt slot pkt)
  have hsame := (Stage.stay (e := e) slot).leads
  have hpeer : ¬ slot.peer.isSome = true := by
    rw [h.peer]
    exact Bool.false_ne_true
  rw [dispatchPacket_eq]
  unfold dispatchStages
  dsimp only
  split
  · have hfin : (slot.sessionAdopt e pkt).1.Calm (slot.dispatchFin e pkt) := by
      rw [dispatchFin_eq, h.peer]
      dsimp only [Option.isNone_none]
      rw [if_pos rfl]
      split
      · exact .refl hadopt.wf
      have hnoted : (slot.sessionAdopt e pkt).1.Calm ((slot.sessionAdopt e pkt).1.finOnPacket pkt).1 :=
        .of_wait hadopt.wf (wait_finOnPacket _ _)
      split
      · exact hnoted.trans (finFire_calm hnoted.wf (hnoted.peer.trans (hadopt.peer.trans h.peer)) _)
      · exact hnoted
    exact ⟨hentered.leads_cons (hfin.stage (.fin slot pkt)).leads, (h.calm hadopt).calm hfin⟩
  split
  · exact ⟨hsame, h⟩
  split
  · exact onReject_leads hraw h pkt path sender
  split
  · exact ⟨hsame, h⟩
  split
  · exact ⟨hentered.leads, h.calm hadopt⟩
  have hlearn : (slot.sessionAdopt e pkt).1.Calm
      ((slot.sessionAdopt e pkt).1.learnSenderPath e path sender) :=
    .of_wait hadopt.wf (wait_learnSenderPath _ path sender)
  have hlearned := (h.calm hadopt).calm hlearn
  have hknows := hlearn.stage (.learn _ path sender)
  split
  · obtain ⟨hping, hsound⟩ := dispatchPing_leads hkind hms hlearned pkt path
    exact ⟨hentered.leads_cons (hknows.leads_cons hping), hsound⟩
  · obtain ⟨haccept, hsound⟩ := acceptOuter_leads hkind hms hlearned pkt path
    exact ⟨hentered.leads_cons (hknows.leads_cons haccept), hsound⟩

theorem step_leads (h : slot.Sound) (input : Input) :
    slot.Leads e (slot.stages e input) (slot.step e input) ∧ (slot.step e input).Sound := by
  cases input with
  | packet path sender pkt =>
    have hrecv : slot.Calm (slot.emit (.recv pkt)) := .of_wait h.wf (wait_emit _ rfl)
    rw [step_packet_eq]
    unfold stages
    dsimp only
    split
    · exact ⟨(Stage.stay slot).leads, h⟩
    have hnoted := hrecv.stage (.note (e := e) slot (.packet path sender pkt))
    generalize slot.emit (.recv pkt) = noted at hrecv hnoted ⊢
    have hhandled : noted.Calm (noted.senderHandlePacket e pkt).1 := by
      refine .of_wait hrecv.wf ?_
      unfold senderHandlePacket
      split
      · rfl
      · exact wait_onNack (h.calm hrecv).sent pkt
    have hanswered := hhandled.stage (.handle noted pkt)
    split
    · split
      · obtain ⟨hdispatch, hsound⟩ := dispatchPacket_leads hkind hms
          ((h.calm hrecv).calm hhandled) pkt path sender
        exact ⟨hnoted.leads_cons (hanswered.leads_cons hdispatch), hsound⟩
      · exact ⟨hnoted.leads_cons hanswered.leads, (h.calm hrecv).calm hhandled⟩
    · obtain ⟨hdispatch, hsound⟩ := dispatchPacket_leads hkind hms (h.calm hrecv) pkt path sender
      exact ⟨hnoted.leads_cons hdispatch, hsound⟩
  | pollTimeout =>
    have hpoll : slot.Calm (slot.emit .poll) := .of_wait h.wf (wait_emit _ rfl)
    have hnoted := hpoll.stage (.note (e := e) slot .pollTimeout)
    unfold stages step onPollTimeout
    dsimp only
    generalize slot.emit .poll = noted at hpoll hnoted ⊢
    split
    · have hhealth := healthCheckService_calm (e := e) hpoll.wf
      have hsound := (h.calm hpoll).calm hhealth
      have hcared := hhealth.stage (.health noted)
      generalize noted.healthCheckService e = checked at hhealth hcared hsound ⊢
      have hlast : ∀ {last : Slot}, Stage e checked last → slot.Leads e [noted, checked] last :=
        fun hstage => hnoted.leads_cons (hcared.leads_cons hstage.leads)
      cases hon : checked.reorderPending with
      | false =>
        rw [checkReorderTimeout_eq, if_pos hon]
        exact ⟨hlast (.stay _), hsound⟩
      | true =>
        have hlacks := hsound.lacks hon
        rw [checkReorderTimeout_eq_gapCheck hkind hon]
        exact ⟨hlast (.check _ _ hlacks),
          gapCheck_sound hkind hms hsound.peer hsound.sent hsound.wf hlacks⟩
    · exact ⟨hnoted.leads_cons (Stage.stay noted).leads, h.calm hpoll⟩

theorem history_isChain (h : slot.Sound) (inputs : List Input) :
    (slot.history e inputs).IsChain (Stage e) := by
  induction inputs generalizing slot with
  | nil => exact .singleton _
  | cons input rest ih =>
    obtain ⟨hleads, hsound⟩ := step_leads hkind hms h input
    obtain ⟨tail, htail⟩ : ∃ tail, (slot.step e input).history e rest =
        slot.step e input :: tail := by
      cases rest with
      | nil => exact ⟨_, rfl⟩
      | cons => exact ⟨_, rfl⟩
    have hrest := ih hsound
    unfold history
    rw [htail] at hrest ⊢
    exact List.isChain_split.mpr ⟨hleads, hrest⟩

omit hkind hms in
theorem stage_at {states : List Slot} (hchain : states.IsChain (Stage e)) {k : Nat} {x y : Slot}
    (hx : states[k]? = some x) (hy : states[k + 1]? = some y) : Stage e x y := by
  obtain ⟨hk, rfl⟩ := List.getElem?_eq_some_iff.mp hx
  obtain ⟨hk', rfl⟩ := List.getElem?_eq_some_iff.mp hy
  exact List.isChain_iff_getElem.mp hchain k hk'

theorem awaits_since {states : List Slot} (hchain : states.IsChain (Stage e))
    (hstart : ∀ x, states[0]? = some x → x.reorderPending = false) {k : Nat} {seq : UInt32}
    {x : Slot} (hx : states[k]? = some x) (h : x.Awaits seq) :
    ∃ j z, j < k ∧ states[j]? = some z ∧ states[j + 1]? = some (z.arm e seq) ∧
      (∀ i y, j < i → i ≤ k → states[i]? = some y → y.Awaits seq) ∧
      x.reorderDeadlineTs = e.plat.timespecAddMs (z.now e) e.reorderTimeoutMs := by
  induction k generalizing x with
  | zero => exact absurd (h.1.symm.trans (hstart x hx)) (by exact Bool.noConfusion)
  | succ k ih =>
    obtain ⟨w, hw⟩ : ∃ w, states[k]? = some w := by
      have hlen := (List.getElem?_eq_some_iff.mp hx).1
      exact ⟨_, List.getElem?_eq_getElem (by omega)⟩
    -- either the wait goes on from the state before, or it begins here
    have hgoes : ∀ {d : Timespec}, w.Awaits seq → w.reorderDeadlineTs = d → ∃ j z, j < k + 1 ∧
        states[j]? = some z ∧ states[j + 1]? = some (z.arm e seq) ∧
        (∀ i y, j < i → i ≤ k + 1 → states[i]? = some y → y.Awaits seq) ∧
        d = e.plat.timespecAddMs (z.now e) e.reorderTimeoutMs := by
      intro d hawaits hdeadline
      obtain ⟨j, z, hj, hz, harm, hbetween, hd⟩ := ih hw hawaits
      refine ⟨j, z, by omega, hz, harm, fun i y hji hik hy => ?_, hdeadline ▸ hd⟩
      rcases Nat.lt_or_ge k i with hlt | hge
      · obtain rfl : i = k + 1 := by omega
        rw [hx] at hy
        exact Option.some.inj hy ▸ h
      · exact hbetween i y hji hge hy
    cases stage_at hchain hw hx with
    | keep _ _ _ htimer =>
      obtain ⟨hawaits, hsame⟩ := htimer seq h
      exact hgoes hawaits hsame.symm
    | check seq' hlacks =>
      obtain rfl : seq = seq' := h.2.1.symm.trans ((gapCheck_wait hkind hms w seq').2.2.2 h.1)
      rcases gapCheck_cases hkind hms w seq with ⟨-, heq⟩ | ⟨hon, hnum, ⟨-, heq⟩ | heq⟩
      · refine ⟨k, w, by omega, hw, heq ▸ hx, fun i y hki hik hy => ?_, by rw [heq]; rfl⟩
        obtain rfl : i = k + 1 := by omega
        rw [hx] at hy
        exact Option.some.inj hy ▸ h
      · obtain ⟨n, hwait⟩ := wait_slotSendNack w.expire seq
        rw [heq] at h
        exact absurd (h.1.symm.trans (congrArg Wait.pending hwait)) (by exact Bool.noConfusion)
      · rw [heq]
        exact hgoes ⟨hon, hnum, hlacks⟩ rfl

end

-- Up to stage `k` the timer has been armed for `seq`, and `seq` has been missing, for at least the
-- time that is configured.
def WaitedOut (e : Env) (states : List Slot) (k : Nat) (seq : UInt32) : Prop :=
  ∃ j z x, j < k ∧ states[j]? = some z ∧ states[j + 1]? = some (z.arm e seq) ∧
    (∀ i y, j < i → i ≤ k → states[i]? = some y → y.Awaits seq) ∧ states[k]? = some x ∧
    (z.now e).ns + e.reorderTimeoutMs * 1000000 ≤ (x.now e).ns

theorem opened_sound (e : Env) (sessionId : UInt32) (sessionTs : Timespec)
    (destAddr : Path → Endpoint) : (opened e sessionId sessionTs destAddr).Sound :=
  ⟨rfl, fun seq pkt hget => by simp [opened, PeerContext.empty, Window.sendGet, Window.init] at hget,
    Window.init_wf e.windowSize_pos e.windowSize_le, fun h => absurd h (by exact Bool.noConfusion)⟩

theorem history_getLast? (e : Env) (slot : Slot) (inputs : List Input) :
    (slot.history e inputs).getLast? = some (slot.run e inputs) := by
  induction inputs generalizing slot with
  | nil => rfl
  | cons input rest ih =>
    unfold history
    rw [List.getLast?_append, ih]
    rfl

end Slot

-- The states of a run follow each other by the calls of its rounds. Whichever check sends NACK
-- packets, they ask for one number, which has been missing since the timer was armed for it, and the
-- reorder timeout has passed.
theorem reorder_wait_respected {e : Env} (hlex : e.plat.CmpLex) (hadd : e.AddsMs)
    (hkind : e.type = .unicast ∨ e.type = .unicastBidir) (hms : 0 < e.reorderTimeoutMs)
    (sessionId : UInt32) (sessionTs : Timespec) (destAddr : Path → Endpoint)
    (inputs : List Slot.Input) :
    let start := Slot.opened e sessionId sessionTs destAddr
    let states := start.history e inputs
    states.getLast? = some (start.run e inputs) ∧ states.IsChain (Slot.Call e) ∧
    ∀ k x y, states[k]? = some x → states[k + 1]? = some y → y.wait.nacks ≠ x.wait.nacks →
      ∃ seq n, y.wait.nacks = x.wait.nacks ++ List.replicate n seq ∧
        Slot.WaitedOut e states k seq := by
  intro start states
  have hchain : states.IsChain (Slot.Stage e) := Slot.history_isChain hkind hms
    (Slot.opened_sound e sessionId sessionTs destAddr) inputs
  have hstart : ∀ x, states[0]? = some x → x.reorderPending = false := by
    intro x hx
    have hhead : states[0]? = some start := by
      cases inputs with
      | nil => rfl
      | cons => rfl
    rw [hhead] at hx
    exact Option.some.inj hx ▸ rfl
  refine ⟨Slot.history_getLast? e start inputs, hchain.imp fun _ _ h => h.call,
    fun k x y hx hy hnew => ?_⟩
  cases Slot.stage_at hchain hx hy with
  | keep _ _ hnacks => exact absurd hnacks hnew
  | check seq hlacks =>
      rcases Slot.gapCheck_cases hkind hms x seq with ⟨-, heq⟩ | ⟨hon, hnum, ⟨hdue, heq⟩ | heq⟩
      · exact absurd (heq ▸ rfl) hnew
      · obtain ⟨j, z, hj, hz, harm, hbetween, hdeadline⟩ :=
          Slot.awaits_since hkind hms hchain hstart hx ⟨hon, hnum, hlacks⟩
        obtain ⟨n, hwait⟩ := Slot.wait_slotSendNack x.expire seq
        refine ⟨seq, n, ?_, j, z, x, hj, hz, harm, hbetween, hx, ?_⟩
        · rw [heq]
          exact congrArg Wait.nacks hwait
        · have hlate := Timespec.ns_le_of_not_lt (hadd.clock x.tick) (hadd.normal z.tick)
            (hdeadline ▸ hlex.not_lt hdue)
          rw [hadd.sum] at hlate
          exact hlate
      · exact absurd (heq ▸ rfl) hnew

-- A receiver that waits three seconds, with a clock that goes on by one at each reading.
def Env.sampleReorder (type : PotrType) : Env where
  toConfig := { Config.sample type with reorderTimeoutMs := 3000 }
  accepted := by cases type <;> rfl
  plat := { Cplat.reference with clock := fun n => ⟨Int64.ofNat (min n 1000), 0⟩ }

theorem Env.sampleReorder_addsMs (type : PotrType) : (Env.sampleReorder type).AddsMs where
  clock n := by
    change 0 ≤ (0 : Int64).toInt ∧ (0 : Int64).toInt < 1000000000
    decide
  normal n := by
    change 0 ≤ (0 : Int64).toInt ∧ (0 : Int64).toInt < 1000000000
    decide
  sum n := by
    have hclock : (Int64.ofNat (min n 1000)).toInt = (min n 1000 : Nat) :=
      Int64.toInt_ofNat_of_lt (by omega)
    have hlater : (Int64.ofNat (min n 1000 + 3000 / 1000)).toInt = (min n 1000 + 3 : Nat) :=
      Int64.toInt_ofNat_of_lt (by omega)
    rw [Int64.ofNat_add] at hlater
    have hadd : (Env.sampleReorder type).plat.timespecAddMs
        ((Env.sampleReorder type).plat.clock n) (Env.sampleReorder type).reorderTimeoutMs =
        ⟨Int64.ofNat (min n 1000) + Int64.ofNat (3000 / 1000), 0⟩ := rfl
    have hnow : (Env.sampleReorder type).plat.clock n = ⟨Int64.ofNat (min n 1000), 0⟩ := rfl
    have hms : (Env.sampleReorder type).reorderTimeoutMs = 3000 := rfl
    rw [hadd, hnow, hms]
    unfold Timespec.ns
    rw [hclock, hlater]
    push_cast
    omega

-- The packet after the missing one arms the timer, and a poll timeout sends the NACK on both paths.
theorem reorder_wait_respected_sample :
    let e := Env.sampleReorder .unicast
    let start := Slot.opened e 3 ⟨2, 0⟩ fun _ => Endpoint.clear
    let states := start.history e [.sample (.sampleData 0 [⟨0, [1]⟩]),
      .sample (.sampleData 2 [⟨0, [3]⟩]), .pollTimeout]
    states[18]?.map (fun x => x.wait.nacks.length) = some 0 ∧
      states[19]?.map (fun y => y.wait.nacks) = some [1, 1] ∧
      ∃ seq, Slot.WaitedOut e states 18 seq := by
  intro e start states
  have hbefore : states[18]?.map (fun x => x.wait.nacks.length) = some 0 := by decide +kernel
  have hafter : states[19]?.map (fun y => y.wait.nacks) = some [1, 1] := by decide +kernel
  obtain ⟨x, hx, hlen⟩ := Option.map_eq_some_iff.mp hbefore
  obtain ⟨y, hy, hnums⟩ := Option.map_eq_some_iff.mp hafter
  have hnew : y.wait.nacks ≠ x.wait.nacks := by
    intro hsame
    rw [hsame, List.eq_nil_of_length_eq_zero hlen] at hnums
    cases hnums
  obtain ⟨-, -, hrespects⟩ := reorder_wait_respected
    ⟨Cplat.reference_cmpLex.eq_zero, Cplat.reference_cmpLex.pos⟩ (Env.sampleReorder_addsMs .unicast)
    (.inl rfl) (by decide) 3 ⟨2, 0⟩ (fun _ => Endpoint.clear)
    [.sample (.sampleData 0 [⟨0, [1]⟩]), .sample (.sampleData 2 [⟨0, [3]⟩]), .pollTimeout]
  obtain ⟨seq, n, -, hwaited⟩ := hrespects 18 x y hx hy hnew
  exact ⟨hbefore, hafter, seq, hwaited⟩

end Porter
