import Porter.Delivery.Gap

namespace Porter

open View

namespace View

-- A round that cannot drain the window of the tracked session `start` leaves the window alone, or
-- it leaves the session.
def Kept (cur : Option Packet) (start v : View) : Prop :=
  (v.known = true ∧ v.session = start.session ∧ v.win = start.win) ∨
  (v.known = true ∧ v.session ≠ start.session ∧ ∃ pkt, cur = some pkt ∧ v.session = pkt.session) ∨
  (v.known = false ∧ ¬ v.Early)

section

variable {e : Env} {cur : Option Packet} {start v v' : View}

theorem Kept.of_same (h : Kept cur start v) (hknown : v'.known = v.known)
    (hsession : v'.session = v.session) (hwin : v'.win = v.win) (hlate : ¬ v.Early → ¬ v'.Early) :
    Kept cur start v' := by
  unfold Kept
  rw [hknown, hsession, hwin]
  rcases h with h | h | h
  · exact .inl h
  · exact .inr (.inl h)
  · exact .inr (.inr ⟨h.1, hlate h.2⟩)

theorem Move.kept (hlex : e.plat.CmpLex) (hraw : e.type.isRawType = false)
    (hpop : start.win.recvPop = none)
    (hcur : ∀ pkt, cur = some pkt → start.session = pkt.session → ¬ Drains cur)
    (hm : Move e cur v v') (h : Kept cur start v) : Kept cur start v' := by
  have hlate := hm.late
  -- A packet of the session is no reason to take anything from its window.
  have hother : ∀ pkt, cur = some pkt → Drains cur → v.known = true → v.session = pkt.session →
      v.known = true ∧ v.session ≠ start.session ∧ ∃ pkt, cur = some pkt ∧ v.session = pkt.session := by
    intro pkt hpkt hdrains hknown hsession
    rcases h with ⟨-, hsame, -⟩ | hgone | ⟨hunknown, -⟩
    · exact absurd hdrains (hcur pkt hpkt (hsame.symm.trans hsession))
    · exact hgone
    · exact absurd (hunknown.symm.trans hknown) Bool.noConfusion
  cases hm with
  | adopt pkt hpkt hearly hnew =>
    rcases h with ⟨hknown, hsession, -⟩ | ⟨-, hne, pkt', hpkt', hsession⟩ | ⟨-, hnot⟩
    · rcases hnew with hunknown | hnewer
      · exact absurd (hunknown.symm.trans hknown) Bool.noConfusion
      · exact .inr (.inl ⟨rfl, fun heq => newer_ne_session hlex hnewer (hsession.trans heq.symm),
          pkt, hpkt, rfl⟩)
    · obtain rfl := Option.some.inj (hpkt.symm.trans hpkt')
      exact .inr (.inl ⟨rfl, fun heq => hne (hsession.trans heq), pkt, hpkt, rfl⟩)
    · exact absurd hearly hnot
  | push pkt win pending nackNum hpkt _ hdata hping hknown hsession =>
    exact .inr (.inl (hother pkt hpkt ⟨pkt, hpkt, .inr ⟨hdata, hping⟩⟩ hknown hsession))
  | skip pkt hpkt hreject _ hknown hsession =>
    exact .inr (.inl (hother pkt hpkt ⟨pkt, hpkt, .inl hreject⟩ hknown hsession))
  | pop pkt win _ hfound =>
    rcases h with ⟨-, -, hwin⟩ | ⟨hknown, hgone⟩ | ⟨hunknown, hnot⟩
    · rw [hwin, hpop] at hfound
      cases hfound
    · exact .inr (.inl ⟨(popped_known pkt win).trans hknown, by rw [popped_session]; exact hgone⟩)
    · exact .inr (.inr ⟨(popped_known pkt win).trans hunknown, hlate hnot⟩)
  | reset pkt _ _ hyes => exact absurd (hyes.symm.trans hraw) Bool.noConfusion
  | forget frag => exact .inr (.inr ⟨rfl, forgotten_late _⟩)
  | sync alive evs =>
    exact h.of_same (synced_known alive evs) (synced_session alive evs) (synced_win alive evs) hlate
  | _ => exact h.of_same rfl rfl rfl hlate

theorem Moves.kept (hlex : e.plat.CmpLex) (hraw : e.type.isRawType = false)
    (hpop : start.win.recvPop = none)
    (hcur : ∀ pkt, cur = some pkt → start.session = pkt.session → ¬ Drains cur)
    (hmoves : Moves e cur v v') (h : Kept cur start v) : Kept cur start v' :=
  Run.star_preserves (P := Kept cur start) (fun _ _ hm hv => hm.kept hlex hraw hpop hcur hv) hmoves h

end

end View

namespace Slot

-- The session that was tracked is tracked no longer, or its peer has been released.
def GivenUp (e : Env) (slot after : Slot) : Prop :=
  after.peerSessionKnown = false ∨ (after.view e).session ≠ (slot.view e).session ∨
    slot.peer.isSome = true ∧ after.active = false

-- What may become of a packet held under number `n`: it waits, or it was handed over, unless the
-- session is given up.
def Fate (e : Env) (slot after : Slot) (n : UInt32) (p : Packet) : Prop :=
  slot.GivenUp e after ∨ after.recvWindow.held n = some p ∨
    slot.Logged after fun act => act = .pop p true

-- A packet that takes the head off the window of an unconnected session must not uncover another.
-- DATA makes one-way receivers connected before the window is drained.
def Sparing (e : Env) (slot : Slot) (pkt : Packet) : Prop :=
  slot.peerSessionKnown = true → (slot.view e).session = pkt.session →
    pkt.has FLAG_REJECT = true ∧ pkt.ackNum = slot.recvWindow.nextSeq ∨
      pkt.has FLAG_DATA = true ∧ pkt.seqNum = slot.recvWindow.nextSeq ∧
        slot.healthAlive = false ∧ (slot.peer.isSome = true ∨ e.type = .unicastBidir) →
    slot.recvWindow.held (slot.recvWindow.nextSeq + 1) = none

instance (e : Env) (slot : Slot) (pkt : Packet) : Decidable (slot.Sparing e pkt) :=
  inferInstanceAs (Decidable (_ → _ → _ → _))

section

variable {e : Env} {slot after : Slot} {pkt : Packet} {n : UInt32} {p : Packet}

theorem Fate.of_window (h : slot.recvWindow.held n = some p)
    (hwin : after.recvWindow = slot.recvWindow) : Fate e slot after n p := by
  rw [← hwin] at h
  exact .inr (.inl h)

theorem kept_of_moves (hlex : e.plat.CmpLex) (hraw : e.type.isRawType = false)
    (hwf : slot.recvWindow.RecvWF) (hhead : slot.HeadEmpty) (hknown : slot.peerSessionKnown = true)
    (hheld : slot.recvWindow.held n = some p) {cur : Option Packet} {acts : List Act}
    (hcur : ∀ pkt, cur = some pkt → (slot.view e).session = pkt.session → ¬ Drains cur)
    (hmoves : Moves e cur ((slot.view e).emits acts) (after.view e)) :
    slot.GivenUp e after ∨ after.recvWindow.held n = some p := by
  have hstart : Kept cur (slot.view e) ((slot.view e).emits acts) := .inl ⟨hknown, rfl, rfl⟩
  rcases Moves.kept hlex hraw ((Window.recvPop_eq_none hwf).mpr hhead) hcur hmoves hstart with
    ⟨-, -, hwin⟩ | ⟨-, hne, -⟩ | ⟨hunknown, -⟩
  · right
    rw [show after.recvWindow = slot.recvWindow from hwin]
    exact hheld
  · exact .inl (.inr (.inl hne))
  · exact .inl (.inl hunknown)

theorem GivenUp.of_session {mid : Slot} (h : mid.GivenUp e after) (hpeer : mid.peer = slot.peer)
    (hsession : (mid.view e).session = (slot.view e).session) : slot.GivenUp e after := by
  unfold GivenUp at h ⊢
  rwa [hsession, hpeer] at h

theorem Fate.of_log (h : Fate e slot after n p) {start : Slot} (hpeer : slot.peer = start.peer)
    (hsession : (slot.view e).session = (start.view e).session) (hlog : start.log <+: slot.log) :
    Fate e start after n p := by
  rcases h with hgone | hkept | hpopped
  · exact .inl (hgone.of_session hpeer hsession)
  · exact .inr (.inl hkept)
  · exact .inr (.inr (hpopped.prepend hpeer hlog))

theorem finFire_ends (slot : Slot) (target : UInt32) :
    (slot.finFire e target).peerSessionKnown = false ∨
      slot.peer.isSome = true ∧ (slot.finFire e target).active = false := by
  unfold finFire
  split
  · rename_i hpeer
    exact .inr ⟨hpeer, congrArg View.active (view_peerFree (e := e) _)⟩
  · exact .inl rfl

theorem finFire_givenUp (h : after.peer = slot.peer) (target : UInt32) :
    slot.GivenUp e (after.finFire e target) := by
  rcases finFire_ends after target with hunknown | ⟨hpeer, hfreed⟩
  · exact .inl hunknown
  · exact .inr (.inr ⟨h ▸ hpeer, hfreed⟩)

theorem dispatchFin_fate (hlex : e.plat.CmpLex) (hknown : slot.peerSessionKnown = true)
    (hsession : (slot.view e).session = pkt.session) (hheld : slot.recvWindow.held n = some p) :
    Fate e slot (slot.dispatchFin e pkt) n p := by
  have hadopt : (if slot.peer.isNone then slot.sessionAdopt e pkt else (slot, true)) = (slot, true) := by
    rw [sessionAdopt_tracked hlex hknown hsession, ite_self]
  rw [dispatchFin_eq, hadopt]
  rw [if_neg Bool.noConfusion]
  have hsame : (slot.finOnPacket pkt).1.recvWindow = slot.recvWindow ∧
      (slot.finOnPacket pkt).1.peer = slot.peer := by
    unfold finOnPacket
    split
    · exact ⟨rfl, rfl⟩
    · split <;> exact ⟨rfl, rfl⟩
  split
  · exact .inl (finFire_givenUp hsame.2 _)
  · exact .of_window hheld hsame.1

theorem drainLoop_fate (fuel : Nat) (hwf : slot.recvWindow.RecvWF)
    (hheld : slot.recvWindow.held n = some p) :
    (slot.drainLoop e fuel).recvWindow.held n = some p ∨
      slot.Logged (slot.drainLoop e fuel) fun act => act = .pop p slot.healthAlive := by
  refine (drainLoop_induct (P := fun s => (s.peer = slot.peer ∧ s.healthAlive = slot.healthAlive ∧
    slot.log <+: s.log ∧ s.recvWindow.RecvWF) ∧ (s.recvWindow.held n = some p ∨
      slot.Logged s fun act => act = .pop p slot.healthAlive)) fuel (fun s q win hs hpop => ?_)
    ⟨⟨rfl, rfl, List.prefix_refl _, hwf⟩, .inl hheld⟩).2
  obtain ⟨⟨hpeer, halive, hlog, hswf⟩, hfate⟩ := hs
  obtain ⟨hq, rfl⟩ := (Window.recvPop_eq_some hswf).mp hpop
  have hview := view_deliverPacket (e := e) s q s.recvWindow.dropNext
  generalize deliverPacket e (emit { s with recvWindow := s.recvWindow.dropNext }
    (.pop q s.healthAlive)) q = next at hview ⊢
  have hwin : next.recvWindow = s.recvWindow.dropNext := (congrArg View.win hview).trans (popped_win ..)
  have hpopped : s.Logged next fun act => act = .pop q s.healthAlive := by
    obtain ⟨out, hout⟩ := popped_log (v := s.view e) q s.recvWindow.dropNext
    exact ⟨_, ((congrArg View.log hview).trans hout).trans (List.append_assoc ..),
      .pop q s.healthAlive, List.mem_cons_self, rfl⟩
  have hgrown : s.log <+: next.log := by
    obtain ⟨rest, hrest, -⟩ := hpopped
    exact ⟨rest, hrest.symm⟩
  refine ⟨⟨((congrArg View.peer hview).trans (popped_peer ..)).trans hpeer,
    ((congrArg View.alive hview).trans (popped_alive ..)).trans halive, hlog.trans hgrown,
    hwin ▸ Window.dropNext_wf hswf⟩, ?_⟩
  rcases hfate with hn | hdone
  · by_cases hnext : n = s.recvWindow.nextSeq
    · subst hnext
      obtain rfl := Option.some.inj (hn.symm.trans hq)
      exact .inr (halive ▸ hpopped.prepend hpeer hlog)
    · rw [hwin, Window.dropNext_held hswf, if_neg hnext]
      exact .inl hn
  · exact .inr (hdone.append hgrown)

theorem drainLoop_single {k : Nat} {win : Window} {q : Packet}
    (hpop : slot.recvWindow.recvPop = some (q, win)) (hnext : win.recvPop = none) :
    (slot.drainLoop e (k + 1)).recvWindow = win := by
  have hview := view_deliverPacket (e := e) slot q win
  have hwin : (deliverPacket e (emit { slot with recvWindow := win } (.pop q slot.healthAlive))
      q).recvWindow = win := (congrArg View.win hview).trans (popped_win q win)
  rw [drainLoop_succ k hpop, drainLoop_none]
  · exact hwin
  · rw [hwin]
    exact hnext

theorem settle_after (slot : Slot) :
    slot.GivenUp e (slot.settle e) ∨
      (slot.settle e).recvWindow = (slot.drainLoop e slot.recvWindow.windowSize).recvWindow ∧
        (slot.drainLoop e slot.recvWindow.windowSize).log <+: (slot.settle e).log := by
  have hpeer : (slot.drainLoop e slot.recvWindow.windowSize).peer = slot.peer :=
    congrArg (fun l : Links => l.peer) (drainLoop_links slot.recvWindow.windowSize slot)
  unfold settle
  rw [slotDrainRecvWindow_eq]
  generalize slot.drainLoop e slot.recvWindow.windowSize = drained at hpeer ⊢
  split
  · dsimp only
    split
    · -- A 1:1 service goes on, with the session forgotten.
      rename_i hpost
      have hnone : ¬ drained.peer.isSome = true := by simpa using hpost
      have hknown := (acceptPostDrain_idle (e := e) (drained.finFire e drained.finTargetSeq)).known
      rcases finFire_ends drained drained.finTargetSeq with h | ⟨h, -⟩
      · exact .inl (.inl (hknown.trans h))
      · exact absurd h hnone
    · exact .inl (finFire_givenUp hpeer _)
  · dsimp only
    rw [if_pos rfl]
    obtain ⟨hmoves, hwin⟩ := (acceptPostDrain_moves drained : Moves e none _ _ ∧ _)
    obtain ⟨rest, hrest⟩ := hmoves.log_extends
    exact .inr ⟨hwin, rest, hrest.symm⟩

theorem acceptOuter_fate (hraw : e.type.isRawType = false) (hudp : e.type.isTcpType = false)
    (hok : Ok e slot) (hrest : Rest e slot) (hdata : pkt.has FLAG_DATA = true)
    (hsparing : pkt.seqNum = slot.recvWindow.nextSeq → slot.healthAlive = false →
      slot.peer.isSome = true ∨ e.type = .unicastBidir →
      slot.recvWindow.held (slot.recvWindow.nextSeq + 1) = none)
    (hheld : slot.recvWindow.held n = some p) (path : Path) :
    Fate e slot (slot.acceptOuter e pkt path) n p := by
  have hwf : slot.recvWindow.RecvWF := hok.inv.wf
  by_cases hin : Serial.dist pkt.seqNum slot.recvWindow.nextSeq < slot.recvWindow.windowSize
  swap
  · rw [acceptOuter_out hraw hwf (Nat.not_lt.mp hin)]
    exact .of_window hheld rfl
  by_cases hzero : Serial.dist pkt.seqNum slot.recvWindow.nextSeq = 0
  swap
  · obtain ⟨mid, hmid, heq⟩ := acceptOuter_gap hraw hok hrest (Nat.pos_of_ne_zero hzero) hin path
    rw [heq]
    refine .inr (.inl ?_)
    rw [nackGap_recvWindow]
    exact hmid.held n p hheld
  have hseq : pkt.seqNum = slot.recvWindow.nextSeq := Serial.dist_eq_zero.mp hzero
  obtain ⟨win, hpush⟩ : ∃ win, slot.recvWindow.recvPush pkt = some win :=
    Option.ne_none_iff_exists'.mp fun hnone =>
      absurd ((Window.recvPush_eq_none hwf).mp hnone) (Nat.not_le.mpr hin)
  have hwf' := Window.recvPush_wf hwf hpush
  have hnext := Window.recvPush_nextSeq hpush
  have hfirst : win.held win.nextSeq = some pkt := by
    rw [hnext, Window.recvPush_held hwf hpush, if_pos hseq.symm,
      show slot.recvWindow.held slot.recvWindow.nextSeq = none from hok.head, Option.none_or]
  have hneeds : win.recvNeedsNack = none :=
    (Window.recvNeedsNack_eq_none hwf').mpr (.inl (by rw [hfirst]; exact Option.some_ne_none _))
  let entered : Slot := { slot.pushed pkt win with reorderPending := false }
  have hgap : (slot.pushed pkt win).acceptGap e pkt = (entered, true) := acceptGap_none hneeds
  have heq : slot.acceptOuter e pkt path = (entered.acceptHealth e pkt path).settle e := by
    rw [acceptOuter_eq, acceptPush_some hpush]
    rw [hgap]
    rfl
  obtain ⟨hpeer, -, -, -, -, -, hlog⟩ := acceptHealth_keeps entered pkt path
  have hwin : (entered.acceptHealth e pkt path).recvWindow = win := acceptHealth_recvWindow pkt path
  have hsession : ((entered.acceptHealth e pkt path).view e).session = (slot.view e).session :=
    (acceptHealth_idle entered pkt path).session
  have hstart : slot.log <+: (entered.acceptHealth e pkt path).log :=
    List.IsPrefix.trans ⟨_, rfl⟩ hlog
  rw [heq]
  -- Whether the session is connected when the window is drained.
  have hconn : (entered.acceptHealth e pkt path).healthAlive = true ∨
      slot.recvWindow.held (slot.recvWindow.nextSeq + 1) = none := by
    by_cases hbidir : slot.peer.isSome = true ∨ e.type = .unicastBidir
    · have hsame : entered.acceptHealth e pkt path = entered := by
        unfold acceptHealth
        rw [if_neg]
        change ¬ (slot.peer.isNone && pkt.has FLAG_DATA && decide (e.type ≠ .unicastBidir)) = true
        rcases hbidir with hsome | hb
        · obtain ⟨q, hq⟩ := Option.isSome_iff_exists.mp hsome
          simp [hq]
        · simp [hb]
      rw [hsame]
      cases halive : slot.healthAlive with
      | true => exact .inl halive
      | false => exact .inr (hsparing hseq halive hbidir)
    · rw [not_or] at hbidir
      refine .inl (acceptHealth_alive ?_ ⟨hudp, hbidir.2⟩ hdata path)
      change slot.peer = none
      simpa using hbidir.1
  generalize entered.acceptHealth e pkt path = ready at hpeer hwin hsession hstart hconn ⊢
  have hrwf : ready.recvWindow.RecvWF := hwin ▸ hwf'
  have hrheld : ready.recvWindow.held n = some p := hwin ▸ Window.recvPush_keeps hwf hpush hheld
  have hpeer' : ready.peer = slot.peer := hpeer
  rcases settle_after ready with hgone | ⟨hafter, hgrown⟩
  · exact .inl (hgone.of_session hpeer' hsession)
  · rcases hconn with halive | hfree
    · rcases drainLoop_fate ready.recvWindow.windowSize hrwf hrheld with hkept | hpopped
      · exact .inr (.inl (hafter ▸ hkept))
      · rw [halive] at hpopped
        exact .inr (.inr ((hpopped.prepend hpeer' hstart).append hgrown))
    · -- Only the packet at hand is consumed.
      obtain ⟨k, hk⟩ : ∃ k, ready.recvWindow.windowSize = k + 1 :=
        ⟨ready.recvWindow.windowSize - 1, by have := hrwf.size_pos; omega⟩
      have hne : n ≠ slot.recvWindow.nextSeq := fun hn => by
        rw [hn, show slot.recvWindow.held slot.recvWindow.nextSeq = none from hok.head] at hheld
        cases hheld
      have hpop : ready.recvWindow.recvPop = some (pkt, win.dropNext) := by
        rw [hwin]
        exact (Window.recvPop_eq_some hwf').mpr ⟨hfirst, rfl⟩
      have hsecond : win.dropNext.recvPop = none := by
        rw [Window.recvPop_eq_none (Window.dropNext_wf hwf'), Window.dropNext_held hwf',
          Window.dropNext_nextSeq, if_neg (Serial.succ_ne_self _), hnext,
          Window.recvPush_held hwf hpush, if_neg]
        · exact hfree
        · rw [hseq]
          exact Serial.succ_ne_self _
      have hdrained : (ready.drainLoop e ready.recvWindow.windowSize).recvWindow = win.dropNext := by
        rw [hk]
        exact drainLoop_single hpop hsecond
      refine .inr (.inl ?_)
      rw [hafter, hdrained, Window.dropNext_held hwf', hnext, if_neg hne]
      exact Window.recvPush_keeps hwf hpush hheld

theorem rejectCut_skip (h : pkt.ackNum = slot.recvWindow.nextSeq) (path : Path)
    (sender : Endpoint) :
    ((slot.rejectCut e path sender).skipRecvWindow pkt.ackNum).recvWindow =
        slot.recvWindow.dropNext ∧
      ((slot.rejectCut e path sender).skipRecvWindow pkt.ackNum).peer = slot.peer ∧
      ((slot.rejectCut e path sender).skipRecvWindow pkt.ackNum).active = slot.active ∧
      ((slot.rejectCut e path sender).skipRecvWindow pkt.ackNum).peerSessionKnown =
        slot.peerSessionKnown ∧
      ((slot.rejectCut e path sender).skipRecvWindow pkt.ackNum).pendingFin = slot.pendingFin ∧
      ((slot.rejectCut e path sender).skipRecvWindow pkt.ackNum).finTargetSeq = slot.finTargetSeq := by
  obtain ⟨evs, hv⟩ := view_rejectCut slot path sender
  have hwin : (slot.rejectCut e path sender).recvWindow = slot.recvWindow :=
    (congrArg View.win hv).trans (synced_win false evs)
  unfold skipRecvWindow
  rw [if_pos (hwin ▸ h.symm)]
  refine ⟨?_, (congrArg View.peer hv).trans (synced_peer false evs),
    (congrArg View.active hv).trans (synced_active false evs),
    (congrArg View.known hv).trans (synced_known false evs),
    (congrArg View.pendingFin hv).trans (synced_pendingFin false evs),
    (congrArg View.finTarget hv).trans (synced_finTarget false evs)⟩
  rw [hwin, h]
  exact Window.recvSkip_self _

theorem onReject_fate (hlex : e.plat.CmpLex) (hraw : e.type.isRawType = false) (hok : Ok e slot)
    (hrest : Rest e slot) (hknown : slot.peerSessionKnown = true)
    (hsession : (slot.view e).session = pkt.session)
    (hsparing : pkt.ackNum = slot.recvWindow.nextSeq →
      slot.recvWindow.held (slot.recvWindow.nextSeq + 1) = none)
    (hheld : slot.recvWindow.held n = some p) (path : Path) (sender : Endpoint) :
    Fate e slot (slot.onReject e pkt path sender) n p := by
  have hwf : slot.recvWindow.RecvWF := hok.inv.wf
  by_cases hack : pkt.ackNum = slot.recvWindow.nextSeq
  · obtain ⟨hwin, hpeer, -, -, -, -⟩ := rejectCut_skip (e := e) hack path sender
    have hne : n ≠ slot.recvWindow.nextSeq := fun hn => by
      rw [hn, show slot.recvWindow.held slot.recvWindow.nextSeq = none from hok.head] at hheld
      cases hheld
    have hpop : slot.recvWindow.dropNext.recvPop = none := by
      rw [Window.recvPop_eq_none (Window.dropNext_wf hwf), Window.dropNext_held hwf,
        Window.dropNext_nextSeq, if_neg (Serial.succ_ne_self _)]
      exact hsparing hack
    rw [onReject_tracked hlex hraw hknown hsession, slotDrainRecvWindow_eq,
      drainLoop_none _ (hwin ▸ hpop)]
    split
    · exact .inl (finFire_givenUp hpeer _)
    · refine .inr (.inl ?_)
      rw [hwin, Window.dropNext_held hwf, if_neg hne]
      exact hheld
  · rw [onReject_stray hlex hraw hok hrest hknown hsession (Ne.symm hack)]
    obtain ⟨evs, hv⟩ := view_rejectCut slot path sender
    exact .of_window hheld ((congrArg View.win hv).trans (synced_win false evs))

theorem dispatchPacket_fate (hlex : e.plat.CmpLex) (hraw : e.type.isRawType = false)
    (hudp : e.type.isTcpType = false) (hok : Ok e slot) (hrest : Rest e slot)
    (hlive : slot.peer = none ∨ slot.active = true) (hearly : (slot.view e).Early)
    (hknown : slot.peerSessionKnown = true) (hsparing : slot.Sparing e pkt)
    (hheld : slot.recvWindow.held n = some p) (path : Path) (sender : Endpoint) :
    Fate e slot (slot.dispatchPacket e pkt path sender) n p := by
  have hmoves := (dispatchPacket_moves hlex pkt path sender hok hearly hlive).1
  by_cases hdrains : (slot.view e).session = pkt.session ∧ Drains (some pkt)
  swap
  · rw [← View.emits_nil (slot.view e)] at hmoves
    refine (kept_of_moves hlex hraw hok.inv.wf hok.head hknown hheld (fun pkt' hpkt hs hd => ?_)
      hmoves).imp_right .inl
    obtain rfl := Option.some.inj hpkt
    exact hdrains ⟨hs, hd⟩
  obtain ⟨hsession, pkt', hpkt, hkind⟩ := hdrains
  obtain rfl := Option.some.inj hpkt
  have hspare := hsparing hknown hsession
  rw [dispatchPacket_eq]
  split
  · exact dispatchFin_fate hlex hknown hsession hheld
  split
  · split
    · exact .of_window hheld (onNack_recvWindow _)
    · exact .of_window hheld rfl
  split
  · rename_i hreject
    exact onReject_fate hlex hraw hok hrest hknown hsession (fun hack => hspare (.inl ⟨hreject, hack⟩))
      hheld path sender
  · rename_i hreject
    obtain ⟨hdata, hping⟩ := hkind.resolve_left hreject
    rw [sessionAdopt_tracked hlex hknown hsession, has_or, hdata, hping]
    rw [if_neg Bool.noConfusion, if_neg Bool.noConfusion, if_neg Bool.noConfusion]
    -- Learning the sender's address changes nothing of this.
    have hview := view_learnSenderPath (e := e) slot path sender
    have hlearned := learnSenderPath_rest hrest path sender
    generalize slot.learnSenderPath e path sender = learned at hview hlearned ⊢
    have hwin : learned.recvWindow = slot.recvWindow := congrArg View.win hview
    have hpeer : learned.peer = slot.peer := congrArg View.peer hview
    have hok' : Ok e learned :=
      ⟨by rw [hview]; exact hok.inv, by unfold HeadEmpty; rw [hwin]; exact hok.head⟩
    have hfate := acceptOuter_fate hraw hudp hok' hlearned hdata (n := n) (p := p)
      (by
        rw [hwin, hpeer, show learned.healthAlive = slot.healthAlive from congrArg View.alive hview]
        exact fun hseq hdead hbidir => hspare (.inr ⟨hdata, hseq, hdead, hbidir⟩))
      (by rw [hwin]; exact hheld) path
    exact hfate.of_log hpeer (congrArg View.session hview)
      ⟨[], by rw [List.append_nil]; exact (congrArg View.log hview).symm⟩

-- Runs

def Input.Sparing (e : Env) (slot : Slot) : Input → Prop
  | .packet _ _ pkt => slot.Sparing e pkt
  | .pollTimeout => True

instance (slot : Slot) : ∀ input : Input, Decidable (input.Sparing e slot)
  | .packet _ _ pkt => inferInstanceAs (Decidable (slot.Sparing e pkt))
  | .pollTimeout => inferInstanceAs (Decidable True)

theorem step_fate (hlex : e.plat.CmpLex) (hraw : e.type.isRawType = false)
    (hudp : e.type.isTcpType = false) (h : Resting e slot) (hknown : slot.peerSessionKnown = true)
    {input : Input} (hsparing : input.Sparing e slot) (hheld : slot.recvWindow.held n = some p) :
    Fate e slot (slot.step e input) n p := by
  have hwf : slot.recvWindow.RecvWF := h.ok.inv.wf
  cases input with
  | pollTimeout =>
    exact (kept_of_moves hlex hraw hwf h.ok.head hknown hheld (fun _ hnone => by cases hnone)
      (onPollTimeout_moves h.peer h.ok).1).imp_right .inl
  | packet path sender pkt =>
    have hrecv : Rest e (slot.emit (.recv pkt)) := h.rest.of_links rfl id h.rest.fin
    rw [step_packet_eq]
    split
    · exact .of_window hheld rfl
    split
    · -- An answered NACK leaves the receiving side as it is.
      have hhandle : ∃ acts : List Act, (∀ act ∈ acts, act.isPlain = true) ∧
          ((slot.emit (.recv pkt)).senderHandlePacket e pkt).1.view e =
            ((slot.emit (.recv pkt)).view e).emits acts := by
        unfold senderHandlePacket
        split
        · exact ⟨[], by simp, by rw [View.emits_nil]⟩
        · rcases view_onNack (slot.emit (.recv pkt)) pkt with hv | ⟨-, dests, hv⟩
          · exact ⟨[], by simp, by rw [View.emits_nil]; exact hv⟩
          · exact ⟨_, plain_sends dests _, hv⟩
      have hrest' : Rest e ((slot.emit (.recv pkt)).senderHandlePacket e pkt).1 := by
        unfold senderHandlePacket
        split
        · exact hrecv
        · exact onNack_rest hrecv pkt
      obtain ⟨acts, hplain, hv⟩ := hhandle
      generalize (slot.emit (.recv pkt)).senderHandlePacket e pkt = handled at hv hrest' ⊢
      have hwin : handled.1.recvWindow = slot.recvWindow := congrArg View.win hv
      have hpeer : handled.1.peer = slot.peer := congrArg View.peer hv
      have hsession : (handled.1.view e).session = (slot.view e).session := by
        rw [hv]
        rfl
      split
      · have hok' : Ok e handled.1 := by
          refine ⟨?_, by unfold HeadEmpty; rw [hwin]; exact h.ok.head⟩
          rw [hv]
          exact ⟨h.ok.inv.kind, hwf, h.ok.inv.size, h.ok.inv.timer⟩
        have hearly : (handled.1.view e).Early := by
          rw [hv]
          exact Early.emits (recv_early pkt) hplain
        have hsparing' : handled.1.Sparing e pkt := by
          unfold Sparing
          rw [hwin, hpeer, show handled.1.peerSessionKnown = slot.peerSessionKnown from
            congrArg View.known hv, show handled.1.healthAlive = slot.healthAlive from
            congrArg View.alive hv, hsession]
          exact hsparing
        refine (dispatchPacket_fate hlex hraw hudp hok' hrest' (.inl (hpeer.trans h.peer)) hearly
          ((congrArg View.known hv).trans hknown) hsparing' (by rw [hwin]; exact hheld) path
          sender).of_log hpeer hsession ?_
        rw [show handled.1.log = _ from congrArg View.log hv]
        exact ⟨_, (List.append_assoc ..).symm⟩
      · exact .of_window hheld hwin
    · exact (dispatchPacket_fate hlex hraw hudp (emit_ok h.ok _) hrecv (.inl h.peer)
        (recv_early pkt) hknown hsparing hheld path sender).of_log rfl rfl ⟨_, rfl⟩

theorem GivenUp.known_of_not (h : ¬ slot.GivenUp e after) :
    after.peerSessionKnown = true ∧ (after.view e).session = (slot.view e).session := by
  unfold GivenUp at h
  rw [not_or, not_or, not_not] at h
  exact ⟨by simpa using h.1, h.2.1⟩

theorem GivenUp.active_of_not (h : ¬ slot.GivenUp e after) (hpeer : slot.peer.isSome = true) :
    after.active = true := by
  by_contra hoff
  exact h (.inr (.inr ⟨hpeer, by simpa using hoff⟩))

theorem run_fate (hlex : e.plat.CmpLex) (hraw : e.type.isRawType = false)
    (hudp : e.type.isTcpType = false) {inputs : List Input} (h : Resting e slot)
    (hknown : slot.peerSessionKnown = true) (hheld : slot.recvWindow.held n = some p)
    (hmeets : Run.Meets (step e) (fun s input => input.Sparing e s) slot inputs) :
    (∃ pre, pre <+: inputs ∧ slot.GivenUp e (slot.run e pre)) ∨
      (slot.run e inputs).recvWindow.held n = some p ∨
      slot.Logged (slot.run e inputs) fun act => act = .pop p true := by
  induction inputs generalizing slot with
  | nil => exact .inr (.inl hheld)
  | cons input inputs ih =>
    have hnext := step_resting hlex h input
    have hpeer : (slot.step e input).peer = slot.peer := hnext.peer.trans h.peer.symm
    obtain ⟨more, hmore⟩ := step_log_extends hlex h.peer h.ok input
    by_cases hgone : slot.GivenUp e (slot.step e input)
    · exact .inl ⟨[input], ⟨inputs, rfl⟩, hgone⟩
    obtain ⟨hknown', hsession⟩ := GivenUp.known_of_not hgone
    rcases (step_fate hlex hraw hudp h hknown hmeets.1 hheld).resolve_left hgone with hkept | hpopped
    · rcases ih hnext hknown' hkept hmeets.2 with ⟨pre, hpre, hpgone⟩ | hk | hp
      · exact .inl ⟨input :: pre, List.cons_prefix_cons.mpr ⟨rfl, hpre⟩,
          hpgone.of_session hpeer hsession⟩
      · exact .inr (.inl hk)
      · exact .inr (.inr (hp.prepend hpeer ⟨more, hmore.symm⟩))
    · obtain ⟨rest, hrest⟩ := run_log_extends hlex hnext.peer hnext.ok inputs
      exact .inr (.inr (hpopped.append ⟨rest, hrest.symm⟩))

-- What a REJECT for the next number is meant to do: the session goes on behind that number, with
-- everything that is held.
structure Resumes (slot after : Slot) : Prop where
  used : after.Used
  known : after.peerSessionKnown = true
  next : after.recvWindow.nextSeq = slot.recvWindow.nextSeq + 1
  held : ∀ n p, slot.recvWindow.held n = some p → after.recvWindow.held n = some p

theorem Resumes.emit_iff (act : Act) : (slot.emit act).Resumes after ↔ slot.Resumes after :=
  ⟨fun h => ⟨h.used, h.known, h.next, h.held⟩, fun h => ⟨h.used, h.known, h.next, h.held⟩⟩

-- A pending FIN that the REJECT makes due.
def FinDue (slot : Slot) : Prop :=
  slot.pendingFin = true ∧ slot.finTargetSeq = slot.recvWindow.nextSeq + 1

theorem onReject_resumes_iff (hlex : e.plat.CmpLex) (hraw : e.type.isRawType = false)
    (hok : Ok e slot) (hused : slot.Used) (hearly : (slot.view e).Early)
    (hreject : pkt.has FLAG_REJECT = true) (hknown : slot.peerSessionKnown = true)
    (hsession : (slot.view e).session = pkt.session)
    (hack : pkt.ackNum = slot.recvWindow.nextSeq) (path : Path) (sender : Endpoint) :
    slot.Resumes (slot.onReject e pkt path sender) ↔
      slot.recvWindow.held (slot.recvWindow.nextSeq + 1) = none ∧ ¬ slot.FinDue := by
  have hwf : slot.recvWindow.RecvWF := hok.inv.wf
  have hhead := (onReject_moves hlex path sender hok rfl hearly hreject hused).2
  obtain ⟨hwin, hpeer, hactive, hstill, hpending, htarget⟩ := rejectCut_skip hack path sender
  -- Without a packet behind the number the drain stops at once.
  have hloop : slot.recvWindow.held (slot.recvWindow.nextSeq + 1) = none →
      slot.onReject e pkt path sender =
        if ((slot.rejectCut e path sender).skipRecvWindow pkt.ackNum).finPendingReached then
          ((slot.rejectCut e path sender).skipRecvWindow pkt.ackNum).finFire e
            ((slot.rejectCut e path sender).skipRecvWindow pkt.ackNum).finTargetSeq
        else (slot.rejectCut e path sender).skipRecvWindow pkt.ackNum := by
    intro hfree
    have hpop : slot.recvWindow.dropNext.recvPop = none := by
      rw [Window.recvPop_eq_none (Window.dropNext_wf hwf), Window.dropNext_held hwf,
        Window.dropNext_nextSeq, if_neg (Serial.succ_ne_self _)]
      exact hfree
    rw [onReject_tracked hlex hraw hknown hsession, slotDrainRecvWindow_eq,
      drainLoop_none _ (hwin ▸ hpop)]
    split <;> rfl
  have hdue : ((slot.rejectCut e path sender).skipRecvWindow pkt.ackNum).finPendingReached = true ↔
      slot.FinDue := by
    unfold finPendingReached FinDue
    rw [hpending, htarget, hwin, Window.dropNext_nextSeq, Bool.and_eq_true, decide_eq_true_eq]
    exact and_congr_right fun _ => eq_comm
  constructor
  · intro h
    have hfree : slot.recvWindow.held (slot.recvWindow.nextSeq + 1) = none := by
      cases hq : slot.recvWindow.held (slot.recvWindow.nextSeq + 1) with
      | none => rfl
      | some q =>
        have hkept := h.held _ q hq
        rw [← h.next, show (slot.onReject e pkt path sender).recvWindow.held _ = none from hhead]
          at hkept
        cases hkept
    refine ⟨hfree, fun hfin => ?_⟩
    have heq := hloop hfree
    rw [if_pos (hdue.mpr hfin)] at heq
    rw [heq] at h
    generalize (slot.rejectCut e path sender).skipRecvWindow pkt.ackNum = skipped at h hpeer
    rcases finFire_ends skipped skipped.finTargetSeq with hgone | ⟨hsome, hfreed⟩
    · exact Bool.false_ne_true (hgone.symm.trans h.known)
    · rcases h.used with hnone | hon
      · have hkeep := (finFire_turns (e := e) skipped skipped.finTargetSeq).peer_eq
        rw [show skipped.peer = none from hkeep.symm.trans hnone] at hsome
        cases hsome
      · exact Bool.false_ne_true (hfreed.symm.trans hon)
  · rintro ⟨hfree, hfin⟩
    rw [hloop hfree, if_neg (fun h => hfin (hdue.mp h))]
    refine ⟨?_, hstill.trans hknown, by rw [hwin, Window.dropNext_nextSeq], fun n p hp => ?_⟩
    · unfold Used
      rw [hpeer, hactive]
      exact hused
    · rw [hwin, Window.dropNext_held hwf, if_neg]
      · exact hp
      · rintro rfl
        rw [show slot.recvWindow.held slot.recvWindow.nextSeq = none from hok.head] at hp
        cases hp

end

end Slot

namespace Ctx

section

variable {e : Env} {ctx ctx' : Ctx} {i : Nat} {n : UInt32} {p : Packet}

theorem Change.log_extends (h : Change e ctx ctx') : ctx.log <+: ctx'.log := by
  cases h with
  | idle ctx' hlog => exact ⟨[], by rw [hlog, List.append_nil]⟩
  | packet i pkt slot _ _ _ hmoves =>
    obtain ⟨rest, hrest⟩ := hmoves.log_extends
    exact List.IsPrefix.trans ⟨_, rfl⟩ ⟨rest, hrest.symm⟩
  | create i pkt peerId fresh slot _ _ _ _ _ hlog hmoves =>
    obtain ⟨rest, hrest⟩ := hmoves.log_extends
    have hfresh : ctx.log <+: ((((fresh.view e).emit (.recv pkt)).adopted e pkt).log) := by
      rw [← hlog]
      exact List.IsPrefix.trans ⟨_, rfl⟩ ⟨_, rfl⟩
    exact hfresh.trans ⟨rest, hrest.symm⟩
  | poll i slot _ _ hmoves =>
    obtain ⟨rest, hrest⟩ := hmoves.log_extends
    exact ⟨rest, hrest.symm⟩

theorem act_log_extends (hlex : e.plat.CmpLex) (hkind : e.type = .unicastBidirN1)
    (ht : Table e ctx) (action : Action) : ctx.log <+: (ctx.act e action).log := by
  cases action with
  | recv input =>
    exact Run.star_preserves (P := fun c : Ctx => ctx.log <+: c.log)
      (fun _ _ hc h => h.trans hc.log_extends) (step_changes hlex hkind ht input)
      (List.prefix_refl _)
  | peerDisconnect peerId =>
    change ctx.log <+: (ctx.peerDisconnect e peerId).1.log
    rcases peerDisconnect_cases (e := e) ctx peerId with heq | ⟨j, hj, hactive, -, heq⟩
    · simp only [heq, List.prefix_refl]
    · rw [heq]
      obtain ⟨acts, hacts⟩ := (Slot.peerDisconnect_turns (ctx.slotInitPeer j)
        (Option.isSome_iff_ne_none.mpr (ht.peer j hj hactive))).log_emits
      exact ⟨_, hacts.symm⟩

def Action.Sparing (e : Env) (ctx : Ctx) (i : Nat) : Action → Prop
  | .recv (.packet _ _ pkt) => (ctx.slotInitPeer i).Sparing e pkt
  | _ => True

instance (ctx : Ctx) (i : Nat) : ∀ action : Action, Decidable (action.Sparing e ctx i)
  | .recv (.packet _ _ pkt) => inferInstanceAs (Decidable ((ctx.slotInitPeer i).Sparing e pkt))
  | .recv .pollTimeout => inferInstanceAs (Decidable True)
  | .peerDisconnect _ => inferInstanceAs (Decidable True)

theorem act_fate (hlex : e.plat.CmpLex) (hkind : e.type = .unicastBidirN1) (h : Resting e ctx)
    (hi : i < e.maxPeers) (hactive : (ctx.peers i).active = true) {action : Action}
    (hsparing : action.Sparing e ctx i) (hheld : (ctx.peers i).recvWindow.held n = some p) :
    ((ctx.act e action).peers i).peer = (ctx.peers i).peer ∧
      Slot.Fate e (ctx.slotInitPeer i) ((ctx.act e action).slotInitPeer i) n p := by
  have hraw : e.type.isRawType = false := by
    rw [hkind]
    rfl
  have hudp : e.type.isTcpType = false := by
    rw [hkind]
    rfl
  have hok := h.table.ok i hi hactive
  have hknown := h.table.known i hi hactive
  have hsome : (ctx.slotInitPeer i).peer.isSome = true :=
    Option.isSome_iff_ne_none.mpr (h.table.peer i hi hactive)
  refine ⟨(act_stays hlex h.table action hi hactive).1, ?_⟩
  have hbecomes := act_becomes ctx action hi
  generalize hpeer : (ctx.act e action).peers i = peer at hbecomes
  cases hbecomes with
  | kept => exact .of_window hheld (congrArg PeerContext.recvWindow hpeer)
  | unused _ _ hfree => exact absurd (hfree.symm.trans hactive) Bool.false_ne_true
  | created _ _ _ hfree => exact absurd (hfree.symm.trans hactive) Bool.false_ne_true
  | closed peerId =>
    refine .inl (.inr (.inr ⟨hsome, ?_⟩))
    exact (congrArg PeerContext.active hpeer).trans (congrArg View.active (Slot.view_peerFree (e := e) _))
  | checked mid hmid =>
    have hmhead : mid.HeadEmpty := by
      unfold Slot.HeadEmpty
      rw [hmid]
      exact hok.head
    obtain ⟨hmoves, -⟩ := (Slot.healthCheckPeer_moves (e.plat.clock ctx.tick) (hmid ▸ hsome) hmhead :
      Moves e none (mid.view e) _ ∧ _)
    rw [← emits_nil (mid.view e)] at hmoves
    have hkept := Slot.kept_of_moves hlex hraw
      (by rw [hmid]; exact hok.inv.wf : mid.recvWindow.RecvWF) hmhead
      (by rw [hmid]; exact hknown) (by rw [hmid]; exact hheld) (fun _ hnone => by cases hnone) hmoves
    have hslot : ((ctx.act e (.recv .pollTimeout)).slotInitPeer i).toPeerContext =
        (mid.healthCheckPeer e (e.plat.clock ctx.tick)).toPeerContext := hpeer
    rcases hkept with hgone | hwaits
    · left
      unfold Slot.GivenUp Slot.view at hgone ⊢
      rw [hslot]
      rw [hmid] at hgone
      exact hgone
    · right
      left
      rw [hslot]
      exact hwaits
  | packet path sender pkt hfind =>
    change Slot.Fate e _ ((if e.nPath ≤ path.val then ctx else
      ctx.n1HandlePacket e pkt path sender).slotInitPeer i) n p
    split
    · exact .of_window hheld rfl
    rw [n1HandlePacket_found hfind path sender, slotInitPeer_store_self]
    have hrest := h.rest i hi hactive
    exact (Slot.dispatchPacket_fate hlex hraw hudp (Slot.emit_ok hok _)
      (hrest.of_links rfl id hrest.fin) (.inr hactive) (Slot.recv_early pkt) hknown hsparing
      hheld path sender).of_log rfl rfl ⟨_, rfl⟩

theorem acts_fate (hlex : e.plat.CmpLex) (hkind : e.type = .unicastBidirN1) (h : Resting e ctx)
    (hi : i < e.maxPeers) (hactive : (ctx.peers i).active = true) {actions : List Action}
    (hmeets : Run.Meets (act e) (fun c action => action.Sparing e c i) ctx actions)
    (hheld : (ctx.peers i).recvWindow.held n = some p) :
    (∃ pre, pre <+: actions ∧
        (ctx.slotInitPeer i).GivenUp e ((pre.foldl (act e) ctx).slotInitPeer i)) ∨
      ((actions.foldl (act e) ctx).peers i).recvWindow.held n = some p ∨
      (ctx.slotInitPeer i).Logged ((actions.foldl (act e) ctx).slotInitPeer i)
        fun act => act = .pop p true := by
  induction actions generalizing ctx with
  | nil => exact .inr (.inl hheld)
  | cons action actions ih =>
    have hnext := act_resting hlex hkind h action
    have hsome : (ctx.slotInitPeer i).peer.isSome = true :=
      Option.isSome_iff_ne_none.mpr (h.table.peer i hi hactive)
    obtain ⟨hpeer, hfate⟩ := act_fate hlex hkind h hi hactive hmeets.1 hheld
    have hpeer' : ((ctx.act e action).slotInitPeer i).peer = (ctx.slotInitPeer i).peer := hpeer
    by_cases hgone : (ctx.slotInitPeer i).GivenUp e ((ctx.act e action).slotInitPeer i)
    · exact .inl ⟨[action], ⟨actions, rfl⟩, hgone⟩
    obtain ⟨-, hsession⟩ := Slot.GivenUp.known_of_not hgone
    have hlog := act_log_extends hlex hkind h.table action
    rcases hfate.resolve_left hgone with hkept | hpopped
    · rcases ih hnext (Slot.GivenUp.active_of_not hgone hsome) hmeets.2 hkept with
        ⟨pre, hpre, hpgone⟩ | hk | hp
      · exact .inl ⟨action :: pre, List.cons_prefix_cons.mpr ⟨rfl, hpre⟩,
          hpgone.of_session hpeer' hsession⟩
      · exact .inr (.inl hk)
      · exact .inr (.inr (hp.prepend hpeer' hlog))
    · have hgrown : (ctx.act e action).log <+: (actions.foldl (act e) (ctx.act e action)).log :=
        (Run.foldl_preserves (P := fun c : Ctx => Resting e c ∧ (ctx.act e action).log <+: c.log)
          (fun c a hc => ⟨act_resting hlex hkind hc.1 a,
            hc.2.trans (act_log_extends hlex hkind hc.1.table a)⟩)
          ⟨hnext, List.prefix_refl _⟩ actions).2
      exact .inr (.inr (hpopped.append hgrown))

end

end Ctx

-- A REJECT for the next number lets a connected receiver go on right behind that number, with all
-- it holds, exactly when the number behind it is neither held nor the target of a pending FIN. In
-- every run that takes the head off the window of an unconnected session only where nothing is
-- held behind it, held packets wait or are handed over until the session is given up.
theorem reject_spares_held (e : Env) (hlex : e.plat.CmpLex) (hraw : e.type.isRawType = false)
    (hudp : e.type.isTcpType = false) :
    (e.type ≠ .unicastBidirN1 → e.Receives → ∀ sessionId sessionTs destAddr inputs,
      let slot := (Slot.opened e sessionId sessionTs destAddr).run e inputs
      (∀ path sender pkt, path.val < e.nPath → pkt.isReject = true → slot.healthAlive = true →
        (slot.view e).session = pkt.session → pkt.ackNum = slot.recvWindow.nextSeq →
        (slot.Resumes (slot.step e (.packet path sender pkt)) ↔
          slot.recvWindow.held (slot.recvWindow.nextSeq + 1) = none ∧ ¬ slot.FinDue)) ∧
      (∀ later, Run.Meets (Slot.step e) (fun s input => input.Sparing e s) slot later →
        slot.peerSessionKnown = true → ∀ n p, slot.recvWindow.held n = some p →
        (∃ pre, pre <+: later ∧ slot.GivenUp e (slot.run e pre)) ∨
          (slot.run e later).recvWindow.held n = some p ∨
          slot.Logged (slot.run e later) fun act => act = .pop p true)) ∧
    (e.type = .unicastBidirN1 → ∀ (actions : List Ctx.Action) i,
      let ctx := actions.foldl (Ctx.act e) (Ctx.opened e)
      let slot := ctx.slotInitPeer i
      i < e.maxPeers → slot.active = true →
      (∀ path sender pkt, path.val < e.nPath → pkt.isReject = true → slot.healthAlive = true →
        (slot.view e).session = pkt.session → pkt.ackNum = slot.recvWindow.nextSeq →
        (slot.Resumes ((ctx.step e (.packet path sender pkt)).slotInitPeer i) ↔
          slot.recvWindow.held (slot.recvWindow.nextSeq + 1) = none ∧ ¬ slot.FinDue)) ∧
      (∀ later, Run.Meets (Ctx.act e) (fun c action => action.Sparing e c i) ctx later →
        ∀ n p, slot.recvWindow.held n = some p →
        (∃ pre, pre <+: later ∧ slot.GivenUp e ((pre.foldl (Ctx.act e) ctx).slotInitPeer i)) ∨
          ((later.foldl (Ctx.act e) ctx).peers i).recvWindow.held n = some p ∨
          slot.Logged ((later.foldl (Ctx.act e) ctx).slotInitPeer i)
            fun act => act = .pop p true)) := by
  have hbit : ∀ pkt : Packet, pkt.isReject = true → pkt.has FLAG_REJECT = true := by
    intro pkt hreject
    simp only [Packet.isReject, Bool.and_eq_true] at hreject
    exact hreject.1.1.1
  constructor
  · intro _ hreceives sessionId sessionTs destAddr inputs slot
    have h : Slot.Resting e slot := Slot.run_resting hlex sessionId sessionTs destAddr inputs
    constructor
    · intro path sender pkt hpath hreject halive hsession hack
      rw [Slot.step_reject (hreceives.of_udp hudp) hreject hpath sender, ← Slot.Resumes.emit_iff (.recv pkt)]
      exact Slot.onReject_resumes_iff hlex hraw (Slot.emit_ok h.ok (.recv pkt)) (.inl h.peer)
        (Slot.recv_early pkt) (hbit pkt hreject) (h.rest.known halive) hsession hack path sender
    · intro later hmeets hknown n p hheld
      exact Slot.run_fate hlex hraw hudp h hknown hheld hmeets
  · intro hkind actions i ctx slot hi hactive
    have h : Ctx.Resting e ctx := Ctx.acts_resting hlex hkind actions
    constructor
    · intro path sender pkt hpath hreject halive hsession hack
      have hstep : ctx.step e (.packet path sender pkt) = ctx.store i
          ((slot.emit (.recv pkt)).onReject e pkt path sender) := by
        refine (if_neg (Nat.not_le.mpr hpath)).trans ?_
        unfold Ctx.n1HandlePacket
        rw [Ctx.findBySession_of_session hlex h.table hi hactive hsession]
        exact congrArg (ctx.store i) (Slot.dispatchPacket_reject hreject path sender)
      rw [hstep, Ctx.slotInitPeer_store_self, ← Slot.Resumes.emit_iff (.recv pkt)]
      exact Slot.onReject_resumes_iff hlex hraw (Slot.emit_ok (h.table.ok i hi hactive) (.recv pkt))
        (.inr hactive) (Slot.recv_early pkt) (hbit pkt hreject) (h.table.known i hi hactive) hsession
        hack path sender
    · intro later hmeets n p hheld
      exact Ctx.acts_fate hlex hkind h hi hactive hmeets hheld

-- Number 7 is rejected while 9 is held and 8 is missing. DATA 8 then connects the service again.
theorem reject_spares_held_sample :
    (let e := Env.sample .unicast
      let slot := (Slot.sample e).run e [.sample (.samplePing 7), .sample (.sampleData 9 [⟨0, [1]⟩])]
      let later : List Slot.Input := [.sample (Packet.buildReject Packet.sampleSession 7),
        .sample (.sampleData 8 [⟨0, [2]⟩])]
      slot.Resumes (slot.step e (.sample (Packet.buildReject Packet.sampleSession 7))) ∧
        ((∃ pre, pre <+: later ∧ slot.GivenUp e (slot.run e pre)) ∨
          (slot.run e later).recvWindow.held 9 = some (.sampleData 9 [⟨0, [1]⟩]) ∨
          slot.Logged (slot.run e later) fun act => act = .pop (.sampleData 9 [⟨0, [1]⟩]) true)) ∧
    (let e := Env.sample .unicastBidirN1
      let ctx := List.foldl (Ctx.act e) (Ctx.opened e) [.recv (.sample (.samplePing 7)),
        .recv (.sample (.sampleData 9 [⟨0, [1]⟩]))]
      (ctx.slotInitPeer 0).Resumes ((ctx.step e
        (.sample (Packet.buildReject Packet.sampleSession 7))).slotInitPeer 0)) := by
  refine ⟨?_, ?_⟩
  · have h := (reject_spares_held (Env.sample .unicast) Cplat.reference_cmpLex rfl rfl).1 (by decide)
      (.inl rfl) 3 ⟨2, 0⟩ (fun _ => .target)
      [.sample (.samplePing 7), .sample (.sampleData 9 [⟨0, [1]⟩])]
    refine ⟨(h.1 0 .source (Packet.buildReject Packet.sampleSession 7) (by decide) rfl
      (by decide +kernel) (by decide +kernel) (by decide +kernel)).mpr ⟨by decide +kernel, ?_⟩, ?_⟩
    · unfold Slot.FinDue
      decide +kernel
    · exact h.2 _ (by decide +kernel) (by decide +kernel) 9 _ (by decide +kernel)
  · have h := (reject_spares_held (Env.sample .unicastBidirN1) Cplat.reference_cmpLex rfl rfl).2 rfl
      [.recv (.sample (.samplePing 7)), .recv (.sample (.sampleData 9 [⟨0, [1]⟩]))] 0 (by decide)
      (by decide +kernel)
    refine (h.1 0 .source (Packet.buildReject Packet.sampleSession 7) (by decide) rfl
      (by decide +kernel) (by decide +kernel) (by decide +kernel)).mpr ⟨by decide +kernel, ?_⟩
    unfold Slot.FinDue
    decide +kernel

-- Number 7 is missing and 8 is held. The REJECT for 7 consumes 8 as well, undelivered.
theorem reject_consumes_held :
    let e := Env.sample .unicast
    let slot := (Slot.sample e).run e [.sample (.samplePing 7), .sample (.sampleData 8 [⟨0, [1]⟩])]
    let after := slot.step e (.sample (Packet.buildReject Packet.sampleSession 7))
    slot.healthAlive = true ∧ slot.recvWindow.nextSeq = 7 ∧
      slot.recvWindow.held 8 = some (.sampleData 8 [⟨0, [1]⟩]) ∧
      after.recvWindow.nextSeq = 9 ∧ after.recvWindow.held 8 = none ∧ delivered after.log = [] := by
  decide +kernel

end Porter
