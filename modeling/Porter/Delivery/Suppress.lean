import Porter.Connection.Table
import Porter.Delivery.Answer
import Porter.Lib.Recent

namespace Porter

-- cplat_clock_get_monotonic_ms: a uint64_t that does not go back and is not 0.
structure Env.MonotoneMs (e : Env) : Prop where
  mono : ∀ {n m : Nat}, n ≤ m → e.plat.clockMs n ≤ e.plat.clockMs m
  pos : ∀ n, 0 < e.plat.clockMs n
  word : ∀ n, e.plat.clockMs n < 2 ^ 64

-- Of the NACKs answered, the oldest first, two for one number that are not 200 ms apart have at
-- least eight others between them.
def Spaced (history : List NackDedupEntry) : Prop :=
  ∀ j k a b, j < k → history[j]? = some a → history[k]? = some b → a.ackNum = b.ackNum →
    b.timeMs < a.timeMs + NACK_DEDUP_MS → NACK_DEDUP_SLOTS ≤ k - j - 1

-- The ring of a peer, or of a 1:1 service, after the NACKs in `history` were answered.
structure PeerContext.Answers (e : Env) (peer : PeerContext) (tick : Nat)
    (history : List NackDedupEntry) : Prop where
  ring : Recent NACK_DEDUP_SLOTS ⟨0, 0⟩ peer.nackDedupBuf peer.nackDedupNext history
  past : ∀ entry ∈ history, e.type.isRawType = false ∧ ∃ n < tick, entry.timeMs = e.plat.clockMs n
  ordered : history.Pairwise fun a b => a.timeMs ≤ b.timeMs
  spaced : Spaced history

namespace PeerContext.Answers

variable {e : Env} {peer peer' : PeerContext} {tick tick' : Nat} {history : List NackDedupEntry}

theorem empty (hbuf : peer.nackDedupBuf = fun _ => ⟨0, 0⟩) (hnext : peer.nackDedupNext = 0)
    (tick : Nat) : peer.Answers e tick [] := by
  refine ⟨?_, fun _ hentry => (nomatch hentry), .nil, fun _ _ _ _ _ ha => (nomatch ha)⟩
  rw [hbuf, hnext]
  exact .empty ..

theorem of_ring (h : peer.Answers e tick history)
    (hring : (peer'.nackDedupBuf, peer'.nackDedupNext) = (peer.nackDedupBuf, peer.nackDedupNext))
    (htick : tick ≤ tick') : peer'.Answers e tick' history := by
  obtain ⟨hbuf, hnext⟩ := Prod.mk.inj hring
  refine ⟨?_, fun entry hentry => ?_, h.ordered, h.spaced⟩
  · rw [hbuf, hnext]
    exact h.ring
  · obtain ⟨hraw, n, hn, htime⟩ := h.past entry hentry
    exact ⟨hraw, n, by omega, htime⟩

theorem write (hclock : e.MonotoneMs) (h : peer.Answers e tick history)
    (hraw : e.type.isRawType = false) {seq : UInt32}
    (hfresh : ¬ ∃ k a, history.length ≤ k + NACK_DEDUP_SLOTS ∧ history[k]? = some a ∧
      a.ackNum = seq ∧ e.plat.clockMs tick < a.timeMs + NACK_DEDUP_MS) :
    PeerContext.Answers e
      { peer with
        nackDedupBuf := Function.update peer.nackDedupBuf peer.nackDedupNext
          ⟨seq, e.plat.clockMs tick⟩
        nackDedupNext := (peer.nackDedupNext + 1) % NACK_DEDUP_SLOTS }
      (tick + 1) (history ++ [⟨seq, e.plat.clockMs tick⟩]) := by
  refine ⟨h.ring.write _, fun entry hentry => ?_, ?_, fun j k a b hjk ha hb hnum htime => ?_⟩
  · rcases List.mem_append.mp hentry with hold | hnew
    · obtain ⟨-, n, hn, htime⟩ := h.past entry hold
      exact ⟨hraw, n, by omega, htime⟩
    · rw [List.mem_singleton.mp hnew]
      exact ⟨hraw, tick, by omega, rfl⟩
  · refine List.pairwise_append.mpr ⟨h.ordered, List.pairwise_singleton _ _, ?_⟩
    intro a ha b hb
    obtain ⟨-, n, hn, htime⟩ := h.past a ha
    rw [List.mem_singleton.mp hb, htime]
    exact hclock.mono (Nat.le_of_lt hn)
  · have hk : k ≤ history.length := by
      have hlen := (List.getElem?_eq_some_iff.mp hb).1
      rw [List.length_append, List.length_singleton] at hlen
      omega
    rw [List.getElem?_append_left (by omega)] at ha
    rcases Nat.lt_or_ge k history.length with hlt | hge
    · rw [List.getElem?_append_left hlt] at hb
      exact h.spaced j k a b hjk ha hb hnum htime
    · obtain rfl : k = history.length := by omega
      rw [List.getElem?_concat_length] at hb
      obtain rfl := Option.some.inj hb
      by_contra hnear
      exact hfresh ⟨j, a, by omega, ha, hnum, htime⟩

end PeerContext.Answers

namespace Slot

-- The record that the answer to a NACK leaves.
def answer (e : Env) (slot : Slot) (pkt : Packet) : Option NackDedupEntry :=
  if !pkt.has FLAG_NACK || e.type.isRawType || (slot.nackIsDuplicate e pkt.ackNum).2 then none
  else some ⟨pkt.ackNum, e.plat.clockMs slot.tick⟩

section

variable {e : Env} {slot : Slot} {pkt : Packet} {history : List NackDedupEntry}

-- An entry in use matches for 200 ms: the unsigned difference of the times does not wrap.
theorem dedupEntryMatches_iff (hclock : e.MonotoneMs) {n m : Nat} (hn : n ≤ m) (seq num : UInt32) :
    dedupEntryMatches ⟨num, e.plat.clockMs n⟩ seq (e.plat.clockMs m) = true ↔
      num = seq ∧ e.plat.clockMs m < e.plat.clockMs n + NACK_DEDUP_MS := by
  have hmono := hclock.mono hn
  have hpos := hclock.pos n
  have hword := hclock.word m
  have hdiff : (e.plat.clockMs m + 2 ^ 64 - e.plat.clockMs n) % 2 ^ 64 =
      e.plat.clockMs m - e.plat.clockMs n := by omega
  unfold dedupEntryMatches
  rw [hdiff]
  simp only [NACK_DEDUP_MS, Bool.and_eq_true, bne_iff_ne, ne_eq, decide_eq_true_eq]
  constructor
  · rintro ⟨⟨-, hnum⟩, hlate⟩
    exact ⟨hnum, by omega⟩
  · rintro ⟨hnum, hlate⟩
    exact ⟨⟨by omega, hnum⟩, by omega⟩

-- A NACK is dropped when one of the last eight that were answered was for its number, less than
-- 200 ms ago.
theorem nackIsDuplicate_iff (hclock : e.MonotoneMs)
    (h : slot.toPeerContext.Answers e slot.tick history) (seq : UInt32) :
    (slot.nackIsDuplicate e seq).2 = true ↔ ∃ k a, history.length ≤ k + NACK_DEDUP_SLOTS ∧
      history[k]? = some a ∧ a.ackNum = seq ∧
      e.plat.clockMs slot.tick < a.timeMs + NACK_DEDUP_MS := by
  have hblank : ¬ dedupEntryMatches ⟨0, 0⟩ seq (e.plat.clockMs slot.tick) = true := by
    simp [dedupEntryMatches]
  have hring := h.ring.exists_iff (p := fun entry =>
    dedupEntryMatches entry seq (e.plat.clockMs slot.tick) = true) hblank
  rw [nackIsDuplicate_snd, List.any_eq_true]
  simp only [List.mem_range]
  rw [hring]
  refine exists_congr fun k => exists_congr fun a => and_congr_right fun _ => ?_
  refine and_congr_right fun ha => ?_
  obtain ⟨-, n, hn, htime⟩ := h.past a (List.mem_of_getElem? ha)
  obtain ⟨num, time⟩ := a
  obtain rfl : time = e.plat.clockMs n := htime
  exact dedupEntryMatches_iff hclock (Nat.le_of_lt hn) seq num

theorem slotRetransmitOrReject_emits (slot : Slot) (seq : UInt32) :
    ∃ acts, slot.slotRetransmitOrReject e seq = slot.emits acts := by
  unfold slotRetransmitOrReject slotSendReject
  split
  · exact ⟨_, sendToDests_eq slot _⟩
  · exact ⟨_, sendToDests_eq slot _⟩

theorem onNack_history (hclock : e.MonotoneMs)
    (h : slot.toPeerContext.Answers e slot.tick history) (pkt : Packet) :
    (slot.onNack e pkt).toPeerContext.Answers e (slot.onNack e pkt).tick
      (history ++ (slot.answer e pkt).toList) := by
  have hdup := nackIsDuplicate_iff hclock h pkt.ackNum
  unfold onNack answer
  by_cases hskip : (!pkt.has FLAG_NACK || e.type.isRawType) = true
  · rw [if_pos hskip, hskip]
    simpa using h
  have hraw : e.type.isRawType = false :=
    Bool.eq_false_iff.mpr fun h => hskip (Bool.or_eq_true_iff.mpr (.inr h))
  rw [if_neg hskip, Bool.eq_false_iff.mpr hskip]
  cases hfound : (slot.nackIsDuplicate e pkt.ackNum).2 with
  | true =>
    have hsame : (slot.nackIsDuplicate e pkt.ackNum).1 = slot.tickOnce := by
      unfold nackIsDuplicate at hfound ⊢
      dsimp only at hfound ⊢
      split at hfound
      · rw [if_pos ‹_›]
      · cases hfound
    simp only [hfound, hsame, if_true, Bool.false_or, Option.toList_none, List.append_nil]
    exact h.of_ring rfl (Nat.le_succ _)
  | false =>
    have hwritten : (slot.nackIsDuplicate e pkt.ackNum).1 = { slot.tickOnce with
        nackDedupBuf := Function.update slot.nackDedupBuf slot.nackDedupNext
          ⟨pkt.ackNum, e.plat.clockMs slot.tick⟩
        nackDedupNext := (slot.nackDedupNext + 1) % NACK_DEDUP_SLOTS } := by
      unfold nackIsDuplicate at hfound ⊢
      dsimp only at hfound ⊢
      split at hfound
      · cases hfound
      · rw [if_neg ‹_›]
        rfl
    rw [hfound] at hdup
    obtain ⟨acts, hacts⟩ := slotRetransmitOrReject_emits (e := e)
      (slot.nackIsDuplicate e pkt.ackNum).1 pkt.ackNum
    simp only [hfound, hacts, Bool.false_eq_true, if_false, Bool.false_or, Option.toList_some]
    rw [hwritten]
    exact h.write hclock hraw fun hex => absurd (hdup.mpr hex) Bool.false_ne_true

theorem onNack_of_answer (slot : Slot) (pkt : Packet) :
    if (slot.answer e pkt).isSome = true then
      slot.onNack e pkt =
        (slot.nackIsDuplicate e pkt.ackNum).1.slotRetransmitOrReject e pkt.ackNum
    else (slot.onNack e pkt).log = slot.log := by
  have hlog : (slot.nackIsDuplicate e pkt.ackNum).1.log = slot.log := by
    unfold nackIsDuplicate
    dsimp only
    split
    · rfl
    · rfl
  unfold onNack answer
  by_cases hskip : (!pkt.has FLAG_NACK || e.type.isRawType) = true
  · simp [hskip]
  by_cases hdup : (slot.nackIsDuplicate e pkt.ackNum).2 = true
  · simp [hskip, hdup, hlog]
  · simp [hskip, hdup]

-- A NACK for `a.ackNum` after the last answer for that number, with fewer than eight since.
theorem answer_isSome_iff (hclock : e.MonotoneMs)
    (h : slot.toPeerContext.Answers e slot.tick history) {k : Nat} {a : NackDedupEntry}
    (ha : history[k]? = some a)
    (hlast : ∀ j b, k < j → history[j]? = some b → b.ackNum ≠ a.ackNum)
    (hrecent : history.length ≤ k + NACK_DEDUP_SLOTS) (hnack : pkt.has FLAG_NACK = true)
    (hnum : pkt.ackNum = a.ackNum) :
    (slot.answer e pkt).isSome = true ↔ a.timeMs + NACK_DEDUP_MS ≤ e.plat.clockMs slot.tick := by
  obtain ⟨hraw, n, hn, htime⟩ := h.past a (List.mem_of_getElem? ha)
  have hdup := nackIsDuplicate_iff hclock h pkt.ackNum
  have hsome : (slot.answer e pkt).isSome = true ↔
      ¬ (slot.nackIsDuplicate e pkt.ackNum).2 = true := by
    unfold answer
    rw [hnack, hraw]
    cases (slot.nackIsDuplicate e pkt.ackNum).2 <;> simp
  rw [hsome, hdup, ← not_lt, not_iff_not]
  constructor
  · rintro ⟨j, b, -, hb, hsame, hlate⟩
    -- an earlier answer that is not 200 ms old leaves the last one young as well
    rcases Nat.lt_trichotomy j k with hjk | rfl | hkj
    · obtain ⟨hj, rfl⟩ := List.getElem?_eq_some_iff.mp hb
      obtain ⟨hk, rfl⟩ := List.getElem?_eq_some_iff.mp ha
      have hle := List.pairwise_iff_getElem.mp h.ordered j k hj hk hjk
      omega
    · rw [ha] at hb
      obtain rfl := Option.some.inj hb
      exact hlate
    · exact absurd (hsame.trans hnum) (hlast j b hkj hb)
  · exact fun hlate => ⟨k, a, hrecent, ha, hnum.symm, hlate⟩

theorem answer_emit (slot : Slot) (act : Act) (pkt : Packet) :
    (slot.emit act).answer e pkt = slot.answer e pkt := by
  unfold answer
  rw [nackIsDuplicate_emit]
  rfl

-- From `slot` to `slot'` no NACK was answered.
structure Kept (slot slot' : Slot) : Prop where
  ring : (slot'.nackDedupBuf, slot'.nackDedupNext) = (slot.nackDedupBuf, slot.nackDedupNext)
  peer : slot'.peer = slot.peer
  active : slot'.active = true → slot.active = true
  tick : slot.tick ≤ slot'.tick

theorem Kept.refl (slot : Slot) : slot.Kept slot := ⟨rfl, rfl, id, le_rfl⟩

theorem Kept.answers {slot' : Slot} (hkept : slot.Kept slot')
    (h : slot.toPeerContext.Answers e slot.tick history) :
    slot'.toPeerContext.Answers e slot'.tick history := h.of_ring hkept.ring hkept.tick

theorem kept_steady (e : Env) (path : Path) (sender : Endpoint) (start : Slot) :
    Steady e path sender (Kept start) where
  emits _ _ h := ⟨h.ring, h.peer, h.active, h.tick⟩
  inner := by
    intro slot slot' h hlinks _ _ hring htick
    have hpeer : slot'.peer = slot.peer := congrArg (fun l => l.toConn.peer) hlinks
    have hactive : slot'.active = slot.active := congrArg (fun l => l.toConn.active) hlinks
    exact ⟨hring.trans h.ring, hpeer.trans h.peer, fun hon => h.active (hactive ▸ hon),
      h.tick.trans htick⟩
  sync _ h := ⟨h.ring, h.peer, h.active, h.tick⟩
  pings _ _ h := ⟨h.ring, h.peer, h.active, h.tick⟩
  heard _ _ _ h := ⟨h.ring, h.peer, h.active, h.tick⟩
  learn := by
    intro slot h
    unfold learnSenderPath
    dsimp only
    repeat' split
    all_goals exact ⟨h.ring, h.peer, h.active, h.tick⟩
  clear _ _ h := ⟨h.ring, h.peer, h.active, h.tick⟩
  free := by
    intro slot h
    unfold peerFree
    split
    · exact ⟨h.ring, h.peer, fun hon => absurd hon Bool.false_ne_true, h.tick⟩
    · exact h

theorem onward_stable (e : Env) (path : Path) (sender : Endpoint) (start : Slot) :
    Stable e path sender fun slot => slot.peer = start.peer ∧ start.tick ≤ slot.tick where
  emits _ _ h := h
  inner h hlinks _ _ _ htick :=
    ⟨(congrArg (fun l => l.toConn.peer) hlinks).trans h.1, h.2.trans htick⟩
  sync _ h := h
  pings _ _ h := h
  heard _ _ _ h := h
  learn := by
    intro slot h
    unfold learnSenderPath
    dsimp only
    repeat' split
    all_goals exact h
  clear _ _ h := h
  free := by
    intro slot h
    unfold peerFree
    split
    · exact h
    · exact h
  dedup _ _ h := h

end

-- The NACKs that a 1:1 service answers: those that reach it in the sender's role.
def answersTo (e : Env) (slot : Slot) : Input → Option NackDedupEntry
  | .packet path _ pkt =>
      if e.nPath ≤ path.val ∨ e.role ≠ .sender then none else slot.answer e pkt
  | .pollTimeout => none

end Slot

-- A 1:1 service with the NACKs it has answered, the oldest first.
structure Answering where
  slot : Slot
  answered : List NackDedupEntry

namespace Answering

def step (e : Env) (a : Answering) (input : Slot.Input) : Answering where
  slot := a.slot.step e input
  answered := a.answered ++ (a.slot.answersTo e input).toList

def run (e : Env) (a : Answering) (inputs : List Slot.Input) : Answering :=
  inputs.foldl (step e) a

def Ok (e : Env) (a : Answering) : Prop :=
  a.slot.peer = none ∧ a.slot.toPeerContext.Answers e a.slot.tick a.answered

theorem step_ok {e : Env} (hclock : e.MonotoneMs) {a : Answering} (h : a.Ok e)
    (input : Slot.Input) : (a.step e input).Ok e := by
  obtain ⟨hpeer, hanswers⟩ := h
  refine ⟨(Slot.step_turns a.slot hpeer input).peer_eq.trans hpeer, ?_⟩
  have hdispatch : ∀ {slot : Slot} {history : List NackDedupEntry} (pkt : Packet) (path : Path)
      (sender : Endpoint), slot.peer = none → slot.toPeerContext.Answers e slot.tick history →
      (slot.dispatchPacket e pkt path sender).toPeerContext.Answers e
        (slot.dispatchPacket e pkt path sender).tick history := by
    intro slot history pkt path sender hnone hslot
    have hkept := (Slot.kept_steady e path sender slot).dispatchPacket pkt
      (fun _ _ => by rw [hnone]; rfl) (.refl slot)
    exact hkept.answers hslot
  cases input with
  | pollTimeout =>
    have hkept := (Slot.kept_steady e 0 Endpoint.clear a.slot).onPollTimeout
      (fun _ _ h => ⟨h.ring, h.peer, h.active, h.tick⟩) (.refl a.slot)
    change PeerContext.Answers e (a.slot.onPollTimeout e).toPeerContext
      (a.slot.onPollTimeout e).tick (a.answered ++ [])
    rw [List.append_nil]
    exact hkept.answers hanswers
  | packet path sender pkt =>
    have hrecv : (a.slot.emit (.recv pkt)).toPeerContext.Answers e (a.slot.emit (.recv pkt)).tick
        a.answered := hanswers
    have hanswer : a.slot.answersTo e (.packet path sender pkt) =
        if e.nPath ≤ path.val ∨ e.role ≠ .sender then none else a.slot.answer e pkt := rfl
    simp only [step]
    rw [Slot.step_packet_eq, hanswer]
    by_cases hpath : e.nPath ≤ path.val
    · rw [if_pos hpath, if_pos (.inl hpath), Option.toList_none, List.append_nil]
      exact hanswers
    by_cases hrole : e.role = .sender
    · rw [if_neg hpath, if_pos hrole, if_neg (not_or.mpr ⟨hpath, not_not.mpr hrole⟩)]
      have hhandled : ((a.slot.emit (.recv pkt)).senderHandlePacket e pkt).1 =
          (a.slot.emit (.recv pkt)).onNack e pkt := by
        unfold Slot.senderHandlePacket Slot.onNack
        split
        · rename_i hraw
          rw [if_pos (by simp [hraw])]
        · rfl
      have hnack := Slot.onNack_history hclock hrecv pkt
      rw [Slot.answer_emit, ← hhandled] at hnack
      have hnone : ((a.slot.emit (.recv pkt)).senderHandlePacket e pkt).1.peer = none :=
        (Slot.senderHandlePacket_turns (a.slot.emit (.recv pkt)) pkt).peer_eq.trans hpeer
      split
      · exact hdispatch pkt path sender hnone hnack
      · exact hnack
    · rw [if_neg hpath, if_neg hrole, if_pos (.inr hrole), Option.toList_none, List.append_nil]
      exact hdispatch pkt path sender hpeer hrecv

end Answering

-- An N:1 service with the NACKs that the peer in each slot was answered.
structure PeersAnswering where
  ctx : Ctx
  answered : Nat → List NackDedupEntry

namespace PeersAnswering

-- The answer of a peer to a packet that is dispatched to it.
def replies (e : Env) (slot : Slot) (pkt : Packet) : List NackDedupEntry :=
  if pkt.isNack then (slot.answer e pkt).toList else []

def noted (e : Env) (p : PeersAnswering) (path : Path) (sender : Endpoint) (pkt : Packet) :
    Nat → List NackDedupEntry :=
  match p.ctx.findBySession e pkt with
  | some i => Function.update p.answered i
      (p.answered i ++ replies e (p.ctx.slotInitPeer i) pkt)
  | none =>
      let created := p.ctx.peerCreate e sender path
      match pkt.has FLAG_PING, created.2 with
      | true, some i =>
          Function.update p.answered i
            (replies e (((created.1.slotInitPeer i).emit (.recv pkt)).adoptSession e pkt) pkt)
      | _, _ => p.answered

def act (e : Env) (p : PeersAnswering) (action : Ctx.Action) : PeersAnswering where
  ctx := p.ctx.act e action
  answered :=
    match action with
    | .recv (.packet path sender pkt) =>
        if e.nPath ≤ path.val then p.answered else p.noted e path sender pkt
    | _ => p.answered

def run (e : Env) (p : PeersAnswering) (actions : List Ctx.Action) : PeersAnswering :=
  actions.foldl (act e) p

def Ok (e : Env) (p : PeersAnswering) : Prop :=
  ∀ i < e.maxPeers, (p.ctx.peers i).active = true →
    (p.ctx.peers i).peer.isSome = true ∧ (p.ctx.peers i).Answers e p.ctx.tick (p.answered i)

section

variable {e : Env} {ctx : Ctx} {answered : Nat → List NackDedupEntry} {slot : Slot} {i : Nat}

theorem Ok.store (h : Ok e ⟨ctx, answered⟩) (htick : ctx.tick ≤ slot.tick)
    {history : List NackDedupEntry} (hslot : i < e.maxPeers → slot.active = true →
      slot.peer.isSome = true ∧ slot.toPeerContext.Answers e slot.tick history) :
    Ok e ⟨ctx.store i slot, Function.update answered i history⟩ := by
  intro j hj hon
  by_cases hji : j = i
  · subst hji
    simp only [Ctx.store_peers_self, Function.update_self] at hon ⊢
    exact hslot hj hon
  · simp only [Ctx.store_peers_of_ne hji, Function.update_of_ne hji] at hon ⊢
    obtain ⟨hpeer, hanswers⟩ := h j hj hon
    exact ⟨hpeer, hanswers.of_ring rfl htick⟩

theorem Ok.store_kept (h : Ok e ⟨ctx, answered⟩) (hkept : (ctx.slotInitPeer i).Kept slot) :
    Ok e ⟨ctx.store i slot, answered⟩ := by
  have hstored := h.store hkept.tick fun hi hon => by
    obtain ⟨hpeer, hanswers⟩ := h i hi (hkept.active hon)
    have hsome : slot.peer.isSome = true := by
      rw [hkept.peer]
      exact hpeer
    exact ⟨hsome, hkept.answers hanswers⟩
  rwa [Function.update_eq_self] at hstored

theorem dispatch_answers (hclock : e.MonotoneMs) {history : List NackDedupEntry} (pkt : Packet)
    (path : Path) (sender : Endpoint) (hpeer : slot.peer.isSome = true)
    (h : slot.toPeerContext.Answers e slot.tick history) :
    let after := slot.dispatchPacket e pkt path sender
    (after.peer = slot.peer ∧ slot.tick ≤ after.tick) ∧
      after.toPeerContext.Answers e after.tick (history ++ replies e slot pkt) := by
  unfold replies
  by_cases hnack : pkt.isNack = true
  · rw [Slot.dispatchPacket_nack hnack, if_pos hpeer, if_pos hnack]
    refine ⟨?_, Slot.onNack_history hclock h pkt⟩
    exact (Slot.onward_stable e 0 Endpoint.clear slot).onNack pkt ⟨rfl, le_rfl⟩
  · rw [if_neg hnack, List.append_nil]
    have hkept := (Slot.kept_steady e path sender slot).dispatchPacket pkt
      (fun hfin hflag => absurd (by simp [Packet.isNack, hfin, hflag]) hnack) (.refl slot)
    exact ⟨⟨hkept.peer, hkept.tick⟩, hkept.answers h⟩

theorem packet_ok (hclock : e.MonotoneMs) {p : PeersAnswering} (h : p.Ok e) (path : Path)
    (sender : Endpoint) (pkt : Packet) : (p.act e (.recv (.packet path sender pkt))).Ok e := by
  obtain ⟨ctx, answered⟩ := p
  have hact : PeersAnswering.act e ⟨ctx, answered⟩ (.recv (.packet path sender pkt)) =
      ⟨if e.nPath ≤ path.val then ctx else ctx.n1HandlePacket e pkt path sender,
        if e.nPath ≤ path.val then answered else noted e ⟨ctx, answered⟩ path sender pkt⟩ := rfl
  rw [hact]
  by_cases hpath : e.nPath ≤ path.val
  · rw [if_pos hpath, if_pos hpath]
    exact h
  rw [if_neg hpath, if_neg hpath]
  unfold noted
  dsimp only
  cases hfind : ctx.findBySession e pkt with
  | some i =>
    have hactive : (ctx.peers i).active = true := by
      have hfound := List.find?_some hfind
      simp only [Bool.and_eq_true] at hfound
      exact hfound.1.1
    have hi : i < e.maxPeers := List.mem_range.mp (List.mem_of_find?_eq_some hfind)
    obtain ⟨hpeer, hanswers⟩ := h i hi hactive
    have hnoted : ((ctx.slotInitPeer i).emit (.recv pkt)).toPeerContext.Answers e
        ((ctx.slotInitPeer i).emit (.recv pkt)).tick (answered i) := hanswers
    obtain ⟨⟨hsame, htick⟩, hafter⟩ := dispatch_answers hclock pkt path sender hpeer hnoted
    rw [Ctx.n1HandlePacket_found hfind path sender]
    simp only [replies, Slot.answer_emit] at hafter
    exact h.store htick fun _ _ => ⟨hsame ▸ hpeer, hafter⟩
  | none =>
    by_cases hping : pkt.has FLAG_PING = true
    · rcases Ctx.peerCreate_cases ctx sender path with
        ⟨hnone, -, hpeers⟩ | ⟨i, peerId, hsome, -, -, -, -, -, hothers⟩
      · obtain ⟨htick, -, -⟩ := Ctx.peerCreate_count ctx sender path
        rw [Ctx.n1HandlePacket_full hfind hping hnone, hping, hnone]
        intro j hj hon
        have hsame := Ctx.eq_of_idle hpeers hon
        rw [hsame] at hon
        obtain ⟨hpeer, hanswers⟩ := h j hj hon
        rw [hsame]
        exact ⟨hpeer, hanswers.of_ring rfl htick⟩
      · obtain ⟨htick, -, hgrown⟩ := Ctx.peerCreate_count ctx sender path
        obtain ⟨-, -, id, -, -, sessionId, sessionTs, -, hfresh⟩ := hgrown i hsome
        rw [Ctx.n1HandlePacket_create hfind hping hsome, hping, hsome]
        dsimp only
        generalize (ctx.peerCreate e sender path).1 = created at htick hothers hfresh ⊢
        have hkept := (Slot.kept_steady e path sender (created.slotInitPeer i)).adoptSession pkt
          ((Slot.kept_steady e path sender _).emit (.recv pkt) trivial (.refl _))
        generalize ((created.slotInitPeer i).emit (.recv pkt)).adoptSession e pkt = adopted
          at hkept ⊢
        have hnew : (created.peers i).Answers e created.tick [] := by
          rw [hfresh]
          exact .empty rfl rfl _
        have hpeer : adopted.peer.isSome = true := by
          rw [hkept.peer]
          change (created.peers i).peer.isSome = true
          rw [hfresh]
          rfl
        obtain ⟨⟨hsame, hlater⟩, hafter⟩ := dispatch_answers hclock pkt path sender hpeer
          (hkept.answers hnew)
        rw [Ctx.store_created hothers]
        have hadopted : created.tick ≤ adopted.tick := hkept.tick
        rw [List.nil_append] at hafter
        have hctx : Ok e ⟨{ ctx with nextPeerId := created.nextPeerId }, answered⟩ := h
        exact hctx.store (htick.trans (hadopted.trans hlater)) fun _ _ => ⟨hsame ▸ hpeer, hafter⟩
    · rw [Ctx.n1HandlePacket_ignored hfind hping, Bool.eq_false_iff.mpr hping]
      exact h

theorem act_ok (hclock : e.MonotoneMs) {p : PeersAnswering} (h : p.Ok e) (action : Ctx.Action) :
    (p.act e action).Ok e := by
  obtain ⟨ctx, answered⟩ := p
  cases action with
  | peerDisconnect peerId =>
    change Ok e ⟨(ctx.peerDisconnect e peerId).1, answered⟩
    rcases Ctx.peerDisconnect_cases ctx peerId with heq | ⟨i, -, -, -, heq⟩
    · rw [heq]
      exact h
    · have hs := Slot.kept_steady e 0 Endpoint.clear (ctx.slotInitPeer i)
      rw [heq]
      exact h.store_kept (hs.free (hs.frame.disconnectAllPaths (hs.frame.sendToDests (.fin _ _) (.refl _))))
  | recv input =>
    cases input with
    | packet path sender pkt => exact packet_ok hclock h path sender pkt
    | pollTimeout =>
      have hstart : Ok e ⟨{ ctx with tick := ctx.tick + 1 }, answered⟩ := fun i hi hon =>
        ⟨(h i hi hon).1, (h i hi hon).2.of_ring rfl (Nat.le_succ _)⟩
      change Ok e ⟨ctx.healthCheckPeers e, answered⟩
      unfold Ctx.healthCheckPeers
      split
      · exact hstart
      · refine Run.foldl_preserves (P := fun ctx => Ok e ⟨ctx, answered⟩)
          (fun ctx' i hctx => ?_) hstart _
        exact hctx.store_kept
          ((Slot.kept_steady e 0 Endpoint.clear (ctx'.slotInitPeer i)).healthCheckPeer _ (.refl _))

end

end PeersAnswering

-- What the answered NACKs are, of a slot that has answered those in `history`, and when it
-- answers another one.
structure Slot.Suppresses (e : Env) (slot : Slot) (history : List NackDedupEntry) : Prop where
  spaced : Spaced history
  answers : ∀ pkt, if (slot.answer e pkt).isSome = true then
      slot.onNack e pkt = (slot.nackIsDuplicate e pkt.ackNum).1.slotRetransmitOrReject e pkt.ackNum
    else (slot.onNack e pkt).log = slot.log
  decides : ∀ k a pkt, history[k]? = some a →
    (∀ j b, k < j → history[j]? = some b → b.ackNum ≠ a.ackNum) →
    history.length - 1 - k < NACK_DEDUP_SLOTS → pkt.has FLAG_NACK = true → pkt.ackNum = a.ackNum →
    ((slot.answer e pkt).isSome = true ↔ a.timeMs + NACK_DEDUP_MS ≤ e.plat.clockMs slot.tick)

theorem PeerContext.Answers.suppresses {e : Env} {slot : Slot} {history : List NackDedupEntry}
    (hclock : e.MonotoneMs) (h : slot.toPeerContext.Answers e slot.tick history) :
    slot.Suppresses e history where
  spaced := h.spaced
  answers := slot.onNack_of_answer
  decides k a pkt ha hlast hrecent hnack hnum := by
    have hsize : history.length ≤ k + NACK_DEDUP_SLOTS := by omega
    exact Slot.answer_isSome_iff hclock h ha hlast hsize hnack hnum

-- A service asks each time whether it has answered the same NACK within 200 ms, and remembers the
-- last eight.
theorem nack_suppression {e : Env} (hclock : e.MonotoneMs) :
    (∀ sessionId sessionTs destAddr inputs,
      let service := Answering.run e ⟨Slot.opened e sessionId sessionTs destAddr, []⟩ inputs
      service.slot.Suppresses e service.answered) ∧
    (∀ actions, ∀ i < e.maxPeers,
      let peers := PeersAnswering.run e ⟨Ctx.opened e, fun _ => []⟩ actions
      (peers.ctx.peers i).active = true →
        (peers.ctx.slotInitPeer i).Suppresses e (peers.answered i)) := by
  constructor
  · intro sessionId sessionTs destAddr inputs service
    have hstart : Answering.Ok e ⟨Slot.opened e sessionId sessionTs destAddr, []⟩ :=
      ⟨rfl, .empty rfl rfl _⟩
    have hok : service.Ok e :=
      Run.foldl_preserves (P := Answering.Ok e) (fun _ input h => Answering.step_ok hclock h input)
        hstart inputs
    exact hok.2.suppresses hclock
  · intro actions i hi peers hactive
    have hstart : PeersAnswering.Ok e ⟨Ctx.opened e, fun _ => []⟩ := fun _ _ hon => (nomatch hon)
    have hok : peers.Ok e :=
      Run.foldl_preserves (P := PeersAnswering.Ok e)
        (fun _ action h => PeersAnswering.act_ok hclock h action) hstart actions
    have hanswers : (peers.ctx.slotInitPeer i).toPeerContext.Answers e
        (peers.ctx.slotInitPeer i).tick (peers.answered i) := (hok i hi hactive).2
    exact hanswers.suppresses hclock

-- Each reading of the clock is 100 ms after the one before.
def Cplat.ticking : Cplat := { Cplat.reference with clockMs := fun n => 1 + 100 * min n 1000 }

theorem Cplat.ticking_monotoneMs {e : Env} (h : e.plat = Cplat.ticking) : e.MonotoneMs where
  mono hle := by
    rw [h]
    simp only [Cplat.ticking]
    omega
  pos n := by
    rw [h]
    simp only [Cplat.ticking]
    omega
  word n := by
    rw [h]
    simp only [Cplat.ticking]
    omega

-- The first of three NACKs for one number is answered, the second is not, the third is.
theorem nack_suppression_sample :
    let nack := Packet.buildNack Packet.sampleSession 5
    (let e := { Env.sampleSender .unicastBidir with plat := Cplat.ticking }
      let start : Answering := ⟨Slot.opened e 3 ⟨2, 0⟩ fun _ => .target, []⟩
      ((start.run e [.sampleBack nack]).slot.answer e nack).isSome = false ∧
        ((start.run e [.sampleBack nack, .sampleBack nack]).slot.answer e nack).isSome = true) ∧
    (let e := { Env.sample .unicastBidirN1 with plat := Cplat.ticking }
      let start : PeersAnswering := ⟨Ctx.opened e, fun _ => []⟩
      let ping : Ctx.Action := .recv (.sample (.samplePing 7))
      let peers := start.run e [ping, .recv (.sample nack)]
      ((peers.ctx.slotInitPeer 0).answer e nack).isSome = false) := by
  intro nack
  have honly : ∀ {l : List NackDedupEntry}, l.length = 1 → ∀ j b, 0 < j → l[j]? = some b →
      b.ackNum ≠ 5 := by
    intro l hlen j b hj hb
    rw [List.getElem?_eq_none (by omega)] at hb
    cases hb
  refine ⟨?_, ?_⟩
  · intro e start
    have h := (nack_suppression (e := e) (Cplat.ticking_monotoneMs rfl)).1 3 ⟨2, 0⟩
      fun _ => .target
    have hsecond := (h [.sampleBack nack]).decides 0 ⟨5, 1⟩ nack (by decide +kernel)
      (honly (by decide +kernel)) (by decide +kernel) (by decide) rfl
    have hthird := (h [.sampleBack nack, .sampleBack nack]).decides 0 ⟨5, 1⟩ nack (by decide +kernel)
      (honly (by decide +kernel)) (by decide +kernel) (by decide) rfl
    refine ⟨Bool.eq_false_iff.mpr fun hsome => ?_, hthird.mpr (by decide +kernel)⟩
    exact absurd (hsecond.mp hsome) (by decide +kernel)
  · intro e start ping peers
    have h := (nack_suppression (e := e) (Cplat.ticking_monotoneMs rfl)).2
      [ping, .recv (.sample nack)] 0 (by decide) (by decide +kernel)
    refine Bool.eq_false_iff.mpr fun hsome => ?_
    have hdecides := h.decides 0 ⟨5, 201⟩ nack (by decide +kernel) (honly (by decide +kernel))
      (by decide +kernel) (by decide) rfl
    exact absurd (hdecides.mp hsome) (by decide +kernel)

end Porter
