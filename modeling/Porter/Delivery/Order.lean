import Porter.Delivery.Continuity
import Porter.Moves.Quiet

namespace Porter

open View

-- The numbers handed to the application, in order.
def handedSeqs (e : Env) (log : List (UInt32 × Act)) : List Nat :=
  (log.filterMap (handed e)).map fun pkt => pkt.seqNum.toNat

-- A session was forgotten: by a FIN, a health timeout or a reorder timeout.
def Act.isForget : Act → Bool
  | .forget => true
  | _ => false

def sessionLost (log : List (UInt32 × Act)) : Bool := log.any fun x => x.2.isForget

section

variable {e : Env} {cur : Option Packet} {v v' : View}

theorem sessionLost_of_append {log log' : List (UInt32 × Act)}
    (h : sessionLost (log ++ log') = false) : sessionLost log = false := by
  simp only [sessionLost, List.any_append, Bool.or_eq_false_iff] at h
  exact h.1

theorem handedSeqs_append (log log' : List (UInt32 × Act)) :
    handedSeqs e (log ++ log') = handedSeqs e log ++ handedSeqs e log' := by
  simp [handedSeqs]

theorem handedSeqs_quiet {log : List (UInt32 × Act)} (h : ∀ x ∈ log, handed e x = none) :
    handedSeqs e log = [] := by
  simp only [handedSeqs, List.map_eq_nil_iff]
  exact List.filterMap_eq_nil_iff.mpr h

theorem handed_of_plain {x : UInt32 × Act} (h : x.2.isPlain = true) : handed e x = none := by
  obtain ⟨p, act⟩ := x
  cases act with
  | pop => exact absurd h Bool.noConfusion
  | _ => rfl

theorem handedSeqs_emits {acts : List Act} (h : ∀ act ∈ acts, act.isPlain = true) :
    handedSeqs e (v.emits acts).log = handedSeqs e v.log := by
  have hquiet : handedSeqs e (acts.map fun act => (v.peerId, act)) = [] := by
    refine handedSeqs_quiet fun x hx => ?_
    obtain ⟨act, hact, rfl⟩ := List.mem_map.mp hx
    exact handed_of_plain (h act hact)
  rw [View.emits, handedSeqs_append, hquiet, List.append_nil]

theorem handedSeqs_forgotten : handedSeqs e (v.forgotten e).log = handedSeqs e v.log := by
  rw [View.forgotten, View.emit, View.emits, handedSeqs_append]
  simp [handedSeqs, handed]

theorem handedSeqs_popped (pkt : Packet) (win : Window) :
    handedSeqs e (v.popped e pkt win).log = handedSeqs e v.log ∨
      handedSeqs e (v.popped e pkt win).log = handedSeqs e v.log ++ [pkt.seqNum.toNat] := by
  obtain ⟨out, hlog⟩ := popped_log pkt win
  have hout : ∀ act ∈ out.map fun data => Act.event (.data data), act.isPlain = true := by
    intro act hact
    obtain ⟨data, -, rfl⟩ := List.mem_map.mp hact
    rfl
  rw [hlog, handedSeqs_emits hout, View.emit, View.emits, handedSeqs_append]
  cases v.alive with
  | false => exact .inl (by simp [handedSeqs, handed])
  | true =>
    by_cases hcb : e.callback = true
    · exact .inr (by simp [handedSeqs, handed, hcb])
    · exact .inl (by simp [handedSeqs, handed, hcb])

def Act.isMute : Act → Bool
  | .pop pkt alive => !(alive && !pkt.has FLAG_PING)
  | act => act.message.isNone

-- A record with the fragments that wait at its end: each packet handed over is followed by the
-- data its elements complete, and there is no other data. Only RAW receivers drop fragments.
inductive Spelled (e : Env) : Reassembly → List (UInt32 × Act) → Prop
  | nil : Spelled e Reassembly.empty []
  | mute {frag log} (h : Spelled e frag log) (x : UInt32 × Act) (hx : x.2.isMute = true) :
      Spelled e frag (log ++ [x])
  | drop {frag log} (h : Spelled e frag log) (x : UInt32 × Act) (frag' : Reassembly)
      (hx : x.2 = .forget ∨ ∃ seq, x.2 = .reset seq)
      (hfrag : e.type.isRawType = false → frag' = frag) : Spelled e frag' (log ++ [x])
  | feed {frag log} (h : Spelled e frag log) (peerId : UInt32) (pkt : Packet)
      (hdata : pkt.has FLAG_PING = false) :
      Spelled e (frag.feedAll e (Packet.unpackAll pkt.payload)).1
        (log ++ (peerId, .pop pkt true) ::
          (frag.feedAll e (Packet.unpackAll pkt.payload)).2.map fun data => (peerId, .event (.data data)))

theorem Spelled.emits {frag : Reassembly} (h : Spelled e frag v.log) {acts : List Act}
    (hacts : ∀ act ∈ acts, act.isMute = true) : Spelled e frag (v.emits acts).log := by
  unfold View.emits
  generalize v.log = log at h ⊢
  induction acts generalizing log with
  | nil => simpa using h
  | cons act rest ih =>
    rw [List.forall_mem_cons] at hacts
    simpa using ih hacts.2 _ (h.mute (v.peerId, act) hacts.1)

theorem View.Move.spelled (hcb : e.callback = true) (hmove : Move e cur v v')
    (h : Spelled e v.frag v.log) : Spelled e v'.frag v'.log := by
  have hsends : ∀ (dests : List (Path × Endpoint)) (pkt : Packet),
      ∀ act ∈ dests.map (fun d => Act.send d.1 d.2 pkt), act.isMute = true := fun dests pkt =>
    List.forall_mem_map.mpr fun _ _ => rfl
  cases hmove with
  | sync alive evs hevs =>
    rw [synced, callbackEmits, if_pos hcb]
    refine Spelled.emits (v := { v with alive := alive }) h (List.forall_mem_map.mpr fun ev hev => ?_)
    have hmessage : (Act.event ev).message = none :=
      (List.mem_append.mp hev).elim (fun hev => message_path (hevs ev hev)) (message_ofAlive _ _ ev)
    rw [Act.isMute, hmessage]
    · rfl
    · exact fun _ _ hpop => absurd hpop (by simp)
  | pop pkt win =>
    unfold View.popped
    dsimp only
    split
    · rename_i hfeeds
      rw [Bool.and_eq_true, Bool.not_eq_true'] at hfeeds
      have hfed := h.feed v.peerId pkt hfeeds.2
      rw [callbackEmits, if_pos hcb, hfeeds.1, emits, List.map_map, List.map_map]
      simpa [View.emit, View.emits, View.peerId, Function.comp_def] using hfed
    · rename_i hmute
      exact h.mute (v.peerId, .pop pkt v.alive) (by rw [Act.isMute, Bool.eq_false_of_not_eq_true hmute]; rfl)
  | reset pkt _ _ hraw =>
    exact h.drop (v.peerId, .reset pkt.seqNum) _ (.inr ⟨_, rfl⟩) fun hoff => absurd hoff (by simp [hraw])
  | forget frag hfrag => exact h.drop (v.peerId, .forget) frag (.inl rfl) hfrag
  | nack seq dests => exact h.emits (List.forall_mem_cons.mpr ⟨rfl, hsends dests _⟩)
  | expire dests => exact h.emits (List.forall_mem_cons.mpr ⟨rfl, hsends dests _⟩)
  | answer pkt dests => exact h.emits (hsends dests _)
  | adopt pkt => exact h.mute (v.peerId, .adopt pkt.session pkt.seqNum) rfl
  | push pkt => exact h.mute (v.peerId, .push pkt) rfl
  | skip pkt => exact h.mute (v.peerId, .skip pkt.ackNum) rfl
  | finAck target => exact h.mute (v.peerId, .sendTcp (Packet.buildFinAck v.own target)) rfl
  | _ => exact h

-- The packets that handedSeqs counts reach the application with their elements.
theorem Slot.run_spelled (hlex : e.plat.CmpLex) (hcb : e.callback = true) (id : UInt32)
    (ts : Timespec) (destAddr : Path → Endpoint) (inputs : List Input) :
    let slot := (opened e id ts destAddr).run e inputs
    Spelled e slot.reassembly slot.log := by
  refine run_preserves (P := fun v => Spelled e v.frag v.log) hlex (fun input _ v _ h => ?_)
    (fun _ _ _ _ _ hm h => hm.spelled hcb h) rfl (opened_ok id ts destAddr) .nil
  refine h.mute (v.peerId, input.note) ?_
  cases input <;> rfl

namespace View

-- The numbers of one session, all below `limit`, are handed over in increasing order. `front`
-- says when what was handed over must lie behind the window; it does whenever packets can be
-- popped. `fresh` is for the packet at hand as long as it can still move the window.
-- Nothing has been handed over yet where no session was ever tracked.
structure Ordered (e : Env) (session : SessionHdr) (limit : Nat) (front : Prop)
    (cur : Option Packet) (v : View) : Prop where
  incr : (handedSeqs e v.log).Pairwise (· < ·)
  tracked : v.known = true → v.session = session
  untracked : v.known = false → ∀ seq, v.win.held seq = none
  held : ∀ seq pkt, v.win.held seq = some pkt →
    v.win.nextSeq.toNat ≤ seq.toNat ∧ seq.toNat < limit
  next : v.win.nextSeq.toNat ≤ limit
  behind : front → v.known = true → ∀ t ∈ handedSeqs e v.log, t < v.win.nextSeq.toNat
  fresh : front → v.Early → v.known = false ∨ e.type.isRawType = true →
    ∀ pkt, cur = some pkt → ∀ t ∈ handedSeqs e v.log, t < pkt.seqNum.toNat
  start : v.known = false → sessionLost v.log = false → handedSeqs e v.log = []

variable {session : SessionHdr} {limit : Nat} {front : Prop}

theorem Ordered.of_emits (h : v.Ordered e session limit front cur) (acts : List Act)
    (hplain : ∀ act ∈ acts, act.isPlain = true) (hlog : v'.log = (v.emits acts).log)
    (hknown : v'.known = v.known) (hsession : v'.session = v.session) (hwin : v'.win = v.win) :
    v'.Ordered e session limit front cur := by
  have hseqs : handedSeqs e v'.log = handedSeqs e v.log := by rw [hlog, handedSeqs_emits hplain]
  refine ⟨hseqs ▸ h.incr, ?_, ?_, ?_, ?_, ?_, ?_, ?_⟩
  · rw [hknown, hsession]
    exact h.tracked
  · rw [hknown, hwin]
    exact h.untracked
  · rw [hwin]
    exact h.held
  · rw [hwin]
    exact h.next
  · rw [hknown, hwin, hseqs]
    exact h.behind
  · rw [hknown, hseqs]
    intro hfront hearly
    refine h.fresh hfront ?_
    unfold Early at hearly
    rwa [hlog, View.emits, undrained_append fun x hx => by
      obtain ⟨act, hact, rfl⟩ := List.mem_map.mp hx
      exact hplain act hact] at hearly
  · rw [hknown, hseqs, hlog, View.emits]
    exact fun hk hf => h.start hk (sessionLost_of_append hf)

theorem Ordered.restart {pkt : Packet} {act : Act} (h : v.Ordered e session limit front cur)
    (hplain : act.isPlain = true) (hcur : cur = some pkt) (hearly : v.Early)
    (hmay : v.known = false ∨ e.type.isRawType = true) (hlimit : pkt.seqNum.toNat ≤ limit)
    (hlog : v'.log = (v.emit act).log) (hwin : v'.win = Window.init pkt.seqNum e.windowSize)
    (htracked : v'.known = true → v'.session = session)
    (hknown : v'.known = false → v.known = false) :
    v'.Ordered e session limit front cur := by
  have hseqs : handedSeqs e v'.log = handedSeqs e v.log := by
    rw [hlog]
    exact handedSeqs_emits fun a ha => by rw [List.mem_singleton.mp ha]; exact hplain
  refine ⟨hseqs ▸ h.incr, htracked, ?_, ?_, ?_, ?_, ?_, ?_⟩
  · simp [hwin]
  · simp [hwin]
  · rw [hwin]
    exact hlimit
  · intro hfront _
    rw [hseqs, hwin]
    exact h.fresh hfront hearly hmay pkt hcur
  · intro hfront _ _
    rw [hseqs]
    exact h.fresh hfront hearly hmay
  · rw [hseqs, hlog, View.emit, View.emits]
    exact fun hk hf => h.start (hknown hk) (sessionLost_of_append hf)

theorem Ordered.pop {pkt : Packet} {win : Window} (h : v.Ordered e session limit front cur)
    (hinv : Inv e v) (hlimit : limit < 4294967296) (hfront : front)
    (hpop : v.win.recvPop = some (pkt, win)) :
    (v.popped e pkt win).Ordered e session limit front cur := by
  obtain ⟨hheld, rfl⟩ := (Window.recvPop_eq_some hinv.wf).mp hpop
  have hseq : pkt.seqNum = v.win.nextSeq := hinv.wf.labelled _ _ hheld
  have hlt : v.win.nextSeq.toNat < limit := (h.held _ _ hheld).2
  have hnext : (v.win.nextSeq + 1).toNat = v.win.nextSeq.toNat + 1 :=
    Serial.toNat_succ_of_lt (by omega)
  have hknown : v.known = true := by
    by_contra hn
    rw [h.untracked (by simpa using hn)] at hheld
    cases hheld
  have hbehind := h.behind hfront hknown
  refine ⟨?_, ?_, ?_, ?_, ?_, ?_, ?_, ?_⟩
  · rcases handedSeqs_popped pkt v.win.dropNext with hs | hs
    · rw [hs]
      exact h.incr
    · rw [hs, List.pairwise_append]
      refine ⟨h.incr, List.pairwise_singleton .., fun t ht s hs => ?_⟩
      rw [List.mem_singleton.mp hs, hseq]
      exact hbehind t ht
  · simpa using h.tracked
  · rw [popped_known, hknown]
    exact Bool.noConfusion
  · intro seq other hother
    rw [popped_win, Window.dropNext_held hinv.wf] at hother
    rw [popped_win, Window.dropNext_nextSeq]
    split at hother
    · cases hother
    · rename_i hne
      have hb := h.held seq other hother
      have hne' : seq.toNat ≠ v.win.nextSeq.toNat := fun heq => hne (UInt32.toNat_inj.mp heq)
      omega
  · rw [popped_win, Window.dropNext_nextSeq]
    omega
  · intro _ _ t ht
    rw [popped_win, Window.dropNext_nextSeq, hnext]
    rcases handedSeqs_popped pkt v.win.dropNext with hs | hs
    · rw [hs] at ht
      have := hbehind t ht
      omega
    · rw [hs] at ht
      rcases List.mem_append.mp ht with ht | ht
      · have := hbehind t ht
        omega
      · rw [List.mem_singleton.mp ht, hseq]
        omega
  · exact fun _ hearly => absurd hearly (undrained_popped pkt _)
  · rw [popped_known, hknown]
    exact Bool.noConfusion

theorem Move.ordered (hlex : e.plat.CmpLex) (hlimit : limit + e.windowSize ≤ 4294967296)
    (hdrains : Drains cur → front)
    (hpkt : ∀ pkt, cur = some pkt → pkt.session = session ∧ pkt.seqNum.toNat < limit ∧
      pkt.has FLAG_REJECT = false)
    (hinv : Inv e v) (hmove : Move e cur v v') (h : v.Ordered e session limit front cur) :
    v'.Ordered e session limit front cur := by
  have hpos := e.windowSize_pos
  cases hmove with
  | adopt pkt hcur hearly hnew =>
    obtain ⟨hsession, hseq, -⟩ := hpkt pkt hcur
    refine h.restart rfl hcur hearly (.inl ?_) hseq.le rfl rfl (fun _ => hsession)
      fun hk => absurd hk Bool.noConfusion
    rcases hnew with hunknown | hnewer
    · exact hunknown
    · by_contra hknown
      exact newer_ne_session hlex hnewer
        ((h.tracked (by simpa using hknown)).trans hsession.symm)
  | push pkt win pending nackNum hcur _ _ _ hknown _ hpush _ =>
    obtain ⟨-, hseq, -⟩ := hpkt pkt hcur
    have hin := Window.recvPush_in_window hinv.wf hpush
    rw [hinv.size] at hin
    have hnext := h.next
    have hahead : v.win.nextSeq.toNat ≤ pkt.seqNum.toNat := by
      by_contra hlt
      rw [Serial.dist_of_lt (by omega)] at hin
      omega
    have hquiet : (v.emit (.push pkt)).Ordered e session limit front cur :=
      h.of_emits [.push pkt] (by simp [Act.isPlain]) rfl rfl rfl rfl
    refine ⟨hquiet.incr, hquiet.tracked, fun hk => ?_, fun seq other hother => ?_, ?_, ?_,
      hquiet.fresh, hquiet.start⟩
    · exact absurd hk (by simp [emit, emits, hknown])
    · change win.held seq = some other at hother
      change win.nextSeq.toNat ≤ seq.toNat ∧ _
      rw [Window.recvPush_nextSeq hpush]
      rw [Window.recvPush_held hinv.wf hpush] at hother
      split at hother
      · rename_i heq
        rw [heq]
        exact ⟨hahead, hseq⟩
      · exact h.held seq other hother
    · change win.nextSeq.toNat ≤ limit
      rw [Window.recvPush_nextSeq hpush]
      exact hnext
    · intro hfront hk
      change ∀ t ∈ _, t < win.nextSeq.toNat
      rw [Window.recvPush_nextSeq hpush]
      exact hquiet.behind hfront hk
  | pop pkt win hcur hpop => exact h.pop hinv (by omega) (hdrains hcur) hpop
  | skip pkt hcur hreject =>
    obtain ⟨-, -, hno⟩ := hpkt pkt hcur
    rw [hno] at hreject
    cases hreject
  | reset pkt hcur hearly hraw =>
    obtain ⟨-, hseq, -⟩ := hpkt pkt hcur
    refine h.restart rfl hcur hearly (.inr hraw) hseq.le rfl ?_ h.tracked id
    rw [← hinv.size]
    rfl
  | forget =>
    refine ⟨handedSeqs_forgotten (v := v) ▸ h.incr, ?_, ?_, ?_, ?_, ?_, ?_, ?_⟩
    · exact fun hk => absurd hk Bool.noConfusion
    · exact fun _ seq => Window.held_init ..
    · exact fun seq other hother => by
        change (Window.init 0 e.windowSize).held seq = some other at hother
        rw [Window.held_init] at hother
        cases hother
    · exact Nat.zero_le limit
    · exact fun _ hk => absurd hk Bool.noConfusion
    · refine fun _ hearly => absurd hearly ?_
      simp [Early, View.forgotten, emit, emits, undrained]
    · refine fun _ hf => absurd hf ?_
      simp [sessionLost, View.forgotten, emit, emits, Act.isForget]
  | sync alive evs =>
    unfold synced callbackEmits
    split
    · refine h.of_emits _ (fun act hact => ?_) rfl rfl rfl rfl
      obtain ⟨ev, -, rfl⟩ := List.mem_map.mp hact
      rfl
    · exact h.of_emits [] (by simp) (by simp) rfl rfl rfl
  | nack seq dests =>
    exact h.of_emits _ (plain_nack seq v.win v.own dests) rfl rfl rfl rfl
  | expire dests =>
    exact h.of_emits _ (plain_nack v.nackNum v.win v.own dests) rfl rfl rfl rfl
  | answer pkt dests => exact h.of_emits _ (plain_sends dests _) rfl rfl rfl rfl
  | finAck target =>
    exact h.of_emits [.sendTcp (Packet.buildFinAck v.own target)] (by simp [Act.isPlain])
      rfl rfl rfl rfl
  | _ => exact h.of_emits [] (by simp) (by simp) rfl rfl rfl

theorem Ordered.rest (h : v.Ordered e session limit front cur) :
    v.Ordered e session limit front none :=
  ⟨h.incr, h.tracked, h.untracked, h.held, h.next, h.behind,
    fun _ _ _ _ hcur => absurd hcur (Option.some_ne_none _).symm, h.start⟩

theorem Ordered.weaken {front' : Prop} (h : v.Ordered e session limit front cur)
    (hfront : front' → front) : v.Ordered e session limit front' cur :=
  ⟨h.incr, h.tracked, h.untracked, h.held, h.next, fun hf => h.behind (hfront hf),
    fun hf => h.fresh (hfront hf), h.start⟩

-- A round begins: its packet finds what was handed over so far behind the window, and behind
-- itself where it may move the window.
theorem Ordered.begin {front' : Prop} {act : Act} (h : v.Ordered e session limit front' none)
    (hact : handed e (v.peerId, act) = none)
    (hbehind : front → v.known = true → ∀ t ∈ handedSeqs e v.log, t < v.win.nextSeq.toNat)
    (hfresh : front → v.known = false ∨ e.type.isRawType = true →
      ∀ pkt, cur = some pkt → ∀ t ∈ handedSeqs e v.log, t < pkt.seqNum.toNat) :
    (v.emit act).Ordered e session limit front cur := by
  have hseqs : handedSeqs e (v.emit act).log = handedSeqs e v.log := by
    rw [emit, emits, handedSeqs_append]
    simp [handedSeqs, hact]
  refine ⟨hseqs ▸ h.incr, h.tracked, h.untracked, h.held, h.next, ?_, ?_, ?_⟩
  · rw [hseqs]
    exact hbehind
  · rw [hseqs]
    exact fun hfront _ => hfresh hfront
  · rw [hseqs, emit, emits]
    exact fun hk hf => h.start hk (sessionLost_of_append hf)

end View

theorem Slot.step_ordered {slot : Slot} {session : SessionHdr} {limit : Nat} {front front' : Prop}
    {input : Input} (hlex : e.plat.CmpLex) (hlimit : limit + e.windowSize ≤ 4294967296)
    (hdrains : Drains input.cur → front)
    (hpkt : ∀ pkt, input.cur = some pkt → pkt.session = session ∧ pkt.seqNum.toNat < limit ∧
      pkt.has FLAG_REJECT = false)
    (hpeer : slot.peer = none) (hok : Ok e slot)
    (h : (slot.view e).Ordered e session limit front' none)
    (hbehind : front → slot.peerSessionKnown = true →
      ∀ t ∈ handedSeqs e slot.log, t < slot.recvWindow.nextSeq.toNat)
    (hfresh : front → slot.peerSessionKnown = false ∨ e.type.isRawType = true →
      ∀ pkt, input.cur = some pkt → ∀ t ∈ handedSeqs e slot.log, t < pkt.seqNum.toNat) :
    ((slot.step e input).view e).Ordered e session limit front none := by
  rcases (step_moves hlex hpeer hok input).1 with heq | hmoves
  · rw [heq]
    exact ⟨h.incr, h.tracked, h.untracked, h.held, h.next, hbehind,
      fun _ _ _ _ hcur => absurd hcur (Option.some_ne_none _).symm, h.start⟩
  · have hnote : handed e ((slot.view e).peerId, input.note) = none := by
      cases input <;> rfl
    have hinv : Inv e ((slot.view e).emit input.note) := (emit_ok hok input.note).inv
    exact (Run.star_preserves (P := fun v => Inv e v ∧ v.Ordered e session limit front input.cur)
      (fun _ _ hm hv => ⟨hm.inv hv.1, hm.ordered hlex hlimit hdrains hpkt hv.1 hv.2⟩) hmoves
      ⟨hinv, h.begin hnote hbehind hfresh⟩).2.rest

theorem Slot.opened_ordered {session : SessionHdr} {limit : Nat} {front : Prop} (id : UInt32)
    (ts : Timespec) (destAddr : Path → Endpoint) :
    ((opened e id ts destAddr).view e).Ordered e session limit front none := by
  refine ⟨List.Pairwise.nil, fun hk => absurd hk Bool.noConfusion, fun _ _ => Window.held_init ..,
    fun seq pkt hheld => ?_, Nat.zero_le limit, fun _ hk => absurd hk Bool.noConfusion,
    fun _ _ _ _ hcur => absurd hcur (Option.some_ne_none _).symm, fun _ _ => rfl⟩
  rw [show ((opened e id ts destAddr).view e).win = Window.init 0 e.windowSize from rfl,
    Window.held_init] at hheld
  cases hheld

end

end Porter
