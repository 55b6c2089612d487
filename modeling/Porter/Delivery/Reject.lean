import Porter.Moves.Run
import Porter.Platform
import Porter.Send
import Porter.Window.Send

namespace Porter

open View Serial

-- A sender and a receiver of its session. The packets under way are those the logs of the two
-- say were sent: the network may lose, delay, reorder and duplicate them. `dataSent` and
-- `evicted` record what went into the send window and what a push dropped from it.
structure Link where
  sender : Slot
  receiver : Slot
  dataSent : List Packet
  evicted : List Packet

namespace Link

inductive Action where
  | data (packed : Bytes)
  | ping (healthStates : Bytes)
  | toSender (path : Path) (source : Endpoint) (pkt : Packet)
  | toReceiver (path : Path) (source : Endpoint) (pkt : Packet)
  | poll

-- `pkt` is what the service `e'` makes of a datagram that a service `e` with this log sent.
def Arrives (e e' : Env) (log : List (UInt32 × Act)) (pkt : Packet) : Prop :=
  ∃ p path dest sent wired, (p, Act.send path dest sent) ∈ log ∧ sent.onWire e = some wired ∧
    Packet.receive e' wired.wire = some pkt

section

variable (es er : Env)

def Enabled (link : Link) : Action → Prop
  | .toSender _ _ pkt => Arrives er es link.receiver.log pkt
  | .toReceiver _ _ pkt => Arrives es er link.sender.log pkt
  | _ => True

def act (link : Link) : Action → Link
  | .data packed =>
      match link.sender.packedContainer es packed with
      | none => link
      | some outer => { link with
          sender := link.sender.flushPacked es packed
          dataSent := link.dataSent ++ [outer]
          evicted := link.evicted ++ link.sender.sendWindow.evicts.toList }
  | .ping healthStates => { link with sender := link.sender.sendPing es healthStates }
  | .toSender path source pkt =>
      { link with sender := link.sender.step es (.packet path source pkt) }
  | .toReceiver path source pkt =>
      { link with receiver := link.receiver.step er (.packet path source pkt) }
  | .poll => { link with receiver := link.receiver.step er .pollTimeout }

-- The states reached by runs all of whose steps satisfy `ok`.
inductive Reachable (ok : Link → Action → Prop) : Link → Prop
  | opened (id id' : UInt32) (ts ts' : Timespec) (dest dest' : Path → Endpoint) :
      Reachable ok ⟨Slot.opened es id ts dest, Slot.opened er id' ts' dest', [], []⟩
  | step (link : Link) (action : Action) (h : Reachable ok link) (henabled : Enabled es er link action)
      (hok : ok link action) : Reachable ok (link.act es er action)

-- A run whose steps are enabled and satisfy `ok`.
def Runs (ok : Link → Action → Prop) : Link → List Action → Prop
  | _, [] => True
  | link, action :: actions =>
      Enabled es er link action ∧ ok link action ∧ Runs ok (link.act es er action) actions

-- Number `s` was given to a DATA packet that has left the send window.
def Gone (link : Link) (s : UInt32) : Prop :=
  ∃ pkt ∈ link.dataSent, pkt ∈ link.evicted ∧ pkt.seqNum = s

def SkipsOnlyGone (link : Link) : Prop :=
  ∀ p s, (p, Act.skip s) ∈ link.receiver.log → link.Gone s

-- Until the numbers wrap for the first time: no PING comes in with a number below next_seq, and
-- no copy of a DATA packet after 2^32 - window_size later ones were sent.
def Timely (link : Link) : Action → Prop
  | .toReceiver _ _ pkt => link.dataSent.length < 4294967296 →
      (pkt.has FLAG_PING = true → link.receiver.recvWindow.nextSeq.toNat ≤ pkt.seqNum.toNat) ∧
      (pkt.has FLAG_DATA = true →
        link.dataSent.length + er.windowSize ≤ 4294967296 + pkt.seqNum.toNat)
  | _ => True

variable {es er}

theorem Reachable.run {ok : Link → Action → Prop} {link : Link} (h : Reachable es er ok link)
    (actions : List Action) (hruns : Runs es er ok link actions) :
    Reachable es er ok (actions.foldl (act es er) link) := by
  induction actions generalizing link with
  | nil => exact h
  | cons action actions ih => exact ih (.step link action h hruns.1 hruns.2.1) hruns.2.2

theorem arrives_iff {e e' : Env} {log : List (UInt32 × Act)} {pkt : Packet} :
    Arrives e e' log pkt ↔ ∃ x ∈ log, (match x.2 with
      | .send _ _ sent => (sent.onWire e).bind fun wired => Packet.receive e' wired.wire
      | _ => none) = some pkt := by
  constructor
  · rintro ⟨p, path, dest, sent, wired, hmem, hwire, hrecv⟩
    exact ⟨_, hmem, by simp [hwire, hrecv]⟩
  · rintro ⟨⟨p, act⟩, hmem, hx⟩
    cases act with
    | send path dest sent =>
      obtain ⟨wired, hwire, hrecv⟩ := Option.bind_eq_some_iff.mp hx
      exact ⟨p, path, dest, sent, wired, hmem, hwire, hrecv⟩
    | _ => simp at hx

instance (e e' : Env) (log : List (UInt32 × Act)) (pkt : Packet) :
    Decidable (Arrives e e' log pkt) :=
  decidable_of_iff _ arrives_iff.symm

instance (link : Link) (action : Action) : Decidable (Enabled es er link action) := by
  cases action <;> unfold Enabled <;> infer_instance

instance (link : Link) (action : Action) : Decidable (Timely er link action) := by
  cases action <;> unfold Timely <;> infer_instance

theorem skipsOnlyGone_iff {link : Link} : link.SkipsOnlyGone ↔ ∀ x ∈ link.receiver.log,
    (match x.2 with
      | .skip s => link.Gone s
      | _ => True) := by
  constructor
  · rintro h ⟨p, act⟩ hmem
    cases act with
    | skip s => exact h p s hmem
    | _ => trivial
  · intro h p s hmem
    exact h _ hmem

instance (link : Link) (s : UInt32) : Decidable (link.Gone s) := by
  unfold Gone
  infer_instance

instance (link : Link) : Decidable link.SkipsOnlyGone :=
  have : ∀ act : Act, Decidable (match act with
      | .skip s => link.Gone s
      | _ => True) := fun act => by
    cases act <;> infer_instance
  decidable_of_iff _ skipsOnlyGone_iff.symm

instance Runs.decidable (ok : Link → Action → Prop) [∀ link action, Decidable (ok link action)] :
    ∀ (link : Link) (actions : List Action), Decidable (Runs es er ok link actions)
  | _, [] => isTrue trivial
  | link, action :: actions =>
      have := Runs.decidable ok (link.act es er action) actions
      inferInstanceAs (Decidable (Enabled es er link action ∧ ok link action ∧
        Runs es er ok (link.act es er action) actions))

end

-- The receiver's side. `n` numbers are in use and `gone` says which of them are gone.

structure Sound (n : Nat) (gone : UInt32 → Prop) (pkt : Packet) : Prop where
  nack : pkt.has FLAG_NACK = false
  seq : pkt.seqNum.toNat ≤ n
  data : pkt.has FLAG_DATA = true → pkt.seqNum.toNat < n
  ping : pkt.has FLAG_PING = true → pkt.has FLAG_REJECT = false
  reject : pkt.has FLAG_REJECT = true → gone pkt.ackNum

structure Hears (n : Nat) (gone : UInt32 → Prop) (v : View) : Prop where
  next : v.win.nextSeq.toNat ≤ n
  held : ∀ s pkt, v.win.held s = some pkt →
    s.toNat < n ∧ (n < 4294967296 → v.win.nextSeq.toNat ≤ s.toNat)
  timer : v.pending = true → v.nackNum.toNat < n
  nacks : ∀ p path dest pkt, (p, Act.send path dest pkt) ∈ v.log →
    ∃ own num, pkt = Packet.buildNack own num ∧ num.toNat < n
  skips : ∀ p s, (p, Act.skip s) ∈ v.log → gone s

-- What `n` and `gone` allow as the packet of the round.
structure Admits (e : Env) (n : Nat) (gone : UInt32 → Prop) (cur : Option Packet) : Prop where
  sound : ∀ pkt, cur = some pkt → Sound n gone pkt
  fresh : ∀ pkt, cur = some pkt → pkt.has FLAG_DATA = true → n < 4294967296 →
    n + e.windowSize ≤ 4294967296 + pkt.seqNum.toNat
  gone_lt : ∀ s, gone s → s.toNat < n

def PingAhead (n : Nat) (cur : Option Packet) (v : View) : Prop :=
  ∀ pkt, cur = some pkt → pkt.has FLAG_PING = true → n < 4294967296 →
    v.win.nextSeq.toNat ≤ pkt.seqNum.toNat

section

variable {e : Env} {n : Nat} {gone : UInt32 → Prop} {cur : Option Packet} {v v' : View}

private theorem lt_of_ge (s : UInt32) (h : ¬ n < 4294967296) : s.toNat < n := by
  have := toNat_lt_size s
  omega

theorem gap_lt {win : Window} {s : UInt32} (hwf : win.RecvWF)
    (hheld : ∀ s pkt, win.held s = some pkt →
      s.toNat < n ∧ (n < 4294967296 → win.nextSeq.toNat ≤ s.toNat))
    (hsound : ∀ pkt, cur = some pkt → pkt.seqNum.toNat ≤ n)
    (hping : ∀ pkt, cur = some pkt → pkt.has FLAG_PING = true → n < 4294967296 →
      win.nextSeq.toNat ≤ pkt.seqNum.toNat)
    (hgap : Gap win cur s) : s.toNat < n := by
  by_cases hn : n < 4294967296
  · rcases hgap with hgap | ⟨pkt, hcur, hflag, -, -, hdist⟩
    · obtain ⟨rfl, hnone, later, hlater⟩ := (Window.recvNeedsNack_eq_some hwf).mp hgap
      obtain ⟨pkt, hpkt⟩ := Option.ne_none_iff_exists'.mp hlater
      obtain ⟨hlt, hle⟩ := hheld later pkt hpkt
      have hle := hle hn
      omega
    · have hle := hping pkt hcur hflag hn
      have hseq := hsound pkt hcur
      rw [dist_of_le hle, dist_def] at hdist
      have hs := toNat_lt_size s
      omega
  · exact lt_of_ge s hn

theorem Hears.mono {n' : Nat} {gone' : UInt32 → Prop} (h : Hears n gone v) (hn : n ≤ n')
    (hgone : ∀ s, gone s → gone' s) : Hears n' gone' v := by
  refine ⟨Nat.le_trans h.next hn, fun s pkt hs => ?_, fun hp => ?_, fun p path dest pkt hmem => ?_,
    fun p s hmem => hgone s (h.skips p s hmem)⟩
  · obtain ⟨hlt, hle⟩ := h.held s pkt hs
    exact ⟨by omega, fun hn' => hle (by omega)⟩
  · have := h.timer hp
    omega
  · obtain ⟨own, num, heq, hlt⟩ := h.nacks p path dest pkt hmem
    exact ⟨own, num, heq, by omega⟩

def isQuiet : Act → Bool
  | .send .. | .skip _ => false
  | _ => true

theorem Hears.of_quiet (h : Hears n gone v) (acts : List Act)
    (hquiet : ∀ act ∈ acts, isQuiet act = true) (hlog : v'.log = (v.emits acts).log)
    (hnext : v'.win.nextSeq.toNat ≤ n)
    (hheld : ∀ s pkt, v'.win.held s = some pkt →
      s.toNat < n ∧ (n < 4294967296 → v'.win.nextSeq.toNat ≤ s.toNat))
    (htimer : v'.pending = true → v'.nackNum.toNat < n) : Hears n gone v' := by
  refine ⟨hnext, hheld, htimer, fun p path dest pkt hmem => ?_, fun p s hmem => ?_⟩
  · rw [hlog, emits, List.mem_append] at hmem
    rcases hmem with hmem | hmem
    · exact h.nacks p path dest pkt hmem
    · obtain ⟨act, hact, heq⟩ := List.mem_map.mp hmem
      obtain rfl := (Prod.mk.inj heq).2
      exact absurd (hquiet _ hact) (by simp [isQuiet])
  · rw [hlog, emits, List.mem_append] at hmem
    rcases hmem with hmem | hmem
    · exact h.skips p s hmem
    · obtain ⟨act, hact, heq⟩ := List.mem_map.mp hmem
      obtain rfl := (Prod.mk.inj heq).2
      exact absurd (hquiet _ hact) (by simp [isQuiet])

theorem Hears.nacked (h : Hears n gone v) {seq : UInt32} (hseq : seq.toNat < n)
    (dests : List (Path × Endpoint)) : Hears n gone (v.nacked seq dests) := by
  refine ⟨h.next, h.held, h.timer, fun p path dest pkt hmem => ?_, fun p s hmem => ?_⟩
  · unfold View.nacked emits at hmem
    rcases List.mem_append.mp hmem with hmem | hmem
    · exact h.nacks p path dest pkt hmem
    · simp only [List.map_cons, List.mem_cons, Prod.mk.injEq, reduceCtorEq, and_false, false_or,
        List.map_map, List.mem_map, Function.comp_apply, Act.send.injEq] at hmem
      obtain ⟨d, -, -, -, -, rfl⟩ := hmem
      exact ⟨v.own, seq, rfl, hseq⟩
  · unfold View.nacked emits at hmem
    rcases List.mem_append.mp hmem with hmem | hmem
    · exact h.skips p s hmem
    · simp at hmem

private theorem dropNext_hears (hwf : v.win.RecvWF) (h : Hears n gone v)
    (hlt : v.win.nextSeq.toNat < n) :
    v.win.dropNext.nextSeq.toNat ≤ n ∧ ∀ s pkt, v.win.dropNext.held s = some pkt →
      s.toNat < n ∧ (n < 4294967296 → v.win.dropNext.nextSeq.toNat ≤ s.toNat) := by
  have hsucc := toNat_succ v.win.nextSeq
  refine ⟨by rw [Window.dropNext_nextSeq, hsucc]; omega, fun s pkt hs => ?_⟩
  rw [Window.dropNext_held hwf] at hs
  split at hs
  · simp at hs
  · rename_i hne
    obtain ⟨hsn, hle⟩ := h.held s pkt hs
    refine ⟨hsn, fun hn => ?_⟩
    have hne' : s.toNat ≠ v.win.nextSeq.toNat := fun heq => hne (UInt32.toNat_inj.mp heq)
    rw [Window.dropNext_nextSeq, hsucc]
    omega

private theorem push_ge (hadm : Admits e n gone cur) (hinv : Inv e v) (h : Hears n gone v)
    {pkt : Packet} {win : Window} (hcur : cur = some pkt) (hdata : pkt.has FLAG_DATA = true)
    (hpush : v.win.recvPush pkt = some win) (hn : n < 4294967296) :
    v.win.nextSeq.toNat ≤ pkt.seqNum.toNat := by
  have hin := Window.recvPush_in_window hinv.wf hpush
  have hfresh := hadm.fresh pkt hcur hdata hn
  have hnext := h.next
  rw [hinv.size, dist_def] at hin
  omega

private theorem push_held (hadm : Admits e n gone cur) (hinv : Inv e v) (h : Hears n gone v)
    {pkt : Packet} {win : Window} (hcur : cur = some pkt) (hdata : pkt.has FLAG_DATA = true)
    (hpush : v.win.recvPush pkt = some win) :
    ∀ s p, win.held s = some p →
      s.toNat < n ∧ (n < 4294967296 → win.nextSeq.toNat ≤ s.toNat) := by
  intro s p hs
  rw [Window.recvPush_nextSeq hpush]
  rw [Window.recvPush_held hinv.wf hpush] at hs
  split at hs
  · rename_i heq
    subst heq
    exact ⟨(hadm.sound pkt hcur).data hdata, push_ge hadm hinv h hcur hdata hpush⟩
  · exact h.held s p hs

theorem move_hears (hraw : e.type.isRawType = false) (hadm : Admits e n gone cur)
    (hinv : Inv e v) (hm : Move e cur v v') (h : Hears n gone v) (hahead : PingAhead n cur v) :
    Hears n gone v' ∧ PingAhead n cur v' := by
  have hseq : ∀ pkt, cur = some pkt → pkt.seqNum.toNat ≤ n := fun pkt hcur =>
    (hadm.sound pkt hcur).seq
  have hinit : ∀ (seq : UInt32) (s : UInt32) (pkt : Packet),
      (Window.init seq e.windowSize).held s = some pkt → s.toNat < n ∧
        (n < 4294967296 → (Window.init seq e.windowSize).nextSeq.toNat ≤ s.toNat) := by
    intro seq s pkt hs
    simp at hs
  cases hm with
  | sync alive evs hevs =>
    unfold synced callbackEmits
    split
    · refine ⟨h.of_quiet _ ?_ rfl h.next h.held h.timer, hahead⟩
      intro act hact
      obtain ⟨ev, -, rfl⟩ := List.mem_map.mp hact
      rfl
    · exact ⟨⟨h.next, h.held, h.timer, h.nacks, h.skips⟩, hahead⟩
  | adopt pkt hcur =>
    refine ⟨h.of_quiet [.adopt pkt.session pkt.seqNum] (by simp [isQuiet]) rfl (hseq pkt hcur)
      (hinit pkt.seqNum) (fun hp => by simp [adopted, emit, emits] at hp), ?_⟩
    intro pkt' hcur' _ _
    rw [hcur] at hcur'
    exact Nat.le_of_eq (congrArg (·.seqNum.toNat) (Option.some.inj hcur'))
  | push pkt win pending nackNum hcur _ hdata hping hknown hsession hpush htimer =>
    have hheld := push_held hadm hinv h hcur hdata hpush
    have hnext := Window.recvPush_nextSeq hpush
    refine ⟨h.of_quiet [.push pkt] (by simp [isQuiet]) rfl
      (by change win.nextSeq.toNat ≤ n; rw [hnext]; exact h.next) hheld fun hp => ?_, ?_⟩
    · obtain ⟨-, -, hgap⟩ := htimer hp
      exact gap_lt (Window.recvPush_wf hinv.wf hpush) hheld hseq
        (fun pkt' hcur' hp' hn' => by rw [hnext]; exact hahead pkt' hcur' hp' hn') hgap
    · intro pkt' hcur' hp' hn'
      change win.nextSeq.toNat ≤ _
      rw [hnext]
      exact hahead pkt' hcur' hp' hn'
  | timer pending nackNum htimer =>
    refine ⟨⟨h.next, h.held, fun hp => ?_, h.nacks, h.skips⟩, hahead⟩
    exact gap_lt hinv.wf h.held hseq hahead (htimer hp).2.2
  | nack seq dests hgap =>
    exact ⟨h.nacked (gap_lt hinv.wf h.held hseq hahead hgap) dests, hahead⟩
  | expire dests hpending =>
    have hoff : Hears n gone { v with pending := false } :=
      ⟨h.next, h.held, fun hp => by simp at hp, h.nacks, h.skips⟩
    exact ⟨hoff.nacked (h.timer hpending) dests, hahead⟩
  | pop pkt win hcur hpop =>
    obtain ⟨hhead, rfl⟩ := (Window.recvPop_eq_some hinv.wf).mp hpop
    obtain ⟨hnext, hheld⟩ := dropNext_hears hinv.wf h (h.held _ _ hhead).1
    obtain ⟨out, hout⟩ := popped_log pkt v.win.dropNext
    refine ⟨h.of_quiet (.pop pkt v.alive :: out.map fun data => .event (.data data)) ?_ ?_
      (by rw [popped_win]; exact hnext) (by rw [popped_win]; exact hheld) ?_, ?_⟩
    · intro act hact
      rcases List.mem_cons.mp hact with rfl | hact
      · rfl
      · obtain ⟨data, -, rfl⟩ := List.mem_map.mp hact
        rfl
    · rw [hout]
      simp [emit, emits, peerId]
    · rw [popped_pending, popped_nackNum]
      exact h.timer
    · intro pkt' hcur' hping hn
      obtain ⟨drained, hdrained, hkind⟩ := hcur
      obtain rfl := Option.some.inj (hdrained.symm.trans hcur')
      rcases hkind with hreject | ⟨-, hnoping⟩
      · simp [(hadm.sound drained hcur').ping hping] at hreject
      · simp [hping] at hnoping
  | skip pkt hcur hreject _ _ _ hnext =>
    have hgone := (hadm.sound pkt hcur).reject hreject
    obtain ⟨hnext', hheld⟩ := dropNext_hears hinv.wf h (hnext ▸ hadm.gone_lt _ hgone)
    refine ⟨⟨hnext', hheld, h.timer, fun p path dest pkt hmem => ?_, fun p s hmem => ?_⟩, ?_⟩
    · rcases List.mem_append.mp hmem with hmem | hmem
      · exact h.nacks p path dest pkt hmem
      · simp at hmem
    · rcases List.mem_append.mp hmem with hmem | hmem
      · exact h.skips p s hmem
      · simp only [List.map_cons, List.map_nil, List.mem_singleton, Prod.mk.injEq,
          Act.skip.injEq] at hmem
        rw [hmem.2]
        exact hgone
    · intro pkt' hcur' hping hn
      obtain rfl := Option.some.inj (hcur.symm.trans hcur')
      simp [(hadm.sound pkt hcur).ping hping] at hreject
  | reset pkt _ _ hraw' => simp [hraw] at hraw'
  | forget =>
    refine ⟨h.of_quiet [.forget] (by simp [isQuiet]) rfl ?_ (hinit 0) h.timer, ?_⟩
    · exact Nat.zero_le n
    · intro pkt _ _ _
      exact Nat.zero_le _
  | answer pkt dests hcur hnack =>
    simp [(hadm.sound pkt hcur).nack] at hnack
  | finAck target =>
    exact ⟨h.of_quiet [_] (by simp [isQuiet]) rfl h.next h.held h.timer, hahead⟩
  | _ => exact ⟨⟨h.next, h.held, h.timer, h.nacks, h.skips⟩, hahead⟩

end

-- The two sides together.

theorem Sound.mono {n n' : Nat} {gone gone' : UInt32 → Prop} {pkt : Packet}
    (h : Sound n gone pkt) (hn : n ≤ n') (hgone : ∀ s, gone s → gone' s) : Sound n' gone' pkt :=
  ⟨h.nack, Nat.le_trans h.seq hn, fun hd => Nat.lt_of_lt_of_le (h.data hd) hn, h.ping,
    fun hr => hgone _ (h.reject hr)⟩

theorem Sound.of_sameHeader {n : Nat} {gone : UInt32 → Prop} {pkt pkt' : Packet}
    (h : Sound n gone pkt) (hsame : pkt'.SameHeader pkt) : Sound n gone pkt' := by
  have hnack := hsame.has FLAG_NACK (by decide)
  have hdata := hsame.has FLAG_DATA (by decide)
  have hping := hsame.has FLAG_PING (by decide)
  have hreject := hsame.has FLAG_REJECT (by decide)
  refine ⟨hnack.trans h.nack, ?_, fun hd => ?_, fun hp => ?_, fun hr => ?_⟩
  · rw [hsame.seqNum]
    exact h.seq
  · rw [hsame.seqNum]
    exact h.data (hdata ▸ hd)
  · exact hreject.trans (h.ping (hping ▸ hp))
  · rw [hsame.ackNum]
    exact h.reject (hreject ▸ hr)

theorem Arrives.sameHeader {e e' : Env} {log : List (UInt32 × Act)} {pkt : Packet}
    (h : Arrives e e' log pkt) :
    ∃ p path dest sent, (p, Act.send path dest sent) ∈ log ∧ pkt.SameHeader sent := by
  obtain ⟨p, path, dest, sent, wired, hmem, hwire, hrecv⟩ := h
  refine ⟨p, path, dest, sent, hmem, (Packet.receive_sameHeader hrecv).trans ?_⟩
  unfold Packet.onWire at hwire
  split at hwire
  · exact Packet.sealAs_sameHeader hwire
  split at hwire
  · exact Packet.sealAs_sameHeader hwire
  · obtain rfl := Option.some.inj hwire
    exact ⟨rfl, rfl, rfl, rfl, fun _ _ => rfl⟩

structure Good (er : Env) (link : Link) : Prop where
  window : ∃ live, link.dataSent = link.evicted ++ live ∧
    link.sender.sendWindow.SendWF link.evicted live
  numbered : ∀ i (h : i < link.dataSent.length), link.dataSent[i].seqNum = UInt32.ofNat i
  container : ∀ pkt ∈ link.dataSent, pkt.has FLAG_DATA = true ∧ pkt.has FLAG_PING = false ∧
    pkt.has FLAG_NACK = false ∧ pkt.has FLAG_REJECT = false
  sent : ∀ p path dest pkt, (p, Act.send path dest pkt) ∈ link.sender.log →
    Sound link.dataSent.length link.Gone pkt
  senderPeer : link.sender.peer = none
  receiverPeer : link.receiver.peer = none
  ok : Slot.Ok er link.receiver
  hears : Hears link.dataSent.length link.Gone (link.receiver.view er)

section

variable {es er : Env} {link : Link}

private theorem seq_lt_of_mem (hnum : ∀ i (h : i < link.dataSent.length),
    link.dataSent[i].seqNum = UInt32.ofNat i) {pkt : Packet} (hpkt : pkt ∈ link.dataSent) :
    pkt.seqNum.toNat < link.dataSent.length := by
  obtain ⟨i, hi, rfl⟩ := List.mem_iff_getElem.mp hpkt
  rw [hnum i hi, UInt32.toNat_ofNat']
  exact Nat.lt_of_le_of_lt (Nat.mod_le _ _) hi

theorem Good.gone_lt (h : Good er link) {s : UInt32} (hs : link.Gone s) :
    s.toNat < link.dataSent.length := by
  obtain ⟨pkt, hpkt, -, rfl⟩ := hs
  exact seq_lt_of_mem h.numbered hpkt

theorem Good.gone_of_sendGet (h : Good er link) {s : UInt32}
    (hget : link.sender.sendWindow.sendGet s = none) (hs : s.toNat < link.dataSent.length) :
    link.Gone s := by
  obtain ⟨live, hsplit, hwf⟩ := h.window
  have hlen : link.dataSent.length = link.evicted.length + live.length := by
    rw [hsplit, List.length_append]
  have hlt : s.toNat < link.evicted.length := by
    by_contra hge
    rw [hwf.sendGet_eq, List.getElem?_eq_none_iff] at hget
    have hk : (UInt32.ofNat link.evicted.length).toNat = link.evicted.length :=
      UInt32.toNat_ofNat_of_lt' (by have := toNat_lt_size s; simp only [UInt32.size]; omega)
    rw [dist_of_le (by omega), hk] at hget
    omega
  have hmem : link.dataSent[s.toNat] = link.evicted[s.toNat] := by
    simp only [hsplit]
    exact List.getElem_append_left hlt
  refine ⟨link.evicted[s.toNat], hmem ▸ List.getElem_mem hs, List.getElem_mem hlt, ?_⟩
  rw [← hmem, h.numbered _ hs, UInt32.ofNat_toNat]

theorem good_opened (id id' : UInt32) (ts ts' : Timespec) (dest dest' : Path → Endpoint) :
    Good er ⟨Slot.opened es id ts dest, Slot.opened er id' ts' dest', [], []⟩ where
  window := ⟨[], rfl, Window.init_sendWF es.windowSize_pos es.windowSize_le⟩
  numbered := fun i h => absurd h (by simp)
  container := fun pkt h => absurd h (by simp)
  sent := fun p path dest pkt h => absurd h (by simp [Slot.opened])
  senderPeer := rfl
  receiverPeer := rfl
  ok := Slot.opened_ok id' ts' dest'
  hears := by
    refine ⟨Nat.zero_le _, fun s pkt hs => ?_, fun hp => ?_, fun p path dest pkt hmem => ?_,
      fun p s hmem => ?_⟩
    · exact absurd ((Window.held_init ..).symm.trans hs) (by simp)
    · simp [Slot.view, Slot.opened, PeerContext.empty] at hp
    · simp [Slot.view, Slot.opened] at hmem
    · simp [Slot.view, Slot.opened] at hmem

private theorem mem_emits_send {v : View} {dests : List (Path × Endpoint)} {sent pkt : Packet}
    {p : UInt32} {path : Path} {dest : Endpoint}
    (h : (p, Act.send path dest pkt) ∈ (v.emits (dests.map fun d => .send d.1 d.2 sent)).log) :
    (p, Act.send path dest pkt) ∈ v.log ∨ pkt = sent := by
  rcases List.mem_append.mp h with h | h
  · exact .inl h
  · simp only [List.map_map, List.mem_map, Function.comp_apply, Prod.mk.injEq,
      Act.send.injEq] at h
    obtain ⟨d, -, -, -, -, heq⟩ := h
    exact .inr heq.symm

private theorem mem_sendToDests {slot : Slot} {sent pkt : Packet} {p : UInt32} {path : Path}
    {dest : Endpoint} (h : (p, Act.send path dest pkt) ∈ (slot.sendToDests es sent).log) :
    (p, Act.send path dest pkt) ∈ slot.log ∨ pkt = sent := by
  obtain ⟨dests, hd⟩ := Slot.view_sendToDests (e := es) slot sent
  have hlog : (slot.sendToDests es sent).log = _ := congrArg View.log hd
  rw [hlog] at h
  exact mem_emits_send h

theorem good_data (h : Good er link) (packed : Bytes) :
    Good er (link.act es er (.data packed)) := by
  cases hbuilt : link.sender.packedContainer es packed with
  | none =>
    have hsame : link.act es er (.data packed) = link := by simp [act, hbuilt]
    rw [hsame]
    exact h
  | some outer =>
    have hact : link.act es er (.data packed) = { link with
        sender := link.sender.flushPacked es packed
        dataSent := link.dataSent ++ [outer]
        evicted := link.evicted ++ link.sender.sendWindow.evicts.toList } := by
      simp [act, hbuilt]
    rw [hact]
    obtain ⟨live, hsplit, hwf⟩ := h.window
    have hheader := Slot.packedContainer_header hbuilt
    have hflush : link.sender.flushPacked es packed = Slot.sendToDests es
        { link.sender with
          sendWindow := link.sender.sendWindow.sendPush outer, sendHasData := true } outer := by
      unfold Slot.flushPacked
      rw [hbuilt]
    obtain ⟨dests, hview⟩ := Slot.view_sendToDests (e := es)
      { link.sender with
        sendWindow := link.sender.sendWindow.sendPush outer, sendHasData := true } outer
    rw [← hflush] at hview
    have hnext : outer.seqNum = UInt32.ofNat link.dataSent.length := by
      rw [hheader.1, hwf.next_eq, hsplit, List.length_append]
    have hlen : (link.dataSent ++ [outer]).length = link.dataSent.length + 1 := by simp
    have hgone : ∀ s, link.Gone s → Gone { link with
        sender := link.sender.flushPacked es packed
        dataSent := link.dataSent ++ [outer]
        evicted := link.evicted ++ link.sender.sendWindow.evicts.toList } s := by
      rintro s ⟨pkt, hd, he, hs⟩
      exact ⟨pkt, List.mem_append_left _ hd, List.mem_append_left _ he, hs⟩
    have hnumbered : ∀ i (hi : i < (link.dataSent ++ [outer]).length),
        (link.dataSent ++ [outer])[i].seqNum = UInt32.ofNat i := by
      intro i hi
      by_cases hold : i < link.dataSent.length
      · rw [List.getElem_append_left hold]
        exact h.numbered i hold
      · obtain rfl : i = link.dataSent.length := by omega
        simpa using hnext
    have hseq : outer.seqNum.toNat < link.dataSent.length + 1 := by
      rw [hnext, UInt32.toNat_ofNat']
      exact Nat.lt_succ_of_le (Nat.mod_le _ _)
    refine ⟨?_, hnumbered, fun pkt hpkt => ?_, fun p path dest pkt hmem => ?_, ?_,
      h.receiverPeer, h.ok, h.hears.mono (by rw [hlen]; omega) hgone⟩
    · obtain ⟨live', hwf', heq⟩ := hwf.sendPush outer
      refine ⟨live', ?_, ?_⟩
      · rw [hsplit]
        exact heq
      · rw [show (link.sender.flushPacked es packed).sendWindow = _ from
          congrArg View.sendWindow hview]
        exact hwf'
    · rcases List.mem_append.mp hpkt with hpkt | hpkt
      · exact h.container pkt hpkt
      · rw [List.mem_singleton.mp hpkt]
        exact hheader.2
    · rw [show (link.sender.flushPacked es packed).log = _ from congrArg View.log hview] at hmem
      rcases mem_emits_send hmem with hmem | rfl
      · exact (h.sent p path dest pkt hmem).mono (by rw [hlen]; omega) hgone
      · refine ⟨hheader.2.2.2.1, ?_, fun _ => ?_, fun hp => ?_, fun hr => ?_⟩
        · rw [hlen]
          omega
        · rw [hlen]
          exact hseq
        · simp [hheader.2.2.1] at hp
        · simp [hheader.2.2.2.2] at hr
    · rw [show (link.sender.flushPacked es packed).peer = _ from congrArg View.peer hview]
      exact h.senderPeer

private theorem good_sender (h : Good er link) {sender : Slot}
    (hwin : sender.sendWindow = link.sender.sendWindow) (hpeer : sender.peer = none)
    (hsent : ∀ p path dest pkt, (p, Act.send path dest pkt) ∈ sender.log →
      (p, Act.send path dest pkt) ∈ link.sender.log ∨
        Sound link.dataSent.length link.Gone pkt) :
    Good er { link with sender := sender } := by
  refine ⟨?_, h.numbered, h.container, fun p path dest pkt hmem => ?_, hpeer, h.receiverPeer, h.ok,
    h.hears⟩
  · rw [hwin]
    exact h.window
  · rcases hsent p path dest pkt hmem with hmem | hsound
    · exact h.sent p path dest pkt hmem
    · exact hsound

theorem good_ping (h : Good er link) (healthStates : Bytes) :
    Good er (link.act es er (.ping healthStates)) := by
  obtain ⟨live, hsplit, hwf⟩ := h.window
  change Good er { link with sender := link.sender.sendPing es healthStates }
  cases hsealed : (Packet.buildPing (link.sender.ownSessionHdr es) link.sender.sendWindow.nextSeq
    healthStates).sealData es with
  | none =>
    have hsame : link.sender.sendPing es healthStates = link.sender := by
      simp [Slot.sendPing, hsealed]
    rw [hsame]
    exact h
  | some ping =>
    have hsend : link.sender.sendPing es healthStates = link.sender.sendToDests es ping := by
      simp [Slot.sendPing, hsealed]
    have hhas : ∀ flag : UInt16, flag &&& FLAG_ENCRYPTED = 0 →
        ping.has flag = (FLAG_PING &&& flag != 0) := Packet.sealed_has hsealed rfl
    have hseq : ping.seqNum.toNat ≤ link.dataSent.length := by
      rw [(Packet.sealAs_sameHeader hsealed).seqNum]
      change link.sender.sendWindow.nextSeq.toNat ≤ _
      rw [hwf.next_eq, hsplit, List.length_append, UInt32.toNat_ofNat']
      exact Nat.mod_le _ _
    obtain ⟨dests, hview⟩ := Slot.view_sendToDests (e := es) link.sender ping
    rw [hsend]
    refine good_sender h (congrArg View.sendWindow hview)
      ((congrArg View.peer hview).trans h.senderPeer) fun p path dest pkt hmem => ?_
    rcases mem_sendToDests hmem with hmem | rfl
    · exact .inl hmem
    · have hnack := hhas FLAG_NACK (by decide)
      have hdata := hhas FLAG_DATA (by decide)
      have hreject := hhas FLAG_REJECT (by decide)
      refine .inr ⟨hnack, hseq, fun hd => ?_, fun _ => hreject, fun hr => ?_⟩
      · rw [hdata] at hd
        exact absurd hd (by decide)
      · rw [hreject] at hr
        exact absurd hr (by decide)

private theorem step_nack {slot : Slot} {pkt : Packet} (path : Path) (source : Endpoint)
    (hrole : es.role = .sender) (hraw : es.type.isRawType = false) (hpeer : slot.peer = none)
    (hfin : pkt.has FLAG_FIN = false) (hnack : pkt.has FLAG_NACK = true) :
    slot.step es (.packet path source pkt) = slot ∨
      slot.step es (.packet path source pkt) = (slot.emit (.recv pkt)).onNack es pkt := by
  by_cases hpath : es.nPath ≤ path.val
  · exact .inl (if_pos hpath)
  · right
    have hpeer' : ((slot.emit (.recv pkt)).onNack es pkt).peer = none := by
      rcases Slot.view_onNack (e := es) (slot.emit (.recv pkt)) pkt with hv | ⟨-, dests, hv⟩
      · exact (congrArg View.peer hv).trans hpeer
      · exact (congrArg View.peer hv).trans hpeer
    simp [Slot.step, hpath, hrole, Slot.senderHandlePacket, hraw, Slot.dispatchPacket, hfin, hnack,
      hpeer']

theorem good_toSender (h : Good er link) (hrole : es.role = .sender)
    (hraw : es.type.isRawType = false) (path : Path) (source : Endpoint) {pkt : Packet}
    (harrives : Arrives er es link.receiver.log pkt) :
    Good er (link.act es er (.toSender path source pkt)) := by
  change Good er { link with sender := link.sender.step es (.packet path source pkt) }
  obtain ⟨p, path', dest, sent, hmem, hsame⟩ := harrives.sameHeader
  obtain ⟨own, num, rfl, hnum⟩ := h.hears.nacks p path' dest sent hmem
  have hhas : ∀ flag : UInt16, flag &&& FLAG_ENCRYPTED = 0 →
      pkt.has flag = (FLAG_NACK &&& flag != 0) := fun flag hflag =>
    (hsame.has flag hflag).trans (Packet.has_of_flags rfl flag)
  have hfin : pkt.has FLAG_FIN = false := hhas FLAG_FIN (by decide)
  have hnack : pkt.has FLAG_NACK = true := hhas FLAG_NACK (by decide)
  have hack : pkt.ackNum = num := hsame.ackNum
  rcases step_nack path source hrole hraw h.senderPeer hfin hnack with heq | heq
  · rw [heq]
    exact h
  rw [heq]
  have hsound : Sound link.dataSent.length link.Gone
      (((link.sender.emit (.recv pkt)).view es).answer pkt.ackNum) := by
    change Sound _ _ ((link.sender.sendWindow.sendGet pkt.ackNum).getD _)
    rw [hack]
    cases hget : link.sender.sendWindow.sendGet num with
    | none =>
      rw [Option.getD_none]
      have hhas : ∀ flag : UInt16, (Packet.buildReject
          ((link.sender.emit (.recv pkt)).view es).own num).has flag =
            (FLAG_REJECT &&& flag != 0) := Packet.has_of_flags rfl
      refine ⟨hhas FLAG_NACK, Nat.zero_le _, fun hd => ?_, fun hp => ?_,
        fun _ => h.gone_of_sendGet hget hnum⟩
      · rw [hhas] at hd
        exact absurd hd (by decide)
      · rw [hhas] at hp
        exact absurd hp (by decide)
    | some resend =>
      obtain ⟨live, hsplit, hwf⟩ := h.window
      rw [hwf.sendGet_eq] at hget
      have hmem : resend ∈ link.dataSent :=
        hsplit ▸ List.mem_append_right _ (List.mem_of_getElem? hget)
      obtain ⟨hdata, hping, hnack', hreject⟩ := h.container resend hmem
      have hlt := seq_lt_of_mem h.numbered hmem
      exact ⟨hnack', Nat.le_of_lt hlt, fun _ => hlt, fun hp => absurd hp (by simp [hping]),
        fun hr => absurd hr (by simp [hreject])⟩
  rcases Slot.view_onNack (e := es) (link.sender.emit (.recv pkt)) pkt with hv | ⟨-, dests, hv⟩
  · refine good_sender h (congrArg View.sendWindow hv)
      ((congrArg View.peer hv).trans h.senderPeer) fun p path dest q hmem => .inl ?_
    rw [show ((link.sender.emit (.recv pkt)).onNack es pkt).log = _ from congrArg View.log hv] at hmem
    rcases List.mem_append.mp hmem with hmem | hmem
    · exact hmem
    · simp at hmem
  · refine good_sender h (congrArg View.sendWindow hv)
      ((congrArg View.peer hv).trans h.senderPeer) fun p path dest q hmem => ?_
    rw [show ((link.sender.emit (.recv pkt)).onNack es pkt).log = _ from congrArg View.log hv] at hmem
    rcases mem_emits_send hmem with hmem | rfl
    · rcases List.mem_append.mp hmem with hmem | hmem
      · exact .inl hmem
      · simp at hmem
    · exact .inr hsound

private theorem good_receiver (h : Good er link) (hlex : er.plat.CmpLex)
    (hraw : er.type.isRawType = false) (input : Slot.Input)
    (hadm : Admits er link.dataSent.length link.Gone input.cur)
    (hahead : PingAhead link.dataSent.length input.cur (link.receiver.view er)) :
    Good er { link with receiver := link.receiver.step er input } := by
  refine ⟨h.window, h.numbered, h.container, h.sent, h.senderPeer,
    Slot.step_peer hlex h.receiverPeer h.ok input,
    (Slot.step_moves hlex h.receiverPeer h.ok input).2, ?_⟩
  refine (Slot.step_preserves hlex
    (P := fun v => Hears link.dataSent.length link.Gone v ∧
      PingAhead link.dataSent.length input.cur v)
    (fun v _ hv => ⟨hv.1.of_quiet [input.note] ?_ rfl hv.1.next hv.1.held hv.1.timer, hv.2⟩)
    (fun v v' hinv hm hv => move_hears hraw hadm hinv hm hv.1 hv.2) h.receiverPeer h.ok
    ⟨h.hears, hahead⟩).1
  cases input <;> simp [Slot.Input.note, isQuiet]

theorem good_toReceiver (h : Good er link) (hlex : er.plat.CmpLex)
    (hraw : er.type.isRawType = false) (path : Path) (source : Endpoint) {pkt : Packet}
    (harrives : Arrives es er link.sender.log pkt)
    (htimely : Timely er link (.toReceiver path source pkt)) :
    Good er (link.act es er (.toReceiver path source pkt)) := by
  obtain ⟨p, path', dest, sent, hmem, hsame⟩ := harrives.sameHeader
  have hsound := (h.sent p path' dest sent hmem).of_sameHeader hsame
  refine good_receiver h hlex hraw (.packet path source pkt) ⟨?_, ?_, fun s hs => h.gone_lt hs⟩ ?_
  · intro q hq
    obtain rfl := Option.some.inj hq
    exact hsound
  · intro q hq hdata hn
    obtain rfl := Option.some.inj hq
    exact (htimely hn).2 hdata
  · intro q hq hping hn
    obtain rfl := Option.some.inj hq
    exact (htimely hn).1 hping

theorem good_poll (h : Good er link) (hlex : er.plat.CmpLex) (hraw : er.type.isRawType = false) :
    Good er (link.act es er .poll) := by
  refine good_receiver h hlex hraw .pollTimeout ⟨?_, ?_, fun s hs => h.gone_lt hs⟩ ?_
  · intro q hq
    simp [Slot.Input.cur] at hq
  · intro q hq
    simp [Slot.Input.cur] at hq
  · intro q hq
    simp [Slot.Input.cur] at hq

theorem reachable_good (hlex : er.plat.CmpLex) (hrole : es.role = .sender)
    (hraw : er.type.isRawType = false) (htype : es.type = er.type)
    (h : Reachable es er (Timely er) link) : Good er link := by
  induction h with
  | opened => exact good_opened ..
  | step link action _ henabled htimely ih =>
    cases action with
    | data packed => exact good_data ih packed
    | ping healthStates => exact good_ping ih healthStates
    | toSender path source pkt =>
      exact good_toSender ih hrole (htype ▸ hraw) path source henabled
    | toReceiver path source pkt =>
      exact good_toReceiver ih hlex hraw path source henabled htimely
    | poll => exact good_poll ih hlex hraw

end

end Link

-- In a run without PINGs that come too late, every number the receiver skips was given to a DATA
-- packet and has left the send window.
theorem reject_skips_only_evicted (es er : Env) (hlex : er.plat.CmpLex)
    (hrole : es.role = .sender) (hraw : er.type.isRawType = false) (htype : es.type = er.type)
    (link : Link) (h : Link.Reachable es er (Link.Timely er) link) : link.SkipsOnlyGone :=
  (Link.reachable_good hlex hrole hraw htype h).hears.skips

namespace Link

def sample (type : PotrType) : Link :=
  ⟨Slot.sample (Env.sampleSender type), Slot.sample (Env.sample type), [], []⟩

def sampleHdr (e : Env) : PacketSessionHdr := (Slot.sample e).ownSessionHdr e

def sampleBody : Bytes := Elem.encode ⟨0, [7]⟩

def sampleContainer (seqNum : UInt32) : Packet :=
  { Packet.fillSessionHdr (sampleHdr (Env.sampleSender .unicastBidir)) with
    seqNum := seqNum, flags := FLAG_DATA, payload := sampleBody }

-- Number 0 arrives, 1 and 2 are lost and 3 shows the gap when 1 has left the send window.
def evictedRun : List Action :=
  [.data sampleBody, .toReceiver 0 .source (sampleContainer 0), .data sampleBody,
    .data sampleBody, .data sampleBody, .toReceiver 0 .source (sampleContainer 3),
    .toSender 0 .target (Packet.buildNack (sampleHdr (Env.sample .unicastBidir)) 1),
    .toReceiver 0 .source (Packet.buildReject (sampleHdr (Env.sampleSender .unicastBidir)) 1)]

-- A PING sent before DATA 0 arrives after it.
def latePingRun : List Action :=
  [.ping [1, 1, 0, 0], .data sampleBody, .toReceiver 0 .source (sampleContainer 0),
    .toReceiver 0 .source
      (Packet.buildPing (sampleHdr (Env.sampleSender .unicastBidir)) 0 [1, 1, 0, 0]),
    .toSender 0 .target (Packet.buildNack (sampleHdr (Env.sample .unicastBidir)) 1),
    .toReceiver 0 .source (Packet.buildReject (sampleHdr (Env.sampleSender .unicastBidir)) 1)]

end Link

theorem reject_skips_only_evicted_sample :
    (Link.evictedRun.foldl (Link.act (Env.sampleSender .unicastBidir) (Env.sample .unicastBidir))
      (Link.sample .unicastBidir)).SkipsOnlyGone :=
  reject_skips_only_evicted (Env.sampleSender .unicastBidir) (Env.sample .unicastBidir)
    Cplat.reference_cmpLex rfl rfl rfl _
    ((Link.Reachable.opened ..).run Link.evictedRun (by decide +kernel))

-- The late PING makes the receiver ask for 1, which is not in use; the sender rejects it and the
-- receiver skips it.
theorem late_ping_skips_unused :
    ∃ link, Link.Reachable (Env.sampleSender .unicastBidir) (Env.sample .unicastBidir) (fun _ _ => True) link ∧
      link.dataSent.length = 1 ∧ ¬ link.SkipsOnlyGone :=
  ⟨Link.latePingRun.foldl (Link.act (Env.sampleSender .unicastBidir) (Env.sample .unicastBidir))
    (Link.sample .unicastBidir), (Link.Reachable.opened ..).run Link.latePingRun (by decide +kernel),
    by decide +kernel, by decide +kernel⟩

end Porter
