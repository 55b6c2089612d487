import Porter.Lib.Trace
import Porter.Moves.Peers
import Porter.Platform

namespace Porter

open View

def Act.isDisconnected : Act → Bool
  | .event .disconnected => true
  | _ => false

-- The packet an entry hands to the application: popped while connected, with a callback to
-- hand it to.
def handed (e : Env) : UInt32 × Act → Option Packet
  | (_, .pop pkt true) => if e.callback then some pkt else none
  | _ => none

-- Two packets of a session that are handed over one after the other, without a DISCONNECTED
-- of the first one's peer between them, have successive numbers.
def NoSilentLoss (e : Env) (log : List (UInt32 × Act)) : Prop :=
  ∀ pre x mid y post a b, log = pre ++ x :: mid ++ y :: post →
    handed e x = some a → handed e y = some b → a.session = b.session →
    (∀ z ∈ mid, ∀ c, handed e z = some c → c.session ≠ a.session) →
    (∀ z ∈ mid, z.1 = x.1 → z.2.isDisconnected = false) →
    b.seqNum = a.seqNum + 1

-- For one session: the peer and the number of an entry that hands a packet of it over.
def handedIn (e : Env) (session : SessionHdr) (x : UInt32 × Act) : Option (UInt32 × UInt32) :=
  (handed e x).bind fun pkt => if pkt.session = session then some (x.1, pkt.seqNum) else none

def cutBy (b : UInt32 × UInt32) (x : UInt32 × Act) : Bool := x.1 = b.1 && x.2.isDisconnected

-- The last packet of a session that was handed over, if its peer was not disconnected since.
def lastHanded (e : Env) (session : SessionHdr) (log : List (UInt32 × Act)) :
    Option (UInt32 × UInt32) :=
  Trace.last (handedIn e session) cutBy log

abbrev Consecutive (e : Env) (session : SessionHdr) (log : List (UInt32 × Act)) : Prop :=
  Trace.Linked (handedIn e session) cutBy (fun a b => b.2 = a.2 + 1) log

section

variable {e : Env} {cur : Option Packet} {v v' : View}

theorem handedIn_eq_some {session : SessionHdr} {x : UInt32 × Act} {b : UInt32 × UInt32} :
    handedIn e session x = some b ↔
      ∃ pkt, handed e x = some pkt ∧ pkt.session = session ∧ b = (x.1, pkt.seqNum) := by
  unfold handedIn
  cases handed e x with
  | none => simp
  | some pkt =>
    by_cases h : pkt.session = session
    · simp [h, eq_comm]
    · simp [h]

theorem handedIn_eq_none {session : SessionHdr} {x : UInt32 × Act} :
    handedIn e session x = none ↔ ∀ pkt, handed e x = some pkt → pkt.session ≠ session := by
  unfold handedIn
  cases handed e x with
  | none => simp
  | some pkt => simp

theorem noSilentLoss_of_consecutive {log : List (UInt32 × Act)}
    (h : ∀ session, Consecutive e session log) : NoSilentLoss e log := by
  intro pre x mid y post a b hlog hx hy hsession hmid hcut
  refine h a.session pre x mid y post (x.1, a.seqNum) (y.1, b.seqNum) hlog ?_ ?_ fun z hz => ?_
  · exact handedIn_eq_some.mpr ⟨a, hx, rfl, rfl⟩
  · exact handedIn_eq_some.mpr ⟨b, hy, hsession.symm, rfl⟩
  · refine ⟨handedIn_eq_none.mpr (hmid z hz), ?_⟩
    by_cases hpeer : z.1 = x.1
    · simp [cutBy, hcut z hz hpeer]
    · simp [cutBy, hpeer]

-- Entries that neither hand over a packet nor disconnect a peer.
def Act.isNeutral : Act → Bool
  | .pop _ true => false
  | .event .disconnected => false
  | _ => true

theorem handedIn_of_neutral {session : SessionHdr} {p : UInt32} {act : Act}
    (h : act.isNeutral = true) : handedIn e session (p, act) = none := by
  rw [handedIn_eq_none]
  intro pkt hpkt
  unfold handed at hpkt
  split at hpkt
  · rename_i heq
    obtain ⟨-, rfl⟩ := Prod.mk.inj heq
    simp [Act.isNeutral] at h
  · simp at hpkt

theorem cutBy_of_neutral {b : UInt32 × UInt32} {p : UInt32} {act : Act}
    (h : act.isNeutral = true) : cutBy b (p, act) = false := by
  unfold cutBy Act.isDisconnected
  cases act with
  | event ev => cases ev <;> simp [Act.isNeutral] at h ⊢
  | _ => simp

theorem lastHanded_emits (session : SessionHdr) {acts : List Act}
    (h : ∀ act ∈ acts, act.isNeutral = true) :
    lastHanded e session (v.emits acts).log = lastHanded e session v.log := by
  refine Trace.last_append_neutral fun x hx => ?_
  obtain ⟨act, hact, rfl⟩ := List.mem_map.mp hx
  exact ⟨handedIn_of_neutral (h act hact), fun b => cutBy_of_neutral (h act hact)⟩

theorem consecutive_emits {session : SessionHdr} {acts : List Act}
    (hv : Consecutive e session v.log) (h : ∀ act ∈ acts, act.isNeutral = true) :
    Consecutive e session (v.emits acts).log := by
  refine hv.append_neutral fun x hx => ?_
  obtain ⟨act, hact, rfl⟩ := List.mem_map.mp hx
  exact handedIn_of_neutral (h act hact)

theorem handed_of_no_callback (h : e.callback = false) (x : UInt32 × Act) : handed e x = none := by
  unfold handed
  split
  · simp [h]
  · rfl

theorem lastHanded_of_no_callback (h : e.callback = false) (session : SessionHdr)
    (log : List (UInt32 × Act)) : lastHanded e session log = none := by
  have hnone : ∀ x, handedIn e session x = none := fun x => by
    simp [handedIn, handed_of_no_callback h]
  unfold lastHanded
  induction log using List.reverseRecOn with
  | nil => rfl
  | append_singleton rest x ih => rw [Trace.last_concat_quiet (hnone x), ih, Option.filter_none]

theorem lastHanded_pop {session : SessionHdr} {pkt : Packet} (hcallback : e.callback = true)
    (hsession : pkt.session = session) :
    lastHanded e session (v.emit (.pop pkt true)).log = some (v.peerId, pkt.seqNum) :=
  Trace.last_concat_start (handedIn_eq_some.mpr ⟨pkt, by simp [handed, hcallback], hsession, rfl⟩)

theorem lastHanded_pop_other {session : SessionHdr} {pkt : Packet}
    (hsession : pkt.session ≠ session) :
    lastHanded e session (v.emit (.pop pkt true)).log = lastHanded e session v.log := by
  have hnone : handedIn e session (v.peerId, .pop pkt true) = none := by
    rw [handedIn_eq_none]
    intro a ha
    unfold handed at ha
    simp only [ite_eq_iff] at ha
    rcases ha with ⟨-, ha⟩ | ⟨-, ha⟩
    · exact Option.some.inj ha ▸ hsession
    · simp at ha
  refine (Trace.last_concat_quiet hnone).trans ?_
  cases h : Trace.last (handedIn e session) cutBy v.log with
  | none => simp [lastHanded, h]
  | some b => simp [lastHanded, h, cutBy, Act.isDisconnected]

theorem lastHanded_disconnected {session : SessionHdr} {p s : UInt32}
    (h : lastHanded e session (v.emit (.event .disconnected)).log = some (p, s)) :
    p ≠ v.peerId ∧ lastHanded e session v.log = some (p, s) := by
  have hnone : handedIn e session (v.peerId, .event .disconnected) = none :=
    handedIn_eq_none.mpr fun _ ha => by simp [handed] at ha
  have heq : ((lastHanded e session v.log).filter
      fun b => !cutBy b (v.peerId, .event .disconnected)) = some (p, s) :=
    (Trace.last_concat_quiet hnone).symm.trans h
  obtain ⟨hlast, hkeep⟩ := Option.filter_eq_some_iff.mp heq
  refine ⟨fun hp => ?_, hlast⟩
  simp [cutBy, Act.isDisconnected, hp] at hkeep

-- Sessions are ordered by start time, then by id.
def SessionHdr.Before (e : Env) (a b : SessionHdr) : Prop :=
  0 < e.plat.timespecCmp b.ts a.ts ∨ e.plat.timespecCmp b.ts a.ts = 0 ∧ a.id < b.id

theorem SessionHdr.before_iff (hlex : e.plat.CmpLex) {a b : SessionHdr} :
    a.Before e b ↔ a.Precedes b := by
  unfold SessionHdr.Before SessionHdr.Precedes
  rw [hlex.pos, hlex.eq_zero, eq_comm (a := b.ts)]

theorem SessionHdr.Before.irrefl (hlex : e.plat.CmpLex) {a : SessionHdr} : ¬ a.Before e a := by
  rw [SessionHdr.before_iff hlex]
  exact Precedes.irrefl a

theorem SessionHdr.Before.trans (hlex : e.plat.CmpLex) {a b c : SessionHdr}
    (hab : a.Before e b) (hbc : b.Before e c) : a.Before e c := by
  rw [SessionHdr.before_iff hlex] at *
  exact hab.trans hbc

namespace View

-- The receiver is connected to `session` right behind number `s`, or it has gone on to a
-- later session since it handed `s` over.
def Follows (e : Env) (v : View) (session : SessionHdr) (s : UInt32) : Prop :=
  v.alive = true ∧ v.known = true ∧
    (session = v.session ∧ v.win.nextSeq = s + 1 ∨ v.peer = none ∧ session.Before e v.session)

-- The slot under `v` shares its log with other slots; `other session p s` says that peer `p`
-- of another slot tracks `session` right behind `s`.
structure Continuous (e : Env) (cur : Option Packet)
    (other : SessionHdr → UInt32 → UInt32 → Prop) (v : View) : Prop where
  consecutive : ∀ session, Consecutive e session v.log
  held : ∀ seq pkt, v.win.held seq = some pkt → v.known = true ∧ pkt.session = v.session
  own : ∀ pkt, cur = some pkt → v.peer ≠ none → v.known = true → v.session = pkt.session
  apart : ∀ session p s, other session p s → v.known = true → session ≠ v.session
  last : ∀ session p s, lastHanded e session v.log = some (p, s) →
    p ≠ v.peerId ∧ other session p s ∨ p = v.peerId ∧ v.Follows e session s

variable {other : SessionHdr → UInt32 → UInt32 → Prop}

theorem Continuous.of_neutral (h : v.Continuous e cur other) (acts : List Act)
    (hneutral : ∀ act ∈ acts, act.isNeutral = true) (hlog : v'.log = (v.emits acts).log)
    (hpeer : v'.peer = v.peer)
    (hheld : ∀ seq pkt, v'.win.held seq = some pkt → v'.known = true ∧ pkt.session = v'.session)
    (hown : ∀ pkt, cur = some pkt → v.peer ≠ none → v'.known = true → v'.session = pkt.session)
    (hapart : ∀ session p s, other session p s → v'.known = true → session ≠ v'.session)
    (hfollows : ∀ session s, v.Follows e session s → v'.Follows e session s) :
    v'.Continuous e cur other := by
  have hid : v'.peerId = v.peerId := congrArg (·.getD PEER_NA) hpeer
  refine ⟨fun session => ?_, hheld, fun pkt hcur hne => hown pkt hcur (hpeer ▸ hne), hapart,
    fun session p s hlast => ?_⟩
  · rw [hlog]
    exact consecutive_emits (h.consecutive session) hneutral
  · rw [hlog, lastHanded_emits session hneutral] at hlast
    rw [hid]
    rcases h.last session p s hlast with hother | ⟨hp, hf⟩
    · exact .inl hother
    · exact .inr ⟨hp, hfollows session s hf⟩

theorem Continuous.of_emits (h : v.Continuous e cur other) (acts : List Act)
    (hneutral : ∀ act ∈ acts, act.isNeutral = true) (hlog : v'.log = (v.emits acts).log)
    (hpeer : v'.peer = v.peer) (hknown : v'.known = v.known) (hsession : v'.session = v.session)
    (hwin : v'.win = v.win) (halive : v'.alive = v.alive) : v'.Continuous e cur other := by
  refine h.of_neutral acts hneutral hlog hpeer ?_ ?_ ?_ ?_
  · rw [hwin, hknown, hsession]
    exact h.held
  · rw [hknown, hsession]
    exact h.own
  · rw [hknown, hsession]
    exact h.apart
  · intro session s hf
    unfold Follows at *
    rwa [halive, hknown, hsession, hwin, hpeer]

theorem not_follows_of_dead (hdead : v.alive = false) {session : SessionHdr} {s : UInt32} :
    ¬ v.Follows e session s := fun hf => by simp [hf.1] at hdead

private theorem neutral_of_path {evs : List Event} (h : ∀ ev ∈ evs, ev.isPath = true) :
    ∀ act ∈ evs.map Act.event, act.isNeutral = true := by
  intro act hact
  obtain ⟨ev, hev, rfl⟩ := List.mem_map.mp hact
  have hpath := h ev hev
  cases ev <;> simp [Event.isPath, Act.isNeutral] at hpath ⊢

private theorem Continuous.sync (h : v.Continuous e cur other) (alive : Bool) {evs : List Event}
    (hevs : ∀ ev ∈ evs, ev.isPath = true) : (v.synced e alive evs).Continuous e cur other := by
  have hpath := neutral_of_path hevs
  unfold synced callbackEmits
  split
  · by_cases hcut : v.alive = true ∧ alive = false
    · obtain ⟨halive, rfl⟩ := hcut
      have hoff : Event.ofAlive v.alive false = [.disconnected] := by simp [Event.ofAlive, halive]
      -- First the path events, as if still connected, then the DISCONNECTED.
      have hsplit : emits { v with alive := false }
          ((evs ++ Event.ofAlive v.alive false).map Act.event) =
          emit { v.emits (evs.map Act.event) with alive := false } (.event .disconnected) := by
        simp [hoff, emit, emits, peerId]
      rw [hsplit]
      have hmid : (v.emits (evs.map Act.event)).Continuous e cur other :=
        h.of_emits _ hpath rfl rfl rfl rfl rfl rfl
      refine ⟨fun session => ?_, hmid.held, hmid.own, hmid.apart, fun session p s hlast => ?_⟩
      · refine (hmid.consecutive session).concat fun b c _ hc => ?_
        obtain ⟨pkt, hpkt, -⟩ := handedIn_eq_some.mp hc
        simp [handed] at hpkt
      · obtain ⟨hp, hlast'⟩ := lastHanded_disconnected hlast
        rcases hmid.last session p s hlast' with hother | ⟨heq, -⟩
        · exact .inl hother
        · exact absurd heq hp
    · have hneutral : ∀ act ∈ (evs ++ Event.ofAlive v.alive alive).map Act.event,
          act.isNeutral = true := by
        intro act hact
        rw [List.map_append, List.mem_append] at hact
        rcases hact with hact | hact
        · exact hpath act hact
        · obtain ⟨ev, hev, rfl⟩ := List.mem_map.mp hact
          cases hv : v.alive <;> cases alive <;> simp_all [Event.ofAlive, Act.isNeutral]
      refine h.of_neutral _ hneutral rfl rfl h.held h.own h.apart fun session s hf => ?_
      have halive : alive = true := by
        by_contra hne
        exact hcut ⟨hf.1, by simpa using hne⟩
      exact ⟨halive, hf.2⟩
  · rename_i hcallback
    refine ⟨h.consecutive, h.held, h.own, h.apart, fun session p s hlast => ?_⟩
    have hnone := lastHanded_of_no_callback (by simpa using hcallback) session v.log
    exact absurd (hnone.symm.trans hlast) (by simp)

private theorem Continuous.adopt (hlex : e.plat.CmpLex) (h : v.Continuous e cur other)
    {pkt : Packet} (hcur : cur = some pkt) (hnew : v.known = false ∨ v.newer e pkt)
    (hother : ∀ session p s, other session p s → session ≠ pkt.session) :
    (v.adopted e pkt).Continuous e cur other := by
  refine h.of_neutral [.adopt pkt.session pkt.seqNum] (by simp [Act.isNeutral]) rfl rfl
    (fun seq p hheld => ?_) (fun pkt' hcur' _ _ => ?_) (fun session p s ho _ => hother session p s ho)
    fun session s hf => ?_
  · exact absurd ((Window.held_init ..).symm.trans hheld) (by simp)
  · rw [hcur] at hcur'
    exact congrArg Packet.session (Option.some.inj hcur')
  · obtain ⟨halive, hknown, hpos⟩ := hf
    have hafter : v.session.Before e pkt.session := by
      rcases hnew with hnew | hnew
      · simp [hknown] at hnew
      · exact hnew
    refine ⟨halive, rfl, .inr ?_⟩
    rcases hpos with ⟨rfl, -⟩ | ⟨hpeer, hbefore⟩
    · refine ⟨?_, hafter⟩
      by_contra hpeer
      exact SessionHdr.Before.irrefl hlex (h.own pkt hcur hpeer hknown ▸ hafter)
    · exact ⟨hpeer, hbefore.trans hlex hafter⟩

private theorem Continuous.pop (hlex : e.plat.CmpLex) (h : v.Continuous e cur other)
    (hinv : Inv e v) {pkt : Packet} {win : Window} (hpop : v.win.recvPop = some (pkt, win)) :
    (v.popped e pkt win).Continuous e cur other := by
  obtain ⟨hhead, rfl⟩ := (Window.recvPop_eq_some hinv.wf).mp hpop
  obtain ⟨hknown, hsession⟩ := h.held _ _ hhead
  have hseq : pkt.seqNum = v.win.nextSeq := hinv.wf.labelled _ _ hhead
  have hheld : ∀ seq p, v.win.dropNext.held seq = some p →
      v.known = true ∧ p.session = v.session := by
    intro seq p hp
    rw [Window.dropNext_held hinv.wf] at hp
    split at hp
    · simp at hp
    · exact h.held seq p hp
  -- What was handed over before in this session is the number right before this one.
  have hlink : ∀ p s, lastHanded e pkt.session v.log = some (p, s) →
      p = v.peerId ∧ v.alive = true ∧ v.win.nextSeq = s + 1 := by
    intro p s hlast
    rcases h.last _ p s hlast with ⟨-, hother⟩ | ⟨hp, halive, -, ⟨-, hnext⟩ | ⟨-, hbefore⟩⟩
    · exact absurd hsession (h.apart _ p s hother hknown)
    · exact ⟨hp, halive, hnext⟩
    · exact absurd (hsession ▸ hbefore) (SessionHdr.Before.irrefl hlex)
  have hmid : (emit { v with win := v.win.dropNext } (.pop pkt v.alive)).Continuous e cur other := by
    cases halive : v.alive with
    | false =>
      refine h.of_neutral [.pop pkt false] (by simp [Act.isNeutral]) rfl rfl hheld h.own h.apart
        fun session s hf => ?_
      simp [hf.1] at halive
    | true =>
      refine ⟨fun session => ?_, hheld, h.own, h.apart, fun session p s hlast => ?_⟩
      · refine (h.consecutive session).concat fun b c hb hc => ?_
        obtain ⟨a, ha, rfl, rfl⟩ := handedIn_eq_some.mp hc
        obtain rfl : pkt = a := by
          unfold handed at ha
          simp only [ite_eq_iff] at ha
          rcases ha with ⟨-, ha⟩ | ⟨-, ha⟩
          · exact Option.some.inj ha
          · simp at ha
        exact hseq.trans (hlink b.1 b.2 hb).2.2
      · by_cases hsame : pkt.session = session
        · by_cases hcallback : e.callback = true
          · have hp := (lastHanded_pop (v := { v with win := v.win.dropNext }) hcallback
              hsame).symm.trans hlast
            obtain ⟨rfl, rfl⟩ := Prod.mk.inj (Option.some.inj hp)
            refine .inr ⟨rfl, rfl, hknown, .inl ⟨hsame.symm.trans hsession, ?_⟩⟩
            rw [hseq]
            rfl
          · rw [lastHanded_of_no_callback (by simpa using hcallback)] at hlast
            simp at hlast
        · have hlast' := (lastHanded_pop_other (v := { v with win := v.win.dropNext })
            hsame).symm.trans hlast
          rcases h.last session p s hlast' with hother | ⟨hp, -, hk, ⟨heq, -⟩ | hbefore⟩
          · exact .inl hother
          · exact absurd (hsession.trans heq.symm) hsame
          · exact .inr ⟨hp, rfl, hk, .inr hbefore⟩
  obtain ⟨out, hout⟩ := popped_log pkt v.win.dropNext
  refine hmid.of_emits _ (fun act hact => ?_) hout ?_ ?_ ?_ ?_ ?_
  · obtain ⟨data, -, rfl⟩ := List.mem_map.mp hact
    rfl
  · exact popped_peer ..
  · exact popped_known ..
  · exact popped_session ..
  · exact popped_win ..
  · exact popped_alive ..

private theorem neutral_sends {α : Type} (l : List α) (f : α → Act)
    (h : ∀ a, (f a).isNeutral = true) : ∀ act ∈ l.map f, act.isNeutral = true := by
  intro act hact
  obtain ⟨a, -, rfl⟩ := List.mem_map.mp hact
  exact h a

theorem Move.continuous (hlex : e.plat.CmpLex) (hm : Move e cur v v') (hinv : Inv e v)
    (hother : ∀ pkt, cur = some pkt → ∀ session p s, other session p s → session ≠ pkt.session)
    (h : v.Continuous e cur other) : v'.Continuous e cur other := by
  have hsame : v'.log = v.log → v'.peer = v.peer → v'.known = v.known → v'.session = v.session →
      v'.win = v.win → v'.alive = v.alive → v'.Continuous e cur other := fun hlog =>
    h.of_emits [] (by simp) (by rw [hlog, emits_nil])
  have hdead : v.alive = false → ∀ session s, v.Follows e session s → v'.Follows e session s :=
    fun hd session s hf => absurd hf (not_follows_of_dead hd)
  cases hm with
  | sync alive evs hevs => exact h.sync alive hevs
  | adopt pkt hcur _ hnew => exact h.adopt hlex hcur hnew (hother pkt hcur)
  | pop pkt win _ hpop => exact h.pop hlex hinv hpop
  | push pkt win pending nackNum hcur _ hdata hping hknown hsession hpush =>
    refine h.of_neutral [.push pkt] (by simp [Act.isNeutral]) rfl rfl (fun seq p hp => ?_) h.own
      h.apart fun session s hf => ?_
    · refine ⟨hknown, ?_⟩
      change win.held seq = some p at hp
      rw [Window.recvPush_held hinv.wf hpush] at hp
      split at hp
      · cases hold : v.win.held seq with
        | none =>
          obtain rfl : pkt = p := by simpa [hold] using hp
          exact hsession.symm
        | some q =>
          obtain rfl : q = p := by simpa [hold] using hp
          exact (h.held seq q hold).2
      · exact (h.held seq p hp).2
    · obtain ⟨ha, hk, hpos⟩ := hf
      refine ⟨ha, hk, ?_⟩
      change _ ∧ win.nextSeq = _ ∨ _
      rw [Window.recvPush_nextSeq hpush]
      exact hpos
  | nack seq dests =>
    refine h.of_emits _ ?_ rfl rfl rfl rfl rfl rfl
    intro act hact
    rcases List.mem_cons.mp hact with rfl | hact
    · rfl
    · exact neutral_sends _ _ (fun _ => rfl) act hact
  | expire dests =>
    refine h.of_emits _ ?_ rfl rfl rfl rfl rfl rfl
    intro act hact
    rcases List.mem_cons.mp hact with rfl | hact
    · rfl
    · exact neutral_sends _ _ (fun _ => rfl) act hact
  | answer pkt dests => exact h.of_emits _ (neutral_sends _ _ fun _ => rfl) rfl rfl rfl rfl rfl rfl
  | finAck target => exact h.of_emits [_] (by simp [Act.isNeutral]) rfl rfl rfl rfl rfl rfl
  | skip pkt _ _ _ _ _ _ hd =>
    refine h.of_neutral [.skip pkt.ackNum] (by simp [Act.isNeutral]) rfl rfl (fun seq p hp => ?_)
      h.own h.apart (hdead hd)
    change v.win.dropNext.held seq = some p at hp
    rw [Window.dropNext_held hinv.wf] at hp
    split at hp
    · simp at hp
    · exact h.held seq p hp
  | reset pkt _ _ _ hd =>
    refine h.of_neutral [.reset pkt.seqNum] (by simp [Act.isNeutral]) rfl rfl
      (fun seq p hp => ?_) h.own h.apart (hdead hd)
    exact absurd ((Window.held_init ..).symm.trans hp) (by simp)
  | forget _ _ _ hd =>
    refine h.of_neutral [.forget] (by simp [Act.isNeutral]) rfl rfl (fun seq p hp => ?_)
      (fun _ _ _ hk => ?_) (fun _ _ _ _ hk => ?_) (hdead hd)
    · exact absurd ((Window.held_init ..).symm.trans hp) (by simp)
    · exact absurd hk (by simp [forgotten, emit, emits])
    · exact absurd hk (by simp [forgotten, emit, emits])
  | _ => exact hsame rfl rfl rfl rfl rfl rfl

theorem Moves.continuous (hlex : e.plat.CmpLex) (hm : Moves e cur v v') (hinv : Inv e v)
    (hother : ∀ pkt, cur = some pkt → ∀ session p s, other session p s → session ≠ pkt.session)
    (h : v.Continuous e cur other) : v'.Continuous e cur other :=
  (Run.star_preserves (P := fun w => Inv e w ∧ w.Continuous e cur other)
    (fun _ _ hstep hw => ⟨hstep.inv hw.1, hstep.continuous hlex hw.1 hother hw.2⟩) hm
    ⟨hinv, h⟩).2

theorem Continuous.of_no_peer (h : v.Continuous e cur other) (hpeer : v.peer = none)
    (cur' : Option Packet) : v.Continuous e cur' other :=
  ⟨h.consecutive, h.held, fun _ _ hne => absurd hpeer hne, h.apart, h.last⟩

end View

end

-- 1:1 services

section

variable {e : Env}

theorem Slot.opened_continuous (sessionId : UInt32) (sessionTs : Timespec)
    (destAddr : Path → Endpoint) :
    ((Slot.opened e sessionId sessionTs destAddr).view e).Continuous e none
      fun _ _ _ => False := by
  refine ⟨fun _ => Trace.Linked.nil, fun seq pkt h => ?_, fun _ h => by simp at h,
    fun _ _ _ h => h.elim, fun _ _ _ h => ?_⟩
  · exact absurd ((Window.held_init ..).symm.trans h) (by simp)
  · simp [lastHanded, Slot.view, Slot.opened] at h

theorem Slot.run_continuous (hlex : e.plat.CmpLex) {slot : Slot} (hpeer : slot.peer = none)
    (hok : Slot.Ok e slot) (h : (slot.view e).Continuous e none fun _ _ _ => False)
    (inputs : List Slot.Input) :
    ((slot.run e inputs).view e).Continuous e none fun _ _ _ => False := by
  refine (Slot.run_preserves hlex
    (P := fun v => v.peer = none ∧ v.Continuous e none fun _ _ _ => False)
    (fun input _ v _ hv => ⟨hv.1, ?_⟩) (fun input _ v v' hinv hm hv => ⟨hm.peer_eq.trans hv.1, ?_⟩)
    hpeer hok ⟨hpeer, h⟩).2
  · refine hv.2.of_emits [input.note] ?_ rfl rfl rfl rfl rfl rfl
    cases input <;> simp [Slot.Input.note, Act.isNeutral]
  · have hcont := hm.continuous hlex hinv (fun _ _ _ _ _ h => h.elim) (hv.2.of_no_peer hv.1 _)
    exact hcont.of_no_peer (hm.peer_eq.trans hv.1) none

end

-- N:1 services

namespace Ctx

-- Slot `i` belongs to peer `p` and stands in `session` right behind number `s`.
structure Behind (ctx : Ctx) (i : Nat) (session : SessionHdr) (p s : UInt32) : Prop where
  active : (ctx.peers i).active = true
  peer : (ctx.peers i).peerId = p
  session : ctx.session i = session
  alive : (ctx.peers i).healthAlive = true
  next : (ctx.peers i).recvWindow.nextSeq = s + 1

structure Continuous (e : Env) (ctx : Ctx) : Prop where
  consecutive : ∀ session, Consecutive e session ctx.log
  held : ∀ i < e.maxPeers, (ctx.peers i).active = true → ∀ seq pkt,
    (ctx.peers i).recvWindow.held seq = some pkt → pkt.session = ctx.session i
  last : ∀ session p s, lastHanded e session ctx.log = some (p, s) →
    ∃ i < e.maxPeers, ctx.Behind i session p s

-- Where the other slots stand while slot `i` is at work.
def Others (e : Env) (ctx : Ctx) (i : Nat) (session : SessionHdr) (p s : UInt32) : Prop :=
  ∃ j < e.maxPeers, j ≠ i ∧ ctx.Behind j session p s

section

variable {e : Env} {ctx ctx' : Ctx} {cur : Option Packet} {i : Nat}

private theorem slot_continuous (ht : Table e ctx) (h : ctx.Continuous e) (hi : i < e.maxPeers)
    (hactive : (ctx.peers i).active = true)
    (hcur : ∀ pkt, cur = some pkt → ctx.session i = pkt.session) :
    ((ctx.slotInitPeer i).view e).Continuous e cur (Others e ctx i) := by
  refine ⟨h.consecutive, fun seq pkt hp => ⟨ht.known i hi hactive, h.held i hi hactive seq pkt hp⟩,
    fun pkt hpkt _ _ => hcur pkt hpkt, ?_, fun session p s hlast => ?_⟩
  · rintro session p s ⟨j, hj, hne, hbehind⟩ - heq
    exact hne (ht.sessions j hj i hi hbehind.active hactive (hbehind.session.trans heq))
  · obtain ⟨k, hk, hbehind⟩ := h.last session p s hlast
    by_cases hki : k = i
    · subst hki
      exact .inr ⟨hbehind.peer.symm, hbehind.alive, ht.known k hi hactive,
        .inl ⟨hbehind.session.symm, hbehind.next⟩⟩
    · refine .inl ⟨fun hp => hki ?_, k, hk, hki, hbehind⟩
      exact ht.ids k hk i hi hbehind.active hactive (peer_eq_of_peerId
        (ht.peer k hk hbehind.active) (ht.peer i hi hactive) (hbehind.peer.trans hp))

private theorem fresh_continuous (h : ctx.Continuous e) {pkt : Packet} {peerId : UInt32}
    {fresh : Slot} (hfree : (ctx.peers i).active = false)
    (hid : ∀ j < e.maxPeers, (ctx.peers j).active = true → (ctx.peers j).peer ≠ some peerId)
    (hpeers : ∀ j < e.maxPeers, (ctx.peers j).active = true → (ctx.peers j).peer ≠ none)
    (hfresh : Fresh e peerId fresh) (hlog : fresh.log = ctx.log) :
    (fresh.view e).Continuous e (some pkt) (Others e ctx i) := by
  have hunknown : (fresh.view e).known = false := hfresh.known
  refine ⟨fun session => ?_, fun seq p hp => ?_, fun _ _ _ hk => ?_, fun _ _ _ _ hk => ?_,
    fun session p s hlast => ?_⟩
  · rw [show (fresh.view e).log = ctx.log from hlog]
    exact h.consecutive session
  · rw [show (fresh.view e).win = Window.init 0 e.windowSize from hfresh.win,
      Window.held_init] at hp
    simp at hp
  · simp [hunknown] at hk
  · simp [hunknown] at hk
  · rw [show (fresh.view e).log = ctx.log from hlog] at hlast
    obtain ⟨k, hk, hbehind⟩ := h.last session p s hlast
    refine .inl ⟨fun hp => ?_, k, hk, fun hki => ?_, hbehind⟩
    · refine hid k hk hbehind.active ((peer_eq_of_peerId (hpeers k hk hbehind.active) ?_
        (hbehind.peer.trans hp)).trans hfresh.peer)
      simp [hfresh.peer]
    · have hactive := hbehind.active
      rw [hki, hfree] at hactive
      simp at hactive

private theorem store_continuous (h : ctx.Continuous e) {slot : Slot} (hi : i < e.maxPeers)
    (hpeer : slot.peer ≠ none) (hlive : (slot.view e).Live)
    (hcont : (slot.view e).Continuous e cur (Others e ctx i)) :
    (ctx.store i slot).Continuous e := by
  refine ⟨hcont.consecutive, fun j hj hactive seq pkt hp => ?_, fun session p s hlast => ?_⟩
  · by_cases hji : j = i
    · subst hji
      rw [store_session_self]
      rw [store_peers_self] at hp
      exact (hcont.held seq pkt hp).2
    · rw [store_peers_of_ne hji] at hactive hp
      rw [store_session_of_ne hji]
      exact h.held j hj hactive seq pkt hp
  · rcases hcont.last session p s hlast with ⟨-, j, hj, hji, hbehind⟩ | ⟨hp, halive, -, hpos⟩
    · refine ⟨j, hj, ?_⟩
      constructor
      · rw [store_peers_of_ne hji]
        exact hbehind.active
      · rw [store_peers_of_ne hji]
        exact hbehind.peer
      · rw [store_session_of_ne hji]
        exact hbehind.session
      · rw [store_peers_of_ne hji]
        exact hbehind.alive
      · rw [store_peers_of_ne hji]
        exact hbehind.next
    · rcases hpos with ⟨hsession, hnext⟩ | ⟨hnone, -⟩
      · refine ⟨i, hi, ?_⟩
        constructor
        · rw [store_peers_self]
          rcases hlive with hactive | hdead
          · exact hactive
          · simp [halive] at hdead
        · rw [store_peers_self]
          exact hp.symm
        · rw [store_session_self]
          exact hsession.symm
        · rw [store_peers_self]
          exact halive
        · rw [store_peers_self]
          exact hnext
      · exact absurd hnone hpeer

private theorem others_ne (ht : Table e ctx) (hi : i < e.maxPeers)
    (hactive : (ctx.peers i).active = true) {session : SessionHdr} {p s : UInt32}
    (h : Others e ctx i session p s) : session ≠ ctx.session i := by
  obtain ⟨j, hj, hne, hbehind⟩ := h
  intro heq
  exact hne (ht.sessions j hj i hi hbehind.active hactive (hbehind.session.trans heq))

theorem Change.continuous (hlex : e.plat.CmpLex) (ht : Table e ctx) (hc : Change e ctx ctx')
    (h : ctx.Continuous e) : ctx'.Continuous e := by
  cases hc with
  | idle ctx' hlog hpeers =>
    refine ⟨hlog ▸ h.consecutive, fun j hj hactive => ?_, fun session p s hlast => ?_⟩
    · rcases hpeers j with hsame | ⟨-, hfree⟩
      · unfold session
        rw [hsame]
        exact h.held j hj (hsame ▸ hactive)
      · simp [hfree] at hactive
    · rw [hlog] at hlast
      obtain ⟨j, hj, hbehind⟩ := h.last session p s hlast
      refine ⟨j, hj, ?_⟩
      rcases hpeers j with hsame | ⟨hfree, -⟩
      · obtain ⟨ha, hp, hs, hal, hn⟩ := hbehind
        unfold Ctx.session at hs
        rw [← hsame] at ha hp hs hal hn
        exact ⟨ha, hp, hs, hal, hn⟩
      · exact absurd hbehind.active (by simp [hfree])
  | packet i pkt slot hi hactive hsession hmoves hok =>
    have hcur : ∀ pkt', some pkt = some pkt' → ctx.session i = pkt'.session := fun pkt' hpkt =>
      Option.some.inj hpkt ▸ hsession
    have hnoted : (((ctx.slotInitPeer i).view e).emit (.recv pkt)).Continuous e (some pkt)
        (Others e ctx i) := (slot_continuous ht h hi hactive hcur).of_emits [.recv pkt]
      (by simp [Act.isNeutral]) rfl rfl rfl rfl rfl rfl
    have hcont := hmoves.continuous hlex (Slot.emit_ok (ht.ok i hi hactive) (.recv pkt)).inv
      (fun pkt' hpkt session p s ho => hcur pkt' hpkt ▸ others_ne ht hi hactive ho) hnoted
    have hpeer : slot.peer = (ctx.peers i).peer := Moves.peer_eq hmoves
    exact store_continuous h hi (hpeer ▸ ht.peer i hi hactive)
      (Moves.live hmoves (ht.peer i hi hactive) (.inl hactive)) hcont
  | poll i slot hi hactive hmoves hok =>
    have hcur : ∀ pkt : Packet, none = some pkt → ctx.session i = pkt.session := fun _ hpkt => by
      simp at hpkt
    have hcont := hmoves.continuous hlex (ht.ok i hi hactive).inv
      (fun pkt hpkt session p s ho => hcur pkt hpkt ▸ others_ne ht hi hactive ho)
      (slot_continuous ht h hi hactive hcur)
    have hpeer : slot.peer = (ctx.peers i).peer := Moves.peer_eq hmoves
    exact store_continuous h hi (hpeer ▸ ht.peer i hi hactive)
      (Moves.live hmoves (ht.peer i hi hactive) (.inl hactive)) hcont
  | create i pkt peerId fresh slot hi hfree hsession hid hfresh hlog hmoves hok =>
    have hpeers : (((fresh.view e).emit (.recv pkt)).adopted e pkt).peer ≠ none := by
      rw [show (((fresh.view e).emit (.recv pkt)).adopted e pkt).peer = fresh.peer from rfl,
        hfresh.peer]
      simp
    have hapart : ∀ pkt', some pkt = some pkt' → ∀ session p s,
        Others e ctx i session p s → session ≠ pkt'.session := by
      rintro pkt' hpkt session p s ⟨j, hj, -, hbehind⟩
      obtain rfl := Option.some.inj hpkt
      exact hbehind.session ▸ hsession j hj hbehind.active
    have hnoted : ((fresh.view e).emit (.recv pkt)).Continuous e (some pkt) (Others e ctx i) :=
      (fresh_continuous h hfree hid ht.peer hfresh hlog).of_emits [.recv pkt]
        (by simp [Act.isNeutral]) rfl rfl rfl rfl rfl rfl
    have hsame : slot.peer = (((fresh.view e).emit (.recv pkt)).adopted e pkt).peer :=
      Moves.peer_eq hmoves
    have hpeer : slot.peer ≠ none := hsame ▸ hpeers
    have hinv : Inv e (((fresh.view e).emit (.recv pkt)).adopted e pkt) :=
      ⟨fun _ => hok.inv.kind hpeer, Window.init_wf e.windowSize_pos e.windowSize_le, rfl,
        fun _ => rfl⟩
    have hcont := hmoves.continuous hlex hinv hapart
      (hnoted.adopt hlex rfl (.inl hfresh.known) (hapart pkt rfl))
    exact store_continuous h hi hpeer (Moves.live hmoves hpeers (.inl hfresh.active)) hcont

theorem opened_continuous : (opened e).Continuous e :=
  ⟨fun _ => Trace.Linked.nil, fun _ _ hactive => by simp [opened, PeerContext.empty] at hactive,
    fun _ _ _ hlast => by simp [opened, lastHanded] at hlast⟩

theorem run_continuous (hlex : e.plat.CmpLex) (hkind : e.type = .unicastBidirN1)
    (inputs : List Slot.Input) : ((opened e).run e inputs).Continuous e :=
  (run_preserves hlex hkind (fun _ _ ht hc h => hc.continuous hlex ht h) opened_table
    opened_continuous inputs).2

end

end Ctx

-- No sequence number is lost without a DISCONNECTED, in any run of a 1:1 service and of an N:1
-- service.
theorem no_silent_loss (e : Env) (hlex : e.plat.CmpLex) (inputs : List Slot.Input) :
    (e.type.isTcpType = false → e.type ≠ .unicastBidirN1 → ∀ sessionId sessionTs destAddr,
      NoSilentLoss e ((Slot.opened e sessionId sessionTs destAddr).run e inputs).log) ∧
    (e.type = .unicastBidirN1 → NoSilentLoss e ((Ctx.opened e).run e inputs).log) := by
  refine ⟨fun _ _ sessionId sessionTs destAddr => ?_, fun hkind => ?_⟩
  · refine noSilentLoss_of_consecutive fun session => ?_
    exact (Slot.run_continuous hlex rfl (Slot.opened_ok sessionId sessionTs destAddr)
      (Slot.opened_continuous sessionId sessionTs destAddr) inputs).consecutive session
  · exact noSilentLoss_of_consecutive (Ctx.run_continuous hlex hkind inputs).consecutive

theorem no_silent_loss_sample :
    NoSilentLoss (Env.sample .unicast) ((Slot.sample (Env.sample .unicast)).run (Env.sample .unicast)
      [.sample (.sampleData 7 [⟨0, [1]⟩]), .pollTimeout, .sample (.sampleData 8 [⟨0, [2]⟩])]).log ∧
    NoSilentLoss (Env.sample .unicastBidirN1) ((Ctx.opened (Env.sample .unicastBidirN1)).run
      (Env.sample .unicastBidirN1)
      [.sample (.samplePing 7), .sample (.sampleData 7 [⟨0, [1]⟩]),
        .sample (.sampleData 8 [⟨0, [2]⟩])]).log :=
  ⟨(no_silent_loss (Env.sample .unicast) Cplat.reference_cmpLex _).1 rfl (by decide) _ _ _,
    (no_silent_loss (Env.sample .unicastBidirN1) Cplat.reference_cmpLex _).2 rfl⟩

end Porter
