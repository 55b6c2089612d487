import Porter.Platform
import Porter.Send.Stream

namespace Porter

-- The arguments of a call of cplat_crypto_encrypt, apart from the key.
structure Encryption where
  nonce : Bytes
  aad : Bytes
  plain : Bytes
  deriving DecidableEq

-- The call that seals a DATA packet or a PING.
def Packet.encryption (pkt : Packet) : Encryption :=
  let pkt := { pkt with flags := pkt.flags ||| FLAG_ENCRYPTED }
  ⟨pkt.nonce pkt.seqNum, pkt.header (pkt.payload.length + CRYPTO_TAG_SIZE), pkt.payload⟩

-- copy_path_ping_state, where the type of the service has two-way PINGs
def Slot.healthStates (e : Env) (slot : Slot) : Bytes :=
  if e.type.isTcpType ∨ e.type = .unicastBidir ∨ e.type = .unicastBidirN1 then
    List.ofFn slot.pathPingState
  else List.replicate MAX_PATH PING_STATE_UNDEFINED

-- A PING on its way: health_thread_func copies the states before it reads the number, and
-- tcp_send_ping_packet the other way round.
inductive PingDraft where
  | states (healthStates : Bytes)
  | seqNum (seqNum : UInt32)

-- The own sessions of a service, one for a 1:1 service and one for each peer it ever has, with the
-- PINGs in preparation and the packets that were encrypted, each with its session.
structure Sealer where
  slots : Nat → Slot
  drafts : List (Nat × PingDraft)
  made : List (Nat × Packet)

namespace Sealer

def opened (e : Env) (sessionId : Nat → UInt32) (sessionTs : Nat → Timespec)
    (destAddr : Path → Endpoint) : Sealer where
  slots i := Slot.opened e (sessionId i) (sessionTs i) destAddr
  drafts := []
  made := []

inductive Input where
  -- the send thread
  | flush (session : Nat) (packed : Bytes)
  -- the two halves of a PING
  | draft (session : Nat)
  | ping (n : Nat)
  -- reception changes path_ping_state
  | states (session : Nat) (next : Path → UInt8)
  -- all paths of a TCP service are down
  | resetAll

def pingOf (e : Env) (s : Sealer) (session : Nat) : PingDraft → Packet
  | .states healthStates =>
      Packet.buildPing ((s.slots session).ownSessionHdr e) (s.slots session).sendWindow.nextSeq
        healthStates
  | .seqNum seqNum =>
      Packet.buildPing ((s.slots session).ownSessionHdr e) seqNum ((s.slots session).healthStates e)

-- Only a call that succeeds has a ciphertext.
def noted (e : Env) (s : Sealer) (session : Nat) (pkt : Packet) : List (Nat × Packet) :=
  if e.encryptEnabled && (pkt.sealData e).isSome then s.made ++ [(session, pkt)] else s.made

def step (e : Env) (s : Sealer) : Input → Sealer
  | .flush session packed =>
      let slot := s.slots session
      match Packet.buildPacked (slot.ownSessionHdr e) slot.sendWindow.nextSeq packed with
      | none => s
      | some outer =>
          { s with
            slots := Function.update s.slots session (slot.flush e packed true)
            made := s.noted e session outer }
  | .draft session =>
      let slot := s.slots session
      let draft := if e.type.isTcpType then PingDraft.seqNum slot.sendWindow.nextSeq
        else PingDraft.states (slot.healthStates e)
      { s with drafts := s.drafts ++ [(session, draft)] }
  | .ping n =>
      match s.drafts[n]? with
      | none => s
      | some (session, draft) =>
          { s with
            drafts := s.drafts.eraseIdx n
            made := s.noted e session (s.pingOf e session draft) }
  | .states session next =>
      { s with
        slots := Function.update s.slots session { s.slots session with pathPingState := next } }
  -- the send window of reset_all_paths_disconnected
  | .resetAll =>
      if e.type.isTcpType then
        let slot := s.slots 0
        { s with
          slots := Function.update s.slots 0
            { slot with
              sendWindow := { slot.sendWindow with
                slots := fun _ => none, nextSeq := 0, baseSeq := 0, baseIndex := 0 }
              sendHasData := false } }
      else s

def run (e : Env) (s : Sealer) (inputs : List Input) : Sealer := inputs.foldl (step e) s

-- A PING with the next number of the session was sent or is under way.
def Pinging (s : Sealer) (session : Nat) : Prop :=
  (∃ found ∈ s.drafts, found.1 = session) ∨ ∃ entry ∈ s.made, entry.1 = session ∧
    entry.2.flags = FLAG_PING ∧ entry.2.seqNum = (s.slots session).sendWindow.nextSeq

-- From the first PING with a number on, the states that PINGs carry only change once DATA was sent,
-- and the numbers of a session do not start over.
def Settled (e : Env) (s : Sealer) : Input → Prop
  | .states session next => s.Pinging session →
      Slot.healthStates e { s.slots session with pathPingState := next } =
        (s.slots session).healthStates e
  | .resetAll => e.type.isTcpType = true → (s.slots 0).sendWindow.nextSeq = 0
  | .flush .. | .draft _ | .ping _ => True

instance (s : Sealer) (session : Nat) : Decidable (s.Pinging session) :=
  inferInstanceAs (Decidable (_ ∨ _))

instance (e : Env) (s : Sealer) : ∀ input : Input, Decidable (s.Settled e input)
  | .states .. => inferInstanceAs (Decidable (_ → _))
  | .resetAll => inferInstanceAs (Decidable (_ → _))
  | .flush .. | .draft _ | .ping _ => .isTrue trivial

def dataOf (session : Nat) (made : List (Nat × Packet)) : List Packet :=
  (made.filter fun entry => entry.1 = session && entry.2.flags = FLAG_DATA).map Prod.snd

end Sealer

def Packet.carrying (shdr : PacketSessionHdr) (flags : UInt16) (seqNum : UInt32) (payload : Bytes) :
    Packet :=
  { fillSessionHdr shdr with seqNum := seqNum, flags := flags, payload := payload }

theorem Packet.buildPacked_some {shdr : PacketSessionHdr} {seqNum : UInt32} {packed : Bytes}
    {outer : Packet} (h : buildPacked shdr seqNum packed = some outer) :
    outer = carrying shdr FLAG_DATA seqNum packed := by
  unfold buildPacked at h
  split at h
  · cases h
  · exact (Option.some.inj h).symm

-- `told k` are the states of the PINGs that name the DATA packet `k`, of `count` sent so far.
def PingDraft.Holds (told : Nat → Bytes) (count : Nat) (healthStates : Bytes) : PingDraft → Prop
  | .states sent => sent = healthStates
  | .seqNum num => ∃ k ≤ count, num = UInt32.ofNat k ∧ told k = healthStates

theorem PingDraft.Holds.mono {told told' : Nat → Bytes} {count count' : Nat} {healthStates : Bytes}
    {draft : PingDraft} (h : draft.Holds told count healthStates) (hle : count ≤ count')
    (htold : ∀ k ≤ count, told k = healthStates → told' k = healthStates) :
    draft.Holds told' count' healthStates := by
  cases draft with
  | states states => exact h
  | seqNum num =>
    obtain ⟨k, hk, hnum, hstates⟩ := h
    exact ⟨k, hk.trans hle, hnum, htold k hk hstates⟩

namespace Sealer

-- The DATA packets of each session are numbered through.
structure Numbered (e : Env) (s : Sealer) : Prop where
  built : ∀ entry ∈ s.made, entry.2 = Packet.carrying ((s.slots entry.1).ownSessionHdr e)
    entry.2.flags entry.2.seqNum entry.2.payload
  kind : ∀ entry ∈ s.made, entry.2.flags = FLAG_DATA ∨ entry.2.flags = FLAG_PING
  next : ∀ i, (s.slots i).sendWindow.nextSeq = UInt32.ofNat (dataOf i s.made).length
  numbered : ∀ i j pkt, (dataOf i s.made)[j]? = some pkt → pkt.seqNum = UInt32.ofNat j

-- The PINGs of each session, made or under way, carry the states told for their number.
structure Told (e : Env) (s : Sealer) (told : Nat → Nat → Bytes) : Prop where
  made : ∀ entry ∈ s.made, entry.2.flags = FLAG_PING → ∃ k ≤ (dataOf entry.1 s.made).length,
    entry.2.seqNum = UInt32.ofNat k ∧ entry.2.payload = told entry.1 k
  current : ∀ i, s.Pinging i → told i (dataOf i s.made).length = (s.slots i).healthStates e
  drafts : ∀ found ∈ s.drafts, found.2.Holds (told found.1) (dataOf found.1 s.made).length
    ((s.slots found.1).healthStates e)

section

variable {e : Env} {s : Sealer} {session : Nat} {pkt : Packet}

theorem dataOf_concat (i session : Nat) (made : List (Nat × Packet)) (pkt : Packet) :
    dataOf i (made ++ [(session, pkt)]) =
      dataOf i made ++ if session = i ∧ pkt.flags = FLAG_DATA then [pkt] else [] := by
  unfold dataOf
  rw [List.filter_append, List.map_append]
  congr 1
  by_cases h : session = i ∧ pkt.flags = FLAG_DATA <;> simp [h]

theorem Numbered.of_made (h : s.Numbered e) {s' : Sealer} (hmade : s'.made = s.made)
    (hhdr : ∀ i, (s'.slots i).ownSessionHdr e = (s.slots i).ownSessionHdr e)
    (hnext : ∀ i, (s'.slots i).sendWindow.nextSeq = (s.slots i).sendWindow.nextSeq) :
    s'.Numbered e where
  built entry hentry := by
    rw [hhdr]
    exact h.built entry (hmade ▸ hentry)
  kind entry hentry := h.kind entry (hmade ▸ hentry)
  next i := by
    rw [hnext, hmade]
    exact h.next i
  numbered := by
    rw [hmade]
    exact h.numbered

theorem Numbered.concat (h : s.Numbered e) {s' : Sealer} {flags : UInt16} {seqNum : UInt32}
    {payload : Bytes} (hmade : s'.made = s.made ++ [(session, pkt)])
    (hpkt : pkt = Packet.carrying ((s.slots session).ownSessionHdr e) flags seqNum payload)
    (hhdr : ∀ i, (s'.slots i).ownSessionHdr e = (s.slots i).ownSessionHdr e)
    (hnext : ∀ i, (s'.slots i).sendWindow.nextSeq = (s.slots i).sendWindow.nextSeq +
      if session = i ∧ flags = FLAG_DATA then 1 else 0)
    (hkind : flags = FLAG_DATA ∧ seqNum = (s.slots session).sendWindow.nextSeq ∨
      flags = FLAG_PING) : s'.Numbered e := by
  subst hpkt
  have hdata : ∀ i, dataOf i s'.made = dataOf i s.made ++
      if session = i ∧ flags = FLAG_DATA then [Packet.carrying
        ((s.slots session).ownSessionHdr e) flags seqNum payload] else [] := fun i => by
    rw [hmade]
    exact dataOf_concat i session s.made _
  refine ⟨fun entry hentry => ?_, fun entry hentry => ?_, fun i => ?_, fun i j pkt hpkt => ?_⟩
  · rw [hhdr]
    rw [hmade] at hentry
    rcases List.mem_append.mp hentry with hold | hnew
    · exact h.built entry hold
    · rw [List.mem_singleton.mp hnew]
      rfl
  · rw [hmade] at hentry
    rcases List.mem_append.mp hentry with hold | hnew
    · exact h.kind entry hold
    · rw [List.mem_singleton.mp hnew]
      exact hkind.imp_left And.left
  · rw [hnext, hdata, List.length_append, h.next]
    split
    · rw [List.length_singleton, UInt32.ofNat_add]
      rfl
    · simp
  · rw [hdata] at hpkt
    rcases lt_or_ge j (dataOf i s.made).length with hlt | hge
    · rw [List.getElem?_append_left hlt] at hpkt
      exact h.numbered i j pkt hpkt
    · rw [List.getElem?_append_right hge] at hpkt
      split at hpkt
      · rename_i hown
        have hj : j = (dataOf i s.made).length := by
          have hlt := (List.getElem?_eq_some_iff.mp hpkt).1
          rw [List.length_singleton] at hlt
          omega
        have hseq : seqNum = (s.slots session).sendWindow.nextSeq := by
          rcases hkind with ⟨-, hseq⟩ | hping
          · exact hseq
          · rw [hping] at hown
            exact absurd hown.2 (by decide)
        rw [hj, Nat.sub_self] at hpkt
        obtain rfl := Option.some.inj hpkt
        rw [hj, ← h.next i, ← hown.1]
        exact hseq
      · cases hpkt

theorem update_same {α : Type} (f : Slot → α) {slot : Slot} (h : f slot = f (s.slots session))
    (i : Nat) : f (Function.update s.slots session slot i) = f (s.slots i) := by
  rw [Function.apply_update (fun _ => f), h, Function.update_eq_self]

theorem noted_some (henc : e.encryptEnabled = true) (s : Sealer) (session : Nat) {sent : Packet}
    (h : pkt.sealData e = some sent) : s.noted e session pkt = s.made ++ [(session, pkt)] := by
  simp [noted, henc, h]

theorem noted_none (h : pkt.sealData e = none) : s.noted e session pkt = s.made := by
  simp [noted, h]

theorem Numbered.flush (henc : e.encryptEnabled = true) (h : s.Numbered e) (session : Nat)
    (packed : Bytes) : (s.step e (.flush session packed)).Numbered e := by
  simp only [step]
  split
  · exact h
  rename_i outer hbuilt
  have hcontainer : (s.slots session).packedContainer e packed = outer.sealData e := by
    unfold Slot.packedContainer
    rw [hbuilt]
    rfl
  cases hsealed : outer.sealData e with
  | none =>
    have hsame : (s.slots session).flush e packed true = s.slots session :=
      Slot.flush_none (hcontainer.trans hsealed)
    exact h.of_made (noted_none hsealed)
      (update_same (Slot.ownSessionHdr e) (congrArg (Slot.ownSessionHdr e) hsame))
      (update_same (fun slot => slot.sendWindow.nextSeq)
        (congrArg (fun slot : Slot => slot.sendWindow.nextSeq) hsame))
  | some sent =>
    have hnext := Slot.flush_nextSeq (hcontainer.trans hsealed) true
    obtain ⟨hhdr, -⟩ := Slot.flush_same e (s.slots session) packed true
    refine h.concat (noted_some henc s session hsealed) (Packet.buildPacked_some hbuilt)
      (update_same (Slot.ownSessionHdr e) hhdr) (fun i => ?_) (.inl ⟨rfl, rfl⟩)
    change (Function.update s.slots session _ i).sendWindow.nextSeq = _
    by_cases heq : session = i
    · rw [← heq, Function.update_self, if_pos ⟨rfl, rfl⟩]
      exact hnext
    · rw [Function.update_of_ne (Ne.symm heq), if_neg fun hown => heq hown.1, UInt32.add_zero]

theorem pingOf_eq (session : Nat) (draft : PingDraft) :
    s.pingOf e session draft = Packet.carrying ((s.slots session).ownSessionHdr e) FLAG_PING
      (s.pingOf e session draft).seqNum (s.pingOf e session draft).payload := by
  cases draft <;> rfl

theorem Numbered.ping (henc : e.encryptEnabled = true) (h : s.Numbered e) (n : Nat) :
    (s.step e (.ping n)).Numbered e := by
  simp only [step]
  split
  · exact h
  rename_i session draft hfound
  have hping := pingOf_eq (e := e) (s := s) session draft
  cases hsealed : (s.pingOf e session draft).sealData e with
  | none => exact h.of_made (noted_none hsealed) (fun _ => rfl) fun _ => rfl
  | some sent =>
    refine h.concat (noted_some henc s session hsealed) hping (fun _ => rfl) (fun i => ?_)
      (.inr rfl)
    rw [if_neg fun hown => absurd hown.2 (by decide), UInt32.add_zero]

theorem step_numbered (henc : e.encryptEnabled = true) (h : s.Numbered e) {input : Input}
    (hsettled : s.Settled e input) : (s.step e input).Numbered e := by
  cases input with
  | flush session packed => exact h.flush henc session packed
  | draft session => exact h.of_made rfl (fun _ => rfl) fun _ => rfl
  | ping n => exact h.ping henc n
  | states session next =>
    exact h.of_made rfl (update_same (Slot.ownSessionHdr e) rfl)
      (update_same (fun slot => slot.sendWindow.nextSeq) rfl)
  | resetAll =>
    simp only [step]
    split
    · rename_i htcp
      exact h.of_made rfl (update_same (Slot.ownSessionHdr e) rfl)
        (update_same (fun slot => slot.sendWindow.nextSeq) (hsettled htcp).symm)
    · exact h

theorem opened_numbered (sessionId : Nat → UInt32) (sessionTs : Nat → Timespec)
    (destAddr : Path → Endpoint) : (opened e sessionId sessionTs destAddr).Numbered e where
  built _ hentry := by cases hentry
  kind _ hentry := by cases hentry
  next _ := rfl
  numbered _ _ _ hpkt := by cases hpkt

variable {told : Nat → Nat → Bytes}

-- Steps that send nothing and leave the states alone once a PING is there.
theorem Told.of_made (h : s.Told e told) {s' : Sealer} (hmade : s'.made = s.made)
    (hdrafts : ∀ found ∈ s'.drafts, found ∈ s.drafts)
    (hnext : ∀ i, (s'.slots i).sendWindow.nextSeq = (s.slots i).sendWindow.nextSeq)
    (hstates : ∀ i, s.Pinging i → (s'.slots i).healthStates e = (s.slots i).healthStates e) :
    s'.Told e told := by
  have hpinging : ∀ i, s'.Pinging i → s.Pinging i := by
    rintro i (⟨found, hfound, hi⟩ | ⟨entry, hentry, hi, hping, hseq⟩)
    · exact .inl ⟨found, hdrafts found hfound, hi⟩
    · exact .inr ⟨entry, hmade ▸ hentry, hi, hping, hseq.trans (hnext i)⟩
  refine ⟨?_, fun i hi => ?_, fun found hfound => ?_⟩
  · rw [hmade]
    exact h.made
  · rw [hmade, hstates i (hpinging i hi)]
    exact h.current i (hpinging i hi)
  · rw [hmade, hstates found.1 (.inl ⟨found, hdrafts found hfound, rfl⟩)]
    exact h.drafts found (hdrafts found hfound)

def tell (told : Nat → Nat → Bytes) (session k : Nat) (states : Bytes) : Nat → Nat → Bytes :=
  Function.update told session (Function.update (told session) k states)

theorem tell_self (k : Nat) (states : Bytes) : tell told session k states session k = states := by
  rw [tell, Function.update_self, Function.update_self]

theorem tell_of_ne {i k j : Nat} {states : Bytes} (h : i = session → j ≠ k) :
    tell told session k states i j = told i j := by
  unfold tell
  by_cases hi : i = session
  · subst hi
    rw [Function.update_self, Function.update_of_ne (h rfl)]
  · rw [Function.update_of_ne hi]

theorem opened_told (sessionId : Nat → UInt32) (sessionTs : Nat → Timespec)
    (destAddr : Path → Endpoint) : ∃ told, (opened e sessionId sessionTs destAddr).Told e told := by
  refine ⟨fun _ _ => [], fun _ hentry => (nomatch hentry), ?_, fun _ hfound => nomatch hfound⟩
  rintro i (⟨_, hfound, -⟩ | ⟨_, hentry, -⟩)
  · cases hfound
  · cases hentry

theorem Told.draft (h : s.Told e told) (hn : s.Numbered e) (session : Nat) :
    (s.step e (.draft session)).Told e (tell told session (dataOf session s.made).length
      ((s.slots session).healthStates e)) := by
  have hkeep : ∀ i, ∀ k ≤ (dataOf i s.made).length, told i k = (s.slots i).healthStates e →
      tell told session (dataOf session s.made).length ((s.slots session).healthStates e) i k =
        (s.slots i).healthStates e := by
    intro i k hk hold
    by_cases heq : i = session ∧ k = (dataOf session s.made).length
    · rw [heq.1, heq.2]
      exact tell_self _ _
    · rw [tell_of_ne fun hi hk => heq ⟨hi, hk⟩]
      exact hold
  refine ⟨fun entry hentry hping => ?_, fun i hi => ?_, fun found hfound => ?_⟩
  · obtain ⟨k, hk, hseq, hpayload⟩ := h.made entry hentry hping
    refine ⟨k, hk, hseq, hpayload.trans ?_⟩
    by_cases heq : entry.1 = session ∧ k = (dataOf session s.made).length
    · -- The session is already pinging, so that the states are those told before.
      have hnow := h.current session (.inr ⟨entry, hentry, heq.1, hping, by
        rw [hn.next session, ← heq.2]
        exact hseq⟩)
      rw [heq.1, heq.2, tell_self]
      exact hnow
    · rw [tell_of_ne fun hi hk => heq ⟨hi, hk⟩]
  · change tell told session _ _ i (dataOf i s.made).length = (s.slots i).healthStates e
    by_cases heq : i = session
    · rw [heq]
      exact tell_self _ _
    · rw [tell_of_ne fun hi => absurd hi heq]
      refine h.current i ?_
      rcases hi with ⟨found, hfound, hi⟩ | hmade
      · rcases List.mem_append.mp hfound with hold | hnew
        · exact .inl ⟨found, hold, hi⟩
        · rw [List.mem_singleton.mp hnew] at hi
          exact absurd hi.symm heq
      · exact .inr hmade
  · rcases List.mem_append.mp hfound with hold | hnew
    · exact (h.drafts found hold).mono le_rfl (hkeep found.1)
    · rw [List.mem_singleton.mp hnew]
      split
      · exact ⟨_, le_rfl, hn.next session, tell_self _ _⟩
      · rfl

theorem Told.ping (henc : e.encryptEnabled = true) (h : s.Told e told) (hn : s.Numbered e) (n : Nat) :
    (s.step e (.ping n)).Told e told := by
  simp only [step]
  split
  · exact h
  rename_i session draft hfound
  have hdraft : (session, draft) ∈ s.drafts := List.mem_of_getElem? hfound
  have hpinging : s.Pinging session := .inl ⟨_, hdraft, rfl⟩
  have hflags : (s.pingOf e session draft).flags = FLAG_PING := by rw [pingOf_eq]; rfl
  have herase : ∀ found ∈ s.drafts.eraseIdx n, found ∈ s.drafts := fun found => List.mem_of_mem_eraseIdx
  cases hsealed : (s.pingOf e session draft).sealData e with
  | none => exact h.of_made (noted_none hsealed) herase (fun _ => rfl) fun _ _ => rfl
  | some sent =>
    have hdata : ∀ i, dataOf i (s.made ++ [(session, s.pingOf e session draft)]) = dataOf i s.made := by
      intro i
      rw [dataOf_concat, if_neg fun hown => absurd (hflags.symm.trans hown.2) (by decide),
        List.append_nil]
    rw [noted_some henc s session hsealed]
    refine ⟨fun entry hentry hping => ?_, fun i hi => ?_, fun found hfound => ?_⟩
    · dsimp only
      rw [hdata]
      rcases List.mem_append.mp hentry with hold | hnew
      · exact h.made entry hold hping
      · rw [List.mem_singleton.mp hnew]
        have hholds := h.drafts _ hdraft
        cases draft with
        | states states =>
          exact ⟨_, le_rfl, hn.next session, Eq.trans hholds (h.current session hpinging).symm⟩
        | seqNum num =>
          obtain ⟨k, hk, hnum, hstates⟩ := hholds
          exact ⟨k, hk, hnum, hstates.symm⟩
    · dsimp only
      rw [hdata]
      refine h.current i ?_
      rcases hi with ⟨found, hfound, hi⟩ | ⟨entry, hentry, hi, hping, hseq⟩
      · exact .inl ⟨found, herase found hfound, hi⟩
      · rcases List.mem_append.mp hentry with hold | hnew
        · exact .inr ⟨entry, hold, hi, hping, hseq⟩
        · rw [List.mem_singleton.mp hnew] at hi
          exact hi ▸ hpinging
    · dsimp only
      rw [hdata]
      exact h.drafts found (herase found hfound)

theorem Told.concat_data (h : s.Told e told) {s' : Sealer} (hpkt : pkt.flags = FLAG_DATA)
    (hmade : s'.made = s.made ++ [(session, pkt)]) (hdrafts : s'.drafts = s.drafts)
    (hslots : ∀ i, i ≠ session → s'.slots i = s.slots i)
    (hstates : ∀ i, (s'.slots i).healthStates e = (s.slots i).healthStates e) :
    s'.Told e (tell told session ((dataOf session s.made).length + 1)
      ((s.slots session).healthStates e)) := by
  have hcount : ∀ i, (dataOf i s'.made).length =
      (dataOf i s.made).length + if session = i then 1 else 0 := by
    intro i
    rw [hmade, dataOf_concat, List.length_append]
    by_cases hi : session = i <;> simp [hi, hpkt]
  have hkeep : ∀ i, ∀ k ≤ (dataOf i s.made).length,
      tell told session ((dataOf session s.made).length + 1) ((s.slots session).healthStates e) i k =
        told i k := by
    intro i k hk
    refine tell_of_ne fun hi hk' => ?_
    rw [hi] at hk
    omega
  refine ⟨fun entry hentry hping => ?_, fun i hi => ?_, fun found hfound => ?_⟩
  · rw [hmade] at hentry
    rcases List.mem_append.mp hentry with hold | hnew
    · obtain ⟨k, hk, hseq, hpayload⟩ := h.made entry hold hping
      rw [hcount]
      exact ⟨k, hk.trans (Nat.le_add_right ..), hseq, hpayload.trans (hkeep entry.1 k hk).symm⟩
    · rw [List.mem_singleton.mp hnew] at hping
      exact absurd (hpkt.symm.trans hping) (by decide)
  · rw [hstates]
    by_cases heq : session = i
    · rw [hcount, if_pos heq, ← heq]
      exact tell_self _ _
    · have hsame : (dataOf i s'.made).length = (dataOf i s.made).length := by
        rw [hcount, if_neg heq]
        rfl
      rw [hsame, hkeep i _ le_rfl]
      refine h.current i ?_
      rcases hi with ⟨found, hfound, hi⟩ | ⟨entry, hentry, hi, hping, hseq⟩
      · exact .inl ⟨found, hdrafts ▸ hfound, hi⟩
      · rw [hmade] at hentry
        rw [hslots i (Ne.symm heq)] at hseq
        rcases List.mem_append.mp hentry with hold | hnew
        · exact .inr ⟨entry, hold, hi, hping, hseq⟩
        · rw [List.mem_singleton.mp hnew] at hi
          exact absurd hi heq
  · rw [hcount, hstates]
    exact (h.drafts found (hdrafts ▸ hfound)).mono (Nat.le_add_right ..) fun k hk hold =>
      (hkeep found.1 k hk).trans hold

theorem Told.flush (henc : e.encryptEnabled = true) (h : s.Told e told) (session : Nat)
    (packed : Bytes) : ∃ told, (s.step e (.flush session packed)).Told e told := by
  simp only [step]
  split
  · exact ⟨told, h⟩
  rename_i outer hbuilt
  have hcontainer : (s.slots session).packedContainer e packed = outer.sealData e := by
    unfold Slot.packedContainer
    rw [hbuilt]
    rfl
  cases hsealed : outer.sealData e with
  | none =>
    rw [Slot.flush_none (hcontainer.trans hsealed), Function.update_eq_self]
    exact ⟨told, h.of_made (noted_none hsealed) (fun _ hfound => hfound) (fun _ => rfl) fun _ _ => rfl⟩
  | some sent =>
    refine ⟨_, h.concat_data (congrArg Packet.flags (Packet.buildPacked_some hbuilt))
      (noted_some henc s session hsealed) rfl (fun i hi => Function.update_of_ne hi _ _) ?_⟩
    refine update_same (Slot.healthStates e) ?_
    rw [Slot.flush_some (hcontainer.trans hsealed)]
    rfl

theorem step_told (henc : e.encryptEnabled = true) (h : s.Told e told) (hn : s.Numbered e)
    {input : Input} (hsettled : s.Settled e input) : ∃ told, (s.step e input).Told e told := by
  cases input with
  | flush session packed => exact h.flush henc session packed
  | draft session => exact ⟨_, h.draft hn session⟩
  | ping n => exact ⟨told, h.ping henc hn n⟩
  | states session next =>
    refine ⟨told, h.of_made rfl (fun _ hfound => hfound)
      (update_same (fun slot => slot.sendWindow.nextSeq) rfl) fun i hi => ?_⟩
    change (Function.update s.slots session _ i).healthStates e = _
    by_cases heq : i = session
    · subst heq
      rw [Function.update_self]
      exact hsettled hi
    · rw [Function.update_of_ne heq]
  | resetAll =>
    simp only [step]
    split
    · rename_i htcp
      refine ⟨told, h.of_made rfl (fun _ hfound => hfound)
        (update_same (fun slot => slot.sendWindow.nextSeq) (hsettled htcp).symm) fun i _ => ?_⟩
      refine update_same (Slot.healthStates e) ?_ i
      rfl
    · exact ⟨told, h⟩

end

end Sealer

theorem Packet.encryption_nonce_inj {a b : Packet} (h : a.encryption.nonce = b.encryption.nonce) :
    a.flags ||| FLAG_ENCRYPTED = b.flags ||| FLAG_ENCRYPTED ∧ a.seqNum = b.seqNum := by
  have hfront := (List.append_inj' h rfl).1
  obtain ⟨hflags, hseq⟩ := List.append_inj hfront (by simp)
  have hflags' := (List.append_inj hflags (by simp)).2
  refine ⟨UInt16.toNat_inj.mp ?_, UInt32.toNat_inj.mp ?_⟩
  · exact BigEndian.toBytes_inj (UInt16.toNat_lt _) (UInt16.toNat_lt _) hflags'
  · exact BigEndian.toBytes_inj a.seqNum.toNat_lt b.seqNum.toNat_lt hseq

namespace Sealer

variable {e : Env} {s : Sealer}

theorem length_dataOf_le (session : Nat) (made : List (Nat × Packet)) :
    (dataOf session made).length ≤ made.countP fun entry => entry.2.flags = FLAG_DATA := by
  unfold dataOf
  rw [List.length_map, ← List.countP_eq_length_filter]
  refine List.countP_mono_left fun entry _ h => ?_
  simp only [Bool.and_eq_true] at h
  exact h.2

theorem mem_dataOf {entry : Nat × Packet} {made : List (Nat × Packet)} (hentry : entry ∈ made)
    (hdata : entry.2.flags = FLAG_DATA) : entry.2 ∈ dataOf entry.1 made := by
  refine List.mem_map.mpr ⟨entry, List.mem_filter.mpr ⟨hentry, ?_⟩, rfl⟩
  simp [hdata]

theorem Numbered.data_inj (h : s.Numbered e) {session : Nat} {a b : Packet}
    (hlt : (dataOf session s.made).length < 2 ^ 32) (ha : a ∈ dataOf session s.made)
    (hb : b ∈ dataOf session s.made) (hseq : a.seqNum = b.seqNum) : a = b := by
  obtain ⟨i, hi⟩ := List.mem_iff_getElem?.mp ha
  obtain ⟨j, hj⟩ := List.mem_iff_getElem?.mp hb
  have hi' := (List.getElem?_eq_some_iff.mp hi).1
  have hj' := (List.getElem?_eq_some_iff.mp hj).1
  rw [h.numbered session i a hi, h.numbered session j b hj] at hseq
  have hnat := congrArg UInt32.toNat hseq
  have hsize : UInt32.size = 2 ^ 32 := rfl
  rw [UInt32.toNat_ofNat_of_lt' (by omega), UInt32.toNat_ofNat_of_lt' (by omega)] at hnat
  rw [hnat, hj] at hi
  exact (Option.some.inj hi).symm

theorem Told.ping_inj {told : Nat → Nat → Bytes} (h : s.Told e told) {a b : Nat × Packet}
    (hlt : (dataOf a.1 s.made).length < 2 ^ 32) (ha : a ∈ s.made) (hb : b ∈ s.made) (hsame : a.1 = b.1)
    (hping : a.2.flags = FLAG_PING) (hping' : b.2.flags = FLAG_PING) (hseq : a.2.seqNum = b.2.seqNum) :
    a.2.payload = b.2.payload := by
  obtain ⟨k, hk, hnum, hpayload⟩ := h.made a ha hping
  obtain ⟨k', hk', hnum', hpayload'⟩ := h.made b hb hping'
  rw [← hsame] at hk' hpayload'
  have hnat := congrArg UInt32.toNat (hnum.symm.trans (hseq.trans hnum'))
  have hsize : UInt32.size = 2 ^ 32 := rfl
  rw [UInt32.toNat_ofNat_of_lt' (by omega), UInt32.toNat_ofNat_of_lt' (by omega)] at hnat
  rw [hpayload, hpayload', hnat]

theorem Numbered.nonce_inj (h : s.Numbered e) {told : Nat → Nat → Bytes} (htold : s.Told e told)
    (hcount : (s.made.countP fun entry => entry.2.flags = FLAG_DATA) < 2 ^ 32) {a b : Nat × Packet}
    (ha : a ∈ s.made) (hb : b ∈ s.made) (hsame : a.1 = b.1)
    (hnonce : a.2.encryption.nonce = b.2.encryption.nonce) : a.2 = b.2 := by
  obtain ⟨hflags, hseq⟩ := Packet.encryption_nonce_inj hnonce
  have hlt := (length_dataOf_le a.1 s.made).trans_lt hcount
  rcases h.kind a ha with hkind | hkind <;> rcases h.kind b hb with hkind' | hkind'
  · exact h.data_inj hlt (mem_dataOf ha hkind) (hsame ▸ mem_dataOf hb hkind') hseq
  · rw [hkind, hkind'] at hflags
    exact absurd hflags (by decide)
  · rw [hkind, hkind'] at hflags
    exact absurd hflags (by decide)
  · rw [h.built a ha, h.built b hb, hsame, hkind, hkind', hseq,
      htold.ping_inj hlt ha hb hsame hkind hkind' hseq]

end Sealer

-- As long as the path states stay the same from the first PING after a DATA packet to the next DATA
-- packet and the numbers do not start over, no nonce of a session is used for two packets.
theorem nonces_not_reused (e : Env) (henc : e.encryptEnabled = true) (sessionId : Nat → UInt32)
    (sessionTs : Nat → Timespec) (destAddr : Path → Endpoint) (inputs : List Sealer.Input)
    (hmeets : Run.Meets (Sealer.step e) (Sealer.Settled e)
      (Sealer.opened e sessionId sessionTs destAddr) inputs) :
    let s := (Sealer.opened e sessionId sessionTs destAddr).run e inputs
    (s.made.countP fun entry => entry.2.flags = FLAG_DATA) < 2 ^ 32 →
      ∀ a ∈ s.made, ∀ b ∈ s.made, a.1 = b.1 → a.2.encryption.nonce = b.2.encryption.nonce →
        a.2.encryption.plain = b.2.encryption.plain ∧ a.2.encryption.aad = b.2.encryption.aad := by
  intro s hcount a ha b hb hsame hnonce
  obtain ⟨hnumbered, told, htold⟩ : s.Numbered e ∧ ∃ told, s.Told e told :=
    hmeets.preserves (P := fun s : Sealer => s.Numbered e ∧ ∃ told, s.Told e told)
      (fun s input hsettled ⟨hn, _, ht⟩ =>
        ⟨Sealer.step_numbered henc hn hsettled, Sealer.step_told henc ht hn hsettled⟩)
      ⟨Sealer.opened_numbered sessionId sessionTs destAddr, Sealer.opened_told sessionId sessionTs destAddr⟩
  rw [hnumbered.nonce_inj htold hcount ha hb hsame hnonce]
  exact ⟨rfl, rfl⟩

theorem nonces_not_reused_sample :
    let e := Env.sampleSealed .unicastBidir
    let s := (Sealer.opened e (fun _ => 3) (fun _ => ⟨2, 0⟩) fun _ => .target).run e
      [.draft 0, .ping 0, .flush 0 [1, 2, 3], .states 0 fun _ => PING_STATE_NORMAL, .draft 0,
        .ping 0, .draft 0, .ping 0, .flush 0 [4]]
    s.made.length = 5 ∧
      ∀ a ∈ s.made, ∀ b ∈ s.made, a.1 = b.1 → a.2.encryption.nonce = b.2.encryption.nonce →
        a.2.encryption.plain = b.2.encryption.plain ∧ a.2.encryption.aad = b.2.encryption.aad := by
  refine ⟨by decide +kernel, ?_⟩
  exact nonces_not_reused (Env.sampleSealed .unicastBidir) rfl (fun _ => 3) (fun _ => ⟨2, 0⟩)
    (fun _ => .target) _ (by decide +kernel) (by decide +kernel)

-- Two PINGs around a change of the path states, and the first DATA packets before and after all
-- paths of a TCP service went down: the same nonce for two plaintexts.
theorem nonce_reused :
    (let e := Env.sampleSealed .unicastBidir
      let s := (Sealer.opened e (fun _ => 3) (fun _ => ⟨2, 0⟩) fun _ => .target).run e
        [.draft 0, .ping 0, .states 0 fun _ => PING_STATE_NORMAL, .draft 0, .ping 0]
      ∃ a ∈ s.made, ∃ b ∈ s.made, a.1 = b.1 ∧ a.2.encryption.nonce = b.2.encryption.nonce ∧
        a.2.encryption.plain ≠ b.2.encryption.plain) ∧
    (let e := Env.sampleSealed .tcp
      let s := (Sealer.opened e (fun _ => 3) (fun _ => ⟨2, 0⟩) fun _ => .target).run e
        [.flush 0 [1, 2, 3], .resetAll, .flush 0 [4]]
      ∃ a ∈ s.made, ∃ b ∈ s.made, a.1 = b.1 ∧ a.2.encryption.nonce = b.2.encryption.nonce ∧
        a.2.encryption.plain ≠ b.2.encryption.plain) := by
  decide +kernel

end Porter
