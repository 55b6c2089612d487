import Porter.Window

namespace Porter.Window

open Serial

theorem seqnumInWindow_iff {seq base : UInt32} {n : Nat} :
    seqnumInWindow seq base n = true ↔ dist seq base < n := by
  simp [seqnumInWindow, Serial.dist]

-- What a receive window is for: a partial map from the window's numbers to packets.
def held (win : Window) (seq : UInt32) : Option Packet :=
  if dist seq win.nextSeq < win.windowSize then win.slots (win.winIndex seq) else none

-- The representation of a receive window: the base is the next expected number and
-- every slot in the window holds a packet with the number of that slot.
structure RecvWF (win : Window) : Prop where
  size_pos : 0 < win.windowSize
  size_le : win.windowSize ≤ MAX_WINDOW_SIZE
  base_eq : win.baseSeq = win.nextSeq
  index_lt : win.baseIndex < win.windowSize
  labelled : ∀ seq packet, win.held seq = some packet → packet.seqNum = seq

section

variable {win : Window} {seq : UInt32}

theorem held_of_lt (h : dist seq win.nextSeq < win.windowSize) :
    win.held seq = win.slots (win.winIndex seq) := if_pos h

theorem held_of_ge (h : win.windowSize ≤ dist seq win.nextSeq) : win.held seq = none :=
  if_neg (Nat.not_lt.mpr h)

theorem lt_of_held {packet : Packet} (h : win.held seq = some packet) :
    dist seq win.nextSeq < win.windowSize := by
  by_contra hlt
  rw [held_of_ge (Nat.not_lt.mp hlt)] at h
  cases h

theorem winIndex_eq (hsize : win.windowSize ≤ MAX_WINDOW_SIZE)
    (hindex : win.baseIndex < win.windowSize)
    (h : dist seq win.baseSeq < win.windowSize) :
    win.winIndex seq = (win.baseIndex + dist seq win.baseSeq) % win.windowSize := by
  unfold winIndex
  have hb : (UInt32.ofNat win.baseIndex).toNat = win.baseIndex :=
    UInt32.toNat_ofNat_of_lt' (by simp only [UInt32.size, MAX_WINDOW_SIZE] at *; omega)
  have hlt : win.baseIndex + (seq - win.baseSeq).toNat < 2 ^ 32 := by
    change win.baseIndex + dist seq win.baseSeq < 2 ^ 32
    simp only [MAX_WINDOW_SIZE] at hsize
    omega
  rw [UInt32.toNat_add, hb, Nat.mod_eq_of_lt hlt]
  rfl

theorem winIndex_inj {seq' : UInt32} (hsize : win.windowSize ≤ MAX_WINDOW_SIZE)
    (hindex : win.baseIndex < win.windowSize)
    (h : dist seq win.baseSeq < win.windowSize) (h' : dist seq' win.baseSeq < win.windowSize)
    (heq : win.winIndex seq = win.winIndex seq') : seq = seq' := by
  rw [winIndex_eq hsize hindex h, winIndex_eq hsize hindex h'] at heq
  exact dist_inj (Circular.mod_inj h h' heq)

end

@[simp] theorem held_init (initialSeq : UInt32) (n : Nat) (seq : UInt32) :
    (init initialSeq n).held seq = none := by
  unfold held
  split <;> rfl

theorem init_wf {initialSeq : UInt32} {n : Nat} (hpos : 0 < n) (hle : n ≤ MAX_WINDOW_SIZE) :
    RecvWF (init initialSeq n) where
  size_pos := hpos
  size_le := hle
  base_eq := rfl
  index_lt := hpos
  labelled := by simp

@[simp] theorem init_nextSeq (initialSeq : UInt32) (n : Nat) :
    (init initialSeq n).nextSeq = initialSeq := rfl

theorem recvReset_eq (win : Window) (newBaseSeq : UInt32) :
    win.recvReset newBaseSeq = init newBaseSeq win.windowSize := rfl

section

variable {win win' : Window} {packet : Packet} {seq : UInt32}

theorem RecvWF.slots_next (hwf : RecvWF win) :
    win.slots (win.winIndex win.nextSeq) = win.held win.nextSeq := by
  rw [held_of_lt]
  rw [dist_self]
  exact hwf.size_pos

theorem recvPush_eq_none (hwf : RecvWF win) :
    win.recvPush packet = none ↔ win.windowSize ≤ dist packet.seqNum win.nextSeq := by
  unfold recvPush
  by_cases h : dist packet.seqNum win.nextSeq < win.windowSize
  · rw [if_pos (by rw [seqnumInWindow_iff, hwf.base_eq]; exact h)]
    cases win.slots (win.winIndex packet.seqNum) <;> simp [h]
  · rw [if_neg (by rw [seqnumInWindow_iff, hwf.base_eq]; exact h)]
    simpa using h

theorem recvPush_in_window (hwf : RecvWF win) (h : win.recvPush packet = some win') :
    dist packet.seqNum win.nextSeq < win.windowSize := by
  by_contra hlt
  rw [(recvPush_eq_none hwf).mpr (Nat.not_lt.mp hlt)] at h
  cases h

theorem recvPush_nextSeq (h : win.recvPush packet = some win') : win'.nextSeq = win.nextSeq := by
  unfold recvPush at h
  split at h
  · split at h <;> cases h <;> rfl
  · cases h

theorem recvPush_windowSize (h : win.recvPush packet = some win') :
    win'.windowSize = win.windowSize := by
  unfold recvPush at h
  split at h
  · split at h <;> cases h <;> rfl
  · cases h

theorem recvPush_held (hwf : RecvWF win) (h : win.recvPush packet = some win') (seq : UInt32) :
    win'.held seq = if seq = packet.seqNum then (win.held seq).or (some packet)
      else win.held seq := by
  have hin := recvPush_in_window hwf h
  have hidx : ∀ s, dist s win.nextSeq < win.windowSize →
      win.winIndex s = win.winIndex packet.seqNum → s = packet.seqNum := fun s hs he =>
    winIndex_inj hwf.size_le hwf.index_lt (by rwa [hwf.base_eq]) (by rwa [hwf.base_eq]) he
  unfold recvPush at h
  rw [if_pos (by rw [seqnumInWindow_iff, hwf.base_eq]; exact hin)] at h
  split at h
  · rename_i old hold
    cases h
    split
    · rename_i he
      rw [he, held_of_lt hin, hold, Option.some_or]
    · rfl
  · rename_i hold
    cases h
    by_cases he : seq = packet.seqNum
    · subst he
      rw [if_pos rfl, held_of_lt hin, hold, Option.none_or, held_of_lt (by exact hin)]
      exact Function.update_self ..
    · rw [if_neg he]
      by_cases hs : dist seq win.nextSeq < win.windowSize
      · rw [held_of_lt hs, held_of_lt (by exact hs)]
        exact Function.update_of_ne (fun hc => he (hidx seq hs hc)) ..
      · rw [held_of_ge (Nat.not_lt.mp hs), held_of_ge (by exact Nat.not_lt.mp hs)]

theorem recvPush_keeps (hwf : RecvWF win) (h : win.recvPush packet = some win') {p : Packet}
    (hp : win.held seq = some p) : win'.held seq = some p := by
  rw [recvPush_held hwf h]
  split
  · rw [hp, Option.some_or]
  · exact hp

theorem recvPush_wf (hwf : RecvWF win) (h : win.recvPush packet = some win') : RecvWF win' := by
  have hshape : win'.baseSeq = win.baseSeq ∧ win'.baseIndex = win.baseIndex := by
    unfold recvPush at h
    split at h
    · split at h <;> cases h <;> exact ⟨rfl, rfl⟩
    · cases h
  refine ⟨?_, ?_, ?_, ?_, ?_⟩
  · rw [recvPush_windowSize h]; exact hwf.size_pos
  · rw [recvPush_windowSize h]; exact hwf.size_le
  · rw [recvPush_nextSeq h, hshape.1, hwf.base_eq]
  · rw [recvPush_windowSize h, hshape.2]; exact hwf.index_lt
  · intro seq p hp
    rw [recvPush_held hwf h] at hp
    split at hp
    · rename_i he
      cases hold : win.held seq with
      | none => rw [hold, Option.none_or] at hp; cases hp; exact he.symm
      | some q =>
        rw [hold, Option.some_or] at hp
        exact hwf.labelled seq p (hold.trans hp)
    · exact hwf.labelled seq p hp

end

-- Consuming the head of the window, the common part of recvPop and recvSkip.
def dropNext (win : Window) : Window :=
  { win with
    slots := Function.update win.slots (win.winIndex win.nextSeq) none
    baseSeq := win.baseSeq + 1
    nextSeq := win.nextSeq + 1
    baseIndex := (win.baseIndex + 1) % win.windowSize }

@[simp] theorem dropNext_nextSeq (win : Window) : win.dropNext.nextSeq = win.nextSeq + 1 := rfl

@[simp] theorem dropNext_windowSize (win : Window) :
    win.dropNext.windowSize = win.windowSize := rfl

section

variable {win win' : Window} {packet : Packet} {seq : UInt32}

private theorem dropNext_winIndex (hwf : RecvWF win)
    (h : dist seq (win.nextSeq + 1) < win.windowSize) :
    win.dropNext.winIndex seq =
      (win.baseIndex + (dist seq (win.nextSeq + 1) + 1)) % win.windowSize := by
  have hb : win.dropNext.baseSeq = win.nextSeq + 1 := congrArg (· + 1) hwf.base_eq
  have hidx := @winIndex_eq win.dropNext seq hwf.size_le (Nat.mod_lt _ hwf.size_pos)
    (by rw [hb]; exact h)
  rw [hidx, hb]
  exact Circular.mod_succ

theorem dropNext_held (hwf : RecvWF win) (seq : UInt32) :
    win.dropNext.held seq = if seq = win.nextSeq then none else win.held seq := by
  have hsize := hwf.size_le
  have hnext : win.winIndex win.nextSeq = win.baseIndex % win.windowSize := by
    rw [winIndex_eq hwf.size_le hwf.index_lt (by rw [hwf.base_eq, dist_self]; exact hwf.size_pos),
      hwf.base_eq, dist_self, Nat.add_zero]
  simp only [MAX_WINDOW_SIZE] at hsize
  by_cases he : seq = win.nextSeq
  · subst he
    rw [if_pos rfl, held_of_ge]
    rw [dropNext_nextSeq, dist_succ_base_self, dropNext_windowSize]
    omega
  · rw [if_neg he]
    have hd := dist_succ_base he
    by_cases hnew : dist seq (win.nextSeq + 1) < win.windowSize
    · rw [held_of_lt (by rw [dropNext_nextSeq, dropNext_windowSize]; exact hnew)]
      have hidx := dropNext_winIndex hwf hnew
      by_cases hold : dist seq win.nextSeq < win.windowSize
      · -- A number of the old window keeps its slot.
        rw [held_of_lt hold]
        have hsame : win.dropNext.winIndex seq = win.winIndex seq := by
          rw [hidx, winIndex_eq hwf.size_le hwf.index_lt (by rw [hwf.base_eq]; exact hold),
            hwf.base_eq, hd]
        rw [hsame]
        refine Function.update_of_ne (fun hc => he ?_) _ _
        exact winIndex_inj hwf.size_le hwf.index_lt (by rw [hwf.base_eq]; exact hold)
          (by rw [hwf.base_eq, dist_self]; exact hwf.size_pos) hc
      · -- The number that enters the window reuses the slot just cleared.
        rw [held_of_ge (Nat.not_lt.mp hold), hidx]
        have hwrap : dist seq (win.nextSeq + 1) + 1 = win.windowSize := by omega
        rw [hwrap, Nat.add_mod_right, ← hnext]
        exact Function.update_self ..
    · rw [held_of_ge (by rw [dropNext_nextSeq, dropNext_windowSize]; omega), held_of_ge (by omega)]

theorem dropNext_wf (hwf : RecvWF win) : RecvWF win.dropNext where
  size_pos := hwf.size_pos
  size_le := hwf.size_le
  base_eq := congrArg (· + 1) hwf.base_eq
  index_lt := Nat.mod_lt _ hwf.size_pos
  labelled := by
    intro seq p hp
    rw [dropNext_held hwf] at hp
    split at hp
    · cases hp
    · exact hwf.labelled seq p hp

theorem recvPop_eq (hwf : RecvWF win) :
    win.recvPop = (win.held win.nextSeq).map fun packet => (packet, win.dropNext) := by
  unfold recvPop
  rw [hwf.slots_next]
  cases win.held win.nextSeq <;> rfl

theorem recvPop_eq_none (hwf : RecvWF win) :
    win.recvPop = none ↔ win.held win.nextSeq = none := by
  rw [recvPop_eq hwf, Option.map_eq_none_iff]

theorem recvPop_eq_some (hwf : RecvWF win) :
    win.recvPop = some (packet, win') ↔
      win.held win.nextSeq = some packet ∧ win' = win.dropNext := by
  rw [recvPop_eq hwf, Option.map_eq_some_iff]
  constructor
  · rintro ⟨p, hp, he⟩
    cases he
    exact ⟨hp, rfl⟩
  · rintro ⟨hp, rfl⟩
    exact ⟨packet, hp, rfl⟩

theorem recvSkip_self (win : Window) : win.recvSkip win.nextSeq = win.dropNext := by
  simp [recvSkip, dropNext, winAdvanceBase]

theorem recvSkip_of_ne (h : win.nextSeq ≠ seq) : win.recvSkip seq = win := by
  simp [recvSkip, h]

theorem recvHasPacket_eq (hwf : RecvWF win) : win.recvHasPacket seq = (win.held seq).isSome := by
  have hpos : win.windowSize ≠ 0 := Nat.pos_iff_ne_zero.mp hwf.size_pos
  unfold recvHasPacket held
  by_cases h : dist seq win.nextSeq < win.windowSize
  · have hin : seqnumInWindow seq win.baseSeq win.windowSize = true := by
      rw [seqnumInWindow_iff, hwf.base_eq]; exact h
    simp [hpos, hin, h]
  · have hin : seqnumInWindow seq win.baseSeq win.windowSize = false := by
      rw [← Bool.not_eq_true, seqnumInWindow_iff, hwf.base_eq]; exact h
    simp [hin, h]

-- The look-ahead loop of recvNeedsNack finds exactly the held numbers after the head.
private theorem lookahead_iff (hwf : RecvWF win) :
    ((List.range' 1 (win.windowSize - 1)).any fun i =>
      (win.slots (win.winIndex (win.nextSeq + UInt32.ofNat i))).isSome) = true ↔
      ∃ seq, seq ≠ win.nextSeq ∧ win.held seq ≠ none := by
  have hsize := hwf.size_le
  simp only [MAX_WINDOW_SIZE] at hsize
  rw [List.any_eq_true]
  constructor
  · rintro ⟨i, hi, hslot⟩
    rw [List.mem_range'_1] at hi
    have hd : dist (win.nextSeq + UInt32.ofNat i) win.nextSeq = i := dist_add_ofNat (by omega)
    refine ⟨win.nextSeq + UInt32.ofNat i, ?_, ?_⟩
    · intro he
      rw [he, dist_self] at hd
      omega
    · rw [held_of_lt (by rw [hd]; omega)]
      exact Option.isSome_iff_ne_none.mp hslot
  · rintro ⟨seq, hne, hh⟩
    obtain ⟨p, hp⟩ := Option.ne_none_iff_exists'.mp hh
    have hlt := lt_of_held hp
    have hpos := dist_pos hne
    refine ⟨dist seq win.nextSeq, List.mem_range'_1.mpr (by omega), ?_⟩
    rw [add_dist, ← held_of_lt hlt]
    exact Option.isSome_iff_ne_none.mpr hh

theorem recvNeedsNack_eq_some (hwf : RecvWF win) :
    win.recvNeedsNack = some seq ↔
      seq = win.nextSeq ∧ win.held win.nextSeq = none ∧ ∃ later, win.held later ≠ none := by
  unfold recvNeedsNack
  rw [hwf.slots_next]
  cases hnext : win.held win.nextSeq with
  | some p => simp
  | none =>
    have hany := lookahead_iff hwf
    have hdrop : (∃ seq, seq ≠ win.nextSeq ∧ win.held seq ≠ none) ↔
        ∃ later, win.held later ≠ none := by
      constructor
      · rintro ⟨s, -, hs⟩
        exact ⟨s, hs⟩
      · rintro ⟨s, hs⟩
        exact ⟨s, fun he => hs (he ▸ hnext), hs⟩
    rw [hdrop] at hany
    simp only [Option.isSome_none, Bool.false_eq_true, if_false]
    split
    · rename_i h
      constructor
      · intro he
        cases he
        exact ⟨rfl, trivial, hany.mp h⟩
      · rintro ⟨rfl, -, -⟩
        rfl
    · rename_i h
      constructor
      · intro he
        cases he
      · rintro ⟨-, -, hex⟩
        exact absurd (hany.mpr hex) h

theorem recvNeedsNack_eq_none (hwf : RecvWF win) :
    win.recvNeedsNack = none ↔
      win.held win.nextSeq ≠ none ∨ ∀ later, win.held later = none := by
  constructor
  · intro h
    by_contra hcon
    simp only [not_or, not_not, not_forall] at hcon
    rw [(recvNeedsNack_eq_some hwf).mpr ⟨rfl, hcon⟩] at h
    cases h
  · intro h
    cases hn : win.recvNeedsNack with
    | none => rfl
    | some seq =>
      obtain ⟨-, hnone, later, hl⟩ := (recvNeedsNack_eq_some hwf).mp hn
      rcases h with h | h
      · exact absurd hnone h
      · exact absurd (h later) hl

end

end Porter.Window
