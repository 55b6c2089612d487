import Porter.Window

namespace Porter.Window

open Serial

-- The packet a push drops to make room.
def evicts (win : Window) : Option Packet :=
  if win.sendFull then win.slots (win.winIndex win.baseSeq) else none

-- A send window after `gone` and `live` were pushed: it holds `live`.
structure SendWF (win : Window) (gone live : List Packet) : Prop where
  size_pos : 0 < win.windowSize
  size_le : win.windowSize ≤ MAX_WINDOW_SIZE
  next_eq : win.nextSeq = UInt32.ofNat (gone.length + live.length)
  base_eq : win.baseSeq = UInt32.ofNat gone.length
  index_eq : win.baseIndex = gone.length % win.windowSize
  fits : live.length ≤ win.windowSize
  slots : ∀ i (h : i < live.length), win.slots ((gone.length + i) % win.windowSize) = some live[i]

section

variable {win : Window} {gone live : List Packet}

theorem init_sendWF {n : Nat} (hpos : 0 < n) (hle : n ≤ MAX_WINDOW_SIZE) :
    (init 0 n).SendWF [] [] :=
  ⟨hpos, hle, rfl, rfl, (Nat.zero_mod n).symm, Nat.zero_le _, fun i h => absurd h (by simp)⟩

private theorem ofNat_sub (a i : Nat) : UInt32.ofNat (a + i) - UInt32.ofNat a = UInt32.ofNat i := by
  rw [UInt32.ofNat_add, UInt32.add_comm, UInt32.add_sub_cancel]

theorem SendWF.winIndex_eq (hwf : win.SendWF gone live) {i : Nat} (hi : i ≤ win.windowSize) :
    win.winIndex (UInt32.ofNat (gone.length + i)) = (gone.length + i) % win.windowSize := by
  have hsize := hwf.size_le
  have hindex : win.baseIndex < win.windowSize := hwf.index_eq ▸ Nat.mod_lt _ hwf.size_pos
  simp only [MAX_WINDOW_SIZE] at hsize
  unfold winIndex
  rw [hwf.base_eq, ofNat_sub, ← UInt32.ofNat_add,
    UInt32.toNat_ofNat_of_lt' (by simp only [UInt32.size]; omega), hwf.index_eq, Nat.mod_add_mod]

theorem SendWF.sendFull_iff (hwf : win.SendWF gone live) :
    win.sendFull = true ↔ live.length = win.windowSize := by
  have hsize := hwf.size_le
  have hfits := hwf.fits
  simp only [MAX_WINDOW_SIZE] at hsize
  unfold sendFull
  rw [hwf.next_eq, hwf.base_eq, ofNat_sub,
    UInt32.toNat_ofNat_of_lt' (by simp only [UInt32.size]; omega), decide_eq_true_eq]
  omega

theorem SendWF.sendGet_eq (hwf : win.SendWF gone live) (seq : UInt32) :
    win.sendGet seq = live[dist seq (UInt32.ofNat gone.length)]? := by
  have hsize := hwf.size_le
  have hfits := hwf.fits
  simp only [MAX_WINDOW_SIZE] at hsize
  have hspan : (win.nextSeq - win.baseSeq).toNat % 65536 = live.length := by
    rw [hwf.next_eq, hwf.base_eq, ofNat_sub,
      UInt32.toNat_ofNat_of_lt' (by simp only [UInt32.size]; omega)]
    omega
  unfold sendGet seqnumInWindow
  rw [hspan, hwf.base_eq]
  change (if (decide (dist seq (UInt32.ofNat gone.length) < live.length)) = true then _ else _) = _
  by_cases hin : dist seq (UInt32.ofNat gone.length) < live.length
  · rw [if_pos (by simpa using hin), List.getElem?_eq_getElem hin, ← hwf.slots _ hin,
      ← hwf.winIndex_eq (by omega), UInt32.ofNat_add, add_dist]
  · rw [if_neg (by simpa using hin), List.getElem?_eq_none (Nat.not_lt.mp hin)]

private theorem SendWF.push_room (hwf : win.SendWF gone live)
    (hroom : live.length < win.windowSize) (packet : Packet) :
    SendWF { win with
      slots := Function.update win.slots (win.winIndex win.nextSeq) (some packet)
      nextSeq := win.nextSeq + 1 } gone (live ++ [packet]) := by
  have hidx : win.winIndex win.nextSeq = (gone.length + live.length) % win.windowSize := by
    rw [hwf.next_eq, hwf.winIndex_eq hwf.fits]
  refine ⟨hwf.size_pos, hwf.size_le, ?_, hwf.base_eq, hwf.index_eq,
    by rw [List.length_append]; exact hroom, fun i hi => ?_⟩
  · change win.nextSeq + 1 = _
    rw [hwf.next_eq, List.length_append, List.length_singleton, ← Nat.add_assoc,
      UInt32.ofNat_add (gone.length + live.length)]
    rfl
  · change Function.update win.slots (win.winIndex win.nextSeq) (some packet)
      ((gone.length + i) % win.windowSize) = _
    rw [hidx]
    rw [List.length_append, List.length_singleton] at hi
    by_cases hlast : i = live.length
    · subst hlast
      simp
    · have hlt : i < live.length := by omega
      have hne : (gone.length + i) % win.windowSize ≠
          (gone.length + live.length) % win.windowSize := fun heq =>
        hlast (Circular.mod_inj (by omega) hroom heq)
      rw [Function.update_of_ne hne, hwf.slots i hlt, List.getElem_append_left hlt]

private theorem SendWF.evict {oldest : Packet} (hwf : win.SendWF gone (oldest :: live)) :
    (winAdvanceBase { win with
      slots := Function.update win.slots (win.winIndex win.baseSeq) none }).SendWF
      (gone ++ [oldest]) live := by
  have hfits := hwf.fits
  rw [List.length_cons] at hfits
  have hidx : win.winIndex win.baseSeq = gone.length % win.windowSize := by
    have h := hwf.winIndex_eq (Nat.zero_le _)
    rw [Nat.add_zero, ← hwf.base_eq] at h
    exact h
  refine ⟨hwf.size_pos, hwf.size_le, ?_, ?_, ?_, by change live.length ≤ win.windowSize; omega,
    fun i hi => ?_⟩
  · change win.nextSeq = _
    rw [hwf.next_eq, List.length_append, List.length_singleton, List.length_cons]
    congr 1
    omega
  · change win.baseSeq + 1 = _
    rw [hwf.base_eq, List.length_append, List.length_singleton, UInt32.ofNat_add]
    rfl
  · change (win.baseIndex + 1) % win.windowSize = _
    rw [hwf.index_eq, Nat.mod_add_mod, List.length_append, List.length_singleton]
    rfl
  · change Function.update win.slots (win.winIndex win.baseSeq) none
      (((gone ++ [oldest]).length + i) % win.windowSize) = _
    have hpos : (gone ++ [oldest]).length + i = gone.length + (i + 1) := by
      rw [List.length_append, List.length_singleton]
      omega
    have hne : (gone.length + (i + 1)) % win.windowSize ≠ gone.length % win.windowSize := by
      intro heq
      have hzero : (gone.length + (i + 1)) % win.windowSize = (gone.length + 0) % win.windowSize :=
        heq
      have := Circular.mod_inj (by omega) hwf.size_pos hzero
      omega
    rw [hidx, hpos, Function.update_of_ne hne, hwf.slots (i + 1) (by simpa using hi)]
    rfl

theorem SendWF.sendPush_full {oldest : Packet} (hwf : win.SendWF gone (oldest :: live))
    (hfull : (oldest :: live).length = win.windowSize) (packet : Packet) :
    win.evicts = some oldest ∧ (win.sendPush packet).SendWF (gone ++ [oldest]) (live ++ [packet]) := by
  constructor
  · have h0 := hwf.slots 0 (by simp)
    have hidx := hwf.winIndex_eq (Nat.zero_le _)
    rw [Nat.add_zero, ← hwf.base_eq] at hidx
    unfold evicts
    rw [if_pos (hwf.sendFull_iff.mpr hfull), hidx]
    exact h0
  · have hroom := (SendWF.evict hwf).push_room
      (by change live.length < win.windowSize; rw [List.length_cons] at hfull; omega) packet
    unfold Window.sendPush
    rw [if_pos (hwf.sendFull_iff.mpr hfull)]
    exact hroom

theorem SendWF.sendPush_room (hwf : win.SendWF gone live) (hroom : live.length < win.windowSize)
    (packet : Packet) :
    win.evicts = none ∧ (win.sendPush packet).SendWF gone (live ++ [packet]) := by
  have hnot : win.sendFull = false := by
    rw [← Bool.not_eq_true, hwf.sendFull_iff]
    omega
  constructor
  · unfold evicts
    rw [hnot]
    rfl
  · have hpush := hwf.push_room hroom packet
    unfold Window.sendPush
    rw [hnot]
    simpa using hpush

-- A push into a full window drops the oldest packet; otherwise nothing is dropped.
theorem SendWF.sendPush (hwf : win.SendWF gone live) (packet : Packet) :
    ∃ live', (win.sendPush packet).SendWF (gone ++ win.evicts.toList) live' ∧
      gone ++ live ++ [packet] = gone ++ win.evicts.toList ++ live' := by
  by_cases hfull : live.length = win.windowSize
  · cases live with
    | nil => exact absurd hfull (Nat.ne_of_lt hwf.size_pos)
    | cons oldest live =>
      obtain ⟨hevict, hpush⟩ := hwf.sendPush_full hfull packet
      rw [hevict]
      exact ⟨live ++ [packet], hpush, by simp⟩
  · obtain ⟨hevict, hpush⟩ := hwf.sendPush_room (Nat.lt_of_le_of_ne hwf.fits hfull) packet
    rw [hevict]
    exact ⟨live ++ [packet], by simpa using hpush, by simp⟩

end

-- The last packets of `sent`, as many as the window has room for.
def retained (win : Window) (sent : List Packet) : List Packet :=
  sent.drop (sent.length - win.windowSize)

-- A send window into which the packets of `sent` were pushed, numbered from 0 on.
structure Sent (win : Window) (sent : List Packet) : Prop where
  wf : win.SendWF (sent.take (sent.length - win.windowSize)) (win.retained sent)
  numbered : ∀ i (h : i < sent.length), sent[i].seqNum = UInt32.ofNat i

section

variable {win : Window} {sent : List Packet}

theorem init_sent {n : Nat} (hpos : 0 < n) (hle : n ≤ MAX_WINDOW_SIZE) : (init 0 n).Sent [] :=
  ⟨by simpa [retained] using init_sendWF hpos hle, fun i h => absurd h (by simp)⟩

theorem Sent.next_eq (h : win.Sent sent) : win.nextSeq = UInt32.ofNat sent.length := by
  rw [h.wf.next_eq, retained, ← List.length_append, List.take_append_drop]

@[simp] theorem sendPush_windowSize (win : Window) (packet : Packet) :
    (win.sendPush packet).windowSize = win.windowSize := by
  unfold sendPush winAdvanceBase
  split <;> rfl

theorem Sent.sendPush (h : win.Sent sent) {packet : Packet} (hnum : packet.seqNum = win.nextSeq) :
    (win.sendPush packet).Sent (sent ++ [packet]) := by
  refine ⟨?_, fun i hi => ?_⟩
  · have hlen : (win.retained sent).length = sent.length - (sent.length - win.windowSize) :=
      List.length_drop
    have hpos := h.wf.size_pos
    rw [retained, sendPush_windowSize, List.length_append, List.length_singleton]
    by_cases hroom : sent.length < win.windowSize
    · -- Nothing has been dropped yet.
      have hnone : sent.length - win.windowSize = 0 := by omega
      have hpush := (h.wf.sendPush_room (by omega) packet).2
      rw [show sent.length + 1 - win.windowSize = 0 by omega]
      simpa only [retained, hnone, List.take_zero, List.drop_zero] using hpush
    · have hfull : (win.retained sent).length = win.windowSize := by omega
      have hwf := h.wf
      -- The oldest packet moves over to those that are gone.
      have hlt : sent.length - win.windowSize < sent.length := by omega
      have hcons : win.retained sent = sent[sent.length - win.windowSize] ::
          sent.drop (sent.length - win.windowSize + 1) := List.drop_eq_getElem_cons hlt
      rw [hcons] at hwf hfull
      have hpush := (hwf.sendPush_full hfull packet).2
      have hsucc : sent.length + 1 - win.windowSize = sent.length - win.windowSize + 1 := by omega
      have hle : sent.length - win.windowSize + 1 ≤ sent.length := by omega
      rw [hsucc, List.take_append_of_le_length hle, List.drop_append_of_le_length hle,
        List.take_succ_eq_append_getElem hlt]
      exact hpush
  · by_cases hold : i < sent.length
    · rw [List.getElem_append_left hold]
      exact h.numbered i hold
    · rw [List.length_append, List.length_singleton] at hi
      obtain rfl : i = sent.length := by omega
      rw [List.getElem_concat_length rfl, hnum, h.next_eq]

-- The window finds a number exactly if one of the packets it still has bears it.
theorem Sent.sendGet_eq_some (h : win.Sent sent) {seq : UInt32} {packet : Packet} :
    win.sendGet seq = some packet ↔ packet ∈ win.retained sent ∧ packet.seqNum = seq := by
  have hsize := h.wf.size_le
  have hfits := h.wf.fits
  simp only [MAX_WINDOW_SIZE] at hsize
  -- Position `i` of the retained packets has the number `i` behind the oldest one.
  have hseq : ∀ i (hi : i < (win.retained sent).length), (win.retained sent)[i].seqNum =
      UInt32.ofNat (sent.length - win.windowSize + i) := by
    intro i hi
    unfold retained at hi ⊢
    rw [List.getElem_drop]
    exact h.numbered _ _
  have hgone : (sent.take (sent.length - win.windowSize)).length = sent.length - win.windowSize := by
    rw [List.length_take]
    omega
  rw [h.wf.sendGet_eq, hgone]
  constructor
  · intro hget
    obtain ⟨hi, hat⟩ := List.getElem?_eq_some_iff.mp hget
    rw [← hat]
    refine ⟨List.getElem_mem hi, ?_⟩
    rw [hseq _ hi, UInt32.ofNat_add, add_dist]
  · rintro ⟨hmem, rfl⟩
    obtain ⟨i, hi, rfl⟩ := List.getElem_of_mem hmem
    rw [hseq i hi, UInt32.ofNat_add, dist_add_ofNat (by omega), List.getElem?_eq_getElem hi]

end

end Porter.Window
