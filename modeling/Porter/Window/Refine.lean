import Porter.Lib.Run
import Porter.Lib.SeqMap
import Porter.Platform
import Porter.Window.Lemmas

namespace Porter.Window

open Serial

-- The calls a receiver makes on its window, and what they return.
inductive RecvCall where
  | push (packet : Packet)
  | pop
  | skip (seqNum : UInt32)
  | reset (newBaseSeq : UInt32)
  | hasPacket (seqNum : UInt32)
  | needsNack

inductive RecvReturn where
  | push (ok : Bool)
  | pop (packet : Option Packet)
  | done
  | hasPacket (has : Bool)
  | needsNack (nackNum : Option UInt32)

def recvCall (win : Window) : RecvCall → Window × RecvReturn
  | .push packet =>
      match win.recvPush packet with
      | some win' => (win', .push true)
      | none => (win, .push false)
  | .pop =>
      match win.recvPop with
      | some (packet, win') => (win', .pop (some packet))
      | none => (win, .pop none)
  | .skip seqNum => (win.recvSkip seqNum, .done)
  | .reset newBaseSeq => (win.recvReset newBaseSeq, .done)
  | .hasPacket seqNum => (win, .hasPacket (win.recvHasPacket seqNum))
  | .needsNack => (win, .needsNack win.recvNeedsNack)

-- The same calls on a map of packets.
noncomputable def mapCall (m : SeqMap Packet) : RecvCall → SeqMap Packet × RecvReturn
  | .push packet =>
      let (m, ok) := m.push packet.seqNum packet
      (m, .push ok)
  | .pop =>
      let (m, packet) := m.pop
      (m, .pop packet)
  | .skip seqNum => (m.skip seqNum, .done)
  | .reset newBaseSeq => (m.reset newBaseSeq, .done)
  | .hasPacket seqNum => (m, .hasPacket (m.has seqNum))
  | .needsNack => (m, .needsNack m.missing)

def toMap (win : Window) : SeqMap Packet where
  next := win.nextSeq
  size := win.windowSize
  get := win.held
  bounded := fun _ h => held_of_ge h

section

variable {win win' : Window} {packet : Packet} {seq : UInt32}

theorem toMap_push (hwf : RecvWF win) (h : win.recvPush packet = some win') :
    win.toMap.push packet.seqNum packet = (win'.toMap, true) := by
  have hin : win.toMap.InRange packet.seqNum := recvPush_in_window hwf h
  unfold SeqMap.push
  rw [dif_pos hin]
  refine congrArg (·, true) (SeqMap.ext_get ?_ ?_ fun seq => ?_)
  · split <;> exact (recvPush_nextSeq h).symm
  · split <;> exact (recvPush_windowSize h).symm
  · refine Eq.trans ?_ (recvPush_held hwf h seq).symm
    split
    · rename_i hsome
      obtain ⟨old, hold⟩ := Option.isSome_iff_exists.mp hsome
      have hheld : win.held packet.seqNum = some old := hold
      split
      · rename_i he
        rw [he, hheld, Option.some_or]
        exact hheld
      · rfl
    · rename_i hnone
      have hheld : win.held packet.seqNum = none := Option.not_isSome_iff_eq_none.mp hnone
      split
      · rename_i he
        rw [he, hheld, Option.none_or]
        exact Function.update_self ..
      · rename_i he
        exact Function.update_of_ne he ..

theorem toMap_dropNext (hwf : RecvWF win) : win.dropNext.toMap = win.toMap.advance := by
  refine SeqMap.ext_get rfl rfl fun seq => ?_
  change win.dropNext.held seq = Function.update win.held win.nextSeq none seq
  rw [dropNext_held hwf]
  by_cases he : seq = win.nextSeq
  · rw [if_pos he, he, Function.update_self]
  · rw [if_neg he, Function.update_of_ne he]

theorem toMap_missing (hwf : RecvWF win) : win.toMap.missing = win.recvNeedsNack := by
  have hlater : (∃ seq, seq ≠ win.nextSeq ∧ win.held seq ≠ none) → ∃ later, win.held later ≠ none :=
    fun ⟨seq, _, h⟩ => ⟨seq, h⟩
  unfold SeqMap.missing
  split
  · rename_i h
    exact ((recvNeedsNack_eq_some hwf).mpr ⟨rfl, h.1, hlater h.2⟩).symm
  · rename_i h
    refine ((recvNeedsNack_eq_none hwf).mpr ?_).symm
    by_contra hcon
    simp only [not_or, not_not, not_forall] at hcon
    obtain ⟨hnext, later, hheld⟩ := hcon
    exact h ⟨hnext, later, fun he => hheld (he ▸ hnext), hheld⟩

theorem recvReset_wf (hwf : RecvWF win) (newBaseSeq : UInt32) : RecvWF (win.recvReset newBaseSeq) := by
  rw [recvReset_eq]
  exact init_wf hwf.size_pos hwf.size_le

theorem recvCall_refines (hwf : RecvWF win) (call : RecvCall) :
    (RecvWF (win.recvCall call).1 ∧ (win.recvCall call).1.windowSize = win.windowSize) ∧
      mapCall win.toMap call = ((win.recvCall call).1.toMap, (win.recvCall call).2) := by
  cases call with
  | push packet =>
    cases h : win.recvPush packet with
    | some win' =>
      simp only [recvCall, h, mapCall, toMap_push hwf h]
      exact ⟨⟨recvPush_wf hwf h, recvPush_windowSize h⟩, trivial⟩
    | none =>
      have hout : ¬ win.toMap.InRange packet.seqNum :=
        Nat.not_lt.mpr ((recvPush_eq_none hwf).mp h)
      simp only [recvCall, h, mapCall, SeqMap.push, dif_neg hout]
      exact ⟨⟨hwf, trivial⟩, trivial⟩
  | pop =>
    cases h : win.held win.nextSeq with
    | some packet =>
      have hget : win.toMap.get win.toMap.next = some packet := h
      have hpop := (recvPop_eq_some hwf).mpr ⟨h, rfl⟩
      simp only [recvCall, hpop, mapCall, SeqMap.pop, hget, toMap_dropNext hwf]
      exact ⟨⟨dropNext_wf hwf, rfl⟩, trivial⟩
    | none =>
      have hget : win.toMap.get win.toMap.next = none := h
      have hpop := (recvPop_eq_none hwf).mpr h
      simp only [recvCall, hpop, mapCall, SeqMap.pop, hget]
      exact ⟨⟨hwf, trivial⟩, trivial⟩
  | skip seqNum =>
    by_cases he : seqNum = win.nextSeq
    · subst he
      simp only [recvCall, recvSkip_self, mapCall, toMap_dropNext hwf]
      refine ⟨⟨dropNext_wf hwf, rfl⟩, congrArg (·, RecvReturn.done) (if_pos rfl)⟩
    · simp only [recvCall, recvSkip_of_ne (Ne.symm he), mapCall]
      exact ⟨⟨hwf, trivial⟩, congrArg (·, RecvReturn.done) (if_neg he)⟩
  | reset newBaseSeq =>
    refine ⟨⟨recvReset_wf hwf newBaseSeq, rfl⟩, congrArg (·, RecvReturn.done) ?_⟩
    refine SeqMap.ext_get rfl rfl fun seq => ?_
    refine Eq.trans ?_ (congrFun (congrArg held (recvReset_eq win newBaseSeq).symm) seq)
    rw [held_init]
    rfl
  | hasPacket seqNum =>
    refine ⟨⟨hwf, rfl⟩, congrArg (win.toMap, RecvReturn.hasPacket ·) ?_⟩
    exact (recvHasPacket_eq hwf).symm
  | needsNack => exact ⟨⟨hwf, rfl⟩, congrArg (win.toMap, RecvReturn.needsNack ·) (toMap_missing hwf)⟩

end

-- A receive window of any allowed size is a map of the numbers from next_seq on: all its calls
-- return what they return on the map, its base is the next number, and no two numbers in range
-- share a slot.
theorem recvWindow_refines_map (n : Nat) (hmin : 2 ≤ n) (hmax : n ≤ MAX_WINDOW_SIZE)
    (initialSeq : UInt32) (calls : List RecvCall) :
    let last := Run.answers recvCall (init initialSeq n) calls
    let spec := Run.answers mapCall (SeqMap.empty initialSeq n) calls
    last.2 = spec.2 ∧ last.1.toMap = spec.1 ∧ last.1.windowSize = n ∧
      last.1.baseSeq = last.1.nextSeq ∧
      ∀ seq seq', dist seq last.1.nextSeq < n → dist seq' last.1.nextSeq < n →
        last.1.winIndex seq = last.1.winIndex seq' → seq = seq' := by
  intro last spec
  have hstart : (init initialSeq n).toMap = SeqMap.empty initialSeq n :=
    SeqMap.ext_get rfl rfl fun seq => held_init initialSeq n seq
  have hstep : ∀ win m call, ((RecvWF win ∧ win.windowSize = n) ∧ win.toMap = m) →
      ((RecvWF (recvCall win call).1 ∧ (recvCall win call).1.windowSize = n) ∧
        (recvCall win call).1.toMap = (mapCall m call).1) ∧
      (recvCall win call).2 = (mapCall m call).2 := by
    rintro win m call ⟨⟨hwf, hsize⟩, rfl⟩
    obtain ⟨⟨hwf', hsize'⟩, hcall⟩ := recvCall_refines hwf call
    rw [hcall]
    exact ⟨⟨⟨hwf', hsize'.trans hsize⟩, rfl⟩, rfl⟩
  obtain ⟨⟨⟨hwf, hsize⟩, hmap⟩, hreturns⟩ := Run.answers_simulate
    (R := fun win m => (RecvWF win ∧ win.windowSize = n) ∧ win.toMap = m) hstep
    ⟨⟨init_wf (by omega) hmax, rfl⟩, hstart⟩ calls
  refine ⟨hreturns, hmap, hsize, hwf.base_eq, fun seq seq' hseq hseq' heq => ?_⟩
  apply winIndex_inj hwf.size_le hwf.index_lt _ _ heq
  · rw [hwf.base_eq, hsize]
    exact hseq
  · rw [hwf.base_eq, hsize]
    exact hseq'

-- A window of three at the end of the numbers: number 0 arrives first and is handed out second.
theorem recvWindow_refines_map_sample :
    2 ≤ 3 ∧ 3 ≤ MAX_WINDOW_SIZE ∧
    (let calls := [RecvCall.push (.sampleData 0 []), .needsNack, .push (.sampleData 4294967295 []), .pop,
        .pop, .pop, .hasPacket 0]
    (Run.answers recvCall (init 4294967295 3) calls).2 =
      (Run.answers mapCall (SeqMap.empty 4294967295 3) calls).2) :=
  ⟨by decide, by decide, (recvWindow_refines_map 3 (by decide) (by decide) _ _).1⟩

end Porter.Window
