import Mathlib.Data.Prod.Lex
import Mathlib.Order.WellFounded
import Porter.Send.Stream

namespace Porter.Sender

-- What is left to do, the work that comes first last. Every turn that does anything lowers it.
def rest (s : Sender) : Nat ×ₗ Nat ×ₗ Nat ×ₗ Nat :=
  toLex (s.calls.length, toLex (s.todo.length,
    toLex (s.queue.entries.length, s.packing.toList.length)))

-- The messages that were accepted are, with those still to be passed, what the application
-- wants to send.
structure Takes (e : Env) (messages : List Bytes) (s : Sender) : Prop where
  serves : s.Serves e
  accepted : s.accepted ++ s.calls.map Prod.fst = messages
  length : ∀ call ∈ s.calls, 0 < call.1.length ∧ call.1.length ≤ e.maxMessageSize

section

variable {e er : Env} {s : Sender} {hdr : PacketSessionHdr} {groups parts : List (List Elem)}
  {packing : List Elem} {messages : List Bytes}

private theorem rest_lt {a b c d a' b' c' d' : Nat}
    (h : a < a' ∨ a = a' ∧ (b < b' ∨ b = b' ∧ (c < c' ∨ c = c' ∧ d < d'))) :
    toLex (a, toLex (b, toLex (c, d))) < toLex (a', toLex (b', toLex (c', d'))) := by
  simpa only [Prod.Lex.toLex_lt_toLex] using h

theorem call_rest (s : Sender) : s.call e = s ∨ (s.call e).rest < s.rest := by
  unfold call
  split
  · rename_i data compress calls htodo hcalls
    split
    · exact .inr (rest_lt (.inl (by simp [hcalls])))
    · exact .inr (rest_lt (.inl (by simp [hcalls])))
  · exact .inl rfl

theorem pushFragment_rest (s : Sender) :
    s.pushFragment e = s ∨ (s.pushFragment e).rest < s.rest := by
  unfold pushFragment
  split
  · exact .inl rfl
  · rename_i elem todo htodo
    split
    · exact .inr (rest_lt (.inr ⟨rfl, .inl (by simp [htodo])⟩))
    · exact .inl rfl

theorem popFirst_rest (s : Sender) : s.popFirst e = s ∨ (s.popFirst e).rest < s.rest := by
  unfold popFirst
  split
  · rename_i peerId elem queue hnone hpop
    obtain ⟨hentries, -⟩ := pop_eq_some hpop
    have hless : queue.entries.length < s.queue.entries.length := by simp [hentries]
    split
    · exact .inr (rest_lt (.inr ⟨rfl, .inr ⟨rfl, .inl hless⟩⟩))
    · exact .inr (rest_lt (.inr ⟨rfl, .inr ⟨rfl, .inl hless⟩⟩))
  · exact .inl rfl

theorem packNext_rest (s : Sender) : s.packNext e = s ∨ (s.packNext e).rest < s.rest := by
  unfold packNext
  split
  · rename_i p peerId elem queue hsome hpop
    obtain ⟨hentries, -⟩ := pop_eq_some hpop
    have hless : queue.entries.length < s.queue.entries.length := by simp [hentries]
    split
    · exact .inl rfl
    · exact .inr (rest_lt (.inr ⟨rfl, .inr ⟨rfl, .inl hless⟩⟩))
  · exact .inl rfl

theorem flushPacking_rest (s : Sender) :
    s.flushPacking e true = s ∨ (s.flushPacking e true).rest < s.rest := by
  unfold flushPacking
  split
  · exact .inl rfl
  · rename_i p hsome
    exact .inr (rest_lt (.inr ⟨rfl, .inr ⟨rfl, .inr ⟨rfl, by simp [hsome]⟩⟩⟩))

theorem step_rest (s : Sender) (act : Action) :
    s.step e act = s ∨ (s.step e act).rest < s.rest := by
  cases act with
  | call => exact call_rest s
  | push => exact pushFragment_rest s
  | pop => exact popFirst_rest s
  | pack => exact packNext_rest s
  | flush => exact flushPacking_rest s

-- Unless everything is sent, one of the threads can go on: the queue has room as soon as nothing
-- waits in it.
theorem Stream.exists_step (h : s.Stream e hdr groups packing parts) (hnot : ¬ s.Done) :
    ∃ act, s.step e act ≠ s := by
  cases hpacking : s.packing with
  | some p =>
    refine ⟨.flush, fun heq => ?_⟩
    have hsame : (s.flushPacking e true).packing = s.packing := congrArg Sender.packing heq
    simp [flushPacking, hpacking] at hsame
  | none =>
    obtain ⟨-, hinflight⟩ := h.idle hpacking
    cases hentries : s.queue.entries with
    | cons entry entries =>
      refine ⟨.pop, fun heq => ?_⟩
      have hlen : (s.popFirst e).queue.entries.length = s.queue.entries.length :=
        congrArg (fun s : Sender => s.queue.entries.length) heq
      simp only [popFirst, SendQueue.pop, hpacking, hentries] at hlen
      split at hlen
      · simp [SendQueue.complete] at hlen
      · simp at hlen
    | nil =>
      cases htodo : s.todo with
      | cons elem todo =>
        refine ⟨.push, fun heq => ?_⟩
        have hdepth := e.sendQueueDepth_bound
        have hroom : ¬ e.sendQueueDepth ≤ s.queue.entries.length + s.queue.inflight := by
          rw [hentries, hinflight, List.length_nil]
          omega
        have hlen : (s.pushFragment e).todo.length = s.todo.length :=
          congrArg (fun s : Sender => s.todo.length) heq
        simp [pushFragment, SendQueue.push, htodo, hroom] at hlen
      | nil =>
        cases hcalls : s.calls with
        | nil => exact absurd ⟨hcalls, htodo, hentries, hpacking⟩ hnot
        | cons next calls =>
          obtain ⟨data, compress⟩ := next
          refine ⟨.call, fun heq => ?_⟩
          have hlen : (s.call e).calls.length = s.calls.length :=
            congrArg (fun s : Sender => s.calls.length) heq
          simp only [Sender.call, htodo, hcalls] at hlen
          split at hlen
          · simp at hlen
          · simp at hlen

theorem Stream.exists_done (hcrypto : e.Crypto er) (h : s.Stream e hdr groups packing parts) :
    ∃ acts, (s.run e acts).Done := by
  suffices hall : ∀ (n : Nat ×ₗ Nat ×ₗ Nat ×ₗ Nat) (s : Sender) (groups parts : List (List Elem))
      (packing : List Elem), s.rest = n → s.Stream e hdr groups packing parts →
      ∃ acts, (s.run e acts).Done from hall _ s groups parts packing rfl h
  intro n
  induction n using WellFoundedLT.induction with
  | ind n ih =>
    intro s groups parts packing hn h
    by_cases hdone : s.Done
    · exact ⟨[], hdone⟩
    · obtain ⟨act, hact⟩ := h.exists_step hdone
      obtain ⟨groups', packing', parts', h'⟩ := h.step hcrypto act
      obtain ⟨acts, hacts⟩ := ih _ (hn ▸ (step_rest s act).resolve_left hact) _ _ _ _ rfl h'
      exact ⟨act :: acts, hacts⟩

private theorem flush_serves (packed : Bytes) {writable : Bool} {s' : Sender}
    (hslot : s'.slot = s.slot.flush e packed writable)
    (hclose : s'.closeRequested = s.closeRequested) (htcp : s'.tcpActivePaths = s.tcpActivePaths)
    (h : s.Serves e) : s'.Serves e := by
  obtain ⟨-, hpeer, hactive, halive, -⟩ := Slot.flush_same e s.slot packed writable
  unfold Serves
  rw [hslot, hclose, htcp, hpeer, hactive, halive]
  exact h

theorem Takes.step (hcodec : e.Codec er) (h : s.Takes e messages) (act : Action) :
    (s.step e act).Takes e messages := by
  cases act with
  | call =>
    change (s.call e).Takes e messages
    unfold Sender.call
    split
    · rename_i data compress calls htodo hcalls
      have hlen := h.length (data, compress) (hcalls ▸ List.mem_cons_self)
      obtain ⟨elems, helems⟩ := (serviceSend_of_serves hcodec h.serves hlen.1 hlen.2 :
        ∃ elems, s.serviceSend e data compress = .ok elems)
      have haccepted := h.accepted
      rw [hcalls] at haccepted
      rw [helems]
      refine ⟨h.serves, ?_, fun call hcall => h.length call (hcalls ▸ List.mem_cons_of_mem _ hcall)⟩
      simpa using haccepted
    · exact h
  | push =>
    change (s.pushFragment e).Takes e messages
    unfold pushFragment
    split
    · exact h
    · split
      · exact ⟨h.serves, h.accepted, h.length⟩
      · exact h
  | pop =>
    change (s.popFirst e).Takes e messages
    unfold popFirst
    split
    · split
      · exact ⟨h.serves, h.accepted, h.length⟩
      · exact ⟨h.serves, h.accepted, h.length⟩
    · exact h
  | pack =>
    change (s.packNext e).Takes e messages
    unfold packNext
    split
    · split
      · exact h
      · exact ⟨h.serves, h.accepted, h.length⟩
    · exact h
  | flush =>
    change (s.flushPacking e true).Takes e messages
    unfold flushPacking
    split
    · exact h
    · rename_i p hsome
      exact ⟨flush_serves p.packed rfl rfl rfl h.serves, h.accepted, h.length⟩

theorem run_takes (hcodec : e.Codec er) (h : s.Takes e messages) (acts : List Action) :
    (s.run e acts).Takes e messages :=
  Run.foldl_preserves (P := fun s : Sender => s.Takes e messages)
    (fun _ act h => h.step hcodec act) h acts

theorem Takes.accepted_of_done (h : s.Takes e messages) (hdone : s.Done) :
    s.accepted = messages := by
  have haccepted := h.accepted
  rwa [hdone.1, List.map_nil, List.append_nil] at haccepted

end

end Porter.Sender
