import Mathlib.Data.List.Basic
import Mathlib.Data.Nat.Init

-- A bounded queue in a ring of cells. What is taken out stays in its cell until it is completed,
-- so that a reader may go on using the cell.
structure RingQueue (α : Type*) where
  cells : Nat → α
  head : Nat
  tail : Nat
  count : Nat
  inflight : Nat

namespace RingQueue

variable {α : Type*}

def empty (filler : α) : RingQueue α := ⟨fun _ => filler, 0, 0, 0, 0⟩

def push (depth : Nat) (q : RingQueue α) (x : α) : Option (RingQueue α) :=
  if depth ≤ q.count + q.inflight then none
  else some
    { q with
      cells := Function.update q.cells q.tail x
      tail := (q.tail + 1) % depth
      count := q.count + 1 }

def peek (q : RingQueue α) : Option Nat := if q.count = 0 then none else some q.head

def pop (depth : Nat) (q : RingQueue α) : Option (Nat × RingQueue α) :=
  if q.count = 0 then none
  else some (q.head,
    { q with
      head := (q.head + 1) % depth
      count := q.count - 1
      inflight := q.inflight + 1 })

def complete (q : RingQueue α) : RingQueue α := { q with inflight := q.inflight - 1 }

def Drained (q : RingQueue α) : Prop := q.count = 0 ∧ q.inflight = 0

instance (q : RingQueue α) : Decidable q.Drained := inferInstanceAs (Decidable (_ ∧ _))

-- The queue after `history` was pushed, of which the first `taken` items were taken out and the
-- first `completed` were completed.
structure Tracks (depth : Nat) (q : RingQueue α) (history : List α) (completed taken : Nat) :
    Prop where
  completed_le : completed ≤ taken
  taken_le : taken ≤ history.length
  room : history.length ≤ completed + depth
  head : q.head = taken % depth
  tail : q.tail = history.length % depth
  count : q.count + taken = history.length
  inflight : q.inflight + completed = taken
  cells : ∀ k x, completed ≤ k → history[k]? = some x → q.cells (k % depth) = x

section

variable {depth : Nat} {q q' : RingQueue α} {history : List α} {completed taken : Nat}

theorem empty_tracks (filler : α) : Tracks depth (empty filler) [] 0 0 where
  completed_le := Nat.le_refl 0
  taken_le := Nat.le_refl 0
  room := by simp
  head := by simp [empty]
  tail := by simp [empty]
  count := rfl
  inflight := rfl
  cells := by simp

theorem mod_ne_of_lt {k n : Nat} (hkn : k < n) (hn : n < k + depth) : k % depth ≠ n % depth := by
  intro heq
  have hdvd : depth ∣ n - k := Nat.dvd_of_mod_eq_zero (Nat.sub_mod_eq_zero_of_mod_eq heq.symm)
  have := Nat.le_of_dvd (by omega) hdvd
  omega

theorem Tracks.push {x : α} (h : Tracks depth q history completed taken)
    (hpush : q.push depth x = some q') : Tracks depth q' (history ++ [x]) completed taken := by
  unfold RingQueue.push at hpush
  split at hpush
  · cases hpush
  · rename_i hroom
    obtain rfl := Option.some.inj hpush
    have hcount := h.count
    have hinflight := h.inflight
    have hle := h.completed_le
    refine ⟨hle, ?_, ?_, h.head, ?_, ?_, hinflight, fun k y hk hy => ?_⟩
    · rw [List.length_append, List.length_singleton]
      omega
    · rw [List.length_append, List.length_singleton]
      omega
    · simp only [h.tail, List.length_append, List.length_singleton, Nat.mod_add_mod]
    · simp only [List.length_append, List.length_singleton]
      omega
    · simp only [h.tail]
      by_cases hlast : k < history.length
      · rw [List.getElem?_append_left hlast] at hy
        rw [Function.update_of_ne (mod_ne_of_lt hlast (by omega))]
        exact h.cells k y hk hy
      · have hlen := (List.getElem?_eq_some_iff.mp hy).1
        rw [List.length_append, List.length_singleton] at hlen
        obtain rfl : k = history.length := by omega
        rw [Function.update_self]
        simpa using hy

theorem Tracks.peek {cell : Nat} (h : Tracks depth q history completed taken)
    (hpeek : q.peek = some cell) :
    cell = taken % depth ∧ ∃ x, history[taken]? = some x ∧ q.cells cell = x := by
  unfold RingQueue.peek at hpeek
  split at hpeek
  · cases hpeek
  · obtain rfl := Option.some.inj hpeek
    have hcount := h.count
    have hlt : taken < history.length := by omega
    refine ⟨h.head, _, List.getElem?_eq_getElem hlt, ?_⟩
    rw [h.head]
    exact h.cells taken _ h.completed_le (List.getElem?_eq_getElem hlt)

theorem Tracks.pop {cell : Nat} (h : Tracks depth q history completed taken)
    (hpop : q.pop depth = some (cell, q')) :
    Tracks depth q' history completed (taken + 1) ∧ q'.cells = q.cells ∧ q.peek = some cell := by
  unfold RingQueue.pop at hpop
  split at hpop
  · cases hpop
  · rename_i hsome
    obtain ⟨rfl, rfl⟩ := Prod.mk.inj (Option.some.inj hpop)
    have hcount := h.count
    have hinflight := h.inflight
    refine ⟨⟨by omega, by omega, h.room, ?_, h.tail, ?_, ?_, h.cells⟩, rfl, if_neg hsome⟩
    · simp only [h.head, Nat.mod_add_mod]
    · simp only
      omega
    · simp only
      omega

theorem Tracks.complete (h : Tracks depth q history completed taken) (hlt : completed < taken) :
    Tracks depth q.complete history (completed + 1) taken := by
  have hinflight := h.inflight
  have hroom := h.room
  refine ⟨hlt, h.taken_le, by omega, h.head, h.tail, h.count, ?_, fun k x hk hx => ?_⟩
  · simp only [RingQueue.complete]
    omega
  · exact h.cells k x (by omega) hx

theorem Tracks.drained (h : Tracks depth q history completed taken) (hdrained : q.Drained) :
    taken = history.length ∧ completed = history.length := by
  have hcount := h.count
  have hinflight := h.inflight
  have := hdrained.1
  have := hdrained.2
  omega

end

end RingQueue
