import Mathlib.Data.List.Basic
import Mathlib.Logic.Function.Basic
import Porter.Lib.RingQueue

-- A ring that remembers the last `size` of the items written to it. `history` are all of them,
-- the oldest first, and `blank` is what an unused cell holds.
structure Recent {α : Type*} (size : Nat) (blank : α) (cells : Nat → α) (next : Nat)
    (history : List α) : Prop where
  position : next = history.length % size
  kept : ∀ k x, history.length ≤ k + size → history[k]? = some x → cells (k % size) = x
  unused : ∀ i < size, history.length ≤ i → cells i = blank

namespace Recent

variable {α : Type*} {size : Nat} {blank : α} {cells : Nat → α} {next : Nat} {history : List α}

theorem empty (size : Nat) (blank : α) : Recent size blank (fun _ => blank) 0 [] where
  position := by simp
  kept := by simp
  unused := fun _ _ _ => rfl

theorem write (h : Recent size blank cells next history) (x : α) :
    Recent size blank (Function.update cells next x) ((next + 1) % size) (history ++ [x]) where
  position := by
    rw [h.position, List.length_append, List.length_singleton, Nat.mod_add_mod]
  kept := by
    intro k y hlast hk
    rw [List.length_append, List.length_singleton] at hlast
    rcases Nat.lt_trichotomy k history.length with hlt | rfl | hgt
    · rw [List.getElem?_append_left hlt] at hk
      have hother : k % size ≠ next := by
        rw [h.position]
        exact RingQueue.mod_ne_of_lt hlt (by omega)
      rw [Function.update_of_ne hother]
      exact h.kept k y (by omega) hk
    · rw [List.getElem?_concat_length] at hk
      rw [← h.position, Function.update_self]
      exact Option.some.inj hk
    · rw [List.getElem?_eq_none (by simp; omega)] at hk
      cases hk
  unused := by
    intro i hi hlen
    rw [List.length_append, List.length_singleton] at hlen
    have hother : i ≠ next := by
      rw [h.position, Nat.mod_eq_of_lt (by omega)]
      omega
    rw [Function.update_of_ne hother]
    exact h.unused i hi (by omega)

theorem exists_iff (h : Recent size blank cells next history) {p : α → Prop} (hblank : ¬ p blank) :
    (∃ i < size, p (cells i)) ↔
      ∃ k x, history.length ≤ k + size ∧ history[k]? = some x ∧ p x := by
  constructor
  · rintro ⟨i, hi, hp⟩
    have hused : i < history.length := by
      by_contra hno
      exact hblank (h.unused i hi (Nat.le_of_not_lt hno) ▸ hp)
    obtain ⟨k, hmod, hk, hlast⟩ : ∃ k, k % size = i ∧ k < history.length ∧
        history.length ≤ k + size := by
      have hrest := Nat.div_add_mod (history.length - 1 - i) size
      have hsmall := Nat.mod_lt (history.length - 1 - i) (Nat.zero_lt_of_lt hi)
      refine ⟨i + size * ((history.length - 1 - i) / size), ?_, by omega, by omega⟩
      rw [Nat.add_mul_mod_self_left, Nat.mod_eq_of_lt hi]
    have hget := List.getElem?_eq_getElem hk
    refine ⟨k, history[k], hlast, hget, ?_⟩
    rw [← h.kept k _ hlast hget, hmod]
    exact hp
  · rintro ⟨k, x, hlast, hk, hp⟩
    have hlt : k < history.length := (List.getElem?_eq_some_iff.mp hk).1
    have hsize : 0 < size := by omega
    exact ⟨k % size, Nat.mod_lt k hsize, (h.kept k x hlast hk).symm ▸ hp⟩

end Recent
