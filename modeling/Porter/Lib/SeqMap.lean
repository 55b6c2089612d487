import Mathlib.Data.Option.Basic
import Porter.Lib.Serial

open Serial

-- A map from the `size` numbers that start at `next`, modulo 2 ^ 32. Nothing else has a value.
@[ext] structure SeqMap (α : Type*) where
  next : UInt32
  size : Nat
  get : UInt32 → Option α
  bounded : ∀ seq, size ≤ dist seq next → get seq = none

namespace SeqMap

variable {α : Type*}

def InRange (m : SeqMap α) (seq : UInt32) : Prop := dist seq m.next < m.size

instance (m : SeqMap α) (seq : UInt32) : Decidable (m.InRange seq) :=
  inferInstanceAs (Decidable (_ < _))

def empty (next : UInt32) (size : Nat) : SeqMap α := ⟨next, size, fun _ => none, fun _ _ => rfl⟩

-- The value of a number in range, which has none yet.
def insert (m : SeqMap α) (seq : UInt32) (value : α) (h : m.InRange seq) : SeqMap α where
  next := m.next
  size := m.size
  get := Function.update m.get seq (some value)
  bounded := by
    intro s hs
    have hne : s ≠ seq := by
      rintro rfl
      exact absurd h (Nat.not_lt.mpr hs)
    rw [Function.update_of_ne hne]
    exact m.bounded s hs

def advance (m : SeqMap α) : SeqMap α where
  next := m.next + 1
  size := m.size
  get := Function.update m.get m.next none
  bounded := by
    intro s hs
    by_cases he : s = m.next
    · rw [he, Function.update_self]
    · rw [Function.update_of_ne he]
      have hd := dist_succ_base he
      exact m.bounded s (by omega)

-- The first value of a number stays. `false` for a number that is not in range.
def push (m : SeqMap α) (seq : UInt32) (value : α) : SeqMap α × Bool :=
  if h : m.InRange seq then (if (m.get seq).isSome then m else m.insert seq value h, true)
  else (m, false)

def pop (m : SeqMap α) : SeqMap α × Option α :=
  match m.get m.next with
  | none => (m, none)
  | some value => (m.advance, some value)

def skip (m : SeqMap α) (seq : UInt32) : SeqMap α := if seq = m.next then m.advance else m

def reset (m : SeqMap α) (next : UInt32) : SeqMap α := empty next m.size

def has (m : SeqMap α) (seq : UInt32) : Bool := (m.get seq).isSome

-- The first number is missing although a later one is there.
def Gap (m : SeqMap α) : Prop := m.get m.next = none ∧ ∃ seq, seq ≠ m.next ∧ m.get seq ≠ none

noncomputable instance (m : SeqMap α) : Decidable m.Gap := Classical.propDecidable _

noncomputable def missing (m : SeqMap α) : Option UInt32 := if m.Gap then some m.next else none

theorem ext_get {m m' : SeqMap α} (hnext : m.next = m'.next) (hsize : m.size = m'.size)
    (hget : ∀ seq, m.get seq = m'.get seq) : m = m' :=
  SeqMap.ext hnext hsize (funext hget)

end SeqMap
