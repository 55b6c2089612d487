import Mathlib.Data.List.GetD

namespace Buffer

variable {α : Type*}

-- memcpy into a memory
def copyIn (mem : Nat → α) (offset : Nat) (items : List α) : Nat → α := fun i =>
  if offset ≤ i then items.getD (i - offset) (mem i) else mem i

def copyOut (mem : Nat → α) (offset len : Nat) : List α :=
  (List.range len).map fun k => mem (offset + k)

@[simp] theorem length_copyOut (mem : Nat → α) (offset len : Nat) :
    (copyOut mem offset len).length = len := by
  simp [copyOut]

theorem copyOut_add (mem : Nat → α) (offset len len' : Nat) :
    copyOut mem offset (len + len') = copyOut mem offset len ++ copyOut mem (offset + len) len' := by
  unfold copyOut
  rw [List.range_add, List.map_append, List.map_map]
  congr 1
  exact List.map_congr_left fun k _ => congrArg mem (Nat.add_assoc ..).symm

theorem copyOut_copyIn_self (mem : Nat → α) (offset : Nat) (items : List α) :
    copyOut (copyIn mem offset items) offset items.length = items := by
  refine List.ext_getElem (by simp) fun k hk hk' => ?_
  simp [copyOut, copyIn, hk']

theorem copyOut_copyIn_of_disjoint (mem : Nat → α) {offset other len : Nat} {items : List α}
    (h : other + len ≤ offset ∨ offset + items.length ≤ other) :
    copyOut (copyIn mem offset items) other len = copyOut mem other len := by
  refine List.map_congr_left fun k hk => ?_
  rw [List.mem_range] at hk
  unfold copyIn
  split
  · rw [List.getD_eq_default]
    omega
  · rfl

theorem copyOut_copyIn_append (mem : Nat → α) (offset len : Nat) (items : List α) :
    copyOut (copyIn mem (offset + len) items) offset (len + items.length) =
      copyOut mem offset len ++ items := by
  rw [copyOut_add, copyOut_copyIn_self, copyOut_copyIn_of_disjoint mem (.inl (Nat.le_refl _))]

end Buffer
