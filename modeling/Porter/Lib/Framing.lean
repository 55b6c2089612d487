import Mathlib.Data.List.Basic

namespace Framing

variable {α : Type*}

-- Packets that begin with a header of fixed size, which tells how much follows it.
structure Format (α : Type*) where
  header : Nat
  len : List α → Nat
  limit : Nat
  ok : List α → Bool
  header_pos : 0 < header
  len_take : ∀ l : List α, header ≤ l.length → len (l.take header) = len l

namespace Format

def cut (f : Format α) : Nat → List α → List (List α)
  | 0, _ => []
  | fuel + 1, l =>
      if l.length < f.header then []
      else if f.limit < f.len l then []
      else if l.length < f.header + f.len l then []
      else l.take (f.header + f.len l) ::
        if f.ok (l.take (f.header + f.len l)) then f.cut fuel (l.drop (f.header + f.len l)) else []

-- A stream cut at its headers, up to the first packet that is too long, incomplete or not
-- acceptable. One that is not acceptable is the last.
def frames (f : Format α) (l : List α) : List (List α) := f.cut l.length l

def Whole (f : Format α) (l : List α) : Prop :=
  f.header ≤ l.length ∧ f.len l ≤ f.limit ∧ l.length = f.header + f.len l

variable {f : Format α} {l rest : List α}

theorem len_append (h : f.header ≤ l.length) (rest : List α) : f.len (l ++ rest) = f.len l := by
  have happend : f.header ≤ (l ++ rest).length := by
    rw [List.length_append]
    omega
  rw [← f.len_take _ happend, List.take_append_of_le_length h, f.len_take l h]

theorem cut_of_le {fuel : Nat} (h : l.length ≤ fuel) : f.cut fuel l = f.frames l := by
  unfold frames
  generalize hfuel : l.length = n at h ⊢
  induction n using Nat.strongRecOn generalizing fuel l with
  | ind n ih =>
    have hpos := f.header_pos
    cases n with
    | zero =>
      cases fuel with
      | zero => rfl
      | succ fuel => exact if_pos (by omega)
    | succ n =>
      cases fuel with
      | zero => omega
      | succ fuel =>
        unfold cut
        split
        · rfl
        split
        · rfl
        split
        · rfl
        · have hlen : (l.drop (f.header + f.len l)).length < n + 1 := by
            rw [List.length_drop]
            omega
          rw [ih _ hlen rfl (Nat.le_of_lt_succ (by omega)), ih _ hlen rfl (Nat.le_of_lt_succ hlen)]

theorem frames_of_short (h : l.length < f.header) : f.frames l = [] := by
  rw [← cut_of_le (Nat.le_succ l.length), cut, if_pos h]

theorem frames_of_long (h : f.header ≤ l.length) (hlong : f.limit < f.len l) : f.frames l = [] := by
  rw [← cut_of_le (Nat.le_succ l.length), cut, if_neg (by omega), if_pos hlong]

theorem frames_of_incomplete (h : f.header ≤ l.length) (hmore : l.length < f.header + f.len l) :
    f.frames l = [] := by
  rw [← cut_of_le (Nat.le_succ l.length), cut, if_neg (by omega), if_pos hmore]
  split <;> rfl

theorem frames_of_whole (h : f.Whole l) (rest : List α) :
    f.frames (l ++ rest) = l :: if f.ok l then f.frames rest else [] := by
  obtain ⟨hheader, hlimit, hlen⟩ := h
  have hsize : f.len (l ++ rest) = f.len l := len_append hheader rest
  have hlength : (l ++ rest).length = l.length + rest.length := List.length_append
  rw [← cut_of_le (Nat.le_succ (l ++ rest).length), cut, if_neg (by omega), if_neg (by omega),
    if_neg (by omega), hsize, ← hlen, List.take_left, List.drop_left, cut_of_le (by omega)]

end Format

end Framing
