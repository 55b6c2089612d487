import Mathlib.Data.Nat.ModEq

namespace Serial

-- Serial numbers are the points of a circle of 2^32 positions.
-- `dist s b` is how many steps forward lead from `b` to `s`.
def dist (s b : UInt32) : Nat := (s - b).toNat

theorem dist_def (s b : UInt32) :
    dist s b = (4294967296 - b.toNat + s.toNat) % 4294967296 := by
  simpa [dist] using UInt32.toNat_sub s b

theorem toNat_lt_size (s : UInt32) : s.toNat < 4294967296 := s.toNat_lt

theorem toNat_succ (s : UInt32) : (s + 1).toNat = (s.toNat + 1) % 4294967296 := by
  simp [UInt32.toNat_add]

theorem dist_lt (s b : UInt32) : dist s b < 4294967296 := toNat_lt_size (s - b)

@[simp] theorem dist_self (s : UInt32) : dist s s = 0 := by
  have hs := toNat_lt_size s
  rw [dist_def]
  omega

theorem dist_inj {s t b : UInt32} (h : dist s b = dist t b) : s = t := by
  have hs := toNat_lt_size s
  have ht := toNat_lt_size t
  rw [dist_def, dist_def] at h
  exact UInt32.toNat_inj.mp (by omega)

theorem dist_eq_zero {s b : UInt32} : dist s b = 0 ↔ s = b := by
  constructor
  · intro h
    exact dist_inj (by rw [h, dist_self])
  · rintro rfl
    exact dist_self s

theorem dist_pos {s b : UInt32} (h : s ≠ b) : 0 < dist s b :=
  Nat.pos_of_ne_zero fun h0 => h (dist_eq_zero.mp h0)

theorem dist_succ {s b : UInt32} (h : dist s b + 1 < 4294967296) :
    dist (s + 1) b = dist s b + 1 := by
  rw [dist_def] at h
  rw [dist_def, dist_def, toNat_succ]
  omega

-- Moving the origin one step forward shortens every distance by one,
-- except that of the old origin, which becomes the farthest point.
theorem dist_succ_base {s b : UInt32} (h : s ≠ b) : dist s (b + 1) + 1 = dist s b := by
  have hs := toNat_lt_size s
  have hb := toNat_lt_size b
  have hne : s.toNat ≠ b.toNat := fun he => h (UInt32.toNat_inj.mp he)
  rw [dist_def, dist_def, toNat_succ]
  omega

theorem dist_succ_base_self (b : UInt32) : dist b (b + 1) = 4294967295 := by
  rw [dist_def, toNat_succ]
  omega

theorem dist_of_le {s b : UInt32} (h : b.toNat ≤ s.toNat) : dist s b = s.toNat - b.toNat := by
  have hs := toNat_lt_size s
  rw [dist_def]
  omega

theorem dist_of_lt {s b : UInt32} (h : s.toNat < b.toNat) :
    dist s b = 4294967296 - (b.toNat - s.toNat) := by
  have hb := toNat_lt_size b
  rw [dist_def]
  omega

theorem toNat_succ_of_lt {s : UInt32} (h : s.toNat + 1 < 4294967296) :
    (s + 1).toNat = s.toNat + 1 := by
  rw [toNat_succ]
  omega

theorem dist_add_ofNat {b : UInt32} {d : Nat} (h : d < 4294967296) :
    dist (b + UInt32.ofNat d) b = d := by
  have hb := toNat_lt_size b
  have hd : (UInt32.ofNat d).toNat = d := UInt32.toNat_ofNat_of_lt' h
  have hadd : (b + UInt32.ofNat d).toNat = (b.toNat + d) % 4294967296 := by
    simp [UInt32.toNat_add, hd]
  rw [dist_def, hadd]
  omega

theorem dist_ofNat_add (n : Nat) {d : Nat} (h : d < 4294967296) :
    dist (UInt32.ofNat (n + d)) (UInt32.ofNat n) = d := by
  rw [UInt32.ofNat_add]
  exact dist_add_ofNat h

theorem dist_ofNat_of_lt {i n : Nat} (hlt : i < n) (hle : n < i + 4294967296) :
    dist (UInt32.ofNat i) (UInt32.ofNat n) = i + 4294967296 - n := by
  have hwrap : UInt32.ofNat i = UInt32.ofNat (n + (i + 4294967296 - n)) := by
    rw [show n + (i + 4294967296 - n) = i + 4294967296 by omega, UInt32.ofNat_add]
    exact (UInt32.add_zero _).symm
  rw [hwrap]
  exact dist_ofNat_add n (by omega)

theorem add_dist (s b : UInt32) : b + UInt32.ofNat (dist s b) = s :=
  dist_inj (dist_add_ofNat (dist_lt s b))

theorem succ_ne_self (s : UInt32) : s + 1 ≠ s := by
  intro h
  have := congrArg UInt32.toNat h
  rw [toNat_succ] at this
  omega

end Serial

namespace Circular

-- Physical positions of a circular buffer of `n` cells whose logical head is cell `b`.
theorem mod_inj {n b d d' : Nat} (hd : d < n) (hd' : d' < n)
    (h : (b + d) % n = (b + d') % n) : d = d' := by
  have hm : d % n = d' % n := Nat.ModEq.add_left_cancel' b h
  rwa [Nat.mod_eq_of_lt hd, Nat.mod_eq_of_lt hd'] at hm

theorem mod_succ {n b d : Nat} : ((b + 1) % n + d) % n = (b + (d + 1)) % n := by
  rw [Nat.mod_add_mod]
  congr 1
  omega

end Circular
