import Mathlib.Algebra.Group.Nat.Defs
import Mathlib.Data.List.Induction
import Mathlib.Data.Nat.Basic

namespace BigEndian

-- Unsigned numbers as byte strings, most significant byte first.
def toBytes : Nat → Nat → List UInt8
  | 0, _ => []
  | width + 1, n => toBytes width (n / 256) ++ [UInt8.ofNat (n % 256)]

def ofBytes (bytes : List UInt8) : Nat := bytes.foldl (fun n byte => n * 256 + byte.toNat) 0

@[simp] theorem length_toBytes (width n : Nat) : (toBytes width n).length = width := by
  induction width generalizing n with
  | zero => rfl
  | succ width ih => simp [toBytes, ih]

theorem ofBytes_concat (bytes : List UInt8) (byte : UInt8) :
    ofBytes (bytes ++ [byte]) = ofBytes bytes * 256 + byte.toNat := by
  simp [ofBytes]

theorem ofBytes_toBytes {width n : Nat} (h : n < 256 ^ width) : ofBytes (toBytes width n) = n := by
  induction width generalizing n with
  | zero =>
    have hn : n = 0 := by simpa using h
    rw [hn]
    rfl
  | succ width ih =>
    have hdiv : n / 256 < 256 ^ width := by
      rw [Nat.pow_succ] at h
      exact Nat.div_lt_of_lt_mul (by omega)
    have hbyte : (UInt8.ofNat (n % 256)).toNat = n % 256 :=
      UInt8.toNat_ofNat_of_lt' (Nat.mod_lt n (by decide))
    rw [toBytes, ofBytes_concat, ih hdiv, hbyte]
    omega

theorem toBytes_inj {width n m : Nat} (hn : n < 256 ^ width) (hm : m < 256 ^ width)
    (h : toBytes width n = toBytes width m) : n = m := by
  rw [← ofBytes_toBytes hn, h, ofBytes_toBytes hm]

theorem toBytes_mod (width n : Nat) : toBytes width (n % 256 ^ width) = toBytes width n := by
  induction width generalizing n with
  | zero => rfl
  | succ width ih =>
    have hdiv : n % 256 ^ (width + 1) / 256 = n / 256 % 256 ^ width := by
      rw [Nat.pow_succ, Nat.mul_comm, Nat.mod_mul_right_div_self]
    have hmod : n % 256 ^ (width + 1) % 256 = n % 256 :=
      Nat.mod_mod_of_dvd n ⟨256 ^ width, by rw [Nat.pow_succ, Nat.mul_comm]⟩
    rw [toBytes, toBytes, hdiv, hmod, ih]

theorem toBytes_add (width width' n : Nat) :
    toBytes (width + width') n = toBytes width (n / 256 ^ width') ++ toBytes width' n := by
  induction width' generalizing n with
  | zero => simp [toBytes]
  | succ width' ih =>
    rw [← Nat.add_assoc, toBytes, toBytes, ih, Nat.div_div_eq_div_mul, Nat.pow_succ,
      Nat.mul_comm 256, List.append_assoc]

theorem ofBytes_lt (bytes : List UInt8) : ofBytes bytes < 256 ^ bytes.length := by
  induction bytes using List.reverseRecOn with
  | nil => decide
  | append_singleton bytes byte ih =>
    have hbyte := byte.toNat_lt
    rw [ofBytes_concat, List.length_append, List.length_singleton, Nat.pow_succ]
    omega

theorem toBytes_ofBytes (bytes : List UInt8) : toBytes bytes.length (ofBytes bytes) = bytes := by
  induction bytes using List.reverseRecOn with
  | nil => rfl
  | append_singleton bytes byte ih =>
    have hbyte : byte.toNat < 256 := byte.toNat_lt
    have hdiv : (ofBytes bytes * 256 + byte.toNat) / 256 = ofBytes bytes := by omega
    have hmod : (ofBytes bytes * 256 + byte.toNat) % 256 = byte.toNat := by omega
    rw [List.length_append, List.length_singleton, toBytes, ofBytes_concat, hdiv, hmod, ih,
      UInt8.ofNat_toNat]

end BigEndian

namespace LittleEndian

-- Unsigned numbers as byte strings, least significant byte first.
def toBytes (width n : Nat) : List UInt8 := (BigEndian.toBytes width n).reverse

def ofBytes (bytes : List UInt8) : Nat := BigEndian.ofBytes bytes.reverse

@[simp] theorem length_toBytes (width n : Nat) : (toBytes width n).length = width := by
  simp [toBytes]

theorem toBytes_add (width width' n : Nat) :
    toBytes (width + width') n = toBytes width' n ++ toBytes width (n / 256 ^ width') := by
  rw [toBytes, BigEndian.toBytes_add, List.reverse_append]
  rfl

theorem toBytes_ofBytes {bytes : List UInt8} {width : Nat} (h : bytes.length = width) :
    toBytes width (ofBytes bytes) = bytes := by
  have hback := BigEndian.toBytes_ofBytes bytes.reverse
  rw [List.length_reverse, h] at hback
  rw [toBytes, ofBytes, hback, List.reverse_reverse]

theorem ofBytes_lt {bytes : List UInt8} {width : Nat} (h : bytes.length = width) :
    ofBytes bytes < 256 ^ width := by
  have hlt := BigEndian.ofBytes_lt bytes.reverse
  rwa [List.length_reverse, h] at hlt

end LittleEndian
