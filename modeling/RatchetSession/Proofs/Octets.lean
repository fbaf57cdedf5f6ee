import Mathlib.Algebra.Group.Nat.Defs
import RatchetSession.Octets
set_option autoImplicit false

namespace RatchetSession

theorem leNat_natLE (n value : Nat) : leNat (natLE n value) = value % 256 ^ n := by
  induction n generalizing value with
  | zero => simp [natLE, leNat, Nat.mod_one]
  | succ n ih =>
    simp only [natLE, leNat, ih, Nat.pow_succ, Nat.mul_comm (256 ^ n) 256, Nat.mod_mul]
    simp

theorem beNat_append (bytes : Bytes) (last : UInt8) :
    beNat (bytes ++ [last]) = 256 * beNat bytes + last.toNat := by
  simp [beNat]

theorem beNat_reverse (bytes : Bytes) : beNat bytes.reverse = leNat bytes := by
  induction bytes with
  | nil => rfl
  | cons first rest ih => rw [List.reverse_cons, beNat_append, ih, leNat, Nat.add_comm]

theorem beNat_natBE {n value : Nat} (h : value < 256 ^ n) : beNat (natBE n value) = value := by
  rw [natBE, beNat_reverse, leNat_natLE, Nat.mod_eq_of_lt h]

theorem natLE_leNat (bytes : Bytes) : natLE bytes.length (leNat bytes) = bytes := by
  induction bytes with
  | nil => rfl
  | cons first rest ih =>
    have small : first.toNat < 256 := first.toNat_lt
    have low : (first.toNat + 256 * leNat rest).toUInt8 = first := by
      refine UInt8.toNat.inj ?_
      simp only [Nat.toUInt8, UInt8.toNat_ofNat']
      omega
    have high : (first.toNat + 256 * leNat rest) / 256 = leNat rest := by omega
    rw [List.length_cons, leNat, natLE, low, high, ih]

theorem natBE_beNat (bytes : Bytes) : natBE bytes.length (beNat bytes) = bytes := by
  have reversed := natLE_leNat bytes.reverse
  rw [List.length_reverse, ← beNat_reverse, List.reverse_reverse] at reversed
  rw [natBE, reversed, List.reverse_reverse]

end RatchetSession
