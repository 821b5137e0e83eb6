import Hick.Lib.Octets

/-!
# Little-endian integers

A number as a string of octets, the least octet first, in a given width.
-/

namespace Octets

def le : Nat → Nat → Bytes
  | 0, _ => []
  | width + 1, n => ⟨n % 256, Nat.mod_lt _ (by decide)⟩ :: le width (n / 256)

def ofLe : Bytes → Nat
  | [] => 0
  | b :: rest => b.val + 256 * ofLe rest

@[simp] theorem le_length (width n : Nat) : (le width n).length = width := by
  induction width generalizing n with
  | zero => rfl
  | succ width ih => simp only [le, List.length_cons, ih]

theorem ofLe_le (width n : Nat) (h : n < 256 ^ width) : ofLe (le width n) = n := by
  induction width generalizing n with
  | zero =>
    rw [pow_zero, Nat.lt_one_iff] at h
    simp only [le, ofLe, h]
  | succ width ih =>
    have hrest : n / 256 < 256 ^ width := by
      rw [pow_succ] at h
      exact Nat.div_lt_of_lt_mul (by omega)
    simp only [le, ofLe, ih (n / 256) hrest]
    omega

end Octets
