import Mathlib.Data.Nat.Notation
import Mathlib.Tactic.Ring

/-! # Fixed-point fractions

A number of parts `m` of a unit of `unit` parts, written as a fraction of a unit of `scale` parts
and read back, both times rounding down. When the fraction has at least as fine a unit, the number
that comes back is `m` or one less, and it is `m` exactly if the fraction was not rounded. Both
conversions are monotone.
-/

namespace Foundations.FixedPoint
set_option autoImplicit false

def toFraction (unit scale m : ℕ) : ℕ := m * scale / unit

def ofFraction (unit scale f : ℕ) : ℕ := f * unit / scale

theorem toFraction_lt {unit m : ℕ} (scale : ℕ) (h : m < unit) (hscale : 0 < scale) :
    toFraction unit scale m < scale := by
  unfold toFraction
  rw [Nat.div_lt_iff_lt_mul (by omega), Nat.mul_comm scale]
  exact Nat.mul_lt_mul_of_pos_right h hscale

theorem ofFraction_toFraction_le (unit scale m : ℕ) (hscale : 0 < scale) :
    ofFraction unit scale (toFraction unit scale m) ≤ m := by
  unfold ofFraction toFraction
  have h := Nat.div_mul_le_self (m * scale) unit
  calc m * scale / unit * unit / scale ≤ m * scale / scale := Nat.div_le_div_right h
    _ = m := Nat.mul_div_cancel m hscale

theorem le_ofFraction_toFraction (unit scale m : ℕ) (hunit : 0 < unit) (hfine : unit ≤ scale) :
    m ≤ ofFraction unit scale (toFraction unit scale m) + 1 := by
  unfold ofFraction toFraction
  have hscale : 0 < scale := by omega
  have hdiv := Nat.div_add_mod (m * scale) unit
  have hmod := Nat.mod_lt (m * scale) hunit
  -- the fraction loses less than `unit`, which is at most one part after reading it back
  have h : m * scale ≤ (m * scale / unit * unit) + scale := by
    rw [Nat.mul_comm (m * scale / unit)]
    omega
  calc m = m * scale / scale := (Nat.mul_div_cancel m hscale).symm
    _ ≤ (m * scale / unit * unit + scale) / scale := Nat.div_le_div_right h
    _ = m * scale / unit * unit / scale + 1 := Nat.add_div_right _ hscale

/-- Nothing is lost exactly if the fraction is exact. -/
theorem ofFraction_toFraction_eq_iff (unit scale m : ℕ) (hscale : 0 < scale) :
    ofFraction unit scale (toFraction unit scale m) = m ↔ unit ∣ m * scale := by
  unfold ofFraction toFraction
  constructor
  · intro h
    have hle : m * scale ≤ m * scale / unit * unit := by
      calc m * scale = m * scale / unit * unit / scale * scale := by rw [h]
        _ ≤ m * scale / unit * unit := Nat.div_mul_le_self _ scale
    have hge := Nat.div_mul_le_self (m * scale) unit
    exact ⟨m * scale / unit, by rw [Nat.mul_comm unit]; omega⟩
  · intro h
    rw [Nat.div_mul_cancel h, Nat.mul_div_cancel m hscale]

theorem ofFraction_toFraction_mono (unit scale : ℕ) {m n : ℕ} (h : m ≤ n) :
    ofFraction unit scale (toFraction unit scale m) ≤
      ofFraction unit scale (toFraction unit scale n) := by
  unfold ofFraction toFraction
  exact Nat.div_le_div_right
    (Nat.mul_le_mul_right unit (Nat.div_le_div_right (Nat.mul_le_mul_right scale h)))

end Foundations.FixedPoint
