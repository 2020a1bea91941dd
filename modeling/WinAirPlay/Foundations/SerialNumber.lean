import Mathlib.Data.BitVec
import Mathlib.Tactic.Ring

/-! # Serial numbers

A counter of `w` bits that wraps. `ahead a b` is the number of steps from `a` up to `b`, and
`signedDiff a b` the difference `a - b` read as a signed number, which orders two numbers correctly as
long as they are less than half the range apart.
-/

namespace Foundations.SerialNumber
set_option autoImplicit false

variable {w : ℕ}

/-- The number of increments that lead from `a` to `b`. -/
def ahead (a b : BitVec w) : ℕ := (b - a).toNat

/-- The difference `a - b` read as a signed number of the same width. -/
def signedDiff (a b : BitVec w) : ℤ := (a - b).toInt

@[simp] theorem ahead_self (a : BitVec w) : ahead a a = 0 := by simp [ahead]

theorem eq_of_ahead_eq {a b c : BitVec w} (h : ahead a b = ahead a c) : b = c := by
  have hsub : b - a = c - a := BitVec.eq_of_toNat_eq h
  exact sub_left_injective hsub

/-- One number further on, a target that is ahead is one step closer. -/
theorem ahead_succ {a b : BitVec w} (h : 0 < ahead a b) : ahead (a + 1#w) b + 1 = ahead a b := by
  have hstep : b - (a + 1#w) = (b - a) - 1#w := sub_add_eq_sub_sub b a 1#w
  unfold ahead at h ⊢
  rw [hstep]
  have hone : 1#w ≤ b - a := by
    rw [BitVec.le_def, BitVec.toNat_ofNat]
    exact (Nat.mod_le 1 _).trans h
  have hwidth : 1 < 2 ^ w := lt_of_le_of_lt h (b - a).isLt
  rw [BitVec.toNat_sub_of_le hone, BitVec.toNat_ofNat, Nat.mod_eq_of_lt hwidth]
  omega

theorem ahead_succ_of_ne {a b : BitVec w} (hne : b ≠ a) : ahead (a + 1#w) b + 1 = ahead a b := by
  refine ahead_succ (Nat.pos_of_ne_zero fun h0 => hne ?_)
  have : ahead a b = ahead a a := by rw [h0, ahead_self]
  exact eq_of_ahead_eq this

theorem signedDiff_neg_iff (a b : BitVec w) : signedDiff a b < 0 ↔ 2 ^ w ≤ 2 * ahead b a :=
  BitVec.toInt_neg_iff

theorem signedDiff_nonneg_iff (a b : BitVec w) : 0 ≤ signedDiff a b ↔ 2 * ahead b a < 2 ^ w := by
  have := signedDiff_neg_iff a b
  omega

theorem signedDiff_eq_ahead {a b : BitVec w} (h : 2 * ahead b a < 2 ^ w) : signedDiff a b = ahead b a :=
  BitVec.toInt_eq_toNat_of_lt h

theorem signedDiff_eq_zero_iff (a b : BitVec w) : signedDiff a b = 0 ↔ a = b := by
  constructor
  · intro h
    have hz : a - b = 0 := BitVec.eq_of_toInt_eq (by simpa [signedDiff] using h)
    exact sub_eq_zero.mp hz
  · rintro rfl
    simp [signedDiff]

/-! ## Numbered from a start -/

/-- The number of item `k` of a stream that starts with number `s`. -/
def numbered (s : BitVec w) (k : ℕ) : BitVec w := s + BitVec.ofNat w k

theorem numbered_succ (s : BitVec w) (k : ℕ) : numbered s k + 1#w = numbered s (k + 1) := by
  rw [numbered, numbered, BitVec.ofNat_add, BitVec.add_assoc]

@[simp] theorem numbered_zero (s : BitVec w) : numbered s 0 = s := by simp [numbered]

theorem ahead_numbered (s : BitVec w) {k : ℕ} (h : k < 2 ^ w) : ahead s (numbered s k) = k := by
  have hsub : numbered s k - s = BitVec.ofNat w k := add_sub_cancel_left s (BitVec.ofNat w k)
  rw [ahead, hsub, BitVec.toNat_ofNat, Nat.mod_eq_of_lt h]

theorem numbered_ahead (s t : BitVec w) : numbered s (ahead s t) = t := by
  rw [numbered, ahead, BitVec.ofNat_toNat, BitVec.setWidth_eq]
  exact add_sub_cancel s t

/-- Items less than half the range apart are compared as they are in the stream. -/
theorem signedDiff_numbered (hw : 0 < w) (s : BitVec w) {k m : ℕ} (hlow : m ≤ k + 2 ^ (w - 1))
    (hhigh : k < m + 2 ^ (w - 1)) : signedDiff (numbered s k) (numbered s m) = (k : ℤ) - m := by
  have hsub : numbered s k - numbered s m = BitVec.ofInt w ((k : ℤ) - m) := by
    rw [numbered, numbered, Int.sub_eq_add_neg, BitVec.ofInt_add, BitVec.ofInt_neg,
      BitVec.ofInt_natCast, BitVec.ofInt_natCast, ← BitVec.sub_eq_add_neg]
    exact add_sub_add_left_eq_sub (BitVec.ofNat w k) (BitVec.ofNat w m) s
  have hpow : ((2 ^ (w - 1) : ℕ) : ℤ) = 2 ^ (w - 1) := by push_cast; rfl
  rw [signedDiff, hsub]
  exact BitVec.toInt_ofInt_eq_self hw (by omega) (by omega)

end Foundations.SerialNumber
