import Mathlib.Data.Nat.Log
import Mathlib.Tactic.Positivity
import Mathlib.Tactic.Ring
import Mathlib.Tactic.SplitIfs

/-! # Single and double precision

Bit patterns of binary32 and binary64. `widen` is the conversion of a `float` to a `double`, which
is exact; `narrow` finds the `float` that a `double` is equal to, if there is one, so that
`narrow x = none` is the negation of `x == (float) x`.
-/

namespace Foundations.FloatFormat
set_option autoImplicit false

def sign32 (f : ℕ) : ℕ := f / 2 ^ 31
def exponent32 (f : ℕ) : ℕ := f / 2 ^ 23 % 2 ^ 8
def fraction32 (f : ℕ) : ℕ := f % 2 ^ 23

def sign64 (x : ℕ) : ℕ := x / 2 ^ 63
def exponent64 (x : ℕ) : ℕ := x / 2 ^ 52 % 2 ^ 11
def fraction64 (x : ℕ) : ℕ := x % 2 ^ 52

def double (sign exponent fraction : ℕ) : ℕ := sign * 2 ^ 63 + exponent * 2 ^ 52 + fraction

def float (sign exponent fraction : ℕ) : ℕ := sign * 2 ^ 31 + exponent * 2 ^ 23 + fraction

/-- Subnormal numbers become normal ones; a signalling NaN becomes quiet. -/
def widen (f : ℕ) : ℕ :=
  if exponent32 f = 255 then
    if fraction32 f = 0 then double (sign32 f) 0x7FF 0
    else double (sign32 f) 0x7FF (2 ^ 51 + fraction32 f % 2 ^ 22 * 2 ^ 29)
  else if exponent32 f = 0 then
    if fraction32 f = 0 then double (sign32 f) 0 0
    else
      let k := Nat.log 2 (fraction32 f)
      double (sign32 f) (874 + k) ((fraction32 f - 2 ^ k) * 2 ^ (52 - k))
  else double (sign32 f) (exponent32 f + 896) (fraction32 f * 2 ^ 29)

def narrow (x : ℕ) : Option ℕ :=
  if exponent64 x = 0x7FF then
    if fraction64 x = 0 then some (float (sign64 x) 255 0) else none
  else if exponent64 x = 0 then
    if fraction64 x = 0 then some (float (sign64 x) 0 0) else none
  else if 897 ≤ exponent64 x ∧ exponent64 x ≤ 1150 then
    if fraction64 x % 2 ^ 29 = 0 then
      some (float (sign64 x) (exponent64 x - 896) (fraction64 x / 2 ^ 29))
    else none
  else if 874 ≤ exponent64 x ∧ exponent64 x ≤ 896 then
    let k := exponent64 x - 874
    if fraction64 x % 2 ^ (52 - k) = 0 then
      some (float (sign64 x) 0 (2 ^ k + fraction64 x / 2 ^ (52 - k)))
    else none
  else none

theorem double_fields (x : ℕ) : double (sign64 x) (exponent64 x) (fraction64 x) = x := by
  unfold double sign64 exponent64 fraction64
  omega

section
variable {s e m : ℕ}

theorem sign32_float (he : e < 2 ^ 8) (hm : m < 2 ^ 23) : sign32 (float s e m) = s := by
  unfold sign32 float
  omega

theorem exponent32_float (he : e < 2 ^ 8) (hm : m < 2 ^ 23) : exponent32 (float s e m) = e := by
  unfold exponent32 float
  omega

theorem fraction32_float (hm : m < 2 ^ 23) : fraction32 (float s e m) = m := by
  unfold fraction32 float
  omega

theorem float_lt (hs : s < 2) (he : e < 2 ^ 8) (hm : m < 2 ^ 23) : float s e m < 2 ^ 32 := by
  unfold float
  omega

end

/-- The `float` that was found is equal to the `double`. -/
theorem widen_narrow {x f : ℕ} (hx : x < 2 ^ 64) (h : narrow x = some f) :
    f < 2 ^ 32 ∧ widen f = x := by
  have hsign : sign64 x < 2 := by
    unfold sign64
    omega
  have hfraction : fraction64 x < 2 ^ 52 := Nat.mod_lt _ (by decide)
  have hfields := double_fields x
  unfold narrow at h
  split_ifs at h with hinf hzero hnull hfrac hnormal hexact hsub
  · obtain rfl := Option.some.inj h
    refine ⟨float_lt hsign (by omega) (by omega), ?_⟩
    rw [widen, exponent32_float (by omega) (by omega), if_pos rfl, fraction32_float (by omega),
      if_pos rfl, sign32_float (by omega) (by omega)]
    rw [hinf, hzero] at hfields
    exact hfields
  · obtain rfl := Option.some.inj h
    refine ⟨float_lt hsign (by omega) (by omega), ?_⟩
    rw [widen, exponent32_float (by omega) (by omega), if_neg (by omega), if_pos rfl,
      fraction32_float (by omega), if_pos rfl, sign32_float (by omega) (by omega)]
    rw [hnull, hfrac] at hfields
    exact hfields
  · obtain rfl := Option.some.inj h
    have hm : fraction64 x / 2 ^ 29 < 2 ^ 23 := by omega
    refine ⟨float_lt hsign (by omega) hm, ?_⟩
    rw [widen, exponent32_float (by omega) hm, if_neg (by omega), if_neg (by omega),
      fraction32_float hm, sign32_float (by omega) hm]
    have he : exponent64 x - 896 + 896 = exponent64 x := by omega
    have hback : fraction64 x / 2 ^ 29 * 2 ^ 29 = fraction64 x := by omega
    rw [he, hback]
    exact hfields
  · obtain ⟨k, hk⟩ : ∃ k, exponent64 x = 874 + k := ⟨exponent64 x - 874, by omega⟩
    have hk22 : k ≤ 22 := by omega
    have hsubk : exponent64 x - 874 = k := by omega
    dsimp only at h
    rw [hsubk] at h
    split_ifs at h with hrest
    obtain rfl := Option.some.inj h
    -- the bits below the leading one
    have hlow : fraction64 x / 2 ^ (52 - k) < 2 ^ k := by
      rw [Nat.div_lt_iff_lt_mul (by positivity), ← pow_add]
      have hsum : k + (52 - k) = 52 := by omega
      rw [hsum]
      exact hfraction
    have hpow : (2 : ℕ) ^ k ≤ 2 ^ 22 := Nat.pow_le_pow_right (by decide) hk22
    have hm : 2 ^ k + fraction64 x / 2 ^ (52 - k) < 2 ^ 23 := by omega
    have hpos : 0 < (2 : ℕ) ^ k := by positivity
    refine ⟨float_lt hsign (by omega) hm, ?_⟩
    have hne : 2 ^ k + fraction64 x / 2 ^ (52 - k) ≠ 0 := (Nat.add_pos_left hpos _).ne'
    rw [widen, exponent32_float (by omega) hm, if_neg (by omega), if_pos rfl, fraction32_float hm,
      if_neg hne, sign32_float (by omega) hm]
    have hlog : Nat.log 2 (2 ^ k + fraction64 x / 2 ^ (52 - k)) = k := by
      apply Nat.log_eq_of_pow_le_of_lt_pow
      · exact Nat.le_add_right _ _
      · rw [pow_succ, Nat.mul_two]
        exact Nat.add_lt_add_left hlow _
    dsimp only
    rw [hlog, ← hk, Nat.add_sub_cancel_left,
      Nat.div_mul_cancel (Nat.dvd_of_mod_eq_zero hrest)]
    exact hfields

theorem double_lt {s e m : ℕ} (hs : s < 2) (he : e < 2 ^ 11) (hm : m < 2 ^ 52) :
    double s e m < 2 ^ 64 := by
  unfold double
  omega

theorem widen_lt {f : ℕ} (hf : f < 2 ^ 32) : widen f < 2 ^ 64 := by
  have hsign : sign32 f < 2 := by
    unfold sign32
    omega
  have hexp : exponent32 f < 2 ^ 8 := Nat.mod_lt _ (by decide)
  have hfraction : fraction32 f < 2 ^ 23 := Nat.mod_lt _ (by decide)
  unfold widen
  split_ifs with hinf hzero hsub hnull
  · exact double_lt hsign (by decide) (by decide)
  · exact double_lt hsign (by decide) (by omega)
  · exact double_lt hsign (by decide) (by decide)
  · -- the bits below the leading one are shifted up to the top
    have hlow : Nat.log 2 (fraction32 f) < 23 := Nat.log_lt_of_lt_pow hnull hfraction
    have hrest : fraction32 f - 2 ^ Nat.log 2 (fraction32 f) < 2 ^ Nat.log 2 (fraction32 f) := by
      have hpow := Nat.lt_pow_succ_log_self (b := 2) (by decide) (fraction32 f)
      rw [Nat.succ_eq_add_one, Nat.pow_succ] at hpow
      have hpos : 0 < 2 ^ Nat.log 2 (fraction32 f) := by positivity
      omega
    refine double_lt hsign (by omega) ?_
    have hsplit : 2 ^ Nat.log 2 (fraction32 f) * 2 ^ (52 - Nat.log 2 (fraction32 f)) = 2 ^ 52 := by
      rw [← Nat.pow_add]
      congr 1
      omega
    exact (Nat.mul_lt_mul_of_pos_right hrest (by positivity)).trans_eq hsplit
  · exact double_lt hsign (by omega) (by omega)

end Foundations.FloatFormat
