import Mathlib.Data.Nat.GCD.Basic
import WinAirPlay.Ntp.Clock

/-! # The two readings of an NTP timestamp

`byteutils_get_ntp_timestamp` reads the eight bytes, `raop_ntp_timestamp_to_micro_seconds` takes
them as one big-endian integer, and both give the same number of microseconds. Read back, the bytes
that `byteutils_put_ntp_timestamp` writes give the time or one microsecond less, in the same second
and in the same order.
-/

namespace WinAirPlay
open Foundations.ByteBuffer Foundations.FixedPoint
set_option autoImplicit false

/-- The byte swap of a 64-bit integer puts the word of the seconds first. -/
theorem byteutilsGetLongBe_eq (b : Bytes) (offset : ℕ) :
    byteutilsGetLongBe b offset =
      ntohl (byteutilsGetInt b offset) * 2 ^ 32 + ntohl (byteutilsGetInt b (offset + 4)) := by
  have hlow := byteutilsGetInt_lt b offset
  have hswap : ntohl (byteutilsGetLong b offset) = ntohl (byteutilsGetInt b offset) := by
    unfold ntohl htonl byteutilsGetLong
    generalize byteutilsGetInt b offset = low at hlow
    generalize byteutilsGetInt b (offset + 4) = high
    have h0 : (low + 2 ^ 32 * high) % 2 ^ 8 = low % 2 ^ 8 := by omega
    have h1 : (low + 2 ^ 32 * high) / 2 ^ 8 % 2 ^ 8 = low / 2 ^ 8 % 2 ^ 8 := by omega
    have h2 : (low + 2 ^ 32 * high) / 2 ^ 16 % 2 ^ 8 = low / 2 ^ 16 % 2 ^ 8 := by omega
    have h3 : (low + 2 ^ 32 * high) / 2 ^ 24 % 2 ^ 8 = low / 2 ^ 24 % 2 ^ 8 := by omega
    rw [h0, h1, h2, h3]
  have hhigh : byteutilsGetLong b offset / 2 ^ 32 = byteutilsGetInt b (offset + 4) := by
    unfold byteutilsGetLong
    omega
  rw [byteutilsGetLongBe, ntohll, hswap, hhigh]

theorem ntpWords {seconds fraction : ℕ} (hseconds : seconds < 2 ^ 32) (hfraction : fraction < 2 ^ 32) :
    (UInt64.ofNat (seconds * 2 ^ 32 + fraction) >>> (32 : UInt64)) &&& (0xffffffff : UInt64) =
        UInt64.ofNat seconds ∧
      UInt64.ofNat (seconds * 2 ^ 32 + fraction) &&& (0xffffffff : UInt64) =
        UInt64.ofNat fraction := by
  have hmask : (0xffffffff : UInt64).toNat = 2 ^ 32 - 1 := rfl
  have hshift : (32 : UInt64).toNat % 64 = 32 := rfl
  have hvalue : (UInt64.ofNat (seconds * 2 ^ 32 + fraction)).toNat = seconds * 2 ^ 32 + fraction := by
    rw [UInt64.toNat_ofNat']
    omega
  constructor
  · apply UInt64.toNat_inj.mp
    rw [UInt64.toNat_and, UInt64.toNat_shiftRight, hmask, hshift, hvalue,
      Nat.and_two_pow_sub_one_eq_mod, Nat.shiftRight_eq_div_pow, UInt64.toNat_ofNat']
    omega
  · apply UInt64.toNat_inj.mp
    rw [UInt64.toNat_and, hmask, hvalue, Nat.and_two_pow_sub_one_eq_mod, UInt64.toNat_ofNat']
    omega

theorem raopNtpTimestampToMicroSeconds_eq (b : Bytes) (offset : ℕ) :
    raopNtpTimestampToMicroSeconds (UInt64.ofNat (byteutilsGetLongBe b offset)) true =
      byteutilsGetNtpTimestamp b offset := by
  obtain ⟨hseconds, hfraction⟩ := ntpWords (htonl_lt (byteutilsGetInt b offset))
    (htonl_lt (byteutilsGetInt b (offset + 4)))
  unfold raopNtpTimestampToMicroSeconds byteutilsGetNtpTimestamp
  rw [byteutilsGetLongBe_eq]
  unfold ntohl
  rw [hseconds, hfraction, if_pos rfl]

/-! ## Written and read back -/

theorem ntpRange_iff (us : ℕ) : NtpRange us ↔ us / 1000000 + 2208988800 < 2 ^ 32 := by
  unfold NtpRange
  omega

/-- A time is read back exactly if its microseconds make a whole number of 2⁻³² seconds. -/
theorem exactFraction_iff (microseconds : ℕ) :
    1000000 ∣ microseconds * 2 ^ 32 ↔ 15625 ∣ microseconds := by
  have hodd : Nat.Coprime 15625 (2 ^ 26) := Nat.Coprime.pow_right 26 (by decide)
  rw [show 1000000 = 15625 * 2 ^ 6 by rfl, show 2 ^ 32 = 2 ^ 26 * 2 ^ 6 by rfl, ← Nat.mul_assoc,
    Nat.mul_dvd_mul_iff_right (by decide)]
  exact Nat.Coprime.dvd_mul_right hodd

section
variable {b : Bytes} {offset : ℕ} {us : UInt64}

theorem ntpTimestamp_second (h : offset + 8 ≤ b.length) (hus : NtpRange us.toNat) :
    (byteutilsGetNtpTimestamp (byteutilsPutNtpTimestamp b offset us) offset).toNat / 1000000 =
      us.toNat / 1000000 := by
  have hle := ofFraction_toFraction_le 1000000 (2 ^ 32) (us.toNat % 1000000) (by omega)
  rw [byteutilsGetNtpTimestamp_put h hus]
  omega

theorem ntpTimestamp_exact_iff (h : offset + 8 ≤ b.length) (hus : NtpRange us.toNat) :
    byteutilsGetNtpTimestamp (byteutilsPutNtpTimestamp b offset us) offset = us ↔
      15625 ∣ us.toNat % 1000000 := by
  have hsplit := Nat.div_add_mod us.toNat 1000000
  rw [← UInt64.toNat_inj, byteutilsGetNtpTimestamp_put h hus, ← exactFraction_iff,
    ← ofFraction_toFraction_eq_iff 1000000 (2 ^ 32) (us.toNat % 1000000) (by omega)]
  omega

end

theorem ntpTimestamp_mono {b c : Bytes} {i j : ℕ} {us vs : UInt64} (hb : i + 8 ≤ b.length)
    (hc : j + 8 ≤ c.length) (hle : us ≤ vs) (hvs : NtpRange vs.toNat) :
    byteutilsGetNtpTimestamp (byteutilsPutNtpTimestamp b i us) i ≤
      byteutilsGetNtpTimestamp (byteutilsPutNtpTimestamp c j vs) j := by
  have hle' : us.toNat ≤ vs.toNat := UInt64.le_iff_toNat_le.mp hle
  have hus : NtpRange us.toNat := by
    unfold NtpRange at hvs ⊢
    omega
  rw [UInt64.le_iff_toNat_le]
  by_cases hsame : us.toNat / 1000000 = vs.toNat / 1000000
  · have hmono := ofFraction_toFraction_mono 1000000 (2 ^ 32)
      (m := us.toNat % 1000000) (n := vs.toNat % 1000000) (by omega)
    rw [byteutilsGetNtpTimestamp_put hb hus, byteutilsGetNtpTimestamp_put hc hvs]
    omega
  · -- an earlier second stays an earlier second
    have hsecond := ntpTimestamp_second hb hus
    have hsecond' := ntpTimestamp_second hc hvs
    omega

/-- The two functions read the same time; a time whose seconds fit comes back as it was or one
microsecond less, as it was exactly if 15625 divides its microseconds, in the same second, and the
order of two times is kept. -/
theorem ntpTimestamp_codecs :
    (∀ (b : Bytes) (offset : ℕ),
      raopNtpTimestampToMicroSeconds (UInt64.ofNat (byteutilsGetLongBe b offset)) true =
        byteutilsGetNtpTimestamp b offset) ∧
    (∀ (b : Bytes) (offset : ℕ) (us : UInt64), offset + 8 ≤ b.length →
      us.toNat / 1000000 + secondsFrom1900To1970.toNat < 2 ^ 32 →
        let back := byteutilsGetNtpTimestamp (byteutilsPutNtpTimestamp b offset us) offset
        (back.toNat = us.toNat ∨ back.toNat + 1 = us.toNat) ∧
          (back = us ↔ 15625 ∣ us.toNat % 1000000) ∧
          back.toNat / 1000000 = us.toNat / 1000000) ∧
    ∀ (b c : Bytes) (i j : ℕ) (us vs : UInt64), i + 8 ≤ b.length → j + 8 ≤ c.length → us ≤ vs →
      vs.toNat / 1000000 + secondsFrom1900To1970.toNat < 2 ^ 32 →
        byteutilsGetNtpTimestamp (byteutilsPutNtpTimestamp b i us) i ≤
          byteutilsGetNtpTimestamp (byteutilsPutNtpTimestamp c j vs) j := by
  refine ⟨raopNtpTimestampToMicroSeconds_eq, ?_, ?_⟩
  · intro b offset us h hus
    have hrange := (ntpRange_iff us.toNat).mpr hus
    obtain ⟨hle, hge⟩ := ntpTimestamp_roundTrip h hrange
    exact ⟨by omega, ntpTimestamp_exact_iff h hrange, ntpTimestamp_second h hrange⟩
  · intro b c i j us vs hb hc hle hvs
    exact ntpTimestamp_mono hb hc hle ((ntpRange_iff vs.toNat).mpr hvs)

/-- One microsecond is lost, half a second is not. -/
theorem ntpTimestamp_codecs_half :
    let back (us : UInt64) := byteutilsGetNtpTimestamp
      (byteutilsPutNtpTimestamp (List.replicate 8 0) 0 us) 0
    back 1 ≠ 1 ∧ back 500000 = 500000 ∧ back 1 ≤ back 500000 := by
  obtain ⟨-, hback, hmono⟩ := ntpTimestamp_codecs
  have hone := (hback (List.replicate 8 0) 0 1 (by decide) (by decide)).2.1
  have hhalf := (hback (List.replicate 8 0) 0 500000 (by decide) (by decide)).2.1
  exact ⟨fun h => absurd (hone.mp h) (by decide), hhalf.mpr (by decide),
    hmono (List.replicate 8 0) (List.replicate 8 0) 0 0 1 500000 (by decide) (by decide)
      (by decide) (by decide)⟩

end WinAirPlay
