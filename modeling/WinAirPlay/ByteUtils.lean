import WinAirPlay.Foundations.ByteBuffer
import WinAirPlay.Foundations.FixedPoint

/-! # Integers in buffers: `byteutils.cpp`

The functions assume a little-endian CPU; `htonl` and `ntohl` swap the bytes. An integer read from
a buffer is the natural number of its bit pattern. An NTP timestamp in a buffer loses at most one
microsecond of the time it was written for.
-/

namespace WinAirPlay
open Foundations.ByteBuffer Foundations.FixedPoint
set_option autoImplicit false

def byteutilsGetShort (b : Bytes) (offset : ℕ) : ℕ :=
  (byteAt b offset).toNat + 2 ^ 8 * (byteAt b (offset + 1)).toNat

def byteutilsGetInt (b : Bytes) (offset : ℕ) : ℕ :=
  byteutilsGetShort b offset + 2 ^ 16 * byteutilsGetShort b (offset + 2)

def byteutilsGetLong (b : Bytes) (offset : ℕ) : ℕ :=
  byteutilsGetInt b offset + 2 ^ 32 * byteutilsGetInt b (offset + 4)

theorem byteutilsGetShort_lt (b : Bytes) (offset : ℕ) : byteutilsGetShort b offset < 2 ^ 16 := by
  have h0 := (byteAt b offset).toNat_lt
  have h1 := (byteAt b (offset + 1)).toNat_lt
  unfold byteutilsGetShort
  omega

theorem byteutilsGetInt_lt (b : Bytes) (offset : ℕ) : byteutilsGetInt b offset < 2 ^ 32 := by
  have h0 := byteutilsGetShort_lt b offset
  have h1 := byteutilsGetShort_lt b (offset + 2)
  unfold byteutilsGetInt
  omega

/-- The four bytes of an integer in memory. -/
def intBytes (value : ℕ) : Bytes :=
  [UInt8.ofNat value, UInt8.ofNat (value / 2 ^ 8), UInt8.ofNat (value / 2 ^ 16),
    UInt8.ofNat (value / 2 ^ 24)]

def byteutilsPutInt (b : Bytes) (offset value : ℕ) : Bytes := writeAt b offset (intBytes value)

/-- Swaps the four bytes of a 32-bit value. -/
def htonl (v : ℕ) : ℕ :=
  v % 2 ^ 8 * 2 ^ 24 + v / 2 ^ 8 % 2 ^ 8 * 2 ^ 16 + v / 2 ^ 16 % 2 ^ 8 * 2 ^ 8 +
    v / 2 ^ 24 % 2 ^ 8

def ntohl (v : ℕ) : ℕ := htonl v

theorem ntohl_htonl (v : ℕ) : ntohl (htonl v) = v % 2 ^ 32 := by
  have hv : v % 2 ^ 32 = v % 2 ^ 8 + v / 2 ^ 8 % 2 ^ 8 * 2 ^ 8 + v / 2 ^ 16 % 2 ^ 8 * 2 ^ 16 +
      v / 2 ^ 24 % 2 ^ 8 * 2 ^ 24 := by omega
  have h0 : v % 2 ^ 8 < 2 ^ 8 := Nat.mod_lt _ (by omega)
  have h1 : v / 2 ^ 8 % 2 ^ 8 < 2 ^ 8 := Nat.mod_lt _ (by omega)
  have h2 : v / 2 ^ 16 % 2 ^ 8 < 2 ^ 8 := Nat.mod_lt _ (by omega)
  have h3 : v / 2 ^ 24 % 2 ^ 8 < 2 ^ 8 := Nat.mod_lt _ (by omega)
  rw [hv]
  unfold ntohl
  rw [htonl.eq_def v]
  generalize v % 2 ^ 8 = b0 at h0 ⊢
  generalize v / 2 ^ 8 % 2 ^ 8 = b1 at h1 ⊢
  generalize v / 2 ^ 16 % 2 ^ 8 = b2 at h2 ⊢
  generalize v / 2 ^ 24 % 2 ^ 8 = b3 at h3 ⊢
  generalize hw : b0 * 2 ^ 24 + b1 * 2 ^ 16 + b2 * 2 ^ 8 + b3 = w
  have e0 : w % 2 ^ 8 = b3 := by omega
  have e1 : w / 2 ^ 8 % 2 ^ 8 = b2 := by omega
  have e2 : w / 2 ^ 16 % 2 ^ 8 = b1 := by omega
  have e3 : w / 2 ^ 24 % 2 ^ 8 = b0 := by omega
  unfold htonl
  rw [e0, e1, e2, e3]
  ring

theorem htonl_lt (v : ℕ) : htonl v < 2 ^ 32 := by
  unfold htonl
  omega

theorem length_byteutilsPutInt {b : Bytes} {offset : ℕ} (h : offset + 4 ≤ b.length) (value : ℕ) :
    (byteutilsPutInt b offset value).length = b.length := length_writeAt h

theorem byteAt_byteutilsPutInt {b : Bytes} {offset : ℕ} (h : offset + 4 ≤ b.length)
    (value i : ℕ) : byteAt (byteutilsPutInt b offset value) i =
      if offset ≤ i ∧ i < offset + 4 then byteAt (intBytes value) (i - offset) else byteAt b i :=
  byteAt_writeAt h i

theorem byteutilsGetInt_put_self {b : Bytes} {offset : ℕ} (h : offset + 4 ≤ b.length) (value : ℕ) :
    byteutilsGetInt (byteutilsPutInt b offset value) offset = value % 2 ^ 32 := by
  have hbyte : ∀ i < 4, byteAt (byteutilsPutInt b offset value) (offset + i) =
      byteAt (intBytes value) i := by
    intro i hi
    rw [byteAt_byteutilsPutInt h, if_pos (by omega), Nat.add_sub_cancel_left]
  have h0 := hbyte 0 (by omega)
  rw [Nat.add_zero] at h0
  unfold byteutilsGetInt byteutilsGetShort
  rw [h0, hbyte 1 (by omega), hbyte 2 (by omega), Nat.add_assoc offset 2 1, hbyte 3 (by omega)]
  simp only [byteAt, intBytes, List.getD_cons_zero, List.getD_cons_succ, UInt8.toNat_ofNat']
  omega

theorem byteutilsGetInt_put_other {b : Bytes} {offset other : ℕ} (h : offset + 4 ≤ b.length)
    (hother : other + 4 ≤ offset ∨ offset + 4 ≤ other) (value : ℕ) :
    byteutilsGetInt (byteutilsPutInt b offset value) other = byteutilsGetInt b other := by
  have hbyte : ∀ i < 4, byteAt (byteutilsPutInt b offset value) (other + i) =
      byteAt b (other + i) := by
    intro i hi
    rw [byteAt_byteutilsPutInt h, if_neg (by omega)]
  have h0 := hbyte 0 (by omega)
  rw [Nat.add_zero] at h0
  unfold byteutilsGetInt byteutilsGetShort
  rw [h0, hbyte 1 (by omega), hbyte 2 (by omega), Nat.add_assoc other 2 1, hbyte 3 (by omega)]

def byteutilsGetIntBe (b : Bytes) (offset : ℕ) : ℕ := ntohl (byteutilsGetInt b offset)

def ntohll (v : ℕ) : ℕ := ntohl v * 2 ^ 32 + ntohl (v / 2 ^ 32)

def byteutilsGetLongBe (b : Bytes) (offset : ℕ) : ℕ := ntohll (byteutilsGetLong b offset)

/-! ## NTP timestamps -/

def secondsFrom1900To1970 : UInt64 := 2208988800

/-- Microseconds since 1970 of a timestamp in network byte order. -/
def byteutilsGetNtpTimestamp (b : Bytes) (offset : ℕ) : UInt64 :=
  let seconds := UInt64.ofNat (ntohl (byteutilsGetInt b offset)) - secondsFrom1900To1970
  let fraction := UInt64.ofNat (ntohl (byteutilsGetInt b (offset + 4)))
  seconds * (1000000 : UInt64) + (fraction * (1000000 : UInt64)) >>> (32 : UInt64)

def byteutilsPutNtpTimestamp (b : Bytes) (offset : ℕ) (usSince1970 : UInt64) : Bytes :=
  let seconds := usSince1970 / (1000000 : UInt64)
  let microseconds := usSince1970 % (1000000 : UInt64)
  let seconds := seconds + secondsFrom1900To1970
  let fraction := (microseconds <<< (32 : UInt64)) / (1000000 : UInt64)
  byteutilsPutInt (byteutilsPutInt b offset (htonl seconds.toNat)) (offset + 4)
    (htonl fraction.toNat)

/-- The times whose seconds fit the 32 bits of a timestamp. -/
def NtpRange (us : ℕ) : Prop := us < (2 ^ 32 - 2208988800) * 1000000

theorem length_byteutilsPutNtpTimestamp {b : Bytes} {offset : ℕ} (h : offset + 8 ≤ b.length)
    (us : UInt64) : (byteutilsPutNtpTimestamp b offset us).length = b.length := by
  unfold byteutilsPutNtpTimestamp
  rw [length_byteutilsPutInt (by rw [length_byteutilsPutInt (by omega)]; omega),
    length_byteutilsPutInt (by omega)]

/-- A timestamp of whole seconds and a fraction, read back. -/
theorem byteutilsGetNtpTimestamp_toNat {b : Bytes} {offset seconds fraction : ℕ}
    (hsec : ntohl (byteutilsGetInt b offset) = seconds + 2208988800)
    (hfrac : ntohl (byteutilsGetInt b (offset + 4)) = fraction)
    (hseconds : seconds + 2208988800 < 2 ^ 32) (hfraction : fraction < 2 ^ 32) :
    (byteutilsGetNtpTimestamp b offset).toNat =
      seconds * 1000000 + ofFraction 1000000 (2 ^ 32) fraction := by
  have hs : (UInt64.ofNat (ntohl (byteutilsGetInt b offset)) - secondsFrom1900To1970).toNat =
      seconds := by
    rw [hsec, UInt64.toNat_sub_of_le]
    · rw [UInt64.toNat_ofNat', Nat.mod_eq_of_lt (by omega)]
      show seconds + 2208988800 - 2208988800 = seconds
      omega
    · rw [UInt64.le_iff_toNat_le, UInt64.toNat_ofNat', Nat.mod_eq_of_lt (by omega)]
      show 2208988800 ≤ seconds + 2208988800
      omega
  have hf : ((UInt64.ofNat (ntohl (byteutilsGetInt b (offset + 4))) * (1000000 : UInt64)) >>>
      (32 : UInt64)).toNat = ofFraction 1000000 (2 ^ 32) fraction := by
    rw [hfrac, UInt64.toNat_shiftRight, UInt64.toNat_mul, UInt64.toNat_ofNat',
      Nat.mod_eq_of_lt (a := fraction) (by omega)]
    show (fraction * 1000000 % 2 ^ 64) >>> 32 = _
    rw [Nat.mod_eq_of_lt (by omega), Nat.shiftRight_eq_div_pow, ofFraction]
  have hlt : ofFraction 1000000 (2 ^ 32) fraction < 1000000 := by
    unfold ofFraction
    omega
  unfold byteutilsGetNtpTimestamp
  dsimp only
  rw [UInt64.toNat_add, UInt64.toNat_mul, hs, hf]
  show (seconds * 1000000 % 2 ^ 64 + _) % 2 ^ 64 = _
  rw [Nat.mod_eq_of_lt (a := seconds * 1000000) (by omega), Nat.mod_eq_of_lt (by omega)]

theorem byteutilsGetNtpTimestamp_put {b : Bytes} {offset : ℕ} (h : offset + 8 ≤ b.length)
    {us : UInt64} (hus : NtpRange us.toNat) :
    (byteutilsGetNtpTimestamp (byteutilsPutNtpTimestamp b offset us) offset).toNat =
      us.toNat / 1000000 * 1000000 +
        ofFraction 1000000 (2 ^ 32) (toFraction 1000000 (2 ^ 32) (us.toNat % 1000000)) := by
  have hsec : us.toNat / 1000000 + 2208988800 < 2 ^ 32 := by
    unfold NtpRange at hus
    omega
  have hmicro : us.toNat % 1000000 < 1000000 := Nat.mod_lt _ (by omega)
  have hfraction := toFraction_lt (2 ^ 32) hmicro (by omega)
  have hsecNat : (us / (1000000 : UInt64) + secondsFrom1900To1970).toNat =
      us.toNat / 1000000 + 2208988800 := by
    rw [UInt64.toNat_add, UInt64.toNat_div]
    show (us.toNat / 1000000 + 2208988800) % 2 ^ 64 = _
    rw [Nat.mod_eq_of_lt (by omega)]
  have hfracNat : (((us % (1000000 : UInt64)) <<< (32 : UInt64)) / (1000000 : UInt64)).toNat =
      toFraction 1000000 (2 ^ 32) (us.toNat % 1000000) := by
    rw [UInt64.toNat_div, UInt64.toNat_shiftLeft, UInt64.toNat_mod]
    show (us.toNat % 1000000) <<< 32 % 2 ^ 64 / 1000000 = _
    rw [Nat.shiftLeft_eq, Nat.mod_eq_of_lt (a := us.toNat % 1000000 * 2 ^ 32) (by omega), toFraction]
  have hlen : offset + 4 + 4 ≤ (byteutilsPutInt b offset
      (htonl (us / (1000000 : UInt64) + secondsFrom1900To1970).toNat)).length := by
    rw [length_byteutilsPutInt (by omega)]
    omega
  apply byteutilsGetNtpTimestamp_toNat _ _ hsec hfraction
  · unfold byteutilsPutNtpTimestamp
    dsimp only
    rw [byteutilsGetInt_put_other hlen (Or.inl le_rfl), byteutilsGetInt_put_self (by omega),
      Nat.mod_eq_of_lt (htonl_lt _), ntohl_htonl, hsecNat, Nat.mod_eq_of_lt hsec]
  · unfold byteutilsPutNtpTimestamp
    dsimp only
    rw [byteutilsGetInt_put_self hlen, Nat.mod_eq_of_lt (htonl_lt _), ntohl_htonl, hfracNat,
      Nat.mod_eq_of_lt hfraction]

/-- A timestamp loses at most one microsecond. -/
theorem ntpTimestamp_roundTrip {b : Bytes} {offset : ℕ} (h : offset + 8 ≤ b.length)
    {us : UInt64} (hus : NtpRange us.toNat) :
    let back := (byteutilsGetNtpTimestamp (byteutilsPutNtpTimestamp b offset us) offset).toNat
    back ≤ us.toNat ∧ us.toNat ≤ back + 1 := by
  have hle := ofFraction_toFraction_le 1000000 (2 ^ 32) (us.toNat % 1000000) (by omega)
  have hge := le_ofFraction_toFraction 1000000 (2 ^ 32) (us.toNat % 1000000) (by omega) (by omega)
  dsimp only
  rw [byteutilsGetNtpTimestamp_put h hus]
  omega

/-- The eight bytes of a timestamp do not depend on the buffer they are written to. -/
theorem byteAt_byteutilsPutNtpTimestamp {b c : Bytes} {i j k : ℕ} (hb : i + 8 ≤ b.length)
    (hc : j + 8 ≤ c.length) (hk : k < 8) (us : UInt64) :
    byteAt (byteutilsPutNtpTimestamp b i us) (i + k) =
      byteAt (byteutilsPutNtpTimestamp c j us) (j + k) := by
  unfold byteutilsPutNtpTimestamp
  dsimp only
  rw [byteAt_byteutilsPutInt (by rw [length_byteutilsPutInt (by omega)]; omega),
    byteAt_byteutilsPutInt (b := byteutilsPutInt c _ _) (by
      rw [length_byteutilsPutInt (by omega)]; omega)]
  by_cases h4 : k < 4
  · rw [if_neg (by omega), if_neg (by omega), byteAt_byteutilsPutInt (by omega),
      byteAt_byteutilsPutInt (by omega), if_pos (by omega), if_pos (by omega),
      Nat.add_sub_cancel_left, Nat.add_sub_cancel_left]
  · rw [if_pos (by omega), if_pos (by omega), show i + k - (i + 4) = k - 4 by omega,
      show j + k - (j + 4) = k - 4 by omega]

theorem byteAt_byteutilsPutNtpTimestamp_other {b : Bytes} {offset i : ℕ}
    (h : offset + 8 ≤ b.length) (hi : i < offset ∨ offset + 8 ≤ i) (us : UInt64) :
    byteAt (byteutilsPutNtpTimestamp b offset us) i = byteAt b i := by
  unfold byteutilsPutNtpTimestamp
  dsimp only
  rw [byteAt_byteutilsPutInt (by rw [length_byteutilsPutInt (by omega)]; omega), if_neg (by omega),
    byteAt_byteutilsPutInt (by omega), if_neg (by omega)]

theorem byteutilsGetNtpTimestamp_congr {b c : Bytes} {i j : ℕ}
    (h : ∀ k < 8, byteAt b (i + k) = byteAt c (j + k)) :
    byteutilsGetNtpTimestamp b i = byteutilsGetNtpTimestamp c j := by
  have hint : ∀ o ≤ 4, byteutilsGetInt b (i + o) = byteutilsGetInt c (j + o) := by
    intro o ho
    unfold byteutilsGetInt byteutilsGetShort
    rw [h o (by omega), Nat.add_assoc i o 1, Nat.add_assoc j o 1, h (o + 1) (by omega),
      Nat.add_assoc i o 2, Nat.add_assoc j o 2, h (o + 2) (by omega), Nat.add_assoc i (o + 2) 1,
      Nat.add_assoc j (o + 2) 1, h (o + 2 + 1) (by omega)]
  have h0 := hint 0 (by omega)
  rw [Nat.add_zero, Nat.add_zero] at h0
  unfold byteutilsGetNtpTimestamp
  rw [h0, hint 4 (by omega)]

end WinAirPlay
