import Mathlib.Algebra.Order.Floor.Semiring
import Mathlib.Data.Rat.Floor
import Mathlib.Tactic.Linarith
import WinAirPlay.Rtp.SyncClock

/-! # RTP time across a wrap of the counter

The sender counts samples without bound and sends the count modulo 2³²; sample `n` is played at the
local time `T0 + n / 44100 s`. `raop_rtp_sync_clock` averages the offsets of the newest eight sync
points and `raop_rtp_convert_rtp_time` takes the average off the RTP time of a packet. An offset
contains the number of times the counter had wrapped, so the result is right exactly if the newest
sync points had wrapped, on average, as often as the packet, and their sum fits 64 bits.

Quotients of doubles are exact here and truncated to integers as the casts do.
-/

namespace WinAirPlay
open Foundations.RingBuffer
set_option autoImplicit false

/-- The local time of sample `n` in microseconds. -/
def sampleTime (T0 : ℚ) (n : ℕ) : ℚ := T0 + n * 10 ^ 6 / 44100

/-- What the sync packet for sample `n` puts into the ring. -/
def syncPoint (T0 : ℚ) (n : ℕ) : RaopRtpSyncData where
  ntpTime := UInt64.ofNat ⌊sampleTime T0 n⌋₊
  rtpTime := UInt32.ofNat n

def syncCall (T0 : ℚ) (clock : RtpClock) (n : ℕ) : Option RtpClock :=
  raopRtpSyncClock rtpScaledExact clock (syncPoint T0 n).rtpTime (syncPoint T0 n).ntpTime

/-- The sync packets for these samples, in order; `none` is a division by zero. -/
def syncRun (T0 : ℚ) (samples : List ℕ) : Option RtpClock :=
  samples.foldlM (syncCall T0) rtpClockInit

/-- The newest eight of the samples. -/
def newest (samples : List ℕ) : List ℕ := samples.reverse.take raopRtpSyncDataCount

/-- How often the counter has wrapped before sample `n`. -/
def wraps (n : ℕ) : ℕ := n / 2 ^ 32

/-- The RTP time of sample `n` in microseconds, truncated. -/
def scaledTime (n : ℕ) : ℕ := n % 2 ^ 32 * 10000 / 441

/-- The RTP time of sample `n` less its local time, both truncated. -/
def sampleOffset (T0 : ℚ) (n : ℕ) : ℤ := scaledTime n - ⌊sampleTime T0 n⌋₊

def offsetSum (T0 : ℚ) (samples : List ℕ) : ℤ := (samples.map (sampleOffset T0)).sum

/-- After the sync packets the RTP time of sample `m` is mapped to its local time. -/
def MapsRight (T0 : ℚ) (samples : List ℕ) (m : ℕ) : Prop :=
  ∃ clock, syncRun T0 samples = some clock ∧
    |((raopRtpConvertRtpTime rtpScaledExact clock (UInt32.ofNat m)).toNat : ℚ) -
      sampleTime T0 m| ≤ 3

/-- No sync point falls into the first microsecond, the newest sync points have wrapped on average
as often as `m`, and their sum is off by a multiple of their number times 2⁶⁴, or not at all. -/
structure Unwraps (T0 : ℚ) (samples : List ℕ) (m : ℕ) : Prop where
  started : ∀ n ∈ samples, 1 ≤ sampleTime T0 n
  wraps : ((newest samples).map wraps).sum = (newest samples).length * wraps m
  fits : ((newest samples).length : ℤ) ∣ (offsetSum T0 (newest samples) + 2 ^ 63) / 2 ^ 64

/-! ## The ring -/

section
variable {T0 : ℚ} {samples : List ℕ}

def syncPoints (T0 : ℚ) (samples : List ℕ) : Circular RaopRtpSyncData :=
  (samples.map (syncPoint T0)).foldl push rtpClockInit.syncData

theorem filter_syncPoints (hset : ∀ n ∈ samples, (syncPoint T0 n).ntpTime ≠ 0) :
    ((syncPoints T0 samples).entries.filter (·.ntpTime ≠ 0)).Perm
      ((newest samples).map (syncPoint T0)) := by
  obtain ⟨-, -, hperm⟩ := pushes_replicate (n := raopRtpSyncDataCount) (by decide)
    (⟨0, 0⟩ : RaopRtpSyncData) (samples.map (syncPoint T0))
  refine (hperm.filter _).trans (List.Perm.of_eq ?_)
  have hnewest : ((newest samples).map (syncPoint T0)).filter (·.ntpTime ≠ 0) =
      (newest samples).map (syncPoint T0) := by
    refine List.filter_eq_self.mpr fun d hd => ?_
    obtain ⟨n, hn, rfl⟩ := List.mem_map.mp hd
    simpa using hset n (List.mem_reverse.mp (List.mem_of_mem_take hn))
  rw [List.take_append, List.filter_append, ← List.map_reverse, ← List.map_take,
    List.take_replicate, List.filter_replicate]
  rw [show samples.reverse.take raopRtpSyncDataCount = newest samples from rfl, hnewest]
  simp

theorem exactOffset_syncPoint {n : ℕ} (hlt : sampleTime T0 n < 2 ^ 64) :
    exactOffset rtpScaledExact (syncPoint T0 n) = sampleOffset T0 n := by
  have hfloor : ⌊sampleTime T0 n⌋₊ < 2 ^ 64 := by
    rw [Nat.floor_lt' (by decide)]
    exact_mod_cast hlt
  have hrtp : (UInt32.ofNat n).toNat = n % 2 ^ 32 := UInt32.toNat_ofNat'
  have hntp : (UInt64.ofNat ⌊sampleTime T0 n⌋₊).toNat = ⌊sampleTime T0 n⌋₊ := by
    rw [UInt64.toNat_ofNat', Nat.mod_eq_of_lt hfloor]
  rw [exactOffset, sampleOffset, syncPoint, toNat_rtpScaledExact, hrtp, hntp, scaledTime]

theorem newest_mem {n : ℕ} (h : n ∈ newest samples) : n ∈ samples :=
  List.mem_reverse.mp (List.mem_of_mem_take h)

theorem length_newest_pos (hne : samples ≠ []) : 0 < (newest samples).length := by
  have hpos := List.length_pos_iff.mpr hne
  have hcount : raopRtpSyncDataCount = 8 := rfl
  rw [newest, List.length_take, List.length_reverse]
  omega

theorem exactTotal_syncPoints (hset : ∀ n ∈ samples, (syncPoint T0 n).ntpTime ≠ 0)
    (hlt : ∀ n ∈ samples, sampleTime T0 n < 2 ^ 64) :
    exactTotal rtpScaledExact (syncPoints T0 samples).entries = offsetSum T0 (newest samples) := by
  have hperm := (filter_syncPoints hset).map (exactOffset rtpScaledExact)
  rw [exactTotal, hperm.sum_eq, List.map_map, offsetSum]
  refine congrArg List.sum (List.map_congr_left fun n hn => ?_)
  exact exactOffset_syncPoint (hlt n (newest_mem hn))

theorem syncRun_eq (hset : ∀ n ∈ samples, (syncPoint T0 n).ntpTime ≠ 0)
    (hlt : ∀ n ∈ samples, sampleTime T0 n < 2 ^ 64) :
    ∃ clock, syncRun T0 samples = some clock ∧ clock.syncData = syncPoints T0 samples ∧
      (samples ≠ [] → clock.rtpSyncOffset = Int64.ofInt (offsetSum T0 (newest samples)) /
        Int64.ofNat (newest samples).length) := by
  induction samples using List.reverseRecOn with
  | nil => exact ⟨rtpClockInit, rfl, rfl, fun h => absurd rfl h⟩
  | append_singleton samples n ih =>
    obtain ⟨clock, hrun, hring, -⟩ := ih (fun k hk => hset k (List.mem_append_left _ hk))
      (fun k hk => hlt k (List.mem_append_left _ hk))
    have hpush : push clock.syncData (syncPoint T0 n) = syncPoints T0 (samples ++ [n]) := by
      rw [hring, syncPoints, syncPoints, List.map_append, List.foldl_append]
      rfl
    have hcount : ((syncPoints T0 (samples ++ [n])).entries.filter (·.ntpTime ≠ 0)).length =
        (newest (samples ++ [n])).length := by
      rw [(filter_syncPoints hset).length_eq, List.length_map]
    have hcall := raopRtpSyncClock_eq rtpScaledExact clock (syncPoint T0 n).rtpTime
      (syncPoint T0 n).ntpTime
    dsimp only at hcall
    rw [hpush, hcount, exactTotal_syncPoints hset hlt,
      if_neg (Nat.ne_of_gt (length_newest_pos (by simp)))] at hcall
    refine ⟨⟨Int64.ofInt (offsetSum T0 (newest (samples ++ [n]))) /
      Int64.ofNat (newest (samples ++ [n])).length, syncPoints T0 (samples ++ [n])⟩, ?_, rfl,
      fun _ => rfl⟩
    rw [syncRun, List.foldlM_append, ← syncRun, hrun]
    simpa [syncCall] using hcall

theorem syncPoint_set_iff {n : ℕ} (hlt : sampleTime T0 n < 2 ^ 64) :
    (syncPoint T0 n).ntpTime ≠ 0 ↔ 1 ≤ sampleTime T0 n := by
  have hfloor : ⌊sampleTime T0 n⌋₊ < 2 ^ 64 := by
    rw [Nat.floor_lt' (by decide)]
    exact_mod_cast hlt
  rw [ne_eq, ← UInt64.toNat_inj, syncPoint, UInt64.toNat_ofNat', Nat.mod_eq_of_lt hfloor]
  show ¬ ⌊sampleTime T0 n⌋₊ = 0 ↔ _
  rw [Nat.floor_eq_zero, not_lt]

/-- If the first sync point is unset, the first call divides by zero. -/
theorem syncRun_unset {n : ℕ} (h : (syncPoint T0 n).ntpTime = 0) :
    syncRun T0 (n :: samples) = none := by
  have hcall : syncCall T0 rtpClockInit n = none := by
    rw [syncCall, raopRtpSyncClock_eq, h]
    rfl
  rw [syncRun, List.foldlM_cons, hcall]
  rfl

end

/-! ## One offset and their sum -/

/-- The local time of sample `n`, by its wraps and its RTP time. -/
theorem sampleTime_near (T0 : ℚ) (n : ℕ) :
    T0 + 10000 / 441 * 2 ^ 32 * wraps n + scaledTime n ≤ sampleTime T0 n ∧
      sampleTime T0 n < T0 + 10000 / 441 * 2 ^ 32 * wraps n + scaledTime n + 1 := by
  have hsplit : (n : ℚ) = 2 ^ 32 * wraps n + (n % 2 ^ 32 : ℕ) := by
    exact_mod_cast (Nat.div_add_mod n (2 ^ 32)).symm
  have hlow : 441 * scaledTime n ≤ n % 2 ^ 32 * 10000 := Nat.mul_div_le _ _
  have hhigh : n % 2 ^ 32 * 10000 < 441 * scaledTime n + 441 := by
    unfold scaledTime
    omega
  rw [sampleTime, hsplit]
  generalize n % 2 ^ 32 = r at *
  have hlow : (441 : ℚ) * scaledTime n ≤ r * 10000 := by exact_mod_cast hlow
  have hhigh : (r : ℚ) * 10000 < 441 * scaledTime n + 441 := by exact_mod_cast hhigh
  constructor <;> linarith

section
variable {T0 : ℚ}

/-- An offset is the negated start and wraps, up to a microsecond. -/
theorem sampleOffset_near (hT0 : 0 < T0) (n : ℕ) :
    |(sampleOffset T0 n : ℚ) + (T0 + 10000 / 441 * 2 ^ 32 * wraps n)| ≤ 1 := by
  obtain ⟨hlow, hhigh⟩ := sampleTime_near T0 n
  have hpos : 0 ≤ sampleTime T0 n := by
    unfold sampleTime
    positivity
  have hfloor := Nat.floor_le hpos
  have hceil := Nat.lt_floor_add_one (sampleTime T0 n)
  rw [sampleOffset, abs_le]
  push_cast
  constructor <;> linarith

theorem sampleOffset_nonpos (hT0 : 0 < T0) (n : ℕ) : sampleOffset T0 n ≤ 0 := by
  have hle : scaledTime n ≤ ⌊sampleTime T0 n⌋₊ := by
    refine Nat.le_floor ?_
    have hlow := (sampleTime_near T0 n).1
    have hwraps : (0 : ℚ) ≤ 10000 / 441 * 2 ^ 32 * wraps n := by positivity
    linarith
  unfold sampleOffset
  omega

theorem offsetSum_near (hT0 : 0 < T0) (samples : List ℕ) :
    |(offsetSum T0 samples : ℚ) + (samples.length * T0 +
      10000 / 441 * 2 ^ 32 * (samples.map wraps).sum)| ≤ (samples.length : ℚ) := by
  induction samples with
  | nil => simp [offsetSum]
  | cons n samples ih =>
    have hn := sampleOffset_near hT0 n
    have hsum : offsetSum T0 (n :: samples) = sampleOffset T0 n + offsetSum T0 samples := rfl
    rw [hsum, List.map_cons, List.sum_cons, List.length_cons, Int.cast_add, Nat.cast_add,
      Nat.cast_add, Nat.cast_one]
    rw [abs_le] at hn ih ⊢
    constructor <;> linarith

theorem offsetSum_nonpos (hT0 : 0 < T0) (samples : List ℕ) : offsetSum T0 samples ≤ 0 := by
  induction samples with
  | nil => exact le_refl 0
  | cons n samples ih => exact add_nonpos (sampleOffset_nonpos hT0 n) ih

end

/-! ## The conversion -/

theorem bmod_eq (s : ℤ) : s.bmod (2 ^ 64) = s - 2 ^ 64 * ((s + 2 ^ 63) / 2 ^ 64) := by
  rw [Int.bmod_def]
  split <;> omega

theorem toNat_sub_toUInt64 (a : UInt64) (b : Int64) :
    ((a - b.toUInt64).toNat : ℤ) = (a.toNat - b.toInt) % 2 ^ 64 := by
  have hb : b.toInt = b.toUInt64.toNat ∨ b.toInt = b.toUInt64.toNat - 2 ^ 64 := by
    have h := BitVec.toInt_eq_toNat_cond b.toBitVec
    have hnat : b.toUInt64.toNat = b.toBitVec.toNat := rfl
    have hint : b.toInt = b.toBitVec.toInt := rfl
    rw [hnat, hint, h]
    split
    · exact Or.inl rfl
    · exact Or.inr rfl
  have ha := a.toNat_lt
  have hlt := b.toUInt64.toNat_lt
  rw [UInt64.toNat_sub]
  push_cast
  omega

/-- The average of the offsets of these samples, as it is computed. -/
def averageOffset (T0 : ℚ) (samples : List ℕ) : ℤ :=
  ((offsetSum T0 samples).bmod (2 ^ 64)).tdiv samples.length

/-- How often 2⁶⁴ was lost in the sum of the offsets. -/
def sumWraps (T0 : ℚ) (samples : List ℕ) : ℤ := (offsetSum T0 samples + 2 ^ 63) / 2 ^ 64

section
variable {T0 : ℚ} {samples : List ℕ} {m : ℕ}

theorem averageOffset_near (hpos : 0 < samples.length) :
    |(samples.length : ℤ) * averageOffset T0 samples -
      (offsetSum T0 samples - 2 ^ 64 * sumWraps T0 samples)| ≤ (samples.length : ℤ) := by
  have hdiv := Int.mul_tdiv_add_tmod ((offsetSum T0 samples).bmod (2 ^ 64)) samples.length
  have hlow := Int.lt_tmod_of_pos ((offsetSum T0 samples).bmod (2 ^ 64))
    (b := (samples.length : ℤ)) (by omega)
  have hhigh := Int.tmod_lt_of_pos ((offsetSum T0 samples).bmod (2 ^ 64))
    (b := (samples.length : ℤ)) (by omega)
  rw [bmod_eq] at hdiv hlow hhigh
  rw [averageOffset, sumWraps, bmod_eq, abs_le]
  constructor <;> linarith

/-- How far the mean of the wraps is from the wraps of `m`, times the number of samples. -/
def wrapGap (samples : List ℕ) (m : ℕ) : ℤ :=
  (samples.map wraps).sum - samples.length * wraps m

/-- The number of samples times what the conversion is off beyond the gap between the wraps and what
was lost in the sum. -/
def conversionError (T0 : ℚ) (samples : List ℕ) (m : ℕ) : ℚ :=
  samples.length * ((scaledTime m - averageOffset T0 samples : ℤ) : ℚ) -
    (samples.length * sampleTime T0 m + 10000 / 441 * 2 ^ 32 * wrapGap samples m +
      2 ^ 64 * sumWraps T0 samples)

theorem conversionError_near (hT0 : 0 < T0) (hpos : 0 < samples.length) (m : ℕ) :
    -(3 * (samples.length : ℚ)) ≤ conversionError T0 samples m ∧
      conversionError T0 samples m ≤ 2 * samples.length := by
  have haverage : |(samples.length : ℚ) * averageOffset T0 samples -
      (offsetSum T0 samples - 2 ^ 64 * sumWraps T0 samples)| ≤ (samples.length : ℚ) := by
    exact_mod_cast @averageOffset_near T0 samples hpos
  have hsum := offsetSum_near hT0 samples
  have hc : (0 : ℚ) ≤ samples.length := Nat.cast_nonneg _
  obtain ⟨hlow, hhigh⟩ := sampleTime_near T0 m
  have hlow := mul_le_mul_of_nonneg_left hlow hc
  have hhigh := mul_le_mul_of_nonneg_left hhigh.le hc
  rw [abs_le] at haverage hsum
  rw [conversionError, wrapGap, Int.cast_sub, Int.cast_sub, Int.cast_mul]
  simp only [Int.cast_natCast]
  constructor <;> linarith

theorem wraps_lt (hT0 : 0 < T0) {n : ℕ} (hlt : sampleTime T0 n < 2 ^ 64) : wraps n < 2 ^ 28 := by
  have hlow := (sampleTime_near T0 n).1
  have hscaled : (0 : ℚ) ≤ scaledTime n := Nat.cast_nonneg _
  have hq : (wraps n : ℚ) < 2 ^ 28 := by linarith
  exact_mod_cast hq

theorem sum_wraps_le (hT0 : 0 < T0) (hlt : ∀ n ∈ samples, sampleTime T0 n < 2 ^ 64) :
    (samples.map wraps).sum ≤ samples.length * 2 ^ 28 := by
  have h := List.sum_le_card_nsmul (samples.map wraps) (2 ^ 28) fun x hx => by
    obtain ⟨n, hn, rfl⟩ := List.mem_map.mp hx
    exact (wraps_lt hT0 (hlt n hn)).le
  simpa using h

/-- A multiple of 2³² that is smaller is zero, and a gap is too small to make up for a loss. -/
theorem gap_lost_zero {gap lost : ℤ}
    (hsmall : |2 ^ 32 * (10000 * gap + 441 * 2 ^ 32 * lost)| ≤ 441 * 48) (hgap : |gap| ≤ 2 ^ 31) :
    gap = 0 ∧ lost = 0 := by
  have hzero : 10000 * gap + 441 * 2 ^ 32 * lost = 0 := by
    rw [abs_le] at hsmall
    generalize 10000 * gap + 441 * 2 ^ 32 * lost = x at hsmall
    omega
  obtain ⟨k, rfl⟩ : (625 : ℤ) ∣ lost := by
    have hdvd : (625 : ℤ) ∣ 441 * 2 ^ 28 * lost := ⟨-gap, by linarith⟩
    exact Int.dvd_of_dvd_mul_right_of_gcd_one hdvd (by decide)
  rw [abs_le] at hgap
  have hturn : gap = -(441 * 2 ^ 28 * k) := by linarith
  omega

theorem gap_of_near (hT0 : 0 < T0) (hpos : 0 < samples.length)
    (hle : samples.length ≤ raopRtpSyncDataCount) (hlt : ∀ n ∈ samples, sampleTime T0 n < 2 ^ 64)
    (hm : sampleTime T0 m < 2 ^ 64) {z : ℤ}
    (hnear : |((scaledTime m - averageOffset T0 samples + 2 ^ 64 * z : ℤ) : ℚ) -
      sampleTime T0 m| ≤ 3) :
    wrapGap samples m = 0 ∧ sumWraps T0 samples + samples.length * z = 0 := by
  have hle : samples.length ≤ 8 := hle
  have hc : (samples.length : ℚ) ≤ 8 := by exact_mod_cast hle
  have hc0 : (0 : ℚ) < samples.length := by exact_mod_cast hpos
  obtain ⟨herrlow, herrhigh⟩ := conversionError_near hT0 hpos m
  obtain ⟨hlow, hhigh⟩ := abs_le.mp hnear
  have hlow := mul_le_mul_of_nonneg_left hlow hc0.le
  have hhigh := mul_le_mul_of_nonneg_left hhigh hc0.le
  unfold conversionError at herrlow herrhigh
  push_cast at herrlow herrhigh hlow hhigh
  -- 441 times the deviation is a multiple of 2³² and smaller than that
  have hsmall : |(2 : ℚ) ^ 32 * (10000 * wrapGap samples m +
      441 * 2 ^ 32 * (sumWraps T0 samples + samples.length * z))| ≤ 441 * 48 := by
    rw [abs_le]
    constructor <;> linarith
  have hsmall : |(2 : ℤ) ^ 32 * (10000 * wrapGap samples m +
      441 * 2 ^ 32 * (sumWraps T0 samples + samples.length * z))| ≤ 441 * 48 := by
    exact_mod_cast hsmall
  have hsum := sum_wraps_le hT0 hlt
  have hwraps := wraps_lt hT0 hm
  have hgap : |wrapGap samples m| ≤ 2 ^ 31 := by
    have hprod : samples.length * wraps m ≤ 8 * 2 ^ 28 := Nat.mul_le_mul hle hwraps.le
    have hsum : (samples.map wraps).sum ≤ 8 * 2 ^ 28 :=
      hsum.trans (Nat.mul_le_mul_right _ hle)
    unfold wrapGap
    rw [abs_le]
    constructor <;> omega
  exact gap_lost_zero hsmall hgap

/-- Offsets that sum to a small number are averaged as they are. -/
theorem average_of_small (hT0 : 0 < T0) (hsmall : -2 ^ 63 ≤ offsetSum T0 samples) :
    sumWraps T0 samples = 0 ∧ averageOffset T0 samples ≤ 0 := by
  have hnonpos := offsetSum_nonpos hT0 samples
  have hzero : sumWraps T0 samples = 0 := by
    unfold sumWraps
    omega
  have hsame : (offsetSum T0 samples).bmod (2 ^ 64) = offsetSum T0 samples := by
    have h := bmod_eq (offsetSum T0 samples)
    rw [← sumWraps, hzero] at h
    omega
  refine ⟨hzero, ?_⟩
  have hneg : 0 ≤ (-offsetSum T0 samples).tdiv samples.length :=
    Int.tdiv_nonneg (by omega) (Int.natCast_nonneg _)
  rw [Int.neg_tdiv] at hneg
  rw [averageOffset, hsame]
  omega

theorem near_of_gap (hT0 : 0 < T0) (hpos : 0 < samples.length)
    (hle : samples.length ≤ raopRtpSyncDataCount) (hm : sampleTime T0 m + 3 < 2 ^ 64)
    (hgap : wrapGap samples m = 0) {turns : ℤ}
    (hturns : sumWraps T0 samples = samples.length * turns) :
    0 ≤ scaledTime m - averageOffset T0 samples - 2 ^ 64 * turns ∧
      scaledTime m - averageOffset T0 samples - 2 ^ 64 * turns < 2 ^ 64 ∧
      |((scaledTime m - averageOffset T0 samples - 2 ^ 64 * turns : ℤ) : ℚ) -
        sampleTime T0 m| ≤ 3 := by
  have hle : samples.length ≤ 8 := hle
  have hc : (samples.length : ℚ) ≤ 8 := by exact_mod_cast hle
  have hc0 : (0 : ℚ) < samples.length := by exact_mod_cast hpos
  have hdeviation : -3 ≤ ((scaledTime m - averageOffset T0 samples - 2 ^ 64 * turns : ℤ) : ℚ) -
      sampleTime T0 m ∧ ((scaledTime m - averageOffset T0 samples - 2 ^ 64 * turns : ℤ) : ℚ) -
      sampleTime T0 m ≤ 2 := by
    obtain ⟨herrlow, herrhigh⟩ := conversionError_near hT0 hpos m
    unfold conversionError at herrlow herrhigh
    rw [hgap, hturns] at herrlow herrhigh
    push_cast at herrlow herrhigh ⊢
    constructor <;> refine le_of_mul_le_mul_left ?_ hc0 <;> linarith
  obtain ⟨hlow, hhigh⟩ := hdeviation
  have hbelow : ((scaledTime m - averageOffset T0 samples - 2 ^ 64 * turns : ℤ) : ℚ) < 2 ^ 64 := by
    linarith
  refine ⟨?_, by exact_mod_cast hbelow, abs_le.mpr ⟨hlow, by linarith⟩⟩
  rcases le_or_gt 3 (sampleTime T0 m) with hlate | hearly
  · have habove : (0 : ℚ) ≤
        ((scaledTime m - averageOffset T0 samples - 2 ^ 64 * turns : ℤ) : ℚ) := by
      linarith
    exact_mod_cast habove
  · -- close to the start nothing is lost, and an average of offsets is not positive
    have hstart := (sampleTime_near T0 m).1
    have hscaled : (0 : ℚ) ≤ scaledTime m := Nat.cast_nonneg _
    have hnear := (abs_le.mp (offsetSum_near hT0 samples)).1
    have hmean : ((samples.map wraps).sum : ℚ) = samples.length * wraps m := by
      have h : (((samples.map wraps).sum : ℕ) : ℤ) = samples.length * wraps m := by
        unfold wrapGap at hgap
        omega
      exact_mod_cast h
    have hstart : T0 + 10000 / 441 * 2 ^ 32 * wraps m ≤ 3 := by linarith
    have hstart := mul_le_mul_of_nonneg_left hstart hc0.le
    rw [hmean] at hnear
    have hsum : (-2 ^ 63 : ℚ) ≤ offsetSum T0 samples := by linarith
    obtain ⟨hzero, haverage⟩ := average_of_small hT0 (by exact_mod_cast hsum)
    rw [hzero] at hturns
    have hturns : turns = 0 := by
      rcases Int.mul_eq_zero.mp hturns.symm with h | h
      · omega
      · exact h
    rw [hturns]
    omega

theorem toNat_convert {clock : RtpClock} (hpos : 0 < samples.length)
    (hle : samples.length ≤ raopRtpSyncDataCount)
    (hclock : clock.rtpSyncOffset =
      Int64.ofInt (offsetSum T0 samples) / Int64.ofNat samples.length) (m : ℕ) :
    ((raopRtpConvertRtpTime rtpScaledExact clock (UInt32.ofNat m)).toNat : ℤ) =
      (scaledTime m - averageOffset T0 samples) % 2 ^ 64 := by
  have hrtp : (UInt32.ofNat m).toNat = m % 2 ^ 32 := UInt32.toNat_ofNat'
  rw [raopRtpConvertRtpTime, toNat_sub_toUInt64, toNat_rtpScaledExact, hrtp, hclock,
    toInt_average _ hpos hle]
  rfl

/-- Once the sync points are set, the conversion is right exactly if they unwrap. -/
theorem mapsRight_iff_of_set (hT0 : 0 < T0) (hne : samples ≠ [])
    (hset : ∀ n ∈ samples, 1 ≤ sampleTime T0 n) (hlt : ∀ n ∈ samples, sampleTime T0 n < 2 ^ 64)
    (hm : sampleTime T0 m + 3 < 2 ^ 64) :
    MapsRight T0 samples m ↔ wrapGap (newest samples) m = 0 ∧
      ((newest samples).length : ℤ) ∣ sumWraps T0 (newest samples) := by
  have hpos := length_newest_pos hne
  have hle : (newest samples).length ≤ raopRtpSyncDataCount := List.length_take_le _ _
  obtain ⟨clock, hrun, -, hoffset⟩ := syncRun_eq
    (fun n hn => (syncPoint_set_iff (hlt n hn)).mpr (hset n hn)) hlt
  have hconvert := toNat_convert hpos hle (hoffset hne) m
  set x := scaledTime m - averageOffset T0 (newest samples) with hx
  set time := raopRtpConvertRtpTime rtpScaledExact clock (UInt32.ofNat m) with htime
  have hcast : ((time.toNat : ℤ) : ℚ) = time.toNat := Int.cast_natCast _
  constructor
  · rintro ⟨clock', hrun', hnear⟩
    obtain rfl : clock = clock' := Option.some.inj (hrun.symm.trans hrun')
    have hturns : (time.toNat : ℤ) = x + 2 ^ 64 * -(x / 2 ^ 64) := by
      rw [hconvert, Int.emod_def]
      ring
    rw [← htime, ← hcast, hturns] at hnear
    obtain ⟨hgap, hlost⟩ := gap_of_near hT0 hpos hle (fun n hn => hlt n (newest_mem hn))
      (by linarith) hnear
    exact ⟨hgap, x / 2 ^ 64, by linarith⟩
  · rintro ⟨hgap, turns, hturns⟩
    obtain ⟨hlow, hhigh, hnear⟩ := near_of_gap hT0 hpos hle hm hgap hturns
    refine ⟨clock, hrun, ?_⟩
    have hvalue : (time.toNat : ℤ) = x - 2 ^ 64 * turns := by
      rw [hconvert, ← Int.sub_mul_emod_self_left x (2 ^ 64) turns]
      exact Int.emod_eq_of_lt hlow hhigh
    rw [← htime, ← hcast, hvalue]
    exact hnear

theorem sampleTime_mono (T0 : ℚ) {n k : ℕ} (h : n ≤ k) : sampleTime T0 n ≤ sampleTime T0 k := by
  have hcast : (n : ℚ) ≤ k := by exact_mod_cast h
  unfold sampleTime
  linarith

/-- If the first call does not divide by zero, every sync point is set. -/
theorem set_of_mapsRight (hsorted : samples.Pairwise (· < ·))
    (hlt : ∀ n ∈ samples, sampleTime T0 n < 2 ^ 64) (h : MapsRight T0 samples m) :
    ∀ n ∈ samples, 1 ≤ sampleTime T0 n := by
  obtain ⟨clock, hrun, -⟩ := h
  cases samples with
  | nil => simp
  | cons first rest =>
    have hfirst : 1 ≤ sampleTime T0 first := by
      rw [← syncPoint_set_iff (hlt first (List.mem_cons_self ..))]
      intro hunset
      rw [syncRun_unset hunset] at hrun
      cases hrun
    intro n hn
    rcases List.mem_cons.mp hn with rfl | hn
    · exact hfirst
    · have hless := List.rel_of_pairwise_cons hsorted hn
      exact hfirst.trans (sampleTime_mono T0 hless.le)

end

/-- RTP time is mapped to local time within 3 µs exactly if the newest sync points unwrap. -/
theorem mapsRight_iff {T0 : ℚ} (hT0 : 0 < T0) {samples : List ℕ} (hne : samples ≠ [])
    (hsorted : samples.Pairwise (· < ·)) (hlt : ∀ n ∈ samples, sampleTime T0 n < 2 ^ 64) {m : ℕ}
    (hm : sampleTime T0 m + 3 < 2 ^ 64) : MapsRight T0 samples m ↔ Unwraps T0 samples m := by
  have hgap : wrapGap (newest samples) m = 0 ↔
      ((newest samples).map wraps).sum = (newest samples).length * wraps m := by
    unfold wrapGap
    omega
  constructor
  · intro h
    have hset := set_of_mapsRight hsorted hlt h
    obtain ⟨hzero, hfits⟩ := (mapsRight_iff_of_set hT0 hne hset hlt hm).mp h
    exact ⟨hset, hgap.mp hzero, hfits⟩
  · intro h
    exact (mapsRight_iff_of_set hT0 hne h.started hlt hm).mpr ⟨hgap.mpr h.wraps, h.fits⟩

/-- Two sync points a second apart, and a packet one second later. -/
theorem mapsRight_seconds :
    sampleTime 1000000 88200 + 3 < 2 ^ 64 ∧ MapsRight 1000000 [0, 44100] 88200 := by
  have hlate : sampleTime 1000000 88200 + 3 < 2 ^ 64 := by norm_num [sampleTime]
  refine ⟨hlate, (mapsRight_iff (by norm_num) (by decide) (by decide) ?_ hlate).mpr ⟨?_, ?_, ?_⟩⟩
  · simp only [List.forall_mem_cons]
    norm_num [sampleTime]
  · simp only [List.forall_mem_cons]
    norm_num [sampleTime]
  · decide
  · decide +kernel

/-- The counter wraps between the only sync point and the packet. -/
theorem mapsRight_wrapped :
    ¬ ∀ (T0 : ℚ), 0 < T0 → ∀ (samples : List ℕ) (latest m : ℕ), samples.getLast? = some latest →
      samples.Pairwise (· < ·) → (∀ n ∈ samples, sampleTime T0 n < 2 ^ 64) →
        sampleTime T0 m + 3 < 2 ^ 64 → m ≤ latest + 2 ^ 31 → latest ≤ m + 2 ^ 31 →
          MapsRight T0 samples m := by
  intro h
  have hlt : ∀ n ∈ [2 ^ 32 - 1], sampleTime 1000000 n < 2 ^ 64 := by
    simp only [List.forall_mem_cons]
    norm_num [sampleTime]
  have hm : sampleTime 1000000 (2 ^ 32) + 3 < 2 ^ 64 := by norm_num [sampleTime]
  have hset : ∀ n ∈ [2 ^ 32 - 1], 1 ≤ sampleTime 1000000 n := by
    simp only [List.forall_mem_cons]
    norm_num [sampleTime]
  have hright := h 1000000 (by norm_num) [2 ^ 32 - 1] (2 ^ 32 - 1) (2 ^ 32) rfl (by simp) hlt hm
    (by omega) (by omega)
  have hgap := ((mapsRight_iff_of_set (by norm_num) (by simp) hset hlt hm).mp hright).1
  exact absurd hgap (by decide)

end WinAirPlay
