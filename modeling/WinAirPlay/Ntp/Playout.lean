import Mathlib.Tactic.Positivity
import WinAirPlay.Mirror.Frame
import WinAirPlay.Ntp.Accuracy
import WinAirPlay.Ntp.Timestamps

/-! # The time of a video frame

The client stamps a frame with the time of its clock, in seconds and 2⁻³² seconds; the thread takes
the offset that was published last from it. The result is a bound by what the network did in the
last exchange: the frame is played as if the local clock had been read when it was stamped, up to
half the round trip and the roundings.
-/

namespace WinAirPlay
open Foundations.ByteBuffer Foundations.RingBuffer
set_option autoImplicit false

/-! ## The timestamp -/

theorem words_toMicroSeconds {seconds fraction : ℕ} (hseconds : seconds < 2 ^ 32)
    (hfraction : fraction < 2 ^ 32) :
    (seconds * 1000000 % 2 ^ 64 + fraction * 1000000 / 2 ^ 32) % 2 ^ 64 =
      (seconds * 2 ^ 32 + fraction) * 1000000 / 2 ^ 32 := by
  have hlt : fraction * 1000000 / 2 ^ 32 < 1000000 := by omega
  have hsum : (seconds * 2 ^ 32 + fraction) * 1000000 / 2 ^ 32 =
      seconds * 1000000 + fraction * 1000000 / 2 ^ 32 := by omega
  rw [hsum, Nat.mod_eq_of_lt (a := seconds * 1000000) (by omega), Nat.mod_eq_of_lt (by omega)]

theorem timestamp_toMicroSeconds {stamp : ℕ} (h : stamp < 2 ^ 64) :
    (raopNtpTimestampToMicroSeconds (UInt64.ofNat stamp) false).toNat = stamp * 1000000 / 2 ^ 32 := by
  have hsplit := Nat.div_add_mod stamp (2 ^ 32)
  have hseconds : stamp / 2 ^ 32 < 2 ^ 32 := by omega
  have hfraction : stamp % 2 ^ 32 < 2 ^ 32 := Nat.mod_lt _ (by decide)
  obtain ⟨hhigh, hlow⟩ := ntpWords hseconds hfraction
  have hwords : stamp / 2 ^ 32 * 2 ^ 32 + stamp % 2 ^ 32 = stamp := by omega
  rw [hwords] at hhigh hlow
  unfold raopNtpTimestampToMicroSeconds
  rw [hhigh, hlow, if_neg (by decide)]
  have hs : (UInt64.ofNat (stamp / 2 ^ 32) - 0).toNat = stamp / 2 ^ 32 := by
    rw [UInt64.sub_zero, UInt64.toNat_ofNat', Nat.mod_eq_of_lt (by omega)]
  have hf : ((UInt64.ofNat (stamp % 2 ^ 32) * (1000000 : UInt64)) >>> (32 : UInt64)).toNat =
      stamp % 2 ^ 32 * 1000000 / 2 ^ 32 := by
    rw [UInt64.toNat_shiftRight, UInt64.toNat_mul, UInt64.toNat_ofNat',
      Nat.mod_eq_of_lt (a := stamp % 2 ^ 32) (by omega)]
    show (stamp % 2 ^ 32 * 1000000 % 2 ^ 64) >>> 32 = _
    rw [Nat.mod_eq_of_lt (by omega), Nat.shiftRight_eq_div_pow]
  dsimp only
  rw [UInt64.toNat_add, UInt64.toNat_mul, hs, hf]
  show (stamp / 2 ^ 32 * 1000000 % 2 ^ 64 + _) % 2 ^ 64 = _
  rw [words_toMicroSeconds hseconds hfraction, hwords]

/-- Subtracting the offset does not wrap. -/
theorem convertRemoteTime_toInt {remote : UInt64} {offset : Int64} (hremote : remote.toNat < 2 ^ 52)
    (hoffset : -2 ^ 52 ≤ offset.toInt ∧ offset.toInt ≤ 2 ^ 52) :
    (raopNtpConvertRemoteTime offset.toUInt64 remote).toInt64.toInt =
      (remote.toNat : ℤ) - offset.toInt := by
  have hof : remote.toInt64.toInt = remote.toNat := by
    have heq : remote.toInt64 = Int64.ofNat remote.toNat := by
      rw [← UInt64.toInt64_ofNat', UInt64.ofNat_toNat]
    rw [heq, Int64.toInt_ofNat_of_lt (by omega)]
  have hsub : (remote - offset.toUInt64).toInt64 = remote.toInt64 - offset := rfl
  rw [raopNtpConvertRemoteTime, hsub, toInt_sub_of_small (by omega) hoffset, hof]

section
variable {K : Type*} [Field K] [LinearOrder K] [FloorSemiring K] [IsStrictOrderedRing K]

/-- The time `y`, in microseconds, in units of 2⁻³² seconds. -/
noncomputable def frameStamp (y : K) : UInt64 := UInt64.ofNat ⌊y * 2 ^ 32 / 1000000⌋₊

theorem frameStamp_within {y : K} (hy : InRange y) :
    ReadsWithin (raopNtpTimestampToMicroSeconds (frameStamp y) false) y 2 := by
  obtain ⟨hpos, hlt⟩ := hy
  push_cast at hlt
  generalize hstamp : ⌊y * 2 ^ 32 / 1000000⌋₊ = stamp
  have hle : (stamp : K) ≤ y * 2 ^ 32 / 1000000 := by
    rw [← hstamp]
    exact Nat.floor_le (by positivity)
  have hgt : y * 2 ^ 32 / 1000000 < stamp + 1 := by
    rw [← hstamp]
    exact Nat.lt_floor_add_one _
  rw [le_div_iff₀ (by norm_num)] at hle
  rw [div_lt_iff₀ (by norm_num)] at hgt
  have hbound : stamp < 2 ^ 64 := by
    have : (stamp : K) < 2 ^ 64 := by linarith
    exact_mod_cast this
  have hdiv := Nat.div_add_mod (stamp * 1000000) (2 ^ 32)
  have hmod := Nat.mod_lt (stamp * 1000000) (show 0 < 2 ^ 32 by decide)
  rw [frameStamp, hstamp, ReadsWithin, timestamp_toMicroSeconds hbound]
  generalize stamp * 1000000 / 2 ^ 32 = micros at hdiv ⊢
  have hlow : (2 : K) ^ 32 * micros ≤ stamp * 1000000 := by
    have : 2 ^ 32 * micros ≤ stamp * 1000000 := by omega
    exact_mod_cast this
  have hhigh : (stamp : K) * 1000000 < 2 ^ 32 * micros + 2 ^ 32 := by
    have : stamp * 1000000 < 2 ^ 32 * micros + 2 ^ 32 := by omega
    exact_mod_cast this
  push_cast
  constructor
  · linarith
  · linarith

/-! ## The offset -/

omit [IsStrictOrderedRing K] in
/-- After an exchange the offset is that of an exchange whose delay is no larger. -/
theorem offset_of_last (Q : DelaySort) (theta : K) (time : UInt64) (garbage : ℕ → UInt8)
    (past : List (NtpExchange K)) {last : NtpExchange K}
    (hdelay : (last.sample theta).delay < raopNtpMaxDisp.toInt64) :
    ∃ e ∈ past ++ [last],
      (ntpExchanges Q theta (ntpThreadInit time garbage) (past ++ [last])).ntp.syncOffset =
        (e.sample theta).offset ∧
      (e.sample theta).delay ≤ (last.sample theta).delay := by
  have hpast := filtering_run Q past (filtering_init theta time garbage)
  rw [List.nil_append] at hpast
  generalize hthread : ntpExchanges Q theta (ntpThreadInit time garbage) past = thread at hpast
  have hsample := ntpSample_exchange theta last hpast.request hpast.response
  obtain ⟨best, hbest, hoffset, hmin⟩ := ntpUpdate_offset Q hpast.entries hpast.holds
    (writeAt thread.response 0
      (last.reply theta (byteutilsPutNtpTimestamp thread.request 24 (reading last.sent))))
    (reading last.returned)
  rw [hsample] at hbest hmin
  have hle : best.delay ≤ (last.sample theta).delay := hmin _ (List.mem_cons_self ..)
  have hthis : (ntpExchanges Q theta (ntpThreadInit time garbage) (past ++ [last])).ntp.syncOffset =
      best.offset := by
    rw [← hoffset, ntpExchanges, List.foldl_append]
    change (ntpExchange Q theta (ntpExchanges Q theta (ntpThreadInit time garbage) past)
      last).ntp.syncOffset = _
    rw [hthread]
    rfl
  rcases List.mem_cons.mp (List.mem_of_mem_take hbest) with rfl | hmem
  · exact ⟨last, by simp, hthis, hle⟩
  · rcases List.mem_append.mp hmem with hmem | hstart
    · obtain ⟨e, he, rfl⟩ := List.mem_map.mp (List.mem_reverse.mp hmem)
      exact ⟨e, List.mem_append_left _ he, hthis, hle⟩
    · -- the entries of the start have a larger delay
      rw [List.eq_of_mem_replicate hstart] at hle
      rw [Int64.le_iff_toInt_le] at hle
      rw [Int64.lt_iff_toInt_lt] at hdelay
      exact absurd hdelay (not_lt.mpr hle)

/-! ## The time at which a frame is played -/

/-- A frame that the client stamped when the local clock showed `x` is played at `x`, up to half the
time that the last exchange spent on the network and seven microseconds. -/
theorem videoTimestamp_accurate (Q : DelaySort) (theta : K) (time : UInt64) (garbage : ℕ → UInt8)
    {past : List (NtpExchange K)} {last : NtpExchange K}
    (hrange : ∀ e ∈ past ++ [last], e.Ranged theta) (hdelay : last.there + last.back ≤ 2 ^ 36 - 4)
    {x : K} (hx : InRange (x + theta)) {header : Bytes}
    (hstamp : UInt64.ofNat (byteutilsGetLong header 8) = frameStamp (x + theta)) :
    let ntp := (ntpExchanges Q theta (ntpThreadInit time garbage) (past ++ [last])).ntp
    |((videoTimestamp header ntp.syncOffset.toUInt64).toInt64.toInt : K) - x| ≤
      (last.there + last.back) / 2 + 7 := by
  intro ntp
  have hlast := sample_delay_lt (hrange last (by simp))
  have hmax : (last.sample theta).delay < raopNtpMaxDisp.toInt64 := by
    have hlt : ((last.sample theta).delay.toInt : K) < ((2 ^ 36 : ℤ) : K) := by
      push_cast
      linarith
    have hint : (last.sample theta).delay.toInt < 2 ^ 36 := by exact_mod_cast hlt
    have hvalue : raopNtpMaxDisp.toInt64.toInt = 2 ^ 36 := by decide
    rw [Int64.lt_iff_toInt_lt, hvalue]
    exact hint
  obtain ⟨e, he, hoffset, hle⟩ := offset_of_last Q theta time garbage past hmax
  have haccurate := sample_accurate (hrange e he)
  have hdelays : ((e.sample theta).delay.toInt : K) ≤ (last.sample theta).delay.toInt := by
    rw [Int64.le_iff_toInt_le] at hle
    exact_mod_cast hle
  rw [← hoffset] at haccurate
  change |((ntp.syncOffset.toInt : ℤ) : K) - theta| ≤ _ at haccurate
  obtain ⟨hlow, hhigh⟩ := abs_le.mp haccurate
  obtain ⟨hbelow, habove⟩ := frameStamp_within hx
  generalize hremote : raopNtpTimestampToMicroSeconds (frameStamp (x + theta)) false = remote
    at hbelow habove
  -- the clocks are less than 2⁵¹ microseconds apart
  have hranged := hrange last (by simp)
  have htheta : -(2 ^ 51 : K) < theta ∧ theta < 2 ^ 51 := by
    obtain ⟨-, hsent⟩ := hranged.returned
    obtain ⟨hreceived, hreceived'⟩ := hranged.received
    obtain ⟨hstart, -⟩ := hranged.sent
    have hthere := last.there_nonneg
    have hback := last.back_nonneg
    have hanswering := last.answering_nonneg
    unfold NtpExchange.returned NtpExchange.answered NtpExchange.received at hsent
    unfold NtpExchange.received at hreceived hreceived'
    push_cast at hsent hreceived'
    constructor
    · linarith
    · linarith
  have hoffsets : -2 ^ 52 ≤ ntp.syncOffset.toInt ∧ ntp.syncOffset.toInt ≤ 2 ^ 52 := by
    have h1 : (-(2 ^ 52) : K) ≤ ntp.syncOffset.toInt := by linarith
    have h2 : (ntp.syncOffset.toInt : K) ≤ 2 ^ 52 := by linarith
    exact ⟨by exact_mod_cast h1, by exact_mod_cast h2⟩
  have hsmall : remote.toNat < 2 ^ 52 := by
    have hrange' := hx.2
    push_cast at hrange'
    have : (remote.toNat : K) < 2 ^ 52 := by linarith
    exact_mod_cast this
  rw [videoTimestamp, hstamp, hremote, convertRemoteTime_toInt hsmall hoffsets]
  push_cast at habove ⊢
  rw [abs_le]
  constructor
  · linarith
  · linarith

end

/-- A frame that is stamped 3602 seconds. -/
def stampedHeader : Bytes := List.replicate 8 0 ++ intBytes 0 ++ intBytes 3602 ++ List.replicate 112 0

/-- The client is an hour ahead, and the last of ten exchanges spends 38 milliseconds on the network. -/
theorem videoTimestamp_accurate_hourAhead :
    let ntp := (ntpExchanges delayMergeSort (3600000000 : ℚ) (ntpThreadInit 0 fun _ => 0)
      (tenExchanges.take 9 ++ [hourAhead 28000000 8000 30000])).ntp
    |((videoTimestamp stampedHeader ntp.syncOffset.toUInt64).toInt64.toInt : ℚ) - 2000000| ≤
      ((8000 : ℕ) + (30000 : ℕ)) / 2 + 7 := by
  refine videoTimestamp_accurate delayMergeSort 3600000000 0 (fun _ => 0) ?_ ?_ ?_ ?_
  · intro e he
    rcases List.mem_append.mp he with he | he
    · obtain ⟨sent, there, back, rfl, h⟩ := exists_of_mem_tenExchanges (List.mem_of_mem_take he)
      exact hourAhead_ranged (by omega)
    · rw [List.mem_singleton.mp he]
      exact hourAhead_ranged (by decide)
  · norm_num [hourAhead]
  · norm_num [InRange]
  · have hwhole : ((2000000 : ℚ) + 3600000000) * 2 ^ 32 / 1000000 = ((3602 * 2 ^ 32 : ℕ) : ℚ) := by
      norm_num
    rw [frameStamp, hwhole, Nat.floor_natCast]
    decide

end WinAirPlay
