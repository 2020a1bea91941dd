import Mathlib.Algebra.Order.BigOperators.Group.List
import Mathlib.Tactic.IntervalCases
import WinAirPlay.Rtp.Thread

/-! # The arithmetic of the RTP clock

`raop_rtp_sync_clock` averages the offsets of the newest eight sync packets. It takes a packet whose
local time is 0 for an entry that is not set, so the number of entries it divides by can be 0. The sum
is exact as long as the local times are not too large.

A run of sync packets is a list of `SyncPacket`; a division by zero leaves no clock.
-/

namespace WinAirPlay
open Foundations.ByteBuffer Foundations.RingBuffer Foundations.Transition
set_option autoImplicit false

structure SyncPacket where
  rtpTime : UInt32
  /-- The NTP timestamp as one big-endian integer. -/
  ntpTimestamp : UInt64
  /-- `sync_offset` of the `raop_ntp` when the packet comes. -/
  syncOffset : UInt64

/-- The local time of the packet. -/
def SyncPacket.ntpTime (packet : SyncPacket) : UInt64 :=
  raopNtpConvertRemoteTime packet.syncOffset
    (raopNtpTimestampToMicroSeconds packet.ntpTimestamp true)

/-- The ring after the packet was put in. -/
def syncRing (clock : RtpClock) (packet : SyncPacket) : List RaopRtpSyncData :=
  (push clock.syncData ⟨packet.ntpTime, packet.rtpTime⟩).entries

/-- A call of `raop_rtp_sync_clock`, possible until one has divided by zero. -/
def syncStep (rtpScaled : UInt32 → UInt64) (clock : Option RtpClock) (packet : SyncPacket) :
    Option (Option RtpClock × List Empty) :=
  clock.map fun clock => (raopRtpSyncClock rtpScaled clock packet.rtpTime packet.ntpTime, [])

/-- The sync packet that the audio thread finds in the packet array. -/
def receivedSync (packet : Bytes) (syncOffset : UInt64) : SyncPacket where
  rtpTime := UInt32.ofNat (byteutilsGetIntBe packet 4) - 11025
  ntpTimestamp := UInt64.ofNat (byteutilsGetLongBe packet 8)
  syncOffset := syncOffset

/-- A sync packet of at least 20 bytes is one step of the clock, and a division by zero is the end. -/
theorem receiveControl_sync (P : Openssl) (rtpScaled : UInt32 → UInt64) (rtp : RaopRtp)
    (next : RtpPoint) {received : Received} (around : Surroundings)
    (htype : packetType (recvfrom rtp.packet received).1 = 0x54)
    (hlen : 20 ≤ (recvfrom rtp.packet received).2) :
    ∃ clock, syncStep rtpScaled (some rtp.clock)
        (receivedSync (recvfrom rtp.packet received).1 around.syncOffset) = some (clock, []) ∧
      receiveControl P rtpScaled rtp next received around =
        ({ rtp with
          packet := (recvfrom rtp.packet received).1
          controlSaddr := around.saddr
          clock := clock.getD rtp.clock
          point := if clock.isSome then next else .aborted }, []) := by
  refine ⟨_, rfl, ?_⟩
  unfold receiveControl
  dsimp only
  rw [htype, if_neg (by decide), if_pos ⟨rfl, hlen⟩]
  have hcall : ∀ clock, raopRtpSyncClock rtpScaled rtp.clock
      (UInt32.ofNat (byteutilsGetIntBe (recvfrom rtp.packet received).1 4) - 11025)
      (raopNtpConvertRemoteTime around.syncOffset (raopNtpTimestampToMicroSeconds
        (UInt64.ofNat (byteutilsGetLongBe (recvfrom rtp.packet received).1 8)) true)) = clock →
      raopRtpSyncClock rtpScaled rtp.clock
        (receivedSync (recvfrom rtp.packet received).1 around.syncOffset).rtpTime
        (receivedSync (recvfrom rtp.packet received).1 around.syncOffset).ntpTime = clock :=
    fun _ h => h
  split <;> rename_i heq <;> rw [hcall _ heq] <;> rfl

/-! ## The totals -/

/-- The offset of an entry as an integer. -/
def exactOffset (rtpScaled : UInt32 → UInt64) (d : RaopRtpSyncData) : ℤ :=
  (rtpScaled d.rtpTime).toNat - d.ntpTime.toNat

def exactTotal (rtpScaled : UInt32 → UInt64) (syncData : List RaopRtpSyncData) : ℤ :=
  ((syncData.filter (·.ntpTime ≠ 0)).map (exactOffset rtpScaled)).sum

theorem ofInt_exactOffset (rtpScaled : UInt32 → UInt64) (d : RaopRtpSyncData) :
    Int64.ofInt (exactOffset rtpScaled d) = (rtpScaled d.rtpTime - d.ntpTime).toInt64 := by
  have hnat : ∀ x : UInt64, Int64.ofInt (x.toNat : ℤ) = x.toInt64 := fun x => by
    rw [Int64.ofInt_eq_ofNat, ← UInt64.toInt64_ofNat', UInt64.ofNat_toNat]
  rw [exactOffset, Int64.ofInt_sub, hnat, hnat, UInt64.toInt64_sub]

theorem syncTotals_eq (rtpScaled : UInt32 → UInt64) (syncData : List RaopRtpSyncData) :
    syncTotals rtpScaled syncData =
      (Int64.ofInt (exactTotal rtpScaled syncData),
        (syncData.filter (·.ntpTime ≠ 0)).length) := by
  have hloop : ∀ (set : List RaopRtpSyncData) (total : ℤ) (count : ℕ),
      set.foldl (fun totals d =>
        (totals.1 + (rtpScaled d.rtpTime - d.ntpTime).toInt64, totals.2 + 1))
          (Int64.ofInt total, count) =
        (Int64.ofInt (total + (set.map (exactOffset rtpScaled)).sum), count + set.length) := by
    intro set
    induction set with
    | nil => simp
    | cons d set ih =>
      intro total count
      rw [List.foldl_cons, ← ofInt_exactOffset]
      dsimp only
      rw [← Int64.ofInt_add, ih, List.map_cons, List.sum_cons, List.length_cons, add_assoc,
        Nat.add_right_comm, ← Nat.add_assoc]
  have h := hloop (syncData.filter (·.ntpTime ≠ 0)) 0 0
  rw [zero_add, zero_add] at h
  exact h

/-- A sum is read back if it fits 64 bits. -/
theorem toInt_ofInt_iff (total : ℤ) :
    (Int64.ofInt total).toInt = total ↔ -2 ^ 63 ≤ total ∧ total < 2 ^ 63 := by
  have hsize : Int64.size = 2 ^ 64 := rfl
  rw [Int64.toInt_ofInt, hsize]
  constructor
  · intro h
    have hlow := Int.le_bmod (x := total) (m := 2 ^ 64) (by decide)
    have hhigh := Int.bmod_lt (x := total) (m := 2 ^ 64) (by decide)
    omega
  · rintro ⟨hlow, hhigh⟩
    exact Int.bmod_eq_of_le (by omega) (by omega)

def localTimes (syncData : List RaopRtpSyncData) : ℕ :=
  ((syncData.filter (·.ntpTime ≠ 0)).map fun d => d.ntpTime.toNat).sum

def rtpTimes (rtpScaled : UInt32 → UInt64) (syncData : List RaopRtpSyncData) : ℕ :=
  ((syncData.filter (·.ntpTime ≠ 0)).map fun d => (rtpScaled d.rtpTime).toNat).sum

theorem exactTotal_eq (rtpScaled : UInt32 → UInt64) (syncData : List RaopRtpSyncData) :
    exactTotal rtpScaled syncData = rtpTimes rtpScaled syncData - localTimes syncData := by
  unfold exactTotal rtpTimes localTimes
  induction syncData.filter (·.ntpTime ≠ 0) with
  | nil => rfl
  | cons d set ih =>
    simp only [List.map_cons, List.sum_cons, ih, exactOffset]
    push_cast
    ring

theorem rtpTimes_le {rtpScaled : UInt32 → UInt64} (hscaled : ∀ r, (rtpScaled r).toNat < 2 ^ 37)
    (syncData : List RaopRtpSyncData) :
    rtpTimes rtpScaled syncData ≤ syncData.length * 2 ^ 37 := by
  have hbound : rtpTimes rtpScaled syncData ≤
      (syncData.filter (·.ntpTime ≠ 0)).length * 2 ^ 37 := by
    unfold rtpTimes
    have h := List.sum_le_card_nsmul
      ((syncData.filter (·.ntpTime ≠ 0)).map fun d => (rtpScaled d.rtpTime).toNat) (2 ^ 37) ?_
    · simpa using h
    · intro x hx
      obtain ⟨d, -, rfl⟩ := List.mem_map.mp hx
      exact (hscaled d.rtpTime).le
  have hlen := List.length_filter_le (fun d : RaopRtpSyncData => decide (d.ntpTime ≠ 0)) syncData
  exact hbound.trans (Nat.mul_le_mul_right _ hlen)

/-- Up to eight offsets are summed exactly unless the local times are too large. -/
theorem syncTotals_exact_iff {rtpScaled : UInt32 → UInt64}
    (hscaled : ∀ r, (rtpScaled r).toNat < 2 ^ 37) {syncData : List RaopRtpSyncData}
    (hlen : syncData.length ≤ raopRtpSyncDataCount) :
    (syncTotals rtpScaled syncData).1.toInt = exactTotal rtpScaled syncData ↔
      localTimes syncData ≤ 2 ^ 63 + rtpTimes rtpScaled syncData := by
  have hlen : syncData.length ≤ 8 := hlen
  have hrtp := rtpTimes_le hscaled syncData
  rw [syncTotals_eq, toInt_ofInt_iff, exactTotal_eq]
  omega

/-! ## Every call -/

/-- The call divides by 1 to 8, no addition of the loop overflows and neither does the average. -/
structure SyncsRight (rtpScaled : UInt32 → UInt64) (clock : RtpClock) (packet : SyncPacket) :
    Prop where
  count : 1 ≤ (syncTotals rtpScaled (syncRing clock packet)).2 ∧
    (syncTotals rtpScaled (syncRing clock packet)).2 ≤ raopRtpSyncDataCount
  sums : ∀ n, (syncTotals rtpScaled ((syncRing clock packet).take n)).1.toInt =
    exactTotal rtpScaled ((syncRing clock packet).take n)
  average : ∃ next, raopRtpSyncClock rtpScaled clock packet.rtpTime packet.ntpTime = some next ∧
    next.rtpSyncOffset.toInt = (exactTotal rtpScaled (syncRing clock packet)).tdiv
      (syncTotals rtpScaled (syncRing clock packet)).2

/-- With the packet in its place some entry is set, and the local times of the first entries exceed
their RTP times by no more than 2⁶³ µs, however many are taken. -/
structure SyncFits (rtpScaled : UInt32 → UInt64) (clock : RtpClock) (packet : SyncPacket) :
    Prop where
  set : ∃ d ∈ syncRing clock packet, d.ntpTime ≠ 0
  times : ∀ n, localTimes ((syncRing clock packet).take n) ≤
    2 ^ 63 + rtpTimes rtpScaled ((syncRing clock packet).take n)

theorem raopRtpSyncClock_eq (rtpScaled : UInt32 → UInt64) (clock : RtpClock) (rtpTime : UInt32)
    (ntpTime : UInt64) :
    let ring := (push clock.syncData ⟨ntpTime, rtpTime⟩).entries
    let count := (ring.filter (·.ntpTime ≠ 0)).length
    raopRtpSyncClock rtpScaled clock rtpTime ntpTime =
      if count = 0 then none
      else some ⟨Int64.ofInt (exactTotal rtpScaled ring) / Int64.ofNat count,
        push clock.syncData ⟨ntpTime, rtpTime⟩⟩ := by
  intro ring count
  unfold raopRtpSyncClock
  dsimp only
  rw [syncTotals_eq]

/-- The average is that of the sum as it was computed. -/
theorem toInt_average (total : ℤ) {count : ℕ} (hpos : 0 < count)
    (hle : count ≤ raopRtpSyncDataCount) :
    (Int64.ofInt total / Int64.ofNat count).toInt = (total.bmod (2 ^ 64)).tdiv count := by
  have hle : count ≤ 8 := hle
  have hsize : Int64.size = 2 ^ 64 := rfl
  have hcount : (Int64.ofNat count).toInt = count := Int64.toInt_ofNat_of_lt (by omega)
  have hne : Int64.ofNat count ≠ -1 := fun h => by
    rw [h] at hcount
    have : (-1 : ℤ) = count := hcount
    omega
  rw [Int64.toInt_div_of_ne_right _ _ hne, hcount, Int64.toInt_ofInt, hsize]

section
variable {rtpScaled : UInt32 → UInt64} {clock : RtpClock} {packet : SyncPacket}

theorem length_filter_pos_iff (ring : List RaopRtpSyncData) :
    1 ≤ (ring.filter (·.ntpTime ≠ 0)).length ↔ ∃ d ∈ ring, d.ntpTime ≠ 0 := by
  rw [Nat.one_le_iff_ne_zero, ne_eq, List.length_eq_zero_iff, List.filter_eq_nil_iff]
  simp

theorem raopRtpSyncClock_isSome_iff :
    (raopRtpSyncClock rtpScaled clock packet.rtpTime packet.ntpTime).isSome = true ↔
      ∃ d ∈ syncRing clock packet, d.ntpTime ≠ 0 := by
  rw [raopRtpSyncClock_eq, ← length_filter_pos_iff, Nat.one_le_iff_ne_zero]
  unfold syncRing
  split_ifs with hzero
  · exact iff_of_false (by simp) (not_not.mpr hzero)
  · exact iff_of_true rfl hzero

/-- A call is right exactly if the entries it sums fit. -/
theorem syncsRight_iff (hscaled : ∀ r, (rtpScaled r).toNat < 2 ^ 37)
    (hlen : clock.syncData.entries.length = raopRtpSyncDataCount) :
    SyncsRight rtpScaled clock packet ↔ SyncFits rtpScaled clock packet := by
  have hring : (syncRing clock packet).length = raopRtpSyncDataCount :=
    (length_push _ _).trans hlen
  have hcount : (syncTotals rtpScaled (syncRing clock packet)).2 =
      ((syncRing clock packet).filter (·.ntpTime ≠ 0)).length := by rw [syncTotals_eq]
  have hsums : ∀ n, (syncTotals rtpScaled ((syncRing clock packet).take n)).1.toInt =
      exactTotal rtpScaled ((syncRing clock packet).take n) ↔
      localTimes ((syncRing clock packet).take n) ≤
        2 ^ 63 + rtpTimes rtpScaled ((syncRing clock packet).take n) := fun n =>
    syncTotals_exact_iff hscaled ((List.length_take_le' n _).trans hring.le)
  constructor
  · intro h
    have hpos := h.count.1
    rw [hcount, length_filter_pos_iff] at hpos
    exact ⟨hpos, fun n => (hsums n).mp (h.sums n)⟩
  · intro h
    have hpos := (length_filter_pos_iff _).mpr h.set
    have hle : ((syncRing clock packet).filter (·.ntpTime ≠ 0)).length ≤ raopRtpSyncDataCount :=
      (List.length_filter_le _ _).trans hring.le
    have hexact := (hsums (syncRing clock packet).length).mpr (h.times _)
    rw [List.take_length, syncTotals_eq, Int64.toInt_ofInt] at hexact
    refine ⟨?_, fun n => (hsums n).mpr (h.times n), ?_⟩
    · rw [hcount]
      exact ⟨hpos, hle⟩
    · have hcall := raopRtpSyncClock_eq rtpScaled clock packet.rtpTime packet.ntpTime
      refine ⟨_, hcall.trans (if_neg (Nat.ne_of_gt hpos)), ?_⟩
      rw [hcount]
      exact (toInt_average _ hpos hle).trans (congrArg (Int.tdiv · _) hexact)

theorem syncData_raopRtpSyncClock {rtpTime : UInt32} {ntpTime : UInt64} {next : RtpClock}
    (h : raopRtpSyncClock rtpScaled clock rtpTime ntpTime = some next) :
    next.syncData = push clock.syncData ⟨ntpTime, rtpTime⟩ := by
  rw [raopRtpSyncClock_eq, Option.ite_none_left_eq_some] at h
  obtain ⟨-, h⟩ := h
  obtain rfl := Option.some.inj h
  rfl

end

/-- The next call, if there is one, is as it should be. -/
def OnClock (p : RtpClock → SyncPacket → Prop) (clock : Option RtpClock) (packet : SyncPacket) :
    Prop :=
  ∀ c, clock = some c → p c packet

/-- In a run of sync packets every call is right exactly if in every call the entries fit. -/
theorem syncClock_right_iff (rtpScaled : UInt32 → UInt64)
    (hscaled : ∀ r, (rtpScaled r).toNat < 2 ^ 37) (packets : List SyncPacket) :
    Along (syncStep rtpScaled) (OnClock (SyncsRight rtpScaled)) (some rtpClockInit) packets ↔
      Along (syncStep rtpScaled) (OnClock (SyncFits rtpScaled)) (some rtpClockInit) packets := by
  refine along_congr (I := fun clock => ∀ c, clock = some c →
    c.syncData.entries.length = raopRtpSyncDataCount) (fun clock packet r hs hr c hc => ?_)
    (fun clock packet _ hs _ => ?_) fun c hc => ?_
  · cases clock with
    | none => cases hr
    | some c' =>
      obtain rfl := Option.some.inj hr
      rw [syncData_raopRtpSyncClock hc, length_push]
      exact hs c' rfl
  · exact forall_congr' fun c => imp_congr_right fun hc => syncsRight_iff hscaled (hs c hc)
  · obtain rfl := Option.some.inj hc
    exact List.length_replicate

theorem localTimes_le {syncData : List RaopRtpSyncData}
    (h : ∀ d ∈ syncData, d.ntpTime.toNat ≤ 2 ^ 60) : localTimes syncData ≤ syncData.length * 2 ^ 60 := by
  have hsum := List.sum_le_card_nsmul
    ((syncData.filter (·.ntpTime ≠ 0)).map fun d => d.ntpTime.toNat) (2 ^ 60) (by
      intro x hx
      obtain ⟨d, hd, rfl⟩ := List.mem_map.mp hx
      exact h d (List.mem_of_mem_filter hd))
  rw [List.length_map, Nat.nsmul_eq_mul] at hsum
  exact hsum.trans (Nat.mul_le_mul_right _ (List.length_filter_le _ _))

/-- Local times after 1970 and up to 2⁶⁰ µs always fit. -/
theorem along_syncFits {rtpScaled : UInt32 → UInt64} {packets : List SyncPacket}
    (hpackets : ∀ packet ∈ packets, packet.ntpTime ≠ 0 ∧ packet.ntpTime.toNat ≤ 2 ^ 60)
    {clock : RtpClock} (hlength : clock.syncData.entries.length = raopRtpSyncDataCount)
    (hring : ∀ d ∈ clock.syncData.entries, d.ntpTime.toNat ≤ 2 ^ 60) :
    Along (syncStep rtpScaled) (OnClock (SyncFits rtpScaled)) (some clock) packets := by
  induction packets generalizing clock with
  | nil => trivial
  | cons packet packets ih =>
    obtain ⟨hset, hbound⟩ := hpackets packet List.mem_cons_self
    have hlength' : (syncRing clock packet).length = raopRtpSyncDataCount :=
      (length_push _ _).trans hlength
    have hring' : ∀ d ∈ syncRing clock packet, d.ntpTime.toNat ≤ 2 ^ 60 := by
      intro d hd
      rcases List.mem_or_eq_of_mem_set hd with hd | rfl
      · exact hring d hd
      · exact hbound
    have hnew : (⟨packet.ntpTime, packet.rtpTime⟩ : RaopRtpSyncData) ∈ syncRing clock packet :=
      List.mem_set (Nat.mod_lt _ (by rw [hlength]; decide)) _
    have hfits : SyncFits rtpScaled clock packet := by
      refine ⟨⟨_, hnew, hset⟩, fun n => ?_⟩
      have hle := localTimes_le fun d hd => hring' d (List.mem_of_mem_take (i := n) hd)
      have hcount : ((syncRing clock packet).take n).length ≤ 8 :=
        (List.length_take_le' n _).trans hlength'.le
      omega
    obtain ⟨next, hnext⟩ := Option.isSome_iff_exists.mp
      ((@raopRtpSyncClock_isSome_iff rtpScaled clock packet).mpr hfits.set)
    have hdata := syncData_raopRtpSyncClock hnext
    have hstep : syncStep rtpScaled (some clock) packet = some (some next, []) := by
      rw [← hnext]
      rfl
    refine along_cons hstep (fun c hc => ?_) ?_
    · obtain rfl := Option.some.inj hc
      exact hfits
    · exact ih (fun p hp => hpackets p (List.mem_cons_of_mem _ hp)) (by rw [hdata]; exact hlength')
        (by rw [hdata]; exact hring')

/-- The quotient of exact arithmetic. -/
def rtpScaledExact (rtpTime : UInt32) : UInt64 := UInt64.ofNat (rtpTime.toNat * 10000 / 441)

theorem toNat_rtpScaledExact (rtpTime : UInt32) :
    (rtpScaledExact rtpTime).toNat = rtpTime.toNat * 10000 / 441 := by
  have hlt := rtpTime.toNat_lt
  rw [rtpScaledExact, UInt64.toNat_ofNat']
  exact Nat.mod_eq_of_lt (by omega)

theorem rtpScaledExact_lt (rtpTime : UInt32) : (rtpScaledExact rtpTime).toNat < 2 ^ 37 := by
  have hlt := rtpTime.toNat_lt
  rw [toNat_rtpScaledExact]
  omega

/-- Ten packets, one every second from 1970-01-01 00:00:01 on. -/
def tenSyncPackets : List SyncPacket :=
  (List.range 10).map fun i =>
    ⟨UInt32.ofNat (44100 * (i + 1)), UInt64.ofNat ((0x83aa7e80 + (i + 1)) * 2 ^ 32), 0⟩

theorem syncClock_right_tenSeconds :
    (∀ r, (rtpScaledExact r).toNat < 2 ^ 37) ∧ Along (syncStep rtpScaledExact)
      (OnClock (SyncsRight rtpScaledExact)) (some rtpClockInit) tenSyncPackets := by
  refine ⟨rtpScaledExact_lt, (syncClock_right_iff rtpScaledExact rtpScaledExact_lt _).mpr ?_⟩
  refine @along_syncFits _ tenSyncPackets (by decide +kernel) _ rfl ?_
  intro d hd
  rw [List.eq_of_mem_replicate hd]
  decide

/-- The first packet is of 1970-01-01 00:00:00 and both clocks agree. -/
theorem syncClock_epoch :
    ¬ ∀ (rtpScaled : UInt32 → UInt64), (∀ r, (rtpScaled r).toNat < 2 ^ 37) →
      ∀ packets, Along (syncStep rtpScaled) (OnClock (SyncsRight rtpScaled)) (some rtpClockInit)
        packets := by
  intro h
  have hright := ((h rtpScaledExact rtpScaledExact_lt [⟨44100, 0x83aa7e8000000000, 0⟩]) _ rfl).1
  have hcount := (hright rtpClockInit rfl).count.1
  exact absurd hcount (by decide)

end WinAirPlay
