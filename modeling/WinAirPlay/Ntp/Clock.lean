import WinAirPlay.ByteUtils
import WinAirPlay.Foundations.RingBuffer

/-! # Clock synchronisation of `raop_ntp.cpp`

The clock filter keeps the last eight exchanges in a ring. After each exchange it publishes the
offset of the one with the smallest round-trip delay. `qsort` may order samples of equal delay as
it likes: a `DelaySort` is any function that sorts by delay.
-/

namespace WinAirPlay
open Foundations.ByteBuffer Foundations.RingBuffer
set_option autoImplicit false

def raopNtpDataCount : ℕ := 8
def raopNtpPhiPpm : UInt64 := 15
def raopNtpRRho : UInt64 := (1 <<< (32 : UInt64)) / (1000 : UInt64)
def raopNtpSRho : UInt64 := (1 <<< (32 : UInt64)) / (1000 : UInt64)
def raopNtpMaxDisp : UInt64 := 16 <<< (32 : UInt64)

/-- Times in microseconds; `offset` is the remote time minus the local time. -/
structure NtpData where
  time : UInt64
  dispersion : UInt64
  delay : Int64
  offset : Int64
  deriving DecidableEq

/-- `qsort` with `raop_ntp_compare`. -/
structure DelaySort where
  sort : List NtpData → List NtpData
  perm : ∀ data, (sort data).Perm data
  sorted : ∀ data, (sort data).Pairwise fun a b => a.delay ≤ b.delay

/-- Merge sort is one of them. -/
def delayMergeSort : DelaySort where
  sort data := data.mergeSort fun a b => decide (a.delay ≤ b.delay)
  perm data := List.mergeSort_perm data _
  sorted data := by
    let le : NtpData → NtpData → Bool := fun a b => decide (a.delay ≤ b.delay)
    have h : (data.mergeSort le).Pairwise fun a b => le a b := List.pairwise_mergeSort
      (fun a b c hab hbc => by
        simp only [le, decide_eq_true_eq] at hab hbc ⊢
        exact Int64.le_trans hab hbc)
      (fun a b => by simpa [le] using Int64.le_total a.delay b.delay) data
    simpa [le] using h

structure RaopNtp where
  /-- `data` and `data_index`. -/
  data : Circular NtpData
  syncOffset : Int64
  syncDispersion : Int64
  syncDelay : Int64

/-- The entry that fills the ring before the first exchange. -/
def placeholder (time : UInt64) : NtpData where
  time := time
  dispersion := raopNtpMaxDisp
  delay := raopNtpMaxDisp.toInt64
  offset := 0

def raopNtpInit (time : UInt64) : RaopNtp where
  data := ⟨List.replicate raopNtpDataCount (placeholder time), 0⟩
  syncOffset := 0
  syncDispersion := 0
  syncDelay := 0

/-- The entry for a response that arrived at local time `t3`. -/
def ntpSample (response : Bytes) (t3 : UInt64) : NtpData :=
  let t0 := (byteutilsGetNtpTimestamp response 8).toInt64
  let t1 := (byteutilsGetNtpTimestamp response 16).toInt64
  let t2 := (byteutilsGetNtpTimestamp response 24).toInt64
  { time := t3
    offset := ((t1 - t0) + (t2 - t3.toInt64)) / 2
    delay := (t3.toInt64 - t0) - (t2 - t1)
    dispersion := raopNtpRRho + raopNtpSRho +
      (t3.toInt64 - t0).toUInt64 * raopNtpPhiPpm / (1000000 : UInt64) }

def twoPowN : List UInt64 := [2, 4, 8, 16, 32, 64, 128, 256]

/-- The weighted sum of the dispersions in ring order, each grown since its exchange. -/
def ntpDispersion (data : List NtpData) (t3 : UInt64) : UInt64 :=
  (data.zip twoPowN).foldl (fun dispersion (d, n) =>
    dispersion + (d.dispersion + (t3 - d.time) * raopNtpPhiPpm / (1000000 : UInt64)) / n) 0

/-- What the thread does with a response that arrived at local time `t3`. -/
def ntpUpdate (Q : DelaySort) (ntp : RaopNtp) (response : Bytes) (t3 : UInt64) : RaopNtp :=
  let data := push ntp.data (ntpSample response t3)
  let dataSorted := Q.sort data.entries
  let first := dataSorted.headD (placeholder 0)
  let last := dataSorted.getLastD (placeholder 0)
  { data := data
    syncOffset := first.offset
    syncDispersion := (ntpDispersion data.entries t3).toInt64
    syncDelay := last.delay }

/-- The clock filter with the two buffers of the thread. -/
structure NtpThread where
  ntp : RaopNtp
  request : Bytes
  response : Bytes

/-- The thread before its first exchange; the response buffer is not initialised. -/
def ntpThreadInit (time : UInt64) (garbage : ℕ → UInt8) : NtpThread where
  ntp := raopNtpInit time
  request := [0x80, 0xd2, 0x00, 0x07] ++ List.replicate 28 0
  response := (List.range 128).map garbage

/-- The datagram of the client: it echoes the transmit timestamp of the request and adds the times
at which it received the request and sends the reply. -/
def clientReply (head request : Bytes) (received answered : UInt64) : Bytes :=
  byteutilsPutNtpTimestamp
    (byteutilsPutNtpTimestamp (head ++ slice request 24 8 ++ List.replicate 16 0) 16 received)
    24 answered

def raopNtpTimestampToMicroSeconds (ntpTimestamp : UInt64) (accountForEpochDiff : Bool) : UInt64 :=
  let seconds := ((ntpTimestamp >>> (32 : UInt64)) &&& (0xffffffff : UInt64)) -
    (if accountForEpochDiff then secondsFrom1900To1970 else 0)
  let fraction := ntpTimestamp &&& (0xffffffff : UInt64)
  seconds * (1000000 : UInt64) + (fraction * (1000000 : UInt64)) >>> (32 : UInt64)

def raopNtpConvertRemoteTime (syncOffset remoteTime : UInt64) : UInt64 := remoteTime - syncOffset

/-! ## The clock filter -/

/-- The published offset is that of a sample of smallest delay among the newest entries. -/
theorem ntpUpdate_offset (Q : DelaySort) {ntp : RaopNtp} {history : List NtpData}
    (hlen : ntp.data.entries.length = raopNtpDataCount) (h : Holds ntp.data history)
    (response : Bytes) (t3 : UInt64) :
    let newest := (ntpSample response t3 :: history).take raopNtpDataCount
    ∃ best ∈ newest, (ntpUpdate Q ntp response t3).syncOffset = best.offset ∧
      ∀ d ∈ newest, best.delay ≤ d.delay := by
  have hmem := mem_entries_iff (holds_push h (ntpSample response t3))
  rw [length_push, hlen] at hmem
  have hsort := Q.perm (push ntp.data (ntpSample response t3)).entries
  have hsorted := Q.sorted (push ntp.data (ntpSample response t3)).entries
  cases hs : Q.sort (push ntp.data (ntpSample response t3)).entries with
  | nil =>
    have := hsort.length_eq
    rw [hs, length_push, hlen] at this
    cases this
  | cons best rest =>
    rw [hs] at hsort hsorted
    refine ⟨best, (hmem best).mp (hsort.mem_iff.mp (List.mem_cons_self ..)), ?_, ?_⟩
    · unfold ntpUpdate
      dsimp only
      rw [hs, List.headD_cons]
    · intro d hd
      rcases List.mem_cons.mp (hsort.mem_iff.mpr ((hmem d).mpr hd)) with rfl | hrest
      · exact Int64.le_refl _
      · exact List.rel_of_pairwise_cons hsorted hrest

theorem holds_ntpUpdate (Q : DelaySort) {ntp : RaopNtp} {history : List NtpData}
    (h : Holds ntp.data history) (response : Bytes) (t3 : UInt64) :
    Holds (ntpUpdate Q ntp response t3).data (ntpSample response t3 :: history) :=
  holds_push h _

end WinAirPlay
