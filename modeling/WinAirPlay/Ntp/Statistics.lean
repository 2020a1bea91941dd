import Mathlib.Data.List.Nodup
import WinAirPlay.Ntp.Foreign

/-! # What the statistics depend on

The published offset and delay are computed from the samples sorted by delay, so they depend on the
last eight exchanges alone. The dispersion is summed in the order of the ring: the weight of a sample
is that of the slot it is in, and which slot that is depends on how many exchanges there were before.
-/

namespace WinAirPlay
open Foundations.ByteBuffer Foundations.RingBuffer Foundations.Transition
set_option autoImplicit false

/-! ## Exchanges -/

/-- What the thread reads of a reply, three timestamps in the response buffer, and its local time. -/
structure NtpReading where
  t0 : UInt64
  t1 : UInt64
  t2 : UInt64
  t3 : UInt64
  deriving DecidableEq

def ntpReading (response : Bytes) (t3 : UInt64) : NtpReading where
  t0 := byteutilsGetNtpTimestamp response 8
  t1 := byteutilsGetNtpTimestamp response 16
  t2 := byteutilsGetNtpTimestamp response 24
  t3 := t3

def NtpReading.sample (r : NtpReading) : NtpData where
  time := r.t3
  offset := ((r.t1.toInt64 - r.t0.toInt64) + (r.t2.toInt64 - r.t3.toInt64)) / 2
  delay := (r.t3.toInt64 - r.t0.toInt64) - (r.t2.toInt64 - r.t1.toInt64)
  dispersion := raopNtpRRho + raopNtpSRho +
    (r.t3.toInt64 - r.t0.toInt64).toUInt64 * raopNtpPhiPpm / (1000000 : UInt64)

/-- The response buffer after a step. -/
def responseAfter (response : Bytes) : NtpPeerLabel → Bytes
  | .receive _ bytes _ => writeAt response 0 (bytes.take responseLength)
  | _ => response

/-- The exchange that a step completes. -/
def readingOf (response : Bytes) : NtpPeerLabel → Option NtpReading
  | .receive _ bytes t3 =>
    if bytes.length ≤ responseLength then some (ntpReading (writeAt response 0 bytes) t3) else none
  | _ => none

/-- The exchanges of a run, oldest first. -/
def readings : Bytes → List NtpPeerLabel → List NtpReading
  | _, [] => []
  | response, label :: run =>
    (readingOf response label).toList ++ readings (responseAfter response label) run

/-- A run of the thread with these exchanges ends in this state of the clock. -/
def Reaches (Q : DelaySort) (history : List NtpReading) (ntp : RaopNtp) : Prop :=
  ∃ (remoteAddr : Bytes) (timingRport : BitVec 16) (time : UInt64) (garbage : ℕ → UInt8)
    (s : NtpPeer) (labels : List NtpPeerLabel) (last : NtpPeer),
    ntpPeerInit remoteAddr timingRport time garbage = some s ∧
    run (ntpPeerStep Q) s labels = some last ∧
    readings s.thread.response labels = history ∧ last.thread.ntp = ntp

/-- Two runs whose last eight exchanges are the same, with different delays, after `m` and `m'`
exchanges. -/
def SameRecent (Q : DelaySort) (m m' : ℕ) (ntp ntp' : RaopNtp) : Prop :=
  ∃ before before' recent : List NtpReading,
    before.length = m ∧ before'.length = m' ∧ recent.length = raopNtpDataCount ∧
    (recent.map fun r => r.sample.delay).Nodup ∧
    Reaches Q (before ++ recent) ntp ∧ Reaches Q (before' ++ recent) ntp'

/-! ## The clock of a run -/

/-- The clock with a sample in its ring, at local time `t3`. -/
def publish (Q : DelaySort) (data : Circular NtpData) (t3 : UInt64) : RaopNtp where
  data := data
  syncOffset := ((Q.sort data.entries).headD (placeholder 0)).offset
  syncDispersion := (ntpDispersion data.entries t3).toInt64
  syncDelay := ((Q.sort data.entries).getLastD (placeholder 0)).delay

def exchanged (Q : DelaySort) (ntp : RaopNtp) (r : NtpReading) : RaopNtp :=
  publish Q (push ntp.data r.sample) r.t3

theorem ntpUpdate_eq (Q : DelaySort) (ntp : RaopNtp) (response : Bytes) (t3 : UInt64) :
    ntpUpdate Q ntp response t3 = exchanged Q ntp (ntpReading response t3) := rfl

section
variable {Q : DelaySort} {s last : NtpPeer} {labels : List NtpPeerLabel}

/-- A step does to the clock and to the response buffer what its label says. -/
theorem ntpPeerStep_clock {label : NtpPeerLabel} {r : NtpPeer × List NtpOutput}
    (h : ntpPeerStep Q s label = some r) :
    r.1.thread.ntp = (readingOf s.thread.response label).toList.foldl (exchanged Q) s.thread.ntp ∧
      r.1.thread.response = responseAfter s.thread.response label := by
  cases label with
  | receive sender bytes t3 =>
    simp only [ntpPeerStep, Option.ite_none_right_eq_some, Option.some.injEq] at h
    obtain ⟨-, rfl⟩ := h
    dsimp only [readingOf, responseAfter, receiveResponse]
    by_cases hfits : bytes.length ≤ responseLength
    · rw [if_pos hfits, if_pos hfits, List.take_of_length_le hfits]
      exact ⟨ntpUpdate_eq Q _ _ _, rfl⟩
    · rw [if_neg hfits, if_neg hfits]
      exact ⟨rfl, rfl⟩
  | send sendTime sent =>
    simp only [ntpPeerStep, Option.ite_none_right_eq_some] at h
    obtain ⟨-, h⟩ := h
    split at h
    · cases h
      exact ⟨rfl, rfl⟩
    · cases h
      exact ⟨rfl, rfl⟩
  | stopped | timeout | wake =>
    simp only [ntpPeerStep, Option.ite_none_right_eq_some, Option.some.injEq] at h
    obtain ⟨-, rfl⟩ := h
    exact ⟨rfl, rfl⟩

theorem run_clock (h : run (ntpPeerStep Q) s labels = some last) :
    last.thread.ntp = (readings s.thread.response labels).foldl (exchanged Q) s.thread.ntp := by
  induction labels generalizing s with
  | nil =>
    obtain rfl : s = last := by simpa using h
    rfl
  | cons label labels ih =>
    obtain ⟨r, hr, hrest⟩ := run_cons_eq_some.mp h
    obtain ⟨hntp, hresponse⟩ := ntpPeerStep_clock hr
    rw [ih hrest, hntp, hresponse, readings, List.foldl_append]

theorem exchanged_data (history : List NtpReading) (ntp : RaopNtp) :
    (history.foldl (exchanged Q) ntp).data =
      (history.map NtpReading.sample).foldl push ntp.data := by
  induction history generalizing ntp with
  | nil => rfl
  | cons r history ih => exact ih (exchanged Q ntp r)

/-- The ring after a list of exchanges. -/
def ringOf (time : UInt64) (history : List NtpReading) : Circular NtpData :=
  (history.map NtpReading.sample).foldl push
    ⟨List.replicate raopNtpDataCount (placeholder time), 0⟩

/-- After the last exchange the clock publishes the statistics of the ring. -/
theorem Reaches.eq_publish {history : List NtpReading} {r : NtpReading} {ntp : RaopNtp}
    (h : Reaches Q (history ++ [r]) ntp) :
    ∃ time, ntp = publish Q (ringOf time (history ++ [r])) r.t3 := by
  obtain ⟨remoteAddr, timingRport, time, garbage, s, labels, last, hinit, hrun, hreadings, rfl⟩ := h
  obtain ⟨-, hs⟩ := Option.ite_none_right_eq_some.mp hinit
  have hntp : s.thread.ntp = raopNtpInit time := by rw [← Option.some.inj hs]; rfl
  refine ⟨time, ?_⟩
  rw [run_clock hrun, hreadings, hntp, List.foldl_append]
  show publish Q (push (history.foldl (exchanged Q) _).data r.sample) r.t3 = _
  rw [exchanged_data, ringOf, List.map_append, List.foldl_append]
  rfl

end

/-! ## The ring after two histories -/

section
variable {Q : DelaySort} {recent before before' : List NtpReading} {time time' : UInt64}

theorem holds_ringOf (time : UInt64) (history : List NtpReading) :
    (ringOf time history).entries.length = raopNtpDataCount ∧
      Holds (ringOf time history) ((history.map NtpReading.sample).reverse ++
        List.replicate raopNtpDataCount (placeholder time)) ∧
      (ringOf time history).entries.Perm (((history.map NtpReading.sample).reverse ++
        List.replicate raopNtpDataCount (placeholder time)).take raopNtpDataCount) :=
  pushes_replicate (by decide) (placeholder time) (history.map NtpReading.sample)

theorem take_newest (hrecent : recent.length = raopNtpDataCount) (older : List NtpData) :
    ((((before ++ recent).map NtpReading.sample).reverse ++ older).take raopNtpDataCount) =
      (recent.map NtpReading.sample).reverse := by
  have hlength : (recent.map NtpReading.sample).reverse.length = raopNtpDataCount := by
    rw [List.length_reverse, List.length_map, hrecent]
  rw [List.map_append, List.reverse_append, List.append_assoc, List.take_left' hlength]

theorem perm_recent (hrecent : recent.length = raopNtpDataCount) :
    (ringOf time (before ++ recent)).entries.Perm (recent.map NtpReading.sample) := by
  have hperm := (holds_ringOf time (before ++ recent)).2.2
  rw [take_newest hrecent] at hperm
  exact hperm.trans (List.reverse_perm _)

/-- The samples sorted by delay are those of the last eight exchanges, in one possible order. -/
theorem sort_recent (hrecent : recent.length = raopNtpDataCount)
    (hdelays : (recent.map fun r => r.sample.delay).Nodup) :
    Q.sort (ringOf time (before ++ recent)).entries =
      Q.sort (ringOf time' (before' ++ recent)).entries := by
  have hnodup : ((recent.map NtpReading.sample).map NtpData.delay).Nodup := by
    rw [List.map_map]
    exact hdelays
  have hleft := (Q.perm (ringOf time (before ++ recent)).entries).trans (perm_recent hrecent)
  have hright := (Q.perm (ringOf time' (before' ++ recent)).entries).trans (perm_recent hrecent)
  refine List.Perm.eq_of_pairwise (fun a b ha hb hab hba => ?_) (Q.sorted _) (Q.sorted _)
    (hleft.trans hright.symm)
  exact List.inj_on_of_nodup_map hnodup (hleft.mem_iff.mp ha) (hright.mem_iff.mp hb)
    (Int64.le_antisymm hab hba)

/-- The slots are the same where the exchanges before differ by whole turns of the ring. -/
theorem entries_recent (hrecent : recent.length = raopNtpDataCount)
    (hturns : before.length % raopNtpDataCount = before'.length % raopNtpDataCount) :
    (ringOf time (before ++ recent)).entries = (ringOf time' (before' ++ recent)).entries := by
  obtain ⟨hlength, hholds, -⟩ := holds_ringOf time (before ++ recent)
  obtain ⟨hlength', hholds', -⟩ := holds_ringOf time' (before' ++ recent)
  refine entries_ext hholds hholds' (hlength.trans hlength'.symm) ?_ ?_
  · unfold ringOf
    rw [index_pushes (by decide), index_pushes (by decide), List.length_map, List.length_map,
      List.length_append, List.length_append, hrecent, Nat.add_mod_right, Nat.add_mod_right, hturns]
  · rw [hlength, take_newest hrecent, take_newest hrecent]

theorem SameRecent.published {m m' : ℕ} {ntp ntp' : RaopNtp} (h : SameRecent Q m m' ntp ntp') :
    ∃ (before before' recent : List NtpReading) (time time' t3 : UInt64),
      before.length = m ∧ before'.length = m' ∧ recent.length = raopNtpDataCount ∧
      (recent.map fun r => r.sample.delay).Nodup ∧
      ntp = publish Q (ringOf time (before ++ recent)) t3 ∧
      ntp' = publish Q (ringOf time' (before' ++ recent)) t3 := by
  obtain ⟨before, before', recent, hm, hm', hrecent, hdelays, hntp, hntp'⟩ := h
  obtain rfl | ⟨recents, r, hr⟩ := List.eq_nil_or_concat recent
  · exact absurd hrecent (by decide)
  · rw [List.concat_eq_append] at hr
    rw [hr, ← List.append_assoc] at hntp hntp'
    obtain ⟨time, hntp⟩ := hntp.eq_publish
    obtain ⟨time', hntp'⟩ := hntp'.eq_publish
    rw [List.append_assoc, ← hr] at hntp hntp'
    exact ⟨before, before', recent, time, time', r.t3, hm, hm', hrecent, hdelays, hntp, hntp'⟩

theorem SameRecent.offset_delay {m m' : ℕ} {ntp ntp' : RaopNtp} (h : SameRecent Q m m' ntp ntp') :
    ntp.syncOffset = ntp'.syncOffset ∧ ntp.syncDelay = ntp'.syncDelay := by
  obtain ⟨before, before', recent, time, time', t3, -, -, hrecent, hdelays, rfl, rfl⟩ := h.published
  have hsort := @sort_recent Q recent before before' time time' hrecent hdelays
  constructor
  · dsimp only [publish]
    rw [hsort]
  · dsimp only [publish]
    rw [hsort]

theorem SameRecent.values_eq {m m' : ℕ} {ntp ntp' : RaopNtp} (h : SameRecent Q m m' ntp ntp')
    (hturns : m % raopNtpDataCount = m' % raopNtpDataCount) : ntp.values = ntp'.values := by
  obtain ⟨before, before', recent, time, time', t3, rfl, rfl, hrecent, -, rfl, rfl⟩ := h.published
  have hentries := @entries_recent recent before before' time time' hrecent hturns
  dsimp only [RaopNtp.values, publish]
  rw [hentries]

end

/-! ## A client that is polled -/

section
variable {Q : DelaySort} {s : NtpPeer}

/-- Three times the second `3 * j` of 1970. -/
def timingReply (j : ℤ) : Bytes :=
  let second := (BitVec.ofInt 32 (0x83aa7e80 + 3 * j)).toNat
  let stamp := [UInt8.ofNat (second / 2 ^ 24), UInt8.ofNat (second / 2 ^ 16),
    UInt8.ofNat (second / 2 ^ 8), UInt8.ofNat second, 0, 0, 0, 0]
  List.replicate 8 0 ++ stamp ++ stamp ++ stamp

/-- The reply takes a tenth of a second longer each time, and after eight exchanges a tenth again. -/
def pollTime (j : ℤ) : UInt64 :=
  UInt64.ofBitVec (BitVec.ofInt 64 (3000000 * j + 100000 * (j % 8 + 1)))

def pollReading (j : ℤ) : NtpReading := ntpReading (timingReply j) (pollTime j)

def polled (j : ℤ) : List NtpPeerLabel :=
  [.send (UInt64.ofBitVec (BitVec.ofInt 64 (3000000 * j))) true,
    .receive exampleClient (timingReply j) (pollTime j), .wake]

/-- A reply of 32 bytes is read as it is, whatever the response buffer held. -/
theorem ntpReading_writeAt {response bytes : Bytes} (hbytes : 32 ≤ bytes.length)
    (hfits : bytes.length ≤ response.length) (t3 : UInt64) :
    ntpReading (writeAt response 0 bytes) t3 = ntpReading bytes t3 := by
  have hread : ∀ offset ≤ 24, byteutilsGetNtpTimestamp (writeAt response 0 bytes) offset =
      byteutilsGetNtpTimestamp bytes offset := by
    intro offset hoffset
    refine byteutilsGetNtpTimestamp_congr fun k hk => ?_
    rw [byteAt_writeAt (by omega), if_pos (by omega), Nat.sub_zero]
  unfold ntpReading
  rw [hread 8 (by omega), hread 16 (by omega), hread 24 (by omega)]

theorem readings_polled {response : Bytes} (hresponse : response.length = responseLength) (j : ℤ)
    (labels : List NtpPeerLabel) :
    readings response (polled j ++ labels) =
      pollReading j :: readings (writeAt response 0 (timingReply j)) labels := by
  have hlength : (timingReply j).length = 32 := rfl
  have hread : ntpReading (writeAt response 0 (timingReply j)) (pollTime j) = pollReading j :=
    ntpReading_writeAt (hlength.ge) (by rw [hlength, hresponse]; decide) _
  rw [← hread]
  rfl

theorem run_polled (htop : s.point = .top) (hresponse : s.thread.response.length = responseLength)
    (js : List ℤ) :
    ∃ last, run (ntpPeerStep Q) s (js.flatMap polled) = some last ∧
      readings s.thread.response (js.flatMap polled) = js.map pollReading := by
  induction js generalizing s with
  | nil => exact ⟨s, rfl, rfl⟩
  | cons j js ih =>
    obtain ⟨next, hnext, htop', hresponse'⟩ : ∃ next, run (ntpPeerStep Q) s (polled j) = some next ∧
        next.point = .top ∧
        next.thread.response = writeAt s.thread.response 0 (timingReply j) := by
      obtain ⟨point, thread, remoteSaddr⟩ := s
      subst htop
      exact ⟨_, rfl, rfl, rfl⟩
    have hlength : next.thread.response.length = responseLength := by
      rw [hresponse', length_writeAt (by rw [hresponse]; exact show 0 + 32 ≤ 128 by decide),
        hresponse]
    obtain ⟨last, hlast, hreadings⟩ := ih htop' hlength
    refine ⟨last, ?_, ?_⟩
    · rw [List.flatMap_cons, run_append, hnext]
      exact hlast
    · rw [List.flatMap_cons, readings_polled hresponse, ← hresponse', hreadings]
      rfl

/-- One exchange every three seconds, up to the 2²⁸th. -/
def earlierPolls (k : ℕ) : List ℤ := (List.range k).map fun i : ℕ => (2 ^ 28 - k + i : ℤ)

def lastPolls : List ℤ := (List.range 8).map fun i : ℕ => (2 ^ 28 + i : ℤ)

theorem length_earlierPolls (k : ℕ) : ((earlierPolls k).map pollReading).length = k := by
  rw [earlierPolls, List.length_map, List.length_map, List.length_range]

def polledDispersion (k : ℕ) : Int64 :=
  (ntpDispersion (ringOf 0 ((earlierPolls k).map pollReading ++
    lastPolls.map pollReading)).entries (pollTime (2 ^ 28 + 7))).toInt64

theorem reaches_polled (Q : DelaySort) (k : ℕ) :
    ∃ ntp, Reaches Q ((earlierPolls k).map pollReading ++ lastPolls.map pollReading) ntp ∧
      ntp.syncDispersion = polledDispersion (k % raopNtpDataCount) := by
  obtain ⟨last, hlast, hreadings⟩ := @run_polled Q examplePeer rfl rfl (earlierPolls k ++ lastPolls)
  rw [List.map_append] at hreadings
  have hreaches : Reaches Q
      ((earlierPolls k).map pollReading ++ lastPolls.map pollReading) last.thread.ntp :=
    ⟨[192, 168, 1, 2], 7010, 0, fun _ => 0, examplePeer, _, last, rfl, hlast, hreadings, rfl⟩
  have hlast : lastPolls.map pollReading =
      (((List.range 7).map fun i : ℕ => (2 ^ 28 + i : ℤ)).map pollReading) ++
        [pollReading (2 ^ 28 + 7)] := rfl
  have hsplit := hreaches
  rw [hlast, ← List.append_assoc] at hsplit
  obtain ⟨time, hntp⟩ := hsplit.eq_publish
  rw [List.append_assoc, ← hlast] at hntp
  refine ⟨_, hreaches, ?_⟩
  have hentries := @entries_recent (lastPolls.map pollReading)
    ((earlierPolls k).map pollReading)
    ((earlierPolls (k % raopNtpDataCount)).map pollReading) time 0 rfl
    (by rw [length_earlierPolls, length_earlierPolls, Nat.mod_mod])
  rw [hntp]
  dsimp only [publish]
  rw [hentries]
  rfl

/-- Each slot in which the last exchange can be gives another dispersion. -/
theorem nodup_polledDispersion :
    ((List.range raopNtpDataCount).map polledDispersion).Nodup := by
  have hvalues : (List.range raopNtpDataCount).map polledDispersion =
      [8556524, 8556477, 8556479, 8556500, 8556534, 8556573, 8556614, 8556659] := by
    decide +kernel
  rw [hvalues]
  decide

theorem nodup_polledDelays :
    ((lastPolls.map pollReading).map fun r => r.sample.delay).Nodup := by
  have hvalues : ((lastPolls.map pollReading).map fun r => r.sample.delay) =
      [100000, 200000, 300000, 400000, 500000, 600000, 700000, 800000] := by
    decide +kernel
  rw [hvalues]
  decide

/-- Where the turns do not match, there are two runs with different dispersions. -/
theorem exists_sameRecent_ne (Q : DelaySort) {m m' : ℕ}
    (hturns : m % raopNtpDataCount ≠ m' % raopNtpDataCount) :
    ∃ ntp ntp', SameRecent Q m m' ntp ntp' ∧ ntp.syncDispersion ≠ ntp'.syncDispersion := by
  obtain ⟨ntp, hreaches, hntp⟩ := reaches_polled Q m
  obtain ⟨ntp', hreaches', hntp'⟩ := reaches_polled Q m'
  have hslot : ∀ k, k % raopNtpDataCount ∈ List.range raopNtpDataCount := fun k =>
    List.mem_range.mpr (Nat.mod_lt _ (by decide))
  refine ⟨ntp, ntp', ⟨_, _, _, length_earlierPolls m, length_earlierPolls m', rfl, nodup_polledDelays,
    hreaches, hreaches'⟩, ?_⟩
  rw [hntp, hntp']
  exact fun heq => hturns (List.inj_on_of_nodup_map nodup_polledDispersion (hslot m) (hslot m') heq)

end

/-! ## Both together -/

/-- Offset and delay never depend on what came before the last eight exchanges; the dispersion does
not exactly if the exchanges before differ by whole turns of the ring. -/
theorem ntp_statistics_iff (Q : DelaySort) (m m' : ℕ) :
    (∀ ntp ntp', SameRecent Q m m' ntp ntp' →
      ntp.syncOffset = ntp'.syncOffset ∧ ntp.syncDelay = ntp'.syncDelay) ∧
    ((∀ ntp ntp', SameRecent Q m m' ntp ntp' → ntp.values = ntp'.values) ↔
      m % raopNtpDataCount = m' % raopNtpDataCount) := by
  refine ⟨fun ntp ntp' h => h.offset_delay, fun h => ?_, fun hturns ntp ntp' h => h.values_eq hturns⟩
  by_contra hturns
  obtain ⟨ntp, ntp', hsame, hne⟩ := exists_sameRecent_ne Q hturns
  exact hne (congrArg SyncValues.syncDispersion (h ntp ntp' hsame))

/-- One exchange more, and the dispersion is another one. -/
theorem ntp_statistics_slot :
    ¬ ∀ (Q : DelaySort) (m m' : ℕ) (ntp ntp' : RaopNtp),
      SameRecent Q m m' ntp ntp' → ntp.values = ntp'.values := by
  intro h
  obtain ⟨ntp, ntp', hsame, hne⟩ := @exists_sameRecent_ne delayMergeSort 0 1 (by decide)
  exact hne (congrArg SyncValues.syncDispersion (h _ 0 1 ntp ntp' hsame))

end WinAirPlay
