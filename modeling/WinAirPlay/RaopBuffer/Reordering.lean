import WinAirPlay.RaopBuffer.Drain

/-! # Reordered and duplicated packets

A stream of packets numbered from `s0` on arrives in an order in which no packet is 31 or more
ahead of a missing one. Drained after every arrival, without giving up a packet that may still be
resent, the buffer hands out the packets of the stream in order.

The invariant is `Reordering`: with the packets `seen` so far, everything before packet `next` has
been handed out, and the buffer holds exactly the packets from `next` on that have been seen.
-/

namespace WinAirPlay
open Foundations.ByteBuffer Foundations.SerialNumber
set_option autoImplicit false

/-- A datagram for `raop_buffer_enqueue`, with the caller's entry as it was before. -/
structure AudioPacket where
  data : Bytes
  timestamp : UInt64
  bufferEntry : RaopBufferEntry

/-- One packet is enqueued and the buffer drained. -/
def receivePacket (P : Openssl) (noResend : Bool) (b : RaopBuffer) (p : AudioPacket) :
    List AacDecodeStruct × RaopBuffer :=
  drain noResend (raopBufferEnqueue P b p.data (BitVec.ofNat 16 p.data.length) p.timestamp true
    p.bufferEntry).raopBuffer

def receivePackets (P : Openssl) (noResend : Bool) :
    RaopBuffer → List AudioPacket → List AacDecodeStruct × RaopBuffer
  | b, [] => ([], b)
  | b, p :: ps =>
    let r := receivePacket P noResend b p
    let rest := receivePackets P noResend r.2 ps
    (r.1 ++ rest.1, rest.2)

/-! ## What can arrive -/

structure Arrival where
  number : ℕ
  timestamp : UInt64
  bufferEntry : RaopBufferEntry

/-- The packets `0, ..., n - 1` of a stream, each at least once: packet 0 comes first, a packet comes
for the first time only once all packets 31 or more before it have come, and a copy comes before
all packets up to `2^15` after it have come. -/
structure Admissible (n : ℕ) (numbers : List ℕ) : Prop where
  starts : ∀ k after, numbers = k :: after → k = 0
  within : ∀ k ∈ numbers, k < n
  complete : ∀ k < n, k ∈ numbers
  first : ∀ before k after, numbers = before ++ k :: after → k ∉ before →
    ∀ j, j + 31 ≤ k → j ∈ before
  late : ∀ before k after, numbers = before ++ k :: after → k ∈ before →
    ∃ j, j ≤ k + 2 ^ 15 ∧ j ∉ before

/-- Packets of a stream that starts with number `s0`. -/
structure AudioStream (s0 : BitVec 16) (n : ℕ) (packet : ℕ → Bytes) : Prop where
  length : ∀ k < n, 12 ≤ (packet k).length ∧ (packet k).length ≤ raopPacketLen
  audio : ∀ k < n, isNoDataPacket (packet k) (BitVec.ofNat 16 (packet k).length) = false
  seqnum : ∀ k < n, packetSeqnum (packet k) = numbered s0 k

/-! ## The invariant -/

section

variable {P : Openssl} {start : RaopBuffer} {s0 : BitVec 16} {packet : ℕ → Bytes} {n : ℕ}

/-- The payload of packet `k`, decrypted with the key of the buffer. -/
def streamPayload (P : Openssl) (start : RaopBuffer) (packet : ℕ → Bytes) (k : ℕ) : Bytes :=
  raopBufferDecrypt P start (packet k) ((packet k).length - 12)

def HoldsPacket (P : Openssl) (start : RaopBuffer) (s0 : BitVec 16) (packet : ℕ → Bytes)
    (e : RaopBufferEntry) (k : ℕ) : Prop :=
  e.filled = true ∧ e.seqnum = numbered s0 k ∧
    ∃ id, e.payloadData = some ⟨id, streamPayload P start packet k⟩

structure Reordering (P : Openssl) (start : RaopBuffer) (s0 : BitVec 16) (packet : ℕ → Bytes)
    (seen : List ℕ) (next : ℕ) (b : RaopBuffer) : Prop where
  nonempty : b.isEmpty = false
  key : b.aeskey = start.aeskey ∧ b.aesiv = start.aesiv
  first : b.firstSeqnum = numbered s0 next
  last : ∃ l, b.lastSeqnum = numbered s0 l ∧ next ≤ l + 1 ∧ l < next + 31 ∧ ∀ k ∈ seen, k ≤ l
  earlier : ∀ j < next, j ∈ seen
  waiting : ∀ k ∈ seen, next ≤ k →
    HoldsPacket P start s0 packet (b.entries (slot (numbered s0 k))) k
  only : ∀ i, (b.entries i).filled = true → ∃ k ∈ seen, next ≤ k ∧ i = slot (numbered s0 k)

theorem slot_numbered {k j : ℕ} (h : slot (numbered s0 k) = slot (numbered s0 j)) :
    k % 32 = j % 32 := by
  have hm : (numbered s0 k).toNat % 32 = (numbered s0 j).toNat % 32 := congrArg Fin.val h
  simp only [numbered, BitVec.toNat_add, BitVec.toNat_ofNat] at hm
  omega

/-- Packets that wait do not share a slot. -/
theorem slot_numbered_ne (s0 : BitVec 16) {k j : ℕ} (hne : k ≠ j) (hk : k < j + 32) (hj : j < k + 32) :
    slot (numbered s0 k) ≠ slot (numbered s0 j) := by
  intro h
  have := slot_numbered h
  omega

theorem Reordering.mem_congr {seen seen' : List ℕ} {next : ℕ} {b : RaopBuffer}
    (h : Reordering P start s0 packet seen next b) (hmem : ∀ k, k ∈ seen' ↔ k ∈ seen) :
    Reordering P start s0 packet seen' next b where
  nonempty := h.nonempty
  key := h.key
  first := h.first
  last := by
    obtain ⟨l, hl, hnext, hnear, hseen⟩ := h.last
    exact ⟨l, hl, hnext, hnear, fun k hk => hseen k ((hmem k).mp hk)⟩
  earlier j hj := (hmem j).mpr (h.earlier j hj)
  waiting k hk hnext := h.waiting k ((hmem k).mp hk) hnext
  only i hi := by
    obtain ⟨k, hk, hnext, hslot⟩ := h.only i hi
    exact ⟨k, (hmem k).mpr hk, hnext, hslot⟩

/-! ## Draining -/

theorem Reordering.entryCount {seen : List ℕ} {next : ℕ} {b : RaopBuffer}
    (h : Reordering P start s0 packet seen next b) :
    ∃ l, b.lastSeqnum = numbered s0 l ∧ (∀ k ∈ seen, k ≤ l) ∧ next ≤ l + 1 ∧ l < next + 31 ∧
      entryCount b = (l : ℤ) + 1 - next := by
  obtain ⟨l, hl, hnext, hnear, hseen⟩ := h.last
  refine ⟨l, hl, hseen, hnext, hnear, ?_⟩
  have hcmp : seqnumCmp b.lastSeqnum b.firstSeqnum = (l : ℤ) - next := by
    rw [hl, h.first]
    exact signedDiff_numbered (by decide) s0 (by omega) (by omega)
  rw [WinAirPlay.entryCount, hcmp, BitVec.toInt_ofInt]
  rw [Int.bmod_eq_of_le (by omega) (by omega)]
  omega

/-- The slot of the next packet is filled exactly when the packet has been seen. -/
theorem Reordering.filled_next {seen : List ℕ} {next : ℕ} {b : RaopBuffer}
    (h : Reordering P start s0 packet seen next b) (hnext : next ∉ seen) :
    (b.entries (slot b.firstSeqnum)).filled = false := by
  by_contra hfilled
  rw [Bool.not_eq_false] at hfilled
  obtain ⟨k, hk, hle, hslot⟩ := h.only _ hfilled
  obtain ⟨l, -, hseen, -, hnear, -⟩ := h.entryCount
  have hkl := hseen k hk
  rw [h.first] at hslot
  refine slot_numbered_ne s0 (k := k) (j := next) ?_ (by omega) (by omega) hslot.symm
  rintro rfl
  exact hnext hk

theorem Reordering.dequeue_waits {seen : List ℕ} {next : ℕ} {b : RaopBuffer}
    (h : Reordering P start s0 packet seen next b) (hnext : next ∉ seen) :
    raopBufferDequeue b 0 0 false = ⟨none, 0, 0, b⟩ := by
  have hfilled := h.filled_next hnext
  obtain ⟨l, -, -, -, hnear, hcount⟩ := h.entryCount
  unfold raopBufferDequeue
  by_cases hnone : b.isEmpty = true ∨ WinAirPlay.entryCount b ≤ 0
  · simp only [if_pos hnone]
  · have hfew : WinAirPlay.entryCount b < raopBufferLength := by
      rw [hcount]
      show (l : ℤ) + 1 - next < 32
      omega
    simp only [if_neg hnone]
    rw [if_pos ⟨trivial, hfilled, hfew⟩]

theorem Reordering.dequeue_next {seen : List ℕ} {next : ℕ} {b : RaopBuffer}
    (h : Reordering P start s0 packet seen next b) (hnext : next ∈ seen) :
    ∃ block, (raopBufferDequeue b 0 0 false).data = some block ∧
      block.bytes = streamPayload P start packet next ∧
      Reordering P start s0 packet seen (next + 1)
        (freeBlock (raopBufferDequeue b 0 0 false).raopBuffer block) := by
  obtain ⟨hfilled, -, id, hdata⟩ := h.waiting next hnext le_rfl
  obtain ⟨l, hl, hseen, -, hnear, hcount⟩ := h.entryCount
  have hle := hseen next hnext
  have hsome : ¬ (b.isEmpty = true ∨ WinAirPlay.entryCount b ≤ 0) := by
    rw [h.nonempty, hcount]
    simp only [Bool.false_eq_true, false_or]
    omega
  rw [← h.first] at hfilled hdata
  have hr : raopBufferDequeue b 0 0 false =
      ⟨some ⟨id, streamPayload P start packet next⟩,
        (b.entries (slot b.firstSeqnum)).payloadSize,
        (b.entries (slot b.firstSeqnum)).timestamp, taken b⟩ := by
    simp only [raopBufferDequeue, if_neg hsome, hfilled, hdata, Bool.true_eq_false, false_and,
      and_false, if_false]
    rfl
  refine ⟨⟨id, streamPayload P start packet next⟩, by rw [hr], rfl, ?_⟩
  rw [hr]
  have hother : ∀ k, k ≠ next → next ≤ k → k ≤ l →
      (taken b).entries (slot (numbered s0 k)) = b.entries (slot (numbered s0 k)) := by
    intro k hne hk hkl
    have hslot := slot_numbered_ne s0 hne (by omega) (by omega)
    rw [← h.first] at hslot
    simp [taken, Function.update_of_ne hslot]
  refine ⟨h.nonempty, h.key, ?_, ⟨l, hl, by omega, by omega, hseen⟩, ?_, ?_, ?_⟩
  · show b.firstSeqnum + 1#16 = _
    rw [h.first, numbered_succ]
  · intro j hj
    by_cases hjn : j = next
    · exact hjn ▸ hnext
    · exact h.earlier j (by omega)
  · intro k hk hlt
    show HoldsPacket P start s0 packet ((taken b).entries (slot (numbered s0 k))) k
    rw [hother k (by omega) (by omega) (hseen k hk)]
    exact h.waiting k hk (by omega)
  · intro i hi
    have hi : ((taken b).entries i).filled = true := hi
    by_cases hslot : i = slot b.firstSeqnum
    · simp [taken, takeEntry, hslot] at hi
    · have hsame : (taken b).entries i = b.entries i := by simp [taken, Function.update_of_ne hslot]
      rw [hsame] at hi
      obtain ⟨k, hk, hle', hik⟩ := h.only i hi
      refine ⟨k, hk, ?_, hik⟩
      have hne : k ≠ next := by
        rintro rfl
        exact hslot (by rw [hik, h.first])
      omega

/-- Draining hands out the packets from `next` up to the first one that is missing. -/
theorem Reordering.drain {seen : List ℕ} {next : ℕ} {b : RaopBuffer}
    (h : Reordering P start s0 packet seen next b) :
    ∃ count, (WinAirPlay.drain false b).1.map AacDecodeStruct.data =
        (List.range' next count).map (streamPayload P start packet) ∧
      Reordering P start s0 packet seen (next + count) (WinAirPlay.drain false b).2 ∧
      next + count ∉ seen := by
  obtain ⟨l, -, hseen, -, -, -⟩ := h.entryCount
  induction hd : l + 1 - next generalizing next b with
  | zero =>
    have hnext : next ∉ seen := fun hmem => by
      have := hseen next hmem
      omega
    have hwait := h.dequeue_waits hnext
    rw [drain_none (by rw [hwait]), hwait]
    exact ⟨0, rfl, h, hnext⟩
  | succ d ih =>
    by_cases hnext : next ∈ seen
    · obtain ⟨block, hblock, hbytes, hnew⟩ := h.dequeue_next hnext
      obtain ⟨count, hout, hlast, hmissing⟩ := ih hnew (by omega)
      rw [drain_some hblock]
      refine ⟨count + 1, ?_, ?_, ?_⟩
      · simp only [List.map_cons, hbytes, hout, List.range'_succ]
      · rw [show next + (count + 1) = next + 1 + count by omega]
        exact hlast
      · rw [show next + (count + 1) = next + 1 + count by omega]
        exact hmissing
    · have hwait := h.dequeue_waits hnext
      rw [drain_none (by rw [hwait]), hwait]
      exact ⟨0, rfl, h, hnext⟩

/-! ## Enqueueing -/

/-- What makes `raop_buffer_enqueue` look at the sequence number of a packet. -/
theorem enqueue_audio {b : RaopBuffer} {k : ℕ} (hs : AudioStream s0 n packet) (hk : k < n)
    (timestamp : UInt64) (out : RaopBufferEntry) :
    raopBufferEnqueue P b (packet k) (BitVec.ofNat 16 (packet k).length) timestamp true out =
      if b.isEmpty = false ∧ seqnumCmp (numbered s0 k) b.firstSeqnum < 0 then ⟨0, b, out, false⟩
      else
        let flushed := decide (0 ≤ seqnumCmp (numbered s0 k) (b.firstSeqnum + 32#16))
        let base := storeBase b (numbered s0 k) flushed
        let entry := base.entries (slot (numbered s0 k))
        if entry.filled ∧ seqnumCmp entry.seqnum (numbered s0 k) = 0 then ⟨0, base, out, flushed⟩
        else storePacket P base (packet k) ((packet k).length - 12) (numbered s0 k) timestamp out
          flushed := by
  obtain ⟨hlow, hhigh⟩ := hs.length k hk
  have hmax : raopPacketLen = 32768 := rfl
  have hlen : (BitVec.ofNat 16 (packet k).length).toNat = (packet k).length := by
    rw [BitVec.toNat_ofNat, Nat.mod_eq_of_lt (by omega)]
  have hvalid : ¬ ((BitVec.ofNat 16 (packet k).length).toNat < 12 ∨
      raopPacketLen < (BitVec.ofNat 16 (packet k).length).toNat) := by omega
  unfold raopBufferEnqueue
  rw [if_neg hvalid, hs.audio k hk]
  simp only [Bool.false_eq_true, if_false, if_true, hs.seqnum k hk, hlen]
  rfl

theorem Reordering.enqueue_copy {seen : List ℕ} {next k : ℕ} {b : RaopBuffer}
    (h : Reordering P start s0 packet seen next b) (hs : AudioStream s0 n packet) (hkn : k < n)
    (hk : k ∈ seen) (hnext : next ∉ seen) (hlate : ∃ j, j ≤ k + 2 ^ 15 ∧ j ∉ seen)
    (timestamp : UInt64) (out : RaopBufferEntry) :
    (raopBufferEnqueue P b (packet k) (BitVec.ofNat 16 (packet k).length) timestamp true
      out).raopBuffer = b := by
  rw [enqueue_audio hs hkn]
  by_cases hearly : k < next
  · have hback : next ≤ k + 2 ^ 15 := by
      obtain ⟨j, hj, hmissing⟩ := hlate
      by_contra hfar
      exact hmissing (h.earlier j (by omega))
    have hcmp : seqnumCmp (numbered s0 k) b.firstSeqnum < 0 := by
      rw [h.first, seqnumCmp, signedDiff_numbered (by decide) s0 hback (by omega)]
      omega
    rw [if_pos ⟨h.nonempty, hcmp⟩]
  · obtain ⟨l, -, hseen, -, hnear, -⟩ := h.entryCount
    have hkl := hseen k hk
    have hne : k ≠ next := by
      rintro rfl
      exact hnext hk
    have htimely : ¬ seqnumCmp (numbered s0 k) b.firstSeqnum < 0 := by
      rw [h.first, seqnumCmp, signedDiff_numbered (by decide) s0 (by omega) (by omega)]
      omega
    have hroom : ¬ 0 ≤ seqnumCmp (numbered s0 k) (b.firstSeqnum + 32#16) := by
      have hfirst : b.firstSeqnum + 32#16 = numbered s0 (next + 32) := by
        rw [h.first, numbered, numbered, BitVec.ofNat_add, BitVec.add_assoc]
      rw [hfirst, seqnumCmp, signedDiff_numbered (by decide) s0 (by omega) (by omega)]
      omega
    obtain ⟨hfilled, hseq, -⟩ := h.waiting k hk (by omega)
    have hdup : (b.entries (slot (numbered s0 k))).filled = true ∧
        seqnumCmp (b.entries (slot (numbered s0 k))).seqnum (numbered s0 k) = 0 :=
      ⟨hfilled, (signedDiff_eq_zero_iff _ _).mpr hseq⟩
    rw [if_neg fun hc => htimely hc.2]
    simp only [decide_eq_false hroom, storeBase, Bool.false_eq_true, if_false]
    rw [if_pos hdup]

/-- A packet that was not seen, less than 31 ahead of the first missing one, is stored. -/
theorem Reordering.enqueue_new {seen : List ℕ} {next k : ℕ} {b : RaopBuffer}
    (h : Reordering P start s0 packet seen next b) (hs : AudioStream s0 n packet) (hkn : k < n)
    (hk : k ∉ seen) (hnear : k < next + 31) (timestamp : UInt64) (out : RaopBufferEntry) :
    Reordering P start s0 packet (seen ++ [k]) next
      (raopBufferEnqueue P b (packet k) (BitVec.ofNat 16 (packet k).length) timestamp true
        out).raopBuffer := by
  have hge : next ≤ k := by
    by_contra hlt
    exact hk (h.earlier k (by omega))
  obtain ⟨l, hl, hseen, hnextl, hlnear, -⟩ := h.entryCount
  have htimely : ¬ seqnumCmp (numbered s0 k) b.firstSeqnum < 0 := by
    rw [h.first, seqnumCmp, signedDiff_numbered (by decide) s0 (by omega) (by omega)]
    omega
  have hroom : ¬ 0 ≤ seqnumCmp (numbered s0 k) (b.firstSeqnum + 32#16) := by
    have hfirst : b.firstSeqnum + 32#16 = numbered s0 (next + 32) := by
      rw [h.first, numbered, numbered, BitVec.ofNat_add, BitVec.add_assoc]
    rw [hfirst, seqnumCmp, signedDiff_numbered (by decide) s0 (by omega) (by omega)]
    omega
  -- the slot belongs to this packet only
  have hfree : (b.entries (slot (numbered s0 k))).filled = false := by
    by_contra hfilled
    rw [Bool.not_eq_false] at hfilled
    obtain ⟨j, hj, hnextj, hslot⟩ := h.only _ hfilled
    have := hseen j hj
    refine slot_numbered_ne s0 (k := k) (j := j) ?_ (by omega) (by omega) hslot
    rintro rfl
    exact hk hj
  rw [enqueue_audio hs hkn, if_neg fun hc => htimely hc.2]
  simp only [decide_eq_false hroom, storeBase, hfree, Bool.false_eq_true, if_false, false_and]
  have hother : ∀ j, j ≠ k → next ≤ j → j ≤ l →
      Function.update b.entries (slot (numbered s0 k))
        { filled := true, seqnum := numbered s0 k, timestamp := timestamp,
          payloadSize := (packet k).length - 12,
          payloadData := some ⟨b.heap.next,
            raopBufferDecrypt P b (packet k) ((packet k).length - 12)⟩ }
        (slot (numbered s0 j)) = b.entries (slot (numbered s0 j)) := by
    intro j hne hj hjl
    exact Function.update_of_ne (slot_numbered_ne s0 hne (by omega) (by omega)) ..
  refine ⟨rfl, h.key, ?_, ?_, ?_, ?_, ?_⟩
  · simp [storePacket, h.nonempty, h.first]
  · have hcmp : seqnumCmp (numbered s0 k) b.lastSeqnum = (k : ℤ) - l := by
      rw [hl]
      exact signedDiff_numbered (by decide) s0 (by omega) (by omega)
    simp only [storePacket, h.nonempty, Bool.false_eq_true, if_false, hcmp]
    by_cases hnewest : l < k
    · rw [if_pos (by omega)]
      refine ⟨k, rfl, by omega, by omega, fun j hj => ?_⟩
      rcases List.mem_append.mp hj with hj | hj
      · have := hseen j hj
        omega
      · rw [List.mem_singleton.mp hj]
    · rw [if_neg (by omega)]
      refine ⟨l, hl, hnextl, hlnear, fun j hj => ?_⟩
      rcases List.mem_append.mp hj with hj | hj
      · exact hseen j hj
      · rw [List.mem_singleton.mp hj]
        omega
  · intro j hj
    exact List.mem_append_left _ (h.earlier j hj)
  · intro j hj hnextj
    simp only [storePacket]
    by_cases hjk : j = k
    · rw [hjk, Function.update_self]
      refine ⟨rfl, rfl, b.heap.next, ?_⟩
      simp [streamPayload, raopBufferDecrypt, h.key.1, h.key.2]
    · have hj := (List.mem_append.mp hj).resolve_right fun hm => hjk (List.mem_singleton.mp hm)
      rw [hother j hjk hnextj (hseen j hj)]
      exact h.waiting j hj hnextj
  · intro i hi
    simp only [storePacket] at hi
    by_cases hslot : i = slot (numbered s0 k)
    · exact ⟨k, by simp, hge, hslot⟩
    · rw [Function.update_of_ne hslot] at hi
      obtain ⟨j, hj, hnextj, hij⟩ := h.only i hi
      exact ⟨j, List.mem_append_left _ hj, hnextj, hij⟩

/-- The first packet opens the window, whatever the counters were before. -/
theorem reordering_start {b : RaopBuffer} (hempty : b.isEmpty = true)
    (hunfilled : ∀ i, (b.entries i).filled = false) (hs : AudioStream s0 n packet) (hn : 0 < n)
    (timestamp : UInt64) (out : RaopBufferEntry) :
    Reordering P b s0 packet [0] 0
      (raopBufferEnqueue P b (packet 0) (BitVec.ofNat 16 (packet 0).length) timestamp true
        out).raopBuffer := by
  rw [enqueue_audio hs hn, if_neg (by simp [hempty])]
  dsimp only
  generalize decide (0 ≤ seqnumCmp (numbered s0 0) (b.firstSeqnum + 32#16)) = flushed
  have hbase : (storeBase b (numbered s0 0) flushed).isEmpty = true ∧
      (∀ i, ((storeBase b (numbered s0 0) flushed).entries i).filled = false) ∧
      (storeBase b (numbered s0 0) flushed).aeskey = b.aeskey ∧
      (storeBase b (numbered s0 0) flushed).aesiv = b.aesiv := by
    cases flushed with
    | false => exact ⟨hempty, hunfilled, rfl, rfl⟩
    | true =>
      exact ⟨(raopBufferFlush_seqnum b _).1.trans hempty, fun i => raopBufferFlush_filled b _ i,
        raopBufferFlush_key b _⟩
  obtain ⟨hbempty, hbunfilled, hkey⟩ := hbase
  generalize storeBase b (numbered s0 0) flushed = base at hbempty hbunfilled hkey ⊢
  rw [if_neg (by simp [hbunfilled])]
  refine ⟨rfl, hkey, ?_, ⟨0, ?_, by omega, by omega, by simp⟩, by simp, ?_, ?_⟩
  · simp [storePacket, hbempty]
  · simp [storePacket, hbempty]
  · intro k hk _
    obtain rfl := List.mem_singleton.mp hk
    simp only [storePacket, Function.update_self]
    refine ⟨rfl, rfl, base.heap.next, ?_⟩
    simp [streamPayload, raopBufferDecrypt, hkey.1, hkey.2]
  · intro i hi
    simp only [storePacket] at hi
    by_cases hslot : i = slot (numbered s0 0)
    · exact ⟨0, by simp, le_rfl, hslot⟩
    · rw [Function.update_of_ne hslot, hbunfilled] at hi
      cases hi

/-! ## Every admissible order -/

/-- Once the first packet is in: one more arrival. -/
theorem Reordering.receive {seen : List ℕ} {next : ℕ} {b : RaopBuffer}
    (h : Reordering P start s0 packet seen next b) (hnext : next ∉ seen)
    (hs : AudioStream s0 n packet) (a : Arrival) (hn : a.number < n)
    (hfirst : a.number ∉ seen → ∀ j, j + 31 ≤ a.number → j ∈ seen)
    (hlate : a.number ∈ seen → ∃ j, j ≤ a.number + 2 ^ 15 ∧ j ∉ seen) :
    let r := receivePacket P false b ⟨packet a.number, a.timestamp, a.bufferEntry⟩
    ∃ count, r.1.map AacDecodeStruct.data =
        (List.range' next count).map (streamPayload P start packet) ∧
      Reordering P start s0 packet (seen ++ [a.number]) (next + count) r.2 ∧
      next + count ∉ seen ++ [a.number] := by
  intro r
  have henqueue : Reordering P start s0 packet (seen ++ [a.number]) next
      (raopBufferEnqueue P b (packet a.number) (BitVec.ofNat 16 (packet a.number).length)
        a.timestamp true a.bufferEntry).raopBuffer := by
    by_cases hk : a.number ∈ seen
    · rw [h.enqueue_copy hs hn hk hnext (hlate hk)]
      refine h.mem_congr fun k => ?_
      rw [List.mem_append, List.mem_singleton]
      exact ⟨fun hm => hm.elim id fun heq => heq ▸ hk, Or.inl⟩
    · refine h.enqueue_new hs hn hk ?_ a.timestamp a.bufferEntry
      by_contra hfar
      exact hnext (hfirst hk next (by omega))
  exact henqueue.drain

theorem Reordering.receiveAll {seen : List ℕ} {next : ℕ} {b : RaopBuffer}
    (h : Reordering P start s0 packet seen next b) (hnext : next ∉ seen)
    (hs : AudioStream s0 n packet) (arrivals : List Arrival)
    (hadm : Admissible n (seen ++ arrivals.map Arrival.number)) :
    ∃ count, (receivePackets P false b (arrivals.map fun a =>
        ⟨packet a.number, a.timestamp, a.bufferEntry⟩)).1.map AacDecodeStruct.data =
        (List.range' next count).map (streamPayload P start packet) ∧ next + count = n := by
  induction arrivals generalizing seen next b with
  | nil =>
    rw [List.map_nil, List.append_nil] at hadm
    refine ⟨0, rfl, ?_⟩
    -- everything has been seen, so the first missing packet is the one after the last
    have hle : n ≤ next := by
      by_contra hlt
      exact hnext (hadm.complete next (by omega))
    have hge : next ≤ n := by
      by_contra hlt
      have := hadm.within n (h.earlier n (by omega))
      omega
    omega
  | cons a arrivals ih =>
    have hsplit : seen ++ (a :: arrivals).map Arrival.number =
        seen ++ a.number :: arrivals.map Arrival.number := rfl
    have hjoin : seen ++ (a :: arrivals).map Arrival.number =
        (seen ++ [a.number]) ++ arrivals.map Arrival.number := by simp
    obtain ⟨count, hout, hnew, hmissing⟩ := h.receive hnext hs a
      (hadm.within _ (by simp)) (hadm.first _ _ _ hsplit) (hadm.late _ _ _ hsplit)
    obtain ⟨more, hmore, hend⟩ := ih hnew hmissing (hjoin ▸ hadm)
    refine ⟨count + more, ?_, by omega⟩
    rw [List.map_cons, receivePackets]
    dsimp only
    rw [List.map_append, hout, hmore, ← List.map_append, List.range'_append_1]

end

/-- However the packets of a stream are reordered and duplicated within the window, an empty buffer
that is drained after every packet hands out the payloads of the stream, each once and in order. -/
theorem jitterBuffer_reorders (P : Openssl) (b : RaopBuffer) (hempty : b.isEmpty = true)
    (hunfilled : ∀ i, (b.entries i).filled = false) (s0 : BitVec 16) (n : ℕ) (packet : ℕ → Bytes)
    (hs : AudioStream s0 n packet) (arrivals : List Arrival)
    (hadm : Admissible n (arrivals.map Arrival.number)) :
    (receivePackets P false b (arrivals.map fun a =>
        ⟨packet a.number, a.timestamp, a.bufferEntry⟩)).1.map AacDecodeStruct.data =
      (List.range n).map (streamPayload P b packet) := by
  cases arrivals with
  | nil =>
    have hn : n = 0 := by
      by_contra hn
      have := hadm.complete 0 (by omega)
      simp at this
    subst hn
    rfl
  | cons a arrivals =>
    have ha : a.number = 0 := hadm.starts _ _ (List.map_cons ..)
    have hn : 0 < n := ha ▸ hadm.within a.number (by simp)
    have hfirst := reordering_start (P := P) hempty hunfilled hs hn a.timestamp a.bufferEntry
    obtain ⟨count, hout, hdrained, hmissing⟩ := hfirst.drain
    rw [List.map_cons, ha] at hadm
    obtain ⟨more, hmore, hend⟩ := hdrained.receiveAll hmissing hs arrivals hadm
    rw [List.map_cons, receivePackets]
    dsimp only
    have hreceive : receivePacket P false b ⟨packet a.number, a.timestamp, a.bufferEntry⟩ =
        drain false (raopBufferEnqueue P b (packet 0) (BitVec.ofNat 16 (packet 0).length)
          a.timestamp true a.bufferEntry).raopBuffer := by
      rw [receivePacket, ha]
    rw [hreceive]
    rw [List.map_append, hout, hmore, ← List.map_append, List.range'_append_1,
      List.range_eq_range', show count + more = n by omega]

/-- Packets 65535, 0 and 1, the last two in the wrong order and the first one twice. -/
theorem jitterBuffer_reorders_wrap :
    let packet : ℕ → Bytes := fun k =>
      [0x80, 0x60, if k = 0 then 255 else 0, if k = 0 then 255 else UInt8.ofNat (k - 1)] ++
        List.replicate 8 0 ++ [UInt8.ofNat k]
    (receivePackets default false (raopBufferInit default [] [] [])
        ([⟨0, 7, emptyEntry⟩, ⟨2, 9, emptyEntry⟩, ⟨1, 8, emptyEntry⟩, ⟨0, 7, emptyEntry⟩].map
          fun a : Arrival => ⟨packet a.number, a.timestamp, a.bufferEntry⟩)).1.map
        AacDecodeStruct.data =
      (List.range 3).map (streamPayload default (raopBufferInit default [] [] []) packet) := by
  intro packet
  refine jitterBuffer_reorders default _ rfl (fun _ => rfl) 65535 3 packet
    ⟨by decide, by decide, by decide⟩ _ ?_
  have hwithin : ∀ k ∈ [0, 2, 1, 0], k < 3 := by decide
  refine ⟨by simp, hwithin, by decide, ?_, ?_⟩
  · intro before k after hsplit _ j hj
    have := hwithin k (by rw [show [0, 2, 1, 0] = before ++ k :: after from hsplit]; simp)
    omega
  · intro before k after hsplit _
    refine ⟨3, by omega, fun hmem => ?_⟩
    have := hwithin 3 (by rw [show [0, 2, 1, 0] = before ++ k :: after from hsplit]; simp [hmem])
    omega

end WinAirPlay
