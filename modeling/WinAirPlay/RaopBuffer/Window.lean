import WinAirPlay.RaopBuffer.Model

/-! # The window invariant of the jitter buffer

While `is_empty` is set no slot is filled and both counters are stale. Otherwise the sequence
numbers `first_seqnum .. last_seqnum` (mod 2^16) form a window of at most 32 numbers, every filled
slot holds a number of the window in its own place, and the slot of the last number is filled
unless the window is empty. Every operation keeps this (`window_enqueue`, `window_dequeue`,
`window_flush`), and under it what an operation does is described by its cases
(`enqueue_cases`, `dequeue_cases`).
-/

namespace WinAirPlay
open Foundations.ByteBuffer Foundations.SerialNumber
set_option autoImplicit false

/-- The number of sequence numbers in `first_seqnum .. last_seqnum`. -/
def span (b : RaopBuffer) : ℕ := ahead b.firstSeqnum (b.lastSeqnum + 1#16)

structure Window (b : RaopBuffer) : Prop where
  unfilled : b.isEmpty = true → ∀ i, (b.entries i).filled = false
  span_le : b.isEmpty = false → span b ≤ raopBufferLength
  place : b.isEmpty = false → ∀ i, (b.entries i).filled = true →
    slot (b.entries i).seqnum = i ∧ ahead b.firstSeqnum (b.entries i).seqnum < span b
  newest : b.isEmpty = false → 0 < span b → (b.entries (slot b.lastSeqnum)).filled = true
  payload : ∀ i, (b.entries i).filled = true → (b.entries i).payloadData.isSome = true

theorem window_init (P : Openssl) (aeskey aesiv ecdhSecret : Bytes) :
    Window (raopBufferInit P aeskey aesiv ecdhSecret) where
  unfilled _ _ := rfl
  span_le h := by simp [raopBufferInit] at h
  place h := by simp [raopBufferInit] at h
  newest h := by simp [raopBufferInit] at h
  payload i h := by simp [raopBufferInit, emptyEntry] at h

/-! ## Arithmetic of the window -/

/-- Two numbers of one window that share a slot are equal. -/
theorem eq_of_slot_eq {f s t : BitVec 16} (hs : ahead f s < 32) (ht : ahead f t < 32)
    (h : slot s = slot t) : s = t := by
  have hm : s.toNat % 32 = t.toNat % 32 := congrArg Fin.val h
  unfold ahead at hs ht
  bv_omega

/-- The difference of the counters, as the source computes it. -/
theorem seqnumCmp_span {b : RaopBuffer} (h : span b ≤ raopBufferLength) :
    seqnumCmp b.lastSeqnum b.firstSeqnum + 1 = span b := by
  have hs : span b ≤ 32 := h
  by_cases hz : span b = 0
  · have hl : b.lastSeqnum - b.firstSeqnum = -1#16 := by
      unfold span ahead at hz
      bv_omega
    rw [seqnumCmp, signedDiff, hl, hz]
    decide
  · have ha : ahead b.firstSeqnum b.lastSeqnum + 1 = span b := by
      unfold span ahead at hz hs ⊢
      bv_omega
    rw [seqnumCmp, signedDiff_eq_ahead (by omega), ← ha]
    push_cast
    ring

/-- The last number of a window that is not empty lies in it. -/
theorem ahead_last_lt {b : RaopBuffer} (h : span b ≤ raopBufferLength) (hpos : 0 < span b) :
    ahead b.firstSeqnum b.lastSeqnum < 32 := by
  have hle : span b ≤ 32 := h
  unfold span ahead at hle hpos
  unfold ahead
  bv_omega

theorem entryCount_eq {b : RaopBuffer} (h : span b ≤ raopBufferLength) :
    entryCount b = span b := by
  have hb : span b ≤ 32 := h
  rw [entryCount, seqnumCmp_span h, BitVec.toInt_ofInt]
  exact Int.bmod_eq_of_le (by omega) (by omega)

theorem ahead_lt_of_accepted {f s : BitVec 16} (hlate : ¬ seqnumCmp s f < 0)
    (hroom : ¬ 0 ≤ seqnumCmp s (f + 32#16)) : ahead f s < 32 := by
  rw [seqnumCmp, signedDiff_neg_iff] at hlate
  rw [seqnumCmp, signedDiff_nonneg_iff] at hroom
  unfold ahead at hlate hroom ⊢
  bv_omega

theorem ofInt_pred (n : ℤ) : BitVec.ofInt 16 (n - 1) = BitVec.ofInt 16 n - 1#16 := by
  rw [Int.sub_eq_add_neg, BitVec.ofInt_add, BitVec.sub_eq_add_neg]
  rfl

/-! ## Flush -/

@[simp] theorem flushEntry_filled (e : RaopBufferEntry) : (flushEntry e).filled = false := by
  unfold flushEntry
  split <;> rfl

@[simp] theorem raopBufferFlush_filled (b : RaopBuffer) (n : ℤ) (i : Fin raopBufferLength) :
    ((raopBufferFlush b n).entries i).filled = false := by
  unfold raopBufferFlush
  split <;> simp [flushEntries]

theorem raopBufferFlush_next (b : RaopBuffer) (n : ℤ) :
    (raopBufferFlush b n).heap.next = b.heap.next := by
  unfold raopBufferFlush
  split <;> rfl

theorem raopBufferFlush_key (b : RaopBuffer) (n : ℤ) :
    (raopBufferFlush b n).aeskey = b.aeskey ∧ (raopBufferFlush b n).aesiv = b.aesiv := by
  unfold raopBufferFlush
  split <;> exact ⟨rfl, rfl⟩

/-- A flush to a sequence number keeps `is_empty` and puts the window just before the number. -/
theorem raopBufferFlush_seqnum (b : RaopBuffer) (s : BitVec 16) :
    (raopBufferFlush b s.toNat).isEmpty = b.isEmpty ∧
      (raopBufferFlush b s.toNat).firstSeqnum = s ∧
      (raopBufferFlush b s.toNat).lastSeqnum = s - 1#16 := by
  have hs := s.isLt
  have hr : ¬ ((s.toNat : ℤ) < 0 ∨ 0xffff < (s.toNat : ℤ)) := by omega
  have hf : BitVec.ofInt 16 (s.toNat : ℤ) = s := by simp
  have hl : BitVec.ofInt 16 ((s.toNat : ℤ) - 1) = s - 1#16 := by
    rw [ofInt_pred, hf]
  simp only [raopBufferFlush, if_neg hr, hf, hl]
  exact ⟨rfl, trivial, trivial⟩

/-- A flush to a number leaves no number between the counters. -/
theorem span_flush (b : RaopBuffer) {n : ℤ} (hn : ¬ (n < 0 ∨ 0xffff < n)) :
    span (raopBufferFlush b n) = 0 := by
  simp only [raopBufferFlush, if_neg hn, span, ofInt_pred]
  simp [ahead]

theorem window_flush (b : RaopBuffer) (n : ℤ) : Window (raopBufferFlush b n) where
  unfilled _ i := raopBufferFlush_filled b n i
  span_le := by
    intro h
    by_cases hn : n < 0 ∨ 0xffff < n
    · simp [raopBufferFlush, if_pos hn] at h
    · rw [span_flush b hn]
      decide
  place _ i hi := by simp at hi
  newest := by
    intro h hpos
    by_cases hn : n < 0 ∨ 0xffff < n
    · simp [raopBufferFlush, if_pos hn] at h
    · rw [span_flush b hn] at hpos
      exact absurd hpos (by decide)
  payload i hi := by simp at hi

/-! ## Enqueue -/

/-- The buffer a packet numbered `s` is stored into: flushed to `s` first, or as it is. -/
def storeBase (b : RaopBuffer) (s : BitVec 16) (flushed : Bool) : RaopBuffer :=
  if flushed then raopBufferFlush b s.toNat else b

/-- An enqueue that stores its packet. -/
structure Accepts (P : Openssl) (b : RaopBuffer) (data : Bytes) (datalen : BitVec 16)
    (timestamp : UInt64) (out : RaopBufferEntry) (r : EnqueueResult) : Prop where
  length : 12 ≤ datalen.toNat ∧ datalen.toNat ≤ raopPacketLen
  result : r = storePacket P (storeBase b (packetSeqnum data) r.flushed) data (datalen.toNat - 12)
    (packetSeqnum data) timestamp out r.flushed
  timely : b.isEmpty = false → ¬ seqnumCmp (packetSeqnum data) b.firstSeqnum < 0
  room : r.flushed = false → ¬ 0 ≤ seqnumCmp (packetSeqnum data) (b.firstSeqnum + 32#16)
  fresh : ∀ e, e = (storeBase b (packetSeqnum data) r.flushed).entries (slot (packetSeqnum data)) →
    e.filled = true → e.seqnum ≠ packetSeqnum data

/-- An enqueue by sequence number either stores the packet and returns 1, or changes nothing. -/
theorem enqueue_cases (P : Openssl) (b : RaopBuffer) (data : Bytes) (datalen : BitVec 16)
    (timestamp : UInt64) (out : RaopBufferEntry) :
    let r := raopBufferEnqueue P b data datalen timestamp true out
    (r.ret ≠ 1 ∧ r.raopBuffer = b ∧ r.bufferEntry = out ∧ r.flushed = false) ∨
      (r.ret = 1 ∧ Accepts P b data datalen timestamp out r) := by
  intro r
  by_cases hlen : datalen.toNat < 12 ∨ raopPacketLen < datalen.toNat
  · have hr : r = ⟨-1, b, out, false⟩ := if_pos hlen
    rw [hr]
    exact .inl ⟨by simp, rfl, rfl, rfl⟩
  by_cases hnd : isNoDataPacket data datalen = true
  · have hr : r = ⟨0, b, out, false⟩ := by
      simp only [r, raopBufferEnqueue, if_neg hlen, if_pos hnd]
    rw [hr]
    exact .inl ⟨by simp, rfl, rfl, rfl⟩
  by_cases hlate : b.isEmpty = false ∧ seqnumCmp (packetSeqnum data) b.firstSeqnum < 0
  · have hr : r = ⟨0, b, out, false⟩ := by
      simp only [r, raopBufferEnqueue, if_neg hlen, if_neg hnd, if_true, if_pos hlate]
    rw [hr]
    exact .inl ⟨by simp, rfl, rfl, rfl⟩
  set flushed := decide (0 ≤ seqnumCmp (packetSeqnum data) (b.firstSeqnum + 32#16)) with hfl
  set base := storeBase b (packetSeqnum data) flushed with hbase
  by_cases hdup : (base.entries (slot (packetSeqnum data))).filled = true ∧
      seqnumCmp (base.entries (slot (packetSeqnum data))).seqnum (packetSeqnum data) = 0
  · -- a flushed buffer has no filled slot, so the duplicate was found without a flush
    have hf : flushed = false := by
      by_contra hf
      rw [hbase, storeBase, if_pos (by simpa using hf)] at hdup
      simp at hdup
    have hr : r = ⟨0, b, out, false⟩ := by
      simp only [r, raopBufferEnqueue, if_neg hlen, if_neg hnd, if_true, if_neg hlate, ← hfl]
      rw [show (if flushed = true then raopBufferFlush b (packetSeqnum data).toNat else b) = base
        from rfl, if_pos hdup, hbase, storeBase, hf, if_neg (by decide)]
    rw [hr]
    exact .inl ⟨by simp, rfl, rfl, rfl⟩
  · have hr : r = storePacket P base data (datalen.toNat - 12) (packetSeqnum data) timestamp out
        flushed := by
      simp only [r, raopBufferEnqueue, if_neg hlen, if_neg hnd, if_true, if_neg hlate, ← hfl]
      rw [show (if flushed = true then raopBufferFlush b (packetSeqnum data).toNat else b) = base
        from rfl, if_neg hdup]
    have hrf : r.flushed = flushed := by rw [hr]; rfl
    refine .inr ⟨by rw [hr]; rfl, ⟨by omega, by rw [hrf]; exact hr, ?_, ?_, ?_⟩⟩
    · exact fun he hneg => hlate ⟨he, hneg⟩
    · intro hfalse hroom
      rw [hrf, hfl] at hfalse
      exact (of_decide_eq_false hfalse) hroom
    · rintro e rfl hfilled heq
      rw [hrf] at hfilled heq
      exact hdup ⟨hfilled, (signedDiff_eq_zero_iff _ _).mpr heq⟩

/-- A packet that passes the checks is stored. -/
theorem enqueue_ret_one (P : Openssl) {b : RaopBuffer} {data : Bytes} {datalen : BitVec 16}
    (timestamp : UInt64) (out : RaopBufferEntry)
    (hlen : 12 ≤ datalen.toNat ∧ datalen.toNat ≤ raopPacketLen)
    (hnodata : isNoDataPacket data datalen = false)
    (htimely : b.isEmpty = true ∨ 0 ≤ seqnumCmp (packetSeqnum data) b.firstSeqnum)
    (hfresh : 0 ≤ seqnumCmp (packetSeqnum data) (b.firstSeqnum + 32#16) ∨
      (b.entries (slot (packetSeqnum data))).filled = false ∨
      (b.entries (slot (packetSeqnum data))).seqnum ≠ packetSeqnum data) :
    (raopBufferEnqueue P b data datalen timestamp true out).ret = 1 := by
  have hshort : ¬ (datalen.toNat < 12 ∨ raopPacketLen < datalen.toNat) := by omega
  have hlate : ¬ (b.isEmpty = false ∧ seqnumCmp (packetSeqnum data) b.firstSeqnum < 0) := by
    rintro ⟨he, hneg⟩
    rcases htimely with he' | hle
    · exact absurd (he.symm.trans he') (by decide)
    · omega
  unfold raopBufferEnqueue
  simp only [if_neg hshort, hnodata, Bool.false_eq_true, if_false, if_true, if_neg hlate]
  rw [if_neg]
  · rfl
  · rintro ⟨hfilled, hsame⟩
    have hsame := (signedDiff_eq_zero_iff _ _).mp hsame
    by_cases hflush : 0 ≤ seqnumCmp (packetSeqnum data) (b.firstSeqnum + 32#16)
    · simp [hflush] at hfilled
    · simp only [hflush, decide_false, Bool.false_eq_true, if_false] at hfilled hsame
      rcases hfresh with h | h | h
      · exact hflush h
      · exact absurd (h.symm.trans hfilled) (by decide)
      · exact h hsame

/-- A packet that is stored has passed the check for audio; the flush is a matter of its number. -/
theorem enqueue_stored {P : Openssl} {b : RaopBuffer} {data : Bytes} {datalen : BitVec 16}
    {timestamp : UInt64} {out : RaopBufferEntry}
    (h : (raopBufferEnqueue P b data datalen timestamp true out).ret = 1) :
    isNoDataPacket data datalen = false ∧
      (raopBufferEnqueue P b data datalen timestamp true out).flushed =
        decide (0 ≤ seqnumCmp (packetSeqnum data) (b.firstSeqnum + 32#16)) := by
  unfold raopBufferEnqueue at h ⊢
  by_cases hlen : datalen.toNat < 12 ∨ raopPacketLen < datalen.toNat
  · simp [if_pos hlen] at h
  by_cases hnodata : isNoDataPacket data datalen = true
  · simp [if_neg hlen, hnodata] at h
  simp only [if_neg hlen, hnodata, Bool.false_eq_true, if_false, if_true, true_and] at h ⊢
  split_ifs at h ⊢ <;> first | rfl | cases h

/-- Where a packet is stored: into a window, at an unfilled slot, and, unless `is_empty` is set,
within the next 32 numbers. -/
theorem storeBase_ready {P : Openssl} {b : RaopBuffer} {data : Bytes} {datalen : BitVec 16}
    {timestamp : UInt64} {out : RaopBufferEntry} {r : EnqueueResult} (hb : Window b)
    (h : Accepts P b data datalen timestamp out r) :
    let s := packetSeqnum data
    let base := storeBase b s r.flushed
    Window base ∧ (base.entries (slot s)).filled = false ∧ base.isEmpty = b.isEmpty ∧
      (base.isEmpty = false → ahead base.firstSeqnum s < 32) := by
  intro s base
  cases hf : r.flushed with
  | true =>
    have hbase : base = raopBufferFlush b s.toNat := by simp [base, storeBase, hf]
    obtain ⟨he, hfirst, -⟩ := raopBufferFlush_seqnum b s
    rw [hbase]
    exact ⟨window_flush b _, raopBufferFlush_filled b _ _, he, fun _ => by rw [hfirst]; simp⟩
  | false =>
    have hbase : base = b := by simp [base, storeBase, hf]
    have hnear : b.isEmpty = false → ahead b.firstSeqnum s < 32 := fun he =>
      ahead_lt_of_accepted (h.timely he) (h.room hf)
    rw [hbase]
    refine ⟨hb, ?_, rfl, hnear⟩
    cases he : b.isEmpty with
    | true => exact hb.unfilled he _
    | false =>
      by_contra hfill
      have hfill : (b.entries (slot s)).filled = true := by simpa using hfill
      obtain ⟨hslot, hahead⟩ := hb.place he _ hfill
      have hspan := hb.span_le he
      have heq := eq_of_slot_eq (lt_of_lt_of_le hahead hspan) (hnear he) hslot
      exact h.fresh _ (by simp [storeBase, hf]; rfl) hfill heq

/-- Near the window, a newer number is one past its end. -/
theorem newer_iff {f l s : BitVec 16} (hl : ahead f (l + 1#16) ≤ 32) (hs : ahead f s < 32) :
    0 < seqnumCmp s l ↔ ahead f (l + 1#16) < ahead f s + 1 := by
  have hneg := signedDiff_neg_iff s l
  have hzero := signedDiff_eq_zero_iff s l
  have hsl : s = l ↔ ahead f s + 1 = ahead f (l + 1#16) := by
    unfold ahead at hl hs ⊢
    constructor
    · rintro rfl
      bv_omega
    · intro h
      bv_omega
  have hls : 2 ^ 16 ≤ 2 * ahead l s ↔ ahead f s + 1 < ahead f (l + 1#16) := by
    unfold ahead at hl hs ⊢
    bv_omega
  have hnot : ¬ 0 < signedDiff s l ↔ s = l ∨ 2 ^ 16 ≤ 2 * ahead l s := by
    rw [← hneg, ← hzero]
    omega
  rw [hsl, hls] at hnot
  unfold seqnumCmp
  omega

theorem store_span {f l s : BitVec 16} (hl : ahead f (l + 1#16) ≤ 32) (hs : ahead f s < 32) :
    ahead f ((if 0 < seqnumCmp s l then s else l) + 1#16) =
        max (ahead f (l + 1#16)) (ahead f s + 1) ∧
      (¬ 0 < seqnumCmp s l → 0 < ahead f (l + 1#16)) := by
  have hcmp := newer_iff hl hs
  by_cases h : 0 < seqnumCmp s l
  · rw [if_pos h]
    have := hcmp.mp h
    refine ⟨?_, fun hn => absurd h hn⟩
    unfold ahead at this hl hs ⊢
    bv_omega
  · rw [if_neg h]
    have := fun hlt => h (hcmp.mpr hlt)
    exact ⟨by omega, fun _ => by omega⟩

theorem window_storePacket (P : Openssl) {base : RaopBuffer} (hb : Window base) (data : Bytes)
    (payloadSize : ℕ) {s : BitVec 16} (timestamp : UInt64) (out : RaopBufferEntry) (flushed : Bool)
    (hnear : base.isEmpty = false → ahead base.firstSeqnum s < 32) :
    Window (storePacket P base data payloadSize s timestamp out flushed).raopBuffer := by
  set b' := (storePacket P base data payloadSize s timestamp out flushed).raopBuffer with hb'
  have hempty : b'.isEmpty = false := rfl
  have hself : (b'.entries (slot s)).filled = true ∧ (b'.entries (slot s)).seqnum = s ∧
      (b'.entries (slot s)).payloadData.isSome = true := by
    simp [hb', storePacket]
  have hother : ∀ i, i ≠ slot s → b'.entries i = base.entries i := fun i hi => by
    simp [hb', storePacket, Function.update_of_ne hi]
  have hpayload : ∀ i, (b'.entries i).filled = true → (b'.entries i).payloadData.isSome = true := by
    intro i hi
    by_cases h : i = slot s
    · rw [h]
      exact hself.2.2
    · rw [hother i h] at hi ⊢
      exact hb.payload i hi
  cases he : base.isEmpty with
  | true =>
    have hfirst : b'.firstSeqnum = s := by simp [hb', storePacket, he]
    have hlast : b'.lastSeqnum = s := by simp [hb', storePacket, he]
    have hspan : span b' = 1 := by
      rw [span, hfirst, hlast]
      unfold ahead
      bv_omega
    refine ⟨fun h => by simp [hempty] at h, fun _ => by rw [hspan]; decide, ?_, ?_, hpayload⟩
    · intro _ i hi
      by_cases h : i = slot s
      · rw [h, hself.2.1, hfirst, hspan]
        exact ⟨rfl, by simp⟩
      · rw [hother i h, hb.unfilled he i] at hi
        exact absurd hi (by decide)
    · intro _ _
      rw [hlast]
      exact hself.1
  | false =>
    have hfirst : b'.firstSeqnum = base.firstSeqnum := by simp [hb', storePacket, he]
    have hlast : b'.lastSeqnum =
        if 0 < seqnumCmp s base.lastSeqnum then s else base.lastSeqnum := by
      simp [hb', storePacket, he]
    have hle : span base ≤ 32 := hb.span_le he
    obtain ⟨hmax, hpos⟩ := store_span hle (hnear he)
    have hspan : span b' = max (span base) (ahead base.firstSeqnum s + 1) := by
      rw [span, hfirst, hlast, hmax]
      rfl
    have hs := hnear he
    refine ⟨fun h => by simp [hempty] at h, fun _ => ?_, ?_, ?_, hpayload⟩
    · rw [hspan]
      exact max_le hle hs
    · intro _ i hi
      rw [hfirst, hspan]
      by_cases h : i = slot s
      · rw [h, hself.2.1]
        exact ⟨rfl, by omega⟩
      · rw [hother i h] at hi ⊢
        obtain ⟨hplace, hlt⟩ := hb.place he i hi
        exact ⟨hplace, by omega⟩
    · intro _ _
      by_cases h : slot b'.lastSeqnum = slot s
      · rw [h]
        exact hself.1
      · have hnot : ¬ 0 < seqnumCmp s base.lastSeqnum := fun hc => h (by rw [hlast, if_pos hc])
        rw [hother _ h, hlast, if_neg hnot]
        exact hb.newest he (hpos hnot)

theorem window_enqueue (P : Openssl) {b : RaopBuffer} (hb : Window b) (data : Bytes)
    (datalen : BitVec 16) (timestamp : UInt64) (out : RaopBufferEntry) :
    Window (raopBufferEnqueue P b data datalen timestamp true out).raopBuffer := by
  rcases enqueue_cases P b data datalen timestamp out with ⟨-, hsame, -, -⟩ | ⟨-, hacc⟩
  · rw [hsame]
    exact hb
  · obtain ⟨hbase, -, -, hnear⟩ := storeBase_ready hb hacc
    rw [hacc.result]
    exact window_storePacket P hbase data _ timestamp out _ hnear

/-! ## Dequeue -/

/-- A dequeue that passes a slot: it returns nothing, and the window starts one number later. -/
def skipped (b : RaopBuffer) : RaopBuffer := { b with firstSeqnum := b.firstSeqnum + 1#16 }

/-- The buffer after the first packet of the window was handed out. -/
def taken (b : RaopBuffer) : RaopBuffer :=
  { skipped b with
    entries := Function.update b.entries (slot b.firstSeqnum)
      (takeEntry (b.entries (slot b.firstSeqnum))) }

/-- A dequeue changes nothing, passes an unfilled slot, or hands out the first packet of a window
that is not empty. -/
theorem dequeue_cases {b : RaopBuffer} (hb : Window b) (length : ℕ) (timestamp : UInt64)
    (noResend : Bool) :
    raopBufferDequeue b length timestamp noResend = ⟨none, length, timestamp, b⟩ ∨
      (b.isEmpty = false ∧ 0 < span b ∧
        (b.entries (slot b.firstSeqnum)).filled = false ∧
        raopBufferDequeue b length timestamp noResend = ⟨none, length, timestamp, skipped b⟩) ∨
      (b.isEmpty = false ∧ 0 < span b ∧
        (b.entries (slot b.firstSeqnum)).filled = true ∧
        raopBufferDequeue b length timestamp noResend =
          ⟨(b.entries (slot b.firstSeqnum)).payloadData,
            (b.entries (slot b.firstSeqnum)).payloadSize,
            (b.entries (slot b.firstSeqnum)).timestamp, taken b⟩) := by
  unfold raopBufferDequeue
  by_cases hnone : b.isEmpty = true ∨ entryCount b ≤ 0
  · exact .inl (by simp only [if_pos hnone])
  have he : b.isEmpty = false := by
    cases h : b.isEmpty
    · rfl
    · exact absurd (.inl h) hnone
  have hpos : 0 < span b := by
    have hcount := entryCount_eq (hb.span_le he)
    omega
  simp only [if_neg hnone]
  by_cases hwait : noResend = false ∧ (b.entries (slot b.firstSeqnum)).filled = false ∧
      entryCount b < raopBufferLength
  · exact .inl (by simp only [if_pos hwait])
  simp only [if_neg hwait]
  cases hf : (b.entries (slot b.firstSeqnum)).filled with
  | false => exact .inr (.inl ⟨he, hpos, rfl, rfl⟩)
  | true => exact .inr (.inr ⟨he, hpos, rfl, rfl⟩)

theorem span_skipped {b : RaopBuffer} (h : 0 < span b) : span (skipped b) + 1 = span b :=
  ahead_succ h

theorem window_skipped {b : RaopBuffer} (hb : Window b) (he : b.isEmpty = false)
    (hpos : 0 < span b) (hf : (b.entries (slot b.firstSeqnum)).filled = false) :
    Window (skipped b) := by
  have hspan := span_skipped hpos
  refine ⟨fun h => hb.unfilled h, fun _ => ?_, ?_, ?_, hb.payload⟩
  · have := hb.span_le he
    omega
  · intro _ i hi
    obtain ⟨hplace, hlt⟩ := hb.place he i hi
    have hne : (b.entries i).seqnum ≠ b.firstSeqnum := by
      intro heq
      rw [heq] at hplace
      have hi : (b.entries i).filled = true := hi
      rw [← hplace, hf] at hi
      exact absurd hi (by decide)
    have := ahead_succ_of_ne hne
    exact ⟨hplace, by show ahead (b.firstSeqnum + 1#16) (b.entries i).seqnum < _; omega⟩
  · intro _ _
    exact hb.newest he hpos

theorem window_taken {b : RaopBuffer} (hb : Window b) (he : b.isEmpty = false)
    (hpos : 0 < span b) : Window (taken b) := by
  have hspan : span (taken b) + 1 = span b := ahead_succ hpos
  have hself : ((taken b).entries (slot b.firstSeqnum)).filled = false := by
    simp [taken, takeEntry]
  have hother : ∀ i, i ≠ slot b.firstSeqnum → (taken b).entries i = b.entries i := fun i hi => by
    simp [taken, Function.update_of_ne hi]
  have hne_of_filled : ∀ i, ((taken b).entries i).filled = true → i ≠ slot b.firstSeqnum := by
    rintro i hi rfl
    rw [hself] at hi
    exact absurd hi (by decide)
  refine ⟨fun h => ?_, fun _ => ?_, ?_, ?_, ?_⟩
  · exact absurd (he.symm.trans h) (by decide)
  · have := hb.span_le he
    omega
  · intro _ i hi
    have hi' := hne_of_filled i hi
    rw [hother i hi'] at hi ⊢
    obtain ⟨hplace, hlt⟩ := hb.place he i hi
    have hne : (b.entries i).seqnum ≠ b.firstSeqnum := fun heq => hi' (by rw [← hplace, heq])
    have := ahead_succ_of_ne hne
    exact ⟨hplace, by show ahead (b.firstSeqnum + 1#16) (b.entries i).seqnum < _; omega⟩
  · intro _ hpos'
    -- more than one number is left, so the last one is not the one taken
    have hne : slot b.lastSeqnum ≠ slot b.firstSeqnum := by
      intro hslot
      have hlast : b.lastSeqnum = b.firstSeqnum :=
        eq_of_slot_eq (ahead_last_lt (hb.span_le he) hpos) (by simp) hslot
      have : span b = 1 := by
        rw [span, hlast]
        unfold ahead
        bv_omega
      omega
    show ((taken b).entries (slot b.lastSeqnum)).filled = true
    rw [hother _ hne]
    exact hb.newest he hpos
  · intro i hi
    have hi' := hne_of_filled i hi
    rw [hother i hi'] at hi ⊢
    exact hb.payload i hi

theorem window_dequeue {b : RaopBuffer} (hb : Window b) (length : ℕ) (timestamp : UInt64)
    (noResend : Bool) : Window (raopBufferDequeue b length timestamp noResend).raopBuffer := by
  rcases dequeue_cases hb length timestamp noResend with h | ⟨he, hpos, hf, h⟩ | ⟨he, hpos, -, h⟩
  · rw [h]
    exact hb
  · rw [h]
    exact window_skipped hb he hpos hf
  · rw [h]
    exact window_taken hb he hpos

end WinAirPlay
