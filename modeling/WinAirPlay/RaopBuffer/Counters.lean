import WinAirPlay.RaopBuffer.Calls

/-! # The counters of the jitter buffer

The window invariant read in the numbers that the source computes. `seqnum_cmp` of the two counters is
between -1 and 31, so the counters name a range of at most 32 numbers; every filled slot holds a
number of the range, at its own place, and the last number of a range that is not empty is there.
While `is_empty` is set the counters are stale, but they too are never further apart
(`CountersNear`), so `entry_count` is always the difference that was meant.
-/

namespace WinAirPlay
open Foundations.ByteBuffer Foundations.SerialNumber Foundations.Transition
set_option autoImplicit false

/-- `seqnum` is one of `first_seqnum .. last_seqnum` (mod 2^16). -/
def BetweenCounters (b : RaopBuffer) (seqnum : BitVec 16) : Prop :=
  ∃ k : ℕ, (k : ℤ) ≤ seqnumCmp b.lastSeqnum b.firstSeqnum ∧
    seqnum = b.firstSeqnum + BitVec.ofNat 16 k

structure CountersRight (b : RaopBuffer) : Prop where
  unfilled : b.isEmpty = true → ∀ i, (b.entries i).filled = false
  difference : b.isEmpty = false →
    -1 ≤ seqnumCmp b.lastSeqnum b.firstSeqnum ∧ seqnumCmp b.lastSeqnum b.firstSeqnum ≤ 31
  entries : b.isEmpty = false → ∀ i, (b.entries i).filled = true →
    (b.entries i).seqnum.toNat % 32 = i ∧ BetweenCounters b (b.entries i).seqnum
  newest : b.isEmpty = false → ¬ 0 < seqnumCmp b.firstSeqnum b.lastSeqnum →
    (b.entries (slot b.lastSeqnum)).filled = true ∧
      (b.entries (slot b.lastSeqnum)).seqnum = b.lastSeqnum

/-- An enqueue into the buffer, whatever its arguments, leaves every filled slot of the buffer it
stores into as it is. That buffer is `b`, or `b` after the flush inside the call. -/
def KeepsFilled (P : Openssl) (b : RaopBuffer) : Prop :=
  ∀ (data : Bytes) (datalen : BitVec 16) (timestamp : UInt64) (useSeqnum : Bool)
    (bufferEntry : RaopBufferEntry) (i : Fin raopBufferLength),
    let r := raopBufferEnqueue P b data datalen timestamp useSeqnum bufferEntry
    let base := storeBase b (enqueueSeqnum b data useSeqnum) r.flushed
    (base.entries i).filled = true → r.raopBuffer.entries i = base.entries i

/-- `short entry_count` is the number that the right-hand side has as an `int`. -/
def CountFits (b : RaopBuffer) : Prop :=
  entryCount b = seqnumCmp b.lastSeqnum b.firstSeqnum + 1

/-- The counters are near each other, `is_empty` or not. -/
def CountersNear (b : RaopBuffer) : Prop := span b ≤ raopBufferLength

/-! ## What the window says of the counters -/

theorem seqnumCmp_neg {s t : BitVec 16} (h : -1 ≤ seqnumCmp s t ∧ seqnumCmp s t ≤ 31) :
    seqnumCmp t s = - seqnumCmp s t := by
  unfold seqnumCmp signedDiff at h ⊢
  have hneg : t - s = -(s - t) := (neg_sub s t).symm
  rw [hneg, BitVec.toInt_neg]
  exact Int.bmod_eq_of_le (by omega) (by omega)

theorem countersRight_of_window {b : RaopBuffer} (hb : Window b) : CountersRight b where
  unfilled := hb.unfilled
  difference he := by
    have hspan := seqnumCmp_span (hb.span_le he)
    have hle : span b ≤ 32 := hb.span_le he
    omega
  entries he i hi := by
    obtain ⟨hslot, hahead⟩ := hb.place he i hi
    have hspan := seqnumCmp_span (hb.span_le he)
    exact ⟨congrArg Fin.val hslot, ahead b.firstSeqnum (b.entries i).seqnum, by omega,
      (numbered_ahead b.firstSeqnum (b.entries i).seqnum).symm⟩
  newest he hnot := by
    have hspan := seqnumCmp_span (hb.span_le he)
    have hle : span b ≤ 32 := hb.span_le he
    have hneg := seqnumCmp_neg (s := b.lastSeqnum) (t := b.firstSeqnum) (by omega)
    have hpos : 0 < span b := by omega
    have hfilled := hb.newest he hpos
    obtain ⟨hslot, hahead⟩ := hb.place he _ hfilled
    exact ⟨hfilled, eq_of_slot_eq (lt_of_lt_of_le hahead hle)
      (ahead_last_lt (hb.span_le he) hpos) hslot⟩

/-! ## An enqueue overwrites no filled slot -/

theorem keepsFilled_of_window (P : Openssl) {b : RaopBuffer} (hb : Window b) : KeepsFilled P b := by
  intro data datalen timestamp useSeqnum bufferEntry i r base hfilled
  obtain ⟨data', hseqnum, -, hr⟩ :=
    enqueue_numbered P b data datalen timestamp useSeqnum bufferEntry
  have hr : r = raopBufferEnqueue P b data' datalen timestamp true bufferEntry := hr
  rcases enqueue_cases P b data' datalen timestamp bufferEntry with
    ⟨-, hsame, -, hflushed⟩ | ⟨-, hacc⟩
  · have hbase : base = b := by simp only [base, hr, hflushed, storeBase, Bool.false_eq_true, if_false]
    rw [hr, hsame, hbase]
  · rw [← hr] at hacc
    have hbase : base = storeBase b (packetSeqnum data') r.flushed := by simp only [base, hseqnum]
    obtain ⟨-, hslot, -, -⟩ := storeBase_ready hb hacc
    rw [← hbase] at hslot
    have hne : i ≠ slot (packetSeqnum data') := by
      rintro rfl
      exact absurd (hslot.symm.trans hfilled) (by decide)
    rw [hacc.result, ← hbase]
    exact Function.update_of_ne hne _ _

/-! ## The counters stay near each other -/

theorem countersNear_init (P : Openssl) (aeskey aesiv ecdhSecret : Bytes) :
    CountersNear (raopBufferInit P aeskey aesiv ecdhSecret) := by
  show ahead 0#16 (0#16 + 1#16) ≤ raopBufferLength
  decide

theorem countersNear_flush {b : RaopBuffer} (hb : CountersNear b) (n : ℤ) :
    CountersNear (raopBufferFlush b n) := by
  by_cases hn : n < 0 ∨ 0xffff < n
  · have hspan : span (raopBufferFlush b n) = span b := by
      simp only [raopBufferFlush, if_pos hn]
      rfl
    exact hspan.trans_le hb
  · show span (raopBufferFlush b n) ≤ raopBufferLength
    rw [span_flush b hn]
    decide

theorem countersNear_call (P : Openssl) {b : RaopBuffer} (hw : Window b) (hb : CountersNear b)
    (call : BufferCall) : CountersNear (call.apply P b) := by
  cases call with
  | flush nextSeq => exact countersNear_flush hb nextSeq
  | dequeue length timestamp noResend =>
    rcases dequeue_cases hw length timestamp noResend with h | ⟨he, hpos, hf, h⟩ | ⟨he, hpos, -, h⟩
    · rw [BufferCall.apply, h]
      exact hb
    · rw [BufferCall.apply, h]
      exact (window_skipped hw he hpos hf).span_le he
    · rw [BufferCall.apply, h]
      exact (window_taken hw he hpos).span_le he
  | enqueue data datalen timestamp useSeqnum bufferEntry =>
    have hwindow := window_call P hw (.enqueue data datalen timestamp useSeqnum bufferEntry)
    obtain ⟨data', -, -, heq⟩ := enqueue_numbered P b data datalen timestamp useSeqnum bufferEntry
    rw [BufferCall.apply, heq] at hwindow ⊢
    rcases enqueue_cases P b data' datalen timestamp bufferEntry with ⟨-, hsame, -, -⟩ | ⟨-, hacc⟩
    · rw [hsame]
      exact hb
    · -- a packet was stored, so `is_empty` is not set and the window bounds the counters
      refine hwindow.span_le ?_
      rw [hacc.result]
      rfl

/-! ## Every reachable state -/

theorem buffer_counters (P : Openssl) (aeskey aesiv ecdhSecret : Bytes) (calls : List BufferCall) :
    Throughout (callStep P) (fun b => CountersRight b ∧ KeepsFilled P b ∧ CountFits b)
      (raopBufferInit P aeskey aesiv ecdhSecret) calls := by
  have hkept : Throughout (callStep P) (fun b => Window b ∧ CountersNear b)
      (raopBufferInit P aeskey aesiv ecdhSecret) calls := by
    refine throughout_of_along (G := fun _ _ => True) ?_
      ⟨window_init P aeskey aesiv ecdhSecret, countersNear_init P aeskey aesiv ecdhSecret⟩
      (along_true _ _)
    rintro b call r ⟨hw, hnear⟩ - hr
    obtain rfl : (call.apply P b, []) = r := Option.some.inj hr
    exact ⟨window_call P hw call, countersNear_call P hw hnear call⟩
  refine hkept.imp fun b hb => ?_
  obtain ⟨hw, hnear⟩ := hb
  exact ⟨countersRight_of_window hw, keepsFilled_of_window P hw,
    (entryCount_eq hnear).trans (seqnumCmp_span hnear).symm⟩

end WinAirPlay
