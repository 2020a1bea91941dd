import WinAirPlay.RaopBuffer.Calls
import WinAirPlay.RaopBuffer.Delivery

/-! # A flush to a sequence number

From a flush to `n` up to the next flush, and as long as fewer than 2¹⁴ numbers have been passed,
packets that precede `n` by at most 2¹⁴ are too late. `first_seqnum` is what makes them so, but it
does not count while `is_empty` is set, and the flush does not clear `is_empty`.
-/

namespace WinAirPlay
open Foundations.ByteBuffer Foundations.SerialNumber Foundations.Transition
set_option autoImplicit false

structure SinceFlush where
  buffer : RaopBuffer
  /-- The numbers that were dequeued or skipped. -/
  passed : ℕ
  /-- An enqueue has flushed the buffer again. -/
  flushed : Bool

/-- A call that comes before the next flush. -/
def sinceFlushStep (P : Openssl) (s : SinceFlush) (call : BufferCall) :
    Option (SinceFlush × List Empty) :=
  if s.flushed = true ∨ 2 ^ 14 ≤ s.passed then none
  else
    match call with
    | .enqueue data datalen timestamp useSeqnum bufferEntry =>
      let r := raopBufferEnqueue P s.buffer data datalen timestamp useSeqnum bufferEntry
      some (⟨r.raopBuffer, s.passed, r.flushed⟩, [])
    | .dequeue length timestamp noResend =>
      let next := (raopBufferDequeue s.buffer length timestamp noResend).raopBuffer
      some (⟨next, if next.firstSeqnum = s.buffer.firstSeqnum then s.passed else s.passed + 1,
        false⟩, [])
    | .flush _ => none

/-- The number `s` precedes `n` by 1 to 2¹⁴. -/
def Older (n s : BitVec 16) : Prop := 1 ≤ ahead s n ∧ ahead s n ≤ 2 ^ 14

/-- The call does not take a packet older than `n` and does not return one. -/
def RefusesOlder (P : Openssl) (n : BitVec 16) (s : SinceFlush) : BufferCall → Prop
  | .enqueue data datalen timestamp useSeqnum bufferEntry =>
    12 ≤ datalen.toNat → datalen.toNat ≤ raopPacketLen →
      Older n (enqueueSeqnum s.buffer data useSeqnum) →
        (raopBufferEnqueue P s.buffer data datalen timestamp useSeqnum bufferEntry).ret = 0
  | .dequeue length timestamp noResend =>
    (raopBufferDequeue s.buffer length timestamp noResend).data.isSome = true →
      ¬ Older n (s.buffer.entries (slot s.buffer.firstSeqnum)).seqnum
  | .flush _ => True

/-! ## A buffer that is not empty -/

/-- The window has moved on from `n` by what was passed. -/
structure MovedOn (n : BitVec 16) (s : SinceFlush) : Prop where
  window : Window s.buffer
  nonempty : s.buffer.isEmpty = false
  first : s.buffer.firstSeqnum = numbered n s.passed

theorem older_before {n s : BitVec 16} {passed : ℕ} (h : Older n s) (hpassed : passed < 2 ^ 14) :
    seqnumCmp s (numbered n passed) < 0 := by
  obtain ⟨hpos, hle⟩ := h
  rw [seqnumCmp, signedDiff_neg_iff, numbered]
  unfold ahead at hpos hle ⊢
  bv_omega

theorem not_older_numbered {n : BitVec 16} {passed : ℕ} (hpassed : passed < 2 ^ 14) :
    ¬ Older n (numbered n passed) := by
  rintro ⟨hpos, hle⟩
  unfold ahead numbered at hpos hle
  bv_omega

theorem enqueue_late (P : Openssl) {b : RaopBuffer} {data : Bytes} {datalen : BitVec 16}
    (timestamp : UInt64) {useSeqnum : Bool} (bufferEntry : RaopBufferEntry)
    (hlen : 12 ≤ datalen.toNat ∧ datalen.toNat ≤ raopPacketLen) (he : b.isEmpty = false)
    (hlate : seqnumCmp (enqueueSeqnum b data useSeqnum) b.firstSeqnum < 0) :
    (raopBufferEnqueue P b data datalen timestamp useSeqnum bufferEntry).ret = 0 := by
  unfold raopBufferEnqueue
  rw [if_neg (by omega)]
  by_cases hnodata : isNoDataPacket data datalen = true
  · rw [if_pos hnodata]
  · rw [if_neg hnodata]
    dsimp only
    rw [if_pos ⟨he, hlate⟩]

theorem first_seqnum_eq {b : RaopBuffer} (hb : Window b) (he : b.isEmpty = false)
    (hfilled : (b.entries (slot b.firstSeqnum)).filled = true) :
    (b.entries (slot b.firstSeqnum)).seqnum = b.firstSeqnum := by
  obtain ⟨hplace, hlt⟩ := hb.place he _ hfilled
  have hspan := hb.span_le he
  exact eq_of_slot_eq (lt_of_lt_of_le hlt hspan) (by simp) hplace

section
variable {P : Openssl} {n : BitVec 16} {s : SinceFlush} {call : BufferCall}
  {r : SinceFlush × List Empty}

theorem sinceFlushStep_guard (hr : sinceFlushStep P s call = some r) :
    s.flushed = false ∧ s.passed < 2 ^ 14 := by
  by_cases hguard : s.flushed = true ∨ 2 ^ 14 ≤ s.passed
  · unfold sinceFlushStep at hr
    rw [if_pos hguard] at hr
    cases hr
  · obtain ⟨hflushed, hpassed⟩ := not_or.mp hguard
    exact ⟨by simpa using hflushed, not_le.mp hpassed⟩

theorem sinceFlushStep_eq (hr : sinceFlushStep P s call = some r) :
    r.1.buffer = call.apply P s.buffer ∧ r.2 = [] := by
  unfold sinceFlushStep at hr
  split_ifs at hr
  cases call <;> cases hr <;> exact ⟨rfl, rfl⟩

theorem movedOn_refusesOlder (h : MovedOn n s) (hr : sinceFlushStep P s call = some r) :
    RefusesOlder P n s call := by
  obtain ⟨-, hpassed⟩ := sinceFlushStep_guard hr
  cases call with
  | enqueue data datalen timestamp useSeqnum bufferEntry =>
    intro hlow hhigh holder
    refine enqueue_late P timestamp bufferEntry ⟨hlow, hhigh⟩ h.nonempty ?_
    rw [h.first]
    exact older_before holder hpassed
  | dequeue length timestamp noResend =>
    intro hdata
    obtain hsame | ⟨-, -, -, hskip⟩ | ⟨he, -, hfilled, -⟩ :=
      dequeue_cases h.window length timestamp noResend
    · rw [hsame] at hdata
      cases hdata
    · rw [hskip] at hdata
      cases hdata
    · rw [first_seqnum_eq h.window he hfilled, h.first]
      exact not_older_numbered hpassed
  | flush nextSeq => trivial

theorem dequeue_movedOn (h : MovedOn n s) (length : ℕ) (timestamp : UInt64) (noResend : Bool) :
    let next := (raopBufferDequeue s.buffer length timestamp noResend).raopBuffer
    next.isEmpty = false ∧ next.firstSeqnum = numbered n
      (if next.firstSeqnum = s.buffer.firstSeqnum then s.passed else s.passed + 1) := by
  have hnext : s.buffer.firstSeqnum + 1#16 ≠ s.buffer.firstSeqnum := by bv_omega
  have hmoved : s.buffer.firstSeqnum + 1#16 = numbered n (s.passed + 1) := by
    rw [h.first, numbered_succ]
  obtain hsame | ⟨he, -, -, hskip⟩ | ⟨he, -, -, htake⟩ :=
    dequeue_cases h.window length timestamp noResend
  · rw [hsame]
    dsimp only
    rw [if_pos rfl]
    exact ⟨h.nonempty, h.first⟩
  · rw [hskip]
    dsimp only [skipped]
    rw [if_neg hnext]
    exact ⟨he, hmoved⟩
  · rw [htake]
    dsimp only [taken, skipped]
    rw [if_neg hnext]
    exact ⟨he, hmoved⟩

theorem movedOn_step (h : MovedOn n s) (hr : sinceFlushStep P s call = some r)
    (hflushed : r.1.flushed = false) : MovedOn n r.1 := by
  have hwindow : Window r.1.buffer := (sinceFlushStep_eq hr).1 ▸ window_call P h.window call
  unfold sinceFlushStep at hr
  split_ifs at hr
  cases call with
  | enqueue data datalen timestamp useSeqnum bufferEntry =>
    cases hr
    obtain ⟨data', -, -, heq⟩ :=
      enqueue_numbered P s.buffer data datalen timestamp useSeqnum bufferEntry
    simp only [heq] at hwindow hflushed ⊢
    obtain ⟨-, hsame, -, -⟩ | ⟨-, hacc⟩ :=
      enqueue_cases P s.buffer data' datalen timestamp bufferEntry
    · rw [hsame]
      exact ⟨h.window, h.nonempty, h.first⟩
    · obtain ⟨hempty, hfirst⟩ := accepts_first hacc hflushed h.nonempty
      exact ⟨hwindow, hempty, hfirst.trans h.first⟩
  | dequeue length timestamp noResend =>
    cases hr
    obtain ⟨hempty, hfirst⟩ := dequeue_movedOn h length timestamp noResend
    exact ⟨hwindow, hempty, hfirst⟩
  | flush nextSeq => cases hr

end

/-- After a flush of a buffer that is not empty, no call takes or returns an older packet. -/
theorem along_refusesOlder (P : Openssl) {b : RaopBuffer} {n : BitVec 16} (he : b.isEmpty = false)
    (calls : List BufferCall) :
    Along (sinceFlushStep P) (RefusesOlder P n) ⟨raopBufferFlush b n.toNat, 0, false⟩ calls := by
  refine along_of_emits (I := fun s => s.flushed = false → MovedOn n s) (P := fun _ => True)
    (fun s call r hs _ hr hflushed => ?_) (fun s call r hs hr _ => ?_) (fun _ => ?_)
    (fun _ _ => trivial)
  · exact movedOn_step (hs (sinceFlushStep_guard hr).1) hr hflushed
  · exact movedOn_refusesOlder (hs (sinceFlushStep_guard hr).1) hr
  · obtain ⟨hempty, hfirst, -⟩ := raopBufferFlush_seqnum b n
    exact ⟨window_flush b _, hempty.trans he, by rw [hfirst, numbered_zero]⟩

/-! ## An empty buffer -/

/-- The packet without payload that precedes `n` by one. -/
def justBefore (n : BitVec 16) : BufferCall :=
  .enqueue (renumber (List.replicate 12 0) (n - 1#16)) 12 0 true emptyEntry

/-- A flush of an empty buffer leaves it empty, and then the packet just before `n` is stored. -/
theorem justBefore_stored (P : Openssl) {b : RaopBuffer} {n : BitVec 16} (he : b.isEmpty = true) :
    ¬ RefusesOlder P n ⟨raopBufferFlush b n.toNat, 0, false⟩ (justBefore n) := by
  intro hrefuses
  set base := raopBufferFlush b n.toNat with hbase
  have hempty : base.isEmpty = true := (raopBufferFlush_seqnum b n).1.trans he
  have hseq := packetSeqnum_renumber (List.replicate 12 0) (n - 1#16)
  have holder : Older n (enqueueSeqnum base (renumber (List.replicate 12 0) (n - 1#16)) true) := by
    rw [enqueueSeqnum, if_pos rfl, hseq]
    unfold Older ahead
    bv_omega
  have hret := hrefuses (by decide) (by decide) holder
  have hstored : (raopBufferEnqueue P base (renumber (List.replicate 12 0) (n - 1#16)) 12 0 true
      emptyEntry).ret = 1 :=
    enqueue_ret_one P 0 emptyEntry (by decide) rfl (Or.inl hempty)
      (Or.inr (Or.inl (raopBufferFlush_filled b _ _)))
  rw [hstored] at hret
  cases hret

/-- What follows the flush refuses older packets exactly if the buffer was not empty. -/
theorem flush_discards_iff (P : Openssl) (b : RaopBuffer) (n : BitVec 16) :
    (∀ calls, Along (sinceFlushStep P) (RefusesOlder P n) ⟨raopBufferFlush b n.toNat, 0, false⟩
      calls) ↔ b.isEmpty = false := by
  refine ⟨fun h => ?_, fun he calls => along_refusesOlder P he calls⟩
  by_contra hempty
  obtain ⟨hrefuses, -⟩ := h [justBefore n] _ rfl
  exact justBefore_stored P (by simpa using hempty) hrefuses

/-- Of a session that has no packet yet, packet 4 is taken after a flush to 5. -/
theorem flush_discards_fresh :
    ¬ ∀ (P : Openssl) (aeskey aesiv ecdhSecret : Bytes) (calls : List BufferCall) (b : RaopBuffer)
      (n : BitVec 16), run (callStep P) (raopBufferInit P aeskey aesiv ecdhSecret) calls = some b →
        ∀ later, Along (sinceFlushStep P) (RefusesOlder P n) ⟨raopBufferFlush b n.toNat, 0, false⟩
          later := by
  intro h
  obtain ⟨hrefuses, -⟩ := h default [] [] [] [] _ 5 rfl [justBefore 5] _ rfl
  exact justBefore_stored default rfl hrefuses

end WinAirPlay
