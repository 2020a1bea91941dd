import WinAirPlay.RaopBuffer.Window

/-! # Draining the jitter buffer

The loop of `raop_rtp_thread_udp` that hands out packets until `raop_buffer_dequeue` returns `NULL`.
Each packet takes one number off `first_seqnum .. last_seqnum`, which bounds the number of passes.
-/

namespace WinAirPlay
open Foundations.ByteBuffer Foundations.SerialNumber
set_option autoImplicit false

structure AacDecodeStruct where
  dataLen : ℕ
  data : Bytes
  pts : UInt64
  deriving DecidableEq

/-- `free` of a payload that was handed out. -/
def freeBlock (b : RaopBuffer) (block : Block) : RaopBuffer :=
  { b with heap := { b.heap with freed := b.heap.freed ++ [block.id] } }

/-- `while ((payload = raop_buffer_dequeue(...)))`, at most `n` passes: what `audio_process` is
called with, and the buffer after the loop. -/
def drainLoop (noResend : Bool) : ℕ → RaopBuffer → List AacDecodeStruct × RaopBuffer
  | 0, b => ([], b)
  | n + 1, b =>
    let r := raopBufferDequeue b 0 0 noResend
    match r.data with
    | none => ([], r.raopBuffer)
    | some payload =>
      let rest := drainLoop noResend n (freeBlock r.raopBuffer payload)
      (⟨r.length, payload.bytes, r.timestamp⟩ :: rest.1, rest.2)

def drain (noResend : Bool) (b : RaopBuffer) : List AacDecodeStruct × RaopBuffer :=
  drainLoop noResend ((entryCount b).toNat + 1) b

theorem entryCount_toInt (b : RaopBuffer) :
    entryCount b = (b.lastSeqnum - b.firstSeqnum + 1#16).toInt := by
  rw [entryCount, BitVec.ofInt_add, seqnumCmp, signedDiff, BitVec.ofInt_toInt]
  rfl

/-- A packet that is handed out leaves one number less. -/
theorem entryCount_dequeue {b : RaopBuffer} {length : ℕ} {timestamp : UInt64} {noResend : Bool}
    {block : Block} (h : (raopBufferDequeue b length timestamp noResend).data = some block) :
    (entryCount (raopBufferDequeue b length timestamp noResend).raopBuffer).toNat + 1 =
      (entryCount b).toNat := by
  unfold raopBufferDequeue at h ⊢
  by_cases hnone : b.isEmpty = true ∨ entryCount b ≤ 0
  · simp [if_pos hnone] at h
  have hpos : 0 < entryCount b := by omega
  have hnext : entryCount { b with firstSeqnum := b.firstSeqnum + 1#16 } = entryCount b - 1 := by
    rw [entryCount_toInt] at hpos ⊢
    rw [entryCount_toInt]
    have hstep : b.lastSeqnum - (b.firstSeqnum + 1#16) + 1#16 =
        b.lastSeqnum - b.firstSeqnum + 1#16 - 1#16 := by bv_omega
    show (b.lastSeqnum - (b.firstSeqnum + 1#16) + 1#16).toInt = _
    rw [hstep]
    generalize b.lastSeqnum - b.firstSeqnum + 1#16 = x at hpos ⊢
    have hlt := BitVec.toInt_lt (x := x)
    rw [BitVec.toInt_sub, show (1#16).toInt = 1 from by decide]
    exact Int.bmod_eq_of_le (by omega) (by omega)
  simp only [if_neg hnone] at h ⊢
  by_cases hwait : noResend = false ∧ (b.entries (slot b.firstSeqnum)).filled = false ∧
      entryCount b < raopBufferLength
  · simp [if_pos hwait] at h
  simp only [if_neg hwait] at h ⊢
  by_cases hf : (b.entries (slot b.firstSeqnum)).filled = false
  · simp [if_pos hf] at h
  simp only [if_neg hf]
  have hsame : ∀ entries, entryCount { b with
      firstSeqnum := b.firstSeqnum + 1#16, entries := entries } = entryCount b - 1 :=
    fun _ => hnext
  rw [hsame]
  omega

theorem drainLoop_succ (noResend : Bool) (n : ℕ) (b : RaopBuffer) :
    drainLoop noResend (n + 1) b =
      match (raopBufferDequeue b 0 0 noResend).data with
      | none => ([], (raopBufferDequeue b 0 0 noResend).raopBuffer)
      | some payload =>
        (⟨(raopBufferDequeue b 0 0 noResend).length, payload.bytes,
            (raopBufferDequeue b 0 0 noResend).timestamp⟩ ::
          (drainLoop noResend n
            (freeBlock (raopBufferDequeue b 0 0 noResend).raopBuffer payload)).1,
          (drainLoop noResend n
            (freeBlock (raopBufferDequeue b 0 0 noResend).raopBuffer payload)).2) := rfl

theorem drain_none {noResend : Bool} {b : RaopBuffer}
    (h : (raopBufferDequeue b 0 0 noResend).data = none) :
    drain noResend b = ([], (raopBufferDequeue b 0 0 noResend).raopBuffer) := by
  rw [drain, drainLoop_succ, h]

/-- The bound on the passes is never what ends the loop. -/
theorem drain_some {noResend : Bool} {b : RaopBuffer} {block : Block}
    (h : (raopBufferDequeue b 0 0 noResend).data = some block) :
    let r := raopBufferDequeue b 0 0 noResend
    let rest := drain noResend (freeBlock r.raopBuffer block)
    drain noResend b = (⟨r.length, block.bytes, r.timestamp⟩ :: rest.1, rest.2) := by
  intro r rest
  have hcount : (entryCount (freeBlock r.raopBuffer block)).toNat + 1 = (entryCount b).toNat :=
    entryCount_dequeue h
  rw [drain, drainLoop_succ, h, ← hcount]
  rfl

end WinAirPlay
