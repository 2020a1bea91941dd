import WinAirPlay.Foundations.Transition
import WinAirPlay.RaopBuffer.Window

/-! # Calls on the jitter buffer

Any sequence of `raop_buffer_enqueue`, `raop_buffer_dequeue` and `raop_buffer_flush` with any
arguments. A packet that is enqueued without its own sequence number takes that of `first_seqnum`,
as a packet would that carries this number, so what is known of numbered packets applies to it
(`raopBufferEnqueue_unnumbered`).
-/

namespace WinAirPlay
open Foundations.ByteBuffer Foundations.SerialNumber Foundations.Transition
set_option autoImplicit false

inductive BufferCall
  | enqueue (data : Bytes) (datalen : BitVec 16) (timestamp : UInt64) (useSeqnum : Bool)
      (bufferEntry : RaopBufferEntry)
  | dequeue (length : ℕ) (timestamp : UInt64) (noResend : Bool)
  | flush (nextSeq : ℤ)

/-- The buffer after a call. -/
def BufferCall.apply (P : Openssl) (b : RaopBuffer) : BufferCall → RaopBuffer
  | .enqueue data datalen timestamp useSeqnum bufferEntry =>
    (raopBufferEnqueue P b data datalen timestamp useSeqnum bufferEntry).raopBuffer
  | .dequeue length timestamp noResend => (raopBufferDequeue b length timestamp noResend).raopBuffer
  | .flush nextSeq => raopBufferFlush b nextSeq

/-- A call is always possible, and nothing is emitted. -/
def callStep (P : Openssl) (b : RaopBuffer) (call : BufferCall) : Option (RaopBuffer × List Empty) :=
  some (call.apply P b, [])

theorem callStep_total (P : Openssl) (b : RaopBuffer) (calls : List BufferCall) :
    ∃ b', run (callStep P) b calls = some b' := by
  induction calls generalizing b with
  | nil => exact ⟨b, rfl⟩
  | cons call calls ih => exact ih (call.apply P b)

/-- The number that `raop_buffer_enqueue` takes for a packet. -/
def enqueueSeqnum (b : RaopBuffer) (data : Bytes) (useSeqnum : Bool) : BitVec 16 :=
  if useSeqnum then packetSeqnum data else b.firstSeqnum

/-! ## A packet without a number -/

/-- The packet with another sequence number. -/
def renumber (data : Bytes) (s : BitVec 16) : Bytes :=
  [byteAt data 0, byteAt data 1, ⟨s.extractLsb' 8 8⟩, ⟨s.extractLsb' 0 8⟩] ++ data.drop 4

/-- One byte of audio with this sequence number. -/
def shortPacket (s : BitVec 16) : Bytes := renumber (List.replicate 13 0) s

def enqueueShort (s : BitVec 16) : BufferCall := .enqueue (shortPacket s) 13 0 true emptyEntry

theorem packetSeqnum_renumber (data : Bytes) (s : BitVec 16) : packetSeqnum (renumber data s) = s :=
  @BitVec.extractLsb'_append_extractLsb' 8 8 s

theorem drop_renumber (data : Bytes) (s : BitVec 16) : (renumber data s).drop 12 = data.drop 12 := by
  show (data.drop 4).drop 8 = _
  rw [List.drop_drop]

/-- Of a packet, only its payload counts for the decryption and for the check for audio. -/
theorem payload_congr {data data' : Bytes} (h : data.drop 12 = data'.drop 12) :
    (∀ datalen, isNoDataPacket data datalen = isNoDataPacket data' datalen) ∧
      ∀ P b n, raopBufferDecrypt P b data n = raopBufferDecrypt P b data' n := by
  have hbyte : ∀ i, byteAt data (12 + i) = byteAt data' (12 + i) := fun i => by
    simp only [byteAt, List.getD_eq_getElem?_getD, ← List.getElem?_drop, h]
  have hslice : ∀ k n, slice data (12 + k) n = slice data' (12 + k) n := fun k n => by
    rw [slice, slice, ← List.drop_drop, ← List.drop_drop, h]
  refine ⟨fun datalen => ?_, fun P b n => ?_⟩
  · unfold isNoDataPacket
    rw [hbyte 0, hbyte 1, hbyte 2, hbyte 3]
  · have hfirst : slice data 12 (n / 16 * 16) = slice data' 12 (n / 16 * 16) := hslice 0 _
    unfold raopBufferDecrypt
    dsimp only
    rw [hfirst, hslice]

theorem raopBufferEnqueue_unnumbered (P : Openssl) (b : RaopBuffer) (data : Bytes)
    (datalen : BitVec 16) (timestamp : UInt64) (bufferEntry : RaopBufferEntry) :
    raopBufferEnqueue P b data datalen timestamp false bufferEntry =
      raopBufferEnqueue P b (renumber data b.firstSeqnum) datalen timestamp true bufferEntry := by
  obtain ⟨hnodata, hdecrypt⟩ := payload_congr (drop_renumber data b.firstSeqnum)
  unfold raopBufferEnqueue storePacket
  simp only [packetSeqnum_renumber, hnodata, hdecrypt, if_true, Bool.false_eq_true, if_false]

/-- Every call to `raop_buffer_enqueue` is one with a numbered packet. -/
theorem enqueue_numbered (P : Openssl) (b : RaopBuffer) (data : Bytes) (datalen : BitVec 16)
    (timestamp : UInt64) (useSeqnum : Bool) (bufferEntry : RaopBufferEntry) :
    ∃ data', packetSeqnum data' = enqueueSeqnum b data useSeqnum ∧
      isNoDataPacket data' datalen = isNoDataPacket data datalen ∧
      raopBufferEnqueue P b data datalen timestamp useSeqnum bufferEntry =
        raopBufferEnqueue P b data' datalen timestamp true bufferEntry := by
  cases useSeqnum with
  | true => exact ⟨data, rfl, rfl, rfl⟩
  | false =>
    exact ⟨renumber data b.firstSeqnum, packetSeqnum_renumber data b.firstSeqnum,
      (payload_congr (drop_renumber data b.firstSeqnum)).1 datalen,
      raopBufferEnqueue_unnumbered P b data datalen timestamp bufferEntry⟩

/-! ## Every call keeps the window -/

theorem window_call (P : Openssl) {b : RaopBuffer} (hb : Window b) (call : BufferCall) :
    Window (call.apply P b) := by
  cases call with
  | enqueue data datalen timestamp useSeqnum bufferEntry =>
    obtain ⟨data', -, -, heq⟩ := enqueue_numbered P b data datalen timestamp useSeqnum bufferEntry
    rw [BufferCall.apply, heq]
    exact window_enqueue P hb data' datalen timestamp bufferEntry
  | dequeue length timestamp noResend => exact window_dequeue hb length timestamp noResend
  | flush nextSeq => exact window_flush b nextSeq

theorem window_run {P : Openssl} {b b' : RaopBuffer} {calls : List BufferCall} (hb : Window b)
    (hrun : run (callStep P) b calls = some b') : Window b' := by
  refine invariant (fun b call r hb hr => ?_) hb hrun
  obtain rfl : (call.apply P b, []) = r := Option.some.inj hr
  exact window_call P hb call

end WinAirPlay
