import WinAirPlay.Foundations.SerialNumber
import WinAirPlay.Crypto

/-! # The audio jitter buffer of `raop_buffer.cpp`

Thirty-two slots indexed by the sequence number modulo 32, the first sequence number to deliver
and the last one received. `unsigned short` is `BitVec 16`, so the counters wrap as in C.

A payload pointer is the block it points to: an allocation number, which is never used twice, and
the bytes written to it when it was filled. `Heap` hands out the numbers and lists the numbers
given to `free`, in order. `raop_buffer_flush` frees a payload without clearing the pointer, so a
slot may keep a pointer to a block that is in that list.
-/

namespace WinAirPlay
open Foundations.ByteBuffer Foundations.SerialNumber
set_option autoImplicit false

def raopBufferLength : ℕ := 32
def raopPacketLen : ℕ := 32768

structure Block where
  id : ℕ
  bytes : Bytes
  deriving DecidableEq

structure Heap where
  next : ℕ
  freed : List ℕ
  deriving DecidableEq

structure RaopBufferEntry where
  filled : Bool
  seqnum : BitVec 16
  timestamp : UInt64
  payloadSize : ℕ
  payloadData : Option Block
  deriving DecidableEq

structure RaopBuffer where
  aeskey : Bytes
  aesiv : Bytes
  isEmpty : Bool
  firstSeqnum : BitVec 16
  lastSeqnum : BitVec 16
  entries : Fin raopBufferLength → RaopBufferEntry
  heap : Heap

def emptyEntry : RaopBufferEntry where
  filled := false
  seqnum := 0
  timestamp := 0
  payloadSize := 0
  payloadData := none

/-- `calloc` zeroes the counters and every entry; only `is_empty` is set. -/
def raopBufferInit (P : Openssl) (aeskey aesiv ecdhSecret : Bytes) : RaopBuffer where
  aeskey := (P.sha512 (aeskey.take 16 ++ ecdhSecret.take 32)).take 16
  aesiv := aesiv.take 16
  isEmpty := true
  firstSeqnum := 0
  lastSeqnum := 0
  entries := fun _ => emptyEntry
  heap := { next := 0, freed := [] }

/-- The difference of two sequence numbers as the `short` that C computes. -/
def seqnumCmp (s1 s2 : BitVec 16) : ℤ := signedDiff s1 s2

/-- The slot of a sequence number, `seqnum % RAOP_BUFFER_LENGTH`. -/
def slot (seqnum : BitVec 16) : Fin raopBufferLength :=
  ⟨seqnum.toNat % raopBufferLength, Nat.mod_lt _ (by decide)⟩

/-! ## Flush -/

/-- One pass of the flush loop: the payload is freed but its pointer stays. -/
def flushEntry (entry : RaopBufferEntry) : RaopBufferEntry :=
  match entry.payloadData with
  | some _ => { entry with payloadSize := 0, filled := false }
  | none => { entry with filled := false }

/-- The allocation numbers the flush loop gives to `free`, in slot order. -/
def flushFrees (raopBuffer : RaopBuffer) : List ℕ :=
  (List.finRange raopBufferLength).filterMap fun i =>
    (raopBuffer.entries i).payloadData.map Block.id

def flushEntries (raopBuffer : RaopBuffer) : RaopBuffer :=
  { raopBuffer with
    entries := fun i => flushEntry (raopBuffer.entries i)
    heap := { raopBuffer.heap with freed := raopBuffer.heap.freed ++ flushFrees raopBuffer } }

def raopBufferFlush (raopBuffer : RaopBuffer) (nextSeq : ℤ) : RaopBuffer :=
  if nextSeq < 0 ∨ 0xffff < nextSeq then
    { flushEntries raopBuffer with isEmpty := true }
  else
    { flushEntries raopBuffer with
      firstSeqnum := BitVec.ofInt 16 nextSeq
      lastSeqnum := BitVec.ofInt 16 (nextSeq - 1) }

/-! ## Enqueue -/

/-- The plaintext buffer of a packet: the delivered part of the whole blocks, over zeros, and the
rest copied in clear. -/
def raopBufferDecrypt (P : Openssl) (raopBuffer : RaopBuffer) (data : Bytes) (payloadSize : ℕ) :
    Bytes :=
  let encryptedlen := payloadSize / 16 * 16
  let output := List.replicate payloadSize 0
  let aesCtxAudio := aesCbcInit raopBuffer.aeskey raopBuffer.aesiv .decrypt
  let output := writeAt output 0 (aesCbcDecrypt P aesCtxAudio (slice data 12 encryptedlen)).1
  writeAt output encryptedlen (slice data (12 + encryptedlen) (payloadSize - encryptedlen))

/-- `(data[2] << 8) | data[3]`. -/
def packetSeqnum (data : Bytes) : BitVec 16 :=
  ((byteAt data 2).toBitVec ++ (byteAt data 3).toBitVec : BitVec 16)

/-- The packet of 16 bytes that carries no audio. -/
def isNoDataPacket (data : Bytes) (datalen : BitVec 16) : Bool :=
  datalen.toNat == 16 && byteAt data 12 == 0x0 && byteAt data 13 == 0x68 &&
    byteAt data 14 == 0x34 && byteAt data 15 == 0x0

structure EnqueueResult where
  ret : ℤ
  raopBuffer : RaopBuffer
  /-- the out-parameter `buffer_entry` -/
  bufferEntry : RaopBufferEntry
  /-- whether the call went through `raop_buffer_flush` -/
  flushed : Bool

/-- The second half of `raop_buffer_enqueue`: fill the slot, fill the caller's entry (all but its
time stamp) with a copy of the payload, and move the counters. -/
def storePacket (P : Openssl) (raopBuffer : RaopBuffer) (data : Bytes) (payloadSize : ℕ)
    (seqnum : BitVec 16) (timestamp : UInt64) (bufferEntry : RaopBufferEntry) (flushed : Bool) :
    EnqueueResult :=
  let payload := raopBufferDecrypt P raopBuffer data payloadSize
  let id := raopBuffer.heap.next
  let entry : RaopBufferEntry :=
    { filled := true, seqnum, timestamp, payloadSize, payloadData := some ⟨id, payload⟩ }
  let firstSeqnum := if raopBuffer.isEmpty then seqnum else raopBuffer.firstSeqnum
  let lastSeqnum := if raopBuffer.isEmpty then seqnum else raopBuffer.lastSeqnum
  { ret := 1
    raopBuffer :=
      { raopBuffer with
        isEmpty := false
        firstSeqnum
        lastSeqnum := if 0 < seqnumCmp seqnum lastSeqnum then seqnum else lastSeqnum
        entries := Function.update raopBuffer.entries (slot seqnum) entry
        heap := { raopBuffer.heap with next := id + 2 } }
    bufferEntry := { bufferEntry with payloadSize, payloadData := some ⟨id + 1, payload⟩ }
    flushed }

def raopBufferEnqueue (P : Openssl) (raopBuffer : RaopBuffer) (data : Bytes) (datalen : BitVec 16)
    (timestamp : UInt64) (useSeqnum : Bool) (bufferEntry : RaopBufferEntry) : EnqueueResult :=
  if datalen.toNat < 12 ∨ raopPacketLen < datalen.toNat then ⟨-1, raopBuffer, bufferEntry, false⟩
  else if isNoDataPacket data datalen then ⟨0, raopBuffer, bufferEntry, false⟩
  else
    let payloadSize := datalen.toNat - 12
    let seqnum := if useSeqnum then packetSeqnum data else raopBuffer.firstSeqnum
    -- too late
    if raopBuffer.isEmpty = false ∧ seqnumCmp seqnum raopBuffer.firstSeqnum < 0 then
      ⟨0, raopBuffer, bufferEntry, false⟩
    else
      -- `first_seqnum` is compared even while `is_empty` says that it is stale
      let flushed := decide (0 ≤ seqnumCmp seqnum (raopBuffer.firstSeqnum + 32#16))
      let raopBuffer := if flushed then raopBufferFlush raopBuffer seqnum.toNat else raopBuffer
      let entry := raopBuffer.entries (slot seqnum)
      if entry.filled ∧ seqnumCmp entry.seqnum seqnum = 0 then
        ⟨0, raopBuffer, bufferEntry, flushed⟩
      else
        storePacket P raopBuffer data payloadSize seqnum timestamp bufferEntry flushed

/-! ## Dequeue -/

structure DequeueResult where
  data : Option Block
  length : ℕ
  timestamp : UInt64
  raopBuffer : RaopBuffer

/-- `short entry_count`. -/
def entryCount (raopBuffer : RaopBuffer) : ℤ :=
  (BitVec.ofInt 16 (seqnumCmp raopBuffer.lastSeqnum raopBuffer.firstSeqnum + 1)).toInt

/-- The slot is emptied and its payload handed to the caller. -/
def takeEntry (entry : RaopBufferEntry) : RaopBufferEntry :=
  { entry with filled := false, payloadSize := 0, payloadData := none }

def raopBufferDequeue (raopBuffer : RaopBuffer) (length : ℕ) (timestamp : UInt64)
    (noResend : Bool) : DequeueResult :=
  let entryCount := entryCount raopBuffer
  if raopBuffer.isEmpty ∨ entryCount ≤ 0 then ⟨none, length, timestamp, raopBuffer⟩
  else
    let entry := raopBuffer.entries (slot raopBuffer.firstSeqnum)
    if noResend = false ∧ entry.filled = false ∧ entryCount < raopBufferLength then
      ⟨none, length, timestamp, raopBuffer⟩
    else
      let next := { raopBuffer with firstSeqnum := raopBuffer.firstSeqnum + 1#16 }
      if entry.filled = false then ⟨none, length, timestamp, next⟩
      else
        ⟨entry.payloadData, entry.payloadSize, entry.timestamp,
          { next with
            entries := Function.update raopBuffer.entries (slot raopBuffer.firstSeqnum)
              (takeEntry entry) }⟩

/-! ## Resends -/

/-- The loop of `raop_buffer_handle_resends`: from `seqnum` on, the first number that is filled or
not before `last_seqnum`. -/
def missingUntil (raopBuffer : RaopBuffer) : ℕ → BitVec 16 → BitVec 16
  | 0, seqnum => seqnum
  | n + 1, seqnum =>
    if seqnumCmp seqnum raopBuffer.lastSeqnum < 0 then
      if (raopBuffer.entries (slot seqnum)).filled then seqnum
      else missingUntil raopBuffer n (seqnum + 1#16)
    else seqnum

/-- The first number and the count that `resend_cb` is called with, if it is called. -/
def raopBufferHandleResends (raopBuffer : RaopBuffer) : Option (BitVec 16 × BitVec 16) :=
  if seqnumCmp raopBuffer.firstSeqnum raopBuffer.lastSeqnum < 0 then
    let seqnum := missingUntil raopBuffer (ahead raopBuffer.firstSeqnum raopBuffer.lastSeqnum)
      raopBuffer.firstSeqnum
    if seqnumCmp seqnum raopBuffer.firstSeqnum = 0 then none
    else
      some (raopBuffer.firstSeqnum, BitVec.ofInt 16 (seqnumCmp seqnum raopBuffer.firstSeqnum))
  else none

end WinAirPlay
