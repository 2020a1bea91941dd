import WinAirPlay.Foundations.Transition
import WinAirPlay.Ntp.Clock
import WinAirPlay.Foundations.RingBuffer
import WinAirPlay.RaopBuffer.Drain
import WinAirPlay.Rtp.Mailbox

/-! # The audio thread of `raop_rtp.cpp`

`raop_rtp_thread_udp` takes the mailbox, waits for datagrams on the control and the data socket and
handles at most one of each: a resent packet and a packet of the data socket go into the jitter
buffer and, as they come, to the decoder; a sync packet sets the clock. After a packet of the data
socket the buffer is drained into `audio_process` and missing packets may be asked for.

The control thread starts and stops the thread and posts to the mailbox in between. Each critical
section and each blocking call is one step.

* `rtpScaled` is the quotient of doubles `rtp_time / rtp_sync_scale`, truncated.
* `raop_buffer_entry_t entry` is not initialised: its value comes with the step.
* The packet array keeps what earlier datagrams left in it.
-/

namespace WinAirPlay
open Foundations.ByteBuffer Foundations.RingBuffer Foundations.Transition
set_option autoImplicit false

/-! ## The RTP clock -/

def raopRtpSyncDataCount : ℕ := 8

structure RaopRtpSyncData where
  ntpTime : UInt64
  rtpTime : UInt32
  deriving DecidableEq

structure RtpClock where
  rtpSyncOffset : Int64
  /-- `sync_data` and `sync_data_index`. -/
  syncData : Circular RaopRtpSyncData

def rtpClockInit : RtpClock where
  rtpSyncOffset := 0
  syncData := ⟨List.replicate raopRtpSyncDataCount ⟨0, 0⟩, 0⟩

/-- The sum of the offsets of the entries that are set, and their number. -/
def syncTotals (rtpScaled : UInt32 → UInt64) (syncData : List RaopRtpSyncData) : Int64 × ℕ :=
  (syncData.filter (·.ntpTime ≠ 0)).foldl (fun (totalOffsets, validDataCount) d =>
    (totalOffsets + (rtpScaled d.rtpTime - d.ntpTime).toInt64, validDataCount + 1)) (0, 0)

/-- `none` is a division by zero. -/
def raopRtpSyncClock (rtpScaled : UInt32 → UInt64) (clock : RtpClock) (rtpTime : UInt32)
    (ntpTime : UInt64) : Option RtpClock :=
  let syncData := push clock.syncData ⟨ntpTime, rtpTime⟩
  let (totalOffsets, validDataCount) := syncTotals rtpScaled syncData.entries
  if validDataCount = 0 then none
  else some ⟨totalOffsets / Int64.ofNat validDataCount, syncData⟩

def raopRtpConvertRtpTime (rtpScaled : UInt32 → UInt64) (clock : RtpClock) (rtpTime : UInt32) :
    UInt64 :=
  rtpScaled rtpTime - clock.rtpSyncOffset.toUInt64

/-! ## The state -/

/-- Where the audio thread is. -/
inductive RtpPoint
  | absent
  | top
  /-- Out of the critical section of `raop_rtp_process_events` with what it took. -/
  | handling (taken : RtpMailbox) (since : List RtpRequest)
  | selecting
  /-- The control socket is to be read, and the data socket after it if `data` is set. -/
  | control (data : Bool)
  | data
  /-- Out of the loop, `running` not yet cleared. -/
  | leaving
  | ended
  /-- Stopped by a failed assertion or a division by zero. -/
  | aborted

structure RaopRtp where
  callbacks : RaopCallbacks
  clock : RtpClock
  buffer : RaopBuffer
  running : Bool
  joined : Bool
  /-- A stop waits for the thread. -/
  joining : Bool
  mailbox : RtpMailbox
  controlRport : BitVec 16
  controlSaddr : Bytes
  controlSeqnum : BitVec 16
  point : RtpPoint
  packet : Bytes
  /-- What was posted since the mailbox was taken; the source does not keep it. -/
  since : List RtpRequest

def raopRtpInit (P : Openssl) (callbacks : RaopCallbacks) (aeskey aesiv ecdhSecret : Bytes) :
    RaopRtp where
  callbacks := callbacks
  clock := rtpClockInit
  buffer := raopBufferInit P aeskey aesiv ecdhSecret
  running := false
  joined := true
  joining := false
  mailbox := rtpMailboxInit
  controlRport := 0
  controlSaddr := []
  controlSeqnum := 0
  point := .absent
  packet := []
  since := []

/-- `raop_rtp_start_audio`; `sockets` tells whether the sockets can be opened, and the packet array of
the new thread is not initialised. -/
def raopRtpStartAudio (rtp : RaopRtp) (controlRport : BitVec 16) (sockets : Bool)
    (garbage : Bytes) : RaopRtp :=
  if rtp.running || !rtp.joined then rtp
  else if sockets then
    { rtp with
      controlRport
      running := true
      joined := false
      point := .top
      packet := garbage }
  else { rtp with controlRport }

inductive RtpEvent
  /-- The mailbox was taken after `since` and this was done; the buffer before and after it. -/
  | processed (since : List RtpRequest) (actions : List RtpAction) (before after : RaopBuffer)
  /-- `aacDecoder->enqueue`, and the sequence number of the packet. -/
  | decode (seqnum : BitVec 16) (packet : AacDecodeStruct)
  /-- `audio_process`. -/
  | render (packet : AacDecodeStruct)
  /-- A resend request was sent to the control socket of the client. -/
  | resend (addr packet : Bytes)

/-! ## Datagrams -/

/-- What `recvfrom` delivers; it fails on a datagram that does not fit and keeps what fits. -/
inductive Received
  | error
  | datagram (bytes : Bytes)

/-- The packet array after `recvfrom`, and `packetlen`, where -1 is `2^32 - 1`. -/
def recvfrom (packet : Bytes) : Received → Bytes × ℕ
  | .error => (packet, 2 ^ 32 - 1)
  | .datagram bytes =>
    if bytes.length ≤ raopPacketLen then (writeAt packet 0 bytes, bytes.length)
    else (writeAt packet 0 (bytes.take raopPacketLen), 2 ^ 32 - 1)

/-- `packet[1] & ~0x80`. -/
def packetType (packet : Bytes) : UInt8 := byteAt packet 1 &&& 0x7f

/-- Four bytes in network order. -/
def rtpTimestamp (packet : Bytes) (offset : ℕ) : UInt32 :=
  UInt32.ofBitVec ((byteAt packet offset).toBitVec ++ (byteAt packet (offset + 1)).toBitVec ++
    (byteAt packet (offset + 2)).toBitVec ++ (byteAt packet (offset + 3)).toBitVec)

/-- The arguments of a packet for `raop_buffer_enqueue`: `packet` and its length as an
`unsigned short`. -/
structure Enqueued where
  data : Bytes
  datalen : BitVec 16
  timestamp : UInt64

def resentPacket (rtpScaled : UInt32 → UInt64) (clock : RtpClock) (packet : Bytes)
    (packetlen : ℕ) : Enqueued where
  data := packet.drop 4
  datalen := BitVec.ofNat 16 (packetlen + 2 ^ 32 - 4)
  timestamp := raopRtpConvertRtpTime rtpScaled clock (rtpTimestamp packet 8)

def dataPacket (rtpScaled : UInt32 → UInt64) (clock : RtpClock) (packet : Bytes)
    (packetlen : ℕ) : Enqueued where
  data := packet
  datalen := BitVec.ofNat 16 packetlen
  timestamp := raopRtpConvertRtpTime rtpScaled clock (rtpTimestamp packet 4)

def enqueuePacket (P : Openssl) (buffer : RaopBuffer) (packet : Enqueued)
    (entry : RaopBufferEntry) : EnqueueResult :=
  raopBufferEnqueue P buffer packet.data packet.datalen packet.timestamp true entry

/-- `FDKAACDecoder::enqueue`; `fill` tells whether `aacDecoder_Fill` takes the payload. After a
successful fill control falls off the end of the function; the result is taken to be the one that
was just tested, `AAC_DEC_OK`. -/
def fdkaacEnqueue (bufferSize : ℕ) (fill : Bool) : Bool := bufferSize ≠ 0 && fill

/-- The arguments of `aacDecoder->enqueue`. -/
def decoderInput (entry : RaopBufferEntry) : AacDecodeStruct where
  dataLen := entry.payloadSize
  data := (entry.payloadData.map Block.bytes).getD []
  pts := entry.timestamp

/-- What became of a packet that went through `raop_buffer_enqueue` and the decoder. -/
inductive Decoded
  | aborted
  | refused
  | done

/-- A packet goes into the buffer, and to the decoder if the buffer took it. -/
def decodePacket (P : Openssl) (rtp : RaopRtp) (packet : Enqueued) (entry : RaopBufferEntry)
    (fill : Bool) : Decoded × RaopBuffer × List RtpEvent :=
  let r := enqueuePacket P rtp.buffer packet entry
  if r.ret < 0 then (.aborted, r.raopBuffer, [])
  else if 0 < r.ret then
    let decode := .decode (packetSeqnum packet.data) (decoderInput r.bufferEntry)
    if fdkaacEnqueue r.bufferEntry.payloadSize fill then (.done, r.raopBuffer, [decode])
    else (.refused, r.raopBuffer, [decode])
  else (.done, r.raopBuffer, [])

def raopRtpResendCallback (rtp : RaopRtp) (seqnum count : BitVec 16) : RaopRtp × List RtpEvent :=
  let bytes (n : BitVec 16) : Bytes := [UInt8.ofNat (n.toNat / 2 ^ 8), UInt8.ofNat n.toNat]
  let packet := [0x80, 0x55 ||| 0x80] ++ bytes rtp.controlSeqnum ++ bytes seqnum ++ bytes count
  ({ rtp with controlSeqnum := rtp.controlSeqnum + 1 }, [.resend rtp.controlSaddr packet])

/-- The drain loop and the resend requests after a packet of the data socket. -/
def renderPackets (rtp : RaopRtp) : RaopRtp × List RtpEvent :=
  let noResend : Bool := rtp.controlRport = 0
  let drained := drain noResend rtp.buffer
  let rtp := { rtp with buffer := drained.2 }
  let rendered := drained.1.map RtpEvent.render
  if noResend then (rtp, rendered)
  else
    match raopBufferHandleResends rtp.buffer with
    | some (seqnum, count) =>
      let r := raopRtpResendCallback rtp seqnum count
      (r.1, rendered ++ r.2)
    | none => (rtp, rendered)

/-! ## The steps -/

/-- What surrounds a read: the bytes of the sender's address, the uninitialised entry, the offset of
the `raop_ntp` and whether the decoder takes the payload. -/
structure Surroundings where
  saddr : Bytes
  entry : RaopBufferEntry
  syncOffset : UInt64
  fill : Bool

inductive RtpLabel
  -- the control thread
  | post (request : RtpRequest)
  | start (controlRport : BitVec 16) (sockets : Bool) (garbage : Bytes)
  | stop
  | join
  -- the audio thread
  | takeMailbox
  | handleMailbox
  | timeout
  | selectError
  | ready (control data : Bool)
  | receiveControl (received : Received) (around : Surroundings)
  | receiveData (received : Received) (around : Surroundings)
  | leave

/-- The labels of the audio thread. -/
def RtpLabel.ofThread : RtpLabel → Bool
  | .post _ | .start .. | .stop | .join => false
  | _ => true

/-- The body of the loop for the control socket, from `recvfrom` on; `next` is where it goes on. -/
def receiveControl (P : Openssl) (rtpScaled : UInt32 → UInt64) (rtp : RaopRtp) (next : RtpPoint)
    (received : Received) (around : Surroundings) : RaopRtp × List RtpEvent :=
  let (packet, packetlen) := recvfrom rtp.packet received
  let rtp := { rtp with packet, controlSaddr := around.saddr }
  if packetType packet = 0x56 then
    match decodePacket P rtp (resentPacket rtpScaled rtp.clock packet packetlen) around.entry
      around.fill with
    | (.aborted, buffer, events) => ({ rtp with buffer, point := .aborted }, events)
    | (.refused, buffer, events) => ({ rtp with buffer, running := false, point := .ended }, events)
    | (.done, buffer, events) => ({ rtp with buffer, point := next }, events)
  else if packetType packet = 0x54 ∧ 20 ≤ packetlen then
    let syncRtp := UInt32.ofNat (byteutilsGetIntBe packet 4) - 11025
    let syncNtpRemote :=
      raopNtpTimestampToMicroSeconds (UInt64.ofNat (byteutilsGetLongBe packet 8)) true
    let syncNtpLocal := raopNtpConvertRemoteTime around.syncOffset syncNtpRemote
    match raopRtpSyncClock rtpScaled rtp.clock syncRtp syncNtpLocal with
    | some clock => ({ rtp with clock, point := next }, [])
    | none => ({ rtp with point := .aborted }, [])
  else ({ rtp with point := next }, [])

/-- The body of the loop for the data socket. -/
def receiveData (P : Openssl) (rtpScaled : UInt32 → UInt64) (rtp : RaopRtp) (received : Received)
    (around : Surroundings) : RaopRtp × List RtpEvent :=
  let (packet, packetlen) := recvfrom rtp.packet received
  let rtp := { rtp with packet }
  if 12 ≤ packetlen then
    match decodePacket P rtp (dataPacket rtpScaled rtp.clock packet packetlen) around.entry
      around.fill with
    | (.aborted, buffer, events) => ({ rtp with buffer, point := .aborted }, events)
    | (.refused, buffer, events) => ({ rtp with buffer, running := false, point := .ended }, events)
    | (.done, buffer, events) =>
      let r := renderPackets { rtp with buffer, point := .top }
      (r.1, events ++ r.2)
  else ({ rtp with point := .top }, [])

def rtpStep (P : Openssl) (rtpScaled : UInt32 → UInt64) (rtp : RaopRtp) :
    RtpLabel → Option (RaopRtp × List RtpEvent)
  | .post request =>
    some ({ rtp with mailbox := request.post rtp.mailbox, since := rtp.since ++ [request] }, [])
  | .start controlRport sockets garbage =>
    if rtp.joining ∨ garbage.length ≠ raopPacketLen then none
    else some (raopRtpStartAudio rtp controlRport sockets garbage, [])
  | .stop =>
    if rtp.joining then none
    else if !rtp.running || rtp.joined then some (rtp, [])
    else some ({ rtp with running := false, joining := true }, [])
  | .join =>
    match rtp.joining, rtp.point with
    | true, .ended =>
      some ({ rtp with
        joined := true
        joining := false
        point := .absent
        buffer := raopBufferFlush rtp.buffer (-1) }, [])
    | _, _ => none
  | .takeMailbox =>
    match rtp.point with
    | .top =>
      if rtp.running then
        some ({ rtp with
          mailbox := clearMailbox rtp.mailbox
          since := []
          point := .handling rtp.mailbox rtp.since }, [])
      else some ({ rtp with point := .leaving }, [])
    | _ => none
  | .handleMailbox =>
    match rtp.point with
    | .handling taken since =>
      let actions := raopRtpProcessEvents rtp.callbacks taken
      let buffer := actions.foldl RtpAction.onBuffer rtp.buffer
      some ({ rtp with buffer, point := .selecting },
        [.processed since actions rtp.buffer buffer])
    | _ => none
  | .timeout =>
    match rtp.point with
    | .selecting => some ({ rtp with point := .top }, [])
    | _ => none
  | .selectError =>
    match rtp.point with
    | .selecting => some ({ rtp with point := .leaving }, [])
    | _ => none
  | .ready control data =>
    match rtp.point, control, data with
    | .selecting, true, _ => some ({ rtp with point := .control data }, [])
    | .selecting, false, true => some ({ rtp with point := .data }, [])
    | _, _, _ => none
  | .receiveControl received around =>
    match rtp.point with
    | .control data =>
      some (receiveControl P rtpScaled rtp (if data then .data else .top) received around)
    | _ => none
  | .receiveData received around =>
    match rtp.point with
    | .data => some (receiveData P rtpScaled rtp received around)
    | _ => none
  | .leave =>
    match rtp.point with
    | .leaving => some ({ rtp with running := false, point := .ended }, [])
    | _ => none

/-- What a step can be. The thread goes on where nothing but its place, and `running` at the end of
the loop, changes. -/
inductive RtpMove (P : Openssl) (rtpScaled : UInt32 → UInt64) (rtp : RaopRtp) :
    RtpLabel → RaopRtp × List RtpEvent → Prop
  | post (request : RtpRequest) :
    RtpMove P rtpScaled rtp (.post request)
      ({ rtp with mailbox := request.post rtp.mailbox, since := rtp.since ++ [request] }, [])
  | start (controlRport : BitVec 16) (sockets : Bool) (garbage : Bytes) :
    RtpMove P rtpScaled rtp (.start controlRport sockets garbage)
      (raopRtpStartAudio rtp controlRport sockets garbage, [])
  | stopEarly : RtpMove P rtpScaled rtp .stop (rtp, [])
  | stop : RtpMove P rtpScaled rtp .stop ({ rtp with running := false, joining := true }, [])
  | join :
    RtpMove P rtpScaled rtp .join
      ({ rtp with
        joined := true
        joining := false
        point := .absent
        buffer := raopBufferFlush rtp.buffer (-1) }, [])
  | takeMailbox :
    RtpMove P rtpScaled rtp .takeMailbox
      ({ rtp with
        mailbox := clearMailbox rtp.mailbox
        since := []
        point := .handling rtp.mailbox rtp.since }, [])
  | handleMailbox (taken : RtpMailbox) (since : List RtpRequest)
    (hpoint : rtp.point = .handling taken since) :
    RtpMove P rtpScaled rtp .handleMailbox
      ({ rtp with
        buffer := (raopRtpProcessEvents rtp.callbacks taken).foldl RtpAction.onBuffer rtp.buffer
        point := .selecting },
        [.processed since (raopRtpProcessEvents rtp.callbacks taken) rtp.buffer
          ((raopRtpProcessEvents rtp.callbacks taken).foldl RtpAction.onBuffer rtp.buffer)])
  | goOn (label : RtpLabel) (hlabel : label ≠ .handleMailbox) (running : Bool) (point : RtpPoint)
    (hpoint : ∀ taken since, point ≠ .handling taken since) :
    RtpMove P rtpScaled rtp label ({ rtp with running, point }, [])
  | receiveControl (data : Bool) (received : Received) (around : Surroundings) :
    RtpMove P rtpScaled rtp (.receiveControl received around)
      (receiveControl P rtpScaled rtp (if data then .data else .top) received around)
  | receiveData (received : Received) (around : Surroundings) :
    RtpMove P rtpScaled rtp (.receiveData received around)
      (receiveData P rtpScaled rtp received around)

theorem rtpMove_of_step {P : Openssl} {rtpScaled : UInt32 → UInt64} {rtp : RaopRtp}
    {label : RtpLabel} {r : RaopRtp × List RtpEvent} (hr : rtpStep P rtpScaled rtp label = some r) :
    RtpMove P rtpScaled rtp label r := by
  cases label with
  | post request =>
    cases hr
    exact .post request
  | start controlRport sockets garbage =>
    simp only [rtpStep, Option.ite_none_left_eq_some, Option.some.injEq] at hr
    obtain ⟨-, rfl⟩ := hr
    exact .start controlRport sockets garbage
  | stop =>
    simp only [rtpStep, Option.ite_none_left_eq_some] at hr
    obtain ⟨-, hr⟩ := hr
    split at hr <;> cases hr
    · exact .stopEarly
    · exact .stop
  | join =>
    simp only [rtpStep] at hr
    split at hr <;> cases hr
    exact .join
  | takeMailbox =>
    simp only [rtpStep] at hr
    split at hr
    · split at hr <;> cases hr
      · exact .takeMailbox
      · exact .goOn _ (by simp) _ _ (by simp)
    · cases hr
  | handleMailbox =>
    simp only [rtpStep] at hr
    split at hr <;> cases hr
    next taken since hpoint => exact .handleMailbox taken since hpoint
  | timeout | selectError | leave =>
    simp only [rtpStep] at hr
    split at hr <;> cases hr
    exact .goOn _ (by simp) _ _ (by simp)
  | ready control data =>
    simp only [rtpStep] at hr
    split at hr <;> cases hr <;> exact .goOn _ (by simp) _ _ (by simp)
  | receiveControl received around =>
    simp only [rtpStep] at hr
    split at hr <;> cases hr
    exact .receiveControl _ received around
  | receiveData received around =>
    simp only [rtpStep] at hr
    split at hr <;> cases hr
    exact .receiveData received around

end WinAirPlay
