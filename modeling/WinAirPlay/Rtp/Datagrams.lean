import WinAirPlay.Rtp.Agreement
import WinAirPlay.Rtp.SyncClock

/-! # What a datagram can do to the audio thread

The thread looks at the packet array before it looks at the length of what `recvfrom` has put there.
A datagram is handled as it should be if the thread stays in its loop and does the same whatever the
array held before (`ReadRight`). This fails for an error of `recvfrom`, for datagrams that are too
short for their class, for a packet without payload that the buffer takes, and for a sync packet that
leaves no entry set (`ReadSafe`).
-/

namespace WinAirPlay
open Foundations.ByteBuffer Foundations.Transition
set_option autoImplicit false

def withoutPacket (rtp : RaopRtp) : RaopRtp := { rtp with packet := [] }

/-- The outcome without the packet array. -/
def forgetPacket (r : RaopRtp × List RtpEvent) : RaopRtp × List RtpEvent := r.map withoutPacket id

/-- The label without what the array of a new thread holds. -/
def forgetGarbage : RtpLabel → RtpLabel
  | .start controlRport sockets garbage =>
    .start controlRport sockets (List.replicate garbage.length 0)
  | label => label

/-- What `recvfrom` can give: an error, or a datagram that fits the array. -/
def Received.Fits : Received → Prop
  | .error => True
  | .datagram bytes => bytes.length ≤ raopPacketLen

def RtpLabel.IsRead : RtpLabel → Prop
  | .receiveControl .. | .receiveData .. => True
  | _ => False

/-- The decoder takes every payload that is not empty. -/
def RtpLabel.Assumed : RtpLabel → Prop
  | .receiveControl received around | .receiveData received around =>
    received.Fits ∧ around.fill = true
  | _ => True

/-- The thread is in its loop. -/
def RtpPoint.InLoop (point : RtpPoint) : Prop := point ≠ .aborted ∧ point ≠ .ended

/-- The thread does not leave its loop, and what the array held before does not count. -/
structure ReadRight (P : Openssl) (rtpScaled : UInt32 → UInt64) (rtp : RaopRtp)
    (label : RtpLabel) : Prop where
  inLoop : ∀ r, rtpStep P rtpScaled rtp label = some r → r.1.point.InLoop
  fresh : ∀ stale, stale.length = raopPacketLen →
    (rtpStep P rtpScaled { rtp with packet := stale } label).map forgetPacket =
      (rtpStep P rtpScaled rtp label).map forgetPacket

/-- Every read of the run is as it should be, and a run that differs from it only in what the array
held before does the same. -/
structure ReadsRight (P : Openssl) (rtpScaled : UInt32 → UInt64) (rtp : RaopRtp)
    (labels : List RtpLabel) : Prop where
  reads : Along (rtpStep P rtpScaled) (fun rtp label => label.IsRead →
    ReadRight P rtpScaled rtp label) rtp labels
  runs : ∀ labels', labels.map forgetGarbage = labels'.map forgetGarbage →
    (run (rtpStep P rtpScaled) rtp labels).map withoutPacket =
        (run (rtpStep P rtpScaled) rtp labels').map withoutPacket ∧
      events (rtpStep P rtpScaled) rtp labels = events (rtpStep P rtpScaled) rtp labels'

/-- The conditions on a datagram of the control socket. -/
structure ControlSafe (rtpScaled : UInt32 → UInt64) (rtp : RaopRtp) (syncOffset : UInt64)
    (bytes : Bytes) : Prop where
  typed : 2 ≤ bytes.length
  resent : packetType bytes = 0x56 → 16 ≤ bytes.length ∧ (bytes.length = 16 →
    ¬ Enters rtp.buffer (resentPacket rtpScaled rtp.clock bytes bytes.length))
  sync : packetType bytes = 0x54 → 20 ≤ bytes.length →
    ∃ d ∈ syncRing rtp.clock (receivedSync bytes syncOffset), d.ntpTime ≠ 0

/-- A datagram of the data socket is no packet, or has a payload or is not taken. -/
def DataSafe (rtpScaled : UInt32 → UInt64) (rtp : RaopRtp) (bytes : Bytes) : Prop :=
  bytes.length = 12 → ¬ Enters rtp.buffer (dataPacket rtpScaled rtp.clock bytes bytes.length)

def ReadSafe (rtpScaled : UInt32 → UInt64) (rtp : RaopRtp) : RtpLabel → Prop
  | .receiveControl (.datagram bytes) around => ControlSafe rtpScaled rtp around.syncOffset bytes
  | .receiveData (.datagram bytes) _ => DataSafe rtpScaled rtp bytes
  | .receiveControl .error _ | .receiveData .error _ => False
  | _ => True

/-! ## Only the bytes of the packet count -/

section
variable {P : Openssl} {b : RaopBuffer}

theorem raopBufferDecrypt_congr {data data' : Bytes} {n : ℕ}
    (h : data.take (12 + n) = data'.take (12 + n)) :
    raopBufferDecrypt P b data n = raopBufferDecrypt P b data' n := by
  have hle : n / 16 * 16 ≤ n := Nat.div_mul_le_self n 16
  unfold raopBufferDecrypt
  dsimp only
  rw [slice_congr h (by omega), slice_congr h (by omega : 12 + n / 16 * 16 + (n - n / 16 * 16) ≤ _)]

theorem raopBufferEnqueue_congr {data data' : Bytes} {datalen : BitVec 16}
    (h : data.take datalen.toNat = data'.take datalen.toNat) (hlen : 12 ≤ datalen.toNat)
    (timestamp : UInt64) (entry : RaopBufferEntry) :
    raopBufferEnqueue P b data datalen timestamp true entry =
      raopBufferEnqueue P b data' datalen timestamp true entry := by
  have hseq : packetSeqnum data = packetSeqnum data' := by
    rw [packetSeqnum, packetSeqnum, byteAt_congr h (by omega), byteAt_congr h (by omega)]
  have hnodata : isNoDataPacket data datalen = isNoDataPacket data' datalen := by
    unfold isNoDataPacket
    by_cases h16 : datalen.toNat = 16
    · rw [byteAt_congr h (by omega), byteAt_congr h (by omega), byteAt_congr h (by omega),
        byteAt_congr h (by omega)]
    · have hfalse : (datalen.toNat == 16) = false := beq_false_of_ne h16
      rw [hfalse]
      rfl
  have hdecrypt : ∀ b : RaopBuffer, raopBufferDecrypt P b data (datalen.toNat - 12) =
      raopBufferDecrypt P b data' (datalen.toNat - 12) := fun b =>
    raopBufferDecrypt_congr (by rw [show 12 + (datalen.toNat - 12) = datalen.toNat by omega, h])
  unfold raopBufferEnqueue storePacket
  simp only [hseq, hnodata, hdecrypt]

theorem enqueue_ret_neg_iff (packet : Enqueued) (entry : RaopBufferEntry) :
    (enqueuePacket P b packet entry).ret < 0 ↔
      ¬ (12 ≤ packet.datalen.toNat ∧ packet.datalen.toNat ≤ raopPacketLen) := by
  unfold enqueuePacket raopBufferEnqueue
  by_cases hlen : packet.datalen.toNat < 12 ∨ raopPacketLen < packet.datalen.toNat
  · rw [if_pos hlen]
    refine iff_of_true (by show (-1 : ℤ) < 0; decide) ?_
    omega
  · rw [if_neg hlen]
    refine iff_of_false ?_ (by omega)
    dsimp only
    split_ifs <;> simp [storePacket]

theorem enqueue_payloadSize {packet : Enqueued} {entry : RaopBufferEntry}
    (hret : (enqueuePacket P b packet entry).ret = 1) :
    (enqueuePacket P b packet entry).bufferEntry.payloadSize = packet.datalen.toNat - 12 := by
  rcases enqueue_cases P b packet.data packet.datalen packet.timestamp entry with
    ⟨hne, -⟩ | ⟨-, hacc⟩
  · exact absurd hret hne
  · have hresult : enqueuePacket P b packet entry = _ := hacc.result
    rw [hresult]
    rfl

/-- A packet is done with if its length is right and it has a payload or is not taken. -/
theorem decodePacket_done_iff (rtp : RaopRtp) (packet : Enqueued) (entry : RaopBufferEntry) :
    (decodePacket P rtp packet entry true).1 = .done ↔
      (12 ≤ packet.datalen.toNat ∧ packet.datalen.toNat ≤ raopPacketLen) ∧
        (packet.datalen.toNat = 12 → ¬ Enters rtp.buffer packet) := by
  have hneg := enqueue_ret_neg_iff (P := P) (b := rtp.buffer) packet entry
  have henters := enters_iff_ret P rtp.buffer packet entry
  have hle := enqueue_ret_le P rtp.buffer packet entry
  unfold decodePacket
  by_cases hlen : 12 ≤ packet.datalen.toNat ∧ packet.datalen.toNat ≤ raopPacketLen
  · have hnonneg : ¬ (enqueuePacket P rtp.buffer packet entry).ret < 0 := fun h =>
      hneg.mp h hlen
    simp only [if_neg hnonneg]
    by_cases hret : (enqueuePacket P rtp.buffer packet entry).ret = 1
    · have hpos : 0 < (enqueuePacket P rtp.buffer packet entry).ret := by omega
      have hsize := enqueue_payloadSize hret
      rw [if_pos hpos, fdkaacEnqueue, hsize]
      by_cases hempty : packet.datalen.toNat = 12
      · simp [hempty, henters.mpr hret]
      · have hne : packet.datalen.toNat - 12 ≠ 0 := by omega
        simp [hne, hempty, hlen]
    · have hzero : ¬ 0 < (enqueuePacket P rtp.buffer packet entry).ret := by omega
      rw [if_neg hzero]
      exact iff_of_true rfl ⟨hlen, fun _ => fun h => hret (henters.mp h)⟩
  · rw [if_pos (hneg.mpr hlen)]
    exact iff_of_false (by simp) fun h => hlen h.1

theorem decodePacket_congr {rtp rtp' : RaopRtp} (hbuffer : rtp.buffer = rtp'.buffer)
    {packet packet' : Enqueued} (hdatalen : packet.datalen = packet'.datalen)
    (htimestamp : packet.timestamp = packet'.timestamp)
    (hdata : packet.data.take packet.datalen.toNat = packet'.data.take packet.datalen.toNat)
    (hlen : 12 ≤ packet.datalen.toNat) (entry : RaopBufferEntry) (fill : Bool) :
    decodePacket P rtp packet entry fill = decodePacket P rtp' packet' entry fill := by
  have hseq : packetSeqnum packet.data = packetSeqnum packet'.data := by
    rw [packetSeqnum, packetSeqnum, byteAt_congr hdata (by omega), byteAt_congr hdata (by omega)]
  have henqueue : enqueuePacket P rtp.buffer packet entry =
      enqueuePacket P rtp'.buffer packet' entry := by
    rw [enqueuePacket, enqueuePacket, ← hbuffer, ← hdatalen, ← htimestamp,
      raopBufferEnqueue_congr hdata hlen]
  unfold decodePacket
  rw [henqueue, hseq]

end

/-! ## The packet array after a datagram -/

section
variable {packet bytes : Bytes}

theorem recvfrom_datagram (hbytes : bytes.length ≤ raopPacketLen) :
    recvfrom packet (.datagram bytes) = (writeAt packet 0 bytes, bytes.length) := if_pos hbytes

theorem take_array : (writeAt packet 0 bytes).take bytes.length = bytes.take bytes.length := by
  have h : (writeAt packet 0 bytes).take (0 + bytes.length) = packet.take 0 ++ bytes :=
    take_writeAt (Nat.zero_le _)
  rw [Nat.zero_add] at h
  rw [h, List.take_zero, List.nil_append, List.take_length]

theorem packetType_array (hlen : 2 ≤ bytes.length) :
    packetType (writeAt packet 0 bytes) = packetType bytes := by
  rw [packetType, packetType, byteAt_congr take_array (by omega)]

theorem rtpTimestamp_array {offset : ℕ} (hlen : offset + 4 ≤ bytes.length) :
    rtpTimestamp (writeAt packet 0 bytes) offset = rtpTimestamp bytes offset := by
  rw [rtpTimestamp, rtpTimestamp, byteAt_congr take_array (by omega),
    byteAt_congr take_array (by omega), byteAt_congr take_array (by omega),
    byteAt_congr take_array (by omega)]

theorem byteutilsGetInt_array {offset : ℕ} (hlen : offset + 4 ≤ bytes.length) :
    byteutilsGetInt (writeAt packet 0 bytes) offset = byteutilsGetInt bytes offset := by
  unfold byteutilsGetInt byteutilsGetShort
  rw [byteAt_congr take_array (by omega), byteAt_congr take_array (by omega),
    byteAt_congr take_array (by omega), byteAt_congr take_array (by omega)]

theorem receivedSync_array (hlen : 20 ≤ bytes.length) (syncOffset : UInt64) :
    receivedSync (writeAt packet 0 bytes) syncOffset = receivedSync bytes syncOffset := by
  unfold receivedSync byteutilsGetIntBe byteutilsGetLongBe byteutilsGetLong
  rw [byteutilsGetInt_array (by omega), byteutilsGetInt_array (by omega),
    byteutilsGetInt_array (by omega)]

theorem resentPacket_datalen (rtpScaled : UInt32 → UInt64) (clock : RtpClock) (packet : Bytes)
    {n : ℕ} (hlen : 4 ≤ n) (hn : n ≤ raopPacketLen) :
    (resentPacket rtpScaled clock packet n).datalen.toNat = n - 4 := by
  have hn : n ≤ 32768 := hn
  rw [resentPacket, BitVec.toNat_ofNat]
  omega

theorem dataPacket_datalen (rtpScaled : UInt32 → UInt64) (clock : RtpClock) (packet : Bytes)
    {n : ℕ} (hn : n ≤ raopPacketLen) : (dataPacket rtpScaled clock packet n).datalen.toNat = n := by
  have hn : n ≤ 32768 := hn
  rw [dataPacket, BitVec.toNat_ofNat]
  omega

variable {P : Openssl} {rtpScaled : UInt32 → UInt64}

theorem decode_resent {rtp rtp' : RaopRtp} (hbuffer : rtp.buffer = rtp'.buffer)
    (hlen : 16 ≤ bytes.length) (hbytes : bytes.length ≤ raopPacketLen) (clock : RtpClock)
    (entry : RaopBufferEntry) (fill : Bool) :
    decodePacket P rtp (resentPacket rtpScaled clock (writeAt packet 0 bytes) bytes.length) entry
        fill =
      decodePacket P rtp' (resentPacket rtpScaled clock bytes bytes.length) entry fill := by
  have hdatalen := resentPacket_datalen rtpScaled clock (writeAt packet 0 bytes)
    (n := bytes.length) (by omega) hbytes
  refine decodePacket_congr hbuffer ?_ ?_ ?_ ?_ entry fill
  · simp only [resentPacket]
  · simp only [resentPacket]
    rw [rtpTimestamp_array (by omega)]
  · rw [hdatalen]
    exact drop_congr take_array 4
  · omega

theorem decode_data {rtp rtp' : RaopRtp} (hbuffer : rtp.buffer = rtp'.buffer)
    (hlen : 12 ≤ bytes.length) (hbytes : bytes.length ≤ raopPacketLen) (clock : RtpClock)
    (entry : RaopBufferEntry) (fill : Bool) :
    decodePacket P rtp (dataPacket rtpScaled clock (writeAt packet 0 bytes) bytes.length) entry
        fill =
      decodePacket P rtp' (dataPacket rtpScaled clock bytes bytes.length) entry fill := by
  have hdatalen := dataPacket_datalen rtpScaled clock (writeAt packet 0 bytes)
    (n := bytes.length) hbytes
  refine decodePacket_congr hbuffer ?_ ?_ ?_ ?_ entry fill
  · simp only [dataPacket]
  · simp only [dataPacket]
    rw [rtpTimestamp_array (by omega)]
  · rw [hdatalen]
    exact take_array
  · omega

end

/-! ## After the decoder -/

/-- How the thread goes on after `decodePacket`; `done` is what it does if nothing went wrong. -/
def afterDecoded (rtp : RaopRtp) (done : RaopBuffer → List RtpEvent → RaopRtp × List RtpEvent) :
    Decoded × RaopBuffer × List RtpEvent → RaopRtp × List RtpEvent
  | (.aborted, buffer, events) => ({ rtp with buffer, point := .aborted }, events)
  | (.refused, buffer, events) => ({ rtp with buffer, running := false, point := .ended }, events)
  | (.done, buffer, events) => done buffer events

/-- The control socket is done with. -/
def afterResent (rtp : RaopRtp) (next : RtpPoint) (buffer : RaopBuffer) (events : List RtpEvent) :
    RaopRtp × List RtpEvent :=
  ({ rtp with buffer, point := next }, events)

/-- The drain loop and the resend requests come next. -/
def afterData (rtp : RaopRtp) (buffer : RaopBuffer) (events : List RtpEvent) :
    RaopRtp × List RtpEvent :=
  let r := renderPackets { rtp with buffer, point := .top }
  (r.1, events ++ r.2)

theorem inLoop_top : RtpPoint.InLoop .top := ⟨by simp, by simp⟩

theorem afterDecoded_inLoop_iff {rtp : RaopRtp}
    {done : RaopBuffer → List RtpEvent → RaopRtp × List RtpEvent}
    (hdone : ∀ buffer events, (done buffer events).1.point.InLoop)
    (decoded : Decoded × RaopBuffer × List RtpEvent) :
    (afterDecoded rtp done decoded).1.point.InLoop ↔ decoded.1 = .done := by
  obtain ⟨result, buffer, events⟩ := decoded
  cases result with
  | aborted => exact iff_of_false (fun h => h.1 rfl) (by simp)
  | refused => exact iff_of_false (fun h => h.2 rfl) (by simp)
  | done => exact iff_of_true (hdone buffer events) rfl

theorem afterData_inLoop (rtp : RaopRtp) (buffer : RaopBuffer) (events : List RtpEvent) :
    (afterData rtp buffer events).1.point.InLoop := by
  obtain ⟨-, -, -, -, -, hpoint⟩ := renderPackets_frame { rtp with buffer, point := .top }
  show (renderPackets { rtp with buffer, point := .top }).1.point.InLoop
  rw [hpoint]
  exact inLoop_top

theorem renderPackets_packet (rtp : RaopRtp) (packet : Bytes) :
    renderPackets { rtp with packet } =
      ({ (renderPackets rtp).1 with packet }, (renderPackets rtp).2) := by
  unfold renderPackets
  dsimp only
  cases decide (rtp.controlRport = 0) with
  | true => rfl
  | false => cases raopBufferHandleResends (drain false rtp.buffer).2 <;> rfl

theorem afterData_packet (rtp : RaopRtp) (packet : Bytes) (buffer : RaopBuffer)
    (events : List RtpEvent) :
    forgetPacket (afterData { rtp with packet } buffer events) =
      forgetPacket (afterData rtp buffer events) := by
  have hrender := renderPackets_packet { rtp with buffer, point := .top } packet
  unfold afterData
  dsimp only at hrender ⊢
  rw [hrender]
  rfl

/-! ## The control socket -/

section
variable {P : Openssl} {rtpScaled : UInt32 → UInt64} {rtp : RaopRtp} {next : RtpPoint}
  {received : Received} {around : Surroundings} {bytes : Bytes}

theorem receiveControl_resent
    (htype : packetType (recvfrom rtp.packet received).1 = 0x56) :
    receiveControl P rtpScaled rtp next received around =
      afterDecoded
        { rtp with packet := (recvfrom rtp.packet received).1, controlSaddr := around.saddr }
        (afterResent
          { rtp with packet := (recvfrom rtp.packet received).1, controlSaddr := around.saddr } next)
        (decodePacket P
          { rtp with packet := (recvfrom rtp.packet received).1, controlSaddr := around.saddr }
          (resentPacket rtpScaled rtp.clock (recvfrom rtp.packet received).1
            (recvfrom rtp.packet received).2) around.entry around.fill) := by
  unfold receiveControl
  dsimp only
  rw [if_pos htype]
  split <;> rename_i heq <;> rw [heq] <;> rfl

theorem receiveControl_other
    (hresent : packetType (recvfrom rtp.packet received).1 ≠ 0x56)
    (hsync : ¬ (packetType (recvfrom rtp.packet received).1 = 0x54 ∧
      20 ≤ (recvfrom rtp.packet received).2)) :
    receiveControl P rtpScaled rtp next received around =
      ({ rtp with
        packet := (recvfrom rtp.packet received).1
        controlSaddr := around.saddr
        point := next }, []) := by
  unfold receiveControl
  dsimp only
  rw [if_neg hresent, if_neg hsync]

/-- An error, or a datagram of fewer than 16 bytes that is taken for a resent packet, fails the
assertion. -/
theorem receiveControl_aborted (hnext : next.InLoop)
    (htype : packetType (recvfrom rtp.packet received).1 = 0x56)
    (hlen : (recvfrom rtp.packet received).2 = 2 ^ 32 - 1 ∨ (recvfrom rtp.packet received).2 < 16)
    (hfill : around.fill = true) :
    ¬ (receiveControl P rtpScaled rtp next received around).1.point.InLoop := by
  set packetlen := (recvfrom rtp.packet received).2 with hpacketlen
  -- `packetlen - 4` wraps, or is too short for a header
  have hdatalen : ¬ (12 ≤ (BitVec.ofNat 16 (packetlen + 2 ^ 32 - 4)).toNat ∧
      (BitVec.ofNat 16 (packetlen + 2 ^ 32 - 4)).toNat ≤ raopPacketLen) := by
    have hmax : raopPacketLen = 32768 := rfl
    rw [BitVec.toNat_ofNat, hmax]
    omega
  rw [receiveControl_resent htype, hfill, afterDecoded_inLoop_iff fun _ _ => hnext,
    decodePacket_done_iff]
  exact fun h => hdatalen h.1

section
variable (hbytes : bytes.length ≤ raopPacketLen)
include hbytes

theorem receiveControl_resent_datagram (htype : packetType bytes = 0x56)
    (hlen : 16 ≤ bytes.length) :
    receiveControl P rtpScaled rtp next (.datagram bytes) around =
      afterDecoded { rtp with packet := writeAt rtp.packet 0 bytes, controlSaddr := around.saddr }
        (afterResent
          { rtp with packet := writeAt rtp.packet 0 bytes, controlSaddr := around.saddr } next)
        (decodePacket P rtp (resentPacket rtpScaled rtp.clock bytes bytes.length) around.entry
          around.fill) := by
  have harray : packetType (recvfrom rtp.packet (.datagram bytes)).1 = 0x56 := by
    rw [recvfrom_datagram hbytes, packetType_array (by omega), htype]
  have hdecode : decodePacket P
        { rtp with packet := writeAt rtp.packet 0 bytes, controlSaddr := around.saddr }
        (resentPacket rtpScaled rtp.clock (writeAt rtp.packet 0 bytes) bytes.length) around.entry
        around.fill =
      decodePacket P rtp (resentPacket rtpScaled rtp.clock bytes bytes.length) around.entry
        around.fill := decode_resent (by rfl) hlen hbytes rtp.clock around.entry around.fill
  rw [receiveControl_resent harray, recvfrom_datagram hbytes, ← hdecode]

theorem receiveControl_fresh {stale : Bytes} (htyped : 2 ≤ bytes.length)
    (hresent : packetType bytes = 0x56 → 16 ≤ bytes.length) :
    forgetPacket (receiveControl P rtpScaled { rtp with packet := stale } next (.datagram bytes)
        around) =
      forgetPacket (receiveControl P rtpScaled rtp next (.datagram bytes) around) := by
  have htype : ∀ array : Bytes, packetType (recvfrom array (.datagram bytes)).1 =
      packetType bytes := fun array => by
    rw [recvfrom_datagram hbytes]
    exact packetType_array htyped
  have hlen : ∀ array : Bytes, (recvfrom array (.datagram bytes)).2 = bytes.length := fun array => by
    rw [recvfrom_datagram hbytes]
  by_cases h56 : packetType bytes = 0x56
  · rw [receiveControl_resent_datagram hbytes h56 (hresent h56),
      receiveControl_resent_datagram hbytes h56 (hresent h56)]
    have hdecode : decodePacket P { rtp with packet := stale } = decodePacket P rtp := rfl
    rw [hdecode]
    generalize decodePacket P rtp _ _ _ = decoded
    obtain ⟨result, buffer, events⟩ := decoded
    cases result <;> rfl
  · by_cases h54 : packetType bytes = 0x54 ∧ 20 ≤ bytes.length
    · have hsync : ∀ array : Bytes,
          receivedSync (recvfrom array (.datagram bytes)).1 around.syncOffset =
            receivedSync bytes around.syncOffset := fun array => by
        rw [recvfrom_datagram hbytes]
        exact receivedSync_array h54.2 around.syncOffset
      have hcase : ∀ array : Bytes, 20 ≤ (recvfrom array (.datagram bytes)).2 := fun array => by
        rw [hlen]
        exact h54.2
      obtain ⟨clock, hstep, heq⟩ := receiveControl_sync P rtpScaled { rtp with packet := stale } next
        around ((htype _).trans h54.1) (hcase _)
      obtain ⟨clock', hstep', heq'⟩ := receiveControl_sync P rtpScaled rtp next around
        ((htype _).trans h54.1) (hcase _)
      rw [hsync] at hstep hstep'
      obtain rfl : clock = clock' := by
        have h := hstep.symm.trans hstep'
        simpa using h
      rw [heq, heq']
      rfl
    · rw [receiveControl_other, receiveControl_other]
      · rfl
      · rwa [htype]
      · rwa [htype, hlen]
      · rwa [htype]
      · rwa [htype, hlen]

/-- The thread stays in its loop if the packet has a payload or is not taken, and a sync packet leaves
an entry set. -/
theorem receiveControl_inLoop_iff (hnext : next.InLoop) (hfill : around.fill = true)
    (htyped : 2 ≤ bytes.length) (hlong : packetType bytes = 0x56 → 16 ≤ bytes.length) :
    (receiveControl P rtpScaled rtp next (.datagram bytes) around).1.point.InLoop ↔
      (packetType bytes = 0x56 → bytes.length = 16 →
        ¬ Enters rtp.buffer (resentPacket rtpScaled rtp.clock bytes bytes.length)) ∧
      (packetType bytes = 0x54 → 20 ≤ bytes.length →
        ∃ d ∈ syncRing rtp.clock (receivedSync bytes around.syncOffset), d.ntpTime ≠ 0) := by
  have htype : packetType (recvfrom rtp.packet (.datagram bytes)).1 = packetType bytes := by
    rw [recvfrom_datagram hbytes]
    exact packetType_array htyped
  have hlen : (recvfrom rtp.packet (.datagram bytes)).2 = bytes.length := by
    rw [recvfrom_datagram hbytes]
  by_cases h56 : packetType bytes = 0x56
  · have hlen16 := hlong h56
    have hdatalen := resentPacket_datalen rtpScaled rtp.clock bytes (n := bytes.length) (by omega)
      hbytes
    have hmax : raopPacketLen = 32768 := rfl
    rw [receiveControl_resent_datagram hbytes h56 hlen16,
      afterDecoded_inLoop_iff fun _ _ => hnext, hfill, decodePacket_done_iff, hdatalen]
    constructor
    · rintro ⟨-, hdone⟩
      exact ⟨fun _ h16 => hdone (by omega), fun h54 => absurd (h56.symm.trans h54) (by decide)⟩
    · rintro ⟨hdone, -⟩
      exact ⟨⟨by omega, by omega⟩, fun h12 => hdone h56 (by omega)⟩
  · by_cases h54 : packetType bytes = 0x54 ∧ 20 ≤ bytes.length
    · obtain ⟨clock, hstep, heq⟩ := receiveControl_sync P rtpScaled rtp next around
        (htype.trans h54.1) (hlen.symm ▸ h54.2)
      have harray : receivedSync (recvfrom rtp.packet (.datagram bytes)).1 around.syncOffset =
          receivedSync bytes around.syncOffset := by
        rw [recvfrom_datagram hbytes]
        exact receivedSync_array h54.2 around.syncOffset
      rw [harray] at hstep
      have hclock : clock = raopRtpSyncClock rtpScaled rtp.clock
          (receivedSync bytes around.syncOffset).rtpTime
          (receivedSync bytes around.syncOffset).ntpTime := by
        simpa [syncStep] using hstep.symm
      have hset : clock.isSome = true ↔
          ∃ d ∈ syncRing rtp.clock (receivedSync bytes around.syncOffset), d.ntpTime ≠ 0 := by
        rw [hclock]
        exact raopRtpSyncClock_isSome_iff
      have hpoint : (receiveControl P rtpScaled rtp next (.datagram bytes) around).1.point.InLoop ↔
          clock.isSome = true := by
        rw [heq]
        by_cases hsome : clock.isSome = true
        · exact iff_of_true (by simpa only [if_pos hsome] using hnext) hsome
        · exact iff_of_false (fun h => h.1 (if_neg hsome)) hsome
      rw [hpoint, hset]
      exact ⟨fun h => ⟨fun h => absurd h h56, fun _ _ => h⟩, fun h => h.2 h54.1 h54.2⟩
    · rw [receiveControl_other (htype ▸ h56) (by rwa [htype, hlen])]
      exact iff_of_true hnext ⟨fun h => absurd h h56, fun h hlen => absurd ⟨h, hlen⟩ h54⟩

end

end

/-! ## The data socket -/

section
variable {P : Openssl} {rtpScaled : UInt32 → UInt64} {rtp : RaopRtp} {received : Received}
  {around : Surroundings} {bytes : Bytes}

theorem receiveData_decoded (hlen : 12 ≤ (recvfrom rtp.packet received).2) :
    receiveData P rtpScaled rtp received around =
      afterDecoded { rtp with packet := (recvfrom rtp.packet received).1 }
        (afterData { rtp with packet := (recvfrom rtp.packet received).1 })
        (decodePacket P { rtp with packet := (recvfrom rtp.packet received).1 }
          (dataPacket rtpScaled rtp.clock (recvfrom rtp.packet received).1
            (recvfrom rtp.packet received).2) around.entry around.fill) := by
  unfold receiveData
  dsimp only
  rw [if_pos hlen]
  split <;> rename_i heq <;> rw [heq] <;> rfl

theorem receiveData_short (hlen : ¬ 12 ≤ (recvfrom rtp.packet received).2) :
    receiveData P rtpScaled rtp received around =
      ({ rtp with packet := (recvfrom rtp.packet received).1, point := .top }, []) := by
  unfold receiveData
  dsimp only
  rw [if_neg hlen]

theorem receiveData_aborted (hfill : around.fill = true) :
    ¬ (receiveData P rtpScaled rtp .error around).1.point.InLoop := by
  have hlen : 12 ≤ (recvfrom rtp.packet .error).2 := by
    rw [recvfrom]
    norm_num
  -- -1 is a large `unsigned int`, and 65535 as an `unsigned short`
  have hdatalen : ¬ (12 ≤ (BitVec.ofNat 16 (2 ^ 32 - 1)).toNat ∧
      (BitVec.ofNat 16 (2 ^ 32 - 1)).toNat ≤ raopPacketLen) := by decide
  rw [receiveData_decoded hlen, hfill, afterDecoded_inLoop_iff (afterData_inLoop _),
    decodePacket_done_iff]
  exact fun h => hdatalen h.1

variable (hbytes : bytes.length ≤ raopPacketLen)
include hbytes

theorem receiveData_datagram (hlen : 12 ≤ bytes.length) :
    receiveData P rtpScaled rtp (.datagram bytes) around =
      afterDecoded { rtp with packet := writeAt rtp.packet 0 bytes }
        (afterData { rtp with packet := writeAt rtp.packet 0 bytes })
        (decodePacket P rtp (dataPacket rtpScaled rtp.clock bytes bytes.length) around.entry
          around.fill) := by
  have hdecode : decodePacket P { rtp with packet := writeAt rtp.packet 0 bytes }
        (dataPacket rtpScaled rtp.clock (writeAt rtp.packet 0 bytes) bytes.length) around.entry
        around.fill =
      decodePacket P rtp (dataPacket rtpScaled rtp.clock bytes bytes.length) around.entry
        around.fill := decode_data (by rfl) hlen hbytes rtp.clock around.entry around.fill
  have harray : 12 ≤ (recvfrom rtp.packet (.datagram bytes)).2 := by
    rw [recvfrom_datagram hbytes]
    exact hlen
  rw [receiveData_decoded harray, recvfrom_datagram hbytes, ← hdecode]

theorem receiveData_fresh (stale : Bytes) :
    forgetPacket (receiveData P rtpScaled { rtp with packet := stale } (.datagram bytes) around) =
      forgetPacket (receiveData P rtpScaled rtp (.datagram bytes) around) := by
  by_cases hlen : 12 ≤ bytes.length
  · rw [receiveData_datagram hbytes hlen, receiveData_datagram hbytes hlen]
    have hdecode : decodePacket P { rtp with packet := stale } = decodePacket P rtp := rfl
    rw [hdecode]
    generalize decodePacket P rtp _ _ _ = decoded
    obtain ⟨result, buffer, events⟩ := decoded
    cases result with
    | aborted => rfl
    | refused => rfl
    | done =>
      exact (afterData_packet rtp (writeAt stale 0 bytes) buffer events).trans
        (afterData_packet rtp (writeAt rtp.packet 0 bytes) buffer events).symm
  · have harray : ∀ array : Bytes, ¬ 12 ≤ (recvfrom array (.datagram bytes)).2 := fun array => by
      rw [recvfrom_datagram hbytes]
      exact hlen
    rw [receiveData_short (harray _), receiveData_short (harray _)]
    rfl

theorem receiveData_inLoop_iff (hfill : around.fill = true) :
    (receiveData P rtpScaled rtp (.datagram bytes) around).1.point.InLoop ↔
      DataSafe rtpScaled rtp bytes := by
  by_cases hlen : 12 ≤ bytes.length
  · have hdatalen := dataPacket_datalen rtpScaled rtp.clock bytes (n := bytes.length) hbytes
    rw [receiveData_datagram hbytes hlen, afterDecoded_inLoop_iff (afterData_inLoop _), hfill,
      decodePacket_done_iff, hdatalen]
    exact ⟨fun h => h.2, fun h => ⟨⟨hlen, hbytes⟩, h⟩⟩
  · have harray : ¬ 12 ≤ (recvfrom rtp.packet (.datagram bytes)).2 := by
      rw [recvfrom_datagram hbytes]
      exact hlen
    rw [receiveData_short harray]
    exact iff_of_true inLoop_top fun h => absurd h (by omega)

end

/-! ## One read -/

/-- An array whose second byte makes the class of a datagram that has no such byte. -/
def staleResent : Bytes := List.replicate raopPacketLen 0x56

theorem packetType_staleResent : packetType staleResent = 0x56 := by
  have hmax : 1 < raopPacketLen := by decide
  have hbyte : byteAt staleResent 1 = 0x56 := by
    rw [byteAt, staleResent, List.getD_eq_getElem?_getD, List.getElem?_replicate, if_pos hmax]
    rfl
  rw [packetType, hbyte]
  decide

section
variable {P : Openssl} {rtpScaled : UInt32 → UInt64} {rtp : RaopRtp} {around : Surroundings}
  {bytes : Bytes}

/-- Where the thread goes on after the control socket. -/
def controlNext : RtpPoint → Option RtpPoint
  | .control data => some (if data then .data else .top)
  | _ => none

theorem controlNext_inLoop {point next : RtpPoint} (h : controlNext point = some next) :
    next.InLoop := by
  cases point with
  | control data =>
    obtain rfl := Option.some.inj h
    cases data
    · exact inLoop_top
    · exact ⟨by simp, by simp⟩
  | _ => simp [controlNext] at h

theorem rtpStep_receiveControl (rtp : RaopRtp) (received : Received) (around : Surroundings) :
    rtpStep P rtpScaled rtp (.receiveControl received around) =
      (controlNext rtp.point).map fun next =>
        receiveControl P rtpScaled rtp next received around := by
  cases hpoint : rtp.point <;> simp only [rtpStep, hpoint] <;> rfl

theorem rtpStep_receiveData {rtp : RaopRtp} (hpoint : rtp.point = .data) (received : Received)
    (around : Surroundings) :
    rtpStep P rtpScaled rtp (.receiveData received around) =
      some (receiveData P rtpScaled rtp received around) := by
  simp only [rtpStep, hpoint]

theorem rtpStep_receiveData_none {rtp : RaopRtp} (hpoint : rtp.point ≠ .data)
    (received : Received) (around : Surroundings) :
    rtpStep P rtpScaled rtp (.receiveData received around) = none := by
  cases h : rtp.point <;> simp_all [rtpStep]

theorem point_eq_of_forgetPacket {r r' : RaopRtp × List RtpEvent}
    (h : forgetPacket r = forgetPacket r') : r.1.point = r'.1.point :=
  congrArg (fun r => r.1.point) h

/-- A short datagram leaves the second byte to what the array held before. -/
theorem controlSafe_of_right {next : RtpPoint} (hnext : next.InLoop)
    (hbytes : bytes.length ≤ raopPacketLen) (hfill : around.fill = true)
    (hloop : (receiveControl P rtpScaled rtp next (.datagram bytes) around).1.point.InLoop)
    (hstale : (receiveControl P rtpScaled { rtp with packet := staleResent } next (.datagram bytes)
      around).1.point.InLoop) :
    ControlSafe rtpScaled rtp around.syncOffset bytes := by
  have htyped : 2 ≤ bytes.length := by
    by_contra hshort
    -- over this array the datagram would be taken for a resent packet, and abort
    have hlength : 0 + bytes.length ≤ staleResent.length := by
      rw [staleResent, List.length_replicate, Nat.zero_add]
      exact hbytes
    have htype : packetType (recvfrom staleResent (.datagram bytes)).1 = 0x56 := by
      rw [recvfrom_datagram hbytes, packetType, byteAt_writeAt hlength, if_neg (by omega)]
      exact packetType_staleResent
    have hshort : (recvfrom staleResent (.datagram bytes)).2 < 16 := by
      rw [recvfrom_datagram hbytes]
      show bytes.length < 16
      omega
    refine absurd hstale ?_
    exact receiveControl_aborted hnext htype (Or.inr hshort) hfill
  have hlong : packetType bytes = 0x56 → 16 ≤ bytes.length := fun h56 => by
    by_contra hshort
    have htype : packetType (recvfrom rtp.packet (.datagram bytes)).1 = 0x56 := by
      rw [recvfrom_datagram hbytes, packetType_array htyped, h56]
    have hshort : (recvfrom rtp.packet (.datagram bytes)).2 < 16 := by
      rw [recvfrom_datagram hbytes]
      show bytes.length < 16
      omega
    refine absurd hloop ?_
    exact receiveControl_aborted hnext htype (Or.inr hshort) hfill
  obtain ⟨hresent, hsync⟩ :=
    (receiveControl_inLoop_iff hbytes hnext hfill htyped hlong).mp hloop
  exact ⟨htyped, fun h56 => ⟨hlong h56, hresent h56⟩, hsync⟩

theorem readSafe_fresh {label : RtpLabel} (hread : label.IsRead) (hassumed : label.Assumed)
    (hsafe : ReadSafe rtpScaled rtp label) (stale : Bytes) :
    (rtpStep P rtpScaled { rtp with packet := stale } label).map forgetPacket =
      (rtpStep P rtpScaled rtp label).map forgetPacket := by
  cases label with
  | receiveControl received around =>
    cases received with
    | error => exact absurd hsafe id
    | datagram bytes =>
      have hbytes : bytes.length ≤ raopPacketLen := hassumed.1
      have hcontrol : ControlSafe rtpScaled rtp around.syncOffset bytes := hsafe
      have hfresh : ∀ next, forgetPacket (receiveControl P rtpScaled { rtp with packet := stale }
            next (.datagram bytes) around) =
          forgetPacket (receiveControl P rtpScaled rtp next (.datagram bytes) around) := fun next =>
        receiveControl_fresh hbytes hcontrol.typed fun h56 => (hcontrol.resent h56).1
      rw [rtpStep_receiveControl, rtpStep_receiveControl]
      show ((controlNext rtp.point).map _).map _ = _
      rw [Option.map_map, Option.map_map]
      exact congrArg (fun f => (controlNext rtp.point).map f) (funext hfresh)
  | receiveData received around =>
    cases received with
    | error => exact absurd hsafe id
    | datagram bytes =>
      have hbytes : bytes.length ≤ raopPacketLen := hassumed.1
      by_cases hpoint : rtp.point = .data
      · rw [rtpStep_receiveData hpoint,
          rtpStep_receiveData (show ({ rtp with packet := stale } : RaopRtp).point = .data from hpoint)]
        exact congrArg some (receiveData_fresh hbytes stale)
      · rw [rtpStep_receiveData_none hpoint, rtpStep_receiveData_none
          (show ({ rtp with packet := stale } : RaopRtp).point ≠ .data from hpoint)]
  | _ => exact absurd hread id

theorem readRight_iff {label : RtpLabel} {r : RaopRtp × List RtpEvent} (hread : label.IsRead)
    (hassumed : label.Assumed) (hr : rtpStep P rtpScaled rtp label = some r) :
    ReadRight P rtpScaled rtp label ↔ ReadSafe rtpScaled rtp label := by
  have hlength : staleResent.length = raopPacketLen := List.length_replicate
  cases label with
  | receiveControl received around =>
    have hfill : around.fill = true := hassumed.2
    rw [rtpStep_receiveControl] at hr
    obtain ⟨next, hpoint, rfl⟩ := Option.map_eq_some_iff.mp hr
    have hnext := controlNext_inLoop hpoint
    have hstep : ∀ stale, rtpStep P rtpScaled { rtp with packet := stale }
        (.receiveControl received around) = some (receiveControl P rtpScaled
          { rtp with packet := stale } next received around) := fun stale => by
      rw [rtpStep_receiveControl]
      show (controlNext rtp.point).map _ = _
      rw [hpoint]
      rfl
    constructor
    · intro h
      have hloop := h.inLoop _ (hstep rtp.packet)
      -- the same read over another array leaves the thread in its loop as well
      have hstale : (receiveControl P rtpScaled { rtp with packet := staleResent } next received
          around).1.point.InLoop := by
        have hfresh := h.fresh staleResent hlength
        rw [hstep, hstep rtp.packet] at hfresh
        rw [point_eq_of_forgetPacket (Option.some.inj hfresh)]
        exact hloop
      cases received with
      | error =>
        have htype : packetType (recvfrom staleResent .error).1 = 0x56 := packetType_staleResent
        refine absurd hstale ?_
        exact receiveControl_aborted hnext htype (Or.inl rfl) hfill
      | datagram bytes => exact controlSafe_of_right hnext hassumed.1 hfill hloop hstale
    · intro hsafe
      refine ⟨?_, fun stale _ => readSafe_fresh hread hassumed hsafe stale⟩
      intro r hr
      rw [hstep rtp.packet] at hr
      obtain rfl := Option.some.inj hr
      cases received with
      | error => exact absurd hsafe id
      | datagram bytes =>
        have hcontrol : ControlSafe rtpScaled rtp around.syncOffset bytes := hsafe
        exact (receiveControl_inLoop_iff hassumed.1 hnext hfill hcontrol.typed
          fun h56 => (hcontrol.resent h56).1).mpr
          ⟨fun h56 => (hcontrol.resent h56).2, hcontrol.sync⟩
  | receiveData received around =>
    have hfill : around.fill = true := hassumed.2
    have hpoint : rtp.point = .data := by
      by_contra hne
      rw [rtpStep_receiveData_none hne] at hr
      exact absurd hr (by simp)
    have hstep : rtpStep P rtpScaled rtp (.receiveData received around) =
        some (receiveData P rtpScaled rtp received around) :=
      rtpStep_receiveData hpoint received around
    cases received with
    | error =>
      exact iff_of_false (fun h => receiveData_aborted hfill (h.inLoop _ hstep)) id
    | datagram bytes =>
      have hloop : (receiveData P rtpScaled rtp (.datagram bytes) around).1.point.InLoop ↔
          DataSafe rtpScaled rtp bytes := receiveData_inLoop_iff hassumed.1 hfill
      constructor
      · exact fun h => hloop.mp (h.inLoop _ hstep)
      · intro hsafe
        refine ⟨fun r hr => ?_, fun stale _ => readSafe_fresh hread hassumed hsafe stale⟩
        obtain rfl := Option.some.inj (hstep.symm.trans hr)
        exact hloop.mpr hsafe
  | _ => exact absurd hread id

/-! ## The runs -/

theorem forgetGarbage_eq {label label' : RtpLabel} (h : forgetGarbage label = forgetGarbage label') :
    label = label' ∨ ∃ controlRport sockets garbage garbage',
      label = .start controlRport sockets garbage ∧ label' = .start controlRport sockets garbage' ∧
        garbage.length = garbage'.length := by
  cases label <;> cases label' <;> simp_all [forgetGarbage]

theorem rtpStep_packet {label : RtpLabel} (hread : ¬ label.IsRead) (packet : Bytes) :
    (rtpStep P rtpScaled { rtp with packet } label).map forgetPacket =
      (rtpStep P rtpScaled rtp label).map forgetPacket := by
  cases label with
  | receiveControl received around => exact absurd trivial hread
  | receiveData received around => exact absurd trivial hread
  | post request => rfl
  | start controlRport sockets garbage =>
    simp only [rtpStep, raopRtpStartAudio]
    split_ifs <;> rfl
  | stop =>
    simp only [rtpStep]
    split_ifs <;> rfl
  | join =>
    cases hjoining : rtp.joining <;> cases hpoint : rtp.point <;>
      simp only [rtpStep, hjoining, hpoint]
    rfl
  | takeMailbox =>
    cases hpoint : rtp.point <;> simp only [rtpStep, hpoint]
    split_ifs <;> rfl
  | ready control data =>
    cases hpoint : rtp.point <;> cases control <;> cases data <;> simp only [rtpStep, hpoint] <;> rfl
  | _ =>
    cases hpoint : rtp.point <;> simp only [rtpStep, hpoint]
    rfl

theorem rtpStep_packet_none {label : RtpLabel} (hread : label.IsRead)
    (hnone : rtpStep P rtpScaled rtp label = none) (packet : Bytes) :
    rtpStep P rtpScaled { rtp with packet } label = none := by
  cases label with
  | receiveControl received around =>
    rw [rtpStep_receiveControl] at hnone ⊢
    exact Option.map_eq_none_iff.mpr (Option.map_eq_none_iff.mp hnone)
  | receiveData received around =>
    refine rtpStep_receiveData_none ?_ received around
    show rtp.point ≠ .data
    intro hpoint
    rw [rtpStep_receiveData hpoint] at hnone
    exact absurd hnone (by simp)
  | _ => exact absurd hread id

theorem rtpStep_view {rtp' : RaopRtp} {label label' : RtpLabel}
    (hview : withoutPacket rtp = withoutPacket rtp')
    (hlabel : forgetGarbage label = forgetGarbage label')
    (hsafe : (rtpStep P rtpScaled rtp label).isSome = true →
      label.Assumed ∧ ReadSafe rtpScaled rtp label) :
    (rtpStep P rtpScaled rtp label).map forgetPacket =
      (rtpStep P rtpScaled rtp' label').map forgetPacket := by
  obtain ⟨packet, rfl⟩ : ∃ packet, rtp' = { rtp with packet } :=
    ⟨rtp'.packet, show { withoutPacket rtp' with packet := rtp'.packet } = _ from hview ▸ rfl⟩
  rcases forgetGarbage_eq hlabel with
    rfl | ⟨controlRport, sockets, garbage, garbage', rfl, rfl, hlength⟩
  · by_cases hread : label.IsRead
    · by_cases hsome : (rtpStep P rtpScaled rtp label).isSome = true
      · exact (readSafe_fresh hread (hsafe hsome).1 (hsafe hsome).2 packet).symm
      · have hnone := Option.not_isSome_iff_eq_none.mp hsome
        rw [hnone, rtpStep_packet_none hread hnone]
    · exact (rtpStep_packet hread packet).symm
  · simp only [rtpStep, raopRtpStartAudio, hlength]
    split_ifs <;> rfl

end

/-- The reads of a run are as they should be exactly if each is safe where it is taken. -/
theorem readsRight_iff (P : Openssl) (rtpScaled : UInt32 → UInt64) (rtp : RaopRtp)
    (labels : List RtpLabel) (hassumed : ∀ label ∈ labels, label.Assumed) :
    ReadsRight P rtpScaled rtp labels ↔
      Along (rtpStep P rtpScaled) (ReadSafe rtpScaled) rtp labels := by
  have hreads : Along (rtpStep P rtpScaled) (fun rtp label => label.IsRead →
      ReadRight P rtpScaled rtp label) rtp labels ↔
        Along (rtpStep P rtpScaled) (ReadSafe rtpScaled) rtp labels := by
    refine along_congr_mem (I := fun _ => True) (fun _ _ _ _ _ => trivial) ?_ trivial
    intro rtp label hlabel r _ hr
    by_cases hread : label.IsRead
    · rw [imp_iff_right hread]
      exact readRight_iff hread (hassumed label hlabel) hr
    · refine iff_of_true (fun h => absurd h hread) ?_
      cases label with
      | receiveControl received around => exact absurd trivial hread
      | receiveData received around => exact absurd trivial hread
      | _ => trivial
  constructor
  · exact fun h => hreads.mp h.reads
  · intro hsafe
    have hboth : Along (rtpStep P rtpScaled)
        (fun rtp label => label.Assumed ∧ ReadSafe rtpScaled rtp label) rtp labels :=
      (along_congr_mem (I := fun _ => True) (fun _ _ _ _ _ => trivial)
        (fun _ label hlabel _ _ _ => (and_iff_right (hassumed label hlabel)).symm) trivial).mp hsafe
    exact ⟨hreads.mpr hsafe, fun labels' hlabels =>
      run_view (fun _ _ _ _ => rtpStep_view) rfl hlabels hboth⟩

/-- The labels of a new audio thread up to its first read. -/
def firstRead (garbage : Bytes) (control data : Bool) (read : RtpLabel) : List RtpLabel :=
  [.start 0 true garbage, .takeMailbox, .handleMailbox, .ready control data, read]

/-- A sync packet of 1970-01-01 00:00:02 for RTP time 88200. -/
def twoSecondSync : Bytes :=
  [0x90, 0xd4, 0, 0, 0, 1, 0x58, 0x88, 0x83, 0xaa, 0x7e, 0x82, 0, 0, 0, 0, 0, 1, 0x83, 0x99]

/-- Packet 7, an empty datagram, then a sync packet and packet 8 in one pass. -/
def fourReads : List RtpLabel :=
  dataPass (dataDatagram 7 5 0x2a) 0 ++ dataPass [] 0 ++
    [.takeMailbox, .handleMailbox, .ready true true,
      .receiveControl (.datagram twoSecondSync) ⟨[], emptyEntry, 0, true⟩,
      .receiveData (.datagram (dataDatagram 8 6 0x2b)) ⟨[], emptyEntry, 0, true⟩]

theorem readsRight_fourReads :
    (Foundations.Transition.run (rtpStep default fun t => t.toUInt64) examplePlayer
      fourReads).isSome ∧
    ReadsRight default (fun t => t.toUInt64) examplePlayer fourReads := by
  refine ⟨rfl, (readsRight_iff _ _ _ _ ?_).mpr ?_⟩
  · simp [fourReads, dataPass, RtpLabel.Assumed, Received.Fits, dataDatagram, twoSecondSync,
      raopPacketLen]
  refine along_cons rfl trivial (along_cons rfl trivial (along_cons rfl trivial
    (along_cons rfl ?_ ?_)))
  · exact fun hlen => absurd hlen (by decide)
  refine along_cons rfl trivial (along_cons rfl trivial (along_cons rfl trivial
    (along_cons rfl ?_ ?_)))
  · exact fun hlen => absurd hlen (by decide)
  refine along_cons rfl trivial (along_cons rfl trivial (along_cons rfl trivial
    (along_cons rfl ?_ (along_cons rfl ?_ trivial))))
  · refine ⟨by decide, fun htype => absurd htype (by decide), fun _ _ => ?_⟩
    exact ⟨⟨2000000, 77175⟩, by decide +kernel, by decide⟩
  · exact fun hlen => absurd hlen (by decide)

/-- `recvfrom` fails on the data socket. -/
theorem readsRight_error :
    ¬ ∀ (P : Openssl) (rtpScaled : UInt32 → UInt64) (callbacks : RaopCallbacks)
      (aeskey aesiv ecdhSecret : Bytes) (labels : List RtpLabel),
      (∀ label ∈ labels, label.Assumed) →
        ReadsRight P rtpScaled (raopRtpInit P callbacks aeskey aesiv ecdhSecret) labels := by
  intro h
  obtain ⟨garbage, hgarbage⟩ : ∃ garbage : Bytes, garbage.length = raopPacketLen :=
    ⟨List.replicate raopPacketLen 0, List.length_replicate⟩
  have hright := h default (fun t => t.toUInt64) ⟨true, true, true, true, true, true⟩ [] [] []
    (firstRead garbage false true (.receiveData .error ⟨[], emptyEntry, 0, true⟩))
    (by simp [firstRead, RtpLabel.Assumed, Received.Fits])
  have hstart := hright.reads _ (if_neg (by simp [raopRtpInit, hgarbage]))
  obtain ⟨-, hread⟩ := ((hstart.2 _ rfl).2 _ rfl).2 _ rfl
  have hright := (hread _ (rtpStep_receiveData rfl _ _)).1 trivial
  have hloop := hright.inLoop _ (rtpStep_receiveData rfl _ _)
  exact receiveData_aborted rfl hloop

end WinAirPlay
