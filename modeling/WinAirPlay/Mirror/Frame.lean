import WinAirPlay.ByteUtils
import WinAirPlay.Mirror.Buffer
import WinAirPlay.Mirror.NalRewrite
import WinAirPlay.Ntp.Clock

/-! # One frame of the mirror stream

What `raop_rtp_mirror_thread` does with a frame once its header and its payload are there: a video
payload is decrypted and the length before each NAL unit is overwritten with the start code; an
SPS/PPS payload is taken apart and put together again for the decoder.

The lengths come from the peer. A `Checked` run faults at the first access outside a buffer, the
first negative number used as a size and the first overflow of `nalu_size`.
-/

namespace WinAirPlay
open Foundations.ByteBuffer Foundations.KeyStream Foundations.CheckedMemory
set_option autoImplicit false

/-- A header and the bytes that follow it on the connection. -/
structure MirrorFrame where
  header : Bytes
  content : ℕ → UInt8
  header_length : header.length = 128

namespace MirrorFrame

/-- `int payload_size`. -/
def payloadSize (f : MirrorFrame) : ℤ := signed 32 (byteutilsGetInt f.header 0)

def payloadType (f : MirrorFrame) : ℕ := byteutilsGetShort f.header 4 &&& 0xff

/-- The payload, for a payload size that is not negative. -/
def payload (f : MirrorFrame) : Bytes := (List.range f.payloadSize.toNat).map f.content

end MirrorFrame

structure H264DecodeStruct where
  data : Bytes
  frameType : ℕ
  pts : UInt64

/-! ## Video data -/

/-- The timestamp of a video frame, converted to local time. -/
def videoTimestamp (header : Bytes) (syncOffset : UInt64) : UInt64 :=
  raopNtpConvertRemoteTime syncOffset
    (raopNtpTimestampToMicroSeconds (UInt64.ofNat (byteutilsGetLong header 8)) false)

def processVideo (P : Openssl) (garbage : ℕ → UInt8) (buffer : MirrorBuffer) (syncOffset : UInt64)
    (header payload : Bytes) : Checked (MirrorBuffer × H264DecodeStruct) := do
  let payloadDecrypted ← malloc garbage payload.length
  let r ← mirrorBufferDecrypt P buffer payload payloadDecrypted payload.length
  let _naluType := (← readByte r.input 4) &&& 0x1f
  let nalus ← nalLoop payload.length r.output 0 0
  .ok (r.mirrorBuffer, ⟨nalus.1, 1, videoTimestamp header syncOffset⟩)

/-! ## SPS and PPS -/

structure H264Codec where
  version : UInt8
  profileHigh : UInt8
  compatibility : UInt8
  level : UInt8
  reserved6AndNal : UInt8
  reserved3AndSps : UInt8
  spsSize : ℤ
  sequenceParameterSet : Bytes
  numberOfPps : UInt8
  ppsSize : ℤ
  pictureParameterSet : Bytes

def readCodec (garbage : ℕ → UInt8) (payload : Bytes) : Checked H264Codec := do
  let version ← readByte payload 0
  let profileHigh ← readByte payload 1
  let compatibility ← readByte payload 2
  let level ← readByte payload 3
  let reserved6AndNal ← readByte payload 4
  let reserved3AndSps ← readByte payload 5
  let b6 ← readByte payload 6
  let b7 ← readByte payload 7
  let spsSize := signed 16 (b6.toNat * 2 ^ 8 + b7.toNat)
  let sps ← malloc garbage spsSize
  let sps ← writeRange sps 0 (← readRange payload 8 spsSize)
  let numberOfPps ← readByte payload (spsSize + 8)
  let b9 ← readByte payload (spsSize + 9)
  let b10 ← readByte payload (spsSize + 10)
  let ppsSize := signed 16 (((b9.toNat &&& 2040) + b10.toNat) &&& 255)
  let pps ← malloc garbage ppsSize
  let pps ← writeRange pps 0 (← readRange payload (spsSize + 11) ppsSize)
  .ok ⟨version, profileHigh, compatibility, level, reserved6AndNal, reserved3AndSps, spsSize, sps,
    numberOfPps, ppsSize, pps⟩

/-- The block handed to the decoder: each parameter set behind a start code. -/
def spsPps (garbage : ℕ → UInt8) (h264 : H264Codec) : Checked Bytes := do
  let b ← malloc garbage (h264.spsSize + h264.ppsSize + 8)
  let b ← writeByte b 0 0
  let b ← writeByte b 1 0
  let b ← writeByte b 2 0
  let b ← writeByte b 3 1
  let b ← writeRange b 4 (← readRange h264.sequenceParameterSet 0 h264.spsSize)
  let b ← writeByte b (h264.spsSize + 4) 0
  let b ← writeByte b (h264.spsSize + 5) 0
  let b ← writeByte b (h264.spsSize + 6) 0
  let b ← writeByte b (h264.spsSize + 7) 1
  writeRange b (h264.spsSize + 8) (← readRange h264.pictureParameterSet 0 h264.ppsSize)

def processSpsPps (garbage : ℕ → UInt8) (payload : Bytes) : Checked (Option H264DecodeStruct) := do
  let h264 ← readCodec garbage payload
  if h264.spsSize + h264.ppsSize < 102400 then
    .ok (some ⟨← spsPps garbage h264, 0, 0⟩)
  else .ok none

/-! ## A frame -/

/-- The state of the decryption after the frame, and what `video_process` is called with. -/
def processFrame (P : Openssl) (garbage : ℕ → UInt8) (buffer : MirrorBuffer) (syncOffset : UInt64)
    (f : MirrorFrame) : Checked (MirrorBuffer × Option H264DecodeStruct) := do
  -- the block is allocated first and `recv` then fills all of it
  let payload ← malloc f.content f.payloadSize
  if f.payloadType = 0 then
    let r ← processVideo P garbage buffer syncOffset f.header payload
    .ok (r.1, some r.2)
  else if f.payloadType &&& 255 = 1 then
    .ok (buffer, ← processSpsPps garbage payload)
  else .ok (buffer, none)

end WinAirPlay
