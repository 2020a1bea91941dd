import WinAirPlay.RaopBuffer.Model

/-! # The mailbox of `raop_rtp.cpp`

The control thread leaves volume, metadata, cover art, remote control ids, progress and flush
requests for the audio thread, which takes them all at once in `raop_rtp_process_events`. A request
that was not taken yet is overwritten by the next one of its kind. That no flush is requested is
the value `NO_FLUSH` of `flush`.
-/

namespace WinAirPlay
open Foundations.ByteBuffer
set_option autoImplicit false

def noFlush : ℤ := -42

/-- The callbacks that may be left out. -/
structure RaopCallbacks where
  audioFlush : Bool
  audioSetVolume : Bool
  audioSetMetadata : Bool
  audioSetCoverart : Bool
  audioRemoteControlId : Bool
  audioSetProgress : Bool
  deriving DecidableEq

structure RtpMailbox where
  volume : Float32
  volumeChanged : Bool
  metadata : Option Bytes
  coverart : Option Bytes
  dacpId : Option Bytes
  activeRemoteHeader : Option Bytes
  progressStart : UInt32
  progressCurr : UInt32
  progressEnd : UInt32
  progressChanged : Bool
  flush : ℤ

def rtpMailboxInit : RtpMailbox where
  volume := 0
  volumeChanged := false
  metadata := none
  coverart := none
  dacpId := none
  activeRemoteHeader := none
  progressStart := 0
  progressCurr := 0
  progressEnd := 0
  progressChanged := false
  flush := noFlush

/-! ## The control thread -/

def raopRtpSetVolume (mailbox : RtpMailbox) (volume : Float32) : RtpMailbox :=
  let volume := if volume > 0 then 0 else if volume < -144 then -144 else volume
  { mailbox with volume, volumeChanged := true }

def raopRtpSetMetadata (mailbox : RtpMailbox) (data : Bytes) : RtpMailbox :=
  if data.length = 0 then mailbox else { mailbox with metadata := some data }

def raopRtpSetCoverart (mailbox : RtpMailbox) (data : Bytes) : RtpMailbox :=
  if data.length = 0 then mailbox else { mailbox with coverart := some data }

def raopRtpRemoteControlId (mailbox : RtpMailbox) (dacpId activeRemoteHeader : Option Bytes) :
    RtpMailbox :=
  if dacpId.isNone || activeRemoteHeader.isNone then mailbox
  else { mailbox with dacpId, activeRemoteHeader }

def raopRtpSetProgress (mailbox : RtpMailbox) (start curr end_ : UInt32) : RtpMailbox :=
  { mailbox with
    progressStart := start
    progressCurr := curr
    progressEnd := end_
    progressChanged := true }

def raopRtpFlush (mailbox : RtpMailbox) (nextSeq : ℤ) : RtpMailbox :=
  { mailbox with flush := nextSeq }

inductive RtpRequest
  | setVolume (volume : Float32)
  | setMetadata (data : Bytes)
  | setCoverart (data : Bytes)
  | remoteControlId (dacpId activeRemoteHeader : Option Bytes)
  | setProgress (start curr end_ : UInt32)
  | flush (nextSeq : ℤ)

def RtpRequest.post (mailbox : RtpMailbox) : RtpRequest → RtpMailbox
  | .setVolume volume => raopRtpSetVolume mailbox volume
  | .setMetadata data => raopRtpSetMetadata mailbox data
  | .setCoverart data => raopRtpSetCoverart mailbox data
  | .remoteControlId dacpId activeRemoteHeader =>
    raopRtpRemoteControlId mailbox dacpId activeRemoteHeader
  | .setProgress start curr end_ => raopRtpSetProgress mailbox start curr end_
  | .flush nextSeq => raopRtpFlush mailbox nextSeq

/-! ## The audio thread -/

/-- What the critical section of `raop_rtp_process_events` leaves behind. -/
def clearMailbox (mailbox : RtpMailbox) : RtpMailbox :=
  { mailbox with
    volumeChanged := false
    flush := noFlush
    metadata := none
    coverart := none
    dacpId := none
    activeRemoteHeader := none
    progressChanged := false }

/-- What `raop_rtp_process_events` calls. -/
inductive RtpAction
  | raopBufferFlush (nextSeq : ℤ)
  | audioSetVolume (volume : Float32)
  | audioFlush
  | audioSetMetadata (metadata : Bytes)
  | audioSetCoverart (coverart : Bytes)
  | audioRemoteControlId (dacpId activeRemoteHeader : Bytes)
  | audioSetProgress (start curr end_ : UInt32)

def volumeActions (callbacks : RaopCallbacks) (taken : RtpMailbox) : List RtpAction :=
  if taken.volumeChanged then
    [.raopBufferFlush taken.flush] ++
      (if callbacks.audioSetVolume then [.audioSetVolume taken.volume] else [])
  else []

def flushActions (callbacks : RaopCallbacks) (taken : RtpMailbox) : List RtpAction :=
  if taken.flush ≠ noFlush then if callbacks.audioFlush then [.audioFlush] else [] else []

def infoActions (callbacks : RaopCallbacks) (taken : RtpMailbox) : List RtpAction :=
  (match taken.metadata with
    | some metadata => if callbacks.audioSetMetadata then [.audioSetMetadata metadata] else []
    | none => []) ++
  (match taken.coverart with
    | some coverart => if callbacks.audioSetCoverart then [.audioSetCoverart coverart] else []
    | none => []) ++
  (match taken.dacpId, taken.activeRemoteHeader with
    | some dacpId, some activeRemoteHeader =>
      if callbacks.audioRemoteControlId then [.audioRemoteControlId dacpId activeRemoteHeader]
      else []
    | _, _ => []) ++
  (if taken.progressChanged then
    if callbacks.audioSetProgress then
      [.audioSetProgress taken.progressStart taken.progressCurr taken.progressEnd]
    else []
  else [])

/-- `raop_rtp_process_events` once it has left the critical section. -/
def raopRtpProcessEvents (callbacks : RaopCallbacks) (taken : RtpMailbox) : List RtpAction :=
  volumeActions callbacks taken ++ flushActions callbacks taken ++ infoActions callbacks taken

/-- Only a flush touches the jitter buffer. -/
def RtpAction.onBuffer (buffer : RaopBuffer) : RtpAction → RaopBuffer
  | .raopBufferFlush nextSeq => WinAirPlay.raopBufferFlush buffer nextSeq
  | _ => buffer

end WinAirPlay
