import WinAirPlay.Rtp.Thread

/-! # Flush and volume requests

The audio thread flushes the jitter buffer when the volume has changed, with whatever flush value the
mailbox holds, and calls `audio_flush` when that value is not `NO_FLUSH`. So an iteration does what
was asked of it exactly if a volume change and a flush were requested together or not at all, and
the flush was not to `NO_FLUSH` itself.

`Mirrors` ties the mailbox to the requests that were posted since it was last taken.
-/

namespace WinAirPlay
open Foundations.ByteBuffer Foundations.Transition
set_option autoImplicit false

/-! ## What was requested -/

def RtpRequest.isSetVolume : RtpRequest → Bool
  | .setVolume _ => true
  | _ => false

def volumeRequested (since : List RtpRequest) : Bool := since.any RtpRequest.isSetVolume

/-- The sequence number of the last flush request. -/
def requestedFlush (since : List RtpRequest) : Option ℤ :=
  since.foldl (fun last request => match request with
    | .flush nextSeq => some nextSeq
    | _ => last) none

structure Mirrors (mailbox : RtpMailbox) (since : List RtpRequest) : Prop where
  volume : mailbox.volumeChanged = volumeRequested since
  flush : mailbox.flush = (requestedFlush since).getD noFlush

theorem mirrors_init : Mirrors rtpMailboxInit [] := ⟨rfl, rfl⟩

theorem mirrors_clear (mailbox : RtpMailbox) : Mirrors (clearMailbox mailbox) [] := ⟨rfl, rfl⟩

theorem volumeRequested_concat (since : List RtpRequest) (request : RtpRequest) :
    volumeRequested (since ++ [request]) = (volumeRequested since || request.isSetVolume) := by
  simp [volumeRequested]

theorem requestedFlush_concat (since : List RtpRequest) (request : RtpRequest) :
    requestedFlush (since ++ [request]) = match request with
      | .flush nextSeq => some nextSeq
      | _ => requestedFlush since := by
  rw [requestedFlush, List.foldl_concat]
  rfl

/-- A request that is neither a volume change nor a flush. -/
theorem Mirrors.post_other {mailbox : RtpMailbox} {since : List RtpRequest} {request : RtpRequest}
    (h : Mirrors mailbox since) (hvolume : request.isSetVolume = false)
    (hflush : requestedFlush (since ++ [request]) = requestedFlush since)
    (hsame : (request.post mailbox).volumeChanged = mailbox.volumeChanged ∧
      (request.post mailbox).flush = mailbox.flush) :
    Mirrors (request.post mailbox) (since ++ [request]) where
  volume := by rw [hsame.1, h.volume, volumeRequested_concat, hvolume, Bool.or_false]
  flush := by rw [hsame.2, h.flush, hflush]

theorem Mirrors.post {mailbox : RtpMailbox} {since : List RtpRequest} (h : Mirrors mailbox since)
    (request : RtpRequest) : Mirrors (request.post mailbox) (since ++ [request]) := by
  cases request with
  | setVolume volume =>
    refine ⟨?_, ?_⟩
    · rw [volumeRequested_concat]
      simp [RtpRequest.post, raopRtpSetVolume, RtpRequest.isSetVolume]
    · rw [requestedFlush_concat]
      exact h.flush
  | flush nextSeq =>
    refine ⟨?_, ?_⟩
    · rw [volumeRequested_concat]
      simpa [RtpRequest.post, raopRtpFlush, RtpRequest.isSetVolume] using h.volume
    · rw [requestedFlush_concat]
      rfl
  | setMetadata data =>
    refine h.post_other rfl (requestedFlush_concat ..) ?_
    unfold RtpRequest.post raopRtpSetMetadata
    by_cases hlen : data.length = 0 <;> simp [hlen]
  | setCoverart data =>
    refine h.post_other rfl (requestedFlush_concat ..) ?_
    unfold RtpRequest.post raopRtpSetCoverart
    by_cases hlen : data.length = 0 <;> simp [hlen]
  | remoteControlId dacpId activeRemoteHeader =>
    refine h.post_other rfl (requestedFlush_concat ..) ?_
    cases dacpId <;> cases activeRemoteHeader <;>
      exact ⟨rfl, rfl⟩
  | setProgress start curr end_ => exact h.post_other rfl (requestedFlush_concat ..) ⟨rfl, rfl⟩

/-! ## What an iteration does -/

def RtpAction.bufferFlush : RtpAction → Option ℤ
  | .raopBufferFlush nextSeq => some nextSeq
  | _ => none

/-- The arguments of the calls of `raop_buffer_flush`. -/
def bufferFlushes (actions : List RtpAction) : List ℤ := actions.filterMap RtpAction.bufferFlush

/-- A requested flush is done, once and to the number requested last, and `audio_flush` is called;
nothing else touches the jitter buffer. -/
structure ActsOnFlush (callbacks : RaopCallbacks) (since : List RtpRequest)
    (actions : List RtpAction) (before after : RaopBuffer) : Prop where
  flushed : bufferFlushes actions = (requestedFlush since).toList
  audioFlush : RtpAction.audioFlush ∈ actions ↔
    (requestedFlush since).isSome = true ∧ callbacks.audioFlush = true
  buffer : after = match requestedFlush since with
    | some nextSeq => raopBufferFlush before nextSeq
    | none => before

/-- Volume and flush were requested together or not at all, and no flush to `NO_FLUSH`. -/
def RequestsAgree (callbacks : RaopCallbacks) (since : List RtpRequest) : Prop :=
  volumeRequested since = (requestedFlush since).isSome ∧
    (callbacks.audioFlush = true → requestedFlush since ≠ some noFlush)

theorem foldl_onBuffer (actions : List RtpAction) (b : RaopBuffer) :
    actions.foldl RtpAction.onBuffer b = (bufferFlushes actions).foldl raopBufferFlush b := by
  induction actions generalizing b with
  | nil => rfl
  | cons action actions ih =>
    cases action <;> exact ih _

section

variable (callbacks : RaopCallbacks) (taken : RtpMailbox)

theorem bufferFlushes_append (a b : List RtpAction) :
    bufferFlushes (a ++ b) = bufferFlushes a ++ bufferFlushes b := List.filterMap_append

/-- The information callbacks are neither a flush of the buffer nor one of the audio. -/
theorem infoActions_other : ∀ action ∈ infoActions callbacks taken,
    action.bufferFlush = none ∧ action ≠ .audioFlush := by
  intro action haction
  simp only [infoActions, List.mem_append] at haction
  obtain ((h | h) | h) | h := haction
  · cases hm : taken.metadata <;> simp [hm] at h
    rw [h.2]
    exact ⟨rfl, by simp⟩
  · cases hm : taken.coverart <;> simp [hm] at h
    rw [h.2]
    exact ⟨rfl, by simp⟩
  · cases hd : taken.dacpId <;> cases ha : taken.activeRemoteHeader <;> simp [hd, ha] at h
    rw [h.2]
    exact ⟨rfl, by simp⟩
  · cases hp : taken.progressChanged <;> simp [hp] at h
    rw [h.2]
    exact ⟨rfl, by simp⟩

theorem bufferFlushes_processEvents : bufferFlushes (raopRtpProcessEvents callbacks taken) =
    if taken.volumeChanged then [taken.flush] else [] := by
  have hinfo : bufferFlushes (infoActions callbacks taken) = [] :=
    List.filterMap_eq_nil_iff.mpr fun action h => (infoActions_other callbacks taken action h).1
  have hflush : bufferFlushes (flushActions callbacks taken) = [] := by
    unfold flushActions
    split_ifs <;> rfl
  rw [raopRtpProcessEvents, bufferFlushes_append, bufferFlushes_append, hinfo, hflush,
    List.append_nil, List.append_nil]
  unfold volumeActions
  split_ifs <;> rfl

theorem audioFlush_mem_processEvents :
    RtpAction.audioFlush ∈ raopRtpProcessEvents callbacks taken ↔
      taken.flush ≠ noFlush ∧ callbacks.audioFlush = true := by
  have hinfo : RtpAction.audioFlush ∉ infoActions callbacks taken := fun h =>
    (infoActions_other callbacks taken _ h).2 rfl
  have hvolume : RtpAction.audioFlush ∉ volumeActions callbacks taken := by
    unfold volumeActions
    split_ifs <;> simp
  rw [raopRtpProcessEvents, List.mem_append, List.mem_append]
  simp only [hinfo, hvolume, or_false, false_or]
  unfold flushActions
  split_ifs with hflush hcallback <;> simp [*]

end

/-- What one iteration does is right exactly if the requests agree. -/
theorem actsOnFlush_iff (callbacks : RaopCallbacks) {taken : RtpMailbox}
    {since : List RtpRequest} (h : Mirrors taken since) (b : RaopBuffer) :
    ActsOnFlush callbacks since (raopRtpProcessEvents callbacks taken) b
        ((raopRtpProcessEvents callbacks taken).foldl RtpAction.onBuffer b) ↔
      RequestsAgree callbacks since := by
  have hflushes := bufferFlushes_processEvents callbacks taken
  have haudio := audioFlush_mem_processEvents callbacks taken
  rw [h.volume, h.flush] at hflushes
  rw [h.flush] at haudio
  constructor
  · intro hacts
    have hflushed := hflushes.symm.trans hacts.flushed
    have hcalled := haudio.symm.trans hacts.audioFlush
    refine ⟨?_, fun hcallback hno => ?_⟩
    · cases hreq : requestedFlush since <;> cases hvol : volumeRequested since <;>
        simp [hreq, hvol] at hflushed ⊢
    · simp [hno, hcallback] at hcalled
  · rintro ⟨hvolume, hno⟩
    have hflushed : bufferFlushes (raopRtpProcessEvents callbacks taken) =
        (requestedFlush since).toList := by
      rw [hflushes, hvolume]
      cases requestedFlush since <;> rfl
    refine ⟨hflushed, haudio.trans ?_, ?_⟩
    · cases hreq : requestedFlush since with
      | none => simp
      | some nextSeq =>
        rw [hreq] at hno
        simp only [Option.getD_some, Option.isSome_some, true_and]
        exact ⟨fun hc => hc.2, fun hc => ⟨fun heq => hno hc (by rw [heq]), hc⟩⟩
    · rw [foldl_onBuffer, hflushed]
      cases requestedFlush since <;> rfl

/-! ## Every run -/

structure MailboxSafe (callbacks : RaopCallbacks) (rtp : RaopRtp) : Prop where
  callbacks : rtp.callbacks = callbacks
  mailbox : Mirrors rtp.mailbox rtp.since
  handling : ∀ taken since, rtp.point = .handling taken since → Mirrors taken since

theorem mailboxSafe_init (P : Openssl) (callbacks : RaopCallbacks) (aeskey aesiv secret : Bytes) :
    MailboxSafe callbacks (raopRtpInit P callbacks aeskey aesiv secret) where
  callbacks := rfl
  mailbox := mirrors_init
  handling _ _ h := by cases h

/-- A step that touches neither the mailbox nor what was posted. -/
theorem MailboxSafe.of_same {callbacks : RaopCallbacks} {rtp rtp' : RaopRtp}
    (h : MailboxSafe callbacks rtp) (hcallbacks : rtp'.callbacks = rtp.callbacks)
    (hmailbox : rtp'.mailbox = rtp.mailbox) (hsince : rtp'.since = rtp.since)
    (hpoint : ∀ taken since, rtp'.point = .handling taken since →
      rtp.point = .handling taken since) : MailboxSafe callbacks rtp' where
  callbacks := hcallbacks.trans h.callbacks
  mailbox := by
    rw [hmailbox, hsince]
    exact h.mailbox
  handling taken since hhandling := h.handling taken since (hpoint taken since hhandling)

/-- What reading a socket leaves alone. -/
structure Received.Frame (rtp rtp' : RaopRtp) : Prop where
  callbacks : rtp'.callbacks = rtp.callbacks
  mailbox : rtp'.mailbox = rtp.mailbox
  since : rtp'.since = rtp.since
  joined : rtp'.joined = rtp.joined
  controlRport : rtp'.controlRport = rtp.controlRport
  point : ∀ taken since, rtp'.point ≠ .handling taken since

theorem renderPackets_frame (rtp : RaopRtp) :
    (renderPackets rtp).1.callbacks = rtp.callbacks ∧ (renderPackets rtp).1.mailbox = rtp.mailbox ∧
      (renderPackets rtp).1.since = rtp.since ∧ (renderPackets rtp).1.joined = rtp.joined ∧
      (renderPackets rtp).1.controlRport = rtp.controlRport ∧
      (renderPackets rtp).1.point = rtp.point := by
  unfold renderPackets
  dsimp only
  split
  · exact ⟨rfl, rfl, rfl, rfl, rfl, rfl⟩
  · split <;> exact ⟨rfl, rfl, rfl, rfl, rfl, rfl⟩

theorem receiveControl_frame (P : Openssl) (rtpScaled : UInt32 → UInt64) (rtp : RaopRtp)
    {next : RtpPoint} (hnext : ∀ taken since, next ≠ .handling taken since) (received : Received)
    (around : Surroundings) :
    Received.Frame rtp (receiveControl P rtpScaled rtp next received around).1 := by
  unfold receiveControl
  dsimp only
  split
  · split <;> exact ⟨rfl, rfl, rfl, rfl, rfl, by simp [hnext]⟩
  · split
    · split <;> exact ⟨rfl, rfl, rfl, rfl, rfl, by simp [hnext]⟩
    · exact ⟨rfl, rfl, rfl, rfl, rfl, hnext⟩

theorem receiveData_frame (P : Openssl) (rtpScaled : UInt32 → UInt64) (rtp : RaopRtp)
    (received : Received) (around : Surroundings) :
    Received.Frame rtp (receiveData P rtpScaled rtp received around).1 := by
  unfold receiveData
  dsimp only
  split
  · split
    · exact ⟨rfl, rfl, rfl, rfl, rfl, by simp⟩
    · exact ⟨rfl, rfl, rfl, rfl, rfl, by simp⟩
    · obtain ⟨hcallbacks, hmailbox, hsince, hjoined, hrport, hpoint⟩ := renderPackets_frame _
      exact ⟨hcallbacks, hmailbox, hsince, hjoined, hrport, by simp [hpoint]⟩
  · exact ⟨rfl, rfl, rfl, rfl, rfl, by simp⟩

theorem MailboxSafe.of_frame {callbacks : RaopCallbacks} {rtp rtp' : RaopRtp}
    (h : MailboxSafe callbacks rtp) (hframe : Received.Frame rtp rtp') :
    MailboxSafe callbacks rtp' :=
  h.of_same hframe.callbacks hframe.mailbox hframe.since fun taken since hhandling =>
    absurd hhandling (hframe.point taken since)

variable {P : Openssl} {rtpScaled : UInt32 → UInt64} {callbacks : RaopCallbacks}

theorem mailboxSafe_step {rtp : RaopRtp} {label : RtpLabel} {r : RaopRtp × List RtpEvent}
    (h : MailboxSafe callbacks rtp) (hr : rtpStep P rtpScaled rtp label = some r) :
    MailboxSafe callbacks r.1 := by
  cases rtpMove_of_step hr with
  | post request => exact ⟨h.callbacks, h.mailbox.post request, h.handling⟩
  | start controlRport sockets garbage =>
    unfold raopRtpStartAudio
    split_ifs
    · exact h
    · exact h.of_same rfl rfl rfl fun _ _ hc => by cases hc
    · exact h.of_same rfl rfl rfl fun _ _ hc => hc
  | stopEarly => exact h
  | stop => exact h.of_same rfl rfl rfl fun _ _ hc => hc
  | join => exact h.of_same rfl rfl rfl fun _ _ hc => by cases hc
  | takeMailbox =>
    refine ⟨h.callbacks, mirrors_clear _, fun taken since hc => ?_⟩
    cases hc
    exact h.mailbox
  | handleMailbox => exact h.of_same rfl rfl rfl fun _ _ hc => by cases hc
  | goOn _ _ running point hpoint =>
    exact h.of_same rfl rfl rfl fun taken since hc => absurd hc (hpoint taken since)
  | receiveControl data received around =>
    exact h.of_frame (receiveControl_frame P rtpScaled rtp (by intros; split <;> simp) ..)
  | receiveData received around => exact h.of_frame (receiveData_frame ..)

/-- An iteration that takes the mailbox does what was requested. -/
def ProcessesRight (callbacks : RaopCallbacks) : RtpEvent → Prop
  | .processed since actions before after => ActsOnFlush callbacks since actions before after
  | _ => True

/-- The mailbox that is about to be handled holds requests that agree. -/
def MailboxAgrees (callbacks : RaopCallbacks) (rtp : RaopRtp) (label : RtpLabel) : Prop :=
  match label, rtp.point with
  | .handleMailbox, .handling _ since => RequestsAgree callbacks since
  | _, _ => True

/-- Reading a socket reports decoded, rendered and requested packets. -/
def IsPacketEvent : RtpEvent → Prop
  | .processed .. => False
  | _ => True

theorem decodePacket_events (P : Openssl) (rtp : RaopRtp) (packet : Enqueued)
    (entry : RaopBufferEntry) (fill : Bool) :
    ∀ event ∈ (decodePacket P rtp packet entry fill).2.2, IsPacketEvent event := by
  intro event hevent
  unfold decodePacket at hevent
  dsimp only at hevent
  split_ifs at hevent <;> simp at hevent <;> rw [hevent] <;> trivial

theorem renderPackets_events (rtp : RaopRtp) :
    ∀ event ∈ (renderPackets rtp).2, IsPacketEvent event := by
  have hrendered : ∀ event ∈ (drain (decide (rtp.controlRport = 0)) rtp.buffer).1.map
      RtpEvent.render, IsPacketEvent event := by
    intro event hevent
    obtain ⟨packet, -, rfl⟩ := List.mem_map.mp hevent
    trivial
  intro event hevent
  unfold renderPackets at hevent
  dsimp only at hevent
  split at hevent
  · exact hrendered event hevent
  · split at hevent
    · rcases List.mem_append.mp hevent with hevent | hevent
      · exact hrendered event hevent
      · rw [List.mem_singleton.mp hevent]
        trivial
    · exact hrendered event hevent

theorem receiveControl_events (P : Openssl) (rtpScaled : UInt32 → UInt64) (rtp : RaopRtp)
    (next : RtpPoint) (received : Received) (around : Surroundings) :
    ∀ event ∈ (receiveControl P rtpScaled rtp next received around).2, IsPacketEvent event := by
  intro event hevent
  unfold receiveControl at hevent
  dsimp only at hevent
  split at hevent
  · split at hevent <;> rename_i hdecode <;>
      exact decodePacket_events P _ _ _ _ event (by rw [hdecode]; exact hevent)
  · split at hevent
    · split at hevent <;> cases hevent
    · cases hevent

theorem receiveData_events (P : Openssl) (rtpScaled : UInt32 → UInt64) (rtp : RaopRtp)
    (received : Received) (around : Surroundings) :
    ∀ event ∈ (receiveData P rtpScaled rtp received around).2, IsPacketEvent event := by
  intro event hevent
  unfold receiveData at hevent
  dsimp only at hevent
  split at hevent
  · split at hevent <;> rename_i hdecode
    · exact decodePacket_events P _ _ _ _ event (by rw [hdecode]; exact hevent)
    · exact decodePacket_events P _ _ _ _ event (by rw [hdecode]; exact hevent)
    · rcases List.mem_append.mp hevent with hevent | hevent
      · exact decodePacket_events P _ _ _ _ event (by rw [hdecode]; exact hevent)
      · exact renderPackets_events _ event hevent
  · cases hevent

/-- A step either handles the mailbox or reports nothing about it. -/
theorem rtpStep_events {rtp : RaopRtp} {label : RtpLabel} {r : RaopRtp × List RtpEvent}
    (hr : rtpStep P rtpScaled rtp label = some r) :
    (∃ taken since, label = .handleMailbox ∧ rtp.point = .handling taken since ∧
      r.2 = [.processed since (raopRtpProcessEvents rtp.callbacks taken) rtp.buffer
        ((raopRtpProcessEvents rtp.callbacks taken).foldl RtpAction.onBuffer rtp.buffer)]) ∨
    (label ≠ .handleMailbox ∧ ∀ event ∈ r.2, IsPacketEvent event) := by
  cases rtpMove_of_step hr with
  | handleMailbox taken since hpoint => exact Or.inl ⟨taken, since, rfl, hpoint, rfl⟩
  | receiveControl data received around =>
    exact Or.inr ⟨by simp, receiveControl_events P rtpScaled _ _ received around⟩
  | receiveData received around =>
    exact Or.inr ⟨by simp, receiveData_events P rtpScaled _ received around⟩
  | goOn _ hlabel => exact Or.inr ⟨hlabel, by simp⟩
  | _ => exact Or.inr ⟨by simp, by simp⟩

theorem processesRight_of_packetEvent {event : RtpEvent} (h : IsPacketEvent event) :
    ProcessesRight callbacks event := by
  cases event with
  | processed => exact h.elim
  | _ => trivial

/-- One step does what was requested exactly if the requests it handles agree. -/
theorem processesRight_step_iff {rtp : RaopRtp} {label : RtpLabel} {r : RaopRtp × List RtpEvent}
    (h : MailboxSafe callbacks rtp) (hr : rtpStep P rtpScaled rtp label = some r) :
    (∀ event ∈ r.2, ProcessesRight callbacks event) ↔ MailboxAgrees callbacks rtp label := by
  rcases rtpStep_events hr with ⟨taken, since, rfl, hpoint, hevents⟩ | ⟨hlabel, hevents⟩
  · have hacts := actsOnFlush_iff callbacks (h.handling taken since hpoint)
      rtp.buffer
    rw [hevents, h.callbacks]
    simp only [MailboxAgrees, hpoint, List.mem_singleton, forall_eq]
    exact hacts
  · refine ⟨fun _ => ?_, fun _ event hevent => processesRight_of_packetEvent (hevents event hevent)⟩
    cases label with
    | handleMailbox => exact absurd rfl hlabel
    | _ => trivial

/-- In a run every iteration flushes the jitter buffer and calls `audio_flush` as requested exactly
if, in every iteration, volume and flush requests agree. -/
theorem rtpFlush_acts_iff (P : Openssl) (rtpScaled : UInt32 → UInt64) (callbacks : RaopCallbacks)
    (aeskey aesiv ecdhSecret : Bytes) (run : List RtpLabel) :
    (∀ event ∈ events (rtpStep P rtpScaled) (raopRtpInit P callbacks aeskey aesiv ecdhSecret) run,
        ProcessesRight callbacks event) ↔
      Along (rtpStep P rtpScaled) (MailboxAgrees callbacks)
        (raopRtpInit P callbacks aeskey aesiv ecdhSecret) run := by
  have hinit := mailboxSafe_init P callbacks aeskey aesiv ecdhSecret
  constructor
  · exact along_of_emits (fun _ _ _ hs _ hr => mailboxSafe_step hs hr)
      (fun _ _ _ hs hr hright => (processesRight_step_iff hs hr).mp hright) hinit
  · exact emits_along (fun _ _ _ hs _ hr => mailboxSafe_step hs hr)
      (fun _ _ _ hs hg hr => (processesRight_step_iff hs hr).mpr hg) hinit

/-- A flush to packet 5 while the volume stays: the jitter buffer is not flushed. -/
theorem rtpFlush_ignored :
    ¬ ∀ (P : Openssl) (rtpScaled : UInt32 → UInt64) (callbacks : RaopCallbacks)
      (aeskey aesiv ecdhSecret : Bytes) (run : List RtpLabel),
      ∀ event ∈ events (rtpStep P rtpScaled)
        (raopRtpInit P callbacks aeskey aesiv ecdhSecret) run, ProcessesRight callbacks event := by
  intro h
  obtain ⟨garbage, hlen⟩ : ∃ garbage : Bytes, garbage.length = raopPacketLen :=
    ⟨List.replicate raopPacketLen 0, List.length_replicate⟩
  let callbacks : RaopCallbacks := ⟨true, true, true, true, true, true⟩
  have hevents : events (rtpStep default fun t => t.toUInt64)
      (raopRtpInit default callbacks [] [] [])
      [.start 0 true garbage, .post (.flush 5), .takeMailbox, .handleMailbox] =
      [.processed [.flush 5] [.audioFlush] (raopBufferInit default [] [] [])
        (raopBufferInit default [] [] [])] := by
    simp only [events, rtpStep, raopRtpStartAudio, raopRtpInit, hlen]
    rfl
  have hright := h default (fun t => t.toUInt64) callbacks [] [] [] _ _
    (by rw [hevents]; exact List.mem_singleton_self _)
  have hflushed : ([] : List ℤ) = [5] := hright.flushed
  cases hflushed

end WinAirPlay
