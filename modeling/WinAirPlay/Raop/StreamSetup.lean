import WinAirPlay.Raop.Streams
import WinAirPlay.Rtp.Events

/-! # What a stream `SETUP` tells the client

The ports are out-parameters of the start, which returns early and leaves them 0 if the session runs,
if its thread was not joined or if the sockets cannot be opened; the entry is made in any case. The
cipher of a mirror session is set up anew before the start looks at the session. So a `SETUP` tells
the truth and leaves running sessions alone exactly under the conditions `SetupSafe`, and a stream
that was started cannot be set up again before a stop has joined its thread.
-/

namespace WinAirPlay.Raop
open Foundations.ByteBuffer Foundations.CheckedMemory Foundations.Transition
set_option autoImplicit false

def StreamWorld.currentMirror (w : StreamWorld) : Option RaopRtpMirror :=
  w.raopRtpMirror.bind (w.mirrors[·]?)

def StreamWorld.currentAudio (w : StreamWorld) : Option AudioSession :=
  w.raopRtp.bind (w.audios[·]?)

/-- The session runs and its socket is bound to this port. -/
structure RaopRtpMirror.ListensOn (mirror : RaopRtpMirror) (dataPort : BitVec 16) : Prop where
  running : mirror.service.running = true
  dataSock : ∃ sock, mirror.mirrorDataSock = some sock ∧ sock.port = dataPort

structure AudioSession.ListensOn (audio : AudioSession) (dataPort controlPort : BitVec 16) :
    Prop where
  running : audio.running = true
  dataSock : ∃ sock, audio.dsock = some sock ∧ sock.port = dataPort
  controlSock : ∃ sock, audio.csock = some sock ∧ sock.port = controlPort

/-- The entry names the ports of the session that its stream has now. -/
def StreamReply.Holds (w : StreamWorld) : StreamReply → Prop
  | .mirroring dataPort => ∃ mirror, w.currentMirror = some mirror ∧ mirror.ListensOn dataPort
  | .audio dataPort controlPort =>
    ∃ audio, w.currentAudio = some audio ∧ audio.ListensOn dataPort controlPort

/-- Cipher, socket and port are as they were. -/
structure RaopRtpMirror.Kept (before after : RaopRtpMirror) : Prop where
  buffer : after.buffer = before.buffer
  dataSock : after.mirrorDataSock = before.mirrorDataSock
  dataLport : after.mirrorDataLport = before.mirrorDataLport

structure AudioSession.Kept (before after : AudioSession) : Prop where
  buffer : after.buffer = before.buffer
  csock : after.csock = before.csock
  dsock : after.dsock = before.dsock
  controlLport : after.controlLport = before.controlLport
  dataLport : after.dataLport = before.dataLport

/-- A step of the handler tells the truth, unless the response sets disconnect, and leaves all running
sessions alone. -/
structure SetupRight (w : StreamWorld) (r : StreamWorld × List StreamReply) : Prop where
  truthful : w.disconnect = false → ∀ reply ∈ r.2, reply.Holds r.1
  mirrors : ∀ (i : ℕ) (mirror : RaopRtpMirror), w.mirrors[i]? = some mirror →
    mirror.service.running = true → ∃ after, r.1.mirrors[i]? = some after ∧ mirror.Kept after
  audios : ∀ (i : ℕ) (audio : AudioSession), w.audios[i]? = some audio →
    audio.running = true → ∃ after, r.1.audios[i]? = some after ∧ audio.Kept after

def StreamLabel.ofHandler : StreamLabel → Prop
  | .setup .. | .call _ => True
  | _ => False

/-- Key or IV of a stream. -/
def streamKey (P : Openssl) (buffer : MirrorBuffer) (salt : String) (streamConnectionID : UInt64) :
    Bytes :=
  (P.sha512 (streamSalt salt streamConnectionID ++
    (P.sha512 (buffer.aeskey ++ buffer.ecdhSecret)).take 16)).take 16

/-- The cipher is that of this stream, and nothing was decrypted yet. -/
structure Unused (P : Openssl) (buffer : MirrorBuffer) (streamConnectionID : UInt64) : Prop where
  count : buffer.nextDecryptCount = 0
  cipher : buffer.aesCtx = some (aesCtrInit
    (streamKey P buffer "AirPlayStreamKey" streamConnectionID)
    (streamKey P buffer "AirPlayStreamIV" streamConnectionID))

/-- The conditions on a call for an entry of `streams`. -/
def SetupSafe (P : Openssl) (w : StreamWorld) : StreamLabel → Prop
  | .call found =>
    match w.todo with
    | .initMirrorAes streamConnectionID :: _ => ∀ mirror, w.currentMirror = some mirror →
      mirror.service.running = true →
        Unused P mirror.buffer (UInt64.ofNat (streamConnectionID.getD found.streamConnectionID))
    | .startMirror _ :: _ => w.disconnect = false → ∀ mirror, w.currentMirror = some mirror →
      mirror.service.running = false ∧ mirror.service.joined = true ∧
        found.mirrorSock.isSome = true
    | .startAudio .. :: _ => w.disconnect = false → ∀ audio, w.currentAudio = some audio →
      audio.running = false ∧ audio.joined = true ∧ found.audioSocks.isSome = true
    | _ => True
  | _ => True

/-! ## The calls -/

theorem raopRtpStartMirror_listens_iff (mirror : RaopRtpMirror) (sock : Option BoundSocket) :
    (raopRtpStartMirror mirror sock 0).1.ListensOn (raopRtpStartMirror mirror sock 0).2 ↔
      mirror.service.running = false ∧ mirror.service.joined = true ∧ sock.isSome = true := by
  unfold raopRtpStartMirror
  split_ifs with hearly
  · refine iff_of_false ?_ ?_
    · rintro ⟨-, sock, -, hport⟩
      exact sock.bound hport
    · rintro ⟨hrunning, hjoined, -⟩
      simp [hrunning, hjoined] at hearly
  · have hfree : mirror.service.running = false ∧ mirror.service.joined = true := by
      simpa using hearly
    cases sock with
    | none =>
      refine iff_of_false (fun h => ?_) (by simp)
      have hrunning := h.running
      simp [hfree.1] at hrunning
    | some sock =>
      refine iff_of_true ⟨?_, sock, rfl, rfl⟩ ⟨hfree.1, hfree.2, rfl⟩
      simp [serviceStart, hfree.1, hfree.2]

theorem startAudioSession_listens_iff (audio : AudioSession) (controlRport : BitVec 16)
    (socks : Option (BoundSocket × BoundSocket)) (garbage : Bytes) :
    (startAudioSession audio controlRport socks garbage 0 0).1.ListensOn
        (startAudioSession audio controlRport socks garbage 0 0).2.2
        (startAudioSession audio controlRport socks garbage 0 0).2.1 ↔
      audio.running = false ∧ audio.joined = true ∧ socks.isSome = true := by
  unfold startAudioSession
  dsimp only
  split_ifs with hearly
  · refine iff_of_false ?_ ?_
    · rintro ⟨-, ⟨sock, -, hport⟩, -⟩
      exact sock.bound hport
    · rintro ⟨hrunning, hjoined, -⟩
      simp [hrunning, hjoined] at hearly
  · have hfree : audio.running = false ∧ audio.joined = true := by
      simpa using hearly
    cases socks with
    | none =>
      refine iff_of_false (fun h => ?_) (by simp)
      have hrunning := h.running
      simp [raopRtpStartAudio, hfree.1, hfree.2] at hrunning
    | some socks =>
      refine iff_of_true ⟨?_, ⟨socks.2, rfl, rfl⟩, socks.1, rfl, rfl⟩ ⟨hfree.1, hfree.2, rfl⟩
      simp [raopRtpStartAudio, hfree.1, hfree.2]

theorem raopRtpStartMirror_early {mirror : RaopRtpMirror}
    (h : mirror.service.running = true ∨ mirror.service.joined = false)
    (sock : Option BoundSocket) (dport : BitVec 16) :
    raopRtpStartMirror mirror sock dport = (mirror, dport) := if_pos (by simpa using h)

theorem startAudioSession_early {audio : AudioSession}
    (h : audio.running = true ∨ audio.joined = false) (controlRport : BitVec 16)
    (socks : Option (BoundSocket × BoundSocket)) (garbage : Bytes) (cport dport : BitVec 16) :
    startAudioSession audio controlRport socks garbage cport dport = (audio, cport, dport) :=
  if_pos (by simpa using h)

/-- Setting the cipher up anew changes nothing only if it was never used. -/
theorem raopRtpInitMirrorAes_kept_iff (P : Openssl) (mirror : RaopRtpMirror)
    (streamConnectionID : UInt64) :
    mirror.Kept (raopRtpInitMirrorAes P mirror streamConnectionID) ↔
      Unused P mirror.buffer streamConnectionID := by
  constructor
  · intro h
    have hbuffer : mirrorBufferInitAes P mirror.buffer streamConnectionID = mirror.buffer := h.buffer
    refine ⟨?_, ?_⟩
    · rw [← hbuffer]
      rfl
    · conv_lhs => rw [← hbuffer]
      rfl
  · intro h
    refine ⟨?_, rfl, rfl⟩
    calc mirrorBufferInitAes P mirror.buffer streamConnectionID
      _ = { mirror.buffer with
            aesCtx := some (aesCtrInit
              (streamKey P mirror.buffer "AirPlayStreamKey" streamConnectionID)
              (streamKey P mirror.buffer "AirPlayStreamIV" streamConnectionID))
            nextDecryptCount := 0 } := rfl
      _ = { mirror.buffer with
            aesCtx := mirror.buffer.aesCtx
            nextDecryptCount := mirror.buffer.nextDecryptCount } := by rw [h.cipher, h.count]
      _ = mirror.buffer := rfl

/-! ## A step of the handler -/

theorem kept_set_iff {α : Type*} {table : List α} {i : ℕ} {a a' : α} (hi : table[i]? = some a)
    {R : α → Prop} {K : α → α → Prop} (hrefl : ∀ b, K b b) :
    (∀ (j : ℕ) (b : α), table[j]? = some b → R b → ∃ b', (table.set i a')[j]? = some b' ∧ K b b') ↔
      (R a → K a a') := by
  have hlt : i < table.length := (List.getElem?_eq_some_iff.mp hi).1
  constructor
  · intro h hR
    obtain ⟨b', hb', hK⟩ := h i a hi hR
    rw [List.getElem?_set_self hlt] at hb'
    rwa [Option.some.inj hb']
  · intro h j b hj hR
    by_cases hij : i = j
    · subst hij
      obtain rfl : a = b := Option.some.inj (hi.symm.trans hj)
      exact ⟨a', List.getElem?_set_self hlt, h hR⟩
    · exact ⟨b, by rw [List.getElem?_set_ne hij, hj], hrefl b⟩

theorem getElem?_of_isPrefix {α : Type*} {table table' : List α} (h : table <+: table') {i : ℕ}
    {a : α} (hi : table[i]? = some a) : table'[i]? = some a := by
  obtain ⟨created, rfl⟩ := h
  rw [List.getElem?_append_left (List.getElem?_eq_some_iff.mp hi).1, hi]

theorem RaopRtpMirror.Kept.refl (mirror : RaopRtpMirror) : mirror.Kept mirror := ⟨rfl, rfl, rfl⟩

theorem AudioSession.Kept.refl (audio : AudioSession) : audio.Kept audio :=
  ⟨rfl, rfl, rfl, rfl, rfl⟩

section
variable {w : StreamWorld} {i : ℕ} {r : StreamWorld × List StreamReply}

theorem setupRight_mirror_iff {mirror : RaopRtpMirror} (hmirror : w.mirrors[i]? = some mirror)
    (after : RaopRtpMirror) (todo : List MediaCall) (replies : List StreamReply) :
    SetupRight w ({ w with todo, mirrors := w.mirrors.set i after }, replies) ↔
      (w.disconnect = false → ∀ reply ∈ replies,
        reply.Holds { w with todo, mirrors := w.mirrors.set i after }) ∧
      (mirror.service.running = true → mirror.Kept after) := by
  have hkept := @kept_set_iff _ _ _ _ after hmirror (fun mirror => mirror.service.running = true)
    RaopRtpMirror.Kept RaopRtpMirror.Kept.refl
  constructor
  · exact fun h => ⟨h.truthful, hkept.mp h.mirrors⟩
  · exact fun h => ⟨h.1, hkept.mpr h.2, fun j audio haudio _ => ⟨audio, haudio, .refl audio⟩⟩

theorem setupRight_audio_iff {audio : AudioSession} (haudio : w.audios[i]? = some audio)
    (after : AudioSession) (todo : List MediaCall) (replies : List StreamReply) :
    SetupRight w ({ w with todo, audios := w.audios.set i after }, replies) ↔
      (w.disconnect = false → ∀ reply ∈ replies,
        reply.Holds { w with todo, audios := w.audios.set i after }) ∧
      (audio.running = true → audio.Kept after) := by
  have hkept := @kept_set_iff _ _ _ _ after haudio (fun audio => audio.running = true)
    AudioSession.Kept AudioSession.Kept.refl
  constructor
  · exact fun h => ⟨h.truthful, hkept.mp h.audios⟩
  · exact fun h => ⟨h.1, fun j mirror hmirror _ => ⟨mirror, hmirror, .refl mirror⟩, hkept.mpr h.2⟩

theorem currentMirror_eq {mirror : RaopRtpMirror} (hpointer : w.raopRtpMirror = some i)
    (hmirror : w.mirrors[i]? = some mirror) : w.currentMirror = some mirror := by
  rw [StreamWorld.currentMirror, hpointer]
  exact hmirror

theorem currentAudio_eq {audio : AudioSession} (hpointer : w.raopRtp = some i)
    (haudio : w.audios[i]? = some audio) : w.currentAudio = some audio := by
  rw [StreamWorld.currentAudio, hpointer]
  exact haudio

theorem mirroring_holds_iff {mirror : RaopRtpMirror} (hpointer : w.raopRtpMirror = some i)
    (hmirror : w.mirrors[i]? = some mirror) (after : RaopRtpMirror) (todo : List MediaCall)
    (dataPort : BitVec 16) :
    (StreamReply.mirroring dataPort).Holds { w with todo, mirrors := w.mirrors.set i after } ↔
      after.ListensOn dataPort := by
  have hlt := (List.getElem?_eq_some_iff.mp hmirror).1
  have hcurrent := @currentMirror_eq { w with todo, mirrors := w.mirrors.set i after } i after
    hpointer (List.getElem?_set_self hlt)
  simp [StreamReply.Holds, hcurrent]

theorem audio_holds_iff {audio : AudioSession} (hpointer : w.raopRtp = some i)
    (haudio : w.audios[i]? = some audio) (after : AudioSession) (todo : List MediaCall)
    (dataPort controlPort : BitVec 16) :
    (StreamReply.audio dataPort controlPort).Holds
        { w with todo, audios := w.audios.set i after } ↔
      after.ListensOn dataPort controlPort := by
  have hlt := (List.getElem?_eq_some_iff.mp haudio).1
  have hcurrent := @currentAudio_eq { w with todo, audios := w.audios.set i after } i after
    hpointer (List.getElem?_set_self hlt)
  simp [StreamReply.Holds, hcurrent]

variable {P : Openssl} {F : Playfair} {L : Libplist} {rtpScaled : UInt32 → UInt64}
  {callbacks : RaopCallbacks} {found : Found} {call : MediaCall} {todo : List MediaCall}

theorem setupRight_call_iff (htodo : w.todo = call :: todo)
    (hr : streamCall P found { w with todo } call = some r) :
    SetupRight w r ↔ SetupSafe P w (.call found) := by
  cases call with
  | initMirrorAes streamConnectionID =>
    obtain ⟨i, hpointer, hr⟩ := Option.bind_eq_some_iff.mp hr
    obtain ⟨mirror, hmirror, r', hr', rfl⟩ := stepMirror_eq_some.mp hr
    obtain rfl := Option.some.inj hr'
    have hmirror : w.mirrors[i]? = some mirror := hmirror
    have hcurrent : w.currentMirror = some mirror := currentMirror_eq hpointer hmirror
    refine (setupRight_mirror_iff hmirror _ todo []).trans ?_
    rw [raopRtpInitMirrorAes_kept_iff]
    simp [SetupSafe, htodo, hcurrent]
  | startMirror useUdp =>
    obtain ⟨i, hpointer, hr⟩ := Option.bind_eq_some_iff.mp hr
    obtain ⟨mirror, hmirror, r', hr', rfl⟩ := stepMirror_eq_some.mp hr
    obtain rfl := Option.some.inj hr'
    have hmirror : w.mirrors[i]? = some mirror := hmirror
    have hcurrent : w.currentMirror = some mirror := currentMirror_eq hpointer hmirror
    -- a session that runs is left alone by the early return
    have hkept : mirror.service.running = true →
        mirror.Kept (raopRtpStartMirror mirror found.mirrorSock 0).1 := fun hrunning => by
      rw [raopRtpStartMirror_early (.inl hrunning)]
      exact .refl mirror
    refine (setupRight_mirror_iff hmirror _ todo _).trans ?_
    rw [and_iff_left hkept, List.forall_mem_singleton,
      mirroring_holds_iff hpointer hmirror, raopRtpStartMirror_listens_iff]
    simp [SetupSafe, htodo, hcurrent]
  | startAudio useUdp controlRport =>
    obtain ⟨i, hpointer, hr⟩ := Option.bind_eq_some_iff.mp hr
    obtain ⟨audio, haudio, r', hr', rfl⟩ := stepAudio_eq_some.mp hr
    have hgarbage : found.garbage.length = raopPacketLen := by
      by_contra hne
      rw [if_pos hne] at hr'
      exact absurd hr' (by simp)
    rw [if_neg (not_not.mpr hgarbage)] at hr'
    obtain rfl := Option.some.inj hr'
    have haudio : w.audios[i]? = some audio := haudio
    have hcurrent : w.currentAudio = some audio := currentAudio_eq hpointer haudio
    have hkept : audio.running = true → audio.Kept (startAudioSession audio
        (BitVec.ofNat 16 controlRport) found.audioSocks found.garbage 0 0).1 := fun hrunning => by
      rw [startAudioSession_early (.inl hrunning)]
      exact .refl audio
    refine (setupRight_audio_iff haudio _ todo _).trans ?_
    rw [and_iff_left hkept, List.forall_mem_singleton,
      audio_holds_iff hpointer haudio, startAudioSession_listens_iff]
    simp [SetupSafe, htodo, hcurrent]
  | _ => exact absurd hr (by simp [streamCall])

theorem setupRight_step_iff
    (hr : streamStep P F L rtpScaled callbacks w (.call found) = some r) :
    SetupRight w r ↔ SetupSafe P w (.call found) := by
  simp only [streamStep] at hr
  split at hr
  · next htodo => exact setupRight_call_iff htodo hr
  · exact absurd hr (by simp)

theorem createSession_isPrefix (calls : List MediaCall) (w : StreamWorld) :
    w.mirrors <+: (calls.foldl (createSession P callbacks found) w).mirrors ∧
      w.audios <+: (calls.foldl (createSession P callbacks found) w).audios := by
  induction calls generalizing w with
  | nil => exact ⟨List.prefix_rfl, List.prefix_rfl⟩
  | cons call calls ih =>
    have hcall : w.mirrors <+: (createSession P callbacks found w call).mirrors ∧
        w.audios <+: (createSession P callbacks found w call).audios := by
      cases call with
      | rtpInit => exact ⟨List.prefix_rfl, List.prefix_append _ _⟩
      | mirrorInit => exact ⟨List.prefix_append _ _, List.prefix_rfl⟩
      | _ => exact ⟨List.prefix_rfl, List.prefix_rfl⟩
    exact ⟨hcall.1.trans (ih _).1, hcall.2.trans (ih _).2⟩

/-- The handler up to its loop over `streams`. -/
theorem setupRight_created (calls : List MediaCall) (conn : RaopConnS) (todo : List MediaCall)
    (disconnect : Bool) :
    SetupRight w ({ calls.foldl (createSession P callbacks found) w with
      conn, todo, disconnect }, []) := by
  obtain ⟨hmirrors, haudios⟩ := @createSession_isPrefix P callbacks found calls w
  refine ⟨fun _ reply hreply => absurd hreply List.not_mem_nil, fun i mirror hmirror _ => ?_,
    fun i audio haudio _ => ?_⟩
  · exact ⟨mirror, getElem?_of_isPrefix hmirrors hmirror, .refl mirror⟩
  · exact ⟨audio, getElem?_of_isPrefix haudios haudio, .refl audio⟩

end

/-! ## A session that was started -/

section
variable {P : Openssl} {F : Playfair} {L : Libplist} {rtpScaled : UInt32 → UInt64}
  {callbacks : RaopCallbacks} {w w' : StreamWorld} {r : StreamWorld × List StreamReply} {i : ℕ}

/-- A start returns early, and only the join of a stop sets `joined`. -/
theorem rtpStep_unjoined {rtp : RaopRtp} {label : RtpLabel} {r : RaopRtp × List RtpEvent}
    (hjoined : rtp.joined = false) (hlabel : label ≠ .join)
    (hr : rtpStep P rtpScaled rtp label = some r) : r.1.joined = false := by
  cases rtpMove_of_step hr with
  | join => exact absurd rfl hlabel
  | start => simp [raopRtpStartAudio, hjoined]
  | receiveControl data received around =>
    exact (receiveControl_frame P rtpScaled rtp (by cases data <;> simp) received
      around).joined.trans hjoined
  | receiveData received around =>
    exact (receiveData_frame P rtpScaled rtp received around).joined.trans hjoined
  | _ => exact hjoined

/-- The same of the mirror session, where `finish` is the end of the stop. -/
theorem serviceStep_unjoined {code : ServiceCode} {s : ServiceState} {label : ServiceLabel}
    {r : ServiceState × List ServiceReturn} (hjoined : s.joined = false) (hlabel : label ≠ .finish)
    (hr : serviceStep code s label = some r) : r.1.joined = false := by
  cases serviceMove_of_step hr with
  | finish => exact absurd rfl hlabel
  | start sockets => simp [serviceStart, hjoined]
  | _ => exact hjoined

theorem audioSessionStep_rtp {idle : Bool} {audio : AudioSession} {label : RtpLabel}
    {r : AudioSession × List StreamReply}
    (hr : audioSessionStep P rtpScaled idle audio label = some r) :
    ∃ r', rtpStep P rtpScaled audio.toRaopRtp label = some r' ∧ r.1.toRaopRtp = r'.1 := by
  unfold audioSessionStep at hr
  dsimp only at hr
  obtain ⟨-, hr⟩ := Option.ite_none_right_eq_some.mp hr
  obtain ⟨r', hr', rfl⟩ := Option.map_eq_some_iff.mp hr
  refine ⟨r', hr', ?_⟩
  cases label <;> rfl

theorem mirrorSessionStep_service {idle : Bool} {mirror : RaopRtpMirror} {label : ServiceLabel}
    {r : RaopRtpMirror × List StreamReply} (hr : mirrorSessionStep idle mirror label = some r) :
    ∃ r', serviceStep raopRtpMirrorService mirror.service label = some r' ∧
      r.1.service = r'.1 := by
  unfold mirrorSessionStep at hr
  dsimp only at hr
  obtain ⟨-, hr⟩ := Option.ite_none_right_eq_some.mp hr
  obtain ⟨r', hr', rfl⟩ := Option.map_eq_some_iff.mp hr
  exact ⟨r', hr', rfl⟩

theorem exists_set_of_exists {α : Type*} {table : List α} {i j : ℕ} {R : α → Prop} {a a' : α}
    (hj : table[j]? = some a) (hR : R a → R a') (h : ∃ b, table[i]? = some b ∧ R b) :
    ∃ b, (table.set j a')[i]? = some b ∧ R b := by
  obtain ⟨b, hb, hRb⟩ := h
  by_cases hij : j = i
  · subst hij
    obtain rfl : a = b := Option.some.inj (hj.symm.trans hb)
    exact ⟨a', List.getElem?_set_self (List.getElem?_eq_some_iff.mp hj).1, hR hRb⟩
  · exact ⟨b, by rw [List.getElem?_set_ne hij, hb], hRb⟩

/-- The audio session at this place was started, and its thread not joined since. -/
def AudioUnjoined (i : ℕ) (w : StreamWorld) : Prop :=
  ∃ audio, w.audios[i]? = some audio ∧ audio.joined = false

def MirrorUnjoined (i : ℕ) (w : StreamWorld) : Prop :=
  ∃ mirror, w.mirrors[i]? = some mirror ∧ mirror.service.joined = false

theorem stepAudio_unjoined {j : ℕ} {f : AudioSession → Option (AudioSession × List StreamReply)}
    (hf : ∀ audio r', w.audios[j]? = some audio → f audio = some r' → audio.joined = false →
      r'.1.joined = false)
    (h : AudioUnjoined i w) (hr : stepAudio w j f = some r) : AudioUnjoined i r.1 := by
  obtain ⟨audio, haudio, r', hr', rfl⟩ := stepAudio_eq_some.mp hr
  exact exists_set_of_exists haudio (hf audio r' haudio hr') h

theorem stepMirror_unjoined {j : ℕ}
    {f : RaopRtpMirror → Option (RaopRtpMirror × List StreamReply)}
    (hf : ∀ mirror r', w.mirrors[j]? = some mirror → f mirror = some r' →
      mirror.service.joined = false → r'.1.service.joined = false)
    (h : MirrorUnjoined i w) (hr : stepMirror w j f = some r) : MirrorUnjoined i r.1 := by
  obtain ⟨mirror, hmirror, r', hr', rfl⟩ := stepMirror_eq_some.mp hr
  exact exists_set_of_exists hmirror (hf mirror r' hmirror hr') h

theorem stepMirror_audioUnjoined {j : ℕ}
    {f : RaopRtpMirror → Option (RaopRtpMirror × List StreamReply)} (h : AudioUnjoined i w)
    (hr : stepMirror w j f = some r) : AudioUnjoined i r.1 := by
  obtain ⟨mirror, -, r', -, rfl⟩ := stepMirror_eq_some.mp hr
  exact h

theorem stepAudio_mirrorUnjoined {j : ℕ}
    {f : AudioSession → Option (AudioSession × List StreamReply)} (h : MirrorUnjoined i w)
    (hr : stepAudio w j f = some r) : MirrorUnjoined i r.1 := by
  obtain ⟨audio, -, r', -, rfl⟩ := stepAudio_eq_some.mp hr
  exact h

theorem audioUnjoined_step {label : StreamLabel} (h : AudioUnjoined i w)
    (hlabel : ∀ j, label ≠ .audio j .join)
    (hr : streamStep P F L rtpScaled callbacks w label = some r) : AudioUnjoined i r.1 := by
  cases label with
  | setup x found =>
    simp only [streamStep] at hr
    split at hr
    · obtain rfl := Option.some.inj hr
      obtain ⟨audio, haudio, hjoined⟩ := h
      exact ⟨audio, getElem?_of_isPrefix (createSession_isPrefix _ w).2 haudio, hjoined⟩
    · exact absurd hr (by simp)
  | call found =>
    simp only [streamStep] at hr
    split at hr
    · next call todo htodo =>
      have htail : AudioUnjoined i { w with todo } := h
      cases call with
      | initMirrorAes =>
        obtain ⟨j, -, hr⟩ := Option.bind_eq_some_iff.mp hr
        exact stepMirror_audioUnjoined htail hr
      | startMirror =>
        obtain ⟨j, -, hr⟩ := Option.bind_eq_some_iff.mp hr
        exact stepMirror_audioUnjoined htail hr
      | startAudio =>
        obtain ⟨j, -, hr⟩ := Option.bind_eq_some_iff.mp hr
        refine stepAudio_unjoined (fun audio r' _ hr' hjoined => ?_) htail hr
        split_ifs at hr'
        obtain rfl := Option.some.inj hr'
        rw [startAudioSession_early (.inr hjoined)]
        exact hjoined
      | _ => exact absurd hr (by simp [streamCall])
    · exact absurd hr (by simp)
  | audio j label =>
    refine stepAudio_unjoined (fun audio r' _ hr' hjoined => ?_) h hr
    have hjoin : label ≠ .join := fun hjoin => hlabel j (by rw [hjoin])
    obtain ⟨rtp, hrtp, hsame⟩ := audioSessionStep_rtp hr'
    rw [hsame]
    exact rtpStep_unjoined hjoined hjoin hrtp
  | mirror j label => exact stepMirror_audioUnjoined h hr
  | decrypt j input output inputLen => exact stepMirror_audioUnjoined h hr

theorem mirrorUnjoined_step {label : StreamLabel} (h : MirrorUnjoined i w)
    (hlabel : ∀ j, label ≠ .mirror j .finish)
    (hr : streamStep P F L rtpScaled callbacks w label = some r) : MirrorUnjoined i r.1 := by
  cases label with
  | setup x found =>
    simp only [streamStep] at hr
    split at hr
    · obtain rfl := Option.some.inj hr
      obtain ⟨mirror, hmirror, hjoined⟩ := h
      exact ⟨mirror, getElem?_of_isPrefix (createSession_isPrefix _ w).1 hmirror, hjoined⟩
    · exact absurd hr (by simp)
  | call found =>
    simp only [streamStep] at hr
    split at hr
    · next call todo htodo =>
      have htail : MirrorUnjoined i { w with todo } := h
      cases call with
      | initMirrorAes =>
        obtain ⟨j, -, hr⟩ := Option.bind_eq_some_iff.mp hr
        refine stepMirror_unjoined (fun mirror r' _ hr' hjoined => ?_) htail hr
        obtain rfl := Option.some.inj hr'
        exact hjoined
      | startMirror =>
        obtain ⟨j, -, hr⟩ := Option.bind_eq_some_iff.mp hr
        refine stepMirror_unjoined (fun mirror r' _ hr' hjoined => ?_) htail hr
        obtain rfl := Option.some.inj hr'
        dsimp only
        rw [raopRtpStartMirror_early (.inr hjoined)]
        exact hjoined
      | startAudio =>
        obtain ⟨j, -, hr⟩ := Option.bind_eq_some_iff.mp hr
        exact stepAudio_mirrorUnjoined htail hr
      | _ => exact absurd hr (by simp [streamCall])
    · exact absurd hr (by simp)
  | audio j label => exact stepAudio_mirrorUnjoined h hr
  | mirror j label =>
    refine stepMirror_unjoined (fun mirror r' _ hr' hjoined => ?_) h hr
    have hfinish : label ≠ .finish := fun hfinish => hlabel j (by rw [hfinish])
    obtain ⟨service, hservice, hsame⟩ := mirrorSessionStep_service hr'
    rw [hsame]
    exact serviceStep_unjoined hjoined hfinish hservice
  | decrypt j input output inputLen =>
    refine stepMirror_unjoined (fun mirror r' _ hr' hjoined => ?_) h hr
    unfold mirrorSessionDecrypt at hr'
    split at hr'
    · obtain rfl := Option.some.inj hr'
      exact hjoined
    · exact absurd hr' (by simp)

/-- However a run goes on after a start, the next one is not safe before a stop has joined the
thread. -/
theorem audio_repeated_unsafe {labels : List StreamLabel} (h : AudioUnjoined i w)
    (hlabels : ∀ label ∈ labels, ∀ j, label ≠ .audio j .join)
    (hrun : run (streamStep P F L rtpScaled callbacks) w labels = some w')
    (hpointer : w'.raopRtp = some i) (hdisconnect : w'.disconnect = false) {useUdp : Bool}
    {controlRport : ℕ} {todo : List MediaCall}
    (htodo : w'.todo = .startAudio useUdp controlRport :: todo) (found : Found) :
    ¬ SetupSafe P w' (.call found) := by
  have hunjoined : AudioUnjoined i w' :=
    invariant_along (fun w label r h hlabel hr => audioUnjoined_step h hlabel hr) h
      ((along_label_iff hrun).mpr hlabels) hrun
  obtain ⟨audio, haudio, hjoined⟩ := hunjoined
  intro hsafe
  simp only [SetupSafe, htodo] at hsafe
  have hstart := (hsafe hdisconnect audio (currentAudio_eq hpointer haudio)).2.1
  exact absurd (hjoined.symm.trans hstart) (by decide)

theorem mirror_repeated_unsafe {labels : List StreamLabel} (h : MirrorUnjoined i w)
    (hlabels : ∀ label ∈ labels, ∀ j, label ≠ .mirror j .finish)
    (hrun : run (streamStep P F L rtpScaled callbacks) w labels = some w')
    (hpointer : w'.raopRtpMirror = some i) (hdisconnect : w'.disconnect = false) {useUdp : Bool}
    {todo : List MediaCall} (htodo : w'.todo = .startMirror useUdp :: todo) (found : Found) :
    ¬ SetupSafe P w' (.call found) := by
  have hunjoined : MirrorUnjoined i w' :=
    invariant_along (fun w label r h hlabel hr => mirrorUnjoined_step h hlabel hr) h
      ((along_label_iff hrun).mpr hlabels) hrun
  obtain ⟨mirror, hmirror, hjoined⟩ := hunjoined
  intro hsafe
  simp only [SetupSafe, htodo] at hsafe
  have hstart := (hsafe hdisconnect mirror (currentMirror_eq hpointer hmirror)).2.1
  exact absurd (hjoined.symm.trans hstart) (by decide)

end

/-! ## A stream that is set up twice -/

/-- A `SETUP` of one stream of type 96. -/
def audioBody : Bytes :=
  [98, 112, 108, 105, 115, 116, 48, 48, 209, 1, 2, 87, 115, 116, 114, 101, 97, 109, 115, 161, 3, 209,
    4, 5, 84, 116, 121, 112, 101, 16, 96, 8, 11, 19, 21, 24, 29, 0, 0, 0, 0, 0, 0, 1, 1, 0, 0, 0, 0,
    0, 0, 0, 6, 0, 0, 0, 0, 0, 0, 0, 0, 0, 0, 0, 0, 0, 0, 0, 31]

def audioRoot : Plist :=
  plistNewDict [("streams", .array [plistNewDict [("type", .uint 96)]])]

def streamsPlist : Libplist where
  fromBin := fun body =>
    if body = audioBody then some audioRoot else keysPlist.fromBin body
  toBin := keysPlist.toBin

def audioExchange : RaopExchange := plainExchange {
  method := "SETUP"
  url := ascii "rtsp://192.168.1.2/1"
  headers := [(ascii "CSeq", ascii "3")]
  body := audioBody }

theorem setupRoot_audioExchange : setupRoot streamsPlist audioExchange = some audioRoot := by
  have hbody : plistBody audioExchange.request = audioBody :=
    List.take_of_length_le (by decide +kernel)
  rw [setupRoot, hbody]
  simp only [streamsPlist, if_true]

theorem setupRoot_streamsPlist : setupRoot streamsPlist keysExchange = some keysRoot := by
  have hbody : plistBody keysExchange.request = keysBody :=
    List.take_of_length_le (by decide +kernel)
  have hne : keysBody ≠ audioBody := by decide +kernel
  have hkeys : setupRoot keysPlist keysExchange = some keysRoot := setupRoot_keysExchange
  rw [setupRoot, hbody] at hkeys ⊢
  simp only [streamsPlist, if_neg hne]
  exact hkeys

section
variable {P : Openssl} {F : Playfair} {rtpScaled : UInt32 → UInt64} {callbacks : RaopCallbacks}
  {found : Found}

theorem streamStep_setup {L : Libplist} {w : StreamWorld} {x : RaopExchange} {o : Outcome}
    (hidle : w.idle = true) (ho : raopHandlerSetup F L w.conn x = .ok o) :
    streamStep P F L rtpScaled callbacks w (.setup x found) =
      some ({ o.calls.foldl (createSession P callbacks found) w with
        conn := o.conn
        todo := o.calls.filter MediaCall.ofStream
        disconnect := o.disconnect }, []) := by
  simp only [streamStep, hidle, ho]

theorem setup_audioExchange {w : StreamWorld} (hidle : w.idle = true)
    (hrtp : w.conn.raopRtp.isSome = true) :
    ∃ useUdp, streamStep P F streamsPlist rtpScaled callbacks w (.setup audioExchange found) =
      some ({ w with todo := [.startAudio useUdp 0], disconnect := false }, []) := by
  have hkeys : setupKeys F w.conn audioExchange (setupRoot streamsPlist audioExchange) =
      .ok ⟨w.conn, [], false, []⟩ := by
    rw [setupRoot_audioExchange]
    rfl
  obtain ⟨o, ho⟩ : ∃ o, raopHandlerSetup F streamsPlist w.conn audioExchange = .ok o := by
    rw [raopHandlerSetup_eq (completed_httpRequestOf _), hkeys, ok_bind]
    exact ⟨_, rfl⟩
  obtain ⟨keys, useUdp, hkeys', hconn, hdisconnect, hcalls, hcreated⟩ :=
    @raopHandlerSetup_calls P F streamsPlist callbacks found _ _ _ ho
  obtain rfl : _ = keys := Except.ok.inj (hkeys.symm.trans hkeys')
  have hstreams : (setupStreams w.conn audioExchange useUdp (some audioRoot)).disconnect = false ∧
      (setupStreams w.conn audioExchange useUdp (some audioRoot)).calls = [.startAudio useUdp 0] := by
    have hitems : plistArrayItems (plistDictGetItem (some audioRoot) "streams") =
        some [plistNewDict [("type", .uint 96)]] := rfl
    have hpass : setupStream w.conn audioExchange useUdp 0 (plistNewDict [("type", .uint 96)]) =
        ([plistNewDict [("dataPort", .uint 0), ("controlPort", .uint 0), ("type", .uint 96)]],
          [.startAudio useUdp 0], false) := by
      have htype : plistGetUintVal (plistDictGetItem (some (plistNewDict [("type", .uint 96)]))
          "type") = some 96 := rfl
      simp [setupStream, htype, hrtp, audioExchange, plainExchange]
    simp [setupStreams, hitems, hpass]
  rw [setupRoot_audioExchange] at hdisconnect hcalls
  refine ⟨useUdp, ?_⟩
  rw [streamStep_setup hidle ho, hcreated, hconn, hcalls, hdisconnect, hstreams.1, hstreams.2]
  rfl

theorem setup_keysExchange {conn : RaopConnS} (hremote : conn.remote.length = 4)
    (hkeymsg : conn.fairplay.keymsg.length = 164) (hready : conn.fairplay.keymsglen ≠ 164) :
    ∃ w, streamStep P F streamsPlist rtpScaled callbacks (streamInit conn)
        (.setup keysExchange found) = some (w, []) ∧ w.idle = true ∧
      w.conn.raopRtp.isSome = true ∧ w.raopRtp = some 0 ∧ ∃ aeskey aesiv ecdhSecret,
        w.audios = [audioSessionInit P callbacks aeskey aesiv ecdhSecret] := by
  have hnodes : HasKeyNodes streamsPlist keysExchange (List.replicate 16 0)
      (List.replicate 72 0) := by
    refine ⟨?_, ?_⟩
    · rw [setupRoot_streamsPlist]
      rfl
    · rw [setupRoot_streamsPlist]
      rfl
  have hkeys := @setupKeys_created F streamsPlist conn keysExchange _ _ hremote hnodes hkeymsg
    (by simp) fun hkeyed => absurd hkeyed hready
  obtain ⟨o, ho⟩ : ∃ o, raopHandlerSetup F streamsPlist conn keysExchange = .ok o := by
    rw [raopHandlerSetup_eq (completed_httpRequestOf _), hkeys, ok_bind]
    exact ⟨_, rfl⟩
  obtain ⟨keys, useUdp, hkeys', hconn, hdisconnect, hcalls, hcreated⟩ :=
    @raopHandlerSetup_calls P F streamsPlist callbacks found _ _ _ ho
  obtain rfl : _ = keys := Except.ok.inj (hkeys.symm.trans hkeys')
  have hnone : plistArrayItems (plistDictGetItem (some keysRoot) "streams") = none := rfl
  rw [setupRoot_streamsPlist] at hcalls
  simp only [setupStreams, hnone] at hcalls
  refine ⟨_, streamStep_setup rfl ho, ?_, ?_, ?_, ?_⟩
  · rw [hcreated, hcalls]
    rfl
  · rw [hconn]
    rfl
  · rw [hcreated]
    rfl
  · rw [hcreated]
    exact ⟨_, _, _, rfl⟩

theorem call_startAudio {L : Libplist} {w : StreamWorld} {i : ℕ} {audio : AudioSession}
    (hpointer : w.raopRtp = some i) (haudio : w.audios[i]? = some audio)
    (hgarbage : found.garbage.length = raopPacketLen) (useUdp : Bool) :
    streamStep P F L rtpScaled callbacks
        { w with todo := [.startAudio useUdp 0], disconnect := false } (.call found) =
      some ({ w with
        todo := []
        disconnect := false
        audios := w.audios.set i (startAudioSession audio 0 found.audioSocks found.garbage 0 0).1 },
        [.audio (startAudioSession audio 0 found.audioSocks found.garbage 0 0).2.2
          (startAudioSession audio 0 found.audioSocks found.garbage 0 0).2.1]) := by
  simp [streamStep, streamCall, stepAudio, hpointer, haudio, hgarbage]

end

/-! ## Every run -/

section
variable (P : Openssl) (F : Playfair) (L : Libplist) (rtpScaled : UInt32 → UInt64)
  (callbacks : RaopCallbacks)

/-- A step of the handler does as it should. -/
def StepRight (w : StreamWorld) (label : StreamLabel) : Prop :=
  label.ofHandler → ∀ r, streamStep P F L rtpScaled callbacks w label = some r → SetupRight w r

/-- In every run every step of a `SETUP` is right exactly if it is safe. -/
theorem setupRight_iff (w : StreamWorld) (labels : List StreamLabel) :
    Along (streamStep P F L rtpScaled callbacks) (StepRight P F L rtpScaled callbacks) w labels ↔
      Along (streamStep P F L rtpScaled callbacks) (SetupSafe P) w labels := by
  refine along_congr (I := fun _ => True) (fun _ _ _ _ _ => trivial) ?_ trivial
  intro w label r _ hr
  have hright : StepRight P F L rtpScaled callbacks w label ↔ (label.ofHandler → SetupRight w r) := by
    refine imp_congr_right fun _ => ⟨fun h => h r hr, fun h r' hr' => ?_⟩
    rwa [← Option.some.inj (hr.symm.trans hr')]
  rw [hright]
  cases label with
  | setup x found =>
    refine iff_of_true (fun _ => ?_) trivial
    simp only [streamStep] at hr
    split at hr
    · obtain rfl := Option.some.inj hr
      exact setupRight_created _ _ _ _
    · exact absurd hr (by simp)
  | call found =>
    rw [imp_iff_right (show (StreamLabel.call found).ofHandler from trivial)]
    exact setupRight_step_iff hr
  | _ => exact iff_of_true (fun h => absurd h id) trivial

end

/-- A stream of type 96 is set up twice: the second response names the ports 0. -/
theorem setupRight_twice :
    ¬ ∀ (P : Openssl) (F : Playfair) (L : Libplist) (rtpScaled : UInt32 → UInt64)
      (callbacks : RaopCallbacks) (raopPairing : Pairing) (remote : Bytes)
      (labels : List StreamLabel),
      Along (streamStep P F L rtpScaled callbacks) (StepRight P F L rtpScaled callbacks)
        (streamInit (connInit raopPairing remote)) labels := by
  intro h
  obtain ⟨garbage, hgarbage⟩ : ∃ garbage : Bytes, garbage.length = raopPacketLen :=
    ⟨List.replicate raopPacketLen 0, List.length_replicate⟩
  let found : Found := ⟨[], 0, none, some (⟨3, 50001, by decide⟩, ⟨4, 50002, by decide⟩), garbage⟩
  have hright := h default (fun _ chunk _ => chunk) streamsPlist (fun t => t.toUInt64)
    ⟨true, true, true, true, true, true⟩ ⟨[]⟩ [192, 168, 1, 7]
    [.setup keysExchange found, .setup audioExchange found, .call found,
      .setup audioExchange found, .call found]
  obtain ⟨w, hkeys, hidle, hrtp, hpointer, aeskey, aesiv, ecdhSecret, haudios⟩ :=
    @setup_keysExchange default (fun _ chunk _ => chunk) (fun t => t.toUInt64)
      ⟨true, true, true, true, true, true⟩ found (connInit ⟨[]⟩ [192, 168, 1, 7]) rfl rfl (by decide)
  obtain ⟨useUdp, hfirst⟩ := @setup_audioExchange default (fun _ chunk _ => chunk)
    (fun t => t.toUInt64) ⟨true, true, true, true, true, true⟩ found w hidle hrtp
  -- the first start opens the sockets
  have hnew : w.audios[0]? = some (audioSessionInit default ⟨true, true, true, true, true, true⟩
      aeskey aesiv ecdhSecret) := by rw [haudios]; rfl
  have hcall := @call_startAudio default (fun _ chunk _ => chunk) (fun t => t.toUInt64)
    ⟨true, true, true, true, true, true⟩ found streamsPlist w 0 _ hpointer hnew hgarbage useUdp
  set started := (startAudioSession (audioSessionInit default
    ⟨true, true, true, true, true, true⟩ aeskey aesiv ecdhSecret) 0 found.audioSocks found.garbage
      0 0).1 with hstarted
  have hset : w.audios.set 0 started = [started] := by rw [haudios]; rfl
  rw [hset] at hcall
  have hidle' : StreamWorld.idle { w with todo := [], disconnect := false, audios := [started] } =
      true := by
    simp only [StreamWorld.idle, Bool.and_eq_true] at hidle
    simp only [StreamWorld.idle, Bool.and_eq_true]
    exact ⟨⟨rfl, rfl⟩, hidle.2⟩
  obtain ⟨useUdp', hsecond⟩ := @setup_audioExchange default (fun _ chunk _ => chunk)
    (fun t => t.toUInt64) ⟨true, true, true, true, true, true⟩ found _ hidle' hrtp
  have hlast := ((((hright _ hkeys).2 _ hfirst).2 _ hcall).2 _ hsecond).2
  -- the second start returns early
  have hr := @call_startAudio default (fun _ chunk _ => chunk) (fun t => t.toUInt64)
    ⟨true, true, true, true, true, true⟩ found streamsPlist
    { w with todo := [], disconnect := false, audios := [started] } 0 started hpointer rfl hgarbage
    useUdp'
  have hsafe := (setupRight_step_iff hr).mp ((hlast _ hr).1 trivial _ hr)
  have hstopped := (hsafe rfl started (currentAudio_eq hpointer rfl)).1
  have hrunning : started.running = true := rfl
  exact absurd (hrunning.symm.trans hstopped) (by decide)

end WinAirPlay.Raop
