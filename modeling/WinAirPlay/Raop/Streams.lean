import WinAirPlay.Foundations.Transition
import WinAirPlay.Mirror.Buffer
import WinAirPlay.Raop.Setup
import WinAirPlay.Rtp.Thread
import WinAirPlay.Service.Thread

/-! # The streams of a `SETUP`

A `SETUP` with keys creates an audio and a mirror session, and every entry of `streams` starts one of
the two and answers with the ports it listens on. The calls of the handler are executed here on the
sessions, while the threads of the sessions take their own steps in between.

The response has an entry for every start, with the ports that this start has replied
(`setupStreams_entries`), and every call that the handler comes to can be made
(`streamRun_call_isSome`).
-/

namespace WinAirPlay.Raop
open Foundations.ByteBuffer Foundations.CheckedMemory Foundations.Transition
set_option autoImplicit false

/-! ## The sessions -/

/-- A socket of `netutils_init_socket`. The system chooses the port, and never 0. -/
structure BoundSocket where
  handle : ℕ
  port : BitVec 16
  bound : port ≠ 0

/-- `raop_rtp_mirror_t`; no socket is -1. -/
structure RaopRtpMirror where
  service : ServiceState
  mirrorDataSock : Option BoundSocket
  mirrorDataLport : BitVec 16
  buffer : MirrorBuffer

def raopRtpMirrorInit (aeskey ecdhSecret : Bytes) : RaopRtpMirror where
  service := serviceInit
  mirrorDataSock := none
  mirrorDataLport := 0
  buffer := mirrorBufferInit aeskey ecdhSecret

def raopRtpInitMirrorAes (P : Openssl) (mirror : RaopRtpMirror) (streamConnectionID : UInt64) :
    RaopRtpMirror :=
  { mirror with buffer := mirrorBufferInitAes P mirror.buffer streamConnectionID }

/-- `raop_rtp_start_mirror` and its out-parameter; `sock` is `none` when the socket cannot be opened
or cannot listen. -/
def raopRtpStartMirror (mirror : RaopRtpMirror) (sock : Option BoundSocket) (dport : BitVec 16) :
    RaopRtpMirror × BitVec 16 :=
  if mirror.service.running || !mirror.service.joined then (mirror, dport)
  else
    match sock with
    | none => (mirror, dport)
    | some sock =>
      ({ mirror with
        service := (serviceStart mirror.service .opened).1
        mirrorDataSock := some sock
        mirrorDataLport := sock.port }, sock.port)

/-- `raop_rtp_t` with its sockets and their ports. -/
structure AudioSession extends RaopRtp where
  csock : Option BoundSocket
  dsock : Option BoundSocket
  controlLport : BitVec 16
  dataLport : BitVec 16

def audioSessionInit (P : Openssl) (callbacks : RaopCallbacks) (aeskey aesiv ecdhSecret : Bytes) :
    AudioSession where
  toRaopRtp := raopRtpInit P callbacks aeskey aesiv ecdhSecret
  csock := none
  dsock := none
  controlLport := 0
  dataLport := 0

/-- `raop_rtp_start_audio` and its out-parameters, the control and the data port; `socks` is `none`
when one of the two sockets cannot be opened. -/
def startAudioSession (audio : AudioSession) (controlRport : BitVec 16)
    (socks : Option (BoundSocket × BoundSocket)) (garbage : Bytes) (cport dport : BitVec 16) :
    AudioSession × BitVec 16 × BitVec 16 :=
  let rtp := raopRtpStartAudio audio.toRaopRtp controlRport socks.isSome garbage
  if audio.running || !audio.joined then (audio, cport, dport)
  else
    match socks with
    | none => ({ audio with toRaopRtp := rtp }, cport, dport)
    | some (csock, dsock) =>
      ({ audio with
        toRaopRtp := rtp
        csock := some csock
        dsock := some dsock
        controlLport := csock.port
        dataLport := dsock.port }, csock.port, dsock.port)

/-! ## The connection -/

/-- A connection and all sessions it has created; `raopRtp` and `raopRtpMirror` are the pointers of
`raop_conn_t`, as places in the tables. -/
structure StreamWorld where
  conn : RaopConnS
  audios : List AudioSession
  mirrors : List RaopRtpMirror
  raopRtp : Option ℕ
  raopRtpMirror : Option ℕ
  /-- The calls that the handler has still to make, and whether its response sets disconnect. -/
  todo : List MediaCall
  disconnect : Bool

/-- What the calls of a `SETUP` find: variables that were not written, the sockets that can be opened
and the packet array of a new audio thread. -/
structure Found where
  aeskey : Bytes
  streamConnectionID : ℕ
  mirrorSock : Option BoundSocket
  audioSocks : Option (BoundSocket × BoundSocket)
  garbage : Bytes

/-- The ports that an entry of the response names. -/
inductive StreamReply
  | mirroring (dataPort : BitVec 16)
  | audio (dataPort controlPort : BitVec 16)

/-- The calls for an entry of `streams`. -/
def MediaCall.ofStream : MediaCall → Bool
  | .initMirrorAes _ | .startMirror _ | .startAudio .. => true
  | _ => false

def createSession (P : Openssl) (callbacks : RaopCallbacks) (found : Found) (w : StreamWorld) :
    MediaCall → StreamWorld
  | .rtpInit _ aeskey aesiv ecdhSecret =>
    { w with
      audios := w.audios ++
        [audioSessionInit P callbacks (aeskey.getD found.aeskey) aesiv ecdhSecret]
      raopRtp := some w.audios.length }
  | .mirrorInit _ aeskey ecdhSecret =>
    { w with
      mirrors := w.mirrors ++ [raopRtpMirrorInit (aeskey.getD found.aeskey) ecdhSecret]
      raopRtpMirror := some w.mirrors.length }
  | _ => w

def stepMirror (w : StreamWorld) (i : ℕ)
    (f : RaopRtpMirror → Option (RaopRtpMirror × List StreamReply)) :
    Option (StreamWorld × List StreamReply) :=
  (w.mirrors[i]?).bind fun mirror =>
    (f mirror).map fun r => ({ w with mirrors := w.mirrors.set i r.1 }, r.2)

def stepAudio (w : StreamWorld) (i : ℕ)
    (f : AudioSession → Option (AudioSession × List StreamReply)) :
    Option (StreamWorld × List StreamReply) :=
  (w.audios[i]?).bind fun audio =>
    (f audio).map fun r => ({ w with audios := w.audios.set i r.1 }, r.2)

/-- A call for an entry of `streams`, with the ports of the handler 0 before it. -/
def streamCall (P : Openssl) (found : Found) (w : StreamWorld) :
    MediaCall → Option (StreamWorld × List StreamReply)
  | .initMirrorAes streamConnectionID =>
    w.raopRtpMirror.bind fun i => stepMirror w i fun mirror =>
      some (raopRtpInitMirrorAes P mirror
        (UInt64.ofNat (streamConnectionID.getD found.streamConnectionID)), [])
  | .startMirror _ =>
    w.raopRtpMirror.bind fun i => stepMirror w i fun mirror =>
      let r := raopRtpStartMirror mirror found.mirrorSock 0
      some (r.1, [.mirroring r.2])
  | .startAudio _ controlRport =>
    w.raopRtp.bind fun i => stepAudio w i fun audio =>
      if found.garbage.length ≠ raopPacketLen then none
      else
        let r := startAudioSession audio (BitVec.ofNat 16 controlRport) found.audioSocks
          found.garbage 0 0
        some (r.1, [.audio r.2.2 r.2.1])
  | _ => none

inductive StreamLabel
  -- the control thread
  | setup (x : RaopExchange) (found : Found)
  | call (found : Found)
  -- the threads of the sessions, and what other requests do to the sessions
  | audio (i : ℕ) (label : RtpLabel)
  | mirror (i : ℕ) (label : ServiceLabel)
  | decrypt (i : ℕ) (input output : Bytes) (inputLen : ℤ)

/-- The control thread is not in a handler. -/
def StreamWorld.idle (w : StreamWorld) : Bool :=
  w.todo.isEmpty && w.audios.all (fun audio => !audio.joining) &&
    w.mirrors.all (fun mirror => mirror.service.control = .idle)

/-- A step of the audio thread or of a stop; the sockets are closed after the join. -/
def audioSessionStep (P : Openssl) (rtpScaled : UInt32 → UInt64) (idle : Bool)
    (audio : AudioSession) (label : RtpLabel) : Option (AudioSession × List StreamReply) :=
  let allowed : Bool := match label with
    | .start .. => false
    | .post _ | .stop => idle
    | _ => true
  if allowed then
    (rtpStep P rtpScaled audio.toRaopRtp label).map fun r =>
      match label with
      | .join => ({ audio with toRaopRtp := r.1, csock := none, dsock := none }, [])
      | _ => ({ audio with toRaopRtp := r.1 }, [])
  else none

/-- A step of the mirror thread or of a stop, which closes the socket. -/
def mirrorSessionStep (idle : Bool) (mirror : RaopRtpMirror) (label : ServiceLabel) :
    Option (RaopRtpMirror × List StreamReply) :=
  let allowed : Bool := match label with
    | .start _ | .destroy | .free => false
    | .stop => idle
    | _ => true
  if allowed then
    (serviceStep raopRtpMirrorService mirror.service label).map fun r =>
      ({ mirror with
        service := r.1
        mirrorDataSock := if r.1.sockets then mirror.mirrorDataSock else none }, [])
  else none

/-- The mirror thread decrypts a payload. -/
def mirrorSessionDecrypt (P : Openssl) (mirror : RaopRtpMirror) (input output : Bytes)
    (inputLen : ℤ) : Option (RaopRtpMirror × List StreamReply) :=
  match mirror.service.thread, mirrorBufferDecrypt P mirror.buffer input output inputLen with
  | .body, .ok r => some ({ mirror with buffer := r.mirrorBuffer }, [])
  | _, _ => none

section
variable (P : Openssl) (F : Playfair) (L : Libplist) (rtpScaled : UInt32 → UInt64)
  (callbacks : RaopCallbacks)

def streamStep (w : StreamWorld) : StreamLabel → Option (StreamWorld × List StreamReply)
  | .setup x found =>
    match w.idle, raopHandlerSetup F L w.conn x with
    | true, .ok o =>
      some ({ o.calls.foldl (createSession P callbacks found) w with
        conn := o.conn
        todo := o.calls.filter MediaCall.ofStream
        disconnect := o.disconnect }, [])
    | _, _ => none
  | .call found =>
    match w.todo with
    | call :: todo => streamCall P found { w with todo } call
    | [] => none
  | .audio i label => stepAudio w i fun audio => audioSessionStep P rtpScaled w.idle audio label
  | .mirror i label => stepMirror w i fun mirror => mirrorSessionStep w.idle mirror label
  | .decrypt i input output inputLen =>
    stepMirror w i fun mirror => mirrorSessionDecrypt P mirror input output inputLen

end

def streamInit (conn : RaopConnS) : StreamWorld where
  conn := conn
  audios := []
  mirrors := []
  raopRtp := none
  raopRtpMirror := none
  todo := []
  disconnect := false

section
variable {w : StreamWorld} {i : ℕ} {r : StreamWorld × List StreamReply}

theorem stepMirror_eq_some {f : RaopRtpMirror → Option (RaopRtpMirror × List StreamReply)} :
    stepMirror w i f = some r ↔ ∃ mirror, w.mirrors[i]? = some mirror ∧ ∃ r', f mirror = some r' ∧
      ({ w with mirrors := w.mirrors.set i r'.1 }, r'.2) = r := by
  rw [stepMirror, Option.bind_eq_some_iff]
  simp only [Option.map_eq_some_iff]

theorem stepAudio_eq_some {f : AudioSession → Option (AudioSession × List StreamReply)} :
    stepAudio w i f = some r ↔ ∃ audio, w.audios[i]? = some audio ∧ ∃ r', f audio = some r' ∧
      ({ w with audios := w.audios.set i r'.1 }, r'.2) = r := by
  rw [stepAudio, Option.bind_eq_some_iff]
  simp only [Option.map_eq_some_iff]

end

/-! ## The handler and its calls -/

section
variable {P : Openssl} {F : Playfair} {L : Libplist} {callbacks : RaopCallbacks} {found : Found}
  {conn : RaopConnS} {x : RaopExchange} {root : Option Plist} {keys : SetupPart}

/-- The first part leaves the pointers or creates both sessions. -/
theorem setupKeys_cases (h : setupKeys F conn x root = .ok keys) :
    keys.disconnect = false ∧ ((keys.conn = conn ∧ keys.calls = []) ∨
      ∃ timingRport aeskey aesiv ecdhSecret, keys.calls = [.ntpInit conn.remote timingRport,
        .ntpStart, .rtpInit conn.remote aeskey aesiv ecdhSecret,
        .mirrorInit conn.remote aeskey ecdhSecret]) := by
  unfold setupKeys at h
  split at h
  · obtain ⟨aesiv, -, h⟩ := bind_eq_ok.mp h
    obtain ⟨aeskey, -, h⟩ := bind_eq_ok.mp h
    dsimp only at h
    split_ifs at h
    cases h
    exact ⟨rfl, .inr ⟨_, _, _, _, rfl⟩⟩
  · cases h
    exact ⟨rfl, .inl ⟨rfl, rfl⟩⟩

theorem setupStream_ofStream (conn : RaopConnS) (x : RaopExchange) (useUdp : Bool) (i : ℕ)
    (stream : Plist) : ∀ call ∈ (setupStream conn x useUdp i stream).2.1, call.ofStream = true := by
  unfold setupStream
  dsimp only
  split_ifs <;> simp [MediaCall.ofStream]

theorem mem_setupStreams_calls {useUdp : Bool} {root : Option Plist} {call : MediaCall}
    (h : call ∈ (setupStreams conn x useUdp root).calls) :
    ∃ i stream, call ∈ (setupStream conn x useUdp i stream).2.1 := by
  unfold setupStreams at h
  split at h
  · obtain ⟨pass, hpass, hcall⟩ := List.mem_flatMap.mp h
    obtain ⟨s, -, rfl⟩ := List.mem_map.mp hpass
    exact ⟨s.2, s.1, hcall⟩
  · exact absurd h List.not_mem_nil

theorem setupStreams_ofStream (conn : RaopConnS) (x : RaopExchange) (useUdp : Bool)
    (root : Option Plist) :
    ∀ call ∈ (setupStreams conn x useUdp root).calls, call.ofStream = true := by
  intro call hcall
  obtain ⟨i, stream, hcall⟩ := mem_setupStreams_calls hcall
  exact setupStream_ofStream conn x useUdp i stream call hcall

theorem MediaCall.creates_of_ofStream {call : MediaCall} (h : call.ofStream = true) :
    call.creates = false := by
  cases call with
  | initMirrorAes | startMirror | startAudio => rfl
  | _ => exact absurd h (by simp [MediaCall.ofStream])

theorem createSession_eq {call : MediaCall} (h : call.creates = false) (w : StreamWorld) :
    createSession P callbacks found w call = w := by
  cases call with
  | rtpInit => exact absurd h (by simp [MediaCall.creates])
  | mirrorInit => exact absurd h (by simp [MediaCall.creates])
  | _ => rfl

theorem foldl_createSession_eq {calls : List MediaCall}
    (h : ∀ call ∈ calls, call.creates = false) (w : StreamWorld) :
    calls.foldl (createSession P callbacks found) w = w := by
  induction calls generalizing w with
  | nil => rfl
  | cons call calls ih =>
    rw [List.foldl_cons, createSession_eq (h call List.mem_cons_self)]
    exact ih (fun c hc => h c (List.mem_cons_of_mem call hc)) w

/-- What the handler leaves to be done comes from its two parts. -/
theorem raopHandlerSetup_calls {o : Outcome} (h : raopHandlerSetup F L conn x = .ok o) :
    ∃ keys useUdp, setupKeys F conn x (setupRoot L x) = .ok keys ∧ o.conn = keys.conn ∧
      o.disconnect = (setupStreams keys.conn x useUdp (setupRoot L x)).disconnect ∧
      o.calls.filter MediaCall.ofStream =
        (setupStreams keys.conn x useUdp (setupRoot L x)).calls ∧
      ∀ w, o.calls.foldl (createSession P callbacks found) w =
        keys.calls.foldl (createSession P callbacks found) w := by
  obtain ⟨dacpId, -, h⟩ := bind_eq_ok.mp h
  obtain ⟨activeRemote, -, h⟩ := bind_eq_ok.mp h
  obtain ⟨transport, -, h⟩ := bind_eq_ok.mp h
  obtain ⟨keys, hkeys, h⟩ := bind_eq_ok.mp h
  cases h
  obtain ⟨hdisconnect, hcases⟩ := setupKeys_cases hkeys
  have hremote : ∀ call ∈ remoteControl conn dacpId activeRemote,
      call.creates = false ∧ call.ofStream = false := by
    unfold remoteControl
    split
    · split_ifs <;> simp [MediaCall.creates, MediaCall.ofStream]
    · simp
  have hkeysCalls : keys.calls.filter MediaCall.ofStream = [] := by
    rcases hcases with ⟨-, hcalls⟩ | ⟨timingRport, aeskey, aesiv, ecdhSecret, hcalls⟩ <;>
      rw [hcalls] <;> rfl
  refine ⟨keys, transportUdp transport, hkeys, setupStreams_conn .., ?_, ?_, fun w => ?_⟩
  · dsimp only
    rw [hdisconnect, Bool.false_or]
    rfl
  · have hnone : (remoteControl conn dacpId activeRemote).filter MediaCall.ofStream = [] :=
      List.filter_eq_nil_iff.mpr fun call hcall => by simp [(hremote call hcall).2]
    rw [List.filter_append, List.filter_append, hnone, hkeysCalls, List.nil_append,
      List.nil_append, List.filter_eq_self.mpr (setupStreams_ofStream _ _ _ _)]
    rfl
  · have hstreams : ∀ call ∈ (setupStreams keys.conn x (transportUdp transport)
        (L.fromBin (plistBody x.request))).calls, call.creates = false := fun call hcall =>
      MediaCall.creates_of_ofStream (setupStreams_ofStream _ _ _ _ call hcall)
    rw [List.foldl_append, List.foldl_append,
      foldl_createSession_eq fun call hcall => (hremote call hcall).1,
      foldl_createSession_eq hstreams]

end

/-! ## The response -/

/-- The entry of the response. -/
def StreamReply.entry : StreamReply → Plist
  | .mirroring dataPort =>
    plistNewDict [("dataPort", .uint dataPort.toNat), ("type", .uint 110)]
  | .audio dataPort controlPort =>
    plistNewDict [("dataPort", .uint dataPort.toNat), ("controlPort", .uint controlPort.toNat),
      ("type", .uint 96)]

/-- The call that the ports come from. -/
def StreamReply.answers : StreamReply → MediaCall → Bool
  | .mirroring _, .startMirror _ => true
  | .audio _ _, .startAudio .. => true
  | _, _ => false

def MediaCall.starts : MediaCall → Bool
  | .startMirror _ | .startAudio .. => true
  | _ => false

/-- The variables `dport` and `cport` of pass `i` have these values. -/
def StreamReply.PortsOf (x : RaopExchange) (i : ℕ) : StreamReply → Prop
  | .mirroring dataPort => x.dataPort i = dataPort.toNat
  | .audio dataPort controlPort =>
    x.dataPort i = dataPort.toNat ∧ x.controlPort i = controlPort.toNat

section
variable {x : RaopExchange} {conn : RaopConnS} {useUdp : Bool}

/-- A pass that does not set disconnect makes one start and one entry. -/
theorem setupStream_entry {i : ℕ} {stream : Plist}
    (hdisconnect : (setupStream conn x useUdp i stream).2.2 = false) :
    ∃ start, (setupStream conn x useUdp i stream).2.1.filter MediaCall.starts = [start] ∧
      ∀ reply : StreamReply, reply.answers start = true → reply.PortsOf x i →
        (setupStream conn x useUdp i stream).1 = [reply.entry] := by
  unfold setupStream at hdisconnect ⊢
  dsimp only at hdisconnect ⊢
  by_cases h110 : (plistGetUintVal (plistDictGetItem (some stream) "type")).getD
      (x.typeBefore i) = 110
  · rw [if_pos h110] at hdisconnect ⊢
    have hmirror : conn.raopRtpMirror.isSome = true := by simpa using hdisconnect
    simp only [hmirror, if_true]
    refine ⟨.startMirror useUdp, rfl, fun reply hanswers hports => ?_⟩
    cases reply with
    | mirroring dataPort =>
      rw [show x.dataPort i = dataPort.toNat from hports]
      rfl
    | audio => exact absurd hanswers (by simp [StreamReply.answers])
  · rw [if_neg h110] at hdisconnect ⊢
    by_cases h96 : (plistGetUintVal (plistDictGetItem (some stream) "type")).getD
        (x.typeBefore i) = 96
    · rw [if_pos h96] at hdisconnect ⊢
      have hrtp : conn.raopRtp.isSome = true := by simpa using hdisconnect
      simp only [hrtp, if_true]
      refine ⟨.startAudio useUdp 0, rfl, fun reply hanswers hports => ?_⟩
      cases reply with
      | mirroring => exact absurd hanswers (by simp [StreamReply.answers])
      | audio dataPort controlPort =>
        obtain ⟨hdata, hcontrol⟩ : x.dataPort i = _ ∧ x.controlPort i = _ := hports
        rw [hdata, hcontrol]
        rfl
    · rw [if_neg h96] at hdisconnect
      exact absurd hdisconnect (by simp)

/-- The entries of a response that does not set disconnect are what the starts have replied. -/
theorem setupStreams_entries {streams : List Plist} {root : Option Plist}
    (hstreams : plistArrayItems (plistDictGetItem root "streams") = some streams)
    (hdisconnect : (setupStreams conn x useUdp root).disconnect = false)
    {replies : List StreamReply}
    (hanswers : List.Forall₂ (fun reply call => StreamReply.answers reply call = true) replies
      ((setupStreams conn x useUdp root).calls.filter MediaCall.starts))
    (hports : ∀ i reply, replies[i]? = some reply → StreamReply.PortsOf x i reply) :
    (setupStreams conn x useUdp root).items =
      [("streams", .array (replies.map StreamReply.entry))] := by
  have hpasses : ∀ (streams : List Plist) (n : ℕ) (replies : List StreamReply),
      (∀ s ∈ streams.zipIdx n, (setupStream conn x useUdp s.2 s.1).2.2 = false) →
      List.Forall₂ (fun reply call => StreamReply.answers reply call = true) replies
        ((streams.zipIdx n).flatMap fun s =>
          (setupStream conn x useUdp s.2 s.1).2.1.filter MediaCall.starts) →
      (∀ i reply, replies[i]? = some reply → StreamReply.PortsOf x (n + i) reply) →
      ((streams.zipIdx n).flatMap fun s => (setupStream conn x useUdp s.2 s.1).1) =
        replies.map StreamReply.entry := by
    intro streams
    induction streams with
    | nil =>
      intro n replies _ hanswers _
      cases hanswers
      rfl
    | cons stream streams ih =>
      intro n replies hdisconnect hanswers hports
      rw [List.zipIdx_cons] at hdisconnect hanswers ⊢
      obtain ⟨hfirst, hrest⟩ := List.forall_mem_cons.mp hdisconnect
      obtain ⟨start, hstart, hentry⟩ := setupStream_entry hfirst
      rw [List.flatMap_cons, hstart] at hanswers
      cases hanswers with
      | cons hreply hreplies =>
        rw [List.flatMap_cons, hentry _ hreply (hports 0 _ rfl),
          ih (n + 1) _ hrest hreplies fun i reply hi => ?_]
        · rfl
        · have h := hports (i + 1) reply hi
          rwa [show n + (i + 1) = n + 1 + i by omega] at h
  unfold setupStreams at hdisconnect hanswers ⊢
  rw [hstreams] at hdisconnect hanswers ⊢
  dsimp only at hdisconnect hanswers ⊢
  rw [List.flatMap_map] at hanswers ⊢
  rw [List.filter_flatMap] at hanswers
  rw [hpasses streams 0 replies ?_ hanswers ?_]
  · intro s hs
    have hall := List.any_eq_false.mp hdisconnect _ (List.mem_map_of_mem hs)
    simpa using hall
  · simpa using hports

end

/-! ## The calls can be made -/

def MediaCall.onMirror : MediaCall → Bool
  | .initMirrorAes _ | .startMirror _ => true
  | _ => false

def MediaCall.onAudio : MediaCall → Bool
  | .startAudio .. => true
  | _ => false

/-- A pointer that is not `NULL` leads to a session, and the handler makes calls to such only. -/
structure Linked (w : StreamWorld) : Prop where
  audio : w.conn.raopRtp.isSome = true → ∃ i, w.raopRtp = some i ∧ i < w.audios.length
  mirror : w.conn.raopRtpMirror.isSome = true →
    ∃ i, w.raopRtpMirror = some i ∧ i < w.mirrors.length
  audioCalls : ∀ call ∈ w.todo, call.onAudio = true → w.conn.raopRtp.isSome = true
  mirrorCalls : ∀ call ∈ w.todo, call.onMirror = true → w.conn.raopRtpMirror.isSome = true
  streamCalls : ∀ call ∈ w.todo, call.ofStream = true

theorem linked_init (conn : RaopConnS) (haudio : conn.raopRtp = none)
    (hmirror : conn.raopRtpMirror = none) : Linked (streamInit conn) where
  audio := fun h => absurd h (by simp [streamInit, haudio])
  mirror := fun h => absurd h (by simp [streamInit, hmirror])
  audioCalls := fun _ hcall => absurd hcall List.not_mem_nil
  mirrorCalls := fun _ hcall => absurd hcall List.not_mem_nil
  streamCalls := fun _ hcall => absurd hcall List.not_mem_nil

theorem setupStream_pointers (conn : RaopConnS) (x : RaopExchange) (useUdp : Bool) (i : ℕ)
    (stream : Plist) : ∀ call ∈ (setupStream conn x useUdp i stream).2.1,
      (call.onAudio = true → conn.raopRtp.isSome = true) ∧
        (call.onMirror = true → conn.raopRtpMirror.isSome = true) := by
  unfold setupStream
  dsimp only
  split_ifs with h110 hmirror h96 hrtp <;> simp_all [MediaCall.onAudio, MediaCall.onMirror]

theorem setupStreams_pointers (conn : RaopConnS) (x : RaopExchange) (useUdp : Bool)
    (root : Option Plist) : ∀ call ∈ (setupStreams conn x useUdp root).calls,
      (call.onAudio = true → conn.raopRtp.isSome = true) ∧
        (call.onMirror = true → conn.raopRtpMirror.isSome = true) := by
  intro call hcall
  obtain ⟨i, stream, hcall⟩ := mem_setupStreams_calls hcall
  exact setupStream_pointers conn x useUdp i stream call hcall

section
variable {P : Openssl} {F : Playfair} {L : Libplist} {rtpScaled : UInt32 → UInt64}
  {callbacks : RaopCallbacks} {found : Found} {w w' : StreamWorld}

/-- What a step of a session, or a call, leaves of the connection. -/
structure SameShape (w w' : StreamWorld) : Prop where
  conn : w'.conn = w.conn
  raopRtp : w'.raopRtp = w.raopRtp
  raopRtpMirror : w'.raopRtpMirror = w.raopRtpMirror
  audios : w'.audios.length = w.audios.length
  mirrors : w'.mirrors.length = w.mirrors.length
  todo : w'.todo = w.todo

theorem Linked.of_sameShape (h : Linked w) (hsame : SameShape w w') : Linked w' where
  audio := by
    rw [hsame.conn, hsame.raopRtp, hsame.audios]
    exact h.audio
  mirror := by
    rw [hsame.conn, hsame.raopRtpMirror, hsame.mirrors]
    exact h.mirror
  audioCalls := by
    rw [hsame.todo, hsame.conn]
    exact h.audioCalls
  mirrorCalls := by
    rw [hsame.todo, hsame.conn]
    exact h.mirrorCalls
  streamCalls := by
    rw [hsame.todo]
    exact h.streamCalls

theorem stepMirror_sameShape {i : ℕ} {r : StreamWorld × List StreamReply}
    {f : RaopRtpMirror → Option (RaopRtpMirror × List StreamReply)}
    (hr : stepMirror w i f = some r) : SameShape w r.1 := by
  obtain ⟨mirror, -, r', -, rfl⟩ := stepMirror_eq_some.mp hr
  exact ⟨rfl, rfl, rfl, rfl, List.length_set, rfl⟩

theorem stepAudio_sameShape {i : ℕ} {r : StreamWorld × List StreamReply}
    {f : AudioSession → Option (AudioSession × List StreamReply)}
    (hr : stepAudio w i f = some r) : SameShape w r.1 := by
  obtain ⟨audio, -, r', -, rfl⟩ := stepAudio_eq_some.mp hr
  exact ⟨rfl, rfl, rfl, List.length_set, rfl, rfl⟩

theorem streamCall_sameShape {call : MediaCall} {r : StreamWorld × List StreamReply}
    (hr : streamCall P found w call = some r) : SameShape w r.1 := by
  cases call with
  | initMirrorAes =>
    obtain ⟨i, -, hr⟩ := Option.bind_eq_some_iff.mp hr
    exact stepMirror_sameShape hr
  | startMirror =>
    obtain ⟨i, -, hr⟩ := Option.bind_eq_some_iff.mp hr
    exact stepMirror_sameShape hr
  | startAudio =>
    obtain ⟨i, -, hr⟩ := Option.bind_eq_some_iff.mp hr
    exact stepAudio_sameShape hr
  | _ => exact absurd hr (by simp [streamCall])

theorem Linked.tail (h : Linked w) {call : MediaCall} {todo : List MediaCall}
    (htodo : w.todo = call :: todo) : Linked { w with todo } where
  audio := h.audio
  mirror := h.mirror
  audioCalls := fun c hc => h.audioCalls c (htodo ▸ List.mem_cons_of_mem call hc)
  mirrorCalls := fun c hc => h.mirrorCalls c (htodo ▸ List.mem_cons_of_mem call hc)
  streamCalls := fun c hc => h.streamCalls c (htodo ▸ List.mem_cons_of_mem call hc)

theorem linked_setup (h : Linked w) {x : RaopExchange} {o : Outcome}
    (ho : raopHandlerSetup F L w.conn x = .ok o) :
    Linked { o.calls.foldl (createSession P callbacks found) w with
      conn := o.conn
      todo := o.calls.filter MediaCall.ofStream
      disconnect := o.disconnect } := by
  obtain ⟨keys, useUdp, hkeys, hconn, -, hcalls, hcreated⟩ :=
    @raopHandlerSetup_calls P F L callbacks found _ _ _ ho
  have hpointers := setupStreams_pointers keys.conn x useUdp (setupRoot L x)
  have hsessions : (keys.conn.raopRtp.isSome = true →
        ∃ i, (keys.calls.foldl (createSession P callbacks found) w).raopRtp = some i ∧
          i < (keys.calls.foldl (createSession P callbacks found) w).audios.length) ∧
      (keys.conn.raopRtpMirror.isSome = true →
        ∃ i, (keys.calls.foldl (createSession P callbacks found) w).raopRtpMirror = some i ∧
          i < (keys.calls.foldl (createSession P callbacks found) w).mirrors.length) := by
    rcases (setupKeys_cases hkeys).2 with
      ⟨hsame, hnone⟩ | ⟨timingRport, aeskey, aesiv, ecdhSecret, hkeysCalls⟩
    · rw [hsame, hnone]
      exact ⟨h.audio, h.mirror⟩
    · rw [hkeysCalls]
      exact ⟨fun _ => ⟨_, rfl, by simp [createSession]⟩, fun _ => ⟨_, rfl, by simp [createSession]⟩⟩
  refine ⟨?_, ?_, ?_, ?_, ?_⟩
  · dsimp only
    rw [hconn, hcreated]
    exact hsessions.1
  · dsimp only
    rw [hconn, hcreated]
    exact hsessions.2
  · dsimp only
    rw [hconn, hcalls]
    exact fun call hcall => (hpointers call hcall).1
  · dsimp only
    rw [hconn, hcalls]
    exact fun call hcall => (hpointers call hcall).2
  · exact fun call hcall => (List.mem_filter.mp hcall).2

theorem linked_step (h : Linked w) {label : StreamLabel} {r : StreamWorld × List StreamReply}
    (hr : streamStep P F L rtpScaled callbacks w label = some r) : Linked r.1 := by
  cases label with
  | setup x found =>
    simp only [streamStep] at hr
    split at hr
    · next ho =>
      obtain rfl := Option.some.inj hr
      exact linked_setup h ho
    · exact absurd hr (by simp)
  | call found =>
    simp only [streamStep] at hr
    split at hr
    · next htodo => exact (h.tail htodo).of_sameShape (streamCall_sameShape hr)
    · exact absurd hr (by simp)
  | audio i label => exact h.of_sameShape (stepAudio_sameShape hr)
  | mirror i label => exact h.of_sameShape (stepMirror_sameShape hr)
  | decrypt i input output inputLen => exact h.of_sameShape (stepMirror_sameShape hr)

theorem streamStep_call_isSome (h : Linked w) (htodo : w.todo ≠ [])
    (hgarbage : found.garbage.length = raopPacketLen) :
    (streamStep P F L rtpScaled callbacks w (.call found)).isSome = true := by
  obtain ⟨call, todo, htodo⟩ := List.exists_cons_of_ne_nil htodo
  have hcall : call ∈ w.todo := htodo ▸ List.mem_cons_self
  have hof := h.streamCalls call hcall
  simp only [streamStep, htodo]
  cases call with
  | initMirrorAes streamConnectionID =>
    obtain ⟨i, hpointer, hlt⟩ := h.mirror (h.mirrorCalls _ hcall rfl)
    simp [streamCall, stepMirror, hpointer, hlt]
  | startMirror useUdp =>
    obtain ⟨i, hpointer, hlt⟩ := h.mirror (h.mirrorCalls _ hcall rfl)
    simp [streamCall, stepMirror, hpointer, hlt]
  | startAudio useUdp controlRport =>
    obtain ⟨i, hpointer, hlt⟩ := h.audio (h.audioCalls _ hcall rfl)
    simp [streamCall, stepAudio, hpointer, hlt, hgarbage]
  | _ => exact absurd hof (by simp [MediaCall.ofStream])

/-- In every run of a new connection the handler can make each of its calls. -/
theorem streamRun_call_isSome {raopPairing : Pairing} {remote : Bytes} {labels : List StreamLabel}
    (hrun : run (streamStep P F L rtpScaled callbacks) (streamInit (connInit raopPairing remote))
      labels = some w) (htodo : w.todo ≠ []) (hgarbage : found.garbage.length = raopPacketLen) :
    (streamStep P F L rtpScaled callbacks w (.call found)).isSome = true := by
  have hlinked : Linked w :=
    invariant (I := Linked) (fun _ _ _ h hr => linked_step h hr) (linked_init _ rfl rfl) hrun
  exact streamStep_call_isSome hlinked htodo hgarbage

end

end WinAirPlay.Raop
