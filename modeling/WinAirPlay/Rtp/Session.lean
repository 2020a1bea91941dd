import WinAirPlay.RaopBuffer.Decryption
import WinAirPlay.Rtp.Datagrams
import WinAirPlay.Rtp.Draining

/-! # The audio stream from end to end

The client numbers its packets, encrypts the payloads with the key of the session and sends every
packet once or more often, with sync packets in between. A listener takes the packets as they come:
each one with a higher number than all before is played, the others are not. It knows neither the
ring of packets nor the numbers modulo `2 ^ 16`.

The audio thread follows the listener, as long as the client leaves out no packet or so many that
the window is passed. A shorter hole keeps the packets behind it in the buffer.
-/

namespace WinAirPlay
open Foundations.BlockCipher Foundations.ByteBuffer Foundations.SerialNumber Foundations.Transition
set_option autoImplicit false

/-! ## The client -/

/-- Packet `k` has the number `first + k`. A payload of four bytes could be taken for the packet
without audio. -/
structure AudioClient where
  first : BitVec 16
  header : ℕ → Bytes
  payload : ℕ → Bytes
  header_length : ∀ k, (header k).length = 12
  header_seqnum : ∀ k, packetSeqnum (header k) = numbered first k
  payload_long : ∀ k, 4 < (payload k).length
  payload_fits : ∀ k, 12 + (payload k).length ≤ raopPacketLen

namespace AudioClient
variable (client : AudioClient)

def packet (aes : Equiv.Perm AesBlock) (iv : Bytes) (k : ℕ) : Bytes :=
  audioPacket aes iv (client.header k) (client.payload k)

/-- What of a payload arrives: the last block that was encrypted is zeros. -/
def arrives (k : ℕ) : Bytes :=
  let n := encryptedLen (client.payload k).length
  (client.payload k).take (n - 16) ++ List.replicate (n - (n - 16)) 0 ++ (client.payload k).drop n

variable (aes : Equiv.Perm AesBlock) (iv : Bytes)

theorem length_packet (k : ℕ) :
    (client.packet aes iv k).length = 12 + (client.payload k).length := by
  have hle : encryptedLen (client.payload k).length ≤ (client.payload k).length :=
    Nat.div_mul_le_self _ _
  rw [packet, audioPacket, List.length_append, List.length_append, client.header_length,
    length_cbcText, List.length_drop]
  omega

theorem packet_fits (k : ℕ) : 12 < (client.packet aes iv k).length ∧
    (client.packet aes iv k).length ≤ raopPacketLen := by
  have hlong := client.payload_long k
  have hfits := client.payload_fits k
  rw [length_packet]
  omega

/-- The header of a packet is that of the client. -/
theorem byteAt_packet (k : ℕ) {i : ℕ} (hi : i < 12) :
    byteAt (client.packet aes iv k) i = byteAt (client.header k) i := by
  refine byteAt_congr (n := 12) ?_ hi
  have hlength := client.header_length k
  rw [packet, audioPacket, List.append_assoc, List.take_append_of_le_length hlength.ge]

theorem packetSeqnum_packet (k : ℕ) :
    packetSeqnum (client.packet aes iv k) = numbered client.first k := by
  rw [packetSeqnum, client.byteAt_packet aes iv k (by decide),
    client.byteAt_packet aes iv k (by decide)]
  exact client.header_seqnum k

/-- The packet as it goes to `raop_buffer_enqueue`. -/
def enqueued (rtpScaled : UInt32 → UInt64) (clock : RtpClock) (k : ℕ) : Enqueued :=
  dataPacket rtpScaled clock (client.packet aes iv k) (client.packet aes iv k).length

theorem datalen_enqueued (rtpScaled : UInt32 → UInt64) (clock : RtpClock) (k : ℕ) :
    (client.enqueued aes iv rtpScaled clock k).datalen.toNat = 12 + (client.payload k).length := by
  rw [enqueued, dataPacket_datalen _ _ _ (client.packet_fits aes iv k).2, length_packet]

theorem timestamp_enqueued (rtpScaled : UInt32 → UInt64) (clock : RtpClock) (k : ℕ) :
    (client.enqueued aes iv rtpScaled clock k).timestamp =
      raopRtpConvertRtpTime rtpScaled clock (rtpTimestamp (client.header k) 4) := by
  have hbyte := fun i (hi : i < 12) => client.byteAt_packet aes iv k hi
  rw [enqueued, dataPacket, rtpTimestamp, hbyte _ (by decide), hbyte _ (by decide),
    hbyte _ (by decide), hbyte _ (by decide)]
  rfl

end AudioClient

/-! ## The listener -/

/-- What comes in: packet `k`, a sync packet, or a step in which the thread reads nothing. -/
inductive AudioArrival
  | data (k : ℕ) (around : Surroundings)
  | sync (bytes : Bytes) (around : Surroundings)
  | pass (label : RtpLabel)

/-- The number of the next packet, once one was played, and the clock. -/
structure Listener where
  next : Option ℕ
  clock : RtpClock

def listenerInit : Listener := ⟨none, rtpClockInit⟩

/-- A packet that the listener has passed, the next one, or one behind a long hole. -/
def InReach : Option ℕ → ℕ → Prop
  | none, _ => True
  | some n, k => k = n ∨ (k < n ∧ n ≤ k + 2 ^ 15) ∨ (n + 32 ≤ k ∧ k < n + 2 ^ 15)

instance : ∀ next k, Decidable (InReach next k)
  | none, _ => isTrue trivial
  | some _, _ => inferInstanceAs (Decidable (_ ∨ _))

theorem inReach_some (n k : ℕ) : InReach (some n) k ↔
    k = n ∨ (k < n ∧ n ≤ k + 2 ^ 15) ∨ (n + 32 ≤ k ∧ k < n + 2 ^ 15) := Iff.rfl

/-- The thread takes its mailbox, waits, or finds something posted that is neither a volume nor a
flush. -/
def Passes : RtpLabel → Bool
  | .post (.setVolume _) | .post (.flush _) => false
  | .post _ => true
  | .receiveControl .. | .receiveData .. => false
  | label => label.ofThread

def AudioClient.played (client : AudioClient) (rtpScaled : UInt32 → UInt64) (clock : RtpClock)
    (k : ℕ) : AacDecodeStruct where
  dataLen := (client.payload k).length
  data := client.arrives k
  pts := raopRtpConvertRtpTime rtpScaled clock (rtpTimestamp (client.header k) 4)

def listenStep (client : AudioClient) (rtpScaled : UInt32 → UInt64) (l : Listener) :
    AudioArrival → Option (Listener × List AacDecodeStruct)
  | .data k around =>
    if InReach l.next k ∧ around.fill = true then
      if ∀ n ∈ l.next, n ≤ k then
        some ({ l with next := some (k + 1) }, [client.played rtpScaled l.clock k])
      else some (l, [])
    else none
  | .sync bytes around =>
    if packetType bytes = 0x54 ∧ 20 ≤ bytes.length ∧ bytes.length ≤ raopPacketLen then
      let packet := receivedSync bytes around.syncOffset
      let clock := raopRtpSyncClock rtpScaled l.clock packet.rtpTime packet.ntpTime
      some ({ l with clock := clock.getD l.clock }, [])
    else none
  | .pass label => if Passes label then some (l, []) else none

/-- What the thread gets. -/
def AudioArrival.label (client : AudioClient) (aes : Equiv.Perm AesBlock) (iv : Bytes) :
    AudioArrival → RtpLabel
  | .data k around => .receiveData (.datagram (client.packet aes iv k)) around
  | .sync bytes around => .receiveControl (.datagram bytes) around
  | .pass label => label

/-! ## The thread and the listener -/

theorem drain_key (noResend : Bool) (b : RaopBuffer) :
    (drain noResend b).2.aeskey = b.aeskey ∧ (drain noResend b).2.aesiv = b.aesiv := by
  have hloop : ∀ (n : ℕ) (b : RaopBuffer), (drainLoop noResend n b).2.aeskey = b.aeskey ∧
      (drainLoop noResend n b).2.aesiv = b.aesiv := by
    intro n
    induction n with
    | zero => exact fun b => ⟨rfl, rfl⟩
    | succ n ih =>
      intro b
      obtain ⟨hkey, hiv⟩ := apply_key default b (.dequeue 0 0 noResend)
      rw [drainLoop_succ]
      cases (raopBufferDequeue b 0 0 noResend).data with
      | none => exact ⟨hkey, hiv⟩
      | some payload =>
        obtain ⟨hkey', hiv'⟩ := ih (freeBlock (raopBufferDequeue b 0 0 noResend).raopBuffer payload)
        exact ⟨hkey'.trans hkey, hiv'.trans hiv⟩
  exact hloop _ b

theorem renderPackets_clock (rtp : RaopRtp) : (renderPackets rtp).1.clock = rtp.clock := by
  unfold renderPackets
  dsimp only
  split
  · rfl
  · split <;> rfl

/-- Nothing is held, and the thread expects the packet that the listener expects. -/
structure Follows (client : AudioClient) (key iv : Bytes) (rtp : RaopRtp) (l : Listener) : Prop where
  window : Window rtp.buffer
  unfilled : ∀ i, (rtp.buffer.entries i).filled = false
  key : rtp.buffer.aeskey = key
  iv : rtp.buffer.aesiv = iv
  next : l.next = none ∧ rtp.buffer.isEmpty = true ∨ ∃ n, l.next = some n ∧
    rtp.buffer.isEmpty = false ∧ rtp.buffer.firstSeqnum = numbered client.first n
  clock : rtp.clock = l.clock
  rport : rtp.controlRport = 0
  quiet : Quiet rtp

section
variable {P : Openssl} {rtpScaled : UInt32 → UInt64} {client : AudioClient} {key iv : Bytes}
  {rtp : RaopRtp} {l : Listener} {aes : Bytes → Equiv.Perm AesBlock}

/-- A datagram that fits and is longer than a header is decoded and followed by the drain loop. -/
theorem receiveData_decodes (P : Openssl) (rtpScaled : UInt32 → UInt64) (rtp : RaopRtp)
    {bytes : Bytes} (hlow : 12 < bytes.length)
    (hhigh : bytes.length ≤ raopPacketLen) (hrport : rtp.controlRport = 0) {around : Surroundings}
    (hfill : around.fill = true) :
    let r := receiveData P rtpScaled rtp (.datagram bytes) around
    let stored := (enqueuePacket P rtp.buffer (dataPacket rtpScaled rtp.clock bytes bytes.length)
      around.entry).raopBuffer
    r.1.buffer = (drain true stored).2 ∧ renderedPackets r.2 = (drain true stored).1 ∧
      r.1.clock = rtp.clock := by
  intro r stored
  have hdatalen := dataPacket_datalen rtpScaled rtp.clock bytes hhigh
  have hdone := (decodePacket_done_iff (P := P) rtp
    (dataPacket rtpScaled rtp.clock bytes bytes.length) around.entry).mpr
      ⟨by omega, fun hshort => by omega⟩
  have heq := decodePacket_eq P rtp (dataPacket rtpScaled rtp.clock bytes bytes.length) around.entry
    true
  have hr : r = _ := receiveData_datagram hhigh hlow.le
  rw [hfill] at hr
  generalize decodePacket P rtp (dataPacket rtpScaled rtp.clock bytes bytes.length) around.entry
    true = decoded at hr hdone heq
  obtain ⟨outcome, buffer, decodes⟩ := decoded
  obtain rfl : outcome = .done := hdone
  obtain ⟨hbuffer, hdecodes⟩ := Prod.mk.inj heq
  obtain rfl : buffer = stored := hbuffer
  have hsilent : renderedPackets decodes = [] := by
    rw [hdecodes]
    split <;> rfl
  have hrendered := renderPackets_eq
    { rtp with packet := writeAt rtp.packet 0 bytes, buffer := stored, point := .top }
  have hno : decide (rtp.controlRport = 0) = true := decide_eq_true hrport
  dsimp only at hrendered
  rw [hno] at hrendered
  obtain ⟨hdrained, -, hplayed⟩ := hrendered
  rw [hr]
  unfold afterDecoded afterData
  dsimp only
  refine ⟨?_, ?_, ?_⟩
  · exact hdrained
  · rw [renderedPackets_append, hsilent]
    exact hplayed
  · exact renderPackets_clock _

theorem seqnumCmp_near {k n : ℕ} (hlow : n ≤ k + 2 ^ 15) (hhigh : k < n + 2 ^ 15) :
    seqnumCmp (numbered client.first k) (numbered client.first n) = (k : ℤ) - n :=
  signedDiff_numbered (by decide) client.first hlow hhigh

theorem numbered_window (n : ℕ) :
    numbered client.first n + 32#16 = numbered client.first (n + 32) := by
  rw [numbered, numbered, BitVec.ofNat_add, BitVec.add_assoc]

/-- A packet that is new to the listener passes the checks of the buffer. -/
theorem Follows.enters (h : Follows client key iv rtp l) {k : ℕ} (hreach : InReach l.next k)
    (hnew : ∀ n ∈ l.next, n ≤ k) {packet : Enqueued}
    (hlength : packet.datalen.toNat = 12 + (client.payload k).length)
    (hseqnum : packetSeqnum packet.data = numbered client.first k) :
    Enters rtp.buffer packet ∧ (rtp.buffer.isEmpty = true ∨
      packetSeqnum packet.data = rtp.buffer.firstSeqnum ∨
        0 ≤ seqnumCmp (packetSeqnum packet.data) (rtp.buffer.firstSeqnum + 32#16)) := by
  have hlong := client.payload_long k
  have hfits := client.payload_fits k
  have haudio : isNoDataPacket packet.data packet.datalen = false := by
    have hmarker : (packet.datalen.toNat == 16) = false := by
      rw [beq_eq_false_iff_ne]
      omega
    simp only [isNoDataPacket, hmarker, Bool.false_and]
  have hlen : 12 ≤ packet.datalen.toNat ∧ packet.datalen.toNat ≤ raopPacketLen := by omega
  have hunfilled := h.unfilled (slot (packetSeqnum packet.data))
  obtain ⟨-, hempty⟩ | ⟨n, hnext, -, hfirst⟩ := h.next
  · exact ⟨⟨hlen, haudio, .inl hempty, .inr (.inl hunfilled)⟩, .inl hempty⟩
  · have hle := hnew n hnext
    rw [hnext, inReach_some] at hreach
    have htimely : 0 ≤ seqnumCmp (packetSeqnum packet.data) rtp.buffer.firstSeqnum := by
      rw [hseqnum, hfirst, seqnumCmp_near (by omega) (by omega)]
      omega
    refine ⟨⟨hlen, haudio, .inr htimely, .inr (.inl hunfilled)⟩, .inr ?_⟩
    obtain rfl | hbefore | ⟨hhole, hnear⟩ := hreach
    · exact .inl (hseqnum.trans hfirst.symm)
    · omega
    · refine .inr ?_
      rw [hseqnum, hfirst, numbered_window, seqnumCmp_near (by omega) (by omega)]
      push_cast
      omega

/-- A packet that the listener has passed is too late for the buffer. -/
theorem Follows.refuses (h : Follows client key iv rtp l) {k n : ℕ} (hnext : l.next = some n)
    (hreach : InReach l.next k) (hold : k < n) {packet : Enqueued}
    (hseqnum : packetSeqnum packet.data = numbered client.first k) : ¬ Enters rtp.buffer packet := by
  intro henters
  obtain ⟨hnone, -⟩ | ⟨n', hnext', hempty, hfirst⟩ := h.next
  · cases hnone.symm.trans hnext
  · obtain rfl : n = n' := Option.some.inj (hnext.symm.trans hnext')
    rw [hnext, inReach_some] at hreach
    have htimely := henters.timely.resolve_left (by rw [hempty]; decide)
    rw [hseqnum, hfirst, seqnumCmp_near (by omega) (by omega)] at htimely
    omega

theorem Follows.of_same {rtp' : RaopRtp} {l' : Listener} (h : Follows client key iv rtp l)
    (hframe : Received.Frame rtp rtp') (hbuffer : rtp'.buffer = rtp.buffer)
    (hclock : rtp'.clock = l'.clock) (hnext : l'.next = l.next) : Follows client key iv rtp' l' where
  window := hbuffer ▸ h.window
  unfilled := hbuffer ▸ h.unfilled
  key := hbuffer ▸ h.key
  iv := hbuffer ▸ h.iv
  next := by
    rw [hbuffer, hnext]
    exact h.next
  clock := hclock
  rport := hframe.controlRport.trans h.rport
  quiet := h.quiet.of_frame hframe

/-- The buffer has the key of the client, and the thread the clock of the listener. -/
theorem Follows.played (hP : Documented P aes) (hkey : key.length = 16) (hiv : iv.length = 16)
    (h : Follows client key iv rtp l) (k : ℕ) :
    playedPacket P rtp.buffer (client.enqueued (aes key) iv rtpScaled rtp.clock k) =
      client.played rtpScaled l.clock k := by
  have hkey' : rtp.buffer.aeskey.length = 16 := h.key ▸ hkey
  have hiv' : rtp.buffer.aesiv.length = 16 := h.iv ▸ hiv
  have hnone : run (callStep P) rtp.buffer [] = some rtp.buffer := rfl
  have hdecrypt := decrypt_audioPacket hP hkey' hiv' hnone (client.header_length k)
    (client.payload k)
  rw [h.key, h.iv] at hdecrypt
  rw [playedPacket, client.datalen_enqueued, Nat.add_sub_cancel_left, client.timestamp_enqueued,
    h.clock]
  exact congrArg (AacDecodeStruct.mk _ · _) hdecrypt

theorem Follows.data (hP : Documented P aes) (hkey : key.length = 16) (hiv : iv.length = 16)
    (h : Follows client key iv rtp l) {k : ℕ} {around : Surroundings}
    {r : Listener × List AacDecodeStruct}
    (hr : listenStep client rtpScaled l (.data k around) = some r) :
    let s := receiveData P rtpScaled rtp (.datagram (client.packet (aes key) iv k)) around
    Follows client key iv s.1 r.1 ∧ renderedPackets s.2 = r.2 := by
  intro s
  simp only [listenStep, Option.ite_none_right_eq_some] at hr
  obtain ⟨⟨hreach, hfill⟩, hr⟩ := hr
  obtain ⟨hlow, hhigh⟩ := client.packet_fits (aes key) iv k
  have hframe := receiveData_frame P rtpScaled rtp (.datagram (client.packet (aes key) iv k)) around
  obtain ⟨packet, hpacket⟩ : ∃ packet, packet = client.enqueued (aes key) iv rtpScaled rtp.clock k :=
    ⟨_, rfl⟩
  have hdatalen : packet.datalen.toNat = 12 + (client.payload k).length := by
    rw [hpacket, client.datalen_enqueued]
  have hseqnum : packetSeqnum packet.data = numbered client.first k := by
    rw [hpacket]
    exact client.packetSeqnum_packet (aes key) iv k
  have hplayed : playedPacket P rtp.buffer packet = client.played rtpScaled l.clock k := by
    rw [hpacket, h.played hP hkey hiv]
  obtain ⟨hbuffer, hrendered, hclock⟩ :
      s.1.buffer = (drain true (enqueuePacket P rtp.buffer packet around.entry).raopBuffer).2 ∧
        renderedPackets s.2 =
          (drain true (enqueuePacket P rtp.buffer packet around.entry).raopBuffer).1 ∧
        s.1.clock = rtp.clock := by
    rw [hpacket]
    exact receiveData_decodes P rtpScaled rtp hlow hhigh h.rport hfill
  obtain ⟨hkeyed, hived⟩ := apply_key P rtp.buffer
    (.enqueue packet.data packet.datalen packet.timestamp true around.entry)
  obtain ⟨hkeyed', hived'⟩ :=
    drain_key true (enqueuePacket P rtp.buffer packet around.entry).raopBuffer
  have hwindow := (waiting_drain (window_enqueue P h.window packet.data packet.datalen
    packet.timestamp around.entry) true).2.1
  by_cases hnew : ∀ n ∈ l.next, n ≤ k
  · rw [if_pos hnew] at hr
    obtain rfl := Option.some.inj hr
    obtain ⟨henters, hguard⟩ := h.enters hreach hnew hdatalen hseqnum
    have hret := (enters_iff_ret P rtp.buffer packet around.entry).mp henters
    obtain ⟨hne, -⟩ | ⟨-, hacc⟩ := enqueue_cases P rtp.buffer packet.data packet.datalen
      packet.timestamp around.entry
    · exact absurd hret hne
    have hstored := storedAlone h.window h.unfilled hret hacc
    obtain ⟨b, hdrain, hnone, hempty, hfirst⟩ := drain_played hstored (hstored.first.mpr hguard)
    refine ⟨⟨?_, ?_, ?_, ?_, .inr ⟨k + 1, rfl, ?_, ?_⟩, hclock.trans h.clock,
      hframe.controlRport.trans h.rport, h.quiet.of_frame hframe⟩, ?_⟩
    · rw [hbuffer]
      exact hwindow
    · rw [hbuffer, hdrain]
      exact hnone
    · rw [hbuffer]
      exact (hkeyed'.trans hkeyed).trans h.key
    · rw [hbuffer]
      exact (hived'.trans hived).trans h.iv
    · rw [hbuffer, hdrain]
      exact hempty
    · rw [hbuffer, hdrain]
      exact hfirst.trans (hseqnum ▸ numbered_succ client.first k)
    · rw [hrendered, hdrain, hplayed]
  · rw [if_neg hnew] at hr
    obtain rfl := Option.some.inj hr
    obtain ⟨n, hnext, hold⟩ : ∃ n, l.next = some n ∧ k < n := by
      simpa using hnew
    have hrefuses := h.refuses hnext hreach hold hseqnum
    obtain ⟨-, hsame, -⟩ | ⟨hret, -⟩ := enqueue_cases P rtp.buffer packet.data packet.datalen
      packet.timestamp around.entry
    · have hdrain : drain true (enqueuePacket P rtp.buffer packet around.entry).raopBuffer =
          ([], rtp.buffer) := by
        rw [enqueuePacket, hsame]
        exact drain_unfilled h.window h.unfilled true
      rw [hdrain] at hbuffer hrendered
      exact ⟨h.of_same hframe hbuffer (hclock.trans h.clock) rfl, hrendered⟩
    · exact absurd ((enters_iff_ret P rtp.buffer packet around.entry).mpr hret) hrefuses

theorem Follows.sync (h : Follows client key iv rtp l) {bytes : Bytes} {around : Surroundings}
    {r : Listener × List AacDecodeStruct}
    (hr : listenStep client rtpScaled l (.sync bytes around) = some r) {next : RtpPoint}
    (hpoint : ∀ taken since, next ≠ .handling taken since) :
    let s := receiveControl P rtpScaled rtp next (.datagram bytes) around
    Follows client key iv s.1 r.1 ∧ renderedPackets s.2 = r.2 := by
  intro s
  simp only [listenStep, Option.ite_none_right_eq_some] at hr
  obtain ⟨⟨htype, hlow, hhigh⟩, hr⟩ := hr
  obtain rfl := Option.some.inj hr
  have hframe := receiveControl_frame P rtpScaled rtp hpoint (.datagram bytes) around
  have htyped : packetType (recvfrom rtp.packet (.datagram bytes)).1 = 0x54 := by
    rw [recvfrom_datagram hhigh, packetType_array (by omega), htype]
  have hlong : 20 ≤ (recvfrom rtp.packet (.datagram bytes)).2 := by
    rw [recvfrom_datagram hhigh]
    exact hlow
  obtain ⟨clock, hclock, hs⟩ := receiveControl_sync P rtpScaled rtp next around htyped hlong
  rw [recvfrom_datagram hhigh, receivedSync_array hlow] at hclock
  obtain rfl := (Prod.mk.inj (Option.some.inj hclock)).1
  have hs : s = _ := hs
  rw [h.clock] at hs
  refine ⟨h.of_same hframe ?_ ?_ rfl, ?_⟩
  · exact congrArg (fun s => s.1.buffer) hs
  · exact congrArg (fun s => s.1.clock) hs
  · exact congrArg (fun s => renderedPackets s.2) hs

theorem Follows.pass (h : Follows client key iv rtp l) {label : RtpLabel}
    (hpass : Passes label = true) {r : RaopRtp × List RtpEvent}
    (hr : rtpStep P rtpScaled rtp label = some r) :
    Follows client key iv r.1 l ∧ renderedPackets r.2 = [] := by
  cases rtpMove_of_step hr with
  | post request =>
    have hmailbox : (request.post rtp.mailbox).volumeChanged = false := by
      rw [← h.quiet.mailbox]
      cases request with
      | setVolume | flush => cases hpass
      | setMetadata | setCoverart | remoteControlId =>
        simp only [RtpRequest.post, raopRtpSetMetadata, raopRtpSetCoverart, raopRtpRemoteControlId]
        split <;> rfl
      | setProgress => rfl
    exact ⟨{ h with quiet := ⟨hmailbox, h.quiet.handling⟩ }, rfl⟩
  | start | stopEarly | stop | join => cases hpass
  | takeMailbox =>
    refine ⟨{ h with quiet := ⟨rfl, fun taken since hc => ?_⟩ }, rfl⟩
    cases hc
    exact h.quiet.mailbox
  | handleMailbox taken since hpoint =>
    rw [processEvents_buffer _ (h.quiet.handling taken since hpoint)]
    exact ⟨{ h with quiet := ⟨h.quiet.mailbox, fun _ _ hc => by cases hc⟩ }, rfl⟩
  | goOn _ _ running point hpoint =>
    have hquiet : ∀ taken since, point = .handling taken since → taken.volumeChanged = false :=
      fun taken since hc => absurd hc (hpoint taken since)
    exact ⟨{ h with quiet := ⟨h.quiet.mailbox, hquiet⟩ }, rfl⟩
  | receiveControl | receiveData => cases hpass

theorem follows_step (hP : Documented P aes) (hkey : key.length = 16) (hiv : iv.length = 16)
    (h : Follows client key iv rtp l) {arrival : AudioArrival} {s : RaopRtp × List RtpEvent}
    {r : Listener × List AacDecodeStruct}
    (hs : rtpStep P rtpScaled rtp (arrival.label client (aes key) iv) = some s)
    (hr : listenStep client rtpScaled l arrival = some r) :
    Follows client key iv s.1 r.1 ∧ renderedPackets s.2 = r.2 := by
  cases arrival with
  | data k around =>
    have hs : rtpStep P rtpScaled rtp
      (.receiveData (.datagram (client.packet (aes key) iv k)) around) = some s := hs
    by_cases hpoint : rtp.point = .data
    · rw [rtpStep_receiveData hpoint] at hs
      obtain rfl := Option.some.inj hs
      exact h.data hP hkey hiv hr
    · rw [rtpStep_receiveData_none hpoint] at hs
      cases hs
  | sync bytes around =>
    have hs : rtpStep P rtpScaled rtp (.receiveControl (.datagram bytes) around) = some s := hs
    rw [rtpStep_receiveControl] at hs
    obtain ⟨next, hnext, rfl⟩ := Option.map_eq_some_iff.mp hs
    refine h.sync hr fun taken since hc => ?_
    subst hc
    cases hpoint : rtp.point with
    | control data =>
      rw [hpoint] at hnext
      cases data <;> cases hnext
    | _ =>
      rw [hpoint] at hnext
      cases hnext
  | pass label =>
    simp only [listenStep, Option.ite_none_right_eq_some] at hr
    obtain ⟨hpass, hr⟩ := hr
    obtain rfl := Option.some.inj hr
    exact h.pass hpass hs

end

/-! ## The stream -/

/-- The packets with these numbers came in, each is played once and after the ones before it. -/
structure Heard (client : AudioClient) (arrivals : List AudioArrival) (played : List AacDecodeStruct)
    (numbers : List ℕ) : Prop where
  payloads : played.map (·.data) = numbers.map client.arrives
  increasing : numbers.Pairwise (· < ·)
  arrived : ∀ k ∈ numbers, ∃ around, AudioArrival.data k around ∈ arrivals

theorem heard_step {client : AudioClient} {rtpScaled : UInt32 → UInt64} {past : List AudioArrival}
    {played : List AacDecodeStruct} {l : Listener} {arrival : AudioArrival}
    {r : Listener × List AacDecodeStruct}
    (h : ∃ numbers, Heard client past played numbers ∧ ∀ k ∈ numbers, ∃ n, l.next = some n ∧ k < n)
    (hr : listenStep client rtpScaled l arrival = some r) :
    ∃ numbers, Heard client (past ++ [arrival]) (played ++ r.2) numbers ∧
      ∀ k ∈ numbers, ∃ n, r.1.next = some n ∧ k < n := by
  obtain ⟨numbers, hheard, hbelow⟩ := h
  have hkeep : Heard client (past ++ [arrival]) (played ++ []) numbers :=
    ⟨by rw [List.append_nil]; exact hheard.payloads, hheard.increasing, fun k hk =>
      (hheard.arrived k hk).imp fun around hmem => List.mem_append_left _ hmem⟩
  cases arrival with
  | data k around =>
    simp only [listenStep, Option.ite_none_right_eq_some] at hr
    obtain ⟨-, hr⟩ := hr
    by_cases hnew : ∀ n ∈ l.next, n ≤ k
    · rw [if_pos hnew] at hr
      obtain rfl := Option.some.inj hr
      have hlt : ∀ k' ∈ numbers, k' < k := fun k' hk' => by
        obtain ⟨n, hn, hk'n⟩ := hbelow k' hk'
        exact lt_of_lt_of_le hk'n (hnew n hn)
      refine ⟨numbers ++ [k], ⟨?_, ?_, ?_⟩, ?_⟩
      · rw [List.map_append, List.map_append, hheard.payloads]
        rfl
      · exact List.pairwise_append.mpr ⟨hheard.increasing, List.pairwise_singleton _ _,
          fun k' hk' m hm => List.mem_singleton.mp hm ▸ hlt k' hk'⟩
      · intro k' hk'
        obtain hk' | hk' := List.mem_append.mp hk'
        · exact hkeep.arrived k' hk'
        · obtain rfl := List.mem_singleton.mp hk'
          exact ⟨around, List.mem_append_right _ (List.mem_singleton_self _)⟩
      · intro k' hk'
        refine ⟨k + 1, rfl, ?_⟩
        obtain hk' | hk' := List.mem_append.mp hk'
        · exact Nat.lt_succ_of_lt (hlt k' hk')
        · exact Nat.lt_succ_of_le (List.mem_singleton.mp hk').le
    · rw [if_neg hnew] at hr
      obtain rfl := Option.some.inj hr
      exact ⟨numbers, hkeep, hbelow⟩
  | sync bytes around =>
    simp only [listenStep, Option.ite_none_right_eq_some] at hr
    obtain ⟨-, hr⟩ := hr
    obtain rfl := Option.some.inj hr
    exact ⟨numbers, hkeep, hbelow⟩
  | pass label =>
    simp only [listenStep, Option.ite_none_right_eq_some] at hr
    obtain ⟨-, hr⟩ := hr
    obtain rfl := Option.some.inj hr
    exact ⟨numbers, hkeep, hbelow⟩

theorem follows_start (client : AudioClient) (P : Openssl) (callbacks : RaopCallbacks)
    (aeskey aesiv ecdhSecret garbage : Bytes) :
    let rtp := audioThread P callbacks aeskey aesiv ecdhSecret 0 garbage
    Follows client rtp.buffer.aeskey rtp.buffer.aesiv rtp listenerInit where
  window := window_init P aeskey aesiv ecdhSecret
  unfilled _ := rfl
  key := rfl
  iv := rfl
  next := .inl ⟨rfl, rfl⟩
  clock := rfl
  rport := rfl
  quiet := ⟨rfl, fun _ _ hc => by cases hc⟩

/-- In every run of the audio thread in which the packets come as the listener can take them,
`audio_process` gets what the listener plays: the payloads of packets that came in, each once and in
the order of their numbers, with the time of the clock as the sync packets have set it. -/
theorem audioStream_heard {P : Openssl} {aes : Bytes → Equiv.Perm AesBlock} (hP : Documented P aes)
    (rtpScaled : UInt32 → UInt64) (callbacks : RaopCallbacks)
    (aeskey aesiv ecdhSecret garbage : Bytes) (client : AudioClient) {arrivals : List AudioArrival}
    {rtp : RaopRtp} {l : Listener} :
    let start := audioThread P callbacks aeskey aesiv ecdhSecret 0 garbage
    let key := start.buffer.aeskey
    let iv := start.buffer.aesiv
    let labels := arrivals.map (AudioArrival.label client (aes key) iv)
    key.length = 16 → iv.length = 16 → run (rtpStep P rtpScaled) start labels = some rtp →
      run (listenStep client rtpScaled) listenerInit arrivals = some l →
      let rendered := renderedPackets (events (rtpStep P rtpScaled) start labels)
      rendered = events (listenStep client rtpScaled) listenerInit arrivals ∧
        (∃ numbers, Heard client arrivals rendered numbers) ∧
        ∀ i, (rtp.buffer.entries i).filled = false := by
  intro start key iv labels hkey hiv hrun hlisten rendered
  obtain ⟨hfollows, hrendered⟩ := run_simulates
    (R := Follows client key iv) (fun s t arrival r r' h hs ht => follows_step hP hkey hiv h hs ht)
    (follows_start client P callbacks aeskey aesiv ecdhSecret garbage) hrun hlisten
  have hrendered : rendered = events (listenStep client rtpScaled) listenerInit arrivals := hrendered
  have hsilent : ∃ numbers, Heard client [] [] numbers ∧
      ∀ k ∈ numbers, ∃ n, listenerInit.next = some n ∧ k < n :=
    ⟨[], ⟨rfl, List.Pairwise.nil, by simp⟩, by simp⟩
  obtain ⟨numbers, hheard, -⟩ := invariant_history
    (I := fun past played l => ∃ numbers, Heard client past played numbers ∧
      ∀ k ∈ numbers, ∃ n, l.next = some n ∧ k < n)
    (fun past played l arrival r h hr => heard_step h hr) hsilent hlisten
  rw [List.nil_append, List.nil_append, ← hrendered] at hheard
  exact ⟨hrendered, ⟨numbers, hheard⟩, hfollows.unfilled⟩

/-- SHA-512 of the key and the secret of zeros. -/
def zeroDigest : Bytes :=
  bigEndian 32 0xed68f5f49945dcd0d81dfebe2f2fd1fcfe016807d5c64ee0377d046efeb0a7fd ++
    bigEndian 32 0x9b4b9589b3df8a14194d51dcffbd89c8aaa072cea2ad4e7976bdf53528ea90cc

def zeroKeyOpenssl : Openssl := { opensslOf fun _ => aesOfZeros with sha512 := fun _ => zeroDigest }

theorem documented_zeroKeyOpenssl : Documented zeroKeyOpenssl fun _ => aesOfZeros where
  ctr key iv _ _ := by simp only [zeroKeyOpenssl, opensslOf]
  cbc direction key iv fed input _ _ := by simp only [zeroKeyOpenssl, opensslOf]

/-- Five bytes of audio in every packet; the number after the first one wraps. -/
def shortClient : AudioClient where
  first := 65535
  header k := renumber (List.replicate 12 0) (numbered 65535 k)
  payload k := List.replicate 5 (UInt8.ofNat k)
  header_length _ := rfl
  header_seqnum k := packetSeqnum_renumber _ _
  payload_long _ := by simp
  payload_fits _ := by simp [raopPacketLen]

/-- A sync packet and packet 0, which comes again before packet 1. -/
def pairArrivals : List AudioArrival :=
  let around : Surroundings := ⟨[], emptyEntry, 0, true⟩
  let syncBytes : Bytes := [0x80, 0xd4] ++ List.replicate 16 1 ++ List.replicate 2 0
  let waits (control : Bool) : List AudioArrival :=
    [.pass .takeMailbox, .pass .handleMailbox, .pass (.ready control true)]
  waits true ++ [.sync syncBytes around, .data 0 around] ++ waits false ++ [.data 0 around] ++
    waits false ++ [.data 1 around]

theorem audioStream_heard_pair :
    let start := audioThread zeroKeyOpenssl ⟨true, true, true, true, true, true⟩
      (List.replicate 16 0) (List.replicate 16 0) (List.replicate 32 0) 0
      (List.replicate raopPacketLen 0)
    let labels := pairArrivals.map
      (AudioArrival.label shortClient aesOfZeros start.buffer.aesiv)
    (run (rtpStep zeroKeyOpenssl (·.toUInt64)) start labels).isSome = true ∧
      (renderedPackets (events (rtpStep zeroKeyOpenssl (·.toUInt64)) start labels)).map (·.data) =
        [List.replicate 5 0, List.replicate 5 1] := by
  intro start labels
  have hkey : start.buffer.aeskey.length = 16 := by decide +kernel
  have hiv : start.buffer.aesiv.length = 16 := by decide +kernel
  have hruns : (run (rtpStep zeroKeyOpenssl (·.toUInt64)) start labels).isSome = true := by
    decide +kernel
  have hlistens : (run (listenStep shortClient (·.toUInt64)) listenerInit pairArrivals).isSome =
      true := by
    decide +kernel
  obtain ⟨rtp, hrun⟩ := Option.isSome_iff_exists.mp hruns
  obtain ⟨l, hlisten⟩ := Option.isSome_iff_exists.mp hlistens
  obtain ⟨hrendered, -⟩ := audioStream_heard documented_zeroKeyOpenssl (·.toUInt64)
    ⟨true, true, true, true, true, true⟩ (List.replicate 16 0) (List.replicate 16 0)
    (List.replicate 32 0) (List.replicate raopPacketLen 0) shortClient hkey hiv hrun hlisten
  refine ⟨hruns, ?_⟩
  rw [hrendered]
  decide +kernel

end WinAirPlay
