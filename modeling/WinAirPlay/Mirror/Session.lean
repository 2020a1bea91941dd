import WinAirPlay.Mirror.ParameterSets
import WinAirPlay.Mirror.Thread

/-! # The mirror stream from end to end

The peer makes frames of access units, parameter sets and other packets, encrypts the video data
with one keystream and writes them on a connection. The thread reads them in pieces, decrypts and
rewrites them. The result puts both together: the decoder gets, in order, the units and parameter
sets that were sent, as far as they have arrived.
-/

namespace WinAirPlay
open Foundations.ByteBuffer Foundations.KeyStream Foundations.CheckedMemory Foundations.Framing
open Foundations.Transition
set_option autoImplicit false

inductive PacketContent
  | video (units : List Bytes)
  | parameterSets (record : AvcRecord)
  | other (payloadType : UInt8) (payload : Bytes)

/-- A frame before encryption. `flags` and `rest` are the bytes of the header that are not read. -/
structure MirrorPacket where
  content : PacketContent
  flags : Fin 3 → UInt8
  timestamp : UInt64
  rest : Bytes
  rest_length : rest.length = 112

namespace MirrorPacket

def payloadType (p : MirrorPacket) : UInt8 :=
  match p.content with
  | .video _ => 0
  | .parameterSets _ => 1
  | .other payloadType _ => payloadType

def plain (p : MirrorPacket) : Bytes :=
  match p.content with
  | .video units => lengthPrefixed units
  | .parameterSets record => record.bytes
  | .other _ payload => payload

def header (p : MirrorPacket) : Bytes :=
  intBytes p.plain.length ++ [p.payloadType, p.flags 0, p.flags 1, p.flags 2] ++
    intBytes (p.timestamp.toNat % 2 ^ 32) ++ intBytes (p.timestamp.toNat / 2 ^ 32) ++ p.rest

/-- The lengths fit an `int`, no unit is empty, and the picture parameter set has a length of one
byte. -/
structure Sendable (p : MirrorPacket) : Prop where
  size : p.plain.length < 2 ^ 31
  video : ∀ units, p.content = .video units → units ≠ [] ∧ ∀ nalu ∈ units, 0 < nalu.length
  parameterSets : ∀ record, p.content = .parameterSets record → record.pps.length < 256
  other : ∀ payloadType payload, p.content = .other payloadType payload → 2 ≤ payloadType.toNat

/-- Only video data is encrypted. -/
def payload (ks : ℕ → UInt8) (total : ℕ) (p : MirrorPacket) : Bytes :=
  match p.content with
  | .video _ => xorFrom ks total p.plain
  | _ => p.plain

def videoLength (p : MirrorPacket) : ℕ :=
  match p.content with
  | .video _ => p.plain.length
  | _ => 0

/-- What the decoder is to get for a packet. -/
def delivered (syncOffset : UInt64) (p : MirrorPacket) : Option H264DecodeStruct :=
  match p.content with
  | .video units => some ⟨annexB units, 1,
      raopNtpConvertRemoteTime syncOffset (raopNtpTimestampToMicroSeconds p.timestamp false)⟩
  | .parameterSets record => some ⟨annexB [record.sps, record.pps], 0, 0⟩
  | .other _ _ => none

end MirrorPacket

/-- The frames on the wire, after `total` bytes of video data. -/
def sealPackets (ks : ℕ → UInt8) : ℕ → List MirrorPacket → List Frame
  | _, [] => []
  | total, p :: packets =>
    (p.header, p.payload ks total) :: sealPackets ks (total + p.videoLength) packets

/-- The lengths of the video data. -/
def videoLengths (packets : List MirrorPacket) : List ℕ :=
  packets.filterMap fun p =>
    match p.content with
    | .video _ => some p.plain.length
    | _ => none

def deliveries (syncOffset : ℕ → UInt64) : List MirrorPacket → List (Option H264DecodeStruct)
  | [] => []
  | p :: packets => p.delivered (syncOffset packets.length) :: deliveries syncOffset packets

/-- A frame that was read, as `processFrame` takes it. -/
def MirrorFrame.ofFrame (f : Frame) : MirrorFrame where
  header := if f.1.length = 128 then f.1 else List.replicate 128 0
  content := byteAt f.2
  header_length := by split <;> simp_all

/-! ## The header -/

section
variable (p : MirrorPacket)

theorem MirrorPacket.length_header : p.header.length = 128 := by
  rw [MirrorPacket.header, List.length_append, p.rest_length]
  rfl

theorem MirrorPacket.header_size (hsize : p.plain.length < 2 ^ 31) :
    byteutilsGetInt p.header 0 = p.plain.length := by
  show (UInt8.ofNat p.plain.length).toNat + 2 ^ 8 * (UInt8.ofNat (p.plain.length / 2 ^ 8)).toNat +
    2 ^ 16 * ((UInt8.ofNat (p.plain.length / 2 ^ 16)).toNat +
      2 ^ 8 * (UInt8.ofNat (p.plain.length / 2 ^ 24)).toNat) = p.plain.length
  simp only [UInt8.toNat_ofNat']
  omega

theorem MirrorPacket.header_payloadType :
    byteutilsGetShort p.header 4 &&& 0xff = p.payloadType.toNat := by
  have hlt := p.payloadType.toNat_lt
  show (p.payloadType.toNat + 2 ^ 8 * (p.flags 0).toNat) &&& (2 ^ 8 - 1) = _
  rw [Nat.and_two_pow_sub_one_eq_mod]
  omega

theorem MirrorPacket.header_timestamp : UInt64.ofNat (byteutilsGetLong p.header 8) = p.timestamp := by
  have hlt := p.timestamp.toNat_lt
  have hword : ∀ value, value < 2 ^ 32 → (UInt8.ofNat value).toNat +
      2 ^ 8 * (UInt8.ofNat (value / 2 ^ 8)).toNat + 2 ^ 16 * ((UInt8.ofNat (value / 2 ^ 16)).toNat +
        2 ^ 8 * (UInt8.ofNat (value / 2 ^ 24)).toNat) = value := by
    intro value hvalue
    simp only [UInt8.toNat_ofNat']
    omega
  have hlow := hword (p.timestamp.toNat % 2 ^ 32) (Nat.mod_lt _ (by decide))
  have hhigh := hword (p.timestamp.toNat / 2 ^ 32) (by omega)
  have hlong : byteutilsGetLong p.header 8 = p.timestamp.toNat := by
    calc byteutilsGetLong p.header 8
        = p.timestamp.toNat % 2 ^ 32 + 2 ^ 32 * (p.timestamp.toNat / 2 ^ 32) := by
          rw [← hlow, ← hhigh]
          rfl
      _ = p.timestamp.toNat := Nat.mod_add_div _ _
  rw [hlong, UInt64.ofNat_toNat]

theorem MirrorPacket.length_payload (ks : ℕ → UInt8) (total : ℕ) :
    (p.payload ks total).length = p.plain.length := by
  unfold MirrorPacket.payload
  split
  · exact length_xorFrom ..
  · rfl

end

/-! ## One packet -/

section
variable {p : MirrorPacket}

theorem MirrorPacket.Sendable.sentFrame (hp : p.Sendable) (ks : ℕ → UInt8) (total : ℕ) :
    SentFrame (p.header, p.payload ks total) := by
  have hsize : announced p.header = p.plain.length := p.header_size hp.size
  have hlt := hp.size
  refine ⟨⟨p.length_header, ?_⟩, ?_⟩
  · rw [p.length_payload, hsize]
  · dsimp only
    rw [hsize]
    omega

theorem MirrorPacket.ofFrame_header (p : MirrorPacket) (ks : ℕ → UInt8) (total : ℕ) :
    (MirrorFrame.ofFrame (p.header, p.payload ks total)).header = p.header :=
  if_pos p.length_header

theorem MirrorPacket.Sendable.ofFrame_payload (hp : p.Sendable) (ks : ℕ → UInt8) (total : ℕ) :
    (MirrorFrame.ofFrame (p.header, p.payload ks total)).payload = p.payload ks total := by
  have hlt := hp.size
  have hsize : (MirrorFrame.ofFrame (p.header, p.payload ks total)).payloadSize = p.plain.length := by
    rw [MirrorFrame.payloadSize, p.ofFrame_header, p.header_size hp.size, signed_eq (by omega)]
  rw [MirrorFrame.payload, hsize, Int.toNat_natCast, ← p.length_payload ks total]
  exact map_byteAt _

theorem MirrorPacket.ofFrame_payloadType (p : MirrorPacket) (ks : ℕ → UInt8) (total : ℕ) :
    (MirrorFrame.ofFrame (p.header, p.payload ks total)).payloadType = p.payloadType.toNat := by
  rw [MirrorFrame.payloadType, p.ofFrame_header, p.header_payloadType]

theorem MirrorPacket.Sendable.malloc_payload (hp : p.Sendable) (ks : ℕ → UInt8) (total : ℕ) :
    malloc (MirrorFrame.ofFrame (p.header, p.payload ks total)).content
      (MirrorFrame.ofFrame (p.header, p.payload ks total)).payloadSize =
        .ok (p.payload ks total) := by
  have hlt := hp.size
  rw [MirrorFrame.malloc_payload, hp.ofFrame_payload]
  rw [p.ofFrame_header, p.header_size hp.size]
  omega

/-- Encrypted units are decrypted and handed on behind start codes. -/
theorem processVideo_units {P : Openssl} {ks : ℕ → UInt8} {buffer : MirrorBuffer} {total : ℕ}
    (hs : Synced P ks buffer total) (garbage : ℕ → UInt8) (syncOffset : UInt64) (header : Bytes)
    {units : List Bytes} (hne : units ≠ []) (hunits : ∀ nalu ∈ units, 0 < nalu.length)
    (hsize : (lengthPrefixed units).length < 2 ^ 31)
    (hpend : pending total ≤ (lengthPrefixed units).length) :
    ∃ buffer', processVideo P garbage buffer syncOffset header
        (xorFrom ks total (lengthPrefixed units)) =
          .ok (buffer', ⟨annexB units, 1, videoTimestamp header syncOffset⟩) ∧
      Synced P ks buffer' (total + (lengthPrefixed units).length) := by
  have hlen : (xorFrom ks total (lengthPrefixed units)).length = (lengthPrefixed units).length :=
    length_xorFrom ..
  have hfive : 5 ≤ (lengthPrefixed units).length := by
    obtain ⟨nalu, rest, rfl⟩ := List.exists_cons_of_ne_nil hne
    have hpos := hunits nalu List.mem_cons_self
    simp only [lengthPrefixed, List.flatMap_cons, List.length_append]
    rw [show (nalPrefix nalu.length).length = 4 from rfl]
    omega
  obtain ⟨r, hr, hin, hout, hsync⟩ := mirrorBufferDecrypt_ok hs (xorFrom ks total (lengthPrefixed units))
    ((List.range (lengthPrefixed units).length).map garbage) (by rw [hlen]; exact hpend)
    (by rw [hlen]; simp)
  rw [xorFrom_xorFrom] at hout
  have hloop := nalLoop_lengthPrefixed hsize
  rw [hlen] at hr hin hsync
  refine ⟨r.mirrorBuffer, ?_, hsync⟩
  unfold processVideo
  rw [hlen, malloc_nat, ok_bind, hr, ok_bind, readByte_eq (n := 4) (by rfl) (by omega), ok_bind, hout,
    hloop]
  rfl

theorem longEnough_packet (total : ℕ) (p : MirrorPacket) :
    LongEnough total (videoLengths [p]) ↔
      ∀ units, p.content = .video units → pending total ≤ p.plain.length := by
  cases hcontent : p.content with
  | video units =>
    simp only [videoLengths, List.filterMap_cons, hcontent, List.filterMap_nil, LongEnough, and_true]
    exact ⟨fun h _ _ => h, fun h => h units rfl⟩
  | parameterSets record =>
    simp only [videoLengths, List.filterMap_cons, hcontent, List.filterMap_nil, LongEnough, true_iff]
    intro units hunits
    cases hunits
  | other payloadType payload =>
    simp only [videoLengths, List.filterMap_cons, hcontent, List.filterMap_nil, LongEnough, true_iff]
    intro units hunits
    cases hunits

/-- A packet that uses up the keystream bytes left over is delivered. -/
theorem processFrame_packet {P : Openssl} {ks : ℕ → UInt8} {buffer : MirrorBuffer} {total : ℕ}
    (hs : Synced P ks buffer total) (hp : p.Sendable) (garbage : ℕ → UInt8) (syncOffset : UInt64)
    (hlong : LongEnough total (videoLengths [p])) :
    ∃ buffer', processFrame P garbage buffer syncOffset
        (MirrorFrame.ofFrame (p.header, p.payload ks total)) =
          .ok (buffer', p.delivered syncOffset) ∧
      Synced P ks buffer' (total + p.videoLength) := by
  have htype := p.ofFrame_payloadType ks total
  have hheader := p.ofFrame_header ks total
  have hstamp := p.header_timestamp
  have hmalloc := hp.malloc_payload ks total
  unfold processFrame
  rw [hmalloc, ok_bind, htype, hheader]
  have hsize := hp.size
  cases hcontent : p.content with
  | video units =>
    obtain ⟨hne, hunits⟩ := hp.video units hcontent
    have hpend := (longEnough_packet total p).mp hlong units hcontent
    simp only [MirrorPacket.payloadType, MirrorPacket.payload, MirrorPacket.plain,
      MirrorPacket.videoLength, MirrorPacket.delivered, hcontent] at hsize hpend ⊢
    obtain ⟨buffer', hvideo, hsync⟩ := processVideo_units hs garbage syncOffset p.header hne hunits
      hsize hpend
    rw [if_pos (by decide), hvideo, ok_bind, videoTimestamp, hstamp]
    exact ⟨buffer', rfl, hsync⟩
  | parameterSets record =>
    have hpps := record.ppsSize_eq_iff.mpr (hp.parameterSets record hcontent)
    simp only [MirrorPacket.payloadType, MirrorPacket.payload, MirrorPacket.plain,
      MirrorPacket.videoLength, MirrorPacket.delivered, hcontent]
    rw [if_neg (by decide), if_pos (by decide), record.processSpsPps_bytes, hpps, List.take_length]
    exact ⟨buffer, rfl, hs⟩
  | other payloadType payload =>
    have hother := hp.other payloadType payload hcontent
    have hlt := payloadType.toNat_lt
    simp only [MirrorPacket.payloadType, MirrorPacket.payload, MirrorPacket.plain,
      MirrorPacket.videoLength, MirrorPacket.delivered, hcontent]
    have hmask : payloadType.toNat &&& 255 = payloadType.toNat :=
      (Nat.and_two_pow_sub_one_eq_mod payloadType.toNat 8).trans (Nat.mod_eq_of_lt hlt)
    rw [if_neg (by omega), hmask, if_neg (by omega)]
    exact ⟨buffer, rfl, hs⟩

theorem processFrame_packet_fault {P : Openssl} {ks : ℕ → UInt8} {buffer : MirrorBuffer} {total : ℕ}
    (hs : Synced P ks buffer total) (hp : p.Sendable) (garbage : ℕ → UInt8) (syncOffset : UInt64)
    (hshort : ¬ LongEnough total (videoLengths [p])) :
    Faults (processFrame P garbage buffer syncOffset
      (MirrorFrame.ofFrame (p.header, p.payload ks total))) := by
  by_contra hok
  have hframe := (processFrame_ok_iff hs garbage syncOffset _).mp (not_faults_iff.mp hok)
  refine hshort ((longEnough_packet total p).mpr fun units hcontent => ?_)
  have hzero : p.payloadType.toNat = 0 := by
    rw [MirrorPacket.payloadType, hcontent]
    rfl
  have hpend := (hframe.video ((p.ofFrame_payloadType ks total).trans hzero)).1
  rw [hp.ofFrame_payload, p.length_payload] at hpend
  exact hpend

end

/-! ## The packets of a connection -/

theorem length_sealPackets (ks : ℕ → UInt8) (total : ℕ) (packets : List MirrorPacket) :
    (sealPackets ks total packets).length = packets.length := by
  induction packets generalizing total with
  | nil => rfl
  | cons p packets ih => exact congrArg (· + 1) (ih _)

theorem longEnough_cons (total : ℕ) (p : MirrorPacket) (packets : List MirrorPacket) :
    LongEnough total (videoLengths (p :: packets)) ↔
      LongEnough total (videoLengths [p]) ∧
        LongEnough (total + p.videoLength) (videoLengths packets) := by
  cases hcontent : p.content with
  | video units =>
    simp only [videoLengths, List.filterMap_cons, hcontent, MirrorPacket.videoLength,
      List.filterMap_nil, LongEnough, and_true]
  | parameterSets record =>
    simp only [videoLengths, List.filterMap_cons, hcontent, MirrorPacket.videoLength,
      List.filterMap_nil, LongEnough, true_and, Nat.add_zero]
  | other payloadType payload =>
    simp only [videoLengths, List.filterMap_cons, hcontent, MirrorPacket.videoLength,
      List.filterMap_nil, LongEnough, true_and, Nat.add_zero]

/-- Every packet is delivered, or the decryption reads past the end of a payload. -/
theorem processFrames_packets {P : Openssl} {ks : ℕ → UInt8} (garbage : ℕ → ℕ → UInt8)
    (syncOffset : ℕ → UInt64) {packets : List MirrorPacket} (hsend : ∀ p ∈ packets, p.Sendable)
    {buffer : MirrorBuffer} {total : ℕ} (hs : Synced P ks buffer total)
    (out : List (Option H264DecodeStruct)) :
    processFrames P garbage syncOffset buffer
        ((sealPackets ks total packets).map MirrorFrame.ofFrame) = .ok out ↔
      LongEnough total (videoLengths packets) ∧ out = deliveries syncOffset packets := by
  induction packets generalizing buffer total out with
  | nil =>
    constructor
    · intro h
      cases h
      exact ⟨trivial, rfl⟩
    · rintro ⟨-, rfl⟩
      rfl
  | cons p packets ih =>
    have hp := hsend p List.mem_cons_self
    rw [sealPackets, List.map_cons, processFrames, List.length_map, length_sealPackets, longEnough_cons,
      deliveries]
    by_cases hlong : LongEnough total (videoLengths [p])
    · obtain ⟨buffer', hframe, hsync⟩ := processFrame_packet hs hp (garbage packets.length)
        (syncOffset packets.length) hlong
      rw [hframe, ok_bind]
      have hrest := fun out => ih (fun q hq => hsend q (List.mem_cons_of_mem _ hq)) hsync out
      constructor
      · intro h
        obtain ⟨rest, hok, h⟩ := bind_eq_ok.mp h
        cases h
        obtain ⟨hlongs, rfl⟩ := (hrest rest).mp hok
        exact ⟨⟨hlong, hlongs⟩, rfl⟩
      · rintro ⟨⟨-, hlongs⟩, rfl⟩
        rw [(hrest _).mpr ⟨hlongs, rfl⟩]
        rfl
    · have hfault := processFrame_packet_fault hs hp (garbage packets.length)
        (syncOffset packets.length) hlong
      constructor
      · intro h
        exact absurd ((hfault.bind _)) (not_faults_iff.mpr ⟨_, h⟩)
      · rintro ⟨⟨h, -⟩, -⟩
        exact absurd h hlong

/-! ## What arrived -/

theorem sentFrame_sealPackets {packets : List MirrorPacket} (hsend : ∀ p ∈ packets, p.Sendable)
    (ks : ℕ → UInt8) (total : ℕ) : ∀ f ∈ sealPackets ks total packets, SentFrame f := by
  induction packets generalizing total with
  | nil => exact fun _ hf => absurd hf List.not_mem_nil
  | cons p packets ih =>
    intro f hf
    rcases List.mem_cons.mp hf with rfl | hf
    · exact (hsend p List.mem_cons_self).sentFrame ks total
    · exact ih (fun q hq => hsend q (List.mem_cons_of_mem _ hq)) _ f hf

/-- Frames at the front are those of the packets at the front. -/
theorem sealPackets_eq_append {ks : ℕ → UInt8} {total : ℕ} {packets : List MirrorPacket}
    {done later : List Frame} (h : sealPackets ks total packets = done ++ later) :
    ∃ arrived rest, packets = arrived ++ rest ∧ done = sealPackets ks total arrived := by
  induction done generalizing total packets with
  | nil => exact ⟨[], packets, rfl, rfl⟩
  | cons f done ih =>
    cases packets with
    | nil => cases h
    | cons p packets =>
      rw [sealPackets, List.cons_append] at h
      obtain ⟨hhead, htail⟩ := List.cons.inj h
      obtain ⟨arrived, rest, rfl, rfl⟩ := ih htail
      exact ⟨p :: arrived, rest, rfl, by rw [← hhead]; rfl⟩

/-- However the stream of sendable packets arrives on a connection, the frames that the thread takes
from it are those of the packets that are complete, and these packets are delivered: each access unit
behind start codes and with its time, each pair of parameter sets, nothing else, in the order in
which they were sent. It fails exactly where a payload is shorter than what the decryption owes. -/
theorem mirrorStream_delivered (P : Openssl) (garbage : ℕ → ℕ → UInt8) (memory : ℕ → UInt8)
    (syncOffset : ℕ → UInt64) (aeskey ecdhSecret : Bytes) (streamConnectionID : UInt64)
    {packets : List MirrorPacket} (hsend : ∀ p ∈ packets, p.Sendable) {calls : List MirrorCall}
    {t : MirrorThread} (hrun : run (mirrorStep memory) mirrorThreadInit calls = some t)
    {received rest : Bytes} (hconnection : connections calls = [received]) :
    let buffer := mirrorBufferInitAes P (mirrorBufferInit aeskey ecdhSecret) streamConnectionID
    let ks := buffer.keystream P
    let frames := events (mirrorStep memory) mirrorThreadInit calls
    received ++ rest = encode (sealPackets ks 0 packets) →
    ∃ arrived, arrived <+: packets ∧ frames = sealPackets ks 0 arrived ∧
      (∀ first, first <+: packets → encode (sealPackets ks 0 first) <+: received →
        first <+: arrived) ∧
      ∀ out, processFrames P garbage syncOffset buffer (frames.map MirrorFrame.ofFrame) = .ok out ↔
        LongEnough 0 (videoLengths arrived) ∧ out = deliveries syncOffset arrived := by
  intro buffer ks frames hstream
  have hreading : Reading calls frames t :=
    invariant_history (I := Reading) (fun _ _ _ _ _ h hr => reading_step h hr) reading_init hrun
  obtain ⟨done, hdone, hcurrent, hframes⟩ := hreading.frames
  rw [hconnection, List.headD_cons] at hcurrent
  rw [hconnection, List.tail_cons, List.reverse_nil, List.flatMap_nil, List.nil_append] at hframes
  have hwf : ∀ packets' : List MirrorPacket, (∀ p ∈ packets', p.Sendable) →
      ∀ f ∈ sealPackets ks 0 packets', WellFormed 128 announced f :=
    fun packets' h f hf => (sentFrame_sealPackets h ks 0 f hf).wellFormed
  have hsplit : encode done ++ (partialFrame t ++ rest) = encode (sealPackets ks 0 packets) := by
    rw [← hstream, hcurrent, List.append_assoc]
  obtain ⟨later, hlater, -⟩ := encode_append_eq (by decide) hdone (hwf packets hsend) hsplit
  obtain ⟨arrived, remaining, rfl, rfl⟩ := sealPackets_eq_append hlater
  have hsendArrived : ∀ p ∈ arrived, p.Sendable := fun p hp => hsend p (List.mem_append_left _ hp)
  refine ⟨arrived, List.prefix_append _ _, hframes, fun first hfirst hreceived => ?_, fun out => ?_⟩
  · -- the frames of `first` are complete, so they are among those that were read
    obtain ⟨tail, rfl⟩ := hreceived
    have hsendFirst : ∀ p ∈ first, p.Sendable := fun p hp => hsend p (hfirst.subset hp)
    have hparse : sealPackets ks 0 arrived = sealPackets ks 0 first ++ parseStream tail := by
      have hread := congrArg parseStream hcurrent
      rw [parseStream, parseStream, parse_encode_append (by decide) (hwf first hsendFirst),
        parse_encode_append (by decide) hdone] at hread
      change _ = _ ++ parseStream (partialFrame t) at hread
      rw [parse_partialFrame hreading.inFrame, List.append_nil] at hread
      exact hread.symm
    have hlength := congrArg List.length hparse
    rw [List.length_append, length_sealPackets, length_sealPackets] at hlength
    exact List.prefix_of_prefix_length_le hfirst (List.prefix_append _ _) (by omega)
  · rw [hframes]
    exact processFrames_packets garbage syncOffset hsendArrived (synced_init P _ streamConnectionID rfl)
      out

/-- A packet stamped one second. -/
def stampedPacket (content : PacketContent) : MirrorPacket where
  content := content
  flags := fun _ => 0
  timestamp := 0x100000000
  rest := List.replicate 112 0
  rest_length := by simp

/-- Parameter sets, an access unit of two NAL units, a packet of another type, and one NAL unit. -/
def fourPackets : List MirrorPacket :=
  [stampedPacket (.parameterSets smallRecord),
    stampedPacket (.video [[0x65, 0x88], [0x41, 0x9a, 0x01]]),
    stampedPacket (.other 2 [7]),
    stampedPacket (.video [[0x41]])]

theorem fourPackets_sendable : ∀ p ∈ fourPackets, p.Sendable := by
  intro p hp
  simp only [fourPackets, List.mem_cons, List.not_mem_nil, or_false] at hp
  rcases hp with rfl | rfl | rfl | rfl
  all_goals
    exact ⟨by decide, by simp [stampedPacket], by simp [stampedPacket, smallRecord],
      by simp [stampedPacket]⟩

/-- A packet without encryption, in three pieces with a timeout within the header. -/
def packetCalls (p : MirrorPacket) : List MirrorCall :=
  [.readable, .recv (.data (p.header.take 100)), .recv .again, .readable,
    .recv (.data (p.header.drop 100)), .recv (.data p.plain)]

/-- The keystream is zero; the second access unit begins with the three bytes that the decryption
still owes. -/
theorem mirrorStream_delivered_four :
    processFrames default (fun _ _ => 0) (fun _ => 0)
        (mirrorBufferInitAes default (mirrorBufferInit [] []) 0)
        ((events (mirrorStep fun _ => 0) mirrorThreadInit
          (.accepted :: fourPackets.flatMap packetCalls)).map MirrorFrame.ofFrame) =
      .ok [some ⟨[0, 0, 0, 1, 0x67, 0x42, 0x1e, 0, 0, 0, 1, 0x68, 0xce], 0, 0⟩,
        some ⟨[0, 0, 0, 1, 0x65, 0x88, 0, 0, 0, 1, 0x41, 0x9a, 0x01], 1, 1000000⟩, none,
        some ⟨[0, 0, 0, 1, 0x41], 1, 1000000⟩] := by
  obtain ⟨t, hrun⟩ := Option.isSome_iff_exists.mp
    (show (run (mirrorStep fun _ => 0) mirrorThreadInit
      (.accepted :: fourPackets.flatMap packetCalls)).isSome = true by decide +kernel)
  have hconnection : connections (.accepted :: fourPackets.flatMap packetCalls) =
      [fourPackets.flatMap fun p => p.header ++ p.plain] := by decide +kernel
  have hstream : (fourPackets.flatMap fun p => p.header ++ p.plain) ++ [] =
      encode (sealPackets ((mirrorBufferInitAes default (mirrorBufferInit [] []) 0).keystream default)
        0 fourPackets) := by decide +kernel
  obtain ⟨arrived, hsofar, -, hcomplete, hout⟩ := mirrorStream_delivered default (fun _ _ => 0)
    (fun _ => 0) (fun _ => 0) [] [] 0 fourPackets_sendable hrun hconnection hstream
  have hall := hcomplete fourPackets (List.prefix_refl _)
    (by rw [← hstream]; simp)
  obtain rfl : arrived = fourPackets := hsofar.eq_of_length_le hall.length_le
  have hlengths : videoLengths fourPackets = [13, 5] := by decide
  refine (hout _).mpr ⟨?_, rfl⟩
  rw [hlengths]
  exact ⟨by decide, by decide, trivial⟩

end WinAirPlay
