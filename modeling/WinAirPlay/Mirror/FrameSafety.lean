import WinAirPlay.Mirror.Frame

/-! # Which mirror frames are processed safely

`FrameOk` is the condition on a frame: a payload size that is not negative; for video data at
least five bytes, no fewer than the decryption still owes, and a plaintext whose NAL headers all lie
within it (`NalHeaders`); for SPS/PPS the two parameter sets within the payload. A connection is processed
without a fault exactly when each of its frames meets the condition.
-/

namespace WinAirPlay
open Foundations.ByteBuffer Foundations.KeyStream Foundations.CheckedMemory
set_option autoImplicit false

/-! ## The two parameter sets -/

def spsSize (payload : Bytes) : ℕ :=
  (byteAt payload 6).toNat * 2 ^ 8 + (byteAt payload 7).toNat

/-- The low byte of the two bytes after the number of picture parameter sets. -/
def ppsSize (payload : Bytes) : ℕ :=
  (((byteAt payload (spsSize payload + 9)).toNat &&& 2040) +
    (byteAt payload (spsSize payload + 10)).toNat) &&& 255

/-- The size of the first set has no sign bit, and both sets end within the payload. -/
def ParameterSetsFit (payload : Bytes) : Prop :=
  2 * spsSize payload < 2 ^ 16 ∧ spsSize payload + 11 + ppsSize payload ≤ payload.length

theorem spsSize_lt (payload : Bytes) : spsSize payload < 2 ^ 16 := by
  have h6 := (byteAt payload 6).toNat_lt
  have h7 := (byteAt payload 7).toNat_lt
  unfold spsSize
  omega

theorem ppsSize_lt (payload : Bytes) : ppsSize payload < 256 := by
  unfold ppsSize
  exact Nat.lt_succ_of_le Nat.and_le_right

theorem readCodec_ok (garbage : ℕ → UInt8) {payload : Bytes} (h : ParameterSetsFit payload) :
    ∃ h264, readCodec garbage payload = .ok h264 ∧ h264.spsSize = spsSize payload ∧
      h264.sequenceParameterSet = slice payload 8 (spsSize payload) ∧
      h264.ppsSize = ppsSize payload ∧
      h264.pictureParameterSet = slice payload (spsSize payload + 11) (ppsSize payload) := by
  obtain ⟨hsign, hfit⟩ := h
  have hpps := ppsSize_lt payload
  have hsps : writeRange ((List.range (spsSize payload)).map garbage) 0
      (slice payload 8 (spsSize payload)) = .ok (slice payload 8 (spsSize payload)) :=
    writeRange_full (by rw [length_slice (by omega)]; simp)
  have hpps' : writeRange ((List.range (ppsSize payload)).map garbage) 0
      (slice payload (spsSize payload + 11) (ppsSize payload)) =
        .ok (slice payload (spsSize payload + 11) (ppsSize payload)) :=
    writeRange_full (by rw [length_slice (by omega)]; simp)
  unfold readCodec
  rw [readByte_eq (n := 0) (by rfl) (by omega), ok_bind, readByte_eq (n := 1) (by rfl) (by omega), ok_bind,
    readByte_eq (n := 2) (by rfl) (by omega), ok_bind, readByte_eq (n := 3) (by rfl) (by omega), ok_bind,
    readByte_eq (n := 4) (by rfl) (by omega), ok_bind, readByte_eq (n := 5) (by rfl) (by omega), ok_bind,
    readByte_eq (n := 6) (by rfl) (by omega), ok_bind, readByte_eq (n := 7) (by rfl) (by omega), ok_bind]
  have hsize : signed 16 ((byteAt payload 6).toNat * 2 ^ 8 + (byteAt payload 7).toNat) =
      spsSize payload := signed_eq hsign
  dsimp only
  rw [hsize, malloc_nat, ok_bind, readRange_eq (o := 8) (by rfl) (by rfl) (by omega), ok_bind, hsps, ok_bind,
    readByte_eq (n := spsSize payload + 8) (by simp) (by omega), ok_bind,
    readByte_eq (n := spsSize payload + 9) (by simp) (by omega), ok_bind,
    readByte_eq (n := spsSize payload + 10) (by simp) (by omega), ok_bind]
  have hsize' : signed 16 ((((byteAt payload (spsSize payload + 9)).toNat &&& 2040) +
      (byteAt payload (spsSize payload + 10)).toNat) &&& 255) = ppsSize payload :=
    signed_eq (by change 2 * ppsSize payload < _; omega)
  rw [hsize', malloc_nat, ok_bind, readRange_eq (o := spsSize payload + 11) (by simp) (by rfl) (by omega),
    ok_bind, hpps', ok_bind]
  exact ⟨_, rfl, rfl, rfl, rfl, rfl⟩

theorem readCodec_fault (garbage : ℕ → UInt8) {payload : Bytes} (h : ¬ ParameterSetsFit payload) :
    Faults (readCodec garbage payload) := by
  unfold readCodec
  by_cases h8 : 8 ≤ payload.length
  · rw [readByte_eq (n := 0) (by rfl) (by omega), ok_bind, readByte_eq (n := 1) (by rfl) (by omega), ok_bind,
      readByte_eq (n := 2) (by rfl) (by omega), ok_bind, readByte_eq (n := 3) (by rfl) (by omega), ok_bind,
      readByte_eq (n := 4) (by rfl) (by omega), ok_bind, readByte_eq (n := 5) (by rfl) (by omega), ok_bind,
      readByte_eq (n := 6) (by rfl) (by omega), ok_bind, readByte_eq (n := 7) (by rfl) (by omega), ok_bind]
    by_cases hsign : 2 * spsSize payload < 2 ^ 16
    · have hsize : signed 16 ((byteAt payload 6).toNat * 2 ^ 8 + (byteAt payload 7).toNat) =
          spsSize payload := signed_eq hsign
      dsimp only
      rw [hsize, malloc_nat, ok_bind]
      refine faults_bind fun _ => faults_bind fun _ => faults_bind fun _ => ?_
      by_cases h10 : spsSize payload + 10 < payload.length
      · -- the second size is read, and its set does not fit
        rw [readByte_eq (n := spsSize payload + 9) (by simp) (by omega), ok_bind,
          readByte_eq (n := spsSize payload + 10) (by simp) (by omega), ok_bind]
        have hpps := ppsSize_lt payload
        have hsize' : signed 16 ((((byteAt payload (spsSize payload + 9)).toNat &&& 2040) +
            (byteAt payload (spsSize payload + 10)).toNat) &&& 255) = ppsSize payload :=
          signed_eq (by change 2 * ppsSize payload < _; omega)
        rw [hsize', malloc_nat, ok_bind]
        refine Faults.bind (readRange_fault ?_) _
        have hshort : payload.length < spsSize payload + 11 + ppsSize payload := by
          by_contra hfit
          exact h ⟨hsign, by omega⟩
        omega
      · refine faults_bind fun _ => Faults.bind (readByte_fault (Or.inr ?_)) _
        omega
    · exact (malloc_signed_fault garbage (spsSize_lt payload) hsign).bind _
  · -- one of the first eight bytes is missing
    refine faults_bind fun _ => faults_bind fun _ => faults_bind fun _ => faults_bind fun _ =>
      faults_bind fun _ => faults_bind fun _ => faults_bind fun _ => ?_
    exact (readByte_fault (Or.inr (by omega))).bind _

/-- Each of the two sets behind a start code. -/
theorem spsPps_eq (garbage : ℕ → UInt8) {h264 : H264Codec} {sps pps : Bytes}
    (hs : h264.spsSize = sps.length) (hsps : h264.sequenceParameterSet = sps)
    (hp : h264.ppsSize = pps.length) (hpps : h264.pictureParameterSet = pps) :
    spsPps garbage h264 = .ok (startCode ++ sps ++ (startCode ++ pps)) := by
  have hreads : slice sps 0 sps.length = sps ∧ slice pps 0 pps.length = pps := by simp [slice]
  unfold spsPps
  rw [hs, hp, hsps, hpps,
    show (sps.length : ℤ) + pps.length + 8 = ((sps.length + pps.length + 8 : ℕ) : ℤ) by
      push_cast; rfl, malloc_nat, ok_bind, @readRange_eq sps 0 sps.length 0 _ rfl rfl (by omega),
    @readRange_eq pps 0 pps.length 0 _ rfl rfl (by omega), hreads.1, hreads.2]
  generalize hb : (List.range (sps.length + pps.length + 8)).map garbage = b
  have hlen : b.length = sps.length + pps.length + 8 := by
    rw [← hb]
    simp
  obtain ⟨b0, h0, hdone, hlen0⟩ := @writeByte_append b [] 0 List.nil_prefix rfl (by simp; omega) 0
  obtain ⟨b1, h1, hdone, hlen1⟩ := @writeByte_append b0 _ 1 hdone rfl (by simp; omega) 0
  obtain ⟨b2, h2, hdone, hlen2⟩ := @writeByte_append b1 _ 2 hdone rfl (by simp; omega) 0
  obtain ⟨b3, h3, hdone, hlen3⟩ := @writeByte_append b2 _ 3 hdone rfl (by simp; omega) 1
  obtain ⟨b4, h4, hdone, hlen4⟩ := @writeRange_append b3 _ sps 4 hdone rfl (by simp; omega)
  obtain ⟨b5, h5, hdone, hlen5⟩ := @writeByte_append b4 _ (sps.length + 4) hdone
    (by simp; omega) (by simp; omega) 0
  obtain ⟨b6, h6, hdone, hlen6⟩ := @writeByte_append b5 _ (sps.length + 5) hdone
    (by simp; omega) (by simp; omega) 0
  obtain ⟨b7, h7, hdone, hlen7⟩ := @writeByte_append b6 _ (sps.length + 6) hdone
    (by simp; omega) (by simp; omega) 0
  obtain ⟨b8, h8, hdone, hlen8⟩ := @writeByte_append b7 _ (sps.length + 7) hdone
    (by simp; omega) (by simp; omega) 1
  obtain ⟨b9, h9, hdone, hlen9⟩ := @writeRange_append b8 _ pps (sps.length + 8) hdone
    (by simp; omega) (by simp; omega)
  rw [h0, ok_bind, h1, ok_bind, h2, ok_bind, h3, ok_bind, ok_bind, h4, ok_bind, h5, ok_bind, h6,
    ok_bind, h7, ok_bind, h8, ok_bind, ok_bind, h9]
  -- what is written fills the block
  have hall := hdone.eq_of_length (by simp; omega)
  rw [← hall]
  simp [startCode]

/-- What is handed to the decoder for a payload whose sets fit. -/
theorem processSpsPps_eq (garbage : ℕ → UInt8) {payload : Bytes} (h : ParameterSetsFit payload) :
    processSpsPps garbage payload =
      .ok (some ⟨startCode ++ slice payload 8 (spsSize payload) ++
        (startCode ++ slice payload (spsSize payload + 11) (ppsSize payload)), 0, 0⟩) := by
  obtain ⟨h264, hcodec, hs, hsps, hp, hpps⟩ := readCodec_ok garbage h
  obtain ⟨hsign, hfit⟩ := h
  have hppsLt := ppsSize_lt payload
  have hspsLen : (slice payload 8 (spsSize payload)).length = spsSize payload :=
    length_slice (by omega)
  have hppsLen : (slice payload (spsSize payload + 11) (ppsSize payload)).length = ppsSize payload :=
    length_slice (by omega)
  rw [processSpsPps, hcodec, ok_bind, if_pos (by omega),
    spsPps_eq garbage (by rw [hspsLen, hs]) hsps (by rw [hppsLen, hp]) hpps]
  rfl

theorem processSpsPps_ok_iff (garbage : ℕ → UInt8) (payload : Bytes) :
    (∃ r, processSpsPps garbage payload = .ok r) ↔ ParameterSetsFit payload := by
  constructor
  · intro h
    by_contra hfit
    exact not_faults_iff.mpr h ((readCodec_fault garbage hfit).bind _)
  · exact fun h => ⟨_, processSpsPps_eq garbage h⟩

/-! ## A frame -/

/-- The condition on a frame that follows `total` bytes of video data. -/
structure FrameOk (ks : ℕ → UInt8) (total : ℕ) (f : MirrorFrame) : Prop where
  size : 2 * byteutilsGetInt f.header 0 < 2 ^ 32
  video : f.payloadType = 0 → pending total ≤ f.payload.length ∧ 5 ≤ f.payload.length ∧
    NalHeaders (xorFrom ks total f.payload) [] 0
  spsPps : f.payloadType = 1 → ParameterSetsFit f.payload

/-- The bytes of video data up to the end of the frame. -/
def videoTotal (total : ℕ) (f : MirrorFrame) : ℕ :=
  if f.payloadType = 0 then total + f.payload.length else total

theorem processVideo_ok_iff {P : Openssl} {ks : ℕ → UInt8} {buffer : MirrorBuffer} {total : ℕ}
    (hs : Synced P ks buffer total) (garbage : ℕ → UInt8) (syncOffset : UInt64)
    (header payload : Bytes) :
    (∃ r, processVideo P garbage buffer syncOffset header payload = .ok r) ↔
      pending total ≤ payload.length ∧ 5 ≤ payload.length ∧
        NalHeaders (xorFrom ks total payload) [] 0 := by
  unfold processVideo
  rw [malloc_nat, ok_bind]
  by_cases hpend : pending total ≤ payload.length
  · obtain ⟨r, hr, hin, hout, -⟩ := mirrorBufferDecrypt_ok hs payload
      ((List.range payload.length).map garbage) hpend (by simp)
    have hlen : r.output.length = payload.length := by rw [hout, length_xorFrom]
    rw [hr, ok_bind]
    by_cases hfive : 5 ≤ payload.length
    · rw [readByte_eq (n := 4) (by rfl) (by omega), ok_bind]
      have hwalk := nalLoop_ok_iff (overwritten_nil (xorFrom ks total payload)) 0 0
      rw [length_xorFrom] at hwalk
      constructor
      · rintro ⟨_, h⟩
        obtain ⟨data, hdata, -⟩ := bind_eq_ok.mp h
        rw [hout] at hdata
        exact ⟨hpend, hfive, hwalk.mp ⟨data, hdata⟩⟩
      · rintro ⟨-, -, h⟩
        obtain ⟨data, hdata⟩ := hwalk.mpr h
        rw [hout, hdata]
        exact ⟨_, rfl⟩
    · have hfault : Faults (readByte r.input 4) := readByte_fault (Or.inr (by omega))
      constructor
      · intro h
        exact absurd (hfault.bind _) (not_faults_iff.mpr h)
      · intro h
        exact absurd h.2.1 hfive
  · constructor
    · intro h
      exact absurd ((mirrorBufferDecrypt_fault hs (by omega) _).bind _) (not_faults_iff.mpr h)
    · intro h
      exact absurd h.1 hpend

theorem processVideo_synced {P : Openssl} {ks : ℕ → UInt8} {buffer : MirrorBuffer} {total : ℕ}
    (hs : Synced P ks buffer total) {garbage : ℕ → UInt8} {syncOffset : UInt64}
    {header payload : Bytes} {r : MirrorBuffer × H264DecodeStruct}
    (h : processVideo P garbage buffer syncOffset header payload = .ok r) :
    Synced P ks r.1 (total + payload.length) := by
  have hpend := ((processVideo_ok_iff hs garbage syncOffset header payload).mp ⟨r, h⟩).1
  obtain ⟨d, hd, -, -, hsync⟩ := mirrorBufferDecrypt_ok hs payload
    ((List.range payload.length).map garbage) hpend (by simp)
  unfold processVideo at h
  rw [malloc_nat, ok_bind, hd, ok_bind] at h
  obtain ⟨_, -, h⟩ := bind_eq_ok.mp h
  obtain ⟨_, -, h⟩ := bind_eq_ok.mp h
  cases h
  exact hsync

theorem MirrorFrame.malloc_payload {f : MirrorFrame} (h : 2 * byteutilsGetInt f.header 0 < 2 ^ 32) :
    malloc f.content f.payloadSize = .ok f.payload := by
  have hsize : f.payloadSize = byteutilsGetInt f.header 0 := signed_eq h
  rw [MirrorFrame.payload, hsize, malloc_nat]
  rfl

/-- A frame is processed without a fault exactly under `FrameOk`. -/
theorem processFrame_ok_iff {P : Openssl} {ks : ℕ → UInt8} {buffer : MirrorBuffer} {total : ℕ}
    (hs : Synced P ks buffer total) (garbage : ℕ → UInt8) (syncOffset : UInt64) (f : MirrorFrame) :
    (∃ r, processFrame P garbage buffer syncOffset f = .ok r) ↔ FrameOk ks total f := by
  unfold processFrame
  by_cases hsize : 2 * byteutilsGetInt f.header 0 < 2 ^ 32
  · rw [MirrorFrame.malloc_payload hsize, ok_bind]
    by_cases h0 : f.payloadType = 0
    · rw [if_pos h0]
      have hvideo := processVideo_ok_iff hs garbage syncOffset f.header f.payload
      constructor
      · rintro ⟨_, h⟩
        obtain ⟨r, hr, -⟩ := bind_eq_ok.mp h
        exact ⟨hsize, fun _ => hvideo.mp ⟨r, hr⟩, fun h1 => absurd (h0.symm.trans h1) (by decide)⟩
      · intro h
        obtain ⟨r, hr⟩ := hvideo.mpr (h.video h0)
        rw [hr]
        exact ⟨_, rfl⟩
    · rw [if_neg h0]
      have hlt : f.payloadType &&& 255 = f.payloadType := by
        rw [MirrorFrame.payloadType, Nat.and_assoc]
        rfl
      rw [hlt]
      by_cases h1 : f.payloadType = 1
      · rw [if_pos h1]
        have hfit := processSpsPps_ok_iff garbage f.payload
        constructor
        · rintro ⟨_, h⟩
          obtain ⟨r, hr, -⟩ := bind_eq_ok.mp h
          exact ⟨hsize, fun h => absurd h h0, fun _ => hfit.mp ⟨r, hr⟩⟩
        · intro h
          obtain ⟨r, hr⟩ := hfit.mpr (h.spsPps h1)
          rw [hr]
          exact ⟨_, rfl⟩
      · rw [if_neg h1]
        exact ⟨fun _ => ⟨hsize, fun h => absurd h h0, fun h => absurd h h1⟩, fun _ => ⟨_, rfl⟩⟩
  · constructor
    · intro h
      have hfault := malloc_signed_fault f.content (byteutilsGetInt_lt f.header 0) hsize
      exact absurd (hfault.bind _) (not_faults_iff.mpr h)
    · intro h
      exact absurd h.size hsize

theorem processFrame_synced {P : Openssl} {ks : ℕ → UInt8} {buffer : MirrorBuffer} {total : ℕ}
    (hs : Synced P ks buffer total) {garbage : ℕ → UInt8} {syncOffset : UInt64} {f : MirrorFrame}
    {r : MirrorBuffer × Option H264DecodeStruct}
    (h : processFrame P garbage buffer syncOffset f = .ok r) :
    Synced P ks r.1 (videoTotal total f) := by
  have hok := (processFrame_ok_iff hs garbage syncOffset f).mp ⟨r, h⟩
  unfold processFrame at h
  rw [MirrorFrame.malloc_payload hok.size, ok_bind] at h
  unfold videoTotal
  by_cases h0 : f.payloadType = 0
  · rw [if_pos h0] at h ⊢
    obtain ⟨v, hv, h⟩ := bind_eq_ok.mp h
    cases h
    exact processVideo_synced hs hv
  · rw [if_neg h0] at h ⊢
    by_cases h1 : f.payloadType &&& 255 = 1
    · rw [if_pos h1] at h
      obtain ⟨v, -, h⟩ := bind_eq_ok.mp h
      cases h
      exact hs
    · rw [if_neg h1] at h
      cases h
      exact hs

/-! ## A connection -/

/-- The frames of a connection, one after the other; what the memory holds when a block is
allocated, and the clock offset, may differ from frame to frame. -/
def processFrames (P : Openssl) (garbage : ℕ → ℕ → UInt8) (syncOffset : ℕ → UInt64) :
    MirrorBuffer → List MirrorFrame → Checked (List (Option H264DecodeStruct))
  | _, [] => .ok []
  | buffer, f :: frames => do
    let r ← processFrame P (garbage frames.length) buffer (syncOffset frames.length) f
    let out ← processFrames P garbage syncOffset r.1 frames
    .ok (r.2 :: out)

def FramesOk (ks : ℕ → UInt8) : ℕ → List MirrorFrame → Prop
  | _, [] => True
  | total, f :: frames => FrameOk ks total f ∧ FramesOk ks (videoTotal total f) frames

theorem processFrames_ok_iff {P : Openssl} {ks : ℕ → UInt8} (garbage : ℕ → ℕ → UInt8)
    (syncOffset : ℕ → UInt64) {frames : List MirrorFrame} {buffer : MirrorBuffer} {total : ℕ}
    (hs : Synced P ks buffer total) :
    (∃ out, processFrames P garbage syncOffset buffer frames = .ok out) ↔
      FramesOk ks total frames := by
  induction frames generalizing buffer total with
  | nil => exact ⟨fun _ => trivial, fun _ => ⟨_, rfl⟩⟩
  | cons f frames ih =>
    rw [processFrames, FramesOk,
      ← processFrame_ok_iff hs (garbage frames.length) (syncOffset frames.length) f]
    constructor
    · rintro ⟨_, h⟩
      obtain ⟨r, hr, h⟩ := bind_eq_ok.mp h
      obtain ⟨out, hout, -⟩ := bind_eq_ok.mp h
      exact ⟨⟨r, hr⟩, (ih (processFrame_synced hs hr)).mp ⟨out, hout⟩⟩
    · rintro ⟨⟨r, hr⟩, htail⟩
      obtain ⟨out, hout⟩ := (ih (processFrame_synced hs hr)).mpr htail
      rw [hr, ok_bind, hout]
      exact ⟨_, rfl⟩

/-- A connection runs without a bad access, a negative size or an overflow exactly when each of
its frames meets the condition. -/
theorem mirrorFrames_safe_iff (P : Openssl) (garbage : ℕ → ℕ → UInt8) (syncOffset : ℕ → UInt64)
    (aeskey ecdhSecret : Bytes) (streamConnectionID : UInt64) (frames : List MirrorFrame) :
    let buffer := mirrorBufferInitAes P (mirrorBufferInit aeskey ecdhSecret) streamConnectionID
    (∃ out, processFrames P garbage syncOffset buffer frames = .ok out) ↔
      FramesOk (buffer.keystream P) 0 frames := by
  intro buffer
  exact processFrames_ok_iff garbage syncOffset (synced_init P _ streamConnectionID rfl)

/-- Video data of five bytes: an empty NAL unit, and one byte where the next header should be. -/
def truncatedFrame : MirrorFrame where
  header := 5 :: List.replicate 127 0
  content := fun i => if i = 4 then 0x41 else 0
  header_length := by simp

theorem mirrorFrames_truncated :
    ¬ ∀ (P : Openssl) (garbage : ℕ → ℕ → UInt8) (syncOffset : ℕ → UInt64)
      (aeskey ecdhSecret : Bytes) (streamConnectionID : UInt64) (frames : List MirrorFrame),
      ∃ out, processFrames P garbage syncOffset
        (mirrorBufferInitAes P (mirrorBufferInit aeskey ecdhSecret) streamConnectionID) frames =
          .ok out := by
  intro h
  have hs := synced_init default (mirrorBufferInit [] []) 0 rfl
  have hok := (processFrames_ok_iff (fun _ _ => 0) (fun _ => 0) hs).mp
    (h default (fun _ _ => 0) (fun _ => 0) [] [] 0 [truncatedFrame])
  obtain ⟨-, -, hheaders⟩ := hok.1.video (by decide)
  have hpayload : truncatedFrame.payload = [0, 0, 0, 0, 0x41] := by decide
  rw [hpayload] at hheaders
  have hplain : xorFrom ((mirrorBufferInitAes default (mirrorBufferInit [] []) 0).keystream default)
      0 [0, 0, 0, 0, 0x41] = [0, 0, 0, 0, 0x41] := by rfl
  rw [hplain] at hheaders
  -- the first length leads to the last byte, which begins no header
  obtain ⟨pos, hpos, -, -, hnext⟩ := (nalHeaders_iff (by decide)).mp hheaders
  obtain rfl : pos = 0 := by omega
  obtain ⟨pos, hpos, room, -, -⟩ := (nalHeaders_iff (by decide)).mp hnext
  have hfour : headerLength [0, 0, 0, 0, 0x41] [] 0 = 0 := by decide
  rw [hfour] at hpos
  simp only [List.length_cons, List.length_nil] at room
  omega

end WinAirPlay
