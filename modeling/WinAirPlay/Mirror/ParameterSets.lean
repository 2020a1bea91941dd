import WinAirPlay.Mirror.AnnexB

/-! # Parameter sets

An SPS/PPS payload is an AVC decoder configuration record: six bytes, the sequence parameter set
behind its 16-bit length, the number of picture parameter sets, and the one set behind its length.
The thread reads the length of the second set as its low byte, so it hands on no more than 255
bytes of it.
-/

namespace WinAirPlay
open Foundations.ByteBuffer Foundations.KeyStream Foundations.CheckedMemory
set_option autoImplicit false

/-- A record with one set of each kind; what may follow the sets is `extension`. -/
structure AvcRecord where
  profile : UInt8
  compatibility : UInt8
  level : UInt8
  lengthSizeMinusOne : Fin 4
  sps : Bytes
  pps : Bytes
  extension : Bytes
  sps_lt : sps.length < 2 ^ 15
  pps_lt : pps.length < 2 ^ 16

/-- A 16-bit length in network order. -/
def shortPrefix (n : ℕ) : Bytes := [UInt8.ofNat (n / 2 ^ 8), UInt8.ofNat n]

namespace AvcRecord

/-- Version 1; the reserved bits are set, and each kind of set is counted once. -/
def head (r : AvcRecord) : Bytes :=
  [1, r.profile, r.compatibility, r.level, 0xfc ||| UInt8.ofNat r.lengthSizeMinusOne, 0xe1]

def bytes (r : AvcRecord) : Bytes :=
  r.head ++ shortPrefix r.sps.length ++ r.sps ++ [1] ++ shortPrefix r.pps.length ++ r.pps ++
    r.extension

variable (r : AvcRecord)

theorem length_bytes :
    r.bytes.length = r.sps.length + r.pps.length + r.extension.length + 11 := by
  simp only [bytes, head, shortPrefix, List.length_append, List.length_cons, List.length_nil]
  omega

theorem drop_bytes :
    r.bytes.drop (r.sps.length + 8) =
      1 :: (shortPrefix r.pps.length ++ (r.pps ++ r.extension)) := by
  have hlen : (r.head ++ shortPrefix r.sps.length ++ r.sps).length = r.sps.length + 8 := by
    simp only [head, shortPrefix, List.length_append, List.length_cons, List.length_nil]
    omega
  simp only [bytes, List.append_assoc] at hlen ⊢
  rw [← List.append_assoc, ← List.append_assoc, List.drop_left' (by simpa using hlen)]
  rfl

theorem spsSize_bytes : spsSize r.bytes = r.sps.length := by
  have hsps := r.sps_lt
  show (UInt8.ofNat (r.sps.length / 2 ^ 8)).toNat * 2 ^ 8 + (UInt8.ofNat r.sps.length).toNat = _
  rw [UInt8.toNat_ofNat', UInt8.toNat_ofNat']
  omega

/-- The high byte of the second length is masked away again. -/
theorem ppsSize_bytes :
    ppsSize r.bytes =
      ((r.pps.length / 2 ^ 8 &&& 2040) + r.pps.length % 2 ^ 8) &&& 255 := by
  have hpps := r.pps_lt
  have h9 := byteAt_of_drop r.drop_bytes 1
  have h10 := byteAt_of_drop r.drop_bytes 2
  rw [ppsSize, r.spsSize_bytes, h9, h10]
  show ((UInt8.ofNat (r.pps.length / 2 ^ 8)).toNat &&& 2040) +
    (UInt8.ofNat r.pps.length).toNat &&& 255 = _
  rw [UInt8.toNat_ofNat', UInt8.toNat_ofNat', Nat.mod_eq_of_lt (a := r.pps.length / 2 ^ 8) (by omega)]

theorem ppsSize_eq_iff : ppsSize r.bytes = r.pps.length ↔ r.pps.length < 256 := by
  have hlt := ppsSize_lt r.bytes
  refine ⟨fun h => by omega, fun h => ?_⟩
  rw [r.ppsSize_bytes, Nat.div_eq_of_lt (by omega), Nat.mod_eq_of_lt (by omega), Nat.zero_and,
    Nat.zero_add]
  exact (Nat.and_two_pow_sub_one_eq_mod r.pps.length 8).trans (Nat.mod_eq_of_lt (by omega))

theorem ppsSize_le : ppsSize r.bytes ≤ r.pps.length := by
  by_cases h : r.pps.length < 256
  · rw [r.ppsSize_eq_iff.mpr h]
  · have := ppsSize_lt r.bytes
    omega

theorem parameterSetsFit : ParameterSetsFit r.bytes := by
  have hsps := r.sps_lt
  have hpps := r.ppsSize_le
  rw [ParameterSetsFit, r.spsSize_bytes, r.length_bytes]
  omega

/-- What is handed on: the first set, and of the second set what the low byte counts. -/
theorem processSpsPps_bytes (garbage : ℕ → UInt8) :
    processSpsPps garbage r.bytes =
      .ok (some ⟨annexB [r.sps, r.pps.take (ppsSize r.bytes)], 0, 0⟩) := by
  have hsps : slice r.bytes 8 r.sps.length = r.sps := by
    have hmiddle := slice_middle (r.head ++ shortPrefix r.sps.length) r.sps
      ([1] ++ shortPrefix r.pps.length ++ r.pps ++ r.extension)
    rw [bytes]
    simpa only [head, shortPrefix, List.append_assoc, List.length_append, List.length_cons,
      List.length_nil] using hmiddle
  have hpps : slice r.bytes (r.sps.length + 11) (ppsSize r.bytes) =
      r.pps.take (ppsSize r.bytes) := by
    rw [slice, show r.sps.length + 11 = r.sps.length + 8 + 3 by omega, ← List.drop_drop,
      r.drop_bytes]
    exact List.take_append_of_le_length r.ppsSize_le
  rw [processSpsPps_eq garbage r.parameterSetsFit, r.spsSize_bytes, hsps, hpps]
  simp [annexB]

end AvcRecord

theorem MirrorFrame.size_of_payload {f : MirrorFrame} (h : f.payload ≠ []) :
    2 * byteutilsGetInt f.header 0 < 2 ^ 32 := by
  by_contra hsign
  have hneg : f.payloadSize < 0 := signed_neg (byteutilsGetInt_lt f.header 0) hsign
  exact h (by rw [MirrorFrame.payload, Int.toNat_of_nonpos (by omega)]; rfl)

theorem processFrame_record (P : Openssl) (garbage : ℕ → UInt8) (buffer : MirrorBuffer)
    (syncOffset : UInt64) {f : MirrorFrame} {r : AvcRecord} (htype : f.payloadType = 1)
    (hpayload : f.payload = r.bytes) :
    processFrame P garbage buffer syncOffset f =
      .ok (buffer, some ⟨annexB [r.sps, r.pps.take (ppsSize r.bytes)], 0, 0⟩) := by
  have hne : f.payload ≠ [] := by
    rw [hpayload]
    exact List.ne_nil_of_length_pos (by rw [r.length_bytes]; omega)
  rw [processFrame, MirrorFrame.malloc_payload (MirrorFrame.size_of_payload hne), ok_bind, htype,
    if_neg (by decide), if_pos (by decide), hpayload, r.processSpsPps_bytes]
  rfl

/-- What the decoder and `video_process` are called with is the two sets behind start codes, with
the right length, exactly if the second set has fewer than 256 bytes. -/
theorem parameterSets_forwarded_iff (P : Openssl) (garbage : ℕ → UInt8) (buffer : MirrorBuffer)
    (syncOffset : UInt64) (f : MirrorFrame) (r : AvcRecord) (htype : f.payloadType = 1)
    (hpayload : f.payload = r.bytes) :
    (∃ h264, processFrame P garbage buffer syncOffset f = .ok (buffer, some h264) ∧
        h264.data = startCode ++ r.sps ++ startCode ++ r.pps ∧
        h264.data.length = r.sps.length + r.pps.length + 8) ↔
      r.pps.length < 256 := by
  have hrun := processFrame_record P garbage buffer syncOffset htype hpayload
  have hdata : (annexB [r.sps, r.pps.take (ppsSize r.bytes)]).length =
      r.sps.length + ppsSize r.bytes + 8 := by
    have hle := r.ppsSize_le
    simp only [annexB, List.flatMap_cons, List.flatMap_nil, List.length_append, List.length_take,
      List.length_nil, show startCode.length = 4 from rfl]
    omega
  rw [← r.ppsSize_eq_iff]
  constructor
  · rintro ⟨h264, h, -, hlen⟩
    rw [hrun] at h
    cases h
    have hlen : (annexB [r.sps, r.pps.take (ppsSize r.bytes)]).length =
      r.sps.length + r.pps.length + 8 := hlen
    omega
  · intro hsize
    refine ⟨_, hrun, ?_, ?_⟩
    · rw [hsize, List.take_length]
      simp [annexB]
    · show (annexB [r.sps, r.pps.take (ppsSize r.bytes)]).length = _
      rw [hdata, hsize]

/-- The frame that carries a record. -/
def AvcRecord.frame (r : AvcRecord) : MirrorFrame where
  header := byteutilsPutInt ([0, 0, 0, 0, 1] ++ List.replicate 123 0) 0 r.bytes.length
  content := byteAt r.bytes
  header_length := rfl

theorem AvcRecord.frame_payloadType (r : AvcRecord) : r.frame.payloadType = 1 := by
  rw [MirrorFrame.payloadType, byteutilsGetShort, frame, byteAt_byteutilsPutInt (by simp),
    byteAt_byteutilsPutInt (by simp), if_neg (by omega), if_neg (by omega)]
  rfl

theorem AvcRecord.frame_payload {r : AvcRecord} (h : r.bytes.length < 2 ^ 31) :
    r.frame.payload = r.bytes := by
  have hget : byteutilsGetInt r.frame.header 0 = r.bytes.length := by
    rw [frame, byteutilsGetInt_put_self (by simp), Nat.mod_eq_of_lt (by omega)]
  have hsize : r.frame.payloadSize = r.bytes.length := by
    rw [MirrorFrame.payloadSize, hget, signed_eq (by omega)]
  rw [MirrorFrame.payload, hsize, Int.toNat_natCast]
  exact map_byteAt r.bytes

/-- Sets of three and two bytes. -/
def smallRecord : AvcRecord where
  profile := 0x42
  compatibility := 0
  level := 0x1e
  lengthSizeMinusOne := 3
  sps := [0x67, 0x42, 0x1e]
  pps := [0x68, 0xce]
  extension := []
  sps_lt := by decide
  pps_lt := by decide

theorem parameterSets_forwarded_small :
    ∃ h264, processFrame default (fun _ => 0) (mirrorBufferInit [] []) 0 smallRecord.frame =
        .ok (mirrorBufferInit [] [], some h264) ∧
      h264.data = [0, 0, 0, 1, 0x67, 0x42, 0x1e, 0, 0, 0, 1, 0x68, 0xce] ∧ h264.data.length = 13 :=
  (parameterSets_forwarded_iff default (fun _ => 0) (mirrorBufferInit [] []) 0 smallRecord.frame
    smallRecord smallRecord.frame_payloadType (AvcRecord.frame_payload (by decide))).mpr (by decide)

/-- A picture parameter set of 256 bytes. -/
def longRecord : AvcRecord where
  profile := 0x42
  compatibility := 0
  level := 0x1e
  lengthSizeMinusOne := 3
  sps := [0x67, 0x42, 0x1e]
  pps := List.replicate 256 0x68
  extension := []
  sps_lt := by decide
  pps_lt := by rw [List.length_replicate]; decide

/-- Its length is read as 0. -/
theorem parameterSets_cut :
    ¬ ∀ (P : Openssl) (garbage : ℕ → UInt8) (buffer : MirrorBuffer) (syncOffset : UInt64)
      (f : MirrorFrame) (r : AvcRecord), f.payloadType = 1 → f.payload = r.bytes →
        ∃ h264, processFrame P garbage buffer syncOffset f = .ok (buffer, some h264) ∧
          h264.data = startCode ++ r.sps ++ startCode ++ r.pps ∧
          h264.data.length = r.sps.length + r.pps.length + 8 := by
  intro h
  have hpps : longRecord.pps.length = 256 := List.length_replicate
  have hsps : longRecord.sps.length = 3 := rfl
  have hbytes : longRecord.frame.payload = longRecord.bytes := by
    refine AvcRecord.frame_payload ?_
    rw [AvcRecord.length_bytes, hpps, hsps]
    decide
  have hsize : ppsSize longRecord.bytes = 0 := by
    rw [AvcRecord.ppsSize_bytes, hpps]
    decide
  obtain ⟨h264, hcall, -, hlen⟩ := h default (fun _ => 0) (mirrorBufferInit [] []) 0
    longRecord.frame longRecord longRecord.frame_payloadType hbytes
  rw [processFrame_record default (fun _ => 0) (mirrorBufferInit [] []) 0
    longRecord.frame_payloadType hbytes, hsize] at hcall
  cases hcall
  rw [hpps, hsps] at hlen
  cases hlen

end WinAirPlay
