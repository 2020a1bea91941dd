import WinAirPlay.Mirror.FrameSafety

/-! # NAL units in Annex B form

The peer sends a video payload as NAL units behind their lengths; a decoder wants each unit behind
a start code. Both prefixes have four bytes, so the loop rewrites the payload in place. Its
invariant splits the buffer at `nalu_size` into units that are rewritten and units as they came.
-/

namespace WinAirPlay
open Foundations.ByteBuffer Foundations.KeyStream Foundations.CheckedMemory
set_option autoImplicit false

/-- A 4-byte big-endian length. -/
def nalPrefix (n : ℕ) : Bytes :=
  [UInt8.ofNat (n / 2 ^ 24), UInt8.ofNat (n / 2 ^ 16), UInt8.ofNat (n / 2 ^ 8), UInt8.ofNat n]

def lengthPrefixed (units : List Bytes) : Bytes :=
  units.flatMap fun nalu => nalPrefix nalu.length ++ nalu

def annexB (units : List Bytes) : Bytes := units.flatMap fun nalu => startCode ++ nalu

theorem nalLength_nalPrefix {n : ℕ} (h : n < 2 ^ 32) :
    nalLength (UInt8.ofNat (n / 2 ^ 24)) (UInt8.ofNat (n / 2 ^ 16)) (UInt8.ofNat (n / 2 ^ 8))
      (UInt8.ofNat n) = n := by
  simp only [nalLength, UInt8.toNat_ofNat']
  omega

/-- The length that is read in front of a unit is the length of the unit. -/
theorem ncLen_nalPrefix (done nalu rest : Bytes) (h : nalu.length < 2 ^ 31) :
    ncLen (done ++ (nalPrefix nalu.length ++ nalu) ++ rest) done.length = nalu.length := by
  have hdrop : (done ++ (nalPrefix nalu.length ++ nalu) ++ rest).drop done.length =
      nalPrefix nalu.length ++ (nalu ++ rest) := by
    rw [List.append_assoc, List.drop_left, List.append_assoc]
  have h0 := byteAt_of_drop hdrop 0
  rw [Nat.add_zero] at h0
  rw [ncLen, h0, byteAt_of_drop hdrop 1, byteAt_of_drop hdrop 2, byteAt_of_drop hdrop 3]
  have hn := nalLength_nalPrefix (n := nalu.length) (by omega)
  exact (congrArg (signed 32) hn).trans (signed_eq (by omega))

theorem length_annexB (units : List Bytes) :
    (annexB units).length = (lengthPrefixed units).length := by
  induction units with
  | nil => rfl
  | cons nalu units ih =>
    simp only [annexB, lengthPrefixed, List.flatMap_cons, List.length_append] at ih ⊢
    rw [ih]
    rfl

/-- One unit: the length is replaced, and the loop goes on behind the unit. -/
theorem nalLoop_unit (done nalu rest : Bytes) (count : ℕ)
    (hrange : (done ++ (nalPrefix nalu.length ++ nalu) ++ rest).length < 2 ^ 31) :
    let N := (done ++ (nalPrefix nalu.length ++ nalu) ++ rest).length
    nalLoop N (done ++ (nalPrefix nalu.length ++ nalu) ++ rest) done.length count =
      nalLoop N (done ++ (startCode ++ nalu) ++ rest) (done ++ (startCode ++ nalu)).length
        (count + 1) := by
  intro N
  set d := done ++ (nalPrefix nalu.length ++ nalu) ++ rest with hd
  have hlen : d.length = done.length + 4 + nalu.length + rest.length := by
    simp only [hd, List.length_append, show (nalPrefix nalu.length).length = 4 from rfl]
    omega
  have hwrite : writeAt d done.length startCode = done ++ (startCode ++ nalu) ++ rest := by
    rw [hd, List.append_assoc, writeAt_prefix]
    simp [nalPrefix, startCode]
  have hread : ncLen d done.length = nalu.length := ncLen_nalPrefix done nalu rest (by omega)
  have hpos : ((done ++ (startCode ++ nalu)).length : ℤ) = done.length + ncLen d done.length + 4 := by
    rw [hread]
    simp only [List.length_append, length_startCode]
    omega
  have hpass := rewriteNal_ok_iff (d := d).mpr ⟨done.length, rfl, by omega, by omega, rfl⟩
  have hmore : (done.length : ℤ) < d.length := by omega
  change nalLoop d.length d done.length count = nalLoop d.length _ _ _
  rw [nalLoop_pass hmore, hpass, ok_bind, hwrite, hpos]

/-- The loop from the end of the units that are done. -/
theorem nalLoop_units (done : Bytes) (units : List Bytes) (count : ℕ)
    (hrange : (done ++ lengthPrefixed units).length < 2 ^ 31) :
    nalLoop (done ++ lengthPrefixed units).length (done ++ lengthPrefixed units) done.length count =
      .ok (done ++ annexB units, count + units.length) := by
  induction units generalizing done count with
  | nil =>
    rw [nalLoop_end (by simp [lengthPrefixed])]
    simp [lengthPrefixed, annexB]
  | cons nalu units ih =>
    have hsplit : done ++ lengthPrefixed (nalu :: units) =
        done ++ (nalPrefix nalu.length ++ nalu) ++ lengthPrefixed units := by
      simp [lengthPrefixed]
    have hsame : (done ++ (nalPrefix nalu.length ++ nalu) ++ lengthPrefixed units).length =
        (done ++ (startCode ++ nalu) ++ lengthPrefixed units).length := by
      simp only [List.length_append]
      rfl
    rw [hsplit] at hrange ⊢
    rw [nalLoop_unit done nalu _ count hrange, hsame,
      ih (done ++ (startCode ++ nalu)) (count + 1) (hsame ▸ hrange)]
    simp only [annexB, List.flatMap_cons, List.append_assoc, List.length_cons, Except.ok.injEq,
      Prod.mk.injEq, true_and]
    omega

theorem nalLoop_lengthPrefixed {units : List Bytes} (h : (lengthPrefixed units).length < 2 ^ 31) :
    nalLoop (lengthPrefixed units).length (lengthPrefixed units) 0 0 =
      .ok (annexB units, units.length) := by
  have hloop := nalLoop_units [] units 0 h
  simpa only [List.nil_append, List.length_nil, Nat.cast_zero, Nat.zero_add] using hloop

/-- A payload that decrypts to NAL units behind their lengths is handed on as the same units behind
start codes: nothing else is changed, and the units are counted. -/
theorem nalRewrite_annexB (units : List Bytes)
    (hunits : ∀ nalu ∈ units, 0 < nalu.length ∧ nalu.length < 2 ^ 31)
    (htotal : (lengthPrefixed units).length < 2 ^ 31) :
    nalLoop (lengthPrefixed units).length (lengthPrefixed units) 0 0 =
        .ok (annexB units, units.length) ∧
      (annexB units).length = (lengthPrefixed units).length ∧
      ∀ (P : Openssl) (ks : ℕ → UInt8) (buffer : MirrorBuffer) (total : ℕ) (garbage : ℕ → UInt8)
        (syncOffset : UInt64) (header payload : Bytes) (r : MirrorDecrypted),
        Synced P ks buffer total → units ≠ [] →
        mirrorBufferDecrypt P buffer payload ((List.range payload.length).map garbage)
          payload.length = .ok r → r.output = lengthPrefixed units →
        processVideo P garbage buffer syncOffset header payload =
          .ok (r.mirrorBuffer, ⟨annexB units, 1, videoTimestamp header syncOffset⟩) := by
  have hloop := nalLoop_lengthPrefixed htotal
  refine ⟨hloop, length_annexB units, ?_⟩
  intro P ks buffer total garbage syncOffset header payload r hs hne hr hout
  have hpend : pending total ≤ payload.length := by
    by_contra hshort
    exact not_faults_iff.mpr ⟨r, hr⟩ (mirrorBufferDecrypt_fault hs (by omega) _)
  obtain ⟨r', hr', hin, hout', -⟩ := mirrorBufferDecrypt_ok hs payload
    ((List.range payload.length).map garbage) hpend (by simp)
  obtain rfl : r' = r := Except.ok.inj (hr'.symm.trans hr)
  have hlen : payload.length = (lengthPrefixed units).length := by
    rw [← hout, hout', length_xorFrom]
  obtain ⟨nalu, rest, rfl⟩ := List.exists_cons_of_ne_nil hne
  have hfive : 5 ≤ payload.length := by
    have hpos := (hunits nalu List.mem_cons_self).1
    rw [hlen]
    simp only [lengthPrefixed, List.flatMap_cons, List.length_append]
    rw [show (nalPrefix nalu.length).length = 4 from rfl]
    omega
  unfold processVideo
  rw [malloc_nat, ok_bind, hr, ok_bind, readByte_eq (n := 4) (by rfl) (by omega), ok_bind, hout,
    hlen, hloop]
  rfl

/-- Three units, on a connection whose keystream is zero. -/
theorem nalRewrite_annexB_threeUnits :
    nalLoop 18 [0, 0, 0, 2, 0x65, 0x88, 0, 0, 0, 1, 0x41, 0, 0, 0, 3, 6, 5, 1] 0 0 =
        .ok ([0, 0, 0, 1, 0x65, 0x88, 0, 0, 0, 1, 0x41, 0, 0, 0, 1, 6, 5, 1], 3) ∧
      ∃ buffer, processVideo default (fun _ => 0)
          (mirrorBufferInitAes default (mirrorBufferInit [] []) 0) 0 []
          [0, 0, 0, 2, 0x65, 0x88, 0, 0, 0, 1, 0x41, 0, 0, 0, 3, 6, 5, 1] =
        .ok (buffer,
          ⟨[0, 0, 0, 1, 0x65, 0x88, 0, 0, 0, 1, 0x41, 0, 0, 0, 1, 6, 5, 1], 1,
            videoTimestamp [] 0⟩) := by
  obtain ⟨hloop, -, hvideo⟩ := nalRewrite_annexB [[0x65, 0x88], [0x41], [6, 5, 1]] (by decide)
    (by decide)
  obtain ⟨r, hr, -, hout, -⟩ := mirrorBufferDecrypt_ok
    (synced_init default (mirrorBufferInit [] []) 0 rfl)
    [0, 0, 0, 2, 0x65, 0x88, 0, 0, 0, 1, 0x41, 0, 0, 0, 3, 6, 5, 1]
    ((List.range 18).map fun _ => 0) (by decide) (by decide)
  exact ⟨hloop, r.mirrorBuffer, hvideo default _ _ 0 (fun _ => 0) 0 []
    [0, 0, 0, 2, 0x65, 0x88, 0, 0, 0, 1, 0x41, 0, 0, 0, 3, 6, 5, 1] r
    (synced_init default (mirrorBufferInit [] []) 0 rfl) (by simp) hr hout⟩

end WinAirPlay
