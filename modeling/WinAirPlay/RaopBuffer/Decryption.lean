import WinAirPlay.Aes.Modes
import WinAirPlay.RaopBuffer.Calls

/-! # The decryption of audio payloads

The sender encrypts the whole blocks of a payload in CBC mode and leaves the rest in clear. The
receiver decrypts each packet with a new cipher context and takes what one `EVP_DecryptUpdate`
delivers. With padding switched on, which is never switched off here, that is all but the last
whole block; the bytes of this one stay the zeros of the `memset`. So the payload comes back exactly
if it has no whole block or its last one is zeros.
-/

namespace WinAirPlay
open Foundations.BlockCipher Foundations.ByteBuffer Foundations.Transition
set_option autoImplicit false

/-- The length of the part of a payload that is encrypted. -/
def encryptedLen (n : ℕ) : ℕ := n / 16 * 16

/-- The packet of a sender: its header, the encrypted blocks and the rest of the payload in clear. -/
def audioPacket (aes : Equiv.Perm AesBlock) (iv header payload : Bytes) : Bytes :=
  header ++ cbcText aes .encrypt iv payload ++ payload.drop (encryptedLen payload.length)

/-- After any calls on the buffer the packet is decrypted to the payload of the sender, who has the
key and the IV that the buffer started with. -/
def DecryptsBack (P : Openssl) (aes : Bytes → Equiv.Perm AesBlock) (b : RaopBuffer)
    (calls : List BufferCall) (header payload : Bytes) : Prop :=
  ∀ b', run (callStep P) b calls = some b' →
    raopBufferDecrypt P b' (audioPacket (aes b.aeskey) b.aesiv header payload) payload.length =
      payload

/-- The last whole block of a payload is zeros. -/
def LastBlockZero (payload : Bytes) : Prop :=
  slice payload (encryptedLen payload.length - 16) 16 = List.replicate 16 0

/-! ## The key stays -/

theorem apply_key (P : Openssl) (b : RaopBuffer) (call : BufferCall) :
    (call.apply P b).aeskey = b.aeskey ∧ (call.apply P b).aesiv = b.aesiv := by
  cases call with
  | flush nextSeq => exact raopBufferFlush_key b nextSeq
  | dequeue length timestamp noResend =>
    rw [BufferCall.apply]
    unfold raopBufferDequeue
    dsimp only
    split_ifs <;> exact ⟨rfl, rfl⟩
  | enqueue data datalen timestamp useSeqnum bufferEntry =>
    obtain ⟨data', -, -, heq⟩ := enqueue_numbered P b data datalen timestamp useSeqnum bufferEntry
    rw [BufferCall.apply, heq]
    rcases enqueue_cases P b data' datalen timestamp bufferEntry with ⟨-, hsame, -, -⟩ | ⟨-, hacc⟩
    · rw [hsame]
      exact ⟨rfl, rfl⟩
    · rw [hacc.result, storePacket, storeBase]
      split
      · exact raopBufferFlush_key b _
      · exact ⟨rfl, rfl⟩

theorem run_key {P : Openssl} {b b' : RaopBuffer} {calls : List BufferCall}
    (hrun : run (callStep P) b calls = some b') : b'.aeskey = b.aeskey ∧ b'.aesiv = b.aesiv := by
  refine invariant (I := fun s => s.aeskey = b.aeskey ∧ s.aesiv = b.aesiv) ?_ ⟨rfl, rfl⟩ hrun
  intro s call r hs hr
  obtain rfl : (call.apply P s, []) = r := Option.some.inj hr
  obtain ⟨hkey, hiv⟩ := apply_key P s call
  exact ⟨hkey.trans hs.1, hiv.trans hs.2⟩

/-! ## One packet -/

/-- The output buffer, given what the update delivered. -/
theorem raopBufferDecrypt_eq (P : Openssl) (b : RaopBuffer) {header cipher rest delivered : Bytes}
    (hheader : header.length = 12) (hcipher : cipher.length = encryptedLen (cipher ++ rest).length)
    (hdelivered : P.cbcUpdate .decrypt b.aeskey b.aesiv [] cipher = delivered)
    (hle : delivered.length ≤ cipher.length) :
    raopBufferDecrypt P b (header ++ cipher ++ rest) (cipher ++ rest).length =
      delivered ++ List.replicate (cipher.length - delivered.length) 0 ++ rest := by
  have hlen : (cipher ++ rest).length / 16 * 16 = cipher.length := hcipher.symm
  have hblocks : slice (header ++ cipher ++ rest) 12 cipher.length = cipher := by
    rw [← hheader]
    exact slice_middle header cipher rest
  have hrest : slice (header ++ cipher ++ rest) (12 + cipher.length)
      ((cipher ++ rest).length - cipher.length) = rest := by
    have hoff : 12 + cipher.length = (header ++ cipher).length := by
      rw [List.length_append, hheader]
    rw [hoff, slice, List.drop_left, List.length_append, Nat.add_sub_cancel_left, List.take_length]
  obtain ⟨padded, hpadded⟩ : ∃ padded,
      padded = delivered ++ List.replicate (cipher.length - delivered.length) 0 := ⟨_, rfl⟩
  have hlength : padded.length = cipher.length := by
    rw [hpadded, List.length_append, List.length_replicate]
    omega
  have hzeros : List.replicate (cipher ++ rest).length (0 : UInt8) =
      List.replicate delivered.length 0 ++ (List.replicate (cipher.length - delivered.length) 0 ++
        List.replicate rest.length 0) := by
    rw [← List.replicate_add, ← List.replicate_add, List.length_append]
    congr 1
    omega
  have hupdate : (aesCbcDecrypt P (aesCbcInit b.aeskey b.aesiv .decrypt) cipher).1 = delivered :=
    hdelivered
  have hfirst : writeAt (List.replicate (cipher ++ rest).length 0) 0 delivered =
      padded ++ List.replicate rest.length 0 := by
    have hempty := writeAt_prefix [] delivered (List.replicate (cipher ++ rest).length 0)
    rw [List.nil_append, List.nil_append, List.length_nil] at hempty
    rw [hempty, hzeros, List.drop_left' (by simp), hpadded, List.append_assoc]
  unfold raopBufferDecrypt
  dsimp only
  rw [hlen, hblocks, hrest, hupdate, hfirst, ← hlength, writeAt_prefix,
    List.drop_eq_nil_of_le (by simp), List.append_nil, hlength, ← hpadded]

section
variable {P : Openssl} {aes : Bytes → Equiv.Perm AesBlock} {key iv : Bytes}

theorem length_cbcText (aes : Equiv.Perm AesBlock) (iv payload : Bytes) :
    (cbcText aes .encrypt iv payload).length = encryptedLen payload.length := by
  rw [cbcText, length_text, length_cbcEncrypt, length_blocks, encryptedLen]

theorem cbcText_cbcText (aes : Equiv.Perm AesBlock) (iv payload : Bytes) :
    cbcText aes .decrypt iv (cbcText aes .encrypt iv payload) =
      payload.take (encryptedLen payload.length) := by
  have hmix : ∀ x y : AesBlock, x ^^^ y ^^^ y = x := fun x y => by
    rw [BitVec.xor_assoc, BitVec.xor_self, BitVec.xor_zero]
  rw [cbcText, cbcText, blocks_text (by decide), cbcDecrypt_cbcEncrypt _ _ hmix,
    text_blocks (by decide), encryptedLen]

/-- What the update delivers of the encrypted blocks: all of them but the last. -/
theorem cbcUpdate_delivers (hP : Documented P aes) (hkey : key.length = 16) (hiv : iv.length = 16)
    (payload : Bytes) :
    P.cbcUpdate .decrypt key iv [] (cbcText (aes key) .encrypt iv payload) =
      payload.take (encryptedLen payload.length - 16) := by
  have hheld : cbcDelivered .decrypt (encryptedLen payload.length) =
      encryptedLen payload.length - 16 := by
    rw [cbcDelivered, encryptedLen]
    omega
  rw [hP.cbc .decrypt key iv [] _ hkey hiv, List.nil_append, cbcText_cbcText, length_cbcText, hheld,
    List.take_take, Nat.min_eq_left (by omega)]
  rfl

end

theorem payload_parts {payload : Bytes} (h : 16 ≤ payload.length) :
    payload = payload.take (encryptedLen payload.length - 16) ++
      slice payload (encryptedLen payload.length - 16) 16 ++
        payload.drop (encryptedLen payload.length) := by
  have hlast : encryptedLen payload.length - 16 + 16 = encryptedLen payload.length := by
    rw [encryptedLen]
    omega
  have hdrop : payload.drop (encryptedLen payload.length) =
      (payload.drop (encryptedLen payload.length - 16)).drop 16 := by rw [List.drop_drop, hlast]
  rw [hdrop, slice, List.append_assoc, List.take_append_drop, List.take_append_drop]

/-! ## Every packet -/

/-- What the receiver makes of a packet, after any calls on the buffer. -/
theorem decrypt_audioPacket {P : Openssl} {aes : Bytes → Equiv.Perm AesBlock}
    (hP : Documented P aes) {b b' : RaopBuffer} (hkey : b.aeskey.length = 16)
    (hiv : b.aesiv.length = 16) {calls : List BufferCall}
    (hrun : run (callStep P) b calls = some b') {header : Bytes} (hheader : header.length = 12)
    (payload : Bytes) :
    raopBufferDecrypt P b' (audioPacket (aes b.aeskey) b.aesiv header payload) payload.length =
      payload.take (encryptedLen payload.length - 16) ++
        List.replicate (encryptedLen payload.length - (encryptedLen payload.length - 16)) 0 ++
          payload.drop (encryptedLen payload.length) := by
  obtain ⟨hkey', hiv'⟩ := run_key hrun
  have hle : encryptedLen payload.length ≤ payload.length := Nat.div_mul_le_self _ _
  have hlength := length_cbcText (aes b.aeskey) b.aesiv payload
  have hwhole : (cbcText (aes b.aeskey) .encrypt b.aesiv payload ++
      payload.drop (encryptedLen payload.length)).length = payload.length := by
    rw [List.length_append, hlength, List.length_drop]
    omega
  have hdelivered : P.cbcUpdate .decrypt b'.aeskey b'.aesiv []
      (cbcText (aes b.aeskey) .encrypt b.aesiv payload) =
        payload.take (encryptedLen payload.length - 16) := by
    rw [hkey', hiv']
    exact cbcUpdate_delivers hP hkey hiv payload
  have htake : (payload.take (encryptedLen payload.length - 16)).length =
      encryptedLen payload.length - 16 := by
    rw [List.length_take]
    omega
  have heq := raopBufferDecrypt_eq P b' hheader (by rw [hwhole, hlength]) hdelivered
    (by rw [htake, hlength]; omega)
  rwa [hwhole, hlength, htake] at heq

theorem audio_decrypts_iff {P : Openssl} {aes : Bytes → Equiv.Perm AesBlock}
    (hP : Documented P aes) {b : RaopBuffer} (hkey : b.aeskey.length = 16)
    (hiv : b.aesiv.length = 16) (calls : List BufferCall) {header : Bytes}
    (hheader : header.length = 12) (payload : Bytes) :
    DecryptsBack P aes b calls header payload ↔ payload.length < 16 ∨ LastBlockZero payload := by
  obtain ⟨b', hrun⟩ := callStep_total P b calls
  have hback : DecryptsBack P aes b calls header payload ↔
      payload.take (encryptedLen payload.length - 16) ++
        List.replicate (encryptedLen payload.length - (encryptedLen payload.length - 16)) 0 ++
          payload.drop (encryptedLen payload.length) = payload := by
    refine ⟨fun h => ?_, fun h b' hrun => ?_⟩
    · rw [← decrypt_audioPacket hP hkey hiv hrun hheader payload]
      exact h b' hrun
    · rw [decrypt_audioPacket hP hkey hiv hrun hheader payload, h]
  rw [hback]
  by_cases hshort : payload.length < 16
  · refine iff_of_true ?_ (.inl hshort)
    have hnone : encryptedLen payload.length = 0 := by
      rw [encryptedLen, Nat.div_eq_of_lt hshort, Nat.zero_mul]
    simp [hnone]
  · have hblock : encryptedLen payload.length - (encryptedLen payload.length - 16) = 16 := by
      rw [encryptedLen]
      omega
    rw [hblock]
    refine Iff.trans ?_ (or_iff_right hshort).symm
    constructor
    · intro h
      rw [LastBlockZero]
      have hparts := h.trans (payload_parts (Nat.le_of_not_lt hshort))
      exact (List.append_cancel_left (List.append_cancel_right hparts)).symm
    · intro hzero
      have hzero : slice payload (encryptedLen payload.length - 16) 16 = _ := hzero
      rw [← hzero]
      exact (payload_parts (Nat.le_of_not_lt hshort)).symm

/-- A buffer with the key and the IV of zeros. -/
def zeroKeyed : RaopBuffer :=
  { raopBufferInit default [] [] [] with
    aeskey := List.replicate 16 0
    aesiv := List.replicate 16 0 }

/-- One block of zeros and one byte in clear. -/
theorem audio_decrypts_zeros :
    (List.replicate 12 (0 : UInt8)).length = 12 ∧
      (DecryptsBack (opensslOf fun _ => aesOfZeros) (fun _ => aesOfZeros) zeroKeyed []
          (List.replicate 12 0) (List.replicate 16 0 ++ [7]) ↔
        (List.replicate 16 (0 : UInt8) ++ [7]).length < 16 ∨
          LastBlockZero (List.replicate 16 0 ++ [7])) :=
  ⟨rfl, audio_decrypts_iff (documented_opensslOf _) rfl rfl [] rfl _⟩

/-- A payload of one block comes back as zeros. -/
theorem audio_block_lost :
    ¬ DecryptsBack (opensslOf fun _ => aesOfZeros) (fun _ => aesOfZeros) zeroKeyed []
      (List.replicate 12 0) (List.replicate 15 0 ++ [1]) := by
  intro h
  have hlost := h zeroKeyed rfl
  rw [decrypt_audioPacket (documented_opensslOf _) (b := zeroKeyed) rfl rfl (run_nil _) rfl] at hlost
  revert hlost
  decide

end WinAirPlay
