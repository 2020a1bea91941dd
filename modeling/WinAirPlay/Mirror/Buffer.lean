import WinAirPlay.Foundations.CheckedMemory
import WinAirPlay.Crypto

/-! # The mirror buffer of `mirror_buffer.cpp`

The video stream is encrypted with one continuous AES-CTR keystream. `mirror_buffer_decrypt`
decrypts the payload of one frame: the whole blocks in place, and a last partial block through
`og`, whose unused keystream bytes are kept for the first `nextDecryptCount` bytes of the next
payload. The invariant `Synced` ties that remainder to the number of bytes seen so far, and the
result says for which payload lengths the frames decrypt to the stream.
-/

namespace WinAirPlay
open Foundations.ByteBuffer Foundations.KeyStream Foundations.CheckedMemory
set_option autoImplicit false

structure MirrorBuffer where
  aesCtx : Option AesCtx
  nextDecryptCount : ℤ
  og : Bytes
  aeskey : Bytes
  ecdhSecret : Bytes

def mirrorBufferInit (aeskey ecdhSecret : Bytes) : MirrorBuffer where
  aesCtx := none
  nextDecryptCount := 0
  og := List.replicate 16 0
  aeskey := aeskey.take 16
  ecdhSecret := ecdhSecret.take 32

/-- `sprintf("%s%" PRIu64, prefix, streamConnectionID)`. -/
def streamSalt (salt : String) (streamConnectionID : UInt64) : Bytes :=
  (salt ++ toString streamConnectionID.toNat).toUTF8.toList

def mirrorBufferInitAes (P : Openssl) (mirrorBuffer : MirrorBuffer) (streamConnectionID : UInt64) :
    MirrorBuffer :=
  let eaeskey := (P.sha512 (mirrorBuffer.aeskey ++ mirrorBuffer.ecdhSecret)).take 16
  let hash1 := P.sha512 (streamSalt "AirPlayStreamKey" streamConnectionID ++ eaeskey)
  let hash2 := P.sha512 (streamSalt "AirPlayStreamIV" streamConnectionID ++ eaeskey)
  { mirrorBuffer with
    aesCtx := some (aesCtrInit (hash1.take 16) (hash2.take 16))
    nextDecryptCount := 0 }

/-- The buffers and the state after `mirror_buffer_decrypt`. -/
structure MirrorDecrypted where
  mirrorBuffer : MirrorBuffer
  input : Bytes
  output : Bytes

/-- `input[i] ^ mirror_buffer->og[(16 - nextDecryptCount) + i]`. -/
def leadByte (mirrorBuffer : MirrorBuffer) (input : Bytes) (i : ℕ) : Checked UInt8 := do
  let x ← readByte input i
  let y ← readByte mirrorBuffer.og (16 - mirrorBuffer.nextDecryptCount + i)
  .ok (x ^^^ y)

/-- The loop that decrypts the first bytes with the remainder of the last block. -/
def decryptLead (mirrorBuffer : MirrorBuffer) (input output : Bytes) : Checked Bytes :=
  if 0 < mirrorBuffer.nextDecryptCount then
    forLoop mirrorBuffer.nextDecryptCount.toNat output fun i output => do
      writeByte output i (← leadByte mirrorBuffer input i)
  else .ok output

/-- The partial block at the end: decrypted in `og`, with zeros for the bytes still to come. -/
def decryptRest (P : Openssl) (mirrorBuffer : MirrorBuffer) (aesCtx : AesCtx) (input output : Bytes)
    (restlen reststart : ℤ) : Checked MirrorDecrypted := do
  if 0 < restlen then
    let og ← writeRange (List.replicate 16 0) 0 (← readRange input reststart restlen)
    let r := aesCtrDecrypt P aesCtx og
    let output ← forLoop restlen.toNat output fun j output => do
      writeByte output (reststart + j) (← readByte r.1 j)
    .ok ⟨{ mirrorBuffer with aesCtx := some r.2, og := r.1, nextDecryptCount := 16 - restlen },
      input, output⟩
  else
    .ok ⟨{ mirrorBuffer with aesCtx := some aesCtx, nextDecryptCount := 0 }, input, output⟩

def mirrorBufferDecrypt (P : Openssl) (mirrorBuffer : MirrorBuffer) (input output : Bytes)
    (inputLen : ℤ) : Checked MirrorDecrypted := do
  let count := mirrorBuffer.nextDecryptCount
  let output ← decryptLead mirrorBuffer input output
  match mirrorBuffer.aesCtx with
  | none => .error .nullPointer
  | some aesCtx =>
    let encryptlen := (inputLen - count).tdiv 16 * 16
    let r := aesCtrDecrypt P (aesCtrStartFreshBlock P aesCtx) (← readRange input count encryptlen)
    let input ← writeRange input count r.1
    let output ← writeRange output count (← readRange input count encryptlen)
    let restlen := (inputLen - count).tmod 16
    decryptRest P mirrorBuffer r.2 input output restlen (inputLen - restlen)

/-! ## The state between two payloads -/

/-- The AES-CTR keystream of the stream, byte by byte. -/
def MirrorBuffer.keystream (P : Openssl) (mb : MirrorBuffer) : ℕ → UInt8 :=
  match mb.aesCtx with
  | some ctx => P.keystream ctx.cipherCtx.key ctx.cipherCtx.iv
  | none => fun _ => 0

/-- The keystream bytes of the current block that are still unused after `total` bytes. -/
def pending (total : ℕ) : ℕ := (16 - total % 16) % 16

/-- After `total` bytes: the context stands at the next block boundary, and the remainder of the
last block is at the end of `og`. -/
structure Synced (P : Openssl) (ks : ℕ → UInt8) (mb : MirrorBuffer) (total : ℕ) : Prop where
  context : ∃ ctx, mb.aesCtx = some ctx ∧ ctx.blockOffset = 0 ∧
    ctx.cipherCtx.cipher = .aes128Ctr ∧
    P.keystream ctx.cipherCtx.key ctx.cipherCtx.iv = ks ∧
    ctx.cipherCtx.fed.length = total + pending total
  count : mb.nextDecryptCount = pending total
  ogLength : mb.og.length = 16
  remainder : ∀ i < pending total, byteAt mb.og (16 - pending total + i) = ks (total + i)

theorem pending_le (total : ℕ) : pending total ≤ 15 := by
  unfold pending
  omega

theorem synced_init (P : Openssl) (mb : MirrorBuffer) (streamConnectionID : UInt64)
    (hog : mb.og.length = 16) :
    Synced P (mirrorBufferInitAes P mb streamConnectionID |>.keystream P)
      (mirrorBufferInitAes P mb streamConnectionID) 0 :=
  ⟨⟨_, rfl, rfl, rfl, rfl, rfl⟩, rfl, hog, fun i hi => by simp [pending] at hi⟩

/-! ## One payload -/

theorem leadByte_ok {P : Openssl} {ks : ℕ → UInt8} {mb : MirrorBuffer} {total : ℕ}
    (hs : Synced P ks mb total) {input : Bytes} {i : ℕ} (hi : i < pending total)
    (hin : i < input.length) :
    leadByte mb input i = .ok (byteAt input i ^^^ ks (total + i)) := by
  have hp := pending_le total
  have hindex : (16 : ℤ) - mb.nextDecryptCount + i = ((16 - pending total + i : ℕ) : ℤ) := by
    rw [hs.count]
    omega
  have hog : 16 - pending total + i < mb.og.length := by
    rw [hs.ogLength]
    omega
  rw [leadByte, readByte_nat hin, ok_bind, hindex, readByte_nat hog, ok_bind, hs.remainder i hi]

/-- The remainder of the last block decrypts the first bytes. -/
theorem decryptLead_ok {P : Openssl} {ks : ℕ → UInt8} {mb : MirrorBuffer} {total : ℕ}
    (hs : Synced P ks mb total) {a rest output : Bytes} (ha : a.length = pending total)
    (hout : output.length = (a ++ rest).length) :
    decryptLead mb (a ++ rest) output = .ok (xorFrom ks total a ++ output.drop a.length) := by
  have hlen : a.length ≤ output.length := by
    rw [hout, List.length_append]
    omega
  unfold decryptLead
  by_cases hpos : 0 < mb.nextDecryptCount
  · rw [if_pos hpos, show mb.nextDecryptCount.toNat = a.length by rw [hs.count, ha]; rfl]
    rw [forLoop_write 0 (fun i => byteAt a i ^^^ ks (total + i)) (by simp) _ (by omega)]
    · rw [← xorFrom_eq_map]
      simp [writeAt]
    · intro i hi
      rw [leadByte_ok hs (by omega) (by rw [List.length_append]; omega)]
      congr 2
      rw [byteAt, byteAt, List.getD_append _ _ _ _ hi]
  · have hz : a = [] := List.eq_nil_of_length_eq_zero (by rw [hs.count] at hpos; omega)
    rw [if_neg hpos, hz]
    simp

/-- The partial block decrypts with the next keystream block, whose unused end is kept. -/
theorem decryptRest_ok (P : Openssl) (ks : ℕ → UInt8) (mb : MirrorBuffer) (ctx : AesCtx)
    (pos : ℕ) (c before rest input : Bytes)
    (hcipher : ctx.cipherCtx.cipher = .aes128Ctr)
    (hks : P.keystream ctx.cipherCtx.key ctx.cipherCtx.iv = ks) (hoff : ctx.blockOffset = 0)
    (hfed : ctx.cipherCtx.fed.length = pos) (hpos : pos % 16 = 0) (hc : c.length < 16)
    (hog : mb.og.length = 16) (hrest : rest.length = c.length)
    (hinput : slice input before.length c.length = c ∧ before.length + c.length ≤ input.length) :
    ∃ r, decryptRest P mb ctx input (before ++ rest) c.length before.length = .ok r ∧
      r.input = input ∧ r.output = before ++ xorFrom ks pos c ∧
      Synced P ks r.mirrorBuffer (pos + c.length) := by
  have hpend : pending (pos + c.length) = (16 - c.length) % 16 := by
    unfold pending
    omega
  unfold decryptRest
  by_cases hz : 0 < (c.length : ℤ)
  · have hcpos : 0 < c.length := by omega
    set og := c ++ List.replicate (16 - c.length) 0 with hogdef
    have hoglen : og.length = 16 := by
      rw [hogdef, List.length_append, List.length_replicate]
      omega
    have hwrite : writeRange (List.replicate 16 0) 0 c = .ok og := by
      have h : writeRange (List.replicate 16 0) ((0 : ℕ) : ℤ) c =
          .ok (writeAt (List.replicate 16 0) 0 c) := writeRange_nat (by simp; omega)
      rw [show ((0 : ℕ) : ℤ) = 0 from rfl] at h
      rw [h, hogdef, writeAt]
      simp only [List.take_zero, List.nil_append, Nat.zero_add, List.drop_replicate]
    rw [if_pos hz, readRange_nat hinput.2, ok_bind, hinput.1, hwrite, ok_bind]
    have hfst : (aesCtrDecrypt P ctx og).1 = xorFrom ks pos og := by
      rw [aesCtrDecrypt_fst P hcipher, hks, hfed]
    have hsplit : xorFrom ks pos og =
        xorFrom ks pos c ++ xorFrom ks (pos + c.length) (List.replicate (16 - c.length) 0) := by
      rw [hogdef, xorFrom_append]
    dsimp only
    rw [hfst, show ((c.length : ℤ)).toNat = c.length from rfl]
    rw [forLoop_write before.length (fun j => byteAt c j ^^^ ks (pos + j))
      (fun i => by push_cast; ring) _ (by rw [List.length_append]; omega)]
    · rw [ok_bind]
      refine ⟨_, rfl, rfl, ?_, ⟨⟨_, rfl, hoff, hcipher, hks, ?_⟩, ?_, ?_, ?_⟩⟩
      · rw [← xorFrom_eq_map, writeAt_prefix]
        simp [hrest]
      · rw [aesCtrDecrypt_snd]
        simp only [List.length_append, hfed, hoglen, hpend]
        omega
      · rw [hpend]
        show (16 : ℤ) - c.length = _
        omega
      · simp [hoglen]
      · intro i hi
        rw [hpend] at hi ⊢
        show byteAt (xorFrom ks pos og) _ = _
        have hindex : 16 - (16 - c.length) % 16 + i = c.length + i := by omega
        rw [hindex, hsplit, byteAt, List.getD_append_right _ _ _ _ (by simp), length_xorFrom,
          Nat.add_sub_cancel_left]
        exact byteAt_xorFrom_zeros ks (by omega)
    · intro j hj
      rw [readByte_nat (by rw [length_xorFrom, hoglen]; omega), byteAt_xorFrom ks (by omega)]
      congr 2
      rw [byteAt, byteAt, hogdef, List.getD_append _ _ _ _ hj]
  · have hc0 : c = [] := List.eq_nil_of_length_eq_zero (by omega)
    subst hc0
    have hrest0 : rest = [] := List.eq_nil_of_length_eq_zero (by simpa using hrest)
    subst hrest0
    rw [if_neg hz]
    refine ⟨_, rfl, rfl, by simp, ⟨⟨_, rfl, hoff, hcipher, hks, ?_⟩, ?_, hog, ?_⟩⟩
    · rw [hpend, hfed]
      simp
    · rw [hpend]
      simp
    · intro i hi
      rw [hpend] at hi
      simp at hi

/-- A payload that uses up the remainder decrypts with the next keystream bytes. -/
theorem mirrorBufferDecrypt_ok {P : Openssl} {ks : ℕ → UInt8} {mb : MirrorBuffer} {total : ℕ}
    (hs : Synced P ks mb total) (input output : Bytes) (hin : pending total ≤ input.length)
    (hout : output.length = input.length) :
    ∃ r, mirrorBufferDecrypt P mb input output input.length = .ok r ∧
      r.input.length = input.length ∧ r.output = xorFrom ks total input ∧
      Synced P ks r.mirrorBuffer (total + input.length) := by
  obtain ⟨ctx, hctx, hoff, hcipher, hks, hfed⟩ := hs.context
  -- the rest of the last block, whole blocks, and a partial block
  obtain ⟨a, b, c, rfl, ha, ⟨q, hb⟩, hc⟩ : ∃ a b c : Bytes, input = a ++ b ++ c ∧
      a.length = pending total ∧ (∃ q, b.length = 16 * q) ∧ c.length < 16 := by
    refine ⟨input.take (pending total),
      (input.drop (pending total)).take ((input.length - pending total) / 16 * 16),
      (input.drop (pending total)).drop ((input.length - pending total) / 16 * 16),
      ?_, ?_, ⟨(input.length - pending total) / 16, ?_⟩, ?_⟩
    · rw [List.append_assoc, List.take_append_drop, List.take_append_drop]
    · rw [List.length_take]
      omega
    · rw [List.length_take, List.length_drop]
      omega
    · rw [List.length_drop, List.length_drop]
      omega
  set X := xorFrom ks (total + a.length) b with hX
  have hXlen : X.length = b.length := length_xorFrom ..
  simp only [List.length_append] at hout hin
  have hcount : mb.nextDecryptCount = (a.length : ℤ) := by rw [hs.count, ha]
  have hn : ((a ++ b ++ c).length : ℤ) - a.length = ((b.length + c.length : ℕ) : ℤ) := by
    simp only [List.length_append]
    omega
  have hdiv : (((b.length + c.length : ℕ) : ℤ)).tdiv 16 * 16 = (b.length : ℤ) := by
    rw [Int.tdiv_eq_ediv_of_nonneg (by omega)]
    omega
  have hmod : (((b.length + c.length : ℕ) : ℤ)).tmod 16 = (c.length : ℤ) := by
    rw [Int.tmod_eq_emod_of_nonneg (by omega)]
    omega
  have hstart : ((a ++ b ++ c).length : ℤ) - c.length = ((a.length + b.length : ℕ) : ℤ) := by
    simp only [List.length_append]
    omega
  have hfresh : aesCtrStartFreshBlock P ctx = ctx := by
    rw [aesCtrStartFreshBlock, if_pos hoff]
  have hdec : (aesCtrDecrypt P ctx b).1 = X := by
    rw [aesCtrDecrypt_fst P hcipher, hks, hfed, hX, ha]
  have hinput : writeRange (a ++ b ++ c) a.length X = .ok (a ++ X ++ c) := by
    rw [writeRange_nat (by simp only [List.length_append, hXlen]; omega), List.append_assoc,
      writeAt_prefix, hXlen, List.drop_left]
  have hlead : output.length = (a ++ (b ++ c)).length := by
    simp only [List.length_append]
    omega
  set before := xorFrom ks total a ++ X with hbefore
  have hbeforeLen : before.length = a.length + b.length := by
    rw [hbefore, List.length_append, length_xorFrom, hXlen]
  have houtput : writeRange (xorFrom ks total a ++ output.drop a.length) a.length X =
      .ok (before ++ (output.drop a.length).drop b.length) := by
    rw [writeRange_nat (by
      simp only [List.length_append, length_xorFrom, List.length_drop, hXlen]; omega)]
    have := writeAt_prefix (xorFrom ks total a) X (output.drop a.length)
    rw [length_xorFrom] at this
    rw [this, hXlen]
  obtain ⟨r, hr, hrin, hrout, hrsync⟩ := decryptRest_ok P ks mb
    (aesCtrDecrypt P ctx b).2 (total + a.length + b.length) c before
    ((output.drop a.length).drop b.length) (a ++ X ++ c)
    (by rw [aesCtrDecrypt_snd]; exact hcipher) (by rw [aesCtrDecrypt_snd]; exact hks)
    (by rw [aesCtrDecrypt_snd]; exact hoff)
    (by rw [aesCtrDecrypt_snd, List.length_append, hfed, ha])
    (by unfold pending at ha; omega) hc hs.ogLength
    (by simp only [List.length_drop]; omega)
    ⟨by
      have := slice_middle (a ++ X) c []
      rw [List.append_nil, List.length_append, hXlen] at this
      rw [hbeforeLen, this],
     by simp only [hbeforeLen, List.length_append, hXlen]; omega⟩
  refine ⟨r, ?_, ?_, ?_, ?_⟩
  · unfold mirrorBufferDecrypt
    dsimp only
    rw [List.append_assoc a b c, decryptLead_ok hs ha hlead, ← List.append_assoc, ok_bind, hctx]
    dsimp only
    rw [hcount, hn, hdiv, hmod, hfresh]
    rw [readRange_nat (by simp only [List.length_append]; omega), ok_bind, slice_middle, hdec,
      hinput, ok_bind]
    rw [readRange_nat (by simp only [List.length_append, hXlen]; omega), ok_bind, ← hXlen,
      slice_middle, houtput, ok_bind, hstart, ← hbeforeLen]
    exact hr
  · rw [hrin]
    simp only [List.length_append, hXlen]
  · rw [hrout, hbefore, xorFrom_append, xorFrom_append, List.length_append, hX, Nat.add_assoc]
  · rw [show total + (a ++ b ++ c).length = total + a.length + b.length + c.length by
      simp only [List.length_append]; omega]
    exact hrsync

/-- A payload that ends within the remainder is read past its end. -/
theorem mirrorBufferDecrypt_fault {P : Openssl} {ks : ℕ → UInt8} {mb : MirrorBuffer} {total : ℕ}
    (hs : Synced P ks mb total) {input output : Bytes} (hin : input.length < pending total)
    (inputLen : ℤ) : Faults (mirrorBufferDecrypt P mb input output inputLen) := by
  have hcount : (0 : ℤ) < mb.nextDecryptCount := by
    rw [hs.count]
    omega
  unfold mirrorBufferDecrypt decryptLead
  rw [if_pos hcount]
  apply Faults.bind
  apply forLoop_fault (i := input.length)
  · rw [hs.count]
    exact hin
  · intro output
    apply Faults.bind
    unfold leadByte
    exact (readByte_fault (Or.inr le_rfl)).bind _

/-! ## A stream in pieces -/

/-- The payloads that carry a stream encrypted with one continuous keystream. -/
def sealPieces (ks : ℕ → UInt8) : ℕ → List Bytes → List Bytes
  | _, [] => []
  | total, piece :: pieces =>
    xorFrom ks total piece :: sealPieces ks (total + piece.length) pieces

/-- The thread decrypts each payload into a fresh `payload_decrypted` of the payload's size. -/
def decryptPayloads (P : Openssl) (garbage : ℕ → ℕ → UInt8) :
    MirrorBuffer → List Bytes → Checked (List Bytes)
  | _, [] => .ok []
  | mb, payload :: payloads => do
    let payloadDecrypted ← malloc (garbage payloads.length) payload.length
    let r ← mirrorBufferDecrypt P mb payload payloadDecrypted payload.length
    let outputs ← decryptPayloads P garbage r.mirrorBuffer payloads
    .ok (r.output :: outputs)

/-- Each payload is at least as long as the remainder of the block before it. -/
def LongEnough : ℕ → List ℕ → Prop
  | _, [] => True
  | total, n :: lengths => pending total ≤ n ∧ LongEnough (total + n) lengths

theorem decryptPayloads_ok {P : Openssl} {ks : ℕ → UInt8} (garbage : ℕ → ℕ → UInt8)
    {pieces : List Bytes} {mb : MirrorBuffer} {total : ℕ} (hs : Synced P ks mb total)
    (hlong : LongEnough total (pieces.map List.length)) :
    decryptPayloads P garbage mb (sealPieces ks total pieces) = .ok pieces := by
  induction pieces generalizing mb total with
  | nil => rfl
  | cons piece pieces ih =>
    obtain ⟨hhead, htail⟩ := hlong
    have hlen : (xorFrom ks total piece).length = piece.length := length_xorFrom ..
    obtain ⟨r, hr, -, hout, hsync⟩ := mirrorBufferDecrypt_ok hs (xorFrom ks total piece)
      ((List.range piece.length).map (garbage (sealPieces ks (total + piece.length)
        pieces).length))
      (by rw [hlen]; exact hhead) (by rw [hlen]; simp)
    rw [hlen] at hr hsync
    rw [sealPieces, decryptPayloads, hlen, malloc_nat, ok_bind, hr, ok_bind, ih hsync htail, ok_bind,
      hout, xorFrom_xorFrom]

theorem decryptPayloads_fault {P : Openssl} {ks : ℕ → UInt8} (garbage : ℕ → ℕ → UInt8)
    {pieces : List Bytes} {mb : MirrorBuffer} {total : ℕ} (hs : Synced P ks mb total)
    (hshort : ¬ LongEnough total (pieces.map List.length)) :
    Faults (decryptPayloads P garbage mb (sealPieces ks total pieces)) := by
  induction pieces generalizing mb total with
  | nil => exact absurd trivial hshort
  | cons piece pieces ih =>
    have hlen : (xorFrom ks total piece).length = piece.length := length_xorFrom ..
    rw [sealPieces, decryptPayloads, hlen, malloc_nat, ok_bind]
    by_cases hhead : pending total ≤ piece.length
    · obtain ⟨r, hr, -, -, hsync⟩ := mirrorBufferDecrypt_ok hs (xorFrom ks total piece)
        ((List.range piece.length).map (garbage (sealPieces ks (total + piece.length)
          pieces).length))
        (by rw [hlen]; exact hhead) (by rw [hlen]; simp)
      rw [hlen] at hr hsync
      rw [hr, ok_bind]
      apply Faults.bind
      exact ih hsync fun htail => hshort ⟨hhead, htail⟩
    · apply Faults.bind
      exact mirrorBufferDecrypt_fault hs (by rw [hlen]; omega) _

/-- The payloads decrypt to the stream, within the bounds of the buffers, exactly when each of
them uses up the keystream bytes left over from the ones before. -/
theorem mirrorDecrypt_pieces_iff (P : Openssl) (garbage : ℕ → ℕ → UInt8)
    (aeskey ecdhSecret : Bytes) (streamConnectionID : UInt64) (pieces : List Bytes) :
    let mb := mirrorBufferInitAes P (mirrorBufferInit aeskey ecdhSecret) streamConnectionID
    (∃ outputs,
        decryptPayloads P garbage mb (sealPieces (mb.keystream P) 0 pieces) = .ok outputs ∧
        outputs.flatten = pieces.flatten) ↔
      LongEnough 0 (pieces.map List.length) := by
  intro mb
  have hs : Synced P (mb.keystream P) mb 0 := synced_init P _ streamConnectionID rfl
  constructor
  · rintro ⟨outputs, hok, -⟩
    by_contra hshort
    exact not_faults_iff.mpr ⟨outputs, hok⟩ (decryptPayloads_fault garbage hs hshort)
  · intro hlong
    exact ⟨pieces, decryptPayloads_ok garbage hs hlong, rfl⟩

/-- Two payloads of one byte: the second is shorter than the 15 bytes left over. -/
theorem mirrorDecrypt_short_piece :
    ¬ ∀ (P : Openssl) (garbage : ℕ → ℕ → UInt8) (aeskey ecdhSecret : Bytes)
      (streamConnectionID : UInt64) (pieces : List Bytes),
      let mb := mirrorBufferInitAes P (mirrorBufferInit aeskey ecdhSecret) streamConnectionID
      ∃ outputs,
        decryptPayloads P garbage mb (sealPieces (mb.keystream P) 0 pieces) = .ok outputs ∧
        outputs.flatten = pieces.flatten := by
  intro h
  obtain ⟨outputs, hok, -⟩ := h default (fun _ _ => 0) [] [] 0 [[1], [2]]
  have hshort : ¬ LongEnough 0 ([[1], [2]].map (List.length (α := UInt8))) := by
    simp [LongEnough, pending]
  have hs := synced_init default (mirrorBufferInit [] []) 0 rfl
  exact not_faults_iff.mpr ⟨outputs, hok⟩ (decryptPayloads_fault (fun _ _ => 0) hs hshort)

end WinAirPlay
