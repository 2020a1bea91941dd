import WinAirPlay.Aes.Calls

/-! # The keystream position of a CTR context

The cipher context knows how many keystream bytes it has used; `block_offset` is to be that number
modulo 16, so that `aes_ctr_start_fresh_block` can drop the rest of the block. An encryption and a
fresh block move both together. A decryption moves only the cipher context, and a reset clears
only it, so the two part as soon as one of them is called off a block boundary
(`offset_kept_iff`). A state in which the program has stopped is an error.
-/

namespace WinAirPlay
open Foundations.ByteBuffer Foundations.CheckedMemory Foundations.KeyStream Foundations.Transition
set_option autoImplicit false

/-- The number of keystream bytes used since the context was initialised or reset. -/
def position (ctx : AesCtx) : ℕ := ctx.cipherCtx.fed.length

/-- `block_offset` is the position in the block, and with it a fresh block is one. -/
structure OffsetRight (P : Openssl) (ctx : AesCtx) : Prop where
  offset : ctx.blockOffset = position ctx % 16
  fresh : 16 ∣ position (aesCtrStartFreshBlock P ctx)
  skips : position (aesCtrStartFreshBlock P ctx) < position ctx + 16

/-- One call; a program that has stopped stays stopped. -/
def positionStep (P : Openssl) (s : Checked AesCtx) (call : CipherCall) :
    Option (Checked AesCtx × List Empty) :=
  some (do
    let ctx ← s
    let r ← ctrCall P ctx call
    .ok r.2, [])

/-- The program runs, and `block_offset` is right. -/
def Tracks (P : Openssl) (s : Checked AesCtx) : Prop := ∃ ctx, s = .ok ctx ∧ OffsetRight P ctx

/-- The calls that move `block_offset` with the position. -/
def KeepsOffset (ctx : AesCtx) : CipherCall → Prop
  | .encrypt input => ctx.blockOffset + input.bytes.length < 2 ^ 31
  | .decrypt input => 16 ∣ input.bytes.length
  | .startFreshBlock => True
  | .reset => ctx.blockOffset = 0

/-! ## A fresh block -/

@[simp] theorem position_ctrEncrypt (P : Openssl) (ctx : AesCtx) (input : Bytes) :
    position (aesCtrEncrypt P ctx input).2 = position ctx + input.length := by
  simp [position, aesCtrEncrypt, aesEncrypt, evpUpdate]

@[simp] theorem position_ctrDecrypt (P : Openssl) (ctx : AesCtx) (input : Bytes) :
    position (aesCtrDecrypt P ctx input).2 = position ctx + input.length := by
  simp [position, aesCtrDecrypt_snd]

@[simp] theorem position_ctrReset (ctx : AesCtx) : position (aesCtrReset ctx) = 0 := rfl

theorem position_startFreshBlock (P : Openssl) (ctx : AesCtx) :
    position (aesCtrStartFreshBlock P ctx) =
      position ctx + if ctx.blockOffset = 0 then 0 else 16 - ctx.blockOffset := by
  unfold aesCtrStartFreshBlock
  by_cases h : ctx.blockOffset = 0
  · rw [if_pos h, if_pos h, Nat.add_zero]
  · rw [if_neg h, if_neg h, position_ctrEncrypt, List.length_replicate]
    rfl

theorem offsetRight_iff (P : Openssl) (ctx : AesCtx) :
    OffsetRight P ctx ↔ ctx.blockOffset = position ctx % 16 := by
  refine ⟨OffsetRight.offset, fun h => ⟨h, ?_, ?_⟩⟩
  · rw [position_startFreshBlock]
    split_ifs <;> omega
  · rw [position_startFreshBlock]
    split_ifs <;> omega

/-! ## One call -/

theorem checkOutLen_ok {input : Bytes} {r : Bytes × AesCtx} (h : r.1.length ≤ input.length) :
    checkOutLen input r = .ok r := by
  rw [checkOutLen, assertThat_true h, ok_bind]

theorem length_aesEncrypt (P : Openssl) {ctx : AesCtx} (h : ctx.cipherCtx.cipher = .aes128Ctr)
    (input : Bytes) : (aesEncrypt P ctx input).1.length = input.length := by
  simp [aesEncrypt, evpUpdate, h]

theorem ctrCall_encrypt (P : Openssl) {ctx : AesCtx} (h : ctx.cipherCtx.cipher = .aes128Ctr)
    (input : CipherInput) : ctrCall P ctx (.encrypt input) =
      (addInt ctx.blockOffset input.bytes.length >>= fun _ =>
        .ok (aesCtrEncrypt P ctx input.bytes)) := by
  have hlen : (aesCtrEncrypt P ctx input.bytes).1.length ≤ input.bytes.length :=
    (length_aesEncrypt P h input.bytes).le
  rw [ctrCall, checkOutLen_ok hlen, ok_bind]

theorem ctrCall_decrypt (P : Openssl) {ctx : AesCtx} (h : ctx.cipherCtx.cipher = .aes128Ctr)
    (input : CipherInput) :
    ctrCall P ctx (.decrypt input) = .ok (aesCtrDecrypt P ctx input.bytes) := by
  have hlen : (aesCtrDecrypt P ctx input.bytes).1.length ≤ input.bytes.length :=
    (length_aesEncrypt P h input.bytes).le
  rw [ctrCall, checkOutLen_ok hlen]

theorem ctrCall_cipher {P : Openssl} {ctx : AesCtx} {call : CipherCall} {r : Bytes × AesCtx}
    (h : ctx.cipherCtx.cipher = .aes128Ctr) (hr : ctrCall P ctx call = .ok r) :
    r.2.cipherCtx.cipher = .aes128Ctr := by
  cases call with
  | encrypt input =>
    rw [ctrCall_encrypt P h] at hr
    obtain ⟨-, -, hr⟩ := bind_eq_ok.mp hr
    cases hr
    exact h
  | decrypt input =>
    rw [ctrCall_decrypt P h] at hr
    cases hr
    exact h
  | startFreshBlock =>
    cases hr
    show (aesCtrStartFreshBlock P ctx).cipherCtx.cipher = _
    unfold aesCtrStartFreshBlock
    split <;> exact h
  | reset =>
    cases hr
    rfl

/-- A call keeps `block_offset` right exactly if it is one of those that move it as they should. -/
theorem ctrCall_tracks_iff {P : Openssl} {ctx : AesCtx}
    (hcipher : ctx.cipherCtx.cipher = .aes128Ctr) (hctx : OffsetRight P ctx) (call : CipherCall) :
    Tracks P (do let r ← ctrCall P ctx call; .ok r.2) ↔ KeepsOffset ctx call := by
  have hoff := hctx.offset
  cases call with
  | encrypt input =>
    rw [ctrCall_encrypt P hcipher]
    by_cases hfits : ctx.blockOffset + input.bytes.length < 2 ^ 31
    · rw [addInt_nat hfits]
      refine iff_of_true ⟨_, rfl, (offsetRight_iff P _).mpr ?_⟩ hfits
      rw [position_ctrEncrypt]
      show (ctx.blockOffset + input.bytes.length) % 16 = _
      omega
    · refine iff_of_false ?_ hfits
      rintro ⟨ctx', hctx', -⟩
      obtain ⟨f, hf⟩ := addInt_fault (Nat.le_of_not_lt hfits)
      rw [hf] at hctx'
      cases hctx'
  | decrypt input =>
    rw [ctrCall_decrypt P hcipher, ok_bind]
    constructor
    · rintro ⟨ctx', hctx', hright⟩
      cases hctx'
      have hoff' : ctx.blockOffset = _ := hright.offset
      rw [position_ctrDecrypt] at hoff'
      show 16 ∣ input.bytes.length
      omega
    · intro hdvd
      have hdvd : 16 ∣ input.bytes.length := hdvd
      refine ⟨_, rfl, (offsetRight_iff P _).mpr ?_⟩
      rw [position_ctrDecrypt]
      show ctx.blockOffset = _
      omega
  | startFreshBlock =>
    refine iff_of_true ⟨_, rfl, (offsetRight_iff P _).mpr ?_⟩ trivial
    have hfresh := hctx.fresh
    show (aesCtrStartFreshBlock P ctx).blockOffset = position (aesCtrStartFreshBlock P ctx) % 16
    have hzero : (aesCtrStartFreshBlock P ctx).blockOffset = 0 := by
      unfold aesCtrStartFreshBlock
      split
      · assumption
      · show (ctx.blockOffset + (List.replicate (16 - ctx.blockOffset) 0).length) % 16 = 0
        rw [List.length_replicate]
        omega
    omega
  | reset =>
    constructor
    · rintro ⟨ctx', hctx', hright⟩
      cases hctx'
      exact hright.offset
    · intro hzero
      exact ⟨_, rfl, (offsetRight_iff P _).mpr hzero⟩

/-! ## Every sequence of calls -/

theorem offset_kept_iff (P : Openssl) (key iv : Bytes) (calls : List CipherCall) :
    Throughout (positionStep P) (Tracks P) (.ok (aesCtrInit key iv)) calls ↔
      Along (positionStep P) (fun s call => ∃ ctx, s = .ok ctx ∧ KeepsOffset ctx call)
        (.ok (aesCtrInit key iv)) calls := by
  refine throughout_iff_along_of
    (I := fun s => ∀ ctx, s = .ok ctx → ctx.cipherCtx.cipher = .aes128Ctr) ?_ ?_ ?_ ?_
  · rintro s call r hs hr ctx hctx
    cases hr
    obtain ⟨ctx₀, rfl, hbody⟩ := bind_eq_ok.mp hctx
    obtain ⟨out, hcall, hout⟩ := bind_eq_ok.mp hbody
    cases hout
    exact ctrCall_cipher (hs ctx₀ rfl) hcall
  · rintro s call r hs ⟨ctx, rfl, hright⟩ hr
    cases hr
    refine (ctrCall_tracks_iff (hs ctx rfl) hright call).trans ⟨fun h => ⟨ctx, rfl, h⟩, ?_⟩
    rintro ⟨ctx', hctx', h⟩
    cases hctx'
    exact h
  · intro ctx hctx
    cases hctx
    rfl
  · exact ⟨_, rfl, (offsetRight_iff P _).mpr rfl⟩

/-- A decryption of one byte leaves `block_offset` at 0, with one byte of the keystream used. -/
theorem offset_lost : ¬ Throughout (positionStep default) (Tracks default)
    (.ok (aesCtrInit (List.replicate 16 0) (List.replicate 16 0)))
    [.decrypt ⟨[0], by decide⟩] := by
  intro h
  obtain ⟨ctx, hctx, hright⟩ := (h.2 _ rfl).first
  cases hctx
  exact absurd hright.offset (by decide)

end WinAirPlay
