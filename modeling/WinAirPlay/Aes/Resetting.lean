import WinAirPlay.Aes.Modes
import WinAirPlay.Aes.Position

/-! # A context after a reset

Both resets start the cipher context again with the key and the IV that the `aes_ctx` keeps. What
they do not restore is `block_offset`, and the reset of a CBC context makes it a CTR context. So only
a CTR context at `block_offset` 0 behaves like a new one from then on (`reset_fresh_iff`).
-/

namespace WinAirPlay
open Foundations.BlockCipher Foundations.ByteBuffer Foundations.CheckedMemory Foundations.KeyStream
open Foundations.Transition
set_option autoImplicit false

def CipherMode.reset : CipherMode → AesCtx → AesCtx
  | .ctr => aesCtrReset
  | .cbc _ => aesCbcReset

/-- Reset in the state `ctx`, the context gives the outputs of a new one, whatever is called on it
then. -/
def ResetFresh (P : Openssl) (mode : CipherMode) (key iv : Bytes) (ctx : AesCtx) : Prop :=
  ∀ calls : List CipherCall, .reset ∉ calls →
    events (cipherStep P mode) (mode.reset ctx) calls =
      events (cipherStep P mode) (mode.init key iv) calls

/-! ## What every call keeps -/

def CipherMode.direction : CipherMode → AesDirection
  | .ctr => .encrypt
  | .cbc direction => direction

structure Kept (mode : CipherMode) (key iv : Bytes) (ctx : AesCtx) : Prop where
  key : ctx.key = key
  iv : ctx.iv = iv
  direction : ctx.direction = mode.direction
  offset : ctx.blockOffset < 16

variable {P : Openssl} {mode : CipherMode} {key iv : Bytes} {ctx : AesCtx}

theorem kept_init (mode : CipherMode) (key iv : Bytes) : Kept mode key iv (mode.init key iv) := by
  cases mode <;> exact ⟨rfl, rfl, rfl, Nat.succ_pos 15⟩

theorem Kept.encrypt (h : Kept mode key iv ctx) (input : Bytes) :
    Kept mode key iv (aesCtrEncrypt P ctx input).2 :=
  ⟨h.key, h.iv, h.direction, Nat.mod_lt _ (by decide)⟩

theorem Kept.startFreshBlock (h : Kept mode key iv ctx) :
    Kept mode key iv (aesCtrStartFreshBlock P ctx) := by
  unfold aesCtrStartFreshBlock
  split
  · exact h
  · exact h.encrypt _

theorem checkOutLen_eq {input : Bytes} {r r' : Bytes × AesCtx} (h : checkOutLen input r = .ok r') :
    r' = r := by
  obtain ⟨-, -, hr⟩ := bind_eq_ok.mp h
  cases hr
  rfl

theorem Kept.call {call : CipherCall} {r : Bytes × AesCtx} (h : Kept mode key iv ctx)
    (hr : mode.call P ctx call = .ok r) : Kept mode key iv r.2 := by
  cases mode with
  | ctr =>
    cases call with
    | encrypt input =>
      obtain ⟨out, hout, hr⟩ := bind_eq_ok.mp hr
      obtain ⟨-, -, hr⟩ := bind_eq_ok.mp hr
      cases hr
      rw [checkOutLen_eq hout]
      exact h.encrypt _
    | decrypt input =>
      rw [checkOutLen_eq hr]
      exact ⟨h.key, h.iv, h.direction, h.offset⟩
    | startFreshBlock =>
      cases hr
      exact h.startFreshBlock
    | reset =>
      cases hr
      exact ⟨h.key, h.iv, h.direction, h.offset⟩
  | cbc direction =>
    cases call with
    | encrypt input =>
      obtain ⟨-, -, hout⟩ := bind_eq_ok.mp hr
      rw [checkOutLen_eq hout]
      exact ⟨h.key, h.iv, h.direction, h.offset⟩
    | decrypt input =>
      obtain ⟨-, -, hout⟩ := bind_eq_ok.mp hr
      rw [checkOutLen_eq hout]
      exact ⟨h.key, h.iv, h.direction, h.offset⟩
    | startFreshBlock =>
      cases hr
      exact h.startFreshBlock
    | reset =>
      cases hr
      exact ⟨h.key, h.iv, h.direction, h.offset⟩

theorem cipherStep_eq {call : CipherCall} {r : AesCtx × List Bytes} :
    cipherStep P mode ctx call = some r ↔
      ∃ out, mode.call P ctx call = .ok (out, r.1) ∧ r.2 = [out] := by
  unfold cipherStep
  cases hcall : mode.call P ctx call with
  | error f => simp
  | ok out =>
    obtain ⟨out, ctx'⟩ := out
    obtain ⟨ctx'', emitted⟩ := r
    simp [eq_comm, and_comm]

theorem kept_run {history : List CipherCall}
    (hrun : run (cipherStep P mode) (mode.init key iv) history = some ctx) :
    Kept mode key iv ctx := by
  refine invariant (fun ctx call r h hr => ?_) (kept_init mode key iv) hrun
  obtain ⟨out, hcall, -⟩ := cipherStep_eq.mp hr
  exact h.call hcall

/-! ## A CTR context -/

theorem aesCtrReset_eq (h : Kept .ctr key iv ctx) (hzero : ctx.blockOffset = 0) :
    aesCtrReset ctx = aesCtrInit key iv := by
  obtain ⟨cipherCtx, key', iv', direction', blockOffset⟩ := ctx
  obtain ⟨rfl, rfl, hdirection, -⟩ := h
  obtain rfl : direction' = .encrypt := hdirection
  obtain rfl : blockOffset = 0 := hzero
  rfl

theorem aesCtrEncrypt_fst (P : Openssl) {ctx : AesCtx} (h : ctx.cipherCtx.cipher = .aes128Ctr)
    (input : Bytes) : (aesCtrEncrypt P ctx input).1 =
      xorFrom (P.keystream ctx.cipherCtx.key ctx.cipherCtx.iv) (position ctx) input := by
  simp [aesCtrEncrypt, aesEncrypt, evpUpdate, h, position]

theorem cipherStep_encrypt (P : Openssl) {ctx : AesCtx} (h : ctx.cipherCtx.cipher = .aes128Ctr)
    (input : CipherInput) (hfits : ctx.blockOffset + input.bytes.length < 2 ^ 31) :
    cipherStep P .ctr ctx (.encrypt input) =
      some ((aesCtrEncrypt P ctx input.bytes).2, [(aesCtrEncrypt P ctx input.bytes).1]) := by
  refine cipherStep_eq.mpr ⟨_, ?_, rfl⟩
  rw [CipherMode.call, ctrCall_encrypt P h, addInt_nat hfits, ok_bind]

/-- A fresh block, and an encryption of `n` zeros after it. -/
def freshThenZeros (n : ℕ) (h : n < 2 ^ 31) : List CipherCall :=
  [.startFreshBlock, .encrypt ⟨List.replicate n 0, by simpa using h⟩]

/-- The second output is the keystream from the fresh block on. -/
theorem events_freshThenZeros (hctx : ctx.cipherCtx.cipher = .aes128Ctr)
    (hoffset : ctx.blockOffset < 16) {n : ℕ} (hn : n < 2 ^ 30) :
    events (cipherStep P .ctr) ctx (freshThenZeros n (by omega)) =
      [[], xorFrom (P.keystream ctx.cipherCtx.key ctx.cipherCtx.iv)
        (position (aesCtrStartFreshBlock P ctx)) (List.replicate n 0)] := by
  set ctx' := aesCtrStartFreshBlock P ctx with hctx'
  have hsame : ctx'.cipherCtx.cipher = .aes128Ctr ∧ ctx'.cipherCtx.key = ctx.cipherCtx.key ∧
      ctx'.cipherCtx.iv = ctx.cipherCtx.iv ∧ ctx'.blockOffset < 16 := by
    rw [hctx']
    unfold aesCtrStartFreshBlock
    split
    · exact ⟨hctx, rfl, rfl, hoffset⟩
    · exact ⟨hctx, rfl, rfl, Nat.mod_lt _ (by decide)⟩
  obtain ⟨hcipher, hkey, hiv, hlt⟩ := hsame
  have hfits : ctx'.blockOffset + (List.replicate n (0 : UInt8)).length < 2 ^ 31 := by
    rw [List.length_replicate]
    omega
  have hfresh : cipherStep P .ctr ctx .startFreshBlock = some (ctx', [[]]) := rfl
  have hencrypt : ∀ h, cipherStep P .ctr ctx' (.encrypt ⟨List.replicate n 0, h⟩) =
      some ((aesCtrEncrypt P ctx' (List.replicate n 0)).2,
        [(aesCtrEncrypt P ctx' (List.replicate n 0)).1]) := fun h =>
    cipherStep_encrypt P hcipher _ hfits
  simp only [freshThenZeros, events, hfresh, hencrypt, List.append_nil, List.singleton_append]
  rw [aesCtrEncrypt_fst P hcipher, hkey, hiv]

/-- Off a block boundary the next fresh block of a reset context is not the first one. -/
theorem offset_zero_of_fresh {aes : Bytes → Equiv.Perm AesBlock} (hP : Documented P aes)
    (hkey : key.length = 16) (hiv : iv.length = 16) (h : Kept .ctr key iv ctx)
    (hfresh : ResetFresh P .ctr key iv ctx) : ctx.blockOffset = 0 := by
  by_contra hne
  have hlt := h.offset
  set p := 16 - ctx.blockOffset with hp
  obtain ⟨i, hi, hdiff⟩ := ctrKeystream_not_periodic (n := 16) (aes key) (by decide) (blockOf 16 iv)
    (p := p) (by omega) (by omega)
  have hn : 16 * p + 16 < 2 ^ 30 := by omega
  have heq := hfresh (freshThenZeros (16 * p + 16) (by omega)) (by simp [freshThenZeros])
  have hcipher : (aesCtrReset ctx).cipherCtx.cipher = .aes128Ctr := rfl
  have hcipher' : (aesCtrInit key iv).cipherCtx.cipher = .aes128Ctr := rfl
  rw [CipherMode.reset, CipherMode.init, events_freshThenZeros hcipher h.offset hn,
    events_freshThenZeros hcipher' (Nat.succ_pos 15) hn] at heq
  have hreset : position (aesCtrStartFreshBlock P (aesCtrReset ctx)) = p := by
    rw [position_startFreshBlock, position_ctrReset]
    show 0 + (if ctx.blockOffset = 0 then 0 else 16 - ctx.blockOffset) = p
    rw [if_neg hne, Nat.zero_add]
  have hinit : position (aesCtrStartFreshBlock P (aesCtrInit key iv)) = 0 := rfl
  have hks : P.keystream (aesCtrReset ctx).cipherCtx.key (aesCtrReset ctx).cipherCtx.iv =
      ctrKeystream (aes key) (blockOf 16 iv) := by
    show P.keystream ctx.key ctx.iv = _
    rw [h.key, h.iv, hP.ctr key iv hkey hiv]
  have hks' : P.keystream (aesCtrInit key iv).cipherCtx.key (aesCtrInit key iv).cipherCtx.iv =
      ctrKeystream (aes key) (blockOf 16 iv) := hP.ctr key iv hkey hiv
  have hbytes := (List.cons.inj (List.cons.inj heq).2).1
  have hbyte := congrArg (byteAt · i) hbytes
  simp only [hreset, hinit, hks, hks'] at hbyte
  rw [byteAt_xorFrom_zeros _ hi, byteAt_xorFrom_zeros _ hi, Nat.zero_add] at hbyte
  exact hdiff hbyte

/-! ## A CBC context -/

/-- The call of the direction, with one byte. -/
def oneByte : AesDirection → CipherCall
  | .encrypt => .encrypt ⟨[0], by decide⟩
  | .decrypt => .decrypt ⟨[0], by decide⟩

/-- One byte, given to a context of its direction, comes out as what the update delivers. -/
theorem events_oneByte {direction : AesDirection} (hctx : ctx.direction = direction)
    (hlen : (evpUpdate P ctx.cipherCtx [0]).1.length ≤ 1) :
    events (cipherStep P (.cbc direction)) ctx [oneByte direction] =
      [(evpUpdate P ctx.cipherCtx [0]).1] := by
  have hstep : cipherStep P (.cbc direction) ctx (oneByte direction) =
      some ((aesEncrypt P ctx [0]).2, [(evpUpdate P ctx.cipherCtx [0]).1]) := by
    refine cipherStep_eq.mpr ⟨_, ?_, rfl⟩
    cases direction with
    | encrypt =>
      rw [CipherMode.call, oneByte, cbcCall, assertThat_true hctx, ok_bind]
      exact checkOutLen_ok hlen
    | decrypt =>
      rw [CipherMode.call, oneByte, cbcCall, assertThat_true hctx, ok_bind]
      exact checkOutLen_ok hlen
  simp only [events, hstep, List.append_nil]

/-- A new CBC context keeps a single byte; a context that was reset delivers it. -/
theorem not_fresh_cbc {aes : Bytes → Equiv.Perm AesBlock} (hP : Documented P aes)
    (hkey : key.length = 16) (hiv : iv.length = 16) {direction : AesDirection}
    (h : Kept (.cbc direction) key iv ctx) : ¬ ResetFresh P (.cbc direction) key iv ctx := by
  intro hfresh
  have hnothing : (evpUpdate P (aesCbcInit key iv direction).cipherCtx [0]).1 = [] := by
    show P.cbcUpdate direction key iv [] [0] = []
    rw [hP.cbc direction key iv [] [0] hkey hiv]
    cases direction <;> simp [cbcDelivered]
  have hone : (evpUpdate P (aesCbcReset ctx).cipherCtx [0]).1.length = 1 := rfl
  have heq := hfresh [oneByte direction] (by cases direction <;> simp [oneByte])
  have hdirection : (aesCbcReset ctx).direction = direction := h.direction
  have hdirection' : (aesCbcInit key iv direction).direction = direction := rfl
  rw [CipherMode.reset, CipherMode.init, events_oneByte hdirection hone.le,
    events_oneByte hdirection' (by rw [hnothing]; exact Nat.zero_le 1), hnothing] at heq
  rw [List.cons.inj heq |>.1] at hone
  exact absurd hone (by decide)

/-! ## Either context -/

theorem reset_fresh_iff {P : Openssl} {aes : Bytes → Equiv.Perm AesBlock} (hP : Documented P aes)
    {key iv : Bytes} (hkey : key.length = 16) (hiv : iv.length = 16) (mode : CipherMode)
    {history : List CipherCall} {ctx : AesCtx}
    (hrun : run (cipherStep P mode) (mode.init key iv) history = some ctx) :
    ResetFresh P mode key iv ctx ↔ mode = .ctr ∧ ctx.blockOffset = 0 := by
  have hkept := kept_run hrun
  cases mode with
  | ctr =>
    refine ⟨fun h => ⟨rfl, offset_zero_of_fresh hP hkey hiv hkept h⟩, fun h calls _ => ?_⟩
    rw [CipherMode.reset, aesCtrReset_eq hkept h.2, CipherMode.init]
  | cbc direction =>
    exact iff_of_false (not_fresh_cbc hP hkey hiv hkept) fun h => CipherMode.noConfusion h.1

/-- A key or a block of zeros. -/
def zeros : Bytes := List.replicate 16 0

/-- A context that encrypted one block of zeros. -/
theorem reset_fresh_zeros :
    ∃ ctx, run (cipherStep (opensslOf fun _ => aesOfZeros) .ctr) (aesCtrInit zeros zeros)
        [.encrypt ⟨zeros, by decide⟩] = some ctx ∧
      (ResetFresh (opensslOf fun _ => aesOfZeros) .ctr zeros zeros ctx ↔
        CipherMode.ctr = .ctr ∧ ctx.blockOffset = 0) := by
  have hcipher : (aesCtrInit zeros zeros).cipherCtx.cipher = .aes128Ctr := rfl
  have hfits : (aesCtrInit zeros zeros).blockOffset + zeros.length < 2 ^ 31 := by decide
  have hrun := run_cons_eq_some.mpr
    ⟨_, cipherStep_encrypt (opensslOf fun _ => aesOfZeros) hcipher ⟨zeros, by decide⟩ hfits,
      run_nil _⟩
  exact ⟨_, hrun, reset_fresh_iff (documented_opensslOf _) rfl rfl .ctr hrun⟩

/-- After one byte was encrypted a fresh block and one more byte give another output than they do on
a new context. -/
theorem reset_not_fresh :
    ∃ ctx, run (cipherStep (opensslOf fun _ => aesOfZeros) .ctr) (aesCtrInit zeros zeros)
        [.encrypt ⟨[0], by decide⟩] = some ctx ∧
      ¬ ResetFresh (opensslOf fun _ => aesOfZeros) .ctr zeros zeros ctx := by
  refine ⟨_, rfl, fun h => ?_⟩
  have heq := h [.startFreshBlock, .encrypt ⟨[0], by decide⟩] (by simp)
  revert heq
  decide

end WinAirPlay
