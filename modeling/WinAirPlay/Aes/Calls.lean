import WinAirPlay.Crypto
import WinAirPlay.Foundations.CheckedMemory
import WinAirPlay.Foundations.Transition

/-! # Calls on an AES context

The functions of `crypto.cpp` that work on an `aes_ctx`, called in any order. Each mode has its own
family of functions. A call stops the program where one of its `assert`s fails, and where the sum of
`block_offset` and `len` is no `int`.
-/

namespace WinAirPlay
open Foundations.ByteBuffer Foundations.CheckedMemory Foundations.Transition
set_option autoImplicit false

/-- An input whose length the parameter `int len` can carry. -/
structure CipherInput where
  bytes : Bytes
  fits : bytes.length < 2 ^ 31

/-- The functions that create a context. -/
inductive CipherMode
  | ctr
  | cbc (direction : AesDirection)

def CipherMode.init (key iv : Bytes) : CipherMode → AesCtx
  | .ctr => aesCtrInit key iv
  | .cbc direction => aesCbcInit key iv direction

inductive CipherCall
  | encrypt (input : CipherInput)
  | decrypt (input : CipherInput)
  | startFreshBlock
  | reset

/-- `assert(out_len <= in_len)`, after an update. -/
def checkOutLen (input : Bytes) (r : Bytes × AesCtx) : Checked (Bytes × AesCtx) := do
  assertThat (r.1.length ≤ input.length)
  .ok r

section
variable (P : Openssl)

/-- What a call writes to its output, and the context after it. -/
def ctrCall (ctx : AesCtx) : CipherCall → Checked (Bytes × AesCtx)
  | .encrypt input => do
    let r ← checkOutLen input.bytes (aesCtrEncrypt P ctx input.bytes)
    let _ ← addInt ctx.blockOffset input.bytes.length
    .ok r
  | .decrypt input => checkOutLen input.bytes (aesCtrDecrypt P ctx input.bytes)
  | .startFreshBlock => .ok ([], aesCtrStartFreshBlock P ctx)
  | .reset => .ok ([], aesCtrReset ctx)

/-- `aes_ctr_start_fresh_block` may be called on a CBC context too. -/
def cbcCall (ctx : AesCtx) : CipherCall → Checked (Bytes × AesCtx)
  | .encrypt input => do
    assertThat (ctx.direction = .encrypt)
    checkOutLen input.bytes (aesCbcEncrypt P ctx input.bytes)
  | .decrypt input => do
    assertThat (ctx.direction = .decrypt)
    checkOutLen input.bytes (aesCbcDecrypt P ctx input.bytes)
  | .startFreshBlock => .ok ([], aesCtrStartFreshBlock P ctx)
  | .reset => .ok ([], aesCbcReset ctx)

def CipherMode.call : CipherMode → AesCtx → CipherCall → Checked (Bytes × AesCtx)
  | .ctr => ctrCall P
  | .cbc _ => cbcCall P

/-- One call; its output is emitted. Where the program stops there is no step. -/
def cipherStep (mode : CipherMode) (ctx : AesCtx) (call : CipherCall) :
    Option (AesCtx × List Bytes) :=
  match mode.call P ctx call with
  | .ok (output, ctx') => some (ctx', [output])
  | .error _ => none

end

end WinAirPlay
