import WinAirPlay.Foundations.KeyStream

/-! # The cipher and signature wrappers of `crypto.cpp`

OpenSSL is a parameter: an `Openssl` value says what its primitives compute, and nothing is
assumed of it here. Every primitive is total, so the `handle_error` exits of the wrappers, which
are taken only when OpenSSL reports a failure, do not appear.

A cipher context remembers what it was initialised with and every byte it was fed since. In CTR
mode the output of an update is the input XORed with the next unused keystream bytes. What an
update delivers in CBC mode depends on the bytes fed before it and is left to `cbcUpdate`.
-/

namespace WinAirPlay
open Foundations.ByteBuffer Foundations.KeyStream
set_option autoImplicit false

def aes128BlockSize : ℕ := 16

inductive AesDirection
  | decrypt
  | encrypt
  deriving DecidableEq

/-- What the primitives behind `crypto.cpp` compute. Keys are their raw bytes. -/
structure Openssl where
  /-- Byte `i` of the AES-128-CTR keystream of a key and an initial counter block. -/
  keystream : Bytes → Bytes → ℕ → UInt8
  /-- What an AES-128-CBC context (direction, key, IV, bytes fed before) delivers for new input. -/
  cbcUpdate : AesDirection → Bytes → Bytes → Bytes → Bytes → Bytes
  sha512 : Bytes → Bytes
  /-- The public key of a private X25519 key, and the secret shared with a peer. -/
  x25519Public : Bytes → Bytes
  x25519Derive : Bytes → Bytes → Bytes
  ed25519Public : Bytes → Bytes
  ed25519Sign : Bytes → Bytes → Bytes
  ed25519Verify : Bytes → Bytes → Bytes → Bool
  deriving Inhabited

/-! ## AES contexts -/

inductive EvpCipher
  | aes128Ctr
  | aes128Cbc
  deriving DecidableEq

/-- An initialised `EVP_CIPHER_CTX`. -/
structure EvpCipherCtx where
  cipher : EvpCipher
  direction : AesDirection
  key : Bytes
  iv : Bytes
  fed : Bytes

structure AesCtx where
  cipherCtx : EvpCipherCtx
  key : Bytes
  iv : Bytes
  direction : AesDirection
  blockOffset : ℕ

section
variable (P : Openssl)

/-- `EVP_EncryptUpdate` and `EVP_DecryptUpdate`: the bytes delivered and the context after. -/
def evpUpdate (ctx : EvpCipherCtx) (input : Bytes) : Bytes × EvpCipherCtx :=
  let output := match ctx.cipher with
    | .aes128Ctr => xorFrom (P.keystream ctx.key ctx.iv) ctx.fed.length input
    | .aes128Cbc => P.cbcUpdate ctx.direction ctx.key ctx.iv ctx.fed input
  (output, { ctx with fed := ctx.fed ++ input })

def aesInit (key iv : Bytes) (cipher : EvpCipher) (direction : AesDirection) : AesCtx where
  cipherCtx := { cipher, direction, key, iv, fed := [] }
  key := key
  iv := iv
  direction := direction
  blockOffset := 0

def aesEncrypt (ctx : AesCtx) (input : Bytes) : Bytes × AesCtx :=
  let r := evpUpdate P ctx.cipherCtx input
  (r.1, { ctx with cipherCtx := r.2 })

def aesDecrypt (ctx : AesCtx) (input : Bytes) : Bytes × AesCtx :=
  let r := evpUpdate P ctx.cipherCtx input
  (r.1, { ctx with cipherCtx := r.2 })

/-- The cipher context starts again with the key and the IV kept in `ctx`; the other fields of `ctx`
stay as they are. -/
def aesReset (ctx : AesCtx) (cipher : EvpCipher) (direction : AesDirection) : AesCtx :=
  { ctx with cipherCtx := { cipher, direction, key := ctx.key, iv := ctx.iv, fed := [] } }

/-! ## CTR mode -/

def aesCtrInit (key iv : Bytes) : AesCtx := aesInit key iv .aes128Ctr .encrypt

def aesCtrEncrypt (ctx : AesCtx) (input : Bytes) : Bytes × AesCtx :=
  let r := aesEncrypt P ctx input
  (r.1, { r.2 with blockOffset := (ctx.blockOffset + input.length) % aes128BlockSize })

/-- Drops the rest of the current keystream block by encrypting the scratch buffer `waste`. -/
def aesCtrStartFreshBlock (ctx : AesCtx) : AesCtx :=
  if ctx.blockOffset = 0 then ctx
  else
    let waste := List.replicate (aes128BlockSize - ctx.blockOffset) 0
    (aesCtrEncrypt P ctx waste).2

/-- Decryption goes through `aes_encrypt` and leaves `block_offset` alone. -/
def aesCtrDecrypt (ctx : AesCtx) (input : Bytes) : Bytes × AesCtx := aesEncrypt P ctx input

def aesCtrReset (ctx : AesCtx) : AesCtx := aesReset ctx .aes128Ctr .encrypt

/-- A CTR context XORs its input with the next unused keystream bytes. -/
theorem aesCtrDecrypt_fst {ctx : AesCtx} (h : ctx.cipherCtx.cipher = .aes128Ctr) (input : Bytes) :
    (aesCtrDecrypt P ctx input).1 =
      xorFrom (P.keystream ctx.cipherCtx.key ctx.cipherCtx.iv) ctx.cipherCtx.fed.length input := by
  simp [aesCtrDecrypt, aesEncrypt, evpUpdate, h]

theorem aesCtrDecrypt_snd (ctx : AesCtx) (input : Bytes) :
    (aesCtrDecrypt P ctx input).2 =
      { ctx with cipherCtx := { ctx.cipherCtx with fed := ctx.cipherCtx.fed ++ input } } := rfl

/-! ## CBC mode -/

def aesCbcInit (key iv : Bytes) (direction : AesDirection) : AesCtx :=
  aesInit key iv .aes128Cbc direction

def aesCbcEncrypt (ctx : AesCtx) (input : Bytes) : Bytes × AesCtx := aesEncrypt P ctx input

def aesCbcDecrypt (ctx : AesCtx) (input : Bytes) : Bytes × AesCtx := aesDecrypt P ctx input

/-- The context starts again as a CTR context. -/
def aesCbcReset (ctx : AesCtx) : AesCtx := aesReset ctx .aes128Ctr ctx.direction

end

end WinAirPlay
