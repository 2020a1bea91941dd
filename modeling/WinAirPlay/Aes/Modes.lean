import Mathlib.Logic.Equiv.Basic
import WinAirPlay.Crypto
import WinAirPlay.Foundations.BlockCipher

/-! # What OpenSSL documents of AES-128 in CTR and CBC mode

Under a key of 16 bytes AES is a permutation of the 16-byte blocks. In CTR mode the keystream is
made of consecutive counter blocks. In CBC mode, where padding is switched on unless a program
switches it off, an update that encrypts delivers the blocks that are complete, and one that
decrypts holds the last complete block back until more input comes, since it may be the padding.

`opensslOf` computes what is documented here from a given permutation, and `aesOfZeros` takes the two
blocks that AES makes of the counters 0 and 1 under the key of zeros.
-/

namespace WinAirPlay
open Foundations.ByteBuffer Foundations.BlockCipher
set_option autoImplicit false

abbrev AesBlock := BitVec (8 * 16)

/-- How many of the first `n` bytes that a CBC context was fed it has delivered. -/
def cbcDelivered : AesDirection → ℕ → ℕ
  | .encrypt, n => n / 16 * 16
  | .decrypt, n => (n - 1) / 16 * 16

/-- What a CBC context makes of the whole blocks of its input. -/
def cbcText (aes : Equiv.Perm AesBlock) (direction : AesDirection) (iv input : Bytes) : Bytes :=
  match direction with
  | .encrypt => text (cbcEncrypt aes (· ^^^ ·) (blockOf 16 iv) (blocks 16 input))
  | .decrypt => text (cbcDecrypt aes (· ^^^ ·) (blockOf 16 iv) (blocks 16 input))

/-- The documented behaviour of the two modes; `aes` is the block cipher. -/
structure Documented (P : Openssl) (aes : Bytes → Equiv.Perm AesBlock) : Prop where
  ctr : ∀ key iv : Bytes, key.length = 16 → iv.length = 16 →
    P.keystream key iv = ctrKeystream (aes key) (blockOf 16 iv)
  cbc : ∀ (direction : AesDirection) (key iv fed input : Bytes), key.length = 16 →
    iv.length = 16 → P.cbcUpdate direction key iv fed input =
      ((cbcText (aes key) direction iv (fed ++ input)).take
        (cbcDelivered direction (fed ++ input).length)).drop (cbcDelivered direction fed.length)

/-! ## A library that behaves as documented -/

def opensslOf (aes : Bytes → Equiv.Perm AesBlock) : Openssl where
  keystream key iv := ctrKeystream (aes key) (blockOf 16 iv)
  cbcUpdate direction key iv fed input :=
    ((cbcText (aes key) direction iv (fed ++ input)).take
      (cbcDelivered direction (fed ++ input).length)).drop (cbcDelivered direction fed.length)
  sha512 := id
  x25519Public := id
  x25519Derive _ := id
  ed25519Public := id
  ed25519Sign _ := id
  ed25519Verify _ _ _ := true

theorem documented_opensslOf (aes : Bytes → Equiv.Perm AesBlock) :
    Documented (opensslOf aes) aes where
  ctr key iv _ _ := by simp only [opensslOf]
  cbc direction key iv fed input _ _ := by simp only [opensslOf]

/-- A permutation that agrees with AES under the key of zeros on the blocks 0 and 1. -/
def aesOfZeros : Equiv.Perm AesBlock :=
  (Equiv.swap 0 0x66e94bd4ef8a2c3b884cfa59ca342b2e).trans
    (Equiv.swap 1 0x58e2fccefa7e3061367f1d57a4e7455a)

end WinAirPlay
