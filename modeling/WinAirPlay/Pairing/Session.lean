import WinAirPlay.Crypto
import WinAirPlay.Http.Request

/-! # The pairing session of `pairing.cpp`

A session goes through four states. A function that requires another state returns -1 and leaves
the session as it is. Private keys are generated by the caller of the model.
-/

namespace WinAirPlay
open Foundations.ByteBuffer Foundations.KeyStream
set_option autoImplicit false

def x25519KeySize : ℕ := 32
def ed25519KeySize : ℕ := 32
def pairingSigSize : ℕ := 2 * x25519KeySize

/-- `pairing_s`: the server's private Ed25519 key. -/
structure Pairing where
  ed : Bytes

inductive PairingStatus
  | initial
  | setup
  | handshake
  | finished
  deriving DecidableEq

/-- `ours` are private keys, `theirs` public ones. -/
structure PairingSession where
  status : PairingStatus
  edOurs : Bytes
  edTheirs : Bytes
  ecdhOurs : Bytes
  ecdhTheirs : Bytes
  ecdhSecret : Bytes

def pairingGetPublicKey (P : Openssl) (pairing : Pairing) : Bytes := P.ed25519Public pairing.ed

def pairingSessionInit (pairing : Pairing) : PairingSession where
  status := .initial
  edOurs := pairing.ed
  edTheirs := []
  ecdhOurs := []
  ecdhTheirs := []
  ecdhSecret := List.replicate x25519KeySize 0

def pairingSessionSetSetupStatus (session : PairingSession) : PairingSession :=
  { session with status := .setup }

def pairingSessionCheckHandshakeStatus (session : PairingSession) : ℤ :=
  if session.status ≠ .setup then -1 else 0

section
variable (P : Openssl)

/-- `derive_key_internal`, for a key of at most 64 bytes. -/
def deriveKeyInternal (session : PairingSession) (salt : String) (keylen : ℕ) : Bytes :=
  (P.sha512 (ascii salt ++ session.ecdhSecret)).take keylen

/-- The context that encrypts the signatures of a session. -/
def signatureCtx (session : PairingSession) : AesCtx :=
  aesCtrInit (deriveKeyInternal P session "Pair-Verify-AES-Key" aes128BlockSize)
    (deriveKeyInternal P session "Pair-Verify-AES-IV" aes128BlockSize)

/-- `generated` is the key that `x25519_key_generate` makes. -/
def pairingSessionHandshake (session : PairingSession) (ecdhKey edKey generated : Bytes) :
    ℤ × PairingSession :=
  if session.status = .finished then (-1, session)
  else
    (0, { session with
      ecdhTheirs := ecdhKey
      edTheirs := edKey
      ecdhOurs := generated
      ecdhSecret := P.x25519Derive generated ecdhKey
      status := .handshake })

/-- The key, or -1 and no key. -/
def pairingSessionGetPublicKey (session : PairingSession) : ℤ × Option Bytes :=
  if session.status ≠ .handshake then (-1, none)
  else (0, some (P.x25519Public session.ecdhOurs))

def pairingSessionGetSignature (session : PairingSession) : ℤ × Option Bytes :=
  if session.status ≠ .handshake then (-1, none)
  else
    let sigMsg := P.x25519Public session.ecdhOurs ++ session.ecdhTheirs
    let signature := P.ed25519Sign session.edOurs sigMsg
    (0, some (aesCtrEncrypt P (signatureCtx P session) signature).1)

def pairingSessionFinish (session : PairingSession) (signature : Bytes) : ℤ × PairingSession :=
  if session.status ≠ .handshake then (-1, session)
  else
    -- the fake round encrypts whatever the buffer holds
    let fake := aesCtrEncrypt P (signatureCtx P session) (List.replicate pairingSigSize 0)
    let sigBuffer := (aesCtrEncrypt P fake.2 signature).1
    let sigMsg := session.ecdhTheirs ++ P.x25519Public session.ecdhOurs
    if P.ed25519Verify session.edTheirs sigBuffer sigMsg = false then (-2, session)
    else (0, { session with status := .finished })

end

end WinAirPlay
