import WinAirPlay.Pairing.Verify

/-! # The handshake that a session authenticates

The operations of `pairing.cpp` on one session, in any order and number, and the client at the other
end. While a session is in the state of its latest handshake nothing changes it (`run_stays`), so
the keys it signs and checks with are those of that handshake, and the client that gave them derives
the same secret and, at the same offsets, the same keystream.
-/

namespace WinAirPlay
open Foundations.ByteBuffer Foundations.KeyStream Foundations.Transition
set_option autoImplicit false

/-! ## Operations -/

/-- The arguments of `pairing_session_handshake`, and the private key that it generates. -/
structure Handshake where
  ecdhKey : Bytes
  edKey : Bytes
  generated : Bytes

inductive PairingOp
  | setSetupStatus
  | handshake (keys : Handshake)
  | getPublicKey
  | getSignature
  | finish (signature : Bytes)

/-- What a call gives back: the `int` (0 where there is none), and the buffer where it is filled. -/
structure PairingAnswer where
  op : PairingOp
  ret : ℤ
  buffer : Option Bytes

section
variable (P : Openssl)

/-- The session after a call, and what the call gives back. -/
def pairingCall (session : PairingSession) : PairingOp → PairingSession × ℤ × Option Bytes
  | .setSetupStatus => (pairingSessionSetSetupStatus session, 0, none)
  | .handshake keys =>
    let r := pairingSessionHandshake P session keys.ecdhKey keys.edKey keys.generated
    (r.2, r.1, none)
  | .getPublicKey => (session, pairingSessionGetPublicKey P session)
  | .getSignature => (session, pairingSessionGetSignature P session)
  | .finish signature =>
    let r := pairingSessionFinish P session signature
    (r.2, r.1, none)

def pairingStep (session : PairingSession) (op : PairingOp) :
    Option (PairingSession × List PairingAnswer) :=
  let r := pairingCall P session op
  some (r.1, [⟨op, r.2.1, r.2.2⟩])

def handshakeOf : PairingOp → Option Handshake
  | .handshake keys => some keys
  | _ => none

def latestHandshake (ops : List PairingOp) : Option Handshake :=
  (ops.filterMap handshakeOf).getLast?

theorem latestHandshake_snoc (ops : List PairingOp) (op : PairingOp) :
    latestHandshake (ops ++ [op]) = (handshakeOf op).or (latestHandshake ops) := by
  unfold latestHandshake
  cases h : handshakeOf op with
  | none => simp [h]
  | some keys => simp [h]

/-! ## The client -/

/-- The keystream that both ends derive from the shared secret. -/
def pairVerifyKeystream (secret : Bytes) : ℕ → UInt8 :=
  P.keystream ((P.sha512 (ascii "Pair-Verify-AES-Key" ++ secret)).take aes128BlockSize)
    ((P.sha512 (ascii "Pair-Verify-AES-IV" ++ secret)).take aes128BlockSize)

/-- A client and its private keys. -/
structure Client where
  ecdh : Bytes
  ed : Bytes

/-- The handshake to which the client's public keys are given. -/
def Client.handshake (client : Client) (generated : Bytes) : Handshake :=
  ⟨P.x25519Public client.ecdh, P.ed25519Public client.ed, generated⟩

def Client.keystream (client : Client) (serverKey : Bytes) : ℕ → UInt8 :=
  pairVerifyKeystream P (P.x25519Derive client.ecdh serverKey)

/-- The server's signature, decrypted with the keystream from byte 0 on. -/
def Client.decrypt (client : Client) (serverKey reply : Bytes) : Bytes :=
  xorFrom (client.keystream P serverKey) 0 reply

/-- The client's signature, encrypted with the keystream from byte 64 on. -/
def Client.signature (client : Client) (serverKey : Bytes) : Bytes :=
  xorFrom (client.keystream P serverKey) pairingSigSize
    (P.ed25519Sign client.ed (P.x25519Public client.ecdh ++ serverKey))

/-- Ideal primitives: both ends derive one secret, and a signature of 64 bytes verifies under the
public key of its signer. -/
structure Ideal : Prop where
  derive_comm : ∀ ours theirs,
    P.x25519Derive ours (P.x25519Public theirs) = P.x25519Derive theirs (P.x25519Public ours)
  verify_sign : ∀ key message,
    P.ed25519Verify (P.ed25519Public key) (P.ed25519Sign key message) message = true
  length_sign : ∀ key message, (P.ed25519Sign key message).length = pairingSigSize

/-! ## What holds of a session -/

/-- A client that took part in the handshake: what it is told is the server's key and a signature of
the server on both keys, and its own signature is accepted. -/
structure Authenticated (pairing : Pairing) (client : Client) (serverKey : Bytes)
    (since : List PairingAnswer) (session : PairingSession) : Prop where
  publicKey : pairingSessionGetPublicKey P session = (0, some serverKey)
  signature : ∃ reply, pairingSessionGetSignature P session = (0, some reply) ∧
    reply.length = pairingSigSize ∧
    P.ed25519Verify (pairingGetPublicKey P pairing) (client.decrypt P serverKey reply)
      (serverKey ++ P.x25519Public client.ecdh) = true
  /-- Every answer since the handshake is what the session as it is now would answer. -/
  answered : ∀ answer ∈ since, (pairingCall P session answer.op).2 = (answer.ret, answer.buffer)
  length : (client.signature P serverKey).length = pairingSigSize
  accepted : pairingSessionFinish P session (client.signature P serverKey) =
    (0, { session with status := .finished })

/-- The check of a signature against a handshake. -/
def Verified (keys : Handshake) (signature : Bytes) : Prop :=
  P.ed25519Verify keys.edKey
    (xorFrom (pairVerifyKeystream P (P.x25519Derive keys.generated keys.ecdhKey)) pairingSigSize
      signature)
    (keys.ecdhKey ++ P.x25519Public keys.generated) = true

/-- What holds of a session after the calls `ops`. -/
structure AuthenticatesCurrent (pairing : Pairing) (ops : List PairingOp)
    (session : PairingSession) : Prop where
  honest : ∀ client generated before since start,
    ops = before ++ .handshake (client.handshake P generated) :: since →
    since.filterMap handshakeOf = [] →
    run (pairingStep P) (pairingSessionInit pairing)
      (before ++ [.handshake (client.handshake P generated)]) = some start →
    session.status = .handshake →
    Authenticated P pairing client (P.x25519Public generated)
      (events (pairingStep P) start since) session
  finished : ∀ op r, pairingStep P session op = some r → session.status ≠ .finished →
    r.1.status = .finished →
    ∃ signature keys, op = .finish signature ∧ latestHandshake ops = some keys ∧
      Verified P keys signature
  failed : ∀ signature, (pairingSessionFinish P session signature).1 ≠ 0 →
    (pairingSessionFinish P session signature).2 = session
end

/-! ## One operation -/

section
variable {P : Openssl} {session session' : PairingSession} {op : PairingOp}

/-- A finish succeeds and moves the session on, or fails and leaves it as it is. -/
theorem pairingSessionFinish_cases (signature : Bytes) :
    pairingSessionFinish P session signature = (0, { session with status := .finished }) ∨
    (pairingSessionFinish P session signature).1 ≠ 0 ∧
      (pairingSessionFinish P session signature).2 = session := by
  unfold pairingSessionFinish
  dsimp only
  split_ifs
  · exact Or.inr ⟨show (-1 : ℤ) ≠ 0 by decide, rfl⟩
  · exact Or.inr ⟨show (-2 : ℤ) ≠ 0 by decide, rfl⟩
  · exact Or.inl rfl

theorem pairingSessionFinish_failed {signature : Bytes}
    (h : (pairingSessionFinish P session signature).1 ≠ 0) :
    (pairingSessionFinish P session signature).2 = session := by
  obtain heq | ⟨-, hsame⟩ := @pairingSessionFinish_cases P session signature
  · rw [heq] at h
    exact absurd rfl h
  · exact hsame

theorem pairingSessionFinish_accepted {signature : Bytes} (hstatus : session.status = .handshake)
    (h : SignatureValid P session signature) :
    pairingSessionFinish P session signature = (0, { session with status := .finished }) := by
  have hzero := (pairingSessionFinish_iff P hstatus signature).mpr h
  obtain heq | ⟨hne, -⟩ := @pairingSessionFinish_cases P session signature
  · exact heq
  · exact absurd hzero hne

/-- The session after a handshake. -/
def handshaken (P : Openssl) (session : PairingSession) (keys : Handshake) : PairingSession :=
  { session with
    ecdhTheirs := keys.ecdhKey
    edTheirs := keys.edKey
    ecdhOurs := keys.generated
    ecdhSecret := P.x25519Derive keys.generated keys.ecdhKey
    status := .handshake }

theorem pairingStep_cases {r : PairingSession × List PairingAnswer}
    (h : pairingStep P session op = some r) :
    (op = .setSetupStatus ∧ r.1 = pairingSessionSetSetupStatus session) ∨
    (∃ keys, op = .handshake keys ∧ r.1 = handshaken P session keys) ∨
    (∃ signature, op = .finish signature ∧ session.status = .handshake ∧
      SignatureValid P session signature ∧ r.1 = { session with status := .finished }) ∨
    (r.1 = session ∧ (handshakeOf op ≠ none → session.status = .finished)) := by
  obtain rfl := Option.some.inj h
  cases op with
  | setSetupStatus => exact Or.inl ⟨rfl, rfl⟩
  | handshake keys =>
    by_cases hfinished : session.status = .finished
    · refine Or.inr (Or.inr (Or.inr ⟨?_, fun _ => hfinished⟩))
      show (pairingSessionHandshake P session _ _ _).2 = session
      rw [pairingSessionHandshake, if_pos hfinished]
    · refine Or.inr (Or.inl ⟨keys, rfl, ?_⟩)
      show (pairingSessionHandshake P session _ _ _).2 = _
      rw [pairingSessionHandshake, if_neg hfinished]
      rfl
  | getPublicKey => exact Or.inr (Or.inr (Or.inr ⟨rfl, fun hne => absurd rfl hne⟩))
  | getSignature => exact Or.inr (Or.inr (Or.inr ⟨rfl, fun hne => absurd rfl hne⟩))
  | finish signature =>
    by_cases hzero : (pairingSessionFinish P session signature).1 = 0
    · have hstatus : session.status = .handshake := by
        by_contra hne
        rw [pairingSessionFinish, if_pos hne] at hzero
        exact absurd (show (-1 : ℤ) = 0 from hzero) (by decide)
      have hvalid := (pairingSessionFinish_iff P hstatus signature).mp hzero
      refine Or.inr (Or.inr (Or.inl ⟨signature, rfl, hstatus, hvalid, ?_⟩))
      exact congrArg Prod.snd (pairingSessionFinish_accepted hstatus hvalid)
    · exact Or.inr (Or.inr (Or.inr
        ⟨pairingSessionFinish_failed hzero, fun hne => absurd rfl hne⟩))

/-- A call after which the session is in the state of the handshake did nothing to it, unless it is
a handshake. -/
theorem pairingStep_stays {r : PairingSession × List PairingAnswer}
    (h : pairingStep P session op = some r) (hop : handshakeOf op = none)
    (hstatus : r.1.status = .handshake) : r.1 = session := by
  obtain ⟨-, hr⟩ | ⟨keys, rfl, -⟩ | ⟨signature, -, -, -, hr⟩ | ⟨hr, -⟩ := pairingStep_cases h
  · rw [hr] at hstatus
    exact PairingStatus.noConfusion hstatus
  · exact Option.noConfusion rfl (heq_of_eq hop)
  · rw [hr] at hstatus
    exact PairingStatus.noConfusion hstatus
  · exact hr

/-! ## Runs -/

/-- Where a run without a handshake ends in the state of the handshake, the session was the same in
every state before, and gave every answer. -/
theorem run_stays {since : List PairingOp} {start : PairingSession}
    (hrun : run (pairingStep P) start since = some session)
    (hsince : since.filterMap handshakeOf = []) (hstatus : session.status = .handshake) :
    start = session ∧ ∀ answer ∈ events (pairingStep P) start since,
      (pairingCall P session answer.op).2 = (answer.ret, answer.buffer) := by
  induction since generalizing start with
  | nil =>
    obtain rfl : start = session := by simpa using hrun
    exact ⟨rfl, fun answer h => absurd h List.not_mem_nil⟩
  | cons op since ih =>
    obtain ⟨r, hr, hrest⟩ := run_cons_eq_some.mp hrun
    have hop : handshakeOf op = none := by
      cases h : handshakeOf op with
      | none => rfl
      | some keys => simp [h] at hsince
    rw [List.filterMap_cons_none hop] at hsince
    obtain ⟨hsame, hanswers⟩ := ih hrest hsince
    have hstart : r.1 = start := pairingStep_stays hr hop (by rw [hsame, hstatus])
    rw [hsame] at hstart
    subst hstart
    refine ⟨rfl, fun answer hanswer => ?_⟩
    simp only [events, hr, List.mem_append] at hanswer
    obtain hanswer | hanswer := hanswer
    · obtain rfl := Option.some.inj hr
      obtain rfl := List.mem_singleton.mp hanswer
      rfl
    · exact hanswers answer hanswer

/-- The keys of a session are those of a handshake. -/
structure HasKeys (P : Openssl) (keys : Handshake) (session : PairingSession) : Prop where
  edTheirs : session.edTheirs = keys.edKey
  ecdhTheirs : session.ecdhTheirs = keys.ecdhKey
  ecdhOurs : session.ecdhOurs = keys.generated
  ecdhSecret : session.ecdhSecret = P.x25519Derive keys.generated keys.ecdhKey

/-- The server's key never changes, and in the state of the handshake the other keys are those of
the latest one. -/
structure KeysCurrent (P : Openssl) (pairing : Pairing) (ops : List PairingOp)
    (session : PairingSession) : Prop where
  edOurs : session.edOurs = pairing.ed
  keys : session.status = .handshake →
    ∃ keys, latestHandshake ops = some keys ∧ HasKeys P keys session

theorem keysCurrent_step {pairing : Pairing} {ops : List PairingOp}
    {r : PairingSession × List PairingAnswer} (hcurrent : KeysCurrent P pairing ops session)
    (h : pairingStep P session op = some r) : KeysCurrent P pairing (ops ++ [op]) r.1 := by
  have hkept : r.1 = session → handshakeOf op = none → KeysCurrent P pairing (ops ++ [op]) r.1 := by
    intro hr hop
    rw [hr]
    refine ⟨hcurrent.edOurs, fun hstatus => ?_⟩
    rw [latestHandshake_snoc, hop, Option.none_or]
    exact hcurrent.keys hstatus
  obtain ⟨-, hr⟩ | ⟨keys, rfl, hr⟩ | ⟨signature, -, -, -, hr⟩ | ⟨hr, hop⟩ := pairingStep_cases h
  · rw [hr]
    exact ⟨hcurrent.edOurs, fun hstatus => PairingStatus.noConfusion hstatus⟩
  · rw [hr]
    refine ⟨hcurrent.edOurs, fun _ => ⟨keys, ?_, ⟨rfl, rfl, rfl, rfl⟩⟩⟩
    rw [latestHandshake_snoc]
    rfl
  · rw [hr]
    exact ⟨hcurrent.edOurs, fun hstatus => PairingStatus.noConfusion hstatus⟩
  · by_cases hnone : handshakeOf op = none
    · exact hkept hr hnone
    · rw [hr]
      refine ⟨hcurrent.edOurs, fun hstatus => ?_⟩
      rw [hop hnone] at hstatus
      exact PairingStatus.noConfusion hstatus

theorem keysCurrent_run {pairing : Pairing} {ops : List PairingOp}
    (hrun : run (pairingStep P) (pairingSessionInit pairing) ops = some session) :
    KeysCurrent P pairing ops session := by
  have hinit : KeysCurrent P pairing [] (pairingSessionInit pairing) :=
    ⟨rfl, fun hstatus => PairingStatus.noConfusion hstatus⟩
  exact invariant_history_along (I := fun ops _ session => KeysCurrent P pairing ops session)
    (fun _ _ _ _ _ hcurrent _ h => keysCurrent_step hcurrent h) [] [] hinit (along_true _ ops) hrun

/-! ## Both ends -/

theorem signatureValid_iff {keys : Handshake} (hkeys : HasKeys P keys session) (signature : Bytes) :
    SignatureValid P session signature ↔ Verified P keys signature := by
  unfold SignatureValid Verified deriveKeyInternal pairVerifyKeystream
  rw [hkeys.edTheirs, hkeys.ecdhTheirs, hkeys.ecdhOurs, hkeys.ecdhSecret]
  rfl

theorem signatureCtx_keystream (message : Bytes) :
    (aesCtrEncrypt P (signatureCtx P session) message).1 =
      xorFrom (pairVerifyKeystream P session.ecdhSecret) 0 message := rfl

theorem Client.keystream_eq (hideal : Ideal P) (client : Client) (generated : Bytes) :
    client.keystream P (P.x25519Public generated) =
      pairVerifyKeystream P (P.x25519Derive generated (P.x25519Public client.ecdh)) := by
  rw [Client.keystream, hideal.derive_comm]

theorem Client.verified (hideal : Ideal P) (client : Client) (generated : Bytes) :
    Verified P (client.handshake P generated) (client.signature P (P.x25519Public generated)) := by
  unfold Verified Client.signature
  rw [client.keystream_eq hideal]
  simp only [Client.handshake]
  rw [xorFrom_xorFrom]
  exact hideal.verify_sign _ _

theorem authenticated_of_hasKeys (hideal : Ideal P) {pairing : Pairing} {client : Client}
    {generated : Bytes} {since : List PairingAnswer} (hstatus : session.status = .handshake)
    (hours : session.edOurs = pairing.ed)
    (hkeys : HasKeys P (client.handshake P generated) session)
    (hanswered : ∀ answer ∈ since,
      (pairingCall P session answer.op).2 = (answer.ret, answer.buffer)) :
    Authenticated P pairing client (P.x25519Public generated) since session where
  publicKey := by
    rw [pairingSessionGetPublicKey, if_neg (not_not.mpr hstatus), hkeys.ecdhOurs]
    rfl
  signature := by
    refine ⟨_, by rw [pairingSessionGetSignature, if_neg (not_not.mpr hstatus)], ?_, ?_⟩
    · rw [signatureCtx_keystream, length_xorFrom, hideal.length_sign]
    · have hsecret : session.ecdhSecret =
          P.x25519Derive generated (P.x25519Public client.ecdh) := hkeys.ecdhSecret
      rw [signatureCtx_keystream, Client.decrypt, client.keystream_eq hideal, hsecret,
        xorFrom_xorFrom, hkeys.ecdhOurs, hkeys.ecdhTheirs, hours]
      exact hideal.verify_sign _ _
  answered := hanswered
  length := by rw [Client.signature, length_xorFrom, hideal.length_sign]
  accepted := pairingSessionFinish_accepted hstatus
    ((signatureValid_iff hkeys _).mpr (client.verified hideal generated))

/-- In every run, the session authenticates its latest handshake. -/
theorem session_authenticates (hideal : Ideal P) {pairing : Pairing} {ops : List PairingOp}
    (hrun : run (pairingStep P) (pairingSessionInit pairing) ops = some session) :
    AuthenticatesCurrent P pairing ops session where
  honest := by
    rintro client generated before since start rfl hsince hstart hstatus
    have hcurrent := keysCurrent_run hstart
    rw [← List.singleton_append, ← List.append_assoc, run_append, hstart, Option.bind_some] at hrun
    obtain ⟨rfl, hanswered⟩ := run_stays hrun hsince hstatus
    obtain ⟨keys, hlatest, hkeys⟩ := hcurrent.keys hstatus
    rw [latestHandshake_snoc] at hlatest
    obtain rfl := Option.some.inj hlatest
    exact authenticated_of_hasKeys hideal hstatus hcurrent.edOurs hkeys hanswered
  finished := by
    intro op r hr hbefore hafter
    obtain ⟨-, hr⟩ | ⟨keys, -, hr⟩ | ⟨signature, rfl, hstatus, hvalid, -⟩ | ⟨hr, -⟩ :=
      pairingStep_cases hr
    · rw [hr] at hafter
      exact PairingStatus.noConfusion hafter
    · rw [hr] at hafter
      exact PairingStatus.noConfusion hafter
    · obtain ⟨keys, hlatest, hkeys⟩ := (keysCurrent_run hrun).keys hstatus
      exact ⟨signature, keys, rfl, hlatest, (signatureValid_iff hkeys signature).mp hvalid⟩
    · rw [hr] at hafter
      exact absurd hafter hbefore
  failed := fun _ h => pairingSessionFinish_failed h

end

/-! ## A run -/

/-- Primitives that are ideal: the public key is the key, the secret is what two keys differ in, and
a signature is recomputed from the key and the message. -/
def toyOpenssl : Openssl where
  keystream key iv n := byteAt key (n % 16) + byteAt iv (n % 16) + UInt8.ofNat n
  cbcUpdate _ _ _ _ input := input
  sha512 message := List.replicate 64 (message.foldl (· + ·) 0)
  x25519Public key := key
  x25519Derive ours theirs := List.zipWith (· ^^^ ·) ours theirs
  ed25519Public key := key
  ed25519Sign key message := (List.range 64).map fun i => byteAt key i ^^^ byteAt message i
  ed25519Verify key signature message :=
    signature == (List.range 64).map fun i => byteAt key i ^^^ byteAt message i

theorem ideal_toyOpenssl : Ideal toyOpenssl where
  derive_comm ours theirs := List.zipWith_comm_of_comm fun x y => UInt8.xor_comm x y
  verify_sign key message := beq_self_eq_true _
  length_sign key message := by simp [toyOpenssl, pairingSigSize, x25519KeySize]

/-- Two handshakes and a call for the key. -/
def toyOps : List PairingOp :=
  [.setSetupStatus, .handshake ⟨[], [], []⟩,
    .handshake (Client.handshake toyOpenssl ⟨List.replicate 32 1, List.replicate 32 2⟩
      (List.replicate 32 3)), .getPublicKey]

def toySession : PairingSession :=
  handshaken toyOpenssl ⟨.setup, List.replicate 32 4, [], [], [], []⟩
    (Client.handshake toyOpenssl ⟨List.replicate 32 1, List.replicate 32 2⟩ (List.replicate 32 3))

theorem session_authenticates_toy :
    run (pairingStep toyOpenssl) (pairingSessionInit ⟨List.replicate 32 4⟩) toyOps =
      some toySession ∧
    AuthenticatesCurrent toyOpenssl ⟨List.replicate 32 4⟩ toyOps toySession :=
  ⟨rfl, session_authenticates ideal_toyOpenssl rfl⟩

end WinAirPlay
