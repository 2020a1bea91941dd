import WinAirPlay.Foundations.Transition
import WinAirPlay.Http.Response
import WinAirPlay.Pairing.Session

/-! # Pair-setup and pair-verify requests

`conn_request` and the two pairing handlers. The handler of pair-verify starts with
`pairing_session_check_handshake_status`, which passes only in the state that pair-setup leaves.
The first phase moves the session on, so the second phase is answered at that check: it neither
finishes the pairing nor disconnects, whatever the signature.

The other handlers and branches of `conn_request` do not write to the pairing session; what they
answer is the parameter `others`.
-/

namespace WinAirPlay
open Foundations.ByteBuffer Foundations.KeyStream Foundations.Transition
set_option autoImplicit false

/-- The fields of `raop_conn_s` that the pairing handlers use. -/
structure RaopConn where
  raopPairing : Pairing
  pairing : PairingSession

def raopConnInit (raopPairing : Pairing) : RaopConn where
  raopPairing := raopPairing
  pairing := pairingSessionInit raopPairing

/-- What a handler leaves behind; `responseData` is empty when it stays `NULL`. -/
structure Handled where
  conn : RaopConn
  response : HttpResponse
  responseData : Bytes

section
variable (P : Openssl)

def raopHandlerPairsetup (conn : RaopConn) (request : HttpRequest) (response : HttpResponse) :
    Handled :=
  if request.data.length ≠ 32 then ⟨conn, response, []⟩
  else
    let publicKey := pairingGetPublicKey P conn.raopPairing
    ⟨{ conn with pairing := pairingSessionSetSetupStatus conn.pairing },
      httpResponseAddHeader response "Content-Type" (ascii "application/octet-stream"), publicKey⟩

def raopHandlerPairverify (conn : RaopConn) (request : HttpRequest) (response : HttpResponse)
    (generated : Bytes) : Handled :=
  if pairingSessionCheckHandshakeStatus conn.pairing ≠ 0 then ⟨conn, response, []⟩
  else
    let data := request.data
    if data.length < 4 then ⟨conn, response, []⟩
    else if byteAt data 0 = 1 then
      if data.length ≠ 4 + x25519KeySize + x25519KeySize then ⟨conn, response, []⟩
      else
        let r := pairingSessionHandshake P conn.pairing (slice data 4 x25519KeySize)
          (slice data (4 + x25519KeySize) x25519KeySize) generated
        -- errors are fallen through; a buffer that was not filled is empty here
        let publicKey := (pairingSessionGetPublicKey P r.2).2.getD []
        let signature := (pairingSessionGetSignature P r.2).2.getD []
        ⟨{ conn with pairing := r.2 },
          httpResponseAddHeader response "Content-Type" (ascii "application/octet-stream"),
          publicKey ++ signature⟩
    else if byteAt data 0 = 0 then
      if data.length ≠ 4 + pairingSigSize then ⟨conn, response, []⟩
      else
        let r := pairingSessionFinish P conn.pairing (slice data 4 pairingSigSize)
        if r.1 ≠ 0 then
          ⟨{ conn with pairing := r.2 }, httpResponseSetDisconnect response true, []⟩
        else
          ⟨{ conn with pairing := r.2 },
            httpResponseAddHeader response "Content-Type" (ascii "application/octet-stream"), []⟩
    else ⟨conn, response, []⟩

/-! ## `conn_request` -/

inductive RaopHandler
  | info
  | pairsetup
  | pairverify
  | fpsetup
  | options
  | setup
  | getParameter
  | setParameter
  | feedback
  | record
  | flush
  | teardown
  deriving DecidableEq

/-- The handler, or the branch of `conn_request` itself, for a request. -/
def selectHandler (method : String) (url : Option Bytes) : Option RaopHandler :=
  if method = "GET" ∧ url = some (ascii "/info") then some .info
  else if method = "POST" ∧ url = some (ascii "/pair-setup") then some .pairsetup
  else if method = "POST" ∧ url = some (ascii "/pair-verify") then some .pairverify
  else if method = "POST" ∧ url = some (ascii "/fp-setup") then some .fpsetup
  else if method = "OPTIONS" then some .options
  else if method = "SETUP" then some .setup
  else if method = "GET_PARAMETER" then some .getParameter
  else if method = "SET_PARAMETER" then some .setParameter
  else if method = "POST" ∧ url = some (ascii "/feedback") then some .feedback
  else if method = "RECORD" then some .record
  else if method = "FLUSH" then some .flush
  else if method = "TEARDOWN" then some .teardown
  else none

/-- A request as it is handled: with the private key generated in case it starts a handshake. -/
structure Exchange where
  request : HttpRequest
  generated : Bytes

variable (others : RaopHandler → RaopConn → HttpRequest → HttpResponse → HttpResponse × Bytes)

/-- The handlers that get a key from the generator or touch the pairing, and all the others. -/
def runHandler (handler : Option RaopHandler) (conn : RaopConn) (x : Exchange)
    (response : HttpResponse) : Handled :=
  match handler with
  | none => ⟨conn, response, []⟩
  | some .pairsetup => raopHandlerPairsetup P conn x.request response
  | some .pairverify => raopHandlerPairverify P conn x.request response x.generated
  | some handler =>
    let r := others handler conn x.request response
    ⟨conn, r.1, r.2⟩

/-- The connection after a request, and the response if there is one. -/
def connRequest (conn : RaopConn) (x : Exchange) : RaopConn × Option HttpResponse :=
  match x.request.method, httpRequestGetHeader x.request "CSeq" with
  | some method, some cseq =>
    let response := httpResponseInit "RTSP/1.0" 200 "OK"
    let response := httpResponseAddHeader response "CSeq" cseq
    let response := httpResponseAddHeader response "Server" (ascii "AirTunes/220.68")
    let r := runHandler P others (selectHandler method x.request.url) conn x response
    (r.conn, some (httpResponseFinish r.response r.responseData))
  | _, _ => (conn, none)

/-- The connection after a history of requests. -/
def connRun (conn : RaopConn) (history : List Exchange) : RaopConn :=
  history.foldl (fun conn x => (connRequest P others conn x).1) conn

/-! ## The requests of a pairing -/

/-- A request that is dispatched to the handler of `url`, with a body of `n` bytes. -/
structure IsPost (x : Exchange) (url : String) (n : ℕ) : Prop where
  method : x.request.method = some "POST"
  url : x.request.url = some (ascii url)
  cseq : httpRequestGetHeader x.request "CSeq" ≠ none
  length : x.request.data.length = n

def IsPairSetup (x : Exchange) : Prop := IsPost x "/pair-setup" 32

def IsPhaseOne (x : Exchange) : Prop := IsPost x "/pair-verify" 68 ∧ byteAt x.request.data 0 = 1

def IsPhaseTwo (x : Exchange) : Prop := IsPost x "/pair-verify" 68 ∧ byteAt x.request.data 0 = 0

/-- The check of `pairing_session_finish`: the signature field, decrypted with keystream bytes 64
to 127 of the session, signs the two ECDH keys with the client's key. -/
def SignatureValid (session : PairingSession) (signature : Bytes) : Prop :=
  P.ed25519Verify session.edTheirs
    (xorFrom (P.keystream (deriveKeyInternal P session "Pair-Verify-AES-Key" 16)
      (deriveKeyInternal P session "Pair-Verify-AES-IV" 16)) 64 signature)
    (session.ecdhTheirs ++ P.x25519Public session.ecdhOurs) = true

/-- The request is answered without a disconnect and the session is finished. -/
def Accepted (r : RaopConn × Option HttpResponse) : Prop :=
  r.1.pairing.status = .finished ∧ ∃ response, r.2 = some response ∧ response.disconnect = false

/-- The second phase accepts exactly the valid signatures and disconnects otherwise. -/
def PairVerifySound (conn : RaopConn) (phaseTwo : Exchange) : Prop :=
  let r := connRequest P others conn phaseTwo
  (Accepted r ↔ SignatureValid P conn.pairing (slice phaseTwo.request.data 4 64)) ∧
    (¬ Accepted r → ∃ response, r.2 = some response ∧ response.disconnect = true)

/-! ## The session functions -/

/-- `pairing_session_finish` itself checks the signature. -/
theorem pairingSessionFinish_iff {session : PairingSession} (h : session.status = .handshake)
    (signature : Bytes) :
    (pairingSessionFinish P session signature).1 = 0 ↔ SignatureValid P session signature := by
  have hkey : (aesCtrEncrypt P (aesCtrEncrypt P (signatureCtx P session)
      (List.replicate pairingSigSize 0)).2 signature).1 =
      xorFrom (P.keystream (deriveKeyInternal P session "Pair-Verify-AES-Key" 16)
        (deriveKeyInternal P session "Pair-Verify-AES-IV" 16)) 64 signature := by
    simp only [aesCtrEncrypt, aesEncrypt, evpUpdate, signatureCtx, aesCtrInit, aesInit,
      List.nil_append, List.length_replicate]
    rfl
  unfold pairingSessionFinish SignatureValid
  rw [if_neg (by simp [h])]
  dsimp only
  rw [hkey]
  by_cases hv : P.ed25519Verify session.edTheirs
      (xorFrom (P.keystream (deriveKeyInternal P session "Pair-Verify-AES-Key" 16)
        (deriveKeyInternal P session "Pair-Verify-AES-IV" 16)) 64 signature)
      (session.ecdhTheirs ++ P.x25519Public session.ecdhOurs) = true
  · rw [if_neg (by simp [hv])]
    exact ⟨fun _ => hv, fun _ => rfl⟩
  · rw [if_pos (by simpa using hv)]
    exact ⟨fun h0 => absurd (show (-2 : ℤ) = 0 from h0) (by decide), fun h1 => absurd h1 hv⟩

theorem pairingSessionHandshake_setup {session : PairingSession} (h : session.status = .setup)
    (ecdhKey edKey generated : Bytes) :
    (pairingSessionHandshake P session ecdhKey edKey generated).2.status = .handshake := by
  rw [pairingSessionHandshake, if_neg (by simp [h])]

/-! ## One request -/

/-- A request with a method and a `CSeq` header is answered by its handler. -/
theorem connRequest_handled {x : Exchange} {method : String} (hmethod : x.request.method = some method)
    (hcseq : httpRequestGetHeader x.request "CSeq" ≠ none) (conn : RaopConn) :
    ∃ response : HttpResponse, response.disconnect = false ∧
      let r := runHandler P others (selectHandler method x.request.url) conn x response
      connRequest P others conn x = (r.conn, some (httpResponseFinish r.response r.responseData)) := by
  obtain ⟨cseq, hcseq⟩ := Option.ne_none_iff_exists'.mp hcseq
  refine ⟨httpResponseAddHeader
    (httpResponseAddHeader (httpResponseInit "RTSP/1.0" 200 "OK") "CSeq" cseq) "Server"
    (ascii "AirTunes/220.68"), rfl, ?_⟩
  unfold connRequest
  rw [hmethod, hcseq]

theorem selectHandler_pairsetup :
    selectHandler "POST" (some (ascii "/pair-setup")) = some .pairsetup := by decide

theorem selectHandler_pairverify :
    selectHandler "POST" (some (ascii "/pair-verify")) = some .pairverify := by decide

theorem connRequest_pairsetup {x : Exchange} (h : IsPairSetup x) (conn : RaopConn) :
    (connRequest P others conn x).1.pairing.status = .setup := by
  obtain ⟨response, -, hr⟩ := connRequest_handled P others h.method h.cseq conn
  dsimp only at hr
  rw [hr, h.url, selectHandler_pairsetup]
  show (raopHandlerPairsetup P conn x.request response).conn.pairing.status = .setup
  rw [raopHandlerPairsetup, if_neg (by simp [h.length])]
  rfl

theorem connRequest_phaseOne {x : Exchange} (h : IsPhaseOne x) {conn : RaopConn}
    (hstatus : conn.pairing.status = .setup) :
    (connRequest P others conn x).1.pairing.status = .handshake := by
  obtain ⟨hpost, hbyte⟩ := h
  obtain ⟨response, -, hr⟩ := connRequest_handled P others hpost.method hpost.cseq conn
  have hgate : pairingSessionCheckHandshakeStatus conn.pairing = 0 := by
    rw [pairingSessionCheckHandshakeStatus, if_neg (by simp [hstatus])]
  have hlen := hpost.length
  dsimp only at hr
  rw [hr, hpost.url, selectHandler_pairverify]
  show (raopHandlerPairverify P conn x.request response x.generated).conn.pairing.status = _
  unfold raopHandlerPairverify
  dsimp only
  rw [if_neg (by simp [hgate]), if_neg (by omega), if_pos hbyte, if_neg (by simp [hlen, x25519KeySize])]
  exact pairingSessionHandshake_setup P hstatus _ _ _

/-- Once the session has left the state of pair-setup, pair-verify changes nothing and does not
disconnect. -/
theorem connRequest_pairverify_ignored {x : Exchange} {n : ℕ} (h : IsPost x "/pair-verify" n)
    (conn : RaopConn) (hstatus : conn.pairing.status ≠ .setup) :
    ∃ response, connRequest P others conn x = (conn, some response) ∧
      response.disconnect = false := by
  obtain ⟨response, hdis, hr⟩ := connRequest_handled P others h.method h.cseq conn
  dsimp only at hr
  rw [h.url, selectHandler_pairverify] at hr
  have hgate : pairingSessionCheckHandshakeStatus conn.pairing = -1 := by
    rw [pairingSessionCheckHandshakeStatus, if_pos hstatus]
  have hhandler : runHandler P others (some .pairverify) conn x response = ⟨conn, response, []⟩ := by
    show raopHandlerPairverify P conn x.request response x.generated = _
    rw [raopHandlerPairverify, if_pos (by rw [hgate]; decide)]
  rw [hhandler] at hr
  refine ⟨_, hr, ?_⟩
  rw [httpResponseFinish_disconnect]
  exact hdis

/-! ## Whole connections -/

theorem connRun_append (conn : RaopConn) (h1 h2 : List Exchange) :
    connRun P others conn (h1 ++ h2) = connRun P others (connRun P others conn h1) h2 := by
  simp [connRun]

/-- No request finishes the pairing. -/
theorem connRequest_unfinished {conn : RaopConn} (h : conn.pairing.status ≠ .finished)
    (x : Exchange) : (connRequest P others conn x).1.pairing.status ≠ .finished := by
  cases hmethod : x.request.method with
  | none => rwa [connRequest, hmethod]
  | some method =>
    by_cases hcseq : httpRequestGetHeader x.request "CSeq" = none
    · rwa [connRequest, hmethod, hcseq]
    · obtain ⟨response, -, hr⟩ := connRequest_handled P others hmethod hcseq conn
      dsimp only at hr
      rw [hr]
      generalize selectHandler method x.request.url = handler
      rcases handler with - | handler
      · exact h
      · cases handler with
        | pairsetup =>
          show (raopHandlerPairsetup P conn x.request response).conn.pairing.status ≠ _
          unfold raopHandlerPairsetup
          by_cases hlen : x.request.data.length ≠ 32
          · rwa [if_pos hlen]
          · rw [if_neg hlen]
            exact PairingStatus.noConfusion
        | pairverify =>
          show (raopHandlerPairverify P conn x.request response x.generated).conn.pairing.status ≠ _
          unfold raopHandlerPairverify
          by_cases hgate : conn.pairing.status = .setup
          · rw [pairingSessionCheckHandshakeStatus, if_neg (by simp [hgate])]
            dsimp only
            split_ifs
            · exact h
            · exact h
            · rw [pairingSessionHandshake_setup P hgate]
              exact PairingStatus.noConfusion
            · exact h
            · rw [pairingSessionFinish, if_pos (by simp [hgate])]
              exact h
            · rw [pairingSessionFinish, if_pos (by simp [hgate])]
              exact h
            · exact h
          · rw [pairingSessionCheckHandshakeStatus, if_pos hgate, if_pos (by decide)]
            exact h
        | info | fpsetup | options | setup | getParameter | setParameter | feedback | record
        | flush | teardown => exact h

theorem connRun_unfinished (raopPairing : Pairing) (history : List Exchange) :
    (connRun P others (raopConnInit raopPairing) history).pairing.status ≠ .finished := by
  have hinit : (raopConnInit raopPairing).pairing.status ≠ .finished := PairingStatus.noConfusion
  generalize raopConnInit raopPairing = conn at hinit ⊢
  induction history generalizing conn with
  | nil => exact hinit
  | cons x history ih => exact ih _ (connRequest_unfinished P others hinit x)

/-- After every history that ends in a pair-setup and a first phase, the second phase is not what
it should be, for every signature. -/
theorem pairVerify_not_sound (raopPairing : Pairing) (history : List Exchange)
    {setup phaseOne phaseTwo : Exchange} (hsetup : IsPairSetup setup) (hone : IsPhaseOne phaseOne)
    (htwo : IsPhaseTwo phaseTwo) :
    ¬ PairVerifySound P others
      (connRun P others (raopConnInit raopPairing) (history ++ [setup, phaseOne])) phaseTwo := by
  rw [connRun_append]
  generalize connRun P others (raopConnInit raopPairing) history = conn
  have hshake : (connRun P others conn [setup, phaseOne]).pairing.status = .handshake :=
    connRequest_phaseOne P others hone (connRequest_pairsetup P others hsetup conn)
  generalize connRun P others conn [setup, phaseOne] = conn at hshake ⊢
  obtain ⟨response, hr, hdis⟩ := connRequest_pairverify_ignored P others htwo.1
    conn (by rw [hshake]; decide)
  unfold PairVerifySound
  rw [hr]
  rintro ⟨-, hdisconnect⟩
  obtain ⟨response', h', hdis'⟩ := hdisconnect (by
    rintro ⟨hfinished, -⟩
    exact absurd (hshake.symm.trans hfinished) (by decide))
  cases h'
  rw [hdis] at hdis'
  cases hdis'

end

/-! The pairing of one client: setup, first phase, second phase. -/

def pairSetupExchange : Exchange where
  request :=
    { method := some "POST", url := some (ascii "/pair-setup"), headersIndex := 1,
      headers := [some (ascii "CSeq"), some (ascii "0")], data := List.replicate 32 0,
      complete := true }
  generated := []

def pairVerifyExchange (phase : UInt8) : Exchange where
  request :=
    { method := some "POST", url := some (ascii "/pair-verify"), headersIndex := 1,
      headers := [some (ascii "CSeq"), some (ascii "1")],
      data := phase :: List.replicate 67 0, complete := true }
  generated := List.replicate 32 1

theorem isPairSetup_exchange : IsPairSetup pairSetupExchange :=
  ⟨rfl, rfl, by decide, by simp [pairSetupExchange]⟩

theorem isPhaseOne_exchange : IsPhaseOne (pairVerifyExchange 1) :=
  ⟨⟨rfl, rfl, by decide, by simp [pairVerifyExchange]⟩, rfl⟩

theorem isPhaseTwo_exchange : IsPhaseTwo (pairVerifyExchange 0) :=
  ⟨⟨rfl, rfl, by decide, by simp [pairVerifyExchange]⟩, rfl⟩

theorem pairVerify_not_sound_exchange :
    ¬ PairVerifySound default (fun _ _ _ response => (response, []))
      (connRun default (fun _ _ _ response => (response, [])) (raopConnInit ⟨[]⟩)
        ([] ++ [pairSetupExchange, pairVerifyExchange 1])) (pairVerifyExchange 0) :=
  pairVerify_not_sound default _ ⟨[]⟩ [] isPairSetup_exchange isPhaseOne_exchange
    isPhaseTwo_exchange

/-- With a signature scheme that accepts the client's signature, its second phase should finish the
pairing, and does not. -/
theorem pairVerify_valid_unfinished :
    ¬ ∀ (P : Openssl) (others : RaopHandler → RaopConn → HttpRequest → HttpResponse →
      HttpResponse × Bytes) (raopPairing : Pairing) (history : List Exchange)
      (setup phaseOne phaseTwo : Exchange),
      IsPairSetup setup → IsPhaseOne phaseOne → IsPhaseTwo phaseTwo →
      PairVerifySound P others
        (connRun P others (raopConnInit raopPairing) (history ++ [setup, phaseOne])) phaseTwo := by
  intro h
  let P : Openssl := { (default : Openssl) with ed25519Verify := fun _ _ _ => true }
  let others : RaopHandler → RaopConn → HttpRequest → HttpResponse → HttpResponse × Bytes :=
    fun _ _ _ response => (response, [])
  obtain ⟨hiff, -⟩ := h P others ⟨[]⟩ [] _ _ _ isPairSetup_exchange isPhaseOne_exchange
    isPhaseTwo_exchange
  have hfinished := (hiff.mpr rfl).1
  rw [List.nil_append] at hfinished
  have hunfinished := connRun_unfinished P others ⟨[]⟩
    [pairSetupExchange, pairVerifyExchange 1, pairVerifyExchange 0]
  exact hunfinished hfinished

end WinAirPlay
