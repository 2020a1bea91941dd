import WinAirPlay.Raop.Handling

/-! # Which requests return

`conn_request` and the handlers return without a fault exactly when what the handler assumes of its
request and of the connection is so, and the pieces of the answer fit the response buffer.
-/

namespace WinAirPlay.Raop
open Foundations.ByteBuffer Foundations.CheckedMemory
set_option autoImplicit false

/-! ## The whole request -/

section
open ResponseBuffer

def headerPieces (headers : List (String × Bytes)) : List Bytes :=
  headers.flatMap fun header => (Call.addHeader (ascii header.1) header.2).pieces

theorem addHeaders_eq (garbage : ℕ → UInt8) (response : HttpResponseS)
    (headers : List (String × Bytes)) :
    addHeaders garbage response headers = addPieces garbage (headerPieces headers) response := by
  induction headers generalizing response with
  | nil => rfl
  | cons header headers ih =>
    have hcons : headerPieces (header :: headers) =
        (Call.addHeader (ascii header.1) header.2).pieces ++ headerPieces headers := rfl
    rw [hcons, addPieces_append, ← httpResponseAddHeader_eq, addHeaders, List.foldlM_cons]
    congr 1
    funext response'
    exact ih response'

def initPieces : List Bytes :=
  [ascii "RTSP/1.0", ascii " ", snprintf 4 200, ascii " ", ascii "OK", ascii "\r\n"]

def commonHeaders (cseq : Bytes) : List (String × Bytes) :=
  [("CSeq", cseq), ("Server", ascii "AirTunes/220.68")]

/-- The pieces of the whole response. -/
def answerPieces (cseq : Bytes) (answer : Answer) : List Bytes :=
  initPieces ++ (headerPieces (commonHeaders cseq) ++
    (headerPieces answer.1 ++ finishPieces answer.2))

variable (P : Openssl) (F : Playfair) (L : Libplist)

/-- A request that is answered meets what its handler assumes, and the answer fits the buffer. -/
def RequestReturns (conn : RaopConnS) (x : RaopExchange) : Prop :=
  ∀ method cseq, x.request.method = some method →
    WinAirPlay.httpRequestGetHeader x.request "CSeq" = some cseq →
      HandlerReturns P L (selectHandler method x.request.url) conn x ∧
        SizesFit 0 (sizes (answerPieces cseq
          (answerOf P F L (selectHandler method x.request.url) conn x)))

variable {P F L} {garbage : ℕ → UInt8} {conn : RaopConnS} {x : RaopExchange}

/-- The steps of a request that is answered. -/
theorem connRequest_answered (hx : Completed x.request) {method : String}
    (hmethod : x.request.method = some method) {cseq : Bytes}
    (hcseq : WinAirPlay.httpRequestGetHeader x.request "CSeq" = some cseq) :
    connRequest P F L garbage conn x =
      addPieces garbage initPieces (fresh garbage) >>= fun response =>
      addPieces garbage (headerPieces (commonHeaders cseq)) response >>= fun response =>
      runHandler P F L (selectHandler method x.request.url) conn x >>= fun o =>
      addPieces garbage (headerPieces o.headers) response >>= fun response =>
      ResponseBuffer.httpResponseFinish garbage { response with disconnect := o.disconnect } o.responseData
        (intOf (o.responseData.getD []).length) >>= fun response =>
      .ok (o.conn, some response, o.calls) := by
  have hurl : ¬ ((method = "GET" ∨ method = "POST") ∧ x.request.url = none) := fun hnone =>
    hx.url hnone.2
  have hinit := httpResponseInit_eq garbage (ascii "RTSP/1.0") (ascii "OK")
    (by decide : 100 ≤ 200 ∧ 200 < 1000)
  unfold connRequest
  rw [hx.header, ok_bind, hmethod, hcseq, hinit]
  simp only [if_neg hurl, addHeaders_eq]
  rw [initPieces, commonHeaders]

theorem connRequest_iff (hx : Completed x.request) (hremote : conn.remote.length = 4)
    (hkeymsg : conn.fairplay.keymsg.length = 164) :
    (∃ r, connRequest P F L garbage conn x = .ok r) ↔ RequestReturns P F L conn x := by
  constructor
  · rintro ⟨r, hr⟩ method cseq hmethod hcseq
    rw [connRequest_answered hx hmethod hcseq] at hr
    obtain ⟨response₀, h₀, hr⟩ := bind_eq_ok.mp hr
    obtain ⟨response₁, h₁, hr⟩ := bind_eq_ok.mp hr
    obtain ⟨o, ho, hr⟩ := bind_eq_ok.mp hr
    obtain ⟨response₂, h₂, hr⟩ := bind_eq_ok.mp hr
    obtain ⟨response₃, h₃, -⟩ := bind_eq_ok.mp hr
    have hreturns : HandlerReturns P L (selectHandler method x.request.url) conn x := by
      by_contra hnot
      exact not_faults_iff.mpr ⟨o, ho⟩ (runHandler_fault hx hkeymsg hnot)
    obtain ⟨o', ho', hanswer⟩ := @runHandler_ok P F L conn x hx hremote hkeymsg _ hreturns
    rw [ho] at ho'
    cases ho'
    obtain ⟨hfits₀, hsized₀⟩ := addPieces_ok (fresh_sized garbage) h₀
    obtain ⟨hfits₁, hsized₁⟩ := addPieces_ok hsized₀ h₁
    obtain ⟨hfits₂, hsized₂⟩ := addPieces_ok hsized₁ h₂
    have hfits₃ := httpResponseFinish_ok (hsized₂.disconnect o.disconnect) h₃
    refine ⟨hreturns, ?_⟩
    rw [← hanswer]
    simp only [answerPieces, sizes, List.map_append, sizesFit_append]
    exact ⟨hfits₀, hfits₁, hfits₂, hfits₃⟩
  · intro h
    cases hmethod : x.request.method with
    | none => exact absurd hmethod hx.method
    | some method =>
      cases hcseq : WinAirPlay.httpRequestGetHeader x.request "CSeq" with
      | none =>
        unfold connRequest
        rw [hx.header, ok_bind, hmethod, hcseq]
        exact ⟨_, rfl⟩
      | some cseq =>
        obtain ⟨hreturns, hfits⟩ := h method cseq hmethod hcseq
        obtain ⟨o, ho, hanswer⟩ := @runHandler_ok P F L conn x hx hremote hkeymsg _ hreturns
        rw [← hanswer] at hfits
        simp only [answerPieces, sizes, List.map_append, sizesFit_append] at hfits
        obtain ⟨hfits₀, hfits₁, hfits₂, hfits₃⟩ := hfits
        obtain ⟨response₀, h₀, hsized₀⟩ := addPieces_sized garbage (fresh_sized garbage) hfits₀
        obtain ⟨response₁, h₁, hsized₁⟩ := addPieces_sized garbage hsized₀ hfits₁
        obtain ⟨response₂, h₂, hsized₂⟩ := addPieces_sized garbage hsized₁ hfits₂
        obtain ⟨response₃, h₃⟩ :=
          httpResponseFinish_sized garbage (hsized₂.disconnect o.disconnect) hfits₃
        refine ⟨(o.conn, some response₃, o.calls), ?_⟩
        rw [connRequest_answered hx hmethod hcseq, h₀, ok_bind, h₁, ok_bind, ho, ok_bind, h₂,
          ok_bind, h₃, ok_bind]

/-- After every history a completed request returns if and only if it meets what its handler assumes
and its answer fits. -/
theorem requests_return_iff {raopPairing : Pairing} {remote : Bytes}
    (hremote : remote.length = 4) {history : List RaopExchange} {conn : RaopConnS}
    (hrun : connRun P F L garbage (connInit raopPairing remote) history = .ok conn)
    {x : RaopExchange} (hx : Completed x.request) :
    (∃ r, connRequest P F L garbage conn x = .ok r) ↔ RequestReturns P F L conn x := by
  obtain ⟨hclient, hsession⟩ := connRun_session hrun
  exact connRequest_iff hx (by rw [hclient]; exact hremote) hsession.length

/-- A message that arrives before the service is announced. -/
def plainExchange (message : HttpMessage) : RaopExchange where
  request := httpRequestOf message
  generated := []
  dnssd := none
  port := 7000
  rtpRunning := false
  timingLport := 0
  dataPort := fun _ => 0
  controlPort := fun _ => 0
  typeBefore := fun _ => 0

/-- No body is a property list here. -/
def noPlist : Libplist where
  fromBin := fun _ => none
  toBin := fun _ => []

def getVolume : RaopExchange := plainExchange {
  method := "GET_PARAMETER"
  url := ascii "rtsp://192.168.1.2/1"
  headers := [(ascii "CSeq", ascii "1"), (ascii "Content-Type", ascii "text/parameters")]
  body := ascii "volume\r\n" }

theorem requests_return_volume :
    ∃ r, connRequest default (fun _ _ _ => []) noPlist (fun _ => 0) (connInit ⟨[]⟩ [192, 168, 1, 7])
      getVolume = .ok r := by
  refine (@requests_return_iff default _ noPlist _ _ _ rfl [] _ rfl _
    (completed_httpRequestOf _)).mpr ?_
  intro method cseq hmethod hcseq
  cases hmethod
  have hone : cseq = ascii "1" := Option.some.inj (hcseq.symm.trans (by decide))
  have hhandler : selectHandler "GET_PARAMETER" getVolume.request.url = some .getParameter := by
    decide
  rw [hone]
  refine ⟨?_, sizesFit_of_short (le_refl 0) (by decide +kernel) (by decide +kernel)⟩
  show HandlerReturns _ _ (selectHandler "GET_PARAMETER" getVolume.request.url) _ _
  rw [hhandler]
  exact (by decide : WinAirPlay.httpRequestGetHeader getVolume.request "Content-Type" ≠ none)

/-- `GET_PARAMETER` without a `Content-Type`. -/
def getUntyped : RaopExchange := plainExchange {
  method := "GET_PARAMETER"
  url := ascii "rtsp://192.168.1.2/1"
  headers := [(ascii "CSeq", ascii "1")]
  body := [] }

/-- The handler passes `NULL` to `strcmp`. -/
theorem request_untyped_faults :
    ¬ ∃ r, connRequest default (fun _ _ _ => []) noPlist (fun _ => 0)
      (connInit ⟨[]⟩ [192, 168, 1, 7]) getUntyped = .ok r := by
  intro hreturns
  have hall := (@connRequest_iff default _ noPlist _ _ _ (completed_httpRequestOf _) rfl rfl).mp
    hreturns
  obtain ⟨htyped, -⟩ := hall "GET_PARAMETER" (ascii "1") rfl (by decide)
  have hhandler : selectHandler "GET_PARAMETER" getUntyped.request.url = some .getParameter := by
    decide
  rw [hhandler] at htyped
  exact htyped (by decide)

end

end WinAirPlay.Raop
