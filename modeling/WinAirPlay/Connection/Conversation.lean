import WinAirPlay.Http.Receive
import WinAirPlay.Raop.Requests

/-! # The conversation of a control connection

One connection of `httpd_thread` with the handlers behind it: `recv` and the parser in front,
`conn_request` on every request that is complete, and the loop that sends the response. Whatever the
chunks in which the bytes of the client arrive, its requests are handled one after the other, and it
is sent their replies in the same order.

What the handler finds beside the request is part of the result of `recv` that completes the
request, and so are the results of `send`.
-/

namespace WinAirPlay.Raop
open Foundations.ByteBuffer Foundations.CheckedMemory Foundations.Transition
set_option autoImplicit false

/-! ## One request after the other -/

section
variable (P : Openssl) (F : Playfair) (L : Libplist) (garbage : ℕ → UInt8)

/-- The pieces of the reply; without a method or a `CSeq` there is none. -/
def replyPieces (conn : RaopConnS) (x : RaopExchange) : List Bytes :=
  match x.request.method, WinAirPlay.httpRequestGetHeader x.request "CSeq" with
  | some method, some cseq =>
    answerPieces cseq (answerOf P F L (selectHandler method x.request.url) conn x)
  | _, _ => []

/-- The connection after a history of requests, the replies and the calls to the media sessions. -/
def serve (conn : RaopConnS) :
    List RaopExchange → Checked (RaopConnS × List (List Bytes) × List MediaCall)
  | [] => .ok (conn, [], [])
  | x :: history => do
    let (conn', _, calls) ← connRequest P F L garbage conn x
    let (last, replies, more) ← serve conn' history
    .ok (last, replyPieces P F L conn x :: replies, calls ++ more)

end

section
variable {P : Openssl} {F : Playfair} {L : Libplist} {garbage : ℕ → UInt8} {conn : RaopConnS}
  {x : RaopExchange} {history : List RaopExchange}

theorem serve_concat {replies : List (List Bytes)} {calls : List MediaCall} {last : RaopConnS}
    {r : RaopConnS × Option ResponseBuffer.HttpResponseS × List MediaCall}
    (h : serve P F L garbage conn history = .ok (last, replies, calls))
    (hr : connRequest P F L garbage last x = .ok r) :
    serve P F L garbage conn (history ++ [x]) =
      .ok (r.1, replies ++ [replyPieces P F L last x], calls ++ r.2.2) := by
  induction history generalizing conn replies calls with
  | nil =>
    cases h
    rw [List.nil_append, serve, hr, ok_bind]
    simp only [serve, ok_bind, List.append_nil, List.nil_append]
  | cons y history ih =>
    rw [serve] at h
    obtain ⟨first, hfirst, h⟩ := bind_eq_ok.mp h
    obtain ⟨rest, hrest, h⟩ := bind_eq_ok.mp h
    cases h
    rw [List.cons_append, serve, hfirst, ok_bind]
    dsimp only
    rw [ih hrest, ok_bind, List.append_assoc, List.cons_append]

theorem serve_connRun {r : RaopConnS × List (List Bytes) × List MediaCall}
    (h : serve P F L garbage conn history = .ok r) : connRun P F L garbage conn history = .ok r.1 := by
  induction history generalizing conn r with
  | nil =>
    cases h
    rfl
  | cons x history ih =>
    rw [serve] at h
    obtain ⟨first, hfirst, h⟩ := bind_eq_ok.mp h
    obtain ⟨rest, hrest, h⟩ := bind_eq_ok.mp h
    cases h
    rw [connRun, List.foldlM_cons, hfirst, ok_bind, ok_bind]
    exact ih (r := rest) hrest

/-! ## The text of a reply -/

open ResponseBuffer

/-- The bytes of a finished response can be read, and they are the pieces of the reply if an `int`
counts each of these. -/
theorem connRequest_text (hx : Completed x.request) (hremote : conn.remote.length = 4)
    (hkeymsg : conn.fairplay.keymsg.length = 164)
    {r : RaopConnS × Option HttpResponseS × List MediaCall}
    (hr : connRequest P F L garbage conn x = .ok r) :
    (r.2.1 = none ∧ replyPieces P F L conn x = []) ∨
      ∃ response text, r.2.1 = some response ∧
        httpResponseGetData response = .ok (response.data, response.dataLength) ∧
        readRange response.data 0 response.dataLength = .ok text ∧
        ((∀ piece ∈ replyPieces P F L conn x, piece.length < 2 ^ 31) →
          text = (replyPieces P F L conn x).flatten) := by
  cases hmethod : x.request.method with
  | none => exact absurd hmethod hx.method
  | some method =>
    cases hcseq : WinAirPlay.httpRequestGetHeader x.request "CSeq" with
    | none =>
      unfold connRequest at hr
      rw [hx.header, ok_bind, hmethod, hcseq] at hr
      cases hr
      refine .inl ⟨rfl, ?_⟩
      unfold replyPieces
      rw [hmethod, hcseq]
    | some cseq =>
      have hreturns := (connRequest_iff hx hremote hkeymsg).mp ⟨r, hr⟩ method cseq hmethod hcseq
      obtain ⟨o', ho', hanswer⟩ := @runHandler_ok P F L conn x hx hremote hkeymsg _ hreturns.1
      rw [connRequest_answered hx hmethod hcseq] at hr
      obtain ⟨response₀, h₀, hr⟩ := bind_eq_ok.mp hr
      obtain ⟨response₁, h₁, hr⟩ := bind_eq_ok.mp hr
      obtain ⟨o, ho, hr⟩ := bind_eq_ok.mp hr
      obtain ⟨response₂, h₂, hr⟩ := bind_eq_ok.mp hr
      obtain ⟨response, h₃, hr⟩ := bind_eq_ok.mp hr
      obtain rfl : o = o' := Except.ok.inj (ho.symm.trans ho')
      cases hr
      obtain ⟨r, hfinish, rfl⟩ := httpResponseFinish_pieces h₃
      obtain ⟨hnonneg, hcovered⟩ := addPieces_covered (finishPieces_ne_nil _) hfinish
      obtain ⟨n, hn⟩ := Int.eq_ofNat_of_zero_le hnonneg
      have hwithin : 0 + n ≤ r.data.length := by omega
      have hpieces : replyPieces P F L conn x = answerPieces cseq (o.headers, o.responseData) := by
        unfold replyPieces
        rw [hmethod, hcseq]
        dsimp only
        rw [← hanswer]
      refine .inr ⟨_, slice r.data 0 n, rfl, rfl, readRange_eq rfl hn hwithin, fun hshort => ?_⟩
      rw [hpieces] at hshort ⊢
      simp only [answerPieces, List.forall_mem_append] at hshort
      obtain ⟨hinit, hcommon, hheaders, hbody⟩ := hshort
      have hholds₁ := addPieces_holds (addPieces_holds (fresh_holds garbage) hinit h₀) hcommon h₁
      have hholds₂ := addPieces_holds hholds₁ hheaders h₂
      have hholds := addPieces_holds
        (⟨hholds₂.dataSize, hholds₂.dataLength, hholds₂.covered, hholds₂.text⟩ :
          ResponseBuffer.Holds { response₂ with disconnect := o.disconnect } _) hbody hfinish
      have hflatten : ((([] ++ initPieces) ++ headerPieces (commonHeaders cseq)) ++
          headerPieces o.headers) ++ finishPieces o.responseData =
            answerPieces cseq (o.headers, o.responseData) := by
        simp only [answerPieces, List.nil_append, List.append_assoc]
      rw [hflatten] at hholds
      have hlength := hholds.dataLength
      have htext := hholds.text
      rw [hn] at hlength
      obtain rfl : n = _ := Int.ofNat.inj hlength
      exact htext

end

/-! ## The connection -/

inductive SendResult
  | failed
  /-- `send` has taken the first `n` bytes. -/
  | sent (n : ℕ)

/-- The loop over `send`: what has been sent when it is left, none if the results are not those of the
loop. -/
def sendResponse : Bytes → List SendResult → Option Bytes
  | data, [] => if data = [] then some [] else none
  | data, .failed :: results => if data ≠ [] ∧ results.isEmpty then some [] else none
  | data, .sent n :: results =>
    if data ≠ [] ∧ n ≤ data.length then
      (sendResponse (data.drop n) results).map (data.take n ++ ·)
    else none

/-- A result of `recv`. `found` is what the handler finds beside the request if the chunk completes
one, and `sends` are the results of `send` for the response. -/
inductive ControlRecv
  | data (chunk : Bytes) (found : RaopExchange) (sends : List SendResult)
  | error (memory : ℕ → UInt8) (found : RaopExchange) (sends : List SendResult)
  | closed

structure ControlConnection (H : Llhttp) where
  http : HttpConnection H
  conn : RaopConnS
  /-- The bytes that the client has been sent, the calls to the media sessions and whether a handler has
  faulted; the source does not keep these. -/
  sent : Bytes
  calls : List MediaCall
  crashed : Bool

def controlInit (H : Llhttp) (conn : RaopConnS) : ControlConnection H where
  http := httpConnectionInit H
  conn := conn
  sent := []
  calls := []
  crashed := false

section
variable (P : Openssl) (F : Playfair) (L : Libplist) (garbage : ℕ → UInt8) {H : Llhttp}

/-- `conn_request`, and the bytes of the response with what it asks for. -/
def controlRequest (conn : RaopConnS) (x : RaopExchange) :
    Checked (RaopConnS × List MediaCall × Option (Bytes × Bool)) := do
  let (conn', response, calls) ← connRequest P F L garbage conn x
  match response with
  | none => .ok (conn', calls, none)
  | some response =>
    let (data, datalen) ← ResponseBuffer.httpResponseGetData response
    let text ← readRange data 0 datalen
    .ok (conn', calls, some (text, response.disconnect))

/-- The rest of the loop body once `recv` has not returned 0; the exchange that is handled is the
event. -/
def controlHandleData (c : ControlConnection H) (data : Bytes) (found : RaopExchange)
    (sends : List SendResult) : Option (ControlConnection H × List RaopExchange) :=
  match (httpdHandleData c.http data false).2 with
  | [] =>
    if sends.isEmpty then some ({ c with http := (httpdHandleData c.http data false).1 }, []) else none
  | request :: _ =>
    let x := { found with request := request }
    match controlRequest P F L garbage c.conn x with
    | .error _ =>
      if sends.isEmpty then
        some ({ c with http := (httpdHandleData c.http data false).1, crashed := true }, [x])
      else none
    | .ok (conn, calls, none) =>
      if sends.isEmpty then
        some ({ c with
          http := (httpdHandleData c.http data false).1
          conn := conn
          calls := c.calls ++ calls }, [x])
      else none
    | .ok (conn, calls, some (text, disconnect)) =>
      (sendResponse text sends).map fun sent =>
        ({ c with
          http := (httpdHandleData c.http data disconnect).1
          conn := conn
          calls := c.calls ++ calls
          sent := c.sent ++ sent }, [x])

def controlStep (c : ControlConnection H) :
    ControlRecv → Option (ControlConnection H × List RaopExchange)
  | .data chunk found sends =>
    if c.crashed = false ∧ c.http.connected ∧ chunk ≠ [] ∧ chunk.length ≤ 1024 then
      controlHandleData P F L garbage
        { c with http := { c.http with received := c.http.received ++ chunk } } chunk found sends
    else none
  | .error memory found sends =>
    if c.crashed = false ∧ c.http.connected then
      controlHandleData P F L garbage { c with http := { c.http with failed := true } }
        (sizeMaxBytes memory) found sends
    else none
  | .closed =>
    if c.crashed = false ∧ c.http.connected then
      some ({ c with http := httpdRemoveConnection c.http }, [])
    else none

end

/-! ## What a step does -/

def ControlRecv.toHttp (disconnect : Bool) : ControlRecv → HttpRecv
  | .data chunk _ _ => .data chunk disconnect
  | .error memory _ _ => .error memory disconnect
  | .closed => .closed

def ControlRecv.sends : ControlRecv → List SendResult
  | .data _ _ sends => sends
  | .error _ _ sends => sends
  | .closed => []

def NoFailure (sends : List SendResult) : Prop := ∀ result ∈ sends, result ≠ .failed

theorem sendResponse_prefix {text part : Bytes} {sends : List SendResult}
    (h : sendResponse text sends = some part) :
    part <+: text ∧ (NoFailure sends → part = text) := by
  induction sends generalizing text part with
  | nil =>
    rw [sendResponse, Option.ite_none_right_eq_some] at h
    obtain ⟨rfl, hpart⟩ := h
    cases hpart
    exact ⟨List.prefix_refl _, fun _ => rfl⟩
  | cons result sends ih =>
    cases result with
    | failed =>
      rw [sendResponse, Option.ite_none_right_eq_some] at h
      cases h.2
      exact ⟨List.nil_prefix, fun hall => absurd rfl (hall _ List.mem_cons_self)⟩
    | sent n =>
      rw [sendResponse, Option.ite_none_right_eq_some, Option.map_eq_some_iff] at h
      obtain ⟨-, rest, hrest, rfl⟩ := h
      obtain ⟨hsofar, hwhole⟩ := ih hrest
      refine ⟨?_, fun hall => ?_⟩
      · calc text.take n ++ rest <+: text.take n ++ text.drop n :=
              (List.prefix_append_right_inj _).mpr hsofar
          _ = text := List.take_append_drop n text
      · rw [hwhole fun result hresult => hall result (List.mem_cons_of_mem _ hresult),
          List.take_append_drop]

/-- What has been sent of a reply when the next request is awaited. -/
def sendReply (reply : Option (Bytes × Bool)) (sends : List SendResult) : Option Bytes :=
  match reply with
  | none => if sends.isEmpty then some [] else none
  | some (text, _) => sendResponse text sends

/-- Whether the reply asks for the end of the connection. -/
def asksToClose (reply : Option (Bytes × Bool)) : Bool := reply.any fun r => r.2

section
variable {P : Openssl} {F : Playfair} {L : Libplist} {garbage : ℕ → UInt8} {H : Llhttp}

/-- What handling `x` leaves of `c`, besides the receiving side. -/
inductive Handles (P : Openssl) (F : Playfair) (L : Libplist) (garbage : ℕ → UInt8)
    (c : ControlConnection H) (x : RaopExchange) (sends : List SendResult) :
    Bool → ControlConnection H → Prop
  | faulted (http : HttpConnection H) (hfault : Faults (controlRequest P F L garbage c.conn x)) :
      Handles P F L garbage c x sends false { c with http := http, crashed := true }
  | replied (http : HttpConnection H) {conn : RaopConnS} {calls : List MediaCall}
      {reply : Option (Bytes × Bool)} {part : Bytes}
      (hrequest : controlRequest P F L garbage c.conn x = .ok (conn, calls, reply))
      (hsend : sendReply reply sends = some part) :
      Handles P F L garbage c x sends (asksToClose reply)
        { c with http := http, conn := conn, calls := c.calls ++ calls, sent := c.sent ++ part }

/-- Either nothing but the receiving side has changed, or one request has been handled. -/
def Effect (P : Openssl) (F : Playfair) (L : Libplist) (garbage : ℕ → UInt8)
    (c : ControlConnection H) (sends : List SendResult) (disconnect : Bool)
    (r : ControlConnection H × List RaopExchange) : Prop :=
  (r.2 = [] ∧ r.1 = { c with http := r.1.http }) ∨
    ∃ x, r.2 = [x] ∧ Handles P F L garbage c x sends disconnect r.1

theorem Handles.of_http {c c' : ControlConnection H} {http : HttpConnection H} {x : RaopExchange}
    {sends : List SendResult} {disconnect : Bool}
    (h : Handles P F L garbage { c with http := http } x sends disconnect c') :
    Handles P F L garbage c x sends disconnect c' := by
  cases h with
  | faulted http' hfault => exact .faulted http' hfault
  | replied http' hrequest hsend => exact .replied http' hrequest hsend

theorem Effect.of_http {c : ControlConnection H} {http : HttpConnection H} {sends : List SendResult}
    {disconnect : Bool} {r : ControlConnection H × List RaopExchange}
    (h : Effect P F L garbage { c with http := http } sends disconnect r) :
    Effect P F L garbage c sends disconnect r := by
  rcases h with h | ⟨x, hx, hhandles⟩
  · exact .inl h
  · exact .inr ⟨x, hx, hhandles.of_http⟩

theorem httpdHandleData_disconnect (c : HttpConnection H) (data : Bytes) (disconnect : Bool) :
    (httpdHandleData c data disconnect).2 = (httpdHandleData c data false).2 := by
  simp only [httpdHandleData]
  split
  · rfl
  split
  · rfl
  · rfl

theorem controlHandleData_cases {c : ControlConnection H} {data : Bytes} {found : RaopExchange}
    {sends : List SendResult} {r : ControlConnection H × List RaopExchange}
    (h : controlHandleData P F L garbage c data found sends = some r) :
    ∃ disconnect, httpdHandleData c.http data disconnect = (r.1.http, r.2.map fun x => x.request) ∧
      Effect P F L garbage c sends disconnect r := by
  have hone := (httpdHandleData_handed c.http data false).2.2
  have hevents := httpdHandleData_disconnect c.http data
  have hpair : ∀ disconnect, httpdHandleData c.http data disconnect =
      ((httpdHandleData c.http data disconnect).1, (httpdHandleData c.http data false).2) :=
    fun disconnect => Prod.ext rfl (hevents disconnect)
  unfold controlHandleData at h
  cases hpassed : (httpdHandleData c.http data false).2 with
  | nil =>
    simp only [hpassed, Option.ite_none_right_eq_some, Option.some.injEq] at h
    obtain ⟨-, rfl⟩ := h
    exact ⟨false, Prod.ext rfl hpassed, .inl ⟨rfl, rfl⟩⟩
  | cons request others =>
    obtain rfl : others = [] := by
      rw [hpassed, List.length_cons] at hone
      exact List.length_eq_zero_iff.mp (by omega)
    simp only [hpassed] at h hpair
    cases hrequest : controlRequest P F L garbage c.conn { found with request := request } with
    | error e =>
      simp only [hrequest, Option.ite_none_right_eq_some, Option.some.injEq] at h
      obtain ⟨-, rfl⟩ := h
      exact ⟨false, hpair false, .inr ⟨_, rfl, .faulted _ ⟨e, hrequest⟩⟩⟩
    | ok o =>
      obtain ⟨conn, calls, reply⟩ := o
      cases reply with
      | none =>
        simp only [hrequest, Option.ite_none_right_eq_some, Option.some.injEq] at h
        obtain ⟨hsends, rfl⟩ := h
        have hhandles := Handles.replied (httpdHandleData c.http data false).1 hrequest
          (if_pos hsends : sendReply none sends = some [])
        rw [List.append_nil] at hhandles
        exact ⟨false, hpair false, .inr ⟨_, rfl, hhandles⟩⟩
      | some reply =>
        obtain ⟨text, disconnect⟩ := reply
        simp only [hrequest, Option.map_eq_some_iff] at h
        obtain ⟨part, hsend, rfl⟩ := h
        exact ⟨disconnect, hpair disconnect, .inr ⟨_, rfl, .replied _ hrequest hsend⟩⟩

/-- A step is one of the receive loop, and either nothing else happens or one request is handled. -/
theorem controlStep_cases {c : ControlConnection H} {result : ControlRecv}
    {r : ControlConnection H × List RaopExchange}
    (h : controlStep P F L garbage c result = some r) :
    c.crashed = false ∧ c.http.connected = true ∧
      ∃ disconnect, httpdStep H c.http (result.toHttp disconnect) =
          some (r.1.http, r.2.map fun x => x.request) ∧
        Effect P F L garbage c result.sends disconnect r := by
  cases result with
  | data chunk found sends =>
    simp only [controlStep, Option.ite_none_right_eq_some] at h
    obtain ⟨⟨hcrashed, hlegal⟩, h⟩ := h
    obtain ⟨disconnect, hhttp, heffect⟩ := controlHandleData_cases h
    refine ⟨hcrashed, hlegal.1, disconnect, ?_, heffect.of_http⟩
    rw [ControlRecv.toHttp, httpdStep, if_pos hlegal, hhttp]
  | error memory found sends =>
    simp only [controlStep, Option.ite_none_right_eq_some] at h
    obtain ⟨⟨hcrashed, hlegal⟩, h⟩ := h
    obtain ⟨disconnect, hhttp, heffect⟩ := controlHandleData_cases h
    refine ⟨hcrashed, hlegal, disconnect, ?_, heffect.of_http⟩
    rw [ControlRecv.toHttp, httpdStep, if_pos hlegal, hhttp]
  | closed =>
    simp only [controlStep, Option.ite_none_right_eq_some, Option.some.injEq] at h
    obtain ⟨⟨hcrashed, hconnected⟩, rfl⟩ := h
    exact ⟨hcrashed, hconnected, false, by rw [ControlRecv.toHttp, httpdStep, if_pos hconnected]; rfl,
      .inl ⟨rfl, rfl⟩⟩

theorem received_controlStep {c : ControlConnection H} {chunk : Bytes} {found : RaopExchange}
    {sends : List SendResult} {r : ControlConnection H × List RaopExchange}
    (h : controlStep P F L garbage c (.data chunk found sends) = some r) :
    r.1.http.received = c.http.received ++ chunk := by
  obtain ⟨-, -, disconnect, hhttp, -⟩ := controlStep_cases h
  simp only [ControlRecv.toHttp, httpdStep, Option.ite_none_right_eq_some, Option.some.injEq] at hhttp
  obtain ⟨-, hhttp⟩ := hhttp
  have hreceived := (httpdHandleData_handed { c.http with received := c.http.received ++ chunk } chunk
    disconnect).2.1
  rwa [hhttp] at hreceived

/-! ## Every run -/

/-- `reply` is what a request is answered with, if an `int` counts each of the pieces. -/
def ReplyRight (pieces : List Bytes) : Option (Bytes × Bool) → Prop
  | none => pieces = []
  | some (text, _) => (∀ piece ∈ pieces, piece.length < 2 ^ 31) → text = pieces.flatten

/-- The client has been sent a part of the reply, and the whole if no `send` failed. -/
def SentFor (noFailure : Prop) (part : Bytes) (pieces : List Bytes) : Prop :=
  (∀ piece ∈ pieces, piece.length < 2 ^ 31) →
    part <+: pieces.flatten ∧ (noFailure → part = pieces.flatten)

/-- The connection is as if the requests had been handled one after the other, and the client has been
sent the replies in this order. -/
def Served (P : Openssl) (F : Playfair) (L : Libplist) (garbage : ℕ → UInt8) (conn₀ : RaopConnS)
    (noFailure : Prop) (history : List RaopExchange) (c : ControlConnection H) : Prop :=
  ∃ replies parts, serve P F L garbage conn₀ history = .ok (c.conn, replies, c.calls) ∧
    c.sent = parts.flatten ∧ List.Forall₂ (SentFor noFailure) parts replies

/-- As long as no handler faults everything is served, and afterwards everything but the last
request, which does not return. -/
structure Conversation (P : Openssl) (F : Playfair) (L : Libplist) (garbage : ℕ → UInt8)
    (conn₀ : RaopConnS) (noFailure : Prop) (history : List RaopExchange) (c : ControlConnection H) :
    Prop where
  alive : c.crashed = false → Served P F L garbage conn₀ noFailure history c
  crashed : c.crashed = true → ∃ before x, history = before ++ [x] ∧
    Served P F L garbage conn₀ noFailure before c ∧ ¬ RequestReturns P F L c.conn x

/-- The response to the last request asked for the end of the connection. -/
def ClosedByReply (P : Openssl) (F : Playfair) (L : Libplist) (garbage : ℕ → UInt8)
    (conn₀ : RaopConnS) (history : List RaopExchange) : Prop :=
  ∃ before x r o response, history = before ++ [x] ∧ serve P F L garbage conn₀ before = .ok r ∧
    connRequest P F L garbage r.1 x = .ok o ∧ o.2.1 = some response ∧ response.disconnect = true

theorem not_closedByReply_nil {conn₀ : RaopConnS} : ¬ ClosedByReply P F L garbage conn₀ [] := by
  rintro ⟨before, x, -, -, -, h, -⟩
  simp at h

/-- The last request is the one that was handled with the connection left by those before it. -/
theorem closedByReply_concat {conn₀ : RaopConnS} {history : List RaopExchange} {x : RaopExchange}
    {r : RaopConnS × List (List Bytes) × List MediaCall}
    (hserve : serve P F L garbage conn₀ history = .ok r) :
    ClosedByReply P F L garbage conn₀ (history ++ [x]) ↔
      ∃ o response, connRequest P F L garbage r.1 x = .ok o ∧ o.2.1 = some response ∧
        response.disconnect = true := by
  constructor
  · rintro ⟨before, y, r', o, response, hlast, hserve', ho, hresponse, hdisconnect⟩
    obtain ⟨rfl, rfl⟩ : history = before ∧ x = y := by simpa using hlast
    obtain rfl : r = r' := Except.ok.inj (hserve.symm.trans hserve')
    exact ⟨o, response, ho, hresponse, hdisconnect⟩
  · rintro ⟨o, response, ho, hresponse, hdisconnect⟩
    exact ⟨history, x, r, o, response, rfl, hserve, ho, hresponse, hdisconnect⟩

theorem Served.mono {conn₀ : RaopConnS} {noFailure noFailure' : Prop} {history : List RaopExchange}
    {c : ControlConnection H} (h : Served P F L garbage conn₀ noFailure history c)
    (himp : noFailure' → noFailure) : Served P F L garbage conn₀ noFailure' history c := by
  obtain ⟨replies, parts, hserve, hsent, hparts⟩ := h
  refine ⟨replies, parts, hserve, hsent, hparts.imp fun part pieces hpart hshort => ?_⟩
  exact ⟨(hpart hshort).1, fun h' => (hpart hshort).2 (himp h')⟩

theorem Served.of_http {conn₀ : RaopConnS} {noFailure : Prop} {history : List RaopExchange}
    {c : ControlConnection H} (h : Served P F L garbage conn₀ noFailure history c)
    (http : HttpConnection H) (crashed : Bool) :
    Served P F L garbage conn₀ noFailure history { c with http := http, crashed := crashed } := h

/-- What `conn_request` gives for a request that returns; a request that faults does not return. -/
theorem controlRequest_spec {conn : RaopConnS} {x : RaopExchange} (hx : Completed x.request)
    (hremote : conn.remote.length = 4) (hkeymsg : conn.fairplay.keymsg.length = 164) :
    (Faults (controlRequest P F L garbage conn x) ∧ ¬ RequestReturns P F L conn x) ∨
      ∃ r reply, connRequest P F L garbage conn x = .ok r ∧
        controlRequest P F L garbage conn x = .ok (r.1, r.2.2, reply) ∧
        ReplyRight (replyPieces P F L conn x) reply ∧
        (asksToClose reply = true ↔ ∃ response, r.2.1 = some response ∧ response.disconnect = true) := by
  cases hr : connRequest P F L garbage conn x with
  | error e =>
    refine .inl ⟨⟨e, by rw [controlRequest, hr, error_bind]⟩, fun hreturns => ?_⟩
    obtain ⟨r, hok⟩ := (connRequest_iff hx hremote hkeymsg).mpr hreturns
    exact absurd (hr.symm.trans hok) (by simp)
  | ok r =>
    refine .inr ⟨r, ?_⟩
    rcases connRequest_text hx hremote hkeymsg hr with
      ⟨hnone, hpieces⟩ | ⟨response, text, hsome, hdata, hread, htext⟩
    · exact ⟨none, rfl, by simp only [controlRequest, hr, ok_bind, hnone], hpieces,
        by simp [asksToClose, hnone]⟩
    · refine ⟨some (text, response.disconnect), rfl, ?_, htext, by simp [asksToClose, hsome]⟩
      simp only [controlRequest, hr, ok_bind, hsome, hdata, hread]

theorem sentFor_sendReply {pieces : List Bytes} {reply : Option (Bytes × Bool)}
    {sends : List SendResult} {part : Bytes} (hreply : ReplyRight pieces reply)
    (hsend : sendReply reply sends = some part) : SentFor (NoFailure sends) part pieces := by
  intro hshort
  cases reply with
  | none =>
    obtain rfl : pieces = [] := hreply
    rw [sendReply, Option.ite_none_right_eq_some] at hsend
    cases hsend.2
    exact ⟨List.prefix_refl _, fun _ => rfl⟩
  | some reply =>
    obtain ⟨text, disconnect⟩ := reply
    obtain rfl : text = pieces.flatten := hreply hshort
    exact sendResponse_prefix hsend

theorem Served.concat {conn₀ : RaopConnS} {noFailure : Prop} {history : List RaopExchange}
    {c : ControlConnection H} (h : Served P F L garbage conn₀ noFailure history c)
    {x : RaopExchange} {r : RaopConnS × Option ResponseBuffer.HttpResponseS × List MediaCall}
    (hr : connRequest P F L garbage c.conn x = .ok r) {part : Bytes}
    (hpart : SentFor noFailure part (replyPieces P F L c.conn x)) (http : HttpConnection H) :
    Served P F L garbage conn₀ noFailure (history ++ [x])
      { c with http := http, conn := r.1, calls := c.calls ++ r.2.2, sent := c.sent ++ part } := by
  obtain ⟨replies, parts, hserve, hsent, hparts⟩ := h
  refine ⟨replies ++ [replyPieces P F L c.conn x], parts ++ [part], serve_concat hserve hr, ?_, ?_⟩
  · show c.sent ++ part = _
    rw [List.flatten_append, hsent, List.flatten_singleton]
  · exact List.rel_append hparts (.cons hpart .nil)

theorem Served.request_spec {raopPairing : Pairing} {remote : Bytes} (hremote : remote.length = 4)
    {noFailure : Prop} {history : List RaopExchange} {c : ControlConnection H}
    (h : Served P F L garbage (connInit raopPairing remote) noFailure history c) {x : RaopExchange}
    (hx : Completed x.request) :
    (Faults (controlRequest P F L garbage c.conn x) ∧ ¬ RequestReturns P F L c.conn x) ∨
      ∃ r reply, connRequest P F L garbage c.conn x = .ok r ∧
        controlRequest P F L garbage c.conn x = .ok (r.1, r.2.2, reply) ∧
        ReplyRight (replyPieces P F L c.conn x) reply ∧
        (asksToClose reply = true ↔ ∃ response, r.2.1 = some response ∧ response.disconnect = true) := by
  obtain ⟨replies, parts, hserve, -, -⟩ := h
  obtain ⟨hclient, hsession⟩ := connRun_session (serve_connRun hserve)
  exact controlRequest_spec hx (by rw [hclient]; exact hremote) hsession.length

def sendsOf (results : List ControlRecv) : List SendResult := results.flatMap ControlRecv.sends

theorem conversation_step {raopPairing : Pairing} {remote : Bytes} (hremote : remote.length = 4)
    {results : List ControlRecv} {result : ControlRecv} {history : List RaopExchange}
    {c : ControlConnection H} {r : ControlConnection H × List RaopExchange}
    (h : Conversation P F L garbage (connInit raopPairing remote) (NoFailure (sendsOf results)) history c)
    (hcrashed : c.crashed = false) (hcompleted : ∀ x ∈ r.2, Completed x.request)
    {disconnect : Bool} (heffect : Effect P F L garbage c result.sends disconnect r) :
    Conversation P F L garbage (connInit raopPairing remote)
      (NoFailure (sendsOf (results ++ [result]))) (history ++ r.2) r.1 := by
  have hsends : sendsOf (results ++ [result]) = sendsOf results ++ result.sends := by
    simp [sendsOf]
  have hserved : Served P F L garbage (connInit raopPairing remote)
      (NoFailure (sendsOf (results ++ [result]))) history c :=
    (h.alive hcrashed).mono fun hall send hsend =>
      hall send (by rw [hsends]; exact List.mem_append_left _ hsend)
  obtain ⟨next, handled⟩ := r
  rcases heffect with ⟨hnone, hsame⟩ | ⟨x, hx, hhandles⟩
  · obtain rfl : handled = [] := hnone
    dsimp only at hsame ⊢
    have hflag : next.crashed = false := (congrArg ControlConnection.crashed hsame).trans hcrashed
    rw [List.append_nil]
    refine ⟨fun _ => ?_, fun hnext => absurd (hflag.symm.trans hnext) (by decide)⟩
    rw [hsame]
    exact hserved.of_http next.http c.crashed
  · obtain rfl : handled = [x] := hx
    have hspec := hserved.request_spec hremote (hcompleted x List.mem_cons_self)
    cases hhandles with
    | faulted http hfault =>
      refine ⟨nofun, fun _ => ⟨history, x, rfl, hserved.of_http http true, ?_⟩⟩
      rcases hspec with ⟨-, hnot⟩ | ⟨r, reply, -, hrequest, -, -⟩
      · exact hnot
      · exact absurd hfault (not_faults_iff.mpr ⟨_, hrequest⟩)
    | @replied http conn calls reply part hrequest hsend =>
      refine ⟨fun _ => ?_, fun hnext => absurd (hcrashed.symm.trans hnext) (by decide)⟩
      rcases hspec with ⟨hfault, -⟩ | ⟨r, reply', hr, hrequest', hreply, -⟩
      · exact absurd hfault (not_faults_iff.mpr ⟨_, hrequest⟩)
      · obtain ⟨rfl, rfl, rfl⟩ : conn = r.1 ∧ calls = r.2.2 ∧ reply = reply' := by
          simpa using hrequest.symm.trans hrequest'
        refine hserved.concat hr (fun hshort => ?_) http
        obtain ⟨hsofar, hwhole⟩ := sentFor_sendReply hreply hsend hshort
        refine ⟨hsofar, fun hall => hwhole fun send hmem => hall send ?_⟩
        rw [hsends]
        exact List.mem_append_right _ hmem

/-- The response to the request that is handled is the last one. -/
theorem closedByReply_handled {raopPairing : Pairing} {remote : Bytes} (hremote : remote.length = 4)
    {noFailure : Prop} {history : List RaopExchange} {c c' : ControlConnection H} {x : RaopExchange}
    {sends : List SendResult} {disconnect : Bool}
    (h : Served P F L garbage (connInit raopPairing remote) noFailure history c)
    (hx : Completed x.request) (hhandles : Handles P F L garbage c x sends disconnect c') :
    ClosedByReply P F L garbage (connInit raopPairing remote) (history ++ [x]) ↔ disconnect = true := by
  have hspec := h.request_spec hremote hx
  obtain ⟨replies, parts, hserve, -, -⟩ := h
  rw [closedByReply_concat hserve]
  cases hhandles with
  | faulted http hfault =>
    refine ⟨?_, fun h => absurd h Bool.false_ne_true⟩
    rintro ⟨o, response, ho, -, -⟩
    rcases hspec with ⟨-, hnot⟩ | ⟨r, reply, -, hrequest, -, -⟩
    · obtain ⟨hclient, hsession⟩ := connRun_session (serve_connRun hserve)
      exact absurd ((connRequest_iff hx (by rw [hclient]; exact hremote) hsession.length).mp ⟨o, ho⟩) hnot
    · exact absurd hfault (not_faults_iff.mpr ⟨_, hrequest⟩)
  | @replied http conn calls reply part hrequest hsend =>
    rcases hspec with ⟨hfault, -⟩ | ⟨r, reply', hr, hrequest', -, hasks⟩
    · exact absurd hfault (not_faults_iff.mpr ⟨_, hrequest⟩)
    · obtain ⟨rfl, rfl, rfl⟩ : conn = r.1 ∧ calls = r.2.2 ∧ reply = reply' := by
        simpa using hrequest.symm.trans hrequest'
      rw [hasks]
      constructor
      · rintro ⟨o, response, ho, hresponse, hdisconnect⟩
        obtain rfl : r = o := Except.ok.inj (hr.symm.trans ho)
        exact ⟨response, hresponse, hdisconnect⟩
      · rintro ⟨response, hresponse, hdisconnect⟩
        exact ⟨r, response, hr, hresponse, hdisconnect⟩

/-- The connection is open before the step, so neither end has come before. -/
theorem closing_step {conn₀ : RaopConnS} {results : List ControlRecv} {result : ControlRecv}
    {history : List RaopExchange} {c : ControlConnection H}
    {r : ControlConnection H × List RaopExchange} {disconnect : Bool} (hopen : c.http.connected = true)
    (hends : c.http.connected = false ↔
      ControlRecv.closed ∈ results ∨ ClosedByReply P F L garbage conn₀ history)
    (hcloses : r.1.http.connected = false ↔
      (result.toHttp disconnect).Closes (r.2.map fun x => x.request))
    (herror : ∀ memory found sends, result ≠ .error memory found sends)
    (hhandled : r.2 = [] ∨ ∃ x, r.2 = [x] ∧
      (ClosedByReply P F L garbage conn₀ (history ++ [x]) ↔ disconnect = true)) :
    r.1.http.connected = false ↔ ControlRecv.closed ∈ results ++ [result] ∨
      ClosedByReply P F L garbage conn₀ (history ++ r.2) := by
  have hnone : ¬ (ControlRecv.closed ∈ results ∨ ClosedByReply P F L garbage conn₀ history) := by
    rw [← hends, hopen]
    exact fun h => absurd h.symm Bool.false_ne_true
  rw [not_or] at hnone
  rw [hcloses, List.mem_append, List.mem_singleton]
  cases result with
  | closed => exact ⟨fun _ => .inl (.inr rfl), fun _ => trivial⟩
  | error memory found sends => exact absurd rfl (herror memory found sends)
  | data chunk found sends =>
    rcases hhandled with hnil | ⟨x, hx, hlast⟩
    · rw [hnil, List.append_nil]
      simp [ControlRecv.toHttp, HttpRecv.Closes, hnone]
    · rw [hx, hlast]
      simp [ControlRecv.toHttp, HttpRecv.Closes, hnone]

/-- In every run in which `recv` does not fail and no chunk goes past the end of a request, the
requests of the client that are complete are handled one after the other, up to the first that does
not return, and the client is sent their replies in this order and nothing else. The connection is
closed when the client has closed it or the last response asked for it. -/
theorem control_conversation {IsRequest : Bytes → HttpMessage → Prop} (hH : H.Reports IsRequest)
    {requests : List StreamRequest} (hrequests : ∀ request ∈ requests, IsRequest request.1 request.2)
    {raopPairing : Pairing} {remote : Bytes} (hremote : remote.length = 4)
    {results : List ControlRecv}
    (hguard : Along (controlStep P F L garbage)
      (fun c result => FromStream requests c.http (result.toHttp false) ∧
        WithinRequest requests c.http (result.toHttp false))
      (controlInit H (connInit raopPairing remote)) results)
    {c : ControlConnection H}
    (hrun : run (controlStep P F L garbage) (controlInit H (connInit raopPairing remote)) results =
      some c) :
    let history := events (controlStep P F L garbage) (controlInit H (connInit raopPairing remote)) results
    (history.map fun x => x.request) =
        ((completeRequests requests c.http.received).map fun request => httpRequestOf request.2) ∧
      Conversation P F L garbage (connInit raopPairing remote) (NoFailure (sendsOf results)) history c ∧
      (c.http.connected = false ↔ ControlRecv.closed ∈ results ∨
        ClosedByReply P F L garbage (connInit raopPairing remote) history) := by
  intro history
  let I : List ControlRecv → List RaopExchange → ControlConnection H → Prop :=
    fun results history c =>
      (∃ k chunks, Between requests k chunks (history.map fun x => x.request) c.http) ∧
        Conversation P F L garbage (connInit raopPairing remote) (NoFailure (sendsOf results)) history c ∧
        (c.http.connected = false ↔ ControlRecv.closed ∈ results ∨
          ClosedByReply P F L garbage (connInit raopPairing remote) history)
  have hstart : I [] [] (controlInit H (connInit raopPairing remote)) :=
    ⟨⟨0, [], between_init hH hrequests⟩, ⟨fun _ => ⟨[], [], rfl, rfl, .nil⟩, nofun⟩,
      by simp [controlInit, httpConnectionInit, not_closedByReply_nil]⟩
  have hstep : ∀ results history c result r, I results history c →
      FromStream requests c.http (result.toHttp false) ∧
        WithinRequest requests c.http (result.toHttp false) →
      controlStep P F L garbage c result = some r → I (results ++ [result]) (history ++ r.2) r.1 := by
    rintro results history c result r ⟨hbetween, hconversation, hends⟩ hg hr
    obtain ⟨hcrashed, hopen, disconnect, hhttp, heffect⟩ := controlStep_cases hr
    have hg' : FromStream requests c.http (result.toHttp disconnect) ∧
        WithinRequest requests c.http (result.toHttp disconnect) := by
      cases result with
      | data chunk found sends => exact hg
      | error memory found sends => exact hg
      | closed => exact hg
    obtain ⟨⟨k, chunks, hnext⟩, hcloses⟩ := between_step hH hrequests hbetween hg' hhttp
    rw [← List.map_append] at hnext
    -- what is handled is one of the requests of the stream
    have hcompleted : ∀ x ∈ r.2, Completed x.request := by
      intro x hx
      have hmem : x.request ∈ (history ++ r.2).map fun x => x.request :=
        List.mem_map_of_mem (List.mem_append_right history hx)
      rw [hnext.passed, List.mem_map] at hmem
      obtain ⟨request, -, hrequest⟩ := hmem
      rw [← hrequest]
      exact completed_httpRequestOf request.2
    refine ⟨⟨k, chunks, hnext⟩, conversation_step hremote hconversation hcrashed hcompleted heffect,
      closing_step hopen hends hcloses ?_ ?_⟩
    · rintro memory found sends rfl
      exact hg.2
    · rcases heffect with ⟨hnone, -⟩ | ⟨x, hx, hhandles⟩
      · exact .inl hnone
      · exact .inr ⟨x, hx, closedByReply_handled hremote (hconversation.alive hcrashed)
          (hcompleted x (by rw [hx]; exact List.mem_singleton_self x)) hhandles⟩
  obtain ⟨⟨k, chunks, hbetween⟩, hconversation, hends⟩ :=
    invariant_history_along hstep [] [] hstart hguard hrun
  exact ⟨hbetween.handledOnce.passed, hconversation, hends⟩

end

/-- The request `OPTIONS` in two chunks and again in one, and the end of the stream; the first response
goes out in two parts. -/
def optionsResults : List ControlRecv :=
  [.data (optionsRequest.1.take 12) getVolume [],
    .data (optionsRequest.1.drop 12) getVolume [.sent 20, .sent 119],
    .data optionsRequest.1 getVolume [.sent 139], .closed]

def optionsReply : Bytes :=
  ascii "RTSP/1.0 200 OK\r\nCSeq: 1\r\nServer: AirTunes/220.68\r\nPublic: " ++ ascii
    "SETUP, RECORD, PAUSE, FLUSH, TEARDOWN, OPTIONS, GET_PARAMETER, SET_PARAMETER\r\n\r\n"

theorem control_conversation_options :
    let conn := connInit ⟨[]⟩ [192, 168, 1, 7]
    let step := controlStep default (fun _ _ _ => []) noPlist (fun _ => 0)
    let start := controlInit bytewiseLlhttp conn
    ∃ c, run step start optionsResults = some c ∧
      (events step start optionsResults).length = 2 ∧
      Conversation default (fun _ _ _ => []) noPlist (fun _ => 0) conn
        (NoFailure [.sent 20, .sent 119, .sent 139]) (events step start optionsResults) c ∧
      c.sent = optionsReply ++ optionsReply ∧ c.http.connected = false := by
  intro conn step start
  have hsent : (run step start optionsResults).map (fun c => (c.sent, c.http.received)) =
      some (optionsReply ++ optionsReply, optionsRequest.1 ++ optionsRequest.1) := by
    decide +kernel
  obtain ⟨c, hrun, hc⟩ := Option.map_eq_some_iff.mp hsent
  obtain ⟨hreplies, hreceived⟩ := Prod.mk.inj hc
  have hrequests : ∀ request ∈ [optionsRequest, optionsRequest],
      IsOptionsRequest request.1 request.2 := by
    simp [IsOptionsRequest]
  have hguard : Along step (fun c result =>
      FromStream [optionsRequest, optionsRequest] c.http (result.toHttp false) ∧
        WithinRequest [optionsRequest, optionsRequest] c.http (result.toHttp false))
      start optionsResults := by
    intro r hr
    have hfirst : r.1.http.received = optionsRequest.1.take 12 := received_controlStep hr
    refine ⟨by decide, fun r' hr' => ?_⟩
    have hsecond : r'.1.http.received = optionsRequest.1 := by
      rw [received_controlStep hr', hfirst, List.take_append_drop]
    simp only [FromStream, WithinRequest, ControlRecv.toHttp, hfirst]
    refine ⟨by decide, fun r'' _ => ?_⟩
    simp only [hsecond]
    exact ⟨by decide, fun _ _ => ⟨⟨trivial, trivial⟩, trivial⟩⟩
  obtain ⟨hhistory, hconversation, hclosed⟩ :=
    control_conversation bytewise_reports hrequests rfl hguard hrun
  have hlength := congrArg List.length hhistory
  rw [hreceived] at hlength
  rw [List.length_map, List.length_map] at hlength
  exact ⟨c, hrun, hlength.trans (by decide), hconversation, hreplies,
    hclosed.mpr (.inl (by simp [optionsResults]))⟩

end WinAirPlay.Raop
