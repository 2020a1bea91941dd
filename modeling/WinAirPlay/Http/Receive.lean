import WinAirPlay.Foundations.Transition
import WinAirPlay.Http.Parser

/-! # The receive loop of `httpd_thread`

One connection of the server, one result of `recv` at a time. A request object is fed until its
message is complete, is then passed to `conn_request` and destroyed, and the next chunk is fed to a
new object with a new parser. A chunk is fed as a whole, so an object that is completed in the
middle of a chunk also takes what follows. The result -1 is taken for a length.

As long as `recv` does not fail and no chunk goes past the end of a request, each request is handled
once, whatever the chunks.
-/

namespace WinAirPlay
open Foundations.ByteBuffer Foundations.Transition
set_option autoImplicit false

structure HttpConnection (L : Llhttp) where
  connected : Bool
  request : Option (L.State × HttpRequest)
  /-- What `recv` has returned so far, what the parsers were given, and whether `recv` has failed;
  the source does not keep these. -/
  received : Bytes
  handed : Bytes
  failed : Bool

def httpConnectionInit (L : Llhttp) : HttpConnection L where
  connected := true
  request := none
  received := []
  handed := []
  failed := false

/-- A result of `recv`. `disconnect` is what the response asks for if the chunk completes a request;
`memory` is what lies at the address of `buffer`. -/
inductive HttpRecv
  | data (chunk : Bytes) (disconnect : Bool)
  | error (memory : ℕ → UInt8) (disconnect : Bool)
  | closed

def httpRequestAddData (L : Llhttp) (request : L.State × HttpRequest) (data : Bytes) :
    L.State × HttpRequest :=
  let r := L.execute request.1 data
  (r.1, r.2.foldl onCallback request.2)

def httpdRemoveConnection {L : Llhttp} (c : HttpConnection L) : HttpConnection L :=
  { c with connected := false, request := none }

/-- The rest of the loop body once `recv` has not returned 0. -/
def httpdHandleData {L : Llhttp} (c : HttpConnection L) (data : Bytes) (disconnect : Bool) :
    HttpConnection L × List HttpRequest :=
  let request := httpRequestAddData L (c.request.getD (L.init, httpRequestInit)) data
  let c := { c with handed := c.handed ++ data }
  if L.error request.1 then (httpdRemoveConnection c, [])
  else if request.2.complete then
    let c := { c with request := none }
    (if disconnect then httpdRemoveConnection c else c, [request.2])
  else ({ c with request := some request }, [])

/-- `(size_t) -1` bytes from the start of the buffer. -/
def sizeMaxBytes (memory : ℕ → UInt8) : Bytes := (List.range (2 ^ 64 - 1)).map memory

/-- The requests passed to `conn_request` are the events. -/
def httpdStep (L : Llhttp) (c : HttpConnection L) :
    HttpRecv → Option (HttpConnection L × List HttpRequest)
  | .data chunk disconnect =>
    if c.connected ∧ chunk ≠ [] ∧ chunk.length ≤ 1024 then
      some (httpdHandleData { c with received := c.received ++ chunk } chunk disconnect)
    else none
  | .error memory disconnect =>
    if c.connected then
      some (httpdHandleData { c with failed := true } (sizeMaxBytes memory) disconnect)
    else none
  | .closed => if c.connected then some (httpdRemoveConnection c, []) else none

/-! ## What is expected -/

abbrev StreamRequest := Bytes × HttpMessage

def streamOf (requests : List StreamRequest) : Bytes := (requests.map Prod.fst).flatten

/-- The requests of the stream whose last byte has been received. -/
def completeRequests : List StreamRequest → Bytes → List StreamRequest
  | [], _ => []
  | request :: requests, received =>
    if request.1 <+: received then
      request :: completeRequests requests (received.drop request.1.length)
    else []

/-- The bytes that arrive are those of the stream. -/
def FromStream (requests : List StreamRequest) {L : Llhttp} (c : HttpConnection L) : HttpRecv → Prop
  | .data chunk _ => c.received ++ chunk <+: streamOf requests
  | _ => True

/-- `recv` does not fail, and no request ends strictly inside the chunk. -/
def WithinRequest (requests : List StreamRequest) {L : Llhttp} (c : HttpConnection L) : HttpRecv → Prop
  | .data chunk _ => ∀ k ≤ requests.length,
      ¬ (c.received.length < (streamOf (requests.take k)).length ∧
        (streamOf (requests.take k)).length < c.received.length + chunk.length)
  | .error _ _ => False
  | .closed => True

structure HandledOnce (requests : List StreamRequest) {L : Llhttp} (passed : List HttpRequest)
    (c : HttpConnection L) : Prop where
  handed : c.handed = c.received
  failed : c.failed → c.connected = false
  passed : passed = (completeRequests requests c.received).map fun request =>
    httpRequestOf request.2

theorem streamOf_cons (request : StreamRequest) (requests : List StreamRequest) :
    streamOf (request :: requests) = request.1 ++ streamOf requests := rfl

theorem streamOf_append (first second : List StreamRequest) :
    streamOf (first ++ second) = streamOf first ++ streamOf second := by
  simp [streamOf]

theorem completeRequests_take {requests : List StreamRequest} {k : ℕ} {rest : Bytes}
    (hrest : ∀ request, requests[k]? = some request → ¬ request.1 <+: rest) :
    completeRequests requests (streamOf (requests.take k) ++ rest) = requests.take k := by
  induction requests generalizing k with
  | nil => simp [completeRequests]
  | cons request requests ih =>
    cases k with
    | zero =>
      have hno := hrest request (by simp)
      simpa [completeRequests, streamOf] using hno
    | succ k =>
      have hstream : streamOf ((request :: requests).take (k + 1)) ++ rest =
          request.1 ++ (streamOf (requests.take k) ++ rest) := by
        rw [List.take_succ_cons, streamOf_cons, List.append_assoc]
      rw [hstream, completeRequests, if_pos (List.prefix_append ..), List.drop_left,
        ih fun other hother => hrest other (by simpa using hother), List.take_succ_cons]

/-! ## One step -/

section Step

variable {L : Llhttp} {IsRequest : Bytes → HttpMessage → Prop} {requests : List StreamRequest}

/-- The first `k` requests are handled, and the object has been fed the chunks since then, which are
not yet the whole of the next request. -/
structure Between (requests : List StreamRequest) (k : ℕ) (chunks : List Bytes)
    (passed : List HttpRequest) (c : HttpConnection L) : Prop where
  within : k ≤ requests.length
  received : c.received = streamOf (requests.take k) ++ chunks.flatten
  handed : c.handed = c.received
  passed : passed = (requests.take k).map fun request => httpRequestOf request.2
  pieces : ∀ chunk ∈ chunks, chunk ≠ []
  last : k = requests.length → chunks = []
  unfinished : ∀ request, requests[k]? = some request →
    chunks.flatten <+: request.1 ∧ chunks.flatten ≠ request.1
  request : c.connected → c.request.getD (L.init, httpRequestInit) =
    ((L.feed L.init chunks).1, (L.feed L.init chunks).2.foldl onCallback httpRequestInit)
  failed : c.failed = false

theorem text_ne_nil (hL : L.Reports IsRequest) {request : StreamRequest}
    (h : IsRequest request.1 request.2) : request.1 ≠ [] := by
  intro hnil
  obtain ⟨urls, bodies, headers, -, -, -, -, hcallbacks⟩ :=
    hL.elements _ _ h [] (by simp) (by simp [hnil])
  simp [Llhttp.feed] at hcallbacks

theorem between_init (hL : L.Reports IsRequest)
    (hrequests : ∀ request ∈ requests, IsRequest request.1 request.2) :
    Between requests 0 [] [] (httpConnectionInit L) where
  within := Nat.zero_le _
  received := by simp [httpConnectionInit, streamOf]
  handed := rfl
  passed := by simp
  pieces := by simp
  last := by simp
  unfinished request hrequest :=
    ⟨by simp, (text_ne_nil hL (hrequests request (List.mem_of_getElem? hrequest))).symm⟩
  request _ := rfl
  failed := rfl

theorem Between.handledOnce {k : ℕ} {chunks : List Bytes} {passed : List HttpRequest}
    {c : HttpConnection L} (h : Between requests k chunks passed c) :
    HandledOnce requests passed c where
  handed := h.handed
  failed := by simp [h.failed]
  passed := by
    rw [h.received, completeRequests_take, h.passed]
    intro request hrequest hwithin
    obtain ⟨hpart, hne⟩ := h.unfinished request hrequest
    exact hne (hpart.eq_of_length_le hwithin.length_le)

/-- Under the guard a chunk belongs to the next request. -/
theorem Between.chunk_within {k : ℕ} {chunks : List Bytes} {passed : List HttpRequest}
    {c : HttpConnection L} {chunk : Bytes} {disconnect : Bool}
    (h : Between requests k chunks passed c) (hchunk : chunk ≠ [])
    (hstream : FromStream requests c (.data chunk disconnect))
    (hguard : WithinRequest requests c (.data chunk disconnect)) :
    ∃ request, requests[k]? = some request ∧ chunks.flatten ++ chunk <+: request.1 := by
  have hrest : chunks.flatten ++ chunk <+: streamOf (requests.drop k) := by
    have hall : c.received ++ chunk <+: streamOf requests := hstream
    rw [h.received, List.append_assoc, ← List.take_append_drop k requests, streamOf_append,
      List.take_append_drop] at hall
    exact (List.prefix_append_right_inj _).mp hall
  obtain hk | hk := Nat.lt_or_ge k requests.length
  · refine ⟨requests[k], List.getElem?_eq_getElem hk, ?_⟩
    rw [List.drop_eq_getElem_cons hk, streamOf_cons] at hrest
    refine List.prefix_of_prefix_length_le hrest (List.prefix_append ..) ?_
    -- otherwise the request would end strictly inside the chunk
    by_contra hlong
    refine hguard (k + 1) hk ⟨?_, ?_⟩
    all_goals
      rw [h.received, List.take_succ_eq_append_getElem hk, streamOf_append]
      simp only [List.length_append, streamOf, List.map_cons, List.map_nil, List.flatten_cons,
        List.flatten_nil, List.length_nil] at hlong ⊢
    · have hpart := h.unfinished _ (List.getElem?_eq_getElem hk)
      have hlength := hpart.1.length_le
      have hne : chunks.flatten.length ≠ requests[k].1.length := fun heq =>
        hpart.2 (hpart.1.eq_of_length heq)
      omega
    · omega
  · have hempty : requests.drop k = [] := List.drop_eq_nil_of_le hk
    rw [hempty] at hrest
    have := List.prefix_nil.mp hrest
    exact absurd (List.append_eq_nil_iff.mp this).2 hchunk

theorem Between.addData {k : ℕ} {chunks : List Bytes} {passed : List HttpRequest}
    {c : HttpConnection L} (h : Between requests k chunks passed c) (hconnected : c.connected)
    (chunk : Bytes) :
    httpRequestAddData L (c.request.getD (L.init, httpRequestInit)) chunk =
      ((L.feed L.init (chunks ++ [chunk])).1,
        (L.feed L.init (chunks ++ [chunk])).2.foldl onCallback httpRequestInit) := by
  rw [h.request hconnected, L.feed_concat]
  simp only [httpRequestAddData, List.foldl_append]

theorem between_data (hL : L.Reports IsRequest)
    (hrequests : ∀ request ∈ requests, IsRequest request.1 request.2) {k : ℕ}
    {chunks : List Bytes} {passed : List HttpRequest} {c : HttpConnection L} {chunk : Bytes}
    {disconnect : Bool} (h : Between requests k chunks passed c) (hconnected : c.connected)
    (hchunk : chunk ≠ []) (hstream : FromStream requests c (.data chunk disconnect))
    (hguard : WithinRequest requests c (.data chunk disconnect)) :
    let r := httpdHandleData { c with received := c.received ++ chunk } chunk disconnect
    (∃ k' chunks', Between requests k' chunks' (passed ++ r.2) r.1) ∧
      (r.1.connected = false ↔ r.2 ≠ [] ∧ disconnect = true) := by
  obtain ⟨request, hrequest, hwithin⟩ := h.chunk_within hchunk hstream hguard
  have hk : k < requests.length := (List.getElem?_eq_some_iff.mp hrequest).1
  have his := hrequests request (List.mem_of_getElem? hrequest)
  have hflatten : (chunks ++ [chunk]).flatten = chunks.flatten ++ chunk := by simp
  have hpieces : ∀ piece ∈ chunks ++ [chunk], piece ≠ [] := by
    intro piece hpiece
    rcases List.mem_append.mp hpiece with hpiece | hpiece
    · exact h.pieces piece hpiece
    · rw [List.mem_singleton.mp hpiece]
      exact hchunk
  rw [← hflatten] at hwithin
  have haccepts := hL.accepts _ _ his _ hpieces hwithin
  have hadd := h.addData hconnected chunk
  have hreceived : c.received ++ chunk =
      streamOf (requests.take k) ++ (chunks ++ [chunk]).flatten := by
    rw [h.received, hflatten, List.append_assoc]
  intro r
  by_cases hwhole : (chunks ++ [chunk]).flatten = request.1
  · have hobject := foldl_delivers (hL.plain _ _ his) (hL.elements _ _ his _ hpieces hwhole)
    rw [hobject] at hadd
    have hr : r = ((if disconnect then httpdRemoveConnection
          { c with received := c.received ++ chunk, handed := c.handed ++ chunk, request := none }
        else { c with
          received := c.received ++ chunk, handed := c.handed ++ chunk, request := none }),
        [httpRequestOf request.2]) := by
      simp only [r, httpdHandleData, hadd, haccepts, httpRequestOf]
      rfl
    rw [hr]
    have hnext : Between (L := L) requests (k + 1) [] (passed ++ [httpRequestOf request.2])
        { c with received := c.received ++ chunk, handed := c.handed ++ chunk, request := none } :=
      { within := hk
        received := by
          rw [List.take_succ_eq_append_getElem hk, streamOf_append, streamOf_cons]
          have hget : requests[k] = request := Option.some.inj
            ((List.getElem?_eq_getElem hk).symm.trans hrequest)
          simp [hreceived, hwhole, hget, streamOf]
        handed := by simp [h.handed]
        passed := by
          have hget : requests[k] = request := Option.some.inj
            ((List.getElem?_eq_getElem hk).symm.trans hrequest)
          rw [List.take_succ_eq_append_getElem hk, List.map_append, ← h.passed, hget]
          rfl
        pieces := by simp
        last := by simp
        unfinished := fun other hother =>
          ⟨by simp, (text_ne_nil hL (hrequests other (List.mem_of_getElem? hother))).symm⟩
        request := fun _ => rfl
        failed := h.failed }
    cases disconnect with
    | false => exact ⟨⟨k + 1, [], hnext⟩, by simp [hconnected]⟩
    | true =>
      exact ⟨⟨k + 1, [], { hnext with request := by simp [httpdRemoveConnection] }⟩,
        by simp [httpdRemoveConnection]⟩
  · have hunfinished := hL.unfinished _ _ his _ hpieces hwithin hwhole
    have hcomplete := foldl_complete httpRequestInit _ hunfinished
    have hr : r = ({ c with
        received := c.received ++ chunk
        handed := c.handed ++ chunk
        request := some ((L.feed L.init (chunks ++ [chunk])).1,
          (L.feed L.init (chunks ++ [chunk])).2.foldl onCallback httpRequestInit) }, []) := by
      simp only [r, httpdHandleData, hadd, haccepts, hcomplete]
      rfl
    rw [hr, List.append_nil]
    refine ⟨⟨k, chunks ++ [chunk], ?_⟩, by simp [hconnected]⟩
    exact
      { within := h.within
        received := hreceived
        handed := by simp [h.handed]
        passed := h.passed
        pieces := hpieces
        last := fun hlast => absurd hlast hk.ne
        unfinished := fun other hother => by
          obtain rfl : request = other := Option.some.inj (hrequest.symm.trans hother)
          exact ⟨hwithin, hwhole⟩
        request := fun _ => rfl
        failed := h.failed }

/-- What ends the connection: `recv` returns 0, or the response says so. -/
def HttpRecv.Closes (passed : List HttpRequest) : HttpRecv → Prop
  | .data _ disconnect => passed ≠ [] ∧ disconnect = true
  | .error _ _ => False
  | .closed => True

theorem between_step (hL : L.Reports IsRequest)
    (hrequests : ∀ request ∈ requests, IsRequest request.1 request.2) {passed : List HttpRequest}
    {c : HttpConnection L} {result : HttpRecv} {r : HttpConnection L × List HttpRequest}
    (h : ∃ k chunks, Between requests k chunks passed c)
    (hguard : FromStream requests c result ∧ WithinRequest requests c result)
    (hr : httpdStep L c result = some r) :
    (∃ k chunks, Between requests k chunks (passed ++ r.2) r.1) ∧
      (r.1.connected = false ↔ result.Closes r.2) := by
  obtain ⟨k, chunks, h⟩ := h
  cases result with
  | data chunk disconnect =>
    simp only [httpdStep, Option.ite_none_right_eq_some, Option.some.injEq] at hr
    obtain ⟨⟨hconnected, hchunk, -⟩, rfl⟩ := hr
    exact between_data hL hrequests h hconnected hchunk hguard.1 hguard.2
  | error memory disconnect => exact hguard.2.elim
  | closed =>
    simp only [httpdStep, Option.ite_none_right_eq_some, Option.some.injEq] at hr
    obtain ⟨-, rfl⟩ := hr
    rw [List.append_nil]
    exact ⟨⟨k, chunks, { h with request := by simp [httpdRemoveConnection] }⟩,
      fun _ => trivial, fun _ => rfl⟩

end Step

/-- In every run in which `recv` does not fail and no chunk goes past the end of a request, the
parsers are given exactly the received bytes, and the requests passed to `conn_request` are those
whose last byte has been received, in order and each once. -/
theorem httpd_requests_once {L : Llhttp} {IsRequest : Bytes → HttpMessage → Prop}
    (hL : L.Reports IsRequest) {requests : List StreamRequest}
    (hrequests : ∀ request ∈ requests, IsRequest request.1 request.2) {results : List HttpRecv}
    (hguard : Along (httpdStep L)
      (fun c result => FromStream requests c result ∧ WithinRequest requests c result)
      (httpConnectionInit L) results) {c : HttpConnection L}
    (hrun : run (httpdStep L) (httpConnectionInit L) results = some c) :
    HandledOnce requests (events (httpdStep L) (httpConnectionInit L) results) c := by
  let I : List HttpRecv → List HttpRequest → HttpConnection L → Prop :=
    fun _ passed c => ∃ k chunks, Between requests k chunks passed c
  have hstart : I [] [] (httpConnectionInit L) := ⟨0, [], between_init hL hrequests⟩
  obtain ⟨k, chunks, h⟩ := invariant_history_along (I := I)
    (fun _ _ _ _ _ h hg hr => (between_step hL hrequests h hg hr).1) [] [] hstart hguard hrun
  exact h.handledOnce

/-! ## Outside the guard -/

section Outside

variable {L : Llhttp} {requests : List StreamRequest} {passed : List HttpRequest}
  {c : HttpConnection L} {r : HttpConnection L × List HttpRequest}

theorem httpdHandleData_handed (c : HttpConnection L) (data : Bytes) (disconnect : Bool) :
    (httpdHandleData c data disconnect).1.handed = c.handed ++ data ∧
      (httpdHandleData c data disconnect).1.received = c.received ∧
      (httpdHandleData c data disconnect).2.length ≤ 1 := by
  simp only [httpdHandleData]
  split
  · exact ⟨rfl, rfl, Nat.zero_le _⟩
  · split
    · cases disconnect <;> exact ⟨rfl, rfl, Nat.le_refl _⟩
    · exact ⟨rfl, rfl, Nat.zero_le _⟩

/-- An error result gives the parser bytes that were never received. -/
theorem httpd_error_not_once {memory : ℕ → UInt8} {disconnect : Bool}
    (h : HandledOnce requests passed c) (hr : httpdStep L c (.error memory disconnect) = some r) :
    ¬ HandledOnce requests (passed ++ r.2) r.1 := by
  intro hnext
  simp only [httpdStep, Option.ite_none_right_eq_some, Option.some.injEq] at hr
  obtain ⟨-, rfl⟩ := hr
  obtain ⟨hhanded, hreceived, -⟩ :=
    httpdHandleData_handed { c with failed := true } (sizeMaxBytes memory) disconnect
  have heq := hnext.handed
  rw [hhanded, hreceived] at heq
  have hlength : (c.handed ++ sizeMaxBytes memory).length = c.received.length :=
    congrArg List.length heq
  rw [List.length_append, sizeMaxBytes, List.length_map, List.length_range, h.handed] at hlength
  omega

/-- A chunk passes at most one request on, so the ends of two requests in it are too many. -/
theorem httpd_two_not_once {chunk : Bytes} {disconnect : Bool} (h : HandledOnce requests passed c)
    (hr : httpdStep L c (.data chunk disconnect) = some r)
    (htwo : (completeRequests requests c.received).length + 2 ≤
      (completeRequests requests (c.received ++ chunk)).length) :
    ¬ HandledOnce requests (passed ++ r.2) r.1 := by
  intro hnext
  simp only [httpdStep, Option.ite_none_right_eq_some, Option.some.injEq] at hr
  obtain ⟨-, rfl⟩ := hr
  obtain ⟨-, hreceived, hone⟩ :=
    httpdHandleData_handed { c with received := c.received ++ chunk } chunk disconnect
  have hbefore := congrArg List.length h.passed
  have hafter := congrArg List.length hnext.passed
  rw [hreceived, List.length_append, List.length_map] at hafter
  rw [List.length_map] at hbefore
  simp only at hafter
  omega

end Outside

/-! ## A parser that reports every byte

A request line, headers and no body; each byte of a text is reported on its own.
-/

inductive BytewisePhase
  | method
  | url
  | version
  | fieldStart
  | field
  | space
  | value
  | lineEnd
  | finish
  | failed
  deriving DecidableEq

structure BytewiseState where
  phase : BytewisePhase
  method : Bytes

def bytewiseInit : BytewiseState := ⟨.method, []⟩

def bytewiseByte (s : BytewiseState) (b : UInt8) : BytewiseState × List ParserCallback :=
  match s.phase with
  | .method =>
    if b = 32 then ({ s with phase := .url }, [])
    else if 65 ≤ b ∧ b ≤ 95 then ({ s with method := s.method ++ [b] }, [])
    else ({ s with phase := .failed }, [])
  | .url => if b = 32 then ({ s with phase := .version }, []) else (s, [.url [b]])
  | .version => if b = 10 then ({ s with phase := .fieldStart }, []) else (s, [])
  | .fieldStart =>
    if b = 13 then ({ s with phase := .finish }, [])
    else ({ s with phase := .field }, [.headerField [b]])
  | .field =>
    if b = 58 then ({ s with phase := .space }, []) else (s, [.headerField [b]])
  | .space =>
    if b = 32 then (s, [])
    else if b = 13 then ({ s with phase := .lineEnd }, [.headerValue []])
    else ({ s with phase := .value }, [.headerValue [b]])
  | .value =>
    if b = 13 then ({ s with phase := .lineEnd }, []) else (s, [.headerValue [b]])
  | .lineEnd => if b = 10 then ({ s with phase := .fieldStart }, []) else ({ s with phase := .failed }, [])
  | .finish =>
    if b = 10 then
      (bytewiseInit, [.messageComplete (String.ofList (s.method.map fun b => Char.ofNat b.toNat))])
    else ({ s with phase := .failed }, [])
  | .failed => (s, [])

def bytewiseExecute (s : BytewiseState) : Bytes → BytewiseState × List ParserCallback
  | [] => (s, [])
  | b :: bytes =>
    let r := bytewiseByte s b
    let rest := bytewiseExecute r.1 bytes
    (rest.1, r.2 ++ rest.2)

def bytewiseLlhttp : Llhttp where
  State := BytewiseState
  init := bytewiseInit
  execute := bytewiseExecute
  error s := s.phase = .failed

theorem bytewiseExecute_append (s : BytewiseState) (first second : Bytes) :
    bytewiseExecute s (first ++ second) =
      ((bytewiseExecute (bytewiseExecute s first).1 second).1,
        (bytewiseExecute s first).2 ++ (bytewiseExecute (bytewiseExecute s first).1 second).2) := by
  induction first generalizing s with
  | nil => rfl
  | cons b first ih => simp [bytewiseExecute, ih]

theorem bytewise_feed (s : BytewiseState) (chunks : List Bytes) :
    bytewiseLlhttp.feed s chunks = bytewiseExecute s chunks.flatten := by
  induction chunks generalizing s with
  | nil => rfl
  | cons chunk chunks ih =>
    rw [List.flatten_cons, bytewiseExecute_append, ← ih]
    rfl

/-- `OPTIONS * RTSP/1.0` with the header `CSeq: 1`. -/
def optionsRequest : StreamRequest :=
  ([79, 80, 84, 73, 79, 78, 83, 32, 42, 32, 82, 84, 83, 80, 47, 49, 46, 48, 13, 10,
    67, 83, 101, 113, 58, 32, 49, 13, 10, 13, 10],
    { method := "OPTIONS", url := [42], headers := [([67, 83, 101, 113], [49])], body := [] })

def completes : ParserCallback → Bool
  | .messageComplete _ => true
  | _ => false

def IsOptionsRequest (text : Bytes) (message : HttpMessage) : Prop := (text, message) = optionsRequest

theorem bytewise_prefix {chunks : List Bytes} (h : chunks.flatten <+: optionsRequest.1) :
    ∃ n ≤ 31, bytewiseLlhttp.feed bytewiseInit chunks =
      bytewiseExecute bytewiseInit (optionsRequest.1.take n) ∧
      chunks.flatten = optionsRequest.1.take n := by
  refine ⟨chunks.flatten.length, h.length_le, ?_, List.prefix_iff_eq_take.mp h⟩
  rw [bytewise_feed, ← List.prefix_iff_eq_take.mp h]

theorem bytewise_reports : bytewiseLlhttp.Reports IsOptionsRequest where
  plain := by
    rintro text message ⟨rfl⟩
    exact ⟨by decide, by decide⟩
  accepts := by
    rintro text message ⟨rfl⟩ chunks - hwithin
    obtain ⟨n, hn, hfeed, -⟩ := bytewise_prefix hwithin
    have hall : ∀ n ≤ 31, (bytewiseExecute bytewiseInit (optionsRequest.1.take n)).1.phase ≠
        .failed := by decide
    show bytewiseLlhttp.error (bytewiseLlhttp.feed bytewiseInit chunks).1 = false
    rw [hfeed]
    exact decide_eq_false (hall n hn)
  unfinished := by
    rintro text message ⟨rfl⟩ chunks - hwithin hne method
    obtain ⟨n, hn, hfeed, hflatten⟩ := bytewise_prefix hwithin
    have hshort : n < 31 := by
      refine Nat.lt_of_le_of_ne hn fun hwhole => hne ?_
      rw [hflatten, hwhole]
      rfl
    have hall : ∀ n < 31, ∀ callback ∈ (bytewiseExecute bytewiseInit (optionsRequest.1.take n)).2,
        completes callback = false := by decide
    show .messageComplete method ∉ (bytewiseLlhttp.feed bytewiseInit chunks).2
    rw [hfeed]
    intro hmem
    have := hall n hshort _ hmem
    cases this
  elements := by
    rintro text message ⟨rfl⟩ chunks - hflatten
    show Delivers _ (bytewiseLlhttp.feed bytewiseInit chunks).2
    rw [bytewise_feed, hflatten]
    exact ⟨[[42]], [], [[.headerField [67], .headerField [83], .headerField [101],
      .headerField [113], .headerValue [49]]], by simp, rfl,
      .cons ⟨[[67], [83], [101], [113]], [[49]], by simp, by simp, rfl, rfl, rfl⟩ .nil, rfl, rfl⟩

instance (requests : List StreamRequest) {L : Llhttp} (c : HttpConnection L) (result : HttpRecv) :
    Decidable (FromStream requests c result) := by
  unfold FromStream
  split <;> infer_instance

instance (requests : List StreamRequest) {L : Llhttp} (c : HttpConnection L) (result : HttpRecv) :
    Decidable (WithinRequest requests c result) := by
  unfold WithinRequest
  split <;> infer_instance

/-- Two requests, the first byte by byte and the second in one piece. -/
theorem httpd_requests_once_options :
    ∃ c, run (httpdStep bytewiseLlhttp) (httpConnectionInit bytewiseLlhttp)
        (optionsRequest.1.map (fun b => .data [b] false) ++
          [.data optionsRequest.1 false, .closed]) = some c ∧
      HandledOnce [optionsRequest, optionsRequest]
        (events (httpdStep bytewiseLlhttp) (httpConnectionInit bytewiseLlhttp)
          (optionsRequest.1.map (fun b => .data [b] false) ++
            [.data optionsRequest.1 false, .closed])) c :=
  ⟨_, rfl, httpd_requests_once bytewise_reports (by simp [IsOptionsRequest]) (by decide +kernel) rfl⟩

/-- Two requests in one chunk become one. -/
theorem httpd_requests_merged :
    ¬ ∀ (L : Llhttp) (IsRequest : Bytes → HttpMessage → Prop), L.Reports IsRequest →
      ∀ requests : List StreamRequest, (∀ request ∈ requests, IsRequest request.1 request.2) →
      ∀ (results : List HttpRecv) (c : HttpConnection L),
        Along (httpdStep L) (FromStream requests) (httpConnectionInit L) results →
        run (httpdStep L) (httpConnectionInit L) results = some c →
        HandledOnce requests (events (httpdStep L) (httpConnectionInit L) results) c := by
  intro h
  have hmerged := h bytewiseLlhttp IsOptionsRequest bytewise_reports
    [optionsRequest, optionsRequest] (by simp [IsOptionsRequest])
    [.data (optionsRequest.1 ++ optionsRequest.1) false] _ (by decide +kernel) rfl
  have hlength := congrArg List.length hmerged.passed
  revert hlength
  decide +kernel

end WinAirPlay
