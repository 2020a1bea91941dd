import Mathlib.Data.List.TakeWhile
import Mathlib.Data.List.Forall2
import WinAirPlay.Http.Request

/-! # What the HTTP parser reports

`llhttp` is a parameter: a state machine that is fed chunks and makes callbacks. It may report a
text in any number of consecutive pieces. The request object puts the pieces together again, so
that the object after a whole message depends on the message only.
-/

namespace WinAirPlay
open Foundations.ByteBuffer
set_option autoImplicit false

/-- The callbacks that `http_request_init` installs. -/
inductive ParserCallback
  | url (text : Bytes)
  | headerField (text : Bytes)
  | headerValue (text : Bytes)
  | body (text : Bytes)
  | messageComplete (method : String)
  deriving DecidableEq

def onCallback (request : HttpRequest) : ParserCallback → HttpRequest
  | .url text => onUrl request text
  | .headerField text => onHeaderField request text
  | .headerValue text => onHeaderValue request text
  | .body text => onBody request text
  | .messageComplete method => onMessageComplete request method

structure HttpMessage where
  method : String
  url : Bytes
  headers : List (Bytes × Bytes)
  body : Bytes

/-- The parser: `llhttp_init`, `llhttp_execute` and whether `llhttp_get_errno` is not `HPE_OK`. -/
structure Llhttp where
  State : Type
  init : State
  execute : State → Bytes → State × List ParserCallback
  error : State → Bool

/-- Executes one chunk after the other. -/
def Llhttp.feed (L : Llhttp) (state : L.State) : List Bytes → L.State × List ParserCallback
  | [] => (state, [])
  | chunk :: chunks =>
    let r := L.execute state chunk
    let rest := L.feed r.1 chunks
    (rest.1, r.2 ++ rest.2)

theorem Llhttp.feed_concat (L : Llhttp) (state : L.State) (chunks : List Bytes) (chunk : Bytes) :
    L.feed state (chunks ++ [chunk]) =
      ((L.execute (L.feed state chunks).1 chunk).1,
        (L.feed state chunks).2 ++ (L.execute (L.feed state chunks).1 chunk).2) := by
  induction chunks generalizing state with
  | nil => simp [Llhttp.feed]
  | cons first chunks ih => simp [Llhttp.feed, ih]

/-- A field and its value, each in one or more pieces. -/
def DeliversHeader (header : Bytes × Bytes) (callbacks : List ParserCallback) : Prop :=
  ∃ names values : List Bytes, names ≠ [] ∧ values ≠ [] ∧
    names.flatten = header.1 ∧ values.flatten = header.2 ∧
    callbacks = names.map .headerField ++ values.map .headerValue

/-- The elements of the message in their order, each text in consecutive pieces. -/
def Delivers (message : HttpMessage) (callbacks : List ParserCallback) : Prop :=
  ∃ (urls bodies : List Bytes) (headers : List (List ParserCallback)), urls ≠ [] ∧
    urls.flatten = message.url ∧ List.Forall₂ DeliversHeader message.headers headers ∧
    bodies.flatten = message.body ∧
    callbacks = urls.map .url ++ headers.flatten ++ bodies.map .body ++
      [.messageComplete message.method]

/-- The texts that become C strings have no zero byte. -/
structure HttpMessage.Plain (message : HttpMessage) : Prop where
  url : 0 ∉ message.url
  headers : ∀ header ∈ message.headers, 0 ∉ header.1 ∧ 0 ∉ header.2

/-- What `llhttp` promises for requests: however a request is cut, it is accepted, its completion is
reported with its last byte and not before, and its elements are reported in order. -/
structure Llhttp.Reports (L : Llhttp) (IsRequest : Bytes → HttpMessage → Prop) : Prop where
  plain : ∀ text message, IsRequest text message → message.Plain
  accepts : ∀ text message, IsRequest text message → ∀ chunks : List Bytes,
    (∀ chunk ∈ chunks, chunk ≠ []) → chunks.flatten <+: text →
      L.error (L.feed L.init chunks).1 = false
  unfinished : ∀ text message, IsRequest text message → ∀ chunks : List Bytes,
    (∀ chunk ∈ chunks, chunk ≠ []) → chunks.flatten <+: text → chunks.flatten ≠ text →
      ∀ method, .messageComplete method ∉ (L.feed L.init chunks).2
  elements : ∀ text message, IsRequest text message → ∀ chunks : List Bytes,
    (∀ chunk ∈ chunks, chunk ≠ []) → chunks.flatten = text →
      Delivers message (L.feed L.init chunks).2

/-! ## The request object after a message -/

/-- The object that a whole message leaves. -/
def httpRequestOf (message : HttpMessage) : HttpRequest where
  method := some message.method
  url := some message.url
  headers := message.headers.flatMap fun header => [some header.1, some header.2]
  headersIndex := 2 * message.headers.length - 1
  data := message.body
  complete := true

theorem strncat_of_plain (s : Option Bytes) {text : Bytes} (h : 0 ∉ text) :
    strncat s text = s.getD [] ++ text := by
  rw [strncat, List.takeWhile_eq_self_iff.mpr]
  intro b hb
  simpa using fun hzero : b = 0 => h (hzero ▸ hb)

theorem foldl_strncat {pieces : List Bytes} (h : 0 ∉ pieces.flatten) (hne : pieces ≠ [])
    (s : Option Bytes) :
    pieces.foldl (fun s piece => some (strncat s piece)) s = some (s.getD [] ++ pieces.flatten) := by
  induction pieces generalizing s with
  | nil => exact absurd rfl hne
  | cons piece pieces ih =>
    rw [List.flatten_cons, List.mem_append, not_or] at h
    rw [List.foldl_cons, strncat_of_plain s h.1]
    cases hpieces : pieces with
    | nil => simp
    | cons next rest =>
      rw [← hpieces, ih h.2 (by simp [hpieces])]
      simp

theorem foldl_url (request : HttpRequest) (pieces : List Bytes) :
    (pieces.map ParserCallback.url).foldl onCallback request =
      { request with
        url := pieces.foldl (fun s piece => some (strncat s piece)) request.url } := by
  induction pieces generalizing request with
  | nil => rfl
  | cons piece pieces ih => simp [ih, onCallback, onUrl]

theorem foldl_body (request : HttpRequest) (pieces : List Bytes) :
    (pieces.map ParserCallback.body).foldl onCallback request =
      { request with data := request.data ++ pieces.flatten } := by
  induction pieces generalizing request with
  | nil => simp
  | cons piece pieces ih => simp [ih, onCallback, onBody]

theorem modify_append_length {α : Type} (done : List α) (a : α) (rest : List α) (f : α → α) :
    (done ++ a :: rest).modify done.length f = done ++ f a :: rest := by
  rw [List.modify_eq_take_cons_drop (by simp)]
  simp

/-- A request object between two headers. -/
structure AtHeader (request : HttpRequest) (done : List (Option Bytes)) : Prop where
  headers : request.headers = done
  even : done.length % 2 = 0
  index : request.headersIndex = done.length - 1

theorem onHeaderField_first {request : HttpRequest} {done : List (Option Bytes)}
    (h : AtHeader request done) (text : Bytes) :
    onHeaderField request text =
      { request with
        headers := done ++ [some (strncat none text), none], headersIndex := done.length } := by
  obtain ⟨method, url, headers, index, data, complete⟩ := request
  obtain ⟨hheaders, heven, hindex⟩ := h
  simp only at hheaders hindex
  subst hheaders hindex
  by_cases hzero : headers.length = 0
  · obtain rfl := List.length_eq_zero_iff.mp hzero
    rfl
  · have hodd : (headers.length - 1) % 2 = 1 := by omega
    have hnext : headers.length - 1 + 1 = headers.length := by omega
    simp only [onHeaderField, hodd, if_true, hnext, appendHeader, modify_append_length]

theorem onHeaderField_next {request : HttpRequest} {done : List (Option Bytes)} {s : Option Bytes}
    (hheaders : request.headers = done ++ [s, none]) (heven : done.length % 2 = 0)
    (hindex : request.headersIndex = done.length) (text : Bytes) :
    onHeaderField request text =
      { request with headers := done ++ [some (strncat s text), none] } := by
  obtain ⟨method, url, headers, index, data, complete⟩ := request
  simp only at hheaders hindex
  subst hheaders hindex
  have hodd : ¬ done.length % 2 = 1 := by omega
  have hroom : ¬ done.length = (done ++ [s, none]).length := by simp
  simp only [onHeaderField, if_neg hodd, if_neg hroom, appendHeader, modify_append_length]

theorem foldl_headerField {request : HttpRequest} {done : List (Option Bytes)} {s : Option Bytes}
    (hheaders : request.headers = done ++ [s, none]) (heven : done.length % 2 = 0)
    (hindex : request.headersIndex = done.length) (pieces : List Bytes) :
    (pieces.map ParserCallback.headerField).foldl onCallback request =
      { request with headers :=
          done ++ [pieces.foldl (fun s piece => some (strncat s piece)) s, none] } := by
  induction pieces generalizing request s with
  | nil => simp [← hheaders]
  | cons piece pieces ih =>
    rw [List.map_cons, List.foldl_cons, onCallback, onHeaderField_next hheaders heven hindex]
    have hnext : { request with headers := done ++ [some (strncat s piece), none] }.headers =
        done ++ [some (strncat s piece), none] := rfl
    rw [ih hnext hindex]
    rfl

theorem onHeaderValue_piece {request : HttpRequest} {done : List (Option Bytes)}
    {field value : Option Bytes} (hheaders : request.headers = done ++ [field, value])
    (heven : done.length % 2 = 0)
    (hindex : request.headersIndex = done.length ∨ request.headersIndex = done.length + 1)
    (text : Bytes) :
    onHeaderValue request text =
      { request with
        headers := done ++ [field, some (strncat value text)]
        headersIndex := done.length + 1 } := by
  have hmodify := modify_append_length (done ++ [field]) value []
    (fun s => some (strncat s text))
  simp only [List.append_assoc, List.singleton_append, List.length_append, List.length_cons,
    List.length_nil] at hmodify
  obtain ⟨method, url, headers, index, data, complete⟩ := request
  simp only at hheaders hindex
  subst hheaders
  rcases hindex with rfl | rfl
  · simp [onHeaderValue, heven, appendHeader, hmodify]
  · have hodd : ¬ (done.length + 1) % 2 = 0 := by omega
    simp [onHeaderValue, hodd, appendHeader, hmodify]

theorem foldl_headerValue {request : HttpRequest} {done : List (Option Bytes)}
    {field value : Option Bytes} (hheaders : request.headers = done ++ [field, value])
    (heven : done.length % 2 = 0)
    (hindex : request.headersIndex = done.length ∨ request.headersIndex = done.length + 1)
    {pieces : List Bytes} (hne : pieces ≠ []) :
    (pieces.map ParserCallback.headerValue).foldl onCallback request =
      { request with
        headers := done ++ [field, pieces.foldl (fun s piece => some (strncat s piece)) value]
        headersIndex := done.length + 1 } := by
  induction pieces generalizing request value with
  | nil => exact absurd rfl hne
  | cons piece pieces ih =>
    rw [List.map_cons, List.foldl_cons, onCallback, onHeaderValue_piece hheaders heven hindex]
    by_cases hpieces : pieces = []
    · simp [hpieces]
    · have hnext : { request with
          headers := done ++ [field, some (strncat value piece)]
          headersIndex := done.length + 1 }.headers =
          done ++ [field, some (strncat value piece)] := rfl
      rw [ih hnext (Or.inr rfl) hpieces]
      rfl

theorem foldl_header {request : HttpRequest} {done : List (Option Bytes)}
    {header : Bytes × Bytes} {callbacks : List ParserCallback} (h : AtHeader request done)
    (hplain : 0 ∉ header.1 ∧ 0 ∉ header.2) (hdelivers : DeliversHeader header callbacks) :
    callbacks.foldl onCallback request =
      { request with
        headers := done ++ [some header.1, some header.2]
        headersIndex := done.length + 1 } := by
  obtain ⟨names, values, hnames, hvalues, hname, hvalue, rfl⟩ := hdelivers
  obtain ⟨first, names, rfl⟩ := List.exists_cons_of_ne_nil hnames
  have hfield : (ParserCallback.headerField first :: names.map .headerField).foldl onCallback
      request = { request with
        headers := done ++ [some header.1, none], headersIndex := done.length } := by
    rw [List.foldl_cons, onCallback, onHeaderField_first h, foldl_headerField rfl h.even rfl]
    have hjoined := foldl_strncat (s := none) (by rw [hname]; exact hplain.1) hnames
    rw [List.foldl_cons, hname] at hjoined
    simp [hjoined]
  rw [List.map_cons, List.foldl_append, hfield, foldl_headerValue rfl h.even (Or.inl rfl) hvalues,
    foldl_strncat (by rw [hvalue]; exact hplain.2) hvalues, hvalue]
  rfl

theorem foldl_headers {request : HttpRequest} {done : List (Option Bytes)}
    {headers : List (Bytes × Bytes)} {callbacks : List (List ParserCallback)}
    (h : AtHeader request done) (hplain : ∀ header ∈ headers, 0 ∉ header.1 ∧ 0 ∉ header.2)
    (hdelivers : List.Forall₂ DeliversHeader headers callbacks) :
    callbacks.flatten.foldl onCallback request =
      { request with
        headers := done ++ headers.flatMap fun header => [some header.1, some header.2]
        headersIndex := (done.length + 2 * headers.length) - 1 } := by
  induction hdelivers generalizing request done with
  | nil =>
    obtain ⟨method, url, headers, index, data, complete⟩ := request
    obtain ⟨hheaders, -, hindex⟩ := h
    simp only at hheaders hindex
    simp [hheaders, hindex]
  | @cons header callback headers callbacks hheader _ ih =>
    rw [List.flatten_cons, List.foldl_append,
      foldl_header h (hplain header (List.mem_cons_self ..)) hheader]
    have heven := h.even
    have hnext : AtHeader { request with
        headers := done ++ [some header.1, some header.2]
        headersIndex := done.length + 1 } (done ++ [some header.1, some header.2]) :=
      ⟨rfl, by simp only [List.length_append, List.length_cons, List.length_nil]; omega, by simp⟩
    rw [ih hnext fun other hother => hplain other (List.mem_cons_of_mem _ hother)]
    have hlength : (done ++ [some header.1, some header.2]).length + 2 * headers.length =
        done.length + 2 * (header :: headers).length := by
      simp only [List.length_append, List.length_cons, List.length_nil]
      omega
    rw [hlength]
    simp

/-- However the parser cuts the texts of a message, the object is the one of the message. -/
theorem foldl_delivers {message : HttpMessage} {callbacks : List ParserCallback}
    (hplain : message.Plain) (h : Delivers message callbacks) :
    callbacks.foldl onCallback httpRequestInit = httpRequestOf message := by
  obtain ⟨urls, bodies, headers, hurls, hurl, hheaders, hbody, rfl⟩ := h
  rw [List.foldl_append, List.foldl_append, List.foldl_append, foldl_url,
    foldl_strncat (by rw [hurl]; exact hplain.url) hurls,
    foldl_headers ⟨rfl, rfl, rfl⟩ hplain.headers hheaders, foldl_body]
  simp [onCallback, onMessageComplete, httpRequestOf, httpRequestInit, hurl, hbody]

theorem foldl_complete (request : HttpRequest) (callbacks : List ParserCallback)
    (h : ∀ method, .messageComplete method ∉ callbacks) :
    (callbacks.foldl onCallback request).complete = request.complete := by
  induction callbacks generalizing request with
  | nil => rfl
  | cons callback callbacks ih =>
    rw [List.foldl_cons, ih _ fun method hmem => h method (List.mem_cons_of_mem _ hmem)]
    cases callback with
    | url | body => rfl
    | headerField text =>
      simp only [onCallback, onHeaderField, appendHeader]
      split <;> split <;> rfl
    | headerValue text =>
      simp only [onCallback, onHeaderValue, appendHeader]
      split <;> rfl
    | messageComplete method => exact absurd (List.mem_cons_self ..) (h method)

end WinAirPlay
