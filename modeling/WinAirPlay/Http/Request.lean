import WinAirPlay.Foundations.ByteBuffer

/-! # The request object of `http_request.cpp`

The callbacks of the HTTP parser collect the url, the header fields and values, and the body in
the request. A text is a C string: what is appended ends at its first zero byte.
-/

namespace WinAirPlay
open Foundations.ByteBuffer
set_option autoImplicit false

/-- The bytes of a string literal of the source. -/
def ascii (s : String) : Bytes := s.toList.map fun c => UInt8.ofNat c.toNat

structure HttpRequest where
  method : Option String
  url : Option Bytes
  /-- The `headers_size` entries of `headers`: fields at even indices, values at odd ones. -/
  headers : List (Option Bytes)
  headersIndex : ℕ
  data : Bytes
  complete : Bool
  deriving DecidableEq

def httpRequestInit : HttpRequest where
  method := none
  url := none
  headers := []
  headersIndex := 0
  data := []
  complete := false

/-- `strncat(s, at, length)`, where `NULL` was replaced by an empty string. -/
def strncat (s : Option Bytes) (text : Bytes) : Bytes := s.getD [] ++ text.takeWhile (· ≠ 0)

def onUrl (request : HttpRequest) (text : Bytes) : HttpRequest :=
  { request with url := some (strncat request.url text) }

/-- Appends to the entry at `headers_index`. -/
def appendHeader (request : HttpRequest) (text : Bytes) : HttpRequest :=
  { request with
    headers := request.headers.modify request.headersIndex fun s => some (strncat s text) }

def onHeaderField (request : HttpRequest) (text : Bytes) : HttpRequest :=
  let request :=
    if request.headersIndex % 2 = 1 then
      { request with headersIndex := request.headersIndex + 1 }
    else request
  let request :=
    if request.headersIndex = request.headers.length then
      { request with headers := request.headers ++ [none, none] }
    else request
  appendHeader request text

def onHeaderValue (request : HttpRequest) (text : Bytes) : HttpRequest :=
  let request :=
    if request.headersIndex % 2 = 0 then
      { request with headersIndex := request.headersIndex + 1 }
    else request
  appendHeader request text

def onBody (request : HttpRequest) (text : Bytes) : HttpRequest :=
  { request with data := request.data ++ text }

/-- The parser knows the name of the method when the message is complete. -/
def onMessageComplete (request : HttpRequest) (methodName : String) : HttpRequest :=
  { request with method := some methodName, complete := true }

/-- The value after the first field with this name. -/
def findHeader (name : Bytes) : List (Option Bytes) → Option Bytes
  | field :: value :: rest => if field = some name then value else findHeader name rest
  | _ => none

def httpRequestGetHeader (request : HttpRequest) (name : String) : Option Bytes :=
  findHeader (ascii name) request.headers

end WinAirPlay
