import WinAirPlay.Http.Request

/-! # The response object of `http_response.cpp`

The response is the text written so far; the capacity of its buffer is left out.
-/

namespace WinAirPlay
open Foundations.ByteBuffer
set_option autoImplicit false

structure HttpResponse where
  complete : Bool
  disconnect : Bool
  data : Bytes

def httpResponseAddData (response : HttpResponse) (data : Bytes) : HttpResponse :=
  { response with data := response.data ++ data }

/-- The first line: protocol, code and message. -/
def httpResponseInit (protocol : String) (code : ℕ) (message : String) : HttpResponse where
  complete := false
  disconnect := false
  data := ascii (protocol ++ " " ++ toString code ++ " " ++ message ++ "\r\n")

def httpResponseAddHeader (response : HttpResponse) (name : String) (value : Bytes) :
    HttpResponse :=
  httpResponseAddData response (ascii name ++ ascii ": " ++ value ++ ascii "\r\n")

def httpResponseFinish (response : HttpResponse) (data : Bytes) : HttpResponse :=
  let response :=
    if data ≠ [] then
      httpResponseAddData
        (httpResponseAddData response
          (ascii ("Content-Length: " ++ toString data.length ++ "\r\n\r\n"))) data
    else httpResponseAddData response (ascii "\r\n")
  { response with complete := true }

def httpResponseSetDisconnect (response : HttpResponse) (disconnect : Bool) : HttpResponse :=
  { response with disconnect := disconnect }

@[simp] theorem httpResponseAddHeader_disconnect (response : HttpResponse) (name : String)
    (value : Bytes) : (httpResponseAddHeader response name value).disconnect = response.disconnect :=
  rfl

@[simp] theorem httpResponseFinish_disconnect (response : HttpResponse) (data : Bytes) :
    (httpResponseFinish response data).disconnect = response.disconnect := by
  unfold httpResponseFinish
  by_cases h : data ≠ []
  · rw [if_pos h]
    rfl
  · rw [if_neg h]
    rfl

end WinAirPlay
