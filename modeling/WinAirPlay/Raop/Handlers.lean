import WinAirPlay.Http.ResponseBuffer
import WinAirPlay.Pairing.Verify
import WinAirPlay.Raop.Fairplay
import WinAirPlay.Raop.Plist
import WinAirPlay.Utils.HwAddr

/-! # The handlers of `raop_handlers.h`

Every handler on checked memory: it stops where the source would read outside a buffer or through a
null pointer, fail an `assert`, exit or loop for ever. The response headers of a handler are
collected and added when it returns. Calls to the media sessions are recorded with their arguments;
a variable that is passed before it is written is `none`.
-/

namespace WinAirPlay.Raop
open Foundations.ByteBuffer Foundations.CheckedMemory Utils
set_option autoImplicit false

/-! ## The connection and what a request meets -/

/-- `raop_conn_s`. A session is named by the number of sessions allocated before it, a count that
the source does not keep. -/
structure RaopConnS extends RaopConn where
  fairplay : Fairplay
  remote : Bytes
  raopNtp : Option ℕ
  raopRtp : Option ℕ
  raopRtpMirror : Option ℕ
  allocated : ℕ

def connInit (raopPairing : Pairing) (remote : Bytes) : RaopConnS where
  toRaopConn := raopConnInit raopPairing
  fairplay := fairplayInit
  remote := remote
  raopNtp := none
  raopRtp := none
  raopRtpMirror := none
  allocated := 0

/-- The C strings and buffers of `dnssd_s`. -/
structure Dnssd where
  airplayTxt : Bytes
  name : Bytes
  hwAddr : Bytes

/-- A request and what its handler finds: the fields of `raop_s`, whether the audio thread runs, the
ports that the system assigns, and what the variable `type` holds in pass `i` before it is
written. -/
structure RaopExchange extends Exchange where
  dnssd : Option Dnssd
  port : ℕ
  rtpRunning : Bool
  timingLport : ℕ
  dataPort : ℕ → ℕ
  controlPort : ℕ → ℕ
  typeBefore : ℕ → ℕ

/-- A call to a media session. A text stands for the numbers that `strtol` or `sscanf` reads in
it. -/
inductive MediaCall
  | ntpInit (remote : Bytes) (timingRport : Option ℕ)
  | ntpStart
  | rtpInit (remote : Bytes) (aeskey : Option Bytes) (aesiv ecdhSecret : Bytes)
  | mirrorInit (remote : Bytes) (aeskey : Option Bytes) (ecdhSecret : Bytes)
  | remoteControlId (dacpId activeRemote : Bytes)
  | initMirrorAes (streamConnectionId : Option ℕ)
  | startMirror (useUdp : Bool)
  | startAudio (useUdp : Bool) (controlRport : ℕ)
  | setVolume (text : Bytes)
  | setProgress (text : Bytes)
  | setCoverart (data : Bytes)
  | setMetadata (data : Bytes)
  | flush (text : Option Bytes)
  | rtpStop
  | rtpDestroy
  | mirrorDestroy
  deriving DecidableEq

/-- What a handler leaves behind; `responseData` is `none` when it stays `NULL`. -/
structure Outcome where
  conn : RaopConnS
  headers : List (String × Bytes)
  disconnect : Bool
  responseData : Option Bytes
  calls : List MediaCall

def unanswered (conn : RaopConnS) : Outcome where
  conn := conn
  headers := []
  disconnect := false
  responseData := none
  calls := []

def contentType (s : String) : String × Bytes := ("Content-Type", ascii s)

/-! ## The accessors of the request -/

/-- `strcmp` reads every field up to the one that is asked for. -/
def getHeader (name : Bytes) : List (Option Bytes) → Checked (Option Bytes)
  | some field :: value :: rest => if field = name then .ok value else getHeader name rest
  | none :: _ :: _ => .error .nullPointer
  | _ => .ok none

def httpRequestGetHeader (request : HttpRequest) (name : String) : Checked (Option Bytes) :=
  getHeader (ascii name) request.headers

/-- The body and `datalen`. -/
def httpRequestGetData (request : HttpRequest) : Bytes × ℤ :=
  (request.data, intOf request.data.length)

/-! ## `GET /info` -/

/-- The text that `strlen` or `strdup` finds in a block. -/
def cString (b : Bytes) : Checked Bytes :=
  if 0 ∈ b then .ok (b.takeWhile (· ≠ 0)) else .error (.outOfBounds b.length b.length)

def airplayPk : Bytes := ascii "b07727d6f6cd6e08b58ede525ec3cdeaa252ad9f683feb212ef8a205246554e7"

def infoPlist (dnssd : Dnssd) (hwAddr pk : Bytes) : Plist :=
  plistNewDict [
    ("txtAirPlay", .data dnssd.airplayTxt),
    ("features", .uint (0x1E <<< 32 ||| 0x5A7FFFF7)),
    ("name", .string dnssd.name),
    ("audioFormats", .array [
      plistNewDict [("type", .uint 100), ("audioInputFormats", .uint 67108860),
        ("audioOutputFormats", .uint 67108860)],
      plistNewDict [("type", .uint 101), ("audioInputFormats", .uint 67108860),
        ("audioOutputFormats", .uint 67108860)]]),
    ("pi", plistNewString "2e388006-13ba-4041-9a67-25dd4a43d536"),
    ("vv", .uint 2),
    ("statusFlags", .uint 68),
    ("keepAliveLowPower", .boolean true),
    ("sourceVersion", plistNewString "220.68"),
    ("pk", .data pk),
    ("keepAliveSendStatsAsBody", .boolean true),
    ("deviceID", .string hwAddr),
    ("audioLatencies", .array [
      plistNewDict [("outputLatencyMicros", .uint 0), ("type", .uint 100),
        ("audioType", plistNewString "default"), ("inputLatencyMicros", .uint 0)],
      plistNewDict [("outputLatencyMicros", .uint 0), ("type", .uint 101),
        ("audioType", plistNewString "default"), ("inputLatencyMicros", .uint 0)]]),
    ("model", plistNewString "AppleTV2,1"),
    ("macAddress", .string hwAddr),
    ("displays", .array [
      plistNewDict [
        ("uuid", plistNewString "e0ff8a27-6738-3d56-8a16-cc53aacee925"),
        ("widthPhysical", .uint 0), ("heightPhysical", .uint 0),
        ("width", .uint 1920), ("height", .uint 1080),
        ("widthPixels", .uint 1920), ("heightPixels", .uint 1080),
        ("rotation", .boolean false),
        -- the bit pattern of 1.0 / 60.0
        ("refreshRate", .real 0x3F91111111111111),
        ("overscanned", .boolean true), ("features", .uint 14)]])]

section
variable (P : Openssl) (F : Playfair) (L : Libplist)

def raopHandlerInfo (conn : RaopConnS) (x : RaopExchange) : Checked Outcome :=
  match x.dnssd with
  | none => .error .assertionFailed
  | some dnssd => do
    let strlen ← mulInt 3 dnssd.hwAddr.length
    let hwAddr := List.replicate (← asSize strlen) 0
    let (hwAddr, _) ← utilsHwaddrAirplay hwAddr strlen dnssd.hwAddr
    let hwAddr ← cString hwAddr
    let pk ← utilsParseHex (fun _ => 0) airplayPk airplayPk.length
    .ok { unanswered conn with
      headers := [contentType "application/x-apple-binary-plist"]
      responseData := some (L.toBin (infoPlist dnssd hwAddr (pk.getD []))) }

/-! ## Pairing and FairPlay -/

def raopHandlerPairsetup (conn : RaopConnS) (x : RaopExchange) : Checked Outcome :=
  if (httpRequestGetData x.request).2 ≠ 32 then .ok (unanswered conn)
  else
    .ok { unanswered { conn with pairing := pairingSessionSetSetupStatus conn.pairing } with
      headers := [contentType "application/octet-stream"]
      responseData := some (pairingGetPublicKey P conn.raopPairing) }

/-- `EVP_PKEY_derive` refuses a secret of zeros, and then `handle_error` exits. -/
def x25519DeriveSecret (ours theirs : Bytes) : Checked Bytes :=
  if P.x25519Derive ours theirs = List.replicate x25519KeySize 0 then .error .exited
  else .ok (P.x25519Derive ours theirs)

def pairingSessionHandshake (session : PairingSession) (ecdhKey edKey generated : Bytes) :
    Checked (ℤ × PairingSession) :=
  if session.status = .finished then .ok (-1, session)
  else do
    let _ ← x25519DeriveSecret P generated ecdhKey
    .ok (WinAirPlay.pairingSessionHandshake P session ecdhKey edKey generated)

def raopHandlerPairverify (conn : RaopConnS) (x : RaopExchange) : Checked Outcome :=
  if pairingSessionCheckHandshakeStatus conn.pairing ≠ 0 then .ok (unanswered conn)
  else
    let (data, datalen) := httpRequestGetData x.request
    if datalen < 4 then .ok (unanswered conn)
    else do
      let phase ← readByte data 0
      if phase = 1 then
        if datalen ≠ 4 + x25519KeySize + x25519KeySize then .ok (unanswered conn)
        else
          let ecdhKey ← readRange data 4 x25519KeySize
          let edKey ← readRange data (4 + x25519KeySize) x25519KeySize
          let r ← pairingSessionHandshake P conn.pairing ecdhKey edKey x.generated
          -- errors are fallen through; a buffer that was not filled is empty here
          let publicKey := (pairingSessionGetPublicKey P r.2).2.getD []
          let signature := (pairingSessionGetSignature P r.2).2.getD []
          .ok { unanswered { conn with pairing := r.2 } with
            headers := [contentType "application/octet-stream"]
            responseData := some (publicKey ++ signature) }
      else if phase = 0 then
        if datalen ≠ 4 + pairingSigSize then .ok (unanswered conn)
        else
          let signature ← readRange data 4 pairingSigSize
          let r := pairingSessionFinish P conn.pairing signature
          if r.1 ≠ 0 then
            .ok { unanswered { conn with pairing := r.2 } with disconnect := true }
          else
            .ok { unanswered { conn with pairing := r.2 } with
              headers := [contentType "application/octet-stream"] }
      else .ok (unanswered conn)

def raopHandlerFpsetup (conn : RaopConnS) (x : RaopExchange) : Checked Outcome :=
  let (data, datalen) := httpRequestGetData x.request
  if datalen = 16 then do
    let r ← fairplaySetup conn.fairplay data
    .ok { unanswered { conn with fairplay := r.1 } with
      headers := [contentType "application/octet-stream"], responseData := r.2 }
  else if datalen = 164 then do
    let r ← fairplayHandshake conn.fairplay data
    .ok { unanswered { conn with fairplay := r.1 } with
      headers := [contentType "application/octet-stream"], responseData := r.2 }
  else .ok (unanswered conn)

end

def raopHandlerOptions (conn : RaopConnS) : Outcome :=
  { unanswered conn with
    headers := [("Public",
      ascii "SETUP, RECORD, PAUSE, FLUSH, TEARDOWN, OPTIONS, GET_PARAMETER, SET_PARAMETER")] }

/-! ## `SETUP` -/

/-- One of the two parts of `raop_handler_setup`: the connection after it and the nodes that it adds
to the response. -/
structure SetupPart where
  conn : RaopConnS
  items : List (String × Plist)
  disconnect : Bool
  calls : List MediaCall

/-- `raop_ntp_init` makes a dotted quad of the first four bytes, which is no IPv6 address. -/
def raopNtpParseRemoteAddress (remote : Bytes) : Bool := remote.length = 4

/-- The part that initializes the keys and the timing. -/
def setupKeys (F : Playfair) (conn : RaopConnS) (x : RaopExchange) (root : Option Plist) :
    Checked SetupPart :=
  match plistGetDataVal (plistDictGetItem root "eiv"),
    plistGetDataVal (plistDictGetItem root "ekey") with
  | some eiv, some ekey => do
    let aesiv ← readRange eiv 0 16
    let aeskey ← fairplayDecrypt F conn.fairplay ekey
    let ecdhSecret := conn.pairing.ecdhSecret
    let timingRport := (plistGetUintVal (plistDictGetItem root "timingPort")).map (· % 2 ^ 16)
    -- `raop_ntp_start` dereferences what `raop_ntp_init` returned
    if raopNtpParseRemoteAddress conn.remote = false then .error .nullPointer
    else
      .ok {
        conn := { conn with
          raopNtp := some conn.allocated
          raopRtp := some (conn.allocated + 1)
          raopRtpMirror := some (conn.allocated + 2)
          allocated := conn.allocated + 3 }
        items := [("timingPort", .uint x.timingLport), ("eventPort", .uint x.port)]
        disconnect := false
        calls := [.ntpInit conn.remote timingRport, .ntpStart,
          .rtpInit conn.remote aeskey aesiv ecdhSecret, .mirrorInit conn.remote aeskey ecdhSecret] }
  | _, _ => .ok ⟨conn, [], false, []⟩

/-- What one pass over `streams` adds to the response, the calls it makes and whether it asks for a
disconnect. -/
def setupStream (conn : RaopConnS) (x : RaopExchange) (useUdp : Bool) (i : ℕ) (stream : Plist) :
    List Plist × List MediaCall × Bool :=
  let type := (plistGetUintVal (plistDictGetItem (some stream) "type")).getD (x.typeBefore i)
  if type = 110 then
    let streamConnectionId := plistGetUintVal (plistDictGetItem (some stream) "streamConnectionID")
    let mirror := conn.raopRtpMirror.isSome
    ([plistNewDict [("dataPort", .uint (if mirror then x.dataPort i else 0)), ("type", .uint 110)]],
      if mirror then [.initMirrorAes streamConnectionId, .startMirror useUdp] else [], !mirror)
  else if type = 96 then
    let rtp := conn.raopRtp.isSome
    ([plistNewDict [("dataPort", .uint (if rtp then x.dataPort i else 0)),
        ("controlPort", .uint (if rtp then x.controlPort i else 0)), ("type", .uint 96)]],
      if rtp then [.startAudio useUdp 0] else [], !rtp)
  else ([], [], true)

/-- The part that processes the stream requests. -/
def setupStreams (conn : RaopConnS) (x : RaopExchange) (useUdp : Bool) (root : Option Plist) :
    SetupPart :=
  match plistArrayItems (plistDictGetItem root "streams") with
  | some streams =>
    let passes := streams.zipIdx.map fun s => setupStream conn x useUdp s.2 s.1
    { conn := conn
      items := [("streams", .array (passes.flatMap fun pass => pass.1))]
      disconnect := passes.any fun pass => pass.2.2
      calls := passes.flatMap fun pass => pass.2.1 }
  | none => ⟨conn, [], false, []⟩

/-- `strncmp(transport, "RTP/AVP/TCP", 11)`, or 0 without the header. -/
def transportUdp : Option Bytes → Bool
  | some transport => transport.take 11 ≠ ascii "RTP/AVP/TCP"
  | none => false

def remoteControl (conn : RaopConnS) : Option Bytes → Option Bytes → List MediaCall
  | some dacpId, some activeRemote =>
    if conn.raopRtp.isSome then [.remoteControlId dacpId activeRemote] else []
  | _, _ => []

/-- The body that `plist_from_bin` is given, with its length as an `uint32_t`. -/
def plistBody (request : HttpRequest) : Bytes := request.data.take (request.data.length % 2 ^ 32)

def raopHandlerSetup (F : Playfair) (L : Libplist) (conn : RaopConnS) (x : RaopExchange) :
    Checked Outcome := do
  let dacpId ← httpRequestGetHeader x.request "DACP-ID"
  let activeRemote ← httpRequestGetHeader x.request "Active-Remote"
  let transport ← httpRequestGetHeader x.request "Transport"
  let root := L.fromBin (plistBody x.request)
  let keys ← setupKeys F conn x root
  let streams := setupStreams keys.conn x (transportUdp transport) root
  .ok {
    conn := streams.conn
    headers := [contentType "application/x-apple-binary-plist"]
    disconnect := keys.disconnect || streams.disconnect
    responseData := some (L.toBin (plistNewDict (keys.items ++ streams.items)))
    calls := remoteControl conn dacpId activeRemote ++ keys.calls ++ streams.calls }

/-! ## Parameters -/

/-- The loop over `next`: the first carriage return from there on, or the end. -/
def findCr (data : Bytes) (datalen : ℤ) : ℕ → ℤ → Checked ℤ
  | 0, _ => .error .endlessLoop
  | passes + 1, next =>
    if 0 < datalen - next then do
      if (← readByte data next) = 13 then .ok next else findCr data datalen passes (next + 1)
    else .ok next

/-- `datalen - (at - data) >= n && !strncmp(at, text, n)` for a text of `n` characters. -/
def startsWith (data : Bytes) (datalen index : ℤ) (text : Bytes) : Checked Bool :=
  if text.length ≤ datalen - index then do
    .ok (decide ((← readRange data index text.length) = text))
  else .ok false

/-- The loop over `current`: whether it comes to a line that asks for the volume. -/
def findVolume (data : Bytes) (datalen : ℤ) : ℕ → ℤ → Checked Bool
  | 0, _ => .error .endlessLoop
  | passes + 1, current =>
    if 0 < datalen - current then do
      if ← startsWith data datalen current (ascii "volume\r\n") then .ok true
      else
        let next ← findCr data datalen (datalen.toNat + 1) current
        if ← startsWith data datalen next (ascii "\r\n") then
          findVolume data datalen passes (next + 2)
        else .ok false
    else .ok false

/-- `strcmp` dereferences a header that is `NULL`. -/
def requireHeader : Option Bytes → Checked Bytes
  | some value => .ok value
  | none => .error .nullPointer

def raopHandlerGetParameter (conn : RaopConnS) (x : RaopExchange) : Checked Outcome := do
  let header ← requireHeader (← httpRequestGetHeader x.request "Content-Type")
  let (data, datalen) := httpRequestGetData x.request
  if header = ascii "text/parameters" then
    if ← findVolume data datalen (datalen.toNat + 1) 0 then
      .ok { unanswered conn with
        headers := [contentType "text/parameters"], responseData := some (ascii "volume: 0.0\r\n") }
    else .ok (unanswered conn)
  else .ok (unanswered conn)

/-- `calloc(1, n)`, which gives `NULL` for a size that was negative. -/
def calloc (n : ℤ) : Option Bytes := if n < 0 then none else some (List.replicate n.toNat 0)

/-- What `SET_PARAMETER` does with a text of parameters. -/
def setParameters (conn : RaopConnS) (data : Bytes) (datalen : ℤ) : Checked (List MediaCall) := do
  match calloc (← addInt datalen 1) with
  | none => .ok []
  | some datastr =>
    if data ≠ [] ∧ conn.raopRtp.isSome then
      let datastr ← writeRange datastr 0 (← readRange data 0 datalen)
      if 8 ≤ datalen ∧ datastr.take 8 = ascii "volume: " then
        .ok [.setVolume (← cString (datastr.drop 8))]
      else if 10 ≤ datalen ∧ datastr.take 10 = ascii "progress: " then
        .ok [.setProgress (← cString (datastr.drop 10))]
      else .ok []
    else .ok []

def raopHandlerSetParameter (conn : RaopConnS) (x : RaopExchange) : Checked Outcome := do
  let header ← requireHeader (← httpRequestGetHeader x.request "Content-Type")
  let (data, datalen) := httpRequestGetData x.request
  if header = ascii "text/parameters" then
    .ok { unanswered conn with calls := ← setParameters conn data datalen }
  else if header = ascii "image/jpeg" ∨ header = ascii "image/png" then
    .ok { unanswered conn with
      calls := if conn.raopRtp.isSome then [.setCoverart (data.take datalen.toNat)] else [] }
  else if header = ascii "application/x-dmap-tagged" then
    .ok { unanswered conn with
      calls := if conn.raopRtp.isSome then [.setMetadata (data.take datalen.toNat)] else [] }
  else .ok (unanswered conn)

/-! ## The other requests -/

def raopHandlerFeedback (conn : RaopConnS) : Outcome := unanswered conn

def raopHandlerRecord (conn : RaopConnS) : Outcome :=
  { unanswered conn with
    headers := [("Audio-Latency", ascii "11025"),
      ("Audio-Jack-Status", ascii "connected; type=analog")] }

/-- The branch of `conn_request` for `FLUSH`. -/
def flushRequest (conn : RaopConnS) (x : RaopExchange) : Checked Outcome := do
  let rtpinfo ← httpRequestGetHeader x.request "RTP-Info"
  -- `next_seq` stays -1 without a text
  let text := rtpinfo.bind fun rtpinfo =>
    if rtpinfo.take 4 = ascii "seq=" then some (rtpinfo.drop 4) else none
  .ok { unanswered conn with calls := if conn.raopRtp.isSome then [.flush text] else [] }

/-- The branch of `conn_request` for `TEARDOWN`. -/
def teardownRequest (conn : RaopConnS) (x : RaopExchange) : Outcome :=
  if conn.raopRtp.isSome ∧ x.rtpRunning then { unanswered conn with calls := [.rtpStop] }
  else if conn.raopRtpMirror.isSome then
    { unanswered { conn with raopRtp := none, raopRtpMirror := none } with
      calls := [.rtpDestroy, .mirrorDestroy] }
  else unanswered conn

/-! ## `conn_request` -/

section
variable (P : Openssl) (F : Playfair) (L : Libplist)

def runHandler (handler : Option RaopHandler) (conn : RaopConnS) (x : RaopExchange) :
    Checked Outcome :=
  match handler with
  | some .info => raopHandlerInfo L conn x
  | some .pairsetup => raopHandlerPairsetup P conn x
  | some .pairverify => raopHandlerPairverify P conn x
  | some .fpsetup => raopHandlerFpsetup conn x
  | some .options => .ok (raopHandlerOptions conn)
  | some .setup => raopHandlerSetup F L conn x
  | some .getParameter => raopHandlerGetParameter conn x
  | some .setParameter => raopHandlerSetParameter conn x
  | some .feedback => .ok (raopHandlerFeedback conn)
  | some .record => .ok (raopHandlerRecord conn)
  | some .flush => flushRequest conn x
  | some .teardown => .ok (teardownRequest conn x)
  | none => .ok (unanswered conn)

variable (garbage : ℕ → UInt8)

def addHeaders (response : ResponseBuffer.HttpResponseS) (headers : List (String × Bytes)) :
    Checked ResponseBuffer.HttpResponseS :=
  headers.foldlM (fun response header =>
    ResponseBuffer.httpResponseAddHeader garbage response (ascii header.1) header.2) response

/-- The connection after a request, the response if there is one, and the calls that were made. -/
def connRequest (conn : RaopConnS) (x : RaopExchange) :
    Checked (RaopConnS × Option ResponseBuffer.HttpResponseS × List MediaCall) := do
  let cseq ← httpRequestGetHeader x.request "CSeq"
  match x.request.method, cseq with
  | some method, some cseq =>
    let response ← ResponseBuffer.httpResponseInit garbage (ascii "RTSP/1.0") 200 (ascii "OK")
    let response ← addHeaders garbage response
      [("CSeq", cseq), ("Server", ascii "AirTunes/220.68")]
    -- these two methods make `strcmp` read the url
    if (method = "GET" ∨ method = "POST") ∧ x.request.url = none then .error .nullPointer
    else
      let o ← runHandler P F L (selectHandler method x.request.url) conn x
      let response ← addHeaders garbage response o.headers
      let response := { response with disconnect := o.disconnect }
      let response ← ResponseBuffer.httpResponseFinish garbage response o.responseData
        (intOf (o.responseData.getD []).length)
      .ok (o.conn, some response, o.calls)
  | _, _ => .ok (conn, none, [])

/-- The connection after a history of requests. -/
def connRun (conn : RaopConnS) (history : List RaopExchange) : Checked RaopConnS :=
  history.foldlM (fun conn x => do .ok (← connRequest P F L garbage conn x).1) conn

end

end WinAirPlay.Raop
